import Mathlib.Logic.Relation
import JobBoard.Auth.Provenance

/-!
# Lines of refresh tokens

A rotation stores the successor of the token that it presents. The facts here hold
under every condition: what was stored stays stored, a call stores one token at
most, and what it had read still tells who the token belongs to.
-/

set_option autoImplicit false

namespace JobBoard.Auth

open Txn Prog

/-! ## Positions in the log -/

section

theorem log_positions {α : Type} {l r l' r' : List α} {a b : α} (h : l ++ a :: r = l' ++ b :: r') :
    l ++ [a] <+: l' ∨ (l = l' ∧ a = b) ∨ l' ++ [b] <+: l := by
  rcases List.append_eq_append_iff.1 h with ⟨m, rfl, hm⟩ | ⟨m, rfl, hm⟩
  · cases m with
    | nil =>
      cases hm
      exact .inr (.inl ⟨(List.append_nil l).symm, rfl⟩)
    | cons c m =>
      cases hm
      exact .inl ⟨m, by simp⟩
  · cases m with
    | nil =>
      cases hm
      exact .inr (.inl ⟨List.append_nil l', rfl⟩)
    | cons c m =>
      cases hm
      exact .inr (.inr ⟨m, by simp⟩)

theorem log_later {α : Type} {L l r : List α} {a : α} (h : L = l ++ a :: r) : l ++ [a] <+: L :=
  ⟨r, by rw [h, List.append_assoc]; rfl⟩

variable {C : Condition} {i : Nat} {op : Op} {l m L : Log} {g : Txn.Group Write}

/-- A group that another call publishes meanwhile. -/
theorem Meanwhile.passes (h : Meanwhile C i op l L) (hl : l <+: m) (hm : m ++ [g] <+: L) :
    Meanwhile C i op l m ∧ g.call ≠ i ∧ C.allowed i op m g := by
  induction h with
  | refl =>
    have hlen := (hm.trans hl).length_le
    rw [List.length_append, List.length_singleton] at hlen
    omega
  | @other L g' hL hg ha ih =>
    rcases List.prefix_concat_iff.1 hm with heq | hm
    · obtain ⟨rfl, hgg⟩ := List.append_inj' heq rfl
      cases hgg
      exact ⟨hL, hg, ha⟩
    · exact ih hm

end

/-! ## Stored tokens -/

section

variable {env : Environment} {d₀ : Db} {C : Condition} {s : RunState} {l r : Log}
  {g : Txn.Group Write} {t : RefreshToken}

/-- The call that stores a token tells its hash. -/
theorem Issues.tokenHash {i : Nat} {op : Op} {L : Log} (h : Issues env d₀ C i op L t) :
    t.tokenHash = AuthService.hashToken env (env.randomBytes i 0) := by
  cases op with
  | login dto =>
    obtain ⟨l, user, now, -, -, -, -, -, rfl⟩ := h
    rfl
  | verifyMfaChallenge mfaToken code =>
    obtain ⟨l, m, m', user, now, -, -, -, -, -, -, -, rfl⟩ := h
    rfl
  | refreshTokens value =>
    obtain ⟨l, parent, user, now, -, -, -, -, -, rfl⟩ := h
    rfl
  | _ => exact h.elim

/-- The row that an insertion has stored. -/
theorem kept_stored (hk : Kept (system env) (conduct env d₀ C) d₀ s) (hlog : s.log = l ++ g :: r)
    (ht : .insertRefreshToken t ∈ g.writes) :
    (d₀.at (l ++ [g])).tokenByHash t.tokenHash = some t := by
  obtain ⟨-, op, -, -, hpub⟩ := hk.log hlog
  obtain ⟨hws, hid, hhash, -⟩ := hpub.issue t ht
  have hins : (store.apply (d₀.at l) (.insertRefreshToken t)).refreshTokens.rows =
      (d₀.at l).refreshTokens.rows ++ [t] := Table.insert_rows hid
  have hhash' : (d₀.at l).refreshTokens.rows.find? (·.tokenHash == t.tokenHash) = none := hhash
  rw [Db.at_snoc, hws]
  show List.find? _ (store.apply (d₀.at l) (.insertRefreshToken t)).refreshTokens.rows = some t
  rw [hins, List.find?_append, hhash']
  simp

theorem kept_properLog (hk : Kept (system env) (conduct env d₀ C) d₀ s) (hl : l <+: s.log) :
    ProperLog l :=
  fun g hg => hk.inv g (hl.subset hg)

/-- No two tokens with one hash are stored. -/
theorem stored_once (hk : Kept (system env) (conduct env d₀ C) d₀ s) (hlog : s.log = l ++ g :: r)
    (ht : .insertRefreshToken t ∈ g.writes) {l' r' : Log} {g' : Txn.Group Write} {t' : RefreshToken}
    (hlog' : s.log = l' ++ g' :: r') (ht' : .insertRefreshToken t' ∈ g'.writes)
    (hhash : t.tokenHash = t'.tokenHash) : l = l' ∧ g = g' := by
  -- the later of two insertions finds the row of the earlier one
  have order : ∀ {l r l' r' : Log} {g g' : Txn.Group Write} {t t' : RefreshToken},
      s.log = l ++ g :: r → .insertRefreshToken t ∈ g.writes → s.log = l' ++ g' :: r' →
      .insertRefreshToken t' ∈ g'.writes → t.tokenHash = t'.tokenHash → ¬ l ++ [g] <+: l' := by
    intro l r l' r' g g' t t' hlog ht hlog' ht' hhash hle
    obtain ⟨-, op, -, hl', hpub⟩ := hk.log hlog'
    obtain ⟨-, -, hfree, -⟩ := hpub.issue t' ht'
    obtain ⟨t₁, h₁, -⟩ := ProperLog.hash_stays hl' hle (kept_stored hk hlog ht)
    rw [← hhash, h₁] at hfree
    cases hfree
  rcases log_positions (hlog.symm.trans hlog') with h | h | h
  · exact (order hlog ht hlog' ht' hhash h).elim
  · exact h
  · exact (order hlog' ht' hlog ht hhash.symm h).elim

/-- A call stores one token at most. -/
theorem issued_once (hk : Kept (system env) (conduct env d₀ C) d₀ s) (hlog : s.log = l ++ g :: r)
    (ht : .insertRefreshToken t ∈ g.writes) {l' r' : Log} {g' : Txn.Group Write} {t' : RefreshToken}
    (hlog' : s.log = l' ++ g' :: r') (ht' : .insertRefreshToken t' ∈ g'.writes)
    (hcall : g'.call = g.call) : l = l' ∧ g = g' := by
  obtain ⟨-, op, -, -, hissue⟩ := kept_issued hk hlog ht
  obtain ⟨-, op', -, -, hissue'⟩ := kept_issued hk hlog' ht'
  refine stored_once hk hlog ht hlog' ht' ?_
  rw [hissue.tokenHash, hissue'.tokenHash, hcall]

/-- A row keeps its user. -/
theorem ProperLog.same_user {m L : Log} {hash : String} {t t' : RefreshToken}
    (hL : ProperLog L) (hl : l <+: L) (hm : m <+: L) (h : (d₀.at l).tokenByHash hash = some t)
    (h' : (d₀.at m).tokenByHash hash = some t') : t.userId = t'.userId := by
  obtain ⟨t₁, h₁, ha⟩ := hL.hash_stays hl h
  obtain ⟨t₂, h₂, ha'⟩ := hL.hash_stays hm h'
  cases h₁.symm.trans h₂
  exact ha.userId.symm.trans ha'.userId

end

/-! ## Lines -/

section

variable (env : Environment) (s : RunState)

/-- A call that presented the token with the first hash has stored the second. -/
def Rotates (h h' : String) : Prop :=
  ∃ i value t, s.ops[i]? = some (.refreshTokens value) ∧ h = AuthService.hashToken env value ∧
    Published i s.log (.insertRefreshToken t) ∧ h' = t.tokenHash

/-- The token descends by rotation from a session. -/
def Descends : String → String → Prop := Relation.ReflTransGen (Rotates env s)

end

end JobBoard.Auth
