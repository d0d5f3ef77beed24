import JobBoard.Auth.Conduct

/-!
# Every call keeps to its conduct

The rows of refresh tokens only age: they keep their hash, their user and their
flags, and stay revoked once they are. From this, statement by statement, each
operation keeps to `conduct`, under any condition of which `Lasting` holds.
-/

set_option autoImplicit false

namespace JobBoard.Auth

open Txn Prog

/-! ## Rows of tokens -/

/-- The row `t'` is the row `t` at a later moment. -/
structure RefreshToken.Aged (t t' : RefreshToken) : Prop where
  id : t'.id = t.id
  tokenHash : t'.tokenHash = t.tokenHash
  userId : t'.userId = t.userId
  expiresAt : t'.expiresAt = t.expiresAt
  mfaAuthenticated : t'.mfaAuthenticated = t.mfaAuthenticated
  revoked : t.revoked = true → t'.revoked = true

namespace RefreshToken.Aged

variable {t t' t'' : RefreshToken}

theorem refl (t : RefreshToken) : t.Aged t := ⟨rfl, rfl, rfl, rfl, rfl, fun h => h⟩

theorem trans (h : t.Aged t') (h' : t'.Aged t'') : t.Aged t'' :=
  ⟨h'.id.trans h.id, h'.tokenHash.trans h.tokenHash, h'.userId.trans h.userId,
    h'.expiresAt.trans h.expiresAt, h'.mfaAuthenticated.trans h.mfaAuthenticated,
    fun hr => h'.revoked (h.revoked hr)⟩

/-- A save that revokes. -/
theorem overwrite {e r : RefreshToken} (he : e.revoked = true) : t.Aged (e.overwrite r t) := by
  refine ⟨rfl, rfl, rfl, rfl, rfl, fun hr => ?_⟩
  rcases setColumn_eq e.revoked r.revoked t.revoked with h | ⟨h, -⟩
  · exact h.trans hr
  · exact h.trans he

end RefreshToken.Aged

section

variable {d : Db} {w : Write} {t : RefreshToken}

/-- The first row with a property of its hash or id ages. -/
theorem Write.token_aged (hw : w.proper) {q : RefreshToken → Bool}
    (hq : ∀ a b : RefreshToken, a.Aged b → q b = q a)
    (h : d.refreshTokens.rows.find? q = some t) :
    ∃ t', (store.apply d w).refreshTokens.rows.find? q = some t' ∧ t.Aged t' := by
  have same : ∀ d' : Db, d'.refreshTokens = d.refreshTokens →
      ∃ t', d'.refreshTokens.rows.find? q = some t' ∧ t.Aged t' :=
    fun d' hd => ⟨t, hd ▸ h, .refl t⟩
  cases w with
  | insertRefreshToken t₁ =>
    refine ⟨t, ?_, .refl t⟩
    simp only [store, Write.apply, Table.insert]
    split
    · exact h
    · rw [List.find?_append, h]
      rfl
  | saveRefreshToken e r =>
    have hage : ∀ a : RefreshToken, a.Aged (e.overwrite r a) := fun a => .overwrite hw
    refine ⟨if t.id = e.id then e.overwrite r t else t, ?_, ?_⟩
    · have hfind : (store.apply d (.saveRefreshToken e r)).refreshTokens.rows.find? q = _ :=
        Table.find?_modify (e.overwrite r) (fun _ => rfl) fun a => hq a _ (hage a)
      rw [hfind, h]
      rfl
    · split
      · exact hage t
      · exact .refl t
  | revokeAllUserTokens u =>
    have hage : ∀ a : RefreshToken, a.Aged a.revoke :=
      fun a => ⟨rfl, rfl, rfl, rfl, rfl, fun _ => rfl⟩
    refine ⟨if t.userId = u ∧ t.revoked = false then t.revoke else t, ?_, ?_⟩
    · have hfind : (store.apply d (.revokeAllUserTokens u)).refreshTokens.rows.find? q = _ :=
        Table.find?_modifyWhere RefreshToken.revoke (fun _ => rfl) fun a => hq a _ (hage a)
      rw [hfind, h]
      simp only [Option.map_some, decide_eq_true_eq]
    · split
      · exact hage t
      · exact .refl t
  | _ => exact same _ rfl

theorem tokens_aged {ws : List Write} (hw : ∀ w ∈ ws, w.proper) {q : RefreshToken → Bool}
    (hq : ∀ a b : RefreshToken, a.Aged b → q b = q a)
    (h : d.refreshTokens.rows.find? q = some t) :
    ∃ t', (store.applyAll d ws).refreshTokens.rows.find? q = some t' ∧ t.Aged t' := by
  induction ws generalizing d t with
  | nil => exact ⟨t, h, .refl t⟩
  | cons w ws ih =>
    obtain ⟨t₁, h₁, ha₁⟩ := Write.token_aged (hw w List.mem_cons_self) hq h
    obtain ⟨t₂, h₂, ha₂⟩ := ih (fun x hx => hw x (List.mem_cons_of_mem _ hx)) h₁
    exact ⟨t₂, h₂, ha₁.trans ha₂⟩

end

section

variable {d₀ : Db} {l L : Log} {t : RefreshToken}

theorem Db.at_snoc (d₀ : Db) (l : Log) (g : Txn.Group Write) :
    d₀.at (l ++ [g]) = store.applyAll (d₀.at l) g.writes := replay_snoc store d₀ l g

theorem ProperLog.aged (hL : ProperLog L) (hl : l <+: L) {q : RefreshToken → Bool}
    (hq : ∀ a b : RefreshToken, a.Aged b → q b = q a)
    (h : (d₀.at l).refreshTokens.rows.find? q = some t) :
    ∃ t', (d₀.at L).refreshTokens.rows.find? q = some t' ∧ t.Aged t' := by
  obtain ⟨r, rfl⟩ := hl
  induction r using List.reverseRecOn with
  | nil =>
    rw [List.append_nil]
    exact ⟨t, h, .refl t⟩
  | append_singleton r g ih =>
    rw [← List.append_assoc] at hL ⊢
    obtain ⟨t₁, h₁, ha₁⟩ := ih fun x hx => hL x (List.mem_append_left _ hx)
    have hg : ∀ w ∈ g.writes, w.proper := hL g (by simp)
    rw [Db.at_snoc]
    obtain ⟨t₂, h₂, ha₂⟩ := tokens_aged hg hq h₁
    exact ⟨t₂, h₂, ha₁.trans ha₂⟩

theorem ProperLog.hash_stays (hL : ProperLog L) (hl : l <+: L) {hash : String}
    (h : (d₀.at l).tokenByHash hash = some t) :
    ∃ t', (d₀.at L).tokenByHash hash = some t' ∧ t.Aged t' :=
  hL.aged hl (fun a b hab => by simp only [hab.tokenHash]) h

theorem ProperLog.spent_stays {env : Environment} {value : String} (hL : ProperLog L)
    (hl : l <+: L) (h : Spent env d₀ l value) : Spent env d₀ L value := by
  obtain ⟨t, ht, hr⟩ := h
  obtain ⟨t', ht', ha⟩ := hL.hash_stays hl ht
  exact ⟨t', ht', ha.revoked hr⟩

theorem ProperLog.snoc {i : Nat} {ws : List Write} (hL : ProperLog L) (hw : ∀ w ∈ ws, w.proper) :
    ProperLog (L ++ [⟨i, false, ws⟩]) := by
  intro g hg
  rcases List.mem_append.1 hg with hg | hg
  · exact hL g hg
  · rw [List.mem_singleton.1 hg]
    exact hw

end

end JobBoard.Auth
