import JobBoard.Auth.Lineage

/-!
# All sessions end

A password reset and the detection of a reused token revoke the rows that exist at
that moment. A rotation in flight may store its successor just afterwards, and the
line goes on. In the runs where no token of the user is being rotated at that
moment, every line that was open then ends.
-/

set_option autoImplicit false

namespace JobBoard.Auth

open Txn Prog

/-! ## The condition -/

section

variable (env : Environment)

def Write.inserts : Write → Bool
  | .insertRefreshToken _ => true
  | _ => false

/-- The call has stored its token. -/
def issued (i : Nat) (L : Log) : Bool := L.any fun g => g.call == i && g.writes.any Write.inserts

/-- The call is not about to store a successor for a token of the user. -/
def settled (userId : Id) (i : Nat) (op : Op) (L : Log) (d : Db) : Bool :=
  match op with
  | .refreshTokens value => issued i L ||
      (d.tokenByHash (AuthService.hashToken env value)).all fun t => t.userId ≠ userId
  | _ => true

/-- When all sessions of a user are revoked, no other call is about to store a
successor for one of the user's tokens. -/
def rotationsSettled (s : RunState) : Step → Bool
  | .step i => (s.issues i).all fun w =>
      match w with
      | .revokeAllUserTokens userId => (List.range s.ops.length).all fun j =>
          j == i || !(s.call j).isRunning ||
            (s.ops[j]?).all fun op => settled env userId j op s.log s.db
      | _ => true
  | _ => true

/-- What such a run gives. -/
def settledRotations (d₀ : Db) : Condition where
  start _ _ _ := True
  allowed j op L g :=
    ∀ userId, .revokeAllUserTokens userId ∈ g.writes → settled env userId j op L (d₀.at L) = true
  fails _ _ _ := True

end

section

variable {env : Environment} {d₀ : Db} {s : RunState} {l r : Log} {g : Txn.Group Write} {u : Id}

theorem rotationsSettled_history :
    History (system env) (fun s l => rotationsSettled env s l = true)
      (conduct env d₀ (settledRotations env d₀)) d₀ := by
  refine sessions (fun _ _ _ => trivial) ?_ (fun _ _ _ _ => trivial) fun _ _ => trivial
  intro s i op j op' _ hk hok _ hj hij hrun _ _ u hu
  have hdb : s.db = d₀.at s.log := hk.db
  have hlt : j < s.ops.length := (List.getElem?_eq_some_iff.1 hj).1
  have hne : (j == i) = false := beq_eq_false_iff_ne.2 hij
  have hstep := List.all_eq_true.1 (List.all_eq_true.1 hok _ hu) j (List.mem_range.2 hlt)
  simp only [hne, hrun, hj, Bool.not_true, Bool.false_or, Option.all_some, hdb] at hstep
  exact hstep

/-- Revoking all sessions revokes the rows that exist. -/
theorem revokeAll_revokes (hw : g.writes = [.revokeAllUserTokens u]) {hash : String}
    {t : RefreshToken} (h : (d₀.at l).tokenByHash hash = some t) (hu : t.userId = u) :
    ∃ t', (d₀.at (l ++ [g])).tokenByHash hash = some t' ∧ t'.revoked = true := by
  have hfind : (store.apply (d₀.at l) (.revokeAllUserTokens u)).refreshTokens.rows.find?
      (·.tokenHash == hash) = _ :=
    Table.find?_modifyWhere RefreshToken.revoke (fun _ => rfl) fun _ => rfl
  have h' : (d₀.at l).refreshTokens.rows.find? (·.tokenHash == hash) = some t := h
  rw [h', Option.map_some] at hfind
  rw [Db.at_snoc, hw]
  refine ⟨_, hfind, ?_⟩
  split
  · rfl
  · next hnot =>
    cases hr : t.revoked with
    | true => rfl
    | false => exact (hnot (decide_eq_true ⟨hu, hr⟩)).elim

/-- The call was not about to store a successor when `g` was published, or it had
presented somebody else's token. -/
theorem issued_before (hk : Kept (system env) (conduct env d₀ (settledRotations env d₀)) d₀ s)
    {i : Nat} {L R : Log} {gi : Txn.Group Write} {t : RefreshToken} (hlog : s.log = L ++ gi :: R)
    (ht : .insertRefreshToken t ∈ gi.writes) (hcall : gi.call = i) (hl : l <+: L) :
    issued i l = false := by
  rw [Bool.eq_false_iff]
  intro hi
  obtain ⟨g, hg, h⟩ := List.any_eq_true.1 hi
  rw [Bool.and_eq_true, beq_iff_eq, List.any_eq_true] at h
  obtain ⟨hgi, w, hw, hins⟩ := h
  obtain ⟨t', rfl⟩ : ∃ t', w = .insertRefreshToken t' := by
    cases w <;> first | exact ⟨_, rfl⟩ | cases hins
  obtain ⟨a, b, rfl⟩ := List.append_of_mem hg
  obtain ⟨c, rfl⟩ := hl
  have hlog' : s.log = a ++ g :: (b ++ c ++ gi :: R) := by
    rw [hlog]
    simp
  have hlen := congrArg List.length (issued_once hk hlog' hw hlog ht (hcall.trans hgi.symm)).1
  simp only [List.length_append, List.length_cons] at hlen
  omega

/-- One rotation: the successor of a token that was there when all sessions of its user
were revoked was there as well. -/
theorem rotation_before (hk : Kept (system env) (conduct env d₀ (settledRotations env d₀)) d₀ s)
    (hlog : s.log = l ++ g :: r) (hw : g.writes = [.revokeAllUserTokens u]) {h h' : String}
    (hrot : Rotates env s h h') {t : RefreshToken} (ht : (d₀.at l).tokenByHash h = some t)
    (hu : t.userId = u) :
    ∃ t', (d₀.at l).tokenByHash h' = some t' ∧ t'.userId = u := by
  obtain ⟨i, value, t', hop, rfl, hpub, rfl⟩ := hrot
  obtain ⟨L, R, hlog'⟩ := List.append_of_mem hpub
  have ht' : Write.insertRefreshToken t' ∈ [Write.insertRefreshToken t'] := List.mem_singleton.2 rfl
  obtain ⟨-, op, hop', hproper, hissue⟩ := kept_issued hk hlog' ht'
  rw [hop] at hop'
  cases hop'
  obtain ⟨m, parent, user, now, -, hm, hparent, hunrevoked, huser, hnew⟩ := hissue
  have hlL : l <+: s.log := log_onto hlog
  have hm' : m <+: s.log := hm.onto.trans (log_onto hlog')
  have hparentUser : parent.userId = u := by
    rw [← hu]
    exact hk.inv.same_user hm' hlL hparent ht
  rcases log_positions (hlog'.symm.trans hlog) with hle | ⟨-, rfl⟩ | hle
  · -- the successor was stored before
    obtain ⟨t₁, h₁, ha⟩ :=
      (kept_properLog hk hlL).hash_stays hle (kept_stored hk hlog' ht')
    refine ⟨t₁, h₁, ?_⟩
    have huserId : user.id = parent.userId := Table.key_of_get? huser
    rw [ha.userId, hnew]
    exact huserId.trans hparentUser
  · cases hw
  · -- the call has read the token before, and was about to store its successor
    exfalso
    rcases Nat.lt_or_ge l.length m.length with hlt | hge
    · obtain ⟨t₁, h₁, hr₁⟩ := revokeAll_revokes hw ht hu
      have hlm : l ++ [g] <+: m :=
        List.prefix_of_prefix_length_le (log_later hlog) hm' (by
          rw [List.length_append, List.length_singleton]
          omega)
      obtain ⟨t₂, h₂, ha₂⟩ := (kept_properLog hk hm').hash_stays hlm h₁
      cases h₂.symm.trans hparent
      rw [ha₂.revoked hr₁] at hunrevoked
      cases hunrevoked
    · have hml : m <+: l := List.prefix_of_prefix_length_le hm' hlL hge
      obtain ⟨-, -, hallowed⟩ := hm.passes hml hle
      have hsettled := hallowed u (by rw [hw]; exact List.mem_singleton.2 rfl)
      simp only [settled, issued_before hk hlog' ht' rfl ((List.prefix_append _ _).trans hle), ht,
        Bool.false_or, Option.all_some, hu] at hsettled
      simp at hsettled

end

/-! ## The theorem -/

/-- A completed reset, or detection of a reused token, has revoked all sessions of its user,
and no token that descends from one of them is usable any more. -/
structure SessionsEnd (env : Environment) (d₀ : Db) (s : RunState) : Prop where
  reset : ∀ i token password, s.ops[i]? = some (.resetPassword token password) →
    s.call i = .done (.ok .unit) → ∃ l user, l <+: s.log ∧ user ∈ (d₀.at l).users.rows ∧
      user.passwordResetToken = some (AuthService.hashToken env token) ∧
      Published i s.log (.revokeAllUserTokens user.id)
  reuse : ∀ i value, s.ops[i]? = some (.refreshTokens value) →
    s.call i = .done (.error (.unauthorized AuthService.REUSE_DETECTED none)) →
    ∃ l t, l <+: s.log ∧ (d₀.at l).tokenByHash (AuthService.hashToken env value) = some t ∧
      Published i s.log (.revokeAllUserTokens t.userId)
  lines : ∀ l g r u x, s.log = l ++ g :: r → .revokeAllUserTokens u ∈ g.writes →
    s.call g.call = .done x → ∀ h t h' t', (d₀.at l).tokenByHash h = some t → t.userId = u →
      Descends env s h h' → s.db.tokenByHash h' = some t' → t'.revoked = true

section

variable {env : Environment} {d₀ : Db} {s : RunState}

/-- Where rotations are settled when all sessions of their user are revoked, every line
that was open ends. -/
theorem sessions_end (env : Environment) {d₀ : Db} {s : RunState}
    (h : (system env).Within (fun s l => rotationsSettled env s l = true) d₀ s) :
    SessionsEnd env d₀ s := by
  have hk := kept rotationsSettled_history h
  refine ⟨?_, ?_, ?_⟩
  · intro i token password hop hcall
    obtain ⟨op, hop', hret⟩ := kept_returns hk hcall
    rw [hop] at hop'
    cases hop'
    exact hret.2
  · intro i value hop hcall
    have herr := hk.call hop
    rw [hcall] at herr
    rcases herr with ⟨hfault, -⟩ | ⟨-, ⟨-, l, t, hl, ht, hpub⟩ | ⟨he, -⟩⟩
    · cases hfault
    · exact ⟨l, t, hl, ht, hpub⟩
    · exact (he rfl).elim
  · intro l g r u x hlog hw _ h t h' t' ht hu hdesc ht'
    obtain ⟨-, op, -, -, hpub⟩ := hk.log hlog
    have hws := (hpub.revoke u hw).1
    -- along the line: each token was there when the sessions ended
    have hbefore : ∃ t', (d₀.at l).tokenByHash h' = some t' ∧ t'.userId = u := by
      clear ht'
      induction hdesc with
      | refl => exact ⟨t, ht, hu⟩
      | tail _ hrot ih =>
        obtain ⟨t₁, h₁, hu₁⟩ := ih
        exact rotation_before hk hlog hws hrot h₁ hu₁
    obtain ⟨t₁, h₁, hu₁⟩ := hbefore
    obtain ⟨t₂, h₂, hr₂⟩ := revokeAll_revokes hws h₁ hu₁
    obtain ⟨t₃, h₃, ha₃⟩ := hk.inv.hash_stays (log_later hlog) h₂
    rw [show s.db = d₀.at s.log from hk.db] at ht'
    cases h₃.symm.trans ht'
    exact ha₃.revoked hr₂

theorem sessions_end_reset :
    ∃ s, (system .default).Within (fun s l => rotationsSettled .default s l = true) oneUser s ∧
      s.db.refreshTokens.rows.map (·.revoked) = [true, true] ∧
      SessionsEnd .default oneUser s := by
  have hrun : ((system .default).runIf (rotationsSettled .default) (State.init oneUser)
      (alone 0 (.login ⟨"a@b.c", "pw"⟩) 5 ++ alone 1 (.refreshTokens "r0-0") 7 ++
        alone 2 (.requestPasswordReset "a@b.c") 5 ++
        alone 3 (.resetPassword "r2-0" "new") 7)).map
      (fun s => s.db.refreshTokens.rows.map (·.revoked)) = some [true, true] := by decide
  obtain ⟨s, h, hrows⟩ := System.within_of_run hrun
  exact ⟨s, h, hrows, sessions_end .default h⟩

/-- A rotation in flight survives the reset: its successor is stored just afterwards. -/
theorem session_survives_reset :
    ∃ s, (system .default).Reachable oneUser s ∧ ¬ SessionsEnd .default oneUser s := by
  have hrun : ((system .default).runLabels .all (State.init oneUser)
      (alone 0 (.login ⟨"a@b.c", "pw"⟩) 5 ++ alone 1 (.requestPasswordReset "a@b.c") 5 ++
        alone 2 (.refreshTokens "r0-0") 3 ++ alone 3 (.resetPassword "r1-0" "new") 7 ++
        List.replicate 4 (.step 2))).map
      (fun s => decide (s.log[4]? = some ⟨3, false, [.revokeAllUserTokens 1]⟩ ∧
        (match s.call 3 with | .done (.ok r) => some r | _ => none) = some .unit ∧
        ((oneUser.at (s.log.take 4)).tokenByHash "r0-0").map (·.userId) = some 1 ∧
        s.ops[2]? = some (.refreshTokens "r0-0") ∧
        s.log[6]? = some ⟨2, false, [.insertRefreshToken
          (AuthService.newRefreshToken .default 2 (activeUser 1 "a@b.c") false 0)]⟩ ∧
        (s.db.tokenByHash "r2-0").map (·.revoked) = some false)) = some true := by decide
  obtain ⟨s, h, hs⟩ := System.reach_of_run hrun
  simp only [decide_eq_true_eq, Option.map_eq_some_iff] at hs
  obtain ⟨hg, hcall, ⟨t, ht, hu⟩, hop, hg', t', ht', hlive⟩ := hs
  refine ⟨s, h, fun hends => ?_⟩
  obtain ⟨hlt, hg⟩ := List.getElem?_eq_some_iff.1 hg
  have hlog : s.log = s.log.take 4 ++ s.log[4] :: s.log.drop 5 := by
    rw [← List.drop_eq_getElem_cons hlt, List.take_append_drop]
  have hdone : s.call 3 = .done (.ok .unit) := by
    split at hcall
    · next r hr =>
      cases hcall
      exact hr
    · cases hcall
  have hdesc : Descends .default s "r0-0" "r2-0" :=
    Relation.ReflTransGen.single
      ⟨2, "r0-0", _, hop, rfl, List.mem_of_getElem? hg', rfl⟩
  have hrevoked := hends.lines _ _ _ 1 _ hlog (by rw [hg]; exact List.mem_singleton.2 rfl)
    (by rw [hg]; exact hdone) "r0-0" t "r2-0" t' ht hu hdesc ht'
  rw [hlive] at hrevoked
  cases hrevoked

end

end JobBoard.Auth
