import JobBoard.Auth.Revocation

/-!
# One successor a token

A rotation looks whether the token is revoked, stores the successor and then saves
the revocation. Two rotations of one token that overlap both find it unrevoked, and a
statement that fails between the two writes leaves it so. In the runs where neither
happens each token is exchanged once, and presenting it again ends all sessions.
-/

set_option autoImplicit false

namespace JobBoard.Auth

open Txn Prog

/-! ## The condition -/

section

variable (env : Environment)

/-- The two calls do not present the same token. -/
def apart (op op₁ : Op) : Bool :=
  match op, op₁ with
  | .refreshTokens value, .refreshTokens value₁ =>
    AuthService.hashToken env value ≠ AuthService.hashToken env value₁
  | _, _ => true

/-- A rotation starts when no other of the same token is in progress, and no statement
fails between the two writes of a rotation. -/
def rotationsApart (s : RunState) : Step → Bool
  | .spawn op => (List.range s.ops.length).all fun j =>
      !(s.call j).isRunning || (s.ops[j]?).all fun op' => apart env op' op
  | .fault i _ =>
    match s.ops[i]? with
    | some (.refreshTokens _) => !issued i s.log
    | _ => true
  | .step _ => true

/-- What such a run to `s` gives: a token that another call has exchanged is spent when a
call presents it. -/
def apartRotations (d₀ : Db) (s : RunState) : Condition where
  start j op L := ∀ value, op = .refreshTokens value → ∀ i value' t, i < j →
    s.ops[i]? = some (.refreshTokens value') →
    AuthService.hashToken env value' = AuthService.hashToken env value →
    Published i s.log (.insertRefreshToken t) → Spent env d₀ L value
  allowed _ _ _ _ := True
  fails i op L := ∀ value, op = .refreshTokens value → ∀ t, ¬ Published i L (.insertRefreshToken t)

end

section

variable {env : Environment} {d₀ : Db} {s : RunState}

theorem issued_of_published {i : Nat} {L : Log} {t : RefreshToken}
    (h : Published i L (.insertRefreshToken t)) : issued i L = true :=
  List.any_eq_true.2 ⟨_, h, by simp [Write.inserts]⟩

/-- A rotation that has stored a successor and is not in progress has spent the token. -/
theorem exchanged_spent {C : Condition} (hk : Kept (system env) (conduct env d₀ C) d₀ s)
    (hC : ∀ i value L, C.fails i (.refreshTokens value) L →
      ∀ t, ¬ Published i L (.insertRefreshToken t))
    {i : Nat} {value : String} {t : RefreshToken} (hop : s.ops[i]? = some (.refreshTokens value))
    (hpub : Published i s.log (.insertRefreshToken t)) (hi : (s.call i).isRunning = false) :
    Spent env d₀ s.log value ∧ ∃ r, s.call i = .done (.ok r) := by
  have hcall := hk.call hop
  cases hc : s.call i with
  | idle =>
    rw [hc] at hcall
    exact hcall.elim
  | run tx p =>
    rw [hc] at hi
    cases hi
  | done r =>
    rw [hc] at hcall
    cases r with
    | ok r => exact ⟨hcall.2, r, rfl⟩
    | error e =>
      rcases hcall with ⟨-, hf⟩ | ⟨hnone, -⟩
      · exact (hC i value _ hf t hpub).elim
      · exact (hnone t hpub).elim

theorem rotationsApart_history (sf : RunState) :
    History (system env) (fun s l => rotationsApart env s l = true ∧ s.Before sf)
      (conduct env d₀ (apartRotations env d₀ sf)) d₀ := by
  refine sessions ?_ (fun _ _ _ _ _ _ _ _ _ => trivial) ?_ ?_
  · rintro s op - hk ⟨hok, hbefore⟩ value rfl i value' t hlt hi hhash hpub
    have hop : s.ops[i]? = some (.refreshTokens value') := (hbefore.op hlt).symm.trans hi
    -- the other rotation is finished
    have hdone : (s.call i).isRunning = false := by
      have h := List.all_eq_true.1 hok i (List.mem_range.2 hlt)
      simp only [hop, Option.all_some, apart, hhash, ne_eq, not_true_eq_false, decide_false,
        Bool.or_false, Bool.not_eq_true'] at h
      exact h
    obtain ⟨gs, hlog, hgs⟩ := hbefore.log
    have hpub' : Published i s.log (.insertRefreshToken t) := by
      rw [Published, hlog, List.mem_append] at hpub
      refine hpub.resolve_right fun hg => ?_
      have := hgs _ hg hlt
      rw [hdone] at this
      cases this
    obtain ⟨⟨p, hp, hr⟩, -⟩ := exchanged_spent hk (fun i value L h => h value rfl) hop hpub' hdone
    exact ⟨p, hhash ▸ hp, hr⟩
  · rintro s i op e - hk ⟨hok, -⟩ hop value rfl t hpub
    simp only [rotationsApart, hop, issued_of_published hpub] at hok
    cases hok
  · intro i j op L ws hij hf value hop t hpub
    rcases List.mem_append.1 hpub with hpub | hpub
    · exact hf value hop t hpub
    · cases List.mem_singleton.1 hpub
      exact hij rfl

/-! ## Single use -/

/-- A call that presented the token and has stored the successor is still in progress. -/
def Exchanging (env : Environment) (s : RunState) (h : String) : Prop :=
  ∃ i value t, s.ops[i]? = some (.refreshTokens value) ∧ h = AuthService.hashToken env value ∧
    Published i s.log (.insertRefreshToken t) ∧ (s.call i).isRunning = true

structure SingleUse (env : Environment) (d₀ : Db) (s : RunState) : Prop where
  /-- A token is exchanged by one call, for one successor. -/
  once : ∀ i j value value' t t', s.ops[i]? = some (.refreshTokens value) →
    s.ops[j]? = some (.refreshTokens value') →
    AuthService.hashToken env value = AuthService.hashToken env value' →
    Published i s.log (.insertRefreshToken t) → Published j s.log (.insertRefreshToken t') →
    i = j ∧ t = t'
  /-- And is the successor of one token. -/
  disjoint : ∀ h₁ h₂ h', Rotates env s h₁ h' → Rotates env s h₂ h' → h₁ = h₂
  /-- A line has one live end, but for a token that is being exchanged. -/
  ends : ∀ h h₁ h₂ t₁ t₂, Descends env s h h₁ → Descends env s h h₂ →
    s.db.tokenByHash h₁ = some t₁ → s.db.tokenByHash h₂ = some t₂ → t₁.revoked = false →
    t₂.revoked = false → h₁ = h₂ ∨ Exchanging env s h₁ ∨ Exchanging env s h₂
  /-- Presenting a token that has been exchanged ends all sessions of its user, unless a
  statement fails. -/
  reuse : ∀ i j value value' t r, i < j → s.ops[i]? = some (.refreshTokens value) →
    s.ops[j]? = some (.refreshTokens value') →
    AuthService.hashToken env value = AuthService.hashToken env value' →
    Published i s.log (.insertRefreshToken t) → s.call j = .done r →
    ∃ e, r = .error e ∧ (isFault e = true ∨
      e = .unauthorized AuthService.REUSE_DETECTED none ∧ ∃ l p, l <+: s.log ∧
        (d₀.at l).tokenByHash (AuthService.hashToken env value) = some p ∧
        Published j s.log (.revokeAllUserTokens p.userId))

variable (hk : Kept (system env) (conduct env d₀ (apartRotations env d₀ s)) d₀ s)

include hk

/-- A call that starts after another one has exchanged its token does not exchange it. -/
theorem not_exchanged_again {i j : Nat} {value value' : String} {t t' : RefreshToken}
    (hij : i < j) (hi : s.ops[i]? = some (.refreshTokens value))
    (hj : s.ops[j]? = some (.refreshTokens value'))
    (hhash : AuthService.hashToken env value = AuthService.hashToken env value')
    (ht : Published i s.log (.insertRefreshToken t)) :
    ¬ Published j s.log (.insertRefreshToken t') := by
  intro ht'
  obtain ⟨l, r, hlog⟩ := List.append_of_mem ht'
  obtain ⟨-, op, hop, hproper, hissue⟩ := kept_issued hk hlog (List.mem_singleton.2 rfl)
  rw [hj] at hop
  cases hop
  obtain ⟨m, parent, user, now, ⟨l₀, hstart, hm₀⟩, hm, hparent, hunrevoked, -, -⟩ := hissue
  have hspent : Spent env d₀ l₀ value' := hstart value' rfl i value t hij hi hhash ht
  have hm' : m <+: s.log := hm.onto.trans (log_onto hlog)
  obtain ⟨p, hp, hr⟩ := (kept_properLog hk hm').spent_stays hm₀.onto hspent
  cases hp.symm.trans hparent
  rw [hr] at hunrevoked
  cases hunrevoked

theorem exchanged_once {i j : Nat} {value value' : String} {t t' : RefreshToken}
    (hi : s.ops[i]? = some (.refreshTokens value)) (hj : s.ops[j]? = some (.refreshTokens value'))
    (hhash : AuthService.hashToken env value = AuthService.hashToken env value')
    (ht : Published i s.log (.insertRefreshToken t))
    (ht' : Published j s.log (.insertRefreshToken t')) : i = j ∧ t = t' := by
  rcases Nat.lt_trichotomy i j with hlt | rfl | hlt
  · exact (not_exchanged_again hk hlt hi hj hhash ht ht').elim
  · refine ⟨rfl, ?_⟩
    obtain ⟨l, r, hlog⟩ := List.append_of_mem ht
    obtain ⟨l', r', hlog'⟩ := List.append_of_mem ht'
    have hg := (issued_once hk hlog (List.mem_singleton.2 rfl) hlog' (List.mem_singleton.2 rfl)
      rfl).2
    cases hg
    rfl
  · exact (not_exchanged_again hk hlt hj hi hhash.symm ht' ht).elim

theorem rotates_unique : Relator.RightUnique (Rotates env s) := by
  rintro h h₁ h₂ ⟨i, value, t, hi, rfl, ht, rfl⟩ ⟨j, value', t', hj, hhash, ht', rfl⟩
  rw [(exchanged_once hk hi hj hhash ht ht').2]

/-- A stored token is found by its hash, whoever stored it. -/
theorem rotates_disjoint {h₁ h₂ h' : String} (hr₁ : Rotates env s h₁ h')
    (hr₂ : Rotates env s h₂ h') : h₁ = h₂ := by
  obtain ⟨i, value, t, hi, rfl, ht, rfl⟩ := hr₁
  obtain ⟨j, value', t', hj, rfl, ht', hhash⟩ := hr₂
  obtain ⟨l, r, hlog⟩ := List.append_of_mem ht
  obtain ⟨l', r', hlog'⟩ := List.append_of_mem ht'
  have hg := (stored_once hk hlog (List.mem_singleton.2 rfl) hlog' (List.mem_singleton.2 rfl)
    hhash).2
  cases hg
  cases hi.symm.trans hj
  rfl

theorem exchanged_revoked {h h' : String} (hr : Rotates env s h h') {t : RefreshToken}
    (ht : s.db.tokenByHash h = some t) (hlive : t.revoked = false) : Exchanging env s h := by
  obtain ⟨i, value, t', hop, rfl, hpub, rfl⟩ := hr
  refine ⟨i, value, t', hop, rfl, hpub, ?_⟩
  by_contra hrun
  obtain ⟨⟨p, hp, hr⟩, -⟩ := exchanged_spent hk (fun i value L h => h value rfl) hop hpub
    (Bool.eq_false_iff.2 hrun)
  rw [show s.db = d₀.at s.log from hk.db] at ht
  cases hp.symm.trans ht
  rw [hr] at hlive
  cases hlive

theorem exchanged_reuse {i j : Nat} {value value' : String} {t : RefreshToken}
    {r : Except AuthError Result} (hij : i < j) (hi : s.ops[i]? = some (.refreshTokens value))
    (hj : s.ops[j]? = some (.refreshTokens value'))
    (hhash : AuthService.hashToken env value = AuthService.hashToken env value')
    (ht : Published i s.log (.insertRefreshToken t)) (hr : s.call j = .done r) :
    ∃ e, r = .error e ∧ (isFault e = true ∨
      e = .unauthorized AuthService.REUSE_DETECTED none ∧ ∃ l p, l <+: s.log ∧
        (d₀.at l).tokenByHash (AuthService.hashToken env value) = some p ∧
        Published j s.log (.revokeAllUserTokens p.userId)) := by
  have hcall := hk.call hj
  rw [hr] at hcall
  cases r with
  | ok r =>
    obtain ⟨⟨_, _, _, -, _, hpub, -⟩, -⟩ := hcall
    exact (not_exchanged_again hk hij hi hj hhash ht hpub).elim
  | error e =>
    refine ⟨e, rfl, ?_⟩
    rcases hcall with ⟨hfault, -⟩ | ⟨-, ⟨he, l, p, hl, hp, hpub⟩ | ⟨-, l, hl, hreads, hnone⟩⟩
    · exact .inl hfault
    · exact .inr ⟨he, l, p, hl, hhash ▸ hp, hpub⟩
    · -- the call would have read the token as spent
      exfalso
      obtain ⟨l₀, hstart, hm⟩ := hreads
      have hspent : Spent env d₀ l₀ value' := hstart value' rfl i value t hij hi hhash ht
      obtain ⟨p, hp, hr⟩ := (kept_properLog hk hl).spent_stays hm.onto hspent
      rw [hnone p hp] at hr
      cases hr

end

/-- Where rotations of one token do not overlap, each token is exchanged once. -/
theorem single_use (env : Environment) {d₀ : Db} {s : RunState}
    (h : (system env).Within (fun s l => rotationsApart env s l = true) d₀ s) :
    SingleUse env d₀ s := by
  have hk := kept (rotationsApart_history s) h.before
  refine ⟨?_, ?_, ?_, ?_⟩
  · intro i j value value' t t' hi hj hhash ht ht'
    exact exchanged_once hk hi hj hhash ht ht'
  · intro h₁ h₂ h' hr₁ hr₂
    exact rotates_disjoint hk hr₁ hr₂
  · intro h h₁ h₂ t₁ t₂ hd₁ hd₂ ht₁ ht₂ hl₁ hl₂
    -- one of the two descends from the other
    have later : ∀ {h₁ h₂ t₁}, Descends env s h₁ h₂ → s.db.tokenByHash h₁ = some t₁ →
        t₁.revoked = false → h₁ = h₂ ∨ Exchanging env s h₁ := by
      intro h₁ h₂ t₁ hd ht hlive
      rcases Relation.ReflTransGen.cases_head hd with rfl | ⟨h', hr, -⟩
      · exact .inl rfl
      · exact .inr (exchanged_revoked hk hr ht hlive)
    rcases Relation.ReflTransGen.total_of_right_unique (rotates_unique hk) hd₁ hd₂ with hd | hd
    · rcases later hd ht₁ hl₁ with heq | hex
      · exact .inl heq
      · exact .inr (.inl hex)
    · rcases later hd ht₂ hl₂ with heq | hex
      · exact .inl heq.symm
      · exact .inr (.inr hex)
  · intro i j value value' t r hij hi hj hhash ht hr
    exact exchanged_reuse hk hij hi hj hhash ht hr

theorem single_use_rotation :
    ∃ s, (system .default).Within (fun s l => rotationsApart .default s l = true) oneUser s ∧
      s.db.refreshTokens.rows.map (·.revoked) = [true, true] ∧ SingleUse .default oneUser s := by
  have hrun : ((system .default).runIf (rotationsApart .default) (State.init oneUser)
      (alone 0 (.login ⟨"a@b.c", "pw"⟩) 5 ++ alone 1 (.refreshTokens "r0-0") 7 ++
        alone 2 (.refreshTokens "r0-0") 3)).map
      (fun s => s.db.refreshTokens.rows.map (·.revoked)) = some [true, true] := by decide
  obtain ⟨s, h, hrows⟩ := System.within_of_run hrun
  exact ⟨s, h, hrows, single_use .default h⟩

/-- Two rotations that both have read the token before either has saved it. -/
theorem token_exchanged_twice :
    ∃ s, (system .default).Reachable oneUser s ∧ ¬ SingleUse .default oneUser s := by
  have hrun : ((system .default).runLabels .all (State.init oneUser)
      (alone 0 (.login ⟨"a@b.c", "pw"⟩) 5 ++ alone 1 (.refreshTokens "r0-0") 3 ++
        alone 2 (.refreshTokens "r0-0") 7 ++ List.replicate 4 (.step 1))).map
      (fun s => decide (s.ops[1]? = some (.refreshTokens "r0-0") ∧
        s.ops[2]? = some (.refreshTokens "r0-0") ∧
        (⟨1, false, [.insertRefreshToken (AuthService.newRefreshToken .default 1
          (activeUser 1 "a@b.c") false 0)]⟩ : Txn.Group Write) ∈ s.log ∧
        (⟨2, false, [.insertRefreshToken (AuthService.newRefreshToken .default 2
          (activeUser 1 "a@b.c") false 0)]⟩ : Txn.Group Write) ∈ s.log)) = some true := by decide
  obtain ⟨s, h, hs⟩ := System.reach_of_run hrun
  obtain ⟨h₁, h₂, hp₁, hp₂⟩ := of_decide_eq_true hs
  refine ⟨s, h, fun hu => ?_⟩
  have := (hu.once 1 2 _ _ _ _ h₁ h₂ rfl hp₁ hp₂).1
  omega

end JobBoard.Auth
