import JobBoard.Auth.Sessions

/-!
# The programs of the calls

Rules for one statement of a call that keeps to `conduct`, the operations that do
not concern sessions, and one lemma for each that does. `sessions` puts them
together.
-/

set_option autoImplicit false

namespace JobBoard.Auth

open Txn Prog

/-- From the log `L`, the program keeps to the conduct of call `i` of `op` and ends
in `Q`. -/
def Holds {α : Type} (env : Environment) (d₀ : Db) (C : Condition) (i : Nat) (op : Op)
    (Q : Log → α → Prop) (L : Log) (p : M α) : Prop :=
  p.along store d₀ i (Meanwhile C i op) ProperLog (Publishes env d₀ C i op) (C.fails i op)
    (fun e => isFault e = true)
    (fun L e => (isFault e = true ∧ C.fails i op L) ∨ Refuses env d₀ C i op L e) Q L

section

variable {env : Environment} {d₀ : Db} {C : Condition} {i : Nat} {op : Op} {α β : Type} {L : Log}
  {Q : Log → α → Prop}

theorem holds_bind {p : M α} {f : α → M β} {Q : Log → β → Prop} :
    Holds env d₀ C i op Q L (p >>= f) ↔
      Holds env d₀ C i op (fun L' a => Holds env d₀ C i op Q L' (f a)) L p :=
  along_bind p f Q L

theorem holds_mono {Q' : Log → α → Prop} (hQ : ∀ L' a, Q L' a → Q' L' a) {p : M α}
    (h : Holds env d₀ C i op Q L p) : Holds env d₀ C i op Q' L p :=
  along_mono hQ h

theorem holds_ret {a : α} (h : Q L a) : Holds env d₀ C i op Q L (ret a : M α) := h

theorem holds_throw {e : AuthError} (h : Refuses env d₀ C i op L e) :
    Holds env d₀ C i op Q L (throw e : M α) := .inr h

theorem holds_select {f : Db → α}
    (h : ∀ L', Meanwhile C i op L L' → ProperLog L' → Q L' (f (d₀.at L'))) :
    Holds env d₀ C i op Q L (select f : M α) :=
  along_select (fun _ _ _ hf _ he => .inl ⟨he, hf⟩) h

theorem holds_write {w : Write} {Q : Log → Unit → Prop}
    (h : ∀ L', Meanwhile C i op L L' → ProperLog L' →
      Publishes env d₀ C i op L' [w] ∧ Q (L' ++ [⟨i, false, [w]⟩]) ()) :
    Holds env d₀ C i op Q L (write fun _ => [w]) :=
  along_write (fun _ _ _ hf _ he => .inl ⟨he, hf⟩) fun L' hm hL => h L' hm hL

theorem holds_unlessViolated {violated : Db → Option String} {w : Write} {a : α}
    (herr : ∀ L' c, Meanwhile C i op L L' → ProperLog L' →
      Refuses env d₀ C i op L' (.service (uniqueViolation c)))
    (h : ∀ L', Meanwhile C i op L L' → ProperLog L' → violated (d₀.at L') = none →
      Publishes env d₀ C i op L' [w] ∧ Q (L' ++ [⟨i, false, [w]⟩]) a) :
    Holds env d₀ C i op Q L (unlessViolated violated w a) := by
  refine along_query (fun _ _ _ hf _ he => .inl ⟨he, hf⟩) ?_ ?_
  · intro L' e hm hL he
    cases hv : violated (d₀.at L') with
    | some c =>
      simp only [hv] at he
      cases he
      exact .inr (herr L' c hm hL)
    | none =>
      simp only [hv] at he
      cases he
  · intro L' ws b hm hL hok
    cases hv : violated (d₀.at L') with
    | some c =>
      simp only [hv] at hok
      cases hok
    | none =>
      simp only [hv] at hok
      cases hok
      exact h L' hm hL hv

/-! ## Statements that do not concern sessions -/

abbrev Tokenless (ws : List Write) : Prop := ∀ w ∈ ws, w.tokenless

theorem Write.tokenless_proper {w : Write} (h : w.tokenless) : w.proper := by
  cases w <;> trivial

theorem Tokenless.publishes {ws : List Write} (h : Tokenless ws)
    (hc : ∀ w ∈ ws, w.onUsers → Consumes env d₀ C i op L ws) : Publishes env d₀ C i op L ws where
  proper w hw := Write.tokenless_proper (h w hw)
  issue _ ht := (h _ ht).elim
  rotate _ _ hs := (h _ hs).elim
  revoke _ hr := (h _ hr).elim
  consume := hc

/-- The operations of which `conduct` asks nothing. -/
structure Plain (op : Op) : Prop where
  consumes : ∀ env d₀ C i L ws, Consumes env d₀ C i op L ws
  refuses : ∀ env d₀ C i L e, Refuses env d₀ C i op L e
  returns : ∀ env d₀ i L r, (∀ t, r ≠ .login t) → (∀ t, r ≠ .tokens t) → Returns env d₀ i op L r

theorem holds_plain (hop : Plain op) {p : M α}
    (hp : p.Plain Tokenless Tokenless fun _ => True) : Holds env d₀ C i op (fun _ _ => True) L p :=
  Prog.Plain.along hp (P := fun _ => True) (fun _ _ _ _ _ => trivial)
    (fun L ws _ _ hws => by
      cases ws with
      | nil => trivial
      | cons w ws => exact ⟨hws.publishes fun _ _ _ => hop.consumes _ _ _ _ _ _, trivial⟩)
    (fun _ _ _ _ => .inr (hop.refuses _ _ _ _ _ _)) (fun _ _ _ => trivial) trivial

end

/-- The program opens no transaction and does not concern sessions. -/
abbrev TokenlessProg {α : Type} (p : M α) : Prop := p.Plain Tokenless Tokenless fun _ => True

section

theorem tokenless_nil : Tokenless [] := fun _ h => (nomatch h)

theorem tokenless_one {w : Write} (h : w.tokenless) : Tokenless [w] := by
  intro x hx
  rw [List.mem_singleton.1 hx]
  exact h

theorem read_tokenless {α : Type} (f : Db → α) : TokenlessProg (select f : M α) :=
  plain_select tokenless_nil f

theorem write_tokenless {w : Write} (h : w.tokenless) : TokenlessProg (write fun _ => [w]) :=
  plain_write fun _ => tokenless_one h

theorem unlessViolated_tokenless {α : Type} {violated : Db → Option String} {w : Write} {a : α}
    (h : w.tokenless) : TokenlessProg (unlessViolated violated w a) := by
  refine plain_query tokenless_nil (fun v r hr => ?_) fun _ _ _ => trivial
  split at hr
  · cases hr
  · cases hr
    exact tokenless_one h

theorem update_tokenless (id : Id) (patch : UserPatch) :
    TokenlessProg (UsersService.update id patch) :=
  (write_tokenless (by trivial)).bind fun _ => read_tokenless _

theorem log_tokenless (entry : AuditLog) : TokenlessProg (AuditService.log entry) :=
  write_tokenless trivial

theorem saveUser_tokenless (entity : User) : TokenlessProg (UserRepository.save entity) := by
  refine (read_tokenless _).bind fun r => ?_
  cases r with
  | none => trivial
  | some reread =>
    dsimp only
    split
    · trivial
    · exact unlessViolated_tokenless trivial

theorem getUser_tokenless (userId : Id) : TokenlessProg (MfaService.getUser userId) := by
  refine (read_tokenless _).bind fun r => ?_
  cases r <;> trivial

theorem checkPassword_tokenless (env : Environment) (passwordHash password : String) :
    TokenlessProg (AuthService.checkPassword env passwordHash password) := by
  unfold AuthService.checkPassword
  split <;> trivial

theorem beginSetup_tokenless (env : Environment) (uuid userId : Id) :
    TokenlessProg (MfaService.beginSetup env uuid userId) := by
  refine (getUser_tokenless userId).bind fun user => ?_
  dsimp only
  split
  · trivial
  · exact (update_tokenless _ _).bind fun _ => trivial

theorem enable_tokenless (env : Environment) (uuid userId : Id) (code : String) :
    TokenlessProg (MfaService.enable env uuid userId code) := by
  refine (getUser_tokenless userId).bind fun user => ?_
  dsimp only
  split
  · trivial
  split
  · trivial
  split
  · trivial
  refine (read_tokenless _).bind fun now => ?_
  split
  · trivial
  · trivial
  · exact (update_tokenless _ _).bind fun _ => (log_tokenless _).bind fun _ => trivial

theorem disable_tokenless (env : Environment) (userId : Id) (code : String) :
    TokenlessProg (MfaService.disable env userId code) := by
  refine (getUser_tokenless userId).bind fun user => ?_
  split
  · trivial
  refine (read_tokenless _).bind fun now => ?_
  refine (plain_ofExcept fun _ _ => trivial).bind fun ok => ?_
  split
  · trivial
  · exact (update_tokenless _ _).bind fun _ => log_tokenless _

theorem register_tokenless (env : Environment) (uuid : Id) (dto : RegisterDto) :
    TokenlessProg (AuthService.register env uuid dto) := by
  refine (read_tokenless _).bind fun r => ?_
  cases r with
  | some _ => trivial
  | none =>
    refine (read_tokenless _).bind fun now => ?_
    exact (unlessViolated_tokenless (by trivial)).bind fun _ => (log_tokenless _).bind fun _ => trivial

theorem findUserByVerificationToken_tokenless (token : String) :
    TokenlessProg (AuthService.findUserByVerificationToken token) := by
  refine (read_tokenless _).bind fun users => ?_
  split
  · trivial
  refine (read_tokenless _).bind fun now => ?_
  split <;> trivial

theorem verifyEmail_tokenless (token : String) : TokenlessProg (AuthService.verifyEmail token) := by
  refine (findUserByVerificationToken_tokenless token).bind fun r => ?_
  cases r with
  | none => trivial
  | some user => exact (update_tokenless _ _).bind fun _ => log_tokenless _

theorem resendVerification_tokenless (env : Environment) (uuid : Id) (email : String) :
    TokenlessProg (AuthService.resendVerification env uuid email) := by
  refine (read_tokenless _).bind fun r => ?_
  cases r with
  | none => trivial
  | some user =>
    dsimp only
    split
    · trivial
    · exact (read_tokenless _).bind fun _ => (update_tokenless _ _).bind fun _ => trivial

theorem requestPasswordReset_tokenless (env : Environment) (uuid : Id) (email : String) :
    TokenlessProg (AuthService.requestPasswordReset env uuid email) := by
  refine (read_tokenless _).bind fun r => ?_
  cases r with
  | none => trivial
  | some user =>
    dsimp only
    split
    · trivial
    · exact (read_tokenless _).bind fun _ => (update_tokenless _ _).bind fun _ => trivial

theorem changePassword_tokenless (env : Environment) (uuid userId : Id) (current new : String) :
    TokenlessProg (AuthService.changePassword env uuid userId current new) := by
  refine (read_tokenless _).bind fun r => ?_
  cases r with
  | none => trivial
  | some user =>
    refine (checkPassword_tokenless _ _ _).bind fun valid => ?_
    split
    · trivial
    · exact (update_tokenless _ _).bind fun _ => log_tokenless _

/-- The profile, the user and the audit entry of an erasure. -/
theorem erase_tokenless (userId : Id) (erased : User) (entry : AuditLog) :
    TokenlessProg (do
      match ← (select fun db => db.profiles.rows.find? (·.userId == userId) : M _) with
      | none => pure ()
      | some profile => write fun _ => [.deleteProfile profile.id]
      let _ ← UserRepository.save erased
      AuditService.log entry : M Unit) := by
  refine (read_tokenless _).bind fun p => ?_
  cases p with
  | none => exact (saveUser_tokenless _).bind fun _ => log_tokenless _
  | some profile =>
    exact (write_tokenless (by trivial)).bind fun _ =>
      (saveUser_tokenless _).bind fun _ => log_tokenless _

theorem deleteData_tokenless (env : Environment) (uuid userId : Id) :
    TokenlessProg (CandidateDataService.deleteData env uuid userId) := by
  refine (read_tokenless _).bind fun r => ?_
  cases r with
  | none => trivial
  | some user =>
    refine (read_tokenless _).bind fun documents => ?_
    dsimp only
    split
    · refine (plain_write fun _ w hw => ?_).bind fun _ => erase_tokenless userId _ _
      obtain ⟨doc, -, rfl⟩ := List.mem_map.1 hw
      trivial
    · exact erase_tokenless userId _ _

/-- The operations that do not concern sessions. -/
def Op.plain : Op → Bool
  | .resetPassword _ _ | .login _ | .verifyMfaChallenge _ _ | .refreshTokens _ => false
  | _ => true

theorem Op.plain_iff {op : Op} (h : op.plain = true) : Plain op := by
  cases op <;> first
    | exact ⟨fun _ _ _ _ _ _ => trivial, fun _ _ _ _ _ _ => trivial,
        fun _ _ _ _ _ hl ht => ⟨hl, ht⟩⟩
    | cases h

end

section

variable {env : Environment} {d₀ : Db} {C : Condition} {i : Nat} {L : Log}

theorem plainCall_holds {op : Op} (h : op.plain = true) :
    Holds env d₀ C i op (Returns env d₀ i op) L (program env i op) := by
  have hop := Op.plain_iff h
  -- the last statement of the program is its result
  have done : ∀ {α : Type} (p : M α) (f : α → Result), TokenlessProg p →
      (∀ a t, f a ≠ .login t) → (∀ a t, f a ≠ .tokens t) →
      program env i op = (p >>= fun a => ret (f a)) →
      Holds env d₀ C i op (Returns env d₀ i op) L (program env i op) := by
    intro α p f hp hl ht heq
    rw [heq]
    exact holds_bind.2 (holds_mono (fun _ a _ =>
      holds_ret (hop.returns _ _ _ _ _ (hl a) (ht a))) (holds_plain hop hp))
  cases op with
  | clock ms =>
    exact done (write fun _ => [.tick ms]) (fun _ => .unit) (write_tokenless (by trivial))
      (fun _ _ h => by cases h) (fun _ _ h => by cases h) rfl
  | register dto =>
    exact done (AuthService.register env i dto) .registered (register_tokenless _ _ _)
      (fun _ _ h => by cases h) (fun _ _ h => by cases h) rfl
  | verifyEmail token =>
    exact done (AuthService.verifyEmail token) (fun _ => .unit) (verifyEmail_tokenless _)
      (fun _ _ h => by cases h) (fun _ _ h => by cases h) rfl
  | resendVerification email =>
    exact done (AuthService.resendVerification env i email) (fun _ => .unit)
      (resendVerification_tokenless _ _ _) (fun _ _ h => by cases h) (fun _ _ h => by cases h) rfl
  | requestPasswordReset email =>
    exact done (AuthService.requestPasswordReset env i email) (fun _ => .unit)
      (requestPasswordReset_tokenless _ _ _) (fun _ _ h => by cases h) (fun _ _ h => by cases h) rfl
  | changePassword u c n =>
    exact done (AuthService.changePassword env i u c n) (fun _ => .unit)
      (changePassword_tokenless _ _ _ _ _) (fun _ _ h => by cases h) (fun _ _ h => by cases h) rfl
  | mfaSetup u =>
    exact done (MfaService.beginSetup env i u) .secret (beginSetup_tokenless _ _ _)
      (fun _ _ h => by cases h) (fun _ _ h => by cases h) rfl
  | mfaEnable u c =>
    exact done (MfaService.enable env i u c) .backupCodes (enable_tokenless _ _ _ _)
      (fun _ _ h => by cases h) (fun _ _ h => by cases h) rfl
  | mfaDisable u c =>
    exact done (MfaService.disable env u c) (fun _ => .unit) (disable_tokenless _ _ _)
      (fun _ _ h => by cases h) (fun _ _ h => by cases h) rfl
  | deleteData u =>
    exact done (CandidateDataService.deleteData env i u) (fun _ => .unit)
      (deleteData_tokenless _ _ _) (fun _ _ h => by cases h) (fun _ _ h => by cases h) rfl
  | _ => cases h

end

section

variable {env : Environment} {d₀ : Db} {C : Condition} {i : Nat} {op : Op} {L : Log}

/-- An audit entry changes nothing. -/
theorem holds_log {entry : AuditLog} {Q : Log → Unit → Prop}
    (h : ∀ L', Meanwhile C i op L L' → ProperLog L' →
      Q (L' ++ [⟨i, false, [.insertAuditLog entry]⟩]) ()) :
    Holds env d₀ C i op Q L (AuditService.log entry) := by
  refine holds_write fun L' hm hL => ⟨(tokenless_one (by trivial)).publishes ?_, h L' hm hL⟩
  intro w hw hon
  rw [List.mem_singleton.1 hw] at hon
  exact hon.elim

/-! ## Issuing tokens -/

theorem generateTokens_holds {user : User} {mfa : Bool} {Q : Log → AuthTokens → Prop}
    (herr : ∀ L' c, Meanwhile C i op L L' → ProperLog L' →
      Refuses env d₀ C i op L' (.service (uniqueViolation c)))
    (hissue : ∀ L' now, Meanwhile C i op L L' → ProperLog L' →
      Issues env d₀ C i op L' (AuthService.newRefreshToken env i user mfa now))
    (hQ : ∀ L' now r, Meanwhile C i op L L' → ProperLog (L' ++ [⟨i, false, [.insertRefreshToken
        (AuthService.newRefreshToken env i user mfa now)]⟩]) →
      Delivered env i (L' ++ [⟨i, false, [.insertRefreshToken
        (AuthService.newRefreshToken env i user mfa now)]⟩]) r user mfa →
      Q (L' ++ [⟨i, false, [.insertRefreshToken
        (AuthService.newRefreshToken env i user mfa now)]⟩]) r) :
    Holds env d₀ C i op Q L (AuthService.generateTokens env i user mfa) := by
  refine holds_bind.2 (holds_select fun l₁ hm₁ _ => ?_)
  refine holds_bind.2 (holds_unlessViolated (fun L' c hm hL => herr L' c (hm₁.trans hm) hL) ?_)
  intro L' hm hL hv
  have hfresh :
      (d₀.at L').refreshTokens.get?
        (AuthService.newRefreshToken env i user mfa (d₀.at l₁).now).id = none ∧
      (d₀.at L').tokenByHash
        (AuthService.newRefreshToken env i user mfa (d₀.at l₁).now).tokenHash = none := by
    split at hv
    · cases hv
    · next hid =>
      split at hv
      · cases hv
      · next hhash =>
        exact ⟨Option.not_isSome_iff_eq_none.1 hid, Option.not_isSome_iff_eq_none.1 hhash⟩
  have hpub : Publishes env d₀ C i op L'
      [.insertRefreshToken (AuthService.newRefreshToken env i user mfa (d₀.at l₁).now)] := by
    refine ⟨?_, ?_, ?_, ?_, ?_⟩
    · intro w hw
      rw [List.mem_singleton.1 hw]
      rfl
    · intro t ht
      cases List.mem_singleton.1 ht
      exact ⟨rfl, hfresh.1, hfresh.2, hissue L' _ (hm₁.trans hm) hL⟩
    · intro e r hw
      cases List.mem_singleton.1 hw
    · intro u hw
      cases List.mem_singleton.1 hw
    · intro w hw hon
      rw [List.mem_singleton.1 hw] at hon
      exact hon.elim
  refine ⟨hpub, hQ L' _ _ (hm₁.trans hm) (hL.snoc hpub.proper) ⟨_, ?_, rfl⟩⟩
  exact List.mem_append_right _ (List.mem_singleton.2 rfl)

end

/-! ## The second factor -/

section

variable {env : Environment}

theorem matchBackupCode_some {normalized : String} {hashes : List String} {i k : Nat}
    (h : MfaService.matchBackupCode env normalized hashes i = .ok (some k)) :
    ∃ j, k = i + j ∧ ∃ hash, hashes[j]? = some hash ∧
      env.argon2Verify hash normalized = some true := by
  induction hashes generalizing i with
  | nil => cases h
  | cons hash rest ih =>
    unfold MfaService.matchBackupCode at h
    split at h
    · cases h
    · next hv =>
      cases h
      exact ⟨0, rfl, hash, rfl, hv⟩
    · obtain ⟨j, hk, hash', hj, hv⟩ := ih h
      exact ⟨j + 1, by omega, hash', hj, hv⟩

/-- Only an accepted backup code shortens the list, by that code. -/
theorem verifyCode_consumed {user : User} {code : String} {now : Time} {valid : Bool}
    {codes : List String}
    (h : MfaService.verifyCode env user code now = .ok ⟨valid, some codes⟩) :
    ∃ k, IsBackupCode env user code k ∧ codes = (user.mfaBackupCodes.getD []).eraseIdx k := by
  unfold MfaService.verifyCode at h
  split at h
  · cases h
  · dsimp only at h
    split at h
    · split at h
      · cases h
      · split at h <;> cases h
    · next htotp =>
      cases hm : MfaService.matchBackupCode env (removeSpaces code)
          (user.mfaBackupCodes.getD []) 0 with
      | error e =>
        rw [hm] at h
        cases h
      | ok r =>
        rw [hm] at h
        cases r with
        | none => cases h
        | some k =>
          cases h
          obtain ⟨j, hk, hash, hj, hv⟩ := matchBackupCode_some hm
          have hkj : k = j := by omega
          subst hkj
          exact ⟨k, ⟨Bool.eq_false_iff.2 htotp, hash, hj, hv⟩, rfl⟩

/-- Otherwise an accepted code is a TOTP. -/
theorem verifyCode_totp {user : User} {code : String} {now : Time}
    (h : MfaService.verifyCode env user code now = .ok ⟨true, none⟩) :
    MfaService.isTotp (removeSpaces code) = true := by
  unfold MfaService.verifyCode at h
  split at h
  · cases h
  · dsimp only at h
    split at h
    · next htotp => exact htotp
    · cases hm : MfaService.matchBackupCode env (removeSpaces code)
          (user.mfaBackupCodes.getD []) 0 with
      | error e =>
        rw [hm] at h
        cases h
      | ok r =>
        rw [hm] at h
        cases r <;> cases h

variable {d₀ : Db} {C : Condition} {i : Nat} {mfaToken : Jwt} {code : String} {L : Log}

theorem verifyForLogin_holds {user : User} (hreads : Reads C i (.verifyMfaChallenge mfaToken code) L)
    (huser : (d₀.at L).user? mfaToken.claims.sub = some user) {Q : Log → Bool → Prop}
    (hfalse : ∀ L', Q L' false)
    (htrue : ∀ m m' L', Meanwhile C i (.verifyMfaChallenge mfaToken code) L m →
      ((MfaService.isTotp (removeSpaces code) = true ∧ m' = m) ∨
        ∃ k, IsBackupCode env user code k ∧ m' = m ++ [⟨i, false, [consume user k]⟩]) →
      Meanwhile C i (.verifyMfaChallenge mfaToken code) m' L' → Accepts env user code → Q L' true) :
    Holds env d₀ C i (.verifyMfaChallenge mfaToken code) Q L
      (MfaService.verifyForLogin env user code) := by
  unfold MfaService.verifyForLogin
  split
  · exact hfalse L
  refine holds_bind.2 (holds_select fun l₁ hm₁ _ => ?_)
  cases hv : MfaService.verifyCode env user code (d₀.at l₁).now with
  | error e => exact holds_throw trivial
  | ok r =>
    obtain ⟨valid, consumed⟩ := r
    cases valid with
    | false => exact hfalse l₁
    | true =>
      have hacc : Accepts env user code := ⟨_, _, hv, rfl⟩
      cases consumed with
      | none => exact htrue l₁ l₁ l₁ hm₁ (.inl ⟨verifyCode_totp hv, rfl⟩) .refl hacc
      | some codes =>
        obtain ⟨k, hk, rfl⟩ := verifyCode_consumed hv
        refine holds_bind.2 (holds_ret (holds_bind.2 ?_))
        show Holds env d₀ C i _ _ l₁ ((write fun _ => [consume user k]) >>= fun _ => select _)
        refine holds_bind.2 (holds_write fun m hm _ => ⟨?_, ?_⟩)
        · refine (tokenless_one (by trivial)).publishes fun _ _ _ => ?_
          exact ⟨L, user, k, hreads, hm₁.trans hm, huser, hk, rfl⟩
        · exact holds_select fun L' hm' _ =>
            htrue m _ L' (hm₁.trans hm) (.inr ⟨k, hk, rfl⟩) hm' hacc

end

/-! ## The calls that concern sessions -/

section

variable {env : Environment} {d₀ : Db} {C : Condition} {i : Nat} {L : Log}

theorem Delivered.mono {r : AuthTokens} {user : User} {mfa : Bool} {L' : Log}
    (h : Delivered env i L r user mfa) (hl : L <+: L') : Delivered env i L' r user mfa := by
  obtain ⟨now, hp, hr⟩ := h
  exact ⟨now, hp.mono hl, hr⟩

theorem login_holds {dto : LoginDto} (hstart : C.start i (.login dto) L) :
    Holds env d₀ C i (.login dto) (Returns env d₀ i (.login dto)) L
      (program env i (.login dto)) := by
  refine holds_bind.2 (holds_bind.2 (holds_select fun l hm hl => ?_))
  cases huser : (d₀.at l).userByEmail (env.toLowerCase dto.email) with
  | none => exact holds_throw trivial
  | some user =>
    refine holds_bind.2 ?_
    unfold AuthService.checkPassword
    cases hpw : env.argon2Verify user.passwordHash dto.password with
    | none => exact holds_throw trivial
    | some valid =>
      refine holds_ret ?_
      split
      · exact holds_throw trivial
      split
      · exact holds_throw trivial
      split
      · exact holds_throw trivial
      next hactive =>
      split
      · next hmfa =>
        refine holds_bind.2 (holds_select fun l' _ _ => ?_)
        exact .inr ⟨user, _, l, rfl, huser, hmfa⟩
      · next hmfa =>
        refine holds_bind.2 (generateTokens_holds (fun _ _ _ _ => trivial) ?_ ?_)
        · intro L' now hm' _
          exact ⟨l, user, now, ⟨L, hstart, hm⟩, hm', huser, Decidable.not_not.1 hactive,
            Bool.eq_false_iff.2 hmfa, rfl⟩
        · intro L' now r hml _ hd
          refine holds_bind.2 (holds_log fun L'' hm' _ => ?_)
          exact .inl ⟨r, user, l, rfl, hd.mono (hm'.onto.trans (List.prefix_append _ _)),
            hml.onto.trans ((List.prefix_append _ _).trans
              (hm'.onto.trans (List.prefix_append _ _))), huser, Bool.eq_false_iff.2 hmfa⟩

theorem verifyMfaChallenge_holds {mfaToken : Jwt} {code : String}
    (hstart : C.start i (.verifyMfaChallenge mfaToken code) L) :
    Holds env d₀ C i (.verifyMfaChallenge mfaToken code)
      (Returns env d₀ i (.verifyMfaChallenge mfaToken code)) L
      (program env i (.verifyMfaChallenge mfaToken code)) := by
  refine holds_bind.2 (holds_bind.2 (holds_select fun l₁ hm₁ _ => ?_))
  cases hv : mfaToken.verify env.jwtRefreshSecret (d₀.at l₁).now with
  | none => exact holds_throw trivial
  | some payload =>
    obtain ⟨-, hclaims⟩ := Jwt.verify_some hv
    subst hclaims
    dsimp only
    split
    · exact holds_throw trivial
    refine holds_bind.2 (holds_select fun l hm _ => ?_)
    cases huser : (d₀.at l).user? mfaToken.claims.sub with
    | none => exact holds_throw trivial
    | some user =>
      dsimp only
      split
      · exact holds_throw trivial
      next hmfa =>
      have hreads : Reads C i (.verifyMfaChallenge mfaToken code) l :=
        ⟨L, hstart, hm₁.trans hm⟩
      refine holds_bind.2 (verifyForLogin_holds hreads huser (fun _ => holds_throw trivial) ?_)
      intro m m' L' hlm hmm' hmL' hacc
      refine holds_bind.2 (generateTokens_holds (fun _ _ _ _ => trivial) ?_ ?_)
      · intro L₂ now hm' _
        exact ⟨l, m, m', user, now, hreads, hlm, hmm', hmL'.trans hm', huser,
          by simpa using hmfa, hacc, rfl⟩
      · intro L₂ now r _ _ hd
        refine holds_bind.2 (holds_log fun L₃ hm' _ => ?_)
        exact ⟨r, user, rfl, hd.mono (hm'.onto.trans (List.prefix_append _ _))⟩

theorem publishes_revokeAll {op : Op} {u : Id} (h : Revokes env d₀ C i op u) :
    Publishes env d₀ C i op L [.revokeAllUserTokens u] where
  proper w hw := by
    rw [List.mem_singleton.1 hw]
    trivial
  issue t ht := by cases List.mem_singleton.1 ht
  rotate e r hw := by cases List.mem_singleton.1 hw
  revoke u' hw := by
    cases List.mem_singleton.1 hw
    exact ⟨rfl, h⟩
  consume w hw hon := by
    rw [List.mem_singleton.1 hw] at hon
    exact hon.elim

/-! ### Rotation -/

/-- The row that a rotation has read by its hash is the one it saves by its id. -/
theorem Db.get?_of_tokenByHash {d : Db} {hash : String} {t : RefreshToken}
    (h : d.tokenByHash hash = some t) : d.refreshTokens.get? t.id = some t :=
  Table.get?_of_mem (List.mem_of_find?_eq_some h)

theorem Db.hash_of_tokenByHash {d : Db} {hash : String} {t : RefreshToken}
    (h : d.tokenByHash hash = some t) : t.tokenHash = hash := by
  have := List.find?_some h
  exact beq_iff_eq.1 this

theorem saveToken_holds {value : String} {e p : RefreshToken} (he : e.revoked = true)
    (hhash : e.tokenHash = AuthService.hashToken env value)
    (hp : (d₀.at L).tokenByHash (AuthService.hashToken env value) = some p) (hid : e.id = p.id)
    {Q : Log → RefreshToken → Prop} (hQ : ∀ L', L <+: L' → Spent env d₀ L' value → Q L' e) :
    Holds env d₀ C i (.refreshTokens value) Q L (RefreshTokenRepository.save e) := by
  refine holds_bind.2 (holds_select fun L₁ hm₁ hL₁ => ?_)
  obtain ⟨p₁, hp₁, ha₁⟩ := hL₁.hash_stays hm₁.onto hp
  have hget : (d₀.at L₁).refreshTokens.get? e.id = some p₁ := by
    rw [hid, ← ha₁.id]
    exact Db.get?_of_tokenByHash hp₁
  rw [hget]
  dsimp only
  split
  · next hsame =>
    have hrevoked : p₁.revoked = true := by
      rw [← hsame]
      simp only [RefreshToken.overwrite, setColumn_reread, he]
    exact hQ L₁ hm₁.onto ⟨p₁, hp₁, hrevoked⟩
  · refine holds_bind.2 (holds_write fun L₂ hm₂ hL₂ => ⟨⟨?_, ?_, ?_, ?_, ?_⟩, ?_⟩)
    · intro w hw
      rw [List.mem_singleton.1 hw]
      exact he
    · intro t ht
      cases List.mem_singleton.1 ht
    · intro e' r' hw
      cases List.mem_singleton.1 hw
      exact ⟨value, rfl, hhash⟩
    · intro u hw
      cases List.mem_singleton.1 hw
    · intro w hw hon
      rw [List.mem_singleton.1 hw] at hon
      exact hon.elim
    · refine hQ _ ((hm₁.trans hm₂).onto.trans (List.prefix_append _ _)) ?_
      obtain ⟨p₂, hp₂, ha₂⟩ := hL₂.hash_stays hm₂.onto hp₁
      have hfind : (store.apply (d₀.at L₂) (.saveRefreshToken e p₁)).refreshTokens.rows.find?
          (fun t => t.tokenHash == AuthService.hashToken env value) = _ :=
        Table.find?_modify (e.overwrite p₁) (fun _ => rfl) fun _ => rfl
      refine ⟨e.overwrite p₁ p₂, ?_, ?_⟩
      · rw [Db.at_snoc]
        refine hfind.trans ?_
        have hp₂' : (d₀.at L₂).refreshTokens.rows.find?
            (fun t => t.tokenHash == AuthService.hashToken env value) = some p₂ := hp₂
        rw [hp₂', Option.map_some, if_pos (ha₂.id.trans (ha₁.id.trans hid.symm))]
      · simp only [RefreshToken.overwrite, setColumn]
        split
        · next h => exact ha₂.revoked (h ▸ he)
        · exact he

theorem refreshTokens_holds {value : String} (hstart : C.start i (.refreshTokens value) L)
    (hnew : ∀ w, ¬ Published i L w) :
    Holds env d₀ C i (.refreshTokens value) (Returns env d₀ i (.refreshTokens value)) L
      (program env i (.refreshTokens value)) := by
  refine holds_bind.2 (holds_bind.2 (holds_select fun l hm hl => ?_))
  have hreads : Reads C i (.refreshTokens value) l := ⟨L, hstart, hm⟩
  have hnone : ∀ {L'}, Meanwhile C i (.refreshTokens value) l L' → ∀ w, ¬ Published i L' w :=
    fun hm' w hw => hnew w ((hm.trans hm').published.1 hw)
  cases hparent : (d₀.at l).tokenByHash (AuthService.hashToken env value) with
  | none =>
    exact holds_throw ⟨fun _ => hnone .refl _,
      .inr ⟨by decide, l, List.prefix_rfl, hreads, by simp [hparent]⟩⟩
  | some parent =>
    simp only [Option.map_some]
    split
    · next hrevoked =>
      refine holds_bind.2 (holds_write fun L' hm' _ =>
        ⟨publishes_revokeAll ⟨l, parent, hreads, hparent, hrevoked, rfl⟩, ?_⟩)
      refine holds_throw ⟨fun t ht => ?_, .inl ⟨rfl, l, parent,
        hm'.onto.trans (List.prefix_append _ _), hparent, ?_⟩⟩
      · rcases List.mem_append.1 ht with ht | ht
        · exact hnone hm' _ ht
        · cases List.mem_singleton.1 ht
      · exact List.mem_append_right _ (List.mem_singleton.2 rfl)
    · next hrevoked =>
      -- an error from here on, before the successor is stored
      have refuses : ∀ {L' e}, Meanwhile C i (.refreshTokens value) l L' →
          e ≠ .unauthorized AuthService.REUSE_DETECTED none →
          Refuses env d₀ C i (.refreshTokens value) L' e := fun hm' he =>
        ⟨fun _ => hnone hm' _, .inr ⟨he, l, hm'.onto, hreads, fun t ht => by
          rw [hparent] at ht
          cases ht
          exact Bool.eq_false_iff.2 hrevoked⟩⟩
      refine holds_bind.2 (holds_select fun l₁ hm₁ _ => ?_)
      split
      · exact holds_throw (refuses hm₁ (by decide))
      cases huser : (d₀.at l).user? parent.userId with
      | none => exact holds_throw (refuses hm₁ (fun h => by cases h))
      | some user =>
        refine holds_bind.2 (generateTokens_holds
          (fun L' c hm' _ => refuses (hm₁.trans hm') fun h => by cases h) ?_ ?_)
        · intro L' now hm' _
          exact ⟨l, parent, user, now, hreads, hm₁.trans hm', hparent,
            Bool.eq_false_iff.2 hrevoked, huser, rfl⟩
        · intro L' now r hm' hL' hd
          obtain ⟨p, hp, ha⟩ := hL'.hash_stays
            ((hm₁.trans hm').onto.trans (List.prefix_append _ _)) hparent
          refine holds_bind.2 (saveToken_holds rfl ?_ hp ?_ ?_)
          · show parent.tokenHash = _
            exact Db.hash_of_tokenByHash hparent
          · exact ha.id.symm
          · exact fun L'' hl'' hspent =>
              ⟨⟨r, user, _, rfl, hd.mono hl''⟩, hspent⟩

theorem findUserByResetToken_holds {token newPassword : String} {Q : Log → Option User → Prop}
    (hQ : ∀ L' r, (∀ user, r = some user → ∃ l, l <+: L' ∧ user ∈ (d₀.at l).users.rows ∧
      user.passwordResetToken = some (AuthService.hashToken env token)) → Q L' r) :
    Holds env d₀ C i (.resetPassword token newPassword) Q L
      (AuthService.findUserByResetToken env token) := by
  refine holds_bind.2 (holds_select fun l _ _ => ?_)
  cases hhead : ((d₀.at l).users.rows.filter
      (·.passwordResetToken == some (AuthService.hashToken env token))).head? with
  | none => exact holds_ret (hQ _ _ fun _ h => by cases h)
  | some user =>
    obtain ⟨hmem, htoken⟩ := List.mem_filter.1 (List.mem_of_head? hhead)
    refine holds_bind.2 (holds_select fun l' hm _ => ?_)
    cases user.passwordResetExpires with
    | none => exact holds_ret (hQ _ _ fun _ h => by cases h)
    | some expires =>
      refine holds_ret (hQ _ _ fun user' h => ⟨l, hm.onto, ?_⟩)
      split at h
      · cases h
      · cases h
        exact ⟨hmem, beq_iff_eq.1 htoken⟩

theorem resetPassword_holds {token newPassword : String} :
    Holds env d₀ C i (.resetPassword token newPassword)
      (Returns env d₀ i (.resetPassword token newPassword)) L
      (program env i (.resetPassword token newPassword)) := by
  -- what does not concern sessions
  have quiet : ∀ {α : Type} {p : M α} {Q : Log → α → Prop} {L : Log}, TokenlessProg p →
      (∀ L' a, L <+: L' → Q L' a) →
      Holds env d₀ C i (.resetPassword token newPassword) Q L p := fun {_ _ _ L} hp hQ =>
    holds_mono hQ (Prog.Plain.along hp (P := fun L' => L <+: L')
      (fun _ _ h hm _ => h.trans hm.onto)
      (fun L' ws h _ hws => by
        cases ws with
        | nil => exact h
        | cons w ws =>
          exact ⟨hws.publishes fun _ _ _ => trivial, h.trans (List.prefix_append _ _)⟩)
      (fun _ _ _ _ => .inr trivial) (fun _ _ h => h) List.prefix_rfl)
  refine holds_bind.2 (holds_bind.2 (findUserByResetToken_holds fun l user huser => ?_))
  cases user with
  | none => exact holds_throw trivial
  | some user =>
    obtain ⟨l₀, hl₀, hmem, htoken⟩ := huser user rfl
    refine holds_bind.2 (quiet (update_tokenless _ _) fun l₁ _ hl₁ => ?_)
    have hrevokes : Revokes env d₀ C i (.resetPassword token newPassword) user.id := trivial
    refine holds_bind.2 (holds_write fun L' hm _ => ⟨publishes_revokeAll hrevokes, ?_⟩)
    refine holds_log fun L'' hm' _ => ?_
    have hL'' : l₁ <+: L'' := hm.onto.trans ((List.prefix_append _ _).trans hm'.onto)
    refine ⟨rfl, l₀, user, hl₀.trans (hl₁.trans (hL''.trans (List.prefix_append _ _))), hmem,
      htoken, ?_⟩
    exact List.mem_append_left _
      (hm'.onto.subset (List.mem_append_right _ (List.mem_singleton.2 rfl)))

end

/-! ## All calls -/

section

variable {env : Environment} {d₀ : Db} {C : Condition} {i j : Nat} {op : Op} {L : Log}

theorem Returns.later {r : Result} {g : Txn.Group Write} (h : Returns env d₀ j op L r)
    (hL : ProperLog (L ++ [g])) : Returns env d₀ j op (L ++ [g]) r := by
  have hl : L <+: L ++ [g] := List.prefix_append _ _
  cases op with
  | login dto =>
    rcases h with ⟨t, user, l, hr, hd, hl', h⟩ | h
    · exact .inl ⟨t, user, l, hr, hd.mono hl, hl'.trans hl, h⟩
    · exact .inr h
  | verifyMfaChallenge mfaToken code =>
    obtain ⟨t, user, hr, hd⟩ := h
    exact ⟨t, user, hr, hd.mono hl⟩
  | refreshTokens value =>
    obtain ⟨⟨t, user, mfa, hr, hd⟩, hspent⟩ := h
    exact ⟨⟨t, user, mfa, hr, hd.mono hl⟩, hL.spent_stays hl hspent⟩
  | resetPassword token newPassword =>
    obtain ⟨hr, l, user, hl', hmem, htoken, hu⟩ := h
    exact ⟨hr, l, user, hl'.trans hl, hmem, htoken, hu.mono hl⟩
  | _ => exact h

theorem Refuses.later {e : AuthError} {ws : List Write} (hij : j ≠ i)
    (h : Refuses env d₀ C j op L e) : Refuses env d₀ C j op (L ++ [⟨i, false, ws⟩]) e := by
  cases op with
  | refreshTokens value =>
    obtain ⟨hnone, h⟩ := h
    refine ⟨fun t ht => ?_, ?_⟩
    · rcases List.mem_append.1 ht with ht | ht
      · exact hnone t ht
      · cases List.mem_singleton.1 ht
        exact hij rfl
    · rcases h with ⟨he, l, parent, hl, hp, hr⟩ | h
      · exact .inl ⟨he, l, parent, hl.trans (List.prefix_append _ _), hp,
          hr.mono (List.prefix_append _ _)⟩
      · obtain ⟨he, l, hl, h⟩ := h
        exact .inr ⟨he, l, hl.trans (List.prefix_append _ _), h⟩
  | _ => trivial

/-- Every call keeps to `conduct` in the runs of a condition that gives `C`. -/
theorem sessions {ok : RunState → Step → Prop}
    (hstart : ∀ {s op}, (system env).Within ok d₀ s → Kept (system env) (conduct env d₀ C) d₀ s →
      ok s (.spawn op) → C.start s.ops.length op s.log)
    (hallowed : ∀ {s i op j op'}, (system env).Within ok d₀ s →
      Kept (system env) (conduct env d₀ C) d₀ s → ok s (.step i) → s.ops[i]? = some op →
      s.ops[j]? = some op' → j ≠ i → (s.call j).isRunning = true → s.issues i ≠ [] →
      Publishes env d₀ C i op s.log (s.issues i) → C.allowed j op' s.log ⟨i, false, s.issues i⟩)
    (hfails : ∀ {s i op e}, (system env).Within ok d₀ s →
      Kept (system env) (conduct env d₀ C) d₀ s → ok s (.fault i e) → s.ops[i]? = some op →
      C.fails i op s.log)
    (hlasting : ∀ {i j op L ws}, j ≠ i → C.fails j op L → C.fails j op (L ++ [⟨i, false, ws⟩])) :
    History (system env) ok (conduct env d₀ C) d₀ where
  refl _ _ _ := .refl
  trans _ _ _ _ _ := Meanwhile.trans
  inv hL hG := hL.snoc hG.proper
  others := by
    intro s i op j op' ws hw hk hok hi hj hij hrun hws hne hG
    subst hws
    exact Meanwhile.refl.other (Ne.symm hij) (hallowed hw hk hok hi hj hij hrun hne hG)
  settled := by
    intro i op j op' L ws hL hG hij
    refine ⟨fun a ha => ha.later (hL.snoc hG.proper), fun e he => ?_⟩
    rcases he with ⟨he, hf⟩ | he
    · exact .inl ⟨he, hlasting hij hf⟩
    · exact .inr (he.later hij)
  fault := hfails
  prog := by
    intro s op hw hk hok
    have hst := hstart hw hk hok
    have hnew : ∀ w, ¬ Published s.ops.length s.log w := by
      intro w hw
      exact Nat.lt_irrefl _ (hk.fresh.log _ hw)
    cases hp : op.plain with
    | true => exact plainCall_holds hp
    | false =>
      cases op with
      | resetPassword token newPassword => exact resetPassword_holds
      | login dto => exact login_holds hst
      | verifyMfaChallenge mfaToken code => exact verifyMfaChallenge_holds hst
      | refreshTokens value => exact refreshTokens_holds hst hnew
      | _ => cases hp

end

end JobBoard.Auth
