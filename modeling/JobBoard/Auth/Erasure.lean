import JobBoard.Auth.Provenance

/-!
# Tokens are for active accounts

A login checks the status of the account; a challenge and a rotation do not, and an
erasure leaves refresh tokens and challenges as they are. What is proved is that an
account is ACTIVE whenever it is issued a token in the runs where challenges and
rotations start for such accounts only, and where nobody deactivates an account
while a call of the issuing paths is in progress for it.
-/

set_option autoImplicit false

namespace JobBoard.Auth

open Txn Prog

/-! ## The condition -/

section

variable (env : Environment)

/-- The account that a call of the issuing paths concerns. -/
def account (op : Op) (d : Db) : Option User :=
  match op with
  | .login dto => d.userByEmail (env.toLowerCase dto.email)
  | .verifyMfaChallenge mfaToken _ => d.user? mfaToken.claims.sub
  | .refreshTokens value =>
    (d.tokenByHash (AuthService.hashToken env value)).bind fun t => d.user? t.userId
  | _ => none

def User.isActive (u : User) : Bool := u.status = .active

/-- `login` refuses an account that is not active. -/
def Op.checksStatus : Op → Bool
  | .login _ => true
  | _ => false

/-- The account of the call stays the same and ACTIVE from `d` to `d'`. -/
def keepsActive (op : Op) (d d' : Db) : Bool :=
  match account env op d with
  | some u => !u.isActive || (account env op d').any fun u' => u'.id == u.id && u'.isActive
  | none => op.checksStatus || (account env op d').all User.isActive

/-- A call that does not check the status starts for an account that is ACTIVE, and no
statement changes that for a call in progress. -/
def accountsStayActive (s : RunState) : Step → Bool
  | .spawn op => op.checksStatus || (account env op s.db).all User.isActive
  | .step i => (List.range s.ops.length).all fun j =>
      j == i || !(s.call j).isRunning ||
        (s.ops[j]?).all fun op => keepsActive env op s.db (store.applyAll s.db (s.issues i))
  | .fault _ _ => true

/-- What such a run gives. -/
def activeAccounts (d₀ : Db) : Condition where
  start _ op L := op.checksStatus = true ∨ (account env op (d₀.at L)).all User.isActive = true
  allowed _ op L g :=
    keepsActive env op (d₀.at L) (store.applyAll (d₀.at L) g.writes) = true
  fails _ _ _ := True

end

section

variable {env : Environment} {d₀ : Db} {op : Op} {i : Nat} {l L : Log} {u : User}

theorem account_stored {d : Db} (h : account env op d = some u) : d.user? u.id = some u := by
  cases op with
  | login dto => exact Table.get?_of_mem (List.mem_of_find?_eq_some h)
  | verifyMfaChallenge mfaToken code => exact Table.get?_of_mem (Table.mem_of_get? h)
  | refreshTokens value =>
    obtain ⟨t, -, hu⟩ := Option.bind_eq_some_iff.1 h
    exact Table.get?_of_mem (Table.mem_of_get? hu)
  | _ => cases h

theorem keepsActive_some {d d' : Db} (h : keepsActive env op d d' = true)
    (hu : account env op d = some u) (ha : u.isActive = true) :
    ∃ u', account env op d' = some u' ∧ u'.id = u.id ∧ u'.isActive = true := by
  cases hu' : account env op d' with
  | none => simp [keepsActive, hu, hu', ha] at h
  | some u' =>
    simp only [keepsActive, hu, hu', ha, Bool.not_true, Bool.false_or, Option.any_some,
      Bool.and_eq_true, beq_iff_eq] at h
    exact ⟨u', rfl, h⟩

/-- The account stays ACTIVE meanwhile. -/
theorem Meanwhile.active (h : Meanwhile (activeAccounts env d₀) i op l L)
    (hu : account env op (d₀.at l) = some u) (ha : u.isActive = true) :
    ∃ u', account env op (d₀.at L) = some u' ∧ u'.id = u.id ∧ u'.isActive = true := by
  induction h with
  | refl => exact ⟨u, hu, rfl, ha⟩
  | @other L g _ _ hg ih =>
    obtain ⟨u₁, hu₁, hid₁, ha₁⟩ := ih
    rw [Db.at_snoc]
    obtain ⟨u₂, hu₂, hid₂, ha₂⟩ := keepsActive_some hg hu₁ ha₁
    exact ⟨u₂, hu₂, hid₂.trans hid₁, ha₂⟩

/-- No account that the call may read is inactive. -/
theorem Reads.active (h : Reads (activeAccounts env d₀) i op l) (hop : op.checksStatus = false) :
    (account env op (d₀.at l)).all User.isActive = true := by
  obtain ⟨l₀, hstart, hm⟩ := h
  induction hm with
  | refl => exact hstart.resolve_left (by simp [hop])
  | @other L g _ _ hg ih =>
    rw [Db.at_snoc]
    cases hu : account env op (d₀.at L) with
    | none =>
      have hg' : keepsActive env op (d₀.at L) (store.applyAll (d₀.at L) g.writes) = true := hg
      simpa only [keepsActive, hu, hop, Bool.false_or] using hg'
    | some u =>
      rw [hu] at ih
      obtain ⟨u', hu', -, ha'⟩ := keepsActive_some hg hu ih
      rw [hu']
      exact ha'

/-- Taking a backup code leaves the account as it is. -/
theorem account_consume {mfaToken : Jwt} {code : String} {user : User} {k : Nat}
    (hu : account env (.verifyMfaChallenge mfaToken code) (d₀.at L) = some u)
    (ha : u.isActive = true) :
    ∃ u', account env (.verifyMfaChallenge mfaToken code)
        (d₀.at (L ++ [⟨i, false, [consume user k]⟩])) = some u' ∧ u'.id = u.id ∧
      u'.isActive = true := by
  have hu' : (d₀.at L).user? mfaToken.claims.sub = some u := hu
  rw [Db.at_snoc]
  show ∃ u', (store.apply (d₀.at L) (consume user k)).user? mfaToken.claims.sub = some u' ∧ _
  rw [user?_consume, hu']
  split
  · exact ⟨_, rfl, rfl, ha⟩
  · exact ⟨u, rfl, rfl, ha⟩

/-- A token is issued to an account that is ACTIVE at that moment. -/
theorem Issues.active {t : RefreshToken} (h : Issues env d₀ (activeAccounts env d₀) i op L t) :
    ∃ u, (d₀.at L).user? t.userId = some u ∧ u.status = .active := by
  -- the account that the call has read, and what it is now
  suffices hacc : ∃ u, account env op (d₀.at L) = some u ∧ u.id = t.userId ∧ u.isActive = true by
    obtain ⟨u, hu, hid, ha⟩ := hacc
    exact ⟨u, hid ▸ account_stored hu, of_decide_eq_true ha⟩
  cases op with
  | login dto =>
    obtain ⟨l, user, now, -, hL, huser, hactive, -, rfl⟩ := h
    exact hL.active huser (decide_eq_true hactive)
  | verifyMfaChallenge mfaToken code =>
    obtain ⟨l, m, m', user, now, hreads, hlm, hmm', hmL, huser, -, -, rfl⟩ := h
    have hactive : user.isActive = true := by
      have hall : ((d₀.at l).user? mfaToken.claims.sub).all User.isActive = true :=
        hreads.active rfl
      rwa [huser] at hall
    obtain ⟨u₁, hu₁, hid₁, ha₁⟩ := hlm.active huser hactive
    have hm' : ∃ u', account env (.verifyMfaChallenge mfaToken code) (d₀.at m') = some u' ∧
        u'.id = u₁.id ∧ u'.isActive = true := by
      rcases hmm' with ⟨-, rfl⟩ | ⟨k, -, rfl⟩
      · exact ⟨u₁, hu₁, rfl, ha₁⟩
      · exact account_consume hu₁ ha₁
    obtain ⟨u₂, hu₂, hid₂, ha₂⟩ := hm'
    obtain ⟨u₃, hu₃, hid₃, ha₃⟩ := hmL.active hu₂ ha₂
    exact ⟨u₃, hu₃, hid₃.trans (hid₂.trans hid₁), ha₃⟩
  | refreshTokens value =>
    obtain ⟨l, parent, user, now, hreads, hL, hparent, -, huser, rfl⟩ := h
    have hacc : account env (.refreshTokens value) (d₀.at l) = some user :=
      Option.bind_eq_some_iff.2 ⟨parent, hparent, huser⟩
    have hactive : user.isActive = true := by
      have := hreads.active rfl
      rwa [hacc] at this
    exact hL.active hacc hactive
  | _ => exact h.elim

end

/-! ## The theorem -/

/-- Each refresh token is stored, and each access token returned with it, for a user who is
ACTIVE at that moment. -/
def IssuedToActive (env : Environment) (d₀ : Db) (s : RunState) : Prop :=
  (∀ l g r t, s.log = l ++ g :: r → .insertRefreshToken t ∈ g.writes →
    ∃ u, (d₀.at l).user? t.userId = some u ∧ u.status = .active) ∧
  ∀ i r tokens, s.call i = .done (.ok r) → r.session = some tokens →
    ∃ t, Published i s.log (.insertRefreshToken t) ∧
      t.tokenHash = AuthService.hashToken env tokens.refreshToken ∧
      t.userId = tokens.accessToken.claims.sub

section

variable {env : Environment} {d₀ : Db} {s : RunState}

theorem accountsStayActive_history :
    History (system env) (fun s l => accountsStayActive env s l = true)
      (conduct env d₀ (activeAccounts env d₀)) d₀ := by
  refine sessions ?_ ?_ (fun _ _ _ _ => trivial) fun _ _ => trivial
  · intro s op _ hk hok
    have hdb : s.db = d₀.at s.log := hk.db
    simp only [accountsStayActive, hdb, Bool.or_eq_true] at hok
    exact hok
  · intro s i op j op' _ hk hok _ hj hij hrun _ _
    have hdb : s.db = d₀.at s.log := hk.db
    have hlt : j < s.ops.length := (List.getElem?_eq_some_iff.1 hj).1
    have hstep := List.all_eq_true.1 hok j (List.mem_range.2 hlt)
    have hne : (j == i) = false := beq_eq_false_iff_ne.2 hij
    simp only [hne, hrun, hj, Bool.not_true, Bool.false_or, Option.all_some] at hstep
    rw [hdb] at hstep
    exact hstep

end

end JobBoard.Auth
