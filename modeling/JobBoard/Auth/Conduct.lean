import JobBoard.Auth.System

/-!
# What the calls do to sessions

`conduct` says for each operation what it publishes about refresh tokens and backup
codes, with what it had read and when: what it has read at an earlier moment is a
fact about the prefix `l` of the log at that moment. A group of claims is settled
over the runs of one condition; what the condition gives is a parameter here: `start`
holds of the log when a call starts, and `allowed` of the groups that other calls
publish while it runs. `Meanwhile` are the logs that these lead to.
-/

set_option autoImplicit false

namespace JobBoard.Auth

open Txn Prog

abbrev Log := List (Txn.Group Write)

/-- The committed database at a moment of the run. -/
abbrev Db.at (d₀ : Db) (L : Log) : Db := replay store d₀ L

/-- Call `i` has published the statement `w`. -/
def Published (i : Nat) (L : Log) (w : Write) : Prop := (⟨i, false, [w]⟩ : Txn.Group Write) ∈ L

/-- What the condition of a run gives. -/
structure Condition where
  start : Nat → Op → Log → Prop
  allowed : Nat → Op → Log → Txn.Group Write → Prop
  /-- A statement of the call may fail by itself at the log. -/
  fails : Nat → Op → Log → Prop

inductive Meanwhile (C : Condition) (i : Nat) (op : Op) (l : Log) : Log → Prop
  | refl : Meanwhile C i op l l
  | other {L : Log} {g : Txn.Group Write} : Meanwhile C i op l L → g.call ≠ i →
      C.allowed i op L g → Meanwhile C i op l (L ++ [g])

/-- Call `i`, which has published nothing, may read at the log `l`. -/
def Reads (C : Condition) (i : Nat) (op : Op) (l : Log) : Prop :=
  ∃ l₀, C.start i op l₀ ∧ Meanwhile C i op l₀ l

/-! ## Writes -/

/-- Every refresh token starts unrevoked, and a rotation only revokes. -/
def Write.proper : Write → Prop
  | .insertRefreshToken t => t.revoked = false
  | .saveRefreshToken e _ => e.revoked = true
  | _ => True

/-- The statement does not concern refresh tokens. -/
def Write.tokenless : Write → Prop
  | .insertRefreshToken _ | .saveRefreshToken _ _ | .revokeAllUserTokens _ => False
  | _ => True

/-- The statement concerns users. -/
def Write.onUsers : Write → Prop
  | .insertUser _ | .updateUser _ _ | .saveUser _ _ => True
  | _ => False

def ProperLog (L : Log) : Prop := ∀ g ∈ L, ∀ w ∈ g.writes, w.proper

/-! ## The operations -/

section

variable (env : Environment) (d₀ : Db) (C : Condition) (i : Nat)

/-- MfaService accepts the code for the user. -/
def Accepts (user : User) (code : String) : Prop :=
  ∃ now r, MfaService.verifyCode env user code now = .ok r ∧ r.valid = true

/-- The statement that takes the backup code `k` out of the list of the user. -/
def consume (user : User) (k : Nat) : Write :=
  .updateUser user.id { mfaBackupCodes := some (some ((user.mfaBackupCodes.getD []).eraseIdx k)) }

theorem user?_consume {d : Db} {user : User} {k : Nat} {u : Id} :
    (store.apply d (consume user k)).user? u =
      if u = user.id then (d.user? u).map (UserPatch.apply
        { mfaBackupCodes := some (some ((user.mfaBackupCodes.getD []).eraseIdx k)) })
      else d.user? u :=
  Table.get?_modify
    (UserPatch.apply { mfaBackupCodes := some (some ((user.mfaBackupCodes.getD []).eraseIdx k)) })
    fun _ => rfl

/-- The code is the backup code `k` of the user. -/
def IsBackupCode (user : User) (code : String) (k : Nat) : Prop :=
  MfaService.isTotp (removeSpaces code) = false ∧
    ∃ hash, (user.mfaBackupCodes.getD [])[k]? = some hash ∧
      env.argon2Verify hash (removeSpaces code) = some true

/-- Why call `i` issues the token `t` at the log `L`. -/
def Issues (op : Op) (L : Log) (t : RefreshToken) : Prop :=
  match op with
  | .login dto => ∃ l user now, Reads C i op l ∧ Meanwhile C i op l L ∧
      (d₀.at l).userByEmail (env.toLowerCase dto.email) = some user ∧ user.status = .active ∧
      user.mfaEnabled = false ∧ t = AuthService.newRefreshToken env i user false now
  | .verifyMfaChallenge mfaToken code => ∃ l m m' user now, Reads C i op l ∧
      Meanwhile C i op l m ∧
      ((MfaService.isTotp (removeSpaces code) = true ∧ m' = m) ∨
        ∃ k, IsBackupCode env user code k ∧ m' = m ++ [⟨i, false, [consume user k]⟩]) ∧
      Meanwhile C i op m' L ∧ (d₀.at l).user? mfaToken.claims.sub = some user ∧
      user.mfaEnabled = true ∧ Accepts env user code ∧
      t = AuthService.newRefreshToken env i user true now
  | .refreshTokens value => ∃ l parent user now, Reads C i op l ∧ Meanwhile C i op l L ∧
      (d₀.at l).tokenByHash (AuthService.hashToken env value) = some parent ∧
      parent.revoked = false ∧ (d₀.at l).user? parent.userId = some user ∧
      t = AuthService.newRefreshToken env i user parent.mfaAuthenticated now
  | _ => False

/-- Why call `i` revokes all sessions of `userId`. -/
def Revokes (op : Op) (userId : Id) : Prop :=
  match op with
  | .resetPassword _ _ => True
  | .refreshTokens value => ∃ l parent, Reads C i op l ∧
      (d₀.at l).tokenByHash (AuthService.hashToken env value) = some parent ∧
      parent.revoked = true ∧ parent.userId = userId
  | _ => False

/-- Why call `i` takes a backup code out of a list. -/
def Consumes (op : Op) (L : Log) (ws : List Write) : Prop :=
  match op with
  | .verifyMfaChallenge mfaToken code => ∃ l user k, Reads C i op l ∧ Meanwhile C i op l L ∧
      (d₀.at l).user? mfaToken.claims.sub = some user ∧ IsBackupCode env user code k ∧
      ws = [consume user k]
  | _ => True

structure Publishes (op : Op) (L : Log) (ws : List Write) : Prop where
  proper : ∀ w ∈ ws, w.proper
  issue : ∀ t, .insertRefreshToken t ∈ ws → ws = [.insertRefreshToken t] ∧
    (d₀.at L).refreshTokens.get? t.id = none ∧ (d₀.at L).tokenByHash t.tokenHash = none ∧
    Issues env d₀ C i op L t
  /-- Only the row of the token that was presented is saved. -/
  rotate : ∀ e r, .saveRefreshToken e r ∈ ws → ∃ value, op = .refreshTokens value ∧
    e.tokenHash = AuthService.hashToken env value
  revoke : ∀ u, .revokeAllUserTokens u ∈ ws → ws = [.revokeAllUserTokens u] ∧
    Revokes env d₀ C i op u
  consume : ∀ w ∈ ws, w.onUsers → Consumes env d₀ C i op L ws

/-- The session tokens `r` come with the refresh token that call `i` has stored. -/
def Delivered (L : Log) (r : AuthTokens) (user : User) (mfaAuthenticated : Bool) : Prop :=
  ∃ now, Published i L
      (.insertRefreshToken (AuthService.newRefreshToken env i user mfaAuthenticated now)) ∧
    r = ⟨Jwt.sign env.jwtAccessSecret (AuthService.accessClaims user mfaAuthenticated) now
      env.jwtAccessExpiration, env.randomBytes i 0⟩

/-- The token `value` is stored, and revoked. -/
def Spent (L : Log) (value : String) : Prop :=
  ∃ t, (d₀.at L).tokenByHash (AuthService.hashToken env value) = some t ∧ t.revoked = true

def Returns (op : Op) (L : Log) (r : Result) : Prop :=
  match op with
  | .login dto =>
      (∃ t user l, r = .login (.tokens t) ∧ Delivered env i L t user false ∧ l <+: L ∧
        (d₀.at l).userByEmail (env.toLowerCase dto.email) = some user ∧ user.mfaEnabled = false) ∨
      ∃ user now l, r = .login (.challenge (AuthService.issueMfaChallengeToken env user.id now)) ∧
        (d₀.at l).userByEmail (env.toLowerCase dto.email) = some user ∧ user.mfaEnabled = true
  | .verifyMfaChallenge _ _ => ∃ t user, r = .tokens t ∧ Delivered env i L t user true
  | .refreshTokens value =>
      (∃ t user mfa, r = .tokens t ∧ Delivered env i L t user mfa) ∧ Spent env d₀ L value
  | .resetPassword token _ => r = .unit ∧ ∃ l user, l <+: L ∧ user ∈ (d₀.at l).users.rows ∧
      user.passwordResetToken = some (AuthService.hashToken env token) ∧
      Published i L (.revokeAllUserTokens user.id)
  | _ => (∀ t, r ≠ .login t) ∧ ∀ t, r ≠ .tokens t

/-- Why a rotation does not happen: the token was spent when it was presented, and
all sessions are revoked, or it was not. -/
def Refuses (op : Op) (L : Log) (e : AuthError) : Prop :=
  match op with
  | .refreshTokens value => (∀ t, ¬ Published i L (.insertRefreshToken t)) ∧
      ((e = .unauthorized AuthService.REUSE_DETECTED none ∧ ∃ l parent, l <+: L ∧
          (d₀.at l).tokenByHash (AuthService.hashToken env value) = some parent ∧
          Published i L (.revokeAllUserTokens parent.userId)) ∨
        e ≠ .unauthorized AuthService.REUSE_DETECTED none ∧ ∃ l, l <+: L ∧ Reads C i op l ∧
          ∀ t, (d₀.at l).tokenByHash (AuthService.hashToken env value) = some t →
            t.revoked = false)
  | _ => True

def conduct : Conduct Write AuthError Result Op where
  rely i op := Meanwhile C i op
  inv := ProperLog
  guar i := Publishes env d₀ C i
  fails := C.fails
  post i := Returns env d₀ i
  err i op L e := (isFault e = true ∧ C.fails i op L) ∨ Refuses env d₀ C i op L e

end

/-! ## Logs -/

section

variable {C : Condition} {i : Nat} {op : Op} {l m L : Log}

theorem Meanwhile.trans (h : Meanwhile C i op l m) (h' : Meanwhile C i op m L) :
    Meanwhile C i op l L := by
  induction h' with
  | refl => exact h
  | other _ hg ha ih => exact ih.other hg ha

theorem Meanwhile.onto (h : Meanwhile C i op l L) : l <+: L := by
  induction h with
  | refl => exact List.prefix_rfl
  | other _ _ _ ih => exact ih.trans (List.prefix_append _ _)

theorem Published.mono {w : Write} (h : Published i l w) (hl : l <+: L) : Published i L w :=
  hl.subset h

/-- What the call has published meanwhile: nothing. -/
theorem Meanwhile.published {w : Write} (h : Meanwhile C i op l L) :
    Published i L w ↔ Published i l w := by
  induction h with
  | refl => exact Iff.rfl
  | @other L g _ hg _ ih =>
    rw [← ih]
    simp only [Published, List.mem_append, List.mem_singleton]
    refine or_iff_left ?_
    rintro rfl
    exact hg rfl

end

end JobBoard.Auth
