import JobBoard.Lib.Wp
import JobBoard.Lib.Table
import JobBoard.Auth.Totp

/-!
# The database of the accounts

The users and their refresh tokens, the rows that an erasure removes, the clock and
the audit trail. `UserPatch` is the argument of `UsersService.update`: the columns
it names are set, the others stay. `Write.saveUser` and `Write.saveRefreshToken` are
TypeORM's `save` of a loaded entity, which sets the columns that differ from the row
it re-read. No operation deletes a refresh token.
-/

set_option autoImplicit false

namespace JobBoard.Auth

open Txn

structure Db where
  now : Time
  users : Table User.id
  refreshTokens : Table RefreshToken.id
  documents : Table Document.id
  profiles : Table CandidateProfile.id
  auditLogs : List AuditLog

namespace Db

def empty : Db := ⟨0, ∅, ∅, ∅, ∅, []⟩

def user? (db : Db) (id : Id) : Option User := db.users.get? id

/-- `userRepository.findOne({ where: { email } })`. -/
def userByEmail (db : Db) (email : String) : Option User := db.users.rows.find? (·.email == email)

/-- `refreshTokenRepository.findOne({ where: { tokenHash } })`. -/
def tokenByHash (db : Db) (tokenHash : String) : Option RefreshToken :=
  db.refreshTokens.rows.find? (·.tokenHash == tokenHash)

end Db

/-- A column that a patch does not name is `none`. -/
structure UserPatch where
  passwordHash : Option String := none
  status : Option UserStatus := none
  emailVerified : Option Bool := none
  emailVerificationToken : Option (Option String) := none
  emailVerificationExpires : Option (Option Time) := none
  passwordResetToken : Option (Option String) := none
  passwordResetExpires : Option (Option Time) := none
  mfaEnabled : Option Bool := none
  mfaSecret : Option (Option String) := none
  mfaBackupCodes : Option (Option (List String)) := none
  deriving DecidableEq, Repr

def UserPatch.apply (p : UserPatch) (u : User) : User :=
  { u with
    passwordHash := p.passwordHash.getD u.passwordHash
    status := p.status.getD u.status
    emailVerified := p.emailVerified.getD u.emailVerified
    emailVerificationToken := p.emailVerificationToken.getD u.emailVerificationToken
    emailVerificationExpires := p.emailVerificationExpires.getD u.emailVerificationExpires
    passwordResetToken := p.passwordResetToken.getD u.passwordResetToken
    passwordResetExpires := p.passwordResetExpires.getD u.passwordResetExpires
    mfaEnabled := p.mfaEnabled.getD u.mfaEnabled
    mfaSecret := p.mfaSecret.getD u.mfaSecret
    mfaBackupCodes := p.mfaBackupCodes.getD u.mfaBackupCodes }

def User.overwrite (entity reread row : User) : User :=
  { row with
    email := setColumn entity.email reread.email row.email
    passwordHash := setColumn entity.passwordHash reread.passwordHash row.passwordHash
    roles := setColumn entity.roles reread.roles row.roles
    status := setColumn entity.status reread.status row.status
    emailVerified := setColumn entity.emailVerified reread.emailVerified row.emailVerified
    emailVerificationToken := setColumn entity.emailVerificationToken
      reread.emailVerificationToken row.emailVerificationToken
    emailVerificationExpires := setColumn entity.emailVerificationExpires
      reread.emailVerificationExpires row.emailVerificationExpires
    passwordResetToken := setColumn entity.passwordResetToken reread.passwordResetToken
      row.passwordResetToken
    passwordResetExpires := setColumn entity.passwordResetExpires reread.passwordResetExpires
      row.passwordResetExpires
    mfaEnabled := setColumn entity.mfaEnabled reread.mfaEnabled row.mfaEnabled
    mfaSecret := setColumn entity.mfaSecret reread.mfaSecret row.mfaSecret
    mfaBackupCodes := setColumn entity.mfaBackupCodes reread.mfaBackupCodes row.mfaBackupCodes }

theorem User.overwrite_id (entity reread row : User) :
    (overwrite entity reread row).id = row.id := rfl

/-- The columns of a token that a rotation may change. -/
def RefreshToken.overwrite (entity reread row : RefreshToken) : RefreshToken :=
  { row with
    revoked := setColumn entity.revoked reread.revoked row.revoked
    replacedBy := setColumn entity.replacedBy reread.replacedBy row.replacedBy }

def RefreshToken.revoke (t : RefreshToken) : RefreshToken := { t with revoked := true }

/-! ## Writes -/

inductive Write where
  | tick (ms : Nat)
  | insertUser (u : User)
  | updateUser (id : Id) (patch : UserPatch)
  | saveUser (entity reread : User)
  | insertRefreshToken (t : RefreshToken)
  | saveRefreshToken (entity reread : RefreshToken)
  | revokeAllUserTokens (userId : Id)
  | deleteDocument (id : Id)
  | deleteProfile (id : Id)
  | insertAuditLog (a : AuditLog)
  deriving DecidableEq, Repr

inductive Key where
  | row (table : String) (id : Id)
  | userEmail (email : String)
  | tokenHash (tokenHash : String)
  deriving DecidableEq, Repr

def Write.apply (db : Db) : Write → Db
  | tick ms => { db with now := db.now + ms }
  | insertUser u => { db with users := db.users.insert u }
  | updateUser id patch => { db with users := db.users.modify id patch.apply (fun _ => rfl) }
  | saveUser entity reread =>
    { db with users := db.users.modify entity.id (entity.overwrite reread) (fun _ => rfl) }
  | insertRefreshToken t => { db with refreshTokens := db.refreshTokens.insert t }
  | saveRefreshToken entity reread =>
    { db with
      refreshTokens := db.refreshTokens.modify entity.id (entity.overwrite reread)
        (fun _ => rfl) }
  | revokeAllUserTokens userId =>
    { db with
      refreshTokens := db.refreshTokens.modifyWhere (fun t => t.userId = userId ∧ t.revoked = false)
        RefreshToken.revoke (fun _ => rfl) }
  | deleteDocument id => { db with documents := db.documents.delete id }
  | deleteProfile id => { db with profiles := db.profiles.delete id }
  | insertAuditLog a => { db with auditLogs := db.auditLogs ++ [a] }

def Write.keys : Write → List Key
  | insertUser u => [.row "users" u.id, .userEmail u.email]
  | updateUser id _ => [.row "users" id]
  | saveUser entity _ => [.row "users" entity.id, .userEmail entity.email]
  | insertRefreshToken t => [.row "refresh_tokens" t.id, .tokenHash t.tokenHash]
  | saveRefreshToken entity _ => [.row "refresh_tokens" entity.id]
  | deleteDocument id => [.row "documents" id]
  | deleteProfile id => [.row "candidate_profiles" id]
  | tick _ | revokeAllUserTokens _ | insertAuditLog _ => []

def store : Store Db Write Key := ⟨Write.apply, Write.keys⟩

/-- A service method: a program over `Db`. -/
abbrev M (α : Type) := Prog Db Write AuthError α

/-! ## Statements -/

open Prog

def unauthorized {α : Type} (message : String) : M α := throw (.unauthorized message none)

/-- `new Date()`. -/
def now : M Time := select fun db => db.now

def AuditService.log (entry : AuditLog) : M Unit := write fun _ => [.insertAuditLog entry]

/-- An `INSERT` or `UPDATE` that fails with 23505 when `violated` names a constraint. -/
def unlessViolated {α : Type} (violated : Db → Option String) (w : Write) (result : α) : M α :=
  query fun db =>
    match violated db with
    | some constraint => .error (.service (uniqueViolation constraint))
    | none => .ok ([w], result)

namespace UsersService

def findByEmail (email : String) : M (Option User) := select fun db => db.userByEmail email

def findById (id : Id) : M (Option User) := select fun db => db.user? id

def create (u : User) : M User :=
  unlessViolated
    (fun db =>
      if (db.user? u.id).isSome then some "PK_users"
      else if (db.userByEmail u.email).isSome then some "UQ_users_email"
      else none)
    (.insertUser u) u

/-- The row is read again for the result. -/
def update (id : Id) (patch : UserPatch) : M (Option User) := do
  write fun _ => [.updateUser id patch]
  findById id

end UsersService

namespace UserRepository

/-- `manager.find(User, { where })`. -/
def find (p : User → Bool) : M (List User) := select fun db => db.users.rows.filter p

def save (entity : User) : M User := do
  match ← UsersService.findById entity.id with
  | none => throw (.service (.entityNotFound "User"))
  | some reread =>
    if entity.overwrite reread reread = reread then return entity
    else
      unlessViolated
        (fun db =>
          if db.users.rows.any fun u => u.email = entity.email ∧ u.id ≠ entity.id then
            some "UQ_users_email"
          else none)
        (.saveUser entity reread) entity

end UserRepository

namespace RefreshTokenRepository

/-- `findOne({ where: { tokenHash }, relations: { user: true } })`. -/
def findByHash (tokenHash : String) : M (Option (RefreshToken × Option User)) :=
  select fun db => (db.tokenByHash tokenHash).map fun t => (t, db.user? t.userId)

def insert (t : RefreshToken) : M RefreshToken :=
  unlessViolated
    (fun db =>
      if (db.refreshTokens.get? t.id).isSome then some "PK_refresh_tokens"
      else if (db.tokenByHash t.tokenHash).isSome then some "UQ_refresh_tokens_token_hash"
      else none)
    (.insertRefreshToken t) t

def save (entity : RefreshToken) : M RefreshToken := do
  match ← select fun db => db.refreshTokens.get? entity.id with
  | none => throw (.service (.entityNotFound "RefreshToken"))
  | some reread =>
    if entity.overwrite reread reread = reread then return entity
    else
      write fun _ => [.saveRefreshToken entity reread]
      return entity

/-- `update({ userId, revoked: false }, { revoked: true })`. -/
def revokeAll (userId : Id) : M Unit := write fun _ => [.revokeAllUserTokens userId]

end RefreshTokenRepository

end JobBoard.Auth
