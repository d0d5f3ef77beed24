import JobBoard.Auth.Database

/-!
# Authentication

`mfa.service.ts`, `auth.service.ts`, `jwt.strategy.ts` and the erasure of
`candidate-data.service.ts`. E-mails, analytics and the bookkeeping of referrals are
best effort and left out; so are the objects in storage.
-/

set_option autoImplicit false

namespace JobBoard.Auth

open Txn Prog

/-! ## MfaService -/

namespace MfaService

def BACKUP_CODE_COUNT : Nat := 10

structure VerifyCodeResult where
  valid : Bool
  consumedBackupCodes : Option (List String)
  deriving DecidableEq, Repr

/-- A numeric input of six digits is a TOTP. -/
def isTotp (normalized : String) : Bool :=
  normalized.toList.all isDigit && normalized.length == 6

/-- The loop over the stored hashes, from the index `i`: the index of the first that
the code verifies against. -/
def matchBackupCode (env : Environment) (normalized : String) : List String → Nat →
    Except AuthError (Option Nat)
  | [], _ => .ok none
  | hash :: rest, i =>
    match env.argon2Verify hash normalized with
    | none => .error (.service (.internalServerError "pchstr must contain a $ as first char"))
    | some true => .ok (some i)
    | some false => matchBackupCode env normalized rest (i + 1)

def verifyCode (env : Environment) (user : User) (code : String) (now : Time) :
    Except AuthError VerifyCodeResult :=
  match user.mfaSecret with
  | none => .ok ⟨false, none⟩
  | some mfaSecret =>
    let normalized := removeSpaces code
    if isTotp normalized then
      match env.decryptSecret mfaSecret with
      | none => .error (.service (.internalServerError "Malformed encrypted secret"))
      | some secret =>
        match verifyTotp env.hmacSha1 secret normalized now with
        | none => .error (.service
            (.internalServerError "Invalid base32 character in TOTP secret"))
        | some valid => .ok ⟨valid, none⟩
    else do
      let remaining := user.mfaBackupCodes.getD []
      match ← matchBackupCode env normalized remaining 0 with
      | some i => return ⟨true, some (remaining.eraseIdx i)⟩
      | none => return ⟨false, none⟩

def getUser (userId : Id) : M User := do
  match ← UsersService.findById userId with
  | none => throw (.service (.notFound "User not found"))
  | some user => return user

def beginSetup (env : Environment) (uuid userId : Id) : M String := do
  let user ← getUser userId
  if user.mfaEnabled then throw (.service (.conflict "MFA is already enabled"))
  else
    let secret := env.generateBase32Secret uuid
    let _ ← UsersService.update userId { mfaSecret := some (some (env.encryptSecret uuid secret)) }
    return secret

/-- The codes and their hashes. -/
def generateBackupCodes (env : Environment) (uuid : Id) : List String × List String :=
  let plain := (List.range BACKUP_CODE_COUNT).map (env.randomBytes uuid)
  (plain, plain.mapIdx fun k c => env.argon2Hash uuid k c)

def enable (env : Environment) (uuid userId : Id) (code : String) : M (List String) := do
  let user ← getUser userId
  if user.mfaEnabled then throw (.service (.conflict "MFA is already enabled"))
  else
    match user.mfaSecret with
    | none => throw (.service (.badRequest "Start MFA setup before enabling it"))
    | some mfaSecret =>
      match env.decryptSecret mfaSecret with
      | none => throw (.service (.internalServerError "Malformed encrypted secret"))
      | some secret =>
        let now ← now
        match verifyTotp env.hmacSha1 secret code now with
        | none =>
          throw (.service (.internalServerError "Invalid base32 character in TOTP secret"))
        | some false => unauthorized "Invalid verification code"
        | some true =>
          let codes := generateBackupCodes env uuid
          let _ ← UsersService.update userId
            { mfaEnabled := some true, mfaBackupCodes := some (some codes.2) }
          AuditService.log
            ⟨some userId, .userRolesChanged, "user", userId, [("mfa", .str "enabled")]⟩
          return codes.1

def disable (env : Environment) (userId : Id) (code : String) : M Unit := do
  let user ← getUser userId
  if !user.mfaEnabled then throw (.service (.badRequest "MFA is not enabled"))
  else
    let now ← now
    let ok ← ofExcept (verifyCode env user code now)
    if !ok.valid then unauthorized "Invalid verification code"
    else
      let _ ← UsersService.update userId
        { mfaEnabled := some false, mfaSecret := some none, mfaBackupCodes := some none }
      AuditService.log
        ⟨some userId, .userRolesChanged, "user", userId, [("mfa", .str "disabled")]⟩

/-- The step-up check of a login, on the user as the caller has read it. -/
def verifyForLogin (env : Environment) (user : User) (code : String) : M Bool := do
  if !user.mfaEnabled || user.mfaSecret.isNone then return false
  else
    let now ← now
    let result ← ofExcept (verifyCode env user code now)
    match result.valid, result.consumedBackupCodes with
    | true, some codes =>
      let _ ← UsersService.update user.id { mfaBackupCodes := some (some codes) }
      return true
    | valid, _ => return valid

end MfaService

/-! ## AuthService -/

namespace AuthService

def MFA_CHALLENGE_PURPOSE : String := "mfa_challenge"

/-- `5m`, in seconds. -/
def MFA_CHALLENGE_EXPIRATION : Int := 300

def msPerHour : Int := 3600000

def hashToken (env : Environment) (token : String) : String := env.sha256 token

def register (env : Environment) (uuid : Id) (dto : RegisterDto) : M User := do
  match ← UsersService.findByEmail (env.toLowerCase dto.email) with
  | some _ => throw (.service (.conflict "Email already in use"))
  | none =>
    let now ← now
    let verified := env.skipEmailVerification
    let user ← UsersService.create
      { id := uuid
        email := env.toLowerCase dto.email
        passwordHash := env.argon2Hash uuid 0 dto.password
        roles := [.candidate]
        status := if verified then .active else .pendingVerification
        emailVerified := verified
        emailVerificationToken := if verified then none else some (env.uuidv4 uuid)
        emailVerificationExpires := if verified then none else some (now + 24 * msPerHour)
        passwordResetToken := none
        passwordResetExpires := none
        mfaEnabled := false
        mfaSecret := none
        mfaBackupCodes := none
        consentAt := some now }
    AuditService.log ⟨some user.id, .userRegistered, "user", user.id, []⟩
    return user

def findUserByVerificationToken (token : String) : M (Option User) := do
  let users ← UserRepository.find (·.emailVerificationToken == some token)
  match users.head? with
  | none => return none
  | some user =>
    let now ← now
    match user.emailVerificationExpires with
    | none => return none
    | some expires => return if expires < now then none else some user

def verifyEmail (token : String) : M Unit := do
  match ← findUserByVerificationToken token with
  | none => throw (.service (.badRequest "Invalid or expired verification token"))
  | some user =>
    let _ ← UsersService.update user.id
      { emailVerified := some true, status := some .active, emailVerificationToken := some none,
        emailVerificationExpires := some none }
    AuditService.log ⟨some user.id, .userEmailVerified, "user", user.id, []⟩

/-- The message to the caller is the same in every case. -/
def resendVerification (env : Environment) (uuid : Id) (email : String) : M Unit := do
  match ← UsersService.findByEmail (env.toLowerCase email) with
  | none => return ()
  | some user =>
    if user.emailVerified || user.status ≠ .pendingVerification then return ()
    else
      let now ← now
      let _ ← UsersService.update user.id
        { emailVerificationToken := some (some (env.uuidv4 uuid)),
          emailVerificationExpires := some (some (now + 24 * msPerHour)) }
      return ()

def requestPasswordReset (env : Environment) (uuid : Id) (email : String) : M Unit := do
  match ← UsersService.findByEmail (env.toLowerCase email) with
  | none => return ()
  | some user =>
    if user.status ≠ .active || !user.emailVerified then return ()
    else
      let rawToken := env.randomBytes uuid 0
      let now ← now
      let _ ← UsersService.update user.id
        { passwordResetToken := some (some (hashToken env rawToken)),
          passwordResetExpires := some (some (now + msPerHour)) }
      return ()

def findUserByResetToken (env : Environment) (token : String) : M (Option User) := do
  let users ← UserRepository.find (·.passwordResetToken == some (hashToken env token))
  match users.head? with
  | none => return none
  | some user =>
    let now ← now
    match user.passwordResetExpires with
    | none => return none
    | some expires => return if expires < now then none else some user

def resetPassword (env : Environment) (uuid : Id) (token newPassword : String) : M Unit := do
  match ← findUserByResetToken env token with
  | none => throw (.service (.badRequest "Invalid or expired reset token"))
  | some user =>
    let passwordHash := env.argon2Hash uuid 0 newPassword
    let _ ← UsersService.update user.id
      { passwordHash := some passwordHash, passwordResetToken := some none,
        passwordResetExpires := some none }
    RefreshTokenRepository.revokeAll user.id
    AuditService.log
      ⟨some user.id, .userPasswordChanged, "user", user.id, [("via", .str "password_reset")]⟩

/-- `argon2.verify`. -/
def checkPassword (env : Environment) (passwordHash password : String) : M Bool :=
  match env.argon2Verify passwordHash password with
  | none => throw (.service (.internalServerError "pchstr must contain a $ as first char"))
  | some valid => return valid

/-- What a session's access token says of its user. -/
def accessClaims (user : User) (mfaAuthenticated : Bool) : Claims :=
  ⟨user.id, some user.email, some user.roles, some mfaAuthenticated, none⟩

/-- The row of the refresh token that call `uuid` issues at `now`. -/
def newRefreshToken (env : Environment) (uuid : Id) (user : User) (mfaAuthenticated : Bool)
    (now : Time) : RefreshToken where
  id := uuid
  tokenHash := hashToken env (env.randomBytes uuid 0)
  userId := user.id
  expiresAt := now + (parseInt env.jwtRefreshExpiration).getD 7 * msPerDay
  revoked := false
  mfaAuthenticated := mfaAuthenticated
  replacedBy := none

def generateTokens (env : Environment) (uuid : Id) (user : User) (mfaAuthenticated : Bool) :
    M AuthTokens := do
  let now ← now
  let accessToken := Jwt.sign env.jwtAccessSecret (accessClaims user mfaAuthenticated) now
    env.jwtAccessExpiration
  let _ ← RefreshTokenRepository.insert (newRefreshToken env uuid user mfaAuthenticated now)
  return ⟨accessToken, env.randomBytes uuid 0⟩

/-- Signed with the refresh secret, so that it is no bearer token. -/
def issueMfaChallengeToken (env : Environment) (userId : Id) (now : Time) : Jwt :=
  Jwt.sign env.jwtRefreshSecret ⟨userId, none, none, none, some MFA_CHALLENGE_PURPOSE⟩ now
    MFA_CHALLENGE_EXPIRATION

def login (env : Environment) (uuid : Id) (dto : LoginDto) : M LoginResult := do
  match ← UsersService.findByEmail (env.toLowerCase dto.email) with
  | none => unauthorized "Invalid credentials"
  | some user =>
    if !(← checkPassword env user.passwordHash dto.password) then
      unauthorized "Invalid credentials"
    else if !user.emailVerified then
      throw (.unauthorized "Email not verified" (some "EMAIL_NOT_VERIFIED"))
    else if user.status ≠ .active then unauthorized "Account is not active"
    else if user.mfaEnabled then
      let now ← now
      return .challenge (issueMfaChallengeToken env user.id now)
    else
      let tokens ← generateTokens env uuid user false
      AuditService.log ⟨some user.id, .userLogin, "user", user.id, []⟩
      return .tokens tokens

def verifyMfaChallenge (env : Environment) (uuid : Id) (mfaToken : Jwt) (code : String) :
    M AuthTokens := do
  let now ← now
  match mfaToken.verify env.jwtRefreshSecret now with
  | none => unauthorized "Invalid or expired MFA challenge"
  | some payload =>
    if payload.purpose ≠ some MFA_CHALLENGE_PURPOSE then
      unauthorized "Invalid or expired MFA challenge"
    else
      match ← UsersService.findById payload.sub with
      | none => unauthorized "Invalid or expired MFA challenge"
      | some user =>
        if !user.mfaEnabled then unauthorized "Invalid or expired MFA challenge"
        else
          let valid ← MfaService.verifyForLogin env user code
          if !valid then unauthorized "Invalid verification code"
          else
            let tokens ← generateTokens env uuid user true
            AuditService.log ⟨some user.id, .userLogin, "user", user.id, [("mfa", .bool true)]⟩
            return tokens

def REUSE_DETECTED : String := "Refresh token reuse detected. All sessions revoked."

def refreshTokens (env : Environment) (uuid : Id) (refreshTokenValue : String) :
    M AuthTokens := do
  let tokenHash := hashToken env refreshTokenValue
  match ← RefreshTokenRepository.findByHash tokenHash with
  | none => unauthorized "Invalid refresh token"
  | some (storedToken, user) =>
    if storedToken.revoked then
      RefreshTokenRepository.revokeAll storedToken.userId
      unauthorized REUSE_DETECTED
    else
      let now ← now
      if storedToken.expiresAt < now then unauthorized "Refresh token expired"
      else
        match user with
        | none => throw (.service
            (.internalServerError "Cannot read properties of null (reading 'id')"))
        | some user =>
          let newTokens ← generateTokens env uuid user storedToken.mfaAuthenticated
          let _ ← RefreshTokenRepository.save
            { storedToken with
              revoked := true
              replacedBy := some (hashToken env newTokens.refreshToken) }
          return newTokens

def changePassword (env : Environment) (uuid userId : Id) (currentPassword newPassword : String) :
    M Unit := do
  match ← UsersService.findById userId with
  | none => unauthorized "Current password is incorrect"
  | some user =>
    if !(← checkPassword env user.passwordHash currentPassword) then
      unauthorized "Current password is incorrect"
    else
      let _ ← UsersService.update user.id
        { passwordHash := some (env.argon2Hash uuid 0 newPassword) }
      AuditService.log
        ⟨some user.id, .userPasswordChanged, "user", user.id, [("via", .str "self_service")]⟩

end AuthService

/-! ## JwtStrategy -/

namespace JwtStrategy

def validate (payload : Claims) : JwtPayload :=
  ⟨payload.sub, payload.email, payload.roles, payload.mfa == some true⟩

/-- The user of a request that carries the bearer token. -/
def authenticate (env : Environment) (now : Time) (bearer : Jwt) : Option JwtPayload :=
  (bearer.verify env.jwtAccessSecret now).map validate

end JwtStrategy

/-! ## CandidateDataService -/

namespace CandidateDataService

def deleteData (env : Environment) (uuid userId : Id) : M Unit := do
  match ← UsersService.findById userId with
  | none => throw (.service (.notFound "Not Found"))
  | some user =>
    let documents ← select fun db => db.documents.rows.filter (·.ownerId == userId)
    if documents ≠ [] then write fun _ => documents.map fun d => .deleteDocument d.id
    match ← select fun db => db.profiles.rows.find? (·.userId == userId) with
    | none => pure ()
    | some profile => write fun _ => [.deleteProfile profile.id]
    let _ ← UserRepository.save
      { user with
        email := "deleted_" ++ env.uuidv4 uuid ++ "@anonymized.local"
        passwordHash := ""
        status := .deleted
        emailVerified := false
        emailVerificationToken := none
        emailVerificationExpires := none }
    AuditService.log ⟨some userId, .userDeleted, "User", userId, []⟩

end CandidateDataService

end JobBoard.Auth
