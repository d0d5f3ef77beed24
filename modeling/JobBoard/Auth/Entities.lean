import JobBoard.Model.Entities

/-!
# Accounts, sessions and second factors

The rows of the users and refresh_tokens tables, the tokens that the server signs,
and what the authentication services are given from outside. A JWT is its claims
together with the secret that signed them, so that verifying one is comparing
secrets and looking at its expiry.
-/

set_option autoImplicit false

namespace JobBoard.Auth

inductive UserStatus where
  | pendingVerification | active | suspended | deleted
  deriving DecidableEq, Repr

structure User where
  id : Id
  email : String
  passwordHash : String
  roles : List Role
  status : UserStatus
  emailVerified : Bool
  emailVerificationToken : Option String
  emailVerificationExpires : Option Time
  passwordResetToken : Option String
  passwordResetExpires : Option Time
  mfaEnabled : Bool
  mfaSecret : Option String
  mfaBackupCodes : Option (List String)
  consentAt : Option Time
  deriving DecidableEq, Repr

structure RefreshToken where
  id : Id
  tokenHash : String
  userId : Id
  expiresAt : Time
  revoked : Bool
  mfaAuthenticated : Bool
  replacedBy : Option String
  deriving DecidableEq, Repr

/-- The candidate's rows that an erasure removes. -/
structure Document where
  id : Id
  ownerId : Id
  storageKey : String
  deriving DecidableEq, Repr

structure CandidateProfile where
  id : Id
  userId : Id
  deriving DecidableEq, Repr

inductive AuditAction where
  | userRegistered | userLogin | userEmailVerified | userPasswordChanged | userRolesChanged
  | userDeleted
  deriving DecidableEq, Repr

structure AuditLog where
  actorId : Option Id
  action : AuditAction
  entityType : String
  entityId : Id
  metadata : List (String × MetaValue)
  deriving DecidableEq, Repr

/-! ## Signed tokens -/

/-- The claims of the tokens that the server signs; an absent claim is `none`. -/
structure Claims where
  sub : Id
  email : Option String
  roles : Option (List Role)
  mfa : Option Bool
  purpose : Option String
  deriving DecidableEq, Repr

/-- A token signed with `secret`, valid until the second `exp`. -/
structure Jwt where
  secret : String
  claims : Claims
  exp : Int
  deriving DecidableEq, Repr

/-- `jwtService.sign(claims, { secret, expiresIn })`. -/
def Jwt.sign (secret : String) (claims : Claims) (now : Time) (expiresIn : Int) : Jwt :=
  ⟨secret, claims, now / 1000 + expiresIn⟩

/-- `jwtService.verify(token, { secret })`. -/
def Jwt.verify (secret : String) (now : Time) (token : Jwt) : Option Claims :=
  if token.secret = secret ∧ now / 1000 < token.exp then some token.claims else none

theorem Jwt.verify_some {secret : String} {now : Time} {token : Jwt} {c : Claims}
    (h : token.verify secret now = some c) : token.secret = secret ∧ token.claims = c := by
  unfold verify at h
  split at h
  · next hv =>
    cases h
    exact ⟨hv.1, rfl⟩
  · cases h

/-- The payload that JwtStrategy attaches to a request. -/
structure JwtPayload where
  sub : Id
  email : Option String
  roles : Option (List Role)
  mfa : Bool
  deriving DecidableEq, Repr

/-! ## Bodies and results -/

structure RegisterDto where
  email : String
  password : String
  referralCode : Option String
  deriving DecidableEq, Repr

structure LoginDto where
  email : String
  password : String
  deriving DecidableEq, Repr

structure AuthTokens where
  accessToken : Jwt
  refreshToken : String
  deriving DecidableEq, Repr

inductive LoginResult where
  | tokens (t : AuthTokens)
  | challenge (mfaToken : Jwt)
  deriving DecidableEq, Repr

/-- What the services are given from outside: the configuration, the random values
that each call draws, hashing and encryption, and the case mapping of strings. -/
structure Environment where
  jwtAccessSecret : String
  jwtRefreshSecret : String
  /-- `auth.jwtAccessExpiration`, in seconds. -/
  jwtAccessExpiration : Int
  jwtRefreshExpiration : String
  skipEmailVerification : Bool
  randomBytes : Id → Nat → String
  uuidv4 : Id → String
  generateBase32Secret : Id → String
  sha256 : String → String
  /-- `argon2.hash`, with the salt that the call draws. -/
  argon2Hash : Id → Nat → String → String
  /-- `argon2.verify(hash, plain)`, which throws on a malformed hash. -/
  argon2Verify : String → String → Option Bool
  encryptSecret : Id → String → String
  /-- `decryptSecret`, which throws when the payload was tampered with. -/
  decryptSecret : String → Option String
  hmacSha1 : List Nat → List Nat → List Nat
  toLowerCase : String → String

/-! ## Errors -/

inductive AuthError where
  | unauthorized (message : String) (code : Option String)
  | service (e : Error)
  deriving DecidableEq, Repr

/-- The errors a statement may fail with by itself. -/
def isFault : AuthError → Bool
  | .service .unavailable => true
  | .service (.queryFailed code _) => code ≠ POSTGRES_UNIQUE_VIOLATION
  | _ => false

end JobBoard.Auth
