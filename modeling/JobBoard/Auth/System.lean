import JobBoard.Lib.History
import JobBoard.Auth.Services

/-!
# The system of the accounts

`Op` is a call of the authentication services or an erasure (or the passing of
time), and `system` runs any number of them interleaved, statement by statement. The
number of a call stands for the uuids that its rows get.
-/

set_option autoImplicit false

namespace JobBoard.Auth

open Txn Prog

inductive Op where
  | clock (ms : Nat)
  | register (dto : RegisterDto)
  | verifyEmail (token : String)
  | resendVerification (email : String)
  | requestPasswordReset (email : String)
  | resetPassword (token newPassword : String)
  | login (dto : LoginDto)
  | verifyMfaChallenge (mfaToken : Jwt) (code : String)
  | refreshTokens (refreshTokenValue : String)
  | changePassword (userId : Id) (currentPassword newPassword : String)
  | mfaSetup (userId : Id)
  | mfaEnable (userId : Id) (code : String)
  | mfaDisable (userId : Id) (code : String)
  | deleteData (userId : Id)
  deriving DecidableEq, Repr

inductive Result where
  | unit
  | registered (u : User)
  | login (r : LoginResult)
  | tokens (t : AuthTokens)
  | secret (s : String)
  | backupCodes (codes : List String)
  deriving DecidableEq, Repr

def program (env : Environment) (uuid : Id) : Op → M Result
  | .clock ms => do
    write fun _ => [.tick ms]
    return .unit
  | .register dto => do
    return .registered (← AuthService.register env uuid dto)
  | .verifyEmail token => do
    AuthService.verifyEmail token
    return .unit
  | .resendVerification email => do
    AuthService.resendVerification env uuid email
    return .unit
  | .requestPasswordReset email => do
    AuthService.requestPasswordReset env uuid email
    return .unit
  | .resetPassword token newPassword => do
    AuthService.resetPassword env uuid token newPassword
    return .unit
  | .login dto => do
    return .login (← AuthService.login env uuid dto)
  | .verifyMfaChallenge mfaToken code => do
    return .tokens (← AuthService.verifyMfaChallenge env uuid mfaToken code)
  | .refreshTokens refreshTokenValue => do
    return .tokens (← AuthService.refreshTokens env uuid refreshTokenValue)
  | .changePassword userId currentPassword newPassword => do
    AuthService.changePassword env uuid userId currentPassword newPassword
    return .unit
  | .mfaSetup userId => do
    return .secret (← MfaService.beginSetup env uuid userId)
  | .mfaEnable userId code => do
    return .backupCodes (← MfaService.enable env uuid userId code)
  | .mfaDisable userId code => do
    MfaService.disable env userId code
    return .unit
  | .deleteData userId => do
    CandidateDataService.deleteData env uuid userId
    return .unit

def system (env : Environment) : System Db Write Key AuthError Result Op :=
  ⟨store, program env, isFault⟩

abbrev RunState := State Db Write AuthError Result Op

/-- A step of a run. -/
abbrev Step := Label AuthError Op

/-- A call `i` that runs alone, in `n` steps. -/
def alone (i : Nat) (op : Op) (n : Nat) : List Step :=
  .spawn op :: List.replicate n (.step i)

/-! ## A small database -/

namespace Environment

/-- Values that differ from call to call, and a password that is its own hash. -/
def default : Environment where
  jwtAccessSecret := "access"
  jwtRefreshSecret := "refresh"
  jwtAccessExpiration := 900
  jwtRefreshExpiration := "7d"
  skipEmailVerification := false
  randomBytes := fun uuid k => "r" ++ toString uuid ++ "-" ++ toString k
  uuidv4 := fun uuid => toString uuid
  generateBase32Secret := fun _ => "JBSWY3DPEHPK3PXP"
  sha256 := fun s => s
  argon2Hash := fun _ _ plain => plain
  argon2Verify := fun hash plain => some (hash == plain)
  encryptSecret := fun _ s => s
  decryptSecret := fun s => some s
  hmacSha1 := fun _ _ => []
  toLowerCase := fun s => s

end Environment

/-- A verified user whose password is `pw`. -/
def activeUser (id : Id) (email : String) : User where
  id := id
  email := email
  passwordHash := "pw"
  roles := [.candidate]
  status := .active
  emailVerified := true
  emailVerificationToken := none
  emailVerificationExpires := none
  passwordResetToken := none
  passwordResetExpires := none
  mfaEnabled := false
  mfaSecret := none
  mfaBackupCodes := none
  consentAt := none

/-- One such user, without a session. -/
def oneUser : Db := { Db.empty with users := Table.insert ∅ (activeUser 1 "a@b.c") }

/-- One such user with a second factor and two backup codes. -/
def oneMfaUser : Db :=
  { Db.empty with
    users := Table.insert ∅
      { activeUser 1 "a@b.c" with
        mfaEnabled := true
        mfaSecret := some "JBSWY3DPEHPK3PXP"
        mfaBackupCodes := some ["code-a", "code-b"] } }

end JobBoard.Auth
