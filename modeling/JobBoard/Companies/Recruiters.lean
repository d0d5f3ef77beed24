import JobBoard.Assessments.Attempts
import JobBoard.Auth.Entities
import JobBoard.Lib.Trace
import JobBoard.Model.Statements

/-!
# Recruiters and their invitations

`RecruiterService` adds a user to a company and `RecruiterInvitationService` invites one by
email, who accepts with the token of the mail. Each checks the seat limit of the plan against a
count and inserts the recruiter later. Subscriptions do not change here. Mails are best effort
and left out.
-/

set_option autoImplicit false

namespace JobBoard.Companies

open Txn Prog
open Assessments (trim)
open Auth (UserStatus)

/-! ## Rows -/

structure User extends JobBoard.User where
  email : String
  passwordHash : String
  status : UserStatus
  deriving DecidableEq, Repr

structure Recruiter extends JobBoard.Recruiter where
  position : Option String
  createdAt : Time
  deriving DecidableEq, Repr

inductive RecruiterInvitationStatus where
  | pending | accepted | revoked
  deriving DecidableEq, Repr

structure RecruiterInvitation where
  id : Id
  companyId : Id
  email : String
  tokenHash : String
  position : Option String
  status : RecruiterInvitationStatus
  invitedById : Id
  expiresAt : Time
  acceptedAt : Option Time
  deriving DecidableEq, Repr

/-- The row after the `UPDATE` of a `save`: the services assign two columns. -/
def RecruiterInvitation.overwrite (entity reread row : RecruiterInvitation) :
    RecruiterInvitation :=
  { row with
    status := setColumn entity.status reread.status row.status
    acceptedAt := setColumn entity.acceptedAt reread.acceptedAt row.acceptedAt }

inductive AuditAction where
  | recruiterAdded | recruiterInvited
  deriving DecidableEq, Repr

/-- The metadata is the company, and the user added or the email invited. -/
structure AuditLog where
  actorId : Id
  action : AuditAction
  entityType : String
  entityId : Id
  companyId : Id
  target : Id ⊕ String
  deriving DecidableEq, Repr

/-! ## The database -/

structure Db where
  now : Time
  users : Table fun u : User => u.id
  recruiters : Table fun r : Recruiter => r.id
  invitations : Table RecruiterInvitation.id
  subscriptions : Table Subscription.id
  auditLogs : List AuditLog

def Db.empty : Db := ⟨0, ∅, ∅, ∅, ∅, []⟩

inductive Write where
  | tick (ms : Nat)
  | insertUser (u : User)
  | setRoles (userId : Id) (roles : List Role)
  /-- `emailVerified` and the status ACTIVE. -/
  | verifyUser (userId : Id)
  | insertRecruiter (r : Recruiter)
  | insertInvitation (v : RecruiterInvitation)
  /-- The pending invitations of the email. -/
  | revokeInvitations (companyId : Id) (email : String)
  | saveInvitation (entity reread : RecruiterInvitation)
  | insertAudit (a : AuditLog)
  /-- The count of the recruiters of a company; it changes no row. -/
  | countSeats (companyId : Id) (seats : Nat)
  deriving DecidableEq, Repr

inductive Key where
  | user (id : Id)
  | email (email : String)
  | recruiter (id : Id)
  | recruiterUser (userId : Id)
  | invitation (id : Id)
  deriving DecidableEq, Repr

def Write.apply (db : Db) : Write → Db
  | tick ms => { db with now := db.now + ms }
  | insertUser u => { db with users := db.users.insert u }
  | setRoles userId roles =>
    { db with users := db.users.modify userId (fun u => { u with roles := roles }) fun _ => rfl }
  | verifyUser userId =>
    { db with
      users := db.users.modify userId
        (fun u => { u with emailVerified := true, status := .active }) fun _ => rfl }
  | insertRecruiter r => { db with recruiters := db.recruiters.insert r }
  | insertInvitation v => { db with invitations := db.invitations.insert v }
  | revokeInvitations companyId email =>
    { db with
      invitations := db.invitations.modifyWhere
        (fun v => v.companyId = companyId && v.email = email && v.status = .pending)
        (fun v => { v with status := .revoked }) fun _ => rfl }
  | saveInvitation entity reread =>
    { db with
      invitations := db.invitations.modify entity.id (entity.overwrite reread) fun _ => rfl }
  | insertAudit a => { db with auditLogs := db.auditLogs ++ [a] }
  | countSeats _ _ => db

def Write.keys : Write → List Key
  | insertUser u => [.user u.id, .email u.email]
  | setRoles userId _ => [.user userId]
  | verifyUser userId => [.user userId]
  | insertRecruiter r => [.recruiter r.id, .recruiterUser r.userId]
  | insertInvitation v => [.invitation v.id]
  | saveInvitation entity _ => [.invitation entity.id]
  | _ => []

def store : Store Db Write Key := ⟨Write.apply, Write.keys⟩

/-- A service method: a program over `Db`. -/
abbrev M (α : Type) := Prog Db Write Error α

/-- The configuration, the values that a call draws, hashing, and the case mapping. -/
structure Environment where
  /-- `business.plans.<plan>.users`. -/
  users : SubscriptionPlan → Option Int
  randomBytes : Id → String
  sha256 : String → String
  argon2Hash : Id → String → String
  toLowerCase : String → String

/-! ## Users -/

namespace UsersService

def findByEmail (email : String) : M (Option User) :=
  select fun db => db.users.rows.find? (·.email = email)

def findById (userId : Id) : M (Option User) := select fun db => db.users.get? userId

def userViolation (db : Db) (u : User) : Option String :=
  if (db.users.get? u.id).isSome then some "PK_a3ffb1c0c8416b9fc6f907b7433"
  else if (db.users.rows.any (·.email = u.email)) then some "UQ_97672ac88f789774dd47f7c8be3"
  else none

def create (u : User) : M User :=
  query fun db => match userViolation db u with
    | some constraint => .error (uniqueViolation constraint)
    | none => .ok ([.insertUser u], u)

def updateRoles (userId : Id) (roles : List Role) : M (Option User) := do
  write fun _ => [.setRoles userId roles]
  findById userId

def verify (userId : Id) : M (Option User) := do
  write fun _ => [.verifyUser userId]
  findById userId

end UsersService

/-! ## Seats -/

/-- `count({ where: { companyId } })`. -/
def Db.seats (db : Db) (companyId : Id) : Nat :=
  db.recruiters.rows.countP (·.companyId = companyId)

def Db.recruiterOf (db : Db) (userId : Id) : Option Recruiter :=
  db.recruiters.rows.find? (·.userId = userId)

namespace SubscriptionGuardService

def resolveCompanyId (userId : Id) : M Id := do
  match ← select fun db => db.recruiterOf userId with
  | none => throw (.notFound "No company associated with this account")
  | some recruiter => return recruiter.companyId

def MAX_SAFE_INTEGER : Int := 9007199254740991

def resolveUserLimitForPlan (env : Environment) (plan : SubscriptionPlan) : Except Error Int :=
  if plan = .enterprise then .ok MAX_SAFE_INTEGER
  else match env.users plan with
    | none => .error (.internalServerError
        ("No user/seat limit configured for plan " ++ plan.toString))
    | some users => .ok users

/-- The limit of the newest subscription of the company. -/
def seatLimit (env : Environment) (db : Db) (companyId : Id) : Except Error Int :=
  let subscription := newest (db.subscriptions.rows.filter (·.companyId = companyId))
  resolveUserLimitForPlan env ((subscription.map (·.plan)).getD .starter)

def getSeatLimit (env : Environment) (companyId : Id) : M Int :=
  query fun db => (seatLimit env db companyId).map fun limit => ([], limit)

end SubscriptionGuardService

open SubscriptionGuardService (resolveCompanyId getSeatLimit)

def countSeats (companyId : Id) : M Nat :=
  query fun db => .ok ([.countSeats companyId (db.seats companyId)], db.seats companyId)

def seatsTaken (limit : Int) : Error :=
  .forbidden ("Votre abonnement est limité à " ++ toString limit ++
    " recruteur(s). Passez à un pack supérieur pour en ajouter davantage.")

/-- The `INSERT` of a recruiter. A user is a recruiter once. -/
def insertRecruiter (recruiter : Time → Recruiter) : M Recruiter :=
  query fun db =>
    if (db.recruiters.get? (recruiter db.now).id).isSome then
      .error (uniqueViolation "PK_1999e5a8e68fa6c525eed22c970")
    else if (db.recruiterOf (recruiter db.now).userId).isSome then
      .error (uniqueViolation "UQ_0c851bd72ee5568e8793794624b")
    else .ok ([.insertRecruiter (recruiter db.now)], recruiter db.now)

def grantRecruiter (user : User) : M Unit :=
  if Role.recruiter ∈ user.roles then ret ()
  else do
    let _ ← UsersService.updateRoles user.id (user.roles ++ [.recruiter])
    return ()

def auditAdded (actorId : Id) (recruiter : Recruiter) : M Unit :=
  write fun _ => [.insertAudit ⟨actorId, .recruiterAdded, "recruiter", recruiter.id,
    recruiter.companyId, .inl recruiter.userId⟩]

structure AddRecruiterDto where
  email : String
  position : Option String
  deriving DecidableEq, Repr

namespace RecruiterService

def addRecruiter (env : Environment) (uuid callerId : Id) (dto : AddRecruiterDto) :
    M Recruiter := do
  let companyId ← resolveCompanyId callerId
  let seatLimit ← getSeatLimit env companyId
  let currentSeats ← countSeats companyId
  if (currentSeats : Int) ≥ seatLimit then throw (seatsTaken seatLimit)
  else
    match ← UsersService.findByEmail (env.toLowerCase dto.email) with
    | none => throw (.notFound "No user found with this email")
    | some targetUser =>
      if ¬ targetUser.emailVerified then
        throw (.forbidden
          "The target user must have a verified email before joining a company")
      else
        match ← select fun db => db.recruiterOf targetUser.id with
        | some _ => throw (.conflict "This user is already attached to a company")
        | none =>
          let recruiter ← insertRecruiter fun now =>
            ⟨⟨uuid, targetUser.id, companyId⟩, dto.position, now⟩
          grantRecruiter targetUser
          auditAdded callerId recruiter
          return recruiter

end RecruiterService

/-! ## Invitations -/

/-- What `invite` answers. -/
inductive InviteStatus where
  | attached | invited
  deriving DecidableEq, Repr

namespace RecruiterInvitationService

def INVITE_TTL_DAYS : Int := 7

def isLive (now : Time) (v : RecruiterInvitation) : Bool :=
  v.status = .pending && now < v.expiresAt

def pendingInvitations (db : Db) (companyId : Id) : Nat :=
  db.invitations.rows.countP fun v => v.companyId = companyId && isLive db.now v

/-- Recruiters and pending invitations. -/
def usedSeats (companyId : Id) : M Nat := do
  let recruiters ← countSeats companyId
  let pending ← select fun db => pendingInvitations db companyId
  return recruiters + pending

def attach (uuid userId companyId : Id) (position : Option String) (actorId : Id) : M Unit := do
  let recruiter ← insertRecruiter fun now => ⟨⟨uuid, userId, companyId⟩, position, now⟩
  match ← UsersService.findById userId with
  | none => ret ()
  | some user => grantRecruiter user
  auditAdded actorId recruiter

def insertInvitation (invitation : Time → RecruiterInvitation) : M RecruiterInvitation :=
  query fun db =>
    if (db.invitations.get? (invitation db.now).id).isSome then
      .error (uniqueViolation "PK_recruiter_invitations")
    else .ok ([.insertInvitation (invitation db.now)], invitation db.now)

/-- The part of `invite` for an email without a verified account. -/
def inviteByMail (env : Environment) (uuid callerId companyId : Id) (email : String)
    (position : Option String) : M InviteStatus := do
  write fun _ => [.revokeInvitations companyId email]
  let invitation ← insertInvitation fun now =>
    { id := uuid
      companyId := companyId
      email := email
      tokenHash := env.sha256 (env.randomBytes uuid)
      position := position
      status := .pending
      invitedById := callerId
      expiresAt := addDays now INVITE_TTL_DAYS
      acceptedAt := none }
  write fun _ => [.insertAudit ⟨callerId, .recruiterInvited, "recruiter_invitation",
    invitation.id, companyId, .inr email⟩]
  return .invited

def invite (env : Environment) (uuid callerId : Id) (dto : AddRecruiterDto) :
    M InviteStatus := do
  let companyId ← resolveCompanyId callerId
  let email := env.toLowerCase (trim dto.email)
  let seatLimit ← getSeatLimit env companyId
  let used ← usedSeats companyId
  if (used : Int) ≥ seatLimit then throw (seatsTaken seatLimit)
  else
    match ← UsersService.findByEmail email with
    | none => inviteByMail env uuid callerId companyId email dto.position
    | some targetUser =>
      match ← select fun db => db.recruiterOf targetUser.id with
      | some _ => throw (.conflict "Cet utilisateur est déjà rattaché à une entreprise.")
      | none =>
        if targetUser.emailVerified then
          attach uuid targetUser.id companyId dto.position callerId
          return .attached
        else inviteByMail env uuid callerId companyId email dto.position

/-- `save(entity)` of an invitation that was loaded. No operation deletes an invitation. -/
def save (entity : RecruiterInvitation) : M RecruiterInvitation := do
  match ← select fun db => db.invitations.get? entity.id with
  | none => throw (.entityNotFound "RecruiterInvitation")
  | some reread =>
    if entity.overwrite reread reread = reread then return entity
    else
      write fun _ => [.saveInvitation entity reread]
      return entity

def revoke (callerId invitationId : Id) : M Unit := do
  let companyId ← resolveCompanyId callerId
  match ← select fun db =>
      (db.invitations.get? invitationId).filter (·.companyId = companyId) with
  | none => throw (.badRequest "Invitation introuvable.")
  | some invitation =>
    let _ ← save { invitation with status := .revoked }
    return ()

def findPendingByToken (env : Environment) (rawToken : String) :
    M (Option RecruiterInvitation) :=
  if rawToken = "" then ret none
  else select fun db => db.invitations.rows.find? fun v =>
    v.tokenHash = env.sha256 rawToken && isLive db.now v

/-- The account of the invited email, which gets verified. -/
def acceptUser (env : Environment) (uuid : Id) (email password : String) : M User := do
  match ← UsersService.findByEmail email with
  | some user =>
    match ← select fun db => db.recruiterOf user.id with
    | some _ => throw (.conflict "Cet utilisateur est déjà rattaché à une entreprise.")
    | none =>
      if user.emailVerified then return user
      else
        let _ ← UsersService.verify user.id
        return user
  | none =>
    UsersService.create
      { id := uuid
        email := email
        passwordHash := env.argon2Hash uuid password
        roles := [.recruiter]
        status := .active
        emailVerified := true }

def accept (env : Environment) (uuid : Id) (rawToken password : String) : M String := do
  match ← findPendingByToken env rawToken with
  | none => throw (.badRequest "Invitation invalide ou expirée.")
  | some invitation =>
    let seatLimit ← getSeatLimit env invitation.companyId
    let seatsNow ← countSeats invitation.companyId
    if (seatsNow : Int) ≥ seatLimit then
      throw (.forbidden "L'entreprise a atteint sa limite de recruteurs.")
    else
      let user ← acceptUser env uuid invitation.email password
      attach uuid user.id invitation.companyId invitation.position invitation.invitedById
      let now ← select Db.now
      let _ ← save { invitation with status := .accepted, acceptedAt := some now }
      return "Compte recruteur activé. Vous pouvez vous connecter."

end RecruiterInvitationService

/-! ## The system -/

inductive Op where
  | clock (ms : Nat)
  | addRecruiter (callerId : Id) (dto : AddRecruiterDto)
  | invite (callerId : Id) (dto : AddRecruiterDto)
  | accept (rawToken password : String)
  | revoke (callerId invitationId : Id)
  deriving DecidableEq, Repr

inductive Result where
  | unit
  | recruiter (r : Recruiter)
  | invite (status : InviteStatus)
  | message (text : String)
  deriving DecidableEq, Repr

/-- The errors a statement or an outside call may fail with by itself. -/
def isFault : Error → Bool
  | .unavailable => true
  | .queryFailed _ _ => true
  | _ => false

def program (env : Environment) (uuid : Id) : Op → M Result
  | .clock ms => do
    write fun _ => [.tick ms]
    return .unit
  | .addRecruiter callerId dto => do
    return .recruiter (← RecruiterService.addRecruiter env uuid callerId dto)
  | .invite callerId dto => do
    return .invite (← RecruiterInvitationService.invite env uuid callerId dto)
  | .accept rawToken password => do
    return .message (← RecruiterInvitationService.accept env uuid rawToken password)
  | .revoke callerId invitationId => do
    RecruiterInvitationService.revoke callerId invitationId
    return .unit

def system (env : Environment) : System Db Write Key Error Result Op :=
  ⟨store, program env, isFault⟩

abbrev RunState := State Db Write Error Result Op

abbrev Log := List (Txn.Group Write)

/-- The committed database at a moment of the run. -/
abbrev Db.at (d₀ : Db) (L : Log) : Db := replay store d₀ L

/-- `n` steps of call `i`. -/
def steps (i n : Nat) : List (Label Error Op) := List.replicate n (.step i)

end JobBoard.Companies
