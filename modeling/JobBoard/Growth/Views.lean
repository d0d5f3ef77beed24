import JobBoard.Model.Entities
import JobBoard.Cvtheque.Entities
import JobBoard.Lib.Combinators

/-!
# Profile views and their retention

`ProfileViewService.recordView` with the claim of a notification, and the daily
`DataRetentionService.sweep`. The application and the database read one clock. Which purges of a
sweep fail is given from outside; such a failure is caught, and the sweep goes on. The email of a
notification is best effort and left out.
-/

set_option autoImplicit false

namespace JobBoard.Growth

open Txn Prog
open Cvtheque (Micros toDate ofDate)

/-! ## Rows -/

inductive NotificationType where
  | cooldownExpired | profileViewed | newMessage | savedSearchAlert | interviewProposed
  | interviewUpdated
  deriving DecidableEq, Repr

structure Notification where
  recipientUserId : Id
  type : NotificationType
  title : String
  body : String
  readAt : Option Micros
  createdAt : Micros
  deriving DecidableEq, Repr

structure CandidateProfileView where
  recruiterId : Id
  candidateProfileId : Id
  companyId : Id
  viewedAt : Micros
  deriving DecidableEq, Repr

/-- The last notification of a candidate about views by a recruiter. -/
structure ProfileViewCooldown where
  recruiterId : Id
  candidateProfileId : Id
  lastNotifiedAt : Micros
  deriving DecidableEq, Repr

/-- `UQ_profile_view_cooldowns_recruiter_candidate`. -/
def ProfileViewCooldown.pair (c : ProfileViewCooldown) : Id × Id :=
  (c.recruiterId, c.candidateProfileId)

structure RefreshToken where
  expiresAt : Micros
  revoked : Bool
  createdAt : Micros
  deriving DecidableEq, Repr

structure ProcessedWebhookEvent where
  providerEventId : String
  processedAt : Micros
  deriving DecidableEq, Repr

/-- The settings of `business.config.ts`. -/
structure Config where
  profileViewNotificationCooldownHours : Int
  notificationRetentionDays : Int
  refreshTokenRetentionDays : Int
  profileViewCooldownRetentionDays : Int
  webhookEventRetentionDays : Int
  deriving DecidableEq, Repr

def Config.default : Config := ⟨24, 90, 30, 30, 90⟩

def microsPerHour : Int := 3600000000

def microsPerDay : Int := 24 * microsPerHour

/-- `($3 || ' hours')::interval`. -/
def Config.window (config : Config) : Int :=
  config.profileViewNotificationCooldownHours * microsPerHour

def Config.cooldownRetention (config : Config) : Int :=
  config.profileViewCooldownRetentionDays * microsPerDay

/-! ## The database -/

structure Db where
  clock : Micros
  users : Table fun u : User => u.id
  candidateProfiles : Table fun p : CandidateProfile => p.id
  views : List CandidateProfileView
  cooldowns : Table ProfileViewCooldown.pair
  notifications : List Notification
  refreshTokens : List RefreshToken
  webhookEvents : List ProcessedWebhookEvent

def Db.empty : Db := ⟨0, ∅, ∅, [], ∅, [], [], []⟩

/-- `Date.now()`. -/
def Db.now (db : Db) : Time := toDate db.clock

def Notification.isReadBefore (cutoff : Time) (n : Notification) : Bool :=
  n.readAt.isSome && decide (n.createdAt < ofDate cutoff)

def RefreshToken.isDeadBefore (cutoff now : Time) (t : RefreshToken) : Bool :=
  decide (t.createdAt < ofDate cutoff) && (t.revoked || decide (t.expiresAt < ofDate now))

def ProfileViewCooldown.isBefore (cutoff : Time) (c : ProfileViewCooldown) : Bool :=
  decide (c.lastNotifiedAt < ofDate cutoff)

def ProcessedWebhookEvent.isBefore (cutoff : Time) (e : ProcessedWebhookEvent) : Bool :=
  decide (e.processedAt < ofDate cutoff)

inductive Write where
  | tick (us : Nat)
  | insertView (v : CandidateProfileView)
  /-- The `INSERT`, or the `DO UPDATE` of the row of the pair, at `now()`. -/
  | claimCooldown (recruiterId candidateProfileId : Id) (now : Micros)
  | insertNotification (n : Notification)
  | purgeNotifications (cutoff : Time)
  | purgeRefreshTokens (cutoff now : Time)
  | purgeCooldowns (cutoff : Time)
  | purgeWebhookEvents (cutoff : Time)
  deriving DecidableEq, Repr

def Write.apply (db : Db) : Write → Db
  | tick us => { db with clock := db.clock + us }
  | insertView v => { db with views := db.views ++ [v] }
  | claimCooldown recruiterId candidateProfileId now =>
    { db with
      cooldowns := db.cooldowns.upsert ⟨recruiterId, candidateProfileId, now⟩
        (fun c => { c with lastNotifiedAt := now }) (fun _ => rfl) }
  | insertNotification n => { db with notifications := db.notifications ++ [n] }
  | purgeNotifications cutoff =>
    { db with notifications := db.notifications.filter fun n => !n.isReadBefore cutoff }
  | purgeRefreshTokens cutoff now =>
    { db with refreshTokens := db.refreshTokens.filter fun t => !t.isDeadBefore cutoff now }
  | purgeCooldowns cutoff =>
    { db with cooldowns := db.cooldowns.deleteWhere fun c => c.isBefore cutoff }
  | purgeWebhookEvents cutoff =>
    { db with webhookEvents := db.webhookEvents.filter fun e => !e.isBefore cutoff }

inductive Key where
  | cooldown (pair : Id × Id)
  deriving DecidableEq, Repr

def Write.keys : Write → List Key
  | claimCooldown recruiterId candidateProfileId _ => [.cooldown (recruiterId, candidateProfileId)]
  | _ => []

def store : Store Db Write Key := ⟨Write.apply, Write.keys⟩

/-- A service method: a program over `Db`. -/
abbrev M (α : Type) := Prog Db Write Error α

/-! ## Views -/

namespace GrowthNotificationService

def notifyProfileViewed (recipientUserId : Id) : M Unit :=
  write fun db => [.insertNotification
    { recipientUserId := recipientUserId
      type := .profileViewed
      title := "Un recruteur a consulté votre profil"
      body := "Votre profil a été consulté par un recruteur — restez actif pour augmenter " ++
        "votre visibilité."
      readAt := none
      createdAt := db.clock }]

end GrowthNotificationService

namespace ProfileViewService

/-- The condition under which the statement returns a row. -/
def claimable (config : Config) (db : Db) (pair : Id × Id) : Bool :=
  match db.cooldowns.get? pair with
  | none => true
  | some c => decide (c.lastNotifiedAt < db.clock - config.window)

/-- One statement: it writes and returns the row, or returns none. -/
def claimNotification (config : Config) (recruiterUserId candidateProfileId : Id) : M Bool :=
  query fun db =>
    if claimable config db (recruiterUserId, candidateProfileId) then
      .ok ([.claimCooldown recruiterUserId candidateProfileId db.clock], true)
    else .ok ([], false)

def recordView (config : Config) (recruiterUserId companyId candidateProfileId : Id) :
    M Unit := do
  write fun db => [.insertView ⟨recruiterUserId, candidateProfileId, companyId, db.clock⟩]
  let claimed ← claimNotification config recruiterUserId candidateProfileId
  if ¬ claimed then return ()
  else
    match ← select fun db => db.candidateProfiles.get? candidateProfileId with
    | none => return ()
    | some candidateProfile =>
      match ← select fun db => db.users.get? candidateProfile.userId with
      | none => return ()
      | some candidate => GrowthNotificationService.notifyProfileViewed candidate.id

end ProfileViewService

/-! ## Retention -/

/-- The purges of a sweep, by their label in the log. -/
inductive Purge where
  | readNotifications | deadRefreshTokens | staleCooldowns | processedWebhookEvents
  deriving DecidableEq, Repr

structure RetentionSweepResult where
  deletedNotifications : Nat
  deletedRefreshTokens : Nat
  deletedProfileViewCooldowns : Nat
  deletedWebhookEvents : Nat
  cutoff : Time
  deriving DecidableEq, Repr

namespace DataRetentionService

def cutoffFor (days : Int) : M Time := select fun db => db.now - days * 24 * 60 * 60 * 1000

section

variable (failures : List Purge)

def attempt (label : Purge) (run : M Nat) : M Nat :=
  if label ∈ failures then throw .unavailable else run

/-- `purge(label, run)`: the number of deleted rows, 0 when `run` fails. -/
def purge (label : Purge) (run : M Nat) : M Nat :=
  (attempt failures label run).caught fun _ => ret 0

/-- A `DELETE` with the rows that it affects. -/
def delete (w : Write) (affected : Db → Nat) : M Nat := query fun db => .ok ([w], affected db)

def sweep (config : Config) : M RetentionSweepResult := do
  let notificationCutoff ← cutoffFor config.notificationRetentionDays
  let now ← select Db.now
  let deletedNotifications ← purge failures .readNotifications
    (delete (.purgeNotifications notificationCutoff) fun db =>
      db.notifications.countP (·.isReadBefore notificationCutoff))
  let deletedRefreshTokens ← purge failures .deadRefreshTokens do
    let cutoff ← cutoffFor config.refreshTokenRetentionDays
    delete (.purgeRefreshTokens cutoff now) fun db =>
      db.refreshTokens.countP (·.isDeadBefore cutoff now)
  let deletedProfileViewCooldowns ← purge failures .staleCooldowns do
    let cutoff ← cutoffFor config.profileViewCooldownRetentionDays
    delete (.purgeCooldowns cutoff) fun db => db.cooldowns.rows.countP (·.isBefore cutoff)
  let deletedWebhookEvents ← purge failures .processedWebhookEvents do
    let cutoff ← cutoffFor config.webhookEventRetentionDays
    delete (.purgeWebhookEvents cutoff) fun db => db.webhookEvents.countP (·.isBefore cutoff)
  return {
    deletedNotifications := deletedNotifications
    deletedRefreshTokens := deletedRefreshTokens
    deletedProfileViewCooldowns := deletedProfileViewCooldowns
    deletedWebhookEvents := deletedWebhookEvents
    cutoff := notificationCutoff }

end

end DataRetentionService

/-! ## The system -/

inductive Op where
  | clock (us : Nat)
  | recordView (recruiterUserId companyId candidateProfileId : Id)
  | sweep (failures : List Purge)
  deriving DecidableEq, Repr

def Op.isSweep : Op → Bool
  | sweep _ => true
  | _ => false

inductive Result where
  | unit
  | swept (r : RetentionSweepResult)
  deriving DecidableEq, Repr

/-- The errors a statement or an outside call may fail with by itself. -/
def isFault : Error → Bool
  | .unavailable => true
  | .queryFailed _ _ => true
  | _ => false

def program (config : Config) : Op → M Result
  | .clock us => do
    write fun _ => [.tick us]
    return .unit
  | .recordView recruiterUserId companyId candidateProfileId => do
    ProfileViewService.recordView config recruiterUserId companyId candidateProfileId
    return .unit
  | .sweep failures => do
    return .swept (← DataRetentionService.sweep failures config)

def system (config : Config) : System Db Write Key Error Result Op :=
  ⟨store, fun _ => program config, isFault⟩

abbrev RunState := State Db Write Error Result Op

/-- `n` steps of call `i`. -/
def steps (i n : Nat) : List (Label Error Op) := List.replicate n (.step i)

/-! ## Claims -/

/-- A successful claim of a call, for a pair, at a time. -/
structure Claim where
  call : Nat
  pair : Id × Id
  time : Micros
  deriving DecidableEq, Repr

def Claim.of (call : Nat) : Write → Option Claim
  | .claimCooldown recruiterId candidateProfileId now =>
    some ⟨call, (recruiterId, candidateProfileId), now⟩
  | _ => none

/-- The successful claims, in their order. -/
def claims (L : List (Txn.Group Write)) : List Claim :=
  L.flatMap fun g => g.writes.filterMap (Claim.of g.call)

end JobBoard.Growth
