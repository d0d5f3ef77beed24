import JobBoard.Lib.Combinators
import JobBoard.Assessments.Effects

/-!
# The sweep of the cooldowns

`RemediationNotificationService.runCooldownSweep` looks for the completed attempts whose
cooldown is over, claims each with one conditional `UPDATE` and notifies its candidate. The
calls on attempts run on the same database here. A notification carries the attempt that the
sweep has loaded.
-/

set_option autoImplicit false

namespace JobBoard.Assessments.Remediation

open Txn Prog

/-! ## The database -/

inductive NotificationType where
  | cooldownExpired
  deriving DecidableEq, Repr

structure Notification where
  recipientUserId : Id
  type : NotificationType
  title : String
  body : String
  deriving DecidableEq, Repr

structure Db where
  base : Assessments.Db
  users : List Id
  notifications : List Notification

inductive Write where
  | base (w : Assessments.Write)
  /-- `UPDATE ... SET cooldown_notified_at = now()`. -/
  | claimCooldown (assessmentId : Id)
  | insertNotification (n : Notification) (assessment : Assessment)
  deriving DecidableEq, Repr

def Assessment.claimed (time : Time) (a : Assessment) : Assessment :=
  { a with cooldownNotifiedAt := some time }

def Write.apply (db : Db) : Write → Db
  | base w => { db with base := Assessments.store.apply db.base w }
  | claimCooldown id =>
    { db with
      base := { db.base with
        assessments := db.base.assessments.modify id (Assessment.claimed db.base.now)
          (fun _ => rfl) } }
  | insertNotification n _ => { db with notifications := db.notifications ++ [n] }

def Write.keys : Write → List Key
  | base w => Assessments.store.keys w
  | claimCooldown id => [.row "assessments" id]
  | insertNotification _ _ => []

def store : Store Db Write Key := ⟨Write.apply, Write.keys⟩

/-- A service method: a program over `Db`. -/
abbrev M (α : Type) := Prog Db Write Error α

/-! ## The services -/

namespace GrowthNotificationService

/-- The mail that follows is best-effort. -/
def notifyCooldownExpired (recipientUserId : Id) (assessment : Assessment) : M Unit :=
  write fun _ => [.insertNotification
    { recipientUserId := recipientUserId
      type := .cooldownExpired
      title := "Vous pouvez repasser votre test"
      body := "Le délai de 90 jours est écoulé — vous pouvez retenter ce test dès maintenant." }
    assessment]

end GrowthNotificationService

namespace RemediationNotificationService

/-- `WHERE id = :id AND cooldown_notified_at IS NULL`: whether the row was affected. -/
def claimCooldownNotification (assessmentId : Id) : M Bool :=
  query fun db =>
    match db.base.assessment? assessmentId with
    | none => .ok ([], false)
    | some a =>
      if a.cooldownNotifiedAt = none then .ok ([.claimCooldown assessmentId], true)
      else .ok ([], false)

/-- Completed, the cooldown over at the cutoff, and not claimed. -/
def isDue (cutoff : Time) (a : Assessment) : Bool :=
  a.status = .completed && (a.completedAt.any fun completedAt => completedAt ≤ cutoff) &&
    a.cooldownNotifiedAt = none

/-- The candidates in turn; `notifiedCount` have been notified before. -/
def notifyEach (notifiedCount : Nat) : List Assessment → M Nat
  | [] => return notifiedCount
  | assessment :: candidates => do
    let claimed ← claimCooldownNotification assessment.id
    if ¬ claimed then notifyEach notifiedCount candidates
    else
      match ← select fun db => db.users.find? (· = assessment.candidateId) with
      | none => notifyEach notifiedCount candidates
      | some candidate =>
        GrowthNotificationService.notifyCooldownExpired candidate assessment
        notifyEach (notifiedCount + 1) candidates

def runCooldownSweep : M Nat := do
  let cooldownDays ← select fun db => db.base.settings.cooldownDays
  let time ← select fun db => db.base.now
  let cutoff := addDays time (-cooldownDays)
  let candidates ← select fun db => db.base.assessments.rows.filter (isDue cutoff)
  notifyEach 0 candidates

end RemediationNotificationService

/-! ## The system -/

inductive Op where
  /-- A call on attempts, or the passing of time. -/
  | attempt (op : Assessments.Op) (h : op.isAttempt = true)
  | runCooldownSweep
  deriving DecidableEq, Repr

inductive Result where
  | attempt (r : Assessments.Result)
  | swept (notifiedCount : Nat)
  deriving DecidableEq, Repr

def program (env : Environment) (uuid : Id) : Op → M Result
  | .attempt op _ => do
    return .attempt (← (Assessments.program env uuid op).zoom Db.base .base)
  | .runCooldownSweep => do
    return .swept (← RemediationNotificationService.runCooldownSweep)

def system (env : Environment) : System Db Write Key Error Result Op :=
  ⟨store, program env, isFault⟩

abbrev RunState := State Db Write Error Result Op

abbrev Log := List (Txn.Group Write)

/-- The committed database at a moment of the run. -/
abbrev Db.at (d₀ : Db) (L : Log) : Db := replay store d₀ L

/-- `n` steps of call `i`. -/
def steps (i n : Nat) : List (Label Error Op) := List.replicate n (.step i)

end JobBoard.Assessments.Remediation
