import JobBoard.Assessments.Database

/-!
# Attempts

`AssessmentService`: starting an attempt (with the check of the retake rule),
resuming it, reporting an incident, and the behavioural counts of the secure exam
client.
-/

set_option autoImplicit false

namespace JobBoard.Assessments

open Txn Prog

def COOLDOWN_SETTINGS_KEY : String := "assessment_cooldown_days"

def DEFAULT_COOLDOWN_DAYS : Int := 90

def computeCooldownEnd (completedAt : Time) (cooldownDays : Int) : Time :=
  addDays completedAt cooldownDays

namespace Settings

def cooldownDays (s : Settings) : Int :=
  (s.getNumber COOLDOWN_SETTINGS_KEY).getD DEFAULT_COOLDOWN_DAYS

def leaveFlagThreshold (s : Settings) : Int :=
  (s.getNumber "anti_cheat_proctoring_leave_threshold").getD 5

def leaveHardThreshold (s : Settings) : Int :=
  (s.getNumber "anti_cheat_proctoring_leave_hard_threshold").getD 10

def multiAccountWindowHours (s : Settings) : Int :=
  (s.getNumber "anti_cheat_multi_account_window_hours").getD 24

end Settings

/-- White space and line ends of ECMAScript. -/
def isWhiteSpace (c : Char) : Bool :=
  c.toNat ∈ [9, 10, 11, 12, 13, 32, 160, 5760, 8232, 8233, 8239, 8287, 12288, 65279] ||
    (8192 ≤ c.toNat && c.toNat ≤ 8202)

/-- `String.prototype.trim`. -/
def trim (s : String) : String :=
  String.ofList ((s.toList.dropWhile isWhiteSpace).reverse.dropWhile isWhiteSpace).reverse

namespace AssessmentStatus

/-- PENDING or IN_PROGRESS. -/
def isActive (s : AssessmentStatus) : Bool := s = pending || s = inProgress

end AssessmentStatus

/-- `a` comes after `b` in `ORDER BY completed_at DESC`, where NULL comes first. -/
def completedEarlier (a b : Option Time) : Bool :=
  match a, b with
  | none, _ => false
  | some _, none => true
  | some a, some b => a < b

/-- The row a query ordered by `completedAt DESC` returns first. -/
def lastCompleted : List Assessment → Option Assessment
  | [] => none
  | r :: rs =>
    match lastCompleted rs with
    | none => some r
    | some s => if completedEarlier s.completedAt r.completedAt then some r else some s

namespace AssessmentService

def checkEligibility (candidateId testId : Id) : M Unit := do
  match ← AssessmentRepository.findOne fun a =>
      a.candidateId = candidateId && a.testId = testId && a.status.isActive with
  | some _ => throw (.conflict "An assessment is already in progress for this test")
  | none =>
    let cooldownDays ← select fun db => db.settings.cooldownDays
    let last ← select fun db => lastCompleted <| db.assessments.rows.filter fun a =>
      a.candidateId = candidateId && a.testId = testId && a.status = .completed
    match last.bind (·.completedAt) with
    | none => return ()
    | some completedAt =>
      let cooldownEnd := computeCooldownEnd completedAt cooldownDays
      if (← now) < cooldownEnd then throw (.cooldownActive (toISOString cooldownEnd))
      else return ()

/-- The flag that another candidate has used the device within the window. -/
def detectMultiAccount (candidateId : Id) (deviceFingerprint : Option String) :
    M (Option String) := do
  match deviceFingerprint with
  | none => return none
  | some fingerprint =>
    let windowHours ← select fun db => db.settings.multiAccountWindowHours
    let since := (← now) - windowHours * 60 * 60 * 1000
    let byDevice ← select fun db => db.assessments.rows.countP fun a =>
      a.deviceFingerprint = some fingerprint && a.candidateId ≠ candidateId && a.createdAt ≥ since
    return if byDevice > 0 then some "device" else none

section

variable (env : Environment) (uuid : Id)

/-- The row that `startAssessment` inserts; the uuid also stands for the token. -/
def newAssessment (candidateId testId : Id) (test : Test) (ipAddress deviceFingerprint : Option String)
    (flagged : Bool) (time : Time) : Assessment where
  id := uuid
  candidateId := candidateId
  testId := testId
  externalAssessmentId := some (env.externalId uuid)
  status := .inProgress
  resumeToken := some uuid
  expiresAt := some (time + test.durationMinutes * 60 * 1000)
  startedAt := some time
  completedAt := none
  cooldownNotifiedAt := none
  ipAddress := ipAddress
  deviceFingerprint := deviceFingerprint
  multiAccountFlagged := flagged
  tabSwitchCount := 0
  windowBlurCount := 0
  proctoringFlagged := false
  assignedTestVersion := some test.version
  createdAt := time

def startAssessment (candidateId testId : Id) (context : AssessmentStartContext) :
    M (Assessment × String) := do
  match ← select fun db => db.tests.get? testId with
  | none => throw (.notFound "Test not found")
  | some test =>
    if ¬ test.active then throw (.badRequest "Test is not active")
    else
      checkEligibility candidateId testId
      let ipAddress := truthy (context.ipAddress.map trim)
      let deviceFingerprint := truthy (context.deviceFingerprint.map trim)
      let sharedBy ← detectMultiAccount candidateId deviceFingerprint
      -- `scoringProvider.createAssessment`
      outside fun _ => []
      let time ← now
      let saved ← AssessmentRepository.insert
        (newAssessment env uuid candidateId testId test ipAddress deviceFingerprint sharedBy.isSome time)
      AuditService.log ⟨some candidateId, .assessmentStarted, "assessment", saved.id,
        [("testId", .id testId), ("externalId", .str (env.externalId uuid)),
          ("testVersion", .str test.version)]⟩
      match sharedBy with
      | none => return (saved, env.assessmentUrl uuid)
      | some sharedBy =>
        AuditService.log ⟨some candidateId, .assessmentMultiAccountFlagged, "assessment", saved.id,
          [("testId", .id testId), ("sharedBy", .str sharedBy)]⟩
        return (saved, env.assessmentUrl uuid)

end

/-- The attempt of the candidate, in the status that the call asks for. -/
def loadOwn (candidateId assessmentId : Id) (status : AssessmentStatus) (message : String) :
    M Assessment := do
  match ← AssessmentRepository.findById assessmentId with
  | none => throw (.notFound "Assessment not found")
  | some assessment =>
    if assessment.candidateId ≠ candidateId then throw (.forbidden "Access denied")
    else if assessment.status ≠ status then throw (.badRequest message)
    else return assessment

def resumeAssessment (uuid candidateId assessmentId resumeToken : Id) :
    M (Assessment × String) := do
  let assessment ← loadOwn candidateId assessmentId .incident
    "Only assessments in INCIDENT status can be resumed"
  if assessment.resumeToken ≠ some resumeToken then throw (.forbidden "Invalid resume token")
  else
    let saved ← AssessmentRepository.save
      { assessment with status := .inProgress, resumeToken := some uuid }
    AuditService.log ⟨some candidateId, .assessmentResumed, "assessment", saved.id, []⟩
    return (saved, "https://scoring.local/assessment/" ++
      assessment.externalAssessmentId.getD "null")

def reportIncident (candidateId assessmentId : Id) : M Assessment := do
  let assessment ← loadOwn candidateId assessmentId .inProgress
    "Only IN_PROGRESS assessments can report incidents"
  let saved ← AssessmentRepository.save { assessment with status := .incident }
  AuditService.log ⟨some candidateId, .assessmentIncident, "assessment", saved.id, []⟩
  return saved

/-- The counts after a report: they never decrease. -/
def withCounts (assessment : Assessment) (events : RecordProctoringEventsDto) : Assessment :=
  { assessment with
    tabSwitchCount := max assessment.tabSwitchCount events.tabSwitches
    windowBlurCount := max assessment.windowBlurCount events.windowBlurs }

def totalLeaves (assessment : Assessment) : Int :=
  assessment.tabSwitchCount + assessment.windowBlurCount

/-- The attempt after a report: flagged at the threshold, voided at the hard one. -/
def recorded (assessment : Assessment) (events : RecordProctoringEventsDto)
    (threshold hardThreshold : Int) : Assessment :=
  let counted := withCounts assessment events
  { counted with
    proctoringFlagged :=
      if totalLeaves counted ≥ threshold then true else assessment.proctoringFlagged
    status := if totalLeaves counted ≥ hardThreshold then .incident else assessment.status }

def recordProctoringEvents (candidateId assessmentId : Id) (events : RecordProctoringEventsDto) :
    M Assessment := do
  let assessment ← loadOwn candidateId assessmentId .inProgress
    "Proctoring events can only be recorded for an in-progress attempt"
  let threshold ← select fun db => db.settings.leaveFlagThreshold
  let hardThreshold ← select fun db => db.settings.leaveHardThreshold
  let saved ← AssessmentRepository.save (recorded assessment events threshold hardThreshold)
  let _ ← if ¬ assessment.proctoringFlagged ∧ saved.proctoringFlagged then
      AuditService.log ⟨some candidateId, .assessmentProctoringFlagged, "assessment", saved.id,
        [("tabSwitchCount", .num saved.tabSwitchCount),
          ("windowBlurCount", .num saved.windowBlurCount), ("threshold", .num threshold)]⟩
    else pure ()
  let _ ← if totalLeaves saved ≥ hardThreshold then
      AuditService.log ⟨some candidateId, .assessmentIncident, "assessment", saved.id,
        [("reason", .str "proctoring_hard_limit"), ("totalLeaves", .num (totalLeaves saved)),
          ("hardThreshold", .num hardThreshold)]⟩
    else pure ()
  return saved

end AssessmentService

end JobBoard.Assessments
