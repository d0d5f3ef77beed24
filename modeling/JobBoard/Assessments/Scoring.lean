import JobBoard.Assessments.Attempts
import Mathlib.Algebra.Ring.Int.Defs

/-!
# Scoring and indexation

`IndexationService.applyThresholds`, `WebhookService` with the shared tail
`finalizeAssessment`, and the in-app exam, `ExamService.submitExam`. What the
provider's `getResult` answers during a call is an argument of the call.
-/

set_option autoImplicit false

namespace JobBoard.Assessments

open Txn Prog

/-! ## Indexation -/

/-- The settings of the indexation, in points. -/
structure Thresholds where
  indexationScoreMin : Int
  indexationPercentileMin : Int
  featuringPercentileMin : Int
  completenessThreshold : Int
  deriving DecidableEq, Repr

namespace Settings

def thresholds (s : Settings) : Thresholds where
  indexationScoreMin := (s.getNumber "indexation_score_min").getD 70
  indexationPercentileMin := (s.getNumber "indexation_percentile_min").getD 85
  featuringPercentileMin := (s.getNumber "featuring_percentile_min").getD 75
  completenessThreshold := (s.getNumber "completeness_threshold_publishable").getD 70

end Settings

namespace Score

/-- Scores are in hundredths of a point. -/
def percentileAtLeast (s : Score) (points : Int) : Bool :=
  match s.percentile with
  | none => false
  | some percentile => percentile ≥ 100 * points

def meetsThreshold (s : Score) (t : Thresholds) : Bool :=
  s.value ≥ 100 * t.indexationScoreMin || s.percentileAtLeast t.indexationPercentileMin

/-- Not expired, and not a confirmed plagiarism. -/
def isValid (s : Score) (time : Time) : Bool :=
  s.plagiarismVerdict ≠ .confirmed && s.expiresAt > time

end Score

namespace IndexationService

/-- `indexedInCvtheque` and `featured`, from the valid scores of the candidate. -/
def flags (t : Thresholds) (completeness : Int) (validScores : List Score) : Bool × Bool :=
  let indexed := completeness ≥ t.completenessThreshold && validScores.any (·.meetsThreshold t)
  (indexed, indexed && validScores.any (·.percentileAtLeast t.featuringPercentileMin))

/-- The scores of the candidate's completed attempts that count at `time`. -/
def validScores (db : Db) (assessmentIds : List Id) (time : Time) : List Score :=
  (db.scores.rows.filter fun s => s.assessmentId ∈ assessmentIds).filter (·.isValid time)

def completedIds (db : Db) (candidateId : Id) : List Id :=
  (db.assessments.rows.filter fun a =>
    a.candidateId = candidateId && a.status = .completed).map (·.id)

def findValidScores (assessmentIds : List Id) : M (List Score) := do
  if assessmentIds = [] then return []
  else
    let allScores ← select fun db => db.scores.rows.filter fun s => s.assessmentId ∈ assessmentIds
    let time ← now
    return allScores.filter (·.isValid time)

def applyThresholds (candidateId : Id) : M Unit := do
  match ← ProfileRepository.findByUserId candidateId with
  | none => return ()
  | some profile =>
    let assessmentIds ← select fun db => completedIds db candidateId
    let validScores ← findValidScores assessmentIds
    let thresholds ← select fun db => db.settings.thresholds
    let (indexed, featured) := flags thresholds profile.completeness validScores
    let _ ← ProfileRepository.save
      { profile with indexedInCvtheque := indexed, featured := featured }
    return ()

end IndexationService

/-! ## Finalisation -/

/-- `Math.round` of a quotient of integers, half up; no quotient when `d` is not
positive. -/
def roundQuotient (n d : Int) : Int := if d ≤ 0 then 0 else mathRound n d

namespace WebhookService

/-- The composite score, in hundredths of a point. -/
def compositeScore (result : AssessmentResult) (techWeight psychoWeight : Int) : Int :=
  match result.technicalScore, result.psychotechnicalScore with
  | some technicalScore, some psychotechnicalScore =>
    roundQuotient (technicalScore * techWeight + psychotechnicalScore * psychoWeight)
      (techWeight + psychoWeight)
  | _, _ => roundQuotient (result.score * 10000) result.maxScore

def computeCompositeScore (result : AssessmentResult) : M Int := do
  if result.technicalScore.isSome ∧ result.psychotechnicalScore.isSome then
    let techWeight ← getNumber "score_technique_weight"
    let psychoWeight ← getNumber "score_psychotechnique_weight"
    return compositeScore result (techWeight.getD 60) (psychoWeight.getD 40)
  else return compositeScore result 0 0

/-- The scores of other candidates with the same fingerprint. -/
def countCollisions (candidateId : Id) (answerFingerprint : Option String) : M Nat :=
  match truthy answerFingerprint with
  | none => return 0
  | some fingerprint =>
    select fun db => db.scores.rows.countP fun s =>
      s.answerFingerprint = some fingerprint &&
        match db.assessment? s.assessmentId with
        | some a => a.candidateId ≠ candidateId
        | none => false

/-- A collision raises a clean verdict, and never lowers another one. -/
def verdict (result : AssessmentResult) (collisions : Nat) : PlagiarismVerdict :=
  if collisions > 0 ∧ result.plagiarismVerdict = .clean then .suspected
  else result.plagiarismVerdict

/-- The result given, or else the one fetched from the provider. -/
def obtainResult (externalId : Option String) (providedResult fetched : Option AssessmentResult) :
    M AssessmentResult :=
  match providedResult, externalId with
  | some result, _ => return result
  | none, none => throw (.badRequest "No result available from provider for null")
  | none, some externalId => do
    -- `scoringProvider.getResult`
    outside fun _ => []
    match fetched with
    | some result => return result
    | none => throw (.badRequest ("No result available from provider for " ++ externalId))

/-- The constraint that the new score `s` would violate. -/
def scoreViolation (s : Score) (db : Db) : Option String :=
  if (db.scores.get? s.id).isSome then some "PK_scores"
  else if (db.scoreOf s.assessmentId).isSome then some "UQ_scores_assessment_id"
  else none

def insertScore (s : Score) : M Score := insertUnique (scoreViolation s) (.insertScore s) s

/-- The attempt, completed. -/
def completed (assessment : Assessment) (time : Time) : Assessment :=
  { assessment with status := .completed, completedAt := some time }

/-- After the score is saved: complete the attempt, write the audit trail and
re-apply the thresholds. -/
def complete (assessment : Assessment) (savedScore : Score) (collisions : Nat)
    (test : Option Test) : M Unit := do
  let time ← now
  let _ ← AssessmentRepository.save (completed assessment time)
  AuditService.log ⟨some assessment.candidateId, .assessmentCompleted, "assessment", assessment.id,
    [("externalId", .str (assessment.externalAssessmentId.getD "null")),
      ("normalizedScore", .num savedScore.value)]⟩
  AuditService.log ⟨some assessment.candidateId, .scoreCalculated, "score", savedScore.id,
    [("value", .num savedScore.value), ("percentile", .num (savedScore.percentile.getD 0)),
      ("plagiarismVerdict", .str savedScore.plagiarismVerdict.toString),
      ("fingerprintCollision", .bool (collisions > 0)),
      ("baremeVersion", .str savedScore.baremeVersion)] ++
      (test.map fun t => ("testVersion", .str t.version)).toList⟩
  IndexationService.applyThresholds assessment.candidateId

/-- What a finalisation returns. -/
structure Finalized where
  alreadyProcessed : Bool
  scoreId : Id
  deriving DecidableEq, Repr

/-- Grade the result, save its score, and complete the attempt. -/
def score (uuid : Id) (assessment : Assessment) (result : AssessmentResult) : M Finalized := do
  let normalizedScore ← computeCompositeScore result
  let test ← select fun db => db.tests.get? assessment.testId
  let baremeVersion ← select fun db => db.settings.get "score_bareme_version"
  let validityDays ← getNumber "score_validity_days"
  let time ← now
  let collisions ← countCollisions assessment.candidateId result.answerFingerprint
  let savedScore ← insertScore
    { id := uuid
      assessmentId := assessment.id
      value := normalizedScore
      percentile := result.percentile
      technicalScore := result.technicalScore
      psychotechnicalScore := result.psychotechnicalScore
      baremeVersion := baremeVersion.getD "1.0"
      testVersion := (test.map (·.version)).getD "unknown"
      plagiarismVerdict := verdict result collisions
      answerFingerprint := result.answerFingerprint
      domainFeedback := result.domainFeedback
      expiresAt := time + validityDays.getD 365 * 24 * 60 * 60 * 1000 }
  complete assessment savedScore collisions test
  return ⟨false, savedScore.id⟩

def finalizeAssessment (uuid : Id) (assessment : Assessment)
    (providedResult fetched : Option AssessmentResult) : M Finalized := do
  let externalId := truthy assessment.externalAssessmentId
  if externalId = none ∧ providedResult = none then
    throw (.badRequest "Assessment has no external provider reference")
  else
    match ← select fun db => db.scoreOf assessment.id with
    | some existingScore => return ⟨true, existingScore.id⟩
    | none =>
      let result ← obtainResult externalId providedResult fetched
      score uuid assessment result

def processWebhook (uuid : Id) (verification : WebhookVerificationResult)
    (fetched : Option AssessmentResult) : M Finalized := do
  if ¬ verification.valid then throw (.forbidden "Invalid webhook signature")
  else
    match truthy verification.externalId with
    | none => throw (.badRequest "No external ID in webhook payload")
    | some externalId =>
      match ← AssessmentRepository.findOne (·.externalAssessmentId = some externalId) with
      | none => throw (.notFound ("Assessment not found for externalId " ++ externalId))
      | some assessment => finalizeAssessment uuid assessment none fetched

/-- The completion of an attempt in development. -/
def simulateCompletion (uuid candidateId assessmentId : Id) (fetched : Option AssessmentResult) :
    M Finalized := do
  let assessment ← AssessmentService.loadOwn candidateId assessmentId .inProgress
    "Only an in-progress assessment can be completed"
  finalizeAssessment uuid assessment none fetched

end WebhookService

/-! ## The in-app exam -/

namespace ExamService

def EXAM_GRACE_SECONDS : Int := 120

def timeLimitForType : QuestionType → Int
  | .technical => 90
  | .psychotechnical => 60

def budgetSeconds (questions : List ExamQuestion) : Int :=
  (questions.map fun q => timeLimitForType q.type).sum

/-- The instant after which a submission is void. -/
def deadline (startedAt : Time) (questions : List ExamQuestion) : Time :=
  startedAt + (budgetSeconds questions + EXAM_GRACE_SECONDS) * 1000

def isCorrect (answers : List (String × Int)) (q : ExamQuestion) : Bool :=
  answers.lookup q.id = some q.correct

/-- The share of right answers in percent, rounded. -/
def pct (answers : List (String × Int)) (set : List ExamQuestion) : Int :=
  roundQuotient (100 * set.countP (isCorrect answers)) set.length

def level (ok total : Nat) : DomainFeedbackLevel :=
  if 10 * ok ≥ 7 * total then .strong else if 10 * ok ≥ 4 * total then .medium else .weak

/-- The domains of the questions, in the order of their first question. -/
def domains (questions : List ExamQuestion) : List String :=
  (questions.map (·.domain)).foldl (fun ds d => if d ∈ ds then ds else ds ++ [d]) []

def domainFeedback (questions : List ExamQuestion) (answers : List (String × Int)) :
    List DomainFeedbackEntry :=
  (domains questions).map fun d =>
    let set := questions.filter (·.domain = d)
    ⟨d, level (set.countP (isCorrect answers)) set.length⟩

/-- What `grade` makes of the answers, as the result of the attempt. -/
def grade (externalId : String) (questions : List ExamQuestion) (answers : List (String × Int)) :
    AssessmentResult :=
  let technicalScore := pct answers (questions.filter (·.type = .technical))
  let psychotechnicalScore := pct answers (questions.filter (·.type = .psychotechnical))
  let composite := mathRound (technicalScore * 6 + psychotechnicalScore * 4) 10
  { externalId := externalId
    score := 100 * composite
    maxScore := 100 * 100
    percentile := some (100 * composite)
    plagiarismVerdict := .clean
    domainFeedback := domainFeedback questions answers
    technicalScore := some (100 * technicalScore)
    psychotechnicalScore := some (100 * psychotechnicalScore)
    answerFingerprint := some ("local-" ++ externalId) }

section

variable (env : Environment)

/-- The questions of an attempt, for the specialty of its test. -/
def questionsOf (db : Db) (assessment : Assessment) : List ExamQuestion :=
  let test := db.tests.get? assessment.testId
  let specialty := test.bind fun t => db.specialties.get? t.specialtyId
  env.examForSpecialty (specialty.map (·.name)) assessment.id

def loadContext (candidateId assessmentId : Id) : M (Assessment × List ExamQuestion) := do
  let assessment ← AssessmentService.loadOwn candidateId assessmentId .inProgress
    "Assessment is not in progress"
  let test ← select fun db => db.tests.get? assessment.testId
  let specialty ← match test with
    | none => pure none
    | some t => select fun db => db.specialties.get? t.specialtyId
  return (assessment, env.examForSpecialty (specialty.map (·.name)) assessment.id)

/-- `Date.now()` is past the deadline of an attempt that has started. -/
def isLate (assessment : Assessment) (questions : List ExamQuestion) (time : Time) : Bool :=
  match assessment.startedAt with
  | none => false
  | some startedAt => time > deadline startedAt questions

def submitExam (uuid candidateId assessmentId : Id) (answers : List (String × Int)) :
    M AssessmentResult := do
  let (assessment, questions) ← loadContext env candidateId assessmentId
  let time ← now
  if isLate assessment questions time then
    let _ ← AssessmentRepository.save { assessment with status := .incident }
    throw .timeExceeded
  else
    let result := grade (assessment.externalAssessmentId.getD (toString assessmentId)) questions
      answers
    let _ ← WebhookService.finalizeAssessment uuid assessment (some result) none
    return result

end

end ExamService

end JobBoard.Assessments
