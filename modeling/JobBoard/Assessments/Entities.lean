import JobBoard.Model.Pricing

/-!
# Assessments, scores and candidate profiles

The rows that the assessment and candidate services read and write, what the
scoring provider reports, and the bodies of the calls. Scores and percentiles are
`decimal(5,2)` columns: they are integers here, in hundredths of a point. A
`details` column that nothing reads is left out.
-/

set_option autoImplicit false

namespace JobBoard.Assessments

open Txn

inductive AssessmentStatus where
  | pending | inProgress | completed | cancelled | incident
  deriving DecidableEq, Repr

inductive PlagiarismVerdict where
  | clean | suspected | confirmed
  deriving DecidableEq, Repr

namespace PlagiarismVerdict

def toString : PlagiarismVerdict → String
  | clean => "clean"
  | suspected => "suspected"
  | confirmed => "confirmed"

end PlagiarismVerdict

inductive QuestionType where
  | technical | psychotechnical
  deriving DecidableEq, Repr

inductive DomainFeedbackLevel where
  | weak | medium | strong
  deriving DecidableEq, Repr

inductive ProfileVisibility where
  | publicVisibility | recruitersOnly | hidden
  deriving DecidableEq, Repr

inductive DocumentType where
  | cv | certification | other | diploma
  deriving DecidableEq, Repr

inductive ScanStatus where
  | pending | clean | infected
  deriving DecidableEq, Repr

/-! ## Rows -/

structure Specialty where
  id : Id
  name : String
  deriving DecidableEq, Repr

structure Test where
  id : Id
  specialtyId : Id
  version : String
  durationMinutes : Int
  active : Bool
  deriving DecidableEq, Repr

structure Assessment where
  id : Id
  candidateId : Id
  testId : Id
  externalAssessmentId : Option String
  status : AssessmentStatus
  resumeToken : Option Id
  expiresAt : Option Time
  startedAt : Option Time
  completedAt : Option Time
  cooldownNotifiedAt : Option Time
  ipAddress : Option String
  deviceFingerprint : Option String
  multiAccountFlagged : Bool
  tabSwitchCount : Int
  windowBlurCount : Int
  proctoringFlagged : Bool
  assignedTestVersion : Option String
  createdAt : Time
  deriving DecidableEq, Repr

structure DomainFeedbackEntry where
  domain : String
  level : DomainFeedbackLevel
  deriving DecidableEq, Repr

structure Score where
  id : Id
  assessmentId : Id
  value : Int
  percentile : Option Int
  technicalScore : Option Int
  psychotechnicalScore : Option Int
  baremeVersion : String
  testVersion : String
  plagiarismVerdict : PlagiarismVerdict
  answerFingerprint : Option String
  domainFeedback : List DomainFeedbackEntry
  expiresAt : Time
  deriving DecidableEq, Repr

structure CandidateProfile where
  id : Id
  userId : Id
  firstName : Option String
  lastName : Option String
  headline : Option String
  bio : Option String
  school : Option String
  visibility : ProfileVisibility
  salaryMin : Option Int
  salaryMax : Option Int
  completeness : Int
  indexedInCvtheque : Bool
  featured : Bool
  deriving DecidableEq, Repr

/-- A skill of the catalogue. -/
structure Skill where
  id : Id
  active : Bool
  deriving DecidableEq, Repr

structure ProfileSkill where
  id : Id
  profileId : Id
  skillId : Id
  level : Option String
  deriving DecidableEq, Repr

structure Experience where
  id : Id
  profileId : Id
  title : String
  deriving DecidableEq, Repr

structure ProfileLink where
  id : Id
  profileId : Id
  url : String
  deriving DecidableEq, Repr

structure Document where
  id : Id
  ownerId : Id
  type : DocumentType
  storageKey : String
  scanStatus : ScanStatus
  deriving DecidableEq, Repr

/-! ## Bodies and results -/

structure AssessmentStartContext where
  ipAddress : Option String
  deviceFingerprint : Option String
  deriving DecidableEq, Repr

/-- A body that has passed the validation pipe. -/
structure RecordProctoringEventsDto where
  tabSwitches : Int
  windowBlurs : Int
  boundsTabSwitches : 0 ≤ tabSwitches ∧ tabSwitches ≤ 10000
  boundsWindowBlurs : 0 ≤ windowBlurs ∧ windowBlurs ≤ 10000
  deriving DecidableEq, Repr

/-- What the scoring provider reports of an attempt. -/
structure AssessmentResult where
  externalId : String
  score : Int
  maxScore : Int
  percentile : Option Int
  plagiarismVerdict : PlagiarismVerdict
  domainFeedback : List DomainFeedbackEntry
  technicalScore : Option Int
  psychotechnicalScore : Option Int
  answerFingerprint : Option String
  deriving DecidableEq, Repr

structure WebhookVerificationResult where
  valid : Bool
  externalId : Option String
  deriving DecidableEq, Repr

structure ExamQuestion where
  id : String
  type : QuestionType
  domain : String
  correct : Int
  deriving DecidableEq, Repr

structure UpdateProfileDto where
  firstName : Option String
  lastName : Option String
  headline : Option String
  bio : Option String
  school : Option String
  visibility : Option ProfileVisibility
  salaryMin : Option Int
  salaryMax : Option Int
  deriving DecidableEq, Repr

structure AddProfileSkillDto where
  skillId : Id
  level : Option String
  deriving DecidableEq, Repr

/-- What the assessment services are given from outside: what the provider's
`createAssessment` returns to a call, and the bank of questions, `examForSpecialty`. -/
structure Environment where
  externalId : Id → String
  assessmentUrl : Id → String
  examForSpecialty : Option String → Id → List ExamQuestion

/-! ## Dates -/

/-- The month and the day of a date in UTC. -/
def getMonthAndDay (date : Time) : Int × Int :=
  let z := date / msPerDay + 719468
  let doe := z - z / 146097 * 146097
  let yoe := (doe - doe / 1460 + doe / 36524 - doe / 146096) / 365
  let doy := doe - (365 * yoe + yoe / 4 - yoe / 100)
  let mp := (5 * doy + 2) / 153
  (if mp < 10 then mp + 3 else mp - 9, doy - (153 * mp + 2) / 5 + 1)

def padZeros (length : Nat) (n : Int) : String :=
  let s := ToString.toString n
  String.ofList (List.replicate (length - s.length) '0') ++ s

/-- `Date.prototype.toISOString`, for the years 0 to 9999. -/
def toISOString (date : Time) : String :=
  let ms := date % msPerDay
  let day := getMonthAndDay date
  padZeros 4 (getFullYear date) ++ "-" ++ padZeros 2 day.1 ++ "-" ++ padZeros 2 day.2 ++ "T" ++
    padZeros 2 (ms / 3600000) ++ ":" ++ padZeros 2 (ms / 60000 % 60) ++ ":" ++
    padZeros 2 (ms / 1000 % 60) ++ "." ++ padZeros 3 (ms % 1000) ++ "Z"

example : toISOString 1767225599999 = "2025-12-31T23:59:59.999Z" := by decide

end JobBoard.Assessments
