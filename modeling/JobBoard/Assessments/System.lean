import JobBoard.Lib.Sys
import JobBoard.Assessments.Profiles

/-!
# The system of the assessments

`Op` is a call of the assessment or candidate services (or the passing of time),
and `system` runs any number of them interleaved, statement by statement. The number
of a call stands for the uuids that its rows get.
-/

set_option autoImplicit false

namespace JobBoard.Assessments

open Txn Prog

inductive Op where
  | clock (ms : Nat)
  | startAssessment (candidateId testId : Id) (context : AssessmentStartContext)
  | resumeAssessment (candidateId assessmentId resumeToken : Id)
  | reportIncident (candidateId assessmentId : Id)
  | recordProctoringEvents (candidateId assessmentId : Id) (events : RecordProctoringEventsDto)
  | submitExam (candidateId assessmentId : Id) (answers : List (String × Int))
  | processWebhook (verification : WebhookVerificationResult) (fetched : Option AssessmentResult)
  | simulateCompletion (candidateId assessmentId : Id) (fetched : Option AssessmentResult)
  | recalculate
  | getMyProfile (userId : Id)
  | updateMyProfile (userId : Id) (dto : UpdateProfileDto)
  | getCompleteness (userId : Id)
  | addSkill (userId : Id) (dto : AddProfileSkillDto)
  | removeSkill (userId profileSkillId : Id)
  | createExperience (userId : Id) (title : String)
  | updateExperience (userId experienceId : Id) (title : Option String)
  | removeExperience (userId experienceId : Id)
  | createLink (userId : Id) (url : String)
  | removeLink (userId linkId : Id)
  | uploadCV (userId : Id) (file : UploadedFile) (threat : Option String)
  | deleteCV (userId : Id)
  deriving DecidableEq, Repr

inductive Result where
  | unit
  | started (a : Assessment) (url : String)
  | assessment (a : Assessment)
  | exam (r : AssessmentResult)
  | finalized (f : WebhookService.Finalized)
  | recalculated (r : PercentileRecalcResult)
  | profile (p : CandidateProfile) (c : CompletenessResult)
  | completeness (c : CompletenessResult)
  | skill (s : ProfileSkill)
  | experience (e : Experience)
  | link (l : ProfileLink)
  | document (d : Document)
  deriving DecidableEq, Repr

/-- The errors a statement or an outside call may fail with by itself. -/
def isFault : Error → Bool
  | .unavailable => true
  | .queryFailed code _ => code ≠ POSTGRES_UNIQUE_VIOLATION
  | _ => false

def program (env : Environment) (uuid : Id) : Op → M Result
  | .clock ms => do
    write fun _ => [.tick ms]
    return .unit
  | .startAssessment candidateId testId context => do
    let r ← AssessmentService.startAssessment env uuid candidateId testId context
    return .started r.1 r.2
  | .resumeAssessment candidateId assessmentId resumeToken => do
    let r ← AssessmentService.resumeAssessment uuid candidateId assessmentId resumeToken
    return .started r.1 r.2
  | .reportIncident candidateId assessmentId => do
    return .assessment (← AssessmentService.reportIncident candidateId assessmentId)
  | .recordProctoringEvents candidateId assessmentId events => do
    return .assessment
      (← AssessmentService.recordProctoringEvents candidateId assessmentId events)
  | .submitExam candidateId assessmentId answers => do
    return .exam (← ExamService.submitExam env uuid candidateId assessmentId answers)
  | .processWebhook verification fetched => do
    return .finalized (← WebhookService.processWebhook uuid verification fetched)
  | .simulateCompletion candidateId assessmentId fetched => do
    return .finalized
      (← WebhookService.simulateCompletion uuid candidateId assessmentId fetched)
  | .recalculate => do
    return .recalculated (← PercentileRecalcService.recalculate)
  | .getMyProfile userId => do
    let r ← CandidateProfileController.getMyProfile uuid userId
    return .profile r.1 r.2
  | .updateMyProfile userId dto => do
    let r ← CandidateProfileController.updateMyProfile uuid userId dto
    return .profile r.1 r.2
  | .getCompleteness userId => do
    return .completeness (← CandidateProfileController.getCompleteness userId)
  | .addSkill userId dto => do
    return .skill (← CandidateSkillService.add uuid userId dto)
  | .removeSkill userId profileSkillId => do
    CandidateSkillService.remove uuid userId profileSkillId
    return .unit
  | .createExperience userId title => do
    return .experience (← CandidateExperienceService.create uuid userId title)
  | .updateExperience userId experienceId title => do
    return .experience (← CandidateExperienceService.update uuid userId experienceId title)
  | .removeExperience userId experienceId => do
    CandidateExperienceService.remove uuid userId experienceId
    return .unit
  | .createLink userId url => do
    return .link (← CandidateLinkService.create uuid userId url)
  | .removeLink userId linkId => do
    CandidateLinkService.remove uuid userId linkId
    return .unit
  | .uploadCV userId file threat => do
    return .document (← CandidateDocumentService.uploadCV uuid userId file threat)
  | .deleteCV userId => do
    CandidateDocumentService.deleteCV userId
    return .unit

def system (env : Environment) : System Db Write Key Error Result Op :=
  ⟨store, program env, isFault⟩

abbrev RunState := State Db Write Error Result Op

/-- The runs `R` one call at a time. -/
def oneAtATime (R : Runs Db Write Op) : Runs Db Write Op := { R with serial := true }

/-- A call `i` that runs alone, in `n` steps. -/
def alone (i : Nat) (op : Op) (n : Nat) : List (Label Error Op) :=
  .spawn op :: List.replicate n (.step i)

/-! ## Small databases -/

namespace Environment

/-- The attempt of call `n` is `ext_n`, and the exam has one question. -/
def default : Environment where
  externalId := fun uuid => "ext_" ++ toString uuid
  assessmentUrl := fun uuid => "https://scoring.local/assessment/ext_" ++ toString uuid
  examForSpecialty := fun _ _ => [⟨"q1", .technical, "sql", 2⟩]

end Environment

/-- One active test of one hour. -/
def oneTest : Db :=
  { Db.empty with
    specialties := Table.insert ∅ ⟨10, "data"⟩
    tests := Table.insert ∅ ⟨20, 10, "1.0", 60, true⟩ }

end JobBoard.Assessments
