import JobBoard.Cvtheque.Alerts

/-!
# The system of the CVthèque

`Op` is a call of the services that change a profile, what a search depends on, or the
anchor of an alert (or the passing of time), and `system` runs any number of them
interleaved, statement by statement. The number of a call stands for the uuids that its
rows get.
-/

set_option autoImplicit false

namespace JobBoard.Cvtheque

open Txn Prog Assessments

inductive Op where
  | clock (us : Nat)
  | updateProfile (profileId : Id) (data : UpdateProfileDto)
  | calculateCompleteness (profileId : Id)
  | applyThresholds (candidateId : Id)
  | setModeration (profileId : Id) (status : ProfileModerationStatus) (moderatorUserId : Id)
  | approve (id adminUserId : Id) (note : Option String)
  | reject (id adminUserId : Id) (note : Option String)
  | addSkill (userId : Id) (dto : AddProfileSkillDto)
  | removeSkill (userId profileSkillId : Id)
  | processResult (assessmentId : Id) (graded : Score)
  | addEntry (callerId : Id) (dto : AddShortlistEntryDto)
  | runAlertSweep (failures : List SweepFailure)
  deriving DecidableEq, Repr

inductive Result where
  | unit
  | profile (p : CandidateProfile)
  | completeness (c : CompletenessResult)
  | moderated (v : ModeratedProfileView)
  | verification (v : SchoolVerification)
  | skill (s : ProfileSkill)
  | entry (e : ShortlistEntry)
  | swept (notifiedCount : Nat)
  deriving DecidableEq, Repr

/-- The errors a statement or an outside call may fail with by itself. -/
def isFault : Error → Bool
  | .unavailable => true
  | .queryFailed code _ => code ≠ POSTGRES_UNIQUE_VIOLATION
  | _ => false

def program (config : Config) (env : Environment) (uuid : Id) : Op → M Result
  | .clock us => do
    write fun _ => [.tick us]
    return .unit
  | .updateProfile profileId data => do
    return .profile (← CandidateProfileService.updateProfile profileId data)
  | .calculateCompleteness profileId => do
    return .completeness (← CandidateProfileService.calculateCompleteness profileId)
  | .applyThresholds candidateId => do
    IndexationService.applyThresholds candidateId
    return .unit
  | .setModeration profileId status moderatorUserId => do
    return .moderated
      (← ProfileModerationService.setModeration profileId status moderatorUserId)
  | .approve id adminUserId note => do
    return .verification (← SchoolVerificationService.approve id adminUserId note)
  | .reject id adminUserId note => do
    return .verification (← SchoolVerificationService.reject id adminUserId note)
  | .addSkill userId dto => do
    return .skill (← CandidateSkillService.add uuid userId dto)
  | .removeSkill userId profileSkillId => do
    CandidateSkillService.remove uuid userId profileSkillId
    return .unit
  | .processResult assessmentId graded => do
    WebhookService.processResult uuid assessmentId graded
    return .unit
  | .addEntry callerId dto => do
    return .entry (← ShortlistService.addEntry config uuid callerId dto)
  | .runAlertSweep failures => do
    return .swept (← SavedSearchAlertService.runAlertSweep env failures)

def system (config : Config) (env : Environment) : System Db Write Key Error Result Op :=
  ⟨store, program config env, isFault⟩

abbrev RunState := State Db Write Error Result Op

/-- `n` steps of call `i`. -/
def steps (i n : Nat) : List (Label Error Op) := List.replicate n (.step i)

end JobBoard.Cvtheque
