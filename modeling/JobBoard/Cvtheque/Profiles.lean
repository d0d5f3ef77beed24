import JobBoard.Assessments.Profiles
import JobBoard.Services.Companies
import JobBoard.Lib.Combinators
import JobBoard.Cvtheque.Database

/-!
# Writers of a profile

The services that change a candidate profile: `IndexationService`,
`CandidateProfileService`, `CandidateSkillService`, `ProfileModerationService` and the
decisions of `SchoolVerificationService`. Each loads the whole profile, runs other queries
and saves the whole entity. The completeness and the indexation flags themselves are those
of the assessments. Last the shortlist, which recruiters add profiles to.
-/

set_option autoImplicit false

namespace JobBoard.Cvtheque

open Txn Prog Assessments

/-! ## Indexation -/

namespace IndexationService

def completedIds (db : Db) (candidateId : Id) : List Id :=
  (db.assessments.rows.filter fun a =>
    a.candidateId = candidateId && a.status = .completed).map (·.id)

def findValidScores (assessmentIds : List Id) : M (List Score) := do
  if assessmentIds = [] then return []
  else
    let allScores ← select fun db => db.scores.rows.filter fun s => s.assessmentId ∈ assessmentIds
    let time ← now
    return allScores.filter (·.isValid time)

def applyThresholds (candidateId : Id) : M Unit := do
  match ← ProfileRepository.findByUserId candidateId with
  | none => return ()
  | some profile =>
    let assessmentIds ← select fun db => completedIds db candidateId
    let validScores ← findValidScores assessmentIds
    let thresholds ← select fun db => db.settings.thresholds
    let (indexed, featured) :=
      Assessments.IndexationService.flags thresholds profile.completeness validScores
    let _ ← ProfileRepository.save .applyThresholds profile
      { profile with indexedInCvtheque := indexed, featured := featured }
    return ()

end IndexationService

namespace WebhookService

def scoreOf (assessmentId : Id) (db : Db) : Option Score :=
  db.scores.rows.find? (·.assessmentId == assessmentId)

/-- The constraint that the new score `s` would violate. -/
def scoreViolation (s : Score) (db : Db) : Option String :=
  if (db.scores.get? s.id).isSome then some "PK_scores"
  else if (scoreOf s.assessmentId db).isSome then some "UQ_scores_assessment_id"
  else none

/-- `finalizeAssessment` of an attempt, from the score that its result is `graded` with. -/
def finalizeAssessment (uuid : Id) (assessment : Assessment) (graded : Score) : M Unit := do
  match ← select (scoreOf assessment.id) with
  | some _ => return ()
  | none =>
    let _ ← insertUnique scoreViolation
      (fun _ => { graded with id := uuid, assessmentId := assessment.id }) .insertScore
    let time ← now
    let completed := Assessments.WebhookService.completed assessment time
    let _ ← match ← select fun db => db.assessments.get? assessment.id with
      | none => throw (.entityNotFound "Assessment")
      | some reread =>
        if completed.overwrite reread reread = reread then pure ()
        else write fun _ => [.saveAssessment completed reread]
    IndexationService.applyThresholds assessment.candidateId

/-- The attempt is loaded first. -/
def processResult (uuid assessmentId : Id) (graded : Score) : M Unit := do
  match ← select fun db => db.assessments.get? assessmentId with
  | none => throw (.notFound "Assessment not found")
  | some assessment => finalizeAssessment uuid assessment graded

end WebhookService

/-! ## Edits -/

namespace CandidateProfileService

/-- Re-apply the thresholds; an error is caught. -/
def reindex (userId : Id) : M Unit :=
  (IndexationService.applyThresholds userId).caught fun _ => ret ()

def loadParts (p : CandidateProfile) : M ProfileParts := do
  let experienceCount ← select fun db => db.experiences.rows.countP (·.profileId = p.id)
  let skillCount ← select fun db => db.profileSkills.rows.countP (·.profileId = p.id)
  let hasCv ← select fun db => db.documents.rows.any fun d =>
    d.ownerId = p.userId && d.type = .cv && d.scanStatus = .clean
  let linkCount ← select fun db => db.links.rows.countP (·.profileId = p.id)
  return ⟨experienceCount, skillCount, hasCv, linkCount⟩

def calculateCompleteness (profileId : Id) : M CompletenessResult := do
  match ← ProfileRepository.findById profileId with
  | none => throw (.notFound "Profile not found")
  | some profile =>
    let weights ← select fun db => db.settings.loadWeights
    let parts ← loadParts profile
    let elements :=
      Assessments.CandidateProfileService.elements weights profile.toCandidateProfile parts
    let completeness := Assessments.CandidateProfileService.completenessOf elements
    let _ ← ProfileRepository.save .calculateCompleteness profile
      { profile with completeness := completeness }
    let _ ← if profile.completeness ≠ completeness then reindex profile.userId else pure ()
    return ⟨completeness, completeness ≥ weights.threshold,
      Assessments.CandidateProfileService.missingOf elements⟩

/-- The row of a new profile, with the defaults of the columns. -/
def newProfile (uuid userId : Id) (time : Micros) : CandidateProfile where
  toCandidateProfile := Assessments.CandidateProfileService.newProfile uuid userId
  location := none
  schoolVerified := false
  moderationStatus := .active
  availability := none
  mobility := none
  salaryCurrency := "MAD"
  salaryVisible := true
  createdAt := time
  updatedAt := time

/-- The constraint that the new profile `p` would violate. -/
def profileViolation (p : CandidateProfile) (db : Db) : Option String :=
  if (db.profiles.get? p.id).isSome then some "PK_candidate_profiles"
  else if (db.profileOf p.userId).isSome then some "UQ_candidate_profiles_user_id"
  else none

def createProfile (uuid userId : Id) : M CandidateProfile :=
  insertUnique profileViolation (newProfile uuid userId) .insertProfile

def findOrCreateProfile (uuid userId : Id) : M CandidateProfile := do
  match ← ProfileRepository.findByUserId userId with
  | some existing => return existing
  | none => createProfile uuid userId

/-- `Object.assign(profile, data)`. -/
def assigned (p : CandidateProfile) (data : UpdateProfileDto) : CandidateProfile :=
  { p with
    toCandidateProfile := Assessments.CandidateProfileService.assigned p.toCandidateProfile
      data.toUpdateProfileDto
    location := data.location.orElse fun _ => p.location
    availability := data.availability.orElse fun _ => p.availability
    mobility := data.mobility.orElse fun _ => p.mobility
    salaryCurrency := data.salaryCurrency.getD p.salaryCurrency
    salaryVisible := data.salaryVisible.getD p.salaryVisible }

/-- A profile becomes visible only once it is indexed and has a diploma. -/
def checkVisibility (p : CandidateProfile) (visibility : Option ProfileVisibility) : M Unit := do
  if visibility = none ∨ visibility = some .hidden then return ()
  else if ¬ p.indexedInCvtheque then
    throw (.forbidden "Votre profil doit être évalué et publiable avant de devenir visible.")
  else
    let diploma ← select fun db => db.documents.rows.any fun d =>
      d.ownerId = p.userId && d.type = .diploma
    if diploma then return ()
    else throw (.forbidden
      "Vous devez téléverser un justificatif d'école avant de rendre votre profil visible.")

def updateProfile (profileId : Id) (data : UpdateProfileDto) : M CandidateProfile := do
  match ← ProfileRepository.findById profileId with
  | none => throw (.notFound "Profile not found")
  | some profile =>
    if Assessments.CandidateProfileService.incoherentRange
        (data.salaryMin.orElse fun _ => profile.salaryMin)
        (data.salaryMax.orElse fun _ => profile.salaryMax) then
      throw (.badRequest "Le salaire minimum ne peut pas dépasser le salaire maximum.")
    else
      checkVisibility profile data.visibility
      let saved ← ProfileRepository.save (.updateProfile data.visibility) profile
        (assigned profile data)
      let _ ← calculateCompleteness profileId
      return saved

end CandidateProfileService

namespace CandidateSkillService

def skillViolation (s : ProfileSkill) (db : Db) : Option String :=
  if (db.profileSkills.get? s.id).isSome then some "PK_profile_skills"
  else if db.profileSkills.rows.any fun r => r.profileId = s.profileId && r.skillId = s.skillId then
    some "UQ_profile_skills_profile_skill"
  else none

def add (uuid userId : Id) (dto : AddProfileSkillDto) : M ProfileSkill := do
  let profile ← CandidateProfileService.findOrCreateProfile uuid userId
  match ← select fun db => (db.skills.get? dto.skillId).filter (·.active) with
  | none => throw (.notFound "Skill not found")
  | some skill =>
    let saved ← (insertUnique skillViolation (fun _ => ⟨uuid, profile.id, skill.id, dto.level⟩)
      .insertProfileSkill).mapError Assessments.CandidateSkillService.addError
    let _ ← CandidateProfileService.calculateCompleteness profile.id
    return saved

/-- `delete({ id, profileId })`, and 404 when no row matches. -/
def deleteOwn (profileId profileSkillId : Id) : M Unit :=
  query fun db =>
    match db.profileSkills.get? profileSkillId with
    | none => .error (.notFound "Skill entry not found")
    | some row =>
      if row.profileId = profileId then .ok ([.deleteProfileSkill profileSkillId], ())
      else .error (.notFound "Skill entry not found")

def remove (uuid userId profileSkillId : Id) : M Unit := do
  let profile ← CandidateProfileService.findOrCreateProfile uuid userId
  deleteOwn profile.id profileSkillId
  let _ ← CandidateProfileService.calculateCompleteness profile.id
  return ()

end CandidateSkillService

/-! ## Moderation -/

namespace ProfileModerationStatus

def toString : ProfileModerationStatus → String
  | active => "active"
  | suspended => "suspended"

end ProfileModerationStatus

structure ModeratedProfileView where
  id : Id
  firstName : Option String
  lastName : Option String
  headline : Option String
  visibility : ProfileVisibility
  moderationStatus : ProfileModerationStatus
  createdAt : Time
  deriving DecidableEq, Repr

namespace ProfileModerationService

def toView (p : CandidateProfile) : ModeratedProfileView :=
  ⟨p.id, p.firstName, p.lastName, p.headline, p.visibility, p.moderationStatus,
    toDate p.createdAt⟩

/-- Suspending also hides the profile. -/
def moderated (p : CandidateProfile) (status : ProfileModerationStatus) : CandidateProfile :=
  match status with
  | .suspended => { p with moderationStatus := .suspended, visibility := .hidden }
  | .active => { p with moderationStatus := .active }

def setModeration (profileId : Id) (status : ProfileModerationStatus) (moderatorUserId : Id) :
    M ModeratedProfileView := do
  match ← ProfileRepository.findById profileId with
  | none => throw (.notFound "Candidate profile not found")
  | some profile =>
    let saved ← ProfileRepository.save (.setModeration status) profile (moderated profile status)
    AuditService.log ⟨some moderatorUserId, .moderationAction, "candidate_profile", profile.id,
      [("kind", .str "profile_moderation"), ("status", .str status.toString)]⟩
    return toView saved

end ProfileModerationService

/-! ## School verification -/

namespace SchoolVerificationService

/-- `UPDATE ... WHERE id = :id AND status = 'pending'`: the number of rows it affects. -/
def decide (id adminUserId : Id) (note : Option String) (status : SchoolVerificationStatus)
    (time : Time) : M Nat :=
  query fun db =>
    match db.schoolVerifications.get? id with
    | none => .ok ([], 0)
    | some v =>
      if v.status = .pending then .ok ([.decideVerification id status adminUserId time note], 1)
      else .ok ([], 0)

def claimPendingDecision (id adminUserId : Id) (note : Option String)
    (status : SchoolVerificationStatus) : M SchoolVerification := do
  let time ← now
  let affected ← decide id adminUserId note status time
  if affected = 0 then
    match ← select fun db => db.schoolVerifications.get? id with
    | none => throw (.notFound "School verification not found")
    | some _ => throw (.conflict "This submission has already been reviewed")
  else
    match ← select fun db => db.schoolVerifications.get? id with
    | none => throw (.entityNotFound "SchoolVerification")
    | some verification => return verification

def approve (id adminUserId : Id) (note : Option String) : M SchoolVerification := do
  let verification ← claimPendingDecision id adminUserId note .verified
  write fun _ => [.approveSchool verification.candidateProfileId (truthy verification.matchedSchool)]
  return verification

def reject (id adminUserId : Id) (note : Option String) : M SchoolVerification :=
  claimPendingDecision id adminUserId note .rejected

end SchoolVerificationService

/-! ## The shortlist -/

/-- `subscriptionGuard.assertActiveSubscription`. -/
def assertActiveSubscription (config : Config) (callerId : Id) : M Id :=
  (SubscriptionGuardService.assertActiveSubscription config callerId).zoom Db.contacts .base

namespace ShortlistService

def findEntry (companyId candidateProfileId : Id) (db : Db) : Option ShortlistEntry :=
  db.shortlistEntries.rows.find? fun e =>
    e.companyId == companyId && e.candidateProfileId == candidateProfileId

/-- The constraint that the new entry `e` would violate. -/
def entryViolation (e : ShortlistEntry) (db : Db) : Option String :=
  if (db.shortlistEntries.get? e.id).isSome then some "PK_shortlist_entries"
  else if (findEntry e.companyId e.candidateProfileId db).isSome then
    some "UQ_shortlist_entries_company_candidate"
  else none

def addEntry (config : Config) (uuid callerId : Id) (dto : AddShortlistEntryDto) :
    M ShortlistEntry := do
  let companyId ← assertActiveSubscription config callerId
  match ← ProfileRepository.findById dto.candidateProfileId with
  | none => throw (.notFound "Candidate profile not found")
  | some profile =>
    if ¬ profile.indexedInCvtheque ∨ profile.visibility = .hidden then
      throw (.notFound "Candidate profile not found")
    else
      match ← select (findEntry companyId dto.candidateProfileId) with
      | some _ => throw (.conflict "This candidate is already in your shortlist")
      | none =>
        let entry ← insertUnique entryViolation
          (fun time => ⟨uuid, companyId, dto.candidateProfileId, callerId, dto.note, time⟩)
          .insertShortlistEntry
        AuditService.log ⟨some callerId, .shortlistEntryAdded, "shortlist_entry", entry.id,
          [("companyId", .id companyId), ("candidateProfileId", .id dto.candidateProfileId)]⟩
        return entry

end ShortlistService

end JobBoard.Cvtheque
