import JobBoard.Assessments.Scoring

/-!
# Candidate profiles

`CandidateProfileService` with the calls that edit a profile, its skills, its
experiences, its links and its CV: each ends with `calculateCompleteness`, which
re-applies the thresholds of the indexation when the completeness changed. Last the
daily recalculation of the percentiles.
-/

set_option autoImplicit false

namespace JobBoard.Assessments

open Txn Prog

/-! ## Completeness -/

structure CompletenessWeights where
  identity : Int
  experience : Int
  skills : Int
  cv : Int
  links : Int
  school : Int
  threshold : Int
  minSkills : Int
  deriving DecidableEq, Repr

structure MissingElement where
  key : String
  label : String
  weight : Int
  deriving DecidableEq, Repr

structure CompletenessResult where
  completeness : Int
  isPublishable : Bool
  missing : List MissingElement
  deriving DecidableEq, Repr

namespace Settings

def loadWeights (s : Settings) : CompletenessWeights where
  identity := (s.getNumber "completeness_weight_identity").getD 15
  experience := (s.getNumber "completeness_weight_experience").getD 20
  skills := (s.getNumber "completeness_weight_skills").getD 20
  cv := (s.getNumber "completeness_weight_cv").getD 15
  links := (s.getNumber "completeness_weight_links").getD 15
  school := (s.getNumber "completeness_weight_school").getD 15
  threshold := (s.getNumber "completeness_threshold_publishable").getD 70
  minSkills := (s.getNumber "completeness_min_skills").getD 5

end Settings

/-- What a profile is made of besides its own row. -/
structure ProfileParts where
  experienceCount : Nat
  skillCount : Nat
  hasCv : Bool
  linkCount : Nat
  deriving DecidableEq, Repr

namespace CandidateProfileService

def hasIdentity (p : CandidateProfile) : Bool :=
  (truthy p.firstName).isSome && (truthy p.lastName).isSome && (truthy p.headline).isSome &&
    (truthy p.bio).isSome

/-- The elements of a profile, and whether it has them. -/
def elements (weights : CompletenessWeights) (p : CandidateProfile) (parts : ProfileParts) :
    List (MissingElement × Bool) :=
  [(⟨"identity", "Identité + headline + bio", weights.identity⟩, hasIdentity p),
    (⟨"experience", ">= 1 expérience ou formation", weights.experience⟩,
      parts.experienceCount ≥ 1),
    (⟨"skills", ">= " ++ toString weights.minSkills ++ " compétences", weights.skills⟩,
      parts.skillCount ≥ weights.minSkills),
    (⟨"cv", "CV téléversé (scanné OK)", weights.cv⟩, parts.hasCv),
    (⟨"links", ">= 1 lien externe", weights.links⟩, parts.linkCount ≥ 1),
    (⟨"school", "École", weights.school⟩, (truthy p.school).isSome)]

def completenessOf (elements : List (MissingElement × Bool)) : Int :=
  ((elements.filter (·.2)).map (·.1.weight)).sum

def missingOf (elements : List (MissingElement × Bool)) : List MissingElement :=
  (elements.filter fun e => ¬ e.2).map (·.1)

/-- Re-apply the thresholds; an error is caught, and changes nothing. -/
def reindex (userId : Id) : M Unit :=
  transaction (IndexationService.applyThresholds userId) (fun _ => ret ()) ret

def loadParts (p : CandidateProfile) : M ProfileParts := do
  let experienceCount ← select fun db => db.experiences.rows.countP (·.profileId = p.id)
  let skillCount ← select fun db => db.profileSkills.rows.countP (·.profileId = p.id)
  let hasCv ← select fun db => db.documents.rows.any fun d =>
    d.ownerId = p.userId && d.type = .cv && d.scanStatus = .clean
  let linkCount ← select fun db => db.links.rows.countP (·.profileId = p.id)
  return ⟨experienceCount, skillCount, hasCv, linkCount⟩

def calculateCompleteness (profileId : Id) : M CompletenessResult := do
  match ← ProfileRepository.findById profileId with
  | none => throw (.notFound "Profile not found")
  | some profile =>
    let weights ← select fun db => db.settings.loadWeights
    let parts ← loadParts profile
    let elements := elements weights profile parts
    let completeness := completenessOf elements
    let _ ← ProfileRepository.save { profile with completeness := completeness }
    let _ ← if profile.completeness ≠ completeness then reindex profile.userId else pure ()
    return ⟨completeness, completeness ≥ weights.threshold, missingOf elements⟩

/-- The row of a new profile, with the defaults of the columns. -/
def newProfile (uuid userId : Id) : CandidateProfile where
  id := uuid
  userId := userId
  firstName := none
  lastName := none
  headline := none
  bio := none
  school := none
  visibility := .hidden
  salaryMin := none
  salaryMax := none
  completeness := 0
  indexedInCvtheque := false
  featured := false

/-- The constraint that the new profile `p` would violate. -/
def profileViolation (p : CandidateProfile) (db : Db) : Option String :=
  if (db.profiles.get? p.id).isSome then some "PK_candidate_profiles"
  else if (db.profileOf p.userId).isSome then some "UQ_candidate_profiles_user_id"
  else none

def createProfile (uuid userId : Id) : M CandidateProfile :=
  insertUnique (profileViolation (newProfile uuid userId))
    (.insertProfile (newProfile uuid userId)) (newProfile uuid userId)

def findOrCreateProfile (uuid userId : Id) : M CandidateProfile := do
  match ← ProfileRepository.findByUserId userId with
  | some existing => return existing
  | none => createProfile uuid userId

/-- `Object.assign(profile, data)`. -/
def assigned (p : CandidateProfile) (data : UpdateProfileDto) : CandidateProfile :=
  { p with
    firstName := data.firstName.orElse fun _ => p.firstName
    lastName := data.lastName.orElse fun _ => p.lastName
    headline := data.headline.orElse fun _ => p.headline
    bio := data.bio.orElse fun _ => p.bio
    school := data.school.orElse fun _ => p.school
    visibility := data.visibility.getD p.visibility
    salaryMin := data.salaryMin.orElse fun _ => p.salaryMin
    salaryMax := data.salaryMax.orElse fun _ => p.salaryMax }

def incoherentRange (min max : Option Int) : Bool :=
  match min, max with
  | some min, some max => min > max
  | _, _ => false

/-- A profile becomes visible only once it is indexed and has a diploma. -/
def checkVisibility (p : CandidateProfile) (visibility : Option ProfileVisibility) : M Unit := do
  if visibility = none ∨ visibility = some .hidden then return ()
  else if ¬ p.indexedInCvtheque then
    throw (.forbidden "Votre profil doit être évalué et publiable avant de devenir visible.")
  else
    let diploma ← select fun db => db.documents.rows.any fun d =>
      d.ownerId = p.userId && d.type = .diploma
    if diploma then return ()
    else throw (.forbidden
      "Vous devez téléverser un justificatif d'école avant de rendre votre profil visible.")

def updateProfile (profileId : Id) (data : UpdateProfileDto) : M CandidateProfile := do
  match ← ProfileRepository.findById profileId with
  | none => throw (.notFound "Profile not found")
  | some profile =>
    if incoherentRange (data.salaryMin.orElse fun _ => profile.salaryMin)
        (data.salaryMax.orElse fun _ => profile.salaryMax) then
      throw (.badRequest "Le salaire minimum ne peut pas dépasser le salaire maximum.")
    else
      checkVisibility profile data.visibility
      let saved ← ProfileRepository.save (assigned profile data)
      let _ ← calculateCompleteness profileId
      return saved

end CandidateProfileService

namespace CandidateProfileController

def getMyProfile (uuid userId : Id) : M (CandidateProfile × CompletenessResult) := do
  let profile ← CandidateProfileService.findOrCreateProfile uuid userId
  let completeness ← CandidateProfileService.calculateCompleteness profile.id
  return (profile, completeness)

def updateMyProfile (uuid userId : Id) (dto : UpdateProfileDto) :
    M (CandidateProfile × CompletenessResult) := do
  let profile ← CandidateProfileService.findOrCreateProfile uuid userId
  let updated ← CandidateProfileService.updateProfile profile.id dto
  let completeness ← CandidateProfileService.calculateCompleteness updated.id
  return (updated, completeness)

def getCompleteness (userId : Id) : M CompletenessResult := do
  match ← ProfileRepository.findByUserId userId with
  | none => throw (.notFound "Profile not found")
  | some profile => CandidateProfileService.calculateCompleteness profile.id

end CandidateProfileController

/-! ## Skills, experiences and links -/

/-- `delete({ id, profileId })`, and 404 when no row matches. -/
def deleteOwn {β : Type} (find : Db → Option β) (owner : β → Id) (profileId : Id) (w : Write)
    (message : String) : M Unit :=
  query fun db =>
    match find db with
    | none => .error (.notFound message)
    | some row => if owner row = profileId then .ok ([w], ()) else .error (.notFound message)

namespace CandidateSkillService

def skillViolation (s : ProfileSkill) (db : Db) : Option String :=
  if (db.profileSkills.get? s.id).isSome then some "PK_profile_skills"
  else if db.profileSkills.rows.any fun r => r.profileId = s.profileId && r.skillId = s.skillId then
    some "UQ_profile_skills_profile_skill"
  else none

/-- A unique violation means that the profile has the skill. -/
def addError : Error → Error
  | .queryFailed code constraint =>
    if code = POSTGRES_UNIQUE_VIOLATION then .conflict "Skill already added to this profile"
    else .queryFailed code constraint
  | e => e

def add (uuid userId : Id) (dto : AddProfileSkillDto) : M ProfileSkill := do
  let profile ← CandidateProfileService.findOrCreateProfile uuid userId
  match ← select fun db => (db.skills.get? dto.skillId).filter (·.active) with
  | none => throw (.notFound "Skill not found")
  | some skill =>
    let entry : ProfileSkill := ⟨uuid, profile.id, skill.id, dto.level⟩
    let saved ← (insertUnique (skillViolation entry) (.insertProfileSkill entry) entry).mapError
      addError
    let _ ← CandidateProfileService.calculateCompleteness profile.id
    return saved

def remove (uuid userId profileSkillId : Id) : M Unit := do
  let profile ← CandidateProfileService.findOrCreateProfile uuid userId
  deleteOwn (fun db => db.profileSkills.get? profileSkillId) (·.profileId) profile.id
    (.deleteProfileSkill profileSkillId) "Skill entry not found"
  let _ ← CandidateProfileService.calculateCompleteness profile.id
  return ()

end CandidateSkillService

namespace CandidateExperienceService

def create (uuid userId : Id) (title : String) : M Experience := do
  let profile ← CandidateProfileService.findOrCreateProfile uuid userId
  let experience : Experience := ⟨uuid, profile.id, title⟩
  let saved ← insertUnique
    (fun db => if (db.experiences.get? uuid).isSome then some "PK_experiences" else none)
    (.insertExperience experience) experience
  let _ ← CandidateProfileService.calculateCompleteness profile.id
  return saved

def update (uuid userId experienceId : Id) (title : Option String) : M Experience := do
  let profile ← CandidateProfileService.findOrCreateProfile uuid userId
  match ← select fun db =>
      (db.experiences.get? experienceId).filter (·.profileId = profile.id) with
  | none => throw (.notFound "Experience not found")
  | some experience =>
    let saved := { experience with title := title.getD experience.title }
    let _ ← if saved = experience then pure () else write fun _ => [.saveExperience saved]
    let _ ← CandidateProfileService.calculateCompleteness profile.id
    return saved

def remove (uuid userId experienceId : Id) : M Unit := do
  let profile ← CandidateProfileService.findOrCreateProfile uuid userId
  deleteOwn (fun db => db.experiences.get? experienceId) (·.profileId) profile.id
    (.deleteExperience experienceId) "Experience not found"
  let _ ← CandidateProfileService.calculateCompleteness profile.id
  return ()

end CandidateExperienceService

namespace CandidateLinkService

def create (uuid userId : Id) (url : String) : M ProfileLink := do
  let profile ← CandidateProfileService.findOrCreateProfile uuid userId
  let link : ProfileLink := ⟨uuid, profile.id, url⟩
  let saved ← insertUnique
    (fun db => if (db.links.get? uuid).isSome then some "PK_profile_links" else none)
    (.insertLink link) link
  let _ ← CandidateProfileService.calculateCompleteness profile.id
  return saved

def remove (uuid userId linkId : Id) : M Unit := do
  let profile ← CandidateProfileService.findOrCreateProfile uuid userId
  deleteOwn (fun db => db.links.get? linkId) (·.profileId) profile.id (.deleteLink linkId)
    "Link not found"
  let _ ← CandidateProfileService.calculateCompleteness profile.id
  return ()

end CandidateLinkService

/-! ## The CV -/

structure UploadedFile where
  originalname : String
  mimetype : String
  size : Nat
  deriving DecidableEq, Repr

namespace CandidateDocumentService

def DEFAULT_MAX_SIZE : Int := 5 * 1024 * 1024

def DEFAULT_ALLOWED_TYPES : String :=
  "application/pdf,application/vnd.openxmlformats-officedocument.wordprocessingml.document"

/-- `str.split(',').map((t) => t.trim())`. -/
def allowedTypes (s : String) : List String := (s.splitOn ",").map trim

def checkFile (file : UploadedFile) (threat : Option String) : M Unit := do
  if file.size = 0 then throw (.badRequest "Le fichier est vide")
  else
    let maxSize := (← getNumber "cv_max_size_bytes").getD DEFAULT_MAX_SIZE
    if file.size > maxSize then
      throw (.badRequest ("Le fichier dépasse la taille maximale de " ++
        toString (mathRound maxSize (1024 * 1024)) ++ " Mo"))
    else
      let types := (← select fun db => db.settings.get "cv_allowed_mime_types").getD
        DEFAULT_ALLOWED_TYPES
      if file.mimetype ∉ allowedTypes types then
        throw (.badRequest "Type de fichier non autorisé. Types acceptés : PDF, DOCX")
      else
        -- `fileScanner.scan`
        outside fun _ => []
        match threat with
        | some threat =>
          throw (.badRequest ("Fichier rejeté : menace détectée (" ++ threat ++ ")"))
        | none => return ()

def findCV (userId : Id) : M (Option Document) :=
  select fun db => db.documents.rows.find? fun d => d.ownerId = userId && d.type = .cv

/-- The completeness of the profile of the user, if there is one. -/
def refresh (userId : Id) : M Unit := do
  match ← ProfileRepository.findByUserId userId with
  | none => return ()
  | some profile =>
    let _ ← CandidateProfileService.calculateCompleteness profile.id
    return ()

def uploadCV (uuid userId : Id) (file : UploadedFile) (threat : Option String) : M Document := do
  checkFile file threat
  -- `objectStorage.upload`
  outside fun _ => []
  let _ ← match ← findCV userId with
    | none => pure ()
    | some existingCV => do
      -- `objectStorage.delete`
      outside fun _ => []
      write fun _ => [.deleteDocument existingCV.id]
  let document : Document :=
    ⟨uuid, userId, .cv,
      "cv/" ++ toString userId ++ "/" ++ toString uuid ++ "-" ++ file.originalname, .clean⟩
  let saved ← insertUnique
    (fun db => if (db.documents.get? uuid).isSome then some "PK_documents" else none)
    (.insertDocument document) document
  refresh userId
  return saved

def deleteCV (userId : Id) : M Unit := do
  match ← findCV userId with
  | none => throw (.notFound "CV not found")
  | some doc =>
    outside fun _ => []
    write fun _ => [.deleteDocument doc.id]
    refresh userId

end CandidateDocumentService

/-! ## Percentiles -/

structure PercentileRecalcResult where
  cohortCount : Nat
  scoreCount : Nat
  updatedCount : Nat
  deriving DecidableEq, Repr

namespace PercentileRecalcService

/-- The active scores at `time`, each with the test of its attempt. -/
def activeScores (time : Time) (db : Db) : List (Score × Option Id) :=
  (db.scores.rows.filter (·.isValid time)).map fun s =>
    (s, (db.assessment? s.assessmentId).map (·.testId))

/-- `map.get(testId)?.push(score)`, or a new cohort at the end. -/
def place (cohorts : List (Id × List Score)) (testId : Id) (score : Score) :
    List (Id × List Score) :=
  match cohorts with
  | [] => [(testId, [score])]
  | (id, bucket) :: rest =>
    if id = testId then (id, bucket ++ [score]) :: rest else (id, bucket) :: place rest testId score

def groupByTest (scores : List (Score × Option Id)) : List (Id × List Score) :=
  scores.foldl (fun cohorts s =>
    match s.2 with
    | none => cohorts
    | some testId => place cohorts testId s.1) []

/-- The share of the cohort below `value`, in hundredths of a point. `round2` adds
`Number.EPSILON`, which is `2 ^ -52`, before it rounds. -/
def percentileIn (cohort : List Score) (value : Int) : Int :=
  roundQuotient (10000 * 2 ^ 52 * cohort.countP (·.value < value) + 100 * cohort.length)
    (2 ^ 52 * cohort.length)

/-- The scores of the cohort in turn; those whose percentile is right are left alone. -/
def updateScores (cohort : List Score) : List Score → M Nat
  | [] => return 0
  | score :: rest => do
    if score.percentile = some (percentileIn cohort score.value) then updateScores cohort rest
    else
      write fun _ => [.updatePercentile score.id (percentileIn cohort score.value)]
      return (← updateScores cohort rest) + 1

def recalculateCohort (cohort : List Score) : M Nat := updateScores cohort cohort

def recalculateCohorts : List (List Score) → M Nat
  | [] => return 0
  | cohort :: rest => do
    let updated ← recalculateCohort cohort
    return updated + (← recalculateCohorts rest)

def recalculate : M PercentileRecalcResult := do
  let time ← now
  let activeScores ← select (activeScores time)
  let cohorts := groupByTest activeScores
  let updatedCount ← recalculateCohorts (cohorts.map (·.2))
  return ⟨cohorts.length, activeScores.length, updatedCount⟩

end PercentileRecalcService

end JobBoard.Assessments
