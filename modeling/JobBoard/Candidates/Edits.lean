import JobBoard.Candidates.Requests

/-!
# Edits of a profile

What a candidate changes about a profile: its fields, its skills, its experiences, its links
and its CV. `CandidateExperienceService`, `CandidateLinkService` and
`CandidateDocumentService` write their rows and end with
`CandidateProfileService.calculateCompleteness`. The school of a profile is also changed by
`SchoolVerificationService`. The programs of the school verifications run on the same database
here, with the rows of the experiences and the links.
-/

set_option autoImplicit false

namespace JobBoard.Candidates.Edits

open Txn Prog
open Cvtheque (ProfileLink Experience Document Day ExperienceType LinkType
  UpdateProfileDto SchoolVerification)
open Messaging.ConversationService (ScanResult)

/-! ## The database -/

/-- `entity` is the row to be saved, `reread` the row that its `save` has read again. -/
inductive Write where
  | schools (w : Candidates.Write)
  | insertExperience (e : Experience)
  | saveExperience (entity reread : Experience)
  | deleteExperience (id : Id)
  | insertLink (l : ProfileLink)
  | deleteLink (id : Id)
  deriving DecidableEq, Repr

inductive Key where
  | schools (k : Candidates.Key)
  | experience (id : Id)
  | link (id : Id)
  deriving DecidableEq, Repr

def overwrite (entity reread row : Experience) : Experience :=
  { row with
    type := setColumn entity.type reread.type row.type
    title := setColumn entity.title reread.title row.title
    organization := setColumn entity.organization reread.organization row.organization
    startDate := setColumn entity.startDate reread.startDate row.startDate
    endDate := setColumn entity.endDate reread.endDate row.endDate
    description := setColumn entity.description reread.description row.description }

def Write.apply (db : Db) : Write → Db
  | schools w => Candidates.store.apply db w
  | insertExperience e =>
    { db with cvtheque := { db.cvtheque with experiences := db.cvtheque.experiences.insert e } }
  | saveExperience entity reread =>
    { db with
      cvtheque := { db.cvtheque with
        experiences := db.cvtheque.experiences.modify entity.id (overwrite entity reread)
          (fun _ => rfl) } }
  | deleteExperience id =>
    { db with cvtheque := { db.cvtheque with experiences := db.cvtheque.experiences.delete id } }
  | insertLink l => { db with cvtheque := { db.cvtheque with links := db.cvtheque.links.insert l } }
  | deleteLink id =>
    { db with cvtheque := { db.cvtheque with links := db.cvtheque.links.delete id } }

def Write.keys : Write → List Key
  | schools w => (Candidates.store.keys w).map .schools
  | insertExperience e => [.experience e.id]
  | saveExperience e _ => [.experience e.id]
  | deleteExperience id => [.experience id]
  | insertLink l => [.link l.id]
  | deleteLink id => [.link id]

def store : Store Db Write Key := ⟨Write.apply, Write.keys⟩

/-- A service method: a program over `Db`. -/
abbrev M (α : Type) := Prog Db Write Error α

/-- A method of the school verifications. -/
def inSchools {α : Type} (p : Candidates.M α) : M α := p.zoom id .schools

/-- A method of the CVthèque. -/
def inCvtheque {α : Type} (p : Cvtheque.M α) : M α := inSchools (Candidates.inCvtheque p)

/-- An `INSERT` of the row; it fails with 23505 when the constraint `pk` is `violated`. -/
def insertNew {α : Type} (violated : Db → Bool) (pk : String) (w : Write) (row : α) : M α :=
  query fun db => if violated db then .error (uniqueViolation pk) else .ok ([w], row)

/-- `delete({ id, profileId })`, and 404 when no row matches. -/
def deleteOwn {β : Type} (find : Db → Option β) (owner : β → Id) (profileId : Id) (w : Write)
    (message : String) : M Unit :=
  query fun db =>
    match find db with
    | none => .error (.notFound message)
    | some row => if owner row = profileId then .ok ([w], ()) else .error (.notFound message)

/-- `profileService.findOrCreateProfile`. -/
def findOrCreateProfile (uuid userId : Id) : M Cvtheque.CandidateProfile :=
  inCvtheque (Cvtheque.CandidateProfileService.findOrCreateProfile uuid userId)

/-- `profileService.calculateCompleteness`. -/
def calculateCompleteness (profileId : Id) : M Assessments.CompletenessResult :=
  inCvtheque (Cvtheque.CandidateProfileService.calculateCompleteness profileId)

/-! ## The profile -/

namespace CandidateProfileController

def updateMyProfile (uuid userId : Id) (dto : UpdateProfileDto) :
    M (Cvtheque.CandidateProfile × Assessments.CompletenessResult) := do
  let profile ← findOrCreateProfile uuid userId
  let updated ← inCvtheque (Cvtheque.CandidateProfileService.updateProfile profile.id dto)
  let completeness ← calculateCompleteness updated.id
  return (updated, completeness)

end CandidateProfileController

/-! ## Experiences -/

structure CreateExperienceDto where
  type : ExperienceType
  title : String
  organization : String
  startDate : Day
  endDate : Option Day
  description : Option String
  deriving DecidableEq, Repr

structure UpdateExperienceDto where
  type : Option ExperienceType
  title : Option String
  organization : Option String
  startDate : Option Day
  endDate : Option Day
  description : Option String
  deriving DecidableEq, Repr

namespace CandidateExperienceService

def insertExperience (e : Experience) : M Experience :=
  insertNew (fun db => (db.cvtheque.experiences.get? e.id).isSome) "PK_experiences"
    (.insertExperience e) e

def newExperience (uuid profileId : Id) (dto : CreateExperienceDto) : Experience where
  id := uuid
  profileId := profileId
  title := dto.title
  type := dto.type
  organization := dto.organization
  startDate := dto.startDate
  endDate := dto.endDate
  description := dto.description

def create (uuid userId : Id) (dto : CreateExperienceDto) : M Experience := do
  let profile ← findOrCreateProfile uuid userId
  let saved ← insertExperience (newExperience uuid profile.id dto)
  let _ ← calculateCompleteness profile.id
  return saved

/-- `Object.assign(experience, ...)` with the fields that are given. -/
def assigned (e : Experience) (dto : UpdateExperienceDto) : Experience :=
  { e with
    type := dto.type.getD e.type
    title := dto.title.getD e.title
    organization := dto.organization.getD e.organization
    startDate := dto.startDate.getD e.startDate
    endDate := dto.endDate.orElse fun _ => e.endDate
    description := dto.description.orElse fun _ => e.description }

/-- `save(entity)` of a row that was loaded. One that was removed since is inserted again. -/
def save (entity : Experience) : M Experience := do
  match ← select fun db => db.cvtheque.experiences.get? entity.id with
  | none => insertExperience entity
  | some reread =>
    if overwrite entity reread reread = reread then return entity
    else
      write fun _ => [.saveExperience entity reread]
      return entity

def update (uuid userId experienceId : Id) (dto : UpdateExperienceDto) : M Experience := do
  let profile ← findOrCreateProfile uuid userId
  match ← select fun db =>
      (db.cvtheque.experiences.get? experienceId).filter (·.profileId = profile.id) with
  | none => throw (.notFound "Experience not found")
  | some experience =>
    let saved ← save (assigned experience dto)
    let _ ← calculateCompleteness profile.id
    return saved

def remove (uuid userId experienceId : Id) : M Unit := do
  let profile ← findOrCreateProfile uuid userId
  deleteOwn (fun db => db.cvtheque.experiences.get? experienceId) (·.profileId) profile.id
    (.deleteExperience experienceId) "Experience not found"
  let _ ← calculateCompleteness profile.id
  return ()

end CandidateExperienceService

/-! ## Links -/

structure CreateProfileLinkDto where
  type : LinkType
  url : String
  label : Option String
  deriving DecidableEq, Repr

namespace CandidateLinkService

def newLink (uuid profileId : Id) (dto : CreateProfileLinkDto) : ProfileLink where
  id := uuid
  profileId := profileId
  url := dto.url
  type := dto.type
  label := dto.label

def insertLink (l : ProfileLink) : M ProfileLink :=
  insertNew (fun db => (db.cvtheque.links.get? l.id).isSome) "PK_profile_links" (.insertLink l) l

def create (uuid userId : Id) (dto : CreateProfileLinkDto) : M ProfileLink := do
  let profile ← findOrCreateProfile uuid userId
  let saved ← insertLink (newLink uuid profile.id dto)
  let _ ← calculateCompleteness profile.id
  return saved

def remove (uuid userId linkId : Id) : M Unit := do
  let profile ← findOrCreateProfile uuid userId
  deleteOwn (fun db => db.cvtheque.links.get? linkId) (·.profileId) profile.id
    (.deleteLink linkId) "Link not found"
  let _ ← calculateCompleteness profile.id
  return ()

end CandidateLinkService

/-! ## The CV -/

namespace CandidateDocumentService

open Erasure.CandidateDocumentService (cvRule cvKey)

def findCV (userId : Id) : M (Option Document) :=
  select fun db => db.cvtheque.documents.rows.find? fun d => d.ownerId = userId && d.type = .cv

/-- The object first, then the row. -/
def removeDocument (doc : Document) : M Unit := do
  write fun _ => [.schools (.deleteObject doc.storageKey)]
  write fun _ => [.schools (.deleteDocument doc.id)]

/-- The completeness of the profile of the user, if there is one. -/
def refresh (userId : Id) : M Unit := do
  match ← inCvtheque (Cvtheque.ProfileRepository.findByUserId userId) with
  | none => return ()
  | some profile =>
    let _ ← calculateCompleteness profile.id
    return ()

def uploadCV (uuid userId : Id) (file : UploadedFile) (scan : ScanResult) : M Document := do
  inSchools (checkUpload cvRule file scan)
  write fun _ => [.schools (.putObject (cvKey uuid userId file))]
  match ← findCV userId with
  | none => ret ()
  | some existingCV => removeDocument existingCV
  let saved ← inSchools (insertDocument
    { id := uuid
      ownerId := userId
      type := .cv
      storageKey := cvKey uuid userId file
      originalName := file.originalname
      mimeType := file.mimetype
      size := file.size
      scanStatus := .clean })
  refresh userId
  return saved

def deleteCV (userId : Id) : M Unit := do
  match ← findCV userId with
  | none => throw (.notFound "CV not found")
  | some doc =>
    removeDocument doc
    refresh userId

end CandidateDocumentService

/-! ## The operations -/

/-- The operations that change what the completeness of a profile is made of. -/
inductive Op where
  | updateMyProfile (userId : Id) (dto : UpdateProfileDto)
  | updateProfile (profileId : Id) (data : UpdateProfileDto)
  | addSkill (userId : Id) (dto : Assessments.AddProfileSkillDto)
  | removeSkill (userId profileSkillId : Id)
  | createExperience (userId : Id) (dto : CreateExperienceDto)
  | updateExperience (userId experienceId : Id) (dto : UpdateExperienceDto)
  | removeExperience (userId experienceId : Id)
  | createLink (userId : Id) (dto : CreateProfileLinkDto)
  | removeLink (userId linkId : Id)
  | uploadCV (userId : Id) (file : UploadedFile) (scan : ScanResult)
  | deleteCV (userId : Id)
  | submit (userId : Id) (file : UploadedFile) (scan : ScanResult) (ocr : OcrExtractionResult)
  | approve (id adminUserId : Id) (note : Option String)
  deriving DecidableEq, Repr

inductive Result where
  | unit
  | profile (p : Cvtheque.CandidateProfile)
  | profileWith (p : Cvtheque.CandidateProfile) (c : Assessments.CompletenessResult)
  | skill (s : Assessments.ProfileSkill)
  | experience (e : Experience)
  | link (l : ProfileLink)
  | document (d : Document)
  | verification (v : SchoolVerification)
  deriving DecidableEq, Repr

def program (env : Environment) (uuid : Id) : Op → M Result
  | .updateMyProfile userId dto => do
    let (profile, completeness) ← CandidateProfileController.updateMyProfile uuid userId dto
    return .profileWith profile completeness
  | .updateProfile profileId data => do
    return .profile
      (← inCvtheque (Cvtheque.CandidateProfileService.updateProfile profileId data))
  | .addSkill userId dto => do
    return .skill (← inCvtheque (Cvtheque.CandidateSkillService.add uuid userId dto))
  | .removeSkill userId profileSkillId => do
    inCvtheque (Cvtheque.CandidateSkillService.remove uuid userId profileSkillId)
    return .unit
  | .createExperience userId dto => do
    return .experience (← CandidateExperienceService.create uuid userId dto)
  | .updateExperience userId experienceId dto => do
    return .experience (← CandidateExperienceService.update uuid userId experienceId dto)
  | .removeExperience userId experienceId => do
    CandidateExperienceService.remove uuid userId experienceId
    return .unit
  | .createLink userId dto => do
    return .link (← CandidateLinkService.create uuid userId dto)
  | .removeLink userId linkId => do
    CandidateLinkService.remove uuid userId linkId
    return .unit
  | .uploadCV userId file scan => do
    return .document (← CandidateDocumentService.uploadCV uuid userId file scan)
  | .deleteCV userId => do
    CandidateDocumentService.deleteCV userId
    return .unit
  | .submit userId file scan ocr => do
    return .verification
      (← inSchools (SchoolVerificationService.submit env uuid userId file scan ocr))
  | .approve id adminUserId note => do
    return .verification (← inSchools (SchoolVerificationService.approve id adminUserId note))

end JobBoard.Candidates.Edits
