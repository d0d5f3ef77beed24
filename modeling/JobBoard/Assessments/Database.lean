import JobBoard.Lib.Wp
import JobBoard.Lib.Table
import JobBoard.Assessments.Entities

/-!
# The database of the assessments

The tables that the assessment and candidate services share, the clock, the
settings and the audit trail. `Write.saveAssessment` and `Write.saveProfile` are
TypeORM's `save` of a loaded entity: it sets every column whose value in the entity
differs from the row that `save` re-read.
-/

set_option autoImplicit false

namespace JobBoard.Assessments

open Txn

/-- The settings table: `getNumber` and `get` of SettingsService. -/
structure Settings where
  getNumber : String → Option Int
  get : String → Option String

structure Db where
  now : Time
  settings : Settings
  specialties : Table Specialty.id
  tests : Table Test.id
  assessments : Table Assessment.id
  scores : Table Score.id
  profiles : Table CandidateProfile.id
  skills : Table Skill.id
  profileSkills : Table ProfileSkill.id
  experiences : Table Experience.id
  links : Table ProfileLink.id
  documents : Table Document.id
  auditLogs : List AuditLog

namespace Db

def empty : Db :=
  ⟨0, ⟨fun _ => none, fun _ => none⟩, ∅, ∅, ∅, ∅, ∅, ∅, ∅, ∅, ∅, ∅, []⟩

def assessment? (db : Db) (id : Id) : Option Assessment := db.assessments.get? id

/-- `scoreRepo.findOne({ where: { assessmentId } })`. -/
def scoreOf (db : Db) (assessmentId : Id) : Option Score :=
  db.scores.rows.find? (·.assessmentId == assessmentId)

/-- `profileRepo.findOne({ where: { userId } })`. -/
def profileOf (db : Db) (userId : Id) : Option CandidateProfile :=
  db.profiles.rows.find? (·.userId == userId)

end Db

/-- The row after the `UPDATE` of a `save`. The other columns are assigned at the
creation only. -/
def Assessment.overwrite (entity reread row : Assessment) : Assessment :=
  { row with
    status := setColumn entity.status reread.status row.status
    resumeToken := setColumn entity.resumeToken reread.resumeToken row.resumeToken
    completedAt := setColumn entity.completedAt reread.completedAt row.completedAt
    cooldownNotifiedAt := setColumn entity.cooldownNotifiedAt reread.cooldownNotifiedAt
      row.cooldownNotifiedAt
    tabSwitchCount := setColumn entity.tabSwitchCount reread.tabSwitchCount row.tabSwitchCount
    windowBlurCount := setColumn entity.windowBlurCount reread.windowBlurCount row.windowBlurCount
    proctoringFlagged := setColumn entity.proctoringFlagged reread.proctoringFlagged
      row.proctoringFlagged }

theorem Assessment.overwrite_id (entity reread row : Assessment) :
    (overwrite entity reread row).id = row.id := rfl

def CandidateProfile.overwrite (entity reread row : CandidateProfile) : CandidateProfile :=
  { row with
    firstName := setColumn entity.firstName reread.firstName row.firstName
    lastName := setColumn entity.lastName reread.lastName row.lastName
    headline := setColumn entity.headline reread.headline row.headline
    bio := setColumn entity.bio reread.bio row.bio
    school := setColumn entity.school reread.school row.school
    visibility := setColumn entity.visibility reread.visibility row.visibility
    salaryMin := setColumn entity.salaryMin reread.salaryMin row.salaryMin
    salaryMax := setColumn entity.salaryMax reread.salaryMax row.salaryMax
    completeness := setColumn entity.completeness reread.completeness row.completeness
    indexedInCvtheque := setColumn entity.indexedInCvtheque reread.indexedInCvtheque
      row.indexedInCvtheque
    featured := setColumn entity.featured reread.featured row.featured }

/-! ## Writes -/

inductive Write where
  | tick (ms : Nat)
  | insertAssessment (a : Assessment)
  | saveAssessment (entity reread : Assessment)
  | insertScore (s : Score)
  | updatePercentile (scoreId : Id) (percentile : Int)
  | insertProfile (p : CandidateProfile)
  | saveProfile (entity reread : CandidateProfile)
  | insertProfileSkill (s : ProfileSkill)
  | deleteProfileSkill (id : Id)
  | insertExperience (e : Experience)
  | saveExperience (e : Experience)
  | deleteExperience (id : Id)
  | insertLink (l : ProfileLink)
  | deleteLink (id : Id)
  | insertDocument (d : Document)
  | deleteDocument (id : Id)
  | insertAuditLog (a : AuditLog)
  deriving DecidableEq, Repr

/-- Row locks and entries of unique indexes. -/
inductive Key where
  | row (table : String) (id : Id)
  | scoreAssessment (assessmentId : Id)
  | profileUser (userId : Id)
  | profileSkill (profileId skillId : Id)
  deriving DecidableEq, Repr

def Write.apply (db : Db) : Write → Db
  | tick ms => { db with now := db.now + ms }
  | insertAssessment a => { db with assessments := db.assessments.insert a }
  | saveAssessment entity reread =>
    { db with
      assessments := db.assessments.modify entity.id (entity.overwrite reread) (fun _ => rfl) }
  | insertScore s => { db with scores := db.scores.insert s }
  | updatePercentile id percentile =>
    { db with
      scores := db.scores.modify id (fun s => { s with percentile := some percentile })
        (fun _ => rfl) }
  | insertProfile p => { db with profiles := db.profiles.insert p }
  | saveProfile entity reread =>
    { db with
      profiles := db.profiles.modify entity.id (entity.overwrite reread) (fun _ => rfl) }
  | insertProfileSkill s => { db with profileSkills := db.profileSkills.insert s }
  | deleteProfileSkill id => { db with profileSkills := db.profileSkills.delete id }
  | insertExperience e => { db with experiences := db.experiences.insert e }
  | saveExperience e =>
    { db with
      experiences := db.experiences.modify e.id (fun r => { r with title := e.title })
        (fun _ => rfl) }
  | deleteExperience id => { db with experiences := db.experiences.delete id }
  | insertLink l => { db with links := db.links.insert l }
  | deleteLink id => { db with links := db.links.delete id }
  | insertDocument d => { db with documents := db.documents.insert d }
  | deleteDocument id => { db with documents := db.documents.delete id }
  | insertAuditLog a => { db with auditLogs := db.auditLogs ++ [a] }

def Write.keys : Write → List Key
  | insertAssessment a => [.row "assessments" a.id]
  | saveAssessment entity _ => [.row "assessments" entity.id]
  | insertScore s => [.row "scores" s.id, .scoreAssessment s.assessmentId]
  | updatePercentile id _ => [.row "scores" id]
  | insertProfile p => [.row "candidate_profiles" p.id, .profileUser p.userId]
  | saveProfile entity _ => [.row "candidate_profiles" entity.id]
  | insertProfileSkill s => [.row "profile_skills" s.id, .profileSkill s.profileId s.skillId]
  | deleteProfileSkill id => [.row "profile_skills" id]
  | insertExperience e => [.row "experiences" e.id]
  | saveExperience e => [.row "experiences" e.id]
  | deleteExperience id => [.row "experiences" id]
  | insertLink l => [.row "profile_links" l.id]
  | deleteLink id => [.row "profile_links" id]
  | insertDocument d => [.row "documents" d.id]
  | deleteDocument id => [.row "documents" id]
  | tick _ | insertAuditLog _ => []

def store : Store Db Write Key := ⟨Write.apply, Write.keys⟩

/-- A service method: a program over `Db`. -/
abbrev M (α : Type) := Prog Db Write Error α

/-! ## Statements -/

open Prog

/-- `new Date()`. -/
def now : M Time := select fun db => db.now

def getNumber (key : String) : M (Option Int) := select fun db => db.settings.getNumber key

/-- An `INSERT` that fails with 23505 when `violated` names a constraint. -/
def insertUnique {α : Type} (violated : Db → Option String) (w : Write) (result : α) : M α :=
  query fun db =>
    match violated db with
    | some constraint => .error (uniqueViolation constraint)
    | none => .ok ([w], result)

/-- `AuditService.log`. -/
def AuditService.log (entry : AuditLog) : M Unit := write fun _ => [.insertAuditLog entry]

namespace AssessmentRepository

def findById (id : Id) : M (Option Assessment) := select fun db => db.assessment? id

def findOne (p : Assessment → Bool) : M (Option Assessment) :=
  select fun db => db.assessments.rows.find? p

/-- `save(create(row))` of a new row. -/
def insert (row : Assessment) : M Assessment :=
  insertUnique (fun db => if (db.assessment? row.id).isSome then some "PK_assessments" else none)
    (.insertAssessment row) row

/-- `save(entity)` of a loaded attempt: re-read the row, then update the columns
that differ, if any. No operation deletes a row of the table. -/
def save (entity : Assessment) : M Assessment := do
  match ← findById entity.id with
  | none => throw (.entityNotFound "Assessment")
  | some reread =>
    if entity.overwrite reread reread = reread then return entity
    else
      write fun _ => [.saveAssessment entity reread]
      return entity

end AssessmentRepository

namespace ProfileRepository

def findById (id : Id) : M (Option CandidateProfile) := select fun db => db.profiles.get? id

def findByUserId (userId : Id) : M (Option CandidateProfile) :=
  select fun db => db.profileOf userId

/-- `save(entity)` of a loaded profile. -/
def save (entity : CandidateProfile) : M CandidateProfile := do
  match ← findById entity.id with
  | none => throw (.entityNotFound "CandidateProfile")
  | some reread =>
    if entity.overwrite reread reread = reread then return entity
    else
      write fun _ => [.saveProfile entity reread]
      return entity

end ProfileRepository

/-! ## Rows after a write -/

/-- The row that an entity was loaded from becomes the entity. -/
theorem Assessment.overwrite_loaded (e a : Assessment) : e.overwrite a a =
    { a with
      status := e.status
      resumeToken := e.resumeToken
      completedAt := e.completedAt
      cooldownNotifiedAt := e.cooldownNotifiedAt
      tabSwitchCount := e.tabSwitchCount
      windowBlurCount := e.windowBlurCount
      proctoringFlagged := e.proctoringFlagged } := by
  simp only [Assessment.overwrite, setColumn_reread]

theorem CandidateProfile.overwrite_loaded (e p : CandidateProfile) : e.overwrite p p =
    { p with
      firstName := e.firstName
      lastName := e.lastName
      headline := e.headline
      bio := e.bio
      school := e.school
      visibility := e.visibility
      salaryMin := e.salaryMin
      salaryMax := e.salaryMax
      completeness := e.completeness
      indexedInCvtheque := e.indexedInCvtheque
      featured := e.featured } := by
  simp only [CandidateProfile.overwrite, setColumn_reread]

section

variable {d : Db} {id : Id}

theorem assessment?_saved (e r : Assessment) (id : Id) :
    (store.apply d (.saveAssessment e r)).assessment? id =
      if id = e.id then (d.assessment? id).map (e.overwrite r) else d.assessment? id :=
  Table.get?_modify (e.overwrite r) fun _ => rfl

/-- An attempt is saved on the row that it was loaded from. -/
theorem assessment?_save {a e : Assessment} (ha : d.assessment? a.id = some a) (hid : e.id = a.id)
    (he : e.overwrite a a = e) (i : Id) :
    (store.apply d (.saveAssessment e a)).assessment? i =
      if i = a.id then some e else d.assessment? i := by
  rw [assessment?_saved, hid]
  split
  · next hi => rw [hi, ha, Option.map_some, he]
  · rfl

theorem scoreOf_insert_other {s : Score} (h : s.assessmentId ≠ id) :
    (store.apply d (.insertScore s)).scoreOf id = d.scoreOf id := by
  simp only [store, Write.apply, Db.scoreOf, Table.insert]
  split
  · rfl
  · simp [List.find?_append, h]

theorem scoreOf_insert_isSome {s : Score} (h : (d.scoreOf id).isSome = true) :
    ((store.apply d (.insertScore s)).scoreOf id).isSome = true := by
  simp only [Db.scoreOf, List.find?_isSome] at h ⊢
  obtain ⟨x, hx, hid⟩ := h
  exact ⟨x, Table.mem_insert_of_mem hx, hid⟩

end

end JobBoard.Assessments
