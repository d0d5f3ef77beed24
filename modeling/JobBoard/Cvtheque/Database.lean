import JobBoard.Assessments.Database
import JobBoard.Model.Database
import JobBoard.Cvtheque.Entities

/-!
# The database of the CVthèque

The tables that the search, the moderation, the shortlists, the alerts and the profile
edits share. `Db.base` holds the companies with their recruiters, subscriptions and
conversations; its clock and its profiles are not used, they are those of `Db`.

`Write.saveProfile` is TypeORM's `save` of a loaded profile: it sets every column whose
value in the entity differs from the row that `save` re-read. The write also carries who
saves, and the row that the entity was loaded from.
-/

set_option autoImplicit false

namespace JobBoard.Cvtheque

open Txn

structure Db where
  /-- The clock of the database. -/
  clock : Micros
  settings : Assessments.Settings
  profiles : Table fun p : CandidateProfile => p.id
  skills : Table fun s : Skill => s.id
  profileSkills : Table Assessments.ProfileSkill.id
  experiences : Table fun e : Experience => e.id
  projects : Table Project.id
  certifications : Table Certification.id
  links : Table fun l : ProfileLink => l.id
  documents : Table fun d : Document => d.id
  assessments : Table Assessments.Assessment.id
  scores : Table Assessments.Score.id
  shortlistEntries : Table ShortlistEntry.id
  schoolVerifications : Table SchoolVerification.id
  savedSearches : Table SavedSearch.id
  notifications : List Notification
  auditLogs : List AuditLog
  base : JobBoard.Db

namespace Db

def empty : Db :=
  ⟨0, ⟨fun _ => none, fun _ => none⟩, ∅, ∅, ∅, ∅, ∅, ∅, ∅, ∅, ∅, ∅, ∅, ∅, ∅, [], [], .empty⟩

/-- `new Date()`. -/
def now (db : Db) : Time := toDate db.clock

/-- `profileRepo.findOne({ where: { userId } })`. -/
def profileOf (db : Db) (userId : Id) : Option CandidateProfile :=
  db.profiles.rows.find? (·.userId == userId)

/-- `recruiterRepo.findOne({ where: { userId } })`. -/
def recruiterOf (db : Db) (userId : Id) : Option Recruiter :=
  db.base.recruiters.rows.find? (·.userId == userId)

theorem profiles_nodup (db : Db) :
    ((db.profiles.rows.map fun p => (⟨p.id, p.userId⟩ : JobBoard.CandidateProfile)).map
      (·.id)).Nodup := by
  rw [List.map_map]
  exact db.profiles.nodup

/-- What billing and messaging see. -/
def contacts (db : Db) : JobBoard.Db :=
  { db.base with
    now := db.now
    candidateProfiles := ⟨db.profiles.rows.map fun p => ⟨p.id, p.userId⟩, db.profiles_nodup⟩ }

end Db

/-! ## Saving a profile -/

/-- Which method saves a profile, with the visibility or the status that it was given. -/
inductive ProfileWriter where
  | updateProfile (visibility : Option Assessments.ProfileVisibility)
  | calculateCompleteness
  | applyThresholds
  | setModeration (status : ProfileModerationStatus)
  deriving DecidableEq, Repr

namespace CandidateProfile

/-- `updatedAt` of the entity is a `Date`: it differs from the one that was re-read when
another save went before. -/
def staleDate (entity reread : CandidateProfile) : Prop :=
  toDate entity.updatedAt ≠ toDate reread.updatedAt

instance (entity reread : CandidateProfile) : Decidable (entity.staleDate reread) :=
  inferInstanceAs (Decidable (_ ≠ _))

/-- The row after the `UPDATE` of a `save` at `clock`. The other columns are assigned at the
creation only. `updated_at` is the time of the `UPDATE` when it does not differ itself. -/
def overwrite (clock : Micros) (entity reread row : CandidateProfile) : CandidateProfile :=
  { row with
    toCandidateProfile := entity.toCandidateProfile.overwrite reread.toCandidateProfile
      row.toCandidateProfile
    location := setColumn entity.location reread.location row.location
    schoolVerified := setColumn entity.schoolVerified reread.schoolVerified row.schoolVerified
    moderationStatus := setColumn entity.moderationStatus reread.moderationStatus
      row.moderationStatus
    availability := setColumn entity.availability reread.availability row.availability
    mobility := setColumn entity.mobility reread.mobility row.mobility
    salaryCurrency := setColumn entity.salaryCurrency reread.salaryCurrency row.salaryCurrency
    salaryVisible := setColumn entity.salaryVisible reread.salaryVisible row.salaryVisible
    updatedAt := if entity.staleDate reread then ofDate (toDate entity.updatedAt) else clock }

/-- The driver gives a decimal as a text, so that the number which `calculateCompleteness`
assigns always differs from what `save` re-reads. -/
def assignsNumber : ProfileWriter → Bool
  | .calculateCompleteness => true
  | _ => false

/-- A `save` issues an `UPDATE` when a column differs. -/
def differs (writer : ProfileWriter) (entity reread : CandidateProfile) : Prop :=
  assignsNumber writer = true ∨ entity.staleDate reread ∨
    overwrite reread.updatedAt entity reread reread ≠ reread

instance (writer : ProfileWriter) (entity reread : CandidateProfile) :
    Decidable (differs writer entity reread) :=
  inferInstanceAs (Decidable (_ ∨ _ ∨ _))

/-- A saved completeness is set also when it is the same number. -/
def saved (clock : Micros) (writer : ProfileWriter) (entity reread row : CandidateProfile) :
    CandidateProfile :=
  let row' := overwrite clock entity reread row
  if assignsNumber writer then { row' with completeness := entity.completeness } else row'

theorem saved_id (clock : Micros) (writer : ProfileWriter)
    (entity reread row : CandidateProfile) : (saved clock writer entity reread row).id = row.id := by
  unfold saved
  split <;> rfl

end CandidateProfile

/-! ## Writes -/

/-- What a sweep of the alerts has seen: it changes no row. -/
inductive SweepTrace where
  | loaded (searches : List SavedSearch)
  | started (searchId : Id) (sweepStart : Time)
  | counted (searchId : Id) (profileIds : List Id)
  deriving DecidableEq, Repr

inductive Write where
  | tick (us : Nat)
  | insertProfile (p : CandidateProfile)
  | saveProfile (writer : ProfileWriter) (loaded entity reread : CandidateProfile)
  /-- `UPDATE ... SET school_verified = true`, and the school when there is one. -/
  | approveSchool (profileId : Id) (school : Option String)
  | insertProfileSkill (s : Assessments.ProfileSkill)
  | deleteProfileSkill (id : Id)
  | insertScore (s : Assessments.Score)
  | saveAssessment (entity reread : Assessments.Assessment)
  | decideVerification (id : Id) (status : SchoolVerificationStatus) (reviewedBy : Id)
      (reviewedAt : Time) (reviewNote : Option String)
  | insertShortlistEntry (e : ShortlistEntry)
  | insertAuditLog (a : AuditLog)
  /-- The anchor of a search advances, after the profiles `counted`. -/
  | claimAdvance (searchId : Id) (next : Time) (counted : List Id)
  /-- The notification of a search about the profiles `counted`. -/
  | insertNotification (n : Notification) (searchId : Id) (counted : List Id)
  | trace (t : SweepTrace)
  | base (w : JobBoard.Write)
  deriving DecidableEq, Repr

/-- Row locks and entries of unique indexes. -/
inductive Key where
  | row (table : String) (id : Id)
  | profileUser (userId : Id)
  | profileSkill (profileId skillId : Id)
  | scoreAssessment (assessmentId : Id)
  | shortlistPair (companyId candidateProfileId : Id)
  | base (k : JobBoard.Key)
  deriving DecidableEq, Repr

/-- The row after the approval of its school at `clock`. -/
def CandidateProfile.approved (clock : Micros) (school : Option String) (p : CandidateProfile) :
    CandidateProfile :=
  { p with
    schoolVerified := true
    school := school.orElse fun _ => p.school
    updatedAt := clock }

def Write.apply (db : Db) : Write → Db
  | tick us => { db with clock := db.clock + us }
  | insertProfile p => { db with profiles := db.profiles.insert p }
  | saveProfile writer _ entity reread =>
    { db with
      profiles := db.profiles.modify entity.id
        (CandidateProfile.saved db.clock writer entity reread)
        (CandidateProfile.saved_id db.clock writer entity reread) }
  | approveSchool id school =>
    { db with
      profiles := db.profiles.modify id (CandidateProfile.approved db.clock school)
        (fun _ => rfl) }
  | insertProfileSkill s => { db with profileSkills := db.profileSkills.insert s }
  | deleteProfileSkill id => { db with profileSkills := db.profileSkills.delete id }
  | insertScore s => { db with scores := db.scores.insert s }
  | saveAssessment entity reread =>
    { db with
      assessments := db.assessments.modify entity.id (entity.overwrite reread)
        (entity.overwrite_id reread) }
  | decideVerification id status reviewedBy reviewedAt reviewNote =>
    { db with
      schoolVerifications := db.schoolVerifications.modify id
        (fun v => { v with
          status := status
          reviewedBy := some reviewedBy
          reviewedAt := some reviewedAt
          reviewNote := reviewNote })
        (fun _ => rfl) }
  | insertShortlistEntry e => { db with shortlistEntries := db.shortlistEntries.insert e }
  | insertAuditLog a => { db with auditLogs := db.auditLogs ++ [a] }
  | claimAdvance id next _ =>
    { db with
      savedSearches := db.savedSearches.modify id
        (fun s => { s with lastNotifiedAt := some next }) (fun _ => rfl) }
  | insertNotification n _ _ => { db with notifications := db.notifications ++ [n] }
  | trace _ => db
  | base w => { db with base := JobBoard.store.apply db.contacts w }

def Write.keys : Write → List Key
  | insertProfile p => [.row "candidate_profiles" p.id, .profileUser p.userId]
  | saveProfile _ _ entity _ => [.row "candidate_profiles" entity.id]
  | approveSchool id _ => [.row "candidate_profiles" id]
  | insertProfileSkill s => [.row "profile_skills" s.id, .profileSkill s.profileId s.skillId]
  | deleteProfileSkill id => [.row "profile_skills" id]
  | insertScore s => [.row "scores" s.id, .scoreAssessment s.assessmentId]
  | saveAssessment entity _ => [.row "assessments" entity.id]
  | decideVerification id _ _ _ _ => [.row "school_verifications" id]
  | insertShortlistEntry e =>
    [.row "shortlist_entries" e.id, .shortlistPair e.companyId e.candidateProfileId]
  | claimAdvance id _ _ => [.row "saved_searches" id]
  | base w => (JobBoard.store.keys w).map .base
  | tick _ | insertAuditLog _ | insertNotification _ _ _ | trace _ => []

def store : Store Db Write Key := ⟨Write.apply, Write.keys⟩

/-- A service method: a program over `Db`. -/
abbrev M (α : Type) := Prog Db Write Error α

/-! ## Statements -/

open Prog

/-- `new Date()`. -/
def now : M Time := select fun db => db.now

/-- An `INSERT` of the row, which may carry the time of the database; it fails with 23505
when `violated` names a constraint. -/
def insertUnique {α : Type} (violated : α → Db → Option String) (row : Micros → α)
    (insert : α → Write) : M α :=
  query fun db =>
    match violated (row db.clock) db with
    | some constraint => .error (uniqueViolation constraint)
    | none => .ok ([insert (row db.clock)], row db.clock)

/-- `AuditService.log`. -/
def AuditService.log (entry : AuditLog) : M Unit := write fun _ => [.insertAuditLog entry]

namespace ProfileRepository

def findById (id : Id) : M (Option CandidateProfile) := select fun db => db.profiles.get? id

def findByUserId (userId : Id) : M (Option CandidateProfile) :=
  select fun db => db.profileOf userId

/-- `save(entity)` of a profile that was `loaded`. No operation deletes a profile. -/
def save (writer : ProfileWriter) (loaded entity : CandidateProfile) : M CandidateProfile := do
  match ← findById entity.id with
  | none => throw (.entityNotFound "CandidateProfile")
  | some reread =>
    if CandidateProfile.differs writer entity reread then
      write fun _ => [.saveProfile writer loaded entity reread]
      return entity
    else return entity

end ProfileRepository

end JobBoard.Cvtheque
