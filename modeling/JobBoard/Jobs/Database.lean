import JobBoard.Analytics.Recruiter
import JobBoard.Cvtheque.Database
import JobBoard.Jobs.Features
import JobBoard.Services.System

/-!
# The database of the job offers

Offers, applications and the overrides of features, beside the tables of the CVthèque. A
recruiter may be removed, and a profile with all that hangs on it. `Write.saveOffer`,
`Write.saveApplication` and `Write.saveOverride` are TypeORM's `save` of a loaded entity; the
first two also carry the row that the entity was loaded from.
-/

set_option autoImplicit false

namespace JobBoard.Jobs

open Txn Prog
open Analytics (JobStatus ApplicationStatus)
open Cvtheque (Micros)

/-! ## Rows -/

inductive JobContractType where
  | cdi | cdd | pfe | freelance | internship
  deriving DecidableEq, Repr

inductive ExperienceLevel where
  | junior | mid | senior | lead
  deriving DecidableEq, Repr

/-- `skills` is the text of the `simple-array`. -/
structure JobOffer extends Analytics.JobOffer where
  createdBy : Id
  description : Option String
  location : Option String
  contractType : Option JobContractType
  experienceLevel : Option ExperienceLevel
  skills : Option String
  publishedAt : Option Time
  deadline : Option Time
  createdAt : Micros
  deriving DecidableEq, Repr

structure JobApplication extends Analytics.JobApplication where
  candidateId : Id
  candidateProfileId : Id
  coverLetter : Option String
  deriving DecidableEq, Repr

structure FeatureOverride where
  id : Id
  companyId : Id
  feature : Feature
  enabled : Bool
  actorId : Option Id
  note : Option String
  deriving DecidableEq, Repr

/-- The metadata of FEATURE_OVERRIDE_CHANGED; `enabled` is `none` for `cleared: true`. -/
structure AuditLog where
  actorId : Id
  entityType : String
  entityId : Id ⊕ String
  companyId : Id
  feature : Feature
  enabled : Option Bool
  deriving DecidableEq, Repr

/-- The columns that the methods assign. -/
def JobOffer.overwrite (entity reread row : JobOffer) : JobOffer :=
  { row with
    title := setColumn entity.title reread.title row.title
    description := setColumn entity.description reread.description row.description
    location := setColumn entity.location reread.location row.location
    contractType := setColumn entity.contractType reread.contractType row.contractType
    experienceLevel := setColumn entity.experienceLevel reread.experienceLevel row.experienceLevel
    skills := setColumn entity.skills reread.skills row.skills
    status := setColumn entity.status reread.status row.status
    publishedAt := setColumn entity.publishedAt reread.publishedAt row.publishedAt
    deadline := setColumn entity.deadline reread.deadline row.deadline }

def JobApplication.overwrite (entity reread row : JobApplication) : JobApplication :=
  { row with status := setColumn entity.status reread.status row.status }

def FeatureOverride.overwrite (entity reread row : FeatureOverride) : FeatureOverride :=
  { row with
    enabled := setColumn entity.enabled reread.enabled row.enabled
    actorId := setColumn entity.actorId reread.actorId row.actorId
    note := setColumn entity.note reread.note row.note }

/-! ## Errors -/

inductive EligibilityReason where
  | profileIncomplete | noCompletedAssessment
  deriving DecidableEq, Repr

/-- The completeness is in hundredths. -/
structure ApplyEligibility where
  eligible : Bool
  completeness : Int
  threshold : Nat
  completedAssessments : Nat
  reasons : List EligibilityReason
  deriving DecidableEq, Repr

inductive Error where
  | http (e : JobBoard.Error)
  /-- 403, with `error: 'FEATURE_NOT_AVAILABLE'`. -/
  | featureNotAvailable (feature : Feature)
  /-- 403, with `error: 'APPLICATION_NOT_ELIGIBLE'`. -/
  | notEligible (eligibility : ApplyEligibility)
  deriving DecidableEq, Repr

/-- The errors a statement may fail with by itself. -/
def isFault : Error → Bool
  | .http e => JobBoard.isFault e
  | _ => false

/-! ## Writes -/

structure Db where
  base : Cvtheque.Db
  overrides : Table FeatureOverride.id
  offers : Table fun o : JobOffer => o.id
  applications : Table fun a : JobApplication => a.id
  auditLogs : List AuditLog

inductive Write where
  /-- A write of another service. -/
  | base (w : Cvtheque.Write)
  | removeRecruiter (id : Id)
  /-- The applications of the profile go with it. -/
  | removeProfile (id : Id)
  | insertOverride (o : FeatureOverride)
  | saveOverride (entity reread : FeatureOverride)
  | removeOverride (id : Id)
  | insertOffer (o : JobOffer)
  | saveOffer (loaded entity reread : JobOffer)
  | insertApplication (a : JobApplication)
  | saveApplication (loaded entity reread : JobApplication)
  | insertAuditLog (a : AuditLog)
  deriving DecidableEq, Repr

def Write.apply (db : Db) : Write → Db
  | base w => { db with base := Cvtheque.store.apply db.base w }
  | removeRecruiter id =>
    { db with
      base := { db.base with
        base := { db.base.base with recruiters := db.base.base.recruiters.delete id } } }
  | removeProfile id =>
    { db with
      base := { db.base with profiles := db.base.profiles.delete id }
      applications := db.applications.deleteWhere fun a => a.candidateProfileId = id }
  | insertOverride o => { db with overrides := db.overrides.insert o }
  | saveOverride entity reread =>
    { db with
      overrides := db.overrides.modify entity.id (entity.overwrite reread) fun _ => rfl }
  | removeOverride id => { db with overrides := db.overrides.delete id }
  | insertOffer o => { db with offers := db.offers.insert o }
  | saveOffer _ entity reread =>
    { db with offers := db.offers.modify entity.id (entity.overwrite reread) fun _ => rfl }
  | insertApplication a => { db with applications := db.applications.insert a }
  | saveApplication _ entity reread =>
    { db with
      applications := db.applications.modify entity.id (entity.overwrite reread) fun _ => rfl }
  | insertAuditLog a => { db with auditLogs := db.auditLogs ++ [a] }

inductive Key where
  | row (table : String) (id : Id)
  | base (k : Cvtheque.Key)
  deriving DecidableEq, Repr

def Write.keys : Write → List Key
  | base w => (Cvtheque.store.keys w).map .base
  | removeRecruiter id => [.row "recruiters" id]
  | removeProfile id => [.row "candidate_profiles" id]
  | insertOverride o => [.row "feature_overrides" o.id]
  | saveOverride entity _ => [.row "feature_overrides" entity.id]
  | removeOverride id => [.row "feature_overrides" id]
  | insertOffer o => [.row "job_offers" o.id]
  | saveOffer _ entity _ => [.row "job_offers" entity.id]
  | insertApplication a => [.row "job_applications" a.id]
  | saveApplication _ entity _ => [.row "job_applications" entity.id]
  | insertAuditLog _ => []

def store : Store Db Write Key := ⟨Write.apply, Write.keys⟩

/-- A service method: a program over `Db`. -/
abbrev M (α : Type) := Prog Db Write Error α

/-! ## Statements -/

/-- `overrideRepo.findOne({ where: { companyId, feature } })`. -/
def Db.override? (db : Db) (companyId : Id) (feature : Feature) : Option FeatureOverride :=
  db.overrides.rows.find? fun o => o.companyId = companyId && o.feature = feature

/-- `appRepo.findOne({ where: { jobOfferId, candidateId } })`. -/
def Db.application? (db : Db) (jobOfferId candidateId : Id) : Option JobApplication :=
  db.applications.rows.find? fun a => a.jobOfferId = jobOfferId && a.candidateId = candidateId

/-- `subscriptionRepo.findOne({ where: { companyId }, order: { createdAt: 'DESC' } })`. -/
def Db.subscriptionOf (db : Db) (companyId : Id) : Option Subscription :=
  newest (db.base.base.subscriptions.rows.filter fun s => s.companyId = companyId)

/-- An `INSERT` that fails when `violated` gives a code and a constraint. -/
def insertRow {α : Type} (violated : Db → α → Option (String × String)) (row : Db → α)
    (insert : α → Write) : M α :=
  query fun db =>
    match violated db (row db) with
    | some v => .error (.http (.queryFailed v.1 (some v.2)))
    | none => .ok ([insert (row db)], row db)

def POSTGRES_FOREIGN_KEY_VIOLATION : String := "23503"

namespace OverrideRepository

def violation (db : Db) (o : FeatureOverride) : Option (String × String) :=
  if (db.overrides.get? o.id).isSome then
    some (POSTGRES_UNIQUE_VIOLATION, "PK_feature_overrides")
  else if (db.override? o.companyId o.feature).isSome then
    some (POSTGRES_UNIQUE_VIOLATION, "UQ_feature_overrides_company_feature")
  else none

def insert (o : FeatureOverride) : M FeatureOverride :=
  insertRow violation (fun _ => o) .insertOverride

/-- `save(entity)` inserts the row again when it is gone. -/
def save (entity : FeatureOverride) : M FeatureOverride := do
  match ← select fun db => db.overrides.get? entity.id with
  | none => insert entity
  | some reread =>
    if entity.overwrite reread reread = reread then return entity
    else
      write fun _ => [.saveOverride entity reread]
      return entity

end OverrideRepository

namespace OfferRepository

def violation (db : Db) (o : JobOffer) : Option (String × String) :=
  if (db.offers.get? o.id).isSome then some (POSTGRES_UNIQUE_VIOLATION, "PK_job_offers") else none

/-- `save(create(row))`, with the time of the database. -/
def insert (row : Micros → JobOffer) : M JobOffer :=
  insertRow violation (fun db => row db.base.clock) .insertOffer

/-- `save(entity)` of an offer that was `loaded`. No operation deletes an offer. -/
def save (loaded entity : JobOffer) : M JobOffer := do
  match ← select fun db => db.offers.get? entity.id with
  | none => throw (.http (.entityNotFound "JobOffer"))
  | some reread =>
    if entity.overwrite reread reread = reread then return entity
    else
      write fun _ => [.saveOffer loaded entity reread]
      return entity

end OfferRepository

namespace ApplicationRepository

def violation (db : Db) (a : JobApplication) : Option (String × String) :=
  if (db.applications.get? a.id).isSome then
    some (POSTGRES_UNIQUE_VIOLATION, "PK_job_applications")
  else if (db.application? a.jobOfferId a.candidateId).isSome then
    some (POSTGRES_UNIQUE_VIOLATION, "UQ_job_applications_offer_candidate")
  else if (db.offers.get? a.jobOfferId).isNone then
    some (POSTGRES_FOREIGN_KEY_VIOLATION, "FK_job_applications_offer")
  else if (db.base.profiles.get? a.candidateProfileId).isNone then
    some (POSTGRES_FOREIGN_KEY_VIOLATION, "FK_job_applications_profile")
  else none

def insert (row : Micros → JobApplication) : M JobApplication :=
  insertRow violation (fun db => row db.base.clock) .insertApplication

/-- `save(entity)` of an application that was `loaded`. It goes only with its profile, so that
the `INSERT` of `save` is refused then. -/
def save (loaded entity : JobApplication) : M JobApplication := do
  match ← select fun db => db.applications.get? entity.id with
  | none =>
    throw (.http (.queryFailed POSTGRES_FOREIGN_KEY_VIOLATION
      (some "FK_job_applications_profile")))
  | some reread =>
    if entity.overwrite reread reread = reread then return entity
    else
      write fun _ => [.saveApplication loaded entity reread]
      return entity

end ApplicationRepository

end JobBoard.Jobs
