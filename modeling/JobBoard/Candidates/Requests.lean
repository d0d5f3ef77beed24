import JobBoard.Auth.Database
import JobBoard.Candidates.Schools

/-!
# Files, erasures and data requests

The candidate uploads a CV and diplomas, the members of a thread attach documents to it, and
`CandidateDataService.deleteData` erases the account: for the candidate, or when an administrator
completes an erasure request (`DataRequestService`). Which deletions the object storage fails is
given from outside. The completeness of a profile is left out.
-/

set_option autoImplicit false

namespace JobBoard.Candidates.Erasure

open Txn Prog
open Assessments (trim)
open Cvtheque (Document)
open Messaging (Caller)
open Messaging.ConversationService (ScanResult AttachmentUpload)

/-! ## Rows -/

inductive DataRequestType where
  | access | portability | erasure | rectification | objection
  deriving DecidableEq, Repr

inductive DataRequestStatus where
  | pending | inProgress | completed | rejected
  deriving DecidableEq, Repr

namespace DataRequestStatus

def toString : DataRequestStatus → String
  | pending => "pending"
  | inProgress => "in_progress"
  | completed => "completed"
  | rejected => "rejected"

/-- `OPEN_STATUSES.includes(status)`. -/
def isOpen : DataRequestStatus → Bool
  | pending | inProgress => true
  | completed | rejected => false

end DataRequestStatus

structure DataRequest where
  id : Id
  userId : Id
  type : DataRequestType
  status : DataRequestStatus
  message : Option String
  resolutionNote : Option String
  handledByUserId : Option Id
  dueAt : Time
  resolvedAt : Option Time
  deriving DecidableEq, Repr

/-- The row after the `UPDATE` of a `save`: `updateStatus` assigns four columns. -/
def DataRequest.overwrite (entity reread row : DataRequest) : DataRequest :=
  { row with
    status := setColumn entity.status reread.status row.status
    resolutionNote := setColumn entity.resolutionNote reread.resolutionNote row.resolutionNote
    handledByUserId := setColumn entity.handledByUserId reread.handledByUserId
      row.handledByUserId
    resolvedAt := setColumn entity.resolvedAt reread.resolvedAt row.resolvedAt }

inductive AuditAction where
  | dataRequestCreated | dataRequestResolved | userDeleted
  deriving DecidableEq, Repr

structure AuditLog where
  actorId : Id
  action : AuditAction
  entityType : String
  entityId : Id
  /-- The request that the entry is about. -/
  metadata : Option (DataRequestType × DataRequestStatus × Id)
  deriving DecidableEq, Repr

/-! ## The database -/

structure Db where
  /-- The profiles, the documents with their verifications, and the object storage. -/
  schools : Candidates.Db
  users : Table Auth.User.id
  conversations : Table fun c : Messaging.Conversation => c.id
  messages : Table fun m : Messaging.Message => m.id
  dataRequests : Table DataRequest.id
  auditLogs : List AuditLog

namespace Db

def empty : Db := ⟨⟨Cvtheque.Db.empty, []⟩, ∅, ∅, ∅, ∅, []⟩

def now (db : Db) : Time := db.schools.cvtheque.now

def profileOf (db : Db) (userId : Id) : Option Cvtheque.CandidateProfile :=
  db.schools.cvtheque.profileOf userId

/-- `documentRepo.find({ where: { ownerId: userId } })`. -/
def documentsOf (db : Db) (userId : Id) : List Document :=
  db.schools.cvtheque.documents.rows.filter (·.ownerId = userId)

def member (p : Cvtheque.CandidateProfile) : Messaging.CandidateProfile :=
  ⟨⟨p.id, p.userId⟩, p.firstName, p.lastName⟩

theorem members_nodup (db : Db) :
    ((db.schools.cvtheque.profiles.rows.map member).map fun p => p.id).Nodup := by
  rw [List.map_map]
  exact db.schools.cvtheque.profiles.nodup

/-- What the services of the threads see. -/
def messaging (db : Db) : Messaging.Db where
  now := db.now
  companies := ∅
  recruiters := db.schools.cvtheque.base.recruiters
  candidateProfiles := ⟨db.schools.cvtheque.profiles.rows.map member, db.members_nodup⟩
  conversations := db.conversations
  messages := db.messages
  interviews := ∅
  objects := db.schools.objects

end Db

inductive Write where
  | schools (w : Candidates.Write)
  | messaging (w : Messaging.Write)
  /-- The rows of the documents, with the verifications that refer to them. -/
  | deleteDocuments (ids : List Id)
  /-- The profile, with its parts and its threads. -/
  | deleteProfile (id : Id)
  /-- The `UPDATE` of a user whose data is erased, for which request if any. -/
  | anonymize (requestId : Option Id) (entity reread : Auth.User)
  | insertRequest (r : DataRequest)
  | saveRequest (entity reread : DataRequest)
  | insertAudit (a : AuditLog)
  /-- `deleteData` lists the documents of a user; it changes no row. -/
  | listDocuments (userId : Id)
  deriving DecidableEq, Repr

inductive Key where
  | schools (k : Candidates.Key)
  | messaging (k : Messaging.Key)
  | user (id : Id)
  | email (email : String)
  | profile (id : Id)
  | request (id : Id)
  deriving DecidableEq, Repr

/-- `ON DELETE CASCADE` of the tables that refer to a profile. -/
def deleteProfile (db : Db) (id : Id) : Db :=
  let cvtheque := db.schools.cvtheque
  let removed := (db.conversations.rows.filter (·.candidateId = id)).map fun c => c.id
  { db with
    schools := { db.schools with
      cvtheque := { cvtheque with
        profiles := cvtheque.profiles.delete id
        profileSkills := cvtheque.profileSkills.deleteWhere (·.profileId = id)
        experiences := cvtheque.experiences.deleteWhere (·.profileId = id)
        projects := cvtheque.projects.deleteWhere (·.profileId = id)
        certifications := cvtheque.certifications.deleteWhere (·.profileId = id)
        links := cvtheque.links.deleteWhere (·.profileId = id)
        shortlistEntries := cvtheque.shortlistEntries.deleteWhere (·.candidateProfileId = id)
        schoolVerifications :=
          cvtheque.schoolVerifications.deleteWhere (·.candidateProfileId = id) } }
    conversations := db.conversations.deleteWhere (·.candidateId = id)
    messages := db.messages.deleteWhere fun m => m.conversationId ∈ removed }

def Write.apply (db : Db) : Write → Db
  | schools w => { db with schools := Candidates.store.apply db.schools w }
  | messaging w =>
    let after := Messaging.store.apply db.messaging w
    { db with
      schools := { db.schools with objects := after.objects }
      conversations := after.conversations
      messages := after.messages }
  | deleteDocuments ids =>
    { db with
      schools := { db.schools with
        cvtheque := { db.schools.cvtheque with
          documents := db.schools.cvtheque.documents.deleteWhere fun d => d.id ∈ ids
          schoolVerifications :=
            db.schools.cvtheque.schoolVerifications.deleteWhere fun v => v.documentId ∈ ids } } }
  | deleteProfile id => Erasure.deleteProfile db id
  | anonymize _ entity reread =>
    { db with
      users := db.users.modify entity.id (entity.overwrite reread) (entity.overwrite_id reread) }
  | insertRequest r => { db with dataRequests := db.dataRequests.insert r }
  | saveRequest entity reread =>
    { db with
      dataRequests := db.dataRequests.modify entity.id (entity.overwrite reread) fun _ => rfl }
  | insertAudit a => { db with auditLogs := db.auditLogs ++ [a] }
  | listDocuments _ => db

def Write.keys : Write → List Key
  | schools w => (Candidates.store.keys w).map .schools
  | messaging w => (Messaging.store.keys w).map .messaging
  | deleteDocuments ids => ids.map fun id => .schools (.document id)
  | deleteProfile id => [.profile id]
  | anonymize _ entity _ => [.user entity.id, .email entity.email]
  | insertRequest r => [.request r.id]
  | saveRequest entity _ => [.request entity.id]
  | insertAudit _ | listDocuments _ => []

def store : Store Db Write Key := ⟨Write.apply, Write.keys⟩

/-- A service method: a program over `Db`. -/
abbrev M (α : Type) := Prog Db Write Error α

def inSchools {α : Type} (p : Candidates.M α) : M α := p.zoom Db.schools .schools

def inMessaging {α : Type} (p : Messaging.M α) : M α := p.zoom Db.messaging .messaging

/-! ## The CV -/

namespace CandidateDocumentService

def cvRule : UploadRule where
  maxSizeSetting := "cv_max_size_bytes"
  defaultMaxSize := 5 * 1024 * 1024
  allowedTypesSetting := "cv_allowed_mime_types"
  defaultAllowedTypes :=
    "application/pdf,application/vnd.openxmlformats-officedocument.wordprocessingml.document"
  typeMessage := "Type de fichier non autorisé. Types acceptés : PDF, DOCX"

def cvKey (uuid userId : Id) (file : UploadedFile) : String :=
  "cv/" ++ toString userId ++ "/" ++ toString uuid ++ "-" ++ file.originalname

def findCV (userId : Id) : M (Option Document) :=
  select fun db => (db.documentsOf userId).find? (·.type = .cv)

/-- The object first, then the row. -/
def removeDocument (doc : Document) : M Unit := do
  write fun _ => [.schools (.deleteObject doc.storageKey)]
  write fun _ => [.schools (.deleteDocument doc.id)]

def uploadCV (uuid userId : Id) (file : UploadedFile) (scan : ScanResult) : M Document := do
  inSchools (checkUpload cvRule file scan)
  write fun _ => [.schools (.putObject (cvKey uuid userId file))]
  match ← findCV userId with
  | none => ret ()
  | some existingCV => removeDocument existingCV
  inSchools (insertDocument
    { id := uuid
      ownerId := userId
      type := .cv
      storageKey := cvKey uuid userId file
      originalName := file.originalname
      mimeType := file.mimetype
      size := file.size
      scanStatus := .clean })

def deleteCV (userId : Id) : M Unit := do
  match ← findCV userId with
  | none => throw (.notFound "CV not found")
  | some doc => removeDocument doc

end CandidateDocumentService

/-! ## Erasure -/

namespace CandidateDataService

/-- The objects of the documents, one at a time; a deletion that fails is logged only. -/
def deleteObjects (failing : List String) : List Document → M Unit
  | [] => return ()
  | doc :: documents => do
    if doc.storageKey ∈ failing then deleteObjects failing documents
    else
      write fun _ => [.schools (.deleteObject doc.storageKey)]
      deleteObjects failing documents

def anonymized (uuid : Id) (user : Auth.User) : Auth.User :=
  { user with
    email := "deleted_" ++ toString uuid ++ "@anonymized.local"
    passwordHash := ""
    status := .deleted
    emailVerified := false
    emailVerificationToken := none
    emailVerificationExpires := none }

/-- `userRepo.save(user)`. The address is a new one, so that there always is an `UPDATE`. -/
def saveAnonymized (requestId : Option Id) (entity : Auth.User) : M Unit := do
  match ← select fun db => db.users.get? entity.id with
  | none => throw (.entityNotFound "User")
  | some reread =>
    query fun db =>
      if db.users.rows.any fun u => u.email = entity.email && u.id ≠ entity.id then
        .error (uniqueViolation "UQ_97672ac88f789774dd47f7c8be3")
      else .ok ([.anonymize requestId entity reread], ())

/-- `requestId` is the request that the erasure completes, if any. -/
def deleteData (uuid userId : Id) (requestId : Option Id) (failing : List String) :
    M Unit := do
  match ← select fun db => db.users.get? userId with
  | none => throw (.notFound "Not Found")
  | some user =>
    let documents ← query fun db => .ok ([.listDocuments userId], db.documentsOf userId)
    deleteObjects failing documents
    if documents ≠ [] then write fun _ => [.deleteDocuments (documents.map fun d => d.id)]
    match ← select fun db => db.profileOf userId with
    | none => ret ()
    | some profile => write fun _ => [.deleteProfile profile.id]
    saveAnonymized requestId (anonymized uuid user)
    write fun _ => [.insertAudit ⟨userId, .userDeleted, "User", userId, none⟩]

end CandidateDataService

/-! ## Data requests -/

namespace DataRequestService

def SLA_DAYS : Int := 30

def insertRequest (request : Time → DataRequest) : M DataRequest :=
  query fun db =>
    if (db.dataRequests.get? (request db.now).id).isSome then
      .error (uniqueViolation "PK_data_requests")
    else .ok ([.insertRequest (request db.now)], request db.now)

def create (uuid userId : Id) (type : DataRequestType) (message : Option String) :
    M DataRequest := do
  let existingOpen ← select fun db => db.dataRequests.rows.any fun r =>
    r.userId = userId && r.type = type && r.status.isOpen
  if existingOpen then throw (.conflict "An open request of this type already exists")
  else
    let saved ← insertRequest fun now =>
      { id := uuid
        userId := userId
        type := type
        status := .pending
        message := truthy (message.map trim)
        resolutionNote := none
        handledByUserId := none
        dueAt := addDays now SLA_DAYS
        resolvedAt := none }
    write fun _ => [.insertAudit ⟨userId, .dataRequestCreated, "DataRequest", saved.id,
      some (saved.type, saved.status, saved.userId)⟩]
    return saved

/-- `save(entity)` of a request that was loaded. No operation deletes a request. Where no column
differs the `UPDATE`, which is not issued then, would change nothing. -/
def save (entity : DataRequest) : M DataRequest := do
  match ← select fun db => db.dataRequests.get? entity.id with
  | none => throw (.entityNotFound "DataRequest")
  | some reread =>
    write fun _ => [.saveRequest entity reread]
    return entity

def resolved (request : DataRequest) (adminId : Id) (status : DataRequestStatus)
    (resolutionNote : Option String) (now : Time) : DataRequest :=
  { request with
    status := status
    handledByUserId := some adminId
    resolutionNote := truthy (resolutionNote.map trim)
    resolvedAt := if status.isOpen then none else some now }

/-- Completing an erasure request erases the account first. -/
def updateStatus (uuid id adminId : Id) (status : DataRequestStatus)
    (resolutionNote : Option String) (failing : List String) : M DataRequest := do
  match ← select fun db => db.dataRequests.get? id with
  | none => throw (.notFound "Data request not found")
  | some request =>
    if ¬ request.status.isOpen then
      throw (.badRequest
        ("Request is already " ++ request.status.toString ++ " and cannot be changed"))
    else
      if status = .completed ∧ request.type = .erasure then
        CandidateDataService.deleteData uuid request.userId (some request.id) failing
      let now ← select Db.now
      let saved ← save (resolved request adminId status resolutionNote now)
      write fun _ => [.insertAudit ⟨adminId, .dataRequestResolved, "DataRequest", saved.id,
        some (saved.type, saved.status, saved.userId)⟩]
      return saved

end DataRequestService

/-! ## The system -/

/-- With the keys whose deletion the storage fails. -/
inductive Op where
  | clock (us : Nat)
  | uploadCV (userId : Id) (file : UploadedFile) (scan : ScanResult)
  | deleteCV (userId : Id)
  | submit (userId : Id) (file : UploadedFile) (scan : ScanResult) (ocr : OcrExtractionResult)
  | sendAttachment (conversationId : Id) (caller : Caller) (file : AttachmentUpload)
      (scan : ScanResult) (body : Option String)
  | deleteData (userId : Id) (failing : List String)
  | create (userId : Id) (type : DataRequestType) (message : Option String)
  | updateStatus (id adminId : Id) (status : DataRequestStatus) (resolutionNote : Option String)
      (failing : List String)
  deriving DecidableEq, Repr

inductive Result where
  | unit
  | document (d : Document)
  | verification (v : Cvtheque.SchoolVerification)
  | message (m : Messaging.Message)
  | request (r : DataRequest)
  deriving DecidableEq, Repr

/-- The errors a statement or an outside call may fail with by itself. -/
def isFault : Error → Bool
  | .unavailable => true
  | .queryFailed _ _ => true
  | _ => false

def program (env : Environment) (uuid : Id) : Op → M Result
  | .clock us => do
    write fun _ => [.schools (.cvtheque (.tick us))]
    return .unit
  | .uploadCV userId file scan => do
    return .document (← CandidateDocumentService.uploadCV uuid userId file scan)
  | .deleteCV userId => do
    CandidateDocumentService.deleteCV userId
    return .unit
  | .submit userId file scan ocr => do
    return .verification
      (← inSchools (SchoolVerificationService.submit env uuid userId file scan ocr))
  | .sendAttachment conversationId caller file scan body => do
    return .message (← inMessaging
      (Messaging.ConversationService.sendAttachment uuid conversationId caller file scan body))
  | .deleteData userId failing => do
    CandidateDataService.deleteData uuid userId none failing
    return .unit
  | .create userId type message => do
    return .request (← DataRequestService.create uuid userId type message)
  | .updateStatus id adminId status resolutionNote failing => do
    return .request
      (← DataRequestService.updateStatus uuid id adminId status resolutionNote failing)

def system (env : Environment) : System Db Write Key Error Result Op :=
  ⟨store, program env, isFault⟩

abbrev RunState := State Db Write Error Result Op

abbrev Log := List (Txn.Group Write)

/-- The committed database at a moment of the run. -/
abbrev Db.at (d₀ : Db) (L : Log) : Db := replay store d₀ L

/-- `n` steps of call `i`. -/
def steps (i n : Nat) : List (Label Error Op) := List.replicate n (.step i)

end JobBoard.Candidates.Erasure
