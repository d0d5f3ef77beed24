import Mathlib.Data.List.Sort
import JobBoard.Assessments.Attempts
import JobBoard.Lib.Trace

/-!
# Threads

What the members of a thread do in it: `ConversationService` sends and lists messages,
`InterviewService` proposes an interview and responds to it. Who may act in a thread follows
from the tables of recruiters and profiles at that moment; where the lookup of the recruiter
fails, the error is swallowed, which is given from outside. Notifications are best effort and
left out.
-/

set_option autoImplicit false

namespace JobBoard.Messaging

open Txn Prog
open Assessments (trim)

/-! ## Rows -/

inductive ConversationStatus where
  | opened | closed
  deriving DecidableEq, Repr

inductive InterviewStatus where
  | proposed | accepted | declined | cancelled
  deriving DecidableEq, Repr

inductive InterviewMode where
  | onsite | video | phone
  deriving DecidableEq, Repr

structure Company where
  id : Id
  name : String
  logo : Option String
  deriving DecidableEq, Repr

structure CandidateProfile extends JobBoard.CandidateProfile where
  firstName : Option String
  lastName : Option String
  deriving DecidableEq, Repr

structure Conversation extends JobBoard.Conversation where
  status : ConversationStatus
  updatedAt : Time
  deriving DecidableEq, Repr

structure Message extends JobBoard.Message where
  attachmentStorageKey : Option String
  attachmentOriginalName : Option String
  attachmentMimeType : Option String
  attachmentSize : Option Nat
  readAt : Option Time
  createdAt : Time
  deriving DecidableEq, Repr

structure Interview where
  id : Id
  conversationId : Id
  proposedById : Id
  proposedByRole : MessageSenderRole
  status : InterviewStatus
  mode : InterviewMode
  scheduledAt : Time
  durationMinutes : Int
  location : Option String
  note : Option String
  respondedAt : Option Time
  createdAt : Time
  deriving DecidableEq, Repr

/-- The row after the `UPDATE` of a `save`: a response assigns two columns. -/
def Interview.overwrite (entity reread row : Interview) : Interview :=
  { row with
    status := setColumn entity.status reread.status row.status
    respondedAt := setColumn entity.respondedAt reread.respondedAt row.respondedAt }

/-! ## The database -/

structure Db where
  now : Time
  companies : Table Company.id
  recruiters : Table fun r : Recruiter => r.id
  candidateProfiles : Table fun p : CandidateProfile => p.id
  conversations : Table fun c : Conversation => c.id
  messages : Table fun m : Message => m.id
  interviews : Table Interview.id
  /-- The keys of the object storage. -/
  objects : List String

def Db.empty : Db := ⟨0, ∅, ∅, ∅, ∅, ∅, ∅, []⟩

inductive Write where
  | tick (ms : Nat)
  | insertMessage (m : Message)
  /-- The bulk `UPDATE` of a user who opens a thread in the given role. -/
  | markRead (conversationId userId : Id) (role : MessageSenderRole) (readAt : Time)
  | insertInterview (v : Interview)
  | saveInterview (entity reread : Interview)
  /-- The re-read of a `save`; it changes no row. -/
  | rereadInterview (interviewId : Id)
  | putObject (key : String)
  deriving DecidableEq, Repr

inductive Key where
  | message (id : Id)
  | interview (id : Id)
  deriving DecidableEq, Repr

/-- An unread message of the thread from someone else than the user. -/
def Message.isIncoming (conversationId userId : Id) (m : Message) : Bool :=
  m.conversationId = conversationId && m.senderId ≠ userId && m.readAt = none

def Write.apply (db : Db) : Write → Db
  | tick ms => { db with now := db.now + ms }
  | insertMessage m => { db with messages := db.messages.insert m }
  | markRead conversationId userId _ readAt =>
    { db with
      messages := db.messages.modifyWhere (Message.isIncoming conversationId userId)
        (fun m => { m with readAt := some readAt }) (fun _ => rfl) }
  | insertInterview v => { db with interviews := db.interviews.insert v }
  | saveInterview entity reread =>
    { db with
      interviews := db.interviews.modify entity.id (entity.overwrite reread) (fun _ => rfl) }
  | rereadInterview _ => db
  | putObject key => { db with objects := db.objects ++ [key] }

def Write.keys : Write → List Key
  | insertMessage m => [.message m.id]
  | insertInterview v => [.interview v.id]
  | saveInterview entity _ => [.interview entity.id]
  | _ => []

def store : Store Db Write Key := ⟨Write.apply, Write.keys⟩

/-- A service method: a program over `Db`. -/
abbrev M (α : Type) := Prog Db Write Error α

/-! ## Members of a thread -/

/-- `resolveCompanyId`. -/
def Db.companyOf (db : Db) (userId : Id) : Option Id :=
  (db.recruiters.rows.find? (·.userId == userId)).map (·.companyId)

/-- `candidateProfileRepo.findOne({ where: { userId } })`. -/
def Db.profileOf (db : Db) (userId : Id) : Option CandidateProfile :=
  db.candidateProfiles.rows.find? (·.userId == userId)

/-- Who calls, and whether the lookup of their company fails: the error is swallowed. -/
structure Caller where
  userId : Id
  lookupFails : Bool
  deriving DecidableEq, Repr

namespace ConversationService

def companyOf (caller : Caller) : M (Option Id) :=
  if caller.lookupFails then ret none else select fun db => db.companyOf caller.userId

def findInCompany (conversationId : Id) (companyId : Option Id) : M (Option Conversation) :=
  match companyId with
  | none => ret none
  | some companyId => select fun db =>
    (db.conversations.get? conversationId).filter (·.companyId = companyId)

def findAsCandidate (conversationId userId : Id) : M (Option Conversation) := do
  match ← select fun db => db.profileOf userId with
  | none => return none
  | some profile => select fun db =>
    (db.conversations.get? conversationId).filter (·.candidateId = profile.id)

def findAuthorizedConversation (conversationId : Id) (caller : Caller) :
    M (Conversation × MessageSenderRole) := do
  let recruiterCompanyId ← companyOf caller
  match ← findInCompany conversationId recruiterCompanyId with
  | some conversation => return (conversation, .recruiter)
  | none =>
    match ← findAsCandidate conversationId caller.userId with
    | some conversation => return (conversation, .candidate)
    | none => throw (.notFound ("Conversation " ++ toString conversationId ++ " not found"))

/-! ### Messages -/

/-- The `INSERT` of a message; the primary key is the number of the call. -/
def insertMessage (message : Time → Message) : M Message :=
  query fun db =>
    if (db.messages.get? (message db.now).id).isSome then
      .error (uniqueViolation "PK_messages")
    else .ok ([.insertMessage (message db.now)], message db.now)

def sendMessage (uuid conversationId : Id) (caller : Caller) (body : String) : M Message := do
  let (conversation, senderRole) ← findAuthorizedConversation conversationId caller
  insertMessage fun now =>
    { id := uuid
      conversationId := conversation.id
      senderId := caller.userId
      senderRole := senderRole
      body := body
      attachmentStorageKey := none
      attachmentOriginalName := none
      attachmentMimeType := none
      attachmentSize := none
      readAt := none
      createdAt := now }

def ATTACHMENT_MAX_SIZE : Nat := 5 * 1024 * 1024

def ATTACHMENT_ALLOWED_TYPES : List String :=
  ["application/pdf", "application/vnd.openxmlformats-officedocument.wordprocessingml.document"]

/-- The characters of the safe set `[A-Za-z0-9._-]`. -/
def isSafe (c : Char) : Bool := c.isAlphanum || c = '.' || c = '_' || c = '-'

/-- A character outside the basic plane is two code units, each of which is replaced. -/
def cleanedChar (c : Char) : List Char :=
  if isSafe c then [c] else if c.toNat < 65536 then ['_'] else ['_', '_']

/-- What follows the last separator. -/
def baseName (cs : List Char) : List Char :=
  (cs.reverse.takeWhile fun c => c ≠ '/' && c ≠ '\\').reverse

def orDocument (cs : List Char) : List Char := if cs = [] then "document".toList else cs

def safeAttachmentName (originalname : String) : String :=
  let base := baseName (orDocument originalname.toList)
  let cleaned := (base.flatMap cleanedChar).dropWhile (· = '.')
  String.ofList ((orDocument cleaned).take 100)

structure AttachmentUpload where
  bufferLength : Nat
  originalname : String
  mimetype : String
  size : Nat
  deriving DecidableEq, Repr

/-- What `fileScanner.scan` answers: no threat when the file is clean. -/
structure ScanResult where
  clean : Bool
  threat : Option String
  deriving DecidableEq, Repr

def checkAttachment (file : AttachmentUpload) (scan : ScanResult) : M Unit :=
  if file.size = 0 ∨ file.bufferLength = 0 then throw (.badRequest "Le fichier est vide")
  else if file.size > ATTACHMENT_MAX_SIZE then
    throw (.badRequest "Le fichier dépasse la taille maximale de 5 Mo")
  else if file.mimetype ∉ ATTACHMENT_ALLOWED_TYPES then
    throw (.badRequest "Type de fichier non autorisé. Types acceptés : PDF, DOCX")
  else if ¬ scan.clean then
    throw (.badRequest ("Fichier rejeté : menace détectée (" ++
      scan.threat.getD "threat detected" ++ ")"))
  else ret ()

def attachmentKey (uuid conversationId : Id) (file : AttachmentUpload) : String :=
  "message-attachments/" ++ toString conversationId ++ "/" ++ toString uuid ++ "-" ++
    safeAttachmentName file.originalname

def sendAttachment (uuid conversationId : Id) (caller : Caller) (file : AttachmentUpload)
    (scan : ScanResult) (body : Option String) : M Message := do
  let (conversation, senderRole) ← findAuthorizedConversation conversationId caller
  checkAttachment file scan
  let storageKey := attachmentKey uuid conversation.id file
  write fun _ => [.putObject storageKey]
  insertMessage fun now =>
    { id := uuid
      conversationId := conversation.id
      senderId := caller.userId
      senderRole := senderRole
      body := (body.map trim).getD ""
      attachmentStorageKey := some storageKey
      attachmentOriginalName := some file.originalname
      attachmentMimeType := some file.mimetype
      attachmentSize := some file.size
      readAt := none
      createdAt := now }

structure MessageAttachmentView where
  originalName : String
  mimeType : String
  size : Nat
  deriving DecidableEq, Repr

structure MessageView where
  id : Id
  body : String
  senderRole : MessageSenderRole
  mine : Bool
  readAt : Option Time
  createdAt : Time
  attachment : Option MessageAttachmentView
  deriving DecidableEq, Repr

def attachmentView (m : Message) : Option MessageAttachmentView :=
  match truthy m.attachmentStorageKey, truthy m.attachmentOriginalName with
  | some _, some originalName => some ⟨originalName,
      m.attachmentMimeType.getD "application/octet-stream", m.attachmentSize.getD 0⟩
  | _, _ => none

def messageView (userId : Id) (m : Message) : MessageView :=
  ⟨m.id, m.body, m.senderRole, m.senderId = userId, m.readAt, m.createdAt, attachmentView m⟩

def messagesOf (db : Db) (conversationId : Id) : List Message :=
  db.messages.rows.filter (·.conversationId = conversationId)

/-- Opening a thread marks its incoming messages as read. -/
def listMessages (conversationId : Id) (caller : Caller) : M (List MessageView) := do
  let (conversation, role) ← findAuthorizedConversation conversationId caller
  let readAt ← select Db.now
  write fun _ => [.markRead conversation.id caller.userId role readAt]
  let messages ← select fun db => messagesOf db conversation.id
  return messages.map (messageView caller.userId)

/-! ### The list of threads -/

structure ConversationSummary where
  id : Id
  status : ConversationStatus
  companyId : Id
  companyName : Option String
  companyLogo : Option String
  candidateProfileId : Id
  candidateName : Option String
  counterpartName : Option String
  lastMessage : Option (String × MessageSenderRole × Time)
  unreadCount : Nat
  updatedAt : Time
  deriving DecidableEq, Repr

/-- `[firstName, lastName].filter(Boolean).join(' ') || null`. -/
def nameOf (p : CandidateProfile) : Option String :=
  truthy (some (" ".intercalate ([truthy p.firstName, truthy p.lastName].filterMap fun n => n)))

def unreadCount (db : Db) (userId conversationId : Id) : Nat :=
  db.messages.rows.countP (Message.isIncoming conversationId userId)

def summary (db : Db) (userId : Id) (viewerIsRecruiter : Bool) (c : Conversation) :
    ConversationSummary :=
  let candidateName := (db.candidateProfiles.get? c.candidateId).bind nameOf
  let companyName := (db.companies.get? c.companyId).map (·.name)
  { id := c.id
    status := c.status
    companyId := c.companyId
    companyName := companyName
    companyLogo := (db.companies.get? c.companyId).bind (·.logo)
    candidateProfileId := c.candidateId
    candidateName := candidateName
    counterpartName := if viewerIsRecruiter then candidateName else companyName
    lastMessage := (messagesOf db c.id).getLast?.map fun m => (m.body, m.senderRole, m.createdAt)
    unreadCount := unreadCount db userId c.id
    updatedAt := c.updatedAt }

/-- The threads that the caller sees, the latest first. -/
def listConversations (caller : Caller) (db : Db) : List ConversationSummary :=
  let companyId := if caller.lookupFails then none else db.companyOf caller.userId
  let profile := db.profileOf caller.userId
  let conversations := db.conversations.rows.filter fun c =>
    companyId = some c.companyId || (profile.map (·.id)) = some c.candidateId
  (conversations.insertionSort fun a b => b.updatedAt ≤ a.updatedAt).map
    (summary db caller.userId companyId.isSome)

end ConversationService

/-! ## Interviews -/

structure InterviewView where
  id : Id
  status : InterviewStatus
  mode : InterviewMode
  scheduledAt : Time
  durationMinutes : Int
  location : Option String
  note : Option String
  proposedByRole : MessageSenderRole
  mine : Bool
  respondedAt : Option Time
  createdAt : Time
  deriving DecidableEq, Repr

/-- `scheduledAt` is none for a text that is no date. -/
structure ProposeInterviewDto where
  mode : InterviewMode
  scheduledAt : Option Time
  durationMinutes : Option Int
  location : Option String
  note : Option String
  deriving DecidableEq, Repr

/-- The statuses that a response may ask for. -/
inductive InterviewResponse where
  | accepted | declined | cancelled
  deriving DecidableEq, Repr

def InterviewResponse.status : InterviewResponse → InterviewStatus
  | accepted => .accepted
  | declined => .declined
  | cancelled => .cancelled

namespace InterviewService

open ConversationService (findAuthorizedConversation)

def toView (interview : Interview) (viewerUserId : Id) : InterviewView where
  id := interview.id
  status := interview.status
  mode := interview.mode
  scheduledAt := interview.scheduledAt
  durationMinutes := interview.durationMinutes
  location := interview.location
  note := interview.note
  proposedByRole := interview.proposedByRole
  mine := interview.proposedById = viewerUserId
  respondedAt := interview.respondedAt
  createdAt := interview.createdAt

def insertInterview (interview : Time → Interview) : M Interview :=
  query fun db =>
    if (db.interviews.get? (interview db.now).id).isSome then
      .error (uniqueViolation "PK_interviews")
    else .ok ([.insertInterview (interview db.now)], interview db.now)

def propose (uuid conversationId : Id) (caller : Caller) (input : ProposeInterviewDto) :
    M InterviewView := do
  let (conversation, senderRole) ← findAuthorizedConversation conversationId caller
  match input.scheduledAt with
  | none => throw (.badRequest "scheduledAt invalide")
  | some scheduledAt =>
    let now ← select Db.now
    if scheduledAt ≤ now then
      throw (.badRequest "La date de l’entretien doit être dans le futur")
    else
      let interview ← insertInterview fun now =>
        { id := uuid
          conversationId := conversation.id
          proposedById := caller.userId
          proposedByRole := senderRole
          status := .proposed
          mode := input.mode
          scheduledAt := scheduledAt
          durationMinutes := input.durationMinutes.getD 60
          location := truthy (input.location.map trim)
          note := truthy (input.note.map trim)
          respondedAt := none
          createdAt := now }
      return toView interview caller.userId

def listOf (db : Db) (conversationId : Id) : List Interview :=
  (db.interviews.rows.filter (·.conversationId = conversationId)).reverse

/-- The newest first. -/
def list (conversationId : Id) (caller : Caller) : M (List InterviewView) := do
  let (conversation, _) ← findAuthorizedConversation conversationId caller
  let rows ← select fun db => listOf db conversation.id
  return rows.map fun r => toView r caller.userId

/-- `save(entity)` of an interview that was loaded. No operation deletes an interview. -/
def save (entity : Interview) : M Interview := do
  match ← query fun db => .ok ([.rereadInterview entity.id], db.interviews.get? entity.id) with
  | none => throw (.entityNotFound "Interview")
  | some reread =>
    if entity.overwrite reread reread = reread then return entity
    else
      write fun _ => [.saveInterview entity reread]
      return entity

/-- The counterpart may accept or decline, the proposer may cancel. -/
def checkRole (isProposer : Bool) (response : InterviewResponse) : M Unit :=
  if response = .cancelled then
    if isProposer then ret ()
    else throw (.forbidden "Seul l’auteur de la proposition peut l’annuler")
  else if isProposer then
    throw (.forbidden "Seul le destinataire peut accepter ou refuser la proposition")
  else ret ()

def respond (conversationId interviewId : Id) (caller : Caller) (response : InterviewResponse) :
    M InterviewView := do
  let (conversation, senderRole) ← findAuthorizedConversation conversationId caller
  match ← select fun db =>
      (db.interviews.get? interviewId).filter (·.conversationId = conversation.id) with
  | none => throw (.notFound "Interview not found")
  | some interview =>
    if interview.status ≠ .proposed then
      throw (.badRequest "Cet entretien a déjà été traité et ne peut plus changer")
    else
      checkRole (interview.proposedByRole = senderRole) response
      let now ← select Db.now
      let saved ← save { interview with status := response.status, respondedAt := some now }
      return toView saved caller.userId

end InterviewService

/-! ## The system -/

inductive Op where
  | clock (ms : Nat)
  | sendMessage (conversationId : Id) (caller : Caller) (body : String)
  | sendAttachment (conversationId : Id) (caller : Caller)
      (file : ConversationService.AttachmentUpload) (scan : ConversationService.ScanResult)
      (body : Option String)
  | listMessages (conversationId : Id) (caller : Caller)
  | propose (conversationId : Id) (caller : Caller) (input : ProposeInterviewDto)
  | list (conversationId : Id) (caller : Caller)
  | respond (conversationId interviewId : Id) (caller : Caller) (response : InterviewResponse)
  deriving DecidableEq, Repr

inductive Result where
  | unit
  | message (m : Message)
  | messages (ms : List ConversationService.MessageView)
  | interview (v : InterviewView)
  | interviews (vs : List InterviewView)
  deriving DecidableEq, Repr

/-- The errors a statement or an outside call may fail with by itself. -/
def isFault : Error → Bool
  | .unavailable => true
  | .queryFailed _ _ => true
  | _ => false

def program (uuid : Id) : Op → M Result
  | .clock ms => do
    write fun _ => [.tick ms]
    return .unit
  | .sendMessage conversationId caller body => do
    return .message (← ConversationService.sendMessage uuid conversationId caller body)
  | .sendAttachment conversationId caller file scan body => do
    return .message
      (← ConversationService.sendAttachment uuid conversationId caller file scan body)
  | .listMessages conversationId caller => do
    return .messages (← ConversationService.listMessages conversationId caller)
  | .propose conversationId caller input => do
    return .interview (← InterviewService.propose uuid conversationId caller input)
  | .list conversationId caller => do
    return .interviews (← InterviewService.list conversationId caller)
  | .respond conversationId interviewId caller response => do
    return .interview (← InterviewService.respond conversationId interviewId caller response)

def system : System Db Write Key Error Result Op := ⟨store, program, isFault⟩

abbrev RunState := State Db Write Error Result Op

abbrev Log := List (Txn.Group Write)

/-- The committed database at a moment of the run. -/
abbrev Db.at (d₀ : Db) (L : Log) : Db := replay store d₀ L

/-- `n` steps of call `i`. -/
def steps (i n : Nat) : List (Label Error Op) := List.replicate n (.step i)

end JobBoard.Messaging
