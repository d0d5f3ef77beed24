import JobBoard.Cvtheque.Conduct
import JobBoard.Messaging.Threads

/-!
# School verifications

`SchoolVerificationService.submit` stores a diploma, replaces the previous submission and may
approve it at once; an administrator approves or rejects a pending one. The candidate edits the
school of the profile by `CandidateProfileService.updateProfile`. The programs of the CVthèque run
on the larger database here, with the rows of the documents and the object storage. What the
scanner and the OCR answer is given from outside.
-/

set_option autoImplicit false

namespace JobBoard.Candidates

open Txn Prog
open Cvtheque (SchoolVerification Document UpdateProfileDto)
open Assessments (trim)
open Messaging.ConversationService (ScanResult)

/-! ## The database -/

structure Db where
  cvtheque : Cvtheque.Db
  /-- The keys of the object storage. -/
  objects : List String

inductive Write where
  | cvtheque (w : Cvtheque.Write)
  | insertDocument (d : Document)
  /-- With the verifications that refer to it. -/
  | deleteDocument (id : Id)
  | insertVerification (v : SchoolVerification)
  | deleteVerification (id : Id)
  | putObject (key : String)
  | deleteObject (key : String)
  deriving DecidableEq, Repr

inductive Key where
  | cvtheque (k : Cvtheque.Key)
  | document (id : Id)
  | verification (id : Id)
  | verificationProfile (candidateProfileId : Id)
  deriving DecidableEq, Repr

def Write.apply (db : Db) : Write → Db
  | cvtheque w => { db with cvtheque := Cvtheque.store.apply db.cvtheque w }
  | insertDocument d =>
    { db with cvtheque := { db.cvtheque with documents := db.cvtheque.documents.insert d } }
  | deleteDocument id =>
    { db with
      cvtheque := { db.cvtheque with
        documents := db.cvtheque.documents.delete id
        schoolVerifications := db.cvtheque.schoolVerifications.deleteWhere (·.documentId = id) } }
  | insertVerification v =>
    { db with
      cvtheque := { db.cvtheque with
        schoolVerifications := db.cvtheque.schoolVerifications.insert v } }
  | deleteVerification id =>
    { db with
      cvtheque := { db.cvtheque with
        schoolVerifications := db.cvtheque.schoolVerifications.deleteWhere (·.id = id) } }
  | putObject key => { db with objects := db.objects ++ [key] }
  | deleteObject key => { db with objects := db.objects.filter (· ≠ key) }

def Write.keys : Write → List Key
  | cvtheque w => (Cvtheque.store.keys w).map .cvtheque
  | insertDocument d => [.document d.id]
  | deleteDocument id => [.document id]
  | insertVerification v => [.verification v.id, .verificationProfile v.candidateProfileId]
  | deleteVerification id => [.verification id]
  | putObject _ | deleteObject _ => []

def store : Store Db Write Key := ⟨Write.apply, Write.keys⟩

/-- A service method: a program over `Db`. -/
abbrev M (α : Type) := Prog Db Write Error α

/-- A method of the CVthèque. -/
def inCvtheque {α : Type} (p : Cvtheque.M α) : M α := p.zoom Db.cvtheque .cvtheque

structure Environment where
  /-- Lower case without accents and punctuation, words separated by one space. -/
  normalize : String → String

/-! ## Grandes écoles -/

structure GrandeEcole where
  name : String
  aliases : List String
  deriving DecidableEq, Repr

def GRANDES_ECOLES : List GrandeEcole :=
  [⟨"ENSIAS — École Nationale Supérieure d'Informatique et d'Analyse des Systèmes",
      ["ensias", "ecole nationale superieure d informatique et d analyse des systemes"]⟩,
    ⟨"EMI — École Mohammadia d'Ingénieurs",
      ["emi", "ecole mohammadia d ingenieurs", "mohammadia ingenieurs"]⟩,
    ⟨"INPT — Institut National des Postes et Télécommunications",
      ["inpt", "institut national des postes et telecommunications"]⟩,
    ⟨"ENIM — École Nationale de l'Industrie Minérale",
      ["enim", "ecole nationale de l industrie minerale", "industrie minerale"]⟩,
    ⟨"EHTP — École Hassania des Travaux Publics",
      ["ehtp", "ecole hassania des travaux publics", "hassania"]⟩,
    ⟨"INSEA — Institut National de Statistique et d'Économie Appliquée",
      ["insea", "institut national de statistique et d economie appliquee"]⟩,
    ⟨"UM6P — Université Mohammed VI Polytechnique",
      ["um6p", "universite mohammed vi polytechnique", "mohammed vi polytechnique"]⟩,
    ⟨"UIR — Université Internationale de Rabat",
      ["uir", "universite internationale de rabat"]⟩,
    ⟨"ENSEM — École Nationale Supérieure d'Électricité et de Mécanique",
      ["ensem", "ecole nationale superieure d electricite et de mecanique"]⟩,
    ⟨"ESITH — École Supérieure des Industries du Textile et de l'Habillement",
      ["esith", "ecole superieure des industries du textile et de l habillement"]⟩,
    ⟨"EMSI — École Marocaine des Sciences de l'Ingénieur",
      ["emsi", "ecole marocaine des sciences de l ingenieur"]⟩]

/-- `text.split(separator)`. -/
def split (separator : Char) (text : String) : List String :=
  (text.toList.splitOn separator).map String.ofList

/-- The alias stands in the text as words of its own. -/
def wholeWord (needle text : String) : Bool :=
  needle ≠ "" && (split ' ' text).tails.any fun rest => (split ' ' needle).isPrefixOf rest

/-- The name of the first school that the text mentions. -/
def matchGrandeEcole (env : Environment) (extractedText : String) : Option String :=
  let normalized := env.normalize extractedText
  if normalized = "" then none
  else (GRANDES_ECOLES.find? fun school =>
    school.aliases.any fun name => wholeWord (env.normalize name) normalized).map (·.name)

/-! ## Uploads -/

structure UploadedFile where
  bufferLength : Nat
  originalname : String
  mimetype : String
  size : Int
  deriving DecidableEq, Repr

/-- The settings of an upload, and the text for a file of another type. -/
structure UploadRule where
  maxSizeSetting : String
  defaultMaxSize : Int
  allowedTypesSetting : String
  defaultAllowedTypes : String
  typeMessage : String

/-- The checks of an upload, before anything is stored. -/
def checkUpload (rule : UploadRule) (file : UploadedFile) (scan : ScanResult) : M Unit :=
  if file.size = 0 ∨ file.bufferLength = 0 then throw (.badRequest "Le fichier est vide")
  else do
    let maxSize ← select fun db =>
      (db.cvtheque.settings.getNumber rule.maxSizeSetting).getD rule.defaultMaxSize
    if file.size > maxSize then
      throw (.badRequest ("Le fichier dépasse la taille maximale de " ++
        toString (mathRound maxSize (1024 * 1024)) ++ " Mo"))
    else
      let allowedTypes ← select fun db =>
        (split ',' ((db.cvtheque.settings.get rule.allowedTypesSetting).getD
          rule.defaultAllowedTypes)).map trim
      if file.mimetype ∉ allowedTypes then throw (.badRequest rule.typeMessage)
      else if ¬ scan.clean then
        throw (.badRequest ("Fichier rejeté : menace détectée (" ++
          scan.threat.getD "threat detected" ++ ")"))
      else ret ()

/-- The constraint that the new document would violate. -/
def documentViolation (d : Document) (db : Db) : Option String :=
  if (db.cvtheque.documents.get? d.id).isSome then some "PK_documents" else none

def insertDocument (d : Document) : M Document :=
  query fun db => match documentViolation d db with
    | some constraint => .error (uniqueViolation constraint)
    | none => .ok ([.insertDocument d], d)

/-- What the OCR engine reads, with its confidence in hundredths of a percent. -/
structure OcrExtractionResult where
  text : String
  confidence : Int
  deriving DecidableEq, Repr

namespace SchoolVerificationService

def diplomaRule : UploadRule where
  maxSizeSetting := "diploma_max_size_bytes"
  defaultMaxSize := 8 * 1024 * 1024
  allowedTypesSetting := "diploma_allowed_mime_types"
  defaultAllowedTypes := "application/pdf,image/jpeg,image/png"
  typeMessage := "Type de fichier non autorisé. Types acceptés : PDF, JPEG, PNG"

def DEFAULT_AUTO_APPROVE_MIN_CONFIDENCE : Int := 92

def diplomaKey (uuid userId : Id) (file : UploadedFile) : String :=
  "diploma/" ++ toString userId ++ "/" ++ toString uuid ++ "-" ++ file.originalname

def verificationOf (candidateProfileId : Id) (db : Db) : Option SchoolVerification :=
  db.cvtheque.schoolVerifications.rows.find? (·.candidateProfileId = candidateProfileId)

/-- A re-submission replaces the previous attempt. -/
def replacePrevious (candidateProfileId : Id) : M Unit := do
  match ← select (verificationOf candidateProfileId) with
  | none => return ()
  | some existing =>
    let oldDocument ← select fun db => db.cvtheque.documents.get? existing.documentId
    write fun _ => [.deleteVerification existing.id]
    match oldDocument with
    | none => return ()
    | some oldDocument =>
      write fun _ => [.deleteObject oldDocument.storageKey]
      write fun _ => [.deleteDocument oldDocument.id]

/-- The constraint that the new verification would violate. -/
def verificationViolation (v : SchoolVerification) (db : Db) : Option String :=
  if (db.cvtheque.schoolVerifications.get? v.id).isSome then some "PK_school_verifications"
  else if (verificationOf v.candidateProfileId db).isSome then
    some "UQ_school_verifications_candidate_profile_id"
  else none

def insertVerification (v : Time → SchoolVerification) : M SchoolVerification :=
  query fun db => match verificationViolation (v db.cvtheque.now) db with
    | some constraint => .error (uniqueViolation constraint)
    | none => .ok ([.insertVerification (v db.cvtheque.now)], v db.cvtheque.now)

/-- `Math.round(confidence)`. -/
def roundedPercent (confidence : Int) : String := toString (mathRound confidence 100)

/-- The row of a submission. It is approved at once when the school is in the reference list and
the OCR is confident enough. -/
def newVerification (uuid candidateProfileId documentId : Id) (school : Option String)
    (confidence autoApproveMin : Int) (now : Time) : SchoolVerification :=
  let approved := school.filter fun _ => autoApproveMin * 100 ≤ confidence
  { id := uuid
    candidateProfileId := candidateProfileId
    documentId := documentId
    status := if approved.isSome then .verified else .pending
    matchedSchool := school
    reviewedBy := none
    reviewedAt := if approved.isSome then some now else none
    reviewNote := match approved, school with
      | some school, _ => some ("Auto-approuvé : OCR " ++ roundedPercent confidence ++ "% ≥ " ++
          toString autoApproveMin ++ "% (" ++ school ++ ")")
      | none, none =>
        some "École non référencée — en attente de validation par un administrateur."
      | none, some _ => some ("En attente de validation par un administrateur (OCR " ++
          roundedPercent confidence ++ "% < " ++ toString autoApproveMin ++ "%).") }

def submit (env : Environment) (uuid userId : Id) (file : UploadedFile) (scan : ScanResult)
    (ocr : OcrExtractionResult) : M SchoolVerification := do
  checkUpload diplomaRule file scan
  let profile ← inCvtheque (Cvtheque.CandidateProfileService.findOrCreateProfile uuid userId)
  write fun _ => [.putObject (diplomaKey uuid userId file)]
  replacePrevious profile.id
  let document ← insertDocument
    { id := uuid
      ownerId := userId
      type := .diploma
      storageKey := diplomaKey uuid userId file
      originalName := file.originalname
      mimeType := file.mimetype
      size := file.size
      scanStatus := .clean }
  let autoApproveMin ← select fun db =>
    (db.cvtheque.settings.getNumber
      "school_verification_auto_approve_min_confidence").getD DEFAULT_AUTO_APPROVE_MIN_CONFIDENCE
  let school := matchGrandeEcole env ocr.text
  let verification ← insertVerification
    (newVerification uuid profile.id document.id school ocr.confidence autoApproveMin)
  if verification.status = .verified then
    write fun _ => [.cvtheque (.approveSchool profile.id school)]
  return verification

def approve (id adminUserId : Id) (note : Option String) : M SchoolVerification :=
  inCvtheque (Cvtheque.SchoolVerificationService.approve id adminUserId note)

def reject (id adminUserId : Id) (note : Option String) : M SchoolVerification :=
  inCvtheque (Cvtheque.SchoolVerificationService.reject id adminUserId note)

end SchoolVerificationService

/-! ## The system -/

inductive Op where
  | clock (us : Nat)
  | submit (userId : Id) (file : UploadedFile) (scan : ScanResult) (ocr : OcrExtractionResult)
  | approve (id adminUserId : Id) (note : Option String)
  | reject (id adminUserId : Id) (note : Option String)
  | updateProfile (profileId : Id) (data : UpdateProfileDto)
  deriving DecidableEq, Repr

inductive Result where
  | unit
  | verification (v : SchoolVerification)
  | profile (p : Cvtheque.CandidateProfile)
  deriving DecidableEq, Repr

/-- The errors a statement or an outside call may fail with by itself. -/
def isFault : Error → Bool
  | .unavailable => true
  | .queryFailed _ _ => true
  | _ => false

def program (env : Environment) (uuid : Id) : Op → M Result
  | .clock us => do
    write fun _ => [.cvtheque (.tick us)]
    return .unit
  | .submit userId file scan ocr => do
    return .verification (← SchoolVerificationService.submit env uuid userId file scan ocr)
  | .approve id adminUserId note => do
    return .verification (← SchoolVerificationService.approve id adminUserId note)
  | .reject id adminUserId note => do
    return .verification (← SchoolVerificationService.reject id adminUserId note)
  | .updateProfile profileId data => do
    return .profile
      (← inCvtheque (Cvtheque.CandidateProfileService.updateProfile profileId data))

def system (env : Environment) : System Db Write Key Error Result Op :=
  ⟨store, program env, isFault⟩

abbrev RunState := State Db Write Error Result Op

abbrev Log := List (Txn.Group Write)

/-- The committed database at a moment of the run. -/
abbrev Db.at (d₀ : Db) (L : Log) : Db := replay store d₀ L

/-- `n` steps of call `i`. -/
def steps (i n : Nat) : List (Label Error Op) := List.replicate n (.step i)

end JobBoard.Candidates
