import Mathlib
import JobBoard.Candidates.Files
import JobBoard.Lib.Regex

/-!
# Where uploads are stored

The keys under which `sendAttachment`, `uploadCV` and `submit` store a file. Only the first cleans
the name that the client gives: its keys stay in the folder of the conversation whatever the
name. The other two copy the name into the key.
-/

set_option autoImplicit false

namespace JobBoard.Candidates.Erasure

open Txn Prog
open Messaging (Caller)
open Messaging.ConversationService (ScanResult AttachmentUpload isSafe cleanedChar baseName
  orDocument safeAttachmentName attachmentKey)

/-! ## Keys -/

/-- A character of category Cc. -/
def isControl (c : Char) : Bool := c.toNat < 32 || (127 ≤ c.toNat && c.toNat < 160)

/-- The characters that a segment of a key may have. -/
def inSegment (c : Char) : Bool := c ≠ '/' && c ≠ '\\' && !isControl c

/-- The key is the folder and one segment in it. -/
def Confined (folder key : String) : Prop := ∃ segment : List Char,
  key.toList = folder.toList ++ segment ∧ segment ≠ [] ∧ segment ≠ ['.'] ∧ segment ≠ ['.', '.'] ∧
    segment.all inSegment = true

/-- Every object that the program stores is in the folder. -/
def StoresWithin {D W ε α : Type} (storedKey : W → Option String) (folder : String)
    (p : Prog D W ε α) : Prop :=
  p.Plain (fun ws => ∀ w ∈ ws, ∀ key ∈ storedKey w, Confined folder key)
    (fun ws => ∀ w ∈ ws, ∀ key ∈ storedKey w, Confined folder key) fun _ => True

def messageKey : Messaging.Write → Option String
  | .putObject key => some key
  | _ => none

def schoolKey : Candidates.Write → Option String
  | .putObject key => some key
  | _ => none

def candidateKey : Write → Option String
  | .schools w => schoolKey w
  | _ => none

/-- A name of at most 100 characters of `[A-Za-z0-9._-]`, the first of them no dot. -/
structure SafeName (name : String) : Prop where
  nonempty : name.toList ≠ []
  length : name.length ≤ 100
  safe : name.toList.all isSafe = true
  noDot : name.toList.head? ≠ some '.'

theorem confined_key {folder owner uuid name : String} (huuid : uuid.toList.all inSegment = true) :
    Confined (folder ++ owner ++ "/") (folder ++ owner ++ "/" ++ uuid ++ "-" ++ name) ↔
      name.toList.all inSegment = true := by
  have hkey : (folder ++ owner ++ "/" ++ uuid ++ "-" ++ name).toList =
      (folder ++ owner ++ "/").toList ++ (uuid.toList ++ '-' :: name.toList) := by
    simp [String.toList_append]
  have hall : (uuid.toList ++ '-' :: name.toList).all inSegment = name.toList.all inSegment := by
    rw [List.all_append, huuid, List.all_cons]
    rfl
  have hmem : '-' ∈ uuid.toList ++ '-' :: name.toList := by simp
  constructor
  · rintro ⟨segment, hsegment, -, -, -, hin⟩
    rw [hkey] at hsegment
    rw [← hall, List.append_cancel_left hsegment]
    exact hin
  · intro hname
    refine ⟨_, hkey, List.ne_nil_of_mem hmem, ?_, ?_, hall.trans hname⟩
    · intro h
      rw [h] at hmem
      exact absurd hmem (by decide)
    · intro h
      rw [h] at hmem
      exact absurd hmem (by decide)

theorem isSafe_range {c : Char} (h : isSafe c = true) : 45 ≤ c.toNat ∧ c.toNat ≤ 122 := by
  simp only [isSafe, Bool.or_eq_true, decide_eq_true_eq] at h
  rcases h with ((h | rfl) | rfl) | rfl
  · have hword : Regex.isWord c = true := by simp [Regex.isWord, h]
    have hrange := Regex.isWord_range hword
    omega
  · decide
  · decide
  · decide

theorem isSafe_inSegment {c : Char} (h : isSafe c = true) : inSegment c = true := by
  have hrange := isSafe_range h
  have hslash : c ≠ '/' := by
    rintro rfl
    exact absurd h (by decide)
  have hbackslash : c ≠ '\\' := by
    rintro rfl
    exact absurd h (by decide)
  have hcontrol : isControl c = false := by
    simp only [isControl, Bool.or_eq_false_iff, Bool.and_eq_false_iff, decide_eq_false_iff_not]
    omega
  simp [inSegment, hslash, hbackslash, hcontrol]

theorem digits_inSegment (n : Nat) : (toString n).toList.all inSegment = true := by
  refine List.all_eq_true.2 fun c hc => isSafe_inSegment ?_
  have hdigit : c.isDigit = true := by
    by_contra hnot
    exact not_mem_digits (Bool.eq_false_iff.2 hnot) n hc
  simp [isSafe, Char.isAlphanum, hdigit]

/-! ## The names of attachments -/

theorem cleanedChar_safe (c : Char) : (cleanedChar c).all isSafe = true := by
  unfold cleanedChar
  split
  · next h => simp [h]
  · split
    · rfl
    · rfl

theorem safe_orDocument {cs : List Char} (h : cs.all isSafe = true) :
    (orDocument cs).all isSafe = true := by
  unfold orDocument
  split
  · decide
  · exact h

theorem safeAttachmentName_safe (originalname : String) :
    SafeName (safeAttachmentName originalname) := by
  unfold safeAttachmentName
  dsimp only
  generalize hbase : (baseName (orDocument originalname.toList)).flatMap cleanedChar = base
  have hsafe : base.all isSafe = true := by
    rw [← hbase, List.all_flatMap]
    exact List.all_eq_true.2 fun c _ => cleanedChar_safe c
  have hcleaned : (base.dropWhile (· = '.')).all isSafe = true :=
    List.all_eq_true.2 fun c hc =>
      List.all_eq_true.1 hsafe c ((List.dropWhile_suffix _).subset hc)
  have hne : orDocument (base.dropWhile (· = '.')) ≠ [] := by
    unfold orDocument
    split
    · decide
    · next h => exact h
  have hdot : (orDocument (base.dropWhile (· = '.'))).head? ≠ some '.' := by
    unfold orDocument
    split
    · decide
    · next h =>
      intro hhead
      have hnot := List.head?_dropWhile_not (· = '.') base
      rw [hhead] at hnot
      exact absurd hnot (by decide)
  refine ⟨?_, ?_, ?_, ?_⟩
  · rw [String.toList_ofList]
    intro h
    cases List.take_eq_nil_iff.1 h with
    | inl h => exact absurd h (by decide)
    | inr h => exact hne h
  · rw [String.length_ofList, List.length_take]
    omega
  · rw [String.toList_ofList]
    exact List.all_eq_true.2 fun c hc =>
      List.all_eq_true.1 (safe_orDocument hcleaned) c (List.mem_of_mem_take hc)
  · rw [String.toList_ofList, List.head?_take, if_neg (by decide)]
    exact hdot

/-! ## What the calls store -/

section

variable {D W ε α : Type} {storedKey : W → Option String} {folder : String}

theorem storesWithin_nil : ∀ w ∈ ([] : List W), ∀ key ∈ storedKey w, Confined folder key := by
  intro w hw
  cases hw

/-- A statement whose one write is no upload. -/
theorem storesWithin_other {w : W} (h : storedKey w = none) :
    ∀ x ∈ [w], ∀ key ∈ storedKey x, Confined folder key := by
  intro x hx key hkey
  rw [List.mem_singleton.1 hx, h] at hkey
  cases hkey

/-- The statement that uploads an object. -/
theorem storesWithin_put (storedKey : W → Option String) (w : W) {key : String} (h : storedKey w = some key)
    (hkey : Confined folder key) :
    StoresWithin storedKey folder (write fun _ => [w] : Prog D W ε Unit) := by
  refine plain_write fun _ x hx key' hkey' => ?_
  rw [List.mem_singleton.1 hx, h] at hkey'
  cases hkey'
  exact hkey

theorem storesWithin_select (f : D → α) :
    StoresWithin storedKey folder (select f : Prog D W ε α) :=
  plain_select storesWithin_nil f

theorem storesWithin_write {w : W} (h : storedKey w = none) :
    StoresWithin storedKey folder (write fun _ => [w] : Prog D W ε Unit) :=
  plain_write fun _ => storesWithin_other h

theorem storesWithin_zoom {D' W' : Type} {view : D → D'} {lift : W' → W} {p : Prog D' W' ε α}
    (h : StoresWithin (fun w => storedKey (lift w)) folder p) :
    StoresWithin storedKey folder (p.zoom view lift) := by
  refine Plain.zoom h (fun ws hws => ?_) fun ws hws => ?_
  · intro w hw
    obtain ⟨w', hw', rfl⟩ := List.mem_map.1 hw
    exact hws w' hw'
  · intro w hw
    obtain ⟨w', hw', rfl⟩ := List.mem_map.1 hw
    exact hws w' hw'

end

/-! ### Attachments -/

section

open Messaging.ConversationService (findAuthorizedConversation companyOf findInCompany
  findAsCandidate checkAttachment insertMessage sendAttachment)

variable {folder : String}

theorem getConversation_within {β : Type} {conversationId : Id}
    {p : Messaging.Conversation → Bool} {f : Option Messaging.Conversation → Messaging.M β}
    (hf : ∀ c?, (∀ c, c? = some c → c.id = conversationId) →
      StoresWithin messageKey folder (f c?)) :
    StoresWithin messageKey folder
      ((select fun db : Messaging.Db => (db.conversations.get? conversationId).filter p) >>= f) :=
  fun db => ⟨storesWithin_nil, hf _ fun _ hc =>
    Table.key_of_get? (t := db.conversations) (Option.filter_eq_some_iff.1 hc).1⟩

theorem findAsCandidate_within {β : Type} {conversationId userId : Id}
    {f : Messaging.Conversation × MessageSenderRole → Messaging.M β}
    (hf : ∀ r, r.1.id = conversationId → StoresWithin messageKey folder (f r)) :
    StoresWithin messageKey folder ((do
      match ← findAsCandidate conversationId userId with
      | some conversation => return (conversation, .candidate)
      | none => throw (.notFound ("Conversation " ++ toString conversationId ++ " not found"))) >>=
        f) := by
  unfold findAsCandidate
  rw [bind_assoc, bind_assoc]
  refine (storesWithin_select _).bind fun profile? => ?_
  cases profile? with
  | none => trivial
  | some profile =>
    refine getConversation_within fun c? hc => ?_
    cases c? with
    | none => trivial
    | some c => exact hf (c, .candidate) (hc c rfl)

theorem findAuthorizedConversation_within {β : Type} {conversationId : Id} {caller : Caller}
    {f : Messaging.Conversation × MessageSenderRole → Messaging.M β}
    (hf : ∀ r, r.1.id = conversationId → StoresWithin messageKey folder (f r)) :
    StoresWithin messageKey folder (findAuthorizedConversation conversationId caller >>= f) := by
  have hcompany : StoresWithin messageKey folder (companyOf caller) := by
    unfold companyOf
    split
    · trivial
    · exact storesWithin_select _
  unfold findAuthorizedConversation
  rw [bind_assoc]
  refine hcompany.bind fun companyId => ?_
  rw [bind_assoc]
  cases companyId with
  | none => exact findAsCandidate_within hf
  | some companyId =>
    refine getConversation_within fun c? hc => ?_
    cases c? with
    | none => exact findAsCandidate_within hf
    | some c => exact hf (c, .recruiter) (hc c rfl)

theorem attachmentKey_confined (uuid conversationId : Id) (file : AttachmentUpload) :
    Confined ("message-attachments/" ++ toString conversationId ++ "/")
      (attachmentKey uuid conversationId file) := by
  unfold attachmentKey
  refine (confined_key (digits_inSegment uuid)).2 (List.all_eq_true.2 fun c hc => ?_)
  exact isSafe_inSegment (List.all_eq_true.1 (safeAttachmentName_safe file.originalname).safe c hc)

theorem checkAttachment_within (file : AttachmentUpload) (scan : ScanResult) :
    StoresWithin messageKey folder (checkAttachment file scan) := by
  unfold checkAttachment
  split
  · trivial
  · split
    · trivial
    · split
      · trivial
      · split
        · trivial
        · trivial

theorem sendAttachment_within (uuid conversationId : Id) (caller : Caller)
    (file : AttachmentUpload) (scan : ScanResult) (body : Option String) :
    StoresWithin messageKey ("message-attachments/" ++ toString conversationId ++ "/")
      (sendAttachment uuid conversationId caller file scan body) := by
  unfold sendAttachment
  refine findAuthorizedConversation_within fun ⟨conversation, senderRole⟩ hid => ?_
  obtain rfl : conversation.id = conversationId := hid
  refine (checkAttachment_within _ _).bind fun _ => ?_
  have hkey := attachmentKey_confined uuid conversation.id file
  refine (storesWithin_put messageKey (.putObject _) rfl hkey).bind fun _ => ?_
  refine plain_query storesWithin_nil (fun db r hf => ?_) fun _ _ _ => trivial
  split at hf
  · cases hf
  · cases hf
    exact storesWithin_other rfl

end

/-! ### Documents -/

theorem cvKey_confined (uuid userId : Id) (file : UploadedFile) :
    Confined ("cv/" ++ toString userId ++ "/")
      (CandidateDocumentService.cvKey uuid userId file) ↔
        file.originalname.toList.all inSegment = true := by
  unfold CandidateDocumentService.cvKey
  exact confined_key (digits_inSegment uuid)

theorem diplomaKey_confined (uuid userId : Id) (file : UploadedFile) :
    Confined ("diploma/" ++ toString userId ++ "/")
      (SchoolVerificationService.diplomaKey uuid userId file) ↔
        file.originalname.toList.all inSegment = true := by
  unfold SchoolVerificationService.diplomaKey
  exact confined_key (digits_inSegment uuid)

section

variable {folder : String}

theorem checkUpload_within (rule : UploadRule) (file : UploadedFile) (scan : ScanResult) :
    StoresWithin schoolKey folder (checkUpload rule file scan) := by
  unfold checkUpload
  split
  · trivial
  · refine (storesWithin_select _).bind fun maxSize => ?_
    split
    · trivial
    · refine (storesWithin_select _).bind fun allowedTypes => ?_
      split
      · trivial
      · split
        · trivial
        · trivial

theorem checkUpload_zoom_within (rule : UploadRule) (file : UploadedFile) (scan : ScanResult) :
    StoresWithin candidateKey folder (inSchools (checkUpload rule file scan)) :=
  storesWithin_zoom (checkUpload_within rule file scan)

theorem insertDocument_within (d : Cvtheque.Document) :
    StoresWithin schoolKey folder (insertDocument d) := by
  refine plain_query storesWithin_nil (fun db r hf => ?_) fun _ _ _ => trivial
  split at hf
  · cases hf
  · cases hf
    exact storesWithin_other rfl

end

section

open CandidateDocumentService (uploadCV removeDocument cvKey cvRule findCV)

theorem uploadCV_within {uuid userId : Id} {file : UploadedFile} (scan : ScanResult)
    (h : file.originalname.toList.all inSegment = true) :
    StoresWithin candidateKey ("cv/" ++ toString userId ++ "/")
      (uploadCV uuid userId file scan) := by
  unfold uploadCV
  refine (checkUpload_zoom_within _ _ _).bind fun _ => ?_
  have hkey := (cvKey_confined uuid userId file).2 h
  refine (storesWithin_put candidateKey (.schools (.putObject _)) rfl hkey).bind fun _ => ?_
  refine (storesWithin_select _).bind fun existingCV? => ?_
  have hinsert : ∀ d, StoresWithin candidateKey ("cv/" ++ toString userId ++ "/")
      (inSchools (insertDocument d)) := fun d => storesWithin_zoom (insertDocument_within d)
  cases existingCV? with
  | none => exact hinsert _
  | some existingCV =>
    refine Plain.bind ?_ fun _ => hinsert _
    exact (storesWithin_write rfl).bind fun _ => storesWithin_write rfl

end

section

open SchoolVerificationService (submit diplomaKey diplomaRule replacePrevious insertVerification)

theorem replacePrevious_within {folder : String} (candidateProfileId : Id) :
    StoresWithin schoolKey folder (replacePrevious candidateProfileId) := by
  refine (storesWithin_select _).bind fun existing? => ?_
  cases existing? with
  | none => trivial
  | some existing =>
    refine (storesWithin_select _).bind fun oldDocument? => ?_
    refine (storesWithin_write rfl).bind fun _ => ?_
    cases oldDocument? with
    | none => trivial
    | some oldDocument =>
      exact (storesWithin_write rfl).bind fun _ => storesWithin_write rfl

theorem submit_within {env : Environment} {uuid userId : Id} {file : UploadedFile}
    (scan : ScanResult) (ocr : OcrExtractionResult)
    (h : file.originalname.toList.all inSegment = true) :
    StoresWithin schoolKey ("diploma/" ++ toString userId ++ "/")
      (submit env uuid userId file scan ocr) := by
  unfold submit
  refine (checkUpload_within _ _ _).bind fun _ => ?_
  have hprofile : StoresWithin schoolKey ("diploma/" ++ toString userId ++ "/")
      (inCvtheque (Cvtheque.CandidateProfileService.findOrCreateProfile uuid userId)) := by
    refine storesWithin_zoom ((findOrCreateProfile_single uuid userId).mono ?_ ?_ ?_)
    · exact fun ws _ w _ key hkey => nomatch hkey
    · exact fun ws _ w _ key hkey => nomatch hkey
    · exact fun _ _ => trivial
  refine hprofile.bind fun profile => ?_
  have hkey := (diplomaKey_confined uuid userId file).2 h
  refine (storesWithin_put schoolKey (.putObject _) rfl hkey).bind fun _ => ?_
  refine (replacePrevious_within _).bind fun _ => ?_
  refine (insertDocument_within _).bind fun document => ?_
  refine (storesWithin_select _).bind fun autoApproveMin => ?_
  have hverification : ∀ v, StoresWithin schoolKey ("diploma/" ++ toString userId ++ "/")
      (insertVerification v) := by
    intro v
    refine plain_query storesWithin_nil (fun db r hf => ?_) fun _ _ _ => trivial
    split at hf
    · cases hf
    · cases hf
      exact storesWithin_other rfl
  refine (hverification _).bind fun verification => ?_
  split
  · exact (storesWithin_write rfl).bind fun _ => trivial
  · trivial

end

/-! ## The client's names -/

section

variable {D W ε α : Type}

/-- The writes of a program whose statements all see `v`. -/
def writesAt (v : D) : Prog D W ε α → List (List W)
  | .stmt w k => w v :: writesAt v (k v)
  | .aside w k => w v :: writesAt v (k v)
  | _ => []

theorem plain_writesAt {St : List W → Prop} {Er : ε → Prop} {p : Prog D W ε α}
    (hp : p.Plain St St Er) (v : D) : ∀ ws ∈ writesAt v p, St ws := by
  induction p with
  | stmt w k ih =>
    intro ws hws
    rcases List.mem_cons.1 hws with rfl | hws
    · exact (hp v).1
    · exact ih v (hp v).2 ws hws
  | aside w k ih =>
    intro ws hws
    rcases List.mem_cons.1 hws with rfl | hws
    · exact (hp v).1
    · exact ih v (hp v).2 ws hws
  | _ => exact fun _ hws => nomatch hws

/-- An upload that is reached shows where the program stores. -/
theorem StoresWithin.confined {storedKey : W → Option String} {folder : String}
    {p : Prog D W ε α} (hp : StoresWithin storedKey folder p) {v : D} {n : Nat} {w : W}
    {key : String} (hw : (writesAt v p)[n]? = some [w]) (hkey : storedKey w = some key) :
    Confined folder key :=
  plain_writesAt hp v _ (List.mem_of_getElem? hw) w (List.mem_singleton_self w) key hkey

end

/-- A PDF of one byte. -/
def pdf (originalname : String) : UploadedFile where
  bufferLength := 1
  originalname := originalname
  mimetype := "application/pdf"
  size := 1

section

variable (originalname : String)

def AttachmentsConfined : Prop := ∀ (uuid conversationId : Id) (caller : Caller)
    (file : AttachmentUpload) (scan : ScanResult) (body : Option String),
  StoresWithin messageKey ("message-attachments/" ++ toString conversationId ++ "/")
    (Messaging.ConversationService.sendAttachment uuid conversationId caller
      { file with originalname := originalname } scan body)

def CvsConfined : Prop := ∀ (uuid userId : Id) (file : UploadedFile) (scan : ScanResult),
  StoresWithin candidateKey ("cv/" ++ toString userId ++ "/")
    (CandidateDocumentService.uploadCV uuid userId { file with originalname := originalname } scan)

def DiplomasConfined : Prop := ∀ (env : Environment) (uuid userId : Id) (file : UploadedFile)
    (scan : ScanResult) (ocr : OcrExtractionResult),
  StoresWithin schoolKey ("diploma/" ++ toString userId ++ "/")
    (SchoolVerificationService.submit env uuid userId
      { file with originalname := originalname } scan ocr)

/-- Whatever the name, an attachment is stored in the folder of its conversation, under a name of
the safe set. A CV or a diploma stays in the folder of its owner exactly when the name has no
separator and no control character. -/
theorem upload_keys_confined :
    (AttachmentsConfined originalname ∧ SafeName (safeAttachmentName originalname)) ∧
      (CvsConfined originalname ↔ originalname.toList.all inSegment = true) ∧
      (DiplomasConfined originalname ↔ originalname.toList.all inSegment = true) := by
  refine ⟨⟨fun _ _ _ _ _ _ => sendAttachment_within _ _ _ _ _ _, safeAttachmentName_safe _⟩,
    ⟨fun h => ?_, fun h _ _ _ _ => uploadCV_within _ h⟩,
    ⟨fun h => ?_, fun h _ _ _ _ _ _ => submit_within _ _ h⟩⟩
  · refine (cvKey_confined 0 0 (pdf originalname)).1 ?_
    exact (h 0 0 (pdf originalname) ⟨true, none⟩).confined (v := Db.empty) (n := 2) rfl rfl
  · refine (diplomaKey_confined 0 0 (pdf originalname)).1 ?_
    exact (h ⟨id⟩ 0 0 (pdf originalname) ⟨true, none⟩ ⟨"", 0⟩).confined
      (v := Db.empty.schools) (n := 4) rfl rfl

end

/-- A line break in the name of a CV. -/
theorem newline_in_cvKey : ¬ ∀ originalname : String,
    (AttachmentsConfined originalname ∧ SafeName (safeAttachmentName originalname)) ∧
      CvsConfined originalname ∧ DiplomasConfined originalname := by
  intro h
  have hkey := ((h "cv\n.pdf").2.1 0 0 (pdf "cv\n.pdf") ⟨true, none⟩).confined (v := Db.empty)
    (n := 2) rfl rfl
  exact absurd ((cvKey_confined 0 0 (pdf "cv\n.pdf")).1 hkey) (by decide)

end JobBoard.Candidates.Erasure
