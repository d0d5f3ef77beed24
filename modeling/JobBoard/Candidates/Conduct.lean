import JobBoard.Candidates.Requests

/-!
# What the calls publish

Each write of an upload, an erasure or a data request, as a fact about the log it is added to. An
object is stored once, under a key that holds the number of the call; the row of a document is
inserted after its object and removed after it; and a request is saved as completed after the
erasure that it asks for.
-/

set_option autoImplicit false

namespace JobBoard.Candidates.Erasure

open Txn Prog
open Cvtheque (Document)
open Messaging (Caller)
open Messaging.ConversationService (ScanResult AttachmentUpload)

/-! ## Kinds of writes -/

/-- The erasure of an account under the request `id`. -/
def Write.erasesUnder (id : Id) : Write → Bool
  | .anonymize requestId _ _ => requestId = some id
  | _ => false

def Write.puts : Write → Bool
  | .schools (.putObject _) => true
  | _ => false

def Write.insertsDocument : Write → Bool
  | .schools (.insertDocument _) => true
  | _ => false

/-- Nothing is promised of the write. -/
def Write.quiet : Write → Bool
  | .schools (.putObject _) | .schools (.insertDocument _) | .schools (.deleteDocument _) => false
  | .messaging (.putObject _) => false
  | .deleteDocuments _ => false
  | .anonymize (some _) _ _ => false
  | .insertRequest _ | .saveRequest _ _ => false
  | _ => true

/-- The key of a CV or a diploma that call `i` uploads. -/
def UploadKey (i : Nat) (key : String) : Prop := ∃ owner file,
  key = CandidateDocumentService.cvKey i owner file ∨
    key = SchoolVerificationService.diplomaKey i owner file

/-- The keys whose deletion the storage fails in a call. -/
def Op.failing : Op → List String
  | .deleteData _ failing => failing
  | .updateStatus _ _ _ _ failing => failing
  | _ => []

/-! ## Promises -/

section

variable (d₀ : Db) (i : Nat)

/-- The object of the document was deleted since the moment `R`, or the storage has failed. -/
def ObjectGone (failing : List String) (R L : Log) (doc : Document) : Prop :=
  doc.storageKey ∈ failing ∨
    ∃ C, R <+: C ∧ WrittenAt L C i (.schools (.deleteObject doc.storageKey))

/-- The call has listed the documents of the user, and then the object of each is gone. -/
def Swept (failing : List String) (userId : Id) (L : Log) : Prop :=
  ∃ R, WrittenAt L R i (.listDocuments userId) ∧
    ∀ doc ∈ (d₀.at R).documentsOf userId, ObjectGone i failing R L doc

/-- The request is COMPLETED at some moment, or the call has saved it so. -/
def Settled (id : Id) (L : Log) : Prop :=
  (∃ B r, B <+: L ∧ (d₀.at B).dataRequests.get? id = some r ∧ r.status = .completed) ∨
    ∃ B entity reread, WrittenAt L B i (.saveRequest entity reread) ∧ entity.id = id ∧
      entity.status = .completed

/-- What the call has erased under a request is settled. -/
def SettledErasures (L : Log) : Prop :=
  ∀ id, Unwritten i (Write.erasesUnder id) L ∨ Settled d₀ i id L

/-- What is known of a write of call `i` at the log `L`. -/
def Guarantee (op : Op) (L : Log) : Write → Prop
  | .schools (.putObject key) => UploadKey i key ∧ Unwritten i Write.puts L
  | .schools (.insertDocument d) => d.id = i ∧ UploadKey i d.storageKey ∧
    Unwritten i Write.insertsDocument L ∧
    (∃ C, WrittenAt L C i (.schools (.putObject d.storageKey))) ∧
    (d₀.at L).schools.cvtheque.documents.get? d.id = none
  | .schools (.deleteDocument id) => ∃ B C doc, B <+: C ∧
    (d₀.at B).schools.cvtheque.documents.get? id = some doc ∧
    WrittenAt L C i (.schools (.deleteObject doc.storageKey))
  | .messaging (.putObject key) => ∃ conversationId file,
    key = Messaging.ConversationService.attachmentKey i conversationId file
  | .deleteDocuments ids => ∃ R userId, WrittenAt L R i (.listDocuments userId) ∧
    ids = ((d₀.at R).documentsOf userId).map (fun d => d.id) ∧
    ∀ doc ∈ (d₀.at R).documentsOf userId, ObjectGone i op.failing R L doc
  | .anonymize (some id) user _ =>
    (∃ adminId note failing, op = .updateStatus id adminId .completed note failing) ∧
    ∃ A request, A <+: L ∧ (d₀.at A).dataRequests.get? id = some request ∧
      request.type = .erasure ∧ request.userId = user.id
  | .insertRequest r => r.status = .pending
  | .saveRequest entity reread =>
    (∃ A request, A <+: L ∧ (d₀.at A).dataRequests.get? entity.id = some request ∧
      entity.type = request.type ∧ entity.userId = request.userId) ∧
    (∃ R, R <+: L ∧ (d₀.at R).dataRequests.get? entity.id = some reread) ∧
    (entity.status = .completed → entity.type = .erasure →
      ∃ A user reread', WrittenAt L A i (.anonymize (some entity.id) user reread') ∧
        user.id = entity.userId)
  | _ => True

/-- What the result of a call says. -/
def Outcome (op : Op) (L : Log) (a : Result) : Prop :=
  match op with
  | .deleteData userId failing => Swept d₀ i failing userId L
  | .updateStatus _ _ status _ failing => SettledErasures d₀ i L ∧
    ∀ r, a = .request r → status = .completed → r.type = .erasure → Swept d₀ i failing r.userId L
  | _ => True

/-- What holds where a call throws or fails. -/
def Failure (op : Op) (L : Log) : Prop :=
  match op with
  | .updateStatus .. => SettledErasures d₀ i L
  | _ => True

end

/-! ## Facts that others keep -/

/-- Other calls keep `P`, and so do the quiet writes of call `i`. -/
structure Carried (i : Nat) (P : Log → Prop) : Prop where
  others : ∀ {L L'}, P L → ByOthers i L L' → P L'
  own : ∀ {L w}, P L → w.quiet = true → P (L ++ [⟨i, false, [w]⟩])

section

variable {env : Environment} {d₀ : Db} {i : Nat} {op : Op} {L : Log}

theorem at_snoc (L : Log) (i : Nat) (w : Write) :
    d₀.at (L ++ [⟨i, false, [w]⟩]) = store.apply (d₀.at L) w := replay_snoc ..

theorem carried_onto {P : Log → Prop} (h : ∀ {L L'}, P L → L <+: L' → P L') : Carried i P where
  others hP hr := h hP hr.onto
  own hP _ := h hP (List.prefix_append _ _)

theorem carried_unwritten {p : Write → Bool} (hp : ∀ w, w.quiet = true → p w = false) :
    Carried i (Unwritten i p) where
  others h hr := h.others hr
  own h hw := h.snoc (hp _ hw)

theorem Carried.and {P P' : Log → Prop} (h : Carried i P) (h' : Carried i P') :
    Carried i fun L => P L ∧ P' L where
  others hP hr := ⟨h.others hP.1 hr, h'.others hP.2 hr⟩
  own hP hw := ⟨h.own hP.1 hw, h'.own hP.2 hw⟩

theorem puts_quiet : ∀ w : Write, w.quiet = true → w.puts = false := by
  rintro w hw
  unfold Write.puts
  split
  · cases hw
  · rfl

theorem insertsDocument_quiet : ∀ w : Write, w.quiet = true → w.insertsDocument = false := by
  rintro w hw
  unfold Write.insertsDocument
  split
  · cases hw
  · rfl

theorem erasesUnder_quiet (id : Id) : ∀ w : Write, w.quiet = true → w.erasesUnder id = false := by
  rintro w hw
  unfold Write.erasesUnder
  split
  · next requestId _ _ =>
    cases requestId with
    | none => rfl
    | some _ => cases hw
  · rfl

theorem quiet_guarantee (L : Log) {w : Write} (h : w.quiet = true) : Guarantee d₀ i op L w := by
  unfold Guarantee
  split
  all_goals trivial

theorem ObjectGone.mono {failing : List String} {R L L' : Log} {doc : Document}
    (h : ObjectGone i failing R L doc) (hl : L <+: L') : ObjectGone i failing R L' doc :=
  h.imp_right fun ⟨C, hR, hC⟩ => ⟨C, hR, hC.mono hl⟩

theorem Swept.mono {failing : List String} {userId : Id} {L L' : Log}
    (h : Swept d₀ i failing userId L) (hl : L <+: L') : Swept d₀ i failing userId L' := by
  obtain ⟨R, hR, hgone⟩ := h
  exact ⟨R, hR.mono hl, fun doc hdoc => (hgone doc hdoc).mono hl⟩

theorem Settled.mono {id : Id} {L L' : Log} (h : Settled d₀ i id L) (hl : L <+: L') :
    Settled d₀ i id L' := by
  rcases h with ⟨B, r, hB, hr⟩ | ⟨B, entity, reread, hB, hid⟩
  · exact .inl ⟨B, r, hB.trans hl, hr⟩
  · exact .inr ⟨B, entity, reread, hB.mono hl, hid⟩

theorem SettledErasures.others {g : Txn.Group Write} (hg : g.call ≠ i)
    (h : SettledErasures d₀ i L) : SettledErasures d₀ i (L ++ [g]) := fun id =>
  (h id).imp (fun h => h.others ⟨[g], rfl, by simpa using hg⟩)
    fun h => h.mono (List.prefix_append _ _)

/-! ## Pieces -/

abbrev Follow {α : Type} (d₀ : Db) (i : Nat) (op : Op) (F : Log → Prop) (p : M α)
    (Q : Log → α → Prop) (L : Log) : Prop :=
  p.Follows store d₀ i (Guarantee d₀ i op) F (fun e => isFault e = true) Q L

/-- Nothing is promised of where it throws. -/
abbrev Keeps {α : Type} (d₀ : Db) (i : Nat) (op : Op) (p : M α) (Q : Log → α → Prop)
    (L : Log) : Prop := Follow d₀ i op (fun _ => True) p Q L

abbrev QuietWrites (ws : List Write) : Prop := ws = [] ∨ ∃ w, ws = [w] ∧ w.quiet = true

abbrev Quiet {α : Type} (p : M α) : Prop := p.Plain QuietWrites QuietWrites fun _ => True

theorem Quiet.follow {α : Type} {p : M α} {F P : Log → Prop} {Q : Log → α → Prop} (hp : Quiet p)
    (hP : Carried i P) (hF : ∀ L, P L → F L) (h : P L) (hQ : ∀ L' a, P L' → Q L' a) :
    Follow d₀ i op F p Q L := by
  refine (Plain.follows (P := P) hp (fun _ _ => hP.others) ?_ (fun L' _ h _ => hF L' h) h).mono hQ
  exact fun L' w h hw => ⟨quiet_guarantee L' hw, hP.own h hw⟩

/-- One write at a time. -/
abbrev Single {D W α : Type} (p : Prog D W Error α) : Prop :=
  p.Plain (fun ws => ws = [] ∨ ∃ w, ws = [w]) (fun ws => ws = [] ∨ ∃ w, ws = [w]) fun _ => True

theorem single_nil {W : Type} : ([] : List W) = [] ∨ ∃ w, ([] : List W) = [w] := .inl rfl

/-- Quiet inside the larger database. -/
def SchoolWrites (ws : List Candidates.Write) : Prop := QuietWrites (ws.map .schools)

abbrev QuietSchools {α : Type} (p : Candidates.M α) : Prop :=
  p.Plain SchoolWrites SchoolWrites fun _ => True

theorem schoolWrites_nil : SchoolWrites [] := .inl rfl

theorem QuietSchools.quiet {α : Type} {p : Candidates.M α} (hp : QuietSchools p) :
    Quiet (inSchools p) := hp.zoom (fun _ h => h) fun _ h => h

/-- The methods of the CVthèque are quiet. -/
theorem Single.quietSchools {α : Type} {p : Cvtheque.M α} (hp : Single p) :
    QuietSchools (inCvtheque p) := by
  have hlift : ∀ ws : List Cvtheque.Write, (ws = [] ∨ ∃ w, ws = [w]) →
      SchoolWrites (ws.map Candidates.Write.cvtheque) := by
    rintro ws (rfl | ⟨w, rfl⟩)
    · exact .inl rfl
    · exact .inr ⟨_, rfl, rfl⟩
  exact hp.zoom hlift hlift

/-! ### Uploads -/

theorem checkUpload_quiet (rule : UploadRule) (file : UploadedFile) (scan : ScanResult) :
    Quiet (inSchools (checkUpload rule file scan)) := by
  have hplain : QuietSchools (checkUpload rule file scan) := by
    unfold checkUpload
    split
    · trivial
    · refine (plain_select schoolWrites_nil _).bind fun maxSize => ?_
      split
      · trivial
      · refine (plain_select schoolWrites_nil _).bind fun allowedTypes => ?_
        split
        · trivial
        · split
          · trivial
          · trivial
  exact hplain.quiet

theorem findOrCreateProfile_single (uuid userId : Id) :
    Single (Cvtheque.CandidateProfileService.findOrCreateProfile uuid userId) := by
  refine (plain_select single_nil _).bind fun existing? => ?_
  cases existing? with
  | some existing => exact plain_ret _
  | none =>
    refine plain_query single_nil (fun db r hf => ?_) fun _ _ _ => trivial
    split at hf
    · cases hf
    · cases hf
      exact .inr ⟨_, rfl⟩

/-- The call has stored the object of its document, and inserts the row next. -/
def Stored (i : Nat) (key : String) (L : Log) : Prop :=
  (∃ C, WrittenAt L C i (.schools (.putObject key))) ∧ Unwritten i Write.insertsDocument L

theorem Stored.snoc {key : String} {w : Write} (h : Stored i key L)
    (hw : w.insertsDocument = false) : Stored i key (L ++ [⟨i, false, [w]⟩]) := by
  obtain ⟨⟨C, hC⟩, hinserts⟩ := h
  exact ⟨⟨C, hC.mono (List.prefix_append _ _)⟩, hinserts.snoc hw⟩

theorem stored_carried (i : Nat) (key : String) : Carried i (Stored i key) where
  others h hr := by
    obtain ⟨⟨C, hC⟩, hinserts⟩ := h
    exact ⟨⟨C, hC.mono hr.onto⟩, hinserts.others hr⟩
  own h hw := h.snoc (insertsDocument_quiet _ hw)

/-- The object goes first, then the row of the document that was found. -/
theorem removeDocument_keeps {doc : Document} {B : Log} {Q : Log → Unit → Prop}
    {P : Log → Prop} (hB : B <+: L)
    (hdoc : (d₀.at B).schools.cvtheque.documents.get? doc.id = some doc) (hP : Carried i P)
    (hdelete : ∀ L', P L' → P (L' ++ [⟨i, false, [.schools (.deleteDocument doc.id)]⟩]))
    (h : P L) (hQ : ∀ L', P L' → Q L' ()) :
    Keeps d₀ i op (CandidateDocumentService.removeDocument doc) Q L := by
  unfold CandidateDocumentService.removeDocument
  refine follows_bind.2 (follows_write fun L₁ hr₁ => ⟨trivial, ?_⟩)
  have hC : WrittenAt (L₁ ++ [⟨i, false, [.schools (.deleteObject doc.storageKey)]⟩]) L₁ i
      (.schools (.deleteObject doc.storageKey)) := writtenAt_self _ _ _
  refine follows_write fun L₂ hr₂ => ⟨?_, hQ _ (hdelete _ ?_)⟩
  · exact ⟨B, L₁, doc, hB.trans hr₁.onto, hdoc, hC.mono hr₂.onto⟩
  · exact hP.others (hP.own (hP.others h hr₁) rfl) hr₂

theorem insertDocument_keeps {d : Document} {Q : Log → Document → Prop}
    (h : Stored i d.storageKey L) (hid : d.id = i) (hkey : UploadKey i d.storageKey)
    (hQ : ∀ L' d', L <+: L' → Q L' d') :
    Keeps d₀ i op (inSchools (insertDocument d)) Q L := by
  unfold inSchools insertDocument
  rw [zoom_query]
  refine promises_query fun L₁ ws d' hr hf => ?_
  cases hv : documentViolation d (d₀.at L₁).schools with
  | some constraint =>
    rw [hv] at hf
    cases hf
  | none =>
    rw [hv] at hf
    cases hf
    have h₁ := (stored_carried i d.storageKey).others h hr
    refine .inr ⟨_, rfl, ⟨hid, hkey, h₁.2, h₁.1, ?_⟩, hQ _ _ ?_⟩
    · unfold documentViolation at hv
      split at hv
      · cases hv
      · next hfresh => exact Option.not_isSome_iff_eq_none.1 hfresh
    · exact hr.onto.trans (List.prefix_append _ _)

/-- The call has uploaded nothing yet. -/
def NotUploaded (i : Nat) (L : Log) : Prop :=
  Unwritten i Write.puts L ∧ Unwritten i Write.insertsDocument L

theorem notUploaded_carried (i : Nat) : Carried i (NotUploaded i) :=
  (carried_unwritten puts_quiet).and (carried_unwritten insertsDocument_quiet)

theorem putObject_keeps {key : String} {Q : Log → Unit → Prop} (h : NotUploaded i L)
    (hkey : UploadKey i key) (hQ : ∀ L', Stored i key L' → Q L' ()) :
    Keeps d₀ i op (write fun _ => [.schools (.putObject key)]) Q L := by
  refine follows_write fun L₁ hr => ?_
  obtain ⟨hputs, hinserts⟩ := (notUploaded_carried i).others h hr
  exact ⟨⟨hkey, hputs⟩, hQ _ ⟨⟨L₁, writtenAt_self _ _ _⟩, hinserts.snoc rfl⟩⟩

theorem findCV_found {db : Db} {userId : Id} {doc : Document}
    (h : (db.documentsOf userId).find? (·.type = .cv) = some doc) :
    db.schools.cvtheque.documents.get? doc.id = some doc :=
  Table.get?_of_mem (List.mem_filter.1 (List.mem_of_find?_eq_some h)).1

theorem uploadCV_keeps {userId : Id} {file : UploadedFile} {scan : ScanResult}
    {Q : Log → Document → Prop} (h : NotUploaded i L) (hQ : ∀ L' d, Q L' d) :
    Keeps d₀ i op (CandidateDocumentService.uploadCV i userId file scan) Q L := by
  unfold CandidateDocumentService.uploadCV
  refine follows_bind.2 ((checkUpload_quiet _ _ _).follow (notUploaded_carried i)
    (fun _ _ => trivial) h fun L₁ _ h₁ => ?_)
  have hkey : UploadKey i (CandidateDocumentService.cvKey i userId file) :=
    ⟨userId, file, .inl rfl⟩
  refine follows_bind.2 (putObject_keeps h₁ hkey fun L₂ h₂ => ?_)
  unfold CandidateDocumentService.findCV
  refine follows_bind.2 (follows_select fun L₃ hr₃ => ?_)
  have h₃ := (stored_carried i _).others h₂ hr₃
  have hinsert : ∀ L', Stored i (CandidateDocumentService.cvKey i userId file) L' →
      Keeps d₀ i op (inSchools (insertDocument
        { id := i
          ownerId := userId
          type := .cv
          storageKey := CandidateDocumentService.cvKey i userId file
          originalName := file.originalname
          mimeType := file.mimetype
          size := file.size
          scanStatus := .clean })) Q L' := fun L' h' =>
    insertDocument_keeps h' rfl hkey fun _ _ _ => hQ _ _
  dsimp only
  cases hfind : ((d₀.at L₃).documentsOf userId).find? (·.type = .cv) with
  | none => exact hinsert L₃ h₃
  | some existingCV =>
    exact follows_bind.2 (removeDocument_keeps List.prefix_rfl (findCV_found hfind)
      (stored_carried i _) (fun _ h => h.snoc rfl) h₃ hinsert)

theorem deleteCV_keeps {userId : Id} {Q : Log → Unit → Prop} (hQ : ∀ L', Q L' ()) :
    Keeps d₀ i op (CandidateDocumentService.deleteCV userId) Q L := by
  unfold CandidateDocumentService.deleteCV CandidateDocumentService.findCV
  refine follows_bind.2 (follows_select fun L₁ hr₁ => ?_)
  cases hfind : ((d₀.at L₁).documentsOf userId).find? (·.type = .cv) with
  | none => trivial
  | some doc =>
    exact removeDocument_keeps (P := fun _ => True) List.prefix_rfl (findCV_found hfind)
      (carried_onto fun h _ => h) (fun _ h => h) trivial fun _ _ => hQ _

theorem replacePrevious_keeps {key : String} {candidateProfileId : Id} {Q : Log → Unit → Prop}
    (h : Stored i key L) (hQ : ∀ L', Stored i key L' → Q L' ()) :
    Keeps d₀ i op
      (inSchools (SchoolVerificationService.replacePrevious candidateProfileId)) Q L := by
  unfold SchoolVerificationService.replacePrevious inSchools
  rw [zoom_bind]
  refine follows_bind.2 (follows_select fun L₁ hr₁ => ?_)
  have h₁ := (stored_carried i key).others h hr₁
  cases SchoolVerificationService.verificationOf candidateProfileId (d₀.at L₁).schools with
  | none => exact hQ L₁ h₁
  | some existing =>
    dsimp only
    rw [zoom_bind]
    refine follows_bind.2 (follows_select fun L₂ hr₂ => ?_)
    rw [zoom_bind]
    refine follows_bind.2 (follows_write fun L₃ hr₃ => ⟨trivial, ?_⟩)
    have h₃ := ((stored_carried i key).others h₁ (hr₂.trans hr₃)).snoc
      (w := .schools (.deleteVerification existing.id)) rfl
    dsimp only
    cases hdoc : (d₀.at L₂).schools.cvtheque.documents.get? existing.documentId with
    | none => exact hQ _ h₃
    | some oldDocument =>
      have hid : oldDocument.id = existing.documentId := by
        have := Table.key_of_get? hdoc
        exact this
      refine removeDocument_keeps (hr₃.onto.trans (List.prefix_append _ _)) (hid ▸ hdoc)
        (stored_carried i key) (fun _ h => h.snoc rfl) h₃ hQ

/-- A quiet method of the schools that keeps `P`. -/
theorem inSchools_keeps {α : Type} {p : Candidates.M α} {P : Log → Prop} {Q : Log → α → Prop}
    (hp : QuietSchools p) (hP : Carried i P) (h : P L) (hQ : ∀ L' a, P L' → Q L' a) :
    Keeps d₀ i op (p.zoom Db.schools .schools) Q L :=
  hp.quiet.follow hP (fun _ _ => trivial) h hQ

theorem insertVerification_quiet (v : Time → Cvtheque.SchoolVerification) :
    QuietSchools (SchoolVerificationService.insertVerification v) := by
  refine plain_query schoolWrites_nil (fun db r hf => ?_) fun _ _ _ => trivial
  split at hf
  · cases hf
  · cases hf
    exact .inr ⟨_, rfl, rfl⟩

theorem submit_keeps {userId : Id} {file : UploadedFile} {scan : ScanResult}
    {ocr : OcrExtractionResult} {Q : Log → Cvtheque.SchoolVerification → Prop}
    (h : NotUploaded i L) (hQ : ∀ L' v, Q L' v) :
    Keeps d₀ i op (inSchools (SchoolVerificationService.submit env i userId file scan ocr)) Q L := by
  unfold SchoolVerificationService.submit inSchools
  have hkey : UploadKey i (SchoolVerificationService.diplomaKey i userId file) :=
    ⟨userId, file, .inr rfl⟩
  rw [zoom_bind]
  refine follows_bind.2 ((checkUpload_quiet _ _ _).follow (notUploaded_carried i)
    (fun _ _ => trivial) h fun L₁ _ h₁ => ?_)
  rw [zoom_bind]
  refine follows_bind.2 (inSchools_keeps (findOrCreateProfile_single i userId).quietSchools
    (notUploaded_carried i) h₁ fun L₂ profile h₂ => ?_)
  rw [zoom_bind]
  refine follows_bind.2 (putObject_keeps h₂ hkey fun L₃ h₃ => ?_)
  rw [zoom_bind]
  refine follows_bind.2 (replacePrevious_keeps h₃ fun L₄ h₄ => ?_)
  rw [zoom_bind]
  refine follows_bind.2 (insertDocument_keeps h₄ rfl hkey fun L₅ document _ => ?_)
  -- the rest of the submission is quiet
  have hquiet : ∀ autoApproveMin, QuietSchools (do
      let verification ← SchoolVerificationService.insertVerification
        (SchoolVerificationService.newVerification i profile.id document.id
          (matchGrandeEcole env ocr.text) ocr.confidence autoApproveMin)
      if verification.status = .verified then
        write fun _ => [.cvtheque (.approveSchool profile.id (matchGrandeEcole env ocr.text))]
      return verification) := fun autoApproveMin => by
    refine (insertVerification_quiet _).bind fun v => ?_
    split
    · exact (plain_write fun _ => .inr ⟨_, rfl, rfl⟩).bind fun _ => plain_ret _
    · exact plain_ret _
  exact inSchools_keeps (P := fun _ => True)
    ((plain_select schoolWrites_nil _).bind fun autoApproveMin => hquiet autoApproveMin)
    (carried_onto fun h _ => h) trivial fun _ _ _ => hQ _ _

/-! ### Attachments -/

/-- Quiet inside the larger database. -/
def MessagingWrites (ws : List Messaging.Write) : Prop := QuietWrites (ws.map .messaging)

abbrev QuietMessaging {α : Type} (p : Messaging.M α) : Prop :=
  p.Plain MessagingWrites MessagingWrites fun _ => True

theorem messagingWrites_nil : MessagingWrites [] := .inl rfl

theorem findAuthorizedConversation_quiet (conversationId : Id) (caller : Caller) :
    QuietMessaging
      (Messaging.ConversationService.findAuthorizedConversation conversationId caller) := by
  have hcompany : QuietMessaging (Messaging.ConversationService.companyOf caller) := by
    unfold Messaging.ConversationService.companyOf
    split
    · exact plain_ret _
    · exact plain_select messagingWrites_nil _
  have hrecruiter : ∀ companyId, QuietMessaging
      (Messaging.ConversationService.findInCompany conversationId companyId) := by
    intro companyId
    cases companyId with
    | none => exact plain_ret _
    | some companyId => exact plain_select messagingWrites_nil _
  have hcandidate : QuietMessaging
      (Messaging.ConversationService.findAsCandidate conversationId caller.userId) := by
    refine (plain_select messagingWrites_nil _).bind fun profile? => ?_
    cases profile? with
    | none => exact plain_ret _
    | some profile => exact plain_select messagingWrites_nil _
  refine hcompany.bind fun companyId => (hrecruiter companyId).bind fun conversation? => ?_
  cases conversation? with
  | some conversation => exact plain_ret _
  | none =>
    refine hcandidate.bind fun conversation? => ?_
    cases conversation? with
    | some conversation => exact plain_ret _
    | none => trivial

theorem checkAttachment_quiet (file : AttachmentUpload) (scan : ScanResult) :
    QuietMessaging (Messaging.ConversationService.checkAttachment file scan) := by
  unfold Messaging.ConversationService.checkAttachment
  split
  · trivial
  · split
    · trivial
    · split
      · trivial
      · split
        · trivial
        · exact plain_ret _

theorem insertMessage_quiet (message : Time → Messaging.Message) :
    QuietMessaging (Messaging.ConversationService.insertMessage message) := by
  refine plain_query messagingWrites_nil (fun db r hf => ?_) fun _ _ _ => trivial
  split at hf
  · cases hf
  · cases hf
    exact .inr ⟨_, rfl, rfl⟩

/-- A quiet method of the threads. -/
theorem inMessaging_keeps {α : Type} {p : Messaging.M α} {Q : Log → α → Prop}
    (hp : QuietMessaging p) (hQ : ∀ L' a, Q L' a) :
    Keeps d₀ i op (p.zoom Db.messaging .messaging) Q L := by
  have hquiet : Quiet (p.zoom Db.messaging .messaging) := hp.zoom (fun _ h => h) fun _ h => h
  exact hquiet.follow (P := fun _ => True) (carried_onto fun h _ => h) (fun _ _ => trivial) trivial
    fun _ _ _ => hQ _ _

theorem sendAttachment_keeps {conversationId : Id} {caller : Caller} {file : AttachmentUpload}
    {scan : ScanResult} {body : Option String} {Q : Log → Messaging.Message → Prop}
    (hQ : ∀ L' m, Q L' m) :
    Keeps d₀ i op (inMessaging
      (Messaging.ConversationService.sendAttachment i conversationId caller file scan body)) Q L := by
  unfold Messaging.ConversationService.sendAttachment inMessaging
  rw [zoom_bind]
  refine follows_bind.2 (inMessaging_keeps (findAuthorizedConversation_quiet _ _) ?_)
  rintro L₁ ⟨conversation, senderRole⟩
  dsimp only
  rw [zoom_bind]
  refine follows_bind.2 (inMessaging_keeps (checkAttachment_quiet _ _) fun L₂ _ => ?_)
  rw [zoom_bind]
  refine follows_bind.2 (follows_write fun L₃ _ => ⟨⟨_, _, rfl⟩, ?_⟩)
  exact inMessaging_keeps (insertMessage_quiet _) hQ

/-! ### Erasures -/

/-- The call has erased no account under another request. -/
def ErasesOnly (i : Nat) (requestId : Option Id) (L : Log) : Prop :=
  ∀ id, requestId ≠ some id → Unwritten i (Write.erasesUnder id) L

abbrev Unerased (i : Nat) (L : Log) : Prop := ErasesOnly i none L

theorem erasesOnly_carried (i : Nat) (requestId : Option Id) :
    Carried i (ErasesOnly i requestId) where
  others h hr id hid := (h id hid).others hr
  own h hw id hid := (h id hid).snoc (erasesUnder_quiet id _ hw)

theorem Unerased.settled (h : Unerased i L) : SettledErasures d₀ i L := fun id =>
  .inl (h id (by simp))

theorem deleteObjects_follow {F P : Log → Prop} {R : Log} {failing : List String}
    {Q : Log → Unit → Prop} (hP : Carried i P) (documents : List Document) (hR : R <+: L) (h : P L)
    (hQ : ∀ L', L <+: L' → P L' → (∀ doc ∈ documents, ObjectGone i failing R L' doc) → Q L' ()) :
    Follow d₀ i op F (CandidateDataService.deleteObjects failing documents) Q L := by
  induction documents generalizing L Q with
  | nil => exact hQ L List.prefix_rfl h (by simp)
  | cons doc documents ih =>
    unfold CandidateDataService.deleteObjects
    split
    · next hfails =>
      exact ih hR h fun L' hl h' hgone =>
        hQ L' hl h' (List.forall_mem_cons.2 ⟨.inl hfails, hgone⟩)
    · refine follows_bind.2 (follows_write fun L₁ hr₁ => ⟨trivial, ?_⟩)
      have hR₁ : R <+: L₁ := hR.trans hr₁.onto
      refine ih (hR₁.trans (List.prefix_append _ _)) (hP.own (hP.others h hr₁) rfl)
        fun L' hl h' hgone => hQ L' ?_ h' (List.forall_mem_cons.2 ⟨.inr ⟨L₁, hR₁, hl⟩, hgone⟩)
      exact (hr₁.onto.trans (List.prefix_append _ _)).trans hl

theorem saveAnonymized_follow {F : Log → Prop} {requestId : Option Id} {user : Auth.User}
    {P : Log → Prop} {Q : Log → Unit → Prop} (hP : Carried i P) (hF : ∀ L, P L → F L) (h : P L)
    (hG : ∀ L' reread, L <+: L' → Guarantee d₀ i op L' (.anonymize requestId user reread))
    (hQ : ∀ L' reread, P L' → Q (L' ++ [⟨i, false, [.anonymize requestId user reread]⟩]) ()) :
    Follow d₀ i op F (CandidateDataService.saveAnonymized requestId user) Q L := by
  refine follows_bind.2 (follows_select fun L₁ hr₁ => ?_)
  have h₁ := hP.others h hr₁
  cases (d₀.at L₁).users.get? user.id with
  | none => exact hF L₁ h₁
  | some reread =>
    refine follows_query (fun L₂ e hr₂ _ => hF L₂ (hP.others h₁ hr₂)) fun L₂ ws a hr₂ hf => ?_
    split at hf
    · cases hf
    · cases hf
      exact .inr ⟨_, rfl, hG L₂ reread (hr₁.onto.trans hr₂.onto), hQ L₂ reread (hP.others h₁ hr₂)⟩

/-- The profile of the user, if there is one, before the rest. -/
theorem deleteProfile_follow {F P : Log → Prop} {userId : Id} {k : M Unit} {Q : Log → Unit → Prop}
    (hP : Carried i P) (h : P L) (hk : ∀ L', P L' → Follow d₀ i op F k Q L') :
    Follow d₀ i op F (do
      match ← select fun db : Db => db.profileOf userId with
      | none => ret ()
      | some profile => write fun _ => [.deleteProfile profile.id]
      k) Q L := by
  refine follows_bind.2 (follows_select fun L₁ hr₁ => ?_)
  have h₁ := hP.others h hr₁
  cases (d₀.at L₁).profileOf userId with
  | none => exact hk L₁ h₁
  | some profile =>
    refine follows_bind.2 (follows_write fun L₂ hr₂ => ⟨trivial, ?_⟩)
    exact hk _ (hP.own (hP.others h₁ hr₂) rfl)

/-- The documents with their objects, then the profile, then the user. -/
theorem deleteData_follow {F : Log → Prop} {userId : Id} {requestId : Option Id}
    {failing : List String} {Q : Log → Unit → Prop} (hop : op.failing = failing)
    (hF : ∀ L, Unerased i L → F L) (h : Unerased i L)
    (hG : ∀ L' user reread, L <+: L' → user.id = userId →
      Guarantee d₀ i op L' (.anonymize requestId user reread))
    (hQ : ∀ L' A user reread, L <+: A → WrittenAt L' A i (.anonymize requestId user reread) →
      user.id = userId → ErasesOnly i requestId L' → Swept d₀ i failing userId L' → Q L' ()) :
    Follow d₀ i op F (CandidateDataService.deleteData i userId requestId failing) Q L := by
  subst hop
  unfold CandidateDataService.deleteData
  refine follows_bind.2 (follows_select fun L₁ hr₁ => ?_)
  have h₁ := (erasesOnly_carried i none).others h hr₁
  cases huser : (d₀.at L₁).users.get? userId with
  | none => exact hF L₁ h₁
  | some user =>
    have hid : user.id = userId := Table.key_of_get? huser
    refine follows_bind.2 (follows_query (fun _ _ _ hf => by cases hf) fun R ws documents hr₂ hf => ?_)
    cases hf
    refine .inr ⟨_, rfl, trivial, ?_⟩
    have hlisted : WrittenAt (R ++ [⟨i, false, [.listDocuments userId]⟩]) R i
        (.listDocuments userId) := writtenAt_self _ _ _
    have hl : L <+: R := hr₁.onto.trans hr₂.onto
    refine follows_bind.2 (deleteObjects_follow (R := R) (erasesOnly_carried i none) _
      (List.prefix_append _ _)
      ((erasesOnly_carried i none).own ((erasesOnly_carried i none).others h₁ hr₂) rfl)
      fun L₃ hl₃ h₃ hgone => ?_)
    have hR₃ : R <+: L₃ := (List.prefix_append _ _).trans hl₃
    have hswept : Swept d₀ i op.failing userId L₃ := ⟨R, hlisted.mono hl₃, hgone⟩
    -- from here on the log only grows
    let P : Log → Prop := fun L' => Unerased i L' ∧ L₃ <+: L'
    have hP : Carried i P := (erasesOnly_carried i none).and (carried_onto fun h hl => h.trans hl)
    have hfinish : ∀ L₄, P L₄ → Follow d₀ i op F (do
        CandidateDataService.saveAnonymized requestId (CandidateDataService.anonymized i user)
        write fun _ => [.insertAudit ⟨userId, .userDeleted, "User", userId, none⟩]) Q L₄ := by
      intro L₄ h₄
      refine follows_bind.2 (saveAnonymized_follow hP (fun L' h' => hF L' h'.1) h₄
        (fun L' reread hl' => hG L' _ reread ?_ hid) fun L₅ reread h₅ => ?_)
      · exact ((hl.trans hR₃).trans h₄.2).trans hl'
      · refine follows_write fun L₆ hr₆ => ⟨trivial, ?_⟩
        have hl₆ := hr₆.onto.trans (List.prefix_append _ [⟨i, false,
          [.insertAudit ⟨userId, .userDeleted, "User", userId, none⟩]⟩])
        refine hQ _ L₅ _ reread ((hl.trans hR₃).trans h₅.2) ((writtenAt_self _ _ _).mono hl₆) hid
          (fun id hne => ?_) (hswept.mono ((h₅.2.trans (List.prefix_append _ _)).trans hl₆))
        have hother : (Write.anonymize requestId (CandidateDataService.anonymized i user)
            reread).erasesUnder id = false := decide_eq_false hne
        exact (((h₅.1 id (by simp)).snoc hother).others hr₆).snoc rfl
    dsimp only
    split
    · refine follows_bind.2 (follows_write fun L₄ hr₄ => ⟨?_,
        deleteProfile_follow hP ⟨fun id hid => ?_, ?_⟩ hfinish⟩)
      · exact ⟨R, userId, (hlisted.mono hl₃).mono hr₄.onto, rfl,
          fun doc hdoc => (hgone doc hdoc).mono hr₄.onto⟩
      · exact ((h₃ id hid).others hr₄).snoc rfl
      · exact hr₄.onto.trans (List.prefix_append _ _)
    · exact deleteProfile_follow hP ⟨h₃, List.prefix_rfl⟩ hfinish

/-! ### Data requests -/

theorem create_keeps {uuid userId : Id} {type : DataRequestType} {message : Option String}
    {Q : Log → DataRequest → Prop} (hQ : ∀ L' r, Q L' r) :
    Keeps d₀ i op (DataRequestService.create uuid userId type message) Q L := by
  refine follows_bind.2 (follows_select fun L₁ _ => ?_)
  split
  · trivial
  · refine follows_bind.2 (promises_query fun L₂ ws r _ hf => ?_)
    split at hf
    · cases hf
    · cases hf
      exact .inr ⟨_, rfl, rfl, follows_bind.2 (follows_write fun L₃ _ => ⟨trivial, hQ _ _⟩)⟩

theorem get?_saveRequest (db : Db) (entity reread : DataRequest) (id : Id) :
    (store.apply db (.saveRequest entity reread)).dataRequests.get? id =
      if id = entity.id then (db.dataRequests.get? id).map (entity.overwrite reread)
      else db.dataRequests.get? id :=
  Table.get?_modify (entity.overwrite reread) fun _ => rfl

/-- A request that is there stays there, and only a save of it changes it. -/
theorem request_after {db : Db} {w : Write} {id : Id} {r : DataRequest}
    (h : db.dataRequests.get? id = some r) :
    (store.apply db w).dataRequests.get? id = some r ∨
      ∃ entity reread, w = .saveRequest entity reread ∧ entity.id = id ∧
        (store.apply db w).dataRequests.get? id = some (entity.overwrite reread r) := by
  cases w with
  | insertRequest r' => exact .inl (Table.get?_insert_of_some h)
  | saveRequest entity reread =>
    rw [get?_saveRequest]
    split
    · next hid => exact .inr ⟨entity, reread, rfl, hid.symm, by rw [h]; rfl⟩
    · exact .inl h
  | _ => exact .inl h

/-- Whose request it is, and of which type, does not change. -/
theorem request_stays {A L : Log} {id : Id} {r : DataRequest} (hl : A <+: L)
    (h : (d₀.at A).dataRequests.get? id = some r) :
    ∃ r', (d₀.at L).dataRequests.get? id = some r' ∧ r'.type = r.type ∧ r'.userId = r.userId := by
  refine replay_keeps (S := store) (P := fun db => ∃ r', db.dataRequests.get? id = some r' ∧
    r'.type = r.type ∧ r'.userId = r.userId) (fun db w hstays => ?_) hl ⟨r, h, rfl, rfl⟩
  obtain ⟨r', hr', htype, huser⟩ := hstays
  rcases request_after (w := w) hr' with hafter | ⟨entity, reread, -, -, hafter⟩
  · exact ⟨r', hafter, htype, huser⟩
  · exact ⟨_, hafter, htype, huser⟩

/-- The request that the decision erases the account for. -/
def erasedFor (status : DataRequestStatus) (request : DataRequest) : Option Id :=
  if status = .completed ∧ request.type = .erasure then some request.id else none

/-- The save of a decision, after the erasure that it asks for. -/
theorem decide_follow {adminId : Id} {status : DataRequestStatus} {note : Option String}
    {A : Log} {request : DataRequest} {Q : Log → DataRequest → Prop} (hA : A <+: L)
    (hrequest : (d₀.at A).dataRequests.get? request.id = some request)
    (herases : ErasesOnly i (erasedFor status request) L)
    (herased : status = .completed → request.type = .erasure → ∃ C user reread,
      WrittenAt L C i (.anonymize (some request.id) user reread) ∧ user.id = request.userId)
    (hQ : ∀ L' r, L <+: L' → SettledErasures d₀ i L' → r.type = request.type →
      r.userId = request.userId → Q L' r) :
    Follow d₀ i op (SettledErasures d₀ i) (do
      let now ← select Db.now
      let saved ← DataRequestService.save
        (DataRequestService.resolved request adminId status note now)
      write fun _ => [.insertAudit ⟨adminId, .dataRequestResolved, "DataRequest", saved.id,
        some (saved.type, saved.status, saved.userId)⟩]
      return saved) Q L := by
  refine follows_bind.2 (follows_select fun L₁ hr₁ => ?_)
  generalize (d₀.at L₁).now = now
  refine follows_bind.2 (follows_bind.2 (follows_select fun L₂ hr₂ => ?_))
  have hl₂ : L <+: L₂ := hr₁.onto.trans hr₂.onto
  have h₂ := (erasesOnly_carried i _).others herases (hr₁.trans hr₂)
  obtain ⟨reread, hget, -⟩ := request_stays (hA.trans hl₂) hrequest
  have hreread : (replay store d₀ L₂).dataRequests.get?
      (DataRequestService.resolved request adminId status note now).id = some reread := hget
  rw [hreread]
  refine follows_bind.2 (follows_write fun L₃ hr₃ => ⟨⟨?_, ?_, ?_⟩, ?_⟩)
  · exact ⟨A, request, hA.trans (hl₂.trans hr₃.onto), hrequest, rfl, rfl⟩
  · exact ⟨L₂, hr₃.onto, hget⟩
  · intro hstatus htype
    obtain ⟨C, user, reread', hC, huser⟩ := herased hstatus htype
    exact ⟨C, user, reread', hC.mono (hl₂.trans hr₃.onto), huser⟩
  · refine follows_bind.2 (follows_write fun L₄ hr₄ => ⟨trivial, ?_⟩)
    have hsaved := (writtenAt_self L₃ i (.saveRequest
      (DataRequestService.resolved request adminId status note now) reread)).mono
      (hr₄.onto.trans (List.prefix_append _ [⟨i, false, [.insertAudit ⟨adminId,
        .dataRequestResolved, "DataRequest", request.id,
        some (request.type, status, request.userId)⟩]⟩]))
    refine hQ _ _ ?_ (fun id => ?_) rfl rfl
    · exact ((hl₂.trans hr₃.onto).trans (List.prefix_append _ _)).trans
        (hr₄.onto.trans (List.prefix_append _ _))
    · by_cases hid : erasedFor status request = some id
      · have hdecided : status = .completed ∧ request.id = id := by
          unfold erasedFor at hid
          split at hid
          · next hcompleted => exact ⟨hcompleted.1, Option.some.inj hid⟩
          · cases hid
        exact .inr (.inr ⟨L₃, _, reread, hsaved, hdecided.2, hdecided.1⟩)
      · exact .inl (((((h₂ id hid).others hr₃).snoc rfl).others hr₄).snoc rfl)

theorem updateStatus_follow {id adminId : Id} {status : DataRequestStatus} {note : Option String}
    {failing : List String} {Q : Log → DataRequest → Prop} (h : Unerased i L)
    (hQ : ∀ L' r, SettledErasures d₀ i L' →
      (status = .completed → r.type = .erasure → Swept d₀ i failing r.userId L') → Q L' r) :
    Follow d₀ i (.updateStatus id adminId status note failing) (SettledErasures d₀ i)
      (DataRequestService.updateStatus i id adminId status note failing) Q L := by
  unfold DataRequestService.updateStatus
  refine follows_bind.2 (follows_select fun L₁ hr₁ => ?_)
  have h₁ : Unerased i L₁ := (erasesOnly_carried i none).others h hr₁
  cases hrequest : (d₀.at L₁).dataRequests.get? id with
  | none => exact h₁.settled
  | some request =>
    have hid : request.id = id := Table.key_of_get? hrequest
    subst hid
    dsimp only
    split
    · exact h₁.settled
    · split
      · next hcompleted =>
        obtain ⟨rfl, htype⟩ := hcompleted
        have hfor : erasedFor .completed request = some request.id := if_pos ⟨rfl, htype⟩
        refine follows_bind.2 (deleteData_follow rfl (fun _ h => Unerased.settled h) h₁
          (fun L' user reread hl huser => ?_)
          fun L₂ C user reread hl hC huser honly hswept => ?_)
        · exact ⟨⟨adminId, note, failing, rfl⟩, L₁, request, hl, hrequest, htype, huser.symm⟩
        · have hl₂ : L₁ <+: L₂ := hl.trans hC.onto
          refine decide_follow hl₂ hrequest (hfor ▸ honly)
            (fun _ _ => ⟨C, user, reread, hC, huser⟩) fun L' r hl' hsettled _ huserId => ?_
          exact hQ L' r hsettled fun _ _ => huserId ▸ hswept.mono hl'
      · next hother =>
        have hfor : erasedFor status request = none := if_neg hother
        refine decide_follow List.prefix_rfl hrequest (hfor ▸ h₁)
          (fun hstatus htype => absurd ⟨hstatus, htype⟩ hother) fun L' r _ hsettled htype _ => ?_
        exact hQ L' r hsettled fun hstatus hr => absurd ⟨hstatus, htype ▸ hr⟩ hother

/-! ### The system -/

theorem outcome_mono {g : Txn.Group Write} {a : Result} (hg : g.call ≠ i)
    (h : Outcome d₀ i op L a) : Outcome d₀ i op (L ++ [g]) a := by
  cases op with
  | deleteData userId failing => exact Swept.mono h (List.prefix_append _ _)
  | updateStatus id adminId status note failing =>
    obtain ⟨hsettled, hswept⟩ := h
    exact ⟨hsettled.others hg, fun r ha hstatus htype =>
      (hswept r ha hstatus htype).mono (List.prefix_append _ _)⟩
  | _ => trivial

theorem failure_others {g : Txn.Group Write} (hg : g.call ≠ i) (h : Failure d₀ i op L) :
    Failure d₀ i op (L ++ [g]) := by
  cases op with
  | updateStatus id adminId status note failing => exact SettledErasures.others hg h
  | _ => trivial

theorem program_follow (hstart : ∀ g ∈ L, g.call ≠ i) :
    Follow d₀ i op (Failure d₀ i op) (program env i op) (Outcome d₀ i op) L := by
  have hnew : NotUploaded i L := ⟨.start hstart, .start hstart⟩
  have hunerased : Unerased i L := fun id _ => .start hstart
  cases op with
  | clock us => exact follows_bind.2 (follows_write fun _ _ => ⟨trivial, trivial⟩)
  | uploadCV userId file scan => exact follows_bind.2 (uploadCV_keeps hnew fun _ _ => trivial)
  | deleteCV userId => exact follows_bind.2 (deleteCV_keeps fun _ => trivial)
  | submit userId file scan ocr => exact follows_bind.2 (submit_keeps hnew fun _ _ => trivial)
  | sendAttachment conversationId caller file scan body =>
    exact follows_bind.2 (sendAttachment_keeps fun _ _ => trivial)
  | deleteData userId failing =>
    refine follows_bind.2 (deleteData_follow rfl (fun _ _ => trivial) hunerased
      (fun _ _ _ _ _ => trivial) ?_)
    exact fun L' _ _ _ _ _ _ _ hswept => hswept
  | create userId type message => exact follows_bind.2 (create_keeps fun _ _ => trivial)
  | updateStatus id adminId status note failing =>
    refine follows_bind.2 (updateStatus_follow hunerased fun L' r hsettled hswept => ?_)
    refine ⟨hsettled, fun r' hr' => ?_⟩
    cases hr'
    exact hswept

end

end JobBoard.Candidates.Erasure
