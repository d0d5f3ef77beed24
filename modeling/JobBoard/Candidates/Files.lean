import JobBoard.Candidates.Conduct
import Std.Data.String.ToNat

/-!
# Files after an erasure

When the erasure of an account returns, the object of every document of the candidate that had
its row when the erasure listed them is gone from the storage, except those whose deletion the
storage has failed. The document behind a row is the one that was uploaded under its key, the key
is used once, and a row is removed only after its object.
-/

set_option autoImplicit false

namespace JobBoard.Candidates.Erasure

open Txn Prog
open Cvtheque (Document)

/-! ## Keys of the storage -/

/-- Where two texts agree, they agree up to the first `c`. -/
theorem append_cons_cancel {α : Type} {c : α} {a a' r r' : List α} (ha : c ∉ a) (ha' : c ∉ a')
    (h : a ++ c :: r = a' ++ c :: r') : a = a' ∧ r = r' := by
  induction a generalizing a' with
  | nil =>
    cases a' with
    | nil => exact ⟨rfl, (List.cons.inj h).2⟩
    | cons x a' => exact absurd (List.cons.inj h).1 fun heq => ha' (heq ▸ List.mem_cons_self)
  | cons x a ih =>
    cases a' with
    | nil => exact absurd (List.cons.inj h).1 fun heq => ha (heq ▸ List.mem_cons_self)
    | cons x' a' =>
      obtain ⟨rfl, htail⟩ := List.cons.inj h
      obtain ⟨rfl, rfl⟩ := ih (fun hmem => ha (List.mem_cons_of_mem _ hmem))
        (fun hmem => ha' (List.mem_cons_of_mem _ hmem)) htail
      exact ⟨rfl, rfl⟩

theorem not_mem_digits {c : Char} (hc : c.isDigit = false) (n : Nat) :
    c ∉ (toString n).toList := by
  intro hmem
  have hrepr : (toString n).toList = Nat.toDigits 10 n := Nat.toList_repr
  rw [hrepr] at hmem
  rw [Nat.isDigit_of_mem_toDigits (by decide) (by decide) hmem] at hc
  cases hc

/-- The number in a key, after the owner. -/
theorem uuid_inj {owner owner' uuid uuid' : Nat} {name name' : List Char}
    (h : (toString owner).toList ++ '/' :: ((toString uuid).toList ++ '-' :: name) =
      (toString owner').toList ++ '/' :: ((toString uuid').toList ++ '-' :: name')) :
    uuid = uuid' := by
  obtain ⟨-, h⟩ := append_cons_cancel (not_mem_digits rfl _) (not_mem_digits rfl _) h
  obtain ⟨h, -⟩ := append_cons_cancel (not_mem_digits rfl _) (not_mem_digits rfl _) h
  exact Nat.repr_injective (String.toList_inj.1 h)

theorem key_toList (folder owner uuid name : String) :
    (folder ++ owner ++ "/" ++ uuid ++ "-" ++ name).toList =
      folder.toList ++ (owner.toList ++ '/' :: (uuid.toList ++ '-' :: name.toList)) := by
  simp [String.toList_append]

theorem cvKey_toList (uuid userId : Id) (file : UploadedFile) :
    (CandidateDocumentService.cvKey uuid userId file).toList = "cv/".toList ++
      ((toString userId).toList ++ '/' :: ((toString uuid).toList ++
        '-' :: file.originalname.toList)) := key_toList _ _ _ _

theorem diplomaKey_toList (uuid userId : Id) (file : UploadedFile) :
    (SchoolVerificationService.diplomaKey uuid userId file).toList = "diploma/".toList ++
      ((toString userId).toList ++ '/' :: ((toString uuid).toList ++
        '-' :: file.originalname.toList)) := key_toList _ _ _ _

theorem attachmentKey_toList (uuid conversationId : Id)
    (file : Messaging.ConversationService.AttachmentUpload) :
    ∃ name, (Messaging.ConversationService.attachmentKey uuid conversationId file).toList =
      "message-attachments/".toList ++ name := ⟨_, key_toList _ _ _ _⟩

/-- The key of an upload determines its call. -/
theorem uploadKey_inj {i j : Nat} {key : String} (h : UploadKey i key) (h' : UploadKey j key) :
    i = j := by
  obtain ⟨owner, file, h⟩ := h
  obtain ⟨owner', file', h'⟩ := h'
  rcases h with rfl | rfl <;> rcases h' with h' | h'
  · rw [← String.toList_inj, cvKey_toList, cvKey_toList] at h'
    exact uuid_inj (List.append_cancel_left h')
  · rw [← String.toList_inj, cvKey_toList, diplomaKey_toList] at h'
    exact absurd (congrArg List.head? h') (by simp)
  · rw [← String.toList_inj, cvKey_toList, diplomaKey_toList] at h'
    exact absurd (congrArg List.head? h') (by simp)
  · rw [← String.toList_inj, diplomaKey_toList, diplomaKey_toList] at h'
    exact uuid_inj (List.append_cancel_left h')

theorem uploadKey_not_attachment {i j : Nat} {conversationId : Id}
    {file : Messaging.ConversationService.AttachmentUpload}
    (h : UploadKey i (Messaging.ConversationService.attachmentKey j conversationId file)) :
    False := by
  obtain ⟨name, hname⟩ := attachmentKey_toList j conversationId file
  obtain ⟨owner, upload, h | h⟩ := h
  · rw [← String.toList_inj, hname, cvKey_toList] at h
    exact absurd (congrArg List.head? h) (by simp)
  · rw [← String.toList_inj, hname, diplomaKey_toList] at h
    exact absurd (congrArg List.head? h) (by simp)

/-! ## What a write does to the files -/

section

variable {db : Db} {w : Write} {d : Document} {key : String}

theorem documents_after (h : d ∈ (store.apply db w).schools.cvtheque.documents.rows) :
    d ∈ db.schools.cvtheque.documents.rows ∨ w = .schools (.insertDocument d) := by
  cases w with
  | schools w =>
    cases w with
    | cvtheque w => cases w <;> exact .inl h
    | insertDocument d' => exact (Table.mem_insert h).imp_right fun heq => by rw [heq]
    | deleteDocument id => exact .inl (List.mem_filter.1 h).1
    | _ => exact .inl h
  | deleteDocuments ids => exact .inl (List.mem_filter.1 h).1
  | _ => exact .inl h

/-- A document keeps its row until it is deleted. -/
theorem documents_keep (h : d ∈ db.schools.cvtheque.documents.rows) :
    d ∈ (store.apply db w).schools.cvtheque.documents.rows ∨
      w = .schools (.deleteDocument d.id) ∨ ∃ ids, w = .deleteDocuments ids ∧ d.id ∈ ids := by
  cases w with
  | schools w =>
    cases w with
    | cvtheque w => cases w <;> exact .inl h
    | insertDocument d' => exact .inl (Table.mem_insert_of_mem h)
    | deleteDocument id =>
      by_cases hid : d.id = id
      · exact .inr (.inl (by rw [hid]))
      · exact .inl (List.mem_filter.2 ⟨h, by simpa using hid⟩)
    | _ => exact .inl h
  | deleteDocuments ids =>
    by_cases hid : d.id ∈ ids
    · exact .inr (.inr ⟨ids, rfl, hid⟩)
    · exact .inl (List.mem_filter.2 ⟨h, by simpa using hid⟩)
  | _ => exact .inl h

theorem objects_after (h : key ∈ (store.apply db w).schools.objects) :
    key ∈ db.schools.objects ∨ w = .schools (.putObject key) ∨ w = .messaging (.putObject key) := by
  cases w with
  | schools w =>
    cases w with
    | putObject key' =>
      refine (List.mem_append.1 h).imp_right fun heq => .inl ?_
      rw [List.mem_singleton.1 heq]
    | deleteObject key' => exact .inl (List.mem_filter.1 h).1
    | _ => exact .inl h
  | messaging w =>
    cases w with
    | putObject key' =>
      refine (List.mem_append.1 h).imp_right fun heq => .inr ?_
      rw [List.mem_singleton.1 heq]
    | _ => exact .inl h
  | _ => exact .inl h

theorem objects_deleted (db : Db) (key : String) :
    key ∉ (store.apply db (.schools (.deleteObject key))).schools.objects := by
  intro hmem
  exact absurd rfl (of_decide_eq_true (List.mem_filter.1 hmem).2)

end

/-! ## The files of a run -/

section

variable {env : Environment} {d₀ : Db} {s : RunState} {i : Nat} {d : Document}

theorem files_followed (env : Environment) (d₀ : Db)
    (ok : RunState → Label Error Op → Prop) :
    Followed (system env) ok d₀ (Guarantee d₀) (Outcome d₀) fun _ _ _ => True where
  mono hg h := outcome_mono hg h
  others _ _ := trivial
  fault _ _ _ _ := trivial
  prog _ _ _ hstart := (program_follow hstart).promises

theorem published_file (h : (system env).Reachable d₀ s) {L : Log} {g : Txn.Group Write}
    (hl : L ++ [g] <+: s.log) : ∃ op w, g = ⟨g.call, false, [w]⟩ ∧ s.ops[g.call]? = some op ∧
      Guarantee d₀ g.call op L w := by
  obtain ⟨op, w, t, hg, hop, ht⟩ := (files_followed env d₀ _).published h.within hl
  exact ⟨op, w, hg, hop, ht.promised⟩

/-- A document that has a row was inserted, by the call of its number. -/
theorem inserted_of_mem (h : (system env).Reachable d₀ s)
    (h₀ : d₀.schools.cvtheque.documents = ∅) : ∀ L, L <+: s.log → ∀ d,
    d ∈ (d₀.at L).schools.cvtheque.documents.rows →
      ∃ A, WrittenAt L A d.id (.schools (.insertDocument d)) := by
  refine along_log (fun d hd => ?_) fun L g hl ih d hd => ?_
  · rw [show d₀.at [] = d₀ from rfl, h₀] at hd
    cases hd
  · obtain ⟨op, w, hg, -, hG⟩ := published_file h hl
    rw [hg] at hd ⊢
    rw [at_snoc] at hd
    rcases documents_after hd with hd | rfl
    · obtain ⟨A, hA⟩ := ih d hd
      exact ⟨A, hA.mono (List.prefix_append _ _)⟩
    · obtain ⟨hid, -⟩ := hG
      refine ⟨L, ?_⟩
      rw [hid]
      exact writtenAt_self _ _ _

/-- A call inserts one document. -/
theorem inserted_once (h : (system env).Reachable d₀ s) {A A' : Log} {d' : Document}
    (hA : WrittenAt s.log A i (.schools (.insertDocument d)))
    (hA' : WrittenAt s.log A' i (.schools (.insertDocument d'))) : A = A' ∧ d = d' := by
  have inserts : ∀ d : Document, (Write.schools (.insertDocument d)).insertsDocument ≠ false :=
    fun _ h => by cases h
  rcases hA.cases hA' with ⟨hsame, -, heq⟩ | hbefore | hbefore
  · cases heq
    exact ⟨hsame, rfl⟩
  · obtain ⟨op, w, hg, -, hG⟩ := published_file h hA'
    cases hg
    exact absurd (hG.2.2.1 _ _ hbefore) (inserts d)
  · obtain ⟨op, w, hg, -, hG⟩ := published_file h hA
    cases hg
    exact absurd (hG.2.2.1 _ _ hbefore) (inserts d')

/-- The row of a document that a call has inserted is found where its number is. -/
theorem found_inserted (h : (system env).Reachable d₀ s)
    (h₀ : d₀.schools.cvtheque.documents = ∅) {A B : Log} {doc : Document}
    (hA : WrittenAt s.log A i (.schools (.insertDocument d))) (hd : d.id = i) (hB : B <+: s.log)
    (hdoc : doc ∈ (d₀.at B).schools.cvtheque.documents.rows) (hid : doc.id = d.id) :
    doc = d ∧ WrittenAt B A i (.schools (.insertDocument d)) := by
  obtain ⟨A', hA'⟩ := inserted_of_mem h h₀ B hB doc hdoc
  rw [hid, hd] at hA'
  obtain ⟨rfl, rfl⟩ := inserted_once h hA (hA'.mono hB)
  exact ⟨rfl, hA'⟩

/-- What is gone from the storage after the row was inserted stays so: its key is used once. -/
theorem absent_stays (h : (system env).Reachable d₀ s) {A C : Log}
    (hA : WrittenAt C A i (.schools (.insertDocument d))) (hC : C <+: s.log)
    (habsent : d.storageKey ∉ (d₀.at C).schools.objects) :
    ∀ L, C <+: L → L <+: s.log → d.storageKey ∉ (d₀.at L).schools.objects := by
  obtain ⟨op₀, w₀, hg₀, -, hG₀⟩ := published_file h (hA.mono hC)
  cases hg₀
  obtain ⟨-, hkey, -, ⟨B, hB⟩, -⟩ := hG₀
  refine along_log_from habsent fun L g hCL hl ih hmem => ?_
  obtain ⟨op, w, hg, -, hG⟩ := published_file h hl
  rw [hg, at_snoc] at hmem
  rcases objects_after hmem with hmem | rfl | rfl
  · exact ih hmem
  · obtain ⟨hkey', hputs⟩ := hG
    have hcall : i = g.call := uploadKey_inj hkey hkey'
    rw [← hcall] at hputs
    have hput : (Write.schools (.putObject d.storageKey)).puts = false :=
      hputs B _ (hB.mono (hA.onto.trans hCL))
    cases hput
  · obtain ⟨conversationId, file, heq⟩ := hG
    rw [heq] at hkey
    exact uploadKey_not_attachment hkey

/-- An erasure has listed the document, and the storage has failed to delete its object. -/
def DeletionFailed (d₀ : Db) (s : RunState) (L : Log) (d : Document) : Prop :=
  ∃ (e : Nat) (op : Op) (R : Log), s.ops[e]? = some op ∧
    WrittenAt L R e (.listDocuments d.ownerId) ∧ d ∈ (d₀.at R).documentsOf d.ownerId ∧
    d.storageKey ∈ op.failing

/-- The document has its row, or its object is gone unless its deletion has failed. -/
def Tracked (d₀ : Db) (s : RunState) (L : Log) (d : Document) : Prop :=
  d ∈ (d₀.at L).schools.cvtheque.documents.rows ∨ d.storageKey ∉ (d₀.at L).schools.objects ∨
    DeletionFailed d₀ s L d

theorem DeletionFailed.mono {L L' : Log} (h : DeletionFailed d₀ s L d) (hl : L <+: L') :
    DeletionFailed d₀ s L' d := by
  obtain ⟨e, op, R, hop, hR, hrest⟩ := h
  exact ⟨e, op, R, hop, hR.mono hl, hrest⟩

/-- The object of a document that was listed is gone, or its deletion has failed. -/
theorem gone_or_failed (h : (system env).Reachable d₀ s) {A R L : Log} {e : Nat} {op : Op}
    (hop : s.ops[e]? = some op) (hA : WrittenAt R A i (.schools (.insertDocument d)))
    (hR : WrittenAt L R e (.listDocuments d.ownerId)) (hl : L <+: s.log)
    (hd : d ∈ (d₀.at R).documentsOf d.ownerId) (hgone : ObjectGone e op.failing R L d) :
    d.storageKey ∉ (d₀.at L).schools.objects ∨ DeletionFailed d₀ s L d := by
  rcases hgone with hfails | ⟨C, hRC, hC⟩
  · exact .inr ⟨e, op, R, hop, hR, hd, hfails⟩
  · refine .inl (absent_stays h (hA.mono (hRC.trans (List.prefix_append _ _))) (hC.trans hl) ?_ L
      hC hl)
    rw [at_snoc]
    exact objects_deleted _ _

theorem tracked_inserted (h : (system env).Reachable d₀ s)
    (h₀ : d₀.schools.cvtheque.documents = ∅) {A : Log}
    (hA : WrittenAt s.log A i (.schools (.insertDocument d))) :
    ∀ L, A ++ [⟨i, false, [.schools (.insertDocument d)]⟩] <+: L → L <+: s.log →
      Tracked d₀ s L d := by
  obtain ⟨op₀, w₀, hg₀, -, hG₀⟩ := published_file h hA
  cases hg₀
  obtain ⟨hid, -, -, -, hfresh⟩ := hG₀
  refine along_log_from (.inl ?_) fun L g hAL hl ih => ?_
  · rw [at_snoc]
    exact Table.mem_of_get? (Table.get?_insert_self hfresh)
  · have hL : L <+: s.log := (List.prefix_append _ _).trans hl
    obtain ⟨op, w, hg, hop, hG⟩ := published_file h hl
    rcases ih with hrow | habsent | hfailed
    · rw [hg, Tracked, at_snoc]
      rcases documents_keep (w := w) hrow with hrow | rfl | ⟨ids, rfl, hmem⟩
      · exact .inl hrow
      · -- its object was deleted before
        obtain ⟨B, C, doc, hBC, hdoc, hC⟩ := hG
        have hBL : B <+: L := hBC.trans hC.onto
        have hdocId : doc.id = d.id := by
          have := Table.key_of_get? hdoc
          exact this
        obtain ⟨rfl, hAB⟩ := found_inserted h h₀ hA hid (hBL.trans hL)
          (Table.mem_of_get? hdoc) hdocId
        refine .inr (.inl (absent_stays h (hAB.mono (hBC.trans (List.prefix_append _ _)))
          (hC.trans hL) ?_ L hC hL))
        rw [at_snoc]
        exact objects_deleted _ _
      · obtain ⟨R, userId, hR, rfl, hgone⟩ := hG
        obtain ⟨doc, hdoc, hdocId⟩ := List.mem_map.1 hmem
        have hRL : R <+: L := hR.onto
        obtain ⟨rfl, hAR⟩ := found_inserted h h₀ hA hid (hRL.trans hL)
          (List.mem_filter.1 hdoc).1 hdocId
        obtain rfl : doc.ownerId = userId := of_decide_eq_true (List.mem_filter.1 hdoc).2
        rcases gone_or_failed h hop hAR hR hL hdoc (hgone doc hdoc) with habsent | hfailed
        · exact .inr (.inl habsent)
        · exact .inr (.inr (hfailed.mono (List.prefix_append _ _)))
    · have habsent' := absent_stays h (C := L) hAL hL habsent (L ++ [g]) (List.prefix_append _ _) hl
      exact .inr (.inl habsent')
    · exact .inr (.inr (hfailed.mono (List.prefix_append _ _)))

/-! ## What an erasure leaves -/

/-- Call `e` has listed the documents of the user. The object of each that had been inserted by
then is gone, unless an erasure has failed to delete it. -/
def NoFileLeft (d₀ : Db) (s : RunState) (e : Nat) (userId : Id) : Prop :=
  ∃ R, WrittenAt s.log R e (.listDocuments userId) ∧ ∀ (A : Log) (i : Nat) (d : Document),
    WrittenAt R A i (.schools (.insertDocument d)) → d.ownerId = userId →
      d.storageKey ∈ s.db.schools.objects → DeletionFailed d₀ s s.log d

structure FilesErased (d₀ : Db) (s : RunState) : Prop where
  deleted : ∀ (e : Nat) userId failing a, s.ops[e]? = some (.deleteData userId failing) →
    s.call e = .done (.ok a) → NoFileLeft d₀ s e userId
  completed : ∀ (e : Nat) id adminId note failing r,
    s.ops[e]? = some (.updateStatus id adminId .completed note failing) →
      s.call e = .done (.ok (.request r)) → r.type = .erasure → NoFileLeft d₀ s e r.userId

theorem noFileLeft_of_swept (h : (system env).Reachable d₀ s)
    (h₀ : d₀.schools.cvtheque.documents = ∅) {e : Nat} {op : Op} {userId : Id}
    (hop : s.ops[e]? = some op) (hswept : Swept d₀ e op.failing userId s.log) :
    NoFileLeft d₀ s e userId := by
  obtain ⟨R, hR, hgone⟩ := hswept
  refine ⟨R, hR, ?_⟩
  rintro A i d hA rfl hmem
  have hRs : R <+: s.log := hR.onto
  rw [(files_followed env d₀ _).db h.within] at hmem
  rcases tracked_inserted h h₀ (hA.mono hRs) R hA hRs with hrow | habsent | hfailed
  · have hd : d ∈ (d₀.at R).documentsOf d.ownerId :=
      List.mem_filter.2 ⟨hrow, decide_eq_true rfl⟩
    rcases gone_or_failed h hop hA hR List.prefix_rfl hd (hgone d hd) with habsent | hfailed
    · exact absurd hmem habsent
    · exact hfailed
  · exact absurd hmem (absent_stays h hA hRs habsent s.log hRs List.prefix_rfl)
  · exact hfailed.mono hRs

theorem files_erased (h₀ : d₀.schools.cvtheque.documents = ∅)
    (h : (system env).Reachable d₀ s) : FilesErased d₀ s where
  deleted e userId failing a hop hdone := by
    have hswept : Swept d₀ e failing userId s.log :=
      (files_followed env d₀ _).done h.within hop hdone
    exact noFileLeft_of_swept h h₀ hop hswept
  completed e id adminId note failing r hop hdone htype := by
    have houtcome : Outcome d₀ e (.updateStatus id adminId .completed note failing) s.log
        (.request r) := (files_followed env d₀ _).done h.within hop hdone
    exact noFileLeft_of_swept h h₀ hop (houtcome.2 r rfl rfl htype)

end

/-! ## What it does leave -/

/-- Call `e` has listed the documents of the user at the moment `R`, and has returned. -/
def erased (s : RunState) (e : Nat) (userId : Id) (R : Log) : Bool :=
  decide (WrittenAt s.log R e (.listDocuments userId)) && match s.call e with
    | .done (.ok _) => true
    | _ => false

/-- No object of a document of the candidate is left. -/
def DocumentsErased (s : RunState) : Prop :=
  ∀ (e : Nat) userId R, erased s e userId R = true → ∀ (A : Log) (i : Nat) d,
    WrittenAt R A i (.schools (.insertDocument d)) → d.ownerId = userId →
      d.storageKey ∉ s.db.schools.objects

/-- No object that the candidate has uploaded is left. -/
def UploadsErased (s : RunState) : Prop :=
  ∀ (e : Nat) userId R, erased s e userId R = true → ∀ (A : Log) (i : Nat) file scan key,
    s.ops[i]? = some (.uploadCV userId file scan) →
      WrittenAt R A i (.schools (.putObject key)) → key ∉ s.db.schools.objects

/-- No object that was attached in a thread of the profile is left. -/
def AttachmentsErased (d₀ : Db) (s : RunState) : Prop :=
  ∀ (e : Nat) userId R, erased s e userId R = true → ∀ (A : Log) (i : Nat) m c p key,
    WrittenAt R A i (.messaging (.insertMessage m)) → m.attachmentStorageKey = some key →
      d₀.conversations.get? m.conversationId = some c →
        d₀.schools.cvtheque.profiles.get? c.candidateId = some p → p.userId = userId →
          key ∉ s.db.schools.objects

/-- Candidate 6 with the profile 5 and the thread 40. -/
def candidate : Db :=
  { Db.empty with
    schools := ⟨{ Cvtheque.Db.empty with
      profiles := ⟨[Cvtheque.CandidateProfileService.newProfile 5 6 0], by decide⟩ }, []⟩
    users := ⟨[⟨6, "c@x.ma", "", [], .active, true, none, none, none, none, false, none, none,
      none⟩], by decide⟩
    conversations := ⟨[⟨⟨40, 5, 7, 3⟩, .opened, 0⟩], by decide⟩ }

/-- Texts are in lower case and without accents already. -/
def unaccented : Environment := ⟨id⟩

def cleanCV : Op := .uploadCV 6 ⟨1, "cv.pdf", "application/pdf", 1⟩ ⟨true, none⟩

theorem files_erased_cv : ∃ s : RunState, s.db.schools.objects = [] ∧ FilesErased candidate s := by
  have hrun : (((system unaccented).runLabels .all (State.init candidate)
      (.spawn cleanCV :: steps 0 6 ++ .spawn (.deleteData 6 []) :: steps 1 10)).map fun s =>
        s.db.schools.objects) = some [] := by decide +kernel
  obtain ⟨s, hs, he⟩ := System.reach_of_run hrun
  exact ⟨s, he, files_erased rfl hs⟩

/-- The storage fails to delete the CV. -/
theorem documents_left : ¬ ∀ (env : Environment) (d₀ : Db) (s : RunState),
    d₀.schools.cvtheque.documents = ∅ → (system env).Reachable d₀ s → DocumentsErased s := by
  intro h
  let cv : Document :=
    ⟨⟨0, 6, .cv, "cv/6/0-cv.pdf", .clean⟩, "cv.pdf", "application/pdf", 1⟩
  have hrun : (((system unaccented).runLabels .all (State.init candidate)
      (.spawn cleanCV :: steps 0 6 ++ .spawn (.deleteData 6 ["cv/6/0-cv.pdf"]) ::
        steps 1 9)).map fun s => (erased s 1 6 (s.log.take 2),
          decide (WrittenAt (s.log.take 2) (s.log.take 1) 0 (.schools (.insertDocument cv))),
          decide (cv.storageKey ∈ s.db.schools.objects))) = some (true, true, true) := by
    decide +kernel
  obtain ⟨s, hs, he⟩ := System.reach_of_run hrun
  obtain ⟨herased, hrest⟩ := Prod.mk.inj he
  obtain ⟨hinserted, hleft⟩ := Prod.mk.inj hrest
  exact h _ _ s rfl hs 1 6 _ herased _ 0 cv (of_decide_eq_true hinserted) rfl
    (of_decide_eq_true hleft)

/-- The upload has failed after it stored the object. -/
theorem uploads_left : ¬ ∀ (env : Environment) (d₀ : Db) (s : RunState),
    d₀.schools.cvtheque.documents = ∅ → (system env).Reachable d₀ s → UploadsErased s := by
  intro h
  have hrun : (((system unaccented).runLabels .all (State.init candidate)
      (.spawn cleanCV :: steps 0 4 ++ .fault 0 .unavailable :: .spawn (.deleteData 6 []) ::
        steps 1 8)).map fun s => (erased s 1 6 (s.log.take 1), s.ops[0]?,
          decide (WrittenAt (s.log.take 1) [] 0 (.schools (.putObject "cv/6/0-cv.pdf"))),
          decide ("cv/6/0-cv.pdf" ∈ s.db.schools.objects))) =
      some (true, some cleanCV, true, true) := by decide +kernel
  obtain ⟨s, hs, he⟩ := System.reach_of_run hrun
  obtain ⟨herased, hrest⟩ := Prod.mk.inj he
  obtain ⟨hop, hrest⟩ := Prod.mk.inj hrest
  obtain ⟨hput, hleft⟩ := Prod.mk.inj hrest
  exact h _ _ s rfl hs 1 6 _ herased _ 0 _ _ _ hop (of_decide_eq_true hput)
    (of_decide_eq_true hleft)

/-- Nothing deletes an attachment. -/
theorem attachments_left : ¬ ∀ (env : Environment) (d₀ : Db) (s : RunState),
    d₀.schools.cvtheque.documents = ∅ → (system env).Reachable d₀ s → AttachmentsErased d₀ s := by
  intro h
  let m : Messaging.Message := ⟨⟨0, 40, 6, .candidate, ""⟩,
    some "message-attachments/40/0-cv.pdf", some "cv.pdf", some "application/pdf", some 1, none, 0⟩
  have hrun : (((system unaccented).runLabels .all (State.init candidate)
      (.spawn (.sendAttachment 40 ⟨6, false⟩ ⟨1, "cv.pdf", "application/pdf", 1⟩ ⟨true, none⟩
        none) :: steps 0 6 ++ .spawn (.deleteData 6 []) :: steps 1 8)).map fun s =>
        (erased s 1 6 (s.log.take 2),
          decide (WrittenAt (s.log.take 2) (s.log.take 1) 0 (.messaging (.insertMessage m))),
          decide ("message-attachments/40/0-cv.pdf" ∈ s.db.schools.objects))) =
      some (true, true, true) := by decide +kernel
  obtain ⟨s, hs, he⟩ := System.reach_of_run hrun
  obtain ⟨herased, hrest⟩ := Prod.mk.inj he
  obtain ⟨hsent, hleft⟩ := Prod.mk.inj hrest
  exact h _ _ s rfl hs 1 6 _ herased _ 0 m _ _ _ (of_decide_eq_true hsent) rfl rfl rfl rfl
    (of_decide_eq_true hleft)

theorem files_left :
    (¬ ∀ (env : Environment) (d₀ : Db) (s : RunState), d₀.schools.cvtheque.documents = ∅ →
      (system env).Reachable d₀ s → DocumentsErased s) ∧
    (¬ ∀ (env : Environment) (d₀ : Db) (s : RunState), d₀.schools.cvtheque.documents = ∅ →
      (system env).Reachable d₀ s → UploadsErased s) ∧
    ¬ ∀ (env : Environment) (d₀ : Db) (s : RunState), d₀.schools.cvtheque.documents = ∅ →
      (system env).Reachable d₀ s → AttachmentsErased d₀ s :=
  ⟨documents_left, uploads_left, attachments_left⟩

end JobBoard.Candidates.Erasure
