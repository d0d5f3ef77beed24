import JobBoard.Candidates.Edits
import JobBoard.Candidates.SchoolBadge
import JobBoard.Lib.Interrupt

/-!
# A CV upload that fails

`uploadCV` stores the new object, deletes the old object and its row, and inserts the new row.
The storage and the table agree again only at its last write: a failure in between leaves the new
object without a row, and from the deletion on a user without a CV.
-/

set_option autoImplicit false

namespace JobBoard.Candidates.Edits

open Txn Prog
open Cvtheque (Document)
open Messaging.ConversationService (ScanResult)
open Erasure.CandidateDocumentService (cvRule cvKey)
open CandidateDocumentService (findCV removeDocument refresh uploadCV)

/-! ## What an upload has to keep -/

/-- `documentRepo.findOne({ where: { ownerId: userId, type: CV } })`. -/
def cvOf (db : Db) (userId : Id) : Option Document :=
  db.cvtheque.documents.rows.find? fun d => d.ownerId = userId && d.type = .cv

def IsCvKey (userId : Id) (key : String) : Prop :=
  ∃ name, key = "cv/" ++ toString userId ++ "/" ++ name

def Referenced (db : Db) (key : String) : Prop :=
  ∃ d ∈ db.cvtheque.documents.rows, d.storageKey = key

/-- The storage holds no CV of the user that no row references. -/
def NoOrphans (db : Db) (userId : Id) : Prop :=
  ∀ key ∈ db.objects, IsCvKey userId key → Referenced db key

/-- The CV that the user had in `db` is still there with its object. -/
def PreviousKept (db db' : Db) (userId : Id) : Prop :=
  ∀ d, cvOf db userId = some d → d ∈ db'.cvtheque.documents.rows ∧ d.storageKey ∈ db'.objects

/-- There is a CV of the user under the key, with its object. -/
def NewStored (db' : Db) (userId : Id) (key : String) : Prop :=
  ∃ d ∈ db'.cvtheque.documents.rows, d.ownerId = userId ∧ d.type = .cv ∧ d.storageKey = key ∧
    key ∈ db'.objects

/-- Nothing is stored under the key yet, and no row has it. -/
structure FreshKey (db : Db) (key : String) : Prop where
  unstored : key ∉ db.objects
  unreferenced : ¬ Referenced db key

/-- The number of the statement that inserts the new row. -/
def saveStep (db : Db) (userId : Id) : Nat := if (cvOf db userId).isSome then 6 else 4

section

variable {db db' : Db} {uuid userId : Id} {file : UploadedFile} {scan : ScanResult} {n : Nat}
  {key : String}

/-! ## What each failure leaves -/

theorem not_newStored (hfresh : FreshKey db key)
    (hrows : ∀ d ∈ db'.cvtheque.documents.rows, d ∈ db.cvtheque.documents.rows) :
    ¬ NewStored db' userId key := by
  rintro ⟨d, hd, -, -, hkey, -⟩
  exact hfresh.unreferenced ⟨d, hrows d hd, hkey⟩

/-- The new object is stored, and the new row is not in: the old CV may be there still. -/
structure Halfway (db db' : Db) (key : String) (old : Prop) (userId : Id) : Prop where
  stored : key ∈ db'.objects
  rows : ∀ d ∈ db'.cvtheque.documents.rows, d ∈ db.cvtheque.documents.rows
  kept : PreviousKept db db' userId ↔ old

theorem Halfway.orphan {old : Prop} (h : Halfway db db' key old userId) (hcv : IsCvKey userId key)
    (hfresh : FreshKey db key) : ¬ NoOrphans db' userId := by
  intro horphans
  obtain ⟨d, hd, hdkey⟩ := horphans key h.stored hcv
  exact hfresh.unreferenced ⟨d, h.rows d hd, hdkey⟩

theorem Halfway.early {old : Prop} (h : Halfway db db' key old userId) (hn : n ≤ 4) :
    Halfway db db' key (n ≤ 4 ∧ old) userId :=
  ⟨h.stored, h.rows, h.kept.trans (iff_and_self.2 fun _ => hn)⟩

theorem Halfway.late {old : Prop} (h : Halfway db db' key False userId) (hn : ¬ n ≤ 4) :
    Halfway db db' key (n ≤ 4 ∧ old) userId :=
  ⟨h.stored, h.rows, h.kept.trans ⟨False.elim, fun hold => hn hold.1⟩⟩

/-- The state of the rows and the storage once the new row is in. -/
structure Replaced (db db' : Db) (userId : Id) (new : Document) : Prop where
  rows : ∀ d, d ∈ db'.cvtheque.documents.rows ↔ d = new ∨
    d ∈ db.cvtheque.documents.rows ∧ ∀ old, cvOf db userId = some old → d.id ≠ old.id
  objects : ∀ key, key ∈ db'.objects ↔ key = new.storageKey ∨
    key ∈ db.objects ∧ ∀ old, cvOf db userId = some old → key ≠ old.storageKey

theorem cvOf_mem {d : Document} (h : cvOf db userId = some d) :
    d ∈ db.cvtheque.documents.rows ∧ d.ownerId = userId ∧ d.type = .cv := by
  have hfound := List.find?_some h
  simp only [Bool.and_eq_true, decide_eq_true_eq] at hfound
  exact ⟨List.mem_of_find?_eq_some h, hfound⟩

theorem Replaced.newStored {new : Document} (h : Replaced db db' userId new)
    (howner : new.ownerId = userId) (htype : new.type = .cv) :
    NewStored db' userId new.storageKey :=
  ⟨new, (h.rows new).2 (.inl rfl), howner, htype, rfl, (h.objects _).2 (.inl rfl)⟩

theorem Replaced.noOrphans {new : Document} (h : Replaced db db' userId new)
    (hfresh : FreshKey db new.storageKey) : NoOrphans db' userId ↔ NoOrphans db userId := by
  constructor
  · intro horphans key hkey hcv
    by_cases hold : ∃ old, cvOf db userId = some old ∧ key = old.storageKey
    · obtain ⟨old, hold, rfl⟩ := hold
      exact ⟨old, (cvOf_mem hold).1, rfl⟩
    · have hkept : key ∈ db'.objects :=
        (h.objects key).2 (.inr ⟨hkey, fun old h₁ h₂ => hold ⟨old, h₁, h₂⟩⟩)
      obtain ⟨d, hd, rfl⟩ := horphans key hkept hcv
      rcases (h.rows d).1 hd with rfl | ⟨hd, -⟩
      · exact absurd hkey hfresh.unstored
      · exact ⟨d, hd, rfl⟩
  · intro horphans key hkey hcv
    rcases (h.objects key).1 hkey with rfl | ⟨hkey, hold⟩
    · exact ⟨new, (h.rows new).2 (.inl rfl), rfl⟩
    · obtain ⟨d, hd, rfl⟩ := horphans key hkey hcv
      refine ⟨d, (h.rows d).2 (.inr ⟨hd, fun old hcv hid => ?_⟩), rfl⟩
      exact hold old hcv (congrArg (·.storageKey) (Table.eq_of_key hd (cvOf_mem hcv).1 hid))

/-! ## The upload, statement by statement -/

/-- The checks are two reads. -/
theorem checkUpload_interrupted (rule : UploadRule) (file : UploadedFile) (scan : ScanResult)
    (n : Nat) (db : Db) :
    ∃ o, (inSchools (checkUpload rule file scan)).interrupted store n db = (db, o) ∧
      (o = .failed → n < 2) ∧ ∀ a left, o = .returned a left → n = left + 2 := by
  unfold inSchools checkUpload
  split
  · exact ⟨_, rfl, nofun, nofun⟩
  · rw [zoom_bind, zoom_select, interrupted_bind]
    cases n with
    | zero => exact ⟨_, rfl, fun _ => Nat.zero_lt_two, nofun⟩
    | succ n =>
      rw [interrupted_select, andGo_returned]
      split
      · exact ⟨_, rfl, nofun, nofun⟩
      · rw [zoom_bind, zoom_select, interrupted_bind]
        cases n with
        | zero => exact ⟨_, rfl, fun _ => Nat.one_lt_two, nofun⟩
        | succ n =>
          rw [interrupted_select, andGo_returned]
          split
          · exact ⟨_, rfl, nofun, nofun⟩
          · split
            · exact ⟨_, rfl, nofun, nofun⟩
            · refine ⟨_, rfl, nofun, ?_⟩
              rintro _ _ ⟨⟩
              rfl

/-- The writes of a recalculation. -/
def Recalculates (ws : List Write) : Prop :=
  ∃ us, ProfileSaves us ∧ ws = (us.map Candidates.Write.cvtheque).map .schools

theorem refresh_plain (userId : Id) :
    (refresh userId).Plain Recalculates Recalculates fun _ => True := by
  unfold refresh
  refine (plain_select ⟨[], saves_nil, rfl⟩ _).bind fun profile? => ?_
  cases profile? with
  | none => exact plain_ret _
  | some profile =>
    refine Plain.bind ?_ fun _ => plain_ret _
    have hinner : (Candidates.inCvtheque
        (Cvtheque.CandidateProfileService.calculateCompleteness profile.id)).Plain
        (fun ws => ∃ us, ProfileSaves us ∧ ws = us.map .cvtheque)
        (fun ws => ∃ us, ProfileSaves us ∧ ws = us.map .cvtheque) fun _ => True :=
      (calculateCompleteness_savesOnly profile.id).zoom (fun us h => ⟨us, h, rfl⟩)
        fun us h => ⟨us, h, rfl⟩
    refine hinner.zoom ?_ ?_ <;> rintro ws ⟨us, hus, rfl⟩ <;> exact ⟨us, hus, rfl⟩

/-- The recalculation changes neither the documents nor the storage. -/
theorem refresh_interrupted (userId : Id) (n : Nat) (db : Db) :
    ((refresh userId).interrupted store n db).1.cvtheque.documents = db.cvtheque.documents ∧
      ((refresh userId).interrupted store n db).1.objects = db.objects := by
  have hkeeps : ∀ (ws : List Write) (d : Db), Recalculates ws →
      d.cvtheque.documents = db.cvtheque.documents ∧ d.objects = db.objects →
      (store.applyAll d ws).cvtheque.documents = db.cvtheque.documents ∧
        (store.applyAll d ws).objects = db.objects := by
    rintro ws d ⟨us, rfl | ⟨writer, loaded, entity, reread, rfl⟩, rfl⟩ hd
    · exact hd
    · exact hd
  exact (refresh_plain userId).interrupted_keeps hkeeps hkeeps ⟨rfl, rfl⟩

def newCv (uuid userId : Id) (file : UploadedFile) : Document where
  id := uuid
  ownerId := userId
  type := .cv
  storageKey := cvKey uuid userId file
  originalName := file.originalname
  mimeType := file.mimetype
  size := file.size
  scanStatus := .clean

/-- The insert of the new row, and what follows it. -/
theorem save_interrupted {new : Document}
    (h : (inSchools (insertDocument new) >>= fun saved => refresh userId >>= fun _ =>
      ret saved).interrupted store n db = (db', .failed)) :
    (n = 0 ∧ db' = db) ∨ (0 < n ∧ db'.objects = db.objects ∧
      db'.cvtheque.documents.rows = db.cvtheque.documents.rows ++ [new]) := by
  unfold inSchools insertDocument at h
  rw [interrupted_bind, zoom_query] at h
  cases n with
  | zero => exact .inl ⟨rfl, (Prod.mk.inj h).1.symm⟩
  | succ n =>
    rw [interrupted_query] at h
    unfold documentViolation at h
    cases hid : db.cvtheque.documents.get? new.id with
    | some d =>
      simp only [id_eq, hid, Option.isSome_some, if_true, Except.map] at h
      cases h
    | none =>
      simp only [id_eq, hid, Option.isSome_none, Bool.false_eq_true, if_false, Except.map,
        List.map_cons, List.map_nil, andGo_returned] at h
      have hrefresh := refresh_interrupted userId n
        (store.applyAll db [.schools (.insertDocument new)])
      rw [interrupted_bind] at h
      generalize (refresh userId).interrupted store n
        (store.applyAll db [.schools (.insertDocument new)]) = r at h hrefresh
      obtain ⟨db₁, _ | _ | _⟩ := r
      · cases h
      · cases h
      · cases h
        refine .inr ⟨Nat.succ_pos n, hrefresh.2, ?_⟩
        rw [hrefresh.1]
        exact Table.insert_rows hid

/-- The old CV is away, and the new row is not in. -/
structure Cleared (db db' : Db) (userId : Id) (key : String) : Prop where
  rows : ∀ d, d ∈ db'.cvtheque.documents.rows ↔
    d ∈ db.cvtheque.documents.rows ∧ ∀ old, cvOf db userId = some old → d.id ≠ old.id
  objects : ∀ k, k ∈ db'.objects ↔ k = key ∨
    k ∈ db.objects ∧ ∀ old, cvOf db userId = some old → k ≠ old.storageKey

theorem Cleared.replaced {db₁ : Db} {new : Document} (h : Cleared db db₁ userId new.storageKey)
    (hobjects : db'.objects = db₁.objects)
    (hrows : db'.cvtheque.documents.rows = db₁.cvtheque.documents.rows ++ [new]) :
    Replaced db db' userId new := by
  refine ⟨fun d => ?_, fun k => by rw [hobjects, h.objects k]⟩
  rw [hrows, List.mem_append, List.mem_singleton, h.rows d, or_comm]

/-- The storage once the new object is in. -/
def uploaded (db : Db) (key : String) : Db := store.applyAll db [.schools (.putObject key)]

theorem uploaded_halfway (hfresh : FreshKey db key) :
    Halfway db (uploaded db key) key (PreviousKept db db userId) userId := by
  refine ⟨List.mem_append_right _ (List.mem_singleton_self _), fun _ h => h, ?_⟩
  refine forall₂_congr fun d hd => and_congr_right fun hmem => ?_
  have hne : d.storageKey ≠ key := fun heq => hfresh.unreferenced ⟨d, hmem, heq⟩
  show d.storageKey ∈ db.objects ++ [key] ↔ _
  simp [hne]

theorem uploaded_cleared (hnone : cvOf db userId = none) :
    Cleared db (uploaded db key) userId key := by
  refine ⟨fun d => ⟨fun h => ⟨h, fun old hold => ?_⟩, And.left⟩, fun k => ?_⟩
  · rw [hnone] at hold
    cases hold
  · show k ∈ db.objects ++ [key] ↔ _
    rw [List.mem_append, List.mem_singleton, or_comm]
    refine or_congr_right ⟨fun h => ⟨h, fun old hold => ?_⟩, And.left⟩
    rw [hnone] at hold
    cases hold

/-- The database once the old object is away. -/
def objectDeleted (db : Db) (key : String) (old : Document) : Db :=
  store.applyAll (uploaded db key) [.schools (.deleteObject old.storageKey)]

theorem objectDeleted_objects {old : Document} (hkey : key ≠ old.storageKey) (k : String) :
    k ∈ (objectDeleted db key old).objects ↔ k = key ∨ k ∈ db.objects ∧ k ≠ old.storageKey := by
  show k ∈ (db.objects ++ [key]).filter (· ≠ old.storageKey) ↔ _
  rw [List.mem_filter, List.mem_append, List.mem_singleton, decide_eq_true_eq]
  constructor
  · rintro ⟨h | rfl, hne⟩
    · exact .inr ⟨h, hne⟩
    · exact .inl rfl
  · rintro (rfl | ⟨h, hne⟩)
    · exact ⟨.inr rfl, hkey⟩
    · exact ⟨.inl h, hne⟩

theorem objectDeleted_halfway {old : Document} (hold : cvOf db userId = some old)
    (hkey : key ≠ old.storageKey) :
    Halfway db (objectDeleted db key old) key False userId := by
  refine ⟨(objectDeleted_objects hkey key).2 (.inl rfl), fun _ h => h, fun h => ?_, False.elim⟩
  rcases (objectDeleted_objects hkey old.storageKey).1 (h old hold).2 with heq | ⟨-, hne⟩
  · exact hkey heq.symm
  · exact hne rfl

theorem documentDeleted_cleared {old : Document} (hold : cvOf db userId = some old)
    (hkey : key ≠ old.storageKey) :
    Cleared db (store.applyAll (objectDeleted db key old) [.schools (.deleteDocument old.id)])
      userId key := by
  have hall : ∀ P : Document → Prop, (∀ d, cvOf db userId = some d → P d) ↔ P old := fun P =>
    ⟨fun h => h old hold, fun h d hd => by
      rw [hold] at hd
      cases hd
      exact h⟩
  refine ⟨fun d => ?_, fun k => ?_⟩
  · rw [hall]
    show d ∈ db.cvtheque.documents.rows.filter _ ↔ _
    rw [List.mem_filter]
    simp
  · rw [hall]
    exact objectDeleted_objects hkey k

theorem Cleared.halfway (h : Cleared db db' userId key) (hold : (cvOf db userId).isSome = true) :
    Halfway db db' key False userId := by
  obtain ⟨old, hold⟩ := Option.isSome_iff_exists.1 hold
  refine ⟨(h.objects key).2 (.inl rfl), fun d hd => ((h.rows d).1 hd).1, fun hkept => ?_,
    False.elim⟩
  exact ((h.rows old).1 (hkept old hold).1).2 old hold rfl

/-- The failing statement is before the upload, before the new row, or behind it. -/
theorem uploadCV_interrupted (hfresh : FreshKey db (cvKey uuid userId file))
    (h : (uploadCV uuid userId file scan).interrupted store n db = (db', .failed)) :
    (n ≤ 2 ∧ db' = db) ∨
      (2 < n ∧ n ≤ saveStep db userId ∧
        Halfway db db' (cvKey uuid userId file) (n ≤ 4 ∧ PreviousKept db db userId) userId) ∨
      (saveStep db userId < n ∧ Replaced db db' userId (newCv uuid userId file)) := by
  unfold uploadCV at h
  rw [interrupted_bind] at h
  obtain ⟨o, ho, hfailed, hreturned⟩ := checkUpload_interrupted cvRule file scan n db
  rw [ho] at h
  cases o with
  | thrown e => cases h
  | failed =>
    cases h
    have hn := hfailed rfl
    exact .inl ⟨by omega, rfl⟩
  | returned a left =>
    obtain rfl := hreturned a left rfl
    rw [andGo_returned, interrupted_bind] at h
    cases left with
    | zero =>
      cases h
      exact .inl ⟨Nat.le_refl 2, rfl⟩
    | succ left =>
      rw [interrupted_write, andGo_returned, interrupted_bind] at h
      cases left with
      | zero =>
        cases h
        refine .inr (.inl ⟨by omega, ?_, (uploaded_halfway hfresh).early (by omega)⟩)
        unfold saveStep
        split <;> omega
      | succ left =>
        unfold findCV at h
        rw [interrupted_select, andGo_returned] at h
        have hdocuments : (store.applyAll db
            [.schools (.putObject (cvKey uuid userId file))]).cvtheque.documents =
            db.cvtheque.documents := rfl
        dsimp only at h
        rw [hdocuments] at h
        cases hcv : cvOf db userId with
        | none =>
          have hstep : saveStep db userId = 4 := by simp [saveStep, hcv]
          rw [show db.cvtheque.documents.rows.find? _ = none from hcv] at h
          rw [hstep]
          rcases save_interrupted h with ⟨rfl, rfl⟩ | ⟨hn, hobjects, hrows⟩
          · exact .inr (.inl ⟨by omega, by omega, (uploaded_halfway hfresh).early (by omega)⟩)
          · refine .inr (.inr ⟨by omega, ?_⟩)
            exact (uploaded_cleared hcv).replaced hobjects hrows
        | some old =>
          have hstep : saveStep db userId = 6 := by simp [saveStep, hcv]
          rw [show db.cvtheque.documents.rows.find? _ = some old from hcv] at h
          rw [hstep]
          have hkey : cvKey uuid userId file ≠ old.storageKey := fun heq =>
            hfresh.unreferenced ⟨old, (cvOf_mem hcv).1, heq.symm⟩
          unfold removeDocument at h
          change ((write _ >>= fun _ => write _) >>= _).interrupted _ _ _ = _ at h
          rw [interrupted_bind, interrupted_bind] at h
          cases left with
          | zero =>
            cases h
            exact .inr (.inl ⟨by omega, by omega, (uploaded_halfway hfresh).early (by omega)⟩)
          | succ left =>
            rw [interrupted_write, andGo_returned] at h
            cases left with
            | zero =>
              cases h
              exact .inr (.inl ⟨by omega, by omega,
                (objectDeleted_halfway hcv hkey).late (by omega)⟩)
            | succ left =>
              rw [interrupted_write, andGo_returned] at h
              have hcleared := documentDeleted_cleared hcv hkey
              rcases save_interrupted h with ⟨rfl, rfl⟩ | ⟨hn, hobjects, hrows⟩
              · refine .inr (.inl ⟨by omega, by omega, ?_⟩)
                exact (hcleared.halfway (by rw [hcv]; rfl)).late (by omega)
              · exact .inr (.inr ⟨by omega, hcleared.replaced hobjects hrows⟩)

theorem isCvKey_cvKey : IsCvKey userId (cvKey uuid userId file) := by
  refine ⟨toString uuid ++ "-" ++ file.originalname, ?_⟩
  simp only [cvKey, String.append_assoc]

theorem le_saveStep : 4 ≤ saveStep db userId := by
  unfold saveStep
  split <;> omega

/-- A CV is there after the failure if the old one was and nothing of it is deleted yet, or if the
new row is in. No object of the user is without a row if there was none before and the failure is
before the upload or behind the new row. -/
theorem uploadCV_failure_iff (hfresh : FreshKey db (cvKey uuid userId file))
    (h : (uploadCV uuid userId file scan).interrupted store n db = (db', .failed)) :
    ((PreviousKept db db' userId ∨ NewStored db' userId (cvKey uuid userId file)) ↔
      (n ≤ 4 ∧ PreviousKept db db userId) ∨ saveStep db userId < n) ∧
    (NoOrphans db' userId ↔ (n ≤ 2 ∨ saveStep db userId < n) ∧ NoOrphans db userId) := by
  have hstep : 4 ≤ saveStep db userId := le_saveStep
  rcases uploadCV_interrupted hfresh h with ⟨hn, rfl⟩ | ⟨hn, hle, hhalf⟩ | ⟨hlt, hnew⟩
  · have hearly : n ≤ 4 := by omega
    have hbefore : ¬ saveStep db' userId < n := by omega
    simp [not_newStored hfresh fun _ h => h, hn, hearly, hbefore]
  · have hn' : ¬ n ≤ 2 := by omega
    have hbefore : ¬ saveStep db userId < n := by omega
    have hnot : ¬ NewStored db' userId (cvKey uuid userId file) :=
      not_newStored hfresh hhalf.rows
    have horphan := hhalf.orphan isCvKey_cvKey hfresh
    simp [hnot, horphan, hhalf.kept, hn', hbefore]
  · have hstored : NewStored db' userId (cvKey uuid userId file) := hnew.newStored rfl rfl
    simp [hstored, hlt, hnew.noOrphans hfresh]

end

def oldCv : Document :=
  ⟨⟨0, 6, .cv, "cv/6/0-cv.pdf", .clean⟩, "cv.pdf", "application/pdf", 1⟩

/-- User 6 has a CV. -/
def holder : Db :=
  ⟨{ Cvtheque.Db.empty with documents := ⟨[oldCv], by decide⟩ }, [oldCv.storageKey]⟩

/-- The second upload of user 6, with a failure at the statement `n`. -/
def secondUpload (n : Nat) : Db × Outcome Error Document :=
  (uploadCV 1 6 ⟨1, "cv.pdf", "application/pdf", 1⟩ ⟨true, none⟩).interrupted store n holder

theorem holder_fresh : FreshKey holder (cvKey 1 6 ⟨1, "cv.pdf", "application/pdf", 1⟩) := by
  constructor
  · decide +kernel
  · unfold Referenced
    decide +kernel

theorem holder_kept : PreviousKept holder holder 6 := by
  intro d hd
  have hd : some oldCv = some d := hd
  cases hd
  decide

theorem holder_noOrphans : NoOrphans holder 6 := by
  intro key hkey _
  exact ⟨oldCv, List.mem_singleton_self _, (List.mem_singleton.1 hkey).symm⟩

/-- The deletion of the old object fails: the old CV is there, and the new object is an orphan. -/
theorem uploadCV_failure_iff_delete :
    (PreviousKept holder (secondUpload 4).1 6 ∨
      NewStored (secondUpload 4).1 6 (cvKey 1 6 ⟨1, "cv.pdf", "application/pdf", 1⟩)) ∧
    ¬ NoOrphans (secondUpload 4).1 6 := by
  have hfailed : (secondUpload 4).2 = .failed := by decide +kernel
  have h := uploadCV_failure_iff holder_fresh (Prod.ext rfl hfailed)
  refine ⟨h.1.2 (.inl ⟨by decide, holder_kept⟩), fun horphans => ?_⟩
  exact absurd (h.2.1 horphans).1 (by decide +kernel)

/-- The insert of the new row fails: the user has no CV left. -/
theorem cv_lost : ¬ ∀ (db db' : Db) (uuid userId : Id) (file : UploadedFile) (scan : ScanResult)
    (n : Nat), FreshKey db (cvKey uuid userId file) → PreviousKept db db userId →
    NoOrphans db userId →
    (uploadCV uuid userId file scan).interrupted store n db = (db', .failed) →
    (PreviousKept db db' userId ∨ NewStored db' userId (cvKey uuid userId file)) ∧
      NoOrphans db' userId := by
  intro h
  have hfailed : (secondUpload 6).2 = .failed := by decide +kernel
  have hrows : (secondUpload 6).1.cvtheque.documents.rows = [] := by decide +kernel
  have hlost := (h holder (secondUpload 6).1 1 6 _ _ 6 holder_fresh holder_kept holder_noOrphans
    (Prod.ext rfl hfailed)).1
  rcases hlost with hkept | ⟨d, hd, -⟩
  · have hold := (hkept oldCv rfl).1
    rw [hrows] at hold
    cases hold
  · rw [hrows] at hd
    cases hd

/-! ## Runs -/

def system (env : Environment) : System Db Write Key Error Result Op :=
  ⟨store, program env, isFault⟩

section

variable {env : Environment} {d₀ db' : Db} {s : State Db Write Error Result Op} {userId : Id}
  {file : UploadedFile} {scan : ScanResult} {n : Nat} {e : Error}

theorem checkUpload_plain (rule : UploadRule) (file : UploadedFile) (scan : ScanResult) :
    (checkUpload rule file scan).Plain (fun _ => True) (fun _ => True) fun _ => True := by
  unfold checkUpload
  split
  · exact plain_throw trivial
  · refine (plain_select trivial _).bind fun maxSize => ?_
    split
    · exact plain_throw trivial
    · refine (plain_select trivial _).bind fun allowedTypes => ?_
      split
      · exact plain_throw trivial
      · split
        · exact plain_throw trivial
        · exact plain_ret _

theorem save_plain (userId : Id) (new : Document) :
    (inSchools (insertDocument new) >>= fun saved => refresh userId >>= fun _ =>
      ret saved).Plain (fun _ => True) (fun _ => True) fun _ => True := by
  have hinsert : (insertDocument new).Plain (fun _ => True) (fun _ => True) fun _ => True :=
    plain_query trivial (fun _ _ _ => trivial) fun _ _ _ => trivial
  refine (hinsert.zoom (fun _ _ => trivial) fun _ _ => trivial).bind fun saved => ?_
  refine Plain.bind ?_ fun _ => plain_ret saved
  exact (refresh_plain userId).mono (fun _ _ => trivial) (fun _ _ => trivial) fun _ _ => trivial

theorem uploadCV_plain (uuid userId : Id) (file : UploadedFile) (scan : ScanResult) :
    (uploadCV uuid userId file scan).Plain (fun _ => True) (fun _ => True) fun _ => True := by
  unfold uploadCV
  refine Plain.bind ?_ fun _ => ?_
  · exact (checkUpload_plain cvRule file scan).zoom (fun _ _ => trivial) fun _ _ => trivial
  · refine (plain_write fun _ => trivial).bind fun _ => (plain_select trivial _).bind fun old => ?_
    cases old with
    | none => exact save_plain userId _
    | some old =>
      refine Plain.bind ?_ fun _ => save_plain userId _
      exact (plain_write fun _ => trivial).bind fun _ => plain_write fun _ => trivial

/-- The failures of `uploadCV` are runs of the system. -/
theorem uploadCV_fails (h : (system env).Reachable d₀ s) (hidle : s.Idle)
    (he : isFault e = true)
    (hr : (uploadCV s.ops.length userId file scan).interrupted store n s.db = (db', .failed)) :
    ∃ s', (system env).Reachable d₀ s' ∧ s'.ops = s.ops ++ [.uploadCV userId file scan] ∧
      s'.db = db' ∧ s'.call s.ops.length = .done (.error e) := by
  have hplain := (uploadCV_plain s.ops.length userId file scan).bind
    fun d => plain_ret (Result.document d)
  have hrun : (uploadCV s.ops.length userId file scan >>= fun d =>
      ret (Result.document d)).interrupted store n s.db = (db', .failed) := by
    rw [interrupted_bind, hr]
    rfl
  exact h.interrupted hidle hplain he hrun

end

end JobBoard.Candidates.Edits
