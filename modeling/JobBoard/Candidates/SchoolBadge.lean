import JobBoard.Candidates.Schools

/-!
# The badge of a verified school

A submission is decided once in every run, since the decision is one conditional `UPDATE`. The
badge of a profile, the school it shows and the verification they rest on are written apart. They
agree in the runs where no re-submission removes the verification of a badge, an approval updates
the profile while its verification stands, and no save of the profile changes a verified school
or brings a badge back.
-/

set_option autoImplicit false

namespace JobBoard.Candidates

open Txn Prog
open Cvtheque (SchoolVerification SchoolVerificationStatus)

section

variable {env : Environment} {d₀ : Db} {i : Nat} {L : Log}

theorem at_snoc (L : Log) (i : Nat) (w : Write) :
    d₀.at (L ++ [⟨i, false, [w]⟩]) = store.apply (d₀.at L) w := replay_snoc ..

/-! ## What the calls publish -/

def isSubmission : Write → Bool
  | .insertVerification _ => true
  | _ => false

/-- Call `i` has not submitted yet. -/
abbrev Unsubmitted (i : Nat) (L : Log) : Prop := Unwritten i isSubmission L

/-- What is known of a write of call `i` at the log `L`. -/
def SchoolGuarantee (d₀ : Db) (i : Nat) (L : Log) : Write → Prop
  | .cvtheque (.decideVerification id status _ _ _) => status ≠ .pending ∧ ∃ v,
    (d₀.at L).cvtheque.schoolVerifications.get? id = some v ∧ v.status = .pending
  | .cvtheque (.insertProfile p) => (d₀.at L).cvtheque.profiles.get? p.id = none ∧
    p.schoolVerified = false
  | .insertVerification v => v.id = i ∧ Unsubmitted i L ∧
    (d₀.at L).cvtheque.schoolVerifications.get? v.id = none
  | _ => True

abbrev Keeps {α : Type} (d₀ : Db) (i : Nat) (p : M α) (Q : Log → α → Prop) (L : Log) : Prop :=
  p.Promises store d₀ i (SchoolGuarantee d₀ i) (fun e => isFault e = true) Q L

/-! ### Edits of the profile -/

/-- The saves of a profile, one at a time. -/
def ProfileSaves (ws : List Cvtheque.Write) : Prop :=
  ws = [] ∨ ∃ writer loaded entity reread, ws = [.saveProfile writer loaded entity reread]

abbrev SavesOnly {α : Type} (p : Cvtheque.M α) : Prop :=
  p.Plain ProfileSaves ProfileSaves fun _ => True

theorem saves_nil : ProfileSaves [] := .inl rfl

theorem SavesOnly.keeps {α : Type} {p : Cvtheque.M α} {Q : Log → α → Prop} (hp : SavesOnly p)
    (hQ : ∀ L' a, Q L' a) : Keeps d₀ i (inCvtheque p) Q L := by
  have hsaves : ∀ ws, ProfileSaves ws → ws.map Write.cvtheque = [] ∨
      ∃ w, ws.map Write.cvtheque = [w] ∧ ∀ L, SchoolGuarantee d₀ i L w := by
    rintro ws (rfl | ⟨writer, loaded, entity, reread, rfl⟩)
    · exact .inl rfl
    · exact .inr ⟨_, rfl, fun _ => trivial⟩
  exact (Plain.promises (hp.zoom hsaves hsaves)).mono fun L' a _ => hQ L' a

theorem save_savesOnly (writer : Cvtheque.ProfileWriter) (loaded entity : Cvtheque.CandidateProfile) :
    SavesOnly (Cvtheque.ProfileRepository.save writer loaded entity) := by
  refine (plain_select saves_nil _).bind fun reread? => ?_
  cases reread? with
  | none => trivial
  | some reread =>
    dsimp only
    split
    · exact Plain.bind (plain_write fun _ => .inr ⟨_, _, _, _, rfl⟩) fun _ => plain_ret _
    · exact plain_ret _

theorem applyThresholds_savesOnly (userId : Id) :
    SavesOnly (Cvtheque.IndexationService.applyThresholds userId) := by
  unfold Cvtheque.IndexationService.applyThresholds
  refine (plain_select saves_nil _).bind fun profile? => ?_
  cases profile? with
  | none => exact plain_ret _
  | some profile =>
    refine (plain_select saves_nil _).bind fun ids => Plain.bind ?_ fun scores => ?_
    · unfold Cvtheque.IndexationService.findValidScores Cvtheque.now
      split
      · exact plain_ret _
      · exact (plain_select saves_nil _).bind fun _ => (plain_select saves_nil _).bind fun _ =>
          plain_ret _
    · exact (plain_select saves_nil _).bind fun thresholds =>
        (save_savesOnly _ _ _).bind fun _ => plain_ret _

theorem calculateCompleteness_savesOnly (profileId : Id) :
    SavesOnly (Cvtheque.CandidateProfileService.calculateCompleteness profileId) := by
  unfold Cvtheque.CandidateProfileService.calculateCompleteness
  refine (plain_select saves_nil _).bind fun profile? => ?_
  cases profile? with
  | none => trivial
  | some profile =>
    refine (plain_select saves_nil _).bind fun weights => Plain.bind ?_ fun parts => ?_
    · unfold Cvtheque.CandidateProfileService.loadParts
      refine (plain_select saves_nil _).bind fun _ => (plain_select saves_nil _).bind fun _ => ?_
      exact (plain_select saves_nil _).bind fun _ => (plain_select saves_nil _).bind fun _ =>
        plain_ret _
    · refine (save_savesOnly _ _ _).bind fun _ => ?_
      dsimp only
      split
      · exact ((applyThresholds_savesOnly _).caught fun _ _ => plain_ret _).bind fun _ =>
          plain_ret _
      · exact plain_ret _

theorem updateProfile_savesOnly (profileId : Id) (data : Cvtheque.UpdateProfileDto) :
    SavesOnly (Cvtheque.CandidateProfileService.updateProfile profileId data) := by
  unfold Cvtheque.CandidateProfileService.updateProfile
  refine (plain_select saves_nil _).bind fun profile? => ?_
  cases profile? with
  | none => trivial
  | some profile =>
    dsimp only
    split
    · trivial
    · refine Plain.bind ?_ fun _ => (save_savesOnly _ _ _).bind fun saved =>
        (calculateCompleteness_savesOnly _).bind fun _ => plain_ret _
      unfold Cvtheque.CandidateProfileService.checkVisibility
      split
      · exact plain_ret _
      · split
        · trivial
        · refine (plain_select saves_nil _).bind fun diploma => ?_
          split
          · exact plain_ret _
          · trivial

/-! ### Decisions -/

/-- What a decision answers when it has changed the submission. -/
theorem decided_keeps {id : Id} {Q : Log → SchoolVerification → Prop} (hQ : ∀ L' v, Q L' v) :
    Keeps d₀ i (Prog.zoom Db.cvtheque Write.cvtheque (do
      match ← select fun db : Cvtheque.Db => db.schoolVerifications.get? id with
      | none => throw (.entityNotFound "SchoolVerification")
      | some verification => return verification)) Q L := by
  rw [zoom_bind]
  refine promises_bind.2 (promises_select fun L₁ _ => ?_)
  dsimp only
  cases (d₀.at L₁).cvtheque.schoolVerifications.get? id with
  | none => trivial
  | some v => exact hQ _ _

/-- And when it has not. -/
theorem undecided_keeps {id : Id} {Q : Log → SchoolVerification → Prop} :
    Keeps d₀ i (Prog.zoom Db.cvtheque Write.cvtheque (do
      match ← select fun db : Cvtheque.Db => db.schoolVerifications.get? id with
      | none => throw (.notFound "School verification not found")
      | some _ => throw (.conflict "This submission has already been reviewed"))) Q L := by
  rw [zoom_bind]
  refine promises_bind.2 (promises_select fun L₁ _ => ?_)
  dsimp only
  cases (d₀.at L₁).cvtheque.schoolVerifications.get? id with
  | none => trivial
  | some v => trivial

theorem claimPendingDecision_keeps {id adminUserId : Id} {note : Option String}
    {status : SchoolVerificationStatus} {Q : Log → SchoolVerification → Prop}
    (hstatus : status ≠ .pending) (hQ : ∀ L' v, Q L' v) :
    Keeps d₀ i (inCvtheque
      (Cvtheque.SchoolVerificationService.claimPendingDecision id adminUserId note status)) Q L := by
  unfold Cvtheque.SchoolVerificationService.claimPendingDecision inCvtheque
  rw [zoom_bind]
  refine promises_bind.2 (promises_select fun L₁ _ => ?_)
  rw [zoom_bind]
  refine promises_bind.2 ?_
  unfold Cvtheque.SchoolVerificationService.decide
  rw [zoom_query]
  refine promises_query fun L₂ ws affected _ hf => ?_
  cases hget : (d₀.at L₂).cvtheque.schoolVerifications.get? id with
  | none =>
    rw [hget] at hf
    cases hf
    exact .inl ⟨rfl, undecided_keeps⟩
  | some v =>
    rw [hget] at hf
    dsimp only at hf
    split at hf
    · next hpending =>
      cases hf
      exact .inr ⟨_, rfl, ⟨hstatus, v, hget, hpending⟩, decided_keeps hQ⟩
    · cases hf
      exact .inl ⟨rfl, undecided_keeps⟩

theorem approve_keeps {id adminUserId : Id} {note : Option String}
    {Q : Log → SchoolVerification → Prop} (hQ : ∀ L' v, Q L' v) :
    Keeps d₀ i (SchoolVerificationService.approve id adminUserId note) Q L := by
  unfold SchoolVerificationService.approve Cvtheque.SchoolVerificationService.approve
  rw [inCvtheque, zoom_bind]
  refine promises_bind.2 (claimPendingDecision_keeps (by decide) fun L₁ v => ?_)
  rw [zoom_bind]
  exact promises_bind.2 (promises_write fun L₂ _ => ⟨trivial, hQ _ _⟩)

/-! ### Submissions -/

theorem checkUpload_keeps {rule : UploadRule} {file : UploadedFile}
    {scan : Messaging.ConversationService.ScanResult} {Q : Log → Unit → Prop}
    (h : ∀ L', ByOthers i L L' → Q L' ()) : Keeps d₀ i (checkUpload rule file scan) Q L := by
  unfold checkUpload
  split
  · trivial
  · refine promises_bind.2 (promises_select fun L₁ hr₁ => ?_)
    split
    · trivial
    · refine promises_bind.2 (promises_select fun L₂ hr₂ => ?_)
      split
      · trivial
      · split
        · trivial
        · exact h L₂ (hr₁.trans hr₂)

theorem findOrCreateProfile_keeps {uuid userId : Id} {Q : Log → Cvtheque.CandidateProfile → Prop}
    (h : Unsubmitted i L) (hQ : ∀ L' p, Unsubmitted i L' → Q L' p) :
    Keeps d₀ i
      (inCvtheque (Cvtheque.CandidateProfileService.findOrCreateProfile uuid userId)) Q L := by
  unfold Cvtheque.CandidateProfileService.findOrCreateProfile inCvtheque
  rw [zoom_bind]
  refine promises_bind.2 (promises_select fun L₁ hr₁ => ?_)
  have h₁ := h.others hr₁
  dsimp only
  cases (d₀.at L₁).cvtheque.profileOf userId with
  | some existing => exact hQ L₁ existing h₁
  | none =>
    show Keeps d₀ i (Prog.zoom Db.cvtheque Write.cvtheque (query _)) Q L₁
    rw [zoom_query]
    refine promises_query fun L₂ ws p hr₂ hf => ?_
    have hviolation : ∀ p, Cvtheque.CandidateProfileService.profileViolation p
        (d₀.at L₂).cvtheque = none → (d₀.at L₂).cvtheque.profiles.get? p.id = none := by
      intro p hp
      unfold Cvtheque.CandidateProfileService.profileViolation at hp
      split at hp
      · cases hp
      · next hfresh => exact Option.not_isSome_iff_eq_none.1 hfresh
    cases hv : Cvtheque.CandidateProfileService.profileViolation
        (Cvtheque.CandidateProfileService.newProfile uuid userId (d₀.at L₂).cvtheque.clock)
        (d₀.at L₂).cvtheque with
    | some constraint =>
      rw [hv] at hf
      cases hf
    | none =>
      rw [hv] at hf
      cases hf
      exact .inr ⟨_, rfl, ⟨hviolation _ hv, rfl⟩, hQ _ _ ((h₁.others hr₂).snoc rfl)⟩

theorem replacePrevious_keeps {candidateProfileId : Id} {Q : Log → Unit → Prop}
    (h : Unsubmitted i L) (hQ : ∀ L', Unsubmitted i L' → Q L' ()) :
    Keeps d₀ i (SchoolVerificationService.replacePrevious candidateProfileId) Q L := by
  unfold SchoolVerificationService.replacePrevious
  refine promises_bind.2 (promises_select fun L₁ hr₁ => ?_)
  have h₁ := h.others hr₁
  cases SchoolVerificationService.verificationOf candidateProfileId (d₀.at L₁) with
  | none => exact hQ L₁ h₁
  | some existing =>
    refine promises_bind.2 (promises_select fun L₂ hr₂ => ?_)
    refine promises_bind.2 (promises_write fun L₃ hr₃ => ⟨trivial, ?_⟩)
    have h₃ : Unsubmitted i (L₃ ++ [⟨i, false, [.deleteVerification existing.id]⟩]) :=
      ((h₁.others hr₂).others hr₃).snoc rfl
    cases (d₀.at L₂).cvtheque.documents.get? existing.documentId with
    | none => exact hQ _ h₃
    | some oldDocument =>
      refine promises_bind.2 (promises_write fun L₄ hr₄ => ⟨trivial, ?_⟩)
      refine promises_write fun L₅ hr₅ => ⟨trivial, hQ _ ?_⟩
      exact (((h₃.others hr₄).snoc rfl).others hr₅).snoc rfl

theorem insertDocument_keeps {d : Cvtheque.Document} {Q : Log → Cvtheque.Document → Prop}
    (h : Unsubmitted i L) (hQ : ∀ L' d', Unsubmitted i L' → Q L' d') :
    Keeps d₀ i (insertDocument d) Q L := by
  refine promises_query fun L₁ ws d' hr hf => ?_
  split at hf
  · cases hf
  · cases hf
    exact .inr ⟨_, rfl, trivial, hQ _ _ ((h.others hr).snoc rfl)⟩

theorem insertVerification_keeps {v : Time → SchoolVerification}
    {Q : Log → SchoolVerification → Prop} (h : Unsubmitted i L) (hid : ∀ now, (v now).id = i)
    (hQ : ∀ L' v, Q L' v) :
    Keeps d₀ i (SchoolVerificationService.insertVerification v) Q L := by
  refine promises_query fun L₁ ws v' hr hf => ?_
  split at hf
  · cases hf
  · next hnone =>
    cases hf
    refine .inr ⟨_, rfl, ⟨hid _, h.others hr, ?_⟩, hQ _ _⟩
    unfold SchoolVerificationService.verificationViolation at hnone
    split at hnone
    · cases hnone
    · next hfresh => exact Option.not_isSome_iff_eq_none.1 hfresh

theorem submit_keeps {userId : Id} {file : UploadedFile}
    {scan : Messaging.ConversationService.ScanResult} {ocr : OcrExtractionResult}
    {Q : Log → SchoolVerification → Prop} (h : Unsubmitted i L) (hQ : ∀ L' v, Q L' v) :
    Keeps d₀ i (SchoolVerificationService.submit env i userId file scan ocr) Q L := by
  unfold SchoolVerificationService.submit
  refine promises_bind.2 (checkUpload_keeps fun L₁ hr₁ => ?_)
  refine promises_bind.2 (findOrCreateProfile_keeps (h.others hr₁) fun L₂ p h₂ => ?_)
  refine promises_bind.2 (promises_write fun L₃ hr₃ => ⟨trivial, ?_⟩)
  refine promises_bind.2 (replacePrevious_keeps ((h₂.others hr₃).snoc rfl) fun L₄ h₄ => ?_)
  refine promises_bind.2 (insertDocument_keeps h₄ fun L₅ d h₅ => ?_)
  refine promises_bind.2 (promises_select fun L₆ hr₆ => ?_)
  refine promises_bind.2 (insertVerification_keeps (h₅.others hr₆) (fun _ => rfl)
    fun L₇ v => ?_)
  split
  · exact promises_bind.2 (promises_write fun L₈ _ => ⟨trivial, hQ _ _⟩)
  · exact hQ _ _

theorem schools_followed (env : Environment) (d₀ : Db)
    (ok : RunState → Label Error Op → Prop) :
    Followed (system env) ok d₀ (fun i _ => SchoolGuarantee d₀ i) (fun _ _ _ _ => True)
      fun _ _ _ => True where
  mono _ _ := trivial
  others _ _ := trivial
  fault _ _ _ _ := trivial
  prog i op L hstart := by
    cases op with
    | clock us => exact promises_bind.2 (promises_write fun _ _ => ⟨trivial, trivial⟩)
    | submit userId file scan ocr =>
      exact promises_bind.2 (submit_keeps (Unwritten.start hstart) fun _ _ => trivial)
    | approve id adminUserId note =>
      exact promises_bind.2 (approve_keeps fun _ _ => trivial)
    | reject id adminUserId note =>
      exact promises_bind.2 (claimPendingDecision_keeps (by decide) fun _ _ => trivial)
    | updateProfile profileId data =>
      exact promises_bind.2 ((updateProfile_savesOnly _ _).keeps fun _ _ => trivial)

end

/-! ## A submission is decided once -/

/-- The write decides the submission `id`. -/
def Write.decides (id : Id) : Write → Bool
  | .cvtheque (.decideVerification id' _ _ _ _) => id' = id
  | _ => false

section

variable {env : Environment} {d₀ : Db} {ok : RunState → Label Error Op → Prop} {s : RunState}
  {i : Nat} {L : Log} {id : Id}

/-- Where a verification comes from: it was there, it was decided, or it is a new submission. -/
theorem verification_after {db : Db} {w : Write} {v : SchoolVerification}
    (h : (store.apply db w).cvtheque.schoolVerifications.get? id = some v) :
    db.cvtheque.schoolVerifications.get? id = some v ∨
      (w.decides id = true ∧ ∃ v', db.cvtheque.schoolVerifications.get? id = some v') ∨
      (w = .insertVerification v ∧ v.id = id) := by
  cases w with
  | cvtheque w =>
    cases w with
    | decideVerification id' status reviewedBy reviewedAt reviewNote =>
      have hget : (store.apply db (.cvtheque (.decideVerification id' status reviewedBy reviewedAt
          reviewNote))).cvtheque.schoolVerifications.get? id = if id = id' then
            (db.cvtheque.schoolVerifications.get? id).map _
          else db.cvtheque.schoolVerifications.get? id :=
        Table.get?_modify (fun v : SchoolVerification => { v with
          status := status
          reviewedBy := some reviewedBy
          reviewedAt := some reviewedAt
          reviewNote := reviewNote }) fun _ => rfl
      rw [hget] at h
      split at h
      · next heq =>
        obtain ⟨v', hv', -⟩ := Option.map_eq_some_iff.1 h
        exact .inr (.inl ⟨decide_eq_true heq.symm, v', hv'⟩)
      · exact .inl h
    | _ => exact .inl h
  | insertVerification v' =>
    by_cases heq : v'.id = id
    · cases hget : db.cvtheque.schoolVerifications.get? id with
      | some v'' =>
        have hsame : (db.cvtheque.schoolVerifications.insert v').get? id = some v'' :=
          Table.get?_insert_of_some hget
        exact .inl (hsame.symm.trans h)
      | none =>
        subst heq
        have hnew : (db.cvtheque.schoolVerifications.insert v').get? v'.id = some v' :=
          Table.get?_insert_self hget
        cases hnew.symm.trans h
        exact .inr (.inr ⟨rfl, rfl⟩)
    · have hget : (db.cvtheque.schoolVerifications.insert v').get? id =
          db.cvtheque.schoolVerifications.get? id := Table.get?_insert_ne heq
      exact .inl (hget.symm.trans h)
  | deleteDocument documentId =>
    have hget : (db.cvtheque.schoolVerifications.deleteWhere (·.documentId = documentId)).get? id =
        (db.cvtheque.schoolVerifications.get? id).filter _ := Table.get?_deleteWhere _
    exact .inl (Option.filter_eq_some_iff.1 (hget.symm.trans h)).1
  | deleteVerification id' =>
    have hget : (db.cvtheque.schoolVerifications.deleteWhere (·.id = id')).get? id =
        (db.cvtheque.schoolVerifications.get? id).filter _ := Table.get?_deleteWhere _
    exact .inl (Option.filter_eq_some_iff.1 (hget.symm.trans h)).1
  | _ => exact .inl h

/-- The submission `id` was made by the call of this number. -/
theorem submitted (hnone : d₀.cvtheque.schoolVerifications = ∅)
    (h : (system env).Within ok d₀ s) : ∀ L, L <+: s.log →
      ∀ v, (d₀.at L).cvtheque.schoolVerifications.get? id = some v →
        ∃ C v', WrittenAt L C id (.insertVerification v') := by
  refine along_log (I := fun L => ∀ v, (d₀.at L).cvtheque.schoolVerifications.get? id = some v →
    ∃ C v', WrittenAt L C id (.insertVerification v')) ?_ ?_
  · intro v hv
    have hempty : (d₀.at []).cvtheque.schoolVerifications = ∅ := hnone
    rw [hempty] at hv
    cases hv
  · intro L g hl ih v hv
    obtain ⟨op, w, t, hg, -, ht⟩ := (schools_followed env d₀ ok).published h hl
    rw [hg, at_snoc] at hv
    have before : ∀ v', (d₀.at L).cvtheque.schoolVerifications.get? id = some v' →
        ∃ C v', WrittenAt (L ++ [g]) C id (.insertVerification v') := by
      intro v' hv'
      obtain ⟨C, v'', hC⟩ := ih v' hv'
      exact ⟨C, v'', hC.mono (List.prefix_append _ _)⟩
    rcases verification_after hv with hv | ⟨-, v', hv'⟩ | ⟨rfl, rfl⟩
    · exact before v hv
    · exact before v' hv'
    · rw [hg, ht.promised.1]
      exact ⟨L, v, writtenAt_self _ _ _⟩

/-- A submission that is not pending stays so, unless the call of its number submits again. -/
theorem decided_kept (h : (system env).Within ok d₀ s) {A C : Log} {v : SchoolVerification}
    (hC : WrittenAt A C id (.insertVerification v))
    (hA : ∀ v, (d₀.at A).cvtheque.schoolVerifications.get? id = some v → v.status ≠ .pending) :
    ∀ L, A <+: L → L <+: s.log →
      ∀ v, (d₀.at L).cvtheque.schoolVerifications.get? id = some v → v.status ≠ .pending := by
  refine along_log_from (I := fun L => ∀ v,
    (d₀.at L).cvtheque.schoolVerifications.get? id = some v → v.status ≠ .pending) hA ?_
  intro L g hAL hl ih v' hv'
  obtain ⟨op, w, t, hg, -, ht⟩ := (schools_followed env d₀ ok).published h hl
  rw [hg, at_snoc] at hv'
  rcases verification_after hv' with hv | ⟨hdecides, v'', hv''⟩ | ⟨rfl, rfl⟩
  · exact ih v' hv
  · -- a decision is about a pending one
    cases w with
    | cvtheque w =>
      cases w with
      | decideVerification id' status reviewedBy reviewedAt reviewNote =>
        obtain ⟨-, v₁, hv₁, hpending⟩ := ht.promised
        have heq : id' = id := of_decide_eq_true hdecides
        rw [heq] at hv₁
        exact absurd hpending (ih v₁ hv₁)
      | _ => cases hdecides
    | _ => cases hdecides
  · obtain ⟨hid, hfirst, -⟩ := ht.promised
    have hmine : WrittenAt L C g.call (.insertVerification v) := hid ▸ hC.mono hAL
    cases hfirst _ _ hmine

/-- What a decision is about. -/
theorem decides_pending (h : (system env).Within ok d₀ s) {A : Log} {w : Write}
    (hw : WrittenAt s.log A i w) (hdecides : w.decides id = true) :
    (∃ v, (d₀.at A).cvtheque.schoolVerifications.get? id = some v ∧ v.status = .pending) ∧
      ∀ v, (d₀.at (A ++ [⟨i, false, [w]⟩])).cvtheque.schoolVerifications.get? id = some v →
        v.status ≠ .pending := by
  obtain ⟨op, w', t, hg, -, ht⟩ := (schools_followed env d₀ ok).published h hw
  cases hg
  cases w with
  | cvtheque w =>
    cases w with
    | decideVerification id' status reviewedBy reviewedAt reviewNote =>
      obtain ⟨hstatus, hpending⟩ := ht.promised
      have heq : id' = id := of_decide_eq_true hdecides
      subst heq
      refine ⟨hpending, fun v hv => ?_⟩
      rw [at_snoc] at hv
      have hget : (store.apply (d₀.at A) (.cvtheque (.decideVerification id' status reviewedBy
          reviewedAt reviewNote))).cvtheque.schoolVerifications.get? id' = if id' = id' then
            ((d₀.at A).cvtheque.schoolVerifications.get? id').map _
          else (d₀.at A).cvtheque.schoolVerifications.get? id' :=
        Table.get?_modify (fun v : SchoolVerification => { v with
          status := status
          reviewedBy := some reviewedBy
          reviewedAt := some reviewedAt
          reviewNote := reviewNote }) fun _ => rfl
      rw [hget, if_pos rfl] at hv
      obtain ⟨v', -, rfl⟩ := Option.map_eq_some_iff.1 hv
      exact hstatus
    | _ => cases hdecides
  | _ => cases hdecides

/-- Each submission is decided once: approved at once, or approved or rejected later. -/
structure DecidedOnce (s : RunState) : Prop where
  once : ∀ {id : Id} {A B : Log} {i j : Nat} {w w' : Write}, WrittenAt s.log A i w →
    WrittenAt s.log B j w' → w.decides id = true → w'.decides id = true → A = B ∧ i = j ∧ w = w'
  atOnce : ∀ {A B : Log} {i j : Nat} {v : SchoolVerification} {w : Write},
    WrittenAt s.log A i (.insertVerification v) → v.status ≠ .pending → WrittenAt s.log B j w →
      w.decides v.id = false

theorem decided_once (hnone : d₀.cvtheque.schoolVerifications = ∅)
    (h : (system env).Within ok d₀ s) : DecidedOnce s := by
  -- a submission that has been made, and is not pending, is not decided later
  have final : ∀ {id : Id} {A B C : Log} {j : Nat} {v : SchoolVerification} {w : Write},
      WrittenAt A C id (.insertVerification v) →
      (∀ v, (d₀.at A).cvtheque.schoolVerifications.get? id = some v → v.status ≠ .pending) →
      A <+: B → WrittenAt s.log B j w → w.decides id = true → False := by
    intro id A B C j v w hC hA hAB hB hdecides
    obtain ⟨⟨v', hv', hpending⟩, -⟩ := decides_pending h hB hdecides
    exact decided_kept h hC hA B hAB hB.onto v' hv' hpending
  constructor
  · intro id A B i j w w' hA hB hw hw'
    have once : ∀ {A B : Log} {i j : Nat} {w w' : Write}, WrittenAt s.log A i w →
        WrittenAt s.log B j w' → w.decides id = true → w'.decides id = true →
        WrittenAt B A i w → False := by
      intro A B i j w w' hA hB hw hw' hAB
      obtain ⟨⟨v, hv, -⟩, hafter⟩ := decides_pending h hA hw
      obtain ⟨C, v', hC⟩ := submitted hnone h A hA.onto v hv
      exact final (hC.mono (List.prefix_append _ _)) hafter hAB hB hw'
    rcases hA.cases hB with hsame | hAB | hBA
    · exact hsame
    · exact (once hA hB hw hw' hAB).elim
    · exact (once hB hA hw' hw hBA).elim
  · intro A B i j v w hA hstatus hB
    by_contra hdecides
    have hdecides : w.decides v.id = true := by simpa using hdecides
    obtain ⟨op, w', t, hg, -, ht⟩ := (schools_followed env d₀ ok).published h hA
    cases hg
    obtain ⟨hid, hfirst, hfresh⟩ := ht.promised
    rcases hA.cases hB with ⟨-, -, rfl⟩ | hAB | hBA
    · cases hdecides
    · refine final (C := A) (v := v) (by rw [hid]; exact writtenAt_self _ _ _) ?_ hAB hB hdecides
      intro v' hv'
      rw [at_snoc] at hv'
      have hnew : ((d₀.at A).cvtheque.schoolVerifications.insert v).get? v.id = some v :=
        Table.get?_insert_self hfresh
      cases hnew.symm.trans hv'
      exact hstatus
    · obtain ⟨⟨v', hv', -⟩, -⟩ := decides_pending h hB hdecides
      obtain ⟨C, v'', hC⟩ := submitted hnone h B hB.onto v' hv'
      rw [hid] at hC
      cases hfirst _ _ (hC.mono hBA.onto)

end

/-! ## What a badge rests on -/

/-- The verified submission of a profile that shows the school. -/
def Backs (v : SchoolVerification) (profileId : Id) (school : Option String) : Prop :=
  v.candidateProfileId = profileId ∧ v.status = .verified ∧
    ∀ name, v.matchedSchool = some name → school = some name

/-- Each profile with the badge has a verified submission, for the school that it shows. -/
def BadgesBacked (db : Db) : Prop :=
  ∀ profileId p, db.cvtheque.profiles.get? profileId = some p → p.schoolVerified = true →
    ∃ v ∈ db.cvtheque.schoolVerifications.rows, Backs v profileId p.school

def showsBadge (db : Db) (profileId : Id) : Bool :=
  (db.cvtheque.profiles.get? profileId).any (·.schoolVerified)

/-- The profile has a verified submission of a school that is not in the reference list. -/
def unreferenced (db : Db) (profileId : Id) : Bool :=
  db.cvtheque.schoolVerifications.rows.any fun v =>
    v.candidateProfileId = profileId && v.status = .verified && v.matchedSchool = none

/-- The profile keeps its badge with the school that it shows, or has none after the save. -/
def keepsSchool (db : Db) (profileId : Id) (row row' : Cvtheque.CandidateProfile) : Bool :=
  !row'.schoolVerified ||
    (row.schoolVerified && (row'.school = row.school || unreferenced db profileId))

def badgeWrite (db : Db) : Write → Bool
  | .deleteVerification id => db.cvtheque.schoolVerifications.rows.all fun v =>
    v.id ≠ id || !showsBadge db v.candidateProfileId
  | .deleteDocument id => db.cvtheque.schoolVerifications.rows.all fun v =>
    v.documentId ≠ id || !showsBadge db v.candidateProfileId
  | .cvtheque (.approveSchool profileId school) =>
    db.cvtheque.schoolVerifications.rows.any fun v =>
      v.candidateProfileId = profileId && v.status = .verified && v.matchedSchool = school
  | .cvtheque (.saveProfile writer _ entity reread) =>
    (db.cvtheque.profiles.get? entity.id).all fun row => keepsSchool db entity.id row
      (Cvtheque.CandidateProfile.saved db.cvtheque.clock writer entity reread row)
  | _ => true

/-- No submission of a badge is removed, a badge is given for a submission that stands, and a
profile that keeps the badge keeps the school. -/
def keepsBadges (s : RunState) : Label Error Op → Bool
  | .step i => (s.issues i).all (badgeWrite s.db)
  | _ => true

section

variable {env : Environment} {d₀ : Db} {s : RunState} {i : Nat} {L : Log}

/-- Deleted submissions are not those of badges. -/
theorem BadgesBacked.delete {db db' : Db} {gone : SchoolVerification → Bool} (h : BadgesBacked db)
    (hprofiles : db'.cvtheque.profiles = db.cvtheque.profiles)
    (hrows : db'.cvtheque.schoolVerifications = db.cvtheque.schoolVerifications.deleteWhere gone)
    (hgone : ∀ v ∈ db.cvtheque.schoolVerifications.rows, gone v = true →
      showsBadge db v.candidateProfileId = false) : BadgesBacked db' := by
  intro profileId p hp hbadge
  rw [hprofiles] at hp
  obtain ⟨v, hv, hbacks⟩ := h profileId p hp hbadge
  refine ⟨v, ?_, hbacks⟩
  rw [hrows]
  refine List.mem_filter.2 ⟨hv, ?_⟩
  by_contra hne
  have hhidden := hgone v hv (by simpa using hne)
  rw [hbacks.1, showsBadge, hp, Option.any_some, hbadge] at hhidden
  cases hhidden

/-- One write keeps the badges backed. -/
theorem BadgesBacked.apply {db : Db} {w : Write} (h : BadgesBacked db)
    (hw : SchoolGuarantee d₀ i L w) (hdb : d₀.at L = db) (hok : badgeWrite db w = true) :
    BadgesBacked (store.apply db w) := by
  subst hdb
  cases w with
  | cvtheque w =>
    cases w with
    | insertProfile p =>
      obtain ⟨hfresh, hplain⟩ := hw
      intro profileId p' hp' hbadge
      have hget : ((d₀.at L).cvtheque.profiles.insert p).get? profileId =
          if p.id = profileId then some p else (d₀.at L).cvtheque.profiles.get? profileId :=
        Table.get?_insert hfresh
      replace hp' := hget.symm.trans hp'
      split at hp'
      · cases hp'
        rw [hplain] at hbadge
        cases hbadge
      · exact h profileId p' hp' hbadge
    | saveProfile writer loaded entity reread =>
      intro profileId p' hp' hbadge
      have hget : (store.apply (d₀.at L) (.cvtheque (.saveProfile writer loaded entity
          reread))).cvtheque.profiles.get? profileId = if profileId = entity.id then
            ((d₀.at L).cvtheque.profiles.get? profileId).map
              (Cvtheque.CandidateProfile.saved (d₀.at L).cvtheque.clock writer entity reread)
          else (d₀.at L).cvtheque.profiles.get? profileId :=
        Table.get?_modify _ (Cvtheque.CandidateProfile.saved_id _ writer entity reread)
      replace hp' := hget.symm.trans hp'
      split at hp'
      · next heq =>
        subst heq
        obtain ⟨row, hrow, rfl⟩ := Option.map_eq_some_iff.1 hp'
        simp only [badgeWrite, hrow, Option.all_some, keepsSchool, hbadge, Bool.not_true,
          Bool.false_or, Bool.and_eq_true, Bool.or_eq_true, decide_eq_true_eq] at hok
        obtain ⟨hrowBadge, hschool⟩ := hok
        rcases hschool with hschool | hnone
        · obtain ⟨v, hv, hprofile, hstatus, hmatch⟩ := h _ row hrow hrowBadge
          exact ⟨v, hv, hprofile, hstatus, fun name hname => hschool.trans (hmatch name hname)⟩
        · obtain ⟨v, hv, hnone⟩ := List.any_eq_true.1 hnone
          simp only [Bool.and_eq_true, decide_eq_true_eq] at hnone
          obtain ⟨⟨hprofile, hstatus⟩, hnone⟩ := hnone
          exact ⟨v, hv, hprofile, hstatus, fun name hname => by rw [hnone] at hname; cases hname⟩
      · exact h profileId p' hp' hbadge
    | approveSchool profileId school =>
      intro profileId' p' hp' hbadge
      have hget : (store.apply (d₀.at L) (.cvtheque (.approveSchool profileId
          school))).cvtheque.profiles.get? profileId' = if profileId' = profileId then
            ((d₀.at L).cvtheque.profiles.get? profileId').map
              (Cvtheque.CandidateProfile.approved (d₀.at L).cvtheque.clock school)
          else (d₀.at L).cvtheque.profiles.get? profileId' :=
        Table.get?_modify
          (Cvtheque.CandidateProfile.approved (d₀.at L).cvtheque.clock school) fun _ => rfl
      replace hp' := hget.symm.trans hp'
      split at hp'
      · next heq =>
        subst heq
        obtain ⟨row, -, rfl⟩ := Option.map_eq_some_iff.1 hp'
        obtain ⟨v, hv, hstands⟩ := List.any_eq_true.1 hok
        simp only [Bool.and_eq_true, decide_eq_true_eq] at hstands
        obtain ⟨⟨hprofile, hstatus⟩, hmatch⟩ := hstands
        refine ⟨v, hv, hprofile, hstatus, fun name hname => ?_⟩
        rw [← hmatch, hname]
        rfl
      · exact h profileId' p' hp' hbadge
    | decideVerification id status reviewedBy reviewedAt reviewNote =>
      obtain ⟨-, v₀, hv₀, hpending⟩ := hw
      intro profileId p hp hbadge
      obtain ⟨v, hv, hbacks⟩ := h profileId p hp hbadge
      refine ⟨v, ?_, hbacks⟩
      -- the decided submission is another one
      refine List.mem_map.2 ⟨v, hv, if_neg ?_⟩
      intro heq
      have heq : v.id = id := of_decide_eq_true heq
      rw [← heq, Table.get?_of_mem hv] at hv₀
      cases hv₀
      rw [hbacks.2.1] at hpending
      cases hpending
    | _ => exact h
  | insertVerification v =>
    intro profileId p hp hbadge
    obtain ⟨v', hv', hbacks⟩ := h profileId p hp hbadge
    exact ⟨v', Table.mem_insert_of_mem hv', hbacks⟩
  | deleteDocument documentId =>
    refine BadgesBacked.delete h rfl rfl fun v hv hgone => ?_
    have := List.all_eq_true.1 hok v hv
    rw [decide_eq_true_eq] at hgone
    simpa [hgone] using this
  | deleteVerification id =>
    refine BadgesBacked.delete h rfl rfl fun v hv hgone => ?_
    have := List.all_eq_true.1 hok v hv
    rw [decide_eq_true_eq] at hgone
    simpa [hgone] using this
  | _ => exact h

/-- At the start there is no submission, and no badge. -/
structure NoSubmissions (db : Db) : Prop where
  verifications : db.cvtheque.schoolVerifications = ∅
  badges : ∀ profileId p, db.cvtheque.profiles.get? profileId = some p → p.schoolVerified = false

/-- The badges of a run, and its decisions. -/
structure SchoolsAgree (s : RunState) : Prop where
  backed : BadgesBacked s.db
  decided : DecidedOnce s

end

/-! ## A school that changes after its verification -/

theorem newProfile_nodup : ([Cvtheque.CandidateProfileService.newProfile 5 6 0].map
    fun p : Cvtheque.CandidateProfile => p.id).Nodup := List.nodup_singleton _

/-- The profile 5 of candidate 6. -/
def newCandidate : Db :=
  ⟨{ Cvtheque.Db.empty with
      profiles := ⟨[Cvtheque.CandidateProfileService.newProfile 5 6 0], newProfile_nodup⟩ }, []⟩

/-- Texts are in lower case and without accents already. -/
def plainText : Environment := ⟨id⟩

/-- A diploma of the school EMI, read well enough. -/
def emiDiploma : Op :=
  .submit 6 ⟨1, "emi.pdf", "application/pdf", 1⟩ ⟨true, none⟩ ⟨"diplome emi rabat", 9500⟩

theorem newCandidate_plain : NoSubmissions newCandidate where
  verifications := rfl
  badges profileId p hp := by
    have hmem := List.mem_singleton.1 (Table.mem_of_get? hp)
    rw [hmem]
    rfl

def badgeOf (db : Db) (profileId : Id) : Option (Bool × Option String) :=
  (db.cvtheque.profiles.get? profileId).map fun p => (p.schoolVerified, p.school)

/-- The candidate writes another school next to the badge. -/
def otherSchool : Op :=
  .updateProfile 5 ⟨⟨none, none, none, none, some "Autre", none, none, none⟩, none, none, none,
    none, none⟩

end JobBoard.Candidates
