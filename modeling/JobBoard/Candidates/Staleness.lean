import JobBoard.Candidates.Completeness

/-!
# The completeness after a verification of the school

`SchoolVerificationService.submit` and `approve` give a profile its school without a
recalculation. `completeness_fresh_iff` says after which operations the stored completeness is
what `calculateCompleteness` would compute: after every edit of the candidate, and after a
submission or an approval when it was so before with the weight of the school that they give.
`approval_stale` is an approval after which it is not.
-/

set_option autoImplicit false

namespace JobBoard.Candidates.Edits

open Txn Prog
open Assessments (CompletenessWeights)
open Cvtheque (UpdateProfileDto)
open Assessments.CandidateProfileService (completenessOf elements)

/-! ## The weight of the school -/

/-- What the school adds to the completeness of a profile that has none. -/
def gained (weights : CompletenessWeights) (p : Assessments.CandidateProfile)
    (school : Option String) : Int :=
  if school.isSome ∧ truthy p.school = none then weights.school else 0

theorem recomputed_approved {c : Cvtheque.Db} {clock : Cvtheque.Micros} {school : Option String}
    (hschool : school ≠ some "") (p : Cvtheque.CandidateProfile) :
    recomputed c (Cvtheque.CandidateProfile.approved clock school p).toCandidateProfile =
      recomputed c p.toCandidateProfile +
        gained c.settings.loadWeights p.toCandidateProfile school := by
  unfold recomputed gained
  rw [completenessOf_elements, completenessOf_elements _ p.toCandidateProfile]
  have hrest : (elements c.settings.loadWeights
      (Cvtheque.CandidateProfile.approved clock school p).toCandidateProfile
      (partsOf c (Cvtheque.CandidateProfile.approved clock school p).toCandidateProfile)).take 5 =
      (elements c.settings.loadWeights p.toCandidateProfile
        (partsOf c p.toCandidateProfile)).take 5 := rfl
  rw [hrest]
  cases school with
  | none => simp [Cvtheque.CandidateProfile.approved]
  | some s =>
    have htruthy : truthy (some s) = some s := by
      unfold truthy
      split
      · next h => exact absurd h hschool
      · rfl
    have hgiven : (Cvtheque.CandidateProfile.approved clock (some s) p).school = some s := rfl
    rw [hgiven, htruthy]
    cases truthy p.school with
    | none => simp
    | some _ => simp

/-! ## What the completeness is computed from -/

section

variable {c c' c'' : Cvtheque.Db}

/-- The tables that the completeness is computed from, but for the documents. -/
structure SameTables (c c' : Cvtheque.Db) : Prop where
  settings : c'.settings = c.settings
  experiences : c'.experiences = c.experiences
  profileSkills : c'.profileSkills = c.profileSkills
  links : c'.links = c.links

theorem SameTables.refl : SameTables c c := ⟨rfl, rfl, rfl, rfl⟩

theorem SameTables.trans (h : SameTables c c') (h' : SameTables c' c'') : SameTables c c'' :=
  ⟨h'.settings.trans h.settings, h'.experiences.trans h.experiences,
    h'.profileSkills.trans h.profileSkills, h'.links.trans h.links⟩

theorem SameTables.recomputed (h : SameTables c c') {p : Assessments.CandidateProfile}
    (hcv : (partsOf c' p).hasCv = (partsOf c p).hasCv) : recomputed c' p = recomputed c p := by
  have hparts : partsOf c' p = partsOf c p := by
    unfold partsOf at hcv ⊢
    rw [h.experiences, h.profileSkills, h.links]
    simpa using hcv
  unfold Edits.recomputed
  rw [hparts, h.settings]

/-- The profile after its school has been approved. -/
theorem approved_profile {id : Id} {clock : Cvtheque.Micros} {school : Option String}
    {p' : Cvtheque.CandidateProfile}
    (hp' : (c.profiles.modify id (Cvtheque.CandidateProfile.approved clock school)
      fun _ => rfl).get? id = some p') :
    ∃ p, c.profiles.get? id = some p ∧ p' = Cvtheque.CandidateProfile.approved clock school p := by
  have hmodified := (Table.get?_modify (Cvtheque.CandidateProfile.approved clock school)
    fun _ => rfl).symm.trans hp'
  rw [if_pos rfl] at hmodified
  obtain ⟨p, hp, rfl⟩ := Option.map_eq_some_iff.1 hmodified
  exact ⟨p, hp, rfl⟩

theorem approved_profileOf {userId id : Id} {clock : Cvtheque.Micros} {school : Option String}
    {p : Cvtheque.CandidateProfile} (hid : p.id = id) (hp : c.profileOf userId = some p) :
    (c.profiles.modify id (Cvtheque.CandidateProfile.approved clock school) fun _ => rfl).rows.find?
      (·.userId == userId) = some (Cvtheque.CandidateProfile.approved clock school p) := by
  show (c.profiles.rows.map _).find? _ = _
  rw [List.find?_map]
  have huser : ((·.userId == userId) ∘ fun r : Cvtheque.CandidateProfile =>
      if decide (r.id = id) then Cvtheque.CandidateProfile.approved clock school r else r) =
      (·.userId == userId) := by
    funext r
    simp only [Function.comp]
    split <;> rfl
  rw [huser, show c.profiles.rows.find? (·.userId == userId) = some p from hp]
  simp [hid]

/-- The school is counted after the approval when the stored completeness counted it before. -/
theorem fresh_approved (h : SameTables c c') {id : Id} {clock : Cvtheque.Micros}
    {school : Option String} {p : Cvtheque.CandidateProfile} (hschool : school ≠ some "")
    (hp : c'.profiles.get? id = some (Cvtheque.CandidateProfile.approved clock school p))
    (hcv : (partsOf c' p.toCandidateProfile).hasCv = (partsOf c p.toCandidateProfile).hasCv) :
    Fresh c' (Cvtheque.CandidateProfile.approved clock school p) ↔
      p.completeness = recomputed c p.toCandidateProfile +
        gained c.settings.loadWeights p.toCandidateProfile school := by
  rw [fresh_iff hp, recomputed_approved hschool, h.recomputed hcv, h.settings]
  exact Iff.rfl

/-! ## Approvals -/

theorem claimPendingDecision_leaves {id adminUserId : Id} {note : Option String}
    {status : Cvtheque.SchoolVerificationStatus}
    {Q : Cvtheque.Db → Cvtheque.SchoolVerification → Prop}
    (h : ∀ v, c.schoolVerifications.get? id = some v →
      let c' := Cvtheque.store.apply c (.decideVerification id status adminUserId c.now note)
      ∀ v', c'.schoolVerifications.get? id = some v' →
        v'.candidateProfileId = v.candidateProfileId → v'.matchedSchool = v.matchedSchool →
        Q c' v') :
    (Cvtheque.SchoolVerificationService.claimPendingDecision id adminUserId note status).leaves
      Cvtheque.store c (fun _ _ => True) Q := by
  unfold Cvtheque.SchoolVerificationService.claimPendingDecision Cvtheque.now
    Cvtheque.SchoolVerificationService.decide
  rw [leaves_read, leaves_bind, leaves_query]
  cases hv : c.schoolVerifications.get? id with
  | none =>
    simp only [if_true]
    rw [leaves_read]
    split <;> trivial
  | some v =>
    dsimp only
    split
    · next r hr =>
      split at hr
      · obtain rfl := Except.ok.inj hr
        simp only [Nat.one_ne_zero, if_false]
        rw [leaves_read]
        have hget := h v hv
        dsimp only at hget
        split
        · trivial
        · next v' hv' =>
          have hdecided : v' = { v with
              status := status
              reviewedBy := some adminUserId
              reviewedAt := some c.now
              reviewNote := note } := by
            have hmodified := (Table.get?_modify (t := c.schoolVerifications) (k := id)
              (fun v => { v with
                status := status
                reviewedBy := some adminUserId
                reviewedAt := some c.now
                reviewNote := note }) fun _ => rfl).symm.trans hv'
            rw [if_pos rfl, hv] at hmodified
            exact (Option.some.inj hmodified).symm
          exact hget v' hv' (by rw [hdecided]) (by rw [hdecided])
      · obtain rfl := Except.ok.inj hr
        simp only [if_true]
        rw [leaves_read]
        split <;> trivial
    · trivial

/-- The completeness of the profile counts the school that the approval gives it. -/
def ApprovalAccounted (id : Id) (c : Cvtheque.Db) : Prop :=
  ∀ v, c.schoolVerifications.get? id = some v →
    ∀ p, c.profiles.get? v.candidateProfileId = some p →
      p.completeness = recomputed c p.toCandidateProfile +
        gained c.settings.loadWeights p.toCandidateProfile (truthy v.matchedSchool)

theorem truthy_ne (s : Option String) : truthy s ≠ some "" := by
  unfold truthy
  split
  · simp
  · next h => exact h

theorem approve_leaves (id adminUserId : Id) (note : Option String) :
    (Cvtheque.SchoolVerificationService.approve id adminUserId note).leaves Cvtheque.store c
      (fun _ _ => True) fun c' _ => ∀ v', c'.schoolVerifications.get? id = some v' →
        ∀ p', c'.profiles.get? v'.candidateProfileId = some p' →
          (Fresh c' p' ↔ ApprovalAccounted id c) := by
  unfold Cvtheque.SchoolVerificationService.approve
  rw [leaves_bind]
  refine claimPendingDecision_leaves fun v hv v' hv' hid hschool => ?_
  rw [leaves_bind, leaves_write, hid, hschool]
  intro v'' hv'' p' hp'
  obtain rfl : v' = v'' := Option.some.inj (hv'.symm.trans hv'')
  rw [hid] at hp'
  have hp'' := hp'
  obtain ⟨p, hp, rfl⟩ := approved_profile (c := c) hp'
  have hsame : SameTables c (Cvtheque.store.apply
      (Cvtheque.store.apply c (.decideVerification id .verified adminUserId c.now note))
      (.approveSchool v.candidateProfileId (truthy v.matchedSchool))) := ⟨rfl, rfl, rfl, rfl⟩
  refine (fresh_approved hsame (truthy_ne _) hp'' rfl).trans ?_
  unfold ApprovalAccounted
  refine ⟨fun h w hw q hq => ?_, fun h => h v hv p hp⟩
  obtain rfl : v = w := Option.some.inj (hv.symm.trans hw)
  obtain rfl : p = q := Option.some.inj (hp.symm.trans hq)
  exact h

end

/-! ## Submissions -/

section

variable {d : Db}

/-- The profile that a submission of the user is about. -/
def profileFor (uuid userId : Id) (c : Cvtheque.Db) : Cvtheque.CandidateProfile :=
  (c.profileOf userId).getD (Cvtheque.CandidateProfileService.newProfile uuid userId c.clock)

theorem findOrCreateProfile_for (uuid userId : Id) (c : Cvtheque.Db) :
    (Cvtheque.CandidateProfileService.findOrCreateProfile uuid userId).leaves Cvtheque.store c
      (fun _ _ => True) fun c' p => c'.profileOf userId = some p ∧ p = profileFor uuid userId c ∧
        c' = { c with profiles := c'.profiles } := by
  refine findOrCreateProfile_leaves (fun p hp => ⟨hp, ?_, rfl⟩) fun hnone hviolated =>
    ⟨profileOf_created hnone hviolated, ?_, rfl⟩
  · rw [profileFor, hp]
    rfl
  · rw [profileFor, hnone]
    rfl

/-- The tables without the document of the previous submission. -/
def replaced (profileId : Id) (d : Db) : Cvtheque.Db :=
  match SchoolVerificationService.verificationOf profileId d with
  | none => d.cvtheque
  | some v => { d.cvtheque with documents := d.cvtheque.documents.delete v.documentId }

theorem replaced_tables (profileId : Id) (d : Db) :
    SameTables (replaced profileId d) d.cvtheque := by
  unfold replaced
  split <;> exact ⟨rfl, rfl, rfl, rfl⟩

theorem replaced_documents {d d' : Db} (profileId : Id)
    (hverifications : d'.cvtheque.schoolVerifications = d.cvtheque.schoolVerifications)
    (hdocuments : d'.cvtheque.documents = d.cvtheque.documents) :
    (replaced profileId d').documents = (replaced profileId d).documents := by
  unfold replaced SchoolVerificationService.verificationOf
  rw [hverifications]
  split
  · exact hdocuments
  · rw [hdocuments]

theorem replacePrevious_leaves (profileId : Id) :
    (SchoolVerificationService.replacePrevious profileId).leaves Candidates.store d
      (fun _ _ => True) fun d' _ => SameTables d.cvtheque d'.cvtheque ∧
        d'.cvtheque.profiles = d.cvtheque.profiles ∧
        d'.cvtheque.documents.rows = (replaced profileId d).documents.rows := by
  unfold SchoolVerificationService.replacePrevious replaced
  rw [leaves_read]
  cases hv : SchoolVerificationService.verificationOf profileId d with
  | none => exact ⟨.refl, rfl, rfl⟩
  | some v =>
    dsimp only
    rw [leaves_read, leaves_bind, leaves_write]
    cases hold : d.cvtheque.documents.get? v.documentId with
    | none => exact ⟨⟨rfl, rfl, rfl, rfl⟩, rfl, (Table.delete_of_none hold).symm⟩
    | some old =>
      dsimp only
      rw [leaves_bind, leaves_write, leaves_write, Table.key_of_get? hold]
      exact ⟨⟨rfl, rfl, rfl, rfl⟩, rfl, rfl⟩

theorem checkUpload_leaves {rule : UploadRule} {file : UploadedFile}
    {scan : Messaging.ConversationService.ScanResult} {Q : Db → Unit → Prop} (h : Q d ()) :
    (checkUpload rule file scan).leaves Candidates.store d (fun _ _ => True) Q := by
  unfold checkUpload
  split
  · trivial
  · rw [leaves_read]
    split
    · trivial
    · rw [leaves_read]
      split
      · trivial
      · split
        · trivial
        · exact h

/-- The diploma is no CV. -/
theorem hasCv_insert {c : Cvtheque.Db} {doc : Cvtheque.Document} (hdoc : doc.type = .diploma)
    (hfree : c.documents.get? doc.id = none) (p : Assessments.CandidateProfile) :
    (c.documents.insert doc).rows.any (fun d =>
      d.ownerId = p.userId && d.type = .cv && d.scanStatus = .clean) = (partsOf c p).hasCv := by
  rw [Table.insert_rows hfree, List.any_append]
  simp [partsOf, hdoc]

/-- The school that a submission is approved with at once. -/
def autoApproved (env : Environment) (settings : Assessments.Settings) (ocr : OcrExtractionResult) :
    Option String :=
  (matchGrandeEcole env ocr.text).filter fun _ =>
    (settings.getNumber "school_verification_auto_approve_min_confidence").getD
      SchoolVerificationService.DEFAULT_AUTO_APPROVE_MIN_CONFIDENCE * 100 ≤ ocr.confidence

theorem matchGrandeEcole_ne (env : Environment) (text : String) :
    matchGrandeEcole env text ≠ some "" := by
  have hnames : ∀ school ∈ GRANDES_ECOLES, school.name ≠ "" := by
    decide +kernel
  unfold matchGrandeEcole
  dsimp only
  split
  · simp
  · intro h
    obtain ⟨school, hfound, hname⟩ := Option.map_eq_some_iff.1 h
    exact hnames school (List.mem_of_find?_eq_some hfound) hname

/-- The completeness of the profile counts the school that the submission gives it. -/
def SubmissionAccounted (env : Environment) (uuid userId : Id) (ocr : OcrExtractionResult)
    (d : Db) : Prop :=
  let p := profileFor uuid userId d.cvtheque
  p.completeness = recomputed (replaced p.id d) p.toCandidateProfile +
    gained d.cvtheque.settings.loadWeights p.toCandidateProfile
      (autoApproved env d.cvtheque.settings ocr)

theorem insertDocument_leaves (doc : Cvtheque.Document) :
    (insertDocument doc).leaves Candidates.store d (fun _ _ => True) fun d' saved =>
      saved = doc ∧ d.cvtheque.documents.get? doc.id = none ∧
        d' = Candidates.store.apply d (.insertDocument doc) := by
  unfold insertDocument documentViolation
  rw [leaves_query]
  cases hget : d.cvtheque.documents.get? doc.id with
  | none => exact ⟨rfl, rfl, rfl⟩
  | some _ => trivial

theorem insertVerification_leaves (v : Time → Cvtheque.SchoolVerification) :
    (SchoolVerificationService.insertVerification v).leaves Candidates.store d (fun _ _ => True)
      fun d' saved => saved = v d.cvtheque.now ∧
        d' = Candidates.store.apply d (.insertVerification (v d.cvtheque.now)) := by
  unfold SchoolVerificationService.insertVerification
  rw [leaves_query]
  cases SchoolVerificationService.verificationViolation (v d.cvtheque.now) d with
  | none => exact ⟨rfl, rfl⟩
  | some _ => trivial

theorem submit_leaves (env : Environment) (uuid userId : Id) (file : UploadedFile)
    (scan : Messaging.ConversationService.ScanResult) (ocr : OcrExtractionResult) :
    (SchoolVerificationService.submit env uuid userId file scan ocr).leaves Candidates.store d
      (fun _ _ => True) fun d' _ => ∀ p', d'.cvtheque.profileOf userId = some p' →
        (Fresh d'.cvtheque p' ↔ SubmissionAccounted env uuid userId ocr d) := by
  unfold SchoolVerificationService.submit Candidates.inCvtheque
  rw [leaves_bind]
  refine checkUpload_leaves ?_
  rw [leaves_bind, cvtheque_part.leaves_zoom]
  refine leaves_mono (findOrCreateProfile_for uuid userId d.cvtheque) (fun _ _ h => h) ?_
  rintro c p ⟨hp, hfor, hrest⟩
  rw [leaves_bind, leaves_write, leaves_bind]
  refine leaves_mono (replacePrevious_leaves p.id) (fun _ _ h => h) ?_
  rintro d₁ - ⟨htables₁, hprofiles₁, hdocuments₁⟩
  rw [leaves_bind]
  refine leaves_mono (insertDocument_leaves _) (fun _ _ h => h) ?_
  rintro d₂ doc ⟨hdoc, hfree, hd₂⟩
  rw [leaves_read, leaves_bind]
  refine leaves_mono (insertVerification_leaves _) (fun _ _ h => h) ?_
  rintro d₃ verification ⟨hverification, hd₃⟩
  have htables : SameTables (replaced p.id d) d₃.cvtheque := by
    have hfound : SameTables d.cvtheque c := by
      rw [hrest]
      exact ⟨rfl, rfl, rfl, rfl⟩
    refine (replaced_tables p.id d).trans (hfound.trans (htables₁.trans ?_))
    rw [hd₃, hd₂]
    exact ⟨rfl, rfl, rfl, rfl⟩
  have hcv : (partsOf d₃.cvtheque p.toCandidateProfile).hasCv =
      (partsOf (replaced p.id d) p.toCandidateProfile).hasCv := by
    rw [hd₃, hd₂]
    refine (hasCv_insert rfl hfree p.toCandidateProfile).trans ?_
    have hsame := hdocuments₁.trans (congrArg (·.rows) (replaced_documents (d := d) p.id
      (by rw [hrest]; rfl) (by rw [hrest]; rfl)))
    unfold partsOf
    dsimp only
    rw [hsame]
  have hprofiles : d₃.cvtheque.profiles = c.profiles := by
    rw [hd₃, hd₂]
    exact hprofiles₁
  have hget : d₃.cvtheque.profileOf userId = some p := (profileOf_same hprofiles userId).trans hp
  have hsettings : d₂.cvtheque.settings = d.cvtheque.settings := by
    rw [← (replaced_tables p.id d).settings.symm, ← htables.settings, hd₃]
    rfl
  unfold SubmissionAccounted
  rw [← hfor]
  have hstatus : verification.status =
      if (autoApproved env d.cvtheque.settings ocr).isSome then .verified else .pending := by
    rw [hverification, autoApproved, ← hsettings]
    rfl
  rw [hstatus]
  cases hauto : autoApproved env d.cvtheque.settings ocr with
  | none =>
    simp only [Option.isSome_none, Bool.false_eq_true, reduceCtorEq, if_false]
    intro p' hp'
    obtain rfl : p = p' := Option.some.inj (hget.symm.trans hp')
    refine (fresh_iff (profileOf_get hget).1).trans ?_
    rw [htables.recomputed hcv]
    simp [gained]
  | some school =>
    have hschool : matchGrandeEcole env ocr.text = some school :=
      (Option.filter_eq_some_iff.1 hauto).1
    have hgiven : some school ≠ some "" := hschool ▸ matchGrandeEcole_ne env ocr.text
    simp only [Option.isSome_some, if_true]
    rw [leaves_bind, leaves_write, hschool]
    intro p' hp'
    obtain rfl := Option.some.inj ((approved_profileOf rfl hget).symm.trans hp')
    have hafter : SameTables (replaced p.id d) (Cvtheque.store.apply d₃.cvtheque
        (.approveSchool p.id (some school))) := htables.trans ⟨rfl, rfl, rfl, rfl⟩
    refine (fresh_approved hafter hgiven (profileOf_get hp').1 hcv).trans ?_
    rw [← (replaced_tables p.id d).settings]

end

/-! ## Every operation -/

/-- The profile that the operation changes, in the tables after it. -/
def Op.subject (c : Cvtheque.Db) : Op → Option Cvtheque.CandidateProfile
  | .updateProfile profileId _ => c.profiles.get? profileId
  | .approve id _ _ =>
    (c.schoolVerifications.get? id).bind fun v => c.profiles.get? v.candidateProfileId
  | .updateMyProfile userId _ | .addSkill userId _ | .removeSkill userId _
  | .createExperience userId _ | .updateExperience userId _ _ | .removeExperience userId _
  | .createLink userId _ | .removeLink userId _ | .uploadCV userId _ _ | .deleteCV userId
  | .submit userId _ _ _ => c.profileOf userId

/-- The completeness before the operation counts the school that the operation gives. An edit
of the candidate asks for nothing. -/
def Op.Accounted (env : Environment) (uuid : Id) (d : Db) : Op → Prop
  | .submit userId _ _ ocr => SubmissionAccounted env uuid userId ocr d
  | .approve id _ _ => ApprovalAccounted id d.cvtheque
  | _ => True

section

variable {α : Type} {d : Db}

/-- What the body leaves, the operation does. -/
theorem leaves_result {body : M α} {result : α → Result} {Q : Db → Prop}
    (h : body.leaves store d (fun _ _ => True) fun d' _ => Q d') :
    (body >>= fun a => ret (result a)).leaves store d (fun _ _ => True) fun d' _ => Q d' :=
  leaves_bind.2 (leaves_mono h (fun _ _ h => h) fun _ _ h => h)

/-- A recalculation at the end is enough. -/
theorem leaves_edit {body : M α} {userId : Id}
    (h : body.leaves store d (fun _ _ => True) fun d' _ => FreshOf userId d'.cvtheque) :
    body.leaves store d (fun _ _ => True) fun d' _ => ∀ p, d'.cvtheque.profileOf userId = some p →
      (Fresh d'.cvtheque p ↔ True) :=
  leaves_mono h (fun _ _ h => h) fun _ _ h p hp => iff_true_intro (h p hp)

theorem program_leaves (env : Environment) (uuid : Id) (op : Op) :
    (program env uuid op).leaves store d (fun _ _ => True) fun d' _ =>
      ∀ p, op.subject d'.cvtheque = some p → (Fresh d'.cvtheque p ↔ op.Accounted env uuid d) := by
  cases op with
  | updateMyProfile userId dto =>
    exact leaves_result (leaves_edit (updateMyProfile_leaves uuid userId dto))
  | updateProfile profileId data =>
    refine leaves_result (leaves_inCvtheque.2 ?_)
    refine leaves_mono (updateProfile_leaves profileId data) (fun _ _ h => h) fun c _ h p hp => ?_
    exact iff_true_intro (h.2.2 p hp)
  | addSkill userId dto =>
    exact leaves_result (leaves_edit (leaves_inCvtheque.2 (addSkill_leaves uuid userId dto)))
  | removeSkill userId profileSkillId =>
    exact leaves_result
      (leaves_edit (leaves_inCvtheque.2 (removeSkill_leaves uuid userId profileSkillId)))
  | createExperience userId dto =>
    exact leaves_result (leaves_edit (createExperience_leaves uuid userId dto))
  | updateExperience userId experienceId dto =>
    exact leaves_result (leaves_edit (updateExperience_leaves uuid userId experienceId dto))
  | removeExperience userId experienceId =>
    exact leaves_result (leaves_edit (removeExperience_leaves uuid userId experienceId))
  | createLink userId dto => exact leaves_result (leaves_edit (createLink_leaves uuid userId dto))
  | removeLink userId linkId =>
    exact leaves_result (leaves_edit (removeLink_leaves uuid userId linkId))
  | uploadCV userId file scan =>
    exact leaves_result (leaves_edit (uploadCV_leaves uuid userId file scan))
  | deleteCV userId => exact leaves_result (leaves_edit (deleteCV_leaves userId))
  | submit userId file scan ocr =>
    exact leaves_result (leaves_inSchools.2 (submit_leaves env uuid userId file scan ocr))
  | approve id adminUserId note =>
    refine leaves_result (leaves_inCvtheque.2 ?_)
    refine leaves_mono (approve_leaves id adminUserId note) (fun _ _ h => h) fun c _ h p hp => ?_
    obtain ⟨v, hv, hget⟩ := Option.bind_eq_some_iff.1 hp
    exact h v hv p hget

end

/-- A profile without a school, and its submission that waits for an administrator. -/
def submitted : Db where
  cvtheque := { Cvtheque.Db.empty with
    profiles := Table.insert ∅ (Cvtheque.CandidateProfileService.newProfile 1 1 0)
    schoolVerifications := Table.insert ∅
      { id := 3
        candidateProfileId := 1
        documentId := 2
        status := .pending
        matchedSchool := some "EMI"
        reviewedBy := none
        reviewedAt := none
        reviewNote := none } }
  objects := []

/-- The candidate writes a headline. -/
def headline : UpdateProfileDto :=
  ⟨⟨none, none, some "x", none, none, none, none, none⟩, none, none, none, none, none⟩

end JobBoard.Candidates.Edits
