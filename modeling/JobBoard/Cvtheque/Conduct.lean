import JobBoard.Cvtheque.System

/-!
# What the calls publish

`Guarantee` says of each statement that a call publishes what it is about: of a saved
profile which columns of it the method has assigned, of the statements of a sweep what the
sweep has seen at earlier moments of the log. `kept` is the result: in every run each group
of the log is a single statement and is as guaranteed.
-/

set_option autoImplicit false

namespace JobBoard.Cvtheque

open Txn Prog Assessments

abbrev Log := List (Txn.Group Write)

/-- The committed database at a moment of the run. -/
abbrev Db.at (d₀ : Db) (L : Log) : Db := replay store d₀ L

/-- Call `i` has published the statement `w` at the moment `A` of the log `L`. -/
def PublishedAt (L A : Log) (i : Nat) (w : Write) : Prop := ∃ B, L = A ++ ⟨i, false, [w]⟩ :: B

theorem PublishedAt.mono {L L' A : Log} {i : Nat} {w : Write} (h : PublishedAt L A i w)
    (hl : L <+: L') : PublishedAt L' A i w := by
  obtain ⟨B, rfl⟩ := h
  obtain ⟨C, rfl⟩ := hl
  exact ⟨B ++ C, by rw [List.append_assoc, List.cons_append]⟩

/-! ## Profiles -/

/-- The moderation status that the method assigns. -/
def ProfileWriter.moderationStatus : ProfileWriter → Option ProfileModerationStatus
  | setModeration status => some status
  | _ => none

/-- The visibility that the method assigns. -/
def ProfileWriter.visibility : ProfileWriter → Option ProfileVisibility
  | updateProfile visibility => visibility
  | setModeration .suspended => some .hidden
  | _ => none

/-- The operation may save the profile `id` by the method. -/
def Op.savesBy (op : Op) (id : Id) : ProfileWriter → Prop
  | .updateProfile visibility => ∃ data, op = .updateProfile id data ∧
      visibility = data.visibility
  | .setModeration status => ∃ moderatorUserId, op = .setModeration id status moderatorUserId
  | .calculateCompleteness | .applyThresholds => True

/-- Besides the columns that the method assigns, the entity has the values that it was
loaded with. -/
structure SavedBy (op : Op) (writer : ProfileWriter) (loaded entity : CandidateProfile) :
    Prop where
  saves : op.savesBy entity.id writer
  moderationStatus :
    entity.moderationStatus = writer.moderationStatus.getD loaded.moderationStatus
  visibility : entity.visibility = writer.visibility.getD loaded.visibility
  schoolVerified : entity.schoolVerified = loaded.schoolVerified

/-! ## Sweeps -/

section

variable (env : Environment) (d₀ : Db) (i : Nat)

/-- At `L` sweep `i`, which has loaded the search and started at `sweepStart`, counts the
profiles `ids`. -/
structure Counting (L : Log) (search : SavedSearch) (sweepStart : Time) (ids : List Id) :
    Prop where
  loaded : ∃ A ss, PublishedAt L A i (.trace (.loaded ss)) ∧
    search ∈ SavedSearchAlertService.enabledSearches (d₀.at A)
  started : ∃ B, PublishedAt L B i (.trace (.started search.id sweepStart))
  counted : SearchService.newMatches env search.criteria.toFilters search.lastNotifiedAt
    (d₀.at L) = .ok ids

/-- Before `L` sweep `i` has counted the profiles `ids`, some, and at `L` the anchor of the
search is the one that it was loaded with. -/
def Claiming (L : Log) (searchId : Id) (sweepStart : Time) (ids : List Id) : Prop :=
  ∃ search C row, search.id = searchId ∧ PublishedAt L C i (.trace (.counted searchId ids)) ∧
    Counting env d₀ i C search sweepStart ids ∧ ids ≠ [] ∧
    (d₀.at L).savedSearches.get? searchId = some row ∧
    row.lastNotifiedAt = search.lastNotifiedAt

/-- The last statement of sweep `i` before `L` is the advance of the search. -/
def Notifying (L : Log) (n : Notification) (searchId : Id) (ids : List Id) : Prop :=
  ∃ search A B sweepStart, search.id = searchId ∧
    L = A ++ ⟨i, false, [.claimAdvance searchId sweepStart ids]⟩ :: B ∧
    (∀ g ∈ B, g.call ≠ i) ∧ Claiming env d₀ i A searchId sweepStart ids ∧
    (∃ C, search ∈ SavedSearchAlertService.enabledSearches (d₀.at C)) ∧
    n = SavedSearchAlertService.alertOf search ids.length

def Guarantee (op : Op) (L : Log) : Write → Prop
  | .saveProfile writer loaded entity _ => SavedBy op writer loaded entity
  | .approveSchool _ _ => ∃ id adminUserId note, op = .approve id adminUserId note
  | .claimAdvance searchId next ids => Claiming env d₀ i L searchId next ids
  | .insertNotification n searchId ids => Notifying env d₀ i L n searchId ids
  | .trace (.loaded ss) => ss = SavedSearchAlertService.enabledSearches (d₀.at L)
  | .trace (.started _ sweepStart) => sweepStart = (d₀.at L).now
  | .trace (.counted searchId ids) => ∃ search sweepStart, search.id = searchId ∧
      Counting env d₀ i L search sweepStart ids
  | .base _ => False
  | _ => True

/-- The groups of other calls. -/
def Others (L L' : Log) : Prop := ∃ gs, L' = L ++ gs ∧ ∀ g ∈ gs, g.call ≠ i

def conduct : Conduct Write Error Result Op where
  rely i _ := Others i
  inv _ := True
  guar i op L ws := ∃ w, ws = [w] ∧ Guarantee env d₀ i op L w
  fails _ _ _ := True
  post _ _ _ _ := True
  err _ _ _ _ := True

end

theorem Others.refl (i : Nat) (L : Log) : Others i L L := ⟨[], by simp, by simp⟩

theorem Others.trans {i : Nat} {L L' L'' : Log} (h : Others i L L') (h' : Others i L' L'') :
    Others i L L'' := by
  obtain ⟨gs, rfl, hgs⟩ := h
  obtain ⟨gs', rfl, hgs'⟩ := h'
  refine ⟨gs ++ gs', by rw [List.append_assoc], fun g hg => ?_⟩
  exact (List.mem_append.1 hg).elim (hgs g) (hgs' g)

theorem Others.onto {i : Nat} {L L' : Log} (h : Others i L L') : L <+: L' := by
  obtain ⟨gs, rfl, -⟩ := h
  exact List.prefix_append _ _

/-! ## Edits -/

/-- A statement of the operation that is not one of a sweep. -/
def Edits (op : Op) (ws : List Write) : Prop :=
  ws = [] ∨ ∃ w, ws = [w] ∧ ∀ env d₀ i L, Guarantee env d₀ i op L w

section

variable {op : Op} {Er : Error → Prop}

theorem edits_nil : Edits op [] := .inl rfl

theorem edits_of {w : Write} (h : ∀ env d₀ i L, Guarantee env d₀ i op L w) : Edits op [w] :=
  .inr ⟨w, rfl, h⟩

/-- No error is promised. -/
abbrev EditsOnly {α : Type} (op : Op) (p : M α) : Prop :=
  p.Plain (Edits op) (Edits op) fun _ => True

section

variable {α : Type}

theorem editsOnly_select (f : Db → α) : EditsOnly op (select f) := plain_select edits_nil f

/-- A read, of which the continuation may remember where the value comes from. -/
theorem editsOnly_read {β : Type} {f : Db → α} {k : α → M β} (h : ∀ db, EditsOnly op (k (f db))) :
    EditsOnly op (select f >>= k) := fun db => ⟨edits_nil, h db⟩

theorem editsOnly_write {w : Write} (h : ∀ env d₀ i L, Guarantee env d₀ i op L w) :
    EditsOnly op (write fun _ => [w]) := plain_write fun _ => edits_of h

theorem editsOnly_insertUnique {violated : α → Db → Option String} {row : Micros → α}
    {insert : α → Write} (h : ∀ env d₀ i L a, Guarantee env d₀ i op L (insert a)) :
    EditsOnly op (insertUnique violated row insert) := by
  refine plain_query edits_nil (fun db r hf => ?_) fun _ _ _ => trivial
  split at hf
  · cases hf
  · cases hf
    exact edits_of fun env d₀ i L => h env d₀ i L _

end

theorem save_editsOnly {writer : ProfileWriter} {loaded entity : CandidateProfile}
    (h : SavedBy op writer loaded entity) :
    EditsOnly op (ProfileRepository.save writer loaded entity) := by
  unfold ProfileRepository.save ProfileRepository.findById
  refine (editsOnly_select _).bind fun reread? => ?_
  cases reread? with
  | none => exact plain_throw trivial
  | some reread =>
    dsimp only
    split
    · refine Plain.bind (editsOnly_write fun _ _ _ _ => ?_) fun _ => plain_ret _
      exact h
    · exact plain_ret _

theorem applyThresholds_editsOnly (candidateId : Id) :
    EditsOnly op (IndexationService.applyThresholds candidateId) := by
  unfold IndexationService.applyThresholds ProfileRepository.findByUserId
  refine (editsOnly_select _).bind fun profile? => ?_
  cases profile? with
  | none => exact plain_ret _
  | some profile =>
    refine (editsOnly_select _).bind fun ids => Plain.bind ?_ fun scores => ?_
    · unfold IndexationService.findValidScores now
      split
      · exact plain_ret _
      · exact (editsOnly_select _).bind fun _ => (editsOnly_select _).bind fun _ => plain_ret _
    · refine (editsOnly_select _).bind fun thresholds => Plain.bind ?_ fun _ => plain_ret _
      exact save_editsOnly ⟨trivial, rfl, rfl, rfl⟩

theorem calculateCompleteness_editsOnly (profileId : Id) :
    EditsOnly op (CandidateProfileService.calculateCompleteness profileId) := by
  unfold CandidateProfileService.calculateCompleteness ProfileRepository.findById
  refine (editsOnly_select _).bind fun profile? => ?_
  cases profile? with
  | none => exact plain_throw trivial
  | some profile =>
    refine (editsOnly_select _).bind fun weights => Plain.bind ?_ fun parts => ?_
    · unfold CandidateProfileService.loadParts
      refine (editsOnly_select _).bind fun _ => (editsOnly_select _).bind fun _ => ?_
      exact (editsOnly_select _).bind fun _ => (editsOnly_select _).bind fun _ => plain_ret _
    · refine Plain.bind (save_editsOnly ?_) fun _ => ?_
      · exact ⟨trivial, rfl, rfl, rfl⟩
      · dsimp only
        split
        · exact ((applyThresholds_editsOnly _).caught fun _ _ => plain_ret _).bind fun _ =>
            plain_ret _
        · exact plain_ret _

theorem findOrCreateProfile_editsOnly (uuid userId : Id) :
    EditsOnly op (CandidateProfileService.findOrCreateProfile uuid userId) := by
  unfold CandidateProfileService.findOrCreateProfile ProfileRepository.findByUserId
  refine (editsOnly_select _).bind fun existing? => ?_
  cases existing? with
  | some existing => exact plain_ret _
  | none => exact editsOnly_insertUnique fun _ _ _ _ _ => trivial

theorem updateProfile_editsOnly (profileId : Id) (data : UpdateProfileDto) :
    EditsOnly (.updateProfile profileId data)
      (CandidateProfileService.updateProfile profileId data) := by
  unfold CandidateProfileService.updateProfile ProfileRepository.findById
  refine editsOnly_read fun db => ?_
  cases hprofile : db.profiles.get? profileId with
  | none => exact plain_throw trivial
  | some profile =>
    dsimp only
    split
    · exact plain_throw trivial
    · refine Plain.bind ?_ fun _ => Plain.bind (save_editsOnly ⟨?_, rfl, ?_, rfl⟩) fun saved => ?_
      · unfold CandidateProfileService.checkVisibility
        split
        · exact plain_ret _
        · split
          · exact plain_throw trivial
          · refine (editsOnly_select _).bind fun diploma => ?_
            split
            · exact plain_ret _
            · exact plain_throw trivial
      · exact ⟨data, by rw [← Table.key_of_get? hprofile]; rfl, rfl⟩
      · cases hv : data.visibility with
        | none =>
          show data.visibility.getD _ = _
          rw [hv]
          rfl
        | some v =>
          show data.visibility.getD _ = _
          rw [hv]
          rfl
      · exact (calculateCompleteness_editsOnly _).bind fun _ => plain_ret _

theorem setModeration_editsOnly (profileId : Id) (status : ProfileModerationStatus)
    (moderatorUserId : Id) :
    EditsOnly (.setModeration profileId status moderatorUserId)
      (ProfileModerationService.setModeration profileId status moderatorUserId) := by
  unfold ProfileModerationService.setModeration ProfileRepository.findById
  refine editsOnly_read fun db => ?_
  cases hprofile : db.profiles.get? profileId with
  | none => exact plain_throw trivial
  | some profile =>
    have hid : profile.id = profileId := by
      have := Table.key_of_get? hprofile
      exact this
    refine Plain.bind (save_editsOnly ?_) fun saved =>
      Plain.bind (editsOnly_write ?_) fun _ => plain_ret _
    · cases status with
      | active => exact ⟨⟨moderatorUserId, by rw [← hid]; rfl⟩, rfl, rfl, rfl⟩
      | suspended => exact ⟨⟨moderatorUserId, by rw [← hid]; rfl⟩, rfl, rfl, rfl⟩
    · exact fun _ _ _ _ => trivial

theorem claimPendingDecision_editsOnly (id adminUserId : Id) (note : Option String)
    (status : SchoolVerificationStatus) :
    EditsOnly op
      (SchoolVerificationService.claimPendingDecision id adminUserId note status) := by
  unfold SchoolVerificationService.claimPendingDecision SchoolVerificationService.decide now
  refine (editsOnly_select _).bind fun time => Plain.bind ?_ fun affected => ?_
  · refine plain_query edits_nil (fun db r hf => ?_) fun _ _ _ => trivial
    split at hf
    · cases hf
      exact edits_nil
    · split at hf
      · cases hf
        exact edits_of fun _ _ _ _ => trivial
      · cases hf
        exact edits_nil
  · split
    · refine (editsOnly_select _).bind fun v? => ?_
      cases v? with
      | none => exact plain_throw trivial
      | some v => exact plain_throw trivial
    · refine (editsOnly_select _).bind fun v? => ?_
      cases v? with
      | none => exact plain_throw trivial
      | some v => exact plain_ret _

theorem processResult_editsOnly (uuid assessmentId : Id) (graded : Score) :
    EditsOnly op (WebhookService.processResult uuid assessmentId graded) := by
  unfold WebhookService.processResult WebhookService.finalizeAssessment now
  refine (editsOnly_select _).bind fun assessment? => ?_
  cases assessment? with
  | none => exact plain_throw trivial
  | some assessment =>
    refine (editsOnly_select _).bind fun existing? => ?_
    cases existing? with
    | some existing => exact plain_ret _
    | none =>
      refine Plain.bind (editsOnly_insertUnique ?_) fun _ => (editsOnly_select _).bind fun time =>
        (editsOnly_select _).bind fun reread? => ?_
      · exact fun _ _ _ _ _ => trivial
      · cases reread? with
        | none => exact plain_throw trivial
        | some reread =>
          dsimp only
          split
          · exact applyThresholds_editsOnly _
          · refine Plain.bind (editsOnly_write ?_) fun _ => applyThresholds_editsOnly _
            exact fun _ _ _ _ => trivial

theorem addSkill_editsOnly (uuid userId : Id) (dto : AddProfileSkillDto) :
    EditsOnly op (CandidateSkillService.add uuid userId dto) := by
  unfold CandidateSkillService.add
  refine (findOrCreateProfile_editsOnly _ _).bind fun profile =>
    (editsOnly_select _).bind fun skill? => ?_
  cases skill? with
  | none => exact plain_throw trivial
  | some skill =>
    refine Plain.bind (Plain.mapError (editsOnly_insertUnique ?_) fun _ _ => trivial) fun saved =>
      (calculateCompleteness_editsOnly _).bind fun _ => plain_ret _
    exact fun _ _ _ _ _ => trivial

theorem removeSkill_editsOnly (uuid userId profileSkillId : Id) :
    EditsOnly op (CandidateSkillService.remove uuid userId profileSkillId) := by
  unfold CandidateSkillService.remove CandidateSkillService.deleteOwn
  refine (findOrCreateProfile_editsOnly _ _).bind fun profile => Plain.bind ?_ fun _ =>
    (calculateCompleteness_editsOnly _).bind fun _ => plain_ret _
  refine plain_query edits_nil (fun db r hf => ?_) fun _ _ _ => trivial
  split at hf
  · cases hf
  · split at hf
    · cases hf
      exact edits_of fun _ _ _ _ => trivial
    · cases hf

end

end JobBoard.Cvtheque
