import JobBoard.Lib.Leaves
import JobBoard.Candidates.Edits

/-!
# The stored completeness

`completeness_fresh_iff`: after an edit by the candidate the stored completeness of the profile
is what `calculateCompleteness` computes from the tables. A submission of a diploma and the
approval of a school end without a recalculation, so that the school they give a profile counts
only if it was counted before.
-/

set_option autoImplicit false

namespace JobBoard.Candidates.Edits

open Txn Prog
open Assessments (ProfileParts CompletenessWeights)
open Assessments.CandidateProfileService (completenessOf elements hasIdentity)

/-! ## What the completeness is computed from -/

section

variable (c : Cvtheque.Db)

def partsOf (p : Assessments.CandidateProfile) : ProfileParts where
  experienceCount := c.experiences.rows.countP (·.profileId = p.id)
  skillCount := c.profileSkills.rows.countP (·.profileId = p.id)
  hasCv := c.documents.rows.any fun d =>
    d.ownerId = p.userId && d.type = .cv && d.scanStatus = .clean
  linkCount := c.links.rows.countP (·.profileId = p.id)

def recomputed (p : Assessments.CandidateProfile) : Int :=
  completenessOf (elements c.settings.loadWeights p (partsOf c p))

/-- What `calculateCompleteness` answers for the profile. -/
def recompute (id : Id) : Except Error Int :=
  ((Cvtheque.CandidateProfileService.calculateCompleteness id).solo Cvtheque.store c).2.map
    (·.completeness)

/-- The stored completeness is what would be computed now. -/
def Fresh (p : Cvtheque.CandidateProfile) : Prop := recompute c p.id = .ok p.completeness

end

/-- The columns that the indexation does not change. -/
def unflagged (p : Cvtheque.CandidateProfile) : Assessments.CandidateProfile :=
  { p.toCandidateProfile with indexedInCvtheque := false, featured := false }

/-- The columns that no recalculation changes. -/
def unscored (p : Cvtheque.CandidateProfile) : Assessments.CandidateProfile :=
  { unflagged p with completeness := 0 }

theorem completenessOf_cons (e : Assessments.MissingElement × Bool)
    (es : List (Assessments.MissingElement × Bool)) :
    completenessOf (e :: es) = (if e.2 then e.1.weight else 0) + completenessOf es := by
  obtain ⟨m, b⟩ := e
  cases b <;> simp [completenessOf]

/-- The weight of the school comes last. -/
theorem completenessOf_elements (w : CompletenessWeights) (p : Assessments.CandidateProfile)
    (parts : ProfileParts) :
    completenessOf (elements w p parts) =
      completenessOf ((elements w p parts).take 5) +
        if (truthy p.school).isSome then w.school else 0 := by
  simp only [elements, List.take, completenessOf_cons]
  simp only [completenessOf, List.filter_nil, List.map_nil, List.sum_nil]
  omega

/-! ## What a recalculation keeps -/

section

variable {β : Type} {c c' c'' : Cvtheque.Db} {g : Cvtheque.CandidateProfile → β}

/-- Only the profiles differ, and they only where `g` does not look. -/
structure Keeps {β : Type} (g : Cvtheque.CandidateProfile → β) (c c' : Cvtheque.Db) : Prop where
  rows : c'.profiles.rows.map g = c.profiles.rows.map g
  rest : c' = { c with profiles := c'.profiles }

theorem Keeps.refl : Keeps g c c := ⟨rfl, rfl⟩

theorem Keeps.trans (h : Keeps g c c') (h' : Keeps g c' c'') : Keeps g c c'' where
  rows := h'.rows.trans h.rows
  rest := by
    rw [h'.rest, h.rest]

theorem Keeps.comp {γ : Type} (h : Keeps g c c') (f : β → γ) : Keeps (fun p => f (g p)) c c' where
  rows := by
    have := congrArg (List.map f) h.rows
    rwa [List.map_map, List.map_map] at this
  rest := h.rest

theorem Keeps.unscored (h : Keeps unflagged c c') : Keeps unscored c c' :=
  h.comp fun p => { p with completeness := 0 }

theorem Keeps.find (h : Keeps g c c') (q : β → Bool) :
    (c'.profiles.rows.find? fun p => q (g p)).map g =
      (c.profiles.rows.find? fun p => q (g p)).map g := by
  have := congrArg (List.find? q) h.rows
  rwa [List.find?_map, List.find?_map] at this

theorem Keeps.get? (h : Keeps g c c') (id : β → Id) (hid : ∀ p, id (g p) = p.id) (profileId : Id) :
    (c'.profiles.get? profileId).map g = (c.profiles.get? profileId).map g := by
  have := h.find fun p => decide (id p = profileId)
  simp only [hid] at this
  exact this

theorem Keeps.profileOf (h : Keeps g c c') (user : β → Id) (huser : ∀ p, user (g p) = p.userId)
    (userId : Id) : (c'.profileOf userId).map g = (c.profileOf userId).map g := by
  have := h.find fun p => user p == userId
  simp only [huser] at this
  exact this

/-- The same is computed for a profile whose other columns are the same. -/
theorem Keeps.same (h : Keeps g c c') {p p' : Cvtheque.CandidateProfile}
    (hp : Edits.unscored p' = Edits.unscored p) :
    recomputed c' p'.toCandidateProfile = recomputed c p.toCandidateProfile := by
  have hcolumns : ∀ q : Cvtheque.CandidateProfile,
      recomputed c q.toCandidateProfile = recomputed c (Edits.unscored q) := fun _ => rfl
  rw [h.rest]
  show recomputed c p'.toCandidateProfile = _
  rw [hcolumns p', hcolumns p, hp]

/-! ## The services, uninterrupted -/

variable {E : Cvtheque.Db → Error → Prop}

open Cvtheque (ProfileWriter ProfileRepository.save)

/-- The save of a profile that has just been loaded. -/
theorem save_leaves {writer : ProfileWriter} {loaded e p : Cvtheque.CandidateProfile}
    {Q : Cvtheque.Db → Cvtheque.CandidateProfile → Prop} (hp : c.profiles.get? e.id = some p)
    (hg : ∀ clock, g (Cvtheque.CandidateProfile.saved clock writer e p p) = g p)
    (h : ∀ c', Keeps g c c' →
      (Cvtheque.CandidateProfile.differs writer e p →
        c'.profiles.get? e.id = some (Cvtheque.CandidateProfile.saved c.clock writer e p p)) →
      Q c' e) :
    (Cvtheque.ProfileRepository.save writer loaded e).leaves Cvtheque.store c E Q := by
  unfold Cvtheque.ProfileRepository.save Cvtheque.ProfileRepository.findById
  rw [leaves_read, hp]
  dsimp only
  split
  · refine h _ ⟨?_, rfl⟩ fun _ => ?_
    · show (c.profiles.rows.map _).map g = _
      rw [List.map_map]
      refine List.map_congr_left fun r hr => ?_
      simp only [Function.comp]
      split
      · next hid =>
        have := Table.get?_of_mem hr
        rw [of_decide_eq_true hid, hp] at this
        obtain rfl := Option.some.inj this
        exact hg _
      · rfl
    · refine (Table.get?_modify _ fun r =>
        Cvtheque.CandidateProfile.saved_id c.clock writer e p r).trans ?_
      rw [if_pos rfl, hp]
      rfl
  · next hdiffers => exact h c .refl fun hd => absurd hd hdiffers

theorem profileOf_get {userId : Id} {p : Cvtheque.CandidateProfile}
    (h : c.profileOf userId = some p) : c.profiles.get? p.id = some p ∧ p.userId = userId := by
  refine ⟨Table.get?_of_mem (List.mem_of_find?_eq_some h), ?_⟩
  simpa using List.find?_some h

theorem findValidScores_leaves {Q : Cvtheque.Db → List Assessments.Score → Prop} {ids : List Id}
    (h : ∀ scores, Q c scores) :
    (Cvtheque.IndexationService.findValidScores ids).leaves Cvtheque.store c E Q := by
  unfold Cvtheque.IndexationService.findValidScores
  split <;> exact h _

/-- The indexation changes the flags only. -/
theorem applyThresholds_leaves (candidateId : Id) :
    (Cvtheque.IndexationService.applyThresholds candidateId).leaves Cvtheque.store c E
      fun c' _ => Keeps unflagged c c' := by
  unfold Cvtheque.IndexationService.applyThresholds Cvtheque.ProfileRepository.findByUserId
  rw [leaves_read]
  cases hp : c.profileOf candidateId with
  | none => exact .refl
  | some p =>
    dsimp only
    rw [leaves_read, leaves_bind]
    refine findValidScores_leaves fun scores => ?_
    rw [leaves_read, leaves_bind]
    refine save_leaves (g := unflagged) (profileOf_get hp).1 (fun clock => ?_) fun c' h _ => h
    simp only [Cvtheque.CandidateProfile.saved, Cvtheque.CandidateProfile.assignsNumber,
      Cvtheque.CandidateProfile.overwrite, unflagged,
      Assessments.CandidateProfile.overwrite_loaded]
    rfl

theorem loadParts_leaves {Q : Cvtheque.Db → ProfileParts → Prop} {p : Cvtheque.CandidateProfile}
    (h : Q c (partsOf c p.toCandidateProfile)) :
    (Cvtheque.CandidateProfileService.loadParts p).leaves Cvtheque.store c E Q := h

/-- The completeness that is stored and returned is computed from the tables. -/
theorem calculateCompleteness_leaves {id : Id}
    {Q : Cvtheque.Db → Assessments.CompletenessResult → Prop}
    (hnone : c.profiles.get? id = none → E c (.notFound "Profile not found"))
    (hsome : ∀ p, c.profiles.get? id = some p → ∀ c' r, Keeps unscored c c' →
      (∀ p', c'.profiles.get? id = some p' →
        p'.completeness = recomputed c p.toCandidateProfile) →
      r.completeness = recomputed c p.toCandidateProfile → Q c' r) :
    (Cvtheque.CandidateProfileService.calculateCompleteness id).leaves Cvtheque.store c E Q := by
  unfold Cvtheque.CandidateProfileService.calculateCompleteness
    Cvtheque.ProfileRepository.findById
  rw [leaves_read]
  cases hp : c.profiles.get? id with
  | none => exact hnone hp
  | some p =>
    dsimp only
    obtain rfl := Table.key_of_get? hp
    rw [leaves_read, leaves_bind]
    refine loadParts_leaves ?_
    rw [leaves_bind]
    refine save_leaves (g := unscored) (p := p) hp (fun clock => ?_) fun c' hkeeps hsaved => ?_
    · simp only [Cvtheque.CandidateProfile.saved, Cvtheque.CandidateProfile.assignsNumber,
        Cvtheque.CandidateProfile.overwrite, unscored, unflagged,
        Assessments.CandidateProfile.overwrite_loaded]
      rfl
    · have hstored : ∀ p', c'.profiles.get? p.id = some p' →
          p'.completeness = recomputed c p.toCandidateProfile := by
        intro p' hp'
        rw [hsaved (.inl rfl)] at hp'
        obtain rfl := Option.some.inj hp'
        rfl
      split
      · unfold Cvtheque.CandidateProfileService.reindex
        have hplain : Cvtheque.EditsOnly (.applyThresholds p.userId) _ :=
          Cvtheque.applyThresholds_editsOnly p.userId
        rw [leaves_bind, leaves_caught hplain]
        refine leaves_mono (applyThresholds_leaves _) (fun _ _ h => h) fun c'' _ hflags => ?_
        have hstored'' : ∀ p'', c''.profiles.get? p.id = some p'' →
            p''.completeness = recomputed c p.toCandidateProfile := by
          intro p'' hp''
          have := hflags.get? (·.id) (fun _ => rfl) p.id
          rw [hp''] at this
          obtain ⟨p', hp', heq⟩ := Option.map_eq_some_iff.1 this.symm
          rw [← hstored p' hp']
          exact (congrArg (·.completeness) heq).symm
        exact hsome p hp c'' _ (hkeeps.trans hflags.unscored) hstored'' rfl
      · exact hsome p hp _ _ hkeeps hstored rfl

theorem recompute_eq {id : Id} {p : Cvtheque.CandidateProfile} (hp : c.profiles.get? id = some p) :
    recompute c id = .ok (recomputed c p.toCandidateProfile) := by
  have h : (Cvtheque.CandidateProfileService.calculateCompleteness id).leaves Cvtheque.store c
      (fun _ _ => False) fun _ r => r.completeness = recomputed c p.toCandidateProfile := by
    refine calculateCompleteness_leaves (fun hnone => ?_) fun q hq _ r _ _ hr => ?_
    · rw [hp] at hnone
      cases hnone
    · rw [hp] at hq
      obtain rfl := Option.some.inj hq
      exact hr
  unfold leaves at h
  unfold recompute
  cases hr : ((Cvtheque.CandidateProfileService.calculateCompleteness id).solo Cvtheque.store c).2
    with
  | ok r =>
    rw [hr] at h
    exact congrArg Except.ok h
  | error e =>
    rw [hr] at h
    exact h.elim

theorem fresh_iff {id : Id} {p : Cvtheque.CandidateProfile} (hp : c.profiles.get? id = some p) :
    Fresh c p ↔ p.completeness = recomputed c p.toCandidateProfile := by
  obtain rfl := Table.key_of_get? hp
  unfold Fresh
  rw [recompute_eq hp]
  exact ⟨fun h => (Except.ok.inj h).symm, fun h => congrArg Except.ok h.symm⟩

/-- A recalculation leaves the profile fresh. -/
theorem calculateCompleteness_fresh (id : Id) :
    (Cvtheque.CandidateProfileService.calculateCompleteness id).leaves Cvtheque.store c
      (fun _ _ => True) fun c' _ =>
        Keeps unscored c c' ∧ ∀ p, c'.profiles.get? id = some p → Fresh c' p := by
  refine calculateCompleteness_leaves (fun _ => trivial) fun p hp c' r hkeeps hstored _ => ?_
  refine ⟨hkeeps, fun p' hp' => ?_⟩
  have hcolumns := hkeeps.get? (·.id) (fun _ => rfl) id
  rw [hp, hp'] at hcolumns
  rw [fresh_iff hp', hstored p' hp', hkeeps.same (Option.some.inj hcolumns)]

/-- The profile of the user, if there is one, is fresh. -/
def FreshOf (userId : Id) (c : Cvtheque.Db) : Prop := ∀ p, c.profileOf userId = some p → Fresh c p

theorem calculateCompleteness_freshOf {userId : Id} {p : Cvtheque.CandidateProfile}
    (hp : c.profileOf userId = some p) :
    (Cvtheque.CandidateProfileService.calculateCompleteness p.id).leaves Cvtheque.store c
      (fun _ _ => True) fun c' _ => FreshOf userId c' := by
  refine leaves_mono (calculateCompleteness_fresh p.id) (fun _ _ h => h) fun c' _ h p' hp' => ?_
  have hcolumns := h.1.profileOf (·.userId) (fun _ => rfl) userId
  rw [hp, hp'] at hcolumns
  have hid : p'.id = p.id := congrArg (·.id) (Option.some.inj hcolumns)
  exact h.2 p' (hid ▸ (profileOf_get hp').1)

theorem findOrCreateProfile_leaves {uuid userId : Id}
    {Q : Cvtheque.Db → Cvtheque.CandidateProfile → Prop}
    (hfound : ∀ p, c.profileOf userId = some p → Q c p)
    (hcreated : c.profileOf userId = none →
      Cvtheque.CandidateProfileService.profileViolation
        (Cvtheque.CandidateProfileService.newProfile uuid userId c.clock) c = none →
      Q (Cvtheque.store.apply c (.insertProfile
          (Cvtheque.CandidateProfileService.newProfile uuid userId c.clock)))
        (Cvtheque.CandidateProfileService.newProfile uuid userId c.clock)) :
    (Cvtheque.CandidateProfileService.findOrCreateProfile uuid userId).leaves Cvtheque.store c
      (fun _ _ => True) Q := by
  unfold Cvtheque.CandidateProfileService.findOrCreateProfile
    Cvtheque.ProfileRepository.findByUserId
  rw [leaves_read]
  cases hp : c.profileOf userId with
  | some p => exact hfound p hp
  | none =>
    unfold Cvtheque.CandidateProfileService.createProfile Cvtheque.insertUnique
    dsimp only
    rw [leaves_query]
    cases hviolated : Cvtheque.CandidateProfileService.profileViolation
        (Cvtheque.CandidateProfileService.newProfile uuid userId c.clock) c with
    | none => exact hcreated hp hviolated
    | some constraint => trivial

/-- The new profile is the one of its user. -/
theorem profileOf_created {uuid userId : Id} (hnone : c.profileOf userId = none)
    (hviolated : Cvtheque.CandidateProfileService.profileViolation
      (Cvtheque.CandidateProfileService.newProfile uuid userId c.clock) c = none) :
    (Cvtheque.store.apply c (.insertProfile
      (Cvtheque.CandidateProfileService.newProfile uuid userId c.clock))).profileOf userId =
      some (Cvtheque.CandidateProfileService.newProfile uuid userId c.clock) := by
  unfold Cvtheque.CandidateProfileService.profileViolation at hviolated
  split at hviolated
  · cases hviolated
  · next hfree =>
    show (c.profiles.insert _).rows.find? _ = _
    rw [Table.insert_rows (by simpa using hfree), List.find?_append]
    rw [Cvtheque.Db.profileOf] at hnone
    rw [hnone]
    simp [Cvtheque.CandidateProfileService.newProfile,
      Assessments.CandidateProfileService.newProfile]

theorem findOrCreateProfile_of (uuid userId : Id) :
    (Cvtheque.CandidateProfileService.findOrCreateProfile uuid userId).leaves Cvtheque.store c
      (fun _ _ => True) fun c' p => c'.profileOf userId = some p :=
  findOrCreateProfile_leaves (fun _ h => h) profileOf_created

/-! ## Edits in the CVthèque -/

theorem checkVisibility_leaves {p : Cvtheque.CandidateProfile}
    {visibility : Option Assessments.ProfileVisibility} {Q : Cvtheque.Db → Unit → Prop}
    (h : Q c ()) :
    (Cvtheque.CandidateProfileService.checkVisibility p visibility).leaves Cvtheque.store c
      (fun _ _ => True) Q := by
  unfold Cvtheque.CandidateProfileService.checkVisibility
  split
  · exact h
  · split
    · trivial
    · rw [leaves_read]
      split
      · exact h
      · trivial

/-- The identifiers of a profile. -/
def ids (p : Cvtheque.CandidateProfile) : Id × Id := (p.id, p.userId)

theorem updateProfile_leaves (profileId : Id) (data : Cvtheque.UpdateProfileDto) :
    (Cvtheque.CandidateProfileService.updateProfile profileId data).leaves Cvtheque.store c
      (fun _ _ => True) fun c' saved => Keeps ids c c' ∧ saved.id = profileId ∧
        ∀ p, c'.profiles.get? profileId = some p → Fresh c' p := by
  unfold Cvtheque.CandidateProfileService.updateProfile Cvtheque.ProfileRepository.findById
  rw [leaves_read]
  cases hp : c.profiles.get? profileId with
  | none => trivial
  | some p =>
    obtain rfl := Table.key_of_get? hp
    dsimp only
    split
    · trivial
    · rw [leaves_bind]
      refine checkVisibility_leaves ?_
      rw [leaves_bind]
      refine save_leaves (g := ids) (p := p) hp (fun clock => ?_) fun c' hsaved _ => ?_
      · unfold Cvtheque.CandidateProfile.saved
        split <;> rfl
      · rw [leaves_bind]
        refine leaves_mono (calculateCompleteness_fresh p.id) (fun _ _ h => h) fun c'' _ h => ?_
        exact ⟨hsaved.trans (h.1.comp fun q => (q.id, q.userId)), rfl, h.2⟩

theorem profileOf_same (h : c'.profiles = c.profiles) (userId : Id) :
    c'.profileOf userId = c.profileOf userId := by
  unfold Cvtheque.Db.profileOf
  rw [h]

theorem addSkill_leaves (uuid userId : Id) (dto : Assessments.AddProfileSkillDto) :
    (Cvtheque.CandidateSkillService.add uuid userId dto).leaves Cvtheque.store c
      (fun _ _ => True) fun c' _ => FreshOf userId c' := by
  unfold Cvtheque.CandidateSkillService.add
  rw [leaves_bind]
  refine leaves_mono (findOrCreateProfile_of uuid userId) (fun _ _ h => h) fun c' profile hp => ?_
  rw [leaves_read]
  split
  · trivial
  · rw [leaves_bind]
    unfold Cvtheque.insertUnique
    have hplain : ∀ f : Cvtheque.Db → Except Error (List Cvtheque.Write × Assessments.ProfileSkill),
        (query f : Cvtheque.M Assessments.ProfileSkill).Plain (fun _ => True) (fun _ => True)
          fun _ => True :=
      fun f => plain_query trivial (fun _ _ _ => trivial) fun _ _ _ => trivial
    rw [leaves_mapError (hplain _), leaves_query]
    split
    · next r hr =>
      split at hr
      · cases hr
      · obtain rfl := Except.ok.inj hr
        rw [leaves_bind]
        refine calculateCompleteness_freshOf ?_
        rw [profileOf_same rfl]
        exact hp
    · trivial

theorem removeSkill_leaves (uuid userId profileSkillId : Id) :
    (Cvtheque.CandidateSkillService.remove uuid userId profileSkillId).leaves Cvtheque.store c
      (fun _ _ => True) fun c' _ => FreshOf userId c' := by
  unfold Cvtheque.CandidateSkillService.remove
  rw [leaves_bind]
  refine leaves_mono (findOrCreateProfile_of uuid userId) (fun _ _ h => h) fun c' profile hp => ?_
  unfold Cvtheque.CandidateSkillService.deleteOwn
  rw [leaves_bind, leaves_query]
  split
  · next r hr =>
    split at hr
    · cases hr
    · split at hr
      · obtain rfl := Except.ok.inj hr
        rw [leaves_bind]
        exact calculateCompleteness_freshOf ((profileOf_same rfl userId).trans hp)
      · cases hr
  · trivial

end

/-! ## Edits of the other tables -/

theorem schools_part : Part store Candidates.store id (fun _ d => d) .schools :=
  ⟨fun _ _ => rfl, fun _ _ => rfl, fun _ _ _ => rfl, fun _ => rfl⟩

theorem cvtheque_part :
    Part Candidates.store Cvtheque.store Db.cvtheque (fun d c => { d with cvtheque := c })
      .cvtheque :=
  ⟨fun _ _ => rfl, fun _ _ => rfl, fun _ _ _ => rfl, fun _ => rfl⟩

section

variable {α : Type} {d : Db}

theorem leaves_inSchools {p : Candidates.M α} {E : Db → Error → Prop} {Q : Db → α → Prop} :
    (inSchools p).leaves store d E Q ↔ p.leaves Candidates.store d E Q :=
  schools_part.leaves_zoom

theorem leaves_inCvtheque {p : Cvtheque.M α} {E : Db → Error → Prop} {Q : Db → α → Prop} :
    (inCvtheque p).leaves store d E Q ↔
      p.leaves Cvtheque.store d.cvtheque (fun c e => E { d with cvtheque := c } e)
        fun c a => Q { d with cvtheque := c } a :=
  leaves_inSchools.trans cvtheque_part.leaves_zoom

/-- An edit between the search for the profile and the recalculation. -/
theorem edit_leaves {uuid userId : Id} {edit : Cvtheque.CandidateProfile → M α}
    (h : ∀ d p, (edit p).leaves store d (fun _ _ => True) fun d' _ =>
      d'.cvtheque.profiles = d.cvtheque.profiles) :
    (do
      let profile ← findOrCreateProfile uuid userId
      let saved ← edit profile
      let _ ← calculateCompleteness profile.id
      return saved).leaves store d (fun _ _ => True) fun d' _ => FreshOf userId d'.cvtheque := by
  unfold findOrCreateProfile calculateCompleteness
  rw [leaves_bind, leaves_inCvtheque]
  refine leaves_mono (findOrCreateProfile_of uuid userId) (fun _ _ h => h) fun c profile hp => ?_
  rw [leaves_bind]
  refine leaves_mono (h _ profile) (fun _ _ h => h) fun d' saved hsame => ?_
  rw [leaves_bind, leaves_inCvtheque]
  exact calculateCompleteness_freshOf ((profileOf_same hsame userId).trans hp)

theorem insertNew_leaves {violated : Db → Bool} {pk : String} {w : Write} {row : α}
    (hw : ∀ d, (store.apply d w).cvtheque.profiles = d.cvtheque.profiles) :
    (insertNew violated pk w row).leaves store d (fun _ _ => True) fun d' _ =>
      d'.cvtheque.profiles = d.cvtheque.profiles := by
  unfold insertNew
  rw [leaves_query]
  cases violated d with
  | true => trivial
  | false => exact hw d

theorem deleteOwn_leaves {β : Type} {find : Db → Option β} {owner : β → Id} {profileId : Id}
    {w : Write} {message : String}
    (hw : ∀ d, (store.apply d w).cvtheque.profiles = d.cvtheque.profiles) :
    (deleteOwn find owner profileId w message).leaves store d (fun _ _ => True) fun d' _ =>
      d'.cvtheque.profiles = d.cvtheque.profiles := by
  unfold deleteOwn
  rw [leaves_query]
  cases find d with
  | none => trivial
  | some row =>
    by_cases howner : owner row = profileId
    · simp only [howner, if_true]
      exact hw d
    · simp only [howner, if_false]

theorem createExperience_leaves (uuid userId : Id) (dto : CreateExperienceDto) :
    (CandidateExperienceService.create uuid userId dto).leaves store d (fun _ _ => True)
      fun d' _ => FreshOf userId d'.cvtheque :=
  edit_leaves fun _ _ => insertNew_leaves fun _ => rfl

theorem saveExperience_leaves (e : Cvtheque.Experience) :
    (CandidateExperienceService.save e).leaves store d (fun _ _ => True) fun d' _ =>
      d'.cvtheque.profiles = d.cvtheque.profiles := by
  unfold CandidateExperienceService.save
  rw [leaves_read]
  split
  · exact insertNew_leaves fun _ => rfl
  · split <;> exact rfl

theorem updateExperience_leaves (uuid userId experienceId : Id) (dto : UpdateExperienceDto) :
    (CandidateExperienceService.update uuid userId experienceId dto).leaves store d
      (fun _ _ => True) fun d' _ => FreshOf userId d'.cvtheque := by
  unfold CandidateExperienceService.update findOrCreateProfile calculateCompleteness
  rw [leaves_bind, leaves_inCvtheque]
  refine leaves_mono (findOrCreateProfile_of uuid userId) (fun _ _ h => h) fun c profile hp => ?_
  rw [leaves_read]
  split
  · trivial
  · rw [leaves_bind]
    refine leaves_mono (saveExperience_leaves _) (fun _ _ h => h) fun d' saved hsame => ?_
    rw [leaves_bind, leaves_inCvtheque]
    exact calculateCompleteness_freshOf ((profileOf_same hsame userId).trans hp)

theorem removeExperience_leaves (uuid userId experienceId : Id) :
    (CandidateExperienceService.remove uuid userId experienceId).leaves store d (fun _ _ => True)
      fun d' _ => FreshOf userId d'.cvtheque :=
  edit_leaves fun _ _ => deleteOwn_leaves fun _ => rfl

theorem createLink_leaves (uuid userId : Id) (dto : CreateProfileLinkDto) :
    (CandidateLinkService.create uuid userId dto).leaves store d (fun _ _ => True)
      fun d' _ => FreshOf userId d'.cvtheque :=
  edit_leaves fun _ _ => insertNew_leaves fun _ => rfl

theorem removeLink_leaves (uuid userId linkId : Id) :
    (CandidateLinkService.remove uuid userId linkId).leaves store d (fun _ _ => True)
      fun d' _ => FreshOf userId d'.cvtheque :=
  edit_leaves fun _ _ => deleteOwn_leaves fun _ => rfl

theorem updateMyProfile_leaves (uuid userId : Id) (dto : Cvtheque.UpdateProfileDto) :
    (CandidateProfileController.updateMyProfile uuid userId dto).leaves store d (fun _ _ => True)
      fun d' _ => FreshOf userId d'.cvtheque := by
  unfold CandidateProfileController.updateMyProfile findOrCreateProfile calculateCompleteness
  rw [leaves_bind, leaves_inCvtheque]
  refine leaves_mono (findOrCreateProfile_of uuid userId) (fun _ _ h => h) fun c profile hp => ?_
  rw [leaves_bind, leaves_inCvtheque]
  refine leaves_mono (updateProfile_leaves profile.id dto) (fun _ _ h => h) ?_
  rintro c' saved ⟨hids, hid, -⟩
  have hsame := hids.profileOf (·.2) (fun _ => rfl) userId
  rw [show c.profileOf userId = some profile from hp] at hsame
  obtain ⟨p', hp', heq⟩ := Option.map_eq_some_iff.1 hsame
  have hprofile : p'.id = profile.id := congrArg (·.1) heq
  rw [leaves_bind, leaves_inCvtheque, hid, ← hprofile]
  exact calculateCompleteness_freshOf hp'

/-! ## The CV -/

theorem refresh_leaves (userId : Id) :
    (CandidateDocumentService.refresh userId).leaves store d (fun _ _ => True)
      fun d' _ => FreshOf userId d'.cvtheque := by
  unfold CandidateDocumentService.refresh calculateCompleteness
    Cvtheque.ProfileRepository.findByUserId
  rw [leaves_bind, leaves_inCvtheque, leaves_select]
  cases hp : d.cvtheque.profileOf userId with
  | none =>
    intro p hp'
    rw [show d.cvtheque.profileOf userId = some p from hp'] at hp
    cases hp
  | some profile =>
    dsimp only
    rw [leaves_bind, leaves_inCvtheque]
    exact calculateCompleteness_freshOf hp

theorem uploadCV_leaves (uuid userId : Id) (file : UploadedFile)
    (scan : Messaging.ConversationService.ScanResult) :
    (CandidateDocumentService.uploadCV uuid userId file scan).leaves store d (fun _ _ => True)
      fun d' _ => FreshOf userId d'.cvtheque := by
  unfold CandidateDocumentService.uploadCV
  refine leaves_then fun d _ => leaves_then fun d _ => leaves_then fun d found => ?_
  cases found with
  | none =>
    refine leaves_then fun d _ => leaves_then fun d saved => ?_
    exact leaves_bind.2 (refresh_leaves userId)
  | some existingCV =>
    refine leaves_then fun d _ => leaves_then fun d saved => ?_
    exact leaves_bind.2 (refresh_leaves userId)

theorem deleteCV_leaves (userId : Id) :
    (CandidateDocumentService.deleteCV userId).leaves store d (fun _ _ => True)
      fun d' _ => FreshOf userId d'.cvtheque := by
  unfold CandidateDocumentService.deleteCV
  refine leaves_then fun d found => ?_
  cases found with
  | none => trivial
  | some doc => exact leaves_then fun d _ => refresh_leaves userId

end

end JobBoard.Candidates.Edits
