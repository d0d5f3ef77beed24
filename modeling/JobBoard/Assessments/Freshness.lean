import JobBoard.Assessments.Flags

/-!
# Runs that keep the flags right

`flags_right`: for calls one at a time, in runs where no statement fails between a change and its
indexation, and where no passing of time, new percentile or new profile changes what
`applyThresholds` computes, the flags are those it computes whenever no call runs.
`flags_stale` is a candidate who stays indexed after the only score has expired, and one who
does after the recalculation of the percentiles.
-/

set_option autoImplicit false

namespace JobBoard.Assessments.Freshness

open Txn Prog

/-! ## Pieces -/

section

variable {d : Db} {α β : Type}

abbrev Settles (p : M α) (Q : Db → α → Prop) (d : Db) : Prop :=
  p.settles store (fun d ws => ws.all (keepsComputed d) = true) FlagsRight Q none d

/-- The flags are right after the piece. -/
abbrev Keeps (p : M α) (d : Db) : Prop := Settles p (fun d' _ => FlagsRight d') d

abbrev Quietly (p : M α) : Prop := p.Plain Quiet Quiet fun _ => True

theorem Keeps.bind {p : M α} {f : α → M β} (hp : Keeps p d)
    (hf : ∀ a d, FlagsRight d → Keeps (f a) d) : Keeps (p >>= f) d :=
  settles_bind hp fun d a h => hf a d h

/-- The rest of a call that only returns. -/
theorem Keeps.returns {p : M α} {f : α → β} (hp : Keeps p d) :
    Keeps (p >>= fun a => ret (f a)) d := hp.bind fun _ _ h => ⟨rfl, h⟩

theorem keeps_quiet {p : M α} (hp : Quietly p) (h : FlagsRight d) : Keeps p d :=
  hp.settles_keeps (fun _ _ hws hadm h => h.quiet hws hadm) (fun _ _ hws hadm h => h.quiet hws hadm)
    h

theorem quiet_read (f : Db → α) : Quietly (select f : M α) := plain_select (.inl rfl) f

theorem quiet_log (entry : AuditLog) : Quietly (AuditService.log entry) :=
  plain_write fun _ => quiet rfl

theorem quiet_logIf {c : Prop} [Decidable c] {entry : AuditLog} {p : M α} (hp : Quietly p) :
    Quietly (if c then do AuditService.log entry; p else p) := by
  split
  · exact (quiet_log entry).bind fun _ => hp
  · exact hp

theorem quiet_outside : Quietly (outside fun _ => [] : M Unit) := plain_outside fun _ => .inl rfl

theorem quiet_insertUnique {w : Write} (hw : isQuiet w = true) (violated : Db → Option String)
    (a : α) : Quietly (insertUnique violated w a) := by
  refine plain_query (.inl rfl) (fun db r hr => ?_) fun _ _ _ => trivial
  split at hr
  · cases hr
  · cases hr
    exact quiet hw

theorem saveAttempt_settles {a e : Assessment} (h : FlagsRight d)
    (ha : d.assessment? a.id = some a) (hid : e.id = a.id) (he : e.overwrite a a = e)
    (hbefore : a.status ≠ .completed) (hafter : e.status ≠ .completed) :
    Keeps (AssessmentRepository.save e) d := by
  have hplain : (AssessmentRepository.save e).Plain Any Any fun _ => True := by
    unfold AssessmentRepository.save AssessmentRepository.findById
    refine (anyGroups.read_plain _).bind fun reread => ?_
    split
    · exact plain_throw trivial
    · split
      · exact plain_ret _
      · exact Plain.bind (plain_write fun _ => trivial) fun _ => plain_ret _
  refine hplain.settles ?_
  unfold leaves
  rw [save_solo (hid ▸ ha) he]
  dsimp only
  split
  · exact h
  · exact fun userId => rightFor_saveAssessment (h userId) ha hid (.inr ⟨hbefore, hafter⟩)

theorem saveProfile_settles {p e : CandidateProfile} {Q : Db → CandidateProfile → Prop}
    (hp : d.profiles.get? e.id = some p) (he : e.overwrite p p = e)
    (hQ : Q (if e = p then d else store.apply d (.saveProfile e p)) e) :
    Settles (ProfileRepository.save e) Q d := by
  have hplain : (ProfileRepository.save e).Plain Any Any fun _ => True :=
    anyGroups.saveProfile_plain e
  refine hplain.settles ?_
  unfold leaves
  rw [saveProfile_solo hp he]
  dsimp only
  split
  · next hsame => rwa [if_pos hsame] at hQ
  · next hne => rwa [if_neg hne] at hQ

/-- Every attempt in the table, and in the status that the call asks for. -/
theorem loadOwn_settles {Q : Db → β → Prop} {candidateId assessmentId : Id}
    {status : AssessmentStatus} {message : String} {f : Assessment → M β} (h : FlagsRight d)
    (hf : ∀ a, d.assessment? a.id = some a → a.status = status → Settles (f a) Q d) :
    Settles (AssessmentService.loadOwn candidateId assessmentId status message >>= f) Q d := by
  unfold AssessmentService.loadOwn AssessmentRepository.findById
  rw [bind_assoc]
  refine settles_select ?_
  cases ha : d.assessment? assessmentId with
  | none => exact h
  | some a =>
    have hid : a.id = assessmentId := Table.key_of_get? ha
    dsimp only
    split
    · exact h
    · split
      · exact h
      · next hst => exact hf a (hid ▸ ha) (Decidable.not_not.1 hst)

end

/-! ## Attempts -/

section

variable {d : Db} {a : Assessment}

theorem startAssessment_quiet (env : Environment) (uuid candidateId testId : Id)
    (context : AssessmentStartContext) :
    Quietly (AssessmentService.startAssessment env uuid candidateId testId context) := by
  unfold AssessmentService.startAssessment now
  refine (quiet_read _).bind fun test? => ?_
  split
  · exact plain_throw trivial
  · split
    · exact plain_throw trivial
    · refine (eligibility_plain (.inl rfl) (fun _ => trivial) _ _).bind fun _ => ?_
      refine (multiAccount_plain (.inl rfl) _ _).bind fun sharedBy => ?_
      refine quiet_outside.bind fun _ => (quiet_read _).bind fun time => ?_
      refine (quiet_insertUnique rfl _ _).bind fun saved => (quiet_log _).bind fun _ => ?_
      split
      · exact plain_ret _
      · exact (quiet_log _).bind fun _ => plain_ret _

theorem resumeAssessment_keeps (h : FlagsRight d) (uuid candidateId assessmentId resumeToken : Id) :
    Keeps (AssessmentService.resumeAssessment uuid candidateId assessmentId resumeToken) d := by
  unfold AssessmentService.resumeAssessment
  refine loadOwn_settles h fun a ha hst => ?_
  have hopen : a.status ≠ .completed := by
    rw [hst]
    decide
  split
  · exact h
  · have hsaved : Keeps (AssessmentRepository.save
        { a with status := .inProgress, resumeToken := some uuid }) d :=
      saveAttempt_settles h ha rfl (Assessment.overwrite_loaded ..) hopen nofun
    exact hsaved.bind fun _ d h => (keeps_quiet (quiet_log _) h).returns

theorem reportIncident_keeps (h : FlagsRight d) (candidateId assessmentId : Id) :
    Keeps (AssessmentService.reportIncident candidateId assessmentId) d := by
  unfold AssessmentService.reportIncident
  refine loadOwn_settles h fun a ha hst => ?_
  have hopen : a.status ≠ .completed := by
    rw [hst]
    decide
  have hsaved : Keeps (AssessmentRepository.save { a with status := .incident }) d :=
    saveAttempt_settles h ha rfl (Assessment.overwrite_loaded ..) hopen nofun
  exact hsaved.bind fun _ d h => (keeps_quiet (quiet_log _) h).returns

theorem recordProctoringEvents_keeps (h : FlagsRight d) (candidateId assessmentId : Id)
    (events : RecordProctoringEventsDto) :
    Keeps (AssessmentService.recordProctoringEvents candidateId assessmentId events) d := by
  unfold AssessmentService.recordProctoringEvents
  refine loadOwn_settles h fun a ha hst => settles_select (settles_select ?_)
  have hopen : a.status ≠ .completed := by
    rw [hst]
    decide
  have hrecorded : ∀ threshold hardThreshold, Keeps (AssessmentRepository.save
      (AssessmentService.recorded a events threshold hardThreshold)) d := by
    intro threshold hardThreshold
    refine saveAttempt_settles h ha rfl (Assessment.overwrite_loaded ..) hopen ?_
    dsimp only [AssessmentService.recorded]
    split
    · exact nofun
    · exact hopen
  refine (hrecorded _ _).bind fun saved d h => keeps_quiet ?_ h
  exact quiet_logIf (quiet_logIf (plain_ret _))

/-! ## Finalisations -/

theorem score_keeps (h : FlagsRight d) (ha : d.assessment? a.id = some a) (uuid : Id)
    (result : AssessmentResult) : Keeps (WebhookService.score uuid a result) d := by
  refine (score_plain uuid a result).settles ?_
  unfold leaves
  cases hv : WebhookService.scoreViolation (d.graded uuid a result) d with
  | none =>
    rw [score_solo ha hv]
    exact h.finalization ha result
  | some constraint =>
    rw [score_fails hv]
    exact h

theorem finalizeAssessment_keeps (h : FlagsRight d) (ha : d.assessment? a.id = some a) (uuid : Id)
    (provided fetched : Option AssessmentResult) :
    Keeps (WebhookService.finalizeAssessment uuid a provided fetched) d := by
  unfold WebhookService.finalizeAssessment
  dsimp only
  split
  · exact h
  · refine settles_select ?_
    split
    · exact ⟨rfl, h⟩
    · unfold WebhookService.obtainResult
      split
      · exact score_keeps h ha uuid _
      · exact h
      · intro _
        show Settles _ _ d
        split
        · exact score_keeps h ha uuid _
        · exact h

theorem processWebhook_keeps (h : FlagsRight d) (uuid : Id)
    (verification : WebhookVerificationResult) (fetched : Option AssessmentResult) :
    Keeps (WebhookService.processWebhook uuid verification fetched) d := by
  unfold WebhookService.processWebhook AssessmentRepository.findOne
  split
  · exact h
  · split
    · exact h
    · refine settles_select ?_
      split
      · exact h
      · next a hfind =>
        have ha : d.assessment? a.id = some a := Table.get?_of_mem (List.mem_of_find?_eq_some hfind)
        exact finalizeAssessment_keeps h ha uuid none fetched

theorem submitExam_keeps (h : FlagsRight d) (env : Environment)
    (uuid candidateId assessmentId : Id) (answers : List (String × Int)) :
    Keeps (ExamService.submitExam env uuid candidateId assessmentId answers) d := by
  unfold ExamService.submitExam ExamService.loadContext now
  rw [bind_assoc]
  refine loadOwn_settles h fun a ha hst => ?_
  rw [bind_assoc]
  refine settles_select ?_
  have hrest : ∀ questions, Keeps (do
      let time ← select fun db => db.now
      if ExamService.isLate a questions time then
        let _ ← AssessmentRepository.save { a with status := .incident }
        throw .timeExceeded
      else
        let result := ExamService.grade (a.externalAssessmentId.getD (toString assessmentId))
          questions answers
        let _ ← WebhookService.finalizeAssessment uuid a (some result) none
        return result : M AssessmentResult) d := by
    intro questions
    refine settles_select ?_
    split
    · have hopen : a.status ≠ .completed := by
        rw [hst]
        decide
      have hsaved : Keeps (AssessmentRepository.save { a with status := .incident }) d :=
        saveAttempt_settles h ha rfl (Assessment.overwrite_loaded ..) hopen nofun
      exact hsaved.bind fun _ d h => h
    · exact (finalizeAssessment_keeps h ha uuid _ none).returns
  cases d.tests.get? a.testId with
  | none => exact hrest _
  | some t => exact settles_select (hrest _)

end

/-! ## Profiles -/

section

variable {d : Db} {α : Type}

theorem reindex_keeps {userId : Id} (h : ∀ c, c ≠ userId → RightFor d c) :
    Keeps (CandidateProfileService.reindex userId) d := by
  have hplain : (IndexationService.applyThresholds userId).Plain Any (fun _ => False)
      fun _ => True := anyGroups.applyThresholds_plain userId
  refine settles_transaction hplain (fun _ _ h => ⟨rfl, h⟩) ?_
  unfold leaves
  rw [applyThresholds_solo]
  exact ⟨rfl, flagsRight_indexation h⟩

/-- A completeness that changes has the flags computed again. -/
theorem calculateCompleteness_keeps (h : FlagsRight d) (profileId : Id) :
    Keeps (CandidateProfileService.calculateCompleteness profileId) d := by
  unfold CandidateProfileService.calculateCompleteness ProfileRepository.findById
  refine settles_select ?_
  cases hp : d.profiles.get? profileId with
  | none => exact h
  | some p =>
    have hid : p.id = profileId := Table.key_of_get? hp
    rw [← hid] at hp
    refine settles_select ?_
    unfold CandidateProfileService.loadParts
    simp only [bind_assoc]
    refine settles_select (settles_select (settles_select (settles_select ?_)))
    rw [pure_eq, ret_bind]
    generalize CandidateProfileService.completenessOf _ = completeness
    have hsaved : Settles (ProfileRepository.save { p with completeness := completeness })
        (fun d' _ => ∀ userId, (p.completeness = completeness ∨ userId ≠ p.userId) →
          RightFor d' userId) d := by
      refine saveProfile_settles hp (CandidateProfile.overwrite_loaded ..) fun userId hcase => ?_
      split
      · exact h userId
      · next hne =>
        rcases hcase with hsame | hother
        · exact absurd (by rw [← hsame]) hne
        · exact rightFor_other hp hother (h userId)
    refine settles_bind hsaved fun d' _ hd' => ?_
    split
    · exact (reindex_keeps fun c hc => hd' c (.inr hc)).returns
    · next hsame => exact ⟨rfl, fun c => hd' c (.inl (Decidable.not_not.1 hsame))⟩

theorem findOrCreateProfile_quiet (uuid userId : Id) :
    Quietly (CandidateProfileService.findOrCreateProfile uuid userId) := by
  unfold CandidateProfileService.findOrCreateProfile ProfileRepository.findByUserId
  refine (quiet_read _).bind fun p? => ?_
  split
  · exact plain_ret _
  · exact quiet_insertUnique rfl _ _

theorem checkVisibility_settles (h : FlagsRight d) (p : CandidateProfile)
    (visibility : Option ProfileVisibility) :
    Settles (CandidateProfileService.checkVisibility p visibility) (fun d' _ => d' = d) d := by
  unfold CandidateProfileService.checkVisibility
  split
  · exact ⟨rfl, rfl⟩
  · split
    · exact h
    · refine settles_select ?_
      split
      · exact ⟨rfl, rfl⟩
      · exact h

theorem updateProfile_keeps (h : FlagsRight d) (profileId : Id) (data : UpdateProfileDto) :
    Keeps (CandidateProfileService.updateProfile profileId data) d := by
  unfold CandidateProfileService.updateProfile ProfileRepository.findById
  refine settles_select ?_
  cases hp : d.profiles.get? profileId with
  | none => exact h
  | some p =>
    have hid : p.id = profileId := Table.key_of_get? hp
    rw [← hid] at hp
    dsimp only
    split
    · exact h
    · refine settles_bind (checkVisibility_settles h p _) fun d' _ hd' => ?_
      subst hd'
      have hsaved : Keeps (ProfileRepository.save (CandidateProfileService.assigned p data)) d' := by
        refine saveProfile_settles hp (CandidateProfile.overwrite_loaded ..) ?_
        split
        · exact h
        · exact h.saved hp (CandidateProfile.overwrite_loaded ..) rfl rfl rfl
      exact hsaved.bind fun _ d h => (calculateCompleteness_keeps h _).returns

/-! ## The parts of a profile -/

theorem quiet_deleteOwn {β : Type} {w : Write} (hw : isQuiet w = true) (find : Db → Option β)
    (owner : β → Id) (profileId : Id) (message : String) :
    Quietly (deleteOwn find owner profileId w message) := by
  refine plain_query (.inl rfl) (fun db r hr => ?_) fun _ _ _ => trivial
  split at hr
  · cases hr
  · split at hr
    · cases hr
      exact quiet hw
    · cases hr

/-- A call that finds or creates the profile, changes a part of it and calculates the
completeness. -/
theorem keeps_part (h : FlagsRight d) (uuid userId : Id) {f : CandidateProfile → M α}
    (hf : ∀ p d, FlagsRight d → Keeps (f p) d) :
    Keeps (CandidateProfileService.findOrCreateProfile uuid userId >>= f) d :=
  (keeps_quiet (findOrCreateProfile_quiet uuid userId) h).bind hf

theorem keeps_then {β : Type} {p : M β} {f : β → CompletenessResult → α} (hp : Quietly p)
    (h : FlagsRight d) (profileId : Id) :
    Keeps (do
      let saved ← p
      let c ← CandidateProfileService.calculateCompleteness profileId
      return f saved c) d :=
  (keeps_quiet hp h).bind fun _ _ h => (calculateCompleteness_keeps h profileId).returns

theorem add_keeps (h : FlagsRight d) (uuid userId : Id) (dto : AddProfileSkillDto) :
    Keeps (CandidateSkillService.add uuid userId dto) d := by
  unfold CandidateSkillService.add
  refine keeps_part h uuid userId fun p d h => settles_select ?_
  split
  · exact h
  · exact keeps_then ((quiet_insertUnique rfl _ _).mapError fun _ _ => trivial) h p.id

theorem removeSkill_keeps (h : FlagsRight d) (uuid userId profileSkillId : Id) :
    Keeps (CandidateSkillService.remove uuid userId profileSkillId) d := by
  unfold CandidateSkillService.remove
  exact keeps_part h uuid userId fun p d h => keeps_then (quiet_deleteOwn rfl _ _ _ _) h p.id

theorem createExperience_keeps (h : FlagsRight d) (uuid userId : Id) (title : String) :
    Keeps (CandidateExperienceService.create uuid userId title) d := by
  unfold CandidateExperienceService.create
  exact keeps_part h uuid userId fun p d h => keeps_then (quiet_insertUnique rfl _ _) h p.id

theorem updateExperience_keeps (h : FlagsRight d) (uuid userId experienceId : Id)
    (title : Option String) :
    Keeps (CandidateExperienceService.update uuid userId experienceId title) d := by
  unfold CandidateExperienceService.update
  refine keeps_part h uuid userId fun p d h => settles_select ?_
  split
  · exact h
  · dsimp only
    split
    · exact (calculateCompleteness_keeps h p.id).returns
    · exact keeps_then (plain_write fun _ => quiet rfl) h p.id

theorem removeExperience_keeps (h : FlagsRight d) (uuid userId experienceId : Id) :
    Keeps (CandidateExperienceService.remove uuid userId experienceId) d := by
  unfold CandidateExperienceService.remove
  exact keeps_part h uuid userId fun p d h => keeps_then (quiet_deleteOwn rfl _ _ _ _) h p.id

theorem createLink_keeps (h : FlagsRight d) (uuid userId : Id) (url : String) :
    Keeps (CandidateLinkService.create uuid userId url) d := by
  unfold CandidateLinkService.create
  exact keeps_part h uuid userId fun p d h => keeps_then (quiet_insertUnique rfl _ _) h p.id

theorem removeLink_keeps (h : FlagsRight d) (uuid userId linkId : Id) :
    Keeps (CandidateLinkService.remove uuid userId linkId) d := by
  unfold CandidateLinkService.remove
  exact keeps_part h uuid userId fun p d h => keeps_then (quiet_deleteOwn rfl _ _ _ _) h p.id

/-! ## The CV -/

theorem refresh_keeps (h : FlagsRight d) (userId : Id) :
    Keeps (CandidateDocumentService.refresh userId) d := by
  unfold CandidateDocumentService.refresh ProfileRepository.findByUserId
  refine settles_select ?_
  split
  · exact ⟨rfl, h⟩
  · exact (calculateCompleteness_keeps h _).returns

theorem checkFile_quiet (file : UploadedFile) (threat : Option String) :
    Quietly (CandidateDocumentService.checkFile file threat) := by
  unfold CandidateDocumentService.checkFile getNumber
  split
  · exact plain_throw trivial
  · refine (quiet_read _).bind fun maxSize => ?_
    dsimp only
    split
    · exact plain_throw trivial
    · refine (quiet_read _).bind fun types => ?_
      split
      · exact plain_throw trivial
      · refine quiet_outside.bind fun _ => ?_
        split
        · exact plain_throw trivial
        · exact plain_ret _

theorem uploadCV_keeps (h : FlagsRight d) (uuid userId : Id) (file : UploadedFile)
    (threat : Option String) :
    Keeps (CandidateDocumentService.uploadCV uuid userId file threat) d := by
  unfold CandidateDocumentService.uploadCV CandidateDocumentService.findCV
  refine (keeps_quiet (checkFile_quiet file threat) h).bind fun _ d h => ?_
  refine (keeps_quiet quiet_outside h).bind fun _ d h => settles_select ?_
  have hrest : ∀ (document : Document) d, FlagsRight d → Keeps (do
      let saved ← insertUnique
        (fun db => if (db.documents.get? uuid).isSome then some "PK_documents" else none)
        (.insertDocument document) document
      CandidateDocumentService.refresh userId
      return saved) d := fun document d h =>
    (keeps_quiet (quiet_insertUnique rfl _ _) h).bind fun _ d h => (refresh_keeps h userId).returns
  dsimp only
  split
  · exact hrest _ d h
  · refine (keeps_quiet quiet_outside h).bind fun _ d h => ?_
    exact (keeps_quiet (plain_write fun _ => quiet rfl) h).bind fun _ d h => hrest _ d h

theorem deleteCV_keeps (h : FlagsRight d) (userId : Id) :
    Keeps (CandidateDocumentService.deleteCV userId) d := by
  unfold CandidateDocumentService.deleteCV CandidateDocumentService.findCV
  refine settles_select ?_
  split
  · exact h
  · refine (keeps_quiet quiet_outside h).bind fun _ d h => ?_
    exact (keeps_quiet (plain_write fun _ => quiet rfl) h).bind fun _ d h => refresh_keeps h userId

/-! ## Percentiles -/

theorem updateScores_quiet (cohort scores : List Score) :
    Quietly (PercentileRecalcService.updateScores cohort scores) := by
  induction scores with
  | nil => exact plain_ret _
  | cons s scores ih =>
    unfold PercentileRecalcService.updateScores
    split
    · exact ih
    · exact Plain.bind (plain_write fun _ => quiet rfl) fun _ => ih.bind fun _ => plain_ret _

theorem recalculate_quiet : Quietly PercentileRecalcService.recalculate := by
  have hcohorts : ∀ cohorts, Quietly (PercentileRecalcService.recalculateCohorts cohorts) := by
    intro cohorts
    induction cohorts with
    | nil => exact plain_ret _
    | cons cohort cohorts ih =>
      unfold PercentileRecalcService.recalculateCohorts PercentileRecalcService.recalculateCohort
      exact (updateScores_quiet cohort cohort).bind fun _ => ih.bind fun _ => plain_ret _
  unfold PercentileRecalcService.recalculate now
  refine (quiet_read _).bind fun time => (quiet_read _).bind fun scores => ?_
  exact (hcohorts _).bind fun _ => plain_ret _

end

/-! ## The controllers -/

section

variable {d : Db}

theorem getMyProfile_keeps (h : FlagsRight d) (uuid userId : Id) :
    Keeps (CandidateProfileController.getMyProfile uuid userId) d := by
  unfold CandidateProfileController.getMyProfile
  exact keeps_part h uuid userId fun p d h => (calculateCompleteness_keeps h p.id).returns

theorem updateMyProfile_keeps (h : FlagsRight d) (uuid userId : Id) (dto : UpdateProfileDto) :
    Keeps (CandidateProfileController.updateMyProfile uuid userId dto) d := by
  unfold CandidateProfileController.updateMyProfile
  refine keeps_part h uuid userId fun p d h => ?_
  exact (updateProfile_keeps h p.id dto).bind fun _ _ h => (calculateCompleteness_keeps h _).returns

theorem getCompleteness_keeps (h : FlagsRight d) (userId : Id) :
    Keeps (CandidateProfileController.getCompleteness userId) d := by
  unfold CandidateProfileController.getCompleteness ProfileRepository.findByUserId
  refine settles_select ?_
  split
  · exact h
  · exact calculateCompleteness_keeps h _

theorem program_keeps (env : Environment) (i : Nat) (op : Op) (h : FlagsRight d) :
    Keeps (program env i op) d := by
  cases op with
  | clock ms => exact (keeps_quiet (plain_write fun _ => quiet rfl) h).returns
  | startAssessment _ _ _ => exact (keeps_quiet (startAssessment_quiet env i _ _ _) h).returns
  | resumeAssessment _ _ _ => exact (resumeAssessment_keeps h i _ _ _).returns
  | reportIncident _ _ => exact (reportIncident_keeps h _ _).returns
  | recordProctoringEvents _ _ _ => exact (recordProctoringEvents_keeps h _ _ _).returns
  | submitExam _ _ _ => exact (submitExam_keeps h env i _ _ _).returns
  | processWebhook _ _ => exact (processWebhook_keeps h i _ _).returns
  | simulateCompletion candidateId assessmentId fetched =>
    refine Keeps.returns ?_
    exact loadOwn_settles h fun a ha _ => finalizeAssessment_keeps h ha i none fetched
  | recalculate => exact (keeps_quiet recalculate_quiet h).returns
  | getMyProfile _ => exact (getMyProfile_keeps h i _).returns
  | updateMyProfile _ _ => exact (updateMyProfile_keeps h i _ _).returns
  | getCompleteness _ => exact (getCompleteness_keeps h _).returns
  | addSkill _ _ => exact (add_keeps h i _ _).returns
  | removeSkill _ _ => exact (removeSkill_keeps h i _ _).returns
  | createExperience _ _ => exact (createExperience_keeps h i _ _).returns
  | updateExperience _ _ _ => exact (updateExperience_keeps h i _ _ _).returns
  | removeExperience _ _ => exact (removeExperience_keeps h i _ _).returns
  | createLink _ _ => exact (createLink_keeps h i _ _).returns
  | removeLink _ _ => exact (removeLink_keeps h i _ _).returns
  | uploadCV _ _ _ => exact (uploadCV_keeps h i _ _ _).returns
  | deleteCV _ => exact (deleteCV_keeps h _).returns

end

/-! ## Runs -/

/-- The calls run one at a time, a statement fails only where the flags are right, and no
statement changes what the indexation computes without writing it. -/
def keptFresh (s : RunState) : Label Error Op → Prop
  | .spawn _ => s.Idle
  | .step i => (s.issues i).all (keepsComputed s.db) = true
  | .fault _ _ => FlagsRight s.db

theorem settled (env : Environment) : Txn.Settled (system env) keptFresh
    (fun d ws => ws.all (keepsComputed d) = true) FlagsRight where
  alone h := h
  admits h := h
  fails h := h
  prog i op _ h := program_keeps env i op h

theorem flags_right (env : Environment) (d₀ : Db) (s : RunState) (h₀ : FlagsRight d₀)
    (h : (system env).Within keptFresh d₀ s) (hidle : s.Idle) : FlagsRight s.db :=
  h.settled (settled env) h₀ hidle

/-! ## Flags that are wrong -/

theorem flagsRight_of_rows {d : Db}
    (h : ∀ p ∈ d.profiles.rows, (p.indexedInCvtheque, p.featured) = d.flagsOf p) : FlagsRight d :=
  fun _ p hp => h p (List.mem_of_find?_eq_some hp)

/-- The profile of candidate 7, with a completeness of 80. -/
def candidate (indexed featured : Bool) : CandidateProfile :=
  { CandidateProfileService.newProfile 50 7 with
    completeness := 80
    indexedInCvtheque := indexed
    featured := featured }

def withProfile (d : Db) (p : CandidateProfile) : Db :=
  { d with profiles := Table.insert ∅ p }

/-- A completed attempt at the test. -/
def completedAttempt (id candidateId : Id) : Assessment :=
  { firstAttempt with
    id := id
    candidateId := candidateId
    status := .completed }

/-- The score of an attempt, which expires after a day. -/
def scoreOf (assessmentId : Id) (value : Int) (percentile : Option Int) : Score :=
  { oneAttempt.graded assessmentId (completedAttempt assessmentId 7) goodResult with
    value := value
    percentile := percentile
    expiresAt := msPerDay }

/-- Candidate 7 is indexed for a score of 90. -/
def indexedByScore : Db :=
  { withProfile oneTest (candidate true false) with
    assessments := Table.insert ∅ (completedAttempt 0 7)
    scores := Table.insert ∅ (scoreOf 0 9000 none) }

/-- Candidate 7 is indexed for a percentile of 90, with the lower one of two scores. -/
def indexedByPercentile : Db :=
  { withProfile oneTest (candidate true true) with
    assessments := (Table.insert ∅ (completedAttempt 0 7)).insert (completedAttempt 1 8)
    scores := (Table.insert ∅ (scoreOf 0 5000 (some 9000))).insert (scoreOf 1 6000 none) }

theorem flags_right_finalised : ∃ s : RunState,
    (s.db.profileOf 7).map (·.indexedInCvtheque) = some true ∧ FlagsRight s.db := by
  have hrun : ((system .default).runIf
      (fun s l => match l with
        | .spawn _ => decide (s.ops = [])
        | .step i => (s.issues i).all (keepsComputed s.db)
        | .fault _ _ => false)
      (State.init (withProfile oneAttempt (candidate false false))) (alone 0 deliver 21)).map
      (fun s => ((List.range s.ops.length).all fun i => !(s.call i).isRunning,
        (s.db.profileOf 7).map (·.indexedInCvtheque))) = some (true, some true) := by rfl
  obtain ⟨s, hs, hv⟩ := System.within_of_run hrun
  simp only [Prod.mk.injEq, List.all_eq_true, List.mem_range, Bool.not_eq_true'] at hv
  obtain ⟨hdone, hindexed⟩ := hv
  refine ⟨s, hindexed, flags_right .default _ s (flagsRight_of_rows (by decide))
    (hs.weaken fun s l hs hl => ?_) (hs.reachable.fresh.not_running hdone)⟩
  cases l with
  | spawn op =>
    have hnone : s.ops = [] := of_decide_eq_true hl
    refine hs.reachable.fresh.not_running fun i hi => ?_
    rw [hnone] at hi
    cases hi
  | step i => exact hl
  | fault i e => cases hl

/-- The flags after one more call that runs alone. -/
theorem stale_after (d : Db) (op : Op) (n : Nat) (p : CandidateProfile)
    (hrun : ((system .default).runLabels .all (State.init d) (alone 0 op n)).map
      (fun s => (s.ops, (s.call 0).isRunning, s.db.profileOf 7, s.db.flagsOf p)) =
      some ([op], false, some p, (false, false))) (hp : p.indexedInCvtheque = true) :
    ∃ s, (system .default).Reachable d s ∧ s.Idle ∧ s.ops = [op] ∧ ¬ FlagsRight s.db := by
  obtain ⟨s, hs, hv⟩ := System.reach_of_run hrun
  simp only [Prod.mk.injEq] at hv
  obtain ⟨hops, hdone, hprofile, hflags⟩ := hv
  refine ⟨s, hs, hs.fresh.not_running fun i hi => ?_, hops, fun hright => ?_⟩
  · rw [hops] at hi
    obtain rfl : i = 0 := Nat.lt_one_iff.1 hi
    exact hdone
  · have := hright 7 p hprofile
    rw [hflags, hp] at this
    cases this

/-- A candidate stays indexed after the only score has expired, and another one after the
recalculation of the percentiles. -/
theorem flags_stale :
    (¬ ∀ (env : Environment) (d₀ : Db) (s : RunState), FlagsRight d₀ →
      (system env).Reachable d₀ s → s.Idle → s.ops = [.clock msPerDay.toNat] → FlagsRight s.db) ∧
    ¬ ∀ (env : Environment) (d₀ : Db) (s : RunState), FlagsRight d₀ →
      (system env).Reachable d₀ s → s.Idle → s.ops = [.recalculate] → FlagsRight s.db := by
  refine ⟨fun h => ?_, fun h => ?_⟩
  · obtain ⟨s, hs, hidle, hops, hstale⟩ := stale_after indexedByScore
      (.clock msPerDay.toNat) 2 (candidate true false) rfl rfl
    exact hstale (h .default _ s (flagsRight_of_rows (by decide)) hs hidle hops)
  · obtain ⟨s, hs, hidle, hops, hstale⟩ := stale_after indexedByPercentile .recalculate 5
      (candidate true true) rfl rfl
    exact hstale (h .default _ s (flagsRight_of_rows (by decide)) hs hidle hops)

end JobBoard.Assessments.Freshness
