import JobBoard.Lib.Solo
import JobBoard.Assessments.Pieces
import JobBoard.Assessments.Effects

/-!
# Redelivered webhooks

`finalizeAssessment` commits the score, the attempt, two audit entries and the flags
of the profile one after the other, and takes a score for the sign that all is done.
`redelivery_converges` says which crashes a second delivery therefore leaves as they
are: those after the score with more than audit entries still to be written
(`crash_after_score` is one).
-/

set_option autoImplicit false

namespace JobBoard.Assessments

open Txn Prog

/-! ## The uninterrupted finalisation -/

section

variable (d : Db)

/-- The composite score under the settings of `d`. -/
def Db.composite (result : AssessmentResult) : Int :=
  WebhookService.compositeScore result
    ((d.settings.getNumber "score_technique_weight").getD 60)
    ((d.settings.getNumber "score_psychotechnique_weight").getD 40)

def Db.collisions (candidateId : Id) (answerFingerprint : Option String) : Nat :=
  match truthy answerFingerprint with
  | none => 0
  | some fingerprint => d.scores.rows.countP fun s =>
      s.answerFingerprint = some fingerprint &&
        match d.assessment? s.assessmentId with
        | some a => a.candidateId ≠ candidateId
        | none => false

/-- The score of the result. -/
def Db.graded (uuid : Id) (a : Assessment) (result : AssessmentResult) : Score where
  id := uuid
  assessmentId := a.id
  value := d.composite result
  percentile := result.percentile
  technicalScore := result.technicalScore
  psychotechnicalScore := result.psychotechnicalScore
  baremeVersion := (d.settings.get "score_bareme_version").getD "1.0"
  testVersion := ((d.tests.get? a.testId).map (·.version)).getD "unknown"
  plagiarismVerdict :=
    WebhookService.verdict result (d.collisions a.candidateId result.answerFingerprint)
  answerFingerprint := result.answerFingerprint
  domainFeedback := result.domainFeedback
  expiresAt := d.now + (d.settings.getNumber "score_validity_days").getD 365 * 24 * 60 * 60 * 1000

/-- The flags that `applyThresholds` computes for a profile at `time`. -/
def Db.flagsAt (time : Time) (p : CandidateProfile) : Bool × Bool :=
  IndexationService.flags d.settings.thresholds p.completeness
    (IndexationService.validScores d (IndexationService.completedIds d p.userId) time)

abbrev Db.flagsOf (p : CandidateProfile) : Bool × Bool := d.flagsAt d.now p

def CandidateProfile.withFlags (p : CandidateProfile) (f : Bool × Bool) : CandidateProfile :=
  { p with indexedInCvtheque := f.1, featured := f.2 }

/-- What `applyThresholds` writes. -/
def Db.indexation (candidateId : Id) : List (List Write) :=
  match d.profileOf candidateId with
  | none => []
  | some p =>
    if p.withFlags (d.flagsOf p) = p then [] else [[.saveProfile (p.withFlags (d.flagsOf p)) p]]

/-- What the save of the completed attempt writes. -/
def Db.completion (a : Assessment) : List (List Write) :=
  if WebhookService.completed a d.now = a then []
  else [[.saveAssessment (WebhookService.completed a d.now) a]]

/-- The audit entries of a finalisation. -/
def entries (a : Assessment) (s : Score) (collisions : Nat) (test : Option Test) :
    List (List Write) :=
  [[.insertAuditLog ⟨some a.candidateId, .assessmentCompleted, "assessment", a.id,
      [("externalId", .str (a.externalAssessmentId.getD "null")),
        ("normalizedScore", .num s.value)]⟩],
    [.insertAuditLog ⟨some a.candidateId, .scoreCalculated, "score", s.id,
      [("value", .num s.value), ("percentile", .num (s.percentile.getD 0)),
        ("plagiarismVerdict", .str s.plagiarismVerdict.toString),
        ("fingerprintCollision", .bool (collisions > 0)),
        ("baremeVersion", .str s.baremeVersion)] ++
        (test.map fun t => ("testVersion", .str t.version)).toList⟩]]

/-- What a finalisation writes between the score and the flags. -/
def Db.middle (uuid : Id) (a : Assessment) (result : AssessmentResult) : List (List Write) :=
  d.completion a ++ entries a (d.graded uuid a result)
    (d.collisions a.candidateId result.answerFingerprint) (d.tests.get? a.testId)

/-- The attempt is scored and completed. -/
def Db.scoring (uuid : Id) (a : Assessment) (result : AssessmentResult) : List (List Write) :=
  [.insertScore (d.graded uuid a result)] :: d.middle uuid a result

/-- All that a finalisation writes that nothing interrupts. -/
def Db.finalization (uuid : Id) (a : Assessment) (result : AssessmentResult) : List (List Write) :=
  d.scoring uuid a result ++
    (store.applyGroups d (d.scoring uuid a result)).indexation a.candidateId

end

/-! ## The services, uninterrupted -/

section

variable {d : Db}

theorem save_solo {a e : Assessment} (ha : d.assessment? e.id = some a)
    (he : e.overwrite a a = e) :
    (AssessmentRepository.save e).solo store d =
      (if e = a then [] else [[.saveAssessment e a]], .ok e) := by
  unfold AssessmentRepository.save AssessmentRepository.findById
  rw [solo_bind, solo_select, andThen_nil]
  simp only [ha, he]
  split <;> rfl

theorem log_solo (entry : AuditLog) :
    (AuditService.log entry).solo store d = ([[.insertAuditLog entry]], .ok ()) := rfl

theorem insertUnique_solo {α : Type} {violated : Db → Option String} {w : Write} {a : α} :
    (insertUnique violated w a).solo store d =
      match violated d with
      | some constraint => ([], .error (uniqueViolation constraint))
      | none => ([[w]], .ok a) := by
  unfold insertUnique
  rw [solo_query]
  cases violated d <;> rfl

theorem profileOf_get {p : CandidateProfile} {candidateId : Id}
    (h : d.profileOf candidateId = some p) : d.profiles.get? p.id = some p ∧ p.userId = candidateId := by
  refine ⟨Table.get?_of_mem (List.mem_of_find?_eq_some h), ?_⟩
  simpa using List.find?_some h

theorem saveProfile_solo {p e : CandidateProfile} (hp : d.profiles.get? e.id = some p)
    (he : e.overwrite p p = e) :
    (ProfileRepository.save e).solo store d =
      (if e = p then [] else [[.saveProfile e p]], .ok e) := by
  unfold ProfileRepository.save ProfileRepository.findById
  rw [solo_bind, solo_select, andThen_nil]
  simp only [hp, he]
  split <;> rfl

theorem findValidScores_solo (ids : List Id) :
    (IndexationService.findValidScores ids).solo store d =
      ([], .ok (IndexationService.validScores d ids d.now)) := by
  unfold IndexationService.findValidScores IndexationService.validScores
  split
  · next h =>
    subst h
    simp
  · rfl

theorem applyThresholds_solo (candidateId : Id) :
    (IndexationService.applyThresholds candidateId).solo store d =
      (d.indexation candidateId, .ok ()) := by
  unfold IndexationService.applyThresholds ProfileRepository.findByUserId Db.indexation
  rw [solo_bind, solo_select, andThen_nil]
  cases hp : d.profileOf candidateId with
  | none => rfl
  | some p =>
    obtain ⟨hget, rfl⟩ := profileOf_get hp
    have hsave := saveProfile_solo (e := p.withFlags (d.flagsOf p)) hget
      (CandidateProfile.overwrite_loaded ..)
    simp only [solo_bind, solo_select, findValidScores_solo, andThen_nil]
    rw [show ({ p with
        indexedInCvtheque := (IndexationService.flags d.settings.thresholds p.completeness
          (IndexationService.validScores d (IndexationService.completedIds d p.userId) d.now)).1
        featured := (IndexationService.flags d.settings.thresholds p.completeness
          (IndexationService.validScores d (IndexationService.completedIds d p.userId) d.now)).2 } :
        CandidateProfile) = p.withFlags (d.flagsOf p) from rfl, hsave, andThen_ok]
    simp

theorem computeCompositeScore_solo (result : AssessmentResult) :
    (WebhookService.computeCompositeScore result).solo store d = ([], .ok (d.composite result)) := by
  unfold WebhookService.computeCompositeScore Db.composite WebhookService.compositeScore getNumber
  split
  · rfl
  · next h =>
    rw [not_and_or] at h
    simp only [pure_eq, solo_ret]
    cases htech : result.technicalScore with
    | none => rfl
    | some t =>
      cases hpsy : result.psychotechnicalScore with
      | none => rfl
      | some q => simp [htech, hpsy] at h

theorem countCollisions_solo (candidateId : Id) (fingerprint : Option String) :
    (WebhookService.countCollisions candidateId fingerprint).solo store d =
      ([], .ok (d.collisions candidateId fingerprint)) := by
  unfold WebhookService.countCollisions Db.collisions
  generalize truthy fingerprint = fp
  cases fp <;> rfl

theorem complete_solo {a : Assessment} (ha : d.assessment? a.id = some a) (s : Score)
    (collisions : Nat) (test : Option Test) :
    (WebhookService.complete a s collisions test).solo store d =
      (d.completion a ++ entries a s collisions test ++
        (store.applyGroups d (d.completion a ++ entries a s collisions test)).indexation
          a.candidateId, .ok ()) := by
  have hsave := save_solo (e := WebhookService.completed a d.now) ha
    (Assessment.overwrite_loaded ..)
  unfold WebhookService.complete now
  rw [solo_bind, solo_select, andThen_nil, solo_bind, hsave, andThen_ok, solo_bind, log_solo,
    andThen_ok, solo_bind, log_solo, andThen_ok, applyThresholds_solo]
  simp only [Db.completion, entries, Store.applyGroups_append, Store.applyGroups_cons,
    Store.applyGroups_nil, List.append_assoc, List.cons_append, List.nil_append]

theorem score_start (uuid : Id) (a : Assessment) (result : AssessmentResult) :
    (WebhookService.score uuid a result).solo store d =
      (do
        let savedScore ← WebhookService.insertScore (d.graded uuid a result)
        WebhookService.complete a savedScore (d.collisions a.candidateId result.answerFingerprint)
          (d.tests.get? a.testId)
        return ⟨false, savedScore.id⟩ : M WebhookService.Finalized).solo store d := by
  unfold WebhookService.score getNumber now
  simp only [solo_bind, solo_select, computeCompositeScore_solo, countCollisions_solo, andThen_nil]
  rfl

/-- The score is saved, and everything after it. -/
theorem score_solo {uuid : Id} {a : Assessment} {result : AssessmentResult}
    (ha : d.assessment? a.id = some a)
    (hv : WebhookService.scoreViolation (d.graded uuid a result) d = none) :
    (WebhookService.score uuid a result).solo store d =
      (d.finalization uuid a result, .ok ⟨false, uuid⟩) := by
  have hinsert : (WebhookService.insertScore (d.graded uuid a result)).solo store d =
      ([[.insertScore (d.graded uuid a result)]], .ok (d.graded uuid a result)) := by
    unfold WebhookService.insertScore
    rw [insertUnique_solo, hv]
  have hcomplete := complete_solo (d := store.applyGroups d [[.insertScore (d.graded uuid a result)]])
    ha (d.graded uuid a result) (d.collisions a.candidateId result.answerFingerprint)
    (d.tests.get? a.testId)
  rw [score_start, solo_bind, hinsert, andThen_ok, solo_bind, hcomplete, andThen_ok]
  simp only [pure_eq, solo_ret, List.append_nil]
  rfl

/-- Nothing is written when the insert of the score fails. -/
theorem score_fails {uuid : Id} {a : Assessment} {result : AssessmentResult} {constraint : String}
    (hv : WebhookService.scoreViolation (d.graded uuid a result) d = some constraint) :
    (WebhookService.score uuid a result).solo store d =
      ([], .error (uniqueViolation constraint)) := by
  rw [score_start, solo_bind, WebhookService.insertScore, insertUnique_solo, hv]
  rfl

/-- Statements of any kind. -/
abbrev Any : List Write → Prop := fun _ => True

theorem anyGroups : Passes Any fun _ => True :=
  ⟨trivial, fun _ => trivial, fun _ _ => trivial, fun _ => trivial⟩

theorem complete_plain (a : Assessment) (s : Score) (collisions : Nat) (test : Option Test) :
    (WebhookService.complete a s collisions test).Plain Any Any fun _ => True := by
  unfold WebhookService.complete AssessmentRepository.save AssessmentRepository.findById now
  refine (anyGroups.read_plain _).bind fun time => Plain.bind ?_ fun _ => ?_
  · refine (anyGroups.read_plain _).bind fun reread => ?_
    split
    · exact plain_throw trivial
    · split
      · exact plain_ret _
      · exact Plain.bind (plain_write fun _ => trivial) fun _ => plain_ret _
  · refine (anyGroups.log_plain _).bind fun _ => (anyGroups.log_plain _).bind fun _ => ?_
    exact anyGroups.applyThresholds_plain _

theorem score_plain (uuid : Id) (a : Assessment) (result : AssessmentResult) :
    (WebhookService.score uuid a result).Plain Any Any fun _ => True := by
  unfold WebhookService.score getNumber now
  refine (anyGroups.computeCompositeScore_plain _).bind fun _ => ?_
  refine (anyGroups.read_plain _).bind fun _ => (anyGroups.read_plain _).bind fun _ => ?_
  refine (anyGroups.read_plain _).bind fun _ => (anyGroups.read_plain _).bind fun _ => ?_
  refine (anyGroups.countCollisions_plain _ _).bind fun _ => ?_
  refine Plain.bind ?_ fun s => (complete_plain _ _ _ _).bind fun _ => plain_ret _
  exact plain_query trivial (fun _ _ _ => trivial) fun _ _ _ => trivial

theorem processWebhook_plain (uuid : Id) (verification : WebhookVerificationResult)
    (fetched : Option AssessmentResult) :
    (WebhookService.processWebhook uuid verification fetched).Plain Any Any fun _ => True := by
  unfold WebhookService.processWebhook AssessmentRepository.findOne
    WebhookService.finalizeAssessment
  split
  · exact plain_throw trivial
  · split
    · exact plain_throw trivial
    · refine (anyGroups.read_plain _).bind fun found => ?_
      split
      · exact plain_throw trivial
      · dsimp only
        split
        · exact plain_throw trivial
        · refine (anyGroups.read_plain _).bind fun existing => ?_
          split
          · exact plain_ret _
          · refine (anyGroups.obtainResult_plain trivial _ _ _).bind fun result => ?_
            exact score_plain uuid _ result

end

/-! ## One delivery -/

section

variable {d : Db} {a : Assessment} {verification : WebhookVerificationResult}

/-- A delivery of a designated attempt is a finalisation of it. -/
theorem processWebhook_solo (i : Id) (fetched : Option AssessmentResult)
    (h : d.designated verification = some a) :
    (WebhookService.processWebhook i verification fetched).solo store d =
      (WebhookService.finalizeAssessment i a none fetched).solo store d ∧
    (truthy a.externalAssessmentId).isSome = true := by
  simp only [Db.designated] at h
  split at h
  · next hvalid =>
    obtain ⟨externalId, hext, hfind⟩ := Option.bind_eq_some_iff.1 h
    have hid : a.externalAssessmentId = some externalId := by simpa using List.find?_some hfind
    refine ⟨?_, ?_⟩
    · unfold WebhookService.processWebhook AssessmentRepository.findOne
      simp only [hvalid, hext, not_true_eq_false, if_false]
      rw [solo_bind, solo_select, andThen_nil]
      simp only [hfind]
    · rw [hid, ← truthy_some hext, hext]
      rfl
  · cases h

/-- A delivery of an attempt that has a score writes nothing. -/
theorem delivery_scored (env : Environment) (i : Id) (fetched : Option AssessmentResult)
    (h : d.designated verification = some a) {s : Score} (hs : d.scoreOf a.id = some s) :
    (program env i (.processWebhook verification fetched)).solo store d =
      ([], .ok (.finalized ⟨true, s.id⟩)) := by
  obtain ⟨hsolo, hext⟩ := processWebhook_solo i fetched h
  obtain ⟨ext, hext⟩ := Option.isSome_iff_exists.1 hext
  simp only [program]
  rw [solo_bind, hsolo]
  unfold WebhookService.finalizeAssessment
  simp [hext, solo_bind, hs]

/-- A delivery of an attempt without a score fails before it writes anything, or
finalises the attempt. -/
theorem delivery_unscored (env : Environment) (i : Id) (fetched : Option AssessmentResult)
    (h : d.designated verification = some a) (hnone : d.scoreOf a.id = none) :
    (∃ e, (program env i (.processWebhook verification fetched)).solo store d = ([], .error e)) ∨
    ∃ result, fetched = some result ∧ d.scores.get? i = none ∧
      (program env i (.processWebhook verification fetched)).solo store d =
        (d.finalization i a result, .ok (.finalized ⟨false, i⟩)) := by
  obtain ⟨hsolo, hext⟩ := processWebhook_solo i fetched h
  obtain ⟨ext, hext⟩ := Option.isSome_iff_exists.1 hext
  have hload : d.assessment? a.id = some a := designated_load h
  have hfinalize : (WebhookService.finalizeAssessment i a none fetched).solo store d =
      match fetched with
      | none => ([], .error (.badRequest ("No result available from provider for " ++ ext)))
      | some result => (WebhookService.score i a result).solo store d := by
    unfold WebhookService.finalizeAssessment WebhookService.obtainResult
    cases fetched <;> simp [hext, solo_bind, hnone]
  simp only [program]
  rw [solo_bind, hsolo, hfinalize]
  cases fetched with
  | none => exact .inl ⟨_, rfl⟩
  | some result =>
    cases hv : WebhookService.scoreViolation (d.graded i a result) d with
    | none =>
      refine .inr ⟨result, rfl, ?_, ?_⟩
      · simp only [WebhookService.scoreViolation] at hv
        split at hv
        · cases hv
        · next hpk => exact Option.not_isSome_iff_eq_none.1 hpk
      · dsimp only
        rw [score_solo hload hv, andThen_ok]
        simp
    | some constraint =>
      refine .inl ⟨uniqueViolation constraint, ?_⟩
      dsimp only
      rw [score_fails hv]
      rfl

end

/-! ## Where a finalisation may be cut off -/

/-- An entry of the audit trail. -/
def isEntry : List Write → Bool
  | [.insertAuditLog _] => true
  | _ => false

/-- As an uninterrupted finalisation at `time` leaves it: one score, the attempt
COMPLETED, and the flags of the profile with the score included. -/
structure ConvergedAt (d₀ : Db) (a : Assessment) (result : AssessmentResult) (uuid : Id)
    (time : Time) (d : Db) : Prop where
  score : (d.scores.rows.filter fun s => s.assessmentId = a.id) =
    [{ d₀ with now := time }.graded uuid a result]
  attempt : d.assessment? a.id = some (WebhookService.completed a time)
  flags : ∀ p, d.profileOf a.candidateId = some p →
    (p.indexedInCvtheque, p.featured) = d.flagsAt time p

def Converged (d₀ : Db) (a : Assessment) (result : AssessmentResult) (d : Db) : Prop :=
  ∃ uuid time, ConvergedAt d₀ a result uuid time d

/-- What `ConvergedAt` reads is the same. -/
structure SameRows (d d' : Db) : Prop where
  scores : d'.scores = d.scores
  assessments : d'.assessments = d.assessments
  profiles : d'.profiles = d.profiles
  settings : d'.settings = d.settings

section

variable {d d' : Db} {a : Assessment} {result : AssessmentResult} {uuid : Id} {time : Time}

theorem flagsAt_congr (hscores : d'.scores = d.scores) (hassessments : d'.assessments = d.assessments)
    (hsettings : d'.settings = d.settings) (time : Time) (p : CandidateProfile) :
    d'.flagsAt time p = d.flagsAt time p := by
  have hids : IndexationService.completedIds d' p.userId =
      IndexationService.completedIds d p.userId := by
    unfold IndexationService.completedIds
    rw [hassessments]
  unfold Db.flagsAt IndexationService.validScores
  rw [hids, hscores, hsettings]

theorem SameRows.symm (h : SameRows d d') : SameRows d' d :=
  ⟨h.scores.symm, h.assessments.symm, h.profiles.symm, h.settings.symm⟩

theorem SameRows.trans {d'' : Db} (h : SameRows d d') (h' : SameRows d' d'') : SameRows d d'' :=
  ⟨h'.scores.trans h.scores, h'.assessments.trans h.assessments, h'.profiles.trans h.profiles,
    h'.settings.trans h.settings⟩

/-- The clock of the database before does not matter. -/
theorem converged_at (time : Time) :
    Converged d a result d' ↔ Converged { d with now := time } a result d' :=
  ⟨fun ⟨uuid, t, h⟩ => ⟨uuid, t, h.score, h.attempt, h.flags⟩,
    fun ⟨uuid, t, h⟩ => ⟨uuid, t, h.score, h.attempt, h.flags⟩⟩

theorem ConvergedAt.congr {d₀ : Db} (h : ConvergedAt d₀ a result uuid time d)
    (hsame : SameRows d d') : ConvergedAt d₀ a result uuid time d' where
  score := by rw [hsame.scores, h.score]
  attempt := by rw [Db.assessment?, hsame.assessments, ← Db.assessment?, h.attempt]
  flags p hp := by
    rw [Db.profileOf, hsame.profiles, ← Db.profileOf] at hp
    rw [flagsAt_congr hsame.scores hsame.assessments hsame.settings, h.flags p hp]

theorem entries_same {gss : List (List Write)} (h : ∀ ws ∈ gss, isEntry ws = true) (d : Db) :
    SameRows d (store.applyGroups d gss) := by
  have hws : ∀ {σ : Type} (f : Db → σ), (∀ d entry, f (store.apply d (.insertAuditLog entry)) = f d) →
      f (store.applyGroups d gss) = f d := by
    intro σ f hf
    refine store.applyGroups_same d fun ws hws d => ?_
    have := h ws hws
    unfold isEntry at this
    split at this
    · exact hf d _
    · cases this
  exact ⟨hws (·.scores) fun _ _ => rfl, hws (·.assessments) fun _ _ => rfl,
    hws (·.profiles) fun _ _ => rfl, hws (·.settings) fun _ _ => rfl⟩

/-- The first profile of the user, after it is saved. -/
theorem profileOf_save {p e : CandidateProfile} (hp : d.profileOf p.userId = some p)
    (hid : e.id = p.id) (he : e.overwrite p p = e) :
    (store.apply d (.saveProfile e p)).profileOf p.userId = some e := by
  have hfind : (store.apply d (.saveProfile e p)).profileOf p.userId =
      (d.profileOf p.userId).map fun r => if r.id = e.id then e.overwrite p r else r :=
    Table.find?_modify (e.overwrite p) (fun _ => rfl) fun _ => rfl
  rw [hfind, hp, Option.map_some, if_pos hid.symm, he]

/-- The flags of the profile, after `applyThresholds`. -/
theorem indexation_flags {candidateId : Id} {p : CandidateProfile}
    (hp : (store.applyGroups d (d.indexation candidateId)).profileOf candidateId = some p) :
    (p.indexedInCvtheque, p.featured) = d.flagsOf p := by
  unfold Db.indexation at hp
  cases hq : d.profileOf candidateId with
  | none =>
    rw [hq] at hp
    rw [show store.applyGroups d [] = d from rfl, hq] at hp
    cases hp
  | some q =>
    obtain ⟨-, rfl⟩ := profileOf_get hq
    rw [hq] at hp
    dsimp only at hp
    split at hp
    · next hsame =>
      rw [Store.applyGroups_nil, hq] at hp
      cases hp
      rw [← hsame]
      rfl
    · have hsaved := profileOf_save (e := q.withFlags (d.flagsOf q)) hq rfl
        (CandidateProfile.overwrite_loaded ..)
      have hp' : (store.apply d (.saveProfile (q.withFlags (d.flagsOf q)) q)).profileOf q.userId =
        some p := hp
      rw [hsaved] at hp'
      cases hp'
      rfl

theorem Db.indexation_length (d : Db) (candidateId : Id) :
    (d.indexation candidateId).length ≤ 1 := by
  unfold Db.indexation
  split
  · exact Nat.zero_le 1
  · split
    · exact Nat.zero_le 1
    · exact Nat.le_refl 1

/-- `applyThresholds` writes nothing but a profile. -/
theorem indexation_same {σ : Type} {f : Db → σ} (candidateId : Id)
    (hf : ∀ d e r, f (store.apply d (.saveProfile e r)) = f d) :
    f (store.applyGroups d (d.indexation candidateId)) = f d := by
  refine store.applyGroups_same d fun ws hws d' => ?_
  unfold Db.indexation at hws
  split at hws
  · cases hws
  · split at hws
    · cases hws
    · rw [List.mem_singleton] at hws
      rw [hws]
      exact hf d' _ _

/-- The attempt of a finalisation that nothing has started yet. -/
structure Open (d : Db) (uuid : Id) (a : Assessment) : Prop where
  load : d.assessment? a.id = some a
  unscored : d.scoreOf a.id = none
  fresh : d.scores.get? uuid = none

theorem completion_attempt (h : d.assessment? a.id = some a) :
    (store.applyGroups d (d.completion a)).assessment? a.id =
      some (WebhookService.completed a d.now) := by
  unfold Db.completion
  split
  · next hsame => rw [Store.applyGroups_nil, hsame, h]
  · have hsaved := assessment?_save (e := WebhookService.completed a d.now) h rfl
      (Assessment.overwrite_loaded ..) a.id
    rw [if_pos rfl] at hsaved
    exact hsaved

/-- The scores of the attempt, once its score is inserted. -/
theorem Open.scores (h : Open d uuid a) (result : AssessmentResult) :
    ((store.apply d (.insertScore (d.graded uuid a result))).scores.rows.filter fun s =>
      s.assessmentId = a.id) = [d.graded uuid a result] := by
  have hrows : (store.apply d (.insertScore (d.graded uuid a result))).scores.rows =
      d.scores.rows ++ [d.graded uuid a result] := Table.insert_rows h.fresh
  have hnone : (d.scores.rows.filter fun s => decide (s.assessmentId = a.id)) = [] := by
    have := h.unscored
    simp only [Db.scoreOf, List.find?_eq_none, beq_iff_eq] at this
    simpa [List.filter_eq_nil_iff] using this
  rw [hrows, List.filter_append, hnone]
  simp [Db.graded]

theorem isEntry_of_mem {s : Score} {collisions : Nat} {test : Option Test} {ws : List Write}
    (h : ws ∈ entries a s collisions test) : isEntry ws = true := by
  simp only [entries, List.mem_cons, List.not_mem_nil, or_false] at h
  rcases h with rfl | rfl <;> rfl

/-- A group between the score and the flags: the attempt, or an audit entry. -/
theorem scoring_group {ws : List Write}
    (h : ws ∈ d.middle uuid a result) : ws ∈ d.completion a ∨ isEntry ws = true := by
  rw [Db.middle, List.mem_append] at h
  exact h.imp id isEntry_of_mem

theorem mem_completion {ws : List Write} (h : ws ∈ d.completion a) :
    WebhookService.completed a d.now ≠ a ∧
      ws = [.saveAssessment (WebhookService.completed a d.now) a] := by
  unfold Db.completion at h
  split at h
  · cases h
  · next hne => exact ⟨hne, List.mem_singleton.1 h⟩

/-- What the groups between the score and the flags leave alone. -/
theorem scoring_same {σ : Type} {f : Db → σ} {gss : List (List Write)}
    (hgss : ∀ ws ∈ gss, ws ∈ d.completion a ∨ isEntry ws = true)
    (hsave : ∀ d e r, f (store.apply d (.saveAssessment e r)) = f d)
    (hlog : ∀ d entry, f (store.apply d (.insertAuditLog entry)) = f d) (d' : Db) :
    f (store.applyGroups d' gss) = f d' := by
  refine store.applyGroups_same d' fun ws hws d'' => ?_
  rcases hgss ws hws with hws | hws
  · rw [(mem_completion hws).2]
    exact hsave d'' _ _
  · unfold isEntry at hws
    split at hws
    · exact hlog d'' _
    · cases hws

/-- An uninterrupted finalisation. -/
theorem finalization_converges (h : Open d uuid a) (result : AssessmentResult) :
    ConvergedAt d a result uuid d.now (store.applyGroups d (d.finalization uuid a result)) := by
  let d₁ := store.apply d (.insertScore (d.graded uuid a result))
  let d₃ := store.applyGroups d (d.scoring uuid a result)
  have hgss : ∀ ws ∈ d.middle uuid a result, ws ∈ d.completion a ∨ isEntry ws = true :=
    fun ws hws => scoring_group hws
  have hscores : d₃.scores = d₁.scores :=
    scoring_same hgss (f := (·.scores)) (fun _ _ _ => rfl) (fun _ _ => rfl) d₁
  have hnow : d₃.now = d.now :=
    scoring_same hgss (f := (·.now)) (fun _ _ _ => rfl) (fun _ _ => rfl) d₁
  have hassessments : d₃.assessments = (store.applyGroups d₁ (d.completion a)).assessments := by
    show (store.applyGroups d₁ (d.middle uuid a result)).assessments = _
    rw [Db.middle, Store.applyGroups_append]
    exact (entries_same (fun ws hws => isEntry_of_mem hws) _).assessments
  have hdone : (store.applyGroups d₁ (d.completion a)).assessment? a.id =
      some (WebhookService.completed a d.now) := completion_attempt (d := d₁) h.load
  rw [Db.finalization, Store.applyGroups_append]
  have hsame : ∀ {σ : Type} (f : Db → σ),
      (∀ d e r, f (store.apply d (.saveProfile e r)) = f d) →
        f (store.applyGroups d₃ (d₃.indexation a.candidateId)) = f d₃ := fun f hf =>
    indexation_same a.candidateId hf
  refine ⟨?_, ?_, fun p hp => ?_⟩
  · rw [hsame (·.scores) fun _ _ _ => rfl, hscores]
    exact h.scores result
  · rw [Db.assessment?, hsame (·.assessments) fun _ _ _ => rfl, hassessments]
    exact hdone
  · rw [indexation_flags hp, Db.flagsOf, hnow]
    exact (flagsAt_congr (hsame (·.scores) fun _ _ _ => rfl) (hsame (·.assessments) fun _ _ _ => rfl)
      (hsame (·.settings) fun _ _ _ => rfl) _ p).symm

/-- The finalisation has been cut off after the score and the groups `gss`. -/
structure CutOff (d : Db) (uuid : Id) (a : Assessment) (result : AssessmentResult)
    (gss bs : List (List Write)) (e : Db) : Prop where
  opened : Open d uuid a
  middle : d.middle uuid a result = gss ++ bs
  same : SameRows (store.applyGroups d ([.insertScore (d.graded uuid a result)] :: gss)) e

section

variable {gss bs : List (List Write)} {e : Db} {uuid' : Id}

theorem CutOff.group (h : CutOff d uuid a result gss bs e) :
    ∀ ws ∈ gss, ws ∈ d.completion a ∨ isEntry ws = true := fun ws hws => by
  have : ws ∈ d.middle uuid a result := by
    rw [h.middle]
    exact List.mem_append_left _ hws
  exact scoring_group this

/-- The score tells the instant of the finalisation. -/
theorem CutOff.instant (h : CutOff d uuid a result gss bs e)
    (hconv : ConvergedAt d a result uuid' time e) : time = d.now := by
  have hscores : e.scores = (store.apply d (.insertScore (d.graded uuid a result))).scores :=
    h.same.scores.trans
      (scoring_same h.group (f := (·.scores)) (fun _ _ _ => rfl) (fun _ _ => rfl) _)
  have hscore := hconv.score
  rw [hscores, h.opened.scores result, List.cons.injEq] at hscore
  have hexpires := congrArg Score.expiresAt hscore.1
  simp only [Db.graded] at hexpires
  exact ((Int.add_left_inj _).1 hexpires).symm

/-- The attempt has been completed. -/
theorem CutOff.entries (h : CutOff d uuid a result gss bs e)
    (hconv : ConvergedAt d a result uuid' time e) : ∀ ws ∈ bs, isEntry ws = true := by
  intro ws hws
  have hmem : ws ∈ d.middle uuid a result := by
    rw [h.middle]
    exact List.mem_append_right _ hws
  rcases scoring_group hmem with hsave | hentry
  · obtain ⟨hne, hws'⟩ := mem_completion hsave
    -- the save comes first, so that nothing but the score is there
    have hfirst : gss = [] := by
      have hmiddle := h.middle
      have hcomp : d.completion a = [ws] := by
        rw [hws', Db.completion, if_neg hne]
      rw [Db.middle, hcomp, List.cons_append, List.nil_append] at hmiddle
      cases gss with
      | nil => rfl
      | cons y ys =>
        rw [List.cons_append, List.cons.injEq] at hmiddle
        have hentry := isEntry_of_mem (hmiddle.2 ▸ List.mem_append_right ys hws)
        rw [hws'] at hentry
        cases hentry
    have hattempt := hconv.attempt
    rw [Db.assessment?, h.same.assessments, hfirst, h.instant hconv] at hattempt
    have hload : (store.applyGroups d
        [[.insertScore (d.graded uuid a result)]]).assessments.get? a.id = some a := h.opened.load
    rw [hload] at hattempt
    exact absurd (Option.some.inj hattempt).symm hne
  · exact hentry

/-- The thresholds have nothing to change any more. -/
theorem CutOff.indexation (h : CutOff d uuid a result gss bs e)
    (hconv : ConvergedAt d a result uuid' time e) :
    (store.applyGroups d (d.scoring uuid a result)).indexation a.candidateId = [] := by
  have hsame : SameRows e (store.applyGroups d (d.scoring uuid a result)) := by
    have hentries := entries_same (h.entries hconv)
      (store.applyGroups d ([.insertScore (d.graded uuid a result)] :: gss))
    have hd₃ : store.applyGroups d (d.scoring uuid a result) = store.applyGroups
        (store.applyGroups d ([.insertScore (d.graded uuid a result)] :: gss)) bs := by
      rw [← Store.applyGroups_append, List.cons_append, ← h.middle]
      rfl
    rw [hd₃]
    exact h.same.symm.trans hentries
  have hnow : (store.applyGroups d (d.scoring uuid a result)).now = d.now :=
    scoring_same (f := (·.now)) (fun ws hws => scoring_group hws) (fun _ _ _ => rfl)
      (fun _ _ => rfl) (store.apply d (.insertScore (d.graded uuid a result)))
  unfold Db.indexation
  cases hp : (store.applyGroups d (d.scoring uuid a result)).profileOf a.candidateId with
  | none => rfl
  | some p =>
    have hflags := hconv.flags p (by rw [← hp, Db.profileOf, Db.profileOf, hsame.profiles])
    rw [h.instant hconv, ← flagsAt_congr hsame.scores hsame.assessments hsame.settings, ← hnow] at hflags
    refine if_pos ?_
    rw [Db.flagsOf, ← hflags]
    rfl

end

/-- A finalisation that is cut off after its score ends as an uninterrupted one if and
only if nothing but audit entries is missing. -/
theorem converged_iff (h : Open d uuid a) {gss rest : List (List Write)}
    (hall : d.finalization uuid a result = gss ++ rest) (hne : gss ≠ []) {e : Db}
    (he : SameRows (store.applyGroups d gss) e) :
    Converged d a result e ↔ ∀ ws ∈ rest, isEntry ws = true := by
  constructor
  · rintro ⟨uuid', time, hconv⟩ ws hws
    obtain ⟨g, gss', rfl⟩ := List.exists_cons_of_ne_nil hne
    obtain ⟨rfl, hrest⟩ : g = [.insertScore (d.graded uuid a result)] ∧
        d.middle uuid a result ++
          (store.applyGroups d (d.scoring uuid a result)).indexation a.candidateId =
            gss' ++ rest := by
      rw [Db.finalization, Db.scoring, List.cons_append, List.cons_append, List.cons.injEq] at hall
      exact ⟨hall.1.symm, hall.2⟩
    rcases List.append_eq_append_iff.1 hrest with ⟨as, rfl, hflags⟩ | ⟨bs, hmiddle, rfl⟩
    · cases as with
      | nil =>
        have hcut : CutOff d uuid a result (d.middle uuid a result) [] e :=
          ⟨h, (List.append_nil _).symm, by rwa [List.append_nil] at he⟩
        rw [hcut.indexation hconv, List.nil_append] at hflags
        rw [← hflags] at hws
        cases hws
      | cons y ys =>
        have hlen := (store.applyGroups d (d.scoring uuid a result)).indexation_length a.candidateId
        rw [hflags] at hlen
        have := List.length_pos_of_mem hws
        simp only [List.length_append, List.length_cons] at hlen
        omega
    · have hcut : CutOff d uuid a result gss' bs e := ⟨h, hmiddle, he⟩
      rw [hcut.indexation hconv, List.append_nil] at hws
      exact hcut.entries hconv ws hws
  · intro hrest
    refine ⟨uuid, d.now, (finalization_converges h result).congr ?_⟩
    rw [hall, Store.applyGroups_append]
    exact (entries_same hrest _).symm.trans he

end

/-! ## Runs -/

/-- Deliveries of one webhook, for which the provider has this result or none yet,
and the time between them. -/
def deliveryRuns (verification : WebhookVerificationResult) (result : AssessmentResult) :
    Runs Db Write Op where
  ops _ op :=
    match op with
    | .clock _ => true
    | .processWebhook v fetched =>
      v = verification && (fetched = none || fetched = some result)
    | _ => false
  adm _ _ _ := true
  serial := false

/-- A delivery that has failed had written nothing, or everything but audit entries. -/
def NothingMissing (d₀ : Db) (a : Assessment) (result : AssessmentResult) (s : RunState) : Prop :=
  ∀ i e, s.call i = .done (.error e) → publishedBy i s.log = [] ∨
    ∀ ws ∈ ((s.startedOn store d₀ i).finalization i a result).drop (publishedBy i s.log).length,
      isEntry ws = true

section

variable {d₀ : Db} {a : Assessment} {result : AssessmentResult} {s t : RunState}

/-- The delivery `k` has saved the score at `time`, and published `gss` in all. -/
structure ScoredBy (d₀ : Db) (a : Assessment) (result : AssessmentResult) (s : RunState) (k : Id)
    (time : Time) (gss rest : List (List Write)) : Prop where
  published : publishedBy k s.log = single gss
  nonempty : gss ≠ []
  startedOn : s.startedOn store d₀ k = { d₀ with now := time }
  fresh : d₀.scores.get? k = none
  all : ({ d₀ with now := time } : Db).finalization k a result = gss ++ rest
  db : s.db = { store.applyGroups { d₀ with now := time } gss with now := s.db.now }
  call : (∃ e, s.call k = .done (.error e)) ∨ rest = []
  others : ∀ i e, i ≠ k → s.call i = .done (.error e) → publishedBy i s.log = []

/-- No delivery has written anything. -/
structure Waiting (d₀ : Db) (s : RunState) : Prop where
  db : s.db = { d₀ with now := s.db.now }
  delivered : ∀ i f, s.call i ≠ .done (.ok (.finalized f))
  failed : ∀ i e, s.call i = .done (.error e) → publishedBy i s.log = []

/-- At rest. -/
structure Rest (d₀ : Db) (a : Assessment) (result : AssessmentResult) (s : RunState) : Prop where
  tidy : s.Tidy store d₀
  saved : Waiting d₀ s ∨ ∃ k time gss rest, ScoredBy d₀ a result s k time gss rest

/-- A call that leaves everything but the clock as it is. -/
theorem Waiting.after (h : Waiting d₀ t) (ht : t.Tidy store d₀) {op : Op} {gs : Published Write}
    {d : Db} {r : Except Error Result} (hd : d = { t.db with now := d.now })
    (hr : ∀ f, r ≠ .ok (.finalized f)) (hgs : ∀ e, r = .error e → gs = []) :
    Waiting d₀ (t.after op gs d r) where
  db := by
    show d = _
    rw [hd, h.db]
    rfl
  delivered i f hi := by
    by_cases hk : i = t.ops.length
    · subst hk
      rw [State.after_call_self] at hi
      cases hi
      exact hr f rfl
    · rw [State.after_call_other hk] at hi
      exact h.delivered i f hi
  failed i e hi := by
    by_cases hk : i = t.ops.length
    · subst hk
      rw [State.after_call_self] at hi
      cases hi
      rw [ht.published_self]
      exact hgs e rfl
    · rw [State.after_call_other hk] at hi
      rw [State.after_published_other hk]
      exact h.failed i e hi

theorem ScoredBy.after {k : Id} {time : Time} {gss rest : List (List Write)}
    (h : ScoredBy d₀ a result t k time gss rest) (ht : t.Tidy store d₀) {op : Op}
    {gs : Published Write} {d : Db} {r : Except Error Result}
    (hd : d = { t.db with now := d.now }) (hgs : ∀ e, r = .error e → gs = []) :
    ScoredBy d₀ a result (t.after op gs d r) k time gss rest := by
  have hk : k ≠ t.ops.length := by
    rintro rfl
    have hnone : publishedBy t.ops.length t.log = [] :=
      publishedBy_other fun g hg => Nat.ne_of_lt (ht.log g hg)
    have hpub := h.published
    rw [hnone] at hpub
    exact h.nonempty (List.map_eq_nil_iff.1 hpub.symm)
  have hpub : publishedBy k t.log ≠ [] := by
    rw [h.published]
    exact fun hnil => h.nonempty (List.map_eq_nil_iff.1 hnil)
  refine ⟨?_, h.nonempty, ?_, h.fresh, h.all, ?_, ?_, fun i e hi hfail => ?_⟩
  · rw [State.after_published_other hk, h.published]
  · rw [State.after_startedOn_other hpub, h.startedOn]
  · show d = _
    rw [hd, h.db]
    rfl
  · rw [State.after_call_other hk]
    exact h.call
  · by_cases hlast : i = t.ops.length
    · subst hlast
      rw [State.after_call_self] at hfail
      cases hfail
      rw [ht.published_self]
      exact hgs e rfl
    · rw [State.after_call_other hlast] at hfail
      rw [State.after_published_other hlast]
      exact h.others i e hi hfail

/-- A piece of a run alone: what it ends with, and where it may be cut off. -/
theorem rest_covers {op : Op} {fault : Error → Prop}
    {r : List (List Write) × Except Error Result}
    (h : ∀ gss x, (gss <+: r.1 ∧ ∃ e, x = .error e) ∨ (gss = r.1 ∧ x = r.2) →
      Rest d₀ a result (t.after op (single gss) (store.applyGroups t.db gss) x)) :
    Covers store fault (fun _ _ => True)
      (fun gs d e => Rest d₀ a result (t.after op gs d (.error e)))
      (fun tx gs d x => tx = none ∧ Rest d₀ a result (t.after op gs d (.ok x))) [] t.db r where
  inv _ _ := trivial
  fail gss e hgss _ := h gss (.error e) (.inl ⟨hgss, e, rfl⟩)
  ok x hx := ⟨rfl, h r.1 (.ok x) (.inr ⟨rfl, hx.symm⟩)⟩
  error e he := h r.1 (.error e) (.inr ⟨rfl, he.symm⟩)

/-- The groups of a finalisation, by kind. -/
theorem finalization_group {d : Db} {uuid : Id} {ws : List Write}
    (h : ws ∈ d.finalization uuid a result) :
    ws = [.insertScore (d.graded uuid a result)] ∨ (∃ e, ws = [.saveAssessment e a]) ∨
      (∃ entry, ws = [.insertAuditLog entry]) ∨ ∃ e r, ws = [.saveProfile e r] := by
  rw [Db.finalization, Db.scoring, List.cons_append, List.mem_cons, List.mem_append] at h
  rcases h with rfl | hmiddle | hflags
  · exact .inl rfl
  · rcases scoring_group hmiddle with hsave | hentry
    · exact .inr (.inl ⟨_, (mem_completion hsave).2⟩)
    · unfold isEntry at hentry
      split at hentry
      · exact .inr (.inr (.inl ⟨_, rfl⟩))
      · cases hentry
  · unfold Db.indexation at hflags
    split at hflags
    · cases hflags
    · split at hflags
      · cases hflags
      · exact .inr (.inr (.inr ⟨_, _, List.mem_singleton.1 hflags⟩))

/-- The webhook is still about the attempt. -/
theorem designated_groups {verification : WebhookVerificationResult} {d : Db} {uuid : Id}
    {gss : List (List Write)} (h : d.designated verification = some a)
    (hgss : gss <+: d.finalization uuid a result) :
    ∃ a', (store.applyGroups d gss).designated verification = some a' ∧ a'.id = a.id := by
  refine store.applyGroups_keeps d
    (P := fun d => ∃ a', d.designated verification = some a' ∧ a'.id = a.id)
    (fun ws hws d' hd' => ?_) ⟨a, h, rfl⟩
  rcases finalization_group (hgss.subset hws) with rfl | ⟨e, rfl⟩ | ⟨entry, rfl⟩ | ⟨e, r, rfl⟩
  · exact hd'
  · obtain ⟨a', ha', hid⟩ := hd'
    have hfind : ∀ externalId, (store.apply d' (.saveAssessment e a)).assessments.rows.find?
        (·.externalAssessmentId = some externalId) =
        (d'.assessments.rows.find? (·.externalAssessmentId = some externalId)).map fun row =>
          if row.id = e.id then e.overwrite a row else row := fun externalId =>
      Table.find?_modify (e.overwrite a) (fun _ => rfl) fun _ => rfl
    simp only [Db.designated] at ha'
    split at ha'
    · next hvalid =>
      obtain ⟨externalId, hext, ha'⟩ := Option.bind_eq_some_iff.1 ha'
      refine ⟨if a'.id = e.id then e.overwrite a a' else a', ?_, ?_⟩
      · show (store.apply d' (.saveAssessment e a)).designated verification = _
        rw [Db.designated, if_pos hvalid, hext, Option.bind_some, hfind, ha', Option.map_some]
      · split
        · exact hid
        · exact hid
    · cases ha'
  · exact hd'
  · exact hd'

/-- A score that is saved stays. -/
theorem scored_groups {d : Db} {uuid : Id} {gss : List (List Write)} (h : Open d uuid a)
    (hgss : gss <+: d.finalization uuid a result) (hne : gss ≠ []) :
    ∃ s, (store.applyGroups d gss).scoreOf a.id = some s := by
  rw [← Option.isSome_iff_exists]
  obtain ⟨g, gss', rfl⟩ := List.exists_cons_of_ne_nil hne
  obtain rfl : g = [.insertScore (d.graded uuid a result)] := by
    rw [Db.finalization, Db.scoring, List.cons_append, List.cons_prefix_cons] at hgss
    exact hgss.1
  have hv : WebhookService.scoreViolation (d.graded uuid a result) d = none := by
    unfold WebhookService.scoreViolation
    rw [show (d.graded uuid a result).id = uuid from rfl, h.fresh,
      show (d.graded uuid a result).assessmentId = a.id from rfl, h.unscored]
    rfl
  rw [Store.applyGroups_cons]
  refine store.applyGroups_keeps (store.applyAll d [.insertScore (d.graded uuid a result)])
    (P := fun d => (d.scoreOf a.id).isSome = true) (fun ws hws d' hd' => ?_) ?_
  · rcases finalization_group (hgss.subset (List.mem_cons_of_mem _ hws)) with
      rfl | ⟨e, rfl⟩ | ⟨entry, rfl⟩ | ⟨e, r, rfl⟩
    · exact scoreOf_insert_isSome hd'
    · exact hd'
    · exact hd'
    · exact hd'
  · exact Option.isSome_iff_exists.2 ⟨_, scoreOf_insertScore hv⟩

/-- A delivery, from rest to rest. -/
theorem webhook_rest (env : Environment) {verification : WebhookVerificationResult}
    (hdes : d₀.designated verification = some a) (hnone : d₀.scoreOf a.id = none)
    (h : Rest d₀ a result t) {fetched : Option AssessmentResult}
    (hfetched : fetched = none ∨ fetched = some result) {gss : List (List Write)}
    {x : Except Error Result} {r : List (List Write) × Except Error Result}
    (hr : (program env t.ops.length (.processWebhook verification fetched)).solo store t.db = r)
    (hx : (gss <+: r.1 ∧ ∃ e, x = .error e) ∨ (gss = r.1 ∧ x = r.2)) :
    Rest d₀ a result (t.after (.processWebhook verification fetched) (single gss)
      (store.applyGroups t.db gss) x) := by
  obtain ⟨htidy, hsaved⟩ := h
  refine ⟨htidy.after _ gss x, ?_⟩
  rcases hsaved with hwait | ⟨k, time, gss₀, rest, hsaved⟩
  · have hdes' : t.db.designated verification = some a := by
      rw [hwait.db]
      exact hdes
    have hnone' : t.db.scoreOf a.id = none := by
      rw [hwait.db]
      exact hnone
    -- nothing is written, and the delivery fails
    have fails : gss = [] → (∃ e, x = .error e) → Waiting d₀ (t.after
        (.processWebhook verification fetched) (single gss) (store.applyGroups t.db gss) x) := by
      rintro rfl ⟨e, rfl⟩
      exact hwait.after htidy rfl (fun f hf => by cases hf) fun _ _ => rfl
    rcases delivery_unscored env t.ops.length fetched hdes' hnone'
      with ⟨e, hsolo⟩ | ⟨result', hres, hfresh, hsolo⟩
    · rw [hr] at hsolo
      subst hsolo
      rcases hx with ⟨hgss, herr⟩ | ⟨hgss, herr⟩
      · exact .inl (fails (List.prefix_nil.1 hgss) herr)
      · exact .inl (fails hgss ⟨e, herr⟩)
    · rw [hr] at hsolo
      subst hsolo
      obtain rfl : result' = result := by
        rcases hfetched with hf | hf <;> rw [hf] at hres <;> cases hres
        rfl
      by_cases hne : gss = []
      · rcases hx with ⟨-, herr⟩ | ⟨hgss, -⟩
        · exact .inl (fails hne herr)
        · rw [hne] at hgss
          cases hgss
      · obtain ⟨rest, hrest, hend⟩ : ∃ rest, t.db.finalization t.ops.length a result' = gss ++ rest ∧
            ((∃ e, x = .error e) ∨ rest = []) := by
          rcases hx with ⟨⟨rest, hrest⟩, herr⟩ | ⟨hgss, -⟩
          · exact ⟨rest, hrest.symm, .inl herr⟩
          · exact ⟨[], by rw [hgss, List.append_nil], .inr rfl⟩
        refine .inr ⟨t.ops.length, t.db.now, gss, rest, htidy.published_self, hne, ?_, ?_, ?_, ?_,
          ?_, fun i e hi hfail => ?_⟩
        · rw [htidy.startedOn_self hne]
          exact hwait.db
        · rw [hwait.db] at hfresh
          exact hfresh
        · rw [← hwait.db]
          exact hrest
        · rw [← hwait.db]
          rfl
        · rw [State.after_call_self]
          exact hend.imp (fun ⟨e, he⟩ => ⟨e, by rw [he]⟩) id
        · rw [State.after_call_other hi] at hfail
          rw [State.after_published_other hi]
          exact hwait.failed i e hfail
  · have hopen : Open { d₀ with now := time } k a := ⟨designated_load hdes, hnone, hsaved.fresh⟩
    have hprefix : gss₀ <+: ({ d₀ with now := time } : Db).finalization k a result :=
      ⟨rest, hsaved.all.symm⟩
    obtain ⟨a', hdes', hid⟩ := designated_groups (d := { d₀ with now := time }) hdes hprefix
    obtain ⟨sc, hsc⟩ := scored_groups hopen hprefix hsaved.nonempty
    have hdes'' : t.db.designated verification = some a' := by
      rw [hsaved.db]
      exact hdes'
    have hscored : t.db.scoreOf a'.id = some sc := by
      rw [hsaved.db, hid]
      exact hsc
    have hsolo := delivery_scored env t.ops.length fetched hdes'' hscored
    rw [hr] at hsolo
    subst hsolo
    obtain rfl : gss = [] := by
      rcases hx with ⟨hgss, -⟩ | ⟨hgss, -⟩
      · exact List.prefix_nil.1 hgss
      · exact hgss
    exact .inr ⟨k, time, gss₀, rest, hsaved.after htidy rfl fun _ _ => rfl⟩

theorem deliveries_rest (env : Environment) {verification : WebhookVerificationResult}
    (hdes : d₀.designated verification = some a) (hnone : d₀.scoreOf a.id = none) :
    Alone (system env) (oneAtATime (deliveryRuns verification result)) (Rest d₀ a result)
      (fun _ _ _ _ => True) where
  begin _ _ _ := trivial
  prog {t op} _ ht hop := by
    cases op
    case clock ms =>
      have still : ∀ {gs : Published Write} {d : Db} {r : Except Error Result},
          d = { t.db with now := d.now } → (∀ f, r ≠ .ok (.finalized f)) →
          (∀ e, r = .error e → gs = []) → (t.after (.clock ms) gs d r).Tidy store d₀ →
          Rest d₀ a result (t.after (.clock ms) gs d r) := by
        intro gs d r hd hr hgs htidy
        refine ⟨htidy, ?_⟩
        rcases ht.saved with hwait | ⟨k, time, gss, rest, hsaved⟩
        · exact .inl (hwait.after ht.tidy hd hr hgs)
        · exact .inr ⟨k, time, gss, rest, hsaved.after ht.tidy hd hgs⟩
      refine alone_then (alone_write (fun e _ => ?_) fun _ => ⟨trivial, rfl, ?_⟩)
      · exact still rfl (by simp) (fun _ _ => rfl) (ht.tidy.after _ [] _)
      · refine ⟨rfl, still (r := .ok .unit) rfl (fun f hf => ?_) (fun e he => ?_)
          (ht.tidy.after _ [[.tick ms]] _)⟩
        · cases hf
        · cases he
    case processWebhook v fetched =>
      simp only [deliveryRuns, oneAtATime, Bool.and_eq_true, decide_eq_true_eq, Bool.or_eq_true] at hop
      obtain ⟨rfl, hfetched⟩ := hop
      have hplain : (program env t.ops.length (.processWebhook v fetched)).Plain Any Any
          fun _ => True := (processWebhook_plain _ _ _).bind fun _ => plain_ret _
      refine hplain.alone_solo (rest_covers fun gss x hx => ?_)
      exact webhook_rest env hdes hnone ht hfetched rfl hx
    all_goals cases hop

/-- Once a delivery has answered, the state is that of an uninterrupted finalisation if
and only if no delivery had failed between the score and the last of its other writes. -/
theorem redelivery_converges (env : Environment) (d₀ : Db) (s : RunState) (a : Assessment)
    (verification : WebhookVerificationResult) (result : AssessmentResult)
    (hdes : d₀.designated verification = some a) (hnone : d₀.scoreOf a.id = none)
    (h : (system env).Reach (oneAtATime (deliveryRuns verification result)) d₀ s)
    (hidle : s.Idle) (hdelivered : ∃ i f, s.call i = .done (.ok (.finalized f))) :
    Converged d₀ a result s.db ↔ NothingMissing d₀ a result s := by
  have hinit : Rest d₀ a result (State.init d₀) :=
    ⟨⟨rfl, by simp [State.init]⟩, .inl ⟨rfl, fun _ _ => (nomatch ·), fun _ _ => (nomatch ·)⟩⟩
  obtain ⟨-, hwait | ⟨k, time, gss, rest, hsaved⟩⟩ :=
    h.onward.idle (deliveries_rest env hdes hnone) rfl (fun _ => rfl) hinit hidle
  · obtain ⟨i, f, hf⟩ := hdelivered
    exact absurd hf (hwait.delivered i f)
  · have hopen : Open { d₀ with now := time } k a := ⟨designated_load hdes, hnone, hsaved.fresh⟩
    have hsame : SameRows (store.applyGroups { d₀ with now := time } gss) s.db := by
      rw [hsaved.db]
      exact ⟨rfl, rfl, rfl, rfl⟩
    have hiff := (converged_at time).trans (converged_iff hopen hsaved.all hsaved.nonempty hsame)
    have hdrop : ((s.startedOn store d₀ k).finalization k a result).drop
        (publishedBy k s.log).length = rest := by
      rw [hsaved.startedOn, hsaved.all, hsaved.published, single, List.length_map, List.drop_left]
    rw [hiff]
    constructor
    · intro hrest i e hfail
      by_cases hi : i = k
      · subst hi
        rw [hdrop]
        exact .inr hrest
      · exact .inl (hsaved.others i e hi hfail)
    · intro hmissing
      rcases hsaved.call with ⟨e, hfail⟩ | rfl
      · rcases hmissing k e hfail with hnil | hrest
        · rw [hsaved.published] at hnil
          exact absurd (List.map_eq_nil_iff.1 hnil) hsaved.nonempty
        · rwa [hdrop] at hrest
      · simp

end

/-! ## A crash after the score -/

/-- The first attempt at the test, in progress. -/
def firstAttempt : Assessment :=
  AssessmentService.newAssessment .default 0 7 20 ⟨20, 10, "1.0", 60, true⟩ none none false 0

def oneAttempt : Db := { oneTest with assessments := Table.insert ∅ firstAttempt }

def goodResult : AssessmentResult where
  externalId := "ext_0"
  score := 9000
  maxScore := 10000
  percentile := some 9500
  plagiarismVerdict := .clean
  domainFeedback := []
  technicalScore := none
  psychotechnicalScore := none
  answerFingerprint := none

/-- The webhook of the attempt. -/
def deliver : Op := .processWebhook ⟨true, some "ext_0"⟩ (some goodResult)

/-- The first delivery fails right after its score; the second one finds the score, and
the attempt stays in progress. -/
theorem crash_after_score :
    ¬ ∀ (env : Environment) (d₀ : Db) (s : RunState) (a : Assessment)
      (verification : WebhookVerificationResult) (result : AssessmentResult),
      d₀.designated verification = some a → d₀.scoreOf a.id = none →
      (system env).Reach (oneAtATime (deliveryRuns verification result)) d₀ s → s.Idle →
      (∃ i f, s.call i = .done (.ok (.finalized f))) → Converged d₀ a result s.db := by
  intro h
  have hrun : ((system .default).runLabels (oneAtATime (deliveryRuns ⟨true, some "ext_0"⟩ goodResult))
      (State.init oneAttempt) (alone 0 deliver 8 ++ .fault 0 .unavailable :: .step 0 ::
        alone 1 deliver 3)).map
      (fun s => ((List.range s.ops.length).all fun i => !(s.call i).isRunning, s.call 1,
        (s.db.assessment? 0).map (·.status))) =
      some (true, .done (.ok (.finalized ⟨true, 0⟩)), some .inProgress) := by
    rfl
  obtain ⟨s, hs, hv⟩ := System.reach_of_run hrun
  simp only [Prod.mk.injEq, List.all_eq_true, List.mem_range, Bool.not_eq_true'] at hv
  obtain ⟨hdone, hcall, hst⟩ := hv
  obtain ⟨uuid, time, hconv⟩ := h .default oneAttempt s firstAttempt ⟨true, some "ext_0"⟩ goodResult
    (by decide) (by decide) hs (hs.fresh.not_running hdone) ⟨1, _, hcall⟩
  rw [show s.db.assessment? 0 = _ from hconv.attempt] at hst
  cases hst

/-- The condition admits a delivery that fails before it has written anything. -/
theorem redelivery_converges_early : ∃ s : RunState, Converged oneAttempt firstAttempt goodResult s.db ∧
    ∃ e, s.call 0 = .done (.error e) := by
  have hrun : ((system .default).runLabels (oneAtATime (deliveryRuns ⟨true, some "ext_0"⟩ goodResult))
      (State.init oneAttempt) (alone 0 deliver 3 ++ .fault 0 .unavailable :: .step 0 ::
        alone 1 deliver 15)).map
      (fun s => ((List.range s.ops.length).all fun i => !(s.call i).isRunning, s.call 0, s.call 1,
        s.log.all fun g => g.call = 1)) =
      some (true, .done (.error .unavailable), .done (.ok (.finalized ⟨false, 1⟩)), true) := by
    rfl
  obtain ⟨s, hs, hv⟩ := System.reach_of_run hrun
  simp only [Prod.mk.injEq, List.all_eq_true, List.mem_range, Bool.not_eq_true',
    decide_eq_true_eq] at hv
  obtain ⟨hdone, hfailed, hcall, hlog⟩ := hv
  refine ⟨s, (redelivery_converges .default oneAttempt s firstAttempt ⟨true, some "ext_0"⟩ goodResult
    (by decide) (by decide) hs (hs.fresh.not_running hdone) ⟨1, _, hcall⟩).2 fun i e hi => ?_,
    _, hfailed⟩
  refine .inl (publishedBy_other fun g hg => ?_)
  rw [hlog g hg]
  rintro rfl
  rw [hcall] at hi
  cases hi

end JobBoard.Assessments
