import JobBoard.Assessments.Composite
import JobBoard.Assessments.Grading
import JobBoard.Assessments.Redelivery

/-!
# The score of a submission

`submitExam` answers with the composite that `grade` has computed, 60 to 40 and rounded to a whole
number; the row that `finalizeAssessment` saves is computed again from the two sub-scores, with
the weights of the settings and two decimals. `scoreValue_iff` says when the two are one number.
-/

set_option autoImplicit false

namespace JobBoard.Assessments

open Txn Prog

namespace Submission

open Composite Grading

/-- What `submitExam` hands to `finalizeAssessment`. -/
def reported (graded : Graded) : Composite.Reported where
  technicalScore := some graded.technicalScore
  psychotechnicalScore := some graded.psychotechnicalScore
  score := graded.composite
  maxScore := 100

/-- The composite of `grade` is the value that `computeCompositeScore` makes of its result. -/
def Agrees (getNumber : String → Option Rat) (questions : List ExamQuestion) (answers : Answers) :
    Prop :=
  ((grade questions answers).composite : Rat) =
    computeCompositeScore getNumber (reported (grade questions answers))

def weightedMean (getNumber : String → Option Rat) (t p : Rat) : Rat :=
  (t * techWeight getNumber + p * psychoWeight getNumber) /
    (techWeight getNumber + psychoWeight getNumber)

/-- The whole number next to `0.6 * t + 0.4 * p` is also, up to half a hundredth, the mean of `t`
and `p` with the weights of the settings. -/
def MeansMeet (getNumber : String → Option Rat) (t p : Int) : Prop :=
  ∃ c : Int, 10 * c ≤ 6 * t + 4 * p + 5 ∧ 6 * t + 4 * p + 5 < 10 * (c + 1) ∧
    if techWeight getNumber + psychoWeight getNumber ≤ 0 then c = 0
    else -1 / 200 ≤ weightedMean getNumber t p - c ∧ weightedMean getNumber t p - c < 1 / 200

section

variable {getNumber : String → Option Rat}

theorem composite_eq_iff {t p c : Int} :
    Grading.composite t p = c ↔ 10 * c ≤ 6 * t + 4 * p + 5 ∧ 6 * t + 4 * p + 5 < 10 * (c + 1) := by
  rw [Grading.composite_eq, mathRound_iff (by omega)]
  constructor
  · rintro ⟨hlow, hhigh⟩
    exact ⟨by omega, by omega⟩
  · rintro ⟨hlow, hhigh⟩
    exact ⟨by omega, by omega⟩

theorem meansMeet_iff (t p : Int) :
    (Grading.composite t p : Rat) = Composite.composite getNumber t p ↔
      MeansMeet getNumber t p := by
  have hvalue : ∀ c : Int, Composite.composite getNumber t p = c ↔
      if techWeight getNumber + psychoWeight getNumber ≤ 0 then c = 0
      else -1 / 200 ≤ weightedMean getNumber t p - c ∧
        weightedMean getNumber t p - c < 1 / 200 := by
    intro c
    rw [Composite.composite_eq]
    split
    · rw [eq_comm]
      exact_mod_cast Iff.rfl
    · exact toHundredths_eq_intCast
  constructor
  · intro h
    obtain ⟨hlow, hhigh⟩ := composite_eq_iff.1 (Eq.refl (Grading.composite t p))
    exact ⟨Grading.composite t p, hlow, hhigh, (hvalue _).1 h.symm⟩
  · rintro ⟨c, hlow, hhigh, hmean⟩
    rw [composite_eq_iff.2 ⟨hlow, hhigh⟩, (hvalue c).2 hmean]

theorem agrees_iff (questions : List ExamQuestion) (answers : Answers) :
    Agrees getNumber questions answers ↔
      MeansMeet getNumber (pct answers (tech questions)) (pct answers (psy questions)) := by
  rw [← meansMeet_iff]
  rfl

/-- With the weights that are in force where none is set. -/
theorem meansMeet_default (htech : getNumber "score_technique_weight" = none)
    (hpsycho : getNumber "score_psychotechnique_weight" = none) (t p : Int) :
    MeansMeet getNumber t p ↔ 5 ∣ 3 * t + 2 * p := by
  have ht : techWeight getNumber = 60 := by rw [techWeight, htech, Option.getD_none]
  have hp : psychoWeight getNumber = 40 := by rw [psychoWeight, hpsycho, Option.getD_none]
  have hmean : weightedMean getNumber t p = ((3 * t + 2 * p : Int) : Rat) / 5 := by
    rw [weightedMean, ht, hp]
    push_cast
    ring
  have hsum : ¬ (60 : Rat) + 40 ≤ 0 := by norm_num
  unfold MeansMeet
  simp only [ht, hp, if_neg hsum, hmean]
  constructor
  · rintro ⟨c, -, -, hlow, hhigh⟩
    have hlow' : -1 ≤ (40 * (3 * t + 2 * p - 5 * c) : Rat) := by push_cast at hlow; linarith
    have hhigh' : (40 * (3 * t + 2 * p - 5 * c) : Rat) < 40 := by push_cast at hhigh; linarith
    have hlow'' : -1 ≤ 40 * (3 * t + 2 * p - 5 * c) := by exact_mod_cast hlow'
    have hhigh'' : 40 * (3 * t + 2 * p - 5 * c) < 40 := by exact_mod_cast hhigh'
    exact ⟨c, by omega⟩
  · rintro ⟨c, hc⟩
    have hcast : ((3 * t + 2 * p : Int) : Rat) / 5 - c = 0 := by
      rw [hc]
      push_cast
      ring
    refine ⟨c, by omega, by omega, ?_, ?_⟩
    · rw [hcast]
      norm_num
    · rw [hcast]
      norm_num

end

/-! ## A submission -/

section

variable (env : Environment) {db : Db} {uuid candidateId assessmentId : Id}
  {answers : List (String × Int)}

/-- The numbers in the settings table. -/
def numbers (db : Db) (key : String) : Option Rat :=
  (db.settings.getNumber key).map fun number => (number : Rat)

/-- The saved value of two sub-scores, in hundredths. -/
theorem composite_hundredths (db : Db) (result : AssessmentResult) (t p : Int)
    (ht : result.technicalScore = some (100 * t))
    (hp : result.psychotechnicalScore = some (100 * p)) :
    (db.composite result : Rat) / 100 = Composite.composite (numbers db) t p := by
  have htech : techWeight (numbers db) =
      (((db.settings.getNumber "score_technique_weight").getD 60 : Int) : Rat) := by
    unfold techWeight numbers
    cases db.settings.getNumber "score_technique_weight" <;> rfl
  have hpsycho : psychoWeight (numbers db) =
      (((db.settings.getNumber "score_psychotechnique_weight").getD 40 : Int) : Rat) := by
    unfold psychoWeight numbers
    cases db.settings.getNumber "score_psychotechnique_weight" <;> rfl
  unfold Db.composite WebhookService.compositeScore roundQuotient
  rw [ht, hp, Composite.composite_eq, htech, hpsycho]
  generalize (db.settings.getNumber "score_technique_weight").getD 60 = w
  generalize (db.settings.getNumber "score_psychotechnique_weight").getD 40 = v
  by_cases hsum : w + v ≤ 0
  · have hsum' : (w : Rat) + v ≤ 0 := by exact_mod_cast hsum
    simp only [if_pos hsum, if_pos hsum']
    norm_num
  · have hsum' : ¬ (w : Rat) + v ≤ 0 := by exact_mod_cast hsum
    simp only [if_neg hsum, if_neg hsum']
    rw [mathRound_eq_round _ (by omega), toHundredths]
    congr 3
    push_cast
    ring

/-- The name of the specialty that an attempt is about. -/
def specialtyName (db : Db) (assessment : Assessment) : Option String :=
  let test := db.tests.get? assessment.testId
  let specialty := test.bind fun t => db.specialties.get? t.specialtyId
  specialty.map (·.name)

/-- `loadContext`, with the name of the specialty. -/
def loadNamedContext (candidateId assessmentId : Id) :
    M (Assessment × List ExamQuestion × Option String) := do
  let assessment ← AssessmentService.loadOwn candidateId assessmentId .inProgress
    "Assessment is not in progress"
  let test ← select fun db => db.tests.get? assessment.testId
  let specialty ← match test with
    | none => pure none
    | some t => select fun db => db.specialties.get? t.specialtyId
  let name := specialty.map (·.name)
  return (assessment, env.examForSpecialty name assessment.id, name)

/-- The submission does without the name. -/
theorem loadContext_eq : ExamService.loadContext env candidateId assessmentId =
    (loadNamedContext env candidateId assessmentId >>= fun loaded =>
      return (loaded.1, loaded.2.1)) := by
  unfold ExamService.loadContext loadNamedContext
  simp only [bind_assoc]
  congr 1
  funext assessment
  congr 1
  funext test
  cases test <;> rfl

theorem loadNamedContext_solo :
    (loadNamedContext env candidateId assessmentId).solo store db =
      ([], match db.assessment? assessmentId with
        | none => .error (.notFound "Assessment not found")
        | some assessment =>
          if assessment.candidateId ≠ candidateId then .error (.forbidden "Access denied")
          else if assessment.status ≠ .inProgress then
            .error (.badRequest "Assessment is not in progress")
          else .ok (assessment, ExamService.questionsOf env db assessment,
            specialtyName db assessment)) := by
  unfold loadNamedContext AssessmentService.loadOwn AssessmentRepository.findById
  rw [solo_bind, solo_bind, solo_select, andThen_nil]
  cases db.assessment? assessmentId with
  | none => rfl
  | some assessment =>
    dsimp only
    split
    · rfl
    · split
      · rfl
      · rw [pure_eq, solo_ret, andThen_nil, solo_bind, solo_select, andThen_nil]
        unfold ExamService.questionsOf specialtyName
        cases db.tests.get? assessment.testId <;> rfl

theorem loadNamedContext_ok {gss : List (List Write)} {assessment : Assessment}
    {questions : List ExamQuestion} {name : Option String}
    (h : (loadNamedContext env candidateId assessmentId).solo store db =
      (gss, .ok (assessment, questions, name))) :
    gss = [] ∧ db.assessment? assessmentId = some assessment ∧
      questions = ExamService.questionsOf env db assessment ∧ name = specialtyName db assessment := by
  rw [loadNamedContext_solo] at h
  obtain ⟨rfl, h⟩ := Prod.mk.inj h
  split at h
  · cases h
  · next a ha =>
    split at h
    · cases h
    · split at h
      · cases h
      · cases h
        exact ⟨rfl, ha, rfl, rfl⟩

/-- A submission that is answered finalises the attempt with what `grade` has made of it. -/
theorem submitExam_finalizes {gss : List (List Write)} {r : AssessmentResult}
    (h : (ExamService.submitExam env uuid candidateId assessmentId answers).solo store db =
      (gss, .ok r)) :
    ∃ assessment f, db.assessment? assessmentId = some assessment ∧
      r = ExamService.grade (assessment.externalAssessmentId.getD (toString assessmentId))
        (ExamService.questionsOf env db assessment) answers ∧
      (WebhookService.finalizeAssessment uuid assessment (some r) none).solo store db =
        (gss, .ok f) := by
  unfold ExamService.submitExam now at h
  rw [loadContext_eq, bind_assoc] at h
  obtain ⟨gs, ⟨assessment, questions, name⟩, gs', hload, h, rfl⟩ := solo_bind_ok h
  obtain ⟨rfl, ha, rfl, rfl⟩ := loadNamedContext_ok env hload
  rw [pure_eq, ret_bind] at h
  rw [Store.applyGroups_nil] at h
  dsimp only at h
  rw [solo_bind, solo_select, andThen_nil] at h
  split at h
  · obtain ⟨gs, _, gs', _, hthrow, _⟩ := solo_bind_ok h
    cases hthrow
  · obtain ⟨gs, f, gs'', hfinal, hret, rfl⟩ := solo_bind_ok h
    cases hret
    refine ⟨assessment, f, ha, rfl, ?_⟩
    rw [hfinal]
    simp

/-- It is the first score of the attempt, or nothing is written. -/
theorem finalizeAssessment_given {assessment : Assessment} {r : AssessmentResult}
    {gss : List (List Write)} {f : WebhookService.Finalized}
    (ha : db.assessment? assessment.id = some assessment)
    (h : (WebhookService.finalizeAssessment uuid assessment (some r) none).solo store db =
      (gss, .ok f)) :
    (∃ s, db.scoreOf assessment.id = some s ∧
      (store.applyGroups db gss).scoreOf assessment.id = some s) ∨
    (db.scoreOf assessment.id = none ∧
      (store.applyGroups db gss).scoreOf assessment.id = some (db.graded uuid assessment r)) := by
  unfold WebhookService.finalizeAssessment at h
  dsimp only at h
  rw [if_neg fun hnone => nomatch hnone.2] at h
  obtain ⟨_, _, gss, hfound, h, rfl⟩ := solo_bind_ok h
  cases hfound
  rw [Store.applyGroups_nil] at h
  rw [List.nil_append]
  dsimp only at h
  cases hs : db.scoreOf assessment.id with
  | some s =>
    rw [hs] at h
    cases h
    exact .inl ⟨s, rfl, hs⟩
  | none =>
    rw [hs] at h
    refine .inr ⟨rfl, ?_⟩
    have hobtain : (WebhookService.obtainResult (truthy assessment.externalAssessmentId) (some r)
        none).solo store db = ([], .ok r) := by
      unfold WebhookService.obtainResult
      rfl
    dsimp only at h
    rw [solo_bind, hobtain, andThen_nil] at h
    cases hv : WebhookService.scoreViolation (db.graded uuid assessment r) db with
    | some constraint =>
      rw [score_fails hv] at h
      cases h
    | none =>
      rw [score_solo ha hv] at h
      cases h
      have hfresh : db.scores.get? uuid = none := by
        unfold WebhookService.scoreViolation at hv
        split at hv
        · cases hv
        · next hnone => simpa [Db.graded] using hnone
      have hrows : ((store.applyGroups db (db.finalization uuid assessment r)).scores.rows.filter
          fun s => s.assessmentId = assessment.id) = [db.graded uuid assessment r] :=
        (finalization_converges ⟨ha, hs, hfresh⟩ r).score
      have hmem : ∀ s, s ∈ (store.applyGroups db (db.finalization uuid assessment r)).scores.rows ∧
          s.assessmentId = assessment.id ↔ s = db.graded uuid assessment r := by
        intro s
        rw [← List.mem_singleton (a := s), ← hrows, List.mem_filter, decide_eq_true_iff]
      unfold Db.scoreOf
      cases hfind : (store.applyGroups db
          (db.finalization uuid assessment r)).scores.rows.find? (·.assessmentId == assessment.id) with
      | none =>
        obtain ⟨hin, hid⟩ := (hmem (db.graded uuid assessment r)).2 rfl
        have := List.find?_eq_none.1 hfind _ hin
        simp [hid] at this
      | some s =>
        have hid := List.find?_some hfind
        rw [(hmem s).1 ⟨List.mem_of_find?_eq_some hfind, by simpa using hid⟩]

/-- The whole number next to `0.6 * t + 0.4 * p` is the value of the row. -/
def RowMeets (sc : Score) (t p : Int) : Prop :=
  ∃ c : Int, 10 * c ≤ 6 * t + 4 * p + 5 ∧ 6 * t + 4 * p + 5 < 10 * (c + 1) ∧ sc.value = 100 * c

/-- What the answered submission `r` and the row of the attempt in `db'` say is the same, just if
the means meet; an attempt that has a row already keeps it. -/
def Submitted (db db' : Db) (assessmentId : Id) (answers : List (String × Int))
    (r : AssessmentResult) : Prop :=
  ∃ assessment sc, db.assessment? assessmentId = some assessment ∧
    db'.scoreOf assessmentId = some sc ∧
    (r.score = sc.value ↔
      let questions := ExamService.questionsOf env db assessment
      let t := pct (answersOf answers) (tech questions)
      let p := pct (answersOf answers) (psy questions)
      match db.scoreOf assessmentId with
      | none => MeansMeet (numbers db) t p
      | some earlier => RowMeets earlier t p)

theorem rowMeets_iff {sc : Score} {t p : Int} :
    100 * Grading.composite t p = sc.value ↔ RowMeets sc t p := by
  constructor
  · intro h
    obtain ⟨hlow, hhigh⟩ := composite_eq_iff.1 (Eq.refl (Grading.composite t p))
    exact ⟨_, hlow, hhigh, h.symm⟩
  · rintro ⟨c, hlow, hhigh, hvalue⟩
    rw [composite_eq_iff.2 ⟨hlow, hhigh⟩, hvalue]

theorem submitExam_submitted {gss : List (List Write)} {r : AssessmentResult}
    (h : (ExamService.submitExam env uuid candidateId assessmentId answers).solo store db =
      (gss, .ok r)) :
    Submitted env db (store.applyGroups db gss) assessmentId answers r := by
  obtain ⟨assessment, f, ha, hr, hfinal⟩ := submitExam_finalizes env h
  have hid : assessment.id = assessmentId := Table.key_of_get? ha
  subst hid
  rw [result_eq] at hr
  refine ⟨assessment, ?_⟩
  rcases finalizeAssessment_given ha hfinal with ⟨s, hs, hafter⟩ | ⟨hs, hafter⟩
  · refine ⟨s, ha, hafter, ?_⟩
    rw [hs, hr]
    exact rowMeets_iff
  · refine ⟨_, ha, hafter, ?_⟩
    let t := pct (answersOf answers) (tech (ExamService.questionsOf env db assessment))
    let p := pct (answersOf answers) (psy (ExamService.questionsOf env db assessment))
    have hvalue := composite_hundredths db r t p (by rw [hr]; rfl) (by rw [hr]; rfl)
    have hscore : (r.score : Rat) / 100 = Grading.composite t p := by
      rw [hr]
      show ((100 * Grading.composite t p : Int) : Rat) / 100 = _
      push_cast
      field_simp
    rw [hs]
    show r.score = db.composite r ↔ MeansMeet (numbers db) t p
    rw [← meansMeet_iff, ← hscore, ← hvalue, div_left_inj' (by norm_num)]
    exact_mod_cast Iff.rfl

end

/-- A question of each kind. -/
def shortExam : List ExamQuestion :=
  [⟨"q1", .technical, "git", 0⟩, ⟨"q2", .psychotechnical, "logic", 2⟩]

/-- Weights of 70 and 30. -/
def otherWeights : String → Option Rat
  | "score_technique_weight" => some 70
  | "score_psychotechnique_weight" => some 30
  | _ => none

end Submission

end JobBoard.Assessments
