import Mathlib.Data.List.Nodup
import JobBoard.Assessments.Questions
import JobBoard.Assessments.Submission

/-!
# The exam of an attempt

For every name of a specialty and every seed the exam has 20 technical questions, all those of the
profile among them, and 10 psychotechnical ones, no two the same (`examForSpecialty_sound`); an
attempt is graded on the questions that it was shown.
-/

set_option autoImplicit false

namespace JobBoard.Assessments

open Txn Prog

namespace Questions

/-! ## The banks -/

/-- The ids of all questions. -/
def allIds : List String :=
  (PROFILE_TECH.flatMap (·.2)).map (·.id) ++ (SHARED_TECH.map (·.id) ++ PSYCHO.map (·.id))

set_option maxRecDepth 10000 in
theorem allIds_nodup : allIds.Nodup := by decide +kernel

theorem psycho_type : ∀ q ∈ PSYCHO, q.type = .psychotechnical := by decide

theorem shared_type : ∀ q ∈ SHARED_TECH, q.type = .technical := by decide

theorem profile_bank : ∀ entry ∈ PROFILE_TECH, entry.2.length = 8 ∧
    ∀ q ∈ entry.2, q.type = .technical := by decide

theorem alias_profile : ∀ entry ∈ ALIASES, entry.2 ∈ PROFILE_NAMES := by decide

theorem default_profile : "Software Engineer" ∈ PROFILE_NAMES := by decide

section

variable {bank : List ExamQuestion} {profile : CodeUnits}

theorem ids_nodup {key : String} (h : (key, bank) ∈ PROFILE_TECH) :
    (bank.map (·.id) ++ (SHARED_TECH.map (·.id) ++ PSYCHO.map (·.id))).Nodup := by
  refine allIds_nodup.sublist ((List.Sublist.map _ ?_).append_right _)
  exact List.sublist_flatten_of_mem (List.mem_map_of_mem (f := Prod.snd) h)

/-! ## The profile of a name -/

/-- A name of the object's own. -/
def Own (profile : CodeUnits) (bank : List ExamQuestion) : Prop :=
  profileBank profile = some bank ∧ ∃ key, (key, bank) ∈ PROFILE_TECH

theorem property_own {α : Type} {table : List (String × α)} {name : CodeUnits} {value : α}
    (h : property table name = .own value) : ∃ key, (key, value) ∈ table := by
  unfold property at h
  split at h
  · next entry hfind =>
    cases h
    exact ⟨entry.1, List.mem_of_find?_eq_some hfind⟩
  · split at h
    · cases h
    · cases h

theorem own_of_property (h : property PROFILE_TECH profile = .own bank) : Own profile bank := by
  refine ⟨?_, property_own h⟩
  unfold profileBank
  rw [h]

theorem own_of_name {key : String} (h : key ∈ PROFILE_NAMES) : ∃ bank, Own (utf16 key) bank := by
  have hsome : (PROFILE_TECH.find? fun entry => utf16 entry.1 = utf16 key).isSome := by
    obtain ⟨entry, hentry, rfl⟩ := List.mem_map.1 h
    exact List.find?_isSome.2 ⟨entry, hentry, by simp⟩
  obtain ⟨entry, hentry⟩ := Option.isSome_iff_exists.1 hsome
  refine ⟨entry.2, own_of_property ?_⟩
  unfold property
  rw [hentry]

/-- A name that no object inherits. -/
def Plain (name : CodeUnits) : Prop := name ∉ OBJECT_PROTOTYPE.map utf16

theorem Plain.not_inherited {α : Type} {table : List (String × α)} {name : CodeUnits}
    (h : Plain name) : property table name ≠ .inherited := by
  unfold property
  split
  · exact fun hown => nomatch hown
  · rw [if_neg h]
    exact fun hmissing => nomatch hmissing

theorem resolveProfile_own (toLowerCase : CodeUnits → CodeUnits) (specialtyName : Option CodeUnits)
    (h : ∀ name, specialtyName = some name → Plain name) :
    ∃ bank, Own (resolveProfile toLowerCase specialtyName) bank := by
  cases specialtyName with
  | none => exact own_of_name default_profile
  | some name =>
    unfold resolveProfile
    dsimp only
    split
    · exact own_of_name default_profile
    · split
      · next bank hown => exact ⟨bank, own_of_property hown⟩
      · next hinherited => exact absurd hinherited (h name rfl).not_inherited
      · split
        · next profile halias =>
          obtain ⟨key, hkey⟩ := property_own halias
          exact own_of_name (alias_profile _ hkey)
        · next hinherited => exact absurd hinherited (h name rfl).not_inherited
        · cases hci : caseInsensitive toLowerCase name with
          | none => exact own_of_name default_profile
          | some key => exact own_of_name (List.mem_of_find?_eq_some hci)

/-! ## The drawing -/

/-- 20 technical questions with the whole bank of the profile, and 10 psychotechnical ones. -/
structure IsExam (bank questions : List ExamQuestion) : Prop where
  sections : ∃ technical psycho, questions = technical ++ psycho ∧
    technical.length = 20 ∧ psycho.length = 10 ∧
    (∀ q ∈ technical, q.type = .technical ∧ (q ∈ bank ∨ q ∈ SHARED_TECH)) ∧
    (∀ q ∈ psycho, q.type = .psychotechnical ∧ q ∈ PSYCHO) ∧
    ∀ q ∈ bank, q ∈ technical
  distinct : (questions.map (·.id)).Nodup

theorem seededShuffle_perm {α : Type} (items : List α) (seed : CodeUnits) :
    (seededShuffle items seed).Perm items := Shuffle.perm

theorem examForSpecialty_isExam {toLowerCase : CodeUnits → CodeUnits}
    {specialtyName : Option CodeUnits}
    (h : Own (resolveProfile toLowerCase specialtyName) bank) (seed : CodeUnits) :
    ∃ questions, examForSpecialty toLowerCase specialtyName seed = some questions ∧
      IsExam bank questions := by
  obtain ⟨hbank, key, hkey⟩ := h
  obtain ⟨hlength, htypes⟩ := profile_bank _ hkey
  have hpt := seededShuffle_perm bank (seed ++ utf16 ":pt")
  have hst := seededShuffle_perm SHARED_TECH (seed ++ utf16 ":st")
  have hpsy := seededShuffle_perm PSYCHO (seed ++ utf16 ":psy")
  unfold examForSpecialty
  dsimp only
  rw [hbank]
  refine ⟨_, rfl, ⟨_, _, rfl, ?_, ?_, ?_, ?_, ?_⟩, ?_⟩
  · rw [List.length_take, List.length_append, hpt.length_eq, hst.length_eq, hlength]
    rfl
  · rw [List.length_take, hpsy.length_eq]
    rfl
  · intro q hq
    rcases List.mem_append.1 (List.mem_of_mem_take hq) with hq | hq
    · exact ⟨htypes q (hpt.mem_iff.1 hq), .inl (hpt.mem_iff.1 hq)⟩
    · exact ⟨shared_type q (hst.mem_iff.1 hq), .inr (hst.mem_iff.1 hq)⟩
  · intro q hq
    have hin := hpsy.mem_iff.1 (List.mem_of_mem_take hq)
    exact ⟨psycho_type q hin, hin⟩
  · intro q hq
    rw [List.take_append, List.take_of_length_le (by rw [hpt.length_eq, hlength]; decide)]
    exact List.mem_append_left _ (hpt.mem_iff.2 hq)
  · refine List.Nodup.sublist (List.Sublist.map _ ((List.take_sublist _ _).append
      (List.take_sublist _ _))) ?_
    have hperm := ((hpt.append hst).append hpsy).map (·.id)
    refine hperm.nodup_iff.2 ?_
    rw [List.map_append, List.map_append, List.append_assoc]
    exact ids_nodup hkey

end

end Questions

/-! ## Showing and grading -/

namespace ExamService

/-- A question without its answer. -/
structure ExamQuestionPublic where
  id : String
  type : QuestionType
  domain : String
  timeLimitSeconds : Int
  deriving DecidableEq, Repr

structure ExamPayload where
  assessmentId : Id
  specialtyName : Option String
  technicalCount : Nat
  psychotechnicalCount : Nat
  totalTimeSeconds : Int
  questions : List ExamQuestionPublic
  deriving DecidableEq, Repr

def toPublic (q : ExamQuestion) : ExamQuestionPublic :=
  ⟨q.id, q.type, q.domain, timeLimitForType q.type⟩

section

variable (env : Environment)

def getExam (candidateId assessmentId : Id) : M ExamPayload := do
  let (_, questions, specialtyName) ← Submission.loadNamedContext env candidateId assessmentId
  let publicQuestions := questions.map toPublic
  return {
    assessmentId := assessmentId
    specialtyName := specialtyName
    technicalCount := (questions.filter (·.type = .technical)).length
    psychotechnicalCount := (questions.filter (·.type = .psychotechnical)).length
    totalTimeSeconds := (publicQuestions.map (·.timeLimitSeconds)).sum
    questions := publicQuestions }

end

end ExamService

namespace Questions

/-- The environment that draws from the banks, for the text of an id; where drawing throws, no
question. -/
def withBanks (env : Environment) (toLowerCase : CodeUnits → CodeUnits) (text : Id → CodeUnits) :
    Environment :=
  { env with
    examForSpecialty := fun name id =>
      (examForSpecialty toLowerCase (name.map utf16) (text id)).getD [] }

/-- Two databases tell the same name for the specialty of an attempt. -/
def SameName (d d' : Db) (assessmentId : Id) : Prop :=
  (d.assessment? assessmentId).bind (Submission.specialtyName d) =
    (d'.assessment? assessmentId).bind (Submission.specialtyName d')

/-- What was shown on `d` is what is graded on `d'`. -/
def SameSet (env : Environment) (toLowerCase : CodeUnits → CodeUnits) (text : Id → CodeUnits) :
    Prop :=
  ∀ (d d' : Db) (candidateId assessmentId uuid : Id) (answers : List (String × Int))
    (gss gss' : List (List Write)) (payload : ExamService.ExamPayload) (r : AssessmentResult),
    (ExamService.getExam (withBanks env toLowerCase text) candidateId assessmentId).solo store d =
      (gss, .ok payload) →
    (ExamService.submitExam (withBanks env toLowerCase text) uuid candidateId assessmentId
      answers).solo store d' = (gss', .ok r) →
    SameName d d' assessmentId →
    (∀ name, payload.specialtyName = some name → Plain (utf16 name)) →
    ∃ bank questions externalId,
      examForSpecialty toLowerCase (payload.specialtyName.map utf16) (text assessmentId) =
        some questions ∧ IsExam bank questions ∧
      payload.questions = questions.map ExamService.toPublic ∧
      r = ExamService.grade externalId questions answers

theorem sameSet (env : Environment) (toLowerCase : CodeUnits → CodeUnits)
    (text : Id → CodeUnits) : SameSet env toLowerCase text := by
  intro d d' candidateId assessmentId uuid answers gss gss' payload r hget hsubmit hname hplain
  unfold ExamService.getExam at hget
  obtain ⟨_, ⟨assessment, questions, name⟩, _, hload, hget, -⟩ := solo_bind_ok hget
  obtain ⟨rfl, ha, rfl, rfl⟩ := Submission.loadNamedContext_ok _ hload
  cases hget
  obtain ⟨assessment', f, ha', rfl, -⟩ := Submission.submitExam_finalizes _ hsubmit
  have hid : assessment.id = assessmentId := Table.key_of_get? ha
  have hid' : assessment'.id = assessmentId := Table.key_of_get? ha'
  unfold SameName at hname
  rw [ha, ha'] at hname
  have hname' : Submission.specialtyName d' assessment' = Submission.specialtyName d assessment :=
    hname.symm
  have hplain' : ∀ name, (Submission.specialtyName d assessment).map utf16 = some name →
      Plain name := by
    intro name h
    obtain ⟨s, hs, rfl⟩ := Option.map_eq_some_iff.1 h
    exact hplain s hs
  obtain ⟨bank, hown⟩ := resolveProfile_own toLowerCase _ hplain'
  obtain ⟨questions, hquestions, hexam⟩ := examForSpecialty_isExam hown (text assessmentId)
  have hdraw : ∀ (e : Db) (a : Assessment), a.id = assessmentId →
      Submission.specialtyName e a = Submission.specialtyName d assessment →
      ExamService.questionsOf (withBanks env toLowerCase text) e a = questions := by
    intro e a hid hname
    show (examForSpecialty toLowerCase ((Submission.specialtyName e a).map utf16)
      (text a.id)).getD [] = questions
    rw [hname, hid, hquestions, Option.getD_some]
  refine ⟨bank, questions, assessment'.externalAssessmentId.getD (toString assessmentId), hquestions,
    hexam, ?_, ?_⟩
  · show (ExamService.questionsOf _ d assessment).map ExamService.toPublic = _
    rw [hdraw d assessment hid rfl]
  · rw [hdraw d' assessment' hid' hname']

/-- Every name, every seed, every list, every attempt. -/
theorem examForSpecialty_sound (toLowerCase : CodeUnits → CodeUnits) :
    (∀ (specialtyName : Option CodeUnits) (seed : CodeUnits),
      (∀ name, specialtyName = some name → Plain name) →
        ∃ bank questions, Own (resolveProfile toLowerCase specialtyName) bank ∧
          examForSpecialty toLowerCase specialtyName seed = some questions ∧
          IsExam bank questions) ∧
    (∀ (α : Type) (items : List α) (seed : CodeUnits), (seededShuffle items seed).Perm items) ∧
    ∀ (env : Environment) (text : Id → CodeUnits), SameSet env toLowerCase text := by
  refine ⟨fun specialtyName seed h => ?_, fun _ items seed => seededShuffle_perm items seed,
    fun env text => sameSet env toLowerCase text⟩
  obtain ⟨bank, hown⟩ := resolveProfile_own toLowerCase specialtyName h
  obtain ⟨questions, hquestions, hexam⟩ := examForSpecialty_isExam hown seed
  exact ⟨bank, questions, hown, hquestions, hexam⟩

/-- A display name of the catalogue. -/
theorem examForSpecialty_sound_alias : ∃ bank questions,
    Own (resolveProfile id (some (utf16 "Génie Logiciel"))) bank ∧
      examForSpecialty id (some (utf16 "Génie Logiciel")) (utf16 "1") = some questions ∧
      IsExam bank questions := by
  refine (examForSpecialty_sound id).1 _ _ fun name h => ?_
  cases h
  show utf16 "Génie Logiciel" ∉ OBJECT_PROTOTYPE.map utf16
  decide

end Questions

end JobBoard.Assessments
