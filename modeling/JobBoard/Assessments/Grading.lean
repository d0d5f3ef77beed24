import Mathlib.Tactic.Linarith
import Mathlib.Tactic.Positivity
import Mathlib.Order.Interval.Set.Basic
import Mathlib.Algebra.Order.BigOperators.Group.List
import JobBoard.Lib.Grouping
import JobBoard.Model.Rounding
import JobBoard.Assessments.Scoring
import Mathlib.Data.Int.ConditionallyCompleteOrder

/-!
# Grading an exam

`ExamService.grade` over the rational numbers, with its grouping by domain as the loop over a map
that it is. The two scores and the composite are whole numbers between 0 and 100, an answer put
right counts once and lowers nothing, and the domains partition the questions (`grade_sound`). The
hundredths that `ExamService.grade` hands on are the same.
-/

set_option autoImplicit false

namespace JobBoard.Assessments

namespace DomainFeedbackLevel

def rank : DomainFeedbackLevel → Nat
  | weak => 0
  | medium => 1
  | strong => 2

end DomainFeedbackLevel

namespace Grading

/-- `answers[id]`. -/
abbrev Answers := String → Option Rat

def isCorrect (answers : Answers) (q : ExamQuestion) : Bool := answers q.id = some (q.correct : Rat)

def pct (answers : Answers) (set : List ExamQuestion) : Int :=
  if set.length = 0 then 0
  else round (((set.filter (isCorrect answers)).length : Rat) / set.length * 100)

/-- An entry of `byDomain`. -/
structure Entry where
  domain : String
  ok : Nat
  total : Nat
  deriving DecidableEq, Repr

/-- `byDomain.set(entry.domain, entry)`: a new key is the last one. -/
def set (entry : Entry) : List Entry → List Entry
  | [] => [entry]
  | e :: rest => if e.domain = entry.domain then entry :: rest else e :: set entry rest

/-- One turn of the loop. -/
def tally (answers : Answers) (byDomain : List Entry) (q : ExamQuestion) : List Entry :=
  let entry := (byDomain.find? (·.domain = q.domain)).getD ⟨q.domain, 0, 0⟩
  set { entry with
    total := entry.total + 1
    ok := if isCorrect answers q then entry.ok + 1 else entry.ok } byDomain

def byDomain (questions : List ExamQuestion) (answers : Answers) : List Entry :=
  questions.foldl (tally answers) []

def level (ratio : Rat) : DomainFeedbackLevel :=
  if ratio ≥ 7 / 10 then .strong else if ratio ≥ 4 / 10 then .medium else .weak

def Entry.feedback (entry : Entry) : DomainFeedbackEntry :=
  ⟨entry.domain, level ((entry.ok : Rat) / entry.total)⟩

structure Graded where
  composite : Int
  technicalScore : Int
  psychotechnicalScore : Int
  correct : Nat
  total : Nat
  domainFeedback : List DomainFeedbackEntry
  deriving DecidableEq, Repr

def tech (questions : List ExamQuestion) : List ExamQuestion :=
  questions.filter (·.type = .technical)

def psy (questions : List ExamQuestion) : List ExamQuestion :=
  questions.filter (·.type = .psychotechnical)

/-- `Math.round(technicalScore * 0.6 + psychotechnicalScore * 0.4)`. -/
def composite (technicalScore psychotechnicalScore : Int) : Int :=
  round ((technicalScore : Rat) * (6 / 10) + (psychotechnicalScore : Rat) * (4 / 10))

def grade (questions : List ExamQuestion) (answers : Answers) : Graded :=
  let technicalScore := pct answers (tech questions)
  let psychotechnicalScore := pct answers (psy questions)
  { composite := composite technicalScore psychotechnicalScore
    technicalScore := technicalScore
    psychotechnicalScore := psychotechnicalScore
    correct := (questions.filter (isCorrect answers)).length
    total := questions.length
    domainFeedback := (byDomain questions answers).map Entry.feedback }

/-! ## The partition by domain -/

section

variable {questions : List ExamQuestion} {answers : Answers}

/-- The questions of the domain `d`, counted. -/
def entryOf (questions : List ExamQuestion) (answers : Answers) (d : String) : Entry where
  domain := d
  ok := (questions.filter (·.domain = d)).countP (isCorrect answers)
  total := (questions.filter (·.domain = d)).length

theorem domains_eq (questions : List ExamQuestion) :
    ExamService.domains questions = Grouping.firsts (questions.map (·.domain)) := rfl

theorem domains_snoc (questions : List ExamQuestion) (q : ExamQuestion) :
    ExamService.domains (questions ++ [q]) =
      if q.domain ∈ ExamService.domains questions then ExamService.domains questions
      else ExamService.domains questions ++ [q.domain] := by
  rw [domains_eq, List.map_append]
  exact Grouping.firsts_snoc _ _

theorem domains_nodup (questions : List ExamQuestion) :
    (ExamService.domains questions).Nodup := Grouping.firsts_nodup _

theorem mem_domains {d : String} :
    d ∈ ExamService.domains questions ↔ d ∈ questions.map (·.domain) := Grouping.mem_firsts

theorem entryOf_snoc (questions : List ExamQuestion) (answers : Answers) (q : ExamQuestion)
    (d : String) :
    entryOf (questions ++ [q]) answers d =
      if q.domain = d then
        { entryOf questions answers d with
          total := (entryOf questions answers d).total + 1
          ok := if isCorrect answers q then (entryOf questions answers d).ok + 1
            else (entryOf questions answers d).ok }
      else entryOf questions answers d := by
  unfold entryOf
  rw [List.filter_append]
  by_cases hd : q.domain = d
  · rw [if_pos hd, List.filter_cons_of_pos (p := fun p : ExamQuestion => p.domain = d) (by simp [hd]),
      List.filter_nil, List.countP_append, List.countP_singleton, List.length_append]
    split
    · rfl
    · rfl
  · rw [if_neg hd, List.filter_cons_of_neg (by simp [hd]), List.filter_nil, List.append_nil]

/-- The entry of a domain without questions. -/
theorem entryOf_absent {d : String} (hd : d ∉ ExamService.domains questions) :
    entryOf questions answers d = ⟨d, 0, 0⟩ := by
  have hnone : questions.filter (·.domain = d) = [] := by
    rw [List.filter_eq_nil_iff]
    rintro p hp hpd
    exact hd (mem_domains.2 (List.mem_map.2 ⟨p, hp, of_decide_eq_true hpd⟩))
  simp [entryOf, hnone]

/-! A map whose keys are `ds`, from a function. -/

theorem find_map {f : String → Entry} (hf : ∀ d, (f d).domain = d) (ds : List String)
    (d : String) :
    (ds.map f).find? (fun entry => entry.domain = d) = if d ∈ ds then some (f d) else none := by
  induction ds with
  | nil => rfl
  | cons e ds ih =>
    by_cases he : e = d
    · subst he
      simp [hf]
    · rw [List.map_cons, List.find?_cons_of_neg (by simp [hf, he]), ih]
      simp [Ne.symm he]

theorem set_map {f : String → Entry} (hf : ∀ d, (f d).domain = d) (entry : Entry)
    {ds : List String} (h : ds.Nodup) :
    set entry (ds.map f) =
      if entry.domain ∈ ds then ds.map (fun d => if entry.domain = d then entry else f d)
      else ds.map f ++ [entry] := by
  induction ds with
  | nil => rfl
  | cons d ds ih =>
    obtain ⟨hd, hds⟩ := List.nodup_cons.1 h
    by_cases he : d = entry.domain
    · subst he
      have hrest : ds.map (fun d => if entry.domain = d then entry else f d) = ds.map f := by
        refine List.map_congr_left fun d hmem => if_neg ?_
        rintro rfl
        exact hd hmem
      simp [set, hf, hrest]
    · simp only [List.map_cons, set, hf, if_neg he, ih hds, List.mem_cons, Ne.symm he, false_or]
      split
      · rfl
      · rfl

theorem byDomain_eq (questions : List ExamQuestion) (answers : Answers) :
    byDomain questions answers =
      (ExamService.domains questions).map (entryOf questions answers) := by
  induction questions using List.reverseRecOn with
  | nil => rfl
  | append_singleton questions q ih =>
    have hstep : byDomain (questions ++ [q]) answers =
        tally answers (byDomain questions answers) q := by
      unfold byDomain
      rw [List.foldl_append]
      rfl
    have hentry : ∀ d, (entryOf questions answers d).domain = d := fun _ => rfl
    rw [hstep, ih, domains_snoc]
    unfold tally
    rw [find_map hentry]
    dsimp only
    rw [set_map hentry _ (domains_nodup questions)]
    by_cases hd : q.domain ∈ ExamService.domains questions
    · simp only [if_pos hd, Option.getD_some, hentry]
      refine List.map_congr_left fun d _ => ?_
      rw [entryOf_snoc]
      by_cases hqd : q.domain = d
      · subst hqd
        rw [if_pos rfl, if_pos rfl]
        rfl
      · rw [if_neg hqd, if_neg hqd]
    · simp only [if_neg hd, Option.getD_none]
      rw [List.map_append, List.map_singleton, entryOf_snoc, if_pos rfl, entryOf_absent hd]
      congr 1
      refine List.map_congr_left fun d hmem => ?_
      rw [entryOf_snoc, if_neg]
      rintro rfl
      exact hd hmem

/-- Each question is in one domain. -/
theorem sum_totals (questions : List ExamQuestion) (answers : Answers) :
    ((byDomain questions answers).map (·.total)).sum = questions.length := by
  have hcount : ∀ d, (entryOf questions answers d).total =
      (questions.map (·.domain)).count d := fun d => by
    rw [List.count_eq_countP, List.countP_map, List.countP_eq_length_filter]
    rfl
  have hperm : (ExamService.domains questions).Perm (questions.map (·.domain)).dedup := by
    rw [List.perm_ext_iff_of_nodup (domains_nodup questions) (List.nodup_dedup _)]
    intro d
    rw [mem_domains, List.mem_dedup]
  rw [byDomain_eq, List.map_map]
  calc ((ExamService.domains questions).map fun d => (entryOf questions answers d).total).sum
      = ((ExamService.domains questions).map fun d => (questions.map (·.domain)).count d).sum := by
        simp only [hcount]
    _ = ((questions.map (·.domain)).dedup.map fun d => (questions.map (·.domain)).count d).sum :=
        (hperm.map _).sum_eq
    _ = (questions.map (·.domain)).length := List.sum_map_count_dedup_eq_length _
    _ = questions.length := List.length_map _

/-- No division by zero, and a ratio of at most 1. -/
theorem byDomain_counted {entry : Entry} (h : entry ∈ byDomain questions answers) :
    0 < entry.total ∧ entry.ok ≤ entry.total := by
  rw [byDomain_eq] at h
  obtain ⟨d, hd, rfl⟩ := List.mem_map.1 h
  obtain ⟨q, hq, rfl⟩ := List.mem_map.1 (mem_domains.1 hd)
  refine ⟨?_, List.countP_le_length⟩
  exact List.length_pos_of_mem (List.mem_filter.2 ⟨hq, by simp⟩)

end

/-! ## The scores -/

section

variable {questions set : List ExamQuestion} {answers answers' : Answers}

theorem pct_empty (answers : Answers) : pct answers [] = 0 := rfl

theorem pct_eq (answers : Answers) (set : List ExamQuestion) :
    pct answers set = roundQuotient (100 * set.countP (isCorrect answers)) set.length := by
  unfold pct roundQuotient
  by_cases hlen : set.length = 0
  · rw [if_pos hlen, if_pos (by omega)]
  · rw [if_neg hlen, if_neg (by omega), mathRound_eq_round _ (by omega),
      List.countP_eq_length_filter]
    congr 1
    push_cast
    ring

theorem pct_mem (answers : Answers) (set : List ExamQuestion) :
    pct answers set ∈ Set.Icc (0 : Int) 100 := by
  rw [pct_eq]
  unfold roundQuotient
  have hle := List.countP_le_length (p := isCorrect answers) (l := set)
  split
  · exact ⟨le_rfl, by omega⟩
  · next hlen =>
    exact ⟨mathRound_nonneg (by omega) (by omega), mathRound_le (by omega) (by omega)⟩

theorem composite_eq (t p : Int) : composite t p = mathRound (t * 6 + p * 4) 10 := by
  rw [mathRound_eq_round _ (by omega)]
  unfold composite
  congr 1
  push_cast
  ring

theorem composite_mem {t p : Int} (ht : t ∈ Set.Icc (0 : Int) 100) (hp : p ∈ Set.Icc (0 : Int) 100) :
    composite t p ∈ Set.Icc (0 : Int) 100 := by
  obtain ⟨ht, ht'⟩ := ht
  obtain ⟨hp, hp'⟩ := hp
  rw [composite_eq]
  exact ⟨mathRound_nonneg (by omega) (by omega), mathRound_le (by omega) (by omega)⟩

theorem composite_mono {t t' p p' : Int} (ht : t ≤ t') (hp : p ≤ p') :
    composite t p ≤ composite t' p' := by
  rw [composite_eq, composite_eq]
  exact mathRound_mono (by omega) (by omega)

theorem level_eq (ok total : Nat) (htotal : 0 < total) :
    level ((ok : Rat) / total) = ExamService.level ok total := by
  have hpos : (0 : Rat) < total := by exact_mod_cast htotal
  have hbound : ∀ k : Nat, (ok : Rat) / total ≥ (k : Rat) / 10 ↔ 10 * ok ≥ k * total := by
    intro k
    rw [ge_iff_le, le_div_iff₀ hpos, div_mul_eq_mul_div, div_le_iff₀ (by norm_num)]
    constructor
    · intro h
      have : ((k * total : Nat) : Rat) ≤ ((10 * ok : Nat) : Rat) := by push_cast; linarith
      exact_mod_cast this
    · intro h
      have : ((k * total : Nat) : Rat) ≤ ((10 * ok : Nat) : Rat) := by exact_mod_cast h
      push_cast at this
      linarith
  have hstrong := hbound 7
  have hmedium := hbound 4
  push_cast at hstrong hmedium
  unfold level ExamService.level
  simp only [hstrong, hmedium]

theorem rank_mono {r r' : Rat} (h : r ≤ r') : (level r).rank ≤ (level r').rank := by
  unfold level
  split
  · next hstrong =>
    rw [if_pos (le_trans hstrong h)]
  · split
    · next hmedium =>
      split
      · decide
      · rw [if_pos (le_trans hmedium h)]
    · exact Nat.zero_le _

end

/-! ## An answer put right -/

section

variable {questions set : List ExamQuestion} {answers answers' : Answers}

/-- All that was right stays right. -/
def Gains (answers answers' : Answers) (questions : List ExamQuestion) : Prop :=
  ∀ q ∈ questions, isCorrect answers q → isCorrect answers' q

theorem Gains.filter (h : Gains answers answers' questions) (p : ExamQuestion → Bool) :
    Gains answers answers' (questions.filter p) :=
  fun q hq => h q (List.mem_of_mem_filter hq)

theorem Gains.countP_le (h : Gains answers answers' set) :
    set.countP (isCorrect answers) ≤ set.countP (isCorrect answers') :=
  List.countP_mono_left h

theorem Gains.pct_le (h : Gains answers answers' set) : pct answers set ≤ pct answers' set := by
  have hle := h.countP_le
  rw [pct_eq, pct_eq]
  unfold roundQuotient
  split
  · exact le_rfl
  · exact mathRound_mono (by omega) (by omega)

theorem Gains.rank_le (h : Gains answers answers' questions) (d : String) :
    (entryOf questions answers d).feedback.level.rank ≤
      (entryOf questions answers' d).feedback.level.rank := by
  refine rank_mono (div_le_div_of_nonneg_right ?_ (Nat.cast_nonneg _))
  exact_mod_cast (h.filter (·.domain = d)).countP_le

/-- The answer to `q`, put right. -/
structure PutRight (q : ExamQuestion) (answers answers' : Answers) : Prop where
  wrong : answers q.id ≠ some (q.correct : Rat)
  right : answers' q.id = some (q.correct : Rat)
  others : ∀ id, id ≠ q.id → answers' id = answers id

variable {q : ExamQuestion}

theorem isCorrect_iff : isCorrect answers q ↔ answers q.id = some (q.correct : Rat) := by
  simp [isCorrect]

theorem PutRight.isCorrect_eq (h : PutRight q answers answers') {p : ExamQuestion}
    (hne : p.id ≠ q.id) : isCorrect answers' p = isCorrect answers p := by
  unfold isCorrect
  rw [h.others p.id hne]

theorem PutRight.gains (h : PutRight q answers answers') (hids : (questions.map (·.id)).Nodup)
    (hq : q ∈ questions) : Gains answers answers' questions := by
  intro p hmem hp
  by_cases hpq : p.id = q.id
  · have : p = q := List.inj_on_of_nodup_map hids hmem hq hpq
    subst this
    exact isCorrect_iff.2 h.right
  · rwa [h.isCorrect_eq hpq]

theorem PutRight.countP_eq (h : PutRight q answers answers') (hids : (questions.map (·.id)).Nodup)
    (hq : q ∈ questions) :
    questions.countP (isCorrect answers') = questions.countP (isCorrect answers) + 1 := by
  obtain ⟨s, t, rfl⟩ := List.append_of_mem hq
  rw [List.map_append, List.map_cons, List.nodup_append, List.nodup_cons] at hids
  obtain ⟨-, ⟨ht, -⟩, hs⟩ := hids
  have hsame : ∀ p ∈ s ++ t, isCorrect answers' p = isCorrect answers p := by
    intro p hp
    refine h.isCorrect_eq fun hpq => ?_
    rcases List.mem_append.1 hp with hp | hp
    · exact hs _ (List.mem_map_of_mem hp) _ List.mem_cons_self hpq
    · exact ht (hpq ▸ List.mem_map_of_mem hp)
  have hbefore : s.countP (isCorrect answers') = s.countP (isCorrect answers) :=
    List.countP_congr fun p hp => by rw [hsame p (List.mem_append_left t hp)]
  have hafter : t.countP (isCorrect answers') = t.countP (isCorrect answers) :=
    List.countP_congr fun p hp => by rw [hsame p (List.mem_append_right s hp)]
  rw [List.countP_append, List.countP_append, List.countP_cons_of_pos (isCorrect_iff.2 h.right),
    List.countP_cons_of_neg fun hwrong => h.wrong (isCorrect_iff.1 hwrong), hbefore, hafter]
  omega

/-- One more right answer, and nothing lower. -/
structure Improves (graded graded' : Graded) : Prop where
  correct : graded'.correct = graded.correct + 1
  technicalScore : graded.technicalScore ≤ graded'.technicalScore
  psychotechnicalScore : graded.psychotechnicalScore ≤ graded'.psychotechnicalScore
  composite : graded.composite ≤ graded'.composite
  domainFeedback : List.Forall₂
    (fun entry entry' => entry'.domain = entry.domain ∧ entry.level.rank ≤ entry'.level.rank)
    graded.domainFeedback graded'.domainFeedback

theorem PutRight.improves (h : PutRight q answers answers') (hids : (questions.map (·.id)).Nodup)
    (hq : q ∈ questions) : Improves (grade questions answers) (grade questions answers') := by
  have hgains := h.gains hids hq
  have htech := (hgains.filter (·.type = .technical)).pct_le
  have hpsy := (hgains.filter (·.type = .psychotechnical)).pct_le
  refine ⟨?_, htech, hpsy, composite_mono htech hpsy, ?_⟩
  · have hcount := h.countP_eq hids hq
    rw [List.countP_eq_length_filter, List.countP_eq_length_filter] at hcount
    exact hcount
  · show List.Forall₂ _ ((byDomain questions answers).map Entry.feedback)
      ((byDomain questions answers').map Entry.feedback)
    rw [byDomain_eq, byDomain_eq, List.map_map, List.map_map, List.forall₂_map_left_iff,
      List.forall₂_map_right_iff, List.forall₂_same]
    exact fun d _ => ⟨rfl, hgains.rank_le d⟩

/-- The numbers are in range, and the domains partition the questions. -/
structure InRange (questions : List ExamQuestion) (answers : Answers) : Prop where
  technicalScore : (grade questions answers).technicalScore ∈ Set.Icc (0 : Int) 100
  psychotechnicalScore : (grade questions answers).psychotechnicalScore ∈ Set.Icc (0 : Int) 100
  composite : (grade questions answers).composite ∈ Set.Icc (0 : Int) 100
  noTechnical : tech questions = [] → (grade questions answers).technicalScore = 0
  noPsychotechnical : psy questions = [] → (grade questions answers).psychotechnicalScore = 0
  distinct : ((grade questions answers).domainFeedback.map (·.domain)).Nodup
  domains : ∀ d, d ∈ (grade questions answers).domainFeedback.map (·.domain) ↔
    d ∈ questions.map (·.domain)
  counted : ∀ entry ∈ byDomain questions answers, 0 < entry.total ∧ entry.ok ≤ entry.total
  totals : ((byDomain questions answers).map (·.total)).sum = (grade questions answers).total

theorem feedback_domains (questions : List ExamQuestion) (answers : Answers) :
    (grade questions answers).domainFeedback.map (·.domain) = ExamService.domains questions := by
  show ((byDomain questions answers).map Entry.feedback).map (·.domain) = _
  rw [byDomain_eq, List.map_map, List.map_map]
  exact List.map_id _

theorem inRange (questions : List ExamQuestion) (answers : Answers) :
    InRange questions answers where
  technicalScore := pct_mem answers (tech questions)
  psychotechnicalScore := pct_mem answers (psy questions)
  composite := composite_mem (pct_mem answers (tech questions)) (pct_mem answers (psy questions))
  noTechnical h := by
    show pct answers (tech questions) = 0
    rw [h, pct_empty]
  noPsychotechnical h := by
    show pct answers (psy questions) = 0
    rw [h, pct_empty]
  distinct := by
    rw [feedback_domains]
    exact domains_nodup questions
  domains d := by
    rw [feedback_domains]
    exact mem_domains
  counted _ h := byDomain_counted h
  totals := sum_totals questions answers

end

/-- `grade`, for any questions with distinct ids and any answers. -/
theorem grade_sound (questions : List ExamQuestion) (hids : (questions.map (·.id)).Nodup)
    (answers : Answers) :
    InRange questions answers ∧ ∀ q ∈ questions, ∀ answers', PutRight q answers answers' →
      Improves (grade questions answers) (grade questions answers') :=
  ⟨inRange questions answers, fun _ hq _ h => h.improves hids hq⟩

/-- Three questions of two domains. -/
def threeQuestions : List ExamQuestion :=
  [⟨"q1", .technical, "git", 0⟩, ⟨"q2", .psychotechnical, "logic", 2⟩, ⟨"q3", .technical, "git", 1⟩]

theorem grade_sound_three :
    (threeQuestions.map (·.id)).Nodup ∧ InRange threeQuestions (fun _ => none) :=
  ⟨by decide, (grade_sound threeQuestions (by decide) fun _ => none).1⟩

/-! ## The result of the attempt -/

/-- The answers of a submission. -/
def answersOf (answers : List (String × Int)) : Answers :=
  fun id => (answers.lookup id).map fun answer => (answer : Rat)

theorem isCorrect_answersOf (answers : List (String × Int)) :
    isCorrect (answersOf answers) = ExamService.isCorrect answers := by
  funext q
  unfold isCorrect ExamService.isCorrect answersOf
  cases answers.lookup q.id with
  | none => simp
  | some answer => simp

/-- What `submitExam` makes of the grading is what `ExamService.grade` computes. -/
theorem result_eq (externalId : String) (questions : List ExamQuestion)
    (answers : List (String × Int)) :
    let graded := grade questions (answersOf answers)
    ExamService.grade externalId questions answers =
      { externalId := externalId
        score := 100 * graded.composite
        maxScore := 100 * 100
        percentile := some (100 * graded.composite)
        plagiarismVerdict := .clean
        domainFeedback := graded.domainFeedback
        technicalScore := some (100 * graded.technicalScore)
        psychotechnicalScore := some (100 * graded.psychotechnicalScore)
        answerFingerprint := some ("local-" ++ externalId) } := by
  have hpct : ∀ set, ExamService.pct answers set = pct (answersOf answers) set := fun set => by
    rw [pct_eq, isCorrect_answersOf]
    rfl
  have hfeedback : ExamService.domainFeedback questions answers =
      (byDomain questions (answersOf answers)).map Entry.feedback := by
    rw [byDomain_eq, List.map_map]
    refine List.map_congr_left fun d hd => ?_
    obtain ⟨q, hq, rfl⟩ := List.mem_map.1 (mem_domains.1 hd)
    have hpos : 0 < (questions.filter (·.domain = q.domain)).length :=
      List.length_pos_of_mem (List.mem_filter.2 ⟨hq, by simp⟩)
    show _ = Entry.feedback (entryOf questions (answersOf answers) q.domain)
    unfold Entry.feedback entryOf
    rw [level_eq _ _ hpos, isCorrect_answersOf]
  unfold ExamService.grade grade tech psy
  simp only [hpct, hfeedback, composite_eq]

end Grading

end JobBoard.Assessments
