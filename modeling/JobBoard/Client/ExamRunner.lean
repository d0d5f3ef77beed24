import JobBoard.Assessments.Exam
import JobBoard.Lib.Machine

/-!
# The exam in the browser

`ExamRunner.tsx` shows the questions of an attempt one by one, each with a countdown of its own,
and sends the answers after the last one. The server grades what it gets, and voids an attempt that
comes after its deadline. `graded_as_chosen`: what counts as right is the option that was chosen
last while its question was shown. `sent_in_time`: a browser whose intervals fire in time sends the
answers before the deadline, without a click of the candidate.
-/

set_option autoImplicit false

namespace JobBoard.Client

open Assessments (Assessment ExamQuestion)
open Assessments.Submission (shortExam)
open Assessments.ExamService (ExamQuestionPublic toPublic timeLimitForType budgetSeconds isLate
  isCorrect deadline EXAM_GRACE_SECONDS)

/-- The exam, with the `QuestionTimer` of the question that is shown. -/
structure ExamRunner where
  questions : List ExamQuestionPublic
  index : Nat
  answers : List (String × Int)
  doneRef : Bool
  /-- `submit.isPending`. -/
  isPending : Bool
  /-- The answers of every `submit.mutate`. -/
  sent : List (List (String × Int))
  left : Int
  /-- The interval of the timer is set. -/
  ticking : Bool
  /-- The page shows the exam no more. -/
  closed : Bool
  deriving DecidableEq, Repr

namespace ExamRunner

inductive Event where
  /-- A click on an option. -/
  | select (option : Int)
  /-- A click on the button. -/
  | next
  /-- The interval fires. -/
  | tick
  | succeeded
  /-- The submission has failed, with the status of an `ApiError`. -/
  | failed (status : Option Nat)
  | close
  deriving DecidableEq, Repr

def question? (r : ExamRunner) : Option ExamQuestionPublic := r.questions[r.index]?

/-- The key of the `QuestionTimer`. -/
def key (r : ExamRunner) : Option String := r.question?.map (·.id)

def limitOf (questions : List ExamQuestionPublic) (index : Nat) : Int :=
  (questions[index]?.map (·.timeLimitSeconds)).getD 0

def mount (questions : List ExamQuestionPublic) : ExamRunner :=
  ⟨questions, 0, [], false, false, [], limitOf questions 0, true, false⟩

/-- `{ ...a, [qid]: idx }`. -/
def set (answers : List (String × Int)) (qid : String) (idx : Int) : List (String × Int) :=
  (qid, idx) :: answers.filter fun a => a.1 ≠ qid

def onSelect (r : ExamRunner) (option : Int) : ExamRunner :=
  match r.question? with
  | none => r
  | some q => { r with answers := set r.answers q.id option }

def finish (r : ExamRunner) : ExamRunner :=
  if r.doneRef then r
  else { r with doneRef := true, isPending := true, sent := r.sent ++ [r.answers] }

/-- A timer with another key is mounted anew. -/
def setIndex (r : ExamRunner) (index : Nat) : ExamRunner :=
  let r' := { r with index := index }
  if r'.key = r.key then r' else { r' with left := limitOf r.questions index, ticking := true }

def advance (r : ExamRunner) : ExamRunner :=
  if r.doneRef then r
  else if r.index + 1 < r.questions.length then r.setIndex (r.index + 1)
  else r.finish

def onTick (r : ExamRunner) : ExamRunner :=
  if r.left ≤ 1 then { r with left := 0, ticking := false }.advance
  else { r with left := r.left - 1 }

/-- After the exam is closed nothing happens in it. -/
def step (r : ExamRunner) (e : Event) : Option ExamRunner :=
  if r.closed then none
  else
    match e with
    | .select option => some (r.onSelect option)
    | .next => if r.isPending then none else some r.advance
    | .tick => if r.ticking then some r.onTick else none
    | .succeeded => if r.isPending then some { r with isPending := false, closed := true } else none
    | .failed status =>
      if r.isPending then
        some { r with isPending := false, doneRef := false, closed := status = some 403 }
      else none
    | .close => some { r with closed := true }

/-- The options that were chosen, with the index of the question that was shown. -/
def picks (r : ExamRunner) : List Event → List (Nat × Int)
  | [] => []
  | e :: es =>
    match r.step e with
    | none => []
    | some r' =>
      match e with
      | .select option => (r.index, option) :: r'.picks es
      | .next | .tick | .succeeded | .failed _ | .close => r'.picks es

def lastPick (index : Nat) (picks : List (Nat × Int)) : Option Int :=
  ((picks.filter fun p => p.1 = index).getLast?).map (·.2)

section

variable {questions : List ExamQuestionPublic} {r r' : ExamRunner} {e : Event} {es : List Event}

/-! ## One step -/

theorem set_lookup (answers : List (String × Int)) (qid : String) (idx : Int) (qid' : String) :
    (set answers qid idx).lookup qid' = if qid' = qid then some idx else answers.lookup qid' := by
  unfold set
  rw [List.lookup_cons]
  by_cases hid : qid' = qid
  · rw [if_pos hid, hid, beq_self_eq_true]
  · rw [if_neg hid, beq_false_of_ne hid]
    show (answers.filter _).lookup qid' = _
    induction answers with
    | nil => rfl
    | cons a answers ih =>
      obtain ⟨x, v⟩ := a
      rw [List.filter_cons]
      by_cases hx : x = qid
      · have hne : (qid' == x) = false := beq_false_of_ne fun h => hid (h.trans hx)
        rw [if_neg (by simp [hx]), ih, List.lookup_cons, hne]
      · rw [if_pos (by simp [hx]), List.lookup_cons, List.lookup_cons, ih]

/-- A step shows the same question or the next, and sends the answers as they are. -/
structure Moved (r r' : ExamRunner) : Prop where
  questions : r'.questions = r.questions
  sent : r'.sent = r.sent ∨ r'.sent = r.sent ++ [r.answers]
  index : r.index ≤ r'.index

theorem Moved.refl (r : ExamRunner) : Moved r r := ⟨rfl, .inl rfl, Nat.le_refl _⟩

theorem setIndex_fields (r : ExamRunner) (index : Nat) :
    (r.setIndex index).questions = r.questions ∧ (r.setIndex index).index = index ∧
      (r.setIndex index).answers = r.answers ∧ (r.setIndex index).sent = r.sent := by
  unfold setIndex
  dsimp only
  split <;> exact ⟨rfl, rfl, rfl, rfl⟩

theorem advance_moved (r : ExamRunner) : Moved r r.advance ∧ r.advance.answers = r.answers := by
  unfold advance
  split
  · exact ⟨.refl r, rfl⟩
  · split
    · obtain ⟨hq, hi, ha, hs⟩ := setIndex_fields r (r.index + 1)
      exact ⟨⟨hq, .inl hs, by omega⟩, ha⟩
    · unfold finish
      split
      · exact ⟨.refl r, rfl⟩
      · exact ⟨⟨rfl, .inr rfl, Nat.le_refl _⟩, rfl⟩

theorem onTick_moved (r : ExamRunner) : Moved r r.onTick ∧ r.onTick.answers = r.answers := by
  unfold onTick
  split
  · obtain ⟨h, ha⟩ := advance_moved { r with left := 0, ticking := false }
    exact ⟨⟨h.questions, h.sent, h.index⟩, ha⟩
  · exact ⟨⟨rfl, .inl rfl, Nat.le_refl _⟩, rfl⟩

theorem onSelect_moved (r : ExamRunner) (option : Int) : Moved r (r.onSelect option) := by
  unfold onSelect
  split
  · exact .refl r
  · exact ⟨rfl, .inl rfl, Nat.le_refl _⟩

/-- Only a click on an option changes the answers. -/
theorem step_moved (h : r.step e = some r') : Moved r r' ∧
    ((∃ option, e = .select option ∧ r' = r.onSelect option) ∨
      (r'.answers = r.answers ∧ r.picks [e] = [])) := by
  have hpicks : (∀ option, e ≠ .select option) → r.picks [e] = [] := by
    intro hne
    unfold picks
    rw [h]
    cases e with
    | select option => exact absurd rfl (hne option)
    | _ => exact rfl
  unfold step at h
  split at h
  · cases h
  · cases e with
    | select option =>
      cases h
      exact ⟨onSelect_moved r option, .inl ⟨option, rfl, rfl⟩⟩
    | next =>
      dsimp only at h
      split at h
      · cases h
      · cases h
        obtain ⟨hm, ha⟩ := advance_moved r
        exact ⟨hm, .inr ⟨ha, hpicks (by rintro _ ⟨⟩)⟩⟩
    | tick =>
      dsimp only at h
      split at h
      · cases h
        obtain ⟨hm, ha⟩ := onTick_moved r
        exact ⟨hm, .inr ⟨ha, hpicks (by rintro _ ⟨⟩)⟩⟩
      · cases h
    | succeeded =>
      dsimp only at h
      split at h
      · cases h
        exact ⟨⟨rfl, .inl rfl, Nat.le_refl _⟩, .inr ⟨rfl, hpicks (by rintro _ ⟨⟩)⟩⟩
      · cases h
    | failed status =>
      dsimp only at h
      split at h
      · cases h
        exact ⟨⟨rfl, .inl rfl, Nat.le_refl _⟩, .inr ⟨rfl, hpicks (by rintro _ ⟨⟩)⟩⟩
      · cases h
    | close =>
      cases h
      exact ⟨⟨rfl, .inl rfl, Nat.le_refl _⟩, .inr ⟨rfl, hpicks (by rintro _ ⟨⟩)⟩⟩

/-! ## The choices of a run -/

theorem lastPick_snoc (k : Nat) (ps : List (Nat × Int)) (p : Nat × Int) :
    lastPick k (ps ++ [p]) = if p.1 = k then some p.2 else lastPick k ps := by
  unfold lastPick
  rw [List.filter_append, List.filter_cons]
  split
  · next h =>
    rw [if_pos (of_decide_eq_true h), List.filter_nil, List.getLast?_append]
    rfl
  · next h =>
    rw [if_neg fun hk => h (decide_eq_true hk), List.filter_nil, List.append_nil]

theorem picks_snoc (h : Machine.after step r es = some r') (e : Event) :
    r.picks (es ++ [e]) = r.picks es ++ r'.picks [e] := by
  induction es generalizing r with
  | nil =>
    cases h
    exact rfl
  | cons e₁ es ih =>
    obtain ⟨r₁, hr₁, h⟩ := Option.bind_eq_some_iff.1 h
    have hrest := ih h
    rw [List.cons_append, picks, picks, hr₁]
    cases e₁ with
    | select option =>
      dsimp only
      rw [hrest, List.cons_append]
    | _ => exact hrest

theorem index_of_id (hids : (questions.map (·.id)).Nodup) {k j : Nat} {q q' : ExamQuestionPublic}
    (hq : questions[k]? = some q) (hq' : questions[j]? = some q') (hid : q.id = q'.id) : k = j := by
  have hk : k < (questions.map (·.id)).length := by
    rw [List.length_map]
    exact (List.getElem?_eq_some_iff.1 hq).1
  refine (List.getElem?_inj hk hids).1 ?_
  rw [List.getElem?_map, List.getElem?_map, hq, hq', Option.map_some, Option.map_some, hid]

/-- The answers are the last choice for every question, and no choice was made after its question
was passed. -/
structure Chosen (questions : List ExamQuestionPublic) (answers : List (String × Int))
    (ps : List (Nat × Int)) : Prop where
  last : ∀ k q, questions[k]? = some q → answers.lookup q.id = lastPick k ps
  forward : (ps.map Prod.fst).Pairwise (· ≤ ·)

structure Inv (questions : List ExamQuestionPublic) (es : List Event) (r : ExamRunner) : Prop where
  same : r.questions = questions
  chosen : Chosen questions r.answers ((mount questions).picks es)
  reached : ∀ p ∈ (mount questions).picks es, p.1 ≤ r.index
  sent : ∀ a ∈ r.sent, ∃ es₁, es₁ <+: es ∧ Chosen questions a ((mount questions).picks es₁)

theorem Inv.init (questions : List ExamQuestionPublic) : Inv questions [] (mount questions) where
  same := rfl
  chosen := ⟨fun _ _ _ => rfl, List.Pairwise.nil⟩
  reached _ h := absurd h List.not_mem_nil
  sent _ h := absurd h List.not_mem_nil

theorem Inv.step {t : ExamRunner} (h : Inv questions es t)
    (hids : (questions.map (·.id)).Nodup)
    (hrun : Machine.after ExamRunner.step (mount questions) es = some t)
    (hn : t.step e = some r') : Inv questions (es ++ [e]) r' := by
  have hpicks := picks_snoc hrun e
  obtain ⟨hmoved, hcases⟩ := step_moved hn
  have hquestions : r'.questions = questions := hmoved.questions.trans h.same
  have hsent : ∀ a ∈ r'.sent, ∃ es₁, es₁ <+: es ++ [e] ∧
      Chosen questions a ((mount questions).picks es₁) := by
    intro a ha
    have hold : ∀ a ∈ t.sent, ∃ es₁, es₁ <+: es ++ [e] ∧
        Chosen questions a ((mount questions).picks es₁) := by
      intro a ha
      obtain ⟨es₁, hes₁, hchosen⟩ := h.sent a ha
      exact ⟨es₁, hes₁.trans (List.prefix_append _ _), hchosen⟩
    rcases hmoved.sent with hsame | happend
    · exact hold a (hsame ▸ ha)
    · rw [happend] at ha
      rcases List.mem_append.1 ha with ha | ha
      · exact hold a ha
      · rw [List.mem_singleton.1 ha]
        exact ⟨es, List.prefix_append _ _, h.chosen⟩
  rcases hcases with ⟨option, rfl, rfl⟩ | ⟨hanswers, hnone⟩
  · have hone : t.picks [.select option] = [(t.index, option)] := by
      unfold picks
      rw [hn]
      exact rfl
    rw [hone] at hpicks
    refine ⟨hquestions, ⟨fun k q hq => ?_, ?_⟩, fun p hp => ?_, hsent⟩
    · rw [hpicks, lastPick_snoc]
      unfold onSelect question?
      rw [h.same]
      cases hshown : questions[t.index]? with
      | none =>
        dsimp only
        rw [if_neg, h.chosen.last k q hq]
        rintro rfl
        cases hshown.symm.trans hq
      | some shown =>
        dsimp only
        rw [set_lookup]
        by_cases hk : t.index = k
        · rw [hk, hq] at hshown
          cases hshown
          rw [if_pos hk, if_pos rfl]
        · rw [if_neg hk, if_neg, h.chosen.last k q hq]
          exact fun hid => hk (index_of_id hids hshown hq hid.symm)
    · rw [hpicks, List.map_append]
      refine List.pairwise_append.2 ⟨h.chosen.forward, List.pairwise_singleton _ _, ?_⟩
      intro k hk j hj
      obtain ⟨p, hp, rfl⟩ := List.mem_map.1 hk
      rw [List.mem_singleton.1 hj]
      exact h.reached p hp
    · have hindex : (t.onSelect option).index = t.index := by
        unfold onSelect
        split <;> exact rfl
      rw [hpicks] at hp
      rw [hindex]
      rcases List.mem_append.1 hp with hp | hp
      · exact h.reached p hp
      · rw [List.mem_singleton.1 hp]
  · rw [hnone, List.append_nil] at hpicks
    refine ⟨hquestions, ?_, fun p hp => ?_, hsent⟩
    · rw [hpicks, hanswers]
      exact h.chosen
    · rw [hpicks] at hp
      exact Nat.le_trans (h.reached p hp) hmoved.index

theorem inv_of_after (hids : (questions.map (·.id)).Nodup)
    (h : Machine.after step (mount questions) es = some r) : Inv questions es r :=
  Machine.after_keeps h (.init questions) fun hrun hinv hn => hinv.step hids hrun hn

end

section

variable {exam : List ExamQuestion}

theorem ids_public (exam : List ExamQuestion) :
    (exam.map toPublic).map (·.id) = exam.map (·.id) := by
  rw [List.map_map]
  exact rfl

def changedMind : List Event := [.select 1, .select 0, .next, .select 2, .next, .select 1]

end

end ExamRunner

/-! ## The clock -/

/-- The exam and the clock of the browser. -/
structure TimedExam where
  runner : ExamRunner
  now : Int
  /-- When the interval of the timer fired last, or was set. -/
  fired : Int
  deriving DecidableEq, Repr

namespace TimedExam

open ExamRunner (limitOf)

inductive Event where
  | wait (ms : Nat)
  | exam (e : ExamRunner.Event)
  deriving DecidableEq, Repr

def mount (questions : List ExamQuestionPublic) (now : Int) : TimedExam :=
  ⟨.mount questions, now, now⟩

/-- The longest that an interval of a second takes. -/
def interval (slack : Nat) : Int := 1000 + slack

/-- An interval fires `slack` ms late at most. -/
def next (slack : Nat) (s : TimedExam) : Event → Option TimedExam
  | .wait ms =>
    if s.runner.ticking ∧ s.runner.closed = false ∧ s.fired + interval slack < s.now + ms then none
    else some { s with now := s.now + ms }
  | .exam e =>
    (s.runner.step e).map fun r =>
      ⟨r, s.now, if e = .tick ∨ r.key ≠ s.runner.key then s.now else s.fired⟩

def total (questions : List ExamQuestionPublic) : Int := (questions.map (·.timeLimitSeconds)).sum

/-- The seconds that are left for the exam. -/
def remaining (r : ExamRunner) : Int := r.left + total (r.questions.drop (r.index + 1))

/-- The exam while nothing was sent. -/
structure OnTime (questions : List ExamQuestionPublic) (slack : Nat) (start : Int)
    (s : TimedExam) : Prop where
  same : s.runner.questions = questions
  index : s.runner.index < questions.length
  doneRef : s.runner.doneRef = false
  isPending : s.runner.isPending = false
  ticking : s.runner.ticking = true
  left : 1 ≤ s.runner.left
  now : s.now ≤ s.fired + interval slack
  fired : s.fired + remaining s.runner * interval slack ≤ start + total questions * interval slack

section

variable {questions : List ExamQuestionPublic} {slack : Nat} {start : Int} {s s' : TimedExam}
  {r r' : ExamRunner}

theorem interval_pos (slack : Nat) : 0 < interval slack := by
  unfold interval
  omega

theorem total_drop {k : Nat} (h : k < questions.length) :
    limitOf questions k + total (questions.drop (k + 1)) = total (questions.drop k) := by
  unfold limitOf total
  rw [List.drop_eq_getElem_cons h, List.map_cons, List.sum_cons, List.getElem?_eq_getElem h]
  rfl

theorem OnTime.init (hne : questions ≠ []) (hpos : ∀ q ∈ questions, 1 ≤ q.timeLimitSeconds) :
    OnTime questions slack start (mount questions start) := by
  have hlen : 0 < questions.length := List.length_pos_iff.2 hne
  refine ⟨rfl, hlen, rfl, rfl, rfl, ?_, ?_, ?_⟩
  · show 1 ≤ limitOf questions 0
    unfold limitOf
    rw [List.getElem?_eq_getElem hlen]
    exact hpos _ (List.getElem_mem hlen)
  · exact Int.le_add_of_nonneg_right (interval_pos slack).le
  · show start + (limitOf questions 0 + total (questions.drop 1)) * _ ≤ _
    rw [total_drop hlen]
    exact Int.le_refl _

/-- The next question has a timer of its own. -/
theorem setIndex_mounts (hids : (r.questions.map (·.id)).Nodup)
    (hlt : r.index + 1 < r.questions.length) :
    r.setIndex (r.index + 1) =
        { r with
          index := r.index + 1
          left := limitOf r.questions (r.index + 1)
          ticking := true } ∧
      (r.setIndex (r.index + 1)).key ≠ r.key := by
  have hkey : { r with index := r.index + 1 }.key ≠ r.key := by
    have hlt' : r.index < r.questions.length := by omega
    unfold ExamRunner.key ExamRunner.question?
    dsimp only
    rw [List.getElem?_eq_getElem hlt, List.getElem?_eq_getElem hlt']
    intro heq
    have hindex := ExamRunner.index_of_id hids (List.getElem?_eq_getElem hlt)
      (List.getElem?_eq_getElem hlt') (Option.some.inj heq)
    omega
  unfold ExamRunner.setIndex
  dsimp only
  rw [if_neg hkey]
  exact ⟨rfl, hkey⟩

/-- The exam goes on with a new timer, or the answers are sent. -/
theorem advance_onTime (hids : (r.questions.map (·.id)).Nodup)
    (hpos : ∀ q ∈ r.questions, 1 ≤ q.timeLimitSeconds) (hdone : r.doneRef = false)
    (hpending : r.isPending = false) {now : Int}
    (hnow : now + total (r.questions.drop (r.index + 1)) * interval slack ≤
      start + total r.questions * interval slack) (hsent : r.advance.sent = []) :
    r.advance.key ≠ r.key ∧ OnTime r.questions slack start ⟨r.advance, now, now⟩ := by
  unfold ExamRunner.advance at hsent ⊢
  rw [if_neg (by rw [hdone]; exact Bool.false_ne_true)] at hsent ⊢
  split
  · next hlt =>
    obtain ⟨heq, hkey⟩ := setIndex_mounts hids hlt
    refine ⟨hkey, ?_⟩
    rw [heq]
    refine ⟨rfl, hlt, hdone, hpending, rfl, ?_, ?_, ?_⟩
    · show 1 ≤ limitOf r.questions (r.index + 1)
      unfold limitOf
      rw [List.getElem?_eq_getElem hlt]
      exact hpos _ (List.getElem_mem hlt)
    · exact Int.le_add_of_nonneg_right (interval_pos slack).le
    · show now + (limitOf r.questions (r.index + 1) +
        total (r.questions.drop (r.index + 1 + 1))) * _ ≤ _
      rw [total_drop hlt]
      exact hnow
  · next hlast =>
    rw [if_neg hlast] at hsent
    unfold ExamRunner.finish at hsent
    rw [if_neg (by rw [hdone]; exact Bool.false_ne_true)] at hsent
    exact absurd hsent (by simp)

theorem OnTime.after_second (h : OnTime questions slack start s) :
    s.now + (remaining s.runner - 1) * interval slack ≤
      start + total questions * interval slack := by
  have hnow := h.now
  have hfired := h.fired
  rw [Int.sub_mul, Int.one_mul]
  omega

/-- What is left after the question. -/
theorem OnTime.after_question (h : OnTime questions slack start s) :
    s.now + total (s.runner.questions.drop (s.runner.index + 1)) * interval slack ≤
      start + total s.runner.questions * interval slack := by
  have hsecond := h.after_second
  have hleft : total (s.runner.questions.drop (s.runner.index + 1)) * interval slack ≤
      (remaining s.runner - 1) * interval slack := by
    refine Int.mul_le_mul_of_nonneg_right ?_ (interval_pos slack).le
    have hleft := h.left
    unfold remaining
    omega
  rw [h.same] at hleft ⊢
  omega

theorem OnTime.tick (h : OnTime questions slack start s)
    (hids : (questions.map (·.id)).Nodup) (hpos : ∀ q ∈ questions, 1 ≤ q.timeLimitSeconds)
    (hsent : s.runner.onTick.sent = []) :
    OnTime questions slack start ⟨s.runner.onTick, s.now, s.now⟩ := by
  unfold ExamRunner.onTick at hsent ⊢
  split
  · next hlast =>
    rw [if_pos hlast] at hsent
    have hrest := h.after_question
    obtain rfl := h.same
    exact (advance_onTime (r := { s.runner with left := 0, ticking := false }) hids hpos h.doneRef
      h.isPending hrest hsent).2
  · next hmore =>
    refine ⟨h.same, h.index, h.doneRef, h.isPending, h.ticking, ?_, ?_, ?_⟩
    · show 1 ≤ s.runner.left - 1
      omega
    · exact Int.le_add_of_nonneg_right (interval_pos slack).le
    · have hsecond := h.after_second
      have hleft : remaining { s.runner with left := s.runner.left - 1 } =
          remaining s.runner - 1 := by
        unfold remaining
        dsimp only
        omega
      show s.now + remaining { s.runner with left := s.runner.left - 1 } * _ ≤ _
      rw [hleft]
      exact hsecond

theorem OnTime.step (h : OnTime questions slack start s) (hids : (questions.map (·.id)).Nodup)
    (hpos : ∀ q ∈ questions, 1 ≤ q.timeLimitSeconds) {e : Event} (hn : next slack s e = some s')
    (hsent : s'.runner.sent = []) (hopen : s'.runner.closed = false) :
    OnTime questions slack start s' := by
  cases e with
  | wait ms =>
    unfold next at hn
    dsimp only at hn
    split at hn
    · cases hn
    · next hfires =>
      cases hn
      refine ⟨h.same, h.index, h.doneRef, h.isPending, h.ticking, h.left, ?_, h.fired⟩
      by_contra hlate
      exact hfires ⟨h.ticking, hopen, Int.not_le.1 hlate⟩
  | exam e =>
    obtain ⟨r, hr, rfl⟩ := Option.map_eq_some_iff.1 hn
    unfold ExamRunner.step at hr
    split at hr
    · cases hr
    · cases e with
      | select option =>
        cases hr
        have hsame : ∃ answers,
            s.runner.onSelect option = { s.runner with answers := answers } := by
          unfold ExamRunner.onSelect
          split
          · exact ⟨_, rfl⟩
          · exact ⟨_, rfl⟩
        obtain ⟨answers, heq⟩ := hsame
        rw [heq, if_neg (by rintro (⟨⟨⟩⟩ | hkey); exact hkey rfl)]
        exact ⟨h.same, h.index, h.doneRef, h.isPending, h.ticking, h.left, h.now, h.fired⟩
      | next =>
        dsimp only at hr
        rw [h.isPending, if_neg Bool.false_ne_true] at hr
        cases hr
        have hrest := h.after_question
        obtain rfl := h.same
        obtain ⟨hkey, hnext⟩ := advance_onTime hids hpos h.doneRef h.isPending hrest hsent
        rw [if_pos (.inr hkey)]
        exact hnext
      | tick =>
        dsimp only at hr
        rw [h.ticking, if_pos rfl] at hr
        cases hr
        rw [if_pos (.inl rfl)]
        exact h.tick hids hpos hsent
      | succeeded =>
        dsimp only at hr
        rw [h.isPending, if_neg Bool.false_ne_true] at hr
        cases hr
      | failed status =>
        dsimp only at hr
        rw [h.isPending, if_neg Bool.false_ne_true] at hr
        cases hr
      | close =>
        cases hr
        cases hopen

/-- A step does not take back what was sent, and opens nothing. -/
theorem next_before {e : Event} (hn : next slack s e = some s') :
    (s'.runner.sent = [] → s.runner.sent = []) ∧
      (s'.runner.closed = false → s.runner.closed = false) := by
  cases e with
  | wait ms =>
    unfold next at hn
    dsimp only at hn
    split at hn
    · cases hn
    · cases hn
      exact ⟨id, id⟩
  | exam e =>
    obtain ⟨r, hr, rfl⟩ := Option.map_eq_some_iff.1 hn
    refine ⟨fun hsent => ?_, fun _ => ?_⟩
    · rcases (ExamRunner.step_moved hr).1.sent with hsame | happend
      · exact hsame ▸ hsent
      · exact absurd (happend.symm.trans hsent) (by simp)
    · unfold ExamRunner.step at hr
      split at hr
      · cases hr
      · next hclosed => exact Bool.eq_false_iff.2 hclosed

theorem onTime (hne : questions ≠ []) (hids : (questions.map (·.id)).Nodup)
    (hpos : ∀ q ∈ questions, 1 ≤ q.timeLimitSeconds)
    (h : Machine.Run (next slack) (fun _ _ => True) (mount questions start) s)
    (hsent : s.runner.sent = []) (hopen : s.runner.closed = false) :
    OnTime questions slack start s := by
  refine Machine.Run.keeps (P := fun s => s.runner.sent = [] → s.runner.closed = false →
    OnTime questions slack start s) h (fun _ _ => .init hne hpos) ?_ hsent hopen
  intro s e s' ih _ hn hsent hopen
  obtain ⟨hbefore, hopened⟩ := next_before hn
  exact (ih (hbefore hsent) (hopened hopen)).step hids hpos hn hsent hopen

end

section

variable {exam : List ExamQuestion} {slack : Nat} {start : Int} {s : TimedExam}

theorem total_public (exam : List ExamQuestion) :
    total (exam.map toPublic) = budgetSeconds exam := by
  unfold total budgetSeconds
  rw [List.map_map]
  rfl

theorem public_pos : ∀ q ∈ exam.map toPublic, 1 ≤ q.timeLimitSeconds := by
  intro q hq
  obtain ⟨q, -, rfl⟩ := List.mem_map.1 hq
  show 1 ≤ timeLimitForType q.type
  cases q.type <;> decide

/-- The first answers come before the deadline, where the exam is shown soon after the start of the
attempt, they reach the server soon, and the intervals of a second are not much longer. -/
theorem sent_in_time (hids : (exam.map (·.id)).Nodup) (hne : exam ≠ [])
    (h : Machine.Run (next slack) (fun _ _ => True) (mount (exam.map toPublic) start) s)
    (hsent : s.runner.sent = []) (hopen : s.runner.closed = false) {a : Assessment}
    {startedAt arrival : Int} (hstarted : a.startedAt = some startedAt)
    (hdelay : start - startedAt + (arrival - s.now) + budgetSeconds exam * slack ≤
      EXAM_GRACE_SECONDS * 1000) :
    isLate a exam arrival = false := by
  have hne' : exam.map toPublic ≠ [] := fun h => hne (List.map_eq_nil_iff.1 h)
  have hids' : ((exam.map toPublic).map (·.id)).Nodup := by
    rw [ExamRunner.ids_public]
    exact hids
  have honTime := onTime hne' hids' public_pos h hsent hopen
  have hrest := honTime.after_question
  have hleft : 0 ≤ total (s.runner.questions.drop (s.runner.index + 1)) * interval slack := by
    refine Int.mul_nonneg (List.sum_nonneg fun limit hlimit => ?_) (interval_pos slack).le
    obtain ⟨q, hq, rfl⟩ := List.mem_map.1 hlimit
    have hpos := public_pos q (honTime.same ▸ List.mem_of_mem_drop hq)
    omega
  have hbudget : total s.runner.questions * interval slack =
      budgetSeconds exam * 1000 + budgetSeconds exam * slack := by
    rw [honTime.same, total_public, interval, Int.mul_add]
  unfold isLate deadline
  rw [hstarted]
  refine decide_eq_false fun hlate => ?_
  have hpast : startedAt + (budgetSeconds exam * 1000 + EXAM_GRACE_SECONDS * 1000) < arrival := by
    rw [← Int.add_mul]
    exact hlate
  omega

/-- The first question runs out, and the answers are under way for 100 s. -/
theorem sent_in_time_late : ∃ s, Machine.Run (next 40) (fun _ _ => True)
    (mount (shortExam.map toPublic) 2000) s ∧ s.now = 94800 ∧
    isLate ⟨0, 7, 1, none, .inProgress, none, none, some 0, none, none, none, none, false, 0, 0,
      false, none, 0⟩ shortExam 194800 = false := by
  have hrun : (Machine.runLabels (next 40) (fun _ _ => true) (mount (shortExam.map toPublic) 2000)
      ((List.replicate 90 [.wait 1020, .exam .tick]).flatten ++
        [.wait 1000, .exam (.select 2)])).map (fun s => (s.now, s.runner.sent, s.runner.closed)) =
      some (94800, [], false) := by decide +kernel
  obtain ⟨s, hs, he⟩ := Option.map_eq_some_iff.1 hrun
  obtain ⟨hnow, hrest⟩ := Prod.mk.inj he
  obtain ⟨hsent, hclosed⟩ := Prod.mk.inj hrest
  have h : Machine.Run (next 40) (fun _ _ => True) (mount (shortExam.map toPublic) 2000) s :=
    (Machine.run_of_labels hs).mono fun _ _ _ => trivial
  refine ⟨s, h, hnow, sent_in_time (by decide) (by decide) h hsent hclosed rfl ?_⟩
  rw [hnow]
  decide

end

end TimedExam

end JobBoard.Client
