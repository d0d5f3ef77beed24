import JobBoard.Lib.Last
import JobBoard.Assessments.Effects

/-!
# Voided attempts

An attempt that crosses the hard limit of the proctoring, or is submitted after its
time, is voided: it gets the status INCIDENT. But a technical incident is recorded
by the same status, so that a voided attempt can be resumed and submitted
(`voided_attempt_scored`), and a webhook scores an attempt whatever its status is.
`voided_never_scored` says that this is all: without a webhook for the attempt and
without a resumption in time, it is never completed and gets no score.
-/

set_option autoImplicit false

namespace JobBoard.Assessments

open Txn Prog

/-- The calls that set an attempt to INCIDENT for good. -/
def Op.voids : Op → Bool
  | .recordProctoringEvents _ _ _ | .submitExam _ _ _ => true
  | _ => false

/-- The writes set the attempt `id` to INCIDENT. -/
def setsIncident (id : Id) : List Write → Bool
  | [.saveAssessment e _] => e.id = id && e.status = .incident
  | _ => false

/-- The last call has voided the attempt `id`. -/
def voidedLast (s : RunState) (id : Id) : Bool :=
  s.ops.getLast?.any Op.voids &&
    s.log.any fun g => g.call + 1 = s.ops.length && setsIncident id g.writes

/-- The attempt is not completed, and has no other score than before. -/
structure NeverScored (before after : Db) (id : Id) : Prop where
  status : ∀ a, after.assessment? id = some a → a.status ≠ .completed
  score : after.scoreOf id = before.scoreOf id

/-! ## The condition -/

section

variable (env : Environment) (id : Id)

/-- `Date.now()` is past the deadline of the attempt. -/
def Db.isLate (d : Db) (a : Assessment) : Bool :=
  ExamService.isLate a (ExamService.questionsOf env d a) d.now

/-- A resumption of the attempt that is let through comes too late for a submission,
and no webhook finalises it. -/
def keepsVoid (d : Db) : Op → Bool
  | .resumeAssessment candidateId assessmentId resumeToken => assessmentId ≠ id ||
      (d.own candidateId assessmentId .incident).all fun a =>
        a.resumeToken ≠ some resumeToken || d.isLate env a
  | .submitExam _ _ _ => true
  | op => (target env d op).all fun a => a.id ≠ id || (d.scoreOf a.id).isSome

def voidRuns : Runs Db Write Op :=
  ⟨fun d op => op.isAttempt && keepsVoid env id d op, fun _ _ _ => true, false⟩

/-- The attempt is under INCIDENT, or in progress past its deadline. -/
def Db.Void (d : Db) : Prop :=
  ∃ a, d.assessment? id = some a ∧
    (a.status = .incident ∨ (a.status = .inProgress ∧ d.isLate env a = true))

end

section

variable {env : Environment} {id : Id} {d d' : Db}

/-! ## One effect -/

theorem isLate_later {a a' : Assessment} (hstart : a'.startedAt = a.startedAt)
    (htest : a'.testId = a.testId) (hid : a'.id = a.id) (htests : d'.tests = d.tests)
    (hspec : d'.specialties = d.specialties) (hnow : d.now ≤ d'.now)
    (h : d.isLate env a = true) : d'.isLate env a' = true := by
  have hq : ExamService.questionsOf env d' a' = ExamService.questionsOf env d a := by
    simp only [ExamService.questionsOf, htest, hid, htests, hspec]
  simp only [Db.isLate, ExamService.isLate, hq, hstart] at h ⊢
  cases hs : a.startedAt with
  | none => simp [hs] at h
  | some startedAt =>
    simp only [hs, decide_eq_true_eq] at h ⊢
    exact Int.lt_of_lt_of_le h hnow

/-- The row is the same, and time has passed. -/
theorem Db.Void.later (h : d.Void env id) (hrow : d'.assessment? id = d.assessment? id)
    (htests : d'.tests = d.tests) (hspec : d'.specialties = d.specialties)
    (hnow : d.now ≤ d'.now) : d'.Void env id := by
  obtain ⟨a, ha, hst⟩ := h
  refine ⟨a, hrow.trans ha, ?_⟩
  rcases hst with hst | ⟨hst, hlate⟩
  · exact .inl hst
  · exact .inr ⟨hst, isLate_later rfl rfl rfl htests hspec hnow hlate⟩

/-- An attempt is saved that may not be submitted any more, or is another one. -/
theorem Db.Void.save {a e : Assessment} (h : d.Void env id) (ha : d.assessment? a.id = some a)
    (hid : e.id = a.id) (he : e.overwrite a a = e)
    (hst : a.id = id → e.status = .incident ∨ (e.status = .inProgress ∧ d.isLate env a = true)) :
    (store.apply d (.saveAssessment e a)).Void env id := by
  obtain ⟨row, hrow, hrst⟩ := h
  have hsave := assessment?_save ha hid he id
  split at hsave
  · next hi =>
    refine ⟨e, hsave, ?_⟩
    rcases hst hi.symm with hst | ⟨hst, hlate⟩
    · exact .inl hst
    · refine .inr ⟨hst, isLate_later ?_ ?_ hid rfl rfl (Int.le_refl _) hlate⟩ <;> rw [← he] <;> rfl
  · exact ⟨row, hsave.trans hrow, hrst⟩

/-- What an admitted effect makes of a void attempt and of its score. -/
theorem void_step {i : Id} {d₀ : Db} {op : Op} {ws : List Write}
    (h₀ : d₀.Void env id) (hop : (voidRuns env id).ops d₀ op = true) (h : d.Void env id)
    (heff : Effect env i d₀ op d ws) :
    (store.applyAll d ws).Void env id ∧ (store.applyAll d ws).scoreOf id = d.scoreOf id := by
  simp only [voidRuns, Bool.and_eq_true] at hop
  obtain ⟨-, hkeeps⟩ := hop
  -- no admitted call finalises the attempt
  have other : ∀ {a}, target env d₀ op = some a → d₀.scoreOf a.id = none → a.id ≠ id := by
    intro a ha hnone hid
    cases op
    case processWebhook | simulateCompletion =>
      rw [hid] at hnone
      simp [keepsVoid, ha, hid, hnone] at hkeeps
    case submitExam candidateId assessmentId answers =>
      simp only [target, Option.filter_eq_some_iff] at ha
      obtain ⟨hown, hlate⟩ := ha
      obtain ⟨hload, -, -, hst⟩ := own_eq hown
      obtain ⟨row, hrow, hrst⟩ := h₀
      rw [hid] at hload
      rw [hload] at hrow
      cases hrow
      rcases hrst with hrst | ⟨-, hrlate⟩
      · rw [hst] at hrst
        cases hrst
      · rw [Db.isLate] at hrlate
        simp [hrlate] at hlate
    all_goals cases ha
  cases heff with
  | quiet hq =>
    rename_i w
    have hsame := (SameAttempts.refl d).quiet hq
    refine ⟨h.later (hsame.assessment? id) hsame.tests hsame.specialties
      (Int.le_of_eq hsame.now.symm), ?_⟩
    · have : (store.apply d w).scores = d.scores := by
        cases w <;> first | exact hq.elim | rfl
      simp only [Store.applyAll_cons, Store.applyAll_nil, Db.scoreOf, this]
  | tick =>
    rename_i ms
    exact ⟨h.later rfl rfl rfl (Int.le_add_of_nonneg_right (Int.natCast_nonneg ms)), rfl⟩
  | start htest hok hnew =>
    refine ⟨h.later ?_ rfl rfl (Int.le_refl _), rfl⟩
    obtain ⟨row, hrow, -⟩ := h
    rw [hrow]
    exact Table.get?_insert_of_some hrow
  | resume ha htoken =>
    rename_i candidateId rid token a
    obtain ⟨hload, hid, -, -⟩ := own_eq ha
    refine ⟨h.save hload rfl (Assessment.overwrite_loaded ..) fun hi => ?_, rfl⟩
    obtain rfl : rid = id := hid.symm.trans hi
    simp only [keepsVoid, ha, htoken, Option.all_some] at hkeeps
    exact .inr ⟨rfl, by simpa using hkeeps⟩
  | incident ha =>
    exact ⟨h.save (own_eq ha).1 rfl (Assessment.overwrite_loaded ..)
      fun _ => .inl rfl, rfl⟩
  | record ha =>
    rename_i candidateId rid events a
    obtain ⟨hload, -, -, hst⟩ := own_eq ha
    refine ⟨h.save hload rfl ?_ fun hi => ?_, rfl⟩
    · exact Assessment.overwrite_loaded ..
    · obtain ⟨row, hrow, hrst⟩ := h
      rw [hi] at hload
      rw [hload] at hrow
      cases hrow
      simp only [hst, reduceCtorEq, true_and, false_or] at hrst
      simp only [AssessmentService.recorded]
      split
      · exact .inl rfl
      · exact .inr ⟨hst, hrst⟩
  | late ha hlate =>
    exact ⟨h.save (own_eq ha).1 rfl (Assessment.overwrite_loaded ..)
      fun _ => .inl rfl, rfl⟩
  | score ha hnone hid hs =>
    refine ⟨h.later rfl rfl rfl (Int.le_refl _), scoreOf_insert_other ?_⟩
    rw [hid]
    exact other ha hnone
  | complete hd ha hnone hsome =>
    rename_i a
    have hload : d.assessment? a.id = some a := by
      rw [hd.assessment?]
      exact target_load ha
    refine ⟨h.save hload rfl ?_ fun hi => absurd hi (other ha hnone), rfl⟩
    exact Assessment.overwrite_loaded ..

end

/-! ## The call that voids -/

section

variable {env : Environment} {i : Id} {d₀ : Db} {op : Op}

/-- After a call has set an attempt to INCIDENT, that is its status. -/
def SetsIncident (d₀ : Db) (gs : Published Write) (d : Db) : Prop :=
  ∀ g ∈ gs, ∀ e r, .saveAssessment e r ∈ g.2 → e.status = .incident →
    d.assessments ≠ d₀.assessments ∧ (d.assessment? e.id).map (·.status) = some .incident

theorem sets_incident : Steps env i d₀ op (SetsIncident d₀) := by
  intro gs d b ws h heff
  -- nothing was set before, and nothing is now
  have nothing : ∀ {d ws} (d' : Db), SetsIncident d₀ gs d → d.assessments = d₀.assessments →
      (∀ e r, .saveAssessment e r ∈ ws → e.status ≠ .incident) →
      SetsIncident d₀ (gs ++ [(b, ws)]) d' := by
    intro d ws d' h hsame hws g hg e r hmem hinc
    rw [List.mem_append, List.mem_singleton] at hg
    rcases hg with hg | rfl
    · exact absurd hsame (h g hg e r hmem hinc).1
    · exact absurd hinc (hws e r hmem)
  -- the first save
  have save : ∀ {a e : Assessment}, SetsIncident d₀ gs d₀ → d₀.assessment? a.id = some a →
      e.id = a.id → e.overwrite a a = e → a.status ≠ .incident →
      SetsIncident d₀ (gs ++ [(b, [.saveAssessment e a])])
        (store.applyAll d₀ [.saveAssessment e a]) := by
    intro a e h ha hid he hst g hg e' r hmem hinc
    rw [List.mem_append, List.mem_singleton] at hg
    rcases hg with hg | rfl
    · exact absurd rfl (h g hg e' r hmem hinc).1
    · rw [List.mem_singleton] at hmem
      cases hmem
      have hrow := assessment?_save ha hid he a.id
      rw [if_pos rfl] at hrow
      refine ⟨fun heq => ?_, ?_⟩
      · rw [Db.assessment?, show (store.apply d₀ (.saveAssessment e a)).assessments =
          d₀.assessments from heq, ← Db.assessment?, ha] at hrow
        cases hrow
        exact hst hinc
      · rw [hid]
        show ((store.apply d₀ (.saveAssessment e a)).assessment? a.id).map _ = _
        rw [hrow, Option.map_some, hinc]
  cases heff with
  | quiet hq =>
    rename_i w
    have hsame := (SameAttempts.refl d).quiet hq
    intro g hg e r hmem hinc
    rw [List.mem_append, List.mem_singleton] at hg
    rcases hg with hg | rfl
    · show (store.apply d w).assessments ≠ _ ∧ ((store.apply d w).assessment? e.id).map _ = _
      rw [hsame.assessments, hsame.assessment?]
      exact h g hg e r hmem hinc
    · rw [List.mem_singleton] at hmem
      subst hmem
      exact hq.elim
  | tick => exact nothing _ h rfl (by simp)
  | start => exact nothing _ h rfl (by simp)
  | resume ha =>
    refine nothing _ h rfl fun e r hmem => ?_
    rw [List.mem_singleton] at hmem
    cases hmem
    simp
  | incident ha =>
    refine save h (own_eq ha).1 rfl (Assessment.overwrite_loaded ..) ?_
    rw [(own_eq ha).2.2.2]
    simp
  | record ha =>
    refine save h (own_eq ha).1 rfl ?_ ?_
    · exact Assessment.overwrite_loaded ..
    · rw [(own_eq ha).2.2.2]
      simp
  | late ha =>
    refine save h (own_eq ha).1 rfl (Assessment.overwrite_loaded ..) ?_
    rw [(own_eq ha).2.2.2]
    simp
  | score => exact nothing _ h rfl (by simp)
  | complete hd =>
    refine nothing _ h hd.assessments fun e r hmem => ?_
    rw [List.mem_singleton] at hmem
    cases hmem
    simp [WebhookService.completed]

end

/-! ## Runs -/

section

variable {env : Environment} {d₀ : Db} {s₁ s : RunState} {id : Id}

/-- When no call runs, an attempt that the last call has voided is under INCIDENT. -/
theorem voided_incident (h₁ : (system env).Reach (oneAtATime attemptRuns) d₀ s₁)
    (hidle : s₁.Idle) (hvoid : voidedLast s₁ id = true) :
    ∃ a, s₁.db.assessment? id = some a ∧ a.status = .incident := by
  -- `SetsIncident` of the last call, from the database on which it started
  let I : RunState → Prop := fun s =>
    (∀ g ∈ s.log, g.call < s.ops.length) ∧ ∀ i, s.ops.length = i + 1 →
      ∀ g ∈ s.log, g.call = i → ∀ e r, .saveAssessment e r ∈ g.writes → e.status = .incident →
        (s.db.assessment? e.id).map (·.status) = some .incident
  have hI : I s₁ := by
    refine h₁.onward.idle (I := I) (J := fun t _ gs d => SetsIncident t.db gs d) ?_ rfl
      (fun _ => rfl) ⟨by simp [State.init], by simp [State.init]⟩ hidle
    refine ⟨fun _ _ _ => ?_, fun {t op} _ ht hop => ?_⟩
    · simp [SetsIncident]
    have hend : ∀ gs d r, SetsIncident t.db gs d → I (t.after op gs d r) := by
      intro gs d r hgs
      refine ⟨fun g hg => ?_, fun i hi g hg hcall e r' hmem hinc => ?_⟩
      · simp only [State.after, tagged, List.mem_append, List.mem_map, List.length_append,
          List.length_singleton] at hg ⊢
        rcases hg with hg | ⟨_, -, rfl⟩
        · have := ht.1 g hg
          omega
        · exact Nat.lt_succ_self _
      · simp only [State.after, tagged, List.mem_append, List.mem_map, List.length_append,
          List.length_singleton] at hg hi ⊢
        rcases hg with hg | ⟨g', hg', rfl⟩
        · have := ht.1 g hg
          omega
        · exact (hgs g' hg' e r' hmem hinc).2
    refine alone_mono (fun _ _ h => h) (fun gs d e h => hend gs d _ h) (fun gs d a htx h => ?_) .none
      (attempt_keeps (P := SetsIncident t.db) hop sets_incident (by simp [SetsIncident]))
    obtain ⟨rfl, h⟩ := h
    cases htx with
    | none => exact ⟨rfl, hend gs d _ h⟩
  simp only [voidedLast, Bool.and_eq_true, List.any_eq_true, decide_eq_true_eq] at hvoid
  obtain ⟨-, g, hlog, hcall, hsets⟩ := hvoid
  unfold setsIncident at hsets
  split at hsets
  · next e r hws =>
    simp only [Bool.and_eq_true, decide_eq_true_eq] at hsets
    have := hI.2 g.call hcall.symm g hlog rfl e r (by simp [hws]) hsets.2
    simpa [Option.map_eq_some_iff, hsets.1] using this
  · cases hsets

/-- After a call has voided an attempt, the runs that keep it void never complete it
and never give it a score. -/
theorem voided_never_scored (env : Environment) (d₀ : Db) (s₁ s : RunState) (id : Id)
    (h₁ : (system env).Reach (oneAtATime attemptRuns) d₀ s₁) (hidle : s₁.Idle)
    (hvoid : voidedLast s₁ id = true) (hs : (system env).Onward (oneAtATime (voidRuns env id)) s₁ s) :
    NeverScored s₁.db s.db id := by
  obtain ⟨a, ha, hst⟩ := voided_incident h₁ hidle hvoid
  have hd : s.db.Void env id ∧ s.db.scoreOf id = s₁.db.scoreOf id :=
    attempts_always (R := oneAtATime (voidRuns env id))
      (P := fun d => d.Void env id ∧ d.scoreOf id = s₁.db.scoreOf id) rfl
      (fun hop => (Bool.and_eq_true_iff.1 hop).1)
      (fun h hop d ws hP heff => by
        obtain ⟨hv, hsc⟩ := void_step h.1 hop hP.1 heff
        exact ⟨hv, hsc.trans hP.2⟩) hidle ⟨⟨a, ha, .inl hst⟩, rfl⟩ hs
  obtain ⟨⟨row, hrow, hrst⟩, hscore⟩ := hd
  refine ⟨fun a' ha' => ?_, hscore⟩
  rw [hrow] at ha'
  cases ha'
  rcases hrst with hrst | ⟨hrst, -⟩ <;> simp [hrst]

/-- Only the last call of a run one at a time may be running. -/
theorem idle_of_last {R : Runs Db Write Op} (h : (system env).Reach (oneAtATime R) d₀ s)
    (hlast : (s.call (s.ops.length - 1)).isRunning = false) : s.Idle := by
  intro i
  by_contra hrun
  have hlen := (h.onlyLast rfl).running i (by simpa using hrun)
  rw [show s.ops.length - 1 = i by omega] at hlast
  exact hrun hlast

end

/-! ## A void attempt that is scored -/

/-- The attempt crosses the hard limit, is resumed and submitted in time. -/
theorem voided_attempt_scored :
    ¬ ∀ (env : Environment) (d₀ : Db) (s₁ s : RunState) (id : Id),
      (system env).Reach (oneAtATime attemptRuns) d₀ s₁ → s₁.Idle → voidedLast s₁ id = true →
      (system env).Onward (oneAtATime attemptRuns) s₁ s → NeverScored s₁.db s.db id := by
  intro h
  have hrun : (((system .default).runLabels (oneAtATime attemptRuns) (State.init oneTest)
      (alone 0 (.startAssessment 7 20 ⟨none, none⟩) 9 ++
        alone 1 (.recordProctoringEvents 7 0 ⟨6, 6, by decide, by decide⟩) 8)).bind fun s₁ =>
      ((system .default).runLabels (oneAtATime attemptRuns) s₁
        (alone 2 (.resumeAssessment 7 0 0) 5 ++ alone 3 (.submitExam 7 0 [("q1", 2)]) 20)).map
      fun s => ((s₁.call (s₁.ops.length - 1)).isRunning, voidedLast s₁ 0,
        (s.db.assessment? 0).map (·.status))) = some (false, true, some .completed) := by
    decide
  obtain ⟨s₁, hs₁, hrun⟩ := Option.bind_eq_some_iff.1 hrun
  obtain ⟨s, hs, hv⟩ := Option.map_eq_some_iff.1 hrun
  simp only [Prod.mk.injEq, Option.map_eq_some_iff] at hv
  obtain ⟨hlast, hvoid, a, ha, hst⟩ := hv
  have hreach := System.runLabels_reach .init hs₁
  exact (h .default oneTest s₁ s 0 hreach (idle_of_last hreach hlast) hvoid
    (System.runLabels_onward .refl hs)).status a ha hst

/-- The condition admits a resumption after the time, and another submission. -/
theorem voided_never_scored_late : ∃ s₁ s : RunState, NeverScored s₁.db s.db 0 ∧
    (s.db.assessment? 0).map (·.status) = some .incident := by
  have hrun : (((system .default).runLabels (oneAtATime attemptRuns) (State.init oneTest)
      (alone 0 (.startAssessment 7 20 ⟨none, none⟩) 9 ++ alone 1 (.clock 300000) 2 ++
        alone 2 (.submitExam 7 0 [("q1", 2)]) 7)).bind fun s₁ =>
      ((system .default).runLabels (oneAtATime (voidRuns .default 0)) s₁
        (alone 3 (.resumeAssessment 7 0 0) 5 ++ alone 4 (.submitExam 7 0 [("q1", 2)]) 7)).map
      fun s => ((s₁.call (s₁.ops.length - 1)).isRunning, voidedLast s₁ 0,
        (s.db.assessment? 0).map (·.status))) = some (false, true, some .incident) := by
    decide
  obtain ⟨s₁, hs₁, hrun⟩ := Option.bind_eq_some_iff.1 hrun
  obtain ⟨s, hs, hv⟩ := Option.map_eq_some_iff.1 hrun
  simp only [Prod.mk.injEq] at hv
  obtain ⟨hlast, hvoid, hst⟩ := hv
  have hreach := System.runLabels_reach .init hs₁
  exact ⟨s₁, s, voided_never_scored .default oneTest s₁ s 0 hreach (idle_of_last hreach hlast) hvoid
    (System.runLabels_onward .refl hs), hst⟩

end JobBoard.Assessments
