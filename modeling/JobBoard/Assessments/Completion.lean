import JobBoard.Lib.Flat
import JobBoard.Assessments.Effects
import JobBoard.Assessments.Pieces

/-!
# Completed attempts and their scores

No service locks the attempt it has loaded. A heartbeat that loaded an attempt
before its finalisation and saves it afterwards puts the attempt back in progress
and clears `completedAt`, while the score stays (`heartbeat_undoes_completion`).
`completed_iff_scored` says that this is all: while no such save lands on a
completed attempt, COMPLETED is terminal, and the completed attempts are those with
a score as soon as the calls that inserted one have returned.
-/

set_option autoImplicit false

namespace JobBoard.Assessments

open Txn Prog

namespace Db

def Scored (d : Db) (id : Id) : Prop := (d.scoreOf id).isSome = true

def IsCompleted (d : Db) (id : Id) : Prop :=
  ∃ a, d.assessment? id = some a ∧ a.status = .completed

/-- `completedAt` is set on the completed attempts, and these have a score. -/
def Sound (d : Db) : Prop :=
  ∀ id a, d.assessment? id = some a →
    (a.status = .completed ↔ a.completedAt.isSome = true) ∧ (a.status = .completed → d.Scored id)

/-- The completed attempts are those with a score. -/
structure Consistent (d : Db) : Prop where
  completedAt : ∀ id a, d.assessment? id = some a →
    (a.status = .completed ↔ a.completedAt.isSome = true)
  scored : ∀ id, d.Scored id ↔ d.IsCompleted id

end Db

/-- The write sets the status or `completedAt` of an attempt to what they were
before it was completed. -/
def Write.undoes (d : Db) : Write → Bool
  | .saveAssessment entity reread => entity.status ≠ .completed &&
      (entity.status ≠ reread.status || entity.completedAt ≠ reread.completedAt) &&
      (d.assessment? entity.id).any (·.status = .completed)
  | _ => false

/-- No save lands on an attempt that was completed since the call has loaded it. -/
def completionRuns : Runs Db Write Op :=
  ⟨fun _ op => op.isAttempt, fun _ d ws => ws.all fun w => !w.undoes d, false⟩

/-- No group of the log takes an attempt out of COMPLETED or clears its
`completedAt`. -/
def Terminal (d₀ : Db) (log : List (Txn.Group Write)) : Prop :=
  ∀ l g r, log = l ++ g :: r → ∀ id a, (replay store d₀ l).assessment? id = some a →
    a.status = .completed → ∃ a', (replay store d₀ (l ++ [g])).assessment? id = some a' ∧
      a'.status = .completed ∧ a'.completedAt.isSome = true

/-- The call that has published `g` has saved a score of the attempt. -/
def inserts (g : Txn.Group Write) (id : Id) : Prop :=
  ∃ s, .insertScore s ∈ g.writes ∧ s.assessmentId = id

/-- Every call that has saved a score of the attempt has returned. -/
def Finalized (s : RunState) (id : Id) : Prop :=
  ∀ g ∈ s.log, inserts g id → ∃ r, s.call g.call = .done (.ok r)

/-! ## Steps -/

/-- What the steps of all calls do: attempts stay in the table, completed attempts
stay so, and scores stay. -/
structure Grows (d d' : Db) : Prop where
  rows : ∀ id, (d.assessment? id).isSome = true → (d'.assessment? id).isSome = true
  completed : ∀ id, d.IsCompleted id → d'.IsCompleted id
  scored : ∀ id, d.Scored id → d'.Scored id

/-- The groups that the calls publish on `d`. -/
inductive CompletionStep (d : Db) : List Write → Prop
  | quiet {w : Write} (h : w.Quiet) : CompletionStep d [w]
  | tick (ms : Nat) : CompletionStep d [.tick ms]
  | start {a : Assessment} (hst : a.status ≠ .completed) (hcompleted : a.completedAt = none)
      (hnew : d.assessment? a.id = none) : CompletionStep d [.insertAssessment a]
  | score (s : Score) : CompletionStep d [.insertScore s]
  | save {e r : Assessment} (hst : e.status ≠ .completed) (hcompleted : e.completedAt = none)
      (hkeep : (Write.saveAssessment e r).undoes d = false) :
      CompletionStep d [.saveAssessment e r]
  | complete {e r : Assessment} (hst : e.status = .completed)
      (hcompleted : e.completedAt.isSome = true) (hscored : d.Scored e.id)
      (hr : (r.status ≠ .completed ∧ r.completedAt = none) ∨ d.IsCompleted e.id) :
      CompletionStep d [.saveAssessment e r]

namespace Grows

variable {d d' d'' : Db}

theorem refl (d : Db) : Grows d d := ⟨fun _ => id, fun _ => id, fun _ => id⟩

theorem trans (h : Grows d d') (h' : Grows d' d'') : Grows d d'' where
  rows id hr := h'.rows id (h.rows id hr)
  completed id hc := h'.completed id (h.completed id hc)
  scored id hs := h'.scored id (h.scored id hs)

theorem of_eq (ha : d'.assessments = d.assessments) (hs : d'.scores = d.scores) : Grows d d' := by
  constructor <;> intro id h
  · simpa only [Db.assessment?, ha] using h
  · simpa only [Db.IsCompleted, Db.assessment?, ha] using h
  · simpa only [Db.Scored, Db.scoreOf, hs] using h

end Grows

section

variable {d : Db}

theorem Db.Sound.of_eq {d' : Db} (h : d.Sound) (ha : d'.assessments = d.assessments)
    (hs : d'.scores = d.scores) : d'.Sound := by
  simpa only [Db.Sound, Db.Scored, Db.assessment?, Db.scoreOf, ha, hs] using h

theorem Write.Quiet.scores {w : Write} (h : w.Quiet) : (store.apply d w).scores = d.scores := by
  cases w <;> first | exact h.elim | rfl

/-- A row is saved such that it is completed afterwards if it was before, and is
so with `completedAt` and a score. -/
theorem save_sound {e r : Assessment} (hsound : d.Sound)
    (h : ∀ a, d.assessment? e.id = some a →
      (a.status = .completed → (e.overwrite r a).status = .completed) ∧
      ((e.overwrite r a).status = .completed ↔ (e.overwrite r a).completedAt.isSome = true) ∧
      ((e.overwrite r a).status = .completed → d.Scored e.id)) :
    (store.apply d (.saveAssessment e r)).Sound ∧
      Grows d (store.apply d (.saveAssessment e r)) := by
  refine ⟨fun id a ha => ?_, fun id hr => ?_, fun id hc => ?_, fun _ hs => hs⟩
  · rw [assessment?_saved] at ha
    split at ha
    · next hid =>
      subst hid
      obtain ⟨a₀, ha₀, rfl⟩ := Option.map_eq_some_iff.1 ha
      exact (h a₀ ha₀).2
    · exact hsound id a ha
  · rw [assessment?_saved]
    split
    · rwa [Option.isSome_map]
    · exact hr
  · obtain ⟨a, ha, hst⟩ := hc
    simp only [Db.IsCompleted, assessment?_saved]
    split
    · next hid =>
      subst hid
      exact ⟨_, by rw [ha]; rfl, (h a ha).1 hst⟩
    · exact ⟨a, ha, hst⟩

theorem CompletionStep.sound {ws : List Write} (hsound : d.Sound) (h : CompletionStep d ws) :
    (store.applyAll d ws).Sound ∧ Grows d (store.applyAll d ws) := by
  cases h with
  | @quiet w hq =>
    have hsame := (SameAttempts.refl d).quiet hq
    exact ⟨hsound.of_eq hsame.assessments (hq.scores), .of_eq hsame.assessments (hq.scores)⟩
  | tick ms => exact ⟨hsound.of_eq rfl rfl, .of_eq rfl rfl⟩
  | @start a hst hcompleted hnew =>
    have hrow : ∀ id, (store.apply d (.insertAssessment a)).assessment? id =
        if a.id = id then some a else d.assessment? id := fun id => Table.get?_insert hnew
    refine ⟨fun id a' ha' => ?_, fun id hr => ?_, fun id hc => ?_, fun _ hs => hs⟩
    · rw [Store.applyAll_cons, Store.applyAll_nil, hrow] at ha'
      split at ha'
      · cases ha'
        exact ⟨by simp [hst, hcompleted], fun h => absurd h hst⟩
      · exact hsound id a' ha'
    · obtain ⟨a', ha'⟩ := Option.isSome_iff_exists.1 hr
      exact Option.isSome_iff_exists.2 ⟨a', Table.get?_insert_of_some ha'⟩
    · obtain ⟨a', ha', hst'⟩ := hc
      exact ⟨a', Table.get?_insert_of_some ha', hst'⟩
  | score s =>
    have hscored : ∀ id, d.Scored id → (store.apply d (.insertScore s)).Scored id :=
      fun id => scoreOf_insert_isSome
    refine ⟨fun id a ha => ?_, fun _ hr => hr, fun _ hc => hc, hscored⟩
    obtain ⟨hiff, hs⟩ := hsound id a ha
    exact ⟨hiff, fun hst => hscored id (hs hst)⟩
  | @save e r hst hcompleted hkeep =>
    refine save_sound hsound fun a ha => ?_
    obtain ⟨hiff, hs⟩ := hsound e.id a ha
    simp only [Write.undoes, ha, Option.any_some, hcompleted] at hkeep
    simp only [Assessment.overwrite, setColumn]
    grind
  | @complete e r hst hcompleted hscored hr =>
    refine save_sound hsound fun a ha => ?_
    obtain ⟨hiff, hs⟩ := hsound e.id a ha
    simp only [Assessment.overwrite, setColumn]
    simp only [Db.IsCompleted, ha] at hr
    grind

/-- The attempt that a finalisation saves is completed. -/
theorem complete_isCompleted {e r : Assessment} (hst : e.status = .completed)
    (hr : r.status ≠ .completed ∨ d.IsCompleted e.id) (hrow : (d.assessment? e.id).isSome = true) :
    (store.apply d (.saveAssessment e r)).IsCompleted e.id := by
  obtain ⟨a, ha⟩ := Option.isSome_iff_exists.1 hrow
  refine ⟨e.overwrite r a, by rw [assessment?_saved, if_pos rfl, ha]; rfl, ?_⟩
  simp only [Assessment.overwrite, setColumn, hst]
  split
  · next heq =>
    obtain ⟨a', ha', hst'⟩ := hr.resolve_left (not_not.2 heq.symm)
    rw [ha] at ha'
    cases ha'
    exact hst'
  · rfl

/-- An attempt that is not completed has no `completedAt`. -/
theorem Db.Sound.open (h : d.Sound) {a : Assessment} (ha : d.assessment? a.id = some a)
    (hst : a.status ≠ .completed) : a.completedAt = none := by
  have := (h a.id a ha).1
  simpa [hst] using this

end

/-! ## Pieces -/

/-- The attempts of the scores that a call has saved are completed, but for one
that the call is about to complete. -/
structure Owes (owed : Option Id) (gs : Published Write) (d : Db) : Prop where
  scored : ∀ id, owed = some id → d.Scored id
  completed : ∀ g ∈ gs, ∀ s, .insertScore s ∈ g.2 →
    owed = some s.assessmentId ∨ d.IsCompleted s.assessmentId

section

variable {owed : Option Id} {gs : Published Write} {d d' : Db}

theorem Owes.later (h : Owes owed gs d) (hr : Grows d d') : Owes owed gs d' where
  scored id ho := hr.scored id (h.scored id ho)
  completed g hg s hs := (h.completed g hg s hs).imp id (hr.completed _)

/-- Another group is published, without a score. -/
theorem Owes.publish (h : Owes owed gs d) (hr : Grows d d') {ws : List Write}
    (hws : ∀ s, .insertScore s ∉ ws) : Owes owed (gs ++ [(false, ws)]) d' where
  scored id ho := hr.scored id (h.scored id ho)
  completed g hg s hs := by
    rw [List.mem_append, List.mem_singleton] at hg
    rcases hg with hg | rfl
    · exact (h.completed g hg s hs).imp id (hr.completed _)
    · exact absurd hs (hws s)

/-- A score is saved. -/
theorem Owes.score {s : Score} (h : Owes none gs d) (hr : Grows d (store.apply d (.insertScore s)))
    (hv : WebhookService.scoreViolation s d = none) :
    Owes (some s.assessmentId) (gs ++ [(false, [.insertScore s])])
      (store.apply d (.insertScore s)) where
  scored id ho := by
    cases ho
    rw [Db.Scored, scoreOf_insertScore hv]
    rfl
  completed g hg s' hs := by
    rw [List.mem_append, List.mem_singleton] at hg
    rcases hg with hg | rfl
    · rcases h.completed g hg s' hs with ho | hc
      · cases ho
      · exact .inr (hr.completed _ hc)
    · rw [List.mem_singleton] at hs
      cases hs
      exact .inl rfl

/-- The attempt is completed. -/
theorem Owes.paid {id : Id} (h : Owes (some id) gs d) (hc : d.IsCompleted id) : Owes none gs d where
  scored id ho := by cases ho
  completed g hg s hs := by
    rcases h.completed g hg s hs with ho | hc'
    · cases ho
      exact .inr hc
    · exact .inr hc'

variable {α : Type}

/-- A piece of a call, in any interleaving that undoes no completion. -/
abbrev Flows (p : M α) (Q : Published Write → Db → α → Prop) (gs : Published Write) (d : Db) :
    Prop :=
  p.flat store Grows (fun d ws => (ws.all fun w => !w.undoes d) = true) Db.Sound CompletionStep Q
    gs d

theorem flows_bind {β : Type} {p : M α} {f : α → M β} {Q : Published Write → Db → β → Prop}
    (h : Flows p (fun gs d a => Flows (f a) Q gs d) gs d) : Flows (p >>= f) Q gs d :=
  (flat_bind p f Q gs d).2 h

theorem flows_then {β : Type} {p : M α} {f : α → M β} {Q : Published Write → Db → α → Prop}
    {Q' : Published Write → Db → β → Prop} (h : Flows p Q gs d)
    (hf : ∀ gs d a, Q gs d a → Flows (f a) Q' gs d) : Flows (p >>= f) Q' gs d :=
  flows_bind (flat_mono hf h)

theorem flows_select {f : Db → α} {Q : Published Write → Db → α → Prop} (h : Owes owed gs d)
    (hQ : ∀ d', d'.Sound → Owes owed gs d' → Q gs d' (f d')) : Flows (select f) Q gs d :=
  flat_select fun d' hr hs => hQ d' hs (h.later hr)

/-- Nothing, or one quiet write. -/
def QuietGroup (ws : List Write) : Prop := ∀ w ∈ ws, w.Quiet ∧ ws = [w]

theorem flows_quiet {p : M α} (hp : p.Plain QuietGroup QuietGroup fun _ => True)
    {Q : Published Write → Db → α → Prop} (h : Owes owed gs d)
    (hQ : ∀ gs d a, Owes owed gs d → Q gs d a) : Flows p Q gs d := by
  refine hp.flat (fun gs d d' h hr => h.later hr) (fun gs d ws h hs hws => ?_) hQ h
  cases ws with
  | nil => exact h
  | cons w ws =>
    obtain ⟨hq, hws⟩ := hws w List.mem_cons_self
    rw [hws]
    have hstep := CompletionStep.quiet (d := d) hq
    refine ⟨hstep, h.publish (hstep.sound hs).2 fun s hmem => ?_⟩
    rw [List.mem_singleton] at hmem
    subst hmem
    exact hq

theorem flows_loadOwn {candidateId id : Id} {status : AssessmentStatus} {message : String}
    {Q : Published Write → Db → Assessment → Prop} (hopen : status ≠ .completed)
    (h : Owes owed gs d) (hQ : ∀ d' a, d'.own candidateId id status = some a →
      a.completedAt = none → Owes owed gs d' → Q gs d' a) :
    Flows (AssessmentService.loadOwn candidateId id status message) Q gs d := by
  unfold AssessmentService.loadOwn AssessmentRepository.findById
  refine flows_bind (flows_select h fun d' hs h => ?_)
  split
  · trivial
  · next a ha =>
    split
    · trivial
    · next hc =>
      split
      · trivial
      · next hst =>
        have hown : d'.own candidateId id status = some a := by simp_all [Db.own]
        obtain ⟨hload, -, -, hstatus⟩ := own_eq hown
        exact hQ d' a hown (hs.open hload (by rwa [hstatus])) h

/-- An `INSERT` of a row that breaks no constraint. -/
theorem flows_insert {violated : Db → Option String} {w : Write} {a : α}
    {Q : Published Write → Db → α → Prop} (h : Owes owed gs d)
    (hQ : ∀ d', Owes owed gs d' → violated d' = none → CompletionStep d' [w] ∧
      (Grows d' (store.apply d' w) → Q (gs ++ [(false, [w])]) (store.apply d' w) a)) :
    Flows (insertUnique violated w a) Q gs d := by
  refine flat_query fun d' ws a' hr hs hf _ => ?_
  split at hf
  · cases hf
  · next hv =>
    cases hf
    obtain ⟨hstep, hQ⟩ := hQ d' (h.later hr) hv
    exact ⟨hstep, hQ (hstep.sound hs).2⟩

/-- An attempt is saved by a call that does not complete it. -/
theorem flows_save {e : Assessment} {Q : Published Write → Db → Assessment → Prop}
    (hst : e.status ≠ .completed) (hcompleted : e.completedAt = none) (h : Owes owed gs d)
    (hQ : ∀ gs d, Owes owed gs d → Q gs d e) : Flows (AssessmentRepository.save e) Q gs d := by
  unfold AssessmentRepository.save AssessmentRepository.findById
  refine flows_bind (flows_select h fun d' _ h => ?_)
  split
  · trivial
  · next r _ =>
    split
    · exact hQ gs d' h
    · refine flows_bind (flat_write fun d'' hr hs hadm => ?_)
      have hstep : CompletionStep d'' [.saveAssessment e r] :=
        .save hst hcompleted (by simpa using hadm)
      exact ⟨hstep, hQ _ _ (h.publish (hr.trans (hstep.sound hs).2) (by simp))⟩

/-- An attempt is completed of which a score has been saved. -/
theorem flows_complete {e : Assessment} {Q : Published Write → Db → Assessment → Prop}
    (hst : e.status = .completed) (hcompleted : e.completedAt.isSome = true)
    (h : Owes (some e.id) gs d) (hQ : ∀ gs d, Owes none gs d → Q gs d e) :
    Flows (AssessmentRepository.save e) Q gs d := by
  unfold AssessmentRepository.save AssessmentRepository.findById
  refine flows_bind (flows_select h fun d' hs h => ?_)
  split
  · trivial
  · next r hrow =>
    split
    · next hsame =>
      refine hQ gs d' (h.paid ⟨r, hrow, ?_⟩)
      rw [← hst, ← hsame]
      exact setColumn_reread _ _
    · refine flows_bind (flat_write fun d'' hr hs' _ => ?_)
      have hback : (r.status ≠ .completed ∧ r.completedAt = none) ∨ d''.IsCompleted e.id := by
        by_cases hrst : r.status = .completed
        · exact .inr (hr.completed _ ⟨r, hrow, hrst⟩)
        · refine .inl ⟨hrst, ?_⟩
          have := (hs e.id r hrow).1
          simpa [hrst] using this
      have hstep : CompletionStep d'' [.saveAssessment e r] :=
        .complete hst hcompleted (hr.scored _ (h.scored _ rfl)) hback
      refine ⟨hstep, hQ _ _ ((h.publish (hr.trans (hstep.sound hs').2) (by simp)).paid ?_)⟩
      refine complete_isCompleted hst (hback.imp (·.1) id) (hr.rows _ ?_)
      rw [hrow]
      rfl

end

/-! ## Calls -/

section

variable {env : Environment} {i : Id} {d : Db} {gs : Published Write} {owed : Option Id}

theorem quietGroups : Passes QuietGroup fun _ => True where
  nil w hw := by cases hw
  log entry w hw := by
    rw [List.mem_singleton] at hw
    subst hw
    exact ⟨trivial, rfl⟩
  profile e r w hw := by
    rw [List.mem_singleton] at hw
    subst hw
    exact ⟨trivial, rfl⟩
  error _ := trivial

/-- What every call ends with. -/
abbrev Settled (α : Type) : Published Write → Db → α → Prop := fun gs d _ => Owes none gs d

theorem resumeAssessment_flows {candidateId id token : Id} (h : Owes none gs d) :
    Flows (AssessmentService.resumeAssessment i candidateId id token) (Settled _) gs d := by
  unfold AssessmentService.resumeAssessment
  refine flows_bind (flows_loadOwn (by simp) h fun d' a _ hopen h => ?_)
  split
  · trivial
  · refine flows_bind (flows_save (by simp) hopen h fun gs d h => ?_)
    exact flows_quiet ((quietGroups.log_plain _).bind fun _ => plain_ret _) h fun _ _ _ h => h

theorem reportIncident_flows {candidateId id : Id} (h : Owes none gs d) :
    Flows (AssessmentService.reportIncident candidateId id) (Settled _) gs d := by
  unfold AssessmentService.reportIncident
  refine flows_bind (flows_loadOwn (by simp) h fun d' a _ hopen h => ?_)
  refine flows_bind (flows_save (by simp) hopen h fun gs d h => ?_)
  exact flows_quiet ((quietGroups.log_plain _).bind fun _ => plain_ret _) h fun _ _ _ h => h

theorem recordProctoringEvents_flows {candidateId id : Id} {events : RecordProctoringEventsDto}
    (h : Owes none gs d) :
    Flows (AssessmentService.recordProctoringEvents candidateId id events) (Settled _) gs d := by
  unfold AssessmentService.recordProctoringEvents
  refine flows_bind (flows_loadOwn (by simp) h fun d' a ha hopen h => ?_)
  refine flows_bind (flows_select h fun _ _ h => flows_bind (flows_select h fun _ _ h => ?_))
  refine flows_bind (flows_save ?_ hopen h fun gs d h => ?_)
  · simp only [AssessmentService.recorded, (own_eq ha).2.2.2]
    split <;> simp
  · exact flows_quiet (quietGroups.logIf_plain (quietGroups.logIf_plain (plain_ret _))) h fun _ _ _ h => h

theorem startAssessment_flows {candidateId testId : Id} {context : AssessmentStartContext}
    (h : Owes none gs d) :
    Flows (AssessmentService.startAssessment env i candidateId testId context) (Settled _) gs d := by
  unfold AssessmentService.startAssessment
  refine flows_bind (flows_select h fun d' _ h => ?_)
  split
  · trivial
  · next test _ =>
    split
    · trivial
    · refine flows_bind (flows_quiet (quietGroups.checkEligibility_plain _ _) h fun gs d _ h => ?_)
      refine flows_bind (flows_quiet (quietGroups.detectMultiAccount_plain _ _) h fun gs d sharedBy h => ?_)
      refine flows_bind (flat_outside fun d' hr _ => ?_)
      refine flows_bind (flows_select (h.later hr) fun d' _ h => ?_)
      refine flows_bind (flows_insert h fun d'' h hv => ⟨?_, fun hr => ?_⟩)
      · exact .start (by simp [AssessmentService.newAssessment]) rfl (by simpa using hv)
      · refine flows_quiet ((quietGroups.log_plain _).bind fun _ => ?_) (h.publish hr ?_) fun _ _ _ h => h
        · split
          · exact plain_ret _
          · exact (quietGroups.log_plain _).bind fun _ => plain_ret _
        · simp

/-- The score is saved, then the attempt is completed. -/
theorem score_flows {a : Assessment} {result : AssessmentResult} (h : Owes none gs d) :
    Flows (WebhookService.score i a result) (Settled _) gs d := by
  unfold WebhookService.score WebhookService.complete getNumber now
  refine flows_bind (flows_quiet (quietGroups.computeCompositeScore_plain _) h fun gs d _ h => ?_)
  refine flows_bind (flows_select h fun _ _ h => flows_bind (flows_select h fun _ _ h => ?_))
  refine flows_bind (flows_select h fun _ _ h => flows_bind (flows_select h fun _ _ h => ?_))
  refine flows_bind (flows_quiet (quietGroups.countCollisions_plain _ _) h fun gs d _ h => ?_)
  refine flows_bind (flows_insert h fun d' h hv => ⟨.score _, fun hr => ?_⟩)
  refine flows_bind (flows_bind (flows_select (h.score hr hv) fun _ _ h => ?_))
  refine flows_bind (flows_complete rfl rfl h fun gs d h => ?_)
  refine flows_quiet ((quietGroups.log_plain _).bind fun _ => (quietGroups.log_plain _).bind fun _ => ?_) h
    fun gs d _ h => h
  exact quietGroups.applyThresholds_plain _

theorem finalizeAssessment_flows {a : Assessment} {provided fetched : Option AssessmentResult}
    (h : Owes none gs d) :
    Flows (WebhookService.finalizeAssessment i a provided fetched) (Settled _) gs d := by
  unfold WebhookService.finalizeAssessment
  dsimp only
  split
  · trivial
  · refine flows_bind (flows_select h fun d' _ h => ?_)
    split
    · exact h
    · exact flows_bind (flows_quiet (quietGroups.obtainResult_plain quietGroups.nil _ _ _) h fun gs d _ h => score_flows h)

theorem processWebhook_flows {verification : WebhookVerificationResult}
    {fetched : Option AssessmentResult} (h : Owes none gs d) :
    Flows (WebhookService.processWebhook i verification fetched) (Settled _) gs d := by
  unfold WebhookService.processWebhook AssessmentRepository.findOne
  split
  · trivial
  · split
    · trivial
    · refine flows_bind (flows_select h fun d' _ h => ?_)
      split
      · trivial
      · exact finalizeAssessment_flows h

theorem loadContext_flows {candidateId id : Id}
    {Q : Published Write → Db → Assessment × List ExamQuestion → Prop} (h : Owes none gs d)
    (hQ : ∀ d' a questions, a.completedAt = none → Owes none gs d' → Q gs d' (a, questions)) :
    Flows (ExamService.loadContext env candidateId id) Q gs d := by
  unfold ExamService.loadContext
  refine flows_bind (flows_loadOwn (by simp) h fun d' a _ hopen h => ?_)
  refine flows_bind (flows_select h fun d' _ h => ?_)
  split
  · exact hQ _ _ _ hopen h
  · exact flows_bind (flows_select h fun d' _ h => hQ _ _ _ hopen h)

theorem submitExam_flows {candidateId id : Id} {answers : List (String × Int)}
    (h : Owes none gs d) :
    Flows (ExamService.submitExam env i candidateId id answers) (Settled _) gs d := by
  unfold ExamService.submitExam
  refine flows_bind (loadContext_flows h fun d' a questions hopen h => ?_)
  refine flows_bind (flows_select h fun d' _ h => ?_)
  dsimp only
  split
  · exact flows_bind (flows_save (by simp) hopen h fun gs d h => trivial)
  · exact flows_then (finalizeAssessment_flows h) fun gs d _ h => h

theorem simulateCompletion_flows {candidateId id : Id} {fetched : Option AssessmentResult}
    (h : Owes none gs d) :
    Flows (WebhookService.simulateCompletion i candidateId id fetched) (Settled _) gs d := by
  unfold WebhookService.simulateCompletion
  exact flows_bind (flows_loadOwn (by simp) h fun d' a _ _ h => finalizeAssessment_flows h)

/-- Every call on attempts: what it publishes are steps, and when it returns, the
attempts that it has saved a score of are completed. -/
theorem attempt_flows {op : Op} (hop : op.isAttempt = true) :
    Flows (program env i op) (Settled _) [] d := by
  have h : Owes none [] d := ⟨by simp, by simp⟩
  cases op
  case clock ms =>
    refine flows_bind (flat_write fun d' hr hs _ => ⟨.tick ms, ?_⟩)
    exact (h.later hr).publish ((CompletionStep.tick ms).sound hs).2 (by simp)
  case startAssessment => exact flows_then (startAssessment_flows h) fun _ _ _ h => h
  case resumeAssessment => exact flows_then (resumeAssessment_flows h) fun _ _ _ h => h
  case reportIncident => exact flows_then (reportIncident_flows h) fun _ _ _ h => h
  case recordProctoringEvents => exact flows_then (recordProctoringEvents_flows h) fun _ _ _ h => h
  case submitExam => exact flows_then (submitExam_flows h) fun _ _ _ h => h
  case processWebhook => exact flows_then (processWebhook_flows h) fun _ _ _ h => h
  case simulateCompletion => exact flows_then (simulateCompletion_flows h) fun _ _ _ h => h
  all_goals cases hop

end

/-! ## Runs -/

section

variable {env : Environment} {d₀ : Db} {s : RunState}

theorem completion_flat (env : Environment) :
    Flat (system env) completionRuns Grows Db.Sound (fun _ => CompletionStep)
      (fun _ gs d _ => Owes none gs d) where
  refl := Grows.refl
  trans _ _ _ := Grows.trans
  step hs h := h.sound hs
  post _ _ _ _ _ h hr := h.later hr
  prog _ hop := attempt_flows hop

theorem Db.Consistent.sound {d : Db} (h : d.Consistent) : d.Sound := fun id a ha =>
  ⟨h.completedAt id a ha, fun hst => (h.scored id).2 ⟨a, ha, hst⟩⟩

/-- A new score comes with its group. -/
theorem CompletionStep.scored {d : Db} {ws : List Write} {id : Id} (h : CompletionStep d ws)
    (hs : (store.applyAll d ws).Scored id) :
    d.Scored id ∨ ∃ s, .insertScore s ∈ ws ∧ s.assessmentId = id := by
  cases h with
  | @quiet w hq =>
    refine .inl ?_
    rwa [Store.applyAll_cons, Store.applyAll_nil, Db.Scored, Db.scoreOf, hq.scores] at hs
  | tick ms => exact .inl hs
  | start => exact .inl hs
  | score s =>
    by_cases hid : s.assessmentId = id
    · exact .inr ⟨s, List.mem_singleton_self _, hid⟩
    · refine .inl ?_
      rwa [Store.applyAll_cons, Store.applyAll_nil, Db.Scored, scoreOf_insert_other hid] at hs
  | save => exact .inl hs
  | complete => exact .inl hs

theorem terminal_of_good (h : FlatGood (system env) completionRuns Grows Db.Sound
    (fun _ => CompletionStep) (fun _ gs d _ => Owes none gs d) d₀ s) : Terminal d₀ s.log := by
  intro l g r hlog id a ha hst
  obtain ⟨op, -, hsound, hstep⟩ := h.log hlog
  obtain ⟨hsound', hgrows⟩ := hstep.sound hsound
  rw [replay_snoc]
  obtain ⟨a', ha', hst'⟩ := hgrows.completed id ⟨a, ha, hst⟩
  exact ⟨a', ha', hst', (hsound' id a' ha').1.1 hst'⟩

/-- A score was there at the start, or a group of the log has inserted it. -/
theorem scored_of_good (h : FlatGood (system env) completionRuns Grows Db.Sound
    (fun _ => CompletionStep) (fun _ gs d _ => Owes none gs d) d₀ s) {id : Id}
    (hs : s.db.Scored id) : d₀.Scored id ∨ ∃ g ∈ s.log, inserts g id := by
  have prefixes : ∀ l r, s.log = l ++ r → (replay store d₀ l).Scored id →
      d₀.Scored id ∨ ∃ g ∈ l, inserts g id := by
    intro l
    induction l using List.reverseRecOn with
    | nil => exact fun r _ hs => .inl hs
    | append_singleton l g ih =>
      intro r hlog hs
      rw [List.append_assoc] at hlog
      obtain ⟨op, -, -, hstep⟩ := h.log hlog
      rw [replay_snoc] at hs
      rcases hstep.scored hs with hs | hnew
      · rcases ih _ hlog hs with hs | ⟨g', hg', hins⟩
        · exact .inl hs
        · exact .inr ⟨g', List.mem_append_left _ hg', hins⟩
      · exact .inr ⟨g, List.mem_append_right _ (List.mem_singleton_self g), hnew⟩
  have hreplay : s.db = replay store d₀ s.log := h.replay
  rw [hreplay] at hs
  exact prefixes s.log [] (List.append_nil _).symm hs

end

/-! ## A completion that is undone -/

/-- A heartbeat loads the attempt, which is submitted and finalised before the
heartbeat goes on. -/
def overtakenHeartbeat : List (Label Error Op) :=
  alone 0 (.startAssessment 7 20 ⟨none, none⟩) 9 ++
    .spawn (.recordProctoringEvents 7 0 ⟨1, 0, by decide, by decide⟩) ::
      List.replicate 3 (.step 1) ++ alone 2 (.submitExam 7 0 [("q1", 2)]) 20

theorem oneTest_consistent : oneTest.Consistent := by
  have hrow : ∀ id, oneTest.assessment? id = none := fun id => rfl
  refine ⟨fun id a ha => ?_, fun id => ⟨fun hs => ?_, fun ⟨a, ha, _⟩ => ?_⟩⟩
  · rw [hrow] at ha
    cases ha
  · cases hs
  · rw [hrow] at ha
    cases ha

end JobBoard.Assessments
