import JobBoard.Lib.Trace
import JobBoard.Assessments.Pieces
import JobBoard.Assessments.Remediation

/-!
# Notifications of the cooldown sweep

`sweep_sound`: as long as no save of an attempt clears the mark of a claim, each attempt leads to
one notification at most, whatever sweeps interleave, fail or are repeated. A notification says
that the candidate may take the test again. This is so when no later attempt of the candidate
at the test is completed, or the cooldown of the last one is over as well: the sweep asks for
every attempt whether its own cooldown is over, `checkEligibility` for the last one only.
-/

set_option autoImplicit false

namespace JobBoard.Assessments.Remediation

open Txn Prog

/-! ## The calls on attempts -/

/-- A statement that writes one row at most. -/
def Single (ws : List Assessments.Write) : Prop := ws = [] ∨ ∃ w, ws = [w]

theorem single (w : Assessments.Write) : Single [w] := .inr ⟨w, rfl⟩

theorem singleGroups : Passes Single fun _ => True where
  nil := .inl rfl
  log _ := single _
  profile _ _ := single _
  error _ := trivial

abbrev Singly {α : Type} (p : Assessments.M α) : Prop := p.Plain Single Single fun _ => True

theorem saveAttempt_singly (e : Assessment) : Singly (AssessmentRepository.save e) := by
  unfold AssessmentRepository.save AssessmentRepository.findById
  refine (singleGroups.read_plain _).bind fun reread => ?_
  split
  · exact plain_throw trivial
  · split
    · exact plain_ret _
    · exact Plain.bind (plain_write fun _ => single _) fun _ => plain_ret _

theorem insertUnique_singly {α : Type} (violated : Assessments.Db → Option String)
    (w : Assessments.Write) (a : α) : Singly (insertUnique violated w a) := by
  refine plain_query singleGroups.nil (fun db r hr => ?_) fun _ _ _ => trivial
  split at hr
  · cases hr
  · cases hr
    exact single _

theorem loadOwn_singly (candidateId assessmentId : Id) (status : AssessmentStatus)
    (message : String) :
    Singly (AssessmentService.loadOwn candidateId assessmentId status message) := by
  unfold AssessmentService.loadOwn AssessmentRepository.findById
  refine (singleGroups.read_plain _).bind fun a? => ?_
  split
  · exact plain_throw trivial
  · split
    · exact plain_throw trivial
    · split
      · exact plain_throw trivial
      · exact plain_ret _

theorem startAssessment_singly (env : Environment) (uuid candidateId testId : Id)
    (context : AssessmentStartContext) :
    Singly (AssessmentService.startAssessment env uuid candidateId testId context) := by
  unfold AssessmentService.startAssessment now
  refine (singleGroups.read_plain _).bind fun test? => ?_
  split
  · exact plain_throw trivial
  · split
    · exact plain_throw trivial
    · refine (singleGroups.checkEligibility_plain _ _).bind fun _ => ?_
      refine (singleGroups.detectMultiAccount_plain _ _).bind fun sharedBy => ?_
      refine Plain.bind (plain_outside fun _ => .inl rfl) fun _ => ?_
      refine (singleGroups.read_plain _).bind fun time => ?_
      refine (insertUnique_singly _ _ _).bind fun saved => (singleGroups.log_plain _).bind fun _ => ?_
      split
      · exact plain_ret _
      · exact (singleGroups.log_plain _).bind fun _ => plain_ret _

theorem resumeAssessment_singly (uuid candidateId assessmentId resumeToken : Id) :
    Singly (AssessmentService.resumeAssessment uuid candidateId assessmentId resumeToken) := by
  unfold AssessmentService.resumeAssessment
  refine (loadOwn_singly _ _ _ _).bind fun a => ?_
  split
  · exact plain_throw trivial
  · exact (saveAttempt_singly _).bind fun _ => (singleGroups.log_plain _).bind fun _ => plain_ret _

theorem reportIncident_singly (candidateId assessmentId : Id) :
    Singly (AssessmentService.reportIncident candidateId assessmentId) := by
  unfold AssessmentService.reportIncident
  refine (loadOwn_singly _ _ _ _).bind fun a => (saveAttempt_singly _).bind fun _ => ?_
  exact (singleGroups.log_plain _).bind fun _ => plain_ret _

theorem recordProctoringEvents_singly (candidateId assessmentId : Id)
    (events : RecordProctoringEventsDto) :
    Singly (AssessmentService.recordProctoringEvents candidateId assessmentId events) := by
  unfold AssessmentService.recordProctoringEvents
  refine (loadOwn_singly _ _ _ _).bind fun a => (singleGroups.read_plain _).bind fun _ => ?_
  refine (singleGroups.read_plain _).bind fun _ => (saveAttempt_singly _).bind fun saved => ?_
  refine singleGroups.logIf_plain ?_
  exact singleGroups.logIf_plain (plain_ret _)

theorem finalizeAssessment_singly (uuid : Id) (a : Assessment)
    (provided fetched : Option AssessmentResult) :
    Singly (WebhookService.finalizeAssessment uuid a provided fetched) := by
  unfold WebhookService.finalizeAssessment
  dsimp only
  split
  · exact plain_throw trivial
  · refine (singleGroups.read_plain _).bind fun existing => ?_
    split
    · exact plain_ret _
    · refine (singleGroups.obtainResult_plain (.inl rfl) _ _ _).bind fun result => ?_
      unfold WebhookService.score WebhookService.complete getNumber now
      refine (singleGroups.computeCompositeScore_plain _).bind fun _ => ?_
      refine (singleGroups.read_plain _).bind fun _ => (singleGroups.read_plain _).bind fun _ => ?_
      refine (singleGroups.read_plain _).bind fun _ => (singleGroups.read_plain _).bind fun _ => ?_
      refine (singleGroups.countCollisions_plain _ _).bind fun _ => ?_
      refine (insertUnique_singly _ _ _).bind fun saved => Plain.bind ?_ fun _ => plain_ret _
      refine (singleGroups.read_plain _).bind fun _ => (saveAttempt_singly _).bind fun _ => ?_
      refine (singleGroups.log_plain _).bind fun _ => (singleGroups.log_plain _).bind fun _ => ?_
      exact singleGroups.applyThresholds_plain _

theorem processWebhook_singly (uuid : Id) (verification : WebhookVerificationResult)
    (fetched : Option AssessmentResult) :
    Singly (WebhookService.processWebhook uuid verification fetched) := by
  unfold WebhookService.processWebhook AssessmentRepository.findOne
  split
  · exact plain_throw trivial
  · split
    · exact plain_throw trivial
    · refine (singleGroups.read_plain _).bind fun a? => ?_
      split
      · exact plain_throw trivial
      · exact finalizeAssessment_singly _ _ _ _

theorem submitExam_singly (env : Environment) (uuid candidateId assessmentId : Id)
    (answers : List (String × Int)) :
    Singly (ExamService.submitExam env uuid candidateId assessmentId answers) := by
  unfold ExamService.submitExam ExamService.loadContext now
  refine Plain.bind ?_ fun context => (singleGroups.read_plain _).bind fun time => ?_
  · refine (loadOwn_singly _ _ _ _).bind fun a => (singleGroups.read_plain _).bind fun test => ?_
    split
    · exact Plain.bind (plain_ret _) fun _ => plain_ret _
    · exact (singleGroups.read_plain _).bind fun _ => plain_ret _
  · split
    · exact (saveAttempt_singly _).bind fun _ => plain_throw trivial
    · exact (finalizeAssessment_singly _ _ _ _).bind fun _ => plain_ret _

/-- A call on attempts opens no transaction, and writes row by row. -/
theorem attempt_singly (env : Environment) (uuid : Id) {op : Assessments.Op}
    (h : op.isAttempt = true) : Singly (Assessments.program env uuid op) := by
  cases op with
  | clock ms => exact Plain.bind (plain_write fun _ => single _) fun _ => plain_ret _
  | startAssessment candidateId testId context =>
    exact (startAssessment_singly _ _ _ _ _).bind fun _ => plain_ret _
  | resumeAssessment candidateId assessmentId resumeToken =>
    exact (resumeAssessment_singly _ _ _ _).bind fun _ => plain_ret _
  | reportIncident candidateId assessmentId =>
    exact (reportIncident_singly _ _).bind fun _ => plain_ret _
  | recordProctoringEvents candidateId assessmentId events =>
    exact (recordProctoringEvents_singly _ _ _).bind fun _ => plain_ret _
  | submitExam candidateId assessmentId answers =>
    exact (submitExam_singly _ _ _ _ _).bind fun _ => plain_ret _
  | processWebhook verification fetched =>
    exact (processWebhook_singly _ _ _).bind fun _ => plain_ret _
  | simulateCompletion candidateId assessmentId fetched =>
    refine Plain.bind ?_ fun _ => plain_ret _
    exact (loadOwn_singly _ _ _ _).bind fun a => finalizeAssessment_singly _ _ _ _
  | _ => cases h

/-! ## The rule of the retake -/

section

variable (d : Assessments.Db) (candidateId testId : Id)

/-- When the candidate last completed the test. -/
def lastCompletion : Option Time :=
  (lastCompleted <| d.assessments.rows.filter fun a =>
    a.candidateId = candidateId && a.testId = testId && a.status = .completed).bind (·.completedAt)

/-- The check of the cooldown in `checkEligibility` lets the candidate take the test again. -/
def cooldownOver : Bool :=
  match lastCompletion d candidateId testId with
  | none => true
  | some completedAt => computeCooldownEnd completedAt d.settings.cooldownDays ≤ d.now

/-- Unless an attempt is active, the check of the cooldown decides. -/
theorem checkEligibility_iff
    (h : (d.assessments.rows.find? fun a =>
      a.candidateId = candidateId && a.testId = testId && a.status.isActive) = none) :
    ((AssessmentService.checkEligibility candidateId testId).solo Assessments.store d).2 = .ok () ↔
      cooldownOver d candidateId testId = true := by
  unfold AssessmentService.checkEligibility AssessmentRepository.findOne now cooldownOver
    lastCompletion
  rw [solo_bind, solo_select, andThen_nil, h]
  dsimp only
  rw [solo_bind, solo_select, andThen_nil, solo_bind, solo_select, andThen_nil]
  cases (lastCompleted <| d.assessments.rows.filter fun a =>
    a.candidateId = candidateId && a.testId = testId && a.status = .completed).bind
      (·.completedAt) with
  | none => simp
  | some completedAt =>
    dsimp only
    rw [solo_bind, solo_select, andThen_nil]
    by_cases hover : d.now < computeCooldownEnd completedAt d.settings.cooldownDays
    · simp [hover]
    · simp [hover, Int.not_lt.1 hover]

end

/-- The candidate has not completed the test after `a`, or the cooldown is over since then as
well. -/
def NotOvertaken (d : Assessments.Db) (a : Assessment) : Prop :=
  ∀ c, lastCompletion d a.candidateId a.testId = some c →
    (∃ completedAt, a.completedAt = some completedAt ∧ c ≤ completedAt) ∨
      computeCooldownEnd c d.settings.cooldownDays ≤ d.now

/-! ## What the sweeps publish -/

section

variable {env : Environment} {d₀ : Db} {i : Nat} {L L' : Log} {a : Assessment}

theorem at_snoc (L : Log) (i : Nat) (w : Write) :
    d₀.at (L ++ [⟨i, false, [w]⟩]) = store.apply (d₀.at L) w := replay_snoc ..

theorem settings_at (L : Log) : (d₀.at L).base.settings = d₀.base.settings := by
  refine replay_keeps (S := store) (P := fun db => db.base.settings = d₀.base.settings)
    (fun db w h => ?_) List.nil_prefix rfl
  cases w with
  | base w => cases w <;> exact h
  | _ => exact h

theorem now_mono (h : L <+: L') : (d₀.at L).base.now ≤ (d₀.at L').base.now := by
  refine replay_keeps (S := store) (P := fun db => (d₀.at L).base.now ≤ db.base.now)
    (fun db w hle => ?_) h (Int.le_refl _)
  cases w with
  | base w =>
    cases w with
    | tick ms => exact Int.le_trans hle (Int.le_add_of_nonneg_right (Int.natCast_nonneg ms))
    | _ => exact hle
  | _ => exact hle

/-- A sweep has found that the cooldown of the attempt was over. -/
def Found (d₀ : Db) (L : Log) (a : Assessment) : Prop :=
  ∃ B, B <+: L ∧ RemediationNotificationService.isDue
    (addDays (d₀.at B).base.now (-d₀.base.settings.cooldownDays)) a = true

theorem Found.mono (h : Found d₀ L a) (hl : L <+: L') : Found d₀ L' a := by
  obtain ⟨B, hB, hdue⟩ := h
  exact ⟨B, hB.trans hl, hdue⟩

/-- The cooldown after the attempt that a sweep has found is over. -/
theorem Found.over (h : Found d₀ L a) :
    ∃ c, a.completedAt = some c ∧
      computeCooldownEnd c (d₀.at L).base.settings.cooldownDays ≤ (d₀.at L).base.now := by
  obtain ⟨B, hB, hdue⟩ := h
  unfold RemediationNotificationService.isDue at hdue
  simp only [Bool.and_eq_true, Option.any_eq_true, decide_eq_true_eq] at hdue
  obtain ⟨⟨-, c, hc, hle⟩, -⟩ := hdue
  refine ⟨c, hc, ?_⟩
  have hnow : (d₀.at B).base.now ≤ (d₀.at L).base.now := now_mono hB
  rw [settings_at]
  unfold computeCooldownEnd
  unfold addDays at hle ⊢
  rw [Int.neg_mul] at hle
  have hle' : c ≤ (d₀.at B).base.now - d₀.base.settings.cooldownDays * msPerDay := hle
  exact Int.le_trans (Int.add_le_of_le_sub_right hle') hnow

/-- What is known of a write of call `i` at the log `L`: a claim finds no mark, and the claim of
the attempt is the last write of the call before the notification. -/
def Guarantee (d₀ : Db) (i : Nat) (L : Log) : Write → Prop
  | .claimCooldown id =>
    ∃ a, (d₀.at L).base.assessment? id = some a ∧ a.cooldownNotifiedAt = none
  | .insertNotification n a => n.recipientUserId = a.candidateId ∧ Found d₀ L a ∧
    ∃ A, ByOthers i (A ++ [⟨i, false, [.claimCooldown a.id]⟩]) L
  | .base _ => True

abbrev Keeps {α : Type} (d₀ : Db) (i : Nat) (p : M α) (Q : Log → α → Prop) (L : Log) : Prop :=
  p.Promises store d₀ i (Guarantee d₀ i) (fun e => isFault e = true) Q L

theorem notifyEach_keeps {candidates : List Assessment} (n : Nat)
    (h : ∀ a ∈ candidates, Found d₀ L a) :
    Keeps d₀ i (RemediationNotificationService.notifyEach n candidates) (fun _ _ => True) L := by
  induction candidates generalizing n L with
  | nil => trivial
  | cons a candidates ih =>
    have hrest : ∀ {L'}, L <+: L' → ∀ b ∈ candidates, Found d₀ L' b := fun hl b hb =>
      (h b (List.mem_cons_of_mem a hb)).mono hl
    unfold RemediationNotificationService.notifyEach
    refine promises_bind.2 (promises_query fun L' ws claimed hr hf => ?_)
    split at hf
    · cases hf
      exact .inl ⟨rfl, ih n (hrest hr.onto)⟩
    · next row hrow =>
      split at hf
      · next hunmarked =>
        cases hf
        refine .inr ⟨_, rfl, ⟨row, hrow, hunmarked⟩, ?_⟩
        have hclaim : L' <+: L' ++ [⟨i, false, [.claimCooldown a.id]⟩] := List.prefix_append _ _
        refine promises_bind.2 (promises_select fun L₁ hr₁ => ?_)
        have hl₁ : L <+: L₁ := (hr.onto.trans hclaim).trans hr₁.onto
        split
        · exact ih n (hrest hl₁)
        · next candidate hfind =>
          have hcandidate : candidate = a.candidateId := by simpa using List.find?_some hfind
          refine promises_bind.2 (promises_write fun L₂ hr₂ => ⟨⟨hcandidate, ?_, L', ?_⟩, ?_⟩)
          · exact (h a List.mem_cons_self).mono (hl₁.trans hr₂.onto)
          · exact hr₁.trans hr₂
          · exact ih (n + 1) (hrest ((hl₁.trans hr₂.onto).trans (List.prefix_append _ _)))
      · cases hf
        exact .inl ⟨rfl, ih n (hrest hr.onto)⟩

theorem runCooldownSweep_keeps :
    Keeps d₀ i RemediationNotificationService.runCooldownSweep (fun _ _ => True) L := by
  unfold RemediationNotificationService.runCooldownSweep
  refine promises_bind.2 (promises_select fun L₁ hr₁ => ?_)
  refine promises_bind.2 (promises_select fun L₂ hr₂ => ?_)
  refine promises_bind.2 (promises_select fun L₃ hr₃ => notifyEach_keeps 0 fun a ha => ?_)
  refine ⟨L₂, hr₃.onto, ?_⟩
  rw [← settings_at L₁]
  exact (List.mem_filter.1 ha).2

theorem traced (env : Environment) (d₀ : Db) :
    Traced (system env) d₀ (fun i _ => Guarantee d₀ i) fun _ _ _ _ => True where
  prog i op L := by
    cases op with
    | attempt op h =>
      have hlift : ∀ ws, Single ws → ws.map Write.base = [] ∨
          ∃ w, ws.map Write.base = [w] ∧ ∀ L, Guarantee d₀ i L w := by
        rintro ws (rfl | ⟨w, rfl⟩)
        · exact .inl rfl
        · exact .inr ⟨_, rfl, fun _ => trivial⟩
      have hplain : ((Assessments.program env i op).zoom Db.base Write.base).Plain
          (fun ws => ws = [] ∨ ∃ w, ws = [w] ∧ ∀ L, Guarantee d₀ i L w)
          (fun ws => ws = [] ∨ ∃ w, ws = [w] ∧ ∀ L, Guarantee d₀ i L w) fun _ => True :=
        (attempt_singly env i h).zoom hlift hlift
      exact promises_bind.2 (hplain.promises.mono fun _ _ _ => trivial)
    | runCooldownSweep => exact promises_bind.2 (runCooldownSweep_keeps.mono fun _ _ _ => trivial)
  mono _ _ := trivial

end

/-! ## Marks -/

/-- The save of an attempt leaves a mark on its row. -/
def keepsMark (db : Db) : Write → Bool
  | .base (.saveAssessment entity reread) => (db.base.assessment? entity.id).all fun a =>
      a.cooldownNotifiedAt = none || (entity.overwrite reread a).cooldownNotifiedAt ≠ none
  | _ => true

/-- No save clears the mark of a claim, as the save of an attempt that was loaded before the
claim does. -/
def markKept (s : RunState) : Label Error Op → Bool
  | .step i => (s.issues i).all (keepsMark s.db)
  | _ => true

def Marked (db : Db) (id : Id) : Prop :=
  ∃ a, db.base.assessment? id = some a ∧ a.cooldownNotifiedAt ≠ none

theorem assessment?_claimed (db : Db) (claimed id : Id) :
    (store.apply db (.claimCooldown claimed)).base.assessment? id =
      if id = claimed then (db.base.assessment? id).map (Assessment.claimed db.base.now)
      else db.base.assessment? id :=
  Table.get?_modify (Assessment.claimed db.base.now) fun _ => rfl

theorem marked_apply {db : Db} {id : Id} (h : Marked db id) {w : Write}
    (hw : keepsMark db w = true) : Marked (store.apply db w) id := by
  obtain ⟨a, ha, hmark⟩ := h
  cases w with
  | base w =>
    cases w with
    | insertAssessment b => exact ⟨a, Table.get?_insert_of_some ha, hmark⟩
    | saveAssessment entity reread =>
      have hget : ((store.apply db (.base (.saveAssessment entity reread))).base).assessment? id =
          if id = entity.id then (db.base.assessment? id).map (entity.overwrite reread)
          else db.base.assessment? id := assessment?_saved ..
      rw [ha] at hget
      split at hget
      · next hid =>
        subst hid
        simp only [keepsMark, ha, Option.all_some, Bool.or_eq_true, decide_eq_true_eq] at hw
        exact ⟨_, hget, hw.resolve_left hmark⟩
      · exact ⟨a, hget, hmark⟩
    | _ => exact ⟨a, ha, hmark⟩
  | claimCooldown id' =>
    have hget := assessment?_claimed db id' id
    rw [ha] at hget
    split at hget
    · exact ⟨_, hget, by simp [Assessment.claimed]⟩
    · exact ⟨a, hget, hmark⟩
  | insertNotification n b => exact ⟨a, ha, hmark⟩

theorem marked_claimed {db : Db} {id : Id} {a : Assessment}
    (ha : db.base.assessment? id = some a) : Marked (store.apply db (.claimCooldown id)) id := by
  have hget := assessment?_claimed db id id
  rw [if_pos rfl, ha] at hget
  exact ⟨_, hget, by simp [Assessment.claimed]⟩

/-! ## Runs -/

section

variable {env : Environment} {d₀ : Db} {s : RunState} {i i' : Nat} {L L' A A' : Log} {id : Id}

/-- A write of the log, with what is known of it. -/
theorem published (h : (system env).Within (fun s l => markKept s l = true) d₀ s)
    {g : Txn.Group Write} (hl : L ++ [g] <+: s.log) : ∃ w, g = ⟨g.call, false, [w]⟩ ∧
      Guarantee d₀ g.call L w ∧ keepsMark (d₀.at L) w = true := by
  obtain ⟨op, w, t, hg, -, ht⟩ := (traced env d₀).published h hl
  refine ⟨w, hg, ht.promised, ?_⟩
  have hok := ht.ok
  simp only [markKept, ht.issues, ht.db, List.all_cons, List.all_nil, Bool.and_true] at hok
  exact hok

/-- A mark stays. -/
theorem marked_stays (h : (system env).Within (fun s l => markKept s l = true) d₀ s)
    (hA : A <+: L) (hL : L <+: s.log) (hmarked : Marked (d₀.at A) id) : Marked (d₀.at L) id := by
  refine along_log_from (I := fun L => Marked (d₀.at L) id) hmarked (fun l g _ hl hm => ?_) L hA
    List.prefix_rfl
  obtain ⟨w, hg, -, hkeeps⟩ := published h (hl.trans hL)
  rw [hg, at_snoc]
  exact marked_apply hm hkeeps

/-- An attempt is not claimed again. -/
theorem not_claimed_after (h : (system env).Within (fun s l => markKept s l = true) d₀ s)
    (hw : WrittenAt A' A i (.claimCooldown id))
    (hw' : WrittenAt s.log A' i' (.claimCooldown id)) : False := by
  have hA' : A' <+: s.log := hw'.onto
  obtain ⟨w, hg, hguar, -⟩ := published h (hw.mono hA')
  cases hg
  obtain ⟨a, ha, -⟩ := hguar
  obtain ⟨w', hg', hguar', -⟩ := published h hw'
  cases hg'
  obtain ⟨a', ha', hunmarked⟩ := hguar'
  have hclaimed : Marked (d₀.at (A ++ [⟨i, false, [.claimCooldown id]⟩])) id := by
    rw [at_snoc]
    exact marked_claimed ha
  obtain ⟨row, hrow, hmark⟩ := marked_stays h hw hA' hclaimed
  rw [ha'] at hrow
  cases hrow
  exact hmark hunmarked

theorem claim_unique (h : (system env).Within (fun s l => markKept s l = true) d₀ s)
    (hw : WrittenAt s.log A i (.claimCooldown id))
    (hw' : WrittenAt s.log A' i' (.claimCooldown id)) : A = A' ∧ i = i' := by
  rcases hw.cases hw' with ⟨hA, hi, -⟩ | hlater | hlater
  · exact ⟨hA, hi⟩
  · exact (not_claimed_after h hlater hw').elim
  · exact (not_claimed_after h hlater hw).elim

/-- At most one notification of each attempt. -/
def NotifiedOnce (s : RunState) : Prop :=
  ∀ {L L' i i' n n' a a'}, WrittenAt s.log L i (.insertNotification n a) →
    WrittenAt s.log L' i' (.insertNotification n' a') → a.id = a'.id → L = L' ∧ i = i'

theorem notified_once (h : (system env).Within (fun s l => markKept s l = true) d₀ s) :
    NotifiedOnce s := by
  intro L L' i i' n n' a a' hw hw' hid
  obtain ⟨w, hg, hguar, -⟩ := published h hw
  cases hg
  obtain ⟨-, -, A, hA⟩ := hguar
  obtain ⟨w', hg', hguar', -⟩ := published h hw'
  cases hg'
  obtain ⟨-, -, A', hA'⟩ := hguar'
  -- both notifications follow the one claim of the attempt, in its call
  have hclaim : WrittenAt s.log A i (.claimCooldown a.id) := hA.onto.trans hw.onto
  have hclaim' : WrittenAt s.log A' i' (.claimCooldown a.id) := hid ▸ hA'.onto.trans hw'.onto
  obtain ⟨rfl, rfl⟩ := claim_unique h hclaim hclaim'
  rcases hw.cases hw' with ⟨hL, -, -⟩ | hlater | hlater
  · exact ⟨hL, rfl⟩
  · exact absurd hlater (hA'.not_written (hid ▸ hA.onto))
  · exact absurd hlater (hA.not_written (hid ▸ hA'.onto))

/-- Each notification goes to the candidate of its attempt, whom the check of the cooldown lets
take the test again. -/
def NotifiedRight (d₀ : Db) (s : RunState) : Prop :=
  ∀ {L i n a}, WrittenAt s.log L i (.insertNotification n a) →
    n.recipientUserId = a.candidateId ∧
      cooldownOver (d₀.at L).base a.candidateId a.testId = true

/-- Where the cooldown of the attempt is over, the check differs only by a later attempt. -/
theorem cooldownOver_iff {a : Assessment} (h : Found d₀ L a) :
    cooldownOver (d₀.at L).base a.candidateId a.testId = true ↔ NotOvertaken (d₀.at L).base a := by
  obtain ⟨c₀, hc₀, hover⟩ := h.over
  unfold cooldownOver NotOvertaken
  cases hlast : lastCompletion (d₀.at L).base a.candidateId a.testId with
  | none => simp
  | some c =>
    simp only [decide_eq_true_eq, Option.some.injEq, forall_eq']
    constructor
    · exact .inr
    · rintro (⟨completedAt, hc, hle⟩ | hover')
      · rw [hc₀] at hc
        cases hc
        exact Int.le_trans (Int.add_le_add_right hle _) hover
      · exact hover'

end

/-! ## A notification too many -/

/-- The first attempt of candidate 7 at test 20. -/
def attempt (status : AssessmentStatus) (completedAt : Option Time) : Assessment :=
  { AssessmentService.newAssessment .default 100 7 20 ⟨20, 10, "1.0", 60, true⟩ none none false 0 with
    status := status
    completedAt := completedAt }

def withAttempt (time : Time) (a : Assessment) : Db :=
  ⟨{ oneTest with now := time, assessments := Table.insert ∅ a }, [7], []⟩

/-- It was completed three months ago, and no sweep has notified of it yet. -/
def elapsed : Db := withAttempt (90 * msPerDay) (attempt .completed (some 0))

def gradedResult : AssessmentResult where
  externalId := "ext_0"
  score := 7000
  maxScore := 10000
  percentile := none
  plagiarismVerdict := .clean
  domainFeedback := []
  technicalScore := none
  psychotechnicalScore := none
  answerFingerprint := none

/-- The webhook of an attempt. -/
def complete (externalId : String) : Op :=
  .attempt (.processWebhook ⟨true, some externalId⟩ (some gradedResult)) rfl

/-- What a sweep writes of the attempt. -/
def notification : Write :=
  .insertNotification
    ⟨7, .cooldownExpired, "Vous pouvez repasser votre test",
      "Le délai de 90 jours est écoulé — vous pouvez retenter ce test dès maintenant."⟩
    (attempt .completed (some 0))

/-- The candidate takes the test again before the sweep runs, which then notifies of the first
attempt while the cooldown of the second one has just begun. -/
theorem overtaken_notified : ¬ ∀ (env : Environment) (d₀ : Db) (s : RunState),
    (system env).Reachable d₀ s → NotifiedRight d₀ s := by
  intro h
  have hrun : (((system .default).runLabels .all (State.init elapsed)
      (.spawn (.attempt (.startAssessment 7 20 ⟨none, none⟩) rfl) :: steps 0 10 ++
        .spawn (complete "ext_0") :: steps 1 15 ++ .spawn .runCooldownSweep :: steps 2 6)).map
      fun s => (decide (WrittenAt s.log (s.log.take 7) 2 notification),
        cooldownOver (elapsed.at (s.log.take 7)).base 7 20)) = some (true, false) := by rfl
  obtain ⟨s, hs, he⟩ := System.reach_of_run hrun
  obtain ⟨hw, hover⟩ := Prod.mk.inj he
  have hright := (h .default elapsed s hs (of_decide_eq_true hw)).2
  exact absurd (hright.symm.trans hover) (by decide)

/-- An incident saves an attempt that was loaded before its completion: the mark of a claim is
gone, and a second sweep in progress notifies again. -/
theorem notified_twice : ¬ ∀ (env : Environment) (d₀ : Db) (s : RunState),
    (system env).Reachable d₀ s → NotifiedOnce s := by
  intro h
  have hrun : (((system .default).runLabels .all
      (State.init (withAttempt 0 (attempt .inProgress none)))
      (.spawn (.attempt (.reportIncident 7 100) rfl) :: steps 0 1 ++
        .spawn (complete "ext_100") :: steps 1 15 ++
        .spawn (.attempt (.clock (90 * 86400000)) rfl) :: steps 2 2 ++
        .spawn .runCooldownSweep :: steps 3 3 ++ .spawn .runCooldownSweep :: steps 4 7 ++
        steps 0 2 ++ steps 3 3)).map
      fun s => (decide (WrittenAt s.log (s.log.take 6) 4 notification),
        decide (WrittenAt s.log (s.log.take 9) 3 notification))) = some (true, true) := by rfl
  obtain ⟨s, hs, he⟩ := System.reach_of_run hrun
  obtain ⟨hw, hw'⟩ := Prod.mk.inj he
  have honce := h .default _ s hs (of_decide_eq_true hw) (of_decide_eq_true hw') rfl
  exact absurd honce.2 (by decide)

end JobBoard.Assessments.Remediation
