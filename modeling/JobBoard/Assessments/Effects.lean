import JobBoard.Lib.Alone
import JobBoard.Assessments.System

/-!
# What the calls on attempts write

`Effect env i d₀ op d ws` are the groups that the call `i`, started on `d₀`, may
publish on `d` when nobody interferes, with what the call knows then. The rule
`attempt_keeps` is all that the invariants of runs without overlaps use of the
services: what every effect keeps, every call keeps.
-/

set_option autoImplicit false

namespace JobBoard.Assessments

open Txn Prog

/-- The write leaves the attempts, the scores and the clock alone. -/
def Write.Quiet : Write → Prop
  | tick _ | insertAssessment _ | saveAssessment _ _ | insertScore _ | updatePercentile _ _ => False
  | _ => True

/-- What the services read of attempts, besides the scores. -/
structure SameAttempts (d₀ d : Db) : Prop where
  assessments : d.assessments = d₀.assessments
  now : d.now = d₀.now
  settings : d.settings = d₀.settings
  tests : d.tests = d₀.tests
  specialties : d.specialties = d₀.specialties

namespace SameAttempts

variable {d₀ d : Db}

theorem refl (d : Db) : SameAttempts d d := ⟨rfl, rfl, rfl, rfl, rfl⟩

theorem assessment? (h : SameAttempts d₀ d) (id : Id) : d.assessment? id = d₀.assessment? id := by
  rw [Db.assessment?, h.assessments]
  rfl

theorem quiet {w : Write} (hw : w.Quiet) (h : SameAttempts d₀ d) :
    SameAttempts d₀ (store.apply d w) := by
  obtain ⟨h₁, h₂, h₃, h₄, h₅⟩ := h
  cases w <;> first | exact hw.elim | exact ⟨h₁, h₂, h₃, h₄, h₅⟩

theorem insertScore (h : SameAttempts d₀ d) (s : Score) :
    SameAttempts d₀ (store.apply d (.insertScore s)) :=
  ⟨h.assessments, h.now, h.settings, h.tests, h.specialties⟩

end SameAttempts

/-- The attempt of the candidate, if it has the status. -/
def Db.own (d : Db) (candidateId id : Id) (status : AssessmentStatus) : Option Assessment :=
  (d.assessment? id).filter fun a => a.candidateId = candidateId && a.status = status

/-- The attempt that a webhook is about, if its signature is valid. -/
def Db.designated (d : Db) (verification : WebhookVerificationResult) : Option Assessment :=
  if verification.valid then (truthy verification.externalId).bind fun externalId =>
    d.assessments.rows.find? (·.externalAssessmentId = some externalId)
  else none

/-- The attempt that a call finalises, unless it has a score. -/
def target (env : Environment) (d : Db) : Op → Option Assessment
  | .processWebhook verification fetched => fetched.bind fun _ => d.designated verification
  | .submitExam candidateId assessmentId _ =>
    (d.own candidateId assessmentId .inProgress).filter fun a =>
      ¬ ExamService.isLate a (ExamService.questionsOf env d a) d.now
  | .simulateCompletion candidateId assessmentId fetched =>
    fetched.bind fun _ => d.own candidateId assessmentId .inProgress
  | _ => none

/-- The call is about attempts, or time passes. -/
def Op.isAttempt : Op → Bool
  | .clock _ | .startAssessment _ _ _ | .resumeAssessment _ _ _ | .reportIncident _ _
  | .recordProctoringEvents _ _ _ | .submitExam _ _ _ | .processWebhook _ _
  | .simulateCompletion _ _ _ => true
  | _ => false

/-- `checkEligibility` lets the candidate start an attempt. -/
def Db.eligible (d : Db) (candidateId testId : Id) : Bool :=
  (d.assessments.rows.all fun a =>
    ¬ (a.candidateId = candidateId && a.testId = testId && a.status.isActive)) &&
  match (lastCompleted (d.assessments.rows.filter fun a =>
      a.candidateId = candidateId && a.testId = testId && a.status = .completed)).bind
      (·.completedAt) with
  | none => true
  | some completedAt => computeCooldownEnd completedAt d.settings.cooldownDays ≤ d.now

inductive Effect (env : Environment) (i : Id) (d₀ : Db) : Op → Db → List Write → Prop
  | quiet {op : Op} {d : Db} {w : Write} (h : w.Quiet) : Effect env i d₀ op d [w]
  | tick {ms : Nat} : Effect env i d₀ (.clock ms) d₀ [.tick ms]
  | start {candidateId testId : Id} {context : AssessmentStartContext} {test : Test}
      {ipAddress deviceFingerprint : Option String} {flagged : Bool}
      (htest : d₀.tests.get? testId = some test) (hok : d₀.eligible candidateId testId = true)
      (hnew : d₀.assessment? i = none) :
      Effect env i d₀ (.startAssessment candidateId testId context) d₀
        [.insertAssessment (AssessmentService.newAssessment env i candidateId testId test ipAddress
          deviceFingerprint flagged d₀.now)]
  | resume {candidateId id token : Id} {a : Assessment} (ha : d₀.own candidateId id .incident = some a)
      (htoken : a.resumeToken = some token) :
      Effect env i d₀ (.resumeAssessment candidateId id token) d₀
        [.saveAssessment { a with status := .inProgress, resumeToken := some i } a]
  | incident {candidateId id : Id} {a : Assessment} (ha : d₀.own candidateId id .inProgress = some a) :
      Effect env i d₀ (.reportIncident candidateId id) d₀
        [.saveAssessment { a with status := .incident } a]
  | record {candidateId id : Id} {events : RecordProctoringEventsDto} {a : Assessment}
      (ha : d₀.own candidateId id .inProgress = some a) :
      Effect env i d₀ (.recordProctoringEvents candidateId id events) d₀
        [.saveAssessment (AssessmentService.recorded a events d₀.settings.leaveFlagThreshold
          d₀.settings.leaveHardThreshold) a]
  | late {candidateId id : Id} {answers : List (String × Int)} {a : Assessment}
      (ha : d₀.own candidateId id .inProgress = some a)
      (hlate : ExamService.isLate a (ExamService.questionsOf env d₀ a) d₀.now = true) :
      Effect env i d₀ (.submitExam candidateId id answers) d₀
        [.saveAssessment { a with status := .incident } a]
  | score {op : Op} {a : Assessment} {s : Score} (ha : target env d₀ op = some a)
      (hnone : d₀.scoreOf a.id = none) (hid : s.assessmentId = a.id) (hs : s.id = i) :
      Effect env i d₀ op d₀ [.insertScore s]
  | complete {op : Op} {d : Db} {a : Assessment} (hd : SameAttempts d₀ d)
      (ha : target env d₀ op = some a) (hnone : d₀.scoreOf a.id = none)
      (hsome : (d.scoreOf a.id).isSome = true) :
      Effect env i d₀ op d [.saveAssessment (WebhookService.completed a d₀.now) a]

/-! ## Pieces -/

section

variable {fault : Error → Prop} {adm : Db → List Write → Prop} {α : Type}

/-- A piece of a call keeps `P` all the way, and returns with `Q`. -/
abbrev Keeps (fault : Error → Prop) (adm : Db → List Write → Prop)
    (P : Published Write → Db → Prop) (p : M α) (Q : Published Write → Db → α → Prop)
    (gs : Published Write) (d : Db) : Prop :=
  p.alone store fault adm P (fun gs d _ => P gs d) (fun tx gs d a => tx = none ∧ Q gs d a)
    none gs d

variable {P : Published Write → Db → Prop} {gs : Published Write} {d : Db}

theorem keeps_bind {β : Type} {p : M α} {f : α → M β} {Q : Published Write → Db → β → Prop}
    (h : Keeps fault adm P p (fun gs d a => Keeps fault adm P (f a) Q gs d) gs d) :
    Keeps fault adm P (p >>= f) Q gs d := alone_then h

theorem keeps_then {β : Type} {p : M α} {f : α → M β} {Q : Published Write → Db → α → Prop}
    {Q' : Published Write → Db → β → Prop} (h : Keeps fault adm P p Q gs d)
    (hf : ∀ gs d a, Q gs d a → Keeps fault adm P (f a) Q' gs d) :
    Keeps fault adm P (p >>= f) Q' gs d := by
  refine keeps_bind (alone_mono (fun _ _ => id) (fun _ _ _ => id) (fun gs d a htx h => ?_) .none h)
  obtain ⟨rfl, h⟩ := h
  cases htx with
  | none => exact ⟨rfl, hf gs d a h⟩

theorem keeps_ret {a : α} {Q : Published Write → Db → α → Prop} (h : Q gs d a) :
    Keeps fault adm P (ret a) Q gs d := ⟨rfl, h⟩

theorem keeps_throw {e : Error} {Q : Published Write → Db → α → Prop} (h : P gs d) :
    Keeps fault adm P (throw e) Q gs d := h

theorem keeps_select {f : Db → α} {Q : Published Write → Db → α → Prop} (h : P gs d)
    (hQ : Q gs d (f d)) : Keeps fault adm P (select f) Q gs d :=
  alone_select (fun _ _ => h) ⟨rfl, hQ⟩

theorem keeps_outside {Q : Published Write → Db → Unit → Prop} (h : P gs d) (hQ : Q gs d ()) :
    Keeps fault adm P (outside fun _ => []) Q gs d :=
  alone_outside (fun _ _ => h) ⟨rfl, hQ⟩

theorem keeps_write {w : Write} {Q : Published Write → Db → Unit → Prop} (h : P gs d)
    (hP : P (gs ++ [(false, [w])]) (store.apply d w))
    (hQ : Q (gs ++ [(false, [w])]) (store.apply d w) ()) :
    Keeps fault adm P (write fun _ => [w]) Q gs d :=
  alone_write (fun _ _ => h) fun _ => ⟨hP, rfl, hQ⟩

/-- An `INSERT` of a row that breaks no constraint. -/
theorem insertUnique_keeps {violated : Db → Option String} {w : Write} {a : α}
    {Q : Published Write → Db → α → Prop} (h : P gs d)
    (hok : violated d = none → P (gs ++ [(false, [w])]) (store.apply d w) ∧
      Q (gs ++ [(false, [w])]) (store.apply d w) a) :
    Keeps fault adm P (insertUnique violated w a) Q gs d := by
  refine alone_query (fun _ _ => h) (fun _ _ => h) fun ws a' hf _ => ?_
  split at hf
  · cases hf
  · next hv =>
    cases hf
    exact ⟨(hok hv).1, rfl, (hok hv).2⟩

/-- A loaded attempt is saved on the row it was loaded from, if it differs. -/
theorem save_keeps {a e : Assessment} {Q : Published Write → Db → Assessment → Prop}
    (ha : d.assessment? e.id = some a) (h : P gs d)
    (hP : P (gs ++ [(false, [.saveAssessment e a])]) (store.apply d (.saveAssessment e a)))
    (hQ : e.overwrite a a = a → Q gs d e)
    (hQ' : Q (gs ++ [(false, [.saveAssessment e a])]) (store.apply d (.saveAssessment e a)) e) :
    Keeps fault adm P (AssessmentRepository.save e) Q gs d := by
  unfold AssessmentRepository.save AssessmentRepository.findById
  refine keeps_bind (keeps_select h ?_)
  simp only [ha]
  split
  · next hsame => exact keeps_ret (hQ hsame)
  · exact keeps_bind (keeps_write h hP (keeps_ret hQ'))

theorem loadOwn_keeps {candidateId id : Id} {status : AssessmentStatus} {message : String}
    {Q : Published Write → Db → Assessment → Prop} (h : P gs d)
    (hQ : ∀ a, d.own candidateId id status = some a → Q gs d a) :
    Keeps fault adm P (AssessmentService.loadOwn candidateId id status message) Q gs d := by
  unfold AssessmentService.loadOwn AssessmentRepository.findById
  refine keeps_bind (keeps_select h ?_)
  split
  · exact keeps_throw h
  · next a ha =>
    split
    · exact keeps_throw h
    · next hc =>
      split
      · exact keeps_throw h
      · next hs =>
        refine keeps_ret (hQ a ?_)
        simp_all [Db.own]

end

/-! ## Calls -/

theorem own_eq {d : Db} {candidateId id : Id} {status : AssessmentStatus} {a : Assessment}
    (h : d.own candidateId id status = some a) :
    d.assessment? a.id = some a ∧ a.id = id ∧ a.candidateId = candidateId ∧ a.status = status := by
  simp only [Db.own, Option.filter_eq_some_iff, Bool.and_eq_true, decide_eq_true_eq] at h
  obtain ⟨ha, hc, hs⟩ := h
  have hid : a.id = id := Table.key_of_get? ha
  exact ⟨hid ▸ ha, hid, hc, hs⟩

theorem designated_load {d : Db} {verification : WebhookVerificationResult} {a : Assessment}
    (h : d.designated verification = some a) : d.assessment? a.id = some a := by
  simp only [Db.designated] at h
  split at h
  · obtain ⟨_, -, hfind⟩ := Option.bind_eq_some_iff.1 h
    exact Table.get?_of_mem (List.mem_of_find?_eq_some hfind)
  · cases h

/-- The attempt that a call finalises is in the table. -/
theorem target_load {env : Environment} {d : Db} {op : Op} {a : Assessment}
    (h : target env d op = some a) : d.assessment? a.id = some a := by
  cases op <;> simp only [target, Option.bind_eq_some_iff, Option.filter_eq_some_iff,
    reduceCtorEq] at h
  case processWebhook verification fetched =>
    obtain ⟨_, -, h⟩ := h
    exact designated_load h
  case submitExam => exact (own_eq h.1).1
  case simulateCompletion =>
    obtain ⟨_, -, h⟩ := h
    exact (own_eq h).1

section

variable {fault : Error → Prop} {adm : Db → List Write → Prop} {env : Environment} {i : Id}
  {d₀ : Db} {op : Op} {P : Published Write → Db → Prop}

/-- `P` is kept by all effects of the call. -/
abbrev Steps (env : Environment) (i : Id) (d₀ : Db) (op : Op) (P : Published Write → Db → Prop) :
    Prop :=
  ∀ gs d b ws, P gs d → Effect env i d₀ op d ws → P (gs ++ [(b, ws)]) (store.applyAll d ws)

theorem log_keeps (hP : Steps env i d₀ op P) {gs : Published Write} {d : Db} {entry : AuditLog}
    {Q : Published Write → Db → Unit → Prop} (h : P gs d)
    (hQ : ∀ gs d', P gs d' → d' = store.apply d (.insertAuditLog entry) → Q gs d' ()) :
    Keeps fault adm P (AuditService.log entry) Q gs d := by
  have h' := hP _ _ false _ h (.quiet (w := .insertAuditLog entry) trivial)
  exact keeps_write h h' (hQ _ _ h' rfl)

theorem resumeAssessment_keeps {candidateId id token : Id}
    (hP : Steps env i d₀ (.resumeAssessment candidateId id token) P) (h : P [] d₀) :
    Keeps fault adm P (AssessmentService.resumeAssessment i candidateId id token)
      (fun gs d _ => P gs d) [] d₀ := by
  unfold AssessmentService.resumeAssessment
  refine keeps_bind (loadOwn_keeps h fun a ha => ?_)
  split
  · exact keeps_throw h
  · next htoken =>
    have h' := hP _ _ false _ h (.resume ha (not_not.1 htoken))
    refine keeps_bind (save_keeps (own_eq ha).1 h h' (fun _ => ?_) ?_)
    · exact keeps_bind (log_keeps hP h fun _ _ h _ => keeps_ret h)
    · exact keeps_bind (log_keeps hP h' fun _ _ h _ => keeps_ret h)

theorem reportIncident_keeps {candidateId id : Id}
    (hP : Steps env i d₀ (.reportIncident candidateId id) P) (h : P [] d₀) :
    Keeps fault adm P (AssessmentService.reportIncident candidateId id)
      (fun gs d _ => P gs d) [] d₀ := by
  unfold AssessmentService.reportIncident
  refine keeps_bind (loadOwn_keeps h fun a ha => ?_)
  have h' := hP _ _ false _ h (.incident ha)
  refine keeps_bind (save_keeps (own_eq ha).1 h h' (fun _ => ?_) ?_)
  · exact keeps_bind (log_keeps hP h fun _ _ h _ => keeps_ret h)
  · exact keeps_bind (log_keeps hP h' fun _ _ h _ => keeps_ret h)

/-- An audit entry that is written or not. -/
theorem logIf_keeps {α : Type} (hP : Steps env i d₀ op P) {c : Prop} [Decidable c]
    {entry : AuditLog} {p : M α} {Q : Published Write → Db → α → Prop} {gs : Published Write}
    {d : Db} (h : P gs d) (hp : ∀ gs d, P gs d → Keeps fault adm P p Q gs d) :
    Keeps fault adm P (if c then do AuditService.log entry; p else p) Q gs d := by
  split
  · exact keeps_bind (log_keeps hP h fun gs d h _ => hp gs d h)
  · exact hp gs d h

theorem recordProctoringEvents_keeps {candidateId id : Id} {events : RecordProctoringEventsDto}
    (hP : Steps env i d₀ (.recordProctoringEvents candidateId id events) P) (h : P [] d₀) :
    Keeps fault adm P (AssessmentService.recordProctoringEvents candidateId id events)
      (fun gs d _ => P gs d) [] d₀ := by
  unfold AssessmentService.recordProctoringEvents
  refine keeps_bind (loadOwn_keeps h fun a ha => ?_)
  refine keeps_bind (keeps_select h (keeps_bind (keeps_select h ?_)))
  have h' := hP _ _ false _ h (.record ha)
  refine keeps_bind (save_keeps (own_eq ha).1 h h' (fun _ => ?_) ?_)
  · exact logIf_keeps hP h fun _ _ h => logIf_keeps hP h fun _ _ h => keeps_ret h
  · exact logIf_keeps hP h' fun _ _ h => logIf_keeps hP h fun _ _ h => keeps_ret h

theorem checkEligibility_keeps {candidateId testId : Id}
    {Q : Published Write → Db → Unit → Prop} {gs : Published Write} {d : Db} (h : P gs d)
    (hQ : d.eligible candidateId testId = true → Q gs d ()) :
    Keeps fault adm P (AssessmentService.checkEligibility candidateId testId) Q gs d := by
  unfold AssessmentService.checkEligibility AssessmentRepository.findOne
  refine keeps_bind (keeps_select h ?_)
  split
  · exact keeps_throw h
  · next hfind =>
    have hactive : (d.assessments.rows.all fun a =>
        ¬ (a.candidateId = candidateId && a.testId = testId && a.status.isActive)) = true := by
      simpa [List.find?_eq_none, imp_iff_not_or] using hfind
    refine keeps_bind (keeps_select h (keeps_bind (keeps_select h ?_)))
    split
    · next hlast => exact keeps_ret (hQ (by rw [Db.eligible, hactive, hlast]; rfl))
    · next completedAt hlast =>
      refine keeps_bind (keeps_select h ?_)
      split
      · exact keeps_throw h
      · next hnow =>
        refine keeps_ret (hQ ?_)
        rw [Db.eligible, hactive, hlast]
        simpa using Int.not_lt.1 hnow

theorem detectMultiAccount_keeps {candidateId : Id} {deviceFingerprint : Option String}
    {Q : Published Write → Db → Option String → Prop} {gs : Published Write} {d : Db} (h : P gs d)
    (hQ : ∀ sharedBy, Q gs d sharedBy) :
    Keeps fault adm P (AssessmentService.detectMultiAccount candidateId deviceFingerprint)
      Q gs d := by
  unfold AssessmentService.detectMultiAccount
  split
  · exact keeps_ret (hQ none)
  · refine keeps_bind (keeps_select h (keeps_bind (keeps_select h ?_)))
    exact keeps_bind (keeps_select h (keeps_ret (hQ _)))

theorem startAssessment_keeps {candidateId testId : Id} {context : AssessmentStartContext}
    (hP : Steps env i d₀ (.startAssessment candidateId testId context) P) (h : P [] d₀) :
    Keeps fault adm P (AssessmentService.startAssessment env i candidateId testId context)
      (fun gs d _ => P gs d) [] d₀ := by
  unfold AssessmentService.startAssessment
  refine keeps_bind (keeps_select h ?_)
  split
  · exact keeps_throw h
  · next test htest =>
    split
    · exact keeps_throw h
    · refine keeps_bind (checkEligibility_keeps h fun hok => ?_)
      refine keeps_bind (detectMultiAccount_keeps h fun sharedBy => ?_)
      refine keeps_bind (keeps_outside h (keeps_bind (keeps_select h ?_)))
      refine keeps_bind (insertUnique_keeps h fun hv => ?_)
      have hnew : d₀.assessment? i = none := by
        by_contra hne
        simp [AssessmentService.newAssessment, Option.isSome_iff_ne_none.2 hne] at hv
      have heff : Effect env i d₀ (.startAssessment candidateId testId context) d₀
          [.insertAssessment (AssessmentService.newAssessment env i candidateId testId test
            (truthy (context.ipAddress.map trim)) (truthy (context.deviceFingerprint.map trim))
            sharedBy.isSome d₀.now)] := .start htest hok hnew
      have h' := hP _ _ false _ h heff
      refine ⟨h', keeps_bind (log_keeps hP h' fun _ _ h _ => ?_)⟩
      split
      · exact keeps_ret h
      · exact keeps_bind (log_keeps hP h fun _ _ h _ => keeps_ret h)

/-! ## Finalisation -/

theorem findValidScores_keeps {ids : List Id} {Q : Published Write → Db → List Score → Prop}
    {gs : Published Write} {d : Db} (h : P gs d) (hQ : ∀ scores, Q gs d scores) :
    Keeps fault adm P (IndexationService.findValidScores ids) Q gs d := by
  unfold IndexationService.findValidScores
  split
  · exact keeps_ret (hQ [])
  · exact keeps_bind (keeps_select h (keeps_bind (keeps_select h (keeps_ret (hQ _)))))

theorem saveProfile_keeps (hP : Steps env i d₀ op P) {p : CandidateProfile}
    {gs : Published Write} {d : Db} (h : P gs d) :
    Keeps fault adm P (ProfileRepository.save p) (fun gs d _ => P gs d) gs d := by
  unfold ProfileRepository.save ProfileRepository.findById
  refine keeps_bind (keeps_select h ?_)
  split
  · exact keeps_throw h
  · next reread _ =>
    split
    · exact keeps_ret h
    · have h' := hP _ _ false _ h (.quiet (w := .saveProfile p reread) trivial)
      exact keeps_bind (keeps_write h h' (keeps_ret h'))

theorem applyThresholds_keeps (hP : Steps env i d₀ op P) {candidateId : Id}
    {gs : Published Write} {d : Db} (h : P gs d) :
    Keeps fault adm P (IndexationService.applyThresholds candidateId) (fun gs d _ => P gs d)
      gs d := by
  unfold IndexationService.applyThresholds ProfileRepository.findByUserId
  refine keeps_bind (keeps_select h ?_)
  split
  · exact keeps_ret h
  · refine keeps_bind (keeps_select h (keeps_bind (findValidScores_keeps h fun scores => ?_)))
    exact keeps_bind (keeps_select h (keeps_then (saveProfile_keeps hP h) fun _ _ _ h =>
      keeps_ret h))

theorem complete_keeps (hP : Steps env i d₀ op P) {a : Assessment} {s : Score}
    {collisions : Nat} {test : Option Test} (ha : target env d₀ op = some a)
    (hnone : d₀.scoreOf a.id = none) {gs : Published Write} {d : Db} (hd : SameAttempts d₀ d)
    (hload : d.assessment? a.id = some a) (hsome : (d.scoreOf a.id).isSome = true) (h : P gs d) :
    Keeps fault adm P (WebhookService.complete a s collisions test) (fun gs d _ => P gs d)
      gs d := by
  unfold WebhookService.complete
  refine keeps_bind (keeps_select h ?_)
  rw [hd.now]
  have h' := hP _ _ false _ h (.complete hd ha hnone hsome)
  refine keeps_bind (save_keeps hload h h' (fun _ => ?_) ?_)
  · refine keeps_bind (log_keeps hP h fun _ _ h _ => ?_)
    exact keeps_bind (log_keeps hP h fun _ _ h _ => applyThresholds_keeps hP h)
  · refine keeps_bind (log_keeps hP h' fun _ _ h _ => ?_)
    exact keeps_bind (log_keeps hP h fun _ _ h _ => applyThresholds_keeps hP h)

theorem scoreOf_insertScore {d : Db} {s : Score} (h : WebhookService.scoreViolation s d = none) :
    (store.apply d (.insertScore s)).scoreOf s.assessmentId = some s := by
  simp only [WebhookService.scoreViolation] at h
  split at h
  · cases h
  · next hpk =>
    split at h
    · cases h
    · next hone =>
      have hpk' : d.scores.get? s.id = none := by simpa using hpk
      simp only [Db.scoreOf, Option.not_isSome_iff_eq_none] at hone
      simp only [Db.scoreOf, store, Write.apply, Table.insert_rows hpk', List.find?_append, hone]
      simp

theorem computeCompositeScore_keeps {result : AssessmentResult}
    {Q : Published Write → Db → Int → Prop} {gs : Published Write} {d : Db} (h : P gs d)
    (hQ : ∀ value, Q gs d value) :
    Keeps fault adm P (WebhookService.computeCompositeScore result) Q gs d := by
  unfold WebhookService.computeCompositeScore getNumber
  split
  · exact keeps_bind (keeps_select h (keeps_bind (keeps_select h (keeps_ret (hQ _)))))
  · exact keeps_ret (hQ _)

theorem countCollisions_keeps {candidateId : Id} {fingerprint : Option String}
    {Q : Published Write → Db → Nat → Prop} {gs : Published Write} {d : Db} (h : P gs d)
    (hQ : ∀ n, Q gs d n) :
    Keeps fault adm P (WebhookService.countCollisions candidateId fingerprint) Q gs d := by
  unfold WebhookService.countCollisions
  split
  · exact keeps_ret (hQ _)
  · exact keeps_select h (hQ _)

theorem obtainResult_keeps {externalId : Option String}
    {provided fetched : Option AssessmentResult} {Q : Published Write → Db → AssessmentResult → Prop}
    {gs : Published Write} {d : Db} (h : P gs d)
    (hQ : ∀ result, provided = some result ∨ (provided = none ∧ fetched = some result) →
      Q gs d result) :
    Keeps fault adm P (WebhookService.obtainResult externalId provided fetched) Q gs d := by
  unfold WebhookService.obtainResult
  split
  · exact keeps_ret (hQ _ (.inl rfl))
  · exact keeps_throw h
  · refine keeps_bind (keeps_outside h ?_)
    split
    · exact keeps_ret (hQ _ (.inr ⟨rfl, rfl⟩))
    · exact keeps_throw h

theorem score_keeps (hP : Steps env i d₀ op P) {a : Assessment} {result : AssessmentResult}
    (ha : target env d₀ op = some a) (hload : d₀.assessment? a.id = some a)
    (hnone : d₀.scoreOf a.id = none) (h : P [] d₀) :
    Keeps fault adm P (WebhookService.score i a result) (fun gs d _ => P gs d) [] d₀ := by
  unfold WebhookService.score getNumber
  refine keeps_bind (computeCompositeScore_keeps h fun value => ?_)
  refine keeps_bind (keeps_select h (keeps_bind (keeps_select h ?_)))
  refine keeps_bind (keeps_select h (keeps_bind (keeps_select h ?_)))
  refine keeps_bind (countCollisions_keeps h fun collisions => ?_)
  refine keeps_bind (insertUnique_keeps h fun hok => ?_)
  have hscored := scoreOf_insertScore hok
  have hsame := (SameAttempts.refl d₀).insertScore
  refine ⟨hP _ _ false _ h (.score ha hnone rfl rfl), ?_⟩
  refine keeps_then (complete_keeps hP ha hnone (hsame _) hload ?_ ?_) fun _ _ _ h => keeps_ret h
  · exact Option.isSome_iff_exists.2 ⟨_, hscored⟩
  · exact hP _ _ false _ h (.score ha hnone rfl rfl)

theorem finalizeAssessment_keeps (hP : Steps env i d₀ op P) {a : Assessment}
    {provided fetched : Option AssessmentResult}
    (ha : ∀ result, provided = some result ∨ (provided = none ∧ fetched = some result) →
      target env d₀ op = some a)
    (hload : d₀.assessment? a.id = some a) (h : P [] d₀) :
    Keeps fault adm P (WebhookService.finalizeAssessment i a provided fetched)
      (fun gs d _ => P gs d) [] d₀ := by
  unfold WebhookService.finalizeAssessment
  dsimp only
  split
  · exact keeps_throw h
  · refine keeps_bind (keeps_select h ?_)
    split
    · exact keeps_ret h
    · next hnone =>
      exact keeps_bind (obtainResult_keeps h fun result hresult =>
        score_keeps hP (ha result hresult) hload hnone h)

theorem processWebhook_keeps {verification : WebhookVerificationResult}
    {fetched : Option AssessmentResult}
    (hP : Steps env i d₀ (.processWebhook verification fetched) P) (h : P [] d₀) :
    Keeps fault adm P (WebhookService.processWebhook i verification fetched)
      (fun gs d _ => P gs d) [] d₀ := by
  unfold WebhookService.processWebhook
  split
  · exact keeps_throw h
  · next hvalid =>
    split
    · exact keeps_throw h
    · next externalId hext =>
      unfold AssessmentRepository.findOne
      refine keeps_bind (keeps_select h ?_)
      split
      · exact keeps_throw h
      · next a ha =>
        have hvalid : verification.valid = true := by simpa using hvalid
        refine finalizeAssessment_keeps hP (fun result hresult => ?_) ?_ h
        · simp only [reduceCtorEq, true_and, false_or] at hresult
          simp only [target, hresult, Db.designated, hvalid, if_true, hext, Option.bind_some]
          exact ha
        · exact Table.get?_of_mem (List.mem_of_find?_eq_some ha)

theorem simulateCompletion_keeps {candidateId id : Id} {fetched : Option AssessmentResult}
    (hP : Steps env i d₀ (.simulateCompletion candidateId id fetched) P) (h : P [] d₀) :
    Keeps fault adm P (WebhookService.simulateCompletion i candidateId id fetched)
      (fun gs d _ => P gs d) [] d₀ := by
  unfold WebhookService.simulateCompletion
  refine keeps_bind (loadOwn_keeps h fun a ha => ?_)
  refine finalizeAssessment_keeps hP (fun result hresult => ?_) (own_eq ha).1 h
  simp only [reduceCtorEq, true_and, false_or] at hresult
  rw [target, hresult]
  exact ha

theorem loadContext_keeps {candidateId id : Id}
    {Q : Published Write → Db → Assessment × List ExamQuestion → Prop} {gs : Published Write} {d : Db}
    (h : P gs d) (hQ : ∀ a, d.own candidateId id .inProgress = some a →
      Q gs d (a, ExamService.questionsOf env d a)) :
    Keeps fault adm P (ExamService.loadContext env candidateId id) Q gs d := by
  unfold ExamService.loadContext
  refine keeps_bind (loadOwn_keeps h fun a ha => keeps_bind (keeps_select h ?_))
  have hQ := hQ a ha
  unfold ExamService.questionsOf at hQ
  split
  · next htest =>
    rw [htest] at hQ
    exact keeps_ret hQ
  · next test htest =>
    rw [htest] at hQ
    exact keeps_bind (keeps_select h (keeps_ret hQ))

theorem submitExam_keeps {candidateId id : Id} {answers : List (String × Int)}
    (hP : Steps env i d₀ (.submitExam candidateId id answers) P) (h : P [] d₀) :
    Keeps fault adm P (ExamService.submitExam env i candidateId id answers)
      (fun gs d _ => P gs d) [] d₀ := by
  unfold ExamService.submitExam
  refine keeps_bind (loadContext_keeps h fun a ha => keeps_bind (keeps_select h ?_))
  dsimp only
  split
  · next hlate =>
    have h' := hP _ _ false _ h (.late ha hlate)
    exact keeps_bind (save_keeps (own_eq ha).1 h h' (fun _ => keeps_throw h) (keeps_throw h'))
  · next hlate =>
    refine keeps_then (finalizeAssessment_keeps hP (fun _ _ => ?_) (own_eq ha).1 h)
      fun _ _ _ h => keeps_ret h
    simp only [target, ha, Option.filter_some]
    simp [hlate]

/-- What the effects of a call on attempts keep, the call keeps. -/
theorem attempt_keeps (hop : op.isAttempt = true) (hP : Steps env i d₀ op P) (h : P [] d₀) :
    Keeps fault adm P (program env i op) (fun gs d _ => P gs d) [] d₀ := by
  cases op
  case clock ms =>
    have h' := hP _ _ false _ h .tick
    exact keeps_bind (keeps_write h h' (keeps_ret h'))
  case startAssessment =>
    exact keeps_then (startAssessment_keeps hP h) fun _ _ _ h => keeps_ret h
  case resumeAssessment =>
    exact keeps_then (resumeAssessment_keeps hP h) fun _ _ _ h => keeps_ret h
  case reportIncident =>
    exact keeps_then (reportIncident_keeps hP h) fun _ _ _ h => keeps_ret h
  case recordProctoringEvents =>
    exact keeps_then (recordProctoringEvents_keeps hP h) fun _ _ _ h => keeps_ret h
  case submitExam =>
    exact keeps_then (submitExam_keeps hP h) fun _ _ _ h => keeps_ret h
  case processWebhook =>
    exact keeps_then (processWebhook_keeps hP h) fun _ _ _ h => keeps_ret h
  case simulateCompletion =>
    exact keeps_then (simulateCompletion_keeps hP h) fun _ _ _ h => keeps_ret h
  all_goals cases hop

end

/-! ## Runs -/

/-- The calls on attempts. -/
def attemptRuns : Runs Db Write Op := ⟨fun _ op => op.isAttempt, fun _ _ _ => true, false⟩

section

variable {env : Environment} {R : Runs Db Write Op}

/-- An invariant of the database that the effects of all calls of the runs keep. -/
theorem attempts_always {P : Db → Prop} (hserial : R.serial = true)
    (hops : ∀ {d op}, R.ops d op = true → op.isAttempt = true)
    (hstep : ∀ {i d₀ op}, P d₀ → R.ops d₀ op = true →
      ∀ d ws, P d → Effect env i d₀ op d ws → P (store.applyAll d ws))
    {s₀ s : RunState} (hidle : s₀.Idle) (h₀ : P s₀.db) (h : (system env).Onward R s₀ s) :
    P s.db := by
  refine h.always hserial (fun {i op d} hd hop => ?_) hidle h₀
  exact attempt_keeps (hops hop) (fun _ d' _ ws h' heff => hstep hd hop d' ws h' heff) hd

end

end JobBoard.Assessments
