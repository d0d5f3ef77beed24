import JobBoard.Lib.Trace
import JobBoard.Assessments.System

/-!
# Reports of the proctoring

`recordProctoringEvents` takes the maximum of the counts in memory, on the attempt that it has
loaded, and saves it two settings later. A report that another one overtakes in between writes
older values back. While an attempt is saved with no other report on it in progress, its counts
and its flag only grow, and the flag is audited once.
-/

set_option autoImplicit false

namespace JobBoard.Assessments

open Txn Prog AssessmentService

abbrev Log := List (Txn.Group Write)

/-- The attempt at a moment of the run. -/
abbrev attemptAt (d₀ : Db) (L : Log) (id : Id) : Option Assessment :=
  (replay store d₀ L).assessment? id

/-- The attempt after a report, under the settings of the database. -/
def Db.report (d : Db) (a : Assessment) (events : RecordProctoringEventsDto) : Assessment :=
  recorded a events d.settings.leaveFlagThreshold d.settings.leaveHardThreshold

/-! ## The runs -/

def Op.reportsOn : Op → Option Id
  | .recordProctoringEvents _ id _ => some id
  | _ => none

/-- Reports, while time passes. -/
def Op.isReport : Op → Bool
  | .recordProctoringEvents .. => true
  | .clock _ => true
  | _ => false

/-- No other report on the attempt is in progress. -/
def onlyReport (s : RunState) (i : Nat) (id : Id) : Bool :=
  (List.range s.ops.length).all fun j =>
    j = i || !(s.call j).isRunning || (s.ops[j]?).all fun op => op.reportsOn ≠ some id

/-- An attempt is saved while no other report on it is in progress, and a report does not fail
after its save. -/
def undisturbed (s : RunState) : Label Error Op → Bool
  | .spawn op => op.isReport
  | .step i => (s.issues i).all fun w =>
    match w with
    | .saveAssessment entity _ => onlyReport s i entity.id
    | _ => true
  | .fault i _ => s.log.all fun g => g.call ≠ i

section

variable {s : RunState} {i j : Nat} {id : Id} {op : Op}

theorem onlyReport_iff (h : onlyReport s i id = true) (hij : j ≠ i) (hop : s.ops[j]? = some op)
    (hrun : (s.call j).isRunning = true) : op.reportsOn ≠ some id := by
  have hlt : j < s.ops.length := (List.getElem?_eq_some_iff.1 hop).1
  have hj := List.all_eq_true.1 h j (List.mem_range.2 hlt)
  simpa [hij, hop, hrun] using hj

end

/-! ## What a report does -/

section

variable {d₀ d : Db} {a : Assessment} {events : RecordProctoringEventsDto} {L L' : Log}

theorem report_eq (d : Db) (a : Assessment) (events : RecordProctoringEventsDto) :
    d.report a events =
      { a with
        status := (d.report a events).status
        tabSwitchCount := max a.tabSwitchCount events.tabSwitches
        windowBlurCount := max a.windowBlurCount events.windowBlurs
        proctoringFlagged := (d.report a events).proctoringFlagged } := rfl

@[simp] theorem report_id : (d.report a events).id = a.id := rfl

theorem report_flagged (h : a.proctoringFlagged = true) :
    (d.report a events).proctoringFlagged = true := by
  simp only [Db.report, recorded, h, ite_self]

theorem report_overwrite : (d.report a events).overwrite a a = d.report a events := by
  rw [Assessment.overwrite_loaded, report_eq]

theorem settings_replay (d₀ : Db) (L : Log) : (replay store d₀ L).settings = d₀.settings :=
  replay_keeps (S := store) (P := fun d => d.settings = d₀.settings)
    (fun d w h => by cases w <;> exact h) List.nil_prefix rfl

end

/-- The signals of `b` are at least those of `a`. -/
structure Assessment.SignalsLe (a b : Assessment) : Prop where
  tabs : a.tabSwitchCount ≤ b.tabSwitchCount
  blurs : a.windowBlurCount ≤ b.windowBlurCount
  flag : a.proctoringFlagged = true → b.proctoringFlagged = true

namespace Assessment.SignalsLe

variable {a b c : Assessment}

theorem refl (a : Assessment) : a.SignalsLe a := ⟨Int.le_refl _, Int.le_refl _, fun h => h⟩

theorem trans (h : a.SignalsLe b) (h' : b.SignalsLe c) : a.SignalsLe c :=
  ⟨Int.le_trans h.tabs h'.tabs, Int.le_trans h.blurs h'.blurs, fun ha => h'.flag (h.flag ha)⟩

theorem report (d : Db) (a : Assessment) (events : RecordProctoringEventsDto) :
    a.SignalsLe (d.report a events) :=
  ⟨Int.le_max_left _ _, Int.le_max_left _ _, report_flagged⟩

end Assessment.SignalsLe

/-! ## The conduct of a report -/

/-- The entry that a report makes when it sets the flag. -/
def isFlagEntry (id : Id) (entry : AuditLog) : Bool :=
  entry.action = .assessmentProctoringFlagged && entry.entityId = id

def Fresh (i : Nat) (L : Log) : Prop := ∀ g ∈ L, g.call ≠ i

def isSave : Write → Bool
  | .saveAssessment _ _ => true
  | _ => false

/-- Call `i` has saved its report of the attempt, that it loaded as `a`, at the moment `A`. -/
structure Saves (d₀ : Db) (L A : Log) (i : Nat) (id : Id) (events : RecordProctoringEventsDto)
    (a : Assessment) : Prop where
  row : attemptAt d₀ A id = some a
  written : WrittenAt L A i (.saveAssessment (d₀.report a events) a)

/-- The report `a` of which is being made sets the flag. -/
def SetsFlag (d₀ : Db) (a : Assessment) (events : RecordProctoringEventsDto) : Prop :=
  a.proctoringFlagged = false ∧ (d₀.report a events).proctoringFlagged = true

inductive Guarantee (d₀ : Db) (i : Nat) (L : Log) : Op → Write → Prop
  | save {candidateId id : Id} {events : RecordProctoringEventsDto} {a : Assessment} :
      attemptAt d₀ L id = some a → Unwritten i isSave L →
        Guarantee d₀ i L (.recordProctoringEvents candidateId id events)
          (.saveAssessment (d₀.report a events) a)
  | flagged {candidateId id : Id} {events : RecordProctoringEventsDto} {A : Log}
      {a : Assessment} {entry : AuditLog} : Saves d₀ L A i id events a →
        SetsFlag d₀ a events → isFlagEntry id entry = true →
          ByOthers i (A ++ [⟨i, false, [.saveAssessment (d₀.report a events) a]⟩]) L →
            Guarantee d₀ i L (.recordProctoringEvents candidateId id events) (.insertAuditLog entry)
  | incident {candidateId id : Id} {events : RecordProctoringEventsDto} {entry : AuditLog} :
      entry.action = .assessmentIncident →
        Guarantee d₀ i L (.recordProctoringEvents candidateId id events) (.insertAuditLog entry)
  | tick {ms : Nat} : Guarantee d₀ i L (.clock ms) (.tick ms)

/-- The report has been made: it changes nothing, or it is saved, and audited where it sets the
flag. -/
def Reported (d₀ : Db) (i : Nat) (id : Id) (events : RecordProctoringEventsDto) (L : Log) : Prop :=
  ∃ A a, A <+: L ∧ attemptAt d₀ A id = some a ∧
    ((d₀.report a events = a ∧ Unwritten i isSave L) ∨
      (Saves d₀ L A i id events a ∧ (SetsFlag d₀ a events →
        ∃ B entry, WrittenAt L B i (.insertAuditLog entry) ∧ isFlagEntry id entry = true)))

def conduct (d₀ : Db) : Conduct Write Error Result Op where
  rely i op L L' := ByOthers i L L' ∧ ∀ id, op.reportsOn = some id →
    attemptAt d₀ L' id = attemptAt d₀ L id
  inv _ := True
  guar i op L ws := ∃ w, ws = [w] ∧ Guarantee d₀ i L op w
  fails i _ := Fresh i
  post i op L _ := match op with
    | .recordProctoringEvents _ id events => Reported d₀ i id events L
    | _ => True
  err i _ L _ := Fresh i L

section

variable {env : Environment} {d₀ : Db} {i : Nat} {L L' : Log} {id candidateId : Id}
  {events : RecordProctoringEventsDto} {α : Type}

/-- The piece keeps to the conduct of a report from the log `L`. -/
abbrev Leads (d₀ : Db) (i : Nat) (op : Op) (p : M α) (Q : Log → α → Prop) (L : Log) : Prop :=
  p.along store d₀ i ((conduct d₀).rely i op) (fun _ => True) ((conduct d₀).guar i op) (Fresh i)
    (fun e => isFault e = true) (fun L _ => Fresh i L) Q L

theorem Fresh.others (h : Fresh i L) (hr : ByOthers i L L') : Fresh i L' := by
  obtain ⟨gs, rfl, hgs⟩ := hr
  exact fun g hg => (List.mem_append.1 hg).elim (h g) (hgs g)

theorem select_leads {op : Op} {f : Db → α} {Q : Log → α → Prop}
    (h : ∀ L', (conduct d₀).rely i op L L' → Q L' (f (replay store d₀ L'))) :
    Leads d₀ i op (select f) Q L :=
  along_select (fun _ _ _ hF _ _ => hF) fun L' hr _ => h L' hr

theorem write_leads {op : Op} {w : Write} {Q : Log → Unit → Prop}
    (h : ∀ L', (conduct d₀).rely i op L L' → Guarantee d₀ i L' op w ∧
      Q (L' ++ [⟨i, false, [w]⟩]) ()) : Leads d₀ i op (write fun _ => [w]) Q L :=
  along_write (fun _ _ _ hF _ _ => hF) fun L' hr _ => ⟨⟨w, rfl, (h L' hr).1⟩, (h L' hr).2⟩

theorem loadOwn_leads {op : Op} {status : AssessmentStatus} {message : String}
    (hL : Fresh i L) :
    Leads d₀ i op (loadOwn candidateId id status message)
      (fun L' a => Fresh i L' ∧ attemptAt d₀ L' id = some a) L := by
  unfold loadOwn AssessmentRepository.findById
  rw [Leads, along_bind]
  refine select_leads fun L₁ hr₁ => ?_
  have hfresh := hL.others hr₁.1
  cases ha : attemptAt d₀ L₁ id with
  | none =>
    simp only [ha]
    exact hfresh
  | some a =>
    simp only [ha]
    split
    · exact hfresh
    · split
      · exact hfresh
      · exact ⟨hfresh, ha⟩

/-- The entity is saved on the row that it was loaded from. -/
theorem save_leads {op : Op} {a : Assessment}
    (hop : op = .recordProctoringEvents candidateId id events) (hL : Unwritten i isSave L)
    (ha : attemptAt d₀ L id = some a) :
    Leads d₀ i op (AssessmentRepository.save (d₀.report a events))
      (fun L' saved => saved = d₀.report a events ∧ ∃ A, A <+: L' ∧ attemptAt d₀ A id = some a ∧
        ((d₀.report a events = a ∧ Unwritten i isSave L') ∨
          L' = A ++ [⟨i, false, [.saveAssessment (d₀.report a events) a]⟩])) L := by
  subst hop
  have hid : a.id = id := Table.key_of_get? ha
  unfold AssessmentRepository.save AssessmentRepository.findById
  rw [Leads, along_bind]
  refine select_leads fun L₁ hr₁ => ?_
  have ha₁ : attemptAt d₀ L₁ id = some a := (hr₁.2 id rfl).trans ha
  have hL₁ := hL.others hr₁.1
  simp only [report_id, hid, ha₁, report_overwrite]
  split
  · next hsame => exact ⟨rfl, L₁, List.prefix_rfl, ha₁, .inl ⟨hsame, hL₁⟩⟩
  · show Leads d₀ i _ (_ >>= _) _ L₁
    rw [Leads, along_bind]
    refine write_leads fun L₂ hr₂ => ?_
    have ha₂ : attemptAt d₀ L₂ id = some a := (hr₂.2 id rfl).trans ha₁
    exact ⟨.save ha₂ (hL₁.others hr₂.1), rfl, L₂, List.prefix_append _ _, ha₂, .inr rfl⟩

theorem Saves.mono {A : Log} {a : Assessment} (h : Saves d₀ L A i id events a) (hl : L <+: L') :
    Saves d₀ L' A i id events a := ⟨h.row, h.written.mono hl⟩

/-- A report that has been made stays so while the log grows by other writes. -/
theorem Reported.mono (h : Reported d₀ i id events L) (hl : L <+: L')
    (hunwritten : Unwritten i isSave L → Unwritten i isSave L') :
    Reported d₀ i id events L' := by
  obtain ⟨A, a, hA, ha, ⟨hsame, hL⟩ | ⟨hsaves, hflag⟩⟩ := h
  · exact ⟨A, a, hA.trans hl, ha, .inl ⟨hsame, hunwritten hL⟩⟩
  · refine ⟨A, a, hA.trans hl, ha, .inr ⟨hsaves.mono hl, fun hsets => ?_⟩⟩
    obtain ⟨B, entry, hB, hentry⟩ := hflag hsets
    exact ⟨B, entry, hB.mono hl, hentry⟩

theorem Reported.others (h : Reported d₀ i id events L) (hr : ByOthers i L L') :
    Reported d₀ i id events L' := h.mono hr.onto fun hL => hL.others hr

theorem Reported.entry (h : Reported d₀ i id events L) (entry : AuditLog) :
    Reported d₀ i id events (L ++ [⟨i, false, [.insertAuditLog entry]⟩]) :=
  h.mono (List.prefix_append _ _) fun hL => hL.snoc rfl

/-- The entry of a report that goes over the hard limit. -/
theorem incident_leads {c : Prop} [Decidable c] {entry : AuditLog} {r : Assessment}
    (hentry : entry.action = .assessmentIncident) (h : Reported d₀ i id events L) :
    Leads d₀ i (.recordProctoringEvents candidateId id events)
      (if c then do AuditService.log entry; return r else return r)
      (fun L' _ => Reported d₀ i id events L') L := by
  split
  · rw [Leads, along_bind]
    exact write_leads fun L₁ hr₁ => ⟨.incident hentry, (h.others hr₁.1).entry entry⟩
  · exact h

theorem recordProctoringEvents_leads (hL : Fresh i L) :
    Leads d₀ i (.recordProctoringEvents candidateId id events)
      (recordProctoringEvents candidateId id events) (fun L' _ => Reported d₀ i id events L') L := by
  unfold recordProctoringEvents
  rw [Leads, along_bind]
  refine along_mono (fun L₁ a ⟨hfresh, ha⟩ => ?_) (loadOwn_leads hL)
  rw [along_bind]
  refine select_leads fun L₂ hr₂ => ?_
  rw [along_bind]
  refine select_leads fun L₃ hr₃ => ?_
  have ha₃ : attemptAt d₀ L₃ id = some a := ((hr₃.2 id rfl).trans (hr₂.2 id rfl)).trans ha
  have hL₃ : Unwritten i isSave L₃ := .start ((hfresh.others hr₂.1).others hr₃.1)
  rw [along_bind, settings_replay, settings_replay]
  refine along_mono (fun L₄ saved ⟨hsaved, A, hA, haA, hcase⟩ => ?_) (save_leads rfl hL₃ ha₃)
  subst hsaved
  have hid : a.id = id := Table.key_of_get? haA
  dsimp only
  split
  · next hsets =>
    have hflag : SetsFlag d₀ a events := ⟨Bool.eq_false_iff.2 hsets.1, hsets.2⟩
    rcases hcase with ⟨hsame, -⟩ | rfl
    · rw [hsame] at hsets
      exact absurd hsets.2 hsets.1
    · rw [along_bind]
      refine write_leads fun L₅ hr₅ => ?_
      have hsaves : Saves d₀ L₅ A i id events a :=
        ⟨haA, (writtenAt_self _ _ _).mono hr₅.1.onto⟩
      refine ⟨.flagged hsaves hflag ?_ hr₅.1, ?_⟩
      · simp [isFlagEntry, hid]
      · refine incident_leads rfl ⟨A, a, hA.trans (hr₅.1.onto.trans (List.prefix_append _ _)), haA,
          .inr ⟨hsaves.mono (List.prefix_append _ _), fun _ => ⟨L₅, _, writtenAt_self _ _ _, ?_⟩⟩⟩
        simp [isFlagEntry, hid]
  · next hsets =>
    refine incident_leads rfl ⟨A, a, hA, haA, hcase.imp_right ?_⟩
    rintro rfl
    refine ⟨⟨haA, writtenAt_self _ _ _⟩, fun hflag => absurd ⟨?_, hflag.2⟩ hsets⟩
    rw [hflag.1]
    exact Bool.false_ne_true

end

section

variable {env : Environment} {d₀ : Db} {s : RunState}

theorem history (env : Environment) (d₀ : Db) :
    History (system env) (fun s l => undisturbed s l = true) (conduct d₀) d₀ where
  refl i _ L := ⟨ByOthers.refl i L, fun _ _ => rfl⟩
  trans _ _ _ _ _ h h' := ⟨h.1.trans h'.1, fun id hid => (h'.2 id hid).trans (h.2 id hid)⟩
  inv _ _ := trivial
  others := by
    rintro s i op j op' ws - hk hok hi hj hji hrun hws - ⟨w, rfl, hG⟩
    refine ⟨⟨[_], rfl, by simpa using fun h => hji h.symm⟩, fun id hid => ?_⟩
    rw [attemptAt, replay_snoc]
    cases hG with
    | @save _ _ events a ha _ =>
      have honly : onlyReport s i (d₀.report a events).id = true := by
        simpa [undisturbed, hws] using hok
      have hne := onlyReport_iff honly hji hj hrun
      rw [hid] at hne
      refine (assessment?_saved _ _ id).trans (if_neg fun h => hne ?_)
      rw [h]
    | flagged | incident | tick => rfl
  settled := by
    intro i op j op' L ws _ _ hji
    have hothers : ByOthers j L (L ++ [⟨i, false, ws⟩]) :=
      ⟨[_], rfl, by simpa using fun h => hji h.symm⟩
    refine ⟨fun r h => ?_, fun e h => Fresh.others h hothers⟩
    cases op' with
    | recordProctoringEvents _ _ _ => exact Reported.others h hothers
    | _ => trivial
  fault _ _ hok _ := by
    intro g hg
    simpa using List.all_eq_true.1 hok g hg
  prog := by
    intro s op _ hk hok
    have hfresh : Fresh s.ops.length s.log := fun g hg => Nat.ne_of_lt (hk.fresh.log g hg)
    cases op with
    | recordProctoringEvents candidateId id events =>
      show Leads d₀ _ _ (_ >>= _) _ _
      rw [Leads, along_bind]
      exact along_mono (fun _ _ h => h) (recordProctoringEvents_leads hfresh)
    | clock ms =>
      show Leads d₀ _ _ (_ >>= _) _ _
      rw [Leads, along_bind]
      exact write_leads fun L' _ => ⟨.tick, trivial⟩
    | _ => cases hok

/-! ## What the runs do -/

/-- The runs in which no report is disturbed. -/
abbrev Undisturbed (env : Environment) (d₀ : Db) (s : RunState) : Prop :=
  (system env).Within (fun s l => undisturbed s l = true) d₀ s

theorem published (h : Undisturbed env d₀ s) {L : Log} {g : Txn.Group Write}
    (hl : L ++ [g] <+: s.log) :
    ∃ op w, g = ⟨g.call, false, [w]⟩ ∧ s.ops[g.call]? = some op ∧ Guarantee d₀ g.call L op w := by
  obtain ⟨r, hlog⟩ := hl
  rw [List.append_assoc, List.singleton_append] at hlog
  obtain ⟨hviaTx, op, hop, -, w, hw, hG⟩ := ((history env d₀).good trivial h).log hlog.symm
  exact ⟨op, w, by rw [← hviaTx, ← hw], hop, hG⟩

/-- A report that is saved becomes the row. -/
theorem attemptAt_save {L : Log} {i : Nat} {a : Assessment} {events : RecordProctoringEventsDto}
    (ha : attemptAt d₀ L a.id = some a) (id : Id) :
    attemptAt d₀ (L ++ [⟨i, false, [.saveAssessment (d₀.report a events) a]⟩]) id =
      if id = a.id then some (d₀.report a events) else attemptAt d₀ L id := by
  rw [attemptAt, replay_snoc]
  exact assessment?_save ha report_id report_overwrite id

/-- A group raises the signals of an attempt, or keeps them. -/
theorem signals_snoc (h : Undisturbed env d₀ s) {L : Log} {g : Txn.Group Write}
    (hl : L ++ [g] <+: s.log) {id : Id} {a : Assessment} (ha : attemptAt d₀ L id = some a) :
    ∃ b, attemptAt d₀ (L ++ [g]) id = some b ∧ a.SignalsLe b := by
  obtain ⟨op, w, hg, -, hG⟩ := published h hl
  rw [hg]
  cases hG with
  | @save _ id' events a' ha' _ =>
    have hid : a'.id = id' := Table.key_of_get? ha'
    subst hid
    rw [attemptAt_save ha']
    by_cases he : id = a'.id
    · subst he
      cases ha.symm.trans ha'
      exact ⟨_, if_pos rfl, .report d₀ a events⟩
    · exact ⟨a, (if_neg he).trans ha, .refl a⟩
  | flagged | incident | tick =>
    rw [attemptAt, replay_snoc]
    exact ⟨a, ha, .refl a⟩

theorem signals_mono (h : Undisturbed env d₀ s) {A L : Log} {id : Id} {a : Assessment}
    (hA : A <+: L) (hL : L <+: s.log) (ha : attemptAt d₀ A id = some a) :
    ∃ b, attemptAt d₀ L id = some b ∧ a.SignalsLe b := by
  refine along_log_from (I := fun L => ∃ b, attemptAt d₀ L id = some b ∧ a.SignalsLe b)
    ⟨a, ha, .refl a⟩ (fun l g _ hl ih => ?_) L hA hL
  obtain ⟨b, hb, hab⟩ := ih
  obtain ⟨c, hc, hbc⟩ := signals_snoc h hl hb
  exact ⟨c, hc, hab.trans hbc⟩

/-- A report that is saved, and what it leaves. -/
theorem Saves.after {L A : Log} {i : Nat} {id : Id} {events : RecordProctoringEventsDto}
    {a : Assessment} (hs : Saves d₀ L A i id events a) :
    attemptAt d₀ (A ++ [⟨i, false, [.saveAssessment (d₀.report a events) a]⟩]) id =
      some (d₀.report a events) := by
  have hid : a.id = id := Table.key_of_get? hs.row
  subst hid
  rw [attemptAt_save hs.row, if_pos rfl]

/-- The flag of an attempt is set by one report. -/
theorem setsFlag_unique (h : Undisturbed env d₀ s) {A A' : Log} {i i' : Nat} {id : Id}
    {events events' : RecordProctoringEventsDto} {a a' : Assessment}
    (hs : Saves d₀ s.log A i id events a) (hs' : Saves d₀ s.log A' i' id events' a')
    (hflag : SetsFlag d₀ a events) (hflag' : SetsFlag d₀ a' events') :
    A = A' ∧ i = i' ∧
      Write.saveAssessment (d₀.report a events) a = .saveAssessment (d₀.report a' events') a' := by
  -- the later of two reports would have loaded the flag
  have later : ∀ {A A' : Log} {i i' : Nat} {events events' : RecordProctoringEventsDto}
      {a a' : Assessment}, Saves d₀ s.log A' i' id events' a' → SetsFlag d₀ a' events' →
        Saves d₀ A' A i id events a → SetsFlag d₀ a events → False := by
    intro A A' i i' events events' a a' hs' hflag' hs hflag
    obtain ⟨b, hb, hle⟩ := signals_mono h hs.written hs'.written.onto hs.after
    cases hb.symm.trans hs'.row
    have hset := hle.flag hflag.2
    rw [hflag'.1] at hset
    cases hset
  rcases hs.written.cases hs'.written with hsame | hw | hw
  · exact hsame
  · exact (later hs' hflag' ⟨hs.row, hw⟩ hflag).elim
  · exact (later hs hflag ⟨hs'.row, hw⟩ hflag').elim

/-- The flag of an attempt has been set by a report. -/
theorem flag_set (h : Undisturbed env d₀ s) {id : Id} {a : Assessment}
    (ha : d₀.assessment? id = some a) (hoff : a.proctoringFlagged = false) {L : Log}
    (hL : L <+: s.log) : ∀ b, attemptAt d₀ L id = some b → b.proctoringFlagged = true →
      ∃ A i op events x, Saves d₀ L A i id events x ∧ SetsFlag d₀ x events ∧
        s.ops[i]? = some op ∧ ∃ candidateId, op = .recordProctoringEvents candidateId id events := by
  refine along_log (I := fun L => ∀ b, attemptAt d₀ L id = some b → b.proctoringFlagged = true →
    ∃ A i op events x, Saves d₀ L A i id events x ∧ SetsFlag d₀ x events ∧
      s.ops[i]? = some op ∧ ∃ candidateId, op = .recordProctoringEvents candidateId id events)
    (fun b hb hon => ?_) (fun l g hl ih b hb hon => ?_) L hL
  · cases ha.symm.trans hb
    rw [hoff] at hon
    cases hon
  · obtain ⟨op, w, hg, hop, hG⟩ := published h hl
    -- the row of before has the flag, or this group sets it
    have hbefore : ∃ x, attemptAt d₀ l id = some x := by
      obtain ⟨x, hx, -⟩ := signals_mono h List.nil_prefix ((List.prefix_append _ _).trans hl) ha
      exact ⟨x, hx⟩
    obtain ⟨x, hx⟩ := hbefore
    by_cases hxon : x.proctoringFlagged = true
    · obtain ⟨A, i, op, events, y, hs, hrest⟩ := ih x hx hxon
      exact ⟨A, i, op, events, y, ⟨hs.row, hs.written.mono (List.prefix_append _ _)⟩, hrest⟩
    · rw [hg] at hb
      cases hG with
      | @save candidateId id' events a' ha' _ =>
        have hid : a'.id = id' := Table.key_of_get? ha'
        subst hid
        rw [attemptAt_save ha'] at hb
        by_cases he : id = a'.id
        · subst he
          cases hx.symm.trans ha'
          rw [if_pos rfl, Option.some.injEq] at hb
          subst hb
          refine ⟨l, g.call, _, events, x, ⟨hx, ?_⟩, ⟨Bool.eq_false_iff.2 hxon, hon⟩, hop, _, rfl⟩
          rw [hg]
          exact writtenAt_self _ _ _
        · rw [if_neg he] at hb
          cases hx.symm.trans hb
          exact absurd hon hxon
      | flagged | incident | tick =>
        rw [attemptAt, replay_snoc] at hb
        cases hx.symm.trans hb
        exact absurd hon hxon

/-! ## The entry of the flag -/

/-- Whose entry of the flag it is, and the report it follows. -/
theorem entry_written (h : Undisturbed env d₀ s) {B : Log} {i : Nat} {id : Id} {entry : AuditLog}
    (hB : WrittenAt s.log B i (.insertAuditLog entry)) (hentry : isFlagEntry id entry = true) :
    ∃ A events a, Saves d₀ B A i id events a ∧ SetsFlag d₀ a events ∧
      ByOthers i (A ++ [⟨i, false, [.saveAssessment (d₀.report a events) a]⟩]) B := by
  obtain ⟨op, w, hg, -, hG⟩ := published h hB
  simp only [Txn.Group.mk.injEq, List.cons.injEq, and_true, true_and] at hg
  subst hg
  simp only [isFlagEntry, Bool.and_eq_true, decide_eq_true_eq] at hentry
  cases hG with
  | flagged hsaves hsets hentry' hothers =>
    simp only [isFlagEntry, Bool.and_eq_true, decide_eq_true_eq] at hentry'
    cases hentry.2.symm.trans hentry'.2
    exact ⟨_, _, _, hsaves, hsets, hothers⟩
  | incident hincident =>
    rw [hentry.1] at hincident
    cases hincident

/-- There is one entry of the flag of an attempt. -/
theorem entry_unique (h : Undisturbed env d₀ s) {B B' : Log} {i i' : Nat} {id : Id}
    {entry entry' : AuditLog} (hB : WrittenAt s.log B i (.insertAuditLog entry))
    (hB' : WrittenAt s.log B' i' (.insertAuditLog entry')) (hentry : isFlagEntry id entry = true)
    (hentry' : isFlagEntry id entry' = true) : B = B' := by
  obtain ⟨A, events, a, hs, hsets, hothers⟩ := entry_written h hB hentry
  obtain ⟨A', events', a', hs', hsets', hothers'⟩ := entry_written h hB' hentry'
  obtain ⟨rfl, rfl, hw⟩ := setsFlag_unique h ⟨hs.row, hs.written.mono hB.onto⟩
    ⟨hs'.row, hs'.written.mono hB'.onto⟩ hsets hsets'
  rcases hB.cases hB' with ⟨rfl, -, -⟩ | hbefore | hbefore
  · rfl
  · exact absurd hbefore (hothers'.not_written (hw ▸ hs.written))
  · exact absurd hbefore (hothers.not_written (hw.symm ▸ hs'.written))

/-- The entries of the flag of an attempt. -/
def Db.flagEntries (d : Db) (id : Id) : Nat := (d.auditLogs.filter (isFlagEntry id)).length

/-- One of the writes is an entry of the flag of the attempt. -/
def HasEntry (L : Log) (id : Id) : Prop :=
  ∃ B i entry, WrittenAt L B i (.insertAuditLog entry) ∧ isFlagEntry id entry = true

theorem flagEntries_snoc (h : Undisturbed env d₀ s) {L : Log} {g : Txn.Group Write} (id : Id)
    (hl : L ++ [g] <+: s.log) :
    ((replay store d₀ (L ++ [g])).flagEntries id = (replay store d₀ L).flagEntries id ∧
      (HasEntry (L ++ [g]) id → HasEntry L id)) ∨
    ((replay store d₀ (L ++ [g])).flagEntries id = (replay store d₀ L).flagEntries id + 1 ∧
      HasEntry (L ++ [g]) id ∧ ¬ HasEntry L id) := by
  obtain ⟨op, w, hg, -, hG⟩ := published h hl
  rw [hg, replay_snoc]
  rw [hg] at hl
  -- a write that is no entry of the flag
  have other : (∀ entry, w = .insertAuditLog entry → isFlagEntry id entry = false) →
      HasEntry (L ++ [⟨g.call, false, [w]⟩]) id → HasEntry L id := by
    rintro hw ⟨B, i, entry, hB, hentry⟩
    rcases writtenAt_snoc.1 hB with ⟨-, -, rfl⟩ | hB
    · rw [hw entry rfl] at hentry
      cases hentry
    · exact ⟨B, i, entry, hB, hentry⟩
  cases w with
  | insertAuditLog entry =>
    have hcount : (store.applyAll (replay store d₀ L) [.insertAuditLog entry]).flagEntries id =
        (replay store d₀ L).flagEntries id + if isFlagEntry id entry then 1 else 0 := by
      simp only [Db.flagEntries, store, Store.applyAll_cons, Store.applyAll_nil, Write.apply,
        List.filter_append, List.length_append, List.filter_cons, List.filter_nil]
      split <;> rfl
    rw [hcount]
    cases hentry : isFlagEntry id entry with
    | false => exact .inl ⟨rfl, other fun _ hw => by cases hw; exact hentry⟩
    | true =>
      refine .inr ⟨rfl, ⟨L, g.call, entry, writtenAt_self _ _ _, hentry⟩, ?_⟩
      rintro ⟨B, i, entry', hB, hentry'⟩
      have hBs : WrittenAt s.log B i (.insertAuditLog entry') :=
        hB.mono ((List.prefix_append _ _).trans hl)
      have hsame := entry_unique h hBs hl hentry' hentry
      have hlen := hB.length_le
      rw [hsame, List.length_append, List.length_singleton] at hlen
      omega
  | _ =>
    refine .inl ⟨?_, other fun entry hw => by cases hw⟩
    cases hG <;> rfl

/-- At most one entry of the flag is added, when it is written. -/
theorem flagEntries_log (h : Undisturbed env d₀ s) (id : Id) : ∀ L, L <+: s.log →
    (¬ HasEntry L id ∧ (replay store d₀ L).flagEntries id = d₀.flagEntries id) ∨
      (HasEntry L id ∧ (replay store d₀ L).flagEntries id = d₀.flagEntries id + 1) := by
  refine along_log (.inl ⟨?_, rfl⟩) fun L g hl ih => ?_
  · rintro ⟨B, i, entry, hB, -⟩
    have hlen := hB.length_le
    simp at hlen
  · rcases flagEntries_snoc h id hl with ⟨hcount, hkept⟩ | ⟨hcount, hnew, hnone⟩
    · rw [hcount]
      rcases ih with ⟨hnone, hcount'⟩ | ⟨⟨B, i, entry, hB, hentry⟩, hcount'⟩
      · exact .inl ⟨fun hsome => hnone (hkept hsome), hcount'⟩
      · exact .inr ⟨⟨B, i, entry, hB.mono (List.prefix_append _ _), hentry⟩, hcount'⟩
    · rw [hcount]
      rcases ih with ⟨-, hcount'⟩ | ⟨hsome, -⟩
      · exact .inr ⟨hnew, by rw [hcount']⟩
      · exact absurd hsome hnone

/-- A call saves once. -/
theorem save_unique (h : Undisturbed env d₀ s) {A A' : Log} {i : Nat} {e e' r r' : Assessment}
    (hA : WrittenAt s.log A i (.saveAssessment e r))
    (hA' : WrittenAt s.log A' i (.saveAssessment e' r')) : A = A' := by
  have before : ∀ {A A' : Log} {e e' r r' : Assessment},
      WrittenAt s.log A' i (.saveAssessment e' r') → ¬ WrittenAt A' A i (.saveAssessment e r) := by
    intro A A' e e' r r' hA' hw
    obtain ⟨op, w, hg, -, hG⟩ := published h hA'
    simp only [Txn.Group.mk.injEq, List.cons.injEq, and_true, true_and] at hg
    subst hg
    cases hG with
    | save _ hunwritten => cases hunwritten A _ hw
  rcases hA.cases hA' with ⟨hsame, -, -⟩ | hw | hw
  · exact hsame
  · exact absurd hw (before hA')
  · exact absurd hw (before hA)

/-- A report that has set the flag, and is not in progress any more, has written its entry. -/
theorem entry_of_report (h : Undisturbed env d₀ s) {A : Log} {i : Nat} {id candidateId : Id}
    {events : RecordProctoringEventsDto} {a : Assessment} (hs : Saves d₀ s.log A i id events a)
    (hsets : SetsFlag d₀ a events)
    (hop : s.ops[i]? = some (.recordProctoringEvents candidateId id events))
    (hend : (s.call i).isRunning = false) : HasEntry s.log id := by
  have hkeeps := ((history env d₀).good trivial h).call hop
  have hcalled : ¬ Fresh i s.log := fun hfresh => hfresh _ (hs.written.subset
    (List.mem_append_right _ (List.mem_singleton_self _))) rfl
  cases hcall : s.call i with
  | idle =>
    rw [hcall] at hkeeps
    exact hkeeps.elim
  | run tx p =>
    rw [hcall] at hend
    cases hend
  | done r =>
    rw [hcall] at hkeeps
    cases r with
    | error e => exact absurd hkeeps hcalled
    | ok r =>
      obtain ⟨A', a', -, -, ⟨-, hunwritten⟩ | ⟨hs', hentry⟩⟩ := hkeeps
      · cases hunwritten A _ hs.written
      · have hsame := save_unique h hs.written hs'.written
        subst hsame
        cases hs.row.symm.trans hs'.row
        obtain ⟨B, entry, hB, hflag⟩ := hentry hsets
        exact ⟨B, i, entry, hB, hflag⟩

/-! ## Reports that are not disturbed -/

/-- The signals of the attempts along a run, and the entries of their flags. -/
structure ProctoringMonotone (d₀ : Db) (s : RunState) : Prop where
  /-- The counts do not decrease, and the flag is not taken back. -/
  signals : ∀ (A L : Log) id a, A <+: L → L <+: s.log → attemptAt d₀ A id = some a →
    ∃ b, attemptAt d₀ L id = some b ∧ a.SignalsLe b
  /-- The counts are at least those of every accepted report. -/
  accepted : ∀ (i : Nat) candidateId id events r,
    s.ops[i]? = some (.recordProctoringEvents candidateId id events) →
      s.call i = .done (.ok r) → ∃ b, s.db.assessment? id = some b ∧
        events.tabSwitches ≤ b.tabSwitchCount ∧ events.windowBlurs ≤ b.windowBlurCount
  /-- The flag is not audited twice. -/
  atMostOnce : ∀ id, s.db.flagEntries id ≤ d₀.flagEntries id + 1
  /-- When no report is in progress, a flag that has been set is audited. -/
  once : ∀ id a b, d₀.assessment? id = some a → a.proctoringFlagged = false →
    s.db.assessment? id = some b → b.proctoringFlagged = true → s.Idle →
      s.db.flagEntries id = d₀.flagEntries id + 1

theorem proctoring_monotone (env : Environment) (d₀ : Db) (s : RunState)
    (h : (system env).Within (fun s l => undisturbed s l = true) d₀ s) :
    ProctoringMonotone d₀ s := by
  have hk := (history env d₀).good trivial h
  have hdb : s.db = replay store d₀ s.log := hk.db
  refine ⟨fun A L id a hA hL => signals_mono h hA hL, ?_, fun id => ?_, ?_⟩
  · intro i candidateId id events r hop hdone
    have hkeeps := hk.call hop
    rw [hdone] at hkeeps
    -- the report is in the row that it has left, or that it has loaded
    obtain ⟨A, a, hA, ha, hcase⟩ := hkeeps
    have hreport : ∃ C, C <+: s.log ∧ attemptAt d₀ C id = some (d₀.report a events) := by
      rcases hcase with ⟨hsame, -⟩ | ⟨hs, -⟩
      · exact ⟨A, hA, hsame.symm ▸ ha⟩
      · exact ⟨_, hs.written, hs.after⟩
    obtain ⟨C, hC, hreported⟩ := hreport
    obtain ⟨b, hb, hle⟩ := signals_mono h hC List.prefix_rfl hreported
    rw [attemptAt, ← hdb] at hb
    exact ⟨b, hb, Int.le_trans (Int.le_max_right _ _) hle.tabs,
      Int.le_trans (Int.le_max_right _ _) hle.blurs⟩
  · rw [hdb]
    rcases flagEntries_log h id s.log List.prefix_rfl with ⟨-, hcount⟩ | ⟨-, hcount⟩
    · omega
    · omega
  · intro id a b ha hoff hb hon hidle
    rw [hdb] at hb ⊢
    obtain ⟨A, i, op, events, x, hs, hsets, hop, candidateId, rfl⟩ :=
      flag_set h ha hoff List.prefix_rfl b hb hon
    have hentry := entry_of_report h hs hsets hop (hidle i)
    rcases flagEntries_log h id s.log List.prefix_rfl with ⟨hnone, -⟩ | ⟨-, hcount⟩
    · exact absurd hentry hnone
    · exact hcount

end

/-! ## Reports that overtake each other -/

/-- An attempt in progress. -/
def examined : Db :=
  { Db.empty with
    assessments := Table.insert ∅
      { id := 0
        candidateId := 7
        testId := 20
        externalAssessmentId := none
        status := .inProgress
        resumeToken := none
        expiresAt := none
        startedAt := none
        completedAt := none
        cooldownNotifiedAt := none
        ipAddress := none
        deviceFingerprint := none
        multiAccountFlagged := false
        tabSwitchCount := 0
        windowBlurCount := 0
        proctoringFlagged := false
        assignedTestVersion := none
        createdAt := 0 } }

theorem noBlur_valid : (0 : Int) ≤ 0 ∧ (0 : Int) ≤ 10000 := by decide

def heartbeat (tabSwitches : Int) (h : 0 ≤ tabSwitches ∧ tabSwitches ≤ 10000) : Op :=
  .recordProctoringEvents 7 0 ⟨tabSwitches, 0, h, noBlur_valid⟩

def steps (i n : Nat) : List (Label Error Op) := List.replicate n (.step i)

theorem proctoring_monotone_flagged : ∃ s : RunState, s.db.flagEntries 0 = 1 ∧
    ProctoringMonotone examined s := by
  have hrun : (((system .default).runIf undisturbed (State.init examined)
      (.spawn (heartbeat 2 (by decide)) :: steps 0 6 ++
        .spawn (heartbeat 6 (by decide)) :: steps 1 7)).map fun s => s.db.flagEntries 0) =
      some 1 := by decide
  obtain ⟨s, hs, he⟩ := System.within_of_run hrun
  exact ⟨s, he, proctoring_monotone .default examined s hs⟩

/-- A report of 2 has loaded the attempt before a report of 6, and is saved after it. Then 6 is
reported again. -/
def overtakenReport : List (Label Error Op) :=
  .spawn (heartbeat 2 (by decide)) :: steps 0 1 ++ .spawn (heartbeat 6 (by decide)) ::
    steps 1 7 ++ steps 0 5 ++ .spawn (heartbeat 6 (by decide)) :: steps 2 7

/-- The count and the flag are taken back, and the flag is audited twice. -/
theorem overtaken_report :
    (¬ ∀ (env : Environment) (d₀ : Db) (s : RunState), (system env).Reachable d₀ s →
      ∀ (A L : Log) id a, A <+: L → L <+: s.log → attemptAt d₀ A id = some a →
        ∃ b, attemptAt d₀ L id = some b ∧ a.SignalsLe b) ∧
    ¬ ∀ (env : Environment) (d₀ : Db) (s : RunState), (system env).Reachable d₀ s →
      ∀ id, s.db.flagEntries id ≤ d₀.flagEntries id + 1 := by
  have hrun : (((system .default).runLabels .all (State.init examined) overtakenReport).map
      fun s => ((attemptAt examined (s.log.take 2) 0).map fun a =>
          (a.tabSwitchCount, a.proctoringFlagged),
        (attemptAt examined (s.log.take 3) 0).map fun a => (a.tabSwitchCount, a.proctoringFlagged),
        s.db.flagEntries 0)) = some (some (6, true), some (2, false), 2) := by decide
  obtain ⟨s, hs, he⟩ := System.reach_of_run hrun
  simp only [Prod.mk.injEq, Option.map_eq_some_iff] at he
  obtain ⟨⟨a, ha, hcount, -⟩, ⟨b, hb, hcount', -⟩, htwice⟩ := he
  refine ⟨fun h => ?_, fun h => ?_⟩
  · obtain ⟨c, hc, hle⟩ := h .default examined s hs (s.log.take 2) (s.log.take 3) 0 a
      (List.take_prefix_take_left (by decide)) (List.take_prefix _ _) ha
    cases hb.symm.trans hc
    have htabs := hle.tabs
    rw [hcount, hcount'] at htabs
    omega
  · have hentries := h .default examined s hs 0
    rw [htwice] at hentries
    exact absurd hentries (by decide)

end JobBoard.Assessments
