import JobBoard.Messaging.Opening
import JobBoard.Cvtheque.Conduct

/-!
# What a sweep publishes

A sweep loads the searches, and for each reads the clock, counts, advances the anchor and
writes the notification. The facts it relies on are about earlier moments of the log, which
other calls cannot take back. With it, `kept`: the calls of the system are as guaranteed.
-/

set_option autoImplicit false

namespace JobBoard.Cvtheque

open Txn Prog Assessments

section

variable {env : Environment} {d₀ : Db} {i : Nat} {op : Op} {α : Type}

/-- The program of call `i` keeps to the conduct from the log `L`, with `Q` at its end and
`E` where it throws. -/
abbrev Keeps (env : Environment) (d₀ : Db) (i : Nat) (op : Op) (E : Log → Prop) (p : M α)
    (Q : Log → α → Prop) (L : Log) : Prop :=
  p.along store d₀ i (Others i) (fun _ => True)
    (fun L ws => ∃ w, ws = [w] ∧ Guarantee env d₀ i op L w) (fun _ => True)
    (fun e => isFault e = true) (fun L _ => E L) Q L

theorem keeps_query {f : Db → Except Error (List Write × α)} {E : Log → Prop}
    {Q : Log → α → Prop} {L : Log} (hE : ∀ L', Others i L L' → E L')
    (h : ∀ L' ws a, Others i L L' → f (d₀.at L') = .ok (ws, a) →
      (ws = [] ∧ Q L' a) ∨ ∃ w, ws = [w] ∧ Guarantee env d₀ i op L' w ∧
        Q (L' ++ [⟨i, false, [w]⟩]) a) : Keeps env d₀ i op E (query f) Q L := by
  refine along_query (fun L' hr _ _ _ _ => hE L' hr) (fun L' _ hr _ _ => hE L' hr) ?_
  intro L' ws a hr _ hf
  rcases h L' ws a hr hf with ⟨rfl, hQ⟩ | ⟨w, rfl, hw, hQ⟩
  · exact hQ
  · exact ⟨⟨w, rfl, hw⟩, hQ⟩

/-- The edits keep to the conduct. -/
theorem EditsOnly.keeps {p : M α} (hp : EditsOnly op p) (L : Log) :
    Keeps env d₀ i op (fun _ => True) p (fun _ _ => True) L := by
  have hwrite : ∀ L ws, True → True → Edits op ws → logs i
      (fun L ws => ∃ w, ws = [w] ∧ Guarantee env d₀ i op L w) L ws fun _ => True := by
    rintro L ws - - (rfl | ⟨w, rfl, hw⟩)
    · trivial
    · exact ⟨⟨w, rfl, hw env d₀ i L⟩, trivial⟩
  exact Plain.along hp (fun _ _ _ _ _ => trivial) hwrite (fun _ _ _ _ => trivial)
    (fun _ _ _ => trivial) trivial

/-! ## One search -/

/-- What sweep `i` has loaded. -/
def Loaded (d₀ : Db) (i : Nat) (search : SavedSearch) (L : Log) : Prop :=
  ∃ A ss, PublishedAt L A i (.trace (.loaded ss)) ∧
    search ∈ SavedSearchAlertService.enabledSearches (d₀.at A)

theorem Loaded.mono {search : SavedSearch} {L L' : Log} (h : Loaded d₀ i search L)
    (hl : L <+: L') : Loaded d₀ i search L' := by
  obtain ⟨A, ss, hA, hs⟩ := h
  exact ⟨A, ss, hA.mono hl, hs⟩

theorem attempt_keeps {failures : List SweepFailure} {searchId : Id} {stage : SweepStage}
    {E : Log → Prop} {Q : Log → Unit → Prop} {L : Log} (hE : E L) (h : Q L ()) :
    Keeps env d₀ i op E (SavedSearchAlertService.attempt failures searchId stage) Q L := by
  unfold SavedSearchAlertService.attempt
  split
  · exact hE
  · exact h

/-- At its end the log has grown, also where it fails. -/
theorem sweepSearch_keeps {failures : List SweepFailure} {search : SavedSearch} {L : Log}
    (hloaded : Loaded d₀ i search L) :
    Keeps env d₀ i op (L <+: ·) (SavedSearchAlertService.sweepSearch env failures search)
      (fun L' _ => L <+: L') L := by
  unfold SavedSearchAlertService.sweepSearch
  rw [Keeps, along_bind]
  refine keeps_query (fun L' hr => hr.onto) fun L₁ ws sweepStart hr₁ hf => ?_
  cases hf
  refine .inr ⟨_, rfl, rfl, ?_⟩
  have hstarted : PublishedAt (L₁ ++ [⟨i, false, [.trace (.started search.id (d₀.at L₁).now)]⟩])
    L₁ i (.trace (.started search.id (d₀.at L₁).now)) := ⟨[], rfl⟩
  have hl₁ : L <+: L₁ ++ [⟨i, false, [.trace (.started search.id (d₀.at L₁).now)]⟩] :=
    hr₁.onto.trans (List.prefix_append _ _)
  generalize (d₀.at L₁).now = sweepStart at hstarted hl₁ ⊢
  generalize L₁ ++ [⟨i, false, [.trace (.started search.id sweepStart)]⟩] = L₂ at hstarted hl₁ ⊢
  rw [along_bind]
  refine attempt_keeps hl₁ ?_
  rw [along_bind]
  refine keeps_query (fun L' hr => hl₁.trans hr.onto) fun L₃ ws ids hr₃ hf => ?_
  have hl₃ : L <+: L₃ := hl₁.trans hr₃.onto
  cases hcount : SearchService.newMatches env search.criteria.toFilters search.lastNotifiedAt
      (d₀.at L₃) with
  | error e =>
    rw [hcount] at hf
    cases hf
  | ok counted =>
    rw [hcount] at hf
    simp only [Except.map, Except.ok.injEq, Prod.mk.injEq] at hf
    obtain ⟨rfl, rfl⟩ := hf
    have hcounting : Counting env d₀ i L₃ search sweepStart counted :=
      ⟨hloaded.mono hl₃, ⟨L₁, hstarted.mono hr₃.onto⟩, hcount⟩
    refine .inr ⟨_, rfl, ⟨search, sweepStart, rfl, hcounting⟩, ?_⟩
    have hcountedAt : PublishedAt (L₃ ++ [⟨i, false, [.trace (.counted search.id counted)]⟩]) L₃ i
      (.trace (.counted search.id counted)) := ⟨[], rfl⟩
    have hl₄ : L <+: L₃ ++ [⟨i, false, [.trace (.counted search.id counted)]⟩] :=
      hl₃.trans (List.prefix_append _ _)
    generalize L₃ ++ [⟨i, false, [.trace (.counted search.id counted)]⟩] = L₄ at hcountedAt hl₄ ⊢
    split
    · exact hl₄
    · next hne =>
      rw [along_bind]
      refine attempt_keeps hl₄ ?_
      rw [along_bind]
      refine keeps_query (fun L' hr => hl₄.trans hr.onto) fun L₅ ws claimed hr₅ hf => ?_
      have hl₅ : L <+: L₅ := hl₄.trans hr₅.onto
      split at hf
      · cases hf
        exact .inl ⟨rfl, hl₅⟩
      · next row hrow =>
        split at hf
        · next hsince =>
          cases hf
          have hclaiming : Claiming env d₀ i L₅ search.id sweepStart counted :=
            ⟨search, L₃, row, rfl, hcountedAt.mono hr₅.onto, hcounting,
              fun h => hne (by rw [h]; exact Nat.le_refl 0), hrow, hsince⟩
          have hl₆ : L <+: L₅ ++ [⟨i, false, [.claimAdvance search.id sweepStart counted]⟩] :=
            hl₅.trans (List.prefix_append _ _)
          refine .inr ⟨_, rfl, hclaiming, ?_⟩
          refine (along_bind _ _ _ _).2 (attempt_keeps hl₆ ((along_bind _ _ _ _).2 ?_))
          refine along_write (fun L' hr _ _ _ _ => hl₆.trans hr.onto) fun L₇ hr₇ _ => ?_
          refine ⟨⟨_, rfl, ?_⟩, (hl₆.trans hr₇.onto).trans (List.prefix_append _ _)⟩
          obtain ⟨gs, rfl, hgs⟩ := hr₇
          obtain ⟨A, ss, -, hs⟩ := hcounting.loaded
          exact ⟨search, L₅, gs, sweepStart, rfl, List.append_assoc _ _ _, hgs, hclaiming, ⟨A, hs⟩, rfl⟩
        · cases hf
          exact .inl ⟨rfl, hl₅⟩

/-! ## Sweeps -/

theorem sweepSearches_keeps {failures : List SweepFailure} {searches : List SavedSearch}
    {L : Log} (hloaded : ∀ search ∈ searches, Loaded d₀ i search L) :
    Keeps env d₀ i op (fun _ => True)
      (SavedSearchAlertService.sweepSearches env failures searches) (fun _ _ => True) L := by
  induction searches generalizing L with
  | nil => trivial
  | cons search rest ih =>
    unfold SavedSearchAlertService.sweepSearches
    rw [Keeps, along_bind]
    have hrest : ∀ L' (notified : Bool), L <+: L' → Keeps env d₀ i op (fun _ => True)
        (SavedSearchAlertService.sweepSearches env failures rest >>= fun notifiedCount =>
          pure ((if notified then 1 else 0) + notifiedCount)) (fun _ _ => True) L' := by
      intro L' notified hl
      rw [Keeps, along_bind]
      refine along_mono (fun _ _ _ => trivial) (ih fun search' hs => ?_)
      exact (hloaded search' (List.mem_cons_of_mem _ hs)).mono hl
    refine along_caught (h := fun _ => Prog.ret false) (fun L' _ hl => hrest L' false hl)
      (fun _ _ _ _ _ => trivial) ?_
    refine along_mono (fun L' notified hl => hrest L' notified hl) ?_
    exact sweepSearch_keeps (hloaded search List.mem_cons_self)

theorem runAlertSweep_keeps (failures : List SweepFailure) (L : Log) :
    Keeps env d₀ i op (fun _ => True) (SavedSearchAlertService.runAlertSweep env failures)
      (fun _ _ => True) L := by
  unfold SavedSearchAlertService.runAlertSweep
  rw [Keeps, along_bind]
  refine keeps_query (fun _ _ => trivial) fun L₁ ws searches _ hf => ?_
  cases hf
  refine .inr ⟨_, rfl, rfl, sweepSearches_keeps fun search hs => ?_⟩
  exact ⟨L₁, _, ⟨[], rfl⟩, hs⟩

end

/-! ## Runs -/

section

variable {config : Config} {env : Environment} {d₀ : Db}

theorem addEntry_editsOnly {op : Op} (config : Config) (uuid callerId : Id)
    (dto : AddShortlistEntryDto) :
    EditsOnly op (ShortlistService.addEntry config uuid callerId dto) := by
  unfold ShortlistService.addEntry ProfileRepository.findById assertActiveSubscription
  refine Plain.bind ?_ fun companyId => (editsOnly_select _).bind fun profile? => ?_
  · refine Plain.zoom (ConversationService.assertActiveSubscription_plain config callerId fun _ => trivial) ?_ ?_
    · rintro _ rfl
      exact edits_nil
    · exact fun _ h => h.elim
  · cases profile? with
    | none => exact plain_throw trivial
    | some profile =>
      dsimp only
      split
      · exact plain_throw trivial
      · refine (editsOnly_select _).bind fun existing? => ?_
        cases existing? with
        | some existing => exact plain_throw trivial
        | none =>
          refine Plain.bind (editsOnly_insertUnique ?_) fun entry =>
            Plain.bind (editsOnly_write ?_) fun _ => plain_ret _
          · exact fun _ _ _ _ _ => trivial
          · exact fun _ _ _ _ => trivial

/-- Each operation but a sweep is one of edits. -/
theorem program_editsOnly (config : Config) (env : Environment) (i : Nat) {op : Op}
    (hop : ∀ failures, op ≠ .runAlertSweep failures) :
    EditsOnly op (program config env i op) := by
  cases op with
  | clock us =>
    refine Plain.bind (editsOnly_write ?_) fun _ => plain_ret _
    exact fun _ _ _ _ => trivial
  | updateProfile profileId data =>
    exact (updateProfile_editsOnly profileId data).bind fun _ => plain_ret _
  | calculateCompleteness profileId =>
    exact (calculateCompleteness_editsOnly profileId).bind fun _ => plain_ret _
  | applyThresholds candidateId =>
    exact (applyThresholds_editsOnly candidateId).bind fun _ => plain_ret _
  | setModeration profileId status moderatorUserId =>
    exact (setModeration_editsOnly profileId status moderatorUserId).bind fun _ => plain_ret _
  | approve id adminUserId note =>
    refine Plain.bind ?_ fun _ => plain_ret _
    refine (claimPendingDecision_editsOnly id adminUserId note .verified).bind fun v =>
      Plain.bind (editsOnly_write ?_) fun _ => plain_ret _
    exact fun _ _ _ _ => ⟨id, adminUserId, note, rfl⟩
  | reject id adminUserId note =>
    exact (claimPendingDecision_editsOnly id adminUserId note .rejected).bind fun _ => plain_ret _
  | addSkill userId dto => exact (addSkill_editsOnly i userId dto).bind fun _ => plain_ret _
  | removeSkill userId profileSkillId =>
    exact (removeSkill_editsOnly i userId profileSkillId).bind fun _ => plain_ret _
  | processResult assessmentId graded =>
    exact (processResult_editsOnly i assessmentId graded).bind fun _ => plain_ret _
  | addEntry callerId dto =>
    exact (addEntry_editsOnly config i callerId dto).bind fun _ => plain_ret _
  | runAlertSweep failures => exact absurd rfl (hop failures)

/-- Each operation keeps to the conduct. -/
theorem program_keeps (config : Config) (env : Environment) (d₀ : Db) (i : Nat) (op : Op)
    (L : Log) : (conduct env d₀).holds (system config env) d₀ i op L (program config env i op) := by
  by_cases hsweep : ∃ failures, op = .runAlertSweep failures
  · obtain ⟨failures, rfl⟩ := hsweep
    show Keeps env d₀ i _ _ (_ >>= _) _ L
    rw [Keeps, along_bind]
    exact along_mono (fun _ _ _ => trivial) (runAlertSweep_keeps failures L)
  · exact (program_editsOnly config env i fun failures h => hsweep ⟨failures, h⟩).keeps L

variable {ok : RunState → Label Error Op → Prop}

/-- In every run. -/
theorem history (config : Config) (env : Environment) (d₀ : Db)
    (ok : RunState → Label Error Op → Prop) :
    History (system config env) ok (conduct env d₀) d₀ where
  refl i _ L := Others.refl i L
  trans _ _ _ _ _ h h' := h.trans h'
  inv _ _ := trivial
  others := by
    intro s i op j op' ws _ _ _ _ _ hji _ _ _ _
    exact ⟨[⟨i, false, ws⟩], rfl, by simpa using hji.symm⟩
  settled _ _ _ _ _ _ _ := ⟨fun _ h => h, fun _ h => h⟩
  fault _ _ _ _ := trivial
  prog _ _ _ := program_keeps config env d₀ _ _ _

theorem kept {s : RunState} (h : (system config env).Within ok d₀ s) :
    Kept (system config env) (conduct env d₀) d₀ s := (history config env d₀ ok).good trivial h

end

end JobBoard.Cvtheque
