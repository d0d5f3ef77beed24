import Mathlib.Algebra.Order.Group.Unbundled.Int
import JobBoard.Assessments.Effects

/-!
# The retake rule

A candidate has at most one active attempt at a test, and two completed ones lie
the cooldown apart. `checkEligibility` sees to it when an attempt is started, but an
attempt under INCIDENT counts for nothing there: once another one is started it can
still be resumed (`two_attempts_in_progress`) or completed by a webhook.
`retake_rule` says that the rule holds in the runs in which a resumption and a
webhook would pass the same check.
-/

set_option autoImplicit false

namespace JobBoard.Assessments

open Txn Prog

/-- The rule, over all attempts. -/
structure Db.RetakeRule (d : Db) : Prop where
  oneActive : ∀ x ∈ d.assessments.rows, ∀ y ∈ d.assessments.rows, x.candidateId = y.candidateId →
    x.testId = y.testId → x.status.isActive = true → y.status.isActive = true → x = y
  apart : ∀ x ∈ d.assessments.rows, ∀ y ∈ d.assessments.rows, x.candidateId = y.candidateId →
    x.testId = y.testId → x.status = .completed → y.status = .completed → x ≠ y →
    ∃ s t, x.completedAt = some s ∧ y.completedAt = some t ∧
      d.settings.cooldownDays * msPerDay ≤ |s - t|

/-! ## The condition -/

/-- A resumption that will be let through, and a webhook that will complete an
attempt that is not active, pass the check that starting an attempt makes. -/
def keepsRetake (d : Db) : Op → Bool
  | .resumeAssessment candidateId assessmentId resumeToken =>
    (d.own candidateId assessmentId .incident).all fun a =>
      a.resumeToken ≠ some resumeToken || d.eligible a.candidateId a.testId
  | .processWebhook verification fetched => fetched.isNone ||
      (d.designated verification).all fun a =>
        (d.scoreOf a.id).isSome || a.status.isActive || d.eligible a.candidateId a.testId
  | _ => true

def retakeRuns : Runs Db Write Op :=
  ⟨fun d op => op.isAttempt && keepsRetake d op, fun _ _ _ => true, false⟩

/-! ## Eligibility -/

theorem lastCompleted_none {l : List Assessment} (h : lastCompleted l = none) : l = [] := by
  cases l with
  | nil => rfl
  | cons r rs =>
    simp only [lastCompleted] at h
    split at h
    · cases h
    · split at h <;> cases h

theorem lastCompleted_mem {l : List Assessment} {r : Assessment} (h : lastCompleted l = some r) :
    r ∈ l := by
  induction l generalizing r with
  | nil => cases h
  | cons y ys ih =>
    simp only [lastCompleted] at h
    split at h
    · cases h
      exact List.mem_cons_self
    · next z hz =>
      split at h
      · cases h
        exact List.mem_cons_self
      · cases h
        exact List.mem_cons_of_mem _ (ih hz)

/-- The row that comes first in `completedAt DESC` is the latest, when it has a date. -/
theorem lastCompleted_latest {l : List Assessment} {r : Assessment} {t : Time}
    (h : lastCompleted l = some r) (ht : r.completedAt = some t) :
    ∀ x ∈ l, ∃ s, x.completedAt = some s ∧ s ≤ t := by
  induction l generalizing r t with
  | nil => simp
  | cons y ys ih =>
    simp only [lastCompleted] at h
    cases hl : lastCompleted ys with
    | none =>
      rw [hl] at h
      cases h
      rw [lastCompleted_none hl]
      simpa using ⟨t, ht, Int.le_refl t⟩
    | some z =>
      simp only [hl] at h
      intro x hx
      split at h
      · next hlt =>
        cases h
        rw [ht] at hlt
        cases hz : z.completedAt with
        | none => simp [hz, completedEarlier] at hlt
        | some u =>
          simp only [hz, completedEarlier, decide_eq_true_eq] at hlt
          rcases List.mem_cons.1 hx with rfl | hx
          · exact ⟨t, ht, Int.le_refl t⟩
          · obtain ⟨s, hs, hle⟩ := ih hl hz x hx
            exact ⟨s, hs, Int.le_of_lt (Int.lt_of_le_of_lt hle hlt)⟩
      · next hlt =>
        cases h
        rcases List.mem_cons.1 hx with rfl | hx
        · rw [ht] at hlt
          cases hx' : x.completedAt with
          | none => simp [hx', completedEarlier] at hlt
          | some s =>
            simp only [hx', completedEarlier, decide_eq_true_eq] at hlt
            exact ⟨s, rfl, Int.not_lt.1 hlt⟩
        · exact ih hl ht x hx

/-- The cooldown after the completion of `x` is over. -/
def Db.CooledDown (d : Db) (x : Assessment) : Prop :=
  ∃ t, x.completedAt = some t ∧ computeCooldownEnd t d.settings.cooldownDays ≤ d.now

theorem eligible_pair {d : Db} {candidateId testId : Id}
    (h : d.eligible candidateId testId = true)
    (hdates : ∀ x ∈ d.assessments.rows, x.status = .completed → x.completedAt.isSome = true) :
    ∀ x ∈ d.assessments.rows, x.candidateId = candidateId → x.testId = testId →
      x.status.isActive = false ∧ (x.status = .completed → d.CooledDown x) := by
  simp only [Db.eligible, Bool.and_eq_true, List.all_eq_true] at h
  obtain ⟨hactive, hlast⟩ := h
  intro x hx hc ht
  refine ⟨by simpa [hc, ht] using hactive x hx, fun hst => ?_⟩
  have hmem : x ∈ d.assessments.rows.filter fun a =>
      a.candidateId = candidateId && a.testId = testId && a.status = .completed := by
    simp [hx, hc, ht, hst]
  generalize hl : (d.assessments.rows.filter fun a =>
      a.candidateId = candidateId && a.testId = testId && a.status = .completed) = l at hlast hmem
  cases hr : lastCompleted l with
  | none =>
    rw [lastCompleted_none hr] at hmem
    cases hmem
  | some r =>
    have hrl : r ∈ l := lastCompleted_mem hr
    rw [← hl] at hrl
    simp only [List.mem_filter, Bool.and_eq_true, decide_eq_true_eq] at hrl
    obtain ⟨t, ht⟩ := Option.isSome_iff_exists.1 (hdates r hrl.1 hrl.2.2)
    obtain ⟨s, hs, hle⟩ := lastCompleted_latest hr ht x hmem
    simp only [hr, Option.bind_some, ht, decide_eq_true_eq] at hlast
    refine ⟨s, hs, ?_⟩
    simp only [computeCooldownEnd, addDays] at hlast ⊢
    exact Int.le_trans (Int.add_le_add_right hle _) hlast

/-! ## The invariant -/

/-- What the runs keep of the attempts of one candidate at one test: while one is
active, the cooldown of those completed is over. -/
structure Db.Retake (d : Db) : Prop where
  oneActive : ∀ x ∈ d.assessments.rows, ∀ y ∈ d.assessments.rows, x.candidateId = y.candidateId →
    x.testId = y.testId → x.status.isActive = true → y.status.isActive = true → x.id = y.id
  apart : ∀ x ∈ d.assessments.rows, ∀ y ∈ d.assessments.rows, x.candidateId = y.candidateId →
    x.testId = y.testId → x.status = .completed → y.status = .completed → x.id ≠ y.id →
    ∃ s t, x.completedAt = some s ∧ y.completedAt = some t ∧
      d.settings.cooldownDays * msPerDay ≤ |s - t|
  cooled : ∀ x ∈ d.assessments.rows, ∀ y ∈ d.assessments.rows, x.candidateId = y.candidateId →
    x.testId = y.testId → x.status = .completed → y.status.isActive = true → d.CooledDown x
  dated : ∀ x ∈ d.assessments.rows, x.status = .completed → x.completedAt.isSome = true
  scored : ∀ x ∈ d.assessments.rows, x.status = .completed → (d.scoreOf x.id).isSome = true

/-- The pair of `a` is free: no other attempt is active, and the cooldown is over. -/
def Db.Free (d : Db) (a : Assessment) : Prop :=
  ∀ x ∈ d.assessments.rows, x.candidateId = a.candidateId → x.testId = a.testId → x.id ≠ a.id →
    x.status.isActive = false ∧ (x.status = .completed → d.CooledDown x)

section

variable {d d' : Db}

theorem Db.Retake.rule (h : d.Retake) : d.RetakeRule where
  oneActive := fun x hx y hy hc ht hxa hya =>
    Table.eq_of_key hx hy (h.oneActive x hx y hy hc ht hxa hya)
  apart := fun x hx y hy hc ht hxs hys hne =>
    h.apart x hx y hy hc ht hxs hys fun hid =>
      hne (Table.eq_of_key hx hy hid)

/-- The pair of an active attempt is free. -/
theorem Db.Retake.free_of_active (h : d.Retake) {a : Assessment} (ha : a ∈ d.assessments.rows)
    (hactive : a.status.isActive = true) : d.Free a := by
  intro x hx hc ht hid
  refine ⟨?_, fun hxs => h.cooled x hx a ha hc ht hxs hactive⟩
  by_contra hne
  exact hid (h.oneActive x hx a ha hc ht (by simpa using hne) hactive)

theorem Db.Retake.free_of_eligible (h : d.Retake) {a : Assessment}
    (he : d.eligible a.candidateId a.testId = true) : d.Free a :=
  fun x hx hc ht _ => eligible_pair he h.dated x hx hc ht

/-- Time passes, scores are added. -/
theorem Db.Retake.later (h : d.Retake) (hrows : d'.assessments = d.assessments)
    (hset : d'.settings = d.settings) (hnow : d.now ≤ d'.now)
    (hscores : ∀ id, (d.scoreOf id).isSome = true → (d'.scoreOf id).isSome = true) : d'.Retake where
  oneActive := by rw [hrows]; exact h.oneActive
  apart := by rw [hrows, hset]; exact h.apart
  cooled := by
    rw [hrows]
    intro x hx y hy hc ht hxs hya
    obtain ⟨t, hcx, hle⟩ := h.cooled x hx y hy hc ht hxs hya
    exact ⟨t, hcx, by rw [hset]; exact Int.le_trans hle hnow⟩
  dated := by rw [hrows]; exact h.dated
  scored := by
    rw [hrows]
    exact fun x hx hxs => hscores _ (h.scored x hx hxs)

/-- A row is saved. -/
structure Saved (a e : Assessment) (d d' : Db) : Prop where
  loaded : a ∈ d.assessments.rows
  rows : ∀ x ∈ d'.assessments.rows, x = e ∨ (x ∈ d.assessments.rows ∧ x.id ≠ a.id)
  pair : e.id = a.id ∧ e.candidateId = a.candidateId ∧ e.testId = a.testId
  now : d'.now = d.now
  settings : d'.settings = d.settings
  scores : d'.scores = d.scores

theorem saved_of_save {a e : Assessment} (ha : d.assessment? a.id = some a) (hid : e.id = a.id)
    (he : e.overwrite a a = e) : Saved a e d (store.apply d (.saveAssessment e a)) where
  loaded := Table.mem_of_get? ha
  rows := by
    intro x hx
    simp only [store, Write.apply, Table.modify, Table.modifyWhere, List.mem_map] at hx
    obtain ⟨y, hy, rfl⟩ := hx
    split
    · next hk =>
      have hk : y.id = a.id := by simpa [hid] using hk
      have hya : y = a := by
        have := Table.get?_of_mem hy
        rw [hk] at this
        exact (Option.some.inj (ha.symm.trans this)).symm
      exact .inl (by rw [hya, he])
    · next hk => exact .inr ⟨hy, by simpa [hid] using hk⟩
  pair := by
    refine ⟨hid, ?_⟩
    rw [← he]
    exact ⟨rfl, rfl⟩
  now := rfl
  settings := rfl
  scores := rfl

theorem Saved.other {a e x : Assessment} (h : Saved a e d d') (hx : x ∈ d'.assessments.rows)
    (hid : x.id ≠ a.id) : x ∈ d.assessments.rows := by
  rcases h.rows x hx with rfl | ⟨hx, -⟩
  · exact absurd h.pair.1 hid
  · exact hx

theorem Saved.self {a e x : Assessment} (h : Saved a e d d') (hx : x ∈ d'.assessments.rows)
    (hid : x.id = a.id) : x = e := by
  rcases h.rows x hx with rfl | ⟨-, hne⟩
  · rfl
  · exact absurd hid hne

theorem Saved.cooledDown {a e x : Assessment} (h : Saved a e d d') (hx : d.CooledDown x) :
    d'.CooledDown x := by
  unfold Db.CooledDown at hx ⊢
  rw [h.now, h.settings]
  exact hx

theorem Saved.scoreOf {a e : Assessment} (h : Saved a e d d') (id : Id) :
    d'.scoreOf id = d.scoreOf id := by
  unfold Db.scoreOf
  rw [h.scores]

/-- An attempt that stays open is active only if its pair is free. -/
theorem Db.Retake.save {a e : Assessment} (h : d.Retake) (hs : Saved a e d d')
    (hfree : e.status.isActive = true → d.Free a) (hopen : e.status ≠ .completed) : d'.Retake := by
  have old : ∀ x ∈ d'.assessments.rows, x.status = .completed →
      x ∈ d.assessments.rows ∧ x.id ≠ a.id := by
    intro x hx hxs
    rcases hs.rows x hx with rfl | hx
    · exact absurd hxs hopen
    · exact hx
  obtain ⟨heid, hec, het⟩ := hs.pair
  constructor
  · intro x hx y hy hc ht hxa hya
    by_cases hxid : x.id = a.id <;> by_cases hyid : y.id = a.id
    · rw [hxid, hyid]
    · obtain rfl := hs.self hx hxid
      have := (hfree hxa y (hs.other hy hyid) (hc.symm.trans hec) (ht.symm.trans het) hyid).1
      rw [this] at hya
      cases hya
    · obtain rfl := hs.self hy hyid
      have := (hfree hya x (hs.other hx hxid) (hc.trans hec) (ht.trans het) hxid).1
      rw [this] at hxa
      cases hxa
    · exact h.oneActive x (hs.other hx hxid) y (hs.other hy hyid) hc ht hxa hya
  · intro x hx y hy hc ht hxs hys hid
    rw [hs.settings]
    exact h.apart x (old x hx hxs).1 y (old y hy hys).1 hc ht hxs hys hid
  · intro x hx y hy hc ht hxs hya
    obtain ⟨hxold, hxid⟩ := old x hx hxs
    refine hs.cooledDown ?_
    by_cases hyid : y.id = a.id
    · obtain rfl := hs.self hy hyid
      exact (hfree hya x hxold (hc.trans hec) (ht.trans het) hxid).2 hxs
    · exact h.cooled x hxold y (hs.other hy hyid) hc ht hxs hya
  · exact fun x hx hxs => h.dated x (old x hx hxs).1 hxs
  · intro x hx hxs
    rw [hs.scoreOf]
    exact h.scored x (old x hx hxs).1 hxs

/-- The cooldown after an earlier completion is over when another one is made. -/
theorem CooledDown.apart {x : Assessment} (h : d.CooledDown x) :
    ∃ s, x.completedAt = some s ∧ d.settings.cooldownDays * msPerDay ≤ |s - d.now| ∧
      d.settings.cooldownDays * msPerDay ≤ |d.now - s| := by
  obtain ⟨s, hs, hle⟩ := h
  simp only [computeCooldownEnd, addDays] at hle
  have hle : d.settings.cooldownDays * msPerDay ≤ d.now - s := Int.le_sub_left_of_add_le hle
  refine ⟨s, hs, ?_, Int.le_trans hle (le_abs_self _)⟩
  rw [abs_sub_comm]
  exact Int.le_trans hle (le_abs_self _)

theorem Db.Retake.complete {a e : Assessment} (h : d.Retake) (hs : Saved a e d d')
    (hfree : d.Free a) (hst : e.status = .completed) (hnow : e.completedAt = some d.now)
    (hscored : (d.scoreOf a.id).isSome = true) : d'.Retake := by
  obtain ⟨heid, hec, het⟩ := hs.pair
  have hinactive : e.status.isActive = false := by
    rw [hst]
    rfl
  have old : ∀ x ∈ d'.assessments.rows, x.status.isActive = true →
      x ∈ d.assessments.rows ∧ x.id ≠ a.id := by
    intro x hx hxa
    rcases hs.rows x hx with rfl | hx
    · rw [hinactive] at hxa
      cases hxa
    · exact hx
  constructor
  · intro x hx y hy hc ht hxa hya
    exact h.oneActive x (old x hx hxa).1 y (old y hy hya).1 hc ht hxa hya
  · intro x hx y hy hc ht hxs hys hid
    rw [hs.settings]
    by_cases hxid : x.id = a.id <;> by_cases hyid : y.id = a.id
    · exact absurd (hxid.trans hyid.symm) hid
    · obtain rfl := hs.self hx hxid
      obtain ⟨-, hcool⟩ := hfree y (hs.other hy hyid) (hc.symm.trans hec) (ht.symm.trans het) hyid
      obtain ⟨t, ht, -, hle⟩ := CooledDown.apart (hcool hys)
      exact ⟨d.now, t, hnow, ht, hle⟩
    · obtain rfl := hs.self hy hyid
      obtain ⟨-, hcool⟩ := hfree x (hs.other hx hxid) (hc.trans hec) (ht.trans het) hxid
      obtain ⟨t, ht, hle, -⟩ := CooledDown.apart (hcool hxs)
      exact ⟨t, d.now, ht, hnow, hle⟩
    · exact h.apart x (hs.other hx hxid) y (hs.other hy hyid) hc ht hxs hys hid
  · intro x hx y hy hc ht hxs hya
    -- the pair of the completed attempt has no active one
    obtain ⟨hyold, hyid⟩ := old y hy hya
    refine hs.cooledDown ?_
    by_cases hxid : x.id = a.id
    · obtain rfl := hs.self hx hxid
      have := (hfree y hyold (hc.symm.trans hec) (ht.symm.trans het) hyid).1
      rw [this] at hya
      cases hya
    · exact h.cooled x (hs.other hx hxid) y hyold hc ht hxs hya
  · intro x hx hxs
    by_cases hxid : x.id = a.id
    · obtain rfl := hs.self hx hxid
      simp [hnow]
    · exact h.dated x (hs.other hx hxid) hxs
  · intro x hx hxs
    rw [hs.scoreOf]
    by_cases hxid : x.id = a.id
    · rw [hxid]
      exact hscored
    · exact h.scored x (hs.other hx hxid) hxs

/-- A new attempt of a pair that is free. -/
theorem Db.Retake.start {a : Assessment} (h : d.Retake) (hnew : d.assessment? a.id = none)
    (hok : d.eligible a.candidateId a.testId = true) (hopen : a.status ≠ .completed) :
    (store.apply d (.insertAssessment a)).Retake := by
  have hpair := eligible_pair hok h.dated
  have hrows : (store.apply d (.insertAssessment a)).assessments.rows = d.assessments.rows ++ [a] :=
    Table.insert_rows hnew
  have old : ∀ {x}, x ∈ (store.apply d (.insertAssessment a)).assessments.rows →
      x ∈ d.assessments.rows ∨ x = a := by
    intro x hx
    rw [hrows] at hx
    simpa using hx
  constructor
  · intro x hx y hy hc ht hxa hya
    rcases old hx with hxo | rfl <;> rcases old hy with hyo | rfl
    · exact h.oneActive x hxo y hyo hc ht hxa hya
    · rw [(hpair x hxo hc ht).1] at hxa
      cases hxa
    · rw [(hpair y hyo hc.symm ht.symm).1] at hya
      cases hya
    · rfl
  · intro x hx y hy hc ht hxs hys hid
    rcases old hx with hxo | rfl <;> rcases old hy with hyo | rfl
    · exact h.apart x hxo y hyo hc ht hxs hys hid
    · exact absurd hys hopen
    · exact absurd hxs hopen
    · exact absurd rfl hid
  · intro x hx y hy hc ht hxs hya
    rcases old hx with hxo | rfl
    · rcases old hy with hyo | rfl
      · exact h.cooled x hxo y hyo hc ht hxs hya
      · exact (hpair x hxo hc ht).2 hxs
    · exact absurd hxs hopen
  · intro x hx hxs
    rcases old hx with hx | rfl
    · exact h.dated x hx hxs
    · exact absurd hxs hopen
  · intro x hx hxs
    rcases old hx with hx | rfl
    · exact h.scored x hx hxs
    · exact absurd hxs hopen

end

/-! ## Runs -/

/-- Every effect that the runs admit keeps the invariant. -/
theorem retake_step {env : Environment} {i : Id} {d₀ d : Db} {op : Op} {ws : List Write}
    (h₀ : d₀.Retake) (hop : retakeRuns.ops d₀ op = true) (h : d.Retake)
    (heff : Effect env i d₀ op d ws) : (store.applyAll d ws).Retake := by
  -- an attempt saved on the row that was loaded
  have save : ∀ {candidateId id : Id} {st : AssessmentStatus} {a e : Assessment},
      d₀.own candidateId id st = some a → e.id = a.id → e.overwrite a a = e →
      Saved a e d₀ (store.apply d₀ (.saveAssessment e a)) :=
    fun ha hid he => saved_of_save (own_eq ha).1 hid he
  simp only [retakeRuns, Bool.and_eq_true] at hop
  obtain ⟨-, hkeeps⟩ := hop
  cases heff with
  | quiet hq =>
    rename_i w
    have hsame := (SameAttempts.refl d).quiet hq
    refine h.later hsame.assessments hsame.settings (Int.le_of_eq hsame.now.symm) fun id hid => ?_
    have : (store.apply d w).scores = d.scores := by
      cases w <;> first | exact hq.elim | rfl
    simp only [Store.applyAll_cons, Store.applyAll_nil, Db.scoreOf, this]
    exact hid
  | tick =>
    rename_i ms
    refine h.later rfl rfl ?_ fun _ hid => hid
    exact Int.le_add_of_nonneg_right (Int.natCast_nonneg ms)
  | start htest hok hnew => exact h.start hnew hok (by simp [AssessmentService.newAssessment])
  | resume ha htoken =>
    rename_i candidateId id token a
    obtain ⟨hload, hid, hcand, hst⟩ := own_eq ha
    refine h.save (save ha rfl (Assessment.overwrite_loaded ..)) (fun _ => ?_)
      (by simp)
    simp only [keepsRetake, ha, Option.all_some, htoken, Bool.or_eq_true] at hkeeps
    exact h.free_of_eligible (by simpa using hkeeps)
  | incident ha =>
    refine h.save (save ha rfl (Assessment.overwrite_loaded ..)) ?_ (by simp)
    exact fun hact => by cases hact
  | record ha =>
    rename_i candidateId id events a
    obtain ⟨hload, hid, hcand, hst⟩ := own_eq ha
    refine h.save (save ha rfl ?_) (fun _ => ?_) ?_
    · exact Assessment.overwrite_loaded ..
    · exact h.free_of_active (Table.mem_of_get? hload) (by rw [hst]; rfl)
    · simp only [AssessmentService.recorded]
      split
      · simp
      · simp [hst]
  | late ha hlate =>
    refine h.save (save ha rfl (Assessment.overwrite_loaded ..)) ?_ (by simp)
    exact fun hact => by cases hact
  | score ha hnone hid hs => exact h.later rfl rfl (Int.le_refl _) fun id => scoreOf_insert_isSome
  | complete hd ha hnone hsome =>
    rename_i a
    have hload := target_load ha
    have hfree : d₀.Free a := by
      by_cases hact : a.status.isActive = true
      · exact h₀.free_of_active (Table.mem_of_get? hload) hact
      · cases op <;> simp only [target, Option.bind_eq_some_iff, Option.filter_eq_some_iff,
          reduceCtorEq] at ha
        case processWebhook verification fetched =>
          obtain ⟨result, rfl, ha⟩ := ha
          simp only [keepsRetake, ha, Option.all_some, hnone, Option.isNone_some,
            Option.isSome_none, Bool.false_or, Bool.or_eq_true] at hkeeps
          exact h₀.free_of_eligible (hkeeps.resolve_left hact)
        case submitExam => exact absurd (by rw [(own_eq ha.1).2.2.2]; rfl) hact
        case simulateCompletion =>
          obtain ⟨_, -, ha⟩ := ha
          exact absurd (by rw [(own_eq ha).2.2.2]; rfl) hact
    have hload' : d.assessment? a.id = some a := by
      rw [hd.assessment?]
      exact hload
    have hfree' : d.Free a := by
      unfold Db.Free Db.CooledDown
      rw [hd.assessments, hd.settings, hd.now]
      exact hfree
    refine h.complete (saved_of_save hload' rfl ?_) hfree' rfl (by rw [hd.now]; rfl) hsome
    exact Assessment.overwrite_loaded ..

end JobBoard.Assessments
