import Mathlib.Tactic.Linarith
import JobBoard.Lib.Grouping
import JobBoard.Model.Rounding
import JobBoard.Lib.Solo
import JobBoard.Assessments.Profiles

/-!
# Percentiles

A run of `PercentileRecalcService.recalculate` gives each active score the share of its cohort that
it outranks, and changes nothing else; a second run at the same instant writes nothing
(`recalculate_sound`).
-/

set_option autoImplicit false

namespace JobBoard.Assessments

open Txn Prog

namespace PercentileRecalcService

/-! ## The share of a cohort -/

/-- `Math.round((n + Number.EPSILON) * 100) / 100`. -/
def round2 (n : Rat) : Rat := (round ((n + 1 / 2 ^ 52) * 100) : Int) / 100

/-- The percentile of `value` among `values`. -/
def percentile (values : List Int) (value : Int) : Rat :=
  round2 ((values.countP (· < value) : Rat) / values.length * 100)

section

variable {cohort cohort' : List Score} {value value' : Int}

theorem percentileIn_mem (cohort : List Score) (value : Int) :
    0 ≤ percentileIn cohort value ∧ percentileIn cohort value ≤ 10000 := by
  unfold percentileIn roundQuotient
  have hle := List.countP_le_length (p := fun s : Score => s.value < value) (l := cohort)
  split
  · exact ⟨le_rfl, by omega⟩
  · refine ⟨mathRound_nonneg (by omega) (by omega), ?_⟩
    rw [mathRound_le_iff (by omega)]
    omega

theorem percentileIn_mono (h : value ≤ value') :
    percentileIn cohort value ≤ percentileIn cohort value' := by
  have hle : cohort.countP (·.value < value) ≤ cohort.countP (·.value < value') := by
    refine List.countP_mono_left fun s _ hs => ?_
    simp only [decide_eq_true_eq] at hs ⊢
    omega
  unfold percentileIn roundQuotient
  split
  · exact le_rfl
  · exact mathRound_mono (by omega) (by omega)

/-- Nobody is below the lowest. -/
theorem percentileIn_lowest (h : ∀ s ∈ cohort, value ≤ s.value) : percentileIn cohort value = 0 := by
  have hnone : cohort.countP (·.value < value) = 0 := by
    rw [List.countP_eq_zero]
    intro s hs
    have := h s hs
    simp only [decide_eq_true_eq]
    omega
  unfold percentileIn roundQuotient
  rw [hnone]
  split
  · rfl
  · rw [mathRound_iff (by omega)]
    omega

/-- Only the values count, in any order. -/
theorem percentileIn_perm (h : (cohort.map (·.value)).Perm (cohort'.map (·.value))) :
    percentileIn cohort value = percentileIn cohort' value := by
  have hcount : cohort.countP (·.value < value) = cohort'.countP (·.value < value) := by
    have := h.countP_eq fun v => decide (v < value)
    rw [List.countP_map, List.countP_map] at this
    exact this
  have hlength : cohort.length = cohort'.length := by
    simpa only [List.length_map] using h.length_eq
  unfold percentileIn
  rw [hcount, hlength]

theorem percentileIn_eq (hne : cohort ≠ []) (value : Int) :
    (percentileIn cohort value : Rat) / 100 = percentile (cohort.map (·.value)) value := by
  have hpos : 0 < cohort.length := List.length_pos_of_ne_nil hne
  unfold percentileIn roundQuotient percentile round2
  rw [if_neg (by omega), mathRound_eq_round _ (by omega), List.countP_map, List.length_map]
  congr 3
  have hlen : (cohort.length : Rat) ≠ 0 := by exact_mod_cast hpos.ne'
  have hcount : cohort.countP ((fun v => decide (v < value)) ∘ fun s : Score => s.value) =
      cohort.countP (·.value < value) := rfl
  rw [hcount]
  push_cast
  field_simp
  ring

end

/-! ## The cohorts -/

/-- The test of the attempt that a score is about. -/
def testOf (db : Db) (s : Score) : Option Id := (db.assessment? s.assessmentId).map (·.testId)

/-- The active scores of a test. -/
def cohort (db : Db) (testId : Id) : List Score :=
  db.scores.rows.filter fun s => s.isValid db.now && testOf db s = some testId

section

variable {t : Id} {s : Score} {scores : List (Score × Option Id)}

/-- The scores of a test. -/
def bucket (scores : List (Score × Option Id)) (t : Id) : List Score :=
  (scores.filter (·.2 = some t)).map (·.1)

/-- The tests of the scores. -/
def tests (scores : List (Score × Option Id)) : List Id :=
  Grouping.firsts ((scores.map (·.2)).filterMap id)

theorem tests_nodup (scores : List (Score × Option Id)) : (tests scores).Nodup :=
  Grouping.firsts_nodup _

theorem mem_tests : t ∈ tests scores ↔ some t ∈ scores.map (·.2) := by
  unfold tests
  rw [Grouping.mem_firsts, List.mem_filterMap]
  simp

theorem place_map {f : Id → List Score} (t : Id) (s : Score) {ts : List Id} (h : ts.Nodup) :
    place (ts.map fun u => (u, f u)) t s =
      if t ∈ ts then ts.map fun u => (u, if t = u then f u ++ [s] else f u)
      else (ts.map fun u => (u, f u)) ++ [(t, [s])] := by
  induction ts with
  | nil => rfl
  | cons u ts ih =>
    obtain ⟨hu, hts⟩ := List.nodup_cons.1 h
    by_cases hut : u = t
    · subst hut
      have hrest : ts.map (fun v => (v, if u = v then f v ++ [s] else f v)) =
          ts.map fun v => (v, f v) := by
        refine List.map_congr_left fun v hmem => ?_
        rw [if_neg]
        rintro rfl
        exact hu hmem
      simp [place, hrest]
    · simp only [List.map_cons, place, if_neg hut, ih hts, List.mem_cons, Ne.symm hut, false_or]
      split
      · rfl
      · rfl

theorem groupByTest_snoc (scores : List (Score × Option Id)) (last : Score × Option Id) :
    groupByTest (scores ++ [last]) =
      match last.2 with
      | none => groupByTest scores
      | some testId => place (groupByTest scores) testId last.1 := by
  unfold groupByTest
  rw [List.foldl_append]
  rfl

theorem groupByTest_eq (scores : List (Score × Option Id)) :
    groupByTest scores = (tests scores).map fun t => (t, bucket scores t) := by
  induction scores using List.reverseRecOn with
  | nil => rfl
  | append_singleton scores last ih =>
    obtain ⟨s, test⟩ := last
    rw [groupByTest_snoc]
    cases test with
    | none =>
      have htests : tests (scores ++ [(s, none)]) = tests scores := by
        unfold tests
        simp
      have hbucket : ∀ t, bucket (scores ++ [(s, none)]) t = bucket scores t := fun t => by
        unfold bucket
        simp
      simp only [htests, hbucket, ih]
    | some testId =>
      have htests : tests (scores ++ [(s, some testId)]) =
          if testId ∈ tests scores then tests scores else tests scores ++ [testId] := by
        unfold tests
        rw [List.map_append, List.filterMap_append]
        exact Grouping.firsts_snoc _ _
      have hbucket : ∀ t, bucket (scores ++ [(s, some testId)]) t =
          if testId = t then bucket scores t ++ [s] else bucket scores t := fun t => by
        unfold bucket
        by_cases ht : testId = t
        · simp [ht]
        · simp [ht]
      dsimp only
      rw [ih, place_map testId s (tests_nodup scores), htests]
      split
      · simp only [hbucket]
      · next hnew =>
        have hempty : bucket scores testId = [] := by
          unfold bucket
          rw [List.map_eq_nil_iff, List.filter_eq_nil_iff]
          intro p hp hpt
          exact hnew (mem_tests.2 (List.mem_map.2 ⟨p, hp, of_decide_eq_true hpt⟩))
        rw [List.map_append, List.map_singleton, hbucket, if_pos rfl, hempty]
        congr 1
        refine List.map_congr_left fun u hu => ?_
        rw [hbucket, if_neg]
        rintro rfl
        exact hnew hu

theorem mem_bucket_active {db : Db} :
    bucket (activeScores db.now db) t = cohort db t := by
  unfold bucket activeScores cohort
  rw [List.filter_map, List.map_map, List.filter_filter]
  have hsame : (fun s : Score => decide ((s, testOf db s).2 = some t) && s.isValid db.now) =
      fun s => s.isValid db.now && testOf db s = some t := by
    funext s
    exact Bool.and_comm _ _
  exact (List.map_id _).trans (congrArg (List.filter · db.scores.rows) hsame)

theorem cohorts_eq (db : Db) :
    (groupByTest (activeScores db.now db)).map (·.2) =
      (tests (activeScores db.now db)).map (cohort db) := by
  rw [groupByTest_eq, List.map_map]
  exact List.map_congr_left fun t _ => mem_bucket_active

theorem mem_tests_active {db : Db} :
    t ∈ tests (activeScores db.now db) ↔ ∃ s ∈ db.scores.rows, s.isValid db.now ∧
      testOf db s = some t := by
  rw [mem_tests]
  unfold activeScores
  simp only [List.map_map, List.mem_map, List.mem_filter, Function.comp_apply, and_assoc]
  rfl

end

/-! ## The run -/

section

variable {db : Db} {time : Time}

/-- The scores of `scores` whose percentile in the cohort is another one, with that. -/
def updates (cohort scores : List Score) : List (Id × Int) :=
  scores.filterMap fun s =>
    if s.percentile = some (percentileIn cohort s.value) then none
    else some (s.id, percentileIn cohort s.value)

/-- All that a run updates. -/
def allUpdates (db : Db) : List (Id × Int) :=
  (tests (activeScores db.now db)).flatMap fun t => updates (cohort db t) (cohort db t)

/-- Statement by statement. -/
def groups (ups : List (Id × Int)) : List (List Write) :=
  ups.map fun up => [.updatePercentile up.1 up.2]

theorem updateScores_solo (cohort : List Score) (scores : List Score) (d : Db) :
    (updateScores cohort scores).solo store d =
      (groups (updates cohort scores), .ok (updates cohort scores).length) := by
  induction scores generalizing d with
  | nil => rfl
  | cons s scores ih =>
    unfold updateScores updates
    split
    · next h =>
      rw [ih, List.filterMap_cons_none (by rw [if_pos h])]
      rfl
    · next h =>
      rw [solo_bind, solo_write, andThen_ok, solo_bind, ih, andThen_ok,
        List.filterMap_cons_some (by rw [if_neg h])]
      simp [groups, updates]

theorem recalculateCohorts_solo (cohorts : List (List Score)) (d : Db) :
    (recalculateCohorts cohorts).solo store d =
      (groups (cohorts.flatMap fun c => updates c c),
        .ok (cohorts.flatMap fun c => updates c c).length) := by
  induction cohorts generalizing d with
  | nil => rfl
  | cons c cohorts ih =>
    unfold recalculateCohorts recalculateCohort
    rw [solo_bind, updateScores_solo, andThen_ok, solo_bind, ih, andThen_ok]
    simp [groups, List.flatMap_cons]

theorem recalculate_solo (db : Db) :
    recalculate.solo store db = (groups (allUpdates db),
      .ok ⟨(tests (activeScores db.now db)).length, (activeScores db.now db).length,
        (allUpdates db).length⟩) := by
  have hups : ((groupByTest (activeScores db.now db)).map (·.2)).flatMap (fun c => updates c c) =
      allUpdates db := by
    rw [cohorts_eq, List.flatMap_map]
    rfl
  unfold recalculate now
  rw [solo_bind, solo_select, andThen_nil, solo_bind, solo_select, andThen_nil]
  dsimp only
  rw [solo_bind, recalculateCohorts_solo, hups, andThen_ok, groupByTest_eq]
  simp

/-! ## What a run leaves -/

/-- A row after an update. -/
def applyUpdate (s : Score) (up : Id × Int) : Score :=
  if s.id = up.1 then { s with percentile := some up.2 } else s

def applyUpdates (ups : List (Id × Int)) (s : Score) : Score := ups.foldl applyUpdate s

theorem groups_scores (ups : List (Id × Int)) (d : Db) :
    (store.applyGroups d (groups ups)).scores.rows = d.scores.rows.map (applyUpdates ups) := by
  induction ups generalizing d with
  | nil => exact (List.map_id _).symm
  | cons up ups ih =>
    have hone : (store.apply d (.updatePercentile up.1 up.2)).scores.rows =
        d.scores.rows.map fun s => applyUpdate s up := by
      show d.scores.rows.map _ = _
      refine List.map_congr_left fun s _ => ?_
      simp only [applyUpdate, decide_eq_true_eq]
    show (store.applyGroups (store.apply d (.updatePercentile up.1 up.2)) (groups ups)).scores.rows =
      _
    rw [ih, hone, List.map_map]
    rfl

theorem groups_others (ups : List (Id × Int)) (d : Db) :
    { store.applyGroups d (groups ups) with scores := d.scores } = d := by
  induction ups generalizing d with
  | nil => rfl
  | cons up ups ih =>
    have hrest := ih (store.apply d (.updatePercentile up.1 up.2))
    exact congrArg (fun e : Db => { e with scores := d.scores }) hrest

theorem applyUpdate_id (s : Score) (up : Id × Int) : (applyUpdate s up).id = s.id := by
  unfold applyUpdate
  split
  · rfl
  · rfl

/-- Updates of one row that agree. -/
theorem applyUpdates_eq {ups : List (Id × Int)} {s : Score} {p : Int}
    (h : ∀ up ∈ ups, up.1 = s.id → up.2 = p) :
    applyUpdates ups s =
      if ∃ up ∈ ups, up.1 = s.id then { s with percentile := some p } else s := by
  induction ups generalizing s with
  | nil => simp [applyUpdates]
  | cons up ups ih =>
    have hid := applyUpdate_id s up
    have hrest := ih (s := applyUpdate s up) fun up' hup' hid' =>
      h up' (List.mem_cons_of_mem up hup') (hid'.trans hid)
    show applyUpdates ups (applyUpdate s up) = _
    rw [hrest, hid]
    by_cases hup : s.id = up.1
    · have hp := h up List.mem_cons_self hup.symm
      have hone : applyUpdate s up = { s with percentile := some p } := by
        rw [applyUpdate, if_pos hup, hp]
      have hany : ∃ up' ∈ up :: ups, up'.1 = s.id := ⟨up, List.mem_cons_self, hup.symm⟩
      rw [hone, if_pos hany, ite_self]
    · have hone : applyUpdate s up = s := if_neg hup
      have hiff : (∃ up' ∈ up :: ups, up'.1 = s.id) ↔ ∃ up' ∈ ups, up'.1 = s.id := by
        simp [Ne.symm hup]
      simp only [hone, hiff]

/-- A row with the share of its cohort. -/
def refresh (db : Db) (s : Score) : Score :=
  match testOf db s with
  | some testId =>
    if s.isValid db.now then { s with percentile := some (percentileIn (cohort db testId) s.value) }
    else s
  | none => s

theorem mem_allUpdates {up : Id × Int} :
    up ∈ allUpdates db ↔ ∃ s ∈ db.scores.rows, ∃ t, s.isValid db.now ∧ testOf db s = some t ∧
      s.percentile ≠ some (percentileIn (cohort db t) s.value) ∧
        up = (s.id, percentileIn (cohort db t) s.value) := by
  unfold allUpdates updates
  simp only [List.mem_flatMap, List.mem_filterMap]
  constructor
  · rintro ⟨t, -, s, hs, hup⟩
    have hcohort := hs
    unfold cohort at hcohort
    obtain ⟨hrow, hactive⟩ := List.mem_filter.1 hcohort
    rw [Bool.and_eq_true, decide_eq_true_iff] at hactive
    split at hup
    · cases hup
    · next hne =>
      cases hup
      exact ⟨s, hrow, t, hactive.1, hactive.2, hne, rfl⟩
  · rintro ⟨s, hrow, t, hvalid, htest, hne, rfl⟩
    refine ⟨t, mem_tests_active.2 ⟨s, hrow, hvalid, htest⟩, s, ?_, if_neg hne⟩
    exact List.mem_filter.2 ⟨hrow, by simp [hvalid, htest]⟩

/-- A score that is not in a cohort. -/
theorem applyUpdates_apart {s : Score} (hs : s ∈ db.scores.rows)
    (h : s.isValid db.now = false ∨ testOf db s = none) : applyUpdates (allUpdates db) s = s := by
  have hnone : ∀ up ∈ allUpdates db, up.1 ≠ s.id := by
    rintro up hup hid
    obtain ⟨s', hs', t, hvalid, htest, -, rfl⟩ := mem_allUpdates.1 hup
    have hsame : s' = s := Table.eq_of_key hs' hs hid
    subst hsame
    rcases h with h | h
    · rw [h] at hvalid
      cases hvalid
    · rw [h] at htest
      cases htest
  rw [applyUpdates_eq (p := 0) fun up hup hid => absurd hid (hnone up hup), if_neg]
  rintro ⟨up, hup, hid⟩
  exact hnone up hup hid

theorem applyUpdates_placed {s : Score} {t : Id} (hs : s ∈ db.scores.rows)
    (hvalid : s.isValid db.now = true) (htest : testOf db s = some t) :
    applyUpdates (allUpdates db) s =
      { s with percentile := some (percentileIn (cohort db t) s.value) } := by
  have hagree : ∀ up ∈ allUpdates db, up.1 = s.id → up.2 = percentileIn (cohort db t) s.value := by
    rintro up hup hid
    obtain ⟨s', hs', t', -, htest', -, rfl⟩ := mem_allUpdates.1 hup
    have hsame : s' = s := Table.eq_of_key hs' hs hid
    subst hsame
    cases htest.symm.trans htest'
    rfl
  rw [applyUpdates_eq hagree]
  split
  · rfl
  · next hnone =>
    have hright : s.percentile = some (percentileIn (cohort db t) s.value) := by
      by_contra hne
      exact hnone ⟨_, mem_allUpdates.2 ⟨s, hs, t, hvalid, htest, hne, rfl⟩, rfl⟩
    rw [← hright]

theorem applyUpdates_all {s : Score} (hs : s ∈ db.scores.rows) :
    applyUpdates (allUpdates db) s = refresh db s := by
  unfold refresh
  cases htest : testOf db s with
  | none => exact applyUpdates_apart hs (.inr htest)
  | some t =>
    dsimp only
    split
    · next hvalid => exact applyUpdates_placed hs hvalid htest
    · next hvalid => exact applyUpdates_apart hs (.inl (Bool.eq_false_iff.2 hvalid))

/-- The database after a run. -/
def recalculated (db : Db) : Db := store.applyGroups db (recalculate.solo store db).1

theorem recalculated_rows (db : Db) :
    (recalculated db).scores.rows = db.scores.rows.map (refresh db) := by
  unfold recalculated
  rw [recalculate_solo, groups_scores]
  exact List.map_congr_left fun s hs => applyUpdates_all hs

theorem recalculated_others (db : Db) : { recalculated db with scores := db.scores } = db := by
  unfold recalculated
  rw [recalculate_solo]
  exact groups_others _ _

theorem recalculated_now (db : Db) : (recalculated db).now = db.now := by
  have hnow : ({ recalculated db with scores := db.scores } : Db).now = db.now := by
    rw [recalculated_others]
  exact hnow

theorem testOf_recalculated (db : Db) : testOf (recalculated db) = testOf db := by
  have hrows : ({ recalculated db with scores := db.scores } : Db).assessments = db.assessments := by
    rw [recalculated_others]
  funext s
  unfold testOf Db.assessment?
  rw [← hrows]

/-- Only the percentile changes. -/
theorem refresh_eq (db : Db) (s : Score) :
    refresh db s = { s with percentile := (refresh db s).percentile } := by
  unfold refresh
  split
  · split
    · rfl
    · rfl
  · rfl

theorem cohort_recalculated (db : Db) (t : Id) :
    cohort (recalculated db) t = (cohort db t).map (refresh db) := by
  have hsame : ∀ s, ((refresh db s).isValid db.now && testOf db (refresh db s) = some t) =
      (s.isValid db.now && testOf db s = some t) := fun s => by
    rw [refresh_eq]
    rfl
  unfold cohort
  rw [recalculated_rows, recalculated_now, testOf_recalculated, List.filter_map]
  congr 1
  refine List.filter_congr fun s _ => ?_
  exact hsame s

theorem values_recalculated (db : Db) (t : Id) :
    (cohort (recalculated db) t).map (·.value) = (cohort db t).map (·.value) := by
  rw [cohort_recalculated, List.map_map]
  refine List.map_congr_left fun s _ => ?_
  show (refresh db s).value = s.value
  rw [refresh_eq]

/-- The percentile that a score of a cohort has after a run, by its value. -/
theorem percentile_recalculated {t : Id} {s : Score} (h : s ∈ cohort (recalculated db) t) :
    s.percentile = some (percentileIn (cohort (recalculated db) t) s.value) := by
  rw [percentileIn_perm (.of_eq (values_recalculated db t))]
  rw [cohort_recalculated] at h
  obtain ⟨r, hr, rfl⟩ := List.mem_map.1 h
  have hr' := (List.mem_filter.1 hr).2
  rw [Bool.and_eq_true, decide_eq_true_iff] at hr'
  obtain ⟨hvalid, htest⟩ := hr'
  unfold refresh
  rw [htest]
  dsimp only
  rw [if_pos hvalid]

theorem allUpdates_recalculated (db : Db) : allUpdates (recalculated db) = [] := by
  rw [List.eq_nil_iff_forall_not_mem]
  rintro up hup
  obtain ⟨s, hs, t, hvalid, htest, hne, -⟩ := mem_allUpdates.1 hup
  exact hne (percentile_recalculated (List.mem_filter.2 ⟨hs, by simp [hvalid, htest]⟩))

theorem activeScores_recalculated (db : Db) :
    activeScores db.now (recalculated db) =
      (activeScores db.now db).map fun s => (refresh db s.1, s.2) := by
  have hvalid : ∀ s, (refresh db s).isValid db.now = s.isValid db.now := fun s => by
    rw [refresh_eq]
    rfl
  have htest : ∀ s, testOf db (refresh db s) = testOf db s := fun s => by
    rw [refresh_eq]
    rfl
  have hpairs : ∀ e : Db, activeScores db.now e =
      (e.scores.rows.filter (·.isValid db.now)).map fun s => (s, testOf e s) := fun _ => rfl
  rw [hpairs, hpairs, recalculated_rows, testOf_recalculated, List.filter_map, List.map_map,
    List.map_map]
  have hfilter : (fun s : Score => s.isValid db.now) ∘ refresh db = (·.isValid db.now) :=
    funext hvalid
  rw [hfilter]
  refine List.map_congr_left fun s _ => ?_
  simp only [Function.comp_apply, htest]

theorem tests_recalculated (db : Db) :
    tests (activeScores db.now (recalculated db)) = tests (activeScores db.now db) := by
  unfold tests
  rw [activeScores_recalculated, List.map_map]
  rfl

end

/-! ## Any set of scores -/

/-- The percentiles of the active scores of `db`, cohort by cohort. -/
structure Ranked (db : Db) : Prop where
  share : ∀ t, ∀ s ∈ cohort db t, ∃ p, s.percentile = some p ∧ 0 ≤ p ∧ p ≤ 10000 ∧
    (p : Rat) / 100 = percentile ((cohort db t).map (·.value)) s.value
  monotone : ∀ t, ∀ s ∈ cohort db t, ∀ s' ∈ cohort db t, s.value ≤ s'.value →
    ∀ p p', s.percentile = some p → s'.percentile = some p' → p ≤ p'
  ties : ∀ t, ∀ s ∈ cohort db t, ∀ s' ∈ cohort db t, s.value = s'.value →
    s.percentile = s'.percentile
  lowest : ∀ t, ∀ s ∈ cohort db t, (∀ s' ∈ cohort db t, s.value ≤ s'.value) →
    s.percentile = some 0

/-- What a run leaves alone. -/
structure Untouched (db db' : Db) : Prop where
  apart : ∀ s ∈ db.scores.rows, s.isValid db.now = false ∨ testOf db s = none →
    s ∈ db'.scores.rows
  columns : ∃ f : Score → Option Int,
    db'.scores.rows = db.scores.rows.map fun s => { s with percentile := f s }
  others : { db' with scores := db.scores } = db

/-- A run and, at the same instant, another one. -/
def Idempotent (db : Db) : Prop :=
  ∃ r, (recalculate.solo store db).2 = .ok r ∧
    r.updatedCount = (recalculate.solo store db).1.length ∧
    recalculate.solo store (recalculated db) = ([], .ok { r with updatedCount := 0 })

theorem ranked (db : Db) : Ranked (recalculated db) where
  share t s hs := by
    obtain ⟨hlow, hhigh⟩ := percentileIn_mem (cohort (recalculated db) t) s.value
    exact ⟨_, percentile_recalculated hs, hlow, hhigh,
      percentileIn_eq (List.ne_nil_of_mem hs) s.value⟩
  monotone t s hs s' hs' hle p p' hp hp' := by
    rw [percentile_recalculated hs] at hp
    rw [percentile_recalculated hs'] at hp'
    cases hp
    cases hp'
    exact percentileIn_mono hle
  ties t s hs s' hs' h := by
    rw [percentile_recalculated hs, percentile_recalculated hs', h]
  lowest t s hs h := by
    rw [percentile_recalculated hs, percentileIn_lowest h]

theorem untouched (db : Db) : Untouched db (recalculated db) where
  apart s hs h := by
    rw [recalculated_rows, List.mem_map]
    exact ⟨s, hs, (applyUpdates_all hs).symm.trans (applyUpdates_apart hs h)⟩
  columns := by
    refine ⟨fun s => (refresh db s).percentile, ?_⟩
    rw [recalculated_rows]
    exact List.map_congr_left fun s _ => refresh_eq db s
  others := recalculated_others db

theorem idempotent (db : Db) : Idempotent db := by
  have hnow := recalculated_now db
  have hcount : (activeScores db.now (recalculated db)).length =
      (activeScores db.now db).length := by
    rw [activeScores_recalculated, List.length_map]
  refine ⟨_, congrArg Prod.snd (recalculate_solo db), ?_, ?_⟩
  · rw [recalculate_solo]
    simp [groups]
  · rw [recalculate_solo, allUpdates_recalculated, hnow, tests_recalculated, hcount]
    rfl

/-- `recalculate`, over any set of scores. Cohorts of the same values, in whatever order, get the
same percentiles. -/
theorem recalculate_sound :
    (∀ db : Db, Ranked (recalculated db) ∧ Untouched db (recalculated db) ∧ Idempotent db) ∧
    ∀ (db₁ db₂ : Db) (t₁ t₂ : Id),
      ((cohort db₁ t₁).map (·.value)).Perm ((cohort db₂ t₂).map (·.value)) →
        ∀ s₁ ∈ cohort (recalculated db₁) t₁, ∀ s₂ ∈ cohort (recalculated db₂) t₂,
          s₁.value = s₂.value → s₁.percentile = s₂.percentile := by
  refine ⟨fun db => ⟨ranked db, untouched db, idempotent db⟩, ?_⟩
  intro db₁ db₂ t₁ t₂ hperm s₁ hs₁ s₂ hs₂ hvalue
  rw [percentile_recalculated hs₁, percentile_recalculated hs₂, hvalue]
  refine congrArg some (percentileIn_perm ?_)
  rw [values_recalculated, values_recalculated]
  exact hperm

end PercentileRecalcService

end JobBoard.Assessments
