import JobBoard.Lib.Keyset
import JobBoard.Cvtheque.Query

/-!
# Who a search shows

A search without a cursor shows visible profiles that satisfy the filters. The cursor adds
`... AND (key < :cursorKey) OR (key = :cursorKey AND id < :cursorId)` to the text, so that
the rows that tie with the cursor come without any condition, and before all others.
-/

set_option autoImplicit false

namespace JobBoard.Cvtheque

open Txn Assessments

/-- The result shows a profile that is visible and satisfies the filters. -/
def Shown (env : Environment) (filters : SearchCandidatesDto) (db : Db)
    (item : CandidateSearchResult) : Prop :=
  ∃ r ∈ SearchService.joinedRows db, r.id = item.id ∧ Visible r.profile ∧
    Satisfies env filters db r

namespace SearchService

/-- The first `limit` rows, in the order of the sort, whose key is the key of the cursor and
whose id is beyond its id. -/
def tieRows (filters : SearchCandidatesDto) (db : Db) : List Row :=
  match readCursor filters with
  | none => []
  | some (keyOrder, cursorId) =>
    ((orderedRows (resolveSort filters.sort) db).filter
      (tiesBeyond (resolveSort filters.sort) keyOrder cursorId)).take (pageLimit filters)

section

variable {env : Environment} {filters : SearchCandidatesDto} {db : Db}

/-- The keys of one cursor compare as integers do. -/
theorem parseKey_lt {sort : Option SearchSort} {key : CursorKey} {keyOrder : Int → Ordering}
    (h : (resolveSort sort).parseKey key = some keyOrder) {v w : Int} (hw : keyOrder w = .eq) :
    (keyOrder v = .lt → v < w) ∧ (keyOrder v = .gt → w < v) := by
  have hscore : ∀ keyOrder, scoreKey key = some keyOrder → keyOrder w = .eq →
      (keyOrder v = .lt → v < w) ∧ (keyOrder v = .gt → w < v) := by
    rintro _ ⟨⟩ hw
    cases hn : key.number with
    | decimal d =>
      simp only [hn, Numeric.compareHundredths, Decimal.compareHundredths, compare_eq_iff_eq,
        compare_lt_iff_lt, compare_gt_iff_gt] at hw ⊢
      have hpos : (0 : Int) < 10 ^ d.scale := Int.pow_pos (by decide)
      rw [← hw]
      exact ⟨fun h => Int.lt_of_mul_lt_mul_right h hpos.le,
        fun h => Int.lt_of_mul_lt_mul_right h hpos.le⟩
    | infinity | negInfinity | nan => simp [hn, Numeric.compareHundredths] at hw
  have hdate : ∀ keyOrder, dateKey key = some keyOrder → keyOrder w = .eq →
      (keyOrder v = .lt → v < w) ∧ (keyOrder v = .gt → w < v) := by
    intro keyOrder h hw
    obtain ⟨date, _, rfl⟩ := Option.map_eq_some_iff.1 h
    simp only [compare_eq_iff_eq, compare_lt_iff_lt, compare_gt_iff_gt] at hw ⊢
    rw [hw]
    exact ⟨id, id⟩
  unfold resolveSort at h
  split at h
  · exact hscore _ h hw
  · exact hdate _ h hw
  · exact hdate _ h hw
  · exact hscore _ h hw
  · exact hscore _ h hw

/-- A row that ties with the cursor comes before every row beyond the key of it. -/
theorem not_before_tie {keyOrder : Int → Ordering} {cursorId : Id} {a b : Row}
    (h : readCursor filters = some (keyOrder, cursorId))
    (ha : beyondKey (resolveSort filters.sort) keyOrder a = true)
    (hb : tiesBeyond (resolveSort filters.sort) keyOrder cursorId b = true) :
    (resolveSort filters.sort).before a b = false := by
  obtain ⟨key, hkey⟩ : ∃ key, (resolveSort filters.sort).parseKey key = some keyOrder := by
    unfold readCursor at h
    split at h
    · cases h
    · next decoded _ =>
      split at h
      · next hkey _ =>
        cases h
        exact ⟨decoded.key, hkey⟩
      · cases h
  simp only [beyondKey, tiesBeyond, beq_iff_eq, Bool.and_eq_true] at ha hb
  have hlt := parseKey_lt hkey (v := (resolveSort filters.sort).keyExpr a) hb.1
  cases hab : (resolveSort filters.sort).before a b with
  | false => rfl
  | true =>
    rw [SortConfig.before_iff] at hab
    cases hsort : filters.sort with
    | none =>
      simp only [hsort, resolveSort] at ha hlt hab
      have := hlt.1 ha
      omega
    | some s =>
      cases s <;> simp only [hsort, resolveSort] at ha hlt hab
      · have := hlt.1 ha
        omega
      · have := hlt.2 ha
        omega
      · have := hlt.1 ha
        omega
      · have := hlt.1 ha
        omega

/-- A row that ties with the cursor is on the page exactly when it is among the first `limit`
such rows. -/
theorem mem_page_iff {keyOrder : Int → Ordering} {cursorId : Id} {condition : Sql.Condition Row}
    {r : Row} (hcursor : readCursor filters = some (keyOrder, cursorId))
    (hcondition : ∀ r, condition.holds r =
      ((filterText env filters db).holds r && beyondKey (resolveSort filters.sort) keyOrder r ||
        tiesBeyond (resolveSort filters.sort) keyOrder cursorId r))
    (hr : r ∈ joinedRows db)
    (htie : tiesBeyond (resolveSort filters.sort) keyOrder cursorId r = true) :
    r ∈ ((orderedRows (resolveSort filters.sort) db).filter condition.holds).take
        (pageLimit filters) ↔ r ∈ tieRows filters db := by
  have hpair := orderedRows_pairwise (resolveSort filters.sort) db
  have hmem : r ∈ orderedRows (resolveSort filters.sort) db := mem_orderedRows.2 hr
  have hasymm : ∀ a b, (resolveSort filters.sort).before a b = true →
      (resolveSort filters.sort).before b a = false := fun a b => SortConfig.before_asymm
  have hholds : condition.holds r = true := by rw [hcondition, htie, Bool.or_true]
  simp only [tieRows, hcursor]
  rw [Pagination.mem_take_iff (hpair.sublist List.filter_sublist) hasymm
      (List.mem_filter.2 ⟨hmem, hholds⟩),
    Pagination.mem_take_iff (hpair.sublist List.filter_sublist) hasymm
      (List.mem_filter.2 ⟨hmem, htie⟩), List.countP_filter, List.countP_filter]
  have hsame : (orderedRows (resolveSort filters.sort) db).countP
        (fun a => (resolveSort filters.sort).before a r && condition.holds a) =
      (orderedRows (resolveSort filters.sort) db).countP fun a =>
        (resolveSort filters.sort).before a r &&
          tiesBeyond (resolveSort filters.sort) keyOrder cursorId a := by
    apply List.countP_congr
    intro a _
    rw [hcondition a]
    cases hbeyond : beyondKey (resolveSort filters.sort) keyOrder a with
    | false => simp
    | true => simp [not_before_tie hcursor hbeyond htie]
  rw [hsame]

theorem joinedRows_ext {a b : Row} (ha : a ∈ joinedRows db) (hb : b ∈ joinedRows db)
    (h : a.id = b.id) : a = b := List.inj_on_of_nodup_map (joinedRows_nodup db) ha hb h

/-- Every result shows a profile that is visible and satisfies the filters, exactly when the
rows that tie with the cursor, as far as they fit on the page, are visible and satisfy
them. -/
theorem results_shown_iff (env : Environment) (filters : SearchCandidatesDto) (db : Db) :
    (∀ result, searchCandidates env filters db = .ok result →
      ∀ item ∈ result.items, Shown env filters db item) ↔
    ∀ r ∈ tieRows filters db, Visible r.profile ∧ Satisfies env filters db r := by
  cases hcursor : readCursor filters with
  | none =>
    constructor
    · intro _ r hr
      simp [tieRows, hcursor] at hr
    · rintro - result hresult item hitem
      obtain ⟨condition, hquery, hitems⟩ := searchCandidates_ok hresult
      by_cases hnone : filters.cursor.bind decodeCursor = none
      · rw [buildQuery_no_cursor hnone] at hquery
        cases hquery
        rw [hitems] at hitem
        obtain ⟨r, hr, rfl⟩ := List.mem_map.1 hitem
        obtain ⟨hr, hholds⟩ := List.mem_filter.1 (List.mem_of_mem_take hr)
        obtain ⟨hvisible, hsatisfies, -⟩ := holds_filterText.1 hholds
        exact ⟨r, mem_orderedRows.1 hr, rfl, hvisible, hsatisfies⟩
      · obtain ⟨e, he⟩ := buildQuery_error env db hcursor hnone
        rw [he] at hquery
        cases hquery
  | some cursor =>
    obtain ⟨keyOrder, cursorId⟩ := cursor
    obtain ⟨condition, hquery, hcondition⟩ := buildQuery_cursor env db hcursor
    constructor
    · intro h r hr
      have hr' := hr
      simp only [tieRows, hcursor] at hr'
      obtain ⟨hmem, htie⟩ := List.mem_filter.1 (List.mem_of_mem_take hr')
      have hpage := (mem_page_iff hcursor hcondition (mem_orderedRows.1 hmem) htie).2 hr
      have hresult : ∃ result, searchCandidates env filters db = .ok result := by
        simp only [searchCandidates, hquery]
        exact ⟨_, rfl⟩
      obtain ⟨result, hresult⟩ := hresult
      obtain ⟨condition', hquery', hitems⟩ := searchCandidates_ok hresult
      rw [hquery] at hquery'
      cases hquery'
      obtain ⟨r', hr', hid, hshown⟩ := h result hresult (preview env db r)
        (hitems ▸ List.mem_map_of_mem hpage)
      rw [← joinedRows_ext hr' (mem_orderedRows.1 hmem) hid]
      exact hshown
    · intro h result hresult item hitem
      obtain ⟨condition', hquery', hitems⟩ := searchCandidates_ok hresult
      rw [hquery] at hquery'
      cases hquery'
      rw [hitems] at hitem
      obtain ⟨r, hpage, rfl⟩ := List.mem_map.1 hitem
      obtain ⟨hr, hholds⟩ := List.mem_filter.1 (List.mem_of_mem_take hpage)
      cases htie : tiesBeyond (resolveSort filters.sort) keyOrder cursorId r with
      | true =>
        have hshown := h r ((mem_page_iff hcursor hcondition (mem_orderedRows.1 hr) htie).1 hpage)
        exact ⟨r, mem_orderedRows.1 hr, rfl, hshown⟩
      | false =>
        rw [hcondition, htie, Bool.or_false, Bool.and_eq_true] at hholds
        obtain ⟨hvisible, hsatisfies, -⟩ := holds_filterText.1 hholds.1
        exact ⟨r, mem_orderedRows.1 hr, rfl, hvisible, hsatisfies⟩

end

/-! ## A hidden profile on the second page -/

/-- An indexed and active profile without a name or a score. -/
def sampleProfile (id : Id) (visibility : ProfileVisibility) (createdAt : Micros) :
    CandidateProfile where
  id := id
  userId := id
  firstName := none
  lastName := none
  headline := none
  bio := none
  school := none
  visibility := visibility
  salaryMin := none
  salaryMax := none
  completeness := 100
  indexedInCvtheque := true
  featured := false
  location := none
  schoolVerified := false
  moderationStatus := .active
  availability := none
  mobility := none
  salaryCurrency := "MAD"
  salaryVisible := true
  createdAt := createdAt
  updatedAt := createdAt

def sampleEnvironment : Environment where
  matchesText := fun _ _ => false
  ilike := fun _ _ => false
  initial := fun s => String.ofList ((s.toList.take 1).map Char.toUpper)
  dateOfScore := fun _ => none
  getSignedUrl := fun key _ => key

/-- A search without a filter, one profile a page. -/
def sampleSearch (sort : Option SearchSort) (cursor : Option Cursor) : SearchCandidatesDto where
  q := none
  skills := none
  scoreMin := none
  location := none
  availability := none
  salaryMax := none
  cursor := cursor
  schools := none
  sort := sort
  limit := some 1
  limit_pos := fun _ h => Option.some.inj h ▸ Nat.le_refl 1

/-- Profile 2 is hidden. -/
def hiddenBetween : Db :=
  { Db.empty with
    profiles :=
      ⟨[sampleProfile 1 .publicVisibility 0, sampleProfile 2 .hidden 0,
        sampleProfile 3 .publicVisibility 0], by decide⟩ }

/-- The cursor that the first page ends with. -/
def afterThree : Cursor := .encoded ⟨⟨.decimal ⟨0, 2⟩, none⟩, some 3⟩

example : (searchCandidates sampleEnvironment (sampleSearch none none) hiddenBetween).toOption.map
    (fun r => (r.items.map (·.id), r.nextCursor)) = some ([3], some afterThree) := by decide

theorem hidden_profile_shown : ¬ ∀ (env : Environment) (filters : SearchCandidatesDto) (db : Db)
    (result : SearchCandidatesResult), searchCandidates env filters db = .ok result →
      ∀ item ∈ result.items, Shown env filters db item := by
  intro h
  have hids : (searchCandidates sampleEnvironment (sampleSearch none (some afterThree))
      hiddenBetween).toOption.map (·.items.map (·.id)) = some [2] := by decide
  cases hresult : searchCandidates sampleEnvironment (sampleSearch none (some afterThree))
      hiddenBetween with
  | error e =>
    rw [hresult] at hids
    cases hids
  | ok result =>
    rw [hresult] at hids
    have hitems : result.items.map (·.id) = [2] := Option.some.inj hids
    obtain ⟨item, hitem, hid⟩ := List.mem_map.1 (hitems ▸ List.mem_singleton_self 2)
    obtain ⟨r, hr, hrid, hvisible, -⟩ := h _ _ _ _ hresult item hitem
    have hrow : ∀ r ∈ joinedRows hiddenBetween, r.id = 2 → r.profile.visibility = .hidden := by
      decide
    have hhidden := hrow r hr (hrid.trans hid)
    rcases hvisible.visible with h | h
    · rw [hhidden] at h
      cases h
    · rw [hhidden] at h
      cases h

end SearchService

end JobBoard.Cvtheque
