import JobBoard.Cvtheque.Visibility

/-!
# Pages of a search

`follow` follows `nextCursor` from page to page. The pages of a search are those of a
keyset (`searchKeyset`): the key of a cursor is the sort key of the last row of the page, as
a `Date` for the sorts by time, so that its microseconds are lost.
-/

set_option autoImplicit false

namespace JobBoard.Cvtheque

open Txn Assessments

/-- The same search from another place. -/
def SearchCandidatesDto.withCursor (filters : SearchCandidatesDto) (cursor : Option Cursor) :
    SearchCandidatesDto := { filters with cursor := cursor }

namespace SearchService

/-- The results of the pages from the given cursor on, when `n` pages are enough. -/
def follow (env : Environment) (filters : SearchCandidatesDto) (db : Db) :
    Nat → Option Cursor → Option (List CandidateSearchResult)
  | 0, _ => none
  | n + 1, cursor =>
    match searchCandidates env (filters.withCursor cursor) db with
    | .error _ => none
    | .ok result =>
      match result.nextCursor with
      | none => some result.items
      | some next => (follow env filters db n (some next)).map (result.items ++ ·)

/-- The rows that the filters ask for, in the order of the sort. -/
def matchingRows (env : Environment) (filters : SearchCandidatesDto) (db : Db) : List Row :=
  (orderedRows (resolveSort filters.sort) db).filter (filterText env filters db).holds

/-- The key that the cursor of a row carries. -/
def carriedKey (sort : Option SearchSort) (b : Row) : Int :=
  match sort with
  | some .recent | some .active => ofDate (toDate ((resolveSort sort).keyExpr b))
  | some .scoreAsc | some .scoreDesc | none => (resolveSort sort).keyExpr b

/-! ## The keyset of a sort -/

section

variable {sort : Option SearchSort} {b c x : Row}

/-- `x` is beyond the key of the cursor of `b`. -/
def beyondRow (sort : Option SearchSort) (b x : Row) : Bool :=
  beyondKey (resolveSort sort) (fun v => compare v (carriedKey sort b)) x

/-- `x` has the key of the cursor of `b`, and follows `b`. -/
def tiesWithRow (sort : Option SearchSort) (b x : Row) : Bool :=
  tiesBeyond (resolveSort sort) (fun v => compare v (carriedKey sort b)) b.id x

/-- The key of a cursor is exact in the ascending sort. In the descending ones it may lie
below the key of its row, but then no row with that key loses anything. -/
theorem sort_cases (sort : Option SearchSort) :
    ((resolveSort sort).direction = .asc ∧ (resolveSort sort).cmp = .gt ∧
      ∀ b, carriedKey sort b = (resolveSort sort).keyExpr b) ∨
    ((resolveSort sort).direction = .desc ∧ (resolveSort sort).cmp = .lt ∧
      (∀ b, carriedKey sort b ≤ (resolveSort sort).keyExpr b) ∧
      ∀ b x, (resolveSort sort).keyExpr x = carriedKey sort b →
        carriedKey sort x = (resolveSort sort).keyExpr x) := by
  cases sort with
  | none => exact .inr ⟨rfl, rfl, fun _ => Int.le_refl _, fun _ _ _ => rfl⟩
  | some s =>
    cases s with
    | scoreDesc => exact .inr ⟨rfl, rfl, fun _ => Int.le_refl _, fun _ _ _ => rfl⟩
    | scoreAsc => exact .inl ⟨rfl, rfl, fun _ => rfl⟩
    | recent | active =>
      refine .inr ⟨rfl, rfl, fun b => ?_, fun b x h => ?_⟩
      · simp only [carriedKey, ofDate, toDate]
        omega
      · simp only [carriedKey, ofDate, toDate] at h ⊢
        omega

theorem beyondRow_iff : beyondRow sort b x = true ↔
    compare ((resolveSort sort).keyExpr x) (carriedKey sort b) = (resolveSort sort).cmp :=
  beq_iff_eq

theorem tiesWithRow_iff : tiesWithRow sort b x = true ↔
    (resolveSort sort).keyExpr x = carriedKey sort b ∧
      compare x.id b.id = (resolveSort sort).cmp := by
  unfold tiesWithRow tiesBeyond
  rw [Bool.and_eq_true, beq_iff_eq, beq_iff_eq, compare_eq_iff_eq]

theorem before_of_beyondRow (h : beyondRow sort b x = true) :
    (resolveSort sort).before b x = true := by
  rw [beyondRow_iff] at h
  rw [SortConfig.before_iff]
  obtain ⟨hd, hcmp, hkey⟩ | ⟨hd, hcmp, hle, -⟩ := sort_cases sort
  · simp only [hd]
    rw [hcmp, compare_gt_iff_gt, hkey] at h
    exact .inl h
  · simp only [hd]
    rw [hcmp, compare_lt_iff_lt] at h
    exact .inl (Int.lt_of_lt_of_le h (hle b))

theorem before_of_tiesWithRow (h : tiesWithRow sort b x = true) :
    (resolveSort sort).before b x = true := by
  obtain ⟨hk, hid⟩ := tiesWithRow_iff.1 h
  rw [SortConfig.before_iff]
  obtain ⟨hd, hcmp, hkey⟩ | ⟨hd, hcmp, hle, -⟩ := sort_cases sort
  · simp only [hd]
    rw [hcmp, compare_gt_iff_gt] at hid
    exact .inr ⟨(hk.trans (hkey b)).symm, hid⟩
  · simp only [hd]
    rw [hcmp, compare_lt_iff_lt] at hid
    rcases Int.lt_or_eq_of_le (hk ▸ hle b) with hlt | heq
    · exact .inl hlt
    · exact .inr ⟨heq.symm, hid⟩

/-- A row that a tie of `b` comes after, and that the cursor of `b` reaches, has the key of
the cursor. -/
theorem ties_of_before (hreach : (beyondRow sort b c || tiesWithRow sort b c) = true)
    (hcx : (resolveSort sort).before c x = true) (hx : tiesWithRow sort b x = true) :
    tiesWithRow sort c x = true := by
  obtain ⟨hk, hid⟩ := tiesWithRow_iff.1 hx
  rw [Bool.or_eq_true, beyondRow_iff, tiesWithRow_iff] at hreach
  rw [SortConfig.before_iff] at hcx
  rw [tiesWithRow_iff]
  obtain ⟨hd, hcmp, hkey⟩ | ⟨hd, hcmp, hle, hcarried⟩ := sort_cases sort
  · simp only [hd] at hcx
    simp only [hcmp, compare_gt_iff_gt, hkey] at hreach hk ⊢
    rcases hcx with hlt | ⟨heq, hlt⟩
    · rcases hreach with h | ⟨h, -⟩ <;> omega
    · exact ⟨heq.symm, hlt⟩
  · simp only [hd] at hcx
    simp only [hcmp, compare_lt_iff_lt] at hreach ⊢
    rcases hcx with hlt | ⟨heq, hlt⟩
    · rcases hreach with h | ⟨h, -⟩ <;> omega
    · refine ⟨?_, hlt⟩
      rcases hreach with h | ⟨h, -⟩
      · omega
      · rw [hcarried b c h, heq]

theorem reach_trans (hc : (beyondRow sort b c || tiesWithRow sort b c) = true)
    (hx : (beyondRow sort c x || tiesWithRow sort c x) = true) :
    (beyondRow sort b x || tiesWithRow sort b x) = true := by
  rw [Bool.or_eq_true, beyondRow_iff, tiesWithRow_iff] at *
  obtain ⟨-, hcmp, hkey⟩ | ⟨-, hcmp, hle, hcarried⟩ := sort_cases sort
  · simp only [hcmp, compare_gt_iff_gt, hkey] at hc hx ⊢
    rcases hc with hc | ⟨hc, hcid⟩ <;> rcases hx with hx | ⟨hx, hxid⟩
    · exact .inl (by omega)
    · exact .inl (by omega)
    · exact .inl (by omega)
    · exact .inr ⟨hx.trans hc, Nat.lt_trans hcid hxid⟩
  · have hcle := hle c
    simp only [hcmp, compare_lt_iff_lt] at hc hx ⊢
    rcases hc with hc | ⟨hc, hcid⟩ <;> rcases hx with hx | ⟨hx, hxid⟩
    · exact .inl (by omega)
    · exact .inl (by omega)
    · exact .inl (by omega)
    · exact .inr ⟨hx.trans ((hcarried b c hc).trans hc), Nat.lt_trans hxid hcid⟩

/-- The sort as a keyset. -/
def searchKeyset (sort : Option SearchSort) : Pagination.Keyset Row where
  lt a b := (resolveSort sort).before a b = true
  lt_trans := SortConfig.before_trans
  lt_irrefl a h := by
    rw [SortConfig.before_irrefl] at h
    cases h
  beyond := beyondRow sort
  tie := tiesWithRow sort
  lt_of_beyond := before_of_beyondRow
  lt_of_tie := before_of_tiesWithRow
  tie_of_lt := ties_of_before
  reach_trans := reach_trans

end

/-! ## The pages -/

section

variable {env : Environment} {filters : SearchCandidatesDto} {db : Db}

/-- The comparison with the key that the cursor of `b` carries. -/
theorem parseKey_cursorKey (env : Environment) (sort : Option SearchSort) (b : Row) :
    (resolveSort sort).parseKey (cursorKey env sort b) =
      some fun v => compare v (carriedKey sort b) := by
  have hscore : ∀ key date,
      scoreKey ⟨.decimal ⟨key, 2⟩, date⟩ = some fun v => compare v key := by
    intro key date
    unfold scoreKey
    congr 1
    funext v
    show compare (v * 10 ^ 2) (key * 100) = compare v key
    rw [Int.compare_eq_ite_lt, Int.compare_eq_ite_lt]
    split <;> split <;> (try split) <;> (try split) <;> first | rfl | omega
  unfold cursorKey carriedKey
  cases sort with
  | none => exact hscore _ _
  | some s => cases s <;> first | exact hscore _ _ | rfl

/-- The cursor that a page with the last row `b` ends with. -/
def cursorAfter (env : Environment) (filters : SearchCandidatesDto) (b : Row) : Cursor :=
  encodeCursor ⟨cursorKey env filters.sort b, some b.id⟩

/-- The cursor of `b` selects what the keyset says. -/
theorem buildQuery_next (env : Environment) (filters : SearchCandidatesDto) (db : Db) (b : Row) :
    ∃ condition,
      buildQuery env (filters.withCursor (some (cursorAfter env filters b))) db = .ok condition ∧
      ∀ r, condition.holds r =
        (searchKeyset filters.sort).sel (filterText env filters db).holds b r := by
  have hread : readCursor (filters.withCursor (some (cursorAfter env filters b))) =
      some (fun v => compare v (carriedKey filters.sort b), b.id) := by
    simp only [readCursor, SearchCandidatesDto.withCursor, cursorAfter, Option.bind_some,
      encodeCursor, decodeCursor, parseKey_cursorKey]
  exact buildQuery_cursor env db hread

theorem pageLimit_pos (filters : SearchCandidatesDto) : 0 < pageLimit filters := by
  unfold pageLimit
  cases hlimit : filters.limit with
  | none => decide
  | some l => exact filters.limit_pos l hlimit

/-- Following the cursors is walking through the pages of the keyset. -/
theorem follow_eq (n : Nat) {cursor : Option Cursor} {condition : Sql.Condition Row}
    {s : Row → Bool} (hquery : buildQuery env (filters.withCursor cursor) db = .ok condition)
    (hs : ∀ r, condition.holds r = s r) :
    follow env filters db n cursor =
      ((searchKeyset filters.sort).walk (filterText env filters db).holds (pageLimit filters)
        (orderedRows (resolveSort filters.sort) db) n s).map (·.map (preview env db)) := by
  induction n generalizing cursor condition s with
  | zero => rfl
  | succ n ih =>
    obtain rfl : condition.holds = s := funext hs
    rcases Nat.lt_or_ge (pageLimit filters)
        ((orderedRows (resolveSort filters.sort) db).filter condition.holds).length with hlen | hlen
    · have hlast := Pagination.Keyset.getLast?_take (pageLimit_pos filters) hlen
      have hsearch : searchCandidates env (filters.withCursor cursor) db =
          .ok ⟨(((orderedRows (resolveSort filters.sort) db).filter condition.holds).take
              (pageLimit filters)).map (preview env db),
            (((orderedRows (resolveSort filters.sort) db).filter condition.holds).take
              (pageLimit filters)).getLast?.map (cursorAfter env filters)⟩ :=
        searchCandidates_more hquery hlen
      rw [hlast, Option.map_some] at hsearch
      obtain ⟨next, hnext, hsel⟩ := buildQuery_next env filters db
        ((orderedRows (resolveSort filters.sort) db).filter condition.holds)[pageLimit filters - 1]
      rw [follow, hsearch, Pagination.Keyset.walk_more hlen hlast]
      show (follow env filters db n _).map _ = _
      rw [ih hnext hsel, Option.map_map, Option.map_map]
      congr 1
      funext rest
      simp
    · have hsearch : searchCandidates env (filters.withCursor cursor) db =
          .ok ⟨((orderedRows (resolveSort filters.sort) db).filter condition.holds).map
            (preview env db), none⟩ := searchCandidates_last hquery hlen
      rw [follow, hsearch, Pagination.Keyset.walk_last hlen]
      rfl

end

/-- The cursor made from `b` neither brings a row that does not match nor skips a matching
row after `b`. -/
structure ExactCursor (env : Environment) (filters : SearchCandidatesDto) (db : Db) (b : Row) :
    Prop where
  ties_match : ∀ x ∈ joinedRows db, tiesWithRow filters.sort b x = true →
    x ∈ matchingRows env filters db
  none_skipped : ∀ x ∈ matchingRows env filters db, (resolveSort filters.sort).before b x = true →
    beyondRow filters.sort b x = true ∨ tiesWithRow filters.sort b x = true

/-- The rows that a list of results shows, from the results. -/
theorem preview_injective {env : Environment} {db : Db} {rows rows' : List Row}
    (hrows : ∀ r ∈ rows, r ∈ joinedRows db) (hrows' : ∀ r ∈ rows', r ∈ joinedRows db)
    (h : rows.map (preview env db) = rows'.map (preview env db)) : rows = rows' := by
  -- the row with the id of a result
  have hback : ∀ l : List Row, (∀ r ∈ l, r ∈ joinedRows db) →
      (l.map (preview env db)).map (fun item => (joinedRows db).find? (·.id = item.id)) =
        l.map some := by
    intro l hl
    rw [List.map_map]
    apply List.map_congr_left
    intro r hr
    show (joinedRows db).find? (fun x => x.id = r.id) = some r
    cases hfind : (joinedRows db).find? (fun x => x.id = r.id) with
    | none => simpa using List.find?_eq_none.1 hfind r (hl r hr)
    | some x =>
      have hid : x.id = r.id := by simpa using List.find?_some hfind
      rw [List.inj_on_of_nodup_map (joinedRows_nodup db) (List.mem_of_find?_eq_some hfind)
        (hl r hr) hid]
  have hsome := congrArg (List.map fun item => (joinedRows db).find? (·.id = item.id)) h
  rw [hback rows hrows, hback rows' hrows'] at hsome
  exact List.map_injective_iff.2 (Option.some_injective _) hsome

/-- Following the cursors yields every matching profile exactly once and in order, exactly
when the cursor at the end of each full page that a matching profile follows is exact. -/
theorem pages_complete_iff (env : Environment) (filters : SearchCandidatesDto) (db : Db) :
    (∃ n, follow env filters db n none =
      some ((matchingRows env filters db).map (preview env db))) ↔
    ∀ j b, 0 < j → j * pageLimit filters < (matchingRows env filters db).length →
      (matchingRows env filters db)[j * pageLimit filters - 1]? = some b →
        ExactCursor env filters db b := by
  have hquery : buildQuery env (filters.withCursor none) db = .ok (filterText env filters db) :=
    buildQuery_no_cursor rfl
  have hfollow : ∀ n, follow env filters db n none =
      ((searchKeyset filters.sort).walk (filterText env filters db).holds (pageLimit filters)
        (orderedRows (resolveSort filters.sort) db) n (filterText env filters db).holds).map
          (·.map (preview env db)) := fun n =>
    follow_eq n hquery fun _ => rfl
  have hpages : (∃ n, follow env filters db n none =
        some ((matchingRows env filters db).map (preview env db))) ↔
      ∃ n, (searchKeyset filters.sort).walk (filterText env filters db).holds (pageLimit filters)
        (orderedRows (resolveSort filters.sort) db) n (filterText env filters db).holds =
          some (matchingRows env filters db) := by
    refine exists_congr fun n => ?_
    rw [hfollow, Option.map_eq_some_iff]
    constructor
    · rintro ⟨out, hout, hmap⟩
      have hrows : ∀ r ∈ out, r ∈ joinedRows db := fun r hr =>
        mem_orderedRows.1 (Pagination.Keyset.mem_of_walk hout r hr)
      have hmatching : ∀ r ∈ matchingRows env filters db, r ∈ joinedRows db := fun r hr =>
        mem_orderedRows.1 (List.mem_of_mem_filter hr)
      exact hout.trans (congrArg some (preview_injective hrows hmatching hmap))
    · intro h
      exact ⟨_, h, rfl⟩
  rw [hpages, matchingRows, Pagination.Keyset.walk_eq (searchKeyset filters.sort) _
    (orderedRows_pairwise _ _) (pageLimit_pos filters)]
  constructor
  · intro h j b hj hlen hb
    obtain ⟨_, rfl⟩ := List.getElem?_eq_some_iff.1 hb
    have hexact := h j hj hlen
    refine ⟨fun x hx htie => ?_, fun x hx hbefore => ?_⟩
    · exact List.mem_filter.2
        ⟨mem_orderedRows.2 hx, hexact.tie_matches x (mem_orderedRows.2 hx) htie⟩
    · obtain ⟨hmem, hholds⟩ := List.mem_filter.1 hx
      exact (Bool.or_eq_true _ _).mp (hexact.reaches x hmem hholds hbefore)
  · intro h j hj hlen
    have hexact := h j _ hj hlen (List.getElem?_eq_getElem (by omega))
    refine ⟨fun x hx htie => ?_, fun x hx hholds hbefore => ?_⟩
    · exact (List.mem_filter.1 (hexact.ties_match x (mem_orderedRows.1 hx) htie)).2
    · exact (Bool.or_eq_true _ _).mpr
        (hexact.none_skipped x (List.mem_filter.2 ⟨hx, hholds⟩) hbefore)

/-! ## A profile lost between two pages -/

/-- Two profiles created in the same millisecond. -/
def sameMillisecond : Db :=
  { Db.empty with
    profiles :=
      ⟨[sampleProfile 1 .publicVisibility 1200, sampleProfile 2 .publicVisibility 1500],
        by decide⟩ }

/-- The second page asks for rows before the millisecond of the first. -/
theorem profile_lost : ¬ ∀ (env : Environment) (filters : SearchCandidatesDto) (db : Db),
    ∃ n, follow env filters db n none =
      some ((matchingRows env filters db).map (preview env db)) := by
  intro h
  obtain ⟨n, hn⟩ := h sampleEnvironment (sampleSearch (some .recent) none) sameMillisecond
  have hids : (matchingRows sampleEnvironment (sampleSearch (some .recent) none)
      sameMillisecond).map (·.id) = [2, 1] := by decide
  have hfirst : searchCandidates sampleEnvironment
      ((sampleSearch (some .recent) none).withCursor none) sameMillisecond =
      .ok ⟨[preview sampleEnvironment sameMillisecond
        (joinRow sameMillisecond (sampleProfile 2 .publicVisibility 1500))],
        some (.encoded ⟨⟨.nan, some 1⟩, some 2⟩)⟩ := by rfl
  have hsecond : searchCandidates sampleEnvironment
      ((sampleSearch (some .recent) none).withCursor (some (.encoded ⟨⟨.nan, some 1⟩, some 2⟩)))
      sameMillisecond = .ok ⟨[], none⟩ := by rfl
  match n with
  | 0 => cases hn
  | 1 =>
    rw [follow, hfirst] at hn
    cases hn
  | n + 2 =>
    rw [follow, hfirst] at hn
    simp only [follow, hsecond, Option.map_some] at hn
    have hlen := congrArg List.length (Option.some.inj hn)
    have hlen' := congrArg List.length hids
    simp only [List.length_map] at hlen hlen'
    rw [hlen'] at hlen
    cases hlen

end SearchService

end JobBoard.Cvtheque
