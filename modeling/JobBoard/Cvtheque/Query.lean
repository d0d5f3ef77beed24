import JobBoard.Cvtheque.Search

/-!
# What a search asks and in which order

`Visible` and `Satisfies` say what a search asks of a profile; `holds_filters` is the link
with the text that the service builds. The order of the results is a strict order of the
joined rows, so that a page is known by how many rows come before each of its rows.
-/

set_option autoImplicit false

namespace JobBoard.Cvtheque

open Txn Assessments

/-- The profile is one that the CVthèque shows. -/
structure Visible (p : CandidateProfile) : Prop where
  indexed : p.indexedInCvtheque = true
  active : p.moderationStatus = .active
  visible : p.visibility = .publicVisibility ∨ p.visibility = .recruitersOnly

/-- `column` contains the text that a filter asks for. -/
def Contains (env : Environment) (column : Option String) (text : String) : Prop :=
  ∃ value, column = some value ∧ env.ilike value ("%" ++ text ++ "%") = true

/-- The row satisfies every filter that is supplied. -/
structure Satisfies (env : Environment) (filters : SearchCandidatesDto) (db : Db) (r : Row) :
    Prop where
  skills : ∀ names, filters.skills = some names → names ≠ [] →
    ∃ ps ∈ db.profileSkills.rows, ps.profileId = r.id ∧
      ∃ sk, db.skills.get? ps.skillId = some sk ∧ sk.name ∈ names
  scoreMin : ∀ d : Decimal, filters.scoreMin = some d →
    d.mantissa * 100 ≤ r.bestValue * 10 ^ d.scale
  location : ∀ text, filters.location = some text → text ≠ "" →
    Contains env r.profile.location text
  availability : ∀ text, filters.availability = some text → text ≠ "" →
    Contains env r.profile.availability text
  salaryMax : ∀ salaryMax, filters.salaryMax = some salaryMax →
    r.profile.salaryVisible = true ∧
      ∃ salaryMin, r.profile.salaryMin = some salaryMin ∧ salaryMin ≤ salaryMax
  schools : ∀ schools, filters.schools = some schools → schools ≠ [] →
    ∃ school ∈ schools, Contains env r.profile.school school

/-- The full-text filter, the one that is left. -/
def MatchesQ (env : Environment) (filters : SearchCandidatesDto) (r : Row) : Prop :=
  ∀ q, filters.q = some q → q ≠ "" →
    env.matchesText (SearchService.searchedText r.profile) q = true

namespace SearchService

open Sql Sql.Condition

/-! ## The conditions -/

section

variable {env : Environment} {filters : SearchCandidatesDto} {db : Db} {r : Row}

theorem baseConditions_conjunctive : baseConditions.Conjunctive :=
  ((conjunctive_atom _).andWhere (conjunctive_atom _)).andWhere (conjunctive_atom _)

theorem holds_baseConditions : baseConditions.holds r = true ↔ Visible r.profile := by
  unfold baseConditions
  rw [holds_andWhere ((conjunctive_atom _).andWhere (conjunctive_atom _)) (conjunctive_atom _),
    holds_andWhere (conjunctive_atom _) (conjunctive_atom _)]
  simp only [holds_atom, isVisible, Bool.and_eq_true, Bool.or_eq_true, decide_eq_true_eq]
  exact ⟨fun ⟨⟨h, h'⟩, h''⟩ => ⟨h, h', h''⟩, fun h => ⟨⟨h.indexed, h.active⟩, h.visible⟩⟩

theorem truthy_eq_some {s : Option String} {text : String} :
    truthy s = some text ↔ s = some text ∧ text ≠ "" := by
  unfold truthy
  split
  · exact ⟨(nomatch ·), fun ⟨h, hne⟩ => absurd (Option.some.inj h).symm hne⟩
  · next hne => exact ⟨fun h => ⟨h, fun he => hne (he ▸ h)⟩, fun h => h.1⟩

/-- A filter of a text, when it is supplied. -/
theorem forall_truthy {s : Option String} {P : String → Prop} :
    (∀ text, s = some text → text ≠ "" → P text) ↔ ∀ text, truthy s = some text → P text := by
  simp only [truthy_eq_some, and_imp]

theorem contains_iff {column : Option String} {text : String} :
    contains env column text = true ↔ Contains env column text := by
  cases column with
  | none => exact ⟨(nomatch ·), fun ⟨_, h, _⟩ => nomatch h⟩
  | some value => exact ⟨fun h => ⟨value, rfl, h⟩, fun ⟨_, h, h'⟩ => Option.some.inj h ▸ h'⟩

theorem hasSkill_iff {names : List String} {p : CandidateProfile} :
    hasSkill db names p = true ↔ ∃ ps ∈ db.profileSkills.rows, ps.profileId = p.id ∧
      ∃ sk, db.skills.get? ps.skillId = some sk ∧ sk.name ∈ names := by
  simp only [hasSkill, List.any_eq_true, Bool.and_eq_true, decide_eq_true_eq]
  refine exists_congr fun ps => and_congr_right fun _ => and_congr_right fun _ => ?_
  cases db.skills.get? ps.skillId with
  | none => simp
  | some sk => simp

theorem holds_qCondition : (qCondition env filters.q).all (·.holds r) = true ↔
    MatchesQ env filters r := by
  unfold MatchesQ
  rw [forall_truthy]
  unfold qCondition
  cases truthy filters.q with
  | none => simp
  | some q => simp

theorem holds_skillsCondition {skills : Option (List String)} :
    (skillsCondition db skills).all (·.holds r) = true ↔
      ∀ names, skills = some names → names ≠ [] → hasSkill db names r.profile = true := by
  unfold skillsCondition
  split <;> simp_all

theorem holds_scoreCondition {scoreMin : Option Decimal} :
    (scoreCondition scoreMin).all (·.holds r) = true ↔
      ∀ d : Decimal, scoreMin = some d → d.mantissa * 100 ≤ r.bestValue * 10 ^ d.scale := by
  unfold scoreCondition
  cases scoreMin with
  | none => simp
  | some d => simp [Decimal.compareHundredths, compare_lt_iff_lt]

theorem holds_ilikeCondition {column : CandidateProfile → Option String} {text : Option String} :
    (ilikeCondition env column text).all (·.holds r) = true ↔
      ∀ t, text = some t → t ≠ "" → Contains env (column r.profile) t := by
  rw [forall_truthy]
  unfold ilikeCondition
  cases truthy text with
  | none => simp
  | some t => simp [contains_iff]

theorem salaryCondition_holds {salaryMax : Option Int} :
    (salaryCondition salaryMax).all (·.holds r) = true ↔
      ∀ max, salaryMax = some max → r.profile.salaryVisible = true ∧
        ∃ salaryMin, r.profile.salaryMin = some salaryMin ∧ salaryMin ≤ max := by
  cases salaryMax with
  | none => simp [salaryCondition]
  | some max =>
    simp only [salaryCondition, List.all_cons, List.all_nil, Bool.and_true]
    rw [holds_andWhere ((conjunctive_atom _).andWhere (conjunctive_atom _)) (conjunctive_atom _),
      holds_andWhere (conjunctive_atom _) (conjunctive_atom _)]
    simp only [holds_atom]
    cases r.profile.salaryMin with
    | none => simp
    | some salaryMin => simp

theorem holds_schoolsCondition {schools : Option (List String)} :
    (schoolsCondition env schools).all (·.holds r) = true ↔
      ∀ ss, schools = some ss → ss ≠ [] → ∃ school ∈ ss, Contains env r.profile.school school := by
  unfold schoolsCondition
  split <;> simp_all [contains_iff]

theorem filterConditions_conjunctive :
    ∀ d ∈ filterConditions env filters db, d.Conjunctive := by
  intro d hd
  simp only [filterConditions, List.mem_append] at hd
  rcases hd with (((((hd | hd) | hd) | hd) | hd) | hd) | hd
  · unfold qCondition at hd
    split at hd
    · cases hd
    · exact List.mem_singleton.1 hd ▸ conjunctive_atom _
  · unfold skillsCondition at hd
    split at hd
    · cases hd
    · cases hd
    · exact List.mem_singleton.1 hd ▸ conjunctive_atom _
  · unfold scoreCondition at hd
    split at hd
    · cases hd
    · exact List.mem_singleton.1 hd ▸ conjunctive_atom _
  · unfold ilikeCondition at hd
    split at hd
    · cases hd
    · exact List.mem_singleton.1 hd ▸ conjunctive_atom _
  · unfold ilikeCondition at hd
    split at hd
    · cases hd
    · exact List.mem_singleton.1 hd ▸ conjunctive_atom _
  · unfold salaryCondition at hd
    split at hd
    · cases hd
    · exact List.mem_singleton.1 hd ▸
        ((conjunctive_atom _).andWhere (conjunctive_atom _)).andWhere (conjunctive_atom _)
  · unfold schoolsCondition at hd
    split at hd
    · cases hd
    · cases hd
    · exact List.mem_singleton.1 hd ▸ conjunctive_atom _

/-- The text of a search without a cursor. -/
def filterText (env : Environment) (filters : SearchCandidatesDto) (db : Db) : Condition Row :=
  baseConditions.andAll (filterConditions env filters db)

theorem filterText_conjunctive : (filterText env filters db).Conjunctive :=
  baseConditions_conjunctive.andAll filterConditions_conjunctive

/-- The text asks for a visible profile that satisfies the filters. -/
theorem holds_filterText : (filterText env filters db).holds r = true ↔
    Visible r.profile ∧ Satisfies env filters db r ∧ MatchesQ env filters r := by
  unfold filterText
  rw [holds_andAll baseConditions_conjunctive filterConditions_conjunctive, Bool.and_eq_true,
    holds_baseConditions]
  simp only [filterConditions, List.all_append, Bool.and_eq_true, holds_qCondition,
    holds_skillsCondition, holds_scoreCondition, holds_ilikeCondition, salaryCondition_holds,
    holds_schoolsCondition, hasSkill_iff]
  refine and_congr_right fun _ => ⟨?_, ?_⟩
  · rintro ⟨⟨⟨⟨⟨⟨hq, hskills⟩, hscore⟩, hlocation⟩, havailability⟩, hsalary⟩, hschools⟩
    exact ⟨⟨hskills, hscore, hlocation, havailability, hsalary, hschools⟩, hq⟩
  · rintro ⟨h, hq⟩
    exact ⟨⟨⟨⟨⟨⟨hq, h.skills⟩, h.scoreMin⟩, h.location⟩, h.availability⟩, h.salaryMax⟩, h.schools⟩

/-! ## The cursor -/

/-- The cursor of a search, when the database can read it. -/
def readCursor (filters : SearchCandidatesDto) : Option ((Int → Ordering) × Id) :=
  match filters.cursor.bind decodeCursor with
  | none => none
  | some decoded =>
    match (resolveSort filters.sort).parseKey decoded.key, decoded.id with
    | some keyOrder, some cursorId => some (keyOrder, cursorId)
    | _, _ => none

/-- With a cursor, the rows that tie with it come besides those that the filters ask for. -/
theorem buildQuery_cursor (env : Environment) (db : Db) {keyOrder : Int → Ordering} {cursorId : Id}
    (h : readCursor filters = some (keyOrder, cursorId)) :
    ∃ condition, buildQuery env filters db = .ok condition ∧ ∀ r, condition.holds r =
      ((filterText env filters db).holds r && beyondKey (resolveSort filters.sort) keyOrder r ||
        tiesBeyond (resolveSort filters.sort) keyOrder cursorId r) := by
  unfold readCursor at h
  cases hdecoded : filters.cursor.bind decodeCursor with
  | none => simp [hdecoded] at h
  | some decoded =>
    cases horder : (resolveSort filters.sort).parseKey decoded.key with
    | none => simp [hdecoded, horder] at h
    | some order =>
      cases hid : decoded.id with
      | none => simp [hdecoded, horder, hid] at h
      | some id =>
        simp only [hdecoded, horder, hid, Option.some.injEq, Prod.mk.injEq] at h
        obtain ⟨rfl, rfl⟩ := h
        refine ⟨(filterText env filters db).andAll
          [cursorCondition (resolveSort filters.sort) order id], ?_, fun r => ?_⟩
        · simp only [buildQuery, cursorConditions, hdecoded, horder, hid, filterText]
        · exact holds_andWhere_orText filterText_conjunctive _ _ r

theorem buildQuery_no_cursor (h : filters.cursor.bind decodeCursor = none) :
    buildQuery env filters db = .ok (filterText env filters db) := by
  simp only [buildQuery, cursorConditions, h]
  rfl

/-- A cursor that the database cannot read fails the query. -/
theorem buildQuery_error (env : Environment) (db : Db) (h : readCursor filters = none)
    (hcursor : filters.cursor.bind decodeCursor ≠ none) :
    ∃ e, buildQuery env filters db = .error e := by
  obtain ⟨decoded, hdecoded⟩ := Option.ne_none_iff_exists'.1 hcursor
  simp only [buildQuery, cursorConditions, hdecoded]
  cases horder : (resolveSort filters.sort).parseKey decoded.key with
  | none => exact ⟨_, rfl⟩
  | some order =>
    cases hid : decoded.id with
    | none => exact ⟨_, rfl⟩
    | some id => simp [readCursor, hdecoded, horder, hid] at h

end

/-! ## The order -/

section

variable {sort : SortConfig} {a b c : Row} {rows : List Row}

theorem SortConfig.before_iff : sort.before a b = true ↔
    match sort.direction with
    | .asc => sort.keyExpr a < sort.keyExpr b ∨ sort.keyExpr a = sort.keyExpr b ∧ a.id < b.id
    | .desc => sort.keyExpr b < sort.keyExpr a ∨ sort.keyExpr a = sort.keyExpr b ∧ b.id < a.id := by
  unfold SortConfig.before
  cases sort.direction <;> simp

theorem SortConfig.before_irrefl (a : Row) : sort.before a a = false := by
  unfold SortConfig.before
  cases sort.direction <;> simp

theorem SortConfig.before_trans (hab : sort.before a b = true) (hbc : sort.before b c = true) :
    sort.before a c = true := by
  rw [SortConfig.before_iff] at *
  cases hd : sort.direction with
  | asc =>
    simp only [hd] at *
    rcases hab with h | ⟨h, hid⟩ <;> rcases hbc with h' | ⟨h', hid'⟩
    · exact .inl (h.trans h')
    · exact .inl (h'.symm ▸ h)
    · exact .inl (h ▸ h')
    · exact .inr ⟨h.trans h', Nat.lt_trans hid hid'⟩
  | desc =>
    simp only [hd] at *
    rcases hab with h | ⟨h, hid⟩ <;> rcases hbc with h' | ⟨h', hid'⟩
    · exact .inl (h'.trans h)
    · exact .inl (h' ▸ h)
    · exact .inl (h.symm ▸ h')
    · exact .inr ⟨h.trans h', Nat.lt_trans hid' hid⟩

theorem SortConfig.before_asymm (hab : sort.before a b = true) : sort.before b a = false := by
  cases hba : sort.before b a with
  | false => rfl
  | true => exact absurd (sort.before_trans hab hba) (by rw [sort.before_irrefl]; simp)

/-- The order tells rows apart by their keys and ids. -/
theorem SortConfig.before_total (h : ¬ (a.id = b.id ∧ sort.keyExpr a = sort.keyExpr b)) :
    sort.before a b = true ∨ sort.before b a = true := by
  rw [SortConfig.before_iff, SortConfig.before_iff]
  have hids : sort.keyExpr a = sort.keyExpr b → a.id < b.id ∨ b.id < a.id := fun hk =>
    Nat.lt_or_gt_of_ne fun hid => h ⟨hid, hk⟩
  cases sort.direction with
  | asc =>
    rcases lt_trichotomy (sort.keyExpr a) (sort.keyExpr b) with hk | hk | hk
    · exact .inl (.inl hk)
    · exact (hids hk).imp (fun hid => .inr ⟨hk, hid⟩) fun hid => .inr ⟨hk.symm, hid⟩
    · exact .inr (.inl hk)
  | desc =>
    rcases lt_trichotomy (sort.keyExpr a) (sort.keyExpr b) with hk | hk | hk
    · exact .inr (.inl hk)
    · exact (hids hk).symm.imp (fun hid => .inr ⟨hk, hid⟩) fun hid => .inr ⟨hk.symm, hid⟩
    · exact .inl (.inl hk)

/-- To be not after is transitive too. -/
theorem SortConfig.not_after_trans (hab : sort.before b a = false)
    (hbc : sort.before c b = false) : sort.before c a = false := by
  cases hca : sort.before c a with
  | false => rfl
  | true =>
    by_cases hsame : a.id = b.id ∧ sort.keyExpr a = sort.keyExpr b
    · have hcb : sort.before c b = true := by
        rw [SortConfig.before_iff] at *
        rw [← hsame.1, ← hsame.2]
        exact hca
      rw [hcb] at hbc
      cases hbc
    · have hlt : sort.before a b = true :=
        (sort.before_total hsame).resolve_right (by rw [hab]; simp)
      rw [sort.before_trans hca hlt] at hbc
      cases hbc

theorem joinedRows_nodup (db : Db) : ((joinedRows db).map Row.id).Nodup := by
  have h := db.profiles.nodup
  unfold joinedRows
  rw [List.map_map]
  exact h

theorem SortConfig.order_perm (sort : SortConfig) (rows : List Row) :
    (sort.order rows).Perm rows := List.perm_insertionSort _ _

theorem SortConfig.mem_order : a ∈ sort.order rows ↔ a ∈ rows := (sort.order_perm rows).mem_iff

/-- Rows with distinct ids are put in the strict order. -/
theorem SortConfig.order_pairwise (h : (rows.map Row.id).Nodup) :
    (sort.order rows).Pairwise fun a b => sort.before a b = true := by
  have : Std.Total fun a b : Row => sort.before b a = false := ⟨fun a b => by
    cases hba : sort.before b a with
    | false => exact .inl rfl
    | true => exact .inr (sort.before_asymm hba)⟩
  have : IsTrans Row fun a b => sort.before b a = false :=
    ⟨fun _ _ _ hab hbc => sort.not_after_trans hab hbc⟩
  have hids : ((sort.order rows).map Row.id).Nodup :=
    ((sort.order_perm rows).map Row.id).nodup_iff.2 h
  have hne : (sort.order rows).Pairwise fun a b => a.id ≠ b.id := List.pairwise_map.1 hids
  have hle : (sort.order rows).Pairwise fun a b => sort.before b a = false :=
    List.pairwise_insertionSort _ _
  refine (hle.and hne).imp fun {a b} ⟨hba, hid⟩ => ?_
  exact (sort.before_total fun h => hid h.1).resolve_right (by rw [hba]; simp)

/-- The order of a selection is the selection of the order. -/
theorem SortConfig.order_filter (h : (rows.map Row.id).Nodup) (p : Row → Bool) :
    sort.order (rows.filter p) = (sort.order rows).filter p := by
  have hirrefl : Std.Irrefl fun a b : Row => sort.before a b = true :=
    ⟨fun a ha => by rw [sort.before_irrefl] at ha; cases ha⟩
  have hsub : ((rows.filter p).map Row.id).Nodup := (List.filter_sublist.map Row.id).nodup h
  have hleft := sort.order_pairwise hsub
  have hright := (sort.order_pairwise h).sublist (List.filter_sublist (p := p))
  have hperm : (sort.order (rows.filter p)).Perm ((sort.order rows).filter p) :=
    (sort.order_perm _).trans ((sort.order_perm rows).symm.filter p)
  refine List.Perm.eq_of_pairwise (fun a b _ _ hab hba => ?_) hleft hright hperm
  rw [sort.before_asymm hab] at hba
  cases hba

/-! ## Pages -/

/-- The rows in the order of the sort. -/
def orderedRows (sort : SortConfig) (db : Db) : List Row := sort.order (joinedRows db)

theorem orderedRows_pairwise (sort : SortConfig) (db : Db) :
    (orderedRows sort db).Pairwise fun a b => sort.before a b = true :=
  sort.order_pairwise (joinedRows_nodup db)

theorem mem_orderedRows {sort : SortConfig} {db : Db} {r : Row} :
    r ∈ orderedRows sort db ↔ r ∈ joinedRows db := sort.mem_order

section

variable {env : Environment} {filters : SearchCandidatesDto} {db : Db}
  {condition : Sql.Condition Row}

theorem fetchRows_eq (condition : Sql.Condition Row) (filters : SearchCandidatesDto) (db : Db) :
    fetchRows condition filters db =
    (((orderedRows (resolveSort filters.sort) db).filter condition.holds).take
      (pageLimit filters + 1)) := by
  unfold fetchRows orderedRows
  rw [SortConfig.order_filter (joinedRows_nodup db)]

/-- The last page shows all the rows that the condition selects. -/
theorem searchCandidates_last (hquery : buildQuery env filters db = .ok condition)
    (hlen : ((orderedRows (resolveSort filters.sort) db).filter condition.holds).length ≤
      pageLimit filters) :
    searchCandidates env filters db =
      .ok ⟨((orderedRows (resolveSort filters.sort) db).filter condition.holds).map
        (preview env db), none⟩ := by
  have hfetch := fetchRows_eq condition filters db
  rw [List.take_of_length_le (by omega)] at hfetch
  simp only [searchCandidates, hquery, hfetch, if_neg (Nat.not_lt.2 hlen)]

/-- A page that is followed by another one. -/
theorem searchCandidates_more (hquery : buildQuery env filters db = .ok condition)
    (hlen : pageLimit filters <
      ((orderedRows (resolveSort filters.sort) db).filter condition.holds).length) :
    searchCandidates env filters db =
      .ok ⟨(((orderedRows (resolveSort filters.sort) db).filter condition.holds).take
          (pageLimit filters)).map (preview env db),
        (((orderedRows (resolveSort filters.sort) db).filter condition.holds).take
          (pageLimit filters)).getLast?.map fun last =>
            encodeCursor ⟨cursorKey env filters.sort last, some last.id⟩⟩ := by
  have hfetch := fetchRows_eq condition filters db
  have hmore : (fetchRows condition filters db).length > pageLimit filters := by
    rw [hfetch, List.length_take]
    omega
  have htake : (fetchRows condition filters db).take (pageLimit filters) =
      ((orderedRows (resolveSort filters.sort) db).filter condition.holds).take
        (pageLimit filters) := by
    rw [hfetch, List.take_take, Nat.min_eq_left (Nat.le_succ _)]
  simp only [searchCandidates, hquery, hmore, if_true, htake]

/-- The rows of a page: the first `limit` of those that the condition selects. -/
theorem searchCandidates_ok {result : SearchCandidatesResult}
    (h : searchCandidates env filters db = .ok result) :
    ∃ condition, buildQuery env filters db = .ok condition ∧
      result.items = ((((orderedRows (resolveSort filters.sort) db).filter condition.holds).take
        (pageLimit filters)).map (preview env db)) := by
  cases hquery : buildQuery env filters db with
  | error e =>
    rw [searchCandidates, hquery] at h
    cases h
  | ok condition =>
    refine ⟨condition, rfl, ?_⟩
    rcases Nat.lt_or_ge (pageLimit filters)
        ((orderedRows (resolveSort filters.sort) db).filter condition.holds).length with hlen | hlen
    · rw [searchCandidates_more hquery hlen] at h
      cases h
      rfl
    · rw [searchCandidates_last hquery hlen] at h
      cases h
      rw [List.take_of_length_le hlen]

end

end

end SearchService

end JobBoard.Cvtheque
