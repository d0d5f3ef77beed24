import JobBoard.Cvtheque.Ownership

/-!
# Alerts and lost matches

A sweep takes for new what was updated after the anchor of a search. A profile that starts
to match is therefore counted by a later sweep if the step that made it match stamped it,
later than the start of every sweep in progress, and if every advance of an anchor is
followed by its notification. A new score that changes no flag stamps nothing.
-/

set_option autoImplicit false

namespace JobBoard.Cvtheque

open Txn Prog Assessments SavedSearchAlertService

/-! ## Matches -/

/-- The profile is among the results of the search with these criteria. -/
def isMatch (env : Environment) (criteria : SavedSearchCriteria) (db : Db) (id : Id) : Bool :=
  match db.profiles.get? id with
  | none => false
  | some p =>
    (SearchService.filterText env criteria.toFilters db).holds (SearchService.joinRow db p)

section

variable {env : Environment} {criteria : SavedSearchCriteria} {db : Db} {id : Id}

/-- A match is a visible profile that satisfies the criteria. -/
theorem isMatch_iff : isMatch env criteria db id = true ↔
    ∃ p, db.profiles.get? id = some p ∧ Visible p ∧
      Satisfies env criteria.toFilters db (SearchService.joinRow db p) ∧
      MatchesQ env criteria.toFilters (SearchService.joinRow db p) := by
  unfold isMatch
  cases db.profiles.get? id with
  | none => exact ⟨(nomatch ·), fun ⟨_, h, _⟩ => nomatch h⟩
  | some p =>
    simp only [SearchService.holds_filterText, Option.some.injEq, exists_eq_left']
    exact Iff.rfl

/-- A match that was updated after the anchor is counted. -/
theorem newMatches_of_isMatch {since : Option Time} {ids : List Id} {p : CandidateProfile}
    (hids : SearchService.newMatches env criteria.toFilters since db = .ok ids)
    (hp : db.profiles.get? id = some p) (hmatch : isMatch env criteria db id = true)
    (hfresh : ∀ a, since = some a → ofDate a < p.updatedAt) : id ∈ ids := by
  have hquery : SearchService.buildQuery env criteria.toFilters db =
      .ok (SearchService.filterText env criteria.toFilters db) :=
    SearchService.buildQuery_no_cursor rfl
  have hconj : (SearchService.filterText env criteria.toFilters db).Conjunctive :=
    SearchService.filterText_conjunctive
  obtain ⟨hmem, hid⟩ := Table.get?_eq_some.1 hp
  have hrow : SearchService.joinRow db p ∈ SearchService.joinedRows db := List.mem_map_of_mem hmem
  simp only [isMatch, hp] at hmatch
  simp only [SearchService.newMatches, hquery, Except.ok.injEq] at hids
  rw [← hids]
  refine List.mem_map.2 ⟨SearchService.joinRow db p, List.mem_filter.2 ⟨hrow, ?_⟩, hid⟩
  cases since with
  | none => exact hmatch
  | some a =>
    rw [Sql.Condition.holds_andWhere hconj (Sql.Condition.conjunctive_atom _), hmatch]
    exact decide_eq_true (hfresh a rfl)

end

/-! ## Rows along a log -/

section

variable {d₀ : Db} {L L' : Log} {id : Id}

/-- No operation changes more of a saved search than its anchor. -/
theorem search_after (db : Db) (w : Write) (id : Id) :
    (store.apply db w).savedSearches.get? id = db.savedSearches.get? id ∨
      ∃ next ids, w = .claimAdvance id next ids ∧ (store.apply db w).savedSearches.get? id =
        (db.savedSearches.get? id).map fun s => { s with lastNotifiedAt := some next } := by
  cases w with
  | claimAdvance searchId next ids =>
    have hrow : (store.apply db (.claimAdvance searchId next ids)).savedSearches.get? id =
        if id = searchId then
          (db.savedSearches.get? id).map fun s => { s with lastNotifiedAt := some next }
        else db.savedSearches.get? id :=
      Table.get?_modify (fun s : SavedSearch => { s with lastNotifiedAt := some next })
        fun _ => rfl
    by_cases hid : id = searchId
    · subst hid
      rw [if_pos rfl] at hrow
      exact .inr ⟨next, ids, rfl, hrow⟩
    · rw [if_neg hid] at hrow
      exact .inl hrow
  | _ => exact .inl rfl

/-- The row is the search, but for the anchor. -/
def SameSearch (x row : SavedSearch) : Prop := { row with lastNotifiedAt := x.lastNotifiedAt } = x

theorem search_kept {x : SavedSearch} (hx : d₀.savedSearches.get? id = some x) (L : Log) :
    ∃ row, (d₀.at L).savedSearches.get? id = some row ∧ SameSearch x row := by
  have hgroup : ∀ (ws : List Write) (db : Db) (row : SavedSearch),
      db.savedSearches.get? id = some row → SameSearch x row →
      ∃ row', (store.applyAll db ws).savedSearches.get? id = some row' ∧ SameSearch x row' := by
    intro ws
    induction ws with
    | nil => exact fun db row hrow hsame => ⟨row, hrow, hsame⟩
    | cons w ws ih =>
      intro db row hrow hsame
      rcases search_after db w id with h | ⟨next, ids, -, h⟩
      · exact ih (store.apply db w) row (h.trans hrow) hsame
      · rw [hrow] at h
        exact ih (store.apply db w) _ h hsame
  induction L using List.reverseRecOn with
  | nil => exact ⟨x, hx, rfl⟩
  | append_singleton L g ih =>
    obtain ⟨row, hrow, hsame⟩ := ih
    rw [at_snoc]
    exact hgroup g.writes _ row hrow hsame

/-- A search that is there was there from the start. -/
theorem search_from_start (h : d₀.savedSearches.get? id = none) (L : Log) :
    (d₀.at L).savedSearches.get? id = none := by
  have hgroup : ∀ (ws : List Write) (db : Db), db.savedSearches.get? id = none →
      (store.applyAll db ws).savedSearches.get? id = none := by
    intro ws
    induction ws with
    | nil => exact fun db h => h
    | cons w ws ih =>
      intro db h
      refine ih (store.apply db w) ?_
      rcases search_after db w id with hw | ⟨next, ids, -, hw⟩
      · exact hw.trans h
      · rw [hw, h]
        rfl
  induction L using List.reverseRecOn with
  | nil => exact h
  | append_singleton L g ih =>
    rw [at_snoc]
    exact hgroup g.writes _ ih

/-- At two moments of two runs from `d₀` a search is the same but for the anchor. -/
theorem search_same {x row : SavedSearch} (hx : (d₀.at L).savedSearches.get? id = some x)
    (hrow : row ∈ (d₀.at L').savedSearches.rows) (hid : row.id = id) : SameSearch x row := by
  have hget : (d₀.at L').savedSearches.get? id = some row := hid ▸ Table.get?_of_mem hrow
  cases hstart : d₀.savedSearches.get? id with
  | none =>
    rw [search_from_start hstart] at hx
    cases hx
  | some x₀ =>
    obtain ⟨x', hx', hsame⟩ := search_kept hstart L
    obtain ⟨row', hrow', hsame'⟩ := search_kept hstart L'
    rw [hx] at hx'
    cases hx'
    rw [hget] at hrow'
    cases hrow'
    exact congrArg (fun y : SavedSearch => { y with lastNotifiedAt := x.lastNotifiedAt })
      (Eq.trans hsame' (Eq.symm hsame))

theorem search_criteria {x row : SavedSearch} (h : SameSearch x row) :
    row.criteria = x.criteria ∧ row.id = x.id ∧ row.ownerUserId = x.ownerUserId ∧
      row.name = x.name := by
  unfold SameSearch at h
  rw [← h]
  exact ⟨rfl, rfl, rfl, rfl⟩

/-- A notification that is written stays. -/
theorem notification_stored {j : Nat} {n : Notification} {searchId : Id} {ids : List Id}
    (h : ⟨j, false, [.insertNotification n searchId ids]⟩ ∈ L) :
    n ∈ (d₀.at L).notifications := by
  have hafter : ∀ (w : Write) (db : Db), n ∈ db.notifications →
      n ∈ (store.apply db w).notifications := by
    intro w db hn
    cases w with
    | insertNotification n' _ _ => exact List.mem_append_left _ hn
    | _ => exact hn
  have hgroup : ∀ (ws : List Write) (db : Db), n ∈ db.notifications →
      n ∈ (store.applyAll db ws).notifications := by
    intro ws
    induction ws with
    | nil => exact fun db hn => hn
    | cons w ws ih => exact fun db hn => ih _ (hafter w db hn)
  induction L using List.reverseRecOn with
  | nil => cases h
  | append_singleton L g ih =>
    rw [at_snoc]
    rcases List.mem_append.1 h with hmem | hmem
    · exact hgroup g.writes _ (ih hmem)
    · cases List.mem_singleton.1 hmem
      exact List.mem_append_right _ (List.mem_singleton_self n)

theorem profile_kept {p : CandidateProfile} (hp : (d₀.at L).profiles.get? id = some p)
    (ws : List Write) : ∃ p', (store.applyAll (d₀.at L) ws).profiles.get? id = some p' := by
  generalize d₀.at L = db at hp
  induction ws generalizing db p with
  | nil => exact ⟨p, hp⟩
  | cons w ws ih => exact ih _ (profile_after hp w)

end

/-! ## The condition -/

/-- The instant is later than the anchor of the search and than each start that a sweep has
read for it. -/
def laterThanStarts (log : Log) (x : SavedSearch) (t : Micros) : Bool :=
  (x.lastNotifiedAt.all fun a => ofDate a < t) &&
    log.all fun g => g.writes.all fun w =>
      match w with
      | .trace (.started searchId sweepStart) => searchId ≠ x.id || ofDate sweepStart < t
      | _ => true

/-- The profile starts to match the search, after the anchor of the search. -/
def startsMatching (env : Environment) (db db' : Db) (x : SavedSearch) (id : Id) : Bool :=
  x.alertEnabled && (x.lastNotifiedAt.all fun a => ofDate a < db.clock) &&
    !isMatch env x.criteria db id && isMatch env x.criteria db' id

/-- From `db` to `db'` no profile loses its date of update, and one that starts to match is
stamped. -/
def startsStamped (env : Environment) (log : Log) (db db' : Db) : Bool :=
  db'.profiles.rows.all fun p' =>
    ((db.profiles.get? p'.id).all fun p => p.updatedAt ≤ p'.updatedAt) &&
      db.savedSearches.rows.all fun x =>
        !startsMatching env db db' x p'.id || laterThanStarts log x p'.updatedAt

/-- The last statement of the call is the advance of an anchor: its notification is still to
be written. -/
def awaitsNotification (log : Log) (i : Nat) : Bool :=
  match (log.filter (·.call == i)).getLast? with
  | some ⟨_, _, [.claimAdvance _ _ _]⟩ => true
  | _ => false

def isNotification : List Write → Bool
  | [.insertNotification _ _ _] => true
  | _ => false

/-- A step stamps the profiles that start to match, and after the advance of an anchor the
next step of the sweep writes the notification, without fail. -/
def alertsKept (env : Environment) (s : RunState) : Label Error Op → Bool
  | .spawn _ => true
  | .step i => startsStamped env s.log s.db (store.applyAll s.db (s.issues i)) &&
      (!awaitsNotification s.log i || isNotification (s.issues i))
  | .fault i _ => !awaitsNotification s.log i

section

variable {env : Environment} {d₀ : Db} {L l m : Log} {id : Id} {x : SavedSearch}

theorem startsStamped_mono {db db' : Db} (h : startsStamped env L db db' = true)
    {p p' : CandidateProfile} (hp : db.profiles.get? id = some p)
    (hp' : db'.profiles.get? id = some p') : p.updatedAt ≤ p'.updatedAt := by
  obtain ⟨hmem, hid⟩ := Table.get?_eq_some.1 hp'
  have hall := List.all_eq_true.1 h p' hmem
  rw [Bool.and_eq_true] at hall
  have hmono := hall.1
  rw [show p'.id = id from hid, hp] at hmono
  exact of_decide_eq_true hmono

theorem startsStamped_later {db db' : Db} (h : startsStamped env L db db' = true)
    (hx : db.savedSearches.get? x.id = some x) (hstart : startsMatching env db db' x id = true)
    {p' : CandidateProfile} (hp' : db'.profiles.get? id = some p') :
    laterThanStarts L x p'.updatedAt = true := by
  obtain ⟨hmem, hid⟩ := Table.get?_eq_some.1 hp'
  have hall := List.all_eq_true.1 h p' hmem
  rw [Bool.and_eq_true] at hall
  have hlater := List.all_eq_true.1 hall.2 x (Table.mem_of_get? hx)
  rw [show p'.id = id from hid, hstart] at hlater
  exact hlater

theorem laterThanStarts_anchor {t : Micros} (h : laterThanStarts L x t = true) {a : Time}
    (ha : x.lastNotifiedAt = some a) : ofDate a < t := by
  simp only [laterThanStarts, ha, Bool.and_eq_true] at h
  exact of_decide_eq_true h.1

theorem laterThanStarts_start {t : Micros} (h : laterThanStarts L x t = true) {A : Log} {i : Nat}
    {sweepStart : Time} (hs : PublishedAt L A i (.trace (.started x.id sweepStart))) :
    ofDate sweepStart < t := by
  simp only [laterThanStarts, Bool.and_eq_true] at h
  obtain ⟨B, rfl⟩ := hs
  have hall := List.all_eq_true.1 (List.all_eq_true.1 h.2 _ (List.mem_append_right A
    List.mem_cons_self)) _ (List.mem_singleton_self _)
  simpa using hall

/-! ## The last statement of a call -/

/-- The last group of the call in the log. -/
def lastOf (log : Log) (i : Nat) : Option (Txn.Group Write) := (log.filter (·.call == i)).getLast?

theorem lastOf_append {A B : Log} {g : Txn.Group Write} {i : Nat} (hi : g.call = i)
    (hB : ∀ g' ∈ B, g'.call ≠ i) : lastOf (A ++ g :: B) i = some g := by
  have hnone : B.filter (·.call == i) = [] := by
    simpa only [List.filter_eq_nil_iff, beq_iff_eq] using hB
  simp [lastOf, List.filter_append, hnone, hi]

theorem lastOf_other {A B : Log} {i : Nat} (hB : ∀ g ∈ B, g.call ≠ i) :
    lastOf (A ++ B) i = lastOf A i := by
  have hnone : B.filter (·.call == i) = [] := by
    simpa only [List.filter_eq_nil_iff, beq_iff_eq] using hB
  simp [lastOf, List.filter_append, hnone]

theorem first_of_call {B : Log} {i : Nat} (h : ¬ ∀ g ∈ B, g.call ≠ i) :
    ∃ g B' B'', B = B' ++ g :: B'' ∧ g.call = i ∧ ∀ g' ∈ B', g'.call ≠ g.call := by
  induction B with
  | nil => exact absurd (fun _ hg => nomatch hg) h
  | cons g B ih =>
    by_cases hg : g.call = i
    · exact ⟨g, [], B, rfl, hg, fun _ hg' => nomatch hg'⟩
    · have hB : ¬ ∀ g' ∈ B, g'.call ≠ i := fun hB => h (List.forall_mem_cons.2 ⟨hg, hB⟩)
      obtain ⟨g', B', B'', rfl, rfl, hB'⟩ := ih hB
      exact ⟨g', g :: B', B'', rfl, rfl, List.forall_mem_cons.2 ⟨hg, hB'⟩⟩

theorem awaitsNotification_iff {i : Nat} : awaitsNotification L i = true ↔
    ∃ searchId next ids tx call,
      lastOf L i = some ⟨call, tx, [.claimAdvance searchId next ids]⟩ := by
  unfold awaitsNotification lastOf
  constructor
  · intro h
    split at h
    · next call tx searchId next ids he => exact ⟨searchId, next, ids, tx, call, he⟩
    · cases h
  · rintro ⟨searchId, next, ids, tx, call, he⟩
    rw [he]

end

/-! ## Runs -/

section

variable {config : Config} {env : Environment} {d₀ : Db} {s s' : RunState}
  {l m n r : Log} {g : Txn.Group Write} {id : Id} {x : SavedSearch}

theorem running_of_issues {i : Nat} (hn : (system config env).next s (.step i) = some s')
    (h : s.issues i ≠ []) : (s'.call i).isRunning = true := by
  simp only [System.next] at hn
  split at hn
  · next tx p hcall =>
    simp only [State.issues, hcall] at h
    cases tx with
    | some tx => exact absurd rfl h
    | none =>
      cases p with
      | ret a => exact absurd rfl h
      | throw e => exact absurd rfl h
      | openTx h' k => exact absurd rfl h
      | commit k => exact absurd rfl h
      | stmt w k =>
        simp only [System.stepCall] at hn
        split at hn
        · cases hn
          rw [State.set_self]
          rfl
        · cases hn
      | aside w k =>
        simp only [System.stepCall] at hn
        split at hn
        · cases hn
          rw [State.set_self]
          rfl
        · cases hn
  · cases hn

/-- A sweep that has a notification to write is still running. -/
theorem running_of_awaits
    (h : (system config env).Within (fun s l => alertsKept env s l = true) d₀ s) {i : Nat}
    (hi : awaitsNotification s.log i = true) : (s.call i).isRunning = true := by
  induction h with
  | init => cases hi
  | @step s s' lb hw hok hn ih =>
    have hlog := (kept hw).next_log hn
    -- a step of another call
    have other : ∀ {k}, i ≠ k → s.Frame k s' → (s'.call i).isRunning = true := by
      intro k hik hframe
      obtain ⟨gs, hgs, hown⟩ := hframe.log
      rw [hframe.call i hik]
      refine ih ?_
      have hsame : lastOf s'.log i = lastOf s.log i := by
        rw [hgs]
        exact lastOf_other fun g hg => by rw [hown g hg]; exact Ne.symm hik
      rw [awaitsNotification_iff] at hi ⊢
      rwa [hsame] at hi
    cases lb with
    | spawn op =>
      cases hn
      rw [State.set_log] at hi
      have hrun := ih hi
      have hne : i ≠ s.ops.length := by
        rintro rfl
        rw [hw.reachable.fresh.idle _ (Nat.le_refl _)] at hrun
        cases hrun
      rw [State.set_other hne]
      exact hrun
    | fault j e =>
      have hsame : s'.log = s.log := hlog.resolve_right (by rintro ⟨_, _, he, _⟩; cases he)
      simp only [System.next] at hn
      split at hn
      · split at hn
        · by_cases hij : i = j
          · subst hij
            simp only [alertsKept, Bool.not_eq_true'] at hok
            rw [hsame, hok] at hi
            cases hi
          · exact other hij (System.faultCall_frame hn)
        · cases hn
      · cases hn
    | step j =>
      by_cases hij : i = j
      · subst hij
        by_cases hissues : s.issues i = []
        · have hsame : s'.log = s.log := by
            refine hlog.resolve_right ?_
            rintro ⟨k, _, he, _, hne, _⟩
            cases he
            exact hne hissues
          simp only [alertsKept, Bool.and_eq_true, Bool.or_eq_true, Bool.not_eq_true'] at hok
          rw [hsame] at hi
          rcases hok.2 with hno | hyes
          · rw [hno] at hi
            cases hi
          · rw [hissues] at hyes
            cases hyes
        · exact running_of_issues hn hissues
      · have hcall := hn
        simp only [System.next] at hcall
        split at hcall
        · exact other hij (System.stepCall_frame hcall)
        · cases hcall

/-- What the condition says of a group. -/
theorem stamped (h : (system config env).Within (fun s l => alertsKept env s l = true) d₀ s)
    (hlog : s.log = l ++ g :: r) :
    startsStamped env l (d₀.at l) (d₀.at (l ++ [g])) = true ∧
      (awaitsNotification l g.call = true → isNotification g.writes = true) := by
  obtain ⟨_, _, hP⟩ := (history config env d₀ _).logged trivial
    (P := fun i _ L ws => startsStamped env L (d₀.at L) (store.applyAll (d₀.at L) ws) = true ∧
      (awaitsNotification L i = true → isNotification ws = true))
    (fun {s i _} _ hk hok _ => by
      simp only [alertsKept, Bool.and_eq_true, Bool.or_eq_true, Bool.not_eq_true'] at hok
      rw [hk.db] at hok
      refine ⟨hok.1, fun hawaits => ?_⟩
      rcases hok.2 with hno | hyes
      · rw [hno] at hawaits
        cases hawaits
      · exact hyes) h hlog
  rw [at_snoc]
  exact hP

/-- Each group is a single statement, as it is guaranteed. -/
theorem guaranteed {ok : RunState → Label Error Op → Prop}
    (h : (system config env).Within ok d₀ s) (hlog : s.log = l ++ g :: r) :
    ∃ op w, g = ⟨g.call, false, [w]⟩ ∧ Guarantee env d₀ g.call op l w := by
  obtain ⟨htx, op, -, -, w, hwrites, hw⟩ := (kept h).log hlog
  refine ⟨op, w, ?_, hw⟩
  rw [← hwrites, ← htx]

/-- A profile stays, and its date of update does not go back. -/
theorem updated_mono (h : (system config env).Within (fun s l => alertsKept env s l = true) d₀ s)
    {p : CandidateProfile} (hp : (d₀.at l).profiles.get? id = some p) (hlog : s.log = l ++ m ++ r) :
    ∃ p', (d₀.at (l ++ m)).profiles.get? id = some p' ∧ p.updatedAt ≤ p'.updatedAt := by
  induction m using List.reverseRecOn generalizing r with
  | nil => exact ⟨p, by rwa [List.append_nil], Int.le_refl _⟩
  | append_singleton m g ih =>
    have hlog' : s.log = l ++ m ++ g :: r := by
      rw [hlog]
      simp
    obtain ⟨p', hp', hle⟩ := ih hlog'
    obtain ⟨p'', hp''⟩ := profile_kept hp' g.writes
    rw [← at_snoc, List.append_assoc] at hp''
    have hstamped := (stamped h hlog').1
    rw [List.append_assoc] at hstamped
    exact ⟨p'', hp'', Int.le_trans hle (startsStamped_mono hstamped hp' hp'')⟩

/-- A statement of the log before the step `g`, or after it. -/
theorem publishedAt_around {C : Log} {j : Nat} {w : Write}
    (h : PublishedAt (l ++ g :: n) C j w) :
    C <+: l ∨ ∃ as, C = l ++ g :: as ∧ as <+: n := by
  obtain ⟨B, hB⟩ := h
  rcases List.append_eq_append_iff.1 hB with ⟨as, rfl, has⟩ | ⟨cs, rfl, -⟩
  · cases as with
    | nil => exact .inl (by simp)
    | cons g' as =>
      rw [List.cons_append, List.cons.injEq] at has
      obtain ⟨rfl, has⟩ := has
      exact .inr ⟨as, rfl, has ▸ List.prefix_append _ _⟩
  · exact .inl (List.prefix_append _ _)

/-- A call that starts after the step `g` publishes nothing before. -/
theorem publishedAt_after {C : Log} {j : Nat} {w : Write} (hj : ∀ g' ∈ l ++ [g], g'.call ≠ j)
    (h : PublishedAt (l ++ g :: n) C j w) : ∃ as, C = l ++ g :: as ∧ as <+: n := by
  obtain ⟨B, hB⟩ := h
  have hB' : l ++ [g] ++ n = C ++ ⟨j, false, [w]⟩ :: B := by
    rw [← hB]
    simp
  rcases List.append_eq_append_iff.1 hB' with ⟨as, rfl, has⟩ | ⟨cs, hcs, hn⟩
  · exact ⟨as, by simp, has ▸ List.prefix_append _ _⟩
  · cases cs with
    | nil => exact ⟨[], by simpa using hcs.symm, List.nil_prefix⟩
    | cons g' cs =>
      rw [List.cons_append, List.cons.injEq] at hn
      obtain ⟨rfl, -⟩ := hn
      exact absurd rfl (hj ⟨j, false, [w]⟩ (hcs ▸ by simp))

/-- The profile `id` starts to match the search at the step `g`, and matches as long as the
groups `m` are published. -/
structure Matching (env : Environment) (d₀ : Db) (x : SavedSearch) (id : Id) (l : Log)
    (g : Txn.Group Write) (m : Log) : Prop where
  search : (d₀.at l).savedSearches.get? x.id = some x
  starts : startsMatching env (d₀.at l) (d₀.at (l ++ [g])) x id = true
  still : ∀ n, n <+: m → isMatch env x.criteria (d₀.at (l ++ g :: n)) id = true

/-- Some sweep has advanced the anchor of the search, after it counted the profile. -/
def Claimed (x : SavedSearch) (id : Id) (n : Log) : Prop :=
  ∃ j next ids, ⟨j, false, [.claimAdvance x.id next ids]⟩ ∈ n ∧ id ∈ ids

theorem Claimed.mono {n' : Log} (h : Claimed x id n) (hn : ∀ g ∈ n, g ∈ n') : Claimed x id n' := by
  obtain ⟨j, next, ids, hmem, hid⟩ := h
  exact ⟨j, next, ids, hn _ hmem, hid⟩

/-- The anchor of the search is earlier than `u`. -/
def AnchorBefore (d : Db) (x : SavedSearch) (u : Micros) : Prop :=
  ∀ row, d.savedSearches.get? x.id = some row → ∀ a, row.lastNotifiedAt = some a → ofDate a < u

section

variable (h : (system config env).Within (fun s l => alertsKept env s l = true) d₀ s)
  (hlog : s.log = l ++ g :: (m ++ r)) (hm : Matching env d₀ x id l g m)
  {p : CandidateProfile} (hp : (d₀.at (l ++ [g])).profiles.get? id = some p)

include h hlog hm hp

theorem later_than_starts : laterThanStarts l x p.updatedAt = true :=
  startsStamped_later (stamped h hlog).1 hm.search hm.starts hp

/-- After the step the anchor is the one that the update is later than. -/
theorem anchorBefore_start : AnchorBefore (d₀.at (l ++ [g])) x p.updatedAt := by
  intro row hrow a ha
  obtain ⟨op, w, hg, hw⟩ := guaranteed h hlog
  rw [at_snoc, hg] at hrow
  rcases search_after (d₀.at l) w x.id with hsame | ⟨next, ids, rfl, -⟩
  · rw [Store.applyAll_cons, Store.applyAll_nil, hsame, hm.search] at hrow
    cases hrow
    exact laterThanStarts_anchor (later_than_starts h hlog hm hp) ha
  · -- the advance of an anchor makes no profile match
    have hstart := hm.starts
    rw [at_snoc, hg] at hstart
    simp only [startsMatching, Bool.and_eq_true, Bool.not_eq_true'] at hstart
    have hsame : isMatch env x.criteria
        (store.applyAll (d₀.at l) [.claimAdvance x.id next ids]) id =
          isMatch env x.criteria (d₀.at l) id := rfl
    rw [hsame, hstart.1.2] at hstart
    cases hstart.2

/-- A count after the step, from an anchor before the update. -/
theorem counted_of_anchorBefore {as : Log} (has : as <+: m) {row : SavedSearch}
    {since : Option Time} {ids : List Id} (hcriteria : row.criteria = x.criteria)
    (hsince : ∀ a, since = some a → ofDate a < p.updatedAt)
    (hids : SearchService.newMatches env row.criteria.toFilters since
      (d₀.at (l ++ g :: as)) = .ok ids) : id ∈ ids := by
  obtain ⟨bs, rfl⟩ := has
  have hlog' : s.log = l ++ [g] ++ as ++ (bs ++ r) := by
    rw [hlog]
    simp
  obtain ⟨p', hp', hle⟩ := updated_mono h hp hlog'
  rw [List.append_assoc] at hp'
  rw [hcriteria] at hids
  exact newMatches_of_isMatch hids hp' (hm.still as (List.prefix_append _ _)) fun a ha =>
    Int.lt_of_lt_of_le (hsince a ha) hle

/-- An advance that was counted before the step leaves the anchor before the update; one that
was counted after it has counted the profile. -/
theorem claim_after_start (hn : n <+: m) {j : Nat} {next : Time} {ids : List Id}
    (hclaim : Claiming env d₀ j (l ++ g :: n) x.id next ids)
    (hanchor : AnchorBefore (d₀.at (l ++ g :: n)) x p.updatedAt) :
    id ∈ ids ∨ ofDate next < p.updatedAt := by
  obtain ⟨search, C, row, hid, hcountedAt, hcounting, -, hrow, hsince⟩ := hclaim
  rcases publishedAt_around hcountedAt with hC | ⟨as, rfl, has⟩
  · right
    obtain ⟨B, hstarted⟩ := hcounting.started
    rw [hid] at hstarted
    exact laterThanStarts_start (later_than_starts h hlog hm hp) (hstarted.mono hC)
  · left
    obtain ⟨A, ss, hA, hsearch⟩ := hcounting.loaded
    obtain ⟨cs, rfl⟩ := has
    have hcriteria : search.criteria = x.criteria :=
      (search_criteria (search_same hm.search (List.mem_filter.1 hsearch).1 hid)).1
    refine counted_of_anchorBefore h hlog hm hp ((List.prefix_append _ _).trans hn) hcriteria
      (fun a ha => hanchor row hrow a (hsince.trans ha)) hcounting.counted

/-- Until an advance has counted the profile, the anchor is before its update. -/
theorem claimed_or_anchorBefore (hn : n <+: m) :
    Claimed x id n ∨ AnchorBefore (d₀.at (l ++ g :: n)) x p.updatedAt := by
  induction n using List.reverseRecOn with
  | nil => exact .inr (anchorBefore_start h hlog hm hp)
  | append_singleton n c ih =>
    have hn' : n <+: m := (List.prefix_append n [c]).trans hn
    rcases ih hn' with hclaimed | hanchor
    · exact .inl (hclaimed.mono fun _ hmem => List.mem_append_left _ hmem)
    · obtain ⟨bs, hbs⟩ := hn
      have hlog' : s.log = l ++ g :: n ++ c :: (bs ++ r) := by
        rw [hlog, ← hbs]
        simp
      obtain ⟨op, w, hc, hw⟩ := guaranteed h hlog'
      rw [← List.cons_append, ← List.append_assoc, at_snoc, hc]
      rcases search_after (d₀.at (l ++ g :: n)) w x.id with hsame | ⟨next, ids, rfl, hrow⟩
      · right
        intro row hrow
        rw [Store.applyAll_cons, Store.applyAll_nil, hsame] at hrow
        exact hanchor row hrow
      · rcases claim_after_start h hlog hm hp hn' hw hanchor with hmem | hlt
        · exact .inl ⟨c.call, next, ids, by simp, hmem⟩
        · right
          intro row hrow' a ha
          rw [Store.applyAll_cons, Store.applyAll_nil, hrow] at hrow'
          obtain ⟨row₀, -, rfl⟩ := Option.map_eq_some_iff.1 hrow'
          cases ha
          exact hlt

/-- A sweep that starts after the step counts the profile, or comes after an advance that has
counted it. -/
theorem counting_after_start {j : Nat} (hj : ∀ g' ∈ l ++ [g], g'.call ≠ j) (hn : n <+: m)
    {search : SavedSearch} {sweepStart : Time} {ids : List Id} (hid : search.id = x.id)
    (hcounting : Counting env d₀ j (l ++ g :: n) search sweepStart ids) :
    Claimed x id n ∨ id ∈ ids := by
  obtain ⟨A, ss, hA, hsearch⟩ := hcounting.loaded
  obtain ⟨hmem, -⟩ := List.mem_filter.1 hsearch
  obtain ⟨as, rfl, has⟩ := publishedAt_after hj hA
  rcases claimed_or_anchorBefore h hlog hm hp (has.trans hn) with hclaimed | hanchor
  · exact .inl (hclaimed.mono fun _ hc => has.subset hc)
  · right
    refine counted_of_anchorBefore h hlog hm hp hn
      (search_criteria (search_same hm.search hmem hid)).1 ?_ hcounting.counted
    exact fun a ha => hanchor search (hid ▸ Table.get?_of_mem hmem) a ha

end

/-- The statement handles the search: the sweep counts nothing new, or advances the anchor. -/
def Handles (x : SavedSearch) (ws : List Write) : Prop :=
  ws = [.trace (.counted x.id [])] ∨ ∃ next ids, ws = [.claimAdvance x.id next ids]

/-- When a sweep that starts after the step has handled the search, an advance has counted the
profile. -/
theorem claimed_of_handled {e : Txn.Group Write}
    (h : (system config env).Within (fun s l => alertsKept env s l = true) d₀ s)
    (hlog : s.log = l ++ g :: (m ++ e :: r)) (hm : Matching env d₀ x id l g m)
    (hstart : ∀ g' ∈ l ++ [g], g'.call ≠ e.call) (he : Handles x e.writes) :
    Claimed x id (m ++ [e]) := by
  obtain ⟨p, hp⟩ : ∃ p, (d₀.at (l ++ [g])).profiles.get? id = some p := by
    obtain ⟨p, hp, -⟩ := isMatch_iff.1 (hm.still [] List.nil_prefix)
    exact ⟨p, hp⟩
  have hlog' : s.log = l ++ g :: m ++ e :: r := by
    rw [hlog]
    simp
  obtain ⟨op, w, hwrites, hw⟩ := guaranteed h hlog'
  have hwrites' : e.writes = [w] := by rw [hwrites]
  rcases he with hcounted | ⟨next, ids, hclaim⟩
  · rw [hwrites', List.cons.injEq] at hcounted
    obtain ⟨rfl, -⟩ := hcounted
    obtain ⟨search, sweepStart, hid, hcounting⟩ := hw
    rcases counting_after_start h hlog hm hp hstart List.prefix_rfl hid hcounting with
      hclaimed | hmem
    · exact hclaimed.mono fun _ hc => List.mem_append_left _ hc
    · cases hmem
  · rw [hwrites', List.cons.injEq] at hclaim
    obtain ⟨rfl, -⟩ := hclaim
    obtain ⟨search, C, row, hid, hC, hcounting, -⟩ := hw
    obtain ⟨cs, rfl, hcs⟩ := publishedAt_after hstart hC
    rcases counting_after_start h hlog hm hp hstart hcs hid hcounting with hclaimed | hmem
    · exact hclaimed.mono fun _ hc => List.mem_append_left _ (hcs.subset hc)
    · exact ⟨e.call, next, ids, by rw [← hwrites]; simp, hmem⟩

/-- After the advance of an anchor the sweep writes its notification, if it is not left with
that to do. -/
theorem notified_of_claim {A B : Log} {j : Nat} {next : Time} {ids : List Id}
    (h : (system config env).Within (fun s l => alertsKept env s l = true) d₀ s)
    (hlog : s.log = A ++ ⟨j, false, [.claimAdvance x.id next ids]⟩ :: B)
    (hx : (d₀.at l).savedSearches.get? x.id = some x)
    (hdone : (s.call j).isRunning = true → awaitsNotification s.log j = false) :
    ⟨j, false, [.insertNotification (alertOf x ids.length) x.id ids]⟩ ∈ B := by
  by_cases hB : ∀ g' ∈ B, g'.call ≠ j
  · -- the advance would be the last statement of the sweep
    have hlast : lastOf s.log j = some ⟨j, false, [.claimAdvance x.id next ids]⟩ :=
      hlog ▸ lastOf_append rfl hB
    have hawaits : awaitsNotification s.log j = true :=
      awaitsNotification_iff.2 ⟨_, _, _, _, _, hlast⟩
    rw [hdone (running_of_awaits h hawaits)] at hawaits
    cases hawaits
  · obtain ⟨g', B', B'', rfl, hcall, hB'⟩ := first_of_call hB
    subst hcall
    have hlog' : s.log =
        A ++ ⟨g'.call, false, [.claimAdvance x.id next ids]⟩ :: B' ++ g' :: B'' := by
      rw [hlog]
      simp
    have hlast : lastOf (A ++ ⟨g'.call, false, [.claimAdvance x.id next ids]⟩ :: B') g'.call =
        some ⟨g'.call, false, [.claimAdvance x.id next ids]⟩ := lastOf_append rfl hB'
    obtain ⟨op, w, hg', hw⟩ := guaranteed h hlog'
    have hnotification := (stamped h hlog').2 (awaitsNotification_iff.2 ⟨_, _, _, _, _, hlast⟩)
    have hwrites : g'.writes = [w] := by rw [hg']
    rw [hwrites] at hnotification
    cases w with
    | insertNotification n searchId ids' =>
      obtain ⟨search, A', C, sweepStart, hid, hA', hC, -, ⟨D, hsearch⟩, rfl⟩ := hw
      have hlast' : lastOf (A ++ ⟨g'.call, false, [.claimAdvance x.id next ids]⟩ :: B') g'.call =
          some ⟨g'.call, false, [.claimAdvance searchId sweepStart ids']⟩ :=
        hA' ▸ lastOf_append rfl hC
      rw [hlast'] at hlast
      simp only [Option.some.injEq, Txn.Group.mk.injEq, List.cons.injEq, Write.claimAdvance.injEq,
        and_true, true_and] at hlast
      obtain ⟨rfl, -, rfl⟩ := hlast
      have hsame := search_criteria (search_same hx (List.mem_filter.1 hsearch).1 hid)
      have halert : alertOf search ids'.length = alertOf x ids'.length := by
        simp only [alertOf, hsame.2.2.1, hsame.2.2.2]
      rw [halert] at hg'
      exact List.mem_append_right _ (hg' ▸ List.mem_cons_self)
    | _ => cases hnotification

/-- A profile that starts to match a search with alerts, and still does when a later sweep
handles the search, is counted in a notification. -/
theorem matches_notified {e : Txn.Group Write}
    (h : (system config env).Within (fun s l => alertsKept env s l = true) d₀ s)
    (hlog : s.log = l ++ g :: (m ++ e :: r)) (hm : Matching env d₀ x id l g m)
    (hstart : ∀ g' ∈ l ++ [g], g'.call ≠ e.call) (he : Handles x e.writes)
    (hdone : ∀ j, (s.call j).isRunning = true → awaitsNotification s.log j = false) :
    ∃ j ids, ⟨j, false, [.insertNotification (alertOf x ids.length) x.id ids]⟩ ∈ m ++ e :: r ∧
      alertOf x ids.length ∈ s.db.notifications ∧ id ∈ ids := by
  obtain ⟨j, next, ids, hmem, hid⟩ := claimed_of_handled h hlog hm hstart he
  obtain ⟨A, B, hsplit⟩ := List.append_of_mem hmem
  have hlog' : s.log =
      l ++ g :: A ++ ⟨j, false, [.claimAdvance x.id next ids]⟩ :: (B ++ r) := by
    have : m ++ e :: r = m ++ [e] ++ r := by simp
    rw [hlog, this, hsplit]
    simp
  have hnotified := notified_of_claim h hlog' hm.search (hdone j)
  have hlater : ⟨j, false, [.insertNotification (alertOf x ids.length) x.id ids]⟩ ∈
      m ++ e :: r := by
    have : m ++ e :: r = m ++ [e] ++ r := by simp
    rw [this, hsplit]
    simp only [List.append_assoc, List.cons_append, List.mem_append, List.mem_cons] at hnotified ⊢
    rcases hnotified with hB | hr
    · exact .inr (.inr (.inl hB))
    · exact .inr (.inr (.inr hr))
  refine ⟨j, ids, hlater, ?_, hid⟩
  rw [(kept h).db]
  exact notification_stored (hlog ▸ List.mem_append_right _ (List.mem_cons_of_mem _ hlater))

end

/-! ## Lost matches -/

section

variable {config : Config} {env : Environment} {d₀ : Db} {s : RunState}

theorem none_running (h : (system config env).Reachable d₀ s)
    (hall : ∀ j < s.ops.length, (s.call j).isRunning = false) (j : Nat) :
    (s.call j).isRunning = false := by
  by_cases hj : j < s.ops.length
  · exact hall j hj
  · rw [h.fresh.idle j (Nat.le_of_not_lt hj)]
    rfl

/-- A way to see that a profile matches, on a log that is evaluated. -/
theorem matching_of_take {l m r : Log} {g : Txn.Group Write} {id : Id} {x : SavedSearch}
    (hsearch : (d₀.at ((l ++ g :: (m ++ r)).take l.length)).savedSearches.get? x.id = some x)
    (hstarts : startsMatching env (d₀.at ((l ++ g :: (m ++ r)).take l.length))
      (d₀.at ((l ++ g :: (m ++ r)).take (l.length + 1))) x id = true)
    (hstill : ∀ k ≤ m.length,
      isMatch env x.criteria (d₀.at ((l ++ g :: (m ++ r)).take (l.length + 1 + k))) id = true) :
    Matching env d₀ x id l g m := by
  have hbefore : (l ++ g :: (m ++ r)).take l.length = l := List.take_left
  have hafter : ∀ k ≤ m.length,
      (l ++ g :: (m ++ r)).take (l.length + 1 + k) = l ++ g :: m.take k := by
    intro k hk
    rw [Nat.add_assoc, List.take_length_add_append, Nat.add_comm 1 k, List.take_succ_cons,
      List.take_append_of_le_length hk]
  rw [hbefore] at hsearch hstarts
  rw [hafter 0 (Nat.zero_le _), List.take_zero] at hstarts
  refine ⟨hsearch, hstarts, fun n hn => ?_⟩
  have hmatch := hstill n.length hn.length_le
  rwa [hafter n.length hn.length_le, ← List.prefix_iff_eq_take.1 hn] at hmatch

end

/-- A search with alerts, whose owner was notified at 1 ms. -/
def sampleSavedSearch (scoreMin : Option Decimal) : SavedSearch :=
  ⟨1, 7, "Score", ⟨none, none, scoreMin, none, none, none⟩, true, some 1⟩

/-- A suspended profile, and a search without a filter. -/
def suspendedProfile : Db :=
  { Db.empty with
    clock := 5500
    profiles := ⟨[{ CandidateProfileService.newProfile 1 1 0 with
      visibility := .publicVisibility
      completeness := 80
      moderationStatus := .suspended
      indexedInCvtheque := true }], by decide⟩
    savedSearches := ⟨[sampleSavedSearch none], by decide⟩ }

/-- The suspension is lifted, and then the searches are swept. -/
def reinstatedThenSwept : List (Label Error Op) :=
  .spawn (.setModeration 1 .active 9) :: steps 0 5 ++ .spawn (.runAlertSweep []) :: steps 1 6

def isAdvance : List Write → Bool
  | [.claimAdvance 1 _ _] => true
  | _ => false

def countsNothing : List Write → Bool
  | [.trace (.counted 1 [])] => true
  | _ => false

/-- The notification of the profile that is reinstated. -/
theorem matches_notified_reinstated : ∃ s : RunState,
    s.db = suspendedProfile.at s.log ∧
      isMatch SearchService.sampleEnvironment (sampleSavedSearch none).criteria
        (suspendedProfile.at []) 1 = false ∧
      ∃ ids : List Id,
        1 ∈ ids ∧ alertOf (sampleSavedSearch none) ids.length ∈ s.db.notifications := by
  have hrun : (((system Config.default SearchService.sampleEnvironment).runIf
      (alertsKept SearchService.sampleEnvironment) (State.init suspendedProfile)
      reinstatedThenSwept).map fun s =>
        decide (s.log.map (·.call) = [0, 0, 1, 1, 1, 1, 1] ∧
          (s.log.map fun g => isAdvance g.writes)[5]? = some true ∧
          (∀ j : Nat, j < s.ops.length → (s.call j).isRunning = false) ∧
          (suspendedProfile.at (s.log.take 0)).savedSearches.get? 1 =
            some (sampleSavedSearch none) ∧
          startsMatching SearchService.sampleEnvironment (suspendedProfile.at (s.log.take 0))
            (suspendedProfile.at (s.log.take 1)) (sampleSavedSearch none) 1 = true ∧
          ∀ k : Nat, k ≤ 4 → isMatch SearchService.sampleEnvironment
            (sampleSavedSearch none).criteria
            (suspendedProfile.at (s.log.take (0 + 1 + k))) 1 = true)) = some true := by decide
  obtain ⟨s, hs, he⟩ := System.within_of_run hrun
  obtain ⟨hcalls, hadvance, hidle, hsearch, hstarts, hstill⟩ := of_decide_eq_true he
  obtain ⟨g₀, l₀, hlog, hcall₀, hcalls⟩ := List.map_eq_cons_iff.1 hcalls
  obtain ⟨g₁, l₁, rfl, -, hcalls⟩ := List.map_eq_cons_iff.1 hcalls
  obtain ⟨g₂, l₂, rfl, -, hcalls⟩ := List.map_eq_cons_iff.1 hcalls
  obtain ⟨g₃, l₃, rfl, -, hcalls⟩ := List.map_eq_cons_iff.1 hcalls
  obtain ⟨g₄, l₄, rfl, -, hcalls⟩ := List.map_eq_cons_iff.1 hcalls
  obtain ⟨e, r, rfl, hcall, -⟩ := List.map_eq_cons_iff.1 hcalls
  rw [hlog] at hadvance hsearch hstarts hstill
  have hm : Matching SearchService.sampleEnvironment suspendedProfile (sampleSavedSearch none) 1 []
      g₀ [g₁, g₂, g₃, g₄] := matching_of_take (r := e :: r) hsearch hstarts hstill
  have hstart : ∀ g' ∈ ([] ++ [g₀] : Log), g'.call ≠ e.call := by
    rintro g' hg'
    rw [List.mem_singleton.1 hg', hcall₀, hcall]
    decide
  have he : Handles (sampleSavedSearch none) e.writes := by
    simp only [List.map_cons, List.getElem?_cons_succ, List.getElem?_cons_zero,
      Option.some.injEq] at hadvance
    unfold isAdvance at hadvance
    split at hadvance
    · next next ids hwrites => exact .inr ⟨next, ids, hwrites⟩
    · cases hadvance
  obtain ⟨j, ids, -, hstored, hid⟩ := matches_notified hs hlog hm hstart he
    fun j hj => by rw [none_running hs.reachable hidle j] at hj; cases hj
  exact ⟨s, (kept hs).db, by decide, ids, hid, hstored⟩

/-- An attempt of candidate 1. -/
def sampleAttempt (id : Id) (status : AssessmentStatus) : Assessment :=
  ⟨id, 1, 1, none, status, none, none, none, none, none, none, none, false, 0, 0, false, none, 0⟩

def sampleScore (id assessmentId : Id) (value : Int) : Score :=
  ⟨id, assessmentId, value, none, none, none, "1", "1", .clean, none, [], 1000000⟩

/-- A visible profile with a score of 75 and another attempt in progress, and a search for
scores from 80 on. -/
def scoreOfSeventyFive : Db :=
  { onePublicProfile with
    clock := 5500
    assessments := ⟨[sampleAttempt 1 .completed, sampleAttempt 2 .inProgress], by decide⟩
    scores := ⟨[sampleScore 1 1 7500], by decide⟩
    savedSearches := ⟨[sampleSavedSearch (some ⟨80, 0⟩)], by decide⟩ }

/-- The attempt gets a score of 90, and then the searches are swept. -/
def betterScoreThenSwept : List (Label Error Op) :=
  .spawn (.processResult 2 (sampleScore 0 0 9000)) :: steps 0 13 ++
    .spawn (.runAlertSweep []) :: steps 1 4

/-- The better score leaves the date of update: the profile matches, and no sweep counts it. -/
theorem match_lost : ¬ ∀ (config : Config) (env : Environment) (d₀ : Db) (s : RunState),
    (system config env).Reachable d₀ s → ∀ l g m e r id x, s.log = l ++ g :: (m ++ e :: r) →
      Matching env d₀ x id l g m → (∀ g' ∈ l ++ [g], g'.call ≠ e.call) → Handles x e.writes →
      (∀ j, (s.call j).isRunning = true → awaitsNotification s.log j = false) →
      ∃ j ids, ⟨j, false, [.insertNotification (alertOf x ids.length) x.id ids]⟩ ∈ m ++ e :: r ∧
        alertOf x ids.length ∈ s.db.notifications ∧ id ∈ ids := by
  intro h
  have hrun : (((system Config.default SearchService.sampleEnvironment).runLabels .all
      (State.init scoreOfSeventyFive) betterScoreThenSwept).map fun s =>
        decide (s.log.map (·.call) = [0, 0, 1, 1, 1] ∧
          (s.log.map fun g => countsNothing g.writes)[4]? = some true ∧
          s.db.notifications = [] ∧
          (∀ j : Nat, j < s.ops.length → (s.call j).isRunning = false) ∧
          (scoreOfSeventyFive.at (s.log.take 1)).savedSearches.get? 1 =
            some (sampleSavedSearch (some ⟨80, 0⟩)) ∧
          startsMatching SearchService.sampleEnvironment (scoreOfSeventyFive.at (s.log.take 1))
            (scoreOfSeventyFive.at (s.log.take 2)) (sampleSavedSearch (some ⟨80, 0⟩)) 1 = true ∧
          ∀ k : Nat, k ≤ 2 → isMatch SearchService.sampleEnvironment
            (sampleSavedSearch (some ⟨80, 0⟩)).criteria
            (scoreOfSeventyFive.at (s.log.take (1 + 1 + k))) 1 = true)) = some true := by decide
  obtain ⟨s, hs, he⟩ := System.reach_of_run hrun
  obtain ⟨hcalls, hcounts, hnone, hidle, hsearch, hstarts, hstill⟩ := of_decide_eq_true he
  obtain ⟨g₀, l₀, hlog, hcall₀, hcalls⟩ := List.map_eq_cons_iff.1 hcalls
  obtain ⟨g₁, l₁, rfl, hcall₁, hcalls⟩ := List.map_eq_cons_iff.1 hcalls
  obtain ⟨g₂, l₂, rfl, -, hcalls⟩ := List.map_eq_cons_iff.1 hcalls
  obtain ⟨g₃, l₃, rfl, -, hcalls⟩ := List.map_eq_cons_iff.1 hcalls
  obtain ⟨e, r, rfl, hcall, -⟩ := List.map_eq_cons_iff.1 hcalls
  rw [hlog] at hcounts hsearch hstarts hstill
  have hm : Matching SearchService.sampleEnvironment scoreOfSeventyFive
      (sampleSavedSearch (some ⟨80, 0⟩)) 1 [g₀] g₁ [g₂, g₃] :=
    matching_of_take (r := e :: r) hsearch hstarts hstill
  have hstart : ∀ g' ∈ ([g₀] ++ [g₁] : Log), g'.call ≠ e.call := by
    intro g' hg'
    simp only [List.cons_append, List.nil_append, List.mem_cons, List.not_mem_nil, or_false] at hg'
    rcases hg' with rfl | rfl
    · rw [hcall₀, hcall]
      decide
    · rw [hcall₁, hcall]
      decide
  have he : Handles (sampleSavedSearch (some ⟨80, 0⟩)) e.writes := by
    simp only [List.map_cons, List.getElem?_cons_succ, List.getElem?_cons_zero,
      Option.some.injEq] at hcounts
    unfold countsNothing at hcounts
    split at hcounts
    · next hwrites => exact .inl hwrites
    · cases hcounts
  obtain ⟨j, ids, -, hstored, -⟩ := h _ _ _ s hs [g₀] g₁ [g₂, g₃] e r 1 _ hlog hm hstart he
    fun j hj => by rw [none_running hs hidle j] at hj; cases hj
  rw [hnone] at hstored
  cases hstored

end JobBoard.Cvtheque
