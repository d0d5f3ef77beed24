import JobBoard.Cvtheque.Search
import JobBoard.Cvtheque.Profiles

/-!
# The saved-search alerts

`SavedSearchAlertService.runAlertSweep`. Which steps of a sweep fail is given from outside;
such a failure is caught, and the sweep goes on with the next search. The email of a
notification is best effort and left out.
-/

set_option autoImplicit false

namespace JobBoard.Cvtheque

open Txn Prog Assessments

/-- A stored criteria goes back into the search as its filters. -/
def SavedSearchCriteria.toFilters (c : SavedSearchCriteria) : SearchCandidatesDto where
  q := c.q
  skills := c.skills
  scoreMin := c.scoreMin
  location := c.location
  availability := c.availability
  salaryMax := c.salaryMax
  cursor := none
  schools := none
  sort := none
  limit := none
  limit_pos := fun _ h => nomatch h

namespace SearchService

/-- The profiles that `countNewMatches` counts. -/
def newMatches (env : Environment) (filters : SearchCandidatesDto) (since : Option Time)
    (db : Db) : Except Error (List Id) :=
  match buildQuery env filters db with
  | .error e => .error e
  | .ok condition =>
    let condition := match since with
      | none => condition
      | some since => condition.andWhere (.atom fun r => r.profile.updatedAt > ofDate since)
    .ok (((joinedRows db).filter condition.holds).map Row.id)

theorem countNewMatches_eq (env : Environment) (filters : SearchCandidatesDto)
    (since : Option Time) (db : Db) :
    countNewMatches env filters since db = (newMatches env filters since db).map List.length := by
  unfold countNewMatches newMatches
  cases buildQuery env filters db with
  | error e => rfl
  | ok condition =>
    cases since <;> exact congrArg Except.ok
      (List.countP_eq_length_filter.trans (List.length_map _).symm)

end SearchService

/-! ## Sweeps -/

inductive SweepStage where
  | count | claim | notify
  deriving DecidableEq, Repr

/-- The handling of a search fails at a stage. -/
structure SweepFailure where
  searchId : Id
  stage : SweepStage
  deriving DecidableEq, Repr

namespace SavedSearchAlertService

def enabledSearches (db : Db) : List SavedSearch := db.savedSearches.rows.filter (·.alertEnabled)

/-- The conditional `UPDATE`: whether it affects a row. -/
def claimAdvance (id : Id) (since : Option Time) (next : Time) (counted : List Id) : M Bool :=
  query fun db =>
    match db.savedSearches.get? id with
    | none => .ok ([], false)
    | some s =>
      if s.lastNotifiedAt = since then .ok ([.claimAdvance id next counted], true)
      else .ok ([], false)

def alertOf (search : SavedSearch) (count : Nat) : Notification where
  recipientUserId := search.ownerUserId
  type := .savedSearchAlert
  title := "Nouveaux candidats pour votre recherche"
  body := toString count ++ " nouveau(x) candidat(s) correspondent à votre recherche « " ++
    search.name ++ " »."

section

variable (env : Environment) (failures : List SweepFailure)

def attempt (searchId : Id) (stage : SweepStage) : M Unit :=
  if ⟨searchId, stage⟩ ∈ failures then throw .unavailable else ret ()

/-- The `try` block of one search: whether its owner is notified. -/
def sweepSearch (search : SavedSearch) : M Bool := do
  let since := search.lastNotifiedAt
  let sweepStart ← query fun db => .ok ([.trace (.started search.id db.now)], db.now)
  attempt failures search.id .count
  let counted ← query fun db =>
    (SearchService.newMatches env search.criteria.toFilters since db).map fun ids =>
      ([.trace (.counted search.id ids)], ids)
  if counted.length ≤ 0 then return false
  else
    attempt failures search.id .claim
    let claimed ← claimAdvance search.id since sweepStart counted
    if ¬ claimed then return false
    else
      attempt failures search.id .notify
      write fun _ => [.insertNotification (alertOf search counted.length) search.id counted]
      return true

/-- The number of owners notified. -/
def sweepSearches : List SavedSearch → M Nat
  | [] => return 0
  | search :: rest => do
    let notified ← (sweepSearch env failures search).caught fun _ => ret false
    let notifiedCount ← sweepSearches rest
    return (if notified then 1 else 0) + notifiedCount

def runAlertSweep : M Nat := do
  let searches ← query fun db =>
    .ok ([.trace (.loaded (enabledSearches db))], enabledSearches db)
  sweepSearches env failures searches

end

end SavedSearchAlertService

end JobBoard.Cvtheque
