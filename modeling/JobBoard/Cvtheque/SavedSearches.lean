import JobBoard.Cvtheque.Sweeps
import JobBoard.Lib.Trace

/-!
# Saved searches

`SavedSearchService`: the owner creates, edits and removes a saved search, beside the sweeps of
its alerts and the other methods of the CVthèque. An edit loads the search and saves the whole
entity, of which TypeORM writes the columns that differ from the row it reads again.
-/

set_option autoImplicit false

namespace JobBoard.Cvtheque.SavedSearches

open Txn Prog

structure CreateSavedSearchDto where
  name : String
  criteria : SavedSearchCriteria
  alertEnabled : Option Bool
  deriving DecidableEq, Repr

/-- A field that the body leaves out is `none`. -/
structure UpdateSavedSearchDto where
  name : Option String
  criteria : Option SavedSearchCriteria
  alertEnabled : Option Bool
  deriving DecidableEq, Repr

/-- The row after the `UPDATE` of a `save`. -/
def overwrite (entity reread row : SavedSearch) : SavedSearch :=
  { row with
    name := setColumn entity.name reread.name row.name
    criteria := setColumn entity.criteria reread.criteria row.criteria
    alertEnabled := setColumn entity.alertEnabled reread.alertEnabled row.alertEnabled
    lastNotifiedAt := setColumn entity.lastNotifiedAt reread.lastNotifiedAt row.lastNotifiedAt }

inductive Write where
  | cvtheque (w : Cvtheque.Write)
  | insertSearch (search : SavedSearch)
  | saveSearch (entity reread : SavedSearch)
  | deleteSearch (id : Id)
  deriving DecidableEq, Repr

def Write.apply (db : Db) : Write → Db
  | cvtheque w => Cvtheque.store.apply db w
  | insertSearch search => { db with savedSearches := db.savedSearches.insert search }
  | saveSearch entity reread =>
    { db with
      savedSearches := db.savedSearches.modify entity.id (overwrite entity reread) fun _ => rfl }
  | deleteSearch id => { db with savedSearches := db.savedSearches.delete id }

def Write.keys : Write → List Key
  | cvtheque w => Cvtheque.store.keys w
  | insertSearch search => [.row "saved_searches" search.id]
  | saveSearch entity _ => [.row "saved_searches" entity.id]
  | deleteSearch id => [.row "saved_searches" id]

def store : Store Db Write Key := ⟨Write.apply, Write.keys⟩

/-- A service method: a program over `Db`. -/
abbrev M (α : Type) := Prog Db Write Error α

/-- A method of the CVthèque. -/
def inCvtheque {α : Type} (p : Cvtheque.M α) : M α := p.zoom (fun db => db) .cvtheque

namespace SavedSearchService

def insertSearch (search : Time → SavedSearch) : M SavedSearch :=
  query fun db =>
    if (db.savedSearches.get? (search db.now).id).isSome then
      .error (uniqueViolation "PK_saved_searches")
    else .ok ([.insertSearch (search db.now)], search db.now)

/-- The anchor of the alerts is the time of the creation. -/
def create (uuid ownerUserId : Id) (dto : CreateSavedSearchDto) : M SavedSearch :=
  insertSearch fun now =>
    { id := uuid
      ownerUserId := ownerUserId
      name := dto.name
      criteria := dto.criteria
      alertEnabled := dto.alertEnabled.getD false
      lastNotifiedAt := if dto.alertEnabled.getD false then some now else none }

def findOwned (ownerUserId id : Id) : M SavedSearch := do
  match ← select fun db => (db.savedSearches.get? id).filter (·.ownerUserId = ownerUserId) with
  | none => throw (.notFound "Saved search not found")
  | some found => return found

/-- `save(existing)`, which inserts the row again when it is gone. -/
def save (existing : SavedSearch) : M SavedSearch := do
  match ← select fun db => db.savedSearches.get? existing.id with
  | none => insertSearch fun _ => existing
  | some reread =>
    write fun _ => [.saveSearch existing reread]
    return existing

/-- The fields of the body, and the anchor where the alerts are switched on. -/
def edited (existing : SavedSearch) (dto : UpdateSavedSearchDto) (now : Time) : SavedSearch :=
  { existing with
    name := dto.name.getD existing.name
    criteria := dto.criteria.getD existing.criteria
    alertEnabled := dto.alertEnabled.getD existing.alertEnabled
    lastNotifiedAt :=
      if dto.alertEnabled = some true ∧ ¬ existing.alertEnabled then some now
      else existing.lastNotifiedAt }

def update (ownerUserId id : Id) (dto : UpdateSavedSearchDto) : M SavedSearch := do
  let existing ← findOwned ownerUserId id
  let now ← select Db.now
  save (edited existing dto now)

def remove (ownerUserId id : Id) : M Unit := do
  let affected ← query fun db =>
    match (db.savedSearches.get? id).filter (·.ownerUserId = ownerUserId) with
    | none => .ok ([], false)
    | some _ => .ok ([.deleteSearch id], true)
  if ¬ affected then throw (.notFound "Saved search not found")

end SavedSearchService

/-! ## The system -/

inductive Op where
  | cvtheque (op : Cvtheque.Op)
  | create (ownerUserId : Id) (dto : CreateSavedSearchDto)
  | update (ownerUserId id : Id) (dto : UpdateSavedSearchDto)
  | remove (ownerUserId id : Id)
  deriving DecidableEq, Repr

inductive Result where
  | cvtheque (r : Cvtheque.Result)
  | search (search : SavedSearch)
  | unit
  deriving DecidableEq, Repr

def program (config : Config) (env : Environment) (uuid : Id) : Op → M Result
  | .cvtheque op => do
    return .cvtheque (← inCvtheque (Cvtheque.program config env uuid op))
  | .create ownerUserId dto => do
    return .search (← SavedSearchService.create uuid ownerUserId dto)
  | .update ownerUserId id dto => do
    return .search (← SavedSearchService.update ownerUserId id dto)
  | .remove ownerUserId id => do
    SavedSearchService.remove ownerUserId id
    return .unit

def system (config : Config) (env : Environment) : System Db Write Key Error Result Op :=
  ⟨store, program config env, isFault⟩

abbrev RunState := State Db Write Error Result Op

abbrev Log := List (Txn.Group Write)

/-- The committed database at a moment of the run. -/
abbrev dbAt (d₀ : Db) (L : Log) : Db := replay store d₀ L

/-- `n` steps of call `i`. -/
def steps (i n : Nat) : List (Label Error Op) := List.replicate n (.step i)

end JobBoard.Cvtheque.SavedSearches
