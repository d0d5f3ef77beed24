import Mathlib.Data.List.MinMax
import JobBoard.Cvtheque.Search
import JobBoard.Cvtheque.Profiles
import JobBoard.Lib.Trace

/-!
# The score badge

`ScoreBadgeService` next to the scores of the CVthèque: the system runs any number of calls that
enable or disable a badge, that score an attempt, and the passing of time. The number of a call
stands for the uuids that it draws. `Db.cvtheque` holds the scores and the attempts.
-/

set_option autoImplicit false

namespace JobBoard.Growth.Badges

open Txn Prog Assessments

/-! ## Rows -/

structure ScoreBadge where
  id : Id
  userId : Id
  scoreId : Id
  token : Id
  enabled : Bool
  displayName : Option String
  deriving DecidableEq, Repr

/-- The row after the `UPDATE` of a `save`: the columns that differ from the re-read row. -/
def ScoreBadge.overwrite (entity reread row : ScoreBadge) : ScoreBadge :=
  { row with
    scoreId := setColumn entity.scoreId reread.scoreId row.scoreId
    enabled := setColumn entity.enabled reread.enabled row.enabled
    displayName := setColumn entity.displayName reread.displayName row.displayName }

inductive BadgeLevel where
  | expert | advanced | intermediate | beginner
  deriving DecidableEq, Repr

structure PublicBadgeDto where
  scoreValue : Int
  percentile : Option Int
  specialtyName : String
  level : BadgeLevel
  issuedAt : Time
  displayName : Option String
  deriving DecidableEq, Repr

structure ScoreBadgeStatusDto where
  hasBadge : Bool
  enabled : Bool
  token : Option Id
  badge : Option PublicBadgeDto
  hasScore : Bool
  deriving DecidableEq, Repr

/-! ## The database -/

structure Db where
  cvtheque : Cvtheque.Db
  tests : Table Test.id
  specialties : Table Specialty.id
  badges : Table ScoreBadge.id

def Db.empty : Db := ⟨.empty, ∅, ∅, ∅⟩

inductive Write where
  | cvtheque (w : Cvtheque.Write)
  | insertBadge (b : ScoreBadge)
  | saveBadge (entity reread : ScoreBadge)
  /-- The score that `enable` has read; it changes no row. -/
  | selected (userId : Id) (score : Score)
  deriving DecidableEq, Repr

inductive Key where
  | cvtheque (k : Cvtheque.Key)
  | badge (id : Id)
  | badgeUser (userId : Id)
  | badgeToken (token : Id)
  deriving DecidableEq, Repr

def Write.apply (db : Db) : Write → Db
  | cvtheque w => { db with cvtheque := w.apply db.cvtheque }
  | insertBadge b => { db with badges := db.badges.insert b }
  | saveBadge entity reread =>
    { db with badges := db.badges.modify entity.id (entity.overwrite reread) (fun _ => rfl) }
  | selected _ _ => db

def Write.keys : Write → List Key
  | cvtheque w => w.keys.map .cvtheque
  | insertBadge b => [.badge b.id, .badgeUser b.userId, .badgeToken b.token]
  | saveBadge entity _ => [.badge entity.id]
  | selected _ _ => []

def store : Store Db Write Key := ⟨Write.apply, Write.keys⟩

/-- A service method: a program over `Db`. -/
abbrev M (α : Type) := Prog Db Write Error α

/-- A method of the CVthèque. -/
def onCvtheque {α : Type} (p : Cvtheque.M α) : M α := p.zoom Db.cvtheque .cvtheque

/-! ## The service -/

/-- What the database leaves open, and the column that `Score` leaves out. -/
structure Environment where
  /-- The order in which a query returns rows with equal keys. -/
  order : Db → List Score → List Score
  order_perm : ∀ db scores, (order db scores).Perm scores
  createdAt : Score → Time

namespace ScoreBadgeService

/-- In hundredths. -/
def levelFor (value : Int) : BadgeLevel :=
  if value ≥ 8500 then .expert
  else if value ≥ 7000 then .advanced
  else if value ≥ 5000 then .intermediate
  else .beginner

/-- The scores of the user's attempts, of which `findBestScore` takes the highest. -/
def scoresOf (db : Db) (userId : Id) : List Score :=
  db.cvtheque.scores.rows.filter fun score =>
    (db.cvtheque.assessments.get? score.assessmentId).any (·.candidateId = userId)

section

variable (env : Environment)

def specialtyName (db : Db) (score : Score) : Option String := do
  let assessment ← db.cvtheque.assessments.get? score.assessmentId
  let test ← db.tests.get? assessment.testId
  let specialty ← db.specialties.get? test.specialtyId
  return specialty.name

def toPublic (db : Db) (score : Score) (displayName : Option String) : PublicBadgeDto where
  scoreValue := score.value
  percentile := score.percentile
  specialtyName := (specialtyName db score).getD "—"
  level := levelFor score.value
  issuedAt := env.createdAt score
  displayName := displayName

/-- `ORDER BY score.value DESC`, and the first row. -/
def findBestScore (db : Db) (userId : Id) : Option Score :=
  -- the order of the integers that can be computed
  letI : Preorder Int := Int.instLinearOrder.toPreorder
  (env.order db (scoresOf db userId)).argmax (·.value)

def badgeOf (db : Db) (userId : Id) : Option ScoreBadge :=
  db.badges.rows.find? (·.userId == userId)

def getStatus (userId : Id) : M ScoreBadgeStatusDto := do
  let badge ← select fun db => badgeOf db userId
  let bestScore ← select fun db => findBestScore env db userId
  match badge with
  | none => return ⟨false, false, none, none, bestScore.isSome⟩
  | some badge =>
    let shown ← select fun db =>
      (db.cvtheque.scores.get? badge.scoreId).map fun score =>
        toPublic env db score badge.displayName
    return ⟨true, badge.enabled, some badge.token, shown, bestScore.isSome⟩

/-- `displayName.trim() || null`. -/
def cleanName (displayName : Option String) : Option String := truthy (displayName.map trim)

/-- The constraint that the new badge would violate. -/
def badgeViolation (b : ScoreBadge) (db : Db) : Option String :=
  if (db.badges.get? b.id).isSome then some "PK_score_badges"
  else if (badgeOf db b.userId).isSome then some "UQ_score_badges_user_id"
  else if db.badges.rows.any (·.token = b.token) then some "UQ_score_badges_token"
  else none

def insert (b : ScoreBadge) : M Unit :=
  query fun db =>
    match badgeViolation b db with
    | some constraint => .error (uniqueViolation constraint)
    | none => .ok ([.insertBadge b], ())

/-- `save(entity)` of a badge that was loaded. No operation deletes a badge. -/
def save (entity : ScoreBadge) : M Unit := do
  match ← select fun db => db.badges.get? entity.id with
  | none => throw (.entityNotFound "ScoreBadge")
  | some reread =>
    if entity.overwrite reread reread = reread then return ()
    else write fun _ => [.saveBadge entity reread]

def refreshed (badge : ScoreBadge) (best : Score) (displayName : Option String) : ScoreBadge :=
  { badge with
    scoreId := best.id
    enabled := true
    displayName := if displayName.isSome then cleanName displayName else badge.displayName }

def enable (uuid userId : Id) (displayName : Option String) : M ScoreBadgeStatusDto := do
  match ← query fun db =>
      match findBestScore env db userId with
      | none => .ok ([], none)
      | some best => .ok ([.selected userId best], some best) with
  | none =>
    throw (.badRequest "No score available to showcase — take an assessment first.")
  | some best =>
    match ← select fun db => badgeOf db userId with
    | none => insert ⟨uuid, userId, best.id, uuid, true, cleanName displayName⟩
    | some badge => save (refreshed badge best displayName)
    getStatus env userId

def disable (userId : Id) : M ScoreBadgeStatusDto := do
  match ← select fun db => badgeOf db userId with
  | none => getStatus env userId
  | some badge =>
    if badge.enabled then save { badge with enabled := false }
    getStatus env userId

/-- The badge and the score that the public page is made of. -/
def shown (db : Db) (token : Id) : Option (ScoreBadge × Score) := do
  let badge ← db.badges.rows.find? fun b => b.token = token && b.enabled
  let score ← db.cvtheque.scores.get? badge.scoreId
  return (badge, score)

def getPublic (token : Id) (db : Db) : Except Error PublicBadgeDto :=
  match shown db token with
  | none => .error (.notFound "Badge not found")
  | some (badge, score) => .ok (toPublic env db score badge.displayName)

end

end ScoreBadgeService

/-! ## The system -/

inductive Op where
  | clock (us : Nat)
  | processResult (assessmentId : Id) (graded : Score)
  | enable (userId : Id) (displayName : Option String)
  | disable (userId : Id)
  deriving DecidableEq, Repr

inductive Result where
  | unit
  | status (s : ScoreBadgeStatusDto)
  deriving DecidableEq, Repr

/-- The errors a statement or an outside call may fail with by itself. -/
def isFault : Error → Bool
  | .unavailable => true
  | .queryFailed code _ => code ≠ POSTGRES_UNIQUE_VIOLATION
  | _ => false

def program (env : Environment) (uuid : Id) : Op → M Result
  | .clock us => do
    write fun _ => [.cvtheque (.tick us)]
    return .unit
  | .processResult assessmentId graded => do
    onCvtheque (Cvtheque.WebhookService.processResult uuid assessmentId graded)
    return .unit
  | .enable userId displayName => do
    return .status (← ScoreBadgeService.enable env uuid userId displayName)
  | .disable userId => do
    return .status (← ScoreBadgeService.disable env userId)

def system (env : Environment) : System Db Write Key Error Result Op :=
  ⟨store, program env, isFault⟩

abbrev RunState := State Db Write Error Result Op

abbrev Log := List (Txn.Group Write)

/-- The committed database at a moment of the run. -/
abbrev Db.at (d₀ : Db) (L : Log) : Db := replay store d₀ L

/-- `n` steps of call `i`. -/
def steps (i n : Nat) : List (Label Error Op) := List.replicate n (.step i)

end JobBoard.Growth.Badges
