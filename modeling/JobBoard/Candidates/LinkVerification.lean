import JobBoard.Candidates.Edits
import JobBoard.Candidates.SchoolBadge
import JobBoard.Lib.JobQueue
import JobBoard.Links.Prober

/-!
# The verification of links

A link that a candidate adds is PENDING, and a job is queued that probes its URL and writes what
has come out. `CandidateLinkService` runs beside the workers of the queue. The job has the id of
its link, so that a link that is queued already is not queued again. The broker may be down, in
which case the link stays as it is; a worker may fail or lose its job, which is then tried again,
three times at most.
-/

set_option autoImplicit false

namespace JobBoard.Candidates.LinkVerification

open Txn Prog
open Cvtheque (ProfileLink Micros toDate ofDate)
open Edits (CreateProfileLinkDto)
open Links (Network)

/-! ## The database and the queue -/

inductive LinkAccessibilityStatus where
  | pending | reachable | unreachable
  deriving DecidableEq, Repr

/-- The columns of a link that the verification writes. -/
structure LinkCheck where
  linkId : Id
  accessibilityStatus : LinkAccessibilityStatus
  checkedAt : Option Micros
  deriving DecidableEq, Repr

/-- The columns of a link that was not checked yet. -/
def LinkCheck.fresh (linkId : Id) : LinkCheck := ⟨linkId, .pending, none⟩

/-- The row after the `UPDATE` of a `save` that makes the link PENDING. -/
def LinkCheck.reset (reread row : LinkCheck) : LinkCheck :=
  { row with
    accessibilityStatus := setColumn .pending reread.accessibilityStatus row.accessibilityStatus
    checkedAt := setColumn none reread.checkedAt row.checkedAt }

structure Db where
  base : Candidates.Db
  checks : Table LinkCheck.linkId
  jobs : JobQueue Id

/-- How often a job is tried. -/
def ATTEMPTS : Nat := 3

inductive Write where
  | edits (w : Edits.Write)
  /-- With its links. -/
  | deleteProfile (id : Id)
  | saveLink (id : Id) (reread : LinkCheck)
  | setStatus (id : Id) (status : LinkAccessibilityStatus) (checkedAt : Micros)
  | queue (op : JobQueue.Op Id)
  deriving DecidableEq, Repr

def Write.apply (db : Db) : Write → Db
  | edits (.insertLink l) =>
    { db with
      base := Edits.store.apply db.base (.insertLink l)
      checks := (db.checks.delete l.id).insert (LinkCheck.fresh l.id) }
  | edits w => { db with base := Edits.store.apply db.base w }
  | deleteProfile id =>
    { db with
      base := { db.base with
        cvtheque := { db.base.cvtheque with
          profiles := db.base.cvtheque.profiles.delete id
          links := db.base.cvtheque.links.deleteWhere (·.profileId = id) } } }
  | saveLink id reread =>
    { db with checks := db.checks.modify id reread.reset fun _ => rfl }
  | setStatus id status checkedAt =>
    { db with
      checks := db.checks.modify id
        (fun c => { c with accessibilityStatus := status, checkedAt := some checkedAt })
        fun _ => rfl }
  | queue op => { db with jobs := op.apply ATTEMPTS db.jobs }

def Write.keys : Write → List Edits.Key
  | edits w => Edits.store.keys w
  | saveLink id _ => [.link id]
  | setStatus id _ _ => [.link id]
  | _ => []

def store : Store Db Write Edits.Key := ⟨Write.apply, Write.keys⟩

/-- A service method: a program over `Db`. -/
abbrev M (α : Type) := Prog Db Write Error α

def inEdits {α : Type} (p : Edits.M α) : M α := p.zoom Db.base .edits

structure Environment where
  /-- The network as a call meets it. -/
  network : Id → Network
  /-- The broker answers the call. -/
  brokerUp : Id → Bool

def Db.link? (db : Db) (id : Id) : Option ProfileLink := db.base.cvtheque.links.get? id

/-! ## The services -/

namespace LinkVerificationEnqueuer

/-- Best effort. -/
def enqueue (env : Environment) (uuid linkId : Id) : M Unit :=
  if env.brokerUp uuid then outside fun _ => [.queue (.add linkId)] else ret ()

end LinkVerificationEnqueuer

namespace CandidateLinkService

def create (env : Environment) (uuid userId : Id) (dto : CreateProfileLinkDto) :
    M ProfileLink := do
  let saved ← inEdits (Edits.CandidateLinkService.create uuid userId dto)
  LinkVerificationEnqueuer.enqueue env uuid saved.id
  return saved

def remove (uuid userId linkId : Id) : M Unit :=
  inEdits (Edits.CandidateLinkService.remove uuid userId linkId)

/-- `save(link)` of a link that was loaded, made PENDING. One that was removed since is inserted
again. -/
def save (link : ProfileLink) : M ProfileLink := do
  match ← select fun db => (db.link? link.id).bind fun _ => db.checks.get? link.id with
  | none => inEdits (Edits.CandidateLinkService.insertLink link)
  | some reread =>
    if reread.reset reread = reread then return link
    else
      write fun _ => [.saveLink link.id reread]
      return link

def reverify (env : Environment) (uuid userId linkId : Id) : M ProfileLink := do
  let profile ← inEdits (Edits.findOrCreateProfile uuid userId)
  match ← select fun db => (db.link? linkId).filter (·.profileId = profile.id) with
  | none => throw (.notFound "Link not found")
  | some link =>
    let saved ← save link
    LinkVerificationEnqueuer.enqueue env uuid saved.id
    return saved

end CandidateLinkService

namespace LinkVerificationService

/-- What the prober says of the URL. -/
def statusOf (env : Environment) (uuid : Id) (url : String) : LinkAccessibilityStatus :=
  if (Links.HttpLinkProberAdapter.probe (env.network uuid) url).1.reachable then .reachable
  else .unreachable

def verify (env : Environment) (uuid linkId : Id) : M (Option LinkAccessibilityStatus) := do
  match ← select fun db => db.link? linkId with
  | none => return none
  | some link =>
    let status := statusOf env uuid link.url
    let checkedAt ← select fun db => ofDate (toDate db.base.cvtheque.clock)
    write fun _ => [.setStatus linkId status checkedAt]
    return some status

end LinkVerificationService

namespace LinkVerificationProcessor

/-- The worker takes a waiting job. -/
def take (uuid linkId : Id) : M Unit :=
  query fun db =>
    if db.jobs.state? linkId = some .waiting then .ok ([.queue (.take linkId uuid)], ())
    else .error (.notFound "No job")

/-- The job is removed when it is complete, if the worker still holds it. -/
def complete (uuid linkId : Id) : M Unit :=
  query fun db =>
    if db.jobs.state? linkId = some (.active uuid) then .ok ([.queue (.complete linkId uuid)], ())
    else .error (.notFound "Missing lock for job")

def process (env : Environment) (uuid linkId : Id) : M (Option LinkAccessibilityStatus) := do
  take uuid linkId
  let status ← LinkVerificationService.verify env uuid linkId
  complete uuid linkId
  return status

end LinkVerificationProcessor

/-! ## The system -/

inductive Op where
  | create (userId : Id) (dto : CreateProfileLinkDto)
  | remove (userId linkId : Id)
  | reverify (userId linkId : Id)
  | process (linkId : Id)
  /-- The worker of the job has failed, or its lock has expired. -/
  | release (linkId : Id)
  | evict (linkId : Id)
  /-- An erasure. -/
  | deleteProfile (profileId : Id)
  /-- A write of another service. -/
  | elsewhere (w : Candidates.Write)
  deriving DecidableEq, Repr

inductive Result where
  | unit
  | link (l : ProfileLink)
  | status (status : Option LinkAccessibilityStatus)
  deriving DecidableEq, Repr

def program (env : Environment) (uuid : Id) : Op → M Result
  | .create userId dto => do
    return .link (← CandidateLinkService.create env uuid userId dto)
  | .remove userId linkId => do
    CandidateLinkService.remove uuid userId linkId
    return .unit
  | .reverify userId linkId => do
    return .link (← CandidateLinkService.reverify env uuid userId linkId)
  | .process linkId => do
    return .status (← LinkVerificationProcessor.process env uuid linkId)
  | .release linkId => do
    write fun _ => [.queue (.release linkId)]
    return .unit
  | .evict linkId => do
    write fun _ => [.queue (.evict linkId)]
    return .unit
  | .deleteProfile profileId => do
    write fun _ => [.deleteProfile profileId]
    return .unit
  | .elsewhere w => do
    write fun _ => [.edits (.schools w)]
    return .unit

def system (env : Environment) : System Db Write Edits.Key Error Result Op :=
  ⟨store, program env, isFault⟩

abbrev RunState := State Db Write Error Result Op

abbrev Log := List (Txn.Group Write)

/-- The state of the database and the queue at a moment of the run. -/
abbrev Db.at (d₀ : Db) (L : Log) : Db := replay store d₀ L

/-- `n` steps of call `i`. -/
def steps (i n : Nat) : List (Label Error Op) := List.replicate n (.step i)

theorem at_snoc {d₀ : Db} (L : Log) (i : Nat) (w : Write) :
    d₀.at (L ++ [⟨i, false, [w]⟩]) = store.apply (d₀.at L) w := replay_snoc ..

end JobBoard.Candidates.LinkVerification
