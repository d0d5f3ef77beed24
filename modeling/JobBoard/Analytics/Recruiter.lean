import JobBoard.Cvtheque.Entities
import JobBoard.Lib.Calendar
import JobBoard.Lib.Grouping
import JobBoard.Services.Invoicing
import Mathlib.Data.List.Sort

/-!
# The analytics of a recruiter

`RecruiterAnalyticsService` of recruiter-analytics.service.ts, for a server and a database in UTC,
as functions of one database. `Date.now()` is given. `created_at` has microseconds, a `Date` has
milliseconds.
-/

set_option autoImplicit false

namespace JobBoard.Analytics

open Txn
open Cvtheque (Micros ofDate)

/-! ## Entities -/

inductive JobStatus where
  | draft | published | closed
  deriving DecidableEq, Repr

inductive ApplicationStatus where
  | applied | underReview | shortlisted | interview | rejected | accepted
  deriving DecidableEq, Repr

structure JobOffer where
  id : Id
  companyId : Id
  title : String
  status : JobStatus
  deriving DecidableEq, Repr

structure JobApplication where
  id : Id
  jobOfferId : Id
  status : ApplicationStatus
  createdAt : Micros
  deriving DecidableEq, Repr

structure Db where
  offers : Table JobOffer.id
  applications : Table JobApplication.id
  shortlistEntries : Table Cvtheque.ShortlistEntry.id
  conversations : Table Conversation.id
  subscriptions : Table Subscription.id

/-! ## Dates -/

/-- The day of a date, counted from 1970-01-01. -/
def dayOf (date : Time) : Int := date / msPerDay

/-- `new Date(ms)`; `none` is an invalid date. -/
def makeDate (ms : Int) : Option Time :=
  if -8640000000000000 ≤ ms ∧ ms ≤ 8640000000000000 then some ms else none

/-- `setHours(0, 0, 0, 0)`. -/
def startOfDay (date : Time) : Time := dayOf date * msPerDay

def dateText (year : String) (month day : Int) : String :=
  year ++ "-" ++ padStart (toString month.toNat) 2 '0' ++ "-" ++
    padStart (toString day.toNat) 2 '0'

/-- The year of `toISOString`, with a sign and six digits outside of 0 to 9999. -/
def isoYear (year : Int) : String :=
  if 0 ≤ year ∧ year ≤ 9999 then padStart (toString year.toNat) 4 '0'
  else (if year < 0 then "-" else "+") ++ padStart (toString year.natAbs) 6 '0'

/-- What stands before the `T` in `toISOString`. -/
def isoDate (date : Time) : String :=
  let (year, month, day) := Calendar.civil (dayOf date)
  dateText (isoYear year) month day

/-- `toISOString().slice(0, 10)`; the date has ten characters at least. -/
def dayKey (date : Time) : String := String.ofList ((isoDate date).toList.take 10)

/-- `TO_CHAR(created_at, 'YYYY-MM-DD')`; the year before 1 is the year 1 BC. -/
def toChar (createdAt : Micros) : String :=
  let (year, month, day) := Calendar.civil (createdAt / (1000 * msPerDay))
  dateText (padStart (toString (if year ≤ 0 then 1 - year else year).toNat) 4 '0') month day

example : dayKey 1767225599999 = "2025-12-31" ∧ toChar 1767225600000000 = "2026-01-01" := by decide

/-! ## Counting -/

section

variable {κ : Type} [DecidableEq κ]

/-- `COUNT(*)` with `GROUP BY`, in the order of the first rows. -/
def countBy (keys : List κ) : List (κ × Nat) :=
  (Grouping.firsts keys).map fun k => (k, keys.count k)

/-- `new Map(entries).get(k)`: of two entries the later one counts. -/
def get (entries : List (κ × Nat)) (k : κ) : Option Nat :=
  (entries.reverse.find? fun e => e.1 = k).map (·.2)

end

/-- The applications to the offers of the company, with these. -/
def Db.joined (db : Db) (companyId : Id) : List (JobApplication × JobOffer) :=
  (db.applications.rows.filterMap fun a => (db.offers.get? a.jobOfferId).map fun o => (a, o)).filter
    fun r => r.2.companyId = companyId

/-! ## The service -/

structure JobCounts where
  total : Nat
  published : Nat
  draft : Nat
  closed : Nat
  deriving DecidableEq, Repr

structure ApplicationCounts where
  total : Nat
  byStatus : ApplicationStatus → Nat

structure Total where
  total : Nat
  deriving DecidableEq, Repr

structure Contacts where
  used : Int
  quota : Option Int
  deriving DecidableEq, Repr

structure TrendPoint where
  date : String
  count : Nat
  deriving DecidableEq, Repr

structure TopOffer where
  id : Id
  title : String
  applications : Nat
  deriving DecidableEq, Repr

structure RecruiterAnalyticsOverview where
  rangeDays : Nat
  jobs : JobCounts
  applications : ApplicationCounts
  shortlist : Total
  conversations : Total
  contacts : Contacts
  applicationsTrend : List TrendPoint
  topOffers : List TopOffer

namespace RecruiterAnalyticsService

section

variable (db : Db) (companyId : Id)

def jobsByStatus : JobCounts :=
  let rows := countBy ((db.offers.rows.filter (·.companyId = companyId)).map (·.status))
  { total := (rows.map (·.2)).sum
    published := (get rows .published).getD 0
    draft := (get rows .draft).getD 0
    closed := (get rows .closed).getD 0 }

def applicationsByStatus : ApplicationCounts :=
  let rows := countBy ((db.joined companyId).map (·.1.status))
  rows.foldl
    (fun counts r =>
      { total := counts.total + r.2
        byStatus := fun s => if s = r.1 then r.2 else counts.byStatus s })
    ⟨0, fun _ => 0⟩

/-- The rows of the query; it orders them by the day. -/
def applicationsTrend (start : Time) : List (String × Nat) :=
  (countBy (((db.joined companyId).filter fun r => ofDate start ≤ r.1.createdAt).map
    fun r => toChar r.1.createdAt)).insertionSort fun a b => a.1 ≤ b.1

/-- The database may put offers with equal counts in any order. -/
def topOffers : List TopOffer :=
  let rows := countBy ((db.joined companyId).map fun r => (r.2.id, r.2.title))
  ((rows.insertionSort fun a b => b.2 ≤ a.2).take 5).map fun r => ⟨r.1.1, r.1.2, r.2⟩

end

def fillDays (rows : List (String × Nat)) (start : Time) (rangeDays : Nat) : List TrendPoint :=
  (List.range rangeDays).map fun i : Nat =>
    let key := dayKey (startOfDay start + i * msPerDay)
    ⟨key, (get rows key).getD 0⟩

/-- The range of a request; `none` is no finite number. -/
def rangeOf (days : Option Rat) : Nat :=
  match days with
  | some days => if 0 < days then days.floor.toNat else 30
  | none => 30

/-- `start` is `from` of the source; the database refuses an invalid date. -/
def overview (db : Db) (companyId : Id) (time : Time) (days : Option Rat) :
    Except Error RecruiterAnalyticsOverview :=
  let rangeDays := rangeOf days
  match makeDate (time - rangeDays * 24 * 60 * 60 * 1000) with
  | none => .error (.queryFailed "22007" none)
  | some start =>
    let subscription := db.subscriptions.rows.find? fun s =>
      s.companyId = companyId && (s.status = .trial || s.status = .active)
    .ok
      { rangeDays := rangeDays
        jobs := jobsByStatus db companyId
        applications := applicationsByStatus db companyId
        shortlist := ⟨(db.shortlistEntries.rows.filter (·.companyId = companyId)).length⟩
        conversations := ⟨(db.conversations.rows.filter (·.companyId = companyId)).length⟩
        contacts :=
          { used := (subscription.map (·.contactsUsed)).getD 0
            quota := subscription.map (·.contactQuota) }
        applicationsTrend := fillDays (applicationsTrend db companyId start) start rangeDays
        topOffers := topOffers db companyId }

end RecruiterAnalyticsService

end JobBoard.Analytics
