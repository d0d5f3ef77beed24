import JobBoard.Lib.Plain
import JobBoard.Model.Database

/-!
# Statements and repositories

The statements the services are written with: reads of the clock, `INSERT`s
that fail on a unique constraint, and the `find` and `save` of TypeORM's
repository of subscriptions.
-/

set_option autoImplicit false

namespace JobBoard

open Txn Prog

/-- `new Date()`, and Postgres' `now()`. -/
def now : M Time := select fun db => db.now

/-- An `INSERT` (or an `UPDATE`) that fails with 23505 when `violated` names a
unique constraint of the row it would leave. -/
def insertUnique {α : Type} (violated : Db → Option String) (w : Write) (result : α) : M α :=
  query fun db =>
    match violated db with
    | some constraint => .error (uniqueViolation constraint)
    | none => .ok ([w], result)

section

variable {α : Type} {violated : Db → Option String} {w : Write} {a : α}

theorem plain_insertUnique {St As : List Write → Prop} {Er : Error → Prop} (h : St []) (hw : St [w])
    (he : ∀ db c, violated db = some c → Er (uniqueViolation c)) :
    (insertUnique violated w a).Plain St As Er := by
  refine plain_query h (fun db r hf => ?_) fun db e hf => ?_
  · split at hf
    · cases hf
    · cases hf
      exact hw
  · split at hf
    · next c hc =>
      cases hf
      exact he db c hc
    · cases hf

@[simp] theorem yields_insertUnique {rely : List Key → Db → Db → Prop} {s s' : List Write × Db}
    {b : α} : (insertUnique violated w a).Yields store rely s s' b ↔
      ∃ d, rely (store.locks s.1) s.2 d ∧ violated (store.applyAll d s.1) = none ∧
        s' = (s.1 ++ [w], d) ∧ b = a := by
  unfold insertUnique
  rw [yields_query]
  constructor
  · rintro ⟨d, ws, hr, hf, rfl⟩
    split at hf
    · cases hf
    · next hn =>
      cases hf
      exact ⟨d, hr, hn, rfl, rfl⟩
  · rintro ⟨d, hr, hn, rfl, rfl⟩
    exact ⟨d, [w], hr, by rw [hn], rfl⟩

end

/-! ## Constraints -/

def PROCESSED_WEBHOOK_EVENT_UNIQUE_CONSTRAINT : String :=
  "UQ_processed_webhook_events_provider_event_id"

def TRIAL_CODE_REDEMPTION_COMPANY_UNIQUE_CONSTRAINT : String :=
  "UQ_trial_code_redemptions_company_id"

def INVOICE_NUMBER_UNIQUE_CONSTRAINT : String := "UQ_invoices_invoice_number"

def INVOICE_STRIPE_EVENT_UNIQUE_CONSTRAINT : String := "UQ_invoices_stripe_invoice_id"

def SUBSCRIPTION_ACTIVE_UNIQUE_CONSTRAINT : String := "UQ_subscriptions_company_active"

namespace Db

/-- Another row of the company is in `UQ_subscriptions_company_active`. -/
def activeElsewhere (db : Db) (id companyId : Id) : Bool :=
  db.subscriptions.rows.any fun r =>
    r.id ≠ id && (r.companyId = companyId && r.status.inActiveIndex)

/-- The constraint that the subscription row `s` would violate. -/
def subscriptionViolation (db : Db) (s : Subscription) : Option String :=
  if s.status.inActiveIndex && db.activeElsewhere s.id s.companyId then
    some SUBSCRIPTION_ACTIVE_UNIQUE_CONSTRAINT
  else none

def insertSubscriptionViolation (db : Db) (s : Subscription) : Option String :=
  if (db.subscription? s.id).isSome then some "PK_subscriptions" else db.subscriptionViolation s

end Db

/-! ## Subscriptions -/

/-- The row a query ordered by `createdAt DESC` returns first. -/
def newest : List Subscription → Option Subscription
  | [] => none
  | r :: rs =>
    match newest rs with
    | none => some r
    | some s => if s.createdAt < r.createdAt then some r else some s

theorem newest_mem {rs : List Subscription} {r : Subscription} (h : newest rs = some r) :
    r ∈ rs := by
  induction rs with
  | nil => cases h
  | cons x rs ih =>
    simp only [newest] at h
    split at h
    · cases h
      exact List.mem_cons_self
    · next s hs =>
      split at h
      · cases h
        exact List.mem_cons_self
      · cases h
        exact List.mem_cons_of_mem _ (ih hs)

theorem newest_eq_none {rs : List Subscription} : newest rs = none ↔ rs = [] := by
  cases rs with
  | nil => simp [newest]
  | cons x rs =>
    simp only [newest]
    split
    · simp
    · split <;> simp

namespace SubscriptionRepository

/-- `findOne({ where, order: { createdAt: 'DESC' } })`. -/
def findNewest (p : Subscription → Bool) : M (Option Subscription) :=
  select fun db => newest (db.subscriptions.rows.filter p)

/-- `findOne({ where })`: some row, here the first of the table. -/
def findOne (p : Subscription → Bool) : M (Option Subscription) :=
  select fun db => db.subscriptions.rows.find? p

/-- `save(entity)` of an entity that was `loaded` before: re-read the row, then
update the columns that differ, if any. No operation deletes a row of the
table, so that the row is still there. -/
def save (loaded entity : Subscription) : M Subscription := do
  match ← select fun db => db.subscription? entity.id with
  | none => throw (.entityNotFound "Subscription")
  | some reread =>
    if entity.overwrite reread reread = reread then return entity
    else
      insertUnique
        (fun db => (db.subscription? entity.id).bind fun row =>
          db.subscriptionViolation (entity.overwrite reread row))
        (.saveSubscription loaded entity reread) entity

/-- `save(create(row))` of a new row. -/
def insert (row : Subscription) : M Subscription :=
  insertUnique (fun db => db.insertSubscriptionViolation row) (.insertSubscription row) row

end SubscriptionRepository

/-! ## Other tables -/

/-- `AuditService.log`, on its own connection. -/
def AuditService.log (entry : AuditLog) : M Unit := outside fun _ => [.insertAuditLog entry]

/-- `companyRepo.findOneByOrFail({ id })`. -/
def findCompanyOrFail (id : Id) : M Company := do
  match ← select fun db => db.companies.get? id with
  | some c => return c
  | none => throw (.entityNotFound "Company")

/-- `recruiterRepo.findOne({ where: { userId } })`. -/
def findRecruiter (userId : Id) : M (Option Recruiter) :=
  select fun db => db.recruiters.rows.find? (·.userId == userId)

end JobBoard
