import JobBoard.Lib.Wp
import JobBoard.Model.Entities

/-!
# The database

`Db` is everything the services share: the Postgres tables, the clock, the
object storage, the audit trail and the calls Stripe has received. `Write` are
the writes of their statements and `Key` the row locks and unique-index entries
a write holds until its transaction ends.

`Write.saveSubscription` is TypeORM's `save` of a loaded entity: it sets every
column whose value in the entity differs from the row that `save` re-read.
-/

set_option autoImplicit false

namespace JobBoard

open Txn

structure Db where
  now : Time
  users : Table User.id
  companies : Table Company.id
  recruiters : Table Recruiter.id
  subscriptions : Table Subscription.id
  processedWebhookEvents : Table ProcessedWebhookEvent.id
  invoiceSequences : Table InvoiceSequence.year
  invoices : Table Invoice.id
  trialCodes : Table TrialCode.id
  trialCodeRedemptions : Table TrialCodeRedemption.id
  candidateProfiles : Table CandidateProfile.id
  conversations : Table Conversation.id
  messages : Table Message.id
  auditLogs : List AuditLog
  storage : List StoredObject
  stripeCalls : List StripeCall
  /-- `trial_duration_days` and `plan_starter_contacts` of the settings table or
  the environment. -/
  trialDurationDays : Option Int
  planStarterContacts : Option Int

namespace Db

def empty : Db :=
  ⟨0, ∅, ∅, ∅, ∅, ∅, ∅, ∅, ∅, ∅, ∅, ∅, ∅, [], [], [], none, none⟩

/-- `findOne({ where: { id } })`. -/
def subscription? (db : Db) (id : Id) : Option Subscription := db.subscriptions.get? id

/-- The object stored under a key: the last upload wins. -/
def object? (db : Db) (key : String) : Option StoredObject := db.storage.find? (·.key == key)

end Db

/-! ## The subscriptions table -/

namespace SubscriptionStatus

/-- The predicate of the index `UQ_subscriptions_company_active`. -/
def inActiveIndex (s : SubscriptionStatus) : Bool := s = trial || s = active

end SubscriptionStatus

/-- The row after the `UPDATE` of a `save`. The columns that no operation
assigns (id, companyId, startsAt, createdAt) are the same in the entity, the
re-read row and the row. -/
def Subscription.overwrite (entity reread row : Subscription) : Subscription :=
  { row with
    plan := setColumn entity.plan reread.plan row.plan
    status := setColumn entity.status reread.status row.status
    externalSubscriptionId := setColumn entity.externalSubscriptionId
      reread.externalSubscriptionId row.externalSubscriptionId
    endsAt := setColumn entity.endsAt reread.endsAt row.endsAt
    contactQuota := setColumn entity.contactQuota reread.contactQuota row.contactQuota
    contactsUsed := setColumn entity.contactsUsed reread.contactsUsed row.contactsUsed
    pastDueSince := setColumn entity.pastDueSince reread.pastDueSince row.pastDueSince
    cancelAtPeriodEnd := setColumn entity.cancelAtPeriodEnd reread.cancelAtPeriodEnd
      row.cancelAtPeriodEnd }

/-- The row of a trial code after the `UPDATE` of a `save`: no service assigns a
column but `status`, and `used_count` is written when the re-read row has another
value than the entity. -/
def TrialCode.overwrite (entity reread row : TrialCode) : TrialCode :=
  { row with
    usedCount := setColumn entity.usedCount reread.usedCount row.usedCount
    status := setColumn entity.status reread.status row.status }

@[simp] theorem Subscription.overwrite_id (e r row : Subscription) :
    (overwrite e r row).id = row.id := rfl

@[simp] theorem Subscription.overwrite_companyId (e r row : Subscription) :
    (overwrite e r row).companyId = row.companyId := rfl

@[simp] theorem Subscription.overwrite_createdAt (e r row : Subscription) :
    (overwrite e r row).createdAt = row.createdAt := rfl

/-! ## Writes -/

inductive Write where
  | tick (ms : Nat)
  | insertCompany (c : Company)
  | insertRecruiter (r : Recruiter)
  | updateRoles (userId : Id) (roles : List Role)
  | insertSubscription (s : Subscription)
  /-- `save(entity)` of an entity that was `loaded` with other column values. -/
  | saveSubscription (loaded entity reread : Subscription)
  | incrementContactsUsed (subscriptionId : Id)
  | insertProcessedWebhookEvent (e : ProcessedWebhookEvent)
  | insertInvoiceSequence (year : Int)
  | lockInvoiceSequence (year : Int)
  | setLastNumber (year : Int) (n : Nat)
  | insertInvoice (i : Invoice)
  | insertTrialCode (c : TrialCode)
  /-- `save(entity)` of a loaded trial code. -/
  | saveTrialCode (entity reread : TrialCode)
  | insertRedemption (r : TrialCodeRedemption)
  | incrementUsedCount (trialCodeId : Id)
  | setConvertedAt (companyId : Id) (at' : Time)
  | insertConversation (c : Conversation)
  | insertMessage (m : Message)
  | insertAuditLog (a : AuditLog)
  | upload (o : StoredObject)
  | callStripe (c : StripeCall)
  deriving DecidableEq, Repr

/-- Row locks and entries of unique indexes. -/
inductive Key where
  | row (table : String) (id : Id)
  | sequence (year : Int)
  | activeIndex (companyId : Id)
  | providerEventId (e : String)
  | invoiceNumber (n : String)
  | stripeInvoiceId (e : String)
  | trialCode (code : String)
  | redemptionCompany (companyId : Id)
  | conversationPair (candidateId companyId : Id)
  | recruiterUser (userId : Id)
  | companyIce (ice : String)
  deriving DecidableEq, Repr

def Write.apply (db : Db) : Write → Db
  | tick ms => { db with now := db.now + ms }
  | insertCompany c => { db with companies := db.companies.insert c }
  | insertRecruiter r => { db with recruiters := db.recruiters.insert r }
  | updateRoles id roles =>
    { db with users := db.users.modify id (fun u => { u with roles }) (fun _ => rfl) }
  | insertSubscription s => { db with subscriptions := db.subscriptions.insert s }
  | saveSubscription _ entity reread =>
    { db with
      subscriptions := db.subscriptions.modify entity.id (entity.overwrite reread) (fun _ => rfl) }
  | incrementContactsUsed id =>
    { db with
      subscriptions := db.subscriptions.modify id
        (fun s => { s with contactsUsed := s.contactsUsed + 1 }) (fun _ => rfl) }
  | insertProcessedWebhookEvent e =>
    { db with processedWebhookEvents := db.processedWebhookEvents.insert e }
  | insertInvoiceSequence year =>
    { db with invoiceSequences := db.invoiceSequences.insert ⟨year, 0⟩ }
  | lockInvoiceSequence _ => db
  | setLastNumber year n =>
    { db with
      invoiceSequences := db.invoiceSequences.modify year
        (fun s => { s with lastNumber := n }) (fun _ => rfl) }
  | insertInvoice i => { db with invoices := db.invoices.insert i }
  | insertTrialCode c => { db with trialCodes := db.trialCodes.insert c }
  | saveTrialCode entity reread =>
    { db with
      trialCodes := db.trialCodes.modify entity.id (entity.overwrite reread) (fun _ => rfl) }
  | insertRedemption r => { db with trialCodeRedemptions := db.trialCodeRedemptions.insert r }
  | incrementUsedCount id =>
    { db with
      trialCodes := db.trialCodes.modify id
        (fun c => { c with usedCount := c.usedCount + 1 }) (fun _ => rfl) }
  | setConvertedAt companyId at' =>
    { db with
      trialCodeRedemptions := db.trialCodeRedemptions.modifyWhere
        (fun r => r.companyId = companyId && r.convertedAt = none)
        (fun r => { r with convertedAt := some at' }) (fun _ => rfl) }
  | insertConversation c => { db with conversations := db.conversations.insert c }
  | insertMessage m => { db with messages := db.messages.insert m }
  | insertAuditLog a => { db with auditLogs := db.auditLogs ++ [a] }
  | upload o => { db with storage := o :: db.storage }
  | callStripe c => { db with stripeCalls := db.stripeCalls ++ [c] }

/-- An `UPDATE` locks its row, an `INSERT` holds its primary key and its entries
in the unique indexes, and an `UPDATE` of the status the entry that its row
gets in the partial index, or gives up. -/
def Write.keys : Write → List Key
  | insertCompany c => .row "companies" c.id :: (c.ice.map .companyIce).toList
  | insertRecruiter r => [.row "recruiters" r.id, .recruiterUser r.userId]
  | updateRoles id _ => [.row "users" id]
  | insertSubscription s =>
    .row "subscriptions" s.id :: if s.status.inActiveIndex then [.activeIndex s.companyId] else []
  | saveSubscription _ entity reread =>
    .row "subscriptions" entity.id ::
      if entity.status ≠ reread.status ∧
          (entity.status.inActiveIndex = true ∨ reread.status.inActiveIndex = true) then
        [.activeIndex entity.companyId]
      else []
  | incrementContactsUsed id => [.row "subscriptions" id]
  | insertProcessedWebhookEvent e =>
    [.row "processed_webhook_events" e.id, .providerEventId e.providerEventId]
  | insertInvoiceSequence year => [.sequence year]
  | lockInvoiceSequence year => [.sequence year]
  | setLastNumber year _ => [.sequence year]
  | insertInvoice i =>
    [.row "invoices" i.id, .invoiceNumber i.invoiceNumber, .stripeInvoiceId i.stripeInvoiceId]
  | insertTrialCode c => [.row "trial_codes" c.id, .trialCode c.code]
  | saveTrialCode entity _ => [.row "trial_codes" entity.id]
  | insertRedemption r => [.row "trial_code_redemptions" r.id, .redemptionCompany r.companyId]
  | incrementUsedCount id => [.row "trial_codes" id]
  | setConvertedAt companyId _ => [.redemptionCompany companyId]
  | insertConversation c =>
    [.row "conversations" c.id, .conversationPair c.candidateId c.companyId]
  | insertMessage m => [.row "messages" m.id]
  | tick _ | insertAuditLog _ | upload _ | callStripe _ => []

def store : Store Db Write Key := ⟨Write.apply, Write.keys⟩

/-- A service method: a program over `Db`. -/
abbrev M (α : Type) := Prog Db Write Error α

end JobBoard
