import JobBoard.Lib.Exec
import JobBoard.Messaging.Contacts

/-!
# Opening a conversation that exists

`openConversation` on a pair that has its thread: the insert fails on the unique pair, everything
is rolled back, and the thread is read again. The quota comes first in the transaction, so
this is what happens only where a contact is left (`reopen_iff`).
-/

set_option autoImplicit false

namespace JobBoard

open Txn Prog ContactQuotaService ConversationService

/-- The thread of a candidate with a company. -/
def Db.thread? (db : Db) (candidate company : Id) : Option Conversation :=
  db.conversations.rows.find? fun c => c.candidateId == candidate && c.companyId == company

/-- The company has one active subscription, with a contact left on it. -/
def Db.ContactLeft (db : Db) (company : Id) : Prop :=
  ∃ sub, db.subscriptions.rows.filter (isActiveSubscription company db.now) = [sub] ∧
    sub.contactsUsed < sub.contactQuota

section

variable {db : Db} {config : Config} {uuid user candidate company : Id} {body : String}
  {c : Conversation}

theorem mem_of_active {sub : Subscription}
    (h : db.subscriptions.rows.filter (isActiveSubscription company db.now) = [sub]) :
    sub ∈ db.subscriptions.rows := by
  have hmem : sub ∈ db.subscriptions.rows.filter (isActiveSubscription company db.now) := by
    rw [h]
    exact List.mem_singleton_self sub
  exact (List.mem_filter.1 hmem).1

theorem consumeOneContact_left (h : db.ContactLeft company) :
    ∃ id, (consumeOneContact company).solo store db = ([[.incrementContactsUsed id]], .ok ()) := by
  obtain ⟨sub, hfound, hlt⟩ := h
  have hsub : db.subscription? sub.id = some sub := Table.get?_of_mem (mem_of_active hfound)
  refine ⟨sub.id, ?_⟩
  simp only [consumeOneContact, resolveActiveSubscriptionId, now, consume, solo_bind, solo_select,
    andThen_nil, hfound, resolveFrom, solo_ofExcept, solo_query, hsub, if_pos hlt, emit]

theorem consumeOneContact_none (h : ¬ db.ContactLeft company) :
    ∃ e, isUniqueViolation e = false ∧
      (consumeOneContact company).solo store db = ([], .error e) := by
  simp only [consumeOneContact, resolveActiveSubscriptionId, now, consume, solo_bind, solo_select,
    andThen_nil, solo_ofExcept]
  cases hres : resolveFrom company (db.subscriptions.rows.filter
      (isActiveSubscription company db.now)) with
  | error e =>
    refine ⟨e, ?_, rfl⟩
    unfold resolveFrom at hres
    split at hres <;> cases hres <;> rfl
  | ok id =>
    obtain ⟨sub, hfound, rfl⟩ := resolveFrom_ok hres
    have hquota : ¬ sub.contactsUsed < sub.contactQuota := fun hlt => h ⟨sub, hfound, hlt⟩
    have hsub : db.subscription? sub.id = some sub := Table.get?_of_mem (mem_of_active hfound)
    refine ⟨.contactQuotaExceeded company, rfl, ?_⟩
    simp only [andThen_nil, solo_query, hsub, if_neg hquota]

/-- The insert of a second thread fails. -/
theorem conversationViolation_thread (uuid user : Id) {d : Db} (hc : d.thread? candidate company = some c) :
    ∃ constraint, conversationViolation ⟨uuid, candidate, user, company⟩ d = some constraint := by
  have hpair : d.conversations.rows.any fun x =>
      x.candidateId == candidate && x.companyId == company := by
    rw [List.any_eq_true]
    exact ⟨c, List.mem_of_find?_eq_some hc, List.find?_some
      (p := fun x : Conversation => x.candidateId == candidate && x.companyId == company) hc⟩
  unfold conversationViolation
  rw [if_pos hpair]
  split
  · exact ⟨_, rfl⟩
  · exact ⟨_, rfl⟩

/-- The transaction fails: with a unique violation where a contact is left. -/
theorem createThread_thread (uuid user : Id) (body : String) (hc : db.thread? candidate company = some c) :
    ∃ e, ((createThread uuid user candidate company body).solo store db).2 = .error e ∧
      (isUniqueViolation e = true ↔ db.ContactLeft company) := by
  unfold createThread
  rw [solo_bind]
  by_cases hleft : db.ContactLeft company
  · obtain ⟨id, hconsume⟩ := consumeOneContact_left hleft
    have hc' : (store.apply db (.incrementContactsUsed id)).thread? candidate company = some c := hc
    obtain ⟨constraint, hviolation⟩ := conversationViolation_thread uuid user hc'
    refine ⟨uniqueViolation constraint, ?_, iff_of_true rfl hleft⟩
    rw [hconsume, andThen_ok, Store.applyGroups_cons, Store.applyGroups_nil, Store.applyAll_cons,
      Store.applyAll_nil]
    simp only [insertUnique, solo_bind, solo_query, hviolation, andThen_error]
  · obtain ⟨e, hunique, hconsume⟩ := consumeOneContact_none hleft
    rw [hconsume, andThen_error]
    exact ⟨e, rfl, iff_of_false (by rw [hunique]; exact Bool.false_ne_true) hleft⟩

/-- The handler reads the thread again after a unique violation. -/
theorem onError_exec (hc : db.thread? candidate company = some c) (e : Error) :
    (onError candidate company e).exec store none db =
      (db, if isUniqueViolation e then .ok c else .error e) := by
  unfold onError
  split
  · unfold findThread
    rw [exec_select_bind, show db.conversations.rows.find? _ = some c from hc]
    rfl
  · rfl

/-- The call ends with the thread or with an error, and nothing is changed. -/
theorem openConversation_exec (uuid : Id) (body : String)
    (hsub : (SubscriptionGuardService.assertActiveSubscription config user).solo store db =
      ([], .ok company)) (hc : db.thread? candidate company = some c) :
    ∃ r, (openConversation config uuid user candidate body).exec store none db = (db, r) ∧
      (r = .ok c ↔ (db.candidateProfiles.get? candidate).isSome ∧ db.ContactLeft company) := by
  have hplain : (SubscriptionGuardService.assertActiveSubscription config user).Plain (· = [])
      (fun _ => False) fun _ => True := assertActiveSubscription_plain config user fun _ => trivial
  unfold openConversation
  rw [hplain.exec_bind, hsub]
  rw [Store.applyGroups_nil]
  dsimp only
  rw [exec_select_bind]
  cases db.candidateProfiles.get? candidate with
  | none =>
    refine ⟨.error (.candidateProfileNotFound candidate), rfl, iff_of_false (by simp) ?_⟩
    exact fun h => Bool.false_ne_true h.1
  | some profile =>
    obtain ⟨e, hfails, hunique⟩ := createThread_thread uuid user body hc
    refine ⟨if isUniqueViolation e then .ok c else .error e, ?_, ?_⟩
    · show (transaction _ _ _).exec store none db = _
      rw [exec_transaction createThread_plain, hfails]
      exact onError_exec hc e
    · by_cases he : isUniqueViolation e = true
      · rw [if_pos he]
        exact iff_of_true rfl ⟨rfl, hunique.1 he⟩
      · rw [if_neg he]
        exact iff_of_false (by simp) fun h => he (hunique.2 h.2)

theorem reopen_iff
    (hsub : (SubscriptionGuardService.assertActiveSubscription config user).solo store db =
      ([], .ok company)) (hc : db.thread? candidate company = some c) :
    (openConversation config uuid user candidate body).exec store none db = (db, .ok c) ↔
      (db.candidateProfiles.get? candidate).isSome ∧ db.ContactLeft company := by
  obtain ⟨r, hr, hiff⟩ := openConversation_exec uuid body hsub hc
  rw [hr, ← hiff, Prod.mk.injEq, and_iff_right rfl]

end

/-- A thread of the candidate 400 with the company 100, which has used `contactsUsed` of its 15
contacts. -/
def openedThread (contactsUsed : Int) : Db :=
  { paidCompany with
    subscriptions := paidCompany.subscriptions.modify 50 (fun s =>
      { s with contactsUsed := contactsUsed }) fun _ => rfl
    conversations := Table.insert ∅ ⟨1, 400, 300, 100⟩ }

theorem reopen_iff_left :
    (openConversation Config.default 9 300 400 "Bonjour").exec store none (openedThread 14) =
      (openedThread 14, .ok ⟨1, 400, 300, 100⟩) := by
  have hsub : (SubscriptionGuardService.assertActiveSubscription Config.default 300).solo store
      (openedThread 14) = ([], .ok 100) := by rfl
  exact (reopen_iff hsub (by rfl)).2 ⟨by rfl, _, by rfl, by decide⟩

/-- No contact is left: the thread is not returned. -/
theorem reopen_exhausted : ¬ ∀ (config : Config) (uuid user candidate company : Id) (body : String)
    (db : Db) (c : Conversation),
    (SubscriptionGuardService.assertActiveSubscription config user).solo store db =
      ([], .ok company) → db.thread? candidate company = some c →
        (openConversation config uuid user candidate body).exec store none db = (db, .ok c) := by
  intro h
  have hthread := h Config.default 9 300 400 100 "Bonjour" (openedThread 15) ⟨1, 400, 300, 100⟩
    (by rfl) (by rfl)
  have hthrown : ((openConversation Config.default 9 300 400 "Bonjour").exec store none
      (openedThread 15)).2 = .error (.contactQuotaExceeded 100) := by rfl
  rw [hthread] at hthrown
  cases hthrown

end JobBoard
