import JobBoard.Services.System

/-!
# The transaction that opens a conversation

`createThread_yields` lists what a complete run of `createThread` has seen and
written: it resolved one active subscription of the company, found a contact
left on it, found no conversation of the pair, and wrote `openingWrites`, one
increment, one conversation and one message.
-/

set_option autoImplicit false

namespace JobBoard

open Txn Prog

/-- The writes of one opening. -/
def openingWrites (subscriptionId : Id) (c : Conversation) (m : Message) : List Write :=
  [.incrementContactsUsed subscriptionId, .insertConversation c, .insertMessage m]

/-- The message that call `uuid` opens its conversation with. -/
def openingMessage (uuid recruiterUserId : Id) (body : String) : Message :=
  ⟨uuid, uuid, recruiterUserId, .recruiter, body⟩

namespace ConversationService

section

variable {uuid user candidate company : Id} {body : String}

theorem createThread_plain :
    (createThread uuid user candidate company body).Plain (fun _ => True) (fun _ => False)
      fun _ => True := by
  unfold createThread ContactQuotaService.consumeOneContact
    ContactQuotaService.resolveActiveSubscriptionId ContactQuotaService.consume
  refine Plain.bind (Plain.bind (Plain.bind (plain_select trivial _) fun _ =>
    Plain.bind (plain_select trivial _) fun _ => plain_ofExcept fun _ _ => trivial) fun _ =>
    plain_query trivial (fun _ _ _ => trivial) fun _ _ _ => trivial) fun _ => ?_
  exact (plain_insertUnique trivial trivial fun _ _ _ => trivial).bind fun _ =>
    (plain_insertUnique trivial trivial fun _ _ _ => trivial).bind fun _ => plain_ret _

theorem consume_yields {rely : List Key → Db → Db → Prop} {id : Id} {s t : List Write × Db}
    {b : Unit} :
    (ContactQuotaService.consume company id).Yields store rely s t b ↔
      ∃ d sub, rely (store.locks s.1) s.2 d ∧ (store.applyAll d s.1).subscription? id = some sub ∧
        sub.contactsUsed < sub.contactQuota ∧ t = (s.1 ++ [.incrementContactsUsed id], d) := by
  unfold ContactQuotaService.consume
  rw [yields_query]
  constructor
  · rintro ⟨d, ws, hr, hf, rfl⟩
    split at hf
    · next sub hsub =>
      split at hf
      · next hlt =>
        cases hf
        exact ⟨d, sub, hr, hsub, hlt, rfl⟩
      · cases hf
    · cases hf
  · rintro ⟨d, sub, hr, hsub, hlt, rfl⟩
    exact ⟨d, _, hr, by simp [hsub, hlt], rfl⟩

/-- What a complete run of `createThread` has seen and written. -/
theorem createThread_yields {rely : List Key → Db → Db → Prop} {d : Db} {t : List Write × Db}
    {c : Conversation}
    (h : (createThread uuid user candidate company body).Yields store rely ([], d) t c) :
    c = ⟨uuid, candidate, user, company⟩ ∧ ∃ id sub d₁ d₂ d₃ d₄,
      rely [] d d₁ ∧ rely [] d₁ d₂ ∧
      ContactQuotaService.resolveFrom company (d₂.subscriptions.rows.filter
        (ContactQuotaService.isActiveSubscription company d₁.now)) = .ok id ∧
      rely [] d₂ d₃ ∧ d₃.subscription? id = some sub ∧ sub.contactsUsed < sub.contactQuota ∧
      rely (store.locks [.incrementContactsUsed id]) d₃ d₄ ∧ conversationViolation c d₄ = none ∧
      rely (store.locks [.incrementContactsUsed id, .insertConversation c]) d₄ t.2 ∧
      messageViolation (openingMessage uuid user body) t.2 = none ∧
      t.1 = openingWrites id c (openingMessage uuid user body) := by
  simp only [createThread, ContactQuotaService.consumeOneContact,
    ContactQuotaService.resolveActiveSubscriptionId, now, yields_bind, yields_select,
    yields_ofExcept, consume_yields, yields_insertUnique, pure_eq, yields_ret] at h
  obtain ⟨_, _, ⟨_, id, ⟨_, _, ⟨d₁, h₁, rfl, rfl⟩, _, _, ⟨d₂, h₂, rfl, rfl⟩, rfl, hres⟩,
    d₃, sub, h₃, hsub, hlt, rfl⟩, _, _, ⟨d₄, h₄, hconv, rfl, -⟩, _, _,
    ⟨d₅, h₅, hmsg, rfl, -⟩, rfl, rfl⟩ := h
  exact ⟨rfl, id, sub, d₁, d₂, d₃, d₄, h₁, h₂, hres, h₃, hsub, hlt, h₄, hconv, h₅, hmsg, rfl⟩

theorem assertActiveSubscription_plain (config : Config) (user : Id) {Er : Error → Prop}
    (h : ∀ m, Er (.forbidden m)) :
    (SubscriptionGuardService.assertActiveSubscription config user).Plain (· = []) (fun _ => False)
      Er := by
  unfold SubscriptionGuardService.assertActiveSubscription
  refine Plain.bind (plain_select (by rfl) _) fun recruiter => ?_
  split
  · exact h _
  · refine Plain.bind (plain_select (by rfl) _) fun subscription => Plain.bind (plain_select (by rfl) _)
      fun time => ?_
    split
    · split
      · trivial
      · exact h _
    · exact h _

end

/-- An opening ends with an existing thread and no commit, with an error and no
commit, or with the commit of a complete run of `createThread`. -/
theorem openConversation_wp {config : Config} {uuid user candidate : Id} {body : String}
    {L : Rules Db Write Key Error} {G : Bool → List Key → Db → List Write → Prop}
    {err : List (List Write) → Error → Db → Prop} {Q : Local Db Write Error → Db → Conversation → Prop}
    {d : Db} (refl : ∀ h d, L.rely h d d)
    (trans : ∀ {h a b c}, L.rely h a b → L.rely h b c → L.rely h a c)
    (mono : ∀ {h k d d'}, L.rely (h ++ k) d d' → L.rely h d d')
    (herr : ∀ e d', err [] e d')
    (hexisting : ∀ d' c, c ∈ d'.conversations.rows → Q ⟨none, []⟩ d' c)
    (hopened : ∀ d₁ company t c d₂, L.rely [] d d₁ →
      (createThread uuid user candidate company body).Yields store L.rely ([], d₁) t c →
      L.rely (store.locks t.1) t.2 d₂ →
      G true [] d₂ t.1 ∧ Q ⟨none, [t.1]⟩ (store.applyAll d₂ t.1) c) :
    wp store L G err (openConversation config uuid user candidate body) Q ⟨none, []⟩ d := by
  unfold openConversation
  rw [wp_bind]
  have hplain : (SubscriptionGuardService.assertActiveSubscription config user).Plain (· = [])
      (fun _ => False) fun _ => True := assertActiveSubscription_plain config user fun _ => trivial
  refine hplain.wp_reads (fun e d' _ => herr e d')
    (fun _ _ => trivial) (fun _ h => h.elim) fun t company ht => ?_
  have hd : L.rely [] d t.2 := (hplain.yields refl trans mono (fun _ _ _ h => h.elim) ht).1
  rw [wp_bind]
  refine wp_select fun d' hd' => ⟨fun e _ => herr e d', ?_⟩
  split
  · exact herr _ d'
  · refine createThread_plain.wp_transaction (fun _ _ => trivial) (fun _ _ _ h => h.elim)
      (fun e d₁ _ => herr e d₁) (fun e d₁ _ => ?_) fun d₁ t' c d₂ hd₁ hy hd₂ => ?_
    · unfold onError
      split
      · rw [wp_bind]
        refine wp_select fun d₂ _ => ⟨fun e _ => herr e d₂, ?_⟩
        split
        · next c hc => exact hexisting d₂ c (List.mem_of_find?_eq_some hc)
        · exact herr e d₂
      · exact herr e d₁
    · exact hopened d₁ company t' c d₂ (trans hd (trans hd' hd₁)) hy hd₂

end ConversationService

end JobBoard
