import JobBoard.Lib.Sound
import JobBoard.Messaging.Opening

/-!
# Racing openings

Any number of `openConversation` calls, interleaved. A call relies on the rows
of subscriptions changing in their counter only, and on nobody writing under its
locks (`ContactRely`); it guarantees that the writes it commits are an opening
on an active subscription with a contact left (`contactSpec`). `Accounted` is
the invariant: counters have grown by the conversations created.
-/

set_option autoImplicit false

namespace JobBoard

open Txn Prog ContactQuotaService ConversationService

def Op.isOpeningOrClock : Op → Bool
  | .openConversation .. => true
  | .clock _ => true
  | _ => false

/-- Openings, while time passes. -/
def openingRuns : Runs Db Write Op := ⟨fun _ op => op.isOpeningOrClock, fun _ _ _ => true, false⟩

/-- All of a subscription but its counter. -/
def Subscription.terms (s : Subscription) : Subscription := { s with contactsUsed := 0 }

theorem isActiveSubscription_terms {company : Id} {t : Time} {s s' : Subscription}
    (h : s'.terms = s.terms) : isActiveSubscription company t s' = isActiveSubscription company t s := by
  show isActiveSubscription company t s'.terms = isActiveSubscription company t s.terms
  rw [h]

/-- A row that is active at a time was active before. -/
theorem isActiveSubscription_earlier {company : Id} {t t' : Time} {s : Subscription} (h : t ≤ t')
    (ha : isActiveSubscription company t' s = true) : isActiveSubscription company t s = true := by
  simp only [isActiveSubscription, Bool.and_eq_true] at ha ⊢
  refine ⟨ha.1, ?_⟩
  cases he : s.endsAt with
  | none => rfl
  | some endsAt =>
    have := ha.2
    simp only [he, decide_eq_true_eq] at this ⊢
    exact Int.lt_of_le_of_lt h this

theorem isActiveSubscription_company {company : Id} {t : Time} {s : Subscription}
    (h : isActiveSubscription company t s = true) : s.companyId = company := by
  simp only [isActiveSubscription, Bool.and_eq_true, decide_eq_true_eq] at h
  exact h.1.1

theorem resolveFrom_ok {company id : Id} {found : List Subscription}
    (h : resolveFrom company found = .ok id) : ∃ s, found = [s] ∧ s.id = id := by
  unfold resolveFrom at h
  split at h
  · cases h
  · next s =>
    cases h
    exact ⟨s, rfl, rfl⟩
  · cases h

/-! ## Rely and guarantee -/

structure ContactRely (h : List Key) (d d' : Db) : Prop where
  now : d.now ≤ d'.now
  terms : ∀ id, (d'.subscription? id).map (·.terms) = (d.subscription? id).map (·.terms)
  row : ∀ id, .row "subscriptions" id ∈ h → d'.subscription? id = d.subscription? id
  kept : ∀ c ∈ d.conversations.rows, c ∈ d'.conversations.rows
  conversation : ∀ c ∈ d'.conversations.rows, .row "conversations" c.id ∈ h ∨
    .conversationPair c.candidateId c.companyId ∈ h → c ∈ d.conversations.rows
  message : ∀ m ∈ d'.messages.rows, .row "messages" m.id ∈ h → m ∈ d.messages.rows

namespace ContactRely

theorem refl {h : List Key} {d : Db} : ContactRely h d d :=
  ⟨Int.le_refl _, fun _ => rfl, fun _ _ => rfl, fun _ h => h, fun _ h _ => h, fun _ h _ => h⟩

theorem trans {h : List Key} {a b c : Db} (hab : ContactRely h a b) (hbc : ContactRely h b c) :
    ContactRely h a c where
  now := Int.le_trans hab.now hbc.now
  terms := fun id => (hbc.terms id).trans (hab.terms id)
  row := fun id hid => (hbc.row id hid).trans (hab.row id hid)
  kept := fun x hx => hbc.kept x (hab.kept x hx)
  conversation := fun x hx hk => hab.conversation x (hbc.conversation x hx hk) hk
  message := fun x hx hk => hab.message x (hbc.message x hx hk) hk

theorem mono {h k : List Key} {d d' : Db} (hr : ContactRely h d d') (hk : ∀ x ∈ k, x ∈ h) :
    ContactRely k d d' where
  now := hr.now
  terms := hr.terms
  row := fun id hid => hr.row id (hk _ hid)
  kept := hr.kept
  conversation := fun c hc h => hr.conversation c hc (h.imp (hk _) (hk _))
  message := fun m hm h => hr.message m hm (hk _ h)

theorem subscription {h : List Key} {d d' : Db} (hr : ContactRely h d d') {id : Id}
    {s s' : Subscription} (hs : d.subscription? id = some s) (hs' : d'.subscription? id = some s') :
    s'.terms = s.terms := by
  have := hr.terms id
  rw [hs, hs'] at this
  simpa using this

end ContactRely

theorem conversationViolation_none {c : Conversation} {d : Db} :
    conversationViolation c d = none ↔ ∀ x ∈ d.conversations.rows, x.id ≠ c.id ∧
      ¬ (x.candidateId = c.candidateId ∧ x.companyId = c.companyId) := by
  unfold conversationViolation
  rw [Table.violation_none]
  simp only [Bool.and_eq_true, beq_iff_eq, ne_eq]

theorem messageViolation_none {m : Message} {d : Db} :
    messageViolation m d = none ↔ ∀ x ∈ d.messages.rows, x.id ≠ m.id := by
  unfold messageViolation
  cases hg : d.messages.get? m.id with
  | some x =>
    simp only [Option.isSome_some, if_true, reduceCtorEq, false_iff]
    exact fun h => h x (Table.mem_of_get? hg) (Table.key_of_get? hg)
  | none => simpa using Table.get?_eq_none.1 hg

/-- The opening of the conversation `c` on the subscription `id` may be
committed: the row is active (at a time from `start` on) and has a contact left,
and nothing stands in the way of the two inserts. -/
structure CanOpen (start : Time) (d : Db) (id company : Id) (c : Conversation) (m : Message) :
    Prop where
  active : ∃ sub t, d.subscription? id = some sub ∧ sub.contactsUsed < sub.contactQuota ∧
    start ≤ t ∧ isActiveSubscription company t sub = true
  company : c.companyId = company
  conversation : conversationViolation c d = none
  message : messageViolation m d = none
  opening : m.conversationId = c.id ∧ m.senderId = c.recruiterId ∧ m.senderRole = .recruiter

def contactSpec (start : Time) (i : Nat) (op : Op) : Spec Db Write Key Error Result where
  guar := fun viaTx _ d ws =>
    match op with
    | .openConversation user candidate body => viaTx = true ∧ ∃ id company,
        ws = openingWrites id ⟨i, candidate, user, company⟩ (openingMessage i user body) ∧
        CanOpen start d id company ⟨i, candidate, user, company⟩ (openingMessage i user body)
    | _ => ∃ ms, ws = [.tick ms]
  err := fun commits _ _ => commits = []
  post := fun commits result d =>
    match result with
    | .conversation c => (commits = [] ∧ c ∈ d.conversations.rows) ∨
        ∃ id m, commits = [openingWrites id c m]
    | _ => True

/-! ## One opening -/

section

variable {d : Db} {id : Id} {c : Conversation} {m : Message}

theorem opened_subscription {k : Id} :
    (store.applyAll d (openingWrites id c m)).subscription? k =
      if k = id then (d.subscription? k).map (fun s => { s with contactsUsed := s.contactsUsed + 1 })
      else d.subscription? k :=
  Table.get?_modify (fun s : Subscription => { s with contactsUsed := s.contactsUsed + 1 })
    fun _ => rfl

theorem opened_terms (k : Id) :
    ((store.applyAll d (openingWrites id c m)).subscription? k).map (·.terms) =
      (d.subscription? k).map (·.terms) := by
  rw [opened_subscription]
  split
  · rw [Option.map_map]
    rfl
  · rfl

theorem opened_conversations (h : conversationViolation c d = none) :
    (store.applyAll d (openingWrites id c m)).conversations.rows = d.conversations.rows ++ [c] := by
  refine Table.insert_rows (Table.get?_eq_none.2 fun x hx => ?_)
  exact (conversationViolation_none.1 h x hx).1

theorem opened_messages (h : messageViolation m d = none) :
    (store.applyAll d (openingWrites id c m)).messages.rows = d.messages.rows ++ [m] :=
  Table.insert_rows (Table.get?_eq_none.2 (messageViolation_none.1 h))

/-- The others rely on it, but for the rows and index entries it writes. -/
theorem opened_rely (hc : conversationViolation c d = none) (hm : messageViolation m d = none)
    {h : List Key} (hh : ∀ k ∈ h, k ∉ store.locks (openingWrites id c m)) :
    ContactRely h d (store.applyAll d (openingWrites id c m)) where
  now := Int.le_refl _
  terms := opened_terms
  row := by
    intro k hk
    rw [opened_subscription, if_neg]
    rintro rfl
    exact hh _ hk (by simp [openingWrites, Store.locks, store, Write.keys])
  kept := by
    intro x hx
    rw [opened_conversations hc]
    exact List.mem_append_left _ hx
  conversation := by
    intro x hx hk
    rw [opened_conversations hc, List.mem_append, List.mem_singleton] at hx
    rcases hx with hx | rfl
    · exact hx
    · rcases hk with hk | hk
      · exact absurd (by simp [openingWrites, Store.locks, store, Write.keys]) (hh _ hk)
      · exact absurd (by simp [openingWrites, Store.locks, store, Write.keys]) (hh _ hk)
  message := by
    intro x hx hk
    rw [opened_messages hm, List.mem_append, List.mem_singleton] at hx
    rcases hx with hx | rfl
    · exact hx
    · exact absurd (by simp [openingWrites, Store.locks, store, Write.keys]) (hh _ hk)

end

/-- What a complete run of `createThread` has seen still holds when it commits:
it holds the locks of all it has written. -/
theorem createThread_canOpen {uuid user candidate company : Id} {body : String} {start : Time}
    {d₁ d₂ : Db} {t : List Write × Db} {c : Conversation} (hd : start ≤ d₁.now)
    (hy : (createThread uuid user candidate company body).Yields store ContactRely ([], d₁) t c)
    (hd₂ : ContactRely (store.locks t.1) t.2 d₂) :
    ∃ id, t.1 = openingWrites id c (openingMessage uuid user body) ∧
      c = ⟨uuid, candidate, user, company⟩ ∧
      CanOpen start d₂ id company c (openingMessage uuid user body) := by
  obtain ⟨rfl, id, sub, e₁, e₂, e₃, e₄, h₁, h₂, hres, h₃, hsub, hlt, h₄, hconv, h₅, hmsg, ht⟩ :=
    createThread_yields hy
  rw [ht] at hd₂
  refine ⟨id, ht, rfl, ?_, rfl, ?_, ?_, rfl, rfl, rfl⟩
  · obtain ⟨s, hfound, rfl⟩ := resolveFrom_ok hres
    have hmem := List.mem_filter.1 (hfound ▸ List.mem_singleton_self s : s ∈ _)
    have hs : e₂.subscription? s.id = some s := Table.get?_of_mem hmem.1
    have hsub₂ : d₂.subscription? s.id = some sub := by
      rw [hd₂.row s.id (by simp [openingWrites, Store.locks, store, Write.keys]),
        h₅.row s.id (by simp [Store.locks, store, Write.keys]),
        h₄.row s.id (by simp [Store.locks, store, Write.keys]), hsub]
    refine ⟨sub, e₁.now, hsub₂, hlt, Int.le_trans hd h₁.now, ?_⟩
    rw [isActiveSubscription_terms (h₃.subscription hs hsub)]
    exact hmem.2
  · rw [conversationViolation_none] at hconv ⊢
    intro x hx
    by_contra hbad
    have hkey : x.id = uuid ∨ (x.candidateId = candidate ∧ x.companyId = company) := by
      by_contra hnot
      exact hbad ⟨fun h => hnot (.inl h), fun h => hnot (.inr h)⟩
    have hx₅ := hd₂.conversation x hx (hkey.imp
      (fun h => by simp [openingWrites, Store.locks, store, Write.keys, h])
      (fun h => by simp [openingWrites, Store.locks, store, Write.keys, h.1, h.2]))
    have hx₄ := h₅.conversation x hx₅ (hkey.imp
      (fun h => by simp [Store.locks, store, Write.keys, h])
      (fun h => by simp [Store.locks, store, Write.keys, h.1, h.2]))
    exact hbad (hconv x hx₄)
  · rw [messageViolation_none] at hmsg ⊢
    intro x hx hid
    refine hmsg x (hd₂.message x hx ?_) hid
    rw [hid]
    simp [openingWrites, Store.locks, store, Write.keys]

/-! ## The accounts -/

/-- At most one active subscription a company, within its quota, on a database
that satisfies the unique constraint of conversations and the foreign key of
messages. -/
structure ContactsStart (d₀ : Db) : Prop where
  single : ∀ company,
    (d₀.subscriptions.rows.filter (isActiveSubscription company d₀.now)).length ≤ 1
  quota : ∀ r ∈ d₀.subscriptions.rows, isActiveSubscription r.companyId d₀.now r = true →
    r.contactsUsed ≤ r.contactQuota
  pairs : d₀.conversations.rows.Pairwise fun a b =>
    ¬ (a.candidateId = b.candidateId ∧ a.companyId = b.companyId)
  messages : ∀ m ∈ d₀.messages.rows, ∃ c ∈ d₀.conversations.rows, c.id = m.conversationId

/-- The conversations of the company created since `d₀`. -/
def createdFor (d₀ d : Db) (company : Id) : Nat :=
  d.conversations.rows.countP fun c => c.companyId = company && !d₀.conversations.rows.contains c

/-- From `d₀` to `d`, contacts were used for the conversations created, one each. -/
structure Accounted (d₀ d : Db) : Prop where
  now : d₀.now ≤ d.now
  terms : ∀ id, (d.subscription? id).map (·.terms) = (d₀.subscription? id).map (·.terms)
  used : ∀ id r₀ r, d₀.subscription? id = some r₀ → d.subscription? id = some r →
    r.contactsUsed = r₀.contactsUsed +
      if isActiveSubscription r₀.companyId d₀.now r₀ then createdFor d₀ d r₀.companyId else 0
  quota : ∀ id r₀ r, d₀.subscription? id = some r₀ → d.subscription? id = some r →
    isActiveSubscription r₀.companyId d₀.now r₀ = true → r.contactsUsed ≤ r.contactQuota
  inactive : ∀ company, (∀ r ∈ d₀.subscriptions.rows, isActiveSubscription company d₀.now r = false) →
    createdFor d₀ d company = 0
  pairs : d.conversations.rows.Pairwise fun a b =>
    ¬ (a.candidateId = b.candidateId ∧ a.companyId = b.companyId)
  kept : ∀ c ∈ d₀.conversations.rows, c ∈ d.conversations.rows
  opening : ∀ c ∈ d.conversations.rows, c ∉ d₀.conversations.rows → ∃ m,
    d.messages.rows.filter (·.conversationId = c.id) = [m] ∧
    m.senderId = c.recruiterId ∧ m.senderRole = .recruiter
  messages : ∀ m ∈ d.messages.rows, ∃ c ∈ d.conversations.rows, c.id = m.conversationId

theorem createdFor_self (d : Db) (company : Id) : createdFor d d company = 0 := by
  rw [createdFor, List.countP_eq_zero]
  intro c hc
  simp [hc]

theorem ContactsStart.accounted {d₀ : Db} (h : ContactsStart d₀) : Accounted d₀ d₀ where
  now := Int.le_refl _
  terms := fun _ => rfl
  used := by
    intro id r₀ r hr₀ hr
    rw [hr₀] at hr
    cases hr
    simp [createdFor_self]
  quota := by
    intro id r₀ r hr₀ hr hact
    rw [hr₀] at hr
    cases hr
    exact h.quota _ (Table.mem_of_get? hr₀) hact
  inactive := fun company _ => createdFor_self d₀ company
  pairs := h.pairs
  kept := fun _ h => h
  opening := fun c hc hn => absurd hc hn
  messages := h.messages

/-- Two active rows of one company are one. -/
theorem ContactsStart.unique {d₀ : Db} (h : ContactsStart d₀) {company : Id} {r s : Subscription}
    (hr : r ∈ d₀.subscriptions.rows) (hs : s ∈ d₀.subscriptions.rows)
    (hra : isActiveSubscription company d₀.now r = true)
    (hsa : isActiveSubscription company d₀.now s = true) : r = s := by
  have hr' := List.mem_filter.2 ⟨hr, hra⟩
  have hs' := List.mem_filter.2 ⟨hs, hsa⟩
  have hlen := h.single company
  cases hf : d₀.subscriptions.rows.filter (isActiveSubscription company d₀.now) with
  | nil => rw [hf] at hr'; cases hr'
  | cons x xs =>
    rw [hf] at hr' hs' hlen
    have hxs : xs = [] := by
      rw [List.length_cons] at hlen
      exact List.eq_nil_of_length_eq_zero (by omega)
    rw [hxs, List.mem_singleton] at hr' hs'
    rw [hr', hs']

section

variable {d₀ d : Db} {id company : Id} {c : Conversation} {m : Message}

theorem createdFor_opened (hI : Accounted d₀ d) (hc : conversationViolation c d = none) (k : Id) :
    createdFor d₀ (store.applyAll d (openingWrites id c m)) k =
      createdFor d₀ d k + if c.companyId = k then 1 else 0 := by
  have hnew : c ∉ d₀.conversations.rows := fun h =>
    (conversationViolation_none.1 hc c (hI.kept c h)).1 rfl
  simp only [createdFor, opened_conversations hc, List.countP_append, List.countP_singleton]
  by_cases hk : c.companyId = k <;> simp [hk, hnew]

/-- The row an opening counts on is the active one of `d₀`. -/
theorem CanOpen.start (hI : Accounted d₀ d) (h : CanOpen d₀.now d id company c m) :
    ∃ r₀ sub, d₀.subscription? id = some r₀ ∧ d.subscription? id = some sub ∧
      isActiveSubscription company d₀.now r₀ = true ∧ sub.contactsUsed < sub.contactQuota := by
  obtain ⟨sub, t, hsub, hlt, ht, hact⟩ := h.active
  have hterms := hI.terms id
  rw [hsub, Option.map_some] at hterms
  obtain ⟨r₀, hr₀, hr₀t⟩ := Option.map_eq_some_iff.1 hterms.symm
  refine ⟨r₀, sub, hr₀, hsub, isActiveSubscription_earlier ht ?_, hlt⟩
  rw [isActiveSubscription_terms hr₀t]
  exact hact

/-- Opening keeps the accounts. -/
theorem Accounted.opened (h₀ : ContactsStart d₀) (hI : Accounted d₀ d)
    (h : CanOpen d₀.now d id company c m) :
    Accounted d₀ (store.applyAll d (openingWrites id c m)) := by
  obtain ⟨r, sub, hr, hsub, hact, hlt⟩ := h.start hI
  have hrc : r.companyId = company := isActiveSubscription_company hact
  have hcreated : ∀ k, createdFor d₀ (store.applyAll d (openingWrites id c m)) k =
      createdFor d₀ d k + if c.companyId = k then 1 else 0 := createdFor_opened hI h.conversation
  have hconv := conversationViolation_none.1 h.conversation
  refine ⟨hI.now, fun k => (opened_terms k).trans (hI.terms k), ?_, ?_, ?_, ?_, ?_, ?_, ?_⟩
  · intro k r₀ r' hr₀ hr'
    rw [opened_subscription] at hr'
    by_cases hk : k = id
    · subst hk
      rw [if_pos rfl, hsub, Option.map_some, Option.some.injEq] at hr'
      rw [hr] at hr₀
      cases hr₀
      have hused := hI.used k r sub hr hsub
      rw [hrc, hact, if_pos rfl] at hused ⊢
      rw [hcreated, if_pos h.company, ← hr']
      simp only
      omega
    · rw [if_neg hk] at hr'
      rw [hI.used k r₀ r' hr₀ hr']
      by_cases ha : isActiveSubscription r₀.companyId d₀.now r₀ = true
      · have hne : c.companyId ≠ r₀.companyId := by
          intro heq
          rw [← heq, h.company] at ha
          have : r₀ = r := h₀.unique (Table.mem_of_get? hr₀) (Table.mem_of_get? hr) ha hact
          subst this
          exact hk ((Table.key_of_get? hr₀).symm.trans (Table.key_of_get? hr))
        rw [ha, hcreated, if_neg hne]
        simp
      · simp [ha]
  · intro k r₀ r' hr₀ hr' ha
    rw [opened_subscription] at hr'
    by_cases hk : k = id
    · subst hk
      rw [if_pos rfl, hsub, Option.map_some, Option.some.injEq] at hr'
      rw [← hr']
      exact hlt
    · rw [if_neg hk] at hr'
      exact hI.quota k r₀ r' hr₀ hr' ha
  · intro k hk
    have hne : c.companyId ≠ k := by
      rintro rfl
      have := hk r (Table.mem_of_get? hr)
      rw [h.company, hact] at this
      cases this
    rw [hcreated, if_neg hne, hI.inactive k hk]
  · rw [opened_conversations h.conversation, List.pairwise_append]
    refine ⟨hI.pairs, List.pairwise_singleton _ _, ?_⟩
    intro x hx y hy
    rw [List.mem_singleton] at hy
    subst hy
    exact (hconv x hx).2
  · intro x hx
    rw [opened_conversations h.conversation]
    exact List.mem_append_left _ (hI.kept x hx)
  · intro x hx hnew
    rw [opened_conversations h.conversation, List.mem_append, List.mem_singleton] at hx
    rw [opened_messages h.message, List.filter_append]
    rcases hx with hx | rfl
    · obtain ⟨m', hm', hsender⟩ := hI.opening x hx hnew
      have hne : m.conversationId ≠ x.id := by
        rw [h.opening.1]
        exact (hconv x hx).1.symm
      exact ⟨m', by simp [hm', hne], hsender⟩
    · refine ⟨m, ?_, h.opening.2⟩
      have hnone : d.messages.rows.filter (·.conversationId = x.id) = [] := by
        rw [List.filter_eq_nil_iff]
        intro y hy hyx
        obtain ⟨z, hz, hzy⟩ := hI.messages y hy
        exact (hconv z hz).1 (hzy.trans (by simpa using hyx))
      simp [hnone, h.opening.1]
  · intro x hx
    rw [opened_messages h.message, List.mem_append, List.mem_singleton] at hx
    rw [opened_conversations h.conversation]
    rcases hx with hx | rfl
    · obtain ⟨z, hz, hzx⟩ := hI.messages x hx
      exact ⟨z, List.mem_append_left _ hz, hzx⟩
    · exact ⟨c, by simp, h.opening.1.symm⟩

end

/-! ## Runs -/

def openings : Assume Db Write Key Op :=
  ⟨openingRuns, ContactRely, fun d d' => ∀ c ∈ d.conversations.rows, c ∈ d'.conversations.rows⟩

theorem Accounted.tick {d₀ d : Db} (hI : Accounted d₀ d) (ms : Nat) :
    Accounted d₀ (store.applyAll d [.tick ms]) where
  now := by
    have := hI.now
    show d₀.now ≤ d.now + (ms : Int)
    exact Int.le_trans this (Int.le_add_of_nonneg_right (Int.natCast_nonneg ms))
  terms := hI.terms
  used := hI.used
  quota := hI.quota
  inactive := hI.inactive
  pairs := hI.pairs
  kept := hI.kept
  opening := hI.opening
  messages := hI.messages

theorem tick_rely (h : List Key) (d : Db) (ms : Nat) :
    ContactRely h d (store.applyAll d [.tick ms]) :=
  ⟨Int.le_add_of_nonneg_right (Int.natCast_nonneg ms), fun _ => rfl, fun _ _ => rfl, fun _ h => h,
    fun _ h _ => h, fun _ h _ => h⟩

theorem openings_step {d₀ d : Db} (h₀ : ContactsStart d₀) (hI : Accounted d₀ d) {i : Nat} {op : Op}
    {b : Bool} {held : List Key} {ws : List Write}
    (hg : (contactSpec d₀.now i op).guar b held d ws) :
    Accounted d₀ (store.applyAll d ws) ∧ ∀ h : List Key, (∀ k ∈ h, k ∉ store.locks ws) →
      ContactRely h d (store.applyAll d ws) := by
  cases op with
  | openConversation user candidate body =>
    obtain ⟨-, id, company, rfl, hopen⟩ := hg
    exact ⟨hI.opened h₀ hopen, fun h hh => opened_rely hopen.conversation hopen.message hh⟩
  | _ =>
    obtain ⟨ms, rfl⟩ := hg
    exact ⟨hI.tick ms, fun h _ => tick_rely h d ms⟩

theorem racing_openings_sound (config : Config) {d₀ : Db} (h₀ : ContactsStart d₀) :
    Sound (system config) openings (Accounted d₀) (contactSpec d₀.now) where
  refl := .refl
  trans := .trans
  weaken := fun hr => hr.mono (by simp)
  settled := fun hr => hr.kept
  post := by
    intro i op commits result d d' h hs
    cases result with
    | conversation c => exact h.imp (fun h => ⟨h.1, hs c h.2⟩) id
    | _ => trivial
  err := fun h _ => h
  step := by
    intro i op b held d ws hI hg
    obtain ⟨hI', hr⟩ := openings_step h₀ hI hg
    exact ⟨hI', (hr [] (by simp)).kept, fun _ h hh _ => hr h hh⟩
  prog := by
    intro i op d hI hop
    cases op with
    | clock ms =>
      show wp store _ _ _ (write _ >>= _) _ _ d
      rw [wp_bind]
      intro d' _
      exact ⟨fun _ _ => rfl, fun _ => ⟨fun _ => ⟨ms, rfl⟩, rfl, trivial⟩⟩
    | openConversation user candidate body =>
      show wp store _ _ _ (openConversation config i user candidate body >>= _) _ _ d
      rw [wp_bind]
      refine openConversation_wp (fun _ _ => .refl) .trans
        (fun hr => hr.mono fun _ hk => List.mem_append_left _ hk) (fun _ _ => rfl)
        (fun d' c hc => ⟨rfl, .inl ⟨rfl, hc⟩⟩) fun d₁ company t c d₂ hd₁ hy hd₂ => ?_
      obtain ⟨id, ht, rfl, hopen⟩ := createThread_canOpen (Int.le_trans hI.now hd₁.now) hy hd₂
      rw [ht]
      exact ⟨⟨rfl, id, company, rfl, hopen⟩, rfl, .inr ⟨id, _, rfl⟩⟩
    | _ => cases hop

/-- A call that failed, or that returned a thread that was already there, has
committed nothing; any other has committed the opening of the thread it returned. -/
def OutcomeAccounted (s : RunState) (i : Nat) : Prop :=
  (∀ e, s.call i = .done (.error e) → s.log.filter (fun g => g.call == i) = []) ∧
  ∀ c, s.call i = .done (.ok (.conversation c)) →
    (s.log.filter (fun g => g.call == i) = [] ∧ c ∈ s.db.conversations.rows) ∨
    ∃ id m, s.log.filter (fun g => g.call == i) = [⟨i, true, openingWrites id c m⟩]

/-- Racing openings, failing or not, keep the accounts. -/
theorem racing_openings_accounted (config : Config) (d₀ : Db) (h₀ : ContactsStart d₀)
    (s : RunState) (hs : (system config).Reach openingRuns d₀ s) :
    Accounted d₀ s.db ∧ ∀ i user candidate body,
      s.ops[i]? = some (.openConversation user candidate body) → OutcomeAccounted s i := by
  have hgood := (racing_openings_sound config h₀).good h₀.accounted hs
  refine ⟨hgood.inv, fun i user candidate body hop => ?_⟩
  have hcall := hgood.call hop
  have hgroups : s.log.filter (fun g => g.call == i) =
      (commitsOf i s.log).map fun ws => ⟨i, true, ws⟩ := by
    refine groups_of_commits i fun g hg hgi => ?_
    obtain ⟨l, r, hlog⟩ := List.append_of_mem hg
    obtain ⟨op, hop', -, _, hguar⟩ := hgood.log hlog
    rw [hgi, hop] at hop'
    cases hop'
    exact hguar.1
  constructor
  · intro e he
    rw [he] at hcall
    have hnone : commitsOf i s.log = [] := hcall
    rw [hgroups, hnone]
    rfl
  · intro c hc
    rw [hc] at hcall
    rcases hcall with ⟨hnone, hmem⟩ | ⟨id, m, hone⟩
    · left
      rw [hgroups, hnone]
      exact ⟨rfl, hmem⟩
    · right
      refine ⟨id, m, ?_⟩
      rw [hgroups, hone]
      rfl

theorem paidCompany_contactsStart : ContactsStart paidCompany where
  single := fun _ => List.length_filter_le _ _
  quota := by decide
  pairs := List.Pairwise.nil
  messages := by simp [paidCompany, Db.empty]

/-- Two calls race for the same candidate: the second one has its contact rolled
back and returns the thread of the first. -/
theorem racing_openings_accounted_twice :
    ∃ s : RunState, answer s 1 = some (.conversation ⟨0, 400, 300, 100⟩) ∧
      Accounted paidCompany s.db ∧ OutcomeAccounted s 1 := by
  have hrun : ((system .default).runLabels openingRuns (State.init paidCompany)
      ([.spawn (.openConversation 300 400 "Bonjour"), .spawn (.openConversation 300 400 "Salut")] ++
        List.replicate 7 (.step 0) ++ List.replicate 7 (.step 1) ++ List.replicate 5 (.step 0) ++
        List.replicate 5 (.step 1))).map
      (fun s => (answer s 1, s.ops[1]?)) = some (some (.conversation ⟨0, 400, 300, 100⟩),
        some (.openConversation 300 400 "Salut")) := by
    decide
  obtain ⟨s, hs, hst⟩ := System.reach_of_run hrun
  simp only [Prod.mk.injEq] at hst
  obtain ⟨hacc, hcalls⟩ :=
    racing_openings_accounted .default paidCompany paidCompany_contactsStart s hs
  exact ⟨s, hst.1, hacc, hcalls 1 300 400 "Salut" hst.2⟩

end JobBoard
