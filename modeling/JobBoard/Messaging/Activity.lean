import JobBoard.Messaging.Contacts
import JobBoard.Messaging.Inbox

/-!
# Openings and messages

Recruiters open threads while the members of the threads send and list messages. The opening is
the program over the subscriptions of `Services.Conversations`, the rest are the programs over the
threads; `contacts` is what the opening sees of a database of both. A row that is inserted in a
transaction has the time at which the transaction began.
-/

set_option autoImplicit false

namespace JobBoard.Messaging.Activity

open Txn Prog
open Messaging.ConversationService (sendMessage sendAttachment listMessages AttachmentUpload
  ScanResult MessageView findAuthorizedConversation findInCompany findAsCandidate insertMessage
  checkAttachment)
open JobBoard.ConversationService (createThread createThread_plain onError
  assertActiveSubscription_plain)

/-! ## The database -/

structure Db where
  base : JobBoard.Db
  threads : Messaging.Db

/-- What the services of the subscriptions see. -/
def contacts (db : Db) : JobBoard.Db :=
  { db.base with
    now := db.threads.now
    recruiters := db.threads.recruiters
    candidateProfiles := db.threads.candidateProfiles.map (·.toCandidateProfile) fun _ => rfl
    conversations := db.threads.conversations.map (·.toConversation) fun _ => rfl
    messages := db.threads.messages.map (·.toMessage) fun _ => rfl }

inductive Write where
  /-- A write of a transaction that began at the given time. -/
  | opening (began : Time) (w : JobBoard.Write)
  | thread (w : Messaging.Write)

def openedThread (began : Time) (c : JobBoard.Conversation) : Conversation :=
  { c with status := .opened, updatedAt := began }

def openedMessage (began : Time) (m : JobBoard.Message) : Message :=
  { m with
    attachmentStorageKey := none
    attachmentOriginalName := none
    attachmentMimeType := none
    attachmentSize := none
    readAt := none
    createdAt := began }

def Write.apply (db : Db) : Write → Db
  | opening began (.insertConversation c) =>
    { db with threads := { db.threads with
        conversations := db.threads.conversations.insert (openedThread began c) } }
  | opening began (.insertMessage m) =>
    { db with threads := { db.threads with
        messages := db.threads.messages.insert (openedMessage began m) } }
  | opening _ (.insertRecruiter r) =>
    { db with threads := { db.threads with recruiters := db.threads.recruiters.insert r } }
  | opening _ (.tick ms) => { db with threads := { db.threads with now := db.threads.now + ms } }
  | opening _ w => { db with base := w.apply db.base }
  | thread w => { db with threads := w.apply db.threads }

def Write.keys : Write → List JobBoard.Key
  | opening _ w => w.keys
  | thread (.insertMessage m) => [.row "messages" m.id]
  | thread (.insertInterview v) => [.row "interviews" v.id]
  | thread (.saveInterview entity _) => [.row "interviews" entity.id]
  | thread _ => []

def store : Store Db Write JobBoard.Key := ⟨Write.apply, Write.keys⟩

abbrev M (α : Type) := Prog Db Write Error α

/-! ## The system -/

/-- A program over the threads. -/
def inThreads {α : Type} (p : Messaging.M α) : M α := p.zoom Db.threads .thread

/-- A program over the subscriptions, in a transaction that began at the given time. -/
def onContacts {α : Type} (began : Time) (p : JobBoard.M α) : M α :=
  p.zoom contacts (.opening began)

/-- A program that only reads. -/
def readContacts {α : Type} (p : JobBoard.M α) : M α := onContacts 0 p

/-- `ConversationService.openConversation`. -/
def openConversation (config : Config) (uuid recruiterUserId candidateProfileId : Id)
    (firstMessageBody : String) : M JobBoard.Conversation := do
  let companyId ← readContacts (SubscriptionGuardService.assertActiveSubscription config
    recruiterUserId)
  match ← select fun db => db.threads.candidateProfiles.get? candidateProfileId with
  | none => throw (.candidateProfileNotFound candidateProfileId)
  | some _ =>
    transaction
      (do
        let began ← select fun db => db.threads.now
        onContacts began (createThread uuid recruiterUserId candidateProfileId companyId
          firstMessageBody))
      (fun error => readContacts (onError candidateProfileId companyId error)) pure

inductive Op where
  | clock (ms : Nat)
  | openConversation (recruiterUserId candidateProfileId : Id) (firstMessageBody : String)
  | sendMessage (conversationId : Id) (caller : Caller) (body : String)
  | sendAttachment (conversationId : Id) (caller : Caller) (file : AttachmentUpload)
      (scan : ScanResult) (body : Option String)
  | listMessages (conversationId : Id) (caller : Caller)
  deriving DecidableEq, Repr

inductive Result where
  | unit
  | conversation (c : JobBoard.Conversation)
  | message (m : Message)
  | messages (ms : List MessageView)
  deriving DecidableEq, Repr

def program (config : Config) (uuid : Id) : Op → M Result
  | .clock ms => do
    write fun _ => [.thread (.tick ms)]
    return .unit
  | .openConversation recruiterUserId candidateProfileId firstMessageBody => do
    return .conversation
      (← openConversation config uuid recruiterUserId candidateProfileId firstMessageBody)
  | .sendMessage conversationId caller body => do
    return .message (← inThreads (sendMessage uuid conversationId caller body))
  | .sendAttachment conversationId caller file scan body => do
    return .message (← inThreads (sendAttachment uuid conversationId caller file scan body))
  | .listMessages conversationId caller => do
    return .messages (← inThreads (listMessages conversationId caller))

def system (config : Config) : System Db Write JobBoard.Key Error Result Op :=
  ⟨store, program config, JobBoard.isFault⟩

abbrev RunState := State Db Write Error Result Op

/-! ## What the opening sees -/

theorem contacts_apply (began : Time) (d : Db) (w : JobBoard.Write) :
    contacts (store.apply d (.opening began w)) = JobBoard.store.apply (contacts d) w := by
  cases w with
  | insertConversation c =>
    have h : (d.threads.conversations.insert (openedThread began c)).map (·.toConversation)
        (fun _ => rfl) = (contacts d).conversations.insert c := Table.map_insert fun _ => rfl
    exact congrArg (fun t => { contacts d with conversations := t }) h
  | insertMessage m =>
    have h : (d.threads.messages.insert (openedMessage began m)).map (·.toMessage)
        (fun _ => rfl) = (contacts d).messages.insert m := Table.map_insert fun _ => rfl
    exact congrArg (fun t => { contacts d with messages := t }) h
  | _ => rfl

theorem contacts_applyAll (began : Time) (d : Db) (ws : List JobBoard.Write) :
    contacts (store.applyAll d (ws.map (.opening began))) =
      JobBoard.store.applyAll (contacts d) ws := by
  induction ws generalizing d with
  | nil => rfl
  | cons w ws ih => rw [List.map_cons, Store.applyAll_cons, ih, contacts_apply, Store.applyAll_cons]

theorem locks_opening (began : Time) (ws : List JobBoard.Write) :
    store.locks (ws.map (.opening began)) = JobBoard.store.locks ws := by
  induction ws with
  | nil => rfl
  | cons w ws ih => rw [List.map_cons, Store.locks_cons, ih, Store.locks_cons]; rfl

/-! ## Rely and guarantee -/

/-- The others, as the opening sees them. -/
def Rely (h : List JobBoard.Key) (d d' : Db) : Prop := ContactRely h (contacts d) (contacts d')

/-- What a member of a thread writes. -/
def CanSend (d : Db) : Messaging.Write → Prop
  | .insertMessage m => m.createdAt = d.threads.now ∧ d.threads.messages.get? m.id = none ∧
      ∃ c ∈ d.threads.conversations.rows, c.id = m.conversationId
  | .tick _ | .markRead .. | .putObject _ => True
  | _ => False

/-- The groups of the runs: an opening, or one write in the threads. -/
inductive Step (d : Db) : List Write → Prop
  | opening {began start : Time} {id company : Id} {c : JobBoard.Conversation}
      {m : JobBoard.Message} : began ≤ d.threads.now → CanOpen start (contacts d) id company c m →
      Step d ((openingWrites id c m).map (.opening began))
  | thread {w : Messaging.Write} : CanSend d w → Step d [.thread w]

section

variable {d : Db} {w : Messaging.Write}

theorem conversation_mem {c : JobBoard.Conversation} :
    c ∈ (contacts d).conversations.rows ↔ ∃ t ∈ d.threads.conversations.rows,
      t.toConversation = c := List.mem_map

theorem message_mem {m : JobBoard.Message} :
    m ∈ (contacts d).messages.rows ↔ ∃ t ∈ d.threads.messages.rows, t.toMessage = m :=
  List.mem_map

/-- The others rely on what a member writes. -/
theorem sent_rely (h : CanSend d w) {k : List JobBoard.Key}
    (hk : ∀ x ∈ k, x ∉ store.locks [.thread w]) : Rely k d (store.applyAll d [.thread w]) := by
  cases w with
  | tick ms =>
    exact ⟨Int.le_add_of_nonneg_right (Int.natCast_nonneg ms), fun _ => rfl, fun _ _ => rfl,
      fun _ h => h, fun _ h _ => h, fun _ h _ => h⟩
  | putObject key => exact ContactRely.refl
  | markRead conversationId userId role readAt =>
    refine ⟨Int.le_refl _, fun _ => rfl, fun _ _ => rfl, fun _ h => h, fun _ h _ => h, ?_⟩
    intro m hm _
    obtain ⟨t, ht, rfl⟩ := message_mem.1 hm
    obtain ⟨t', ht', rfl⟩ := List.mem_map.1 ht
    refine message_mem.2 ⟨t', ht', ?_⟩
    split <;> rfl
  | insertMessage m =>
    refine ⟨Int.le_refl _, fun _ => rfl, fun _ _ => rfl, fun _ h => h, fun _ h _ => h, ?_⟩
    intro x hx hlocked
    obtain ⟨t, ht, rfl⟩ := message_mem.1 hx
    rcases Table.mem_insert ht with ht | rfl
    · exact message_mem.2 ⟨t, ht, rfl⟩
    · exact absurd (by simp [Store.locks, store, Write.keys]) (hk _ hlocked)
  | _ => exact h.elim

theorem Step.rely {ws : List Write} (h : Step d ws) {k : List JobBoard.Key}
    (hk : ∀ x ∈ k, x ∉ store.locks ws) : Rely k d (store.applyAll d ws) := by
  cases h with
  | opening _ hopen =>
    unfold Rely
    rw [contacts_applyAll]
    rw [locks_opening] at hk
    exact opened_rely hopen.conversation hopen.message hk
  | thread hsend => exact sent_rely hsend hk

theorem sent_kept (hk : Kept d.threads) (h : CanSend d w) :
    Kept (store.applyAll d [.thread w]).threads := by
  cases w with
  | tick ms => exact hk.tick ms
  | putObject key => exact ⟨hk.past, hk.sorted, hk.opened, hk.thread⟩
  | markRead conversationId userId role readAt => exact hk.marked _ readAt
  | insertMessage m => exact hk.sent h.2.1 h.1 h.2.2
  | _ => exact h.elim

/-- Both kinds of steps keep the threads. -/
theorem Step.kept {ws : List Write} (hk : Kept d.threads) (h : Step d ws) :
    Kept (store.applyAll d ws).threads := by
  cases h with
  | @opening began start id company c m hbegan hopen =>
    refine hk.openedBy (c := openedThread began c) (m := openedMessage began m) ?_ ?_
      hopen.opening.1 hbegan
    · refine Table.get?_eq_none.2 fun t ht => ?_
      have hmem : t.toConversation ∈ (contacts d).conversations.rows :=
        conversation_mem.2 ⟨t, ht, rfl⟩
      exact (conversationViolation_none.1 hopen.conversation _ hmem).1
    · refine Table.get?_eq_none.2 fun t ht => ?_
      have hmem : t.toMessage ∈ (contacts d).messages.rows := message_mem.2 ⟨t, ht, rfl⟩
      exact messageViolation_none.1 hopen.message _ hmem
  | thread hsend => exact sent_kept hk hsend

end

/-! ## The programs -/

/-- Whatever a call answers, its groups are steps. -/
def steps (_ : Nat) (_ : Op) : Spec Db Write JobBoard.Key Error Result :=
  ⟨fun _ _ d ws => Step d ws, fun _ _ _ => True, fun _ _ _ => True⟩

/-- Any runs of the system. -/
def always : Assume Db Write JobBoard.Key Op := ⟨.all, Rely, fun _ _ => True⟩

section

variable {config : Config} {op : Op} {c : List (List Write)} {d : Db}

/-- The triple of a piece of a program of the system. -/
abbrev Does {α : Type} (config : Config) (op : Op) (p : M α)
    (Q : Local Db Write Error → Db → α → Prop) (σ : Local Db Write Error) (d : Db) : Prop :=
  wp store ((system config).rules always op) (fun _ _ d ws => Step d ws) (fun _ _ _ => True) p Q σ d

theorem bind_does {α β : Type} {p : M β} {f : β → M α}
    {Q : Local Db Write Error → Db → α → Prop} {σ : Local Db Write Error} :
    Does config op (p >>= f) Q σ d ↔
      Does config op p (fun σ d b => Does config op (f b) Q σ d) σ d := by
  unfold Does
  rw [wp_bind]

theorem select_does {α : Type} {f : Db → α} {Q : Local Db Write Error → Db → α → Prop}
    (h : ∀ d', Rely [] d d' → Q ⟨none, c⟩ d' (f d')) :
    Does config op (select f) Q ⟨none, c⟩ d :=
  wp_select fun d' hr => ⟨fun _ _ => trivial, h d' hr⟩

theorem query_does {α : Type} {f : Db → Except Error (List Write × α)}
    {Q : Local Db Write Error → Db → α → Prop}
    (h : ∀ d' ws a, Rely [] d d' → f d' = .ok (ws, a) →
      Step d' ws ∧ Q ⟨none, c⟩ (store.applyAll d' ws) a) :
    Does config op (query f) Q ⟨none, c⟩ d := by
  intro d' hr
  refine ⟨fun _ _ => trivial, fun _ => ?_⟩
  simp only [Store.view_none]
  cases hf : f d' with
  | ok r => exact ⟨fun _ => (h d' r.1 r.2 hr hf).1, (h d' r.1 r.2 hr hf).2⟩
  | error e => exact ⟨fun hne => absurd rfl hne, trivial⟩

/-- A single statement outside a transaction. -/
theorem write_does {w : Db → Messaging.Write} {Q : Local Db Write Error → Db → Unit → Prop}
    (h : ∀ d', Rely [] d d' → CanSend d' (w d') ∧
      Q ⟨none, c⟩ (store.applyAll d' [.thread (w d')]) ()) :
    Does config op (write fun d => [.thread (w d)]) Q ⟨none, c⟩ d :=
  fun d' hr => ⟨fun _ _ => trivial, fun _ => ⟨fun _ => .thread (h d' hr).1, (h d' hr).2⟩⟩

theorem rely_kept {d' : Db} (hr : Rely [] d d') {id : Id}
    (h : ∃ c ∈ d.threads.conversations.rows, c.id = id) :
    ∃ c ∈ d'.threads.conversations.rows, c.id = id := by
  obtain ⟨t, ht, hid⟩ := h
  obtain ⟨t', ht', heq⟩ := conversation_mem.1 (hr.kept _ (conversation_mem.2 ⟨t, ht, rfl⟩))
  refine ⟨t', ht', ?_⟩
  rw [← hid]
  exact congrArg JobBoard.Conversation.id heq

theorem companyOf_does {caller : Caller} {Q : Local Db Write Error → Db → Option Id → Prop}
    (h : ∀ d' companyId, Q ⟨none, c⟩ d' companyId) :
    Does config op (zoom Db.threads Write.thread (ConversationService.companyOf caller)) Q
      ⟨none, c⟩ d := by
  unfold ConversationService.companyOf
  split
  · exact h d none
  · exact select_does fun d₁ _ => h d₁ _

theorem thread_mem {d' : Db} {conversationId : Id} {p : Conversation → Bool} {r : Conversation}
    (h : (d'.threads.conversations.get? conversationId).filter p = some r) :
    r ∈ d'.threads.conversations.rows :=
  Table.mem_of_get? (Option.filter_eq_some_iff.1 h).1

theorem findInCompany_does {conversationId : Id} {companyId : Option Id}
    {Q : Local Db Write Error → Db → Option Conversation → Prop}
    (h : ∀ d' c?, (∀ r, c? = some r → r ∈ d'.threads.conversations.rows) → Q ⟨none, c⟩ d' c?) :
    Does config op (zoom Db.threads Write.thread (findInCompany conversationId companyId)) Q
      ⟨none, c⟩ d := by
  cases companyId with
  | none => exact h d none fun _ hr => by cases hr
  | some companyId => exact select_does fun d₁ _ => h d₁ _ fun _ hr => thread_mem hr

theorem findAsCandidate_does {conversationId userId : Id}
    {Q : Local Db Write Error → Db → Option Conversation → Prop}
    (h : ∀ d' c?, (∀ r, c? = some r → r ∈ d'.threads.conversations.rows) → Q ⟨none, c⟩ d' c?) :
    Does config op (zoom Db.threads Write.thread (findAsCandidate conversationId userId)) Q
      ⟨none, c⟩ d := by
  unfold findAsCandidate
  rw [zoom_bind, zoom_select, bind_does]
  refine select_does fun d₁ _ => ?_
  cases d₁.threads.profileOf userId with
  | none => exact h d₁ none fun _ hr => by cases hr
  | some profile => exact select_does fun d₂ _ => h d₂ _ fun _ hr => thread_mem hr

/-- A member acts in a thread that exists. -/
theorem findAuthorizedConversation_does {conversationId : Id} {caller : Caller}
    {Q : Local Db Write Error → Db → Conversation × MessageSenderRole → Prop}
    (h : ∀ d' r, r.1 ∈ d'.threads.conversations.rows → Q ⟨none, c⟩ d' r) :
    Does config op (inThreads (findAuthorizedConversation conversationId caller)) Q ⟨none, c⟩
      d := by
  unfold inThreads findAuthorizedConversation
  rw [zoom_bind, bind_does]
  refine companyOf_does fun d₁ companyId => ?_
  rw [zoom_bind, bind_does]
  refine findInCompany_does fun d₂ c? hc => ?_
  cases c? with
  | some conversation => exact h d₂ _ (hc conversation rfl)
  | none =>
    rw [zoom_bind, bind_does]
    refine findAsCandidate_does fun d₃ c? hc => ?_
    cases c? with
    | some conversation => exact h d₃ _ (hc conversation rfl)
    | none => exact trivial

/-- What is answered does not matter. -/
abbrev Acts {α : Type} (config : Config) (op : Op) (p : M α) (d : Db) : Prop :=
  Does config op p (fun σ _ _ => σ.tx = none ∧ True) ⟨none, []⟩ d

theorem insertMessage_acts {message : Time → Message} (hnow : ∀ now, (message now).createdAt = now)
    {conversationId : Id} (hthread : ∀ now, (message now).conversationId = conversationId)
    (hc : ∃ c ∈ d.threads.conversations.rows, c.id = conversationId) :
    Acts config op (inThreads (insertMessage message)) d := by
  unfold inThreads insertMessage
  rw [zoom_query]
  refine query_does fun d' ws a hr hf => ?_
  split at hf
  · cases hf
  · next hfree =>
    cases hf
    refine ⟨.thread ⟨hnow _, by simpa using hfree, ?_⟩, rfl, trivial⟩
    rw [hthread]
    exact rely_kept hr hc

theorem sendMessage_acts {uuid conversationId : Id} {caller : Caller} {body : String} :
    Acts config op (inThreads (sendMessage uuid conversationId caller body)) d := by
  unfold inThreads sendMessage
  rw [zoom_bind]
  refine bind_does.2 (findAuthorizedConversation_does fun d' r hr => ?_)
  exact insertMessage_acts (fun _ => rfl) (fun _ => rfl) ⟨r.1, hr, rfl⟩

theorem sendAttachment_acts {uuid conversationId : Id} {caller : Caller} {file : AttachmentUpload}
    {scan : ScanResult} {body : Option String} :
    Acts config op (inThreads (sendAttachment uuid conversationId caller file scan body)) d := by
  unfold inThreads sendAttachment
  rw [zoom_bind]
  refine bind_does.2 (findAuthorizedConversation_does fun d' r hr => ?_)
  dsimp only
  rw [zoom_bind, bind_does]
  unfold checkAttachment
  repeat' split
  case isFalse.isFalse.isFalse.isFalse =>
    rw [zoom_bind, zoom_write]
    refine bind_does.2 (write_does fun d₁ hr₁ => ⟨trivial, ?_⟩)
    have hthread : ∃ c ∈ d₁.threads.conversations.rows, c.id = r.1.id :=
      rely_kept hr₁ ⟨r.1, hr, rfl⟩
    exact insertMessage_acts (fun _ => rfl) (fun _ => rfl) hthread
  all_goals exact trivial

theorem listMessages_acts {conversationId : Id} {caller : Caller} :
    Acts config op (inThreads (listMessages conversationId caller)) d := by
  unfold inThreads listMessages
  rw [zoom_bind]
  refine bind_does.2 (findAuthorizedConversation_does fun d' r _ => ?_)
  dsimp only
  rw [zoom_bind, zoom_select, bind_does]
  refine select_does fun d₁ _ => ?_
  rw [zoom_bind, zoom_write, bind_does]
  refine write_does fun d₂ _ => ⟨trivial, ?_⟩
  rw [zoom_bind, zoom_select, bind_does]
  exact select_does fun _ _ => ⟨rfl, trivial⟩

/-- A program that only reads what the opening sees. -/
theorem readContacts_does {α : Type} {p : JobBoard.M α}
    (hp : p.Plain (· = []) (fun _ => False) fun _ => True)
    {Q : Local Db Write Error → Db → α → Prop} (h : ∀ d' a, Q ⟨none, c⟩ d' a) :
    Does config op (readContacts p) Q ⟨none, c⟩ d := by
  have hplain : (readContacts p).Plain (· = []) (fun _ => False) fun _ => True :=
    hp.zoom (fun ws h => by rw [h]; rfl) fun _ h => h.elim
  exact hplain.wp_reads (fun _ _ _ => trivial) (fun _ _ => trivial) (fun _ h => h.elim)
    fun t a _ => h t.2 a

/-- The transaction commits the opening of a thread that began no later than now. -/
theorem createThread_step {uuid user candidate company : Id} {body : String}
    {t : List Write × Db} {d₂ : Db} {b : JobBoard.Conversation}
    (hy : (do
      let began ← select fun db => db.threads.now
      onContacts began (createThread uuid user candidate company body)
        : M JobBoard.Conversation).Yields store Rely ([], d) t b)
    (hr : Rely (store.locks t.1) t.2 d₂) : Step d₂ t.1 := by
  obtain ⟨_, began, hbegan, hy⟩ := yields_bind.1 hy
  obtain ⟨d₁, -, rfl, rfl⟩ := yields_select.1 hbegan
  obtain ⟨ps, hps, hy⟩ := yields_zoom (contacts_apply _) (fun _ => rfl) [] hy
  rw [hps, locks_opening] at hr
  have hafter : ContactRely [] (contacts d₁) (contacts t.2) :=
    (createThread_plain.yields (fun _ _ => .refl) .trans
      (fun h => h.mono fun _ hk => List.mem_append_left _ hk) (fun _ _ _ h => h.elim) hy).1
  obtain ⟨id, rfl, -, hopen⟩ := createThread_canOpen (Int.le_refl _) hy hr
  rw [hps]
  exact .opening (Int.le_trans hafter.now hr.now) hopen

theorem openConversation_acts {uuid user candidate : Id} {body : String} :
    Acts config op (openConversation config uuid user candidate body) d := by
  have hguard : (SubscriptionGuardService.assertActiveSubscription config user).Plain (· = [])
      (fun _ => False) fun _ => True := assertActiveSubscription_plain config user fun _ => trivial
  unfold openConversation
  refine bind_does.2 (readContacts_does hguard fun d₁ company => ?_)
  refine bind_does.2 (select_does fun d₂ _ => ?_)
  split
  · trivial
  · have hbody : (do
        let began ← select fun db => db.threads.now
        onContacts began (createThread uuid user candidate company body)
          : M JobBoard.Conversation).Plain (fun _ => True) (fun _ => False) fun _ => True :=
      (plain_select trivial _).bind fun _ =>
        createThread_plain.zoom (fun _ _ => trivial) fun _ h => h.elim
    refine hbody.wp_transaction (fun _ _ => trivial) (fun _ _ _ h => h.elim)
      (fun _ _ _ => trivial) (fun e d₃ _ => ?_) fun d₃ t b d₄ _ hy hd₄ =>
        ⟨createThread_step hy hd₄, rfl, trivial⟩
    refine readContacts_does ?_ fun _ _ => ⟨rfl, trivial⟩
    unfold onError JobBoard.ConversationService.findThread
    split
    · refine Plain.bind (plain_select (by rfl) _) fun found => ?_
      split <;> trivial
    · trivial

end

/-! ## Runs -/

theorem activity_sound (config : Config) :
    Sound (system config) always (fun d => Kept d.threads) steps where
  refl := .refl
  trans := .trans
  weaken := fun hr => hr.mono (by simp)
  settled := fun _ => trivial
  post := fun _ _ => trivial
  err := fun _ _ => trivial
  step := fun hk hg => ⟨hg.kept hk, trivial, fun _ _ hh _ => hg.rely hh⟩
  prog := by
    intro i op d _ _
    have hret : ∀ {α : Type} {p : M α} (f : α → Result), Acts config op p d →
        Does config op (p >>= fun a => ret (f a)) (steps i op).final ⟨none, []⟩ d := by
      intro α p f hp
      exact bind_does.2 hp
    cases op with
    | clock ms => exact bind_does.2 (write_does fun d' _ => ⟨trivial, rfl, trivial⟩)
    | openConversation user candidate body => exact hret _ openConversation_acts
    | sendMessage conversationId caller body => exact hret _ sendMessage_acts
    | sendAttachment conversationId caller file scan body => exact hret _ sendAttachment_acts
    | listMessages conversationId caller => exact hret _ listMessages_acts

/-- In every state of every run, the answers to `listConversations` list the threads of the caller
with the latest activity first exactly when the threads are in step. -/
theorem inbox_iff (config : Config) {d₀ : Db} (h : Kept d₀.threads) {s : RunState}
    (hs : (system config).Reachable d₀ s) (caller : Caller) :
    (∀ list, Lists caller s.db.threads list → Listed caller s.db.threads list) ↔
      InStep caller s.db.threads :=
  ((activity_sound config).good h hs).inv.listed_iff caller

/-- A company with one recruiter and two candidates, and no thread yet. -/
def twoCandidates : Db where
  base := paidCompany
  threads := { Messaging.Db.empty with
    recruiters := paidCompany.recruiters
    candidateProfiles := ⟨[⟨⟨400, 301⟩, none, none⟩, ⟨⟨401, 302⟩, none, none⟩], by decide⟩ }

theorem twoCandidates_kept : Kept twoCandidates.threads := by
  refine ⟨?_, ?_, ?_, ?_⟩ <;> exact fun _ h => absurd h List.not_mem_nil

/-- The recruiter writes to the first candidate and then to the second. -/
def twoOpenings : List (Label Error Op) :=
  .spawn (.openConversation 300 400 "Bonjour") :: List.replicate 13 (.step 0) ++
    .spawn (.clock 1000) :: List.replicate 2 (.step 1) ++
    .spawn (.openConversation 300 401 "Bonjour") :: List.replicate 13 (.step 2)

/-- The threads of the recruiter in the list, with the times of their last messages. -/
def recruiterList (s : RunState) : List (Id × Option Time) :=
  (ConversationService.listConversations ⟨300, false⟩ s.db.threads).map fun e =>
    (e.id, e.lastMessage.map fun m => m.2.2)

theorem inbox_iff_twoOpenings : ∃ s : RunState,
    recruiterList s = [(2, some 1000), (0, some 0)] ∧
      ((∀ list, Lists ⟨300, false⟩ s.db.threads list → Listed ⟨300, false⟩ s.db.threads list) ↔
        InStep ⟨300, false⟩ s.db.threads) := by
  have hrun : ((system .default).runLabels .all (State.init twoCandidates) twoOpenings).map
      recruiterList = some [(2, some 1000), (0, some 0)] := by decide
  obtain ⟨s, hs, he⟩ := System.reach_of_run hrun
  exact ⟨s, he, inbox_iff .default twoCandidates_kept hs _⟩

/-- The candidate who was written to first answers, and stays below the other one. -/
theorem answer_stays_below : ¬ ∀ (config : Config) (d₀ : Db) (s : RunState) (caller : Caller),
    Kept d₀.threads → (system config).Reachable d₀ s → ∀ list,
      Lists caller s.db.threads list → Listed caller s.db.threads list := by
  intro h
  have hrun : ((system .default).runLabels .all (State.init twoCandidates)
      (twoOpenings ++ .spawn (.clock 1000) :: List.replicate 2 (.step 3) ++
        .spawn (.sendMessage 0 ⟨301, false⟩ "Merci") :: List.replicate 5 (.step 4))).map
      recruiterList = some [(2, some 1000), (0, some 2000)] := by decide
  obtain ⟨s, hs, he⟩ := System.reach_of_run hrun
  have hlisted := h _ _ s ⟨300, false⟩ twoCandidates_kept hs _ (listConversations_lists _ _)
  have htimes : (recruiterList s).Pairwise fun a b =>
      ∀ t t', a.2 = some t → b.2 = some t' → t' ≤ t := by
    unfold recruiterList
    rw [List.pairwise_map]
    refine hlisted.ordered.imp fun hle t t' ht ht' => ?_
    obtain ⟨m, hm, rfl⟩ := Option.map_eq_some_iff.1 ht
    obtain ⟨m', hm', rfl⟩ := Option.map_eq_some_iff.1 ht'
    exact hle m m' hm hm'
  rw [he] at htimes
  exact absurd (List.pairwise_pair.1 htimes 1000 2000 rfl rfl) (by decide)

end JobBoard.Messaging.Activity
