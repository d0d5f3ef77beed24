import JobBoard.Lib.OrderBy
import JobBoard.Messaging.Contacts
import JobBoard.Messaging.Threads

/-!
# The list of threads

`listConversations` orders the threads of a caller by `updatedAt`, which is the time of the
opening: sending a message changes no column of the conversation. The list is in the order of the
latest messages exactly when the caller's threads were opened in that order.
-/

set_option autoImplicit false

namespace JobBoard.Messaging

open Txn Prog OrderBy JobBoard.Messaging.ConversationService

/-! ## What a list says -/

/-- The thread is of the caller's company or profile. -/
def Db.SeenBy (db : Db) (caller : Caller) (c : Conversation) : Prop :=
  db.companyOf caller.userId = some c.companyId ∨
    (db.profileOf caller.userId).map (·.id) = some c.candidateId

/-- The threads that `listConversations` finds. -/
def visible (caller : Caller) (db : Db) : List Conversation :=
  db.conversations.rows.filter fun c =>
    (if caller.lookupFails then none else db.companyOf caller.userId) = some c.companyId ||
      ((db.profileOf caller.userId).map (·.id)) = some c.candidateId

/-- The order of the query. -/
def newestFirst (a b : Conversation) : Prop := b.updatedAt ≤ a.updatedAt

instance : DecidableRel newestFirst := fun a b =>
  inferInstanceAs (Decidable (b.updatedAt ≤ a.updatedAt))

instance : Std.Total newestFirst := ⟨fun a b => Int.le_total b.updatedAt a.updatedAt⟩

instance : IsTrans Conversation newestFirst := ⟨fun _ _ _ h h' => Int.le_trans h' h⟩

/-- An answer to `listConversations`: threads of equal `updatedAt` come in any order. -/
def Lists (caller : Caller) (db : Db) (list : List ConversationSummary) : Prop :=
  ∃ cs, OrderedBy newestFirst (visible caller db) cs ∧
    list = cs.map (summary db caller.userId
      (if caller.lookupFails then none else db.companyOf caller.userId).isSome)

theorem listConversations_lists (caller : Caller) (db : Db) :
    Lists caller db (listConversations caller db) :=
  ⟨_, insertionSort_orderedBy (visible caller db), rfl⟩

/-- What the latest message of the thread shows. -/
def IsLatest (db : Db) (conversationId : Id) (last : Option (String × MessageSenderRole × Time)) :
    Prop :=
  ∃ m ∈ messagesOf db conversationId, last = some (m.body, m.senderRole, m.createdAt) ∧
    ∀ m' ∈ messagesOf db conversationId, m'.createdAt ≤ m.createdAt

/-- The list has the threads of the caller, each once with its latest message, in the order of
these. -/
structure Listed (caller : Caller) (db : Db) (list : List ConversationSummary) : Prop where
  once : (list.map (·.id)).Nodup
  threads : ∀ id, id ∈ list.map (·.id) ↔
    ∃ c ∈ db.conversations.rows, c.id = id ∧ db.SeenBy caller c
  latest : ∀ e ∈ list, IsLatest db e.id e.lastMessage
  ordered : list.Pairwise fun a b => ∀ m m', a.lastMessage = some m → b.lastMessage = some m' →
    m'.2.2 ≤ m.2.2

/-- Each message of the thread `c'` has one as late in the thread `c`. -/
def Db.Outlasts (db : Db) (c c' : Conversation) : Prop :=
  ∀ m' ∈ messagesOf db c'.id, ∃ m ∈ messagesOf db c.id, m'.createdAt ≤ m.createdAt

/-- The caller's company is looked up without failure, or has no threads but those that the
caller's profile has, and of two threads of the caller the one opened later was used later. -/
structure InStep (caller : Caller) (db : Db) : Prop where
  company : caller.lookupFails = true → ∀ c ∈ db.conversations.rows,
    db.companyOf caller.userId = some c.companyId →
      (db.profileOf caller.userId).map (·.id) = some c.candidateId
  later : ∀ c ∈ db.conversations.rows, ∀ c' ∈ db.conversations.rows, db.SeenBy caller c →
    db.SeenBy caller c' → c'.updatedAt ≤ c.updatedAt → db.Outlasts c c'

/-! ## The state of the threads -/

/-- Each thread has messages, which are in the order of their times, none of them in the
future. -/
structure Kept (db : Db) : Prop where
  past : ∀ m ∈ db.messages.rows, m.createdAt ≤ db.now
  sorted : ∀ c ∈ db.conversations.rows,
    (messagesOf db c.id).Pairwise fun m m' => m.createdAt ≤ m'.createdAt
  opened : ∀ c ∈ db.conversations.rows, ∃ m ∈ db.messages.rows, m.conversationId = c.id
  thread : ∀ m ∈ db.messages.rows, ∃ c ∈ db.conversations.rows, c.id = m.conversationId

section

variable {caller : Caller} {db : Db} {c c' : Conversation}

theorem mem_messagesOf {id : Id} {m : Message} :
    m ∈ messagesOf db id ↔ m ∈ db.messages.rows ∧ m.conversationId = id := by
  unfold messagesOf
  rw [List.mem_filter, decide_eq_true_iff]

/-- The last message of a thread is its latest. -/
theorem Kept.last (h : Kept db) (hc : c ∈ db.conversations.rows) :
    ∃ m ∈ messagesOf db c.id, (messagesOf db c.id).getLast? = some m ∧
      ∀ m' ∈ messagesOf db c.id, m'.createdAt ≤ m.createdAt := by
  obtain ⟨m₀, hm₀, hthread⟩ := h.opened c hc
  have hne : messagesOf db c.id ≠ [] := List.ne_nil_of_mem (mem_messagesOf.2 ⟨hm₀, hthread⟩)
  have hsorted := h.sorted c hc
  refine ⟨_, List.getLast_mem hne, List.getLast?_eq_some_getLast hne, fun m' hm' => ?_⟩
  rw [← List.dropLast_append_getLast hne] at hm' hsorted
  rcases List.mem_append.1 hm' with hm' | hm'
  · exact (List.pairwise_append.1 hsorted).2.2 _ hm' _ (List.mem_singleton_self _)
  · rw [List.mem_singleton.1 hm']

theorem visible_nodup : (visible caller db).Nodup :=
  (List.Nodup.of_map _ db.conversations.nodup).filter _

theorem mem_visible : c ∈ visible caller db ↔ c ∈ db.conversations.rows ∧
    ((caller.lookupFails = false ∧ db.companyOf caller.userId = some c.companyId) ∨
      (db.profileOf caller.userId).map (·.id) = some c.candidateId) := by
  unfold visible
  rw [List.mem_filter]
  cases caller.lookupFails <;> simp

theorem seenBy_of_visible (h : c ∈ visible caller db) : db.SeenBy caller c :=
  (mem_visible.1 h).2.imp And.right fun hprofile => hprofile

/-- The threads that the list finds are those of the caller. -/
theorem threads_iff : (∀ c ∈ db.conversations.rows, db.SeenBy caller c → c ∈ visible caller db) ↔
    (caller.lookupFails = true → ∀ c ∈ db.conversations.rows,
      db.companyOf caller.userId = some c.companyId →
        (db.profileOf caller.userId).map (·.id) = some c.candidateId) := by
  constructor
  · intro h hfails c hc hcompany
    rcases (mem_visible.1 (h c hc (.inl hcompany))).2 with ⟨hnot, -⟩ | hprofile
    · rw [hfails] at hnot
      cases hnot
    · exact hprofile
  · intro h c hc hseen
    refine mem_visible.2 ⟨hc, ?_⟩
    rcases hseen with hcompany | hprofile
    · cases hfails : caller.lookupFails with
      | false => exact .inl ⟨rfl, hcompany⟩
      | true => exact .inr (h hfails c hc hcompany)
    · exact .inr hprofile

/-- What the order of two entries of the list says of their threads. -/
theorem Kept.outlasts_iff (h : Kept db) {userId : Id} {viewer : Bool}
    (hc : c ∈ db.conversations.rows) (hc' : c' ∈ db.conversations.rows) :
    (∀ m m', (summary db userId viewer c).lastMessage = some m →
      (summary db userId viewer c').lastMessage = some m' → m'.2.2 ≤ m.2.2) ↔
      db.Outlasts c c' := by
  obtain ⟨last, hmem, hlast, hlatest⟩ := h.last hc
  obtain ⟨last', hmem', hlast', hlatest'⟩ := h.last hc'
  simp only [summary, hlast, hlast', Option.map_some, Option.some.injEq]
  constructor
  · intro hle m' hm'
    exact ⟨last, hmem, Int.le_trans (hlatest' m' hm') (hle _ _ rfl rfl)⟩
  · rintro hout _ _ rfl rfl
    obtain ⟨m, hm, hle⟩ := hout last' hmem'
    exact Int.le_trans hle (hlatest m hm)

/-- Every answer to `listConversations` lists the threads as it should exactly when they are
in step. -/
theorem Kept.listed_iff (h : Kept db) (caller : Caller) :
    (∀ list, Lists caller db list → Listed caller db list) ↔ InStep caller db := by
  have hrows : ∀ c ∈ visible caller db, c ∈ db.conversations.rows :=
    fun c hc => (mem_visible.1 hc).1
  have horder : (∀ cs, OrderedBy newestFirst (visible caller db) cs → cs.Pairwise db.Outlasts) ↔
      ∀ c ∈ visible caller db, ∀ c' ∈ visible caller db, c'.updatedAt ≤ c.updatedAt →
        db.Outlasts c c' := by
    rw [pairwise_iff visible_nodup]
    constructor
    · intro hp c hc c' hc' hle
      by_cases heq : c = c'
      · subst heq
        exact fun m hm => ⟨m, hm, Int.le_refl _⟩
      · exact hp c hc c' hc' heq hle
    · exact fun hp c hc c' hc' _ hle => hp c hc c' hc' hle
  constructor
  · intro hl
    have hthreads : ∀ c ∈ db.conversations.rows, db.SeenBy caller c → c ∈ visible caller db := by
      intro c hc hseen
      have hlisted := hl _ (listConversations_lists caller db)
      obtain ⟨e, he, hid⟩ := List.mem_map.1 ((hlisted.threads c.id).2 ⟨c, hc, rfl, hseen⟩)
      obtain ⟨c', hc', rfl⟩ := List.mem_map.1 he
      have hvisible := (insertionSort_orderedBy (visible caller db)).perm.mem_iff.1 hc'
      rw [Table.eq_of_key hc (hrows c' hvisible) hid.symm]
      exact hvisible
    have hpairs : ∀ cs, OrderedBy newestFirst (visible caller db) cs → cs.Pairwise db.Outlasts := by
      intro cs hcs
      have hordered := (hl _ ⟨cs, hcs, rfl⟩).ordered
      rw [List.pairwise_map] at hordered
      refine hordered.imp_of_mem fun hc hc' hp => ?_
      exact (h.outlasts_iff (hrows _ (hcs.perm.mem_iff.1 hc))
        (hrows _ (hcs.perm.mem_iff.1 hc'))).1 hp
    refine ⟨threads_iff.1 hthreads, fun c hc c' hc' hseen hseen' => ?_⟩
    exact horder.1 hpairs c (hthreads c hc hseen) c' (hthreads c' hc' hseen')
  · rintro hstep _ ⟨cs, hcs, rfl⟩
    have hmem : ∀ {c}, c ∈ cs ↔ c ∈ visible caller db := hcs.perm.mem_iff
    refine ⟨?_, fun id => ?_, ?_, ?_⟩
    · rw [List.map_map]
      exact ((hcs.perm.map _).nodup_iff).2
        (db.conversations.nodup.sublist (List.filter_sublist.map _))
    · simp only [List.map_map, List.mem_map, Function.comp_apply, hmem]
      constructor
      · rintro ⟨c, hc, rfl⟩
        exact ⟨c, hrows c hc, rfl, seenBy_of_visible hc⟩
      · rintro ⟨c, hc, rfl, hseen⟩
        exact ⟨c, threads_iff.2 hstep.company c hc hseen, rfl⟩
    · intro e he
      obtain ⟨c, hc, rfl⟩ := List.mem_map.1 he
      obtain ⟨last, hlast, hget, hlatest⟩ := h.last (hrows c (hmem.1 hc))
      exact ⟨last, hlast, by simp only [summary, hget, Option.map_some], hlatest⟩
    · rw [List.pairwise_map]
      have hlater : ∀ c ∈ visible caller db, ∀ c' ∈ visible caller db,
          c'.updatedAt ≤ c.updatedAt → db.Outlasts c c' := fun c hc c' hc' =>
        hstep.later c (hrows c hc) c' (hrows c' hc') (seenBy_of_visible hc) (seenBy_of_visible hc')
      refine (horder.2 hlater cs hcs).imp_of_mem fun hc hc' hout => ?_
      exact (h.outlasts_iff (hrows _ (hmem.1 hc)) (hrows _ (hmem.1 hc'))).2 hout

end

/-! ## What keeps the threads -/

section

variable {db : Db} {c : Conversation} {m : Message}

theorem messagesOf_insert (hfresh : db.messages.get? m.id = none) (id : Id) :
    messagesOf { db with messages := db.messages.insert m } id =
      messagesOf db id ++ if m.conversationId = id then [m] else [] := by
  unfold messagesOf
  rw [Table.insert_rows hfresh, List.filter_append]
  by_cases h : m.conversationId = id <;> simp [h]

theorem Kept.tick (h : Kept db) (ms : Nat) : Kept { db with now := db.now + ms } where
  past := fun m hm =>
    Int.le_trans (h.past m hm) (Int.le_add_of_nonneg_right (Int.natCast_nonneg ms))
  sorted := h.sorted
  opened := h.opened
  thread := h.thread

/-- A new message of a thread, at the present time. -/
theorem Kept.sent (h : Kept db) (hfresh : db.messages.get? m.id = none)
    (hnow : m.createdAt = db.now) (hthread : ∃ c ∈ db.conversations.rows, c.id = m.conversationId) :
    Kept { db with messages := db.messages.insert m } where
  past := by
    intro m' hm'
    rcases Table.mem_insert hm' with hm' | rfl
    · exact h.past m' hm'
    · exact Int.le_of_eq hnow
  sorted := by
    intro c hc
    rw [messagesOf_insert hfresh]
    refine List.pairwise_append.2 ⟨h.sorted c hc, by split <;> simp, fun a ha b hb => ?_⟩
    have hab : b = m := by
      split at hb
      · exact List.mem_singleton.1 hb
      · cases hb
    rw [hab, hnow]
    exact h.past a (mem_messagesOf.1 ha).1
  opened := by
    intro c hc
    obtain ⟨m', hm', hid⟩ := h.opened c hc
    exact ⟨m', Table.mem_insert_of_mem hm', hid⟩
  thread := by
    intro m' hm'
    rcases Table.mem_insert hm' with hm' | rfl
    · exact h.thread m' hm'
    · exact hthread

/-- A new thread with its first message. -/
theorem Kept.openedBy (h : Kept db) (hc : db.conversations.get? c.id = none)
    (hm : db.messages.get? m.id = none) (hthread : m.conversationId = c.id)
    (hpast : m.createdAt ≤ db.now) :
    Kept { db with
      conversations := db.conversations.insert c
      messages := db.messages.insert m } where
  past := by
    intro m' hm'
    rcases Table.mem_insert hm' with hm' | rfl
    · exact h.past m' hm'
    · exact hpast
  sorted := by
    intro c' hc'
    show (messagesOf { db with messages := db.messages.insert m } c'.id).Pairwise _
    rw [messagesOf_insert hm, hthread]
    rcases Table.mem_insert hc' with hc' | rfl
    · rw [if_neg fun heq => Table.get?_eq_none.1 hc c' hc' heq.symm, List.append_nil]
      exact h.sorted c' hc'
    · have hnone : messagesOf db c'.id = [] := by
        refine List.eq_nil_iff_forall_not_mem.2 fun x hx => ?_
        obtain ⟨hx, hid⟩ := mem_messagesOf.1 hx
        obtain ⟨t, ht, hxt⟩ := h.thread x hx
        exact Table.get?_eq_none.1 hc t ht (hxt.trans hid)
      rw [hnone, if_pos rfl]
      exact List.pairwise_singleton _ _
  opened := by
    intro c' hc'
    rcases Table.mem_insert hc' with hc' | rfl
    · obtain ⟨m', hm', hid⟩ := h.opened c' hc'
      exact ⟨m', Table.mem_insert_of_mem hm', hid⟩
    · refine ⟨m, ?_, hthread⟩
      rw [Table.insert_rows hm]
      exact List.mem_append_right _ (List.mem_singleton_self m)
  thread := by
    intro m' hm'
    rcases Table.mem_insert hm' with hm' | rfl
    · obtain ⟨t, ht, hid⟩ := h.thread m' hm'
      exact ⟨t, Table.mem_insert_of_mem ht, hid⟩
    · refine ⟨c, ?_, hthread.symm⟩
      rw [Table.insert_rows hc]
      exact List.mem_append_right _ (List.mem_singleton_self c)

/-- Receipts change no time and no thread. -/
theorem Kept.marked (h : Kept db) (p : Message → Bool) (readAt : Time) :
    Kept { db with
      messages := db.messages.modifyWhere p (fun m => { m with readAt := some readAt })
        (fun _ => rfl) } := by
  have hmap : ∃ f : Message → Message, (∀ m, (f m).createdAt = m.createdAt ∧
      (f m).conversationId = m.conversationId) ∧
      (db.messages.modifyWhere p (fun m => { m with readAt := some readAt })
        (fun _ => rfl)).rows = db.messages.rows.map f := by
    refine ⟨_, fun m => ?_, rfl⟩
    split <;> exact ⟨rfl, rfl⟩
  obtain ⟨f, hf, hrows⟩ := hmap
  refine ⟨fun m hm => ?_, fun c hc => ?_, fun c hc => ?_, fun m hm => ?_⟩
  · obtain ⟨m', hm', rfl⟩ := List.mem_map.1 (hrows ▸ hm)
    exact (hf m').1 ▸ h.past m' hm'
  · unfold messagesOf
    simp only [hrows, List.filter_map, Function.comp_def, (hf _).2, List.pairwise_map, (hf _).1]
    exact h.sorted c hc
  · obtain ⟨m', hm', hid⟩ := h.opened c hc
    exact ⟨f m', hrows ▸ List.mem_map_of_mem hm', (hf m').2.trans hid⟩
  · obtain ⟨m', hm', rfl⟩ := List.mem_map.1 (hrows ▸ hm)
    exact (hf m').2 ▸ h.thread m' hm'

end

end JobBoard.Messaging
