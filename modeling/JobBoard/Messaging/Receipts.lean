import JobBoard.Messaging.Members

/-!
# Read receipts

Opening a thread marks every message of it that somebody else has sent, also the one of a
colleague of the same company, and the count of unread messages is of the same kind. So a
message is marked as read exactly when a member of its thread other than its sender has opened
the thread since it was sent, whichever side that member is on.
-/

set_option autoImplicit false

namespace JobBoard.Messaging

open Txn Prog

/-! ## What the calls publish -/

/-- What is known of a write of a call of `op` at the log `L`. -/
def ReceiptGuarantee (d₀ : Db) (op : Op) (L : Log) : Write → Prop
  | .insertMessage m => (d₀.at L).messages.get? m.id = none ∧ m.readAt = none
  | .markRead conversationId userId role _ => ∃ caller, op = .listMessages conversationId caller ∧
    caller.userId = userId ∧ Participates d₀ conversationId userId role
  | _ => True

section

variable {d₀ : Db} {i : Nat} {op : Op} {L : Log} {ops : List Op}

theorem respond_silent {conversationId interviewId : Id} {caller : Caller}
    {response : InterviewResponse} {Q : Log → InterviewView → Prop} (hQ : ∀ L' view, Q L' view) :
    Keeps d₀ i (ReceiptGuarantee d₀ op)
      (InterviewService.respond conversationId interviewId caller response) Q L := by
  unfold InterviewService.respond
  refine promises_bind.2 (findAuthorizedConversation_keeps fun L₁ c role hr₁ hc hrole => ?_)
  refine promises_bind.2 (promises_select fun L₂ hr₂ => ?_)
  cases ((d₀.at L₂).interviews.get? interviewId).filter (·.conversationId = c.id) with
  | none => trivial
  | some row =>
    dsimp only
    split
    · trivial
    · refine promises_bind.2 (checkRole_keeps fun _ => ?_)
      refine promises_bind.2 (promises_select fun L₃ _ => ?_)
      refine promises_bind.2 ?_
      unfold InterviewService.save
      refine promises_bind.2 (promises_query fun L₄ ws reread? _ hf => ?_)
      cases hf
      refine .inr ⟨_, rfl, trivial, ?_⟩
      cases (d₀.at L₄).interviews.get? row.id with
      | none => trivial
      | some reread =>
        dsimp only
        split
        · exact hQ _ _
        · exact promises_bind.2 (promises_write fun L₅ _ => ⟨trivial, hQ _ _⟩)

theorem receipts_traced (d₀ : Db) :
    Traced system d₀ (fun _ => ReceiptGuarantee d₀) (fun _ _ _ _ => True) where
  mono _ _ := trivial
  prog i op L := by
    cases op with
    | clock ms => exact promises_bind.2 (promises_write fun _ _ => ⟨trivial, trivial⟩)
    | sendMessage conversationId caller body =>
      exact promises_bind.2 (sendMessage_keeps (fun _ _ hm => ⟨hm.fresh, hm.unread⟩)
        fun _ _ => trivial)
    | sendAttachment conversationId caller file scan body =>
      exact promises_bind.2 (sendAttachment_keeps (fun _ _ => trivial)
        (fun _ _ hm => ⟨hm.fresh, hm.unread⟩) fun _ _ => trivial)
    | listMessages conversationId caller =>
      refine promises_bind.2 (listMessages_keeps ?_ fun _ _ => trivial)
      rintro L' c role readAt rfl hc hrole
      exact ⟨caller, rfl, rfl, c, hc, hrole⟩
    | propose conversationId caller input =>
      exact promises_bind.2 (propose_keeps (fun _ _ _ => trivial) fun _ _ => trivial)
    | list conversationId caller => exact promises_bind.2 (list_keeps fun _ _ => trivial)
    | respond conversationId interviewId caller response =>
      exact promises_bind.2 (respond_silent fun _ _ => trivial)

/-! ## What opens a message -/

/-- The write of call `i` at the log `A` is of a member in `role`, not the sender of the message,
who opens its thread after it was sent. -/
structure Opens (d₀ : Db) (ops : List Op) (m : Message) (A : Log) (i : Nat) (w : Write)
    (role : MessageSenderRole) : Prop where
  opened : ∃ caller readAt, ops[i]? = some (.listMessages m.conversationId caller) ∧
    w = .markRead m.conversationId caller.userId role readAt ∧
    Participates d₀ m.conversationId caller.userId role ∧ caller.userId ≠ m.senderId
  sent : ∃ m', (d₀.at A).messages.get? m.id = some m'

/-- A member other than the sender has opened the thread since the message was sent. -/
def OpenedByOther (d₀ : Db) (ops : List Op) (L : Log) (m : Message) : Prop :=
  ∃ A i w role, WrittenAt L A i w ∧ Opens d₀ ops m A i w role

def ReadBefore (d₀ : Db) (m : Message) : Prop :=
  ∃ m₀, d₀.messages.get? m.id = some m₀ ∧ m₀.readAt ≠ none

/-- Read in the database at the start, or opened since. -/
def Opened (d₀ : Db) (ops : List Op) (L : Log) (m : Message) : Prop :=
  ReadBefore d₀ m ∨ OpenedByOther d₀ ops L m

theorem opened_snoc {m : Message} {w : Write} :
    Opened d₀ ops (L ++ [⟨i, false, [w]⟩]) m ↔
      (∃ role, Opens d₀ ops m L i w role) ∨ Opened d₀ ops L m := by
  constructor
  · rintro (h | ⟨A, j, w', role, hw, h⟩)
    · exact .inr (.inl h)
    · rcases writtenAt_snoc.1 hw with ⟨rfl, rfl, rfl⟩ | hw
      · exact .inl ⟨role, h⟩
      · exact .inr (.inr ⟨A, j, w', role, hw, h⟩)
  · rintro (⟨role, h⟩ | h | ⟨A, j, w', role, hw, h⟩)
    · exact .inr ⟨L, i, w, role, writtenAt_self _ _ _, h⟩
    · exact .inl h
    · exact .inr ⟨A, j, w', role, hw.mono (List.prefix_append _ _), h⟩

/-- A write that is no bulk update opens nothing. -/
theorem not_opens {m : Message} {w : Write} (h : ∀ c u role t, w ≠ .markRead c u role t) :
    ¬ ∃ role, Opens d₀ ops m L i w role := by
  rintro ⟨role, ⟨⟨caller, readAt, -, hw, -⟩, -⟩⟩
  exact h _ _ _ _ hw

/-- A message stays. -/
theorem message_kept {A : Log} (hl : A <+: L) {messageId : Id} {m : Message}
    (hm : (d₀.at A).messages.get? messageId = some m) :
    ∃ m', (d₀.at L).messages.get? messageId = some m' := by
  refine replay_keeps (P := fun db : Db => ∃ m', db.messages.get? messageId = some m') ?_ hl
    ⟨m, hm⟩
  rintro db w ⟨m', hm'⟩
  cases w with
  | insertMessage message => exact ⟨m', Table.get?_insert_of_some hm'⟩
  | markRead conversationId userId role readAt =>
    have hget : (store.apply db (.markRead conversationId userId role readAt)).messages.get?
        messageId = (db.messages.get? messageId).map _ :=
      Table.get?_modifyWhere (fun m : Message => { m with readAt := some readAt }) fun _ => rfl
    rw [hm', Option.map_some] at hget
    exact ⟨_, hget⟩
  | _ => exact ⟨m', hm'⟩

theorem not_opened_of_fresh {m : Message} (h : (d₀.at L).messages.get? m.id = none) :
    ¬ Opened d₀ ops L m := by
  have absent : ∀ A m', A <+: L → (d₀.at A).messages.get? m.id ≠ some m' := by
    intro A m' hA hm'
    obtain ⟨m'', hm''⟩ := message_kept hA hm'
    rw [h] at hm''
    cases hm''
  rintro (⟨m₀, hm₀, -⟩ | ⟨A, i, w, role, hw, -, m', hm'⟩)
  · exact absent [] m₀ List.nil_prefix hm₀
  · exact absent A m' hw.onto hm'

/-! ## The marks -/

/-- The messages that are marked as read are those that were opened. -/
def MarksOpened (d₀ : Db) (ops : List Op) (L : Log) : Prop :=
  ∀ messageId m, (d₀.at L).messages.get? messageId = some m →
    (m.readAt ≠ none ↔ Opened d₀ ops L m)

/-- One write keeps the marks. -/
theorem MarksOpened.snoc {w : Write} (h : MarksOpened d₀ ops L) (hop : ops[i]? = some op)
    (hw : ReceiptGuarantee d₀ op L w) : MarksOpened d₀ ops (L ++ [⟨i, false, [w]⟩]) := by
  intro messageId m hm
  rw [at_snoc] at hm
  rw [opened_snoc]
  cases w with
  | insertMessage message =>
    obtain ⟨hfresh, hunread⟩ := hw
    rw [or_iff_right (not_opens fun _ _ _ _ => Write.noConfusion)]
    have hget : ((d₀.at L).messages.insert message).get? messageId =
        if message.id = messageId then some message else (d₀.at L).messages.get? messageId :=
      Table.get?_insert hfresh
    rw [show (store.apply (d₀.at L) (.insertMessage message)).messages =
      (d₀.at L).messages.insert message from rfl, hget] at hm
    split at hm
    · cases hm
      exact iff_of_false (fun hne => hne hunread) (not_opened_of_fresh hfresh)
    · exact h messageId m hm
  | markRead conversationId userId role readAt =>
    obtain ⟨caller, rfl, rfl, hmember⟩ := hw
    have hget : (store.apply (d₀.at L) (.markRead conversationId caller.userId role
        readAt)).messages.get? messageId = ((d₀.at L).messages.get? messageId).map fun r =>
          if Message.isIncoming conversationId caller.userId r then
            { r with readAt := some readAt } else r :=
      Table.get?_modifyWhere (fun m : Message => { m with readAt := some readAt }) fun _ => rfl
    rw [hget] at hm
    obtain ⟨row, hrow, rfl⟩ := Option.map_eq_some_iff.1 hm
    have hid : row.id = messageId := by
      have := Table.key_of_get? hrow
      exact this
    split
    · -- the bulk update marks it, and its call opens it
      next hincoming =>
      simp only [Message.isIncoming, Bool.and_eq_true, decide_eq_true_eq] at hincoming
      obtain ⟨⟨hconv, hsender⟩, -⟩ := hincoming
      refine iff_of_true (by simp) (.inl ⟨role, ⟨caller, readAt, ?_, ?_, ?_, ?_⟩, row, ?_⟩)
      · exact hop.trans (by rw [hconv])
      · rw [hconv]
      · rw [hconv]
        exact hmember
      · exact fun he => hsender he.symm
      · rw [hid]
        exact hrow
    · -- what its call opens besides is marked already
      next hincoming =>
      rw [← h messageId row hrow]
      refine ⟨.inr, Or.rec ?_ id⟩
      rintro ⟨role', ⟨caller', readAt', hop', heq, -, hsender⟩, -⟩ hunread
      refine hincoming ?_
      have hsame := Option.some.inj (hop.symm.trans hop')
      injection hsame with hconv hcaller
      simp only [Message.isIncoming, Bool.and_eq_true, decide_eq_true_eq]
      exact ⟨⟨hconv.symm, fun he => hsender (hcaller ▸ he.symm)⟩, hunread⟩
  | _ =>
    rw [or_iff_right (not_opens fun _ _ _ _ => Write.noConfusion)]
    exact h messageId m hm

variable {s : RunState}

theorem marks_opened (h : system.Reachable d₀ s) : MarksOpened d₀ s.ops s.log := by
  refine along_log (I := MarksOpened d₀ s.ops) ?_ ?_ s.log List.prefix_rfl
  · intro messageId m hm
    have hid : m.id = messageId := by
      have := Table.key_of_get? hm
      exact this
    constructor
    · exact fun hne => .inl ⟨m, by rw [hid]; exact hm, hne⟩
    · rintro (⟨m₀, hm₀, hne⟩ | ⟨A, i, w, role, hw, -⟩)
      · rw [hid] at hm₀
        cases hm₀.symm.trans hm
        exact hne
      · exact absurd (List.prefix_nil.1 hw) (by simp)
  · intro L g hl hmarks
    obtain ⟨op, w, t, hg, hop, ht⟩ := (receipts_traced d₀).published h.within hl
    rw [hg]
    exact hmarks.snoc hop ht.promised

/-! ## The receipts of a run -/

/-- The marks and the counts are those of the openings by the members other than the sender. -/
structure ReceiptsAgree (d₀ : Db) (s : RunState) : Prop where
  read : ∀ m ∈ s.db.messages.rows, m.readAt ≠ none → ReadBefore d₀ m ∨
    OpenedByOther d₀ s.ops s.log m
  unread : ∀ viewer : Caller, ∀ summary ∈ ConversationService.listConversations viewer s.db,
    ∃ ms : List Message, ms.Nodup ∧ summary.unreadCount = ms.length ∧ ∀ m, m ∈ ms ↔
      m ∈ s.db.messages.rows ∧ m.conversationId = summary.id ∧ m.senderId ≠ viewer.userId ∧
        ¬ Opened d₀ s.ops s.log m

end

/-! ## A colleague who opens the thread -/

theorem candidate_nodup : ([(⟨⟨5, 6⟩, none, none⟩ : CandidateProfile)].map
    fun p : CandidateProfile => p.id).Nodup := List.nodup_singleton _

theorem thread_nodup : ([(⟨⟨9, 5, 7, 3⟩, .opened, 0⟩ : Conversation)].map
    fun c : Conversation => c.id).Nodup := List.nodup_singleton _

/-- A thread of candidate 6 with the recruiters 7 and 8 of company 3. -/
def sharedThread : Db :=
  { Db.empty with
    recruiters := ⟨[⟨1, 7, 3⟩, ⟨2, 8, 3⟩], by decide⟩
    candidateProfiles := ⟨[⟨⟨5, 6⟩, none, none⟩], candidate_nodup⟩
    conversations := ⟨[⟨⟨9, 5, 7, 3⟩, .opened, 0⟩], thread_nodup⟩ }

end JobBoard.Messaging
