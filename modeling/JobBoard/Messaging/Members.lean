import JobBoard.Messaging.Threads

/-!
# Who acts in a thread

No operation of the system changes the companies, their recruiters, the profiles or the
threads, so that the members of a thread are those of the database at the start.
-/

set_option autoImplicit false

namespace JobBoard.Messaging

open Txn Prog

/-- The user may act in the thread in the role. -/
def CanAct (db : Db) (c : Conversation) (userId : Id) : MessageSenderRole → Prop
  | .recruiter => db.companyOf userId = some c.companyId
  | .candidate => (db.profileOf userId).map (·.id) = some c.candidateId

instance (db : Db) (c : Conversation) (userId : Id) (role : MessageSenderRole) :
    Decidable (CanAct db c userId role) := by
  cases role <;> exact inferInstanceAs (Decidable (_ = _))

/-- The user is a member of the thread in the role. -/
def Participates (db : Db) (conversationId userId : Id) (role : MessageSenderRole) : Prop :=
  ∃ c, db.conversations.get? conversationId = some c ∧ CanAct db c userId role

section

variable {d₀ : Db} {i : Nat} {L : Log} {G : Log → Write → Prop}

abbrev Keeps {α : Type} (d₀ : Db) (i : Nat) (G : Log → Write → Prop) (p : M α)
    (Q : Log → α → Prop) (L : Log) : Prop :=
  p.Promises store d₀ i G (fun e => isFault e = true) Q L

/-- The same members. -/
structure SameMembers (db db' : Db) : Prop where
  recruiters : db'.recruiters = db.recruiters
  candidateProfiles : db'.candidateProfiles = db.candidateProfiles
  conversations : db'.conversations = db.conversations

theorem SameMembers.canAct {db db' : Db} (h : SameMembers db db') (c : Conversation) (userId : Id)
    (role : MessageSenderRole) : CanAct db' c userId role ↔ CanAct db c userId role := by
  cases role with
  | recruiter => simp only [CanAct, Db.companyOf, h.recruiters]
  | candidate => simp only [CanAct, Db.profileOf, h.candidateProfiles]

theorem sameMembers_at (d₀ : Db) (L : Log) : SameMembers d₀ (d₀.at L) := by
  refine replay_keeps (P := SameMembers d₀) ?_ List.nil_prefix ⟨rfl, rfl, rfl⟩
  intro db w h
  cases w <;> exact ⟨h.recruiters, h.candidateProfiles, h.conversations⟩

theorem at_snoc (L : Log) (i : Nat) (w : Write) :
    d₀.at (L ++ [⟨i, false, [w]⟩]) = store.apply (d₀.at L) w := replay_snoc ..

/-- What a lookup of the thread gives, also none. -/
theorem findInCompany_keeps {conversationId userId : Id} {companyId : Option Id}
    (hcompany : ∀ id, companyId = some id → d₀.companyOf userId = some id)
    {Q : Log → Option Conversation → Prop}
    (h : ∀ L' c?, ByOthers i L L' → (∀ c, c? = some c →
      d₀.conversations.get? conversationId = some c ∧ CanAct d₀ c userId .recruiter) → Q L' c?) :
    Keeps d₀ i G (ConversationService.findInCompany conversationId companyId) Q L := by
  cases companyId with
  | none => exact h L none (ByOthers.refl i L) fun _ hc => by cases hc
  | some companyId =>
    refine promises_select fun L' hr => h L' _ hr fun c hc => ?_
    obtain ⟨hget, hc⟩ := Option.filter_eq_some_iff.1 hc
    rw [(sameMembers_at d₀ L').conversations] at hget
    have hc : c.companyId = companyId := of_decide_eq_true hc
    exact ⟨hget, (hcompany companyId rfl).trans (congrArg some hc.symm)⟩

theorem findAsCandidate_keeps {conversationId userId : Id}
    {Q : Log → Option Conversation → Prop}
    (h : ∀ L' c?, ByOthers i L L' → (∀ c, c? = some c →
      d₀.conversations.get? conversationId = some c ∧ CanAct d₀ c userId .candidate) → Q L' c?) :
    Keeps d₀ i G (ConversationService.findAsCandidate conversationId userId) Q L := by
  unfold ConversationService.findAsCandidate
  refine promises_bind.2 (promises_select fun L₁ hr₁ => ?_)
  cases hprofile : (d₀.at L₁).profileOf userId with
  | none => exact h L₁ none hr₁ fun _ hc => by cases hc
  | some profile =>
    refine promises_select fun L₂ hr₂ => h L₂ _ (hr₁.trans hr₂) fun c hc => ?_
    obtain ⟨hget, hc⟩ := Option.filter_eq_some_iff.1 hc
    rw [(sameMembers_at d₀ L₂).conversations] at hget
    have hc : c.candidateId = profile.id := of_decide_eq_true hc
    refine ⟨hget, ((sameMembers_at d₀ L₁).canAct c userId .candidate).1 ?_⟩
    rw [CanAct, hprofile, Option.map_some, hc]

theorem companyOf_keeps {caller : Caller} {Q : Log → Option Id → Prop}
    (h : ∀ L' companyId, ByOthers i L L' →
      (∀ id, companyId = some id → d₀.companyOf caller.userId = some id) → Q L' companyId) :
    Keeps d₀ i G (ConversationService.companyOf caller) Q L := by
  unfold ConversationService.companyOf
  split
  · exact h L none (ByOthers.refl i L) fun _ hid => by cases hid
  · refine promises_select fun L₁ hr₁ => h L₁ _ hr₁ fun id hid => ?_
    have hsame := (sameMembers_at d₀ L₁).recruiters
    rw [← hid, Db.companyOf, Db.companyOf, hsame]

/-- A call is authorized as a member of the thread. -/
theorem findAuthorizedConversation_keeps {conversationId : Id} {caller : Caller}
    {Q : Log → Conversation × MessageSenderRole → Prop}
    (h : ∀ L' c role, ByOthers i L L' → d₀.conversations.get? conversationId = some c →
      CanAct d₀ c caller.userId role → Q L' (c, role)) :
    Keeps d₀ i G (ConversationService.findAuthorizedConversation conversationId caller) Q L := by
  unfold ConversationService.findAuthorizedConversation
  refine promises_bind.2 (companyOf_keeps fun L₁ companyId hr₁ hcompany => ?_)
  refine promises_bind.2 (findInCompany_keeps hcompany fun L₂ c? hr₂ hc => ?_)
  cases c? with
  | some c => exact h L₂ c .recruiter (hr₁.trans hr₂) (hc c rfl).1 (hc c rfl).2
  | none =>
    refine promises_bind.2 (findAsCandidate_keeps fun L₃ c? hr₃ hc => ?_)
    cases c? with
    | some c => exact h L₃ c .candidate ((hr₁.trans hr₂).trans hr₃) (hc c rfl).1 (hc c rfl).2
    | none => trivial

/-! ## What the members write -/

/-- A new message of the caller, in the role that they act in. -/
structure Sent (d₀ : Db) (L : Log) (caller : Caller) (m : Message) : Prop where
  fresh : (d₀.at L).messages.get? m.id = none
  sender : m.senderId = caller.userId
  unread : m.readAt = none
  conversation : ∃ c, d₀.conversations.get? m.conversationId = some c ∧
    CanAct d₀ c caller.userId m.senderRole

theorem insertMessage_keeps {message : Time → Message} {Q : Log → Message → Prop}
    (h : ∀ L', (d₀.at L').messages.get? (message (d₀.at L').now).id = none →
      G L' (.insertMessage (message (d₀.at L').now))) (hQ : ∀ L' m, Q L' m) :
    Keeps d₀ i G (ConversationService.insertMessage message) Q L := by
  refine promises_query fun L₁ ws m hr hf => ?_
  split at hf
  · cases hf
  · next hfresh =>
    cases hf
    exact .inr ⟨_, rfl, h L₁ (Option.not_isSome_iff_eq_none.1 hfresh), hQ _ _⟩

theorem sendMessage_keeps {uuid conversationId : Id} {caller : Caller} {body : String}
    {Q : Log → Message → Prop} (h : ∀ L' m, Sent d₀ L' caller m → G L' (.insertMessage m))
    (hQ : ∀ L' m, Q L' m) :
    Keeps d₀ i G (ConversationService.sendMessage uuid conversationId caller body) Q L := by
  unfold ConversationService.sendMessage
  refine promises_bind.2 (findAuthorizedConversation_keeps fun L₁ c role hr₁ hc hrole => ?_)
  refine insertMessage_keeps (fun L₂ hfresh => h L₂ _ ⟨hfresh, rfl, rfl, c, ?_, hrole⟩) hQ
  rw [← hc, ← Table.key_of_get? hc]

theorem sendAttachment_keeps {uuid conversationId : Id} {caller : Caller}
    {file : ConversationService.AttachmentUpload} {scan : ConversationService.ScanResult}
    {body : Option String} {Q : Log → Message → Prop} (hput : ∀ L' key, G L' (.putObject key))
    (h : ∀ L' m, Sent d₀ L' caller m → G L' (.insertMessage m)) (hQ : ∀ L' m, Q L' m) :
    Keeps d₀ i G (ConversationService.sendAttachment uuid conversationId caller file scan body)
      Q L := by
  unfold ConversationService.sendAttachment
  refine promises_bind.2 (findAuthorizedConversation_keeps fun L₁ c role hr₁ hc hrole => ?_)
  have hinsert : ∀ L' : Log, Keeps d₀ i G (do
      write fun _ => [.putObject (ConversationService.attachmentKey uuid c.id file)]
      ConversationService.insertMessage fun now =>
        { id := uuid
          conversationId := c.id
          senderId := caller.userId
          senderRole := role
          body := (body.map Assessments.trim).getD ""
          attachmentStorageKey := some (ConversationService.attachmentKey uuid c.id file)
          attachmentOriginalName := some file.originalname
          attachmentMimeType := some file.mimetype
          attachmentSize := some file.size
          readAt := none
          createdAt := now }) Q L' := by
    intro L'
    refine promises_bind.2 (promises_write fun L₂ _ => ⟨hput _ _, ?_⟩)
    refine insertMessage_keeps (fun L₃ hfresh => h L₃ _ ⟨hfresh, rfl, rfl, c, ?_, hrole⟩) hQ
    rw [← hc, ← Table.key_of_get? hc]
  refine promises_bind.2 ?_
  unfold ConversationService.checkAttachment
  split
  · trivial
  · split
    · trivial
    · split
      · trivial
      · split
        · trivial
        · exact hinsert L₁

theorem listMessages_keeps {conversationId : Id} {caller : Caller}
    {Q : Log → List ConversationService.MessageView → Prop}
    (h : ∀ L' c role readAt, c.id = conversationId → d₀.conversations.get? c.id = some c →
      CanAct d₀ c caller.userId role → G L' (.markRead c.id caller.userId role readAt))
    (hQ : ∀ L' vs, Q L' vs) :
    Keeps d₀ i G (ConversationService.listMessages conversationId caller) Q L := by
  unfold ConversationService.listMessages
  refine promises_bind.2 (findAuthorizedConversation_keeps fun L₁ c role hr₁ hc hrole => ?_)
  refine promises_bind.2 (promises_select fun L₂ _ => ?_)
  refine promises_bind.2 (promises_write fun L₃ _ => ⟨h L₃ c role _ ?_ ?_ hrole, ?_⟩)
  · have := Table.key_of_get? hc
    exact this
  · rw [← hc, ← Table.key_of_get? hc]
  · exact promises_bind.2 (promises_select fun L₄ _ => hQ _ _)

theorem propose_keeps {uuid conversationId : Id} {caller : Caller} {input : ProposeInterviewDto}
    {Q : Log → InterviewView → Prop}
    (h : ∀ L' v, v.status = .proposed → G L' (.insertInterview v)) (hQ : ∀ L' view, Q L' view) :
    Keeps d₀ i G (InterviewService.propose uuid conversationId caller input) Q L := by
  unfold InterviewService.propose
  refine promises_bind.2 (findAuthorizedConversation_keeps fun L₁ c role hr₁ hc hrole => ?_)
  dsimp only
  split
  · trivial
  · refine promises_bind.2 (promises_select fun L₂ hr₂ => ?_)
    split
    · trivial
    · refine promises_bind.2 (promises_query fun L₃ ws v hr₃ hf => ?_)
      split at hf
      · cases hf
      · cases hf
        exact .inr ⟨_, rfl, h L₃ _ rfl, hQ _ _⟩

theorem list_keeps {conversationId : Id} {caller : Caller} {Q : Log → List InterviewView → Prop}
    (hQ : ∀ L' vs, Q L' vs) : Keeps d₀ i G (InterviewService.list conversationId caller) Q L := by
  unfold InterviewService.list
  refine promises_bind.2 (findAuthorizedConversation_keeps fun L₁ c role hr₁ hc hrole => ?_)
  exact promises_bind.2 (promises_select fun L₂ _ => hQ _ _)

theorem checkRole_keeps {isProposer : Bool} {response : InterviewResponse}
    {Q : Log → Unit → Prop} (h : (response = .cancelled ↔ isProposer = true) → Q L ()) :
    Keeps d₀ i G (InterviewService.checkRole isProposer response) Q L := by
  unfold InterviewService.checkRole
  split
  · next hcancelled =>
    split
    · next hproposer => exact h (iff_of_true hcancelled hproposer)
    · trivial
  · next hcancelled =>
    split
    · trivial
    · next hproposer => exact h (iff_of_false hcancelled hproposer)

end

end JobBoard.Messaging
