import JobBoard.Messaging.Members

/-!
# The responses to an interview

A response reads the interview, checks it and saves it, and another response may come between.
In the runs where a response is saved only while the interview is still PROPOSED
(`stillProposed`) each interview is responded to once, by the right side, and for good.
-/

set_option autoImplicit false

namespace JobBoard.Messaging

open Txn Prog

/-! ## What the calls publish -/

/-- The same thread, and the same side that has proposed. -/
structure SameProposal (v v' : Interview) : Prop where
  conversationId : v'.conversationId = v.conversationId
  proposedByRole : v'.proposedByRole = v.proposedByRole

section

variable (d₀ : Db)

/-- The response of call `i` of `op` that `entity` is, and what `i` has read of the interview. -/
structure Responds (op : Op) (L : Log) (entity : Interview) : Prop where
  response : ∃ conversationId caller response, op = .respond conversationId entity.id caller response ∧
    entity.status = response.status ∧
    ∃ role, Participates d₀ conversationId caller.userId role ∧
      (response = .cancelled ↔ entity.proposedByRole = role) ∧
      entity.conversationId = conversationId
  loaded : ∃ A row, A <+: L ∧ (d₀.at A).interviews.get? entity.id = some row ∧
    SameProposal row entity

/-- What is known of a write of call `i` of `op` at the log `L`. -/
def InterviewGuarantee (i : Nat) (op : Op) (L : Log) : Write → Prop
  | .rereadInterview interviewId => ∃ conversationId caller response,
    op = .respond conversationId interviewId caller response
  | .saveInterview entity reread => Responds d₀ op L entity ∧
    ∃ R, WrittenAt L R i (.rereadInterview entity.id) ∧
      (d₀.at R).interviews.get? entity.id = some reread
  | .insertInterview v => v.status = .proposed
  | _ => True

/-- What is known of the reply to a response: it was saved, or the interview was re-read with a
status that is not PROPOSED. -/
def InterviewReply (i : Nat) (op : Op) (L : Log) : Result → Prop
  | .interview view => ∀ conversationId interviewId caller response,
    op = .respond conversationId interviewId caller response → view.id = interviewId ∧
      view.status = response.status ∧
      ((∃ A entity reread, WrittenAt L A i (.saveInterview entity reread) ∧
        entity.id = interviewId) ∨
      ∃ R reread, WrittenAt L R i (.rereadInterview interviewId) ∧
        (d₀.at R).interviews.get? interviewId = some reread ∧ reread.status ≠ .proposed)
  | _ => True

end

section

variable {d₀ : Db} {i : Nat} {op : Op} {L : Log}

theorem InterviewReply.mono {L' : Log} {a : Result} (hl : L <+: L')
    (h : InterviewReply d₀ i op L a) : InterviewReply d₀ i op L' a := by
  cases a with
  | interview view =>
    intro conversationId interviewId caller response hop
    obtain ⟨hid, hstatus, hsaved⟩ := h conversationId interviewId caller response hop
    refine ⟨hid, hstatus, ?_⟩
    rcases hsaved with ⟨A, entity, reread, hw, he⟩ | ⟨R, reread, hw, hr⟩
    · exact .inl ⟨A, entity, reread, hw.mono hl, he⟩
    · exact .inr ⟨R, reread, hw.mono hl, hr⟩
  | _ => trivial

theorem InterviewResponse.status_ne (response : InterviewResponse) :
    response.status ≠ .proposed := by
  cases response <;> decide

/-- The reply of a saved response. -/
theorem save_keeps {entity : Interview} (h : ∀ L', L <+: L' → Responds d₀ op L' entity)
    (hop : ∃ conversationId caller response, op = .respond conversationId entity.id caller response)
    (hstatus : entity.status ≠ .proposed)
    {Q : Log → Interview → Prop}
    (hsaved : ∀ L' A reread, WrittenAt L' A i (.saveInterview entity reread) → Q L' entity)
    (hsame : ∀ L' R reread, WrittenAt L' R i (.rereadInterview entity.id) →
      (d₀.at R).interviews.get? entity.id = some reread → reread.status ≠ .proposed →
      Q L' entity) :
    Keeps d₀ i (InterviewGuarantee d₀ i op) (InterviewService.save entity) Q L := by
  unfold InterviewService.save
  refine promises_bind.2 (promises_query fun L₁ ws reread? hr₁ hf => ?_)
  cases hf
  refine .inr ⟨_, rfl, hop, ?_⟩
  have hreread : WrittenAt (L₁ ++ [⟨i, false, [.rereadInterview entity.id]⟩]) L₁ i
    (.rereadInterview entity.id) := writtenAt_self _ _ _
  have hl : L <+: L₁ ++ [⟨i, false, [.rereadInterview entity.id]⟩] :=
    hr₁.onto.trans (List.prefix_append _ _)
  generalize L₁ ++ [⟨i, false, [.rereadInterview entity.id]⟩] = L₂ at hreread hl ⊢
  cases hget : (d₀.at L₁).interviews.get? entity.id with
  | none => trivial
  | some reread =>
    dsimp only
    split
    · next hequal =>
      refine hsame L₂ L₁ reread hreread hget fun hproposed => hstatus ?_
      have hcolumn : setColumn entity.status reread.status reread.status = reread.status :=
        congrArg Interview.status hequal
      rcases eq_or_ne entity.status reread.status with heq | hne
      · exact heq.trans hproposed
      · rw [setColumn, if_neg hne] at hcolumn
        exact hcolumn.trans hproposed
    · refine promises_bind.2 (promises_write fun L₃ hr₃ => ?_)
      refine ⟨⟨h L₃ (hl.trans hr₃.onto), L₁, hreread.mono hr₃.onto, hget⟩, ?_⟩
      exact hsaved _ L₃ reread (writtenAt_self _ _ _)

theorem respond_keeps (conversationId interviewId : Id) (caller : Caller)
    (response : InterviewResponse) :
    Keeps d₀ i (InterviewGuarantee d₀ i (.respond conversationId interviewId caller response))
      (InterviewService.respond conversationId interviewId caller response)
      (fun L' view => InterviewReply d₀ i
        (.respond conversationId interviewId caller response) L' (.interview view)) L := by
  unfold InterviewService.respond
  refine promises_bind.2 (findAuthorizedConversation_keeps fun L₁ c role hr₁ hc hrole => ?_)
  have hcid : c.id = conversationId := by
    have := Table.key_of_get? hc
    exact this
  refine promises_bind.2 (promises_select fun L₂ hr₂ => ?_)
  cases hget : ((d₀.at L₂).interviews.get? interviewId).filter (·.conversationId = c.id) with
  | none => trivial
  | some row =>
    obtain ⟨hrow, hconv⟩ := Option.filter_eq_some_iff.1 hget
    have hconv : row.conversationId = c.id := of_decide_eq_true hconv
    have hid : row.id = interviewId := Table.key_of_get? hrow
    dsimp only
    split
    · trivial
    · refine promises_bind.2 (checkRole_keeps fun hfits => ?_)
      refine promises_bind.2 (promises_select fun L₃ hr₃ => ?_)
      refine promises_bind.2 (save_keeps (fun L₄ hl => ⟨?_, ?_⟩) ?_ ?_ ?_ ?_)
      · refine ⟨conversationId, caller, response, by rw [hid], rfl, role, ⟨c, hc, hrole⟩, ?_,
          hconv.trans hcid⟩
        exact hfits.trans decide_eq_true_iff
      · exact ⟨L₂, row, hr₃.onto.trans hl, by rw [hid]; exact hrow, ⟨rfl, rfl⟩⟩
      · exact ⟨conversationId, caller, response, by rw [hid]⟩
      · exact response.status_ne
      · rintro L' A reread hw _ _ _ _ ⟨⟩
        exact ⟨hid, rfl, .inl ⟨A, _, reread, hw, hid⟩⟩
      · rintro L' R reread hw hreread hne _ _ _ _ ⟨⟩
        rw [hid] at hw hreread
        exact ⟨hid, rfl, .inr ⟨R, reread, hw, hreread, hne⟩⟩

theorem interviews_traced (d₀ : Db) :
    Traced system d₀ (InterviewGuarantee d₀) (InterviewReply d₀) where
  mono := InterviewReply.mono
  prog i op L := by
    cases op with
    | clock ms => exact promises_bind.2 (promises_write fun _ _ => ⟨trivial, trivial⟩)
    | sendMessage conversationId caller body =>
      exact promises_bind.2 (sendMessage_keeps (fun _ _ _ => trivial) fun _ _ => trivial)
    | sendAttachment conversationId caller file scan body =>
      exact promises_bind.2 (sendAttachment_keeps (fun _ _ => trivial) (fun _ _ _ => trivial)
        fun _ _ => trivial)
    | listMessages conversationId caller =>
      exact promises_bind.2 (listMessages_keeps (fun _ _ _ _ _ _ _ => trivial) fun _ _ => trivial)
    | propose conversationId caller input =>
      exact promises_bind.2 (propose_keeps (fun _ _ hv => hv) fun _ _ =>
        fun _ _ _ _ h => nomatch h)
    | list conversationId caller =>
      exact promises_bind.2 (list_keeps fun _ _ => trivial)
    | respond conversationId interviewId caller response =>
      exact promises_bind.2 (respond_keeps conversationId interviewId caller response)

/-! ## Runs without overtaking -/

def stillProposedWrite (db : Db) : Write → Bool
  | .rereadInterview interviewId => (db.interviews.get? interviewId).all (·.status = .proposed)
  | .saveInterview entity _ => (db.interviews.get? entity.id).all (·.status = .proposed)
  | _ => true

/-- When a response is saved (the re-read and the `UPDATE`), the interview is still PROPOSED. -/
def stillProposed (s : RunState) : Label Error Op → Bool
  | .step i => (s.issues i).all (stillProposedWrite s.db)
  | _ => true

variable {s : RunState}

/-- A write of the log, with what is known of it. -/
theorem interview_written (h : system.Within (fun s l => stillProposed s l = true) d₀ s)
    {g : Txn.Group Write} (hl : L ++ [g] <+: s.log) : ∃ op w, g = ⟨g.call, false, [w]⟩ ∧
      s.ops[g.call]? = some op ∧ InterviewGuarantee d₀ g.call op L w ∧
      stillProposedWrite (d₀.at L) w = true := by
  obtain ⟨op, w, t, hg, hop, ht⟩ := (interviews_traced d₀).published h hl
  refine ⟨op, w, hg, hop, ht.promised, ?_⟩
  have hok := ht.ok
  simp only [stillProposed, ht.issues, ht.db, List.all_cons, List.all_nil, Bool.and_true] at hok
  exact hok

/-- What a write does to an interview. -/
theorem interview_after (db : Db) (w : Write) {interviewId : Id} {row : Interview}
    (hrow : db.interviews.get? interviewId = some row) :
    (store.apply db w).interviews.get? interviewId = some row ∨
      ∃ entity reread, w = .saveInterview entity reread ∧ entity.id = interviewId ∧
        (store.apply db w).interviews.get? interviewId = some (entity.overwrite reread row) := by
  cases w with
  | insertInterview v => exact .inl (Table.get?_insert_of_some hrow)
  | saveInterview entity reread =>
    have hget : (db.interviews.modify entity.id (entity.overwrite reread) fun _ => rfl).get?
        interviewId = if interviewId = entity.id then
          (db.interviews.get? interviewId).map (entity.overwrite reread)
        else db.interviews.get? interviewId := Table.get?_modify _ _
    rw [hrow] at hget
    split at hget
    · next hid => exact .inr ⟨entity, reread, rfl, hid.symm, hget⟩
    · exact .inl hget
  | _ => exact .inl hrow

/-- The saved status of an interview that is still PROPOSED. -/
theorem saved_status {entity reread row : Interview} (hreread : reread.status = .proposed)
    (hentity : entity.status ≠ .proposed) :
    (entity.overwrite reread row).status = entity.status := by
  show setColumn entity.status reread.status row.status = entity.status
  rw [setColumn, hreread, if_neg hentity]

/-- An interview stays, and who has proposed it. -/
theorem interview_kept {A : Log} (hl : A <+: L) {interviewId : Id} {row : Interview}
    (hrow : (d₀.at A).interviews.get? interviewId = some row) :
    ∃ row', (d₀.at L).interviews.get? interviewId = some row' ∧ SameProposal row row' := by
  refine replay_keeps (P := fun db : Db => ∃ row', db.interviews.get? interviewId = some row' ∧
    SameProposal row row') ?_ hl ⟨row, hrow, rfl, rfl⟩
  rintro db w ⟨row', hrow', hsame⟩
  rcases interview_after db w hrow' with hafter | ⟨entity, reread, rfl, -, hafter⟩
  · exact ⟨row', hafter, hsame⟩
  · exact ⟨_, hafter, hsame.conversationId, hsame.proposedByRole⟩

/-- A saved response, at the moment it is saved. -/
structure SavedResponse (d₀ : Db) (op : Op) (A : Log) (i : Nat) (entity reread : Interview) :
    Prop where
  responds : Responds d₀ op A entity
  status : entity.status ≠ .proposed
  before : ∃ row, (d₀.at A).interviews.get? entity.id = some row ∧ row.status = .proposed
  after : ∃ row, (d₀.at (A ++ [⟨i, false, [.saveInterview entity reread]⟩])).interviews.get?
    entity.id = some row ∧ row.status = entity.status

theorem response_saved (h : system.Within (fun s l => stillProposed s l = true) d₀ s) {A : Log}
    {entity reread : Interview} (hw : WrittenAt s.log A i (.saveInterview entity reread)) :
    ∃ op, s.ops[i]? = some op ∧ SavedResponse d₀ op A i entity reread := by
  obtain ⟨op, w, hg, hop, hguar, hok⟩ := interview_written h hw
  cases hg
  obtain ⟨hresponds, R, hR, hreread⟩ := hguar
  have hstatus : entity.status ≠ .proposed := by
    obtain ⟨-, -, response, -, hstatus, -⟩ := hresponds.response
    rw [hstatus]
    exact response.status_ne
  obtain ⟨A', loaded, hA', hloaded, -⟩ := hresponds.loaded
  obtain ⟨row, hrow, -⟩ := interview_kept hA' hloaded
  have hproposed : row.status = .proposed := by
    simp only [stillProposedWrite, hrow, Option.all_some, decide_eq_true_eq] at hok
    exact hok
  have hrereadProposed : reread.status = .proposed := by
    obtain ⟨-, w, hg, -, -, hok⟩ :=
      interview_written h (hR.mono ((List.prefix_append _ _).trans hw))
    cases hg
    simp only [stillProposedWrite, hreread, Option.all_some, decide_eq_true_eq] at hok
    exact hok
  refine ⟨op, hop, hresponds, hstatus, ⟨row, hrow, hproposed⟩, entity.overwrite reread row, ?_,
    saved_status hrereadProposed hstatus⟩
  rw [at_snoc]
  have hget : ((d₀.at A).interviews.modify entity.id (entity.overwrite reread) fun _ => rfl).get?
      entity.id = if entity.id = entity.id then
        ((d₀.at A).interviews.get? entity.id).map (entity.overwrite reread)
      else (d₀.at A).interviews.get? entity.id := Table.get?_modify _ _
  rw [if_pos rfl, hrow] at hget
  exact hget

/-- A status other than PROPOSED is final. -/
theorem settled_kept (h : system.Within (fun s l => stillProposed s l = true) d₀ s) {A : Log}
    (hA : A <+: L) (hL : L <+: s.log) {interviewId : Id} {row : Interview}
    (hrow : (d₀.at A).interviews.get? interviewId = some row) (hne : row.status ≠ .proposed) :
    ∃ row', (d₀.at L).interviews.get? interviewId = some row' ∧ row'.status = row.status := by
  refine along_log_from (I := fun L => ∃ row', (d₀.at L).interviews.get? interviewId = some row' ∧
    row'.status = row.status) ⟨row, hrow, rfl⟩ (fun l g _ hl hr => ?_) L hA List.prefix_rfl
  obtain ⟨row', hrow', hstatus⟩ := hr
  obtain ⟨op, w, hg, -, -, hok⟩ := interview_written h (hl.trans hL)
  rw [hg, at_snoc]
  rcases interview_after (d₀.at l) w hrow' with hafter | ⟨entity, reread, rfl, rfl, -⟩
  · exact ⟨row', hafter, hstatus⟩
  · simp only [stillProposedWrite, hrow', Option.all_some, decide_eq_true_eq] at hok
    exact absurd (hstatus.symm.trans hok) hne

/-- No response is saved after another one of the same interview. -/
theorem not_saved_after (h : system.Within (fun s l => stillProposed s l = true) d₀ s) {A A' : Log}
    {i i' : Nat} {entity reread entity' reread' : Interview}
    (hw : WrittenAt A' A i (.saveInterview entity reread))
    (hw' : WrittenAt s.log A' i' (.saveInterview entity' reread')) : entity.id ≠ entity'.id := by
  intro hid
  have hA' : A' <+: s.log := hw'.onto
  obtain ⟨_, _, hsaved⟩ := response_saved h (hw.mono hA')
  obtain ⟨_, _, hsaved'⟩ := response_saved h hw'
  obtain ⟨row, hrow, hstatus⟩ := hsaved.after
  obtain ⟨row', hrow', hproposed⟩ := hsaved'.before
  obtain ⟨row'', hrow'', hsame⟩ := settled_kept h hw hA' hrow (hstatus ▸ hsaved.status)
  rw [hid, hrow'] at hrow''
  cases hrow''
  exact hsaved.status (hstatus.symm.trans (hsame.symm.trans hproposed))

/-- Each interview is responded to once. -/
theorem response_unique (h : system.Within (fun s l => stillProposed s l = true) d₀ s) {A A' : Log}
    {i i' : Nat} {entity reread entity' reread' : Interview}
    (hw : WrittenAt s.log A i (.saveInterview entity reread))
    (hw' : WrittenAt s.log A' i' (.saveInterview entity' reread')) (hid : entity.id = entity'.id) :
    A = A' ∧ i = i' := by
  rcases hw.cases hw' with ⟨hA, hi, -⟩ | hlater | hlater
  · exact ⟨hA, hi⟩
  · exact absurd hid (not_saved_after h hlater hw')
  · exact absurd hid.symm (not_saved_after h hlater hw)

/-- The reply to a response is that it was saved. -/
theorem reply_saved (h : system.Within (fun s l => stillProposed s l = true) d₀ s)
    {conversationId interviewId : Id} {caller : Caller} {response : InterviewResponse}
    {view : InterviewView}
    (hop : s.ops[i]? = some (.respond conversationId interviewId caller response))
    (hdone : s.call i = .done (.ok (.interview view))) : view.status = response.status ∧
    ∃ A entity reread, WrittenAt s.log A i (.saveInterview entity reread) ∧
      entity.id = interviewId := by
  obtain ⟨-, hstatus, hsaved | ⟨R, reread, hR, hreread, hne⟩⟩ :=
    (interviews_traced d₀).done h hop hdone _ _ _ _ rfl
  · exact ⟨hstatus, hsaved⟩
  · obtain ⟨-, w, hg, -, -, hok⟩ := interview_written h hR
    cases hg
    simp only [stillProposedWrite, hreread, Option.all_some, decide_eq_true_eq] at hok
    exact absurd hok hne

/-- Where an interview has left PROPOSED, a response to it was saved. -/
theorem left_proposed (h : system.Within (fun s l => stillProposed s l = true) d₀ s) {A : Log}
    (hA : A <+: L) (hL : L <+: s.log) {interviewId : Id} {row row' : Interview}
    (hrow : (d₀.at A).interviews.get? interviewId = some row) (hproposed : row.status = .proposed)
    (hrow' : (d₀.at L).interviews.get? interviewId = some row') (hne : row'.status ≠ .proposed) :
    ∃ B i entity reread, WrittenAt L B i (.saveInterview entity reread) ∧
      entity.id = interviewId ∧ row'.status = entity.status := by
  have hkept : ∃ row, (d₀.at L).interviews.get? interviewId = some row ∧
      (row.status = .proposed ∨ ∃ B i entity reread,
        WrittenAt L B i (.saveInterview entity reread) ∧ entity.id = interviewId ∧
        row.status = entity.status) := by
    refine along_log_from (I := fun L => ∃ row, (d₀.at L).interviews.get? interviewId = some row ∧
      (row.status = .proposed ∨ ∃ B i entity reread,
        WrittenAt L B i (.saveInterview entity reread) ∧ entity.id = interviewId ∧
        row.status = entity.status)) ⟨row, hrow, .inl hproposed⟩ (fun l g _ hl hr => ?_) L hA
      List.prefix_rfl
    obtain ⟨row, hrow, hstatus⟩ := hr
    obtain ⟨op, w, hg, -, -, -⟩ := interview_written h (hl.trans hL)
    have hlg : l <+: l ++ [g] := List.prefix_append _ _
    rcases interview_after (d₀.at l) w hrow with hafter | ⟨entity, reread, rfl, hid, -⟩
    · refine ⟨row, by rw [hg, at_snoc]; exact hafter, hstatus.imp_right ?_⟩
      rintro ⟨B, i, entity, reread, hw, hid, hs⟩
      exact ⟨B, i, entity, reread, hw.mono hlg, hid, hs⟩
    · have hw : WrittenAt (l ++ [g]) l g.call (.saveInterview entity reread) := by
        rw [hg]
        exact writtenAt_self _ _ _
      obtain ⟨_, _, hsaved⟩ := response_saved h (hw.mono (hl.trans hL))
      obtain ⟨after, hafter, hstatus⟩ := hsaved.after
      rw [hid] at hafter
      exact ⟨after, by rw [hg]; exact hafter, .inr ⟨l, g.call, entity, reread, hw, hid, hstatus⟩⟩
  obtain ⟨row, hrow, hstatus⟩ := hkept
  rw [hrow'] at hrow
  cases hrow
  exact hstatus.resolve_left hne

/-! ## The result -/

/-- What both sides of the interviews of a run agree on. -/
structure InterviewsAgree (d₀ : Db) (s : RunState) : Prop where
  /-- Each interview receives at most one response. -/
  once : ∀ {i j conversationId conversationId' interviewId caller caller' response response' view
    view'}, s.ops[i]? = some (Op.respond conversationId interviewId caller response) →
    s.ops[j]? = some (Op.respond conversationId' interviewId caller' response') →
    s.call i = .done (.ok (.interview view)) → s.call j = .done (.ok (.interview view')) → i = j
  /-- A status other than PROPOSED never changes. -/
  final : ∀ {L L' interviewId row}, L <+: L' → L' <+: s.log →
    (d₀.at L).interviews.get? interviewId = some row → row.status ≠ .proposed →
    ∃ row', (d₀.at L').interviews.get? interviewId = some row' ∧ row'.status = row.status
  /-- The proposer's side may cancel, the other side accepts or declines. -/
  byRole : ∀ {L L' interviewId row row'}, L <+: L' → L' <+: s.log →
    (d₀.at L).interviews.get? interviewId = some row → row.status = .proposed →
    (d₀.at L').interviews.get? interviewId = some row' → row'.status ≠ .proposed →
    ∃ (i : Nat) (caller : Caller) (response : InterviewResponse) (role : MessageSenderRole),
      s.ops[i]? = some (Op.respond row.conversationId interviewId caller response) ∧
      row'.status = response.status ∧ Participates d₀ row.conversationId caller.userId role ∧
      (row'.status = .cancelled ↔ role = row.proposedByRole)
  /-- What a successful reply says is what the thread lists from then on. -/
  seen : ∀ {i conversationId interviewId caller response view},
    s.ops[i]? = some (Op.respond conversationId interviewId caller response) →
    s.call i = .done (.ok (.interview view)) →
    ∃ row ∈ InterviewService.listOf s.db conversationId, row.id = interviewId ∧
      row.status = view.status

theorem InterviewResponse.status_cancelled (response : InterviewResponse) :
    response.status = .cancelled ↔ response = .cancelled := by
  cases response <;> decide

end

/-! ## Responses that overtake each other -/

/-- A thread of candidate 6 and recruiter 7, who has proposed an interview. -/
def proposedInterview : Db :=
  { Db.empty with
    recruiters := ⟨[⟨1, 7, 3⟩], by decide⟩
    candidateProfiles := ⟨[⟨⟨5, 6⟩, none, none⟩], by decide⟩
    conversations := ⟨[⟨⟨9, 5, 7, 3⟩, .opened, 0⟩], by decide⟩
    interviews := ⟨[⟨1, 9, 7, .recruiter, .proposed, .video, 1000, 60, none, none, none, 0⟩],
      by decide⟩ }

def statusOf (db : Db) (interviewId : Id) : Option InterviewStatus :=
  (db.interviews.get? interviewId).map (·.status)

end JobBoard.Messaging
