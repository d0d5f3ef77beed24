import JobBoard.Services.Companies

/-!
# Opening a conversation

`ConversationService.openConversation`. The notification of the candidate and
the analytics event are fire and forget.
-/

set_option autoImplicit false

namespace JobBoard

open Txn Prog

namespace ConversationService

/-- The constraint that the conversation `c` would violate. -/
def conversationViolation (c : Conversation) (db : Db) : Option String :=
  if (db.conversations.get? c.id).isSome then some "PK_conversations"
  else if db.conversations.rows.any fun d =>
      d.candidateId == c.candidateId && d.companyId == c.companyId then
    some "UQ_conversations_candidate_id_company_id"
  else none

def messageViolation (m : Message) (db : Db) : Option String :=
  if (db.messages.get? m.id).isSome then some "PK_messages" else none

/-- The body of the transaction. -/
def createThread (uuid recruiterUserId candidateProfileId companyId : Id)
    (firstMessageBody : String) : M Conversation := do
  ContactQuotaService.consumeOneContact companyId
  let conversation : Conversation := ⟨uuid, candidateProfileId, recruiterUserId, companyId⟩
  insertUnique (conversationViolation conversation) (.insertConversation conversation) ()
  let message : Message := ⟨uuid, conversation.id, recruiterUserId, .recruiter, firstMessageBody⟩
  insertUnique (messageViolation message) (.insertMessage message) ()
  return conversation

/-- `conversationRepo.findOne({ where: { candidateId, companyId } })`. -/
def findThread (candidateProfileId companyId : Id) : M (Option Conversation) :=
  select fun db => db.conversations.rows.find? fun c =>
    c.candidateId == candidateProfileId && c.companyId == companyId

/-- The `catch` of `openConversation`. -/
def onError (candidateProfileId companyId : Id) (error : Error) : M Conversation :=
  if isUniqueViolation error then do
    match ← findThread candidateProfileId companyId with
    | some existing => return existing
    | none => throw error
  else throw error

def openConversation (config : Config) (uuid recruiterUserId candidateProfileId : Id)
    (firstMessageBody : String) : M Conversation := do
  let companyId ← SubscriptionGuardService.assertActiveSubscription config recruiterUserId
  match ← select fun db => db.candidateProfiles.get? candidateProfileId with
  | none => throw (.candidateProfileNotFound candidateProfileId)
  | some _ =>
    transaction (createThread uuid recruiterUserId candidateProfileId companyId firstMessageBody)
      (onError candidateProfileId companyId) pure

end ConversationService

end JobBoard
