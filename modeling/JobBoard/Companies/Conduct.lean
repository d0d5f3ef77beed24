import JobBoard.Companies.Recruiters

/-!
# What the services write

Each piece of the services issues statements that write nothing or one write. `Writes ok` says
that these are of the kind `ok`.
-/

set_option autoImplicit false

namespace JobBoard.Companies

open Txn Prog

/-- No write, or one of the kind. -/
def Only (ok : Write → Bool) (ws : List Write) : Prop := ws = [] ∨ ∃ w, ws = [w] ∧ ok w = true

/-- The statements of the piece write only what is of the kind. -/
abbrev Writes {α : Type} (ok : Write → Bool) (p : M α) : Prop :=
  p.Plain (Only ok) (Only ok) fun _ => True

section

variable {ok : Write → Bool} {env : Environment}

theorem only_nil : Only ok [] := .inl rfl

theorem writes_select {α : Type} (f : Db → α) : Writes ok (select f : M α) :=
  plain_select only_nil f

theorem writes_write {w : Db → Write} (h : ∀ db, ok (w db) = true) :
    Writes ok (write fun db => [w db] : M Unit) := plain_write fun db => .inr ⟨_, rfl, h db⟩

theorem findById_writes (userId : Id) : Writes ok (UsersService.findById userId) := writes_select _

theorem findByEmail_writes (email : String) : Writes ok (UsersService.findByEmail email) :=
  writes_select _

theorem resolveCompanyId_writes (userId : Id) :
    Writes ok (SubscriptionGuardService.resolveCompanyId userId) := by
  refine (writes_select _).bind fun recruiter? => ?_
  cases recruiter? with
  | none => trivial
  | some recruiter => exact plain_ret _

theorem getSeatLimit_writes (companyId : Id) :
    Writes ok (SubscriptionGuardService.getSeatLimit env companyId) := by
  refine plain_query only_nil (fun db r hf => ?_) fun _ _ _ => trivial
  cases hlimit : SubscriptionGuardService.seatLimit env db companyId with
  | error e =>
    rw [hlimit] at hf
    cases hf
  | ok limit =>
    rw [hlimit] at hf
    cases hf
    exact only_nil

theorem countSeats_writes (companyId : Id)
    (h : ∀ seats, ok (.countSeats companyId seats) = true) : Writes ok (countSeats companyId) := by
  refine plain_query only_nil (fun db r hf => ?_) fun _ _ _ => trivial
  cases hf
  exact .inr ⟨_, rfl, h _⟩

theorem grantRecruiter_writes (user : User) (h : ∀ roles, ok (.setRoles user.id roles) = true) :
    Writes ok (grantRecruiter user) := by
  unfold grantRecruiter
  split
  · exact plain_ret _
  · refine Plain.bind (Plain.bind (writes_write fun _ => h _) fun _ => findById_writes _)
      fun _ => ?_
    exact plain_ret _

theorem auditAdded_writes (actorId : Id) (recruiter : Recruiter)
    (h : ∀ a, ok (.insertAudit a) = true) : Writes ok (auditAdded actorId recruiter) :=
  writes_write fun _ => h _

theorem save_writes (entity : RecruiterInvitation)
    (h : ∀ reread, ok (.saveInvitation entity reread) = true) :
    Writes ok (RecruiterInvitationService.save entity) := by
  refine (writes_select _).bind fun reread? => ?_
  cases reread? with
  | none => trivial
  | some reread =>
    dsimp only
    split
    · exact plain_ret _
    · exact (writes_write fun _ => h _).bind fun _ => plain_ret _

theorem findPendingByToken_writes (rawToken : String) :
    Writes ok (RecruiterInvitationService.findPendingByToken env rawToken) := by
  unfold RecruiterInvitationService.findPendingByToken
  split
  · exact plain_ret _
  · exact writes_select _

theorem inviteByMail_writes (uuid callerId companyId : Id) (email : String)
    (position : Option String) (hrevoke : ok (.revokeInvitations companyId email) = true)
    (hinsert : ∀ v, ok (.insertInvitation v) = true) (haudit : ∀ a, ok (.insertAudit a) = true) :
    Writes ok
      (RecruiterInvitationService.inviteByMail env uuid callerId companyId email position) := by
  refine Plain.bind (writes_write fun _ => hrevoke) fun _ => Plain.bind ?_ fun _ =>
    (writes_write fun _ => haudit _).bind fun _ => plain_ret _
  refine plain_query only_nil (fun db r hf => ?_) fun _ _ _ => trivial
  split at hf
  · cases hf
  · cases hf
    exact .inr ⟨_, rfl, hinsert _⟩

theorem acceptUser_writes (uuid : Id) (email password : String)
    (hverify : ∀ id, ok (.verifyUser id) = true) (hinsert : ∀ u, ok (.insertUser u) = true) :
    Writes ok (RecruiterInvitationService.acceptUser env uuid email password) := by
  refine (findByEmail_writes email).bind fun user? => ?_
  cases user? with
  | some user =>
    refine (writes_select _).bind fun recruiter? => ?_
    cases recruiter? with
    | some _ => trivial
    | none =>
      dsimp only
      split
      · exact plain_ret _
      · exact Plain.bind (Plain.bind (writes_write fun _ => hverify _) fun _ => findById_writes _)
          fun _ => plain_ret _
  | none =>
    refine plain_query only_nil (fun db r hf => ?_) fun _ _ _ => trivial
    split at hf
    · cases hf
    · cases hf
      exact .inr ⟨_, rfl, hinsert _⟩

theorem revoke_writes (callerId invitationId : Id)
    (h : ∀ entity reread, entity.status = .revoked → ok (.saveInvitation entity reread) = true) :
    Writes ok (RecruiterInvitationService.revoke callerId invitationId) := by
  refine (resolveCompanyId_writes _).bind fun companyId => ?_
  refine (writes_select _).bind fun invitation? => ?_
  cases invitation? with
  | none => trivial
  | some invitation => exact (save_writes _ fun _ => h _ _ rfl).bind fun _ => plain_ret _

end

end JobBoard.Companies
