import JobBoard.Auth.Services
import JobBoard.Companies.Seats
import JobBoard.Lib.Exec

/-!
# Accepting an invitation

`accept` makes the account of the invited email a recruiter. It creates the account with the
password that the invitee gives, unless there is one: an account whose email nobody has verified
gets verified and keeps the password of whoever registered it.
-/

set_option autoImplicit false

namespace JobBoard.Companies

open Txn Prog
open Auth (UserStatus)
open RecruiterInvitationService (attach findPendingByToken)

/-- The account of an email. -/
def Db.accountOf (db : Db) (email : String) : Option User :=
  db.users.rows.find? (·.email = email)

/-- The row after statements of the services: the same account, which stays verified. -/
structure User.Onto (u u' : User) : Prop where
  same : u'.id = u.id
  email : u'.email = u.email
  passwordHash : u'.passwordHash = u.passwordHash
  verified : u.emailVerified = true → u'.emailVerified = true
  active : (u.emailVerified = true → u.status = .active) → u'.emailVerified = true →
    u'.status = .active

theorem User.Onto.refl (u : User) : u.Onto u := ⟨rfl, rfl, rfl, id, id⟩

theorem User.Onto.trans {u u' u'' : User} (h : u.Onto u') (h' : u'.Onto u'') : u.Onto u'' :=
  ⟨h'.same.trans h.same, h'.email.trans h.email, h'.passwordHash.trans h.passwordHash,
    fun hv => h'.verified (h.verified hv), fun ha => h'.active (h.active ha)⟩

section

variable {db : Db} {w : Write} {email : String}

theorem email_of_accountOf {u : User} (h : db.accountOf email = some u) : u.email = email := by
  simpa using List.find?_some h

theorem accountOf_insert {u v : User} (h : db.accountOf email = some u) :
    (store.apply db (.insertUser v)).accountOf email = some u := by
  show (db.users.insert v).rows.find? _ = some u
  unfold Table.insert
  split
  · exact h
  · rw [List.find?_append]
    simp [show db.users.rows.find? (·.email = email) = some u from h]

/-- An update of the row of a user that leaves the email. -/
theorem accountOf_modify (userId : Id) (f : User → User) (hf : ∀ u, (f u).id = u.id)
    (hemail : ∀ u, (f u).email = u.email) :
    (db.users.modify userId f hf).rows.find? (·.email = email) =
      (db.accountOf email).map fun u => if u.id = userId then f u else u :=
  Table.find?_modify f hf fun r => by rw [hemail]

theorem onto_modify (u : User) (userId : Id) (f : User → User) (honto : ∀ u : User, u.Onto (f u)) :
    u.Onto (if u.id = userId then f u else u) := by
  split
  · exact honto u
  · exact .refl u

theorem accountOf_setRoles (userId : Id) (roles : List Role) :
    (store.apply db (.setRoles userId roles)).accountOf email =
      (db.accountOf email).map fun u => if u.id = userId then { u with roles := roles } else u :=
  accountOf_modify userId (fun u => { u with roles := roles }) (fun _ => rfl) fun _ => rfl

theorem accountOf_verifyUser (userId : Id) :
    (store.apply db (.verifyUser userId)).accountOf email = (db.accountOf email).map fun u =>
      if u.id = userId then { u with emailVerified := true, status := .active } else u :=
  accountOf_modify userId (fun u => { u with emailVerified := true, status := .active })
    (fun _ => rfl) fun _ => rfl

theorem accountOf_apply {u : User} (w : Write) (h : db.accountOf email = some u) :
    ∃ u', (store.apply db w).accountOf email = some u' ∧ u.Onto u' := by
  cases w with
  | insertUser v => exact ⟨u, accountOf_insert h, .refl u⟩
  | setRoles userId roles =>
    rw [accountOf_setRoles, h]
    exact ⟨_, rfl, onto_modify u userId (fun u => { u with roles := roles })
      fun _ => ⟨rfl, rfl, rfl, id, id⟩⟩
  | verifyUser userId =>
    rw [accountOf_verifyUser, h]
    exact ⟨_, rfl, onto_modify u userId
      (fun u => { u with emailVerified := true, status := .active })
      fun _ => ⟨rfl, rfl, rfl, fun _ => rfl, fun _ _ => rfl⟩⟩
  | _ => exact ⟨u, h, .refl u⟩

/-- Only an insert creates an account. -/
theorem accountOf_created {u : User} (h : db.accountOf email = none)
    (h' : (store.apply db w).accountOf email = some u) : w = .insertUser u := by
  cases w with
  | insertUser v =>
    replace h' : (db.users.insert v).rows.find? (·.email = email) = some u := h'
    unfold Table.insert at h'
    split at h'
    · cases (show db.accountOf email = some u from h').symm.trans h
    · rw [List.find?_append, show db.users.rows.find? (·.email = email) = none from h,
        Option.none_or] at h'
      rw [List.mem_singleton.1 (List.mem_of_find?_eq_some h')]
  | setRoles userId roles =>
    rw [accountOf_setRoles, h] at h'
    cases h'
  | verifyUser userId =>
    rw [accountOf_verifyUser, h] at h'
    cases h'
  | _ => cases (show db.accountOf email = some u from h').symm.trans h

end

/-- The token is of an invitation of the email. -/
def Db.Invites (env : Environment) (db : Db) (token email : String) : Prop :=
  ∃ v ∈ db.invitations.rows, v.tokenHash = env.sha256 token ∧ v.email = email

/-- No two invitations have the token. -/
def Db.TokenOnce (env : Environment) (db : Db) (token : String) : Prop :=
  ∀ v ∈ db.invitations.rows, ∀ v' ∈ db.invitations.rows, v.tokenHash = env.sha256 token →
    v'.tokenHash = env.sha256 token → v = v'

instance (env : Environment) (db : Db) (token : String) : Decidable (db.TokenOnce env token) :=
  inferInstanceAs (Decidable (∀ v ∈ _, ∀ v' ∈ _, _ → _ → _))

section

variable {env : Environment} {d₀ : Db} {i : Nat} {A L : Log} {token email : String}

theorem accountOf_later {u : User} (hl : A <+: L) (h : (d₀.at A).accountOf email = some u) :
    ∃ u', (d₀.at L).accountOf email = some u' ∧ u.Onto u' := by
  refine replay_keeps
    (P := fun db : Db => ∃ u', db.accountOf email = some u' ∧ u.Onto u') ?_ hl ⟨u, h, .refl u⟩
  rintro db w ⟨u', hu', honto⟩
  obtain ⟨u'', hu'', honto'⟩ := accountOf_apply w hu'
  exact ⟨u'', hu'', honto.trans honto'⟩

theorem invites_later (hl : A <+: L) (h : (d₀.at A).Invites env token email) :
    (d₀.at L).Invites env token email := by
  refine replay_keeps (P := fun db : Db => db.Invites env token email) ?_ hl h
  -- an update leaves the emails and the tokens
  have updated : ∀ {db : Db} {q : RecruiterInvitation → Bool}
      (f : RecruiterInvitation → RecruiterInvitation) (hf : ∀ v, (f v).id = v.id),
      (∀ v, (f v).tokenHash = v.tokenHash ∧ (f v).email = v.email) → db.Invites env token email →
      Db.Invites env { db with invitations := db.invitations.modifyWhere q f hf } token email := by
    intro db q f hf hsame ⟨v, hv, hhash, hemail⟩
    refine ⟨if q v then f v else v, List.mem_map_of_mem hv, ?_⟩
    split
    · exact ⟨(hsame v).1.trans hhash, (hsame v).2.trans hemail⟩
    · exact ⟨hhash, hemail⟩
  intro db w h
  cases w with
  | insertInvitation v =>
    obtain ⟨v', hv', hsame⟩ := h
    exact ⟨v', Table.mem_insert_of_mem hv', hsame⟩
  | revokeInvitations companyId email' =>
    exact updated (fun v => { v with status := .revoked }) (fun _ => rfl) (fun _ => ⟨rfl, rfl⟩) h
  | saveInvitation entity reread =>
    exact updated (entity.overwrite reread) (fun _ => rfl) (fun _ => ⟨rfl, rfl⟩) h
  | _ => exact h

theorem recruiterOf_later {userId : Id} (hl : A <+: L)
    (h : ((d₀.at A).recruiterOf userId).isSome = true) :
    ((d₀.at L).recruiterOf userId).isSome = true := by
  refine replay_keeps (P := fun db : Db => (db.recruiterOf userId).isSome = true) ?_ hl h
  intro db w h
  cases w with
  | insertRecruiter r =>
    obtain ⟨r', hr'⟩ := Option.isSome_iff_exists.1 h
    show ((db.recruiters.insert r).rows.find? (·.userId = userId)).isSome = true
    unfold Table.insert
    split
    · exact h
    · rw [List.find?_append]
      simp [show db.recruiters.rows.find? (·.userId = userId) = some r' from hr']
  | _ => exact h

/-! ## What the calls publish -/

def isAcceptance : Write → Bool
  | .saveInvitation entity _ => entity.status = .accepted
  | _ => false

/-- The invited account is the user. -/
def InvitedAccount (env : Environment) (db : Db) (token : String) (userId : Id) : Prop :=
  ∃ email u, db.Invites env token email ∧ db.accountOf email = some u ∧ u.id = userId ∧
    u.emailVerified = true

/-- What is known of a write of call `i` at the log `L`. -/
def AcceptGuarantee (env : Environment) (d₀ : Db) (i : Nat) (op : Op) (L : Log) : Write → Prop
  | .insertUser u => ∃ token password, op = .accept token password ∧
    (d₀.at L).users.get? u.id = none ∧ (d₀.at L).accountOf u.email = none ∧
    u.passwordHash = env.argon2Hash i password ∧
    u.emailVerified = true ∧ u.status = .active
  | .insertRecruiter r => (d₀.at L).recruiters.get? r.id = none ∧
    (d₀.at L).recruiterOf r.userId = none ∧
    ∀ token password, op = .accept token password → InvitedAccount env (d₀.at L) token r.userId
  | .saveInvitation entity _ => entity.status = .accepted →
    (∃ B r, WrittenAt L B i (.insertRecruiter r)) ∧ Unwritten i isAcceptance L
  | _ => True

/-- What is known when a call has returned. -/
def Accepted (env : Environment) (d₀ : Db) (op : Op) (L : Log) : Prop :=
  ∀ token password, op = .accept token password →
    ∃ userId, InvitedAccount env (d₀.at L) token userId

theorem InvitedAccount.later {userId : Id} (hl : A <+: L)
    (h : InvitedAccount env (d₀.at A) token userId) :
    InvitedAccount env (d₀.at L) token userId := by
  obtain ⟨email, u, hinvites, hu, hid, hverified⟩ := h
  obtain ⟨u', hu', honto⟩ := accountOf_later hl hu
  exact ⟨email, u', invites_later hl hinvites, hu', honto.same.trans hid, honto.verified hverified⟩

/-- The write is promised at every log. -/
def isSilent : Write → Bool
  | .insertUser _ => false
  | .insertRecruiter _ => false
  | .saveInvitation entity _ => entity.status ≠ .accepted
  | _ => true

theorem silent_spec {op : Op} {w : Write} (h : isSilent w = true) :
    AcceptGuarantee env d₀ i op L w ∧ isAcceptance w = false := by
  cases w with
  | insertUser u => cases h
  | insertRecruiter r => cases h
  | saveInvitation entity reread =>
    have hstatus : entity.status ≠ .accepted := of_decide_eq_true h
    exact ⟨fun h => absurd h hstatus, decide_eq_false hstatus⟩
  | _ => exact ⟨trivial, rfl⟩

/-- What a call carries along: it has not accepted its invitation. -/
structure Unaccepted (i : Nat) (L L' : Log) : Prop where
  onto : L <+: L'
  unwritten : Unwritten i isAcceptance L → Unwritten i isAcceptance L'

theorem Unaccepted.refl (i : Nat) (L : Log) : Unaccepted i L L := ⟨List.prefix_rfl, id⟩

theorem Unaccepted.trans {L' L'' : Log} (h : Unaccepted i L L') (h' : Unaccepted i L' L'') :
    Unaccepted i L L'' := ⟨h.onto.trans h'.onto, fun hu => h'.unwritten (h.unwritten hu)⟩

theorem Unaccepted.others {L' : Log} (h : ByOthers i L L') : Unaccepted i L L' :=
  ⟨h.onto, fun hu => hu.others h⟩

theorem Unaccepted.snoc {w : Write} (h : isAcceptance w = false) :
    Unaccepted i L (L ++ [⟨i, false, [w]⟩]) := ⟨List.prefix_append _ _, fun hu => hu.snoc h⟩

abbrev Commits {α : Type} (env : Environment) (d₀ : Db) (i : Nat) (op : Op) (p : M α)
    (Q : Log → α → Prop) (L : Log) : Prop :=
  p.Promises store d₀ i (AcceptGuarantee env d₀ i op) (fun e => isFault e = true) Q L

variable {op : Op}

theorem commits_silent {α : Type} {p : M α} {Q : Log → α → Prop} (hp : Writes isSilent p)
    (hQ : ∀ L' a, Unaccepted i L L' → Q L' a) : Commits env d₀ i op p Q L := by
  refine (Plain.follows (P := fun L' => Unaccepted i L L') hp
    (fun _ _ hl hr => hl.trans (.others hr)) (fun L' w hl hw => ?_) (fun _ _ _ _ => trivial)
    (.refl i L)).mono hQ
  have hspec : AcceptGuarantee env d₀ i op L' w ∧ isAcceptance w = false := silent_spec hw
  obtain ⟨hpromised, hacceptance⟩ := hspec
  exact ⟨hpromised, hl.trans (.snoc hacceptance)⟩

theorem insertRecruiter_commits {recruiter : Time → Recruiter} {Q : Log → Recruiter → Prop}
    (h : ∀ L' now token password, L <+: L' → op = .accept token password →
      InvitedAccount env (d₀.at L') token (recruiter now).userId)
    (hQ : ∀ L' r, Unaccepted i L L' → (∃ B, WrittenAt L' B i (.insertRecruiter r)) → Q L' r) :
    Commits env d₀ i op (insertRecruiter recruiter) Q L := by
  refine promises_query fun L₁ ws r hr hf => ?_
  split at hf
  · cases hf
  · next hid =>
    split at hf
    · cases hf
    · next hnone =>
      cases hf
      refine .inr ⟨_, rfl, ⟨Option.not_isSome_iff_eq_none.1 hid,
        Option.not_isSome_iff_eq_none.1 hnone, fun token password hop => ?_⟩, ?_⟩
      · exact h L₁ _ token password hr.onto hop
      · exact hQ _ _ ((Unaccepted.others hr).trans (.snoc rfl)) ⟨L₁, writtenAt_self _ _ _⟩

theorem attach_commits {uuid userId companyId actorId : Id} {position : Option String}
    {Q : Log → Unit → Prop}
    (h : ∀ L' token password, L <+: L' → op = .accept token password →
      InvitedAccount env (d₀.at L') token userId)
    (hQ : ∀ L' a, Unaccepted i L L' → (∃ B r, WrittenAt L' B i (.insertRecruiter r)) → Q L' a) :
    Commits env d₀ i op (attach uuid userId companyId position actorId) Q L := by
  refine promises_bind.2 (insertRecruiter_commits (fun L' _ => h L') fun L₁ r hl₁ hw => ?_)
  obtain ⟨B, hB⟩ := hw
  have written : ∀ L' a, Unaccepted i L₁ L' → Q L' a := fun L' a hl =>
    hQ L' a (hl₁.trans hl) ⟨B, r, hB.mono hl.onto⟩
  refine promises_bind.2 (commits_silent (findById_writes _) fun L₂ user? hl₂ => ?_)
  have audited : ∀ L', Unaccepted i L₁ L' → Commits env d₀ i op (auditAdded actorId r) Q L' :=
    fun L' hl => commits_silent (auditAdded_writes _ _ fun _ => rfl) fun L'' a hl' =>
      written L'' a (hl.trans hl')
  cases user? with
  | none => exact audited L₂ hl₂
  | some user =>
    refine promises_bind.2 (commits_silent (grantRecruiter_writes _ fun _ => rfl) ?_)
    exact fun L₃ _ hl₃ => audited L₃ (hl₂.trans hl₃)

theorem accountOf_inserted {db : Db} {u : User} (hid : db.users.get? u.id = none)
    (hnone : db.accountOf u.email = none) :
    (store.apply db (.insertUser u)).accountOf u.email = some u := by
  show (db.users.insert u).rows.find? (·.email = u.email) = some u
  rw [Table.insert_rows hid, List.find?_append,
    show db.users.rows.find? (·.email = u.email) = none from hnone]
  simp

theorem create_commits {u : User} {password : String} {Q : Log → User → Prop}
    (hop : op = .accept token password) (hhash : u.passwordHash = env.argon2Hash i password)
    (hverified : u.emailVerified = true) (hactive : u.status = .active)
    (hQ : ∀ L', Unaccepted i L L' → (d₀.at L').accountOf u.email = some u → Q L' u) :
    Commits env d₀ i op (UsersService.create u) Q L := by
  refine promises_query fun L₁ ws user hr hf => ?_
  split at hf
  · cases hf
  · next hviolation =>
    cases hf
    unfold UsersService.userViolation at hviolation
    split at hviolation
    · cases hviolation
    · next hid =>
      split at hviolation
      · cases hviolation
      · next hemail =>
        have hnone : (d₀.at L₁).accountOf u.email = none := by
          refine List.find?_eq_none.2 fun u' hu' heq => hemail ?_
          exact List.any_eq_true.2 ⟨u', hu', heq⟩
        have hfresh : (d₀.at L₁).users.get? u.id = none := Option.not_isSome_iff_eq_none.1 hid
        refine .inr ⟨_, rfl, ⟨token, password, hop, hfresh, hnone, hhash, hverified, hactive⟩, ?_⟩
        refine hQ _ ((Unaccepted.others hr).trans (.snoc rfl)) ?_
        rw [at_snoc]
        exact accountOf_inserted hfresh hnone

/-- The account that the call finds, verifies or creates. -/
theorem acceptUser_commits {password : String} {Q : Log → User → Prop}
    (hinvites : (d₀.at L).Invites env token email) (hop : op = .accept token password)
    (hQ : ∀ L' user, Unaccepted i L L' → InvitedAccount env (d₀.at L') token user.id → Q L' user) :
    Commits env d₀ i op (RecruiterInvitationService.acceptUser env i email password) Q L := by
  refine promises_bind.2 (promises_select fun L₁ hr₁ => ?_)
  have hl₁ : Unaccepted i L L₁ := .others hr₁
  cases huser : (d₀.at L₁).users.rows.find? (·.email = email) with
  | some user =>
    have haccount : (d₀.at L₁).accountOf email = some user := huser
    refine promises_bind.2 (promises_select fun L₂ hr₂ => ?_)
    have hl₂ : Unaccepted i L L₂ := hl₁.trans (.others hr₂)
    cases (d₀.at L₂).recruiterOf user.id with
    | some _ => trivial
    | none =>
      dsimp only
      split
      · next hverified =>
        obtain ⟨u, hu, honto⟩ := accountOf_later hr₂.onto haccount
        exact hQ L₂ user hl₂ ⟨email, u, invites_later hl₂.onto hinvites, hu, honto.same,
          honto.verified hverified⟩
      · -- the account gets verified, whoever has registered it
        refine promises_bind.2 (promises_bind.2 (promises_write fun L₃ hr₃ => ⟨trivial, ?_⟩))
        have hl₃ : Unaccepted i L (L₃ ++ [⟨i, false, [.verifyUser user.id]⟩]) :=
          (hl₂.trans (.others hr₃)).trans (.snoc rfl)
        obtain ⟨u, hu, honto⟩ := accountOf_later (hr₂.onto.trans hr₃.onto) haccount
        have hinvited : InvitedAccount env
            (d₀.at (L₃ ++ [⟨i, false, [.verifyUser user.id]⟩])) token user.id := by
          refine ⟨email, { u with emailVerified := true, status := .active },
            invites_later hl₃.onto hinvites, ?_, honto.same, rfl⟩
          rw [at_snoc, accountOf_verifyUser, hu]
          exact congrArg some (if_pos honto.same)
        refine commits_silent (findById_writes _) fun L₄ _ hl₄ => ?_
        exact hQ L₄ user (hl₃.trans hl₄) (hinvited.later hl₄.onto)
  | none =>
    refine create_commits hop rfl rfl rfl fun L₂ hl₂ hu => ?_
    have hl : Unaccepted i L L₂ := hl₁.trans hl₂
    exact hQ L₂ _ hl ⟨email, _, invites_later hl.onto hinvites, hu, rfl, rfl⟩

theorem findPendingByToken_commits {Q : Log → Option RecruiterInvitation → Prop}
    (hQ : ∀ L' v?, Unaccepted i L L' →
      (∀ v, v? = some v → (d₀.at L').Invites env token v.email) → Q L' v?) :
    Commits env d₀ i op (findPendingByToken env token) Q L := by
  unfold findPendingByToken
  split
  · exact hQ L none (.refl i L) nofun
  · refine promises_select fun L₁ hr₁ => hQ L₁ _ (.others hr₁) fun v hv => ?_
    have hfound := List.find?_some hv
    rw [Bool.and_eq_true, decide_eq_true_eq] at hfound
    exact ⟨v, List.mem_of_find?_eq_some hv, hfound.1, rfl⟩

theorem save_commits {entity : RecruiterInvitation} {Q : Log → RecruiterInvitation → Prop}
    (hinserted : ∃ B r, WrittenAt L B i (.insertRecruiter r))
    (hunwritten : Unwritten i isAcceptance L)
    (hQ : ∀ L' v, L <+: L' → Q L' v) :
    Commits env d₀ i op (RecruiterInvitationService.save entity) Q L := by
  refine promises_bind.2 (promises_select fun L₁ hr₁ => ?_)
  cases (d₀.at L₁).invitations.get? entity.id with
  | none => trivial
  | some reread =>
    dsimp only
    split
    · exact hQ L₁ _ hr₁.onto
    · refine promises_bind.2 (promises_write fun L₂ hr₂ => ?_)
      have hl₂ : Unaccepted i L L₂ := (Unaccepted.others hr₁).trans (.others hr₂)
      obtain ⟨B, r, hB⟩ := hinserted
      exact ⟨fun _ => ⟨⟨B, r, hB.mono hl₂.onto⟩, hl₂.unwritten hunwritten⟩,
        hQ _ _ (hl₂.onto.trans (List.prefix_append _ _))⟩

theorem accept_commits {password : String} {Q : Log → String → Prop}
    (hop : op = .accept token password) (hstart : Unwritten i isAcceptance L)
    (hQ : ∀ L' a, (∃ userId, InvitedAccount env (d₀.at L') token userId) → Q L' a) :
    Commits env d₀ i op (RecruiterInvitationService.accept env i token password) Q L := by
  unfold RecruiterInvitationService.accept
  refine promises_bind.2 (findPendingByToken_commits fun L₁ v? hl₁ hinvites => ?_)
  cases v? with
  | none => trivial
  | some v =>
    refine promises_bind.2 (commits_silent (getSeatLimit_writes _) fun L₂ limit hl₂ => ?_)
    refine promises_bind.2
      (commits_silent (countSeats_writes _ fun _ => rfl) fun L₃ seats hl₃ => ?_)
    split
    · trivial
    · have hinvites₃ := invites_later (hl₂.trans hl₃).onto (hinvites v rfl)
      refine promises_bind.2 (acceptUser_commits hinvites₃ hop fun L₄ user hl₄ hinvited => ?_)
      refine promises_bind.2 (attach_commits (fun L' token' password' hl' hop' => ?_)
        fun L₅ _ hl₅ hinserted => ?_)
      · cases hop.symm.trans hop'
        exact hinvited.later hl'
      · have hl : Unaccepted i L L₅ := (((hl₁.trans hl₂).trans hl₃).trans hl₄).trans hl₅
        refine promises_bind.2 (promises_select fun L₆ hr₆ => ?_)
        obtain ⟨B, r, hB⟩ := hinserted
        refine promises_bind.2 (save_commits ⟨B, r, hB.mono hr₆.onto⟩
          ((hl.unwritten hstart).others hr₆) fun L₇ _ hl₇ => ?_)
        exact hQ L₇ _ ⟨user.id, hinvited.later (hl₅.onto.trans (hr₆.onto.trans hl₇))⟩

/-- The other operations insert recruiters besides. -/
theorem addRecruiter_commits {uuid callerId : Id} {dto : AddRecruiterDto}
    {Q : Log → Recruiter → Prop} (hop : ∀ token password, op ≠ .accept token password)
    (hQ : ∀ L' r, Q L' r) :
    Commits env d₀ i op (RecruiterService.addRecruiter env uuid callerId dto) Q L := by
  unfold RecruiterService.addRecruiter
  refine promises_bind.2 (commits_silent (resolveCompanyId_writes _) fun L₁ companyId _ => ?_)
  refine promises_bind.2 (commits_silent (getSeatLimit_writes _) fun L₂ limit _ => ?_)
  refine promises_bind.2 (commits_silent (countSeats_writes _ fun _ => rfl) fun L₃ seats _ => ?_)
  split
  · trivial
  · refine promises_bind.2 (commits_silent (findByEmail_writes _) fun L₄ user? _ => ?_)
    cases user? with
    | none => trivial
    | some user =>
      dsimp only
      split
      · trivial
      · refine promises_bind.2 (promises_select fun L₅ _ => ?_)
        cases (d₀.at L₅).recruiterOf user.id with
        | some _ => trivial
        | none =>
          refine promises_bind.2 (insertRecruiter_commits
            (fun _ _ token password _ h => absurd h (hop token password)) fun L₆ r _ _ => ?_)
          refine promises_bind.2 (commits_silent (grantRecruiter_writes _ fun _ => rfl) ?_)
          intro L₇ _ _
          refine promises_bind.2 (commits_silent (auditAdded_writes _ _ fun _ => rfl) ?_)
          exact fun L₈ _ _ => hQ _ _

theorem inviteByMail_commits {uuid callerId companyId : Id} {position : Option String}
    {Q : Log → InviteStatus → Prop} (hQ : ∀ L' a, Q L' a) :
    Commits env d₀ i op
      (RecruiterInvitationService.inviteByMail env uuid callerId companyId email position) Q L :=
  commits_silent (inviteByMail_writes _ _ _ _ _ rfl (fun _ => rfl) fun _ => rfl)
    fun L' a _ => hQ L' a

theorem invite_commits {uuid callerId : Id} {dto : AddRecruiterDto}
    {Q : Log → InviteStatus → Prop} (hop : ∀ token password, op ≠ .accept token password)
    (hQ : ∀ L' a, Q L' a) :
    Commits env d₀ i op (RecruiterInvitationService.invite env uuid callerId dto) Q L := by
  unfold RecruiterInvitationService.invite
  refine promises_bind.2 (commits_silent (resolveCompanyId_writes _) fun L₁ companyId _ => ?_)
  refine promises_bind.2 (commits_silent (getSeatLimit_writes _) fun L₂ limit _ => ?_)
  refine promises_bind.2 (promises_bind.2
    (commits_silent (countSeats_writes _ fun _ => rfl) fun L₃ seats _ => ?_))
  refine promises_bind.2 (promises_select fun L₄ _ => ?_)
  show Commits env d₀ i op (ite _ _ _) Q L₄
  split
  · trivial
  · refine promises_bind.2 (commits_silent (findByEmail_writes _) fun L₅ user? _ => ?_)
    cases user? with
    | none => exact inviteByMail_commits hQ
    | some user =>
      refine promises_bind.2 (promises_select fun L₆ _ => ?_)
      cases (d₀.at L₆).recruiterOf user.id with
      | some _ => trivial
      | none =>
        dsimp only
        split
        · exact promises_bind.2 (attach_commits
            (fun _ token password _ h => absurd h (hop token password)) fun _ _ _ _ => hQ _ _)
        · exact inviteByMail_commits hQ

/-- What the services promise of their writes and results. -/
theorem accept_followed (env : Environment) (d₀ : Db) {ok : RunState → Label Error Op → Prop} :
    Followed (system env) ok d₀ (AcceptGuarantee env d₀) (fun _ op L _ => Accepted env d₀ op L)
      fun _ _ _ => True where
  mono _ h token password hop := by
    obtain ⟨userId, hinvited⟩ := h token password hop
    exact ⟨userId, hinvited.later (List.prefix_append _ _)⟩
  others _ _ := trivial
  fault _ _ _ _ := trivial
  prog i op L hstart := by
    cases op with
    | clock ms => exact promises_bind.2 (promises_write fun _ _ => ⟨trivial, nofun⟩)
    | addRecruiter callerId dto =>
      exact promises_bind.2 (addRecruiter_commits nofun fun _ _ => nofun)
    | invite callerId dto => exact promises_bind.2 (invite_commits nofun fun _ _ => nofun)
    | accept token password =>
      refine promises_bind.2 (accept_commits rfl (.start hstart) fun L' _ hinvited => ?_)
      intro token' password' hop
      cases hop
      exact hinvited
    | revoke callerId invitationId =>
      refine promises_bind.2
        (commits_silent (revoke_writes _ _ fun entity _ h => ?_) fun _ _ _ => nofun)
      simp [isSilent, h]

end

/-! ## One recruiter, one acceptance -/

def insertsRecruiter : Write → Bool
  | .insertRecruiter _ => true
  | _ => false

/-- A call with the token has published the write. -/
structure ByToken (s : RunState) (token : String) (A : Log) (i : Nat) (w : Write) : Prop where
  written : WrittenAt s.log A i w
  op : ∃ password, s.ops[i]? = some (.accept token password)

/-- Calls with the token have published one write of the kind at most. -/
def AtMostOnce (s : RunState) (token : String) (p : Write → Bool) : Prop :=
  ∀ A i w A' i' w', ByToken s token A i w → ByToken s token A' i' w' → p w = true → p w' = true →
    A = A' ∧ i = i' ∧ w = w'

section

variable {env : Environment} {d₀ : Db} {s : RunState} {A A' : Log} {i i' : Nat}
  {token email : String}

theorem published_accept (h : (system env).Reachable d₀ s) {w : Write}
    (hw : WrittenAt s.log A i w) :
    ∃ op, s.ops[i]? = some op ∧ AcceptGuarantee env d₀ i op A w := by
  obtain ⟨op, w', t, hg, hop, ht⟩ := (accept_followed env d₀).published h.within hw
  cases hg
  exact ⟨op, hop, ht.promised⟩

theorem db_at (h : (system env).Reachable d₀ s) : s.db = d₀.at s.log :=
  (accept_followed env d₀).db h.within

/-- The token leads to one account, at all moments. -/
theorem invited_same (h : (system env).Reachable d₀ s) (honce : s.db.TokenOnce env token)
    (hl : A <+: A') (hA' : A' <+: s.log) {userId userId' : Id}
    (hu : InvitedAccount env (d₀.at A) token userId)
    (hu' : InvitedAccount env (d₀.at A') token userId') : userId = userId' := by
  obtain ⟨email, u, hinvites, hu, hid, -⟩ := hu
  obtain ⟨email', u', hinvites', hu', hid', -⟩ := hu'
  rw [db_at h] at honce
  obtain ⟨v, hv, hhash, hemail⟩ := invites_later (hl.trans hA') hinvites
  obtain ⟨v', hv', hhash', hemail'⟩ := invites_later hA' hinvites'
  obtain rfl := honce v hv v' hv' hhash hhash'
  obtain rfl : email = email' := hemail.symm.trans hemail'
  obtain ⟨u'', hu'', honto⟩ := accountOf_later hl hu
  obtain rfl : u'' = u' := Option.some.inj (hu''.symm.trans hu')
  exact hid.symm.trans (honto.same.symm.trans hid')

/-- The second of two inserts would be refused. -/
theorem recruiter_before (h : (system env).Reachable d₀ s) (honce : s.db.TokenOnce env token)
    {r r' : Recruiter} (hr : ByToken s token A i (.insertRecruiter r))
    (hr' : ByToken s token A' i' (.insertRecruiter r')) :
    ¬ WrittenAt A' A i (.insertRecruiter r) := by
  intro hbefore
  obtain ⟨password, hop⟩ := hr.op
  obtain ⟨password', hop'⟩ := hr'.op
  obtain ⟨op, hop₁, hfresh, -, hinvited⟩ := published_accept h hr.written
  obtain ⟨op', hop₁', -, hnone, hinvited'⟩ := published_accept h hr'.written
  cases hop.symm.trans hop₁
  cases hop'.symm.trans hop₁'
  have hsame : r.userId = r'.userId := invited_same h honce hbefore.onto hr'.written.onto
    (hinvited token password rfl) (hinvited' token password' rfl)
  have hafter : ((d₀.at (A ++ [⟨i, false, [.insertRecruiter r]⟩])).recruiterOf r.userId).isSome =
      true := by
    rw [at_snoc]
    show ((d₀.at A).recruiters.insert r).rows.find? _ |>.isSome
    rw [Table.insert_rows hfresh, List.find?_append]
    simp
  have hlater := recruiterOf_later hbefore hafter
  rw [hsame, hnone] at hlater
  cases hlater

theorem one_recruiter (h : (system env).Reachable d₀ s) (honce : s.db.TokenOnce env token) :
    AtMostOnce s token insertsRecruiter := by
  intro A i w A' i' w' hw hw' hp hp'
  cases w with
  | insertRecruiter r =>
    cases w' with
    | insertRecruiter r' =>
      rcases hw.written.cases hw'.written with hsame | hbefore | hbefore
      · exact hsame
      · exact absurd hbefore (recruiter_before h honce hw hw')
      · exact absurd hbefore (recruiter_before h honce hw' hw)
    | _ => cases hp'
  | _ => cases hp

theorem one_acceptance (h : (system env).Reachable d₀ s) (honce : s.db.TokenOnce env token) :
    AtMostOnce s token isAcceptance := by
  -- an acceptance follows an insert of its own call
  have accepted : ∀ {A i w}, ByToken s token A i w → isAcceptance w = true →
      (∃ B r, WrittenAt A B i (.insertRecruiter r)) ∧ Unwritten i isAcceptance A := by
    intro A i w hw hp
    obtain ⟨op, -, hpromised⟩ := published_accept h hw.written
    cases w with
    | saveInvitation entity reread => exact hpromised (of_decide_eq_true hp)
    | _ => cases hp
  intro A i w A' i' w' hw hw' hp hp'
  obtain ⟨⟨B, r, hB⟩, hunwritten⟩ := accepted hw hp
  obtain ⟨⟨B', r', hB'⟩, hunwritten'⟩ := accepted hw' hp'
  obtain ⟨-, rfl, -⟩ := one_recruiter h honce B i _ B' i' _ ⟨hB.mono hw.written.onto, hw.op⟩
    ⟨hB'.mono hw'.written.onto, hw'.op⟩ rfl rfl
  rcases hw.written.cases hw'.written with hsame | hbefore | hbefore
  · exact hsame
  · rw [hunwritten' A w hbefore] at hp
    cases hp
  · rw [hunwritten A' w' hbefore] at hp'
    cases hp'

end

/-! ## The password of the account -/

section

variable (argon2Verify : String → String → Option Bool)

/-- The checks of `login` on a row, before the second factor. -/
def passes (passwordHash : String) (emailVerified : Bool) (status : UserStatus)
    (password : String) : Bool :=
  argon2Verify passwordHash password = some true && emailVerified && status = .active

/-- The account lets its owner in with the password, and with no other. -/
def User.AuthenticatesExactly (u : User) (password : String) : Prop :=
  ∀ p, passes argon2Verify u.passwordHash u.emailVerified u.status p = true ↔ p = password

/-- The stored hash is of the password. -/
def HashOf (passwordHash password : String) : Prop :=
  ∀ p, argon2Verify passwordHash p = some true ↔ p = password

/-- The account of the email was verified at `t`, or at `s` has the password. -/
def PasswordGiven (t s : RunState) (email password : String) : Prop :=
  (∃ u, t.db.accountOf email = some u ∧ u.emailVerified = true) ∨
    ∃ u, s.db.accountOf email = some u ∧ u.AuthenticatesExactly argon2Verify password

/-- At `t` the address had no account, a verified one, or one that has the password; an acceptance
that has created the account until `s` was given the password. -/
def OwnAddress (t s : RunState) (email password : String) : Prop :=
  match t.db.accountOf email with
  | some u => u.emailVerified = true ∨ HashOf argon2Verify u.passwordHash password
  | none => ∀ A i u token password', WrittenAt s.log A i (.insertUser u) → u.email = email →
    s.ops[i]? = some (.accept token password') → password' = password

end

section

variable {env : Environment} {argon2Verify : String → String → Option Bool} {d₀ : Db}
  {s t : RunState} {token password email : String}

theorem authenticates_iff {u : User} (hverified : u.emailVerified = true)
    (hactive : u.status = .active) :
    u.AuthenticatesExactly argon2Verify password ↔ HashOf argon2Verify u.passwordHash password := by
  simp [User.AuthenticatesExactly, HashOf, passes, hverified, hactive]

theorem hashOf_iff
    (hargon : ∀ uuid p p', argon2Verify (env.argon2Hash uuid p) p' = some true ↔ p' = p)
    (uuid : Id) (p : String) :
    HashOf argon2Verify (env.argon2Hash uuid p) password ↔ p = password := by
  unfold HashOf
  constructor
  · intro h
    exact (h p).1 ((hargon uuid p p).2 rfl)
  · rintro rfl
    exact hargon uuid p

/-- An account that appears was created by an acceptance. -/
theorem account_created (h : (system env).Reachable d₀ s) {A : Log}
    (hnone : (d₀.at A).accountOf email = none) : ∀ L, A <+: L → L <+: s.log →
    ∀ u, (d₀.at L).accountOf email = some u →
      ∃ B j v, WrittenAt L B j (.insertUser v) ∧ v.email = email ∧ v.Onto u := by
  refine along_log_from (fun u hu => ?_) fun L g _ hl ih u hu => ?_
  · rw [hnone] at hu
    cases hu
  obtain ⟨op, w, t, hg, -, ht⟩ := (accept_followed env d₀).published h.within hl
  rw [hg, at_snoc] at hu
  cases hbefore : (d₀.at L).accountOf email with
  | none =>
    obtain rfl := accountOf_created hbefore hu
    have hemail := email_of_accountOf hu
    exact ⟨L, g.call, u, by rw [hg]; exact writtenAt_self _ _ _, hemail, .refl u⟩
  | some u₁ =>
    obtain ⟨B, j, v, hv, hemail, honto⟩ := ih u₁ hbefore
    obtain ⟨u₂, hu₂, honto₂⟩ := accountOf_apply w hbefore
    obtain rfl : u₂ = u := Option.some.inj (hu₂.symm.trans hu)
    exact ⟨B, j, v, hv.mono (List.prefix_append _ _), hemail, honto.trans honto₂⟩

/-- One account is created for an email. -/
theorem one_account (h : (system env).Reachable d₀ s) {A A' : Log} {i i' : Nat} {u u' : User}
    (hu : WrittenAt s.log A i (.insertUser u)) (hu' : WrittenAt s.log A' i' (.insertUser u'))
    (hsame : u.email = u'.email) : i = i' := by
  -- the second insert would be refused
  have refused : ∀ {A A' i i' u u'}, WrittenAt s.log A i (.insertUser u) →
      WrittenAt s.log A' i' (.insertUser u') → u.email = u'.email →
      ¬ WrittenAt A' A i (.insertUser u) := by
    intro A A' i i' u u' hu hu' hsame hbefore
    obtain ⟨-, -, -, -, -, hfresh, hnone, -⟩ := published_accept h hu
    obtain ⟨-, -, -, -, -, -, hnone', -⟩ := published_accept h hu'
    have hafter : (d₀.at (A ++ [⟨i, false, [.insertUser u]⟩])).accountOf u.email = some u := by
      rw [at_snoc]
      exact accountOf_inserted hfresh hnone
    obtain ⟨v, hv, -⟩ := accountOf_later hbefore hafter
    rw [hsame, hnone'] at hv
    cases hv
  rcases hu.cases hu' with ⟨-, hi, -⟩ | hbefore | hbefore
  · exact hi
  · exact absurd hbefore (refused hu hu' hsame)
  · exact absurd hbefore (refused hu' hu hsame.symm)

/-- An account that was there keeps its hash, and can log in once it is verified. -/
theorem given_of_account {u₀ u : User} (hu₀ : t.db.accountOf email = some u₀)
    (hu : s.db.accountOf email = some u) (honto : u₀.Onto u) (hverified : u.emailVerified = true) :
    PasswordGiven argon2Verify t s email password ↔
      u₀.emailVerified = true ∨ HashOf argon2Verify u₀.passwordHash password := by
  unfold PasswordGiven
  cases hbefore : u₀.emailVerified with
  | true => exact ⟨fun _ => .inl rfl, fun _ => .inl ⟨u₀, hu₀, hbefore⟩⟩
  | false =>
    have hactive : u.status = .active :=
      honto.active (fun h => by rw [hbefore] at h; cases h) hverified
    rw [← honto.passwordHash, ← authenticates_iff hverified hactive]
    constructor
    · rintro (⟨u', hu', hverified'⟩ | ⟨u', hu', hexactly⟩)
      · rw [hu₀] at hu'
        cases hu'
        rw [hbefore] at hverified'
        cases hverified'
      · rw [hu] at hu'
        cases hu'
        exact .inr hexactly
    · rintro (hfalse | hexactly)
      · cases hfalse
      · exact .inr ⟨u, hu, hexactly⟩

/-- An account that was not there has the password of the acceptance that has created it. -/
theorem given_of_created {u : User} {uuid : Id} {password' : String}
    (hargon : ∀ uuid p p', argon2Verify (env.argon2Hash uuid p) p' = some true ↔ p' = p)
    (hnone : t.db.accountOf email = none) (hu : s.db.accountOf email = some u)
    (hverified : u.emailVerified = true) (hactive : u.status = .active)
    (hhash : u.passwordHash = env.argon2Hash uuid password') :
    PasswordGiven argon2Verify t s email password ↔ password' = password := by
  have hexactly : u.AuthenticatesExactly argon2Verify password ↔ password' = password := by
    rw [authenticates_iff hverified hactive, hhash, hashOf_iff hargon]
  rw [← hexactly]
  constructor
  · rintro (⟨u', hu', -⟩ | ⟨u', hu', hu'exactly⟩)
    · rw [hnone] at hu'
      cases hu'
    · rw [hu] at hu'
      cases hu'
      exact hu'exactly
  · exact fun h => .inr ⟨u, hu, h⟩

/-- What a call of `accept` that is started at `t` leads to. -/
theorem acceptance_iff
    (hargon : ∀ uuid p p', argon2Verify (env.argon2Hash uuid p) p' = some true ↔ p' = p)
    {ls : List (Label Error Op)} (ht : (system env).Reachable d₀ t)
    (hrun : (system env).runLabels .all t (.spawn (.accept token password) :: ls) = some s)
    (honce : s.db.TokenOnce env token) :
    AtMostOnce s token insertsRecruiter ∧ AtMostOnce s token isAcceptance ∧
    ∀ r email, s.call t.ops.length = .done (.ok r) → s.db.Invites env token email →
      (PasswordGiven argon2Verify t s email password ↔
        OwnAddress argon2Verify t s email password) := by
  have hs : (system env).Reachable d₀ s := System.runLabels_reach ht hrun
  have hbefore : t.Before s := (State.Before.refl t).runLabels hrun
  refine ⟨one_recruiter hs honce, one_acceptance hs honce, fun r email hdone hinvites => ?_⟩
  have hop := System.runLabels_op hrun
  have hl : t.log <+: s.log := by
    obtain ⟨gs, hgs, -⟩ := hbefore.log
    exact hgs ▸ List.prefix_append _ _
  obtain ⟨userId, email', u, hinvites', hu, -, hverified⟩ :=
    (accept_followed env d₀).done hs.within hop hdone token password rfl
  rw [← db_at hs] at hinvites' hu
  obtain ⟨v, hv, hhash, rfl⟩ := hinvites
  obtain ⟨v', hv', hhash', rfl⟩ := hinvites'
  obtain rfl := honce v hv v' hv' hhash hhash'
  have hat : t.db = d₀.at t.log := db_at ht
  unfold OwnAddress
  cases haccount : t.db.accountOf v.email with
  | some u₀ =>
    obtain ⟨u', hu', honto⟩ := accountOf_later hl (hat ▸ haccount)
    rw [← db_at hs, hu] at hu'
    cases hu'
    exact given_of_account haccount hu honto hverified
  | none =>
    have hcreated := account_created hs (hat ▸ haccount) s.log hl List.prefix_rfl u
      (db_at hs ▸ hu)
    obtain ⟨B, j, v', hv', hemail, honto⟩ := hcreated
    obtain ⟨op, hj, token', password', rfl, -, -, hhash', -, hactive⟩ := published_accept hs hv'
    rw [given_of_created hargon haccount hu hverified
      (honto.active (fun _ => hactive) hverified) (honto.passwordHash.trans hhash')]
    constructor
    · rintro rfl A i u' token'' password'' hu' hemail' hi
      obtain rfl := one_account hs hu' hv' (hemail'.trans hemail.symm)
      rw [hj] at hi
      cases hi
      rfl
    · exact fun h => h B j v' token' password' hv' hemail hj

end

/-- What `login` does once the row has passed. -/
def afterChecks (env : Auth.Environment) (uuid : Id) (user : Auth.User) :
    Auth.M Auth.LoginResult :=
  if user.mfaEnabled then do
    let now ← Auth.now
    return .challenge (Auth.AuthService.issueMfaChallengeToken env user.id now)
  else do
    let tokens ← Auth.AuthService.generateTokens env uuid user false
    Auth.AuditService.log ⟨some user.id, .userLogin, "user", user.id, []⟩
    return .tokens tokens

/-- `login` gets to the second factor exactly when the row of the email passes. -/
theorem login_checks (env : Auth.Environment) (uuid : Id) (dto : Auth.LoginDto) (db : Auth.Db)
    {user : Auth.User} (hu : db.userByEmail (env.toLowerCase dto.email) = some user) :
    if passes env.argon2Verify user.passwordHash user.emailVerified user.status dto.password then
      (Auth.AuthService.login env uuid dto).exec Auth.store none db =
        (afterChecks env uuid user).exec Auth.store none db
    else ∃ e, (Auth.AuthService.login env uuid dto).exec Auth.store none db = (db, .error e) := by
  have hfound : (Auth.AuthService.login env uuid dto).exec Auth.store none db =
      Prog.exec Auth.store (do
        if !(← Auth.AuthService.checkPassword env user.passwordHash dto.password) then
          Auth.unauthorized "Invalid credentials"
        else if !user.emailVerified then
          Prog.throw (.unauthorized "Email not verified" (some "EMAIL_NOT_VERIFIED"))
        else if user.status ≠ .active then Auth.unauthorized "Account is not active"
        else afterChecks env uuid user) none db := by
    unfold Auth.AuthService.login Auth.UsersService.findByEmail
    rw [exec_select_bind, hu]
    rfl
  rw [hfound]
  unfold passes Auth.AuthService.checkPassword
  cases env.argon2Verify user.passwordHash dto.password with
  | none => exact ⟨_, rfl⟩
  | some valid =>
    cases valid with
    | false => exact ⟨_, rfl⟩
    | true =>
      cases user.emailVerified with
      | false => exact ⟨_, rfl⟩
      | true =>
        by_cases hactive : user.status = .active
        · simp [hactive]
        · simp [hactive]
          exact ⟨_, rfl⟩

/-! ## An account that somebody else has registered -/

/-- The subscription of company 3. -/
theorem growth_nodup : ([(⟨1, 3, .growth, .active, none, 0, none, 60, 0, none, false, 0⟩ :
    Subscription)].map Subscription.id).Nodup := List.nodup_singleton _

/-- Company 3 has invited the address, which somebody has registered and not verified. -/
def squattedAddress : Db :=
  { Db.empty with
    users := ⟨[⟨⟨10, false, [.candidate]⟩, "a@x.ma", "squatter", .pendingVerification⟩],
      by decide⟩
    recruiters := ⟨[⟨⟨107, 7, 3⟩, none, 0⟩], by decide⟩
    invitations := ⟨[⟨50, 3, "a@x.ma", "token", none, .pending, 7, 1000, none⟩], by decide⟩
    subscriptions := ⟨[⟨1, 3, .growth, .active, none, 0, none, 60, 0, none, false, 0⟩],
      growth_nodup⟩ }

/-- The hashes of `plainEnvironment` are the passwords. -/
def plainVerify (passwordHash password : String) : Option Bool := some (passwordHash = password)

theorem plainVerify_iff (uuid : Id) (p p' : String) :
    plainVerify (plainEnvironment.argon2Hash uuid p) p' = some true ↔ p' = p := by
  show some (decide (p = p')) = some true ↔ p' = p
  rw [Option.some.injEq, decide_eq_true_iff]
  exact eq_comm

/-- The invitee accepts with a password of their own. -/
def acceptRun : List (Label Error Op) := .spawn (.accept "token" "mine") :: steps 0 16

theorem acceptRun_ends : ∃ s : RunState,
    (system plainEnvironment).runLabels .all (State.init squattedAddress) acceptRun = some s ∧
      s.db.TokenOnce plainEnvironment "token" ∧
      s.db.accountOf "a@x.ma" =
        some ⟨⟨10, true, [.candidate, .recruiter]⟩, "a@x.ma", "squatter", .active⟩ ∧
      s.db.Invites plainEnvironment "token" "a@x.ma" ∧ ∃ r, s.call 0 = .done (.ok r) := by
  have hrun : ((system plainEnvironment).runLabels .all (State.init squattedAddress)
      acceptRun).map (fun s => (decide (s.db.TokenOnce plainEnvironment "token"),
        s.db.accountOf "a@x.ma", s.db.invitations.rows.map (fun v => (v.tokenHash, v.email)),
        match s.call 0 with | .done (.ok _) => true | _ => false)) =
      some (true, some ⟨⟨10, true, [.candidate, .recruiter]⟩, "a@x.ma", "squatter", .active⟩,
        [("token", "a@x.ma")], true) := by decide
  obtain ⟨s, hs, heq⟩ := Option.map_eq_some_iff.1 hrun
  simp only [Prod.mk.injEq, decide_eq_true_eq] at heq
  obtain ⟨honce, haccount, hrows, hdone⟩ := heq
  refine ⟨s, hs, honce, haccount, ?_, ?_⟩
  · have hmem : ("token", "a@x.ma") ∈
        s.db.invitations.rows.map fun v => (v.tokenHash, v.email) := by
      rw [hrows]
      exact List.mem_singleton_self _
    obtain ⟨v, hv, hpair⟩ := List.mem_map.1 hmem
    obtain ⟨hhash, hemail⟩ := Prod.mk.inj hpair
    exact ⟨v, hv, hhash, hemail⟩
  · split at hdone
    · next r hcall => exact ⟨r, hcall⟩
    · cases hdone

theorem acceptance_iff_squatted : ∃ s : RunState,
    AtMostOnce s "token" insertsRecruiter ∧ AtMostOnce s "token" isAcceptance ∧
    ∀ r email, s.call 0 = .done (.ok r) → s.db.Invites plainEnvironment "token" email →
      (PasswordGiven plainVerify (State.init squattedAddress) s email "mine" ↔
        OwnAddress plainVerify (State.init squattedAddress) s email "mine") := by
  obtain ⟨s, hrun, honce, -⟩ := acceptRun_ends
  exact ⟨s, acceptance_iff plainVerify_iff .init hrun honce⟩

/-- The account of the invitee opens with the password of whoever had registered the address. -/
theorem squatter_stays : ¬ ∀ (env : Environment) (argon2Verify : String → String → Option Bool)
    (d₀ : Db) (t s : RunState) (token password : String) (ls : List (Label Error Op)),
    (∀ uuid p p', argon2Verify (env.argon2Hash uuid p) p' = some true ↔ p' = p) →
    (system env).Reachable d₀ t →
    (system env).runLabels .all t (.spawn (.accept token password) :: ls) = some s →
    s.db.TokenOnce env token →
    AtMostOnce s token insertsRecruiter ∧ AtMostOnce s token isAcceptance ∧
      ∀ r email, s.call t.ops.length = .done (.ok r) → s.db.Invites env token email →
        PasswordGiven argon2Verify t s email password := by
  intro hclaim
  obtain ⟨s, hrun, honce, haccount, hinvites, r, hdone⟩ := acceptRun_ends
  obtain ⟨-, -, hgiven⟩ := hclaim plainEnvironment plainVerify squattedAddress _ s "token" "mine" _
    plainVerify_iff .init hrun honce
  rcases hgiven r "a@x.ma" hdone hinvites with ⟨u, hu, hverified⟩ | ⟨u, hu, hexactly⟩
  · have hunverified : ((State.init squattedAddress : RunState).db.accountOf "a@x.ma").map
        (fun u => u.emailVerified) = some false := by decide
    rw [hu] at hunverified
    simp [hverified] at hunverified
  · rw [haccount] at hu
    cases hu
    exact absurd ((hexactly "squatter").1 (by decide)) (by decide)

end JobBoard.Companies
