import JobBoard.Companies.Conduct

/-!
# Teams

The recruiters of the companies come by `addRecruiter`, by invitation, with a new company or by an
administrator, and leave by `removeRecruiter`. Here are the calls and what each knows when it
publishes a write.
-/

set_option autoImplicit false

namespace JobBoard.Companies.Teams

open Txn Prog
open Assessments (trim)
open SubscriptionGuardService (getSeatLimit)

/-! ## The database -/

/-- The audit row `recruiter.removed`. -/
structure RemovalLog where
  actorId : Id
  entityId : Id
  companyId : Id
  removedUserId : Id
  deriving DecidableEq, Repr

structure Db where
  base : Companies.Db
  removals : List RemovalLog

def Db.empty : Db := ⟨.empty, []⟩

inductive Write where
  | base (w : Companies.Write)
  /-- The lookup of the company of a caller who removes a recruiter; it changes no row. -/
  | resolved (callerId companyId : Id)
  | deleteRecruiter (id : Id)
  | insertRemoval (a : RemovalLog)
  deriving DecidableEq, Repr

def Write.apply (db : Db) : Write → Db
  | base w => { db with base := w.apply db.base }
  | resolved _ _ => db
  | deleteRecruiter id =>
    { db with base := { db.base with recruiters := db.base.recruiters.delete id } }
  | insertRemoval a => { db with removals := db.removals ++ [a] }

def Write.keys : Write → List Key
  | base w => w.keys
  | deleteRecruiter id => [.recruiter id]
  | _ => []

def store : Store Db Write Key := ⟨Write.apply, Write.keys⟩

/-- A service method: a program over `Db`. -/
abbrev M (α : Type) := Prog Db Write Error α

def inCompanies {α : Type} (p : Companies.M α) : M α := p.zoom Db.base .base

/-! ## The services -/

namespace RecruiterService

def resolveCompanyId (userId : Id) : M Id :=
  query fun db => match db.base.recruiterOf userId with
    | none => .error (.notFound "No company associated with this account")
    | some recruiter => .ok ([.resolved userId recruiter.companyId], recruiter.companyId)

/-- The roles that a removed recruiter keeps. -/
def remainingRoles (roles : List Role) : List Role :=
  roles.filter fun r => r ≠ .recruiter && r ≠ .companyAdmin

def stripRoles (userId : Id) : M Unit := do
  match ← inCompanies (UsersService.findById userId) with
  | none => ret ()
  | some targetUser =>
    let _ ← inCompanies (UsersService.updateRoles targetUser.id (remainingRoles targetUser.roles))
    return ()

def removeRecruiter (callerId recruiterId : Id) : M Unit := do
  let companyId ← resolveCompanyId callerId
  match ← select fun db =>
      (db.base.recruiters.get? recruiterId).filter (·.companyId = companyId) with
  | none => throw (.notFound "Recruiter not found")
  | some recruiter =>
    if recruiter.userId = callerId then throw (.conflict "You cannot remove yourself")
    else
      write fun _ => [.deleteRecruiter recruiterId]
      stripRoles recruiter.userId
      write fun _ => [.insertRemoval ⟨callerId, recruiterId, companyId, recruiter.userId⟩]

end RecruiterService

namespace CompanyService

def grantCompanyAdmin (user : User) : Companies.M Unit :=
  if Role.companyAdmin ∈ user.roles then ret ()
  else do
    let _ ← UsersService.updateRoles user.id (user.roles ++ [.companyAdmin])
    return ()

/-- What `createCompany` does about the founder. The company and its trial are in
`JobBoard.CompanyService`; where their statements fail, the call ends here by a fault. -/
def createCompany (uuid userId : Id) : Companies.M Unit := do
  match ← UsersService.findById userId with
  | none => throw (.notFound "User not found")
  | some user =>
    if ¬ user.emailVerified then
      throw (.forbidden "A verified professional email is required to create a company")
    else
      match ← select fun db => db.recruiterOf userId with
      | some _ => throw (.conflict "You are already attached to a company")
      | none =>
        let _ ← insertRecruiter fun now => ⟨⟨uuid, userId, uuid⟩, none, now⟩
        grantCompanyAdmin user

end CompanyService

namespace RecruiterAdminService

/-- The company is the one that `resolveCompany` answers. -/
def createRecruiter (env : Environment) (uuid adminId : Id) (email : String) (companyId : Id)
    (position : Option String) : Companies.M Unit := do
  let email := trim (env.toLowerCase email)
  match ← UsersService.findByEmail email with
  | some _ => throw (.conflict "Email already in use")
  | none =>
    let user ← UsersService.create
      { id := uuid
        email := email
        passwordHash := env.argon2Hash uuid (env.randomBytes uuid)
        roles := [.recruiter]
        status := .active
        emailVerified := true }
    let recruiter ← insertRecruiter fun now =>
      ⟨⟨uuid, user.id, companyId⟩, (position.map trim).filter (· ≠ ""), now⟩
    auditAdded adminId recruiter

end RecruiterAdminService

/-! ## The system -/

inductive Op where
  | recruiters (op : Companies.Op)
  | removeRecruiter (callerId recruiterId : Id)
  | createCompany (userId : Id)
  | createRecruiter (adminId : Id) (email : String) (companyId : Id) (position : Option String)
  deriving DecidableEq, Repr

inductive Result where
  | unit
  | recruiters (r : Companies.Result)
  deriving DecidableEq, Repr

def program (env : Environment) (uuid : Id) : Op → M Result
  | .recruiters op => do
    return .recruiters (← inCompanies (Companies.program env uuid op))
  | .removeRecruiter callerId recruiterId => do
    RecruiterService.removeRecruiter callerId recruiterId
    return .unit
  | .createCompany userId => do
    inCompanies (CompanyService.createCompany uuid userId)
    return .unit
  | .createRecruiter adminId email companyId position => do
    inCompanies (RecruiterAdminService.createRecruiter env uuid adminId email companyId position)
    return .unit

def system (env : Environment) : System Db Write Key Error Result Op :=
  ⟨store, program env, isFault⟩

abbrev RunState := State Db Write Error Result Op

abbrev Log := List (Txn.Group Write)

/-- The committed database at a moment of the run. -/
abbrev Db.at (d₀ : Db) (L : Log) : Db := replay store d₀ L

/-- `n` steps of call `i`. -/
def steps (i n : Nat) : List (Label Error Op) := List.replicate n (.step i)

theorem at_snoc {d₀ : Db} (L : Log) (i : Nat) (w : Write) :
    d₀.at (L ++ [⟨i, false, [w]⟩]) = store.apply (d₀.at L) w := replay_snoc ..

/-! ## What the calls publish -/

/-- The account of the user has the role RECRUITER. -/
def IsRecruiter (db : Db) (userId : Id) : Prop :=
  ∀ user, db.base.users.get? userId = some user → .recruiter ∈ user.roles

/-- Call `i` has looked up the company of its caller, and in it the recruiter `r`. -/
def Selected (d₀ : Db) (i : Nat) (L : Log) (callerId : Id) (r : Recruiter) : Prop :=
  ∃ A B own, WrittenAt B A i (.resolved callerId r.companyId) ∧ B <+: L ∧
    (d₀.at A).base.recruiterOf callerId = some own ∧ own.companyId = r.companyId ∧
    (d₀.at B).base.recruiters.get? r.id = some r ∧ r.userId ≠ callerId

def isRemoval : Write → Bool
  | .deleteRecruiter _ => true
  | _ => false

/-- The recruiter that a write inserts is another than `r?`. -/
def beside (r? : Option Recruiter) : Write → Bool
  | .base (.insertRecruiter r) => some r ≠ r?
  | _ => false

/-- Call `i` removes a membership of the user, and has deleted it. -/
def Removes (d₀ : Db) (i : Nat) (op : Op) (L : Log) (userId : Id) : Prop :=
  ∃ callerId r A, op = .removeRecruiter callerId r.id ∧ r.userId = userId ∧
    Selected d₀ i A callerId r ∧ WrittenAt L A i (.deleteRecruiter r.id)

/-- Call `i` creates a company, and has inserted the membership of the user. -/
def Founds (i : Nat) (op : Op) (L : Log) (userId : Id) : Prop :=
  op = .createCompany userId ∧ ∃ A r, WrittenAt L A i (.base (.insertRecruiter r)) ∧
    r.userId = userId

/-- What is known of a write of call `i` at the log `L`. -/
def Guarantee (d₀ : Db) (i : Nat) (op : Op) (L : Log) : Write → Prop
  | .base (.insertRecruiter r) => r.id = i ∧ Unwritten i (beside none) L ∧
    (d₀.at L).base.recruiters.get? r.id = none ∧ (d₀.at L).base.recruiterOf r.userId = none
  | .base (.insertUser u) => .recruiter ∈ u.roles
  | .base (.setRoles userId roles) =>
    .recruiter ∈ roles ∨ Removes d₀ i op L userId ∨ Founds i op L userId
  | .deleteRecruiter id => Unwritten i isRemoval L ∧ ∃ callerId r, id = r.id ∧
    op = .removeRecruiter callerId r.id ∧ Selected d₀ i L callerId r
  | _ => True

/-- Since it counted the seats, call `i` has seen the user of the recruiter with the role, or has
given it the role. -/
def Granted (d₀ : Db) (i : Nat) (L : Log) (r : Recruiter) : Prop :=
  ∃ A seats B, WrittenAt L A i (.base (.countSeats r.companyId seats)) ∧ A <+: B ∧ B <+: L ∧
    IsRecruiter (d₀.at B) r.userId

/-- What a call that has returned knows. -/
def Returns (d₀ : Db) (i : Nat) (op : Op) (L : Log) (_ : Result) : Prop :=
  ∀ op', op = .recruiters op' →
    ∀ A r, WrittenAt L A i (.base (.insertRecruiter r)) → Granted d₀ i L r

abbrev Does {α : Type} (d₀ : Db) (i : Nat) (op : Op) (p : M α) (Q : Log → α → Prop) (L : Log) :
    Prop :=
  p.Promises store d₀ i (Guarantee d₀ i op) (fun e => isFault e = true) Q L

section

variable {env : Environment} {d₀ : Db} {i : Nat} {op : Op} {L A B : Log}

theorem Granted.mono {L' : Log} {r : Recruiter} (h : Granted d₀ i L r) (hl : L <+: L') :
    Granted d₀ i L' r := by
  obtain ⟨A, seats, B, hw, hAB, hB, hrole⟩ := h
  exact ⟨A, seats, B, hw.mono hl, hAB, hB.trans hl, hrole⟩

theorem unwritten_inserted (h : Unwritten i (beside none) L) (r : Recruiter) :
    Unwritten i (Teams.beside (some r)) (L ++ [⟨i, false, [.base (.insertRecruiter r)]⟩]) := by
  intro A w hw
  rcases writtenAt_snoc.1 hw with ⟨-, -, rfl⟩ | hw
  · exact decide_eq_false fun hne => hne rfl
  · have hnone := h A w hw
    cases w with
    | base w =>
      cases w with
      | insertRecruiter r' => simp [Teams.beside] at hnone
      | _ => rfl
    | _ => rfl

/-! ### Pieces -/

/-- The write neither attaches a recruiter nor changes an account's roles. -/
def isQuiet : Companies.Write → Bool
  | .insertRecruiter _ => false
  | .insertUser _ => false
  | .setRoles _ _ => false
  | _ => true

theorem quiet_does {α : Type} {r? : Option Recruiter} {p : Companies.M α} {Q : Log → α → Prop}
    (hp : Writes isQuiet p) (hu : Unwritten i (beside r?) L)
    (hQ : ∀ L' a, L <+: L' → Unwritten i (beside r?) L' → Q L' a) :
    Does d₀ i op (inCompanies p) Q L := by
  have hlift : ∀ ws, Only isQuiet ws → ws.map Write.base = [] ∨
      ∃ w, ws.map Write.base = [w] ∧ ∃ w', w = .base w' ∧ isQuiet w' = true := by
    rintro ws (rfl | ⟨w, rfl, hw⟩)
    · exact .inl rfl
    · exact .inr ⟨_, rfl, w, rfl, hw⟩
  refine Follows.mono (Plain.follows (P := fun L' => L <+: L' ∧ Unwritten i (beside r?) L')
    (hp.zoom hlift hlift) ?_ ?_ (fun _ _ _ _ => trivial) ⟨List.prefix_rfl, hu⟩)
    fun L' a h => hQ L' a h.1 h.2
  · exact fun L₁ L₂ h hr => ⟨h.1.trans hr.onto, h.2.others hr⟩
  · rintro L₁ w h ⟨w, rfl, hw⟩
    have hquiet : Guarantee d₀ i op L₁ (.base w) ∧ beside r? (.base w) = false := by
      cases w with
      | insertRecruiter r => cases hw
      | insertUser u => cases hw
      | setRoles userId roles => cases hw
      | _ => exact ⟨trivial, rfl⟩
    exact ⟨hquiet.1, h.1.trans (List.prefix_append _ _), h.2.snoc hquiet.2⟩

theorem insertRecruiter_does {recruiter : Time → Recruiter} {Q : Log → Recruiter → Prop}
    (hid : ∀ now, (recruiter now).id = i) (hu : Unwritten i (beside none) L)
    (hQ : ∀ L' A now, L <+: A → WrittenAt L' A i (.base (.insertRecruiter (recruiter now))) →
      Unwritten i (beside (some (recruiter now))) L' → Q L' (recruiter now)) :
    Does d₀ i op (inCompanies (insertRecruiter recruiter)) Q L := by
  refine promises_zoom_query fun L₁ ws r hr hf => ?_
  split at hf
  · cases hf
  · next hfresh =>
    split at hf
    · cases hf
    · next hfree =>
      cases hf
      have hu₁ := hu.others hr
      refine .inr ⟨_, rfl, ⟨hid _, hu₁, Option.not_isSome_iff_eq_none.1 hfresh,
        Option.not_isSome_iff_eq_none.1 hfree⟩, ?_⟩
      exact hQ _ _ _ hr.onto (writtenAt_self _ _ _) (unwritten_inserted hu₁ _)

/-- The role of an account that was found with the role, or gets it. -/
theorem grantRecruiter_does {r? : Option Recruiter} {user : User} {Q : Log → Unit → Prop}
    (hA : A <+: B) (hB : B <+: L) (huser : (d₀.at B).base.users.get? user.id = some user)
    (hu : Unwritten i (beside r?) L)
    (hQ : ∀ L' C, L <+: L' → A <+: C → C <+: L' → IsRecruiter (d₀.at C) user.id →
      Unwritten i (beside r?) L' → Q L' ()) :
    Does d₀ i op (inCompanies (grantRecruiter user)) Q L := by
  unfold grantRecruiter
  split
  · next hrole =>
    refine hQ L B List.prefix_rfl hA hB (fun user' huser' => ?_) hu
    rw [huser] at huser'
    cases huser'
    exact hrole
  · refine promises_zoom_bind.2 (promises_zoom_bind.2 (promises_zoom_write fun L₁ hr₁ => ⟨?_, ?_⟩))
    · exact .inl (List.mem_append_right _ (List.mem_singleton_self _))
    · have hu₁ := (hu.others hr₁).snoc (w := .base (.setRoles user.id (user.roles ++ [.recruiter])))
        rfl
      refine promises_zoom_select fun L₂ hr₂ => ?_
      refine hQ L₂ _ ((hr₁.onto.trans (List.prefix_append _ _)).trans hr₂.onto)
        (hA.trans (hB.trans (hr₁.onto.trans (List.prefix_append _ _)))) hr₂.onto ?_ (hu₁.others hr₂)
      intro user' huser'
      rw [at_snoc] at huser'
      have hget : (store.apply (d₀.at L₁)
          (.base (.setRoles user.id (user.roles ++ [.recruiter])))).base.users.get? user.id =
          if user.id = user.id
          then ((d₀.at L₁).base.users.get? user.id).map
            fun u => { u with roles := user.roles ++ [.recruiter] }
          else (d₀.at L₁).base.users.get? user.id :=
        Table.get?_modify (fun u : User => { u with roles := user.roles ++ [.recruiter] })
          fun _ => rfl
      rw [hget, if_pos rfl, Option.map_eq_some_iff] at huser'
      obtain ⟨u, -, rfl⟩ := huser'
      exact List.mem_append_right _ (List.mem_singleton_self _)

theorem auditAdded_quiet (actorId : Id) (recruiter : Recruiter) :
    Writes isQuiet (auditAdded actorId recruiter) := auditAdded_writes _ _ fun _ => rfl

theorem countSeats_does {companyId : Id} {Q : Log → Nat → Prop} (hu : Unwritten i (beside none) L)
    (hQ : ∀ L' A seats, WrittenAt L' A i (.base (.countSeats companyId seats)) →
      Unwritten i (beside none) L' → Q L' seats) :
    Does d₀ i op (inCompanies (countSeats companyId)) Q L := by
  refine promises_zoom_query fun L₁ ws seats hr hf => ?_
  cases hf
  exact .inr ⟨_, rfl, trivial, hQ _ _ _ (writtenAt_self _ _ _) ((hu.others hr).snoc rfl)⟩

/-- The account of an email. -/
theorem get?_of_email {db : Companies.Db} {email : String} {user : User}
    (h : db.users.rows.find? (·.email = email) = some user) : db.users.get? user.id = some user :=
  Table.get?_of_mem (List.mem_of_find?_eq_some h)

theorem id_of_get? {db : Companies.Db} {userId : Id} {user : User}
    (h : db.users.get? userId = some user) : user.id = userId := by
  have hkey := Table.key_of_get? h
  exact hkey

theorem recruiter_id {db : Companies.Db} {id : Id} {r : Recruiter}
    (h : db.recruiters.get? id = some r) : r.id = id := by
  have hkey := Table.key_of_get? h
  exact hkey

/-- Whom the call has inserted, it has granted the role. -/
def Settled (d₀ : Db) (i : Nat) (L : Log) : Prop :=
  ∀ A r, WrittenAt L A i (.base (.insertRecruiter r)) → Granted d₀ i L r

theorem unattached_settled (hu : Unwritten i (beside none) L) : Settled d₀ i L := by
  intro A r hw
  have hnone := hu A _ hw
  simp [beside] at hnone

theorem attached_settled {r : Recruiter} (hu : Unwritten i (beside (some r)) L)
    (hr : Granted d₀ i L r) : Settled d₀ i L := by
  intro A r' hw
  have hsame : some r' = some r := not_not.1 (of_decide_eq_false (hu A _ hw))
  cases hsame
  exact hr

/-! ### The calls -/

theorem addRecruiter_does {callerId : Id} {dto : AddRecruiterDto}
    (hu : Unwritten i (beside none) L) :
    Does d₀ i op (inCompanies (Companies.RecruiterService.addRecruiter env i callerId dto))
      (fun L' _ => Settled d₀ i L') L := by
  unfold Companies.RecruiterService.addRecruiter
  refine promises_zoom_bind.2 (quiet_does (resolveCompanyId_writes _) hu fun L₁ company _ hu => ?_)
  refine promises_zoom_bind.2 (quiet_does (getSeatLimit_writes _) hu fun L₂ limit _ hu => ?_)
  refine promises_zoom_bind.2 (countSeats_does hu fun L₃ C seats hC hu => ?_)
  split
  · trivial
  refine promises_zoom_bind.2 (promises_zoom_select fun L₄ hr₄ => ?_)
  have hu₄ := hu.others hr₄
  cases huser : (d₀.at L₄).base.users.rows.find? (·.email = env.toLowerCase dto.email) with
  | none => trivial
  | some user =>
    dsimp only
    split
    · trivial
    refine promises_zoom_bind.2 (promises_zoom_select fun L₅ hr₅ => ?_)
    cases (d₀.at L₅).base.recruiterOf user.id with
    | some _ => trivial
    | none =>
      refine promises_zoom_bind.2 (insertRecruiter_does (fun _ => rfl) (hu₄.others hr₅) ?_)
      intro L₆ A now hl₆ hA hu₆
      have hL₄ : L₄ <+: L₆ := hr₅.onto.trans (hl₆.trans hA.onto)
      refine promises_zoom_bind.2 (grantRecruiter_does (hC.onto.trans hr₄.onto) hL₄
        (get?_of_email huser) hu₆ fun L₇ D hl₇ hCD hD hrole hu₇ => ?_)
      refine promises_zoom_bind.2 (quiet_does (auditAdded_quiet _ _) hu₇ fun L₈ _ hl₈ hu₈ => ?_)
      refine attached_settled hu₈ ⟨C, seats, D, ?_, hCD, hD.trans hl₈, hrole⟩
      exact hC.mono (hr₄.onto.trans (hL₄.trans (hl₇.trans hl₈)))

theorem attach_does {userId companyId actorId : Id} {position : Option String} {seats : Nat}
    {Q : Log → Unit → Prop} (hA : WrittenAt L A i (.base (.countSeats companyId seats)))
    (hu : Unwritten i (beside none) L)
    (hQ : ∀ L' r, Unwritten i (beside (some r)) L' → Granted d₀ i L' r → Q L' ()) :
    Does d₀ i op (inCompanies
      (RecruiterInvitationService.attach i userId companyId position actorId)) Q L := by
  unfold RecruiterInvitationService.attach
  refine promises_zoom_bind.2 (insertRecruiter_does (fun _ => rfl) hu ?_)
  intro L₁ B now hl₁ hB hu₁
  have hA₁ : WrittenAt L₁ A i (.base (.countSeats companyId seats)) := hA.mono (hl₁.trans hB.onto)
  refine promises_zoom_bind.2 (promises_zoom_select fun L₂ hr₂ => ?_)
  have hu₂ := hu₁.others hr₂
  have hA₂ := hA₁.mono hr₂.onto
  cases huser : (d₀.at L₂).base.users.get? userId with
  | none =>
    have hrole : IsRecruiter (d₀.at L₂) userId := by
      intro user h
      rw [huser] at h
      cases h
    refine quiet_does (auditAdded_quiet _ _) hu₂ fun L₃ _ hl₃ hu₃ => hQ _ _ hu₃ ?_
    exact ⟨A, seats, L₂, hA₂.mono hl₃, hA₂.onto, hl₃, hrole⟩
  | some user =>
    have hid : user.id = userId := id_of_get? huser
    refine promises_zoom_bind.2 (grantRecruiter_does hA₂.onto List.prefix_rfl
      (hid.symm ▸ huser) hu₂ fun L₃ D hl₃ hAD hD hrole hu₃ => ?_)
    refine quiet_does (auditAdded_quiet _ _) hu₃ fun L₄ _ hl₄ hu₄ => hQ _ _ hu₄ ?_
    exact ⟨A, seats, D, hA₂.mono (hl₃.trans hl₄), hAD, hD.trans hl₄, hid ▸ hrole⟩

theorem invite_does {callerId : Id} {dto : AddRecruiterDto} (hu : Unwritten i (beside none) L) :
    Does d₀ i op (inCompanies (RecruiterInvitationService.invite env i callerId dto))
      (fun L' _ => Settled d₀ i L') L := by
  have byMail : ∀ {companyId : Id} {email : String} {L' : Log}, Unwritten i (beside none) L' →
      Does d₀ i op (inCompanies (RecruiterInvitationService.inviteByMail env i callerId companyId
        email dto.position)) (fun L' _ => Settled d₀ i L') L' := fun hu =>
    quiet_does (inviteByMail_writes _ _ _ _ _ rfl (fun _ => rfl) fun _ => rfl) hu
      fun _ _ _ hu => unattached_settled hu
  unfold RecruiterInvitationService.invite
  refine promises_zoom_bind.2 (quiet_does (resolveCompanyId_writes _) hu fun L₁ company _ hu => ?_)
  refine promises_zoom_bind.2 (quiet_does (getSeatLimit_writes _) hu fun L₂ limit _ hu => ?_)
  refine promises_zoom_bind.2 (promises_zoom_bind.2 (countSeats_does hu fun L₃ C seats hC hu => ?_))
  refine promises_zoom_bind.2 (promises_zoom_select fun L₄ hr₄ => ?_)
  have hu₄ := hu.others hr₄
  show Does d₀ i op (inCompanies (ite _ _ _)) _ L₄
  split
  · trivial
  refine promises_zoom_bind.2 (promises_zoom_select fun L₅ hr₅ => ?_)
  have hu₅ := hu₄.others hr₅
  cases (d₀.at L₅).base.users.rows.find? _ with
  | none => exact byMail hu₅
  | some user =>
    refine promises_zoom_bind.2 (promises_zoom_select fun L₆ hr₆ => ?_)
    have hu₆ := hu₅.others hr₆
    cases (d₀.at L₆).base.recruiterOf user.id with
    | some _ => trivial
    | none =>
      dsimp only
      split
      · refine promises_zoom_bind.2 (attach_does (hC.mono ?_) hu₆ fun L₇ r hu₇ hr => ?_)
        · exact hr₄.onto.trans (hr₅.onto.trans hr₆.onto)
        · exact attached_settled hu₇ hr
      · exact byMail hu₆

theorem acceptUser_does {email password : String} {Q : Log → User → Prop}
    (hu : Unwritten i (beside none) L)
    (hQ : ∀ L' user, L <+: L' → Unwritten i (beside none) L' → Q L' user) :
    Does d₀ i op
      (inCompanies (RecruiterInvitationService.acceptUser env i email password)) Q L := by
  unfold RecruiterInvitationService.acceptUser
  refine promises_zoom_bind.2 (promises_zoom_select fun L₁ hr₁ => ?_)
  have hu₁ := hu.others hr₁
  cases (d₀.at L₁).base.users.rows.find? _ with
  | some user =>
    refine promises_zoom_bind.2 (promises_zoom_select fun L₂ hr₂ => ?_)
    have hu₂ := hu₁.others hr₂
    have hl₂ := hr₁.onto.trans hr₂.onto
    cases (d₀.at L₂).base.recruiterOf user.id with
    | some _ => trivial
    | none =>
      dsimp only
      split
      · exact hQ L₂ user hl₂ hu₂
      · refine promises_zoom_bind.2 (promises_zoom_bind.2 (promises_zoom_write fun L₃ hr₃ =>
          ⟨trivial, promises_zoom_select fun L₄ hr₄ => ?_⟩))
        have hu₃ := (hu₂.others hr₃).snoc (w := .base (.verifyUser user.id)) rfl
        have hl₃ := hr₃.onto.trans ((List.prefix_append _ _).trans hr₄.onto)
        exact hQ L₄ user (hl₂.trans hl₃) (hu₃.others hr₄)
  | none =>
    refine promises_zoom_query fun L₂ ws user hr₂ hf => ?_
    split at hf
    · cases hf
    · cases hf
      refine .inr ⟨_, rfl, List.mem_singleton_self _, hQ _ _ ?_ ((hu₁.others hr₂).snoc rfl)⟩
      exact hr₁.onto.trans (hr₂.onto.trans (List.prefix_append _ _))

theorem accept_does {rawToken password : String} (hu : Unwritten i (beside none) L) :
    Does d₀ i op (inCompanies (RecruiterInvitationService.accept env i rawToken password))
      (fun L' _ => Settled d₀ i L') L := by
  unfold RecruiterInvitationService.accept
  refine promises_zoom_bind.2 (quiet_does (findPendingByToken_writes _) hu fun L₁ found _ hu => ?_)
  cases found with
  | none => trivial
  | some invitation =>
    refine promises_zoom_bind.2 (quiet_does (getSeatLimit_writes _) hu fun L₂ limit _ hu => ?_)
    refine promises_zoom_bind.2 (countSeats_does hu fun L₃ C seats hC hu => ?_)
    split
    · trivial
    refine promises_zoom_bind.2 (acceptUser_does hu fun L₄ user hl₄ hu => ?_)
    refine promises_zoom_bind.2 (attach_does (hC.mono hl₄) hu fun L₅ r hu hr => ?_)
    refine promises_zoom_bind.2 (promises_zoom_select fun L₆ hr₆ => ?_)
    refine promises_zoom_bind.2 (quiet_does (save_writes _ fun _ => rfl) (hu.others hr₆)
      fun L₇ _ hl₇ hu => ?_)
    exact attached_settled hu (hr.mono (hr₆.onto.trans hl₇))

theorem recruiters_does (op' : Companies.Op) (hu : Unwritten i (beside none) L) :
    Does d₀ i op (inCompanies (Companies.program env i op')) (fun L' _ => Settled d₀ i L') L := by
  cases op' with
  | clock ms =>
    refine quiet_does ?_ hu fun _ _ _ hu => unattached_settled hu
    exact (writes_write fun _ => rfl).bind fun _ => plain_ret _
  | addRecruiter callerId dto => exact promises_zoom_bind.2 (addRecruiter_does hu)
  | invite callerId dto => exact promises_zoom_bind.2 (invite_does hu)
  | accept rawToken password => exact promises_zoom_bind.2 (accept_does hu)
  | revoke callerId invitationId =>
    refine quiet_does ?_ hu fun _ _ _ hu => unattached_settled hu
    exact (revoke_writes _ _ fun _ _ _ => rfl).bind fun _ => plain_ret _

theorem stripRoles_does {userId : Id} {Q : Log → Unit → Prop}
    (hr : ∀ L', L <+: L' → Removes d₀ i op L' userId) (hQ : ∀ L' a, Q L' a) :
    Does d₀ i op (RecruiterService.stripRoles userId) Q L := by
  unfold RecruiterService.stripRoles
  refine promises_bind.2 (promises_zoom_select fun L₁ hr₁ => ?_)
  cases huser : (d₀.at L₁).base.users.get? userId with
  | none => exact hQ _ _
  | some user =>
    refine promises_bind.2 (promises_zoom_bind.2 (promises_zoom_write fun L₂ hr₂ => ⟨?_, ?_⟩))
    · refine .inr (.inl ?_)
      rw [id_of_get? huser]
      exact hr _ (hr₁.onto.trans hr₂.onto)
    · exact promises_zoom_select fun L₃ _ => hQ _ _

theorem removeRecruiter_does {callerId recruiterId : Id} {Q : Log → Unit → Prop}
    (hu : Unwritten i isRemoval L) (hQ : ∀ L' a, Q L' a) :
    Does d₀ i (.removeRecruiter callerId recruiterId)
      (RecruiterService.removeRecruiter callerId recruiterId) Q L := by
  unfold RecruiterService.removeRecruiter RecruiterService.resolveCompanyId
  refine promises_bind.2 (promises_query fun L₁ ws companyId hr₁ hf => ?_)
  cases hown : (d₀.at L₁).base.recruiterOf callerId with
  | none =>
    rw [hown] at hf
    cases hf
  | some own =>
    rw [hown] at hf
    cases hf
    refine .inr ⟨_, rfl, trivial, ?_⟩
    have hu₁ := (hu.others hr₁).snoc (w := .resolved callerId own.companyId) rfl
    refine promises_bind.2 (promises_select fun L₂ hr₂ => ?_)
    cases hfound : ((d₀.at L₂).base.recruiters.get? recruiterId).filter
        (·.companyId = own.companyId) with
    | none => trivial
    | some r =>
      obtain ⟨hget, hcompany⟩ := Option.filter_eq_some_iff.1 hfound
      have hid := recruiter_id hget
      have hcompany : own.companyId = r.companyId := (of_decide_eq_true hcompany).symm
      subst hid
      dsimp only
      split
      · trivial
      · next hother =>
        have hselected : ∀ L', L₂ <+: L' → Selected d₀ i L' callerId r := by
          intro L' hl
          refine ⟨L₁, L₂, own, ?_, hl, hown, hcompany, hget, hother⟩
          rw [← hcompany]
          exact hr₂.onto
        refine promises_bind.2 (promises_write fun L₃ hr₃ => ⟨?_, ?_⟩)
        · exact ⟨(hu₁.others hr₂).others hr₃, callerId, r, rfl, rfl, hselected L₃ hr₃.onto⟩
        · refine promises_bind.2 (stripRoles_does (fun L' hl => ?_) fun L' _ => ?_)
          · exact ⟨callerId, r, L₃, rfl, rfl, hselected L₃ hr₃.onto, hl⟩
          · exact promises_write fun L₄ _ => ⟨trivial, hQ _ _⟩

theorem createCompany_does {userId : Id} {Q : Log → Unit → Prop}
    (hu : Unwritten i (beside none) L) (hQ : ∀ L' a, Q L' a) :
    Does d₀ i (.createCompany userId)
      (inCompanies (CompanyService.createCompany i userId)) Q L := by
  unfold CompanyService.createCompany
  refine promises_zoom_bind.2 (promises_zoom_select fun L₁ hr₁ => ?_)
  have hu₁ := hu.others hr₁
  cases huser : (d₀.at L₁).base.users.get? userId with
  | none => trivial
  | some user =>
    dsimp only
    split
    · trivial
    refine promises_zoom_bind.2 (promises_zoom_select fun L₂ hr₂ => ?_)
    cases (d₀.at L₂).base.recruiterOf userId with
    | some _ => trivial
    | none =>
      refine promises_zoom_bind.2 (insertRecruiter_does (fun _ => rfl) (hu₁.others hr₂) ?_)
      intro L₃ A now _ hA _
      unfold CompanyService.grantCompanyAdmin
      split
      · exact hQ _ _
      · refine promises_zoom_bind.2 (promises_zoom_bind.2 (promises_zoom_write fun L₄ hr₄ =>
          ⟨?_, promises_zoom_select fun L₅ _ => hQ _ _⟩))
        refine .inr (.inr ⟨?_, A, _, hA.mono hr₄.onto, ?_⟩)
        · rw [id_of_get? huser]
        · exact (id_of_get? huser).symm

theorem createRecruiter_does {adminId companyId : Id} {email : String} {position : Option String}
    {Q : Log → Unit → Prop} (hu : Unwritten i (beside none) L) (hQ : ∀ L' a, Q L' a) :
    Does d₀ i op (inCompanies
      (RecruiterAdminService.createRecruiter env i adminId email companyId position)) Q L := by
  unfold RecruiterAdminService.createRecruiter
  refine promises_zoom_bind.2 (promises_zoom_select fun L₁ hr₁ => ?_)
  have hu₁ := hu.others hr₁
  cases (d₀.at L₁).base.users.rows.find? _ with
  | some _ => trivial
  | none =>
    refine promises_zoom_bind.2 (promises_zoom_query fun L₂ ws user hr₂ hf => ?_)
    split at hf
    · cases hf
    · cases hf
      refine .inr ⟨_, rfl, List.mem_singleton_self _, ?_⟩
      refine promises_zoom_bind.2 (insertRecruiter_does (fun _ => rfl) ((hu₁.others hr₂).snoc rfl)
        fun L₃ _ now _ _ hu₃ => ?_)
      exact quiet_does (auditAdded_quiet _ _) hu₃ fun _ _ _ _ => hQ _ _

theorem followed (env : Environment) (d₀ : Db) {ok : RunState → Label Error Op → Prop} :
    Followed (system env) ok d₀ (Guarantee d₀) (Returns d₀) fun _ _ _ => True where
  prog := by
    intro i op L hsilent
    have hu : Unwritten i (beside none) L := Unwritten.start hsilent
    cases op with
    | recruiters op' =>
      refine promises_bind.2 (Promises.mono (recruiters_does op' hu) fun L' r h => ?_)
      exact fun _ _ => h
    | removeRecruiter callerId recruiterId =>
      refine promises_bind.2 (removeRecruiter_does (Unwritten.start hsilent) fun L' _ => ?_)
      rintro _ ⟨⟩
    | createCompany userId =>
      refine promises_bind.2 (createCompany_does hu fun L' _ => ?_)
      rintro _ ⟨⟩
    | createRecruiter adminId email companyId position =>
      refine promises_bind.2 (createRecruiter_does hu fun L' _ => ?_)
      rintro _ ⟨⟩
  mono := by
    intro i op L g a hg h op' hop A r hw
    exact (h op' hop A r (writtenAt_others hg hw)).mono (List.prefix_append _ _)
  others _ _ := trivial
  fault _ _ _ _ := trivial

end

end JobBoard.Companies.Teams
