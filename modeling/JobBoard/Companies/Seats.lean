import JobBoard.Companies.Conduct

/-!
# The seats of a company

A call counts the recruiters of a company, compares the count with the seat limit and inserts a
recruiter later. The company stays within its limit exactly when each insert comes while fewer
recruiters were added since the count of its call than the seats that the call has found free.
-/

set_option autoImplicit false

namespace JobBoard.Companies

open Txn Prog
open SubscriptionGuardService (seatLimit)

section

variable {env : Environment} {d₀ : Db} {i : Nat} {L : Log}

/-! ## Counts -/

/-- Subscriptions do not change. -/
theorem seatLimit_at (companyId : Id) :
    seatLimit env (d₀.at L) companyId = seatLimit env d₀ companyId := by
  have hsame : (d₀.at L).subscriptions = d₀.subscriptions := by
    refine replay_keeps (P := fun db : Db => db.subscriptions = d₀.subscriptions) ?_
      List.nil_prefix rfl
    intro db w h
    cases w <;> exact h
  rw [seatLimit, hsame, seatLimit]

theorem at_snoc (L : Log) (i : Nat) (w : Write) :
    d₀.at (L ++ [⟨i, false, [w]⟩]) = store.apply (d₀.at L) w := replay_snoc ..

/-- The write adds a recruiter to the company. -/
def addsTo (companyId : Id) : Write → Bool
  | .insertRecruiter r => r.companyId = companyId
  | _ => false

/-- The recruiters that a log adds to the company. -/
def added (companyId : Id) (L : Log) : Nat := (L.flatMap (·.writes)).countP (addsTo companyId)

theorem added_append (companyId : Id) (L L' : Log) :
    added companyId (L ++ L') = added companyId L + added companyId L' := by
  rw [added, List.flatMap_append, List.countP_append, added, added]

/-! ## What the calls publish -/

/-- Call `i` has counted the seats of the company, and found one free. -/
structure Counted (env : Environment) (d₀ : Db) (i : Nat) (L : Log) (companyId : Id) : Prop where
  count : ∃ C seats limit, WrittenAt L C i (.countSeats companyId seats) ∧
    seatLimit env d₀ companyId = .ok limit ∧ (seats : Int) < limit

theorem Counted.mono {L' : Log} {companyId : Id} (h : Counted env d₀ i L companyId)
    (hl : L <+: L') : Counted env d₀ i L' companyId := by
  obtain ⟨C, seats, limit, hw, hlimit⟩ := h.count
  exact ⟨C, seats, limit, hw.mono hl, hlimit⟩

/-- What is known of a write of call `i` at the log `L`. -/
def SeatGuarantee (env : Environment) (d₀ : Db) (i : Nat) (L : Log) : Write → Prop
  | .countSeats companyId seats => seats = (d₀.at L).seats companyId
  | .insertRecruiter r => (d₀.at L).recruiters.get? r.id = none ∧ Counted env d₀ i L r.companyId
  | _ => True

abbrev Keeps {α : Type} (env : Environment) (d₀ : Db) (i : Nat) (p : M α) (Q : Log → α → Prop)
    (L : Log) : Prop :=
  p.Promises store d₀ i (SeatGuarantee env d₀ i) (fun e => isFault e = true) Q L

/-- The write neither counts seats nor takes one. -/
def isQuiet : Write → Bool
  | .insertRecruiter _ => false
  | .countSeats _ _ => false
  | _ => true

def QuietWrites (ws : List Write) : Prop := ws = [] ∨ ∃ w, ws = [w] ∧ isQuiet w = true

abbrev Quiet {α : Type} (p : M α) : Prop := p.Plain QuietWrites QuietWrites fun _ => True

theorem Quiet.keeps {α : Type} {p : M α} {Q : Log → α → Prop} (hp : Quiet p)
    (hQ : ∀ L' a, L <+: L' → Q L' a) : Keeps env d₀ i p Q L := by
  have hquiet : ∀ ws, QuietWrites ws → ws = [] ∨ ∃ w, ws = [w] ∧
      ∀ L, SeatGuarantee env d₀ i L w := by
    rintro ws (rfl | ⟨w, rfl, hw⟩)
    · exact .inl rfl
    · refine .inr ⟨w, rfl, fun L => ?_⟩
      cases w <;> trivial
  exact (Plain.promises (Plain.mono hp hquiet hquiet fun _ _ => trivial)).mono hQ

theorem getSeatLimit_keeps {companyId : Id} {Q : Log → Int → Prop}
    (h : ∀ L' limit, L <+: L' → seatLimit env d₀ companyId = .ok limit → Q L' limit) :
    Keeps env d₀ i (SubscriptionGuardService.getSeatLimit env companyId) Q L := by
  refine promises_query fun L₁ ws limit hr hf => .inl ?_
  rw [seatLimit_at] at hf
  cases hlimit : seatLimit env d₀ companyId with
  | error e =>
    rw [hlimit] at hf
    cases hf
  | ok l =>
    rw [hlimit] at hf
    cases hf
    exact ⟨rfl, h L₁ _ hr.onto hlimit⟩

theorem countSeats_keeps {companyId : Id} {Q : Log → Nat → Prop}
    (h : ∀ L' seats, L <+: L' → (∃ C, WrittenAt L' C i (.countSeats companyId seats)) →
      Q L' seats) :
    Keeps env d₀ i (countSeats companyId) Q L := by
  refine promises_query fun L₁ ws seats hr hf => ?_
  cases hf
  refine .inr ⟨_, rfl, rfl, h _ _ (hr.onto.trans (List.prefix_append _ _)) ⟨L₁, ?_⟩⟩
  exact writtenAt_self _ _ _

theorem insertRecruiter_keeps {recruiter : Time → Recruiter} {Q : Log → Recruiter → Prop}
    (h : ∀ L' now, L <+: L' → Counted env d₀ i L' (recruiter now).companyId)
    (hQ : ∀ L' r, Q L' r) : Keeps env d₀ i (insertRecruiter recruiter) Q L := by
  refine promises_query fun L₁ ws r hr hf => ?_
  split at hf
  · cases hf
  · next hfresh =>
    split at hf
    · cases hf
    · cases hf
      exact .inr ⟨_, rfl, ⟨Option.not_isSome_iff_eq_none.1 hfresh, h L₁ _ hr.onto⟩, hQ _ _⟩

theorem attach_keeps {uuid userId companyId actorId : Id} {position : Option String}
    {Q : Log → Unit → Prop} (h : Counted env d₀ i L companyId) (hQ : ∀ L' a, Q L' a) :
    Keeps env d₀ i
      (RecruiterInvitationService.attach uuid userId companyId position actorId) Q L := by
  refine promises_bind.2 (insertRecruiter_keeps (fun L' _ hl => h.mono hl) fun L₁ r => ?_)
  refine promises_bind.2 (Quiet.keeps (findById_writes _) fun L₂ user? _ => ?_)
  cases user? with
  | none => exact Quiet.keeps (auditAdded_writes _ _ fun _ => rfl) fun _ _ _ => hQ _ _
  | some user =>
    refine promises_bind.2 (Quiet.keeps (grantRecruiter_writes _ fun _ => rfl) fun L₃ _ _ => ?_)
    exact Quiet.keeps (auditAdded_writes _ _ fun _ => rfl) fun _ _ _ => hQ _ _

theorem addRecruiter_keeps {uuid callerId : Id} {dto : AddRecruiterDto}
    {Q : Log → Recruiter → Prop} (hQ : ∀ L' r, Q L' r) :
    Keeps env d₀ i (RecruiterService.addRecruiter env uuid callerId dto) Q L := by
  unfold RecruiterService.addRecruiter
  refine promises_bind.2 (Quiet.keeps (resolveCompanyId_writes _) fun L₁ companyId _ => ?_)
  refine promises_bind.2 (getSeatLimit_keeps fun L₂ limit _ hlimit => ?_)
  refine promises_bind.2 (countSeats_keeps fun L₃ seats _ hcount => ?_)
  split
  · trivial
  · next hfree =>
    have hcounted : Counted env d₀ i L₃ companyId := by
      obtain ⟨C, hC⟩ := hcount
      exact ⟨C, seats, limit, hC, hlimit, by omega⟩
    refine promises_bind.2 (Quiet.keeps (findByEmail_writes _) fun L₄ user? hl₄ => ?_)
    cases user? with
    | none => trivial
    | some user =>
      dsimp only
      split
      · trivial
      · refine promises_bind.2 (promises_select fun L₅ hr₅ => ?_)
        cases (d₀.at L₅).recruiterOf user.id with
        | some _ => trivial
        | none =>
          refine promises_bind.2 (insertRecruiter_keeps (fun L₆ _ hl₆ => ?_) fun L₆ r => ?_)
          · exact hcounted.mono ((hl₄.trans hr₅.onto).trans hl₆)
          · have hgrant : Quiet (grantRecruiter user) := grantRecruiter_writes user fun _ => rfl
            refine promises_bind.2 (Quiet.keeps hgrant fun L₇ _ _ => ?_)
            refine promises_bind.2 (Quiet.keeps (auditAdded_writes _ _ fun _ => rfl) ?_)
            exact fun L₈ _ _ => hQ _ _

theorem inviteByMail_keeps {uuid callerId companyId : Id} {email : String}
    {position : Option String} {Q : Log → InviteStatus → Prop} (hQ : ∀ L' a, L <+: L' → Q L' a) :
    Keeps env d₀ i
      (RecruiterInvitationService.inviteByMail env uuid callerId companyId email position) Q L :=
  Quiet.keeps (inviteByMail_writes _ _ _ _ _ rfl (fun _ => rfl) fun _ => rfl) hQ

theorem invite_keeps {uuid callerId : Id} {dto : AddRecruiterDto}
    {Q : Log → InviteStatus → Prop} (hQ : ∀ L' a, Q L' a) :
    Keeps env d₀ i (RecruiterInvitationService.invite env uuid callerId dto) Q L := by
  unfold RecruiterInvitationService.invite
  refine promises_bind.2 (Quiet.keeps (resolveCompanyId_writes _) fun L₁ companyId _ => ?_)
  refine promises_bind.2 (getSeatLimit_keeps fun L₂ limit _ hlimit => ?_)
  refine promises_bind.2 (promises_bind.2 (countSeats_keeps fun L₃ seats _ hcount => ?_))
  refine promises_bind.2 (promises_select fun L₄ hr₄ => ?_)
  show Keeps env d₀ i (ite _ _ _) Q L₄
  split
  · trivial
  · next hfree =>
    -- the pending invitations count besides
    have hcounted : Counted env d₀ i L₄ companyId := by
      obtain ⟨C, hC⟩ := hcount
      exact ⟨C, seats, limit, hC.mono hr₄.onto, hlimit, by omega⟩
    refine promises_bind.2 (Quiet.keeps (findByEmail_writes _) fun L₅ user? hl₅ => ?_)
    cases user? with
    | none => exact inviteByMail_keeps fun _ _ _ => hQ _ _
    | some user =>
      refine promises_bind.2 (promises_select fun L₆ hr₆ => ?_)
      cases (d₀.at L₆).recruiterOf user.id with
      | some _ => trivial
      | none =>
        dsimp only
        split
        · have hcounted₆ := hcounted.mono (hl₅.trans hr₆.onto)
          exact promises_bind.2 (attach_keeps hcounted₆ fun _ _ => hQ _ _)
        · exact inviteByMail_keeps fun _ _ _ => hQ _ _

theorem accept_keeps {uuid : Id} {rawToken password : String} {Q : Log → String → Prop}
    (hQ : ∀ L' a, Q L' a) :
    Keeps env d₀ i (RecruiterInvitationService.accept env uuid rawToken password) Q L := by
  unfold RecruiterInvitationService.accept
  refine promises_bind.2 (Quiet.keeps (findPendingByToken_writes _) fun L₁ invitation? _ => ?_)
  cases invitation? with
  | none => trivial
  | some invitation =>
    refine promises_bind.2 (getSeatLimit_keeps fun L₂ limit _ hlimit => ?_)
    refine promises_bind.2 (countSeats_keeps fun L₃ seats _ hcount => ?_)
    split
    · trivial
    · next hfree =>
      have hcounted : Counted env d₀ i L₃ invitation.companyId := by
        obtain ⟨C, hC⟩ := hcount
        exact ⟨C, seats, limit, hC, hlimit, by omega⟩
      refine promises_bind.2 (Quiet.keeps
        (acceptUser_writes _ _ _ (fun _ => rfl) fun _ => rfl) fun L₄ user hl₄ => ?_)
      refine promises_bind.2 (attach_keeps (hcounted.mono hl₄) fun L₅ _ => ?_)
      refine promises_bind.2 (promises_select fun L₆ _ => ?_)
      exact promises_bind.2 (Quiet.keeps (save_writes _ fun _ => rfl) fun L₇ _ _ => hQ _ _)

theorem seats_traced (env : Environment) (d₀ : Db) :
    Traced (system env) d₀ (fun i _ => SeatGuarantee env d₀ i) (fun _ _ _ _ => True) where
  mono _ _ := trivial
  prog i op L := by
    cases op with
    | clock ms => exact promises_bind.2 (promises_write fun _ _ => ⟨trivial, trivial⟩)
    | addRecruiter callerId dto =>
      exact promises_bind.2 (addRecruiter_keeps fun _ _ => trivial)
    | invite callerId dto => exact promises_bind.2 (invite_keeps fun _ _ => trivial)
    | accept rawToken password => exact promises_bind.2 (accept_keeps fun _ _ => trivial)
    | revoke callerId invitationId =>
      exact promises_bind.2 (Quiet.keeps (revoke_writes _ _ fun _ _ _ => rfl) fun _ _ _ => trivial)

/-! ## The count of a run -/

variable {s : RunState}

theorem seats_apply {db : Db} {w : Write} (companyId : Id)
    (h : ∀ r, w = .insertRecruiter r → db.recruiters.get? r.id = none) :
    (store.apply db w).seats companyId =
      db.seats companyId + (if addsTo companyId w then 1 else 0) := by
  cases w with
  | insertRecruiter r =>
    have hrows : (db.recruiters.insert r).rows = db.recruiters.rows ++ [r] :=
      Table.insert_rows (h r rfl)
    show (db.recruiters.insert r).rows.countP _ = _
    rw [hrows, List.countP_append, List.countP_singleton]
    rfl
  | _ => rfl

/-- The recruiters of a company are those of the start and those that were added. -/
theorem seats_at (h : (system env).Reachable d₀ s) (companyId : Id) : ∀ L, L <+: s.log →
    (d₀.at L).seats companyId = d₀.seats companyId + added companyId L := by
  refine along_log rfl ?_
  intro L g hl ih
  obtain ⟨op, w, t, hg, -, ht⟩ := (seats_traced env d₀).published h.within hl
  rw [hg, at_snoc, added_append, seats_apply, ih, Nat.add_assoc]
  · congr 2
    simp only [added, List.flatMap_cons, List.flatMap_nil, List.append_nil,
      List.countP_singleton]
  · rintro r rfl
    exact ht.promised.1

/-! ## The limit -/

/-- No recruiter is committed beyond the limit. -/
def SeatsCapped (env : Environment) (d₀ : Db) (s : RunState) : Prop :=
  ∀ (A : Log) (i : Nat) (r : Recruiter), WrittenAt s.log A i (.insertRecruiter r) →
    ∃ limit, seatLimit env (d₀.at (A ++ [⟨i, false, [.insertRecruiter r]⟩])) r.companyId =
        .ok limit ∧
      ((d₀.at (A ++ [⟨i, false, [.insertRecruiter r]⟩])).seats r.companyId : Int) ≤ limit

/-- At the moment `A` fewer recruiters were added to the company since the count of call `i` than
the seats that it has found free. -/
def SeatsLeft (env : Environment) (d₀ : Db) (A : Log) (i : Nat) (companyId : Id) : Prop :=
  ∃ C seats limit, WrittenAt A C i (.countSeats companyId seats) ∧
    seatLimit env d₀ companyId = .ok limit ∧
    (added companyId (A.drop C.length) : Int) < limit - seats

theorem seats_since (h : (system env).Reachable d₀ s) {A C : Log} {companyId : Id} {seats : Nat}
    (hA : A <+: s.log) (hC : WrittenAt A C i (.countSeats companyId seats)) :
    (d₀.at A).seats companyId = seats + added companyId (A.drop C.length) := by
  obtain ⟨op, w, t, hg, -, ht⟩ := (seats_traced env d₀).published h.within (hC.mono hA)
  cases hg
  have hseats : seats = (d₀.at C).seats companyId := ht.promised
  obtain ⟨B, rfl⟩ := hC.onto
  rw [List.drop_left, hseats, seats_at h companyId _ hA,
    seats_at h companyId C ((List.prefix_append _ _).trans hA), added_append, Nat.add_assoc]

end

/-! ## Two recruiters for one seat -/

/-- The limits of business.config.ts, with readable stand-ins for the hashes. -/
def plainEnvironment : Environment where
  users
    | .starter => some 1
    | .growth => some 3
    | .scale => some 10
    | .enterprise => none
  randomBytes := toString
  sha256 := id
  argon2Hash _ password := password
  toLowerCase := id

/-- Company 3 has a plan of three seats and the recruiters 7 and 8. -/
def growingCompany : Db :=
  { Db.empty with
    users := ⟨[⟨⟨10, true, []⟩, "a@x.ma", "", .active⟩, ⟨⟨11, true, []⟩, "b@x.ma", "", .active⟩],
      by decide⟩
    recruiters := ⟨[⟨⟨107, 7, 3⟩, none, 0⟩, ⟨⟨108, 8, 3⟩, none, 0⟩], by decide⟩
    subscriptions := ⟨[⟨1, 3, .growth, .active, none, 0, none, 60, 0, none, false, 0⟩],
      by decide⟩ }

end JobBoard.Companies
