import JobBoard.Lib.Removal
import JobBoard.Growth.Views

/-!
# The purge of cooldowns is inert

A sweep deletes the cooldown of a pair only when the pair could be claimed anyway, so that no
claim can tell whether there was a sweep. `Conduct` gives what each statement is at the moment
it runs, and with it that the claims of a pair are spaced; `Removable` gives the run without
the sweeps.
-/

set_option autoImplicit false

namespace JobBoard.Growth

open Txn Prog
open Cvtheque (Micros toDate ofDate)

abbrev Log := List (Txn.Group Write)

/-- The committed database at a moment of the run. -/
abbrev Db.at (d₀ : Db) (L : Log) : Db := replay store d₀ L

/-- Claims of one pair are more than the window apart. -/
def Spaced (window : Int) (cs : List Claim) : Prop :=
  cs.Pairwise fun c c' => c.pair = c'.pair → c.time + window < c'.time

/-- The database still has the claim, or its window has passed. -/
def Remembered (window : Int) (db : Db) (c : Claim) : Prop :=
  (∃ row, db.cooldowns.get? c.pair = some row ∧ c.time ≤ row.lastNotifiedAt) ∨
    c.time + window < db.clock

theorem claims_snoc (L : Log) (i : Nat) (w : Write) :
    claims (L ++ [⟨i, false, [w]⟩]) = claims L ++ (Claim.of i w).toList := by
  rw [claims, claims, List.flatMap_append, List.flatMap_singleton]
  cases h : Claim.of i w <;> simp [h]

theorem claims_cons (g : Txn.Group Write) (L : Log) :
    claims (g :: L) = g.writes.filterMap (Claim.of g.call) ++ claims L := List.flatMap_cons

theorem Write.clock_le (db : Db) (w : Write) : db.clock ≤ (store.apply db w).clock := by
  cases w with
  | tick us =>
    show db.clock ≤ db.clock + (us : Int)
    exact Int.le_add_of_nonneg_right (Int.natCast_nonneg us)
  | _ => exact Int.le_refl _

theorem cutoff_le (clock days : Int) :
    ofDate (toDate clock - days * 24 * 60 * 60 * 1000) ≤ clock - days * microsPerDay := by
  have h : (clock / 1000 - days * 24 * 60 * 60 * 1000) * 1000 ≤
      clock - days * (24 * 3600000000) := by
    omega
  exact h

/-! ## What the calls publish -/

section

variable (config : Config)

/-- What is known of a statement of `op` on the database `db`. -/
def Guarantee (op : Op) (db : Db) : Write → Prop
  | .claimCooldown recruiterId candidateProfileId now =>
    op.isSweep = false ∧ now = db.clock ∧
      ProfileViewService.claimable config db (recruiterId, candidateProfileId) = true
  | .purgeCooldowns cutoff => ofDate cutoff ≤ db.clock - config.cooldownRetention
  | .tick _ => op.isSweep = false
  | _ => True

def conduct (d₀ : Db) : Conduct Write Error Result Op where
  rely _ _ L L' := (d₀.at L).clock ≤ (d₀.at L').clock
  inv L := Spaced config.window (claims L) ∧
    ∀ c ∈ claims L, Remembered config.window (d₀.at L) c
  guar _ op L ws := ∃ w, ws = [w] ∧ Guarantee config op (d₀.at L) w
  fails _ _ _ := True
  post _ _ _ _ := True
  err _ _ _ _ := True

end

section

variable {config : Config} {d₀ : Db} {i : Nat} {op : Op}

/-- The program of call `i` keeps to the conduct from the log `L`, with `Q` at its end. -/
abbrev Keeps {α : Type} (config : Config) (d₀ : Db) (i : Nat) (op : Op) (p : M α)
    (Q : Log → α → Prop) (L : Log) : Prop :=
  p.along store d₀ i (fun L L' => (d₀.at L).clock ≤ (d₀.at L').clock) (conduct config d₀).inv
    (fun L ws => ∃ w, ws = [w] ∧ Guarantee config op (d₀.at L) w) (fun _ => True)
    (fun e => isFault e = true) (fun _ _ => True) Q L

theorem keeps_select {α : Type} {f : Db → α} {Q : Log → α → Prop} {L : Log}
    (h : ∀ L', (d₀.at L).clock ≤ (d₀.at L').clock → Q L' (f (d₀.at L'))) :
    Keeps config d₀ i op (select f) Q L :=
  along_select (fun _ _ _ _ _ _ => trivial) fun L' hr _ => h L' hr

theorem keeps_write {f : Db → Write} {Q : Log → Unit → Prop} {L : Log}
    (h : ∀ L', (d₀.at L).clock ≤ (d₀.at L').clock → Guarantee config op (d₀.at L') (f (d₀.at L')))
    (hQ : ∀ L', Q L' ()) : Keeps config d₀ i op (write fun db => [f db]) Q L :=
  along_write (fun _ _ _ _ _ _ => trivial) fun L' hr _ => ⟨⟨_, rfl, h L' hr⟩, hQ _⟩

theorem delete_keeps {w : Write} {affected : Db → Nat} {Q : Log → Nat → Prop} {L : Log}
    (h : ∀ L', (d₀.at L).clock ≤ (d₀.at L').clock → Guarantee config op (d₀.at L') w)
    (hQ : ∀ L' n, Q L' n) : Keeps config d₀ i op (DataRetentionService.delete w affected) Q L := by
  refine along_query (fun _ _ _ _ _ _ => trivial) (fun _ _ _ _ _ => trivial) ?_
  intro L' ws a hr _ hf
  cases hf
  exact ⟨⟨w, rfl, h L' hr⟩, hQ _ _⟩

theorem purge_keeps {failures : List Purge} {label : Purge} {run : M Nat} {Q : Log → Nat → Prop}
    {L : Log} (hQ : ∀ L' n, Q L' n) (h : Keeps config d₀ i op run Q L) :
    Keeps config d₀ i op (DataRetentionService.purge failures label run) Q L := by
  unfold DataRetentionService.purge DataRetentionService.attempt
  have hattempt : Keeps config d₀ i op
      (if label ∈ failures then Prog.throw .unavailable else run) Q L := by
    split
    · trivial
    · exact h
  have hcaught : ∀ L', Keeps config d₀ i op (ret 0) Q L' := fun L' => hQ L' 0
  exact along_caught (fun L' _ _ => hcaught L') (fun _ _ _ _ _ => trivial) hattempt

theorem claimNotification_keeps (recruiterUserId candidateProfileId : Id)
    (hop : op.isSweep = false) {Q : Log → Bool → Prop} {L : Log} (hQ : ∀ L' b, Q L' b) :
    Keeps config d₀ i op
      (ProfileViewService.claimNotification config recruiterUserId candidateProfileId) Q L := by
  refine along_query (fun _ _ _ _ _ _ => trivial) (fun _ _ _ _ _ => trivial) ?_
  intro L' ws a hr _ hf
  split at hf
  · next hclaim =>
    cases hf
    exact ⟨⟨_, rfl, hop, rfl, hclaim⟩, hQ _ _⟩
  · cases hf
    exact hQ _ _

theorem recordView_keeps (recruiterUserId companyId candidateProfileId : Id)
    (hop : op.isSweep = false) (L : Log) :
    Keeps config d₀ i op
      (ProfileViewService.recordView config recruiterUserId companyId candidateProfileId)
      (fun _ _ => True) L := by
  unfold ProfileViewService.recordView
  rw [Keeps, along_bind]
  refine keeps_write (fun _ _ => trivial) fun L₁ => ?_
  rw [along_bind]
  refine claimNotification_keeps recruiterUserId candidateProfileId hop fun L₂ claimed => ?_
  split
  · trivial
  · rw [along_bind]
    refine keeps_select fun L₃ _ => ?_
    split
    · trivial
    · rw [along_bind]
      refine keeps_select fun L₄ _ => ?_
      split
      · trivial
      · exact keeps_write (fun _ _ => trivial) fun _ => trivial

theorem purgeNow_keeps {failures : List Purge} {label : Purge} {w : Write} {affected : Db → Nat}
    (h : ∀ db, Guarantee config op db w) {Q : Log → Nat → Prop} {L : Log}
    (hQ : ∀ L' n, Q L' n) :
    Keeps config d₀ i op (DataRetentionService.purge failures label
      (DataRetentionService.delete w affected)) Q L :=
  purge_keeps hQ (delete_keeps (fun _ _ => h _) hQ)

/-- A purge whose cutoff is read when it starts: the clock goes on until it deletes. -/
theorem purgeBefore_keeps {failures : List Purge} {label : Purge} {days : Int} {w : Time → Write}
    {affected : Time → Db → Nat}
    (h : ∀ db cutoff, ofDate cutoff ≤ db.clock - days * microsPerDay →
      Guarantee config op db (w cutoff))
    {Q : Log → Nat → Prop} {L : Log} (hQ : ∀ L' n, Q L' n) :
    Keeps config d₀ i op (DataRetentionService.purge failures label
      (DataRetentionService.cutoffFor days >>= fun cutoff =>
        DataRetentionService.delete (w cutoff) (affected cutoff))) Q L := by
  refine purge_keeps hQ ?_
  rw [Keeps, along_bind]
  refine keeps_select fun L₁ _ => delete_keeps (fun L₂ hr => h _ _ ?_) hQ
  have hcutoff := cutoff_le (d₀.at L₁).clock days
  have hle : (d₀.at L₁).clock - days * microsPerDay ≤ (d₀.at L₂).clock - days * microsPerDay :=
    Int.sub_le_sub_right hr _
  exact Int.le_trans hcutoff hle

theorem sweep_keeps (failures : List Purge) (L : Log) :
    Keeps config d₀ i op (DataRetentionService.sweep failures config) (fun _ _ => True) L := by
  unfold DataRetentionService.sweep
  rw [Keeps, along_bind]
  refine keeps_select fun L₁ _ => ?_
  rw [along_bind]
  refine keeps_select fun L₂ _ => ?_
  rw [along_bind]
  refine purgeNow_keeps ?_ fun L₃ _ => ?_
  · exact fun _ => trivial
  rw [along_bind]
  refine purgeBefore_keeps ?_ fun L₄ _ => ?_
  · exact fun _ _ _ => trivial
  rw [along_bind]
  refine purgeBefore_keeps ?_ fun L₅ _ => ?_
  · exact fun _ _ h => h
  rw [along_bind]
  refine purgeBefore_keeps ?_ fun L₆ _ => trivial
  exact fun _ _ _ => trivial

/-! ## The claims of a pair -/

theorem claimable_of_remembered {db : Db} {c : Claim} (hc : Remembered config.window db c)
    (h : ProfileViewService.claimable config db c.pair = true) :
    c.time + config.window < db.clock := by
  rcases hc with ⟨row, hrow, hle⟩ | hlt
  · simp only [ProfileViewService.claimable, hrow, decide_eq_true_eq] at h
    have : ∀ {t l w k : Int}, t ≤ l → l < k - w → t + w < k := by omega
    exact this hle h
  · exact hlt

/-- A statement other than a claim keeps in mind what is remembered. -/
theorem Remembered.apply {op : Op} {db : Db} {w : Write} {c : Claim}
    (hretention : config.window ≤ config.cooldownRetention)
    (hw : Guarantee config op db w) (hnone : Claim.of i w = none)
    (hc : Remembered config.window db c) :
    Remembered config.window (store.apply db w) c := by
  rcases hc with ⟨row, hrow, hle⟩ | hlt
  · cases w with
    | claimCooldown r p now => cases hnone
    | purgeCooldowns cutoff =>
      cases hdead : row.isBefore cutoff with
      | true =>
        right
        have hrow' : row.lastNotifiedAt < ofDate cutoff := of_decide_eq_true hdead
        have : ∀ {t l o k w r : Int}, t ≤ l → l < o → o ≤ k - r → w ≤ r → t + w < k := by omega
        exact this hle hrow' hw hretention
      | false =>
        left
        refine ⟨row, ?_, hle⟩
        show (db.cooldowns.deleteWhere _).get? c.pair = some row
        rw [Table.get?_deleteWhere, hrow, Option.filter_some, hdead]
        rfl
    | _ => exact .inl ⟨row, hrow, hle⟩
  · exact .inr (Int.lt_of_lt_of_le hlt (Write.clock_le db w))

/-- After a claim the row of the pair has its time. -/
theorem cooldowns_claim (db : Db) (r p : Id) (now : Micros) (pair : Id × Id) :
    (store.apply db (.claimCooldown r p now)).cooldowns.get? pair =
      if pair = (r, p) then some ⟨r, p, now⟩ else db.cooldowns.get? pair := by
  split
  · next hpair =>
    subst hpair
    have hself : (store.apply db (.claimCooldown r p now)).cooldowns.get? (r, p) =
        some (((db.cooldowns.get? (r, p)).map fun c => { c with lastNotifiedAt := now }).getD
          ⟨r, p, now⟩) := Table.get?_upsert_self _ _
    rw [hself]
    cases hrow : db.cooldowns.get? (r, p) with
    | none => rfl
    | some row =>
      have hpair : row.pair = (r, p) := Table.key_of_get? hrow
      obtain ⟨rfl, rfl⟩ := Prod.mk.inj hpair
      rfl
  · next hpair => exact Table.get?_upsert_ne _ _ hpair

/-- A claim is the last one of its pair. -/
theorem Remembered.claim {db : Db} {r p : Id} {c : Claim}
    (hw : ProfileViewService.claimable config db (r, p) = true)
    (hc : Remembered config.window db c) :
    Remembered config.window (store.apply db (.claimCooldown r p db.clock)) c := by
  by_cases hpair : c.pair = (r, p)
  · right
    show c.time + config.window < db.clock
    exact claimable_of_remembered hc (hpair ▸ hw)
  · rcases hc with ⟨row, hrow, hle⟩ | hlt
    · exact .inl ⟨row, by rw [cooldowns_claim, if_neg hpair, hrow], hle⟩
    · exact .inr hlt

theorem remembered_self {db : Db} {r p : Id} :
    Remembered config.window (store.apply db (.claimCooldown r p db.clock))
      ⟨i, (r, p), db.clock⟩ :=
  .inl ⟨⟨r, p, db.clock⟩, by rw [cooldowns_claim, if_pos rfl], Int.le_refl _⟩

/-- One statement keeps the claims spaced. -/
theorem conduct_inv (hretention : config.window ≤ config.cooldownRetention) {L : Log}
    {ws : List Write} (hL : (conduct config d₀).inv L) (hws : (conduct config d₀).guar i op L ws) :
    (conduct config d₀).inv (L ++ [⟨i, false, ws⟩]) := by
  obtain ⟨w, rfl, hw⟩ := hws
  obtain ⟨hspaced, hkept⟩ := hL
  have hdb : d₀.at (L ++ [⟨i, false, [w]⟩]) = store.apply (d₀.at L) w := replay_snoc ..
  cases hclaim : Claim.of i w with
  | none =>
    refine ⟨?_, ?_⟩
    · rw [claims_snoc, hclaim, Option.toList_none, List.append_nil]
      exact hspaced
    · rw [claims_snoc, hclaim, Option.toList_none, List.append_nil, hdb]
      exact fun c hc => (hkept c hc).apply hretention hw hclaim
  | some c' =>
    cases w with
    | claimCooldown r p now =>
      obtain ⟨-, rfl, hclaimable⟩ := hw
      cases hclaim
      refine ⟨?_, ?_⟩
      · rw [claims_snoc, Spaced, List.pairwise_append]
        refine ⟨hspaced, List.pairwise_singleton _ _, fun c hc c' hc' hpair => ?_⟩
        rw [Claim.of, Option.toList_some, List.mem_singleton] at hc'
        subst hc'
        exact claimable_of_remembered (hkept c hc) (hpair ▸ hclaimable)
      · rw [claims_snoc, hdb]
        intro c hc
        rcases List.mem_append.1 hc with hc | hc
        · exact (hkept c hc).claim hclaimable
        · rw [Claim.of, Option.toList_some, List.mem_singleton] at hc
          subst hc
          exact remembered_self
    | _ => cases hclaim

theorem history (config : Config) (hretention : config.window ≤ config.cooldownRetention)
    (d₀ : Db) : History (system config) (fun _ _ => True) (conduct config d₀) d₀ where
  refl _ _ L := Int.le_refl (d₀.at L).clock
  trans _ _ _ _ _ h h' := Int.le_trans h h'
  inv := conduct_inv hretention
  others := by
    rintro s i op j op' ws - - - - - - - - - ⟨w, rfl, -⟩
    have hdb : d₀.at (s.log ++ [⟨i, false, [w]⟩]) = store.apply (d₀.at s.log) w := replay_snoc ..
    show (d₀.at s.log).clock ≤ (d₀.at (s.log ++ [⟨i, false, [w]⟩])).clock
    rw [hdb]
    exact Write.clock_le _ w
  settled _ _ _ _ _ _ _ := ⟨fun _ _ => trivial, fun _ _ => trivial⟩
  fault _ _ _ _ := trivial
  prog := by
    intro s op _ _ _
    cases op with
    | clock us =>
      exact (along_bind _ _ _ _).2 (keeps_write (fun _ _ => rfl) fun _ => trivial)
    | recordView r c p =>
      exact (along_bind _ _ _ _).2 (along_mono (fun _ _ _ => trivial)
        (recordView_keeps r c p rfl s.log))
    | sweep failures =>
      exact (along_bind _ _ _ _).2 (along_mono (fun _ _ _ => trivial)
        (sweep_keeps failures s.log))

theorem kept (hretention : config.window ≤ config.cooldownRetention) {s : RunState}
    (h : (system config).Reachable d₀ s) : Kept (system config) (conduct config d₀) d₀ s :=
  (history config hretention d₀).good ⟨List.Pairwise.nil, fun _ hc => nomatch hc⟩
    (h.within.mono fun _ _ _ => trivial)

/-! ## The run without the sweeps -/

/-- `db'` may still have the cooldowns of pairs that can be claimed in `db`; the rows that
only the sweeps read are not compared. -/
structure Same (config : Config) (db db' : Db) : Prop where
  clock : db.clock = db'.clock
  users : db.users = db'.users
  candidateProfiles : db.candidateProfiles = db'.candidateProfiles
  cooldowns : ∀ pair, db.cooldowns.get? pair = db'.cooldowns.get? pair ∨
    (db.cooldowns.get? pair = none ∧ ∃ c, db'.cooldowns.get? pair = some c ∧
      c.lastNotifiedAt < db.clock - config.window)

namespace Same

variable {db db' : Db}

theorem refl (config : Config) (db : Db) : Same config db db :=
  ⟨rfl, rfl, rfl, fun _ => .inl rfl⟩

theorem claimable (h : Same config db db') (pair : Id × Id) :
    ProfileViewService.claimable config db pair = ProfileViewService.claimable config db' pair := by
  unfold ProfileViewService.claimable
  rcases h.cooldowns pair with heq | ⟨hnone, c, hc, hlt⟩
  · rw [heq, h.clock]
  · rw [h.clock] at hlt
    simp only [hnone, hc, decide_eq_true hlt]

theorem tick (h : Same config db db') (us : Nat) :
    Same config (store.apply db (.tick us)) (store.apply db' (.tick us)) where
  clock := congrArg (· + (us : Int)) h.clock
  users := h.users
  candidateProfiles := h.candidateProfiles
  cooldowns pair := by
    rcases h.cooldowns pair with heq | ⟨hnone, c, hc, hlt⟩
    · exact .inl heq
    · refine .inr ⟨hnone, c, hc, ?_⟩
      have hle : ∀ {l k w : Int}, l < k - w → l < k + us - w := by omega
      exact hle hlt

theorem claim (h : Same config db db') (r p : Id) (now : Micros) :
    Same config (store.apply db (.claimCooldown r p now))
      (store.apply db' (.claimCooldown r p now)) where
  clock := h.clock
  users := h.users
  candidateProfiles := h.candidateProfiles
  cooldowns pair := by
    rw [cooldowns_claim, cooldowns_claim]
    split
    · exact .inl rfl
    · exact h.cooldowns pair

/-- A sweep removes only cooldowns that have run out. -/
theorem sweep {op : Op} (hop : op.isSweep = true)
    (hretention : config.window ≤ config.cooldownRetention) {w : Write}
    (hw : Guarantee config op db w) (h : Same config db db') :
    Same config (store.apply db w) db' := by
  cases w with
  | tick us => exact absurd hop (Bool.eq_false_iff.1 hw)
  | claimCooldown r p now =>
    rw [hw.1] at hop
    cases hop
  | purgeCooldowns cutoff =>
    refine ⟨h.clock, h.users, h.candidateProfiles, fun pair => ?_⟩
    have hget : (store.apply db (.purgeCooldowns cutoff)).cooldowns.get? pair =
        (db.cooldowns.get? pair).filter fun c => !c.isBefore cutoff := Table.get?_deleteWhere _
    rw [hget]
    rcases h.cooldowns pair with heq | ⟨hnone, hrow⟩
    · cases hrow : db.cooldowns.get? pair with
      | none =>
        rw [hrow] at heq
        exact .inl heq
      | some row =>
        rw [hrow] at heq
        cases hdead : row.isBefore cutoff with
        | true =>
          refine .inr ⟨by rw [Option.filter_some, hdead]; rfl, row, heq.symm, ?_⟩
          have hrow' : row.lastNotifiedAt < ofDate cutoff := of_decide_eq_true hdead
          have : ∀ {l o k w r : Int}, l < o → o ≤ k - r → w ≤ r → l < k - w := by omega
          exact this hrow' hw hretention
        | false => exact .inl (by rw [Option.filter_some, hdead]; exact heq)
    · exact .inr ⟨by rw [hnone]; rfl, hrow⟩
  | _ => exact ⟨h.clock, h.users, h.candidateProfiles, h.cooldowns⟩

end Same

theorem recordView_blind (recruiterUserId companyId candidateProfileId : Id) :
    (ProfileViewService.recordView config recruiterUserId companyId candidateProfileId).Blind store
      (Same config) := by
  unfold ProfileViewService.recordView ProfileViewService.claimNotification
    GrowthNotificationService.notifyProfileViewed
  refine Blind.bind (blind_write (fun db db' h => by rw [h.clock]) fun db db' h => ?_) fun _ =>
    Blind.bind (blind_query (fun db db' h => ?_) fun db db' ws a h hf => ?_) fun claimed => ?_
  · exact ⟨h.clock, h.users, h.candidateProfiles, h.cooldowns⟩
  · rw [h.claimable, h.clock]
  · split at hf
    · cases hf
      exact h.claim _ _ _
    · cases hf
      exact h
  · split
    · exact blind_ret _
    · refine Blind.bind (blind_select fun db db' h => by rw [h.candidateProfiles]) fun profile? => ?_
      cases profile? with
      | none => exact blind_ret _
      | some profile =>
        refine Blind.bind (blind_select fun db db' h => by rw [h.users]) fun user? => ?_
        cases user? with
        | none => exact blind_ret _
        | some user =>
          refine blind_write (fun db db' h => by rw [h.clock]) fun db db' h => ?_
          exact ⟨h.clock, h.users, h.candidateProfiles, h.cooldowns⟩

theorem purge_untied {failures : List Purge} {label : Purge} {run : M Nat} (h : run.Untied) :
    (DataRetentionService.purge failures label run).Untied := by
  have hattempt : (DataRetentionService.attempt failures label run).Untied := by
    unfold DataRetentionService.attempt
    split
    · exact plain_throw trivial
    · exact h
  exact hattempt.caught fun _ _ => plain_ret _

theorem delete_untied (w : Write) (affected : Db → Nat) :
    (DataRetentionService.delete w affected).Untied :=
  plain_query trivial (fun _ _ _ => trivial) fun _ _ _ => trivial

theorem sweep_untied (failures : List Purge) :
    (DataRetentionService.sweep failures config).Untied := by
  have cutoff : ∀ days, (DataRetentionService.cutoffFor days).Untied :=
    fun _ => plain_select trivial _
  unfold DataRetentionService.sweep
  refine (cutoff _).bind fun _ => (plain_select trivial _).bind fun _ => ?_
  refine (purge_untied (delete_untied _ _)).bind fun _ => ?_
  refine (purge_untied ((cutoff _).bind fun _ => delete_untied _ _)).bind fun _ => ?_
  refine (purge_untied ((cutoff _).bind fun _ => delete_untied _ _)).bind fun _ => ?_
  exact (purge_untied ((cutoff _).bind fun _ => delete_untied _ _)).bind fun _ => plain_ret _

/-- Sweeps are inert for the other calls. -/
theorem removable (hretention : config.window ≤ config.cooldownRetention) :
    Removable (system config) Op.isSweep (Same config) d₀ where
  blind i op hop := by
    cases op with
    | clock us =>
      exact Blind.bind (blind_write (fun _ _ _ => rfl) fun db db' h => h.tick us) fun _ =>
        blind_ret _
    | recordView r c p => exact (recordView_blind r c p).bind fun _ => blind_ret _
    | sweep failures => cases hop
  untied i op hop := by
    cases op with
    | sweep failures => exact (sweep_untied failures).bind fun _ => plain_ret _
    | _ => cases hop
  inert := by
    intro s i hs hi db' h
    obtain ⟨op, hop, hsweep⟩ := (Option.any_eq_true _ _).1 hi
    rcases (kept hretention hs).issued hop (Int.le_refl _) with hnil | ⟨w, hw, hguar⟩
    · rw [hnil]
      exact h
    · have hdb : s.db = d₀.at s.log := (kept hretention hs).db
      rw [← hdb] at hguar
      rw [hw]
      exact h.sweep hsweep hretention hguar

/-- The groups of the sweeps hold no claim. -/
theorem claims_kept (hretention : config.window ≤ config.cooldownRetention) {s : RunState}
    (h : (system config).Reachable d₀ s) :
    claims (s.log.filter fun g => !dropped Op.isSweep s.ops g.call) = claims s.log := by
  have hnone : ∀ g ∈ s.log, dropped Op.isSweep s.ops g.call = true →
      g.writes.filterMap (Claim.of g.call) = [] := by
    intro g hg hd
    obtain ⟨l, r, hlog⟩ := List.append_of_mem hg
    obtain ⟨-, op, hop, -, w, hw, hguar⟩ := (kept hretention h).log hlog
    obtain ⟨op', hop', hsweep⟩ := (Option.any_eq_true _ _).1 hd
    rw [hop] at hop'
    cases hop'
    cases w with
    | claimCooldown r p now =>
      rw [hguar.1] at hsweep
      cases hsweep
    | _ => rw [hw]; rfl
  generalize s.log = L at hnone
  induction L with
  | nil => rfl
  | cons g L ih =>
    have ih := ih fun g' hg' => hnone g' (List.mem_cons_of_mem _ hg')
    cases hd : dropped Op.isSweep s.ops g.call with
    | true =>
      rw [List.filter_cons_of_neg (by simp [hd]), claims_cons, hnone g List.mem_cons_self hd, ih,
        List.nil_append]
    | false => rw [List.filter_cons_of_pos (by simp [hd]), claims_cons, claims_cons, ih]

/-! ## The result -/

/-- Where cooldowns are kept for the window at least, the claims of a pair are more than the
window apart, and the run without the sweeps has the same claims. -/
theorem claims_withoutSweeps (config : Config)
    (hretention : config.window ≤ config.cooldownRetention) {d₀ : Db}
    {ls : List (Label Error Op)} {s : RunState}
    (hr : (system config).runLabels .all (.init d₀) ls = some s) :
    Spaced config.window (claims s.log) ∧
      ∃ s', (system config).runLabels .all (.init d₀) (withoutCalls Op.isSweep [] ls) = some s' ∧
        claims s'.log = claims s.log := by
  have hs : (system config).Reachable d₀ s := System.runLabels_reach .init hr
  have hkept := kept hretention hs
  refine ⟨hkept.inv.1, ?_⟩
  obtain ⟨s', hr', h⟩ := (removable hretention).run .init (Without.init (Same.refl config d₀)) hr
  exact ⟨s', hr', by rw [h.log, claims_kept hretention hs]⟩

end

/-- Two views a month apart, with a sweep in between that removes the cooldown of the first. -/
theorem claims_withoutSweeps_month :
    let d₀ : Db :=
      { Db.empty with
        users := Table.empty.insert ⟨6, true, []⟩
        candidateProfiles := Table.empty.insert ⟨5, 6⟩ }
    let ls : List (Label Error Op) :=
      .spawn (.recordView 1 2 5) :: steps 0 6 ++ .spawn (.clock 2678400000000) :: steps 1 2 ++
        .spawn (.sweep []) :: steps 2 10 ++ .spawn (.recordView 1 2 5) :: steps 3 6
    ∃ s, (system .default).runLabels .all (.init d₀) ls = some s ∧
      claims s.log = [⟨0, (1, 5), 0⟩, ⟨3, (1, 5), 2678400000000⟩] ∧
      Spaced Config.default.window (claims s.log) ∧
      ∃ s', (system .default).runLabels .all (.init d₀) (withoutCalls Op.isSweep [] ls) = some s' ∧
        claims s'.log = claims s.log := by
  intro d₀ ls
  have hrun : ((system .default).runLabels .all (.init d₀) ls).map (fun s => claims s.log) =
      some [⟨0, (1, 5), 0⟩, ⟨3, (1, 5), 2678400000000⟩] := by
    decide +kernel
  obtain ⟨s, hr, hclaims⟩ := Option.map_eq_some_iff.1 hrun
  exact ⟨s, hr, hclaims, claims_withoutSweeps .default (by decide) hr⟩

end JobBoard.Growth
