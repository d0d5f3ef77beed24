import Mathlib.Data.List.Induction
import JobBoard.Billing.Statements
import JobBoard.Lib.Sound
import JobBoard.Services.System

/-!
# Trial codes

Any number of creations, revocations and redemptions of trial codes, interleaved
and failing. A redemption commits its row and its claim together, on a code that
is still active and below its limit (`Redeemed`): the lock of the code's row keeps
it so from the claim to the commit (`CodeRely`). A revocation may write an old
`used_count` back, but only onto a row that is revoked from then on, and the
counter of an active code never falls behind its redemptions (`TrialCodesOK`).
-/

set_option autoImplicit false

namespace JobBoard

open Txn Prog TrialCodeRedemptionService

def Op.isTrialCodeOp : Op → Bool
  | .redeem .. | .createTrialCode _ | .revokeTrialCode _ | .clock _ => true
  | _ => false

/-- Creations, revocations and redemptions of trial codes, while time passes. -/
def trialCodeRuns : Runs Db Write Op := ⟨fun _ op => op.isTrialCodeOp, fun _ _ _ => true, false⟩

/-- The number of redemption rows of a code. -/
def Db.redemptionsOf (d : Db) (id : Id) : Nat :=
  d.trialCodeRedemptions.rows.countP (·.trialCodeId == id)

def Db.isRevoked (d : Db) (id : Id) : Prop :=
  ∃ c, d.trialCodes.get? id = some c ∧ c.status = .revoked

structure TrialCodesOK (d : Db) : Prop where
  /-- The foreign key of the redemptions. -/
  known : ∀ r ∈ d.trialCodeRedemptions.rows, (d.trialCodes.get? r.trialCodeId).isSome = true
  once : ∀ r ∈ d.trialCodeRedemptions.rows, ∀ r' ∈ d.trialCodeRedemptions.rows,
    r.companyId = r'.companyId → r = r'
  capped : ∀ id c, d.trialCodes.get? id = some c → (d.redemptionsOf id : Int) ≤ c.maxUses
  counted : ∀ id c, d.trialCodes.get? id = some c → c.status = .active →
    (d.redemptionsOf id : Int) ≤ c.usedCount

/-! ## Rely -/

structure CodeRely (h : List Key) (d d' : Db) : Prop where
  /-- Codes stay, and a revoked code stays revoked. -/
  code : ∀ id c, d.trialCodes.get? id = some c → ∃ c', d'.trialCodes.get? id = some c' ∧
    (c.status = .revoked → c'.status = .revoked)
  row : ∀ id, .row "trial_codes" id ∈ h → d'.trialCodes.get? id = d.trialCodes.get? id
  redemption : ∀ r ∈ d'.trialCodeRedemptions.rows, .row "trial_code_redemptions" r.id ∈ h ∨
    .redemptionCompany r.companyId ∈ h → r ∈ d.trialCodeRedemptions.rows

namespace CodeRely

variable {h k : List Key} {a b c d d' : Db}

theorem revoked (hr : CodeRely h d d') {id : Id} (hid : d.isRevoked id) : d'.isRevoked id := by
  obtain ⟨c, hc, hst⟩ := hid
  obtain ⟨c', hc', hst'⟩ := hr.code id c hc
  exact ⟨c', hc', hst' hst⟩

theorem of_eq (hc : d'.trialCodes = d.trialCodes)
    (hr : d'.trialCodeRedemptions = d.trialCodeRedemptions) : CodeRely h d d' where
  code := fun id c h => ⟨c, by rw [hc]; exact h, fun hst => hst⟩
  row := fun id _ => by rw [hc]
  redemption := fun r hm _ => by
    rw [hr] at hm
    exact hm

theorem trans (hab : CodeRely h a b) (hbc : CodeRely h b c) : CodeRely h a c where
  code := fun id x hx => by
    obtain ⟨y, hy, hxy⟩ := hab.code id x hx
    obtain ⟨z, hz, hyz⟩ := hbc.code id y hy
    exact ⟨z, hz, fun hst => hyz (hxy hst)⟩
  row := fun id hid => (hbc.row id hid).trans (hab.row id hid)
  redemption := fun r hm hk => hab.redemption r (hbc.redemption r hm hk) hk

theorem mono (hr : CodeRely (h ++ k) d d') : CodeRely h d d' where
  code := hr.code
  row := fun id hid => hr.row id (List.mem_append_left _ hid)
  redemption := fun r hm hk =>
    hr.redemption r hm (hk.imp (List.mem_append_left _) (List.mem_append_left _))

theorem weaken (hr : CodeRely h d d') : CodeRely [] d d' := mono (h := []) hr

end CodeRely

/-! ## What the calls write -/

theorem redemptionViolation_none {r : TrialCodeRedemption} {d : Db} :
    redemptionViolation r d = none ↔ ∀ x ∈ d.trialCodeRedemptions.rows,
      x.id ≠ r.id ∧ x.companyId ≠ r.companyId := by
  unfold redemptionViolation
  rw [Table.violation_none]
  simp only [beq_iff_eq, ne_eq]

/-- What a redemption commits: its row, which nothing forbids, and its claim on a
code that is active and below its limit. -/
def Redeemed (d : Db) (ws : List Write) : Prop :=
  ∃ r code es, ws = .insertRedemption r :: .incrementUsedCount r.trialCodeId :: es ∧
    (∀ w ∈ es, w.OfSubscription) ∧ redemptionViolation r d = none ∧
    d.trialCodes.get? r.trialCodeId = some code ∧ code.usedCount < code.maxUses ∧
    code.status = .active

/-- What a revocation writes: `used_count` may be an old one, the row is revoked. -/
def Revoked (id : Id) (d : Db) (ws : List Write) : Prop :=
  ∃ entity reread, ws = [.saveTrialCode entity reread] ∧ entity.id = id ∧
    entity.status = .revoked ∧ (reread.status = .revoked → d.isRevoked id) ∧
    (d.trialCodes.get? id).isSome = true

def Created (uuid : Id) (dto : CreateTrialCodeDto) (d : Db) (ws : List Write) : Prop :=
  ws = [.insertTrialCode (TrialCodeAdminService.newTrialCode uuid dto)] ∧
    d.trialCodeViolation (TrialCodeAdminService.newTrialCode uuid dto) = none

theorem saveTrial_yields {l e : Subscription} {s t : List Write × Db} {a : Subscription}
    (h : (SubscriptionRepository.save l e).Yields store CodeRely s t a) :
    CodeRely (store.locks s.1) s.2 t.2 ∧
      ∃ es, t.1 = s.1 ++ es ∧ ∀ w ∈ es, w.OfSubscription := by
  have hp : (SubscriptionRepository.save l e).Plain (fun ws => ∀ w ∈ ws, w.OfSubscription)
      (fun _ => False) fun _ => True := by
    refine Plain.bind (plain_select (by simp) _) fun found => ?_
    split
    · trivial
    · split
      · trivial
      · refine plain_insertUnique (by simp) (fun w hw => ?_) fun _ _ _ => trivial
        rw [List.mem_singleton] at hw
        subst hw
        trivial
  obtain ⟨hr, es, ht, hes⟩ := hp.yields (fun _ _ => .of_eq rfl rfl) .trans .mono
    (fun _ _ _ hf => hf.elim) h
  refine ⟨hr, es.flatten, ht, fun w hw => ?_⟩
  obtain ⟨ws, hws, hw⟩ := List.mem_flatten.1 hw
  exact hes ws hws w hw

theorem insertRedemption_yields {r : TrialCodeRedemption} {s t : List Write × Db} {a : Unit}
    (h : (insertRedemption r).Yields store CodeRely s t a) : ∃ d,
    CodeRely (store.locks s.1) s.2 d ∧ redemptionViolation r (store.applyAll d s.1) = none ∧
    t = (s.1 ++ [.insertRedemption r], d) := by
  simp only [insertRedemption, yields_mapError, insertUnique, yields_query] at h
  obtain ⟨d, ws, hd, hok, ht⟩ := h
  split at hok
  · cases hok
  · next hnone =>
    cases hok
    exact ⟨d, hd, hnone, ht⟩

theorem claim_yields {id : Id} {s t : List Write × Db} {a : Unit}
    (h : (claim id).Yields store CodeRely s t a) : ∃ d code,
    CodeRely (store.locks s.1) s.2 d ∧ (store.applyAll d s.1).trialCodes.get? id = some code ∧
    code.usedCount < code.maxUses ∧ code.status = .active ∧
    t = (s.1 ++ [.incrementUsedCount id], d) := by
  simp only [claim, yields_query] at h
  obtain ⟨d, ws, hd, hok, ht⟩ := h
  split at hok
  · next code hcode =>
    split at hok
    · next hcond =>
      cases hok
      exact ⟨d, code, hd, hcode, hcond.1, hcond.2, ht⟩
    · cases hok
  · cases hok

/-- A complete run of the body of `redeem` is ready to commit a redemption. -/
theorem redeemFor_yields {config : Config} {uuid companyId : Id} {code : String} {d₁ d₂ : Db}
    {t : List Write × Db} {a : Subscription}
    (h : (redeemFor config uuid companyId code).Yields store CodeRely ([], d₁) t a)
    (hd₂ : CodeRely (store.locks t.1) t.2 d₂) : Redeemed d₂ t.1 := by
  unfold redeemFor at h
  obtain ⟨t₁, found, hfound, h⟩ := yields_bind.1 h
  simp only [SubscriptionRepository.findNewest, yields_select] at hfound
  obtain ⟨e₁, -, rfl, -⟩ := hfound
  split at h
  · exact h.elim
  · next subscription =>
    obtain ⟨t₂, found', hfound', h⟩ := yields_bind.1 h
    simp only [yields_select] at hfound'
    obtain ⟨e₂, -, rfl, -⟩ := hfound'
    split at h
    · exact h.elim
    · next trialCode =>
      obtain ⟨t₃, time, htime, h⟩ := yields_bind.1 h
      simp only [now, yields_select] at htime
      obtain ⟨e₃, -, rfl, -⟩ := htime
      split at h
      · exact h.elim
      · obtain ⟨t₄, time', htime', h⟩ := yields_bind.1 h
        simp only [now, yields_select] at htime'
        obtain ⟨e₄, -, rfl, -⟩ := htime'
        obtain ⟨t₅, _, hins, h⟩ := yields_bind.1 h
        obtain ⟨e₅, -, hnone, rfl⟩ := insertRedemption_yields hins
        obtain ⟨t₆, _, hclaim, h⟩ := yields_bind.1 h
        obtain ⟨e₆, row, he₆, hrow, hlt, hactive, rfl⟩ := claim_yields hclaim
        obtain ⟨t₇, quota, hquota, h⟩ := yields_bind.1 h
        simp only [yields_ofExcept] at hquota
        obtain ⟨rfl, -⟩ := hquota
        obtain ⟨t₈, time'', htime'', h⟩ := yields_bind.1 h
        simp only [now, yields_select] at htime''
        obtain ⟨e₈, he₈, rfl, -⟩ := htime''
        obtain ⟨hsave, es, ht, hes⟩ := saveTrial_yields h
        rw [ht] at hd₂
        have hend : CodeRely _ e₆ d₂ := he₈.trans (hsave.trans (by
          rw [Store.locks_append] at hd₂
          exact hd₂.mono))
        refine ⟨⟨uuid, trialCode.id, companyId, time', none⟩, row, es, by rw [ht]; rfl, hes, ?_, ?_,
          hlt, hactive⟩
        · rw [redemptionViolation_none] at hnone ⊢
          intro x hx
          by_contra hbad
          have hkey : x.id = uuid ∨ x.companyId = companyId := by
            by_contra hnot
            exact hbad ⟨fun h => hnot (.inl h), fun h => hnot (.inr h)⟩
          have hx₆ := hend.redemption x hx (hkey.imp
            (fun h => by simp [Store.locks, store, Write.keys, h])
            (fun h => by simp [Store.locks, store, Write.keys, h]))
          have hx₅ := he₆.redemption x hx₆ (hkey.imp
            (fun h => by simp [Store.locks, store, Write.keys, h])
            (fun h => by simp [Store.locks, store, Write.keys, h]))
          exact hbad (hnone x hx₅)
        · rw [hend.row _ (by simp [Store.locks, store, Write.keys])]
          exact hrow

/-! ## Steps -/

section

variable {d : Db} {ws : List Write} {ks : List Key}

theorem ofSubscription_codes {es : List Write} (h : ∀ w ∈ es, w.OfSubscription) (d : Db) :
    (store.applyAll d es).trialCodes = d.trialCodes ∧
      (store.applyAll d es).trialCodeRedemptions = d.trialCodeRedemptions := by
  induction es generalizing d with
  | nil => exact ⟨rfl, rfl⟩
  | cons w es ih =>
    obtain ⟨hc, hr⟩ := ih (fun x hx => h x (List.mem_cons_of_mem _ hx)) (store.apply d w)
    have hw := h w List.mem_cons_self
    rw [Store.applyAll_cons, hc, hr]
    cases w <;> first | exact ⟨rfl, rfl⟩ | exact hw.elim

/-- A redemption seen from the database it reaches. -/
theorem Redeemed.apply (h : Redeemed d ws) : ∃ r code,
    d.trialCodes.get? r.trialCodeId = some code ∧ code.usedCount < code.maxUses ∧
    code.status = .active ∧
    (∀ x ∈ d.trialCodeRedemptions.rows, x.id ≠ r.id ∧ x.companyId ≠ r.companyId) ∧
    (store.applyAll d ws).trialCodeRedemptions.rows = d.trialCodeRedemptions.rows ++ [r] ∧
    (∀ id, (store.applyAll d ws).trialCodes.get? id =
      if id = r.trialCodeId then some { code with usedCount := code.usedCount + 1 }
      else d.trialCodes.get? id) ∧
    .row "trial_codes" r.trialCodeId ∈ store.locks ws ∧
    .row "trial_code_redemptions" r.id ∈ store.locks ws ∧
    .redemptionCompany r.companyId ∈ store.locks ws := by
  obtain ⟨r, code, es, rfl, hes, hnone, hcode, hlt, hactive⟩ := h
  rw [redemptionViolation_none] at hnone
  refine ⟨r, code, hcode, hlt, hactive, hnone, ?_, fun id => ?_, ?_, ?_, ?_⟩
  · rw [Store.applyAll_cons, Store.applyAll_cons, (ofSubscription_codes hes _).2]
    exact Table.insert_rows (Table.get?_eq_none.2 fun x hx => (hnone x hx).1)
  · rw [Store.applyAll_cons, Store.applyAll_cons, (ofSubscription_codes hes _).1]
    simp only [store, Write.apply, Table.get?_modify]
    split
    · next hid => rw [hid, hcode]; rfl
    · rfl
  all_goals simp [Store.locks, store, Write.keys]

theorem redemptionsOf_append {d' : Db} {r : TrialCodeRedemption}
    (h : d'.trialCodeRedemptions.rows = d.trialCodeRedemptions.rows ++ [r]) (id : Id) :
    d'.redemptionsOf id = d.redemptionsOf id + if r.trialCodeId = id then 1 else 0 := by
  simp [Db.redemptionsOf, h, List.countP_append, List.countP_cons]

theorem Redeemed.ok (h : Redeemed d ws) (hd : TrialCodesOK d) :
    TrialCodesOK (store.applyAll d ws) := by
  obtain ⟨r, code, hcode, hlt, hactive, hnone, hrows, hget, -⟩ := h.apply
  have hcount := redemptionsOf_append hrows
  refine ⟨fun x hx => ?_, fun x hx y hy hxy => ?_, fun id c hc => ?_, fun id c hc hst => ?_⟩
  · rw [hget]
    split
    · rfl
    · next hne =>
      rw [hrows, List.mem_append, List.mem_singleton] at hx
      rcases hx with hx | rfl
      · exact hd.known x hx
      · exact absurd rfl hne
  · rw [hrows, List.mem_append, List.mem_singleton] at hx hy
    rcases hx with hx | rfl <;> rcases hy with hy | rfl
    · exact hd.once x hx y hy hxy
    · exact absurd hxy (hnone x hx).2
    · exact absurd hxy.symm (hnone y hy).2
    · rfl
  · rw [hget] at hc
    rw [hcount]
    split at hc
    · next hid =>
      cases hc
      have := hd.counted id code (by rw [hid, hcode]) hactive
      rw [if_pos hid.symm]
      dsimp only
      omega
    · next hid =>
      rw [if_neg (Ne.symm hid)]
      exact hd.capped id c hc
  · rw [hget] at hc
    rw [hcount]
    split at hc
    · next hid =>
      cases hc
      have := hd.counted id code (by rw [hid, hcode]) hactive
      rw [if_pos hid.symm]
      dsimp only
      omega
    · next hid =>
      rw [if_neg (Ne.symm hid)]
      exact hd.counted id c hc hst

theorem Redeemed.rely (h : Redeemed d ws) (hk : ∀ k ∈ ks, k ∉ store.locks ws) :
    CodeRely ks d (store.applyAll d ws) := by
  obtain ⟨r, code, hcode, -, -, -, hrows, hget, hl, hpk, hcompany⟩ := h.apply
  refine ⟨fun id c hc => ?_, fun id hid => ?_, fun x hx hkey => ?_⟩
  · rw [hget]
    split
    · next hid =>
      rw [hid, hcode] at hc
      cases hc
      exact ⟨_, rfl, fun hst => hst⟩
    · exact ⟨c, hc, fun hst => hst⟩
  · have hne : id ≠ r.trialCodeId := by
      rintro rfl
      exact hk _ hid hl
    rw [hget, if_neg hne]
  · rw [hrows, List.mem_append, List.mem_singleton] at hx
    rcases hx with hx | rfl
    · exact hx
    · rcases hkey with hkey | hkey
      · exact absurd hpk (hk _ hkey)
      · exact absurd hcompany (hk _ hkey)

/-- A revocation seen from the database it reaches. -/
theorem Revoked.apply {id : Id} (h : Revoked id d ws) :
    (store.applyAll d ws).trialCodeRedemptions = d.trialCodeRedemptions ∧
    (∀ c, (store.applyAll d ws).trialCodes.get? id = some c →
      c.status = .revoked ∧ ∃ c', d.trialCodes.get? id = some c' ∧ c.maxUses = c'.maxUses) ∧
    (∀ id', id' ≠ id → (store.applyAll d ws).trialCodes.get? id' = d.trialCodes.get? id') ∧
    (∀ id', ((store.applyAll d ws).trialCodes.get? id').isSome = (d.trialCodes.get? id').isSome) ∧
    .row "trial_codes" id ∈ store.locks ws := by
  obtain ⟨entity, reread, rfl, rfl, hst, hre, -⟩ := h
  have hget : ∀ id', (store.applyAll d [.saveTrialCode entity reread]).trialCodes.get? id' =
      if id' = entity.id then (d.trialCodes.get? id').map (entity.overwrite reread)
      else d.trialCodes.get? id' := fun id' => Table.get?_modify (entity.overwrite reread) fun _ => rfl
  refine ⟨rfl, fun c hc => ?_, fun id' hne => ?_, fun id' => ?_, ?_⟩
  · rw [hget, if_pos rfl] at hc
    obtain ⟨row, hrow, rfl⟩ := Option.map_eq_some_iff.1 hc
    refine ⟨?_, row, hrow, rfl⟩
    show setColumn entity.status reread.status row.status = .revoked
    unfold setColumn
    split
    · next heq =>
      obtain ⟨c', hc', hst'⟩ := hre (heq ▸ hst)
      rw [hrow] at hc'
      cases hc'
      exact hst'
    · exact hst
  · rw [hget, if_neg hne]
  · rw [hget]
    split <;> simp
  · simp [Store.locks, store, Write.keys]

theorem Revoked.isRevoked {id : Id} (h : Revoked id d ws) : (store.applyAll d ws).isRevoked id := by
  obtain ⟨-, hself, -, hsome, -⟩ := h.apply
  obtain ⟨entity, reread, -, -, -, -, hd⟩ := h
  rw [← hsome] at hd
  obtain ⟨c, hc⟩ := Option.isSome_iff_exists.1 hd
  exact ⟨c, hc, (hself c hc).1⟩

theorem Revoked.ok {id : Id} (h : Revoked id d ws) (hd : TrialCodesOK d) :
    TrialCodesOK (store.applyAll d ws) := by
  obtain ⟨hrows, hself, hother, hsome, -⟩ := h.apply
  have hcount : ∀ id', (store.applyAll d ws).redemptionsOf id' = d.redemptionsOf id' := fun id' => by
    rw [Db.redemptionsOf, hrows, Db.redemptionsOf]
  refine ⟨fun x hx => ?_, by rw [hrows]; exact hd.once, fun id' c hc => ?_, fun id' c hc hst => ?_⟩
  · rw [hrows] at hx
    rw [hsome]
    exact hd.known x hx
  · rw [hcount]
    by_cases hid : id' = id
    · subst hid
      obtain ⟨-, c', hc', hmax⟩ := hself c hc
      rw [hmax]
      exact hd.capped id' c' hc'
    · rw [hother id' hid] at hc
      exact hd.capped id' c hc
  · rw [hcount]
    by_cases hid : id' = id
    · subst hid
      rw [(hself c hc).1] at hst
      cases hst
    · rw [hother id' hid] at hc
      exact hd.counted id' c hc hst

theorem Revoked.rely {id : Id} (h : Revoked id d ws) (hk : ∀ k ∈ ks, k ∉ store.locks ws) :
    CodeRely ks d (store.applyAll d ws) := by
  obtain ⟨hrows, hself, hother, hsome, hl⟩ := h.apply
  refine ⟨fun id' c hc => ?_, fun id' hid => ?_, fun x hx _ => by rw [hrows] at hx; exact hx⟩
  · have hs := hsome id'
    rw [hc] at hs
    obtain ⟨c', hc'⟩ := Option.isSome_iff_exists.1 hs
    refine ⟨c', hc', fun hst => ?_⟩
    by_cases he : id' = id
    · subst he
      exact (hself c' hc').1
    · rw [hother id' he, hc] at hc'
      cases hc'
      exact hst
  · refine hother id' ?_
    rintro rfl
    exact hk _ hid hl

theorem trialCodeViolation_none {c : TrialCode} (h : d.trialCodeViolation c = none) :
    d.trialCodes.get? c.id = none := by
  unfold Db.trialCodeViolation at h
  split at h
  · cases h
  · next hn => simpa using hn

theorem Created.ok {uuid : Id} {dto : CreateTrialCodeDto} (h : Created uuid dto d ws)
    (hd : TrialCodesOK d) : TrialCodesOK (store.applyAll d ws) := by
  obtain ⟨rfl, hnone⟩ := h
  have hnew : d.trialCodes.get? uuid = none := trialCodeViolation_none hnone
  have hget : ∀ id, (store.applyAll d [.insertTrialCode
      (TrialCodeAdminService.newTrialCode uuid dto)]).trialCodes.get? id =
      if uuid = id then some (TrialCodeAdminService.newTrialCode uuid dto)
      else d.trialCodes.get? id := fun id => Table.get?_insert hnew
  -- the foreign key: a new code has no redemptions
  have hzero : d.redemptionsOf uuid = 0 := by
    rw [Db.redemptionsOf, List.countP_eq_zero]
    intro r hr
    simp only [beq_iff_eq]
    rintro rfl
    have := hd.known r hr
    rw [hnew] at this
    cases this
  refine ⟨fun x hx => ?_, hd.once, fun id c hc => ?_, fun id c hc hst => ?_⟩
  · rw [hget]
    split
    · rfl
    · exact hd.known x hx
  · rw [hget] at hc
    split at hc
    · next hid =>
      cases hc
      subst hid
      show (d.redemptionsOf uuid : Int) ≤ dto.maxUses
      have := dto.positiveUses
      omega
    · exact hd.capped id c hc
  · rw [hget] at hc
    split at hc
    · next hid =>
      cases hc
      subst hid
      show (d.redemptionsOf uuid : Int) ≤ 0
      omega
    · exact hd.counted id c hc hst

theorem Created.rely {uuid : Id} {dto : CreateTrialCodeDto} (h : Created uuid dto d ws)
    (hk : ∀ k ∈ ks, k ∉ store.locks ws) : CodeRely ks d (store.applyAll d ws) := by
  obtain ⟨rfl, hnone⟩ := h
  refine ⟨fun id c hc => ⟨c, Table.get?_insert_of_some hc, fun hst => hst⟩, fun id hid => ?_,
    fun x hx _ => hx⟩
  refine Table.get?_insert_ne ?_
  rintro rfl
  exact hk _ hid (by simp [Store.locks, store, Write.keys])

end

/-! ## All calls -/

/-- What each call publishes, and what it has done when it ends. -/
def trialCodeSpec (i : Nat) (op : Op) : Spec Db Write Key Error Result where
  guar := fun viaTx _ d ws =>
    match op with
    | .redeem .. => viaTx = true ∧ Redeemed d ws
    | .createTrialCode dto => viaTx = false ∧ Created i dto d ws
    | .revokeTrialCode id => viaTx = false ∧ Revoked id d ws
    | _ => viaTx = false ∧ ∃ ms, ws = [.tick ms]
  err := fun commits _ _ => commits = []
  post := fun commits _ d =>
    match op with
    | .redeem .. => ∃ ws, commits = [ws]
    | .revokeTrialCode id => d.isRevoked id
    | _ => True

def trialCodeCalls : Assume Db Write Key Op :=
  ⟨trialCodeRuns, CodeRely, fun d d' => ∀ id, d.isRevoked id → d'.isRevoked id⟩

theorem trialCode_group {i : Nat} {op : Op} {b : Bool} {held : List Key} {d : Db} {ws : List Write}
    (h : (trialCodeSpec i op).guar b held d ws) (hd : TrialCodesOK d) :
    TrialCodesOK (store.applyAll d ws) ∧
      ∀ ks : List Key, (∀ k ∈ ks, k ∉ store.locks ws) → CodeRely ks d (store.applyAll d ws) := by
  cases op with
  | redeem user code => exact ⟨h.2.ok hd, fun ks hk => h.2.rely hk⟩
  | createTrialCode dto => exact ⟨h.2.ok hd, fun ks hk => h.2.rely hk⟩
  | revokeTrialCode id => exact ⟨h.2.ok hd, fun ks hk => h.2.rely hk⟩
  | _ =>
    obtain ⟨-, ms, rfl⟩ := h
    exact ⟨⟨hd.known, hd.once, hd.capped, hd.counted⟩, fun ks _ => .of_eq rfl rfl⟩

theorem redeemFor_plain (config : Config) (uuid companyId : Id) (code : String) :
    (redeemFor config uuid companyId code).Plain (fun _ => True) (fun _ => False) fun _ => True := by
  unfold redeemFor
  refine Plain.bind (plain_select trivial _) fun found => ?_
  split
  · trivial
  · refine Plain.bind (plain_select trivial _) fun found' => ?_
    split
    · trivial
    · refine Plain.bind (plain_select trivial _) fun time => ?_
      split
      · trivial
      · refine Plain.bind (plain_select trivial _) fun time' => Plain.bind ?_ fun _ =>
          Plain.bind (plain_query trivial (fun _ _ _ => trivial) fun _ _ _ => trivial) fun _ =>
          Plain.bind (plain_ofExcept fun _ _ => trivial) fun quota =>
          Plain.bind (plain_select trivial _) fun time'' => ?_
        · exact (plain_insertUnique trivial trivial fun _ _ _ => trivial).mapError fun _ _ => trivial
        · refine Plain.bind (plain_select trivial _) fun reread => ?_
          split
          · trivial
          · split
            · trivial
            · exact plain_insertUnique trivial trivial fun _ _ _ => trivial

section

variable {config : Config} {i : Nat} {d : Db}

theorem redeem_wp {userId : Id} {code : String} {L : Rules Db Write Key Error}
    (hL : L.rely = CodeRely) :
    wp store L (trialCodeSpec i (.redeem userId code)).guar
      (trialCodeSpec i (.redeem userId code)).err (redeem config i userId code)
      (fun σ _ _ => σ.tx = none ∧ ∃ ws, σ.commits = [ws]) ⟨none, []⟩ d := by
  unfold redeem
  rw [wp_bind]
  have hp : (SubscriptionGuardService.resolveCompanyId userId).Plain (· = []) (fun _ => False)
      fun _ => True := by
    refine Plain.bind (fun _ => ⟨rfl, trivial⟩) fun found => ?_
    split <;> trivial
  refine hp.wp_reads (fun _ _ _ => rfl) (fun _ _ => trivial) (fun _ hf => hf.elim) fun t companyId _ => ?_
  refine (redeemFor_plain config i companyId code).wp_transaction (fun _ _ => trivial)
    (fun _ _ _ hf => hf.elim) (fun _ _ _ => rfl) (fun _ _ _ => rfl) fun d₁ t a d₂ _ hy hd₂ => ?_
  rw [hL] at hy hd₂
  exact ⟨⟨rfl, redeemFor_yields hy hd₂⟩, rfl, t.1, rfl⟩

theorem create_wp {dto : CreateTrialCodeDto} {L : Rules Db Write Key Error} :
    wp store L (trialCodeSpec i (.createTrialCode dto)).guar
      (trialCodeSpec i (.createTrialCode dto)).err (TrialCodeAdminService.create i dto)
      (fun σ d' c => (trialCodeSpec i (.createTrialCode dto)).final σ d' (.trialCode c))
      ⟨none, []⟩ d := by
  intro d' _
  refine ⟨fun _ _ => rfl, fun _ => ?_⟩
  cases hv : d'.trialCodeViolation (TrialCodeAdminService.newTrialCode i dto) with
  | none =>
    simp only [Store.view_none, hv]
    exact ⟨fun _ => ⟨rfl, rfl, hv⟩, rfl, trivial⟩
  | some c =>
    simp only [Store.view_none, hv]
    exact ⟨fun hne => absurd rfl hne, rfl⟩

theorem revoke_wp {id : Id} {L : Rules Db Write Key Error} (hL : L.rely = CodeRely) :
    wp store L (trialCodeSpec i (.revokeTrialCode id)).guar
      (trialCodeSpec i (.revokeTrialCode id)).err (TrialCodeAdminService.revoke id)
      (fun σ d' _ => σ.tx = none ∧ d'.isRevoked id) ⟨none, []⟩ d := by
  unfold TrialCodeAdminService.revoke
  rw [wp_bind]
  refine wp_select fun d₁ _ => ⟨fun _ _ => rfl, ?_⟩
  split
  · rfl
  · next trialCode hc =>
    have hid : trialCode.id = id := Table.key_of_get? hc
    split
    · next hst => exact ⟨rfl, trialCode, hc, hst⟩
    · unfold TrialCodeRepository.save
      rw [wp_bind]
      refine wp_select fun d₂ _ => ⟨fun _ _ => rfl, ?_⟩
      split
      · rfl
      · next reread hr =>
        have hr : d₂.trialCodes.get? id = some reread := by rw [← hid]; exact hr
        split
        · next heq =>
          have hst : setColumn TrialCodeStatus.revoked reread.status reread.status =
            reread.status := congrArg TrialCode.status heq
          rw [setColumn_reread] at hst
          exact ⟨rfl, reread, hr, hst.symm⟩
        · intro d₃ hd₃
          rw [hL] at hd₃
          obtain ⟨row, hrow, -⟩ := hd₃.code id reread hr
          have hrevoked : Revoked id d₃
              [.saveTrialCode { trialCode with status := .revoked } reread] :=
            ⟨_, _, rfl, hid, rfl, fun hst => hd₃.revoked ⟨reread, hr, hst⟩, by rw [hrow]; rfl⟩
          exact ⟨fun _ _ => rfl, fun _ => ⟨fun _ => ⟨rfl, hrevoked⟩, rfl, hrevoked.isRevoked⟩⟩

end

theorem trialCodes_sound (config : Config) :
    Sound (system config) trialCodeCalls TrialCodesOK trialCodeSpec where
  refl := .of_eq rfl rfl
  trans := .trans
  weaken := .weaken
  settled := fun hr _ hid => hr.revoked hid
  post := by
    intro i op c r d d' h hs
    cases op <;> first | trivial | exact h | exact hs _ h
  err := fun h _ => h
  step := by
    intro i op b held d ws hd h
    obtain ⟨hok, hrely⟩ := trialCode_group h hd
    exact ⟨hok, fun _ hid => (hrely [] (by simp)).revoked hid, fun _ ks hk _ => hrely ks hk⟩
  prog := by
    intro i op d _ hop
    cases op with
    | clock ms =>
      show wp store _ _ _ (write _ >>= _) _ _ d
      rw [wp_bind]
      intro d' _
      exact ⟨fun _ _ => rfl, fun _ => ⟨fun _ => ⟨rfl, ms, rfl⟩, rfl, trivial⟩⟩
    | redeem user code =>
      show wp store _ _ _ (redeem config i user code >>= _) _ _ d
      rw [wp_bind]
      exact redeem_wp rfl
    | createTrialCode dto =>
      show wp store _ _ _ (TrialCodeAdminService.create i dto >>= _) _ _ d
      rw [wp_bind]
      exact create_wp
    | revokeTrialCode id =>
      show wp store _ _ _ (TrialCodeAdminService.revoke id >>= _) _ _ d
      rw [wp_bind]
      exact revoke_wp rfl
    | _ => cases hop

/-! ## Runs -/

structure TrialCodesSafe (d₀ : Db) (s : RunState) : Prop where
  /-- At most `maxUses` redemptions of a code, at most one of a company. -/
  committed : TrialCodesOK s.db
  /-- A redemption that answers has committed, and one commits in one piece. -/
  redeemed : ∀ i user code r, s.ops[i]? = some (.redeem user code) → answer s i = some r →
    ∃ ws, commitsOf i s.log = [ws]
  commits : ∀ l g r user code, s.log = l ++ g :: r → s.ops[g.call]? = some (.redeem user code) →
    g.viaTx = true ∧ Redeemed (replay store d₀ l) g.writes
  /-- A redemption that throws has written nothing. -/
  rollback : ∀ i user code e, s.ops[i]? = some (.redeem user code) → s.call i = .done (.error e) →
    ∀ g ∈ s.log, g.call ≠ i
  revoked : ∀ i id r, s.ops[i]? = some (.revokeTrialCode id) → answer s i = some r →
    s.db.isRevoked id
  revokes : ∀ l g r id, s.log = l ++ g :: r → s.ops[g.call]? = some (.revokeTrialCode id) →
    (replay store d₀ (l ++ [g])).isRevoked id
  /-- Once a code is revoked in the committed database, no claim of it commits:
  a claim that runs later cannot, as its commit comes later still. -/
  afterwards : ∀ l r id, s.log = l ++ r → (replay store d₀ l).isRevoked id →
    ∀ g ∈ r, .incrementUsedCount id ∉ g.writes

section

variable {config : Config} {d₀ : Db} {s : RunState}

theorem trialCode_log (hs : (system config).Reach trialCodeRuns d₀ s) (h₀ : TrialCodesOK d₀)
    {l r : List (Txn.Group Write)} {g : Txn.Group Write} (hlog : s.log = l ++ g :: r) :
    ∃ op, s.ops[g.call]? = some op ∧ TrialCodesOK (replay store d₀ l) ∧
      ∃ held, (trialCodeSpec g.call op).guar g.viaTx held (replay store d₀ l) g.writes := by
  obtain ⟨op, hop, hd, hg⟩ := ((trialCodes_sound config).good h₀ hs).log hlog
  exact ⟨op, hop, hd, hg⟩

/-- A group that claims a code finds it active. -/
theorem claim_active {i : Nat} {op : Op} {b : Bool} {held : List Key} {d : Db} {ws : List Write}
    (h : (trialCodeSpec i op).guar b held d ws) {id : Id} (hw : .incrementUsedCount id ∈ ws) :
    ¬d.isRevoked id := by
  cases op with
  | redeem user code =>
    obtain ⟨-, r, code, es, rfl, hes, -, hcode, -, hactive⟩ := h
    simp only [List.mem_cons, reduceCtorEq, Write.incrementUsedCount.injEq, false_or] at hw
    rcases hw with rfl | hw
    · rintro ⟨c, hc, hst⟩
      rw [hcode] at hc
      cases hc
      rw [hactive] at hst
      cases hst
    · exact (hes _ hw).elim
  | createTrialCode dto =>
    obtain ⟨-, rfl, -⟩ := h
    simp at hw
  | revokeTrialCode id' =>
    obtain ⟨-, entity, reread, rfl, -⟩ := h
    simp at hw
  | _ =>
    obtain ⟨-, ms, rfl⟩ := h
    simp at hw

/-- A revoked code stays revoked, from one committed database to a later one. -/
theorem isRevoked_later (hs : (system config).Reach trialCodeRuns d₀ s) (h₀ : TrialCodesOK d₀)
    {l m r : List (Txn.Group Write)} (hlog : s.log = l ++ m ++ r) {id : Id}
    (hid : (replay store d₀ l).isRevoked id) : (replay store d₀ (l ++ m)).isRevoked id := by
  induction m using List.reverseRecOn generalizing r with
  | nil =>
    rw [List.append_nil]
    exact hid
  | append_singleton m g ih =>
    have hlog' : s.log = l ++ m ++ g :: r := by simp [hlog]
    have hm := ih hlog'
    obtain ⟨op, -, hd, held, hg⟩ := trialCode_log hs h₀ hlog'
    rw [← List.append_assoc, replay_snoc]
    exact ((trialCode_group hg hd).2 [] (by simp)).revoked hm

end

/-- Trial codes are redeemed within their limit, once a company, never after a
revocation, and all or nothing, however the calls interleave and fail. -/
theorem trial_codes_safe (config : Config) (d₀ : Db) (s : RunState)
    (hs : (system config).Reach trialCodeRuns d₀ s) (h₀ : TrialCodesOK d₀) :
    TrialCodesSafe d₀ s := by
  have hgood := (trialCodes_sound config).good h₀ hs
  have returned : ∀ i r, answer s i = some r → s.call i = .done (.ok r) := by
    intro i r h
    unfold answer at h
    split at h
    · next r' hr =>
      cases h
      exact hr
    · cases h
  refine ⟨hgood.inv, fun i user code r hop hans => ?_, fun l g r user code hlog hop => ?_,
    fun i user code e hop he g hg hgi => ?_, fun i id r hop hans => ?_, fun l g r id hlog hop => ?_,
    fun l r id hlog hid g hg hw => ?_⟩
  · have hcall := hgood.call hop
    rw [returned i r hans] at hcall
    exact hcall
  · obtain ⟨op, hop', -, held, hguar⟩ := trialCode_log hs h₀ hlog
    rw [hop] at hop'
    cases hop'
    exact hguar
  · have hcall := hgood.call hop
    rw [he] at hcall
    obtain ⟨l, r, hlog⟩ := List.append_of_mem hg
    obtain ⟨op, hop', -, held, hguar⟩ := trialCode_log hs h₀ hlog
    rw [hgi, hop] at hop'
    cases hop'
    have hmem : g.writes ∈ commitsOf i s.log :=
      List.mem_map_of_mem (List.mem_filter.2 ⟨hg, by simp [hgi, hguar.1]⟩)
    rw [hcall] at hmem
    cases hmem
  · have hcall := hgood.call hop
    rw [returned i r hans] at hcall
    exact hcall
  · obtain ⟨op, hop', -, held, hguar⟩ := trialCode_log hs h₀ hlog
    rw [hop] at hop'
    cases hop'
    rw [replay_snoc]
    exact hguar.2.isRevoked
  · obtain ⟨m, r', rfl⟩ := List.append_of_mem hg
    have hlog' : s.log = l ++ m ++ g :: r' := by simp [hlog]
    obtain ⟨op, -, -, held, hguar⟩ := trialCode_log hs h₀ hlog'
    exact claim_active hguar hw (isRevoked_later hs h₀ hlog' hid)

/-- A company on its trial, and a trial code that may be used twice. -/
def trialCompany : Db :=
  { Db.empty with
    now := 1000
    companies := Table.insert ∅ ⟨100, "Atlas", none, none⟩
    recruiters := Table.insert ∅ ⟨200, 300, 100⟩
    trialCodes := Table.insert ∅ ⟨60, "ESSAI", .growth, 30, 2, 0, .active, none⟩
    subscriptions := Table.insert ∅
      { id := 50
        companyId := 100
        plan := .starter
        status := .trial
        externalSubscriptionId := none
        startsAt := 0
        endsAt := none
        contactQuota := 5
        contactsUsed := 0
        pastDueSince := none
        cancelAtPeriodEnd := false
        createdAt := 0 } }

/-- A revocation that loaded the code before a redemption writes its old counter
back, onto a revoked row. -/
theorem trial_codes_safe_stale : ∃ s : RunState, (s.db.trialCodes.get? 60).map (fun c =>
    (c.usedCount, c.status)) = some (0, .revoked) ∧ s.db.redemptionsOf 60 = 1 ∧
    TrialCodesSafe trialCompany s := by
  have hrun : ((system .default).runLabels trialCodeRuns (State.init trialCompany)
      ([.spawn (.revokeTrialCode 60), .step 0] ++ alone 1 (.redeem 300 "ESSAI") 13 ++
        List.replicate 3 (.step 0))).map
      (fun s => ((s.db.trialCodes.get? 60).map fun c => (c.usedCount, c.status),
        s.db.redemptionsOf 60)) = some (some (0, .revoked), 1) := by
    decide
  obtain ⟨s, hs, hst⟩ := System.reach_of_run hrun
  simp only [Prod.mk.injEq] at hst
  refine ⟨s, hst.1, hst.2, trial_codes_safe .default trialCompany s hs ⟨?_, ?_, ?_, ?_⟩⟩
  · intro r hr
    cases hr
  · intro r hr
    cases hr
  · intro id c hc
    obtain ⟨hmem, -⟩ := Table.get?_eq_some.1 hc
    obtain rfl : c = ⟨60, "ESSAI", .growth, 30, 2, 0, .active, none⟩ := List.mem_singleton.1 hmem
    show (0 : Int) ≤ 2
    decide
  · intro id c hc _
    obtain ⟨hmem, -⟩ := Table.get?_eq_some.1 hc
    obtain rfl : c = ⟨60, "ESSAI", .growth, 30, 2, 0, .active, none⟩ := List.mem_singleton.1 hmem
    show (0 : Int) ≤ 0
    decide

end JobBoard
