import JobBoard.Companies.Seats
import JobBoard.Companies.Teams

/-!
# Departures

`recruiter_leaves`: only another recruiter of the company removes a recruiter. `company_emptied`: a
company loses its last recruiter only where the one who removes was removed meanwhile.
`role_kept`: a recruiter that a call has attached has the role, unless another membership of the
user ends, or begins, at the same time.
-/

set_option autoImplicit false

namespace JobBoard.Companies.Teams

open Txn Prog

/-! ## The rows of recruiters -/

section

variable {env : Environment} {d₀ db : Db} {s : RunState} {A B : Log} {id companyId userId : Id}
  {r : Recruiter} {w : Write}

/-- The uuids that the calls have drawn are new. -/
def NewIds (d₀ : Db) (s : RunState) : Prop :=
  ∀ i, i < s.ops.length → d₀.base.recruiters.get? i = none

theorem published (h : (system env).Reachable d₀ s) {l : Log} {g : Txn.Group Write}
    (hl : l ++ [g] <+: s.log) :
    ∃ op w, g = ⟨g.call, false, [w]⟩ ∧ s.ops[g.call]? = some op ∧ Guarantee d₀ g.call op l w := by
  obtain ⟨op, w, t, hg, hop, ht⟩ := (followed env d₀).published h.within hl
  exact ⟨op, w, hg, hop, ht.promised⟩

theorem written (h : (system env).Reachable d₀ s) {i : Nat} (hw : WrittenAt s.log A i w) :
    ∃ op, s.ops[i]? = some op ∧ Guarantee d₀ i op A w := by
  obtain ⟨op, w', hg, hop, hG⟩ := published h hw
  cases hg
  exact ⟨op, hop, hG⟩

theorem recruiters_apply (db : Db) (w : Write) :
    (∃ r, w = .base (.insertRecruiter r)) ∨ (∃ id, w = .deleteRecruiter id) ∨
      (store.apply db w).base.recruiters = db.base.recruiters := by
  cases w with
  | base w =>
    cases w with
    | insertRecruiter r => exact .inl ⟨r, rfl⟩
    | _ => exact .inr (.inr rfl)
  | deleteRecruiter id => exact .inr (.inl ⟨id, rfl⟩)
  | _ => exact .inr (.inr rfl)

/-- A row stays as it is until it is deleted. -/
theorem row_apply (h : db.base.recruiters.get? id = some r) (w : Write) :
    (store.apply db w).base.recruiters.get? id = some r ∨
      (w = .deleteRecruiter id ∧ (store.apply db w).base.recruiters.get? id = none) := by
  rcases recruiters_apply db w with ⟨r', rfl⟩ | ⟨id', rfl⟩ | hsame
  · exact .inl (Table.get?_insert_of_some h)
  · have hget : (store.apply db (.deleteRecruiter id')).base.recruiters.get? id =
        if id = id' then none else db.base.recruiters.get? id := Table.get?_delete
    split at hget
    · next hid => exact .inr ⟨by rw [hid], hget⟩
    · exact .inl (hget.trans h)
  · exact .inl (by rw [hsame, h])

theorem row_new (h : db.base.recruiters.get? id = none)
    (hr : (store.apply db w).base.recruiters.get? id = some r) :
    w = .base (.insertRecruiter r) ∧ r.id = id := by
  have hid := recruiter_id hr
  rcases recruiters_apply db w with ⟨r', rfl⟩ | ⟨id', rfl⟩ | hsame
  · have hmem : r ∈ (db.base.recruiters.insert r').rows := Table.mem_of_get? hr
    rcases Table.mem_insert hmem with hold | rfl
    · exact absurd hid (Table.get?_eq_none.1 h r hold)
    · exact ⟨rfl, hid⟩
  · have hget : (store.apply db (.deleteRecruiter id')).base.recruiters.get? id =
        if id = id' then none else db.base.recruiters.get? id := Table.get?_delete
    rw [hr, h] at hget
    split at hget <;> cases hget
  · rw [hsame, h] at hr
    cases hr

/-- The row was there at the start, or its call has inserted it. -/
def Used (d₀ : Db) (L : Log) (id : Id) : Prop :=
  d₀.base.recruiters.get? id ≠ none ∨ ∃ A r, WrittenAt L A id (.base (.insertRecruiter r))

theorem Used.mono (h : Used d₀ A id) (hl : A <+: B) : Used d₀ B id := by
  refine h.imp_right ?_
  rintro ⟨C, r, hw⟩
  exact ⟨C, r, hw.mono hl⟩

theorem used_of_row (h : (system env).Reachable d₀ s) (hA : A <+: s.log)
    (hr : (d₀.at A).base.recruiters.get? id = some r) : Used d₀ A id := by
  refine along_log (L := s.log)
    (I := fun L => ∀ r, (d₀.at L).base.recruiters.get? id = some r → Used d₀ L id)
    (fun r hr => ?_) (fun l g hl ih r hr => ?_) A hA r hr
  · exact .inl fun hnone => Option.some_ne_none r (hr.symm.trans hnone)
  · cases hold : (d₀.at l).base.recruiters.get? id with
    | some r₀ => exact (ih r₀ hold).mono (List.prefix_append _ _)
    | none =>
      obtain ⟨op, w, hg, -, hG⟩ := published h hl
      rw [hg, at_snoc] at hr
      obtain ⟨rfl, hid⟩ := row_new hold hr
      have hcall : g.call = id := hG.1.symm.trans hid
      refine .inr ⟨l, r, ?_⟩
      rw [hg, hcall]
      exact writtenAt_self _ _ _

/-- A row that was deleted does not come back. -/
theorem stays_gone (h : (system env).Reachable d₀ s) (hnew : NewIds d₀ s) (hAB : A <+: B)
    (hB : B <+: s.log) (hused : Used d₀ A id) (hnone : (d₀.at A).base.recruiters.get? id = none) :
    (d₀.at B).base.recruiters.get? id = none := by
  refine along_log_from (L := s.log) (A := A)
    (I := fun L => (d₀.at L).base.recruiters.get? id = none) hnone (fun l g hAl hl ih => ?_)
    B hAB hB
  obtain ⟨op, w, hg, hop, hG⟩ := published h hl
  rw [hg, at_snoc]
  cases hnow : (store.apply (d₀.at l) w).base.recruiters.get? id with
  | none => rfl
  | some r =>
    obtain ⟨rfl, hid⟩ := row_new ih hnow
    have hcall : g.call = id := hG.1.symm.trans hid
    rcases hused.mono hAl with hstart | ⟨C, r', hw⟩
    · exact absurd (hnew id (hcall ▸ (List.getElem?_eq_some_iff.1 hop).1)) hstart
    · have hunwritten := hG.2.1 C _ (hcall.symm ▸ hw)
      simp [beside] at hunwritten

theorem same_row (h : (system env).Reachable d₀ s) (hnew : NewIds d₀ s) (hAB : A <+: B)
    (hB : B <+: s.log) {r' : Recruiter} (hr : (d₀.at A).base.recruiters.get? id = some r)
    (hr' : (d₀.at B).base.recruiters.get? id = some r') :
    r' = r ∧ ∀ M, A <+: M → M <+: B → (d₀.at M).base.recruiters.get? id = some r := by
  have either : ∀ M, A <+: M → M <+: s.log → (d₀.at M).base.recruiters.get? id = some r ∨
      (d₀.at M).base.recruiters.get? id = none := by
    refine along_log_from (.inl hr) fun l g hAl hl ih => ?_
    rcases ih with hsome | hnone
    · obtain ⟨op, w, hg, -, -⟩ := published h hl
      rw [hg, at_snoc]
      exact (row_apply hsome w).imp_right And.right
    · refine .inr (stays_gone h hnew (List.prefix_append _ _) hl ?_ hnone)
      exact (used_of_row h (hAB.trans hB) hr).mono hAl
  constructor
  · rcases either B hAB hB with hsome | hnone
    · exact Option.some.inj (hr'.symm.trans hsome)
    · cases hr'.symm.trans hnone
  · intro M hAM hMB
    refine (either M hAM (hMB.trans hB)).resolve_right fun hnone => ?_
    have hused := (used_of_row h (hAB.trans hB) hr).mono hAM
    cases hr'.symm.trans (stays_gone h hnew hMB hB hused hnone)

theorem row_leaves (h : (system env).Reachable d₀ s) (hAB : A <+: B) (hB : B <+: s.log)
    (hr : (d₀.at A).base.recruiters.get? id = some r)
    (hnone : (d₀.at B).base.recruiters.get? id = none) :
    ∃ C i, A <+: C ∧ WrittenAt B C i (.deleteRecruiter id) ∧
      (d₀.at C).base.recruiters.get? id = some r := by
  have either : ∀ M, A <+: M → M <+: s.log → (d₀.at M).base.recruiters.get? id = some r ∨
      ∃ C i, A <+: C ∧ WrittenAt M C i (.deleteRecruiter id) ∧
        (d₀.at C).base.recruiters.get? id = some r := by
    refine along_log_from (.inl hr) fun l g hAl hl ih => ?_
    rcases ih with hsome | ⟨C, i, hC, hw, hrow⟩
    · obtain ⟨op, w, hg, -, -⟩ := published h hl
      rw [hg, at_snoc]
      rcases row_apply hsome w with hkept | ⟨rfl, -⟩
      · exact .inl hkept
      · exact .inr ⟨l, g.call, hAl, writtenAt_self _ _ _, hsome⟩
    · exact .inr ⟨C, i, hC, hw.mono (List.prefix_append _ _), hrow⟩
  refine (either B hAB hB).resolve_left fun hsome => ?_
  cases hsome.symm.trans hnone

/-- The removal that deletes a row has found this row, in the company of its caller. -/
theorem deletes (h : (system env).Reachable d₀ s) (hnew : NewIds d₀ s) {i : Nat}
    (hw : WrittenAt s.log A i (.deleteRecruiter id))
    (hr : (d₀.at A).base.recruiters.get? id = some r) :
    ∃ callerId, s.ops[i]? = some (.removeRecruiter callerId id) ∧ Unwritten i isRemoval A ∧
      Selected d₀ i A callerId r := by
  obtain ⟨op, hop, hunwritten, callerId, r', rfl, rfl, hselected⟩ := written h hw
  have hfound := hselected
  obtain ⟨M, N, own, hM, hN, hown, hcompany, hget, hother⟩ := hfound
  obtain ⟨rfl, -⟩ := same_row h hnew hN hw.onto hget hr
  exact ⟨callerId, hop, hunwritten, hselected⟩

/-- A recruiter leaves only by a removal, by another recruiter of the company. -/
theorem recruiter_leaves (h : (system env).Reachable d₀ s) (hnew : NewIds d₀ s) (hAB : A <+: B)
    (hB : B <+: s.log) (hr : (d₀.at A).base.recruiters.get? id = some r) :
    (d₀.at B).base.recruiters.get? id = some r ∨ ∃ C i callerId,
      (d₀.at B).base.recruiters.get? id = none ∧ A <+: C ∧
        WrittenAt B C i (.deleteRecruiter id) ∧
        s.ops[i]? = some (.removeRecruiter callerId id) ∧ Selected d₀ i C callerId r := by
  cases hnow : (d₀.at B).base.recruiters.get? id with
  | some r' =>
    obtain ⟨rfl, -⟩ := same_row h hnew hAB hB hr hnow
    exact .inl rfl
  | none =>
    obtain ⟨C, i, hC, hw, hrow⟩ := row_leaves h hAB hB hr hnow
    obtain ⟨callerId, hop, -, hselected⟩ := deletes h hnew (hw.mono hB) hrow
    exact .inr ⟨C, i, callerId, rfl, hC, hw, hop, hselected⟩

/-! ## The last recruiter of a company -/

def Staffed (db : Db) (companyId : Id) : Prop :=
  ∃ r ∈ db.base.recruiters.rows, r.companyId = companyId

/-- Call `i` removes a recruiter of the company at the moment `A`. Its caller was in the company
when `i` looked, and since then the other call `j` has removed the caller. -/
def Overtaken (d₀ : Db) (s : RunState) (A : Log) (i j : Nat) (companyId : Id) : Prop :=
  ∃ callerId id own B C callerId', s.ops[i]? = some (.removeRecruiter callerId id) ∧
    WrittenAt s.log A i (.deleteRecruiter id) ∧ WrittenAt A B i (.resolved callerId companyId) ∧
    (d₀.at B).base.recruiterOf callerId = some own ∧ own.companyId = companyId ∧ B <+: C ∧
    j ≠ i ∧ s.ops[j]? = some (.removeRecruiter callerId' own.id) ∧
    WrittenAt A C j (.deleteRecruiter own.id)

theorem recruiterOf_some (h : db.base.recruiterOf userId = some r) :
    db.base.recruiters.get? r.id = some r ∧ r.userId = userId := by
  have huser := List.find?_some h
  exact ⟨Table.get?_of_mem (List.mem_of_find?_eq_some h), of_decide_eq_true huser⟩

/-- A removal that leaves the company without recruiters has been overtaken. -/
theorem emptied_overtaken (h : (system env).Reachable d₀ s) (hnew : NewIds d₀ s) {i : Nat}
    (hw : WrittenAt s.log A i (.deleteRecruiter id)) (hsome : Staffed (d₀.at A) companyId)
    (hnone : ¬ Staffed (d₀.at (A ++ [⟨i, false, [.deleteRecruiter id]⟩])) companyId) :
    ∃ j, Overtaken d₀ s A i j companyId := by
  have survives : ∀ {r : Recruiter}, (d₀.at A).base.recruiters.get? r.id = some r →
      r.companyId = companyId → r.id = id := by
    intro r hr hcompany
    rw [at_snoc] at hnone
    rcases row_apply hr (.deleteRecruiter id) with hkept | ⟨heq, -⟩
    · exact absurd ⟨r, Table.mem_of_get? hkept, hcompany⟩ hnone
    · cases heq
      rfl
  obtain ⟨r, hmem, hcompany⟩ := hsome
  have hr : (d₀.at A).base.recruiters.get? r.id = some r := Table.get?_of_mem hmem
  obtain rfl := survives hr hcompany
  obtain ⟨callerId, hop, hunwritten, M, N, own, hM, hN, hown, hsame, hget, hother⟩ :=
    deletes h hnew hw hr
  have hMA : M <+: A := hM.onto.trans hN
  obtain ⟨hownrow, huser⟩ := recruiterOf_some hown
  have hgone : (d₀.at A).base.recruiters.get? own.id = none := by
    cases hnow : (d₀.at A).base.recruiters.get? own.id with
    | none => rfl
    | some own' =>
      obtain ⟨rfl, hall⟩ := same_row h hnew hMA hw.onto hownrow hnow
      -- the row of the caller would be the one that was found, of another user
      have hid := survives hnow (hsame.trans hcompany)
      have hfound := hall N hM.onto hN
      rw [hid, hget] at hfound
      cases hfound
      exact absurd huser hother
  obtain ⟨C, j, hMC, hC, hrow⟩ := row_leaves h hMA hw.onto hownrow hgone
  obtain ⟨callerId', hop', -, -⟩ := deletes h hnew (hC.mono hw.onto) hrow
  refine ⟨j, callerId, r.id, own, M, C, callerId', hop, hw, hcompany ▸ hM.mono hN, hown,
    hsame.trans hcompany, hMC, ?_, hop', hC⟩
  rintro rfl
  exact Bool.noConfusion (hunwritten C _ hC)

/-- A company loses its last recruiter only to a removal that was overtaken by another. -/
theorem company_emptied (h : (system env).Reachable d₀ s) (hnew : NewIds d₀ s) (hAB : A <+: B)
    (hB : B <+: s.log) (hsome : Staffed (d₀.at A) companyId)
    (hnone : ¬ Staffed (d₀.at B) companyId) :
    ∃ C i j, A <+: C ∧ C <+: B ∧ Overtaken d₀ s C i j companyId := by
  have either : ∀ M, A <+: M → M <+: s.log → Staffed (d₀.at M) companyId ∨
      ∃ C i j, A <+: C ∧ C <+: M ∧ Overtaken d₀ s C i j companyId := by
    refine along_log_from (.inl hsome) fun l g hAl hl ih => ?_
    have hlg : l <+: l ++ [g] := List.prefix_append _ _
    rcases ih with hstaffed | ⟨C, i, j, hAC, hC, hovertaken⟩
    · by_cases hstill : Staffed (d₀.at (l ++ [g])) companyId
      · exact .inl hstill
      · obtain ⟨op, w, hg, -, hG⟩ := published h hl
        have hw : WrittenAt s.log l g.call w := by
          rw [hg] at hl
          exact hl
        rw [hg] at hstill
        rcases recruiters_apply (d₀.at l) w with ⟨r, rfl⟩ | ⟨id, rfl⟩ | hsame
        · obtain ⟨r', hmem, hcompany⟩ := hstaffed
          rw [at_snoc] at hstill
          exact absurd ⟨r', Table.mem_insert_of_mem hmem, hcompany⟩ hstill
        · obtain ⟨j, hovertaken⟩ := emptied_overtaken h hnew hw hstaffed hstill
          exact .inr ⟨l, g.call, j, hAl, hlg, hovertaken⟩
        · rw [at_snoc, Staffed, hsame] at hstill
          exact absurd hstaffed hstill
    · exact .inr ⟨C, i, j, hAC, hC.trans hlg, hovertaken⟩
  exact (either B hAB hB).resolve_left hnone

/-! ## The role of a recruiter -/

/-- No user is a recruiter twice. -/
def OneEach (db : Db) : Prop :=
  ∀ r ∈ db.base.recruiters.rows, ∀ r' ∈ db.base.recruiters.rows, r.userId = r'.userId → r = r'

/-- A membership of the user was there before `A` which call `i` removes, or which it has begun
with a company. -/
def Reassigns (d₀ : Db) (s : RunState) (A : Log) (i : Nat) (userId : Id) : Prop :=
  (∃ callerId r B C, s.ops[i]? = some (.removeRecruiter callerId r.id) ∧ r.userId = userId ∧
    WrittenAt C B i (.resolved callerId r.companyId) ∧ C <+: A ∧
    (d₀.at C).base.recruiters.get? r.id = some r) ∨
  (s.ops[i]? = some (.createCompany userId) ∧ ∃ B r,
    WrittenAt A B i (.base (.insertRecruiter r)) ∧ r.userId = userId)

theorem recruiterOf_none (h : db.base.recruiterOf userId = none) :
    ∀ r ∈ db.base.recruiters.rows, r.userId ≠ userId := by
  intro r hr huser
  have hnone := List.find?_eq_none.1 h r hr
  exact hnone (decide_eq_true huser)

theorem oneEach_at (h : (system env).Reachable d₀ s) (h₀ : OneEach d₀) :
    ∀ L, L <+: s.log → OneEach (d₀.at L) := by
  refine along_log h₀ fun l g hl ih => ?_
  obtain ⟨op, w, hg, -, hG⟩ := published h hl
  rw [hg, at_snoc]
  rcases recruiters_apply (d₀.at l) w with ⟨r, rfl⟩ | ⟨id, rfl⟩ | hsame
  · have hfree := recruiterOf_none hG.2.2.2
    intro r₁ hr₁ r₂ hr₂ huser
    rcases Table.mem_insert hr₁ with hold₁ | rfl <;> rcases Table.mem_insert hr₂ with hold₂ | rfl
    · exact ih r₁ hold₁ r₂ hold₂ huser
    · exact absurd huser (hfree r₁ hold₁)
    · exact absurd huser.symm (hfree r₂ hold₂)
    · rfl
  · intro r₁ hr₁ r₂ hr₂ huser
    exact ih r₁ (List.mem_filter.1 hr₁).1 r₂ (List.mem_filter.1 hr₂).1 huser
  · rw [OneEach, hsame]
    exact ih

/-- Only a write of the roles takes the role away. -/
theorem isRecruiter_apply (h : IsRecruiter db userId)
    (hnew : ∀ u, w = .base (.insertUser u) → .recruiter ∈ u.roles) :
    IsRecruiter (store.apply db w) userId ∨
      ∃ roles, w = .base (.setRoles userId roles) ∧ .recruiter ∉ roles := by
  cases w with
  | base w =>
    cases w with
    | insertUser u =>
      refine .inl fun user huser => ?_
      have hmem : user ∈ (db.base.users.insert u).rows := Table.mem_of_get? huser
      rcases Table.mem_insert hmem with hold | rfl
      · have hid := Table.get?_of_mem hold
        rw [show user.id = userId from id_of_get? huser] at hid
        exact h user hid
      · exact hnew _ rfl
    | setRoles userId' roles =>
      have hget : (store.apply db (.base (.setRoles userId' roles))).base.users.get? userId =
          if userId = userId'
          then (db.base.users.get? userId).map fun u => { u with roles := roles }
          else db.base.users.get? userId :=
        Table.get?_modify (fun u : User => { u with roles := roles }) fun _ => rfl
      by_cases hid : userId = userId'
      · subst hid
        rw [if_pos rfl] at hget
        by_cases hrole : Role.recruiter ∈ roles
        · refine .inl fun user huser => ?_
          rw [hget, Option.map_eq_some_iff] at huser
          obtain ⟨u, -, rfl⟩ := huser
          exact hrole
        · exact .inr ⟨roles, rfl, hrole⟩
      · rw [if_neg hid] at hget
        exact .inl fun user huser => h user (hget ▸ huser)
    | verifyUser userId' =>
      have hget : (store.apply db (.base (.verifyUser userId'))).base.users.get? userId =
          if userId = userId' then (db.base.users.get? userId).map
            fun u => { u with emailVerified := true, status := .active }
          else db.base.users.get? userId :=
        Table.get?_modify (fun u : User => { u with emailVerified := true, status := .active })
          fun _ => rfl
      refine .inl fun user huser => ?_
      rw [hget] at huser
      split at huser
      · obtain ⟨u, hu, rfl⟩ := Option.map_eq_some_iff.1 huser
        exact h u hu
      · exact h user huser
    | _ => exact .inl h
  | _ => exact .inl h

/-- Who takes the role away from the user of a recruiter that stays. -/
theorem strips_reassigns (h : (system env).Reachable d₀ s) (hnew : NewIds d₀ s) (hone : OneEach d₀)
    {i j : Nat} {op' : Companies.Op} {roles : List Role} (hi : s.ops[i]? = some (.recruiters op'))
    (hw : WrittenAt s.log A i (.base (.insertRecruiter r)))
    (hr : (d₀.at s.log).base.recruiters.get? r.id = some r)
    (hstrip : WrittenAt s.log B j (.base (.setRoles r.userId roles))) (hrole : .recruiter ∉ roles) :
    Reassigns d₀ s A j r.userId := by
  obtain ⟨-, -, -, -, hfresh, -⟩ := written h hw
  have hrow : (d₀.at (A ++ [⟨i, false, [.base (.insertRecruiter r)]⟩])).base.recruiters.get? r.id =
      some r := by
    rw [at_snoc]
    exact Table.get?_insert_self hfresh
  obtain ⟨-, hall⟩ := same_row h hnew hw List.prefix_rfl hrow hr
  have ordered : ∀ {C : Log}, C <+: s.log →
      C <+: A ∨ A ++ [⟨i, false, [.base (.insertRecruiter r)]⟩] <+: C := by
    intro C hC
    rcases List.prefix_or_prefix_of_prefix hC hw with hp | hp
    · rcases List.prefix_concat_iff.1 hp with rfl | hp
      · exact .inr List.prefix_rfl
      · exact .inl hp
    · exact .inr hp
  obtain ⟨op, hop, hG⟩ := written h hstrip
  rcases hG with hgives | hremoves | hfounds
  · exact absurd hgives hrole
  · obtain ⟨callerId, r', D, rfl, huser, ⟨M, N, own, hM, hN, -, -, hget, -⟩, hD⟩ := hremoves
    have hDlog := hD.mono hstrip.onto
    have hNlog : N <+: s.log := hN.trans hDlog.onto
    rcases ordered hNlog with hearlier | hlater
    · exact .inl ⟨callerId, r', M, N, hop, huser, hM, hearlier, hget⟩
    · -- the removal would have found the row of the recruiter, and deleted it
      have hmem := Table.mem_of_get? (hall N hlater hNlog)
      obtain rfl := oneEach_at h hone N hNlog _ (Table.mem_of_get? hget) _ hmem huser
      have hgone : (d₀.at (D ++ [⟨j, false, [.deleteRecruiter r'.id]⟩])).base.recruiters.get?
          r'.id = none := by
        rw [at_snoc]
        exact Table.get?_delete.trans (if_pos rfl)
      have hstill := hall _ (hlater.trans (hN.trans (List.prefix_append _ _))) hDlog
      cases hstill.symm.trans hgone
  · obtain ⟨rfl, D, r', hD, huser⟩ := hfounds
    have hDlog := hD.mono hstrip.onto
    rcases ordered hDlog with hearlier | hlater
    · exact .inr ⟨hop, D, r', hearlier, huser⟩
    · rcases List.prefix_concat_iff.1 hlater with heq | hlater
      · obtain ⟨-, rfl, -⟩ := writtenAt_inj heq
        cases hi.symm.trans hop
      · obtain ⟨-, -, -, -, -, hfree⟩ := written h hDlog
        have hmem := Table.mem_of_get? (hall D hlater hDlog.onto)
        exact absurd huser.symm (recruiterOf_none hfree r hmem)

/-- A recruiter whom a call has attached has the role, unless another membership of the user has
ended, or begun, at the same time: what takes the role away was there before the recruiter, and
writes the roles after the call has counted the seats. -/
theorem role_kept (h : (system env).Reachable d₀ s) (hnew : NewIds d₀ s) (hone : OneEach d₀)
    {i : Nat} {op : Companies.Op} {result : Result} (hop : s.ops[i]? = some (.recruiters op))
    (hdone : s.call i = .done (.ok result))
    (hw : WrittenAt s.log A i (.base (.insertRecruiter r)))
    (hr : s.db.base.recruiters.get? r.id = some r) :
    IsRecruiter s.db r.userId ∨ ∃ B seats C j roles,
      WrittenAt s.log B i (.base (.countSeats r.companyId seats)) ∧ B <+: C ∧
        WrittenAt s.log C j (.base (.setRoles r.userId roles)) ∧ .recruiter ∉ roles ∧
        Reassigns d₀ s A j r.userId := by
  have hdb : s.db = d₀.at s.log := (followed env d₀).db h.within
  rw [hdb] at hr ⊢
  obtain ⟨B, seats, M, hB, hBM, hM, hrole⟩ :=
    (followed env d₀).done h.within hop hdone op rfl A r hw
  have either : ∀ L, M <+: L → L <+: s.log → IsRecruiter (d₀.at L) r.userId ∨ ∃ C j roles,
      M <+: C ∧ WrittenAt s.log C j (.base (.setRoles r.userId roles)) ∧ .recruiter ∉ roles := by
    refine along_log_from (.inl hrole) fun l g hMl hl ih => ?_
    rcases ih with hkept | hlost
    · obtain ⟨op', w, hg, -, hG⟩ := published h hl
      have hw' : WrittenAt s.log l g.call w := by
        rw [hg] at hl
        exact hl
      rw [hg, at_snoc]
      refine (isRecruiter_apply hkept ?_).imp_right ?_
      · rintro u rfl
        exact hG
      · rintro ⟨roles, rfl, hnot⟩
        exact ⟨l, g.call, roles, hMl, hw', hnot⟩
    · exact .inr hlost
  refine (either s.log hM List.prefix_rfl).imp_right ?_
  rintro ⟨C, j, roles, hMC, hC, hnot⟩
  exact ⟨B, seats, C, j, roles, hB, hBM.trans hMC, hC, hnot,
    strips_reassigns h hnew hone hop hw hr hC hnot⟩

end

/-! ## Two removals at once -/

/-- Company 3 has the recruiters 7 and 8. -/
def twoRecruiters : Db := ⟨growingCompany, []⟩

theorem newIds_of {d₀ : Db} {s : RunState}
    (h : (List.range s.ops.length).all
      (fun i => (d₀.base.recruiters.get? i).isNone) = true) : NewIds d₀ s :=
  fun i hi => Option.isNone_iff_eq_none.1 (List.all_eq_true.1 h i (List.mem_range.2 hi))

theorem recruiter_leaves_removed : ∃ (s : RunState) (C : Log) (i : Nat) (callerId : Id),
    (system plainEnvironment).Reachable twoRecruiters s ∧
      WrittenAt s.log C i (.deleteRecruiter 108) ∧
      Selected twoRecruiters i C callerId ⟨⟨108, 8, 3⟩, none, 0⟩ := by
  have hrun : (((system plainEnvironment).runLabels .all (State.init twoRecruiters)
      (.spawn (.removeRecruiter 7 108) :: steps 0 3)).map fun s =>
        (s.ops.length, (twoRecruiters.at s.log).base.recruiters.get? 108)) =
      some (1, none) := by rfl
  obtain ⟨s, hs, he⟩ := System.reach_of_run hrun
  obtain ⟨hlength, hgone⟩ := Prod.mk.inj he
  have hnew : NewIds twoRecruiters s := newIds_of (by rw [hlength]; rfl)
  have hrow : (twoRecruiters.at []).base.recruiters.get? 108 = some ⟨⟨108, 8, 3⟩, none, 0⟩ := rfl
  rcases recruiter_leaves hs hnew List.nil_prefix List.prefix_rfl hrow with
    hstays | ⟨C, i, callerId, -, -, hw, -, hselected⟩
  · cases hstays.symm.trans hgone
  · exact ⟨s, C, i, callerId, hs, hw, hselected⟩

/-- The two recruiters of a company remove each other. -/
theorem company_emptied_both : ∃ (s : RunState) (C : Log) (i j : Nat),
    (system plainEnvironment).Reachable twoRecruiters s ∧ Overtaken twoRecruiters s C i j 3 := by
  have hrun : (((system plainEnvironment).runLabels .all (State.init twoRecruiters)
      (.spawn (.removeRecruiter 7 108) :: steps 0 2 ++ .spawn (.removeRecruiter 8 107) ::
        steps 1 2 ++ steps 0 1 ++ steps 1 1)).map fun s =>
        (s.ops.length, (twoRecruiters.at s.log).base.recruiters.rows)) = some (2, []) := by rfl
  obtain ⟨s, hs, he⟩ := System.reach_of_run hrun
  obtain ⟨hlength, hempty⟩ := Prod.mk.inj he
  have hnew : NewIds twoRecruiters s := newIds_of (by rw [hlength]; rfl)
  have hsome : Staffed (twoRecruiters.at []) 3 := ⟨⟨⟨107, 7, 3⟩, none, 0⟩, by decide, rfl⟩
  have hnone : ¬ Staffed (twoRecruiters.at s.log) 3 := by
    rintro ⟨r, hr, -⟩
    rw [hempty] at hr
    cases hr
  obtain ⟨C, i, j, -, -, hovertaken⟩ :=
    company_emptied hs hnew List.nil_prefix List.prefix_rfl hsome hnone
  exact ⟨s, C, i, j, hs, hovertaken⟩

/-- The user 10 is a recruiter of company 4 beside 9, and 7 one of company 3. -/
def twoCompanies : Db :=
  ⟨{ growingCompany with
      users := ⟨[⟨⟨10, true, [.recruiter]⟩, "a@x.ma", "", .active⟩], by decide⟩
      recruiters := ⟨[⟨⟨107, 7, 3⟩, none, 0⟩, ⟨⟨109, 9, 4⟩, none, 0⟩, ⟨⟨110, 10, 4⟩, none, 0⟩],
        by decide⟩ }, []⟩

/-- Company 3 takes the user on while company 4 removes it: the role is lost. -/
theorem role_kept_moved : ∃ (s : RunState) (A C : Log) (j : Nat) (roles : List Role),
    (system plainEnvironment).Reachable twoCompanies s ∧ ¬ IsRecruiter s.db 10 ∧
      WrittenAt s.log C j (.base (.setRoles 10 roles)) ∧ Reassigns twoCompanies s A j 10 := by
  let moved : Recruiter := ⟨⟨1, 10, 3⟩, none, 0⟩
  have hrun : (((system plainEnvironment).runLabels .all (State.init twoCompanies)
      (.spawn (.removeRecruiter 9 110) :: steps 0 4 ++
        .spawn (.recruiters (.addRecruiter 7 ⟨"a@x.ma", none⟩)) :: steps 1 8 ++ steps 0 1)).map
      fun s => (s.ops, s.call 1, decide (WrittenAt s.log (s.log.take 3) 1
        (.base (.insertRecruiter moved))), s.db.base.recruiters.get? 1,
        s.db.base.users.get? 10)) =
      some ([.removeRecruiter 9 110, .recruiters (.addRecruiter 7 ⟨"a@x.ma", none⟩)],
        .done (.ok (.recruiters (.recruiter moved))), true, some moved,
        some ⟨⟨10, true, []⟩, "a@x.ma", "", .active⟩) := by rfl
  obtain ⟨s, hs, he⟩ := System.reach_of_run hrun
  simp only [Prod.mk.injEq, decide_eq_true_eq] at he
  obtain ⟨hops, hdone, hw, hrow, huser⟩ := he
  have hnew : NewIds twoCompanies s := newIds_of (by rw [hops]; rfl)
  have hone : OneEach twoCompanies := by
    show ∀ r ∈ twoCompanies.base.recruiters.rows, ∀ r' ∈ twoCompanies.base.recruiters.rows,
      r.userId = r'.userId → r = r'
    decide
  have hlost : ¬ IsRecruiter s.db 10 := fun hrole => List.not_mem_nil (hrole _ huser)
  have hop : s.ops[1]? = some (.recruiters (.addRecruiter 7 ⟨"a@x.ma", none⟩)) := by rw [hops]; rfl
  rcases role_kept hs hnew hone hop hdone hw hrow with
    hkept | ⟨B, seats, C, j, roles, -, -, hC, -, hreassigns⟩
  · exact absurd hkept hlost
  · exact ⟨s, _, C, j, roles, hs, hlost, hC, hreassigns⟩

end JobBoard.Companies.Teams
