import JobBoard.Candidates.Conduct

/-!
# Decisions on data requests

A request is open until an administrator completes or rejects it, and the account is erased under
an erasure request that is completed. The status check, the erasure and the save of the decision
are statements of their own. The decision and the erasure agree in the runs where no save changes
a request that another call has decided meanwhile, no account is erased under a rejected request
or rejected after its erasure, and no call fails between the erasure and the save.
-/

set_option autoImplicit false

namespace JobBoard.Candidates.Erasure

open Txn Prog
open Cvtheque (Document)

/-! ## The condition on the steps -/

/-- Call `i` has erased an account under the request `id`. -/
def erasedUnder (log : Log) (id : Id) : Bool :=
  log.any fun g => g.writes.any fun w => w.erasesUnder id

/-- No account is erased under a rejected request. A save finds the request open, or changes
nothing, and rejects no request under which the account was erased. -/
def decidesOnce (db : Db) (log : Log) : Write → Bool
  | .anonymize (some id) _ _ => (db.dataRequests.get? id).all fun row => row.status ≠ .rejected
  | .saveRequest entity reread => (db.dataRequests.get? entity.id).all fun row =>
    (row.status.isOpen || entity.overwrite reread row = row) &&
      (entity.status ≠ .rejected || !erasedUnder log entity.id)
  | _ => true

/-- The requests under which the call has erased an account are completed. -/
def erasuresCompleted (db : Db) (log : Log) (i : Nat) : Bool :=
  log.all fun g => g.call ≠ i || g.writes.all fun w => match w with
    | .anonymize (some id) _ _ => (db.dataRequests.get? id).any (·.status = .completed)
    | _ => true

def keepsDecisions (s : RunState) (l : Label Error Op) : Bool :=
  match l with
  | .step i => (s.issues i).all (decidesOnce s.db s.log)
  | .fault i _ => erasuresCompleted s.db s.log i
  | _ => true

section

variable {env : Environment} {d₀ : Db} {i : Nat} {L : Log} {s : RunState}

theorem erasedUnder_of_written {A : Log} {id : Id} {user reread : Auth.User}
    (h : WrittenAt L A i (.anonymize (some id) user reread)) : erasedUnder L id = true := by
  have hmem := h.subset (List.mem_append_right _ (List.mem_singleton_self _))
  refine List.any_eq_true.2 ⟨_, hmem, List.any_eq_true.2 ⟨_, List.mem_singleton_self _, ?_⟩⟩
  exact decide_eq_true rfl

/-- What a failing call has erased under a request is settled. -/
theorem settled_of_completed (h : erasuresCompleted (d₀.at L) L i = true) :
    SettledErasures d₀ i L := by
  intro id
  by_cases hnone : Unwritten i (Write.erasesUnder id) L
  · exact .inl hnone
  · simp only [Unwritten, not_forall, Bool.not_eq_false] at hnone
    obtain ⟨A, w, hw, herases⟩ := hnone
    have hmem := hw.subset (List.mem_append_right _ (List.mem_singleton_self _))
    have hcompleted := List.all_eq_true.1 h _ hmem
    simp only [List.all_cons, List.all_nil, Bool.and_true, ne_eq, not_true_eq_false, decide_false,
      Bool.false_or] at hcompleted
    unfold Write.erasesUnder at herases
    split at herases
    · next requestId user reread =>
      cases of_decide_eq_true herases
      obtain ⟨r, hr, hstatus⟩ := (Option.any_eq_true _ _).1 hcompleted
      exact .inr (.inl ⟨L, r, List.prefix_rfl, hr, of_decide_eq_true hstatus⟩)
    · cases herases

theorem decisions_followed (env : Environment) (d₀ : Db) :
    Followed (system env) (fun s l => keepsDecisions s l = true) d₀ (Guarantee d₀) (Outcome d₀)
      (Failure d₀) where
  mono hg h := outcome_mono hg h
  others hg h := failure_others hg h
  fault {s i op e} _ hdb hok _ := by
    cases op with
    | updateStatus id adminId status note failing =>
      have hcompleted : erasuresCompleted s.db s.log i = true := hok
      rw [hdb] at hcompleted
      exact settled_of_completed hcompleted
    | _ => trivial
  prog i op L hstart := program_follow hstart

/-! ## Decisions are final -/

/-- What is known of a write of the log: its promise, and that it meets the condition. -/
theorem published_decision (h : (system env).Within (fun s l => keepsDecisions s l = true) d₀ s)
    {g : Txn.Group Write} (hl : L ++ [g] <+: s.log) : ∃ op w, g = ⟨g.call, false, [w]⟩ ∧
      s.ops[g.call]? = some op ∧ Guarantee d₀ g.call op L w ∧ decidesOnce (d₀.at L) L w = true := by
  obtain ⟨op, w, t, hg, hop, ht⟩ := (decisions_followed env d₀).published h hl
  have hok := ht.ok
  simp only [keepsDecisions, ht.issues, ht.db, ht.log, List.all_cons, List.all_nil,
    Bool.and_true] at hok
  exact ⟨op, w, hg, hop, ht.promised, hok⟩

/-- A save finds the request open, or changes nothing. -/
theorem save_decides {entity reread r : DataRequest}
    (hok : decidesOnce (d₀.at L) L (.saveRequest entity reread) = true)
    (hr : (d₀.at L).dataRequests.get? entity.id = some r) :
    (r.status.isOpen = true ∨ entity.overwrite reread r = r) ∧
      (entity.status ≠ .rejected ∨ erasedUnder L entity.id = false) := by
  simpa only [decidesOnce, hr, Option.all_some, Bool.and_eq_true, Bool.or_eq_true,
    decide_eq_true_eq, Bool.not_eq_true'] using hok

theorem decided_stays (h : (system env).Within (fun s l => keepsDecisions s l = true) d₀ s)
    {A : Log} {id : Id} {r : DataRequest} (hr : (d₀.at A).dataRequests.get? id = some r)
    (hdecided : r.status.isOpen = false) :
    ∀ L, A <+: L → L <+: s.log → (d₀.at L).dataRequests.get? id = some r := by
  refine along_log_from hr fun L g _ hl hr => ?_
  obtain ⟨op, w, hg, -, -, hok⟩ := published_decision h hl
  rw [hg, at_snoc]
  rcases request_after (w := w) hr with hafter | ⟨entity, reread, rfl, rfl, hafter⟩
  · exact hafter
  · rcases (save_decides hok hr).1 with hopen | hsame
    · rw [hdecided] at hopen
      cases hopen
    · rwa [hsame] at hafter

/-- A request under which the account was erased is not rejected. -/
theorem erased_not_rejected (h : (system env).Within (fun s l => keepsDecisions s l = true) d₀ s)
    {A : Log} {id : Id} {user reread : Auth.User}
    (hw : WrittenAt s.log A i (.anonymize (some id) user reread)) :
    ∃ r, s.db.dataRequests.get? id = some r ∧ r.type = .erasure ∧ r.userId = user.id ∧
      r.status ≠ .rejected := by
  obtain ⟨op, w, hg, -, hG, hok⟩ := published_decision h hw
  cases hg
  obtain ⟨-, B, request, hB, hrequest, htype, huser⟩ := hG
  obtain ⟨r, hr, hrtype, hruser⟩ := request_stays hB hrequest
  have hstart : r.status ≠ .rejected := by
    have hok : ((d₀.at A).dataRequests.get? id).all (fun row => row.status ≠ .rejected) = true := hok
    rw [hr, Option.all_some] at hok
    exact of_decide_eq_true hok
  have hall : ∀ L, A ++ [⟨i, false, [.anonymize (some id) user reread]⟩] <+: L → L <+: s.log →
      ∃ r, (d₀.at L).dataRequests.get? id = some r ∧ r.status ≠ .rejected := by
    refine along_log_from ⟨r, ?_, hstart⟩ ?_
    · rw [at_snoc]
      exact hr
    · rintro L g hA hl ⟨r, hr, hstatus⟩
      obtain ⟨op, w, hg, -, -, hsave⟩ := published_decision h hl
      rw [hg, at_snoc]
      rcases request_after (w := w) hr with hafter | ⟨entity, reread', rfl, rfl, hafter⟩
      · exact ⟨r, hafter, hstatus⟩
      · refine ⟨_, hafter, ?_⟩
        have herased := erasedUnder_of_written (A := A) (L := L) (i := i) hA
        have hentity : entity.status ≠ .rejected := (save_decides hsave hr).2.resolve_right (by
          rw [herased]
          decide)
        show setColumn entity.status reread'.status r.status ≠ .rejected
        unfold setColumn
        split
        · exact hstatus
        · exact hentity
  obtain ⟨r', hr', hstatus⟩ := hall s.log hw List.prefix_rfl
  obtain ⟨r'', hr'', htype'', huser''⟩ := request_stays (hB.trans hw.onto) hrequest
  cases hr'.symm.trans hr''
  refine ⟨r', ?_, htype''.trans htype, huser''.trans huser, hstatus⟩
  rwa [(decisions_followed env d₀).db h]

/-- What is settled is completed from then on. -/
theorem completed_of_settled (h : (system env).Within (fun s l => keepsDecisions s l = true) d₀ s)
    {id : Id} (hsettled : Settled d₀ i id s.log) :
    ∃ r, s.db.dataRequests.get? id = some r ∧ r.status = .completed := by
  have completed : ∀ {B r}, B <+: s.log → (d₀.at B).dataRequests.get? id = some r →
      r.status = .completed → ∃ r, s.db.dataRequests.get? id = some r ∧ r.status = .completed := by
    intro B r hB hr hstatus
    refine ⟨r, ?_, hstatus⟩
    rw [(decisions_followed env d₀).db h]
    exact decided_stays h hr (by rw [hstatus]; rfl) s.log hB List.prefix_rfl
  rcases hsettled with ⟨B, r, hB, hr, hstatus⟩ | ⟨B, entity, reread, hw, rfl, hstatus⟩
  · exact completed hB hr hstatus
  · obtain ⟨op, w, hg, -, hG, hok⟩ := published_decision h hw
    cases hg
    obtain ⟨-, ⟨R, hR, hreread⟩, -⟩ := hG
    obtain ⟨r, hr, -⟩ := request_stays hR hreread
    have hafter : (d₀.at (B ++ [⟨i, false, [.saveRequest entity reread]⟩])).dataRequests.get?
        entity.id = some (entity.overwrite reread r) := by
      rw [at_snoc, get?_saveRequest, if_pos rfl, hr]
      rfl
    refine completed hw hafter ?_
    show setColumn entity.status reread.status r.status = .completed
    unfold setColumn
    split
    · next hsame =>
      -- it was completed before already
      have hstays := decided_stays h hreread (by rw [← hsame, hstatus]; rfl) B hR hw.onto
      cases hstays.symm.trans hr
      rw [← hsame, hstatus]
    · exact hstatus

/-- Only an erasure completes an erasure request. -/
theorem completed_by_erasure
    (h : (system env).Within (fun s l => keepsDecisions s l = true) d₀ s) :
    ∀ L, L <+: s.log → ∀ id r, (d₀.at L).dataRequests.get? id = some r → r.type = .erasure →
      r.status = .completed → d₀.dataRequests.get? id = some r ∨
        ∃ (A : Log) (i : Nat) (user reread : Auth.User),
          WrittenAt L A i (.anonymize (some id) user reread) ∧ user.id = r.userId := by
  refine along_log (fun id r hr _ _ => .inl hr) ?_
  intro L g hl ih id r' hr' htype hstatus
  obtain ⟨op, w, hg, -, hG, hok⟩ := published_decision h hl
  have later : ∀ r, (d₀.at L).dataRequests.get? id = some r → r = r' →
      d₀.dataRequests.get? id = some r' ∨ ∃ (A : Log) (i : Nat) (user reread : Auth.User),
        WrittenAt (L ++ [g]) A i (.anonymize (some id) user reread) ∧ user.id = r'.userId := by
    rintro r hr rfl
    refine (ih id r hr htype hstatus).imp_right ?_
    rintro ⟨A, i, user, reread, hw, huser⟩
    exact ⟨A, i, user, reread, hw.mono (List.prefix_append _ _), huser⟩
  rw [hg, at_snoc] at hr'
  cases hr : (d₀.at L).dataRequests.get? id with
  | some r =>
    rcases request_after (w := w) hr with hafter | ⟨entity, reread, rfl, rfl, hafter⟩
    · exact later r hr (Option.some.inj (hafter.symm.trans hr'))
    · cases hafter.symm.trans hr'
      rcases (save_decides hok hr).1 with hopen | hsame
      · -- the save has completed it, after the erasure
        obtain ⟨⟨A, request, hA, hrequest, hrequestType, hrequestUser⟩, -, herased⟩ := hG
        obtain ⟨r₁, hr₁, htype₁, huser₁⟩ := request_stays hA hrequest
        cases hr.symm.trans hr₁
        have hentity : entity.status = .completed := by
          have hset : setColumn entity.status reread.status r.status = .completed := hstatus
          unfold setColumn at hset
          split at hset
          · rw [hset] at hopen
            cases hopen
          · exact hset
        obtain ⟨C, user, reread', hC, huser⟩ := herased hentity
          (hrequestType.trans (htype₁.symm.trans htype))
        refine .inr ⟨C, g.call, user, reread', hC.mono (List.prefix_append _ _), ?_⟩
        exact huser.trans (hrequestUser.trans huser₁.symm)
      · exact later r hr hsame.symm
  | none =>
    cases w with
    | insertRequest r =>
      rcases Table.mem_insert (Table.mem_of_get? hr') with hmem | rfl
      · have hid : r'.id = id := Table.key_of_get? hr'
        have hget := Table.get?_of_mem hmem
        rw [hid, hr] at hget
        cases hget
      · have hpending : r'.status = .pending := hG
        rw [hstatus] at hpending
        cases hpending
    | saveRequest entity reread =>
      rw [get?_saveRequest, hr] at hr'
      split at hr' <;> cases hr'
    | _ =>
      replace hr' : (d₀.at L).dataRequests.get? id = some r' := hr'
      rw [hr] at hr'
      cases hr'

/-! ## Decisions agree with erasures -/

/-- The requests of a run. -/
structure RequestsAgree (d₀ : Db) (s : RunState) : Prop where
  /-- A request that is completed or rejected at some moment never changes again. -/
  final : ∀ (A L : Log) id r, A <+: L → L <+: s.log → (d₀.at A).dataRequests.get? id = some r →
    r.status.isOpen = false → (d₀.at L).dataRequests.get? id = some r
  /-- An account is erased under an erasure request of its user, which is not rejected, and is
  completed once the call is over. -/
  erased : ∀ (A : Log) (i : Nat) id user reread,
    WrittenAt s.log A i (.anonymize (some id) user reread) →
      ∃ r, s.db.dataRequests.get? id = some r ∧ r.type = .erasure ∧ r.userId = user.id ∧
        r.status ≠ .rejected ∧ ((s.call i).isRunning = false → r.status = .completed)
  /-- The account is erased under an erasure request that has been completed. -/
  completed : ∀ id r, s.db.dataRequests.get? id = some r → r.type = .erasure →
    r.status = .completed → d₀.dataRequests.get? id = some r ∨
      ∃ (A : Log) (i : Nat) (user reread : Auth.User),
        WrittenAt s.log A i (.anonymize (some id) user reread) ∧ user.id = r.userId

end

/-! ## Two administrators -/

theorem account_nodup : ([(⟨6, "c@x.ma", "", [], .active, true, none, none, none, none, false,
    none, none, none⟩ : Auth.User)].map Auth.User.id).Nodup := List.nodup_singleton _

/-- Candidate 6 asks for the erasure of the account. -/
def erasureAsked : Db :=
  { Db.empty with
    users := ⟨[⟨6, "c@x.ma", "", [], .active, true, none, none, none, none, false, none, none,
      none⟩], account_nodup⟩
    dataRequests := ⟨[⟨20, 6, .erasure, .pending, none, none, none, 0, none⟩], by decide⟩ }

/-- Texts are in lower case and without accents already. -/
def plainText : Environment := ⟨id⟩

def Db.statusOf (db : Db) (id : Id) : Option DataRequestStatus :=
  (db.dataRequests.get? id).map (·.status)

end JobBoard.Candidates.Erasure
