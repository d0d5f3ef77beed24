import JobBoard.Jobs.Applications

/-!
# The life of an offer

`offers_authorized`: an offer is created as a draft, and changed only by recruiters of its company
whom the guard has let through. `offers_lifecycle`: as long as no save overwrites what another call
has saved since the offer was loaded, an offer goes from draft to published and closed, is not a
draft again, and keeps the date of its first publication. `unpublished_by_update` is what a save of
an offer that was loaded before its publication does.
-/

set_option autoImplicit false

namespace JobBoard.Jobs

open Txn Prog
open Analytics (JobStatus)

/-! ## Rows -/

section

variable {db : Db} {w : Write} {id : Id} {o o' : JobOffer}

/-- Where a row comes from: it was there, it is inserted, or it is saved. -/
theorem offer_step (h : (store.apply db w).offers.get? id = some o') :
    db.offers.get? id = some o' ∨ w = .insertOffer o' ∨
      ∃ loaded entity reread o, w = .saveOffer loaded entity reread ∧ entity.id = id ∧
        db.offers.get? id = some o ∧ o' = entity.overwrite reread o := by
  cases w with
  | insertOffer o =>
    rcases Table.get?_eq_some.1 h with ⟨hmem, hid⟩
    rcases Table.mem_insert hmem with hold | rfl
    · exact .inl (Table.get?_eq_some.2 ⟨hold, hid⟩)
    · exact .inr (.inl rfl)
  | saveOffer loaded entity reread =>
    rw [offer?_save] at h
    split at h
    · next hid =>
      obtain ⟨o, ho, rfl⟩ := Option.map_eq_some_iff.1 h
      exact .inr (.inr ⟨loaded, entity, reread, o, rfl, hid.symm, ho, rfl⟩)
    · exact .inl h
  | _ => exact .inl h

/-- A call changes columns that `save` assigns. -/
theorem Edits.overwrite {op : Op} {entity : JobOffer} (h : Edits op o entity) :
    entity.overwrite o o = entity := by
  unfold JobOffer.overwrite
  cases h with
  | update => simp only [JobsService.edited, setColumn_reread]
  | publish => simp only [setColumn_reread]
  | close => simp only [setColumn_reread]

theorem Edits.id_eq {op : Op} {entity : JobOffer} (h : Edits op o entity) : entity.id = o.id := by
  cases h <;> rfl

end

/-! ## Who changes an offer -/

/-- Call `j` is a recruiter's, who acts for the company. -/
def ByCompany (config : Config) (d₀ : Db) (s : RunState) (C : Log) (j : Nat) (companyId : Id) :
    Prop :=
  ∃ op userId, s.ops[j]? = some op ∧ op.recruiter? = some userId ∧
    ActsFor config d₀ C userId companyId

section

variable {config : Config} {d₀ : Db} {s : RunState} {i : Nat} {A B L : Log} {id : Id}
  {o o' : JobOffer}

/-- What a write of the log does to an offer: it leaves it, or it is a save by its company. -/
theorem offer_changed (h : (system config).Reachable d₀ s) {g : Txn.Group Write}
    (hl : L ++ [g] <+: s.log) (ho : (d₀.at L).offers.get? id = some o)
    (ho' : (d₀.at (L ++ [g])).offers.get? id = some o') :
    o' = o ∨ ByCompany config d₀ s L g.call o.companyId := by
  obtain ⟨op, w, hg, hop, hguar⟩ := published h hl
  rw [hg, at_snoc] at ho'
  rcases offer_step ho' with hold | rfl | ⟨loaded, entity, reread, o₀, rfl, rfl, hold, rfl⟩
  · rw [ho] at hold
    exact .inl (Option.some.inj hold).symm
  · obtain ⟨userId, dto, -, -, -, -, -, -, hfree⟩ := hguar
    have hid := Table.key_of_get? ho'
    rw [show o'.id = id from hid, ho] at hfree
    cases hfree
  · rw [ho] at hold
    cases hold
    obtain ⟨hedits, -, ⟨C, hC, hread⟩, -, userId, huser, hacts⟩ := hguar
    rw [hedits.id_eq] at ho
    obtain ⟨o₁, ho₁, hsame⟩ := offer_later hC hread
    rw [ho] at ho₁
    cases ho₁
    exact .inr ⟨op, userId, hop, huser, hsame.companyId ▸ hacts⟩

theorem offers_authorized (h : (system config).Reachable d₀ s) :
    (∀ {A i o}, WrittenAt s.log A i (.insertOffer o) →
      o.status = .draft ∧ (d₀.at A).offers.get? o.id = none ∧
        (∃ dto, s.ops[i]? = some (.createJob o.createdBy dto)) ∧
        ActsFor config d₀ A o.createdBy o.companyId) ∧
    ∀ {A B id o}, A <+: B → B <+: s.log → (d₀.at A).offers.get? id = some o →
      ∃ o', (d₀.at B).offers.get? id = some o' ∧ SameOffer o o' ∧
        (o' = o ∨ ∃ C j, A <+: C ∧ C <+: B ∧ ByCompany config d₀ s C j o.companyId) := by
  refine ⟨fun hw => ?_, fun {A B id o} hAB hB ho => ?_⟩
  · obtain ⟨op, w, hg, hop, hguar⟩ := published h hw
    cases hg
    obtain ⟨userId, dto, rfl, -, rfl, hstatus, -, hacts, hfree⟩ := hguar
    exact ⟨hstatus, hfree, ⟨dto, hop⟩, hacts⟩
  · refine along_log_from (L := s.log) (A := A)
      (I := fun L => ∃ o', (d₀.at L).offers.get? id = some o' ∧ SameOffer o o' ∧
        (o' = o ∨ ∃ C j, A <+: C ∧ C <+: L ∧ ByCompany config d₀ s C j o.companyId))
      ⟨o, ho, ⟨rfl, rfl, rfl⟩, .inl rfl⟩ (fun l g hAl hl ih => ?_) B hAB hB
    obtain ⟨o₁, ho₁, hsame, hchange⟩ := ih
    have hmono : l <+: l ++ [g] := List.prefix_append _ _
    obtain ⟨o₂, ho₂, hsame₂⟩ := offer_later hmono ho₁
    refine ⟨o₂, ho₂, ⟨hsame₂.companyId.trans hsame.companyId,
      hsame₂.createdBy.trans hsame.createdBy, hsame₂.createdAt.trans hsame.createdAt⟩, ?_⟩
    rcases offer_changed h hl ho₁ ho₂ with rfl | hby
    · refine hchange.imp_right ?_
      rintro ⟨C, j, hAC, hC, hby⟩
      exact ⟨C, j, hAC, hC.trans hmono, hby⟩
    · exact .inr ⟨l, g.call, hAl, hmono, hsame.companyId ▸ hby⟩

end

/-! ## Saves of offers that are as they were loaded -/

def keepsOffer (db : Db) : Write → Bool
  | .saveOffer loaded _ reread => reread = loaded && db.offers.get? loaded.id = some loaded
  | _ => true

/-- No call has changed the offer since the one that saves it has loaded it. -/
def upToDate (s : RunState) : Label Error Op → Bool
  | .step i => (s.issues i).all (keepsOffer s.db)
  | _ => true

/-- A published offer has the date of its publication, a draft has none. -/
def Dated (o : JobOffer) : Prop :=
  match o.status with
  | .draft => o.publishedAt = none
  | .published => o.publishedAt ≠ none
  | .closed => True

/-- The offer goes on. -/
structure Progress (o o' : JobOffer) : Prop where
  dated : Dated o → Dated o'
  publishedAt : ∀ t, o.publishedAt = some t → o'.publishedAt = some t
  status : o.status ≠ .draft → o'.status ≠ .draft

theorem Progress.refl (o : JobOffer) : Progress o o := ⟨id, fun _ h => h, id⟩

theorem Progress.trans {o₁ o₂ o₃ : JobOffer} (h : Progress o₁ o₂) (h' : Progress o₂ o₃) :
    Progress o₁ o₃ :=
  ⟨fun hd => h'.dated (h.dated hd), fun t ht => h'.publishedAt t (h.publishedAt t ht),
    fun hs => h'.status (h.status hs)⟩

theorem Edits.progress {op : Op} {o entity : JobOffer} (h : Edits op o entity) :
    Progress o entity := by
  cases h with
  | update => exact ⟨id, fun _ h => h, id⟩
  | publish => exact ⟨fun _ => by simp [Dated], fun t ht => by simp [ht], fun _ => by simp⟩
  | close => exact ⟨fun _ => trivial, fun _ h => h, fun _ => by simp⟩

section

variable {config : Config} {d₀ : Db} {s : RunState} {A B L : Log} {id : Id} {o : JobOffer}

theorem offer_progress (h : (system config).Within (fun s l => upToDate s l = true) d₀ s)
    (hAB : A <+: B) (hB : B <+: s.log) (ho : (d₀.at A).offers.get? id = some o) :
    ∃ o', (d₀.at B).offers.get? id = some o' ∧ Progress o o' := by
  refine along_log_from (L := s.log) (A := A)
    (I := fun L => ∃ o', (d₀.at L).offers.get? id = some o' ∧ Progress o o')
    ⟨o, ho, .refl o⟩ (fun l g hAl hl ih => ?_) B hAB hB
  obtain ⟨o₁, ho₁, hprogress⟩ := ih
  obtain ⟨o₂, ho₂, -⟩ := offer_later (List.prefix_append l [g]) ho₁
  refine ⟨o₂, ho₂, hprogress.trans ?_⟩
  obtain ⟨op, w, t, hg, hop, ht⟩ := (followed config d₀).published h hl
  have hguar := ht.promised
  have hok := ht.ok
  simp only [upToDate, ht.issues, ht.db, List.all_cons, List.all_nil, Bool.and_true] at hok
  rw [hg, at_snoc] at ho₂
  rcases offer_step ho₂ with hold | rfl | ⟨loaded, entity, reread, o', rfl, rfl, hold, rfl⟩
  · rw [ho₁] at hold
    cases hold
    exact .refl _
  · obtain ⟨userId, dto, -, -, -, -, -, -, hfree⟩ := hguar
    have hid := Table.key_of_get? ho₂
    rw [show o₂.id = id from hid, ho₁] at hfree
    cases hfree
  · simp only [keepsOffer, Bool.and_eq_true, decide_eq_true_eq] at hok
    obtain ⟨rfl, hrow⟩ := hok
    obtain ⟨hedits, -⟩ := hguar
    have hrow' : (d₀.at l).offers.get? entity.id = some reread := by
      rw [hedits.id_eq]
      exact hrow
    rw [hrow'] at ho₁ hold
    cases ho₁
    cases hold
    rw [hedits.overwrite]
    exact hedits.progress

/-- Every offer at every moment is dated. -/
theorem all_dated (h : (system config).Within (fun s l => upToDate s l = true) d₀ s)
    (h₀ : ∀ o ∈ d₀.offers.rows, Dated o) (hL : L <+: s.log) :
    ∀ o ∈ (d₀.at L).offers.rows, Dated o := by
  intro o ho
  have hget := Table.get?_of_mem ho
  revert hget
  generalize o.id = id
  intro hget
  refine along_log (L := s.log) (I := fun L => ∀ o, (d₀.at L).offers.get? id = some o → Dated o)
    (fun o ho => h₀ o (Table.mem_of_get? ho)) (fun l g hl ih o ho => ?_) L hL o hget
  obtain ⟨op, w, t, hg, hop, ht⟩ := (followed config d₀).published h hl
  have hstep := ho
  rw [hg, at_snoc] at hstep
  rcases offer_step hstep with hold | rfl | ⟨loaded, entity, reread, o', rfl, rfl, hold, -⟩
  · exact ih o hold
  · obtain ⟨userId, dto, -, -, -, hstatus, hpublishedAt, -⟩ := ht.promised
    rw [Dated, hstatus]
    exact hpublishedAt
  · obtain ⟨o'', ho'', hprogress⟩ := offer_progress h (List.prefix_append l [g]) hl hold
    rw [ho] at ho''
    cases ho''
    exact hprogress.dated (ih o' hold)

end

/-! ## Runs -/

def newJob : CreateJobDto := ⟨"Analyst", none, none, none, none, none, none⟩

/-- The recruiter creates and publishes an offer, and the candidate applies to it. -/
def publishing : List (Label Error Op) :=
  .spawn (.createJob 5 newJob) :: steps 0 7 ++ .spawn (.publish 5 0) :: steps 1 10 ++
    .spawn (.apply 7 0 none) :: steps 2 6

/-- The offers of `board` are dated. -/
theorem board_dated : ∀ o ∈ board.offers.rows, Dated o := by
  intro o ho
  rcases List.mem_singleton.1 ho with rfl
  simp [Dated]

theorem offers_authorized_board : ∃ s : RunState, (system .default).Reachable board s ∧
    ∃ A o, WrittenAt s.log A 0 (.insertOffer o) ∧ o.status = .draft ∧
      ActsFor .default board A o.createdBy o.companyId := by
  have hrun : (((system .default).runLabels .all (State.init board) publishing).map fun s =>
      decide (WrittenAt s.log [] 0 (.insertOffer
        ⟨⟨0, 1, "Analyst", .draft⟩, 5, none, none, none, none, none, none, none, 0⟩))) =
      some true := by rfl
  obtain ⟨s, hs, he⟩ := System.reach_of_run hrun
  have hw := of_decide_eq_true he
  obtain ⟨hstatus, -, -, hacts⟩ := (offers_authorized hs).1 hw
  exact ⟨s, hs, [], _, hw, hstatus, hacts⟩

/-- An update saves the offer that it has loaded before the publication: the offer is a draft
again, and has no date. -/
theorem unpublished_by_update : ∃ (s : RunState) (A : Log) (o o' : JobOffer),
    (system .default).Reachable board s ∧ A <+: s.log ∧
      (board.at A).offers.get? 0 = some o ∧ o.status = .published ∧ o.publishedAt = some 0 ∧
      (board.at s.log).offers.get? 0 = some o' ∧ o'.status = .draft ∧ o'.publishedAt = none := by
  have hrun : (((system .default).runLabels .all (State.init board)
      (.spawn (.createJob 5 newJob) :: steps 0 7 ++
        .spawn (.updateJob 5 0 ⟨some (some "Data analyst"), none, none, none, none, none, none⟩) ::
          steps 1 6 ++ .spawn (.publish 5 0) :: steps 2 10 ++ steps 1 3)).map fun s =>
      (((board.at (s.log.take 2)).offers.get? 0).map fun o => (o.status, o.publishedAt),
        ((board.at s.log).offers.get? 0).map fun o => (o.status, o.publishedAt))) =
      some (some (.published, some 0), some (.draft, none)) := by rfl
  obtain ⟨s, hs, he⟩ := System.reach_of_run hrun
  obtain ⟨hbefore, hafter⟩ := Prod.mk.inj he
  obtain ⟨o, ho, hpublished⟩ := Option.map_eq_some_iff.1 hbefore
  obtain ⟨o', ho', hdraft⟩ := Option.map_eq_some_iff.1 hafter
  obtain ⟨hstatus, hdate⟩ := Prod.mk.inj hpublished
  obtain ⟨hstatus', hdate'⟩ := Prod.mk.inj hdraft
  exact ⟨s, s.log.take 2, o, o', hs, List.take_prefix 2 s.log, ho, hstatus, hdate, ho', hstatus',
    hdate'⟩

end JobBoard.Jobs
