import JobBoard.Candidates.Conduct
import JobBoard.Candidates.LinkVerification

/-!
# The checks of links

`pending_explained`: where a link is PENDING, a job of the link is queued or taken, or the reset
that made it PENDING has come to nothing in one of three ways. `status_probed`: another status is
what the prober has said of the URL of the link.
-/

set_option autoImplicit false

namespace JobBoard.Candidates.LinkVerification

open Txn Prog
open Cvtheque (ProfileLink)
open Edits (CreateProfileLinkDto)
open Erasure (Single single_nil findOrCreateProfile_single)
open LinkVerificationService (statusOf)

/-! ## What the calls publish -/

/-- What a call that makes a link PENDING writes about it: the link, then the job. -/
def isAsk : Write → Bool
  | .edits (.insertLink _) => true
  | .saveLink _ _ => true
  | .queue (.add _) => true
  | _ => false

/-- Call `i` is a creation of the link, or checks it again. -/
def Asks (i : Nat) (op : Op) (id : Id) : Prop :=
  (∃ userId dto, op = .create userId dto ∧ id = i) ∨ ∃ userId, op = .reverify userId id

/-- Worker `i` has taken the job of the link at `A`, and then it has found no link, or has written
the status. -/
def Worked (d₀ : Db) (i : Nat) (L A : Log) (id : Id) : Prop :=
  (∃ B, WrittenAt B A i (.queue (.take id i)) ∧ B <+: L ∧ (d₀.at B).link? id = none) ∨
    ∃ B status checkedAt, WrittenAt B A i (.queue (.take id i)) ∧
      WrittenAt L B i (.setStatus id status checkedAt)

/-- What is known of a write of call `i` at the log `L`. -/
def Guarantee (env : Environment) (d₀ : Db) (i : Nat) (op : Op) (L : Log) : Write → Prop
  | .edits (.insertLink l) => Unwritten i isAsk L ∧ Asks i op l.id ∧
    ((∃ userId, op = .reverify userId l.id) → ∃ A, A <+: L ∧ (d₀.at A).link? l.id = some l)
  | .saveLink id _ => Unwritten i isAsk L ∧ Asks i op id
  | .queue (.add id) => Asks i op id
  | .queue (.take _ worker) => worker = i
  | .queue (.complete id worker) => worker = i ∧ ∃ A, Worked d₀ i L A id
  | .setStatus id status _ => op = .process id ∧ ∃ A link, A <+: L ∧
    (d₀.at A).link? id = some link ∧ status = statusOf env i link.url
  | _ => True

abbrev Does {α : Type} (env : Environment) (d₀ : Db) (i : Nat) (op : Op) (p : M α)
    (Q : Log → α → Prop) (L : Log) : Prop :=
  p.Promises store d₀ i (Guarantee env d₀ i op) (fun e => isFault e = true) Q L

section

variable {env : Environment} {d₀ : Db} {i : Nat} {op : Op} {L : Log}

theorem link_id {db : Db} {id : Id} {link : ProfileLink} (h : db.link? id = some link) :
    link.id = id := by
  have hkey := Table.key_of_get? h
  exact hkey

theorem single_map {W W' : Type} (f : W → W') {ws : List W} (h : ws = [] ∨ ∃ w, ws = [w]) :
    ws.map f = [] ∨ ∃ w, ws.map f = [f w] := by
  rcases h with rfl | ⟨w, rfl⟩
  · exact .inl rfl
  · exact .inr ⟨w, rfl⟩

/-- A method of the CVthèque writes nothing that counts here. -/
theorem inCvtheque_does {α : Type} {p : Cvtheque.M α} {P : Log → Prop} {Q : Log → α → Prop}
    (hp : Single p) (hothers : ∀ L L', P L → ByOthers i L L' → P L')
    (hown : ∀ L w, P L → P (L ++ [⟨i, false, [.edits (.schools w)]⟩])) (h : P L)
    (hQ : ∀ L' a, P L' → Q L' a) : Does env d₀ i op (inEdits (Edits.inCvtheque p)) Q L := by
  have hschools : Single (Candidates.inCvtheque p) := by
    have hlift : ∀ ws : List Cvtheque.Write, (ws = [] ∨ ∃ w, ws = [w]) →
        ws.map Candidates.Write.cvtheque = [] ∨ ∃ w, ws.map Candidates.Write.cvtheque = [w] := by
      rintro ws (rfl | ⟨w, rfl⟩)
      · exact .inl rfl
      · exact .inr ⟨_, rfl⟩
    exact hp.zoom hlift hlift
  have hedits : (Edits.inCvtheque p).Plain (fun ws => ws = [] ∨ ∃ w, ws = [.schools w])
      (fun ws => ws = [] ∨ ∃ w, ws = [.schools w]) fun _ => True :=
    hschools.zoom (fun _ h => single_map _ h) fun _ h => single_map _ h
  have hall : (inEdits (Edits.inCvtheque p)).Plain
      (fun ws => ws = [] ∨ ∃ w, ws = [w] ∧ ∃ w', w = Write.edits (.schools w'))
      (fun ws => ws = [] ∨ ∃ w, ws = [w] ∧ ∃ w', w = Write.edits (.schools w'))
      fun _ => True := by
    have hlift : ∀ ws : List Edits.Write, (ws = [] ∨ ∃ w, ws = [.schools w]) →
        ws.map Write.edits = [] ∨
          ∃ w, ws.map Write.edits = [w] ∧ ∃ w', w = Write.edits (.schools w') := by
      rintro ws (rfl | ⟨w, rfl⟩)
      · exact .inl rfl
      · exact .inr ⟨_, rfl, w, rfl⟩
    exact hedits.zoom hlift hlift
  refine Follows.mono (Plain.follows (P := P) hall hothers ?_ (fun _ _ _ _ => trivial) h) hQ
  rintro L₁ w h ⟨w', rfl⟩
  exact ⟨trivial, hown L₁ w' h⟩

theorem findOrCreateProfile_does {userId : Id} {Q : Log → Cvtheque.CandidateProfile → Prop}
    (hu : Unwritten i isAsk L) (hQ : ∀ L' p, Unwritten i isAsk L' → Q L' p) :
    Does env d₀ i op (inEdits (Edits.findOrCreateProfile i userId)) Q L :=
  inCvtheque_does (P := Unwritten i isAsk) (findOrCreateProfile_single i userId)
    (fun _ _ h hr => h.others hr) (fun _ _ h => h.snoc rfl) hu hQ

theorem calculateCompleteness_single (profileId : Id) :
    Single (Cvtheque.CandidateProfileService.calculateCompleteness profileId) := by
  have hsaves : ∀ ws, ProfileSaves ws → ws = [] ∨ ∃ w, ws = [w] := by
    rintro ws (rfl | ⟨writer, loaded, entity, reread, rfl⟩)
    · exact .inl rfl
    · exact .inr ⟨_, rfl⟩
  exact Plain.mono (calculateCompleteness_savesOnly profileId) hsaves hsaves fun _ h => h

theorem calculateCompleteness_does {profileId : Id}
    {Q : Log → Assessments.CompletenessResult → Prop} (hQ : ∀ L' a, Q L' a) :
    Does env d₀ i op (inEdits (Edits.calculateCompleteness profileId)) Q L :=
  inCvtheque_does (P := fun _ => True) (calculateCompleteness_single profileId)
    (fun _ _ h _ => h) (fun _ _ h => h) trivial fun L' a _ => hQ L' a

theorem enqueue_does {linkId : Id} {Q : Log → Unit → Prop} (hasks : Asks i op linkId)
    (hQ : ∀ L' a, Q L' a) :
    Does env d₀ i op (LinkVerificationEnqueuer.enqueue env i linkId) Q L := by
  unfold LinkVerificationEnqueuer.enqueue
  split
  · exact promises_outside fun _ _ => ⟨hasks, hQ _ _⟩
  · exact hQ _ _

/-- The `INSERT` of a link. -/
theorem insertLink_does {l : ProfileLink} {Q : Log → ProfileLink → Prop}
    (hu : Unwritten i isAsk L) (hasks : Asks i op l.id)
    (hfound : (∃ userId, op = .reverify userId l.id) → ∃ A, A <+: L ∧ (d₀.at A).link? l.id = some l)
    (hQ : ∀ L', Q L' l) :
    Does env d₀ i op (inEdits (Edits.CandidateLinkService.insertLink l)) Q L := by
  refine promises_zoom_query fun L₁ ws l' hr hf => ?_
  split at hf
  · cases hf
  · cases hf
    refine .inr ⟨_, rfl, ⟨hu.others hr, hasks, fun h => ?_⟩, hQ _⟩
    obtain ⟨A, hA, hl⟩ := hfound h
    exact ⟨A, hA.trans hr.onto, hl⟩

theorem create_does {userId : Id} {dto : CreateProfileLinkDto} {Q : Log → ProfileLink → Prop}
    (hu : Unwritten i isAsk L) (hQ : ∀ L' l, Q L' l) :
    Does env d₀ i (.create userId dto) (CandidateLinkService.create env i userId dto) Q L := by
  unfold CandidateLinkService.create Edits.CandidateLinkService.create
  refine promises_bind.2 (promises_zoom_bind.2 ?_)
  refine findOrCreateProfile_does hu fun L₁ profile hu₁ => ?_
  have hasks : Asks i (.create userId dto) i := .inl ⟨userId, dto, rfl, rfl⟩
  refine promises_zoom_bind.2 (insertLink_does hu₁ hasks ?_ fun L₂ => ?_)
  · rintro ⟨_, ⟨⟩⟩
  · refine promises_zoom_bind.2 (calculateCompleteness_does fun L₃ _ => ?_)
    exact promises_bind.2 (enqueue_does hasks fun _ _ => hQ _ _)

theorem remove_does {userId linkId : Id} {Q : Log → Unit → Prop} (hu : Unwritten i isAsk L)
    (hQ : ∀ L' a, Q L' a) : Does env d₀ i op (CandidateLinkService.remove i userId linkId) Q L := by
  unfold CandidateLinkService.remove Edits.CandidateLinkService.remove
  refine promises_zoom_bind.2 ?_
  refine findOrCreateProfile_does hu fun L₁ profile hu₁ => ?_
  refine promises_zoom_bind.2 (promises_zoom_query fun L₂ ws u hr₂ hf => ?_)
  split at hf
  · cases hf
  · split at hf
    · cases hf
      refine .inr ⟨_, rfl, trivial, ?_⟩
      exact promises_zoom_bind.2 (calculateCompleteness_does fun L₃ _ => hQ _ _)
    · cases hf

theorem save_does {userId : Id} {link : ProfileLink} {A : Log} {Q : Log → ProfileLink → Prop}
    (hu : Unwritten i isAsk L) (hA : A <+: L) (hlink : (d₀.at A).link? link.id = some link)
    (hQ : ∀ L', Q L' link) :
    Does env d₀ i (.reverify userId link.id) (CandidateLinkService.save link) Q L := by
  have hasks : Asks i (.reverify userId link.id) link.id := .inr ⟨userId, rfl⟩
  unfold CandidateLinkService.save
  refine promises_bind.2 (promises_select fun L₁ hr₁ => ?_)
  have hu₁ := hu.others hr₁
  cases ((d₀.at L₁).link? link.id).bind fun _ => (d₀.at L₁).checks.get? link.id with
  | none =>
    exact insertLink_does hu₁ hasks (fun _ => ⟨A, hA.trans hr₁.onto, hlink⟩) fun L₂ => hQ _
  | some reread =>
    dsimp only
    split
    · exact hQ _
    · exact promises_bind.2 (promises_write fun L₂ hr₂ => ⟨⟨hu₁.others hr₂, hasks⟩, hQ _⟩)

theorem reverify_does {userId linkId : Id} {Q : Log → ProfileLink → Prop}
    (hu : Unwritten i isAsk L) (hQ : ∀ L' l, Q L' l) :
    Does env d₀ i (.reverify userId linkId) (CandidateLinkService.reverify env i userId linkId)
      Q L := by
  unfold CandidateLinkService.reverify
  refine promises_bind.2 ?_
  refine findOrCreateProfile_does hu fun L₁ profile hu₁ => ?_
  refine promises_bind.2 (promises_select fun L₂ hr₂ => ?_)
  cases hfound : ((d₀.at L₂).link? linkId).filter (·.profileId = profile.id) with
  | none => trivial
  | some link =>
    obtain ⟨hlink, -⟩ := Option.filter_eq_some_iff.1 hfound
    obtain rfl := link_id hlink
    refine promises_bind.2 (save_does (hu₁.others hr₂) List.prefix_rfl hlink fun L₃ => ?_)
    exact promises_bind.2 (enqueue_does (.inr ⟨userId, rfl⟩) fun _ _ => hQ _ _)

theorem process_does {linkId : Id} {Q : Log → Option LinkAccessibilityStatus → Prop}
    (hQ : ∀ L' a, Q L' a) :
    Does env d₀ i (.process linkId) (LinkVerificationProcessor.process env i linkId) Q L := by
  have complete : ∀ {L' A : Log} {status : Option LinkAccessibilityStatus},
      Worked d₀ i L' A linkId → Does env d₀ i (.process linkId) (do
        LinkVerificationProcessor.complete i linkId
        return status) Q L' := by
    intro L' A status hworked
    refine promises_bind.2 (promises_query fun L₁ ws u hr hf => ?_)
    split at hf
    · cases hf
      refine .inr ⟨_, rfl, ⟨rfl, A, ?_⟩, hQ _ _⟩
      rcases hworked with ⟨B, hB, hBL, hnone⟩ | ⟨B, status, checkedAt, hB, hw⟩
      · exact .inl ⟨B, hB, hBL.trans hr.onto, hnone⟩
      · exact .inr ⟨B, status, checkedAt, hB, hw.mono hr.onto⟩
    · cases hf
  unfold LinkVerificationProcessor.process LinkVerificationService.verify
  refine promises_bind.2 (promises_query fun L₁ ws u hr₁ hf => ?_)
  split at hf
  · cases hf
    refine .inr ⟨_, rfl, rfl, ?_⟩
    have htaken : WrittenAt (L₁ ++ [⟨i, false, [.queue (.take linkId i)]⟩]) L₁ i
        (.queue (.take linkId i)) := writtenAt_self _ _ _
    refine promises_bind.2 (promises_bind.2 (promises_select fun L₂ hr₂ => ?_))
    cases hlink : (d₀.at L₂).link? linkId with
    | none => exact complete (.inl ⟨L₂, htaken.mono hr₂.onto, List.prefix_rfl, hlink⟩)
    | some link =>
      refine promises_bind.2 (promises_select fun L₃ hr₃ => ?_)
      refine promises_bind.2 (promises_write fun L₄ hr₄ => ⟨?_, ?_⟩)
      · exact ⟨rfl, L₂, link, hr₃.onto.trans hr₄.onto, hlink, rfl⟩
      · refine complete (.inr ⟨L₄, _, _, htaken.mono ?_, writtenAt_self _ _ _⟩)
        exact hr₂.onto.trans (hr₃.onto.trans hr₄.onto)
  · cases hf

theorem checks_followed (env : Environment) (d₀ : Db) {ok : RunState → Label Error Op → Prop} :
    Followed (system env) ok d₀ (Guarantee env d₀) (fun _ _ _ _ => True) fun _ _ _ => True where
  prog := by
    intro i op L hsilent
    have hu : Unwritten i isAsk L := Unwritten.start hsilent
    cases op with
    | create userId dto => exact promises_bind.2 (create_does hu fun _ _ => trivial)
    | remove userId linkId => exact promises_bind.2 (remove_does hu fun _ _ => trivial)
    | reverify userId linkId => exact promises_bind.2 (reverify_does hu fun _ _ => trivial)
    | process linkId => exact promises_bind.2 (process_does fun _ _ => trivial)
    | release linkId => exact promises_bind.2 (promises_write fun _ _ => ⟨trivial, trivial⟩)
    | evict linkId => exact promises_bind.2 (promises_write fun _ _ => ⟨trivial, trivial⟩)
    | deleteProfile profileId =>
      exact promises_bind.2 (promises_write fun _ _ => ⟨trivial, trivial⟩)
    | elsewhere w => exact promises_bind.2 (promises_write fun _ _ => ⟨trivial, trivial⟩)
  mono _ _ := trivial
  others _ _ := trivial
  fault _ _ _ _ := trivial

end

/-! ## Pending links -/

def Pending (db : Db) (id : Id) : Prop :=
  (db.link? id).isSome = true ∧
    (db.checks.get? id).map (·.accessibilityStatus) = some .pending

/-- The write may make the link PENDING. -/
def Write.resets (id : Id) : Write → Bool
  | .edits (.insertLink l) => l.id = id
  | .saveLink id' _ => id' = id
  | _ => false

section

variable {env : Environment} {d₀ db : Db} {s : RunState} {A B L : Log} {id : Id} {w : Write}

theorem published (h : (system env).Reachable d₀ s) {l : Log} {g : Txn.Group Write}
    (hl : l ++ [g] <+: s.log) :
    ∃ op w, g = ⟨g.call, false, [w]⟩ ∧ s.ops[g.call]? = some op ∧
      Guarantee env d₀ g.call op l w := by
  obtain ⟨op, w, t, hg, hop, ht⟩ := (checks_followed env d₀).published h.within hl
  exact ⟨op, w, hg, hop, ht.promised⟩

theorem written (h : (system env).Reachable d₀ s) {i : Nat} (hw : WrittenAt s.log A i w) :
    ∃ op, s.ops[i]? = some op ∧ Guarantee env d₀ i op A w := by
  obtain ⟨op, w', hg, hop, hG⟩ := published h hw
  cases hg
  exact ⟨op, hop, hG⟩

/-- The other services keep to their tables. -/
theorem schools_links (db : Candidates.Db) (w : Candidates.Write) :
    (Candidates.store.apply db w).cvtheque.links = db.cvtheque.links := by
  cases w with
  | cvtheque w => cases w <;> rfl
  | _ => rfl

/-- A link that was not there comes with its insertion. -/
theorem link_new {l : ProfileLink} (h : db.link? id = none)
    (hl : (store.apply db w).link? id = some l) : w = .edits (.insertLink l) ∧ l.id = id := by
  have hid := link_id hl
  have same : (store.apply db w).link? id = db.link? id →
      w = .edits (.insertLink l) ∧ l.id = id := by
    intro hsame
    rw [hl, h] at hsame
    cases hsame
  cases w with
  | edits w =>
    cases w with
    | schools w =>
      refine same ?_
      show (Candidates.store.apply db.base w).cvtheque.links.get? id = _
      rw [schools_links]
      rfl
    | insertLink l' =>
      have hmem : l ∈ (db.base.cvtheque.links.insert l').rows := Table.mem_of_get? hl
      rcases Table.mem_insert hmem with hold | rfl
      · exact absurd hid (Table.get?_eq_none.1 h l hold)
      · exact ⟨rfl, hid⟩
    | deleteLink id' =>
      have hget : (store.apply db (.edits (.deleteLink id'))).link? id =
          if id = id' then none else db.link? id := Table.get?_delete
      rw [hl, h] at hget
      split at hget <;> cases hget
    | _ => exact same rfl
  | deleteProfile id' =>
    have hget : (store.apply db (.deleteProfile id')).link? id =
        (db.link? id).filter fun l => !decide (l.profileId = id') := Table.get?_deleteWhere _
    rw [hl, h] at hget
    cases hget
  | _ => exact same rfl

/-- A write that does not reset the link leaves its columns, but that a worker sets them. -/
theorem check_apply (hw : w.resets id = false) :
    (store.apply db w).checks.get? id = db.checks.get? id ∨
      ∃ status checkedAt, w = .setStatus id status checkedAt := by
  cases w with
  | edits w =>
    cases w with
    | insertLink l =>
      have hid : l.id ≠ id := of_decide_eq_false hw
      have hget : (store.apply db (.edits (.insertLink l))).checks.get? id =
          (db.checks.delete l.id).get? id := Table.get?_insert_ne hid
      rw [hget, Table.get?_delete, if_neg (Ne.symm hid)]
      exact .inl rfl
    | _ => exact .inl rfl
  | saveLink id' reread =>
    have hid : id' ≠ id := of_decide_eq_false hw
    have hget : (store.apply db (.saveLink id' reread)).checks.get? id =
        if id = id' then (db.checks.get? id).map reread.reset else db.checks.get? id :=
      Table.get?_modify reread.reset fun _ => rfl
    rw [if_neg (Ne.symm hid)] at hget
    exact .inl hget
  | setStatus id' status checkedAt =>
    have hget : (store.apply db (.setStatus id' status checkedAt)).checks.get? id =
        if id = id' then (db.checks.get? id).map fun c =>
          { c with accessibilityStatus := status, checkedAt := some checkedAt }
        else db.checks.get? id :=
      Table.get?_modify (fun c : LinkCheck =>
        { c with accessibilityStatus := status, checkedAt := some checkedAt }) fun _ => rfl
    by_cases hid : id = id'
    · exact .inr ⟨status, checkedAt, by rw [hid]⟩
    · rw [if_neg hid] at hget
      exact .inl hget
  | _ => exact .inl rfl

theorem pending_apply (h : ¬ Pending db id) (hp : Pending (store.apply db w) id)
    (hstatus : ∀ status checkedAt, w = .setStatus id status checkedAt → status ≠ .pending) :
    w.resets id = true := by
  cases hw : w.resets id with
  | true => rfl
  | false =>
    obtain ⟨hlink, hpending⟩ := hp
    have hold : (db.link? id).isSome = true := by
      cases hnone : db.link? id with
      | some l => rfl
      | none =>
        obtain ⟨l, hl⟩ := Option.isSome_iff_exists.1 hlink
        obtain ⟨rfl, hid⟩ := link_new hnone hl
        exact absurd hid (of_decide_eq_false hw)
    rcases @check_apply db _ _ hw with hsame | ⟨status, checkedAt, rfl⟩
    · rw [hsame] at hpending
      exact absurd ⟨hold, hpending⟩ h
    · have hget : (store.apply db (.setStatus id status checkedAt)).checks.get? id =
          if id = id then (db.checks.get? id).map fun c =>
            { c with accessibilityStatus := status, checkedAt := some checkedAt }
          else db.checks.get? id :=
        Table.get?_modify (fun c : LinkCheck =>
          { c with accessibilityStatus := status, checkedAt := some checkedAt }) fun _ => rfl
      rw [hget, if_pos rfl, Option.map_map, Option.map_eq_some_iff] at hpending
      obtain ⟨c, -, hc⟩ := hpending
      exact absurd hc (hstatus status checkedAt rfl)

theorem setStatus_get? (db : Db) (id : Id) (status : LinkAccessibilityStatus)
    (checkedAt : Cvtheque.Micros) :
    (store.apply db (.setStatus id status checkedAt)).checks.get? id =
      (db.checks.get? id).map fun c =>
        { c with accessibilityStatus := status, checkedAt := some checkedAt } := by
  have hget : (store.apply db (.setStatus id status checkedAt)).checks.get? id =
      if id = id then (db.checks.get? id).map fun c =>
        { c with accessibilityStatus := status, checkedAt := some checkedAt }
      else db.checks.get? id :=
    Table.get?_modify (fun c : LinkCheck =>
      { c with accessibilityStatus := status, checkedAt := some checkedAt }) fun _ => rfl
  rw [hget, if_pos rfl]

/-- A worker writes that the link can be reached, or that it cannot. -/
theorem setStatus_settles (h : (system env).Reachable d₀ s) {i : Nat}
    {status : LinkAccessibilityStatus} {checkedAt : Cvtheque.Micros}
    (hw : WrittenAt s.log A i (.setStatus id status checkedAt)) :
    status ≠ .pending ∧
      ¬ Pending (d₀.at (A ++ [⟨i, false, [.setStatus id status checkedAt]⟩])) id := by
  obtain ⟨op, -, -, M, link, -, -, rfl⟩ := written h hw
  have hstatus : statusOf env i link.url ≠ .pending := by
    unfold statusOf
    split <;> exact LinkAccessibilityStatus.noConfusion
  refine ⟨hstatus, ?_⟩
  rintro ⟨-, hpending⟩
  rw [at_snoc, setStatus_get?, Option.map_map, Option.map_eq_some_iff] at hpending
  obtain ⟨c, -, hc⟩ := hpending
  exact hstatus hc

/-- Since `A` the link is PENDING. -/
def PendingSince (d₀ : Db) (A L : Log) (id : Id) : Prop :=
  ∀ M, A <+: M → M <+: L → Pending (d₀.at M) id

/-- A link that is PENDING was made so, and is PENDING since. -/
theorem pending_since (h : (system env).Reachable d₀ s) (hstart : ¬ Pending d₀ id)
    (hL : L <+: s.log) (hp : Pending (d₀.at L) id) :
    ∃ A i w, WrittenAt L A i w ∧ w.resets id = true ∧
      PendingSince d₀ (A ++ [⟨i, false, [w]⟩]) L id := by
  refine along_log (L := s.log) (I := fun L => Pending (d₀.at L) id → ∃ A i w, WrittenAt L A i w ∧
    w.resets id = true ∧ PendingSince d₀ (A ++ [⟨i, false, [w]⟩]) L id)
    (fun h₀ => absurd h₀ hstart) (fun l g hl ih hnow => ?_) L hL hp
  have hlg : l <+: l ++ [g] := List.prefix_append _ _
  by_cases hold : Pending (d₀.at l) id
  · obtain ⟨A, i, w, hw, hresets, hsince⟩ := ih hold
    refine ⟨A, i, w, hw.mono hlg, hresets, fun M hAM hM => ?_⟩
    rcases List.prefix_concat_iff.1 hM with rfl | hM
    · exact hnow
    · exact hsince M hAM hM
  · obtain ⟨op, w, hg, -, -⟩ := published h hl
    rw [hg] at hl hnow ⊢
    have hresets : w.resets id = true := by
      rw [at_snoc] at hnow
      refine pending_apply hold hnow ?_
      rintro status checkedAt rfl
      exact (setStatus_settles h hl).1
    refine ⟨l, g.call, w, writtenAt_self _ _ _, hresets, fun M hAM hM => ?_⟩
    rw [at_snoc] at hnow
    have hsame : M = l ++ [⟨g.call, false, [w]⟩] := hM.eq_of_length_le hAM.length_le
    rw [hsame, at_snoc]
    exact hnow

/-- No worker writes the status while the link is PENDING. -/
theorem PendingSince.silent (h : (system env).Reachable d₀ s) (hL : L <+: s.log)
    (hsince : PendingSince d₀ A L id) {i : Nat} {status : LinkAccessibilityStatus}
    {checkedAt : Cvtheque.Micros} (hAB : A <+: B)
    (hw : WrittenAt L B i (.setStatus id status checkedAt)) : False :=
  (setStatus_settles h (hw.mono hL)).2
    (hsince _ (hAB.trans (List.prefix_append _ _)) hw)

/-! ### The job of a pending link -/

/-- A worker that took the job before the moment `A` has completed it after `B`. -/
def TakenBefore (L A B : Log) (id : Id) : Prop :=
  ∃ C D worker, WrittenAt A C worker (.queue (.take id worker)) ∧ B <+: D ∧
    WrittenAt L D worker (.queue (.complete id worker))

/-- Since `A` the job has failed. -/
def FailedSince (d₀ : Db) (L A : Log) (id : Id) : Prop :=
  ∃ B, A <+: B ∧ B <+: L ∧ (d₀.at B).jobs.state? id = some .failed

/-- Who completes the job while the link is PENDING has taken it before. -/
theorem completes_before (h : (system env).Reachable d₀ s) (hL : L <+: s.log)
    {A : Log} {i j : Nat} {w : Write} (hsince : PendingSince d₀ (A ++ [⟨i, false, [w]⟩]) L id)
    (hw : WrittenAt L A i w)
    (hcomplete : WrittenAt L B j (.queue (.complete id j))) :
    ∃ C, WrittenAt A C j (.queue (.take id j)) := by
  obtain ⟨op, -, -, C, hworked⟩ := written h (hcomplete.mono hL)
  have ordered : ∀ {M : Log}, M <+: L → M <+: A ∨ A ++ [⟨i, false, [w]⟩] <+: M := by
    intro M hM
    rcases List.prefix_or_prefix_of_prefix hM hw with hp | hp
    · rcases List.prefix_concat_iff.1 hp with rfl | hp
      · exact .inr List.prefix_rfl
      · exact .inl hp
    · exact .inr hp
  have hBL := hcomplete.onto
  rcases hworked with ⟨M, hM, hMB, hnone⟩ | ⟨M, status, checkedAt, hM, hwrites⟩
  · rcases ordered (hMB.trans hBL) with hearlier | hlater
    · exact ⟨C, hM.mono hearlier⟩
    · have hlink := (hsince M hlater (hMB.trans hBL)).1
      rw [hnone] at hlink
      cases hlink
  · rcases ordered (hwrites.onto.trans hBL) with hearlier | hlater
    · exact ⟨C, hM.mono hearlier⟩
    · exact (hsince.silent h hL hlater (hwrites.mono hBL)).elim

/-- A job that was queued after the reset is there, or what has become of it. -/
theorem queued_explained (h : (system env).Reachable d₀ s) (hL : L <+: s.log) {A : Log}
    {i j : Nat} {w : Write} (hsince : PendingSince d₀ (A ++ [⟨i, false, [w]⟩]) L id)
    (hw : WrittenAt L A i w) (hadd : WrittenAt L B j (.queue (.add id))) :
    (d₀.at L).jobs.Live id ∨ TakenBefore L A B id ∨ FailedSince d₀ L B id := by
  have either : ∀ M, B ++ [⟨j, false, [.queue (.add id)]⟩] <+: M → M <+: L →
      (d₀.at M).jobs.Live id ∨ TakenBefore L A B id ∨ FailedSince d₀ L B id := by
    refine along_log_from ?_ fun l g hBl hl ih => ?_
    · rw [at_snoc]
      rcases JobQueue.add_state ATTEMPTS (d₀.at B).jobs id with hlive | hfailed
      · exact .inl hlive
      · refine .inr (.inr ⟨_, List.prefix_append _ _, hadd, ?_⟩)
        rw [at_snoc]
        exact hfailed
    · rcases ih with hlive | hlost
      · obtain ⟨op, w', hg, -, hG⟩ := published h (hl.trans hL)
        have hw' : WrittenAt L l g.call w' := by
          rw [hg] at hl
          exact hl
        have hB : B <+: l := (List.prefix_append _ _).trans hBl
        cases w' with
        | queue qop =>
          rcases JobQueue.live_apply ATTEMPTS hlive qop with
            hkept | ⟨worker, rfl, -⟩ | ⟨rfl, hfailed⟩
          · rw [hg, at_snoc]
            exact .inl hkept
          · obtain ⟨rfl, -⟩ := hG
            obtain ⟨C, hC⟩ := completes_before h hL hsince hw hw'
            exact .inr (.inl ⟨C, l, g.call, hC, hB, hw'⟩)
          · refine .inr (.inr ⟨l ++ [g], hB.trans (List.prefix_append _ _), hl, ?_⟩)
            rw [hg, at_snoc]
            exact hfailed
        | edits w' =>
          rw [hg, at_snoc]
          cases w' <;> exact .inl hlive
        | _ =>
          rw [hg, at_snoc]
          exact .inl hlive
      · exact .inr hlost
  exact either L hadd List.prefix_rfl

/-- The call that made the link PENDING has queued no job, or the job that it queued was that of a
worker which had taken it before, or the job has failed. -/
def Lost (d₀ : Db) (s : RunState) (id : Id) : Prop :=
  ∃ A i op w, s.ops[i]? = some op ∧ Asks i op id ∧ WrittenAt s.log A i w ∧ w.resets id = true ∧
    PendingSince d₀ (A ++ [⟨i, false, [w]⟩]) s.log id ∧
    ((∀ B, ¬ WrittenAt s.log B i (.queue (.add id))) ∨
      ∃ B, A <+: B ∧ WrittenAt s.log B i (.queue (.add id)) ∧
        (TakenBefore s.log A B id ∨ FailedSince d₀ s.log B id))

/-- The uuids that the calls have drawn are new. -/
def NewLinks (d₀ : Db) (s : RunState) : Prop := ∀ i, i < s.ops.length → d₀.link? i = none

/-- The link was there at the start, or its creation has inserted it. -/
def Origin (d₀ : Db) (s : RunState) (l : ProfileLink) : Prop :=
  d₀.link? l.id = some l ∨ ∃ A userId dto, WrittenAt s.log A l.id (.edits (.insertLink l)) ∧
    s.ops[l.id]? = some (.create userId dto)

/-- Nothing changes the columns of a link that its candidate gives. -/
theorem link_apply {l l' : ProfileLink} (h : db.link? id = some l)
    (hl : (store.apply db w).link? id = some l') : l' = l := by
  have same : (store.apply db w).link? id = db.link? id → l' = l := by
    intro hsame
    rw [hl, h] at hsame
    cases hsame
    rfl
  cases w with
  | edits w =>
    cases w with
    | schools w =>
      refine same ?_
      show (Candidates.store.apply db.base w).cvtheque.links.get? id = _
      rw [schools_links]
      rfl
    | insertLink l₁ =>
      have hget : (store.apply db (.edits (.insertLink l₁))).link? id = some l :=
        Table.get?_insert_of_some h
      rw [hl] at hget
      cases hget
      rfl
    | deleteLink id' =>
      have hget : (store.apply db (.edits (.deleteLink id'))).link? id =
          if id = id' then none else db.link? id := Table.get?_delete
      split at hget
      · rw [hl] at hget
        cases hget
      · exact same hget
    | _ => exact same rfl
  | deleteProfile id' =>
    have hget : (store.apply db (.deleteProfile id')).link? id =
        (db.link? id).filter fun l => !decide (l.profileId = id') := Table.get?_deleteWhere _
    rw [hl, h, Option.filter_some] at hget
    split at hget
    · cases hget
      rfl
    · cases hget
  | _ => exact same rfl

theorem origin (h : (system env).Reachable d₀ s) (hL : L <+: s.log) {l : ProfileLink}
    (hl : (d₀.at L).link? id = some l) : Origin d₀ s l := by
  have all : ∀ L, L <+: s.log → ∀ M, M <+: L → ∀ id l, (d₀.at M).link? id = some l →
      Origin d₀ s l := by
    refine along_log (fun M hM id l hl => ?_) fun L g hL ih M hM id l hl => ?_
    · obtain rfl := List.prefix_nil.1 hM
      exact .inl (link_id hl ▸ hl)
    · rcases List.prefix_concat_iff.1 hM with rfl | hM
      · obtain ⟨op, w, hg, hop, hG⟩ := published h hL
        cases hold : (d₀.at L).link? id with
        | some l₀ =>
          rw [hg, at_snoc] at hl
          obtain rfl := link_apply hold hl
          exact ih L List.prefix_rfl id l hold
        | none =>
          rw [hg, at_snoc] at hl
          obtain ⟨rfl, -⟩ := link_new hold hl
          obtain ⟨-, ⟨userId, dto, rfl, hid⟩ | hreverify, hfound⟩ := hG
          · refine .inr ⟨L, userId, dto, ?_, hid ▸ hop⟩
            rw [hid]
            rw [hg] at hL
            exact hL
          · obtain ⟨A, hA, hthere⟩ := hfound hreverify
            exact ih A hA l.id l hthere
      · exact ih M hM id l hl
  exact all L hL L List.prefix_rfl id l hl

/-- The rows of one id show the same link. -/
theorem origin_unique (h : (system env).Reachable d₀ s) (hnew : NewLinks d₀ s)
    {l l' : ProfileLink} (hid : l.id = l'.id) (hl : Origin d₀ s l) (hl' : Origin d₀ s l') :
    l = l' := by
  have started : ∀ {l l' : ProfileLink}, l.id = l'.id → d₀.link? l.id = some l →
      ∀ {op}, s.ops[l'.id]? ≠ some op := by
    intro l l' hid hstart op hop
    have hnone := hnew l'.id (List.getElem?_eq_some_iff.1 hop).1
    rw [← hid, hstart] at hnone
    cases hnone
  rcases hl with hstart | ⟨A, userId, dto, hw, hop⟩
  · rcases hl' with hstart' | ⟨A', userId', dto', hw', hop'⟩
    · rw [← hid, hstart] at hstart'
      cases hstart'
      rfl
    · exact absurd hop' (started hid hstart)
  · rcases hl' with hstart' | ⟨A', userId', dto', hw', hop'⟩
    · exact absurd hop (started hid.symm hstart')
    · rw [← hid] at hw'
      rcases hw.cases hw' with ⟨-, -, heq⟩ | hearlier | hearlier
      · cases heq
        rfl
      · obtain ⟨op, -, hG⟩ := written h hw'
        exact Bool.noConfusion (hG.1 A _ hearlier)
      · obtain ⟨op, -, hG⟩ := written h hw
        exact Bool.noConfusion (hG.1 A' _ hearlier)

/-- Another status than PENDING was written by a worker. -/
theorem status_written (h : (system env).Reachable d₀ s) (hstart : d₀.checks.get? id = none)
    (hL : L <+: s.log) {c : LinkCheck} (hc : (d₀.at L).checks.get? id = some c)
    (hstatus : c.accessibilityStatus ≠ .pending) :
    ∃ A i checkedAt, WrittenAt L A i (.setStatus id c.accessibilityStatus checkedAt) := by
  refine along_log (L := s.log) (I := fun L => ∀ c, (d₀.at L).checks.get? id = some c →
    c.accessibilityStatus ≠ .pending → ∃ A i checkedAt,
      WrittenAt L A i (.setStatus id c.accessibilityStatus checkedAt))
    (fun c hc _ => ?_) (fun l g hl ih c hc hstatus => ?_) L hL c hc hstatus
  · cases hstart.symm.trans hc
  · have hlg : l <+: l ++ [g] := List.prefix_append _ _
    have before : ∀ c₀, (d₀.at l).checks.get? id = some c₀ →
        c₀.accessibilityStatus = c.accessibilityStatus → ∃ A i checkedAt,
          WrittenAt (l ++ [g]) A i (.setStatus id c.accessibilityStatus checkedAt) := by
      intro c₀ hc₀ hsame
      obtain ⟨A, i, checkedAt, hw⟩ := ih c₀ hc₀ (hsame ▸ hstatus)
      exact ⟨A, i, checkedAt, hsame ▸ hw.mono hlg⟩
    obtain ⟨op, w, hg, -, -⟩ := published h hl
    rw [hg, at_snoc] at hc
    cases hresets : w.resets id with
    | false =>
      rcases @check_apply (d₀.at l) _ _ hresets with hsame | ⟨status, checkedAt, rfl⟩
      · exact before c (hsame ▸ hc) rfl
      · rw [setStatus_get?, Option.map_eq_some_iff] at hc
        obtain ⟨c₀, -, rfl⟩ := hc
        rw [hg]
        exact ⟨l, g.call, checkedAt, writtenAt_self _ _ _⟩
    | true =>
      cases w with
      | edits w =>
        cases w with
        | insertLink l₁ =>
          obtain rfl : l₁.id = id := of_decide_eq_true hresets
          have hfree : ((d₀.at l).checks.delete l₁.id).get? (LinkCheck.fresh l₁.id).linkId =
              none := Table.get?_delete.trans (if_pos rfl)
          have hget : (store.apply (d₀.at l) (.edits (.insertLink l₁))).checks.get? l₁.id =
              some (LinkCheck.fresh l₁.id) := Table.get?_insert_self hfree
          rw [hget] at hc
          cases hc
          exact absurd rfl hstatus
        | _ => cases hresets
      | saveLink id' reread =>
        obtain rfl : id' = id := of_decide_eq_true hresets
        have hget : (store.apply (d₀.at l) (.saveLink id' reread)).checks.get? id' =
            if id' = id' then ((d₀.at l).checks.get? id').map reread.reset
            else (d₀.at l).checks.get? id' := Table.get?_modify reread.reset fun _ => rfl
        rw [hget, if_pos rfl, Option.map_eq_some_iff] at hc
        obtain ⟨c₀, hc₀, rfl⟩ := hc
        refine before c₀ hc₀ ?_
        by_cases hsame : LinkAccessibilityStatus.pending = reread.accessibilityStatus
        · exact (if_pos hsame).symm
        · exact absurd (if_neg hsame) hstatus
      | _ => cases hresets

/-- The status of a link that was checked is what the prober has said of its URL. -/
theorem status_probed (h : (system env).Reachable d₀ s) (hnew : NewLinks d₀ s)
    (hstart : d₀.checks.get? id = none) {l : ProfileLink} {c : LinkCheck}
    (hl : s.db.link? id = some l) (hc : s.db.checks.get? id = some c)
    (hstatus : c.accessibilityStatus ≠ .pending) :
    ∃ A i checkedAt, s.ops[i]? = some (.process id) ∧
      WrittenAt s.log A i (.setStatus id c.accessibilityStatus checkedAt) ∧
      c.accessibilityStatus = statusOf env i l.url := by
  have hdb : s.db = d₀.at s.log := (checks_followed env d₀).db h.within
  rw [hdb] at hl hc
  obtain ⟨A, i, checkedAt, hw⟩ := status_written h hstart List.prefix_rfl hc hstatus
  obtain ⟨op, hop, rfl, M, link, hM, hlink, hprobed⟩ := written h hw
  have hid : link.id = l.id := (link_id hlink).trans (link_id hl).symm
  obtain rfl := origin_unique h hnew hid (origin h (hM.trans hw.onto) hlink)
    (origin h List.prefix_rfl hl)
  exact ⟨A, i, checkedAt, hop, hw, hprobed⟩

end

/-! ## A link that stays pending -/

/-- User 6 has the profile 5. -/
def candidate : Db :=
  ⟨⟨{ Cvtheque.Db.empty with
    profiles := Table.insert ∅ (Cvtheque.CandidateProfileService.newProfile 5 6 0) }, []⟩, ∅, ∅⟩

def answering : Environment where
  network _ :=
    { parse := fun _ => some ⟨"https:", "github.com".toList⟩
      lookup := fun _ => .ok ["140.82.121.3".toList]
      fetch := fun _ _ => .ok 200 }
  brokerUp _ := true

def github : CreateProfileLinkDto := ⟨.github, "https://github.com/c", none⟩

def githubLink : ProfileLink := Edits.CandidateLinkService.newLink 0 5 github

/-- The link is added, and a worker has written its status. -/
def verified : List (Label Error Op) :=
  .spawn (.create 6 github) :: steps 0 15 ++ .spawn (.process 0) :: steps 1 4

theorem status_probed_reachable : ∃ (s : RunState) (i : Nat),
    (system answering).Reachable candidate s ∧ s.ops[i]? = some (.process 0) ∧
      .reachable = statusOf answering i githubLink.url := by
  have hrun : (((system answering).runLabels .all (State.init candidate) verified).map fun s =>
        (s.db.link? 0, (s.db.checks.get? 0).map (·.accessibilityStatus))) =
      some (some githubLink, some .reachable) := by decide +kernel
  obtain ⟨s, hs, he⟩ := System.reach_of_run hrun
  obtain ⟨hlink, hstatus⟩ := Prod.mk.inj he
  obtain ⟨c, hc, hreachable⟩ := Option.map_eq_some_iff.1 hstatus
  have hnew : NewLinks candidate s := fun i _ => rfl
  have hchecked : c.accessibilityStatus ≠ .pending := by
    rw [hreachable]
    rintro ⟨⟩
  obtain ⟨A, i, checkedAt, hop, -, hprobed⟩ := status_probed hs hnew rfl hlink hc hchecked
  exact ⟨s, i, hs, hop, hreachable.symm.trans hprobed⟩

end JobBoard.Candidates.LinkVerification
