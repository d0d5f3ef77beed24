import JobBoard.Cvtheque.Freshness
import JobBoard.Cvtheque.SavedSearches

/-!
# The anchor of the alerts

The anchor of a saved search is the time up to which its matches have been announced. A sweep
advances it by a compare-and-set on the value it has loaded, to the time at which it started with
the search. An edit of the owner saves the whole entity, with the anchor that it has loaded: only
such a save sets an anchor back.
-/

set_option autoImplicit false

namespace JobBoard.Cvtheque.SavedSearches

open Txn Prog
open SavedSearchAlertService (enabledSearches alertOf)

/-! ## What the calls publish -/

section

variable (env : Environment) (d₀ : Db) (i : Nat)

/-- At `L` sweep `i` has loaded the search, read the clock and counted the profiles `ids`. -/
structure Counts (L : Log) (search : SavedSearch) (next : Time) (ids : List Id) : Prop where
  counted : ∃ B ss C T, WrittenAt L B i (.cvtheque (.trace (.loaded ss))) ∧
    search ∈ enabledSearches (dbAt d₀ B) ∧
    B <+: T ∧ T <+: L ∧ next = (dbAt d₀ T).now ∧ B <+: C ∧ C <+: L ∧
    SearchService.newMatches env search.criteria.toFilters search.lastNotifiedAt (dbAt d₀ C) =
      .ok ids

/-- The anchor is one that the search had before, or a time read before. -/
def AnchorKnown (L : Log) (search : SavedSearch) : Prop :=
  ∀ anchor, search.lastNotifiedAt = some anchor → ∃ A, A <+: L ∧
    (anchor = (dbAt d₀ A).now ∨ ∃ row, (dbAt d₀ A).savedSearches.get? search.id = some row ∧
      row.lastNotifiedAt = some anchor)

/-- What is known of a write of call `i` at the log `L`. -/
def Guarantee (L : Log) : Write → Prop
  | .cvtheque (.claimAdvance id next ids) => ∃ search row, search.id = id ∧
    Counts env d₀ i L search next ids ∧ (dbAt d₀ L).savedSearches.get? id = some row ∧
    row.lastNotifiedAt = search.lastNotifiedAt
  | .cvtheque (.insertNotification _ id ids) => ∃ A next, WrittenAt L A i
    (.cvtheque (.claimAdvance id next ids)) ∧
    ByOthers i (A ++ [⟨i, false, [.cvtheque (.claimAdvance id next ids)]⟩]) L
  | .insertSearch search => AnchorKnown d₀ L search
  | .saveSearch entity _ => AnchorKnown d₀ L entity
  | _ => True

end

section

variable {config : Config} {env : Environment} {d₀ : Db} {i : Nat} {L : Log}

theorem at_snoc (L : Log) (i : Nat) (w : Write) :
    dbAt d₀ (L ++ [⟨i, false, [w]⟩]) = store.apply (dbAt d₀ L) w := replay_snoc ..

abbrev Keeps {α : Type} (env : Environment) (d₀ : Db) (i : Nat) (p : M α) (Q : Log → α → Prop)
    (L : Log) : Prop :=
  p.Promises store d₀ i (Guarantee env d₀ i) (fun e => isFault e = true) Q L

/-! ### Edits of the owner -/

theorem insertSearch_keeps {search : Time → SavedSearch} {Q : Log → SavedSearch → Prop}
    (h : ∀ L', L <+: L' → AnchorKnown d₀ L' (search (dbAt d₀ L').now)) (hQ : ∀ L' s, Q L' s) :
    Keeps env d₀ i (SavedSearchService.insertSearch search) Q L := by
  refine promises_query fun L₁ ws s hr hf => ?_
  split at hf
  · cases hf
  · cases hf
    exact .inr ⟨_, rfl, h L₁ hr.onto, hQ _ _⟩

theorem create_keeps {uuid ownerUserId : Id} {dto : CreateSavedSearchDto}
    {Q : Log → SavedSearch → Prop} (hQ : ∀ L' s, Q L' s) :
    Keeps env d₀ i (SavedSearchService.create uuid ownerUserId dto) Q L := by
  refine insertSearch_keeps (fun L' _ anchor hanchor => ⟨L', List.prefix_rfl, .inl ?_⟩) hQ
  dsimp only at hanchor
  split at hanchor
  · exact (Option.some.inj hanchor).symm
  · cases hanchor

theorem AnchorKnown.mono {L' : Log} {search : SavedSearch} (h : AnchorKnown d₀ L search)
    (hl : L <+: L') : AnchorKnown d₀ L' search := fun anchor hanchor => by
  obtain ⟨A, hA, hknown⟩ := h anchor hanchor
  exact ⟨A, hA.trans hl, hknown⟩

theorem save_keeps {existing : SavedSearch} {Q : Log → SavedSearch → Prop}
    (h : AnchorKnown d₀ L existing) (hQ : ∀ L' s, Q L' s) :
    Keeps env d₀ i (SavedSearchService.save existing) Q L := by
  refine promises_bind.2 (promises_select fun L₁ hr₁ => ?_)
  cases (dbAt d₀ L₁).savedSearches.get? existing.id with
  | none => exact insertSearch_keeps (fun L' hl => h.mono (hr₁.onto.trans hl)) hQ
  | some reread =>
    exact promises_bind.2 (promises_write fun L₂ hr₂ =>
      ⟨h.mono (hr₁.onto.trans hr₂.onto), hQ _ _⟩)

theorem update_keeps {ownerUserId id : Id} {dto : UpdateSavedSearchDto}
    {Q : Log → SavedSearch → Prop} (hQ : ∀ L' s, Q L' s) :
    Keeps env d₀ i (SavedSearchService.update ownerUserId id dto) Q L := by
  unfold SavedSearchService.update SavedSearchService.findOwned
  refine promises_bind.2 (promises_bind.2 (promises_select fun L₁ _ => ?_))
  cases hfound : ((dbAt d₀ L₁).savedSearches.get? id).filter (·.ownerUserId = ownerUserId) with
  | none => trivial
  | some existing =>
    have hexisting := (Option.filter_eq_some_iff.1 hfound).1
    have hid : existing.id = id := Table.key_of_get? hexisting
    refine promises_bind.2 (promises_select fun L₂ hr₂ => ?_)
    refine save_keeps (fun anchor hanchor => ?_) hQ
    unfold SavedSearchService.edited at hanchor
    dsimp only at hanchor
    split at hanchor
    · exact ⟨L₂, List.prefix_rfl, .inl (Option.some.inj hanchor).symm⟩
    · refine ⟨L₁, hr₂.onto, .inr ⟨existing, ?_, hanchor⟩⟩
      show (dbAt d₀ L₁).savedSearches.get? existing.id = some existing
      rw [hid, hexisting]

theorem remove_keeps {ownerUserId id : Id} {Q : Log → Unit → Prop} (hQ : ∀ L', Q L' ()) :
    Keeps env d₀ i (SavedSearchService.remove ownerUserId id) Q L := by
  unfold SavedSearchService.remove
  have hrest : ∀ (affected : Bool) (L' : Log), Keeps env d₀ i (if ¬ affected then
      throw (.notFound "Saved search not found") else ret ()) Q L' := by
    intro affected L'
    cases affected with
    | false => trivial
    | true => exact hQ L'
  refine promises_bind.2 (promises_query fun L₁ ws affected _ hf => ?_)
  split at hf
  · cases hf
    exact .inl ⟨rfl, hrest _ _⟩
  · cases hf
    exact .inr ⟨_, rfl, trivial, hrest _ _⟩

/-! ### Sweeps -/

theorem attempt_keeps {failures : List SweepFailure} {searchId : Id} {stage : SweepStage}
    {Q : Log → Unit → Prop} (h : Q L ()) :
    Keeps env d₀ i (inCvtheque (SavedSearchAlertService.attempt failures searchId stage)) Q L := by
  unfold SavedSearchAlertService.attempt
  split
  · trivial
  · exact h

/-- From the advance on the call publishes the notification and nothing else. -/
theorem notify_keeps {failures : List SweepFailure} {search : SavedSearch} {A : Log} {next : Time}
    {ids : List Id} {Q : Log → Bool → Prop}
    (hQ : ∀ L' b, A <+: L' → Q L' b) :
    Keeps env d₀ i (inCvtheque (do
        SavedSearchAlertService.attempt failures search.id .notify
        write fun _ => [.insertNotification (alertOf search ids.length) search.id ids]
        return true)) Q (A ++ [⟨i, false, [.cvtheque (.claimAdvance search.id next ids)]⟩]) := by
  unfold inCvtheque
  rw [zoom_bind]
  refine promises_bind.2 (attempt_keeps ?_)
  rw [zoom_bind]
  refine promises_bind.2 (promises_write fun L₁ hr₁ => ⟨⟨A, next, ?_, hr₁⟩, ?_⟩)
  · exact (writtenAt_self _ _ _).mono hr₁.onto
  · exact hQ _ true (((List.prefix_append _ _).trans hr₁.onto).trans (List.prefix_append _ _))

theorem sweepSearch_keeps {failures : List SweepFailure} {search : SavedSearch} {B : Log}
    {ss : List SavedSearch} {Q : Log → Bool → Prop}
    (hB : WrittenAt L B i (.cvtheque (.trace (.loaded ss))))
    (hsearch : search ∈ enabledSearches (dbAt d₀ B)) (hQ : ∀ L' b, L <+: L' → Q L' b) :
    Keeps env d₀ i (inCvtheque (SavedSearchAlertService.sweepSearch env failures search)) Q L := by
  unfold SavedSearchAlertService.sweepSearch inCvtheque
  rw [zoom_bind, zoom_query]
  refine promises_bind.2 (promises_query fun T ws sweepStart hrT hf => ?_)
  cases hf
  refine .inr ⟨_, rfl, trivial, ?_⟩
  have hT : L <+: T := hrT.onto
  rw [zoom_bind]
  refine promises_bind.2 (attempt_keeps ?_)
  rw [zoom_bind, zoom_query]
  refine promises_bind.2 (promises_query fun C ws ids hrC hf => ?_)
  have hTC : T <+: C := (List.prefix_append _ _).trans hrC.onto
  cases hcount : SearchService.newMatches env search.criteria.toFilters search.lastNotifiedAt
      (dbAt d₀ C) with
  | error e =>
    rw [hcount] at hf
    cases hf
  | ok counted =>
    rw [hcount] at hf
    cases hf
    refine .inr ⟨_, rfl, trivial, ?_⟩
    have hC : C <+: C ++ [⟨i, false, [.cvtheque (.trace (.counted search.id counted))]⟩] :=
      List.prefix_append _ _
    have hcounts : ∀ L', C <+: L' → Counts env d₀ i L' search (dbAt d₀ T).now counted := fun L' hl =>
      ⟨B, ss, C, T, hB.mono ((hT.trans hTC).trans hl), hsearch, hB.onto.trans hT, hTC.trans hl, rfl,
        hB.onto.trans (hT.trans hTC), hl, hcount⟩
    show Keeps env d₀ i (inCvtheque (if counted.length ≤ 0 then _ else _)) Q _
    split
    · exact hQ _ _ ((hT.trans hTC).trans hC)
    · unfold inCvtheque
      rw [zoom_bind]
      refine promises_bind.2 (attempt_keeps ?_)
      rw [zoom_bind]
      unfold SavedSearchAlertService.claimAdvance
      rw [zoom_query]
      refine promises_bind.2 (promises_query fun A ws claimed hrA hf => ?_)
      have hCA : C <+: A := hC.trans hrA.onto
      have hLA : L <+: A := (hT.trans hTC).trans hCA
      cases hrow : (dbAt d₀ A).savedSearches.get? search.id with
      | none =>
        rw [hrow] at hf
        cases hf
        exact .inl ⟨rfl, hQ _ _ hLA⟩
      | some row =>
        rw [hrow] at hf
        dsimp only at hf
        split at hf
        · next hsince =>
          cases hf
          refine .inr ⟨_, rfl, ⟨search, row, rfl, hcounts A hCA, hrow, hsince⟩, ?_⟩
          exact notify_keeps fun L' b hl => hQ L' b (hLA.trans hl)
        · cases hf
          exact .inl ⟨rfl, hQ _ _ hLA⟩

theorem sweepSearches_keeps {failures : List SweepFailure} {searches : List SavedSearch} {B : Log}
    {ss : List SavedSearch} {Q : Log → Nat → Prop}
    (hB : WrittenAt L B i (.cvtheque (.trace (.loaded ss))))
    (hsearches : ∀ search ∈ searches, search ∈ enabledSearches (dbAt d₀ B))
    (hQ : ∀ L' n, Q L' n) :
    Keeps env d₀ i (inCvtheque (SavedSearchAlertService.sweepSearches env failures searches))
      Q L := by
  induction searches generalizing L Q with
  | nil => exact hQ _ _
  | cons search rest ih =>
    unfold SavedSearchAlertService.sweepSearches inCvtheque
    rw [zoom_bind, zoom_caught]
    have hrest : ∀ L' (notified : Bool), L <+: L' → Keeps env d₀ i (inCvtheque (do
        let notifiedCount ← SavedSearchAlertService.sweepSearches env failures rest
        return (if notified then 1 else 0) + notifiedCount)) Q L' := by
      intro L' notified hl
      unfold inCvtheque
      rw [zoom_bind]
      exact promises_bind.2 (ih (hB.mono hl)
        (fun search hs => hsearches search (List.mem_cons_of_mem _ hs)) fun _ _ => hQ _ _)
    refine promises_bind.2 (promises_caught ?_ fun L' e hl => hrest L' false hl)
    exact sweepSearch_keeps hB (hsearches search List.mem_cons_self) fun L' notified hl =>
      hrest L' notified hl

theorem runAlertSweep_keeps {failures : List SweepFailure} {Q : Log → Nat → Prop}
    (hQ : ∀ L' n, Q L' n) :
    Keeps env d₀ i (inCvtheque (SavedSearchAlertService.runAlertSweep env failures)) Q L := by
  unfold SavedSearchAlertService.runAlertSweep inCvtheque
  rw [zoom_bind, zoom_query]
  refine promises_bind.2 (promises_query fun B ws searches _ hf => ?_)
  cases hf
  refine .inr ⟨_, rfl, trivial, ?_⟩
  exact sweepSearches_keeps (writtenAt_self B i (.cvtheque (.trace (.loaded _))))
    (fun _ hs => hs) hQ

/-! ### The system -/

/-- The other methods of the CVthèque leave the anchors. -/
theorem editsOnly_keeps {α : Type} {op : Cvtheque.Op} {p : Cvtheque.M α} {Q : Log → α → Prop}
    (hp : EditsOnly op p) (hQ : ∀ L' a, Q L' a) : Keeps env d₀ i (inCvtheque p) Q L := by
  have hedits : ∀ ws, Edits op ws → ws.map Write.cvtheque = [] ∨
      ∃ w, ws.map Write.cvtheque = [w] ∧ ∀ L, Guarantee env d₀ i L w := by
    rintro ws (rfl | ⟨w, rfl, hw⟩)
    · exact .inl rfl
    · refine .inr ⟨_, rfl, fun L => ?_⟩
      -- at the empty log no sweep has counted anything
      have hstart := hw env d₀ i []
      cases w with
      | claimAdvance id next ids =>
        obtain ⟨search, C, row, -, ⟨B, hB⟩, -⟩ := hstart
        exact absurd hB.symm (by simp)
      | insertNotification n id ids =>
        obtain ⟨search, A, B, sweepStart, -, hB, -⟩ := hstart
        exact absurd hB.symm (by simp)
      | _ => trivial
  exact (Plain.promises (hp.zoom hedits hedits)).mono fun L' a _ => hQ L' a

theorem anchors_followed (config : Config) (env : Environment) (d₀ : Db)
    (ok : RunState → Label Error Op → Prop) :
    Followed (system config env) ok d₀ (fun i _ => Guarantee env d₀ i) (fun _ _ _ _ => True)
      fun _ _ _ => True where
  mono _ _ := trivial
  others _ _ := trivial
  fault _ _ _ _ := trivial
  prog i op L _ := by
    cases op with
    | cvtheque op =>
      refine promises_bind.2 ?_
      by_cases hsweep : ∃ failures, op = .runAlertSweep failures
      · obtain ⟨failures, rfl⟩ := hsweep
        show Keeps env d₀ i (inCvtheque (_ >>= _)) _ L
        unfold inCvtheque
        rw [zoom_bind]
        exact promises_bind.2 (runAlertSweep_keeps fun _ _ => trivial)
      · exact editsOnly_keeps
          (program_editsOnly config env i fun failures h => hsweep ⟨failures, h⟩) fun _ _ => trivial
    | create ownerUserId dto => exact promises_bind.2 (create_keeps fun _ _ => trivial)
    | update ownerUserId id dto => exact promises_bind.2 (update_keeps fun _ _ => trivial)
    | remove ownerUserId id => exact promises_bind.2 (remove_keeps fun _ => trivial)

end

/-! ## The anchor after a write -/

/-- No anchor is before every other. -/
def isBefore : Option Time → Option Time → Bool
  | some a, some b => a < b
  | none, some _ => true
  | _, none => false

/-- The write is an edit of the owner that sets the anchor of the search `id` back, or removes
the search. -/
def Write.setsBack (db : Db) (id : Id) : Write → Bool
  | .saveSearch entity reread => entity.id = id && (db.savedSearches.get? id).any fun row =>
    isBefore (overwrite entity reread row).lastNotifiedAt row.lastNotifiedAt
  | .deleteSearch id' => id' = id
  | _ => false

section

variable {db : Db} {w : Write} {id : Id} {row : SavedSearch}

theorem get?_saveSearch (db : Db) (entity reread : SavedSearch) (id : Id) :
    (store.apply db (.saveSearch entity reread)).savedSearches.get? id =
      if id = entity.id then (db.savedSearches.get? id).map (overwrite entity reread)
      else db.savedSearches.get? id :=
  Table.get?_modify (overwrite entity reread) fun _ => rfl

theorem get?_claimAdvance (db : Db) (id : Id) (next : Time) (ids : List Id) :
    (store.apply db (.cvtheque (.claimAdvance id next ids))).savedSearches.get? id =
      (db.savedSearches.get? id).map fun s => { s with lastNotifiedAt := some next } := by
  have hget : (store.apply db (.cvtheque (.claimAdvance id next ids))).savedSearches.get? id =
      if id = id then (db.savedSearches.get? id).map fun s => { s with lastNotifiedAt := some next }
      else db.savedSearches.get? id :=
    Table.get?_modify (fun s : SavedSearch => { s with lastNotifiedAt := some next }) fun _ => rfl
  rw [hget, if_pos rfl]

/-- An anchor that is not set back is kept, or a sweep advances it. -/
theorem anchor_after (h : db.savedSearches.get? id = some row) (hback : w.setsBack db id = false) :
    ∃ row', (store.apply db w).savedSearches.get? id = some row' ∧
      (isBefore row'.lastNotifiedAt row.lastNotifiedAt = false ∨ ∃ next ids,
        w = .cvtheque (.claimAdvance id next ids) ∧ row'.lastNotifiedAt = some next) := by
  have hself : isBefore row.lastNotifiedAt row.lastNotifiedAt = false := by
    cases row.lastNotifiedAt with
    | none => rfl
    | some anchor => exact decide_eq_false (Int.lt_irrefl anchor)
  cases w with
  | cvtheque w =>
    rcases search_after db w id with hsame | ⟨next, ids, rfl, hnext⟩
    · exact ⟨row, hsame.trans h, .inl hself⟩
    · rw [h] at hnext
      exact ⟨_, hnext, .inr ⟨next, ids, rfl, rfl⟩⟩
  | insertSearch search => exact ⟨row, Table.get?_insert_of_some h, .inl hself⟩
  | saveSearch entity reread =>
    rw [get?_saveSearch]
    split
    · next hid =>
      subst hid
      simp only [Write.setsBack, decide_true, Bool.true_and, h, Option.any_some] at hback
      exact ⟨_, by rw [h]; rfl, .inl hback⟩
    · exact ⟨row, h, .inl hself⟩
  | deleteSearch id' =>
    have hne : id' ≠ id := of_decide_eq_false hback
    have hid : row.id = id := Table.key_of_get? h
    refine ⟨row, Table.get?_eq_some.2 ⟨List.mem_filter.2 ⟨Table.mem_of_get? h, ?_⟩, hid⟩, .inl hself⟩
    simpa [hid] using hne.symm

/-- Where an anchor comes from. -/
theorem anchor_before {row' : SavedSearch} {anchor : Time}
    (h : (store.apply db w).savedSearches.get? id = some row')
    (hanchor : row'.lastNotifiedAt = some anchor) :
    (∃ row, db.savedSearches.get? id = some row ∧ row.lastNotifiedAt = some anchor) ∨
      (∃ ids, w = .cvtheque (.claimAdvance id anchor ids)) ∨
      (∃ search, w = .insertSearch search ∧ search.lastNotifiedAt = some anchor) ∨
      ∃ entity reread, w = .saveSearch entity reread ∧ entity.lastNotifiedAt = some anchor := by
  cases w with
  | cvtheque w =>
    rcases search_after db w id with hsame | ⟨next, ids, rfl, hnext⟩
    · exact .inl ⟨row', hsame.symm.trans h, hanchor⟩
    · obtain ⟨row, hrow, rfl⟩ := Option.map_eq_some_iff.1 (hnext.symm.trans h)
      cases hanchor
      exact .inr (.inl ⟨ids, rfl⟩)
  | insertSearch search =>
    obtain ⟨hmem, hid⟩ := Table.get?_eq_some.1 h
    rcases Table.mem_insert hmem with hmem | rfl
    · exact .inl ⟨row', Table.get?_eq_some.2 ⟨hmem, hid⟩, hanchor⟩
    · exact .inr (.inr (.inl ⟨_, rfl, hanchor⟩))
  | saveSearch entity reread =>
    rw [get?_saveSearch] at h
    split at h
    · obtain ⟨row, hrow, rfl⟩ := Option.map_eq_some_iff.1 h
      rcases setColumn_eq entity.lastNotifiedAt reread.lastNotifiedAt row.lastNotifiedAt with
        hrowAnchor | ⟨hentity, -⟩
      · exact .inl ⟨row, hrow, hrowAnchor.symm.trans hanchor⟩
      · exact .inr (.inr (.inr ⟨entity, reread, rfl, hentity.symm.trans hanchor⟩))
    · exact .inl ⟨row', h, hanchor⟩
  | deleteSearch id' =>
    obtain ⟨hmem, hid⟩ := Table.get?_eq_some.1 h
    exact .inl ⟨row', Table.get?_eq_some.2 ⟨(List.mem_filter.1 hmem).1, hid⟩, hanchor⟩

theorem clock_after (db : Db) (w : Write) : db.clock ≤ (store.apply db w).clock := by
  cases w with
  | cvtheque w =>
    cases w with
    | tick us => exact Int.le_add_of_nonneg_right (Int.natCast_nonneg us)
    | _ => exact Int.le_refl _
  | _ => exact Int.le_refl _

end

/-! ## Anchors of a run -/

/-- Every anchor is in the past. -/
def AnchorsPast (db : Db) : Prop :=
  ∀ id row anchor, db.savedSearches.get? id = some row → row.lastNotifiedAt = some anchor →
    anchor ≤ db.now

/-- Since the moment `A` an edit of the owner has set the anchor of the search back. -/
def SetBackSince (d₀ : Db) (A L : Log) (id : Id) : Prop :=
  ∃ B k w, A <+: B ∧ WrittenAt L B k w ∧ w.setsBack (dbAt d₀ B) id = true

section

variable {config : Config} {env : Environment} {d₀ : Db} {s : RunState} {i : Nat} {A L : Log}
  {id : Id} {next : Time} {ids : List Id}

theorem now_mono (hl : A <+: L) : (dbAt d₀ A).now ≤ (dbAt d₀ L).now := by
  have hclock : (dbAt d₀ A).clock ≤ (dbAt d₀ L).clock :=
    replay_keeps (S := store) (P := fun db => (dbAt d₀ A).clock ≤ db.clock)
      (fun db w hle => Int.le_trans hle (clock_after db w)) hl (Int.le_refl _)
  exact Int.ediv_le_ediv (by decide) hclock

theorem published_anchor (h : (system config env).Reachable d₀ s) {g : Txn.Group Write}
    (hl : L ++ [g] <+: s.log) : ∃ w, g = ⟨g.call, false, [w]⟩ ∧ Guarantee env d₀ g.call L w := by
  obtain ⟨op, w, t, hg, -, ht⟩ := (anchors_followed config env d₀ _).published h.within hl
  exact ⟨w, hg, ht.promised⟩

theorem anchorKnown_past {search : SavedSearch} {anchor : Time}
    (hpast : ∀ A, A <+: L → AnchorsPast (dbAt d₀ A)) (h : AnchorKnown d₀ L search)
    (hanchor : search.lastNotifiedAt = some anchor) : anchor ≤ (dbAt d₀ L).now := by
  obtain ⟨A, hA, hnow | ⟨row, hrow, hrowAnchor⟩⟩ := h anchor hanchor
  · exact hnow ▸ now_mono hA
  · exact Int.le_trans (hpast A hA _ row anchor hrow hrowAnchor) (now_mono hA)

theorem anchors_past (h₀ : AnchorsPast d₀) (h : (system config env).Reachable d₀ s) :
    ∀ L, L <+: s.log → AnchorsPast (dbAt d₀ L) := by
  have hall : ∀ L, L <+: s.log → ∀ A, A <+: L → AnchorsPast (dbAt d₀ A) := by
    refine along_log (fun A hA => ?_) fun L g hl ih A hA => ?_
    · rw [List.prefix_nil.1 hA]
      exact h₀
    · rcases List.prefix_concat_iff.1 hA with rfl | hA
      · intro id row' anchor hrow' hanchor
        have hlater : (dbAt d₀ L).now ≤ (dbAt d₀ (L ++ [g])).now := now_mono (List.prefix_append _ _)
        refine Int.le_trans ?_ hlater
        obtain ⟨w, hg, hG⟩ := published_anchor h hl
        rw [hg, at_snoc] at hrow'
        rcases anchor_before hrow' hanchor with ⟨row, hrow, hrowAnchor⟩ | ⟨ids, rfl⟩ |
          ⟨search, rfl, hsearch⟩ | ⟨entity, reread, rfl, hentity⟩
        · exact ih L List.prefix_rfl _ row anchor hrow hrowAnchor
        · obtain ⟨search, row, -, ⟨B, ss, C, T, -, -, -, hT, rfl, -⟩, -⟩ := hG
          exact now_mono hT
        · exact anchorKnown_past ih hG hsearch
        · exact anchorKnown_past ih hG hentity
      · exact ih A hA
  exact fun L hL => hall L hL L List.prefix_rfl

/-- An advance does not move the anchor backwards. -/
theorem claim_forward (h₀ : AnchorsPast d₀) (h : (system config env).Reachable d₀ s)
    (hA : WrittenAt s.log A i (.cvtheque (.claimAdvance id next ids))) :
    ∃ row, (dbAt d₀ A).savedSearches.get? id = some row ∧
      ∀ since, row.lastNotifiedAt = some since → since ≤ next := by
  obtain ⟨w, hg, hG⟩ := published_anchor h hA
  cases hg
  obtain ⟨search, row, -, ⟨B, ss, C, T, hB, hsearch, hBT, hTA, rfl, -⟩, hrow, hanchor⟩ := hG
  refine ⟨row, hrow, fun since hsince => ?_⟩
  have hloaded : (dbAt d₀ B).savedSearches.get? search.id = some search :=
    Table.get?_of_mem (List.mem_filter.1 hsearch).1
  have hpast := anchors_past h₀ h B ((hBT.trans hTA).trans hA.onto) _ search since hloaded
    (hanchor.symm.trans hsince)
  exact Int.le_trans hpast (now_mono hBT)

/-- Unless the owner sets it back, the anchor stays at or after an advance. -/
theorem anchor_since (h₀ : AnchorsPast d₀) (h : (system config env).Reachable d₀ s)
    (hA : WrittenAt s.log A i (.cvtheque (.claimAdvance id next ids))) :
    ∀ L, A ++ [⟨i, false, [.cvtheque (.claimAdvance id next ids)]⟩] <+: L → L <+: s.log →
      SetBackSince d₀ A L id ∨ ∃ row anchor, (dbAt d₀ L).savedSearches.get? id = some row ∧
        row.lastNotifiedAt = some anchor ∧ next ≤ anchor := by
  obtain ⟨row, hrow, -⟩ := claim_forward h₀ h hA
  refine along_log_from (.inr ⟨{ row with lastNotifiedAt := some next }, next, ?_, rfl,
    Int.le_refl _⟩) fun L g hAL hl ih => ?_
  · rw [at_snoc, get?_claimAdvance, hrow]
    rfl
  · have hA' : A <+: L := (List.prefix_append _ _).trans hAL
    obtain ⟨w, hg, -⟩ := published_anchor h hl
    rcases ih with ⟨B, k, w', hB, hw', hback⟩ | ⟨row, anchor, hrow, hanchor, hle⟩
    · exact .inl ⟨B, k, w', hB, hw'.mono (List.prefix_append _ _), hback⟩
    · by_cases hback : w.setsBack (dbAt d₀ L) id = true
      · exact .inl ⟨L, g.call, w, hA', hg ▸ List.prefix_rfl, hback⟩
      · rw [hg, at_snoc]
        obtain ⟨row', hrow', hkept | ⟨next', ids', rfl, hnext⟩⟩ :=
          anchor_after hrow (Bool.not_eq_true _ ▸ hback)
        · cases hanchor' : row'.lastNotifiedAt with
          | none =>
            rw [hanchor, hanchor'] at hkept
            cases hkept
          | some anchor' =>
            rw [hanchor, hanchor'] at hkept
            have hlater : anchor ≤ anchor' := Int.not_lt.1 (of_decide_eq_false hkept)
            exact .inr ⟨row', anchor', hrow', hanchor', Int.le_trans hle hlater⟩
        · -- another sweep advances it, from the value that it has here
          have hclaim : WrittenAt s.log L g.call (.cvtheque (.claimAdvance id next' ids')) :=
            hg ▸ hl
          obtain ⟨row'', hrow'', hforward⟩ := claim_forward h₀ h hclaim
          cases hrow.symm.trans hrow''
          exact .inr ⟨row', next', hrow', hnext, Int.le_trans hle (hforward anchor hanchor)⟩

/-- A profile that is counted was updated after the anchor. -/
theorem updated_of_newMatches {db : Db} {criteria : SavedSearchCriteria} {since : Time} {p : Id}
    (h : SearchService.newMatches env criteria.toFilters (some since) db = .ok ids)
    (hp : p ∈ ids) : ∃ profile, db.profiles.get? p = some profile ∧
      ofDate since < profile.updatedAt := by
  have hquery : SearchService.buildQuery env criteria.toFilters db =
      .ok (SearchService.filterText env criteria.toFilters db) :=
    SearchService.buildQuery_no_cursor rfl
  simp only [SearchService.newMatches, hquery, Except.ok.injEq] at h
  rw [← h] at hp
  obtain ⟨r, hr, rfl⟩ := List.mem_map.1 hp
  obtain ⟨hrow, hholds⟩ := List.mem_filter.1 hr
  obtain ⟨profile, hmem, rfl⟩ := List.mem_map.1 hrow
  rw [Sql.Condition.holds_andWhere SearchService.filterText_conjunctive
    (Sql.Condition.conjunctive_atom _), Bool.and_eq_true] at hholds
  exact ⟨profile, Table.get?_of_mem hmem, of_decide_eq_true hholds.2⟩

/-! ## Advances and announcements -/

/-- The anchors of a run, and what its sweeps announce. -/
structure AnchorsAdvance (d₀ : Db) (s : RunState) : Prop where
  /-- A sweep advances the anchor to a time that it has read, and not backwards. -/
  forward : ∀ (A : Log) (i : Nat) id next ids,
    WrittenAt s.log A i (.cvtheque (.claimAdvance id next ids)) →
      (∃ T, T <+: A ∧ next = (dbAt d₀ T).now) ∧
      ∃ row, (dbAt d₀ A).savedSearches.get? id = some row ∧
        ∀ since, row.lastNotifiedAt = some since → since ≤ next
  /-- The same value is advanced from once, unless the owner has set the anchor back meanwhile or
  the first advance was in the millisecond of the anchor. -/
  once : ∀ (A A' : Log) (i j : Nat) id next next' ids ids' row row',
    WrittenAt A' A i (.cvtheque (.claimAdvance id next ids)) →
      WrittenAt s.log A' j (.cvtheque (.claimAdvance id next' ids')) →
        (dbAt d₀ A).savedSearches.get? id = some row →
          (dbAt d₀ A').savedSearches.get? id = some row' →
            row.lastNotifiedAt = row'.lastNotifiedAt →
              SetBackSince d₀ A A' id ∨ row.lastNotifiedAt = some next
  /-- A notification follows an advance of the same sweep, after which it has published nothing. -/
  notified : ∀ (N : Log) (i : Nat) n id ids,
    WrittenAt s.log N i (.cvtheque (.insertNotification n id ids)) → ∃ A next,
      WrittenAt N A i (.cvtheque (.claimAdvance id next ids)) ∧
        ByOthers i (A ++ [⟨i, false, [.cvtheque (.claimAdvance id next ids)]⟩]) N
  /-- A sweep that has loaded its searches after an advance announces what was updated after the
  time of the advance, unless the owner has set the anchor back meanwhile. -/
  fresh : ∀ (A' : Log) (j : Nat) id next' ids',
    WrittenAt s.log A' j (.cvtheque (.claimAdvance id next' ids')) → ∃ B ss,
      WrittenAt A' B j (.cvtheque (.trace (.loaded ss))) ∧ ∀ (A : Log) (i : Nat) next ids,
        WrittenAt B A i (.cvtheque (.claimAdvance id next ids)) → SetBackSince d₀ A B id ∨
          ∀ p ∈ ids', ∃ C profile, B <+: C ∧ C <+: A' ∧
            (dbAt d₀ C).profiles.get? p = some profile ∧ ofDate next < profile.updatedAt

theorem anchors_advance (h₀ : AnchorsPast d₀) (h : (system config env).Reachable d₀ s) :
    AnchorsAdvance d₀ s where
  forward A i id next ids hA := by
    obtain ⟨w, hg, hG⟩ := published_anchor h hA
    cases hg
    obtain ⟨search, row, -, ⟨B, ss, C, T, -, -, -, hTA, hnext, -⟩, -⟩ := hG
    exact ⟨⟨T, hTA, hnext⟩, claim_forward h₀ h hA⟩
  once A A' i j id next next' ids ids' row row' hA hA' hrow hrow' hsame := by
    have hwritten := hA.mono hA'.onto
    rcases anchor_since h₀ h hwritten A' hA hA'.onto with
      hback | ⟨row₁, anchor, hrow₁, hanchor, hle⟩
    · exact .inl hback
    · -- the anchor is at or after the first advance again
      cases hrow'.symm.trans hrow₁
      obtain ⟨row₂, hrow₂, hforward⟩ := claim_forward h₀ h hwritten
      cases hrow.symm.trans hrow₂
      have hback := hforward anchor (hsame.trans hanchor)
      rw [hsame, hanchor, Int.le_antisymm hback hle]
      exact .inr rfl
  notified N i n id ids hN := by
    obtain ⟨w, hg, hG⟩ := published_anchor h hN
    cases hg
    exact hG
  fresh A' j id next' ids' hA' := by
    obtain ⟨w, hg, hG⟩ := published_anchor h hA'
    cases hg
    obtain ⟨search, row, rfl, ⟨B, ss, C, T, hB, hsearch, -, -, -, hBC, hCA, hcounted⟩, -⟩ := hG
    refine ⟨B, ss, hB, fun A i next ids hA => ?_⟩
    have hBs : B <+: s.log := hB.onto.trans hA'.onto
    rcases anchor_since h₀ h (hA.mono hBs) B hA hBs with
      hback | ⟨row₁, anchor, hrow₁, hanchor, hle⟩
    · exact .inl hback
    · refine .inr fun p hp => ?_
      have hloaded : (dbAt d₀ B).savedSearches.get? search.id = some search :=
        Table.get?_of_mem (List.mem_filter.1 hsearch).1
      cases hloaded.symm.trans hrow₁
      rw [hanchor] at hcounted
      obtain ⟨profile, hprofile, hupdated⟩ := updated_of_newMatches hcounted hp
      refine ⟨C, profile, hBC, hCA, hprofile, Int.lt_of_le_of_lt ?_ hupdated⟩
      exact Int.mul_le_mul_of_nonneg_right hle (by decide)

end

/-! ## Anchors that are set back, and matches announced twice -/

/-- An anchor never moves back. -/
def NeverBack (d₀ : Db) (s : RunState) : Prop :=
  ∀ (A L : Log) id row row', A <+: L → L <+: s.log →
    (dbAt d₀ A).savedSearches.get? id = some row →
      (dbAt d₀ L).savedSearches.get? id = some row' →
        isBefore row'.lastNotifiedAt row.lastNotifiedAt = false

/-- No value of the anchor is advanced from twice. -/
def ClaimedOnce (d₀ : Db) (s : RunState) : Prop :=
  ∀ (A A' : Log) (i j : Nat) id next next' ids ids' row row',
    WrittenAt A' A i (.cvtheque (.claimAdvance id next ids)) →
      WrittenAt s.log A' j (.cvtheque (.claimAdvance id next' ids')) →
        (dbAt d₀ A).savedSearches.get? id = some row →
          (dbAt d₀ A').savedSearches.get? id = some row' →
            row.lastNotifiedAt ≠ row'.lastNotifiedAt

/-- A sweep that loads its searches after a notification announces no match of it. -/
def AnnouncedOnce (s : RunState) : Prop :=
  ∀ (N B N' : Log) (i j : Nat) id n n' ids ids' ss,
    WrittenAt B N i (.cvtheque (.insertNotification n id ids)) →
      WrittenAt N' B j (.cvtheque (.trace (.loaded ss))) →
        WrittenAt s.log N' j (.cvtheque (.insertNotification n' id ids')) → ∀ p ∈ ids, p ∉ ids'

/-- A visible profile that was updated at 4 ms, and a search whose anchor is at 1 ms. -/
def visibleProfile : Db :=
  { suspendedProfile with
    profiles := ⟨[{ CandidateProfileService.newProfile 1 1 0 with
      visibility := .publicVisibility
      completeness := 80
      indexedInCvtheque := true
      updatedAt := 4000 }], by decide⟩ }

theorem sampleSearch_past {db : Db} (h : db.savedSearches.rows = [sampleSavedSearch none])
    (hnow : 1 ≤ db.now) : AnchorsPast db := by
  intro id row anchor hrow hanchor
  have hmem := Table.mem_of_get? hrow
  rw [h, List.mem_singleton] at hmem
  rw [hmem] at hanchor
  cases hanchor
  exact hnow

/-- The owner renames the search. -/
def rename : Op := .update 7 1 ⟨some "Profils", none, none⟩

def sweep : Op := .cvtheque (.runAlertSweep [])

theorem anchors_advance_notified : ∃ s : RunState, s.db.notifications.length = 1 ∧
    AnchorsAdvance visibleProfile s := by
  have hrun : (((system Config.default SearchService.sampleEnvironment).runLabels .all
      (State.init visibleProfile) (.spawn rename :: steps 0 5 ++ .spawn sweep :: steps 1 6)).map
        fun s => s.db.notifications.length) = some 1 := by decide
  obtain ⟨s, hs, he⟩ := System.reach_of_run hrun
  exact ⟨s, he, anchors_advance (sampleSearch_past rfl (by decide)) hs⟩

/-- The owner renames the search while a sweep advances its anchor; then it is swept again. -/
def renamedWhileSwept : List (Label Error Op) :=
  .spawn rename :: steps 0 2 ++ .spawn sweep :: steps 1 6 ++ steps 0 3 ++ .spawn sweep :: steps 2 6

def anchorOf (db : Db) (id : Id) : Option (Option Time) :=
  (db.savedSearches.get? id).map (·.lastNotifiedAt)

theorem anchorOf_eq {db : Db} {id : Id} {anchor : Option Time} (h : anchorOf db id = some anchor) :
    ∃ row, db.savedSearches.get? id = some row ∧ row.lastNotifiedAt = anchor :=
  Option.map_eq_some_iff.1 h

/-- The second sweep advances from the anchor that the edit has written back. -/
theorem anchor_set_back : ∃ s : RunState,
    (system Config.default SearchService.sampleEnvironment).Reachable visibleProfile s ∧
      ¬ NeverBack visibleProfile s ∧ ¬ ClaimedOnce visibleProfile s := by
  have hrun : (((system Config.default SearchService.sampleEnvironment).runLabels .all
      (State.init visibleProfile) renamedWhileSwept).map fun s =>
        decide (anchorOf (dbAt visibleProfile (s.log.take 3)) 1 = some (some 1) ∧
          anchorOf (dbAt visibleProfile (s.log.take 5)) 1 = some (some 5) ∧
          anchorOf (dbAt visibleProfile (s.log.take 9)) 1 = some (some 1) ∧
          WrittenAt (s.log.take 9) (s.log.take 3) 1 (.cvtheque (.claimAdvance 1 5 [1])) ∧
          WrittenAt s.log (s.log.take 9) 2 (.cvtheque (.claimAdvance 1 5 [1])))) = some true := by
    decide
  obtain ⟨s, hs, he⟩ := System.reach_of_run hrun
  obtain ⟨hfirst, hadvanced, hback, hclaim, hagain⟩ := of_decide_eq_true he
  obtain ⟨row₁, hrow₁, hanchor₁⟩ := anchorOf_eq hfirst
  obtain ⟨row₅, hrow₅, hanchor₅⟩ := anchorOf_eq hadvanced
  obtain ⟨row₉, hrow₉, hanchor₉⟩ := anchorOf_eq hback
  refine ⟨s, hs, fun hnever => ?_, fun honce => ?_⟩
  · have h := hnever _ _ 1 row₅ row₉ (List.take_prefix_take_left (by decide : 5 ≤ 9))
      (List.take_prefix _ _) hrow₅ hrow₉
    rw [hanchor₅, hanchor₉] at h
    cases h
  · exact honce _ _ 1 2 1 5 5 [1] [1] row₁ row₉ hclaim hagain hrow₁ hrow₉
      (hanchor₁.trans hanchor₉.symm)

/-- The suspension is lifted after a sweep has read the clock and before it counts; then the
search is swept again. -/
def reinstatedWhileSwept : List (Label Error Op) :=
  .spawn sweep :: steps 0 2 ++ .spawn (.cvtheque (.clock 1000)) :: steps 1 2 ++
    .spawn (.cvtheque (.setModeration 1 .active 9)) :: steps 2 5 ++ steps 0 4 ++
    .spawn sweep :: steps 3 6

/-- Without an edit of the owner, the second sweep announces the profile again. -/
theorem announced_twice : ∃ s : RunState,
    (system Config.default SearchService.sampleEnvironment).Reachable suspendedProfile s ∧
      ¬ AnnouncedOnce s := by
  have hrun : (((system Config.default SearchService.sampleEnvironment).runLabels .all
      (State.init suspendedProfile) reinstatedWhileSwept).map fun s =>
        decide (WrittenAt (s.log.take 8) (s.log.take 7) 0 (.cvtheque (.insertNotification
            (SavedSearchAlertService.alertOf (sampleSavedSearch none) 1) 1 [1])) ∧
          WrittenAt (s.log.take 12) (s.log.take 8) 3 (.cvtheque (.trace (.loaded
            [{ sampleSavedSearch none with lastNotifiedAt := some 5 }]))) ∧
          WrittenAt s.log (s.log.take 12) 3 (.cvtheque (.insertNotification
            (SavedSearchAlertService.alertOf (sampleSavedSearch none) 1) 1 [1])))) =
      some true := by decide
  obtain ⟨s, hs, he⟩ := System.reach_of_run hrun
  obtain ⟨hfirst, hloaded, hagain⟩ := of_decide_eq_true he
  refine ⟨s, hs, fun honce => ?_⟩
  exact honce _ _ _ 0 3 1 _ _ [1] [1] _ hfirst hloaded hagain 1 (List.mem_singleton.2 rfl)
    (List.mem_singleton.2 rfl)

theorem anchors_race :
    (¬ ∀ (config : Config) (env : Environment) (d₀ : Db) (s : RunState), AnchorsPast d₀ →
      (system config env).Reachable d₀ s → NeverBack d₀ s ∧ ClaimedOnce d₀ s) ∧
    ¬ ∀ (config : Config) (env : Environment) (d₀ : Db) (s : RunState), AnchorsPast d₀ →
      (system config env).Reachable d₀ s → AnnouncedOnce s := by
  refine ⟨fun h => ?_, fun h => ?_⟩
  · obtain ⟨s, hs, hback, -⟩ := anchor_set_back
    exact hback (h _ _ _ s (sampleSearch_past rfl (by decide)) hs).1
  · obtain ⟨s, hs, hannounced⟩ := announced_twice
    exact hannounced (h _ _ _ s (sampleSearch_past rfl (by decide)) hs)

end JobBoard.Cvtheque.SavedSearches
