import JobBoard.Lib.Sys

/-!
# Programs run alone

`p.alone fault adm J E Q tx gs d` says: when nobody else moves the database, every
run of `p` from the committed database `d`, with `gs` published before, ends in `Q`
or in an error with `E`, and `J` holds after each group published on the way. In
the runs whose calls do not overlap each call runs alone: `System.Onward.alone`
takes such a run one whole call at a time, from any state in which no call runs.
-/

set_option autoImplicit false

namespace Txn

variable {D W K ε α β Op : Type}

/-- The groups a call has published: whether by the commit of a transaction, and
the writes. -/
abbrev Published (W : Type) := List (Bool × List W)

/-- The pending writes of the open transaction, and what holds of an error that
leaves it. -/
abbrev Opened (D W ε : Type) := Option (List W × (ε → Published W → D → Prop))

namespace Prog

section

variable (S : Store D W K) (fault : ε → Prop) (adm : D → List W → Prop)
  (J : Published W → D → Prop) (E : Published W → D → ε → Prop)

def failsWith (tx : Opened D W ε) (gs : Published W) (d : D) (e : ε) : Prop :=
  match tx with
  | none => E gs d e
  | some (_, h) => h e gs d

/-- `K` after the writes `ws` have reached the committed database, if any. -/
def reaches (gs : Published W) (d : D) (ws : List W) (K : Published W → D → Prop) : Prop :=
  match ws with
  | [] => K gs d
  | w :: ws => J (gs ++ [(false, w :: ws)]) (S.applyAll d (w :: ws)) ∧
      K (gs ++ [(false, w :: ws)]) (S.applyAll d (w :: ws))

def alone : Prog D W ε α → (Opened D W ε → Published W → D → α → Prop) → Opened D W ε →
    Published W → D → Prop
  | ret a, Q, tx, gs, d => Q tx gs d a
  | throw e, _, tx, gs, d => failsWith E tx gs d e
  | stmt w k, Q, none, gs, d => (∀ e, fault e → E gs d e) ∧
      (adm d (w d) → reaches S J gs d (w d) fun gs' d' => (k d).alone Q none gs' d')
  | stmt w k, Q, some tx, gs, d => (∀ e, fault e → tx.2 e gs d) ∧
      (adm (S.applyAll d tx.1) (w (S.applyAll d tx.1)) →
        (k (S.applyAll d tx.1)).alone Q (some (tx.1 ++ w (S.applyAll d tx.1), tx.2)) gs d)
  | aside w k, Q, tx, gs, d => (∀ e, fault e → failsWith E tx gs d e) ∧
      reaches S J gs d (w d) fun gs' d' => (k d).alone Q tx gs' d'
  | openTx h k, Q, tx, gs, d => tx = none ∧ (∀ e, fault e → E gs d e) ∧
      k.alone Q (some ([], fun e gs' d' => (h e).alone Q none gs' d')) gs d
  | commit k, Q, none, gs, d => (∀ e, fault e → E gs d e) ∧ k.alone Q none gs d
  | commit k, Q, some tx, gs, d => (∀ e, fault e → tx.2 e gs d) ∧
      J (gs ++ [(true, tx.1)]) (S.applyAll d tx.1) ∧
      k.alone Q none (gs ++ [(true, tx.1)]) (S.applyAll d tx.1)

end

section

variable {S : Store D W K} {fault : ε → Prop} {adm : D → List W → Prop}
  {J : Published W → D → Prop} {E : Published W → D → ε → Prop} {gs : Published W} {d : D}
  {tx : Opened D W ε}

theorem reaches_iff {ws : List W} {K K' : Published W → D → Prop}
    (h : ∀ gs' d', K gs' d' ↔ K' gs' d') : reaches S J gs d ws K ↔ reaches S J gs d ws K' := by
  cases ws <;> simp only [reaches, h]

theorem alone_bind (p : Prog D W ε α) (f : α → Prog D W ε β)
    (Q : Opened D W ε → Published W → D → β → Prop) (tx : Opened D W ε) (gs : Published W) (d : D) :
    (p >>= f).alone S fault adm J E Q tx gs d ↔
      p.alone S fault adm J E (fun tx' gs' d' a => (f a).alone S fault adm J E Q tx' gs' d')
        tx gs d := by
  induction p generalizing tx gs d with
  | ret a => rfl
  | throw e => rfl
  | stmt w k ih =>
    cases tx with
    | none =>
      refine and_congr Iff.rfl (forall_congr' fun _ => reaches_iff fun gs' d' => ?_)
      exact ih d none gs' d'
    | some tx => simp only [stmt_bind, alone, ih]
  | aside w k ih =>
    refine and_congr Iff.rfl (reaches_iff fun gs' d' => ?_)
    exact ih d tx gs' d'
  | openTx h k ihh ihk => simp only [openTx_bind, alone, ihh, ihk]
  | commit k ih => cases tx <;> simp only [commit_bind, alone, ih]

/-- The same pending writes, and more errors let through. -/
inductive Opened.Le : Opened D W ε → Opened D W ε → Prop
  | none : Opened.Le none none
  | some {H H' : ε → Published W → D → Prop} (ws : List W)
      (h : ∀ e gs d, H e gs d → H' e gs d) : Opened.Le (some (ws, H)) (some (ws, H'))

theorem alone_mono {J' : Published W → D → Prop} {E' : Published W → D → ε → Prop}
    (hJ : ∀ gs d, J gs d → J' gs d) (hE : ∀ gs d e, E gs d e → E' gs d e) {p : Prog D W ε α}
    {Q Q' : Opened D W ε → Published W → D → α → Prop}
    (hQ : ∀ {tx tx'} gs d a, Opened.Le tx tx' → Q tx gs d a → Q' tx' gs d a)
    {tx tx' : Opened D W ε} (htx : Opened.Le tx tx') {gs : Published W} {d : D}
    (h : p.alone S fault adm J E Q tx gs d) : p.alone S fault adm J' E' Q' tx' gs d := by
  have hfails : ∀ {tx tx' : Opened D W ε} {gs d e}, Opened.Le tx tx' → failsWith E tx gs d e →
      failsWith E' tx' gs d e := by
    intro tx tx' gs d e htx h
    cases htx with
    | none => exact hE gs d e h
    | some ws hH => exact hH e gs d h
  have hreaches : ∀ {gs d ws} {K K' : Published W → D → Prop}, (∀ gs d, K gs d → K' gs d) →
      reaches S J gs d ws K → reaches S J' gs d ws K' := by
    intro gs d ws K K' hK h
    cases ws with
    | nil => exact hK _ _ h
    | cons w ws => exact ⟨hJ _ _ h.1, hK _ _ h.2⟩
  induction p generalizing tx tx' gs d with
  | ret a => exact hQ gs d a htx h
  | throw e => exact hfails htx h
  | stmt w k ih =>
    cases htx with
    | none => exact ⟨fun e he => hE _ _ _ (h.1 e he), fun hadm =>
        hreaches (fun _ _ hk => ih _ .none hk) (h.2 hadm)⟩
    | some ws hH => exact ⟨fun e he => hH _ _ _ (h.1 e he), fun hadm =>
        ih _ (.some _ hH) (h.2 hadm)⟩
  | aside w k ih =>
    exact ⟨fun e he => hfails htx (h.1 e he), hreaches (fun _ _ hk => ih _ htx hk) h.2⟩
  | openTx hd k ihh ihk =>
    obtain ⟨rfl, hf, hk⟩ := h
    cases htx with
    | none => exact ⟨rfl, fun e he => hE _ _ _ (hf e he),
        ihk (.some [] fun e gs d h => ihh e .none h) hk⟩
  | commit k ih =>
    cases htx with
    | none => exact ⟨fun e he => hE _ _ _ (h.1 e he), ih .none h.2⟩
    | some ws hH => exact ⟨fun e he => hH _ _ _ (h.1 e he), hJ _ _ h.2.1, ih .none h.2.2⟩

/-- The same ends, from a piece that closes its transactions. -/
theorem alone_then {p : Prog D W ε α} {f : α → Prog D W ε β}
    {Q : Opened D W ε → Published W → D → β → Prop} {gs : Published W} {d : D}
    (h : p.alone S fault adm J E
      (fun tx gs d a => tx = none ∧ (f a).alone S fault adm J E Q none gs d) none gs d) :
    (p >>= f).alone S fault adm J E Q none gs d := by
  rw [alone_bind]
  refine alone_mono (fun _ _ => id) (fun _ _ _ => id) (fun gs d a htx h => ?_) .none h
  obtain ⟨rfl, h⟩ := h
  cases htx with
  | none => exact h

/-! ## Statements -/

theorem alone_select {f : D → α} {Q : Opened D W ε → Published W → D → α → Prop}
    (hE : ∀ e, fault e → E gs d e) (hQ : Q none gs d (f d)) :
    (select f).alone S fault adm J E Q none gs d :=
  ⟨hE, fun _ => hQ⟩

theorem alone_outside {Q : Opened D W ε → Published W → D → Unit → Prop}
    (hE : ∀ e, fault e → E gs d e) (hQ : Q none gs d ()) :
    (outside fun _ => []).alone S fault adm J E Q none gs d :=
  ⟨hE, hQ⟩

theorem alone_select_bind {f : D → α} {k : α → Prog D W ε β}
    {Q : Opened D W ε → Published W → D → β → Prop} (hE : ∀ e, fault e → E gs d e)
    (hk : (k (f d)).alone S fault adm J E Q none gs d) :
    (select f >>= k : Prog D W ε β).alone S fault adm J E Q none gs d :=
  ⟨hE, fun _ => hk⟩

/-- A call outside that always writes. -/
theorem alone_outside_bind {w : W} {k : Unit → Prog D W ε β}
    {Q : Opened D W ε → Published W → D → β → Prop} (hE : ∀ e, fault e → E gs d e)
    (hJ : J (gs ++ [(false, [w])]) (S.apply d w))
    (hk : (k ()).alone S fault adm J E Q none (gs ++ [(false, [w])]) (S.apply d w)) :
    ((outside fun _ => [w]) >>= k : Prog D W ε β).alone S fault adm J E Q none gs d :=
  ⟨hE, hJ, hk⟩

theorem alone_query {f : D → Except ε (List W × α)}
    {Q : Opened D W ε → Published W → D → α → Prop} (hE : ∀ e, fault e → E gs d e)
    (herr : ∀ e, f d = .error e → E gs d e)
    (hok : ∀ ws a, f d = .ok (ws, a) → adm d ws → reaches S J gs d ws fun gs' d' => Q none gs' d' a) :
    (query f).alone S fault adm J E Q none gs d := by
  refine ⟨hE, ?_⟩
  cases hf : f d with
  | ok r =>
    simp only [hf, alone]
    exact hok r.1 r.2 hf
  | error e =>
    simp only [hf, alone, reaches, failsWith]
    exact fun _ => herr e hf

theorem alone_write {w : W} {Q : Opened D W ε → Published W → D → Unit → Prop}
    (hE : ∀ e, fault e → E gs d e)
    (hQ : adm d [w] → J (gs ++ [(false, [w])]) (S.apply d w) ∧
      Q none (gs ++ [(false, [w])]) (S.apply d w) ()) :
    (write fun _ => [w]).alone S fault adm J E Q none gs d :=
  ⟨hE, hQ⟩

end

end Prog

/-! ## Runs -/

open Prog

section

variable [DecidableEq K] (Y : System D W K ε α Op) (R : Runs D W Op)

/-- The states of the runs `R` that go on from `s`. -/
inductive System.Onward (s : State D W ε α Op) : State D W ε α Op → Prop
  | refl : Onward s s
  | step {t u : State D W ε α Op} (l : Label ε Op) : Onward s t → Y.admits R t l = true →
      Y.next t l = some u → Onward s u

variable {Y R}

theorem System.Reach.onward {d : D} {s : State D W ε α Op} (h : Y.Reach R d s) :
    Y.Onward R (State.init d) s := by
  induction h with
  | init => exact .refl
  | step l _ hadm hn ih => exact .step l ih hadm hn

theorem System.runLabels_onward {s t u : State D W ε α Op} {ls : List (Label ε Op)}
    (h : Y.Onward R s t) (hr : Y.runLabels R t ls = some u) : Y.Onward R s u := by
  induction ls generalizing t with
  | nil => simp only [runLabels, Option.some.injEq] at hr; exact hr ▸ h
  | cons l ls ih =>
    simp only [runLabels] at hr
    split at hr
    · next hadm =>
      obtain ⟨t', hn, hr⟩ := Option.bind_eq_some_iff.1 hr
      exact ih (.step l h hadm hn) hr
    · cases hr

/-- No call is running. -/
def State.Idle (s : State D W ε α Op) : Prop := ∀ i, (s.call i).isRunning = false

def tagged (i : Nat) (gs : Published W) : List (Group W) := gs.map fun g => ⟨i, g.1, g.2⟩

/-- The idle state after one more call, which published `gs` and ended with `r`. -/
def State.after (s : State D W ε α Op) (op : Op) (gs : Published W) (d : D) (r : Except ε α) :
    State D W ε α Op where
  db := d
  ops := s.ops ++ [op]
  call := fun j => if j = s.ops.length then .done r else s.call j
  log := s.log ++ tagged s.ops.length gs

/-- What is known of the running call: it started in `t`, and has published `gs`. -/
structure State.During (R : Runs D W Op) (I : State D W ε α Op → Prop)
    (J : State D W ε α Op → Op → Published W → D → Prop) (s t : State D W ε α Op) (op : Op)
    (gs : Published W) : Prop where
  idle : t.Idle
  start : I t
  starts : R.ops t.db op = true
  ops : s.ops = t.ops ++ [op]
  others : ∀ j, j ≠ t.ops.length → s.call j = t.call j
  running : (s.call t.ops.length).isRunning = true
  log : s.log = t.log ++ tagged t.ops.length gs
  inv : J t op gs s.db

/-- The rule for calls that run alone, with `I` at the states where no call runs
and `J` in between. -/
structure Alone (Y : System D W K ε α Op) (R : Runs D W Op) (I : State D W ε α Op → Prop)
    (J : State D W ε α Op → Op → Published W → D → Prop) : Prop where
  begin : ∀ {t op}, t.Idle → I t → R.ops t.db op = true → J t op [] t.db
  prog : ∀ {t op}, t.Idle → I t → R.ops t.db op = true →
    (Y.prog t.ops.length op).alone Y.store (fun e => Y.isFault e = true)
      (fun d ws => R.adm op d ws = true) (J t op)
      (fun gs d e => I (t.after op gs d (.error e)))
      (fun tx gs d a => tx = none ∧ I (t.after op gs d (.ok a))) none [] t.db

section

variable {I : State D W ε α Op → Prop} {J : State D W ε α Op → Op → Published W → D → Prop}
  {s s' t : State D W ε α Op} {op : Op} {gs : Published W}

/-- What is known of the rest of a call. -/
def Call.Rest (Y : System D W K ε α Op) (R : Runs D W Op) (J : Published W → D → Prop)
    (P : Published W → D → Except ε α → Prop) (op : Op) (gs : Published W) (d : D) :
    Call D W ε α → Prop
  | .run none p => p.alone Y.store (fun e => Y.isFault e = true) (fun d ws => R.adm op d ws = true)
      J (fun gs d e => P gs d (.error e)) (fun tx gs d a => tx = none ∧ P gs d (.ok a)) none gs d
  | .run (some tx) p => ∃ H : ε → Published W → D → Prop,
      (∀ e gs d, H e gs d → (tx.onError e).alone Y.store (fun e => Y.isFault e = true)
        (fun d ws => R.adm op d ws = true) J (fun gs d e => P gs d (.error e))
        (fun tx gs d a => tx = none ∧ P gs d (.ok a)) none gs d) ∧
      p.alone Y.store (fun e => Y.isFault e = true) (fun d ws => R.adm op d ws = true) J
        (fun gs d e => P gs d (.error e)) (fun tx gs d a => tx = none ∧ P gs d (.ok a))
        (some (tx.pending, H)) gs d
  | _ => True

theorem State.after_idle (ht : t.Idle) (gs : Published W) (d : D) (r : Except ε α) :
    (t.after op gs d r).Idle := by
  intro j
  simp only [State.after]
  split
  · rfl
  · exact ht j

/-! ### Steps -/

/-- The last call of `s` is running, after the groups `gs`. -/
structure State.Running (Y : System D W K ε α Op) (R : Runs D W Op)
    (I : State D W ε α Op → Prop) (J : State D W ε α Op → Op → Published W → D → Prop)
    (s t : State D W ε α Op) (op : Op) (gs : Published W) : Prop extends
    s.During R I J t op gs where
  rest : (s.call t.ops.length).Rest Y R (J t op) (fun gs d r => I (t.after op gs d r)) op gs s.db

/-- A state of the run: at rest, or with its last call running. -/
def State.Sits (Y : System D W K ε α Op) (R : Runs D W Op) (I : State D W ε α Op → Prop)
    (J : State D W ε α Op → Op → Published W → D → Prop) (s : State D W ε α Op) : Prop :=
  (s.Idle ∧ I s) ∨ ∃ t op gs, s.Running Y R I J t op gs

omit [DecidableEq K] in
theorem State.During.set (h : s.During R I J t op gs) (tx : Option (OpenTx D W ε α))
    (p : Prog D W ε α) : (s.set t.ops.length (.run tx p)).During R I J t op gs where
  idle := h.idle
  start := h.start
  starts := h.starts
  ops := h.ops
  others := fun j hj => (State.set_other hj _).trans (h.others j hj)
  running := by rw [State.set_self]; rfl
  log := h.log
  inv := h.inv

omit [DecidableEq K] in
theorem State.During.publish (h : s.During R I J t op gs) (S : Store D W K) {b : Bool}
    {ws : List W} (hJ : J t op (gs ++ [(b, ws)]) (S.applyAll s.db ws))
    (tx : Option (OpenTx D W ε α)) (p : Prog D W ε α) :
    ((s.publish S t.ops.length b ws).set t.ops.length (.run tx p)).During R I J t op
      (gs ++ [(b, ws)]) where
  idle := h.idle
  start := h.start
  starts := h.starts
  ops := h.ops
  others := fun j hj => (State.set_other hj _).trans (h.others j hj)
  running := by rw [State.set_self]; rfl
  log := by
    rw [State.set_log, State.publish_log, h.log]
    simp [tagged]
  inv := hJ

omit [DecidableEq K] in
theorem State.During.finish (h : s.During R I J t op gs) (r : Except ε α) :
    s.set t.ops.length (.done r) = t.after op gs s.db r := by
  obtain ⟨-, -, -, hops, hothers, -, hlog, -⟩ := h
  obtain ⟨db, ops, call, log⟩ := s
  simp only at hops hothers hlog
  subst hops hlog
  simp only [State.set, State.after, State.mk.injEq, true_and, and_true]
  funext j
  split
  · rfl
  · next hj => exact hothers j hj

omit [DecidableEq K] in
theorem State.During.sits_done (h : s.During R I J t op gs) {r : Except ε α}
    (hr : I (t.after op gs s.db r)) : (s.set t.ops.length (.done r)).Sits Y R I J := by
  rw [h.finish r]
  exact .inl ⟨State.after_idle h.idle gs s.db r, hr⟩

omit [DecidableEq K] in
theorem State.During.sits (h : s.During R I J t op gs) {tx : Option (OpenTx D W ε α)}
    {p : Prog D W ε α}
    (hp : (Call.run tx p).Rest Y R (J t op) (fun gs d r => I (t.after op gs d r)) op gs s.db) :
    (s.set t.ops.length (.run tx p)).Sits Y R I J := by
  refine .inr ⟨t, op, gs, h.set tx p, ?_⟩
  rw [State.set_self]
  exact hp

omit [DecidableEq K] in
theorem State.During.sits_publish (h : s.During R I J t op gs) {b : Bool} {ws : List W}
    (hJ : J t op (gs ++ [(b, ws)]) (Y.store.applyAll s.db ws)) {tx : Option (OpenTx D W ε α)}
    {p : Prog D W ε α}
    (hp : (Call.run tx p).Rest Y R (J t op) (fun gs d r => I (t.after op gs d r)) op
      (gs ++ [(b, ws)]) (Y.store.applyAll s.db ws)) :
    ((s.publish Y.store t.ops.length b ws).set t.ops.length (.run tx p)).Sits Y R I J := by
  refine .inr ⟨t, op, _, h.publish Y.store hJ tx p, ?_⟩
  rw [State.set_self]
  exact hp

omit [DecidableEq K] in
theorem State.During.sits_autocommit (h : s.During R I J t op gs) {ws : List W}
    {tx : Option (OpenTx D W ε α)} {p : Prog D W ε α}
    (hp : reaches Y.store (J t op) gs s.db ws fun gs' d' =>
      (Call.run tx p).Rest Y R (J t op) (fun gs d r => I (t.after op gs d r)) op gs' d') :
    ((s.autocommit Y.store t.ops.length ws).set t.ops.length (.run tx p)).Sits Y R I J := by
  cases ws with
  | nil => exact h.sits hp
  | cons w ws => exact h.sits_publish hp.1 hp.2

theorem State.Running.stepCall (h : s.Running Y R I J t op gs) {tx : Option (OpenTx D W ε α)}
    {p : Prog D W ε α} (hcall : s.call t.ops.length = .run tx p)
    (hadm : Y.admits R s (.step t.ops.length) = true)
    (hn : Y.stepCall s t.ops.length tx p = some s') : s'.Sits Y R I J := by
  obtain ⟨h, hrest⟩ := h
  rw [hcall] at hrest
  have hop : s.ops[t.ops.length]? = some op := by simp [h.ops]
  cases p with
  | ret a =>
    cases tx with
    | none =>
      cases hn
      exact h.sits_done hrest.2
    | some tx => cases hn
  | throw e =>
    cases tx with
    | none =>
      cases hn
      exact h.sits_done hrest
    | some tx =>
      cases hn
      obtain ⟨H, hH, hrest⟩ := hrest
      exact h.sits (hH e _ _ hrest)
  | stmt w k =>
    simp only [System.admits, hop, hcall] at hadm
    cases tx with
    | none =>
      simp only [System.stepCall] at hn
      split at hn
      · cases hn
        exact h.sits_autocommit (hrest.2 hadm)
      · cases hn
    | some tx =>
      simp only [System.stepCall] at hn
      split at hn
      · cases hn
        obtain ⟨H, hH, hrest⟩ := hrest
        exact h.sits ⟨H, hH, hrest.2 hadm⟩
      · cases hn
  | aside w k =>
    have hs' : s' = (s.autocommit Y.store t.ops.length (w s.db)).set t.ops.length
        (.run tx (k s.db)) := by
      cases tx <;> simp only [System.stepCall] at hn <;> split at hn <;> simp_all
    subst hs'
    cases tx with
    | none => exact h.sits_autocommit hrest.2
    | some tx =>
      obtain ⟨H, hH, -, hrest⟩ := hrest
      refine h.sits_autocommit ?_
      cases hw : w s.db with
      | nil =>
        rw [hw] at hrest
        exact ⟨H, hH, hrest⟩
      | cons x xs =>
        rw [hw] at hrest
        exact ⟨hrest.1, H, hH, hrest.2⟩
  | openTx hd k =>
    cases tx with
    | none =>
      cases hn
      exact h.sits ⟨_, fun _ _ _ h => h, hrest.2.2⟩
    | some tx => cases hn
  | commit k =>
    cases tx with
    | none =>
      cases hn
      exact h.sits hrest.2
    | some tx =>
      cases hn
      obtain ⟨H, hH, -, hJ, hrest⟩ := hrest
      exact h.sits_publish hJ hrest

omit [DecidableEq K] in
theorem State.Running.faultCall (h : s.Running Y R I J t op gs) {tx : Option (OpenTx D W ε α)}
    {p : Prog D W ε α} {e : ε} (he : Y.isFault e = true)
    (hcall : s.call t.ops.length = .run tx p)
    (hn : Y.faultCall s t.ops.length e tx p = some s') : s'.Sits Y R I J := by
  obtain ⟨h, hrest⟩ := h
  rw [hcall] at hrest
  cases tx with
  | none =>
    have key : s' = s.set t.ops.length (.run none (.throw e)) ∧
        I (t.after op gs s.db (.error e)) := by
      cases p with
      | ret a => cases hn
      | throw e' => cases hn
      | stmt w k => cases hn; exact ⟨rfl, hrest.1 e he⟩
      | aside w k => cases hn; exact ⟨rfl, hrest.1 e he⟩
      | openTx hd k => cases hn; exact ⟨rfl, hrest.2.1 e he⟩
      | commit k => cases hn; exact ⟨rfl, hrest.1 e he⟩
    obtain ⟨rfl, hI⟩ := key
    exact h.sits hI
  | some tx =>
    obtain ⟨H, hH, hrest⟩ := hrest
    have key : s' = s.set t.ops.length (.run none (tx.onError e)) ∧ H e gs s.db := by
      cases p with
      | ret a => cases hn
      | throw e' => cases hn
      | stmt w k => cases hn; exact ⟨rfl, hrest.1 e he⟩
      | aside w k => cases hn; exact ⟨rfl, hrest.1 e he⟩
      | openTx hd k => cases hrest.1
      | commit k => cases hn; exact ⟨rfl, hrest.1 e he⟩
    obtain ⟨rfl, he'⟩ := key
    exact h.sits (hH e gs s.db he')

omit [DecidableEq K] in
theorem State.Running.only (h : s.Running Y R I J t op gs) {i : Nat}
    (hi : (s.call i).isRunning = true) : i = t.ops.length := by
  by_cases e : i = t.ops.length
  · exact e
  · rw [h.others i e, h.idle i] at hi
    cases hi

/-! ### The rule -/

/-- Every state of a run whose calls do not overlap is at rest with `I`, or in the
middle of a call that has kept `J`. -/
theorem System.Onward.sits (hA : Alone Y R I J) (hserial : R.serial = true) {s₀ : State D W ε α Op}
    (hidle : s₀.Idle) (h₀ : I s₀) (h : Y.Onward R s₀ s) : s.Sits Y R I J := by
  induction h with
  | refl => exact .inl ⟨hidle, h₀⟩
  | @step s s' l _ hadm hn ih =>
    cases l with
    | spawn op =>
      cases hn
      simp only [System.admits, hserial, Bool.not_true, Bool.false_or, Bool.and_eq_true,
        List.all_eq_true, List.mem_range, Bool.not_eq_true'] at hadm
      rcases ih with ⟨hs, hI⟩ | ⟨t, op', gs, hrun⟩
      · refine .inr ⟨s, op, [], ⟨hs, hI, hadm.1, rfl, fun j hj => State.set_other hj _, ?_, ?_,
          hA.begin hs hI hadm.1⟩, ?_⟩
        · rw [State.set_self]
          rfl
        · simp [tagged]
        · rw [State.set_self]
          exact hA.prog hs hI hadm.1
      · -- the last call is still running
        have := hadm.2 t.ops.length (by simp [hrun.ops])
        rw [hrun.running] at this
        cases this
    | step i =>
      simp only [System.next] at hn
      split at hn
      · next tx p hcall =>
        rcases ih with ⟨hs, -⟩ | ⟨t, op, gs, hrun⟩
        · have := hs i
          rw [hcall] at this
          cases this
        · obtain rfl := hrun.only (i := i) (by rw [hcall]; rfl)
          exact hrun.stepCall hcall hadm hn
      · cases hn
    | fault i e =>
      simp only [System.next] at hn
      split at hn
      · next tx p hcall =>
        split at hn
        · next he =>
          rcases ih with ⟨hs, -⟩ | ⟨t, op, gs, hrun⟩
          · have := hs i
            rw [hcall] at this
            cases this
          · obtain rfl := hrun.only (i := i) (by rw [hcall]; rfl)
            exact hrun.faultCall he hcall hn
        · cases hn
      · cases hn

/-- At rest. -/
theorem System.Onward.idle (hA : Alone Y R I J) (hserial : R.serial = true)
    {s₀ : State D W ε α Op} (hidle : s₀.Idle) (h₀ : I s₀) (h : Y.Onward R s₀ s) (hs : s.Idle) :
    I s := by
  rcases h.sits hA hserial hidle h₀ with ⟨-, hI⟩ | ⟨t, op, gs, hrun⟩
  · exact hI
  · have := hs t.ops.length
    rw [hrun.running] at this
    cases this

/-- An invariant of the database that every group of every call keeps. -/
theorem System.Onward.always {P : D → Prop} (hserial : R.serial = true)
    (hprog : ∀ {i op d}, P d → R.ops d op = true →
      (Y.prog i op).alone Y.store (fun e => Y.isFault e = true) (fun d ws => R.adm op d ws = true)
        (fun _ d => P d) (fun _ d _ => P d) (fun tx _ d _ => tx = none ∧ P d) none [] d)
    {s₀ : State D W ε α Op} (hidle : s₀.Idle) (h₀ : P s₀.db) (h : Y.Onward R s₀ s) : P s.db := by
  have hA : Alone Y R (fun s => P s.db) (fun _ _ _ d => P d) :=
    ⟨fun _ hI _ => hI, fun _ hI hop => hprog hI hop⟩
  rcases h.sits hA hserial hidle h₀ with ⟨-, hI⟩ | ⟨t, op, gs, hrun⟩
  · exact hI
  · exact hrun.inv

end

end

end Txn
