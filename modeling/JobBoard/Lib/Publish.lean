import JobBoard.Lib.Plain
import JobBoard.Lib.Sys

/-!
# What a call publishes

The groups of writes that one call brings into the committed database, in their
order, whatever it reads: `p.publishes fault J Q tx gs` says that `J` holds of
the published groups after each new one, when `gs` have been published before.
No step of another call matters, so that `System.Reach.publishes` needs no rely
relation.
-/

set_option autoImplicit false

namespace Txn

variable {D W K ε α β Op : Type}

/-- The groups that call `i` has published: whether by the commit of a
transaction, and the writes. -/
def publishedBy (i : Nat) (log : List (Group W)) : List (Bool × List W) :=
  (log.filter (·.call == i)).map fun g => (g.viaTx, g.writes)

/-- The open transaction: its pending writes, and what must hold of the published
groups when an error leaves it. -/
abbrev Pending (W ε : Type) := Option (List W × (ε → List (Bool × List W) → Prop))

namespace Prog

section

variable (fault : ε → Prop) (J : List (Bool × List W) → Prop)

/-- `K` after a statement that publishes `ws`, if anything. -/
def emits (gs : List (Bool × List W)) (ws : List W) (K : List (Bool × List W) → Prop) : Prop :=
  match ws with
  | [] => K gs
  | w :: ws => J (gs ++ [(false, w :: ws)]) ∧ K (gs ++ [(false, w :: ws)])

def publishes : Prog D W ε α → (Pending W ε → List (Bool × List W) → α → Prop) → Pending W ε →
    List (Bool × List W) → Prop
  | ret a, Q, tx, gs => Q tx gs a
  | throw _, _, none, _ => True
  | throw e, _, some tx, gs => tx.2 e gs
  | stmt w k, Q, none, gs => ∀ v, emits J gs (w v) fun gs' => (k v).publishes Q none gs'
  | stmt w k, Q, some tx, gs => (∀ e, fault e → tx.2 e gs) ∧
      ∀ v, (k v).publishes Q (some (tx.1 ++ w v, tx.2)) gs
  | aside w k, Q, tx, gs => (∀ e t, fault e → tx = some t → t.2 e gs) ∧
      ∀ v, emits J gs (w v) fun gs' => (k v).publishes Q tx gs'
  | openTx h k, Q, tx, gs => tx = none ∧
      k.publishes Q (some ([], fun e gs' => (h e).publishes Q none gs')) gs
  | commit k, Q, none, gs => k.publishes Q none gs
  | commit k, Q, some tx, gs => (∀ e, fault e → tx.2 e gs) ∧ J (gs ++ [(true, tx.1)]) ∧
      k.publishes Q none (gs ++ [(true, tx.1)])

end

section

variable {fault : ε → Prop} {J : List (Bool × List W) → Prop} {tx : Pending W ε}
  {gs : List (Bool × List W)}

theorem emits_iff {ws : List W} {K K' : List (Bool × List W) → Prop} (h : ∀ gs', K gs' ↔ K' gs') :
    emits J gs ws K ↔ emits J gs ws K' := by
  cases ws <;> simp only [emits, h]

theorem publishes_bind (p : Prog D W ε α) (f : α → Prog D W ε β)
    (Q : Pending W ε → List (Bool × List W) → β → Prop) (tx : Pending W ε)
    (gs : List (Bool × List W)) :
    (p >>= f).publishes fault J Q tx gs ↔
      p.publishes fault J (fun tx' gs' a => (f a).publishes fault J Q tx' gs') tx gs := by
  induction p generalizing tx gs with
  | ret a => rfl
  | throw e => cases tx <;> rfl
  | stmt w k ih =>
    cases tx with
    | none => exact forall_congr' fun v => emits_iff fun gs' => ih v none gs'
    | some tx => simp only [stmt_bind, publishes, ih]
  | aside w k ih =>
    refine and_congr Iff.rfl (forall_congr' fun v => emits_iff fun gs' => ih v tx gs')
  | openTx h k ihh ihk => simp only [openTx_bind, publishes, ihh, ihk]
  | commit k ih => cases tx <;> simp only [commit_bind, publishes, ih]

/-- A plain piece inside a transaction: `I` is what it keeps of the published
groups. -/
theorem Plain.publishes {St As : List W → Prop} {Er : ε → Prop} {p : Prog D W ε α}
    (hp : p.Plain St As Er) {I : List (Bool × List W) → Prop}
    (hI : ∀ gs ws, I gs → As ws → ws ≠ [] → I (gs ++ [(false, ws)]))
    (hJ : ∀ gs, I gs → J gs) {H : ε → List (Bool × List W) → Prop} (hH : ∀ e gs, I gs → H e gs)
    {P : List W → Prop} (hP : ∀ ps ws, P ps → St ws → P (ps ++ ws))
    {Q : Pending W ε → List (Bool × List W) → α → Prop}
    (hQ : ∀ ps gs a, P ps → I gs → Q (some (ps, H)) gs a) {ps : List W} (hps : P ps) (hgs : I gs) :
    p.publishes fault J Q (some (ps, H)) gs := by
  induction p generalizing ps gs with
  | ret a => exact hQ ps gs a hps hgs
  | throw e => exact hH e gs hgs
  | stmt w k ih =>
    exact ⟨fun e _ => hH e gs hgs, fun v => ih v (hp v).2 (hP ps _ hps (hp v).1) hgs⟩
  | aside w k ih =>
    refine ⟨fun e t _ ht => by cases ht; exact hH e gs hgs, fun v => ?_⟩
    obtain ⟨hw, hk⟩ := hp v
    unfold emits
    split
    · exact ih v hk hps hgs
    · next x xs hx =>
      rw [hx] at hw
      have hnew := hI gs _ hgs hw (by simp)
      exact ⟨hJ _ hnew, ih v hk hps hnew⟩
  | openTx h k => exact hp.elim
  | commit k => exact hp.elim

/-- One call outside that publishes the group `ws`. -/
theorem outside_publishes {H : ε → List (Bool × List W) → Prop} {ps ws : List W} (hws : ws ≠ [])
    {Q : Pending W ε → List (Bool × List W) → Unit → Prop} (hH : ∀ e, fault e → H e gs)
    (hJ : J (gs ++ [(false, ws)])) (hQ : Q (some (ps, H)) (gs ++ [(false, ws)]) ()) :
    (outside fun _ => ws : Prog D W ε Unit).publishes fault J Q (some (ps, H)) gs := by
  refine ⟨fun e t he ht => by cases ht; exact hH e he, fun v => ?_⟩
  cases ws with
  | nil => exact absurd rfl hws
  | cons w ws => exact ⟨hJ, hQ⟩

end

end Prog

/-! ## Runs -/

open Prog

theorem publishedBy_append (i : Nat) (l r : List (Group W)) :
    publishedBy i (l ++ r) = publishedBy i l ++ publishedBy i r := by
  simp [publishedBy]

theorem publishedBy_other {i : Nat} {gs : List (Group W)} (h : ∀ g ∈ gs, g.call ≠ i) :
    publishedBy i gs = [] := by
  simp only [publishedBy, List.map_eq_nil_iff, List.filter_eq_nil_iff, beq_iff_eq]
  exact h

theorem mem_publishedBy {log : List (Group W)} {g : Group W} (h : g ∈ log) :
    (g.viaTx, g.writes) ∈ publishedBy g.call log :=
  List.mem_map.2 ⟨g, List.mem_filter.2 ⟨h, beq_self_eq_true _⟩, rfl⟩

@[simp] theorem publishedBy_self (i : Nat) (b : Bool) (ws : List W) :
    publishedBy i [⟨i, b, ws⟩] = [(b, ws)] := by
  simp [publishedBy]

/-- What is known of a call that has published `gs`. -/
def Call.Publishes (fault : ε → Prop) (J : List (Bool × List W) → Prop)
    (gs : List (Bool × List W)) : Call D W ε α → Prop
  | .run none p => p.publishes fault J (fun _ _ _ => True) none gs
  | .run (some tx) p => ∃ H : ε → List (Bool × List W) → Prop,
      (∀ e gs', H e gs' → (tx.onError e).publishes fault J (fun _ _ _ => True) none gs') ∧
      p.publishes fault J (fun _ _ _ => True) (some (tx.pending, H)) gs
  | _ => True

section

variable [DecidableEq K] {Y : System D W K ε α Op} {s s' : State D W ε α Op}
  {J : List (Bool × List W) → Prop} {i : Nat}

/-- What is known of call `i`: `J` holds of what it has published, and will. -/
def State.Publishes (Y : System D W K ε α Op) (J : List (Bool × List W) → Prop) (i : Nat)
    (s : State D W ε α Op) : Prop :=
  J (publishedBy i s.log) ∧
    (s.call i).Publishes (fun e => Y.isFault e = true) J (publishedBy i s.log)

omit [DecidableEq K] in
theorem State.Publishes.emit {ws : List W} {tx : Option (OpenTx D W ε α)} {p : Prog D W ε α}
    (hJ : J (publishedBy i s.log))
    (h : emits J (publishedBy i s.log) ws fun gs =>
      (Call.run tx p).Publishes (fun e => Y.isFault e = true) J gs) :
    ((s.autocommit Y.store i ws).set i (.run tx p)).Publishes Y J i := by
  unfold State.Publishes
  rw [State.set_self, State.set_log]
  cases ws with
  | nil => exact ⟨hJ, h⟩
  | cons w ws =>
    simp only [State.autocommit, State.publish_log, publishedBy_append, publishedBy_self]
    exact h

omit [DecidableEq K] in
theorem State.Publishes.set (hJ : J (publishedBy i s.log)) {c : Call D W ε α}
    (h : c.Publishes (fun e => Y.isFault e = true) J (publishedBy i s.log)) :
    (s.set i c).Publishes Y J i := by
  unfold State.Publishes
  rw [State.set_self]
  exact ⟨hJ, h⟩

theorem System.stepCall_publishes {tx : Option (OpenTx D W ε α)} {p : Prog D W ε α}
    (hcall : s.call i = .run tx p) (hn : Y.stepCall s i tx p = some s')
    (h : s.Publishes Y J i) : s'.Publishes Y J i := by
  obtain ⟨hJ, h⟩ := h
  rw [hcall] at h
  cases p with
  | ret a =>
    cases tx <;> cases hn
    exact .set hJ trivial
  | throw e =>
    cases tx with
    | none =>
      cases hn
      exact .set hJ trivial
    | some tx =>
      cases hn
      obtain ⟨H, hH, h⟩ := h
      exact .set hJ (hH e _ h)
  | stmt w k =>
    cases tx with
    | none =>
      simp only [System.stepCall] at hn
      split at hn
      · cases hn
        exact .emit hJ (h s.db)
      · cases hn
    | some tx =>
      simp only [System.stepCall] at hn
      split at hn
      · cases hn
        obtain ⟨H, hH, h⟩ := h
        exact .set hJ ⟨H, hH, h.2 _⟩
      · cases hn
  | aside w k =>
    have hs' : s' = (s.autocommit Y.store i (w s.db)).set i (.run tx (k s.db)) := by
      cases tx <;> simp only [System.stepCall] at hn <;> split at hn <;> simp_all
    subst hs'
    cases tx with
    | none => exact .emit hJ (h.2 s.db)
    | some tx =>
      obtain ⟨H, hH, h⟩ := h
      refine .emit hJ ?_
      cases hw : w s.db with
      | nil =>
        have := h.2 s.db
        rw [hw] at this
        exact ⟨H, hH, this⟩
      | cons x xs =>
        have := h.2 s.db
        rw [hw] at this
        exact ⟨this.1, H, hH, this.2⟩
  | openTx hd k =>
    cases tx with
    | none =>
      cases hn
      exact .set hJ ⟨_, fun _ _ h => h, h.2⟩
    | some tx => cases hn
  | commit k =>
    cases tx with
    | none =>
      cases hn
      exact .set hJ h
    | some tx =>
      cases hn
      obtain ⟨H, hH, h⟩ := h
      unfold State.Publishes
      rw [State.set_self, State.set_log, State.publish_log, publishedBy_append, publishedBy_self]
      exact h.2

omit [DecidableEq K] in
theorem System.faultCall_publishes {tx : Option (OpenTx D W ε α)} {p : Prog D W ε α} {e : ε}
    (he : Y.isFault e = true) (hcall : s.call i = .run tx p)
    (hn : Y.faultCall s i e tx p = some s') (h : s.Publishes Y J i) : s'.Publishes Y J i := by
  obtain ⟨hJ, h⟩ := h
  rw [hcall] at h
  cases tx with
  | none => cases p <;> cases hn <;> exact .set hJ trivial
  | some tx =>
    obtain ⟨H, hH, h⟩ := h
    cases p with
    | ret a => cases hn
    | throw e' => cases hn
    | stmt w k =>
      cases hn
      exact .set hJ (hH e _ (h.1 e he))
    | aside w k =>
      cases hn
      exact .set hJ (hH e _ (h.1 e _ he rfl))
    | openTx hd k => cases h.1
    | commit k =>
      cases hn
      exact .set hJ (hH e _ (h.1 e he))

end

section

variable [DecidableEq K] {Y : System D W K ε α Op} {R : Runs D W Op} {d₀ : D}
  {s s' : State D W ε α Op}

/-- The calls that were not started yet have published nothing. -/
structure State.Fresh (s : State D W ε α Op) : Prop where
  idle : ∀ i, s.ops.length ≤ i → s.call i = .idle
  log : ∀ g ∈ s.log, g.call < s.ops.length

theorem State.Fresh.frame (h : s.Fresh) {i : Nat} (hi : (s.call i).isRunning = true)
    (hs : s.Frame i s') : s'.Fresh := by
  have hlt : i < s.ops.length := by
    rcases Nat.lt_or_ge i s.ops.length with hlt | hge
    · exact hlt
    · rw [h.idle i hge] at hi
      cases hi
  constructor
  · intro j hj
    rw [hs.ops] at hj
    rw [hs.call j (by omega)]
    exact h.idle j hj
  · intro g hg
    obtain ⟨gs, hlog, hgs⟩ := hs.log
    rw [hs.ops]
    rw [hlog, List.mem_append] at hg
    rcases hg with hg | hg
    · exact h.log g hg
    · rw [hgs g hg]
      exact hlt

omit [DecidableEq K] in
theorem State.Fresh.spawn (h : s.Fresh) (op : Op) (c : Call D W ε α) :
    (State.set { s with ops := s.ops ++ [op] } s.ops.length c).Fresh := by
  constructor
  · intro j hj
    simp only [State.set_ops, List.length_append, List.length_singleton] at hj
    rw [State.set_other (by omega)]
    exact h.idle j (by omega)
  · intro g hg
    simp only [State.set_ops, List.length_append, List.length_singleton]
    have := h.log g hg
    omega

theorem State.Fresh.next (h : s.Fresh) {l : Label ε Op} (hn : Y.next s l = some s') :
    s'.Fresh := by
  rcases System.next_cases hn with ⟨op, rfl, rfl⟩ | ⟨i, hi, hframe⟩
  · exact h.spawn op _
  · exact h.frame hi hframe

theorem System.Reach.fresh (h : Y.Reach R d₀ s) : s.Fresh := by
  induction h with
  | init => exact ⟨fun _ _ => rfl, by simp [State.init]⟩
  | step l _ _ hn ih => exact ih.next hn

omit [DecidableEq K] in
/-- A call that runs has been started. -/
theorem State.Fresh.op_of_running (h : s.Fresh) {i : Nat} (hi : (s.call i).isRunning = true) :
    ∃ op, s.ops[i]? = some op := by
  rcases Nat.lt_or_ge i s.ops.length with hlt | hge
  · exact ⟨_, List.getElem?_eq_getElem hlt⟩
  · rw [h.idle i hge] at hi
    cases hi

omit [DecidableEq K] in
theorem State.Fresh.not_running (h : s.Fresh)
    (hdone : ∀ i, i < s.ops.length → (s.call i).isRunning = false) (i : Nat) :
    (s.call i).isRunning = false := by
  rcases Nat.lt_or_ge i s.ops.length with hlt | hge
  · exact hdone i hlt
  · rw [h.idle i hge]
    rfl

omit [DecidableEq K] in
theorem State.Frame.publishes {i j : Nat} (hs : s.Frame i s') (hj : j ≠ i)
    {J : List (Bool × List W) → Prop} (h : s.Publishes Y J j) : s'.Publishes Y J j := by
  obtain ⟨gs, hlog, hgs⟩ := hs.log
  have hnone : publishedBy j gs = [] := publishedBy_other fun g hg => by
    rw [hgs g hg]
    exact hj.symm
  unfold State.Publishes at h ⊢
  rw [hs.call j hj, hlog, publishedBy_append, hnone, List.append_nil]
  exact h

/-- Along every run, what each call publishes is as its program promises. -/
theorem System.Reach.publishes {J : Nat → Op → List (Bool × List W) → Prop}
    (hnil : ∀ i op, J i op [])
    (hprog : ∀ i op d, R.ops d op = true → (Y.prog i op).publishes (fun e => Y.isFault e = true)
      (J i op) (fun _ _ _ => True) none []) (h : Y.Reach R d₀ s) :
    s.Fresh ∧ ∀ i op, s.ops[i]? = some op → s.Publishes Y (J i op) i := by
  induction h with
  | init => exact ⟨⟨fun _ _ => rfl, by simp [State.init]⟩, fun i op hi => by simp [State.init] at hi⟩
  | @step s s' l _ hadm hn ih =>
    obtain ⟨hfresh, hcalls⟩ := ih
    -- a step of one call
    have step : ∀ i, (s.call i).isRunning = true → s.Frame i s' →
        (∀ op, s.Publishes Y (J i op) i → s'.Publishes Y (J i op) i) →
        s'.Fresh ∧ ∀ i op, s'.ops[i]? = some op → s'.Publishes Y (J i op) i := by
      intro i hi hs hstep
      refine ⟨hfresh.frame hi hs, fun j op hj => ?_⟩
      rw [hs.ops] at hj
      by_cases e : j = i
      · subst e
        exact hstep op (hcalls j op hj)
      · exact hs.publishes e (hcalls j op hj)
    cases l with
    | spawn op =>
      cases hn
      simp only [System.admits, Bool.and_eq_true] at hadm
      refine ⟨hfresh.spawn op _, fun j op' hj => ?_⟩
      by_cases e : j = s.ops.length
      · subst e
        simp only [State.set_ops, List.getElem?_concat_length, Option.some.injEq] at hj
        subst hj
        have hnone : publishedBy s.ops.length s.log = [] :=
          publishedBy_other fun g hg => by have := hfresh.log g hg; omega
        unfold State.Publishes
        rw [State.set_self, State.set_log]
        simp only [hnone]
        exact ⟨hnil _ _, hprog _ _ _ hadm.1⟩
      · have hlt := (List.getElem?_eq_some_iff.1 hj).1
        simp only [State.set_ops, List.length_append, List.length_singleton] at hlt
        rw [State.set_ops, List.getElem?_append_left (by omega)] at hj
        unfold State.Publishes
        rw [State.set_other e]
        exact hcalls j op' hj
    | step i =>
      simp only [System.next] at hn
      split at hn
      · next tx p hcall =>
        exact step i (by rw [hcall]; rfl) (System.stepCall_frame hn)
          fun op h => System.stepCall_publishes hcall hn h
      · cases hn
    | fault i e =>
      simp only [System.next] at hn
      split at hn
      · next tx p hcall =>
        split at hn
        · next he =>
          exact step i (by rw [hcall]; rfl) (System.faultCall_frame hn)
            fun op h => System.faultCall_publishes he hcall hn h
        · cases hn
      · cases hn

end

end Txn
