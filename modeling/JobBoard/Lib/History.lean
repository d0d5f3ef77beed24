import Mathlib.Data.List.Induction
import JobBoard.Lib.Publish
import JobBoard.Lib.Sound

/-!
# Runs under a condition, and facts about their past

`System.Within ok` are the runs each of whose steps satisfies `ok` in the state it
is taken in. For programs that open no transaction, `p.along` is a weakest
precondition over the log: it holds of the log at the moment a call takes its next
statement, so that what the call has read at an earlier moment is a fact about a
prefix of the log it writes to. `History.good` is the rule: `rely` is what a call in
progress may expect of the groups that other calls publish meanwhile.
-/

set_option autoImplicit false

namespace Txn

variable {D W K ε α β Op : Type}

/-- Where a list with a new last element is split. -/
theorem snoc_split {L l r : List α} {a b : α} (h : L ++ [a] = l ++ b :: r) :
    (L = l ∧ a = b ∧ r = []) ∨ ∃ r', r = r' ++ [a] ∧ L = l ++ b :: r' := by
  rcases List.eq_nil_or_concat r with rfl | ⟨r', c, rfl⟩
  · obtain ⟨rfl, hab⟩ := List.append_inj' h rfl
    cases hab
    exact .inl ⟨rfl, rfl, rfl⟩
  · rw [List.concat_eq_append, ← List.cons_append, ← List.append_assoc] at h
    obtain ⟨rfl, hac⟩ := List.append_inj' h rfl
    cases hac
    exact .inr ⟨r', by rw [List.concat_eq_append], rfl⟩

/-! ## Runs under a condition -/

/-- The states of the runs from `d` in which each step satisfies `ok`. -/
inductive System.Within [DecidableEq K] (Y : System D W K ε α Op)
    (ok : State D W ε α Op → Label ε Op → Prop) (d : D) : State D W ε α Op → Prop
  | init : Y.Within ok d (State.init d)
  | step {s s' : State D W ε α Op} (l : Label ε Op) : Y.Within ok d s → ok s l →
      Y.next s l = some s' → Y.Within ok d s'

/-- The writes that the next statement of call `i` issues. -/
def State.issues (s : State D W ε α Op) (i : Nat) : List W :=
  match s.call i with
  | .run none (.stmt w _) => w s.db
  | .run none (.aside w _) => w s.db
  | _ => []

section

variable [DecidableEq K] {Y : System D W K ε α Op} {ok : State D W ε α Op → Label ε Op → Prop}
  {d : D} {s s' : State D W ε α Op}

theorem System.Within.reachable (h : Y.Within ok d s) : Y.Reachable d s := by
  induction h with
  | init => exact .init
  | step l _ _ hn ih =>
    refine .step l ih ?_ hn
    cases l with
    | step i => simp only [System.admits]; split <;> rfl
    | _ => rfl

theorem System.Reach.within {R : Runs D W Op} (h : Y.Reach R d s) :
    Y.Within (fun s l => Y.admits R s l = true) d s := by
  induction h with
  | init => exact .init
  | step l _ hadm hn ih => exact .step l ih hadm hn

/-- The run with the given labels, if each satisfies `ok`. -/
def System.runIf (Y : System D W K ε α Op) (ok : State D W ε α Op → Label ε Op → Bool)
    (s : State D W ε α Op) : List (Label ε Op) → Option (State D W ε α Op)
  | [] => some s
  | l :: ls => if ok s l then (Y.next s l).bind fun s' => Y.runIf ok s' ls else none

theorem System.runIf_within {ok : State D W ε α Op → Label ε Op → Bool} {ls : List (Label ε Op)}
    (h : Y.Within (fun s l => ok s l = true) d s) (hr : Y.runIf ok s ls = some s') :
    Y.Within (fun s l => ok s l = true) d s' := by
  induction ls generalizing s with
  | nil =>
    simp only [System.runIf, Option.some.injEq] at hr
    exact hr ▸ h
  | cons l ls ih =>
    simp only [System.runIf] at hr
    split at hr
    · next hok =>
      obtain ⟨s₁, hn, hr⟩ := Option.bind_eq_some_iff.1 hr
      exact ih (.step l h hok hn) hr
    · cases hr

/-- A checked run from `d` is one under the condition. -/
theorem System.within_of_run {ok : State D W ε α Op → Label ε Op → Bool} {ls : List (Label ε Op)}
    {β : Type} {p : State D W ε α Op → β} {b : β}
    (h : (Y.runIf ok (State.init d) ls).map p = some b) :
    ∃ s, Y.Within (fun s l => ok s l = true) d s ∧ p s = b := by
  obtain ⟨s, hr, hp⟩ := Option.map_eq_some_iff.1 h
  exact ⟨s, System.runIf_within .init hr, hp⟩

end

/-! ### Calls that exclude each other -/

section

variable [DecidableEq K] {Y : System D W K ε α Op} {ok : State D W ε α Op → Label ε Op → Prop}
  {d : D} {s s' : State D W ε α Op}

theorem System.Within.weaken {ok' : State D W ε α Op → Label ε Op → Prop}
    (hok : ∀ s l, Y.Within ok d s → ok s l → ok' s l) (h : Y.Within ok d s) :
    Y.Within ok' d s := by
  induction h with
  | init => exact .init
  | step l hs hl hn ih => exact .step l ih (hok _ l hs hl) hn

theorem System.Within.mono {ok' : State D W ε α Op → Label ε Op → Prop}
    (hok : ∀ s l, ok s l → ok' s l) (h : Y.Within ok d s) : Y.Within ok' d s :=
  h.weaken fun s l _ => hok s l

/-- Where an operation starts only besides operations that it is compatible with, all
operations in progress are compatible. -/
theorem System.Within.exclusive {R : Op → Op → Prop} (hsymm : ∀ {a b}, R a b → R b a)
    (hok : ∀ {s op}, ok s (.spawn op) → ∀ i op', s.ops[i]? = some op' →
      (s.call i).isRunning = true → R op' op) (h : Y.Within ok d s) :
    ∀ {i j op op'}, s.ops[i]? = some op → s.ops[j]? = some op' → i ≠ j →
      (s.call i).isRunning = true → (s.call j).isRunning = true → R op op' := by
  have hfresh := h.reachable.fresh
  induction h with
  | init =>
    intro i j op op' hi
    cases hi
  | @step s s' l hw hl hn ih =>
    have hs : s.Fresh := hw.reachable.fresh
    intro i j op op' hi hj hij hri hrj
    rcases System.next_cases hn with ⟨o, rfl, rfl⟩ | ⟨k, hk, hframe⟩
    · -- one of the two may be the call that has been started
      have old : ∀ {i op}, (s.ops ++ [o])[i]? = some op → i ≠ s.ops.length →
          s.ops[i]? = some op := by
        intro i op hi hne
        have hlt := (List.getElem?_eq_some_iff.1 hi).1
        rw [List.length_append, List.length_singleton] at hlt
        rwa [List.getElem?_append_left (by omega)] at hi
      have new : ∀ {op}, (s.ops ++ [o])[s.ops.length]? = some op → o = op := by
        intro op h
        rwa [List.getElem?_concat_length, Option.some.injEq] at h
      by_cases hnew : i = s.ops.length
      · subst hnew
        have hj' := old hj (Ne.symm hij)
        rw [State.set_other (Ne.symm hij)] at hrj
        rw [← new hi]
        exact hsymm (hok hl j op' hj' hrj)
      · have hi' := old hi hnew
        rw [State.set_other hnew] at hri
        by_cases hnew' : j = s.ops.length
        · subst hnew'
          rw [← new hj]
          exact hok hl i op hi' hri
        · rw [State.set_other hnew'] at hrj
          exact ih hs hi' (old hj hnew') hij hri hrj
    · have running : ∀ {i}, (s'.call i).isRunning = true → (s.call i).isRunning = true := by
        intro i hi
        by_cases hik : i = k
        · exact hik ▸ hk
        · rwa [← hframe.call i hik]
      rw [hframe.ops] at hi hj
      exact ih hs hi hj hij (running hri) (running hrj)

end

/-! ### What is known of a later state -/

/-- From `s` to the later state `s'`, calls that were finished have done nothing. -/
structure State.Before (s s' : State D W ε α Op) : Prop where
  ops : s.ops <+: s'.ops
  call : ∀ i, i < s.ops.length → (s.call i).isRunning = false → s'.call i = s.call i
  log : ∃ gs, s'.log = s.log ++ gs ∧
    ∀ g ∈ gs, g.call < s.ops.length → (s.call g.call).isRunning = true

section

variable [DecidableEq K] {Y : System D W K ε α Op} {ok : State D W ε α Op → Label ε Op → Prop}
  {d : D} {s s' s'' : State D W ε α Op}

omit [DecidableEq K] in
theorem State.Before.refl (s : State D W ε α Op) : s.Before s :=
  ⟨List.prefix_rfl, fun _ _ _ => rfl, [], by simp, by simp⟩

omit [DecidableEq K] in
theorem State.Before.op (h : s.Before s') {i : Nat} (hi : i < s.ops.length) :
    s'.ops[i]? = s.ops[i]? := by
  obtain ⟨ops, hops⟩ := h.ops
  rw [← hops, List.getElem?_append_left hi]

theorem State.Before.next (h : s.Before s') {l : Label ε Op} (hn : Y.next s' l = some s'') :
    s.Before s'' := by
  have hlen := h.ops.length_le
  obtain ⟨gs, hgs, hlog⟩ := h.log
  rcases System.next_cases hn with ⟨op, rfl, rfl⟩ | ⟨k, hk, hframe⟩
  · refine ⟨h.ops.trans (List.prefix_append _ _), fun i hi hr => ?_, gs, hgs, hlog⟩
    rw [State.set_other (by omega)]
    exact h.call i hi hr
  · -- the call that takes the step was running before
    have hrun : ∀ i, i < s.ops.length → i = k → (s.call i).isRunning = true := by
      rintro i hi rfl
      by_contra hr
      rw [h.call i hi (Bool.eq_false_iff.2 hr)] at hk
      exact hr hk
    refine ⟨hframe.ops ▸ h.ops, fun i hi hr => ?_, ?_⟩
    · rw [hframe.call i fun hik => by rw [hrun i hi hik] at hr; cases hr]
      exact h.call i hi hr
    · obtain ⟨gs', hgs', hown⟩ := hframe.log
      refine ⟨gs ++ gs', by rw [hgs', hgs, List.append_assoc], fun g hg hlt => ?_⟩
      rcases List.mem_append.1 hg with hg | hg
      · exact hlog g hg hlt
      · exact hrun g.call hlt (hown g hg)

theorem State.Before.runLabels {R : Runs D W Op} {ls : List (Label ε Op)} (h : s.Before s')
    (hr : Y.runLabels R s' ls = some s'') : s.Before s'' := by
  induction ls generalizing s' with
  | nil => exact Option.some.inj hr ▸ h
  | cons l ls ih =>
    simp only [System.runLabels] at hr
    split at hr
    · obtain ⟨s₁, hn, hr⟩ := Option.bind_eq_some_iff.1 hr
      exact ih (h.next hn) hr
    · cases hr

/-- The operation that a run starts with. -/
theorem System.runLabels_op {R : Runs D W Op} {op : Op} {ls : List (Label ε Op)}
    (hr : Y.runLabels R s (.spawn op :: ls) = some s') : s'.ops[s.ops.length]? = some op := by
  simp only [System.runLabels] at hr
  split at hr
  · obtain ⟨s₁, hn, hr⟩ := Option.bind_eq_some_iff.1 hr
    cases hn
    rw [((State.Before.refl _).runLabels hr).op (by simp)]
    simp
  · cases hr

/-- The same run, of which the final state is known from the start. -/
theorem System.Within.before (h : Y.Within ok d s) :
    Y.Within (fun t l => ok t l ∧ t.Before s) d s := by
  induction h with
  | init => exact .init
  | @step s s' l _ hl hn ih =>
    refine .step l (ih.mono fun t l' ht => ⟨ht.1, ht.2.next hn⟩) ⟨hl, ?_⟩ hn
    exact (State.Before.refl s).next hn

end

/-! ## Programs along a log -/

namespace Prog

section

variable (S : Store D W K) (d₀ : D) (i : Nat) (rely : List (Group W) → List (Group W) → Prop)
  (I : List (Group W) → Prop) (G : List (Group W) → List W → Prop)
  (fails : List (Group W) → Prop) (fault : ε → Prop) (E : List (Group W) → ε → Prop)

/-- `K` of the log after call `i` has published `ws`, if anything. -/
def logs (L : List (Group W)) (ws : List W) (K : List (Group W) → Prop) : Prop :=
  match ws with
  | [] => K L
  | w :: ws => G L (w :: ws) ∧ K (L ++ [⟨i, false, w :: ws⟩])

/-- A statement may fail by itself where `fails` holds. -/
def along : Prog D W ε α → (List (Group W) → α → Prop) → List (Group W) → Prop
  | ret a, Q, L => Q L a
  | throw e, _, L => E L e
  | stmt w k, Q, L => ∀ L', rely L L' → I L' → (fails L' → ∀ e, fault e → E L' e) ∧
      logs i G L' (w (replay S d₀ L')) fun L'' => (k (replay S d₀ L')).along Q L''
  | aside w k, Q, L => ∀ L', rely L L' → I L' → (fails L' → ∀ e, fault e → E L' e) ∧
      logs i G L' (w (replay S d₀ L')) fun L'' => (k (replay S d₀ L')).along Q L''
  | openTx _ _, _, _ => False
  | commit _, _, _ => False

end

section

variable {S : Store D W K} {d₀ : D} {i : Nat} {rely : List (Group W) → List (Group W) → Prop}
  {I : List (Group W) → Prop} {G : List (Group W) → List W → Prop}
  {fails : List (Group W) → Prop} {fault : ε → Prop} {E : List (Group W) → ε → Prop}
  {L : List (Group W)}

theorem logs_iff {ws : List W} {K K' : List (Group W) → Prop} (h : ∀ L', K L' ↔ K' L') :
    logs i G L ws K ↔ logs i G L ws K' := by
  cases ws <;> simp only [logs, h]

theorem logs_mono {ws : List W} {K K' : List (Group W) → Prop} (h : logs i G L ws K)
    (hK : ∀ L', K L' → K' L') : logs i G L ws K' := by
  cases ws with
  | nil => exact hK _ h
  | cons w ws => exact ⟨h.1, hK _ h.2⟩

theorem along_bind (p : Prog D W ε α) (f : α → Prog D W ε β) (Q : List (Group W) → β → Prop)
    (L : List (Group W)) :
    (p >>= f).along S d₀ i rely I G fails fault E Q L ↔
      p.along S d₀ i rely I G fails fault E
        (fun L' a => (f a).along S d₀ i rely I G fails fault E Q L') L := by
  induction p generalizing L with
  | ret a => rfl
  | throw e => rfl
  | stmt w k ih =>
    refine forall_congr' fun L' => forall_congr' fun _ => forall_congr' fun _ =>
      and_congr Iff.rfl (logs_iff fun L'' => ?_)
    exact ih _ L''
  | aside w k ih =>
    refine forall_congr' fun L' => forall_congr' fun _ => forall_congr' fun _ =>
      and_congr Iff.rfl (logs_iff fun L'' => ?_)
    exact ih _ L''
  | openTx h k => rfl
  | commit k => rfl

theorem along_mono {p : Prog D W ε α} {Q Q' : List (Group W) → α → Prop}
    (hQ : ∀ L' a, Q L' a → Q' L' a) (h : p.along S d₀ i rely I G fails fault E Q L) :
    p.along S d₀ i rely I G fails fault E Q' L := by
  induction p generalizing L with
  | ret a => exact hQ _ _ h
  | throw e => exact h
  | stmt w k ih =>
    intro L' hr hI
    exact ⟨(h L' hr hI).1, logs_mono (h L' hr hI).2 fun L'' h => ih _ h⟩
  | aside w k ih =>
    intro L' hr hI
    exact ⟨(h L' hr hI).1, logs_mono (h L' hr hI).2 fun L'' h => ih _ h⟩
  | openTx hd k => exact h.elim
  | commit k => exact h.elim

theorem along_select {f : D → α} {Q : List (Group W) → α → Prop}
    (hE : ∀ L', rely L L' → I L' → fails L' → ∀ e, fault e → E L' e)
    (h : ∀ L', rely L L' → I L' → Q L' (f (replay S d₀ L'))) :
    (select f : Prog D W ε α).along S d₀ i rely I G fails fault E Q L :=
  fun L' hr hI => ⟨hE L' hr hI, h L' hr hI⟩

theorem along_write {f : D → List W} {Q : List (Group W) → Unit → Prop}
    (hE : ∀ L', rely L L' → I L' → fails L' → ∀ e, fault e → E L' e)
    (h : ∀ L', rely L L' → I L' → logs i G L' (f (replay S d₀ L')) fun L'' => Q L'' ()) :
    (write f : Prog D W ε Unit).along S d₀ i rely I G fails fault E Q L :=
  fun L' hr hI => ⟨hE L' hr hI, h L' hr hI⟩

theorem along_query {f : D → Except ε (List W × α)} {Q : List (Group W) → α → Prop}
    (hE : ∀ L', rely L L' → I L' → fails L' → ∀ e, fault e → E L' e)
    (herr : ∀ L' e, rely L L' → I L' → f (replay S d₀ L') = .error e → E L' e)
    (hok : ∀ L' ws a, rely L L' → I L' → f (replay S d₀ L') = .ok (ws, a) →
      logs i G L' ws fun L'' => Q L'' a) :
    (query f : Prog D W ε α).along S d₀ i rely I G fails fault E Q L := by
  intro L' hr hI
  refine ⟨hE L' hr hI, ?_⟩
  cases hf : f (replay S d₀ L') with
  | ok r =>
    simp only [hf, along]
    exact hok L' r.1 r.2 hr hI hf
  | error e =>
    simp only [hf, along, logs]
    exact herr L' e hr hI hf

/-- A plain piece whose groups satisfy `St`, and what it carries along. -/
theorem Plain.along {St : List W → Prop} {Er : ε → Prop} {p : Prog D W ε α}
    (hp : p.Plain St St Er) {P : List (Group W) → Prop}
    (hrely : ∀ L L', P L → rely L L' → I L' → P L')
    (hwrite : ∀ L ws, P L → I L → St ws → logs i G L ws P)
    (hE : ∀ L e, P L → Er e ∨ (fails L ∧ fault e) → E L e)
    {Q : List (Group W) → α → Prop} (hQ : ∀ L a, P L → Q L a) (h : P L) :
    p.along S d₀ i rely I G fails fault E Q L := by
  induction p generalizing L with
  | ret a => exact hQ L a h
  | throw e => exact hE L e h (.inl hp)
  | stmt w k ih =>
    intro L' hr hI
    have hP := hrely L L' h hr hI
    exact ⟨fun hf e he => hE L' e hP (.inr ⟨hf, he⟩),
      logs_mono (hwrite L' _ hP hI (hp _).1) fun L'' h' => ih _ (hp _).2 h'⟩
  | aside w k ih =>
    intro L' hr hI
    have hP := hrely L L' h hr hI
    exact ⟨fun hf e he => hE L' e hP (.inr ⟨hf, he⟩),
      logs_mono (hwrite L' _ hP hI (hp _).1) fun L'' h' => ih _ (hp _).2 h'⟩
  | openTx hd k => exact hp.elim
  | commit k => exact hp.elim

/-- What other calls publish keeps the precondition. -/
theorem along_stable (trans : ∀ a b c, rely a b → rely b c → rely a c)
    {Q : List (Group W) → α → Prop} {L' : List (Group W)} (hQ : ∀ a, Q L a → Q L' a)
    (hE : ∀ e, E L e → E L' e) {p : Prog D W ε α}
    (h : p.along S d₀ i rely I G fails fault E Q L) (hr : rely L L') :
    p.along S d₀ i rely I G fails fault E Q L' := by
  cases p with
  | ret a => exact hQ a h
  | throw e => exact hE e h
  | stmt w k => exact fun L'' hr' => h L'' (trans L L' L'' hr hr')
  | aside w k => exact fun L'' hr' => h L'' (trans L L' L'' hr hr')
  | openTx hd k => exact h
  | commit k => exact h

end

end Prog

/-! ## The rule -/

open Prog

/-- What is proved of the programs: what call `i` relies on while it runs `op`, the
invariant of the log, what it guarantees of each group at the log it adds the group
to, where its statements may fail, and what holds when it has returned or thrown. -/
structure Conduct (W ε α Op : Type) where
  rely : Nat → Op → List (Group W) → List (Group W) → Prop
  inv : List (Group W) → Prop
  guar : Nat → Op → List (Group W) → List W → Prop
  fails : Nat → Op → List (Group W) → Prop
  post : Nat → Op → List (Group W) → α → Prop
  err : Nat → Op → List (Group W) → ε → Prop

section

variable (Y : System D W K ε α Op) (C : Conduct W ε α Op) (d₀ : D)

/-- Call `i` of `op` keeps to `C` from the log `L`. -/
def Conduct.holds (i : Nat) (op : Op) (L : List (Group W)) (p : Prog D W ε α) : Prop :=
  p.along Y.store d₀ i (C.rely i op) C.inv (C.guar i op) (C.fails i op)
    (fun e => Y.isFault e = true) (C.err i op) (C.post i op) L

def Call.Keeps (i : Nat) (op : Op) (L : List (Group W)) : Call D W ε α → Prop
  | .run none p => C.holds Y d₀ i op L p
  | .done (.ok a) => C.post i op L a
  | .done (.error e) => C.err i op L e
  | _ => False

/-- The state of a system whose calls keep to `C`, from the database `d₀`. -/
structure Kept (s : State D W ε α Op) : Prop where
  db : s.db = replay Y.store d₀ s.log
  inv : C.inv s.log
  log : ∀ {l g r}, s.log = l ++ g :: r → g.viaTx = false ∧ ∃ op, s.ops[g.call]? = some op ∧
    C.inv l ∧ C.guar g.call op l g.writes
  call : ∀ {i op}, s.ops[i]? = some op → (s.call i).Keeps Y C d₀ i op s.log
  fresh : s.Fresh

end

structure History [DecidableEq K] (Y : System D W K ε α Op)
    (ok : State D W ε α Op → Label ε Op → Prop) (C : Conduct W ε α Op) (d₀ : D) : Prop where
  refl : ∀ i op L, C.rely i op L L
  trans : ∀ i op a b c, C.rely i op a b → C.rely i op b c → C.rely i op a c
  inv : ∀ {i op L ws}, C.inv L → C.guar i op L ws → C.inv (L ++ [⟨i, false, ws⟩])
  /-- What another call publishes is as `j` relies on. -/
  others : ∀ {s i op j op' ws}, Y.Within ok d₀ s → Kept Y C d₀ s → ok s (.step i) →
    s.ops[i]? = some op → s.ops[j]? = some op' → j ≠ i → (s.call j).isRunning = true →
    s.issues i = ws → ws ≠ [] → C.guar i op s.log ws →
    C.rely j op' s.log (s.log ++ [⟨i, false, ws⟩])
  /-- And does not disturb what is known of a call that is finished, or will be. -/
  settled : ∀ {i op} j op' {L ws}, C.inv L → C.guar i op L ws → j ≠ i →
    (∀ a, C.post j op' L a → C.post j op' (L ++ [⟨i, false, ws⟩]) a) ∧
    ∀ e, C.err j op' L e → C.err j op' (L ++ [⟨i, false, ws⟩]) e
  fault : ∀ {s i op e}, Y.Within ok d₀ s → Kept Y C d₀ s → ok s (.fault i e) →
    s.ops[i]? = some op → C.fails i op s.log
  prog : ∀ {s op}, Y.Within ok d₀ s → Kept Y C d₀ s → ok s (.spawn op) →
    C.holds Y d₀ s.ops.length op s.log (Y.prog s.ops.length op)

section

variable [DecidableEq K] {Y : System D W K ε α Op} {ok : State D W ε α Op → Label ε Op → Prop}
  {C : Conduct W ε α Op} {d₀ : D} {s s' : State D W ε α Op}

omit [DecidableEq K] in
/-- Call `i` is in a new state, and has published nothing. -/
theorem Kept.set (h : Kept Y C d₀ s) {i : Nat} (hi : (s.call i).isRunning = true)
    {c : Call D W ε α} (hc : ∀ op, s.ops[i]? = some op → c.Keeps Y C d₀ i op s.log) :
    Kept Y C d₀ (s.set i c) where
  db := h.db
  inv := h.inv
  log := h.log
  call := by
    intro j op hj
    by_cases e : j = i
    · subst e
      rw [State.set_self]
      exact hc op hj
    · rw [State.set_other e]
      exact h.call hj
  fresh := h.fresh.frame hi ((State.Frame.refl s i).set c)

/-- A statement of call `i` has published the group `ws`, if any. -/
theorem Kept.autocommit (hH : History Y ok C d₀) (hw : Y.Within ok d₀ s) (h : Kept Y C d₀ s)
    {i : Nat} {op : Op} (hok : ok s (.step i)) (hi : s.ops[i]? = some op)
    (hrun : (s.call i).isRunning = true) {ws : List W} (hws : s.issues i = ws) {p : Prog D W ε α}
    (hp : logs i (C.guar i op) s.log ws fun L => C.holds Y d₀ i op L p) :
    Kept Y C d₀ ((s.autocommit Y.store i ws).set i (.run none p)) := by
  cases ws with
  | nil =>
    refine h.set hrun fun op' hop' => ?_
    rw [hi] at hop'
    cases hop'
    exact hp
  | cons w ws =>
    obtain ⟨hG, hp⟩ := hp
    refine ⟨?_, hH.inv h.inv hG, ?_, ?_,
      h.fresh.frame hrun ((State.Frame.publish Y.store false _).set _)⟩
    · rw [State.set_log, State.autocommit, State.publish_log, replay_snoc, ← h.db]
      rfl
    · intro l g r hlog
      rw [State.set_log, State.autocommit, State.publish_log] at hlog
      rcases snoc_split hlog with ⟨rfl, rfl, -⟩ | ⟨r', -, hlog⟩
      · exact ⟨rfl, op, hi, h.inv, hG⟩
      · exact h.log hlog
    · intro j op' hj
      rw [State.set_log, State.autocommit, State.publish_log]
      rw [State.set_ops, State.autocommit, State.publish_ops] at hj
      by_cases e : j = i
      · subst e
        rw [State.set_self]
        rw [hi] at hj
        cases hj
        exact hp
      · rw [State.set_other e, State.publish_call]
        have hj' := h.call hj
        obtain ⟨hpost, herr⟩ := hH.settled j op' h.inv hG e
        cases hc : s.call j with
        | idle => rw [hc] at hj'; exact hj'
        | done r =>
          rw [hc] at hj'
          cases r with
          | ok a => exact hpost a hj'
          | error e => exact herr e hj'
        | run tx q =>
          rw [hc] at hj'
          cases tx with
          | some tx => exact hj'
          | none =>
            exact along_stable (hH.trans j op') (fun a => hpost a) (fun e => herr e) hj'
              (hH.others hw h hok hi hj e (by rw [hc]; rfl) hws (by simp) hG)

theorem Kept.stepCall (hH : History Y ok C d₀) (hw : Y.Within ok d₀ s) (h : Kept Y C d₀ s)
    {i : Nat} {op : Op} (hok : ok s (.step i)) (hi : s.ops[i]? = some op)
    {tx : Option (OpenTx D W ε α)} {p : Prog D W ε α} (hcall : s.call i = .run tx p)
    (hn : Y.stepCall s i tx p = some s') : Kept Y C d₀ s' := by
  have hk := h.call hi
  have hrun : (s.call i).isRunning = true := by
    rw [hcall]
    rfl
  rw [hcall] at hk
  cases tx with
  | some tx => exact hk.elim
  | none =>
    cases p with
    | ret a =>
      cases hn
      refine h.set hrun fun op' hop' => ?_
      rw [hi] at hop'
      cases hop'
      exact hk
    | throw e =>
      cases hn
      refine h.set hrun fun op' hop' => ?_
      rw [hi] at hop'
      cases hop'
      exact hk
    | stmt w k =>
      simp only [System.stepCall] at hn
      split at hn
      · cases hn
        have hp := (hk s.log (hH.refl i op _) h.inv).2
        rw [← h.db] at hp
        exact h.autocommit hH hw hok hi hrun (by simp only [State.issues, hcall]) hp
      · cases hn
    | aside w k =>
      simp only [System.stepCall] at hn
      split at hn
      · cases hn
        have hp := (hk s.log (hH.refl i op _) h.inv).2
        rw [← h.db] at hp
        exact h.autocommit hH hw hok hi hrun (by simp only [State.issues, hcall]) hp
      · cases hn
    | openTx hd k => exact hk.elim
    | commit k => exact hk.elim

theorem Kept.faultCall (hH : History Y ok C d₀) (hw : Y.Within ok d₀ s) (h : Kept Y C d₀ s)
    {i : Nat} {op : Op} {e : ε} (hok : ok s (.fault i e)) (hi : s.ops[i]? = some op)
    (he : Y.isFault e = true) {tx : Option (OpenTx D W ε α)} {p : Prog D W ε α}
    (hcall : s.call i = .run tx p) (hn : Y.faultCall s i e tx p = some s') :
    Kept Y C d₀ s' := by
  have hk := h.call hi
  have hrun : (s.call i).isRunning = true := by
    rw [hcall]
    rfl
  have hfails := hH.fault hw h hok hi
  rw [hcall] at hk
  -- the call is about to throw
  have thrown : C.err i op s.log e → Kept Y C d₀ (s.set i (.run none (.throw e))) := by
    intro herr
    refine h.set hrun fun op' hop' => ?_
    rw [hi] at hop'
    cases hop'
    exact herr
  cases tx with
  | some tx => exact hk.elim
  | none =>
    cases p with
    | ret a => cases hn
    | throw e' => cases hn
    | stmt w k =>
      cases hn
      exact thrown ((hk s.log (hH.refl i op _) h.inv).1 hfails e he)
    | aside w k =>
      cases hn
      exact thrown ((hk s.log (hH.refl i op _) h.inv).1 hfails e he)
    | openTx hd k => exact hk.elim
    | commit k => exact hk.elim

/-- In every run whose steps satisfy the condition, each group was as guaranteed at
the log it was added to, and each finished call is as specified. -/
theorem History.good (hH : History Y ok C d₀) (h₀ : C.inv []) (h : Y.Within ok d₀ s) :
    Kept Y C d₀ s := by
  induction h with
  | init =>
    refine ⟨rfl, h₀, ?_, ?_, ⟨fun _ _ => rfl, by simp [State.init]⟩⟩
    · intro l g r hlog
      simp [State.init] at hlog
    · intro i op hi
      simp [State.init] at hi
  | @step s s' l hw hok hn ih =>
    cases l with
    | spawn op =>
      cases hn
      refine ⟨ih.db, ih.inv, ?_, ?_, ih.fresh.spawn op _⟩
      · intro l g r hlog
        obtain ⟨htx, op', hop', hg⟩ := ih.log hlog
        exact ⟨htx, op', List.getElem?_append_left (List.getElem?_eq_some_iff.1 hop').1 ▸ hop', hg⟩
      · intro j op' hj
        by_cases e : j = s.ops.length
        · subst e
          simp only [State.set_ops, List.getElem?_concat_length, Option.some.injEq] at hj
          subst hj
          rw [State.set_self]
          exact hH.prog hw ih hok
        · have hlt := (List.getElem?_eq_some_iff.1 hj).1
          simp only [State.set_ops, List.length_append, List.length_singleton] at hlt
          rw [State.set_ops, List.getElem?_append_left (by omega)] at hj
          rw [State.set_other e]
          exact ih.call hj
    | step i =>
      simp only [System.next] at hn
      split at hn
      · next tx p hcall =>
        obtain ⟨op, hi⟩ := ih.fresh.op_of_running (by rw [hcall]; rfl)
        exact ih.stepCall hH hw hok hi hcall hn
      · cases hn
    | fault i e =>
      simp only [System.next] at hn
      split at hn
      · next tx p hcall =>
        split at hn
        · next he =>
          obtain ⟨op, hi⟩ := ih.fresh.op_of_running (by rw [hcall]; rfl)
          exact ih.faultCall hH hw hok hi he hcall hn
        · cases hn
      · cases hn

omit [DecidableEq K] in
/-- What the next statement of a call issues is as guaranteed. -/
theorem Kept.issued (h : Kept Y C d₀ s) {i : Nat} {op : Op} (hi : s.ops[i]? = some op)
    (hr : C.rely i op s.log s.log) : s.issues i = [] ∨ C.guar i op s.log (s.issues i) := by
  have hk := h.call hi
  -- a statement on its own
  have statement : ∀ {w : D → List W} {k : D → Prog D W ε α} {fails : Prop},
      fails ∧ logs i (C.guar i op) s.log (w (replay Y.store d₀ s.log)) (fun L =>
        C.holds Y d₀ i op L (k (replay Y.store d₀ s.log))) →
      w s.db = [] ∨ C.guar i op s.log (w s.db) := by
    intro w k fails hw
    rw [h.db]
    cases hws : w (replay Y.store d₀ s.log) with
    | nil => exact .inl rfl
    | cons x xs =>
      rw [hws] at hw
      exact .inr hw.2.1
  unfold State.issues
  cases hc : s.call i with
  | run tx p =>
    rw [hc] at hk
    cases tx with
    | some tx => exact hk.elim
    | none =>
      cases p with
      | stmt w k => exact statement (hk s.log hr h.inv)
      | aside w k => exact statement (hk s.log hr h.inv)
      | _ => exact .inl rfl
  | _ => exact .inl rfl

/-- What a step adds to the log. -/
theorem Kept.next_log (h : Kept Y C d₀ s) {l : Label ε Op} (hn : Y.next s l = some s') :
    s'.log = s.log ∨ ∃ i op, l = .step i ∧ s.ops[i]? = some op ∧ s.issues i ≠ [] ∧
      s'.log = s.log ++ [⟨i, false, s.issues i⟩] := by
  -- a statement on its own
  have statement : ∀ {i : Nat} {w : D → List W} {c : Call D W ε α}, s.issues i = w s.db →
      (s.call i).isRunning = true →
      ((s.autocommit Y.store i (w s.db)).set i c).log = s.log ∨ ∃ i' op,
        (Label.step i : Label ε Op) = .step i' ∧ s.ops[i']? = some op ∧ s.issues i' ≠ [] ∧
        ((s.autocommit Y.store i (w s.db)).set i c).log =
          s.log ++ [⟨i', false, s.issues i'⟩] := by
    intro i w c hissues hrun
    obtain ⟨op, hop⟩ := h.fresh.op_of_running hrun
    cases hw : w s.db with
    | nil => exact .inl rfl
    | cons x xs => exact .inr ⟨i, op, rfl, hop, by rw [hissues, hw]; simp, by rw [hissues, hw]; rfl⟩
  cases l with
  | spawn op =>
    cases hn
    exact .inl rfl
  | fault i e =>
    simp only [System.next] at hn
    split at hn
    · next tx p hcall =>
      split at hn
      · cases tx <;> cases p <;> cases hn <;> exact .inl rfl
      · cases hn
    · cases hn
  | step i =>
    simp only [System.next] at hn
    split at hn
    · next tx p hcall =>
      have hrun : (s.call i).isRunning = true := by rw [hcall]; rfl
      obtain ⟨op, hop⟩ := h.fresh.op_of_running hrun
      have hk := h.call hop
      rw [hcall] at hk
      cases tx with
      | some tx => exact hk.elim
      | none =>
        cases p with
        | ret a =>
          cases hn
          exact .inl rfl
        | throw e =>
          cases hn
          exact .inl rfl
        | stmt w k =>
          simp only [System.stepCall] at hn
          split at hn
          · cases hn
            exact statement (by simp only [State.issues, hcall]) hrun
          · cases hn
        | aside w k =>
          simp only [System.stepCall] at hn
          split at hn
          · cases hn
            exact statement (by simp only [State.issues, hcall]) hrun
          · cases hn
        | openTx hd k => exact hk.elim
        | commit k => exact hk.elim
    · cases hn

/-- What the condition says of the statement that publishes a group holds at the log it
was added to. -/
theorem History.logged (hH : History Y ok C d₀) (h₀ : C.inv [])
    {P : Nat → Op → List (Group W) → List W → Prop}
    (hP : ∀ {s i op}, Y.Within ok d₀ s → Kept Y C d₀ s → ok s (.step i) → s.ops[i]? = some op →
      P i op s.log (s.issues i)) (h : Y.Within ok d₀ s) :
    ∀ {l g r}, s.log = l ++ g :: r → ∃ op, s.ops[g.call]? = some op ∧ P g.call op l g.writes := by
  induction h with
  | init =>
    intro l g r hlog
    simp [State.init] at hlog
  | @step s s' lb hw hok hn ih =>
    have hk := hH.good h₀ hw
    have later : ∀ {i op}, s.ops[i]? = some op → s'.ops[i]? = some op := fun hi =>
      (((State.Before.refl s).next hn).op (List.getElem?_eq_some_iff.1 hi).1).trans hi
    intro l g r hlog
    rcases hk.next_log hn with heq | ⟨i, op, rfl, hop, -, heq⟩
    · obtain ⟨op, hop, hp⟩ := ih (heq ▸ hlog)
      exact ⟨op, later hop, hp⟩
    · rw [heq] at hlog
      rcases snoc_split hlog with ⟨rfl, rfl, -⟩ | ⟨r', -, hlog⟩
      · exact ⟨op, later hop, hP hw hk hok hop⟩
      · obtain ⟨op, hop, hp⟩ := ih hlog
        exact ⟨op, later hop, hp⟩

end

end Txn
