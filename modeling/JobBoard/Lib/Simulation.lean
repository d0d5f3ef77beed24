import JobBoard.Lib.Alone
import JobBoard.Lib.Last
import JobBoard.Lib.Plain

/-!
# Simulation of an abstract machine

An abstract machine takes one step for each call: `spec i op a a' r` says that the call `i` of `op`
may take it from `a` to `a'` and answer `r`. `Simulates` says that each program of a system, alone
on the database, keeps a relation to the abstract state by such a step. Then a run of calls that do
not overlap is explained by a run of the abstract machine with the same calls and answers.
-/

set_option autoImplicit false

namespace Txn

variable {D W K ε α Op A : Type}

/-- The runs of the machine, with the calls in their order and what they answer. -/
inductive Explains (spec : Nat → Op → A → A → Except ε α → Prop) (a₀ : A) :
    List (Op × Except ε α) → A → Prop
  | nil : Explains spec a₀ [] a₀
  | snoc {cs : List (Op × Except ε α)} {a a' : A} {op : Op} {r : Except ε α} :
    Explains spec a₀ cs a → spec cs.length op a a' r → Explains spec a₀ (cs ++ [(op, r)]) a'

/-- The calls of the state have finished, with these answers. -/
def State.Answered (s : State D W ε α Op) (cs : List (Op × Except ε α)) : Prop :=
  cs.map (·.1) = s.ops ∧ ∀ i op r, cs[i]? = some (op, r) → s.call i = .done r

theorem State.Answered.after {t : State D W ε α Op} {cs : List (Op × Except ε α)}
    (h : t.Answered cs) (op : Op) (gs : Published W) (d : D) (r : Except ε α) :
    (t.after op gs d r).Answered (cs ++ [(op, r)]) := by
  obtain ⟨hops, hcalls⟩ := h
  have hlength : cs.length = t.ops.length := by rw [← hops, List.length_map]
  refine ⟨by simp [State.after, hops], fun i op' r' hi => ?_⟩
  rcases Nat.lt_or_ge i cs.length with hlt | hge
  · rw [List.getElem?_append_left hlt] at hi
    have hne : i ≠ t.ops.length := by omega
    simp only [State.after, if_neg hne]
    exact hcalls i op' r' hi
  · rw [List.getElem?_append_right hge] at hi
    obtain ⟨hzero, heq⟩ := List.getElem?_eq_some_iff.1 hi
    simp only [List.length_cons, List.length_nil] at hzero
    have hi : i = t.ops.length := by omega
    simp only [List.getElem_singleton, Prod.mk.injEq] at heq
    simp only [State.after, if_pos hi, heq.2]

/-- When the last call has ended, no call runs. -/
theorem State.OnlyLast.atRest {s : State D W ε α Op} (h : s.OnlyLast)
    (hlast : (s.call (s.ops.length - 1)).isRunning = false) : s.Idle := by
  refine fun i => Bool.eq_false_iff.2 fun hrun => ?_
  have hlength := h.running i hrun
  rw [show s.ops.length - 1 = i by omega, hrun] at hlast
  cases hlast

section

variable {Y : System D W K ε α Op} {R : Runs D W Op} {Rel : D → A → Prop}
  {spec : Nat → Op → A → A → Except ε α → Prop} {d₀ : D} {a₀ : A} {s : State D W ε α Op}

/-- The step of the machine that the rest of a call makes. -/
def Stepped (Rel : D → A → Prop) (spec : A → A → Except ε α → Prop) (a : A) (d : D)
    (r : Except ε α) : Prop :=
  ∃ a', spec a a' r ∧ Rel d a'

abbrev Prog.Steps (Y : System D W K ε α Op) (R : Runs D W Op) (op : Op) (Rel : D → A → Prop)
    (spec : A → A → Except ε α → Prop) (a : A) (p : Prog D W ε α) (gs : Published W) (d : D) :
    Prop :=
  p.alone Y.store (fun e => Y.isFault e = true) (fun d ws => R.adm op d ws = true)
    (fun _ _ => True) (fun _ d e => Stepped Rel spec a d (.error e))
    (fun tx _ d x => tx = none ∧ Stepped Rel spec a d (.ok x)) none gs d

def Simulates (Y : System D W K ε α Op) (R : Runs D W Op) (Rel : D → A → Prop)
    (spec : Nat → Op → A → A → Except ε α → Prop) : Prop :=
  ∀ {i op d a}, Rel d a → R.ops d op = true → (Y.prog i op).Steps Y R op Rel (spec i op) a [] d

/-- A piece whose writes keep `P` and whose errors satisfy `Er` makes a step wherever `P` lets
it. -/
theorem Prog.Plain.steps {ok : W → Prop} {Er : ε → Prop} {p : Prog D W ε α} {op : Op}
    {spec : A → A → Except ε α → Prop} {a : A} {P : D → Prop} {gs : Published W} {d : D}
    (hp : p.Plain (fun ws => ws = [] ∨ ∃ w, ws = [w] ∧ ok w)
      (fun ws => ws = [] ∨ ∃ w, ws = [w] ∧ ok w) Er)
    (hP : P d) (hown : ∀ d w, P d → ok w → P (Y.store.apply d w))
    (hok : ∀ d x, P d → Stepped Rel spec a d (.ok x))
    (herr : ∀ d e, P d → Er e ∨ Y.isFault e = true → Stepped Rel spec a d (.error e)) :
    p.Steps Y R op Rel spec a gs d := by
  have hwrites : ∀ {ws gs d} {k : Published W → D → Prop}, P d →
      (ws = [] ∨ ∃ w, ws = [w] ∧ ok w) → (∀ gs d, P d → k gs d) →
      Prog.reaches Y.store (fun _ _ => True) gs d ws k := by
    rintro ws gs d k hP (rfl | ⟨w, rfl, hw⟩) hk
    · exact hk _ _ hP
    · exact ⟨trivial, hk _ _ (hown d w hP hw)⟩
  induction p generalizing gs d with
  | ret x => exact ⟨rfl, hok d x hP⟩
  | throw e => exact herr d e hP (.inl hp)
  | stmt w k ih =>
    exact ⟨fun e he => herr d e hP (.inr he),
      fun _ => hwrites hP (hp d).1 fun gs d' hP' => ih d (hp d).2 hP'⟩
  | aside w k ih =>
    exact ⟨fun e he => herr d e hP (.inr he),
      hwrites hP (hp d).1 fun gs d' hP' => ih d (hp d).2 hP'⟩
  | openTx h k => exact hp.elim
  | commit k => exact hp.elim

/-- The states at rest of a run without overlaps are those of the machine. -/
theorem Simulates.explains [DecidableEq K] (h : Simulates Y R Rel spec) (hserial : R.serial = true)
    (h₀ : Rel d₀ a₀) (hs : Y.Reach R d₀ s) (hidle : s.Idle) :
    ∃ cs a, Explains spec a₀ cs a ∧ s.Answered cs ∧ Rel s.db a := by
  have hA : Alone Y R (fun s => ∃ cs a, Explains spec a₀ cs a ∧ s.Answered cs ∧ Rel s.db a)
      fun _ _ _ _ => True := by
    refine ⟨fun _ _ _ => trivial, ?_⟩
    rintro t op - ⟨cs, a, hcs, hanswered, hrel⟩ hop
    have hlength : t.ops.length = cs.length := by rw [← hanswered.1, List.length_map]
    have hnext : ∀ gs d r, Stepped Rel (spec t.ops.length op) a d r →
        ∃ cs a, Explains spec a₀ cs a ∧ (t.after op gs d r).Answered cs ∧
          Rel (t.after op gs d r).db a := by
      rintro gs d r ⟨a', hstep, hrel'⟩
      exact ⟨_, a', hcs.snoc (hlength ▸ hstep), hanswered.after op gs d r, hrel'⟩
    refine Prog.alone_mono (fun _ _ => id) (fun gs d e hE => hnext gs d (.error e) hE) ?_ .none
      (h hrel hop)
    rintro tx tx' gs d x htx ⟨rfl, hstep⟩
    cases htx
    exact ⟨rfl, hnext gs d (.ok x) hstep⟩
  exact hs.onward.idle hA hserial (fun _ => rfl)
    ⟨[], a₀, .nil, ⟨rfl, fun i op r hi => by cases hi⟩, h₀⟩ hidle

end

end Txn
