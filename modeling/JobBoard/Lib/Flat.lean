import Mathlib.Data.List.Induction
import JobBoard.Lib.Publish
import JobBoard.Lib.Sound

/-!
# Programs without transactions

Each statement of a program that opens no transaction commits by itself. For such
programs `p.flat` is a weakest precondition under interference that also keeps the
groups the call has published, so that a postcondition may speak of them.
`Flat.good` is the rule: what is proved of each program while the others move the
committed database by `rely` only holds in every interleaving.
-/

set_option autoImplicit false

namespace Txn

variable {D W K ε α β Op : Type}

namespace Prog

section

variable (S : Store D W K) (rely : D → D → Prop) (adm : D → List W → Prop) (I : D → Prop)
  (G : D → List W → Prop)

/-- `K` after the group `ws`, if any, which must be as guaranteed. -/
def grows (gs : List (Bool × List W)) (d : D) (ws : List W)
    (K : List (Bool × List W) → D → Prop) : Prop :=
  match ws with
  | [] => K gs d
  | w :: ws => G d (w :: ws) ∧ K (gs ++ [(false, w :: ws)]) (S.applyAll d (w :: ws))

def flat : Prog D W ε α → (List (Bool × List W) → D → α → Prop) → List (Bool × List W) → D → Prop
  | ret a, Q, gs, d => Q gs d a
  | throw _, _, _, _ => True
  | stmt w k, Q, gs, d => ∀ d', rely d d' → I d' → adm d' (w d') →
      grows S G gs d' (w d') fun gs' d'' => (k d').flat Q gs' d''
  | aside w k, Q, gs, d => ∀ d', rely d d' → I d' →
      grows S G gs d' (w d') fun gs' d'' => (k d').flat Q gs' d''
  | openTx _ _, _, _, _ => False
  | commit _, _, _, _ => False

end

section

variable {S : Store D W K} {rely : D → D → Prop} {adm : D → List W → Prop} {I : D → Prop}
  {G : D → List W → Prop} {gs : List (Bool × List W)} {d : D}

theorem grows_iff {ws : List W} {K K' : List (Bool × List W) → D → Prop}
    (h : ∀ gs' d', K gs' d' ↔ K' gs' d') : grows S G gs d ws K ↔ grows S G gs d ws K' := by
  cases ws <;> simp only [grows, h]

theorem flat_bind (p : Prog D W ε α) (f : α → Prog D W ε β)
    (Q : List (Bool × List W) → D → β → Prop) (gs : List (Bool × List W)) (d : D) :
    (p >>= f).flat S rely adm I G Q gs d ↔
      p.flat S rely adm I G (fun gs' d' a => (f a).flat S rely adm I G Q gs' d') gs d := by
  induction p generalizing gs d with
  | ret a => rfl
  | throw e => rfl
  | stmt w k ih =>
    refine forall_congr' fun d' => forall_congr' fun _ => forall_congr' fun _ =>
      forall_congr' fun _ => grows_iff fun gs' d'' => ?_
    exact ih d' gs' d''
  | aside w k ih =>
    refine forall_congr' fun d' => forall_congr' fun _ => forall_congr' fun _ =>
      grows_iff fun gs' d'' => ?_
    exact ih d' gs' d''
  | openTx h k => rfl
  | commit k => rfl

theorem grows_mono {ws : List W} {K K' : List (Bool × List W) → D → Prop}
    (h : grows S G gs d ws K) (hK : ∀ gs' d', K gs' d' → K' gs' d') : grows S G gs d ws K' := by
  cases ws with
  | nil => exact hK _ _ h
  | cons w ws => exact ⟨h.1, hK _ _ h.2⟩

theorem flat_mono {Q Q' : List (Bool × List W) → D → α → Prop} {p : Prog D W ε α}
    (hQ : ∀ gs' d' a, Q gs' d' a → Q' gs' d' a) (h : p.flat S rely adm I G Q gs d) :
    p.flat S rely adm I G Q' gs d := by
  induction p generalizing gs d with
  | ret a => exact hQ _ _ _ h
  | throw e => trivial
  | stmt w k ih =>
    exact fun d' hr hI hadm => grows_mono (h d' hr hI hadm) fun gs' d'' h => ih d' h
  | aside w k ih => exact fun d' hr hI => grows_mono (h d' hr hI) fun gs' d'' h => ih d' h
  | openTx hd k => exact h.elim
  | commit k => exact h.elim

theorem flat_select {f : D → α} {Q : List (Bool × List W) → D → α → Prop}
    (h : ∀ d', rely d d' → I d' → Q gs d' (f d')) :
    (select f : Prog D W ε α).flat S rely adm I G Q gs d :=
  fun d' hr hI _ => h d' hr hI

theorem flat_outside {Q : List (Bool × List W) → D → Unit → Prop}
    (h : ∀ d', rely d d' → I d' → Q gs d' ()) :
    (outside fun _ => [] : Prog D W ε Unit).flat S rely adm I G Q gs d :=
  fun d' hr hI => h d' hr hI

theorem flat_write {w : W} {Q : List (Bool × List W) → D → Unit → Prop}
    (h : ∀ d', rely d d' → I d' → adm d' [w] →
      G d' [w] ∧ Q (gs ++ [(false, [w])]) (S.apply d' w) ()) :
    (write fun _ => [w] : Prog D W ε Unit).flat S rely adm I G Q gs d :=
  fun d' hr hI hadm => h d' hr hI hadm

theorem flat_query {f : D → Except ε (List W × α)} {Q : List (Bool × List W) → D → α → Prop}
    (h : ∀ d' ws a, rely d d' → I d' → f d' = .ok (ws, a) → adm d' ws →
      grows S G gs d' ws fun gs' d'' => Q gs' d'' a) :
    (query f : Prog D W ε α).flat S rely adm I G Q gs d := by
  intro d' hr hI
  cases hf : f d' with
  | ok r =>
    simp only [hf, flat]
    exact h d' r.1 r.2 hr hI hf
  | error e =>
    simp only [hf, flat, grows]
    exact fun _ => trivial

/-- A plain piece whose groups all satisfy `St`, and what it carries along. -/
theorem Plain.flat {St : List W → Prop} {Er : ε → Prop} {p : Prog D W ε α}
    (hp : p.Plain St St Er) {P : List (Bool × List W) → D → Prop}
    (hrely : ∀ gs d d', P gs d → rely d d' → P gs d')
    (hwrite : ∀ gs d ws, P gs d → I d → St ws → grows S G gs d ws P)
    {Q : List (Bool × List W) → D → α → Prop} (hQ : ∀ gs d a, P gs d → Q gs d a)
    (h : P gs d) : p.flat S rely adm I G Q gs d := by
  induction p generalizing gs d with
  | ret a => exact hQ gs d a h
  | throw e => trivial
  | stmt w k ih =>
    intro d' hr hI _
    exact grows_mono (hwrite gs d' _ (hrely gs d d' h hr) hI (hp d').1) fun gs' d'' h' =>
      ih d' (hp d').2 h'
  | aside w k ih =>
    intro d' hr hI
    exact grows_mono (hwrite gs d' _ (hrely gs d d' h hr) hI (hp d').1) fun gs' d'' h' =>
      ih d' (hp d').2 h'
  | openTx hd k => exact hp.elim
  | commit k => exact hp.elim

/-- Steps of the others keep the precondition. -/
theorem flat_stable (trans : ∀ a b c, rely a b → rely b c → rely a c)
    {Q : List (Bool × List W) → D → α → Prop}
    (hQ : ∀ gs d d' a, Q gs d a → rely d d' → Q gs d' a) {p : Prog D W ε α} {d' : D}
    (h : p.flat S rely adm I G Q gs d) (hr : rely d d') : p.flat S rely adm I G Q gs d' := by
  cases p with
  | ret a => exact hQ gs d d' a h hr
  | throw e => trivial
  | stmt w k => exact fun d'' hr' => h d'' (trans d d' d'' hr hr')
  | aside w k => exact fun d'' hr' => h d'' (trans d d' d'' hr hr')
  | openTx hd k => exact h
  | commit k => exact h

end

end Prog

/-! ## The rule -/

open Prog

/-- What is proved of each program, and that its groups are steps the others rely on. -/
structure Flat (Y : System D W K ε α Op) (R : Runs D W Op) (rely : D → D → Prop) (I : D → Prop)
    (G : Op → D → List W → Prop) (F : Op → List (Bool × List W) → D → α → Prop) : Prop where
  refl : ∀ d, rely d d
  trans : ∀ a b c, rely a b → rely b c → rely a c
  step : ∀ {op d ws}, I d → G op d ws →
    I (Y.store.applyAll d ws) ∧ rely d (Y.store.applyAll d ws)
  post : ∀ op gs d d' a, F op gs d a → rely d d' → F op gs d' a
  prog : ∀ {i op d}, I d → R.ops d op = true →
    (Y.prog i op).flat Y.store rely (fun d ws => R.adm op d ws = true) I (G op) (F op) [] d

/-- What is known of a call that has published `gs`. -/
def Call.FlatOK (Y : System D W K ε α Op) (R : Runs D W Op) (rely : D → D → Prop) (I : D → Prop)
    (G : Op → D → List W → Prop) (F : Op → List (Bool × List W) → D → α → Prop) (op : Op)
    (gs : List (Bool × List W)) (d : D) : Call D W ε α → Prop
  | .run none p => p.flat Y.store rely (fun d ws => R.adm op d ws = true) I (G op) (F op) gs d
  | .done (.ok a) => F op gs d a
  | .done (.error _) => True
  | _ => False

/-- The state of a system of flat programs, from the database `d₀`. -/
structure FlatGood (Y : System D W K ε α Op) (R : Runs D W Op) (rely : D → D → Prop)
    (I : D → Prop) (G : Op → D → List W → Prop) (F : Op → List (Bool × List W) → D → α → Prop)
    (d₀ : D) (s : State D W ε α Op) : Prop where
  inv : I s.db
  replay : s.db = replay Y.store d₀ s.log
  log : ∀ {l g r}, s.log = l ++ g :: r → ∃ op, s.ops[g.call]? = some op ∧
    I (Txn.replay Y.store d₀ l) ∧ G op (Txn.replay Y.store d₀ l) g.writes
  call : ∀ {i op}, s.ops[i]? = some op →
    (s.call i).FlatOK Y R rely I G F op (publishedBy i s.log) s.db
  fresh : s.Fresh

section

variable [DecidableEq K] {Y : System D W K ε α Op} {R : Runs D W Op} {rely : D → D → Prop}
  {I : D → Prop} {G : Op → D → List W → Prop} {F : Op → List (Bool × List W) → D → α → Prop}
  {d₀ : D} {s s' : State D W ε α Op}

omit [DecidableEq K] in
theorem Call.FlatOK.stable (hF : Flat Y R rely I G F) {op : Op} {gs : List (Bool × List W)} {d d' : D}
    {c : Call D W ε α} (h : c.FlatOK Y R rely I G F op gs d) (hr : rely d d') :
    c.FlatOK Y R rely I G F op gs d' := by
  match c with
  | .run none p => exact flat_stable hF.trans (hF.post op) h hr
  | .run (some tx) p => exact h
  | .done (.ok a) => exact hF.post op gs d d' a h hr
  | .done (.error e) => trivial
  | .idle => exact h

omit [DecidableEq K] in
/-- The call `i` is in a new state, and has published nothing. -/
theorem FlatGood.set (h : FlatGood Y R rely I G F d₀ s) {i : Nat}
    (hi : (s.call i).isRunning = true) {c : Call D W ε α}
    (hc : ∀ op, s.ops[i]? = some op → c.FlatOK Y R rely I G F op (publishedBy i s.log) s.db) :
    FlatGood Y R rely I G F d₀ (s.set i c) where
  inv := h.inv
  replay := h.replay
  log := h.log
  call := by
    intro j op hj
    by_cases e : j = i
    · subst e
      rw [State.set_self]
      exact hc op hj
    · rw [State.set_other e]
      exact h.call hj
  fresh := h.fresh.frame hi ((State.Frame.refl s i).set c)

omit [DecidableEq K] in
/-- A statement of call `i` has published the group `ws`, if any. -/
theorem FlatGood.autocommit (hF : Flat Y R rely I G F) (h : FlatGood Y R rely I G F d₀ s)
    {i : Nat} {op : Op} (hi : s.ops[i]? = some op) (hrun : (s.call i).isRunning = true)
    {ws : List W} {p : Prog D W ε α}
    (hp : grows Y.store (G op) (publishedBy i s.log) s.db ws fun gs' d' =>
      p.flat Y.store rely (fun d ws => R.adm op d ws = true) I (G op) (F op) gs' d') :
    FlatGood Y R rely I G F d₀ ((s.autocommit Y.store i ws).set i (.run none p)) := by
  cases ws with
  | nil =>
    refine h.set hrun fun op' hop' => ?_
    rw [hi] at hop'
    cases hop'
    exact hp
  | cons w ws =>
    obtain ⟨hG, hp⟩ := hp
    obtain ⟨hinv, hrely⟩ := hF.step h.inv hG
    refine ⟨hinv, ?_, ?_, ?_, h.fresh.frame hrun ((State.Frame.publish Y.store false _).set _)⟩
    · rw [State.set_log, State.autocommit, State.publish_log, replay_snoc, ← h.replay]
      rfl
    · intro l g r hlog
      rw [State.set_log, State.autocommit, State.publish_log] at hlog
      rcases List.eq_nil_or_concat r with rfl | ⟨r', g', rfl⟩
      · obtain ⟨rfl, hg⟩ := List.append_inj' hlog rfl
        cases hg
        rw [← h.replay]
        exact ⟨op, hi, h.inv, hG⟩
      · rw [List.concat_eq_append, ← List.cons_append, ← List.append_assoc] at hlog
        exact h.log (List.append_inj' hlog rfl).1
    · intro j op' hj
      rw [State.set_log, State.autocommit, State.publish_log, publishedBy_append]
      by_cases e : j = i
      · subst e
        rw [State.set_self, publishedBy_self]
        rw [State.set_ops, State.autocommit, State.publish_ops, hi] at hj
        cases hj
        exact hp
      · have hnone : publishedBy j [(⟨i, false, w :: ws⟩ : Group W)] = [] :=
          publishedBy_other fun g hg => by
            rw [List.mem_singleton] at hg
            rw [hg]
            exact Ne.symm e
        rw [State.set_other e, hnone, List.append_nil]
        exact (h.call hj).stable hF hrely

theorem FlatGood.stepCall (hF : Flat Y R rely I G F) (h : FlatGood Y R rely I G F d₀ s)
    {i : Nat} {op : Op} (hi : s.ops[i]? = some op) {tx : Option (OpenTx D W ε α)}
    {p : Prog D W ε α} (hcall : s.call i = .run tx p) (hadm : Y.admits R s (.step i) = true)
    (hn : Y.stepCall s i tx p = some s') : FlatGood Y R rely I G F d₀ s' := by
  have hok := h.call hi
  have hrun : (s.call i).isRunning = true := by
    rw [hcall]
    rfl
  rw [hcall] at hok
  cases tx with
  | some tx => exact hok.elim
  | none =>
    cases p with
    | ret a =>
      cases hn
      refine h.set hrun fun op' hop' => ?_
      rw [hi] at hop'
      cases hop'
      exact hok
    | throw e =>
      cases hn
      exact h.set hrun fun _ _ => trivial
    | stmt w k =>
      simp only [System.admits, hi, hcall] at hadm
      simp only [System.stepCall] at hn
      split at hn
      · cases hn
        exact h.autocommit hF hi hrun (hok s.db (hF.refl _) h.inv hadm)
      · cases hn
    | aside w k =>
      simp only [System.stepCall] at hn
      split at hn
      · cases hn
        exact h.autocommit hF hi hrun (hok s.db (hF.refl _) h.inv)
      · cases hn
    | openTx hd k => exact hok.elim
    | commit k => exact hok.elim

omit [DecidableEq K] in
theorem FlatGood.faultCall (h : FlatGood Y R rely I G F d₀ s)
    {i : Nat} {op : Op} {e : ε} (hi : s.ops[i]? = some op) {tx : Option (OpenTx D W ε α)}
    {p : Prog D W ε α} (hcall : s.call i = .run tx p) (hn : Y.faultCall s i e tx p = some s') :
    FlatGood Y R rely I G F d₀ s' := by
  have hok := h.call hi
  have hrun : (s.call i).isRunning = true := by
    rw [hcall]
    rfl
  rw [hcall] at hok
  cases tx with
  | some tx => exact hok.elim
  | none => cases p <;> cases hn <;> exact h.set hrun fun _ _ => trivial

/-- In every interleaving of flat programs the invariant holds, each group of the
log was as guaranteed when it was committed, and each finished call is as
specified. -/
theorem Flat.good (hF : Flat Y R rely I G F) (h₀ : I d₀) (h : Y.Reach R d₀ s) :
    FlatGood Y R rely I G F d₀ s := by
  induction h with
  | init =>
    refine ⟨h₀, rfl, ?_, ?_, ⟨fun _ _ => rfl, by simp [State.init]⟩⟩
    · intro l g r hlog
      simp [State.init] at hlog
    · intro i op hi
      simp [State.init] at hi
  | @step s s' l _ hadm hn ih =>
    cases l with
    | spawn op =>
      cases hn
      simp only [System.admits, Bool.and_eq_true] at hadm
      have hnone : publishedBy s.ops.length s.log = [] :=
        publishedBy_other fun g hg => by
          have := ih.fresh.log g hg
          omega
      refine ⟨ih.inv, ih.replay, ?_, ?_, ih.fresh.spawn op _⟩
      · intro l g r hlog
        obtain ⟨op', hop', hg⟩ := ih.log hlog
        exact ⟨op', List.getElem?_append_left (List.getElem?_eq_some_iff.1 hop').1 ▸ hop', hg⟩
      · intro j op' hj
        by_cases e : j = s.ops.length
        · subst e
          simp only [State.set_ops, List.getElem?_concat_length, Option.some.injEq] at hj
          subst hj
          rw [State.set_self, State.set_log]
          simp only [hnone]
          exact hF.prog ih.inv hadm.1
        · have hlt := (List.getElem?_eq_some_iff.1 hj).1
          simp only [State.set_ops, List.length_append, List.length_singleton] at hlt
          rw [State.set_ops, List.getElem?_append_left (by omega)] at hj
          rw [State.set_other e]
          exact ih.call hj
    | step i =>
      simp only [System.next] at hn
      split at hn
      · next tx p hcall =>
        obtain ⟨op, hi⟩ := ih.fresh.op_of_running (by rw [hcall]; rfl)
        exact ih.stepCall hF hi hcall hadm hn
      · cases hn
    | fault i e =>
      simp only [System.next] at hn
      split at hn
      · next tx p hcall =>
        split at hn
        · obtain ⟨op, hi⟩ := ih.fresh.op_of_running (by rw [hcall]; rfl)
          exact ih.faultCall hi hcall hn
        · cases hn
      · cases hn

omit [DecidableEq K] in
/-- The database after any part of the log is a later one. -/
theorem FlatGood.later (hF : Flat Y R rely I G F) (h : FlatGood Y R rely I G F d₀ s) :
    rely d₀ s.db := by
  have prefixes : ∀ l r, s.log = l ++ r → rely d₀ (Txn.replay Y.store d₀ l) := by
    intro l
    induction l using List.reverseRecOn with
    | nil => exact fun r _ => hF.refl d₀
    | append_singleton l g ih =>
      intro r hlog
      rw [List.append_assoc] at hlog
      obtain ⟨op, -, hI, hG⟩ := h.log hlog
      rw [replay_snoc]
      exact hF.trans _ _ _ (ih _ hlog) (hF.step hI hG).2
  rw [h.replay]
  exact prefixes s.log [] (List.append_nil _).symm

end

end Txn
