import JobBoard.Lib.History

/-!
# Runs without some of their calls

Some operations are inert for the others when they change the database only within a
relation `R` that the others see no difference in (`Prog.Blind`). Then every run is, for the
other operations, the run in which these take no step: `Removable.run`.
-/

set_option autoImplicit false

namespace Txn

variable {D W K ε α β Op : Type}

/-! ## Programs that see no difference -/

namespace Prog

/-- The program does the same on related databases and keeps them related; it opens no
transaction. -/
def Blind (S : Store D W K) (R : D → D → Prop) : Prog D W ε α → Prop
  | ret _ => True
  | throw _ => True
  | stmt w k => ∀ d d', R d d' → w d = w d' ∧ R (S.applyAll d (w d)) (S.applyAll d' (w d)) ∧
      k d = k d' ∧ (k d).Blind S R
  | aside w k => ∀ d d', R d d' → w d = w d' ∧ R (S.applyAll d (w d)) (S.applyAll d' (w d)) ∧
      k d = k d' ∧ (k d).Blind S R
  | openTx _ _ => False
  | commit _ => False

section

variable {S : Store D W K} {R : D → D → Prop}

theorem Blind.bind {p : Prog D W ε α} {f : α → Prog D W ε β} (hp : p.Blind S R)
    (hf : ∀ a, (f a).Blind S R) : (p >>= f).Blind S R := by
  induction p with
  | ret a => exact hf a
  | throw e => exact hp
  | stmt w k ih =>
    intro d d' h
    obtain ⟨hw, hR, hk, hb⟩ := hp d d' h
    exact ⟨hw, hR, congrArg (· >>= f) hk, ih d hb⟩
  | aside w k ih =>
    intro d d' h
    obtain ⟨hw, hR, hk, hb⟩ := hp d d' h
    exact ⟨hw, hR, congrArg (· >>= f) hk, ih d hb⟩
  | openTx h k => exact hp
  | commit k => exact hp

theorem blind_ret (a : α) : (ret a : Prog D W ε α).Blind S R := trivial

theorem blind_select {f : D → α} (h : ∀ d d', R d d' → f d = f d') :
    (select f : Prog D W ε α).Blind S R :=
  fun d d' hd => ⟨rfl, hd, congrArg ret (h d d' hd), trivial⟩

theorem blind_write {f : D → List W} (h : ∀ d d', R d d' → f d = f d')
    (hR : ∀ d d', R d d' → R (S.applyAll d (f d)) (S.applyAll d' (f d))) :
    (write f : Prog D W ε Unit).Blind S R :=
  fun d d' hd => ⟨h d d' hd, hR d d' hd, rfl, trivial⟩

theorem blind_query {f : D → Except ε (List W × α)} (h : ∀ d d', R d d' → f d = f d')
    (hR : ∀ d d' ws a, R d d' → f d = .ok (ws, a) → R (S.applyAll d ws) (S.applyAll d' ws)) :
    (query f : Prog D W ε α).Blind S R := by
  intro d d' hd
  refine ⟨by simp only [h d d' hd], ?_, by simp only [h d d' hd], ?_⟩
  · cases hf : f d with
    | ok r =>
      simp only [hf]
      exact hR d d' r.1 r.2 hd hf
    | error e =>
      simp only [hf]
      exact hd
  · cases hf : f d with
    | ok r =>
      simp only [hf]
      trivial
    | error e =>
      simp only [hf]
      trivial

end

/-- The program opens no transaction. -/
abbrev Untied (p : Prog D W ε α) : Prop := p.Plain (fun _ => True) (fun _ => True) fun _ => True

end Prog

def Call.Blind (S : Store D W K) (R : D → D → Prop) : Call D W ε α → Prop
  | .run none p => p.Blind S R
  | .run (some _) _ => False
  | _ => True

def Call.Untied : Call D W ε α → Prop
  | .run none p => p.Untied
  | .run (some _) _ => False
  | _ => True

theorem Call.Blind.held {S : Store D W K} {R : D → D → Prop} {c : Call D W ε α}
    (h : c.Blind S R) : c.held S = [] := by
  cases c with
  | run tx p =>
    cases tx with
    | none => rfl
    | some tx => exact h.elim
  | _ => rfl

theorem Call.Untied.held {S : Store D W K} {c : Call D W ε α} (h : c.Untied) : c.held S = [] := by
  cases c with
  | run tx p =>
    cases tx with
    | none => rfl
    | some tx => exact h.elim
  | _ => rfl

/-! ## Runs without calls -/

/-- The call is one of an operation that is left out. -/
def dropped (drop : Op → Bool) (ops : List Op) (i : Nat) : Bool := ops[i]?.any drop

/-- The labels without the steps of calls that are left out, from a state with the calls
`ops`. -/
def withoutCalls (drop : Op → Bool) (ops : List Op) : List (Label ε Op) → List (Label ε Op)
  | [] => []
  | .spawn op :: ls => .spawn op :: withoutCalls drop (ops ++ [op]) ls
  | .step i :: ls =>
    if dropped drop ops i then withoutCalls drop ops ls
    else .step i :: withoutCalls drop ops ls
  | .fault i e :: ls =>
    if dropped drop ops i then withoutCalls drop ops ls
    else .fault i e :: withoutCalls drop ops ls

/-- `s'` is `s` without what the calls that are left out have done. -/
structure Without (S : Store D W K) (drop : Op → Bool) (R : D → D → Prop)
    (s s' : State D W ε α Op) : Prop where
  ops : s'.ops = s.ops
  db : R s.db s'.db
  log : s'.log = s.log.filter fun g => !dropped drop s.ops g.call
  call : ∀ i, dropped drop s.ops i = false → s'.call i = s.call i
  blind : ∀ i, dropped drop s.ops i = false → (s.call i).Blind S R
  untied : ∀ i, dropped drop s.ops i = true → (s.call i).Untied ∧ (s'.call i).Untied

/-- The operations that are left out change the database within `R` only, and the others see
no difference. -/
structure Removable [DecidableEq K] (Y : System D W K ε α Op) (drop : Op → Bool)
    (R : D → D → Prop) (d₀ : D) : Prop where
  blind : ∀ i op, drop op = false → (Y.prog i op).Blind Y.store R
  untied : ∀ i op, drop op = true → (Y.prog i op).Untied
  inert : ∀ {s i}, Y.Reachable d₀ s → dropped drop s.ops i = true → ∀ d', R s.db d' →
    R (Y.store.applyAll s.db (s.issues i)) d'

section

variable [DecidableEq K] {Y : System D W K ε α Op} {drop : Op → Bool} {R : D → D → Prop} {d₀ : D}
  {s s' t : State D W ε α Op} {i : Nat}

omit [DecidableEq K] in
theorem State.autocommit_ops (S : Store D W K) (ws : List W) :
    (s.autocommit S i ws).ops = s.ops := by
  cases ws <;> rfl

omit [DecidableEq K] in
theorem System.admits_all (s : State D W ε α Op) (l : Label ε Op) : Y.admits .all s l = true := by
  cases l with
  | step i => simp only [System.admits]; split <;> rfl
  | _ => rfl

namespace Without

omit [DecidableEq K] in
theorem held {S : Store D W K} (h : Without S drop R s s') (i : Nat) :
    (s.call i).held S = [] ∧ (s'.call i).held S = [] := by
  cases hi : dropped drop s.ops i with
  | true => exact ⟨(h.untied i hi).1.held, (h.untied i hi).2.held⟩
  | false =>
    rw [h.call i hi]
    exact ⟨(h.blind i hi).held, (h.blind i hi).held⟩

theorem free {S : Store D W K} (h : Without S drop R s s') (i : Nat) (ws : List W) :
    s.free S i ws = true ∧ s'.free S i ws = true := by
  simp [State.free, (h.held _).1, (h.held _).2]

omit [DecidableEq K] in
/-- The kept call `i` gets to `c`, with nothing published. -/
theorem set {S : Store D W K} (h : Without S drop R s s') (hi : dropped drop s.ops i = false)
    {c : Call D W ε α} (hc : c.Blind S R) : Without S drop R (s.set i c) (s'.set i c) where
  ops := h.ops
  db := h.db
  log := h.log
  call j hj := by
    by_cases hji : j = i
    · rw [hji, State.set_self, State.set_self]
    · rw [State.set_other hji, State.set_other hji]
      exact h.call j hj
  blind j hj := by
    by_cases hji : j = i
    · rw [hji, State.set_self]
      exact hc
    · rw [State.set_other hji]
      exact h.blind j hj
  untied j hj := by
    have hji : j ≠ i := by
      rintro rfl
      rw [State.set_ops, hi] at hj
      cases hj
    rw [State.set_other hji, State.set_other hji]
    exact h.untied j hj

omit [DecidableEq K] in
/-- The call `i` that is left out gets to `c`. -/
theorem set_dropped {S : Store D W K} (h : Without S drop R s s')
    (hi : dropped drop s.ops i = true) {c : Call D W ε α} (hc : c.Untied) :
    Without S drop R (s.set i c) s' where
  ops := h.ops
  db := h.db
  log := h.log
  call j hj := by
    have hji : j ≠ i := by
      rintro rfl
      rw [State.set_ops, hi] at hj
      cases hj
    rw [State.set_other hji]
    exact h.call j hj
  blind j hj := by
    have hji : j ≠ i := by
      rintro rfl
      rw [State.set_ops, hi] at hj
      cases hj
    rw [State.set_other hji]
    exact h.blind j hj
  untied j hj := by
    by_cases hji : j = i
    · subst hji
      rw [State.set_self]
      exact ⟨hc, (h.untied j hj).2⟩
    · rw [State.set_other hji]
      exact h.untied j hj

omit [DecidableEq K] in
/-- A kept call publishes the same in both runs. -/
theorem autocommit {S : Store D W K} (h : Without S drop R s s')
    (hi : dropped drop s.ops i = false) {ws : List W}
    (hR : R (S.applyAll s.db ws) (S.applyAll s'.db ws)) :
    Without S drop R (s.autocommit S i ws) (s'.autocommit S i ws) := by
  cases ws with
  | nil => exact h
  | cons w ws =>
    refine ⟨h.ops, hR, ?_, h.call, h.blind, h.untied⟩
    rw [State.autocommit, State.autocommit, State.publish_log, State.publish_log,
      State.publish_ops, List.filter_append, h.log]
    simp [hi]

omit [DecidableEq K] in
/-- What a call that is left out publishes is missing in the other run. -/
theorem autocommit_dropped {S : Store D W K} (h : Without S drop R s s')
    (hi : dropped drop s.ops i = true) {ws : List W} (hR : R (S.applyAll s.db ws) s'.db) :
    Without S drop R (s.autocommit S i ws) s' := by
  cases ws with
  | nil => exact h
  | cons w ws =>
    refine ⟨h.ops, hR, ?_, h.call, h.blind, h.untied⟩
    rw [State.autocommit, State.publish_log, State.publish_ops, List.filter_append, h.log]
    simp [hi]

/-- A step of a call that is left out changes nothing in the other run. -/
theorem next_dropped (hY : Removable Y drop R d₀) (hs : Y.Reachable d₀ s)
    (h : Without Y.store drop R s s') {l : Label ε Op} (hi : dropped drop s.ops i = true)
    (hl : l = .step i ∨ ∃ e, l = .fault i e) (hn : Y.next s l = some t) :
    Without Y.store drop R t s' := by
  have hcall := (h.untied i hi).1
  rcases hl with rfl | ⟨e, rfl⟩
  · have hinert := hY.inert hs hi s'.db h.db
    simp only [System.next] at hn
    split at hn
    · next tx p hc =>
      rw [hc] at hcall
      simp only [State.issues, hc] at hinert
      cases tx with
      | some tx => exact hcall.elim
      | none =>
        cases p with
        | ret a =>
          cases hn
          exact h.set_dropped hi trivial
        | throw e =>
          cases hn
          exact h.set_dropped hi trivial
        | stmt w k =>
          rw [System.stepCall, if_pos (h.free i _).1] at hn
          cases hn
          exact (h.autocommit_dropped hi hinert).set_dropped
            (by rw [State.autocommit_ops]; exact hi) (hcall s.db).2
        | aside w k =>
          rw [System.stepCall, if_pos (h.free i _).1] at hn
          cases hn
          exact (h.autocommit_dropped hi hinert).set_dropped
            (by rw [State.autocommit_ops]; exact hi) (hcall s.db).2
        | openTx hd k => exact hcall.elim
        | commit k => exact hcall.elim
    · cases hn
  · simp only [System.next] at hn
    split at hn
    · next tx p hc =>
      rw [hc] at hcall
      split at hn
      · cases tx with
        | some tx => exact hcall.elim
        | none => cases p <;> cases hn <;> exact h.set_dropped hi trivial
      · cases hn
    · cases hn

/-- A step of a kept call is one of both runs. -/
theorem next_kept (h : Without Y.store drop R s s') {l : Label ε Op}
    (hi : dropped drop s.ops i = false) (hl : l = .step i ∨ ∃ e, l = .fault i e)
    (hn : Y.next s l = some t) : ∃ t', Y.next s' l = some t' ∧ Without Y.store drop R t t' := by
  have hcall := h.blind i hi
  have hsame := h.call i hi
  rcases hl with rfl | ⟨e, rfl⟩
  · simp only [System.next] at hn ⊢
    rw [hsame]
    split at hn
    · next tx p hc =>
      rw [hc] at hcall
      cases tx with
      | some tx => exact hcall.elim
      | none =>
        cases p with
        | ret a =>
          cases hn
          exact ⟨_, rfl, h.set hi trivial⟩
        | throw e =>
          cases hn
          exact ⟨_, rfl, h.set hi trivial⟩
        | stmt w k =>
          obtain ⟨hw, hR, hk, hb⟩ := hcall s.db s'.db h.db
          rw [System.stepCall, if_pos (h.free i _).1] at hn
          cases hn
          rw [System.stepCall, if_pos (h.free i _).2, ← hw, ← hk]
          exact ⟨_, rfl, (h.autocommit hi hR).set (by rw [State.autocommit_ops]; exact hi) hb⟩
        | aside w k =>
          obtain ⟨hw, hR, hk, hb⟩ := hcall s.db s'.db h.db
          rw [System.stepCall, if_pos (h.free i _).1] at hn
          cases hn
          rw [System.stepCall, if_pos (h.free i _).2, ← hw, ← hk]
          exact ⟨_, rfl, (h.autocommit hi hR).set (by rw [State.autocommit_ops]; exact hi) hb⟩
        | openTx hd k => exact hcall.elim
        | commit k => exact hcall.elim
    · cases hn
  · simp only [System.next] at hn ⊢
    rw [hsame]
    split at hn
    · next tx p hc =>
      rw [hc] at hcall
      split at hn
      · next he =>
        rw [if_pos he]
        cases tx with
        | some tx => exact hcall.elim
        | none => cases p <;> cases hn <;> exact ⟨_, rfl, h.set hi trivial⟩
      · cases hn
    · cases hn

end Without

omit [DecidableEq K] in
theorem dropped_append {ops : List Op} (op : Op) (hi : i < ops.length) :
    dropped drop (ops ++ [op]) i = dropped drop ops i := by
  rw [dropped, dropped, List.getElem?_append_left hi]

/-- Starting a call is a step of both runs. -/
theorem Without.spawn (hY : Removable Y drop R d₀) (hs : Y.Reachable d₀ s)
    (h : Without Y.store drop R s s') {op : Op} (hn : Y.next s (.spawn op) = some t) :
    ∃ t', Y.next s' (.spawn op) = some t' ∧ Without Y.store drop R t t' := by
  cases hn
  refine ⟨_, rfl, ?_⟩
  have hfresh := hs.fresh
  have hnew : dropped drop (s.ops ++ [op]) s.ops.length = drop op := by
    simp [dropped]
  -- the other calls are as before
  have hold : ∀ j, j ≠ s.ops.length →
      dropped drop (s.ops ++ [op]) j = dropped drop s.ops j := by
    intro j hj
    by_cases hlt : j < s.ops.length
    · exact dropped_append op hlt
    · have h₁ : (s.ops ++ [op])[j]? = none := List.getElem?_eq_none (by simp; omega)
      have h₂ : s.ops[j]? = none := List.getElem?_eq_none (by omega)
      rw [dropped, dropped, h₁, h₂]
  refine ⟨?_, h.db, ?_, ?_, ?_, ?_⟩
  · show s'.ops ++ [op] = s.ops ++ [op]
    rw [h.ops]
  · show s'.log = s.log.filter _
    rw [h.log]
    refine List.filter_congr fun g hg => ?_
    have hlt : g.call < s.ops.length := hfresh.log g hg
    rw [State.set_ops, dropped_append op hlt]
  · intro j hj
    rw [h.ops]
    by_cases hji : j = s.ops.length
    · rw [hji, State.set_self, State.set_self]
    · rw [State.set_other hji, State.set_other hji]
      exact h.call j (by rw [← hold j hji]; exact hj)
  · intro j hj
    by_cases hji : j = s.ops.length
    · subst hji
      rw [State.set_self]
      exact hY.blind _ op (by rw [← hnew]; exact hj)
    · rw [State.set_other hji]
      exact h.blind j (by rw [← hold j hji]; exact hj)
  · intro j hj
    rw [h.ops]
    by_cases hji : j = s.ops.length
    · subst hji
      rw [State.set_self, State.set_self]
      have hop : drop op = true := by
        rw [← hnew]
        exact hj
      exact ⟨hY.untied _ op hop, hY.untied _ op hop⟩
    · rw [State.set_other hji, State.set_other hji]
      exact h.untied j (by rw [← hold j hji]; exact hj)

/-- Every run is, but for the calls that are left out, the run without their steps. -/
theorem Removable.run (hY : Removable Y drop R d₀) {ls : List (Label ε Op)}
    (hs : Y.Reachable d₀ s) (h : Without Y.store drop R s s')
    (hr : Y.runLabels .all s ls = some t) :
    ∃ t', Y.runLabels .all s' (withoutCalls drop s.ops ls) = some t' ∧
      Without Y.store drop R t t' := by
  induction ls generalizing s s' with
  | nil =>
    cases hr
    exact ⟨s', rfl, h⟩
  | cons l ls ih =>
    simp only [System.runLabels, System.admits_all, if_true] at hr
    obtain ⟨s₁, hn, hr⟩ := Option.bind_eq_some_iff.1 hr
    have hs₁ : Y.Reachable d₀ s₁ := .step l hs (System.admits_all s l) hn
    -- the label is taken in both runs
    have both : ∀ {l' : Label ε Op}, withoutCalls drop s.ops (l :: ls) =
        l' :: withoutCalls drop s₁.ops ls →
        (∃ s₁', Y.next s' l' = some s₁' ∧ Without Y.store drop R s₁ s₁') →
        ∃ t', Y.runLabels .all s' (withoutCalls drop s.ops (l :: ls)) = some t' ∧
          Without Y.store drop R t t' := by
      intro l' hl hnext
      obtain ⟨s₁', hn', h'⟩ := hnext
      obtain ⟨t', hr', ht⟩ := ih hs₁ h' hr
      refine ⟨t', ?_, ht⟩
      rw [hl]
      simp only [System.runLabels, System.admits_all, if_true, hn', Option.bind_some]
      exact hr'
    -- or is left out
    have one : ∀ i, dropped drop s.ops i = true → (l = .step i ∨ ∃ e, l = .fault i e) →
        withoutCalls drop s.ops (l :: ls) = withoutCalls drop s₁.ops ls →
        ∃ t', Y.runLabels .all s' (withoutCalls drop s.ops (l :: ls)) = some t' ∧
          Without Y.store drop R t t' := by
      intro i hi hl heq
      rw [heq]
      exact ih hs₁ (h.next_dropped hY hs hi hl hn) hr
    cases l with
    | spawn op =>
      refine both ?_ (h.spawn hY hs hn)
      cases hn
      rfl
    | step i =>
      have hops : s₁.ops = s.ops := by
        rcases System.next_cases hn with ⟨_, hl, _⟩ | ⟨_, _, hframe⟩
        · cases hl
        · exact hframe.ops
      cases hi : dropped drop s.ops i with
      | true =>
        refine one i hi (.inl rfl) ?_
        simp only [withoutCalls, hi, if_true, hops]
      | false =>
        refine both ?_ (h.next_kept hi (.inl rfl) hn)
        simp only [withoutCalls, hi, Bool.false_eq_true, if_false, hops]
    | fault i e =>
      have hops : s₁.ops = s.ops := by
        rcases System.next_cases hn with ⟨_, hl, _⟩ | ⟨_, _, hframe⟩
        · cases hl
        · exact hframe.ops
      cases hi : dropped drop s.ops i with
      | true =>
        refine one i hi (.inr ⟨e, rfl⟩) ?_
        simp only [withoutCalls, hi, if_true, hops]
      | false =>
        refine both ?_ (h.next_kept hi (.inr ⟨e, rfl⟩) hn)
        simp only [withoutCalls, hi, Bool.false_eq_true, if_false, hops]

omit [DecidableEq K] in
/-- From related databases. -/
theorem Without.init {S : Store D W K} {d d' : D} (h : R d d') :
    Without S drop R (State.init d : State D W ε α Op) (State.init d') where
  ops := rfl
  db := h
  log := rfl
  call _ _ := rfl
  blind _ _ := trivial
  untied _ _ := ⟨trivial, trivial⟩

end

end Txn
