import JobBoard.Lib.Combinators

/-!
# What an uninterrupted run leaves

`p.leaves S d E Q`: the run of `p` from `d` that nothing interrupts returns in `Q`, or throws
in `E`. There is one such run, so that the rules are equivalences: they compute statement by
statement what the program leaves.
-/

set_option autoImplicit false

namespace Txn

namespace Prog

variable {D D' W W' K K' ε α β : Type}

def leaves (S : Store D W K) (p : Prog D W ε α) (d : D) (E : D → ε → Prop) (Q : D → α → Prop) :
    Prop :=
  match (p.solo S d).2 with
  | .ok a => Q (S.applyGroups d (p.solo S d).1) a
  | .error e => E (S.applyGroups d (p.solo S d).1) e

section

variable {S : Store D W K} {d : D} {E E' : D → ε → Prop} {Q Q' : D → α → Prop}

/-- The run that returns has come to `Q`. -/
theorem leaves_ok {p : Prog D W ε α} (h : p.leaves S d E Q) {gss : List (List W)} {a : α}
    (hsolo : p.solo S d = (gss, .ok a)) : Q (S.applyGroups d gss) a := by
  unfold leaves at h
  rw [hsolo] at h
  exact h

theorem leaves_mono {p : Prog D W ε α} (h : p.leaves S d E Q) (hE : ∀ d e, E d e → E' d e)
    (hQ : ∀ d a, Q d a → Q' d a) : p.leaves S d E' Q' := by
  unfold leaves at h ⊢
  cases hr : (p.solo S d).2 with
  | ok a =>
    rw [hr] at h
    exact hQ _ _ h
  | error e =>
    rw [hr] at h
    exact hE _ _ h

theorem leaves_ret (a : α) : (ret a : Prog D W ε α).leaves S d E Q ↔ Q d a := Iff.rfl

theorem leaves_throw (e : ε) : (throw e : Prog D W ε α).leaves S d E Q ↔ E d e := Iff.rfl

theorem leaves_emit {ws : List W} {r : List (List W) × Except ε α} :
    (match (emit ws r).2 with
      | .ok a => Q (S.applyGroups d (emit ws r).1) a
      | .error e => E (S.applyGroups d (emit ws r).1) e) ↔
      match r.2 with
      | .ok a => Q (S.applyGroups (S.applyAll d ws) r.1) a
      | .error e => E (S.applyGroups (S.applyAll d ws) r.1) e := by
  cases ws <;> exact Iff.rfl

theorem leaves_stmt {w : D → List W} {k : D → Prog D W ε α} :
    (stmt w k).leaves S d E Q ↔ (k d).leaves S (S.applyAll d (w d)) E Q := leaves_emit

theorem leaves_aside {w : D → List W} {k : D → Prog D W ε α} :
    (aside w k).leaves S d E Q ↔ (k d).leaves S (S.applyAll d (w d)) E Q := leaves_emit

theorem leaves_select (f : D → α) : (select f : Prog D W ε α).leaves S d E Q ↔ Q d (f d) :=
  Iff.rfl

theorem leaves_write {Q : D → Unit → Prop} (w : D → W) :
    (write fun d => [w d] : Prog D W ε Unit).leaves S d E Q ↔ Q (S.apply d (w d)) () := Iff.rfl

theorem leaves_query (f : D → Except ε (List W × α)) :
    (query f : Prog D W ε α).leaves S d E Q ↔
      match f d with
      | .ok r => Q (S.applyAll d r.1) r.2
      | .error e => E d e := by
  unfold query
  rw [leaves_stmt]
  cases f d <;> exact Iff.rfl

theorem leaves_bind {p : Prog D W ε β} {f : β → Prog D W ε α} :
    (p >>= f).leaves S d E Q ↔ p.leaves S d E fun d' b => (f b).leaves S d' E Q := by
  unfold leaves
  rw [solo_bind]
  cases p.solo S d with
  | mk gss x =>
    cases x with
    | error e => exact Iff.rfl
    | ok b =>
      rw [andThen_ok]
      simp only [Store.applyGroups_append]

/-- What `p` throws goes to `h`. -/
theorem leaves_caught {St As : List W → Prop} {Er : ε → Prop} {h : ε → Prog D W ε α}
    {p : Prog D W ε α} (hp : p.Plain St As Er) :
    (p.caught h).leaves S d E Q ↔ p.leaves S d (fun d' e => (h e).leaves S d' E Q) Q := by
  induction p generalizing d with
  | ret a => exact Iff.rfl
  | throw e => exact Iff.rfl
  | stmt w k ih =>
    rw [caught, leaves_stmt, leaves_stmt]
    exact ih d (hp d).2
  | aside w k ih =>
    rw [caught, leaves_aside, leaves_aside]
    exact ih d (hp d).2
  | openTx h' k => exact hp.elim
  | commit k => exact hp.elim

theorem leaves_mapError {St As : List W → Prop} {Er : ε → Prop} {g : ε → ε} {p : Prog D W ε α}
    (hp : p.Plain St As Er) :
    (p.mapError g).leaves S d E Q ↔ p.leaves S d (fun d' e => E d' (g e)) Q := by
  induction p generalizing d with
  | ret a => exact Iff.rfl
  | throw e => exact Iff.rfl
  | stmt w k ih =>
    rw [mapError, leaves_stmt, leaves_stmt]
    exact ih d (hp d).2
  | aside w k ih =>
    rw [mapError, leaves_aside, leaves_aside]
    exact ih d (hp d).2
  | openTx h' k => exact hp.elim
  | commit k => exact hp.elim

/-- A read first. -/
theorem leaves_read {f : D → β} {k : β → Prog D W ε α} :
    (select f >>= k).leaves S d E Q ↔ (k (f d)).leaves S d E Q := leaves_bind

/-- A first part of which nothing is needed. -/
theorem leaves_then {p : Prog D W ε β} {f : β → Prog D W ε α}
    (h : ∀ d b, (f b).leaves S d (fun _ _ => True) Q) :
    (p >>= f).leaves S d (fun _ _ => True) Q := by
  rw [leaves_bind]
  unfold leaves
  split
  · exact h _ _
  · trivial

end

/-! ## Inside a larger database -/

/-- The smaller store is a part of the larger one: `put d x` is `d` with the part `x`. -/
structure Part (S : Store D W K) (S' : Store D' W' K') (view : D → D') (put : D → D' → D)
    (lift : W' → W) : Prop where
  apply : ∀ d w, S.apply d (lift w) = put d (S'.apply (view d) w)
  view_put : ∀ d x, view (put d x) = x
  put_put : ∀ d x y, put (put d x) y = put d y
  put_view : ∀ d, put d (view d) = d

section

variable {S : Store D W K} {S' : Store D' W' K'} {view : D → D'} {put : D → D' → D}
  {lift : W' → W}

theorem Part.applyAll (h : Part S S' view put lift) (d : D) (ws : List W') :
    S.applyAll d (ws.map lift) = put d (S'.applyAll (view d) ws) := by
  induction ws generalizing d with
  | nil => exact (h.put_view d).symm
  | cons w ws ih =>
    show S.applyAll (S.apply d (lift w)) (ws.map lift) = _
    rw [h.apply, ih, h.view_put, h.put_put]
    rfl

theorem Part.leaves_zoom (h : Part S S' view put lift) {p : Prog D' W' ε α} {d : D}
    {E : D → ε → Prop} {Q : D → α → Prop} :
    (p.zoom view lift).leaves S d E Q ↔
      p.leaves S' (view d) (fun x e => E (put d x) e) fun x a => Q (put d x) a := by
  induction p generalizing d with
  | ret a => rw [zoom, leaves_ret, leaves_ret, h.put_view]
  | throw e => rw [zoom, leaves_throw, leaves_throw, h.put_view]
  | stmt w k ih =>
    rw [zoom, leaves_stmt, leaves_stmt, ih, h.applyAll, h.view_put]
    simp only [h.put_put]
  | aside w k ih =>
    rw [zoom, leaves_aside, leaves_aside, ih, h.applyAll, h.view_put]
    simp only [h.put_put]
  | openTx h' k _ ih => exact ih
  | commit k ih => exact ih

end

end Prog

end Txn
