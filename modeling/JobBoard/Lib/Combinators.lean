import JobBoard.Lib.History
import JobBoard.Lib.Solo

/-!
# Programs inside programs

`p.caught h` is `try { p } catch (e) { h e }` for a program that opens no transaction, and
`p.zoom view lift` runs a program over a smaller database inside a larger one.
-/

set_option autoImplicit false

namespace Txn

namespace Prog

variable {D D' W W' K K' ε α β : Type}

/-- The errors that the program throws go to `h`. -/
def caught (h : ε → Prog D W ε α) : Prog D W ε α → Prog D W ε α
  | ret a => ret a
  | throw e => h e
  | stmt w k => stmt w fun d => (k d).caught h
  | aside w k => aside w fun d => (k d).caught h
  | openTx h' k => openTx h' k
  | commit k => commit k

/-- The program sees `view d` of each database `d`; its writes are lifted. -/
def zoom (view : D → D') (lift : W' → W) : Prog D' W' ε α → Prog D W ε α
  | ret a => ret a
  | throw e => throw e
  | stmt w k => stmt (fun d => (w (view d)).map lift) fun d => (k (view d)).zoom view lift
  | aside w k => aside (fun d => (w (view d)).map lift) fun d => (k (view d)).zoom view lift
  | openTx h k => openTx (fun e => (h e).zoom view lift) (k.zoom view lift)
  | commit k => commit (k.zoom view lift)

theorem zoom_bind {view : D → D'} {lift : W' → W} (p : Prog D' W' ε β) (f : β → Prog D' W' ε α) :
    (p >>= f).zoom view lift = p.zoom view lift >>= fun b => (f b).zoom view lift := by
  induction p with
  | ret a => rfl
  | throw e => rfl
  | stmt w k ih => simp only [stmt_bind, zoom, ih]
  | aside w k ih => simp only [aside_bind, zoom, ih]
  | openTx h k ihh ihk => simp only [openTx_bind, zoom, ihh, ihk]
  | commit k ih => simp only [commit_bind, zoom, ih]

theorem zoom_select {view : D → D'} {lift : W' → W} (f : D' → α) :
    (select f : Prog D' W' ε α).zoom view lift = select fun d => f (view d) := rfl

theorem zoom_write {view : D → D'} {lift : W' → W} (f : D' → W') :
    (write fun d => [f d] : Prog D' W' ε Unit).zoom view lift =
      write fun d => [lift (f (view d))] := rfl

theorem zoom_query {view : D → D'} {lift : W' → W} (f : D' → Except ε (List W' × α)) :
    (query f : Prog D' W' ε α).zoom view lift =
      query fun d => (f (view d)).map fun r => (r.1.map lift, r.2) := by
  unfold query zoom
  congr 1
  · funext d
    dsimp only
    cases f (view d) <;> rfl
  · funext d
    dsimp only
    cases f (view d) <;> rfl

theorem zoom_caught {view : D → D'} {lift : W' → W} (p : Prog D' W' ε α)
    (h : ε → Prog D' W' ε α) :
    (p.caught h).zoom view lift = (p.zoom view lift).caught fun e => (h e).zoom view lift := by
  induction p with
  | ret a => rfl
  | throw e => rfl
  | stmt w k ih => simp only [caught, zoom, ih]
  | aside w k ih => simp only [caught, zoom, ih]
  | openTx h' k => rfl
  | commit k => rfl

/-! ## Plain pieces -/

section

variable {St As : List W → Prop} {Er : ε → Prop}

theorem Plain.caught {Er' : ε → Prop} {p : Prog D W ε α} (hp : p.Plain St As Er)
    {h : ε → Prog D W ε α} (hh : ∀ e, Er e → (h e).Plain St As Er') :
    (p.caught h).Plain St As Er' := by
  induction p with
  | ret a => trivial
  | throw e => exact hh e hp
  | stmt w k ih => exact fun v => ⟨(hp v).1, ih v (hp v).2⟩
  | aside w k ih => exact fun v => ⟨(hp v).1, ih v (hp v).2⟩
  | openTx h k => exact hp.elim
  | commit k => exact hp.elim

theorem Plain.zoom {St' As' : List W' → Prop} {p : Prog D' W' ε α} (hp : p.Plain St' As' Er)
    {view : D → D'} {lift : W' → W} (hs : ∀ ws, St' ws → St (ws.map lift))
    (ha : ∀ ws, As' ws → As (ws.map lift)) : (p.zoom view lift).Plain St As Er := by
  induction p with
  | ret a => trivial
  | throw e => exact hp
  | stmt w k ih => exact fun v => ⟨hs _ (hp (view v)).1, ih _ (hp (view v)).2⟩
  | aside w k ih => exact fun v => ⟨ha _ (hp (view v)).1, ih _ (hp (view v)).2⟩
  | openTx h k => exact hp.elim
  | commit k => exact hp.elim

end

/-- Where the lifted writes change the view as the writes themselves do, a complete run of the
zoomed program is one of the program on the views. -/
theorem yields_zoom {S : Store D W K} {S' : Store D' W' K} {view : D → D'} {lift : W' → W}
    (happly : ∀ d w, view (S.apply d (lift w)) = S'.apply (view d) w)
    (hkeys : ∀ w, S.keys (lift w) = S'.keys w) {rely : List K → D' → D' → Prop}
    {p : Prog D' W' ε α} (ps : List W') {d : D} {s : List W × D} {b : α}
    (h : (p.zoom view lift).Yields S (fun h d d' => rely h (view d) (view d'))
      (ps.map lift, d) s b) :
    ∃ ps', s.1 = ps'.map lift ∧ p.Yields S' rely (ps, view d) (ps', view s.2) b := by
  have hview : ∀ (ws : List W') d, view (S.applyAll d (ws.map lift)) = S'.applyAll (view d) ws := by
    intro ws
    induction ws with
    | nil => exact fun _ => rfl
    | cons w ws ih =>
      intro d
      rw [List.map_cons, Store.applyAll_cons, ih, happly, Store.applyAll_cons]
  have hlocks : ∀ ws : List W', S.locks (ws.map lift) = S'.locks ws := by
    intro ws
    induction ws with
    | nil => rfl
    | cons w ws ih => rw [List.map_cons, Store.locks_cons, ih, hkeys, Store.locks_cons]
  induction p generalizing ps d with
  | ret a =>
    obtain ⟨rfl, rfl⟩ := h
    exact ⟨ps, rfl, rfl, rfl⟩
  | throw e => exact h.elim
  | stmt w k ih =>
    obtain ⟨d', hr, h⟩ := h
    rw [hlocks] at hr
    dsimp only at h
    rw [hview, ← List.map_append] at h
    obtain ⟨ps', hps', h⟩ := ih _ _ h
    exact ⟨ps', hps', view d', hr, h⟩
  | aside w k ih =>
    obtain ⟨d', hr, h⟩ := h
    rw [hlocks] at hr
    obtain ⟨ps', hps', h⟩ := ih _ _ h
    dsimp only at h
    rw [hview] at h
    exact ⟨ps', hps', view d', hr, h⟩
  | openTx h k => exact h.elim
  | commit k => exact h.elim

/-! ## Along a log -/

/-- What the piece throws is handled by `h`; a failure of the call itself is not. -/
theorem along_caught {S : Store D W K} {d₀ : D} {i : Nat}
    {rely : List (Group W) → List (Group W) → Prop} {I : List (Group W) → Prop}
    {G : List (Group W) → List W → Prop} {fails : List (Group W) → Prop} {fault : ε → Prop}
    {E E' : List (Group W) → ε → Prop} {L : List (Group W)} {Q : List (Group W) → α → Prop}
    {h : ε → Prog D W ε α}
    (hthrow : ∀ L e, E' L e → (h e).along S d₀ i rely I G fails fault E Q L)
    (hfault : ∀ L e, fails L → fault e → E' L e → E L e) {p : Prog D W ε α}
    (hp : p.along S d₀ i rely I G fails fault E' Q L) :
    (p.caught h).along S d₀ i rely I G fails fault E Q L := by
  induction p generalizing L with
  | ret a => exact hp
  | throw e => exact hthrow L e hp
  | stmt w k ih =>
    intro L' hr hI
    obtain ⟨hf, hk⟩ := hp L' hr hI
    exact ⟨fun h e he => hfault L' e h he (hf h e he), logs_mono hk fun L'' h => ih _ h⟩
  | aside w k ih =>
    intro L' hr hI
    obtain ⟨hf, hk⟩ := hp L' hr hI
    exact ⟨fun h e he => hfault L' e h he (hf h e he), logs_mono hk fun L'' h => ih _ h⟩
  | openTx h k => exact hp.elim
  | commit k => exact hp.elim

/-! ## Uninterrupted runs -/

/-- A program that only reads answers as it does on the database that it sees. -/
theorem Plain.solo_zoom {S : Store D W K} {S' : Store D' W' K'} {As : List W' → Prop}
    {Er : ε → Prop} {p : Prog D' W' ε α} (hp : p.Plain (· = []) As Er) (hAs : ∀ ws, As ws → ws = [])
    (view : D → D') (lift : W' → W) (d : D) :
    (p.zoom view lift).solo S d = ([], (p.solo S' (view d)).2) ∧ (p.solo S' (view d)).1 = [] := by
  induction p with
  | ret a => exact ⟨rfl, rfl⟩
  | throw e => exact ⟨rfl, rfl⟩
  | stmt w k ih =>
    obtain ⟨hw, hk⟩ := hp (view d)
    obtain ⟨h, h'⟩ := ih (view d) hk
    simp only [Prog.zoom, solo, hw, List.map_nil, Store.applyAll_nil, emit]
    exact ⟨h, h'⟩
  | aside w k ih =>
    obtain ⟨hw, hk⟩ := hp (view d)
    obtain ⟨h, h'⟩ := ih (view d) hk
    simp only [Prog.zoom, solo, hAs _ hw, List.map_nil, Store.applyAll_nil, emit]
    exact ⟨h, h'⟩
  | openTx h k => exact hp.elim
  | commit k => exact hp.elim

end Prog

end Txn
