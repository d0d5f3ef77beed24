import JobBoard.Lib.Wp

/-!
# The body of a transaction

A `Plain` program opens no transaction of its own: it is what a transaction runs
between `openTx` and `commit`. `Yields rely p s s' a` are its complete runs under
the interference `rely`: from the pending writes and committed database `s` it
gets to `s'` with the result `a`. `Plain.wp` reduces a weakest precondition to
them, so that a body is verified by looking at the runs it has.
-/

set_option autoImplicit false

namespace Txn

variable {D W K ε α β : Type}

namespace Prog

/-! ## Plain programs -/

/-- No transaction is opened or committed, the writes of each statement satisfy
`St`, those of each call outside `As`, and each error thrown `Er`. -/
def Plain (St As : List W → Prop) (Er : ε → Prop) : Prog D W ε α → Prop
  | ret _ => True
  | throw e => Er e
  | stmt w k => ∀ v, St (w v) ∧ (k v).Plain St As Er
  | aside w k => ∀ v, As (w v) ∧ (k v).Plain St As Er
  | openTx _ _ => False
  | commit _ => False

section

variable {St As : List W → Prop} {Er : ε → Prop}

theorem Plain.bind {p : Prog D W ε α} {f : α → Prog D W ε β} (hp : p.Plain St As Er)
    (hf : ∀ a, (f a).Plain St As Er) : (p >>= f).Plain St As Er := by
  induction p with
  | ret a => exact hf a
  | throw e => exact hp
  | stmt w k ih => exact fun v => ⟨(hp v).1, ih v (hp v).2⟩
  | aside w k ih => exact fun v => ⟨(hp v).1, ih v (hp v).2⟩
  | openTx h k => exact hp
  | commit k => exact hp

theorem Plain.mono {St' As' : List W → Prop} {Er' : ε → Prop} {p : Prog D W ε α}
    (hp : p.Plain St As Er) (hs : ∀ ws, St ws → St' ws) (ha : ∀ ws, As ws → As' ws)
    (he : ∀ e, Er e → Er' e) : p.Plain St' As' Er' := by
  induction p with
  | ret a => trivial
  | throw e => exact he e hp
  | stmt w k ih => exact fun v => ⟨hs _ (hp v).1, ih v (hp v).2⟩
  | aside w k ih => exact fun v => ⟨ha _ (hp v).1, ih v (hp v).2⟩
  | openTx h k => exact hp
  | commit k => exact hp

theorem Plain.mapError {p : Prog D W ε α} (hp : p.Plain St As Er) {g : ε → ε}
    (hg : ∀ e, Er e → Er (g e)) : (p.mapError g).Plain St As Er := by
  induction p with
  | ret a => trivial
  | throw e => exact hg e hp
  | stmt w k ih => exact fun v => ⟨(hp v).1, ih v (hp v).2⟩
  | aside w k ih => exact fun v => ⟨(hp v).1, ih v (hp v).2⟩
  | openTx h k => exact hp
  | commit k => exact hp

theorem plain_ret (a : α) : (ret a : Prog D W ε α).Plain St As Er := trivial

theorem plain_throw {e : ε} (h : Er e) : (throw e : Prog D W ε α).Plain St As Er := h

theorem plain_select (h : St []) (f : D → α) : (select f : Prog D W ε α).Plain St As Er :=
  fun _ => ⟨h, trivial⟩

theorem plain_ofExcept {x : Except ε α} (h : ∀ e, x = .error e → Er e) :
    (ofExcept x : Prog D W ε α).Plain St As Er := by
  cases x with
  | ok a => trivial
  | error e => exact h e rfl

theorem plain_query {f : D → Except ε (List W × α)} (h : St [])
    (hok : ∀ v r, f v = .ok r → St r.1) (herr : ∀ v e, f v = .error e → Er e) :
    (query f : Prog D W ε α).Plain St As Er := by
  intro v
  cases hf : f v with
  | ok r =>
    simp only [hf]
    exact ⟨hok v r hf, trivial⟩
  | error e =>
    simp only [hf]
    exact ⟨h, herr v e hf⟩

/-- What follows a statement that returns `r` goes on with `r`. -/
theorem plain_query_bind {f : D → Except ε (List W × α)} {k : α → Prog D W ε β} (h : St [])
    (hok : ∀ v r, f v = .ok r → St r.1 ∧ (k r.2).Plain St As Er)
    (herr : ∀ v e, f v = .error e → Er e) : (query f >>= k : Prog D W ε β).Plain St As Er := by
  intro v
  cases hf : f v with
  | ok r =>
    simp only [hf]
    exact hok v r hf
  | error e =>
    simp only [hf]
    exact ⟨h, herr v e hf⟩

theorem plain_write {f : D → List W} (h : ∀ v, St (f v)) :
    (write f : Prog D W ε Unit).Plain St As Er :=
  fun v => ⟨h v, trivial⟩

theorem plain_outside {f : D → List W} (h : ∀ v, As (f v)) :
    (outside f : Prog D W ε Unit).Plain St As Er :=
  fun v => ⟨h v, trivial⟩

end

/-! ## Handlers -/

/-- The handlers of the transactions of the program satisfy `R`. -/
def Handlers (R : (ε → Prog D W ε α) → Prop) : Prog D W ε α → Prop
  | ret _ => True
  | throw _ => True
  | stmt _ k => ∀ v, (k v).Handlers R
  | aside _ k => ∀ v, (k v).Handlers R
  | openTx h k => R h ∧ (∀ e, (h e).Handlers R) ∧ k.Handlers R
  | commit k => k.Handlers R

theorem Plain.handlers {St As : List W → Prop} {Er : ε → Prop} {R : (ε → Prog D W ε β) → Prop}
    {p : Prog D W ε α} (hp : p.Plain St As Er) {f : α → Prog D W ε β}
    (hf : ∀ a, (f a).Handlers R) : (p >>= f).Handlers R := by
  induction p with
  | ret a => exact hf a
  | throw e => trivial
  | stmt w k ih => exact fun v => ih v (hp v).2
  | aside w k ih => exact fun v => ih v (hp v).2
  | openTx h k => exact hp.elim
  | commit k => exact hp.elim

/-! ## Complete runs -/

section

variable (S : Store D W K) (rely : List K → D → D → Prop)

def Yields : Prog D W ε α → List W × D → List W × D → α → Prop
  | ret a, s, s', b => s' = s ∧ b = a
  | throw _, _, _, _ => False
  | stmt w k, s, s', b => ∃ d, rely (S.locks s.1) s.2 d ∧
      (k (S.applyAll d s.1)).Yields (s.1 ++ w (S.applyAll d s.1), d) s' b
  | aside w k, s, s', b => ∃ d, rely (S.locks s.1) s.2 d ∧
      (k d).Yields (s.1, S.applyAll d (w d)) s' b
  | openTx _ _, _, _, _ => False
  | commit _, _, _, _ => False

end

section

variable {S : Store D W K} {rely : List K → D → D → Prop} {s s' : List W × D}

theorem yields_bind {p : Prog D W ε α} {f : α → Prog D W ε β} {b : β} :
    (p >>= f).Yields S rely s s' b ↔
      ∃ t a, p.Yields S rely s t a ∧ (f a).Yields S rely t s' b := by
  induction p generalizing s with
  | ret a =>
    constructor
    · exact fun h => ⟨s, a, ⟨rfl, rfl⟩, h⟩
    · rintro ⟨t, a', ⟨rfl, rfl⟩, h⟩
      exact h
  | throw e => simp [Yields]
  | stmt w k ih =>
    simp only [stmt_bind, Yields, ih]
    constructor
    · rintro ⟨d, hr, t, a, h, h'⟩
      exact ⟨t, a, ⟨d, hr, h⟩, h'⟩
    · rintro ⟨t, a, ⟨d, hr, h⟩, h'⟩
      exact ⟨d, hr, t, a, h, h'⟩
  | aside w k ih =>
    simp only [aside_bind, Yields, ih]
    constructor
    · rintro ⟨d, hr, t, a, h, h'⟩
      exact ⟨t, a, ⟨d, hr, h⟩, h'⟩
    · rintro ⟨t, a, ⟨d, hr, h⟩, h'⟩
      exact ⟨d, hr, t, a, h, h'⟩
  | openTx h k => simp [Yields]
  | commit k => simp [Yields]

theorem yields_mono {rely' : List K → D → D → Prop} (hr : ∀ h d d', rely h d d' → rely' h d d')
    {p : Prog D W ε α} {a : α} (h : p.Yields S rely s s' a) : p.Yields S rely' s s' a := by
  induction p generalizing s with
  | ret b => exact h
  | throw e => exact h
  | stmt w k ih =>
    obtain ⟨d, hd, h⟩ := h
    exact ⟨d, hr _ _ _ hd, ih _ h⟩
  | aside w k ih =>
    obtain ⟨d, hd, h⟩ := h
    exact ⟨d, hr _ _ _ hd, ih _ h⟩
  | openTx h k => exact h
  | commit k => exact h

@[simp] theorem yields_ret {a b : α} :
    (ret a : Prog D W ε α).Yields S rely s s' b ↔ s' = s ∧ b = a := Iff.rfl

@[simp] theorem yields_throw {e : ε} {b : α} :
    (throw e : Prog D W ε α).Yields S rely s s' b ↔ False := Iff.rfl

@[simp] theorem yields_select {f : D → α} {b : α} :
    (select f : Prog D W ε α).Yields S rely s s' b ↔
      ∃ d, rely (S.locks s.1) s.2 d ∧ s' = (s.1, d) ∧ b = f (S.applyAll d s.1) := by
  simp [select, Yields]

@[simp] theorem yields_ofExcept {x : Except ε α} {b : α} :
    (ofExcept x : Prog D W ε α).Yields S rely s s' b ↔ s' = s ∧ x = .ok b := by
  cases x with
  | ok a => simp [ofExcept, eq_comm]
  | error e => simp [ofExcept]

@[simp] theorem yields_query {f : D → Except ε (List W × α)} {b : α} :
    (query f : Prog D W ε α).Yields S rely s s' b ↔
      ∃ d ws, rely (S.locks s.1) s.2 d ∧ f (S.applyAll d s.1) = .ok (ws, b) ∧
        s' = (s.1 ++ ws, d) := by
  simp only [query, Yields]
  constructor
  · rintro ⟨d, hr, h⟩
    cases hf : f (S.applyAll d s.1) with
    | ok r =>
      simp only [hf, yields_ret] at h
      exact ⟨d, r.1, hr, by rw [hf, h.2], h.1⟩
    | error e => simp [hf] at h
  · rintro ⟨d, ws, hr, hf, rfl⟩
    exact ⟨d, hr, by simp [hf]⟩

@[simp] theorem yields_mapError {g : ε → ε} {p : Prog D W ε α} {b : α} :
    (p.mapError g).Yields S rely s s' b ↔ p.Yields S rely s s' b := by
  induction p generalizing s with
  | ret a => rfl
  | throw e => rfl
  | stmt w k ih => simp only [mapError, Yields, ih]
  | aside w k ih => simp only [mapError, Yields, ih]
  | openTx h k => rfl
  | commit k => rfl

@[simp] theorem yields_write {f : D → List W} {b : Unit} :
    (write f : Prog D W ε Unit).Yields S rely s s' b ↔
      ∃ d, rely (S.locks s.1) s.2 d ∧ s' = (s.1 ++ f (S.applyAll d s.1), d) := by
  simp [write, Yields]

@[simp] theorem yields_outside {f : D → List W} {b : Unit} :
    (outside f : Prog D W ε Unit).Yields S rely s s' b ↔
      ∃ d, rely (S.locks s.1) s.2 d ∧ s' = (s.1, S.applyAll d (f d)) := by
  simp [outside, Yields]

end

/-- What the statements of a complete run add to the pending writes, and that
the locks held at its start protect what they protect until its end. -/
theorem Plain.yields {St As : List W → Prop} {Er : ε → Prop} {S : Store D W K}
    {rely : List K → D → D → Prop} (refl : ∀ h d, rely h d d)
    (trans : ∀ {h a b c}, rely h a b → rely h b c → rely h a c)
    (mono : ∀ {h k d d'}, rely (h ++ k) d d' → rely h d d')
    (hAs : ∀ ws h d, As ws → rely h d (S.applyAll d ws)) {p : Prog D W ε α}
    (hp : p.Plain St As Er) {s t : List W × D} {a : α} (h : p.Yields S rely s t a) :
    rely (S.locks s.1) s.2 t.2 ∧ ∃ es : List (List W), t.1 = s.1 ++ es.flatten ∧ ∀ ws ∈ es, St ws := by
  induction p generalizing s with
  | ret b =>
    obtain ⟨rfl, -⟩ := h
    exact ⟨refl _ _, [], by simp⟩
  | throw e => exact h.elim
  | stmt w k ih =>
    obtain ⟨d', hr, h⟩ := h
    obtain ⟨hw, hk⟩ := hp (S.applyAll d' s.1)
    obtain ⟨hr', es, ht, hes⟩ := ih _ hk h
    rw [Store.locks_append] at hr'
    refine ⟨trans hr (mono hr'), w (S.applyAll d' s.1) :: es, ?_, List.forall_mem_cons.2 ⟨hw, hes⟩⟩
    rw [ht, List.flatten_cons, List.append_assoc]
  | aside w k ih =>
    obtain ⟨d', hr, h⟩ := h
    obtain ⟨hw, hk⟩ := hp d'
    obtain ⟨hr', es, ht, hes⟩ := ih _ hk h
    exact ⟨trans hr (trans (hAs _ _ d' hw) hr'), es, ht, hes⟩
  | openTx h k => exact h.elim
  | commit k => exact h.elim

/-- What the statements of a complete run add, whatever the others do. -/
theorem Plain.yields_writes {St As : List W → Prop} {Er : ε → Prop} {S : Store D W K}
    {rely : List K → D → D → Prop} {p : Prog D W ε α} (hp : p.Plain St As Er) {s t : List W × D}
    {a : α} (h : p.Yields S rely s t a) :
    ∃ es : List (List W), t.1 = s.1 ++ es.flatten ∧ ∀ ws ∈ es, St ws := by
  have hany : ∀ k d d', rely k d d' → (fun (_ : List K) (_ _ : D) => True) k d d' :=
    fun _ _ _ _ => trivial
  exact (hp.yields (fun _ _ => trivial) (fun _ _ => trivial) id (fun _ _ _ _ => trivial)
    (yields_mono hany h)).2

/-! ## Rules -/

section

variable {S : Store D W K} {L : Rules D W K ε} {G : Bool → List K → D → List W → Prop}
  {err : List (List W) → ε → D → Prop}

/-- The body of a transaction ends in `Q` if all its complete runs do, and the
errors it throws or meets are handled. -/
theorem Plain.wp {St As : List W → Prop} {Er : ε → Prop} {H : ε → D → Prop}
    {c : List (List W)} (hH : ∀ e d, Er e → H e d) (hfault : ∀ e, L.fault e → Er e)
    (hG : ∀ k d ws, As ws → ws ≠ [] → G false k d ws) {p : Prog D W ε α}
    (hp : p.Plain St As Er) {Q : Local D W ε → D → α → Prop} {ps : List W} {d : D}
    (hQ : ∀ t a, p.Yields S L.rely (ps, d) t a → Q ⟨some (t.1, H), c⟩ t.2 a) :
    wp S L G err p Q ⟨some (ps, H), c⟩ d := by
  induction p generalizing ps d with
  | ret a => exact hQ (ps, d) a ⟨rfl, rfl⟩
  | throw e => exact hH e d hp
  | stmt w k ih =>
    intro d' hr
    exact ⟨fun e he => hH e d' (hfault e he), fun _ =>
      ih _ (hp _).2 fun t a ht => hQ t a ⟨d', hr, ht⟩⟩
  | aside w k ih =>
    intro d' hr
    exact ⟨fun e he => hH e d' (hfault e he), hG _ d' _ (hp d').1,
      ih _ (hp _).2 fun t a ht => hQ t a ⟨d', hr, ht⟩⟩
  | openTx h k => exact hp.elim
  | commit k => exact hp.elim

/-- Reads outside a transaction. -/
theorem Plain.wp_reads {As : List W → Prop} {Er : ε → Prop} {c : List (List W)}
    (herr : ∀ e d, Er e → err c e d) (hfault : ∀ e, L.fault e → Er e)
    (hAs : ∀ ws, As ws → ws = []) {p : Prog D W ε α} (hp : p.Plain (· = []) As Er)
    {Q : Local D W ε → D → α → Prop} {d : D}
    (hQ : ∀ t a, p.Yields S L.rely ([], d) t a → Q ⟨none, c⟩ t.2 a) :
    Txn.wp S L G err p Q ⟨none, c⟩ d := by
  induction p generalizing d with
  | ret a => exact hQ ([], d) a ⟨rfl, rfl⟩
  | throw e => exact herr e d hp
  | stmt w k ih =>
    intro d' hr
    obtain ⟨hw, hk⟩ := hp d'
    refine ⟨fun e he => herr e d' (hfault e he), fun _ => ?_⟩
    show (w d' ≠ [] → _) ∧ Txn.wp S L G err (k d') Q ⟨none, c⟩ (S.applyAll d' (w d'))
    rw [hw]
    refine ⟨fun h => absurd rfl h, ih _ hk fun t a ht => hQ t a ⟨d', hr, ?_⟩⟩
    show (k d').Yields S L.rely ([] ++ w d', d') t a
    rw [hw]
    exact ht
  | aside w k ih =>
    intro d' hr
    obtain ⟨hw, hk⟩ := hp d'
    have hw := hAs _ hw
    refine ⟨fun e he => herr e d' (hfault e he), fun h => absurd hw h, ?_⟩
    refine ih _ hk fun t a ht => hQ t a ⟨d', hr, ht⟩
  | openTx h k => exact hp.elim
  | commit k => exact hp.elim

/-- A read outside a transaction. -/
theorem wp_select {f : D → α} {c : List (List W)} {Q : Local D W ε → D → α → Prop} {d : D}
    (h : ∀ d', L.rely [] d d' → (∀ e, L.fault e → err c e d') ∧ Q ⟨none, c⟩ d' (f d')) :
    Txn.wp S L G err (select f) Q ⟨none, c⟩ d := by
  intro d' hr
  obtain ⟨hfault, hQ⟩ := h d' hr
  exact ⟨hfault, fun _ => ⟨fun hne => absurd rfl hne, hQ⟩⟩

/-- A statement of a transaction that may raise an error. -/
theorem wp_query {f : D → Except ε (List W × α)} {H : ε → D → Prop} {c : List (List W)}
    {Q : Local D W ε → D → α → Prop} {ps : List W} {d : D}
    (h : ∀ d', L.rely (S.locks ps) d d' → (∀ e, L.fault e → H e d') ∧
      (∀ e, f (S.applyAll d' ps) = .error e → H e d') ∧
      ∀ ws a, f (S.applyAll d' ps) = .ok (ws, a) → Q ⟨some (ps ++ ws, H), c⟩ d' a) :
    Txn.wp S L G err (query f) Q ⟨some (ps, H), c⟩ d := by
  intro d' hr
  obtain ⟨hfault, herr, hok⟩ := h d' hr
  refine ⟨hfault, fun _ => ?_⟩
  simp only [Store.view_some, afterStmt]
  cases hf : f (S.applyAll d' ps) with
  | ok r => exact hok r.1 r.2 hf
  | error e => exact herr e hf

/-- A transaction whose body is plain: its complete runs commit, its errors
reach the handler. -/
theorem Plain.wp_transaction {St As : List W → Prop} {Er : ε → Prop} {c : List (List W)}
    (hfault : ∀ e, L.fault e → Er e) (hG : ∀ k d ws, As ws → ws ≠ [] → G false k d ws)
    {body : Prog D W ε β} (hb : body.Plain St As Er) {hd : ε → Prog D W ε α}
    {k : β → Prog D W ε α} {Q : Local D W ε → D → α → Prop} {d : D}
    (hopen : ∀ e d', L.fault e → err c e d')
    (herr : ∀ e d', Er e → Txn.wp S L G err (hd e) Q ⟨none, c⟩ d')
    (hcommit : ∀ d₁ t b d₂, L.rely [] d d₁ → body.Yields S L.rely ([], d₁) t b →
      L.rely (S.locks t.1) t.2 d₂ → G true [] d₂ t.1 ∧
        Txn.wp S L G err (k b) Q ⟨none, c ++ [t.1]⟩ (S.applyAll d₂ t.1)) :
    Txn.wp S L G err (transaction body hd k) Q ⟨none, c⟩ d := by
  refine ⟨rfl, fun d₁ hd₁ => ⟨fun e he => hopen e d₁ he, ?_⟩⟩
  rw [wp_bind]
  refine hb.wp herr hfault hG fun t b hy d₂ hd₂ => ⟨fun e he => herr e d₂ (hfault e he), ?_⟩
  exact hcommit d₁ t b d₂ hd₁ hy hd₂

end

/-! ## Answers -/

section

variable {S : Store D W K} {L : Rules D W K ε} {err : List (List W) → ε → D → Prop}
  {σ : Local D W ε} {d : D}

/-- What a program answers, whatever it writes. -/
abbrev Answers (S : Store D W K) (L : Rules D W K ε) (err : List (List W) → ε → D → Prop)
    (p : Prog D W ε α) (Q : Local D W ε → D → α → Prop) (σ : Local D W ε) (d : D) : Prop :=
  Txn.wp S L (fun _ _ _ _ => True) err p Q σ d

theorem answers_stmt {w : D → List W} {k : D → Prog D W ε α} {Q : Local D W ε → D → α → Prop}
    (h : ∀ d', L.rely (S.held σ) d d' → (∀ e, L.fault e → σ.fails err e d') ∧
      ∀ τ d'', σ.SameHandler τ → S.view τ d'' = S.applyAll (S.view σ d') (w (S.view σ d')) →
        Answers S L err (k (S.view σ d')) Q τ d'') :
    Answers S L err (stmt w k) Q σ d := by
  intro d' hr
  obtain ⟨hfault, hk⟩ := h d' hr
  refine ⟨hfault, fun _ => ?_⟩
  obtain ⟨tx, c⟩ := σ
  cases tx with
  | none => exact ⟨fun _ => trivial, hk _ _ (.refl _) rfl⟩
  | some tx =>
    refine hk ⟨some (tx.1 ++ _, tx.2), c⟩ d' ⟨rfl, rfl⟩ ?_
    rw [Store.view_some, Store.applyAll_append]
    rfl

theorem answers_aside {w : D → List W} {k : D → Prog D W ε α} {Q : Local D W ε → D → α → Prop}
    (h : ∀ d', L.rely (S.held σ) d d' → (∀ e, L.fault e → σ.fails err e d') ∧
      Answers S L err (k d') Q σ (S.applyAll d' (w d'))) :
    Answers S L err (aside w k) Q σ d := by
  intro d' hr
  obtain ⟨hfault, hk⟩ := h d' hr
  exact ⟨hfault, fun _ => trivial, hk⟩

theorem answers_select {f : D → α} {Q : Local D W ε → D → α → Prop}
    (h : ∀ d', L.rely (S.held σ) d d' → (∀ e, L.fault e → σ.fails err e d') ∧
      ∀ τ d'', σ.SameHandler τ → S.view τ d'' = S.view σ d' → Q τ d'' (f (S.view σ d'))) :
    Answers S L err (select f) Q σ d :=
  answers_stmt fun d' hr => ⟨(h d' hr).1, (h d' hr).2⟩

theorem answers_query {f : D → Except ε (List W × α)} {Q : Local D W ε → D → α → Prop}
    (h : ∀ d', L.rely (S.held σ) d d' → (∀ e, L.fault e → σ.fails err e d') ∧
      (∀ e d'', f (S.view σ d') = .error e → σ.fails err e d'') ∧
      ∀ ws a τ d'', f (S.view σ d') = .ok (ws, a) → σ.SameHandler τ →
        S.view τ d'' = S.applyAll (S.view σ d') ws → Q τ d'' a) :
    Answers S L err (query f) Q σ d := by
  refine answers_stmt fun d' hr => ?_
  obtain ⟨hfault, herr, hok⟩ := h d' hr
  refine ⟨hfault, fun τ d'' hτ hv => ?_⟩
  cases hf : f (S.view σ d') with
  | ok r =>
    rw [hf] at hv
    simp only [Answers, Txn.wp]
    exact hok r.1 r.2 τ d'' hf hτ hv
  | error e =>
    simp only [Answers, Txn.wp]
    exact hτ.fails (herr e d'' hf)

/-- The body of a transaction and its handler may assume that the error condition
`Er` is handled. -/
theorem answers_transaction {Er : ε → Prop} {c : List (List W)} (hfault : ∀ e, L.fault e → Er e)
    (hopen : ∀ e d', Er e → err c e d') {body : Prog D W ε β} {hd : ε → Prog D W ε α}
    {k : β → Prog D W ε α} {Q : Local D W ε → D → α → Prop}
    (hhd : ∀ e d', Er e → Answers S L err (hd e) Q ⟨none, c⟩ d')
    (hk : ∀ b c' d', Answers S L err (k b) Q ⟨none, c'⟩ d')
    (hb : ∀ {d' σ Q'}, L.rely [] d d' → σ.pending = [] → (∀ e d'', Er e → σ.fails err e d'') →
      (∀ τ d'' b, σ.SameHandler τ → Q' τ d'' b) → Answers S L err body Q' σ d') :
    Answers S L err (transaction body hd k) Q ⟨none, c⟩ d := by
  refine ⟨rfl, fun d' hr => ⟨fun e he => hopen e d' (hfault e he), ?_⟩⟩
  rw [wp_bind]
  refine hb hr rfl hhd fun τ d'' b hτ => ?_
  obtain ⟨tx, c'⟩ := τ
  obtain ⟨htx, rfl⟩ := hτ
  cases tx with
  | none => cases htx
  | some tx =>
    obtain ⟨ps, H⟩ := tx
    simp only [Option.map_some, Option.some.injEq] at htx
    subst htx
    exact fun d₃ _ => ⟨fun e he => hhd e d₃ (hfault e he), trivial, hk b _ _⟩

/-- A plain piece of a program passes on the relation `ρ` to the views it had. -/
theorem Plain.answers {ρ : D → D → Prop} (refl : ∀ v, ρ v v)
    (trans : ∀ {a b c}, ρ a b → ρ b c → ρ a c)
    (hrely : ∀ {τ : Local D W ε} {d d'}, L.rely (S.held τ) d d' → ρ (S.view τ d) (S.view τ d'))
    {St As : List W → Prop} {Er : ε → Prop} (hSt : ∀ ws v, St ws → ρ v (S.applyAll v ws))
    (hAs : ∀ {τ : Local D W ε} ws d, As ws → ρ (S.view τ d) (S.view τ (S.applyAll d ws)))
    (hfault : ∀ e, L.fault e → Er e) (herr : ∀ e d, Er e → σ.fails err e d) {p : Prog D W ε α}
    (hp : p.Plain St As Er) {Q : Local D W ε → D → α → Prop}
    (hQ : ∀ τ d' a, σ.SameHandler τ → ρ (S.view σ d) (S.view τ d') → Q τ d' a) :
    Answers S L err p Q σ d := by
  induction p generalizing σ d with
  | ret a => exact hQ σ d a (.refl σ) (refl _)
  | throw e => exact herr e d hp
  | stmt w k ih =>
    refine answers_stmt fun d' hr => ⟨fun e he => herr e d' (hfault e he), fun τ d'' hτ hv => ?_⟩
    obtain ⟨hw, hk⟩ := hp (S.view σ d')
    refine ih _ (fun e d he => hτ.fails (herr e d he)) hk fun υ d₃ a hυ hρ => ?_
    refine hQ υ d₃ a (hτ.trans hυ) (trans (trans (hrely hr) ?_) hρ)
    rw [hv]
    exact hSt _ _ hw
  | aside w k ih =>
    refine answers_aside fun d' hr => ⟨fun e he => herr e d' (hfault e he), ?_⟩
    obtain ⟨hw, hk⟩ := hp d'
    refine ih _ herr hk fun υ d₃ a hυ hρ => ?_
    exact hQ υ d₃ a hυ (trans (trans (hrely hr) (hAs _ d' hw)) hρ)
  | openTx h k => exact hp.elim
  | commit k => exact hp.elim

end

end Prog

end Txn
