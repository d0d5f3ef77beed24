import JobBoard.Lib.Prog

/-!
# The weakest precondition of a program under interference

`wp S L G err p Q σ d` says: from the committed database `d`, with the program's
own connection in the state `σ`, every run of `p` in which the other programs
only move the committed database by `L.rely` ends in `Q` or raises an error
allowed by `err`; each group of writes that reaches the committed database on
the way satisfies the guarantee `G`. The rely relation may use the locks
held by the open transaction: nobody else writes under them.
-/

set_option autoImplicit false

namespace Txn

variable {D W K ε α β : Type}

/-- What a program relies on. `rely h d d'`: the others moved the committed
database from `d` to `d'` while this program held the locks `h`. `fault` are the
errors a statement may fail with by itself, `adm` restricts the statements of
the runs under study (everything is `fun _ _ => True`). -/
structure Rules (D W K ε : Type) where
  rely : List K → D → D → Prop
  fault : ε → Prop
  adm : D → List W → Prop

/-- What one program promises: `guar viaTx held d ws` for each group of writes
it brings into the committed database `d` while its open transaction holds the
locks `held` (none, when the group is the transaction), `err` for an error it
ends with and `post` for its result. `err` and `post` see the write groups its
transactions have committed. -/
structure Spec (D W K ε α : Type) where
  guar : Bool → List K → D → List W → Prop
  err : List (List W) → ε → D → Prop
  post : List (List W) → α → D → Prop

/-- The state of a program's connection: the pending writes of its open
transaction with what must hold when an error leaves that transaction, and the
write groups its transactions have committed. -/
structure Local (D W ε : Type) where
  tx : Option (List W × (ε → D → Prop))
  commits : List (List W)

namespace Local

def pending (σ : Local D W ε) : List W := (σ.tx.map Prod.fst).getD []

def fails (err : List (List W) → ε → D → Prop) (σ : Local D W ε) (e : ε) (d : D) : Prop :=
  match σ.tx with
  | none => err σ.commits e d
  | some (_, h) => h e d

@[simp] theorem pending_none (c : List (List W)) : (⟨none, c⟩ : Local D W ε).pending = [] := rfl

@[simp] theorem pending_some (ws : List W) (h : ε → D → Prop) (c : List (List W)) :
    (⟨some (ws, h), c⟩ : Local D W ε).pending = ws := rfl

@[simp] theorem fails_none (err : List (List W) → ε → D → Prop) (c : List (List W)) (e : ε)
    (d : D) : fails err ⟨none, c⟩ e d = err c e d := rfl

@[simp] theorem fails_some (err : List (List W) → ε → D → Prop) (ws : List W) (h : ε → D → Prop)
    (c : List (List W)) (e : ε) (d : D) : fails err ⟨some (ws, h), c⟩ e d = h e d := rfl

end Local

/-- An error that leaves the transaction goes to the same place. -/
def Local.SameHandler (σ τ : Local D W ε) : Prop :=
  τ.tx.map Prod.snd = σ.tx.map Prod.snd ∧ τ.commits = σ.commits

namespace Local.SameHandler

variable {σ τ υ : Local D W ε}

theorem refl (σ : Local D W ε) : SameHandler σ σ := ⟨rfl, rfl⟩

theorem trans (h : SameHandler σ τ) (h' : SameHandler τ υ) : SameHandler σ υ :=
  ⟨h'.1.trans h.1, h'.2.trans h.2⟩

theorem fails (h : SameHandler σ τ) {err : List (List W) → ε → D → Prop} {e : ε} {d : D}
    (he : σ.fails err e d) : τ.fails err e d := by
  obtain ⟨tx, c⟩ := σ
  obtain ⟨tx', c'⟩ := τ
  obtain ⟨htx, hc⟩ := h
  cases tx <;> cases tx' <;> simp_all [Local.fails]

theorem tx_none {c : List (List W)} (h : SameHandler ⟨none, c⟩ τ) : τ.tx = none := by
  cases htx : τ.tx with
  | none => rfl
  | some tx => simp [SameHandler, htx] at h

end Local.SameHandler

namespace Store

variable (S : Store D W K)

def held (σ : Local D W ε) : List K := S.locks σ.pending

def view (σ : Local D W ε) (d : D) : D := S.applyAll d σ.pending

@[simp] theorem view_none (c : List (List W)) (d : D) :
    S.view (⟨none, c⟩ : Local D W ε) d = d := rfl

@[simp] theorem view_some (ws : List W) (h : ε → D → Prop) (c : List (List W)) (d : D) :
    S.view ⟨some (ws, h), c⟩ d = S.applyAll d ws := rfl

@[simp] theorem held_none (c : List (List W)) : S.held (⟨none, c⟩ : Local D W ε) = [] := rfl

@[simp] theorem held_some (ws : List W) (h : ε → D → Prop) (c : List (List W)) :
    S.held (⟨some (ws, h), c⟩ : Local D W ε) = S.locks ws := rfl

end Store

section

variable (S : Store D W K) (L : Rules D W K ε) (G : Bool → List K → D → List W → Prop)
  (err : List (List W) → ε → D → Prop)

/-- What a statement issuing `ws` must establish, and the state after it. -/
def afterStmt (σ : Local D W ε) (d : D) (ws : List W) (K : Local D W ε → D → Prop) : Prop :=
  match σ.tx with
  | none => (ws ≠ [] → G false [] d ws) ∧ K σ (S.applyAll d ws)
  | some (vs, h) => K ⟨some (vs ++ ws, h), σ.commits⟩ d

def wp : Prog D W ε α → (Local D W ε → D → α → Prop) → Local D W ε → D → Prop
  | .ret a, Q, σ, d => Q σ d a
  | .throw e, _, σ, d => σ.fails err e d
  | .stmt w k, Q, σ, d => ∀ d', L.rely (S.held σ) d d' →
      (∀ e, L.fault e → σ.fails err e d') ∧
      (L.adm (S.view σ d') (w (S.view σ d')) →
        afterStmt S G σ d' (w (S.view σ d')) fun τ d'' => wp (k (S.view σ d')) Q τ d'')
  | .aside w k, Q, σ, d => ∀ d', L.rely (S.held σ) d d' →
      (∀ e, L.fault e → σ.fails err e d') ∧ (w d' ≠ [] → G false (S.held σ) d' (w d')) ∧
      wp (k d') Q σ (S.applyAll d' (w d'))
  | .openTx h k, Q, σ, d => σ.tx = none ∧ ∀ d', L.rely [] d d' →
      (∀ e, L.fault e → err σ.commits e d') ∧
      wp k Q ⟨some ([], fun e d'' => wp (h e) Q ⟨none, σ.commits⟩ d''), σ.commits⟩ d'
  | .commit k, Q, σ, d => ∀ d', L.rely (S.held σ) d d' →
      (∀ e, L.fault e → σ.fails err e d') ∧
      match σ.tx with
      | none => wp k Q σ d'
      | some (ws, _) => G true [] d' ws ∧ wp k Q ⟨none, σ.commits ++ [ws]⟩ (S.applyAll d' ws)

theorem wp_bind (p : Prog D W ε α) (f : α → Prog D W ε β) (Q : Local D W ε → D → β → Prop)
    (σ : Local D W ε) (d : D) :
    wp S L G err (p >>= f) Q σ d ↔ wp S L G err p (fun τ d' a => wp S L G err (f a) Q τ d') σ d := by
  induction p generalizing σ d with
  | ret a => rfl
  | throw e => rfl
  | stmt w k ih => simp only [Prog.stmt_bind, wp, ih]
  | aside w k ih => simp only [Prog.aside_bind, wp, ih]
  | openTx h k ihh ihk => simp only [Prog.openTx_bind, wp, ihh, ihk]
  | commit k ih => simp only [Prog.commit_bind, wp, ih]

end

/-! ## Two properties of one program -/

/-- The connection `τ` is in the state of `σ` and `σ'`, and hands an error on to
both of their handlers. -/
inductive Local.Both : Local D W ε → Local D W ε → Local D W ε → Prop
  | none (c : List (List W)) : Both ⟨none, c⟩ ⟨none, c⟩ ⟨none, c⟩
  | some {H H' H'' : ε → D → Prop} (ws : List W) (c : List (List W))
      (h : ∀ e d, H e d → H' e d → H'' e d) :
      Both ⟨some (ws, H), c⟩ ⟨some (ws, H'), c⟩ ⟨some (ws, H''), c⟩

/-- Less interference, fewer faults and fewer admitted statements. -/
structure Rules.Le (L' L : Rules D W K ε) : Prop where
  rely : ∀ {h d d'}, L'.rely h d d' → L.rely h d d'
  fault : ∀ {e}, L'.fault e → L.fault e
  adm : ∀ {d ws}, L'.adm d ws → L.adm d ws

theorem Rules.Le.refl (L : Rules D W K ε) : L.Le L := ⟨id, id, id⟩

section

variable {S : Store D W K} {L L' L'' : Rules D W K ε} {G G' G'' : Bool → List K → D → List W → Prop}
  {err err' err'' : List (List W) → ε → D → Prop} {Q Q' Q'' : Local D W ε → D → α → Prop}

theorem Local.Both.fails {σ σ' τ : Local D W ε} (h : Both σ σ' τ)
    (herr : ∀ c e d, err c e d → err' c e d → err'' c e d) {e : ε} {d : D}
    (he : σ.fails err e d) (he' : σ'.fails err' e d) : τ.fails err'' e d := by
  cases h with
  | none c => exact herr c e d he he'
  | some ws c hH => exact hH e d he he'

/-- Each property may be proved under rules that ask for more. -/
theorem wp_and (hL : L''.Le L) (hL' : L''.Le L')
    (hG : ∀ b k d ws, G b k d ws → G' b k d ws → G'' b k d ws)
    (herr : ∀ c e d, err c e d → err' c e d → err'' c e d)
    (hQ : ∀ σ σ' τ d a, Local.Both σ σ' τ → Q σ d a → Q' σ' d a → Q'' τ d a)
    {p : Prog D W ε α} {σ σ' τ : Local D W ε} (hb : Local.Both σ σ' τ) {d : D}
    (h : wp S L G err p Q σ d) (h' : wp S L' G' err' p Q' σ' d) :
    wp S L'' G'' err'' p Q'' τ d := by
  induction p generalizing σ σ' τ d with
  | ret a => exact hQ _ _ _ d a hb h h'
  | throw e => exact hb.fails herr h h'
  | stmt w k ih =>
    intro d' hr
    cases hb with
    | none c =>
      obtain ⟨hf, hs⟩ := h d' (hL.rely hr)
      obtain ⟨hf', hs'⟩ := h' d' (hL'.rely hr)
      refine ⟨fun e he => herr c e d' (hf e (hL.fault he)) (hf' e (hL'.fault he)), fun hadm => ?_⟩
      obtain ⟨hg, hk⟩ := hs (hL.adm hadm)
      obtain ⟨hg', hk'⟩ := hs' (hL'.adm hadm)
      exact ⟨fun hw => hG _ _ _ _ (hg hw) (hg' hw), ih _ (.none c) hk hk'⟩
    | some ws c hH =>
      obtain ⟨hf, hs⟩ := h d' (hL.rely hr)
      obtain ⟨hf', hs'⟩ := h' d' (hL'.rely hr)
      refine ⟨fun e he => hH e d' (hf e (hL.fault he)) (hf' e (hL'.fault he)), fun hadm => ?_⟩
      exact ih _ (.some _ c hH) (hs (hL.adm hadm)) (hs' (hL'.adm hadm))
  | aside w k ih =>
    intro d' hr
    cases hb with
    | none c =>
      obtain ⟨hf, hg, hk⟩ := h d' (hL.rely hr)
      obtain ⟨hf', hg', hk'⟩ := h' d' (hL'.rely hr)
      exact ⟨fun e he => herr c e d' (hf e (hL.fault he)) (hf' e (hL'.fault he)),
        fun hw => hG _ _ _ _ (hg hw) (hg' hw), ih _ (.none c) hk hk'⟩
    | some ws c hH =>
      obtain ⟨hf, hg, hk⟩ := h d' (hL.rely hr)
      obtain ⟨hf', hg', hk'⟩ := h' d' (hL'.rely hr)
      exact ⟨fun e he => hH e d' (hf e (hL.fault he)) (hf' e (hL'.fault he)),
        fun hw => hG _ _ _ _ (hg hw) (hg' hw), ih _ (.some ws c hH) hk hk'⟩
  | openTx hd k ihh ihk =>
    obtain ⟨htx, h⟩ := h
    obtain ⟨htx', h'⟩ := h'
    cases hb with
    | some ws c hH => cases htx
    | none c =>
      refine ⟨rfl, fun d' hr => ?_⟩
      obtain ⟨hf, hk⟩ := h d' (hL.rely hr)
      obtain ⟨hf', hk'⟩ := h' d' (hL'.rely hr)
      refine ⟨fun e he => herr c e d' (hf e (hL.fault he)) (hf' e (hL'.fault he)), ihk (.some [] c ?_) hk hk'⟩
      exact fun e d'' he he' => ihh e (.none c) he he'
  | commit k ih =>
    intro d' hr
    cases hb with
    | none c =>
      obtain ⟨hf, hk⟩ := h d' (hL.rely hr)
      obtain ⟨hf', hk'⟩ := h' d' (hL'.rely hr)
      exact ⟨fun e he => herr c e d' (hf e (hL.fault he)) (hf' e (hL'.fault he)), ih (.none c) hk hk'⟩
    | some ws c hH =>
      obtain ⟨hf, hg, hk⟩ := h d' (hL.rely hr)
      obtain ⟨hf', hg', hk'⟩ := h' d' (hL'.rely hr)
      exact ⟨fun e he => hH e d' (hf e (hL.fault he)) (hf' e (hL'.fault he)), hG _ _ _ _ hg hg', ih (.none _) hk hk'⟩

/-- Two properties of a program that closes its transactions. -/
theorem wp_and_closed {Q Q' : D → α → Prop} {p : Prog D W ε α} {c : List (List W)} {d : D}
    (h : wp S L G err p (fun σ d a => σ.tx = none ∧ Q d a) ⟨none, c⟩ d)
    (h' : wp S L G' err' p (fun σ d a => σ.tx = none ∧ Q' d a) ⟨none, c⟩ d) :
    wp S L (fun b k d ws => G b k d ws ∧ G' b k d ws) (fun c e d => err c e d ∧ err' c e d) p
      (fun σ d a => σ.tx = none ∧ Q d a ∧ Q' d a) ⟨none, c⟩ d := by
  refine wp_and (.refl L) (.refl L) (fun _ _ _ _ hg hg' => ⟨hg, hg'⟩) (fun _ _ _ he he' => ⟨he, he'⟩)
    (fun σ σ' τ d a hb hq hq' => ?_) (.none c) h h'
  cases hb with
  | none c => exact ⟨rfl, hq.2, hq'.2⟩
  | some ws c hH => cases hq.1

end

end Txn
