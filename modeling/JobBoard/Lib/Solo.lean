import JobBoard.Lib.Alone
import JobBoard.Lib.Publish

/-!
# Uninterrupted runs

`p.solo S d` is what a program without transactions publishes from `d`, group by
group, and how it ends, when nobody interferes and nothing fails. A run alone in
which a statement may fail is cut off after some of these groups (`Plain.alone_solo`);
inside a transaction all the writes are pending at its end (`Plain.alone_pending`).
-/

set_option autoImplicit false

namespace Txn

variable {D W K ε α β : Type}

/-- The database after the groups `gss`. -/
def Store.applyGroups (S : Store D W K) (d : D) (gss : List (List W)) : D :=
  gss.foldl S.applyAll d

namespace Store

variable (S : Store D W K) (d : D)

@[simp] theorem applyGroups_nil : S.applyGroups d [] = d := rfl

@[simp] theorem applyGroups_cons (ws : List W) (gss : List (List W)) :
    S.applyGroups d (ws :: gss) = S.applyGroups (S.applyAll d ws) gss := rfl

theorem applyGroups_append (gss gss' : List (List W)) :
    S.applyGroups d (gss ++ gss') = S.applyGroups (S.applyGroups d gss) gss' :=
  List.foldl_append

/-- A view of the database that none of the groups changes. -/
theorem applyGroups_same {σ : Type} {f : D → σ} {gss : List (List W)}
    (h : ∀ ws ∈ gss, ∀ d, f (S.applyAll d ws) = f d) : f (S.applyGroups d gss) = f d := by
  induction gss generalizing d with
  | nil => rfl
  | cons ws gss ih =>
    rw [applyGroups_cons, ih _ fun ws hws => h ws (List.mem_cons_of_mem _ hws)]
    exact h ws List.mem_cons_self d

/-- What all of the groups keep. -/
theorem applyGroups_keeps {P : D → Prop} {gss : List (List W)}
    (h : ∀ ws ∈ gss, ∀ d, P d → P (S.applyAll d ws)) (hd : P d) : P (S.applyGroups d gss) := by
  induction gss generalizing d with
  | nil => exact hd
  | cons ws gss ih =>
    exact ih _ (fun ws hws => h ws (List.mem_cons_of_mem _ hws)) (h ws List.mem_cons_self d hd)

theorem applyGroups_flatten (gss : List (List W)) :
    S.applyAll d gss.flatten = S.applyGroups d gss := by
  induction gss generalizing d with
  | nil => rfl
  | cons ws gss ih => rw [List.flatten_cons, applyAll_append, ih, applyGroups_cons]

end Store

/-- Groups that no transaction has committed. -/
def single (gss : List (List W)) : Published W := gss.map fun ws => (false, ws)

@[simp] theorem single_nil : single ([] : List (List W)) = [] := rfl

@[simp] theorem single_cons (ws : List W) (gss : List (List W)) :
    single (ws :: gss) = (false, ws) :: single gss := rfl

namespace Prog

/-- A group before the others, if it is not empty. -/
def emit (ws : List W) (r : List (List W) × Except ε α) : List (List W) × Except ε α :=
  match ws with
  | [] => r
  | w :: ws => ((w :: ws) :: r.1, r.2)

/-- `r`, and then `K` on the database and the value that it leaves. -/
def andThen (S : Store D W K) (d : D) (r : List (List W) × Except ε α)
    (K : D → α → List (List W) × Except ε β) : List (List W) × Except ε β :=
  match r.2 with
  | .ok a => (r.1 ++ (K (S.applyGroups d r.1) a).1, (K (S.applyGroups d r.1) a).2)
  | .error e => (r.1, .error e)

def solo (S : Store D W K) : Prog D W ε α → D → List (List W) × Except ε α
  | ret a, _ => ([], .ok a)
  | throw e, _ => ([], .error e)
  | stmt w k, d => emit (w d) ((k d).solo S (S.applyAll d (w d)))
  | aside w k, d => emit (w d) ((k d).solo S (S.applyAll d (w d)))
  | openTx _ k, d => k.solo S d
  | commit k, d => k.solo S d

section

variable {S : Store D W K} {d : D}

theorem emit_andThen (ws : List W) (r : List (List W) × Except ε α)
    (K : D → α → List (List W) × Except ε β) :
    andThen S d (emit ws r) K = emit ws (andThen S (S.applyAll d ws) r K) := by
  cases ws with
  | nil => rfl
  | cons w ws =>
    obtain ⟨gss, x⟩ := r
    cases x <;> rfl

theorem solo_bind (p : Prog D W ε α) (f : α → Prog D W ε β) (d : D) :
    (p >>= f).solo S d = andThen S d (p.solo S d) fun d' a => (f a).solo S d' := by
  induction p generalizing d with
  | ret a => rfl
  | throw e => rfl
  | stmt w k ih => rw [stmt_bind, solo, solo, emit_andThen, ih]
  | aside w k ih => rw [aside_bind, solo, solo, emit_andThen, ih]
  | openTx h k _ ih => exact ih d
  | commit k ih => exact ih d

/-- What a run that returns has done in each of its two parts. -/
theorem solo_bind_ok {p : Prog D W ε α} {f : α → Prog D W ε β} {gss : List (List W)} {b : β}
    (h : (p >>= f).solo S d = (gss, .ok b)) :
    ∃ gs a gs', p.solo S d = (gs, .ok a) ∧
      (f a).solo S (S.applyGroups d gs) = (gs', .ok b) ∧ gss = gs ++ gs' := by
  rw [solo_bind] at h
  cases hp : p.solo S d with
  | mk gs x =>
    rw [hp] at h
    cases x with
    | error e => cases h
    | ok a =>
      obtain ⟨hgss, hb⟩ := Prod.mk.inj h
      exact ⟨gs, a, _, rfl, Prod.ext rfl hb, hgss.symm⟩

@[simp] theorem andThen_nil (a : α) (K : D → α → List (List W) × Except ε β) :
    andThen S d ([], .ok a) K = K d a := rfl

theorem andThen_ok (gss : List (List W)) (a : α)
    (K : D → α → List (List W) × Except ε β) :
    andThen S d (gss, .ok a) K =
      (gss ++ (K (S.applyGroups d gss) a).1, (K (S.applyGroups d gss) a).2) := rfl

@[simp] theorem andThen_error (gss : List (List W)) (e : ε)
    (K : D → α → List (List W) × Except ε β) :
    andThen S d (gss, .error e) K = (gss, .error e) := rfl

@[simp] theorem solo_ret (a : α) : (ret a : Prog D W ε α).solo S d = ([], .ok a) := rfl

@[simp] theorem solo_throw (e : ε) : (throw e : Prog D W ε α).solo S d = ([], .error e) := rfl

@[simp] theorem solo_ofExcept (x : Except ε α) :
    (ofExcept x : Prog D W ε α).solo S d = ([], x) := by
  cases x <;> rfl

@[simp] theorem solo_select (f : D → α) :
    (select f : Prog D W ε α).solo S d = ([], .ok (f d)) := rfl

@[simp] theorem solo_outside :
    (outside fun _ => [] : Prog D W ε Unit).solo S d = ([], .ok ()) := rfl

@[simp] theorem solo_write (w : W) :
    (write fun _ => [w] : Prog D W ε Unit).solo S d = ([[w]], .ok ()) := rfl

theorem solo_query (f : D → Except ε (List W × α)) :
    (query f : Prog D W ε α).solo S d =
      match f d with
      | .ok r => emit r.1 ([], .ok r.2)
      | .error e => ([], .error e) := by
  unfold query
  cases h : f d <;> simp [solo, h, emit]

end

section

variable (S : Store D W K) (fault : ε → Prop) (J : Published W → D → Prop)
  (E : Published W → D → ε → Prop) (Q : Opened D W ε → Published W → D → α → Prop)

/-- What the specification of a run alone asks of the run `r`, wherever it is cut off. -/
structure Covers (gs : Published W) (d : D) (r : List (List W) × Except ε α) : Prop where
  inv : ∀ gss, gss <+: r.1 → J (gs ++ single gss) (S.applyGroups d gss)
  fail : ∀ gss e, gss <+: r.1 → fault e → E (gs ++ single gss) (S.applyGroups d gss) e
  ok : ∀ a, r.2 = .ok a → Q none (gs ++ single r.1) (S.applyGroups d r.1) a
  error : ∀ e, r.2 = .error e → E (gs ++ single r.1) (S.applyGroups d r.1) e

end

section

variable {S : Store D W K} {fault : ε → Prop} {adm : D → List W → Prop}
  {J : Published W → D → Prop} {E : Published W → D → ε → Prop} {St As : List W → Prop}
  {Er : ε → Prop} {Q : Opened D W ε → Published W → D → α → Prop} {gs : Published W} {d : D}

theorem Covers.start {r : List (List W) × Except ε α} (h : Covers S fault J E Q gs d r) :
    J gs d ∧ ∀ e, fault e → E gs d e := by
  have hinv := h.inv [] List.nil_prefix
  have hfail := fun e => h.fail [] e List.nil_prefix
  simp only [single_nil, List.append_nil, Store.applyGroups_nil] at hinv hfail
  exact ⟨hinv, hfail⟩

theorem Covers.emit {ws : List W} {r : List (List W) × Except ε α}
    (h : Covers S fault J E Q gs d (emit ws r)) :
    reaches S J gs d ws fun gs' d' => Covers S fault J E Q gs' d' r := by
  cases ws with
  | nil => exact h
  | cons w ws =>
    obtain ⟨hinv, hfail, hok, herror⟩ := h
    have next : ∀ {gss}, gss <+: r.1 → (w :: ws) :: gss <+: (w :: ws) :: r.1 := fun hgss =>
      (List.cons_prefix_cons).2 ⟨rfl, hgss⟩
    have shift : ∀ gss : List (List W), gs ++ single ((w :: ws) :: gss) =
        gs ++ [(false, w :: ws)] ++ single gss := fun gss => by simp
    refine ⟨?_, fun gss hgss => ?_, fun gss e hgss he => ?_, fun a ha => ?_, fun e he => ?_⟩
    · have := hinv [w :: ws] (next List.nil_prefix)
      rwa [shift, single_nil, List.append_nil] at this
    · rw [← shift]
      exact hinv _ (next hgss)
    · rw [← shift]
      exact hfail _ e (next hgss) he
    · rw [← shift]
      exact hok a ha
    · rw [← shift]
      exact herror e he

/-- A run alone publishes a prefix of the groups of the uninterrupted run: all of
them, unless a statement fails. -/
theorem Plain.alone_solo {p : Prog D W ε α} (hp : p.Plain St As Er)
    (h : Covers S fault J E Q gs d (p.solo S d)) : p.alone S fault adm J E Q none gs d := by
  have next : ∀ {ws gs d} {r : List (List W) × Except ε α} {K : Published W → D → Prop},
      Covers S fault J E Q gs d (Prog.emit ws r) →
      (∀ {gs' d'}, Covers S fault J E Q gs' d' r → d' = S.applyAll d ws → K gs' d') →
      reaches S J gs d ws K := by
    intro ws gs d r K h hK
    have := h.emit
    cases ws with
    | nil => exact hK this rfl
    | cons w ws => exact ⟨this.1, hK this.2 rfl⟩
  induction p generalizing gs d with
  | ret a =>
    have := h.ok a rfl
    rwa [solo_ret, single_nil, List.append_nil] at this
  | throw e =>
    have := h.error e rfl
    rwa [solo_throw, single_nil, List.append_nil] at this
  | stmt w k ih =>
    refine ⟨h.start.2, fun _ => next h fun {gs' d'} h' hd => ?_⟩
    subst hd
    exact ih d (hp d).2 h'
  | aside w k ih =>
    refine ⟨h.start.2, next h fun {gs' d'} h' hd => ?_⟩
    subst hd
    exact ih d (hp d).2 h'
  | openTx h k => exact hp.elim
  | commit k => exact hp.elim

end

end Prog

/-! ## The state after a call -/

section

variable {Op : Type} {S : Store D W K} {d₀ d : D} {t : State D W ε α Op} {op : Op} {i : Nat}
  {gs : Published W} {gss : List (List W)} {r : Except ε α}

theorem publishedBy_tagged (i : Nat) (gs : Published W) : publishedBy i (tagged i gs) = gs := by
  induction gs with
  | nil => rfl
  | cons g gs ih =>
    rw [show tagged i (g :: gs) = [⟨i, g.1, g.2⟩] ++ tagged i gs from rfl, publishedBy_append, ih,
      publishedBy_self]
    rfl

theorem call_of_mem_tagged {g : Group W} (h : g ∈ tagged i gs) : g.call = i := by
  obtain ⟨_, -, rfl⟩ := List.mem_map.1 h
  rfl

theorem replay_tagged (S : Store D W K) (d : D) (i : Nat) (gss : List (List W)) :
    replay S d (tagged i (single gss)) = S.applyGroups d gss := by
  induction gss generalizing d with
  | nil => rfl
  | cons ws gss ih => exact ih (S.applyAll d ws)

theorem replay_append (S : Store D W K) (d : D) (l r : List (Group W)) :
    replay S d (l ++ r) = replay S (replay S d l) r :=
  List.foldl_append

/-- The log leads to the database, and names calls that have been started. -/
structure State.Tidy (S : Store D W K) (d₀ : D) (s : State D W ε α Op) : Prop where
  db : s.db = replay S d₀ s.log
  log : ∀ g ∈ s.log, g.call < s.ops.length

theorem State.Tidy.after (h : t.Tidy S d₀) (op : Op) (gss : List (List W)) (r : Except ε α) :
    (t.after op (single gss) (S.applyGroups t.db gss) r).Tidy S d₀ where
  db := by
    simp only [State.after]
    rw [replay_append, ← h.db, replay_tagged]
  log g hg := by
    simp only [State.after, List.mem_append, List.length_append, List.length_singleton] at hg ⊢
    rcases hg with hg | hg
    · have := h.log g hg
      omega
    · rw [call_of_mem_tagged hg]
      omega

theorem State.Tidy.published_self (h : t.Tidy S d₀) :
    publishedBy t.ops.length (t.after op gs d r).log = gs := by
  simp only [State.after]
  rw [publishedBy_append, publishedBy_tagged, publishedBy_other fun g hg => Nat.ne_of_lt (h.log g hg),
    List.nil_append]

theorem State.after_published_other (hi : i ≠ t.ops.length) :
    publishedBy i (t.after op gs d r).log = publishedBy i t.log := by
  have hnone : publishedBy i (tagged t.ops.length gs) = [] := publishedBy_other fun g hg => by
    rw [call_of_mem_tagged hg]
    exact hi.symm
  simp only [State.after]
  rw [publishedBy_append, hnone, List.append_nil]

theorem State.after_call_self : (t.after op gs d r).call t.ops.length = .done r := by
  simp [State.after]

theorem State.after_call_other (hi : i ≠ t.ops.length) : (t.after op gs d r).call i = t.call i := by
  simp [State.after, hi]

/-- The database on which call `i` has made its first commit. -/
def State.startedOn (S : Store D W K) (d₀ : D) (s : State D W ε α Op) (i : Nat) : D :=
  replay S d₀ (s.log.takeWhile fun g => g.call ≠ i)

theorem State.Tidy.startedOn_self (h : t.Tidy S d₀) (hne : gss ≠ []) :
    (t.after op (single gss) d r).startedOn S d₀ t.ops.length = t.db := by
  obtain ⟨ws, gss, rfl⟩ := List.exists_cons_of_ne_nil hne
  simp only [State.startedOn, State.after]
  rw [List.takeWhile_append_of_pos, h.db]
  · simp [tagged, single]
  · intro g hg
    exact decide_eq_true (Nat.ne_of_lt (h.log g hg))

theorem State.after_startedOn_other (hi : publishedBy i t.log ≠ []) :
    (t.after op gs d r).startedOn S d₀ i = t.startedOn S d₀ i := by
  have hcut : ∀ l r : List (Group W), publishedBy i l ≠ [] →
      (l ++ r).takeWhile (fun g => decide (g.call ≠ i)) = l.takeWhile fun g => decide (g.call ≠ i) := by
    intro l r hl
    induction l with
    | nil => exact absurd rfl hl
    | cons g l ih =>
      by_cases hg : g.call = i
      · simp [hg]
      · have hl' : publishedBy i l ≠ [] := by
          rw [show g :: l = [g] ++ l from rfl, publishedBy_append, publishedBy_other fun g' hg' => by
            rw [List.mem_singleton] at hg'
            rw [hg']
            exact hg, List.nil_append] at hl
          exact hl
        simp only [List.cons_append, List.takeWhile_cons, ih hl']
  simp only [State.startedOn, State.after, hcut t.log _ hi]

end

end Txn
