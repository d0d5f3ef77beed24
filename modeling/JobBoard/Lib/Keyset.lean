import Mathlib.Data.List.Sort
import Mathlib.Data.List.TakeDrop

/-!
# Keyset pagination

Rows in a strict order are read in pages of `limit`. A page is the first `limit` rows of a
selection, and one more row is fetched to see whether there is a next page. The next page
selects by a cursor made from the last row `b` of the page: the matching rows `beyond`
the key of the cursor, and the rows that `tie` with it and follow `b`. The cursor may be
coarser than the key, and the ties may not match: `walk_eq` says exactly when the pages
put together are the matching rows, each once and in order.
-/

set_option autoImplicit false

namespace Pagination

variable {α : Type}

/-- In a strict order, a row is among the first `n` when fewer than `n` come before it. -/
theorem mem_take_iff {lt : α → α → Bool} {l : List α} {x : α}
    (hl : l.Pairwise fun a b => lt a b = true) (hasymm : ∀ a b, lt a b = true → lt b a = false)
    (hx : x ∈ l) (n : Nat) : x ∈ l.take n ↔ l.countP (lt · x) < n := by
  have hirrefl : ∀ a, lt a a = false := fun a => by
    cases h : lt a a with
    | false => rfl
    | true => exact h ▸ hasymm a a h
  induction l generalizing n with
  | nil => cases hx
  | cons a l ih =>
    obtain ⟨hhead, htail⟩ := List.pairwise_cons.1 hl
    rcases List.mem_cons.1 hx with rfl | hx
    · have hnone : l.countP (lt · x) = 0 := by
        rw [List.countP_eq_zero]
        intro y hy
        rw [hasymm x y (hhead y hy)]
        simp
      rw [List.countP_cons_of_neg (by rw [hirrefl]; simp), hnone]
      cases n <;> simp
    · have hax := hhead x hx
      have hne : x ≠ a := by
        rintro rfl
        rw [hirrefl] at hax
        cases hax
      have hcount : (a :: l).countP (lt · x) = l.countP (lt · x) + 1 :=
        List.countP_cons_of_pos hax
      rw [hcount]
      cases n with
      | zero => simp
      | succ n => simp [hne, ih htail hx n]

/-- An order of rows and what a cursor made from a row says of the others. -/
structure Keyset (α : Type) where
  lt : α → α → Prop
  lt_trans : ∀ {a b c}, lt a b → lt b c → lt a c
  lt_irrefl : ∀ a, ¬ lt a a
  /-- The key of `x` is beyond the key of the cursor made from `b`. -/
  beyond : α → α → Bool
  /-- The key of `x` is the key of the cursor, and `x` follows `b` in the tie-break. -/
  tie : α → α → Bool
  lt_of_beyond : ∀ {b x}, beyond b x = true → lt b x
  lt_of_tie : ∀ {b x}, tie b x = true → lt b x
  /-- A tie of `b` is a tie of any row that `b` reaches and that comes before it. -/
  tie_of_lt : ∀ {b c x}, (beyond b c || tie b c) = true → lt c x → tie b x = true → tie c x = true
  reach_trans : ∀ {b c x}, (beyond b c || tie b c) = true → (beyond c x || tie c x) = true →
    (beyond b x || tie b x) = true

namespace Keyset

variable (K : Keyset α)

def reach (b x : α) : Bool := K.beyond b x || K.tie b x

/-- What the cursor of `b` selects, of the rows with the property `p`: the ties come
without it. -/
def sel (p : α → Bool) (b x : α) : Bool := p x && K.beyond b x || K.tie b x

/-- The pages put together, when `fuel` pages are enough. -/
def walk (p : α → Bool) (limit : Nat) (rows : List α) : Nat → (α → Bool) → Option (List α)
  | 0, _ => none
  | fuel + 1, s =>
    let fetched := (rows.filter s).take (limit + 1)
    if fetched.length ≤ limit then some fetched
    else
      match (fetched.take limit).getLast? with
      | none => none
      | some b => (walk p limit rows fuel (K.sel p b)).map (fetched.take limit ++ ·)

/-- The cursor of `b` neither skips a matching row nor selects another one. -/
structure Exact (p : α → Bool) (rows : List α) (b : α) : Prop where
  tie_matches : ∀ x ∈ rows, K.tie b x = true → p x = true
  reaches : ∀ x ∈ rows, p x = true → K.lt b x → K.reach b x = true

variable {K} {p : α → Bool} {limit : Nat} {rows : List α} {b c x : α}

theorem reach_of_sel (h : K.sel p b x = true) : K.reach b x = true := by
  simp only [sel, reach, Bool.or_eq_true, Bool.and_eq_true] at h ⊢
  exact h.imp_left And.right

theorem sel_of_reach (hp : p x = true) (h : K.reach b x = true) : K.sel p b x = true := by
  simpa [sel, reach, hp] using h

theorem lt_of_sel (h : K.sel p b x = true) : K.lt b x := by
  have h := reach_of_sel h
  simp only [reach, Bool.or_eq_true] at h
  exact h.elim K.lt_of_beyond K.lt_of_tie

/-- A selected row that does not match is a tie. -/
theorem tie_of_sel (h : K.sel p b x = true) (hp : p x = false) : K.tie b x = true := by
  simpa [sel, hp] using h

theorem sel_of_tie (h : K.tie b x = true) : K.sel p b x = true := by simp [sel, h]

theorem sel_trans (hp : p x = true) (hc : K.sel p b c = true) (hx : K.sel p c x = true) :
    K.sel p b x = true :=
  sel_of_reach hp (K.reach_trans (reach_of_sel hc) (reach_of_sel hx))

/-! ## One page -/

/-- The pages after one with a next page. -/
theorem walk_more {s : α → Bool} {fuel : Nat} {last : α}
    (hmore : limit < (rows.filter s).length)
    (hlast : ((rows.filter s).take limit).getLast? = some last) :
    K.walk p limit rows (fuel + 1) s =
      (K.walk p limit rows fuel (K.sel p last)).map ((rows.filter s).take limit ++ ·) := by
  have hlen : ¬ ((rows.filter s).take (limit + 1)).length ≤ limit := by
    rw [List.length_take]
    omega
  have htake : ((rows.filter s).take (limit + 1)).take limit = (rows.filter s).take limit := by
    rw [List.take_take, Nat.min_eq_left (by omega)]
  simp only [walk, hlen, if_false, htake, hlast]

/-- The last page. -/
theorem walk_last {s : α → Bool} {fuel : Nat} (hlast : (rows.filter s).length ≤ limit) :
    K.walk p limit rows (fuel + 1) s = some (rows.filter s) := by
  have htake : (rows.filter s).take (limit + 1) = rows.filter s := List.take_of_length_le (by omega)
  simp only [walk, htake, hlast, if_true]

theorem getLast?_take {l : List α} (hpos : 0 < limit) (h : limit < l.length) :
    (l.take limit).getLast? = some (l[limit - 1]) := by
  rw [List.getLast?_eq_getElem?, List.length_take, Nat.min_eq_left (by omega),
    List.getElem?_take_of_lt (by omega), List.getElem?_eq_getElem]

/-- A row after the first page of a selection in order comes after the last row of it. -/
theorem lt_of_mem_drop {l : List α} (hl : l.Pairwise K.lt) (hpos : 0 < limit)
    (h : limit < l.length) (hx : x ∈ l.drop limit) : K.lt (l[limit - 1]) x := by
  obtain ⟨i, hi, rfl⟩ := List.mem_iff_getElem.1 hx
  rw [List.getElem_drop]
  exact List.pairwise_iff_getElem.1 hl _ _ _ _ (by omega)

/-- The rows that come after row `i` are those after it in the list. -/
theorem filter_lt {l : List α} (hl : l.Pairwise K.lt) {i : Nat} (hi : i < l.length)
    {s : α → Bool} (hs : ∀ x ∈ l, s x = true ↔ K.lt l[i] x) : l.filter s = l.drop (i + 1) := by
  have hbefore : (l.take (i + 1)).filter s = [] := by
    rw [List.filter_eq_nil_iff]
    intro x hx hsx
    have hlt := (hs x (List.mem_of_mem_take hx)).1 hsx
    obtain ⟨j, hj, rfl⟩ := List.mem_iff_getElem.1 hx
    rw [List.length_take] at hj
    rw [List.getElem_take] at hlt
    rcases Nat.lt_or_ge j i with hji | hji
    · exact K.lt_irrefl _ (K.lt_trans hlt (List.pairwise_iff_getElem.1 hl _ _ _ hi hji))
    · have : j = i := by omega
      subst this
      exact K.lt_irrefl _ hlt
  have hafter : (l.drop (i + 1)).filter s = l.drop (i + 1) := by
    rw [List.filter_eq_self]
    intro x hx
    refine (hs x (List.mem_of_mem_drop hx)).2 ?_
    obtain ⟨j, hj, rfl⟩ := List.mem_iff_getElem.1 hx
    rw [List.getElem_drop]
    exact List.pairwise_iff_getElem.1 hl _ _ _ _ (by omega)
  calc l.filter s = (l.take (i + 1) ++ l.drop (i + 1)).filter s := by rw [List.take_append_drop]
    _ = l.drop (i + 1) := by rw [List.filter_append, hbefore, hafter, List.nil_append]

/-- An exact cursor selects the matching rows after its row. -/
theorem filter_sel (hrows : rows.Pairwise K.lt) {i : Nat} (hi : i < (rows.filter p).length)
    (h : K.Exact p rows (rows.filter p)[i]) :
    rows.filter (K.sel p (rows.filter p)[i]) = (rows.filter p).drop (i + 1) := by
  have hmatch : ∀ x ∈ rows, K.sel p (rows.filter p)[i] x = true → p x = true := by
    intro x hx hsel
    cases hp : p x with
    | true => rfl
    | false => exact hp ▸ h.tie_matches x hx (tie_of_sel hsel hp)
  have hsel : ∀ x ∈ rows.filter p, K.sel p (rows.filter p)[i] x = true ↔
      K.lt (rows.filter p)[i] x := by
    intro x hx
    obtain ⟨hx, hp⟩ := List.mem_filter.1 hx
    exact ⟨lt_of_sel, fun hlt => sel_of_reach hp (h.reaches x hx hp hlt)⟩
  rw [← filter_lt (hrows.sublist List.filter_sublist) hi hsel, List.filter_filter]
  apply List.filter_congr
  intro x hx
  cases hs : K.sel p (rows.filter p)[i] x with
  | false => rfl
  | true => rw [hmatch x hx hs, Bool.and_self]

/-! ## All pages -/

/-- The cursor at the end of each full page that a matching row follows is exact. -/
def ExactBoundaries (K : Keyset α) (p : α → Bool) (limit : Nat) (rows : List α) (page : Nat) :
    Prop :=
  ∀ j, page < j → ∀ h : j * limit < (rows.filter p).length,
    K.Exact p rows ((rows.filter p)[j * limit - 1])

theorem ExactBoundaries.mono {j k : Nat} (h : K.ExactBoundaries p limit rows j) (hjk : j ≤ k) :
    K.ExactBoundaries p limit rows k := fun i hi => h i (by omega)

/-- The last row of page `j`, when a matching row follows the page. -/
theorem boundary_eq {s : α → Bool} {j : Nat} (hpos : 0 < limit)
    (hs : rows.filter s = (rows.filter p).drop (j * limit))
    (hmore : (j + 1) * limit < (rows.filter p).length) :
    ((rows.filter s).take limit).getLast? =
      some ((rows.filter p)[(j + 1) * limit - 1]) := by
  have hmul : (j + 1) * limit = j * limit + limit := Nat.succ_mul j limit
  have hlen : limit < (rows.filter s).length := by
    rw [hs, List.length_drop]
    omega
  rw [getLast?_take hpos hlen]
  simp only [hs, List.getElem_drop]
  congr 2
  omega

theorem walk_of_exact (hrows : rows.Pairwise K.lt) (hpos : 0 < limit) {s : α → Bool} (j : Nat)
    (hs : rows.filter s = (rows.filter p).drop (j * limit))
    (h : K.ExactBoundaries p limit rows j) :
    ∃ n, K.walk p limit rows n s = some ((rows.filter p).drop (j * limit)) := by
  -- by induction on the number of matching rows that are left
  obtain ⟨left, hleft⟩ : ∃ left, (rows.filter p).length - j * limit = left := ⟨_, rfl⟩
  induction left using Nat.strongRecOn generalizing j s with
  | _ left ih =>
    have hmul : (j + 1) * limit = j * limit + limit := Nat.succ_mul j limit
    rcases Nat.lt_or_ge ((j + 1) * limit) (rows.filter p).length with hmore | hlast
    · have hlen : limit < (rows.filter s).length := by
        rw [hs, List.length_drop]
        omega
      have hexact := h (j + 1) (by omega) hmore
      have hnext : rows.filter (K.sel p ((rows.filter p)[(j + 1) * limit - 1])) =
          (rows.filter p).drop ((j + 1) * limit) := by
        rw [filter_sel hrows (by omega) hexact, Nat.sub_add_cancel (by omega)]
      obtain ⟨n, hn⟩ := ih _ (by omega) (j + 1) hnext (h.mono (by omega)) rfl
      refine ⟨n + 1, ?_⟩
      rw [walk_more hlen (boundary_eq hpos hs hmore), hn, hs, hmul, ← List.drop_drop,
        Option.map_some, List.take_append_drop]
    · refine ⟨1, ?_⟩
      rw [walk_last, hs]
      rw [hs, List.length_drop]
      omega

theorem mem_of_walk {n : Nat} {s : α → Bool} {out : List α}
    (h : K.walk p limit rows n s = some out) : ∀ x ∈ out, x ∈ rows := by
  induction n generalizing s out with
  | zero => cases h
  | succ n ih =>
    have hfetched : ∀ x ∈ (rows.filter s).take (limit + 1), x ∈ rows := fun x hx =>
      List.mem_of_mem_filter (List.mem_of_mem_take hx)
    simp only [walk] at h
    split at h
    · cases h
      exact hfetched
    · split at h
      · cases h
      · obtain ⟨rest, hrest, rfl⟩ := Option.map_eq_some_iff.1 h
        intro x hx
        rcases List.mem_append.1 hx with hx | hx
        · exact hfetched x (List.mem_of_mem_take hx)
        · exact ih hrest x hx

/-- What the pages show of the matching rows was selected at the start. -/
theorem sel_of_walk (hpos : 0 < limit) {n : Nat} {s : α → Bool} {out : List α}
    (hs : ∀ c x, s c = true → p x = true → K.sel p c x = true → s x = true)
    (h : K.walk p limit rows n s = some out) : ∀ x ∈ out, p x = true → s x = true := by
  induction n generalizing s out with
  | zero => cases h
  | succ n ih =>
    rcases Nat.lt_or_ge limit (rows.filter s).length with hmore | hlast
    · rw [walk_more hmore (getLast?_take hpos hmore)] at h
      obtain ⟨rest, hrest, rfl⟩ := Option.map_eq_some_iff.1 h
      have hb : s ((rows.filter s)[limit - 1]) = true :=
        (List.mem_filter.1 (List.getElem_mem _)).2
      intro x hx hp
      rcases List.mem_append.1 hx with hx | hx
      · exact (List.mem_filter.1 (List.mem_of_mem_take hx)).2
      · exact hs _ x hb hp (ih (fun c y hc hy hcy => sel_trans hy hc hcy) hrest x hx hp)
    · rw [walk_last hlast] at h
      cases h
      intro x hx _
      exact (List.mem_filter.1 hx).2

/-- A row that ties with every selected row before it is shown. -/
theorem mem_walk_of_tie (hrows : rows.Pairwise K.lt) (hpos : 0 < limit) (hx : x ∈ rows) {n : Nat}
    {s : α → Bool} {out : List α} (hsx : s x = true)
    (htie : ∀ c, s c = true → K.lt c x → K.tie c x = true)
    (h : K.walk p limit rows n s = some out) : x ∈ out := by
  induction n generalizing s out with
  | zero => cases h
  | succ n ih =>
    have hmem : x ∈ rows.filter s := List.mem_filter.2 ⟨hx, hsx⟩
    rcases Nat.lt_or_ge limit (rows.filter s).length with hmore | hlast
    · rw [walk_more hmore (getLast?_take hpos hmore)] at h
      obtain ⟨rest, hrest, rfl⟩ := Option.map_eq_some_iff.1 h
      rw [← List.take_append_drop limit (rows.filter s)] at hmem
      rcases List.mem_append.1 hmem with hfirst | hlater
      · exact List.mem_append_left _ hfirst
      · have hb : s ((rows.filter s)[limit - 1]) = true :=
          (List.mem_filter.1 (List.getElem_mem _)).2
        have hlt := lt_of_mem_drop (hrows.sublist List.filter_sublist) hpos hmore hlater
        have hbx := htie _ hb hlt
        refine List.mem_append_right _ (ih (sel_of_tie hbx) ?_ hrest)
        intro c hc hcx
        exact K.tie_of_lt (reach_of_sel hc) hcx hbx
    · rw [walk_last hlast] at h
      cases h
      exact hmem

/-- A cursor after which the pages show the matching rows that are left is exact. -/
theorem exact_of_walk (hrows : rows.Pairwise K.lt) (hpos : 0 < limit) {i n : Nat}
    (hi : i < (rows.filter p).length)
    (h : K.walk p limit rows n (K.sel p (rows.filter p)[i]) =
      some ((rows.filter p).drop (i + 1))) : K.Exact p rows (rows.filter p)[i] where
  tie_matches x hx htie := by
    have hout := mem_walk_of_tie hrows hpos hx (sel_of_tie htie)
      (fun c hc hcx => K.tie_of_lt (reach_of_sel hc) hcx htie) h
    exact (List.mem_filter.1 (List.mem_of_mem_drop hout)).2
  reaches x hx hp hlt := by
    have hpair := hrows.sublist (List.filter_sublist (p := p))
    have hout : x ∈ (rows.filter p).drop (i + 1) := by
      obtain ⟨k, hk, rfl⟩ := List.mem_iff_getElem.1 (List.mem_filter.2 ⟨hx, hp⟩)
      rcases Nat.lt_or_ge i k with hik | hik
      · rw [List.mem_iff_getElem]
        refine ⟨k - (i + 1), by rw [List.length_drop]; omega, ?_⟩
        rw [List.getElem_drop]
        congr 1
        omega
      · rcases Nat.lt_or_ge k i with hki | hki
        · exact absurd (K.lt_trans hlt (List.pairwise_iff_getElem.1 hpair _ _ hk hi hki))
            (K.lt_irrefl _)
        · have : k = i := by omega
          subst this
          exact absurd hlt (K.lt_irrefl _)
    exact reach_of_sel (sel_of_walk hpos (fun c y hc hy hcy => sel_trans hy hc hcy) h x hout hp)

theorem exact_of_walk_all (hrows : rows.Pairwise K.lt) (hpos : 0 < limit) {s : α → Bool} {n : Nat}
    (j : Nat) (hs : rows.filter s = (rows.filter p).drop (j * limit))
    (h : K.walk p limit rows n s = some ((rows.filter p).drop (j * limit))) :
    K.ExactBoundaries p limit rows j := by
  induction n generalizing j s with
  | zero => cases h
  | succ n ih =>
    intro k hk hlen
    have hmul : (j + 1) * limit = j * limit + limit := Nat.succ_mul j limit
    have hmore : (j + 1) * limit < (rows.filter p).length :=
      Nat.lt_of_le_of_lt (Nat.mul_le_mul_right limit hk) hlen
    have hslen : limit < (rows.filter s).length := by
      rw [hs, List.length_drop]
      omega
    rw [walk_more hslen (boundary_eq hpos hs hmore)] at h
    obtain ⟨rest, hrest, happ⟩ := Option.map_eq_some_iff.1 h
    have hrest_eq : rest = (rows.filter p).drop ((j + 1) * limit) := by
      rw [hs, hmul, ← List.drop_drop] at *
      exact List.append_cancel_left (happ.trans (List.take_append_drop limit _).symm)
    subst hrest_eq
    have hsucc : (j + 1) * limit - 1 + 1 = (j + 1) * limit := Nat.sub_add_cancel (by omega)
    have hexact := exact_of_walk hrows hpos (i := (j + 1) * limit - 1) (by omega)
      (hrest.trans (by rw [hsucc]))
    have hnext := filter_sel hrows (by omega) hexact
    rw [hsucc] at hnext
    rcases Nat.lt_or_ge (j + 1) k with hjk | hjk
    · exact ih (j + 1) hnext hrest k hjk hlen
    · have : k = j + 1 := by omega
      subst this
      exact hexact

/-- The pages put together are the matching rows, each once and in order, exactly when the
cursor at the end of each full page is exact. -/
theorem walk_eq (K : Keyset α) (p : α → Bool) {limit : Nat} {rows : List α}
    (hrows : rows.Pairwise K.lt) (hpos : 0 < limit) :
    (∃ n, K.walk p limit rows n p = some (rows.filter p)) ↔
      K.ExactBoundaries p limit rows 0 := by
  have hs : rows.filter p = (rows.filter p).drop (0 * limit) := by simp
  constructor
  · rintro ⟨n, hn⟩
    exact exact_of_walk_all hrows hpos 0 hs (hn.trans (congrArg some hs))
  · intro h
    obtain ⟨n, hn⟩ := walk_of_exact hrows hpos 0 hs h
    exact ⟨n, hn.trans (congrArg some hs.symm)⟩

end Keyset

end Pagination
