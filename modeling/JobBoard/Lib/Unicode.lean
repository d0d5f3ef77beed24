import JobBoard.Lib.Regex

/-!
# Lower case and canonical decomposition

`toLowerCase` and `normalize('NFD')` over the tables of the Unicode standard: the lower case of a
character, its full canonical decomposition and its combining class. The tables are data of the
standard; `Unicode` holds them with what it says of ASCII, of white space and of the combining
accents U+0300 to U+036F. Only the lower case of a sigma depends on what stands around it.

A function of single characters under which all marks commute does not see how the marks of a
decomposition are ordered (`flatMap_reorder`).
-/

set_option autoImplicit false

open Regex

namespace Unicode

/-- A combining accent, U+0300 to U+036F. -/
def isAccent (c : Char) : Bool := 0x300 ≤ c.toNat && c.toNat ≤ 0x36F

def SIGMA : Char := 'Σ'

end Unicode

open Unicode (isAccent)

/-- The tables of the standard. -/
structure Unicode where
  /-- The lower case of a character other than the capital sigma. -/
  lower : Char → Text
  /-- Whether a capital sigma between the two texts ends its word. -/
  finalSigma : Text → Text → Bool
  decompose : Char → Text
  combiningClass : Char → Nat
  lower_ascii : ∀ c, c.toNat < 128 → lower c = [c.toLower]
  lower_space : ∀ c, isSpace c = true → lower c = [c]
  lower_accent : ∀ c, isAccent c = true → lower c = [c]
  decompose_ascii : ∀ c, c.toNat < 128 → decompose c = [c]
  decompose_space : ∀ c, isSpace c = true → decompose c ≠ [] ∧ ∀ d ∈ decompose c, isSpace d = true
  decompose_accent : ∀ c, isAccent c = true → ∀ d ∈ decompose c, isAccent d = true
  decompose_sigma : decompose 'σ' = ['σ'] ∧ decompose 'ς' = ['ς']
  class_ascii : ∀ c, c.toNat < 128 → combiningClass c = 0
  class_space : ∀ c, isSpace c = true → combiningClass c = 0

namespace Unicode

variable (u : Unicode)

/-! ## Lower case -/

def lowerFrom (before : Text) : Text → Text
  | [] => []
  | c :: after =>
    (if c = SIGMA then (if u.finalSigma before after then ['ς'] else ['σ']) else u.lower c) ++
      lowerFrom (before ++ [c]) after

def toLowerCase (text : Text) : Text := u.lowerFrom [] text

/-! ## Canonical decomposition -/

/-- A character before a text in canonical order: a mark moves behind the marks of a lower class
that follow it. -/
def insertMark (c : Char) : Text → Text
  | [] => [c]
  | d :: text =>
    if 0 < u.combiningClass d ∧ u.combiningClass d < u.combiningClass c then
      d :: insertMark c text
    else c :: d :: text

/-- Each run of marks, sorted by their classes. -/
def reorder : Text → Text
  | [] => []
  | c :: text => if u.combiningClass c = 0 then c :: reorder text else u.insertMark c (reorder text)

/-- `text.normalize('NFD')`. -/
def nfd (text : Text) : Text := u.reorder (text.flatMap u.decompose)

/-! ## What single characters give -/

section

variable {u} {β : Type} {f : Char → List β}

theorem flatMap_insertMark (hcomm : ∀ c d, u.combiningClass c ≠ 0 → u.combiningClass d ≠ 0 →
    f c ++ f d = f d ++ f c) {c : Char} (hc : u.combiningClass c ≠ 0) (text : Text) :
    (u.insertMark c text).flatMap f = f c ++ text.flatMap f := by
  induction text with
  | nil => rfl
  | cons d text ih =>
    unfold insertMark
    split
    · next h =>
      rw [List.flatMap_cons, ih, List.flatMap_cons, ← List.append_assoc, ← List.append_assoc,
        hcomm d c (by omega) hc]
    · rfl

theorem flatMap_reorder (hcomm : ∀ c d, u.combiningClass c ≠ 0 → u.combiningClass d ≠ 0 →
    f c ++ f d = f d ++ f c) (text : Text) : (u.reorder text).flatMap f = text.flatMap f := by
  induction text with
  | nil => rfl
  | cons c text ih =>
    unfold reorder
    split
    · rw [List.flatMap_cons, ih, List.flatMap_cons]
    · next hc => rw [flatMap_insertMark hcomm hc, ih, List.flatMap_cons]

/-- The decomposed lower case of a character, seen through `f`. -/
def seen (u : Unicode) (f : Char → List β) (c : Char) : List β :=
  (if c = SIGMA then ['σ'] else u.lower c).flatMap fun d => (u.decompose d).flatMap f

theorem flatMap_lowerFrom (hsigma : f 'ς' = f 'σ') (before text : Text) :
    (u.lowerFrom before text).flatMap (fun d => (u.decompose d).flatMap f) =
      text.flatMap (u.seen f) := by
  induction text generalizing before with
  | nil => rfl
  | cons c text ih =>
    rw [lowerFrom, List.flatMap_append, ih, List.flatMap_cons]
    congr 1
    unfold seen
    split
    · split
      · simp only [List.flatMap_singleton, u.decompose_sigma.1, u.decompose_sigma.2, hsigma]
      · rfl
    · rfl

/-- Through a function of single characters under which marks commute and both small sigmas are
the same, a text is seen character by character. -/
theorem flatMap_nfd_toLowerCase (hcomm : ∀ c d, u.combiningClass c ≠ 0 →
    u.combiningClass d ≠ 0 → f c ++ f d = f d ++ f c) (hsigma : f 'ς' = f 'σ') (text : Text) :
    (u.nfd (u.toLowerCase text)).flatMap f = text.flatMap (u.seen f) := by
  rw [nfd, flatMap_reorder hcomm, List.flatMap_assoc]
  exact flatMap_lowerFrom hsigma [] text

theorem ne_sigma_of_ascii {c : Char} (h : c.toNat < 128) : c ≠ SIGMA := by
  rintro rfl
  exact absurd h (by decide)

theorem seen_ascii {c : Char} (h : c.toNat < 128) (hlower : c.toLower.toNat < 128) :
    u.seen f c = f c.toLower := by
  rw [seen, if_neg (ne_sigma_of_ascii h), u.lower_ascii c h, List.flatMap_singleton,
    u.decompose_ascii _ hlower, List.flatMap_singleton]

theorem seen_accent (hf : ∀ d, isAccent d = true → f d = []) {c : Char}
    (h : isAccent c = true) : u.seen f c = [] := by
  have hne : c ≠ SIGMA := by
    rintro rfl
    exact absurd h (by decide)
  rw [seen, if_neg hne, u.lower_accent c h, List.flatMap_singleton, List.flatMap_eq_nil_iff]
  exact fun d hd => hf d (u.decompose_accent c h d hd)

/-- White space stays white space. -/
theorem seen_space {c : Char} (h : isSpace c = true) :
    ∃ ds : Text, ds ≠ [] ∧ (∀ d ∈ ds, isSpace d = true) ∧ u.seen f c = ds.flatMap f := by
  have hne : c ≠ SIGMA := by
    rintro rfl
    exact absurd h (by decide)
  refine ⟨u.decompose c, (u.decompose_space c h).1, (u.decompose_space c h).2, ?_⟩
  rw [seen, if_neg hne, u.lower_space c h, List.flatMap_singleton]

end

end Unicode
