import Mathlib.Data.List.DropRight
import Mathlib.Data.List.TakeWhile

/-!
# Internet addresses as text

IPv4 and IPv6 addresses, the text that a URL shows them as, and the two recognisers
`isIPv4` and `isIPv6`. The text of an IPv6 address has its first longest run of at least two
zero groups replaced by `::`. Each recogniser accepts the texts of its own addresses.
-/

set_option autoImplicit false

namespace Net

abbrev Text := List Char

/-! ## Addresses -/

structure Ipv4 where
  a : Fin 256
  b : Fin 256
  c : Fin 256
  d : Fin 256
  deriving DecidableEq, Repr

namespace Ipv4

def octets (v : Ipv4) : List (Fin 256) := [v.a, v.b, v.c, v.d]

end Ipv4

/-- Eight groups of 16 bits. -/
structure Ipv6 where
  groups : List Nat
  length_eq : groups.length = 8
  group_lt : ∀ g ∈ groups, g < 65536
  deriving DecidableEq, Repr

namespace Ipv6

/-- `::ffff:0:0/96`, with `v` in the low bits. -/
def mapped (v : Ipv4) : Ipv6 where
  groups := [0, 0, 0, 0, 0, 65535, v.a * 256 + v.b, v.c * 256 + v.d]
  length_eq := rfl
  group_lt := by
    intro g hg
    have := v.a.isLt
    have := v.b.isLt
    have := v.c.isLt
    have := v.d.isLt
    simp only [List.mem_cons, List.not_mem_nil, or_false] at hg
    omega

end Ipv6

/-! ## Ranges -/

namespace Ipv4

/-- 127.0.0.0/8 -/
def Loopback (v : Ipv4) : Prop := v.a = 127

/-- 10.0.0.0/8, 172.16.0.0/12 and 192.168.0.0/16 -/
def Private (v : Ipv4) : Prop :=
  v.a = 10 ∨ (v.a = 172 ∧ 16 ≤ v.b ∧ v.b ≤ 31) ∨ (v.a = 192 ∧ v.b = 168)

/-- 169.254.0.0/16 -/
def LinkLocal (v : Ipv4) : Prop := v.a = 169 ∧ v.b = 254

/-- The addresses of carrier-grade NAT, 100.64.0.0/10 -/
def SharedSpace (v : Ipv4) : Prop := v.a = 100 ∧ 64 ≤ v.b ∧ v.b ≤ 127

/-- 224.0.0.0/4 -/
def Multicast (v : Ipv4) : Prop := 224 ≤ v.a ∧ v.a ≤ 239

def Unspecified (v : Ipv4) : Prop := v = ⟨0, 0, 0, 0⟩

def Internal (v : Ipv4) : Prop :=
  v.Loopback ∨ v.Private ∨ v.LinkLocal ∨ v.SharedSpace ∨ v.Multicast ∨ v.Unspecified

end Ipv4

namespace Ipv6

def Loopback (w : Ipv6) : Prop := w.groups = [0, 0, 0, 0, 0, 0, 0, 1]

/-- fe80::/10 -/
def LinkLocal (w : Ipv6) : Prop := ∃ g ∈ w.groups.head?, 0xfe80 ≤ g ∧ g ≤ 0xfebf

/-- fc00::/7 -/
def UniqueLocal (w : Ipv6) : Prop := ∃ g ∈ w.groups.head?, 0xfc00 ≤ g ∧ g ≤ 0xfdff

/-- ff00::/8 -/
def Multicast (w : Ipv6) : Prop := ∃ g ∈ w.groups.head?, 0xff00 ≤ g

def Unspecified (w : Ipv6) : Prop := w.groups = [0, 0, 0, 0, 0, 0, 0, 0]

def MapsInternal (w : Ipv6) : Prop := ∃ v : Ipv4, v.Internal ∧ w = mapped v

def Internal (w : Ipv6) : Prop :=
  w.Loopback ∨ w.LinkLocal ∨ w.UniqueLocal ∨ w.Multicast ∨ w.Unspecified ∨ w.MapsInternal

end Ipv6

/-! ## Their texts -/

def octetText (n : Fin 256) : Text := Nat.toDigits 10 n

def Ipv4.text (v : Ipv4) : Text := ['.'].intercalate (v.octets.map octetText)

def hex (g : Nat) : Text := Nat.toDigits 16 g

def groupsText (gs : List Nat) : Text := [':'].intercalate (gs.map hex)

/-- The length of the run of zeros that the list starts with. -/
def zeros (gs : List Nat) : Nat := (gs.takeWhile (· == 0)).length

/-- The better of the run at `i` and the best run before: the first longest one of at least
two groups. -/
def longerRun (gs : List Nat) (best : Nat × Nat) (i : Nat) : Nat × Nat :=
  if 1 < zeros (gs.drop i) ∧ best.2 < zeros (gs.drop i) then (i, zeros (gs.drop i)) else best

/-- Where the run that is left out starts, and its length: 0 when there is none. -/
def longestRun (gs : List Nat) : Nat × Nat := (List.range gs.length).foldl (longerRun gs) (0, 0)

def Ipv6.text (w : Ipv6) : Text :=
  let (i, n) := longestRun w.groups
  if n = 0 then groupsText w.groups
  else groupsText (w.groups.take i) ++ ':' :: ':' :: groupsText (w.groups.drop (i + n))

/-! ## The recognisers -/

def isDigit (c : Char) : Bool := '0' ≤ c && c ≤ '9'

def isHexDigit (c : Char) : Bool := isDigit c || ('a' ≤ c && c ≤ 'f') || ('A' ≤ c && c ≤ 'F')

/-- `25[0-5]|2[0-4]\d|1\d\d|[1-9]\d|\d` -/
def isOctet (s : Text) : Bool :=
  s ≠ [] && s.all isDigit && (s.length = 1 || s.head? ≠ some '0') &&
    Nat.ofDigitChars 10 s 0 ≤ 255

def isIPv4 (s : Text) : Bool :=
  let parts := s.splitOn '.'
  parts.length = 4 && parts.all isOctet

/-- `[0-9a-fA-F]{1,4}` -/
def isGroup (s : Text) : Bool := s ≠ [] && s.length ≤ 4 && s.all isHexDigit

/-- The number of 16-bit groups that the parts stand for; the last may be an IPv4 address. -/
def countGroups (tail : Bool) : List Text → Option Nat
  | [] => some 0
  | [s] => if isGroup s then some 1 else if tail && isIPv4 s then some 2 else none
  | s :: rest => if isGroup s then (countGroups tail rest).map (· + 1) else none

/-- What stands before and after the first `::`. -/
def cut : Text → Option (Text × Text)
  | ':' :: ':' :: rest => some ([], rest)
  | c :: rest => (cut rest).map fun (l, r) => (c :: l, r)
  | [] => none

def parts (s : Text) : List Text := if s = [] then [] else s.splitOn ':'

/-- Eight groups, or fewer than eight around one `::`. -/
def isIPv6Body (s : Text) : Bool :=
  match cut s with
  | none => countGroups true (parts s) = some 8
  | some (l, r) =>
    match countGroups false (parts l), countGroups true (parts r) with
    | some m, some n => m + n ≤ 7
    | _, _ => false

def isZoneChar (c : Char) : Bool :=
  isDigit c || ('a' ≤ c && c ≤ 'z') || ('A' ≤ c && c ≤ 'Z') || c == '-' || c == '.' || c == ':'

/-- An address, and possibly `%` and a zone. -/
def isIPv6 (s : Text) : Bool :=
  isIPv6Body (s.takeWhile (· ≠ '%')) &&
    match s.dropWhile (· ≠ '%') with
    | [] => true
    | _ :: zone => zone ≠ [] && zone.all isZoneChar

/-- 4, 6, or 0 for a text that is no address. -/
def isIP (s : Text) : Nat := if isIPv4 s then 4 else if isIPv6 s then 6 else 0

/-! ## Digits -/

section

variable {b n g : Nat} {c : Char} {gs : List Nat} {s r : Text}

theorem mem_toDigits (hb : 1 < b) (hc : c ∈ Nat.toDigits b n) : ∃ d < b, c = Nat.digitChar d := by
  induction n using Nat.strong_induction_on with
  | _ n ih =>
    rw [Nat.toDigits_eq_if hb] at hc
    split at hc
    · next hn => exact ⟨n, hn, List.mem_singleton.1 hc⟩
    · next hn =>
      rcases List.mem_append.1 hc with hc | hc
      · exact ih (n / b) (Nat.div_lt_self (by omega) hb) hc
      · exact ⟨n % b, Nat.mod_lt n (by omega), List.mem_singleton.1 hc⟩

theorem octetText_spec : ∀ n : Fin 256, isOctet (octetText n) = true ∧ '.' ∉ octetText n := by
  decide +kernel

theorem hexDigit_spec : ∀ d < 16, isHexDigit (Nat.digitChar d) = true ∧
    Nat.digitChar d ∉ [':', '.', '%'] := by decide

theorem mem_hex (hc : c ∈ hex g) : ∃ d < 16, c = Nat.digitChar d := mem_toDigits (by omega) hc

theorem not_mem_hex (hc : c ∈ [':', '.', '%']) : c ∉ hex g := by
  intro hmem
  obtain ⟨d, hd, rfl⟩ := mem_hex hmem
  exact (hexDigit_spec d hd).2 hc

theorem hex_ne_nil : hex g ≠ [] := Nat.toDigits_ne_nil

theorem isGroup_hex (hg : g < 65536) : isGroup (hex g) = true := by
  have hlen : (hex g).length ≤ 4 := (Nat.length_toDigits_le_iff (by omega) (by omega)).2 hg
  simp only [isGroup, Bool.and_eq_true, decide_eq_true_eq, List.all_eq_true]
  refine ⟨⟨hex_ne_nil, hlen⟩, fun c hc => ?_⟩
  obtain ⟨d, hd, rfl⟩ := mem_hex hc
  exact (hexDigit_spec d hd).1

/-- A group whose first digit is not left out. -/
theorem hex_four (h : 4096 ≤ g) (hg : g < 65536) : hex g =
    [Nat.digitChar (g / 4096), Nat.digitChar (g / 256 % 16), Nat.digitChar (g / 16 % 16),
      Nat.digitChar (g % 16)] := by
  have h₁ : g / 16 / 16 = g / 256 := by omega
  have h₂ : g / 256 / 16 = g / 4096 := by omega
  rw [hex, Nat.toDigits_of_base_le (by omega) (by omega),
    Nat.toDigits_of_base_le (by omega) (by omega), h₁,
    Nat.toDigits_of_base_le (by omega) (by omega), h₂, Nat.toDigits_of_lt_base (by omega)]
  rfl

/-! ## IPv4 -/

theorem Ipv4.splitOn_text (v : Ipv4) : v.text.splitOn '.' = v.octets.map octetText := by
  refine List.splitOn_intercalate '.' ?_ (by simp [Ipv4.octets])
  intro l hl
  obtain ⟨n, -, rfl⟩ := List.mem_map.1 hl
  exact (octetText_spec n).2

theorem Ipv4.text_head (v : Ipv4) : ∃ rest, v.text = octetText v.a ++ rest := by
  simp only [Ipv4.text, Ipv4.octets, List.map_cons, List.intercalate_cons_cons, List.append_assoc]
  exact ⟨_, rfl⟩

theorem isIPv4_text (v : Ipv4) : isIPv4 v.text = true := by
  simp only [isIPv4, v.splitOn_text, Bool.and_eq_true, decide_eq_true_eq, List.all_eq_true]
  refine ⟨rfl, fun l hl => ?_⟩
  obtain ⟨n, -, rfl⟩ := List.mem_map.1 hl
  exact (octetText_spec n).1

/-- An IPv4 address has dots. -/
theorem isIPv4_of_not_mem (h : '.' ∉ s) : isIPv4 s = false := by
  have hsplit : s.splitOn '.' = [s] := List.splitOn_eq_singleton h
  simp [isIPv4, hsplit]

/-! ## Groups -/

theorem groupsText_cons (g' : Nat) :
    groupsText (g :: g' :: gs) = hex g ++ ':' :: groupsText (g' :: gs) := by
  simp only [groupsText, List.map_cons, List.intercalate_cons_cons, List.append_assoc,
    List.singleton_append]

theorem groupsText_singleton : groupsText [g] = hex g := by
  simp only [groupsText, List.map_cons, List.map_nil, List.intercalate_singleton]

theorem mem_groupsText (hc : c ∈ groupsText gs) : c = ':' ∨ ∃ d < 16, c = Nat.digitChar d := by
  induction gs with
  | nil => cases hc
  | cons g gs ih =>
    cases gs with
    | nil =>
      rw [groupsText_singleton] at hc
      exact .inr (mem_hex hc)
    | cons g' gs =>
      rw [groupsText_cons] at hc
      rcases List.mem_append.1 hc with hc | hc
      · exact .inr (mem_hex hc)
      · rcases List.mem_cons.1 hc with rfl | hc
        · exact .inl rfl
        · exact ih hc

theorem groupsText_head (g : Nat) (gs : List Nat) : ∃ rest, groupsText (g :: gs) = hex g ++ rest := by
  cases gs with
  | nil => exact ⟨[], by rw [groupsText_singleton, List.append_nil]⟩
  | cons g' gs => exact ⟨_, groupsText_cons g'⟩

theorem parts_groupsText : parts (groupsText gs) = gs.map hex := by
  cases gs with
  | nil => rfl
  | cons g gs =>
    obtain ⟨rest, hrest⟩ := groupsText_head g gs
    have hne : groupsText (g :: gs) ≠ [] := by simp [hrest, hex_ne_nil]
    rw [parts, if_neg hne]
    refine List.splitOn_intercalate ':' ?_ (by simp)
    intro l hl
    obtain ⟨x, -, rfl⟩ := List.mem_map.1 hl
    exact not_mem_hex (by simp)

theorem countGroups_hex (tail : Bool) (hgs : ∀ g ∈ gs, g < 65536) :
    countGroups tail (gs.map hex) = some gs.length := by
  induction gs with
  | nil => rfl
  | cons g gs ih =>
    have hg : isGroup (hex g) = true := isGroup_hex (hgs g List.mem_cons_self)
    have ih := ih fun x hx => hgs x (List.mem_cons_of_mem _ hx)
    cases gs with
    | nil => simp [countGroups, hg]
    | cons g' gs =>
      rw [List.map_cons, List.map_cons, countGroups.eq_3 _ _ _ (by simp), if_pos hg,
        ← List.map_cons, ih]
      rfl

/-! ## The first double colon -/

theorem cut_cons (hc : c ≠ ':') : cut (c :: r) = (cut r).map fun (x, y) => (c :: x, y) := by
  rw [cut.eq_2]
  exact fun _ h _ => hc h

theorem cut_colon (hc : c ≠ ':') :
    cut (':' :: c :: r) = (cut (c :: r)).map fun (x, y) => (':' :: x, y) := by
  rw [cut.eq_2]
  intro _ _ h
  exact hc (List.cons.inj h).1

theorem cut_append (h : ':' ∉ s) : cut (s ++ r) = (cut r).map fun (x, y) => (s ++ x, y) := by
  induction s with
  | nil => simp
  | cons c s ih =>
    have hc : c ≠ ':' := fun e => h (e ▸ List.mem_cons_self)
    rw [List.cons_append, cut_cons hc, ih fun hs => h (List.mem_cons_of_mem _ hs), Option.map_map]
    rfl

/-- The first `::` after groups is the one that follows them. -/
theorem cut_groupsText (gs : List Nat) (r : Text) :
    cut (groupsText gs ++ r) = (cut r).map fun (x, y) => (groupsText gs ++ x, y) := by
  induction gs with
  | nil => simp [groupsText]
  | cons g gs ih =>
    cases gs with
    | nil => rw [groupsText_singleton, cut_append (not_mem_hex (by simp))]
    | cons g' gs =>
      -- a single colon, after which comes the first digit of `g'`
      obtain ⟨rest, hrest⟩ := groupsText_head g' gs
      obtain ⟨c, cs, hcs⟩ := List.exists_cons_of_ne_nil (hex_ne_nil : hex g' ≠ [])
      have hc : c ≠ ':' := by
        rintro rfl
        exact not_mem_hex (by simp) (hcs ▸ List.mem_cons_self)
      have hcons : groupsText (g' :: gs) = c :: (cs ++ rest) := by rw [hrest, hcs]; rfl
      rw [groupsText_cons, List.append_assoc, cut_append (not_mem_hex (by simp)), List.cons_append,
        hcons, List.cons_append, cut_colon hc, ← List.cons_append, ← hcons, ih]
      cases cut r <;> simp

/-! ## The run that is left out -/

theorem zeros_le : zeros gs ≤ gs.length := (List.takeWhile_sublist _).length_le

/-- The run that is left out is one of at least two zeros. -/
theorem longestRun_spec (gs : List Nat) : (longestRun gs).2 = 0 ∨
    1 < (longestRun gs).2 ∧ (longestRun gs).2 = zeros (gs.drop (longestRun gs).1) := by
  unfold longestRun
  refine List.foldlRecOn (motive := fun best => best.2 = 0 ∨
    1 < best.2 ∧ best.2 = zeros (gs.drop best.1)) (List.range gs.length) (longerRun gs) ?_ ?_
  · exact .inl rfl
  intro best hbest i _
  unfold longerRun
  split
  · next h => exact .inr ⟨h.1, rfl⟩
  · exact hbest

theorem longestRun_le (h : (longestRun gs).2 ≠ 0) :
    (longestRun gs).1 + (longestRun gs).2 ≤ gs.length := by
  obtain ⟨hlt, heq⟩ := (longestRun_spec gs).resolve_left h
  have hle : zeros (gs.drop (longestRun gs).1) ≤ gs.length - (longestRun gs).1 :=
    List.length_drop ▸ zeros_le
  omega

theorem longestRun_head (hg : g ≠ 0) (h : (longestRun (g :: gs)).2 ≠ 0) :
    (longestRun (g :: gs)).1 ≠ 0 := by
  obtain ⟨hlt, heq⟩ := (longestRun_spec (g :: gs)).resolve_left h
  intro hzero
  rw [hzero, List.drop_zero, zeros, List.takeWhile_cons_of_neg (by simpa using hg)] at heq
  rw [heq] at hlt
  cases hlt

/-- No run of the list is longer than the best one. -/
theorem foldl_longerRun {best : Nat × Nat} {is : List Nat}
    (h : ∀ i ∈ is, zeros (gs.drop i) ≤ best.2) : is.foldl (longerRun gs) best = best := by
  induction is with
  | nil => rfl
  | cons i is ih =>
    have hi : longerRun gs best i = best :=
      if_neg fun hlt => absurd (h i List.mem_cons_self) (Nat.not_le_of_lt hlt.2)
    rw [List.foldl_cons, hi, ih fun j hj => h j (List.mem_cons_of_mem _ hj)]

theorem longestRun_mapped (v : Ipv4) : longestRun (Ipv6.mapped v).groups = (0, 5) := by
  have hfirst : longerRun (Ipv6.mapped v).groups (0, 0) 0 = (0, 5) := by
    simp [longerRun, zeros, Ipv6.mapped]
  have hrange : List.range (Ipv6.mapped v).groups.length = [0, 1, 2, 3, 4, 5, 6, 7] := by
    rw [(Ipv6.mapped v).length_eq]
    rfl
  rw [longestRun, hrange, List.foldl_cons, hfirst]
  refine foldl_longerRun fun i hi => ?_
  by_cases h : i < 3
  · -- the rest of the run at 0
    have hi' : i = 1 ∨ i = 2 := by
      simp only [List.mem_cons, List.not_mem_nil, or_false] at hi
      omega
    rcases hi' with rfl | rfl <;> simp [zeros, Ipv6.mapped]
  · have hle : zeros ((Ipv6.mapped v).groups.drop i) ≤ 8 - i := by
      rw [← (Ipv6.mapped v).length_eq, ← List.length_drop]
      exact zeros_le
    exact Nat.le_trans hle (by omega)

end

/-! ## IPv6 -/

namespace Ipv6

variable {w : Ipv6} {c : Char}

theorem text_mapped (v : Ipv4) : (mapped v).text =
    "::ffff:".toList ++ groupsText [v.a * 256 + v.b, v.c * 256 + v.d] := by
  unfold text
  rw [longestRun_mapped]
  rfl

/-- The text starts with the first group, if that is not zero. -/
theorem text_head {g : Nat} {gs : List Nat} (hw : w.groups = g :: gs) (hg : g ≠ 0) :
    ∃ rest, w.text = hex g ++ rest := by
  unfold text
  rw [hw]
  dsimp only
  split
  · exact groupsText_head g gs
  · next h =>
    obtain ⟨i, hi⟩ := Nat.exists_eq_succ_of_ne_zero (longestRun_head hg h)
    obtain ⟨rest, hrest⟩ := groupsText_head g (gs.take i)
    rw [hi, List.take_succ_cons, hrest, List.append_assoc]
    exact ⟨_, rfl⟩

theorem mem_text (hc : c ∈ w.text) : c = ':' ∨ ∃ d < 16, c = Nat.digitChar d := by
  unfold text at hc
  dsimp only at hc
  split at hc
  · exact mem_groupsText hc
  · rcases List.mem_append.1 hc with hc | hc
    · exact mem_groupsText hc
    · rcases List.mem_cons.1 hc with hc | hc
      · exact .inl hc
      · rcases List.mem_cons.1 hc with hc | hc
        · exact .inl hc
        · exact mem_groupsText hc

theorem not_mem_text (hc : c ∈ ['.', '%']) : c ∉ w.text := by
  intro hmem
  rcases mem_text hmem with rfl | ⟨d, hd, rfl⟩
  · exact absurd hc (by decide)
  · exact (hexDigit_spec d hd).2 (List.mem_cons_of_mem _ hc)

theorem text_of_none (h : (longestRun w.groups).2 = 0) : w.text = groupsText w.groups := if_pos h

theorem text_of_run (h : (longestRun w.groups).2 ≠ 0) : w.text =
    groupsText (w.groups.take (longestRun w.groups).1) ++ ':' :: ':' ::
      groupsText (w.groups.drop ((longestRun w.groups).1 + (longestRun w.groups).2)) := if_neg h

theorem isIPv6Body_text (w : Ipv6) : isIPv6Body w.text = true := by
  have hcount (gs : List Nat) (hgs : ∀ g ∈ gs, g ∈ w.groups) (tail : Bool) :
      countGroups tail (parts (groupsText gs)) = some gs.length := by
    rw [parts_groupsText]
    exact countGroups_hex tail fun g hg => w.group_lt g (hgs g hg)
  by_cases h : (longestRun w.groups).2 = 0
  · have hcut : cut (groupsText w.groups) = none := by
      have := cut_groupsText w.groups []
      rwa [List.append_nil] at this
    rw [text_of_none h, isIPv6Body, hcut]
    simp only [hcount w.groups fun _ hg => hg, w.length_eq, decide_true]
  · have hle := longestRun_le h
    have hlen := w.length_eq
    have htwo := ((longestRun_spec w.groups).resolve_left h).1
    rw [text_of_run h, isIPv6Body, cut_groupsText]
    simp only [cut, Option.map_some, List.append_nil,
      hcount _ fun _ hg => List.mem_of_mem_take hg, hcount _ fun _ hg => List.mem_of_mem_drop hg,
      List.length_take, List.length_drop, decide_eq_true_eq]
    omega

theorem isIPv6_text (w : Ipv6) : isIPv6 w.text = true := by
  have hall : ∀ c ∈ w.text, decide (c ≠ '%') = true := by
    intro c hc
    refine decide_eq_true ?_
    rintro rfl
    exact not_mem_text (by simp) hc
  have htake : w.text.takeWhile (· ≠ '%') = w.text := List.takeWhile_eq_self_iff.2 hall
  have hdrop : w.text.dropWhile (· ≠ '%') = [] := List.dropWhile_eq_nil_iff.2 hall
  rw [isIPv6, htake, hdrop, isIPv6Body_text]
  rfl

theorem isIP_text (w : Ipv6) : isIP w.text = 6 := by
  rw [isIP, isIPv4_of_not_mem (not_mem_text (by simp)), isIPv6_text]
  rfl

end Ipv6

theorem Ipv4.isIP_text (v : Ipv4) : isIP v.text = 4 := by
  rw [isIP, isIPv4_text]
  rfl

end Net
