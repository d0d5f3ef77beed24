import Mathlib.Data.BitVec
import Mathlib.Data.List.Basic

/-!
# Streams of bits

`low v n` are the lowest `n` bits of a word, the highest first. A stream of symbols of `w` bits
each is the concatenation of their bits, and it determines the symbols, up to what is too short
to be one (`symbols_unique`). `shl` and `ushr` are the shifts of JavaScript, whose words have 32
bits and whose shift counts are taken modulo 32.
-/

set_option autoImplicit false

namespace Bits

/-! ## The lowest bits -/

def low {w : Nat} (v : BitVec w) : Nat → List Bool
  | 0 => []
  | n + 1 => v.getLsbD n :: low v n

section

variable {w w' : Nat} {v : BitVec w} {u : BitVec w'}

@[simp] theorem length_low (n : Nat) : (low v n).length = n := by
  induction n with
  | zero => rfl
  | succ n ih => rw [low, List.length_cons, ih]

theorem low_congr {n : Nat} (h : ∀ i < n, v.getLsbD i = u.getLsbD i) : low v n = low u n := by
  induction n with
  | zero => rfl
  | succ n ih => rw [low, low, h n (by omega), ih fun i hi => h i (by omega)]

theorem getLsbD_of_low {n : Nat} (h : low v n = low u n) : ∀ i < n, v.getLsbD i = u.getLsbD i := by
  induction n with
  | zero => intro i hi; omega
  | succ n ih =>
    obtain ⟨hn, hrest⟩ := List.cons.inj h
    intro i hi
    by_cases hin : i = n
    · rw [hin]
      exact hn
    · exact ih hrest i (by omega)

theorem low_injective {v u : BitVec w} (h : low v w = low u w) : v = u :=
  BitVec.eq_of_getLsbD_eq fun i hi => getLsbD_of_low h i hi

/-- The upper bits, and the `n` lowest. -/
theorem low_add (m n : Nat) : low v (m + n) = low (v >>> n) m ++ low v n := by
  induction m with
  | zero => rw [Nat.zero_add]; rfl
  | succ m ih =>
    rw [Nat.succ_add, low, ih, low, BitVec.getLsbD_ushiftRight, Nat.add_comm n m]
    rfl

/-- The bits that are shifted in below. -/
theorem low_shiftLeft_or {n k : Nat} {u : BitVec w} (hn : n + k ≤ w) (hu : u.toNat < 2 ^ k) :
    low (v <<< k ||| u) (n + k) = low v n ++ low u k := by
  have hzero : ∀ i, k ≤ i → u.getLsbD i = false := fun i hi =>
    Nat.testBit_lt_two_pow (lt_of_lt_of_le hu (Nat.pow_le_pow_right (by decide) hi))
  rw [low_add]
  congr 1
  · refine low_congr fun i hi => ?_
    rw [BitVec.getLsbD_ushiftRight, BitVec.getLsbD_or, BitVec.getLsbD_shiftLeft,
      hzero (k + i) (by omega)]
    have : k + i < w := by omega
    simp [this]
  · refine low_congr fun i hi => ?_
    rw [BitVec.getLsbD_or, BitVec.getLsbD_shiftLeft]
    simp [hi]

theorem low_zero (n : Nat) : low (0 : BitVec w) n = List.replicate n false := by
  induction n with
  | zero => rfl
  | succ n ih => rw [low, ih, List.replicate_succ]; simp

theorem low_setWidth {n k : Nat} (h : n ≤ k) : low (v.setWidth k) n = low v n := by
  refine low_congr fun i hi => ?_
  have : i < k := by omega
  simp [this]

end

/-! ## Symbols -/

section

variable {w : Nat}

/-- The bits of a stream of symbols. -/
def stream (vs : List (BitVec w)) : List Bool := vs.flatMap fun v => low v w

@[simp] theorem stream_nil : stream ([] : List (BitVec w)) = [] := rfl

@[simp] theorem stream_cons (v : BitVec w) (vs : List (BitVec w)) :
    stream (v :: vs) = low v w ++ stream vs := rfl

@[simp] theorem stream_append (vs us : List (BitVec w)) :
    stream (vs ++ us) = stream vs ++ stream us := List.flatMap_append

@[simp] theorem length_stream (vs : List (BitVec w)) : (stream vs).length = w * vs.length := by
  induction vs with
  | nil => simp
  | cons v vs ih => rw [stream_cons, List.length_append, length_low, ih, List.length_cons,
      Nat.mul_succ, Nat.add_comm]

theorem stream_injective {vs us : List (BitVec w)} (hlen : vs.length = us.length)
    (h : stream vs = stream us) : vs = us := by
  induction vs generalizing us with
  | nil => exact (List.length_eq_zero_iff.1 hlen.symm).symm
  | cons v vs ih =>
    cases us with
    | nil => cases hlen
    | cons u us =>
      rw [stream_cons, stream_cons] at h
      obtain ⟨hhead, htail⟩ := List.append_inj h (by simp)
      rw [low_injective hhead, ih (Nat.succ.inj hlen) htail]

/-- Streams that agree up to less than one symbol are the same. -/
theorem symbols_unique {vs us : List (BitVec w)} {r r' : List Bool} (hr : r.length < w)
    (hr' : r'.length < w) (h : stream vs ++ r = stream us ++ r') : vs = us ∧ r = r' := by
  have hlen : vs.length = us.length := by
    have hsum := congrArg List.length h
    rw [List.length_append, List.length_append, length_stream, length_stream] at hsum
    have hdiv := congrArg (· / w) hsum
    simp only [Nat.mul_add_div (by omega : 0 < w), Nat.div_eq_of_lt hr, Nat.div_eq_of_lt hr',
      Nat.add_zero] at hdiv
    exact hdiv
  obtain ⟨hs, hrest⟩ := List.append_inj h (by simp [hlen])
  exact ⟨stream_injective hlen hs, hrest⟩

end

/-! ## The shifts of JavaScript -/

/-- `v << k`. -/
def shl (v : BitVec 32) (k : Nat) : BitVec 32 := v <<< (k % 32)

/-- `v >>> k`. -/
def ushr (v : BitVec 32) (k : Nat) : BitVec 32 := v >>> (k % 32)

theorem shl_of_lt {v : BitVec 32} {k : Nat} (h : k < 32) : shl v k = v <<< k := by
  rw [shl, Nat.mod_eq_of_lt h]

theorem ushr_of_lt {v : BitVec 32} {k : Nat} (h : k < 32) : ushr v k = v >>> k := by
  rw [ushr, Nat.mod_eq_of_lt h]

end Bits
