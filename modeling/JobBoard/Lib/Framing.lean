import Mathlib.Data.List.Basic
import Mathlib.Algebra.Group.Nat.Defs

/-!
# Length-prefixed chunks

`toBytes w n` are the `w` bytes of `n`, the highest first. A chunk is framed by its length in `w`
bytes. `Framed w bytes chunks`: the bytes are cut into the frames of the chunks. They are in at most
one way (`Framed.unique`), and `receive` is the reader that stops at the first empty chunk.
-/

set_option autoImplicit false

namespace Framing

/-! ## Big-endian numbers -/

def toBytes : Nat → Nat → List UInt8
  | 0, _ => []
  | w + 1, n => toBytes w (n / 256) ++ [UInt8.ofNat n]

def ofBytes (bs : List UInt8) : Nat := bs.foldl (fun n b => 256 * n + b.toNat) 0

section

variable {w n : Nat}

@[simp] theorem length_toBytes (w n : Nat) : (toBytes w n).length = w := by
  induction w generalizing n with
  | zero => rfl
  | succ w ih => rw [toBytes, List.length_append, ih, List.length_singleton]

theorem ofBytes_snoc (bs : List UInt8) (b : UInt8) :
    ofBytes (bs ++ [b]) = 256 * ofBytes bs + b.toNat := by
  rw [ofBytes, List.foldl_append]
  rfl

theorem ofBytes_toBytes (h : n < 256 ^ w) : ofBytes (toBytes w n) = n := by
  induction w generalizing n with
  | zero =>
    rw [Nat.pow_zero] at h
    obtain rfl : n = 0 := by omega
    rfl
  | succ w ih =>
    have hdiv : n / 256 < 256 ^ w := Nat.div_lt_of_lt_mul (by rwa [Nat.pow_succ'] at h)
    rw [toBytes, ofBytes_snoc, ih hdiv, UInt8.toNat_ofNat']
    omega

end

/-! ## Chunks -/

def frame (w : Nat) (chunk : List UInt8) : List UInt8 := toBytes w chunk.length ++ chunk

/-- The bytes are the headers and contents of the chunks. -/
inductive Framed (w : Nat) : List UInt8 → List (List UInt8) → Prop where
  | nil : Framed w [] []
  | cons {header chunk rest : List UInt8} {chunks : List (List UInt8)} (hwidth : header.length = w)
      (hsize : ofBytes header = chunk.length) (hrest : Framed w rest chunks) :
      Framed w (header ++ (chunk ++ rest)) (chunk :: chunks)

section

variable {w : Nat} {bytes chunk rest : List UInt8} {chunks chunks' : List (List UInt8)}

theorem Framed.frame (h : chunk.length < 256 ^ w) (hrest : Framed w rest chunks) :
    Framed w (frame w chunk ++ rest) (chunk :: chunks) := by
  rw [Framing.frame, List.append_assoc]
  exact .cons (length_toBytes w _) (ofBytes_toBytes h) hrest

theorem framed_frames (h : ∀ c ∈ chunks, c.length < 256 ^ w) (hrest : Framed w rest chunks') :
    Framed w (chunks.flatMap (frame w) ++ rest) (chunks ++ chunks') := by
  induction chunks with
  | nil => exact hrest
  | cons c chunks ih =>
    rw [List.flatMap_cons, List.append_assoc]
    exact .frame (h c List.mem_cons_self) (ih fun c' hc' => h c' (List.mem_cons_of_mem c hc'))

/-- Bytes are cut into chunks in one way. -/
theorem Framed.unique (hw : 0 < w) (h : Framed w bytes chunks) (h' : Framed w bytes chunks') :
    chunks = chunks' := by
  induction h generalizing chunks' with
  | nil =>
    generalize hb : ([] : List UInt8) = bytes at h'
    cases h' with
    | nil => rfl
    | @cons header _ _ _ hwidth =>
      obtain ⟨rfl, -⟩ := List.append_eq_nil_iff.1 hb.symm
      rw [← hwidth] at hw
      exact absurd hw (Nat.lt_irrefl 0)
  | @cons header chunk rest chunks hwidth hsize _ ih =>
    generalize hb : header ++ (chunk ++ rest) = bytes at h'
    cases h' with
    | nil =>
      obtain ⟨rfl, -⟩ := List.append_eq_nil_iff.1 hb
      rw [← hwidth] at hw
      exact absurd hw (Nat.lt_irrefl 0)
    | @cons header' chunk' rest' chunks'' hwidth' hsize' hrest' =>
      obtain ⟨rfl, hbody⟩ := List.append_inj hb (hwidth.trans hwidth'.symm)
      obtain ⟨rfl, rfl⟩ := List.append_inj hbody (hsize.symm.trans hsize')
      rw [ih hrest']

end

/-! ## A reader -/

/-- Chunks are read until one is empty: the content of those before it, and the bytes behind. -/
def receive (w : Nat) : Nat → List UInt8 → Option (List UInt8 × List UInt8)
  | 0, _ => none
  | fuel + 1, bytes =>
    if bytes.length < w then none
    else
      let size := ofBytes (bytes.take w)
      let rest := bytes.drop w
      if size = 0 then some ([], rest)
      else if rest.length < size then none
      else (receive w fuel (rest.drop size)).map fun r => (rest.take size ++ r.1, r.2)

section

variable {w fuel : Nat} {chunk rest : List UInt8} {chunks : List (List UInt8)}

theorem receive_frame (h : chunk.length < 256 ^ w) (hne : chunk ≠ []) :
    receive w (fuel + 1) (frame w chunk ++ rest) =
      (receive w fuel rest).map fun r => (chunk ++ r.1, r.2) := by
  have hsize : chunk.length ≠ 0 := fun hzero => hne (List.length_eq_zero_iff.1 hzero)
  have hheader : ¬ w + (chunk.length + rest.length) < w := by omega
  have hbody : ¬ chunk.length + rest.length < chunk.length := by omega
  simp [receive, frame, ofBytes_toBytes h, hsize, hheader, hbody]

theorem receive_stop : receive w (fuel + 1) (frame w [] ++ rest) = some ([], rest) := by
  have hzero : ofBytes (toBytes w 0) = 0 := ofBytes_toBytes (Nat.pow_pos (by decide))
  simp [receive, frame, hzero]

/-- The reader gets what was framed, and stops at the first empty chunk. -/
theorem receive_frames (h : ∀ c ∈ chunks, c.length < 256 ^ w) (hne : ∀ c ∈ chunks, c ≠ [])
    (hfuel : chunks.length < fuel) :
    receive w fuel (chunks.flatMap (frame w) ++ (frame w [] ++ rest)) =
      some (chunks.flatten, rest) := by
  induction chunks generalizing fuel with
  | nil =>
    obtain ⟨fuel, rfl⟩ := Nat.exists_eq_succ_of_ne_zero (Nat.ne_of_gt hfuel)
    exact receive_stop
  | cons c chunks ih =>
    obtain ⟨fuel, rfl⟩ := Nat.exists_eq_succ_of_ne_zero (Nat.ne_of_gt (Nat.zero_lt_of_lt hfuel))
    rw [List.flatMap_cons, List.append_assoc, receive_frame (h c List.mem_cons_self)
      (hne c List.mem_cons_self)]
    rw [ih (fun c' hc' => h c' (List.mem_cons_of_mem c hc'))
      (fun c' hc' => hne c' (List.mem_cons_of_mem c hc')) (Nat.lt_of_succ_lt_succ hfuel)]
    rfl

end

end Framing
