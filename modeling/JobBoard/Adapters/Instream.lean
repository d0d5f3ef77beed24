import JobBoard.Adapters.ClamavFileScanner
import JobBoard.Lib.Framing

/-!
# The stream to clamd

What `scan` of `clamav-file-scanner.adapter.ts` writes once it is connected: the command, the file
in chunks of 64 KiB at most, each behind its length in four bytes, and an empty chunk. The daemon
reads the whole file and nothing else (`stream_frames`, `stream_received`).
-/

set_option autoImplicit false

namespace JobBoard.ClamavFileScannerAdapter

open Framing

abbrev Buffer := List UInt8

def chunkSize : Nat := 64 * 1024

/-- `zINSTREAM\0`. -/
def command : Buffer := "zINSTREAM\x00".toList.map fun c => UInt8.ofNat c.toNat

/-- `Buffer.subarray`, clamped at the end. -/
def subarray (buffer : Buffer) (start stop : Nat) : Buffer := (buffer.take stop).drop start

structure RangeError where
  value : Nat
  deriving DecidableEq, Repr

/-- `Buffer.alloc(4)` and `writeUInt32BE(value, 0)`. -/
def writeUInt32BE (value : Nat) : Except RangeError Buffer :=
  if value < 2 ^ 32 then .ok (toBytes 4 value) else .error ⟨value⟩

/-- The loop, and what it has passed to `socket.write`. -/
structure Writer where
  offset : Nat
  writes : List Buffer
  deriving DecidableEq, Repr

/-- The `for` loop; `none` when it is not over after `fuel` tests of its condition. -/
def writeChunks (buffer : Buffer) : Nat → Writer → Option (Except RangeError Writer)
  | 0, _ => none
  | fuel + 1, w =>
    if w.offset < buffer.length then
      let chunk := subarray buffer w.offset (w.offset + chunkSize)
      match writeUInt32BE chunk.length with
      | .error e => some (.error e)
      | .ok size => writeChunks buffer fuel ⟨w.offset + chunkSize, w.writes ++ [size, chunk]⟩
    else some (.ok w)

/-- The handler of `connect`. -/
def stream (buffer : Buffer) (fuel : Nat) : Option (Except RangeError (List Buffer)) :=
  (writeChunks buffer fuel ⟨0, [command]⟩).map (Except.map fun w => w.writes ++ [[0, 0, 0, 0]])

/-! ## The loop -/

/-- The turns of the loop for so many bytes. -/
def turns (length : Nat) : Nat := (length + (chunkSize - 1)) / chunkSize

/-- The writes of a chunk. -/
def written (chunk : Buffer) : List Buffer := [toBytes 4 chunk.length, chunk]

/-- The chunks of the bytes that are left. -/
structure Chunks (left : Buffer) (data : List Buffer) : Prop where
  whole : data.flatten = left
  sizes : ∀ c ∈ data, 1 ≤ c.length ∧ c.length ≤ chunkSize
  count : data.length = turns left.length

section

variable {buffer : Buffer} {data : List Buffer} {fuel : Nat}

theorem turns_zero : turns 0 = 0 := by decide

theorem turns_step {length : Nat} (h : 0 < length) :
    turns length = turns (length - chunkSize) + 1 := by
  unfold turns chunkSize
  omega

theorem Chunks.nil : Chunks [] [] := ⟨rfl, nofun, turns_zero.symm⟩

theorem Chunks.cons {left : Buffer} (hne : left ≠ []) (h : Chunks (left.drop chunkSize) data) :
    Chunks left (left.take chunkSize :: data) := by
  have hpos : 0 < left.length := List.length_pos_iff.2 hne
  constructor
  · rw [List.flatten_cons, h.whole, List.take_append_drop]
  · intro c hc
    rcases List.mem_cons.1 hc with rfl | hc
    · have hchunk : 0 < chunkSize := by decide
      rw [List.length_take]
      omega
    · exact h.sizes c hc
  · rw [List.length_cons, h.count, List.length_drop, turns_step hpos]

theorem writeUInt32BE_chunk {chunk : Buffer} (h : chunk.length ≤ chunkSize) :
    writeUInt32BE chunk.length = .ok (toBytes 4 chunk.length) := by
  have hlt : chunk.length < 2 ^ 32 := Nat.lt_of_le_of_lt h (by decide)
  rw [writeUInt32BE, if_pos hlt]

theorem subarray_chunk (buffer : Buffer) (offset : Nat) :
    subarray buffer offset (offset + chunkSize) = (buffer.drop offset).take chunkSize := by
  rw [subarray, List.drop_take, Nat.add_sub_cancel_left]

theorem writeChunks_step {w : Writer} (h : w.offset < buffer.length) :
    writeChunks buffer (fuel + 1) w = writeChunks buffer fuel
      ⟨w.offset + chunkSize, w.writes ++ written ((buffer.drop w.offset).take chunkSize)⟩ := by
  have hsize := writeUInt32BE_chunk (List.length_take_le chunkSize (buffer.drop w.offset))
  simp only [writeChunks, if_pos h, subarray_chunk, hsize]
  rfl

/-- The loop is over after as many turns as there are chunks. -/
theorem writeChunks_chunks (buffer : Buffer) (w : Writer) : ∃ data offset,
    Chunks (buffer.drop w.offset) data ∧ ∀ fuel, data.length < fuel →
      writeChunks buffer fuel w = some (.ok ⟨offset, w.writes ++ data.flatMap written⟩) := by
  generalize hleft : buffer.length - w.offset = left
  induction left using Nat.strongRecOn generalizing w with
  | ind left ih =>
    by_cases hlt : w.offset < buffer.length
    · have hchunk : 0 < chunkSize := by decide
      have hne : buffer.drop w.offset ≠ [] := by
        rw [Ne, List.drop_eq_nil_iff]
        omega
      obtain ⟨data, offset, hdata, hrun⟩ := ih (buffer.length - (w.offset + chunkSize)) (by omega)
        ⟨w.offset + chunkSize, w.writes ++ written ((buffer.drop w.offset).take chunkSize)⟩ rfl
      rw [← List.drop_drop] at hdata
      refine ⟨_, offset, hdata.cons hne, fun fuel hfuel => ?_⟩
      obtain ⟨fuel, rfl⟩ := Nat.exists_eq_succ_of_ne_zero (Nat.ne_of_gt (Nat.zero_lt_of_lt hfuel))
      rw [writeChunks_step hlt, hrun fuel (Nat.lt_of_succ_lt_succ hfuel), List.flatMap_cons,
        List.append_assoc]
    · refine ⟨[], w.offset, ?_, fun fuel hfuel => ?_⟩
      · rw [List.drop_eq_nil_of_le (Nat.le_of_not_lt hlt)]
        exact .nil
      · obtain ⟨fuel, rfl⟩ := Nat.exists_eq_succ_of_ne_zero (Nat.ne_of_gt hfuel)
        rw [writeChunks, if_neg hlt, List.flatMap_nil, List.append_nil]

/-! ## What the daemon gets -/

theorem flatten_written (data : List Buffer) :
    (data.flatMap written).flatten = data.flatMap (frame 4) := by
  induction data with
  | nil => rfl
  | cons c data ih =>
    rw [List.flatMap_cons, List.flatMap_cons, List.flatten_append, ih]
    simp only [written, frame, List.flatten_cons, List.flatten_nil, List.append_nil]

/-- The handler has written the command, the chunks of the file and an empty one. -/
theorem stream_chunks (buffer : Buffer) : ∃ data, Chunks buffer data ∧
    ∀ fuel, turns buffer.length < fuel →
      stream buffer fuel = some (.ok (command :: (data.flatMap written ++ [[0, 0, 0, 0]]))) := by
  obtain ⟨data, offset, hdata, hrun⟩ := writeChunks_chunks buffer ⟨0, [command]⟩
  refine ⟨data, hdata, fun fuel hfuel => ?_⟩
  rw [stream, hrun fuel (by rw [hdata.count]; exact hfuel)]
  rfl

theorem Chunks.small (h : Chunks buffer data) : ∀ c ∈ data, c.length < 256 ^ 4 :=
  fun c hc => Nat.lt_of_le_of_lt (h.sizes c hc).2 (by decide)

theorem Chunks.framed (h : Chunks buffer data) :
    Framed 4 (data.flatMap written ++ [[0, 0, 0, 0]]).flatten (data ++ [[]]) := by
  have hstop : Framed 4 (frame 4 [] ++ []) [[]] := .frame (Nat.pow_pos (by decide)) .nil
  rw [List.flatten_append, flatten_written]
  exact framed_frames h.small hstop

/-- For every file the loop ends, and what it has written is cut into chunks in one way: data
chunks of 1 to 65536 bytes that make up the file, and an empty chunk at the end. -/
theorem stream_frames (buffer : Buffer) : ∃ data body : List Buffer,
    (∀ fuel, turns buffer.length < fuel → stream buffer fuel = some (.ok (command :: body))) ∧
    (∀ chunks, Framed 4 body.flatten chunks ↔ chunks = data ++ [[]]) ∧
    data.flatten = buffer ∧ (∀ c ∈ data, 1 ≤ c.length ∧ c.length ≤ 64 * 1024) ∧
    data.length = (buffer.length + (64 * 1024 - 1)) / (64 * 1024) := by
  obtain ⟨data, hdata, hrun⟩ := stream_chunks buffer
  refine ⟨data, _, hrun, fun chunks => ⟨fun h => ?_, ?_⟩, hdata.whole, hdata.sizes, hdata.count⟩
  · exact h.unique (by decide) hdata.framed
  · rintro rfl
    exact hdata.framed

example : stream [7, 8, 9] 2 =
    some (.ok [command, [0, 0, 0, 3], [7, 8, 9], [0, 0, 0, 0]]) := by decide

/-- A daemon that reads to the first empty chunk gets the file, and nothing is left. -/
theorem stream_received (buffer : Buffer) {fuel : Nat} {writes : List Buffer}
    (h : stream buffer (turns buffer.length + 1) = some (.ok (command :: writes)))
    (hfuel : turns buffer.length < fuel) :
    receive 4 fuel writes.flatten = some (buffer, []) := by
  obtain ⟨data, hdata, hrun⟩ := stream_chunks buffer
  rw [hrun _ (Nat.lt_succ_self _)] at h
  cases h
  have hne : ∀ c ∈ data, c ≠ [] := by
    rintro c hc rfl
    exact absurd (hdata.sizes [] hc).1 (by decide)
  have hreceive : receive 4 fuel (data.flatMap (frame 4) ++ (frame 4 [] ++ [])) =
      some (data.flatten, []) :=
    receive_frames hdata.small hne (by rw [hdata.count]; exact hfuel)
  rw [hdata.whole] at hreceive
  rw [List.flatten_append, flatten_written]
  exact hreceive

end

end JobBoard.ClamavFileScannerAdapter
