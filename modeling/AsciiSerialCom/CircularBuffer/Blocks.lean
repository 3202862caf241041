import AsciiSerialCom.CircularBuffer.Contents

/-!
# Blocks of a circular buffer

The operations that move several elements at once copy from or into contiguous
memory.  The first block is a prefix of the contents; a block read from a file
descriptor is the same as single pushes.

`circular_buffer_get_blocks_uint8` splits a range of the contents where the
memory ends.  It does so correctly as long as the range starts before that
point; behind it, the size of the first block wraps below zero and the block
reaches far beyond the memory.
-/

namespace AsciiSerialCom
namespace CircularBufferUint8

open Foundation
open Foundation.StateError
open Foundation.RingMemory

variable {buf : CircularBufferUint8}

/-!
## Ranges of the contents
-/

/-- The bytes of several blocks, one block after the other. -/
def readBlocks (buf : CircularBufferUint8) :
    List (Nat × Nat) -> Except Failure (List UInt8)
  | [] => .ok []
  | block :: rest => do
      let bytes ← buf.readBlock block
      let others ← buf.readBlocks rest
      return bytes ++ others

/-- A range of the contents is a window of the memory. -/
theorem contents_range {s n : Nat} (h : s + n <= buf.size) :
    (buf.contents.drop s).take n =
      window 0 buf.buffer (buf.iStart + s) n := by
  rw [contents, drop_window _ _ _ _ _ (by omega),
    take_window _ _ _ _ _ (by omega)]

theorem getBlocks_of_le (hwf : buf.WellFormed)
    (hcap : buf.capacity <= 2 ^ 63) {s n : Nat} (h : s + n <= buf.size)
    (hstart : buf.iStart + s <= buf.capacity) :
    buf.getBlocks s n =
      if buf.capacity < buf.iStart + s + n then
        .ok [(buf.iStart + s, buf.capacity - (buf.iStart + s)),
          (0, n - (buf.capacity - (buf.iStart + s)))]
      else
        .ok [(buf.iStart + s, n)] := by
  have hle := hwf.size_le
  have hlt := hwf.iStart_lt
  have hadd (a b : Nat) (hab : a + b < 2 ^ 64) : sizeAdd a b = a + b :=
    Nat.mod_eq_of_lt hab
  have hsub (a b : Nat) (hba : b <= a) (ha : a < 2 ^ 64) :
      sizeSub a b = a - b := by
    rw [sizeSub, sizeModulus, show 2 ^ 64 + a - b = a - b + 2 ^ 64 by omega,
      Nat.add_mod_right, Nat.mod_eq_of_lt (by omega)]
  unfold getBlocks
  rw [hadd s n (by omega), getSize, if_neg (by omega),
    hadd buf.iStart s (by omega), hadd _ n (by omega)]
  simp only [decide_eq_true_eq]
  split
  · rename_i hwrap
    rw [hsub buf.capacity buf.iStart (by omega) (by omega),
      hsub _ s (by omega) (by omega), Nat.sub_sub,
      hsub n _ (by omega) (by omega)]
  · rfl

/-- **A range that starts before the end of the memory is read exactly.** -/
theorem readBlocks_getBlocks (hwf : buf.WellFormed)
    (hcap : buf.capacity <= 2 ^ 63) {s n : Nat} (h : s + n <= buf.size)
    (hstart : buf.iStart + s <= buf.capacity) :
    exists blocks, buf.getBlocks s n = .ok blocks ∧
      buf.readBlocks blocks = .ok ((buf.contents.drop s).take n) := by
  have hlen := hwf.buffer_length
  have hle := hwf.size_le
  have hlt := hwf.iStart_lt
  have hslice (start k : Nat) (hk : start + k <= buf.capacity) :
      buf.readBlock (start, k) = .ok (window 0 buf.buffer start k) := by
    rw [readBlock, if_pos (by rw [hlen]; exact hk), cells,
      window_eq_slice _ _ _ _ (by omega)]
  rw [getBlocks_of_le hwf hcap h hstart, contents_range h]
  by_cases hwrap : buf.capacity < buf.iStart + s + n
  · rw [if_pos hwrap]
    refine ⟨_, rfl, ?_⟩
    have hsplit := window_append 0 buf.buffer (buf.iStart + s)
      (buf.capacity - (buf.iStart + s))
      (n - (buf.capacity - (buf.iStart + s)))
    have hback : window 0 buf.buffer
        (buf.iStart + s + (buf.capacity - (buf.iStart + s)))
        (n - (buf.capacity - (buf.iStart + s))) =
        window 0 buf.buffer 0 (n - (buf.capacity - (buf.iStart + s))) := by
      rw [show buf.iStart + s + (buf.capacity - (buf.iStart + s)) =
        buf.buffer.length by omega, ← window_mod_start, Nat.mod_self]
    rw [hback, show buf.capacity - (buf.iStart + s) +
      (n - (buf.capacity - (buf.iStart + s))) = n by omega] at hsplit
    rw [readBlocks, hslice _ _ (by omega), readBlocks, hslice _ _ (by omega),
      hsplit]
    simp [readBlocks, bind, Except.bind, pure, Except.pure]
  · rw [if_neg hwrap]
    refine ⟨_, rfl, ?_⟩
    rw [readBlocks, hslice _ _ (by omega)]
    simp [readBlocks, bind, Except.bind, pure, Except.pure]

/-- **A range that starts behind the end of the memory is not.** -/
theorem readBlocks_getBlocks_of_lt (hwf : buf.WellFormed)
    (hcap : buf.capacity <= 2 ^ 63) {s n : Nat} (h : s + n <= buf.size)
    (hstart : buf.capacity < buf.iStart + s) :
    exists blocks, buf.getBlocks s n = .ok blocks ∧
      buf.readBlocks blocks = .error .outOfBounds := by
  have hlen := hwf.buffer_length
  have hle := hwf.size_le
  have hlt := hwf.iStart_lt
  have hadd (a b : Nat) (hab : a + b < 2 ^ 64) : sizeAdd a b = a + b :=
    Nat.mod_eq_of_lt hab
  have hsize0 : sizeSub (sizeSub buf.capacity buf.iStart) s =
      2 ^ 64 - (buf.iStart + s - buf.capacity) := by
    have hfirst : sizeSub buf.capacity buf.iStart =
        buf.capacity - buf.iStart := by
      rw [sizeSub, sizeModulus,
        show 2 ^ 64 + buf.capacity - buf.iStart =
          buf.capacity - buf.iStart + 2 ^ 64 by omega,
        Nat.add_mod_right, Nat.mod_eq_of_lt (by omega)]
    rw [hfirst, sizeSub, sizeModulus, Nat.mod_eq_of_lt (by omega)]
    omega
  unfold getBlocks
  rw [hadd s n (by omega), getSize, if_neg (by omega),
    hadd buf.iStart s (by omega), hadd _ n (by omega)]
  simp only [decide_eq_true_eq]
  rw [if_pos (by omega), hsize0]
  refine ⟨_, rfl, ?_⟩
  rw [readBlocks, readBlock, if_neg (by simp only; omega)]
  rfl

/-!
## The first block
-/

theorem firstBlockSize_le (buf : CircularBufferUint8) :
    buf.firstBlockSize <= buf.size := by
  unfold firstBlockSize
  split <;> omega

theorem firstBlockSize_pos (h : buf.WellFormed) (hpos : 0 < buf.size) :
    0 < buf.firstBlockSize := by
  have hlt := h.iStart_lt
  unfold firstBlockSize
  split <;> omega

theorem getFirstBlock_eq_take (h : buf.WellFormed) :
    buf.getFirstBlock = buf.contents.take buf.firstBlockSize := by
  have hlen := h.buffer_length
  have hlt := h.iStart_lt
  have hle := buf.firstBlockSize_le
  have hfit : buf.iStart + buf.firstBlockSize <= buf.buffer.length := by
    unfold firstBlockSize
    split <;> omega
  rw [getFirstBlock, cells, contents, take_window _ _ _ _ _ hle,
    window_eq_slice _ _ _ _ hfit]

@[simp] theorem dropFromFirstBlock_capacity (n : Nat)
    (buf : CircularBufferUint8) :
    (buf.dropFromFirstBlock n).capacity = buf.capacity := by
  unfold dropFromFirstBlock
  simp only
  split <;> rfl

theorem dropFromFirstBlock_wellFormed (h : buf.WellFormed) {n : Nat}
    (hn : n <= buf.size) : (buf.dropFromFirstBlock n).WellFormed := by
  have hcap := h.capacity_pos
  have hle := h.size_le
  unfold dropFromFirstBlock
  simp only
  split
  · rename_i hzero
    constructor <;> simp only [hzero]
    · exact h.capacity_pow
    · omega
    · exact hcap
    · simp
    · exact h.buffer_length
  · constructor <;> simp only [h.and_mask]
    · exact h.capacity_pow
    · omega
    · exact Nat.mod_lt _ hcap
    · rw [h.iStop_eq, Nat.mod_add_mod]
      congr 1
      omega
    · exact h.buffer_length

theorem dropFromFirstBlock_contents (h : buf.WellFormed) {n : Nat}
    (hn : n <= buf.size) :
    (buf.dropFromFirstBlock n).contents = buf.contents.drop n := by
  have hdrop : buf.contents.drop n =
      window 0 buf.buffer (buf.iStart + n) (buf.size - n) :=
    drop_window _ _ _ _ _ hn
  rw [hdrop]
  unfold dropFromFirstBlock
  simp only
  split
  · rename_i hzero
    rw [contents, hzero, window_zero, window_zero]
  · rw [contents]
    simp only [h.and_mask]
    rw [← h.buffer_length, window_mod_start]

theorem deleteFirstBlock_of_wellFormed (h : buf.WellFormed) :
    exists buf', deleteFirstBlock buf = .ok buf.firstBlockSize buf' ∧
      buf'.WellFormed ∧ buf'.capacity = buf.capacity ∧
      buf'.contents = buf.contents.drop buf.firstBlockSize := by
  have hle := h.size_le
  have hlt := h.iStart_lt
  unfold deleteFirstBlock firstBlockSize
  by_cases hwrap : buf.capacity < buf.iStart + buf.size
  · have hpop : buf.capacity - buf.iStart <= buf.size := by omega
    rw [if_pos hwrap, if_pos hwrap]
    simp only
    rw [bind_of_ok (popFrontN_of_le h hpop)]
    exact ⟨_, rfl, dropFrontN_wellFormed h hpop, dropFrontN_capacity _ _,
      dropFrontN_contents h hpop⟩
  · rw [if_neg hwrap, if_neg hwrap]
    refine ⟨_, rfl, clear_wellFormed h, rfl, ?_⟩
    rw [clear_contents, List.drop_of_length_le (by simp)]

/-!
## Pushing several elements
-/

theorem pushBackBlock_nil (buf : CircularBufferUint8) :
    buf.pushBackBlock [] = buf := rfl

theorem pushBackBlock_cons (x : UInt8) (source : List UInt8)
    (buf : CircularBufferUint8) :
    buf.pushBackBlock (x :: source) =
      (buf.pushBack x).pushBackBlock source := rfl

theorem pushBackBlock_wellFormed (h : buf.WellFormed) (source : List UInt8) :
    (buf.pushBackBlock source).WellFormed := by
  induction source generalizing buf with
  | nil => exact h
  | cons x source ih => exact ih (pushBack_wellFormed h x)

theorem pushBackBlock_capacity (buf : CircularBufferUint8)
    (source : List UInt8) :
    (buf.pushBackBlock source).capacity = buf.capacity := by
  induction source generalizing buf with
  | nil => rfl
  | cons x source ih =>
      rw [pushBackBlock_cons, ih, pushBack_capacity]

/-- The fields after a push, in the form that adds up. -/
theorem pushBack_eq (h : buf.WellFormed) (x : UInt8) :
    buf.pushBack x =
      { capacity := buf.capacity
        size := min (buf.size + 1) buf.capacity
        iStart := (buf.iStart + (buf.size + 1 - buf.capacity)) % buf.capacity
        iStop := (buf.iStop + 1) % buf.capacity
        buffer := buf.buffer.set buf.iStop x } := by
  have hle := h.size_le
  by_cases hfull : buf.size = buf.capacity
  · simp [pushBack, incIStop, incIStart, hfull, h.and_mask]
  · have hstart :
        (buf.iStart + (buf.size + 1 - buf.capacity)) % buf.capacity =
          buf.iStart := by
      rw [Nat.sub_eq_zero_of_le (by omega), Nat.add_zero,
        Nat.mod_eq_of_lt h.iStart_lt]
    rw [hstart, Nat.min_eq_left (by omega)]
    simp only [pushBack, incIStop, hfull, if_false, h.and_mask]

/-- The fields after pushes that stay before the end of the memory. -/
theorem pushBackBlock_eq (h : buf.WellFormed) {source : List UInt8}
    (hfit : buf.iStop + source.length <= buf.capacity) :
    buf.pushBackBlock source =
      { capacity := buf.capacity
        size := min (buf.size + source.length) buf.capacity
        iStart :=
          (buf.iStart + (buf.size + source.length - buf.capacity)) %
            buf.capacity
        iStop := (buf.iStop + source.length) % buf.capacity
        buffer := writeCells buf.buffer buf.iStop source } := by
  have hle := h.size_le
  induction source generalizing buf with
  | nil =>
      have hstart : buf.iStart % buf.capacity = buf.iStart :=
        Nat.mod_eq_of_lt h.iStart_lt
      have hstop : buf.iStop % buf.capacity = buf.iStop :=
        Nat.mod_eq_of_lt h.iStop_lt
      rw [pushBackBlock_nil]
      simp only [List.length_nil, Nat.add_zero, writeCells, hstop,
        Nat.sub_eq_zero_of_le hle, hstart, Nat.min_eq_left hle]
  | cons x source ih =>
      have hwf := pushBack_wellFormed h x
      rw [pushBackBlock_cons]
      rw [List.length_cons] at hfit
      cases source with
      | nil =>
          rw [pushBackBlock_nil, pushBack_eq h]
          rfl
      | cons y source =>
          have hstop : (buf.iStop + 1) % buf.capacity = buf.iStop + 1 := by
            apply Nat.mod_eq_of_lt
            rw [List.length_cons] at hfit
            omega
          have hpush := pushBack_eq h x
          rw [hstop] at hpush
          have hrest := ih hwf (by rw [hpush]; simp only; omega)
            hwf.size_le
          rw [hrest, hpush]
          simp only [CircularBufferUint8.mk.injEq, true_and]
          refine ⟨by simp only [List.length_cons]; omega, ?_, ?_, rfl⟩
          · rw [Nat.mod_add_mod]
            simp only [List.length_cons]
            rcases Nat.lt_or_ge buf.size buf.capacity with hlt | hge
            · rw [show min (buf.size + 1) buf.capacity = buf.size + 1 by omega]
              congr 1
              omega
            · rw [show min (buf.size + 1) buf.capacity = buf.capacity by omega]
              congr 1
              omega
          · simp only [List.length_cons]
            congr 1
            omega

theorem blockSizeAvailable_fits (h : buf.WellFormed) :
    buf.iStop + buf.blockSizeAvailable <= buf.capacity := by
  have hstart := h.iStart_lt
  have hstop := h.iStop_lt
  unfold blockSizeAvailable
  split <;> omega

/-- **Reading a block from a file descriptor is pushing its bytes**, also on a
full buffer. -/
theorem pushBackFromFd_eq (h : buf.WellFormed) {bytes : List UInt8}
    (hfit : bytes.length <= buf.blockSizeAvailable) :
    pushBackFromFd (some bytes) buf =
      .ok bytes.length (buf.pushBackBlock bytes) := by
  have hle := h.size_le
  have hend := blockSizeAvailable_fits h
  rw [pushBackBlock_eq h (by omega)]
  simp only [pushBackFromFd, h.and_mask]
  split
  · rw [Nat.min_eq_right (by omega), Nat.add_sub_assoc (by omega)]
  · rw [Nat.min_eq_left (by omega), Nat.sub_eq_zero_of_le (by omega),
      Nat.add_zero, Nat.mod_eq_of_lt h.iStart_lt]

end CircularBufferUint8
end AsciiSerialCom
