import AsciiSerialCom.CircularBuffer.Basic
import AsciiSerialCom.Foundation.RingMemory

/-!
# Representation invariant and logical contents

The representation invariant of a circular buffer, its contents from front to
back, and for every operation one statement of what it does to the contents.
Later modules use these statements and never unfold an operation.
-/

namespace AsciiSerialCom
namespace CircularBufferUint8

open Foundation
open Foundation.StateError
open Foundation.RingMemory

/-- The representation invariant. -/
structure WellFormed (buf : CircularBufferUint8) : Prop where
  capacity_pow : exists k, buf.capacity = 2 ^ k
  size_le : buf.size <= buf.capacity
  iStart_lt : buf.iStart < buf.capacity
  iStop_eq : buf.iStop = (buf.iStart + buf.size) % buf.capacity
  buffer_length : buf.buffer.length = buf.capacity

/-- The elements from front to back. -/
def contents (buf : CircularBufferUint8) : List UInt8 :=
  window 0 buf.buffer buf.iStart buf.size

@[simp] theorem contents_length (buf : CircularBufferUint8) :
    buf.contents.length = buf.size := by
  simp [contents]

namespace WellFormed

variable {buf : CircularBufferUint8}

theorem capacity_pos (h : buf.WellFormed) : 0 < buf.capacity :=
  Nat.lt_of_le_of_lt (Nat.zero_le _) h.iStart_lt

theorem iStop_lt (h : buf.WellFormed) : buf.iStop < buf.capacity := by
  rw [h.iStop_eq]
  exact Nat.mod_lt _ h.capacity_pos

theorem and_mask (h : buf.WellFormed) (x : Nat) :
    x &&& (buf.capacity - 1) = x % buf.capacity := by
  rcases h.capacity_pow with ⟨k, hk⟩
  rw [hk, Nat.and_two_pow_sub_one_eq_mod]

end WellFormed

/-!
## Observers
-/

theorem getElement_of_getElem? {buf : CircularBufferUint8} (h : buf.WellFormed)
    {i : Nat} {b : UInt8} (hi : buf.contents[i]? = some b) :
    buf.getElement i = .ok b := by
  rcases List.getElem?_eq_some_iff.mp hi with ⟨hlt, hb⟩
  have hsize : i < buf.size := by simpa using hlt
  rw [getElement, getSize, if_neg (by omega), h.and_mask]
  rw [← hb]
  simp only [contents, window_getElem, h.buffer_length]

theorem getElement_of_size_le {buf : CircularBufferUint8} {i : Nat}
    (hi : buf.size <= i) :
    buf.getElement i = .error (.exception .cbOob) := by
  rw [getElement, getSize, if_pos hi]

theorem contents_eq_nil_iff (buf : CircularBufferUint8) :
    buf.contents = [] <-> buf.size = 0 := by
  rw [← List.length_eq_zero_iff, contents_length]

/-!
## Pushing
-/

theorem pushBack_wellFormed {buf : CircularBufferUint8} (h : buf.WellFormed)
    (x : UInt8) : (buf.pushBack x).WellFormed := by
  have hcap := h.capacity_pos
  have hle := h.size_le
  by_cases hfull : buf.size = buf.capacity
  · constructor <;>
      simp only [pushBack, incIStop, incIStart, hfull, if_true, h.and_mask,
        List.length_set]
    · exact h.capacity_pow
    · exact Nat.le_refl _
    · exact Nat.mod_lt _ hcap
    · rw [h.iStop_eq, hfull]
      simp [Nat.add_mod]
    · exact h.buffer_length
  · constructor <;>
      simp only [pushBack, incIStop, hfull, if_false, h.and_mask,
        List.length_set]
    · exact h.capacity_pow
    · omega
    · exact h.iStart_lt
    · rw [h.iStop_eq, Nat.mod_add_mod, Nat.add_assoc]
    · exact h.buffer_length

theorem pushBack_capacity (buf : CircularBufferUint8) (x : UInt8) :
    (buf.pushBack x).capacity = buf.capacity := by
  by_cases hfull : buf.size = buf.capacity <;>
    simp [pushBack, incIStop, incIStart, hfull]

/-- A push on a full buffer drops the front element. -/
theorem pushBack_contents {buf : CircularBufferUint8} (h : buf.WellFormed)
    (x : UInt8) :
    (buf.pushBack x).contents =
      if buf.size = buf.capacity then
        buf.contents.tail ++ [x]
      else
        buf.contents ++ [x] := by
  have hcap := h.capacity_pos
  have hle := h.size_le
  have hlen := h.buffer_length
  by_cases hfull : buf.size = buf.capacity
  · have hsize : buf.capacity = buf.buffer.length - 1 + 1 := by omega
    have hslot : buf.iStop =
        (buf.iStart + 1 + (buf.buffer.length - 1)) % buf.buffer.length := by
      rw [h.iStop_eq, hlen, hfull]
      congr 1
      omega
    simp only [pushBack, incIStop, incIStart, hfull, if_true, contents,
      h.and_mask]
    rw [← hlen]
    have hmod := window_mod_start 0 (buf.buffer.set buf.iStop x)
      (buf.iStart + 1) buf.buffer.length
    rw [List.length_set] at hmod
    rw [hmod, hslot]
    have hback := window_set_back 0 buf.buffer (buf.iStart + 1)
      (buf.buffer.length - 1) x (by omega)
    rw [show buf.buffer.length - 1 + 1 = buf.buffer.length by omega] at hback
    have htail : window 0 buf.buffer (buf.iStart + 1) (buf.buffer.length - 1) =
        (window 0 buf.buffer buf.iStart buf.buffer.length).tail := by
      rw [← List.drop_one, drop_window _ _ _ _ _ (by omega)]
    rw [hback, htail]
  · simp only [pushBack, incIStop, hfull, if_false, contents]
    rw [h.iStop_eq, ← hlen]
    exact window_set_back 0 buf.buffer buf.iStart buf.size x (by omega)

theorem decIStart_iStart {buf : CircularBufferUint8} (h : buf.WellFormed) :
    buf.decIStart.iStart = (buf.iStart + (buf.capacity - 1)) % buf.capacity := by
  have hlt := h.iStart_lt
  unfold decIStart
  split
  · rename_i hzero
    simp only [hzero, Nat.zero_add]
    exact (Nat.mod_eq_of_lt (by omega)).symm
  · rename_i hpos
    simp only [h.and_mask]
    rw [show buf.iStart + (buf.capacity - 1) =
      buf.iStart - 1 + buf.capacity by omega, Nat.add_mod_right]

theorem decIStop_iStop {buf : CircularBufferUint8} (h : buf.WellFormed) :
    buf.decIStop.iStop = (buf.iStop + (buf.capacity - 1)) % buf.capacity := by
  have hlt := h.iStop_lt
  unfold decIStop
  split
  · rename_i hzero
    simp only [hzero, Nat.zero_add]
    exact (Nat.mod_eq_of_lt (by omega)).symm
  · rename_i hpos
    simp only [h.and_mask]
    rw [show buf.iStop + (buf.capacity - 1) =
      buf.iStop - 1 + buf.capacity by omega, Nat.add_mod_right]

theorem decIStop_iStop_of_eq {buf other : CircularBufferUint8}
    (h : buf.WellFormed) (hstop : other.iStop = buf.iStop)
    (hcap : other.capacity = buf.capacity) :
    other.decIStop.iStop =
      (buf.iStop + (buf.capacity - 1)) % buf.capacity := by
  rw [← decIStop_iStop h]
  simp only [decIStop, hstop, hcap]
  split <;> rfl

@[simp] theorem decIStart_capacity (buf : CircularBufferUint8) :
    buf.decIStart.capacity = buf.capacity := by
  unfold decIStart
  split <;> rfl

@[simp] theorem decIStart_size (buf : CircularBufferUint8) :
    buf.decIStart.size = buf.size := by
  unfold decIStart
  split <;> rfl

@[simp] theorem decIStart_iStop (buf : CircularBufferUint8) :
    buf.decIStart.iStop = buf.iStop := by
  unfold decIStart
  split <;> rfl

@[simp] theorem decIStart_buffer (buf : CircularBufferUint8) :
    buf.decIStart.buffer = buf.buffer := by
  unfold decIStart
  split <;> rfl

@[simp] theorem decIStop_capacity (buf : CircularBufferUint8) :
    buf.decIStop.capacity = buf.capacity := by
  unfold decIStop
  split <;> rfl

@[simp] theorem decIStop_size (buf : CircularBufferUint8) :
    buf.decIStop.size = buf.size := by
  unfold decIStop
  split <;> rfl

@[simp] theorem decIStop_iStart (buf : CircularBufferUint8) :
    buf.decIStop.iStart = buf.iStart := by
  unfold decIStop
  split <;> rfl

@[simp] theorem decIStop_buffer (buf : CircularBufferUint8) :
    buf.decIStop.buffer = buf.buffer := by
  unfold decIStop
  split <;> rfl

theorem window_add_capacity {buf : CircularBufferUint8} (h : buf.WellFormed)
    (n : Nat) :
    window 0 buf.buffer (buf.iStart + buf.capacity) n =
      window 0 buf.buffer buf.iStart n := by
  rw [← h.buffer_length, ← window_mod_start, Nat.add_mod_right,
    window_mod_start]

theorem pushFront_wellFormed {buf : CircularBufferUint8} (h : buf.WellFormed)
    (x : UInt8) : (buf.pushFront x).WellFormed := by
  have hcap := h.capacity_pos
  have hle := h.size_le
  have hslot := decIStart_iStart h
  by_cases hfull : buf.size = buf.capacity
  · constructor <;>
      simp only [pushFront, decIStart_size, decIStart_capacity, hfull, if_true,
        decIStop_capacity, decIStop_size, decIStop_iStart, decIStop_buffer,
        List.length_set, decIStart_buffer]
    · exact h.capacity_pow
    · exact Nat.le_refl _
    · rw [hslot]
      exact Nat.mod_lt _ hcap
    · rw [decIStop_iStop_of_eq h, hslot, h.iStop_eq, hfull]
      · simp [Nat.add_mod, Nat.add_comm]
      · exact decIStart_iStop buf
      · rfl
    · exact h.buffer_length
  · constructor <;>
      simp only [pushFront, decIStart_size, decIStart_capacity, hfull, if_false,
        List.length_set, decIStart_buffer, decIStart_iStop]
    · exact h.capacity_pow
    · omega
    · rw [hslot]
      exact Nat.mod_lt _ hcap
    · rw [hslot, h.iStop_eq, Nat.mod_add_mod,
        show buf.iStart + (buf.capacity - 1) + (buf.size + 1) =
          buf.iStart + buf.size + buf.capacity by omega, Nat.add_mod_right]
    · exact h.buffer_length

theorem pushFront_capacity (buf : CircularBufferUint8) (x : UInt8) :
    (buf.pushFront x).capacity = buf.capacity := by
  by_cases hfull : buf.size = buf.capacity <;> simp [pushFront, hfull]

theorem pushFront_contents {buf : CircularBufferUint8} (h : buf.WellFormed)
    (x : UInt8) :
    (buf.pushFront x).contents =
      if buf.size = buf.capacity then
        x :: buf.contents.dropLast
      else
        x :: buf.contents := by
  have hcap := h.capacity_pos
  have hle := h.size_le
  have hlen := h.buffer_length
  have hslot := decIStart_iStart h
  have hnext : buf.iStart + (buf.capacity - 1) + 1 =
      buf.iStart + buf.capacity := by omega
  have hfront (n : Nat) (hn : n < buf.capacity) :
      window 0 (buf.buffer.set buf.decIStart.iStart x) buf.decIStart.iStart
          (n + 1) = x :: window 0 buf.buffer buf.iStart n := by
    have hset := window_set_front 0 buf.buffer
      (buf.iStart + (buf.capacity - 1)) n x (by omega)
    rw [hnext, window_add_capacity h, hlen, ← hslot] at hset
    rw [← hset, hslot, ← hlen]
    have hmod := window_mod_start 0
      (buf.buffer.set ((buf.iStart + (buf.buffer.length - 1)) %
        buf.buffer.length) x) (buf.iStart + (buf.buffer.length - 1)) (n + 1)
    rw [List.length_set] at hmod
    exact hmod
  by_cases hfull : buf.size = buf.capacity
  · have hkeep : buf.contents.dropLast =
        window 0 buf.buffer buf.iStart (buf.capacity - 1) := by
      rw [List.dropLast_eq_take, contents_length, contents, hfull,
        take_window _ _ _ _ _ (by omega)]
    have hpush := hfront (buf.capacity - 1) (by omega)
    rw [show buf.capacity - 1 + 1 = buf.capacity by omega] at hpush
    rw [if_pos hfull, hkeep, ← hpush]
    simp [pushFront, hfull, contents]
  · rw [if_neg hfull]
    have hpush := hfront buf.size (by omega)
    simpa [pushFront, hfull, contents] using hpush

/-!
## Popping
-/

/-- The buffer without its front element. -/
def dropFront (buf : CircularBufferUint8) : CircularBufferUint8 :=
  { buf.incIStart with size := buf.size - 1 }

theorem popFront_of_contents {buf : CircularBufferUint8} (h : buf.WellFormed)
    {b : UInt8} {rest : List UInt8} (hc : buf.contents = b :: rest) :
    popFront buf = .ok b buf.dropFront := by
  have hsize : buf.size = rest.length + 1 := by
    rw [← contents_length, hc, List.length_cons]
  have hhead : buf.buffer.getD buf.iStart 0 = b := by
    rw [contents, hsize, window_succ, h.buffer_length,
      Nat.mod_eq_of_lt h.iStart_lt] at hc
    exact (List.cons.inj hc).left
  unfold popFront
  rw [if_neg (by omega), hhead]
  rfl

theorem popFront_of_empty {buf : CircularBufferUint8}
    (hc : buf.contents = []) :
    popFront buf = .error (.exception .cbPopEmpty) buf := by
  rw [popFront, if_pos ((contents_eq_nil_iff buf).mp hc)]

theorem dropFront_wellFormed {buf : CircularBufferUint8} (h : buf.WellFormed)
    (hpos : 0 < buf.size) : buf.dropFront.WellFormed := by
  have hle := h.size_le
  constructor <;> simp only [dropFront, incIStart, h.and_mask]
  · exact h.capacity_pow
  · omega
  · exact Nat.mod_lt _ h.capacity_pos
  · rw [h.iStop_eq, Nat.mod_add_mod]
    congr 1
    omega
  · exact h.buffer_length

@[simp] theorem dropFront_capacity (buf : CircularBufferUint8) :
    buf.dropFront.capacity = buf.capacity := rfl

theorem dropFront_contents {buf : CircularBufferUint8} (h : buf.WellFormed) :
    buf.dropFront.contents = buf.contents.tail := by
  simp only [contents, dropFront, incIStart, h.and_mask]
  rw [← h.buffer_length, window_mod_start, ← List.drop_one]
  cases hsize : buf.size with
  | zero => simp
  | succ n =>
      rw [drop_window _ _ _ _ _ (by omega)]

/-- The buffer without its back element. -/
def dropBack (buf : CircularBufferUint8) : CircularBufferUint8 :=
  { buf.decIStop with size := buf.size - 1 }

theorem dropBack_wellFormed {buf : CircularBufferUint8} (h : buf.WellFormed)
    (hpos : 0 < buf.size) : buf.dropBack.WellFormed := by
  have hle := h.size_le
  have hslot := decIStop_iStop h
  constructor <;>
    simp only [dropBack, decIStop_capacity, decIStop_iStart, decIStop_buffer]
  · exact h.capacity_pow
  · omega
  · exact h.iStart_lt
  · rw [hslot, h.iStop_eq, Nat.mod_add_mod,
      show buf.iStart + buf.size + (buf.capacity - 1) =
        buf.iStart + (buf.size - 1) + buf.capacity by omega, Nat.add_mod_right]
  · exact h.buffer_length

@[simp] theorem dropBack_capacity (buf : CircularBufferUint8) :
    buf.dropBack.capacity = buf.capacity := by
  simp [dropBack]

theorem dropBack_contents {buf : CircularBufferUint8} :
    buf.dropBack.contents = buf.contents.dropLast := by
  rw [List.dropLast_eq_take, contents_length]
  simp only [contents, dropBack, decIStop_iStart, decIStop_buffer]
  rw [take_window _ _ _ _ _ (by omega)]

theorem popBack_of_contents {buf : CircularBufferUint8} (h : buf.WellFormed)
    {front : List UInt8} {b : UInt8} (hc : buf.contents = front ++ [b]) :
    popBack buf = .ok b buf.dropBack := by
  have hsize : buf.size = front.length + 1 := by
    rw [← contents_length, hc, List.length_append, List.length_singleton]
  have hlast : buf.buffer.getD buf.dropBack.iStop 0 = b := by
    have hstop := (dropBack_wellFormed h (by omega)).iStop_eq
    rw [dropBack_capacity] at hstop
    rw [hstop]
    simp only [dropBack, decIStop_iStart, hsize, Nat.add_sub_cancel]
    rw [contents, hsize, window_snoc, h.buffer_length] at hc
    have hlen : (window 0 buf.buffer buf.iStart front.length).length =
        front.length := window_length _ _ _ _
    have := (List.append_inj hc hlen).right
    simpa using this
  unfold popBack
  rw [if_neg (by omega)]
  simp only [dropBack, decIStop_buffer, decIStop_size] at hlast ⊢
  rw [hlast]

theorem popBack_of_empty {buf : CircularBufferUint8}
    (hc : buf.contents = []) :
    popBack buf = .error (.exception .cbPopEmpty) buf := by
  rw [popBack, if_pos ((contents_eq_nil_iff buf).mp hc)]

/-- The buffer after `n` pops from the front. -/
def dropFrontN : Nat -> CircularBufferUint8 -> CircularBufferUint8
  | 0, buf => buf
  | n + 1, buf => dropFrontN n buf.dropFront

theorem dropFront_size (buf : CircularBufferUint8) :
    buf.dropFront.size = buf.size - 1 := rfl

theorem dropFrontN_wellFormed {n : Nat} {buf : CircularBufferUint8}
    (h : buf.WellFormed) (hn : n <= buf.size) :
    (dropFrontN n buf).WellFormed := by
  induction n generalizing buf with
  | zero => exact h
  | succ n ih =>
      exact ih (dropFront_wellFormed h (by omega))
        (by rw [dropFront_size]; omega)

@[simp] theorem dropFrontN_capacity (n : Nat) (buf : CircularBufferUint8) :
    (dropFrontN n buf).capacity = buf.capacity := by
  induction n generalizing buf with
  | zero => rfl
  | succ n ih => exact ih buf.dropFront

theorem dropFrontN_contents {n : Nat} {buf : CircularBufferUint8}
    (h : buf.WellFormed) (hn : n <= buf.size) :
    (dropFrontN n buf).contents = buf.contents.drop n := by
  induction n generalizing buf with
  | zero => rfl
  | succ n ih =>
      rw [dropFrontN, ih (dropFront_wellFormed h (by omega))
        (by rw [dropFront_size]; omega), dropFront_contents h,
        ← List.drop_one, List.drop_drop, Nat.add_comm]

theorem popFrontN_of_le {n : Nat} {buf : CircularBufferUint8}
    (h : buf.WellFormed) (hn : n <= buf.size) :
    popFrontN n buf = .ok () (dropFrontN n buf) := by
  induction n generalizing buf with
  | zero => rfl
  | succ n ih =>
      cases hc : buf.contents with
      | nil =>
          have := (contents_eq_nil_iff buf).mp hc
          omega
      | cons b rest =>
          rw [popFrontN, bind_of_ok (popFront_of_contents h hc)]
          exact ih (dropFront_wellFormed h (by omega))
            (by rw [dropFront_size]; omega)

theorem clear_wellFormed {buf : CircularBufferUint8} (h : buf.WellFormed) :
    buf.clear.WellFormed := by
  constructor <;> simp only [clear]
  · exact h.capacity_pow
  · omega
  · exact h.capacity_pos
  · simp
  · exact h.buffer_length

@[simp] theorem clear_contents (buf : CircularBufferUint8) :
    buf.clear.contents = [] := rfl

@[simp] theorem clear_capacity (buf : CircularBufferUint8) :
    buf.clear.capacity = buf.capacity := rfl

end CircularBufferUint8
end AsciiSerialCom
