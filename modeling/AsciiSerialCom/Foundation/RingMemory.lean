import Mathlib

/-!
# Windows of a ring of cells

A window is what one reads from a block of memory when indices wrap at its end:
a start, a length, and the cells in between taken modulo the length of the
memory.  The lemmas say how a window grows, shrinks and changes when one cell
is written, which is all that a ring buffer ever does.
-/

namespace Foundation
namespace RingMemory

variable {α : Type _}

/-- The `n` cells from `start` on, wrapping at the end of the memory. -/
def window (blank : α) (cells : List α) (start n : Nat) : List α :=
  (List.range n).map fun i => cells.getD ((start + i) % cells.length) blank

section Window

variable (blank : α) (cells : List α) (start n : Nat)

@[simp] theorem window_length : (window blank cells start n).length = n := by
  simp [window]

@[simp] theorem window_zero : window blank cells start 0 = [] := rfl

theorem window_getElem (i : Nat) (h : i < (window blank cells start n).length) :
    (window blank cells start n)[i] =
      cells.getD ((start + i) % cells.length) blank := by
  simp [window]

@[simp] theorem window_mod_start :
    window blank cells (start % cells.length) n = window blank cells start n := by
  simp [window]

theorem window_succ :
    window blank cells start (n + 1) =
      cells.getD (start % cells.length) blank ::
        window blank cells (start + 1) n := by
  simp only [window, List.range_succ_eq_map, List.map_cons, List.map_map,
    Nat.add_zero]
  congr 1
  apply List.map_congr_left
  intro i _
  simp only [Function.comp, Nat.succ_eq_add_one]
  rw [show start + (i + 1) = start + 1 + i by omega]

theorem window_snoc :
    window blank cells start (n + 1) =
      window blank cells start n ++
        [cells.getD ((start + n) % cells.length) blank] := by
  simp [window, List.range_succ]

theorem window_append (m : Nat) :
    window blank cells start (n + m) =
      window blank cells start n ++ window blank cells (start + n) m := by
  induction m with
  | zero => simp
  | succ m ih =>
      rw [← Nat.add_assoc, window_snoc, ih, window_snoc, List.append_assoc,
        Nat.add_assoc]

theorem drop_window (m : Nat) (hm : m <= n) :
    (window blank cells start n).drop m =
      window blank cells (start + m) (n - m) := by
  have hsplit := window_append blank cells start m (n - m)
  rw [show m + (n - m) = n by omega] at hsplit
  rw [hsplit, List.drop_left' (window_length _ _ _ _)]

theorem take_window (m : Nat) (hm : m <= n) :
    (window blank cells start n).take m = window blank cells start m := by
  have hsplit := window_append blank cells start m (n - m)
  rw [show m + (n - m) = n by omega] at hsplit
  rw [hsplit, List.take_left' (window_length _ _ _ _)]

/-- A window that does not reach the end of the memory is a slice of it. -/
theorem window_eq_slice (h : start + n <= cells.length) :
    window blank cells start n = (cells.drop start).take n := by
  apply List.ext_getElem
  · simp
    omega
  · intro i hi hi'
    have hlt : i < n := by simpa using hi
    rw [window_getElem, List.getElem_take, List.getElem_drop,
      Nat.mod_eq_of_lt (by omega), List.getD_eq_getElem _ _ (by omega)]

end Window

theorem slot_injective {length start i j : Nat} (hi : i < length)
    (hj : j < length) (h : (start + i) % length = (start + j) % length) :
    i = j := by
  have hmod : i ≡ j [MOD length] := Nat.ModEq.add_left_cancel' start h
  rwa [Nat.ModEq, Nat.mod_eq_of_lt hi, Nat.mod_eq_of_lt hj] at hmod

/-- Writing outside a window does not change it. -/
theorem window_set_of_forall_ne (blank : α) (cells : List α)
    (start n slot : Nat) (x : α)
    (h : forall i, i < n -> (start + i) % cells.length ≠ slot) :
    window blank (cells.set slot x) start n = window blank cells start n := by
  simp only [window, List.length_set]
  apply List.map_congr_left
  intro i hi
  have hne := h i (List.mem_range.mp hi)
  simp [List.getD_eq_getElem?_getD, List.getElem?_set_ne (Ne.symm hne)]

theorem getD_set_self (blank : α) (cells : List α) (slot : Nat) (x : α)
    (h : slot < cells.length) : (cells.set slot x).getD slot blank = x := by
  simp [List.getD_eq_getElem?_getD, h]

/-- Writing the cell after a window that leaves room appends to it. -/
theorem window_set_back (blank : α) (cells : List α) (start n : Nat) (x : α)
    (hn : n < cells.length) :
    window blank (cells.set ((start + n) % cells.length) x) start (n + 1) =
      window blank cells start n ++ [x] := by
  have hslot : (start + n) % cells.length < cells.length :=
    Nat.mod_lt _ (by omega)
  rw [window_snoc, List.length_set, getD_set_self _ _ _ _ hslot,
    window_set_of_forall_ne]
  intro i hi heq
  have := slot_injective (by omega) hn heq
  omega

/-- Writing the cell before a window that leaves room prepends to it. -/
theorem window_set_front (blank : α) (cells : List α) (start n : Nat) (x : α)
    (hn : n < cells.length) :
    window blank (cells.set (start % cells.length) x) start (n + 1) =
      x :: window blank cells (start + 1) n := by
  have hslot : start % cells.length < cells.length := Nat.mod_lt _ (by omega)
  rw [window_succ, List.length_set, getD_set_self _ _ _ _ hslot,
    window_set_of_forall_ne]
  intro i hi heq
  have hzero : start % cells.length = (start + 0) % cells.length := by simp
  rw [show start + 1 + i = start + (i + 1) by omega, hzero] at heq
  have := slot_injective (by omega) (by omega) heq
  omega

end RingMemory
end Foundation
