import Mathlib

/-!
# Memory behind a pointer

A pointer into a block of cells, as a function of the offset.  Reading a slice
gives a list, storing a list changes the cells it covers and no other.
-/

namespace Foundation

/-- The cells from a pointer on. -/
abbrev Memory (α : Type _) := Nat -> α

namespace Memory

variable {α : Type _}

/-- The `n` cells from `start` on. -/
def slice (mem : Memory α) (start n : Nat) : List α :=
  (List.range n).map fun i => mem (start + i)

/-- Store a list from `start` on. -/
def store (mem : Memory α) (start : Nat) (values : List α) : Memory α :=
  fun i => if i < start then mem i else (values[i - start]?).getD (mem i)

@[simp] theorem slice_length (mem : Memory α) (start n : Nat) :
    (slice mem start n).length = n := by
  simp [slice]

@[simp] theorem slice_zero (mem : Memory α) (start : Nat) :
    slice mem start 0 = [] := rfl

theorem slice_getElem (mem : Memory α) (start n i : Nat)
    (h : i < (slice mem start n).length) :
    (slice mem start n)[i] = mem (start + i) := by
  simp [slice]

theorem slice_snoc (mem : Memory α) (start n : Nat) :
    slice mem start (n + 1) = slice mem start n ++ [mem (start + n)] := by
  simp [slice, List.range_succ]

theorem slice_append (mem : Memory α) (start n m : Nat) :
    slice mem start (n + m) = slice mem start n ++ slice mem (start + n) m := by
  induction m with
  | zero => simp
  | succ m ih =>
      rw [← Nat.add_assoc, slice_snoc, ih, slice_snoc, List.append_assoc,
        Nat.add_assoc]

theorem slice_cons (mem : Memory α) (start n : Nat) :
    slice mem start (n + 1) = mem start :: slice mem (start + 1) n := by
  rw [Nat.add_comm n 1, slice_append]
  rfl

theorem take_slice (mem : Memory α) (start n m : Nat) (h : m <= n) :
    (slice mem start n).take m = slice mem start m := by
  have hsplit := slice_append mem start m (n - m)
  rw [show m + (n - m) = n by omega] at hsplit
  rw [hsplit, List.take_left' (slice_length mem start m)]

theorem drop_slice (mem : Memory α) (start m n : Nat) :
    (slice mem start (m + n)).drop m = slice mem (start + m) n := by
  rw [slice_append, List.drop_left' (slice_length mem start m)]

theorem slice_congr {mem other : Memory α} {start n : Nat}
    (h : forall i, i < n -> mem (start + i) = other (start + i)) :
    slice mem start n = slice other start n := by
  apply List.map_congr_left
  intro i hi
  exact h i (List.mem_range.mp hi)

theorem store_of_lt {mem : Memory α} {start i : Nat} {values : List α}
    (h : i < start) : store mem start values i = mem i := by
  simp [store, h]

theorem store_of_ge {mem : Memory α} {start i : Nat} {values : List α}
    (h : start + values.length <= i) : store mem start values i = mem i := by
  rw [store, if_neg (by omega), List.getElem?_eq_none (by omega)]
  rfl

theorem slice_store_self (mem : Memory α) (start : Nat) (values : List α) :
    slice (store mem start values) start values.length = values := by
  apply List.ext_getElem
  · simp
  · intro i hi hi'
    rw [slice_getElem, store, if_neg (by omega), Nat.add_sub_cancel_left,
      List.getElem?_eq_getElem hi', Option.getD_some]

theorem store_cons (mem : Memory α) (start : Nat) (x : α) (values : List α) :
    store mem start (x :: values) =
      store (store mem start [x]) (start + 1) values := by
  funext i
  rcases Nat.lt_trichotomy i start with hlt | rfl | hgt
  · rw [store_of_lt hlt, store_of_lt (by omega), store_of_lt hlt]
  · rw [store_of_lt (Nat.lt_succ_self i)]
    simp [store]
  · have hsucc : i - start = (i - (start + 1)) + 1 := by omega
    have hone : store mem start [x] i = mem i :=
      store_of_ge (by simp only [List.length_singleton]; omega)
    rw [store, if_neg (by omega), hsucc, List.getElem?_cons_succ]
    rw [store, if_neg (by omega), hone]

@[simp] theorem store_nil (mem : Memory α) (start : Nat) :
    store mem start [] = mem := by
  funext i
  simp [store]

theorem slice_store_of_le {mem : Memory α} {start from_ n : Nat}
    {values : List α} (h : from_ + n <= start) :
    slice (store mem start values) from_ n = slice mem from_ n := by
  apply slice_congr
  intro i hi
  exact store_of_lt (by omega)

/-- What stands before the stored values, and the values. -/
theorem slice_store_append (mem : Memory α) (start n : Nat)
    (values : List α) :
    slice (store mem (start + n) values) start (n + values.length) =
      slice mem start n ++ values := by
  rw [slice_append, slice_store_of_le (Nat.le_refl _), slice_store_self]

end Memory
end Foundation
