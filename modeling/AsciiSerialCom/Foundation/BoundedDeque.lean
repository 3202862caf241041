import Mathlib

/-!
# Bounded deques

A deque that holds at most `n` elements and makes room at the other end when it
is full.  Contents are lists from front to back.
-/

namespace Foundation
namespace BoundedDeque

variable {α : Type _}

/-- Add at the back; a full deque drops its front element. -/
def pushBack (n : Nat) (l : List α) (x : α) : List α :=
  if l.length = n then l.tail ++ [x] else l ++ [x]

/-- Add in front; a full deque drops its back element. -/
def pushFront (n : Nat) (l : List α) (x : α) : List α :=
  if l.length = n then x :: l.dropLast else x :: l

/-- Add several elements at the back, one after the other. -/
def pushBackAll (n : Nat) (l xs : List α) : List α :=
  xs.foldl (pushBack n) l

/-- Take `k` elements off the front one by one: what came off and what stayed. -/
def popFronts : Nat -> List α -> Option (List α × List α)
  | 0, l => some ([], l)
  | _ + 1, [] => none
  | k + 1, x :: l => (popFronts k l).map fun (out, rest) => (x :: out, rest)

section Search

variable [DecidableEq α]

/-- Remove from the front up to the first `v`, all elements if there is none. -/
def removeFrontTo (v : α) (inclusive : Bool) : List α -> List α
  | [] => []
  | x :: l =>
      if x = v then
        if inclusive then l else x :: l
      else
        removeFrontTo v inclusive l

/-- Remove from the back down to the last `v`, all elements if there is none. -/
def removeBackTo (v : α) (inclusive : Bool) (l : List α) : List α :=
  (removeFrontTo v inclusive l.reverse).reverse

theorem removeFrontTo_cons_self (v : α) (inclusive : Bool) (l : List α) :
    removeFrontTo v inclusive (v :: l) = if inclusive then l else v :: l := by
  simp [removeFrontTo]

theorem removeFrontTo_cons_of_ne {v x : α} (inclusive : Bool) {l : List α}
    (h : x ≠ v) :
    removeFrontTo v inclusive (x :: l) = removeFrontTo v inclusive l := by
  simp [removeFrontTo, h]

theorem removeBackTo_snoc_self (v : α) (inclusive : Bool) (l : List α) :
    removeBackTo v inclusive (l ++ [v]) =
      if inclusive then l else l ++ [v] := by
  rw [removeBackTo, List.reverse_append, List.reverse_singleton,
    List.singleton_append, removeFrontTo_cons_self]
  cases inclusive <;> simp

theorem removeBackTo_snoc_of_ne {v x : α} (inclusive : Bool) {l : List α}
    (h : x ≠ v) :
    removeBackTo v inclusive (l ++ [x]) = removeBackTo v inclusive l := by
  rw [removeBackTo, List.reverse_append, List.reverse_singleton,
    List.singleton_append, removeFrontTo_cons_of_ne inclusive h, removeBackTo]

end Search

theorem popFronts_of_le {k : Nat} {l : List α} (h : k <= l.length) :
    popFronts k l = some (l.take k, l.drop k) := by
  induction k generalizing l with
  | zero => rfl
  | succ k ih =>
      cases l with
      | nil => simp at h
      | cons x l =>
          rw [popFronts, ih (by simpa using h)]
          rfl

theorem pushBackAll_cons (n : Nat) (l : List α) (x : α) (xs : List α) :
    pushBackAll n l (x :: xs) = pushBackAll n (pushBack n l x) xs := rfl

theorem pushBack_length_le {n : Nat} {l : List α} (x : α) (h : l.length <= n)
    (hn : 0 < n) : (pushBack n l x).length <= n := by
  unfold pushBack
  split
  · simp
    omega
  · simp
    omega

theorem pushBackAll_of_le {n : Nat} {l xs : List α}
    (h : l.length + xs.length <= n) : pushBackAll n l xs = l ++ xs := by
  induction xs generalizing l with
  | nil => simp [pushBackAll]
  | cons x xs ih =>
      rw [List.length_cons] at h
      rw [pushBackAll_cons, pushBack, if_neg (by omega), ih (by simp; omega)]
      simp

/-- The last `n` elements stay. -/
theorem pushBackAll_eq_drop {n : Nat} (hn : 0 < n) {l : List α}
    (h : l.length <= n) (xs : List α) :
    pushBackAll n l xs = (l ++ xs).drop (l.length + xs.length - n) := by
  induction xs generalizing l with
  | nil =>
      rw [List.append_nil, List.length_nil, Nat.add_zero,
        Nat.sub_eq_zero_of_le h]
      rfl
  | cons x xs ih =>
      rw [pushBackAll_cons, ih (pushBack_length_le x h hn), pushBack]
      split
      · rename_i hfull
        cases l with
        | nil => exact absurd hfull (Nat.ne_of_lt hn)
        | cons y l =>
            rw [List.tail_cons, List.append_assoc, List.singleton_append,
              List.length_append, List.length_singleton, List.length_cons,
              List.length_cons, List.cons_append,
              show l.length + 1 + (xs.length + 1) - n =
                l.length + 1 + xs.length - n + 1 by
                rw [List.length_cons] at hfull
                omega,
              List.drop_succ_cons]
      · rw [List.append_assoc, List.singleton_append, List.length_append,
          List.length_singleton, List.length_cons, Nat.add_right_comm,
          Nat.add_assoc]

end BoundedDeque
end Foundation
