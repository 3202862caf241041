import AsciiSerialCom.Foundation.Runs

/-!
# A place that can be overrun

Results come at their own pace, and are taken when there is time.  One that comes
before the last has been taken is lost and leaves a mark, and whoever takes the
next result counts the mark.  The count tells whether anything has been lost, but
not how much.
-/

namespace Foundation

open Run

/-- A place for one result, with everything that has passed through it. -/
structure Latch (α : Type _) where
  place : Option α
  /-- a result has been lost since the last one was taken -/
  overrun : Bool
  /-- the results that have found the place free -/
  kept : List α
  taken : List α
  /-- number of results lost -/
  lost : Nat
  /-- number of marks found -/
  overruns : Nat

/-- What can happen at the place; nothing is taken from a free one. -/
inductive LatchOp (α : Type _) where
  | put (a : α)
  | take

namespace Latch

def empty : Latch α :=
  { place := none
    overrun := false
    kept := []
    taken := []
    lost := 0
    overruns := 0 }

def step (l : Latch α) : LatchOp α -> Latch α
  | .put a =>
      match l.place with
      | none => { l with place := some a, kept := l.kept ++ [a] }
      | some _ => { l with overrun := true, lost := l.lost + 1 }
  | .take =>
      match l.place with
      | none => l
      | some a =>
          { l with
            place := none
            taken := l.taken ++ [a]
            overrun := false
            overruns := l.overruns + l.overrun.toNat }

/-- The results kept have been taken once, in order, but for the one that waits;
and marks are found if and only if results have been lost. -/
structure Accounted (l : Latch α) : Prop where
  kept_eq : l.taken ++ l.place.toList = l.kept
  overruns_le : l.overruns + l.overrun.toNat <= l.lost
  lost_eq_zero : l.overruns + l.overrun.toNat = 0 -> l.lost = 0

theorem accounted_empty : (empty : Latch α).Accounted :=
  ⟨rfl, Nat.le_refl _, fun _ => rfl⟩

theorem Accounted.step {l : Latch α} (hacc : l.Accounted) (op : LatchOp α) :
    (l.step op).Accounted := by
  rcases l with ⟨place, overrun, kept, taken, lost, overruns⟩
  rcases hacc with ⟨hkept, hle, hzero⟩
  simp only at hkept hle hzero
  cases op with
  | put a =>
      cases place with
      | none =>
          refine ⟨?_, hle, hzero⟩
          rw [Option.toList_none, List.append_nil] at hkept
          simp only [Latch.step, Option.toList_some, hkept]
      | some b =>
          have hmark := Bool.toNat_le overrun
          refine ⟨hkept, ?_, ?_⟩
          · simp only [Latch.step, Bool.toNat_true]
            omega
          · intro hnone
            simp [Latch.step] at hnone
  | take =>
      cases place with
      | none => exact ⟨hkept, hle, hzero⟩
      | some a =>
          refine ⟨?_, hle, hzero⟩
          simp only [Latch.step, Option.toList_none, List.append_nil]
          exact hkept

/-- **Whatever happens, what is taken is what was kept**, and the marks tell
whether anything was lost. -/
theorem accounted_of_run (ops : List (LatchOp α)) :
    (run Latch.step empty ops).Accounted :=
  preserved_run (fun _ op hacc => hacc.step op) accounted_empty ops

end Latch
end Foundation
