import Mathlib

/-!
# Runs of a machine under a guard

A machine takes one input after the other.  A guard says which inputs may come
in which state; it stands for what the callers of the machine promise.  The
invariant rule is the one induction over runs that safety proofs share.
-/

namespace Foundation
namespace Run

/-- The state after the given inputs, in order. -/
def run (step : σ -> ι -> σ) (s : σ) (inputs : List ι) : σ :=
  inputs.foldl step s

/-- Every input is one the guard admits in the state in which it comes. -/
def Allowed (step : σ -> ι -> σ) (guard : σ -> ι -> Prop) :
    σ -> List ι -> Prop
  | _, [] => True
  | s, input :: rest => guard s input ∧ Allowed step guard (step s input) rest

@[simp] theorem run_nil (step : σ -> ι -> σ) (s : σ) : run step s [] = s := rfl

@[simp] theorem run_cons (step : σ -> ι -> σ) (s : σ) (input : ι)
    (rest : List ι) :
    run step s (input :: rest) = run step (step s input) rest := rfl

theorem run_append (step : σ -> ι -> σ) (s : σ) (first second : List ι) :
    run step s (first ++ second) = run step (run step s first) second :=
  List.foldl_append

@[simp] theorem allowed_nil (step : σ -> ι -> σ) (guard : σ -> ι -> Prop)
    (s : σ) : Allowed step guard s [] := trivial

@[simp] theorem allowed_cons (step : σ -> ι -> σ) (guard : σ -> ι -> Prop)
    (s : σ) (input : ι) (rest : List ι) :
    Allowed step guard s (input :: rest) <->
      guard s input ∧ Allowed step guard (step s input) rest := Iff.rfl

theorem allowed_append (step : σ -> ι -> σ) (guard : σ -> ι -> Prop) (s : σ)
    (first second : List ι) :
    Allowed step guard s (first ++ second) <->
      Allowed step guard s first ∧
        Allowed step guard (run step s first) second := by
  induction first generalizing s with
  | nil => simp
  | cons input rest ih =>
      rw [List.cons_append, allowed_cons, allowed_cons, ih, run_cons,
        and_assoc]

instance decidableAllowed (step : σ -> ι -> σ) (guard : σ -> ι -> Prop)
    [forall s input, Decidable (guard s input)] :
    (s : σ) -> (inputs : List ι) -> Decidable (Allowed step guard s inputs)
  | _, [] => inferInstanceAs (Decidable True)
  | s, input :: rest =>
      have := decidableAllowed step guard (step s input) rest
      inferInstanceAs (Decidable (guard s input ∧ _))

section Invariant

variable {step : σ -> ι -> σ} {guard : σ -> ι -> Prop} {Inv : σ -> Prop}

/-- What every admitted input preserves holds at the end of every admitted
run that starts with it. -/
theorem Allowed.invariant
    (hstep : forall s input, Inv s -> guard s input -> Inv (step s input))
    {s : σ} {inputs : List ι} (hallowed : Allowed step guard s inputs)
    (hs : Inv s) : Inv (run step s inputs) := by
  induction inputs generalizing s with
  | nil => exact hs
  | cons input rest ih =>
      rcases hallowed with ⟨hguard, hrest⟩
      exact ih hrest (hstep s input hs hguard)

/-- What every input preserves holds at the end of every run. -/
theorem preserved_run (hstep : forall s input, Inv s -> Inv (step s input))
    {s : σ} (hs : Inv s) (inputs : List ι) : Inv (run step s inputs) := by
  induction inputs generalizing s with
  | nil => exact hs
  | cons input rest ih => exact ih (hstep s input hs)

/-- A guard that an invariant implies admits every run. -/
theorem allowed_of_invariant
    (hstep : forall s input, Inv s -> guard s input ∧ Inv (step s input))
    {s : σ} (hs : Inv s) (inputs : List ι) :
    Allowed step guard s inputs := by
  induction inputs generalizing s with
  | nil => trivial
  | cons input rest ih =>
      rcases hstep s input hs with ⟨hguard, hinv⟩
      exact ⟨hguard, ih hinv⟩

/-- A guard that implies another wherever an invariant holds, and preserves the
invariant, admits only runs that the other admits. -/
theorem Allowed.imp {weaker : σ -> ι -> Prop}
    (hstep : forall s input, Inv s -> guard s input ->
      weaker s input ∧ Inv (step s input))
    {s : σ} {inputs : List ι} (hallowed : Allowed step guard s inputs)
    (hs : Inv s) : Allowed step weaker s inputs := by
  induction inputs generalizing s with
  | nil => trivial
  | cons input rest ih =>
      rcases hallowed with ⟨hguard, hrest⟩
      rcases hstep s input hs hguard with ⟨hweaker, hinv⟩
      exact ⟨hweaker, ih hrest hinv⟩

/-- Two guards that agree wherever an invariant holds admit the same runs. -/
theorem Allowed.congr {guard1 guard2 : σ -> ι -> Prop}
    (hiff : forall s input, Inv s -> guard s input ->
      (guard1 s input <-> guard2 s input))
    (hstep : forall s input, Inv s -> guard s input -> guard2 s input ->
      Inv (step s input))
    {s : σ} {inputs : List ι} (hallowed : Allowed step guard s inputs)
    (hs : Inv s) :
    Allowed step guard1 s inputs <-> Allowed step guard2 s inputs := by
  induction inputs generalizing s with
  | nil => exact Iff.rfl
  | cons input rest ih =>
      rcases hallowed with ⟨hguard, hrest⟩
      rw [allowed_cons, allowed_cons, hiff s input hs hguard]
      apply and_congr_right
      intro h
      exact ih hrest (hstep s input hs hguard h)

end Invariant

end Run
end Foundation
