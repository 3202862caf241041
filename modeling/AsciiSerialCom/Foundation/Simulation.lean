import AsciiSerialCom.Foundation.Runs

/-!
# Simulation with stuttering

A machine simulates another if each of its steps is a step of the other, or no
step at all, once it is seen through an abstraction.  What holds after every run
of the abstract machine then holds after every run of the concrete one.
-/

namespace Foundation
namespace Run

/-- Seen through `abs`, every step that `guard` admits is a step of the abstract
machine or none.  The invariant says where that is so. -/
structure Simulates (step : σ -> ι -> σ) (guard : σ -> ι -> Prop)
    (Inv : σ -> Prop) (abstractStep : τ -> κ -> τ) (abs : σ -> τ) : Prop where
  invariant : forall s input, Inv s -> guard s input -> Inv (step s input)
  simulates : forall s input, Inv s -> guard s input ->
    abs (step s input) = abs s ∨
      exists op, abs (step s input) = abstractStep (abs s) op

namespace Simulates

variable {step : σ -> ι -> σ} {guard : σ -> ι -> Prop} {Inv : σ -> Prop}
  {abstractStep : τ -> κ -> τ} {abs : σ -> τ}

/-- **Every run is a run of the abstract machine.** -/
theorem exists_run (h : Simulates step guard Inv abstractStep abs) {s : σ}
    {inputs : List ι} (hallowed : Allowed step guard s inputs) (hs : Inv s) :
    exists ops, abs (run step s inputs) = run abstractStep (abs s) ops := by
  induction inputs generalizing s with
  | nil => exact ⟨[], rfl⟩
  | cons input rest ih =>
      rcases hallowed with ⟨hguard, hrest⟩
      rcases ih hrest (h.invariant s input hs hguard) with ⟨ops, hops⟩
      rcases h.simulates s input hs hguard with hsame | ⟨op, hop⟩
      · exact ⟨ops, by rw [run_cons, hops, hsame]⟩
      · exact ⟨op :: ops, by rw [run_cons, hops, hop, run_cons]⟩

end Simulates
end Run
end Foundation
