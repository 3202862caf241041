import Mathlib

/-!
# Computations that change a state and may throw

A throwing C function leaves behind whatever it changed before the throw, so
its model keeps the state on both exits.  `EStateM` does exactly that.
This module adds what proofs about such programs need: the final state of a
run, running a computation on a part of the state, reading the state through a
function that may throw, and the rule for properties that every exit preserves.
-/

namespace Foundation

/-!
## Results
-/

namespace Result

/-- The state left behind, whether the run returned or threw. -/
def state : EStateM.Result ε σ α -> σ
  | .ok _ s => s
  | .error _ s => s

/-- What the caller sees: the returned value or the thrown exception. -/
def outcome : EStateM.Result ε σ α -> Except ε α
  | .ok a _ => .ok a
  | .error e _ => .error e

@[simp] theorem state_ok (a : α) (s : σ) :
    state (.ok a s : EStateM.Result ε σ α) = s := rfl

@[simp] theorem state_error (e : ε) (s : σ) :
    state (.error e s : EStateM.Result ε σ α) = s := rfl

@[simp] theorem outcome_ok (a : α) (s : σ) :
    outcome (.ok a s : EStateM.Result ε σ α) = .ok a := rfl

@[simp] theorem outcome_error (e : ε) (s : σ) :
    outcome (.error e s : EStateM.Result ε σ α) = .error e := rfl

end Result

/-!
## Running a sequence
-/

namespace StateError

theorem bind_apply (x : EStateM ε σ α) (f : α -> EStateM ε σ β) (s : σ) :
    (x >>= f) s =
      match x s with
      | .ok a t => f a t
      | .error e t => .error e t := rfl

theorem bind_of_ok {x : EStateM ε σ α} {f : α -> EStateM ε σ β}
    {s t : σ} {a : α} (h : x s = .ok a t) :
    (x >>= f) s = f a t := by
  rw [bind_apply, h]

theorem bind_of_error {x : EStateM ε σ α} {f : α -> EStateM ε σ β}
    {s t : σ} {e : ε} (h : x s = .error e t) :
    (x >>= f) s = .error e t := by
  rw [bind_apply, h]

@[simp] theorem pure_apply (a : α) (s : σ) :
    (pure a : EStateM ε σ α) s = .ok a s := rfl

@[simp] theorem throw_apply (e : ε) (s : σ) :
    (throw e : EStateM ε σ α) s = .error e s := rfl

@[simp] theorem get_apply (s : σ) :
    (get : EStateM ε σ σ) s = .ok s s := rfl

@[simp] theorem modify_apply (f : σ -> σ) (s : σ) :
    (modify f : EStateM ε σ PUnit) s = .ok ⟨⟩ (f s) := rfl

/-- A run that returned got through its first part. -/
theorem bind_eq_ok {x : EStateM ε σ α} {f : α -> EStateM ε σ β}
    {s t : σ} {b : β} (h : (x >>= f) s = .ok b t) :
    exists a u, x s = .ok a u ∧ f a u = .ok b t := by
  rw [bind_apply] at h
  cases hx : x s with
  | ok a u =>
      rw [hx] at h
      exact ⟨a, u, rfl, h⟩
  | error e u =>
      rw [hx] at h
      cases h

/-!
## Parts of the state and constant readers
-/

/-- Run a computation on the part of the state that `part` reads and
`put` writes back. -/
def zoom (part : σ -> τ) (put : τ -> σ -> σ) (x : EStateM ε τ α) :
    EStateM ε σ α := fun s =>
  match x (part s) with
  | .ok a t => .ok a (put t s)
  | .error e t => .error e (put t s)

/-- Call a function that reads the state without changing it. -/
def observe (f : σ -> Except ε α) : EStateM ε σ α := fun s =>
  match f s with
  | .ok a => .ok a s
  | .error e => .error e s

theorem zoom_of_ok {part : σ -> τ} {put : τ -> σ -> σ} {x : EStateM ε τ α}
    {s : σ} {t : τ} {a : α} (h : x (part s) = .ok a t) :
    zoom part put x s = .ok a (put t s) := by
  rw [zoom, h]

theorem zoom_of_error {part : σ -> τ} {put : τ -> σ -> σ} {x : EStateM ε τ α}
    {s : σ} {t : τ} {e : ε} (h : x (part s) = .error e t) :
    zoom part put x s = .error e (put t s) := by
  rw [zoom, h]

theorem zoom_state (part : σ -> τ) (put : τ -> σ -> σ) (x : EStateM ε τ α)
    (s : σ) :
    Result.state (zoom part put x s) = put (Result.state (x (part s))) s := by
  cases h : x (part s) with
  | ok a t => rw [zoom_of_ok h, Result.state_ok, Result.state_ok]
  | error e t => rw [zoom_of_error h, Result.state_error, Result.state_error]

theorem zoom_outcome (part : σ -> τ) (put : τ -> σ -> σ) (x : EStateM ε τ α)
    (s : σ) :
    Result.outcome (zoom part put x s) = Result.outcome (x (part s)) := by
  cases h : x (part s) with
  | ok a t => rw [zoom_of_ok h, Result.outcome_ok, Result.outcome_ok]
  | error e t =>
      rw [zoom_of_error h, Result.outcome_error, Result.outcome_error]

theorem observe_of_ok {f : σ -> Except ε α} {s : σ} {a : α}
    (h : f s = .ok a) : observe f s = .ok a s := by
  rw [observe, h]

theorem observe_of_error {f : σ -> Except ε α} {s : σ} {e : ε}
    (h : f s = .error e) : observe f s = .error e s := by
  rw [observe, h]

theorem observe_state (f : σ -> Except ε α) (s : σ) :
    Result.state (observe f s) = s := by
  cases h : f s with
  | ok a => rw [observe_of_ok h, Result.state_ok]
  | error e => rw [observe_of_error h, Result.state_error]

/-!
## Properties that every exit keeps
-/

/-- Whichever way the run ends, a state with `P` leads to one with it. -/
def Preserves (P : σ -> Prop) (x : EStateM ε σ α) : Prop :=
  forall s, P s -> P (Result.state (x s))

theorem preserves_pure (P : σ -> Prop) (a : α) :
    Preserves P (pure a : EStateM ε σ α) := fun _ h => h

theorem preserves_throw (P : σ -> Prop) (e : ε) :
    Preserves P (throw e : EStateM ε σ α) := fun _ h => h

theorem preserves_modify {P : σ -> Prop} {f : σ -> σ}
    (h : forall s, P s -> P (f s)) :
    Preserves P (modify f : EStateM ε σ PUnit) := fun s hs => h s hs

theorem preserves_observe (P : σ -> Prop) (f : σ -> Except ε α) :
    Preserves P (observe f) := by
  intro s h
  rwa [observe_state]

theorem Preserves.bind {P : σ -> Prop} {x : EStateM ε σ α}
    {f : α -> EStateM ε σ β} (hx : Preserves P x)
    (hf : forall a, Preserves P (f a)) :
    Preserves P (x >>= f) := by
  intro s hs
  have hmid := hx s hs
  rw [bind_apply]
  cases h : x s with
  | ok a t =>
      rw [h] at hmid
      exact hf a t hmid
  | error e t =>
      rw [h] at hmid
      exact hmid

end StateError
end Foundation
