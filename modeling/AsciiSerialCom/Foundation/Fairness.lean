import AsciiSerialCom.Foundation.Runs

/-!
# Rounds of a fair schedule

A machine whose inputs come in any order gets its work done if every input keeps
coming.  A round is a piece of the schedule in which each input occurs at least
once.  In every state some inputs are useful: they decrease a measure.  The
others change neither the measure nor which inputs are useful, so the first
useful input of a round still finds the work it found at the start.
-/

namespace Foundation
namespace Run

/-- Every input occurs. -/
def IsRound (block : List ι) : Prop := forall input, input ∈ block

section Progress

variable {step : σ -> ι -> σ} {Inv : σ -> Prop} {useful : σ -> ι -> Prop}
  {measure : σ -> Nat}

/-- Useful inputs decrease the measure, all others leave things as they are. -/
structure Progresses (step : σ -> ι -> σ) (Inv : σ -> Prop)
    (useful : σ -> ι -> Prop) (measure : σ -> Nat) : Prop where
  invariant : forall s input, Inv s -> Inv (step s input)
  decreases : forall s input, Inv s -> useful s input ->
    measure (step s input) < measure s
  idles : forall s input, Inv s -> ¬ useful s input ->
    measure (step s input) = measure s ∧
      forall other, useful (step s input) other <-> useful s other

namespace Progresses

theorem invariant_run (h : Progresses step Inv useful measure) {s : σ}
    (hs : Inv s) (inputs : List ι) : Inv (run step s inputs) := by
  induction inputs generalizing s with
  | nil => exact hs
  | cons input rest ih => exact ih (h.invariant s input hs)

theorem measure_run_le (h : Progresses step Inv useful measure) {s : σ}
    (hs : Inv s) (inputs : List ι) :
    measure (run step s inputs) <= measure s := by
  induction inputs generalizing s with
  | nil => exact Nat.le_refl _
  | cons input rest ih =>
      apply Nat.le_trans (ih (h.invariant s input hs))
      by_cases huseful : useful s input
      · exact Nat.le_of_lt (h.decreases s input hs huseful)
      · exact Nat.le_of_eq (h.idles s input hs huseful).left

/-- A useful input that comes at last has an effect, or another had one. -/
theorem measure_run_lt (h : Progresses step Inv useful measure) {s : σ}
    (hs : Inv s) {input : ι} (huseful : useful s input) {inputs : List ι}
    (hmem : input ∈ inputs) : measure (run step s inputs) < measure s := by
  induction inputs generalizing s with
  | nil => cases hmem
  | cons next rest ih =>
      have hinv := h.invariant s next hs
      by_cases hnext : useful s next
      · exact Nat.lt_of_le_of_lt (h.measure_run_le hinv rest)
          (h.decreases s next hs hnext)
      · rcases h.idles s next hs hnext with ⟨hmeasure, hsame⟩
        have hrest : input ∈ rest := by
          rcases List.mem_cons.mp hmem with rfl | hrest
          · exact absurd huseful hnext
          · exact hrest
        rw [run_cons, ← hmeasure]
        exact ih hinv ((hsame input).mpr huseful) hrest

theorem idle_run (h : Progresses step Inv useful measure) {s : σ}
    (hs : Inv s) (hidle : forall input, ¬ useful s input)
    (inputs : List ι) : forall input, ¬ useful (run step s inputs) input := by
  induction inputs generalizing s with
  | nil => exact hidle
  | cons next rest ih =>
      apply ih (h.invariant s next hs)
      intro input huseful
      exact hidle input
        (((h.idles s next hs (hidle next)).right input).mp huseful)

/-- **After enough rounds there is nothing left to do.** -/
theorem idle_of_rounds (h : Progresses step Inv useful measure)
    {blocks : List (List ι)} (hrounds : forall block, block ∈ blocks ->
      IsRound block) {s : σ} (hs : Inv s)
    (hlength : measure s <= blocks.length) :
    forall input, ¬ useful (run step s blocks.flatten) input := by
  induction blocks generalizing s with
  | nil =>
      intro input huseful
      have hlt := h.decreases s input hs huseful
      have hzero : measure s <= 0 := hlength
      omega
  | cons block rest ih =>
      rw [List.flatten_cons, run_append]
      have hinv := h.invariant_run hs block
      by_cases hidle : forall input, ¬ useful s input
      · exact h.idle_run hinv (h.idle_run hs hidle block) _
      · push Not at hidle
        rcases hidle with ⟨input, huseful⟩
        have hround := hrounds block (List.mem_cons_self ..) input
        have hlt := h.measure_run_lt hs huseful hround
        refine ih (fun b hb => hrounds b (List.mem_cons_of_mem _ hb)) hinv ?_
        rw [List.length_cons] at hlength
        omega

end Progresses
end Progress

/-!
## Distances
-/

section Distance

variable {step : σ -> ι -> σ} {admissible : ι -> Prop} {counted : ι -> Bool}
  {Keep Goal : σ -> Prop} {distance : σ -> Nat}

/-- Admissible inputs keep the goal.  Until it is reached they keep a property
and do not increase the distance, and the counted ones decrease it. -/
structure Approaches (step : σ -> ι -> σ) (admissible : ι -> Prop)
    (counted : ι -> Bool) (Keep Goal : σ -> Prop) (distance : σ -> Nat) :
    Prop where
  stays : forall s input, Goal s -> admissible input -> Goal (step s input)
  approaches : forall s input, Keep s -> admissible input ->
    Goal (step s input) ∨
      Keep (step s input) ∧ distance (step s input) <= distance s ∧
        (counted input = true -> distance (step s input) < distance s)

namespace Approaches

theorem stays_run
    (h : Approaches step admissible counted Keep Goal distance) {s : σ}
    {inputs : List ι} (hinputs : forall input, input ∈ inputs ->
      admissible input) (hs : Goal s) : Goal (run step s inputs) := by
  induction inputs generalizing s with
  | nil => exact hs
  | cons input rest ih =>
      exact ih (fun i hi => hinputs i (List.mem_cons_of_mem _ hi))
        (h.stays s input hs (hinputs input (List.mem_cons_self ..)))

/-- **The goal is reached** when more inputs are counted than the distance. -/
theorem goal_of_run
    (h : Approaches step admissible counted Keep Goal distance) {s : σ}
    {inputs : List ι} (hinputs : forall input, input ∈ inputs ->
      admissible input) (hs : Keep s)
    (hcount : distance s < inputs.countP counted) :
    Goal (run step s inputs) := by
  induction inputs generalizing s with
  | nil => cases hcount
  | cons input rest ih =>
      have hrest := fun i hi => hinputs i (List.mem_cons_of_mem input hi)
      rw [run_cons]
      rcases h.approaches s input hs
          (hinputs input (List.mem_cons_self ..)) with
        hgoal | ⟨hkeep, hle, hlt⟩
      · exact h.stays_run hrest hgoal
      · apply ih hrest hkeep
        rw [List.countP_cons] at hcount
        split at hcount
        · rename_i hcounted
          have := hlt hcounted
          omega
        · omega

end Approaches
end Distance

/-!
## Machines with outputs
-/

section Outputs

/-- The outputs of a machine that answers every input. -/
def outputs (step : σ -> ι -> ο × σ) : σ -> List ι -> List ο
  | _, [] => []
  | s, input :: rest => (step s input).1 :: outputs step (step s input).2 rest

/-- The state such a machine ends in. -/
def final (step : σ -> ι -> ο × σ) (s : σ) (inputs : List ι) : σ :=
  run (fun s input => (step s input).2) s inputs

variable {step : σ -> ι -> ο × σ}

theorem outputs_append (s : σ) (first second : List ι) :
    outputs step s (first ++ second) =
      outputs step s first ++ outputs step (final step s first) second := by
  induction first generalizing s with
  | nil => rfl
  | cons input rest ih =>
      rw [List.cons_append, outputs, ih, outputs, List.cons_append]
      rfl

theorem final_append (s : σ) (first second : List ι) :
    final step s (first ++ second) = final step (final step s first) second :=
  run_append _ _ _ _

@[simp] theorem outputs_length (s : σ) (inputs : List ι) :
    (outputs step s inputs).length = inputs.length := by
  induction inputs generalizing s with
  | nil => rfl
  | cons input rest ih => rw [outputs, List.length_cons, ih, List.length_cons]

end Outputs

section Refusals

/-- The outputs of a machine that may refuse an input, and the state it ends
in. -/
def trace (step : σ -> ι -> Option (List ο × σ)) :
    σ -> List ι -> Option (List ο × σ)
  | s, [] => some ([], s)
  | s, input :: rest =>
      (step s input).bind fun now =>
        (trace step now.2 rest).map fun later => (now.1 ++ later.1, later.2)

variable {step : σ -> ι -> Option (List ο × σ)}

theorem trace_append (s : σ) (first second : List ι) :
    trace step s (first ++ second) =
      (trace step s first).bind fun front =>
        (trace step front.2 second).map fun back =>
          (front.1 ++ back.1, back.2) := by
  induction first generalizing s with
  | nil => simp [trace]
  | cons input rest ih =>
      rw [List.cons_append, trace, trace]
      cases step s input with
      | none => rfl
      | some now =>
          simp only [Option.bind_some, ih]
          cases trace step now.2 rest with
          | none => rfl
          | some front =>
              simp only [Option.bind_some, Option.map_some]
              cases trace step front.2 second with
              | none => rfl
              | some back => simp [List.append_assoc]

theorem trace_append_of_some {s s' s'' : σ} {first second : List ι}
    {out out' : List ο} (hfirst : trace step s first = some (out, s'))
    (hsecond : trace step s' second = some (out', s'')) :
    trace step s (first ++ second) = some (out ++ out', s'') := by
  rw [trace_append, hfirst, Option.bind_some, hsecond]
  rfl

@[simp] theorem trace_singleton (s : σ) (input : ι) :
    trace step s [input] = step s input := by
  rw [trace]
  cases step s input with
  | none => rfl
  | some now => simp [trace]

end Refusals

end Run
end Foundation
