import AsciiSerialCom.Foundation.Runs

/-!
# A place where results are handed over

Jobs are started, end at their own time with a result, and the result is taken
before the next job is started.  One place is enough for that: no result is lost,
and none is taken twice.
-/

namespace Foundation

open Run

/-- What stands at the place. -/
inductive Place (α : Type _) where
  | idle
  | busy
  | done (a : α)

/-- A place, with everything that has passed through it. -/
structure Handoff (α : Type _) where
  place : Place α
  /-- number of jobs started -/
  started : Nat
  /-- the results of the jobs that have ended -/
  results : List α
  taken : List α

/-- What can happen at the place; what cannot happen has no effect. -/
inductive HandoffOp (α : Type _) where
  | start
  | finish (a : α)
  | take

namespace Handoff

def empty : Handoff α :=
  { place := .idle
    started := 0
    results := []
    taken := [] }

def step (h : Handoff α) : HandoffOp α -> Handoff α
  | .start =>
      match h.place with
      | .idle => { h with place := .busy, started := h.started + 1 }
      | _ => h
  | .finish a =>
      match h.place with
      | .busy => { h with place := .done a, results := h.results ++ [a] }
      | _ => h
  | .take =>
      match h.place with
      | .done a => { h with place := .idle, taken := h.taken ++ [a] }
      | _ => h

/-- The result that waits to be taken, if any. -/
def waiting (h : Handoff α) : List α :=
  match h.place with
  | .done a => [a]
  | _ => []

/-- Number of jobs that have not ended. -/
def running (h : Handoff α) : Nat :=
  match h.place with
  | .busy => 1
  | _ => 0

/-- Every result has been taken once, in order, or waits; and every job started
has a result or is running. -/
structure Accounted (h : Handoff α) : Prop where
  results_eq : h.taken ++ h.waiting = h.results
  started_eq : h.results.length + h.running = h.started

theorem accounted_empty : (empty : Handoff α).Accounted := ⟨rfl, rfl⟩

theorem Accounted.step {h : Handoff α} (hacc : h.Accounted)
    (op : HandoffOp α) : (h.step op).Accounted := by
  rcases h with ⟨place, started, results, taken⟩
  rcases hacc with ⟨hresults, hstarted⟩
  simp only [waiting, running] at hresults hstarted
  cases op with
  | start =>
      cases place with
      | idle => exact ⟨hresults, by simpa [Handoff.step, running] using hstarted⟩
      | busy => exact ⟨hresults, hstarted⟩
      | done a => exact ⟨hresults, hstarted⟩
  | finish a =>
      cases place with
      | idle => exact ⟨hresults, hstarted⟩
      | busy =>
          refine ⟨?_, ?_⟩
          · rw [List.append_nil] at hresults
            simp only [Handoff.step, waiting, hresults]
          · simpa [Handoff.step, running] using hstarted
      | done b => exact ⟨hresults, hstarted⟩
  | take =>
      cases place with
      | idle => exact ⟨hresults, hstarted⟩
      | busy => exact ⟨hresults, hstarted⟩
      | done a =>
          refine ⟨?_, hstarted⟩
          simp only [Handoff.step, waiting, List.append_nil]
          exact hresults

/-- **Whatever happens, no result is lost and none is taken twice.** -/
theorem accounted_of_run (ops : List (HandoffOp α)) :
    (run Handoff.step empty ops).Accounted :=
  preserved_run (fun _ op hacc => hacc.step op) accounted_empty ops

end Handoff
end Foundation
