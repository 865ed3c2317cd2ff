/-!
# Deterministic Machines

A program with one thread that takes steps until it stops: at its end, or in a
call that never returns. The step is a function, so a state has one future, and
a run that is known to stop passes through every state that can be reached.

## Main definitions

* `Reaches`: Taking any number of steps.
* `Halts`: Reaching a state without a step.

## Theorems

* `Reaches.trans`: Runs compose.
* `Halts.of_reaches`: A run that stops passes through what can be reached.
* `Halts.prepend`: Steps in front of a run that stops.
-/

namespace Trecs

variable {σ : Type}

/-- Any number of steps lead from the first state to the second. -/
inductive Reaches (step : σ → Option σ) : σ → σ → Prop where
  | refl (s : σ) : Reaches step s s
  | step {s s' t : σ} (h : step s = some s') (ht : Reaches step s' t) : Reaches step s t

/-- The run from the first state stops in the second. -/
structure Halts (step : σ → Option σ) (s t : σ) : Prop where
  reaches : Reaches step s t
  stops : step t = none

variable {step : σ → Option σ} {s s' t : σ}

theorem Reaches.trans {s t u : σ} (h : Reaches step s t) (h' : Reaches step t u) :
    Reaches step s u := by
  induction h with
  | refl s => exact h'
  | step hs _ ih => exact .step hs (ih h')

theorem Halts.of_step (h : Halts step s t) (hs : step s = some s') : Halts step s' t := by
  cases h.reaches with
  | refl => injection hs.symm.trans h.stops
  | step hs' ht =>
    rw [hs, Option.some.injEq] at hs'
    rw [hs']
    exact ⟨ht, h.stops⟩

theorem Halts.of_reaches (h : Halts step s t) (hr : Reaches step s s') : Halts step s' t := by
  induction hr with
  | refl s => exact h
  | step hs _ ih => exact ih (h.of_step hs)

theorem Halts.prepend (h : Halts step s' t) (hr : Reaches step s s') :
    Halts step s t := ⟨hr.trans h.reaches, h.stops⟩

end Trecs
