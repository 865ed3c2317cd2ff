import Mathlib.Tactic.Common

/-!
# Runs of Event-Driven Machines

A machine here is a step function `σ → ε → Option σ`: in a state an event
either happens, with one outcome, or cannot happen. Concurrency is the choice
of the event. Each goroutine, timer callback or message arrival contributes
its own events, one for each piece of code that runs without another being
able to intervene, and an interleaving is nothing but a list of events.

`Run step ok s es t` says that the events `es` lead from `s` to `t`, and that
each of them meets the side condition `ok` in the state it happens in. With
`ok` always true these are all the runs of the machine. A narrower `ok` states
what a property needs of its environment, step by step, without naming the
states a run goes through.

`Run.invariant` is the only induction over runs: what holds at the start and is
kept by every step that meets the condition holds in every state reached.
`Run.invariant_events` is the same for a property of the state together with
the events so far.

`exec` computes a run, and `run_of_exec` turns a computation into a `Run`, so a
concrete run is exhibited by evaluating it.

## Main definitions

* `Run`: The runs of a machine whose steps meet a condition.
* `exec`: Computing the state a list of events leads to.

## Theorems

* `Run.invariant`: The invariant rule.
* `Run.invariant_events`: The invariant rule with the events so far.
* `run_of_exec`: A computed run is a run.
* `exists_run_of_exec`, `exists_run_imp`, `exists_run_and`: Exhibiting a run by
  evaluating it.
-/

namespace Trecs

open Option

variable {σ ε : Type*}

/-- The events `es` lead from `s` to the last state, each of them meeting `ok`
    in the state it happens in. -/
inductive Run (step : σ → ε → Option σ) (ok : σ → ε → Prop) (s : σ) : List ε → σ → Prop
  | nil : Run step ok s [] s
  | snoc {es : List ε} {t u : σ} {e : ε} (hrun : Run step ok s es t) (hok : ok t e)
      (hstep : step t e = some u) : Run step ok s (es ++ [e]) u

namespace Run

variable {step : σ → ε → Option σ} {ok ok' : σ → ε → Prop} {s t : σ} {es : List ε}

theorem invariant_events (I : List ε → σ → Prop) (h0 : I [] s)
    (hpres : ∀ es t e u, I es t → ok t e → step t e = some u → I (es ++ [e]) u)
    (hrun : Run step ok s es t) : I es t := by
  induction hrun with
  | nil => exact h0
  | snoc _ hok hstep ih => exact hpres _ _ _ _ ih hok hstep

theorem invariant (I : σ → Prop) (h0 : I s)
    (hpres : ∀ t e u, I t → ok t e → step t e = some u → I u)
    (hrun : Run step ok s es t) : I t :=
  invariant_events (fun _ t => I t) h0 (fun _ t e u => hpres t e u) hrun

/-- A run that meets a condition meets every weaker one. -/
theorem mono (h : ∀ s e, ok s e → ok' s e) (hrun : Run step ok s es t) : Run step ok' s es t := by
  induction hrun with
  | nil => exact Run.nil
  | snoc _ hok hstep ih => exact ih.snoc (h _ _ hok) hstep

end Run

/-- The state a list of events leads to, if each of them can happen and meets
    the condition. -/
def exec (step : σ → ε → Option σ) (ok : σ → ε → Prop) [∀ s e, Decidable (ok s e)] :
    σ → List ε → Option σ
  | s, [] => some s
  | s, e :: es => if ok s e then (step s e).bind (fun t => exec step ok t es) else none

variable {step : σ → ε → Option σ} {ok : σ → ε → Prop}

theorem run_of_exec_from [∀ s e, Decidable (ok s e)] {s t u : σ} {es : List ε}
    (hrun : Run step ok s es t) (es' : List ε) (h : exec step ok t es' = some u) :
    Run step ok s (es ++ es') u := by
  induction es' generalizing es t with
  | nil =>
    simp only [exec, some.injEq] at h
    rw [List.append_nil, ← h]
    exact hrun
  | cons e es' ih =>
    by_cases hok : ok t e
    · rcases hstep : step t e with _ | t'
      · simp only [exec, if_pos hok, hstep, bind_none, reduceCtorEq] at h
      · simp only [exec, if_pos hok, hstep, bind_some] at h
        have hsnoc := ih (Run.snoc hrun hok hstep) h
        rw [List.append_assoc, List.singleton_append] at hsnoc
        exact hsnoc
    · simp only [exec, if_neg hok, reduceCtorEq] at h

theorem run_of_exec [∀ s e, Decidable (ok s e)] {s t : σ} {es : List ε}
    (h : exec step ok s es = some t) : Run step ok s es t := by
  have hnil : Run step ok s [] s := Run.nil
  have hrun := run_of_exec_from hnil es h
  rw [List.nil_append] at hrun
  exact hrun

/-- Exhibiting a run that ends in a state with a decidable property. -/
theorem exists_run_of_exec [∀ s e, Decidable (ok s e)] {s : σ} {es : List ε} {p : σ → Prop}
    [DecidablePred p] (h : (exec step ok s es).any (fun t => decide (p t)) = true) :
    ∃ t, Run step ok s es t ∧ p t := by
  rw [Option.any_eq_true] at h
  rcases h with ⟨t, ht, hp⟩
  exact ⟨t, run_of_exec ht, of_decide_eq_true hp⟩

/-- The same for a property that follows from a decidable one. -/
theorem exists_run_imp [∀ s e, Decidable (ok s e)] {s : σ} {es : List ε} (p : σ → Prop)
    {q : σ → Prop} [DecidablePred p]
    (h : (exec step ok s es).any (fun t => decide (p t)) = true)
    (hq : ∀ t, Run step ok s es t → p t → q t) : ∃ t, Run step ok s es t ∧ q t := by
  rcases exists_run_of_exec h with ⟨t, hrun, hp⟩
  exact ⟨t, hrun, hq t hrun hp⟩

/-- The same for a decidable property and another one. -/
theorem exists_run_and [∀ s e, Decidable (ok s e)] {s : σ} {es : List ε} {p q : σ → Prop}
    [DecidablePred p] (h : (exec step ok s es).any (fun t => decide (p t)) = true)
    (hq : ∀ t, Run step ok s es t → p t → q t) : ∃ t, Run step ok s es t ∧ p t ∧ q t :=
  exists_run_imp p h (fun t hrun hp => ⟨hp, hq t hrun hp⟩)

end Trecs
