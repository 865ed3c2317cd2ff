import Mathlib.Data.List.Basic

/-!
# Unwinding

Showing that some events of a machine have no influence on what an observer
sees.

The machine is a function of a state and an event, and each event may show the
observer something. Some events are hidden. The proof is by a relation between
states: a hidden event leads to a related state and shows nothing, and any other
event, in two related states, shows the same and leads to related states. Then
deleting hidden events from a list, or inserting them, does not change what the
observer sees. All of this may be for events that meet a condition.

## Main definitions

* `observe`: What a list of events shows.
* `Unwinding`: The relation.

## Theorems

* `Unwinding.observe_filter`: Deleting all hidden events.
* `Unwinding.observe_eq`: Two lists with the same events that are not hidden.
-/

namespace Trecs

variable {σ ε ω : Type*}

/-- What the observer sees of a list of events. -/
def observe (step : σ → ε → σ) (out : σ → ε → Option ω) : σ → List ε → List ω
  | _, [] => []
  | s, e :: es => (out s e).toList ++ observe step out (step s e) es

/-- A relation between states that hidden events do not leave, and that all
    other events keep while they show the same. -/
structure Unwinding (step : σ → ε → σ) (out : σ → ε → Option ω) (ok : ε → Prop)
    (hidden : ε → Bool) (R : σ → σ → Prop) : Prop where
  respects : ∀ (s s' : σ) (e : ε), R s s' → ok e → hidden e = true →
    R (step s e) s' ∧ out s e = none
  consistent : ∀ (s s' : σ) (e : ε), R s s' → ok e → hidden e = false →
    R (step s e) (step s' e) ∧ out s e = out s' e

namespace Unwinding

variable {step : σ → ε → σ} {out : σ → ε → Option ω} {ok : ε → Prop} {hidden : ε → Bool}
  {R : σ → σ → Prop}

/-- Deleting all hidden events. -/
theorem observe_filter (h : Unwinding step out ok hidden R) (es : List ε) (s s' : σ) (hR : R s s')
    (hok : ∀ e ∈ es, ok e) :
    observe step out s es = observe step out s' (es.filter (fun e => !hidden e)) := by
  induction es generalizing s s' with
  | nil => rfl
  | cons e es ih =>
    have hoke := hok e List.mem_cons_self
    have hokes : ∀ x ∈ es, ok x := fun x hx => hok x (List.mem_cons_of_mem e hx)
    cases hh : hidden e with
    | true =>
      rcases h.respects s s' e hR hoke hh with ⟨hR', hout⟩
      rw [List.filter_cons_of_neg (by simp only [hh, Bool.not_true, Bool.false_eq_true,
        not_false_eq_true]), observe, hout, ih _ _ hR' hokes]
      rfl
    | false =>
      rcases h.consistent s s' e hR hoke hh with ⟨hR', hout⟩
      rw [List.filter_cons_of_pos (by simp only [hh, Bool.not_false]), observe, observe, hout,
        ih _ _ hR' hokes]

/-- Two lists that differ only in hidden events show the same. -/
theorem observe_eq (h : Unwinding step out ok hidden R) (es es' : List ε) (s : σ) (hR : R s s)
    (hok : ∀ e ∈ es, ok e) (hok' : ∀ e ∈ es', ok e)
    (heq : es.filter (fun e => !hidden e) = es'.filter (fun e => !hidden e)) :
    observe step out s es = observe step out s es' := by
  rw [h.observe_filter es s s hR hok, h.observe_filter es' s s hR hok', heq]

end Unwinding

end Trecs
