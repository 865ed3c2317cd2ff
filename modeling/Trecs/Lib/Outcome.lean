import Mathlib.Tactic.Common

/-!
# Computations That May Fail

How a computation in `Except` comes to a value: each of its parts did, and none
of the checks on the way said otherwise. And how it keeps clear of one way to
fail: each of its parts does.

## Main definitions

* `Avoids`: A computation that does not fail in a given way.

## Theorems

* `bind_eq_ok`, `map_eq_ok`: A computation in several parts.
* `guard_eq_ok`: A computation behind a check.
* `Avoids.map`, `Avoids.bind`, `Avoids.ite`: Parts that avoid a failure.
-/

namespace Trecs

variable {ε α β : Type}

theorem map_eq_ok {f : α → β} {x : Except ε α} {b : β} (h : x.map f = .ok b) :
    ∃ a, x = .ok a ∧ f a = b := by
  cases x with
  | error e => contradiction
  | ok a => exact ⟨a, rfl, Except.ok.inj h⟩

theorem bind_eq_ok {f : α → Except ε β} {x : Except ε α} {b : β}
    (h : x >>= f = .ok b) : ∃ a, x = .ok a ∧ f a = .ok b := by
  cases x with
  | error e => contradiction
  | ok a => exact ⟨a, rfl, h⟩

theorem guard_eq_ok {c : Prop} [Decidable c] {e : ε} {x : Except ε α} {a : α}
    (h : (if c then .error e else x) = .ok a) : ¬ c ∧ x = .ok a := by
  by_cases hc : c
  · rw [if_pos hc] at h
    contradiction
  · rw [if_neg hc] at h
    exact ⟨hc, h⟩

/-- A computation that does not fail with `e`. -/
def Avoids (e : ε) (x : Except ε α) : Prop := x ≠ .error e

namespace Avoids

variable {e : ε} {x y : Except ε α}

theorem ok (a : α) : Avoids e (.ok a) := by
  intro h
  cases h

theorem error {e' : ε} (h : e' ≠ e) : Avoids e (.error e' : Except ε α) :=
  fun heq => h (Except.error.inj heq)

/-- The same failure of a computation of another type. -/
theorem retype {e' : ε} (h : Avoids e (.error e' : Except ε α)) :
    Avoids e (.error e' : Except ε β) := error (fun heq => h (congrArg Except.error heq))

theorem map_iff {f : α → β} : Avoids e (x.map f) ↔ Avoids e x := by
  cases x with
  | error e' => exact ⟨retype, retype⟩
  | ok a => exact ⟨fun _ => ok a, fun _ => ok (f a)⟩

theorem map {f : α → β} (h : Avoids e x) : Avoids e (x.map f) := map_iff.mpr h

theorem bind {f : α → Except ε β} (h : Avoids e x) (hf : ∀ a, x = .ok a → Avoids e (f a)) :
    Avoids e (x >>= f) := by
  cases x with
  | error e' => exact retype h
  | ok a => exact hf a rfl

theorem ite {c : Prop} [Decidable c] (hx : c → Avoids e x) (hy : ¬ c → Avoids e y) :
    Avoids e (if c then x else y) := by
  by_cases hc : c
  · rw [if_pos hc]
    exact hx hc
  · rw [if_neg hc]
    exact hy hc

end Avoids

end Trecs
