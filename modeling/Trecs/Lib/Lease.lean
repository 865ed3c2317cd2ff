import Mathlib.Logic.Function.Basic
import Trecs.Lib.Keyed

/-!
# Leases

A map of leases, each of which ends at some time, and a list of records that
implements it.

The list need not forget a lease when it ends, and it may forget it any time
later. So the two are compared only on the leases that have not ended: `Holds`
at a time says that the list finds the same unended leases as the map. Time only
makes that weaker, and deleting ended records from the list does not touch it.

## Main definitions

* `Lease`: An end and a tag.
* `Holds`: A list of records against a map of leases.

## Theorems

* `Holds.mono`: As time passes.
* `Holds.eraseKey`, `Holds.upsertKey`, `Holds.filterTag`: Changing both.
* `Holds.sweep`: Deleting ended records.
-/

namespace Trecs

open Option

/-- A lease ends, and carries a tag. -/
structure Lease (φ : Type*) where
  expires : Int
  tag : φ
deriving DecidableEq

variable {α κ φ : Type*} [DecidableEq κ] {key : α → κ} {lease : α → Lease φ}

/-- The list finds the same unended leases as the map. -/
def Holds (key : α → κ) (lease : α → Lease φ) (now : Int) (l : List α)
    (m : κ → Option (Lease φ)) : Prop :=
  ∀ (k : κ) (x : Lease φ), now < x.expires →
    ((lookupKey key k l).map lease = some x ↔ m k = some x)

namespace Holds

variable {now : Int} {l : List α} {m : κ → Option (Lease φ)}

theorem nil : Holds key lease now [] (fun _ => none) :=
  fun _ _ _ => Iff.rfl

theorem mono (h : Holds key lease now l m) (now' : Int) (hle : now ≤ now') :
    Holds key lease now' l m :=
  fun k x hx => h k x (by omega)

/-- Deleting a key from both. -/
theorem eraseKey (h : Holds key lease now l m) (hl : KeysDistinct key l) (k : κ) :
    Holds key lease now (eraseKey key k l) (Function.update m k none) := by
  intro k' x hx
  rw [lookupKey_eraseKey k k' l hl]
  by_cases hk : k' = k
  · rw [if_pos hk, hk, Function.update_self]
    rfl
  · rw [if_neg hk, Function.update_of_ne hk]
    exact h k' x hx

/-- Giving a key a new lease in both. -/
theorem upsertKey (h : Holds key lease now l m) (k : κ) (f : α → α) (new : α) (x : Lease φ)
    (hf : ∀ a, key (f a) = key a) (hnew : key new = k) (hfx : ∀ a, lease (f a) = x)
    (hnewx : lease new = x) :
    Holds key lease now (upsertKey key k f new l) (Function.update m k (some x)) := by
  intro k' y hy
  rw [lookupKey_upsertKey k k' l hf hnew]
  by_cases hk : k' = k
  · -- Whether there was a record or not, it has the new lease now.
    have hx : lease (((lookupKey key k l).map f).getD new) = x := by
      cases lookupKey key k l with
      | none => exact hnewx
      | some a => exact hfx a
    rw [if_pos hk, hk, Function.update_self, map_some, hx]
  · rw [if_neg hk, Function.update_of_ne hk]
    exact h k' y hy

/-- Keeping the leases with some tags in both. -/
theorem filterTag (h : Holds key lease now l m) (hl : KeysDistinct key l) (p : φ → Bool) :
    Holds key lease now (l.filter (fun a => p (lease a).tag))
      (fun k => (m k).filter (fun x => p x.tag)) := by
  intro k x hx
  rw [lookupKey_filter _ k l hl]
  have hk := h k x hx
  simp only [map_eq_some_iff, filter_eq_some_iff] at hk ⊢
  rw [← hk]
  constructor
  · rintro ⟨a, ⟨ha, hp⟩, hax⟩
    exact ⟨⟨a, ha, hax⟩, hax ▸ hp⟩
  · rintro ⟨⟨a, ha, hax⟩, hp⟩
    exact ⟨a, ⟨ha, hax.symm ▸ hp⟩, hax⟩

/-- Deleting records that have ended. -/
theorem sweep (h : Holds key lease now l m) (hl : KeysDistinct key l) :
    Holds key lease now (l.filter (fun a => now < (lease a).expires)) m := by
  intro k x hx
  rw [lookupKey_filter _ k l hl, ← h k x hx]
  simp only [map_eq_some_iff, filter_eq_some_iff, decide_eq_true_eq]
  constructor
  · rintro ⟨a, ⟨ha, _⟩, hax⟩
    exact ⟨a, ha, hax⟩
  · rintro ⟨a, ha, hax⟩
    exact ⟨a, ⟨ha, hax.symm ▸ hx⟩, hax⟩

/-- An unended record is one of the map. -/
theorem lease_of_mem (h : Holds key lease now l m) (hl : KeysDistinct key l) (a : α) (ha : a ∈ l)
    (hx : now < (lease a).expires) : m (key a) = some (lease a) := by
  rw [← h (key a) (lease a) hx, (mem_iff_lookupKey a l hl).mp ha, map_some]

end Holds

end Trecs
