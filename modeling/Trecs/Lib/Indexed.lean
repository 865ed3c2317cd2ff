import Mathlib.Data.List.AList

/-!
# Tables with a Second Index

A table of records under their own keys, and a second table that leads from a
field of a record to its key. Go code keeps two maps for this and changes both
under one lock.

`Indexed field m index` says that the second table is nothing but the inverse of
the first. Deleting a record from both keeps that (`Indexed.erase`). Writing one
to both keeps it if nothing is overwritten that the other table still leads to
(`Indexed.insert`): the record replaced has the same field, and no record under
another key has it.

## Main definitions

* `Indexed`: The second table is the inverse of the first.

## Theorems

* `Indexed.empty`: Empty tables.
* `Indexed.insert`: Writing a record.
* `Indexed.erase`: Deleting a record.
-/

namespace Trecs

open Option

variable {κ ι β : Type*} [DecidableEq κ] [DecidableEq ι] (field : β → ι)

/-- `index` leads from the field of every record in `m` to its key, and from
    nothing else. -/
def Indexed (m : AList (fun _ : κ => β)) (index : AList (fun _ : ι => κ)) : Prop :=
  ∀ i k, index.lookup i = some k ↔ ∃ v, m.lookup k = some v ∧ field v = i

namespace Indexed

variable {field} {m : AList (fun _ : κ => β)} {index : AList (fun _ : ι => κ)}

theorem empty : Indexed field (∅ : AList (fun _ : κ => β)) (∅ : AList (fun _ : ι => κ)) := by
  intro i k
  simp

/-- The keys of two records with the same field are the same. -/
theorem key_unique (h : Indexed field m index) {k k' : κ} {v v' : β} (hv : m.lookup k = some v)
    (hv' : m.lookup k' = some v') (hfield : field v = field v') : k = k' := by
  have hk := (h (field v) k).mpr ⟨v, hv, rfl⟩
  have hk' := (h (field v) k').mpr ⟨v', hv', hfield.symm⟩
  rw [hk, some.injEq] at hk'
  exact hk'

theorem insert (h : Indexed field m index) {k : κ} {v : β}
    (hrecord : ∀ w, m.lookup k = some w → field w = field v)
    (hindex : ∀ k', index.lookup (field v) = some k' → k' = k) :
    Indexed field (m.insert k v) (index.insert (field v) k) := by
  intro i k'
  by_cases hi : i = field v
  · rw [hi, AList.lookup_insert, some.injEq]
    constructor
    · intro hk
      exact ⟨v, by rw [← hk, AList.lookup_insert], rfl⟩
    · rintro ⟨w, hw, hfield⟩
      by_contra hne
      -- The record is an old one, so the index already led from the field to it.
      rw [AList.lookup_insert_ne (Ne.symm hne)] at hw
      exact hne (hindex k' ((h _ k').mpr ⟨w, hw, hfield⟩)).symm
  · rw [AList.lookup_insert_ne hi, h i k']
    by_cases hk : k' = k
    · rw [hk, AList.lookup_insert]
      constructor
      · rintro ⟨w, hw, hfield⟩
        exact absurd (hfield.symm.trans (hrecord w hw)) hi
      · rintro ⟨w, hw, hfield⟩
        cases hw
        exact absurd hfield.symm hi
    · rw [AList.lookup_insert_ne hk]

theorem erase (h : Indexed field m index) {k : κ} {v : β} (hv : m.lookup k = some v) :
    Indexed field (m.erase k) (index.erase (field v)) := by
  intro i k'
  by_cases hi : i = field v
  · rw [hi, AList.lookup_erase]
    constructor
    · intro hnone
      cases hnone
    · rintro ⟨w, hw, hfield⟩
      by_cases hk : k' = k
      · rw [hk, AList.lookup_erase] at hw
        cases hw
      · rw [AList.lookup_erase_ne hk] at hw
        exact absurd (h.key_unique hw hv hfield) hk
  · rw [AList.lookup_erase_ne hi, h i k']
    by_cases hk : k' = k
    · rw [hk, AList.lookup_erase]
      constructor
      · rintro ⟨w, hw, hfield⟩
        rw [hv] at hw
        cases hw
        exact absurd hfield.symm hi
      · rintro ⟨w, hw, _⟩
        cases hw
    · rw [AList.lookup_erase_ne hk]

end Indexed

end Trecs
