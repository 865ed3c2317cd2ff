import Mathlib.Data.List.AList

/-!
# Tables

A Go map is an `AList` with values of one type. Mathlib has inserting, erasing
and looking up; what a sweep does is missing: going over all entries, changing
some and deleting others. `AgreeOff` compares two tables on part of the keys.

## Main definitions

* `retain`: Changing or deleting every entry.
* `AgreeOff`: Two tables agree but for some keys.

## Theorems

* `lookup_insert_eq_some`, `lookup_erase_eq_some`: What is found afterwards.
* `lookup_retain`: Each entry is treated on its own.
* `AgreeOff.insert`, `AgreeOff.erase`, `AgreeOff.retain`: Changing both tables.
-/

namespace Trecs

open List Option

variable {κ β : Type*}

/-- The entries of a list that `f` keeps, with the values it gives them. -/
def retainEntries (f : κ → β → Option β) (l : List (Sigma (fun _ : κ => β))) :
    List (Sigma (fun _ : κ => β)) :=
  l.filterMap (fun s => (f s.1 s.2).map (Sigma.mk s.1))

theorem keys_retainEntries_sublist (f : κ → β → Option β) (l : List (Sigma (fun _ : κ => β))) :
    List.Sublist (retainEntries f l).keys l.keys := by
  induction l with
  | nil => exact List.Sublist.refl _
  | cons s l ih =>
    simp only [retainEntries, filterMap_cons]
    cases f s.1 s.2 with
    | none => exact List.Sublist.cons s.1 ih
    | some v => exact Sublist.cons_cons s.1 ih

variable [DecidableEq κ]

theorem lookup_insert_eq_some (m : AList (fun _ : κ => β)) (k k' : κ) (v w : β) :
    (m.insert k w).lookup k' = some v ↔ (k' = k ∧ w = v) ∨ (k' ≠ k ∧ m.lookup k' = some v) := by
  by_cases hk : k' = k
  · rw [hk, AList.lookup_insert, some.injEq]
    simp
  · rw [AList.lookup_insert_ne hk]
    simp [hk]

theorem lookup_erase_eq_some (m : AList (fun _ : κ => β)) (k k' : κ) (v : β) :
    (m.erase k).lookup k' = some v ↔ k' ≠ k ∧ m.lookup k' = some v := by
  by_cases hk : k' = k
  · rw [hk, AList.lookup_erase]
    simp
  · rw [AList.lookup_erase_ne hk]
    simp [hk]

theorem dlookup_retainEntries (f : κ → β → Option β) (l : List (Sigma (fun _ : κ => β)))
    (hl : l.NodupKeys) (k : κ) :
    (retainEntries f l).dlookup k = (l.dlookup k).bind (f k) := by
  induction l with
  | nil => rfl
  | cons s l ih =>
    rcases s with ⟨a, b⟩
    rw [nodupKeys_cons] at hl
    have hrest := ih hl.2
    simp only [retainEntries, filterMap_cons] at hrest ⊢
    by_cases hak : a = k
    · rw [← hak, dlookup_cons_eq, bind_some]
      cases hf : f a b with
      | some v => simp only [map_some, dlookup_cons_eq]
      | none =>
        -- The key occurs once, so nothing behind takes its place.
        rw [hak] at hl ⊢
        simp only [map_none]
        rw [hrest, dlookup_eq_none.mpr hl.1, bind_none]
    · rw [dlookup_cons_ne l ⟨a, b⟩ (fun hc => hak hc.symm), ← hrest]
      cases f a b with
      | some v =>
        have hne : k ≠ (⟨a, v⟩ : Sigma (fun _ : κ => β)).1 := fun hc => hak hc.symm
        exact dlookup_cons_ne _ _ hne
      | none => rfl

/-- Going over all entries of a table, giving each a new value or deleting it. -/
def retain (f : κ → β → Option β) (t : AList (fun _ : κ => β)) : AList (fun _ : κ => β) :=
  ⟨retainEntries f t.entries, (keys_retainEntries_sublist f t.entries).nodup t.nodupKeys⟩

theorem lookup_retain (f : κ → β → Option β) (t : AList (fun _ : κ => β)) (k : κ) :
    (retain f t).lookup k = (t.lookup k).bind (f k) :=
  dlookup_retainEntries f t.entries t.nodupKeys k

/-! ### Tables that agree on some keys -/

/-- Two tables agree on all keys but those with `P`. -/
def AgreeOff (P : κ → Prop) (t t' : AList (fun _ : κ => β)) : Prop :=
  ∀ (k : κ), ¬ P k → t.lookup k = t'.lookup k

namespace AgreeOff

variable {P : κ → Prop} {t t' t'' : AList (fun _ : κ => β)}

theorem refl (t : AList (fun _ : κ => β)) : AgreeOff P t t := fun _ _ => rfl

theorem symm (h : AgreeOff P t t') : AgreeOff P t' t := fun k hk => (h k hk).symm

theorem trans (h : AgreeOff P t t') (h' : AgreeOff P t' t'') : AgreeOff P t t'' :=
  fun k hk => (h k hk).trans (h' k hk)

theorem insert (h : AgreeOff P t t') (k : κ) (v : β) : AgreeOff P (t.insert k v) (t'.insert k v) := by
  intro k' hk'
  by_cases heq : k' = k
  · rw [heq]
    exact (AList.lookup_insert t).trans (AList.lookup_insert t').symm
  · exact (AList.lookup_insert_ne heq).trans ((h k' hk').trans (AList.lookup_insert_ne heq).symm)

theorem erase (h : AgreeOff P t t') (k : κ) : AgreeOff P (t.erase k) (t'.erase k) := by
  intro k' hk'
  by_cases heq : k' = k
  · rw [heq]
    exact (AList.lookup_erase k t).trans (AList.lookup_erase k t').symm
  · exact (AList.lookup_erase_ne heq).trans ((h k' hk').trans (AList.lookup_erase_ne heq).symm)

theorem retain (h : AgreeOff P t t') (f : κ → β → Option β) :
    AgreeOff P (retain f t) (retain f t') := by
  intro k hk
  rw [lookup_retain, lookup_retain, h k hk]

/-- Changing one of the keys on which the tables need not agree. -/
theorem insert_right (h : AgreeOff P t t') (k : κ) (v : β) (hk : P k) :
    AgreeOff P t (t'.insert k v) := by
  intro k' hk'
  have hne : k' ≠ k := fun hc => hk' (hc ▸ hk)
  exact (h k' hk').trans (AList.lookup_insert_ne hne).symm

theorem erase_right (h : AgreeOff P t t') (k : κ) (hk : P k) : AgreeOff P t (t'.erase k) := by
  intro k' hk'
  have hne : k' ≠ k := fun hc => hk' (hc ▸ hk)
  exact (h k' hk').trans (AList.lookup_erase_ne hne).symm

end AgreeOff

end Trecs
