import Mathlib.Data.List.Nodup

/-!
# Lists of Records with a Key

A table that is kept as a list of records, each found by a key of its own. This
is what a Go slice of pointers is when it is searched from the front, changed in
place where the key is found, and appended to where it is not.

The functions stop at the first record with the key. If the keys of a list are
distinct it does not matter where they stop, and the list is a finite map:
`lookupKey` after each of the functions is given in terms of `lookupKey` before.

## Main definitions

* `KeysDistinct`: No two records have the same key.
* `lookupKey`, `eraseKey`, `upsertKey`: Finding, deleting, and changing or
  appending a record.

## Theorems

* `lookupKey_eraseKey`, `lookupKey_upsertKey`, `lookupKey_filter`: The list as a
  finite map.
* `keysDistinct_eraseKey`, `keysDistinct_upsertKey`, `keysDistinct_filter`: The
  keys stay distinct.
-/

namespace Trecs

open List

variable {α κ : Type*} (key : α → κ)

/-- No two records have the same key. -/
def KeysDistinct (l : List α) : Prop := (l.map key).Nodup

variable [DecidableEq κ]

instance (l : List α) : Decidable (KeysDistinct key l) :=
  inferInstanceAs (Decidable (List.Nodup _))

/-- The first record with key `k`. -/
def lookupKey (k : κ) (l : List α) : Option α := l.find? (fun a => decide (key a = k))

/-- The list without the first record with key `k`. -/
def eraseKey (k : κ) (l : List α) : List α := l.eraseP (fun a => decide (key a = k))

/-- Changing the first record with key `k`, or appending a new one. -/
def upsertKey (k : κ) (f : α → α) (new : α) : List α → List α
  | [] => [new]
  | a :: l => if key a = k then f a :: l else a :: upsertKey k f new l

variable {key}

variable (k : κ) (a : α) (l : List α)

theorem lookupKey_cons :
    lookupKey key k (a :: l) = if key a = k then some a else lookupKey key k l := by
  by_cases hk : key a = k
  · rw [if_pos hk]
    exact find?_cons_of_pos (decide_eq_true hk)
  · rw [if_neg hk]
    exact find?_cons_of_neg (by simpa using hk)

theorem key_of_lookupKey (h : lookupKey key k l = some a) : key a = k := by
  simpa using find?_some h

theorem lookupKey_eq_none_iff : lookupKey key k l = none ↔ k ∉ l.map key := by
  simp [lookupKey]

/-- If the keys are distinct, a record is in the list if it is what its key
    finds. -/
theorem mem_iff_lookupKey (hl : KeysDistinct key l) : a ∈ l ↔ lookupKey key (key a) l = some a := by
  constructor
  · intro ha
    induction l with
    | nil => cases ha
    | cons b l ih =>
      have hl' : key b ∉ l.map key ∧ KeysDistinct key l := nodup_cons.mp hl
      rw [lookupKey_cons]
      rcases mem_cons.mp ha with heq | hmem
      · rw [heq, if_pos rfl]
      · rw [if_neg, ih hl'.2 hmem]
        intro hk
        exact hl'.1 (hk ▸ List.mem_map_of_mem hmem)
  · intro h
    exact mem_of_find?_eq_some h

/-! ### Deleting -/

theorem keysDistinct_eraseKey (hl : KeysDistinct key l) : KeysDistinct key (eraseKey key k l) :=
  List.Nodup.sublist (List.Sublist.map key eraseP_sublist) hl

theorem lookupKey_eraseKey (k k' : κ) (l : List α) (hl : KeysDistinct key l) :
    lookupKey key k' (eraseKey key k l) = if k' = k then none else lookupKey key k' l := by
  induction l with
  | nil => exact (ite_self _).symm
  | cons a l ih =>
    have hl' : key a ∉ l.map key ∧ KeysDistinct key l := nodup_cons.mp hl
    by_cases hk : key a = k
    · -- The key does not occur behind the record that is deleted.
      have herase : eraseKey key k (a :: l) = l := eraseP_cons_of_pos (decide_eq_true hk)
      rw [herase, lookupKey_cons]
      by_cases hk' : k' = k
      · rw [if_pos hk', hk', lookupKey_eq_none_iff, ← hk]
        exact hl'.1
      · rw [if_neg hk', if_neg (fun hc => hk' (hc.symm.trans hk))]
    · have herase : eraseKey key k (a :: l) = a :: eraseKey key k l :=
        eraseP_cons_of_neg (by simpa using hk)
      rw [herase, lookupKey_cons, lookupKey_cons, ih hl'.2]
      by_cases ha : key a = k'
      · rw [if_pos ha, if_pos ha, if_neg (fun hc => hk (ha.trans hc))]
      · rw [if_neg ha, if_neg ha]

/-! ### Changing or appending -/

variable {f : α → α} {new : α}

/-- A record of the changed list is an old one, the changed one or the new one. -/
theorem mem_upsertKey (k : κ) (l : List α) (a : α) (h : a ∈ upsertKey key k f new l) :
    a ∈ l ∨ a = new ∨ ∃ b ∈ l, a = f b := by
  induction l with
  | nil => exact .inr (.inl (mem_singleton.mp h))
  | cons b l ih =>
    rw [upsertKey] at h
    by_cases hk : key b = k
    · rw [if_pos hk] at h
      rcases mem_cons.mp h with rfl | hl
      · exact .inr (.inr ⟨b, mem_cons_self, rfl⟩)
      · exact .inl (mem_cons_of_mem b hl)
    · rw [if_neg hk] at h
      rcases mem_cons.mp h with rfl | hl
      · exact .inl mem_cons_self
      · rcases ih hl with hold | hnew | ⟨c, hc, heq⟩
        · exact .inl (mem_cons_of_mem b hold)
        · exact .inr (.inl hnew)
        · exact .inr (.inr ⟨c, mem_cons_of_mem b hc, heq⟩)

theorem mem_map_upsertKey (k k' : κ) (l : List α) (hf : ∀ a, key (f a) = key a)
    (hnew : key new = k) :
    k' ∈ (upsertKey key k f new l).map key ↔ k' = k ∨ k' ∈ l.map key := by
  induction l with
  | nil => simp only [upsertKey, map_cons, hnew, map_nil, mem_singleton,
      not_mem_nil, or_false]
  | cons a l ih =>
    rw [upsertKey]
    by_cases hk : key a = k
    · rw [if_pos hk, map_cons, hf, ← map_cons]
      refine ⟨.inr, ?_⟩
      rintro (hc | hc)
      · rw [hc, ← hk]
        exact mem_cons_self
      · exact hc
    · rw [if_neg hk, map_cons, mem_cons, ih, map_cons, mem_cons]
      exact or_left_comm

theorem keysDistinct_upsertKey (k : κ) (l : List α) (hf : ∀ a, key (f a) = key a)
    (hnew : key new = k) (hl : KeysDistinct key l) : KeysDistinct key (upsertKey key k f new l) := by
  induction l with
  | nil => exact nodup_singleton _
  | cons a l ih =>
    have hl' : key a ∉ l.map key ∧ KeysDistinct key l := nodup_cons.mp hl
    rw [upsertKey]
    by_cases hk : key a = k
    · rw [if_pos hk, KeysDistinct, map_cons, hf]
      exact hl
    · rw [if_neg hk]
      refine nodup_cons.mpr ⟨?_, ih hl'.2⟩
      rw [mem_map_upsertKey k (key a) l hf hnew]
      exact not_or.mpr ⟨hk, hl'.1⟩

theorem lookupKey_upsertKey (k k' : κ) (l : List α) (hf : ∀ a, key (f a) = key a)
    (hnew : key new = k) :
    lookupKey key k' (upsertKey key k f new l) =
      if k' = k then some (((lookupKey key k l).map f).getD new) else lookupKey key k' l := by
  induction l with
  | nil =>
    rw [upsertKey, lookupKey_cons, hnew]
    by_cases hk' : k' = k
    · rw [if_pos hk'.symm, if_pos hk']
      rfl
    · rw [if_neg (Ne.symm hk'), if_neg hk']
  | cons a l ih =>
    rw [upsertKey]
    by_cases hk : key a = k
    · rw [if_pos hk, lookupKey_cons, lookupKey_cons, lookupKey_cons, hf, if_pos hk, hk]
      by_cases hk' : k' = k
      · rw [if_pos hk'.symm, if_pos hk']
        rfl
      · rw [if_neg (Ne.symm hk'), if_neg hk', if_neg (Ne.symm hk')]
    · rw [if_neg hk, lookupKey_cons, lookupKey_cons, lookupKey_cons, if_neg hk, ih]
      by_cases ha : key a = k'
      · rw [if_pos ha, if_pos ha, if_neg (fun hc => hk (ha.trans hc))]
      · rw [if_neg ha, if_neg ha]

/-! ### Keeping some of the records -/

omit [DecidableEq κ] in
theorem keysDistinct_filter (p : α → Bool) (l : List α) (hl : KeysDistinct key l) :
    KeysDistinct key (l.filter p) :=
  List.Nodup.sublist (List.Sublist.map key filter_sublist) hl

theorem lookupKey_filter (p : α → Bool) (k : κ) (l : List α) (hl : KeysDistinct key l) :
    lookupKey key k (l.filter p) = (lookupKey key k l).filter p := by
  induction l with
  | nil => rfl
  | cons a l ih =>
    have hl' : key a ∉ l.map key ∧ KeysDistinct key l := nodup_cons.mp hl
    rw [lookupKey_cons]
    by_cases hk : key a = k
    · have hnone : lookupKey key k l = none := by
        rw [lookupKey_eq_none_iff, ← hk]
        exact hl'.1
      rw [if_pos hk, Option.filter_some]
      cases hp : p a with
      | true =>
        rw [filter_cons_of_pos hp, lookupKey_cons, if_pos hk]
        rfl
      | false =>
        rw [filter_cons_of_neg (by rw [hp]; exact Bool.false_ne_true), ih hl'.2, hnone]
        rfl
    · rw [if_neg hk, ← ih hl'.2]
      cases hp : p a with
      | true => rw [filter_cons_of_pos hp, lookupKey_cons, if_neg hk]
      | false => rw [filter_cons_of_neg (by rw [hp]; exact Bool.false_ne_true)]

end Trecs
