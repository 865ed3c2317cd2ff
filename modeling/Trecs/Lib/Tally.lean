import Mathlib.Data.List.AList
import Mathlib.Data.List.InsertIdx

/-!
# Tallies

Counting over a list of running jobs: each job contributes a number that
depends on where it is, and a step of one job changes one entry of the list.
The lemmas say what the sum does when an entry is replaced, removed or
appended, without subtraction.

## Main definitions

* `tally`: The sum of a measure over a list.
* `resumeAt`: The list after one job has gone on or returned.

## Theorems

* `tally_set`, `tally_eraseIdx`, `tally_resumeAt`: One entry changes.
* `tally_insert`, `tally_erase`: A map gets a new key or loses one.
-/

namespace Trecs

open List Option

variable {α : Type*} (f : α → Nat)

/-- The sum of a measure over a list. -/
def tally : List α → Nat
  | [] => 0
  | a :: l => f a + tally l

@[simp] theorem tally_nil : tally f [] = 0 := rfl

variable (l : List α) (i : Nat) (a : α) (o : Option α)

@[simp] theorem tally_cons (l : List α) : tally f (a :: l) = f a + tally f l := rfl

@[simp] theorem tally_append (l l' : List α) : tally f (l ++ l') = tally f l + tally f l' := by
  induction l with
  | nil => rw [nil_append, tally_nil, Nat.zero_add]
  | cons a l ih => rw [cons_append, tally_cons, tally_cons, ih, Nat.add_assoc]

theorem tally_replicate (n : Nat) : tally f (List.replicate n a) = n * f a := by
  induction n with
  | zero => rw [replicate_zero, tally_nil, Nat.zero_mul]
  | succ n ih => rw [replicate_succ, tally_cons, ih, Nat.succ_mul, Nat.add_comm]

theorem tally_set (a b : α) (hi : l[i]? = some a) :
    tally f (l.set i b) + f a = tally f l + f b := by
  induction l generalizing i with
  | nil => exact absurd hi (by simp only [getElem?_nil, reduceCtorEq, not_false_eq_true])
  | cons c l ih =>
    cases i with
    | zero =>
      rw [getElem?_cons_zero, some.injEq] at hi
      rw [set_cons_zero, tally_cons, tally_cons, hi]
      omega
    | succ i =>
      rw [getElem?_cons_succ] at hi
      have := ih i hi
      rw [set_cons_succ, tally_cons, tally_cons]
      omega

theorem tally_eraseIdx (hi : l[i]? = some a) : tally f (l.eraseIdx i) + f a = tally f l := by
  induction l generalizing i with
  | nil => cases hi
  | cons c l ih =>
    cases i with
    | zero =>
      rw [getElem?_cons_zero, some.injEq] at hi
      rw [eraseIdx_cons_zero, tally_cons, hi]
      omega
    | succ i =>
      rw [getElem?_cons_succ] at hi
      have := ih i hi
      rw [eraseIdx_cons_succ, tally_cons, tally_cons]
      omega

/-- The list after the job at `i` has gone on as the given one or returned. -/
def resumeAt (l : List α) (i : Nat) : Option α → List α
  | some a => l.set i a
  | none => l.eraseIdx i

theorem mem_resumeAt (a : α) (ha : a ∈ resumeAt l i o) : a ∈ l ∨ o = some a := by
  cases o with
  | none => exact .inl (mem_of_mem_eraseIdx ha)
  | some b =>
    rcases mem_or_eq_of_mem_set ha with h | h
    · exact .inl h
    · rw [h]
      exact .inr rfl

omit f in
theorem map_resumeAt {β : Type*} (g : α → β) (l : List α) (i : Nat) (o : Option α) :
    (resumeAt l i o).map g = resumeAt (l.map g) i (o.map g) := by
  cases o with
  | none => exact (eraseIdx_map g l i).symm
  | some a => exact map_set

theorem tally_resumeAt (hi : l[i]? = some a) :
    tally f (resumeAt l i o) + f a = tally f l + (o.map f).getD 0 := by
  cases o with
  | none => exact tally_eraseIdx f l i a hi
  | some b => exact tally_set f l i a b hi

theorem le_tally (ha : a ∈ l) : f a ≤ tally f l := by
  induction l with
  | nil => contradiction
  | cons c l ih =>
    rw [tally_cons]
    rcases mem_cons.mp ha with h | h
    · rw [h]
      omega
    · have := ih h
      omega

theorem tally_eq_zero (h : ∀ a ∈ l, f a = 0) : tally f l = 0 := by
  induction l with
  | nil => rfl
  | cons c l ih =>
    rw [tally_cons, h c mem_cons_self, ih (fun a ha => h a (mem_cons_of_mem c ha))]

theorem tally_le_length (h : ∀ a, f a ≤ 1) : tally f l ≤ l.length := by
  induction l with
  | nil => exact Nat.le_refl 0
  | cons c l ih =>
    have hc := h c
    rw [tally_cons, length_cons]
    omega

theorem tally_congr (g : α → Nat) (l : List α) (h : ∀ a ∈ l, f a = g a) :
    tally f l = tally g l := by
  induction l with
  | nil => rfl
  | cons c l ih =>
    rw [tally_cons, tally_cons, h c mem_cons_self,
      ih (fun a ha => h a (mem_cons_of_mem c ha))]

section Map

variable {κ : Type*} {β : κ → Type*} [DecidableEq κ] (g : Sigma β → Nat)

theorem tally_insert (m : AList β) (k : κ) (v : β k) (hk : m.lookup k = none) :
    tally g (m.insert k v).entries = g ⟨k, v⟩ + tally g m.entries := by
  rw [AList.entries_insert_of_notMem (AList.lookup_eq_none.mp hk), tally_cons]

theorem tally_erase (m : AList β) (k : κ) (v : β k) (hk : m.lookup k = some v) :
    tally g (m.erase k).entries + g ⟨k, v⟩ = tally g m.entries := by
  have hmem : k ∈ m.keys := AList.lookup_isSome.mp (by rw [hk]; rfl)
  rcases exists_of_kerase hmem with ⟨w, l₁, l₂, -, hentries, herase⟩
  have hin : (⟨k, w⟩ : Sigma β) ∈ m.entries := by
    rw [hentries]
    exact mem_append_right l₁ mem_cons_self
  have hvw : some v = some w := by
    rw [← hk]
    exact mem_def.mp (AList.mem_lookup_iff.mpr hin)
  change tally g (List.kerase k m.entries) + _ = _
  rw [herase, hentries, some.inj hvw, tally_append, tally_append,
    tally_cons]
  omega

end Map

end Trecs
