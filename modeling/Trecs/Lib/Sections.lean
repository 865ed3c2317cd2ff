import Mathlib.Data.List.Basic

/-!
# Reading Back Sections

A text that was written item by item is read line by line. An item may have
become several lines, and reading it back may give another item or an error.
When the lines of one item take a state with some items to the state with one
more, the lines of all items take it to the state with all of them.

## Theorems

* `foldlM_sections`, `foldlM_map_ok`: The lines of a list of items.
* `mapM_eq_self_iff`: When every item comes back as it was.
-/

namespace Trecs

open List

variable {σ α β ε : Type}

/-- Reading the lines of `xs` back, in states that hold the items read so far. -/
theorem foldlM_sections (step : σ → β → Except ε σ) (lines : α → List β) (put : List α → σ)
    (reread : α → Except ε α) (xs : List α)
    (h : ∀ x ∈ xs, ∀ done, (lines x).foldlM step (put done) =
      (reread x).map (fun y => put (done ++ [y]))) (done : List α) :
    (xs.flatMap lines).foldlM step (put done) =
      (xs.mapM reread).map (fun ys => put (done ++ ys)) := by
  induction xs generalizing done with
  | nil =>
    rw [flatMap_nil, mapM_nil]
    exact congrArg (fun l => Except.ok (put l)) (append_nil done).symm
  | cons x xs ih =>
    rw [flatMap_cons, foldlM_append, h x mem_cons_self, mapM_cons]
    cases hx : reread x with
    | error e => rfl
    | ok y =>
      have hrest := ih (fun z hz => h z (mem_cons_of_mem x hz)) (done ++ [y])
      simp only [append_assoc, singleton_append] at hrest
      refine hrest.trans ?_
      cases xs.mapM reread with
      | error e => rfl
      | ok ys => rfl

theorem foldlM_append_ok {step : σ → β → Except ε σ} {s t : σ} {ls : List β}
    (h : ls.foldlM step s = .ok t) (ms : List β) :
    (ls ++ ms).foldlM step s = ms.foldlM step t := by
  rw [foldlM_append, h]
  rfl

theorem foldlM_append_map {γ : Type} {step : σ → β → Except ε σ} {s : σ} {ls : List β}
    {x : Except ε γ} {put : γ → σ} (h : ls.foldlM step s = x.map put) (ms : List β) :
    (ls ++ ms).foldlM step s = x.bind (fun a => ms.foldlM step (put a)) := by
  rw [foldlM_append, h]
  cases x with
  | error e => rfl
  | ok a => rfl

/-- Items that all come back as they were. -/
theorem mapM_of_eq_self (reread : α → Except ε α) (xs : List α) (h : ∀ x ∈ xs, reread x = .ok x) :
    xs.mapM reread = .ok xs := by
  induction xs with
  | nil => rfl
  | cons x xs ih =>
    rw [mapM_cons, h x mem_cons_self, ih (fun z hz => h z (mem_cons_of_mem x hz))]
    rfl

/-- The lines of items of one line that all come back. -/
theorem foldlM_map_ok (step : σ → β → Except ε σ) (line : α → β) (put : List α → σ) (xs : List α)
    (h : ∀ x ∈ xs, ∀ done, step (put done) (line x) = .ok (put (done ++ [x]))) (done : List α) :
    (xs.map line).foldlM step (put done) = .ok (put (done ++ xs)) := by
  have hone : ∀ x ∈ xs, ∀ done, [line x].foldlM step (put done) =
      (Except.ok x : Except ε α).map (fun y => put (done ++ [y])) := by
    intro x hx done
    rw [foldlM_cons, h x hx]
    rfl
  rw [map_eq_flatMap, foldlM_sections step _ put Except.ok xs hone,
    mapM_of_eq_self Except.ok xs (fun _ _ => rfl)]
  rfl

theorem mapM_eq_self_iff (reread : α → Except ε α) (xs : List α) :
    xs.mapM reread = .ok xs ↔ ∀ x ∈ xs, reread x = .ok x := by
  refine ⟨fun h => ?_, mapM_of_eq_self reread xs⟩
  induction xs with
  | nil => exact fun _ hx => by cases hx
  | cons x xs ih =>
    rw [mapM_cons] at h
    cases hx : reread x with
    | error e =>
      rw [hx] at h
      cases h
    | ok y =>
      cases hxs : xs.mapM reread with
      | error e =>
        rw [hx, hxs] at h
        cases h
      | ok ys =>
        rw [hx, hxs] at h
        rcases cons.inj (Except.ok.inj h) with ⟨hy, hys⟩
        exact forall_mem_cons.mpr ⟨hy ▸ hx, ih (hys ▸ hxs)⟩

end Trecs
