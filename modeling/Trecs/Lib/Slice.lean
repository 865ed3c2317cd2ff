import Trecs.Lib.Wire

/-!
# Reading and Filling Slices

A read of a slice at an index or between two indices is a panic in Go when an
index is out of range, and so is a read of a word from a slice that is too short
for it. `none` is that panic here.

A slice also has room behind it, in the array it is a part of. Code that reuses
a slice takes as much of this room as it needs, finds there what was left behind
by its last use, and writes over it. `fill_of_some` is the loop that does so.

## Main definitions

* `orFail`: A panic as one of the ways a computation fails.
* `slice`, `sliceFrom`: `s[i:j]` and `s[i:]`.
* `readUint16`, `readUint32`: A word from the front of a slice.
* `Slice`: A slice with the room behind it.
* `Slice.resize`: A slice of a given length, the old one if it has the room.
* `Slice.fill`: Storing a value at every index.

## Theorems

* `slice_of_le`, `sliceFrom_of_le`, `getElem?_eq_getD`: Reads in range.
* `Slice.fill_of_some`: A loop that stores to every index of a slice.
-/

namespace Trecs

open List Option

/-- A panic as one of the ways a computation fails. -/
def orFail {ε α : Type} (panic : ε) : Option α → Except ε α
  | some a => .ok a
  | none => .error panic

theorem orFail_some_bind {ε α β : Type} (panic : ε) (a : α) (f : α → Except ε β) :
    orFail panic (some a) >>= f = f a := rfl

section Reads

variable {α : Type} (s : List α)

/-- `s[i:j]`. -/
def slice (i j : Nat) : Option (List α) :=
  if i ≤ j ∧ j ≤ s.length then some ((s.drop i).take (j - i)) else none

/-- `s[i:]`. -/
def sliceFrom (i : Nat) : Option (List α) := if i ≤ s.length then some (s.drop i) else none

theorem slice_of_le {i j : Nat} (hij : i ≤ j) (hj : j ≤ s.length) :
    slice s i j = some ((s.drop i).take (j - i)) := if_pos ⟨hij, hj⟩

theorem sliceFrom_of_le {i : Nat} (hi : i ≤ s.length) : sliceFrom s i = some (s.drop i) := if_pos hi

theorem getElem?_eq_getD {i : Nat} (d : α) (hi : i < s.length) : s[i]? = some (s.getD i d) := by
  rw [getD_eq_getElem?_getD, getElem?_eq_getElem hi]
  rfl

end Reads

/-- `binary.BigEndian.Uint16`. -/
def readUint16 (s : Bytes) : Option UInt16 := if 2 ≤ s.length then some (uint16 s) else none

/-- `binary.BigEndian.Uint32`. -/
def readUint32 (s : Bytes) : Option UInt32 := if 4 ≤ s.length then some (uint32 s) else none

section Words

variable {s : Bytes} {i j : Nat}

theorem slice_readUint16 (hij : i + 2 = j) (hj : j ≤ s.length) :
    (slice s i j).bind readUint16 = some (uint16 (s.drop i)) := by
  rw [slice_of_le s (by omega) hj, bind_some, readUint16, uint16, take_take,
    min_eq_left (by omega), if_pos (by rw [length_take, length_drop]; omega)]
  rfl

theorem slice_readUint32 (hij : i + 4 = j) (hj : j ≤ s.length) :
    (slice s i j).bind readUint32 = some (uint32 (s.drop i)) := by
  rw [slice_of_le s (by omega) hj, bind_some, readUint32, uint32, take_take,
    min_eq_left (by omega), if_pos (by rw [length_take, length_drop]; omega)]
  rfl

theorem sliceFrom_readUint16 (h : i + 2 ≤ s.length) :
    (sliceFrom s i).bind readUint16 = some (uint16 (s.drop i)) := by
  rw [sliceFrom_of_le s (by omega), bind_some, readUint16,
    if_pos (by rw [length_drop]; omega)]

theorem sliceFrom_readUint32 (h : i + 4 ≤ s.length) :
    (sliceFrom s i).bind readUint32 = some (uint32 (s.drop i)) := by
  rw [sliceFrom_of_le s (by omega), bind_some, readUint32,
    if_pos (by rw [length_drop]; omega)]

/-- A word that is cut off by the end of the slice. -/
theorem sliceFrom_readUint32_of_lt (h : s.length < i + 4) :
    (sliceFrom s i).bind readUint32 = none := by
  unfold sliceFrom readUint32
  by_cases hi : i ≤ s.length
  · rw [if_pos hi, bind_some, if_neg (by rw [length_drop]; omega)]
  · rw [if_neg hi, bind_none]

end Words

/-- A slice and what its array has behind it. -/
structure Slice (α : Type) where
  items : List α
  spare : List α
deriving Repr, DecidableEq

namespace Slice

variable {α : Type}

/-- `cap`. -/
def cap (s : Slice α) : Nat := s.items.length + s.spare.length

/-- `s[:n]`. -/
def upTo (s : Slice α) (n : Nat) : Option (Slice α) :=
  if n ≤ s.cap then some ⟨(s.items ++ s.spare).take n, (s.items ++ s.spare).drop n⟩ else none

/-- `make`, with the zero value of the type. -/
def make (zero : α) (n : Nat) : Slice α := ⟨List.replicate n zero, []⟩

/-- `append` of one value. A new array is made without spare room here; how much
    Go gives it is not specified. -/
def append (s : Slice α) (a : α) : Slice α := ⟨s.items ++ [a], s.spare.tail⟩

/-- `s[i] = a`. -/
def set (s : Slice α) (i : Nat) (a : α) : Option (Slice α) :=
  if i < s.items.length then some { s with items := s.items.set i a } else none

/-- `copy`. -/
def copy (s : Slice α) (src : List α) : Slice α :=
  { s with items := src.take s.items.length ++ s.items.drop src.length }

/-- A slice of `n` values for reuse: the old one if its array is large enough. -/
def resize (s : Slice α) (zero : α) (n : Nat) : Option (Slice α) :=
  if s.cap < n then some (make zero n) else s.upTo n

/-- A loop that stores a value at each of the first `n` indices. -/
def fill (s : Slice α) (n : Nat) (f : Nat → Option α) : Option (Slice α) :=
  (List.range n).foldlM (fun s i => (f i).bind (s.set i)) s

theorem exists_resize (s : Slice α) (zero : α) (n : Nat) :
    ∃ t, s.resize zero n = some t ∧ t.items.length = n := by
  unfold resize
  by_cases hcap : s.cap < n
  · rw [if_pos hcap]
    exact ⟨_, rfl, length_replicate⟩
  · rw [if_neg hcap, upTo, if_pos (Nat.le_of_not_lt hcap)]
    refine ⟨_, rfl, length_take_of_le ?_⟩
    rw [length_append]
    exact Nat.le_of_not_lt hcap

theorem upTo_zero (s : Slice α) : s.upTo 0 = some ⟨[], s.items ++ s.spare⟩ := rfl

theorem copy_items (s : Slice α) (src : List α) (h : s.items.length = src.length) :
    (s.copy src).items = src := by
  rw [copy, h, take_length, ← h, drop_length, append_nil]

theorem fill_succ (s : Slice α) (n : Nat) (f : Nat → Option α) :
    s.fill (n + 1) f = (s.fill n f).bind (fun t => (f n).bind (t.set n)) := by
  rw [fill, range_succ, foldlM_append]
  exact congrArg _ (funext (fun t => bind_pure _))

theorem fill_of_some (s : Slice α) (n : Nat) {f : Nat → Option α} {v : Nat → α}
    (hn : n ≤ s.items.length) (hf : ∀ i, i < n → f i = some (v i)) :
    s.fill n f = some ⟨(List.range n).map v ++ s.items.drop n, s.spare⟩ := by
  induction n with
  | zero => rfl
  | succ n ih =>
    have hlen : ((List.range n).map v).length = n := by rw [length_map, length_range]
    have hat : n < ((List.range n).map v ++ s.items.drop n).length := by
      rw [length_append, hlen, length_drop]
      omega
    rw [fill_succ, ih (by omega) (fun i hi => hf i (by omega)), bind_some,
      hf n (Nat.lt_succ_self n), bind_some, set, if_pos hat,
      set_append_right n _ hlen.le, hlen, Nat.sub_self, drop_eq_getElem_cons hn,
      set_cons_zero, range_succ, map_append, append_assoc]
    rfl

/-- The state before the turn that panics does not matter. -/
theorem fill_of_none (s : Slice α) {n i : Nat} {f : Nat → Option α} (hi : i < n) (hf : f i = none) :
    s.fill n f = none := by
  induction n with
  | zero => exact absurd hi (Nat.not_lt_zero i)
  | succ n ih =>
    rw [fill_succ]
    by_cases hlast : i = n
    · rw [← hlast, hf]
      exact bind_fun_none _
    · rw [ih (by omega), bind_none]

end Slice

end Trecs
