import Trecs.Lib.Bytes

/-!
# Host and Port

Cutting a text at its last separator, and Go's `net.SplitHostPort`, which finds
the port behind the last colon. A host with colons of its own stands in brackets.

What is split is a host and a port in one of two forms
(`splitHostPort_eq_some`), and both forms are split again into what they were
made from (`splitHostPort_plain`, `splitHostPort_bracketed`).

## Main definitions

* `cutLast`: The text before and after the last separator.
* `splitHostPort`: `net.SplitHostPort`.

## Theorems

* `cutLast_eq_some_iff`: Where the last separator is.
* `splitHostPort_plain`, `splitHostPort_bracketed`: Splitting what was joined.
-/

namespace Trecs

open List Option

/-- The text before the last separator and the text after it, or `none` when
    there is no separator. -/
def cutLast (sep : UInt8) (s : Bytes) : Option (Bytes × Bytes) :=
  (cut sep s.reverse).map (fun p => (p.2.reverse, p.1.reverse))

theorem cutLast_append (sep : UInt8) (a r : Bytes) (h : sep ∉ r) :
    cutLast sep (a ++ sep :: r) = some (a, r) := by
  have hrev : (a ++ sep :: r).reverse = r.reverse ++ sep :: a.reverse := by
    rw [reverse_append, reverse_cons, append_assoc, singleton_append]
  rw [cutLast, hrev, cut_append sep _ _ (by rwa [mem_reverse]), map_some,
    reverse_reverse, reverse_reverse]

theorem cutLast_eq_some_iff (sep : UInt8) (s a r : Bytes) :
    cutLast sep s = some (a, r) ↔ s = a ++ sep :: r ∧ sep ∉ r := by
  constructor
  · intro h
    rw [cutLast, map_eq_some_iff] at h
    rcases h with ⟨⟨x, y⟩, hcut, hp⟩
    rcases (cut_eq_some_iff sep s.reverse x y).mp hcut with ⟨hs, hx⟩
    rw [Prod.mk.injEq] at hp
    rw [← hp.1, ← hp.2, mem_reverse]
    refine ⟨?_, hx⟩
    rw [← reverse_reverse s, hs, reverse_append, reverse_cons, append_assoc,
      singleton_append]
  · rintro ⟨hs, hr⟩
    rw [hs]
    exact cutLast_append sep a r hr

/-- `net.SplitHostPort`. -/
def splitHostPort (s : Bytes) : Option (Bytes × Bytes) :=
  match cutLast 58 s with
  | none => none
  | some (front, port) =>
    if s.head? = some 91 then
      match cut 93 s with
      | none => none
      | some (a, r) =>
        -- The first closing bracket has to stand right in front of the last colon.
        if r = 58 :: port then
          if 91 ∈ s.drop 1 ∨ 93 ∈ r then none else some (a.drop 1, port)
        else none
    else if 58 ∈ front then none
    else if 91 ∈ s ∨ 93 ∈ s then none
    else some (front, port)

/-- What is split is a host without brackets, plain or between brackets, a colon
    and a port without colons. -/
theorem splitHostPort_eq_some (s host port : Bytes) (h : splitHostPort s = some (host, port)) :
    58 ∉ port ∧ 91 ∉ host ∧
      (s = host ++ 58 :: port ∨ s = 91 :: (host ++ 93 :: 58 :: port)) := by
  unfold splitHostPort at h
  rcases hlast : cutLast 58 s with _ | ⟨front, p⟩
  · rw [hlast] at h
    contradiction
  · rcases (cutLast_eq_some_iff 58 s front p).mp hlast with ⟨hs, hp⟩
    rw [hlast] at h
    simp only at h
    by_cases hhead : s.head? = some 91
    · rw [if_pos hhead] at h
      rcases hcut : cut 93 s with _ | ⟨a, r⟩
      · rw [hcut] at h
        contradiction
      · rcases (cut_eq_some_iff 93 s a r).mp hcut with ⟨hsa, ha⟩
        rw [hcut] at h
        simp only [ite_none_right_eq_some, ite_none_left_eq_some,
          some.injEq, Prod.mk.injEq, not_or] at h
        rcases h with ⟨hr, ⟨hopen, _⟩, hhost, hport⟩
        cases a with
        | nil =>
          -- The text starts with the closing bracket.
          rw [hsa, nil_append, head?_cons, some.injEq] at hhead
          exact absurd hhead (by decide)
        | cons b a =>
          rw [drop_one, tail_cons] at hhost
          rw [hsa, cons_append, head?_cons, some.injEq] at hhead
          rw [hsa, cons_append, drop_one, tail_cons, mem_append,
            not_or] at hopen
          rw [← hport, ← hhost]
          refine ⟨hp, hopen.1, Or.inr ?_⟩
          rw [hsa, hhead, hr, cons_append]
    · rw [if_neg hhead] at h
      simp only [ite_none_left_eq_some, some.injEq, Prod.mk.injEq, not_or] at h
      rcases h with ⟨_, ⟨hopen, _⟩, hhost, hport⟩
      rw [hs, mem_append, not_or] at hopen
      rw [← hhost, ← hport]
      exact ⟨hp, hopen.1, Or.inl hs⟩

theorem splitHostPort_plain (host port : Bytes) (hcolon : 58 ∉ host) (hopen : 91 ∉ host)
    (hclose : 93 ∉ host) (hp : 58 ∉ port) (hpo : 91 ∉ port) (hpc : 93 ∉ port) :
    splitHostPort (host ++ 58 :: port) = some (host, port) := by
  have hmem : ∀ b : UInt8, b ≠ 58 → b ∉ host → b ∉ port → b ∉ host ++ 58 :: port := by
    intro b hb h1 h2
    rw [mem_append, mem_cons, not_or, not_or]
    exact ⟨h1, hb, h2⟩
  have hnone := hmem 91 (by decide) hopen hpo
  have hhead : ¬ (host ++ 58 :: port).head? = some 91 :=
    fun hc => hnone (mem_of_head? hc)
  unfold splitHostPort
  rw [cutLast_append 58 host port hp]
  simp only
  rw [if_neg hhead, if_neg hcolon, if_neg (by
    rw [not_or]
    exact ⟨hnone, hmem 93 (by decide) hclose hpc⟩)]

theorem splitHostPort_bracketed (host port : Bytes) (hopen : 91 ∉ host)
    (hclose : 93 ∉ host) (hp : 58 ∉ port) (hpo : 91 ∉ port) (hpc : 93 ∉ port) :
    splitHostPort (91 :: (host ++ 93 :: 58 :: port)) = some (host, port) := by
  have hlast : cutLast 58 (91 :: (host ++ 93 :: 58 :: port)) =
      some (91 :: (host ++ [93]), port) := by
    rw [cutLast_eq_some_iff]
    refine ⟨?_, hp⟩
    simp
  have hcut : cut 93 (91 :: (host ++ 93 :: 58 :: port)) = some (91 :: host, 58 :: port) := by
    rw [cut_eq_some_iff]
    refine ⟨rfl, ?_⟩
    rw [mem_cons, not_or]
    exact ⟨by decide, hclose⟩
  unfold splitHostPort
  rw [hlast]
  simp only
  rw [if_pos head?_cons, hcut]
  simp only [if_true]
  rw [if_neg]
  · rfl
  · rw [drop_one, tail_cons, mem_append, mem_cons, mem_cons, mem_cons]
    simp only [hopen, hpo, hpc, or_false, false_or, not_or]
    exact ⟨⟨by decide, by decide⟩, by decide⟩

end Trecs
