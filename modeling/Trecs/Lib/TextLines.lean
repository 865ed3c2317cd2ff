import Trecs.Lib.Bytes

/-!
# Sections of Lines

A section of lines ends with an empty line, as the head of a message does. When
none of its lines is empty, the end of the section can be told from the text: it
is the only place where a line ends right after another one.

## Main definitions

* `Plain`: A line that is not empty.
* `sectionText`: The text of some lines and an empty one.

## Theorems

* `sectionText_blank`: Only the end of a section looks like one.
* `sectionText_suffix`: What a reader finds that starts in the middle.
-/

namespace Trecs

open List

/-- A line with something on it. -/
structure Plain (l : Bytes) : Prop where
  ne_nil : l ≠ []
  cr : CR ∉ l
  lf : LF ∉ l

/-- The text of some lines and the empty line that ends them. -/
def sectionText (ls : List Bytes) : Bytes := ls.flatMap (· ++ crlf) ++ crlf

theorem sectionText_cons (l : Bytes) (ls : List Bytes) :
    sectionText (l :: ls) = l ++ (crlf ++ sectionText ls) := by
  simp [sectionText]

/-- A line end right after another one is the end of the section. -/
theorem sectionText_blank (ls : List Bytes) (h : ∀ l ∈ ls, Plain l) (p q : Bytes)
    (heq : sectionText ls = p ++ ([LF, CR, LF] ++ q)) : q = [] := by
  induction ls generalizing p with
  | nil =>
    have hlen := congrArg List.length heq
    simp only [sectionText, flatMap_nil, nil_append, length_append,
      length_cons, length_nil] at hlen
    omega
  | cons l ls ih =>
    have hl := h l (.head _)
    rw [sectionText_cons] at heq
    rcases append_eq_append_iff.mp heq with ⟨a, hp, ha⟩ | ⟨a, hl', ha⟩
    · -- The first of the two ends is not in the line. It is the line's own end, or behind it.
      rcases a with _ | ⟨x, _ | ⟨y, a⟩⟩
      · simp only [nil_append, cons_append, cons.injEq] at ha
        exact absurd ha.1 (by decide)
      · simp only [cons_append, nil_append, cons.injEq] at ha
        rcases ha with ⟨-, -, ha⟩
        rcases ls with _ | ⟨l₂, ls⟩
        · simp only [sectionText, flatMap_nil, nil_append, cons.injEq,
            true_and] at ha
          exact ha.symm
        · -- The next line would start with a CR.
          have hl₂ := h l₂ (.tail _ (.head _))
          rw [sectionText_cons] at ha
          rcases hx : l₂ with _ | ⟨z, zs⟩
          · exact absurd hx hl₂.ne_nil
          · rw [hx, cons_append, cons.injEq] at ha
            exact absurd (hx ▸ ha.1 ▸ mem_cons_self) hl₂.cr
      · simp only [cons_append, nil_append, cons.injEq] at ha
        exact ih (fun l hl => h l (.tail _ hl)) a ha.2.2
    · rcases a with _ | ⟨x, a⟩
      · simp only [nil_append, cons_append, cons.injEq] at ha
        exact absurd ha.1 (by decide)
      · simp only [cons_append, nil_append, cons.injEq] at ha
        exact absurd (hl' ▸ ha.1 ▸ mem_append_right p mem_cons_self) hl.lf

/-- A text that starts in the middle of a section starts with the rest of a
    line, or with the rest of a line end. -/
theorem sectionText_suffix (ls : List Bytes) (z : Bytes) (hz : z <:+ sectionText ls)
    (hne : z ≠ []) :
    (∃ before l behind a, ls = before ++ l :: behind ∧ a <:+ l ∧
        z = a ++ (crlf ++ sectionText behind)) ∨ (∃ rest, z = LF :: rest) ∨ z = crlf := by
  induction ls with
  | nil =>
    have hz' : z <:+ [CR, LF] := hz
    rcases suffix_cons_iff.mp hz' with h | h
    · exact .inr (.inr h)
    · rcases suffix_cons_iff.mp h with h | h
      · exact .inr (.inl ⟨[], h⟩)
      · exact absurd (suffix_nil.mp h) hne
  | cons l ls ih =>
    rw [sectionText_cons] at hz
    rcases suffix_or_suffix_of_suffix hz (suffix_append l _) with h | ⟨a, ha⟩
    · rcases suffix_cons_iff.mp h with h | h
      · exact .inl ⟨[], l, ls, [], rfl, nil_suffix, h⟩
      · rcases suffix_cons_iff.mp h with h | h
        · exact .inr (.inl ⟨_, h⟩)
        · rcases ih h with ⟨before, l', behind, a, hls, ha, hz⟩ | h
          · exact .inl ⟨l :: before, l', behind, a, by rw [hls, cons_append], ha, hz⟩
          · exact .inr h
    · rcases hz with ⟨t, ht⟩
      rw [← ha, ← append_assoc] at ht
      exact .inl ⟨[], l, ls, a, rfl, ⟨t, append_cancel_right ht⟩, ha.symm⟩

end Trecs
