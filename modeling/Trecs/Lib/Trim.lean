import Mathlib.Data.List.Find
import Trecs.Lib.Bytes

/-!
# White Space and Separators

What `strings.TrimSpace` leaves, which texts it leaves alone, and how
`strings.Split` undoes a join. White space is
a list of runes in UTF-8, so a text of several parts can end in white space
although none of its parts does: the last byte of one part and the next part
may make a rune. A separator between the parts rules that out as long as it is
not inside a longer rune.

## Main definitions

* `NoLeading`, `NoTrailing`, `NoSpace`: Texts without white space at an end, or
  without any.
* `trimRight`: Dropping white space on the right.
* `trimLeft`: Dropping spaces on the left.
* `joinWith`: Texts with a separator between them.

## Theorems

* `trimSpace_eq_self`: A text that trimming leaves alone.
* `noLeading_trimSpace`, `noTrailing_trimSpace`: What trimming leaves.
* `split_joinWith`, `joinWith_split`: Splitting and joining.
-/

namespace Trecs

open List

/-- A text that starts with no white space. -/
def NoLeading (s : Bytes) : Prop := ∀ r ∈ spaceRunes, ¬ r <+: s

/-- A text that ends in no white space. -/
def NoTrailing (s : Bytes) : Prop := ∀ r ∈ spaceRunes, ¬ r <:+ s

instance (s : Bytes) : Decidable (NoLeading s) :=
  inferInstanceAs (Decidable (∀ r ∈ spaceRunes, ¬ r <+: s))

instance (s : Bytes) : Decidable (NoTrailing s) :=
  inferInstanceAs (Decidable (∀ r ∈ spaceRunes, ¬ r <:+ s))

/-- A text with no white space in it. -/
def NoSpace (s : Bytes) : Prop := ∀ r ∈ spaceRunes, ¬ r <:+: s

instance (s : Bytes) : Decidable (NoSpace s) :=
  inferInstanceAs (Decidable (∀ r ∈ spaceRunes, ¬ r <:+: s))

/-- The right half of `strings.TrimSpace`. -/
def trimRight (s : Bytes) : Bytes :=
  (trimRunes (spaceRunes.map List.reverse) s.length s.reverse).reverse

/-- `strings.TrimLeft` with a space. -/
def trimLeft (s : Bytes) : Bytes := s.dropWhile (· == SP)

/-! ### Trimming -/

variable (runes : List Bytes) (n : Nat) (b sep : UInt8) (s : Bytes)

theorem trimRunes_of_not_prefix (h : ∀ r ∈ runes, ¬ r <+: s) : trimRunes runes n s = s := by
  cases n with
  | zero => rfl
  | succ n =>
    have hfind : runes.find? (fun r => r.isPrefixOf s) = none :=
      find?_eq_none.mpr (fun r hr hpre => h r hr (List.isPrefixOf_iff_prefix.mp hpre))
    rw [trimRunes, hfind]

/-- What stands behind a byte of no rune has no part in trimming. -/
theorem trimRunes_append (hne : ∀ r ∈ runes, r ≠ []) (b : UInt8) (hb : ∀ r ∈ runes, b ∉ r)
    (n m : Nat) (s t : Bytes) (hn : s.length ≤ n) (hm : s.length ≤ m) :
    trimRunes runes n (s ++ b :: t) = trimRunes runes m s ++ b :: t := by
  induction n generalizing m s with
  | zero =>
    rw [length_eq_zero_iff.mp (Nat.le_zero.mp hn),
      trimRunes_of_not_prefix runes m [] (fun r hr hpre => hne r hr (prefix_nil.mp hpre))]
    rfl
  | succ n ih =>
    have hsame : ∀ r ∈ runes, r.isPrefixOf (s ++ b :: t) = r.isPrefixOf s := by
      intro r hr
      rw [Bool.eq_iff_iff, isPrefixOf_iff_prefix, isPrefixOf_iff_prefix]
      exact ⟨prefix_of_prefix_append b r s t (hb r hr),
        fun hpre => hpre.trans (prefix_append s _)⟩
    have hfind : runes.find? (fun r => r.isPrefixOf (s ++ b :: t)) =
        runes.find? (fun r => r.isPrefixOf s) := find?_congr hsame
    cases hr : runes.find? (fun r => r.isPrefixOf s) with
    | none =>
      have hnot : ∀ r ∈ runes, ¬ r <+: s := fun r hm hpre =>
        find?_eq_none.mp hr r hm (List.isPrefixOf_iff_prefix.mpr hpre)
      rw [trimRunes, hfind, hr, trimRunes_of_not_prefix runes m s hnot]
    | some r =>
      have hmem := mem_of_find?_eq_some hr
      have hfront : r.isPrefixOf s = true := by
        have hfound := find?_some hr
        exact hfound
      have hpre : r <+: s := isPrefixOf_iff_prefix.mp hfront
      have hpos : 0 < r.length := length_pos_iff.mpr (hne r hmem)
      have hle := hpre.length_le
      cases m with
      | zero => omega
      | succ m =>
        have hlen : (s.drop r.length).length = s.length - r.length := length_drop
        rw [trimRunes, hfind, hr, trimRunes, hr]
        simp only
        rw [drop_append_of_le_length hle]
        exact ih m (s.drop r.length) (by omega) (by omega)

theorem trimRight_of_noTrailing (h : NoTrailing s) : trimRight s = s := by
  have hnot : ∀ r ∈ spaceRunes.map List.reverse, ¬ r <+: s.reverse := by
    intro r hr hpre
    rcases List.mem_map.mp hr with ⟨r', hr', rfl⟩
    exact h r' hr' (List.reverse_prefix.mp hpre)
  rw [trimRight, trimRunes_of_not_prefix _ _ _ hnot, reverse_reverse]

theorem trimSpace_of_noLeading (h : NoLeading s) : trimSpace s = trimRight s := by
  simp only [trimSpace, trimRunes_of_not_prefix spaceRunes _ s h]
  rfl

/-- Nothing is trimmed from a text without white space at its ends. -/
theorem trimSpace_eq_self (hl : NoLeading s) (ht : NoTrailing s) : trimSpace s = s := by
  rw [trimSpace_of_noLeading s hl, trimRight_of_noTrailing s ht]

theorem reverse_spaceRunes_ne_nil : ∀ r ∈ spaceRunes.map List.reverse, r ≠ [] := by decide

/-- Trimming on the right does not reach past a byte of no rune. -/
theorem trimRight_append (s t : Bytes) (b : UInt8) (hb : ∀ r ∈ spaceRunes, b ∉ r) :
    trimRight (s ++ b :: t) = s ++ b :: trimRight t := by
  have hb' : ∀ r ∈ spaceRunes.map List.reverse, b ∉ r := by
    intro r hr hm
    rcases List.mem_map.mp hr with ⟨r', hr', rfl⟩
    exact hb r' hr' (mem_reverse.mp hm)
  have hrev : (s ++ b :: t).reverse = t.reverse ++ b :: s.reverse := by
    simp
  have hlen : t.reverse.length = t.length := length_reverse
  rw [trimRight, hrev, trimRunes_append _ reverse_spaceRunes_ne_nil b hb' _ t.length t.reverse
    s.reverse (by rw [length_append, length_cons]; omega) (by omega)]
  simp [trimRight]

theorem noTrailing_trimRight : NoTrailing (trimRight s) := by
  intro r hr hsuf
  have hpre := reverse_prefix.mpr hsuf
  rw [trimRight, reverse_reverse] at hpre
  exact not_prefix_trimRunes _ reverse_spaceRunes_ne_nil _ _ (Nat.le_of_eq length_reverse)
    r.reverse (List.mem_map_of_mem hr) hpre

theorem trimRight_isPrefix : trimRight s <+: s := by
  have hsuf := trimRunes_suffix (spaceRunes.map List.reverse) s.length s.reverse
  rw [trimRight, ← reverse_suffix, reverse_reverse]
  exact hsuf

theorem trimRight_eq_self_iff : trimRight s = s ↔ NoTrailing s :=
  ⟨fun h => h ▸ noTrailing_trimRight s, trimRight_of_noTrailing s⟩

theorem trimSpace_eq_trimRight : trimSpace s = trimRight (trimRunes spaceRunes s.length s) := rfl

theorem noLeading_trimSpace : NoLeading (trimSpace s) := not_prefix_trimSpace s

theorem noTrailing_trimSpace : NoTrailing (trimSpace s) := by
  rw [trimSpace_eq_trimRight]
  exact noTrailing_trimRight _

/-- Trimming leaves a part of the text. -/
theorem trimSpace_isInfix : trimSpace s <:+: s := by
  rw [trimSpace_eq_trimRight]
  exact (trimRight_isPrefix _).isInfix.trans (trimRunes_suffix spaceRunes _ s).isInfix

/-! ### The ends of a text -/

theorem noLeading_cons (hb : ∀ r ∈ spaceRunes, r.head? ≠ some b) : NoLeading (b :: s) := by
  intro r hr hpre
  cases r with
  | nil => exact spaceRunes_ne_nil [] hr rfl
  | cons c r => exact hb _ hr (congrArg some (cons_prefix_cons.mp hpre).1)

/-- A text that ends in a byte of no rune ends in no white space. -/
theorem noTrailing_concat (hb : ∀ r ∈ spaceRunes, b ∉ r) : NoTrailing (s ++ [b]) := by
  intro r hr hsuf
  rcases suffix_concat_iff.mp hsuf with hnil | ⟨t, ht, _⟩
  · exact spaceRunes_ne_nil r hr hnil
  · exact hb r hr (ht ▸ mem_append_right t mem_cons_self)

theorem NoTrailing.of_suffix {s t : Bytes} (h : NoTrailing t) (hs : s <:+ t) : NoTrailing s :=
  fun r hr hsuf => h r hr (hsuf.trans hs)

/-- Trimming a text that ends in no white space leaves an end of it. -/
theorem trimSpace_suffix (h : NoTrailing s) : trimSpace s <:+ s := by
  have hback := trimRunes_suffix spaceRunes s.length s
  rw [trimSpace_eq_trimRight, trimRight_of_noTrailing _ (h.of_suffix hback)]
  exact hback

/-- A space in front of a text is dropped. -/
theorem trimSpace_cons_space (hl : NoLeading s) (ht : NoTrailing (SP :: s)) :
    trimSpace (SP :: s) = s := by
  rw [trimSpace_eq_trimRight]
  have hstep : trimRunes spaceRunes (s.length + 1) (SP :: s) = trimRunes spaceRunes s.length s :=
    rfl
  rw [length_cons, hstep, trimRunes_of_not_prefix spaceRunes _ s hl]
  exact trimRight_of_noTrailing s (ht.of_suffix (suffix_cons SP s))


theorem NoSpace.noTrailing {s : Bytes} (h : NoSpace s) : NoTrailing s :=
  fun r hr hsuf => h r hr hsuf.isInfix

/-- White space of one byte does not occur. -/
theorem NoSpace.not_mem {s : Bytes} (h : NoSpace s) {b : UInt8} (hb : [b] ∈ spaceRunes) :
    b ∉ s := by
  intro hmem
  rcases append_of_mem hmem with ⟨x, y, hxy⟩
  refine h [b] hb ⟨x, y, ?_⟩
  rw [hxy, append_assoc]
  rfl

/-- A separator that no longer rune contains keeps the text behind it apart. -/
theorem noTrailing_append_sep (hb : ∀ r ∈ spaceRunes, b ∈ r → r = [b]) (s t : Bytes)
    (ht : NoTrailing t) (hne : t ≠ []) : NoTrailing (s ++ b :: t) := by
  intro r hr hsuf
  have hback : b :: t <:+ s ++ b :: t := suffix_append s _
  rcases suffix_or_suffix_of_suffix hsuf hback with hin | hover
  · rcases suffix_cons_iff.mp hin with heq | hin
    · have hone := hb r hr (heq ▸ mem_cons_self)
      exact hne (cons.inj (heq.symm.trans hone)).2
    · exact ht r hr hin
  · have hone := hb r hr (hover.subset mem_cons_self)
    have hlen := hover.length_le
    rw [hone, length_cons, length_singleton] at hlen
    exact hne (length_eq_zero_iff.mp (by omega))

theorem noTrailing_append_space (s t : Bytes) (ht : NoTrailing t) (hne : t ≠ []) :
    NoTrailing (s ++ SP :: t) := noTrailing_append_sep SP (by decide) s t ht hne

theorem noTrailing_append_colon (s t : Bytes) (ht : NoTrailing t) (hne : t ≠ []) :
    NoTrailing (s ++ 58 :: t) := noTrailing_append_sep 58 (by decide) s t ht hne

theorem noTrailing_formatNat : NoTrailing (formatNat n) := by
  rw [← trimSpace_formatNat]
  exact noTrailing_trimSpace _

/-! ### Spaces on the left -/

theorem trimLeft_suffix : trimLeft s <:+ s := dropWhile_suffix _

/-- A text that starts with something else than a space. -/
theorem trimLeft_of_head (hb : b ≠ SP) : trimLeft (b :: s) = b :: s :=
  dropWhile_cons_of_neg (by simp only [beq_iff_eq, hb, not_false_eq_true])

theorem trimLeft_field (f s : Bytes) (hne : f ≠ []) (hf : SP ∉ f) : trimLeft (f ++ s) = f ++ s := by
  cases f with
  | nil => exact absurd rfl hne
  | cons b f => exact trimLeft_of_head b (f ++ s) (fun hc => hf (hc ▸ mem_cons_self))

theorem trimLeft_head_ne (s t : Bytes) : trimLeft s ≠ SP :: t := by
  intro h
  have hhead := head?_dropWhile_not (fun b => b == SP) s
  rw [show s.dropWhile (fun b => b == SP) = SP :: t from h] at hhead
  exact absurd (show (SP == SP) = false from hhead) (by decide)

/-- A text that does not end in a space has something else than spaces. -/
theorem trimLeft_ne_nil (hne : s ≠ []) (ht : NoTrailing s) : trimLeft s ≠ [] := by
  intro hnil
  rcases eq_nil_or_concat s with hs | ⟨t, b, hs⟩
  · exact hne hs
  · rw [concat_eq_append] at hs
    have hall := dropWhile_eq_nil_iff.mp hnil b
      (hs ▸ mem_append_right t mem_cons_self)
    rw [beq_iff_eq] at hall
    exact ht [SP] (by decide) ⟨t, by rw [hs, hall]⟩

theorem trimLeft_trimLeft : trimLeft (trimLeft s) = trimLeft s :=
  dropWhile_idempotent _ _

/-! ### Splitting -/

/-- `strings.Join` with a one-byte separator. -/
def joinWith (sep : UInt8) : List Bytes → Bytes
  | [] => []
  | f :: fs => f ++ fs.flatMap (fun f => sep :: f)

theorem joinWith_cons_cons (f g : Bytes) (fs : List Bytes) :
    joinWith sep (f :: g :: fs) = f ++ sep :: joinWith sep (g :: fs) := by
  rw [joinWith, flatMap_cons, cons_append]
  rfl

theorem length_le_flatMap_cons {α : Type} (b : UInt8) (f : α → Bytes) (xs : List α) :
    xs.length ≤ (xs.flatMap (fun x => b :: f x)).length := by
  induction xs with
  | nil => exact Nat.zero_le _
  | cons x xs ih =>
    rw [flatMap_cons, length_append, length_cons, length_cons]
    omega

theorem split_ne_nil : split sep s ≠ [] := by
  cases s with
  | nil => exact cons_ne_nil _ _
  | cons b s =>
    rw [split]
    split
    · exact cons_ne_nil _ _
    · split <;> exact cons_ne_nil _ _

theorem not_mem_split : ∀ f ∈ split sep s, sep ∉ f := by
  induction s with
  | nil => exact forall_mem_singleton.mpr not_mem_nil
  | cons b s ih =>
    rw [split]
    by_cases hb : b = sep
    · rw [if_pos hb]
      exact forall_mem_cons.mpr ⟨not_mem_nil, ih⟩
    · rw [if_neg hb]
      cases hs : split sep s with
      | nil => exact absurd hs (split_ne_nil sep s)
      | cons p ps =>
        rw [hs] at ih
        rcases forall_mem_cons.mp ih with ⟨hp, hps⟩
        refine forall_mem_cons.mpr ⟨?_, hps⟩
        rw [mem_cons, not_or]
        exact ⟨fun hc => hb hc.symm, hp⟩

theorem joinWith_split : joinWith sep (split sep s) = s := by
  induction s with
  | nil => rfl
  | cons b s ih =>
    rw [split]
    cases hs : split sep s with
    | nil => exact absurd hs (split_ne_nil sep s)
    | cons p ps =>
      rw [hs] at ih
      by_cases hb : b = sep
      · rw [if_pos hb, hb]
        exact congrArg (sep :: ·) ih
      · rw [if_neg hb]
        exact congrArg (b :: ·) ih

/-- A text in front of the first separator is the first part. -/
theorem split_append (f s : Bytes) (hf : sep ∉ f) :
    split sep (f ++ sep :: s) = f :: split sep s := by
  induction f with
  | nil => rw [nil_append, split, if_pos rfl]
  | cons b f ih =>
    rw [mem_cons, not_or] at hf
    rw [cons_append, split, if_neg (fun hc => hf.1 hc.symm), ih hf.2]

/-- A separator anywhere splits a text in two that are split on their own. -/
theorem split_append_sep (s t : Bytes) :
    split sep (s ++ sep :: t) = split sep s ++ split sep t := by
  induction s with
  | nil => exact if_pos rfl
  | cons b s ih =>
    rw [cons_append, split, split, ih]
    by_cases hb : b = sep
    · rw [if_pos hb, if_pos hb, cons_append]
    · rw [if_neg hb, if_neg hb]
      cases hs : split sep s with
      | nil => exact absurd hs (split_ne_nil sep s)
      | cons p ps => rfl

theorem split_of_not_mem (f : Bytes) (hf : sep ∉ f) : split sep f = [f] := by
  induction f with
  | nil => rfl
  | cons b f ih =>
    rw [mem_cons, not_or] at hf
    rw [split, if_neg (fun hc => hf.1 hc.symm), ih hf.2]

theorem split_joinWith (fs : List Bytes) (hne : fs ≠ []) (hfs : ∀ f ∈ fs, sep ∉ f) :
    split sep (joinWith sep fs) = fs := by
  induction fs with
  | nil => exact absurd rfl hne
  | cons f fs ih =>
    rcases forall_mem_cons.mp hfs with ⟨hf, hrest⟩
    cases fs with
    | nil =>
      rw [joinWith, flatMap_nil, append_nil, split_of_not_mem sep f hf]
    | cons g gs =>
      have hnext := ih (cons_ne_nil g gs) hrest
      rw [joinWith, flatMap_cons, cons_append, split_append sep f _ hf]
      exact congrArg (f :: ·) hnext

end Trecs
