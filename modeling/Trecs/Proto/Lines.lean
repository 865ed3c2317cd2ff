import Trecs.Proto.HeaderText

/-!
# Header Lines

What the line readers make of text that a serialiser could have written.

A line may contain line feeds and still be read as one line. A bare line feed
ends a piece of it, the line feed stays, and a following space or tab says that
the next piece belongs to the same line. `Foldable` describes such lines: every
line feed is followed by a space or a tab and does not follow a carriage return,
which would have been cut off with it.

## Main definitions

* `Foldable`: Lines that are read as they were written.
* `FieldOk`: A header line that is stored as it was written.

## Theorems

* `firstLine_crlf`, `firstLine_lf`: One line.
* `headerLine_foldable`: A line with continuations.
* `headerFields_fields`, `unmarshalHeaders_fields`: A header section.
-/

namespace Trecs

open List

namespace Proto

open Reader

/-! ### Lines -/

/-- Every line feed in the line is followed by a space or a tab, and none
    follows a carriage return. -/
def Foldable (l : Bytes) : Prop :=
  ∀ a b, l = a ++ LF :: b → a.getLast? ≠ some CR ∧ ∃ c b', b = c :: b' ∧ (c = SP ∨ c = HT)

variable {r : Reader} {c : Bool} {ts : List Token} (l : Bytes) (name : Bytes → Bytes)
  (fs : List (Bytes × Bytes))

theorem foldable_of_not_mem (h : LF ∉ l) : Foldable l := by
  intro a b hl
  exact absurd (hl ▸ mem_append_right a mem_cons_self) h

theorem Foldable.rest {a b : Bytes} (h : Foldable (a ++ LF :: b)) : Foldable b := by
  intro a' b' hb
  have hl : a ++ LF :: b = (a ++ LF :: a') ++ LF :: b' := by
    rw [hb, append_assoc, cons_append]
  refine ⟨?_, (h _ _ hl).2⟩
  intro hlast
  refine (h _ _ hl).1 ?_
  rw [getLast?_append, getLast?_cons, hlast]
  rfl

theorem firstLine_crlf (rest : Bytes) (hl : LF ∉ l) : firstLine (l ++ crlf ++ rest) = (l, rest) := by
  have hshape : l ++ crlf ++ rest = (l ++ [CR]) ++ LF :: rest := by
    simp
  have hcr : LF ∉ l ++ [CR] := by
    rw [mem_append, mem_singleton, not_or]
    exact ⟨hl, by decide⟩
  have htrim : trimSuffix crlf (l ++ [CR] ++ [LF]) = l := by
    rw [append_assoc]
    exact trimSuffix_append crlf l
  rw [hshape, firstLine_append _ rest hcr, htrim]

/-- A line that ends in a bare line feed keeps it. -/
theorem firstLine_lf (rest : Bytes) (hl : LF ∉ l) (hcr : l.getLast? ≠ some CR) :
    firstLine (l ++ LF :: rest) = (l ++ [LF], rest) := by
  rw [firstLine_append l rest hl, trimSuffix_of_not_suffix _ _ (not_crlf_suffix l hcr)]

theorem readLine_crlf (hl : LF ∉ l) (h : At r c ((l ++ crlf).map .byte ++ ts)) :
    ∃ r', Parser.run readLine r = some (.ok l, r') ∧ At r' c ts := by
  have hline := firstLine_crlf l [] hl
  rw [append_nil] at hline
  rcases readLine_text (append_ne_nil_of_right_ne_nil l (cons_ne_nil CR [LF]))
    (fun hc => absurd (mem_append_right l (mem_cons_of_mem CR mem_cons_self)) hc) h with ⟨r', hr, hat⟩
  rw [hline] at hr hat
  exact ⟨r', hr, hat⟩

theorem readLine_lf (hl : LF ∉ l) (hcr : l.getLast? ≠ some CR)
    (h : At r c ((l ++ [LF]).map .byte ++ ts)) :
    ∃ r', Parser.run readLine r = some (.ok (l ++ [LF]), r') ∧ At r' c ts := by
  rcases readLine_text (append_ne_nil_of_right_ne_nil l (cons_ne_nil LF []))
    (fun hc => absurd (mem_append_right l mem_cons_self) hc) h with ⟨r', hr, hat⟩
  rw [firstLine_lf l [] hl hcr] at hr hat
  exact ⟨r', hr, hat⟩

/-- A line feed at the end keeps the blanks in front of it from being trimmed. -/
theorem rdropWhile_blank_lf : (l ++ [LF]).rdropWhile blank = l ++ [LF] :=
  rdropWhile_concat_neg _ _ _ (by decide)

/-- The rest of a line, after a piece of it that ends in a line feed. -/
theorem foldedLine_foldable (x : UInt8) (hx : x ≠ SP ∧ x ≠ HT) (rest : Bytes) (n : Nat) (l b : Bytes)
    (hlen : b.length ≤ n) (hf : Foldable b) (hb : ∃ d b', b = d :: b' ∧ (d = SP ∨ d = HT)) :
    foldedLine (l ++ [LF]) (b ++ crlf ++ x :: rest) = (l ++ [LF] ++ b, x :: rest) := by
  -- Induction on a bound for the rest: each piece of it is at least one byte long.
  induction n generalizing l b with
  | zero =>
    rcases hb with ⟨d, b', rfl, _⟩
    cases hlen
  | succ n ih =>
    have hnext : foldedLine (l ++ [LF]) (b ++ crlf ++ x :: rest) = foldedLine
        (l ++ [LF] ++ (firstLine (b ++ crlf ++ x :: rest)).1)
        (firstLine (b ++ crlf ++ x :: rest)).2 := by
      rcases hb with ⟨d, b', rfl, hd⟩
      rw [cons_append, cons_append, foldedLine_next _ _ hd, rdropWhile_blank_lf]
    rw [hnext]
    rcases line_cases b with hnot | ⟨b₁, b₂, rfl, hnot⟩
    · -- The last piece, up to the CR LF.
      rw [firstLine_crlf b _ hnot]
      exact foldedLine_stop _ rest hx
    · -- Another piece that ends in a line feed.
      have hfold := hf b₁ b₂ rfl
      have hshape : b₁ ++ LF :: b₂ ++ crlf ++ x :: rest = b₁ ++ LF :: (b₂ ++ crlf ++ x :: rest) := by
        simp
      rw [hshape, firstLine_lf b₁ _ hnot hfold.1, ← append_assoc]
      rw [length_append, length_cons] at hlen
      rw [ih _ b₂ (by omega) hf.rest hfold.2]
      simp

theorem headerLine_foldable (hne : l ≠ []) (hf : Foldable l) (x : UInt8) (hx : x ≠ SP ∧ x ≠ HT)
    (rest : Bytes) : headerLine (l ++ crlf ++ x :: rest) = (l, x :: rest) := by
  unfold headerLine
  rcases line_cases l with hnot | ⟨a, b, rfl, hnot⟩
  · rw [firstLine_crlf l _ hnot, if_neg hne]
    exact foldedLine_stop l rest hx
  · have hfold := hf a b rfl
    have hshape : a ++ LF :: b ++ crlf ++ x :: rest = a ++ LF :: (b ++ crlf ++ x :: rest) := by
      simp
    rw [hshape, firstLine_lf a _ hnot hfold.1,
      if_neg (append_ne_nil_of_right_ne_nil a (cons_ne_nil _ _)),
      foldedLine_foldable x hx rest b.length a b (Nat.le_refl _) hf.rest hfold.2, append_assoc]
    rfl

/-! ### Header sections -/

/-- A header line that is stored under its key with its value: `n` is the name
    on the wire, `f` the key and the value. -/
structure FieldOk (n : Bytes) (f : Bytes × Bytes) : Prop where
  colon : (58 : UInt8) ∉ n
  key : wireKey n = f.1
  value : f.2.head? ≠ some SP
  fold : Foldable (n ++ [58, SP] ++ f.2)

/-- A name that does not make its line the continuation of the line before. -/
def PlainName (n : Bytes) : Prop := ∀ b, n.head? = some b → b ≠ SP ∧ b ≠ HT

/-- The text of a header line. -/
def lineText (name : Bytes → Bytes) (f : Bytes × Bytes) : Bytes := name f.1 ++ [58, SP] ++ f.2

theorem lineText_ne_nil (f : Bytes × Bytes) : lineText name f ≠ [] := by
  unfold lineText
  rw [append_assoc]
  exact append_ne_nil_of_right_ne_nil _ (cons_ne_nil _ _)

theorem lineText_eq_cons (f : Bytes × Bytes) (h : PlainName (name f.1)) :
    ∃ x more, lineText name f = x :: more ∧ x ≠ SP ∧ x ≠ HT := by
  unfold lineText
  rcases hn : name f.1 with _ | ⟨x, xs⟩
  · exact ⟨58, SP :: f.2, rfl, by decide⟩
  · exact ⟨x, xs ++ [58, SP] ++ f.2, rfl, h x (by rw [hn]; rfl)⟩

/-- The empty line ends the section. -/
theorem headerFields_empty (rest : Bytes) : headerFields (crlf ++ rest) = .ok ([], rest) := by
  have hline : headerLine (crlf ++ rest) = ([], rest) := by
    rw [headerLine, show firstLine (crlf ++ rest) = ([], rest) from
      firstLine_crlf [] rest not_mem_nil, if_pos rfl]
  rw [headerFields, dif_neg (by rw [cons_append]; exact cons_ne_nil _ _), hline, if_pos rfl]

/-- A line in front of another one. -/
theorem headerFields_cons {s l k v rest : Bytes} (hs : headerLine s = (l, rest))
    (hcut : cut 58 l = some (k, v)) :
    headerFields s = (headerFields rest).map (fun p => ((k, v) :: p.1, p.2)) := by
  have hl : l ≠ [] := by
    rintro rfl
    cases hcut
  have hne : s ≠ [] := by
    rintro rfl
    exact hl (congrArg Prod.fst hs).symm
  rw [headerFields, dif_neg hne, hs, if_neg hl, hcut]

theorem headerFields_fields (hf : ∀ f ∈ fs, FieldOk (name f.1) f)
    (hplain : ∀ f ∈ fs.tail, PlainName (name f.1)) (rest : Bytes) :
    headerFields (fs.flatMap (fun f => lineText name f ++ crlf) ++ (crlf ++ rest)) =
      .ok (fs.map (fun f => (name f.1, SP :: f.2)), rest) := by
  induction fs with
  | nil => exact headerFields_empty rest
  | cons f fs ih =>
    -- What follows the line is another name or the empty line, so the line ends there.
    have hnext : ∃ x more, fs.flatMap (fun f => lineText name f ++ crlf) ++ (crlf ++ rest) =
        x :: more ∧ x ≠ SP ∧ x ≠ HT := by
      rcases fs with _ | ⟨g, gs⟩
      · exact ⟨CR, LF :: rest, rfl, by decide⟩
      · rcases lineText_eq_cons name g (hplain g mem_cons_self) with ⟨x, more, hg, hx⟩
        rw [flatMap_cons, hg]
        exact ⟨x, _, rfl, hx⟩
    rcases hnext with ⟨x, more, hmore, hx⟩
    have hfok := hf f mem_cons_self
    have hline : headerLine ((f :: fs).flatMap (fun f => lineText name f ++ crlf) ++ (crlf ++ rest)) =
        (lineText name f, x :: more) := by
      rw [flatMap_cons, append_assoc, hmore]
      exact headerLine_foldable _ (lineText_ne_nil name f) hfok.fold x hx more
    have hcut : cut 58 (lineText name f) = some (name f.1, SP :: f.2) := by
      rw [cut_eq_some_iff]
      refine ⟨?_, hfok.colon⟩
      simp [lineText]
    rw [headerFields_cons hline hcut, ← hmore, ih (fun g hg => hf g (mem_cons_of_mem f hg))
      (fun g hg => hplain g (mem_of_mem_tail hg))]
    rfl

/-- A value is stored without the space in front of it. -/
theorem storeField_fieldOk {name : Bytes → Bytes} (h : SIPHeaders) {f : Bytes × Bytes}
    (hf : FieldOk (name f.1) f) :
    storeField h (name f.1, SP :: f.2) = SIPHeaders.push h f.1 f.2 := by
  have hvalue : (SP :: f.2).dropWhile (· == SP) = f.2 := by
    rw [dropWhile_cons_of_pos (by decide)]
    rcases hv : f.2 with _ | ⟨b, bs⟩
    · rfl
    · have hb : b ≠ SP := fun hc => hf.value (by rw [hv, hc]; rfl)
      exact dropWhile_cons_of_neg (by simp only [beq_iff_eq, hb, not_false_eq_true])
  rw [storeField, hf.key, hvalue]

theorem unmarshalHeaders_fields (hf : ∀ f ∈ fs, FieldOk (name f.1) f)
    (hplain : ∀ f ∈ fs.tail, PlainName (name f.1))
    (hat : At r c ((fs.flatMap (fun f => lineText name f ++ crlf) ++ crlf).map .byte ++ ts)) :
    ∃ r', Parser.run unmarshalHeaders r =
        some (.ok (fs.foldl (fun h f => SIPHeaders.push h f.1 f.2) ∅), r') ∧ At r' c ts := by
  have hfields := headerFields_fields name fs hf hplain []
  rw [append_nil] at hfields
  rcases unmarshalHeaders_text (.inr ⟨_, hfields⟩) hat with ⟨r', hrun, hat'⟩
  refine ⟨r', ?_, hat' _ hfields⟩
  rw [hrun, hfields, Except.map, foldl_map]
  exact congrArg (fun h => some (Except.ok h, r'))
    (foldl_ext _ _ ∅ (fun h f hmem => storeField_fieldOk h (hf f hmem)))

end Proto

end Trecs
