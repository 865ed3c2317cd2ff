import Trecs.Lib.Hex
import Trecs.Lib.Unicode

/-!
# Quoted Strings

Go's `strconv.Quote`, which the verb `%q` of `fmt` writes.

A rune that is printable stands for itself, except that a quote and a backslash
get a backslash in front. Everything else is escaped: a byte that belongs to no
valid encoding as `\x` and two digits, the control characters by their letters
or as `\x`, and other runes as `\u` or `\U`. So a reader that takes what
stands between the quotes gets the string back only if nothing was escaped.

Which runes above Latin-1 are printable is a parameter, the class
`UnicodePrint`. Nothing depends on its contents.

## Main definitions

* `isPrint`: `strconv.IsPrint`.
* `quote`: `strconv.Quote`.
* `Verbatim`: A string that is quoted as it is.

## Theorems

* `verbatim_of_plain`: Printable ASCII text.
-/

namespace Trecs

/-- The table of `strconv.IsPrint` for runes above Latin-1. -/
class UnicodePrint where
  isPrint : Nat → Bool

namespace Samples

/-- A table without printable runes above Latin-1, for evaluating on ASCII
    input. -/
scoped instance asciiOnlyPrint : UnicodePrint := ⟨fun _ => false⟩

end Samples

/-- Printable ASCII other than a quote and a backslash. -/
def IsPlain (b : UInt8) : Prop := 32 ≤ b ∧ b < 127 ∧ b ≠ 34 ∧ b ≠ 92

instance (b : UInt8) : Decidable (IsPlain b) := inferInstanceAs (Decidable (_ ∧ _ ∧ _ ∧ _))

variable [UnicodePrint]

/-- `strconv.IsPrint`. -/
def isPrint (r : Nat) : Bool :=
  if r ≤ 0xFF then (0x20 ≤ r && r < 0x7F) || (0xA1 ≤ r && r ≠ 0xAD) else UnicodePrint.isPrint r

/-- `appendEscapedRune` for a double quote. -/
def escapeRune (r : Nat) : Bytes :=
  if r = 34 ∨ r = 92 then [92, UInt8.ofNat r]
  else if isPrint r then encodeRune r
  else if r = 7 then ascii "\\a"
  else if r = 8 then ascii "\\b"
  else if r = 12 then ascii "\\f"
  else if r = 10 then ascii "\\n"
  else if r = 13 then ascii "\\r"
  else if r = 9 then ascii "\\t"
  else if r = 11 then ascii "\\v"
  else if r < 32 ∨ r = 0x7F then ascii "\\x" ++ hexEncode [UInt8.ofNat r]
  else if r < 0x10000 then ascii "\\u" ++ hexEncode [UInt8.ofNat (r / 256), UInt8.ofNat r]
  else ascii "\\U" ++ formatHex r

/-- The loop of `strconv.Quote` on a string of at most `n` runes. -/
def quoteRunes : Nat → Bytes → Bytes
  | 0, _ => []
  | n + 1, s =>
    match s with
    | [] => []
    | b :: _ =>
      -- A byte that is not decoded has width one too, but is no rune of its own.
      (if (decodeRune s).2 = 1 ∧ (decodeRune s).1 = 0xFFFD then ascii "\\x" ++ hexEncode [b]
        else escapeRune (decodeRune s).1) ++ quoteRunes n (s.drop (decodeRune s).2)

/-- `strconv.Quote`. -/
def quote (s : Bytes) : Bytes := 34 :: (quoteRunes s.length s ++ [34])

/-- A string that stands between its quotes as it is. -/
def Verbatim (s : Bytes) : Prop := quote s = 34 :: (s ++ [34])

instance (s : Bytes) : Decidable (Verbatim s) := inferInstanceAs (Decidable (_ = _))

omit [UnicodePrint] in
theorem IsPlain.toNat {b : UInt8} (hb : IsPlain b) :
    32 ≤ b.toNat ∧ b.toNat < 127 ∧ b.toNat ≠ 34 ∧ b.toNat ≠ 92 :=
  ⟨UInt8.le_iff_toNat_le.mp hb.1, UInt8.lt_iff_toNat_lt.mp hb.2.1,
    fun h => hb.2.2.1 (UInt8.toNat_inj.mp h), fun h => hb.2.2.2 (UInt8.toNat_inj.mp h)⟩

omit [UnicodePrint] in
theorem decodeRune_of_plain (b : UInt8) (s : Bytes) (hb : IsPlain b) :
    decodeRune (b :: s) = (b.toNat, 1) := by
  have hlt : b < 0x80 := UInt8.lt_iff_toNat_lt.mpr (Nat.lt_trans hb.toNat.2.1 (by decide))
  unfold decodeRune
  simp only
  rw [if_pos hlt]

omit [UnicodePrint] in
theorem IsHex.plain {b : UInt8} (h : IsHex b) : IsPlain b := by
  rcases h with ⟨d, hd, hb⟩
  have hall : ∀ d : Fin 16, IsPlain (hexDigit d) := by decide
  exact hb ▸ hall ⟨d, hd⟩

theorem escapeRune_of_plain (b : UInt8) (hb : IsPlain b) : escapeRune b.toNat = [b] := by
  rcases hb.toNat with ⟨hlo, hhi, hquote, hslash⟩
  have hprint : isPrint b.toNat = true := by
    rw [isPrint, if_pos (by omega), Bool.or_eq_true, Bool.and_eq_true]
    exact Or.inl ⟨decide_eq_true hlo, decide_eq_true hhi⟩
  rw [escapeRune, if_neg (by omega), if_pos hprint, encodeRune, if_pos (by omega),
    UInt8.ofNat_toNat]

theorem quoteRunes_of_plain (n : Nat) (s : Bytes) (hn : s.length ≤ n) (hs : ∀ b ∈ s, IsPlain b) :
    quoteRunes n s = s := by
  induction n generalizing s with
  | zero => rw [List.length_eq_zero_iff.mp (Nat.le_zero.mp hn), quoteRunes]
  | succ n ih =>
    cases s with
    | nil => rfl
    | cons b s =>
      rcases List.forall_mem_cons.mp hs with ⟨hb, hrest⟩
      have hne : ¬ (b.toNat = 0xFFFD) := by
        have := b.toNat_lt
        omega
      rw [quoteRunes]
      simp only [decodeRune_of_plain b s hb, hne, and_false, if_false, List.drop_succ_cons,
        List.drop_zero]
      rw [escapeRune_of_plain b hb, ih s (Nat.le_of_succ_le_succ hn) hrest]
      rfl

/-- Plain text is quoted as it is. -/
theorem verbatim_of_plain (s : Bytes) (hs : ∀ b ∈ s, IsPlain b) : Verbatim s := by
  rw [Verbatim, quote, quoteRunes_of_plain s.length s (Nat.le_refl _) hs]

end Trecs
