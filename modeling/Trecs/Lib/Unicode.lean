import Trecs.Lib.Bytes

/-!
# Upper and Lower Case

Go's `strings.ToLower`, `strings.ToUpper` and `strings.EqualFold` on byte
strings. A string of ASCII bytes is mapped byte by byte. Any other string is
decoded as UTF-8, each rune is mapped by `unicode.ToLower` or `unicode.ToUpper`,
and the result is encoded again; a byte that does not belong to a valid encoding
becomes the replacement rune, which takes three bytes. Both steps can change the
length of the string.

The tables behind `unicode.ToLower` and `unicode.ToUpper` for the runes above
ASCII are parameters, the classes `UnicodeLower` and `UnicodeUpper`. Nothing
depends on their contents.

## Main definitions

* `UnicodeLower`: The table of `unicode.ToLower` above ASCII.
* `UnicodeUpper`: The table of `unicode.ToUpper` above ASCII.
* `decodeRune`: The first rune of a string and its width.
* `encodeRune`: The bytes of a rune.
* `toLower`, `toUpper`: `strings.ToLower` and `strings.ToUpper`.
* `equalFold`: `strings.EqualFold` with an ASCII text.

## Theorems

* `isPrefix_toLower`: Lower case ASCII text at the front stays as it is.
-/

namespace Trecs

open List

/-- The table of `unicode.ToLower` for runes above ASCII. -/
class UnicodeLower where
  lower : Nat → Nat

/-- An upper case ASCII letter. -/
def isUpper (b : UInt8) : Bool := 65 ≤ b && b ≤ 90

/-- A lower case ASCII letter. -/
def isLower (b : UInt8) : Bool := 97 ≤ b && b ≤ 122

/-- The lower case of an ASCII byte. -/
def lowerByte (b : UInt8) : UInt8 := if isUpper b then b + 32 else b

/-- A continuation byte of UTF-8 between the given bounds. -/
def contIn (lo hi b : UInt8) : Bool := lo ≤ b && b ≤ hi

/-- The six bits a continuation byte carries. -/
def contBits (b : UInt8) : Nat := b.toNat % 64

/-- The bounds of the second byte of an encoding, from its first byte. -/
def secondBounds (b0 : UInt8) : UInt8 × UInt8 :=
  if b0 = 0xE0 then (0xA0, 0xBF)
  else if b0 = 0xED then (0x80, 0x9F)
  else if b0 = 0xF0 then (0x90, 0xBF)
  else if b0 = 0xF4 then (0x80, 0x8F)
  else (0x80, 0xBF)

/-- `utf8.DecodeRune`: the rune at the front of a string and its width, or the
    replacement rune with width one where no valid encoding starts. -/
def decodeRune : Bytes → Nat × Nat
  | [] => (0xFFFD, 0)
  | b0 :: bs =>
    let lo := (secondBounds b0).1
    let hi := (secondBounds b0).2
    if b0 < 0x80 then (b0.toNat, 1)
    else if 0xC2 ≤ b0 && b0 ≤ 0xDF then
      match bs with
      | b1 :: _ =>
        if contIn lo hi b1 then (b0.toNat % 32 * 64 + contBits b1, 2) else (0xFFFD, 1)
      | _ => (0xFFFD, 1)
    else if 0xE0 ≤ b0 && b0 ≤ 0xEF then
      match bs with
      | b1 :: b2 :: _ =>
        if contIn lo hi b1 && contIn 0x80 0xBF b2 then
          (b0.toNat % 16 * 4096 + contBits b1 * 64 + contBits b2, 3)
        else (0xFFFD, 1)
      | _ => (0xFFFD, 1)
    else if 0xF0 ≤ b0 && b0 ≤ 0xF4 then
      match bs with
      | b1 :: b2 :: b3 :: _ =>
        if contIn lo hi b1 && contIn 0x80 0xBF b2 && contIn 0x80 0xBF b3 then
          (b0.toNat % 8 * 262144 + contBits b1 * 4096 + contBits b2 * 64 + contBits b3, 4)
        else (0xFFFD, 1)
      | _ => (0xFFFD, 1)
    else (0xFFFD, 1)

/-- `utf8.AppendRune` on an empty string. -/
def encodeRune (r : Nat) : Bytes :=
  if r < 0x80 then [UInt8.ofNat r]
  else if r < 0x800 then [UInt8.ofNat (0xC0 + r / 64), UInt8.ofNat (0x80 + r % 64)]
  else if r < 0x10000 then
    [UInt8.ofNat (0xE0 + r / 4096), UInt8.ofNat (0x80 + r / 64 % 64), UInt8.ofNat (0x80 + r % 64)]
  else
    [UInt8.ofNat (0xF0 + r / 262144), UInt8.ofNat (0x80 + r / 4096 % 64),
      UInt8.ofNat (0x80 + r / 64 % 64), UInt8.ofNat (0x80 + r % 64)]

/-- What a rune is compared as when case is folded, for comparing with ASCII
    text. The Kelvin sign and the long s fold to letters of ASCII. -/
def foldRune (r : Nat) : Nat :=
  if r < 0x80 then (lowerByte (UInt8.ofNat r)).toNat
  else if r = 0x212A then 107
  else if r = 0x17F then 115
  else r

/-- The folded runes of a string of at most `n` runes. -/
def foldRunes : Nat → Bytes → List Nat
  | 0, _ => []
  | n + 1, s =>
    match s with
    | [] => []
    | _ :: _ => foldRune (decodeRune s).1 :: foldRunes n (s.drop (decodeRune s).2)

/-- `strings.EqualFold(s, t)` for an ASCII text `t`. -/
def equalFold (s t : Bytes) : Bool :=
  foldRunes s.length s = t.map (fun b => (lowerByte b).toNat)

variable [UnicodeLower]

/-- `unicode.ToLower`. -/
def lowerRune (r : Nat) : Nat :=
  if r < 0x80 then (lowerByte (UInt8.ofNat r)).toNat else UnicodeLower.lower r

/-- `strings.Map(unicode.ToLower, s)` on a string of at most `n` runes. -/
def lowerRunes : Nat → Bytes → Bytes
  | 0, _ => []
  | n + 1, s =>
    match s with
    | [] => []
    | _ :: _ =>
      encodeRune (lowerRune (decodeRune s).1) ++ lowerRunes n (s.drop (decodeRune s).2)

/-- `strings.ToLower`. -/
def toLower (s : Bytes) : Bytes :=
  if s.all (· < 0x80) then s.map lowerByte else lowerRunes s.length s

theorem lowerRunes_append (a x : Bytes) (ha : ∀ b ∈ a, b < 0x80 ∧ lowerByte b = b) :
    lowerRunes (a ++ x).length (a ++ x) = a ++ lowerRunes x.length x := by
  induction a with
  | nil => rfl
  | cons b a ih =>
    have hb := ha b mem_cons_self
    have hlt : b.toNat < 0x80 := UInt8.lt_iff_toNat_lt.mp hb.1
    have hdecode : decodeRune (b :: (a ++ x)) = (b.toNat, 1) := by
      simp only [decodeRune, if_pos hb.1]
    have hrune : encodeRune (lowerRune b.toNat) = [b] := by
      rw [lowerRune, if_pos hlt, UInt8.ofNat_toNat, hb.2, encodeRune, if_pos hlt,
        UInt8.ofNat_toNat]
    rw [cons_append, length_cons, lowerRunes]
    simp only [hdecode, hrune, drop_succ_cons, drop_zero]
    rw [ih (fun c hc => ha c (mem_cons_of_mem b hc)), singleton_append,
      cons_append]

/-- Lower case ASCII text at the front stays as it is. -/
theorem isPrefix_toLower (a x : Bytes) (ha : ∀ b ∈ a, b < 0x80 ∧ lowerByte b = b) :
    a <+: toLower (a ++ x) := by
  unfold toLower
  by_cases hall : (a ++ x).all (· < 0x80)
  · rw [if_pos hall, map_append, map_congr_left (fun b hb => (ha b hb).2),
      List.map_id']
    exact prefix_append _ _
  · rw [if_neg hall, lowerRunes_append a x ha]
    exact prefix_append _ _

/-- The table of `unicode.ToUpper` for runes above ASCII. -/
class UnicodeUpper where
  upper : Nat → Nat

namespace Samples

/-- Tables without letters above ASCII, for evaluating on ASCII input. -/
scoped instance asciiOnly : UnicodeLower := ⟨fun r => r⟩

/-- The same for upper case. -/
scoped instance asciiOnlyUpper : UnicodeUpper := ⟨fun r => r⟩

end Samples

/-- The upper case of an ASCII byte. -/
def upperByte (b : UInt8) : UInt8 := if isLower b then b - 32 else b

variable [UnicodeUpper]

/-- `unicode.ToUpper`. -/
def upperRune (r : Nat) : Nat :=
  if r < 0x80 then (upperByte (UInt8.ofNat r)).toNat else UnicodeUpper.upper r

/-- `strings.Map(unicode.ToUpper, s)` on a string of at most `n` runes. -/
def upperRunes : Nat → Bytes → Bytes
  | 0, _ => []
  | n + 1, s =>
    match s with
    | [] => []
    | _ :: _ =>
      encodeRune (upperRune (decodeRune s).1) ++ upperRunes n (s.drop (decodeRune s).2)

/-- `strings.ToUpper`. -/
def toUpper (s : Bytes) : Bytes :=
  if s.all (· < 0x80) then s.map upperByte else upperRunes s.length s

end Trecs
