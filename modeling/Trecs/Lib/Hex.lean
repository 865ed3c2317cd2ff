import Trecs.Lib.Bytes

/-!
# Hexadecimal Notation

Go's `hex.EncodeToString`, the verb `%08x` of `fmt` and `strconv.ParseUint` in
base 16.

What a protocol needs of the first two is that different values are written
differently, and that the text has no separator in it. `hexEncode` has two
digits for each byte and `formatHex` is a number in base 16, which leading zeros
do not change.

## Main definitions

* `hexDigit`, `hexVal`: One digit, written and read.
* `hexEncode`: Two digits for each byte.
* `formatHex`: A number with at least eight digits.
* `parseHex`: Reading a 64-bit number.

## Theorems

* `hexEncode_injective`, `formatHex_injective`: Nothing is lost.
-/

namespace Trecs

open List

/-- The lower case digit of a number below sixteen. -/
def hexDigit (d : Nat) : UInt8 := UInt8.ofNat (if d < 10 then 48 + d else 87 + d)

/-- The value of a digit in either case. -/
def hexVal (b : UInt8) : Option Nat :=
  if 48 ≤ b.toNat ∧ b.toNat ≤ 57 then some (b.toNat - 48)
  else if 97 ≤ b.toNat ∧ b.toNat ≤ 102 then some (b.toNat - 87)
  else if 65 ≤ b.toNat ∧ b.toNat ≤ 70 then some (b.toNat - 55)
  else none

/-- `hex.EncodeToString`. -/
def hexEncode (bs : Bytes) : Bytes :=
  bs.flatMap (fun b => [hexDigit (b.toNat / 16), hexDigit (b.toNat % 16)])

/-- The digits of a number, least significant first, at least `width` of them. -/
def hexDigits (width n : Nat) : List Nat :=
  Nat.digits 16 n ++ List.replicate (width - (Nat.digits 16 n).length) 0

/-- The verb `%08x`. -/
def formatHex (n : Nat) : Bytes := (hexDigits 8 n).reverse.map hexDigit

/-- The number a text of digits stands for, on top of the digits before it. -/
def hexValue (acc : Nat) : Bytes → Option Nat
  | [] => some acc
  | b :: bs => (hexVal b).bind (fun d => hexValue (acc * 16 + d) bs)

/-- `strconv.ParseUint(s, 16, 64)` without the text of its error. -/
def parseHex (s : Bytes) : Option UInt64 :=
  if s = [] then none
  else (hexValue 0 s).bind (fun n => if n < 2 ^ 64 then some (UInt64.ofNat n) else none)

/-- Whether a byte is a digit the encoders write. -/
def IsHex (b : UInt8) : Prop := ∃ d < 16, b = hexDigit d

theorem hexVal_hexDigit (d : Nat) (h : d < 16) : hexVal (hexDigit d) = some d := by
  have hall : ∀ d : Fin 16, hexVal (hexDigit d) = some d.val := by decide
  exact hall ⟨d, h⟩

theorem hexDigit_injective (d e : Nat) (hd : d < 16) (he : e < 16)
    (h : hexDigit d = hexDigit e) : d = e := by
  have hv := hexVal_hexDigit d hd
  rw [h, hexVal_hexDigit e he, Option.some.injEq] at hv
  exact hv.symm

/-- A digit is no separator: neither a colon nor a semicolon nor white space. -/
theorem IsHex.ne (b : UInt8) (h : IsHex b) : b ≠ 58 ∧ b ≠ 59 ∧ b ≠ SP ∧ b ≠ CR := by
  rcases h with ⟨d, hd, hb⟩
  have hall : ∀ d : Fin 16, hexDigit d ≠ 58 ∧ hexDigit d ≠ 59 ∧ hexDigit d ≠ SP ∧
      hexDigit d ≠ CR := by decide
  rw [hb]
  exact hall ⟨d, hd⟩

theorem isHex_hexEncode (bs : Bytes) : ∀ b ∈ hexEncode bs, IsHex b := by
  intro b hb
  rcases mem_flatMap.mp hb with ⟨x, _, hx⟩
  have hlt := x.toNat_lt
  rcases mem_pair.mp hx with hx | hx
  · exact ⟨x.toNat / 16, by omega, hx⟩
  · exact ⟨x.toNat % 16, by omega, hx⟩

theorem hexEncode_injective (xs ys : Bytes) (h : hexEncode xs = hexEncode ys) : xs = ys := by
  induction xs generalizing ys with
  | nil =>
    cases ys with
    | nil => rfl
    | cons y ys => exact absurd h (by simp [hexEncode])
  | cons x xs ih =>
    cases ys with
    | nil => exact absurd h (by simp [hexEncode])
    | cons y ys =>
      simp only [hexEncode, flatMap_cons, cons_append, nil_append,
        cons.injEq] at h
      rcases h with ⟨hhi, hlo, hrest⟩
      have hx := x.toNat_lt
      have hy := y.toNat_lt
      -- Both halves of the byte are below sixteen.
      have h1 := hexDigit_injective _ _ (by omega) (by omega) hhi
      have h2 := hexDigit_injective _ _ (by omega) (by omega) hlo
      rw [UInt8.toNat_inj.mp (show x.toNat = y.toNat by omega), ih ys hrest]

theorem hexDigits_lt (width n : Nat) : ∀ d ∈ hexDigits width n, d < 16 := by
  intro d hd
  rcases mem_append.mp hd with hd | hd
  · exact Nat.digits_lt_base (by omega) hd
  · rw [(mem_replicate.mp hd).2]
    omega

theorem isHex_formatHex (n : Nat) : ∀ b ∈ formatHex n, IsHex b := by
  intro b hb
  rcases List.mem_map.mp hb with ⟨d, hd, hx⟩
  exact ⟨d, hexDigits_lt 8 n d (mem_reverse.mp hd), hx.symm⟩

/-- Zeros in front of a number do not change it. -/
theorem ofDigits_hexDigits (width n : Nat) : Nat.ofDigits 16 (hexDigits width n) = n := by
  rw [hexDigits, Nat.ofDigits_append, Nat.ofDigits_replicate_zero, Nat.mul_zero, Nat.add_zero,
    Nat.ofDigits_digits]

/-- Reading the digits one by one gives them back. -/
theorem map_hexVal_formatHex (n : Nat) :
    (formatHex n).map hexVal = (hexDigits 8 n).reverse.map some := by
  rw [formatHex, List.map_map]
  refine map_congr_left ?_
  intro d hd
  exact hexVal_hexDigit d (hexDigits_lt 8 n d (mem_reverse.mp hd))

theorem formatHex_injective (m n : Nat) (h : formatHex m = formatHex n) : m = n := by
  have hmap := map_hexVal_formatHex m
  rw [h, map_hexVal_formatHex n] at hmap
  have hrev := map_injective_iff.mpr (Option.some_injective Nat) hmap
  rw [← ofDigits_hexDigits 8 m, ← reverse_injective hrev, ofDigits_hexDigits]

end Trecs
