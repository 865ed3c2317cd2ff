import Mathlib.Data.List.DropRight
import Mathlib.Data.Nat.Digits.Lemmas

/-!
# Byte Strings

A Go `string` and a Go `[]byte` are both finite sequences of bytes, and both
are lists of `UInt8` here. This module has the operations of Go's `strings`
and `strconv` packages that a text protocol is written with, and what each of
them does to a string of a known shape.

`cut` is `strings.Cut` with a one-byte separator. `cut_eq_some_iff` is the only
fact about it that later proofs use: a successful cut splits the string at the
first occurrence of the separator, and says nothing else.

`atoi` and `formatInt` are `strconv.Atoi` and `strconv.FormatInt` in base ten.
Go's `int` is 64 bits wide, so `atoi` fails on a number that does not fit, and
`atoi_formatInt` is the round trip on the numbers that do.

## Main definitions

* `ascii`: The bytes of a string literal.
* `cut`, `split`: Splitting at the first and at every occurrence of a byte.
* `trimSuffix`, `trimSpace`: Dropping a fixed suffix, and white space on both sides.
* `fields`: The parts between white space.
* `formatNat`, `formatInt`, `atoi`: Decimal notation, and reading it.

## Theorems

* `cut_eq_some_iff`: What a successful cut says.
* `atoi_formatInt`: Reading back a formatted number.
-/

namespace Trecs

open List Option

/-- A Go `string` or `[]byte`. -/
abbrev Bytes := List UInt8

/-- The bytes of a string literal, in UTF-8 as Go stores them. -/
def ascii (s : String) : Bytes := s.toUTF8.data.toList

/-- Carriage return. -/
abbrev CR : UInt8 := 13

/-- Line feed. -/
abbrev LF : UInt8 := 10

/-- Space. -/
abbrev SP : UInt8 := 32

/-- Horizontal tab. -/
abbrev HT : UInt8 := 9

/-- The line end of a text protocol. -/
abbrev crlf : Bytes := [CR, LF]

/-- `strings.Cut` with a one-byte separator: the text before the first
    separator and the text after it, or `none` when there is no separator. -/
def cut (sep : UInt8) : Bytes → Option (Bytes × Bytes)
  | [] => none
  | b :: bs =>
    if b = sep then some ([], bs)
    else (cut sep bs).map (fun p => (b :: p.1, p.2))

variable (sep : UInt8) (runes : List Bytes) (n : Nat) (b : UInt8) (s : Bytes)

theorem cut_append (a r : Bytes) (h : sep ∉ a) : cut sep (a ++ sep :: r) = some (a, r) := by
  induction a with
  | nil => simp only [nil_append, cut, if_true]
  | cons b bs ih =>
    rw [mem_cons, not_or] at h
    have hb : ¬ (b = sep) := fun hc => h.1 hc.symm
    simp only [cons_append, cut, if_neg hb, ih h.2, map_some]

theorem cut_eq_none_iff : cut sep s = none ↔ sep ∉ s := by
  induction s with
  | nil => simp only [cut, not_mem_nil, not_false_eq_true]
  | cons b bs ih =>
    rw [mem_cons, not_or]
    by_cases hb : b = sep
    · rw [cut, if_pos hb]
      simp [hb]
    · have hb' : ¬ (sep = b) := fun hc => hb hc.symm
      simp only [cut, if_neg hb, map_eq_none_iff, ih, hb', not_false_eq_true, true_and]

theorem cut_eq_some_iff (s a r : Bytes) :
    cut sep s = some (a, r) ↔ s = a ++ sep :: r ∧ sep ∉ a := by
  constructor
  · intro h
    induction s generalizing a with
    | nil => simp only [cut, reduceCtorEq] at h
    | cons b bs ih =>
      by_cases hb : b = sep
      · simp only [cut, if_pos hb, some.injEq, Prod.mk.injEq] at h
        rw [← h.1, ← h.2, hb]
        exact ⟨rfl, not_mem_nil⟩
      · simp only [cut, if_neg hb, map_eq_some_iff, Prod.mk.injEq] at h
        rcases h with ⟨⟨a', r'⟩, hcut, ha, hr⟩
        simp only at ha hr
        rcases ih a' (by rw [hcut, hr]) with ⟨hs, hn⟩
        rw [← ha, cons_append, ← hs]
        refine ⟨rfl, ?_⟩
        rw [mem_cons, not_or]
        exact ⟨fun hc => hb hc.symm, hn⟩
  · rintro ⟨hs, hn⟩
    rw [hs]
    exact cut_append sep a r hn

/-- `strings.Split` with a one-byte separator. -/
def split (sep : UInt8) : Bytes → List Bytes
  | [] => [[]]
  | b :: bs =>
    if b = sep then [] :: split sep bs
    else match split sep bs with
      | [] => [[b]]
      | p :: ps => (b :: p) :: ps

/-- `strings.TrimSuffix`. -/
def trimSuffix (suf s : Bytes) : Bytes :=
  if suf <:+ s then s.take (s.length - suf.length) else s

theorem trimSuffix_append (suf s : Bytes) : trimSuffix suf (s ++ suf) = s := by
  unfold trimSuffix
  rw [if_pos (suffix_append s suf), length_append, Nat.add_sub_cancel,
    take_left']
  rfl

theorem trimSuffix_of_not_suffix (suf s : Bytes) (h : ¬ (suf <:+ s)) : trimSuffix suf s = s := by
  unfold trimSuffix
  rw [if_neg h]

/-- The white space `strings.TrimSpace` drops, each rune in its UTF-8 form. -/
def spaceRunes : List Bytes :=
  [[9], [10], [11], [12], [13], [32], [0xC2, 0x85], [0xC2, 0xA0], [0xE1, 0x9A, 0x80],
    [0xE2, 0x80, 0x80], [0xE2, 0x80, 0x81], [0xE2, 0x80, 0x82], [0xE2, 0x80, 0x83],
    [0xE2, 0x80, 0x84], [0xE2, 0x80, 0x85], [0xE2, 0x80, 0x86], [0xE2, 0x80, 0x87],
    [0xE2, 0x80, 0x88], [0xE2, 0x80, 0x89], [0xE2, 0x80, 0x8A], [0xE2, 0x80, 0xA8],
    [0xE2, 0x80, 0xA9], [0xE2, 0x80, 0xAF], [0xE2, 0x81, 0x9F], [0xE3, 0x80, 0x80]]

/-- Dropping up to `n` leading runes that occur in `runes`. -/
def trimRunes (runes : List Bytes) : Nat → Bytes → Bytes
  | 0, s => s
  | n + 1, s =>
    match runes.find? (fun r => r.isPrefixOf s) with
    | none => s
    | some r => trimRunes runes n (s.drop r.length)

/-- `strings.Fields` on a string of at most `n` bytes, `word` being the part of
    a field that has been read. -/
def fieldsFrom : Nat → Bytes → Bytes → List Bytes
  | 0, word, _ => if word = [] then [] else [word]
  | _ + 1, word, [] => if word = [] then [] else [word]
  | n + 1, word, b :: bs =>
    match spaceRunes.find? (fun r => r.isPrefixOf (b :: bs)) with
    | some r =>
      if word = [] then fieldsFrom n [] ((b :: bs).drop r.length)
      else word :: fieldsFrom n [] ((b :: bs).drop r.length)
    | none => fieldsFrom n (word ++ [b]) bs

/-- `strings.Fields`. -/
def fields (s : Bytes) : List Bytes := fieldsFrom s.length [] s

/-- `strings.TrimSpace`. The right side is the left side of the reversed
    string, with the runes reversed too. -/
def trimSpace (s : Bytes) : Bytes :=
  let l := trimRunes spaceRunes s.length s
  (trimRunes (spaceRunes.map List.reverse) l.length l.reverse).reverse

/-- Trimming leaves an end of the text. -/
theorem trimRunes_suffix : trimRunes runes n s <:+ s := by
  induction n generalizing s with
  | zero => exact suffix_refl s
  | succ n ih =>
    rw [trimRunes]
    split
    · exact suffix_refl s
    · exact (ih _).trans (drop_suffix _ s)

/-- With enough fuel no rune is left at the front. -/
theorem not_prefix_trimRunes (hne : ∀ r ∈ runes, r ≠ []) (n : Nat) (s : Bytes) (hn : s.length ≤ n) :
    ∀ r ∈ runes, ¬ r <+: trimRunes runes n s := by
  induction n generalizing s with
  | zero =>
    intro r hr hpre
    rw [length_eq_zero_iff.mp (Nat.le_zero.mp hn)] at hpre
    exact hne r hr (prefix_nil.mp hpre)
  | succ n ih =>
    rw [trimRunes]
    split
    · rename_i hnone
      intro r hr hpre
      exact find?_eq_none.mp hnone r hr (List.isPrefixOf_iff_prefix.mpr hpre)
    · rename_i r hsome
      refine ih _ ?_
      have hpos : 0 < r.length :=
        length_pos_iff.mpr (hne r (mem_of_find?_eq_some hsome))
      rw [length_drop]
      omega

/-- A prefix without the byte `b` ends before its first occurrence. -/
theorem prefix_of_prefix_append (r x y : Bytes) (hb : b ∉ r) (h : r <+: x ++ b :: y) : r <+: x := by
  induction r generalizing x with
  | nil => exact nil_prefix
  | cons c r ih =>
    cases x with
    | nil => exact absurd (cons_prefix_cons.mp h).1 (fun hc => hb (hc ▸ mem_cons_self))
    | cons d x =>
      rcases cons_prefix_cons.mp h with ⟨hcd, hrest⟩
      have hrest' := ih x (fun hm => hb (mem_cons_of_mem c hm)) hrest
      exact cons_prefix_cons.mpr ⟨hcd, hrest'⟩

/-- Trimming stops at a byte that occurs in no rune. -/
theorem trimRunes_stop (hb : ∀ r ∈ runes, b ∉ r) (n : Nat) (x y : Bytes) :
    ∃ x' : Bytes, trimRunes runes n (x ++ b :: y) = x' ++ b :: y := by
  induction n generalizing x with
  | zero => exact ⟨x, rfl⟩
  | succ n ih =>
    rw [trimRunes]
    split
    · exact ⟨x, rfl⟩
    · rename_i r hsome
      have hfront : r.isPrefixOf (x ++ b :: y) = true := by
        have hfound := find?_some hsome
        exact hfound
      have hpre : r <+: x := prefix_of_prefix_append b r x y
        (hb r (mem_of_find?_eq_some hsome)) (List.isPrefixOf_iff_prefix.mp hfront)
      rw [drop_append_of_le_length hpre.length_le]
      exact ih (x.drop r.length)

theorem spaceRunes_ne_nil : ∀ r ∈ spaceRunes, r ≠ [] := by decide

/-- A trimmed text starts with no white space. -/
theorem not_prefix_trimSpace : ∀ r ∈ spaceRunes, ¬ r <+: trimSpace s := by
  intro r hr hpre
  have hsuf := trimRunes_suffix (spaceRunes.map List.reverse)
    (trimRunes spaceRunes s.length s).length (trimRunes spaceRunes s.length s).reverse
  have hfront : trimSpace s <+: trimRunes spaceRunes s.length s := by
    rw [trimSpace, ← reverse_suffix, reverse_reverse]
    exact hsuf
  exact not_prefix_trimRunes spaceRunes spaceRunes_ne_nil s.length s (Nat.le_refl _) r hr
    (hpre.trans hfront)

/-- Trimming a text that starts with no white space keeps everything up to a
    semicolon. -/
theorem trimSpace_stop (s t : Bytes) (hs : ∀ r ∈ spaceRunes, ¬ r <+: s) :
    ∃ t' : Bytes, trimSpace (s ++ 59 :: t) = s ++ 59 :: t' := by
  have hb : ∀ r ∈ spaceRunes, (59 : UInt8) ∉ r := by decide
  have hleft : ∀ n, trimRunes spaceRunes n (s ++ 59 :: t) = s ++ 59 :: t := by
    intro n
    cases n with
    | zero => rfl
    | succ n =>
      have hfind : spaceRunes.find? (fun r => r.isPrefixOf (s ++ 59 :: t)) = none := by
        rw [find?_eq_none]
        intro r hr hpre
        exact hs r hr (prefix_of_prefix_append 59 r s t (hb r hr)
          (List.isPrefixOf_iff_prefix.mp hpre))
      rw [trimRunes, hfind]
  have hb' : ∀ r ∈ spaceRunes.map List.reverse, (59 : UInt8) ∉ r := by decide
  rcases trimRunes_stop (spaceRunes.map List.reverse) 59 hb' (s ++ 59 :: t).length t.reverse
    s.reverse with ⟨x, hx⟩
  refine ⟨x.reverse, ?_⟩
  have hrev : (s ++ 59 :: t).reverse = t.reverse ++ 59 :: s.reverse := by
    simp
  simp only [trimSpace, hleft]
  rw [hrev, hx]
  simp

/-- The decimal digits of a natural number, most significant first. -/
def formatNat (n : Nat) : Bytes :=
  if n = 0 then [48] else (Nat.digits 10 n).reverse.map (fun d => UInt8.ofNat (48 + d))

/-- `strconv.FormatInt` in base ten. -/
def formatInt (n : Int) : Bytes :=
  if n < 0 then 45 :: formatNat n.natAbs else formatNat n.natAbs

/-- The value of a byte as a decimal digit. -/
def digitVal (b : UInt8) : Option Nat :=
  if 48 ≤ b.toNat ∧ b.toNat ≤ 57 then some (b.toNat - 48) else none

/-- The value of a string of digits, read on top of `acc`. -/
def parseDigits (acc : Nat) : Bytes → Option Nat
  | [] => some acc
  | b :: bs =>
    match digitVal b with
    | none => none
    | some d => parseDigits (10 * acc + d) bs

/-- The two ways `strconv.Atoi` fails. -/
inductive NumError where
  | syntaxError
  | rangeError
deriving Repr, DecidableEq

/-- The sign and the digits of a number in `strconv.Atoi` notation. -/
def splitSign : Bytes → Bool × Bytes
  | 43 :: ds => (false, ds)
  | 45 :: ds => (true, ds)
  | ds => (false, ds)

/-- `strconv.Atoi` for a 64-bit `int`: an optional sign and at least one
    digit, within the range of the type. -/
def atoi (s : Bytes) : Except NumError Int64 :=
  let p := splitSign s
  if p.2 = [] then .error .syntaxError
  else
    match parseDigits 0 p.2 with
    | none => .error .syntaxError
    | some v =>
      let n : Int := if p.1 then -(v : Int) else v
      if -2 ^ 63 ≤ n ∧ n < 2 ^ 63 then .ok (Int64.ofInt n) else .error .rangeError

theorem digitVal_digit (d : Nat) (h : d < 10) : digitVal (UInt8.ofNat (48 + d)) = some d := by
  have hv : (UInt8.ofNat (48 + d)).toNat = 48 + d := by
    rw [UInt8.toNat_ofNat_of_lt']
    exact Nat.lt_of_lt_of_le (Nat.add_lt_add_left h 48) (by decide)
  unfold digitVal
  rw [hv, if_pos (by omega), Nat.add_sub_cancel_left]

/-- Reading a digit string is evaluating it as a number in base ten, on top of
    what has been read already. -/
theorem parseDigits_map (ds : List Nat) (hds : ∀ d ∈ ds, d < 10) (acc : Nat) :
    parseDigits acc (ds.map (fun d => UInt8.ofNat (48 + d)))
      = some (acc * 10 ^ ds.length + Nat.ofDigits 10 ds.reverse) := by
  induction ds generalizing acc with
  | nil => simp only [map_nil, parseDigits, length_nil, pow_zero, Nat.mul_one,
      reverse_nil, Nat.ofDigits_nil, Nat.add_zero]
  | cons d ds ih =>
    have hd : d < 10 := hds d mem_cons_self
    have hrest : ∀ e ∈ ds, e < 10 := fun e he => hds e (mem_cons_of_mem d he)
    rw [map_cons, parseDigits, digitVal_digit d hd]
    simp only []
    rw [ih hrest, reverse_cons, Nat.ofDigits_append, length_reverse,
      Nat.ofDigits_singleton, length_cons, pow_succ]
    congr 1
    ring

theorem parseDigits_formatNat : parseDigits 0 (formatNat n) = some n := by
  unfold formatNat
  by_cases hn : n = 0
  · rw [if_pos hn, hn]
    rfl
  · rw [if_neg hn, parseDigits_map]
    · rw [reverse_reverse, Nat.ofDigits_digits, Nat.zero_mul, Nat.zero_add]
    · intro d hd
      rw [mem_reverse] at hd
      exact Nat.digits_lt_base (by decide) hd

theorem formatNat_ne_nil : formatNat n ≠ [] := by
  unfold formatNat
  by_cases hn : n = 0
  · rw [if_pos hn]
    exact cons_ne_nil _ _
  · rw [if_neg hn]
    intro hc
    rw [map_eq_nil_iff, reverse_eq_nil_iff, Nat.digits_eq_nil_iff_eq_zero] at hc
    exact hn hc

/-- Decimal notation consists of digits, so no byte a protocol gives a meaning
    to (a space, a colon, a line end, a sign) occurs in it. -/
theorem formatNat_digit (hb : b ∈ formatNat n) : 48 ≤ b.toNat ∧ b.toNat ≤ 57 := by
  unfold formatNat at hb
  by_cases hn : n = 0
  · rw [if_pos hn, mem_singleton] at hb
    rw [hb]
    decide
  · rw [if_neg hn, List.mem_map] at hb
    rcases hb with ⟨d, hd, hdb⟩
    rw [mem_reverse] at hd
    have hlt : d < 10 := Nat.digits_lt_base (by decide) hd
    have hv : (UInt8.ofNat (48 + d)).toNat = 48 + d := by
      rw [UInt8.toNat_ofNat_of_lt']
      exact Nat.lt_of_lt_of_le (Nat.add_lt_add_left hlt 48) (by decide)
    rw [← hdb, hv]
    omega

theorem splitSign_formatNat : splitSign (formatNat n) = (false, formatNat n) := by
  rcases hf : formatNat n with _ | ⟨b, bs⟩
  · rfl
  · have hb := formatNat_digit n b (by rw [hf]; exact mem_cons_self)
    have h43 : b ≠ 43 := fun hc => by rw [hc] at hb; exact absurd hb (by decide)
    have h45 : b ≠ 45 := fun hc => by rw [hc] at hb; exact absurd hb (by decide)
    unfold splitSign
    split
    · rename_i heq
      exact absurd (cons.inj heq).1 h43
    · rename_i heq
      exact absurd (cons.inj heq).1 h45
    · rfl

theorem atoi_formatNat (h : n < 2 ^ 63) : atoi (formatNat n) = .ok (Int64.ofInt n) := by
  unfold atoi
  simp only [splitSign_formatNat, if_neg (formatNat_ne_nil n), parseDigits_formatNat,
    Bool.false_eq_true, if_false]
  rw [if_pos (by omega)]

/-- Nothing is trimmed from a text whose first byte starts none of the runes. -/
theorem trimRunes_of_head (h : ∀ r ∈ runes, r.head? ≠ some b ∧ r ≠ []) :
    trimRunes runes n (b :: s) = b :: s := by
  cases n with
  | zero => rfl
  | succ n =>
    have hfind : runes.find? (fun r => r.isPrefixOf (b :: s)) = none := by
      rw [find?_eq_none]
      intro r hr hpre
      rcases r with _ | ⟨x, xs⟩
      · exact (h _ hr).2 rfl
      · rw [isPrefixOf_cons_cons, Bool.and_eq_true, beq_iff_eq] at hpre
        exact (h _ hr).1 (by rw [hpre.1]; rfl)
    rw [trimRunes, hfind]

/-- A space rune starts with no digit, and ends with none. -/
theorem spaceRunes_not_digit (hb : 48 ≤ b.toNat ∧ b.toNat ≤ 57) :
    (∀ r ∈ spaceRunes, r.head? ≠ some b ∧ r ≠ []) ∧
      ∀ r ∈ spaceRunes.map List.reverse, r.head? ≠ some b ∧ r ≠ [] := by
  have hall : ∀ d : Fin 10,
      (∀ r ∈ spaceRunes, r.head? ≠ some (UInt8.ofNat (48 + d)) ∧ r ≠ []) ∧
        ∀ r ∈ spaceRunes.map List.reverse, r.head? ≠ some (UInt8.ofNat (48 + d)) ∧ r ≠ [] := by
    decide
  have hd : b = UInt8.ofNat (48 + (b.toNat - 48)) := by
    rw [Nat.add_sub_cancel' hb.1, UInt8.ofNat_toNat]
  rw [hd]
  exact hall ⟨b.toNat - 48, by omega⟩

theorem trimSpace_formatNat : trimSpace (formatNat n) = formatNat n := by
  have hdigit := formatNat_digit n
  rcases hf : formatNat n with _ | ⟨b, bs⟩
  · exact absurd hf (formatNat_ne_nil n)
  · rw [hf] at hdigit
    rcases hr : (b :: bs).reverse with _ | ⟨x, xs⟩
    · exact absurd (reverse_eq_nil_iff.mp hr) (cons_ne_nil b bs)
    · have hx : x ∈ b :: bs := by
        rw [← mem_reverse, hr]
        exact mem_cons_self
      have hleft := trimRunes_of_head spaceRunes (b :: bs).length b bs
        (spaceRunes_not_digit b (hdigit b mem_cons_self)).1
      have hright := trimRunes_of_head (spaceRunes.map List.reverse) (b :: bs).length x xs
        (spaceRunes_not_digit x (hdigit x hx)).2
      simp only [trimSpace, hleft]
      rw [hr, hright, ← hr, reverse_reverse]

/-- No control byte and no space occurs in a written number. -/
theorem not_mem_formatInt (n : Int) (b : UInt8) (hb : b.toNat < 45) : b ∉ formatInt n := by
  intro hmem
  unfold formatInt at hmem
  by_cases hn : n < 0
  · rw [if_pos hn, mem_cons] at hmem
    rcases hmem with rfl | hmem
    · exact absurd hb (by decide)
    · have := (formatNat_digit _ b hmem).1
      omega
  · rw [if_neg hn] at hmem
    have := (formatNat_digit _ b hmem).1
    omega

/-- No byte behind the digits occurs in a written number. -/
theorem not_mem_formatInt_of_gt (n : Int) (b : UInt8) (hb : 57 < b.toNat) : b ∉ formatInt n := by
  intro hmem
  unfold formatInt at hmem
  by_cases hn : n < 0
  · rw [if_pos hn, mem_cons] at hmem
    rcases hmem with rfl | hmem
    · exact absurd hb (by decide)
    · have := (formatNat_digit _ b hmem).2
      omega
  · rw [if_neg hn] at hmem
    have := (formatNat_digit _ b hmem).2
    omega

/-- Reading back a number that was written out. -/
theorem atoi_formatInt (n : Int64) : atoi (formatInt n.toInt) = .ok n := by
  have hlo := n.le_toInt
  have hhi := n.toInt_lt
  unfold formatInt
  by_cases hn : n.toInt < 0
  · rw [if_pos hn]
    unfold atoi
    have hv : -((n.toInt.natAbs : Nat) : Int) = n.toInt := by omega
    simp only [splitSign, if_neg (formatNat_ne_nil _), parseDigits_formatNat, if_true, hv]
    rw [if_pos ⟨hlo, hhi⟩, Int64.ofInt_toInt]
  · rw [if_neg hn, atoi_formatNat _ (by omega)]
    have hv : ((n.toInt.natAbs : Nat) : Int) = n.toInt := by omega
    rw [hv, Int64.ofInt_toInt]

end Trecs
