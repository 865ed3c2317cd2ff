import Trecs.Proto.Unmarshal

/-!
# Messages as Texts

What the parser makes of a byte string: the first line and what follows it, the
lines that continue it, the fields of a header section. The functions here are
the parser without its reader.

A reader computes them if the byte string is all there is, for then it never
waits. What else a stream has to deliver makes no difference to a part of the
text that is complete, and a header section that ends is. `unmarshalHeaders_text`
has both cases, and `unmarshalSIPDatagram_eq` is the first one for a message.

## Main definitions

* `firstLine`, `foldedLine`, `headerLine`: Lines and what follows them.
* `headerFields`: The names and values of a header section.
* `readMessage`: A message and the text of its body.

## Theorems

* `readLine_text`, `continueLine_text`, `readHeaderLine_text`: The line readers.
* `unmarshalHeaders_text`: Header sections.
* `unmarshalSIPDatagram_eq`: Datagrams.
-/

namespace Trecs

open List Option

namespace Proto

open Reader

variable {r : Reader} {s : Bytes} {c : Bool} {ts : List Token}

/-! ### Lines -/

/-- The first line of a text without its CR LF, and what follows it. -/
def firstLine (s : Bytes) : Bytes × Bytes :=
  match cut LF s with
  | some (a, rest) => (trimSuffix crlf (a ++ [LF]), rest)
  | none => (s, [])

theorem firstLine_of_not_mem (h : LF ∉ s) : firstLine s = (s, []) := by
  rw [firstLine, (cut_eq_none_iff LF s).mpr h]

theorem firstLine_append (a rest : Bytes) (h : LF ∉ a) :
    firstLine (a ++ LF :: rest) = (trimSuffix crlf (a ++ [LF]), rest) := by
  rw [firstLine, (cut_eq_some_iff LF _ a rest).mpr ⟨rfl, h⟩]

/-- A text is one line without an end, or a line and what follows its end. -/
theorem line_cases (s : Bytes) : LF ∉ s ∨ ∃ a rest, s = a ++ LF :: rest ∧ LF ∉ a := by
  rcases hcut : cut LF s with _ | ⟨a, rest⟩
  · exact .inl ((cut_eq_none_iff LF s).mp hcut)
  · exact .inr ⟨a, rest, (cut_eq_some_iff LF s a rest).mp hcut⟩

theorem trimSuffix_crlf_of_not_mem (l : Bytes) (h : LF ∉ l) : trimSuffix crlf l = l := by
  refine trimSuffix_of_not_suffix _ _ ?_
  rintro ⟨a, ha⟩
  exact h (ha ▸ mem_append_right a (mem_cons_of_mem _ mem_cons_self))

theorem not_crlf_suffix (l : Bytes) (hl : l.getLast? ≠ some CR) : ¬ crlf <:+ l ++ [LF] := by
  rintro ⟨a, ha⟩
  have hinj : a ++ [CR] = l := by
    have : (a ++ [CR]) ++ [LF] = l ++ [LF] := by rw [← ha, append_assoc]; rfl
    exact append_cancel_right this
  rw [← hinj, getLast?_append] at hl
  exact hl rfl

theorem trimSuffix_crlf_lf (a : Bytes) :
    (∃ l, a = l ++ [CR] ∧ trimSuffix crlf (a ++ [LF]) = l) ∨
      (a.getLast? ≠ some CR ∧ trimSuffix crlf (a ++ [LF]) = a ++ [LF]) := by
  by_cases hcr : a.getLast? = some CR
  · left
    rcases getLast?_eq_some_iff.mp hcr with ⟨l, hl⟩
    refine ⟨l, hl, ?_⟩
    rw [hl, append_assoc]
    exact trimSuffix_append crlf l
  · right
    exact ⟨hcr, trimSuffix_of_not_suffix _ _ (not_crlf_suffix a hcr)⟩

/-- A line starts with what the text starts with, unless that is its end. -/
theorem head?_firstLine {x : UInt8} (hx : s.head? = some x) (hcr : x ≠ CR) (hlf : x ≠ LF) :
    (firstLine s).1.head? = some x := by
  rcases line_cases s with h | ⟨a, rest, rfl, h⟩
  · rw [firstLine_of_not_mem h]
    exact hx
  rw [firstLine_append a rest h]
  rcases trimSuffix_crlf_lf a with ⟨l, rfl, htrim⟩ | ⟨_, htrim⟩
  · rw [htrim]
    rcases l with _ | ⟨y, l⟩
    · exact absurd (some.inj hx).symm hcr
    · exact hx
  · rw [htrim]
    rcases a with _ | ⟨y, a⟩
    · exact absurd (some.inj hx).symm hlf
    · exact hx

theorem head?_firstLine_blank {b : UInt8} (bs : Bytes) (hb : b = SP ∨ b = HT) :
    (firstLine (b :: bs)).1.head? = some b := by
  rcases hb with rfl | rfl
  · exact head?_firstLine rfl (by decide) (by decide)
  · exact head?_firstLine rfl (by decide) (by decide)

theorem length_firstLine (hne : s ≠ []) : (firstLine s).2.length < s.length := by
  rcases line_cases s with h | ⟨a, rest, rfl, h⟩
  · rw [firstLine_of_not_mem h]
    exact length_pos_iff.mpr hne
  · rw [firstLine_append a rest h, length_append]
    exact Nat.lt_add_left _ (Nat.lt_succ_self _)

/-- Nothing follows, and the stream is closed. -/
def Closed (c : Bool) (ts : List Token) : Prop := c = true ∧ ts = []

theorem readLine_text (hne : s ≠ []) (hend : LF ∉ s → Closed c ts)
    (hat : At r c (s.map .byte ++ ts)) :
    ∃ r', Parser.run readLine r = some (.ok (firstLine s).1, r') ∧
      At r' c ((firstLine s).2.map .byte ++ ts) := by
  rw [readLine, Parser.run_mk]
  rcases line_cases s with h | ⟨a, rest, rfl, h⟩
  · rcases hend h with ⟨rfl, rfl⟩
    rw [append_nil] at hat
    rcases readString_eof LF s h hat with ⟨r', hread, hat'⟩
    refine ⟨r', ?_, by rw [firstLine_of_not_mem h]; exact hat'⟩
    rw [hread, firstLine_of_not_mem h, map_some]
    simp only [if_neg hne, trimSuffix_crlf_of_not_mem s h]
  · rw [map_append, append_assoc] at hat
    rcases readString_line LF a (rest.map .byte ++ ts) h hat with ⟨r', hread, hat'⟩
    rw [firstLine_append a rest h, hread]
    exact ⟨r', rfl, hat'⟩

theorem readLine_nil (hat : At r true []) :
    ∃ r', Parser.run readLine r = some (.error (.error (.read .eof)), r') := by
  rcases readString_eof LF [] not_mem_nil hat with ⟨r', hread, _⟩
  refine ⟨r', ?_⟩
  rw [readLine, Parser.run_mk, hread, map_some]
  rfl

/-- The lines at the front of a text that continue the line read before. -/
def foldedLine (line s : Bytes) : Bytes × Bytes :=
  match s with
  | [] => (line, [])
  | b :: bs =>
    if b = SP ∨ b = HT then
      foldedLine (line.rdropWhile blank ++ (firstLine (b :: bs)).1) (firstLine (b :: bs)).2
    else (line, b :: bs)
termination_by s.length
decreasing_by exact length_firstLine (cons_ne_nil b bs)

theorem length_foldedLine (line s : Bytes) : (foldedLine line s).2.length ≤ s.length := by
  fun_induction foldedLine line s with
  | case1 line => exact Nat.le_refl _
  | case2 line b bs _ ih =>
    have hlt := length_firstLine (cons_ne_nil b bs)
    omega
  | case3 line b bs _ => exact Nat.le_refl _

theorem foldedLine_ne_nil (line s : Bytes) (h : line ≠ []) : (foldedLine line s).1 ≠ [] := by
  fun_induction foldedLine line s with
  | case1 line => exact h
  | case2 line b bs hb ih =>
    have hhead := head?_firstLine_blank bs hb
    exact ih (append_ne_nil_of_right_ne_nil _ (ne_nil_of_mem (mem_of_mem_head? hhead)))
  | case3 line b bs _ => exact h

theorem foldedLine_stop (line rest : Bytes) {b : UInt8} (hb : b ≠ SP ∧ b ≠ HT) :
    foldedLine line (b :: rest) = (line, b :: rest) := by
  rw [foldedLine, if_neg (not_or.mpr hb)]

theorem foldedLine_next (line rest : Bytes) {b : UInt8} (hb : b = SP ∨ b = HT) :
    foldedLine line (b :: rest) = foldedLine
      (line.rdropWhile blank ++ (firstLine (b :: rest)).1) (firstLine (b :: rest)).2 := by
  rw [foldedLine, if_pos hb]

theorem continueLine_text (line : Bytes) (fuel : Nat) (hfuel : s.length < fuel)
    (hend : (foldedLine line s).2 = [] → Closed c ts) (hat : At r c (s.map .byte ++ ts)) :
    ∃ r', Parser.run (continueLine fuel line) r = some (.ok (foldedLine line s).1, r') ∧
      At r' c ((foldedLine line s).2.map .byte ++ ts) := by
  obtain ⟨n, rfl⟩ : ∃ n, fuel = n + 1 := ⟨fuel - 1, by omega⟩
  rw [continueLine, Parser.run_mk]
  fun_induction foldedLine line s generalizing r n with
  | case1 line =>
    rcases hend rfl with ⟨rfl, rfl⟩
    rcases peek_eof hat with ⟨r', hpeek, hat'⟩
    rw [hpeek]
    exact ⟨r', rfl, hat'⟩
  | case2 line b bs hb ih =>
    have hlt := length_firstLine (cons_ne_nil b bs)
    rw [length_cons] at hfuel hlt
    rcases peek_byte b hat with ⟨r₁, hpeek, hat₁⟩
    have hline : LF ∉ b :: bs → Closed c ts := by
      intro h
      rw [firstLine_of_not_mem h, foldedLine] at hend
      exact hend rfl
    rcases readLine_text (cons_ne_nil b bs) hline hat₁ with ⟨r₂, hread, hat₂⟩
    obtain ⟨n, rfl⟩ : ∃ m, n = m + 1 := ⟨n - 1, by omega⟩
    rw [hpeek]
    simp only [if_neg (fun h : b ≠ SP ∧ b ≠ HT => hb.elim h.1 h.2), Parser.run_bind_ok _ hread]
    rw [continueLine, Parser.run_mk]
    exact ih hend hat₂ n (by omega)
  | case3 line b bs hb =>
    rcases peek_byte b hat with ⟨r₁, hpeek, hat₁⟩
    rw [hpeek]
    simp only [if_pos (not_or.mp hb)]
    exact ⟨r₁, rfl, hat₁⟩

/-- The first header line of a text, and what follows it. -/
def headerLine (s : Bytes) : Bytes × Bytes :=
  if (firstLine s).1 = [] then firstLine s else foldedLine (firstLine s).1 (firstLine s).2

theorem length_headerLine (hne : s ≠ []) : (headerLine s).2.length < s.length := by
  have hfirst := length_firstLine hne
  have hfolded := length_foldedLine (firstLine s).1 (firstLine s).2
  unfold headerLine
  split
  · exact hfirst
  · omega

theorem readHeaderLine_text (hne : s ≠ [])
    (hend : (headerLine s).1 ≠ [] → (headerLine s).2 = [] → Closed c ts)
    (hat : At r c (s.map .byte ++ ts)) :
    ∃ r', Parser.run readHeaderLine r = some (.ok (headerLine s).1, r') ∧
      At r' c ((headerLine s).2.map .byte ++ ts) := by
  have hline : LF ∉ s → Closed c ts := by
    intro h
    rw [headerLine, firstLine_of_not_mem h, if_neg hne, foldedLine] at hend
    exact hend hne rfl
  rcases readLine_text hne hline hat with ⟨r₁, hread, hat₁⟩
  rw [readHeaderLine, Parser.run_mk, readContinuedLine, Parser.run_bind_ok _ hread]
  unfold headerLine at hend ⊢
  by_cases hfirst : (firstLine s).1 = []
  · rw [if_pos hfirst, if_pos hfirst]
    exact ⟨r₁, rfl, hat₁⟩
  rw [if_neg hfirst] at hend ⊢
  have hfuel : (firstLine s).2.length < r₁.tokens.length + 1 := by
    rw [hat₁.tokens, length_append, length_map]
    omega
  rcases continueLine_text (firstLine s).1 _ hfuel
    (hend (foldedLine_ne_nil _ _ hfirst)) hat₁ with ⟨r₂, hrun, hat₂⟩
  rw [if_neg hfirst, Parser.run_mk, hrun, map_some]
  exact ⟨r₂, rfl, hat₂⟩

/-! ### Header sections -/

/-- What a header section without its end fails with. -/
def headersCutOff {α : Type} : Except Fault α :=
  unmarshalErrorWrap (.read .eof) (ascii "header terminated prematurely")

theorem readHeaderLine_nil (hat : At r true []) :
    ∃ r', Parser.run readHeaderLine r = some (headersCutOff, r') := by
  rcases readLine_nil hat with ⟨r', hread⟩
  refine ⟨r', ?_⟩
  rw [readHeaderLine, Parser.run_mk, readContinuedLine, Parser.run_bind_error _ hread]
  rfl

/-- The names and values of a header section, and what follows it. -/
def headerFields (s : Bytes) : Except Fault (List (Bytes × Bytes) × Bytes) :=
  if _hs : s = [] then headersCutOff
  else if (headerLine s).1 = [] then .ok ([], (headerLine s).2)
  else
    match cut 58 (headerLine s).1 with
    | none => unmarshalErrorf (ascii "Invalid header: " ++ (headerLine s).1)
    | some f => (headerFields (headerLine s).2).map (fun p => (f :: p.1, p.2))
termination_by s.length
decreasing_by exact length_headerLine _hs

/-- A name and a value as they get into the header map. -/
def storeField (h : SIPHeaders) (f : Bytes × Bytes) : SIPHeaders :=
  SIPHeaders.push h (wireKey f.1) (f.2.dropWhile (· == SP))

theorem unmarshalHeaderLines_text (fuel : Nat) (hfuel : s.length < fuel) (h : SIPHeaders)
    (hend : Closed c ts ∨ ∃ p, headerFields s = .ok p) (hat : At r c (s.map .byte ++ ts)) :
    ∃ r', Parser.run (unmarshalHeaderLines fuel h) r =
        some ((headerFields s).map (fun p => p.1.foldl storeField h), r') ∧
      ∀ p, headerFields s = .ok p → At r' c (p.2.map .byte ++ ts) := by
  induction fuel generalizing s r h with
  | zero => contradiction
  | succ fuel ih =>
    rw [unmarshalHeaderLines]
    by_cases hs : s = []
    · subst hs
      rw [headerFields, dif_pos rfl] at hend ⊢
      rcases hend with ⟨rfl, rfl⟩ | ⟨p, hp⟩
      · rcases readHeaderLine_nil hat with ⟨r', hread⟩
        rw [Parser.run_bind_error _ hread]
        exact ⟨r', rfl, fun p hp => by cases hp⟩
      · cases hp
    have hlt := length_headerLine hs
    -- A line with nothing behind it is not the end of a section.
    have hline : (headerLine s).1 ≠ [] → (headerLine s).2 = [] → Closed c ts := by
      intro hne hnil
      refine hend.resolve_right ?_
      rintro ⟨p, hp⟩
      rw [headerFields, dif_neg hs, if_neg hne, hnil] at hp
      split at hp
      · cases hp
      · rw [headerFields, dif_pos rfl] at hp
        cases hp
    rcases readHeaderLine_text hs hline hat with ⟨r₁, hread, hat₁⟩
    rw [headerFields, dif_neg hs] at hend ⊢
    rw [Parser.run_bind_ok _ hread]
    by_cases hempty : (headerLine s).1 = []
    · rw [if_pos hempty, if_pos hempty]
      exact ⟨r₁, rfl, fun p hp => Except.ok.inj hp ▸ hat₁⟩
    rw [if_neg hempty] at hend ⊢
    rw [if_neg hempty]
    rcases hcut : cut 58 (headerLine s).1 with _ | ⟨k, v⟩
    · exact ⟨r₁, rfl, fun p hp => by cases hp⟩
    rw [hcut] at hend
    have hrest : Closed c ts ∨ ∃ p, headerFields (headerLine s).2 = .ok p := by
      refine hend.imp_right ?_
      rintro ⟨p, hp⟩
      rcases map_eq_ok hp with ⟨q, hq, _⟩
      exact ⟨q, hq⟩
    rcases ih (by omega) (storeField h (k, v)) hrest hat₁ with ⟨r', hrun, hafter⟩
    refine ⟨r', ?_, fun p hp => ?_⟩
    · refine hrun.trans ?_
      cases headerFields (headerLine s).2 <;> rfl
    · rcases map_eq_ok hp with ⟨q, hq, rfl⟩
      exact hafter q hq

theorem unmarshalHeaders_text (hend : Closed c ts ∨ ∃ p, headerFields s = .ok p)
    (hat : At r c (s.map .byte ++ ts)) :
    ∃ r', Parser.run unmarshalHeaders r =
        some ((headerFields s).map (fun p => p.1.foldl storeField ∅), r') ∧
      ∀ p, headerFields s = .ok p → At r' c (p.2.map .byte ++ ts) := by
  rw [unmarshalHeaders, Parser.run_mk]
  refine unmarshalHeaderLines_text _ ?_ ∅ hend hat
  rw [hat.tokens, length_append, length_map]
  omega

/-! ### Messages -/

/-- The body in what follows the headers `h`. -/
def bodyText (h : SIPHeaders) (rest : Bytes) : Except Fault Bytes :=
  match h.lookup hContentLength with
  | some (clStr :: _) =>
    (unmarshalContentLength clStr).bind (fun n =>
      if n ≤ rest.length then .ok (rest.take n)
      else unmarshalErrorWrap (.read (if rest = [] then .eof else .unexpectedEOF))
        (ascii "error reading body"))
  | some [] => .error .panic
  | none => .ok rest

theorem unmarshalBody_text (h : SIPHeaders) (hat : At r true (s.map .byte)) :
    ∃ r', Parser.run (unmarshalBody false h) r = some (bodyText h s, r') := by
  unfold unmarshalBody bodyText
  rcases h.lookup hContentLength with _ | (_ | ⟨clStr, more⟩)
  · rcases readAll_bytes s hat with ⟨r', hread⟩
    exact ⟨r', by rw [Parser.run_mk, if_neg Bool.false_ne_true, hread]; rfl⟩
  · exact ⟨r, rfl⟩
  simp only [Parser.run_mk]
  rcases unmarshalContentLength clStr with e | n
  · exact ⟨r, rfl⟩
  simp only [Except.bind]
  by_cases hn : n ≤ s.length
  · by_cases hpos : 0 < n
    · have hshape : s.map Token.byte = (s.take n).map Token.byte ++ (s.drop n).map Token.byte := by
        rw [← map_append, take_append_drop]
      rcases readFull_bytes (s.take n) (hshape ▸ hat) with ⟨r', hread, _⟩
      rw [length_take, Nat.min_eq_left hn] at hread
      refine ⟨r', ?_⟩
      rw [if_pos hpos, if_pos hn, hread]
      rfl
    · refine ⟨r, ?_⟩
      rw [if_neg hpos, if_pos hn, Nat.eq_zero_of_not_pos hpos, take_zero]
  · rcases readFull_eof n s (by omega) hat with ⟨r', hread⟩
    refine ⟨r', ?_⟩
    rw [if_pos (by omega), if_neg hn, hread]
    rfl

/-- A datagram up to its body: the message without it, and the text it is in. -/
def readHead (d : Bytes) : Except Fault (SIPMessage × Bytes) :=
  if d = [] then unmarshalErrorWrap (.read .eof) (ascii "error reading start-line")
  else do
    let sl ← unmarshalStartLine (firstLine d).1
    let p ← headerFields (firstLine d).2
    let headers := p.1.foldl storeField ∅
    let cseq ← headerCSeq headers
    pure ({ startLine := some sl, headers := headers, cseq := cseq, body := [] }, p.2)

/-- The message in a datagram. -/
def readMessage (d : Bytes) : Except Fault SIPMessage := do
  let p ← readHead d
  let body ← bodyText p.1.headers p.2
  pure { p.1 with body := body }

theorem unmarshalSIPDatagram_eq (d : Bytes) : unmarshalSIPDatagram d = some (readMessage d) := by
  have hat : At (.ofBytes d) true (d.map .byte ++ []) := (append_nil (d.map _)).symm ▸ at_ofBytes d
  have hclosed : Closed true [] := ⟨rfl, rfl⟩
  suffices ∃ r', Parser.run (unmarshalSIPFrom false) (.ofBytes d) = some (readMessage d, r') by
    rcases this with ⟨r', hrun⟩
    rw [unmarshalSIPDatagram, hrun, map_some]
  unfold unmarshalSIPFrom readMessage readHead
  by_cases hd : d = []
  · subst hd
    rcases readLine_nil hat with ⟨r', hread⟩
    have hstart : Parser.run readStartLine (.ofBytes []) =
        some (unmarshalErrorWrap (.read .eof) (ascii "error reading start-line"), r') := by
      rw [readStartLine, Parser.run_mk, hread, map_some]
    rw [if_pos rfl, Parser.run_bind_error _ hstart]
    exact ⟨r', rfl⟩
  rcases readLine_text hd (fun _ => hclosed) hat with ⟨r₁, hread, hat₁⟩
  rcases unmarshalHeaders_text (.inl hclosed) hat₁ with ⟨r₂, hheaders, hend⟩
  have hstart : Parser.run readStartLine (.ofBytes d) =
      some (unmarshalStartLine (firstLine d).1, r₁) := by
    rw [readStartLine, Parser.run_mk, hread, map_some]
  rw [if_neg hd]
  generalize unmarshalStartLine (firstLine d).1 = start at hstart ⊢
  rcases start with e | sl
  · exact ⟨r₁, Parser.run_bind_error _ hstart⟩
  rw [Parser.run_bind_ok _ hstart]
  rcases hp : headerFields (firstLine d).2 with e | p
  · rw [hp] at hheaders
    exact ⟨r₂, Parser.run_bind_error _ hheaders⟩
  rw [hp] at hheaders
  rw [Parser.run_bind_ok _ hheaders]
  change ∃ r', _ = some ((headerCSeq (p.1.foldl storeField ∅) >>= _) >>= _, r')
  rcases headerCSeq (p.1.foldl storeField ∅) with e | cseq
  · exact ⟨r₂, Parser.run_bind_error _ (Parser.run_mk _ r₂)⟩
  rw [Parser.run_bind_ok _ (Parser.run_mk _ r₂)]
  have hat₂ := hend p hp
  rw [append_nil] at hat₂
  rcases unmarshalBody_text (p.1.foldl storeField ∅) hat₂ with ⟨r₃, hbody⟩
  exact Parser.exists_run_bind hbody (fun body _ => ⟨r₃, rfl⟩)

end Proto

end Trecs
