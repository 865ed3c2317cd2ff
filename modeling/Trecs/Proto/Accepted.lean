import Trecs.Proto.HeaderText
import Trecs.Proto.RoundTrip

/-!
# What the Parser Accepts

What can be said about a message because the parser returned it.

`Assembled` describes the lines that come out of the line readers. It is
`Foldable` without a promise about the end: the last byte may be a line feed,
left over from a line that was not ended by CR LF. `Stored` says the same about
a header line together with its key and value, and every header of an accepted
message is stored. The key is in canonical form, has no colon in it and is not
the name of another header; the value does not start with a space.

The input is a datagram throughout, so the parser is a function of its text.

## Main definitions

* `Assembled`: Lines as they are read.
* `Stored`: Header lines as they are kept.

## Theorems

* `firstLine_sound`, `assembled_headerLine`: Lines are assembled.
* `headerFields_sound`: Headers are stored.
* `unmarshalStartLine_sound`: A start line is its own text.
-/

namespace Trecs

open List Option

namespace Proto

open Reader

/-! ### Names -/

/-- One byte of a capitalised name. -/
def capitaliseByte (upper : Bool) (b : UInt8) : UInt8 :=
  if upper && isLower b then b - 32 else if !upper && isUpper b then b + 32 else b

variable {h : SIPHeaders} {r r' : Reader} {l : Bytes} (bs : Bytes) (upper : Bool) (k : Bytes)

theorem capitaliseByte_facts (b : UInt8) :
    capitaliseByte upper (capitaliseByte upper b) = capitaliseByte upper b ∧
      (validHeaderFieldByte b = true → validHeaderFieldByte (capitaliseByte upper b) = true) := by
  have hall : ∀ (upper : Bool) (n : Fin 256),
      capitaliseByte upper (capitaliseByte upper (UInt8.ofNat n)) =
          capitaliseByte upper (UInt8.ofNat n) ∧
        (validHeaderFieldByte (UInt8.ofNat n) = true →
          validHeaderFieldByte (capitaliseByte upper (UInt8.ofNat n)) = true) := by
    decide +kernel
  have hb := hall upper ⟨b.toNat, b.toNat_lt⟩
  rw [UInt8.ofNat_toNat] at hb
  exact hb

theorem capitalise_cons (b : UInt8) (bs : Bytes) : capitalise upper (b :: bs) =
      capitaliseByte upper b :: capitalise (capitaliseByte upper b == 45) bs := rfl

theorem capitalise_idem : capitalise upper (capitalise upper k) = capitalise upper k := by
  induction k generalizing upper with
  | nil => rfl
  | cons b bs ih =>
    rw [capitalise_cons, capitalise_cons, (capitaliseByte_facts upper b).1, ih]

theorem capitalise_token (h : k.all validHeaderFieldByte = true) :
    (capitalise upper k).all validHeaderFieldByte = true := by
  induction k generalizing upper with
  | nil => rfl
  | cons b bs ih =>
    rw [all_cons, Bool.and_eq_true] at h
    rw [capitalise_cons, all_cons, Bool.and_eq_true]
    exact ⟨(capitaliseByte_facts upper b).2 h.1, ih _ h.2⟩

theorem canonicalMIMEHeaderKey_idem :
    canonicalMIMEHeaderKey (canonicalMIMEHeaderKey k) = canonicalMIMEHeaderKey k := by
  by_cases hk : k.all validHeaderFieldByte = true
  · simp only [canonicalMIMEHeaderKey, if_pos hk, if_pos (capitalise_token true k hk),
      capitalise_idem]
  · simp only [canonicalMIMEHeaderKey, if_neg hk]

theorem rfcOverride_names : ∀ p ∈ rfcOverride,
    canonicalHeaderKey p.2 = p.2 ∧ p.1.all validHeaderFieldByte = true ∧
      p.2.all validHeaderFieldByte = true := by
  decide

theorem lookup_mem {l : List (Bytes × Bytes)} {k v : Bytes} (h : l.lookup k = some v) :
    (k, v) ∈ l := by
  rcases lookup_eq_some_iff.mp h with ⟨l₁, l₂, hl, _⟩
  rw [hl]
  exact mem_append_right l₁ mem_cons_self

/-- A canonical name is in canonical form. -/
theorem canonicalHeaderKey_idem :
    canonicalHeaderKey (canonicalHeaderKey k) = canonicalHeaderKey k := by
  rcases hl : rfcOverride.lookup (canonicalMIMEHeaderKey k) with _ | rfc
  · have hkey : canonicalHeaderKey k = canonicalMIMEHeaderKey k := by
      simp [canonicalHeaderKey, hl]
    rw [hkey]
    simp [canonicalHeaderKey, canonicalMIMEHeaderKey_idem, hl]
  · have hkey : canonicalHeaderKey k = rfc := by simp only [canonicalHeaderKey, hl]
    rw [hkey]
    exact (rfcOverride_names _ (lookup_mem hl)).1

/-- Only tokens change on the way into canonical form, and they stay tokens. -/
theorem canonicalHeaderKey_cases : canonicalHeaderKey k = k ∧ ¬ k.all validHeaderFieldByte = true ∨
      (canonicalHeaderKey k).all validHeaderFieldByte = true := by
  by_cases hk : k.all validHeaderFieldByte = true
  · right
    rcases hl : rfcOverride.lookup (canonicalMIMEHeaderKey k) with _ | rfc
    · have hkey : canonicalHeaderKey k = capitalise true k := by
        simp only [canonicalHeaderKey, hl]
        rw [canonicalMIMEHeaderKey, if_pos hk]
      rw [hkey]
      exact capitalise_token true k hk
    · simp only [canonicalHeaderKey, hl]
      exact (rfcOverride_names _ (lookup_mem hl)).2.2
  · left
    refine ⟨?_, hk⟩
    have hmime : canonicalMIMEHeaderKey k = k := by simp only [canonicalMIMEHeaderKey, if_neg hk]
    rcases hl : rfcOverride.lookup k with _ | rfc
    · simp [canonicalHeaderKey, hmime, hl]
    · exact absurd (rfcOverride_names _ (lookup_mem hl)).2.1 hk

theorem wireKey_idem : wireKey (wireKey k) = wireKey k :=
  wireKey_of_canonical _ (canonicalHeaderKey_idem _)

/-- A key is the name on the wire, or a token. -/
theorem wireKey_cases : wireKey k = k ∨ (wireKey k).all validHeaderFieldByte = true := by
  unfold wireKey
  rcases hl : compactHeaders k with _ | long
  · rw [getD_none]
    exact (canonicalHeaderKey_cases k).imp_left And.left
  · have hlong : ∀ p ∈ compactTable, (canonicalHeaderKey p.2).all validHeaderFieldByte = true := by
      decide
    exact .inr (hlong _ (lookup_mem hl))

/-! ### Lines -/

/-- Every line feed in the line is followed by a space or a tab or ends it, and
    none follows a carriage return. -/
def Assembled (l : Bytes) : Prop :=
  ∀ a b, l = a ++ LF :: b →
    a.getLast? ≠ some CR ∧ ∀ c, b.head? = some c → c = SP ∨ c = HT

/-- A line feed can only be the last byte, and follows no carriage return. -/
def Piece (l : Bytes) : Prop := ∀ a b, l = a ++ LF :: b → a.getLast? ≠ some CR ∧ b = []

theorem Piece.assembled (h : Piece l) : Assembled l := by
  intro a b hl
  rcases h a b hl with ⟨hcr, hb⟩
  refine ⟨hcr, ?_⟩
  rw [hb]
  intro c hc
  exact absurd hc (by simp only [head?_nil, reduceCtorEq, not_false_eq_true])

theorem piece_of_not_mem (l : Bytes) (h : LF ∉ l) : Piece l := by
  intro a b hl
  exact absurd (hl ▸ mem_append_right a mem_cons_self) h

/-- A line that keeps its line feed. -/
theorem piece_concat_lf (l : Bytes) (h : LF ∉ l) (hcr : l.getLast? ≠ some CR) :
    Piece (l ++ [LF]) := by
  intro a b hl
  rcases append_eq_append_iff.mp hl with ⟨x, ha, hx⟩ | ⟨x, hl', hx⟩
  · -- The text in front of the line feed is at least the whole line.
    rcases x with _ | ⟨y, ys⟩
    · rw [nil_append, cons.injEq] at hx
      rw [ha, append_nil]
      exact ⟨hcr, hx.2.symm⟩
    · have hlen := congrArg List.length hx
      simp only [length_cons, length_nil, length_append] at hlen
      omega
  · rcases x with _ | ⟨y, ys⟩
    · rw [nil_append, cons.injEq] at hx
      rw [append_nil] at hl'
      rw [← hl']
      exact ⟨hcr, hx.2⟩
    · rw [cons_append, cons.injEq] at hx
      refine absurd ?_ h
      rw [hl', ← hx.1]
      exact mem_append_right _ mem_cons_self

theorem Assembled.left {p q : Bytes} (h : Assembled (p ++ q)) : Assembled p := by
  intro a b hp
  rcases h a (b ++ q) (by rw [hp, append_assoc, cons_append]) with ⟨hcr, hblank⟩
  refine ⟨hcr, ?_⟩
  intro c hc
  rcases b with _ | ⟨x, xs⟩
  · cases hc
  · exact hblank c hc

/-- A piece that starts with a space or a tab can be added. -/
theorem Assembled.append {p q : Bytes} (hp : Assembled p) (hq : Piece q)
    (hblank : ∀ c, q.head? = some c → c = SP ∨ c = HT) : Assembled (p ++ q) := by
  intro a b hl
  rcases append_eq_append_iff.mp hl with ⟨a', ha, hq'⟩ | ⟨c', hp', hb⟩
  · -- The line feed lies in the new piece, behind its first byte.
    rcases hq a' b hq' with ⟨hcr, hnil⟩
    rcases a' with _ | ⟨x, xs⟩
    · have hlf := hblank LF (by rw [hq']; rfl)
      exact absurd hlf (by decide)
    · refine ⟨?_, ?_⟩
      · rw [ha, getLast?_append_of_ne_nil _ (cons_ne_nil x xs)]
        exact hcr
      · rw [hnil]
        intro c hc
        cases hc
  · rcases c' with _ | ⟨x, xs⟩
    · -- The old line ends in front of this line feed, which then starts the piece.
      rw [nil_append] at hb
      have hlf := hblank LF (by rw [← hb]; rfl)
      exact absurd hlf (by decide)
    · rw [cons_append, cons.injEq] at hb
      rw [← hb.1] at hp'
      rcases hp a xs hp' with ⟨hcr, hnext⟩
      refine ⟨hcr, ?_⟩
      rw [hb.2]
      intro c hc
      rcases xs with _ | ⟨y, ys⟩
      · exact hblank c hc
      · exact hnext c hc

/-- What is left of a line when its line end is cut off. -/
theorem firstLine_sound (s : Bytes) : Piece (firstLine s).1 := by
  rcases line_cases s with h | ⟨a, rest, rfl, hnot⟩
  · rw [firstLine_of_not_mem h]
    exact piece_of_not_mem s h
  rw [firstLine_append a rest hnot]
  rcases trimSuffix_crlf_lf a with ⟨l', ha, htrim⟩ | ⟨hcr, htrim⟩
  · rw [htrim]
    exact piece_of_not_mem l' (fun hc => hnot (ha ▸ mem_append_left _ hc))
  · rw [htrim]
    exact piece_concat_lf a hnot hcr

/-- What is left of a line after trimming is its front. -/
theorem Assembled.trim (h : Assembled l) : Assembled (l.rdropWhile blank) := by
  rcases rdropWhile_prefix blank (l := l) with ⟨q, hq⟩
  rw [← hq] at h
  exact h.left

theorem assembled_foldedLine (line s : Bytes) (hline : Assembled line) :
    Assembled (foldedLine line s).1 := by
  fun_induction foldedLine line s with
  | case1 line => exact hline
  | case2 line b bs hb ih =>
    refine ih (hline.trim.append (firstLine_sound (b :: bs)) (fun c hc => ?_))
    rw [head?_firstLine_blank bs hb, some.injEq] at hc
    exact hc ▸ hb
  | case3 line b bs _ => exact hline

theorem assembled_headerLine (s : Bytes) : Assembled (headerLine s).1 := by
  have hfirst := (firstLine_sound s).assembled
  unfold headerLine
  split
  · exact hfirst
  · exact assembled_foldedLine _ _ hfirst

theorem readHeaderLine_eq_ok (h : Parser.run readHeaderLine r = some (.ok l, r')) :
    Parser.run readContinuedLine r = some (.ok l, r') := by
  rw [readHeaderLine, Parser.run_mk] at h
  rcases hrun : Parser.run readContinuedLine r with _ | ⟨res, r₁⟩
  · rw [hrun] at h
    cases h
  · rw [hrun, map_some, some.injEq] at h
    rcases res with (e | _) | l'
    · by_cases he : e.isEOF = true
      · simp only [if_pos he, unmarshalErrorWrap, Prod.mk.injEq, reduceCtorEq, false_and] at h
      · simp only [if_neg he, unmarshalErrorWrap, Prod.mk.injEq, reduceCtorEq, false_and] at h
    · simp only [Prod.mk.injEq, reduceCtorEq, false_and] at h
    · exact congrArg some h

/-! ### Header sections -/

/-- A header line as it is kept: the key and the value can be put back on one
    line, apart from how the value ends. -/
structure Stored (f : Bytes × Bytes) : Prop where
  colon : (58 : UInt8) ∉ f.1
  key : wireKey f.1 = f.1
  value : f.2.head? ≠ some SP
  line : Assembled (f.1 ++ [58, SP] ++ f.2)

theorem head?_dropWhile_ne (v : Bytes) : (v.dropWhile (· == SP)).head? ≠ some SP := by
  intro h
  have hnot := head?_dropWhile_not (· == SP) v
  rw [h] at hnot
  exact absurd hnot (by decide)

/-- Writing a line from its key and its value moves no line feed. -/
theorem assembled_field (k k' v : Bytes) (hk : k' = k ∨ LF ∉ k') (h : Assembled (k ++ 58 :: v)) :
    Assembled (k' ++ [58, SP] ++ v.dropWhile (· == SP)) := by
  intro a b hl
  rw [append_assoc] at hl
  rcases append_eq_append_iff.mp hl with ⟨y, ha, hy⟩ | ⟨x, hk', hx⟩
  · -- The line feed lies in the value.
    rcases y with _ | ⟨y₀, _ | ⟨y₁, ys⟩⟩
    · exact absurd (cons.inj hy).1 (by decide)
    · exact absurd (cons.inj (cons.inj hy).2).1 (by decide)
    · have hv : v.dropWhile (· == SP) = ys ++ LF :: b := (cons.inj (cons.inj hy).2).2
      have hline : k ++ 58 :: v = (k ++ 58 :: v.takeWhile (· == SP) ++ ys) ++ LF :: b := by
        rw [append_assoc, ← hv, append_assoc, cons_append,
          takeWhile_append_dropWhile]
      rcases h _ _ hline with ⟨hcr, hblank⟩
      refine ⟨?_, hblank⟩
      rw [ha, ← (cons.inj hy).1, ← (cons.inj (cons.inj hy).2).1]
      rcases ys with _ | ⟨z, zs⟩
      · rw [getLast?_append_of_ne_nil _ (cons_ne_nil _ _)]
        decide
      · rw [getLast?_append_of_ne_nil _ (cons_ne_nil z zs)] at hcr
        rw [getLast?_append_of_ne_nil _ (cons_ne_nil _ _), getLast?_cons_cons,
          getLast?_cons_cons]
        exact hcr
  · rcases x with _ | ⟨x₀, xs⟩
    · exact absurd (cons.inj hx).1 (by decide)
    · -- The line feed lies in the name, which then is the one on the wire.
      rw [cons_append, cons.injEq] at hx
      rw [← hx.1] at hk'
      have hmem : LF ∈ k' := by
        rw [hk']
        exact mem_append_right _ mem_cons_self
      have hkk : k' = k := hk.resolve_right (fun hc => hc hmem)
      have hline : k ++ 58 :: v = a ++ LF :: (xs ++ 58 :: v) := by
        rw [← hkk, hk', append_assoc, cons_append]
      rcases h _ _ hline with ⟨hcr, hblank⟩
      refine ⟨hcr, ?_⟩
      rcases xs with _ | ⟨z, zs⟩
      · exact absurd (hblank 58 rfl) (by decide)
      · rw [hx.2]
        exact hblank

theorem stored_of_cut {l k v : Bytes} (hl : Assembled l) (hcut : cut 58 l = some (k, v)) :
    Stored (wireKey k, v.dropWhile (· == SP)) := by
  rcases (cut_eq_some_iff 58 l k v).mp hcut with ⟨rfl, hcolon⟩
  have hname : wireKey k = k ∨ LF ∉ wireKey k :=
    (wireKey_cases k).imp_right (fun h => not_mem_token _ h LF (by decide))
  refine ⟨?_, wireKey_idem k, head?_dropWhile_ne v, assembled_field k (wireKey k) v hname hl⟩
  rcases wireKey_cases k with h | h
  · rw [h]
    exact hcolon
  · exact not_mem_token _ h 58 (by decide)

theorem headerFields_sound (s : Bytes) (p : List (Bytes × Bytes) × Bytes)
    (h : headerFields s = .ok p) :
    (∀ f ∈ p.1, Stored (wireKey f.1, f.2.dropWhile (· == SP))) ∧ p.2.length ≤ s.length := by
  fun_induction headerFields s generalizing p with
  | case1 => cases h
  | case2 s hs _ =>
    rw [← Except.ok.inj h]
    exact ⟨fun f hf => absurd hf not_mem_nil, (length_headerLine hs).le⟩
  | case3 s hs _ _ => cases h
  | case4 s hs _ f hcut ih =>
    rcases map_eq_ok h with ⟨q, hq, rfl⟩
    rcases ih q hq with ⟨hstored, hlen⟩
    refine ⟨forall_mem_cons.mpr ⟨stored_of_cut (assembled_headerLine s) hcut, hstored⟩, ?_⟩
    exact hlen.trans (length_headerLine hs).le

/-! ### The other parts -/

theorem unmarshalMethod_sound {v : Bytes} {method : SIPMethod}
    (h : unmarshalMethod v = .ok method) : method.text = v ∧ method ∈ SIPMethod.known := by
  unfold unmarshalMethod at h
  rcases hf : SIPMethod.known.find? (fun m => m.text = v) with _ | m
  · rw [hf] at h
    cases h
  · rw [hf] at h
    cases h
    exact ⟨of_decide_eq_true (find?_some hf :), mem_of_find?_eq_some hf⟩

/-- A start line that was accepted is the text of what it was read as. -/
theorem unmarshalStartLine_sound {s : Bytes} {sl : StartLine}
    (h : unmarshalStartLine s = .ok sl) : sl.text = s := by
  unfold unmarshalStartLine at h
  rcases hcut : cut SP s with _ | ⟨t0, rest⟩
  · simp only [hcut, unmarshalErrorf, reduceCtorEq] at h
  · rcases hcut₂ : cut SP rest with _ | ⟨t1, t2⟩
    · simp only [hcut, hcut₂, unmarshalErrorf, reduceCtorEq] at h
    · have hs := ((cut_eq_some_iff SP s t0 rest).mp hcut).1
      have hrest := ((cut_eq_some_iff SP rest t1 t2).mp hcut₂).1
      simp only [hcut, hcut₂] at h
      split at h
      · simp only [unmarshalErrorf, reduceCtorEq] at h
      · split at h
        · split at h
          · simp only [unmarshalErrorf, reduceCtorEq] at h
          · rcases hcode : atoi t1 with e | sc
            · simp only [hcode, unmarshalErrorWrap, reduceCtorEq] at h
            · rw [hcode, Except.ok.injEq] at h
              rw [← h, hs, hrest]
              simp [StartLine.text]
        · rcases hm : unmarshalMethod t0 with e | method
          · simp only [hm, reduceCtorEq] at h
          · simp only [hm] at h
            split at h
            · rw [Except.ok.injEq] at h
              rw [← h, hs, hrest, ← (unmarshalMethod_sound hm).1]
              simp [StartLine.text]
            · simp only [unmarshalErrorf, reduceCtorEq] at h

theorem unmarshalCSeq_sound {values : List Bytes} {cseq : CSeq}
    (h : unmarshalCSeq values = .ok cseq) : cseq.method ∈ SIPMethod.known := by
  rcases values with _ | ⟨value, _ | ⟨value', values⟩⟩
  · simp only [unmarshalCSeq, unmarshalErrorf, reduceCtorEq] at h
  · unfold unmarshalCSeq at h
    rcases hcut : cut SP value with _ | ⟨seqStr, methodStr⟩
    · simp only [hcut, unmarshalErrorf, reduceCtorEq] at h
    · rcases hseq : atoi seqStr with e | seq
      · simp only [hcut, hseq, unmarshalErrorWrap, reduceCtorEq] at h
      · rcases hm : unmarshalMethod methodStr with (e | _) | method
        · simp only [hcut, hseq, hm, unmarshalErrorWrap, reduceCtorEq] at h
        · simp only [hcut, hseq, hm, reduceCtorEq] at h
        · simp only [hcut, hseq, hm] at h
          cases h
          exact (unmarshalMethod_sound hm).2
  · simp only [unmarshalCSeq, unmarshalErrorf, reduceCtorEq] at h

/-- A body is no longer than what was there. -/
theorem bodyText_sound {body rest : Bytes} (hbody : bodyText h rest = .ok body) :
    body.length ≤ rest.length := by
  unfold bodyText at hbody
  split at hbody
  · rcases bind_eq_ok hbody with ⟨n, _, hn⟩
    split at hn
    · rw [← Except.ok.inj hn]
      exact length_take_le' n rest
    · cases hn
  · cases hbody
  · rw [Except.ok.inj hbody]

/-! ### Messages -/

/-- The parts of a message that was read, in the order they were read in. -/
theorem unmarshalSIPFrom_eq_ok {streamed : Bool} {r r' : Reader} {m : SIPMessage}
    (h : Parser.run (unmarshalSIPFrom streamed) r = some (.ok m, r')) :
    ∃ line sl r₁ r₂, Parser.run readLine r = some (.ok line, r₁) ∧
      unmarshalStartLine line = .ok sl ∧ m.startLine = some sl ∧
      Parser.run unmarshalHeaders r₁ = some (.ok m.headers, r₂) ∧
      headerCSeq m.headers = .ok m.cseq ∧
      Parser.run (unmarshalBody streamed m.headers) r₂ = some (.ok m.body, r') := by
  rcases Parser.run_bind_eq_ok h with ⟨sl, r₁, hstart, h⟩
  rcases Parser.run_bind_eq_ok h with ⟨headers, r₂, hheaders, h⟩
  rcases Parser.run_bind_eq_ok h with ⟨cseq, r₃, hcseq, h⟩
  rcases Parser.run_bind_eq_ok h with ⟨body, r₄, hbody, h⟩
  simp only [Parser.run_mk, some.injEq, Prod.mk.injEq] at hcseq
  rw [Parser.run_pure, some.injEq, Prod.mk.injEq, Except.ok.injEq] at h
  rw [← hcseq.2] at hbody
  rw [h.2] at hbody
  rw [← h.1]
  rw [readStartLine, Parser.run_mk] at hstart
  rcases hline : Parser.run readLine r with _ | ⟨(e | _) | line, r₅⟩
  · simp only [hline, map_none, reduceCtorEq] at hstart
  · simp only [hline, map_some, unmarshalErrorWrap, some.injEq, Prod.mk.injEq,
      reduceCtorEq, false_and] at hstart
  · simp only [hline, map_some, some.injEq, Prod.mk.injEq, reduceCtorEq,
      false_and] at hstart
  · simp only [hline, map_some, some.injEq, Prod.mk.injEq] at hstart
    rw [hstart.2]
    exact ⟨line, sl, r₁, r₂, rfl, hstart.1, rfl, hheaders, hcseq.1, hbody⟩

/-- A key of a header section has the values of its lines, at least one. -/
theorem lookup_pushed {fs : List (Bytes × Bytes)} {k : Bytes} {vs : List Bytes}
    (hl : (fs.foldl (fun h f => SIPHeaders.push h f.1 f.2) ∅).lookup k = some vs) :
    vs ≠ [] ∧ vs = valuesOf fs k := by
  have hempty : (∅ : SIPHeaders).lookup k = none := rfl
  rw [lookup_foldl_push, hempty] at hl
  by_cases hv : valuesOf fs k = []
  · rw [if_pos hv] at hl
    cases hl
  · rw [if_neg hv, getD_none, nil_append, some.injEq] at hl
    exact ⟨hl ▸ hv, hl.symm⟩

theorem foldl_storeField (fs : List (Bytes × Bytes)) :
    fs.foldl storeField ∅ = (fs.map (fun f => (wireKey f.1, f.2.dropWhile (· == SP)))).foldl
      (fun h f => SIPHeaders.push h f.1 f.2) ∅ := by
  rw [foldl_map]
  rfl

theorem readHead_eq_ok {d : Bytes} {q : SIPMessage × Bytes} (h : readHead d = .ok q) :
    ∃ sl p cseq, d ≠ [] ∧ unmarshalStartLine (firstLine d).1 = .ok sl ∧
      headerFields (firstLine d).2 = .ok p ∧
      headerCSeq (p.1.foldl storeField ∅) = .ok cseq ∧
      q = (⟨some sl, p.1.foldl storeField ∅, cseq, []⟩, p.2) := by
  rcases guard_eq_ok h with ⟨hd, h⟩
  rcases bind_eq_ok h with ⟨sl, hsl, h⟩
  rcases bind_eq_ok h with ⟨p, hp, h⟩
  rcases bind_eq_ok h with ⟨cseq, hcseq, h⟩
  exact ⟨sl, p, cseq, hd, hsl, hp, hcseq, (Except.ok.inj h).symm⟩

/-- What every accepted message satisfies. -/
structure Accepted (m : SIPMessage) (sl : StartLine) : Prop where
  startLine : m.startLine = some sl
  start : unmarshalStartLine sl.text = .ok sl
  piece : Piece sl.text
  headers : ∃ fs : List (Bytes × Bytes),
    m.headers = fs.foldl (fun h f => SIPHeaders.push h f.1 f.2) ∅ ∧ ∀ f ∈ fs, Stored f
  cseq : headerCSeq m.headers = .ok m.cseq

theorem accepted_of_unmarshalSIPDatagram {d : Bytes} {m : SIPMessage}
    (h : unmarshalSIPDatagram d = some (.ok m)) :
    ∃ sl, Accepted m sl ∧ m.body.length ≤ d.length := by
  rw [unmarshalSIPDatagram_eq, some.injEq] at h
  rcases bind_eq_ok h with ⟨q, hhead, h⟩
  rcases bind_eq_ok h with ⟨body, hbody, h⟩
  rw [← Except.ok.inj h]
  rcases readHead_eq_ok hhead with ⟨sl, p, cseq, hd, hsl, hp, hcseq, rfl⟩
  rcases headerFields_sound _ p hp with ⟨hstored, hrest⟩
  have hline := length_firstLine hd
  have hlen := bodyText_sound hbody
  have htext := unmarshalStartLine_sound hsl
  refine ⟨sl, ⟨rfl, htext.symm ▸ hsl, htext.symm ▸ firstLine_sound d,
    ⟨_, foldl_storeField p.1, ?_⟩, hcseq⟩, ?_⟩
  · rintro _ hf
    rcases List.mem_map.mp hf with ⟨f, hmem, rfl⟩
    exact hstored f hmem
  · dsimp only at hlen ⊢
    omega

namespace Accepted

variable {m : SIPMessage} {sl : StartLine}

/-- No header of an accepted message is without a value. -/
theorem values_ne_nil (h : Accepted m sl) {k : Bytes} {vs : List Bytes}
    (hl : m.headers.lookup k = some vs) : vs ≠ [] := by
  rcases h.headers with ⟨fs, hfs, _⟩
  rw [hfs] at hl
  exact (lookup_pushed hl).1

/-- Every header line of an accepted message is stored. -/
theorem stored (h : Accepted m sl) : ∀ f ∈ m.fields, Stored f := by
  intro f hf
  rcases (m.mem_fields f).mp hf with ⟨_, vs, hl, hv⟩
  rcases h.headers with ⟨fs, hfs, hstored⟩
  rw [hfs] at hl
  rw [(lookup_pushed hl).2, valuesOf] at hv
  rcases List.mem_map.mp hv with ⟨g, hg, hgv⟩
  rcases mem_filter.mp hg with ⟨hmem, hkey⟩
  have hgf : g = f := Prod.ext (of_decide_eq_true hkey) hgv
  rw [← hgf]
  exact hstored g hmem

/-- A CSeq header of an accepted message names a known method. -/
theorem method_known (h : Accepted m sl) (hc : hCSeq ∈ m.headers) :
    m.cseq.method ∈ SIPMethod.known := by
  have hcseq := h.cseq
  rcases hl : m.headers.lookup hCSeq with _ | values
  · exact absurd hc (AList.lookup_eq_none.mp hl)
  · rw [headerCSeq, hl] at hcseq
    exact unmarshalCSeq_sound hcseq

end Accepted

/-! ### Room for a body -/

theorem avoids_errorf {α : Type} (msg : Bytes) :
    Avoids .panic (unmarshalErrorf msg : Except Fault α) := .error (fun h => by cases h)

theorem avoids_errorWrap {α : Type} (cause : GoError) (msg : Bytes) :
    Avoids .panic (unmarshalErrorWrap cause msg : Except Fault α) := .error (fun h => by cases h)

theorem unmarshalMethod_avoids (v : Bytes) : Avoids .panic (unmarshalMethod v) := by
  unfold unmarshalMethod
  split
  · exact .ok _
  · exact avoids_errorf _

theorem unmarshalStartLine_avoids (s : Bytes) : Avoids .panic (unmarshalStartLine s) := by
  unfold unmarshalStartLine
  split
  · exact avoids_errorf _
  split
  · exact avoids_errorf _
  refine .ite (fun _ => avoids_errorf _) (fun _ => .ite (fun _ => ?_) (fun _ => ?_))
  · refine .ite (fun _ => avoids_errorf _) (fun _ => ?_)
    split
    · exact avoids_errorWrap _ _
    · exact .ok _
  · split
    · rename_i hm
      exact .retype (hm ▸ unmarshalMethod_avoids _)
    · exact .ite (fun _ => .ok _) (fun _ => avoids_errorf _)

theorem headerFields_avoids (s : Bytes) : Avoids .panic (headerFields s) := by
  fun_induction headerFields s with
  | case1 => exact avoids_errorWrap _ _
  | case2 => exact .ok _
  | case3 => exact avoids_errorf _
  | case4 s hs hline f hcut ih => exact ih.map

theorem headerCSeq_avoids (h : SIPHeaders) : Avoids .panic (headerCSeq h) := by
  unfold headerCSeq
  split
  · unfold unmarshalCSeq
    split
    · exact avoids_errorf _
    · exact avoids_errorf _
    split
    · exact avoids_errorf _
    split
    · exact avoids_errorWrap _ _
    split
    · exact avoids_errorWrap _ _
    · rename_i hm
      exact absurd hm (unmarshalMethod_avoids _)
    · exact .ok _
  · exact .ok _

theorem readHead_avoids (d : Bytes) : Avoids .panic (readHead d) :=
  .ite (fun _ => avoids_errorWrap _ _) (fun _ => (unmarshalStartLine_avoids _).bind (fun _ _ =>
    (headerFields_avoids _).bind (fun _ _ => (headerCSeq_avoids _).bind (fun _ _ => .ok _))))

/-- The length that `make` gets for the body of a datagram, if it is called. -/
def bodyMake (d : Bytes) : Option Nat :=
  match readHead d with
  | .error _ => none
  | .ok p =>
    match p.1.headers.lookup hContentLength with
    | some (clStr :: _) =>
      match atoi (trimSpace clStr) with
      | .error _ => none
      | .ok n => if 0 < n.toInt then some n.toInt.toNat else none
    | _ => none

/-- Where the head of a datagram is accepted, the first value of its
    Content-Length header is at most `n` or not a number. -/
def ContentLengthAtMost (d : Bytes) (n : Nat) : Prop :=
  ∀ p clStr more k, readHead d = .ok p →
    p.1.headers.lookup hContentLength = some (clStr :: more) →
    atoi (trimSpace clStr) = .ok k → k.toInt ≤ n

/-- The body of a datagram panics only at a length that no slice can have. -/
theorem bodyText_avoids {p : SIPMessage × Bytes} {d : Bytes} (hd : d.length ≤ maxAlloc)
    (hp : readHead d = .ok p) (h : ContentLengthAtMost d d.length) :
    Avoids .panic (bodyText p.1.headers p.2) := by
  unfold bodyText
  split
  · rename_i clStr more hl
    refine .bind ?_ (fun n _ => .ite (fun _ => .ok _) (fun _ => avoids_errorWrap _ _))
    unfold unmarshalContentLength
    split
    · exact avoids_errorWrap _ _
    · rename_i k hk
      have hle := h p clStr more k hp hl hk
      exact .ite (fun _ => avoids_errorf _) (fun _ => .ite (fun hc => by omega) (fun _ => .ok _))
  · rename_i hl
    rcases readHead_eq_ok hp with ⟨_, q, _, _, _, _, _, rfl⟩
    rw [foldl_storeField] at hl
    exact absurd rfl (lookup_pushed hl).1
  · exact .ok _

/-- A datagram is read without a panic and without a buffer longer than itself if
    and only if its Content-Length is no longer than it. -/
theorem unmarshalSIPDatagram_makes_iff (d : Bytes) (hd : d.length ≤ maxAlloc) :
    ((∃ m, unmarshalSIPDatagram d = some (.ok m)) ∨
        (∃ e, unmarshalSIPDatagram d = some (.error (.error e)))) ∧
      (∀ n ∈ bodyMake d, n ≤ d.length) ↔ ContentLengthAtMost d d.length := by
  rw [unmarshalSIPDatagram_eq]
  constructor
  · rintro ⟨_, hmake⟩ p clStr more k hp hl hk
    by_cases hpos : 0 < k.toInt
    · have hlen := hmake k.toInt.toNat (by simp only [bodyMake, hp, hl, hk, if_pos hpos, mem_def])
      omega
    · omega
  · intro h
    refine ⟨?_, ?_⟩
    · have hread : Avoids .panic (readMessage d) :=
        (readHead_avoids d).bind (fun p hp => (bodyText_avoids hd hp h).bind (fun _ _ => .ok _))
      revert hread
      rcases readMessage d with (e | _) | m <;> intro hread
      · exact .inr ⟨e, rfl⟩
      · exact absurd rfl hread
      · exact .inl ⟨m, rfl⟩
    · intro n hn
      unfold bodyMake at hn
      split at hn
      · cases hn
      split at hn
      · split at hn
        · cases hn
        · rename_i hp _ clStr more hl _ k hk
          have hle := h _ clStr more k hp hl hk
          split at hn
          · cases hn
            omega
          · cases hn
      · cases hn

/-- A request with a body of two bytes and a Content-Length. -/
def lengthText (value : String) : Bytes :=
  ascii ("BYE sip:a SIP/2.0\r\nl: " ++ value ++ "\r\n\r\nok")

theorem unmarshalSIPDatagram_makes_iff_two :
    bodyMake (lengthText "2") = some 2 ∧
      ContentLengthAtMost (lengthText "2") (lengthText "2").length := by
  have hmake : bodyMake (lengthText "2") = some 2 := by decide +kernel
  refine ⟨hmake, (unmarshalSIPDatagram_makes_iff (lengthText "2") (by decide)).mp ⟨?_, ?_⟩⟩
  · exact .inl ⟨⟨some (.request .BYE (ascii "sip:a") (ascii "SIP/2.0")),
      SIPHeaders.push ∅ hContentLength (ascii "2"), ⟨.none, 0⟩, ascii "ok"⟩, by decide +kernel⟩
  · intro n hn
    rw [hmake, mem_def, some.injEq] at hn
    exact hn ▸ by decide

/-- A short datagram makes the parser ask for a kilobyte, or panic. -/
theorem unmarshalSIPDatagram_makes_more :
    bodyMake (lengthText "1024") = some 1024 ∧ (lengthText "1024").length < 1024 ∧
      unmarshalSIPDatagram (lengthText "4611686018427387904") = some (.error .panic) := by
  decide +kernel

end Proto

end Trecs
