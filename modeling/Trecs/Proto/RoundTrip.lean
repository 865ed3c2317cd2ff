import Trecs.Proto.Lines
import Trecs.Proto.Marshal

/-!
# Framing on a Stream

Messages that are written one after another on a stream are read back one by
one, and what follows the last of them is left in the reader.

`Writable` collects what the text of a message needs for that: its start line is
read as itself, its header lines are read as they stand, and its CSeq names a
known method. Well-formed messages are writable, with full header names and
with compact ones. `unmarshalSIPFrom_wire` reads one writable message in front
of anything, and the result about a list of messages is an induction over it.

Two headers are not compared. CSeq and Content-Length are written from the
message and not from its header map, and the map of the message that comes back
holds what was written.

## Main definitions

* `SameMessage`: Equality up to the two regenerated headers.
* `Writable`: Messages that can be read back.
* `WellFormed`: Messages as RFC 3261 describes them.
* `unmarshalAll`: Successive calls of `UnmarshalSIP` on one reader.

## Theorems

* `unmarshalSIPFrom_wire`: One message comes back.
* `writable_of_wellFormed`: Well-formed messages can be read back.
* `unmarshalAll_serialise`: Any number of messages come back.
-/

namespace Trecs

open List Option

namespace Proto

open Reader

/-! ### Header maps -/

/-- The values that a list of header lines gives a key. -/
def valuesOf (fs : List (Bytes × Bytes)) (k : Bytes) : List Bytes :=
  (fs.filter (fun f => f.1 = k)).map Prod.snd

theorem valuesOf_append (fs gs : List (Bytes × Bytes)) (k : Bytes) :
    valuesOf (fs ++ gs) k = valuesOf fs k ++ valuesOf gs k := by
  simp [valuesOf]

theorem valuesOf_cons (f : Bytes × Bytes) (fs : List (Bytes × Bytes)) (k : Bytes) :
    valuesOf (f :: fs) k = if f.1 = k then f.2 :: valuesOf fs k else valuesOf fs k := by
  unfold valuesOf
  by_cases hk : f.1 = k
  · simp [hk]
  · simp [hk]

/-- Pushing header lines one by one collects the values of each key in the order
    of the lines. -/
theorem lookup_foldl_push (fs : List (Bytes × Bytes)) (h : SIPHeaders) (k : Bytes) :
    (fs.foldl (fun h f => SIPHeaders.push h f.1 f.2) h).lookup k =
      if valuesOf fs k = [] then h.lookup k
      else some ((h.lookup k).getD [] ++ valuesOf fs k) := by
  induction fs generalizing h with
  | nil => rfl
  | cons f fs ih =>
    rw [foldl_cons, ih, valuesOf_cons]
    by_cases hk : f.1 = k
    · have hpush : (SIPHeaders.push h f.1 f.2).lookup k =
          some ((h.lookup k).getD [] ++ [f.2]) := by
        rw [SIPHeaders.push, hk, AList.lookup_insert]
      rw [if_pos hk, if_neg (cons_ne_nil _ _), hpush]
      by_cases hv : valuesOf fs k = []
      · rw [if_pos hv, hv]
      · rw [if_neg hv, getD_some, append_assoc]
        rfl
    · have hpush : (SIPHeaders.push h f.1 f.2).lookup k = h.lookup k := by
        rw [SIPHeaders.push, AList.lookup_insert_ne (fun hc => hk hc.symm)]
      rw [if_neg hk, hpush]

/-- Lines grouped by distinct keys give each key its group. -/
theorem valuesOf_flatMap (g : Bytes → List Bytes) (ks : List Bytes) (hn : ks.Nodup) (k : Bytes) :
    valuesOf (ks.flatMap (fun k => (g k).map (fun v => (k, v)))) k = if k ∈ ks then g k else [] := by
  have hgroup : ∀ j, valuesOf ((g j).map (fun v => (j, v))) k = if j = k then g j else [] := by
    intro j
    by_cases hj : j = k
    · rw [if_pos hj, valuesOf, filter_eq_self.mpr]
      · rw [List.map_map]
        exact List.map_id _
      · intro f hf
        rcases List.mem_map.mp hf with ⟨v, _, rfl⟩
        exact decide_eq_true hj
    · rw [if_neg hj, valuesOf, filter_eq_nil_iff.mpr]
      · rfl
      · intro f hf
        rcases List.mem_map.mp hf with ⟨v, _, rfl⟩
        simp [hj]
  induction ks with
  | nil => rfl
  | cons j ks ih =>
    rw [nodup_cons] at hn
    rw [flatMap_cons, valuesOf_append, hgroup, ih hn.2]
    by_cases hj : j = k
    · rw [← hj, if_pos rfl, if_neg hn.1, if_pos mem_cons_self, append_nil]
    · have hmem : k ∈ j :: ks ↔ k ∈ ks := by
        rw [mem_cons]
        exact ⟨fun h => h.resolve_left (fun hc => hj hc.symm), Or.inr⟩
      rw [if_neg hj, nil_append]
      simp [hmem]

namespace SIPMessage

theorem headerKeys_nodup (m : SIPMessage) : m.headerKeys.Nodup :=
  ((perm_insertionSort _ _).nodup_iff).mpr (m.headers.keys_nodup.filter _)

theorem mem_headerKeys (m : SIPMessage) (k : Bytes) :
    k ∈ m.headerKeys ↔ k ∈ m.headers.keys ∧ fromMap k = true := by
  rw [headerKeys, (perm_insertionSort _ _).mem_iff, mem_filter]

theorem valuesOf_fields (m : SIPMessage) (k : Bytes) :
    valuesOf m.fields k = if fromMap k then (m.headers.lookup k).getD [] else [] := by
  rw [fields, valuesOf_flatMap _ _ m.headerKeys_nodup]
  by_cases hk : fromMap k = true
  · rw [if_pos hk]
    by_cases hmem : k ∈ m.headers.keys
    · rw [if_pos ((m.mem_headerKeys k).mpr ⟨hmem, hk⟩)]
    · have hnone : m.headers.lookup k = none := by
        rw [AList.lookup_eq_none]
        exact hmem
      rw [if_neg (fun hc => hmem ((m.mem_headerKeys k).mp hc).1), hnone]
      rfl
  · rw [if_neg hk, if_neg (fun hc => hk ((m.mem_headerKeys k).mp hc).2)]

theorem mem_fields (m : SIPMessage) (f : Bytes × Bytes) :
    f ∈ m.fields ↔ fromMap f.1 = true ∧ ∃ vs, m.headers.lookup f.1 = some vs ∧ f.2 ∈ vs := by
  unfold fields
  rw [mem_flatMap]
  constructor
  · rintro ⟨k, hk, hf⟩
    rcases List.mem_map.mp hf with ⟨v, hv, rfl⟩
    refine ⟨((m.mem_headerKeys k).mp hk).2, ?_⟩
    rcases hl : m.headers.lookup k with _ | vs
    · rw [hl] at hv
      cases hv
    · rw [hl] at hv
      exact ⟨vs, rfl, hv⟩
  · rintro ⟨hk, vs, hl, hv⟩
    have hmem : f.1 ∈ m.headers.keys := by
      rw [← AList.mem_keys, ← AList.lookup_isSome, hl]
      rfl
    refine ⟨f.1, (m.mem_headerKeys f.1).mpr ⟨hmem, hk⟩, ?_⟩
    rw [hl]
    exact List.mem_map.mpr ⟨f.2, hv, rfl⟩

end SIPMessage

/-! ### One message -/

/-- The same message, up to the headers that are written from elsewhere. -/
structure SameMessage (m m' : SIPMessage) : Prop where
  startLine : m'.startLine = m.startLine
  body : m'.body = m.body
  cseq : m'.cseq = m.cseq
  headers : ∀ k, k ≠ hCSeq → k ≠ hContentLength → m'.headers.lookup k = m.headers.lookup k

/-- A message whose text is read as the message. -/
structure Writable (m : SIPMessage) (sl : StartLine) (compact : Bool) : Prop where
  startLine : m.startLine = some sl
  start : unmarshalStartLine sl.text = .ok sl
  startLF : LF ∉ sl.text
  method : m.cseq.method ∈ SIPMethod.known
  fields : ∀ f ∈ m.fields, FieldOk (writtenName compact f.1) f
  plain : ∀ f ∈ m.fields.tail, PlainName (writtenName compact f.1)
  values : ∀ k vs, fromMap k = true → m.headers.lookup k = some vs → vs ≠ []
  body : m.body.length ≤ maxAlloc

variable {r : Reader} (n : Nat) (m : SIPMessage) (sl : StartLine) (compact : Bool) (k : Bytes)

theorem fromMap_eq_true_iff : fromMap k = true ↔ k ≠ hCSeq ∧ k ≠ hContentLength := by
  simp [fromMap]

theorem unmarshalMethod_text (method : SIPMethod) (h : method ∈ SIPMethod.known) :
    unmarshalMethod method.text = .ok method := by
  revert method
  decide

theorem unmarshalCSeq_cseqValue (h : m.cseq.method ∈ SIPMethod.known) :
    unmarshalCSeq [m.cseqValue] = .ok m.cseq := by
  have hcut : cut SP m.cseqValue = some (formatInt m.cseq.seq.toInt, m.cseq.method.text) := by
    rw [cut_eq_some_iff]
    refine ⟨?_, not_mem_formatInt _ SP (by decide)⟩
    rw [SIPMessage.cseqValue, append_assoc]
    rfl
  simp [unmarshalCSeq, hcut, atoi_formatInt, unmarshalMethod_text _ h]

theorem head?_formatInt_append (n : Int) (s : Bytes) (b : UInt8) (hb : b.toNat < 45) :
    (formatInt n ++ s).head? ≠ some b := by
  intro hc
  have hne : formatInt n ≠ [] := by
    unfold formatInt
    by_cases hn : n < 0
    · rw [if_pos hn]
      exact cons_ne_nil _ _
    · rw [if_neg hn]
      exact formatNat_ne_nil _
  rw [head?_append_of_ne_nil _ hne] at hc
  exact not_mem_formatInt n b hb (mem_of_mem_head? hc)

/-- The names of the regenerated headers stand for themselves. -/
theorem wireKey_regenerated : wireKey (writtenName compact hCSeq) = hCSeq ∧
      wireKey (writtenName compact hContentLength) = hContentLength := by
  cases compact <;> decide

/-- The CSeq line is read as it stands. -/
theorem fieldOk_cseq : FieldOk (writtenName compact hCSeq) (hCSeq, m.cseqValue) where
  colon := by
    rw [writtenName_hCSeq]
    decide
  key := (wireKey_regenerated compact).1
  value := by
    rw [SIPMessage.cseqValue, append_assoc]
    exact head?_formatInt_append _ _ SP (by decide)
  fold := by
    refine foldable_of_not_mem _ ?_
    have hname : LF ∉ hCSeq ++ [58, SP] := by decide
    have hmethod : ∀ method : SIPMethod, LF ∉ [SP] ++ method.text := by
      intro method
      cases method <;> decide
    have hvalue : LF ∉ m.cseqValue := by
      rw [SIPMessage.cseqValue, append_assoc, mem_append, not_or]
      exact ⟨not_mem_formatInt _ LF (by decide), hmethod _⟩
    rw [writtenName_hCSeq, mem_append, not_or]
    exact ⟨hname, hvalue⟩

/-- The Content-Length line is read as it stands. -/
theorem fieldOk_contentLength :
    FieldOk (writtenName compact hContentLength) (hContentLength, formatNat n) where
  colon := by cases compact <;> decide
  key := (wireKey_regenerated compact).2
  value := by
    rw [← formatInt_natCast, ← append_nil (formatInt _)]
    exact head?_formatInt_append _ _ SP (by decide)
  fold := by
    refine foldable_of_not_mem _ ?_
    have hname : LF ∉ writtenName compact hContentLength ++ [58, SP] := by
      cases compact <;> decide
    have hvalue : LF ∉ formatNat n := by
      rw [← formatInt_natCast]
      exact not_mem_formatInt _ LF (by decide)
    rw [mem_append, not_or]
    exact ⟨hname, hvalue⟩

theorem Writable.allFields_ok {m : SIPMessage} {sl : StartLine} {compact : Bool}
    (h : Writable m sl compact) : ∀ f ∈ m.allFields, FieldOk (writtenName compact f.1) f := by
  intro f hf
  rw [SIPMessage.allFields, mem_append, mem_cons, mem_singleton] at hf
  rcases hf with hf | rfl | rfl
  · exact h.fields f hf
  · exact fieldOk_cseq m compact
  · exact fieldOk_contentLength _ compact

theorem plainName_regenerated :
    PlainName (writtenName compact hCSeq) ∧ PlainName (writtenName compact hContentLength) := by
  constructor
  · rw [writtenName_hCSeq]
    rintro b hb
    cases hb
    decide
  · cases compact
    all_goals
      rintro b hb
      cases hb
      decide

theorem Writable.allFields_plain {m : SIPMessage} {sl : StartLine} {compact : Bool}
    (h : Writable m sl compact) :
    ∀ f ∈ m.allFields.tail, PlainName (writtenName compact f.1) := by
  intro f hf
  have hcases : f ∈ m.fields.tail ∨ f = (hCSeq, m.cseqValue) ∨
      f = (hContentLength, formatNat m.body.length) := by
    rw [SIPMessage.allFields] at hf
    rcases hm : m.fields with _ | ⟨g, gs⟩
    · rw [hm] at hf
      exact .inr (.inr (mem_singleton.mp hf))
    · rw [hm, cons_append, tail_cons, mem_append, mem_cons,
        mem_singleton] at hf
      exact hf
  rcases hcases with hf | rfl | rfl
  · exact h.plain f hf
  · exact (plainName_regenerated compact).1
  · exact (plainName_regenerated compact).2

theorem valuesOf_allFields : valuesOf m.allFields k =
      if k = hCSeq then [m.cseqValue]
      else if k = hContentLength then [formatNat m.body.length]
      else (m.headers.lookup k).getD [] := by
  have hne : ¬ hContentLength = hCSeq := by decide
  rw [SIPMessage.allFields, valuesOf_append, m.valuesOf_fields, valuesOf_cons, valuesOf_cons]
  by_cases hc : k = hCSeq
  · have hmap : ¬ fromMap hCSeq = true := by decide
    rw [hc, if_neg hmap, if_neg hne, if_pos rfl, if_pos rfl]
    rfl
  · have hc' : ¬ hCSeq = k := fun h => hc h.symm
    rw [if_neg hc, if_neg hc']
    by_cases hl : k = hContentLength
    · have hmap : ¬ fromMap hContentLength = true := by decide
      rw [hl, if_neg hmap, if_pos rfl, if_pos rfl]
      rfl
    · have hl' : ¬ hContentLength = k := fun h => hl h.symm
      have hmap : fromMap k = true := (fromMap_eq_true_iff k).mpr ⟨hc, hl⟩
      rw [if_neg hl, if_neg hl', if_pos hmap]
      exact append_nil _

/-- The header map that is read back. -/
theorem lookup_allFields
    (hvalues : ∀ k vs, fromMap k = true → m.headers.lookup k = some vs → vs ≠ []) (k : Bytes) :
    (m.allFields.foldl (fun h f => SIPHeaders.push h f.1 f.2) ∅).lookup k =
      if k = hCSeq then some [m.cseqValue]
      else if k = hContentLength then some [formatNat m.body.length]
      else m.headers.lookup k := by
  have hempty : (∅ : SIPHeaders).lookup k = none := rfl
  rw [lookup_foldl_push, valuesOf_allFields, hempty, getD_none, nil_append]
  by_cases hc : k = hCSeq
  · rw [if_pos hc, if_pos hc, if_neg (cons_ne_nil _ _)]
  · rw [if_neg hc, if_neg hc]
    by_cases hl : k = hContentLength
    · rw [if_pos hl, if_pos hl, if_neg (cons_ne_nil _ _)]
    · rw [if_neg hl, if_neg hl]
      rcases hv : m.headers.lookup k with _ | vs
      · rfl
      · have hmap : fromMap k = true := (fromMap_eq_true_iff k).mpr ⟨hc, hl⟩
        rw [getD_some, if_neg (hvalues k vs hmap hv)]

/-- The length of a body is read back. -/
theorem unmarshalContentLength_formatNat (h : n ≤ maxAlloc) :
    unmarshalContentLength (formatNat n) = .ok n := by
  have hmax : maxAlloc < 2 ^ 63 := by decide
  have hint : (Int64.ofInt (n : Int)).toInt = n := Int64.toInt_ofInt_of_le (by omega) (by omega)
  unfold unmarshalContentLength
  rw [trimSpace_formatNat, atoi_formatNat _ (by omega)]
  simp only [hint, if_neg (show ¬ (n : Int) < 0 by omega), Int.toNat_natCast,
    if_neg (show ¬ maxAlloc < n by omega)]

/-- A body is read back after its length was. -/
theorem unmarshalBody_length {c : Bool} {ts : List Token} (streamed : Bool) (h : SIPHeaders)
    (body : Bytes) (hbody : body.length ≤ maxAlloc)
    (hl : h.lookup hContentLength = some [formatNat body.length])
    (hat : At r c (body.map .byte ++ ts)) :
    ∃ r', Parser.run (unmarshalBody streamed h) r = some (.ok body, r') ∧ At r' c ts := by
  have hlen := unmarshalContentLength_formatNat body.length hbody
  unfold unmarshalBody
  rw [hl]
  simp only [Parser.run_mk, hlen]
  by_cases hpos : 0 < body.length
  · rcases readFull_bytes body hat with ⟨r', hread, hat'⟩
    refine ⟨r', ?_, hat'⟩
    rw [if_pos hpos, hread]
    rfl
  · have hnil : body = [] := length_eq_zero_iff.mp (by omega)
    rw [if_neg hpos, hnil]
    rw [hnil] at hat
    exact ⟨r, rfl, hat⟩

theorem unmarshalSIPFrom_wire {c : Bool} {ts : List Token} (streamed : Bool) (m : SIPMessage)
    (sl : StartLine) (compact : Bool) (h : Writable m sl compact)
    (hat : At r c ((m.wire sl compact).map .byte ++ ts)) :
    ∃ m' r', Parser.run (unmarshalSIPFrom streamed) r = some (.ok m', r') ∧ SameMessage m m' ∧
      At r' c ts := by
  have hshape : (m.wire sl compact).map Token.byte ++ ts =
      (sl.text ++ crlf).map Token.byte ++
        ((m.allFields.flatMap (fun f => lineText (writtenName compact) f ++ crlf) ++ crlf).map
          Token.byte ++ (m.body.map Token.byte ++ ts)) := by
    simp only [SIPMessage.wire, SIPMessage.wireHead, map_append, append_assoc]
    rfl
  rw [hshape] at hat
  rcases readLine_crlf sl.text h.startLF hat with ⟨r₁, hline, hat₁⟩
  have hstart : Parser.run readStartLine r = some (.ok sl, r₁) := by
    simp [readStartLine, Parser.run_mk, hline, h.start]
  rcases unmarshalHeaders_fields (writtenName compact) m.allFields h.allFields_ok h.allFields_plain
    hat₁ with ⟨r₂, hheaders, hat₂⟩
  have hlookup := lookup_allFields m h.values
  generalize hfold : m.allFields.foldl (fun h f => SIPHeaders.push h f.1 f.2) ∅ = headers
    at hheaders hlookup
  have hcseq : headerCSeq headers = .ok m.cseq := by
    unfold headerCSeq
    rw [hlookup, if_pos rfl]
    exact unmarshalCSeq_cseqValue m h.method
  have hcl : headers.lookup hContentLength = some [formatNat m.body.length] := by
    rw [hlookup, if_neg (by decide), if_pos rfl]
  rcases unmarshalBody_length streamed headers m.body h.body hcl hat₂ with ⟨r₃, hbody, hat₃⟩
  refine ⟨⟨some sl, headers, m.cseq, m.body⟩, r₃, ?_, ?_, hat₃⟩
  · unfold unmarshalSIPFrom
    rw [Parser.run_bind_ok _ hstart, Parser.run_bind_ok _ hheaders,
      Parser.run_bind_ok _ (show Parser.run (Parser.mk fun r => some (headerCSeq headers, r)) r₂ =
        some (.ok m.cseq, r₂) by rw [Parser.run_mk, hcseq]),
      Parser.run_bind_ok _ hbody]
    rfl
  · refine ⟨h.startLine.symm, rfl, rfl, ?_⟩
    intro k hc hl
    rw [hlookup, if_neg hc, if_neg hl]

/-! ### Well-formed messages -/

/-- A text without line ends. -/
def OneLine (s : Bytes) : Prop := CR ∉ s ∧ LF ∉ s

instance (s : Bytes) : Decidable (OneLine s) := inferInstanceAs (Decidable (_ ∧ _))

/-- A request line with a known method, or a status line with a three-digit
    code. -/
def WellFormedStart : StartLine → Prop
  | .request method uri version =>
    method ∈ SIPMethod.known ∧ (uri ≠ [] ∧ SP ∉ uri ∧ OneLine uri) ∧
      sipIndicator <+: version ∧ OneLine version
  | .response version status statusCode =>
    (sipIndicator <+: version ∧ SP ∉ version ∧ OneLine version) ∧
      ∃ code reason, status = code ++ [SP] ++ reason ∧
        (code.length = 3 ∧ (∀ b ∈ code, 48 ≤ b.toNat ∧ b.toNat ≤ 57) ∧
          atoi code = .ok statusCode) ∧
        reason ≠ [] ∧ OneLine reason

/-- A header whose name is a token in canonical form, with at least one value,
    each on one line and not starting with a space. -/
def WellFormedHeader (k : Bytes) (vs : List Bytes) : Prop :=
  (k ≠ [] ∧ k.all validHeaderFieldByte = true ∧ canonicalHeaderKey k = k) ∧
    vs ≠ [] ∧ ∀ v ∈ vs, OneLine v ∧ v.head? ≠ some SP

instance (k : Bytes) (vs : List Bytes) : Decidable (WellFormedHeader k vs) :=
  inferInstanceAs (Decidable (_ ∧ _))

/-- A well-formed message. The last field holds of every slice Go can make. -/
structure WellFormed (m : SIPMessage) : Prop where
  start : ∃ sl, m.startLine = some sl ∧ WellFormedStart sl
  cseq : 0 ≤ m.cseq.seq.toInt ∧ m.cseq.method ∈ SIPMethod.known
  required : ∀ h ∈ [hVia, hFrom, hTo, hCallID], h ∈ m.headers
  headers : ∀ e ∈ m.headers.entries, WellFormedHeader e.1 e.2
  body : m.body.length ≤ maxAlloc

theorem unmarshalStartLine_text (h : WellFormedStart sl) :
    unmarshalStartLine sl.text = .ok sl ∧ LF ∉ sl.text := by
  have hind : sipIndicator ≠ [] := by decide
  cases sl with
  | request method uri version =>
    rcases h with ⟨hmethod, ⟨huri, hsp, huriLF⟩, hversion, hversionLF⟩
    have hmethods : ∀ method ∈ SIPMethod.known,
        SP ∉ method.text ∧ LF ∉ method.text ∧ sipIndicator.isPrefixOf method.text = false := by
      decide
    rcases hmethods method hmethod with ⟨hmsp, hmlf, hmind⟩
    have hcut₁ : cut SP (StartLine.request method uri version).text =
        some (method.text, uri ++ [SP] ++ version) := by
      rw [cut_eq_some_iff]
      refine ⟨?_, hmsp⟩
      simp [StartLine.text]
    have hcut₂ : cut SP (uri ++ [SP] ++ version) = some (uri, version) := by
      rw [cut_eq_some_iff, append_assoc]
      exact ⟨rfl, hsp⟩
    have hne : ¬ (uri = [] ∨ version = []) := by
      rw [not_or]
      exact ⟨huri, fun hc => hind (prefix_nil.mp (hc ▸ hversion))⟩
    refine ⟨?_, ?_⟩
    · simp only [unmarshalStartLine, hcut₁, hcut₂, if_neg hne, hmind, Bool.false_eq_true,
        if_false, unmarshalMethod_text method hmethod, isPrefixOf_iff_prefix.mpr hversion,
        if_true]
    · simp only [StartLine.text, mem_append, mem_singleton, not_or]
      exact ⟨⟨⟨⟨hmlf, by decide⟩, huriLF.2⟩, by decide⟩, hversionLF.2⟩
  | response version status statusCode =>
    rcases h with ⟨⟨hversion, hsp, hversionLF⟩, code, reason, hstatus, ⟨hlen, hdigits, hcode⟩,
      hreason, hreasonLF⟩
    have hdigit : ∀ b : UInt8, b.toNat < 48 → b ∉ code := fun b hb hc => by
      have := (hdigits b hc).1
      omega
    have hcut₁ : cut SP (StartLine.response version status statusCode).text =
        some (version, status) := by
      rw [cut_eq_some_iff, StartLine.text, append_assoc]
      exact ⟨rfl, hsp⟩
    have hcut₂ : cut SP status = some (code, reason) := by
      rw [cut_eq_some_iff, hstatus, append_assoc]
      exact ⟨rfl, hdigit SP (by decide)⟩
    have hne : ¬ (code = [] ∨ reason = []) := by
      rw [not_or]
      exact ⟨fun hc => by rw [hc] at hlen; exact absurd hlen (by decide), hreason⟩
    refine ⟨?_, ?_⟩
    · simp only [unmarshalStartLine, hcut₁, hcut₂, if_neg hne,
        isPrefixOf_iff_prefix.mpr hversion, if_true, hlen, ne_eq, not_true_eq_false,
        if_false, hcode, ← hstatus]
    · simp only [StartLine.text, hstatus, mem_append, mem_singleton, not_or]
      exact ⟨⟨hversionLF.2, by decide⟩, ⟨hdigit LF (by decide), by decide⟩, hreasonLF.2⟩

/-- A compact name is a single letter that stands for its long name. -/
theorem compactTable_names : ∀ p ∈ compactTable,
    p.1 ≠ [] ∧ p.1.all validHeaderFieldByte = true ∧ wireKey p.1 = p.2 ∧
      canonicalHeaderKey p.1 ≠ p.1 := by
  decide

/-- A name in canonical form is not a compact name. -/
theorem wireKey_of_canonical (h : canonicalHeaderKey k = k) : wireKey k = k := by
  have hnone : compactHeaders k = none := by
    rw [compactHeaders, lookup_eq_none_iff]
    intro p hp
    refine bne_iff_ne.mpr ?_
    rintro rfl
    exact (compactTable_names p hp).2.2.2 h
  rw [wireKey, hnone, getD_none, h]

/-- The name a well-formed header is written under: a token that stands for its
    key. -/
theorem writtenName_token (hne : k ≠ []) (htoken : k.all validHeaderFieldByte = true)
    (hcan : canonicalHeaderKey k = k) :
    writtenName compact k ≠ [] ∧ (writtenName compact k).all validHeaderFieldByte = true ∧
      wireKey (writtenName compact k) = k := by
  have hfull := And.intro hne (And.intro htoken (wireKey_of_canonical k hcan))
  cases compact with
  | false => exact hfull
  | true =>
    rcases hfind : compactTable.find? (fun p => p.2 = k) with _ | p
    · have hname : writtenName true k = k := by
        simp [writtenName, compactKey, hfind]
      rw [hname]
      exact hfull
    · have hname : writtenName true k = p.1 := by
        simp [writtenName, compactKey, hfind]
      have hk : p.2 = k := of_decide_eq_true (find?_some hfind :)
      rw [hname]
      rcases compactTable_names p (mem_of_find?_eq_some hfind) with ⟨h1, h2, h3, _⟩
      exact ⟨h1, h2, h3.trans hk⟩

theorem not_mem_token (n : Bytes) (h : n.all validHeaderFieldByte = true) (b : UInt8)
    (hb : validHeaderFieldByte b = false) : b ∉ n := by
  intro hmem
  rw [List.all_eq_true] at h
  exact absurd (h b hmem) (by rw [hb]; exact Bool.false_ne_true)

theorem fieldOk_of_wellFormedHeader (f : Bytes × Bytes) (vs : List Bytes)
    (h : WellFormedHeader f.1 vs) (hv : f.2 ∈ vs) :
    FieldOk (writtenName compact f.1) f ∧ PlainName (writtenName compact f.1) := by
  rcases h with ⟨⟨hne, htoken, hcan⟩, _, hvalues⟩
  rcases writtenName_token compact f.1 hne htoken hcan with ⟨hnne, hntoken, hkey⟩
  rcases hvalues f.2 hv with ⟨hline, hsp⟩
  have hlf : LF ∉ writtenName compact f.1 ++ [58, SP] ++ f.2 := by
    rw [mem_append, mem_append, not_or, not_or]
    exact ⟨⟨not_mem_token _ hntoken LF (by decide), by decide⟩, hline.2⟩
  refine ⟨⟨not_mem_token _ hntoken 58 (by decide), hkey, hsp, foldable_of_not_mem _ hlf⟩, ?_⟩
  intro b hb
  have hmem : b ∈ writtenName compact f.1 := mem_of_mem_head? hb
  constructor
  · rintro rfl
    exact not_mem_token _ hntoken SP (by decide) hmem
  · rintro rfl
    exact not_mem_token _ hntoken HT (by decide) hmem

theorem writable_of_wellFormed (h : WellFormed m) : ∃ sl, Writable m sl compact := by
  rcases h.start with ⟨sl, hsl, hstart⟩
  have hheader : ∀ k vs, m.headers.lookup k = some vs → WellFormedHeader k vs := by
    intro k vs hl
    exact h.headers ⟨k, vs⟩ (AList.mem_lookup_iff.mp hl)
  have hfield : ∀ f ∈ m.fields, FieldOk (writtenName compact f.1) f ∧
      PlainName (writtenName compact f.1) := by
    intro f hf
    rcases (m.mem_fields f).mp hf with ⟨_, vs, hl, hv⟩
    exact fieldOk_of_wellFormedHeader compact f vs (hheader f.1 vs hl) hv
  exact ⟨sl,
    { startLine := hsl
      start := (unmarshalStartLine_text sl hstart).1
      startLF := (unmarshalStartLine_text sl hstart).2
      method := h.cseq.2
      fields := fun f hf => (hfield f hf).1
      plain := fun f hf => (hfield f (mem_of_mem_tail hf)).2
      values := fun k vs _ hl => (hheader k vs hl).2.1
      body := h.body }⟩

/-! ### A stream of messages -/

/-- The serialiser with compact or with full header names. -/
def serialise (compact : Bool) (m : SIPMessage) : Except MarshalFault Bytes :=
  if compact then m.marshalCompact else m.marshal

/-- `n` calls of `UnmarshalSIP` on one reader, up to the first that fails. -/
def unmarshalAll : Nat → Parse (List SIPMessage)
  | 0 => pure []
  | n + 1 => do
    let m ← unmarshalSIP
    let ms ← unmarshalAll n
    pure (m :: ms)

theorem validateRequiredHeaders_ok (hsl : m.startLine = some sl)
    (hreq : ∀ h ∈ [hVia, hFrom, hTo, hCallID], h ∈ m.headers) :
    m.validateRequiredHeaders = .ok () := by
  have hfind : [hVia, hFrom, hTo, hCallID].find? (fun h => (m.headers.lookup h).isNone) =
      none := by
    rw [find?_eq_none]
    intro k hk hnone
    have hsome := AList.lookup_isSome.mpr (hreq k hk)
    rw [isNone_iff_eq_none] at hnone
    rw [hnone] at hsome
    contradiction
  simp [SIPMessage.validateRequiredHeaders, hsl, hfind]

theorem serialise_eq (m : SIPMessage) (h : WellFormed m) (sl : StartLine)
    (hsl : m.startLine = some sl) : serialise compact m = .ok (m.wire sl compact) := by
  have hbytes := m.marshalBytes_eq sl
  have hvalid := validateRequiredHeaders_ok m sl hsl h.required
  cases compact with
  | true => simp only [serialise, if_true, SIPMessage.marshalCompact, hbytes true hsl h.cseq.1]
  | false => simp only [serialise, Bool.false_eq_true, if_false, SIPMessage.marshal, hvalid,
      hbytes false hsl h.cseq.1]

/-- The messages of a stream come back in order, whatever follows them. -/
theorem unmarshalAll_tokens (ms : List (Bool × SIPMessage)) (hwf : ∀ p ∈ ms, WellFormed p.2) :
    ∃ outs, List.Forall₂ (fun p out => serialise p.1 p.2 = .ok out) ms outs ∧
      ∀ (r : Reader) (c : Bool) (ts : List Token), At r c (outs.flatten.map .byte ++ ts) →
        ∃ ms' r', Parser.run (unmarshalAll ms.length) r = some (.ok ms', r') ∧
          List.Forall₂ (fun p m' => SameMessage p.2 m') ms ms' ∧ At r' c ts := by
  induction ms with
  | nil => exact ⟨[], .nil, fun r c ts hat => ⟨[], r, rfl, .nil, hat⟩⟩
  | cons p ms ih =>
    rcases ih (fun q hq => hwf q (mem_cons_of_mem p hq)) with ⟨outs, houts, hread⟩
    have hp := hwf p mem_cons_self
    rcases writable_of_wellFormed p.2 p.1 hp with ⟨sl, hw⟩
    refine ⟨p.2.wire sl p.1 :: outs, .cons (serialise_eq p.1 p.2 hp sl hw.startLine) houts, ?_⟩
    intro r c ts hat
    rw [flatten_cons, map_append, append_assoc] at hat
    rcases unmarshalSIPFrom_wire true p.2 sl p.1 hw hat with ⟨m', r₁, hrun, hsame, hat₁⟩
    rcases hread r₁ c ts hat₁ with ⟨ms', r₂, hrest, hsames, hat₂⟩
    refine ⟨m' :: ms', r₂, ?_, .cons hsame hsames, hat₂⟩
    rw [length_cons, unmarshalAll, unmarshalSIP, Parser.run_bind_ok _ hrun,
      Parser.run_bind_ok _ hrest]
    rfl

/-- Well-formed messages, each written with full or with compact header names,
    are read back from any reader that has their bytes and then `rest` to
    deliver, in whatever segments. Exactly `rest` is left. -/
theorem unmarshalAll_serialise (ms : List (Bool × SIPMessage)) (hwf : ∀ p ∈ ms, WellFormed p.2)
    (rest : Bytes) :
    ∃ outs, List.Forall₂ (fun p out => serialise p.1 p.2 = .ok out) ms outs ∧
      ∀ (r : Reader) (c : Bool), At r c ((outs.flatten ++ rest).map .byte) →
        ∃ ms' r', Parser.run (unmarshalAll ms.length) r = some (.ok ms', r') ∧
          List.Forall₂ (fun p m' => SameMessage p.2 m') ms ms' ∧ At r' c (rest.map .byte) := by
  rcases unmarshalAll_tokens ms hwf with ⟨outs, houts, hread⟩
  refine ⟨outs, houts, fun r c hat => ?_⟩
  rw [map_append] at hat
  exact hread r c (rest.map .byte) hat

/-- A request with two Via values and a body. -/
def twoHopInvite : SIPMessage where
  startLine := some (.request .INVITE (ascii "sip:bob@example.com") sipVersion)
  headers := [(hVia, ascii "SIP/2.0/TCP p.example.com;branch=z9hG4bK2"),
      (hVia, ascii "SIP/2.0/TCP a.example.com;branch=z9hG4bK1"), (hFrom, ascii "<sip:a>;tag=1"),
      (hTo, ascii "<sip:b>"), (hCallID, ascii "c1"), (ascii "Content-Type", ascii "text/plain")].foldl
    (fun h f => SIPHeaders.push h f.1 f.2) ∅
  cseq := { method := .INVITE, seq := 7 }
  body := ascii "hello"

/-- The request with full header names and a response to it with compact ones. -/
def twoMessages : List (Bool × SIPMessage) :=
  [(false, twoHopInvite), (true, newResponse twoHopInvite 200 (ascii "OK"))]

theorem twoMessages_wellFormed : ∀ p ∈ twoMessages, WellFormed p.2 := by
  intro p hp
  rw [twoMessages, mem_cons, mem_singleton] at hp
  rcases hp with rfl | rfl
  · refine ⟨⟨_, rfl, ?_⟩, by decide, by decide, by decide, by decide⟩
    exact ⟨by decide, by decide, by decide, by decide⟩
  · refine ⟨⟨_, rfl, ?_⟩, by decide, by decide, by decide, by decide⟩
    exact ⟨by decide, ascii "200", ascii "OK", by decide +kernel, by decide +kernel, by decide,
      by decide⟩

theorem unmarshalAll_serialise_twoMessages :
    ∃ outs ms' r', List.Forall₂ (fun p out => serialise p.1 p.2 = .ok out) twoMessages outs ∧
      Parser.run (unmarshalAll 2) (Reader.ofBytes (outs.flatten ++ ascii "INVITE")) =
        some (.ok ms', r') ∧
      List.Forall₂ (fun p m' => SameMessage p.2 m') twoMessages ms' ∧
      At r' true ((ascii "INVITE").map .byte) := by
  rcases unmarshalAll_serialise twoMessages twoMessages_wellFormed (ascii "INVITE") with
    ⟨outs, houts, hread⟩
  rcases hread _ true (at_ofBytes _) with ⟨ms', r', hrun, hsame, hat⟩
  exact ⟨outs, ms', r', houts, hrun, hsame, hat⟩

end Proto

end Trecs
