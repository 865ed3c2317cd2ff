import Mathlib.Data.List.Sort
import Mathlib.Algebra.BigOperators.Group.List.Basic
import Trecs.Lib.Cursor
import Trecs.Proto.Sip

/-!
# Writing SIP Messages

The serialiser of `proto/sip.go`. A message is written into a buffer whose size
was computed beforehand: the start line, every header but CSeq and
Content-Length in the order of their names, these two from the message itself,
an empty line and the body.

`marshalSize` counts the digits of the sequence number with a loop that runs
while the number is positive, so it counts none for a negative one. For the
others the size is exact and the buffer holds the whole text.

## Main definitions

* `marshalSize`: The size of the buffer.
* `marshalWrites`: The writes of `marshalToImpl`.
* `marshal`, `marshalCompact`: The two entry points.
* `wire`: The text of a message.

## Theorems

* `marshalSize_eq`: The size of the buffer is the length of the text.
* `marshalBytes_eq`: What is written into it is the text.
-/

namespace Trecs

open List Option

namespace Proto

/-- The number of decimal digits, by dividing while the number is positive. -/
def intLen (n : Int) : Nat := if n = 0 then 1 else (Nat.digits 10 n.toNat).length

/-- The ways serialising fails. -/
inductive MarshalFault where
  | missingRequiredHeader (name : Option Bytes)
  | panic
deriving Repr, DecidableEq

/-- The name a header is written under. -/
def writtenName (compact : Bool) (k : Bytes) : Bytes := if compact then compactKey k else k

/-- The headers that are taken from the map. -/
def fromMap (k : Bytes) : Bool := k ≠ hCSeq && k ≠ hContentLength

/-- The writes for one header line. -/
def fieldWrites (compact : Bool) (f : Bytes × Bytes) : List Write :=
  [.copy (writtenName compact f.1), .store2 58 SP, .copy f.2, .store2 CR LF]

/-- The writes for a start line without its line end. -/
def startLineWrites : StartLine → List Write
  | .request method uri version =>
    [.copy method.text, .store SP, .copy uri, .store SP, .copy version]
  | .response version status _ => [.copy version, .store SP, .copy status]

namespace SIPMessage

/-- The number of bytes for `compact` or full header names. -/
def marshalSize (m : SIPMessage) (compact : Bool) : Nat :=
  match m.startLine with
  | none => 0
  | some sl =>
    sl.text.length + 2
      + ((m.headers.entries.filter (fun e => fromMap e.1)).map (fun e =>
          (e.2.map (fun v => (writtenName compact e.1).length + 2 + v.length + 2)).sum)).sum
      + (6 + intLen m.cseq.seq.toInt + 1 + m.cseq.method.text.length + 2)
      + ((writtenName compact hContentLength).length + 2 + intLen m.body.length + 2)
      + (2 + m.body.length)

/-- The header names that are written, sorted. -/
def headerKeys (m : SIPMessage) : List Bytes :=
  (m.headers.keys.filter fromMap).insertionSort (· ≤ ·)

/-- The header lines that are written: for each name its values. -/
def fields (m : SIPMessage) : List (Bytes × Bytes) :=
  m.headerKeys.flatMap (fun k => ((m.headers.lookup k).getD []).map (fun v => (k, v)))

/-- The writes of `marshalToImpl` up to the empty line. -/
def headWrites (m : SIPMessage) (sl : StartLine) (compact : Bool) : List Write :=
  startLineWrites sl ++ [.store2 CR LF]
    ++ m.fields.flatMap (fieldWrites compact)
    ++ [.copy (ascii "CSeq: "), .appendInt m.cseq.seq.toInt, .store SP,
      .copy m.cseq.method.text, .store2 CR LF]
    ++ [.copy (writtenName compact hContentLength), .store2 58 SP,
      .appendInt m.body.length, .store2 CR LF]

/-- The writes of `marshalToImpl`. -/
def marshalWrites (m : SIPMessage) (compact : Bool) : List Write :=
  match m.startLine with
  | none => []
  | some sl => m.headWrites sl compact ++ [.store2 CR LF] ++ [.copy m.body]

/-- A new buffer of `marshalSize` after `marshalToImpl`. `none` is a panic. -/
def marshalBytes (m : SIPMessage) (compact : Bool) : Option Bytes :=
  (writeAll (m.marshalWrites compact) ⟨[], m.marshalSize compact⟩).map
    (fun c => c.written ++ List.replicate c.room 0)

/-- The required headers. -/
def validateRequiredHeaders (m : SIPMessage) : Except MarshalFault Unit :=
  match m.startLine with
  | none => .error (.missingRequiredHeader none)
  | some _ =>
    match [hVia, hFrom, hTo, hCallID].find? (fun h => (m.headers.lookup h).isNone) with
    | some h => .error (.missingRequiredHeader (some h))
    | none => .ok ()

/-- The bytes of a message with full header names. -/
def marshal (m : SIPMessage) : Except MarshalFault Bytes :=
  match m.validateRequiredHeaders with
  | .error e => .error e
  | .ok _ =>
    match m.marshalBytes false with
    | some out => .ok out
    | none => .error .panic

/-- The bytes of a message with compact header names. The required headers are
    not checked. -/
def marshalCompact (m : SIPMessage) : Except MarshalFault Bytes :=
  match m.marshalBytes true with
  | some out => .ok out
  | none => .error .panic

/-! ### The text -/

/-- The value CSeq is written with. -/
def cseqValue (m : SIPMessage) : Bytes :=
  formatInt m.cseq.seq.toInt ++ [SP] ++ m.cseq.method.text

/-- All header lines of the text. -/
def allFields (m : SIPMessage) : List (Bytes × Bytes) :=
  m.fields ++ [(hCSeq, m.cseqValue), (hContentLength, formatNat m.body.length)]

end SIPMessage

/-- A header line. -/
def fieldLine (compact : Bool) (f : Bytes × Bytes) : Bytes :=
  writtenName compact f.1 ++ [58, SP] ++ f.2 ++ crlf

namespace SIPMessage

/-- The text of a message up to the body. -/
def wireHead (m : SIPMessage) (sl : StartLine) (compact : Bool) : Bytes :=
  sl.text ++ crlf ++ m.allFields.flatMap (fieldLine compact) ++ crlf

/-- The text of a message. -/
def wire (m : SIPMessage) (sl : StartLine) (compact : Bool) : Bytes :=
  m.wireHead sl compact ++ m.body

end SIPMessage

theorem writeText_startLineWrites (sl : StartLine) : writeText (startLineWrites sl) = sl.text := by
  cases sl <;> simp only [startLineWrites, writeText, StartLine.text, flatMap_cons,
    flatMap_nil, Write.text, append_nil, append_assoc]

theorem writeText_fieldWrites (compact : Bool) (f : Bytes × Bytes) :
    writeText (fieldWrites compact f) = fieldLine compact f := by
  simp [fieldWrites, writeText, fieldLine, Write.text]

theorem writeText_fields (compact : Bool) (fs : List (Bytes × Bytes)) :
    writeText (fs.flatMap (fieldWrites compact)) = fs.flatMap (fieldLine compact) := by
  induction fs with
  | nil => rfl
  | cons f fs ih =>
    rw [flatMap_cons, flatMap_cons, writeText_append, writeText_fieldWrites, ih]

/-- CSeq has no compact form. -/
theorem writtenName_hCSeq (compact : Bool) : writtenName compact hCSeq = hCSeq := by
  cases compact <;> decide

theorem formatInt_natCast (n : Nat) : formatInt (n : Int) = formatNat n := by
  unfold formatInt
  rw [if_neg (by omega), Int.natAbs_natCast]

namespace SIPMessage

theorem writeText_headWrites (m : SIPMessage) (sl : StartLine) (compact : Bool) :
    writeText (m.headWrites sl compact ++ [.store2 CR LF]) = m.wireHead sl compact := by
  have hname : ascii "CSeq: " = hCSeq ++ [58, SP] := by decide
  simp only [headWrites, wireHead, allFields, cseqValue, writeText_append, writeText_fields,
    writeText_startLineWrites, flatMap_append, flatMap_cons, flatMap_nil, fieldLine,
    writtenName_hCSeq, append_nil, append_assoc]
  simp [writeText, Write.text, hname, formatInt_natCast]

theorem writeText_marshalWrites (m : SIPMessage) (sl : StartLine) (compact : Bool)
    (h : m.startLine = some sl) : writeText (m.marshalWrites compact) = m.wire sl compact := by
  unfold marshalWrites wire
  rw [h]
  simp only []
  rw [writeText_append, writeText_headWrites]
  simp

/-! ### The size -/

theorem length_fields (m : SIPMessage) (compact : Bool) :
    (m.fields.flatMap (fieldLine compact)).length =
      ((m.headers.entries.filter (fun e => fromMap e.1)).map (fun e =>
        (e.2.map (fun v => (writtenName compact e.1).length + 2 + v.length + 2)).sum)).sum := by
  have hline : ∀ f : Bytes × Bytes,
      (fieldLine compact f).length = (writtenName compact f.1).length + 2 + f.2.length + 2 := by
    intro f
    simp only [fieldLine, length_append, length_cons, length_nil]
  -- The sum over the sorted names is the sum over the entries in their own order.
  have hkeys : m.headers.keys.filter fromMap =
      (m.headers.entries.filter (fun e => fromMap e.1)).map Sigma.fst := by
    rw [AList.keys, List.keys, List.filter_map]
    rfl
  have hperm : List.Perm m.headerKeys
      ((m.headers.entries.filter (fun e => fromMap e.1)).map Sigma.fst) := by
    rw [← hkeys]
    exact perm_insertionSort _ _
  rw [fields, flatMap_assoc, length_flatMap, (hperm.map _).sum_eq, List.map_map]
  congr 1
  apply map_congr_left
  intro e he
  have hlookup : m.headers.lookup e.1 = some e.2 :=
    AList.mem_lookup_iff.mpr (mem_of_mem_filter he)
  simp only [Function.comp_apply, hlookup, getD_some, length_flatMap, List.map_map]
  congr 1
  apply map_congr_left
  intro v _
  exact hline (e.1, v)

end SIPMessage

theorem intLen_of_nonneg (n : Int) (h : 0 ≤ n) : intLen n = (formatInt n).length := by
  rcases Int.eq_ofNat_of_zero_le h with ⟨k, rfl⟩
  rw [formatInt_natCast]
  unfold intLen formatNat
  by_cases hk : k = 0
  · rw [if_pos (by omega), if_pos hk]
    rfl
  · rw [if_neg (by omega), if_neg hk, length_map, length_reverse]
    rfl

theorem intLen_of_neg (n : Int) (h : n < 0) : intLen n = 0 := by
  unfold intLen
  rw [if_neg (by omega), Int.toNat_of_nonpos (by omega), Nat.digits_zero]
  rfl

namespace SIPMessage

variable (m : SIPMessage) (sl : StartLine) (compact : Bool)

/-- The size falls short of the text by the digits that were not counted. -/
theorem marshalSize_add (h : m.startLine = some sl) :
    m.marshalSize compact + (formatInt m.cseq.seq.toInt).length =
      (m.wire sl compact).length + intLen m.cseq.seq.toInt := by
  have hcl : intLen (m.body.length : Int) = (formatNat m.body.length).length := by
    rw [intLen_of_nonneg _ (by omega), formatInt_natCast]
  have hname : hCSeq.length = 4 := by decide
  unfold marshalSize
  rw [h]
  simp only []
  rw [← length_fields, hcl]
  simp only [wire, wireHead, allFields, cseqValue, fieldLine, writtenName_hCSeq,
    flatMap_append, flatMap_cons, flatMap_nil, length_append, length_cons,
    length_nil, hname]
  omega

theorem marshalSize_eq (h : m.startLine = some sl) (hseq : 0 ≤ m.cseq.seq.toInt) :
    m.marshalSize compact = (m.wire sl compact).length := by
  have hadd := marshalSize_add m sl compact h
  rw [intLen_of_nonneg _ hseq] at hadd
  omega

theorem writeAll_marshalWrites (h : m.startLine = some sl) (hseq : 0 ≤ m.cseq.seq.toInt) :
    writeAll (m.marshalWrites compact) ⟨[], m.marshalSize compact⟩ =
      some ⟨m.wire sl compact, 0⟩ := by
  have hlen : (writeText (m.marshalWrites compact)).length = m.marshalSize compact := by
    rw [writeText_marshalWrites m sl compact h, marshalSize_eq m sl compact h hseq]
  rw [writeAll_of_le _ _ (Nat.le_of_eq hlen), writeText_marshalWrites m sl compact h,
    marshalSize_eq m sl compact h hseq]
  simp

theorem marshalBytes_eq (h : m.startLine = some sl) (hseq : 0 ≤ m.cseq.seq.toInt) :
    m.marshalBytes compact = some (m.wire sl compact) := by
  rw [marshalBytes, writeAll_marshalWrites m sl compact h hseq]
  exact congrArg some (append_nil _)

/-- With a negative sequence number the buffer is too small. Either the store
    of the empty line panics or the end of the body is lost. -/
theorem marshalBytes_of_neg (h : m.startLine = some sl) (hseq : m.cseq.seq.toInt < 0) :
    m.marshalBytes compact = none ∨
      ∃ n, n < m.body.length ∧
        m.marshalBytes compact = some (m.wireHead sl compact ++ m.body.take n) := by
  have hadd := marshalSize_add m sl compact h
  have hdigits : 0 < (formatInt m.cseq.seq.toInt).length := by
    rw [formatInt, if_pos hseq, length_cons]
    omega
  have hwire : (m.wire sl compact).length = (m.wireHead sl compact).length + m.body.length :=
    length_append
  rw [intLen_of_neg _ hseq] at hadd
  unfold marshalBytes marshalWrites
  rw [h]
  simp only []
  by_cases hfit : (m.wireHead sl compact).length ≤ m.marshalSize compact
  · right
    refine ⟨m.marshalSize compact - (m.wireHead sl compact).length, by omega, ?_⟩
    have hroom : m.marshalSize compact - (m.wireHead sl compact).length - m.body.length = 0 := by
      omega
    rw [writeAll_copy_of_lt _ _ _ (by rw [writeText_headWrites]; exact hfit), writeText_headWrites]
    simp [hroom]
  · left
    have hlt : m.marshalSize compact < (m.wireHead sl compact).length := by omega
    rw [writeAll_append, writeAll_store_of_lt _ _ _ _ (by rw [writeText_headWrites]; exact hlt)]
    rfl

/-- `marshalToImpl` stays inside a buffer of `marshalSize` bytes and fills it with
    the whole text. -/
def FitsBuffer (m : SIPMessage) (compact : Bool) : Prop :=
  ∃ sl, m.startLine = some sl ∧ writeAll (m.marshalWrites compact) ⟨[], m.marshalSize compact⟩ =
    some ⟨m.wire sl compact, 0⟩

theorem fitsBuffer_iff (h : m.startLine = some sl) :
    m.FitsBuffer compact ↔ 0 ≤ m.cseq.seq.toInt := by
  refine ⟨fun ⟨sl', hsl, hfits⟩ => ?_, fun hseq => ⟨sl, h, m.writeAll_marshalWrites sl compact h hseq⟩⟩
  by_contra hneg
  have hall : m.marshalBytes compact = some (m.wireHead sl' compact ++ m.body) := by
    rw [marshalBytes, hfits]
    exact congrArg some (append_nil _)
  rcases m.marshalBytes_of_neg sl' compact hsl (by omega) with hnone | ⟨n, hn, hsome⟩
  · rw [hnone] at hall
    contradiction
  · rw [hsome, some.injEq, append_cancel_left_eq] at hall
    have hl := congrArg List.length hall
    rw [length_take] at hl
    omega

end SIPMessage

end Proto

end Trecs
