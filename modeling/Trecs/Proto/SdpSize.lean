import Trecs.Proto.SdpText

/-!
# The Size of a Session Description

How much room the writer needs and how much `MarshalSize` gives it. The two
differ by what `intLen` misses of the numbers, so that a description is written
exactly when none of its numbers is negative, and the writer panics otherwise.

A number of ports is written only above one and is never missed.

## Main definitions

* `textOf`: The text of some lines.
* `SDP.numbers`: The numbers that can be missed.
* `deficit`: What is missed of some numbers.

## Theorems

* `SDP.length_lines`: The length of the text.
* `SDP.marshal_of_nonneg`, `SDP.marshal_of_negative`: What `Marshal` does.
* `SDP.marshalTo_returns_size`: What `marshalTo` does.
-/

namespace Trecs

open List

namespace Proto

/-! ### Texts and numbers -/

/-- The text of some lines. -/
def textOf (ls : List SdpLine) : Bytes := writeText (ls.flatMap SdpLine.writes)

theorem textOf_append (ls ms : List SdpLine) : textOf (ls ++ ms) = textOf ls ++ textOf ms := by
  rw [textOf, flatMap_append, writeText_append]
  rfl

/-- The value of a line. -/
def SdpLine.val (l : SdpLine) : Bytes := writeText l.value

variable (n : Int64) (l : SdpLine) {α : Type} (line : α → SdpLine) (typ : UInt8)
  (md : MediaDescription)

theorem textOf_singleton : textOf [l] = l.typ :: 61 :: (l.val ++ crlf) := by
  rw [textOf, flatMap_singleton, SdpLine.writes, writeText_append, writeText_append]
  rfl

theorem textOf_cons (ls : List SdpLine) :
    textOf (l :: ls) = l.typ :: 61 :: (l.val ++ crlf) ++ textOf ls := by
  rw [← singleton_append, textOf_append, textOf_singleton]

theorem length_textOf_cons (ls : List SdpLine) :
    (textOf (l :: ls)).length = 4 + l.val.length + (textOf ls).length := by
  rw [textOf_cons, length_append, length_cons, length_cons, length_append]
  simp only [length_cons, length_nil]
  omega

/-- What `intLen` misses of a number. -/
def shortfall (n : Int64) : Nat := (formatInt n.toInt).length - intLen n.toInt

/-- What `MarshalSize` misses. -/
def deficit (ns : List Int64) : Nat := (ns.map shortfall).sum

theorem length_formatInt : (formatInt n.toInt).length = intLen n.toInt + shortfall n := by
  have hle : intLen n.toInt ≤ (formatInt n.toInt).length := by
    by_cases hn : 0 ≤ n.toInt
    · exact Nat.le_of_eq (intLen_of_nonneg _ hn)
    · rw [intLen_of_neg _ (by omega)]
      exact Nat.zero_le _
  unfold shortfall
  omega

theorem shortfall_eq_zero_iff : shortfall n = 0 ↔ 0 ≤ n.toInt := by
  unfold shortfall
  constructor
  · intro h
    by_contra hn
    have hpos : 0 < (formatInt n.toInt).length := by
      rw [formatInt, if_pos (by omega)]
      exact Nat.succ_pos _
    rw [intLen_of_neg _ (by omega)] at h
    omega
  · intro hn
    rw [intLen_of_nonneg _ hn, Nat.sub_self]

theorem deficit_eq_zero_iff (ns : List Int64) : deficit ns = 0 ↔ ∀ n ∈ ns, 0 ≤ n.toInt := by
  rw [deficit, List.sum_eq_zero_iff_forall_eq_nat]
  simp [shortfall_eq_zero_iff]

theorem deficit_append (ns ms : List Int64) : deficit (ns ++ ms) = deficit ns + deficit ms := by
  rw [deficit, map_append, sum_append]
  rfl

theorem deficit_cons (ns : List Int64) : deficit (n :: ns) = shortfall n + deficit ns := by
  rw [deficit, map_cons, sum_cons]
  rfl

/-- The lines of a list of items. -/
theorem length_textOf_flatMap (lines : α → List SdpLine) (size : α → Nat) (numbers : α → List Int64)
    (h : ∀ x, (textOf (lines x)).length = size x + deficit (numbers x)) (xs : List α) :
    (textOf (xs.flatMap lines)).length = (xs.map size).sum + deficit (xs.flatMap numbers) := by
  induction xs with
  | nil => rfl
  | cons x xs ih =>
    rw [flatMap_cons, textOf_append, length_append, h, ih, map_cons,
      sum_cons, flatMap_cons, deficit_append]
    omega

/-- The same for items of one line. -/
theorem length_textOf_map (size : α → Nat) (numbers : α → List Int64)
    (h : ∀ x, 4 + (line x).val.length = size x + deficit (numbers x)) (xs : List α) :
    (textOf (xs.map line)).length = (xs.map size).sum + deficit (xs.flatMap numbers) := by
  rw [map_eq_flatMap]
  refine length_textOf_flatMap _ size numbers (fun x => ?_) xs
  rw [length_textOf_cons, ← h]
  rfl

theorem flatMap_nil_numbers (xs : List α) : deficit (xs.flatMap (fun _ => [])) = 0 := by
  rw [flatMap_eq_nil_iff.mpr (fun _ _ => rfl)]
  rfl

/-! ### The lines of each kind -/

/-- The numbers of a repeat line. -/
def RepeatInfo.numbers (r : RepeatInfo) : List Int64 := r.interval :: r.duration :: r.offsets

/-- The numbers of a time line and its repeat lines. -/
def TimeDescription.numbers (td : TimeDescription) : List Int64 :=
  td.start :: td.stop :: td.repeats.flatMap RepeatInfo.numbers

/-- The port and the bandwidths of a media description. -/
def MediaDescription.numbers (md : MediaDescription) : List Int64 :=
  md.port :: md.bandwidths.flatMap (fun bw => [bw.value])

/-- The numbers of a description, apart from the numbers of ports. -/
def SDP.numbers (s : SDP) : List Int64 :=
  s.version :: (s.bandwidths.flatMap (fun bw => [bw.value]) ++
    s.times.flatMap TimeDescription.numbers ++ s.mediaDescs.flatMap MediaDescription.numbers)

theorem length_textLine (s : Bytes) : 4 + (textLine typ s).val.length = lineSize s := by
  rw [show (textLine typ s).val = s from append_nil s, lineSize]
  omega

theorem length_optionalLine (s : Bytes) :
    (textOf (optionalLine typ s)).length = optionalSize s := by
  unfold optionalLine optionalSize
  split
  · rw [length_textOf_cons, length_textLine]
    rfl
  · rfl

/-- The value of a line with a name and a value. -/
def pairText (name value : Bytes) : Bytes := name ++ (if value ≠ [] then 58 :: value else [])

theorem val_pairLine (name value : Bytes) :
    (pairLine typ name value).val = pairText name value := by
  unfold pairLine SdpLine.val pairText
  split
  · exact congrArg (fun v => name ++ 58 :: v) (append_nil value)
  · rfl

theorem length_pairLine (name value : Bytes) :
    4 + (pairLine typ name value).val.length = pairSize name value := by
  rw [val_pairLine, pairText, pairSize, length_append]
  split
  · rw [length_cons]
    omega
  · rw [length_nil]
    omega

theorem Origin.val_line (o : Origin) :
    o.line.val = o.username ++ SP :: (o.sessionID ++ SP :: (o.sessionVersion ++
      SP :: (o.networkType ++ SP :: (o.addressType ++ SP :: o.address)))) := by
  unfold Origin.line SdpLine.val writeText
  simp [Write.text]

theorem ConnectionInfo.val_line (c : ConnectionInfo) :
    c.line.val = c.networkType ++ SP :: (c.addressType ++ SP :: c.address) := by
  unfold ConnectionInfo.line SdpLine.val writeText
  simp [Write.text]

theorem ConnectionInfo.length_line (c : ConnectionInfo) : 4 + c.line.val.length = c.size := by
  rw [val_line, size]
  simp only [length_append, length_cons]
  omega

theorem BandwidthInfo.val_line (bw : BandwidthInfo) :
    bw.line.val = bw.type ++ 58 :: formatInt bw.value.toInt := by
  unfold BandwidthInfo.line SdpLine.val writeText
  simp [Write.text]

theorem BandwidthInfo.length_line (bw : BandwidthInfo) :
    4 + bw.line.val.length = bw.size + deficit [bw.value] := by
  rw [val_line, size, length_append, length_cons, length_formatInt, deficit_cons]
  change _ = _ + (_ + 0)
  omega

theorem RepeatInfo.val_line (r : RepeatInfo) :
    r.line.val = formatInt r.interval.toInt ++ SP :: (formatInt r.duration.toInt ++
      r.offsets.flatMap (fun o => SP :: formatInt o.toInt)) := by
  have hoffsets : writeText (r.offsets.flatMap (fun o => [.store SP, .appendInt o.toInt])) =
      r.offsets.flatMap (fun o => SP :: formatInt o.toInt) := by
    rw [writeText_flatMap]
    refine flatMap_congr (fun o _ => ?_)
    exact congrArg (SP :: ·) (append_nil _)
  unfold RepeatInfo.line SdpLine.val
  rw [writeText_append, hoffsets]
  simp [writeText, Write.text]

theorem RepeatInfo.length_line (r : RepeatInfo) :
    4 + r.line.val.length = r.size + deficit r.numbers := by
  have hoffsets : ∀ os : List Int64, (os.flatMap (fun o => SP :: formatInt o.toInt)).length =
      (os.map (fun o => 1 + intLen o.toInt)).sum + deficit os := by
    intro os
    induction os with
    | nil => rfl
    | cons o os ih =>
      rw [flatMap_cons, length_append, length_cons, ih, length_formatInt,
        map_cons, sum_cons, deficit_cons]
      omega
  rw [val_line, size, numbers, deficit_cons, deficit_cons]
  simp only [length_append, length_cons, length_formatInt, hoffsets]
  omega

theorem TimeDescription.length_lines (td : TimeDescription) :
    (textOf td.lines).length = td.size + deficit td.numbers := by
  have hval : (SdpLine.mk 116
      [.appendInt td.start.toInt, .store SP, .appendInt td.stop.toInt]).val =
      formatInt td.start.toInt ++ SP :: formatInt td.stop.toInt := by
    unfold SdpLine.val writeText
    simp [Write.text]
  rw [lines, length_textOf_cons, hval,
    length_textOf_map RepeatInfo.line RepeatInfo.size RepeatInfo.numbers RepeatInfo.length_line,
    size, numbers, deficit_cons, deficit_cons]
  simp only [length_append, length_cons, length_formatInt]
  omega

theorem writeText_fmtWrites (fs : List Bytes) : writeText (fmtWrites fs) = joinWith SP fs := by
  cases fs with
  | nil => rfl
  | cons f fs =>
    have hrest : writeText (fs.flatMap (fun f => [.store SP, .copy f])) =
        fs.flatMap (fun f => SP :: f) := by
      rw [writeText_flatMap]
      exact flatMap_congr (fun g _ => congrArg (SP :: ·) (append_nil g))
    exact congrArg (f ++ ·) hrest

theorem length_joinWith (fs : List Bytes) : (joinWith SP fs).length = joinLen fs := by
  cases fs with
  | nil => rfl
  | cons f fs =>
    have hrest : (fs.flatMap (fun f => SP :: f)).length =
        fs.length + (fs.map List.length).sum := by
      induction fs with
      | nil => rfl
      | cons g gs ih =>
        rw [flatMap_cons, length_append, ih, length_cons, map_cons,
          sum_cons, length_cons]
        omega
    rw [joinWith, joinLen, if_neg (cons_ne_nil _ _), length_append, hrest,
      map_cons, sum_cons, length_cons]
    omega

/-- The port, with the number of ports if there is more than one. -/
def MediaDescription.portText (md : MediaDescription) : Bytes :=
  formatInt md.port.toInt ++
    (if 1 < md.portCount.toInt then 47 :: formatInt md.portCount.toInt else [])

theorem MediaDescription.val_line : md.line.val =
      md.type ++ SP :: (md.portText ++ SP :: (md.proto ++ SP :: joinWith SP md.fmt)) := by
  unfold MediaDescription.line SdpLine.val MediaDescription.portText
  rw [writeText_append, writeText_append, writeText_append, writeText_fmtWrites]
  split
  · simp [writeText, Write.text]
  · simp [writeText, Write.text]

/-- Only a port can be missed: a number of ports that is written is positive. -/
theorem MediaDescription.length_portText : md.portText.length = intLen md.port.toInt +
      (if 1 < md.portCount.toInt then 1 + intLen md.portCount.toInt else 0) +
        shortfall md.port := by
  rw [portText, length_append, length_formatInt]
  split
  · rename_i hcount
    rw [length_cons, ← intLen_of_nonneg _ (by omega)]
    omega
  · rw [length_nil]
    omega

theorem length_toList (size : α → Nat) (h : ∀ x, 4 + (line x).val.length = size x) (o : Option α) :
    (textOf (o.map line).toList).length = (o.map size).getD 0 := by
  cases o with
  | none => rfl
  | some x =>
    rw [Option.map_some, Option.toList_some, length_textOf_cons, h]
    rfl

theorem MediaDescription.length_lines :
    (textOf md.lines).length = md.size + deficit md.numbers := by
  have hline : md.line.val.length = md.type.length + 1 + (intLen md.port.toInt +
      (if 1 < md.portCount.toInt then 1 + intLen md.portCount.toInt else 0) +
        shortfall md.port) + 1 + md.proto.length + 1 + joinLen md.fmt := by
    rw [val_line]
    simp only [length_append, length_cons, length_portText, length_joinWith]
    omega
  rw [lines, length_textOf_cons, hline]
  simp only [textOf_append, length_append, length_optionalLine]
  rw [length_toList _ _ ConnectionInfo.length_line,
    length_textOf_map BandwidthInfo.line BandwidthInfo.size _ BandwidthInfo.length_line,
    length_toList EncryptionKey.line _ (fun k => length_pairLine 107 k.method k.key),
    length_textOf_map Attribute.line (fun a => pairSize a.key a.value) (fun _ => [])
      (fun a => length_pairLine 97 a.key a.value),
    flatMap_nil_numbers, size, numbers, deficit_cons]
  omega

/-- The writer needs as much more than `MarshalSize` as `intLen` misses. -/
theorem SDP.length_lines (s : SDP) :
    (textOf s.lines).length = s.marshalSize + deficit s.numbers := by
  have hversion : (SdpLine.mk 118 [.appendInt s.version.toInt]).val = formatInt s.version.toInt :=
    append_nil _
  rw [lines, length_textOf_cons, length_textOf_cons, length_textOf_cons, hversion]
  simp only [textOf_append, length_append, length_optionalLine]
  rw [length_textOf_map (textLine 101) lineSize (fun _ => []) (length_textLine 101),
    length_textOf_map (textLine 112) lineSize (fun _ => []) (length_textLine 112),
    length_toList _ _ ConnectionInfo.length_line,
    length_textOf_map BandwidthInfo.line BandwidthInfo.size _ BandwidthInfo.length_line,
    length_textOf_flatMap _ _ _ TimeDescription.length_lines,
    length_toList EncryptionKey.line _ (fun k => length_pairLine 107 k.method k.key),
    length_textOf_map Attribute.line (fun a => pairSize a.key a.value) (fun _ => [])
      (fun a => length_pairLine 97 a.key a.value),
    length_textOf_flatMap _ _ _ MediaDescription.length_lines]
  simp only [flatMap_nil_numbers]
  have hname := length_textLine 115 s.sessionName
  rw [marshalSize, numbers, deficit_cons, deficit_append, deficit_append, length_formatInt,
    Origin.val_line]
  simp only [length_append, length_cons]
  omega

/-- Without negative numbers the text takes all of the room. -/
theorem SDP.writeAll_of_nonneg (s : SDP) (hn : ∀ n ∈ s.numbers, 0 ≤ n.toInt) :
    writeAll s.writes ⟨[], s.marshalSize⟩ = some ⟨textOf s.lines, 0⟩ ∧
      (textOf s.lines).length = s.marshalSize := by
  have hlen := s.length_lines
  rw [(deficit_eq_zero_iff _).mpr hn, Nat.add_zero] at hlen
  have hroom : (writeText s.writes).length ≤ s.marshalSize := Nat.le_of_eq hlen
  refine ⟨?_, hlen⟩
  rw [writeAll_of_le s.writes ⟨[], s.marshalSize⟩ hroom]
  change some (Cursor.mk (textOf s.lines) (s.marshalSize - (textOf s.lines).length)) = _
  rw [hlen, Nat.sub_self]

/-- A description without negative numbers is written. -/
theorem SDP.marshal_of_nonneg (s : SDP) (hn : ∀ n ∈ s.numbers, 0 ≤ n.toInt) :
    s.marshal = some (textOf s.lines) := by
  rw [marshal, (s.writeAll_of_nonneg hn).1]
  exact congrArg some (append_nil _)

/-- With integer fields that are not negative, `marshalTo` stays inside a buffer of
    `MarshalSize` bytes and returns `MarshalSize`. -/
theorem SDP.marshalTo_returns_size (s : SDP) (hn : ∀ n ∈ s.numbers, 0 ≤ n.toInt) :
    ∃ c, writeAll s.writes ⟨[], s.marshalSize⟩ = some c ∧ c.written.length = s.marshalSize :=
  ⟨_, s.writeAll_of_nonneg hn⟩

/-- A description with a time, a repeat and a media section. -/
theorem SDP.marshalTo_returns_size_repeated :
    let s : SDP := { zero with
      times := [⟨[⟨[0, 90000], 604800, 3600⟩], 3034423619, 0⟩]
      mediaDescs := [⟨none, none, ascii "audio", ascii "RTP/AVP", [], [ascii "0"],
        [⟨ascii "AS", 64⟩], [], 49170, 2⟩] }
    ∃ c, writeAll s.writes ⟨[], s.marshalSize⟩ = some c ∧ c.written.length = s.marshalSize :=
  marshalTo_returns_size _ ((deficit_eq_zero_iff _).mp (by decide +kernel))

/-- With a negative number the store of the last line end panics. -/
theorem SDP.marshal_of_negative (s : SDP) (hn : ¬ ∀ n ∈ s.numbers, 0 ≤ n.toInt) :
    s.marshal = none := by
  have hlen := s.length_lines
  rw [← deficit_eq_zero_iff] at hn
  obtain ⟨ls, l, hls⟩ : ∃ ls l, s.lines = ls ++ [l] := by
    rcases eq_nil_or_concat s.lines with hnil | ⟨ls, l, hls⟩
    · exact absurd hnil (cons_ne_nil _ _)
    · exact ⟨ls, l, hls.trans (concat_eq_append)⟩
  have hend : s.writes = ls.flatMap SdpLine.writes ++ ([.store2 l.typ 61] ++ l.value) ++
      [.store2 CR LF] := by
    simp [writes, hls, SdpLine.writes]
  have hroom : s.marshalSize < (writeText s.writes).length := by
    change _ < (textOf s.lines).length
    omega
  rw [hend] at hroom
  rw [marshal, hend, writeAll_store_of_lt _ CR LF _ hroom]
  rfl

end Proto

end Trecs
