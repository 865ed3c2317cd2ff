import Trecs.Lib.Slice
import Trecs.Proto.Rtp

/-!
# RTP Decoding into a Used Packet

`UnmarshalRTPTo` of `proto/rtp.go`: the decoder as the media path calls it, with
a packet from a pool. It takes the slices of the packet as far as their arrays
reach and walks over the input with an index.

Every index and every bound of a slice is checked here against the input, and
one that is out of range is a panic, as is a loop that would go on for more
turns than the input has bytes. `unmarshalRTPTo_eq` says that this decoder gives
what `unmarshalRTP` says for the same bytes. So the one place where it goes
outside the input is the loop over the contributing sources.

## Main definitions

* `RTPBuffer`: A packet with the room behind its slices.
* `unmarshalOneByteExtensionsTo`, `unmarshalTwoByteExtensionsTo`,
  `unmarshalExtensionsTo`: The elements of an extension block.
* `unmarshalRTPTo`: The decoder.
* `SourcesFit`: The contributing sources end inside the input.

## Theorems

* `unmarshalRTPTo_eq`, `unmarshalRTPTo_unobservable`: What was in the packet before
  does not show.
* `unmarshalRTP_in_range_iff`: When the decoder stays inside its input.
-/

namespace Trecs

open List Option

namespace Proto

/-- A packet as it is reused: the Go struct `RTPPacket` with the arrays behind
    its slices. -/
structure RTPBuffer where
  payload : Slice UInt8
  csrc : Slice UInt32
  extensions : Slice RTPExtension
  timestamp : UInt32
  ssrc : UInt32
  sequenceNumber : UInt16
  extensionProfile : UInt16
  version : UInt8
  padding : Bool
  marker : Bool
  payloadType : UInt8
  extension : Bool
  paddingSize : UInt8
deriving Repr, DecidableEq

/-- The packet in a buffer. -/
def RTPBuffer.packet (p : RTPBuffer) : RTPPacket :=
  ⟨p.payload.items, ⟨p.csrc.items, p.extensions.items, p.timestamp, p.ssrc, p.sequenceNumber,
    p.extensionProfile, p.version, p.padding, p.marker, p.payloadType, p.extension,
    p.paddingSize⟩⟩

/-! ### The decoder -/

/-- The loop of `unmarshalOneByteExtensionsTo` at index `i`. -/
def unmarshalOneByteExtensionsTo (data : Bytes) : Nat → Nat → Slice RTPExtension →
    Except Fault (Slice RTPExtension)
  | 0, _, _ => .error .panic
  | fuel + 1, i, exts =>
    if data.length ≤ i then .ok exts
    else do
      let b ← orFail .panic data[i]?
      if b = 0 then unmarshalOneByteExtensionsTo data fuel (i + 1) exts
      else
        let id := b >>> 4
        if id = 0x0F then .ok exts
        else
          let payloadLen := (b &&& 0x0F).toNat + 1
          if data.length < i + 1 + payloadLen then
            unmarshalErrorf (ascii "rtp: one-byte extension truncated")
          else do
            let payload ← orFail .panic (slice data (i + 1) (i + 1 + payloadLen))
            unmarshalOneByteExtensionsTo data fuel (i + 1 + payloadLen)
              (exts.append ⟨payload, id⟩)

/-- The loop of `unmarshalTwoByteExtensionsTo` at index `i`. -/
def unmarshalTwoByteExtensionsTo (data : Bytes) : Nat → Nat → Slice RTPExtension →
    Except Fault (Slice RTPExtension)
  | 0, _, _ => .error .panic
  | fuel + 1, i, exts =>
    if data.length ≤ i then .ok exts
    else do
      let id ← orFail .panic data[i]?
      if id = 0 then unmarshalTwoByteExtensionsTo data fuel (i + 1) exts
      else if data.length ≤ i + 1 then
        unmarshalErrorf (ascii "rtp: two-byte extension truncated at length")
      else do
        let len ← orFail .panic data[i + 1]?
        if data.length < i + 2 + len.toNat then
          unmarshalErrorf (ascii "rtp: two-byte extension truncated")
        else do
          let payload ← orFail .panic (slice data (i + 2) (i + 2 + len.toNat))
          unmarshalTwoByteExtensionsTo data fuel (i + 2 + len.toNat) (exts.append ⟨payload, id⟩)

/-- `unmarshalExtensionsTo`. -/
def unmarshalExtensionsTo (profile : UInt16) (data : Bytes) (exts : Slice RTPExtension) :
    Except Fault (Slice RTPExtension) := do
  let exts ← orFail .panic (exts.upTo 0)
  if profile = extensionProfileOneByte then
    unmarshalOneByteExtensionsTo data (data.length + 1) 0 exts
  else if profile = extensionProfileTwoByte then
    unmarshalTwoByteExtensionsTo data (data.length + 1) 0 exts
  else if data.length = 0 then .ok exts
  else .ok (exts.append ⟨data, 0⟩)

/-- The part of `UnmarshalRTPTo` for an extension at `n`, if there is one. -/
def unmarshalExtensionBlockTo (hasExtension : Bool) (data : Bytes) (n : Nat)
    (exts : Slice RTPExtension) : Except Fault (Nat × UInt16 × Slice RTPExtension) :=
  if hasExtension then
    if data.length < n + 4 then
      unmarshalErrorf (ascii "rtp: header too short for extension header")
    else do
      let profile ← orFail .panic ((sliceFrom data n).bind readUint16)
      let words ← orFail .panic ((sliceFrom data (n + 2)).bind readUint16)
      let extLen := words.toNat * 4
      if data.length < n + 4 + extLen then
        unmarshalErrorf (ascii "rtp: header too short for extension data")
      else do
        let block ← orFail .panic (slice data (n + 4) (n + 4 + extLen))
        let old ← orFail .panic (exts.upTo 0)
        let exts ← unmarshalExtensionsTo profile block old
        pure (n + 4 + extLen, profile, exts)
  else do
    let exts ← orFail .panic (exts.upTo 0)
    pure (n, 0, exts)

/-- The part of `UnmarshalRTPTo` for the padding. -/
def unmarshalPaddingTo (padding : Bool) (data : Bytes) (n : Nat) : Except Fault (Nat × UInt8) :=
  if padding then
    if data.length ≤ n then
      unmarshalErrorf (ascii "rtp: padding flag set but no room for pad byte")
    else do
      let paddingSize ← orFail .panic data[data.length - 1]?
      if paddingSize = 0 then unmarshalErrorf (ascii "rtp: invalid padding size 0")
      else if data.length - n < paddingSize.toNat then
        unmarshalErrorf (ascii "rtp: padding size " ++ formatNat paddingSize.toNat ++
          ascii " exceeds payload length " ++ formatNat (data.length - n))
      else .ok (data.length - paddingSize.toNat, paddingSize)
  else .ok (data.length, 0)

/-- The contributing sources, read without a look at the length of the input. -/
def unmarshalSourcesTo (data : Bytes) (cc : Nat) (csrc : Slice UInt32) : Option (Slice UInt32) :=
  if 0 < cc then
    (csrc.resize 0 cc).bind (fun s =>
      s.fill cc (fun i => (sliceFrom data (12 + i * 4)).bind readUint32))
  else csrc.upTo 0

/-- The payload from `n` to `fin`. -/
def unmarshalPayloadTo (data : Bytes) (n fin : Nat) (payload : Slice UInt8) :
    Option (Slice UInt8) :=
  (payload.resize 0 (fin - n)).bind (fun s => (slice data n fin).map s.copy)

/-- What `UnmarshalRTPTo` does behind the contributing sources. -/
def unmarshalVariablePartTo (hasExtension : Bool) (data : Bytes) (n : Nat) (pkt : RTPBuffer) :
    Except Fault RTPBuffer := do
  let (n, profile, exts) ← unmarshalExtensionBlockTo hasExtension data n pkt.extensions
  let (fin, paddingSize) ← unmarshalPaddingTo pkt.padding data n
  let payload ← orFail .panic (unmarshalPayloadTo data n fin pkt.payload)
  pure { pkt with
    payload := payload
    extensions := exts
    extensionProfile := profile
    extension := hasExtension
    paddingSize := paddingSize }

/-- `UnmarshalRTPTo`: the packet after a call that succeeds. -/
def unmarshalRTPTo (data : Bytes) (pkt : RTPBuffer) : Except Fault RTPBuffer :=
  if data.length < 12 then
    unmarshalErrorf (ascii "rtp: packet too short: " ++ formatNat data.length ++ ascii " < 12")
  else do
    let b0 : UInt8 ← orFail .panic data[0]?
    let version := b0 >>> 6 &&& 0x03
    if version ≠ 2 then
      unmarshalErrorf (ascii "rtp: unsupported version " ++ formatNat version.toNat)
    else do
      let hasExtension := decide ((b0 >>> 4) &&& 0x01 ≠ 0)
      let cc := (b0 &&& 0x0F).toNat
      let b1 : UInt8 ← orFail .panic data[1]?
      let sequenceNumber ← orFail .panic ((slice data 2 4).bind readUint16)
      let timestamp ← orFail .panic ((slice data 4 8).bind readUint32)
      let ssrc ← orFail .panic ((slice data 8 12).bind readUint32)
      let csrc ← orFail .panic (unmarshalSourcesTo data cc pkt.csrc)
      unmarshalVariablePartTo hasExtension data (12 + cc * 4) { pkt with
        csrc := csrc
        timestamp := timestamp
        ssrc := ssrc
        sequenceNumber := sequenceNumber
        version := version
        padding := decide ((b0 >>> 5) &&& 0x01 ≠ 0)
        marker := decide ((b1 >>> 7) &&& 0x01 ≠ 0)
        payloadType := b1 &&& 0x7F }

/-! ### What the decoder gives -/

variable (padding : Bool) (profile : UInt16) (hasExtension : Bool) (data : Bytes) (n : Nat)
  (exts : Slice RTPExtension)

theorem unmarshalOneByteExtensionsTo_eq (fuel i : Nat) (exts : Slice RTPExtension)
    (h : data.length - i ≤ fuel) :
    (unmarshalOneByteExtensionsTo data (fuel + 1) i exts).map Slice.items =
      unmarshalOneByteExtensions fuel (data.drop i) exts.items := by
  induction fuel generalizing i exts with
  | zero =>
    have hi : data.length ≤ i := by omega
    rw [unmarshalOneByteExtensionsTo, if_pos hi, drop_of_length_le hi]
    rfl
  | succ fuel ih =>
    rw [unmarshalOneByteExtensionsTo]
    by_cases hi : data.length ≤ i
    · rw [if_pos hi, drop_of_length_le hi]
      rfl
    · have hlt : i < data.length := by omega
      rw [if_neg hi, drop_eq_getElem_cons hlt, unmarshalOneByteExtensions,
        getElem?_eq_getElem hlt, orFail_some_bind]
      by_cases hb : data[i] = 0
      · rw [if_pos hb, if_pos hb, ih (i + 1) exts (by omega)]
      · rw [if_neg hb, if_neg hb]
        by_cases hid : data[i] >>> 4 = 0x0F
        · simp only [if_pos hid]
          rfl
        · simp only [if_neg hid, length_drop]
          by_cases hlen : data.length < i + 1 + ((data[i] &&& 0x0F).toNat + 1)
          · rw [if_pos hlen, if_pos (by omega)]
            rfl
          · rw [if_neg hlen, if_neg (by omega), slice_of_le data (by omega) (by omega),
              orFail_some_bind, ih _ _ (by omega), drop_drop]
            rw [Nat.add_sub_cancel_left]
            rfl

theorem unmarshalTwoByteExtensionsTo_eq (fuel i : Nat) (exts : Slice RTPExtension)
    (h : data.length - i ≤ fuel) :
    (unmarshalTwoByteExtensionsTo data (fuel + 1) i exts).map Slice.items =
      unmarshalTwoByteExtensions fuel (data.drop i) exts.items := by
  induction fuel generalizing i exts with
  | zero =>
    have hi : data.length ≤ i := by omega
    rw [unmarshalTwoByteExtensionsTo, if_pos hi, drop_of_length_le hi]
    rfl
  | succ fuel ih =>
    rw [unmarshalTwoByteExtensionsTo]
    by_cases hi : data.length ≤ i
    · rw [if_pos hi, drop_of_length_le hi]
      rfl
    · have hlt : i < data.length := by omega
      rw [if_neg hi, drop_eq_getElem_cons hlt, unmarshalTwoByteExtensions.eq_def,
        getElem?_eq_getElem hlt, orFail_some_bind]
      simp only
      by_cases hid : data[i] = 0
      · rw [if_pos hid, if_pos hid, ih (i + 1) exts (by omega)]
      · rw [if_neg hid, if_neg hid]
        by_cases hi' : data.length ≤ i + 1
        · rw [if_pos hi', drop_of_length_le hi']
          rfl
        · have hlt' : i + 1 < data.length := by omega
          rw [if_neg hi', drop_eq_getElem_cons hlt', getElem?_eq_getElem hlt',
            orFail_some_bind]
          simp only [length_drop]
          by_cases hlen : data.length < i + 2 + data[i + 1].toNat
          · rw [if_pos hlen, if_pos (by omega)]
            rfl
          · rw [if_neg hlen, if_neg (by omega), slice_of_le data (by omega) (by omega),
              orFail_some_bind, ih _ _ (by omega), drop_drop, Nat.add_sub_cancel_left]
            rfl

theorem unmarshalExtensionsTo_eq : (unmarshalExtensionsTo profile data exts).map Slice.items =
      unmarshalExtensions profile data := by
  rw [unmarshalExtensionsTo, Slice.upTo_zero, orFail_some_bind, unmarshalExtensions]
  by_cases hone : profile = extensionProfileOneByte
  · rw [if_pos hone, if_pos hone]
    exact unmarshalOneByteExtensionsTo_eq data data.length 0 _ (Nat.sub_le _ _)
  · rw [if_neg hone, if_neg hone]
    by_cases htwo : profile = extensionProfileTwoByte
    · rw [if_pos htwo, if_pos htwo]
      exact unmarshalTwoByteExtensionsTo_eq data data.length 0 _ (Nat.sub_le _ _)
    · rw [if_neg htwo, if_neg htwo]
      cases data with
      | nil => rfl
      | cons b data => rfl

theorem unmarshalExtensionBlockTo_eq :
    (unmarshalExtensionBlockTo hasExtension data n exts).map (fun r => (r.1, r.2.1, r.2.2.items)) =
      if hasExtension then unmarshalExtensionBlock data n else .ok (n, 0, []) := by
  rw [unmarshalExtensionBlockTo]
  cases hasExtension with
  | false => rfl
  | true =>
    rw [if_pos rfl, if_pos rfl, unmarshalExtensionBlock]
    by_cases hhead : data.length < n + 4
    · rw [if_pos hhead, if_pos hhead]
      rfl
    · rw [if_neg hhead, if_neg hhead, sliceFrom_readUint16 (by omega),
        sliceFrom_readUint16 (by omega), orFail_some_bind, orFail_some_bind]
      simp only
      by_cases hblock : data.length < n + 4 + (uint16 (data.drop (n + 2))).toNat * 4
      · rw [if_pos hblock, if_pos hblock]
        rfl
      · rw [if_neg hblock, if_neg hblock, slice_of_le data (by omega) (by omega),
          orFail_some_bind, Slice.upTo_zero, orFail_some_bind, Nat.add_sub_cancel_left,
          ← unmarshalExtensionsTo_eq]
        rcases unmarshalExtensionsTo _ _ _ with e | exts
        · rfl
        · rfl

theorem unmarshalPaddingTo_eq :
    unmarshalPaddingTo padding data n = unmarshalPadding padding data n := by
  rw [unmarshalPaddingTo, unmarshalPadding]
  cases padding with
  | false => rfl
  | true =>
    rw [if_pos rfl, if_pos rfl]
    by_cases hn : data.length ≤ n
    · rw [if_pos hn, if_pos hn]
    · rw [if_neg hn, if_neg hn, ← getLast?_eq_getElem?,
        getLast?_eq_some_getLast (ne_nil_of_length_pos (by omega)), orFail_some_bind]
      rfl

/-- Every source is read at its own offset, so the loop goes through exactly
    when the last of them is in the input. -/
theorem unmarshalSourcesTo_eq (cc : Nat) (csrc : Slice UInt32) :
    (unmarshalSourcesTo data cc csrc).map Slice.items =
      if 0 < cc ∧ data.length < 12 + cc * 4 then none else some (uint32s cc (data.drop 12)) := by
  rw [unmarshalSourcesTo]
  by_cases hcc : 0 < cc
  · rcases csrc.exists_resize 0 cc with ⟨s, hs, hlen⟩
    rw [if_pos hcc, hs, bind_some]
    by_cases hshort : data.length < 12 + cc * 4
    · have hlast : (sliceFrom data (12 + (cc - 1) * 4)).bind readUint32 = none :=
        sliceFrom_readUint32_of_lt (by omega)
      rw [if_pos ⟨hcc, hshort⟩, s.fill_of_none (by omega) hlast, map_none]
    · have hread : ∀ i, i < cc → (sliceFrom data (12 + i * 4)).bind readUint32 =
          some (uint32 ((data.drop 12).drop (i * 4))) := by
        intro i hi
        rw [sliceFrom_readUint32 (by omega), drop_drop]
      rw [if_neg (fun h => hshort h.2), s.fill_of_some cc hlen.ge hread, map_some, ← hlen,
        drop_length, append_nil]
      rfl
  · rw [if_neg hcc, if_neg (fun h => hcc h.1), Nat.eq_zero_of_not_pos hcc]
    rfl

theorem unmarshalPayloadTo_eq {data : Bytes} {n fin : Nat} (payload : Slice UInt8) (hn : n ≤ fin)
    (hfin : fin ≤ data.length) :
    ∃ s, unmarshalPayloadTo data n fin payload = some s ∧
      s.items = (data.drop n).take (fin - n) := by
  rcases payload.exists_resize 0 (fin - n) with ⟨s, hs, hlen⟩
  refine ⟨s.copy ((data.drop n).take (fin - n)), ?_, s.copy_items _ ?_⟩
  · rw [unmarshalPayloadTo, hs, slice_of_le data hn hfin]
    rfl
  · rw [hlen, length_take, length_drop]
    omega

theorem unmarshalExtensionBlock_le {hasExtension : Bool} {data : Bytes} {n m : Nat}
    {profile : UInt16} {exts : List RTPExtension} (hn : n ≤ data.length)
    (h : (if hasExtension then unmarshalExtensionBlock data n else .ok (n, 0, [])) =
      .ok (m, profile, exts)) : m ≤ data.length := by
  cases hasExtension with
  | false =>
    rw [← (Prod.mk.inj (Except.ok.inj h)).1]
    exact hn
  | true =>
    rcases check_eq_ok (check_eq_ok h).2 with ⟨hlen, hmap⟩
    rcases map_eq_ok hmap with ⟨_, _, hr⟩
    rw [← (Prod.mk.inj hr).1]
    omega

theorem unmarshalPadding_le {padding : Bool} {data : Bytes} {n fin : Nat} {size : UInt8}
    (h : unmarshalPadding padding data n = .ok (fin, size)) (hn : n ≤ data.length) :
    n ≤ fin ∧ fin ≤ data.length := by
  cases padding with
  | false =>
    rw [← (Prod.mk.inj (Except.ok.inj h)).1]
    exact ⟨hn, Nat.le_refl _⟩
  | true =>
    rcases check_eq_ok (check_eq_ok (check_eq_ok h).2).2 with ⟨hsize, hr⟩
    rw [← (Prod.mk.inj (Except.ok.inj hr)).1]
    omega

theorem unmarshalVariablePartTo_eq (hasExtension : Bool) (data : Bytes) (pkt : RTPBuffer)
    (h : RTPHeader) (hn : 12 + h.csrc.length * 4 ≤ data.length)
    (hh : h = { pkt.packet.header with
      extension := hasExtension, extensions := [], extensionProfile := 0, paddingSize := 0 }) :
    (unmarshalVariablePartTo hasExtension data (12 + h.csrc.length * 4) pkt).map
      RTPBuffer.packet = unmarshalVariablePart h data := by
  rw [hh] at hn ⊢
  have hblock := unmarshalExtensionBlockTo_eq hasExtension data
    (12 + pkt.csrc.items.length * 4) pkt.extensions
  rw [unmarshalVariablePartTo, unmarshalVariablePart]
  simp only [RTPBuffer.packet] at hn ⊢
  rw [← hblock]
  rcases hb : unmarshalExtensionBlockTo _ _ _ _ with e | ⟨m, profile, exts⟩
  · rfl
  · rw [hb] at hblock
    have hm := unmarshalExtensionBlock_le hn hblock.symm
    simp only [Except.map, bind, Except.bind, unmarshalPaddingTo_eq]
    rcases hp : unmarshalPadding _ data m with e | ⟨fin, size⟩
    · rfl
    · rcases unmarshalPadding_le hp hm with ⟨hm', hfin⟩
      rcases unmarshalPayloadTo_eq pkt.payload hm' hfin with ⟨payload, hpayload, hrest⟩
      simp only [hpayload, ← hrest]
      rfl

/-- Whatever the packet held before, the decoder leaves in it the packet that it
    would make for the same bytes, and it fails on the same inputs. -/
theorem unmarshalRTPTo_eq (pkt : RTPBuffer) :
    (unmarshalRTPTo data pkt).map RTPBuffer.packet = unmarshalRTP data := by
  rw [unmarshalRTPTo, unmarshalRTP]
  by_cases h12 : data.length < 12
  · rw [if_pos h12, if_pos h12]
    rfl
  · rw [if_neg h12, if_neg h12, getElem?_eq_getD data 0 (by omega), orFail_some_bind]
    by_cases hv : (unmarshalFixedHeader data).version ≠ 2
    · rw [if_pos hv]
      exact congrArg (Except.map RTPBuffer.packet) (if_pos hv)
    · have hsources := unmarshalSourcesTo_eq data (data.getD 0 0 &&& 0x0F).toNat pkt.csrc
      rw [if_neg hv]
      refine (congrArg (Except.map RTPBuffer.packet) (if_neg hv)).trans ?_
      rw [getElem?_eq_getD data 0 (by omega), slice_readUint16 rfl (by omega),
        slice_readUint32 rfl (by omega), slice_readUint32 rfl (by omega)]
      simp only [orFail_some_bind]
      have hn : (unmarshalFixedHeader data).csrc.length = (data.getD 0 0 &&& 0x0F).toNat :=
        length_uint32s _ _
      rw [← hn] at hsources ⊢
      by_cases hfit : data.length < 12 + (unmarshalFixedHeader data).csrc.length * 4
      · rw [if_pos ⟨by omega, hfit⟩, map_eq_none_iff] at hsources
        rw [if_pos hfit, hsources]
        rfl
      · rw [if_neg (fun h => hfit h.2), map_eq_some_iff] at hsources
        rcases hsources with ⟨csrc, hcsrc, hitems⟩
        rw [if_neg hfit, hcsrc, orFail_some_bind]
        refine unmarshalVariablePartTo_eq _ data _ _ (Nat.le_of_not_lt hfit) ?_
        rw [RTPBuffer.packet, hitems, hn]
        rfl

/-- Two packets from the pool cannot be told apart by what is decoded into them,
    be it a packet, an error or a panic. -/
theorem unmarshalRTPTo_unobservable (data : Bytes) (pkt pkt' : RTPBuffer) :
    (unmarshalRTPTo data pkt).map RTPBuffer.packet =
      (unmarshalRTPTo data pkt').map RTPBuffer.packet :=
  (unmarshalRTPTo_eq data pkt).trans (unmarshalRTPTo_eq data pkt').symm

/-- The contributing sources end inside the input, or it is refused before they
    are read. -/
def SourcesFit (data : Bytes) : Prop :=
  data.length < 12 ∨ data.getD 0 0 >>> 6 &&& 0x03 ≠ 2 ∨
    12 + (data.getD 0 0 &&& 0x0F).toNat * 4 ≤ data.length

instance (data : Bytes) : Decidable (SourcesFit data) := inferInstanceAs (Decidable (_ ∨ _ ∨ _))

theorem avoids_unmarshalErrorf {α : Type} (msg : Bytes) :
    Avoids .panic (unmarshalErrorf msg : Except Fault α) := by
  refine Avoids.error (fun h => ?_)
  cases h

theorem avoids_unmarshalExtensions : Avoids .panic (unmarshalExtensions profile data) := by
  have hone : ∀ fuel s exts, Avoids .panic (unmarshalOneByteExtensions fuel s exts) := by
    intro fuel s exts
    fun_induction unmarshalOneByteExtensions fuel s exts with
    | case1 | case2 | case4 => exact Avoids.ok _
    | case3 _ _ _ ih | case6 _ _ _ _ _ _ _ _ _ ih => exact ih
    | case5 => exact avoids_unmarshalErrorf _
  have htwo : ∀ fuel s exts, Avoids .panic (unmarshalTwoByteExtensions fuel s exts) := by
    intro fuel s exts
    fun_induction unmarshalTwoByteExtensions fuel s exts with
    | case1 | case2 => exact Avoids.ok _
    | case3 _ _ _ ih | case6 _ _ _ _ _ _ _ ih => exact ih
    | case4 | case5 => exact avoids_unmarshalErrorf _
  exact Avoids.ite (fun _ => hone _ _ _) (fun _ => Avoids.ite (fun _ => htwo _ _ _)
    (fun _ => Avoids.ite (fun _ => Avoids.ok _) (fun _ => Avoids.ok _)))

theorem avoids_unmarshalPadding : Avoids .panic (unmarshalPadding padding data n) :=
  Avoids.ite
    (fun _ => Avoids.ite (fun _ => avoids_unmarshalErrorf _) (fun _ => Avoids.ite
      (fun _ => avoids_unmarshalErrorf _) (fun _ => Avoids.ite
        (fun _ => avoids_unmarshalErrorf _) (fun _ => Avoids.ok _))))
    (fun _ => Avoids.ok _)

theorem avoids_unmarshalVariablePart (h : RTPHeader) (data : Bytes) :
    Avoids .panic (unmarshalVariablePart h data) := by
  have hblock : Avoids .panic (if h.extension then
      unmarshalExtensionBlock data (12 + h.csrc.length * 4)
      else .ok (12 + h.csrc.length * 4, 0, [])) :=
    Avoids.ite
      (fun _ => Avoids.ite (fun _ => avoids_unmarshalErrorf _) (fun _ => Avoids.ite
        (fun _ => avoids_unmarshalErrorf _) (fun _ => (avoids_unmarshalExtensions _ _).map)))
      (fun _ => Avoids.ok _)
  rw [unmarshalVariablePart]
  rcases hb : (if h.extension then unmarshalExtensionBlock data (12 + h.csrc.length * 4)
    else .ok (12 + h.csrc.length * 4, 0, [])) with e | ⟨n, profile, exts⟩
  · rw [hb] at hblock
    exact hblock.retype
  · have hpad := avoids_unmarshalPadding h.padding data n
    simp only
    rcases hp : unmarshalPadding h.padding data n with e | ⟨fin, size⟩
    · rw [hp] at hpad
      exact hpad.retype
    · exact Avoids.ok _

/-- The loop over the contributing sources is the only place where the decoder
    can leave its input: the lengths of the extension and of the padding are
    compared with the input before they are used. -/
theorem unmarshalRTP_in_range_iff (data : Bytes) (pkt : RTPBuffer) :
    (unmarshalRTPTo data pkt ≠ .error .panic ∧ unmarshalRTP data ≠ .error .panic) ↔
      SourcesFit data := by
  have hto : unmarshalRTPTo data pkt ≠ .error .panic ↔ unmarshalRTP data ≠ .error .panic := by
    rw [← unmarshalRTPTo_eq data pkt]
    exact Avoids.map_iff.symm
  rw [hto, and_self, unmarshalRTP, SourcesFit]
  by_cases h12 : data.length < 12
  · rw [if_pos h12]
    exact ⟨fun _ => .inl h12, fun _ => avoids_unmarshalErrorf _⟩
  · rw [if_neg h12]
    by_cases hv : (unmarshalFixedHeader data).version ≠ 2
    · simp only [if_pos hv]
      exact ⟨fun _ => .inr (.inl hv), fun _ => avoids_unmarshalErrorf _⟩
    · have hn : (unmarshalFixedHeader data).csrc.length = (data.getD 0 0 &&& 0x0F).toNat :=
        length_uint32s _ _
      simp only [if_neg hv, hn]
      by_cases hfit : data.length < 12 + (data.getD 0 0 &&& 0x0F).toNat * 4
      · rw [if_pos hfit]
        refine ⟨fun h => absurd rfl h, fun h => ?_⟩
        rcases h with h | h | h
        · exact absurd h h12
        · exact absurd h hv
        · omega
      · rw [if_neg hfit]
        exact ⟨fun _ => .inr (.inr (Nat.le_of_not_lt hfit)),
          fun _ => avoids_unmarshalVariablePart _ data⟩

/-- A header that announces one contributing source and ends before it. -/
theorem unmarshalRTP_out_of_range :
    unmarshalRTP (0x81 :: zeros 11) = .error .panic := by
  decide +kernel

end Proto

end Trecs
