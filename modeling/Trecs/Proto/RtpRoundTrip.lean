import Trecs.Proto.Rtp

/-!
# RTP Round Trips

Encoding a packet and decoding it again, and the other way round.

The encoder takes an element of the one-byte profile without a payload and
stores its length minus one, which makes the header byte that of the terminator:
the decoder stops there. It also cuts the length of a block to 16 bits, and the
decoder then finds the payload inside the block. Everything else in the domain
of the encoder comes back.

The decoder takes any byte other than zero for the header of an element, so one
with ID 0 is accepted. The encoder refuses it. Everything else the decoder
accepts is in the domain of the encoder.

## Main definitions

* `RTPPacket.Valid`: The domain of the encoder.
* `RTPPacket.Lossless`: What makes a packet come back.

## Theorems

* `unmarshal_writes_iff`: An encoded packet.
* `accepted_of_unmarshal`: What the decoder accepts.
* `unmarshal_marshal_rtp_iff`: Encoding first.
* `marshal_unmarshal_rtp_iff`: Decoding first.
-/

namespace Trecs

open List Option

namespace Proto

/-! ### The fixed header -/

variable (ext : RTPExtension) (exts : List RTPExtension) (h : RTPHeader) (ws : List Write)
  (p : RTPPacket)

/-- What is read from the first byte of an encoded header. -/
theorem firstByte_fields (hv : h.version = 2) (hcc : h.csrc.length ≤ 15) :
    h.firstByte >>> 6 &&& 0x03 = 2 ∧
      decide ((h.firstByte >>> 5) &&& 0x01 ≠ 0) = h.padding ∧
      decide ((h.firstByte >>> 4) &&& 0x01 ≠ 0) = h.extension ∧
      (h.firstByte &&& 0x0F).toNat = h.csrc.length := by
  have hall : ∀ (cc : Fin 16) (pad ext : Bool),
      let b := ((2 : UInt8) <<< 6) ||| UInt8.ofNat cc
      let b := if pad then b ||| (1 : UInt8) <<< 5 else b
      let b := if ext then b ||| (1 : UInt8) <<< 4 else b
      b >>> 6 &&& 0x03 = 2 ∧ decide ((b >>> 5) &&& 0x01 ≠ 0) = pad ∧
        decide ((b >>> 4) &&& 0x01 ≠ 0) = ext ∧ (b &&& 0x0F).toNat = cc := by decide +kernel
  have hb := hall ⟨h.csrc.length, by omega⟩ h.padding h.extension
  rw [RTPHeader.firstByte, hv]
  exact hb

theorem secondByte_fields (hpt : h.payloadType ≤ 127) :
    decide ((h.secondByte >>> 7) &&& 0x01 ≠ 0) = h.marker ∧
      h.secondByte &&& 0x7F = h.payloadType := by
  have hall : ∀ (pt : Fin 128) (m : Bool),
      let b := if m then UInt8.ofNat pt ||| (1 : UInt8) <<< 7 else UInt8.ofNat pt
      decide ((b >>> 7) &&& 0x01 ≠ 0) = m ∧ b &&& 0x7F = UInt8.ofNat pt := by decide +kernel
  have hlt : h.payloadType.toNat < 128 := Nat.lt_succ_of_le (UInt8.le_iff_toNat_le.mp hpt)
  have hb := hall ⟨h.payloadType.toNat, hlt⟩ h.marker
  rw [UInt8.ofNat_toNat] at hb
  exact hb

theorem writeText_fixedWrites :
    writeText h.fixedWrites = [h.firstByte, h.secondByte] ++ putUint16 h.sequenceNumber ++
      putUint32 h.timestamp ++ putUint32 h.ssrc ++ h.csrc.flatMap putUint32 := by
  have hcsrc : writeText (h.csrc.flatMap (fun csrc => stores (putUint32 csrc))) =
      h.csrc.flatMap putUint32 := by
    rw [writeText_flatMap]
    exact flatMap_congr (fun csrc _ => writeText_stores (putUint32 csrc))
  rw [RTPHeader.fixedWrites]
  simp only [writeText_append, writeText_stores, hcsrc]
  rfl

theorem length_fixedWrites : (writeText h.fixedWrites).length = 12 + h.csrc.length * 4 := by
  rw [writeText_fixedWrites]
  simp only [length_append, length_flatMap_const putUint32 4 length_putUint32,
    length_putUint16, length_putUint32,
    length_cons, length_nil]

/-- The fixed header is read back. -/
theorem unmarshalFixedHeader_put (hv : h.version = 2) (hcc : h.csrc.length ≤ 15)
    (hpt : h.payloadType ≤ 127) (rest : Bytes) :
    unmarshalFixedHeader (writeText h.fixedWrites ++ rest) =
      { h with extensions := [], extensionProfile := 0, paddingSize := 0 } := by
  rcases firstByte_fields h hv hcc with ⟨hb, hpad, hext, hlen⟩
  rcases secondByte_fields h hpt with ⟨hmark, htype⟩
  -- What stands behind each field.
  let t12 := h.csrc.flatMap putUint32 ++ rest
  let t8 := putUint32 h.ssrc ++ t12
  let t4 := putUint32 h.timestamp ++ t8
  let t2 := putUint16 h.sequenceNumber ++ t4
  have hdata : writeText h.fixedWrites ++ rest = h.firstByte :: h.secondByte :: t2 := by
    rw [writeText_fixedWrites]
    simp [t2, t4, t8, t12]
  have h2 : (h.firstByte :: h.secondByte :: t2).drop 2 = t2 := rfl
  have h4 : (h.firstByte :: h.secondByte :: t2).drop 4 = t4 := drop_behind h2 (length_putUint16 _)
  have h8 : (h.firstByte :: h.secondByte :: t2).drop 8 = t8 := drop_behind h4 (length_putUint32 _)
  have h12 : (h.firstByte :: h.secondByte :: t2).drop 12 = t12 :=
    drop_behind h8 (length_putUint32 _)
  rw [hdata, unmarshalFixedHeader, h2, h4, h8, h12]
  simp only [getD_cons_zero, getD_cons_succ, hb, hpad, hext, hlen, hmark, htype, t2, t4, t8,
    t12, uint16_put, uint32_put, uint32s_put, ← hv]

/-! ### The elements of a block -/

/-- The header byte of an element with the one-byte profile. -/
theorem elementByte_fields (id : UInt8) (n : Nat) (hid : ¬ (id = 0 ∨ 15 ≤ id)) (hn : n ≤ 16)
    (hpos : 0 < n) :
    let b := (id <<< 4) ||| (UInt8.ofNat n - 1)
    b ≠ 0 ∧ b >>> 4 = id ∧ id ≠ 0x0F ∧ (b &&& 0x0F).toNat + 1 = n := by
  have hall : ∀ (i : Fin 14) (l : Fin 16),
      let b := (UInt8.ofNat (i + 1) <<< 4) ||| (UInt8.ofNat (l + 1) - 1)
      b ≠ 0 ∧ b >>> 4 = UInt8.ofNat (i + 1) ∧ UInt8.ofNat (i + 1) ≠ 0x0F ∧
        (b &&& 0x0F).toNat + 1 = l + 1 := by
    decide +kernel
  rw [not_or] at hid
  have hne : id.toNat ≠ 0 := fun h => hid.1 (UInt8.toNat_inj.mp h)
  have hlt : id.toNat < 15 := by
    rw [UInt8.le_iff_toNat_le] at hid
    exact Nat.lt_of_not_le hid.2
  have hb := hall ⟨id.toNat - 1, by omega⟩ ⟨n - 1, by omega⟩
  simp only [Nat.sub_add_cancel (Nat.pos_of_ne_zero hne), Nat.sub_add_cancel hpos,
    UInt8.ofNat_toNat] at hb
  exact hb

/-- An empty payload makes the header byte the terminator. -/
theorem elementByte_of_empty (id : UInt8) :
    let b := (id <<< 4) ||| (UInt8.ofNat 0 - 1)
    b ≠ 0 ∧ b >>> 4 = 0x0F := by
  revert id
  exact forall_uint8 (by decide +kernel)

/-- A valid element and the ones behind it. -/
theorem oneByteWrites_cons (h : oneByteWrites (ext :: exts) = .ok ws) :
    ¬ (ext.id = 0 ∨ 15 ≤ ext.id) ∧ ext.payload.length ≤ 16 ∧
      ∃ vs, oneByteWrites exts = .ok vs ∧
        ws = .store ((ext.id <<< 4) ||| (UInt8.ofNat ext.payload.length - 1)) ::
          .copy ext.payload :: vs := by
  rcases check_eq_ok h with ⟨hid, h⟩
  rcases check_eq_ok h with ⟨hlen, h⟩
  rcases map_eq_ok h with ⟨vs, hvs, hws⟩
  exact ⟨hid, Nat.le_of_not_lt hlen, vs, hvs, hws.symm⟩

/-- Reading a block with the one-byte profile ends at the first element without a
    payload. -/
theorem unmarshalOneByteExtensions_put (hws : oneByteWrites exts = .ok ws) (tail : Bytes)
    (htail : tail = [] ∨ tail.head? = some 0xF0) (fuel : Nat) (acc : List RTPExtension)
    (hfuel : (writeText ws ++ tail).length ≤ fuel) :
    unmarshalOneByteExtensions fuel (writeText ws ++ tail) acc =
      .ok (acc ++ exts.takeWhile (fun e => e.payload ≠ [])) := by
  induction exts generalizing ws fuel acc with
  | nil =>
    rw [← Except.ok.inj hws] at hfuel ⊢
    rw [takeWhile_nil, append_nil]
    change unmarshalOneByteExtensions fuel tail acc = .ok acc
    cases tail with
    | nil => rw [unmarshalOneByteExtensions]
    | cons b t =>
      have hb : b = 0xF0 := by
        rcases htail with h | h
        · exact absurd h (cons_ne_nil b t)
        · exact some.inj h
      cases fuel with
      | zero => cases hfuel
      | succ fuel =>
        rw [unmarshalOneByteExtensions, hb, if_neg (by decide)]
        exact if_pos (by decide)
  | cons ext exts ih =>
    rcases oneByteWrites_cons ext exts ws hws with ⟨hid, hlen, vs, hvs, rfl⟩
    let b := (ext.id <<< 4) ||| (UInt8.ofNat ext.payload.length - 1)
    have htext : writeText (.store b :: .copy ext.payload :: vs) ++ tail =
        b :: (ext.payload ++ (writeText vs ++ tail)) := by
      change b :: (ext.payload ++ writeText vs) ++ tail = _
      rw [cons_append, append_assoc]
    rw [htext] at hfuel ⊢
    cases fuel with
    | zero => cases hfuel
    | succ fuel =>
      rw [unmarshalOneByteExtensions]
      by_cases hempty : ext.payload = []
      · have hb : b ≠ 0 ∧ b >>> 4 = 0x0F := by
          have h := elementByte_of_empty ext.id
          simp only [b, hempty, length_nil]
          exact h
        rw [if_neg hb.1, takeWhile_cons_of_neg (by simpa using hempty), append_nil]
        exact if_pos hb.2
      · have hpos : 0 < ext.payload.length := length_pos_iff.mpr hempty
        rcases elementByte_fields ext.id ext.payload.length hid hlen hpos with
          ⟨hne, hshift, hend, hcount⟩
        have hroom : ¬ (ext.payload ++ (writeText vs ++ tail)).length < ext.payload.length := by
          rw [length_append]
          omega
        rw [length_cons, length_append] at hfuel
        have hnext := ih vs hvs fuel (acc ++ [ext]) (by omega)
        simp only [b, if_neg hne, if_neg hend, hcount, if_neg hroom, hshift,
          drop_left, take_left]
        rw [takeWhile_cons_of_pos (by simpa using hempty), hnext, append_assoc]
        rfl

/-- A valid element and the ones behind it. -/
theorem twoByteWrites_cons (h : twoByteWrites (ext :: exts) = .ok ws) :
    ext.id ≠ 0 ∧ ext.payload.length ≤ 255 ∧
      ∃ vs, twoByteWrites exts = .ok vs ∧
        ws = .store ext.id :: .store (UInt8.ofNat ext.payload.length) :: .copy ext.payload :: vs := by
  rcases check_eq_ok h with ⟨hid, h⟩
  rcases check_eq_ok h with ⟨hlen, h⟩
  rcases map_eq_ok h with ⟨vs, hvs, hws⟩
  exact ⟨hid, Nat.le_of_not_lt hlen, vs, hvs, hws.symm⟩

/-- Zeros between elements are skipped. -/
theorem unmarshalTwoByteExtensions_zeros (n fuel : Nat) (acc : List RTPExtension) (h : n ≤ fuel) :
    unmarshalTwoByteExtensions fuel (zeros n) acc = .ok acc := by
  induction n generalizing fuel with
  | zero => exact unmarshalTwoByteExtensions.eq_1 fuel acc
  | succ n ih =>
    cases fuel with
    | zero => exact absurd h (Nat.not_succ_le_zero n)
    | succ fuel =>
      rw [zeros, replicate_succ, unmarshalTwoByteExtensions.eq_def]
      exact ih fuel (Nat.le_of_succ_le_succ h)

theorem unmarshalTwoByteExtensions_put (hws : twoByteWrites exts = .ok ws) (n fuel : Nat)
    (acc : List RTPExtension) (hfuel : (writeText ws ++ zeros n).length ≤ fuel) :
    unmarshalTwoByteExtensions fuel (writeText ws ++ zeros n) acc = .ok (acc ++ exts) := by
  induction exts generalizing ws fuel acc with
  | nil =>
    rw [← Except.ok.inj hws] at hfuel ⊢
    rw [append_nil]
    refine unmarshalTwoByteExtensions_zeros n fuel acc ?_
    rwa [length_append, length_zeros, writeText, flatMap_nil, length_nil,
      Nat.zero_add] at hfuel
  | cons ext exts ih =>
    rcases twoByteWrites_cons ext exts ws hws with ⟨hid, hlen, vs, hvs, rfl⟩
    have hcount : (UInt8.ofNat ext.payload.length).toNat = ext.payload.length := by
      rw [UInt8.toNat_ofNat']
      omega
    have htext : writeText (.store ext.id :: .store (UInt8.ofNat ext.payload.length) ::
        .copy ext.payload :: vs) ++ zeros n = ext.id :: UInt8.ofNat ext.payload.length ::
          (ext.payload ++ (writeText vs ++ zeros n)) := by
      rw [← append_assoc]
      rfl
    rw [htext] at hfuel ⊢
    cases fuel with
    | zero => cases hfuel
    | succ fuel =>
      have hroom :
          ¬ (ext.payload ++ (writeText vs ++ zeros n)).length < ext.payload.length := by
        rw [length_append]
        omega
      rw [length_cons, length_cons, length_append] at hfuel
      have hnext := ih vs hvs fuel (acc ++ [ext]) (by omega)
      rw [unmarshalTwoByteExtensions, if_neg hid]
      simp only [hcount, if_neg hroom, drop_left, take_left]
      rw [hnext, append_assoc]
      rfl

/-! ### The block -/

/-- The domain of the encoder. -/
structure RTPPacket.Valid (p : RTPPacket) : Prop where
  version : p.header.version = 2
  payloadType : p.header.payloadType ≤ 127
  padding : p.header.padding = true ↔ 1 ≤ p.header.paddingSize
  noExtension : p.header.extension = false →
    p.header.extensions = [] ∧ p.header.extensionProfile = 0
  otherProfile : p.header.extensionProfile ≠ extensionProfileOneByte →
    p.header.extensionProfile ≠ extensionProfileTwoByte →
    p.header.extensions.length ≤ 1 ∧
      ∀ ext ∈ p.header.extensions, ext.id = 0 ∧ ext.payload ≠ [] ∧ 4 ∣ ext.payload.length

theorem length_oneByteWrites (h : oneByteWrites exts = .ok ws) :
    (writeText ws).length = (exts.map (RTPExtension.size extensionProfileOneByte)).sum := by
  induction exts generalizing ws with
  | nil => rw [← Except.ok.inj h]; rfl
  | cons ext exts ih =>
    rcases oneByteWrites_cons ext exts ws h with ⟨_, _, vs, hvs, rfl⟩
    rw [map_cons, sum_cons, ← ih vs hvs]
    change (ext.payload ++ writeText vs).length + 1 = 1 + ext.payload.length + _
    rw [length_append]
    omega

theorem length_twoByteWrites (h : twoByteWrites exts = .ok ws) :
    (writeText ws).length = (exts.map (RTPExtension.size extensionProfileTwoByte)).sum := by
  induction exts generalizing ws with
  | nil => rw [← Except.ok.inj h]; rfl
  | cons ext exts ih =>
    rcases twoByteWrites_cons ext exts ws h with ⟨_, _, vs, hvs, rfl⟩
    rw [map_cons, sum_cons, ← ih vs hvs]
    change (ext.payload ++ writeText vs).length + 1 + 1 = 2 + ext.payload.length + _
    rw [length_append]
    omega

/-- The elements take what `MarshalSize` counts for them. -/
theorem length_elementWrites (hws : h.elementWrites = .ok ws) :
    (writeText ws).length = h.extensionSize := by
  unfold RTPHeader.elementWrites at hws
  unfold RTPHeader.extensionSize
  split at hws
  · rename_i hp
    rw [hp]
    exact length_oneByteWrites _ _ hws
  · split at hws
    · rename_i hp
      rw [hp]
      exact length_twoByteWrites _ _ hws
    · rename_i hp1 hp2
      unfold profileWrites at hws
      split at hws
      · rename_i hnil
        rw [← Except.ok.inj hws, hnil]
        rfl
      · rename_i ext hone
        rw [← Except.ok.inj hws, hone]
        simp only [map_cons, map_nil, sum_cons, sum_nil, RTPExtension.size,
          if_neg hp1, if_neg hp2, Nat.add_zero]
        exact congrArg List.length (append_nil ext.payload)
      · cases hws

/-- The elements that are found again. -/
def RTPHeader.foundExtensions (h : RTPHeader) : List RTPExtension :=
  if h.extensionProfile = extensionProfileOneByte then
    h.extensions.takeWhile (fun e => e.payload ≠ [])
  else h.extensions

theorem blockPadding_cases (n : Nat) : (h.blockPadding n).length = roundUp n - n ∧
      (h.extensionProfile = extensionProfileOneByte →
        h.blockPadding n = [] ∨ (h.blockPadding n).head? = some 0xF0) ∧
      (h.extensionProfile ≠ extensionProfileOneByte → h.blockPadding n = zeros (roundUp n - n)) := by
  unfold RTPHeader.blockPadding
  simp only
  split
  · rename_i hc
    refine ⟨?_, fun _ => .inr rfl, fun hne => absurd hc.2 hne⟩
    rw [length_cons, length_zeros]
    omega
  · rename_i hc
    refine ⟨length_zeros _, fun hp => .inl ?_, fun _ => rfl⟩
    have hzero : roundUp n - n = 0 := by
      by_contra hne
      exact hc ⟨Nat.pos_of_ne_zero hne, hp⟩
    rw [hzero]
    rfl

theorem unmarshalExtensions_put (hp : p.Valid) (ws : List Write)
    (hws : p.header.elementWrites = .ok ws) : unmarshalExtensions p.header.extensionProfile
        (writeText ws ++ p.header.blockPadding (writeText ws).length) =
      .ok p.header.foundExtensions := by
  rcases blockPadding_cases p.header (writeText ws).length with ⟨_, hone, hother⟩
  unfold RTPHeader.elementWrites at hws
  unfold unmarshalExtensions RTPHeader.foundExtensions
  by_cases hp1 : p.header.extensionProfile = extensionProfileOneByte
  · rw [if_pos hp1] at hws ⊢
    rw [if_pos hp1]
    exact unmarshalOneByteExtensions_put _ ws hws _ (hone hp1) _ [] (Nat.le_refl _)
  · rw [if_neg hp1] at hws ⊢
    rw [if_neg hp1, hother hp1]
    by_cases hp2 : p.header.extensionProfile = extensionProfileTwoByte
    · rw [if_pos hp2] at hws ⊢
      exact unmarshalTwoByteExtensions_put _ ws hws _ _ [] (Nat.le_refl _)
    · rw [if_neg hp2] at hws ⊢
      rcases hp.otherProfile hp1 hp2 with ⟨_, hall⟩
      unfold profileWrites at hws
      split at hws
      · rename_i hnil
        rw [← Except.ok.inj hws, hnil]
        rfl
      · rename_i ext hexts
        rcases hall ext (hexts ▸ mem_singleton_self ext) with ⟨hid, hne, hdvd⟩
        have htext : writeText [Write.copy ext.payload] = ext.payload := append_nil _
        rw [← Except.ok.inj hws, htext, roundUp_of_dvd _ hdvd, Nat.sub_self, hexts]
        rw [show zeros 0 = [] from rfl, append_nil, if_neg hne, ← hid]
      · cases hws

/-! ### The packet -/

/-- The padding behind the payload, its size in the last byte. -/
def RTPHeader.paddingText (h : RTPHeader) : Bytes :=
  if h.padding then zeros (h.paddingSize.toNat - 1) ++ [h.paddingSize] else []

theorem length_paddingText (hp : p.Valid) :
    p.header.paddingText.length = p.header.paddingSize.toNat := by
  unfold RTPHeader.paddingText
  cases hpad : p.header.padding with
  | true =>
    have hpos : 1 ≤ p.header.paddingSize.toNat := UInt8.le_iff_toNat_le.mp (hp.padding.mp hpad)
    rw [if_pos rfl, length_append, length_zeros, length_singleton]
    omega
  | false =>
    have hzero : ¬ 1 ≤ p.header.paddingSize := fun h => by
      rw [hp.padding.mpr h] at hpad
      exact absurd hpad (by decide)
    rw [UInt8.le_iff_toNat_le] at hzero
    change ¬ 1 ≤ p.header.paddingSize.toNat at hzero
    rw [if_neg Bool.false_ne_true, length_nil]
    omega

/-- The text of an extension: nothing, or the profile, the length and the elements. -/
theorem extensionWrites_cases (hws : h.extensionWrites = .ok ws) : (h.extension = false ∧ ws = []) ∨
      (h.extension = true ∧ ∃ vs, h.elementWrites = .ok vs ∧
        writeText ws = putUint16 h.extensionProfile ++
          putUint16 (UInt16.ofNat (roundUp (writeText vs).length / 4)) ++ writeText vs ++
          h.blockPadding (writeText vs).length) := by
  unfold RTPHeader.extensionWrites at hws
  cases hext : h.extension with
  | false =>
    rw [hext, if_neg Bool.false_ne_true] at hws
    exact .inl ⟨rfl, (Except.ok.inj hws).symm⟩
  | true =>
    rw [hext, if_pos rfl] at hws
    rcases map_eq_ok hws with ⟨vs, hvs, rfl⟩
    refine .inr ⟨rfl, vs, hvs, ?_⟩
    simp [writeText_append]

theorem length_extensionWrites (hws : h.extensionWrites = .ok ws) :
    (writeText ws).length = if h.extension then roundUp (4 + h.extensionSize) else 0 := by
  rcases extensionWrites_cases h ws hws with ⟨hext, rfl⟩ | ⟨hext, vs, hvs, htext⟩
  · rw [hext]
    rfl
  · rw [htext, hext, if_pos rfl]
    simp only [length_append, length_putUint16, (blockPadding_cases h _).1,
      length_elementWrites h vs hvs]
    unfold roundUp
    omega

/-- What `Marshal` returns for a packet in its domain. -/
theorem marshal_of_writes (hp : p.Valid) (ws : List Write) (hcc : p.header.csrc.length ≤ 15)
    (hws : p.header.extensionWrites = .ok ws) :
    p.marshal = .ok (writeText p.header.fixedWrites ++ (writeText ws ++
      (p.payload ++ p.header.paddingText))) := by
  let all := p.header.fixedWrites ++ ws ++ [.copy p.payload]
  have htext : writeText all = writeText p.header.fixedWrites ++ (writeText ws ++ p.payload) := by
    simp only [all, writeText_append, append_assoc]
    rw [show writeText [Write.copy p.payload] = p.payload from append_nil _]
  have hsize : p.marshalSize = (writeText all).length + p.header.paddingSize.toNat := by
    rw [htext, length_append, length_append, length_fixedWrites,
      length_extensionWrites p.header ws hws, RTPPacket.marshalSize]
    omega
  have hrun : writeAll all ⟨[], p.marshalSize⟩ =
      some ⟨writeText all, p.header.paddingSize.toNat⟩ := by
    rw [writeAll_of_le all ⟨[], p.marshalSize⟩ (by rw [hsize]; exact Nat.le_add_right _ _)]
    simp only [nil_append, some.injEq, Cursor.mk.injEq, true_and]
    omega
  -- The padding is what the new buffer held.
  have hrest : (zeros p.marshalSize).drop (writeText all).length =
      zeros p.header.paddingSize.toNat := by
    rw [hsize, zeros, drop_replicate, Nat.add_sub_cancel_left, zeros]
  unfold RTPPacket.marshal RTPPacket.marshalTo
  rw [length_zeros, if_neg (Nat.lt_irrefl _), if_neg (Nat.not_lt.mpr hcc), hws]
  simp only
  rw [hrun]
  simp only [hrest]
  unfold RTPHeader.paddingText
  cases hpad : p.header.padding with
  | true =>
    have hpos : 1 ≤ p.header.paddingSize.toNat := UInt8.le_iff_toNat_le.mp (hp.padding.mp hpad)
    have hzeros : zeros p.header.paddingSize.toNat =
        zeros (p.header.paddingSize.toNat - 1) ++ [0] := by
      rw [zeros, zeros, ← replicate_succ', Nat.sub_add_cancel hpos]
    rw [if_pos rfl, if_pos rfl, hzeros, ← append_assoc, dropLast_concat, htext]
    refine congrArg Except.ok ((take_of_length_le ?_).trans (by simp only [append_assoc]))
    simp only [length_append, length_singleton]
    omega
  | false =>
    rw [if_neg Bool.false_ne_true, if_neg Bool.false_ne_true, append_nil, ← htext]
    exact congrArg Except.ok (take_left' rfl)

/-- A packet that `Marshal` returns bytes for. -/
theorem writes_of_marshal (d : Bytes) (h : p.marshal = .ok d) :
    p.header.csrc.length ≤ 15 ∧ ∃ ws, p.header.extensionWrites = .ok ws := by
  rcases map_eq_ok h with ⟨r, h, -⟩
  rcases guard_eq_ok h with ⟨-, h⟩
  rcases check_eq_ok h with ⟨hcc, h⟩
  split at h
  · cases h
  · rename_i ws hws
    exact ⟨Nat.le_of_not_lt hcc, ws, hws⟩

/-- The padding of an encoded packet whose payload is said to start at `n`. -/
theorem unmarshalPadding_put (hp : p.Valid) (front : Bytes) (n : Nat) (hn : n ≤ front.length) :
    unmarshalPadding p.header.padding (front ++ p.header.paddingText) n =
      .ok (front.length, p.header.paddingSize) := by
  have hlen := length_paddingText p hp
  unfold unmarshalPadding
  cases hpad : p.header.padding with
  | true =>
    have hpos := hp.padding.mp hpad
    have hpos' : 1 ≤ p.header.paddingSize.toNat := UInt8.le_iff_toNat_le.mp hpos
    have hne : p.header.paddingSize ≠ 0 := by
      intro hzero
      rw [hzero] at hpos'
      exact absurd hpos' (by decide)
    have hlast : (front ++ p.header.paddingText).getLast? = some p.header.paddingSize := by
      rw [RTPHeader.paddingText, if_pos hpad, ← append_assoc, getLast?_concat]
    rw [if_pos rfl, length_append, hlen, if_neg (by omega), hlast, getD_some]
    simp only [if_neg hne]
    rw [if_neg (by omega), Nat.add_sub_cancel]
  | false =>
    have hsize : p.header.paddingSize = 0 := by
      rw [RTPHeader.paddingText, hpad, if_neg Bool.false_ne_true] at hlen
      exact UInt8.toNat_inj.mp hlen.symm
    rw [if_neg Bool.false_ne_true, RTPHeader.paddingText, hpad, if_neg Bool.false_ne_true,
      append_nil, hsize]

/-- Reading an encoded packet comes down to reading its extension. `block` is
    what stands between the sources and the payload. -/
theorem unmarshalRTP_put (hp : p.Valid) (hcc : p.header.csrc.length ≤ 15) (block : Bytes) :
    unmarshalRTP (writeText p.header.fixedWrites ++ (block ++
        (p.payload ++ p.header.paddingText))) =
      unmarshalVariablePart { p.header with extensions := [], extensionProfile := 0, paddingSize := 0 }
        (writeText p.header.fixedWrites ++ (block ++ (p.payload ++ p.header.paddingText))) := by
  have hlen := length_fixedWrites p.header
  unfold unmarshalRTP
  rw [length_append, hlen, if_neg (by omega)]
  simp only [unmarshalFixedHeader_put p.header hp.version hcc hp.payloadType]
  rw [if_neg (not_not.mpr hp.version), if_neg (by omega)]

/-- The payload and the padding, behind an extension that was read. -/
theorem unmarshalVariablePart_put (p : RTPPacket) (hp : p.Valid) (block : Bytes) (n : Nat)
    (profile : UInt16) (exts : List RTPExtension)
    (hn : n ≤ (writeText p.header.fixedWrites ++ (block ++ p.payload)).length)
    (hblock : (if p.header.extension then
        unmarshalExtensionBlock (writeText p.header.fixedWrites ++ (block ++
          (p.payload ++ p.header.paddingText))) (12 + p.header.csrc.length * 4)
      else .ok (12 + p.header.csrc.length * 4, 0, [])) = .ok (n, profile, exts)) :
    unmarshalVariablePart { p.header with extensions := [], extensionProfile := 0, paddingSize := 0 }
        (writeText p.header.fixedWrites ++ (block ++ (p.payload ++ p.header.paddingText))) =
      .ok ⟨(writeText p.header.fixedWrites ++ (block ++ p.payload)).drop n,
        { p.header with extensions := exts, extensionProfile := profile }⟩ := by
  let front := writeText p.header.fixedWrites ++ (block ++ p.payload)
  have hdata : writeText p.header.fixedWrites ++ (block ++ (p.payload ++ p.header.paddingText)) =
      front ++ p.header.paddingText := by
    simp only [front, append_assoc]
  have hpad := unmarshalPadding_put p hp front n hn
  have htake : ((front ++ p.header.paddingText).drop n).take (front.length - n) = front.drop n := by
    rw [drop_append_of_le_length hn]
    exact take_left' (length_drop ..)
  rw [hdata] at hblock ⊢
  simp only [unmarshalVariablePart, hblock, hpad, htake]
  rfl

/-- A block is read as far as its 16-bit length says. -/
theorem unmarshalExtensionBlock_put (front back : Bytes) (profile words : UInt16) (block : Bytes)
    (hroom : words.toNat * 4 ≤ (block ++ back).length) :
    unmarshalExtensionBlock (front ++ (putUint16 profile ++ putUint16 words ++ block ++ back))
        front.length =
      (unmarshalExtensions profile ((block ++ back).take (words.toNat * 4))).map
        (fun exts => (front.length + 4 + words.toNat * 4, profile, exts)) := by
  let data := front ++ (putUint16 profile ++ putUint16 words ++ block ++ back)
  have h0 : data.drop front.length = putUint16 profile ++ (putUint16 words ++ (block ++ back)) := by
    rw [drop_left]
    simp
  have h2 : data.drop (front.length + 2) = putUint16 words ++ (block ++ back) :=
    drop_behind h0 (length_putUint16 _)
  have h4 : data.drop (front.length + 4) = block ++ back := (drop_behind h2 (length_putUint16 _) :)
  have hlen : data.length = front.length + 4 + (block ++ back).length := by
    simp only [data, length_append, length_putUint16]
    omega
  unfold unmarshalExtensionBlock
  simp only [data] at h0 h2 h4 hlen
  rw [hlen, if_neg (by omega), h0, uint16_put, h2, uint16_put, h4]
  simp only
  rw [if_neg (by omega)]

/-- The encoded packet says about itself what it is: the block fits into its
    16-bit length, and no element looks like a terminator. -/
def RTPPacket.Lossless (p : RTPPacket) : Prop :=
  p.header.extension = true →
    p.header.extensionSize ≤ 65535 * 4 ∧
      (p.header.extensionProfile = extensionProfileOneByte →
        ∀ ext ∈ p.header.extensions, ext.payload ≠ [])

theorem foundExtensions_eq_iff : h.foundExtensions = h.extensions ↔
      (h.extensionProfile = extensionProfileOneByte → ∀ ext ∈ h.extensions, ext.payload ≠ []) := by
  unfold RTPHeader.foundExtensions
  by_cases hp : h.extensionProfile = extensionProfileOneByte
  · rw [if_pos hp, takeWhile_eq_self_iff]
    simp [hp]
  · rw [if_neg hp]
    exact ⟨fun _ hc => absurd hc hp, fun _ => rfl⟩

/-- A packet without an extension. -/
theorem unmarshal_marshal_plain (hp : p.Valid) (hcc : p.header.csrc.length ≤ 15)
    (hext : p.header.extension = false) :
    unmarshalRTP (writeText p.header.fixedWrites ++ ([] ++ (p.payload ++ p.header.paddingText))) =
      .ok p := by
  have hlen := length_fixedWrites p.header
  rcases hp.noExtension hext with ⟨hnone, hprofile⟩
  rw [unmarshalRTP_put p hp hcc, unmarshalVariablePart_put p hp [] (12 + p.header.csrc.length * 4) 0 []
    (by rw [length_append, hlen]; omega) (by rw [hext]; rfl)]
  rw [nil_append, drop_left' hlen, ← hnone, ← hprofile]

/-- A packet with an extension. -/
theorem unmarshal_marshal_extended (hp : p.Valid) (hcc : p.header.csrc.length ≤ 15)
    (hext : p.header.extension = true) (vs : List Write) (hvs : p.header.elementWrites = .ok vs) :
    let size := (writeText vs).length
    let block := putUint16 p.header.extensionProfile ++
      putUint16 (UInt16.ofNat (roundUp size / 4)) ++ writeText vs ++ p.header.blockPadding size
    unmarshalRTP (writeText p.header.fixedWrites ++ (block ++
      (p.payload ++ p.header.paddingText))) = .ok p ↔ p.Lossless := by
  intro size block
  have hlen := length_fixedWrites p.header
  have hsize : size = p.header.extensionSize := length_elementWrites p.header vs hvs
  have hpadding := (blockPadding_cases p.header size).1
  have hround : size ≤ roundUp size ∧ roundUp size / 4 * 4 = roundUp size := by
    unfold roundUp
    omega
  let words := UInt16.ofNat (roundUp size / 4)
  have hwords : words.toNat = roundUp size / 4 % 65536 := UInt16.toNat_ofNat'
  let elements := writeText vs ++ p.header.blockPadding size
  have hlelems : elements.length = roundUp size := by
    rw [length_append, hpadding]
    omega
  have hlblock : block.length = 4 + roundUp size := by
    simp only [block, length_append, length_putUint16, hpadding]
    omega
  have hread := unmarshalExtensionBlock_put (writeText p.header.fixedWrites)
    (p.payload ++ p.header.paddingText) p.header.extensionProfile words elements (by
      rw [length_append, hlelems]
      omega)
  have hshape : putUint16 p.header.extensionProfile ++ putUint16 words ++ elements ++
      (p.payload ++ p.header.paddingText) = block ++ (p.payload ++ p.header.paddingText) := by
    simp only [block, elements, append_assoc]
    rfl
  rw [hshape] at hread
  by_cases hfits : p.header.extensionSize ≤ 65535 * 4
  · -- The length is the one of the block, which is read as a whole.
    have hall : words.toNat * 4 = roundUp size := by
      unfold roundUp at hwords hround ⊢
      omega
    rw [hall, take_left' hlelems, unmarshalExtensions_put p hp vs hvs] at hread
    have hvar := unmarshalVariablePart_put p hp block (12 + p.header.csrc.length * 4 + 4 + roundUp size)
      p.header.extensionProfile p.header.foundExtensions
      (by simp only [length_append, hlen, hlblock]; omega)
      (by rw [hext, if_pos rfl, ← hlen]; exact hread)
    have hpayload : (writeText p.header.fixedWrites ++ (block ++ p.payload)).drop
        (12 + p.header.csrc.length * 4 + 4 + roundUp size) = p.payload := by
      rw [← append_assoc]
      exact drop_left' (by rw [length_append, hlen, hlblock]; omega)
    rw [unmarshalRTP_put p hp hcc, hvar, hpayload]
    constructor
    · intro h _
      refine ⟨hfits, (foundExtensions_eq_iff p.header).mp ?_⟩
      exact congrArg (fun q : RTPPacket => q.header.extensions) (Except.ok.inj h)
    · intro h
      rw [(foundExtensions_eq_iff p.header).mpr (h hext).2]
  · -- The payload is said to start too early.
    refine iff_of_false ?_ (fun h => hfits (h hext).1)
    have hshort : words.toNat * 4 < roundUp size := by
      unfold roundUp at hwords hround ⊢
      omega
    rw [unmarshalRTP_put p hp hcc]
    cases hexts : unmarshalExtensions p.header.extensionProfile
        ((elements ++ (p.payload ++ p.header.paddingText)).take (words.toNat * 4)) with
    | error e =>
      rw [hexts, hlen] at hread
      simp [unmarshalVariablePart, hext, hread, Except.map]
    | ok exts =>
      rw [hexts] at hread
      rw [unmarshalVariablePart_put p hp block (12 + p.header.csrc.length * 4 + 4 + words.toNat * 4)
        p.header.extensionProfile exts
        (by simp only [length_append, hlen, hlblock]; omega)
        (by rw [hext, if_pos rfl, ← hlen]; exact hread)]
      intro h
      have hlong := congrArg (fun q : RTPPacket => q.payload.length) (Except.ok.inj h)
      simp only [length_drop, length_append, hlen, hlblock] at hlong
      omega

/-- Reading an encoded packet, with or without an extension. -/
theorem unmarshal_writes_iff (hp : p.Valid) (hcc : p.header.csrc.length ≤ 15) (ws : List Write)
    (hws : p.header.extensionWrites = .ok ws) :
    unmarshalRTP (writeText p.header.fixedWrites ++ (writeText ws ++
      (p.payload ++ p.header.paddingText))) = .ok p ↔ p.Lossless := by
  rcases extensionWrites_cases p.header ws hws with ⟨hext, rfl⟩ | ⟨hext, vs, hvs, htext⟩
  · exact iff_of_true (unmarshal_marshal_plain p hp hcc hext)
      (fun h => by cases hext.symm.trans h)
  · rw [htext]
    exact unmarshal_marshal_extended p hp hcc hext vs hvs

/-- Decoding what was encoded gives the packet back if and only if the block fits
    into its length and no element with the one-byte profile is empty. -/
theorem unmarshal_marshal_rtp_iff (p : RTPPacket) (hp : p.Valid) (d : Bytes)
    (hd : p.marshal = .ok d) : unmarshalRTP d = .ok p ↔ p.Lossless := by
  rcases writes_of_marshal p d hd with ⟨hcc, ws, hws⟩
  rw [marshal_of_writes p hp ws hcc hws] at hd
  rw [← Except.ok.inj hd]
  exact unmarshal_writes_iff p hp hcc ws hws

/-- A packet with a source, an element with each of two lengths, and padding. -/
def samplePacket : RTPPacket where
  payload := [1, 2, 3]
  header := {
    csrc := [7]
    extensions := [⟨[5], 1⟩, ⟨[6, 7], 14⟩]
    timestamp := 160
    ssrc := 9
    sequenceNumber := 4660
    extensionProfile := extensionProfileOneByte
    version := 2
    padding := true
    marker := true
    payloadType := 8
    extension := true
    paddingSize := 2 }

theorem valid_of_oneByte (hv : p.header.version = 2) (hpt : p.header.payloadType ≤ 127)
    (hpad : p.header.padding = true ↔ 1 ≤ p.header.paddingSize) (hext : p.header.extension = true)
    (hp : p.header.extensionProfile = extensionProfileOneByte) : p.Valid where
  version := hv
  payloadType := hpt
  padding := hpad
  noExtension h := absurd (hext.symm.trans h).symm Bool.false_ne_true
  otherProfile h := absurd hp h

/-- The encoded packet. -/
def sampleBytes : Bytes :=
  [0xB1, 0x88, 0x12, 0x34, 0, 0, 0, 160, 0, 0, 0, 9, 0, 0, 0, 7, 0xBE, 0xDE, 0, 2, 0x10, 5, 0xE1, 6,
    7, 0xF0, 0, 0, 1, 2, 3, 0, 2]

theorem unmarshal_marshal_rtp_samplePacket :
    samplePacket.marshal = .ok sampleBytes ∧ unmarshalRTP sampleBytes = .ok samplePacket := by
  have hp : samplePacket.Valid :=
    valid_of_oneByte _ rfl (by decide) (by decide) rfl rfl
  have hd : samplePacket.marshal = .ok sampleBytes := by decide +kernel
  have hl : samplePacket.Lossless := fun _ => ⟨by decide, fun _ => by decide⟩
  exact ⟨hd, (unmarshal_marshal_rtp_iff samplePacket hp sampleBytes hd).mpr hl⟩

/-- The sample with one element, which has no payload. -/
def emptyElement : RTPPacket :=
  { samplePacket with header := { samplePacket.header with extensions := [⟨[], 1⟩] } }

/-- The sample with one element for another profile. -/
def blockOf (payload : Bytes) : RTPPacket :=
  { samplePacket with header := { samplePacket.header with
      extensions := [⟨payload, 0⟩]
      extensionProfile := 0x4321 } }

/-- A block of more than 65535 words does not fit. -/
theorem blockOf_lost (payload : Bytes) (hdvd : 4 ∣ payload.length)
    (hlong : 65535 * 4 < payload.length) :
    (blockOf payload).Valid ∧
      ∃ d, (blockOf payload).marshal = .ok d ∧ unmarshalRTP d ≠ .ok (blockOf payload) := by
  have htype : samplePacket.header.payloadType ≤ 127 := by decide
  have hpad : samplePacket.header.padding = true ↔ 1 ≤ samplePacket.header.paddingSize := by decide
  have hcc : samplePacket.header.csrc.length ≤ 15 := by decide
  have hvalid : (blockOf payload).Valid := by
    refine ⟨rfl, htype, hpad, fun h => absurd h.symm Bool.false_ne_true,
      fun _ _ => ⟨Nat.le_refl 1, ?_⟩⟩
    intro ext hext
    rw [mem_singleton.mp hext]
    exact ⟨rfl, ne_nil_of_length_pos (Nat.zero_lt_of_lt hlong), hdvd⟩
  refine ⟨hvalid, _, marshal_of_writes _ hvalid _ hcc rfl, fun h => ?_⟩
  have hl := (unmarshal_writes_iff _ hvalid hcc _ rfl).mp h
  have hsize : (blockOf payload).header.extensionSize = payload.length := Nat.add_zero _
  have hle := (hl rfl).1
  omega

/-- An empty element is read as a terminator, and the length of a block of 65536
    words as 0. -/
theorem unmarshal_marshal_rtp_fails :
    (emptyElement.Valid ∧ ∃ d, emptyElement.marshal = .ok d ∧ unmarshalRTP d ≠ .ok emptyElement) ∧
    ((blockOf (zeros 262144)).Valid ∧ ∃ d, (blockOf (zeros 262144)).marshal = .ok d ∧
      unmarshalRTP d ≠ .ok (blockOf (zeros 262144))) := by
  have hempty : emptyElement.Valid :=
    valid_of_oneByte _ rfl (by decide) (by decide) rfl rfl
  refine ⟨⟨hempty, _, marshal_of_writes _ hempty _ (by decide) rfl, fun h => ?_⟩,
    blockOf_lost _ (by rw [length_zeros]; decide) (by rw [length_zeros]; decide)⟩
  have hl := (unmarshal_writes_iff _ hempty (by decide) _ rfl).mp h
  exact (hl rfl).2 rfl ⟨[], 1⟩ (by decide) rfl

/-! ### What the decoder accepts -/

/-- A block of `n` bytes has given some elements. -/
def FoundIn (profile : UInt16) (ok : RTPExtension → Prop) (n : Nat) (acc exts : List RTPExtension) :
    Prop :=
  ∃ found, exts = acc ++ found ∧ (∀ ext ∈ found, ok ext) ∧
    (found.map (RTPExtension.size profile)).sum ≤ n

namespace FoundIn

variable {profile : UInt16} {ok : RTPExtension → Prop} {m n : Nat} {acc exts : List RTPExtension}

theorem none (acc : List RTPExtension) (n : Nat) : FoundIn profile ok n acc acc :=
  ⟨[], (append_nil acc).symm, fun _ hext => absurd hext not_mem_nil, Nat.zero_le n⟩

theorem mono (h : FoundIn profile ok m acc exts) (hle : m ≤ n) : FoundIn profile ok n acc exts := by
  rcases h with ⟨found, hexts, hok, hsum⟩
  exact ⟨found, hexts, hok, Nat.le_trans hsum hle⟩

theorem cons {ext : RTPExtension} (h : FoundIn profile ok m (acc ++ [ext]) exts) (hext : ok ext)
    (hle : ext.size profile + m ≤ n) : FoundIn profile ok n acc exts := by
  rcases h with ⟨found, hexts, hok, hsum⟩
  refine ⟨ext :: found, ?_, ?_, ?_⟩
  · rw [hexts, append_assoc]
    rfl
  · intro e he
    rcases mem_cons.mp he with rfl | he
    · exact hext
    · exact hok e he
  · rw [map_cons, sum_cons]
    omega

end FoundIn

variable (fuel : Nat) (profile : UInt16) (data : Bytes) (exts : List RTPExtension)

theorem unmarshalOneByteExtensions_found (acc exts : List RTPExtension)
    (h : unmarshalOneByteExtensions fuel data acc = .ok exts) : FoundIn extensionProfileOneByte
      (fun ext => ext.id < 15 ∧ ext.payload ≠ [] ∧ ext.payload.length ≤ 16) data.length acc exts := by
  fun_induction unmarshalOneByteExtensions fuel data acc with
  | case1 fuel acc | case2 b data acc | case4 fuel b data acc hzero id hend =>
    exact Except.ok.inj h ▸ .none acc _
  | case3 fuel data acc ih => exact (ih h).mono (Nat.le_succ _)
  | case5 fuel b data acc hzero id hend n hshort => contradiction
  | case6 fuel b data acc hzero id hend n hroom ih =>
    have hlen : (data.take n).length = n := by
      rw [length_take]
      omega
    have hbyte : ∀ b : UInt8, (b &&& 0x0F).toNat < 16 ∧ (b >>> 4 ≠ 0x0F → b >>> 4 < 15) :=
      forall_uint8 (by decide +kernel)
    have hn : n = (b &&& 0x0F).toNat + 1 := rfl
    have hlt := (hbyte b).1
    refine (ih h).cons ⟨(hbyte b).2 hend, ?_, ?_⟩ ?_
    · refine ne_nil_of_length_pos ?_
      dsimp only
      omega
    · dsimp only
      omega
    · rw [RTPExtension.size, if_pos rfl, length_drop, length_cons]
      dsimp only
      omega

theorem unmarshalTwoByteExtensions_found (acc exts : List RTPExtension)
    (h : unmarshalTwoByteExtensions fuel data acc = .ok exts) :
    FoundIn extensionProfileTwoByte (fun ext => ext.id ≠ 0 ∧ ext.payload.length ≤ 255)
      data.length acc exts := by
  fun_induction unmarshalTwoByteExtensions fuel data acc with
  | case1 fuel acc | case2 b data acc => exact Except.ok.inj h ▸ .none acc _
  | case3 fuel data acc ih => exact (ih h).mono (Nat.le_succ _)
  | case4 fuel id acc hid => cases h
  | case5 fuel id acc hid len data hshort => cases h
  | case6 fuel id acc hid len data hroom ih =>
    have hbyte := len.toNat_lt
    have hlen : (data.take len.toNat).length = len.toNat := by
      rw [length_take]
      omega
    refine (ih h).cons ⟨hid, ?_⟩ ?_
    · dsimp only
      omega
    · rw [RTPExtension.size, if_neg (by decide), if_pos rfl, length_drop,
        length_cons, length_cons]
      dsimp only
      omega

/-- The profile and the elements of an extension that was accepted. -/
structure AcceptedBlock (profile : UInt16) (exts : List RTPExtension) : Prop where
  room : (exts.map (RTPExtension.size profile)).sum ≤ 65535 * 4
  oneByte : profile = extensionProfileOneByte →
    ∀ ext ∈ exts, ext.id < 15 ∧ ext.payload ≠ [] ∧ ext.payload.length ≤ 16
  twoByte : profile = extensionProfileTwoByte →
    ∀ ext ∈ exts, ext.id ≠ 0 ∧ ext.payload.length ≤ 255
  other : profile ≠ extensionProfileOneByte → profile ≠ extensionProfileTwoByte →
    exts.length ≤ 1 ∧ ∀ ext ∈ exts, ext.id = 0 ∧ ext.payload ≠ [] ∧ 4 ∣ ext.payload.length

theorem acceptedBlock_nil : AcceptedBlock profile [] where
  room := Nat.zero_le _
  oneByte _ := fun _ hext => nomatch hext
  twoByte _ := fun _ hext => nomatch hext
  other _ _ := ⟨Nat.zero_le _, fun _ hext => nomatch hext⟩

theorem acceptedBlock_of_unmarshal (hdvd : 4 ∣ data.length) (hle : data.length ≤ 65535 * 4)
    (h : unmarshalExtensions profile data = .ok exts) : AcceptedBlock profile exts := by
  unfold unmarshalExtensions at h
  split at h
  · rename_i hp
    rcases unmarshalOneByteExtensions_found _ _ _ _ h with ⟨found, hfound, hok, hsum⟩
    rw [nil_append] at hfound
    rw [hp, hfound]
    exact ⟨Nat.le_trans hsum hle, fun _ => hok, fun hc => absurd hc (by decide),
      fun hc => absurd rfl hc⟩
  · rename_i hp1
    split at h
    · rename_i hp
      rcases unmarshalTwoByteExtensions_found _ _ _ _ h with ⟨found, hfound, hok, hsum⟩
      rw [nil_append] at hfound
      rw [hp, hfound]
      exact ⟨Nat.le_trans hsum hle, fun hc => absurd hc (by decide), fun _ => hok,
        fun _ hc => absurd rfl hc⟩
    · rename_i hp2
      split at h
      · exact Except.ok.inj h ▸ acceptedBlock_nil profile
      · rename_i hne
        rw [← Except.ok.inj h]
        refine ⟨?_, fun hc => absurd hc hp1, fun hc => absurd hc hp2,
          fun _ _ => ⟨Nat.le_refl 1, ?_⟩⟩
        · rw [map_cons, map_nil, sum_cons, sum_nil, RTPExtension.size, if_neg hp1,
            if_neg hp2]
          exact hle
        · intro ext hext
          rw [mem_singleton.mp hext]
          exact ⟨rfl, hne, hdvd⟩

theorem acceptedBlock_of_block (n m : Nat) (profile : UInt16) (exts : List RTPExtension)
    (h : unmarshalExtensionBlock data n = .ok (m, profile, exts)) : AcceptedBlock profile exts := by
  rcases check_eq_ok h with ⟨-, h⟩
  rcases check_eq_ok h with ⟨hroom, h⟩
  rcases map_eq_ok h with ⟨found, hexts, hres⟩
  cases hres
  have hlt := (uint16 (data.drop (n + 2))).toNat_lt
  refine acceptedBlock_of_unmarshal _ _ _ ?_ ?_ hexts
  all_goals rw [length_take, length_drop]
  all_goals omega

/-- A padded packet has the size of its padding in its last byte. -/
theorem paddingSize_of_unmarshal (padding : Bool) (data : Bytes) (n fin : Nat) (size : UInt8)
    (h : unmarshalPadding padding data n = .ok (fin, size)) : padding = true ↔ 1 ≤ size := by
  cases padding with
  | false =>
    rw [← (Prod.mk.inj (Except.ok.inj h)).2]
    exact iff_of_false Bool.false_ne_true (by decide)
  | true =>
    rcases check_eq_ok h with ⟨-, h⟩
    rcases check_eq_ok h with ⟨hne, h⟩
    rcases check_eq_ok h with ⟨-, h⟩
    rw [← (Prod.mk.inj (Except.ok.inj h)).2]
    refine iff_of_true rfl (UInt8.le_iff_toNat_le.mpr ?_)
    exact Nat.pos_of_ne_zero (fun hzero => hne (UInt8.toNat_inj.mp hzero))

/-- A packet that `UnmarshalRTP` accepts is in the domain of the encoder but for
    the IDs of its elements. -/
theorem accepted_of_unmarshal (d : Bytes) (p : RTPPacket) (h : unmarshalRTP d = .ok p) :
    p.Valid ∧ p.header.csrc.length ≤ 15 ∧
      AcceptedBlock p.header.extensionProfile p.header.extensions := by
  rcases check_eq_ok h with ⟨-, h⟩
  rcases check_eq_ok h with ⟨hversion, h⟩
  rcases guard_eq_ok h with ⟨-, h⟩
  let h0 := unmarshalFixedHeader d
  have hb : ∀ b : UInt8, (b &&& 0x0F).toNat ≤ 15 ∧ b &&& 0x7F ≤ 127 :=
    forall_uint8 (by decide +kernel)
  have hcc : h0.csrc.length ≤ 15 := Nat.le_trans (Nat.le_of_eq (length_uint32s _ _)) (hb _).1
  unfold unmarshalVariablePart at h
  dsimp only at h
  split at h
  · injection h
  · rename_i n profile exts hblock
    split at h
    · injection h
    · rename_i fin size hpad
      have haccepted : AcceptedBlock profile exts ∧
          (h0.extension = false → exts = [] ∧ profile = 0) := by
        cases hext : h0.extension with
        | true =>
          rw [hext, if_pos rfl] at hblock
          exact ⟨acceptedBlock_of_block _ _ _ _ _ hblock, fun hc => nomatch hc.symm⟩
        | false =>
          rw [hext, if_neg Bool.false_ne_true, Except.ok.injEq, Prod.mk.injEq,
            Prod.mk.injEq] at hblock
          rw [← hblock.2.1, ← hblock.2.2]
          exact ⟨acceptedBlock_nil 0, fun _ => ⟨rfl, rfl⟩⟩
      rw [← Except.ok.inj h]
      exact ⟨⟨not_not.mp hversion, (hb _).2, paddingSize_of_unmarshal _ _ _ _ _ hpad,
        haccepted.2, haccepted.1.other⟩, hcc, haccepted.1⟩

theorem oneByteWrites_ok_iff
    (hexts : ∀ ext ∈ exts, ext.id < 15 ∧ ext.payload ≠ [] ∧ ext.payload.length ≤ 16) :
    (∃ ws, oneByteWrites exts = .ok ws) ↔ ∀ ext ∈ exts, ext.id ≠ 0 := by
  induction exts with
  | nil => exact iff_of_true ⟨[], rfl⟩ (fun _ hext => nomatch hext)
  | cons ext exts ih =>
    have hrest := ih (fun e he => hexts e (mem_cons_of_mem ext he))
    rcases hexts ext mem_cons_self with ⟨hid, _, hlen⟩
    constructor
    · rintro ⟨ws, hws⟩ e he
      rcases oneByteWrites_cons ext exts ws hws with ⟨hvalid, _, vs, hvs, _⟩
      rcases mem_cons.mp he with rfl | he
      · exact fun hzero => hvalid (.inl hzero)
      · exact hrest.mp ⟨vs, hvs⟩ e he
    · intro h
      rcases hrest.mpr (fun e he => h e (mem_cons_of_mem ext he)) with ⟨vs, hvs⟩
      have hvalid : ¬ (ext.id = 0 ∨ 15 ≤ ext.id) := by
        rintro (hzero | hlarge)
        · exact h ext mem_cons_self hzero
        · exact absurd hid (UInt8.not_lt.mpr hlarge)
      rw [oneByteWrites, if_neg hvalid, if_neg (Nat.not_lt.mpr hlen), hvs]
      exact ⟨_, rfl⟩

theorem twoByteWrites_ok (hexts : ∀ ext ∈ exts, ext.id ≠ 0 ∧ ext.payload.length ≤ 255) :
    ∃ ws, twoByteWrites exts = .ok ws := by
  induction exts with
  | nil => exact ⟨[], rfl⟩
  | cons ext exts ih =>
    rcases ih (fun e he => hexts e (mem_cons_of_mem ext he)) with ⟨vs, hvs⟩
    rcases hexts ext mem_cons_self with ⟨hid, hlen⟩
    rw [twoByteWrites, if_neg hid, if_neg (Nat.not_lt.mpr hlen), hvs]
    exact ⟨_, rfl⟩

/-- The elements of an accepted extension can be encoded unless the one-byte
    profile has an element with ID 0. -/
theorem elementWrites_ok_iff (h : RTPHeader) (hb : AcceptedBlock h.extensionProfile h.extensions) :
    (∃ ws, h.elementWrites = .ok ws) ↔
      (h.extensionProfile = extensionProfileOneByte → ∀ ext ∈ h.extensions, ext.id ≠ 0) := by
  unfold RTPHeader.elementWrites
  by_cases hp1 : h.extensionProfile = extensionProfileOneByte
  · rw [if_pos hp1, oneByteWrites_ok_iff _ (hb.oneByte hp1)]
    exact ⟨fun hall _ => hall, fun hall => hall hp1⟩
  · rw [if_neg hp1]
    refine iff_of_true ?_ (fun hc => absurd hc hp1)
    by_cases hp2 : h.extensionProfile = extensionProfileTwoByte
    · rw [if_pos hp2]
      exact twoByteWrites_ok _ (hb.twoByte hp2)
    · rw [if_neg hp2]
      have hone := (hb.other hp1 hp2).1
      unfold profileWrites
      split
      · exact ⟨_, rfl⟩
      · exact ⟨_, rfl⟩
      · rename_i hnone hsome
        rcases hexts : h.extensions with _ | ⟨ext, _ | ⟨ext', exts⟩⟩
        · exact absurd hexts hnone
        · exact absurd hexts (hsome ext)
        · rw [hexts, length_cons, length_cons] at hone
          omega

/-- What `UnmarshalRTP` accepts is encoded and decoded to the same packet if and
    only if no element with the one-byte profile has ID 0. -/
theorem marshal_unmarshal_rtp_iff (d : Bytes) (p : RTPPacket) (h : unmarshalRTP d = .ok p) :
    (∃ d', p.marshal = .ok d' ∧ unmarshalRTP d' = .ok p) ↔
      (p.header.extensionProfile = extensionProfileOneByte →
        ∀ ext ∈ p.header.extensions, ext.id ≠ 0) := by
  rcases accepted_of_unmarshal d p h with ⟨hvalid, hcc, hblock⟩
  have hlossless : p.Lossless :=
    fun _ => ⟨hblock.room, fun hp ext hext => (hblock.oneByte hp ext hext).2.1⟩
  rw [← elementWrites_ok_iff p.header hblock]
  constructor
  · rintro ⟨d', hd, _⟩
    rcases writes_of_marshal p d' hd with ⟨_, ws, hws⟩
    rcases extensionWrites_cases p.header ws hws with ⟨hext, -⟩ | ⟨-, vs, hvs, -⟩
    · -- There are no elements and the profile is 0.
      rcases hvalid.noExtension hext with ⟨hnone, hprofile⟩
      refine ⟨[], ?_⟩
      rw [RTPHeader.elementWrites, hnone, hprofile]
      rfl
    · exact ⟨vs, hvs⟩
  · rintro ⟨vs, hvs⟩
    have hws : ∃ ws, p.header.extensionWrites = .ok ws := by
      unfold RTPHeader.extensionWrites
      split
      · rw [hvs]
        exact ⟨_, rfl⟩
      · exact ⟨[], rfl⟩
    rcases hws with ⟨ws, hws⟩
    exact ⟨_, marshal_of_writes p hvalid ws hcc hws,
      (unmarshal_writes_iff p hvalid hcc ws hws).mpr hlossless⟩

theorem marshal_unmarshal_rtp_sampleBytes :
    unmarshalRTP sampleBytes = .ok samplePacket ∧
      ∃ d, samplePacket.marshal = .ok d ∧ unmarshalRTP d = .ok samplePacket := by
  have h : unmarshalRTP sampleBytes = .ok samplePacket := by decide +kernel
  exact ⟨h, (marshal_unmarshal_rtp_iff sampleBytes samplePacket h).mpr (fun _ => by decide)⟩

/-- A packet with an element whose header byte is `0x03`. -/
def zeroIDBytes : Bytes :=
  [0x90, 0, 0, 1, 0, 0, 0, 2, 0, 0, 0, 3, 0xBE, 0xDE, 0, 2, 0x03, 1, 2, 3, 4, 0, 0, 0]

/-- An element with ID 0 is accepted by the decoder and refused by the encoder. -/
theorem marshal_unmarshal_rtp_fails :
    ∃ p, unmarshalRTP zeroIDBytes = .ok p ∧ p.header.extensions = [⟨[1, 2, 3, 4], 0⟩] ∧
      p.marshal = unmarshalErrorf (ascii "rtp: one-byte extension ID must be 1-14") := by
  have hex : (unmarshalRTP zeroIDBytes).toOption.any (fun p =>
      decide (p.header.extensions = [⟨[1, 2, 3, 4], 0⟩]) &&
        decide (p.marshal = unmarshalErrorf (ascii "rtp: one-byte extension ID must be 1-14"))) =
      true := by decide +kernel
  rcases (Option.any_eq_true _ _).mp hex with ⟨p, hp, hall⟩
  rw [Bool.and_eq_true, decide_eq_true_eq, decide_eq_true_eq] at hall
  refine ⟨p, ?_, hall⟩
  cases hd : unmarshalRTP zeroIDBytes with
  | error e =>
    rw [hd] at hp
    cases hp
  | ok q =>
    rw [hd] at hp
    rw [some.inj hp]

end Proto

end Trecs
