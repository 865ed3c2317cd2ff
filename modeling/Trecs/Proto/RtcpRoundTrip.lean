import Trecs.Proto.Rtcp

/-!
# RTCP Round Trips

What `UnmarshalRTCP` finds in what `MarshalRTCP` wrote, and what `MarshalRTCP`
makes of packets that `UnmarshalRTCP` found.

Both rest on one statement, `unmarshal_marshalRTCP`: packets that the format has
room for are found again, each as `reread` says. The headers are those of the
encoder, and the data of an application-defined packet are cut by their padding
once more. For each kind of packet there is one lemma on its bytes without the
header and one on its decoder.

In the other direction `accepted_of_unmarshalPackets` says that the decoder
returns only packets with room in the format. A source description may come back
longer than it was: a chunk may end with the packet, and the encoder ends it
with a zero. The padding of an application-defined packet is taken off and its
flag is kept, so the data have to end in a byte that is not a count of padding.

## Main definitions

* `RTCPPacket.Shaped`, `RTCPPacket.Encodable`: Room in the format.
* `RTCPPacket.reread`: What the decoder makes of an encoded packet.
* `RTCPPacket.Kept`, `Unpadded`: Data that stay as they are.
* `RTCPPacket.Accepted`: What the decoder says about a packet.

## Theorems

* `RTCPPacket.Shaped.unmarshalPacket_put`: One packet.
* `unmarshal_marshalRTCP`: A list of packets.
* `accepted_of_unmarshalPackets`: What is accepted.
* `unmarshal_marshal_rtcp`: Encoding first.
* `marshal_unmarshal_rtcp_iff`: Decoding first.
-/

namespace Trecs

open List Option

namespace Proto

/-! ### Headers -/

/-- The first byte of an encoded header. -/
theorem rtcpFirstByte_fields (padding : Bool) (count : UInt8) (hcount : count.toNat ≤ 31) :
    rtcpFirstByte padding count >>> 6 &&& 0x03 = 2 ∧
      decide ((rtcpFirstByte padding count >>> 5) &&& 0x01 ≠ 0) = padding ∧
      rtcpFirstByte padding count &&& 0x1F = count := by
  have hall : ∀ (n : Fin 32) (pad : Bool), let b := rtcpFirstByte pad (UInt8.ofNat n)
      b >>> 6 &&& 0x03 = 2 ∧ decide ((b >>> 5) &&& 0x01 ≠ 0) = pad ∧
        b &&& 0x1F = UInt8.ofNat n := by decide +kernel
  have hb := hall ⟨count.toNat, by omega⟩ padding
  rw [UInt8.ofNat_toNat] at hb
  exact hb

/-- The four bytes of a header. -/
theorem length_marshalHeaderTo (padding : Bool) (count typ : UInt8) (length : UInt16) :
    (writeText (marshalHeaderTo padding count typ length)).length = 4 := by
  rw [marshalHeaderTo]
  simp only [writeText_append, writeText_stores, length_append, length_putUint16]
  rfl

theorem unmarshalRTCPHeader_put (padding : Bool) (count typ : UInt8) (length : UInt16)
    (hcount : count.toNat ≤ 31) (rest : Bytes) :
    unmarshalRTCPHeader (writeText (marshalHeaderTo padding count typ length) ++ rest) =
      .ok ⟨padding, count, typ, length⟩ := by
  rcases rtcpFirstByte_fields padding count hcount with ⟨hversion, hpad, hc⟩
  let b := rtcpFirstByte padding count
  have htext : writeText (marshalHeaderTo padding count typ length) ++ rest =
      b :: typ :: (putUint16 length ++ rest) := by
    rw [marshalHeaderTo]
    simp only [writeText_append, writeText_stores, append_assoc]
    rfl
  have h2 : (b :: typ :: (putUint16 length ++ rest)).drop 2 = putUint16 length ++ rest := rfl
  have hlen : ¬ (b :: typ :: (putUint16 length ++ rest)).length < 4 := by
    simp only [length_cons, length_append, length_putUint16]
    omega
  rw [htext, unmarshalRTCPHeader, if_neg hlen, h2]
  simp only [getD_cons_zero, getD_cons_succ, uint16_put, b, hversion, hpad, hc]
  exact if_neg (not_not.mpr rfl)

section Packets

variable {padding : Bool} {count typ : UInt8} {sz : Nat} {body : List Write}

theorem length_packetWrites (h : 4 + (writeText body).length ≤ sz) :
    (writeText (packetWrites padding count typ sz body)).length = sz := by
  rw [packetWrites]
  simp only [writeText_append, writeText_stores, length_append, length_marshalHeaderTo,
    length_zeros]
  omega

/-- The body of a packet, with the zeros behind it. -/
theorem drop_packetWrites :
    (writeText (packetWrites padding count typ sz body)).drop 4 =
      writeText body ++ zeros (sz - (4 + (writeText body).length)) := by
  rw [packetWrites, writeText_append, writeText_append, writeText_stores, append_assoc]
  exact drop_left' (length_marshalHeaderTo ..)

/-- A packet in front of others is cut off by its length. -/
theorem unmarshalPackets_put (hcount : count.toNat ≤ 31) (hroom : 4 ≤ sz)
    (hlen : (writeText (packetWrites padding count typ sz body)).length = sz) (haligned : 4 ∣ sz)
    (hshort : sz ≤ 2 ^ 18) (pkt : RTCPPacket)
    (hpkt : unmarshalPacket ⟨padding, count, typ, UInt16.ofNat (sz / 4 - 1)⟩
      (writeText (packetWrites padding count typ sz body)) = .ok pkt) (fuel : Nat) (rest : Bytes) :
    unmarshalPackets (fuel + 1) (writeText (packetWrites padding count typ sz body) ++ rest) =
      (unmarshalPackets fuel rest).map (fun pkts => pkt :: pkts) := by
  let text := writeText (packetWrites padding count typ sz body)
  have htext : text.length = sz := hlen
  have hwords : (UInt16.ofNat (sz / 4 - 1)).toNat = sz / 4 - 1 := by
    rw [UInt16.toNat_ofNat']
    omega
  have hpktLen : ((UInt16.ofNat (sz / 4 - 1)).toNat + 1) * 4 = sz := by
    rw [hwords]
    omega
  have hne : ¬ text ++ rest = [] := by
    intro hnil
    rw [(append_eq_nil_iff.mp hnil).1, length_nil] at htext
    omega
  have hhdr : unmarshalRTCPHeader (text ++ rest) =
      .ok ⟨padding, count, typ, UInt16.ofNat (sz / 4 - 1)⟩ := by
    simp only [text, packetWrites, writeText_append, append_assoc]
    exact unmarshalRTCPHeader_put padding count typ _ hcount _
  rw [unmarshalPackets, if_neg hne, if_neg (by rw [length_append, htext]; omega), hhdr]
  simp only [hpktLen]
  rw [if_neg (by rw [length_append, htext]; omega), take_left' htext, hpkt,
    drop_left' htext]

end Packets

/-! ### Reports -/

/-- The bytes of a report. -/
def ReceptionReport.text (rr : ReceptionReport) : Bytes := writeText (marshalReceptionReportTo rr)

section Bodies

variable (item : SourceDescriptionItem) (chunk : SourceDescriptionChunk)
  (items : List SourceDescriptionItem) (rr : ReceptionReport) (p : SourceDescription)

theorem ReceptionReport.text_eq :
    rr.text = putUint32 rr.ssrc ++ ([rr.fractionLost] ++ (putBE 3 rr.totalLost.toNat ++
      (putUint32 rr.lastSequenceNumber ++ (putUint32 rr.jitter ++
        (putUint32 rr.lastSenderReport ++ putUint32 rr.delay))))) := by
  rw [text, marshalReceptionReportTo]
  simp only [writeText_append, writeText_stores, append_assoc]
  rfl

@[simp] theorem ReceptionReport.length_text : rr.text.length = 24 := by
  rw [text_eq]
  simp

theorem unmarshalReceptionReport_put (hlost : rr.totalLost.toNat < 2 ^ 24) (rest : Bytes) :
    unmarshalReceptionReport (rr.text ++ rest) = .ok rr := by
  have hlen : ¬ (rr.text ++ rest).length < 24 := by
    rw [length_append, rr.length_text]
    omega
  have hfraction : (rr.text ++ rest).getD 4 0 = rr.fractionLost := by
    rw [rr.text_eq, append_assoc]
    exact getD_of_drop (drop_left' (length_putUint32 _))
  have htotal : UInt32.ofNat (getBE (putBE 3 rr.totalLost.toNat)) = rr.totalLost := by
    rw [getBE_putBE_of_lt 3 _ hlost, UInt32.ofNat_toNat]
  rw [unmarshalReceptionReport, if_neg hlen, hfraction, rr.text_eq]
  simp [drop_putBE 3, uint32_put, htotal]

/-- The reports of a packet are found at their offset. -/
theorem unmarshalReports_put (what : Bytes) (reports : List ReceptionReport)
    (hlost : ∀ rr ∈ reports, rr.totalLost.toNat < 2 ^ 24) (i : Nat) (body rest : Bytes) (off : Nat)
    (hbody : body.drop off = reports.flatMap ReceptionReport.text ++ rest) :
    unmarshalReports what reports.length i body off = .ok (reports, off + reports.length * 24) := by
  induction reports generalizing i off with
  | nil => rfl
  | cons rr reports ih =>
    rw [flatMap_cons, append_assoc] at hbody
    have hlen : off + 24 ≤ body.length := by
      have hl := congrArg List.length hbody
      rw [length_drop, length_append, ReceptionReport.length_text] at hl
      omega
    have hnext : body.drop (off + 24) = reports.flatMap ReceptionReport.text ++ rest :=
      drop_behind hbody (ReceptionReport.length_text rr)
    have hrest := ih (fun r hr => hlost r (mem_cons_of_mem rr hr)) (i + 1) (off + 24) hnext
    rw [length_cons, unmarshalReports, if_neg (by omega), hbody,
      unmarshalReceptionReport_put rr (hlost rr mem_cons_self), hrest]
    simp only [Except.map]
    rw [Nat.add_assoc, Nat.add_mul, Nat.one_mul, Nat.add_comm 24]

theorem length_flatMap_text (reports : List ReceptionReport) :
    (reports.flatMap ReceptionReport.text).length = reports.length * 24 :=
  length_flatMap_const _ 24 ReceptionReport.length_text reports

theorem toNat_ofNat_count (n : Nat) (h : n ≤ 31) : (UInt8.ofNat n).toNat = n := by
  rw [UInt8.toNat_ofNat']
  omega

/-! ### Source descriptions -/

/-- The bytes of an item. -/
def SourceDescriptionItem.bytes (item : SourceDescriptionItem) : Bytes := writeText item.writes

theorem SourceDescriptionItem.bytes_eq :
    item.bytes = item.type :: UInt8.ofNat item.text.length :: item.text :=
  congrArg (fun t => item.type :: UInt8.ofNat item.text.length :: t) (append_nil item.text)

theorem SourceDescriptionItem.length_bytes : item.bytes.length = 2 + item.text.length := by
  rw [bytes_eq, length_cons, length_cons]
  omega

theorem length_flatMap_bytes : (items.flatMap SourceDescriptionItem.bytes).length =
      (items.map (fun item => 2 + item.text.length)).sum := by
  rw [length_flatMap]
  exact congrArg List.sum (map_congr_left (fun item _ => item.length_bytes))

/-- An item that can be told from the end of a chunk, with its length in a byte. -/
def SourceDescriptionItem.Ok (item : SourceDescriptionItem) : Prop :=
  item.type ≠ 0 ∧ item.text.length ≤ 255

instance (item : SourceDescriptionItem) : Decidable item.Ok :=
  inferInstanceAs (Decidable (item.type ≠ 0 ∧ item.text.length ≤ 255))

/-- The items of a chunk are found at their offset, up to the end marker. -/
theorem unmarshalItems_put (hitems : ∀ item ∈ items, item.Ok) (fuel : Nat) (body rest : Bytes)
    (off : Nat) (acc : List SourceDescriptionItem) (hfuel : items.length < fuel)
    (hbody : body.drop off = items.flatMap SourceDescriptionItem.bytes ++ 0 :: rest) :
    unmarshalItems fuel body off acc =
      .ok (acc ++ items, off + (items.flatMap SourceDescriptionItem.bytes).length + 1) := by
  induction items generalizing fuel off acc with
  | nil =>
    cases fuel with
    | zero => contradiction
    | succ fuel =>
      rw [flatMap_nil, nil_append] at hbody
      have hlen : ¬ body.length ≤ off := by
        have hl := congrArg List.length hbody
        rw [length_drop, length_cons] at hl
        omega
      rw [unmarshalItems, if_neg hlen, if_pos (getD_of_drop hbody), append_nil]
      rfl
  | cons item items ih =>
    cases fuel with
    | zero => contradiction
    | succ fuel =>
      rcases hitems item mem_cons_self with ⟨htype, htext⟩
      rw [flatMap_cons, append_assoc] at hbody
      let tail := items.flatMap SourceDescriptionItem.bytes ++ 0 :: rest
      have hlen : off + (2 + item.text.length) ≤ body.length := by
        have hl := congrArg List.length hbody
        rw [length_drop, length_append, item.length_bytes] at hl
        omega
      have hfront : body.drop off =
          item.type :: UInt8.ofNat item.text.length :: (item.text ++ tail) := by
        rw [hbody, item.bytes_eq]
        rfl
      have h1 : body.drop (off + 1) = UInt8.ofNat item.text.length :: (item.text ++ tail) := by
        rw [← drop_drop, hfront]
        rfl
      have h2 : body.drop (off + 2) = item.text ++ tail := by
        rw [← drop_drop, hfront]
        rfl
      have hcount : (UInt8.ofNat item.text.length).toNat = item.text.length := by
        rw [UInt8.toNat_ofNat']
        omega
      have hnext : body.drop (off + 2 + item.text.length) = tail := drop_behind h2 rfl
      have hrest := ih (fun i hi => hitems i (mem_cons_of_mem item hi)) fuel
        (off + 2 + item.text.length) (acc ++ [item]) (Nat.lt_of_succ_lt_succ hfuel) hnext
      rw [unmarshalItems, if_neg (by omega), getD_of_drop hfront, if_neg htype,
        if_neg (by omega), getD_of_drop h1]
      simp only [hcount]
      rw [if_neg (by omega), h2, take_left, hrest, flatMap_cons, length_append,
        item.length_bytes, append_assoc]
      simp only [Except.ok.injEq, Prod.mk.injEq, singleton_append, true_and]
      omega

/-- The bytes of a chunk. -/
def SourceDescriptionChunk.bytes (chunk : SourceDescriptionChunk) : Bytes := writeText chunk.writes

theorem SourceDescriptionChunk.bytes_eq :
    chunk.bytes = putUint32 chunk.source ++ (chunk.items.flatMap SourceDescriptionItem.bytes ++
      0 :: zeros (roundUp chunk.size - chunk.size)) := by
  rw [bytes, writes]
  simp only [writeText_append, writeText_stores, writeText_flatMap, append_assoc]
  rfl

theorem SourceDescriptionChunk.length_bytes : chunk.bytes.length = roundUp chunk.size := by
  have hround : chunk.size ≤ roundUp chunk.size := by
    unfold roundUp
    omega
  have hsize : chunk.size = 4 + (chunk.items.flatMap SourceDescriptionItem.bytes).length + 1 := by
    rw [length_flatMap_bytes]
    rfl
  rw [bytes_eq]
  simp only [length_append, length_cons, length_putUint32, length_zeros]
  omega

/-- The chunks of a packet are found one behind the other. -/
theorem unmarshalChunks_put (chunks : List SourceDescriptionChunk)
    (hitems : ∀ chunk ∈ chunks, ∀ item ∈ chunk.items, item.Ok) (i : Nat) (body rest : Bytes)
    (off : Nat) (hoff : 4 ∣ off)
    (hbody : body.drop off = chunks.flatMap SourceDescriptionChunk.bytes ++ rest) :
    unmarshalChunks chunks.length i body off = .ok chunks := by
  induction chunks generalizing i off with
  | nil => rfl
  | cons chunk chunks ih =>
    rw [flatMap_cons, append_assoc] at hbody
    have hsize : chunk.size =
        4 + (chunk.items.flatMap SourceDescriptionItem.bytes).length + 1 := by
      rw [length_flatMap_bytes]
      rfl
    have hround : chunk.size ≤ roundUp chunk.size ∧ 4 ∣ roundUp chunk.size := by
      unfold roundUp
      omega
    have hlen : off + roundUp chunk.size ≤ body.length := by
      have hl := congrArg List.length hbody
      rw [length_drop, length_append, chunk.length_bytes] at hl
      omega
    have hsource : uint32 (body.drop off) = chunk.source := by
      rw [hbody, chunk.bytes_eq, append_assoc, uint32_put]
    have h4 : body.drop (off + 4) = chunk.items.flatMap SourceDescriptionItem.bytes ++
        0 :: (zeros (roundUp chunk.size - chunk.size) ++
          (chunks.flatMap SourceDescriptionChunk.bytes ++ rest)) := by
      rw [← drop_drop, hbody, chunk.bytes_eq, append_assoc,
        drop_left' (length_putUint32 _), append_assoc]
      rfl
    have hfuel : chunk.items.length < body.length := by
      have hmany : chunk.items.length ≤
          (chunk.items.map (fun item => 2 + item.text.length)).sum := by
        induction chunk.items with
        | nil => exact Nat.zero_le _
        | cons item items ih =>
          rw [length_cons, map_cons, sum_cons]
          omega
      rw [length_flatMap_bytes] at hsize
      omega
    have hfound := unmarshalItems_put chunk.items (hitems chunk mem_cons_self) body.length
      body _ (off + 4) [] hfuel h4
    have hnext : body.drop (off + roundUp chunk.size) =
        chunks.flatMap SourceDescriptionChunk.bytes ++ rest := drop_behind hbody chunk.length_bytes
    have halign :
        roundUp (off + 4 + (chunk.items.flatMap SourceDescriptionItem.bytes).length + 1) =
          off + roundUp chunk.size := by
      rw [← roundUp_add off chunk.size hoff, hsize]
      congr 1
      omega
    have hrest := ih (fun c hc => hitems c (mem_cons_of_mem chunk hc)) (i + 1)
      (off + roundUp chunk.size) (Nat.dvd_add hoff hround.2) hnext
    rw [length_cons, unmarshalChunks, if_neg (by omega), hfound]
    simp only [halign, hrest, Except.map, hsource, nil_append]

/-- `MarshalSize` counts every chunk up to its alignment. -/
theorem SourceDescription.marshalSize_eq :
    p.marshalSize = 4 + (p.chunks.flatMap SourceDescriptionChunk.bytes).length := by
  have hfold : ∀ (chunks : List SourceDescriptionChunk) (sz : Nat), 4 ∣ sz →
      chunks.foldl (fun sz chunk => roundUp (sz + chunk.size)) sz =
        sz + (chunks.flatMap SourceDescriptionChunk.bytes).length := by
    intro chunks
    induction chunks with
    | nil => exact fun sz _ => rfl
    | cons chunk chunks ih =>
      intro sz hsz
      have hround : 4 ∣ roundUp (sz + chunk.size) := by
        unfold roundUp
        omega
      rw [foldl_cons, ih _ hround, roundUp_add sz _ hsz, flatMap_cons,
        length_append, chunk.length_bytes, Nat.add_assoc]
  exact hfold p.chunks 4 (Nat.dvd_refl 4)

end Bodies

/-! ### Packets -/

namespace RTCPPacket

/-- The header record of a packet. -/
def header : RTCPPacket → RTCPHeader
  | sr p => p.hdr
  | rr p => p.hdr
  | sdes p => p.hdr
  | bye p => p.hdr
  | app p => p.hdr
  | raw p => p.headerField

/-- The count that is encoded. -/
def count : RTCPPacket → UInt8
  | sr p => UInt8.ofNat p.reports.length
  | rr p => UInt8.ofNat p.reports.length
  | sdes p => UInt8.ofNat p.chunks.length
  | bye p => UInt8.ofNat p.sources.length
  | app p => p.subType
  | raw p => p.headerField.count

/-- The type that is encoded. -/
def type : RTCPPacket → UInt8
  | sr _ => rtcpTypeSR
  | rr _ => rtcpTypeRR
  | sdes _ => rtcpTypeSDES
  | bye _ => rtcpTypeBYE
  | app _ => rtcpTypeAPP
  | raw p => p.headerField.type

/-- The header that is encoded. -/
def encodedHeader (p : RTCPPacket) : RTCPHeader :=
  ⟨p.header.padding, p.count, p.type, UInt16.ofNat (p.marshalSize / 4 - 1)⟩

/-- A packet with another header record. -/
def withHeader (hdr : RTCPHeader) : RTCPPacket → RTCPPacket
  | sr p => sr { p with hdr := hdr }
  | rr p => rr { p with hdr := hdr }
  | sdes p => sdes { p with hdr := hdr }
  | bye p => bye { p with hdr := hdr }
  | app p => app { p with hdr := hdr }
  | raw p => raw { p with headerField := hdr }

/-- A packet with the data that the decoder finds behind the name of an
    application-defined one. -/
def refill : RTCPPacket → RTCPPacket
  | app p =>
    let filled := p.data ++ zeros (roundUp p.data.length - p.data.length)
    app { p with data := stripPadding p.hdr.padding filled }
  | p => p

/-- What the decoder makes of an encoded packet. -/
def reread (p : RTCPPacket) : RTCPPacket := p.refill.withHeader p.encodedHeader

/-- A packet whose fields fit into their places. -/
def Shaped : RTCPPacket → Prop
  | sr p => p.reports.length ≤ 31 ∧ (∀ rr ∈ p.reports, rr.totalLost.toNat < 2 ^ 24) ∧
      4 ∣ p.profileExtensions.length
  | rr p => p.reports.length ≤ 31 ∧ (∀ rr ∈ p.reports, rr.totalLost.toNat < 2 ^ 24) ∧
      4 ∣ p.profileExtensions.length
  | sdes p => p.chunks.length ≤ 31 ∧ ∀ chunk ∈ p.chunks, ∀ item ∈ chunk.items, item.Ok
  | bye p => p.sources.length ≤ 31 ∧ p.reason.length ≤ 255
  | app p => p.subType.toNat ≤ 31 ∧ p.name.length = 4
  | raw p => p.headerField.count.toNat ≤ 31 ∧ 4 ∣ p.data.length ∧
      (p.headerField.type < 200 ∨ 204 < p.headerField.type)

/-- A packet that the format has room for. -/
structure Encodable (p : RTCPPacket) : Prop where
  shaped : p.Shaped
  short : p.marshalSize ≤ 2 ^ 18

variable {p : RTCPPacket}

theorem Shaped.count_le (h : p.Shaped) : p.count.toNat ≤ 31 := by
  cases p with
  | sr p | rr p | sdes p | bye p => exact (toNat_ofNat_count _ h.1).symm ▸ h.1
  | app p => exact h.1
  | raw p => exact h.1

/-- What stands behind the header, up to the zeros that fill the last word. -/
def body : RTCPPacket → Bytes
  | sr p => putUint32 p.ssrc ++ (putUint64 p.ntpTime ++ (putUint32 p.rtpTime ++
      (putUint32 p.packetCount ++ (putUint32 p.octetCount ++
        (p.reports.flatMap ReceptionReport.text ++ p.profileExtensions)))))
  | rr p => putUint32 p.ssrc ++ (p.reports.flatMap ReceptionReport.text ++ p.profileExtensions)
  | sdes p => p.chunks.flatMap SourceDescriptionChunk.bytes
  | bye p => p.sources.flatMap putUint32 ++
      (if p.reason ≠ [] then UInt8.ofNat p.reason.length :: p.reason else [])
  | app p => putUint32 p.ssrc ++ (p.name.take 4 ++ (zeros (4 - p.name.length) ++ p.data))
  | raw p => p.data

variable (p : RTCPPacket)

/-- Every packet is a header, a body and what fills it up. -/
theorem exists_body : ∃ ws, writeText ws = p.body ∧
    p.writes = packetWrites p.header.padding p.count p.type p.marshalSize ws := by
  cases p with
  | sr p | rr p | app p =>
    refine ⟨_, ?_, rfl⟩
    simp only [writeText_append, writeText_stores, writeText_flatMap, writeText_copy, append_assoc]
    rfl
  | sdes p => exact ⟨_, writeText_flatMap _ _, rfl⟩
  | bye p =>
    refine ⟨_, ?_, rfl⟩
    simp only [writeText_append, writeText_stores, writeText_flatMap, body]
    split
    · exact congrArg (fun t => _ ++ UInt8.ofNat p.reason.length :: t) (append_nil p.reason)
    · rfl
  | raw p => exact ⟨_, writeText_copy _, rfl⟩

/-- `MarshalSize` counts the body up to the end of its last word. -/
theorem marshalSize_eq : p.marshalSize = roundUp (4 + p.body.length) := by
  cases p with
  | sr p | rr p =>
    rw [body]
    simp only [length_append, length_putUint32, length_putUint64, length_flatMap_text]
    refine congrArg roundUp ?_
    omega
  | sdes p =>
    rw [roundUp_of_dvd _ ?_]
    · exact p.marshalSize_eq
    · rw [body, length_flatMap]
      refine Nat.dvd_add (Nat.dvd_refl 4) (dvd_sum (fun n hn => ?_))
      rcases List.mem_map.mp hn with ⟨chunk, _, rfl⟩
      rw [chunk.length_bytes]
      exact ⟨_, Nat.mul_comm _ _⟩
  | bye p =>
    rw [body, length_append, length_flatMap_const putUint32 4 length_putUint32]
    refine congrArg roundUp ?_
    split
    · rw [length_cons]
      omega
    · rfl
  | app p =>
    rw [body]
    simp only [length_append, length_putUint32, length_take, length_zeros]
    refine congrArg roundUp ?_
    omega
  | raw p => rfl

/-- The encoder writes as much as `MarshalSize` says. -/
theorem length_writes : (writeText p.writes).length = p.marshalSize := by
  rcases p.exists_body with ⟨ws, hws, hwrites⟩
  rw [hwrites]
  refine length_packetWrites ?_
  rw [hws, p.marshalSize_eq]
  exact le_roundUp _

theorem four_le_length_writes : 4 ≤ (writeText p.writes).length := by
  rw [p.length_writes, p.marshalSize_eq]
  exact (Nat.le_add_right _ _).trans (le_roundUp _)

theorem drop_writes : (writeText p.writes).drop 4 =
    p.body ++ zeros (p.marshalSize - (4 + p.body.length)) := by
  rcases p.exists_body with ⟨ws, hws, hwrites⟩
  rw [hwrites, drop_packetWrites, hws]

/-- A body of whole words fills its packet. -/
theorem drop_writes_full (h : 4 ∣ p.body.length) :
    (writeText p.writes).drop 4 = p.body ∧ (writeText p.writes).length = 4 + p.body.length := by
  have hsize : p.marshalSize = 4 + p.body.length := by
    rw [p.marshalSize_eq]
    exact roundUp_of_dvd _ (by omega)
  refine ⟨?_, p.length_writes.trans hsize⟩
  rw [p.drop_writes, hsize, Nat.sub_self]
  exact append_nil _

/-! ### The decoders -/

theorem unmarshalSenderReport_put (p : SenderReport) (hdr : RTCPHeader)
    (hcount : hdr.count.toNat = p.reports.length)
    (hlost : ∀ rr ∈ p.reports, rr.totalLost.toNat < 2 ^ 24)
    (hext : 4 ∣ p.profileExtensions.length) :
    unmarshalSenderReport hdr (writeText p.writes) = .ok { p with hdr := hdr } := by
  have hl : (sr p).body.length = 24 + p.reports.length * 24 + p.profileExtensions.length := by
    rw [body]
    simp only [length_append, length_putUint32, length_putUint64, length_flatMap_text]
    omega
  obtain ⟨hbody, hlen⟩ : (writeText p.writes).drop 4 = (sr p).body ∧ (writeText p.writes).length =
      4 + (sr p).body.length := drop_writes_full (sr p) (by omega)
  have h24 : (sr p).body.drop 24 = p.reports.flatMap ReceptionReport.text ++ p.profileExtensions := by
    simp [body, drop_putUint64]
  have hreports := unmarshalReports_put (ascii "sender report") p.reports hlost 0 _ _ 24 h24
  have hrest := drop_behind h24 (length_flatMap_text p.reports)
  rw [unmarshalSenderReport, if_neg (by omega)]
  simp only [hbody, hcount, hreports, Except.map, hrest]
  simp [body, drop_putUint64, uint32_put, uint64_put]

theorem unmarshalReceiverReport_put (p : ReceiverReport) (hdr : RTCPHeader)
    (hcount : hdr.count.toNat = p.reports.length)
    (hlost : ∀ rr ∈ p.reports, rr.totalLost.toNat < 2 ^ 24)
    (hext : 4 ∣ p.profileExtensions.length) :
    unmarshalReceiverReport hdr (writeText p.writes) = .ok { p with hdr := hdr } := by
  have hl : (rr p).body.length = 4 + p.reports.length * 24 + p.profileExtensions.length := by
    rw [body]
    simp only [length_append, length_putUint32, length_flatMap_text]
    omega
  obtain ⟨hbody, hlen⟩ : (writeText p.writes).drop 4 = (rr p).body ∧ (writeText p.writes).length =
      4 + (rr p).body.length := drop_writes_full (rr p) (by omega)
  have h4 : (rr p).body.drop 4 = p.reports.flatMap ReceptionReport.text ++ p.profileExtensions :=
    drop_putUint32 p.ssrc _ 0
  have hreports := unmarshalReports_put (ascii "receiver report") p.reports hlost 0 _ _ 4 h4
  have hrest := drop_behind h4 (length_flatMap_text p.reports)
  rw [unmarshalReceiverReport, if_neg (by omega)]
  simp only [hbody, hcount, hreports, Except.map, hrest]
  simp [body, uint32_put]

theorem unmarshalSourceDescription_put (p : SourceDescription) (hdr : RTCPHeader)
    (hcount : hdr.count.toNat = p.chunks.length)
    (hitems : ∀ chunk ∈ p.chunks, ∀ item ∈ chunk.items, item.Ok) :
    unmarshalSourceDescription hdr (writeText p.writes) = .ok { p with hdr := hdr } := by
  have hchunks := unmarshalChunks_put p.chunks hitems 0 ((writeText p.writes).drop 4) _ 0
    (Nat.dvd_zero 4) (drop_writes (sdes p))
  rw [unmarshalSourceDescription, hcount, hchunks]
  rfl

theorem unmarshalGoodbye_put (p : Goodbye) (hdr : RTCPHeader)
    (hcount : hdr.count.toNat = p.sources.length) (hreason : p.reason.length ≤ 255) :
    unmarshalGoodbye hdr (writeText p.writes) = .ok { p with hdr := hdr } := by
  let pad := (bye p).marshalSize - (4 + (bye p).body.length)
  let data := (writeText p.writes).drop 4
  have hbody : data = p.sources.flatMap putUint32 ++
      ((if p.reason ≠ [] then UInt8.ofNat p.reason.length :: p.reason else []) ++ zeros pad) :=
    (drop_writes (bye p)).trans (append_assoc _ _ _)
  have hl := congrArg List.length hbody
  rw [length_append, length_flatMap_const putUint32 4 length_putUint32] at hl
  have hsources : uint32s p.sources.length data = p.sources := by
    rw [hbody, uint32s_put]
  have hoff : data.drop (p.sources.length * 4) =
      (if p.reason ≠ [] then UInt8.ofNat p.reason.length :: p.reason else []) ++ zeros pad := by
    rw [hbody]
    exact drop_left' (length_flatMap_const putUint32 4 length_putUint32 _)
  unfold unmarshalGoodbye
  rw [hcount]
  simp only [show (writeText p.writes).drop 4 = data from rfl, hsources]
  rw [if_neg (by omega)]
  by_cases hempty : p.reason = []
  · -- There is nothing behind the sources.
    have hpad : pad = 0 := by
      have hsize := marshalSize_eq (bye p)
      have hlen : (bye p).body.length = p.sources.length * 4 := by
        rw [body, if_neg (not_not.mpr hempty), append_nil,
          length_flatMap_const putUint32 4 length_putUint32]
      rw [roundUp_of_dvd _ (by omega)] at hsize
      exact Nat.sub_eq_zero_of_le (Nat.le_of_eq hsize)
    rw [if_neg (not_not.mpr hempty), hpad] at hl
    rw [if_neg (by rw [hl]; exact Nat.lt_irrefl _), ← hempty]
  · rw [if_pos hempty] at hoff hl
    rw [length_append, length_cons] at hl
    have hbyte := getD_of_drop hoff
    have hn : (UInt8.ofNat p.reason.length).toNat = p.reason.length := by
      rw [UInt8.toNat_ofNat']
      omega
    have htext : data.drop (p.sources.length * 4 + 1) = p.reason ++ zeros pad := by
      rw [← drop_drop, hoff]
      rfl
    rw [if_pos (by omega)]
    simp only [hbyte, hn]
    rw [if_neg (by omega), htext, take_left]

theorem unmarshalApplicationDefined_put (p : ApplicationDefined) (hdr : RTCPHeader)
    (hcount : hdr.count = p.subType) (hname : p.name.length = 4) :
    unmarshalApplicationDefined hdr (writeText p.writes) =
      .ok { p with
        hdr := hdr
        data := stripPadding hdr.padding
          (p.data ++ zeros (roundUp p.data.length - p.data.length)) } := by
  have hb : (app p).body = putUint32 p.ssrc ++ (p.name ++ p.data) := by
    rw [body, hname, take_of_length_le (Nat.le_of_eq hname)]
    rfl
  have hsize := marshalSize_eq (app p)
  have hlen := length_writes (app p)
  have hbody := drop_writes (app p)
  rw [hb, length_append, length_append, length_putUint32, hname, ← Nat.add_assoc, ← Nat.add_assoc,
    roundUp_add 12 _ (by decide)] at hsize
  rw [hb, hsize, length_append, length_append, length_putUint32, hname, ← Nat.add_assoc,
    ← Nat.add_assoc, Nat.add_sub_add_left, append_assoc, append_assoc] at hbody
  have h8 : (writeText p.writes).drop 8 = p.name ++ (p.data ++
      zeros (roundUp p.data.length - p.data.length)) := drop_behind hbody (length_putUint32 _)
  have h12 : (writeText p.writes).drop 12 = p.data ++
      zeros (roundUp p.data.length - p.data.length) := drop_behind h8 hname
  have h4 : (writeText p.writes).drop 4 = _ := hbody
  have hroom : ¬ (writeText p.writes).length < 12 := by
    change ¬ (writeText (app p).writes).length < 12
    omega
  rw [unmarshalApplicationDefined, if_neg hroom, h8, h12, h4, uint32_put, take_left' hname, hcount]

/-- The decoder of one packet behind the encoder. -/
theorem Shaped.unmarshalPacket_put (h : p.Shaped) :
    unmarshalPacket p.encodedHeader (writeText p.writes) = .ok p.reread := by
  cases p with
  | sr p =>
    have hp := unmarshalSenderReport_put p (encodedHeader (sr p)) (toNat_ofNat_count _ h.1)
      h.2.1 h.2.2
    rw [unmarshalPacket, show (encodedHeader (sr p)).type = rtcpTypeSR from rfl, if_pos rfl]
    exact congrArg (Except.map sr) hp
  | rr p =>
    have hp := unmarshalReceiverReport_put p (encodedHeader (rr p)) (toNat_ofNat_count _ h.1)
      h.2.1 h.2.2
    rw [unmarshalPacket, show (encodedHeader (rr p)).type = rtcpTypeRR from rfl,
      if_neg (by decide), if_pos rfl]
    exact congrArg (Except.map rr) hp
  | sdes p =>
    have hp := unmarshalSourceDescription_put p (encodedHeader (sdes p))
      (toNat_ofNat_count _ h.1) h.2
    rw [unmarshalPacket, show (encodedHeader (sdes p)).type = rtcpTypeSDES from rfl,
      if_neg (by decide), if_neg (by decide), if_pos rfl]
    exact congrArg (Except.map sdes) hp
  | bye p =>
    have hp := unmarshalGoodbye_put p (encodedHeader (bye p)) (toNat_ofNat_count _ h.1) h.2
    rw [unmarshalPacket, show (encodedHeader (bye p)).type = rtcpTypeBYE from rfl,
      if_neg (by decide), if_neg (by decide), if_neg (by decide), if_pos rfl]
    exact congrArg (Except.map bye) hp
  | app p =>
    have hp := unmarshalApplicationDefined_put p (encodedHeader (app p)) rfl h.2
    rw [unmarshalPacket, show (encodedHeader (app p)).type = rtcpTypeAPP from rfl,
      if_neg (by decide), if_neg (by decide), if_neg (by decide), if_neg (by decide), if_pos rfl]
    exact congrArg (Except.map app) hp
  | raw p =>
    rcases h with ⟨hcount, hdata, htype⟩
    have hother : ∀ t : UInt8, 200 ≤ t ∧ t ≤ 204 → (encodedHeader (raw p)).type ≠ t := by
      rintro t ⟨hlow, hhigh⟩ rfl
      rcases htype with hlt | hgt
      · exact absurd hlow (UInt8.not_le.mpr hlt)
      · exact absurd hhigh (UInt8.not_le.mpr hgt)
    rw [unmarshalPacket, if_neg (hother _ (by decide)), if_neg (hother _ (by decide)),
      if_neg (hother _ (by decide)), if_neg (hother _ (by decide)),
      if_neg (hother _ (by decide))]
    exact congrArg (fun data => Except.ok (raw ⟨data, _⟩)) (drop_writes_full (raw p) hdata).1

theorem Encodable.unmarshalPackets_cons (h : p.Encodable) (fuel : Nat) (rest : Bytes) :
    unmarshalPackets (fuel + 1) (writeText p.writes ++ rest) =
      (unmarshalPackets fuel rest).map (fun pkts => p.reread :: pkts) := by
  rcases p.exists_body with ⟨ws, -, hwrites⟩
  have hlen := p.length_writes
  have hpkt := h.shaped.unmarshalPacket_put
  have hroom := p.four_le_length_writes
  have haligned : 4 ∣ p.marshalSize := p.marshalSize_eq ▸ dvd_roundUp _
  rw [p.length_writes] at hroom
  rw [hwrites] at hlen hpkt ⊢
  exact unmarshalPackets_put h.shaped.count_le hroom hlen haligned h.short p.reread hpkt fuel rest

end RTCPPacket

/-! ### What comes back -/

/-- Data whose last byte is not taken for a number of padding bytes. -/
def Unpadded (data : Bytes) : Prop :=
  ∀ n : UInt8, data.getLast? = some n → n = 0 ∨ data.length < n.toNat

theorem stripPadding_eq_self_iff (padding : Bool) (data : Bytes) :
    stripPadding padding data = data ↔ (padding = true → Unpadded data) := by
  unfold stripPadding Unpadded
  cases padding with
  | false => simp only [Bool.false_eq_true, false_and, if_false, false_implies]
  | true =>
    rcases eq_nil_or_concat data with rfl | ⟨front, n, rfl⟩
    · simp
    · have hne : front.concat n ≠ [] := by
        rw [concat_eq_append]
        exact append_ne_nil_of_right_ne_nil _ (cons_ne_nil _ _)
      have hlast : (front.concat n).getLast? = some n := by
        rw [concat_eq_append, getLast?_concat]
      simp only [hne, ne_eq, not_false_eq_true, and_self, if_true, hlast, getD_some,
        some.injEq, true_implies]
      have hzero : n = 0 ↔ n.toNat = 0 := by
        rw [← UInt8.toNat_inj]
        rfl
      constructor
      · intro htake m hm
        rw [← hm, hzero]
        by_contra hpad
        rw [if_pos (by omega)] at htake
        have hl := congrArg List.length htake
        rw [length_take] at hl
        omega
      · intro hun
        have hn := hun n rfl
        rw [hzero] at hn
        exact if_neg (by omega)

/-- Data come back from a packet if they fill their words and end in no padding. -/
theorem stripPadding_fill_iff (padding : Bool) (data : Bytes) :
    stripPadding padding (data ++ zeros (roundUp data.length - data.length)) = data ↔
      4 ∣ data.length ∧ (padding = true → Unpadded data) := by
  by_cases hdvd : 4 ∣ data.length
  · have hfill : data ++ zeros (roundUp data.length - data.length) = data := by
      rw [roundUp_of_dvd _ hdvd, Nat.sub_self]
      exact append_nil data
    rw [hfill, stripPadding_eq_self_iff]
    exact ⟨fun h => ⟨hdvd, h⟩, fun h => h.2⟩
  · -- The last byte is a zero of the encoder, so nothing is taken off again.
    obtain ⟨k, hk⟩ : ∃ k, roundUp data.length - data.length = k + 1 := by
      refine ⟨roundUp data.length - data.length - 1, ?_⟩
      unfold roundUp
      omega
    let filled := data ++ zeros (k + 1)
    have hlast : filled.getLast? = some 0 := by
      rw [getLast?_append, zeros, getLast?_replicate, if_neg (Nat.succ_ne_zero k)]
      rfl
    have hsame : stripPadding padding filled = filled := by
      refine (stripPadding_eq_self_iff padding filled).mpr (fun _ n hn => Or.inl ?_)
      rw [hlast, some.injEq] at hn
      exact hn.symm
    rw [hk, hsame]
    refine iff_of_false (fun heq => ?_) (fun h => hdvd h.1)
    have hl := congrArg List.length heq
    rw [length_append, length_zeros] at hl
    omega

namespace RTCPPacket

/-- The data of an application-defined packet fill their words and are not taken
    for padding. -/
def Kept : RTCPPacket → Prop
  | app p => 4 ∣ p.data.length ∧ (p.hdr.padding = true → Unpadded p.data)
  | _ => True

variable (p : RTCPPacket)

theorem refill_eq_self_iff : p.refill = p ↔ p.Kept := by
  cases p with
  | app p =>
    rw [Kept, ← stripPadding_fill_iff]
    constructor
    · intro h
      exact congrArg ApplicationDefined.data (app.inj h)
    · intro h
      rw [refill, h]
  | sr p | rr p | sdes p | bye p | raw p => exact iff_of_true rfl trivial

/-- A packet without the record that the decoder keeps of the header. A raw
    packet has its other fields there and only loses the length. -/
def contents : RTCPPacket → RTCPPacket
  | raw p => raw { p with headerField := { p.headerField with length := 0 } }
  | p => p.withHeader ⟨false, 0, 0, 0⟩

theorem Kept.contents_reread {p : RTCPPacket} (h : p.Kept) : p.reread.contents = p.contents := by
  rw [reread, (refill_eq_self_iff p).mpr h]
  cases p <;> rfl

/-- A packet without the length in its header. -/
def clearLength (p : RTCPPacket) : RTCPPacket := p.withHeader { p.header with length := 0 }

theorem header_withHeader (hdr : RTCPHeader) :
    (p.withHeader hdr).header = hdr := by
  cases p <;> rfl

theorem withHeader_withHeader (hdr hdr' : RTCPHeader) :
    (p.withHeader hdr').withHeader hdr = p.withHeader hdr := by
  cases p <;> rfl

theorem withHeader_header : p.withHeader p.header = p := by
  cases p <;> rfl

theorem header_refill : p.refill.header = p.header := by
  cases p <;> rfl

/-- Only the data of a packet can change when its count and type are in its
    header. -/
theorem clearLength_reread_iff (hcount : p.count = p.header.count)
    (htype : p.type = p.header.type) : p.reread.clearLength = p.clearLength ↔ p.Kept := by
  have hhdr : { p.encodedHeader with length := 0 } = { p.header with length := 0 } := by
    rw [encodedHeader, hcount, htype]
  rw [← refill_eq_self_iff, clearLength, reread, header_withHeader, withHeader_withHeader, hhdr,
    clearLength]
  constructor
  · intro h
    have hback := congrArg (fun q => q.withHeader p.header) h
    simp only [withHeader_withHeader, withHeader_header] at hback
    rwa [← header_refill, withHeader_header] at hback
  · intro h
    rw [h]

end RTCPPacket

/-! ### Compound packets -/

variable (ps : List RTCPPacket)

/-- The loop of `MarshalRTCP` in a buffer that is large enough. -/
theorem marshalPackets_of_le (c : Cursor)
    (hroom : (ps.map RTCPPacket.marshalSize).sum ≤ c.room) :
    marshalPackets ps c = .ok ⟨c.written ++ ps.flatMap (fun p => writeText p.writes),
      c.room - (ps.map RTCPPacket.marshalSize).sum⟩ := by
  induction ps generalizing c with
  | nil =>
    rw [flatMap_nil, append_nil]
    rfl
  | cons p ps ih =>
    rw [map_cons, sum_cons] at hroom
    have hlen := p.length_writes
    have hone : p.marshalTo c =
        .ok ⟨c.written ++ writeText p.writes, c.room - p.marshalSize⟩ := by
      rw [RTCPPacket.marshalTo, if_neg (by omega), writeAll_of_le p.writes c (by omega), hlen]
    rw [marshalPackets, hone]
    refine (ih _ ?_).trans ?_
    · dsimp only
      omega
    · rw [flatMap_cons, map_cons, sum_cons, append_assoc, Nat.sub_sub]

/-- The loop of `UnmarshalRTCP` finds every packet. -/
theorem unmarshalPackets_flatMap (hps : ∀ p ∈ ps, p.Encodable) (fuel : Nat)
    (hfuel : ps.length ≤ fuel) :
    unmarshalPackets fuel (ps.flatMap (fun p => writeText p.writes)) =
      .ok (ps.map RTCPPacket.reread) := by
  induction ps generalizing fuel with
  | nil => cases fuel <;> rfl
  | cons p ps ih =>
    cases fuel with
    | zero => cases hfuel
    | succ fuel =>
      have hrest := ih (fun q hq => hps q (mem_cons_of_mem p hq)) fuel
        (Nat.le_of_succ_le_succ hfuel)
      rw [flatMap_cons, (hps p mem_cons_self).unmarshalPackets_cons, hrest]
      rfl

/-- Every packet takes a byte, so the length of the data is fuel enough. -/
theorem length_le_flatMap_writes :
    ps.length ≤ (ps.flatMap (fun p => writeText p.writes)).length := by
  induction ps with
  | nil => exact Nat.zero_le _
  | cons p ps ih =>
    have hroom := p.four_le_length_writes
    rw [length_cons, flatMap_cons, length_append]
    omega

/-- Encoded packets are found again, each as `reread` says. -/
theorem unmarshal_marshalRTCP (hne : ps ≠ [])
    (hps : ∀ p ∈ ps, p.Encodable) :
    ∃ d, marshalRTCP ps = .ok d ∧ unmarshalRTCP d = .ok (ps.map RTCPPacket.reread) := by
  let d := ps.flatMap (fun p => writeText p.writes)
  have hmarshal : marshalRTCP ps = .ok d := by
    rw [marshalRTCP, if_neg hne, marshalPackets_of_le ps _ (Nat.le_refl _)]
    rfl
  refine ⟨d, hmarshal, ?_⟩
  rw [unmarshalRTCP, unmarshalPackets_flatMap ps hps _ (length_le_flatMap_writes ps)]
  cases ps with
  | nil => exact absurd rfl hne
  | cons p ps => rfl

/-! ### What is accepted -/

theorem totalLost_of_unmarshal (data : Bytes) (rr : ReceptionReport)
    (h : unmarshalReceptionReport data = .ok rr) : rr.totalLost.toNat < 2 ^ 24 := by
  rcases check_eq_ok h with ⟨hlen, hrr⟩
  have hthree : ((data.drop 5).take 3).length = 3 := by
    rw [length_take, length_drop]
    omega
  have hlt := getBE_lt ((data.drop 5).take 3)
  rw [hthree] at hlt
  rw [← Except.ok.inj hrr]
  dsimp only
  rw [UInt32.toNat_ofNat']
  omega

/-- The reports of a packet take 24 bytes each. -/
theorem reports_of_unmarshal (what : Bytes) (n i : Nat) (body : Bytes) (off : Nat)
    (r : List ReceptionReport × Nat) (h : unmarshalReports what n i body off = .ok r)
    (hoff : off ≤ body.length) :
    r.1.length = n ∧ (∀ rr ∈ r.1, rr.totalLost.toNat < 2 ^ 24) ∧ r.2 = off + n * 24 ∧
      r.2 ≤ body.length := by
  induction n generalizing i off r with
  | zero =>
    rw [← Except.ok.inj h]
    exact ⟨rfl, fun _ hrr => (by cases hrr), (Nat.zero_mul 24).symm ▸ rfl, hoff⟩
  | succ n ih =>
    rw [unmarshalReports] at h
    rcases check_eq_ok h with ⟨hroom, h⟩
    split at h
    · cases h
    · rename_i rr hrr
      rcases map_eq_ok h with ⟨r', hrest, rfl⟩
      rcases ih (i + 1) (off + 24) r' hrest (by omega) with ⟨hlen, hlost, hend, hle⟩
      refine ⟨congrArg Nat.succ hlen, ?_, ?_, hle⟩
      · exact forall_mem_cons.mpr ⟨totalLost_of_unmarshal _ rr hrr, hlost⟩
      · dsimp only
        omega

/-- The items of a chunk, with what they take of the body. -/
theorem items_of_unmarshal (fuel : Nat) (body : Bytes) (off : Nat)
    (items : List SourceDescriptionItem) (r : List SourceDescriptionItem × Nat)
    (h : unmarshalItems fuel body off items = .ok r) (hoff : off ≤ body.length)
    (hitems : ∀ item ∈ items, item.Ok) :
    (∀ item ∈ r.1, item.Ok) ∧ r.2 ≤ body.length ∧
      off + (r.1.flatMap SourceDescriptionItem.bytes).length ≤
        r.2 + (items.flatMap SourceDescriptionItem.bytes).length := by
  induction fuel generalizing off items with
  | zero =>
    rw [← Except.ok.inj h]
    exact ⟨hitems, hoff, Nat.le_refl _⟩
  | succ fuel ih =>
    rw [unmarshalItems] at h
    by_cases hend : body.length ≤ off
    · rw [if_pos hend] at h
      rw [← Except.ok.inj h]
      exact ⟨hitems, hoff, Nat.le_refl _⟩
    rw [if_neg hend] at h
    by_cases htype : body.getD off 0 = 0
    · rw [if_pos htype] at h
      rw [← Except.ok.inj h]
      refine ⟨hitems, ?_, ?_⟩ <;> dsimp only <;> omega
    rw [if_neg htype] at h
    rcases check_eq_ok h with ⟨_, h⟩
    rcases check_eq_ok h with ⟨hroom, h⟩
    let item : SourceDescriptionItem :=
      ⟨(body.drop (off + 2)).take (body.getD (off + 1) 0).toNat, body.getD off 0⟩
    have htext : item.text.length = (body.getD (off + 1) 0).toNat := by
      rw [length_take, length_drop]
      omega
    have hok : item.Ok := by
      have hlt := (body.getD (off + 1) 0).toNat_lt
      exact ⟨htype, by omega⟩
    have hmore : ∀ i ∈ items ++ [item], i.Ok := by
      intro i hi
      rcases mem_append.mp hi with hi | hi
      · exact hitems i hi
      · exact mem_singleton.mp hi ▸ hok
    rcases ih _ (items ++ [item]) h (by omega) hmore with ⟨hall, hle, hsum⟩
    refine ⟨hall, hle, ?_⟩
    rw [flatMap_append, length_append, flatMap_singleton,
      item.length_bytes] at hsum
    omega

/-- The chunks of a source description. The end of one that stopped at the end of
    the packet is written with another word. -/
theorem chunks_of_unmarshal (n i : Nat) (body : Bytes) (off : Nat)
    (chunks : List SourceDescriptionChunk) (h : unmarshalChunks n i body off = .ok chunks)
    (hbody : 4 ∣ body.length) (hoff : off ≤ body.length) :
    chunks.length = n ∧ (∀ chunk ∈ chunks, ∀ item ∈ chunk.items, item.Ok) ∧
      off + (chunks.flatMap SourceDescriptionChunk.bytes).length ≤ body.length + n * 4 := by
  induction n generalizing i off chunks with
  | zero =>
    rw [← Except.ok.inj h]
    exact ⟨rfl, fun _ hc => (by cases hc), by rw [Nat.zero_mul]; exact hoff⟩
  | succ n ih =>
    rw [unmarshalChunks] at h
    rcases check_eq_ok h with ⟨hroom, h⟩
    split at h
    · cases h
    · rename_i items off' hitems
      rcases map_eq_ok h with ⟨chunks', hrest, rfl⟩
      rcases items_of_unmarshal _ body (off + 4) [] _ hitems (by omega)
        (by intros; contradiction) with ⟨hok, hle, hsum⟩
      have hround : off' ≤ roundUp off' ∧ roundUp off' ≤ body.length := by
        unfold roundUp
        omega
      rcases ih (i + 1) (roundUp off') chunks' hrest hround.2 with ⟨hlen, hall, hrestSum⟩
      let chunk : SourceDescriptionChunk := ⟨items, uint32 (body.drop off)⟩
      have hsize : roundUp chunk.size ≤
          4 + (items.flatMap SourceDescriptionItem.bytes).length + 4 := by
        rw [length_flatMap_bytes]
        unfold roundUp SourceDescriptionChunk.size
        dsimp only [chunk]
        omega
      refine ⟨congrArg Nat.succ hlen, forall_mem_cons.mpr ⟨hok, hall⟩, ?_⟩
      rw [flatMap_cons, length_append, chunk.length_bytes]
      rw [flatMap_nil, length_nil] at hsum
      dsimp only at hsum
      omega

namespace RTCPPacket

/-- What the decoder says about a packet of `len` bytes with the given header. -/
structure Accepted (hdr : RTCPHeader) (len : Nat) (p : RTCPPacket) : Prop where
  shaped : p.Shaped
  size : p.marshalSize ≤ len + 2 ^ 9
  header : p.header = hdr
  count : p.count = hdr.count
  type : p.type = hdr.type
  words : p.header.padding = false → p.Kept

section Accepted

variable {hdr : RTCPHeader} {pkt : Bytes}

theorem ofNat_count {n : Nat} (h : n = hdr.count.toNat) : UInt8.ofNat n = hdr.count := by
  rw [h, UInt8.ofNat_toNat]

/-- The reports of a packet and what stands behind them fill it. -/
theorem accepted_reports {what : Bytes} {off : Nat} {r : List ReceptionReport × Nat}
    (haligned : 4 ∣ pkt.length) (hoff : 4 ∣ off) (hroom : 4 + off ≤ pkt.length)
    (hr : unmarshalReports what hdr.count.toNat 0 (pkt.drop 4) off = .ok r) :
    r.1.length = hdr.count.toNat ∧ (∀ rr ∈ r.1, rr.totalLost.toNat < 2 ^ 24) ∧
      4 ∣ ((pkt.drop 4).drop r.2).length ∧
      4 + off + r.1.length * 24 + ((pkt.drop 4).drop r.2).length = pkt.length := by
  have hbody : (pkt.drop 4).length = pkt.length - 4 := length_drop
  rcases reports_of_unmarshal _ _ _ _ _ r hr (by omega) with ⟨hn, hlost, hend, hle⟩
  have hext : ((pkt.drop 4).drop r.2).length = pkt.length - 4 - r.2 := by
    rw [length_drop, hbody]
  exact ⟨hn, hlost, by omega, by omega⟩

theorem accepted_sr (hcount : hdr.count.toNat ≤ 31) (haligned : 4 ∣ pkt.length)
    (htype : hdr.type = rtcpTypeSR) (p : SenderReport)
    (h : unmarshalSenderReport hdr pkt = .ok p) : Accepted hdr pkt.length (sr p) := by
  rcases check_eq_ok h with ⟨hlen, h⟩
  rcases map_eq_ok h with ⟨r, hr, rfl⟩
  rcases accepted_reports haligned (by decide) (by omega) hr with ⟨hn, hlost, hwords, hfull⟩
  refine ⟨⟨hn.trans_le hcount, hlost, hwords⟩, ?_, rfl, ofNat_count hn, htype.symm,
    fun _ => trivial⟩
  rw [marshalSize, SenderReport.marshalSize, roundUp]
  dsimp only
  omega

theorem accepted_rr (hcount : hdr.count.toNat ≤ 31) (haligned : 4 ∣ pkt.length)
    (htype : hdr.type = rtcpTypeRR) (p : ReceiverReport)
    (h : unmarshalReceiverReport hdr pkt = .ok p) : Accepted hdr pkt.length (rr p) := by
  rcases check_eq_ok h with ⟨hlen, h⟩
  rcases map_eq_ok h with ⟨r, hr, rfl⟩
  rcases accepted_reports haligned (by decide) (by omega) hr with ⟨hn, hlost, hwords, hfull⟩
  refine ⟨⟨hn.trans_le hcount, hlost, hwords⟩, ?_, rfl, ofNat_count hn, htype.symm,
    fun _ => trivial⟩
  rw [marshalSize, ReceiverReport.marshalSize, roundUp]
  dsimp only
  omega

theorem accepted_sdes (hcount : hdr.count.toNat ≤ 31) (haligned : 4 ∣ pkt.length)
    (hroom : 4 ≤ pkt.length) (htype : hdr.type = rtcpTypeSDES) (p : SourceDescription)
    (h : unmarshalSourceDescription hdr pkt = .ok p) : Accepted hdr pkt.length (sdes p) := by
  rcases map_eq_ok h with ⟨chunks, hchunks, rfl⟩
  have hbody : (pkt.drop 4).length = pkt.length - 4 := length_drop
  rcases chunks_of_unmarshal _ _ _ _ chunks hchunks (by omega) (Nat.zero_le _) with
    ⟨hn, hok, hsum⟩
  refine ⟨⟨hn.trans_le hcount, hok⟩, ?_, rfl, ofNat_count hn, htype.symm, fun _ => trivial⟩
  rw [marshalSize, SourceDescription.marshalSize_eq]
  dsimp only
  omega

theorem accepted_bye (hcount : hdr.count.toNat ≤ 31) (htype : hdr.type = rtcpTypeBYE) (p : Goodbye)
    (h : unmarshalGoodbye hdr pkt = .ok p) : Accepted hdr pkt.length (bye p) := by
  -- Sources and a reason as the format allows them never make a long packet.
  have hsmall : p.hdr = hdr ∧ p.sources.length = hdr.count.toNat ∧ p.reason.length ≤ 255 := by
    rcases check_eq_ok h with ⟨_, h⟩
    split at h
    · rcases check_eq_ok h with ⟨_, h⟩
      rw [← Except.ok.inj h]
      refine ⟨rfl, length_uint32s _ _, ?_⟩
      have hlt := ((pkt.drop 4).getD (hdr.count.toNat * 4) 0).toNat_lt
      refine Nat.le_trans (length_take_le _ _) ?_
      omega
    · rw [← Except.ok.inj h]
      exact ⟨rfl, length_uint32s _ _, Nat.zero_le _⟩
  rcases hsmall with ⟨hhdr, hn, hreason⟩
  refine ⟨⟨by omega, hreason⟩, ?_, hhdr, ofNat_count hn, htype.symm, fun _ => trivial⟩
  rw [marshalSize, Goodbye.marshalSize]
  unfold roundUp
  split <;> omega

theorem length_stripPadding_le (padding : Bool) (data : Bytes) :
    (stripPadding padding data).length ≤ data.length := by
  unfold stripPadding
  split
  · dsimp only
    split
    · exact length_take_le' _ _
    · exact Nat.le_refl _
  · exact Nat.le_refl _

theorem accepted_app (hcount : hdr.count.toNat ≤ 31) (haligned : 4 ∣ pkt.length)
    (htype : hdr.type = rtcpTypeAPP) (p : ApplicationDefined)
    (h : unmarshalApplicationDefined hdr pkt = .ok p) : Accepted hdr pkt.length (app p) := by
  rcases check_eq_ok h with ⟨hlen, h⟩
  rw [← Except.ok.inj h]
  have hdata : (pkt.drop 12).length = pkt.length - 12 := length_drop
  have hname : ((pkt.drop 8).take 4).length = 4 := by
    rw [length_take, length_drop]
    omega
  have hstrip := length_stripPadding_le hdr.padding (pkt.drop 12)
  refine ⟨⟨hcount, hname⟩, ?_, rfl, rfl, htype.symm, ?_⟩
  · rw [marshalSize, ApplicationDefined.marshalSize]
    unfold roundUp
    dsimp only
    omega
  · -- Without padding the data are the rest of the packet.
    intro hpad
    have hsame : stripPadding hdr.padding (pkt.drop 12) = pkt.drop 12 := by
      rw [stripPadding_eq_self_iff, show hdr.padding = false from hpad]
      exact fun hc => by cases hc
    refine ⟨?_, fun hc => by cases hpad.symm.trans hc⟩
    rw [hsame]
    dsimp only
    omega

theorem accepted_of_unmarshal (p : RTCPPacket) (hcount : hdr.count.toNat ≤ 31)
    (haligned : 4 ∣ pkt.length) (hroom : 4 ≤ pkt.length) (h : unmarshalPacket hdr pkt = .ok p) :
    Accepted hdr pkt.length p := by
  unfold unmarshalPacket at h
  split_ifs at h with hsr hrr hsdes hbye happ
  · rcases map_eq_ok h with ⟨q, hq, rfl⟩
    exact accepted_sr hcount haligned hsr q hq
  · rcases map_eq_ok h with ⟨q, hq, rfl⟩
    exact accepted_rr hcount haligned hrr q hq
  · rcases map_eq_ok h with ⟨q, hq, rfl⟩
    exact accepted_sdes hcount haligned hroom hsdes q hq
  · rcases map_eq_ok h with ⟨q, hq, rfl⟩
    exact accepted_bye hcount hbye q hq
  · rcases map_eq_ok h with ⟨q, hq, rfl⟩
    exact accepted_app hcount haligned happ q hq
  rw [← Except.ok.inj h]
  have hall : ∀ t : UInt8, t ≠ rtcpTypeSR → t ≠ rtcpTypeRR → t ≠ rtcpTypeSDES → t ≠ rtcpTypeBYE →
      t ≠ rtcpTypeAPP → t < 200 ∨ 204 < t := forall_uint8 (by decide +kernel)
  have hother := hall hdr.type hsr hrr hsdes hbye happ
  have hdata : (pkt.drop 4).length = pkt.length - 4 := length_drop
  refine ⟨⟨hcount, ?_, hother⟩, ?_, rfl, rfl, rfl, fun _ => trivial⟩
  · dsimp only
    omega
  · rw [marshalSize, RawRTCP.marshalSize]
    unfold roundUp
    dsimp only
    omega

end Accepted

end RTCPPacket

theorem count_of_unmarshalRTCPHeader (data : Bytes) (hdr : RTCPHeader)
    (h : unmarshalRTCPHeader data = .ok hdr) : hdr.count.toNat ≤ 31 := by
  rcases check_eq_ok h with ⟨_, h⟩
  rcases check_eq_ok h with ⟨_, h⟩
  have hall : ∀ b : UInt8, (b &&& 0x1F).toNat ≤ 31 := forall_uint8 (by decide +kernel)
  rw [← Except.ok.inj h]
  exact hall _

/-- One turn of the loop of `UnmarshalRTCP`. -/
theorem unmarshalPackets_succ {fuel : Nat} {data : Bytes} {ps : List RTCPPacket}
    (h : unmarshalPackets (fuel + 1) data = .ok ps) :
    data = [] ∧ ps = [] ∨ ∃ hdr p ps', 4 ≤ data.length ∧ unmarshalRTCPHeader data = .ok hdr ∧
      (hdr.length.toNat + 1) * 4 ≤ data.length ∧
      unmarshalPacket hdr (data.take ((hdr.length.toNat + 1) * 4)) = .ok p ∧
      unmarshalPackets fuel (data.drop ((hdr.length.toNat + 1) * 4)) = .ok ps' ∧ ps = p :: ps' := by
  rw [unmarshalPackets] at h
  split at h
  · exact .inl ⟨‹_›, (Except.ok.inj h).symm⟩
  rcases check_eq_ok h with ⟨hfour, h⟩
  split at h
  · cases h
  · rename_i hdr hhdr
    rcases check_eq_ok h with ⟨hroom, h⟩
    split at h
    · cases h
    · rename_i p hpkt
      rcases map_eq_ok h with ⟨ps', hrest, hps⟩
      exact .inr ⟨hdr, p, ps', Nat.not_lt.mp hfour, hhdr, Nat.not_lt.mp hroom, hpkt, hrest,
        hps.symm⟩

theorem unmarshalRTCP_eq_ok {d : Bytes} {ps : List RTCPPacket} (h : unmarshalRTCP d = .ok ps) :
    ps ≠ [] ∧ unmarshalPackets d.length d = .ok ps := by
  unfold unmarshalRTCP at h
  split at h
  · cases h
  · cases h
  · rename_i qs hne hqs
    rw [Except.ok.injEq] at h
    exact h ▸ ⟨hne, hqs⟩

/-- Every packet of a compound packet was accepted with a header of its own. -/
theorem accepted_of_unmarshalPackets (fuel : Nat) (data : Bytes) (ps : List RTCPPacket)
    (h : unmarshalPackets fuel data = .ok ps) :
    ∀ p ∈ ps, ∃ hdr len, len ≤ data.length ∧ p.Accepted hdr len := by
  induction fuel generalizing data ps with
  | zero =>
    rw [← Except.ok.inj h]
    exact fun _ hp => by cases hp
  | succ fuel ih =>
    rcases unmarshalPackets_succ h with ⟨_, rfl⟩ | ⟨hdr, p, ps', _, hhdr, hroom, hpkt, hrest, rfl⟩
    · exact fun _ hp => by cases hp
    have hlen : (data.take ((hdr.length.toNat + 1) * 4)).length = (hdr.length.toNat + 1) * 4 := by
      rw [length_take]
      omega
    refine forall_mem_cons.mpr ⟨⟨hdr, _, ?_, RTCPPacket.accepted_of_unmarshal p
      (count_of_unmarshalRTCPHeader data hdr hhdr) ?_ ?_ hpkt⟩, ?_⟩
    · omega
    · omega
    · omega
    · intro q hq
      rcases ih _ ps' hrest q hq with ⟨hdr', len, hle, hacc⟩
      rw [length_drop] at hle
      exact ⟨hdr', len, by omega, hacc⟩

/-! ### The round trips -/

/-- The packets that the round trip is for. -/
structure RTCPPacket.InDomain (p : RTCPPacket) : Prop extends p.Encodable where
  clear : p.header.padding = false
  words : ∀ q, p = .app q → 4 ∣ q.data.length

/-- A list of packets comes back in order. What the decoder notes of the headers
    is not compared. -/
theorem unmarshal_marshal_rtcp (ps : List RTCPPacket) (hne : ps ≠ []) (hps : ∀ p ∈ ps, p.InDomain) :
    ∃ d qs, marshalRTCP ps = .ok d ∧ unmarshalRTCP d = .ok qs ∧
      qs.map RTCPPacket.contents = ps.map RTCPPacket.contents := by
  have hkept : ∀ p ∈ ps, p.Kept := by
    intro p hp
    cases p with
    | app q =>
      have hclear : q.hdr.padding = false := (hps _ hp).clear
      exact ⟨(hps _ hp).words q rfl, fun hc => by cases hclear.symm.trans hc⟩
    | sr q | rr q | sdes q | bye q | raw q => trivial
  rcases unmarshal_marshalRTCP ps hne (fun p hp => (hps p hp).toEncodable) with ⟨d, hd, hqs⟩
  refine ⟨d, _, hd, hqs, ?_⟩
  rw [List.map_map]
  exact map_congr_left (fun p hp => (hkept p hp).contents_reread)

/-- A packet of every kind. -/
def samplePackets : List RTCPPacket :=
  let hdr : RTCPHeader := ⟨false, 0, 0, 0⟩
  let report : ReceptionReport := ⟨1, 2, 3, 4, 5, 6, 7⟩
  [.sr ⟨[report], [1, 2, 3, 4], 8, 9, 10, 11, 12, hdr⟩, .rr ⟨[report, report], [], 13, hdr⟩,
    .sdes ⟨[⟨[⟨ascii "user@host", 1⟩, ⟨[], 2⟩], 14⟩, ⟨[], 15⟩], hdr⟩,
    .bye ⟨ascii "done", [16, 17], hdr⟩, .app ⟨ascii "name", [1, 2, 3, 4], 18, hdr, 5⟩,
    .raw ⟨[5, 6, 7, 8], ⟨false, 3, 205, 0⟩⟩]

theorem unmarshal_marshal_rtcp_samplePackets :
    ∃ d qs, marshalRTCP samplePackets = .ok d ∧ unmarshalRTCP d = .ok qs ∧
      qs.map RTCPPacket.contents = samplePackets.map RTCPPacket.contents := by
  refine unmarshal_marshal_rtcp samplePackets (by decide) ?_
  have hother : ∀ {p : RTCPPacket}, p.type ≠ rtcpTypeAPP → ∀ q, p = .app q → 4 ∣ q.data.length :=
    fun hp q hq => absurd rfl (hq ▸ hp)
  simp only [samplePackets, forall_mem_cons, not_mem_nil, false_implies, implies_true,
    and_true]
  refine ⟨⟨⟨?_, by decide⟩, rfl, hother (by decide)⟩, ⟨⟨?_, by decide⟩, rfl, hother (by decide)⟩,
    ⟨⟨?_, by decide⟩, rfl, hother (by decide)⟩, ⟨⟨?_, by decide⟩, rfl, hother (by decide)⟩,
    ⟨⟨?_, by decide⟩, rfl, ?_⟩, ⟨⟨?_, by decide⟩, rfl, hother (by decide)⟩⟩
  · exact ⟨by decide, by decide, by decide⟩
  · exact ⟨by decide, by decide, by decide⟩
  · exact ⟨by decide, by decide⟩
  · exact ⟨by decide, by decide⟩
  · exact ⟨by decide, by decide⟩
  · rintro q ⟨⟩
    decide
  · exact ⟨by decide, by decide, by decide⟩

/-- What `UnmarshalRTCP` accepts is encoded and decoded to the same packets if and
    only if the data of every application-defined packet with the padding flag
    fill their words and are not taken for padding again. -/
theorem marshal_unmarshal_rtcp_iff (d : Bytes) (ps : List RTCPPacket) (hlen : d.length ≤ 65535)
    (h : unmarshalRTCP d = .ok ps) :
    (∃ d' qs, marshalRTCP ps = .ok d' ∧ unmarshalRTCP d' = .ok qs ∧
      qs.map RTCPPacket.clearLength = ps.map RTCPPacket.clearLength) ↔
      ∀ p, .app p ∈ ps → p.hdr.padding = true → 4 ∣ p.data.length ∧ Unpadded p.data := by
  have haccepted := unmarshalRTCP_eq_ok h
  have hall := accepted_of_unmarshalPackets _ d ps haccepted.2
  have hencodable : ∀ p ∈ ps, p.Encodable := by
    intro p hp
    rcases hall p hp with ⟨hdr, len, hle, hacc⟩
    have hsize := hacc.size
    exact ⟨hacc.shaped, by omega⟩
  have hcomes : ∀ p ∈ ps, p.reread.clearLength = p.clearLength ↔ p.Kept := by
    intro p hp
    rcases hall p hp with ⟨hdr, len, _, hacc⟩
    exact p.clearLength_reread_iff (hacc.header ▸ hacc.count) (hacc.header ▸ hacc.type)
  rcases unmarshal_marshalRTCP ps haccepted.1 hencodable with ⟨d', hd, hqs⟩
  constructor
  · rintro ⟨d₁, qs, hd₁, hqs₁, hsame⟩ p hp hpad
    rw [hd, Except.ok.injEq] at hd₁
    rw [← hd₁, hqs, Except.ok.injEq] at hqs₁
    rw [← hqs₁, List.map_map] at hsame
    have hone := (hcomes _ hp).mp (map_inj_left.mp hsame _ hp)
    exact ⟨hone.1, hone.2 hpad⟩
  · intro hpads
    refine ⟨d', _, hd, hqs, ?_⟩
    rw [List.map_map]
    refine map_congr_left (fun p hp => (hcomes p hp).mpr ?_)
    rcases hall p hp with ⟨hdr, len, _, hacc⟩
    cases hpad : p.header.padding with
    | false => exact hacc.words hpad
    | true =>
      cases p with
      | app q => exact ⟨(hpads q hp hpad).1, fun _ => (hpads q hp hpad).2⟩
      | sr q | rr q | sdes q | bye q | raw q => trivial

/-- An application-defined packet with four bytes of data and four of padding. -/
def paddedApp (data : Bytes) : Bytes :=
  [0xA0, 204, 0, 4, 0, 0, 0, 1] ++ ascii "name" ++ data ++ [0, 0, 0, 4]

theorem marshal_unmarshal_rtcp_paddedApp :
    let p : ApplicationDefined := ⟨ascii "name", [9, 9, 9, 9], 1, ⟨true, 0, 204, 4⟩, 0⟩
    unmarshalRTCP (paddedApp [9, 9, 9, 9]) = .ok [.app p] ∧
      ∃ d' qs, marshalRTCP [.app p] = .ok d' ∧ unmarshalRTCP d' = .ok qs ∧
        qs.map RTCPPacket.clearLength = [RTCPPacket.clearLength (.app p)] := by
  intro p
  have h : unmarshalRTCP (paddedApp [9, 9, 9, 9]) = .ok [.app p] := by decide +kernel
  refine ⟨h, (marshal_unmarshal_rtcp_iff _ _ (by decide) h).mpr ?_⟩
  intro q hq _
  rw [RTCPPacket.app.inj (mem_singleton.mp hq)]
  refine ⟨by decide, fun n hn => ?_⟩
  cases hn
  decide

/-- The padding is taken off and the flag is kept, so data that end in a one lose
    it when they are read again. -/
theorem marshal_unmarshal_rtcp_fails :
    ∃ p q : ApplicationDefined, ∃ d', unmarshalRTCP (paddedApp [0, 0, 0, 1]) = .ok [.app p] ∧
      p.data = [0, 0, 0, 1] ∧ marshalRTCP [.app p] = .ok d' ∧ unmarshalRTCP d' = .ok [.app q] ∧
      q.data = [0, 0, 0] := by
  refine ⟨⟨ascii "name", [0, 0, 0, 1], 1, ⟨true, 0, 204, 4⟩, 0⟩,
    ⟨ascii "name", [0, 0, 0], 1, ⟨true, 0, 204, 3⟩, 0⟩,
    [0xA0, 204, 0, 3, 0, 0, 0, 1] ++ ascii "name" ++ [0, 0, 0, 1], ?_⟩
  decide +kernel

/-! ### Packets that the format has no room for -/

namespace RTCPPacket

/-- A field of the packet is too large for its place, or the packet is too long. -/
def Unrepresentable (p : RTCPPacket) : Prop :=
  2 ^ 18 < p.marshalSize ∨
    match p with
    | sr p => 31 < p.reports.length ∨ ∃ rr ∈ p.reports, 2 ^ 24 ≤ rr.totalLost.toNat
    | rr p => 31 < p.reports.length ∨ ∃ rr ∈ p.reports, 2 ^ 24 ≤ rr.totalLost.toNat
    | sdes p => 31 < p.chunks.length ∨
        ∃ chunk ∈ p.chunks, ∃ item ∈ chunk.items, item.type = 0 ∨ 255 < item.text.length
    | bye p => 31 < p.sources.length ∨ 255 < p.reason.length
    | app _ => False
    | raw _ => False

theorem Unrepresentable.not_encodable {p : RTCPPacket} (h : p.Unrepresentable) :
    ¬ p.Encodable := by
  rintro ⟨hshaped, hshort⟩
  rcases h with hlong | h
  · omega
  cases p with
  | sr p | rr p =>
    rcases h with hmany | ⟨rr, hrr, hlost⟩
    · exact absurd hshaped.1 (Nat.not_le.mpr hmany)
    · exact absurd (hshaped.2.1 rr hrr) (Nat.not_lt.mpr hlost)
  | sdes p =>
    rcases h with hmany | ⟨chunk, hchunk, item, hitem, hbad⟩
    · exact absurd hshaped.1 (Nat.not_le.mpr hmany)
    · rcases hshaped.2 chunk hchunk item hitem with ⟨htype, htext⟩
      rcases hbad with hzero | hlong
      · exact htype hzero
      · omega
  | bye p =>
    rcases h with hmany | hlong
    · exact absurd hshaped.1 (Nat.not_le.mpr hmany)
    · exact absurd hshaped.2 (Nat.not_le.mpr hlong)
  | app p | raw p => exact h

theorem marshalSize_contents (p : RTCPPacket) : p.contents.marshalSize = p.marshalSize := by
  cases p <;> rfl

theorem unrepresentable_contents_iff (p : RTCPPacket) :
    p.contents.Unrepresentable ↔ p.Unrepresentable := by
  cases p <;> exact Iff.rfl

end RTCPPacket

/-- One packet that is all of the data is no longer than its length says. -/
theorem length_of_single {d : Bytes} {q : RTCPPacket}
    (h : unmarshalPackets d.length d = .ok [q]) : d.length ≤ 2 ^ 18 := by
  rcases hfuel : d.length with _ | fuel
  · omega
  rw [hfuel] at h
  rcases unmarshalPackets_succ h with ⟨_, hq⟩ | ⟨hdr, p, ps', hfour, _, hroom, _, hrest, hq⟩
  · cases hq
  obtain ⟨fuel, rfl⟩ : ∃ n, fuel = n + 1 := ⟨fuel - 1, by omega⟩
  rw [← (cons.inj hq).2] at hrest
  rcases unmarshalPackets_succ hrest with ⟨hnil, _⟩ | ⟨_, _, _, _, _, _, _, _, hcons⟩
  · have hlt := hdr.length.toNat_lt
    have hle := drop_eq_nil_iff.mp hnil
    omega
  · cases hcons

/-- A packet that cannot be represented is refused if and only if the buffer is
    too small for it. Otherwise it is encoded, and not as itself. -/
theorem marshalTo_unrepresentable_iff (p : RTCPPacket) (hp : p.Unrepresentable) (c : Cursor) :
    ((∃ e, p.marshalTo c = .error (.error e)) ↔ c.room < p.marshalSize) ∧
      ∀ c', p.marshalTo c = .ok c' → ∃ text, c'.written = c.written ++ text ∧
        ∀ q, unmarshalRTCP text = .ok [q] → q.contents ≠ p.contents := by
  have hlen := p.length_writes
  unfold RTCPPacket.marshalTo
  by_cases hroom : c.room < p.marshalSize
  · rw [if_pos hroom]
    exact ⟨iff_of_true ⟨_, rfl⟩ hroom, fun c' hc => by cases hc⟩
  rw [if_neg hroom, writeAll_of_le p.writes c (by omega)]
  refine ⟨iff_of_false (fun ⟨e, he⟩ => by cases he) hroom, fun c' hc => ⟨writeText p.writes, ?_, ?_⟩⟩
  · rw [← Except.ok.inj hc]
  · intro q hq hsame
    have hpackets := (unmarshalRTCP_eq_ok hq).2
    rcases accepted_of_unmarshalPackets _ _ _ hpackets q mem_cons_self with ⟨_, _, _, hacc⟩
    have hq' : q.Unrepresentable := by
      rw [← q.unrepresentable_contents_iff, hsame, p.unrepresentable_contents_iff]
      exact hp
    have hsize : q.marshalSize = p.marshalSize := by
      rw [← q.marshalSize_contents, hsame, p.marshalSize_contents]
    refine hq'.not_encodable ⟨hacc.shaped, ?_⟩
    rw [hsize, ← hlen]
    exact length_of_single hpackets

/-- A goodbye of `n` sources. -/
def goodbyeOf (n : Nat) : RTCPPacket := .bye ⟨[], List.replicate n 7, ⟨false, 0, 0, 0⟩⟩

theorem marshalTo_unrepresentable_small :
    (goodbyeOf 32).Unrepresentable ∧
      ∃ e, (goodbyeOf 32).marshalTo ⟨[], 131⟩ = .error (.error e) :=
  ⟨.inr (.inl (by decide)), ((marshalTo_unrepresentable_iff (goodbyeOf 32) (.inr (.inl (by decide)))
    ⟨[], 131⟩).1).mpr (by decide)⟩

/-- The count of 33 sources is cut to five bits, and comes back as one source and
    the beginning of a reason. -/
theorem marshalTo_unrepresentable_fails :
    (goodbyeOf 33).Unrepresentable ∧ ∃ c', (goodbyeOf 33).marshalTo ⟨[], 136⟩ = .ok c' ∧
      unmarshalRTCP c'.written = .ok [.bye ⟨[], [7], ⟨false, 1, 203, 33⟩⟩] :=
  ⟨.inr (.inl (by decide)), ⟨writeText (goodbyeOf 33).writes, 0⟩, by decide +kernel, by
    decide +kernel⟩

end Proto

end Trecs
