import Trecs.Lib.Wire
import Trecs.Proto.Unmarshal

/-!
# RTCP Packets

`proto/rtcp.go`: the packets of the RTP control protocol, and compound packets,
which are packets one after the other.

Every packet starts with a header of four bytes that has the length of the
packet in words. Only this length says where the next packet starts, so every
encoder fills its last word up. A chunk of a source description is filled up in
the same way, with the zeros that the buffer was made with.

The decoders keep the header of a packet and most of them leave padding alone.
Only the one for application-defined packets takes padding off, by the number in
the last byte of the packet.

`UnmarshalRTCP` also returns the packets in front of an error. These are left
out.

## Main definitions

* `RTCPHeader`, `ReceptionReport`, `SenderReport`, `ReceiverReport`,
  `SourceDescription`, `Goodbye`, `ApplicationDefined`, `RawRTCP`: The Go structs.
* `RTCPPacket`: A packet of any kind.
* `marshalRTCP`: The encoder.
* `unmarshalRTCP`: The decoder.
-/

namespace Trecs

namespace Proto

/-- The packet types. -/
abbrev rtcpTypeSR : UInt8 := 200

@[inherit_doc rtcpTypeSR] abbrev rtcpTypeRR : UInt8 := 201

@[inherit_doc rtcpTypeSR] abbrev rtcpTypeSDES : UInt8 := 202

@[inherit_doc rtcpTypeSR] abbrev rtcpTypeBYE : UInt8 := 203

@[inherit_doc rtcpTypeSR] abbrev rtcpTypeAPP : UInt8 := 204

/-- The Go struct `RTCPHeader`. -/
structure RTCPHeader where
  padding : Bool
  count : UInt8
  type : UInt8
  length : UInt16
deriving Repr, DecidableEq

/-- The Go struct `ReceptionReport`. -/
structure ReceptionReport where
  ssrc : UInt32
  fractionLost : UInt8
  totalLost : UInt32
  lastSequenceNumber : UInt32
  jitter : UInt32
  lastSenderReport : UInt32
  delay : UInt32
deriving Repr, DecidableEq

/-- The Go struct `SenderReport`. -/
structure SenderReport where
  reports : List ReceptionReport
  profileExtensions : Bytes
  ntpTime : UInt64
  ssrc : UInt32
  rtpTime : UInt32
  packetCount : UInt32
  octetCount : UInt32
  hdr : RTCPHeader
deriving Repr, DecidableEq

/-- The Go struct `ReceiverReport`. -/
structure ReceiverReport where
  reports : List ReceptionReport
  profileExtensions : Bytes
  ssrc : UInt32
  hdr : RTCPHeader
deriving Repr, DecidableEq

/-- The Go struct `SourceDescriptionItem`. -/
structure SourceDescriptionItem where
  text : Bytes
  type : UInt8
deriving Repr, DecidableEq

/-- The Go struct `SourceDescriptionChunk`. -/
structure SourceDescriptionChunk where
  items : List SourceDescriptionItem
  source : UInt32
deriving Repr, DecidableEq

/-- The Go struct `SourceDescription`. -/
structure SourceDescription where
  chunks : List SourceDescriptionChunk
  hdr : RTCPHeader
deriving Repr, DecidableEq

/-- The Go struct `Goodbye`. -/
structure Goodbye where
  reason : Bytes
  sources : List UInt32
  hdr : RTCPHeader
deriving Repr, DecidableEq

/-- The Go struct `ApplicationDefined`. -/
structure ApplicationDefined where
  name : Bytes
  data : Bytes
  ssrc : UInt32
  hdr : RTCPHeader
  subType : UInt8
deriving Repr, DecidableEq

/-- The Go struct `RawRTCP`. -/
structure RawRTCP where
  data : Bytes
  headerField : RTCPHeader
deriving Repr, DecidableEq

/-- What implements the Go interface `RTCPPacket`. -/
inductive RTCPPacket where
  | sr (p : SenderReport)
  | rr (p : ReceiverReport)
  | sdes (p : SourceDescription)
  | bye (p : Goodbye)
  | app (p : ApplicationDefined)
  | raw (p : RawRTCP)
deriving Repr, DecidableEq

/-! ### Writing -/

/-- `buf[0]`. -/
def rtcpFirstByte (padding : Bool) (count : UInt8) : UInt8 :=
  let b := ((2 : UInt8) <<< 6) ||| (count &&& 0x1F)
  if padding then b ||| (1 : UInt8) <<< 5 else b

/-- `marshalHeaderTo`. -/
def marshalHeaderTo (padding : Bool) (count typ : UInt8) (length : UInt16) : List Write :=
  [.store (rtcpFirstByte padding count), .store typ] ++ stores (putUint16 length)

/-- A packet of `sz` bytes: its header, its body, and zeros up to its end. -/
def packetWrites (padding : Bool) (count typ : UInt8) (sz : Nat) (body : List Write) :
    List Write :=
  marshalHeaderTo padding count typ (UInt16.ofNat (sz / 4 - 1)) ++ body ++
    stores (zeros (sz - (4 + (writeText body).length)))

/-- `marshalReceptionReportTo`. -/
def marshalReceptionReportTo (rr : ReceptionReport) : List Write :=
  stores (putUint32 rr.ssrc) ++ [.store rr.fractionLost] ++ stores (putBE 3 rr.totalLost.toNat) ++
    stores (putUint32 rr.lastSequenceNumber) ++ stores (putUint32 rr.jitter) ++
    stores (putUint32 rr.lastSenderReport) ++ stores (putUint32 rr.delay)

namespace SenderReport

/-- `MarshalSize`. -/
def marshalSize (p : SenderReport) : Nat :=
  roundUp (4 + 4 + 8 + 4 + 4 + 4 + p.reports.length * 24 + p.profileExtensions.length)

/-- `MarshalTo`. -/
def writes (p : SenderReport) : List Write :=
  packetWrites p.hdr.padding (UInt8.ofNat p.reports.length) rtcpTypeSR p.marshalSize
    (stores (putUint32 p.ssrc) ++ stores (putUint64 p.ntpTime) ++ stores (putUint32 p.rtpTime) ++
      stores (putUint32 p.packetCount) ++ stores (putUint32 p.octetCount) ++
      p.reports.flatMap marshalReceptionReportTo ++ [.copy p.profileExtensions])

end SenderReport

namespace ReceiverReport

/-- `MarshalSize`. -/
def marshalSize (p : ReceiverReport) : Nat :=
  roundUp (4 + 4 + p.reports.length * 24 + p.profileExtensions.length)

/-- `MarshalTo`. -/
def writes (p : ReceiverReport) : List Write :=
  packetWrites p.hdr.padding (UInt8.ofNat p.reports.length) rtcpTypeRR p.marshalSize
    (stores (putUint32 p.ssrc) ++ p.reports.flatMap marshalReceptionReportTo ++
      [.copy p.profileExtensions])

end ReceiverReport

/-- The type, the length and the text of an item. -/
def SourceDescriptionItem.writes (item : SourceDescriptionItem) : List Write :=
  [.store item.type, .store (UInt8.ofNat item.text.length), .copy item.text]

namespace SourceDescriptionChunk

/-- What a chunk takes before it is filled up. -/
def size (chunk : SourceDescriptionChunk) : Nat :=
  4 + (chunk.items.map (fun item => 2 + item.text.length)).sum + 1

/-- A chunk. It starts at a multiple of four and the bytes up to the next one
    are zero in a new buffer. -/
def writes (chunk : SourceDescriptionChunk) : List Write :=
  stores (putUint32 chunk.source) ++ chunk.items.flatMap SourceDescriptionItem.writes ++
    [.store 0] ++ stores (zeros (roundUp chunk.size - chunk.size))

end SourceDescriptionChunk

namespace SourceDescription

/-- `MarshalSize`. -/
def marshalSize (p : SourceDescription) : Nat :=
  p.chunks.foldl (fun sz chunk => roundUp (sz + chunk.size)) 4

/-- `MarshalTo`. -/
def writes (p : SourceDescription) : List Write :=
  packetWrites p.hdr.padding (UInt8.ofNat p.chunks.length) rtcpTypeSDES p.marshalSize
    (p.chunks.flatMap SourceDescriptionChunk.writes)

end SourceDescription

namespace Goodbye

/-- `MarshalSize`. -/
def marshalSize (p : Goodbye) : Nat :=
  roundUp (4 + p.sources.length * 4 + (if p.reason ≠ [] then 1 + p.reason.length else 0))

/-- `MarshalTo`. -/
def writes (p : Goodbye) : List Write :=
  packetWrites p.hdr.padding (UInt8.ofNat p.sources.length) rtcpTypeBYE p.marshalSize
    (p.sources.flatMap (fun s => stores (putUint32 s)) ++
      (if p.reason ≠ [] then [.store (UInt8.ofNat p.reason.length), .copy p.reason] else []))

end Goodbye

namespace ApplicationDefined

/-- `MarshalSize`. -/
def marshalSize (p : ApplicationDefined) : Nat := roundUp (4 + 4 + 4 + p.data.length)

/-- `MarshalTo`. A name has four bytes, cut or filled up. -/
def writes (p : ApplicationDefined) : List Write :=
  packetWrites p.hdr.padding p.subType rtcpTypeAPP p.marshalSize
    (stores (putUint32 p.ssrc) ++ [.copy (p.name.take 4)] ++ stores (zeros (4 - p.name.length)) ++
      [.copy p.data])

end ApplicationDefined

namespace RawRTCP

/-- `MarshalSize`. -/
def marshalSize (p : RawRTCP) : Nat := roundUp (4 + p.data.length)

/-- `MarshalTo`. -/
def writes (p : RawRTCP) : List Write :=
  packetWrites p.headerField.padding p.headerField.count p.headerField.type p.marshalSize
    [.copy p.data]

end RawRTCP

namespace RTCPPacket

/-- `MarshalSize` of the interface. -/
def marshalSize : RTCPPacket → Nat
  | sr p => p.marshalSize
  | rr p => p.marshalSize
  | sdes p => p.marshalSize
  | bye p => p.marshalSize
  | app p => p.marshalSize
  | raw p => p.marshalSize

/-- `MarshalTo` of the interface, in a buffer that is large enough. -/
def writes : RTCPPacket → List Write
  | sr p => p.writes
  | rr p => p.writes
  | sdes p => p.writes
  | bye p => p.writes
  | app p => p.writes
  | raw p => p.writes

/-- What `MarshalTo` calls a packet in its error. -/
def kind : RTCPPacket → Bytes
  | sr _ => ascii "sender report"
  | rr _ => ascii "receiver report"
  | sdes _ => ascii "source description"
  | bye _ => ascii "goodbye"
  | app _ => ascii "application defined"
  | raw _ => ascii "raw packet"

/-- `MarshalTo` of the interface. -/
def marshalTo (p : RTCPPacket) (c : Cursor) : Except Fault Cursor :=
  if c.room < p.marshalSize then
    .error (.error (.failed (ascii "rtcp: buffer too small for " ++ p.kind)))
  else
    match writeAll p.writes c with
    | none => .error .panic
    | some c => .ok c

end RTCPPacket

/-- The loop of `MarshalRTCP`. -/
def marshalPackets : List RTCPPacket → Cursor → Except Fault Cursor
  | [], c => .ok c
  | p :: ps, c =>
    match p.marshalTo c with
    | .error e => .error e
    | .ok c => marshalPackets ps c

/-- `MarshalRTCP`. -/
def marshalRTCP (packets : List RTCPPacket) : Except Fault Bytes :=
  if packets = [] then unmarshalErrorf (ascii "rtcp: no packets to marshal")
  else (marshalPackets packets ⟨[], (packets.map RTCPPacket.marshalSize).sum⟩).map Cursor.written

/-! ### Reading -/

/-- `unmarshalRTCPHeader`. -/
def unmarshalRTCPHeader (data : Bytes) : Except Fault RTCPHeader :=
  if data.length < 4 then unmarshalErrorf (ascii "rtcp: packet too short for header")
  else
    let b := data.getD 0 0
    let version := b >>> 6 &&& 0x03
    if version ≠ 2 then unmarshalErrorf (ascii "rtcp: bad version " ++ formatNat version.toNat)
    else .ok {
      padding := decide ((b >>> 5) &&& 0x01 ≠ 0)
      count := b &&& 0x1F
      type := data.getD 1 0
      length := uint16 (data.drop 2) }

/-- `unmarshalReceptionReport`. -/
def unmarshalReceptionReport (data : Bytes) : Except Fault ReceptionReport :=
  if data.length < 24 then unmarshalErrorf (ascii "rtcp: reception report block too short")
  else .ok {
    ssrc := uint32 data
    fractionLost := data.getD 4 0
    totalLost := UInt32.ofNat (getBE ((data.drop 5).take 3))
    lastSequenceNumber := uint32 (data.drop 8)
    jitter := uint32 (data.drop 12)
    lastSenderReport := uint32 (data.drop 16)
    delay := uint32 (data.drop 20) }

/-- The loop over the reports of a packet, for `n` reports from number `i` on. -/
def unmarshalReports (what : Bytes) : Nat → Nat → Bytes → Nat →
    Except Fault (List ReceptionReport × Nat)
  | 0, _, _, off => .ok ([], off)
  | n + 1, i, body, off =>
    if body.length < off + 24 then
      unmarshalErrorf (ascii "rtcp: " ++ what ++ ascii " truncated in report block " ++ formatNat i)
    else
      match unmarshalReceptionReport (body.drop off) with
      | .error e => .error e
      | .ok rr => (unmarshalReports what n (i + 1) body (off + 24)).map (fun r => (rr :: r.1, r.2))

/-- `unmarshalSenderReport`. -/
def unmarshalSenderReport (hdr : RTCPHeader) (data : Bytes) : Except Fault SenderReport :=
  if data.length < 28 then unmarshalErrorf (ascii "rtcp: sender report too short")
  else
    let body := data.drop 4
    (unmarshalReports (ascii "sender report") hdr.count.toNat 0 body 24).map (fun r =>
      { reports := r.1
        profileExtensions := body.drop r.2
        ntpTime := uint64 (body.drop 4)
        ssrc := uint32 body
        rtpTime := uint32 (body.drop 12)
        packetCount := uint32 (body.drop 16)
        octetCount := uint32 (body.drop 20)
        hdr := hdr })

/-- `unmarshalReceiverReport`. -/
def unmarshalReceiverReport (hdr : RTCPHeader) (data : Bytes) : Except Fault ReceiverReport :=
  if data.length < 8 then unmarshalErrorf (ascii "rtcp: receiver report too short")
  else
    let body := data.drop 4
    (unmarshalReports (ascii "receiver report") hdr.count.toNat 0 body 4).map (fun r =>
      { reports := r.1
        profileExtensions := body.drop r.2
        ssrc := uint32 body
        hdr := hdr })

/-- The loop over the items of a chunk. Every turn takes at least two bytes, so
    the length of the body is fuel enough. -/
def unmarshalItems : Nat → Bytes → Nat → List SourceDescriptionItem →
    Except Fault (List SourceDescriptionItem × Nat)
  | 0, _, off, items => .ok (items, off)
  | fuel + 1, body, off, items =>
    if body.length ≤ off then .ok (items, off)
    else if body.getD off 0 = 0 then .ok (items, off + 1)
    else if body.length < off + 2 then
      unmarshalErrorf (ascii "rtcp: sdes item " ++ formatNat items.length ++
        ascii " truncated at header")
    else
      let itemLen := (body.getD (off + 1) 0).toNat
      if body.length < off + 2 + itemLen then
        unmarshalErrorf (ascii "rtcp: sdes item " ++ formatNat items.length ++
          ascii " truncated at text")
      else unmarshalItems fuel body (off + 2 + itemLen)
        (items ++ [⟨(body.drop (off + 2)).take itemLen, body.getD off 0⟩])

/-- The loop over the chunks, for `n` chunks from number `i` on. -/
def unmarshalChunks : Nat → Nat → Bytes → Nat → Except Fault (List SourceDescriptionChunk)
  | 0, _, _, _ => .ok []
  | n + 1, i, body, off =>
    if body.length < off + 4 then
      unmarshalErrorf (ascii "rtcp: sdes chunk " ++ formatNat i ++ ascii " too short for source")
    else
      match unmarshalItems body.length body (off + 4) [] with
      | .error e => .error e
      | .ok (items, off') => (unmarshalChunks n (i + 1) body (roundUp off')).map
          (fun chunks => ⟨items, uint32 (body.drop off)⟩ :: chunks)

/-- `unmarshalSourceDescription`. -/
def unmarshalSourceDescription (hdr : RTCPHeader) (data : Bytes) :
    Except Fault SourceDescription :=
  (unmarshalChunks hdr.count.toNat 0 (data.drop 4) 0).map (fun chunks => ⟨chunks, hdr⟩)

/-- `unmarshalGoodbye`. -/
def unmarshalGoodbye (hdr : RTCPHeader) (data : Bytes) : Except Fault Goodbye :=
  let body := data.drop 4
  let off := hdr.count.toNat * 4
  -- The first source that does not fit.
  if body.length < off then
    unmarshalErrorf (ascii "rtcp: bye truncated at source " ++ formatNat (body.length / 4))
  else
    let sources := uint32s hdr.count.toNat body
    if off < body.length then
      let reasonLen := (body.getD off 0).toNat
      if body.length < off + 1 + reasonLen then
        unmarshalErrorf (ascii "rtcp: bye truncated at reason")
      else .ok ⟨(body.drop (off + 1)).take reasonLen, sources, hdr⟩
    else .ok ⟨[], sources, hdr⟩

/-- Taking the padding off the data of an application-defined packet. -/
def stripPadding (padding : Bool) (data : Bytes) : Bytes :=
  if padding ∧ data ≠ [] then
    let padSize := (data.getLast?.getD 0).toNat
    if 0 < padSize ∧ padSize ≤ data.length then data.take (data.length - padSize) else data
  else data

/-- `unmarshalApplicationDefined`. -/
def unmarshalApplicationDefined (hdr : RTCPHeader) (data : Bytes) :
    Except Fault ApplicationDefined :=
  if data.length < 12 then unmarshalErrorf (ascii "rtcp: app packet too short")
  else .ok {
    name := (data.drop 8).take 4
    data := stripPadding hdr.padding (data.drop 12)
    ssrc := uint32 (data.drop 4)
    hdr := hdr
    subType := hdr.count }

/-- The part of `UnmarshalRTCP` for one packet. -/
def unmarshalPacket (hdr : RTCPHeader) (pktData : Bytes) : Except Fault RTCPPacket :=
  if hdr.type = rtcpTypeSR then (unmarshalSenderReport hdr pktData).map .sr
  else if hdr.type = rtcpTypeRR then (unmarshalReceiverReport hdr pktData).map .rr
  else if hdr.type = rtcpTypeSDES then (unmarshalSourceDescription hdr pktData).map .sdes
  else if hdr.type = rtcpTypeBYE then (unmarshalGoodbye hdr pktData).map .bye
  else if hdr.type = rtcpTypeAPP then (unmarshalApplicationDefined hdr pktData).map .app
  else .ok (.raw ⟨pktData.drop 4, hdr⟩)

/-- The loop of `UnmarshalRTCP`. Every turn takes at least four bytes, so the
    length of the data is fuel enough. -/
def unmarshalPackets : Nat → Bytes → Except Fault (List RTCPPacket)
  | 0, _ => .ok []
  | fuel + 1, data =>
    if data = [] then .ok []
    else if data.length < 4 then unmarshalErrorf (ascii "rtcp: truncated compound packet")
    else
      match unmarshalRTCPHeader data with
      | .error e => .error e
      | .ok hdr =>
        let pktLen := (hdr.length.toNat + 1) * 4
        if data.length < pktLen then
          unmarshalErrorf (ascii "rtcp: packet length " ++ formatNat pktLen ++
            ascii " exceeds remaining data " ++ formatNat data.length)
        else
          match unmarshalPacket hdr (data.take pktLen) with
          | .error e => .error e
          | .ok pkt => (unmarshalPackets fuel (data.drop pktLen)).map (fun pkts => pkt :: pkts)

/-- `UnmarshalRTCP`. -/
def unmarshalRTCP (data : Bytes) : Except Fault (List RTCPPacket) :=
  match unmarshalPackets data.length data with
  | .error e => .error e
  | .ok [] => unmarshalErrorf (ascii "rtcp: empty compound packet")
  | .ok packets => .ok packets

end Proto

end Trecs
