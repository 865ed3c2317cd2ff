import Trecs.Lib.Wire
import Trecs.Proto.Unmarshal

/-!
# RTP Packets

`proto/rtp.go`: the header of an RTP packet with its contributing sources and
its header extensions, the payload, and the padding behind it.

A header extension is a block of words with a 16-bit profile. Two profiles have
elements with a header of one or two bytes in it; for any other profile the
block is one element. The length of the block is a 16-bit number of words, so
the encoder fills the last word up.

The decoder does not check that the contributing sources fit into the packet
before it reads them, so a short packet makes it panic.

`Marshal` makes a buffer of `MarshalSize` bytes and calls `MarshalTo`, which
stores the length of an extension block after the block. It is stored in its
place here, which is the same since the places do not overlap.

## Main definitions

* `RTPExtension`, `RTPHeader`, `RTPPacket`: The Go structs.
* `unmarshalOneByteExtensions`, `unmarshalTwoByteExtensions`,
  `unmarshalExtensions`: The elements of a block.
* `unmarshalFixedHeader`, `unmarshalVariablePart`, `unmarshalRTP`: The decoder.
* `RTPPacket.marshalSize`, `RTPPacket.marshalTo`, `RTPPacket.marshal`: The
  encoder.
-/

namespace Trecs

open List

namespace Proto

/-- The one-byte header extension profile. -/
abbrev extensionProfileOneByte : UInt16 := 0xBEDE

/-- The two-byte header extension profile. -/
abbrev extensionProfileTwoByte : UInt16 := 0x1000

/-- The Go struct `RTPExtension`. -/
structure RTPExtension where
  payload : Bytes
  id : UInt8
deriving Repr, DecidableEq

/-- The Go struct `RTPHeader`. -/
structure RTPHeader where
  csrc : List UInt32
  extensions : List RTPExtension
  timestamp : UInt32
  ssrc : UInt32
  sequenceNumber : UInt16
  extensionProfile : UInt16
  version : UInt8
  padding : Bool
  marker : Bool
  payloadType : UInt8
  extension : Bool
  paddingSize : UInt8
deriving Repr, DecidableEq

/-- The Go struct `RTPPacket`. -/
structure RTPPacket where
  payload : Bytes
  header : RTPHeader
deriving Repr, DecidableEq

/-! ### Reading -/

/-- The loop of `unmarshalOneByteExtensionsTo`. Every turn takes at least one
    byte, so the length of the block is fuel enough. -/
def unmarshalOneByteExtensions : Nat → Bytes → List RTPExtension →
    Except Fault (List RTPExtension)
  | _, [], exts => .ok exts
  | 0, _ :: _, exts => .ok exts
  | fuel + 1, b :: data, exts =>
    if b = 0 then unmarshalOneByteExtensions fuel data exts
    else
      let id := b >>> 4
      if id = 0x0F then .ok exts
      else
        let payloadLen := (b &&& 0x0F).toNat + 1
        if data.length < payloadLen then
          unmarshalErrorf (ascii "rtp: one-byte extension truncated")
        else unmarshalOneByteExtensions fuel (data.drop payloadLen)
          (exts ++ [⟨data.take payloadLen, id⟩])

/-- The loop of `unmarshalTwoByteExtensionsTo`. -/
def unmarshalTwoByteExtensions : Nat → Bytes → List RTPExtension →
    Except Fault (List RTPExtension)
  | _, [], exts => .ok exts
  | 0, _ :: _, exts => .ok exts
  | fuel + 1, id :: data, exts =>
    if id = 0 then unmarshalTwoByteExtensions fuel data exts
    else
      match data with
      | [] => unmarshalErrorf (ascii "rtp: two-byte extension truncated at length")
      | len :: data =>
        if data.length < len.toNat then
          unmarshalErrorf (ascii "rtp: two-byte extension truncated")
        else unmarshalTwoByteExtensions fuel (data.drop len.toNat)
          (exts ++ [⟨data.take len.toNat, id⟩])

/-- `unmarshalExtensionsTo`. -/
def unmarshalExtensions (profile : UInt16) (data : Bytes) : Except Fault (List RTPExtension) :=
  if profile = extensionProfileOneByte then unmarshalOneByteExtensions data.length data []
  else if profile = extensionProfileTwoByte then unmarshalTwoByteExtensions data.length data []
  else if data = [] then .ok []
  else .ok [⟨data, 0⟩]

/-- The part of `UnmarshalRTPTo` for an extension at `n`: where it ends, its
    profile and its elements. -/
def unmarshalExtensionBlock (data : Bytes) (n : Nat) :
    Except Fault (Nat × UInt16 × List RTPExtension) :=
  if data.length < n + 4 then
    unmarshalErrorf (ascii "rtp: header too short for extension header")
  else
    let profile := uint16 (data.drop n)
    let extLen := (uint16 (data.drop (n + 2))).toNat * 4
    if data.length < n + 4 + extLen then
      unmarshalErrorf (ascii "rtp: header too short for extension data")
    else
      (unmarshalExtensions profile ((data.drop (n + 4)).take extLen)).map
        (fun exts => (n + 4 + extLen, profile, exts))

/-- The part of `UnmarshalRTPTo` for the padding of a packet whose payload starts
    at `n`: where the payload ends, and the size of the padding. -/
def unmarshalPadding (padding : Bool) (data : Bytes) (n : Nat) : Except Fault (Nat × UInt8) :=
  if padding then
    if data.length ≤ n then
      unmarshalErrorf (ascii "rtp: padding flag set but no room for pad byte")
    else
      let paddingSize := data.getLast?.getD 0
      if paddingSize = 0 then unmarshalErrorf (ascii "rtp: invalid padding size 0")
      else if data.length - n < paddingSize.toNat then
        unmarshalErrorf (ascii "rtp: padding size " ++ formatNat paddingSize.toNat ++
          ascii " exceeds payload length " ++ formatNat (data.length - n))
      else .ok (data.length - paddingSize.toNat, paddingSize)
  else .ok (data.length, 0)

/-- What `UnmarshalRTPTo` reads up to and including the contributing sources. -/
def unmarshalFixedHeader (data : Bytes) : RTPHeader :=
  let b0 := data.getD 0 0
  let b1 := data.getD 1 0
  { csrc := uint32s (b0 &&& 0x0F).toNat (data.drop 12)
    extensions := []
    timestamp := uint32 (data.drop 4)
    ssrc := uint32 (data.drop 8)
    sequenceNumber := uint16 (data.drop 2)
    extensionProfile := 0
    version := b0 >>> 6 &&& 0x03
    padding := decide ((b0 >>> 5) &&& 0x01 ≠ 0)
    marker := decide ((b1 >>> 7) &&& 0x01 ≠ 0)
    payloadType := b1 &&& 0x7F
    extension := decide ((b0 >>> 4) &&& 0x01 ≠ 0)
    paddingSize := 0 }

/-- What `UnmarshalRTPTo` reads behind the contributing sources. -/
def unmarshalVariablePart (h : RTPHeader) (data : Bytes) : Except Fault RTPPacket :=
  let n := 12 + h.csrc.length * 4
  match (if h.extension then unmarshalExtensionBlock data n else .ok (n, 0, [])) with
  | .error e => .error e
  | .ok (n, profile, exts) =>
    match unmarshalPadding h.padding data n with
    | .error e => .error e
    | .ok (fin, paddingSize) =>
      .ok ⟨(data.drop n).take (fin - n),
        { h with extensions := exts, extensionProfile := profile, paddingSize := paddingSize }⟩

/-- `UnmarshalRTP`. -/
def unmarshalRTP (data : Bytes) : Except Fault RTPPacket :=
  if data.length < 12 then
    unmarshalErrorf (ascii "rtp: packet too short: " ++ formatNat data.length ++ ascii " < 12")
  else
    let h := unmarshalFixedHeader data
    if h.version ≠ 2 then
      unmarshalErrorf (ascii "rtp: unsupported version " ++ formatNat h.version.toNat)
    -- The loop reads the sources without a look at the length.
    else if data.length < 12 + h.csrc.length * 4 then .error .panic
    else unmarshalVariablePart h data

/-! ### Writing -/

/-- What an element needs in a block of a profile. -/
def RTPExtension.size (profile : UInt16) (ext : RTPExtension) : Nat :=
  if profile = extensionProfileOneByte then 1 + ext.payload.length
  else if profile = extensionProfileTwoByte then 2 + ext.payload.length
  else ext.payload.length

namespace RTPHeader

/-- What all elements need. -/
def extensionSize (h : RTPHeader) : Nat :=
  (h.extensions.map (RTPExtension.size h.extensionProfile)).sum

/-- `buf[0]`. -/
def firstByte (h : RTPHeader) : UInt8 :=
  let b := (h.version <<< 6) ||| UInt8.ofNat h.csrc.length
  let b := if h.padding then b ||| (1 : UInt8) <<< 5 else b
  if h.extension then b ||| (1 : UInt8) <<< 4 else b

/-- `buf[1]`. -/
def secondByte (h : RTPHeader) : UInt8 :=
  if h.marker then h.payloadType ||| (1 : UInt8) <<< 7 else h.payloadType

/-- The fixed header and the contributing sources. -/
def fixedWrites (h : RTPHeader) : List Write :=
  [.store h.firstByte, .store h.secondByte] ++ stores (putUint16 h.sequenceNumber) ++
    stores (putUint32 h.timestamp) ++ stores (putUint32 h.ssrc) ++
    h.csrc.flatMap (fun csrc => stores (putUint32 csrc))

end RTPHeader

/-- The elements of a block with the one-byte profile. -/
def oneByteWrites : List RTPExtension → Except Fault (List Write)
  | [] => .ok []
  | ext :: exts =>
    if ext.id = 0 ∨ 15 ≤ ext.id then
      unmarshalErrorf (ascii "rtp: one-byte extension ID must be 1-14")
    else if 16 < ext.payload.length then
      unmarshalErrorf (ascii "rtp: one-byte extension payload max 16 bytes")
    else (oneByteWrites exts).map (fun ws =>
      .store ((ext.id <<< 4) ||| (UInt8.ofNat ext.payload.length - 1)) :: .copy ext.payload :: ws)

/-- The elements of a block with the two-byte profile. -/
def twoByteWrites : List RTPExtension → Except Fault (List Write)
  | [] => .ok []
  | ext :: exts =>
    if ext.id = 0 then unmarshalErrorf (ascii "rtp: two-byte extension ID must be 1-255")
    else if 255 < ext.payload.length then
      unmarshalErrorf (ascii "rtp: two-byte extension payload max 255 bytes")
    else (twoByteWrites exts).map (fun ws =>
      .store ext.id :: .store (UInt8.ofNat ext.payload.length) :: .copy ext.payload :: ws)

/-- The element of a block with another profile. -/
def profileWrites : List RTPExtension → Except Fault (List Write)
  | [] => .ok []
  | [ext] => .ok [.copy ext.payload]
  | _ => unmarshalErrorf
    (ascii "rtp: profile-defined extension supports only one extension block")

namespace RTPHeader

/-- The elements of a block. -/
def elementWrites (h : RTPHeader) : Except Fault (List Write) :=
  if h.extensionProfile = extensionProfileOneByte then oneByteWrites h.extensions
  else if h.extensionProfile = extensionProfileTwoByte then twoByteWrites h.extensions
  else profileWrites h.extensions

/-- What fills the last word of a block up. The one-byte profile has a
    terminator for it. -/
def blockPadding (h : RTPHeader) (extSize : Nat) : Bytes :=
  let padCount := roundUp extSize - extSize
  if 0 < padCount ∧ h.extensionProfile = extensionProfileOneByte then 0xF0 :: zeros (padCount - 1)
  else zeros padCount

/-- The extension, if there is one. -/
def extensionWrites (h : RTPHeader) : Except Fault (List Write) :=
  if h.extension then
    h.elementWrites.map (fun ws =>
      let extSize := (writeText ws).length
      stores (putUint16 h.extensionProfile) ++
        stores (putUint16 (UInt16.ofNat (roundUp extSize / 4))) ++ ws ++
        stores (h.blockPadding extSize))
  else .ok []

end RTPHeader

namespace RTPPacket

/-- `MarshalSize`. -/
def marshalSize (p : RTPPacket) : Nat :=
  12 + p.header.csrc.length * 4 +
    (if p.header.extension then roundUp (4 + p.header.extensionSize) else 0) +
    (p.payload.length + p.header.paddingSize.toNat)

/-- `MarshalTo`: the buffer afterwards and how many bytes of it are the packet. What
    the writes do not reach keeps its old contents. -/
def marshalTo (buf : Bytes) (p : RTPPacket) : Except Fault (Bytes × Nat) :=
  if buf.length < p.marshalSize then
    .error (.error (.failed (ascii "rtp: buffer too small for marshal")))
  else if 15 < p.header.csrc.length then
    unmarshalErrorf (ascii "rtp: too many CSRCs: " ++ formatNat p.header.csrc.length)
  else
    match p.header.extensionWrites with
    | .error e => .error e
    | .ok ws =>
      match writeAll (p.header.fixedWrites ++ ws ++ [.copy p.payload]) ⟨[], buf.length⟩ with
      | none => .error .panic
      | some c =>
        let used := c.written ++ buf.drop c.written.length
        -- With padding all of the buffer counts, not only what was written.
        if p.header.padding then .ok (used.dropLast ++ [p.header.paddingSize], used.length)
        else .ok (used, c.written.length)

/-- `Marshal`. -/
def marshal (p : RTPPacket) : Except Fault Bytes :=
  (p.marshalTo (zeros p.marshalSize)).map (fun r => r.1.take r.2)

end RTPPacket

end Proto

end Trecs
