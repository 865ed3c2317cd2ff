import Trecs.Lib.Trim
import Trecs.Lib.Wire
import Trecs.Proto.Marshal
import Trecs.Proto.Sdp

/-!
# Reading and Writing Session Descriptions

The reader and the writer of `proto/sdp.go`.

A description is a sequence of lines, each a letter, an equals sign and a value.
The reader takes the lines in any order. A line belongs to the last media line
before it, or to the session if there was none. White space at both ends of a
line is dropped, and a line with nothing else on it is skipped.

`readLine` reports an error only when nothing was read, so the branches of the
source for an error behind some text are never taken.

The writer puts the lines down in a fixed order into a buffer of `MarshalSize`
bytes. It leaves out a text that is empty and a number of ports that is not
above one. `intLen` counts no digit of a negative number.

The errors print their argument with `%q`. The model keeps the argument as it
is.

## Main definitions

* `SdpError`: What a failed call returns.
* `SDP.unmarshalLine`: One line.
* `SDP.unmarshalSDPBytes`: `UnmarshalSDPBytes`.
* `SDP.marshalSize`, `SDP.lines`, `SDP.marshal`: The writer.
-/

namespace Trecs

namespace Proto

/-- An error of `strconv`: the function, its argument, and what was wrong. -/
structure NumFailure where
  func : Bytes
  num : Bytes
  err : NumError
deriving Repr, DecidableEq

/-- An `UnmarshalError`: its text up to the argument, the argument, and the
    cause. -/
structure SdpError where
  msg : Bytes
  arg : Bytes
  cause : Option NumFailure
deriving Repr, DecidableEq

/-- `UnmarshalErrorf`. -/
def sdpErrorf {α : Type} (msg arg : Bytes) : Except SdpError α := .error ⟨msg, arg, none⟩

/-- A number, by `strconv.Atoi` or by `strconv.ParseInt` in base ten with 64
    bits, which take the same texts. -/
def sdpNumber (func msg arg s : Bytes) : Except SdpError Int64 :=
  match atoi s with
  | .error e => .error ⟨msg, arg, some ⟨func, s, e⟩⟩
  | .ok n => .ok n

/-- `strings.Cut` at a space, where the space has to be there. -/
def cutSpace (msg val s : Bytes) : Except SdpError (Bytes × Bytes) :=
  match cut SP s with
  | none => sdpErrorf msg val
  | some p => .ok p

/-! ### Values -/

/-- `unmarshalOrigin`. -/
def unmarshalOrigin (val : Bytes) : Except SdpError Origin := do
  let msg := ascii "sdp: invalid origin: "
  let f1 ← cutSpace msg val val
  let f2 ← cutSpace msg val (trimLeft f1.2)
  let f3 ← cutSpace msg val (trimLeft f2.2)
  let f4 ← cutSpace msg val (trimLeft f3.2)
  let f5 ← cutSpace msg val (trimLeft f4.2)
  pure ⟨f1.1, f2.1, f3.1, f4.1, f5.1, f5.2⟩

/-- `unmarshalConnection`. -/
def unmarshalConnection (val : Bytes) : Except SdpError ConnectionInfo := do
  let msg := ascii "sdp: invalid connection: "
  let f1 ← cutSpace msg val val
  let f2 ← cutSpace msg val (trimLeft f1.2)
  pure ⟨f1.1, f2.1, f2.2⟩

/-- `unmarshalBandwidth`. -/
def unmarshalBandwidth (val : Bytes) : Except SdpError BandwidthInfo :=
  match cut 58 val with
  | none => sdpErrorf (ascii "sdp: invalid bandwidth: ") val
  | some (before, after) => do
    let n ← sdpNumber (ascii "Atoi") (ascii "sdp: invalid bandwidth value: ") val (trimSpace after)
    pure ⟨trimSpace before, n⟩

/-- `unmarshalTime`. -/
def unmarshalTime (val : Bytes) : Except SdpError TimeDescription := do
  let f ← cutSpace (ascii "sdp: invalid time: ") val val
  let stopStr := trimSpace f.2
  if stopStr = [] then sdpErrorf (ascii "sdp: invalid time: ") val
  else
    let start ← sdpNumber (ascii "ParseInt") (ascii "sdp: invalid time start: ") val f.1
    let stop ← sdpNumber (ascii "ParseInt") (ascii "sdp: invalid time stop: ") val stopStr
    pure ⟨[], start, stop⟩

/-- The loop over the offsets. Every turn takes a byte, so the length of the text
    is fuel enough. -/
def unmarshalOffsets : Nat → Bytes → Except SdpError (List Int64)
  | 0, _ => .ok []
  | fuel + 1, rest =>
    if rest = [] then .ok []
    else do
      let f := (cut SP rest).getD (rest, [])
      let n ← sdpNumber (ascii "ParseInt") (ascii "sdp: invalid repeat offset: ") f.1 f.1
      let ns ← unmarshalOffsets fuel (trimLeft f.2)
      pure (n :: ns)

/-- `unmarshalRepeat`. -/
def unmarshalRepeat (val : Bytes) : Except SdpError RepeatInfo := do
  let msg := ascii "sdp: invalid repeat: "
  let f1 ← cutSpace msg val val
  let f2 ← cutSpace msg val (trimLeft f1.2)
  let interval ← sdpNumber (ascii "ParseInt") (ascii "sdp: invalid repeat interval: ") val f1.1
  let duration ← sdpNumber (ascii "ParseInt") (ascii "sdp: invalid repeat duration: ") val f2.1
  let offsets ← unmarshalOffsets f2.2.length (trimLeft f2.2)
  pure ⟨offsets, interval, duration⟩

/-- `unmarshalEncryption`. -/
def unmarshalEncryption (val : Bytes) : EncryptionKey :=
  match cut 58 val with
  | none => ⟨val, []⟩
  | some (before, after) => ⟨before, after⟩

/-- `unmarshalAttribute`. -/
def unmarshalAttribute (val : Bytes) : Attribute :=
  match cut 58 val with
  | some (k, v) => ⟨k, v⟩
  | none => ⟨val, []⟩

/-- The port and the number of ports, which stands behind a slash. -/
def unmarshalPort (val portStr : Bytes) : Except SdpError (Int64 × Int64) :=
  match cut 47 portStr with
  | none => do
    let port ← sdpNumber (ascii "Atoi") (ascii "sdp: invalid media port: ") val portStr
    pure (port, 1)
  | some (portStr, countStr) => do
    let portCount ←
      sdpNumber (ascii "Atoi") (ascii "sdp: invalid media port count: ") val countStr
    let port ← sdpNumber (ascii "Atoi") (ascii "sdp: invalid media port: ") val portStr
    pure (port, portCount)

/-- `unmarshalMedia`. -/
def unmarshalMedia (val : Bytes) : Except SdpError MediaDescription := do
  let msg := ascii "sdp: invalid media: "
  let f1 ← cutSpace msg val val
  let f2 ← cutSpace msg val (trimLeft f1.2)
  let f3 ← cutSpace msg val (trimLeft f2.2)
  let ports ← unmarshalPort val f2.1
  let rest := trimLeft f3.2
  pure {
    connection := none
    encryption := none
    type := f1.1
    proto := f3.1
    title := []
    fmt := if rest = [] then [] else split SP rest
    bandwidths := []
    attributes := []
    port := ports.1
    portCount := ports.2 }

/-! ### Lines -/

/-- A repeat line goes to the last time line. -/
def addRepeat (times : List TimeDescription) (r : RepeatInfo) : List TimeDescription :=
  match times.getLast? with
  | none => times
  | some t => times.dropLast ++ [{ t with repeats := t.repeats ++ [r] }]

namespace SDP

/-- `unmarshalSessionLine`. -/
def unmarshalSessionLine (sdp : SDP) (typ : UInt8) (val : Bytes) : Except SdpError SDP :=
  match typ with
  | 111 /- o -/ => (unmarshalOrigin val).map (fun o => { sdp with origin := o })
  | 115 /- s -/ => .ok { sdp with sessionName := val }
  | 105 /- i -/ => .ok { sdp with sessionInfo := val }
  | 117 /- u -/ => .ok { sdp with uri := val }
  | 101 /- e -/ => .ok { sdp with emails := sdp.emails ++ [val] }
  | 112 /- p -/ => .ok { sdp with phones := sdp.phones ++ [val] }
  | 99 /- c -/ => (unmarshalConnection val).map (fun c => { sdp with connection := some c })
  | 98 /- b -/ =>
    (unmarshalBandwidth val).map (fun b => { sdp with bandwidths := sdp.bandwidths ++ [b] })
  | 116 /- t -/ => (unmarshalTime val).map (fun t => { sdp with times := sdp.times ++ [t] })
  | 114 /- r -/ =>
    if sdp.times = [] then sdpErrorf (ascii "sdp: repeat line before any time line") []
    else (unmarshalRepeat val).map (fun r => { sdp with times := addRepeat sdp.times r })
  | 122 /- z -/ => .ok { sdp with timeZone := val }
  | 107 /- k -/ => .ok { sdp with encryption := some (unmarshalEncryption val) }
  | 97 /- a -/ => .ok { sdp with attributes := sdp.attributes ++ [unmarshalAttribute val] }
  | _ => sdpErrorf (ascii "sdp: unknown session-level field type: ") [typ]

end SDP

/-- `unmarshalMediaLine`. -/
def unmarshalMediaLine (md : MediaDescription) (typ : UInt8) (val : Bytes) :
    Except SdpError MediaDescription :=
  match typ with
  | 105 /- i -/ => .ok { md with title := val }
  | 99 /- c -/ => (unmarshalConnection val).map (fun c => { md with connection := some c })
  | 98 /- b -/ =>
    (unmarshalBandwidth val).map (fun b => { md with bandwidths := md.bandwidths ++ [b] })
  | 107 /- k -/ => .ok { md with encryption := some (unmarshalEncryption val) }
  | 97 /- a -/ => .ok { md with attributes := md.attributes ++ [unmarshalAttribute val] }
  | _ => sdpErrorf (ascii "sdp: unknown media-level field type: ") [typ]

namespace SDP

/-- `&SDP{}`. -/
def zero : SDP where
  connection := none
  encryption := none
  origin := ⟨[], [], [], [], [], []⟩
  sessionName := []
  sessionInfo := []
  uri := []
  timeZone := []
  phones := []
  bandwidths := []
  times := []
  emails := []
  attributes := []
  mediaDescs := []
  version := 0

/-- The variables of the loop: the description, and whether its version was
    seen. The media description that a line belongs to is the last one. -/
structure Loop where
  sdp : SDP
  seenVersion : Bool
deriving Repr, DecidableEq

/-- The part of the loop behind the checks of a line. -/
def unmarshalField (st : Loop) (typ : UInt8) (val : Bytes) : Except SdpError Loop :=
  if typ = 109 /- m -/ then
    (unmarshalMedia val).map
      (fun md => { st with sdp := { st.sdp with mediaDescs := st.sdp.mediaDescs ++ [md] } })
  else if typ = 118 /- v -/ then
    if st.seenVersion then sdpErrorf (ascii "sdp: duplicate version line") []
    else (sdpNumber (ascii "Atoi") (ascii "sdp: invalid version: ") val (trimSpace val)).map
      (fun n => ⟨{ st.sdp with version := n }, true⟩)
  else
    match st.sdp.mediaDescs.getLast? with
    | some md => (unmarshalMediaLine md typ val).map (fun md =>
      { st with sdp := { st.sdp with mediaDescs := st.sdp.mediaDescs.dropLast ++ [md] } })
    | none => (unmarshalSessionLine st.sdp typ val).map (fun sdp => { st with sdp := sdp })

/-- One turn of the loop, with the line that was read. -/
def unmarshalLine (st : Loop) (line : Bytes) : Except SdpError Loop :=
  match trimSpace line with
  | [] => .ok st
  | typ :: 61 :: b :: val => unmarshalField st typ (b :: val)
  | line => sdpErrorf (ascii "sdp: malformed line: ") line

/-- The checks behind the loop. -/
def checkLoop (st : Loop) : Except SdpError SDP :=
  if st.seenVersion = false then sdpErrorf (ascii "sdp: missing version (v=) line") []
  else if st.sdp.version ≠ 0 then
    sdpErrorf (ascii "sdp: protocol version must be 0, got ") (formatInt st.sdp.version.toInt)
  else if st.sdp.origin.username = [] then sdpErrorf (ascii "sdp: missing origin (o=) line") []
  else if st.sdp.sessionName = [] then sdpErrorf (ascii "sdp: missing session name (s=) line") []
  else if st.sdp.times = [] then sdpErrorf (ascii "sdp: missing time (t=) line") []
  else .ok st.sdp

/-- The loop of `UnmarshalSDP`. Every turn takes a byte from the reader, so the
    number of its tokens and one turn more are fuel enough. -/
def unmarshalLoop : Nat → Bool → Loop → Reader → Option (Except SdpError SDP)
  | 0, _, _, _ => none
  | fuel + 1, seenFirstLine, st, r =>
    match Parser.run readLine r with
    | none => none
    | some (.error _, _) =>
      if seenFirstLine then some (checkLoop st) else some (sdpErrorf (ascii "sdp: empty body") [])
    | some (.ok line, r) =>
      match unmarshalLine st line with
      | .error e => some (.error e)
      | .ok st => unmarshalLoop fuel true st r

/-- `UnmarshalSDP`. -/
def unmarshalSDP (r : Reader) : Option (Except SdpError SDP) :=
  unmarshalLoop (r.tokens.length + 1) false ⟨zero, false⟩ r

/-- `UnmarshalSDPBytes`. -/
def unmarshalSDPBytes (data : Bytes) : Option (Except SdpError SDP) :=
  unmarshalSDP (Reader.ofBytes data)

end SDP

/-! ### The size of the text -/

/-- `joinLen` with a separator of one byte. -/
def joinLen (strs : List Bytes) : Nat :=
  if strs = [] then 0 else (strs.length - 1) + (strs.map List.length).sum

/-- What a line with a text takes. -/
def lineSize (s : Bytes) : Nat := 2 + s.length + 2

/-- What a line takes that is left out when its text is empty. -/
def optionalSize (s : Bytes) : Nat := if s ≠ [] then lineSize s else 0

namespace ConnectionInfo

/-- What a connection line takes. -/
def size (c : ConnectionInfo) : Nat :=
  2 + c.networkType.length + 1 + c.addressType.length + 1 + c.address.length + 2

end ConnectionInfo

/-- What a bandwidth line takes. -/
def BandwidthInfo.size (bw : BandwidthInfo) : Nat :=
  2 + bw.type.length + 1 + intLen bw.value.toInt + 2

/-- What a repeat line takes. -/
def RepeatInfo.size (r : RepeatInfo) : Nat :=
  2 + intLen r.interval.toInt + 1 + intLen r.duration.toInt +
    (r.offsets.map (fun o => 1 + intLen o.toInt)).sum + 2

/-- What a time line takes, with its repeat lines. -/
def TimeDescription.size (td : TimeDescription) : Nat :=
  2 + intLen td.start.toInt + 1 + intLen td.stop.toInt + 2 +
    (td.repeats.map RepeatInfo.size).sum

/-- What a line takes that has a name and, if it is not empty, a value. -/
def pairSize (name value : Bytes) : Nat :=
  2 + name.length + 2 + (if value ≠ [] then 1 + value.length else 0)

/-- What the lines of a media description take. -/
def MediaDescription.size (md : MediaDescription) : Nat :=
  2 + md.type.length + 1 + intLen md.port.toInt +
    (if 1 < md.portCount.toInt then 1 + intLen md.portCount.toInt else 0) +
    (1 + md.proto.length + 1 + joinLen md.fmt + 2) +
    optionalSize md.title +
    (md.connection.map ConnectionInfo.size).getD 0 +
    (md.bandwidths.map BandwidthInfo.size).sum +
    (md.encryption.map (fun k => pairSize k.method k.key)).getD 0 +
    (md.attributes.map (fun a => pairSize a.key a.value)).sum

/-- `MarshalSize`. -/
def SDP.marshalSize (s : SDP) : Nat :=
  (2 + intLen s.version.toInt + 2) +
    (2 + s.origin.username.length + 1 + s.origin.sessionID.length + 1 +
      s.origin.sessionVersion.length + 1 + s.origin.networkType.length + 1 +
      s.origin.addressType.length + 1 + s.origin.address.length + 2) +
    lineSize s.sessionName +
    optionalSize s.sessionInfo +
    optionalSize s.uri +
    (s.emails.map lineSize).sum +
    (s.phones.map lineSize).sum +
    (s.connection.map ConnectionInfo.size).getD 0 +
    (s.bandwidths.map BandwidthInfo.size).sum +
    (s.times.map TimeDescription.size).sum +
    optionalSize s.timeZone +
    (s.encryption.map (fun k => pairSize k.method k.key)).getD 0 +
    (s.attributes.map (fun a => pairSize a.key a.value)).sum +
    (s.mediaDescs.map MediaDescription.size).sum

/-! ### Writing -/

/-- A line to be written: its letter, and how its value is written. -/
structure SdpLine where
  typ : UInt8
  value : List Write
deriving Repr, DecidableEq

/-- The letter and the equals sign, the value, and the line end. -/
def SdpLine.writes (l : SdpLine) : List Write :=
  [.store2 l.typ 61] ++ l.value ++ [.store2 CR LF]

/-- A line with a text. -/
def textLine (typ : UInt8) (s : Bytes) : SdpLine := ⟨typ, [.copy s]⟩

/-- A line that is left out when its text is empty. -/
def optionalLine (typ : UInt8) (s : Bytes) : List SdpLine :=
  if s ≠ [] then [textLine typ s] else []

/-- A line with a name and, if it is not empty, a value. -/
def pairLine (typ : UInt8) (name value : Bytes) : SdpLine :=
  ⟨typ, .copy name :: (if value ≠ [] then [.store 58, .copy value] else [])⟩

/-- The origin line. -/
def Origin.line (o : Origin) : SdpLine :=
  ⟨111, [.copy o.username, .store SP, .copy o.sessionID, .store SP, .copy o.sessionVersion,
    .store SP, .copy o.networkType, .store SP, .copy o.addressType, .store SP, .copy o.address]⟩

/-- A connection line. -/
def ConnectionInfo.line (c : ConnectionInfo) : SdpLine :=
  ⟨99, [.copy c.networkType, .store SP, .copy c.addressType, .store SP, .copy c.address]⟩

/-- A bandwidth line. -/
def BandwidthInfo.line (bw : BandwidthInfo) : SdpLine :=
  ⟨98, [.copy bw.type, .store 58, .appendInt bw.value.toInt]⟩

/-- A repeat line. -/
def RepeatInfo.line (r : RepeatInfo) : SdpLine :=
  ⟨114, [.appendInt r.interval.toInt, .store SP, .appendInt r.duration.toInt] ++
    r.offsets.flatMap (fun o => [.store SP, .appendInt o.toInt])⟩

/-- A time line and its repeat lines. -/
def TimeDescription.lines (td : TimeDescription) : List SdpLine :=
  ⟨116, [.appendInt td.start.toInt, .store SP, .appendInt td.stop.toInt]⟩ ::
    td.repeats.map RepeatInfo.line

/-- A key line. -/
def EncryptionKey.line (k : EncryptionKey) : SdpLine := pairLine 107 k.method k.key

/-- An attribute line. -/
def Attribute.line (a : Attribute) : SdpLine := pairLine 97 a.key a.value

/-- The formats of a media line. -/
def fmtWrites : List Bytes → List Write
  | [] => []
  | f :: fs => .copy f :: fs.flatMap (fun f => [.store SP, .copy f])

/-- A media line. -/
def MediaDescription.line (md : MediaDescription) : SdpLine :=
  ⟨109, [.copy md.type, .store SP, .appendInt md.port.toInt] ++
    (if 1 < md.portCount.toInt then [.store 47, .appendInt md.portCount.toInt] else []) ++
    [.store SP, .copy md.proto, .store SP] ++ fmtWrites md.fmt⟩

/-- A media line and the lines that follow it. -/
def MediaDescription.lines (md : MediaDescription) : List SdpLine :=
  md.line :: (optionalLine 105 md.title ++ (md.connection.map ConnectionInfo.line).toList ++
    md.bandwidths.map BandwidthInfo.line ++ (md.encryption.map EncryptionKey.line).toList ++
    md.attributes.map Attribute.line)

namespace SDP

/-- The lines of a description, in the order of the writer. -/
def lines (s : SDP) : List SdpLine :=
  ⟨118, [.appendInt s.version.toInt]⟩ :: s.origin.line :: textLine 115 s.sessionName ::
    (optionalLine 105 s.sessionInfo ++ optionalLine 117 s.uri ++ s.emails.map (textLine 101) ++
      s.phones.map (textLine 112) ++ (s.connection.map ConnectionInfo.line).toList ++
      s.bandwidths.map BandwidthInfo.line ++ s.times.flatMap TimeDescription.lines ++
      optionalLine 122 s.timeZone ++ (s.encryption.map EncryptionKey.line).toList ++
      s.attributes.map Attribute.line ++ s.mediaDescs.flatMap MediaDescription.lines)

/-- `marshalTo`. -/
def writes (s : SDP) : List Write := s.lines.flatMap SdpLine.writes

/-- `Marshal`. The error it returns is always nil, and `none` is a panic. The
    buffer is made of zeros. -/
def marshal (s : SDP) : Option Bytes :=
  (writeAll s.writes ⟨[], s.marshalSize⟩).map (fun c => c.written ++ zeros c.room)

end SDP

/-- The reader and the writer of this module. The descriptions that the server
    builds have no negative number, so writing them does not panic. -/
instance sdpText : SdpCodec where
  unmarshalSDPBytes data := (SDP.unmarshalSDPBytes data).bind Except.toOption
  marshal s := s.marshal.getD []

end Proto

end Trecs
