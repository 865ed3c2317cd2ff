import Trecs.Proto.Unmarshal

/-!
# Session Descriptions

The types of `proto/sdp.go`: a session description and its parts, field by
field.

How a description is read and written is a parameter, `SdpCodec`. The call
handling only asks whether a body is accepted and looks at the parts of what was
read, so what it does is stated for any reader and writer. Those of the source are
`sdpText`.

## Main definitions

* `SDP`: A parsed session description.
* `SdpCodec`: `UnmarshalSDPBytes` and `Marshal`.
-/

namespace Trecs

namespace Proto

/-- The origin line. -/
structure Origin where
  username : Bytes
  sessionID : Bytes
  sessionVersion : Bytes
  networkType : Bytes
  addressType : Bytes
  address : Bytes
deriving Repr, DecidableEq

/-- A connection line. -/
structure ConnectionInfo where
  networkType : Bytes
  addressType : Bytes
  address : Bytes
deriving Repr, DecidableEq

/-- A bandwidth line. -/
structure BandwidthInfo where
  type : Bytes
  value : Int64
deriving Repr, DecidableEq

/-- A repeat line, in seconds. -/
structure RepeatInfo where
  offsets : List Int64
  interval : Int64
  duration : Int64
deriving Repr, DecidableEq

/-- A time line with its repeat lines. -/
structure TimeDescription where
  repeats : List RepeatInfo
  start : Int64
  stop : Int64
deriving Repr, DecidableEq

/-- An encryption key line. -/
structure EncryptionKey where
  method : Bytes
  key : Bytes
deriving Repr, DecidableEq

/-- An attribute line. -/
structure Attribute where
  key : Bytes
  value : Bytes
deriving Repr, DecidableEq

/-- A media line and the lines that follow it. -/
structure MediaDescription where
  connection : Option ConnectionInfo
  encryption : Option EncryptionKey
  type : Bytes
  proto : Bytes
  title : Bytes
  fmt : List Bytes
  bandwidths : List BandwidthInfo
  attributes : List Attribute
  port : Int64
  portCount : Int64
deriving Repr, DecidableEq

/-- A session description. -/
structure SDP where
  connection : Option ConnectionInfo
  encryption : Option EncryptionKey
  origin : Origin
  sessionName : Bytes
  sessionInfo : Bytes
  uri : Bytes
  timeZone : Bytes
  phones : List Bytes
  bandwidths : List BandwidthInfo
  times : List TimeDescription
  emails : List Bytes
  attributes : List Attribute
  mediaDescs : List MediaDescription
  version : Int64
deriving Repr, DecidableEq

/-- Reading and writing session descriptions: `UnmarshalSDPBytes`, with `none`
    for its errors, and `Marshal`. -/
class SdpCodec where
  unmarshalSDPBytes : Bytes → Option SDP
  marshal : SDP → Bytes

export SdpCodec (unmarshalSDPBytes)

end Proto

end Trecs
