import Trecs.Proto.Sdp

/-!
# Offers and Answers

`internal/media/sdp.go`: the descriptions the server builds and the payload type
it picks from an offer.

`PickPayloadType` takes a pointer and ranges over the media descriptions behind
it without a check, so its model takes an `Option` and `none` is the panic.

## Main definitions

* `buildOffer`, `buildAnswer`: The descriptions the server sends.
* `pickPayloadType`: `PickPayloadType`.

## Theorems

* `pickPayloadType_eq_none_iff`: Picking from a missing offer is what panics.
-/

namespace Trecs

namespace Media

open Proto

/-- The payload type of mu-law audio. -/
def PCMU : UInt8 := 0

/-- The payload type of A-law audio. -/
def PCMA : UInt8 := 8

/-- `BuildOffer`. The session identifier is the time of the call. -/
def buildOffer (sessionID : Bytes) (rtpPort : Int64) (payloadType : UInt8) (serverIP : Bytes) :
    SDP where
  connection := some
    { networkType := ascii "IN", addressType := ascii "IP4", address := serverIP }
  encryption := none
  origin :=
    { username := ascii "-", sessionID := sessionID, sessionVersion := ascii "1"
      networkType := ascii "IN", addressType := ascii "IP4", address := serverIP }
  sessionName := ascii "echo"
  sessionInfo := []
  uri := []
  timeZone := []
  phones := []
  bandwidths := []
  times := [{ repeats := [], start := 0, stop := 0 }]
  emails := []
  attributes := []
  mediaDescs :=
    [{ connection := none, encryption := none
       type := ascii "audio", proto := ascii "RTP/AVP", title := []
       fmt := [formatNat payloadType.toNat]
       bandwidths := []
       attributes :=
         [{ key := ascii "rtpmap", value := formatNat payloadType.toNat ++ ascii " PCMU/8000" }]
       port := rtpPort, portCount := 0 }]
  version := 0

/-- `BuildAnswer`, which does not read the offer. -/
def buildAnswer (sessionID : Bytes) (_ : SDP) (rtpPort : Int64) (payloadType : UInt8)
    (serverIP : Bytes) : SDP :=
  buildOffer sessionID rtpPort payloadType serverIP

/-- One format of an audio line. Mu-law ends the search, which is the `error`
    case. -/
def scanFormat (best : UInt8) (f : Bytes) : Except UInt8 UInt8 :=
  match atoi (trimSpace f) with
  | .error _ => .ok best
  | .ok pt => if pt = 0 then .error PCMU else if pt = 8 then .ok PCMA else .ok best

/-- One media line. -/
def scanMedia (best : UInt8) (m : MediaDescription) : Except UInt8 UInt8 :=
  if m.type ≠ ascii "audio" then .ok best else m.fmt.foldlM scanFormat best

/-- `PickPayloadType`, which dereferences the offer. -/
def pickPayloadType : Option SDP → Option UInt8
  | none => none
  | some offer =>
    match offer.mediaDescs.foldlM scanMedia 255 with
    | .error pt => some pt
    | .ok best => some (if best ≠ 255 then best else PCMU)

theorem pickPayloadType_eq_none_iff (offer : Option SDP) :
    pickPayloadType offer = none ↔ offer = none := by
  cases offer with
  | none => exact Iff.intro (fun _ => rfl) (fun _ => rfl)
  | some offer =>
    simp only [pickPayloadType, reduceCtorEq, iff_false]
    split <;> simp only [reduceCtorEq, not_false_eq_true]

end Media

end Trecs
