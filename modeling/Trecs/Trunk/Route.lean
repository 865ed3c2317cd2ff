import Trecs.Trunk.Config
import Trecs.Trunk.Manager

/-!
# Outbound Routes

`internal/trunk/route.go`: the trunk for a dialled number and the number to dial
there. The first route whose pattern is found in the number decides, as long as
its trunk exists.

## Main definitions

* `applyDigitManipulation`: The number for the trunk.
* `ConfiguredManager.matchRoute`: `MatchRoute`.
* `TrunkEntry.toTrunk`: A trunk as call handling sees it.
* `ConfiguredManager.routeTo`: `MatchRoute` as call handling sees it.
-/

namespace Trecs

namespace Trunks

/-- `applyDigitManipulation`. -/
def applyDigitManipulation (input : Bytes) (stripDigits : Int64) (prefixDigits : Bytes) : Bytes :=
  let result := if 0 < stripDigits.toInt ∧ stripDigits.toInt ≤ input.length then
    input.drop stripDigits.toInt.toNat else input
  if prefixDigits ≠ [] then prefixDigits ++ result else result

/-- A configured trunk without what only registering and address checks read. -/
def TrunkEntry.toTrunk (t : TrunkEntry) (h : t.name ≠ []) : Trunk where
  name := t.name
  host := t.host
  port := t.port
  transport := t.transport
  maxChannels := t.maxChannels.toInt
  callerID := t.callerID
  stripHeaders := t.stripHeaders
  sessionExpiresSec := t.sessionExpiresSec
  localIP := t.localIP
  named := h

namespace ConfiguredManager

variable [RegexpLib]

/-- The loop of `MatchRoute`. Every route in the table has been compiled. -/
def firstRoute (m : ConfiguredManager) (user : Bytes) :
    List OutboundRoute → Option (TrunkEntry × Bytes)
  | [] => none
  | r :: rs =>
    if r.compiled.any (fun re => RegexpLib.found re user) then
      match m.trunks.lookup r.trunkName with
      | none => firstRoute m user rs
      | some t => some (t, applyDigitManipulation user r.stripDigits r.prefixDigits)
    else firstRoute m user rs

/-- `MatchRoute`. -/
def matchRoute (m : ConfiguredManager) (user : Bytes) : Option (TrunkEntry × Bytes) :=
  m.firstRoute user m.routes

/-- `MatchRoute` as call handling sees it. A trunk in the table has a name if the
    configuration passed its checks. -/
def routeTo (m : ConfiguredManager) (user : Bytes) : Option (Trunk × Bytes) :=
  match m.matchRoute user with
  | none => none
  | some (t, dest) => if h : t.name ≠ [] then some (t.toTrunk h, dest) else none

end ConfiguredManager

end Trunks

end Trecs
