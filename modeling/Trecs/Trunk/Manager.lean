import Mathlib.Data.List.AList
import Trecs.Lib.Bytes

/-!
# Trunks and Their Channels

The part of `internal/trunk` that call handling uses: the configured trunks and
the number of calls each of them carries.

`activeCalls` is a Go map, where a missing key counts 0. A count is a natural
number: `ReleaseChannel` never goes below 0, and `AcquireChannel` adds one at a
time.

## Main definitions

* `Trunk`: The configuration of a trunk.
* `TrunkManager.acquireChannel`, `TrunkManager.releaseChannel`: The Go methods.

## Theorems

* `TrunkManager.active_acquireChannel`, `TrunkManager.active_releaseChannel`: What
  they count.
-/

namespace Trecs

open Option

namespace Trunks

/-- A trunk as configured, without the fields that only registration and
    address checks read. A configuration with an unnamed trunk is rejected when
    it is loaded. -/
structure Trunk where
  name : Bytes
  host : Bytes
  port : Int64
  transport : Bytes
  maxChannels : Int
  callerID : Bytes
  stripHeaders : List Bytes
  sessionExpiresSec : Int64
  localIP : Bytes
  named : name ≠ []
deriving DecidableEq

/-- The trunks and how many calls each of them carries. -/
structure TrunkManager where
  trunks : AList (fun _ : Bytes => Trunk)
  activeCalls : AList (fun _ : Bytes => Nat)

namespace TrunkManager

/-- `activeCalls[name]`. -/
def active (m : TrunkManager) (name : Bytes) : Nat := (m.activeCalls.lookup name).getD 0

/-- `activeCalls[name] = n`. -/
def setActive (m : TrunkManager) (name : Bytes) (n : Nat) : TrunkManager :=
  { m with activeCalls := m.activeCalls.insert name n }

@[simp] theorem active_setActive_self (m : TrunkManager) (name : Bytes) (n : Nat) :
    (m.setActive name n).active name = n := by
  rw [active, setActive, AList.lookup_insert, getD_some]

theorem active_setActive_of_ne (m : TrunkManager) (name t : Bytes) (n : Nat) (hne : t ≠ name) :
    (m.setActive name n).active t = m.active t := by
  rw [active, setActive, AList.lookup_insert_ne hne, active]

/-- `AcquireChannel`: `none` when the channel is refused. -/
def acquireChannel (m : TrunkManager) (name : Bytes) : Option TrunkManager :=
  match m.trunks.lookup name with
  | none => none
  | some t =>
    if t.maxChannels = 0 then some (m.setActive name (m.active name + 1))
    else if t.maxChannels ≤ (m.active name : Int) then none
    else some (m.setActive name (m.active name + 1))

/-- `ReleaseChannel`. -/
def releaseChannel (m : TrunkManager) (name : Bytes) : TrunkManager :=
  if 0 < m.active name then m.setActive name (m.active name - 1) else m

theorem acquireChannel_eq (m m' : TrunkManager) (name : Bytes)
    (h : m.acquireChannel name = some m') : m' = m.setActive name (m.active name + 1) := by
  unfold acquireChannel at h
  split at h
  · cases h
  · split at h
    · exact (some.inj h).symm
    · split at h
      · cases h
      · exact (some.inj h).symm

/-- A granted channel adds one call to its trunk. -/
theorem active_acquireChannel (m m' : TrunkManager) (name t : Bytes)
    (h : m.acquireChannel name = some m') :
    m'.active t = m.active t + if name = t then 1 else 0 := by
  rw [acquireChannel_eq m m' name h]
  by_cases ht : name = t
  · rw [if_pos ht, ← ht, active_setActive_self]
  · rw [if_neg ht, active_setActive_of_ne m name t _ (Ne.symm ht), Nat.add_zero]

/-- A channel given back takes one call from its trunk, if it has one. -/
theorem active_releaseChannel (m : TrunkManager) (name t : Bytes) :
    (m.releaseChannel name).active t = m.active t - if name = t then 1 else 0 := by
  unfold releaseChannel
  by_cases ht : name = t
  · rw [if_pos ht, ← ht]
    split
    · rw [active_setActive_self]
    · omega
  · rw [if_neg ht, Nat.sub_zero]
    split
    · rw [active_setActive_of_ne m name t _ (Ne.symm ht)]
    · rfl

end TrunkManager

end Trunks

end Trecs
