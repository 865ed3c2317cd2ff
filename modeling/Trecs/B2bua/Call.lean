import Trecs.Sip.Uac

/-!
# Calls and the Call Store

The types of `internal/b2bua/call.go`. A call in progress has two dialogs, one
with each party, and is stored under the Call-ID of the first. A second map
leads from the Call-ID of the other dialog to it. While the callee is ringing
the call is in a third map, where CANCEL looks for it.

Each operation of the store holds its lock throughout. Bridges, media sessions
and sockets are left out: no decision depends on them.

## Main definitions

* `Dialog`, `Call`, `EarlyCall`: What is kept about a call.
* `Store.store`, `Store.get`, `Store.remove`: The answered calls.
* `Store.storeEarly`, `Store.getEarly`, `Store.removeEarly`: The ringing ones.
* `Call.byeToAlice`, `Call.byeToBob`: The BYE forwarded to the other party.
-/

namespace Trecs

namespace B2bua

open Proto Sip

/-- The states of a dialog. -/
inductive DialogState where
  | Early
  | Confirmed
  | Terminated
deriving Repr, DecidableEq

/-- The Go struct `DialogID`. -/
structure DialogID where
  callID : Bytes
  localTag : Bytes
  remoteTag : Bytes
deriving Repr, DecidableEq

/-- The fields of `Dialog` that call handling sets and reads. -/
structure Dialog where
  id : DialogID
  localURI : Bytes
  remoteURI : Bytes
  remoteTarget : Bytes
  state : DialogState
deriving Repr, DecidableEq

/-- `NewDialog`, then `SetState(DialogStateConfirmed)`. -/
def confirmedDialog (id : DialogID) (localURI remoteURI remoteTarget : Bytes) : Dialog :=
  ⟨id, localURI, remoteURI, remoteTarget, .Confirmed⟩

/-- An answered call. `trunkName` is empty for a call to a registered user. -/
structure Call where
  aliceCallID : Bytes
  bobCallID : Bytes
  bobContactURI : Bytes
  aliceContactURI : Bytes
  bobTransport : Transport
  bobTarget : Target
  aliceTransport : Transport
  aliceTarget : Target
  aliceDialog : Dialog
  bobDialog : Dialog
  bridgeReady : Bool
  trunkName : Bytes
deriving DecidableEq

/-- A ringing call. Its cancel function and its client transaction are those of
    the response loop that stored it, so the index of that loop stands for
    both. -/
structure EarlyCall where
  aliceCallID : Bytes
  bobCallID : Bytes
  aliceServerTag : Bytes
  loop : Nat
deriving Repr, DecidableEq

/-- The BYE to the party of dialog `dlg`, as `HandleBye` and
    `trunkSessionTimer` build it. -/
def byeOn (dlg : Dialog) (requestURI : Bytes) (transport : Transport)
    (serverIP serverPort branch : Bytes) : SIPMessage :=
  let bye := newRequest .BYE requestURI
  let h := SIPHeaders.add bye.headers hVia
    (ascii "SIP/2.0/" ++ transport.name ++ [SP] ++ serverIP ++ ascii ":" ++ serverPort ++
      ascii ";branch=" ++ branch)
  let h := SIPHeaders.add h hFrom
    (ascii "<" ++ stripBrackets dlg.localURI ++ ascii ">;tag=" ++ dlg.id.localTag)
  let h := SIPHeaders.add h hTo
    (ascii "<" ++ stripBrackets dlg.remoteURI ++ ascii ">;tag=" ++ dlg.id.remoteTag)
  let h := SIPHeaders.add h hCallID dlg.id.callID
  let h := SIPHeaders.add h (ascii "Max-Forwards") (ascii "70")
  let h := SIPHeaders.add h hContentLength (ascii "0")
  { bye with headers := h, cseq := { method := .BYE, seq := 2 } }

/-- The BYE to Alice. -/
def Call.byeToAlice (c : Call) (serverIP serverPort branch : Bytes) : SIPMessage :=
  byeOn c.aliceDialog (stripBrackets c.aliceContactURI) c.aliceTransport serverIP serverPort branch

/-- The BYE to Bob. -/
def Call.byeToBob (c : Call) (serverIP serverPort branch : Bytes) : SIPMessage :=
  byeOn c.bobDialog (stripBrackets c.bobContactURI) c.bobTransport serverIP serverPort branch

/-- The Go struct `Store`. -/
structure Store where
  calls : AList (fun _ : Bytes => Call)
  bobToAlice : AList (fun _ : Bytes => Bytes)
  early : AList (fun _ : Bytes => EarlyCall)

namespace Store

/-- `NewStore`. -/
def create : Store := ⟨∅, ∅, ∅⟩

/-- `Store`. -/
def store (s : Store) (call : Call) : Store :=
  { s with
    calls := s.calls.insert call.aliceCallID call
    bobToAlice := s.bobToAlice.insert call.bobCallID call.aliceCallID }

/-- `Get`. A missing key of the second map reads as the empty string. -/
def get (s : Store) (callID : Bytes) : Option Call :=
  match s.calls.lookup callID with
  | some c => some c
  | none =>
    match s.bobToAlice.lookup callID with
    | some aid => if aid ≠ [] then s.calls.lookup aid else none
    | none => none

/-- `Remove`. -/
def remove (s : Store) (aliceCID : Bytes) : Store :=
  match s.calls.lookup aliceCID with
  | some call =>
    { s with
      bobToAlice := s.bobToAlice.erase call.bobCallID
      calls := s.calls.erase aliceCID }
  | none => s

/-- `StoreEarly`. -/
def storeEarly (s : Store) (ec : EarlyCall) : Store :=
  { s with early := s.early.insert ec.aliceCallID ec }

/-- `GetEarly`. -/
def getEarly (s : Store) (callID : Bytes) : Option EarlyCall := s.early.lookup callID

/-- `RemoveEarly`. -/
def removeEarly (s : Store) (aliceCID : Bytes) : Store := { s with early := s.early.erase aliceCID }

end Store

end B2bua

end Trecs
