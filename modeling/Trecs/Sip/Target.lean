import Trecs.Lib.HostPort
import Trecs.Lib.Unicode
import Trecs.Sip.Transaction

/-!
# From a Contact to a Destination

`extractSIPURI` and `TargetFromContact`: where a request for a SIP URI is sent.

The URI is taken apart from the left. Everything behind the first semicolon is
parameters, of which only the transport counts, the last one if there are
several. What is left is cut at its first at sign, and the rest is a host with or
without a port. No part is checked, and a text that is not a URI has a
destination as well.

Resolving a name and dialling are the network's, which gets a host and a port.

## Main definitions

* `extractSIPURI`: The host, port and transport in a URI.
* `Destination`, `contactDestination`: Where that leads.
* `Dialer`, `Destination.reach`, `targetFromContact`: Getting there.
-/

namespace Trecs

namespace Sip

variable [UnicodeLower] [UnicodeUpper]

/-- One turn of the loop over the parameters. -/
def transportParam (transport p : Bytes) : Bytes :=
  match cut 61 (trimSpace p) with
  | some (k, v) => if equalFold k (ascii "transport") then toUpper v else transport
  | none => transport

/-- The transport the parameters of a URI ask for. -/
def transportOf (params : Bytes) : Bytes :=
  if params ≠ [] then (split 59 params).foldl transportParam (ascii "UDP") else ascii "UDP"

/-- The host and port of a URI without scheme and parameters. -/
def hostPortOf (uri : Bytes) : Bytes × Int64 :=
  let uri := match cut 64 uri with
    | some (_, r) => r
    | none => uri
  match splitHostPort uri with
  | none => (uri, 5060)
  | some (host, p) =>
    match atoi p with
    | .ok port => (host, port)
    | .error _ => (host, 5060)

/-- `extractSIPURI`. -/
def extractSIPURI (contactURI : Bytes) : Bytes × Int64 × Bytes :=
  let uri := if ascii "sip:" <+: toLower contactURI then contactURI.drop 4 else contactURI
  let (uri, params) := match cut 59 uri with
    | some (u, params) => (u, params)
    | none => (uri, [])
  ((hostPortOf uri).1, (hostPortOf uri).2, transportOf params)

/-- A network destination. -/
structure Destination where
  network : Transport
  host : Bytes
  port : Int64
deriving Repr, DecidableEq

/-- Where `TargetFromContact` turns to for a URI. -/
def contactDestination (contactURI : Bytes) : Destination :=
  let (host, port, transport) := extractSIPURI contactURI
  ⟨if transport = ascii "TCP" then .tcp else .udp, host, port⟩

/-- What the network does with a host and a port: resolving them to a UDP
    address, or dialling a TCP connection. -/
structure Dialer where
  resolveUDP : Bytes → Int64 → Option Bytes
  dialTCP : Bytes → Int64 → Option Nat

/-- The target for a destination. -/
def Destination.reach (d : Destination) (net : Dialer) : Option Target :=
  match d.network with
  | .udp => (net.resolveUDP d.host d.port).map (fun addr => ⟨some addr, none, []⟩)
  | .tcp => (net.dialTCP d.host d.port).map (fun conn => ⟨none, some conn, []⟩)

/-- `TargetFromContact`. -/
def targetFromContact (net : Dialer) (contactURI : Bytes) : Option (Target × Transport) :=
  ((contactDestination contactURI).reach net).map
    (fun target => (target, (contactDestination contactURI).network))

end Sip

end Trecs
