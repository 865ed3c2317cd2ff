import Trecs.Proto.Unmarshal

/-!
# SIP Addresses

`UnmarshalSIPAddress` of `proto/sip.go`, which reads the value of a From, To or
Contact header: an address in angle brackets with a display name in front of it
and parameters behind it, or a bare address that ends where its tag starts.

## Main definitions

* `SIPAddress`: An address with its parameters.
* `unmarshalSIPAddress`: Reading a header value.
* `SIPMessage.fromAddress`, `SIPMessage.toAddress`: The From and To of a
  message.
-/

namespace Trecs

namespace Proto

/-- A parsed address. The tag is kept apart from the other parameters. -/
structure SIPAddress where
  params : AList (fun _ : Bytes => Bytes)
  displayName : Bytes
  uri : Bytes
  tag : Bytes

/-- `strings.ReplaceAll` of a backslash and `b` by `b`. -/
def unescape (b : UInt8) : Bytes → Bytes
  | 92 :: c :: rest => if c = b then b :: unescape b rest else 92 :: unescape b (c :: rest)
  | c :: rest => c :: unescape b rest
  | [] => []

/-- A display name without the quotes around it. -/
def unquoteDisplayName (s : Bytes) : Bytes :=
  if 2 ≤ s.length ∧ s.head? = some 34 ∧ s.getLast? = some 34 then
    unescape 92 (unescape 34 (s.tail.dropLast))
  else s

namespace SIPAddress

/-- One parameter, without the white space around it. -/
def unmarshalParam (ft : SIPAddress) (p : Bytes) : SIPAddress :=
  if p = [] then ft
  else
    match cut 61 p with
    | some (k, v) =>
      if k = ascii "tag" then { ft with tag := v } else { ft with params := ft.params.insert k v }
    | none => { ft with params := ft.params.insert p [] }

/-- The parameters behind an address, with or without a semicolon in front. -/
def unmarshalParams (ft : SIPAddress) (s : Bytes) : SIPAddress :=
  let s := if s.head? = some 59 then s.tail else s
  (split 59 s).foldl (fun ft p => ft.unmarshalParam (trimSpace p)) ft

end SIPAddress

/-- A bare address, and what follows it from its tag on. -/
def splitAddrSpec (raw : Bytes) : Bytes × Bytes :=
  match index (ascii ";tag=") raw with
  | some idx => (raw.take idx, raw.drop (idx + 1))
  | none => (raw, [])

/-- The value of a From, To or Contact header. -/
def unmarshalSIPAddress (raw : Bytes) : Except Fault SIPAddress :=
  let raw := trimSpace raw
  if raw = [] then unmarshalErrorf (ascii "empty From/To value")
  else
    match cut 60 raw with
    | some (display, rest) =>
      match cut 62 rest with
      | none => unmarshalErrorf (ascii "invalid name-addr: missing closing bracket")
      | some (uri, params) =>
        let ft : SIPAddress :=
          { params := ∅, displayName := unquoteDisplayName (trimSpace display),
            uri := trimSpace uri, tag := [] }
        .ok (ft.unmarshalParams (trimSpace params))
    | none =>
      let p := splitAddrSpec raw
      let ft : SIPAddress := { params := ∅, displayName := [], uri := p.1, tag := [] }
      .ok (ft.unmarshalParams p.2)

namespace SIPMessage

/-- `From`. -/
def fromAddress (m : SIPMessage) : Except Fault SIPAddress :=
  unmarshalSIPAddress (SIPHeaders.getFirst m.headers hFrom)

/-- `To`. -/
def toAddress (m : SIPMessage) : Except Fault SIPAddress :=
  unmarshalSIPAddress (SIPHeaders.getFirst m.headers hTo)

end SIPMessage

/-- A quoted name in front and a tag behind. -/
example : (unmarshalSIPAddress (ascii " \"Al\" <sip:a@h;lr> ; x ;tag=t1")).toOption.map
    (fun a => (a.displayName, a.uri, a.tag)) = some (ascii "Al", ascii "sip:a@h;lr", ascii "t1") := by
  decide +kernel

end Proto

end Trecs
