import Trecs.Lib.Unicode
import Trecs.Lib.Bytes

/-!
# Contacts and Addresses of Record

The functions of `internal/sip/registrar.go` that read Contact headers, and the
functions of `internal/sip/uri.go` and `internal/sip/password.go` on the
addresses of record a registrar works with.

A Contact header holds several values, separated by commas outside angle
brackets. A value in angle brackets takes its parameters from behind the
brackets. A bare address keeps all its parameters but a trailing `expires`. A
value that does not parse is skipped.

There are three ways to compare addresses of record. `NormalizeAOR` drops
everything from the first colon behind the first at sign. `AORAllowed` drops the
parameters before it does that. `uriHostname` looks at what is behind the last
at sign.

## Main definitions

* `normalizeAOR`, `uriHostname`, `aorAllowed`: Comparing addresses.
* `ParsedContact`, `parseContactURI`: One contact.
* `extractContacts`: All contacts of a request, and whether there is a star.
-/

namespace Trecs

namespace Sip

/-! ### Addresses of record -/

/-- `NormalizeAOR`. -/
def normalizeAOR (uri : Bytes) : Bytes :=
  match cut 64 uri with
  | none => uri
  | some (before, after) =>
    match cut 58 after with
    | none => uri
    | some (host, _) => before ++ [64] ++ host

/-- `uriHost`: what is behind the last at sign, up to the parameters. -/
def uriHost (uri : Bytes) : Bytes :=
  let uri := if ascii "sip:" <+: uri then uri.drop 4 else uri
  let uri := (uri.reverse.takeWhile (fun b => b ≠ 64)).reverse
  uri.takeWhile (fun b => b ≠ 59)

/-- `uriHostname`. -/
def uriHostname (uri : Bytes) : Bytes := (uriHost uri).takeWhile (fun b => b ≠ 58)

/-- `StripURIParams`. -/
def stripURIParams (uri : Bytes) : Bytes := uri.takeWhile (fun b => b ≠ 59)

/-- `AORAllowed`. -/
def aorAllowed (allowed : List Bytes) (aor : Bytes) : Bool :=
  let aorNorm := normalizeAOR (stripURIParams aor)
  allowed.any (fun a => normalizeAOR a = aorNorm)

/-! ### Contacts -/

/-- The Go struct `parsedContact`. An `expires` below zero means that there was
    none, and so does a `regID`. -/
structure ParsedContact where
  uri : Bytes
  sipInstance : Bytes
  expires : Int64
  regID : Int64
  ob : Bool
deriving Repr, DecidableEq

/-- A number that is not negative, or the value so far. -/
def atoiOr (v : Bytes) (old : Int64) : Int64 :=
  match atoi v with
  | .ok n => if 0 ≤ n then n else old
  | .error _ => old

/-- `addHeaderParam`. -/
def ParsedContact.addHeaderParam (pc : ParsedContact) (param : Bytes) : ParsedContact :=
  let param := trimSpace param
  if equalFold param (ascii "ob") then { pc with ob := true }
  else
    match cut 61 param with
    | none => pc
    | some (k, v) =>
      if equalFold k (ascii "reg-id") then { pc with regID := atoiOr v pc.regID }
      else if equalFold k (ascii "expires") then { pc with expires := atoiOr v pc.expires }
      else if equalFold k (ascii "+sip.instance") then { pc with sipInstance := v }
      else pc

/-- The loop of `splitContactValues` with the number of open brackets and, in
    reverse, the value so far. -/
def splitContactFrom : Nat → Bytes → Bytes → List Bytes
  | _, cur, [] => if cur = [] then [] else [cur.reverse]
  | depth, cur, b :: rest =>
    if b = 60 then splitContactFrom (depth + 1) (b :: cur) rest
    else if b = 62 then splitContactFrom (depth - 1) (b :: cur) rest
    else if b = 44 ∧ depth = 0 then cur.reverse :: splitContactFrom depth [] rest
    else splitContactFrom depth (b :: cur) rest

/-- `splitContactValues`. -/
def splitContactValues (raw : Bytes) : List Bytes := splitContactFrom 0 [] raw

/-- The loop of `splitAddrSpecContact` over the parts from the last one on: the
    parts that are left, and the `expires` found. The first part always stays. -/
def dropExpires : List Bytes → Int64 → List Bytes × Int64
  | [], expires => ([], expires)
  | [first], expires => ([first], expires)
  | p :: q :: parts, expires =>
    match cut 61 (trimSpace p) with
    | none => (p :: q :: parts, expires)
    | some (k, v) =>
      if equalFold k (ascii "expires") then dropExpires (q :: parts) (atoiOr v expires)
      else (p :: q :: parts, expires)

/-- `strings.TrimRight` of one byte. -/
def trimRight (b : UInt8) (s : Bytes) : Bytes := (s.reverse.dropWhile (fun c => c = b)).reverse

/-- `splitAddrSpecContact`. -/
def splitAddrSpecContact (raw : Bytes) : Bytes × Int64 :=
  let p := dropExpires (split 59 raw).reverse (-1)
  (trimRight 59 ((p.1.reverse.intersperse [59]).flatten), p.2)

/-- Whether a URI has the parameter `ob`. -/
def hasOb (uri : Bytes) : Bool :=
  match cut 59 uri with
  | none => false
  | some (_, params) => (split 59 params).any (fun p => equalFold (trimSpace p) (ascii "ob"))

/-- `parseContactURI`, with the text of its errors. -/
def parseContactURI (raw : Bytes) : Except Bytes ParsedContact :=
  let raw := trimSpace raw
  if raw = [] ∨ raw = [42] then .error (ascii "invalid contact: " ++ raw)
  else
    let c : ParsedContact := ⟨[], [], -1, -1, false⟩
    let parsed : Except Bytes ParsedContact :=
      match cut 60 raw with
      | some (_, inside) =>
        match cut 62 inside with
        | none => .error (ascii "unmatched '<' in contact: " ++ raw)
        | some (uri, rest) =>
          let c := { c with uri := trimSpace uri }
          let rest := trimSpace rest
          let c := if rest = [] then c else (split 59 rest).foldl ParsedContact.addHeaderParam c
          -- Some clients put the parameter inside the brackets.
          .ok (if c.ob then c else { c with ob := hasOb c.uri })
      | none =>
        let (uri, expires) := splitAddrSpecContact raw
        .ok { c with uri, expires }
    match parsed with
    | .error e => .error e
    | .ok c => if c.uri = [] then .error (ascii "empty contact URI: " ++ raw) else .ok c

/-- What one part of a header contributes: a contact, or a star. -/
def extractPart (acc : List ParsedContact × Bool) (part : Bytes) : List ParsedContact × Bool :=
  let part := trimSpace part
  if part = [] then acc
  else if part = [42] then (acc.1, true)
  else
    match parseContactURI part with
    | .error _ => acc
    | .ok c => (acc.1 ++ [c], acc.2)

/-- What one header contributes. -/
def extractHeader (acc : List ParsedContact × Bool) (v : Bytes) : List ParsedContact × Bool :=
  let v := trimSpace v
  if v = [42] then (acc.1, true) else (splitContactValues v).foldl extractPart acc

/-- `extractContacts`. -/
def extractContacts (raw : List Bytes) : List ParsedContact × Bool :=
  raw.foldl extractHeader ([], false)

/-- Two contacts in one header, the second one with an `expires` of its own. -/
example : extractContacts [ascii "<sip:a@h;x=1,2>;reg-id=3;ob, sip:b@h;lr;expires=60"] =
    ([⟨ascii "sip:a@h;x=1,2", [], -1, 3, true⟩, ⟨ascii "sip:b@h;lr", [], 60, -1, false⟩], false) := by
  decide +kernel

/-- An address in brackets is cut inside them. -/
example : normalizeAOR (ascii "sip:b@[2001:db8::1]:5060;x=y") = ascii "sip:b@[2001" ∧
    uriHostname (ascii "sip:b@[2001:db8::1]:5060;x=y") = ascii "[2001" ∧
    stripURIParams (ascii "sip:b@h;x=y") = ascii "sip:b@h" := by
  decide +kernel

end Sip

end Trecs
