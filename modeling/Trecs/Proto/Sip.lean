import Mathlib.Data.List.AList
import Trecs.Lib.Unicode

/-!
# SIP Messages

The data model of `proto/sip.go`: start lines, header maps, `CSeq` and the
message itself, with the accessors the rest of the server reads a message
through.

A header map is a Go `map[string][]string`, modelled as an association list
without duplicate keys. Its keys are canonical: every access goes through
`canonicalHeaderKey`, which applies the rules of HTTP and then corrects the
handful of names SIP writes differently.

Two fields of the Go struct are caches of `ViaBranch` and `IsReliableTransport`
and are left out. The start line is a sum of the two forms rather than a record
with a flag: a request line never has a status and a status line never has a
method, in the three places that build one.

## Main definitions

* `SIPMethod`: The known methods and the empty one.
* `SIPHeaders`: Header maps and their operations.
* `canonicalHeaderKey`: The key a header name is stored under.
* `StartLine`, `CSeq`, `SIPMessage`: A message.
* `newRequest`, `newResponse`: Building a message.
* `viaBranch`, `viaSentBy`: The parts of the topmost Via.
-/

namespace Trecs

open List

namespace Proto

/-- The methods of RFC 3261 and its extensions. `none` is the empty string, the
    zero value a response's method and an absent CSeq have. -/
inductive SIPMethod where
  | INVITE
  | ACK
  | BYE
  | CANCEL
  | REGISTER
  | OPTIONS
  | PRACK
  | SUBSCRIBE
  | NOTIFY
  | PUBLISH
  | INFO
  | REFER
  | MESSAGE
  | UPDATE
  | none
deriving Repr, DecidableEq

namespace SIPMethod

/-- The method as it stands on the wire. -/
def text : SIPMethod → Bytes
  | INVITE => ascii "INVITE"
  | ACK => ascii "ACK"
  | BYE => ascii "BYE"
  | CANCEL => ascii "CANCEL"
  | REGISTER => ascii "REGISTER"
  | OPTIONS => ascii "OPTIONS"
  | PRACK => ascii "PRACK"
  | SUBSCRIBE => ascii "SUBSCRIBE"
  | NOTIFY => ascii "NOTIFY"
  | PUBLISH => ascii "PUBLISH"
  | INFO => ascii "INFO"
  | REFER => ascii "REFER"
  | MESSAGE => ascii "MESSAGE"
  | UPDATE => ascii "UPDATE"
  | none => []

/-- The methods `unmarshalMethod` accepts. -/
def known : List SIPMethod :=
  [INVITE, ACK, CANCEL, OPTIONS, BYE, REGISTER, PRACK, SUBSCRIBE, NOTIFY, PUBLISH, INFO, REFER,
    MESSAGE, UPDATE]

end SIPMethod

/-- `SIPIndicator`. -/
def sipIndicator : Bytes := ascii "SIP/"

/-- `SIPVersion`. -/
def sipVersion : Bytes := ascii "SIP/2.0"

/-- The names of the required and the regenerated headers. -/
def hVia : Bytes := ascii "Via"

@[inherit_doc hVia] def hFrom : Bytes := ascii "From"

@[inherit_doc hVia] def hTo : Bytes := ascii "To"

@[inherit_doc hVia] def hCallID : Bytes := ascii "Call-ID"

@[inherit_doc hVia] def hCSeq : Bytes := ascii "CSeq"

@[inherit_doc hVia] def hContentLength : Bytes := ascii "Content-Length"

/-- The compact names of header fields with the long name of each. -/
def compactTable : List (Bytes × Bytes) :=
  [(ascii "a", ascii "Accept-Contact"), (ascii "b", ascii "Referred-By"),
    (ascii "c", ascii "Content-Type"), (ascii "d", ascii "Request-Disposition"),
    (ascii "e", ascii "Content-Encoding"), (ascii "f", hFrom), (ascii "i", hCallID),
    (ascii "j", ascii "Reject-Contact"), (ascii "k", ascii "Supported"),
    (ascii "l", hContentLength), (ascii "m", ascii "Contact"), (ascii "n", ascii "RSeq"),
    (ascii "o", ascii "Event"), (ascii "r", ascii "Refer-To"), (ascii "s", ascii "Subject"),
    (ascii "t", hTo), (ascii "u", ascii "Allow-Events"), (ascii "v", hVia)]

/-- The map `compactHeaders`: the long name of a compact one. -/
def compactHeaders (k : Bytes) : Option Bytes := compactTable.lookup k

/-- The compact form of a header name if one exists, otherwise the name. The
    Go function is a switch over the same eighteen names. -/
def compactKey (k : Bytes) : Bytes :=
  match compactTable.find? (fun p => p.2 = k) with
  | some p => p.1
  | none => k

/-- The bytes of a token, which `net/textproto` allows in a header name. -/
def validHeaderFieldByte (b : UInt8) : Bool :=
  isUpper b || isLower b || (48 ≤ b && b ≤ 57) || b ∈ ascii "!#$%&'*+-.^_\x60|~"

/-- Capitalising a token: a letter at the start and after a hyphen is upper
    case, any other is lower case. -/
def capitalise : Bool → Bytes → Bytes
  | _, [] => []
  | upper, b :: bs =>
    let c := if upper && isLower b then b - 32 else if !upper && isUpper b then b + 32 else b
    c :: capitalise (c == 45) bs

/-- `textproto.CanonicalMIMEHeaderKey`. A name that is not a token is left as
    it is. -/
def canonicalMIMEHeaderKey (k : Bytes) : Bytes :=
  if k.all validHeaderFieldByte then capitalise true k else k

/-- The names SIP capitalises differently from HTTP. -/
def rfcOverride : List (Bytes × Bytes) :=
  [(ascii "Call-Id", hCallID), (ascii "Cseq", hCSeq), (ascii "Rack", ascii "RAck"),
    (ascii "Rseq", ascii "RSeq"), (ascii "Www-Authenticate", ascii "WWW-Authenticate")]

/-- The key a header name is stored under. -/
def canonicalHeaderKey (k : Bytes) : Bytes :=
  match rfcOverride.lookup (canonicalMIMEHeaderKey k) with
  | some rfc => rfc
  | none => canonicalMIMEHeaderKey k

/-- A header map, keyed by canonical names. -/
abbrev SIPHeaders := AList (fun _ : Bytes => List Bytes)

namespace SIPHeaders

/-- The first value of header `k`, or the empty string. Go indexes the list it
    finds, and no list in a header map is empty. -/
def getFirst (h : SIPHeaders) (k : Bytes) : Bytes :=
  ((h.lookup (canonicalHeaderKey k)).bind List.head?).getD []

/-- All values of header `k`. -/
def get (h : SIPHeaders) (k : Bytes) : List Bytes :=
  (h.lookup (canonicalHeaderKey k)).getD []

/-- Replacing the values of header `k`. -/
def set (h : SIPHeaders) (k : Bytes) (v : List Bytes) : SIPHeaders :=
  h.insert (canonicalHeaderKey k) v

/-- `h[k] = append(h[k], v)` on a key that is canonical already. -/
def push (h : SIPHeaders) (k v : Bytes) : SIPHeaders :=
  h.insert k ((h.lookup k).getD [] ++ [v])

/-- Appending a value to header `k`. -/
def add (h : SIPHeaders) (k v : Bytes) : SIPHeaders := h.push (canonicalHeaderKey k) v

/-- Removing header `k`. -/
def delete (h : SIPHeaders) (k : Bytes) : SIPHeaders := h.erase (canonicalHeaderKey k)

variable (h : SIPHeaders) (k k' v : Bytes)

theorem lookup_add_of_ne (hne : k' ≠ canonicalHeaderKey k) : (h.add k v).lookup k' = h.lookup k' :=
  AList.lookup_insert_ne hne

theorem lookup_add_of_none (k v : Bytes) (hnone : h.lookup (canonicalHeaderKey k) = none) :
    (h.add k v).lookup (canonicalHeaderKey k) = some [v] := by
  rw [add, push, AList.lookup_insert, hnone, Option.getD_none, nil_append]

theorem getFirst_add_of_ne (hne : canonicalHeaderKey k' ≠ canonicalHeaderKey k) :
    getFirst (h.add k v) k' = getFirst h k' := by
  rw [getFirst, lookup_add_of_ne h k _ v hne, getFirst]

theorem getFirst_add_of_none (k v : Bytes) (hnone : h.lookup (canonicalHeaderKey k) = none) :
    getFirst (h.add k v) k = v := by
  rw [getFirst, lookup_add_of_none h k v hnone]
  rfl

theorem get_add_of_ne (hne : canonicalHeaderKey k' ≠ canonicalHeaderKey k) :
    get (h.add k v) k' = get h k' := by
  rw [get, lookup_add_of_ne h k _ v hne, get]

theorem get_add_self (k v : Bytes) : get (h.add k v) k = get h k ++ [v] := by
  rw [get, add, push, AList.lookup_insert, Option.getD_some, get]

/-- Adding several values for one header. -/
theorem get_foldl_add {α : Type*} (f : α → Bytes) (k : Bytes) (l : List α) (h : SIPHeaders) :
    get (l.foldl (fun h a => h.add k (f a)) h) k = get h k ++ l.map f := by
  induction l generalizing h with
  | nil => rw [foldl_nil, map_nil, append_nil]
  | cons a l ih =>
    rw [foldl_cons, ih, get_add_self, append_assoc, map_cons]
    rfl

end SIPHeaders

/-- A parsed CSeq header. -/
structure CSeq where
  method : SIPMethod
  seq : Int64
deriving Repr, DecidableEq

/-- A request line or a status line. `status` is the code and the reason. -/
inductive StartLine where
  | request (method : SIPMethod) (uri version : Bytes)
  | response (version status : Bytes) (statusCode : Int64)
deriving Repr, DecidableEq

namespace StartLine

/-- The line as it stands on the wire. -/
def text : StartLine → Bytes
  | request method uri version => method.text ++ [SP] ++ uri ++ [SP] ++ version
  | response version status _ => version ++ [SP] ++ status

end StartLine

/-- A request or a response. -/
structure SIPMessage where
  startLine : Option StartLine
  headers : SIPHeaders
  cseq : CSeq
  body : Bytes

/-- Equality of messages, decided on the entries of the header maps. The
    instance for header maps themselves does not reduce. -/
instance : DecidableEq SIPMessage := fun a b =>
  decidable_of_iff (a.startLine = b.startLine ∧ a.headers.entries = b.headers.entries ∧
      a.cseq = b.cseq ∧ a.body = b.body) (by
    constructor
    · rintro ⟨h1, h2, h3, h4⟩
      rcases a with ⟨s1, m1, c1, b1⟩
      rcases b with ⟨s2, m2, c2, b2⟩
      simp only at h1 h2 h3 h4
      rw [h1, h3, h4, AList.ext h2]
    · intro h
      rw [h]
      exact ⟨rfl, rfl, rfl, rfl⟩)

/-- A request without headers, `CSeq` 1 and an empty body. -/
def newRequest (method : SIPMethod) (requestURI : Bytes) : SIPMessage where
  startLine := some (.request method requestURI sipVersion)
  headers := ∅
  cseq := { method := method, seq := 1 }
  body := []

/-- Copying the values of header `k` into a new map. -/
def copyHeader (req : SIPHeaders) (h : SIPHeaders) (k : Bytes) : SIPHeaders :=
  match req.lookup k with
  | some (v :: vs) => h.insert k (v :: vs)
  | _ => h

/-- A response to `req`, with the headers a response copies. -/
def newResponse (req : SIPMessage) (statusCode : Int64) (reason : Bytes) : SIPMessage where
  startLine := some (.response sipVersion (formatInt statusCode.toInt ++ [SP] ++ reason) statusCode)
  headers := [hVia, hFrom, hTo, hCallID, hCSeq].foldl (copyHeader req.headers) ∅
  cseq := req.cseq
  body := []

theorem lookup_foldl_copyHeader (req : SIPHeaders) (ks : List Bytes) (h : SIPHeaders) (k : Bytes)
    (hk : k ∉ ks) : (ks.foldl (copyHeader req) h).lookup k = h.lookup k := by
  induction ks generalizing h with
  | nil => rfl
  | cons a ks ih =>
    rw [mem_cons, not_or] at hk
    rw [foldl_cons, ih _ hk.2, copyHeader]
    split
    · exact AList.lookup_insert_ne hk.1
    · rfl

/-- A response has no other headers. -/
theorem lookup_newResponse_of_not_mem (req : SIPMessage) (statusCode : Int64) (reason k : Bytes)
    (hk : k ∉ [hVia, hFrom, hTo, hCallID, hCSeq]) :
    (newResponse req statusCode reason).headers.lookup k = none :=
  (lookup_foldl_copyHeader req.headers _ ∅ k hk).trans (AList.lookup_empty k)

namespace SIPMessage

/-- Whether the message is a request. -/
def isRequest (m : SIPMessage) : Bool :=
  match m.startLine with
  | some (.request ..) => true
  | _ => false

/-- The status code of a response, and 0 for a request. -/
def statusCode (m : SIPMessage) : Int :=
  match m.startLine with
  | some (.response _ _ c) => c.toInt
  | _ => 0

/-- The code and the reason of a response. -/
def status (m : SIPMessage) : Bytes :=
  match m.startLine with
  | some (.response _ s _) => s
  | _ => []

/-- The method of a request. -/
def method (m : SIPMessage) : SIPMethod :=
  match m.startLine with
  | some (.request method _ _) => method
  | _ => .none

/-- The request URI of a request. -/
def requestURI (m : SIPMessage) : Bytes :=
  match m.startLine with
  | some (.request _ uri _) => uri
  | _ => []

end SIPMessage

@[simp] theorem newResponse_statusCode (req : SIPMessage) (c : Int64) (reason : Bytes) :
    (newResponse req c reason).statusCode = c.toInt := rfl

/-- The position of the first occurrence of `sub` in `s`, `strings.Index`. -/
def index (sub : Bytes) : Bytes → Option Nat
  | [] => if sub = [] then some 0 else none
  | b :: bs => if sub.isPrefixOf (b :: bs) then some 0 else (index sub bs).map (· + 1)

/-- The transport a Via header names. -/
def unmarshalProto (via : Bytes) : Bytes :=
  if (ascii "SIP/2.0/").isPrefixOf via then
    let rest := via.drop 8
    match cut SP rest with
    | some (proto, _) => proto
    | none => rest
  else []

/-- The host and port of a Via header. -/
def unmarshalViaSentBy (via : Bytes) : Bytes :=
  match cut SP via with
  | none => []
  | some (_, after) =>
    let rest := trimSpace after
    match cut 59 rest with
    | some (sentBy, _) => sentBy
    | none => rest

/-- The branch after the text `;branch=` has been found at `idx`. Slicing past
    the end of the string is a run-time panic, `none`. -/
def branchFrom (via : Bytes) (idx : Nat) : Option Bytes :=
  if idx + 8 ≤ via.length then
    let rest := via.drop (idx + 8)
    match cut 59 rest with
    | some (branch, _) => some branch
    | none => some (rest.rdropWhile (fun b => b == SP || b == CR))
  else none

variable [UnicodeLower]

/-- The branch parameter of a Via header, empty when there is none. The
    position found in the lower-case copy is used on the original. -/
def unmarshalViaBranch (via : Bytes) : Option Bytes :=
  match index (ascii ";branch=") via with
  | some idx => branchFrom via idx
  | none =>
    match index (ascii ";branch=") (toLower via) with
    | none => some []
    | some idx => branchFrom via idx

namespace SIPMessage

/-- The branch of the topmost Via. -/
def viaBranch (m : SIPMessage) : Option Bytes :=
  unmarshalViaBranch (SIPHeaders.getFirst m.headers hVia)

/-- The sent-by of the topmost Via. -/
def viaSentBy (m : SIPMessage) : Bytes :=
  unmarshalViaSentBy (SIPHeaders.getFirst m.headers hVia)

/-- Whether the topmost Via names a transport other than UDP. -/
def isReliableTransport (m : SIPMessage) : Bool :=
  let proto := unmarshalProto (SIPHeaders.getFirst m.headers hVia)
  proto ≠ [] && proto.map lowerByte ≠ ascii "udp"

end SIPMessage

end Proto

end Trecs
