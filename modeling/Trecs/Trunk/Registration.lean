import Trecs.Lib.Quote
import Trecs.Sip.Auth
import Trecs.Trunk.Manager

/-!
# Registering at a Trunk

The client side of REGISTER, from `internal/trunk/manager.go`.

`registerOnce` writes a REGISTER request as text and sends it. A 200 response
ends the attempt, and with 401 the request is written once more with an
Authorization header, by `authenticatedRegister`. Either function opens a
connection of its own for its request and reads one response from it, so the
network is a function from the requests sent so far to what reading the response
to the last one gave.

`authenticatedRegister` reads the challenge with `ParseDigest`, the function that
reads credentials. The values in its Authorization header are written with `%q`,
and `cnonce` and `nc` are the same in every request.

## Main definitions

* `RegistrationTrunk`: A trunk of type `registration`.
* `Network`: The peers.
* `authorizationValue`: The credentials.
* `parseExpires`: How long a registration lasts.
* `authenticatedRegister`, `registerOnce`: An attempt.
-/

namespace Trecs

namespace Trunks

open Proto Sip

/-- A trunk of type `registration`, with the fields that registering reads. A
    configuration without a user or a password is rejected when it is loaded. -/
structure RegistrationTrunk extends Trunk where
  authUser : Bytes
  authPass : Bytes
  registerURI : Bytes
  user : authUser ≠ []
  pass : authPass ≠ []

namespace RegistrationTrunk

/-- `RegisterURIString`. -/
def registerURIString (t : RegistrationTrunk) : Bytes :=
  if t.registerURI ≠ [] then t.registerURI else ascii "sip:" ++ t.authUser ++ [64] ++ t.host

/-- `LocalIPWithDefault`. -/
def localIPWithDefault (t : RegistrationTrunk) (defaultIP : Bytes) : Bytes :=
  if t.localIP ≠ [] then t.localIP else defaultIP

end RegistrationTrunk

/-- What `sendSIPUDP` and `sendSIPTCP` return for the last of the requests sent to
    a host and port. -/
structure Network where
  sendSIPUDP : Bytes → Int64 → List Bytes → Except Bytes SIPMessage
  sendSIPTCP : Bytes → Int64 → List Bytes → Except Bytes SIPMessage

/-- What an attempt has from outside: the peers, the address of the server, the
    clock, and the random bytes for the branches of its two requests. -/
structure AttemptEnv where
  net : Network
  serverIP : Bytes
  unixNano : Int64
  rnd : Option Bytes
  authRnd : Option Bytes

/-- The requests an attempt has handed to `sendSIP`, and what it returns: the
    time until the registration ends or an error. -/
structure Attempt where
  sent : List Bytes
  result : Except Bytes Int64

section Register

variable [UnicodeLower] [UnicodeUpper] [UnicodePrint] [HashFunctions]

/-- `sendSIP`. -/
def sendSIP (env : AttemptEnv) (t : RegistrationTrunk) (sent : List Bytes) :
    Except Bytes SIPMessage :=
  let transport := toLower t.transport
  if transport = ascii "udp" then env.net.sendSIPUDP t.host t.port sent
  else if transport = ascii "tcp" then env.net.sendSIPTCP t.host t.port sent
  else .error (ascii "unsupported transport: " ++ t.transport)

/-- The text of a REGISTER request, with the header lines of the authentication. -/
def registerBody (t : RegistrationTrunk) (localIP branch callID cseq auth : Bytes) : Bytes :=
  let uri := t.registerURIString
  ascii "REGISTER " ++ uri ++ ascii " SIP/2.0\r\n" ++
  ascii "Via: SIP/2.0/" ++ toUpper t.transport ++ [SP] ++ localIP ++ ascii ";branch=" ++ branch ++
  ascii "\r\nFrom: " ++ uri ++
  ascii "\r\nTo: " ++ uri ++
  ascii "\r\nCall-ID: " ++ callID ++
  ascii "\r\nCSeq: " ++ cseq ++
  ascii " REGISTER\r\nContact: <sip:trec@" ++ localIP ++
  ascii ">\r\nMax-Forwards: 70\r\n" ++ auth ++
  ascii "Content-Length: 0\r\n\r\n"

/-- The value of the Authorization header for a challenge that was read. -/
def authorizationValue (authUser authPass registerURI : Bytes) (asked : DigestCredentials) :
    Bytes :=
  let ha1 := computeHA1 authUser asked.realm authPass asked.algorithm
  let nc := ascii "00000001"
  let digestResp := computeDigestResponse ha1 asked.nonce nc (ascii "deadbeef") (ascii "auth")
    (ascii "REGISTER") registerURI asked.algorithm
  ascii "Digest username=" ++ quote authUser ++ ascii ", realm=" ++ quote asked.realm ++
    ascii ", nonce=" ++ quote asked.nonce ++ ascii ", uri=" ++ quote registerURI ++
    ascii ", response=" ++ quote digestResp ++ ascii ", algorithm=" ++ asked.algorithm ++
    ascii ", cnonce=\"deadbeef\", nc=" ++ nc ++ ascii ", qop=auth"

/-- The expiry that a Contact of the response names. -/
def contactExpires (c : Bytes) : Option Int64 :=
  if ascii ";expires=" <:+: c then
    (split 59 c).findSome? (fun part =>
      match cut 61 (trimSpace part) with
      | none => none
      | some (k, v) =>
        if equalFold k (ascii "expires") then
          match atoi v with
          | .ok n => if 0 < n then some n else none
          | .error _ => none
        else none)
  else none

/-- `parseExpires`, in seconds. -/
def parseExpires (resp : SIPMessage) (defaultSecs : Int64) : Int64 :=
  let expStr := SIPHeaders.getFirst resp.headers (ascii "Expires")
  if expStr = [] then
    ((SIPHeaders.get resp.headers (ascii "Contact")).findSome? contactExpires).getD defaultSecs
  else
    match atoi (trimSpace expStr) with
    | .ok n => if 0 < n then n else defaultSecs
    | .error _ => defaultSecs

/-- The end of an attempt that a 200 response ends. `time.Duration` is a number
    of nanoseconds in 64 bits. -/
def registered (resp : SIPMessage) : Except Bytes Int64 :=
  .ok (parseExpires resp 3600 * 1000000000)

/-- `authenticatedRegister`, behind the requests sent before. -/
def authenticatedRegister (env : AttemptEnv) (t : RegistrationTrunk) (callID wwwAuth : Bytes)
    (sent : List Bytes) : Attempt :=
  match parseDigest wwwAuth with
  | .error e => ⟨sent, .error (ascii "parse www-auth: " ++ e)⟩
  | .ok asked =>
    let authValue := authorizationValue t.authUser t.authPass t.registerURIString asked
    let sent := sent ++ [registerBody t (t.localIPWithDefault env.serverIP)
      (generateBranch env.authRnd) callID (ascii "2")
      (ascii "Authorization: " ++ authValue ++ ascii "\r\n")]
    match sendSIP env t sent with
    | .error e => ⟨sent, .error (ascii "auth register send: " ++ e)⟩
    | .ok resp =>
      if resp.statusCode ≠ 200 then
        ⟨sent, .error (ascii "auth register returned " ++ formatInt resp.statusCode ++ [SP] ++
          resp.status)⟩
      else ⟨sent, registered resp⟩

/-- `registerOnce`. -/
def registerOnce (env : AttemptEnv) (t : RegistrationTrunk) : Attempt :=
  let callID := ascii "trunk-reg-" ++ t.name ++ [45] ++ formatInt env.unixNano.toInt
  let sent := [registerBody t (t.localIPWithDefault env.serverIP) (generateBranch env.rnd) callID
    (ascii "1") []]
  match sendSIP env t sent with
  | .error e => ⟨sent, .error (ascii "register send: " ++ e)⟩
  | .ok resp =>
    if resp.statusCode = 200 then ⟨sent, registered resp⟩
    else if resp.statusCode = 401 then
      let wwwAuth := SIPHeaders.getFirst resp.headers (ascii "WWW-Authenticate")
      if wwwAuth = [] then ⟨sent, .error (ascii "401 without WWW-Authenticate")⟩
      else authenticatedRegister env t callID wwwAuth sent
    else
      ⟨sent, .error (ascii "register returned " ++ formatInt resp.statusCode ++ [SP] ++
        resp.status)⟩

end Register

end Trunks

end Trecs
