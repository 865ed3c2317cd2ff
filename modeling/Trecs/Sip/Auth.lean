import Trecs.Sip.Digest
import Trecs.Sip.Nonce
import Trecs.Sip.Uac

/-!
# Digest Authentication of Requests

`VerifyDigestRequest` of `internal/sip/auth.go`, with the counter of failed
attempts.

A request without credentials is challenged. One with credentials goes through a
chain of checks: the header parses, its uri is the Request-URI, its realm is the
realm of the store, the nonce manager accepts its nonce and number, the user is
known and the response is right. The first check that fails ends the chain, is
counted as a failed attempt, and is answered with a new challenge or, when there
were too many, with 403. The nonce manager is in the middle of the chain: a
request that fails behind it has used up its number.

The algorithm and the qop of the response are those of the header. They are not
compared with what the challenge asked for.

## Main definitions

* `PasswordStore`: What the server knows about its users.
* `AuthAttemptTracker`: The counter of failed attempts.
* `verifyDigestRequest`: `VerifyDigestRequest`.
* `presented`: The credentials of a request that gets to the nonce manager.
* `Refused`: A call that ends without credentials.

## Theorems

* `verifyDigestRequest_ends`, `verifyDigestRequest_cases`: The ways a call ends.
* `creds_of_presented`: When it ends with credentials.
-/

namespace Trecs

open Option

namespace Sip

open Proto

/-- The interface `PasswordStore`. -/
structure PasswordStore where
  realm : Bytes
  algorithm : Bytes
  ha1 : Bytes → Option Bytes
  aors : Bytes → Option (List Bytes)

/-- The addresses of connections, as text. -/
class Connections where
  remoteAddr : Nat → Bytes
  flowKey : Nat → Bytes

/-- The Go struct `authAttemptEntry`. -/
structure AuthAttemptEntry where
  count : Nat
  expires : Int
deriving Repr, DecidableEq

/-- The Go struct `AuthAttemptTracker`. -/
structure AuthAttemptTracker where
  entries : AList (fun _ : Bytes => AuthAttemptEntry)
  ttl : Int

namespace AuthAttemptTracker

/-- `NewAuthAttemptTracker`. -/
def create (ttl : Int) : AuthAttemptTracker := ⟨∅, ttl⟩

/-- `Record`: the tracker afterwards and the new count. -/
def record (now : Int) (key : Bytes) (at' : AuthAttemptTracker) : AuthAttemptTracker × Nat :=
  let count := ((at'.entries.lookup key).map AuthAttemptEntry.count).getD 0 + 1
  ({ at' with entries := at'.entries.insert key ⟨count, now + at'.ttl⟩ }, count)

/-- `Reset`. -/
def reset (key : Bytes) (at' : AuthAttemptTracker) : AuthAttemptTracker :=
  { at' with entries := at'.entries.erase key }

/-- `Sweep`. -/
def sweep (now : Int) (at' : AuthAttemptTracker) : AuthAttemptTracker :=
  { at' with
    entries := retain (fun _ e => if now > e.expires then none else some e) at'.entries }

end AuthAttemptTracker

/-- The transaction a request came with: its transport and its target. -/
structure Source where
  transport : Option Transport
  target : Target

/-- `AuthAttemptKey`. -/
def authAttemptKey [Connections] (tx : Source) (callID : Bytes) : Bytes :=
  let remote := match tx.target.addr, tx.target.conn with
    | some addr, _ => addr
    | none, some conn => Connections.remoteAddr conn
    | none, none => ascii "unknown"
  let transport := match tx.transport with
    | some t => t.name
    | none => ascii "?"
  transport ++ [58] ++ remote ++ [124] ++ callID

/-- What the callers of `VerifyDigestRequest` pass: the header with the
    credentials, the header and status of a challenge, and the method. -/
structure AuthScheme where
  authHeaderKey : Bytes
  respChallengeKey : Bytes
  challengeStatus : Int64
  statusText : Bytes
  method : Bytes

/-- What the registrar passes. -/
def registerScheme : AuthScheme where
  authHeaderKey := ascii "Authorization"
  respChallengeKey := ascii "WWW-Authenticate"
  challengeStatus := 401
  statusText := ascii "Unauthorized"
  method := ascii "REGISTER"

/-- The state `VerifyDigestRequest` works on. -/
structure AuthState where
  nonces : NonceManager
  attempts : AuthAttemptTracker

/-- What it returns: the credentials if the request is authentic, the state
    afterwards, the response it sent and the nonce it issued. -/
structure AuthResult where
  creds : Option DigestCredentials
  state : AuthState
  response : Option SIPMessage
  issued : Option Bytes

/-- A challenge with a new nonce. -/
def challenge (now : Int) (rnd : Bytes) (scheme : AuthScheme) (passwd : PasswordStore)
    (req : SIPMessage) (stale : Bool) (st : AuthState) : AuthResult :=
  let res := newResponse req scheme.challengeStatus scheme.statusText
  let value := buildDigestChallenge passwd.realm (hexEncode rnd) passwd.algorithm stale
  { creds := none
    state := { st with nonces := st.nonces.newNonce now rnd }
    response := some { res with headers := SIPHeaders.add res.headers scheme.respChallengeKey value }
    issued := some (hexEncode rnd) }

/-- `sendAuthFailureResponse`. -/
def sendAuthFailureResponse (now : Int) (rnd : Bytes) (scheme : AuthScheme) (passwd : PasswordStore)
    (maxAttempts : Int) (key : Bytes) (req : SIPMessage) (stale : Bool) (st : AuthState) :
    AuthResult :=
  let maxAttempts := if maxAttempts < 1 then 1 else maxAttempts
  let (attempts, count) := st.attempts.record now key
  if count < maxAttempts then challenge now rnd scheme passwd req stale { st with attempts }
  else
    { creds := none
      state := { st with attempts := attempts.reset key }
      response := some (newResponse req 403 (ascii "Forbidden"))
      issued := none }

section Verify

variable [UnicodeLower] [UnicodeUpper] [HashFunctions] [Connections]

/-- The credentials of a request that passes the checks up to the nonce
    manager: they parse, and have the right uri and realm. -/
def presented (scheme : AuthScheme) (passwd : PasswordStore) (req : SIPMessage) :
    Option DigestCredentials :=
  match parseDigest (SIPHeaders.getFirst req.headers scheme.authHeaderKey) with
  | .error _ => none
  | .ok creds => if creds.uri = req.requestURI ∧ creds.realm = passwd.realm then some creds else none

/-- `VerifyDigestRequest`. -/
def verifyDigestRequest (now : Int) (rnd : Bytes) (scheme : AuthScheme) (passwd : PasswordStore)
    (maxAttempts : Int) (req : SIPMessage) (tx : Source) (st : AuthState) : AuthResult :=
  let authHeader := SIPHeaders.getFirst req.headers scheme.authHeaderKey
  if authHeader = [] then challenge now rnd scheme passwd req false st
  else
    let key := authAttemptKey tx (SIPHeaders.getFirst req.headers hCallID)
    let fail := sendAuthFailureResponse now rnd scheme passwd maxAttempts key req
    match parseDigest authHeader with
    | .error _ => fail false st
    | .ok creds =>
      if creds.username = [] then fail false st
      else if creds.uri ≠ req.requestURI then fail false st
      else if creds.realm ≠ passwd.realm then fail false st
      else
        let ((known, valid), nonces) := st.nonces.verify now creds.nonce creds.nc
        let st := { st with nonces }
        if !valid then fail known st
        else
          let ha1 := passwd.ha1 creds.username
          let key1 := ha1.getD (List.replicate 64 48)
          if !verifyDigest creds key1 scheme.method || ha1.isNone then fail false st
          else { creds := some creds, state := st, response := none, issued := none }

/-- A call that ends without credentials issues at most one nonce. -/
structure Refused (now : Int) (rnd : Bytes) (nm : NonceManager) (r : AuthResult) : Prop where
  creds : r.creds = none
  nonces : (r.state.nonces = nm ∧ r.issued = none) ∨
    (r.state.nonces = nm.newNonce now rnd ∧ r.issued = some (hexEncode rnd))

variable (now : Int) (rnd : Bytes) (scheme : AuthScheme) (passwd : PasswordStore)
  (maxAttempts : Int) (req : SIPMessage)

omit [UnicodeLower] [UnicodeUpper] [HashFunctions] [Connections] in
theorem refused_sendAuthFailureResponse (key : Bytes) (req : SIPMessage) (stale : Bool)
    (st : AuthState) : Refused now rnd st.nonces
      (sendAuthFailureResponse now rnd scheme passwd maxAttempts key req stale st) := by
  unfold sendAuthFailureResponse
  simp only
  generalize (if maxAttempts < 1 then 1 else maxAttempts) = limit
  split
  · exact ⟨rfl, .inr ⟨rfl, rfl⟩⟩
  · exact ⟨rfl, .inl ⟨rfl, rfl⟩⟩

omit [HashFunctions] [Connections] in
theorem uri_realm_of_presented (creds : DigestCredentials)
    (h : presented scheme passwd req = some creds) :
    creds.uri = req.requestURI ∧ creds.realm = passwd.realm := by
  unfold presented at h
  split at h
  · cases h
  · split at h
    · rename_i hok
      cases h
      exact hok
    · cases h

omit [HashFunctions] [Connections] in
theorem parseDigest_of_presented (creds : DigestCredentials)
    (h : presented scheme passwd req = some creds) :
    (parseDigest (SIPHeaders.getFirst req.headers scheme.authHeaderKey)).toOption = some creds := by
  unfold presented at h
  split at h
  · cases h
  · rename_i hparse
    split at h
    · rw [hparse, ← some.inj h]
      rfl
    · cases h

/-- The ways a call ends: it is challenged, it fails before or after the nonce
    manager was asked, or it returns credentials. -/
theorem verifyDigestRequest_ends (tx : Source) (st : AuthState) (r : AuthResult)
    (fail : Bool → AuthState → AuthResult)
    (hfail : fail = sendAuthFailureResponse now rnd scheme passwd maxAttempts
      (authAttemptKey tx (SIPHeaders.getFirst req.headers hCallID)) req)
    (hr : verifyDigestRequest now rnd scheme passwd maxAttempts req tx st = r) :
    (SIPHeaders.getFirst req.headers scheme.authHeaderKey = [] ∧
      presented scheme passwd req = none ∧ r = challenge now rnd scheme passwd req false st) ∨
    SIPHeaders.getFirst req.headers scheme.authHeaderKey ≠ [] ∧
      (presented scheme passwd req = none ∧ r = fail false st ∨
      ∃ creds asked, presented scheme passwd req = some creds ∧
        asked = { st with nonces := (st.nonces.verify now creds.nonce creds.nc).2 } ∧
        ((∃ stale, r = fail stale asked ∧ ∀ ha1, st.nonces.Accepts now creds.nonce creds.nc →
            passwd.ha1 creds.username = some ha1 → ¬ verifyDigest creds ha1 scheme.method = true) ∨
          ∃ ha1, r = ⟨some creds, asked, none, none⟩ ∧
            st.nonces.Accepts now creds.nonce creds.nc ∧ passwd.ha1 creds.username = some ha1 ∧
            verifyDigest creds ha1 scheme.method = true)) := by
  rw [← hr]
  unfold verifyDigestRequest presented
  simp only [← hfail]
  by_cases hnil : SIPHeaders.getFirst req.headers scheme.authHeaderKey = []
  · rw [if_pos hnil, hnil]
    exact .inl ⟨rfl, rfl, rfl⟩
  rw [if_neg hnil]
  refine .inr ⟨hnil, ?_⟩
  cases hparse : parseDigest (SIPHeaders.getFirst req.headers scheme.authHeaderKey) with
  | error e => exact .inl ⟨rfl, rfl⟩
  | ok creds =>
    simp only
    rw [if_neg (username_ne_nil_of_parseDigest _ creds hparse)]
    by_cases huri : creds.uri = req.requestURI
    · by_cases hrealm : creds.realm = passwd.realm
      · rw [if_neg (not_not.mpr huri), if_neg (not_not.mpr hrealm), if_pos ⟨huri, hrealm⟩]
        refine .inr ⟨creds, _, rfl, rfl, ?_⟩
        -- From here on the nonce manager has been asked.
        cases hvalid : (st.nonces.verify now creds.nonce creds.nc).1.2 with
        | false => exact .inl ⟨_, rfl, fun _ hacc => absurd (hvalid.symm.trans hacc) (by decide)⟩
        | true =>
          simp only [Bool.not_true, Bool.false_eq_true, if_false]
          cases huser : passwd.ha1 creds.username with
          | none =>
            simp only [isNone_none, Bool.or_true, if_true]
            exact .inl ⟨_, rfl, fun _ _ hx => by cases hx⟩
          | some ha1 =>
            simp only [getD_some, isNone_some, Bool.or_false]
            cases hv : verifyDigest creds ha1 scheme.method with
            | false =>
              refine .inl ⟨_, rfl, fun _ _ hx => ?_⟩
              cases hx
              rw [hv]
              exact Bool.false_ne_true
            | true => exact .inr ⟨ha1, rfl, hvalid, rfl, hv⟩
      · rw [if_neg (not_not.mpr huri), if_pos hrealm, if_neg (fun hx => hrealm hx.2)]
        exact .inl ⟨rfl, rfl⟩
    · rw [if_pos huri, if_neg (fun hx => huri hx.1)]
      exact .inl ⟨rfl, rfl⟩

/-- The three ways a call ends for the nonce manager: before it was asked, after
    it was asked, and with credentials. -/
theorem verifyDigestRequest_cases (tx : Source) (st : AuthState) (r : AuthResult)
    (hr : verifyDigestRequest now rnd scheme passwd maxAttempts req tx st = r) :
    (presented scheme passwd req = none ∧ Refused now rnd st.nonces r) ∨
    (∃ creds, presented scheme passwd req = some creds ∧
      Refused now rnd (st.nonces.verify now creds.nonce creds.nc).2 r) ∨
    (∃ creds ha1, presented scheme passwd req = some creds ∧ r.creds = some creds ∧
      r.issued = none ∧ r.state.nonces = (st.nonces.verify now creds.nonce creds.nc).2 ∧
      st.nonces.Accepts now creds.nonce creds.nc ∧ passwd.ha1 creds.username = some ha1 ∧
      verifyDigest creds ha1 scheme.method = true) := by
  have hfail := refused_sendAuthFailureResponse now rnd scheme passwd maxAttempts
    (authAttemptKey tx (SIPHeaders.getFirst req.headers hCallID)) req
  rcases verifyDigestRequest_ends now rnd scheme passwd maxAttempts req tx st r _ rfl hr with
    ⟨_, hp, rfl⟩ | ⟨_, ⟨hp, rfl⟩ | ⟨creds, asked, hp, rfl, ⟨stale, rfl, _⟩ | ⟨ha1, rfl, hok⟩⟩⟩
  · exact .inl ⟨hp, rfl, .inr ⟨rfl, rfl⟩⟩
  · exact .inl ⟨hp, hfail false st⟩
  · exact .inr (.inl ⟨creds, hp, hfail stale { st with nonces := _ }⟩)
  · exact .inr (.inr ⟨creds, ha1, hp, rfl, rfl, rfl, hok⟩)

/-- A request that passes every check. -/
theorem creds_of_presented (tx : Source) (st : AuthState) (creds : DigestCredentials) (ha1 : Bytes)
    (hp : presented scheme passwd req = some creds)
    (hnonce : st.nonces.Accepts now creds.nonce creds.nc)
    (huser : passwd.ha1 creds.username = some ha1)
    (hv : verifyDigest creds ha1 scheme.method = true) :
    (verifyDigestRequest now rnd scheme passwd maxAttempts req tx st).creds = some creds := by
  rcases verifyDigestRequest_ends now rnd scheme passwd maxAttempts req tx st _ _ rfl rfl with
    ⟨_, hp', _⟩ | ⟨_, ⟨hp', _⟩ | ⟨creds', _, hp', _, ⟨_, _, hbad⟩ | ⟨_, hr, _⟩⟩⟩
  · cases hp.symm.trans hp'
  · cases hp.symm.trans hp'
  · cases hp.symm.trans hp'
    exact absurd hv (hbad ha1 hnonce huser)
  · cases hp.symm.trans hp'
    rw [hr]

omit [UnicodeLower] [UnicodeUpper] [HashFunctions] [Connections] in
/-- A failure is answered with a challenge or with 403. -/
theorem response_sendAuthFailureResponse (key : Bytes) (stale : Bool) (st : AuthState)
    (res : SIPMessage) (h : res ∈ (sendAuthFailureResponse now rnd scheme passwd maxAttempts key req
      stale st).response) :
    (∃ stale st', res ∈ (challenge now rnd scheme passwd req stale st').response) ∨
      res = newResponse req 403 (ascii "Forbidden") := by
  unfold sendAuthFailureResponse at h
  simp only at h
  generalize (if maxAttempts < 1 then 1 else maxAttempts) = limit at h
  split at h
  · exact .inl ⟨_, _, h⟩
  · exact .inr (some.inj h).symm

/-- Who is not admitted is answered in one of these ways. -/
theorem response_verifyDigestRequest (tx : Source) (st : AuthState) (res : SIPMessage)
    (h : res ∈ (verifyDigestRequest now rnd scheme passwd maxAttempts req tx st).response) :
    (∃ stale st', res ∈ (challenge now rnd scheme passwd req stale st').response) ∨
      res = newResponse req 403 (ascii "Forbidden") := by
  rcases verifyDigestRequest_ends now rnd scheme passwd maxAttempts req tx st _ _ rfl rfl with
    ⟨_, _, hr⟩ | ⟨_, ⟨_, hr⟩ | ⟨_, _, _, _, ⟨_, hr, _⟩ | ⟨_, hr, _⟩⟩⟩ <;> rw [hr] at h
  · exact .inl ⟨_, _, h⟩
  · exact response_sendAuthFailureResponse now rnd scheme passwd maxAttempts req _ _ _ res h
  · exact response_sendAuthFailureResponse now rnd scheme passwd maxAttempts req _ _ _ res h
  · cases h

/-- Whether a request is authentic depends on the credentials it presents only. -/
theorem creds_congr (req req' : SIPMessage) (tx : Source) (st : AuthState)
    (h : presented scheme passwd req = presented scheme passwd req') :
    (verifyDigestRequest now rnd scheme passwd maxAttempts req tx st).creds =
      (verifyDigestRequest now rnd scheme passwd maxAttempts req' tx st).creds := by
  have hpass : ∀ r r' : SIPMessage, presented scheme passwd r = presented scheme passwd r' →
      ∀ creds, (verifyDigestRequest now rnd scheme passwd maxAttempts r tx st).creds = some creds →
        (verifyDigestRequest now rnd scheme passwd maxAttempts r' tx st).creds = some creds := by
    intro r r' heq creds hcreds
    rcases verifyDigestRequest_cases now rnd scheme passwd maxAttempts r tx st _ rfl with
      ⟨_, href⟩ | ⟨_, _, href⟩ | ⟨c, ha1, hp, hc, _, _, hacc, huser, hv⟩
    · cases href.creds.symm.trans hcreds
    · cases href.creds.symm.trans hcreds
    · rw [← hcreds, hc]
      exact creds_of_presented now rnd scheme passwd maxAttempts r' tx st c ha1 (heq ▸ hp) hacc
        huser hv
  ext creds
  exact ⟨hpass req req' h creds, hpass req' req h.symm creds⟩

end Verify

end Sip

namespace Samples

open Sip

/-- No connections. -/
scoped instance noConnections : Connections := ⟨fun _ => [], fun _ => []⟩

end Samples

end Trecs
