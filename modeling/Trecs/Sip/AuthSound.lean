import Trecs.Sip.Replay

/-!
# What Authentication Guarantees

What is known about a request for which `VerifyDigestRequest` returned
credentials, in any state that calls and operations of the nonce manager lead
to.

The user, the realm, the uri and the nonce are checked against what the server
knows. The qop and the algorithm are not: the response is checked as the header
says it was computed. So the response is the one that the challenge asked for
exactly if the header repeats the qop of the challenge and names the hash
function of its algorithm.

## Main definitions

* `Authentic`: Everything the challenge asked for.
* `AsChallenged`: The header agrees with the challenge.

## Theorems

* `authentic_of_asChallenged`, `asChallenged_of_authentic`: The two directions.
* `authentic_iff_asChallenged`: Both, for every call in every state reached.
* `authentic_fails`: Credentials without a qop and with another algorithm.
-/

namespace Trecs

open Option

namespace Sip

open Proto

section

variable [UnicodeLower] [UnicodeUpper] [h : HashFunctions] [Connections]

/-- The user and the realm are those of the store, the uri is the Request-URI,
    the nonce was issued and has not expired, the number is larger than all that
    were accepted for the nonce, and the response is the one for the qop and the
    algorithm of the challenge. -/
structure Authentic (s : AuthLog) (c : AuthCall) (creds : DigestCredentials) : Prop where
  realm : creds.realm = c.passwd.realm
  uri : creds.uri = c.req.requestURI
  issued : ∃ t, (creds.nonce, t) ∈ s.issued ∧ c.now ≤ t + s.auth.nonces.ttl
  larger : ∀ nc, (creds.nonce, nc) ∈ s.accepted → nc < creds.nc
  response : ∃ ha1, c.passwd.ha1 creds.username = some ha1 ∧
    creds.response = computeDigestResponse ha1 creds.nonce (formatHex creds.nc.toNat) creds.cnonce
      (ascii "auth") c.scheme.method c.req.requestURI c.passwd.algorithm

/-- The header has the qop of the challenge, and an algorithm with the same hash
    function. -/
def AsChallenged (c : AuthCall) : Prop :=
  ∀ creds ∈ (parseDigest (SIPHeaders.getFirst c.req.headers c.scheme.authHeaderKey)).toOption,
    creds.qop = ascii "auth" ∧
      HashAlgorithm.ofName creds.algorithm = HashAlgorithm.ofName c.passwd.algorithm

/-- What is hashed for the response, by `VerifyDigest` and by a client that does as
    the challenge says. -/
def AuthCall.texts (c : AuthCall) (creds : DigestCredentials) : Set (HashAlgorithm × Bytes) :=
  {x | ∃ ha1 ∈ c.passwd.ha1 creds.username, x = creds.hashed ha1 c.scheme.method ∨
    x = hashedText ha1 creds.nonce (formatHex creds.nc.toNat) creds.cnonce (ascii "auth")
      c.scheme.method creds.uri c.passwd.algorithm}

instance (c : AuthCall) : Decidable (AsChallenged c) :=
  inferInstanceAs (Decidable (∀ creds ∈ Except.toOption _, _))

/-- The record agrees with the nonce manager in every state reached. -/
theorem agrees_of_run (ttl attemptTTL : Int) (es : List AuthEvent) (s : AuthLog)
    (hrun : Run authStep FreshNonces (AuthLog.create ttl attemptTTL) es s) : s.Agrees :=
  hrun.invariant AuthLog.Agrees (agrees_create ttl attemptTTL)
    (fun s e t hs => nonceInv_authStep s t e hs)

/-- What `VerifyDigestRequest` has checked when it returns credentials. -/
theorem checked_of_creds (s : AuthLog) (c : AuthCall) (creds : DigestCredentials)
    (hc : (c.result s.auth).creds = some creds) :
    presented c.scheme c.passwd c.req = some creds ∧
      s.auth.nonces.Accepts c.now creds.nonce creds.nc ∧
      ∃ ha1, c.passwd.ha1 creds.username = some ha1 ∧
        verifyDigest creds ha1 c.scheme.method = true := by
  rcases verifyDigestRequest_cases _ _ _ _ _ _ _ _ _ (rfl : c.result s.auth = _) with
    ⟨_, hr⟩ | ⟨_, _, hr⟩ | ⟨creds', ha1, hp, hc', _, _, hacc, huser, hv⟩
  · cases hr.creds.symm.trans hc
  · cases hr.creds.symm.trans hc
  · have heq : creds' = creds := some.inj (hc'.symm.trans hc)
    rw [← heq]
    exact ⟨hp, hacc, ha1, huser, hv⟩

/-- Credentials that agree with the challenge are authentic. -/
theorem authentic_of_asChallenged (s : AuthLog) (hs : s.Agrees) (c : AuthCall)
    (creds : DigestCredentials) (hc : (c.result s.auth).creds = some creds)
    (hch : AsChallenged c) : Authentic s c creds := by
  rcases checked_of_creds s c creds hc with ⟨hp, hacc, ha1, huser, hv⟩
  rcases uri_realm_of_presented _ _ _ _ hp with ⟨huri, hrealm⟩
  rcases hch creds (parseDigest_of_presented _ _ _ _ hp) with ⟨hq, halg⟩
  refine ⟨hrealm, huri, ?_, ?_, ha1, huser, ?_⟩
  · rcases (NonceManager.accepts_iff _ _ _).mp hacc with ⟨entry, hlook, hlive, _⟩
    rcases hs.known creds.nonce entry hlook with ⟨t, ht, hexp⟩
    rw [hexp] at hlive
    exact ⟨t, ht, hlive⟩
  · exact fun nc hnc => hs.lt_of_accepts c.now creds.nonce creds.nc nc hacc hnc
  · rw [← huri]
    exact response_eq_of_verifyDigest creds ha1 c.scheme.method c.passwd.algorithm hv hq halg

/-- Authentic credentials agree with the challenge unless the two texts collide. -/
theorem asChallenged_of_authentic (s : AuthLog) (c : AuthCall) (creds : DigestCredentials)
    (hfree : CollisionFree h (c.texts creds)) (hc : (c.result s.auth).creds = some creds)
    (hauth : Authentic s c creds) : AsChallenged c := by
  rcases checked_of_creds s c creds hc with ⟨hp, _, ha1, huser, hv⟩
  rcases hauth.response with ⟨ha1', huser', hresp⟩
  have hkey : ha1' = ha1 := some.inj (huser'.symm.trans huser)
  rw [hkey, ← hauth.uri] at hresp
  intro creds' hparse
  have heq : creds = creds' := some.inj ((parseDigest_of_presented _ _ _ _ hp).symm.trans hparse)
  rw [← heq]
  exact qop_eq_of_response_eq hfree creds ha1 c.scheme.method c.passwd.algorithm
    ⟨ha1, huser, .inl rfl⟩ ⟨ha1, huser, .inr rfl⟩ hv hresp

/-- Credentials that are returned are authentic if the header agrees with the
    challenge, and only then unless the two texts collide. -/
theorem authentic_iff_asChallenged (ttl attemptTTL : Int) (es : List AuthEvent) (s : AuthLog)
    (hrun : Run authStep FreshNonces (AuthLog.create ttl attemptTTL) es s) (c : AuthCall)
    (creds : DigestCredentials) (hc : (c.result s.auth).creds = some creds) :
    (AsChallenged c → Authentic s c creds) ∧
      (CollisionFree h (c.texts creds) → Authentic s c creds → AsChallenged c) :=
  ⟨authentic_of_asChallenged s (agrees_of_run ttl attemptTTL es s hrun) c creds hc,
    fun hfree => asChallenged_of_authentic s c creds hfree hc⟩

end

/-! ### Sample requests -/

/-- The nonce of the sample requests. -/
def oneNonce : List AuthEvent := [.newNonce 0 [1, 2]]

/-- A request as the challenge asked for it. -/
def challengedCall : AuthCall :=
  sampleCall [3] (sampleRegister (sampleCredentials "alice" "00000001" "auth" "SHA-256"))

open Samples

theorem authentic_challengedCall :
    ∃ s creds, Run authStep FreshNonces (AuthLog.create 60 60) oneNonce s ∧
      (challengedCall.result s.auth).creds = some creds ∧ AsChallenged challengedCall ∧
      Authentic s challengedCall creds := by
  have hex : ∃ s, Run authStep FreshNonces (AuthLog.create 60 60) oneNonce s ∧
      (challengedCall.result s.auth).creds.isSome = true :=
    exists_run_of_exec (by decide +kernel)
  rcases hex with ⟨s, hrun, hsome⟩
  rcases isSome_iff_exists.mp hsome with ⟨creds, hc⟩
  have hch : AsChallenged challengedCall := by decide +kernel
  exact ⟨s, creds, hrun, hc, hch,
    (authentic_iff_asChallenged 60 60 _ s hrun challengedCall creds hc).1 hch⟩

/-- Credentials are returned that the challenge did not ask for. -/
def Unasked (c : AuthCall) : Prop :=
  ∃ s creds, Run authStep FreshNonces (AuthLog.create 60 60) oneNonce s ∧
    (c.result s.auth).creds = some creds ∧ ¬ Authentic s c creds

theorem unasked_of_not_asChallenged (c : AuthCall) (hch : ¬ AsChallenged c)
    (hex : ∃ s, Run authStep FreshNonces (AuthLog.create 60 60) oneNonce s ∧
      (c.result s.auth).creds.isSome = true) : Unasked c := by
  rcases hex with ⟨s, hrun, hsome⟩
  rcases isSome_iff_exists.mp hsome with ⟨creds, hc⟩
  exact ⟨s, creds, hrun, hc,
    fun hauth => hch (asChallenged_of_authentic s c creds (collisionFree_taggedHash _) hc hauth)⟩

/-- A response without a qop is accepted, and so is one that was computed with
    MD5 where the challenge announced SHA-256. -/
theorem authentic_fails :
    Unasked (sampleCall [3] (sampleRegister (sampleCredentials "alice" "00000001" "" "SHA-256"))) ∧
    Unasked (sampleCall [3] (sampleRegister (sampleCredentials "alice" "00000001" "auth" "MD5"))) :=
  ⟨unasked_of_not_asChallenged _ (by decide +kernel)
      (exists_run_of_exec (by decide +kernel)),
    unasked_of_not_asChallenged _ (by decide +kernel)
      (exists_run_of_exec (by decide +kernel))⟩

end Sip

end Trecs
