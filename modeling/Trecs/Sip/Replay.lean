import Trecs.Lib.Run
import Trecs.Sip.Auth

/-!
# Replayed Credentials

Whether credentials that were accepted once can be accepted again.

The calls of `VerifyDigestRequest` that share one `NonceManager` are the events
of a machine, together with `NewNonce`, `Verify` and `Sweep` of that manager. Of
a call that is granted, `Verify` is the only access to the manager; a call that
is not may get to `NewNonce` later, after other events. The machine keeps a
record of the nonces issued, of the numbers accepted by `Verify`, and of the
credentials granted. Requests are arbitrary, so an adversary may send whatever
can be built from what was sent before.

A nonce is used once for each number, and a response that covers the number
cannot be used for another. The qop in the header decides whether the number is
covered, and is not checked: without a qop the same response is accepted again
with a larger number. So the result is about requests whose qop is `auth` or
`auth-int`.

The random bytes of a nonce are taken to be new each time, and no two of the texts
that are hashed for the responses of a run are taken to collide.

## Main definitions

* `AuthLog`: The state and the record.
* `authStep`: The machine.
* `hashedIn`: The texts hashed in a run.
* `FreshNonces`: The nonces are new.
* `ReplayOk`: The requests cover their number.
* `NoReplay`: No two grants have the nonce and the response in common.

## Theorems

* `grantInv_step`: Each grant has a number of its own.
* `noReplay_of_replayOk`: No credentials are accepted twice.
* `noReplay_fails`: Without a qop they are.
-/

namespace Trecs

open List Option

namespace Sip

open Proto

/-- The arguments of a call of `VerifyDigestRequest`, with the time and the
    random bytes for a nonce. -/
structure AuthCall where
  now : Int
  rnd : Bytes
  scheme : AuthScheme
  passwd : PasswordStore
  maxAttempts : Int
  req : SIPMessage
  tx : Source

/-- The state that calls share, and what has happened so far. -/
structure AuthLog where
  auth : AuthState
  issued : List (Bytes × Int)
  accepted : List (Bytes × UInt64)
  granted : List DigestCredentials

/-- A call, or one operation on the nonce manager. -/
inductive AuthEvent where
  | request (c : AuthCall)
  | newNonce (now : Int) (rnd : Bytes)
  | verify (now : Int) (nonce : Bytes) (nc : UInt64)
  | sweep (now : Int)

/-- Nothing has happened yet. -/
def AuthLog.create (ttl attemptTTL : Int) : AuthLog :=
  ⟨⟨.create ttl, .create attemptTTL⟩, [], [], []⟩

/-- The number that `Verify` accepts, if it does. -/
def acceptedBy (nm : NonceManager) (now : Int) (nonce : Bytes) (nc : UInt64) :
    List (Bytes × UInt64) :=
  if nm.Accepts now nonce nc then [(nonce, nc)] else []

/-- The nonces issued are new. -/
def FreshNonces (s : AuthLog) : AuthEvent → Prop
  | .request c => hexEncode c.rnd ∉ s.issued.map Prod.fst
  | .newNonce _ rnd => hexEncode rnd ∉ s.issued.map Prod.fst
  | .verify .. => True
  | .sweep _ => True

section

variable [UnicodeLower] [UnicodeUpper] [h : HashFunctions] [Connections]

/-- `VerifyDigestRequest` with the arguments of a call. -/
def AuthCall.result (c : AuthCall) (st : AuthState) : AuthResult :=
  verifyDigestRequest c.now c.rnd c.scheme c.passwd c.maxAttempts c.req c.tx st

/-- The credentials of a call that gets to the nonce manager. -/
def AuthCall.creds (c : AuthCall) : Option DigestCredentials :=
  presented c.scheme c.passwd c.req

/-- What is hashed for the response of a call that gets to the nonce manager. -/
def AuthCall.hashed (c : AuthCall) : Set (HashAlgorithm × Bytes) :=
  {x | ∃ creds ∈ c.creds, ∃ ha1 ∈ c.passwd.ha1 creds.username,
    x = creds.hashed ha1 c.scheme.method}

/-- What is hashed for the responses of a run. -/
def hashedIn (es : List AuthEvent) : Set (HashAlgorithm × Bytes) :=
  {x | ∃ c, .request c ∈ es ∧ x ∈ c.hashed}

omit [Connections] in
theorem hashedIn_subset (es : List AuthEvent) (e : AuthEvent) :
    hashedIn es ⊆ hashedIn (es ++ [e]) :=
  fun _ ⟨c, hc, hx⟩ => ⟨c, mem_append_left _ hc, hx⟩

/-- What happens at an event. -/
def authStep (s : AuthLog) : AuthEvent → Option AuthLog
  | .request c =>
    let r := c.result s.auth
    some
      { auth := r.state
        issued := s.issued ++ r.issued.toList.map (fun nonce => (nonce, c.now))
        accepted := s.accepted ++
          c.creds.toList.flatMap (fun creds => acceptedBy s.auth.nonces c.now creds.nonce creds.nc)
        granted := s.granted ++ r.creds.toList }
  | .newNonce now rnd =>
    some
      { s with
        auth := { s.auth with nonces := s.auth.nonces.newNonce now rnd }
        issued := s.issued ++ [(hexEncode rnd, now)] }
  | .verify now nonce nc =>
    some
      { s with
        auth := { s.auth with nonces := (s.auth.nonces.verify now nonce nc).2 }
        accepted := s.accepted ++ acceptedBy s.auth.nonces now nonce nc }
  | .sweep now => some { s with auth := ⟨s.auth.nonces.sweep now, s.auth.attempts.sweep now⟩ }

/-- The record agrees with the nonce manager. -/
def AuthLog.Agrees (s : AuthLog) : Prop := NonceInv s.issued s.accepted s.auth.nonces

omit [UnicodeLower] [UnicodeUpper] [HashFunctions] [Connections] in
theorem agrees_create (ttl attemptTTL : Int) : (AuthLog.create ttl attemptTTL).Agrees :=
  NonceInv.create ttl

omit [UnicodeLower] [UnicodeUpper] [HashFunctions] [Connections] in
/-- What a call that is refused does to the record. -/
theorem nonceInv_refused (issued : List (Bytes × Int)) (accepted : List (Bytes × UInt64))
    (nm : NonceManager) (now : Int) (rnd : Bytes) (r : AuthResult)
    (hinv : NonceInv issued accepted nm) (hfresh : hexEncode rnd ∉ issued.map Prod.fst)
    (hr : Refused now rnd nm r) :
    NonceInv (issued ++ r.issued.toList.map (fun nonce => (nonce, now))) accepted
      r.state.nonces := by
  rcases hr.nonces with ⟨hn, hi⟩ | ⟨hn, hi⟩
  · rw [hn, hi]
    simp only [toList_none, map_nil, append_nil]
    exact hinv
  · rw [hn, hi]
    exact hinv.newNonce now rnd (fun t ht => hfresh (List.mem_map_of_mem ht))

/-- An event keeps the agreement if its nonces are new. -/
theorem nonceInv_authStep (s t : AuthLog) (e : AuthEvent) (hinv : s.Agrees)
    (hfresh : FreshNonces s e) (hstep : authStep s e = some t) : t.Agrees := by
  cases e with
  | request c =>
    cases hstep
    unfold AuthLog.Agrees
    rcases verifyDigestRequest_cases _ _ _ _ _ _ _ _ _ (rfl : c.result s.auth = _) with
      ⟨hp, hr⟩ | ⟨creds, hp, hr⟩ | ⟨creds, ha1, hp, _, hi, hn, _⟩
    · -- The nonce manager was not asked.
      have hc : c.creds = none := hp
      simp only [hc, toList_none, flatMap_nil, append_nil]
      exact nonceInv_refused _ _ _ _ _ _ hinv hfresh hr
    · have hc : c.creds = some creds := hp
      simp only [hc, toList_some, flatMap_cons, flatMap_nil, append_nil]
      exact nonceInv_refused _ _ _ _ _ _ (hinv.verify c.now creds.nonce creds.nc) hfresh hr
    · have hc : c.creds = some creds := hp
      have hi' : (c.result s.auth).issued = none := hi
      have hn' : (c.result s.auth).state.nonces = _ := hn
      simp only [hc, hi', hn', toList_some, toList_none, map_nil,
        flatMap_cons, flatMap_nil, append_nil]
      exact hinv.verify c.now creds.nonce creds.nc
  | newNonce now rnd =>
    cases hstep
    exact NonceInv.newNonce hinv now rnd (fun t ht => hfresh (List.mem_map_of_mem ht))
  | verify now nonce nc =>
    cases hstep
    exact NonceInv.verify hinv now nonce nc
  | sweep now =>
    cases hstep
    exact NonceInv.sweep hinv now

/-! ### Grants -/

/-- The nonces are new, a request covers its number with its response, and the
    key of its user has no colon. -/
def ReplayOk (s : AuthLog) (e : AuthEvent) : Prop :=
  FreshNonces s e ∧ match e with
    | .request c =>
      ∀ creds ∈ (parseDigest (SIPHeaders.getFirst c.req.headers c.scheme.authHeaderKey)).toOption,
        covered creds.qop = true ∧ ∀ ha1 ∈ c.passwd.ha1 creds.username, (58 : UInt8) ∉ ha1
    | _ => True

/-- No two grants have the nonce and the response in common. -/
def NoReplay (s : AuthLog) : Prop :=
  s.granted.Pairwise (fun a b => ¬ (a.nonce = b.nonce ∧ a.response = b.response))

/-- A grant was for a response that covers the number, and that is the hash of one
    of these texts. -/
def Granted (texts : Set (HashAlgorithm × Bytes)) (creds : DigestCredentials) : Prop :=
  ∃ ha1 method, (58 : UInt8) ∉ ha1 ∧ covered creds.qop = true ∧
    verifyDigest creds ha1 method = true ∧ creds.hashed ha1 method ∈ texts

/-- Each grant used up the number of its nonce. -/
structure GrantInv (es : List AuthEvent) (s : AuthLog) : Prop where
  agrees : s.Agrees
  used : ∀ creds ∈ s.granted, (creds.nonce, creds.nc) ∈ s.accepted
  verified : ∀ creds ∈ s.granted, Granted (hashedIn es) creds
  distinct : CollisionFree h (hashedIn es) → NoReplay s

omit [Connections] in
theorem grantInv_create (ttl attemptTTL : Int) :
    GrantInv [] (AuthLog.create ttl attemptTTL) :=
  ⟨agrees_create ttl attemptTTL, fun _ hc => (by cases hc),
    fun _ hc => (by cases hc), fun _ => List.Pairwise.nil⟩

omit [UnicodeLower] [UnicodeUpper] [Connections] in
/-- A new grant is different from those before: its number is larger than all
    that were accepted for its nonce, and its response covers the number. -/
theorem not_replay_of_accepts {texts : Set (HashAlgorithm × Bytes)}
    (hfree : CollisionFree h texts) (s : AuthLog) (hs : s.Agrees) (now : Int)
    (creds old : DigestCredentials) (hacc : s.auth.nonces.Accepts now creds.nonce creds.nc)
    (hnew : Granted texts creds) (hold : Granted texts old)
    (hused : (old.nonce, old.nc) ∈ s.accepted) :
    ¬ (old.nonce = creds.nonce ∧ old.response = creds.response) := by
  rintro ⟨hn, hr⟩
  rcases hnew with ⟨ha1, method, hk, hq, hv, hx⟩
  rcases hold with ⟨ha1', method', hk', hq', hv', hx'⟩
  have hnc := nc_eq_of_response_eq hfree old creds _ _ _ _ hx' hx hk' hk hq' hq hv' hv hn hr
  have hlt := hs.lt_of_accepts now creds.nonce creds.nc old.nc hacc (hn ▸ hused)
  rw [hnc] at hlt
  exact absurd hlt (UInt64.lt_irrefl _)

omit [Connections] in
/-- What was verified before an event is known after it. -/
theorem GrantInv.granted_snoc {es : List AuthEvent} {s : AuthLog} (hs : GrantInv es s)
    (e : AuthEvent) (creds : DigestCredentials) (hc : creds ∈ s.granted) :
    Granted (hashedIn (es ++ [e])) creds := by
  rcases hs.verified creds hc with ⟨ha1, method, hk, hq, hv, hx⟩
  exact ⟨ha1, method, hk, hq, hv, hashedIn_subset es e hx⟩

omit [Connections] in
theorem GrantInv.distinct_snoc {es : List AuthEvent} {s : AuthLog} (hs : GrantInv es s)
    (e : AuthEvent) (hfree : CollisionFree h (hashedIn (es ++ [e]))) : NoReplay s :=
  hs.distinct (Set.InjOn.mono (hashedIn_subset es e) hfree)

omit [Connections] in
/-- Events without a new grant. -/
theorem grantInv_of_granted_eq (es : List AuthEvent) (e : AuthEvent) (s t : AuthLog)
    (hs : GrantInv es s) (ht : t.Agrees) (hg : t.granted = s.granted)
    (ha : s.accepted ⊆ t.accepted) : GrantInv (es ++ [e]) t where
  agrees := ht
  used := by
    intro creds hc
    rw [hg] at hc
    exact ha (hs.used creds hc)
  verified := by
    rw [hg]
    exact hs.granted_snoc e
  distinct := by
    rw [NoReplay, hg]
    exact hs.distinct_snoc e

theorem grantInv_step (es : List AuthEvent) (s : AuthLog) (e : AuthEvent) (t : AuthLog)
    (hs : GrantInv es s) (hok : ReplayOk s e) (hstep : authStep s e = some t) :
    GrantInv (es ++ [e]) t := by
  have ht := nonceInv_authStep s t e hs.agrees hok.1 hstep
  cases e with
  | request c =>
    have hrefused : (c.result s.auth).creds = none → GrantInv (es ++ [.request c]) t := by
      intro hnone
      refine grantInv_of_granted_eq es _ s t hs ht ?_ ?_
      · cases hstep
        simp [hnone]
      · cases hstep
        exact subset_append_left _ _
    rcases verifyDigestRequest_cases _ _ _ _ _ _ _ _ _ (rfl : c.result s.auth = _) with
      ⟨_, hr⟩ | ⟨_, _, hr⟩ | ⟨creds, ha1, hp, hc, _, _, hacc, huser, hv⟩
    · exact hrefused hr.creds
    · exact hrefused hr.creds
    · -- The call is granted.
      rcases hok.2 creds (parseDigest_of_presented _ _ _ _ hp) with ⟨hq, hcolon⟩
      have hnew : Granted (hashedIn (es ++ [.request c])) creds :=
        ⟨ha1, c.scheme.method, hcolon ha1 huser, hq, hv, c, by simp, creds, hp, ha1, huser, rfl⟩
      have hg : t.granted = s.granted ++ [creds] := by
        cases hstep
        simp [hc]
      have ha : t.accepted = s.accepted ++ [(creds.nonce, creds.nc)] := by
        cases hstep
        simp only [AuthCall.creds, hp, toList_some, flatMap_cons, flatMap_nil,
          append_nil, acceptedBy, if_pos hacc]
      refine ⟨ht, ?_, ?_, ?_⟩
      · intro x hx
        rw [hg] at hx
        rw [ha]
        rcases mem_append.mp hx with hx | hx
        · exact mem_append_left _ (hs.used x hx)
        · rw [mem_singleton.mp hx]
          exact mem_append_right _ mem_cons_self
      · intro x hx
        rw [hg] at hx
        rcases mem_append.mp hx with hx | hx
        · exact hs.granted_snoc _ x hx
        · rw [mem_singleton.mp hx]
          exact hnew
      · intro hfree
        rw [NoReplay, hg]
        refine pairwise_append.mpr ⟨hs.distinct_snoc _ hfree, pairwise_singleton _ _, ?_⟩
        intro old hold new hx
        rw [mem_singleton.mp hx]
        exact not_replay_of_accepts hfree s hs.agrees c.now creds old hacc hnew
          (hs.granted_snoc _ old hold) (hs.used old hold)
  | newNonce now rnd | sweep now =>
    refine grantInv_of_granted_eq es _ s t hs ht ?_ ?_
    · rw [← some.inj hstep]
    · cases hstep
      exact List.Subset.refl _
  | verify now nonce nc =>
    refine grantInv_of_granted_eq es _ s t hs ht ?_ ?_
    · rw [← some.inj hstep]
    · cases hstep
      exact subset_append_left _ _

/-- In a run whose requests cover their number, and in which no two texts that are
    hashed for a response collide, no credentials are accepted twice: two grants
    never have both the nonce and the response in common. -/
theorem noReplay_of_replayOk (ttl attemptTTL : Int) (es : List AuthEvent) (s : AuthLog)
    (hfree : CollisionFree h (hashedIn es))
    (hrun : Run authStep ReplayOk (AuthLog.create ttl attemptTTL) es s) : NoReplay s :=
  (hrun.invariant_events GrantInv (grantInv_create ttl attemptTTL)
    (fun es s e t => grantInv_step es s e t)).distinct hfree

instance (s : AuthLog) : (e : AuthEvent) → Decidable (FreshNonces s e)
  | .request _ | .newNonce _ _ => inferInstanceAs (Decidable (_ ∉ s.issued.map Prod.fst))
  | .verify .. | .sweep _ => inferInstanceAs (Decidable True)

instance (s : AuthLog) (e : AuthEvent) : Decidable (ReplayOk s e) := by
  cases e <;> unfold ReplayOk <;> infer_instance

instance (s : AuthLog) : Decidable (NoReplay s) :=
  inferInstanceAs (Decidable (List.Pairwise _ s.granted))

end

/-! ### Sample runs -/

/-- A store with one user. -/
def oneUser : PasswordStore where
  realm := ascii "trecs"
  algorithm := ascii "SHA-256"
  ha1 user := if user = ascii "alice" then some (ascii "a1") else none
  aors user := if user = ascii "alice" then some [ascii "sip:alice@trecs"] else none

open Samples

/-- The header for a user with the key of the sample store, for the nonce `0102`
    and a number. The qop goes into the header if there is one. -/
def sampleCredentials (user nc qop algorithm : String) : Bytes :=
  let response := computeDigestResponse (ascii "a1") (ascii "0102")
    (if qop = "" then [] else ascii nc) (ascii "c") (ascii qop) (ascii "REGISTER")
    (ascii "sip:trecs") (ascii algorithm)
  ascii "Digest username=\"" ++ ascii user ++
    ascii "\", realm=\"trecs\", nonce=\"0102\", uri=\"sip:trecs\", cnonce=\"c\", nc=" ++
    ascii nc ++ ascii ", algorithm=" ++ ascii algorithm ++ ascii ", response=\"" ++ response ++
    ascii "\"" ++ if qop = "" then [] else ascii ", qop=" ++ ascii qop

/-- A REGISTER request with these credentials. -/
def sampleRegister (credentials : Bytes) : SIPMessage :=
  let headers : SIPHeaders := SIPHeaders.add ∅ hCallID (ascii "c1")
  { newRequest .REGISTER (ascii "sip:trecs") with
    headers := SIPHeaders.add headers (ascii "Authorization") credentials }

/-- A call with a request and random bytes. -/
def sampleCall (rnd : Bytes) (req : SIPMessage) : AuthCall :=
  ⟨5, rnd, registerScheme, oneUser, 3, req, ⟨none, ⟨some (ascii "192.0.2.1:5060"), none, []⟩⟩⟩

/-- A nonce, and two requests with it. -/
def twoRequests (first second : Bytes) : List AuthEvent :=
  [.newNonce 0 [1, 2], .request (sampleCall [3] (sampleRegister first)),
    .request (sampleCall [4] (sampleRegister second))]

/-- Two requests with qop `auth`. -/
def coveredRequests : List AuthEvent :=
  twoRequests (sampleCredentials "alice" "00000001" "auth" "SHA-256")
    (sampleCredentials "alice" "00000002" "auth" "SHA-256")

theorem noReplay_coveredRequests :
    ∃ s, Run authStep ReplayOk (AuthLog.create 60 60) coveredRequests s ∧
      s.granted.length = 2 ∧ NoReplay s :=
  exists_run_and (by decide +kernel)
    fun s hrun _ => noReplay_of_replayOk 60 60 _ s (collisionFree_taggedHash _) hrun

/-- One request without a qop, and the same again with a larger number. -/
def uncoveredRequests : List AuthEvent :=
  twoRequests (sampleCredentials "alice" "00000001" "" "SHA-256")
    (sampleCredentials "alice" "00000002" "" "SHA-256")

/-- Without a qop the same response is accepted again. -/
theorem noReplay_fails :
    ∃ s, Run authStep FreshNonces (AuthLog.create 60 60) uncoveredRequests s ∧
      s.granted.length = 2 ∧ ¬ NoReplay s :=
  exists_run_of_exec (by decide +kernel)

end Sip

end Trecs
