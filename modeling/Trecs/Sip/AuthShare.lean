import Trecs.Sip.Auth

/-!
# What Authentication Shares Between Requests

`VerifyDigestRequest` works on two tables that all requests share: the nonces and
the counters of failed attempts. A request uses the counter of its own source and
Call-ID, the nonce in its header, and the nonce of the challenge it may get.

Two states that agree on what a request uses give it the same answer, and agree
afterwards on what they agreed on before. A request changes nothing but what it
uses.

## Main definitions

* `Shared`: A nonce, or a counter of failed attempts.
* `SameAuth`: Two states agree on everything but some shared things.
* `sharedBy`: What a request uses.

## Theorems

* `verifyDigestRequest_congr`, `sendAuthFailureResponse_congr`: The same answer
  in states that agree.
* `verifyDigestRequest_frame`, `sendAuthFailureResponse_frame`: Nothing else is
  changed.
-/

namespace Trecs

open List

namespace Sip

open Proto

/-- What requests share. -/
inductive Shared where
  | nonce (nonce : Bytes)
  | attempts (key : Bytes)
deriving Repr, DecidableEq

/-- Two states agree on everything but what is in `T`. -/
structure SameAuth (T : Shared → Prop) (st st' : AuthState) : Prop where
  nonceTTL : st.nonces.ttl = st'.nonces.ttl
  attemptTTL : st.attempts.ttl = st'.attempts.ttl
  nonces : AgreeOff (fun n => T (.nonce n)) st.nonces.entries st'.nonces.entries
  attempts : AgreeOff (fun k => T (.attempts k)) st.attempts.entries st'.attempts.entries

variable {T : Shared → Prop} {st st' st'' : AuthState}

namespace SameAuth

theorem refl (st : AuthState) : SameAuth T st st := ⟨rfl, rfl, .refl _, .refl _⟩

theorem symm (h : SameAuth T st st') : SameAuth T st' st :=
  ⟨h.nonceTTL.symm, h.attemptTTL.symm, h.nonces.symm, h.attempts.symm⟩

theorem trans (h : SameAuth T st st') (h' : SameAuth T st' st'') : SameAuth T st st'' :=
  ⟨h.nonceTTL.trans h'.nonceTTL, h.attemptTTL.trans h'.attemptTTL, h.nonces.trans h'.nonces,
    h.attempts.trans h'.attempts⟩

/-! ### The operations in two states that agree -/

theorem newNonce (h : SameAuth T st st') (now : Int) (rnd : Bytes) :
    SameAuth T { st with nonces := st.nonces.newNonce now rnd }
      { st' with nonces := st'.nonces.newNonce now rnd } := by
  refine { h with nonces := ?_ }
  simp only [NonceManager.newNonce, h.nonceTTL]
  exact h.nonces.insert _ _

/-- `Verify` of a nonce on which the states agree. -/
theorem verify (h : SameAuth T st st') (now : Int) (nonce : Bytes) (nc : UInt64)
    (hn : ¬ T (.nonce nonce)) :
    (st.nonces.verify now nonce nc).1 = (st'.nonces.verify now nonce nc).1 ∧
      SameAuth T { st with nonces := (st.nonces.verify now nonce nc).2 }
        { st' with nonces := (st'.nonces.verify now nonce nc).2 } := by
  unfold NonceManager.verify
  rw [← h.nonces nonce hn]
  cases st.nonces.entries.lookup nonce with
  | none => exact ⟨rfl, h⟩
  | some entry =>
    simp only
    by_cases hexp : now > entry.expires
    · rw [if_pos hexp, if_pos hexp]
      exact ⟨rfl, { h with nonces := h.nonces.erase nonce }⟩
    · rw [if_neg hexp, if_neg hexp]
      by_cases hnc : nc ≤ entry.maxNC
      · rw [if_pos hnc, if_pos hnc]
        exact ⟨rfl, h⟩
      · rw [if_neg hnc, if_neg hnc]
        exact ⟨rfl, { h with nonces := h.nonces.insert nonce _ }⟩

/-- Counting a failed attempt for a key on which the states agree. -/
theorem record (h : SameAuth T st st') (now : Int) (key : Bytes) (hk : ¬ T (.attempts key)) :
    (st.attempts.record now key).2 = (st'.attempts.record now key).2 ∧
      SameAuth T { st with attempts := (st.attempts.record now key).1 }
        { st' with attempts := (st'.attempts.record now key).1 } := by
  have hlook := h.attempts key hk
  refine ⟨?_, { h with attempts := ?_ }⟩
  · simp [AuthAttemptTracker.record, hlook]
  · simp only [AuthAttemptTracker.record, hlook, h.attemptTTL]
    exact h.attempts.insert _ _

theorem reset (h : SameAuth T st st') (key : Bytes) :
    SameAuth T { st with attempts := st.attempts.reset key }
      { st' with attempts := st'.attempts.reset key } :=
  { h with attempts := h.attempts.erase key }

theorem sweepNonces (h : SameAuth T st st') (now : Int) :
    SameAuth T { st with nonces := st.nonces.sweep now } { st' with nonces := st'.nonces.sweep now } :=
  { h with nonces := h.nonces.retain _ }

theorem sweepAttempts (h : SameAuth T st st') (now : Int) :
    SameAuth T { st with attempts := st.attempts.sweep now }
      { st' with attempts := st'.attempts.sweep now } :=
  { h with attempts := h.attempts.retain _ }

/-! ### The operations on what is not compared -/

theorem newNonce_right (now : Int) (rnd : Bytes) (hn : T (.nonce (hexEncode rnd))) :
    SameAuth T st { st with nonces := st.nonces.newNonce now rnd } :=
  ⟨rfl, rfl, (AgreeOff.refl _).insert_right _ _ hn, .refl _⟩

theorem verify_right (now : Int) (nonce : Bytes) (nc : UInt64) (hn : T (.nonce nonce)) :
    SameAuth T st { st with nonces := (st.nonces.verify now nonce nc).2 } := by
  refine ⟨(NonceManager.verify_ttl now nonce nc).symm, rfl, ?_, .refl _⟩
  intro n hn'
  have hne : n ≠ nonce := fun hc => hn' (hc ▸ hn)
  rw [NonceManager.verify_entries, if_neg hne]

theorem record_right (now : Int) (key : Bytes) (hk : T (.attempts key)) :
    SameAuth T st { st with attempts := (st.attempts.record now key).1 } :=
  ⟨rfl, rfl, .refl _, (AgreeOff.refl _).insert_right _ _ hk⟩

theorem reset_right (key : Bytes) (hk : T (.attempts key)) :
    SameAuth T st { st with attempts := st.attempts.reset key } :=
  ⟨rfl, rfl, .refl _, (AgreeOff.refl _).erase_right _ hk⟩

end SameAuth

/-- Two results with the same answer and states that agree. -/
structure SameResult (T : Shared → Prop) (x y : AuthResult) : Prop where
  creds : x.creds = y.creds
  response : x.response = y.response
  state : SameAuth T x.state y.state

theorem challenge_congr (h : SameAuth T st st') (now : Int) (rnd : Bytes) (scheme : AuthScheme)
    (passwd : PasswordStore) (req : SIPMessage) (stale : Bool) :
    SameResult T (challenge now rnd scheme passwd req stale st)
      (challenge now rnd scheme passwd req stale st') :=
  ⟨rfl, rfl, h.newNonce now rnd⟩

theorem sendAuthFailureResponse_congr (h : SameAuth T st st') (now : Int) (rnd : Bytes)
    (scheme : AuthScheme) (passwd : PasswordStore) (maxAttempts : Int) (key : Bytes)
    (req : SIPMessage) (stale : Bool) (hk : ¬ T (.attempts key)) :
    SameResult T (sendAuthFailureResponse now rnd scheme passwd maxAttempts key req stale st)
      (sendAuthFailureResponse now rnd scheme passwd maxAttempts key req stale st') := by
  rcases h.record now key hk with ⟨hcount, hrec⟩
  unfold sendAuthFailureResponse
  simp only
  rw [← hcount]
  generalize (if maxAttempts < 1 then 1 else maxAttempts) = limit
  split
  · exact challenge_congr hrec now rnd scheme passwd req stale
  · exact ⟨rfl, rfl, hrec.reset key⟩

theorem sendAuthFailureResponse_frame (now : Int) (rnd : Bytes) (scheme : AuthScheme)
    (passwd : PasswordStore) (maxAttempts : Int) (key : Bytes) (req : SIPMessage) (stale : Bool)
    (hk : T (.attempts key)) (hn : T (.nonce (hexEncode rnd))) :
    SameAuth T st
      (sendAuthFailureResponse now rnd scheme passwd maxAttempts key req stale st).state := by
  have hrec : SameAuth T st { st with attempts := (st.attempts.record now key).1 } :=
    SameAuth.record_right now key hk
  unfold sendAuthFailureResponse
  simp only
  generalize (if maxAttempts < 1 then 1 else maxAttempts) = limit
  split
  · exact hrec.trans (SameAuth.newNonce_right now rnd hn)
  · exact hrec.trans (SameAuth.reset_right key hk)

section

variable [UnicodeLower] [UnicodeUpper] [Connections]

/-- What a request uses: the counter of its source, the nonce of a challenge, and
    the nonce in its header. -/
def sharedBy (rnd : Bytes) (scheme : AuthScheme) (req : SIPMessage) (tx : Source) : List Shared :=
  [.attempts (authAttemptKey tx (SIPHeaders.getFirst req.headers hCallID)),
    .nonce (hexEncode rnd)] ++
  (parseDigest (SIPHeaders.getFirst req.headers scheme.authHeaderKey)).toOption.toList.map
    (fun creds => .nonce creds.nonce)

variable [HashFunctions]

/-- In two states that agree on what a request uses it gets the same answer. -/
theorem verifyDigestRequest_congr (h : SameAuth T st st') (now : Int) (rnd : Bytes)
    (scheme : AuthScheme) (passwd : PasswordStore) (maxAttempts : Int) (req : SIPMessage)
    (tx : Source) (hT : ∀ x ∈ sharedBy rnd scheme req tx, ¬ T x) :
    SameResult T (verifyDigestRequest now rnd scheme passwd maxAttempts req tx st)
      (verifyDigestRequest now rnd scheme passwd maxAttempts req tx st') := by
  have hk := hT _ (mem_append_left _ mem_cons_self)
  have hfail : ∀ stale (s s' : AuthState), SameAuth T s s' → SameResult T
      (sendAuthFailureResponse now rnd scheme passwd maxAttempts
        (authAttemptKey tx (SIPHeaders.getFirst req.headers hCallID)) req stale s)
      (sendAuthFailureResponse now rnd scheme passwd maxAttempts
        (authAttemptKey tx (SIPHeaders.getFirst req.headers hCallID)) req stale s') :=
    fun stale s s' hs =>
      sendAuthFailureResponse_congr hs now rnd scheme passwd maxAttempts _ req stale hk
  unfold verifyDigestRequest
  simp only
  split
  · exact challenge_congr h now rnd scheme passwd req false
  · cases hparse : parseDigest (SIPHeaders.getFirst req.headers scheme.authHeaderKey) with
    | error e => exact hfail false _ _ h
    | ok creds =>
      have hn : ¬ T (.nonce creds.nonce) := by
        refine hT _ (mem_append_right _ ?_)
        rw [hparse]
        exact mem_cons_self
      rcases h.verify now creds.nonce creds.nc hn with ⟨hres, hsame⟩
      rcases hv : st.nonces.verify now creds.nonce creds.nc with ⟨⟨known, valid⟩, nm⟩
      rcases hv' : st'.nonces.verify now creds.nonce creds.nc with ⟨⟨known', valid'⟩, nm'⟩
      rw [hv, hv', Prod.mk.injEq] at hres
      rw [hv, hv'] at hsame
      simp only [hv, hv', ← hres.1, ← hres.2]
      -- The checks before and after the nonce manager do not depend on the state.
      split
      · exact hfail false _ _ h
      · split
        · exact hfail false _ _ h
        · split
          · exact hfail false _ _ h
          · split
            · exact hfail _ _ _ hsame
            · split
              · exact hfail false _ _ hsame
              · exact ⟨rfl, rfl, hsame⟩

/-- A request changes nothing but what it uses. -/
theorem verifyDigestRequest_frame (now : Int) (rnd : Bytes) (scheme : AuthScheme)
    (passwd : PasswordStore) (maxAttempts : Int) (req : SIPMessage) (tx : Source)
    (hT : ∀ x ∈ sharedBy rnd scheme req tx, T x) :
    SameAuth T st (verifyDigestRequest now rnd scheme passwd maxAttempts req tx st).state := by
  have hk := hT _ (mem_append_left _ mem_cons_self)
  have hrnd := hT _ (mem_append_left _ (mem_cons_of_mem _ mem_cons_self))
  have hfail : ∀ stale (s : AuthState), SameAuth T s
      (sendAuthFailureResponse now rnd scheme passwd maxAttempts
        (authAttemptKey tx (SIPHeaders.getFirst req.headers hCallID)) req stale s).state :=
    fun stale s =>
      sendAuthFailureResponse_frame now rnd scheme passwd maxAttempts _ req stale hk hrnd
  rcases verifyDigestRequest_ends now rnd scheme passwd maxAttempts req tx st _ _ rfl rfl with
    ⟨_, _, hr⟩ | ⟨_, ⟨_, hr⟩ | ⟨creds, _, hp, rfl, hr⟩⟩
  · rw [hr]
    exact SameAuth.newNonce_right now rnd hrnd
  · rw [hr]
    exact hfail false st
  · have hn : T (.nonce creds.nonce) := by
      refine hT _ (mem_append_right _ ?_)
      rw [parseDigest_of_presented _ _ _ creds hp]
      exact mem_cons_self
    have hverify : SameAuth T st
        { st with nonces := (st.nonces.verify now creds.nonce creds.nc).2 } :=
      SameAuth.verify_right now creds.nonce creds.nc hn
    rcases hr with ⟨stale, hr, _⟩ | ⟨_, hr, _⟩
    · rw [hr]
      exact hverify.trans (hfail stale _)
    · rw [hr]
      exact hverify

end

end Sip

end Trecs
