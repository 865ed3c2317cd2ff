import Trecs.Sip.Replay

/-!
# Requests That Fail and the Nonces of Others

What a call of `VerifyDigestRequest` that returns no credentials does to the
nonces in use.

A challenge adds a nonce, and an expired nonce may be forgotten. Neither changes
what is accepted for a nonce that has not expired. But the number of the request
is used up as soon as the nonce manager is asked, before the user and the
response are checked. Whoever has seen the nonce of another client can send a
large number with any response, and the smaller numbers of that client are not
accepted any more.

## Main definitions

* `SameNumbers`: The same numbers are accepted for the nonces in use.

## Theorems

* `lookup_newNonce_of_some`, `lookup_verify_of_not_accepts`: The entries in use
  after each operation.
* `sameNumbers_iff`: A call that fails changes nothing exactly if its number was
  not acceptable.
* `sameNumbers_fails`: A wrong response uses up the number.
-/

namespace Trecs

open Option

namespace Sip

open Proto

/-- For each nonce of `nm` that has not expired, `nm'` accepts the same numbers
    as `nm`, at any time. -/
def SameNumbers (now : Int) (nm nm' : NonceManager) : Prop :=
  ∀ (nonce : Bytes) (entry : NonceEntry), nm.entries.lookup nonce = some entry →
    now ≤ entry.expires →
    ∀ (t : Int) (nc : UInt64), nm'.Accepts t nonce nc ↔ nm.Accepts t nonce nc

/-- What is accepted for a nonce depends on its entry. -/
theorem accepts_congr (nm nm' : NonceManager) (nonce : Bytes)
    (heq : nm'.entries.lookup nonce = nm.entries.lookup nonce) (t : Int) (nc : UInt64) :
    nm'.Accepts t nonce nc ↔ nm.Accepts t nonce nc := by
  rw [NonceManager.accepts_iff, NonceManager.accepts_iff, heq]

variable (nm : NonceManager) (now : Int) (rnd nonce : Bytes)

/-- A nonce that is new leaves the others alone. -/
theorem lookup_newNonce_of_some (entry : NonceEntry)
    (hfresh : nm.entries.lookup (hexEncode rnd) = none)
    (hlook : nm.entries.lookup nonce = some entry) :
    (nm.newNonce now rnd).entries.lookup nonce = some entry := by
  rw [NonceManager.newNonce_entries, if_neg, hlook]
  intro hn
  rw [hn, hfresh] at hlook
  cases hlook

/-- `Verify` changes no entry in use if it does not accept the number. -/
theorem lookup_verify_of_not_accepts (nonce n : Bytes) (nc : UInt64) (entry : NonceEntry)
    (hno : ¬ nm.Accepts now nonce nc) (hlook : nm.entries.lookup n = some entry)
    (hlive : now ≤ entry.expires) : (nm.verify now nonce nc).2.entries.lookup n = some entry := by
  rw [NonceManager.verify_entries]
  by_cases hn : n = nonce
  · rw [if_pos hn, hlook, bind_some, if_neg (by omega)]
    -- The number is not larger, so the entry stays as it is.
    have hle : nc ≤ entry.maxNC := by
      rw [NonceManager.accepts_iff] at hno
      refine UInt64.not_lt.mp (fun hlt => hno ⟨entry, hn ▸ hlook, hlive, hlt⟩)
    rw [if_pos hle]
  · rw [if_neg hn, hlook]

/-- An accepted number is not accepted again. -/
theorem not_accepts_verify (nonce : Bytes) (nc : UInt64) :
    ¬ (nm.verify now nonce nc).2.Accepts now nonce nc := by
  rw [NonceManager.accepts_iff]
  rintro ⟨entry, hlook, _, hlt⟩
  rw [NonceManager.verify_entries, if_pos rfl] at hlook
  rcases bind_eq_some_iff.mp hlook with ⟨old, _, hx⟩
  split at hx
  · cases hx
  · rw [← some.inj hx] at hlt
    simp only at hlt
    split at hlt
    · rename_i hle
      exact absurd hlt (UInt64.not_lt.mpr hle)
    · exact absurd hlt (UInt64.lt_irrefl _)

/-- The entries in use after a call that was refused are those the nonce manager
    had before a possible challenge. -/
theorem lookup_refused (r : AuthResult) (entry : NonceEntry) (hr : Refused now rnd nm r)
    (hfresh : nm.entries.lookup (hexEncode rnd) = none)
    (hlook : nm.entries.lookup nonce = some entry) :
    r.state.nonces.entries.lookup nonce = some entry := by
  rcases hr.nonces with ⟨hn, _⟩ | ⟨hn, _⟩
  · rw [hn, hlook]
  · rw [hn]
    exact lookup_newNonce_of_some nm now rnd nonce entry hfresh hlook

theorem lookup_verify_none (nonce n : Bytes) (nc : UInt64) (hnone : nm.entries.lookup n = none) :
    (nm.verify now nonce nc).2.entries.lookup n = none := by
  rw [NonceManager.verify_entries, hnone, bind_none, ite_self]

section

variable [UnicodeLower] [UnicodeUpper] [HashFunctions] [Connections]

/-- A call that returns no credentials leaves what is accepted for the nonces in
    use as it was if and only if it did not get to the nonce manager with a
    number that is accepted. -/
theorem sameNumbers_iff (c : AuthCall) (st : AuthState) (hc : (c.result st).creds = none)
    (hfresh : st.nonces.entries.lookup (hexEncode c.rnd) = none) :
    SameNumbers c.now st.nonces (c.result st).state.nonces ↔
      ∀ creds ∈ c.creds, ¬ st.nonces.Accepts c.now creds.nonce creds.nc := by
  rcases verifyDigestRequest_cases _ _ _ _ _ _ _ _ _ (rfl : c.result st = _) with
    ⟨hp, hr⟩ | ⟨creds, hp, hr⟩ | ⟨creds, ha1, _, hc', _⟩
  · -- The nonce manager was not asked.
    have hnone : c.creds = none := hp
    constructor
    · intro _ creds hcreds
      rw [hnone] at hcreds
      cases hcreds
    · intro _ nonce entry hlook _ t nc
      refine accepts_congr _ _ _ ?_ t nc
      rw [hlook]
      exact lookup_refused _ _ _ _ _ _ hr hfresh hlook
  · have hsome : c.creds = some creds := hp
    have hfresh' := lookup_verify_none st.nonces c.now creds.nonce _ creds.nc hfresh
    rw [hsome]
    simp only [mem_def, some.injEq, forall_eq']
    constructor
    · intro hsame hacc
      -- The entry exists, and the number that was accepted is no longer.
      rcases (NonceManager.accepts_iff _ _ _).mp hacc with ⟨entry, hlook, hlive, _⟩
      have hafter := (hsame creds.nonce entry hlook hlive c.now creds.nc).mpr hacc
      rcases (NonceManager.accepts_iff _ _ _).mp hafter with ⟨new, hnew, hlive', hlt⟩
      refine not_accepts_verify st.nonces c.now creds.nonce creds.nc
        ((NonceManager.accepts_iff _ _ _).mpr ⟨new, ?_, hlive', hlt⟩)
      have hkept : ∃ e, (st.nonces.verify c.now creds.nonce creds.nc).2.entries.lookup creds.nonce =
          some e := by
        rw [NonceManager.verify_entries, if_pos rfl, hlook, bind_some, if_neg (by omega)]
        exact ⟨_, rfl⟩
      rcases hkept with ⟨e, he⟩
      rw [he, ← hnew]
      exact (lookup_refused _ _ _ _ _ _ hr hfresh' he).symm
    · intro hno nonce entry hlook hlive t nc
      refine accepts_congr _ _ _ ?_ t nc
      rw [hlook]
      exact lookup_refused _ _ _ _ _ _ hr hfresh'
        (lookup_verify_of_not_accepts _ _ _ _ _ _ hno hlook hlive)
  · cases hc'.symm.trans hc

end

/-! ### Sample requests -/

/-- The nonce `0102` is in use. -/
def nonceInUse : AuthState := ⟨(NonceManager.create 60).newNonce 0 [1, 2], .create 60⟩

/-- A request with a number that is too small. -/
def numberZero : AuthCall :=
  sampleCall [3] (sampleRegister (sampleCredentials "mallory" "00000000" "auth" "SHA-256"))

open Samples

theorem sameNumbers_numberZero :
    (numberZero.result nonceInUse).creds = none ∧ numberZero.creds.isSome = true ∧
      SameNumbers 5 nonceInUse.nonces (numberZero.result nonceInUse).state.nonces := by
  have hc : (numberZero.result nonceInUse).creds = none := by decide +kernel
  have hfresh : nonceInUse.nonces.entries.lookup (hexEncode numberZero.rnd) = none := by
    decide +kernel
  exact ⟨hc, by decide +kernel,
    (sameNumbers_iff numberZero nonceInUse hc hfresh).mpr (by decide +kernel)⟩

/-- A request of a user that does not exist, with a large number. -/
def numberLarge : AuthCall :=
  sampleCall [3] (sampleRegister (sampleCredentials "mallory" "ffffffff" "auth" "SHA-256"))

/-- It fails, and afterwards the number 1 is not accepted any more. -/
theorem sameNumbers_fails :
    (numberLarge.result nonceInUse).creds = none ∧
      nonceInUse.nonces.Accepts 5 (ascii "0102") 1 ∧
      ¬ (numberLarge.result nonceInUse).state.nonces.Accepts 5 (ascii "0102") 1 ∧
      ¬ SameNumbers 5 nonceInUse.nonces (numberLarge.result nonceInUse).state.nonces := by
  have hbefore : nonceInUse.nonces.Accepts 5 (ascii "0102") 1 := by decide +kernel
  have hafter : ¬ (numberLarge.result nonceInUse).state.nonces.Accepts 5 (ascii "0102") 1 := by
    decide +kernel
  refine ⟨by decide +kernel, hbefore, hafter, fun hsame => hafter ?_⟩
  exact (hsame (ascii "0102") ⟨60, 0⟩ (by decide +kernel) (by decide) 5 1).mpr hbefore

end Sip

end Trecs
