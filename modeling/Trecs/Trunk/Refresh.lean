import Trecs.Sip.Lifetime
import Trecs.Trunk.Registration

/-!
# Renewing a Registration

How long the registration loop of a trunk waits before it registers again.

The peer says in its 200 response how many seconds a registration lasts, and
`parseExpires` returns a positive number whatever the response says. The product
with `time.Second` is one of 64 bits, though. A peer that grants more than
9223372036 seconds makes the duration negative, and the loop registers again
at once.

## Main definitions

* `reRegisterIn`: The part of the duration that the loop waits.
* `EndedBy`: The 200 response that ended an attempt.

## Theorems

* `reRegisterIn_pos`: The loop waits after a second or more was granted.
* `result_of_endedBy`: What an attempt returns.
* `registerOnce_renewal_iff`: How many seconds a peer may grant.
-/

namespace Trecs

open Option

namespace Trunks

open Proto Sip

/-- `defaultReRegisterFraction`. -/
def defaultReRegisterFraction : ℚ := 3 / 4

/-- `time.Duration(float64(expires) * defaultReRegisterFraction)`. -/
def reRegisterIn (expires : Int64) : Int64 :=
  Int64.ofInt (truncate (float64 (float64 expires.toInt * defaultReRegisterFraction)))

/-- Neither rounding changes the product by much, so it is positive and fits into 64
    bits. -/
theorem reRegisterIn_pos (expires : Int64) (h : 2 ≤ expires.toInt) : 0 < reRegisterIn expires := by
  have hmin : (2 : ℚ) ≤ expires.toInt := by exact_mod_cast h
  have hmax : (expires.toInt : ℚ) < 2 ^ 63 := by exact_mod_cast Int64.toInt_lt expires
  rcases abs_le.mp (abs_float64_sub_le expires.toInt) with ⟨hlow, hhigh⟩
  rw [abs_of_pos (by linarith)] at hlow hhigh
  have hprod : 0 < float64 expires.toInt * (3 / 4) := by linarith
  rcases abs_le.mp (abs_float64_sub_le (float64 expires.toInt * (3 / 4))) with ⟨hlow', hhigh'⟩
  rw [abs_of_pos hprod] at hlow' hhigh'
  have hone : 1 ≤ truncate (float64 (float64 expires.toInt * (3 / 4))) := by
    rw [truncate_eq_floor _ (by linarith), Int.le_floor]
    push_cast
    linarith
  have hfits : truncate (float64 (float64 expires.toInt * (3 / 4))) < 2 ^ 63 := by
    rw [truncate_eq_floor _ (by linarith), Int.floor_lt]
    push_cast
    linarith
  rw [Int64.lt_iff_toInt_lt, reRegisterIn, defaultReRegisterFraction,
    Int64.toInt_ofInt_of_le (by omega) hfits]
  exact hone

theorem contactExpires_pos (c : Bytes) (n : Int64) (h : contactExpires c = some n) : 0 < n := by
  unfold contactExpires at h
  split at h
  · rcases List.exists_of_findSome?_eq_some h with ⟨part, _, hpart⟩
    split at hpart
    · cases hpart
    · split at hpart
      · split at hpart
        · split at hpart
          · cases hpart
            assumption
          · cases hpart
        · cases hpart
      · cases hpart
  · cases h

/-- Whatever the response says, it is a positive number of seconds. -/
theorem parseExpires_pos (resp : SIPMessage) : 0 < parseExpires resp 3600 := by
  unfold parseExpires
  simp only []
  split
  · rcases hc : (SIPHeaders.get resp.headers (ascii "Contact")).findSome? contactExpires with _ | n
    · decide
    · rcases List.exists_of_findSome?_eq_some hc with ⟨c, _, hn⟩
      exact contactExpires_pos c n hn
  · split
    · split
      · assumption
      · decide
    · decide

/-- The response of a peer that grants one second too many. -/
def longGrant : SIPMessage :=
  { newResponse (newRequest .REGISTER (ascii "sip:trec@example.org")) 200 (ascii "OK") with
    headers := SIPHeaders.add ∅ (ascii "Expires") (ascii "9223372037") }

theorem parseExpires_longGrant : parseExpires longGrant 3600 = 9223372037 := by
  decide +kernel

/-- An attempt whose requests are all answered with `resp`. -/
def answeredWith (resp : SIPMessage) : AttemptEnv :=
  ⟨⟨fun _ _ _ => .ok resp, fun _ _ _ => .ok resp⟩, ascii "192.0.2.1", 0, none, none⟩

/-- A trunk that registers over UDP. -/
def renewedTrunk : RegistrationTrunk where
  toTrunk :=
    ⟨ascii "carrier", ascii "example.org", 5060, ascii "udp", 2, [], [], 0, [],
      List.cons_ne_nil _ _⟩
  authUser := ascii "trec"
  authPass := ascii "secret"
  registerURI := []
  user := List.cons_ne_nil _ _
  pass := List.cons_ne_nil _ _

section Refresh

variable [UnicodeLower] [UnicodeUpper] [UnicodePrint] [HashFunctions]

/-- If the response to the request of `authenticatedRegister` is a 200, it returns
    what that one grants. -/
theorem result_authenticatedRegister (env : AttemptEnv) (t : RegistrationTrunk)
    (callID wwwAuth : Bytes) (sent : List Bytes) (resp : SIPMessage)
    (hbefore : sendSIP env t sent ≠ .ok resp)
    (h : sendSIP env t (authenticatedRegister env t callID wwwAuth sent).sent = .ok resp)
    (hcode : resp.statusCode = 200) :
    (authenticatedRegister env t callID wwwAuth sent).result = registered resp := by
  unfold authenticatedRegister at h ⊢
  split at h
  · exact absurd h hbefore
  · simp only [] at h ⊢
    split at h
    · rename_i hfail
      cases hfail.symm.trans h
    · rename_i hsend
      split at h
      · rw [Except.ok.inj (hsend.symm.trans h)] at *
        contradiction
      · rw [if_neg ‹_›, Except.ok.inj (hsend.symm.trans h)]

/-- The response to the last request of the attempt is `resp`, a 200. -/
def EndedBy (env : AttemptEnv) (t : RegistrationTrunk) (resp : SIPMessage) : Prop :=
  sendSIP env t (registerOnce env t).sent = .ok resp ∧ resp.statusCode = 200

theorem result_of_endedBy {env : AttemptEnv} {t : RegistrationTrunk} {resp : SIPMessage}
    (h : EndedBy env t resp) : (registerOnce env t).result = registered resp := by
  rcases h with ⟨hsend, hcode⟩
  unfold registerOnce at hsend ⊢
  simp only [] at hsend ⊢
  split at hsend
  · rename_i hfail
    cases hfail.symm.trans hsend
  · rename_i resp₁ hfirst
    split at hsend
    · rw [if_pos ‹_›, Except.ok.inj (hfirst.symm.trans hsend)]
    · -- Only a second request can have been answered with 200.
      rename_i hother
      have hno : sendSIP env t _ ≠ .ok resp := fun hx =>
        hother (Except.ok.inj (hfirst.symm.trans hx) ▸ hcode)
      rw [if_neg hother]
      split at hsend
      · rw [if_pos ‹_›]
        split at hsend
        · exact absurd hsend hno
        · rw [if_neg ‹_›]
          exact result_authenticatedRegister env t _ _ _ resp hno hsend hcode
      · exact absurd hsend hno

theorem endedBy_longGrant : EndedBy (answeredWith longGrant) renewedTrunk longGrant := by
  have hudp : toLower (ascii "udp") = ascii "udp" := by
    rw [toLower, if_pos (by decide)]
    decide
  refine ⟨?_, by decide⟩
  unfold sendSIP
  exact if_pos hudp

/-- Up to `n` seconds that a peer grants, an attempt returns a positive duration,
    the longer the more seconds were granted, and the loop waits, if and only if
    `n` seconds fit into a `time.Duration`. -/
theorem registerOnce_renewal_iff (n : Int64) :
    (∀ env t resp, EndedBy env t resp → parseExpires resp 3600 ≤ n →
      ∃ d, (registerOnce env t).result = .ok d ∧ 0 < d ∧ 0 < reRegisterIn d) ∧
    (∀ env t resp env' t' resp', EndedBy env t resp → EndedBy env' t' resp' →
      parseExpires resp 3600 ≤ parseExpires resp' 3600 → parseExpires resp' 3600 ≤ n →
      ∃ d d', (registerOnce env t).result = .ok d ∧ (registerOnce env' t').result = .ok d' ∧
        d ≤ d') ↔
    n.toInt * 1000000000 < 2 ^ 63 := by
  constructor
  · rintro ⟨hpos, -⟩
    by_contra hlong
    have hfirst : (9223372037 : Int64) ≤ n := by
      rw [Int64.le_iff_toInt_le, show (9223372037 : Int64).toInt = 9223372037 by decide]
      omega
    rcases hpos _ _ _ endedBy_longGrant (parseExpires_longGrant ▸ hfirst) with ⟨d, hd, hd0, -⟩
    rw [result_of_endedBy endedBy_longGrant, registered, parseExpires_longGrant] at hd
    rw [← Except.ok.inj hd] at hd0
    exact absurd hd0 (by decide)
  · intro hfits
    rcases (seconds_fit_iff n).mpr hfits with ⟨hpos, hmono⟩
    refine ⟨fun env t resp h hn => ?_, fun env t resp env' t' resp' h h' hle hn => ?_⟩
    · refine ⟨_, result_of_endedBy h, Int64.lt_iff_toInt_lt.mpr (hpos _ (parseExpires_pos resp) hn),
        reRegisterIn_pos _ ?_⟩
      -- The least duration is one second.
      have hone : seconds 1 ≤ seconds (parseExpires resp 3600) :=
        hmono 1 _ (by decide) (Int64.le_iff_toInt_le.mpr
          (Int64.lt_iff_toInt_lt.mp (parseExpires_pos resp))) hn
      exact Int.le_trans (by decide) hone
    · refine ⟨_, _, result_of_endedBy h, result_of_endedBy h', Int64.le_iff_toInt_le.mpr ?_⟩
      exact hmono _ _ (parseExpires_pos resp) hle hn

end Refresh

open Samples

/-- The loop registers again at once: the duration is negative, and three quarters of
    it are. -/
theorem registerOnce_renewal_fails :
    EndedBy (answeredWith longGrant) renewedTrunk longGrant ∧
      (registerOnce (answeredWith longGrant) renewedTrunk).result = .ok (-9223372036709551616) ∧
      reRegisterIn (-9223372036709551616) = -6917529027532164096 := by
  refine ⟨endedBy_longGrant, ?_, by decide +kernel⟩
  rw [result_of_endedBy endedBy_longGrant, registered, parseExpires_longGrant]
  decide

end Trunks

end Trecs
