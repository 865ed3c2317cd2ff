import Trecs.Sip.BindingStore

/-!
# The Lifetime of a Binding

When a binding expires, and who still sees it after that.

`upsertBinding` turns the seconds that a client asks for into nanoseconds of 64
bits, and nothing bounds what a client may ask for. The product is exact up to
9223372036 seconds. One second more makes it negative, and the binding has
expired before it is stored.

A query is answered with the bindings that have not expired, and `GetBindings`,
which routes calls, returns what is stored. What is stored is what had not expired
at the last sweep, so the two agree as long as no contact has expired since.

## Main definitions

* `upserted`: The binding that a contact creates or refreshes.

## Theorems

* `seconds_fit_iff`: How many seconds fit into a `time.Duration`.
* `upsertBinding_expiry_iff`: How many seconds may be asked for.
* `getBindings_listed_iff`: When a query lists what `GetBindings` returns.
-/

namespace Trecs

open List Option

namespace Sip

open Proto

/-! ### Seconds and nanoseconds -/

/-- Up to `n` seconds a duration is positive, and the longer the more seconds it
    has, if and only if `n` seconds fit into a `time.Duration`. -/
theorem seconds_fit_iff (n : Int64) :
    (∀ k, 0 < k → k ≤ n → 0 < seconds k) ∧
      (∀ j k, 0 < j → j ≤ k → k ≤ n → seconds j ≤ seconds k) ↔
      n.toInt * 1000000000 < 2 ^ 63 := by
  have hle {j k : Int64} : j ≤ k ↔ j.toInt ≤ k.toInt := Int64.le_iff_toInt_le
  have hpos {k : Int64} : 0 < k ↔ 0 < k.toInt := Int64.lt_iff_toInt_lt
  constructor
  · intro h
    by_contra hlong
    -- The first number of seconds that does not fit.
    have hfirst : (9223372037 : Int64) ≤ n := by
      rw [hle, show (9223372037 : Int64).toInt = 9223372037 by decide]
      omega
    exact absurd (h.1 9223372037 (by decide) hfirst) (by decide)
  · intro hfits
    have hexact : ∀ k : Int64, 0 < k → k ≤ n → seconds k = k.toInt * 1000000000 := by
      intro k hk hkn
      rw [hpos] at hk
      rw [hle] at hkn
      exact seconds_eq k (hle.mpr (by change (0 : Int) ≤ _; omega)) (by omega)
    refine ⟨fun k hk hkn => ?_, fun j k hj hjk hkn => ?_⟩
    · rw [hexact k hk hkn]
      rw [hpos] at hk
      omega
    · rw [hexact j hj (Int64.le_trans hjk hkn), hexact k (Int64.lt_of_lt_of_le hj hjk) hkn]
      rw [hle] at hjk
      omega

/-- The binding that a contact with an expiry of `n` seconds creates or
    refreshes. -/
def upserted (now : Int) (bindings : List Binding) (callID : Bytes) (cseq : Int64) (flowID : Bytes)
    (c : ParsedContact) (n : Int64) : Option Binding :=
  lookupKey Binding.contactURI c.uri (upsertBinding now bindings callID cseq n flowID c)

section Upsert

variable (now : Int) (bindings : List Binding) (callID : Bytes) (cseq : Int64) (flowID : Bytes)
  (c : ParsedContact)

theorem expires_upserted (n : Int64) :
    ∃ b, upserted now bindings callID cseq flowID c n = some b ∧ b.expires = now + seconds n := by
  have hkey : ∀ b, (Binding.refresh now callID cseq n flowID c b).contactURI = b.contactURI :=
    fun _ => rfl
  have hnew : (Binding.ofContact now callID cseq n flowID c).contactURI = c.uri := rfl
  refine ⟨_, (lookupKey_upsertKey c.uri c.uri bindings hkey hnew).trans (if_pos rfl), ?_⟩
  rcases lookupKey Binding.contactURI c.uri bindings with _ | b
  · rfl
  · rfl

/-- Up to `n` seconds a binding expires after it was asked for, and the later the
    more seconds were asked for, if and only if `n` seconds fit into a
    `time.Duration`. -/
theorem upsertBinding_expiry_iff (n : Int64) :
    (∀ k, 0 < k → k ≤ n → ∀ b ∈ upserted now bindings callID cseq flowID c k, now < b.expires) ∧
      (∀ j k, 0 < j → j ≤ k → k ≤ n → ∀ b ∈ upserted now bindings callID cseq flowID c j,
        ∀ b' ∈ upserted now bindings callID cseq flowID c k, b.expires ≤ b'.expires) ↔
      n.toInt * 1000000000 < 2 ^ 63 := by
  have hexpires : ∀ k, ∀ b ∈ upserted now bindings callID cseq flowID c k,
      b.expires = now + seconds k := by
    intro k b hb
    rcases expires_upserted now bindings callID cseq flowID c k with ⟨b', hb', hexp⟩
    rw [← some.inj (hb'.symm.trans hb), hexp]
  rw [← seconds_fit_iff]
  constructor
  · rintro ⟨hlate, hmono⟩
    refine ⟨fun k hk hkn => ?_, fun j k hj hjk hkn => ?_⟩
    · rcases expires_upserted now bindings callID cseq flowID c k with ⟨b, hb, hexp⟩
      have := hlate k hk hkn b hb
      omega
    · rcases expires_upserted now bindings callID cseq flowID c j with ⟨b, hb, hexp⟩
      rcases expires_upserted now bindings callID cseq flowID c k with ⟨b', hb', hexp'⟩
      have := hmono j k hj hjk hkn b hb b' hb'
      omega
  · rintro ⟨hpos, hmono⟩
    refine ⟨fun k hk hkn b hb => ?_, fun j k hj hjk hkn b hb b' hb' => ?_⟩
    · have := hpos k hk hkn
      rw [hexpires k b hb]
      omega
    · have := hmono j k hj hjk hkn
      rw [hexpires j b hb, hexpires k b' hb']
      omega

end Upsert

/-- A contact that asks for one second too many has expired 292 years before. -/
theorem upsertBinding_expiry_fails :
    (upserted 0 [] [] 1 [] ⟨ascii "sip:a", [], 9223372037, -1, false⟩ 9223372037).map
      Binding.expires = some (-9223372036709551616) := by
  decide +kernel

/-! ### Bindings that have expired -/

/-- A request that asks for the bindings. -/
theorem query_of_op [Connections] (c : RegisterCall) (op : RegisterOp) (hop : c.op = some op)
    (hquery : op.action = .query) : c.hasStar = false ∧ c.isQuery = true := by
  unfold RegisterCall.op at hop
  split at hop
  · cases hop
  · split at hop
    · split at hop
      · cases hop
        cases hquery
      · cases hop
    · split at hop
      · exact ⟨Bool.not_eq_true _ ▸ ‹_›, ‹_›⟩
      · cases hop
        cases hquery

section Query

variable [UnicodeLower] [UnicodeUpper] [HashFunctions] [Connections] [DateFormat]

/-- A query that is permitted and not stale is answered with what is stored. -/
theorem handleRegister_query (c : RegisterCall) (r : Registrar) (op : RegisterOp)
    (hop : c.permitted r = some op) (hquery : op.action = .query)
    (hnew : ∀ last ∈ r.lastCSeq.lookup op.callID, last < op.cseq) :
    (handleRegister c r).2 = some (registerResponse c.later c.req (r.of op.aor)) := by
  rcases filter_eq_some_iff.mp hop with ⟨hop, hproceeds⟩
  rcases admitted_of_op c op hop with ⟨hadm, hseq⟩
  rcases query_of_op c op hop hquery with ⟨hstar, hisQuery⟩
  have hold : ¬ (r.lastCSeq.lookup op.callID).any (fun last => c.req.cseq.seq ≤ last) = true := by
    intro hany
    rcases (Option.any_eq_true _ _).mp hany with ⟨last, hlast, hle⟩
    exact absurd (hseq ▸ hnew last hlast) (Int64.not_lt.mpr (of_decide_eq_true hle))
  cases hauth : authorizeRegister c op.aor op.callID r with
  | answered auth res =>
    rw [hauth] at hproceeds
    cases hproceeds
  | proceed auth =>
    simp only [handleRegister, hadm, hauth, updateBindings, if_neg hold, hstar, hisQuery,
      Bool.false_eq_true, if_false, if_true]
    rfl

/-- In every run, a query that is permitted gets a 200 response, which lists exactly
    the contacts that `GetBindings` returns at its time, none of them expired, if
    and only if no contact that was registered for the address of record has
    expired since the last sweep. -/
theorem getBindings_listed_iff (passwd : Option PasswordStore) (start : Int)
    (es : List RegistrarEvent) (s : RegistrarRun)
    (hrun : Run registrarStep RegistrarOk (RegistrarRun.create passwd start) es s)
    (c : RegisterCall) (op : RegisterOp) (hop : c.permitted s.reg = some op)
    (hquery : op.action = .query) (hnew : ∀ last ∈ s.store.lastChange op.callID, last < op.cseq) :
    ∃ res, (handleRegister c s.reg).2 = some res ∧ res.statusCode = 200 ∧
      (Listing c.later res ((s.reg.getBindings op.aor).map Binding.due) ∧
          (∀ b ∈ s.reg.getBindings op.aor, c.later < b.expires) ↔
        ∀ uri x, s.store.contacts op.aor uri = some x → lastSweep start es < x.expires →
          c.later < x.expires) := by
  have hsim := (simulates_of_run passwd start es s hrun).simulates
  have hkept := hsim.retains op.aor
  have hres := handleRegister_query c s.reg op hop hquery (hsim.cseqs op.callID ▸ hnew)
  refine ⟨_, hres, rfl, ?_⟩
  constructor
  · rintro ⟨-, hlive⟩ uri x hx hswept
    rcases map_eq_some_iff.mp ((hkept.holds uri x hswept).mpr hx) with ⟨b, hb, rfl⟩
    exact hlive b (mem_of_find?_eq_some hb)
  · intro hnone
    have hlive : ∀ b ∈ s.reg.of op.aor, c.later < b.expires := by
      intro b hb
      -- A binding that is still there ends after the last sweep, so the store has it.
      have hlate := hkept.late b hb
      exact hnone _ _ (hkept.holds.lease_of_mem hkept.distinct b hb hlate) hlate
    have hall := listing_registerResponse c.later c.req (s.reg.of op.aor)
    rw [filter_eq_self.mpr (fun b hb => decide_eq_true (hlive b hb))] at hall
    exact ⟨hall, hlive⟩

end Query

/-- A contact is registered for a minute, and a sweep comes after half of it. -/
def oneMinute : List RegistrarEvent :=
  [.register (registerAt 0 "<sip:al@trecs>" "c1" 1 "<sip:a1>" "60"), .sweep 30000000000]

open Samples

/-- Before the contact expires. -/
theorem getBindings_listed_beforeExpiry :
    let c := registerAt 59 "<sip:al@trecs>" "c1" 2 "" ""
    ∃ s, Run registrarStep RegistrarOk (RegistrarRun.create none 0) oneMinute s ∧
      (s.reg.getBindings (ascii "sip:al@trecs")).map Binding.due =
        [(ascii "sip:a1", 60000000000)] ∧
      ∃ res, (handleRegister c s.reg).2 = some res ∧ res.statusCode = 200 ∧
        (Listing c.later res ((s.reg.getBindings (ascii "sip:al@trecs")).map Binding.due) ∧
            (∀ b ∈ s.reg.getBindings (ascii "sip:al@trecs"), c.later < b.expires) ↔
          ∀ uri x, s.store.contacts (ascii "sip:al@trecs") uri = some x →
            lastSweep 0 oneMinute < x.expires → c.later < x.expires) := by
  refine exists_run_imp
    (fun s => (s.reg.getBindings (ascii "sip:al@trecs")).map Binding.due =
        [(ascii "sip:a1", 60000000000)] ∧
      s.reg.passwd.isNone ∧ s.store.lastChange (ascii "c1") = some 1)
    (by decide +kernel) ?_
  rintro s hrun ⟨hdue, hnone, hlast⟩
  refine ⟨hdue, getBindings_listed_iff none 0 _ s hrun _
    ⟨ascii "sip:al@trecs", ascii "c1", 2, .query⟩ ?_ rfl ?_⟩
  · rw [permitted_of_none _ _ (isNone_iff_eq_none.mp hnone)]
    rfl
  · intro last h
    cases hlast.symm.trans h
    decide

/-- A second after a contact has expired, and before the next sweep, a query lists
    no contact and `GetBindings` returns it. -/
theorem getBindings_listed_fails :
    ∃ s, Run registrarStep RegistrarOk (RegistrarRun.create none 0)
        [.register (registerAt 0 "<sip:al@trecs>" "c1" 1 "<sip:a1>" "50"), .sweep 30000000000] s ∧
      (s.reg.getBindings (ascii "sip:al@trecs")).map Binding.expires = [50000000000] ∧
      (handleRegister (registerAt 51 "<sip:al@trecs>" "c1" 2 "" "") s.reg).2.map
        (fun res => SIPHeaders.get res.headers (ascii "Contact")) = some [] :=
  exists_run_of_exec (by decide +kernel)

end Sip

end Trecs
