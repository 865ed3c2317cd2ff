import Trecs.Lib.Indexed
import Trecs.Lib.Run
import Trecs.Lib.Table
import Trecs.B2bua.Call

/-!
# The Two Indexes of the Call Store

A call is stored under the Call-ID Alice chose, and a second map leads to it
from the Call-ID of the dialog with Bob. `Store` writes to both maps and looks at
neither.

If a call is stored over another one of Alice's with the same Call-ID, the entry
of the second map for the old dialog stays behind. It leads to the new call, and
`Remove` does not find it, since `Remove` deletes only the entry of the call it
removes. If two calls share the other Call-ID the maps disagree as well, and if
the Call-ID of one party is that of another call's other party `Get` finds the
wrong one. An empty Call-ID is what the second map returns for a missing entry,
so a call stored under it is not found through that map.

Nothing else goes wrong: as long as no call is stored like that, `Get` finds
every call by both of its Call-IDs, and by none after `Remove`.

## Main definitions

* `StoreOp`, `storeStep`: The operations that change a store.
* `Store.Consistent`: What the two maps are for.
* `FreshIDs`: The Call-IDs of a new call do not get in the way of those stored.

## Theorems

* `Store.Sound.store`, `Store.Sound.remove`: What an operation keeps.
* `consistent_of_fresh`: The maps in every run.
-/

namespace Trecs

open Option

namespace B2bua

/-- The operations that change a store. -/
inductive StoreOp where
  | store (call : Call)
  | remove (aliceCID : Bytes)
  | storeEarly (ec : EarlyCall)
  | removeEarly (aliceCID : Bytes)

/-- What an operation does. -/
def storeStep (s : Store) : StoreOp → Option Store
  | .store call => some (s.store call)
  | .remove aliceCID => some (s.remove aliceCID)
  | .storeEarly ec => some (s.storeEarly ec)
  | .removeEarly aliceCID => some (s.removeEarly aliceCID)

/-- The maps lead to the same calls, so that every call is found by both of its
    Call-IDs, and by none of them once it is removed. -/
structure Store.Consistent (s : Store) : Prop where
  agree : ∀ k a, s.bobToAlice.lookup k = some a ↔
    ∃ c, s.calls.lookup a = some c ∧ c.bobCallID = k
  found : ∀ a c, s.calls.lookup a = some c →
    s.get c.aliceCallID = some c ∧ s.get c.bobCallID = some c
  gone : ∀ a c, s.calls.lookup a = some c →
    (s.remove c.aliceCallID).get c.aliceCallID = none ∧
      (s.remove c.aliceCallID).get c.bobCallID = none

/-- The call has a Call-ID. If it replaces another one, both have the same
    Call-ID with Bob. No other call has that, and neither of its Call-IDs is that
    of the other party of another call. -/
def FreshIDs (s : Store) (call : Call) : Prop :=
  call.aliceCallID ≠ [] ∧
    (∀ c ∈ s.calls.lookup call.aliceCallID, c.bobCallID = call.bobCallID) ∧
    (∀ a ∈ s.bobToAlice.lookup call.bobCallID, a = call.aliceCallID) ∧
    (call.bobCallID = call.aliceCallID ∨
      s.calls.lookup call.bobCallID = none ∧ s.bobToAlice.lookup call.aliceCallID = none)

instance (s : Store) (call : Call) : Decidable (FreshIDs s call) :=
  inferInstanceAs (Decidable (_ ∧ _ ∧ _ ∧ _))

/-- Only `Store` can do harm. -/
def FreshOp (s : Store) : StoreOp → Prop
  | .store call => FreshIDs s call
  | _ => True

instance (s : Store) (op : StoreOp) : Decidable (FreshOp s op) := by
  cases op <;> unfold FreshOp <;> infer_instance

/-! ### What the operations keep -/

/-- The maps are inverse to each other, and no Call-ID of one party of a call is
    that of the other party of another. -/
structure Store.Sound (s : Store) : Prop where
  keyed : ∀ a c, s.calls.lookup a = some c → c.aliceCallID = a ∧ a ≠ []
  indexed : Indexed Call.bobCallID s.calls s.bobToAlice
  apart : ∀ a c a' c', s.calls.lookup a = some c → s.calls.lookup a' = some c' →
    c.bobCallID = a' → a = a'

theorem Store.sound_create : Store.create.Sound where
  keyed _ _ h := nomatch h
  indexed := Indexed.empty
  apart _ _ _ _ h := nomatch h

variable {s : Store}

theorem Store.Sound.store (h : s.Sound) (call : Call) (hf : FreshIDs s call) :
    (s.store call).Sound := by
  rcases hf with ⟨hnamed, hsame, hbob, hcross⟩
  refine ⟨fun a c hc => ?_, h.indexed.insert hsame hbob, fun a c a' c' hc hc' heq => ?_⟩
  · simp only [Store.store] at hc
    by_cases ha : a = call.aliceCallID
    · rw [ha, AList.lookup_insert, some.injEq] at hc
      rw [← hc, ha]
      exact ⟨rfl, hnamed⟩
    · rw [AList.lookup_insert_ne ha] at hc
      exact h.keyed a c hc
  · simp only [Store.store] at hc hc'
    by_cases ha : a = call.aliceCallID
    · by_cases ha' : a' = call.aliceCallID
      · rw [ha, ha']
      · -- Bob's Call-ID of the new call is Alice's of an old one.
        rw [ha, AList.lookup_insert, some.injEq] at hc
        rw [AList.lookup_insert_ne ha'] at hc'
        rw [← hc] at heq
        rcases hcross with hown | ⟨hnone, _⟩
        · exact absurd (heq.symm.trans hown) ha'
        · rw [heq, hc'] at hnone
          contradiction
    · rw [AList.lookup_insert_ne ha] at hc
      by_cases ha' : a' = call.aliceCallID
      · -- Bob's Call-ID of an old call is Alice's of the new one.
        have hindex := (h.indexed a' a).mpr ⟨c, hc, heq⟩
        rw [ha'] at hindex
        rcases hcross with hown | ⟨_, hnone⟩
        · exact absurd (hbob a (by rw [hown]; exact hindex)) ha
        · rw [hindex] at hnone
          contradiction
      · rw [AList.lookup_insert_ne ha'] at hc'
        exact h.apart a c a' c' hc hc' heq

theorem Store.lookup_remove {aliceCID a : Bytes} {c : Call}
    (hc : (s.remove aliceCID).calls.lookup a = some c) : s.calls.lookup a = some c := by
  unfold Store.remove at hc
  cases hlook : s.calls.lookup aliceCID with
  | none =>
    rw [hlook] at hc
    exact hc
  | some call =>
    rw [hlook] at hc
    exact ((lookup_erase_eq_some _ _ _ _).mp hc).2

theorem Store.Sound.remove (h : s.Sound) (aliceCID : Bytes) :
    (s.remove aliceCID).Sound := by
  refine ⟨fun a c hc => h.keyed a c (Store.lookup_remove hc), ?_,
    fun a c a' c' hc hc' heq =>
      h.apart a c a' c' (Store.lookup_remove hc) (Store.lookup_remove hc') heq⟩
  unfold Store.remove
  cases hlook : s.calls.lookup aliceCID with
  | none => exact h.indexed
  | some call => exact h.indexed.erase hlook

theorem Store.Sound.step {s t : Store} {op : StoreOp} (h : s.Sound) (hok : FreshOp s op)
    (hstep : storeStep s op = some t) : t.Sound := by
  cases op with
  | store call =>
    cases hstep
    exact h.store call hok
  | remove aliceCID =>
    cases hstep
    exact h.remove aliceCID
  | storeEarly ec | removeEarly aliceCID =>
    cases hstep
    exact ⟨h.keyed, h.indexed, h.apart⟩

/-! ### What `Get` finds -/

theorem Store.get_of_calls {a : Bytes} {c : Call} (hc : s.calls.lookup a = some c) :
    s.get a = some c := by
  rw [Store.get, hc]

/-- A Call-ID that is in neither map. -/
theorem Store.get_eq_none {k : Bytes} (hcalls : s.calls.lookup k = none)
    (hindex : s.bobToAlice.lookup k = none) : s.get k = none := by
  rw [Store.get, hcalls]
  simp only
  rw [hindex]

theorem Store.Sound.get_bob (h : s.Sound) {a : Bytes} {c : Call}
    (hc : s.calls.lookup a = some c) : s.get c.bobCallID = some c := by
  cases hlook : s.calls.lookup c.bobCallID with
  | some c' =>
    -- Only the call itself can be stored under its own other Call-ID.
    have ha := h.apart a c c.bobCallID c' hc hlook rfl
    rw [← ha]
    exact Store.get_of_calls hc
  | none =>
    have hindex := (h.indexed c.bobCallID a).mpr ⟨c, hc, rfl⟩
    rw [Store.get, hlook]
    simp only
    rw [hindex]
    simp only
    rw [if_pos (h.keyed a c hc).2, hc]

/-- A removed call is found by neither Call-ID. -/
theorem Store.Sound.get_remove (h : s.Sound) {a : Bytes} {c : Call}
    (hc : s.calls.lookup a = some c) :
    (s.remove a).get a = none ∧ (s.remove a).get c.bobCallID = none := by
  have hremove : s.remove a =
      { s with bobToAlice := s.bobToAlice.erase c.bobCallID, calls := s.calls.erase a } := by
    rw [Store.remove, hc]
  have hs' := h.remove a
  constructor
  · refine Store.get_eq_none ?_ ?_
    · rw [hremove]
      exact AList.lookup_erase _ _
    · cases hindex : (s.remove a).bobToAlice.lookup a with
      | none => rfl
      | some a' =>
        -- Another call would have the Call-ID with Bob.
        rcases (hs'.indexed a a').mp hindex with ⟨c', hc', hbob⟩
        have ha' := h.apart a' c' a c (Store.lookup_remove hc') hc hbob
        rw [ha', hremove, AList.lookup_erase] at hc'
        contradiction
  · refine Store.get_eq_none ?_ ?_
    · cases hlook : (s.remove a).calls.lookup c.bobCallID with
      | none => rfl
      | some c' =>
        have ha := h.apart a c c.bobCallID c' hc (Store.lookup_remove hlook) rfl
        rw [← ha, hremove, AList.lookup_erase] at hlook
        contradiction
    · rw [hremove]
      exact AList.lookup_erase _ _

theorem Store.Sound.consistent (h : s.Sound) : s.Consistent where
  agree := h.indexed
  found a c hc := by
    rw [(h.keyed a c hc).1]
    exact ⟨Store.get_of_calls hc, h.get_bob hc⟩
  gone a c hc := by
    rw [(h.keyed a c hc).1]
    exact h.get_remove hc

/-- The maps are consistent in every run in which no call is stored whose
    Call-IDs get in the way of others. -/
theorem consistent_of_fresh (ops : List StoreOp) (s : Store)
    (hrun : Run storeStep FreshOp Store.create ops s) : s.Consistent := by
  have hsound : s.Sound := Run.invariant Store.Sound Store.sound_create
    (fun t op u h hok hstep => h.step hok hstep) hrun
  exact hsound.consistent

/-- A call with the given Call-IDs. -/
def callNamed (aliceCallID bobCallID : Bytes) : Call where
  aliceCallID := aliceCallID
  bobCallID := bobCallID
  bobContactURI := ascii "sip:bob@192.0.2.2"
  aliceContactURI := ascii "sip:alice@192.0.2.1"
  bobTransport := .udp
  bobTarget := ⟨some (ascii "192.0.2.2:5060"), none, []⟩
  aliceTransport := .udp
  aliceTarget := ⟨some (ascii "192.0.2.1:5060"), none, []⟩
  aliceDialog := confirmedDialog ⟨aliceCallID, ascii "s", ascii "a"⟩ (ascii "sip:bob@trecs")
    (ascii "sip:alice@trecs") (ascii "sip:alice@192.0.2.1")
  bobDialog := confirmedDialog ⟨bobCallID, ascii "c", ascii "b"⟩ (ascii "sip:alice@trecs")
    (ascii "sip:bob@trecs") (ascii "sip:bob@192.0.2.2")
  bridgeReady := true
  trunkName := []

theorem consistent_of_fresh_twoCalls :
    ∃ ops s, Run storeStep FreshOp Store.create ops s ∧ s.calls.keys = [ascii "a", ascii "b"] ∧
      s.Consistent := by
  let first := callNamed (ascii "a") (ascii "x")
  let other := callNamed (ascii "b") (ascii "y")
  let again := callNamed (ascii "a") (ascii "z")
  -- Alice uses her Call-ID again once the first call has been removed.
  have hrun : Run storeStep FreshOp Store.create
      [.store first, .store other, .remove (ascii "a"), .store again]
      ((((Store.create.store first).store other).remove (ascii "a")).store again) :=
    Run.snoc (Run.snoc (Run.snoc (Run.snoc Run.nil (by decide) rfl) (by decide) rfl) trivial rfl)
      (by decide) rfl
  exact ⟨_, _, hrun, by decide, consistent_of_fresh _ _ hrun⟩

/-- A call over another one leaves the entry of the old dialog behind, and
    neither `Remove` nor anything else deletes it. -/
theorem not_consistent_of_reuse :
    ∃ ops s, Run storeStep (fun _ _ => True) Store.create ops s ∧ ¬ s.Consistent := by
  let first := callNamed (ascii "a") (ascii "x")
  let again := callNamed (ascii "a") (ascii "z")
  have hrun : Run storeStep (fun _ _ => True) Store.create [.store first, .store again]
      ((Store.create.store first).store again) :=
    Run.snoc (Run.snoc Run.nil trivial rfl) trivial rfl
  refine ⟨_, _, hrun, fun h => ?_⟩
  have hstale : ((Store.create.store first).store again).bobToAlice.lookup (ascii "x") =
      some (ascii "a") := by decide
  rcases (h.agree _ _).mp hstale with ⟨c, hc, hbob⟩
  have hagain : ((Store.create.store first).store again).calls.lookup (ascii "a") =
      some again := by decide
  rw [hagain] at hc
  cases hc
  exact absurd hbob (by decide)

end B2bua

end Trecs
