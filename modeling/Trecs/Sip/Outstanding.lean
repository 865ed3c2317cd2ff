import Trecs.Lib.Run
import Trecs.Sip.PrackSilence

/-!
# Responses that Wait for their PRACK

RFC 3262 section 3 has a reliable provisional response sent again until its
PRACK arrives or the attempt is given up. So each response that was sent and has
no PRACK yet must have a retransmission pending, or its timeout must have been
called.

The manager keeps a set of the RSeqs that wait, and one latest response, one
timer and one `onTimeout` for all of them. They agree as long as at most one RSeq
waits. A second `SendReliable` while one waits replaces the latest response, so
the first is not sent again; a PRACK for the second then stops the timer with the
first still in the set. And the `onTimeout` of a later response is dropped in
favour of the one the record was made with.

`OutstandingOk` asks of a `SendReliable` that nothing waits and that it brings the
`onTimeout` the record has.

## Main definitions

* `Retransmitting`: A retransmission of an RSeq is pending.
* `Attended`: Each response of a Call-ID that was sent was acknowledged, was
  given up, or will be sent again.
* `OutstandingOk`: The calls under which this holds.

## Theorems

* `OutstandingInv.step`: Every allowed event keeps the invariant.
* `attended_of_outstandingOk`: No response is forgotten in a run that meets
  `OutstandingOk`.
* `attended_fails`: A response that is forgotten.
-/

namespace Trecs

open List Option

namespace Sip

open Proto

namespace ReliableProvisionalManager

/-- A timer of record `k` will send the response with this RSeq again, or give it
    up. -/
def Retransmitting (m : ReliableProvisionalManager) (k : Nat) (rseq : Int) : Prop :=
  ∃ pr : PendingReliable, m.records[k]? = some pr ∧ pr.done = false ∧ pr.latestRSeq = rseq ∧
    SIPHeaders.getFirst pr.latestResp.headers (ascii "RSeq") = formatInt rseq ∧
    pr.transport.isSome = true ∧ ¬ m.timers.Idle k

/-- Each response that was sent with this Call-ID was acknowledged, or its
    timeout was called, or it will be sent again. -/
def Attended (callID : Bytes) (m : ReliableProvisionalManager) : Prop :=
  ∀ k rseq onTimeout, .sent k callID rseq onTimeout ∈ m.trace →
    .acked k callID rseq ∈ m.trace ∨
    (∃ cb, onTimeout = some cb ∧ .timedOut k callID cb ∈ m.trace) ∨
    m.Retransmitting k rseq

end ReliableProvisionalManager

/-- The condition for a Call-ID. A response is sent only while no RSeq waits for
    its PRACK, with a timeout callback, and with the one of the record if there is
    one. There is no `Cancel`. -/
def OutstandingOk (callID : Bytes) (m : ReliableProvisionalManager) : ReliableEvent → Prop
  | .send _ _ _ _ c onTimeout =>
    c = callID → onTimeout.isSome = true ∧
      ∀ p ∈ m.find callID, p.2.rseqsSent = [] ∧ p.2.onTimeout = onTimeout
  | .cancel c => c ≠ callID
  | _ => True

instance (callID : Bytes) (m : ReliableProvisionalManager) (e : ReliableEvent) :
    Decidable (OutstandingOk callID m e) := by
  cases e <;> unfold OutstandingOk <;> infer_instance

namespace ReliableProvisionalManager

variable {m : ReliableProvisionalManager} {k : Nat} {pr : PendingReliable} {callID : Bytes}

/-- The response that is sent has its RSeq in it. -/
theorem getFirst_numbered (res : SIPMessage) (rseq : Int) :
    SIPHeaders.getFirst (numbered res rseq).headers (ascii "RSeq") = formatInt rseq := by
  have hne : canonicalHeaderKey (ascii "RSeq") ≠ canonicalHeaderKey (ascii "Require") := by
    decide +kernel
  rw [numbered, SIPHeaders.getFirst_add_of_ne _ _ _ _ hne, SIPHeaders.getFirst, SIPHeaders.set,
    AList.lookup_insert]
  rfl

/-- What holds of a record of the Call-ID that is not done: at most its latest
    RSeq waits, and then a timer is live. -/
structure RecordAttended (ts : Timers Nat) (k : Nat) (pr : PendingReliable) : Prop where
  transport : pr.transport.isSome = true
  onTimeout : pr.onTimeout.isSome = true
  waiting : pr.rseqsSent = [] ∨
    (pr.rseqsSent = [pr.latestRSeq] ∧ ¬ ts.Idle k ∧
      SIPHeaders.getFirst pr.latestResp.headers (ascii "RSeq") = formatInt pr.latestRSeq)

/-- A response is acknowledged, given up, or waits in its record. -/
def Known (callID : Bytes) (records : List PendingReliable) (trace : List ReliableObs) (k : Nat)
    (rseq : Int) (onTimeout : Option Nat) : Prop :=
  .acked k callID rseq ∈ trace ∨
  (∃ cb, onTimeout = some cb ∧ .timedOut k callID cb ∈ trace) ∨
  ∃ pr : PendingReliable, records[k]? = some pr ∧ pr.done = false ∧ pr.callID = callID ∧
    rseq ∈ pr.rseqsSent ∧ pr.onTimeout = onTimeout

/-- The invariant. -/
structure OutstandingInv (callID : Bytes) (m : ReliableProvisionalManager) : Prop where
  sound : m.Sound
  records : ∀ (k : Nat) (pr : PendingReliable), m.records[k]? = some pr → pr.done = false →
    pr.callID = callID → RecordAttended m.timers k pr
  history : ∀ k rseq onTimeout, .sent k callID rseq onTimeout ∈ m.trace →
    Known callID m.records m.trace k rseq onTimeout

/-- The invariant says that every response is attended to. -/
theorem OutstandingInv.attended (h : OutstandingInv callID m) : m.Attended callID := by
  intro k rseq onTimeout hsent
  rcases h.history k rseq onTimeout hsent with hack | hout | ⟨pr, hk, hopen, hcall, hmem, _⟩
  · exact .inl hack
  · exact .inr (.inl hout)
  · right; right
    have hpr := h.records k pr hk hopen hcall
    rcases hpr.waiting with hnil | ⟨hone, hlive, hseq⟩
    · rw [hnil] at hmem
      cases hmem
    · rw [hone] at hmem
      have hlast := mem_singleton.mp hmem
      exact ⟨pr, hk, hopen, hlast.symm, hlast ▸ hseq, hpr.transport, hlive⟩

/-- More observations do no harm. -/
theorem Known.observe {records : List PendingReliable} {trace os : List ReliableObs} {rseq : Int}
    {onTimeout : Option Nat} (h : Known callID records trace k rseq onTimeout) :
    Known callID records (trace ++ os) k rseq onTimeout := by
  rcases h with hack | ⟨cb, hcb, hout⟩ | hrec
  · exact .inl (mem_append_left os hack)
  · exact .inr (.inl ⟨cb, hcb, mem_append_left os hout⟩)
  · exact .inr (.inr hrec)

/-- Overwriting a record of another Call-ID does no harm. -/
theorem Known.set_other {trace : List ReliableObs} {rseq : Int} {onTimeout : Option Nat} {k' : Nat}
    (h : Known callID m.records trace k' rseq onTimeout) (hk : m.records[k]? = some pr)
    (hne : pr.callID ≠ callID) (pr' : PendingReliable) :
    Known callID (m.records.set k pr') trace k' rseq onTimeout := by
  rcases h with hack | hout | ⟨x, hx, hxd, hxc, hmem, hcb⟩
  · exact .inl hack
  · exact .inr (.inl hout)
  · refine .inr (.inr ⟨x, ?_, hxd, hxc, hmem, hcb⟩)
    have hkk : k ≠ k' := by
      intro hc
      rw [← hc, hk, some.injEq] at hx
      exact hne (hx ▸ hxc)
    rw [getElem?_set_ne hkk]
    exact hx

/-- Counting a retransmission and holding a new timer does no harm. -/
theorem Known.set_same {trace : List ReliableObs} {rseq : Int} {onTimeout : Option Nat} {k' : Nat}
    (h : Known callID m.records trace k' rseq onTimeout) (hk : m.records[k]? = some pr) (n : Nat)
    (held : Option Nat) :
    Known callID (m.records.set k { pr with retxC := n, timer := held }) trace k' rseq
      onTimeout := by
  rcases h with hack | hout | ⟨x, hx, hxd, hxc, hmem, hcb⟩
  · exact .inl hack
  · exact .inr (.inl hout)
  · by_cases hkk : k = k'
    · have hlt : k < m.records.length := (List.getElem?_eq_some_iff.mp hk).1
      rw [← hkk, hk, some.injEq] at hx
      rw [← hkk]
      exact .inr (.inr ⟨_, getElem?_set_self hlt, hx ▸ hxd, hx ▸ hxc, hx ▸ hmem, hx ▸ hcb⟩)
    · exact .inr (.inr ⟨x, (getElem?_set_ne hkk).trans hx, hxd, hxc, hmem, hcb⟩)

/-- Timers that keep what is live of another record. -/
theorem RecordAttended.retime {ts ts' : Timers Nat} (h : RecordAttended ts k pr)
    (hlive : ¬ ts.Idle k → ¬ ts'.Idle k) : RecordAttended ts' k pr :=
  { h with
    waiting := h.waiting.imp_right (fun hx => ⟨hx.1, hlive hx.2.1, hx.2.2⟩) }

/-- Stopping the timer a record holds does nothing to the others. -/
theorem Sound.not_idle_stop? (hs : m.Sound) (hk : m.records[k]? = some pr) {k' : Nat}
    (hne : k' ≠ k) (hlive : ¬ m.timers.Idle k') : ¬ (m.timers.stop? pr.timer).Idle k' := by
  refine Timers.not_idle_stop? hlive pr.timer (fun i hi => ?_)
  rcases hs.held k pr i hk hi with ⟨t, ht, hkind⟩
  exact ⟨t, ht, fun hc => hne (hc.symm.trans hkind)⟩

namespace OutstandingInv

/-- Sending a response with the Call-ID on a record where no RSeq waits. -/
theorem sendOn (h : OutstandingInv callID m) (hk : m.records[k]? = some pr)
    (hopen : pr.done = false) (hcall : pr.callID = callID) (hnil : pr.rseqsSent = [])
    (onTimeout : Option Nat) (hcb : pr.onTimeout = onTimeout) (now : Nat) (res : SIPMessage) :
    OutstandingInv callID (m.sendOn now k pr res onTimeout) where
  sound := h.sound.sendOn hk hopen now res onTimeout
  records := by
    intro k' x hx hxd hxc
    rcases getElem?_set_cases m.records k k' x _ hx with ⟨hkk, hxp⟩ | ⟨hkk, hx0⟩
    · have hpr := h.records k pr hk hopen hcall
      rw [hkk, hxp]
      refine ⟨hpr.transport, hpr.onTimeout, .inr ⟨?_, Timers.not_idle_afterFunc _ now _ k, ?_⟩⟩
      · simp [hnil]
      · exact getFirst_numbered res _
    · exact absurd (hxc.trans hcall.symm) (callID_ne h.sound hk hopen hx0 hxd hkk)
  history := by
    intro k' rseq cb hsent
    have hlt : k < m.records.length := (List.getElem?_eq_some_iff.mp hk).1
    rcases mem_append.mp hsent with hsent | hsent
    · -- An earlier response does not wait any more, since no RSeq waits.
      rcases (h.history k' rseq cb hsent) with hack | ⟨n, hn, hout⟩ | ⟨x, hx, hxd, hxc, hmem, _⟩
      · exact .inl (mem_append_left _ hack)
      · exact .inr (.inl ⟨n, hn, mem_append_left _ hout⟩)
      · by_cases hkk : k' = k
        · rw [hkk, hk, some.injEq] at hx
          rw [← hx, hnil] at hmem
          cases hmem
        · exact absurd (hxc.trans hcall.symm) (callID_ne h.sound hk hopen hx hxd hkk)
    · rcases ReliableObs.sent.inj (mem_singleton.mp hsent) with ⟨hkk, _, hrseq, hcb'⟩
      have hself : (m.sendOn now k pr res onTimeout).records[k]? = some _ :=
        getElem?_set_self hlt
      rw [hkk]
      refine .inr (.inr ⟨_, hself, rfl, hcall, ?_, ?_⟩)
      · simp [hnil, hrseq]
      · rw [hcb']
        exact hcb

/-- Sending a response with another Call-ID. -/
theorem sendOn_other (h : OutstandingInv callID m) (hk : m.records[k]? = some pr)
    (hopen : pr.done = false) (hne : pr.callID ≠ callID) (onTimeout : Option Nat) (now : Nat)
    (res : SIPMessage) : OutstandingInv callID (m.sendOn now k pr res onTimeout) where
  sound := h.sound.sendOn hk hopen now res onTimeout
  records := by
    intro k' x hx hxd hxc
    rcases getElem?_set_cases m.records k k' x _ hx with ⟨_, hxp⟩ | ⟨hkk, hx0⟩
    · rw [hxp] at hxc
      exact absurd hxc hne
    · refine (h.records k' x hx0 hxd hxc).retime (fun hlive => ?_)
      exact Timers.not_idle_afterFunc_of (h.sound.not_idle_stop? hk hkk hlive) now _ k
  history := by
    intro k' rseq cb hsent
    rcases mem_append.mp hsent with hsent | hsent
    · exact ((h.history k' rseq cb hsent).set_other hk hne _).observe
    · exact absurd (ReliableObs.sent.inj (mem_singleton.mp hsent)).2.1.symm hne

/-- A PRACK for an RSeq that waits. -/
theorem acknowledge (h : OutstandingInv callID m) (hk : m.records[k]? = some pr)
    (hopen : pr.done = false) (rseq : Int) (hmem : rseq ∈ pr.rseqsSent) :
    OutstandingInv callID (m.acknowledge k pr rseq) where
  sound := h.sound.acknowledge hk hopen rseq
  records := by
    intro k' x hx hxd hxc
    rcases getElem?_set_cases m.records k k' x _ hx with ⟨hkk, hxp⟩ | ⟨hkk, hx0⟩
    · -- The RSeq was the only one that waited.
      have hcall : pr.callID = callID := by
        rw [← hxc, hxp]
      have hpr := h.records k pr hk hopen hcall
      rw [hkk, hxp]
      refine ⟨hpr.transport, hpr.onTimeout, .inl ?_⟩
      rcases hpr.waiting with hnil | ⟨hone, _⟩
      · simp [hnil]
      · rw [hone] at hmem
        simp only [hone, mem_singleton.mp hmem, ne_eq, not_true_eq_false, decide_false,
          Bool.false_eq_true, not_false_eq_true, filter_cons_of_neg, filter_nil]
    · refine (h.records k' x hx0 hxd hxc).retime (fun hlive => ?_)
      simp only [ReliableProvisionalManager.acknowledge]
      split
      · exact h.sound.not_idle_stop? hk hkk hlive
      · exact hlive
  history := by
    intro k' rseq' cb hsent
    have hlt : k < m.records.length := (List.getElem?_eq_some_iff.mp hk).1
    have hsent' : .sent k' callID rseq' cb ∈ m.trace := by
      rcases mem_append.mp hsent with hsent | hsent
      · exact hsent
      · cases mem_singleton.mp hsent
    rcases (h.history k' rseq' cb hsent') with hack | ⟨n, hn, hout⟩ | ⟨x, hx, hxd, hxc, hin, hcb⟩
    · exact .inl (mem_append_left _ hack)
    · exact .inr (.inl ⟨n, hn, mem_append_left _ hout⟩)
    · by_cases hkk : k = k'
      · rw [← hkk, hk, some.injEq] at hx
        by_cases hr : rseq' = rseq
        · left
          refine mem_append_right _ (mem_singleton.mpr ?_)
          rw [hr, ← hkk, ← hxc, hx]
        · have hself : (m.acknowledge k pr rseq).records[k]? = some _ :=
            getElem?_set_self hlt
          rw [← hkk]
          refine .inr (.inr ⟨_, hself, hopen, ?_, ?_, ?_⟩)
          · rw [← hxc, hx]
          · rw [← hx] at hin
            exact mem_filter.mpr ⟨hin, decide_eq_true hr⟩
          · rw [← hcb, hx]
      · refine .inr (.inr ⟨x, ?_, hxd, hxc, hin, hcb⟩)
        exact (getElem?_set_ne hkk).trans hx

/-- Cancelling another Call-ID. -/
theorem cancel_other (h : OutstandingInv callID m) (c : Bytes) (hne : c ≠ callID) :
    OutstandingInv callID (m.cancel c) := by
  refine ⟨h.sound.cancel c, ?_, ?_⟩
  · unfold ReliableProvisionalManager.cancel
    split
    · exact h.records
    · rename_i k pr hfind
      rcases h.sound.find c hfind with ⟨hk, _, _⟩
      intro k' x hx hxd hxc
      rcases getElem?_set_cases m.records k k' x _ hx with ⟨_, hxp⟩ | ⟨hkk, hx0⟩
      · rw [hxp] at hxd
        contradiction
      · exact (h.records k' x hx0 hxd hxc).retime (h.sound.not_idle_stop? hk hkk)
  · unfold ReliableProvisionalManager.cancel
    split
    · exact h.history
    · rename_i k pr hfind
      rcases h.sound.find c hfind with ⟨hk, hcall, _⟩
      intro k' rseq cb hsent
      exact (h.history k' rseq cb hsent).set_other hk (hcall ▸ hne) _

theorem expire (h : OutstandingInv callID m) (i : Nat) (ts : Timers Nat)
    (hexp : m.timers.expire i = some ts) : OutstandingInv callID { m with timers := ts } where
  sound := h.sound.step (.expire i) _ (by rw [reliableStep, hexp, map_some])
  records := fun k pr hk hopen hcall =>
    (h.records k pr hk hopen hcall).retime (fun hlive => Timers.not_idle_expire hlive i hexp)
  history := h.history

/-- A callback of the Call-ID sends the response again and makes the next timer,
    or gives up and calls the timeout. -/
theorem callback (h : OutstandingInv callID m) (now i : Nat) (ts : Timers Nat)
    (htake : m.timers.take i = some (k, ts)) (hk : m.records[k]? = some pr) :
    OutstandingInv callID (retransmitCallback now { m with timers := ts } k pr) := by
  have hsound : Sound (retransmitCallback now { m with timers := ts } k pr) := by
    refine h.sound.step (.callback now i) _ ?_
    rw [reliableStep, htake, bind_some, hk, map_some]
  -- The timer that is taken belongs to record `k`.
  have hothers : ∀ k', k' ≠ k → ¬ m.timers.Idle k' → ¬ ts.Idle k' := by
    intro k' hne hlive
    rcases (Timers.take_eq_some_iff m.timers ts i k).mp htake with ⟨t, hi, _, hkind, hset⟩
    rw [hset]
    exact Timers.not_idle_set hlive i t _ hi (fun hc => hne (hc.symm.trans hkind.symm))
  cases hopen : pr.done with
  | true =>
    rw [retransmitCallback, if_pos hopen] at hsound ⊢
    refine ⟨hsound, ?_, h.history⟩
    intro k' x hx hxd hxc
    refine (h.records k' x hx hxd hxc).retime (hothers k' (fun hkk => ?_))
    rw [hkk, hk, some.injEq] at hx
    rw [← hx, hopen] at hxd
    cases hxd
  | false =>
    rcases retransmitCallback_cases now { m with timers := ts } k pr hopen with
      ⟨_, hm⟩ | ⟨_, hnil, hm⟩ | ⟨_, _, hm⟩
    · rw [hm] at hsound ⊢
      refine ⟨hsound, ?_, ?_⟩
      · intro k' x hx hxd hxc
        rcases getElem?_set_cases m.records k k' x _ hx with ⟨_, hxp⟩ | ⟨hkk, hx0⟩
        · rw [hxp] at hxd
          cases hxd
        · exact (h.records k' x hx0 hxd hxc).retime (hothers k' hkk)
      · intro k' rseq cb hsent
        have hsent' : .sent k' callID rseq cb ∈ m.trace := by
          rcases mem_append.mp hsent with hsent | hsent
          · exact hsent
          · rcases map_eq_some_iff.mp (mem_toList.mp hsent) with ⟨_, _, hx⟩
            cases hx
        by_cases hcall : pr.callID = callID
        · rcases h.history k' rseq cb hsent' with hack | ⟨n, hn, hout⟩ | hrec
          · exact .inl (mem_append_left _ hack)
          · exact .inr (.inl ⟨n, hn, mem_append_left _ hout⟩)
          · rcases hrec with ⟨x, hx, hxd, hxc, _, hcb⟩
            -- The record that gives up is the one that held the response.
            have hkk : k' = k := by
              by_contra hkk
              exact callID_ne h.sound hk hopen hx hxd hkk (hxc.trans hcall.symm)
            have hpr := h.records k pr hk hopen hcall
            rcases isSome_iff_exists.mp hpr.onTimeout with ⟨n, hn⟩
            rw [hkk, hk, some.injEq] at hx
            refine .inr (.inl ⟨n, ?_, mem_append_right _ ?_⟩)
            · rw [← hcb, ← hx, hn]
            · rw [hn, hcall, hkk]
              exact mem_singleton.mpr rfl
        · exact ((h.history k' rseq cb hsent').set_other hk hcall _).observe
    · rw [hm] at hsound ⊢
      refine ⟨hsound, ?_, fun k' rseq cb hsent => ?_⟩
      · intro k' x hx hxd hxc
        rcases getElem?_set_cases m.records k k' x _ hx with ⟨_, hxp⟩ | ⟨hkk, hx0⟩
        · -- The records of the Call-ID have a transport.
          have hsome := (h.records k pr hk hopen (by rw [← hxc, hxp])).transport
          rw [hnil] at hsome
          cases hsome
        · exact (h.records k' x hx0 hxd hxc).retime (hothers k' hkk)
      · exact (h.history k' rseq cb hsent).set_same hk _ _
    · rw [hm] at hsound ⊢
      refine ⟨hsound, ?_, fun k' rseq cb hsent => ?_⟩
      · intro k' x hx hxd hxc
        rcases getElem?_set_cases m.records k k' x _ hx with ⟨hkk, hxp⟩ | ⟨hkk, hx0⟩
        · have hpr := h.records k pr hk hopen (by rw [← hxc, hxp])
          rw [hkk, hxp]
          refine ⟨hpr.transport, hpr.onTimeout, hpr.waiting.imp_right ?_⟩
          exact fun hx => ⟨hx.1, Timers.not_idle_afterFunc _ now _ k, hx.2.2⟩
        · refine (h.records k' x hx0 hxd hxc).retime (fun hlive => ?_)
          exact Timers.not_idle_afterFunc_of (hothers k' hkk hlive) now _ k
      · rcases mem_append.mp hsent with hsent | hsent
        · exact ((h.history k' rseq cb hsent).set_same hk _ _).observe
        · cases mem_singleton.mp hsent

/-- Every event that meets the condition keeps the invariant. -/
theorem step (m m' : ReliableProvisionalManager) (e : ReliableEvent) (h : OutstandingInv callID m)
    (hok : OutstandingOk callID m e) (hstep : reliableStep m e = some m') :
    OutstandingInv callID m' := by
  cases e with
  | send now transport target res c onTimeout =>
    rcases h.sound.ensure transport target res c onTimeout with
      ⟨m₁, k, pr, hens, hs₁, hk, hcall, hopen, hts, htr, hold, hnew, hwhich⟩
    rw [← some.inj hstep, sendReliable, hens]
    have h₁ : OutstandingInv callID m₁ := by
      refine ⟨hs₁, ?_, ?_⟩
      · intro k' x hx hxd hxc
        rw [hts]
        by_cases hkk : k' = k
        · rw [hkk, hk, some.injEq] at hx
          rcases hwhich with ⟨_, hm⟩ | ⟨_, hpr, _⟩
          · rw [hkk, ← hx]
            exact h.records k pr (hm ▸ hk) hopen (hx ▸ hxc)
          · rw [← hx, hcall] at hxc
            rw [← hx, hpr]
            exact ⟨rfl, (hok hxc).1, .inl rfl⟩
        · exact h.records k' x (hold k' x hx hkk) hxd hxc
      · intro k' rseq cb hsent
        rw [htr] at hsent ⊢
        rcases h.history k' rseq cb hsent with hack | hout | ⟨x, hx, hrest⟩
        · exact .inl hack
        · exact .inr (.inl hout)
        · exact .inr (.inr ⟨x, hnew k' x hx, hrest⟩)
    by_cases hc : c = callID
    · have hfree : pr.rseqsSent = [] ∧ pr.onTimeout = onTimeout := by
        rcases hwhich with ⟨hfind, _⟩ | ⟨_, hpr, _⟩
        · exact (hok hc).2 (k, pr) (hc ▸ hfind)
        · rw [hpr]
          exact ⟨rfl, rfl⟩
      exact h₁.sendOn hk hopen (hcall.trans hc) hfree.1 onTimeout hfree.2 now res
    · exact h₁.sendOn_other hk hopen (fun hx => hc (hcall.symm.trans hx)) onTimeout now res
  | prack msg =>
    cases hstep
    rcases m.handlePRACK_cases msg with ⟨hm, _⟩ | ⟨r, k, pr, hr, hacc, hm, _⟩
    · rw [hm]
      exact h
    · rcases accepts_eq_some r hacc with ⟨hfind, hmem⟩
      rcases h.sound.find r.callID hfind with ⟨hk, _, hopen⟩
      rw [hm]
      exact h.acknowledge hk hopen r.rseq hmem
  | cancel c =>
    cases hstep
    exact h.cancel_other c hok
  | expire i =>
    rcases map_eq_some_iff.mp hstep with ⟨ts, hexp, rfl⟩
    exact h.expire i ts hexp
  | callback now i =>
    rcases bind_eq_some_iff.mp hstep with ⟨⟨k, ts⟩, htake, hm⟩
    rcases map_eq_some_iff.mp hm with ⟨pr, hk, rfl⟩
    exact h.callback now i ts htake hk

end OutstandingInv

end ReliableProvisionalManager

/-- In every run that meets the condition for a Call-ID, each reliable
    provisional response sent with it was acknowledged, or has a retransmission
    pending, or its timeout was called. -/
theorem attended_of_outstandingOk (callID : Bytes) (es : List ReliableEvent)
    (m : ReliableProvisionalManager)
    (hrun : Run reliableStep (OutstandingOk callID) ReliableProvisionalManager.create es m) :
    m.Attended callID := by
  have h0 : ReliableProvisionalManager.OutstandingInv callID ReliableProvisionalManager.create := by
    refine ⟨ReliableProvisionalManager.sound_create, ?_, ?_⟩
    · intro k pr hk
      exact absurd hk (by simp [ReliableProvisionalManager.create])
    · intro k rseq cb hsent
      exact absurd hsent (by simp [ReliableProvisionalManager.create])
  exact (hrun.invariant _ h0 (fun t e t' =>
    ReliableProvisionalManager.OutstandingInv.step t t' e)).attended

/-- A response that is sent again twice before its PRACK arrives. -/
def ackedLate : List ReliableEvent :=
  [sendProgress 0, .expire 0, .callback 0 0, .expire 1, .callback 0 1, prackFor "1 1 INVITE"]

theorem attended_ackedLate :
    ∃ m, Run reliableStep (OutstandingOk (ascii "c1")) ReliableProvisionalManager.create
      ackedLate m ∧ m.trace.length = 4 ∧ m.Attended (ascii "c1") :=
  exists_run_and (by decide +kernel) fun m hrun _ => attended_of_outstandingOk _ _ m hrun

/-- Two responses are sent, and the second is acknowledged. -/
def firstForgotten : List ReliableEvent := [sendProgress 0, sendProgress 1, prackFor "2 1 INVITE"]

/-- Without the condition the first of two responses is neither acknowledged nor
    given up, and no timer is left that would send it again. -/
theorem attended_fails :
    ∃ m, Run reliableStep (fun _ _ => True) ReliableProvisionalManager.create firstForgotten m ∧
      .sent 0 (ascii "c1") 1 (some 0) ∈ m.trace ∧ ¬ m.Attended (ascii "c1") := by
  refine exists_run_imp (fun m => m.trace = [.sent 0 (ascii "c1") 1 (some 0),
    .sent 0 (ascii "c1") 2 (some 1), .acked 0 (ascii "c1") 2] ∧
    ∀ t ∈ m.timers, t.phase ≠ .armed ∧ t.phase ≠ .fired) (by decide +kernel) ?_
  rintro m - ⟨htrace, hdead⟩
  have hsent : .sent 0 (ascii "c1") 1 (some 0) ∈ m.trace := by simp [htrace]
  refine ⟨hsent, fun hatt => ?_⟩
  rcases hatt 0 1 (some 0) hsent with hack | ⟨cb, _, hout⟩ | ⟨_, _, _, _, _, _, hlive⟩
  · simp [htrace] at hack
  · simp [htrace] at hout
  · refine hlive (fun j t hj _ hl => ?_)
    rcases hdead t (mem_of_getElem? hj) with ⟨hna, hnf⟩
    exact hl.elim hna hnf

end Sip

end Trecs
