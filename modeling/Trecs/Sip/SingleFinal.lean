import Trecs.Lib.Run
import Trecs.Sip.Transaction

/-!
# One Final Response per INVITE

An INVITE server transaction should hand at most one final response to its
transport, however often that one is repeated. Here the transaction is put on
its own: anything may call `Respond` at any time with any response, ACKs,
CANCELs and retransmitted INVITEs may arrive at any time, and every armed timer
may fire at any time, its callback running any time later.

The property fails for this code in two ways, both in the state Completed.
`Respond` sends a 2xx there, after the earlier final response, and it replaces
the stored response by any other final response without sending it, so the next
retransmission sends a response the client has not seen. What saves the
property is a caller that does neither: `RespondOk` asks, of each call of
`Respond` with a final response, that in Completed it repeat the stored one.

The invariant says, state by state, what has been sent so far. The stored
response matters in Completed only, since no other state retransmits.

## Main definitions

* `InviteServer`: A transaction with everything it handed to its transport.
* `ISTEvent`, `istStep`: What can happen to it.
* `SingleFinal`: All final responses sent are the same.
* `RespondOk`: No second final response in Completed.
* `FinalInv`: What each state says about the responses sent.

## Theorems

* `finalInv_step`: Every step keeps the invariant.
* `singleFinal_of_respondOk`: The property, for runs that meet the condition.
* `singleFinal_fails`: The property fails without the condition.
-/

namespace Trecs

open List Option

namespace Sip

open Proto

/-- An INVITE server transaction and the messages it handed to its transport,
    oldest first. -/
structure InviteServer where
  tx : InviteTransaction
  sent : List SIPMessage

/-- What can happen to an INVITE server transaction. A `callback` is the locked
    section of the callback of a timer that has fired. -/
inductive ISTEvent where
  | respond (now : Nat) (res : SIPMessage)
  | ack (now : Nat)
  | cancel (now : Nat) (ev : MessageEvent) (hasHandler : Bool)
  | retransmission
  | expire (i : Nat)
  | callback (now : Nat) (i : Nat)
  | stop

/-- The effect of an event. -/
def istStep (s : InviteServer) : ISTEvent → Option InviteServer
  | .respond now res =>
    let o := s.tx.respond now res
    some ⟨o.tx, s.sent ++ o.sent⟩
  | .ack now =>
    let o := s.tx.ackReceived now
    some ⟨o.tx, s.sent ++ o.sent⟩
  | .cancel now ev hasHandler =>
    let o := s.tx.cancelRequest now ev hasHandler
    some ⟨o.tx, s.sent ++ o.sent⟩
  | .retransmission => some ⟨s.tx, s.sent ++ s.tx.retransmission⟩
  | .expire i =>
    (s.tx.timers.expire i).map (fun ts => ⟨{ s.tx with timers := ts }, s.sent⟩)
  | .callback now i =>
    (s.tx.timers.take i).map (fun p =>
    let o := InviteTransaction.timerCallback now { s.tx with timers := p.2 } p.1
    ⟨o.tx, s.sent ++ o.sent⟩)
  | .stop => some ⟨s.tx.stop, s.sent⟩

/-- A new transaction. -/
def InviteServer.start (branch : Bytes) (target : Target) (transport : Transport)
    (reliable : Bool) : InviteServer :=
  ⟨InviteTransaction.create branch target transport reliable, []⟩

/-- A final response. -/
def Final (m : SIPMessage) : Prop := 200 ≤ m.statusCode

/-- All final responses among the messages sent are the same response. -/
def SingleFinal (sent : List SIPMessage) : Prop :=
  ∀ a ∈ sent, ∀ b ∈ sent, Final a → Final b → a = b

/-- A final response passed to `Respond` in Completed is the stored one. -/
def RespondOk (s : InviteServer) : ISTEvent → Prop
  | .respond _ res => s.tx.state = .Completed → Final res → s.tx.lastResp = some res
  | _ => True

instance (m : SIPMessage) : Decidable (Final m) := inferInstanceAs (Decidable (200 ≤ m.statusCode))

instance (sent : List SIPMessage) : Decidable (SingleFinal sent) :=
  inferInstanceAs (Decidable (∀ a ∈ sent, ∀ b ∈ sent, Final a → Final b → a = b))

instance (s : InviteServer) (e : ISTEvent) : Decidable (RespondOk s e) := by
  cases e <;> unfold RespondOk <;> infer_instance

/-- What the state says about the messages sent. -/
def FinalInv (s : InviteServer) : Prop :=
  match s.tx.state with
  | .Trying | .Proceeding => ∀ a ∈ s.sent, ¬ Final a
  | .Completed => ∃ r, s.tx.lastResp = some r ∧ 300 ≤ r.statusCode ∧
      ∀ a ∈ s.sent, Final a → a = r
  | .Confirmed | .Terminated => SingleFinal s.sent

variable {sent : List SIPMessage} {r : SIPMessage} (s : InviteServer) (now : Nat)

theorem singleFinal_of_eq (h : ∀ a ∈ sent, Final a → a = r) : SingleFinal sent := by
  intro a ha b hb fa fb
  rw [h a ha fa, h b hb fb]

theorem singleFinal_of_none (h : ∀ a ∈ sent, ¬ Final a) : SingleFinal sent :=
  fun a ha _ _ fa _ => absurd fa (h a ha)

/-- Whatever the state, the messages sent satisfy the property. -/
theorem singleFinal_of_finalInv {s : InviteServer} (h : FinalInv s) : SingleFinal s.sent := by
  unfold FinalInv at h
  split at h
  · exact singleFinal_of_none h
  · exact singleFinal_of_none h
  · rcases h with ⟨r, _, _, hr⟩
    exact singleFinal_of_eq hr
  · exact h
  · exact h

/-- The one step of the argument that concerns a pending transaction: sending
    the first final response makes it the only one. -/
theorem only_final_of_pending (h : ∀ a ∈ sent, ¬ Final a) : ∀ a ∈ sent ++ [r], Final a → a = r := by
  intro a ha fa
  rw [mem_append, mem_singleton] at ha
  rcases ha with ha | ha
  · exact absurd fa (h a ha)
  · exact ha

theorem none_final_snoc (h : ∀ a ∈ sent, ¬ Final a) (hr : ¬ Final r) :
    ∀ a ∈ sent ++ [r], ¬ Final a := by
  intro a ha
  rw [mem_append, mem_singleton] at ha
  rcases ha with ha | ha
  · exact h a ha
  · rw [ha]
    exact hr

theorem only_final_snoc (h : ∀ a ∈ sent, Final a → a = r) : ∀ a ∈ sent ++ [r], Final a → a = r := by
  intro a ha fa
  rw [mem_append, mem_singleton] at ha
  rcases ha with ha | ha
  · exact h a ha fa
  · exact ha

theorem finalInv_of_pending {s : InviteServer}
    (hs : s.tx.state = .Trying ∨ s.tx.state = .Proceeding) :
    FinalInv s ↔ ∀ a ∈ s.sent, ¬ Final a := by
  unfold FinalInv
  rcases hs with hs | hs <;> rw [hs]

theorem finalInv_of_completed {s : InviteServer} (hs : s.tx.state = .Completed) :
    FinalInv s ↔ ∃ r, s.tx.lastResp = some r ∧ 300 ≤ r.statusCode ∧
      ∀ a ∈ s.sent, Final a → a = r := by
  unfold FinalInv
  rw [hs]

theorem finalInv_of_over {s : InviteServer}
    (hs : s.tx.state = .Confirmed ∨ s.tx.state = .Terminated) :
    FinalInv s ↔ SingleFinal s.sent := by
  unfold FinalInv
  rcases hs with hs | hs <;> rw [hs]

/-! ### The steps -/

theorem finalInv_respond (s : InviteServer) (now : Nat) (res : SIPMessage) (h : FinalInv s)
    (hok : RespondOk s (.respond now res)) :
    FinalInv ⟨(s.tx.respond now res).tx, s.sent ++ (s.tx.respond now res).sent⟩ := by
  rcases s.tx.respond_cases now res with ho | ⟨hp, hc, ho⟩ | ⟨hp, hc, ho⟩ |
    ⟨hT, hC, h200, h300, ho⟩ | ⟨hp, h300, ho⟩ | ⟨hcomp, h300, ho⟩
  · rw [ho]
    simpa only [append_nil] using h
  · rw [InviteTransaction.pending_iff] at hp
    rw [ho]
    rw [finalInv_of_pending hp] at h
    refine (finalInv_of_pending ?_).mpr (none_final_snoc h (by unfold Final; omega))
    exact hp
  · rw [InviteTransaction.pending_iff] at hp
    rw [ho]
    rw [finalInv_of_pending hp] at h
    exact (finalInv_of_pending (Or.inr rfl)).mpr (none_final_snoc h (by unfold Final; omega))
  · rw [ho]
    refine (finalInv_of_over (Or.inr rfl)).mpr ?_
    by_cases hcomp : s.tx.state = .Completed
    · -- A 2xx in Completed would have to be the stored response, which is not one.
      rcases (finalInv_of_completed hcomp).mp h with ⟨r, hr, hge, _⟩
      have hlast := hok hcomp h200
      rw [hr, some.injEq] at hlast
      rw [hlast] at hge
      omega
    · have hp : s.tx.state = .Trying ∨ s.tx.state = .Proceeding := by
        cases hst : s.tx.state with
        | Trying => exact Or.inl rfl
        | Proceeding => exact Or.inr rfl
        | Completed => exact absurd hst hcomp
        | Confirmed => exact absurd hst hC
        | Terminated => exact absurd hst hT
      rw [finalInv_of_pending hp] at h
      exact singleFinal_of_eq (only_final_of_pending h)
  · rw [InviteTransaction.pending_iff] at hp
    rw [ho]
    rw [finalInv_of_pending hp] at h
    refine (finalInv_of_completed ?_).mpr ⟨res, ?_, h300, only_final_of_pending h⟩
    · rw [InviteTransaction.startTimerG_state]
      rfl
    · rw [InviteTransaction.startTimerG_lastResp]
      rfl
  · rw [ho]
    rcases (finalInv_of_completed hcomp).mp h with ⟨r, hr, hge, hall⟩
    have hlast := hok hcomp (by unfold Final; omega)
    rw [hr, some.injEq] at hlast
    refine (finalInv_of_completed ?_).mpr ⟨res, rfl, h300, ?_⟩
    · exact hcomp
    · rw [← hlast]
      simpa only [append_nil] using hall

theorem finalInv_ack (h : FinalInv s) :
    FinalInv ⟨(s.tx.ackReceived now).tx, s.sent ++ (s.tx.ackReceived now).sent⟩ := by
  have hsf := singleFinal_of_finalInv h
  unfold InviteTransaction.ackReceived
  by_cases hcomp : s.tx.state = .Completed
  · rw [if_neg (not_not_intro hcomp)]
    simp only []
    split
    · refine (finalInv_of_over (Or.inr rfl)).mpr ?_
      simpa only [append_nil] using hsf
    · refine (finalInv_of_over (Or.inl rfl)).mpr ?_
      simpa only [append_nil] using hsf
  · rw [if_pos hcomp]
    simpa only [append_nil] using h

theorem finalInv_cancel (ev : MessageEvent) (hasHandler : Bool) (h : FinalInv s) :
    FinalInv ⟨(s.tx.cancelRequest now ev hasHandler).tx,
      s.sent ++ (s.tx.cancelRequest now ev hasHandler).sent⟩ := by
  unfold InviteTransaction.cancelRequest
  by_cases hp : s.tx.pending = true
  · rw [if_pos hp]
    rw [InviteTransaction.pending_iff] at hp
    rw [finalInv_of_pending hp] at h
    simp only []
    split
    · refine (finalInv_of_pending ?_).mpr ?_
      · exact hp
      · simpa only [append_nil] using h
    · refine (finalInv_of_completed ?_).mpr
        ⟨InviteTransaction.requestTerminated ev.msg, ?_, ?_, only_final_of_pending h⟩
      · rw [InviteTransaction.startTimerG_state]
        rfl
      · rw [InviteTransaction.startTimerG_lastResp]
        rfl
      · change (300 : Int) ≤ (487 : Int64).toInt
        decide
  · rw [if_neg hp]
    -- Too late or a retransmitted CANCEL: the INVITE transaction is untouched.
    split
    · split
      · simpa only [append_nil] using h
      · simpa only [append_nil] using h
    · simpa only [append_nil] using h

/-- Sending the stored response again, which happens in Completed only. -/
theorem finalInv_resend (hcomp : s.tx.state = .Completed) (h : FinalInv s) (tx : InviteTransaction)
    (hst : tx.state = .Completed) (hlr : tx.lastResp = s.tx.lastResp) :
    FinalInv ⟨tx, s.sent ++ s.tx.lastResp.toList⟩ := by
  rcases (finalInv_of_completed hcomp).mp h with ⟨r, hr, hge, hall⟩
  refine (finalInv_of_completed hst).mpr ⟨r, ?_, hge, ?_⟩
  · rw [← hr]
    exact hlr
  · rw [hr]
    exact only_final_snoc hall

theorem finalInv_retransmission (h : FinalInv s) :
    FinalInv ⟨s.tx, s.sent ++ s.tx.retransmission⟩ := by
  unfold InviteTransaction.retransmission
  by_cases hcomp : s.tx.state = .Completed
  · rw [if_pos hcomp]
    exact finalInv_resend s hcomp h s.tx hcomp rfl
  · rw [if_neg hcomp]
    simpa only [append_nil] using h

theorem finalInv_callback (k : ISTTimer) (h : FinalInv s) :
    FinalInv ⟨(s.tx.timerCallback now k).tx, s.sent ++ (s.tx.timerCallback now k).sent⟩ := by
  have hsf := singleFinal_of_finalInv h
  cases k with
  | G =>
    simp only [InviteTransaction.timerCallback]
    by_cases hc : s.tx.stopped = true ∨ s.tx.state ≠ .Completed
    · rw [if_pos hc]
      simpa only [append_nil] using h
    · rw [if_neg hc]
      rw [not_or, not_not] at hc
      exact finalInv_resend s hc.2 h _ hc.2 rfl
  | H | I =>
    simp only [InviteTransaction.timerCallback]
    split
    · simpa only [append_nil] using h
    · refine (finalInv_of_over (Or.inr rfl)).mpr ?_
      simpa only [append_nil] using hsf

/-- Every step that meets the condition keeps the invariant. -/
theorem finalInv_step (e : ISTEvent) (t : InviteServer) (h : FinalInv s) (hok : RespondOk s e)
    (hstep : istStep s e = some t) : FinalInv t := by
  cases e with
  | respond now res =>
    simp only [istStep] at hstep
    cases hstep
    exact finalInv_respond s now res h hok
  | ack now =>
    simp only [istStep] at hstep
    cases hstep
    exact finalInv_ack s now h
  | cancel now ev hasHandler =>
    simp only [istStep] at hstep
    cases hstep
    exact finalInv_cancel s now ev hasHandler h
  | retransmission =>
    simp only [istStep] at hstep
    cases hstep
    exact finalInv_retransmission s h
  | expire i =>
    simp only [istStep, map_eq_some_iff] at hstep
    rcases hstep with ⟨ts, _, rfl⟩
    exact h
  | callback now i =>
    simp only [istStep, map_eq_some_iff] at hstep
    rcases hstep with ⟨⟨k, ts⟩, _, rfl⟩
    exact finalInv_callback ⟨{ s.tx with timers := ts }, s.sent⟩ now k h
  | stop =>
    simp only [istStep] at hstep
    cases hstep
    exact h

/-- In every run in which no final response other than the stored one is
    passed to `Respond` in Completed, all final responses handed to the
    transport are copies of one response. -/
theorem singleFinal_of_respondOk (branch : Bytes) (target : Target) (transport : Transport)
    (reliable : Bool) (es : List ISTEvent) (s : InviteServer)
    (hrun : Run istStep RespondOk (.start branch target transport reliable) es s) :
    SingleFinal s.sent := by
  have h0 : FinalInv (.start branch target transport reliable) :=
    (finalInv_of_pending (Or.inl rfl)).mpr (by intros; contradiction)
  exact singleFinal_of_finalInv (hrun.invariant FinalInv h0 finalInv_step)

/-- An INVITE to answer in the runs below. -/
def sampleInvite : SIPMessage := newRequest .INVITE (ascii "sip:bob@example.com")

/-- Its transaction over UDP. -/
def sampleServer : InviteServer := .start (ascii "z9hG4bK1") ⟨none, none, []⟩ .udp false

/-- A run in which the busy signal is repeated by timer G and by a
    retransmitted INVITE before it is acknowledged. -/
def busyRepeated : List ISTEvent :=
  [.respond 0 (newResponse sampleInvite 180 (ascii "Ringing")),
    .respond 1 (newResponse sampleInvite 486 (ascii "Busy Here")), .expire 1, .callback 2 1,
    .retransmission, .ack 3]

theorem singleFinal_busyRepeated :
    ∃ s, Run istStep RespondOk sampleServer busyRepeated s ∧ s.sent.length = 4 ∧
      SingleFinal s.sent :=
  exists_run_and (by decide +kernel) fun _ hrun _ => singleFinal_of_respondOk _ _ _ _ _ _ hrun

/-- After a busy signal, a 200. -/
def busyThenOK : List ISTEvent :=
  [.respond 0 (newResponse sampleInvite 486 (ascii "Busy Here")),
    .respond 1 (newResponse sampleInvite 200 (ascii "OK"))]

/-- After a busy signal, a server error, and then timer G. -/
def busyThenError : List ISTEvent :=
  [.respond 0 (newResponse sampleInvite 486 (ascii "Busy Here")),
    .respond 1 (newResponse sampleInvite 500 (ascii "Server Internal Error")),
    .expire 1, .callback 2 1]

/-- Without the condition the property fails twice over: `Respond` sends the
    200, and timer G sends the server error that `Respond` only stored. -/
theorem singleFinal_fails :
    (∃ s, Run istStep (fun _ _ => True) sampleServer busyThenOK s ∧ ¬ SingleFinal s.sent) ∧
    (∃ s, Run istStep (fun _ _ => True) sampleServer busyThenError s ∧ ¬ SingleFinal s.sent) :=
  ⟨exists_run_of_exec (by decide +kernel),
    exists_run_of_exec (by decide +kernel)⟩

end Sip

end Trecs
