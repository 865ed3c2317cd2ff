import Trecs.Sip.SingleFinal
import Trecs.Sip.Uac

/-!
# Transactions Only Move Forward

The states of a transaction are ordered, Trying or Calling first and Terminated
last. Every event leaves a transaction where it is or moves it on, and a
transaction that has reached its end hands nothing more to its transport.

The three machines are looked at on their own, each from any state, so nothing
is said about how the state came about. The argument is about one event at a
time. A callback may run in any state, since its timer may have been stopped or
replaced after it fired: each of the callbacks either asks for the state it
belongs to or ends the transaction.

`Send` of a client transaction is called by its user once and does not ask for
the state, so its own request is the one message that may leave a terminated
transaction.

## Main definitions

* `ISTState.rank`, `NISTState.rank`, `UACState.rank`: The order of the states.
* `NonInviteServer`, `nistStep`: A non-INVITE server transaction on its own.
* `Advances`: Forward only, and silent at the end.

## Theorems

* `istStep_advances`, `nistStep_advances`, `uacStep_advances`: One event.
* `transactions_advance`: All three machines.
-/

namespace Trecs

open Option

namespace Sip

open Proto

/-- The order of the states. -/
def ISTState.rank : ISTState → Nat
  | Trying => 0
  | Proceeding => 1
  | Completed => 2
  | Confirmed => 3
  | Terminated => 4

@[inherit_doc ISTState.rank] def NISTState.rank : NISTState → Nat
  | Trying => 0
  | Proceeding => 1
  | Completed => 2
  | Terminated => 4

@[inherit_doc ISTState.rank] def UACState.rank : UACState → Nat
  | Calling => 0
  | Proceeding => 1
  | Completed => 2
  | Terminated => 4

/-- The state goes from rank `m` to rank `n`, not backwards, and from Terminated
    nothing is sent. -/
def Forward (m n : Nat) (sent : List SIPMessage) : Prop := m ≤ n ∧ (m = 4 → sent = [])

theorem Forward.silent {m n : Nat} (h : m ≤ n) : Forward m n [] := ⟨h, fun _ => rfl⟩

/-- From a state before the last one anything may be sent. -/
theorem Forward.sends {m n : Nat} (h : m ≤ n) (hm : m < 4) (sent : List SIPMessage) :
    Forward m n sent :=
  ⟨h, fun heq => by omega⟩

/-! ### INVITE server transactions -/

theorem ISTState.rank_le (st : ISTState) : st.rank ≤ 4 := by
  cases st <;> decide

namespace InviteTransaction

variable (now : Nat) (tx : InviteTransaction)

theorem rank_of_pending (h : tx.pending = true) : tx.state.rank ≤ 1 := by
  rcases (pending_iff tx).mp h with h | h
  · rw [h]
    decide
  · rw [h]
    decide

theorem forward_respond (res : SIPMessage) :
    Forward tx.state.rank (tx.respond now res).tx.state.rank (tx.respond now res).sent := by
  rcases tx.respond_cases now res with
    h | ⟨hp, _, h⟩ | ⟨hp, _, h⟩ | ⟨hnt, _, _, _, h⟩ | ⟨hp, _, h⟩ | ⟨_, _, h⟩
  · rw [h]
    exact .silent (Nat.le_refl _)
  · rw [h]
    have := tx.rank_of_pending hp
    exact .sends (Nat.le_refl _) (by omega) _
  · rw [h]
    have := tx.rank_of_pending hp
    exact .sends this (by omega) _
  · -- a 2xx ends the transaction from any state before the end
    rw [h]
    refine .sends tx.state.rank_le ?_ _
    cases hst : tx.state with
    | Terminated => exact absurd hst hnt
    | Trying | Proceeding | Completed | Confirmed => decide
  · rw [h, startTimerG_state]
    have := tx.rank_of_pending hp
    exact .sends (Nat.le_trans this (Nat.le_succ 1)) (by omega) _
  · rw [h]
    exact .silent (Nat.le_refl _)

theorem forward_ackReceived :
    Forward tx.state.rank (tx.ackReceived now).tx.state.rank (tx.ackReceived now).sent := by
  unfold ackReceived
  by_cases hc : tx.state = .Completed
  · rw [if_neg (not_not_intro hc), hc]
    simp only []
    split
    · exact .silent (Nat.le_add_right 2 2)
    · exact .silent (Nat.le_succ 2)
  · rw [if_pos hc]
    exact .silent (Nat.le_refl _)

theorem forward_cancelRequest (ev : MessageEvent) (hasHandler : Bool) :
    Forward tx.state.rank (tx.cancelRequest now ev hasHandler).tx.state.rank
      (tx.cancelRequest now ev hasHandler).sent := by
  unfold cancelRequest
  split
  · rename_i hp
    have := tx.rank_of_pending hp
    simp only []
    split
    · exact .silent (Nat.le_refl _)
    · rw [startTimerG_state]
      exact .sends (Nat.le_trans this (Nat.le_succ 1)) (by omega) _
  · split
    · split
      · exact .silent (Nat.le_refl _)
      · exact .silent (Nat.le_refl _)
    · exact .silent (Nat.le_refl _)

theorem forward_retransmission : Forward tx.state.rank tx.state.rank tx.retransmission := by
  unfold retransmission
  by_cases hc : tx.state = .Completed
  · rw [if_pos hc, hc]
    exact .sends (Nat.le_refl _) (by decide) _
  · rw [if_neg hc]
    exact .silent (Nat.le_refl _)

theorem forward_timerCallback (k : ISTTimer) :
    Forward tx.state.rank (tx.timerCallback now k).tx.state.rank (tx.timerCallback now k).sent := by
  cases k with
  | G =>
    simp only [timerCallback]
    by_cases hc : tx.stopped = true ∨ tx.state ≠ .Completed
    · rw [if_pos hc]
      exact .silent (Nat.le_refl _)
    · rw [if_neg hc]
      rw [not_or, not_not] at hc
      refine .sends (Nat.le_refl _) ?_ _
      rw [hc.2]
      decide
  | H | I =>
    simp only [timerCallback]
    split
    · exact .silent (Nat.le_refl _)
    · exact .silent tx.state.rank_le

end InviteTransaction

/-! ### Other server transactions -/

theorem NISTState.rank_le (st : NISTState) : st.rank ≤ 4 := by
  cases st <;> decide

namespace NonInviteTransaction

theorem rank_of_ne (tx : NonInviteTransaction) (h : tx.state ≠ .Terminated) :
    tx.state.rank ≤ 2 := by
  cases hst : tx.state with
  | Terminated => exact absurd hst h
  | Trying | Proceeding | Completed => decide

theorem forward_respond (now : Nat) (tx : NonInviteTransaction) (res : SIPMessage) :
    Forward tx.state.rank (tx.respond now res).tx.state.rank (tx.respond now res).sent := by
  unfold respond
  simp only []
  by_cases ht : tx.state = .Terminated
  · rw [if_pos ht]
    exact .silent (Nat.le_refl _)
  rw [if_neg ht]
  have hlive := tx.rank_of_ne ht
  split
  · split
    · rename_i htry
      rw [htry]
      exact .sends (Nat.zero_le _) (by decide) _
    · exact .sends (Nat.le_refl _) (by omega) _
  · split
    · exact .sends hlive (by omega) _
    · exact .silent (Nat.le_refl _)

theorem forward_retransmission (tx : NonInviteTransaction) :
    Forward tx.state.rank tx.state.rank tx.retransmission := by
  unfold retransmission
  by_cases hc : tx.state = .Completed
  · rw [if_pos hc, hc]
    exact .sends (Nat.le_refl _) (by decide) _
  · rw [if_neg hc]
    exact .silent (Nat.le_refl _)

theorem forward_timerCallback (tx : NonInviteTransaction) :
    Forward tx.state.rank tx.timerCallback.tx.state.rank tx.timerCallback.sent := by
  unfold timerCallback
  split
  · exact .silent (Nat.le_refl _)
  · exact .silent tx.state.rank_le

end NonInviteTransaction

/-- A non-INVITE server transaction and the messages it handed to its transport,
    oldest first. -/
structure NonInviteServer where
  tx : NonInviteTransaction
  sent : List SIPMessage

/-- What can happen to a non-INVITE server transaction. -/
inductive NISTEvent where
  | respond (now : Nat) (res : SIPMessage)
  | retransmission
  | expire (i : Nat)
  | callback (i : Nat)
  | stop

/-- The effect of an event. -/
def nistStep (s : NonInviteServer) : NISTEvent → Option NonInviteServer
  | .respond now res =>
    let o := s.tx.respond now res
    some ⟨o.tx, s.sent ++ o.sent⟩
  | .retransmission => some ⟨s.tx, s.sent ++ s.tx.retransmission⟩
  | .expire i =>
    (s.tx.timers.expire i).map (fun ts => ⟨{ s.tx with timers := ts }, s.sent⟩)
  | .callback i =>
    (s.tx.timers.take i).map (fun p =>
    let o := NonInviteTransaction.timerCallback { s.tx with timers := p.2 }
    ⟨o.tx, s.sent ++ o.sent⟩)
  | .stop => some ⟨s.tx.stop, s.sent⟩

/-! ### Client transactions -/

theorem UACState.rank_le (st : UACState) : st.rank ≤ 4 := by
  cases st <;> decide

namespace UACTransaction

variable (now : Nat) (sendFails : Bool) (u : UACTransaction)

theorem rank_of_waiting (h : u.waiting = true) : u.state.rank ≤ 1 := by
  unfold waiting at h
  rw [Bool.or_eq_true, decide_eq_true_eq, decide_eq_true_eq] at h
  rcases h with h | h
  · rw [h]
    decide
  · rw [h]
    decide

theorem offer_state (msg : SIPMessage) : (u.offer msg).state = u.state := by
  unfold offer
  split
  · rfl
  · rfl

theorem forward_handleResponse (u u' : UACTransaction) (msg : SIPMessage) (out : List SIPMessage)
    (h : u.handleResponse now msg = some (u', out)) : Forward u.state.rank u'.state.rank out := by
  by_cases ht : u.state = .Terminated
  · -- the state is looked at before anything else
    have hsame : u.handleResponse now msg = some (u, []) := by
      unfold handleResponse
      simp [ht]
    rw [hsame] at h
    cases h
    exact .silent (Nat.le_refl _)
  have hlt : u.state.rank < 4 := by
    cases hst : u.state with
    | Terminated => exact absurd hst ht
    | Calling | Proceeding | Completed => decide
  refine .sends ?_ hlt out
  by_cases ha : u.Answers msg
  · rcases handleResponse_cases now u u' msg out h ha with
      ⟨hst, _⟩ | ⟨_, rfl⟩ | ⟨_, hw, rfl⟩ | ⟨_, _, rfl⟩
    · exact absurd hst ht
    · rw [offer_state]
      by_cases hc : u.state = .Calling
      · rw [if_pos hc, hc]
        exact Nat.zero_le _
      · rw [if_neg hc]
    · have := u.rank_of_waiting hw
      rw [offer_state]
      exact Nat.le_trans this (Nat.le_succ 1)
    · rw [offer_state]
  · rw [handleResponse_of_not_answers now u msg ha, some.injEq, Prod.mk.injEq] at h
    rw [h.1]

theorem forward_timerCallback (k : UACTimer) :
    Forward u.state.rank (timerCallback sendFails u k).1.state.rank
      (timerCallback sendFails u k).2.1 := by
  cases k with
  | A =>
    simp only [timerCallback]
    by_cases hc : u.stopped = true ∨ u.state ≠ .Calling
    · rw [if_pos hc]
      exact .silent (Nat.le_refl _)
    · rw [if_neg hc]
      rw [not_or, not_not] at hc
      have hlt : u.state.rank < 4 := by
        rw [hc.2]
        decide
      split
      · exact .sends (Nat.le_refl _) hlt _
      · exact .sends (Nat.le_refl _) hlt _
  | B | D =>
    simp only [timerCallback]
    split
    · exact .silent (Nat.le_refl _)
    · exact .silent u.state.rank_le

/-- A task that is not the send of the request sends nothing. -/
theorem forward_runTask (t : UACTask) : u.state.rank ≤ (u.runTask now sendFails t).1.state.rank ∧
      ((∀ req, t ≠ .sendRequest req) → (u.runTask now sendFails t).2.1 = []) := by
  cases t with
  | sendRequest req => exact ⟨Nat.le_refl _, fun h => absurd rfl (h req)⟩
  | terminate => exact ⟨u.state.rank_le, fun _ => rfl⟩
  | putTimeout =>
    refine ⟨?_, fun _ => rfl⟩
    simp only [runTask]
    split
    · exact Nat.le_refl _
    · exact Nat.le_refl _
  | storeRequest req | startTimerA | readIntervalA inSend | armTimerA interval inSend
  | readIntervalB | armTimerB d | deregister | cancelContext => exact ⟨Nat.le_refl _, fun _ => rfl⟩

end UACTransaction

/-- Whether an event is the send of the request that `Send` was called with. -/
def UACClient.isSend (s : UACClient) : UACEvent → Prop
  | .task _ i _ => ∃ req, s.tasks[i]? = some (.sendRequest req)
  | _ => False

/-! ### All machines -/

/-- In every run the rank never falls, and an event that is not excepted adds no
    message once the rank is that of Terminated. -/
def Advances {σ ε : Type} (step : σ → ε → Option σ) (rank : σ → Nat)
    (sent : σ → List SIPMessage) (excepted : σ → ε → Prop) : Prop :=
  ∀ s es t, Run step (fun _ _ => True) s es t →
    rank s ≤ rank t ∧
      ∀ e u, step t e = some u → rank t ≤ rank u ∧ (rank t = 4 → ¬ excepted t e → sent u = sent t)

/-- What one event does is enough. -/
theorem advances_of_step {σ ε : Type} {step : σ → ε → Option σ} {rank : σ → Nat}
    {sent : σ → List SIPMessage} {excepted : σ → ε → Prop}
    (h : ∀ s e t, step s e = some t →
      rank s ≤ rank t ∧ (rank s = 4 → ¬ excepted s e → sent t = sent s)) :
    Advances step rank sent excepted := by
  intro s es t hrun
  refine ⟨?_, fun e u hstep => h t e u hstep⟩
  exact hrun.invariant (fun t => rank s ≤ rank t) (Nat.le_refl _)
    (fun t e u hle _ hstep => Nat.le_trans hle (h t e u hstep).1)

theorem sent_of_forward {m n : Nat} {sent out : List SIPMessage} (h : Forward m n out) :
    m ≤ n ∧ (m = 4 → ¬ False → sent ++ out = sent) :=
  ⟨h.1, fun hm _ => by rw [h.2 hm, List.append_nil]⟩

theorem istStep_advances :
    Advances istStep (fun s => s.tx.state.rank) InviteServer.sent (fun _ _ => False) := by
  refine advances_of_step fun s e t hstep => ?_
  cases e with
  | respond now res =>
    cases hstep
    exact sent_of_forward (s.tx.forward_respond now res)
  | ack now =>
    cases hstep
    exact sent_of_forward (s.tx.forward_ackReceived now)
  | cancel now ev hasHandler =>
    cases hstep
    exact sent_of_forward (s.tx.forward_cancelRequest now ev hasHandler)
  | retransmission =>
    cases hstep
    exact sent_of_forward s.tx.forward_retransmission
  | expire i =>
    rcases map_eq_some_iff.mp hstep with ⟨ts, _, rfl⟩
    exact ⟨Nat.le_refl _, fun _ _ => rfl⟩
  | callback now i =>
    rcases map_eq_some_iff.mp hstep with ⟨p, _, rfl⟩
    exact sent_of_forward
      (InviteTransaction.forward_timerCallback now { s.tx with timers := p.2 } p.1)
  | stop =>
    cases hstep
    exact ⟨Nat.le_refl _, fun _ _ => rfl⟩

theorem nistStep_advances :
    Advances nistStep (fun s => s.tx.state.rank) NonInviteServer.sent (fun _ _ => False) := by
  refine advances_of_step fun s e t hstep => ?_
  cases e with
  | respond now res =>
    cases hstep
    exact sent_of_forward (s.tx.forward_respond now res)
  | retransmission =>
    cases hstep
    exact sent_of_forward s.tx.forward_retransmission
  | expire i =>
    rcases map_eq_some_iff.mp hstep with ⟨ts, _, rfl⟩
    exact ⟨Nat.le_refl _, fun _ _ => rfl⟩
  | callback i =>
    rcases map_eq_some_iff.mp hstep with ⟨p, _, rfl⟩
    exact sent_of_forward
      (NonInviteTransaction.forward_timerCallback { s.tx with timers := p.2 })
  | stop =>
    cases hstep
    exact ⟨Nat.le_refl _, fun _ _ => rfl⟩

theorem uacStep_advances :
    Advances uacStep (fun s => s.tx.state.rank) UACClient.sent UACClient.isSend := by
  refine advances_of_step fun s e t hstep => ?_
  have hquiet : ∀ {m n : Nat} {out : List SIPMessage} {p : Prop}, Forward m n out →
      m ≤ n ∧ (m = 4 → ¬ p → s.sent ++ out = s.sent) :=
    fun h => ⟨h.1, fun hm _ => by rw [h.2 hm, List.append_nil]⟩
  cases e with
  | task now i sendFails =>
    rcases map_eq_some_iff.mp hstep with ⟨t, ht, rfl⟩
    have hfwd := s.tx.forward_runTask now sendFails t
    refine ⟨hfwd.1, fun _ hno => ?_⟩
    have hsend : ∀ req, t ≠ .sendRequest req := fun req heq => hno ⟨req, heq ▸ ht⟩
    change s.sent ++ (s.tx.runTask now sendFails t).2.1 = s.sent
    rw [hfwd.2 hsend, List.append_nil]
  | response now msg =>
    rcases map_eq_some_iff.mp hstep with ⟨o, ho, rfl⟩
    exact hquiet (s.tx.forward_handleResponse now o.1 msg o.2 ho)
  | expire i =>
    rcases map_eq_some_iff.mp hstep with ⟨ts, _, rfl⟩
    exact ⟨Nat.le_refl _, fun _ _ => rfl⟩
  | callback i sendFails =>
    rcases map_eq_some_iff.mp hstep with ⟨p, _, rfl⟩
    exact hquiet (UACTransaction.forward_timerCallback sendFails { s.tx with timers := p.2 } p.1)
  | stopTimers | cancel =>
    cases hstep
    exact ⟨Nat.le_refl _, fun _ _ => rfl⟩
  | receiveResponse | receiveError =>
    simp only [uacStep] at hstep
    split at hstep
    · cases hstep
    · cases hstep
      exact ⟨Nat.le_refl _, fun _ _ => rfl⟩

/-- Transactions of all three kinds only move forward, and a terminated one is
    silent, but for the request `Send` was called with. -/
theorem transactions_advance :
    Advances istStep (fun s => s.tx.state.rank) InviteServer.sent (fun _ _ => False) ∧
    Advances nistStep (fun s => s.tx.state.rank) NonInviteServer.sent (fun _ _ => False) ∧
    Advances uacStep (fun s => s.tx.state.rank) UACClient.sent UACClient.isSend :=
  ⟨istStep_advances, nistStep_advances, uacStep_advances⟩

end Sip

end Trecs
