import Trecs.Lib.Run
import Trecs.Sip.TimerB

/-!
# Delivery of Responses to the Consumer

`HandleResponse` hands every response to whoever reads the channel `Responses`,
with a send that gives up when the four places of the channel are taken. The
consumer is the response loop of a call, which stops at the first final
response, so what it has to see is some provisional responses and then that
final response.

Two things can go wrong. A final response that finds the channel full is lost
like any other, although the transaction has then completed and nothing will
repeat it. And a provisional response is handed on in every state but
Terminated, so one that is overtaken by the final response is delivered after
it.

`DeliveryOk` says of each arriving response what the state has to be for this
not to happen. The consumer is not part of the transaction: `Consumer` adds the
record of what it took.

## Main definitions

* `Consumer`, `consumerStep`: A client transaction and what its consumer took.
* `Consumer.heard`: What the consumer took and has yet to take.
* `Consumer.InOrder`: Provisional responses, then the first final one.
* `DeliveryOk`: The arrivals under which this holds.

## Theorems

* `consumerStep_cases`: What an event adds to what was passed and heard.
* `inOrder_of_deliveryOk`: The order in every run that meets `DeliveryOk`.
* `inOrder_fails`: A lost answer and a late provisional response.
-/

namespace Trecs

open List Option

namespace Sip

open Proto

/-- Whether a response is final. -/
def isFinal (msg : SIPMessage) : Bool := 200 ≤ msg.statusCode

/-- The response an observation shows. -/
def UACObs.message? : UACObs → Option SIPMessage
  | .received msg => some msg
  | _ => none

/-- A client transaction and the responses its consumer has taken from
    `Responses`. -/
structure Consumer where
  client : UACClient
  delivered : List SIPMessage

/-- What an event takes out of `Responses`. -/
def UACEvent.taken (u : UACTransaction) : UACEvent → List SIPMessage
  | .receiveResponse => u.responses.take 1
  | _ => []

/-- The effect of an event. -/
def consumerStep (s : Consumer) (e : UACEvent) : Option Consumer :=
  (uacStep s.client e).map (fun c => ⟨c, s.delivered ++ e.taken s.client.tx⟩)

namespace Consumer

/-- The transaction with `Send` about to start and nothing delivered. -/
def start (tx : UACTransaction) (req : SIPMessage) : Consumer := ⟨.start tx req, []⟩

/-- The responses to the request that were passed to `HandleResponse`. -/
def passed (s : Consumer) : List SIPMessage := s.client.trace.filterMap UACObs.message?

/-- What the consumer has received in the end if nothing more arrives. -/
def heard (s : Consumer) : List SIPMessage := s.delivered ++ s.client.tx.responses

/-- Whether `Responses` takes a response that arrives now. -/
def Accepts (s : Consumer) : Prop :=
  s.client.tx.state ≠ .Terminated ∧ s.client.tx.responses.length < 4

instance (s : Consumer) : Decidable s.Accepts :=
  inferInstanceAs (Decidable (_ ∧ _))

/-- The consumer hears no provisional response after a final one, and the first
    final response it hears is the first that was passed. -/
def InOrder (s : Consumer) : Prop :=
  s.heard.Pairwise (fun a b => isFinal a = true → isFinal b = true) ∧
    s.heard.find? isFinal = s.passed.find? isFinal

instance (s : Consumer) : Decidable s.InOrder :=
  inferInstanceAs (Decidable (_ ∧ _))

end Consumer

/-- The condition. The first final response arrives while `Responses` takes it,
    and a provisional response does not arrive after a final one or is not taken
    then. -/
def DeliveryOk (s : Consumer) : UACEvent → Prop
  | .response _ msg =>
    s.client.tx.Answers msg →
      if isFinal msg then s.passed.any isFinal = true ∨ s.Accepts
      else s.passed.any isFinal = true → ¬ s.Accepts
  | _ => True

instance (s : Consumer) (e : UACEvent) : Decidable (DeliveryOk s e) := by
  cases e <;> unfold DeliveryOk <;> infer_instance

/-! ### What an event does to the channel -/

namespace UACTransaction

variable (now : Nat) (sendFails : Bool) (u : UACTransaction) (msg : SIPMessage)

theorem offer_responses : (u.offer msg).responses =
      u.responses ++ if u.responses.length < 4 then [msg] else [] := by
  unfold offer
  split
  · rfl
  · rw [append_nil]

theorem transitionToCompleted_responses :
    (u.transitionToCompleted now).responses = u.responses := rfl

theorem handleResponse_of_terminated (ht : u.state = .Terminated) :
    u.handleResponse now msg = some (u, []) := by
  unfold handleResponse
  by_cases hm : msg.cseq.method ≠ u.method
  · rw [if_pos hm]
  · rw [if_neg hm, if_pos ht]

/-- A response to the request is put into the channel unless the transaction is
    terminated or the channel is full. -/
theorem handleResponse_responses (u u' : UACTransaction) (msg : SIPMessage) (out : List SIPMessage)
    (h : u.handleResponse now msg = some (u', out)) (ha : u.Answers msg) : u'.responses =
      u.responses ++ if u.state ≠ .Terminated ∧ u.responses.length < 4 then [msg] else [] := by
  by_cases ht : u.state = .Terminated
  · rw [handleResponse_of_terminated now u msg ht] at h
    have hu : u = u' := congrArg Prod.fst (some.inj h)
    rw [← hu, if_neg (fun hx => hx.1 ht), append_nil]
  -- The response is offered, to a transaction with the same channel.
  have hoff : ∃ v : UACTransaction, v.responses = u.responses ∧ u' = v.offer msg := by
    rcases u.handleResponse_cases now u' msg out h ha with ⟨hx, _⟩ | ⟨_, hu⟩ | ⟨_, _, hu⟩ | ⟨_, _, hu⟩
    · exact absurd hx ht
    · refine ⟨_, ?_, hu⟩
      split <;> rfl
    · exact ⟨_, transitionToCompleted_responses now u, hu⟩
    · exact ⟨u, rfl, hu⟩
  rcases hoff with ⟨v, hv, hu⟩
  simp [hu, offer_responses, hv, ht]

theorem timerCallback_responses (k : UACTimer) :
    (timerCallback sendFails u k).1.responses = u.responses := by
  cases k with
  | A =>
    simp only [timerCallback]
    split
    · rfl
    · split <;> rfl
  | B | D =>
    simp only [timerCallback]
    split <;> rfl

theorem runTask_responses (t : UACTask) :
    (u.runTask now sendFails t).1.responses = u.responses := by
  cases t with
  | putTimeout =>
    simp only [runTask]
    split <;> rfl
  | _ => rfl

end UACTransaction

/-- Apart from the arrival of a response and a receive, no event changes what
    the channel holds. -/
theorem uacStep_responses (s s' : UACClient) (e : UACEvent) (hstep : uacStep s e = some s')
    (hr : ∀ now msg, e = .response now msg → ¬ s.tx.Answers msg) :
    e.taken s.tx ++ s'.tx.responses = s.tx.responses ∧
      s'.trace.filterMap UACObs.message? = s.trace.filterMap UACObs.message? := by
  cases e with
  | task now i sendFails =>
    rcases map_eq_some_iff.mp hstep with ⟨t, _, rfl⟩
    refine ⟨UACTransaction.runTask_responses now sendFails s.tx t, ?_⟩
    rw [filterMap_append]
    cases t <;> exact append_nil _
  | response now msg =>
    have ha := hr now msg rfl
    simp only [uacStep, UACTransaction.handleResponse_of_not_answers now s.tx msg ha,
      map_some, some.injEq] at hstep
    rw [← hstep]
    simp only [UACEvent.taken, nil_append, if_neg ha, append_nil, and_self]
  | expire i =>
    rcases map_eq_some_iff.mp hstep with ⟨ts, _, rfl⟩
    exact ⟨rfl, rfl⟩
  | callback i sendFails =>
    rcases map_eq_some_iff.mp hstep with ⟨p, _, rfl⟩
    refine ⟨UACTransaction.timerCallback_responses sendFails _ p.1, ?_⟩
    rw [filterMap_append]
    unfold UACTransaction.observeCallback
    split <;> exact append_nil _
  | stopTimers | cancel =>
    cases hstep
    exact ⟨rfl, rfl⟩
  | receiveResponse =>
    simp only [uacStep] at hstep
    split at hstep
    · cases hstep
    · rename_i msg rest hl
      cases hstep
      refine ⟨?_, rfl⟩
      simp [UACEvent.taken, hl]
  | receiveError =>
    simp only [uacStep] at hstep
    split at hstep
    · cases hstep
    · cases hstep
      exact ⟨rfl, rfl⟩

namespace Consumer

/-- A response to the request is passed, and heard if the channel takes it. No
    other event changes what was passed or what is heard. -/
theorem consumerStep_cases (s s' : Consumer) (e : UACEvent) (hstep : consumerStep s e = some s') :
    (∃ now msg, e = .response now msg ∧ s.client.tx.Answers msg ∧
      s'.passed = s.passed ++ [msg] ∧
      s'.heard = s.heard ++ if s.Accepts then [msg] else []) ∨
    (s'.passed = s.passed ∧ s'.heard = s.heard) := by
  rcases map_eq_some_iff.mp hstep with ⟨c, hc, hs⟩
  by_cases hr : ∀ now msg, e = .response now msg → ¬ s.client.tx.Answers msg
  · right
    rcases uacStep_responses s.client c e hc hr with ⟨hheard, hpassed⟩
    rw [← hs]
    refine ⟨hpassed, ?_⟩
    simp [heard, hheard]
  · left
    push Not at hr
    rcases hr with ⟨now, msg, he, ha⟩
    refine ⟨now, msg, he, ha, ?_⟩
    rw [he] at hc
    rcases map_eq_some_iff.mp hc with ⟨⟨u', out⟩, hu, hc⟩
    have hresp := UACTransaction.handleResponse_responses now s.client.tx u' msg out hu ha
    rw [← hs, ← hc, he]
    simp only [passed, heard, UACEvent.taken, if_pos ha, filterMap_append,
      append_nil, hresp, Accepts, append_assoc]
    exact ⟨rfl, rfl⟩

/-- What is heard is a part of what was passed, so a final response that is
    heard was passed. -/
theorem any_passed_of_mem_heard (s : Consumer) (h : s.InOrder) (msg : SIPMessage)
    (hm : msg ∈ s.heard) (hf : isFinal msg = true) : s.passed.any isFinal = true := by
  have hsome : (s.heard.find? isFinal).isSome = true :=
    find?_isSome.mpr ⟨msg, hm, hf⟩
  rw [h.2, find?_isSome] at hsome
  exact List.any_eq_true.mpr hsome

/-- Every allowed event keeps the order. -/
theorem inOrder_step (s s' : Consumer) (e : UACEvent) (h : s.InOrder) (hok : DeliveryOk s e)
    (hstep : consumerStep s e = some s') : s'.InOrder := by
  rcases consumerStep_cases s s' e hstep with ⟨now, msg, he, ha, hp, hh⟩ | ⟨hp, hh⟩
  · rw [he] at hok
    have hok := hok ha
    simp only [InOrder, hp, hh, find?_append, ← h.2]
    cases hf : isFinal msg with
    | true =>
      refine ⟨pairwise_append.mpr ⟨h.1, ?_, ?_⟩, ?_⟩
      · split
        · exact pairwise_singleton _ msg
        · exact List.Pairwise.nil
      · intro a _ b hb _
        split at hb
        · rw [mem_singleton.mp hb]
          exact hf
        · cases hb
      · -- Without an earlier final response the channel has to take this one.
        cases hfind : s.heard.find? isFinal with
        | some m => rfl
        | none =>
          rw [h.2] at hfind
          have hnone : ¬ s.passed.any isFinal = true := by
            intro hany
            rcases List.any_eq_true.mp hany with ⟨m, hm, hmf⟩
            exact find?_eq_none.mp hfind m hm hmf
          rw [if_pos hf] at hok
          rw [if_pos (hok.resolve_left hnone)]
    | false =>
      rw [if_neg (by rw [hf]; exact Bool.false_ne_true)] at hok
      have hskip : (if s.Accepts then [msg] else []).find? isFinal = [msg].find? isFinal := by
        split
        · rfl
        · simp [hf]
      refine ⟨pairwise_append.mpr ⟨h.1, ?_, ?_⟩, by rw [hskip]⟩
      · split
        · exact pairwise_singleton _ msg
        · exact List.Pairwise.nil
      · -- A final response heard before would have been passed before.
        intro a hheard b hb hfa
        split at hb
        · exact absurd ‹s.Accepts› (hok (any_passed_of_mem_heard s h a hheard hfa))
        · cases hb
  · simp only [InOrder, hp, hh]
    exact h

end Consumer

/-- In every run of a client transaction whose responses arrive under the
    condition, the consumer hears the provisional responses that were not lost
    and then the first final response. -/
theorem inOrder_of_deliveryOk (branch : Bytes) (method : SIPMethod) (transport : Transport)
    (target : Target) (req : SIPMessage) (es : List UACEvent) (s : Consumer)
    (hrun : Run consumerStep DeliveryOk
      (.start (UACTransaction.create branch method transport target) req) es s) :
    s.InOrder :=
  hrun.invariant Consumer.InOrder ⟨List.Pairwise.nil, rfl⟩
    (fun t e t' => Consumer.inOrder_step t t' e)

/-- The transaction of an outgoing INVITE and its consumer. -/
def outgoingConsumer : Consumer :=
  .start (.create (ascii "z9hG4bK1") .INVITE .udp ⟨none, none, []⟩) outgoing

/-- A call that rings and is answered, with a consumer that keeps up. -/
def heardCall : List UACEvent :=
  sendSteps ++ [answer 180 "Ringing", answer 183 "Session Progress", .receiveResponse,
    answer 200 "OK", .receiveResponse, .receiveResponse]

theorem inOrder_heardCall :
    ∃ s, Run consumerStep DeliveryOk outgoingConsumer heardCall s ∧ s.delivered.length = 3 ∧
      s.InOrder :=
  exists_run_and (by decide +kernel) fun _ hrun _ => inOrder_of_deliveryOk _ _ _ _ _ _ _ hrun

/-- Four provisional responses before the consumer takes the first, and then
    the answer. -/
def answerLost : List UACEvent :=
  sendSteps ++ List.replicate 4 (answer 180 "Ringing") ++ [answer 200 "OK"] ++
    List.replicate 4 .receiveResponse

/-- A provisional response that arrives after the answer. -/
def ringingAfterAnswer : List UACEvent :=
  sendSteps ++ [answer 200 "OK", answer 180 "Ringing", .receiveResponse, .receiveResponse]

/-- Without the condition the answer can be lost for good, and a provisional
    response can be delivered after the answer. -/
theorem inOrder_fails :
    (∃ s, Run consumerStep (fun _ _ => True) outgoingConsumer answerLost s ∧
      s.client.tx.responses = [] ∧ s.passed.map SIPMessage.statusCode = [180, 180, 180, 180, 200] ∧
      s.delivered.map SIPMessage.statusCode = [180, 180, 180, 180] ∧ ¬ s.InOrder) ∧
    (∃ s, Run consumerStep (fun _ _ => True) outgoingConsumer ringingAfterAnswer s ∧
      s.delivered.map SIPMessage.statusCode = [200, 180] ∧ ¬ s.InOrder) :=
  ⟨exists_run_of_exec (by decide +kernel),
    exists_run_of_exec (by decide +kernel)⟩

end Sip

end Trecs
