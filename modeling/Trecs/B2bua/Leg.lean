import Trecs.B2bua.Invite
import Trecs.Lib.Tally
import Trecs.Sip.Reliable

/-!
# A Call Between Its Two Legs

One call while it is set up: Alice's INVITE server transaction, the response
loop, the client transaction towards Bob, the CANCELs of Alice that are being
handled, and the call store.

Every goroutine has its place in the state: the response loop a program counter
(`Loop`), every running `HandleCancel` another (`CancelPoint`), the function the
reliable provisional responses call when Alice stays silent a third
(`TimeoutPoint`), and the timer callbacks of Bob's transaction their tasks. An
event lets one of them go one step further, up to the next call that takes a
lock, or brings a message or the end of a timer.

When the manager of reliable provisional responses gives up on Alice is decided
outside: it may happen whenever one of them is pending. It holds its lock while
it does, so the loop cannot send another, nor drop those pending, meanwhile.

The state remembers what Alice's transaction was given and what she was sent,
and what was received from Bob and sent to him.

## Main definitions

* `Loop`, `CancelPoint`, `TimeoutPoint`: Where the goroutines are.
* `Leg`: The call.
* `LegEvent`, `legStep`: What can happen to it.
* `LegStep`: Everything an event can do.
* `Leg.Quiescent`: Nothing is left to do.

## Theorems

* `legStep_cases`: Every step is one of these.
-/

namespace Trecs

open Option

namespace B2bua

open Proto Sip Media

/-- Where the response loop is. While it sends the INVITE it has one task of
    `Send` to do next. -/
inductive Loop where
  | starting
  | sending (task : UACTask)
  | select
  | running (todo : List Action) (last : Bool)
  | ended

/-- What the loop has left to do before it waits again or returns. -/
def Loop.todo : Loop → List Action
  | running todo _ => todo
  | _ => []

/-- Whether the loop will not wait again. -/
def Loop.ending : Loop → Bool
  | running _ last => last
  | ended => true
  | _ => false

/-- Where a running `HandleCancel` is. `respond` knows whether the ringing call
    was found. -/
inductive CancelPoint where
  | checkCall
  | findEarly
  | respond (early : Option EarlyCall)
  | cancelContext
  | sendCancel
  | removeEarly
  | cancelPRACK
deriving DecidableEq

/-- A running `HandleCancel`. -/
structure CancelJob where
  req : SIPMessage
  pc : CancelPoint
deriving DecidableEq

/-- Where a running `prackTimeout` is. -/
inductive TimeoutPoint where
  | respond
  | closeDone
deriving DecidableEq

/-- A call that is being set up. `prack` has the number of the last reliable
    provisional response while the manager has a record of the call. -/
structure Leg where
  alice : InviteTransaction
  bob : UACTransaction
  bobTasks : List UACTask
  loop : Loop
  cancels : List CancelJob
  timeout : Option TimeoutPoint
  prack : Option Int
  prackDone : Bool
  canceled : Bool
  store : Store
  given : List SIPMessage
  sent : List SIPMessage
  received : List SIPMessage
  toBob : List SIPMessage

/-- The call when its handler is about to store it and to start the loop. The
    100 that Alice has been sent leaves her transaction as it was created. -/
def Leg.start (aliceBranch : Bytes) (reliable : Bool) (cc : CallCtx) : Leg where
  alice := .create aliceBranch cc.aliceTarget cc.aliceTransport reliable
  bob := .create cc.branch .INVITE cc.transportImpl cc.target
  bobTasks := []
  loop := .starting
  cancels := []
  timeout := none
  prack := none
  prackDone := false
  canceled := false
  store := .create
  given := []
  sent := []
  received := []
  toBob := []

/-- What can happen to the call. -/
inductive LegEvent where
  | start
  | send (now : Nat) (sendFails : Bool)
  | takePrackDone
  | takeDone
  | takeResponse (env : LoopEnv)
  | takeError
  | act (now : Nat) (env : LoopEnv)
  | bobResponse (now : Nat) (msg : SIPMessage)
  | bobExpire (i : Nat)
  | bobCallback (i : Nat) (sendFails : Bool)
  | bobTask (now i : Nat) (sendFails : Bool)
  | cancel (now : Nat) (ev : MessageEvent)
  | cancelStep (now i : Nat)
  | prackTimeout
  | timeoutStep (now : Nat)
  | ack (now : Nat)
  | retransmission
  | aliceExpire (i : Nat)
  | aliceCallback (now i : Nat)

namespace Leg

/-- `tx.Respond(res)`. -/
def respond (now : Nat) (s : Leg) (res : SIPMessage) : Leg :=
  let o := s.alice.respond now res
  { s with alice := o.tx, given := s.given ++ [res], sent := s.sent ++ o.sent }

/-- The response `HandleCancel` gives to the INVITE. -/
def canceledResponse (req : SIPMessage) (early : Option EarlyCall) : SIPMessage :=
  let res := InviteTransaction.requestTerminated req
  let toHeader := SIPHeaders.getFirst req.headers hTo
  if (index (ascii "tag=") toHeader).isSome then res
  else
    let serverTag := match early with
      | some e => e.aliceServerTag
      | none => ascii "trecs-cancel"
    { res with headers := SIPHeaders.set res.headers hTo [toHeader ++ ascii ";tag=" ++ serverTag] }

/-- One step of `HandleCancel`: the call afterwards, and where it goes on. The
    pending provisional responses cannot be dropped while the manager holds its
    lock. -/
def cancelStep (now : Nat) (s : Leg) (j : CancelJob) : Option (Leg × Option CancelPoint) :=
  let callID := SIPHeaders.getFirst j.req.headers hCallID
  match j.pc with
  | .checkCall => some (s, if (s.store.get callID).isSome then none else some .findEarly)
  | .findEarly => some (s, some (.respond (s.store.getEarly callID)))
  | .respond early =>
    some (s.respond now (canceledResponse j.req early), early.map (fun _ => .cancelContext))
  | .cancelContext => some ({ s with canceled := true }, some .sendCancel)
  | .sendCancel => some ({ s with toBob := s.toBob ++ s.bob.sendCancel.toList }, some .removeEarly)
  | .removeEarly => some ({ s with store := s.store.removeEarly callID }, some .cancelPRACK)
  | .cancelPRACK => if s.timeout = none then some ({ s with prack := none }, none) else none

/-- One step of `prackTimeout`. Closing a closed channel is a panic. -/
def timeoutStep (now : Nat) (cc : CallCtx) (s : Leg) : TimeoutPoint → Option Leg
  | .respond =>
    some { s.respond now (newResponse cc.req 504 (ascii "PRACK Timeout")) with
      timeout := some .closeDone }
  | .closeDone =>
    if s.prackDone then none else some { s with prackDone := true, timeout := none }

variable [SdpCodec]

/-- One action of the response loop: the call afterwards and what the action
    turns into. Channels and session timers are no part of one call. -/
def act (h : Handler) (cc : CallCtx) (p : Peer) (now : Nat) (env : LoopEnv) (s : Leg) :
    Action → Option (Leg × List Action)
  | .respond res => some (s.respond now res, [])
  | .sendReliable prov =>
    if s.timeout = none then
      let rseq := s.prack.getD 0 + 1
      some ({ s.respond now (ReliableProvisionalManager.numbered prov rseq) with
        prack := some rseq }, [])
    else none
  | .sendBob msg => some ({ s with toBob := s.toBob ++ [msg] }, [])
  | .cancelPRACK => if s.timeout = none then some ({ s with prack := none }, []) else none
  | .release _ => some (s, [])
  | .answer resp => some (s, p.answerActions h cc env s.canceled resp)
  | .storeCall call => some ({ s with store := s.store.store call }, [])
  | .sessionTimer _ _ _ => some (s, [])
  | .removeEarly callID => some ({ s with store := s.store.removeEarly callID }, [])

/-- Whether a task of `Send` is the one that uses the network. -/
def sendsRequest : UACTask → Bool
  | .sendRequest _ => true
  | _ => false

/-- The next task of `Send`. -/
def sendStep (cc : CallCtx) (p : Peer) (now : Nat) (sendFails : Bool) (s : Leg)
    (task : UACTask) : Leg :=
  let o := s.bob.runTask now sendFails task
  let s := { s with bob := o.1, toBob := s.toBob ++ o.2.1 }
  if sendsRequest task && sendFails then
    let r := p.onSendFailed cc
    { s with loop := .running r.todo r.last }
  else
    match o.2.2 with
    | [] => { s with loop := .select }
    | next :: _ => { s with loop := .sending next }

end Leg

variable [SdpCodec] [UnicodeLower]

/-- The effect of an event. -/
def legStep (h : Handler) (cc : CallCtx) (p : Peer) (bobInvite : SIPMessage) (s : Leg) :
    LegEvent → Option Leg
  | .start =>
    match s.loop with
    | .starting => some { s with
        store := s.store.storeEarly ⟨cc.callID, cc.bobCallID, cc.serverTag, 0⟩
        loop := .sending (.storeRequest bobInvite) }
    | _ => none
  | .send now sendFails =>
    match s.loop with
    | .sending task => some (s.sendStep cc p now sendFails task)
    | _ => none
  | .takePrackDone =>
    match s.loop, s.prackDone with
    | .select, true => let r := p.onPrackDone cc; some { s with loop := .running r.todo r.last }
    | _, _ => none
  | .takeDone =>
    match s.loop, s.canceled with
    | .select, true => let r := p.onDone cc; some { s with loop := .running r.todo r.last }
    | _, _ => none
  | .takeResponse env =>
    match s.loop, s.bob.responses with
    | .select, resp :: rest =>
      let r := p.onResponse h cc env resp
      some { s with
        bob := { s.bob with responses := rest }
        loop := .running r.todo r.last }
    | _, _ => none
  | .takeError =>
    match s.loop, s.bob.errors with
    | .select, _ :: rest =>
      let r := p.onError cc
      some { s with
        bob := { s.bob with errors := rest }
        loop := .running r.todo r.last }
    | _, _ => none
  | .act now env =>
    match s.loop with
    | .running [] last => some { s with loop := if last then .ended else .select }
    | .running (a :: todo) last =>
      (s.act h cc p now env a).map (fun o => { o.1 with loop := .running (o.2 ++ todo) last })
    | _ => none
  | .bobResponse now msg =>
    (s.bob.handleResponse now msg).map (fun o =>
    { s with
      bob := o.1
      toBob := s.toBob ++ o.2
      received := s.received ++ if s.bob.Answers msg then [msg] else [] })
  | .bobExpire i =>
    (s.bob.timers.expire i).map (fun ts => { s with bob := { s.bob with timers := ts } })
  | .bobCallback i sendFails =>
    (s.bob.timers.take i).map (fun q =>
    let o := UACTransaction.timerCallback sendFails { s.bob with timers := q.2 } q.1
    { s with bob := o.1, toBob := s.toBob ++ o.2.1, bobTasks := s.bobTasks ++ o.2.2 })
  | .bobTask now i sendFails =>
    s.bobTasks[i]?.map (fun t =>
    let o := s.bob.runTask now sendFails t
    { s with
      bob := o.1
      toBob := s.toBob ++ o.2.1
      bobTasks := s.bobTasks.eraseIdx i ++ o.2.2 })
  | .cancel now ev =>
    let o := s.alice.cancelRequest now ev true
    some { s with
      alice := o.tx
      sent := s.sent ++ o.sent
      cancels := s.cancels ++ if o.callHandler then [⟨ev.msg, .checkCall⟩] else [] }
  | .cancelStep now i =>
    s.cancels[i]?.bind (fun j => (s.cancelStep now j).map (fun o =>
    { o.1 with cancels := resumeAt s.cancels i (o.2.map (CancelJob.mk j.req)) }))
  | .prackTimeout =>
    if s.prack.isSome ∧ s.timeout = none then
      some { s with prack := none, timeout := some .respond }
    else none
  | .timeoutStep now => s.timeout.bind (s.timeoutStep now cc)
  | .ack now => some { s with alice := (s.alice.ackReceived now).tx }
  | .retransmission => some { s with sent := s.sent ++ s.alice.retransmission }
  | .aliceExpire i =>
    (s.alice.timers.expire i).map (fun ts => { s with alice := { s.alice with timers := ts } })
  | .aliceCallback now i =>
    (s.alice.timers.take i).map (fun q =>
    let o := InviteTransaction.timerCallback now { s.alice with timers := q.2 } q.1
    { s with alice := o.tx, sent := s.sent ++ o.sent })

/-- Everything an event can do, with what it needs. -/
inductive LegStep (h : Handler) (cc : CallCtx) (p : Peer) (bobInvite : SIPMessage) (s : Leg) :
    LegEvent → Leg → Prop
  | start (hl : s.loop = .starting) :
    LegStep h cc p bobInvite s .start { s with
      store := s.store.storeEarly ⟨cc.callID, cc.bobCallID, cc.serverTag, 0⟩
      loop := .sending (.storeRequest bobInvite) }
  | sendFailed (now : Nat) (task : UACTask) (hl : s.loop = .sending task) :
    LegStep h cc p bobInvite s (.send now true) { s with
      bob := (s.bob.runTask now true task).1
      toBob := s.toBob ++ (s.bob.runTask now true task).2.1
      loop := .running (p.onSendFailed cc).todo true }
  | sent (now : Nat) (sendFails : Bool) (task : UACTask) (l : Loop)
      (hl : s.loop = .sending task)
      (hnext : l = .select ∨ ∃ t ∈ (s.bob.runTask now sendFails task).2.2, l = .sending t) :
    LegStep h cc p bobInvite s (.send now sendFails) { s with
      bob := (s.bob.runTask now sendFails task).1
      toBob := s.toBob ++ (s.bob.runTask now sendFails task).2.1
      loop := l }
  | takePrackDone (hl : s.loop = .select) (hp : s.prackDone = true) :
    LegStep h cc p bobInvite s .takePrackDone
      { s with loop := .running (p.onPrackDone cc).todo true }
  | takeDone (hl : s.loop = .select) (hc : s.canceled = true) :
    LegStep h cc p bobInvite s .takeDone { s with loop := .running (p.onDone cc).todo true }
  | takeResponse (env : LoopEnv) (resp : SIPMessage) (rest : List SIPMessage)
      (hl : s.loop = .select) (hr : s.bob.responses = resp :: rest) :
    LegStep h cc p bobInvite s (.takeResponse env) { s with
      bob := { s.bob with responses := rest }
      loop := .running (p.onResponse h cc env resp).todo (p.onResponse h cc env resp).last }
  | takeError (m : SIPMethod) (rest : List SIPMethod) (hl : s.loop = .select)
      (hr : s.bob.errors = m :: rest) :
    LegStep h cc p bobInvite s .takeError { s with
      bob := { s.bob with errors := rest }
      loop := .running (p.onError cc).todo true }
  | finish (now : Nat) (env : LoopEnv) (last : Bool) (hl : s.loop = .running [] last) :
    LegStep h cc p bobInvite s (.act now env) { s with loop := if last then .ended else .select }
  | act (now : Nat) (env : LoopEnv) (a : Action) (todo : List Action) (last : Bool)
      (o : Leg × List Action) (hl : s.loop = .running (a :: todo) last)
      (ho : s.act h cc p now env a = some o) :
    LegStep h cc p bobInvite s (.act now env) { o.1 with loop := .running (o.2 ++ todo) last }
  | bobResponse (now : Nat) (msg : SIPMessage) (u : UACTransaction) (out : List SIPMessage)
      (hu : s.bob.handleResponse now msg = some (u, out)) :
    LegStep h cc p bobInvite s (.bobResponse now msg) { s with
      bob := u
      toBob := s.toBob ++ out
      received := s.received ++ if s.bob.Answers msg then [msg] else [] }
  | bobExpire (i : Nat) (ts : Timers UACTimer) (ht : s.bob.timers.expire i = some ts) :
    LegStep h cc p bobInvite s (.bobExpire i) { s with bob := { s.bob with timers := ts } }
  | bobCallback (i : Nat) (sendFails : Bool) (k : UACTimer) (ts : Timers UACTimer)
      (ht : s.bob.timers.take i = some (k, ts)) :
    LegStep h cc p bobInvite s (.bobCallback i sendFails) { s with
      bob := (UACTransaction.timerCallback sendFails { s.bob with timers := ts } k).1
      toBob := s.toBob ++ (UACTransaction.timerCallback sendFails { s.bob with timers := ts } k).2.1
      bobTasks := s.bobTasks ++
        (UACTransaction.timerCallback sendFails { s.bob with timers := ts } k).2.2 }
  | bobTask (now i : Nat) (sendFails : Bool) (t : UACTask) (ht : s.bobTasks[i]? = some t) :
    LegStep h cc p bobInvite s (.bobTask now i sendFails) { s with
      bob := (s.bob.runTask now sendFails t).1
      toBob := s.toBob ++ (s.bob.runTask now sendFails t).2.1
      bobTasks := s.bobTasks.eraseIdx i ++ (s.bob.runTask now sendFails t).2.2 }
  | cancel (now : Nat) (ev : MessageEvent) :
    LegStep h cc p bobInvite s (.cancel now ev) { s with
      alice := (s.alice.cancelRequest now ev true).tx
      sent := s.sent ++ (s.alice.cancelRequest now ev true).sent
      cancels := s.cancels ++
        if (s.alice.cancelRequest now ev true).callHandler then [⟨ev.msg, .checkCall⟩] else [] }
  | cancelStep (now i : Nat) (j : CancelJob) (o : Leg × Option CancelPoint)
      (hj : s.cancels[i]? = some j) (ho : s.cancelStep now j = some o) :
    LegStep h cc p bobInvite s (.cancelStep now i)
      { o.1 with cancels := resumeAt s.cancels i (o.2.map (CancelJob.mk j.req)) }
  | prackTimeout (ht : s.timeout = none) :
    LegStep h cc p bobInvite s .prackTimeout { s with prack := none, timeout := some .respond }
  | timeoutRespond (now : Nat) (hq : s.timeout = some .respond) :
    LegStep h cc p bobInvite s (.timeoutStep now)
      { s.respond now (newResponse cc.req 504 (ascii "PRACK Timeout")) with
        timeout := some .closeDone }
  | timeoutClose (now : Nat) (hq : s.timeout = some .closeDone) :
    LegStep h cc p bobInvite s (.timeoutStep now) { s with prackDone := true, timeout := none }
  | ack (now : Nat) :
    LegStep h cc p bobInvite s (.ack now) { s with alice := (s.alice.ackReceived now).tx }
  | retransmission :
    LegStep h cc p bobInvite s .retransmission { s with sent := s.sent ++ s.alice.retransmission }
  | aliceExpire (i : Nat) (ts : Timers ISTTimer) (ht : s.alice.timers.expire i = some ts) :
    LegStep h cc p bobInvite s (.aliceExpire i) { s with alice := { s.alice with timers := ts } }
  | aliceCallback (now i : Nat) (k : ISTTimer) (ts : Timers ISTTimer)
      (ht : s.alice.timers.take i = some (k, ts)) :
    LegStep h cc p bobInvite s (.aliceCallback now i) { s with
      alice := (InviteTransaction.timerCallback now { s.alice with timers := ts } k).tx
      sent := s.sent ++ (InviteTransaction.timerCallback now { s.alice with timers := ts } k).sent }

/-- The next task of `Send`: it fails, or the loop waits or goes on with `Send`. -/
theorem legStep_sendStep (h : Handler) (cc : CallCtx) (p : Peer) (bobInvite : SIPMessage) (s : Leg)
    (now : Nat) (sendFails : Bool) (task : UACTask) (hl : s.loop = .sending task) :
    LegStep h cc p bobInvite s (.send now sendFails) (s.sendStep cc p now sendFails task) := by
  have hlast : (p.onSendFailed cc).last = true := by
    cases p <;> rfl
  unfold Leg.sendStep
  simp only
  split
  · rename_i hfail
    rw [Bool.and_eq_true] at hfail
    rw [hlast, hfail.2]
    exact .sendFailed now task hl
  · split
    · exact .sent now sendFails task .select hl (Or.inl rfl)
    · rename_i t _ hnext
      exact .sent now sendFails task (.sending t) hl
        (Or.inr ⟨t, by rw [hnext]; exact List.mem_cons_self, rfl⟩)

/-- Every step is one of these. -/
theorem legStep_cases (h : Handler) (cc : CallCtx) (p : Peer) (bobInvite : SIPMessage) (s t : Leg)
    (e : LegEvent) (hstep : legStep h cc p bobInvite s e = some t) :
    LegStep h cc p bobInvite s e t := by
  cases e with
  | start =>
    simp only [legStep] at hstep
    split at hstep
    · cases hstep
      exact .start ‹_›
    · cases hstep
  | send now sendFails =>
    simp only [legStep] at hstep
    split at hstep
    · cases hstep
      exact legStep_sendStep h cc p bobInvite s now sendFails _ ‹_›
    · cases hstep
  | takePrackDone =>
    simp only [legStep] at hstep
    split at hstep
    · cases hstep
      exact .takePrackDone ‹_› ‹_›
    · cases hstep
  | takeDone =>
    simp only [legStep] at hstep
    split at hstep
    · cases hstep
      exact .takeDone ‹_› ‹_›
    · cases hstep
  | takeResponse env =>
    simp only [legStep] at hstep
    split at hstep
    · cases hstep
      exact .takeResponse env _ _ ‹_› ‹_›
    · cases hstep
  | takeError =>
    simp only [legStep] at hstep
    split at hstep
    · cases hstep
      exact .takeError _ _ ‹_› ‹_›
    · cases hstep
  | act now env =>
    simp only [legStep] at hstep
    split at hstep
    · cases hstep
      exact .finish now env _ ‹_›
    · rcases map_eq_some_iff.mp hstep with ⟨o, ho, rfl⟩
      exact .act now env _ _ _ o ‹_› ho
    · cases hstep
  | bobResponse now msg =>
    rcases map_eq_some_iff.mp hstep with ⟨o, ho, rfl⟩
    exact .bobResponse now msg o.1 o.2 ho
  | bobExpire i =>
    rcases map_eq_some_iff.mp hstep with ⟨ts, hts, rfl⟩
    exact .bobExpire i ts hts
  | bobCallback i sendFails =>
    rcases map_eq_some_iff.mp hstep with ⟨q, hq, rfl⟩
    exact .bobCallback i sendFails q.1 q.2 hq
  | bobTask now i sendFails =>
    rcases map_eq_some_iff.mp hstep with ⟨x, hx, rfl⟩
    exact .bobTask now i sendFails x hx
  | cancel now ev =>
    cases hstep
    exact .cancel now ev
  | cancelStep now i =>
    rcases bind_eq_some_iff.mp hstep with ⟨j, hj, hx⟩
    rcases map_eq_some_iff.mp hx with ⟨o, ho, rfl⟩
    exact .cancelStep now i j o hj ho
  | prackTimeout =>
    simp only [legStep] at hstep
    split at hstep
    · rename_i hc
      cases hstep
      exact .prackTimeout hc.2
    · cases hstep
  | timeoutStep now =>
    rcases bind_eq_some_iff.mp hstep with ⟨q, hq, hx⟩
    cases q with
    | respond =>
      cases hx
      exact .timeoutRespond now hq
    | closeDone =>
      simp only [Leg.timeoutStep] at hx
      split at hx
      · cases hx
      · cases hx
        exact .timeoutClose now hq
  | ack now =>
    cases hstep
    exact .ack now
  | retransmission =>
    cases hstep
    exact .retransmission
  | aliceExpire i =>
    rcases map_eq_some_iff.mp hstep with ⟨ts, hts, rfl⟩
    exact .aliceExpire i ts hts
  | aliceCallback now i =>
    rcases map_eq_some_iff.mp hstep with ⟨q, hq, rfl⟩
    exact .aliceCallback now i q.1 q.2 hq

omit [SdpCodec] [UnicodeLower]

/-- The loop has returned, or it waits and none of what it waits for is there. -/
def Leg.atRest (s : Leg) : Bool :=
  match s.loop with
  | .ended => true
  | .select => s.bob.responses.isEmpty && s.bob.errors.isEmpty && !s.canceled && !s.prackDone
  | _ => false

/-- Nothing is left to do. -/
def Leg.Quiescent (s : Leg) : Prop :=
  s.cancels = [] ∧ s.timeout = none ∧ s.bobTasks = [] ∧ s.atRest = true

instance (s : Leg) : Decidable s.Quiescent := inferInstanceAs (Decidable (_ ∧ _ ∧ _ ∧ _))

end B2bua

end Trecs
