import Trecs.Lib.Hex
import Trecs.Sip.Transaction

/-!
# Client Transactions

The client transaction of `internal/sip/uac.go`, `UACTransaction` (RFC 3261
section 17.1), and what runs on it.

`Send` does not hold the lock of the transaction. It takes it six times for a
moment, to store the request, to reset and read the retransmission count and to
arm timers A and B, and the network send lies in between. A timer callback
likewise ends its locked section before it reports an error or schedules the
next retransmission. What is left to do after a locked section is a `UACTask`,
and the tasks of all goroutines wait side by side in `UACClient.tasks`, so each
may be overtaken by any other.

`HandleResponse` and `StopTimers` hold the lock throughout and are single
functions.

A response that makes the code dereference a request that has not been stored
is a run-time panic, `none`.

## Main definitions

* `UACTransaction`: The Go struct, with every timer it has made.
* `UACTransaction.handleResponse`: `HandleResponse`.
* `UACTransaction.timerCallback`: The locked sections of the timer callbacks.
* `UACTask`, `UACTransaction.runTask`: The rest of `Send`, of the callbacks and
  of `Cancel`.
* `UACClient`, `UACEvent`, `uacStep`: A transaction and what can happen to it.

## Theorems

* `UACTransaction.handleResponse_cases`: What a response does.
-/

namespace Trecs

open Option

namespace Sip

open Proto

/-- `StripBrackets`: the text between angle brackets at the front. -/
def stripBrackets (s : Bytes) : Bytes :=
  match s with
  | 60 :: rest =>
    match cut 62 rest with
    | some (inner, _) => inner
    | none => s
  | _ => s

/-- `TransportName`. -/
def Transport.name : Transport → Bytes
  | udp => ascii "UDP"
  | tcp => ascii "TCP"

/-- `GenerateBranch` with the random bytes it read, or `none` when reading them
    failed. -/
def generateBranch : Option Bytes → Bytes
  | none => ascii "z9hG4bKtrec00000000"
  | some b => ascii "z9hG4bK" ++ hexEncode b

/-- `GenerateTag`, likewise. -/
def generateTag : Option Bytes → Bytes
  | none => ascii "trec"
  | some b => hexEncode b

/-- The states of a client transaction. -/
inductive UACState where
  | Calling
  | Proceeding
  | Completed
  | Terminated
deriving Repr, DecidableEq

/-- The timers of a client transaction. -/
inductive UACTimer where
  | A
  | B
  | D
deriving Repr, DecidableEq

/-- The Go struct `UACTransaction`. The channels are the lists of what they
    hold, and `errors` has the method each `TimeoutError` names. -/
structure UACTransaction where
  transport : Transport
  target : Target
  branch : Bytes
  method : SIPMethod
  reliable : Bool
  t1Override : Int64
  request : Option SIPMessage
  state : UACState
  responses : List SIPMessage
  errors : List SIPMethod
  timerA : Option Nat
  timerB : Option Nat
  timerD : Option Nat
  retxCount : Nat
  stopped : Bool
  canceled : Bool
  timers : Timers UACTimer

/-- What is left to do after a locked section. The flag of the tasks for timer
    A says whether `Send` goes on to timer B afterwards. -/
inductive UACTask where
  | storeRequest (req : SIPMessage)
  | sendRequest (req : SIPMessage)
  | startTimerA
  | readIntervalA (inSend : Bool)
  | armTimerA (interval : Int64) (inSend : Bool)
  | readIntervalB
  | armTimerB (d : Int64)
  | putTimeout
  | deregister
  | terminate
  | cancelContext

namespace UACTransaction

/-- `newUACTransaction` with a generated branch. -/
def create (branch : Bytes) (method : SIPMethod) (transport : Transport) (target : Target) :
    UACTransaction where
  transport := transport
  target := target
  branch := branch
  method := method
  reliable := transport = .tcp
  t1Override := 0
  request := none
  state := .Calling
  responses := []
  errors := []
  timerA := none
  timerB := none
  timerD := none
  retxCount := 0
  stopped := false
  canceled := false
  timers := []

/-- The interval `t1Override` replaces in tests. -/
def t1 (u : UACTransaction) : Int64 := if u.t1Override = 0 then T1 else u.t1Override

/-- A send to `Responses` that gives up when the channel is full. -/
def offer (u : UACTransaction) (msg : SIPMessage) : UACTransaction :=
  if u.responses.length < 4 then { u with responses := u.responses ++ [msg] } else u

/-- Stopping timer A and forgetting it. -/
def stopTimerA (u : UACTransaction) : UACTransaction :=
  { u with timers := u.timers.stop? u.timerA, timerA := none }

/-- Stopping timer B and forgetting it. -/
def stopTimerB (u : UACTransaction) : UACTransaction :=
  { u with timers := u.timers.stop? u.timerB, timerB := none }

/-- Stopping timer D and forgetting it. -/
def stopTimerD (u : UACTransaction) : UACTransaction :=
  { u with timers := u.timers.stop? u.timerD, timerD := none }

/-- How long a completed transaction absorbs retransmissions, 32 s or no time
    over a reliable transport. -/
def timerDWait (u : UACTransaction) : Nat := if u.reliable then 0 else 32000000000

/-- `transitionToCompleted`. -/
def transitionToCompleted (now : Nat) (u : UACTransaction) : UACTransaction :=
  let u := stopTimerB (stopTimerA { u with state := .Completed })
  { u with
    timers := u.timers.afterFunc now u.timerDWait .D
    timerD := some u.timers.length }

/-- The ACK `sendACK` sends for the response `resp` to the request `req`. -/
def ackFor (u : UACTransaction) (req resp : SIPMessage) : SIPMessage :=
  let contact := SIPHeaders.getFirst resp.headers (ascii "Contact")
  let uri := if contact ≠ [] then stripBrackets contact else req.requestURI
  let ack := newRequest .ACK uri
  let h := SIPHeaders.add ack.headers hVia
    (ascii "SIP/2.0/" ++ u.transport.name ++ [SP] ++ req.viaSentBy ++ ascii ";branch=" ++ u.branch)
  let h := match req.headers.lookup hFrom with
    | some (v :: _) => SIPHeaders.add h hFrom v
    | _ => h
  let h := match req.headers.lookup hTo with
    | some (v :: _) => SIPHeaders.add h hTo v
    | _ => h
  let h := SIPHeaders.add h hCallID (SIPHeaders.getFirst req.headers hCallID)
  let h := SIPHeaders.add h (ascii "Max-Forwards") (ascii "70")
  let h := SIPHeaders.add h hContentLength (ascii "0")
  { ack with headers := h, cseq := { method := .ACK, seq := req.cseq.seq } }

/-- `sendACK`. The request is dereferenced without a check. -/
def sendACK (u : UACTransaction) (resp : SIPMessage) : Option SIPMessage :=
  u.request.map (fun req => u.ackFor req resp)

/-- Whether a final response still changes the state. -/
def waiting (u : UACTransaction) : Bool := u.state = .Calling || u.state = .Proceeding

/-- `HandleResponse`: the transaction afterwards and the messages sent. -/
def handleResponse (now : Nat) (u : UACTransaction) (msg : SIPMessage) :
    Option (UACTransaction × List SIPMessage) :=
  let sc := msg.statusCode
  if msg.cseq.method ≠ u.method then some (u, [])
  else if u.state = .Terminated then some (u, [])
  else if 100 ≤ sc ∧ sc < 200 then
    let u := if u.state = .Calling then stopTimerA { u with state := .Proceeding } else u
    some (u.offer msg, [])
  else if 200 ≤ sc ∧ sc < 300 then
    let u := if u.waiting then transitionToCompleted now u else u
    some (u.offer msg, [])
  else if 300 ≤ sc then
    if u.waiting then
      let u' := transitionToCompleted now u
      if u.method = .INVITE then (u'.sendACK msg).map (fun ack => (u'.offer msg, [ack]))
      else some (u'.offer msg, [])
    else some (u.offer msg, [])
  else some (u, [])

/-- The CANCEL for the request `req`, with the route it took. -/
def cancelFor (u : UACTransaction) (req : SIPMessage) : SIPMessage :=
  let cancel := newRequest .CANCEL req.requestURI
  let h := SIPHeaders.add cancel.headers hVia
    (ascii "SIP/2.0/" ++ u.transport.name ++ [SP] ++ req.viaSentBy ++ ascii ";branch=" ++ u.branch)
  let h := match req.headers.lookup hFrom with
    | some (v :: _) => SIPHeaders.add h hFrom v
    | _ => h
  let h := match req.headers.lookup hTo with
    | some (v :: _) => SIPHeaders.add h hTo v
    | _ => h
  let h := SIPHeaders.add h hCallID (SIPHeaders.getFirst req.headers hCallID)
  let h := SIPHeaders.add h (ascii "Max-Forwards") (ascii "70")
  let h := match req.headers.lookup (ascii "Route") with
    | some (v :: vs) => h.insert (ascii "Route") (v :: vs)
    | _ => h
  let h := SIPHeaders.add h hContentLength (ascii "0")
  { cancel with headers := h, cseq := { method := .CANCEL, seq := req.cseq.seq } }

/-- `SendCancel`: the CANCEL it sends, if a request is waiting for its answer. -/
def sendCancel (u : UACTransaction) : Option SIPMessage :=
  if u.waiting then u.request.map u.cancelFor else none

/-- `StopTimers`. -/
def stopTimers (u : UACTransaction) : UACTransaction :=
  stopTimerD (stopTimerB (stopTimerA { u with stopped := true }))

/-- The locked section of a timer callback: the transaction afterwards, the
    messages sent, and what the callback goes on to do. `sendFails` is the
    outcome of the network send of timer A. -/
def timerCallback (sendFails : Bool) (u : UACTransaction) :
    UACTimer → UACTransaction × List SIPMessage × List UACTask
  | .A =>
    if u.stopped ∨ u.state ≠ .Calling then (u, [], [])
    else if sendFails then (u, u.request.toList, [])
    else ({ u with retxCount := u.retxCount + 1 }, u.request.toList, [.readIntervalA false])
  | .B =>
    if u.stopped then (u, [], [])
    else (stopTimerA { u with state := .Terminated }, [], [.putTimeout])
  | .D =>
    if u.stopped then (u, [], [])
    else ({ u with state := .Terminated }, [], [.deregister])

/-- Carrying out a task: the transaction afterwards, the messages sent, and the
    task that follows. `sendFails` is the outcome of a network send. -/
def runTask (now : Nat) (sendFails : Bool) (u : UACTransaction) :
    UACTask → UACTransaction × List SIPMessage × List UACTask
  | .storeRequest req => ({ u with request := some req }, [], [.sendRequest req])
  | .sendRequest req =>
    (u, [req], if sendFails then [] else if u.reliable then [.readIntervalB] else [.startTimerA])
  | .startTimerA => ({ u with retxCount := 0 }, [], [.readIntervalA true])
  | .readIntervalA inSend =>
    let interval := shl u.t1 u.retxCount
    (u, [], [.armTimerA (if interval > T2 then T2 else interval) inSend])
  | .armTimerA interval inSend =>
    ({ u with
        timers := u.timers.afterFunc now (wait interval) .A
        timerA := some u.timers.length },
      [], if inSend then [.readIntervalB] else [])
  | .readIntervalB => (u, [], [.armTimerB (64 * u.t1)])
  | .armTimerB d =>
    ({ u with
        timers := u.timers.afterFunc now (wait d) .B
        timerB := some u.timers.length },
      [], [])
  | .putTimeout =>
    (if u.errors.length < 1 then { u with errors := u.errors ++ [u.method] } else u, [],
      [.deregister])
  | .deregister => (u, [], [])
  | .terminate => ({ u with state := .Terminated }, [], [.cancelContext])
  | .cancelContext => ({ u with canceled := true }, [], [.deregister])

end UACTransaction

/-! ### Everything that can happen to a client transaction -/

/-- What an observer of the timeout logic sees, in order. -/
inductive UACObs where
  | received (msg : SIPMessage)
  | terminatedByB
  | timeout

/-- A client transaction, the tasks of its goroutines, what it sent and what
    was observed. -/
structure UACClient where
  tx : UACTransaction
  tasks : List UACTask
  sent : List SIPMessage
  trace : List UACObs

/-- The transaction with its one call of `Send` about to start. -/
def UACClient.start (tx : UACTransaction) (req : SIPMessage) : UACClient :=
  ⟨tx, [.storeRequest req], [], []⟩

/-- What can happen to a client transaction. -/
inductive UACEvent where
  | task (now i : Nat) (sendFails : Bool)
  | response (now : Nat) (msg : SIPMessage)
  | expire (i : Nat)
  | callback (i : Nat) (sendFails : Bool)
  | stopTimers
  | cancel
  | receiveResponse
  | receiveError

/-- Whether a message is a response to the request of the transaction. -/
def UACTransaction.Answers (u : UACTransaction) (msg : SIPMessage) : Prop :=
  msg.cseq.method = u.method ∧ 100 ≤ msg.statusCode

instance (u : UACTransaction) (msg : SIPMessage) : Decidable (u.Answers msg) :=
  inferInstanceAs (Decidable (msg.cseq.method = u.method ∧ 100 ≤ msg.statusCode))

namespace UACTransaction

/-- What `HandleResponse` does with a message that answers the request. -/
theorem handleResponse_cases (now : Nat) (u u' : UACTransaction) (msg : SIPMessage)
    (out : List SIPMessage) (h : u.handleResponse now msg = some (u', out))
    (ha : u.Answers msg) :
    (u.state = .Terminated ∧ u' = u) ∨
    (msg.statusCode < 200 ∧
      u' = (if u.state = .Calling then stopTimerA { u with state := .Proceeding } else u).offer
        msg) ∨
    (200 ≤ msg.statusCode ∧ u.waiting = true ∧ u' = (u.transitionToCompleted now).offer msg) ∨
    (200 ≤ msg.statusCode ∧ u.waiting = false ∧ u' = u.offer msg) := by
  rcases ha with ⟨hm, hsc⟩
  unfold handleResponse at h
  simp only [hm, ne_eq, not_true_eq_false, if_false] at h
  by_cases ht : u.state = .Terminated
  · rw [if_pos ht] at h
    left
    exact ⟨ht, (congrArg Prod.fst (some.inj h)).symm⟩
  rw [if_neg ht] at h
  by_cases h1 : msg.statusCode < 200
  · rw [if_pos ⟨hsc, h1⟩] at h
    right; left
    exact ⟨h1, (congrArg Prod.fst (some.inj h)).symm⟩
  rw [if_neg (fun hx => h1 hx.2)] at h
  have h2 : 200 ≤ msg.statusCode := by omega
  right; right
  cases hw : u.waiting with
  | true =>
    left
    refine ⟨h2, rfl, ?_⟩
    simp only [hw, if_true] at h
    split at h
    · exact (congrArg Prod.fst (some.inj h)).symm
    · rename_i h3
      rw [if_pos (by omega)] at h
      split at h
      · rcases map_eq_some_iff.mp h with ⟨_, _, hx⟩
        exact (congrArg Prod.fst hx).symm
      · exact (congrArg Prod.fst (some.inj h)).symm
  | false =>
    right
    refine ⟨h2, rfl, ?_⟩
    simp only [hw, Bool.false_eq_true, if_false] at h
    split at h
    · exact (congrArg Prod.fst (some.inj h)).symm
    · rw [if_pos (by omega)] at h
      exact (congrArg Prod.fst (some.inj h)).symm

/-- Any other message is ignored. -/
theorem handleResponse_of_not_answers (now : Nat) (u : UACTransaction) (msg : SIPMessage)
    (ha : ¬ u.Answers msg) : u.handleResponse now msg = some (u, []) := by
  unfold handleResponse
  by_cases hm : msg.cseq.method = u.method
  · have hsc : ¬ 100 ≤ msg.statusCode := fun hsc => ha ⟨hm, hsc⟩
    simp only [hm, ne_eq, not_true_eq_false, if_false]
    by_cases ht : u.state = .Terminated
    · rw [if_pos ht]
    · rw [if_neg ht, if_neg (by omega), if_neg (by omega), if_neg (by omega)]
  · simp [hm]

end UACTransaction

/-- What the locked section of a callback shows: timer B ends the transaction
    unless it was stopped for good. -/
def UACTransaction.observeCallback (u : UACTransaction) (k : UACTimer) : List UACObs :=
  if k = .B ∧ u.stopped = false then [.terminatedByB] else []

/-- What a task shows. -/
def UACTask.observe : UACTask → List UACObs
  | .putTimeout => [.timeout]
  | _ => []

/-- The effect of an event. -/
def uacStep (s : UACClient) : UACEvent → Option UACClient
  | .task now i sendFails =>
    s.tasks[i]?.map (fun t =>
    let o := s.tx.runTask now sendFails t
    ⟨o.1, s.tasks.eraseIdx i ++ o.2.2, s.sent ++ o.2.1, s.trace ++ t.observe⟩)
  | .response now msg =>
    (s.tx.handleResponse now msg).map (fun o =>
    ⟨o.1, s.tasks, s.sent ++ o.2,
      s.trace ++ if s.tx.Answers msg then [.received msg] else []⟩)
  | .expire i =>
    (s.tx.timers.expire i).map (fun ts => { s with tx := { s.tx with timers := ts } })
  | .callback i sendFails =>
    (s.tx.timers.take i).map (fun p =>
    let o := UACTransaction.timerCallback sendFails { s.tx with timers := p.2 } p.1
    ⟨o.1, s.tasks ++ o.2.2, s.sent ++ o.2.1, s.trace ++ s.tx.observeCallback p.1⟩)
  | .stopTimers => some { s with tx := s.tx.stopTimers }
  | .cancel => some { s with tx := s.tx.stopTimers, tasks := s.tasks ++ [.terminate] }
  | .receiveResponse =>
    match s.tx.responses with
    | [] => none
    | _ :: rest => some { s with tx := { s.tx with responses := rest } }
  | .receiveError =>
    match s.tx.errors with
    | [] => none
    | _ :: rest => some { s with tx := { s.tx with errors := rest } }

end Sip

end Trecs
