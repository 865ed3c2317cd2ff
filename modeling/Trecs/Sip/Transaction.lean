import Trecs.Lib.Timer
import Trecs.Proto.Sip

/-!
# Server Transactions

The two server transaction state machines of `internal/sip/transaction.go`:
`InviteTransaction` (RFC 3261 section 17.2.1) and `NonInviteTransaction`
(section 17.2.2).

Each method holds the transaction's lock from its first line to its last, so
each is one function from the transaction to an `Outcome`: the transaction
afterwards, what it handed to its transport, and whether the manager's table
loses the entry of its branch. Logging is left out. A send error is only
logged, so handing a message to the transport is all there is to sending it.

Timers are made by the transaction and outlive its interest in them. The table
`timers` has every timer it ever made; `timerG`, `timerH` and `timerI` are the
Go variables, which name the latest of each kind and nothing older. The time of
a call is an argument, because `time.AfterFunc` counts from it.

## Main definitions

* `Transport`, `Target`, `MessageEvent`: Where a message comes from and goes to.
* `Outcome`: What a locked section of a transaction does.
* `InviteTransaction`, `NonInviteTransaction`: The Go structs and their methods.
* `InviteTransaction.cancelRequest`: `handleCancelRequest`.

## Theorems

* `InviteTransaction.respond_cases`: Everything `Respond` can do.
-/

namespace Trecs

namespace Sip

open Proto

/-- The transports of the server. -/
inductive Transport where
  | udp
  | tcp
deriving Repr, DecidableEq

/-- Where to send a message. -/
structure Target where
  addr : Option Bytes
  conn : Option Nat
  flowID : Bytes
deriving Repr, DecidableEq

/-- A message with its source. -/
structure MessageEvent where
  msg : SIPMessage
  target : Target
deriving DecidableEq

/-- The base retransmission interval, 500 ms in nanoseconds. -/
def T1 : Int64 := 500000000

/-- The longest retransmission interval, 4 s. -/
def T2 : Int64 := 4000000000

/-- How long a message stays in the network, 5 s. -/
def T4 : Int64 := 5000000000

/-- Go's `d << n` on a 64-bit duration. -/
def shl (d : Int64) (n : Nat) : Int64 := Int64.ofInt (d.toInt * 2 ^ n)

/-- How long `time.AfterFunc(d, f)` waits. -/
def wait (d : Int64) : Nat := d.toInt.toNat

/-- The retransmission interval after `n` retransmissions. -/
def retransmitInterval (n : Nat) : Int64 :=
  if shl T1 n > T2 then T2 else shl T1 n

/-- What a locked section of a transaction does: the transaction afterwards,
    the messages it handed to its transport, and whether the manager deletes
    the entry of its branch. -/
structure Outcome (τ : Type) where
  tx : τ
  sent : List SIPMessage
  delete : Bool

/-! ### INVITE server transactions -/

/-- The states of an INVITE server transaction. -/
inductive ISTState where
  | Trying
  | Proceeding
  | Completed
  | Confirmed
  | Terminated
deriving Repr, DecidableEq

/-- The timers of an INVITE server transaction. -/
inductive ISTTimer where
  | G
  | H
  | I
deriving Repr, DecidableEq

/-- The Go struct `InviteTransaction`, with every timer it has made. -/
structure InviteTransaction where
  transport : Transport
  target : Target
  branch : Bytes
  reliable : Bool
  state : ISTState
  lastResp : Option SIPMessage
  cancelOKResp : Option SIPMessage
  timerG : Option Nat
  timerH : Option Nat
  timerI : Option Nat
  gCount : Nat
  stopped : Bool
  timers : Timers ISTTimer

namespace InviteTransaction

/-- The transaction `HandleRequest` creates for an INVITE. -/
def create (branch : Bytes) (target : Target) (transport : Transport) (reliable : Bool) :
    InviteTransaction where
  transport := transport
  target := target
  branch := branch
  reliable := reliable
  state := .Trying
  lastResp := none
  cancelOKResp := none
  timerG := none
  timerH := none
  timerI := none
  gCount := 0
  stopped := false
  timers := []

/-- Whether the transaction still waits for a final response. -/
def pending (tx : InviteTransaction) : Bool :=
  tx.state = .Trying || tx.state = .Proceeding

/-- `stopTimers`. -/
def stopTimers (tx : InviteTransaction) : InviteTransaction :=
  { tx with timers := ((tx.timers.stop? tx.timerH).stop? tx.timerI).stop? tx.timerG }

/-- Arming timer H for `64*T1`. -/
def armTimerH (now : Nat) (tx : InviteTransaction) : InviteTransaction :=
  { tx with
    timers := tx.timers.afterFunc now (wait (64 * T1)) .H
    timerH := some tx.timers.length }

/-- Arming timer I for `T4`. -/
def armTimerI (now : Nat) (tx : InviteTransaction) : InviteTransaction :=
  { tx with
    timers := tx.timers.afterFunc now (wait T4) .I
    timerI := some tx.timers.length }

/-- `scheduleTimerG`. -/
def scheduleTimerG (now : Nat) (tx : InviteTransaction) : InviteTransaction :=
  { tx with
    timers := tx.timers.afterFunc now (wait (retransmitInterval tx.gCount)) .G
    timerG := some tx.timers.length }

/-- `startTimerG`, which an unreliable transport needs. -/
def startTimerG (now : Nat) (tx : InviteTransaction) : InviteTransaction :=
  if tx.reliable then tx else scheduleTimerG now { tx with gCount := 0 }

variable (now : Nat) (tx : InviteTransaction) (res : SIPMessage)

@[simp] theorem startTimerG_state : (startTimerG now tx).state = tx.state := by
  unfold startTimerG
  split <;> rfl

@[simp] theorem startTimerG_lastResp : (startTimerG now tx).lastResp = tx.lastResp := by
  unfold startTimerG
  split <;> rfl

/-- `Respond`. -/
def respond (now : Nat) (tx : InviteTransaction) (res : SIPMessage) :
    Outcome InviteTransaction :=
  let sc := res.statusCode
  if tx.state = .Terminated ∨ tx.state = .Confirmed then ⟨tx, [], false⟩
  else if 100 ≤ sc ∧ sc < 200 then
    if sc = 100 then
      if tx.pending then ⟨tx, [res], false⟩ else ⟨tx, [], false⟩
    else if tx.pending then ⟨{ tx with state := .Proceeding }, [res], false⟩
    else ⟨tx, [], false⟩
  else if 200 ≤ sc ∧ sc < 300 then ⟨{ tx with state := .Terminated }, [res], true⟩
  else if 300 ≤ sc then
    if tx.state ≠ .Completed then
      ⟨startTimerG now (armTimerH now { tx with lastResp := some res, state := .Completed }),
        [res], false⟩
    -- The response is kept for retransmission although it is not sent.
    else ⟨{ tx with lastResp := some res }, [], false⟩
  else ⟨tx, [], false⟩

theorem pending_iff : tx.pending = true ↔ tx.state = .Trying ∨ tx.state = .Proceeding := by
  unfold pending
  rw [Bool.or_eq_true, decide_eq_true_eq, decide_eq_true_eq]

/-- Everything `Respond` can do: nothing; forward a provisional response; end
    the transaction with a 2xx; complete it with another final response; or
    replace the stored response. -/
theorem respond_cases : (tx.respond now res = ⟨tx, [], false⟩) ∨
    (tx.pending = true ∧ res.statusCode < 200 ∧ tx.respond now res = ⟨tx, [res], false⟩) ∨
    (tx.pending = true ∧ res.statusCode < 200 ∧
      tx.respond now res = ⟨{ tx with state := .Proceeding }, [res], false⟩) ∨
    (tx.state ≠ .Terminated ∧ tx.state ≠ .Confirmed ∧
      200 ≤ res.statusCode ∧ res.statusCode < 300 ∧
      tx.respond now res = ⟨{ tx with state := .Terminated }, [res], true⟩) ∨
    (tx.pending = true ∧ 300 ≤ res.statusCode ∧
      tx.respond now res =
        ⟨startTimerG now (armTimerH now { tx with lastResp := some res, state := .Completed }),
          [res], false⟩) ∨
    (tx.state = .Completed ∧ 300 ≤ res.statusCode ∧
      tx.respond now res = ⟨{ tx with lastResp := some res }, [], false⟩) := by
  unfold respond
  simp only []
  by_cases hover : tx.state = .Terminated ∨ tx.state = .Confirmed
  · rw [if_pos hover]
    exact .inl rfl
  rw [if_neg hover]
  rw [not_or] at hover
  by_cases hprov : 100 ≤ res.statusCode ∧ res.statusCode < 200
  · rw [if_pos hprov]
    by_cases hpend : tx.pending = true
    · by_cases h100 : res.statusCode = 100
      · rw [if_pos h100, if_pos hpend]
        exact .inr (Or.inl ⟨hpend, hprov.2, rfl⟩)
      · rw [if_neg h100, if_pos hpend]
        exact .inr (Or.inr (Or.inl ⟨hpend, hprov.2, rfl⟩))
    · rw [if_neg hpend, if_neg hpend, ite_self]
      exact .inl rfl
  rw [if_neg hprov]
  by_cases h2xx : 200 ≤ res.statusCode ∧ res.statusCode < 300
  · rw [if_pos h2xx]
    exact .inr (Or.inr (Or.inr (Or.inl ⟨hover.1, hover.2, h2xx.1, h2xx.2, rfl⟩)))
  rw [if_neg h2xx]
  by_cases h300 : 300 ≤ res.statusCode
  · rw [if_pos h300]
    by_cases hcomp : tx.state = .Completed
    · rw [if_neg (not_not_intro hcomp)]
      exact .inr (Or.inr (Or.inr (Or.inr (Or.inr ⟨hcomp, h300, rfl⟩))))
    · rw [if_pos hcomp]
      have hpend : tx.pending = true := by
        rw [pending_iff]
        cases hst : tx.state with
        | Trying => exact .inl rfl
        | Proceeding => exact .inr rfl
        | Completed => exact absurd hst hcomp
        | Confirmed => exact absurd hst hover.2
        | Terminated => exact absurd hst hover.1
      exact .inr (Or.inr (Or.inr (Or.inr (Or.inl ⟨hpend, h300, rfl⟩))))
  · rw [if_neg h300]
    exact .inl rfl

/-- `ackReceived`. -/
def ackReceived (now : Nat) (tx : InviteTransaction) : Outcome InviteTransaction :=
  if tx.state ≠ .Completed then ⟨tx, [], false⟩
  else
    let tx := stopTimers { tx with state := .Confirmed }
    if tx.reliable then ⟨{ tx with state := .Terminated }, [], true⟩
    else ⟨armTimerI now tx, [], false⟩

/-- `handleRetransmission` on an INVITE transaction. -/
def retransmission (tx : InviteTransaction) : List SIPMessage :=
  if tx.state = .Completed then tx.lastResp.toList else []

/-- What `handleCancelRequest` does to an INVITE transaction: the transaction
    afterwards, the responses to the INVITE handed to the transaction's
    transport, the responses to the CANCEL handed to the transport it came
    from, and whether the handler is called next. -/
structure CancelOutcome where
  tx : InviteTransaction
  sent : List SIPMessage
  replies : List SIPMessage
  callHandler : Bool

/-- The 487 `handleCancelRequest` sends when there is no handler. -/
def requestTerminated (cancel : SIPMessage) : SIPMessage :=
  { newResponse cancel 487 (ascii "Request Terminated") with
    cseq := { method := .INVITE, seq := cancel.cseq.seq } }

/-- `handleCancelRequest` on an INVITE transaction. -/
def cancelRequest (now : Nat) (tx : InviteTransaction) (ev : MessageEvent) (hasHandler : Bool) :
    CancelOutcome :=
  if tx.pending then
    let okResp := newResponse ev.msg 200 (ascii "OK")
    let tx := { tx with cancelOKResp := some okResp }
    if hasHandler then ⟨tx, [], [okResp], true⟩
    else
      let inviteResp := requestTerminated ev.msg
      let tx := stopTimers { tx with lastResp := some inviteResp, state := .Completed }
      ⟨startTimerG now (armTimerH now tx), [inviteResp], [okResp], false⟩
  else
    match tx.cancelOKResp with
    | some okResp =>
      if tx.state = .Completed then ⟨tx, [], [okResp], false⟩
      else ⟨tx, [], [newResponse ev.msg 481 (ascii "Call Leg/Transaction Does Not Exist")], false⟩
    | none =>
      ⟨tx, [], [newResponse ev.msg 481 (ascii "Call Leg/Transaction Does Not Exist")], false⟩

/-- The locked section of a timer callback. For H and I the deletion from the
    manager's table follows after the lock has been released. -/
def timerCallback (now : Nat) (tx : InviteTransaction) : ISTTimer → Outcome InviteTransaction
  | .H =>
    if tx.stopped then ⟨tx, [], false⟩
    else ⟨stopTimers { tx with state := .Terminated }, [], true⟩
  | .I =>
    if tx.stopped then ⟨tx, [], false⟩
    else ⟨{ tx with state := .Terminated }, [], true⟩
  | .G =>
    if tx.stopped ∨ tx.state ≠ .Completed then ⟨tx, [], false⟩
    else ⟨scheduleTimerG now { tx with gCount := tx.gCount + 1 }, tx.lastResp.toList, false⟩

/-- The branch and the kind of transport, which nothing changes. -/
def ident (tx : InviteTransaction) : Bytes × Bool := (tx.branch, tx.reliable)

@[simp] theorem startTimerG_ident : (startTimerG now tx).ident = tx.ident := by
  unfold startTimerG
  split <;> rfl

@[simp] theorem respond_ident : (tx.respond now res).tx.ident = tx.ident := by
  rcases tx.respond_cases now res with
    h | ⟨_, _, h⟩ | ⟨_, _, h⟩ | ⟨_, _, _, _, h⟩ | ⟨_, _, h⟩ | ⟨_, _, h⟩
  · rw [h]
  · rw [h]
  · rw [h]
    rfl
  · rw [h]
    rfl
  · rw [h, startTimerG_ident]
    rfl
  · rw [h]
    rfl

@[simp] theorem ackReceived_ident : (tx.ackReceived now).tx.ident = tx.ident := by
  unfold ackReceived
  split
  · rfl
  · simp only []
    split <;> rfl

@[simp] theorem cancelRequest_ident (ev : MessageEvent) (hasHandler : Bool) :
    (tx.cancelRequest now ev hasHandler).tx.ident = tx.ident := by
  unfold cancelRequest
  split
  · simp only []
    split
    · rfl
    · rw [startTimerG_ident]
      rfl
  · split
    · split <;> rfl
    · rfl

@[simp] theorem timerCallback_ident (k : ISTTimer) :
    (tx.timerCallback now k).tx.ident = tx.ident := by
  cases k with
  | G | H | I =>
    simp only [timerCallback]
    split <;> rfl

/-- What `TransactionManager.Stop` does to an INVITE transaction. -/
def stop (tx : InviteTransaction) : InviteTransaction :=
  stopTimers { tx with stopped := true }

end InviteTransaction

/-! ### Other server transactions -/

/-- The states of a non-INVITE server transaction. -/
inductive NISTState where
  | Trying
  | Proceeding
  | Completed
  | Terminated
deriving Repr, DecidableEq

/-- The Go struct `NonInviteTransaction`, with every timer J it has made. -/
structure NonInviteTransaction where
  transport : Transport
  target : Target
  branch : Bytes
  method : SIPMethod
  reliable : Bool
  state : NISTState
  lastResp : Option SIPMessage
  timerJ : Option Nat
  stopped : Bool
  timers : Timers Unit

namespace NonInviteTransaction

/-- The transaction `HandleRequest` creates for a request other than INVITE. -/
def create (branch : Bytes) (method : SIPMethod) (target : Target) (transport : Transport)
    (reliable : Bool) : NonInviteTransaction where
  transport := transport
  target := target
  branch := branch
  method := method
  reliable := reliable
  state := .Trying
  lastResp := none
  timerJ := none
  stopped := false
  timers := []

/-- Arming timer J for `64*T1`, or for no time over a reliable transport. -/
def armTimerJ (now : Nat) (tx : NonInviteTransaction) : NonInviteTransaction :=
  { tx with
    timers := tx.timers.afterFunc now (if tx.reliable then 0 else wait (64 * T1)) ()
    timerJ := some tx.timers.length }

/-- `Respond`. -/
def respond (now : Nat) (tx : NonInviteTransaction) (res : SIPMessage) :
    Outcome NonInviteTransaction :=
  let sc := res.statusCode
  if tx.state = .Terminated then ⟨tx, [], false⟩
  else if 100 ≤ sc ∧ sc < 200 then
    if tx.state = .Trying then ⟨{ tx with state := .Proceeding }, [res], false⟩
    else ⟨tx, [res], false⟩
  else if 200 ≤ sc then
    ⟨armTimerJ now { tx with lastResp := some res, state := .Completed }, [res], false⟩
  else ⟨tx, [], false⟩

/-- `handleRetransmission` on a non-INVITE transaction. -/
def retransmission (tx : NonInviteTransaction) : List SIPMessage :=
  if tx.state = .Completed then tx.lastResp.toList else []

/-- The locked section of timer J's callback. -/
def timerCallback (tx : NonInviteTransaction) : Outcome NonInviteTransaction :=
  if tx.stopped then ⟨tx, [], false⟩
  else ⟨{ tx with state := .Terminated }, [], true⟩

/-- The branch and the kind of transport, which nothing changes. -/
def ident (tx : NonInviteTransaction) : Bytes × Bool := (tx.branch, tx.reliable)

@[simp] theorem respond_ident (now : Nat) (tx : NonInviteTransaction) (res : SIPMessage) :
    (tx.respond now res).tx.ident = tx.ident := by
  unfold respond
  simp only []
  split
  · rfl
  · split
    · split <;> rfl
    · split <;> rfl

@[simp] theorem timerCallback_ident (tx : NonInviteTransaction) :
    tx.timerCallback.tx.ident = tx.ident := by
  unfold timerCallback
  split <;> rfl

/-- What `TransactionManager.Stop` does to a non-INVITE transaction. -/
def stop (tx : NonInviteTransaction) : NonInviteTransaction :=
  { tx with stopped := true, timers := tx.timers.stop? tx.timerJ, timerJ := none }

end NonInviteTransaction

end Sip

end Trecs
