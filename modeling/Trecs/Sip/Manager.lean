import Mathlib.Data.List.AList
import Trecs.Lib.Run
import Trecs.Lib.Unicode
import Trecs.Sip.Transaction

/-!
# The Transaction Manager

`TransactionManager` of `internal/sip/transaction.go` under the two dispatch
goroutines of `internal/sip/server.go`, with the transactions it has created,
the application's responses and the timers.

A transaction is a pointer shared by the table, the goroutines, the timer
callbacks and the application, so it stays in `Manager.heap` for ever and is
named by its position. The table `serverTxs` maps a branch to such a position.

`HandleRequest` looks the branch up and stores a new transaction in two critical
sections of `tm.mu`, and works on a transaction under that transaction's own
lock, so between any two of these another goroutine may run. `Worker` is where a
dispatch goroutine stands between them, and an event moves one goroutine by one
critical section. The handler is called by the dispatch goroutine itself, which
takes no message before the handler returns. What the handler, or a goroutine it
started, passes to `Respond` is an event of its own and may happen at any time.

A timer callback of the transaction ends with the deletion of the table entry in
a critical section of its own, after it has released the lock of the
transaction. These deletions wait in `deletes`. The deletion in `Respond` and in
`ackReceived` happens under the lock of the transaction.

`now` is the time, and a timer expires only when it is due. `log` records, with
the time, what the manager did.

`Stop` is left out: nothing may use the manager after it.

## Main definitions

* `ServerTx`: A transaction of either kind.
* `Worker`: Where a dispatch goroutine stands.
* `Manager`: The manager with everything around it.
* `ManagerEvent`, `managerStep`: What can happen.
* `ManagerMove`: What a step can do.

## Theorems

* `managerStep_cases`: Every step is one of these.
-/

namespace Trecs

open Option

namespace Sip

open Proto

/-- A server transaction of either kind. -/
inductive ServerTx where
  | invite (tx : InviteTransaction)
  | nonInvite (tx : NonInviteTransaction)

namespace ServerTx

/-- The branch a transaction is stored under. -/
def branch : ServerTx → Bytes
  | invite tx => tx.branch
  | nonInvite tx => tx.branch

/-- `Respond`. -/
def respond (now : Nat) (tx : ServerTx) (res : SIPMessage) : Outcome ServerTx :=
  match tx with
  | invite tx =>
    let o := tx.respond now res
    ⟨invite o.tx, o.sent, o.delete⟩
  | nonInvite tx =>
    let o := tx.respond now res
    ⟨nonInvite o.tx, o.sent, o.delete⟩

/-- `handleRetransmission`. -/
def retransmission : ServerTx → List SIPMessage
  | invite tx => tx.retransmission
  | nonInvite tx => tx.retransmission

/-- Timer `j` expires, provided it is due. -/
def expire (now : Nat) (tx : ServerTx) (j : Nat) : Option ServerTx :=
  match tx with
  | invite tx =>
    if tx.timers[j]?.any (fun t => t.due ≤ now) then
      (tx.timers.expire j).map (fun ts => invite { tx with timers := ts })
    else none
  | nonInvite tx =>
    if tx.timers[j]?.any (fun t => t.due ≤ now) then
      (tx.timers.expire j).map (fun ts => nonInvite { tx with timers := ts })
    else none

/-- The locked section of the callback of timer `j`. -/
def callback (now : Nat) (tx : ServerTx) (j : Nat) : Option (Outcome ServerTx) :=
  match tx with
  | invite tx =>
    (tx.timers.take j).map (fun p =>
    let o := InviteTransaction.timerCallback now { tx with timers := p.2 } p.1
    ⟨invite o.tx, o.sent, o.delete⟩)
  | nonInvite tx =>
    (tx.timers.take j).map (fun p =>
    let o := NonInviteTransaction.timerCallback { tx with timers := p.2 }
    ⟨nonInvite o.tx, o.sent, o.delete⟩)

/-- `HandleACK` on the transaction it found. -/
def ack (now : Nat) (tx : ServerTx) : Outcome ServerTx :=
  match tx with
  | invite tx =>
    let o := tx.ackReceived now
    ⟨invite o.tx, o.sent, o.delete⟩
  | nonInvite tx => ⟨nonInvite tx, [], false⟩

/-- Whether an ACK acknowledges a final response of the transaction. -/
def acknowledges : ServerTx → Bool
  | invite tx => tx.state = .Completed
  | nonInvite _ => false

/-- The transaction `HandleRequest` creates. -/
def create (branch : Bytes) (ev : MessageEvent) (transport : Transport) : ServerTx :=
  if ev.msg.method = .INVITE then
    invite (.create branch ev.target transport ev.msg.isReliableTransport)
  else
    nonInvite (.create branch ev.msg.method ev.target transport ev.msg.isReliableTransport)

end ServerTx

namespace ServerTx

/-- Whether the transaction is one for an INVITE, with what it keeps for ever. -/
def ident : ServerTx → Bool × Bytes × Bool
  | invite tx => (true, tx.ident)
  | nonInvite tx => (false, tx.ident)

variable (now : Nat) (tx : ServerTx)

theorem branch_eq_ident : tx.branch = tx.ident.2.1 := by
  cases tx <;> rfl

@[simp] theorem respond_ident (res : SIPMessage) :
    (tx.respond now res).tx.ident = tx.ident := by
  cases tx with
  | invite tx => simp only [respond, ident, InviteTransaction.respond_ident]
  | nonInvite tx => simp only [respond, ident, NonInviteTransaction.respond_ident]

@[simp] theorem ack_ident : (tx.ack now).tx.ident = tx.ident := by
  cases tx with
  | invite tx => simp only [ack, ident, InviteTransaction.ackReceived_ident]
  | nonInvite tx => rfl

theorem expire_ident (tx tx' : ServerTx) (j : Nat) (h : tx.expire now j = some tx') :
    tx'.ident = tx.ident := by
  cases tx with
  | invite tx | nonInvite tx =>
    simp only [expire] at h
    split at h
    · rcases map_eq_some_iff.mp h with ⟨ts, _, rfl⟩
      rfl
    · contradiction

theorem callback_ident (j : Nat) (o : Outcome ServerTx)
    (h : tx.callback now j = some o) : o.tx.ident = tx.ident := by
  cases tx with
  | invite tx =>
    rcases map_eq_some_iff.mp h with ⟨p, _, rfl⟩
    simp only [ident, InviteTransaction.timerCallback_ident]
    rfl
  | nonInvite tx =>
    rcases map_eq_some_iff.mp h with ⟨p, _, rfl⟩
    simp only [ident, NonInviteTransaction.timerCallback_ident]
    rfl

@[simp] theorem create_ident (branch : Bytes) (ev : MessageEvent) (w : Transport) :
    (create branch ev w).ident =
      (decide (ev.msg.method = .INVITE), branch, ev.msg.isReliableTransport) := by
  unfold create
  split
  · rename_i h
    simp only [h, decide_true]
    rfl
  · rename_i h
    simp only [h, decide_false]
    rfl

end ServerTx

/-- A transaction with the request it was created for. -/
structure Entry where
  request : SIPMessage
  tx : ServerTx

/-- Where a dispatch goroutine stands: waiting for a message; after a lookup
    that found transaction `i` or found none; after storing the new transaction
    `i`; after answering a CANCEL for `i`; after the lookup for an ACK; or
    inside the handler. -/
inductive Worker where
  | idle
  | found (ev : MessageEvent) (i : Nat) (hasHandler : Bool)
  | missed (ev : MessageEvent) (hasHandler : Bool)
  | inserted (ev : MessageEvent) (i : Nat) (hasHandler : Bool)
  | cancelled (ev : MessageEvent) (i : Nat)
  | acking (i : Nat)
  | handling

/-- What the manager does: a transaction hands a message to its transport, a
    message is answered without a transaction, an ACK confirms a transaction,
    a request is absorbed, or the handler is called. -/
inductive ManagerObs where
  | sent (i : Nat) (msg : SIPMessage)
  | replied (msg : SIPMessage)
  | acknowledged (i : Nat)
  | absorbed (msg : SIPMessage) (i : Nat)
  | invoked (msg : SIPMessage) (i : Nat)

/-- The manager, every transaction it created, its dispatch goroutines, the
    deletions timer callbacks have yet to make, and the log. -/
structure Manager where
  now : Nat
  heap : List Entry
  serverTxs : AList (fun _ : Bytes => Nat)
  worker : Transport → Worker
  deletes : List (Bytes × Nat)
  log : List (Nat × ManagerObs)

namespace Manager

/-- The manager of a server that has just been started. -/
def init : Manager where
  now := 0
  heap := []
  serverTxs := ∅
  worker := fun _ => .idle
  deletes := []
  log := []

/-- A dispatch goroutine moves on. -/
def setWorker (s : Manager) (w : Transport) (x : Worker) : Manager :=
  { s with worker := fun v => if v = w then x else s.worker v }

/-- Recording what the manager did. -/
def observe (s : Manager) (os : List ManagerObs) : Manager :=
  { s with log := s.log ++ os.map (fun o => (s.now, o)) }

/-- Transaction `i` changes. -/
def setTx (s : Manager) (i : Nat) (tx : ServerTx) : Manager :=
  { s with heap := s.heap.modify i (fun c => { c with tx := tx }) }

/-- Deleting the entry of a branch. -/
def deleteTx (s : Manager) (branch : Bytes) : Manager :=
  { s with serverTxs := s.serverTxs.erase branch }

/-- The effect of a locked section of transaction `i` whose deletion happens
    under the same lock. -/
def commit (s : Manager) (i : Nat) (o : Outcome ServerTx) : Manager :=
  let s := (s.setTx i o.tx).observe (o.sent.map (ManagerObs.sent i))
  if o.delete then s.deleteTx o.tx.branch else s

/-- The effect of a locked section of transaction `i` whose deletion is made
    later. -/
def commitLater (s : Manager) (i : Nat) (o : Outcome ServerTx) : Manager :=
  let s := (s.setTx i o.tx).observe (o.sent.map (ManagerObs.sent i))
  if o.delete then { s with deletes := s.deletes ++ [(o.tx.branch, i)] } else s

/-- The first critical section of `HandleRequest`. A Via that makes the branch
    parser panic ends the program. -/
def lookup [UnicodeLower] (s : Manager) (w : Transport) (ev : MessageEvent) (hasHandler : Bool) :
    Option Manager :=
  match ev.msg.viaBranch with
  | none => none
  | some [] => some s
  | some branch =>
    match s.serverTxs.lookup branch with
    | some i => some (s.setWorker w (.found ev i hasHandler))
    | none =>
      if ev.msg.method = .CANCEL then
        some (s.observe [.replied
          (newResponse ev.msg 481 (ascii "Call Leg/Transaction Does Not Exist"))])
      else some (s.setWorker w (.missed ev hasHandler))

/-- The first critical section of `HandleACK`. -/
def lookupACK [UnicodeLower] (s : Manager) (w : Transport) (ev : MessageEvent) : Option Manager :=
  match ev.msg.viaBranch with
  | none => none
  | some [] => some s
  | some branch =>
    match s.serverTxs.lookup branch with
    | some i => some (s.setWorker w (.acking i))
    | none => some s

/-- `handleCancelRequest` on the transaction the lookup found. -/
def cancel (s : Manager) (w : Transport) (ev : MessageEvent) (i : Nat) (hasHandler : Bool) :
    ServerTx → Manager
  | .invite tx =>
    let o := tx.cancelRequest s.now ev hasHandler
    let s := (s.setTx i (.invite o.tx)).observe
      (o.replies.map ManagerObs.replied ++ o.sent.map (ManagerObs.sent i))
    s.setWorker w (if o.callHandler then .cancelled ev i else .idle)
  | .nonInvite _ =>
    (s.observe [.replied
      (newResponse ev.msg 481 (ascii "Call Leg/Transaction Does Not Exist"))]).setWorker w .idle

/-- Storing a new transaction. -/
def insert [UnicodeLower] (s : Manager) (w : Transport) (ev : MessageEvent) (hasHandler : Bool) :
    Option Manager :=
  ev.msg.viaBranch.map (fun branch =>
    { s.setWorker w (.inserted ev s.heap.length hasHandler) with
      heap := s.heap ++ [⟨ev.msg, ServerTx.create branch ev w⟩]
      serverTxs := s.serverTxs.insert branch s.heap.length })

/-- Calling the handler for transaction `i`, if there is one. -/
def callHandler (s : Manager) (w : Transport) (msg : SIPMessage) (i : Nat) (hasHandler : Bool) :
    Manager :=
  if hasHandler then (s.observe [.invoked msg i]).setWorker w .handling else s.setWorker w .idle

/-- A dispatch goroutine runs its next critical section. -/
def proceed [UnicodeLower] (s : Manager) (w : Transport) : Option Manager :=
  match s.worker w with
  | .idle => none
  | .found ev i hasHandler =>
    s.heap[i]?.map (fun c =>
    if ev.msg.method = .CANCEL then s.cancel w ev i hasHandler c.tx
    else
      (s.observe (.absorbed ev.msg i :: c.tx.retransmission.map (ManagerObs.sent i))).setWorker
        w .idle)
  | .missed ev hasHandler => s.insert w ev hasHandler
  | .inserted ev i hasHandler => some (s.callHandler w ev.msg i hasHandler)
  | .cancelled ev i => some (s.callHandler w ev.msg i true)
  | .acking i =>
    s.heap[i]?.map (fun c =>
    ((s.commit i (c.tx.ack s.now)).observe
      (if c.tx.acknowledges then [.acknowledged i] else [])).setWorker w .idle)
  | .handling => some (s.setWorker w .idle)

end Manager

/-- What can happen to the manager: time passes; a dispatch goroutine takes a
    request, with or without a handler for it, or an ACK; a dispatch goroutine
    moves on; the application responds; a timer expires; a timer callback runs;
    a timer callback deletes its entry. -/
inductive ManagerEvent where
  | tick (d : Nat)
  | request (w : Transport) (ev : MessageEvent) (hasHandler : Bool)
  | ack (w : Transport) (ev : MessageEvent)
  | proceed (w : Transport)
  | respond (i : Nat) (res : SIPMessage)
  | expire (i j : Nat)
  | callback (i j : Nat)
  | delete (k : Nat)

/-- The effect of an event. -/
def managerStep [UnicodeLower] (s : Manager) : ManagerEvent → Option Manager
  | .tick d => some { s with now := s.now + d }
  | .request w ev hasHandler =>
    match s.worker w with
    | .idle => s.lookup w ev hasHandler
    | _ => none
  | .ack w ev =>
    match s.worker w with
    | .idle => s.lookupACK w ev
    | _ => none
  | .proceed w => s.proceed w
  | .respond i res => s.heap[i]?.map (fun c => s.commit i (c.tx.respond s.now res))
  | .expire i j => s.heap[i]?.bind (fun c => (c.tx.expire s.now j).map (s.setTx i))
  | .callback i j => s.heap[i]?.bind (fun c => (c.tx.callback s.now j).map (s.commitLater i))
  | .delete k =>
    s.deletes[k]?.map (fun p => { s.deleteTx p.1 with deletes := s.deletes.eraseIdx k })

/-- Everything an event can do, with what it needs. -/
inductive ManagerMove [UnicodeLower] (s : Manager) : ManagerEvent → Manager → Prop
  | tick (d : Nat) : ManagerMove s (.tick d) { s with now := s.now + d }
  | ignored {w ev hasHandler} (hb : ev.msg.viaBranch = some []) :
    ManagerMove s (.request w ev hasHandler) s
  | found {w ev hasHandler b i} (hw : s.worker w = .idle) (hb : ev.msg.viaBranch = some b)
      (hlook : s.serverTxs.lookup b = some i) :
    ManagerMove s (.request w ev hasHandler) (s.setWorker w (.found ev i hasHandler))
  | refused {w ev hasHandler} (hm : ev.msg.method = .CANCEL) :
    ManagerMove s (.request w ev hasHandler)
      (s.observe [.replied (newResponse ev.msg 481 (ascii "Call Leg/Transaction Does Not Exist"))])
  | missed {w ev hasHandler b} (hw : s.worker w = .idle) (hb : ev.msg.viaBranch = some b)
      (hnone : s.serverTxs.lookup b = none) (hm : ev.msg.method ≠ .CANCEL) :
    ManagerMove s (.request w ev hasHandler) (s.setWorker w (.missed ev hasHandler))
  | passed {w ev} : ManagerMove s (.ack w ev) s
  | acking {w ev b i} (hw : s.worker w = .idle) (hlook : s.serverTxs.lookup b = some i) :
    ManagerMove s (.ack w ev) (s.setWorker w (.acking i))
  | cancel {w ev i hasHandler c} (hw : s.worker w = .found ev i hasHandler)
      (hc : s.heap[i]? = some c) (hm : ev.msg.method = .CANCEL) :
    ManagerMove s (.proceed w) (s.cancel w ev i hasHandler c.tx)
  | absorb {w ev i hasHandler c} (hw : s.worker w = .found ev i hasHandler)
      (hc : s.heap[i]? = some c) :
    ManagerMove s (.proceed w)
      ((s.observe (.absorbed ev.msg i :: c.tx.retransmission.map (ManagerObs.sent i))).setWorker
        w .idle)
  | insert {w ev hasHandler b} (hw : s.worker w = .missed ev hasHandler)
      (hb : ev.msg.viaBranch = some b) :
    ManagerMove s (.proceed w)
      { s.setWorker w (.inserted ev s.heap.length hasHandler) with
        heap := s.heap ++ [⟨ev.msg, ServerTx.create b ev w⟩]
        serverTxs := s.serverTxs.insert b s.heap.length }
  | call {w ev i} (hw : s.worker w = .inserted ev i true ∨ s.worker w = .cancelled ev i) :
    ManagerMove s (.proceed w) ((s.observe [.invoked ev.msg i]).setWorker w .handling)
  | rest {w} (hw : (∃ ev i, s.worker w = .inserted ev i false) ∨ s.worker w = .handling) :
    ManagerMove s (.proceed w) (s.setWorker w .idle)
  | confirm {w i c} (hw : s.worker w = .acking i) (hc : s.heap[i]? = some c) :
    ManagerMove s (.proceed w)
      (((s.commit i (c.tx.ack s.now)).observe
        (if c.tx.acknowledges then [.acknowledged i] else [])).setWorker w .idle)
  | respond {i res c} (hc : s.heap[i]? = some c) :
    ManagerMove s (.respond i res) (s.commit i (c.tx.respond s.now res))
  | expire {i j c tx} (hc : s.heap[i]? = some c) (htx : c.tx.expire s.now j = some tx) :
    ManagerMove s (.expire i j) (s.setTx i tx)
  | callback {i j c o} (hc : s.heap[i]? = some c) (ho : c.tx.callback s.now j = some o) :
    ManagerMove s (.callback i j) (s.commitLater i o)
  | delete {k p} (hp : s.deletes[k]? = some p) :
    ManagerMove s (.delete k) { s.deleteTx p.1 with deletes := s.deletes.eraseIdx k }

section Moves

variable [UnicodeLower] {s t : Manager} {w : Transport}

theorem lookup_cases {ev : MessageEvent} {hasHandler : Bool} (hw : s.worker w = .idle)
    (ht : s.lookup w ev hasHandler = some t) : ManagerMove s (.request w ev hasHandler) t := by
  unfold Manager.lookup at ht
  split at ht
  · cases ht
  · cases ht
    exact .ignored ‹_›
  · split at ht
    · cases ht
      exact .found hw ‹_› ‹_›
    · split at ht
      · cases ht
        exact .refused ‹_›
      · cases ht
        exact .missed hw ‹_› ‹_› ‹_›

theorem lookupACK_cases {ev : MessageEvent} (hw : s.worker w = .idle)
    (ht : s.lookupACK w ev = some t) : ManagerMove s (.ack w ev) t := by
  unfold Manager.lookupACK at ht
  split at ht
  · cases ht
  · cases ht
    exact .passed
  · split at ht
    · cases ht
      exact .acking hw ‹_›
    · cases ht
      exact .passed

theorem proceed_cases (ht : s.proceed w = some t) : ManagerMove s (.proceed w) t := by
  unfold Manager.proceed at ht
  split at ht
  · cases ht
  · rcases map_eq_some_iff.mp ht with ⟨c, hc, rfl⟩
    split
    · exact .cancel ‹_› hc ‹_›
    · exact .absorb ‹_› hc
  · rcases map_eq_some_iff.mp ht with ⟨b, hb, rfl⟩
    exact .insert ‹_› hb
  · rename_i hasHandler hw
    cases ht
    cases hasHandler with
    | true => exact .call (.inl hw)
    | false => exact .rest (.inl ⟨_, _, hw⟩)
  · cases ht
    exact .call (.inr ‹_›)
  · rcases map_eq_some_iff.mp ht with ⟨c, hc, rfl⟩
    exact .confirm ‹_› hc
  · cases ht
    exact .rest (.inr ‹_›)

/-- Every step is one of these. -/
theorem managerStep_cases {e : ManagerEvent} (ht : managerStep s e = some t) :
    ManagerMove s e t := by
  cases e with
  | tick d =>
    cases ht
    exact .tick d
  | request w ev hasHandler =>
    simp only [managerStep] at ht
    split at ht
    · exact lookup_cases ‹_› ht
    · cases ht
  | ack w ev =>
    simp only [managerStep] at ht
    split at ht
    · exact lookupACK_cases ‹_› ht
    · cases ht
  | proceed w => exact proceed_cases ht
  | respond i res =>
    rcases map_eq_some_iff.mp ht with ⟨c, hc, rfl⟩
    exact .respond hc
  | expire i j =>
    rcases bind_eq_some_iff.mp ht with ⟨c, hc, hx⟩
    rcases map_eq_some_iff.mp hx with ⟨tx, htx, rfl⟩
    exact .expire hc htx
  | callback i j =>
    rcases bind_eq_some_iff.mp ht with ⟨c, hc, hx⟩
    rcases map_eq_some_iff.mp hx with ⟨o, ho, rfl⟩
    exact .callback hc ho
  | delete k =>
    rcases map_eq_some_iff.mp ht with ⟨p, hp, rfl⟩
    exact .delete hp

end Moves

end Sip

end Trecs
