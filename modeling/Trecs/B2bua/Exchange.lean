import Trecs.B2bua.Leg

/-!
# Many Trunk Calls at Once

All the calls over trunks together: the channels of the trunks, the call store,
the response loop of every call that got a channel, and whatever is ending a
call.

A response loop does here what it does in one call, action by action. What
comes from the callee is free: any response or an error, at any time. So the
transactions of a call are left out, and every order of their events is among
the runs.

`HandleCancel` finds the loop of the call it cancels in the call store, where
its Call-ID leads to the call that was stored last. It ends the context of that
loop.

A call that was answered is ended by `HandleBye`, on a BYE from either side, or
by `trunkSessionTimer`. Both look it up, remove it and give its channel back, in
three steps. They are one kind of job, `Teardown`. A session timer also waits
first, and knows the trunk to give a channel of, where a BYE takes the one of the
call. A BYE without valid credentials does nothing and is no event.

The exchange remembers for which trunks `AcquireChannel` succeeded and for which
`ReleaseChannel` was called.

## Main definitions

* `TrunkLeg`: A call that got a channel, up to the end of its loop.
* `CancelTask`: A CANCEL at work.
* `TeardownPoint`, `Teardown`: A BYE or a session timer at work.
* `Exchange`: Everything together.
* `ExchangeEvent`, `exchangeStep`: What can happen.
* `Exchange.Quiescent`: Nothing is left to do.
-/

namespace Trecs

namespace B2bua

open Proto Sip Trunks

/-- A call that got a channel of a trunk. The handler refused it afterwards, or
    started a response loop. -/
structure TrunkLeg where
  trunkName : Bytes
  started : Option Started
  loop : Loop
  canceled : Bool

/-- Where a running `HandleCancel` is. The CANCEL to the trunk is left out with
    its transaction. -/
inductive CancelTask where
  | checkCall (req : SIPMessage)
  | findEarly (req : SIPMessage)
  | respond (req : SIPMessage) (early : Option EarlyCall)
  | cancelContext (req : SIPMessage) (early : EarlyCall)
  | removeEarly (req : SIPMessage)

/-- Where a teardown is. -/
inductive TeardownPoint where
  | waiting
  | lookup
  | remove (call : Call)
  | release (trunkName : Bytes)
deriving DecidableEq

/-- A BYE that is being handled, or a session timer with its trunk. -/
structure Teardown where
  callID : Bytes
  timerOf : Option Bytes
  pc : TeardownPoint
deriving DecidableEq

/-- The trunks, the call store, the calls, the CANCELs and the teardowns. -/
structure Exchange where
  mgr : TrunkManager
  store : Store
  legs : List TrunkLeg
  cancels : List CancelTask
  teardowns : List Teardown
  sent : List SIPMessage
  acquired : List Bytes
  released : List Bytes

/-- The exchange before the first call. -/
def Exchange.start (trunks : AList (fun _ : Bytes => Trunk)) : Exchange :=
  ⟨⟨trunks, ∅⟩, .create, [], [], [], [], [], []⟩

/-- What can happen. The numbers are those of a leg, of a CANCEL or of a
    teardown. -/
inductive ExchangeEvent where
  | invite (env : InviteEnv) (req : SIPMessage) (trk : Trunk) (dest : Bytes) (toAddr : SIPAddress)
  | sent (i : Nat) (sendFails : Bool)
  | takeDone (i : Nat)
  | takeResponse (i : Nat) (env : LoopEnv) (resp : SIPMessage)
  | takeError (i : Nat)
  | act (i : Nat) (env : LoopEnv)
  | cancel (req : SIPMessage)
  | cancelStep (k : Nat)
  | bye (req : SIPMessage)
  | expire (j : Nat)
  | stopTimer (j : Nat)
  | teardown (j : Nat) (rnd : Option Bytes)

/-- The BYE a teardown sends: to the other party, or to Alice when the timer of
    the call is over. -/
def Teardown.bye (td : Teardown) (h : Handler) (rnd : Option Bytes) (call : Call) : SIPMessage :=
  let branch := generateBranch rnd
  if td.timerOf = none ∧ td.callID = call.aliceCallID then
    call.byeToBob h.serverIP h.serverPort branch
  else call.byeToAlice h.serverIP h.serverPort branch

namespace Exchange

/-- A leg with a new place of its loop. -/
def setLoop (s : Exchange) (i : Nat) (l : TrunkLeg) (loop : Loop) : Exchange :=
  { s with legs := s.legs.set i { l with loop := loop } }

/-- `ReleaseChannel`. -/
def release (s : Exchange) (name : Bytes) : Exchange :=
  { s with mgr := s.mgr.releaseChannel name, released := s.released ++ [name] }

/-- `early.Cancel()`: the context of the loop of a ringing call ends. -/
def cancelLoop (s : Exchange) (i : Nat) : Exchange :=
  { s with legs := s.legs.modify i (fun l => { l with canceled := true }) }

/-- The leg at `i` with what its handler started, if its loop is waiting. -/
def waiting (s : Exchange) (i : Nat) : Option (TrunkLeg × Started) :=
  s.legs[i]?.bind (fun l =>
    match l.loop, l.started with
    | .select, some st => some (l, st)
    | _, _ => none)

/-- The leg at `i` with what its handler started, if its loop has yet to send
    the INVITE. -/
def sending (s : Exchange) (i : Nat) : Option (TrunkLeg × Started) :=
  s.legs[i]?.bind (fun l =>
    match l.loop, l.started with
    | .sending _, some st => some (l, st)
    | _, _ => none)

/-- One step of `HandleCancel`: the exchange afterwards, and where it goes on. -/
def cancelStep (s : Exchange) : CancelTask → Exchange × Option CancelTask
  | .checkCall req =>
    let callID := SIPHeaders.getFirst req.headers hCallID
    (s, if (s.store.get callID).isSome then none else some (.findEarly req))
  | .findEarly req =>
    (s, some (.respond req (s.store.getEarly (SIPHeaders.getFirst req.headers hCallID))))
  | .respond req early =>
    ({ s with sent := s.sent ++ [Leg.canceledResponse req early] },
      early.map (.cancelContext req))
  | .cancelContext req early => (s.cancelLoop early.loop, some (.removeEarly req))
  | .removeEarly req =>
    ({ s with store := s.store.removeEarly (SIPHeaders.getFirst req.headers hCallID) }, none)

/-- One step of a teardown: the exchange afterwards, and where it goes on. -/
def teardownStep (s : Exchange) (h : Handler) (rnd : Option Bytes) (td : Teardown) :
    Option (Exchange × Option TeardownPoint) :=
  match td.pc with
  | .waiting => none
  | .lookup =>
    match s.store.get td.callID with
    | none => some (s, none)
    | some call => some ({ s with sent := s.sent ++ [td.bye h rnd call] }, some (.remove call))
  | .remove call =>
    let name := td.timerOf.getD call.trunkName
    some ({ s with store := s.store.remove call.aliceCallID },
      if td.timerOf = none ∧ name = [] then none else some (.release name))
  | .release name => some (s.release name, none)

variable [SdpCodec]

/-- One action of the loop of leg `l`: the exchange afterwards and what the
    action turns into. Trunks have no reliable provisional responses. -/
def perform (h : Handler) (env : LoopEnv) (s : Exchange) (l : TrunkLeg) :
    Action → Option (Exchange × List Action)
  | .respond res => some ({ s with sent := s.sent ++ [res] }, [])
  | .sendReliable prov => some ({ s with sent := s.sent ++ [prov] }, [])
  | .sendBob msg => some ({ s with sent := s.sent ++ [msg] }, [])
  | .cancelPRACK => some (s, [])
  | .release name => some (s.release name, [])
  | .answer resp =>
    l.started.map (fun st => (s, st.peer.answerActions h st.cc env l.canceled resp))
  | .storeCall call => some ({ s with store := s.store.store call }, [])
  | .sessionTimer callID name _ =>
    some ({ s with teardowns := s.teardowns ++ [⟨callID, some name, .waiting⟩] }, [])
  | .removeEarly callID => some ({ s with store := s.store.removeEarly callID }, [])

/-- `handleTrunkInvite`. A refused call is a leg that has its refusal left to
    do. -/
def invite (h : Handler) (env : InviteEnv) (req : SIPMessage) (trk : Trunk) (dest : Bytes)
    (toAddr : SIPAddress) (s : Exchange) : Option Exchange :=
  match s.mgr.acquireChannel trk.name with
  | none => some { s with sent := s.sent ++ [newResponse req 503 (ascii "Service Unavailable")] }
  | some mgr =>
    match trunkInvite h env req trk dest toAddr with
    | .error .panicked => none
    | .error (.refused res) => some { s with
        mgr := mgr
        acquired := s.acquired ++ [trk.name]
        legs := s.legs ++ [⟨trk.name, none, .running [.release trk.name, .respond res] true, false⟩] }
    | .ok st => some { s with
        mgr := mgr
        acquired := s.acquired ++ [trk.name]
        store := s.store.storeEarly
          ⟨st.cc.callID, st.cc.bobCallID, st.cc.serverTag, s.legs.length⟩
        legs := s.legs ++ [⟨trk.name, some st, .sending (.storeRequest st.bobInvite), false⟩] }

end Exchange

variable [SdpCodec] [UnicodeLower]

/-- The effect of an event. -/
def exchangeStep (h : Handler) (s : Exchange) : ExchangeEvent → Option Exchange
  | .invite env req trk dest toAddr => s.invite h env req trk dest toAddr
  | .sent i sendFails =>
    (s.sending i).map (fun q =>
    if sendFails then s.setLoop i q.1 (.running (q.2.peer.onSendFailed q.2.cc).todo true)
    else s.setLoop i q.1 .select)
  | .takeDone i =>
    (s.waiting i).bind (fun q =>
    if q.1.canceled then some (s.setLoop i q.1 (.running (q.2.peer.onDone q.2.cc).todo true))
    else none)
  | .takeResponse i env resp =>
    (s.waiting i).map (fun q =>
    let r := q.2.peer.onResponse h q.2.cc env resp
    s.setLoop i q.1 (.running r.todo r.last))
  | .takeError i =>
    (s.waiting i).map (fun q =>
    s.setLoop i q.1 (.running (q.2.peer.onError q.2.cc).todo true))
  | .act i env =>
    s.legs[i]?.bind (fun l =>
    match l.loop with
    | .running [] last => some (s.setLoop i l (if last then .ended else .select))
    | .running (a :: todo) last =>
      (s.perform h env l a).map (fun o => o.1.setLoop i l (.running (o.2 ++ todo) last))
    | _ => none)
  | .cancel req => some { s with cancels := s.cancels ++ [.checkCall req] }
  | .cancelStep k =>
    s.cancels[k]?.map (fun c =>
    let o := s.cancelStep c
    { o.1 with cancels := resumeAt s.cancels k o.2 })
  | .bye req =>
    some { s with
      teardowns := s.teardowns ++ [⟨SIPHeaders.getFirst req.headers hCallID, none, .lookup⟩] }
  | .expire j =>
    s.teardowns[j]?.bind (fun td =>
    if td.pc = .waiting then
      some { s with teardowns := s.teardowns.set j { td with pc := .lookup } }
    else none)
  | .stopTimer j =>
    s.teardowns[j]?.bind (fun td =>
    if td.pc = .waiting then some { s with teardowns := s.teardowns.eraseIdx j } else none)
  | .teardown j rnd =>
    s.teardowns[j]?.bind (fun td => (s.teardownStep h rnd td).map (fun o =>
    { o.1 with
      teardowns := resumeAt s.teardowns j (o.2.map (Teardown.mk td.callID td.timerOf)) }))

omit [SdpCodec] [UnicodeLower]

/-- The loop has returned, or waits for a response. -/
def TrunkLeg.atRest (l : TrunkLeg) : Bool :=
  match l.loop with
  | .ended => true
  | .select => !l.canceled
  | _ => false

/-- Nothing is left to do. Session timers may be running. -/
def Exchange.Quiescent (s : Exchange) : Prop :=
  (∀ l ∈ s.legs, l.atRest = true) ∧ s.cancels.isEmpty = true ∧
    ∀ td ∈ s.teardowns, td.pc = .waiting

instance (s : Exchange) : Decidable s.Quiescent :=
  inferInstanceAs (Decidable ((∀ l ∈ s.legs, _) ∧ _ ∧ ∀ td ∈ s.teardowns, _))

end B2bua

end Trecs
