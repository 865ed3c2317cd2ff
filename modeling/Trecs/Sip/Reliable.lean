import Trecs.Lib.TimerChain
import Trecs.Sip.Transaction

/-!
# Reliable Provisional Responses

The `ReliableProvisionalManager` of `internal/sip/reliable.go` (RFC 3262, the
side that answers calls).

The manager has one record for each Call-ID. `SendReliable` numbers the response
with the next RSeq, adds the number to the set of those that wait for a PRACK,
and starts the one timer of the record afresh. The callback of the timer resends
the latest response and schedules the next callback, or gives up after six
retransmissions. A PRACK takes its RSeq out of the set and stops the timer if it
is the latest one.

A record is reached in two ways: through the table of pending records, and
through the callbacks of its timers, which hold a pointer to it. So the records
are a list that only grows, and the table and the timers name a record by its
position. Every operation holds the lock of the manager from beginning to end,
apart from the parsing of a PRACK, which touches nothing.

The callback a caller passes as `onTimeout` is named by a number, and `none` is
`nil`. What it does is up to the caller; here it is an observation.

## Main definitions

* `PendingReliable`, `ReliableProvisionalManager`: The Go structs.
* `sendReliable`, `handlePRACK`, `cancel`, `retransmitCallback`: The operations.
* `ReliableEvent`, `reliableStep`: What can happen to a manager.
* `Sound`: The table has exactly the records that are not done.

## Theorems

* `Sound.step`: Records, their positions and their timers stay consistent.
* `handlePRACK_cases`, `retransmitCallback_cases`: What a PRACK and a callback
  do.
-/

namespace Trecs

open List Option

namespace Sip

open Proto

/-- The Go struct `pendingReliable`, without the logger and the pointer to the
    manager. -/
structure PendingReliable where
  callID : Bytes
  rseqsSent : List Int
  latestRSeq : Int
  latestResp : SIPMessage
  timer : Option Nat
  retxC : Nat
  transport : Option Transport
  target : Target
  done : Bool
  onTimeout : Option Nat
  counter : Int
  cseq : Int64
  method : SIPMethod

/-- What happens to the records, in order. Each observation names its record. -/
inductive ReliableObs where
  | sent (record : Nat) (callID : Bytes) (rseq : Int) (onTimeout : Option Nat)
  | acked (record : Nat) (callID : Bytes) (rseq : Int)
  | retransmitted (record : Nat) (callID : Bytes) (res : SIPMessage)
  | timedOut (record : Nat) (callID : Bytes) (onTimeout : Nat)
deriving DecidableEq

/-- The Go struct `ReliableProvisionalManager`, with every record and every
    timer it has made, and what was observed. -/
structure ReliableProvisionalManager where
  records : List PendingReliable
  pending : AList (fun _ : Bytes => Nat)
  timers : Timers Nat
  trace : List ReliableObs

/-- What a PRACK says: its Call-ID and the three parts of RAck. -/
structure RAck where
  callID : Bytes
  rseq : Int
  cseq : Int64
  method : Bytes
deriving Repr, DecidableEq

/-- The checks at the start of `HandlePRACK`. A PRACK that fails one of them is
    answered 400. -/
def parseRAck (prack : SIPMessage) : Option RAck :=
  let callID := SIPHeaders.getFirst prack.headers hCallID
  let rack := SIPHeaders.getFirst prack.headers (ascii "RAck")
  if callID = [] ∨ rack = [] then none
  else
    match fields rack with
    | rseq :: cseq :: method :: _ =>
      match atoi rseq, atoi cseq with
      | .ok r, .ok c => some ⟨callID, r.toInt, c, method⟩
      | _, _ => none
    | _ => none

namespace ReliableProvisionalManager

/-- `NewReliableProvisionalManager`. -/
def create : ReliableProvisionalManager := ⟨[], ∅, [], []⟩

/-- `m.pending[callID]`, with the position of the record. -/
def find (m : ReliableProvisionalManager) (callID : Bytes) : Option (Nat × PendingReliable) :=
  (m.pending.lookup callID).bind (fun k => m.records[k]?.map (fun pr => (k, pr)))

/-- The record `SendReliable` makes for a Call-ID that has none. -/
def newRecord (transport : Transport) (target : Target) (res : SIPMessage) (callID : Bytes)
    (onTimeout : Option Nat) : PendingReliable where
  callID := callID
  rseqsSent := []
  latestRSeq := 0
  latestResp := res
  timer := none
  retxC := 0
  transport := some transport
  target := target
  done := false
  onTimeout := onTimeout
  counter := 0
  cseq := res.cseq.seq
  method := res.cseq.method

/-- The response with its RSeq and with 100rel required. -/
def numbered (res : SIPMessage) (rseq : Int) : SIPMessage :=
  { res with
    headers := SIPHeaders.add (SIPHeaders.set res.headers (ascii "RSeq") [formatInt rseq])
      (ascii "Require") (ascii "100rel") }

/-- The part of `SendReliable` behind the creation of the record: `pr` is the
    record at position `k`. -/
def sendOn (now : Nat) (m : ReliableProvisionalManager) (k : Nat) (pr : PendingReliable)
    (res : SIPMessage) (onTimeout : Option Nat) : ReliableProvisionalManager :=
  let rseq := pr.counter + 1
  let timers := m.timers.stop? pr.timer
  { m with
    records := m.records.set k
      { pr with
        counter := rseq
        rseqsSent := pr.rseqsSent.insert rseq
        latestRSeq := rseq
        done := false
        latestResp := numbered res rseq
        retxC := 0
        timer := some timers.length }
    timers := timers.afterFunc now (wait (retransmitInterval 0)) k
    trace := m.trace ++ [.sent k pr.callID rseq onTimeout] }

/-- The record of a Call-ID, which `SendReliable` makes if there is none, and its
    position. -/
def ensure (m : ReliableProvisionalManager) (transport : Transport) (target : Target)
    (res : SIPMessage) (callID : Bytes) (onTimeout : Option Nat) :
    ReliableProvisionalManager × Nat × PendingReliable :=
  match m.find callID with
  | some (k, pr) => (m, k, pr)
  | none =>
    let pr := newRecord transport target res callID onTimeout
    ({ m with
        records := m.records ++ [pr]
        pending := m.pending.insert callID m.records.length },
      m.records.length, pr)

/-- `SendReliable` on a transaction with the given transport and target: the
    manager afterwards and the response handed to the transaction. -/
def sendReliable (now : Nat) (m : ReliableProvisionalManager) (transport : Transport)
    (target : Target) (res : SIPMessage) (callID : Bytes) (onTimeout : Option Nat) :
    ReliableProvisionalManager × SIPMessage :=
  let (m, k, pr) := m.ensure transport target res callID onTimeout
  (m.sendOn now k pr res onTimeout, numbered res (pr.counter + 1))

/-- The checks of `HandlePRACK` under the lock: the record the PRACK is for. A
    PRACK that fails one of them is answered 481. -/
def accepts (m : ReliableProvisionalManager) (r : RAck) : Option (Nat × PendingReliable) :=
  match m.find r.callID with
  | none => none
  | some (k, pr) =>
    if pr.done then none
    else if r.rseq ∉ pr.rseqsSent then none
    else if r.cseq ≠ pr.cseq ∨ equalFold r.method pr.method.text = false then none
    else some (k, pr)

/-- What an accepted PRACK for `rseq` does to its record. -/
def acknowledge (m : ReliableProvisionalManager) (k : Nat) (pr : PendingReliable) (rseq : Int) :
    ReliableProvisionalManager :=
  { m with
    records := m.records.set k
      { pr with
        rseqsSent := pr.rseqsSent.filter (· ≠ rseq)
        timer := if rseq = pr.latestRSeq then none else pr.timer }
    timers := if rseq = pr.latestRSeq then m.timers.stop? pr.timer else m.timers
    trace := m.trace ++ [.acked k pr.callID rseq] }

/-- `HandlePRACK`: the manager afterwards and the answer. -/
def handlePRACK (m : ReliableProvisionalManager) (prack : SIPMessage) :
    ReliableProvisionalManager × SIPMessage :=
  match parseRAck prack with
  | none => (m, newResponse prack 400 (ascii "Bad Request"))
  | some r =>
    match m.accepts r with
    | none => (m, newResponse prack 481 (ascii "Call/Transaction Does Not Exist"))
    | some (k, pr) =>
      let res := newResponse prack 200 (ascii "OK")
      (m.acknowledge k pr r.rseq,
        { res with headers := SIPHeaders.set res.headers hContentLength [ascii "0"] })

/-- `Cancel`. -/
def cancel (m : ReliableProvisionalManager) (callID : Bytes) : ReliableProvisionalManager :=
  match m.find callID with
  | none => m
  | some (k, pr) =>
    { m with
      records := m.records.set k { pr with done := true, timer := none }
      timers := m.timers.stop? pr.timer
      pending := m.pending.erase callID }

/-- The callback of a timer of record `k`, in a manager whose timers no longer
    have it as fired. -/
def retransmitCallback (now : Nat) (m : ReliableProvisionalManager) (k : Nat)
    (pr : PendingReliable) : ReliableProvisionalManager :=
  if pr.done then m
  else
    let pr := { pr with retxC := pr.retxC + 1 }
    if 7 ≤ pr.retxC then
      { m with
        records := m.records.set k { pr with done := true }
        pending := m.pending.erase pr.callID
        trace := m.trace ++ (pr.onTimeout.map (.timedOut k pr.callID)).toList }
    else if pr.transport.isNone then { m with records := m.records.set k pr }
    else
      { m with
        records := m.records.set k { pr with timer := some m.timers.length }
        timers := m.timers.afterFunc now (wait (retransmitInterval pr.retxC)) k
        trace := m.trace ++ [.retransmitted k pr.callID pr.latestResp] }

end ReliableProvisionalManager

/-- What can happen to a manager. -/
inductive ReliableEvent where
  | send (now : Nat) (transport : Transport) (target : Target) (res : SIPMessage) (callID : Bytes)
      (onTimeout : Option Nat)
  | prack (msg : SIPMessage)
  | cancel (callID : Bytes)
  | expire (i : Nat)
  | callback (now i : Nat)

/-- The effect of an event. -/
def reliableStep (m : ReliableProvisionalManager) :
    ReliableEvent → Option ReliableProvisionalManager
  | .send now transport target res callID onTimeout =>
    some (m.sendReliable now transport target res callID onTimeout).1
  | .prack msg => some (m.handlePRACK msg).1
  | .cancel callID => some (m.cancel callID)
  | .expire i => (m.timers.expire i).map (fun ts => { m with timers := ts })
  | .callback now i =>
    (m.timers.take i).bind (fun p =>
    m.records[p.1]?.map (fun pr =>
      ReliableProvisionalManager.retransmitCallback now { m with timers := p.2 } p.1 pr))

/-! ### Records, their positions and their timers -/

namespace ReliableProvisionalManager

variable {m : ReliableProvisionalManager} {k : Nat} {pr : PendingReliable}

/-- The table has exactly the records that are not done, under their Call-IDs. A
    timer belongs to a record there is, and a record holds a timer of its own. -/
structure Sound (m : ReliableProvisionalManager) : Prop where
  listed : ∀ (callID : Bytes) (k : Nat), m.pending.lookup callID = some k →
    ∃ pr : PendingReliable, m.records[k]? = some pr ∧ pr.callID = callID ∧ pr.done = false
  pending : ∀ (k : Nat) (pr : PendingReliable), m.records[k]? = some pr → pr.done = false →
    m.pending.lookup pr.callID = some k
  kinds : ∀ (j : Nat) (t : Timer Nat), m.timers[j]? = some t → t.kind < m.records.length
  held : ∀ (k : Nat) (pr : PendingReliable) (j : Nat), m.records[k]? = some pr →
    pr.timer = some j → ∃ t : Timer Nat, m.timers[j]? = some t ∧ t.kind = k

theorem sound_create : Sound create where
  listed := fun callID k h => absurd h (by simp [create])
  pending := fun k pr h => absurd h (by simp [create])
  kinds := fun j t h => absurd h (by simp [create])
  held := fun k pr j h => absurd h (by simp [create])

theorem find_eq_some (callID : Bytes) (h : m.find callID = some (k, pr)) :
    m.pending.lookup callID = some k ∧ m.records[k]? = some pr := by
  rcases bind_eq_some_iff.mp h with ⟨k', hk, hpr⟩
  rcases map_eq_some_iff.mp hpr with ⟨pr', hpr', hx⟩
  cases hx
  exact ⟨hk, hpr'⟩

/-- A record that is found is not done and has the Call-ID. -/
theorem Sound.find (hs : Sound m) (callID : Bytes) (h : m.find callID = some (k, pr)) :
    m.records[k]? = some pr ∧ pr.callID = callID ∧ pr.done = false := by
  rcases find_eq_some callID h with ⟨hk, hpr⟩
  rcases hs.listed callID k hk with ⟨pr', hpr', hcall, hdone⟩
  rw [hpr, some.injEq] at hpr'
  rw [hpr']
  exact ⟨hpr' ▸ hpr, hcall, hdone⟩

/-- There is no record under a Call-ID that is not found. -/
theorem Sound.find_eq_none (hs : Sound m) (callID : Bytes) (h : m.find callID = none) :
    m.pending.lookup callID = none := by
  rcases hk : m.pending.lookup callID with _ | k
  · rfl
  · rcases hs.listed callID k hk with ⟨pr, hpr, _⟩
    rw [ReliableProvisionalManager.find, hk, bind_some, hpr] at h
    cases h

/-- The timers of `ts` are among those of `ts'`, which belong to `n` records. -/
structure Extends (n : Nat) (ts ts' : Timers Nat) : Prop where
  old : ∀ (j : Nat) (t : Timer Nat), ts[j]? = some t → ∃ t', ts'[j]? = some t' ∧ t'.kind = t.kind
  kinds : ∀ (j : Nat) (t : Timer Nat), ts'[j]? = some t → t.kind < n

theorem Sound.extends_of_quieter (hs : Sound m) {ts : Timers Nat}
    (hq : Timers.Quieter m.timers ts) : Extends m.records.length m.timers ts where
  old := hq.forth
  kinds := by
    intro j t hj
    rcases hq.back j t hj with ⟨t0, h0, hkind, _⟩
    rw [← hkind]
    exact hs.kinds j t0 h0

theorem Extends.afterFunc {n : Nat} {ts ts' : Timers Nat} (h : Extends n ts ts') (now d : Nat)
    (hk : k < n) : Extends n ts (ts'.afterFunc now d k) where
  old := by
    intro j t hj
    rcases h.old j t hj with ⟨t', ht', hkind⟩
    exact ⟨t', Timers.getElem?_afterFunc_of_getElem? ts' now d k j t' ht', hkind⟩
  kinds := by
    intro j t hj
    rcases Timers.getElem?_afterFunc ts' now d k j t hj with hj0 | ⟨_, ht⟩
    · exact h.kinds j t hj0
    · rw [ht]
      exact hk

/-- Overwriting a record that stays in the table. -/
theorem Sound.set (hs : Sound m) (hk : m.records[k]? = some pr) (hopen : pr.done = false)
    (pr' : PendingReliable) (ts : Timers Nat) (tr : List ReliableObs)
    (hcall : pr'.callID = pr.callID) (hdone : pr'.done = false)
    (hts : Extends m.records.length m.timers ts)
    (hheld : ∀ j, pr'.timer = some j → ∃ t : Timer Nat, ts[j]? = some t ∧ t.kind = k) :
    Sound { m with records := m.records.set k pr', timers := ts, trace := tr } where
  listed := by
    intro callID k' hk'
    rcases hs.listed callID k' hk' with ⟨x, hx, hxc, hxd⟩
    by_cases hkk : k = k'
    · have hlt : k < m.records.length := (List.getElem?_eq_some_iff.mp hk).1
      refine ⟨pr', ?_, ?_, hdone⟩
      · rw [← hkk]
        exact getElem?_set_self hlt
      · rw [← hkk, hk, some.injEq] at hx
        rw [hcall, hx, hxc]
    · exact ⟨x, (getElem?_set_ne hkk).trans hx, hxc, hxd⟩
  pending := by
    intro k' x hx hxd
    rcases getElem?_set_cases m.records k k' x pr' hx with ⟨hkk, hxp⟩ | ⟨_, hx0⟩
    · rw [hkk, hxp, hcall]
      exact hs.pending k pr hk hopen
    · exact hs.pending k' x hx0 hxd
  kinds := by
    intro j t hj
    rw [length_set]
    exact hts.kinds j t hj
  held := by
    intro k' x j hx hj
    rcases getElem?_set_cases m.records k k' x pr' hx with ⟨hkk, hxp⟩ | ⟨_, hx0⟩
    · rw [hkk]
      exact hheld j (hxp ▸ hj)
    · rcases hs.held k' x j hx0 hj with ⟨t, ht, hkind⟩
      rcases hts.old j t ht with ⟨t', ht', hkind'⟩
      exact ⟨t', ht', hkind'.trans hkind⟩

/-- A record that is done leaves the table. -/
theorem Sound.close (hs : Sound m) (hk : m.records[k]? = some pr) (hopen : pr.done = false)
    (pr' : PendingReliable) (ts : Timers Nat) (tr : List ReliableObs) (hdone : pr'.done = true)
    (hts : Extends m.records.length m.timers ts)
    (hheld : ∀ j, pr'.timer = some j → ∃ t : Timer Nat, ts[j]? = some t ∧ t.kind = k) :
    Sound { m with
      records := m.records.set k pr', pending := m.pending.erase pr.callID, timers := ts,
      trace := tr } where
  listed := by
    intro callID k' hk'
    have hne : callID ≠ pr.callID := by
      intro hc
      rw [hc, AList.lookup_erase] at hk'
      cases hk'
    rw [AList.lookup_erase_ne hne] at hk'
    rcases hs.listed callID k' hk' with ⟨x, hx, hxc, hxd⟩
    have hkk : k ≠ k' := by
      intro hc
      rw [← hc, hk, some.injEq] at hx
      exact hne (hxc.symm.trans (congrArg PendingReliable.callID hx.symm))
    exact ⟨x, (getElem?_set_ne hkk).trans hx, hxc, hxd⟩
  pending := by
    intro k' x hx hxd
    rcases getElem?_set_cases m.records k k' x pr' hx with ⟨_, hxp⟩ | ⟨hkk, hx0⟩
    · rw [hxp, hdone] at hxd
      cases hxd
    · -- Two open records have different Call-IDs.
      have hlook := hs.pending k' x hx0 hxd
      have hne : x.callID ≠ pr.callID := by
        intro hc
        rw [hc, hs.pending k pr hk hopen, some.injEq] at hlook
        exact hkk hlook.symm
      rw [AList.lookup_erase_ne hne]
      exact hlook
  kinds := by
    intro j t hj
    rw [length_set]
    exact hts.kinds j t hj
  held := by
    intro k' x j hx hj
    rcases getElem?_set_cases m.records k k' x pr' hx with ⟨hkk, hxp⟩ | ⟨_, hx0⟩
    · rw [hkk]
      exact hheld j (hxp ▸ hj)
    · rcases hs.held k' x j hx0 hj with ⟨t, ht, hkind⟩
      rcases hts.old j t ht with ⟨t', ht', hkind'⟩
      exact ⟨t', ht', hkind'.trans hkind⟩

/-- The record of a Call-ID is the one that was found or a new one behind all
    others, which no timer belongs to. -/
theorem Sound.ensure (hs : Sound m) (transport : Transport) (target : Target) (res : SIPMessage)
    (callID : Bytes) (onTimeout : Option Nat) :
    ∃ m' k pr, m.ensure transport target res callID onTimeout = (m', k, pr) ∧ Sound m' ∧
      m'.records[k]? = some pr ∧ pr.callID = callID ∧ pr.done = false ∧ m'.timers = m.timers ∧
      m'.trace = m.trace ∧
      (∀ (k' : Nat) (x : PendingReliable), m'.records[k']? = some x → k' ≠ k →
        m.records[k']? = some x) ∧
      (∀ (k' : Nat) (x : PendingReliable), m.records[k']? = some x → m'.records[k']? = some x) ∧
      ((m.find callID = some (k, pr) ∧ m' = m) ∨
        (m.find callID = none ∧ pr = newRecord transport target res callID onTimeout ∧
          Timers.Idle m.timers k)) := by
  cases hfind : m.find callID with
  | some p =>
    rcases p with ⟨k, pr⟩
    rcases hs.find callID hfind with ⟨hk, hcall, hdone⟩
    refine ⟨m, k, pr, ?_, hs, hk, hcall, hdone, rfl, rfl, fun _ _ hx _ => hx,
      fun _ _ hx => hx, .inl ⟨rfl, rfl⟩⟩
    simp [ReliableProvisionalManager.ensure, hfind]
  | none =>
    have hnone := hs.find_eq_none callID hfind
    -- The positions of the old records are the same in the longer list.
    have hold : ∀ (k' : Nat) (x : PendingReliable),
        (m.records ++ [newRecord transport target res callID onTimeout])[k']? = some x →
        k' ≠ m.records.length → m.records[k']? = some x := by
      intro k' x hx hne
      rw [getElem?_append] at hx
      split at hx
      · exact hx
      · have hlt := (List.getElem?_eq_some_iff.mp hx).1
        simp only [length_cons, length_nil] at hlt
        omega
    have hnew : ∀ (k' : Nat) (x : PendingReliable), m.records[k']? = some x →
        (m.records ++ [newRecord transport target res callID onTimeout])[k']? = some x :=
      fun k' x hx => (getElem?_append_left (List.getElem?_eq_some_iff.mp hx).1).trans hx
    refine ⟨{ m with
        records := m.records ++ [newRecord transport target res callID onTimeout]
        pending := m.pending.insert callID m.records.length },
      m.records.length, newRecord transport target res callID onTimeout,
      by simp only [ReliableProvisionalManager.ensure, hfind], ?_,
      getElem?_concat_length .., rfl, rfl, rfl, rfl, hold, hnew, .inr ⟨rfl, rfl, ?_⟩⟩
    · refine ⟨?_, ?_, ?_, ?_⟩
      · intro c k' hk'
        by_cases hc : c = callID
        · rw [hc, AList.lookup_insert, some.injEq] at hk'
          rw [← hk', hc]
          exact ⟨_, getElem?_concat_length .., rfl, rfl⟩
        · rw [AList.lookup_insert_ne hc] at hk'
          rcases hs.listed c k' hk' with ⟨x, hx, hxc, hxd⟩
          exact ⟨x, hnew k' x hx, hxc, hxd⟩
      · intro k' x hx hxd
        by_cases hkk : k' = m.records.length
        · rw [hkk, getElem?_concat_length, some.injEq] at hx
          rw [← hx, hkk]
          exact AList.lookup_insert _
        · have hlook := hs.pending k' x (hold k' x hx hkk) hxd
          have hne : x.callID ≠ callID := by
            intro hc
            rw [hc, hnone] at hlook
            contradiction
          rw [AList.lookup_insert_ne hne]
          exact hlook
      · intro j t hj
        rw [length_append]
        exact Nat.lt_add_right _ (hs.kinds j t hj)
      · intro k' x j hx hj
        by_cases hkk : k' = m.records.length
        · rw [hkk, getElem?_concat_length] at hx
          cases hx
          contradiction
        · exact hs.held k' x j (hold k' x hx hkk) hj
    · intro j t hj hk
      exact absurd hk (Nat.ne_of_lt (hs.kinds j t hj))

theorem Sound.sendOn (hs : Sound m) (hk : m.records[k]? = some pr) (hopen : pr.done = false)
    (now : Nat) (res : SIPMessage) (onTimeout : Option Nat) :
    Sound (m.sendOn now k pr res onTimeout) := by
  have hlt : k < m.records.length := (List.getElem?_eq_some_iff.mp hk).1
  have hstop := hs.extends_of_quieter (Timers.quieter_stop? m.timers pr.timer)
  refine hs.set hk hopen _ _ _ rfl rfl (hstop.afterFunc now _ hlt) ?_
  intro j hj
  cases hj
  exact ⟨_, getElem?_concat_length .., rfl⟩

theorem Sound.acknowledge (hs : Sound m) (hk : m.records[k]? = some pr) (hopen : pr.done = false)
    (rseq : Int) : Sound (m.acknowledge k pr rseq) := by
  have hq : Timers.Quieter m.timers
      (if rseq = pr.latestRSeq then m.timers.stop? pr.timer else m.timers) := by
    split
    · exact Timers.quieter_stop? m.timers pr.timer
    · exact Timers.Quieter.refl m.timers
  refine hs.set hk hopen _ _ _ rfl hopen (hs.extends_of_quieter hq) ?_
  intro j hj
  simp only at hj
  split at hj
  · cases hj
  · rename_i hne
    rw [if_neg hne]
    exact hs.held k pr j hk hj

/-- What the callback of a record that is not done does. -/
theorem retransmitCallback_cases (now : Nat) (m : ReliableProvisionalManager) (k : Nat)
    (pr : PendingReliable) (hopen : pr.done = false) :
    (7 ≤ pr.retxC + 1 ∧ m.retransmitCallback now k pr =
      { m with
        records := m.records.set k { pr with retxC := pr.retxC + 1, done := true }
        pending := m.pending.erase pr.callID
        trace := m.trace ++ (pr.onTimeout.map (.timedOut k pr.callID)).toList }) ∨
    (pr.retxC + 1 < 7 ∧ pr.transport = none ∧ m.retransmitCallback now k pr =
      { m with records := m.records.set k { pr with retxC := pr.retxC + 1 } }) ∨
    (pr.retxC + 1 < 7 ∧ pr.transport.isSome = true ∧ m.retransmitCallback now k pr =
      { m with
        records := m.records.set k
          { pr with retxC := pr.retxC + 1, timer := some m.timers.length }
        timers := m.timers.afterFunc now (wait (retransmitInterval (pr.retxC + 1))) k
        trace := m.trace ++ [.retransmitted k pr.callID pr.latestResp] }) := by
  simp only [retransmitCallback, hopen, Bool.false_eq_true, if_false]
  by_cases h7 : 7 ≤ pr.retxC + 1
  · left
    exact ⟨h7, if_pos h7⟩
  · right
    rw [if_neg h7]
    cases ht : pr.transport with
    | none =>
      left
      exact ⟨by omega, rfl, rfl⟩
    | some t =>
      right
      exact ⟨by omega, rfl, rfl⟩

theorem Sound.cancel (hs : Sound m) (callID : Bytes) : Sound (m.cancel callID) := by
  unfold ReliableProvisionalManager.cancel
  split
  · exact hs
  · rename_i k pr hfind
    rcases hs.find callID hfind with ⟨hk, hcall, hdone⟩
    have hq := hs.extends_of_quieter (Timers.quieter_stop? m.timers pr.timer)
    rw [← hcall]
    exact hs.close hk hdone _ _ m.trace rfl hq
      (fun j hj => nomatch hj)

theorem Sound.retime (hs : Sound m) (ts : Timers Nat)
    (hts : Extends m.records.length m.timers ts) : Sound { m with timers := ts } :=
  { hs with
    kinds := hts.kinds
    held := by
      intro k pr j hk hj
      rcases hs.held k pr j hk hj with ⟨t, ht, hkind⟩
      rcases hts.old j t ht with ⟨t', ht', hkind'⟩
      exact ⟨t', ht', hkind'.trans hkind⟩ }

theorem Sound.retransmitCallback (hs : Sound m) (hk : m.records[k]? = some pr) (now : Nat) :
    Sound (m.retransmitCallback now k pr) := by
  cases hopen : pr.done with
  | true =>
    rw [ReliableProvisionalManager.retransmitCallback, if_pos hopen]
    exact hs
  | false =>
    have hsame := hs.extends_of_quieter (Timers.Quieter.refl m.timers)
    have hlt : k < m.records.length := (List.getElem?_eq_some_iff.mp hk).1
    rcases retransmitCallback_cases now m k pr hopen with ⟨_, hm⟩ | ⟨_, _, hm⟩ | ⟨_, _, hm⟩
    · rw [hm]
      exact hs.close hk hopen _ m.timers _ rfl hsame (fun j hj => hs.held k pr j hk hj)
    · rw [hm]
      exact hs.set hk hopen _ m.timers m.trace rfl hopen hsame
        (fun j hj => hs.held k pr j hk hj)
    · rw [hm]
      refine hs.set hk hopen _ _ _ rfl hopen (hsame.afterFunc now _ hlt) ?_
      intro j hj
      cases hj
      exact ⟨_, getElem?_concat_length .., rfl⟩

theorem accepts_eq_some (r : RAck) (h : m.accepts r = some (k, pr)) :
    m.find r.callID = some (k, pr) ∧ r.rseq ∈ pr.rseqsSent := by
  unfold accepts at h
  split at h
  · cases h
  · rename_i k' pr' hfind
    split at h
    · cases h
    · split at h
      · cases h
      · rename_i hmem
        split at h
        · cases h
        · rw [some.injEq, Prod.mk.injEq] at h
          rw [hfind, h.1, h.2]
          exact ⟨rfl, h.2 ▸ not_not.mp hmem⟩

/-- A PRACK either leaves the manager alone or is for an RSeq of a pending
    record, and is answered 200 in the second case only. -/
theorem handlePRACK_cases (m : ReliableProvisionalManager) (prack : SIPMessage) :
    ((m.handlePRACK prack).1 = m ∧ (m.handlePRACK prack).2.statusCode ≠ 200) ∨
    (∃ r k pr, parseRAck prack = some r ∧ m.accepts r = some (k, pr) ∧
      (m.handlePRACK prack).1 = m.acknowledge k pr r.rseq ∧
      (m.handlePRACK prack).2.statusCode = 200) := by
  unfold handlePRACK
  split
  · left
    exact ⟨rfl, by simp only [newResponse_statusCode]; decide⟩
  · rename_i r hr
    split
    · left
      exact ⟨rfl, by simp only [newResponse_statusCode]; decide⟩
    · rename_i k pr hacc
      right
      exact ⟨r, k, pr, hr, hacc, rfl, rfl⟩

theorem Sound.step (hs : Sound m) (e : ReliableEvent) (m' : ReliableProvisionalManager)
    (hstep : reliableStep m e = some m') : Sound m' := by
  cases e with
  | send now transport target res callID onTimeout =>
    rcases hs.ensure transport target res callID onTimeout with
      ⟨m₁, k, pr, hens, hs₁, hk, _, hopen, _⟩
    rw [← some.inj hstep, sendReliable, hens]
    exact hs₁.sendOn hk hopen now res onTimeout
  | prack msg =>
    cases hstep
    rcases m.handlePRACK_cases msg with ⟨hm, _⟩ | ⟨r, k, pr, _, hacc, hm, _⟩
    · rw [hm]
      exact hs
    · rcases hs.find r.callID (accepts_eq_some r hacc).1 with ⟨hk, _, hopen⟩
      rw [hm]
      exact hs.acknowledge hk hopen r.rseq
  | cancel callID =>
    cases hstep
    exact hs.cancel callID
  | expire i =>
    rcases map_eq_some_iff.mp hstep with ⟨ts, hexp, hm⟩
    rcases (Timers.expire_eq_some_iff m.timers ts i).mp hexp with ⟨t, hi, _, hset⟩
    have hlt : i < m.timers.length := (List.getElem?_eq_some_iff.mp hi).1
    rw [← hm]
    refine hs.retime ts ⟨?_, ?_⟩
    · intro j v hj
      by_cases hij : i = j
      · refine ⟨{ t with phase := .fired }, ?_, ?_⟩
        · rw [hset, ← hij, getElem?_set_self hlt]
        · rw [← hij, hi, some.injEq] at hj
          rw [hj]
      · exact ⟨v, by rw [hset, getElem?_set_ne hij, hj], rfl⟩
    · intro j v hj
      rw [hset] at hj
      rcases getElem?_set_cases m.timers i j v _ hj with ⟨_, hv⟩ | ⟨_, hj0⟩
      · rw [hv]
        exact hs.kinds i t hi
      · exact hs.kinds j v hj0
  | callback now i =>
    rcases bind_eq_some_iff.mp hstep with ⟨⟨k, ts⟩, htake, hm⟩
    rcases map_eq_some_iff.mp hm with ⟨pr, hk, hm⟩
    have hs' := hs.retime ts (hs.extends_of_quieter (Timers.quieter_take _ _ _ _ htake))
    rw [← hm]
    exact hs'.retransmitCallback hk now

end ReliableProvisionalManager

end Sip

end Trecs
