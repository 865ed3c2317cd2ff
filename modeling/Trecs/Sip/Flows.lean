import Trecs.Sip.BindingStore

/-!
# Flows and Bindings

`internal/sip/flow.go` and the part of `transport.go` that reads connections. A
connection is registered in the flow pool under the text of its addresses. Its
reader queues the messages it reads, and when the connection ends it removes the
flow from the pool and then calls `RemoveBindingsByFlowID`. The dispatcher takes
messages from the queue and hands the REGISTER requests to the registrar, which
keeps the same text in every binding it makes.

The pool and the registrar have a lock each and none in common. A step is what a
goroutine does under one lock or with the channel, and the events of a run are
these steps in any order.

A binding whose flow is gone cannot be called. That is how it is between the two
halves of `RemoveDead`. It is so for good if a request is handled when the reader
of its connection has done both: the request may have waited in the queue, or
`RemoveDead` may have removed the flow of a later connection with the same
addresses.

## Main definitions

* `Flows`, `FlowEvent`, `flowStep`: The pool, the readers, the queue, the
  dispatcher and the registrar.
* `Flows.Refers`: Every binding that has a flow ID refers to a flow in the pool.
* `FlowOk`, `FlowIdle`: When a request is handled and a flow is removed.

## Theorems

* `flows_refer`: Under `FlowOk` every binding has its flow whenever no
  `RemoveDead` is at work, and under `FlowIdle` it always has.
* `flows_refer_fails`: Without them.
-/

namespace Trecs

open List Option

namespace Sip

open Proto

/-- The Go struct `FlowKey`. -/
structure FlowKey where
  sourceIP : Bytes
  destIP : Bytes
  transport : Bytes
  sourcePort : Int64
  destPort : Int64
deriving Repr, DecidableEq

/-- `FlowKey.String`. The arrow has three bytes. -/
def FlowKey.string (k : FlowKey) : Bytes :=
  k.transport ++ [58] ++ k.sourceIP ++ [58] ++ formatInt k.sourcePort.toInt ++
    [0xE2, 0x86, 0x92] ++ k.destIP ++ [58] ++ formatInt k.destPort.toInt

/-- Where the reader of a connection is. -/
inductive ReaderPlace where
  | reading
  | removed
  | returned
deriving Repr, DecidableEq

/-- The flow pool and those who use it. `flows` has the connection of every flow,
    `handling` is the message the dispatcher has taken. -/
structure Flows where
  flows : AList (fun _ : Bytes => Nat)
  readers : AList (fun _ : Nat => ReaderPlace)
  messages : List MessageEvent
  handling : Option MessageEvent
  reg : Registrar

/-- `connect` is `Register`, `die` and `dead` are the two halves of `RemoveDead`.
    `handle` has the clock and the random bytes of `HandleRegister`. A message
    that does not get there is dropped by the dispatcher: a response, another
    method, a repetition. -/
inductive FlowEvent where
  | connect (conn : Nat)
  | queue (conn : Nat) (msg : SIPMessage)
  | die (conn : Nat)
  | dead (conn : Nat)
  | take
  | handle (now later : Int) (rnd : Bytes)
  | drop
  | datagram (c : RegisterCall)
  | sweep (now : Int)

/-- The Max-Forwards check of `route`: the message it hands on. -/
def forwarded (msg : SIPMessage) : Option SIPMessage :=
  let mf := SIPHeaders.getFirst msg.headers (ascii "Max-Forwards")
  if mf = [] then some msg
  else
    match atoi mf with
    | .error _ => some msg
    | .ok maxFwds =>
      if maxFwds ≤ 0 then none
      else some { msg with headers := SIPHeaders.set msg.headers (ascii "Max-Forwards")
                                        [formatInt (maxFwds - 1).toInt] }

/-- Every flow ID in a registrar that is not empty has a property. -/
def Registrar.FlowIDs (p : Bytes → Prop) (r : Registrar) : Prop :=
  ∀ aor, ∀ b ∈ r.of aor, b.flowID ≠ [] → p b.flowID

namespace Flows

/-- Nobody is connected. -/
def init (passwd : Option PasswordStore) : Flows := ⟨∅, ∅, [], none, .create passwd⟩

/-- Every binding that has a flow ID refers to a flow in the pool. -/
def Refers (s : Flows) : Prop := s.reg.FlowIDs (fun flowID => flowID ∈ s.flows)

/-- No reader is between the two halves of `RemoveDead`. -/
def Settled (s : Flows) : Prop := ∀ e ∈ s.readers.entries, e.2 ≠ .removed

instance (s : Flows) : Decidable s.Settled := inferInstanceAs (Decidable (∀ e ∈ _, _))

/-- A flow has bindings. -/
def Bound (s : Flows) (flowID : Bytes) : Prop := ∃ aor, ∃ b ∈ s.reg.of aor, b.flowID = flowID

instance (s : Flows) (flowID : Bytes) : Decidable (s.Bound flowID) :=
  decidable_of_iff (∃ e ∈ s.reg.bindings.entries, ∃ b ∈ e.2, b.flowID = flowID) (by
    constructor
    · rintro ⟨e, he, b, hb, hid⟩
      have hl : s.reg.bindings.lookup e.1 = some e.2 := AList.mem_lookup_iff.mpr he
      exact ⟨e.1, b, by rw [Registrar.of, hl]; exact hb, hid⟩
    · rintro ⟨aor, b, hb, hid⟩
      rw [Registrar.of] at hb
      cases hl : s.reg.bindings.lookup aor with
      | none =>
        rw [hl] at hb
        contradiction
      | some l =>
        rw [hl] at hb
        exact ⟨⟨aor, l⟩, AList.mem_lookup_iff.mp hl, b, hb, hid⟩)

section

variable [Connections]

/-- `FlowPool.Register`, and the reader starts. -/
def connect (conn : Nat) (s : Flows) : Flows :=
  { s with
    flows := s.flows.insert (Connections.flowKey conn) conn
    readers := s.readers.insert conn .reading }

/-- The message of a reader. -/
def received (conn : Nat) (msg : SIPMessage) : MessageEvent :=
  ⟨msg, ⟨some (Connections.remoteAddr conn), some conn, Connections.flowKey conn⟩⟩

/-- `FlowPool.RemoveDead` under the lock. -/
def die (conn : Nat) (s : Flows) : Flows :=
  { s with
    flows := s.flows.erase (Connections.flowKey conn)
    readers := s.readers.insert conn
      (if Connections.flowKey conn ∈ s.flows then .removed else .returned) }

/-- The call of `onDead`. -/
def dead (conn : Nat) (s : Flows) : Flows :=
  { s with
    readers := s.readers.insert conn .returned
    reg := s.reg.removeBindingsByFlowID (Connections.flowKey conn) }

/-- A reader has removed the flow and has not called `onDead` yet. -/
def Due (s : Flows) (flowID : Bytes) : Prop :=
  ∃ conn, s.readers.lookup conn = some .removed ∧ Connections.flowKey conn = flowID

instance (s : Flows) (flowID : Bytes) : Decidable (s.Due flowID) :=
  decidable_of_iff (∃ e ∈ s.readers.entries, e.2 = .removed ∧ Connections.flowKey e.1 = flowID) (by
    constructor
    · rintro ⟨e, he, hremoved, hid⟩
      exact ⟨e.1, hremoved ▸ AList.mem_lookup_iff.mpr he, hid⟩
    · rintro ⟨conn, hl, hid⟩
      exact ⟨⟨conn, .removed⟩, AList.mem_lookup_iff.mp hl, rfl, hid⟩)

theorem Settled.not_due {s : Flows} (h : s.Settled) (flowID : Bytes) : ¬ s.Due flowID := by
  rintro ⟨conn, hl, _⟩
  exact h ⟨conn, .removed⟩ (AList.mem_lookup_iff.mp hl) rfl

/-- Every binding that has a flow ID refers to a flow in the pool, or is about to
    be removed. -/
def RefersOrDue (s : Flows) : Prop :=
  s.reg.FlowIDs (fun flowID => flowID ∈ s.flows ∨ s.Due flowID)

end

end Flows

/-- The request of a message the dispatcher has taken. -/
def MessageEvent.registerCall (m : MessageEvent) (now later : Int) (rnd : Bytes)
    (req : SIPMessage) : RegisterCall :=
  ⟨now, later, rnd, req, ⟨some .tcp, m.target⟩⟩

/-! ### The flow IDs of a registrar -/

theorem flowID_of_mem_applyContact (now : Int) (callID : Bytes) (cseq default : Int64)
    (flowID : Bytes) (l : List Binding) (x : ParsedContact) (b : Binding)
    (hb : b ∈ applyContact now callID cseq default flowID l x) : b ∈ l ∨ b.flowID = flowID := by
  unfold applyContact at hb
  split at hb
  · exact .inl (mem_of_mem_eraseP hb)
  · rcases mem_upsertKey x.uri l b hb with hold | hnew | ⟨a, _, hchanged⟩
    · exact .inl hold
    · exact .inr (hnew ▸ rfl)
    · exact .inr (hchanged ▸ rfl)

theorem flowID_of_mem_applyContacts (now : Int) (callID : Bytes) (cseq default : Int64)
    (flowID : Bytes) (xs : List ParsedContact) (l : List Binding) (b : Binding)
    (hb : b ∈ xs.foldl (applyContact now callID cseq default flowID) l) :
    b ∈ l ∨ b.flowID = flowID := by
  induction xs generalizing l with
  | nil => exact .inl hb
  | cons x xs ih =>
    rcases ih (applyContact now callID cseq default flowID l x) hb with hold | hnew
    · exact flowID_of_mem_applyContact now callID cseq default flowID l x b hold
    · exact .inr hnew

namespace Registrar.FlowIDs

variable {p q : Bytes → Prop} {r : Registrar}

theorem mono (h : r.FlowIDs p) (hpq : ∀ flowID, p flowID → q flowID) : r.FlowIDs q :=
  fun aor b hb hne => hpq b.flowID (h aor b hb hne)

theorem sweep (h : r.FlowIDs p) (now : Int) : (r.sweep now).FlowIDs p := by
  intro aor b hb hne
  have hof : (r.sweep now).of aor = (r.of aor).filter (fun b => now < b.expires) :=
    Registrar.getD_lookup_retain _ r aor
  rw [hof] at hb
  exact h aor b (mem_filter.mp hb).1 hne

theorem removeBindingsByFlowID (h : r.FlowIDs p) (flowID : Bytes) :
    (r.removeBindingsByFlowID flowID).FlowIDs (fun k => p k ∧ k ≠ flowID) := by
  intro aor b hb hne
  have hof : (r.removeBindingsByFlowID flowID).of aor =
      (r.of aor).filter (fun b => b.flowID ≠ flowID) := Registrar.getD_lookup_retain _ r aor
  rw [hof] at hb
  rcases mem_filter.mp hb with ⟨hold, hkept⟩
  exact ⟨h aor b hold hne, of_decide_eq_true hkept⟩

end Registrar.FlowIDs

section Steps

variable [UnicodeLower] [UnicodeUpper] [HashFunctions] [Connections] [DateFormat]

/-- What one of them does. -/
def flowStep (s : Flows) : FlowEvent → Option Flows
  | .connect conn => if conn ∈ s.readers then none else some (s.connect conn)
  | .queue conn msg =>
    if s.readers.lookup conn = some .reading ∧ s.messages.length < 100 then
      some { s with messages := s.messages ++ [Flows.received conn msg] }
    else none
  | .die conn => if s.readers.lookup conn = some .reading then some (s.die conn) else none
  | .dead conn => if s.readers.lookup conn = some .removed then some (s.dead conn) else none
  | .take =>
    match s.handling, s.messages with
    | none, m :: ms => some { s with messages := ms, handling := some m }
    | _, _ => none
  | .handle now later rnd =>
    match s.handling with
    | none => none
    | some m =>
      match forwarded m.msg with
      | none => none
      | some req =>
        if req.isRequest = true ∧ req.method = .REGISTER then
          some { s with
            handling := none
            reg := (handleRegister (m.registerCall now later rnd req) s.reg).1 }
        else none
  | .drop => if s.handling.isSome then some { s with handling := none } else none
  | .datagram c =>
    if c.tx.target.conn = none then some { s with reg := (handleRegister c s.reg).1 } else none
  | .sweep now => some { s with reg := s.reg.sweep now }

/-- A request is handled while its flow is in the pool or its bindings are still
    to be removed. -/
def FlowOk (s : Flows) : FlowEvent → Prop
  | .handle _ _ _ => ∀ m ∈ s.handling, ∀ conn ∈ m.target.conn,
      Connections.flowKey conn ∈ s.flows ∨ s.Due (Connections.flowKey conn)
  | _ => True

/-- A request is handled while its flow is in the pool, and a flow is removed
    while no binding refers to it. -/
def FlowIdle (s : Flows) : FlowEvent → Prop
  | .handle _ _ _ => ∀ m ∈ s.handling, ∀ conn ∈ m.target.conn, Connections.flowKey conn ∈ s.flows
  | .die conn => ¬ s.Bound (Connections.flowKey conn)
  | _ => True

/-- A binding after a request was there before, or has the flow ID of the
    request. -/
theorem flowID_of_mem_handleRegister (c : RegisterCall) (r : Registrar) (aor : Bytes) (b : Binding)
    (hb : b ∈ (handleRegister c r).1.of aor) : b ∈ r.of aor ∨ b.flowID = c.flowID := by
  rcases handleRegister_cases c r with
    ⟨_, hres⟩ | ⟨_, _, auth, res, _, _, hres⟩ | ⟨aor', callID, auth, r', res, _, _, hup, hres⟩
  · rw [hres] at hb
    exact .inl hb
  · rw [hres] at hb
    exact .inl hb
  · rw [hres] at hb
    cases hup with
    | stale | invalid | queried => exact .inl hb
    | cleared =>
      have hmem : b ∈ if aor = aor' then [] else r.of aor :=
        Registrar.getD_lookup_put r aor' aor [] ▸ hb
      split at hmem
      · cases hmem
      · exact .inl hmem
    | applied bindings _ _ _ hl =>
      have hmem : b ∈ if aor = aor' then bindings else r.of aor :=
        Registrar.getD_lookup_put r aor' aor bindings ▸ hb
      split at hmem
      · rename_i ha
        rw [hl] at hmem
        exact ha ▸ flowID_of_mem_applyContacts _ _ _ _ _ _ _ b hmem
      · exact .inl hmem

omit [UnicodeLower] [UnicodeUpper] [HashFunctions] [DateFormat] in
/-- The flow ID of a request is that of its connection. -/
theorem flowID_of_conn (c : RegisterCall) (p : Bytes → Prop)
    (h : ∀ conn ∈ c.tx.target.conn, p (Connections.flowKey conn)) (hne : c.flowID ≠ []) :
    p c.flowID := by
  unfold RegisterCall.flowID at hne ⊢
  cases hconn : c.tx.target.conn with
  | none =>
    rw [hconn] at hne
    exact absurd rfl hne
  | some conn => exact h conn hconn

theorem Registrar.FlowIDs.handleRegister {p : Bytes → Prop} {r : Registrar} (h : r.FlowIDs p)
    (c : RegisterCall) (hc : ∀ conn ∈ c.tx.target.conn, p (Connections.flowKey conn)) :
    (handleRegister c r).1.FlowIDs p := by
  intro aor b hb hne
  rcases flowID_of_mem_handleRegister c r aor b hb with hold | hnew
  · exact h aor b hold hne
  · rw [hnew] at hne ⊢
    exact flowID_of_conn c p hc hne

/-! ### Steps -/

/-- What a step does to the pool, the readers and the registrar. -/
inductive FlowMove (s : Flows) : FlowEvent → Flows → Prop
  | connect (conn : Nat) (hnew : conn ∉ s.readers) : FlowMove s (.connect conn) (s.connect conn)
  | same (e : FlowEvent) (t : Flows) (hflows : t.flows = s.flows) (hreaders : t.readers = s.readers)
      (hreg : t.reg = s.reg) : FlowMove s e t
  | die (conn : Nat) (hplace : s.readers.lookup conn = some .reading) :
      FlowMove s (.die conn) (s.die conn)
  | dead (conn : Nat) (hplace : s.readers.lookup conn = some .removed) :
      FlowMove s (.dead conn) (s.dead conn)
  | handle (now later : Int) (rnd : Bytes) (m : MessageEvent) (req : SIPMessage)
      (hm : s.handling = some m) :
      FlowMove s (.handle now later rnd) { s with
        handling := none
        reg := (handleRegister (m.registerCall now later rnd req) s.reg).1 }
  | datagram (c : RegisterCall) (hconn : c.tx.target.conn = none) :
      FlowMove s (.datagram c) { s with reg := (handleRegister c s.reg).1 }
  | sweep (now : Int) : FlowMove s (.sweep now) { s with reg := s.reg.sweep now }

theorem flowMove_of_step (s t : Flows) (e : FlowEvent) (h : flowStep s e = some t) :
    FlowMove s e t := by
  cases e with
  | connect conn =>
    simp only [flowStep] at h
    split at h
    · cases h
    · rename_i hnew
      exact some.inj h ▸ .connect conn hnew
  | queue conn msg | take | drop =>
    simp only [flowStep] at h
    split at h
    · exact some.inj h ▸ .same _ _ rfl rfl rfl
    · cases h
  | die conn =>
    simp only [flowStep] at h
    split at h
    · rename_i hplace
      exact some.inj h ▸ .die conn hplace
    · cases h
  | dead conn =>
    simp only [flowStep] at h
    split at h
    · rename_i hplace
      exact some.inj h ▸ .dead conn hplace
    · cases h
  | handle now later rnd =>
    simp only [flowStep] at h
    split at h
    · cases h
    · rename_i m hm
      split at h
      · cases h
      · rename_i req _
        split at h
        · exact some.inj h ▸ .handle now later rnd m req hm
        · cases h
  | datagram c =>
    simp only [flowStep] at h
    split at h
    · rename_i hconn
      exact some.inj h ▸ .datagram c hconn
    · cases h
  | sweep now => exact some.inj h ▸ .sweep now

omit [UnicodeLower] [UnicodeUpper] [HashFunctions] [DateFormat] in
/-- When a reader moves on, the others still have to call `onDead`. -/
theorem due_insert (s t : Flows) (conn : Nat) (place : ReaderPlace) (flowID : Bytes)
    (ht : t.readers = s.readers.insert conn place) (h : s.Due flowID)
    (hne : s.readers.lookup conn = some .removed → Connections.flowKey conn ≠ flowID) :
    t.Due flowID := by
  rcases h with ⟨c, hc, hid⟩
  have hcc : c ≠ conn := fun heq => hne (heq ▸ hc) (heq ▸ hid)
  refine ⟨c, ?_, hid⟩
  rw [ht, AList.lookup_insert_ne hcc]
  exact hc

theorem refersOrDue_step (s : Flows) (e : FlowEvent) (t : Flows) (hs : s.RefersOrDue)
    (hok : FlowOk s e) (hstep : flowStep s e = some t) : t.RefersOrDue := by
  cases flowMove_of_step s t e hstep with
  | connect conn hnew =>
    refine Registrar.FlowIDs.mono hs (fun flowID h => ?_)
    rcases h with hin | hdue
    · exact .inl ((AList.mem_insert s.flows).mpr (.inr hin))
    · refine .inr (due_insert s _ conn _ flowID rfl hdue (fun hl => ?_))
      exact absurd (AList.lookup_isSome.mp (hl ▸ rfl)) hnew
  | same _ _ hflows hreaders hreg =>
    unfold Flows.RefersOrDue Flows.Due
    rw [hreg, hflows, hreaders]
    exact hs
  | die conn hplace =>
    refine Registrar.FlowIDs.mono hs (fun flowID h => ?_)
    rcases h with hin | hdue
    · by_cases hk : flowID = Connections.flowKey conn
      · -- The flow is found, so its bindings will be removed.
        refine .inr ⟨conn, ?_, hk.symm⟩
        rw [Flows.die, AList.lookup_insert, if_pos (hk ▸ hin)]
      · exact .inl (AList.mem_erase.mpr ⟨hk, hin⟩)
    · exact .inr (due_insert s _ conn _ flowID rfl hdue (fun hl => by simp [hplace] at hl))
  | dead conn hplace =>
    refine (hs.removeBindingsByFlowID (Connections.flowKey conn)).mono (fun flowID h => ?_)
    rcases h with ⟨hin | hdue, hk⟩
    · exact .inl hin
    · exact .inr (due_insert s _ conn _ flowID rfl hdue (fun _ => hk.symm))
  | handle now later rnd m req hm =>
    exact hs.handleRegister (m.registerCall now later rnd req) (hok m hm)
  | datagram c hconn =>
    refine hs.handleRegister c (fun conn h => ?_)
    rw [hconn] at h
    contradiction
  | sweep now => exact hs.sweep now

theorem refers_step (s : Flows) (e : FlowEvent) (t : Flows) (hs : s.Refers) (hok : FlowIdle s e)
    (hstep : flowStep s e = some t) : t.Refers := by
  cases flowMove_of_step s t e hstep with
  | connect conn hnew =>
    exact Registrar.FlowIDs.mono hs (fun _ hin => (AList.mem_insert s.flows).mpr (.inr hin))
  | same _ _ hflows hreaders hreg =>
    unfold Flows.Refers
    rw [hreg, hflows]
    exact hs
  | die conn hplace =>
    intro aor b hb hne
    refine AList.mem_erase.mpr ⟨fun hk => hok ⟨aor, b, hb, hk⟩, hs aor b hb hne⟩
  | dead conn hplace =>
    exact (hs.removeBindingsByFlowID (Connections.flowKey conn)).mono (fun _ h => h.1)
  | handle now later rnd m req hm =>
    exact hs.handleRegister (m.registerCall now later rnd req) (hok m hm)
  | datagram c hconn =>
    refine hs.handleRegister c (fun conn h => ?_)
    rw [hconn] at h
    cases h
  | sweep now => exact hs.sweep now

/-- If a request is handled only while its flow is in the pool or its bindings
    are still to be removed, every binding has its flow whenever no `RemoveDead`
    is at work. If a flow is removed only while it has no bindings as well, every
    binding has its flow at every time. -/
theorem flows_refer (passwd : Option PasswordStore) (es : List FlowEvent) (s : Flows) :
    (Run flowStep FlowOk (.init passwd) es s → s.Settled → s.Refers) ∧
    (Run flowStep FlowIdle (.init passwd) es s → s.Refers) := by
  have hempty : (Flows.init passwd).Refers := fun aor b hb => by cases hb
  refine ⟨fun hrun hdone => ?_, fun hrun => hrun.invariant Flows.Refers hempty refers_step⟩
  have hs : s.RefersOrDue := hrun.invariant Flows.RefersOrDue
    (hempty.mono (fun _ hin => .inl hin)) refersOrDue_step
  exact hs.mono (fun flowID h => h.resolve_right (hdone.not_due flowID))

end Steps

/-! ### Sample runs -/

section Decide

variable [Connections]

instance (s : Flows) (e : FlowEvent) : Decidable (FlowOk s e) := by
  cases e <;> unfold FlowOk <;> infer_instance

instance (s : Flows) (e : FlowEvent) : Decidable (FlowIdle s e) := by
  cases e <;> unfold FlowIdle <;> infer_instance

end Decide

/-- The flow of the samples. -/
def sampleFlow : FlowKey where
  sourceIP := ascii "10.0.0.2"
  destIP := ascii "10.0.0.1"
  transport := ascii "TCP"
  sourcePort := 5060
  destPort := 5060

section Phone

open Samples

/-- Every connection has the same addresses: the phone uses its own port again. -/
local instance onePhone : Connections := ⟨fun _ => ascii "10.0.0.2:5060", fun _ => sampleFlow.string⟩

/-- A connection sends a REGISTER request that is handled at once. -/
def registers (conn : Nat) (cseq : Int64) (expires : String) : List FlowEvent :=
  [.queue conn (registerAt 0 "<sip:al@trecs>" "c1" cseq "<sip:a1>" expires).req, .take,
    .handle 0 0 []]

/-- `RemoveDead`. -/
def dies (conn : Nat) : List FlowEvent := [.die conn, .dead conn]

/-- A phone registers, loses its connection, and registers on a new one. -/
def reconnects : List FlowEvent :=
  [.connect 0] ++ registers 0 1 "" ++ dies 0 ++ [.connect 1] ++ registers 1 2 ""

/-- A phone removes its binding before it disconnects. -/
def signsOff : List FlowEvent :=
  [.connect 0] ++ registers 0 1 "" ++ registers 0 2 "0" ++ [.die 0]

/-- The bindings of the sample address. -/
def Flows.sampleBindings (s : Flows) : List Binding := s.reg.of (ascii "sip:al@trecs")

theorem flows_refer_reconnects :
    (∃ s, Run flowStep FlowOk (.init none) reconnects s ∧
      s.sampleBindings ≠ [] ∧ s.Settled ∧ s.Refers) ∧
    (∃ s, Run flowStep FlowIdle (.init none) signsOff s ∧
      ¬ s.Settled ∧ s.Refers) := by
  have hback : ∃ s, Run flowStep FlowOk (.init none) reconnects s ∧
      s.sampleBindings ≠ [] ∧ s.Settled :=
    exists_run_of_exec (by decide +kernel)
  have hoff : ∃ s, Run flowStep FlowIdle (.init none) signsOff s ∧
      ¬ s.Settled :=
    exists_run_of_exec (by decide +kernel)
  rcases hback with ⟨s, hrun, hbound, hdone⟩
  rcases hoff with ⟨s', hrun', hdying⟩
  exact ⟨⟨s, hrun, hbound, hdone,
      (flows_refer none reconnects s).1 hrun hdone⟩,
    ⟨s', hrun', hdying, (flows_refer none signsOff s').2 hrun'⟩⟩

/-- The request waits in the queue until its connection is dead. -/
def waitsTooLong : List FlowEvent :=
  [.connect 0, .queue 0 (registerAt 0 "<sip:al@trecs>" "c1" 1 "<sip:a1>" "").req] ++ dies 0 ++
    [.take, .handle 0 0 []]

/-- The phone connects again, and then the reader of its first connection removes
    the flow. -/
def removedByOther : List FlowEvent :=
  [.connect 0, .connect 1] ++ dies 0 ++ registers 1 1 ""

/-- A connection with a binding dies. -/
def halfRemoved : List FlowEvent := [.connect 0] ++ registers 0 1 "" ++ [.die 0]

/-- A binding of the sample address refers to no flow in the pool. -/
def Flows.Stray (s : Flows) : Prop :=
  ∃ b ∈ s.sampleBindings, b.flowID ≠ [] ∧ b.flowID ∉ s.flows

instance (s : Flows) : Decidable s.Stray := inferInstanceAs (Decidable (∃ b ∈ _, _))

theorem Flows.Stray.not_refers {s : Flows} (h : s.Stray) : ¬ s.Refers := by
  rcases h with ⟨b, hb, hne, hout⟩
  exact fun hs => hout (hs _ b hb hne)

/-- Without the conditions a binding has no flow, twice with no `RemoveDead` at
    work and once between its two halves. -/
theorem flows_refer_fails :
    (∀ es ∈ [waitsTooLong, removedByOther],
      ∃ s, Run flowStep (fun _ _ => True) (.init none) es s ∧
        s.Settled ∧ ¬ s.Refers) ∧
    ∃ s, Run flowStep (fun _ _ => True) (.init none) halfRemoved s ∧
      ¬ s.Refers := by
  have hrun : ∀ es ∈ [waitsTooLong, removedByOther],
      ∃ s, Run flowStep (fun _ _ => True) (.init none) es s ∧
        s.Settled ∧ s.Stray := by
    intro es hes
    simp only [mem_cons, not_mem_nil, or_false] at hes
    rcases hes with rfl | rfl
    · exact exists_run_of_exec (by decide +kernel)
    · exact exists_run_of_exec (by decide +kernel)
  have hhalf : ∃ s, Run flowStep (fun _ _ => True) (.init none) halfRemoved s ∧
      s.Stray :=
    exists_run_of_exec (by decide +kernel)
  refine ⟨fun es hes => ?_, ?_⟩
  · rcases hrun es hes with ⟨s, hs, hdone, hstray⟩
    exact ⟨s, hs, hdone, hstray.not_refers⟩
  · rcases hhalf with ⟨s, hs, hstray⟩
    exact ⟨s, hs, hstray.not_refers⟩

end Phone

end Sip

end Trecs
