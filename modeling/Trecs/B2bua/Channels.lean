import Trecs.B2bua.Exchange
import Trecs.B2bua.TwoLegs

/-!
# Every Channel Is Given Back Once

A channel of a trunk is held by a response loop until it is given back or the
call is stored, then by the stored call until it is removed, and then by the
teardown that removed it until that one gives it back. The count of the trunk is
the number of those who hold one. This is the invariant `Accounted`, an equation
for each trunk.

Four things would break it, and `ChannelsOk` excludes them, each in the step
where it happens. Alice's media address may not resolve once she has been sent
her 200: the loop returns and nobody holds the channel. A call may be stored over
another one with the same Call-ID. Two teardowns may find the same call, each
before the other has removed it. And a session timer that is left over from a
call may find another one with the same Call-ID, on another trunk.

## Main definitions

* `Action.frees`, `TrunkLeg.holds`: What a loop holds.
* `Exchange.ringing`, `Exchange.established`: The calls there are.
* `ChannelsOk`: The condition.
* `Accounted`: The invariant.

## Theorems

* `accounted_step`: Every step that meets the condition keeps the invariant.
* `channels_balance`: The count of a trunk is the number of its calls.
-/

namespace Trecs

open List Option

namespace B2bua

open Proto Sip Trunks

/-! ### Who holds a channel -/

/-- Whether an action hands the channel of its loop on. -/
def Action.frees : Action → Nat
  | .release _ | .storeCall _ | .answer _ => 1
  | _ => 0

/-- The trunk an action names. -/
def Action.trunk? : Action → Option Bytes
  | .release name => some name
  | .storeCall call => some call.trunkName
  | _ => none

/-- The channels a loop holds. It hands its own on before it returns. -/
def TrunkLeg.holds (l : TrunkLeg) : Nat :=
  if l.loop.ending then tally Action.frees l.loop.todo else 1

/-- Those of trunk `t`. -/
def TrunkLeg.holdsOn (t : Bytes) (l : TrunkLeg) : Nat := if l.trunkName = t then l.holds else 0

/-- Whether a stored call is on trunk `t`. -/
def callOn (t : Bytes) (e : Sigma (fun _ : Bytes => Call)) : Nat :=
  if e.2.trunkName = t then 1 else 0

/-- Whether a teardown is about to give a channel of `t` back. -/
def Teardown.owesOn (t : Bytes) (td : Teardown) : Nat := if td.pc = .release t then 1 else 0

/-- Whether a teardown is about to remove the call with Alice's Call-ID `k`. -/
def Teardown.removes (k : Bytes) (td : Teardown) : Nat :=
  match td.pc with
  | .remove call => if call.aliceCallID = k then 1 else 0
  | _ => 0

/-- The loop has not returned. -/
def TrunkLeg.ringsOn (t : Bytes) (l : TrunkLeg) : Nat :=
  match l.loop with
  | .ended => 0
  | _ => if l.trunkName = t then 1 else 0

/-- The calls on trunk `t` that are ringing. -/
def Exchange.ringing (s : Exchange) (t : Bytes) : Nat := tally (TrunkLeg.ringsOn t) s.legs

/-- The calls on trunk `t` that are established. -/
def Exchange.established (s : Exchange) (t : Bytes) : Nat := tally (callOn t) s.store.calls.entries

/-- The channels of `t` that no loop holds. -/
def Exchange.elsewhere (s : Exchange) (t : Bytes) : Nat :=
  s.established t + tally (Teardown.owesOn t) s.teardowns

/-! ### The condition -/

/-- The next action of the loop of a leg. -/
def TrunkLeg.next? (l : TrunkLeg) : Option Action := l.loop.todo.head?

/-- An answer finds that Alice's media address resolves, and a call is not
    stored over another. -/
def ActionOk (s : Exchange) (env : LoopEnv) : Action → Prop
  | .answer _ => env.resolves = true
  | .storeCall call => s.store.calls.lookup call.aliceCallID = none
  | _ => True

instance (s : Exchange) (env : LoopEnv) : (a : Action) → Decidable (ActionOk s env a)
  | .answer _ => inferInstanceAs (Decidable (_ = _))
  | .storeCall _ => inferInstanceAs (Decidable (_ = _))
  | .respond _ | .sendReliable _ | .sendBob _ | .cancelPRACK | .release _ | .sessionTimer _ _ _
  | .removeEarly _ => inferInstanceAs (Decidable True)

/-- A teardown that looks a call up is the only one, and a session timer finds a
    call on its own trunk. -/
def LookupOk (s : Exchange) (td : Teardown) : Prop :=
  td.pc = .lookup → ∀ call ∈ s.store.get td.callID,
    (∀ td' ∈ s.teardowns, td'.removes call.aliceCallID = 0) ∧
      ∀ name ∈ td.timerOf, name = call.trunkName

instance (s : Exchange) (td : Teardown) : Decidable (LookupOk s td) :=
  inferInstanceAs (Decidable (_ → ∀ call ∈ s.store.get td.callID, _))

/-- What a step must meet for the channels to be accounted for. -/
def ChannelsOk (s : Exchange) : ExchangeEvent → Prop
  | .act i env => ∀ l ∈ s.legs[i]?, ∀ a ∈ l.next?, ActionOk s env a
  | .teardown j _ => ∀ td ∈ s.teardowns[j]?, LookupOk s td
  | _ => True

instance (s : Exchange) (e : ExchangeEvent) : Decidable (ChannelsOk s e) := by
  cases e <;> unfold ChannelsOk <;> infer_instance

/-! ### The invariant -/

/-- A loop works for its own trunk, which has a name, and hands its channel on
    only when it is about to return. -/
structure TrunkLeg.Sound (l : TrunkLeg) : Prop where
  named : l.trunkName ≠ []
  own : ∀ a ∈ l.loop.todo, ∀ name ∈ a.trunk?, name = l.trunkName
  quiet : l.loop.ending = false → tally Action.frees l.loop.todo = 0
  peer : ∀ st ∈ l.started, ∃ bobReqURI sessionExpires,
    st.peer = .trunk l.trunkName bobReqURI sessionExpires

/-- Every channel is held once. -/
structure Accounted (s : Exchange) : Prop where
  balance : ∀ t, s.mgr.active t = tally (TrunkLeg.holdsOn t) s.legs + s.elsewhere t
  history : ∀ t, s.acquired.count t = s.released.count t + s.mgr.active t
  sound : ∀ l ∈ s.legs, l.Sound
  keyed : ∀ k call, s.store.calls.lookup k = some call →
    call.aliceCallID = k ∧ call.trunkName ≠ []
  removing : ∀ td ∈ s.teardowns, ∀ call, td.pc = .remove call →
    s.store.calls.lookup call.aliceCallID = some call ∧
      ∀ name ∈ td.timerOf, name = call.trunkName
  apart : ∀ k, tally (Teardown.removes k) s.teardowns ≤ 1

theorem TrunkLeg.holds_of_ending (l : TrunkLeg) (h : l.loop.ending = true) :
    l.holds = tally Action.frees l.loop.todo := by
  rw [TrunkLeg.holds, if_pos h]

theorem TrunkLeg.holds_of_live (l : TrunkLeg) (h : l.loop.ending = false) : l.holds = 1 := by
  rw [TrunkLeg.holds, h, if_neg Bool.false_ne_true]

/-- A loop that is about to hand its channel on will return. -/
theorem TrunkLeg.Sound.last_eq_true {l : TrunkLeg} (h : l.Sound) {a : Action} {todo : List Action}
    {last : Bool} (hl : l.loop = .running (a :: todo) last) (hfrees : a.frees = 1) :
    last = true := by
  cases last with
  | true => rfl
  | false =>
    have hq := h.quiet (by rw [hl]; rfl)
    rw [hl, Loop.todo, tally_cons] at hq
    omega

/-- A teardown whose timer runs, or that is about to look its call up. -/
def Teardown.Idle (td : Teardown) : Prop := td.pc = .waiting ∨ td.pc = .lookup

theorem Teardown.Idle.holds_nothing {td : Teardown} (h : td.Idle) :
    (∀ t, td.owesOn t = 0) ∧ (∀ k, td.removes k = 0) ∧ ∀ call, td.pc ≠ .remove call := by
  rcases td with ⟨_, _, _⟩
  rcases h with rfl | rfl <;> exact ⟨fun _ => rfl, fun _ => rfl, fun _ hc => nomatch hc⟩

theorem accounted_start (trunks : AList (fun _ : Bytes => Trunk)) :
    Accounted (Exchange.start trunks) where
  balance _ := rfl
  history _ := rfl
  sound _ hl := by cases hl
  keyed _ _ h := by cases h
  removing _ htd := by cases htd
  apart _ := Nat.zero_le 1

namespace Accounted

variable {s : Exchange}

/-- A leg goes on and holds what it held. -/
theorem setLeg (hs : Accounted s) (i : Nat) (l l' : TrunkLeg) (hi : s.legs[i]? = some l)
    (hname : l'.trunkName = l.trunkName) (hholds : l'.holds = l.holds) (hsound : l'.Sound) :
    Accounted { s with legs := s.legs.set i l' } := by
  refine ⟨?_, hs.history, ?_, hs.keyed, hs.removing, hs.apart⟩
  · intro t
    have hset := tally_set (TrunkLeg.holdsOn t) s.legs i l l' hi
    have hsame : l'.holdsOn t = l.holdsOn t := by
      rw [TrunkLeg.holdsOn, TrunkLeg.holdsOn, hname, hholds]
    have hbal := hs.balance t
    change s.mgr.active t = tally (TrunkLeg.holdsOn t) (s.legs.set i l') + s.elsewhere t
    omega
  · intro m hm
    rcases mem_or_eq_of_mem_set hm with h | h
    · exact hs.sound m h
    · rw [h]
      exact hsound

/-- A loop that held a channel starts to do what hands it on. -/
theorem leave (hs : Accounted s) (i : Nat) (l : TrunkLeg) (todo : List Action)
    (hi : s.legs[i]? = some l) (hlive : l.loop.ending = false)
    (hfrees : tally Action.frees todo = 1)
    (hown : ∀ a ∈ todo, ∀ name ∈ a.trunk?, name = l.trunkName) :
    Accounted (s.setLoop i l (.running todo true)) := by
  have hl := hs.sound l (mem_of_getElem? hi)
  refine hs.setLeg i l _ hi rfl ?_ ⟨hl.named, hown, fun h => Bool.noConfusion h, hl.peer⟩
  rw [l.holds_of_live hlive]
  exact hfrees

/-- A loop that holds a channel goes on without handing it on. -/
theorem listen (hs : Accounted s) (i : Nat) (l : TrunkLeg) (loop : Loop)
    (hi : s.legs[i]? = some l) (hlive : l.loop.ending = false) (hlive' : loop.ending = false)
    (hfrees : tally Action.frees loop.todo = 0)
    (hown : ∀ a ∈ loop.todo, ∀ name ∈ a.trunk?, name = l.trunkName) :
    Accounted (s.setLoop i l loop) := by
  have hl := hs.sound l (mem_of_getElem? hi)
  refine hs.setLeg i l _ hi rfl ?_ ⟨hl.named, hown, fun _ => hfrees, hl.peer⟩
  rw [l.holds_of_live hlive]
  exact TrunkLeg.holds_of_live _ hlive'

/-- Nothing but the messages, the CANCELs and the ringing calls changes. -/
theorem frame (hs : Accounted s) (t : Exchange) (hmgr : t.mgr = s.mgr)
    (hcalls : t.store.calls = s.store.calls) (hlegs : t.legs = s.legs)
    (htds : t.teardowns = s.teardowns) (hacq : t.acquired = s.acquired)
    (hrel : t.released = s.released) : Accounted t := by
  refine ⟨?_, ?_, ?_, ?_, ?_, ?_⟩
  · intro name
    rw [Exchange.elsewhere, Exchange.established, hmgr, hcalls, hlegs, htds]
    exact hs.balance name
  · rw [hacq, hrel, hmgr]
    exact hs.history
  · rw [hlegs]
    exact hs.sound
  · rw [hcalls]
    exact hs.keyed
  · rw [htds, hcalls]
    exact hs.removing
  · rw [htds]
    exact hs.apart

/-- The loop is done with an action that hands nothing on. -/
theorem skip (hs : Accounted s) (i : Nat) (l : TrunkLeg) (a : Action) (todo : List Action)
    (last : Bool) (hi : s.legs[i]? = some l) (hl : l.loop = .running (a :: todo) last)
    (hfrees : a.frees = 0) : Accounted (s.setLoop i l (.running todo last)) := by
  have hsound := hs.sound l (mem_of_getElem? hi)
  have htodo : l.loop.todo = a :: todo := by rw [hl]; rfl
  have hending : l.loop.ending = last := by rw [hl]; rfl
  have htally : tally Action.frees l.loop.todo = tally Action.frees todo := by
    rw [htodo, tally_cons, hfrees, Nat.zero_add]
  refine hs.setLeg i l _ hi rfl ?_ ⟨hsound.named, ?_, ?_, hsound.peer⟩
  · simp only [TrunkLeg.holds, hending, htally]
    rfl
  · intro b hb
    refine hsound.own b ?_
    rw [htodo]
    exact mem_cons_of_mem a hb
  · intro hlast
    rw [← hending] at hlast
    have := hsound.quiet hlast
    rw [htally] at this
    exact this

/-- A channel that somebody holds is given back. -/
theorem released (hs : Accounted s) (name t : Bytes)
    (hpos : (if name = t then 1 else 0) ≤ s.mgr.active t) :
    (s.release name).mgr.active t + (if name = t then 1 else 0) = s.mgr.active t ∧
      s.acquired.count t = (s.release name).released.count t + (s.release name).mgr.active t := by
  have hhist := hs.history t
  have hactive := TrunkManager.active_releaseChannel s.mgr name t
  have hcount : (s.release name).released.count t =
      s.released.count t + if name = t then 1 else 0 := by
    rw [Exchange.release, count_append, count_singleton]
    simp
  change (s.mgr.releaseChannel name).active t + _ = _ ∧
    _ = _ + (s.mgr.releaseChannel name).active t
  omega

/-- The loop hands its channel on: what the loops hold is less by one, and the
    loop stays sound. -/
theorem handOn (hs : Accounted s) (i : Nat) (l : TrunkLeg) (a : Action) (name : Bytes)
    (todo : List Action) (last : Bool) (hi : s.legs[i]? = some l)
    (hl : l.loop = .running (a :: todo) last) (hfrees : a.frees = 1) (hname : a.trunk? = some name) :
    (∀ t, tally (TrunkLeg.holdsOn t) (s.legs.set i { l with loop := .running todo last }) +
      (if name = t then 1 else 0) = tally (TrunkLeg.holdsOn t) s.legs) ∧
    (∀ m ∈ s.legs.set i { l with loop := .running todo last }, m.Sound) ∧ name ≠ [] := by
  have hsound := hs.sound l (mem_of_getElem? hi)
  have htodo : l.loop.todo = a :: todo := by rw [hl]; rfl
  have hown : name = l.trunkName :=
    hsound.own a (by rw [htodo]; exact mem_cons_self) name hname
  have hlast := hsound.last_eq_true hl hfrees
  have hholds : l.holds = 1 + tally Action.frees todo := by
    rw [l.holds_of_ending (by rw [hl]; exact hlast), htodo, tally_cons, hfrees]
  refine ⟨?_, ?_, ?_⟩
  · intro t
    have hset := tally_set (TrunkLeg.holdsOn t) s.legs i l { l with loop := .running todo last } hi
    have hleft : TrunkLeg.holdsOn t { l with loop := .running todo last } +
        (if name = t then 1 else 0) = l.holdsOn t := by
      rw [TrunkLeg.holdsOn, TrunkLeg.holdsOn, hholds, hown, hlast]
      split
      · rw [Nat.add_comm]
        rfl
      · rfl
    omega
  · intro m hm
    rcases mem_or_eq_of_mem_set hm with h | h
    · exact hs.sound m h
    · rw [h]
      refine ⟨hsound.named, fun b hb => hsound.own b ?_, ?_, hsound.peer⟩
      · rw [htodo]
        exact mem_cons_of_mem _ hb
      · intro hend
        rw [hlast] at hend
        cases hend
  · rw [hown]
    exact hsound.named

/-- The loop gives its channel back. -/
theorem giveBack (hs : Accounted s) (i : Nat) (l : TrunkLeg) (name : Bytes) (todo : List Action)
    (last : Bool) (hi : s.legs[i]? = some l)
    (hl : l.loop = .running (.release name :: todo) last) :
    Accounted ((s.release name).setLoop i l (.running todo last)) := by
  rcases hs.handOn i l _ name todo last hi hl rfl rfl with ⟨hless, hsound, -⟩
  have hpos : ∀ t, (if name = t then 1 else 0) ≤ s.mgr.active t := by
    intro t
    have := hless t
    have := hs.balance t
    omega
  refine ⟨?_, fun t => (hs.released name t (hpos t)).2, hsound, hs.keyed, hs.removing, hs.apart⟩
  intro t
  have hrel := (hs.released name t (hpos t)).1
  have hset := hless t
  have hbal := hs.balance t
  change (s.release name).mgr.active t = tally _ (s.legs.set i _) + s.elsewhere t
  omega

/-- The loop leaves its channel to the call it stores. -/
theorem keep (hs : Accounted s) (i : Nat) (l : TrunkLeg) (call : Call) (todo : List Action)
    (last : Bool) (hi : s.legs[i]? = some l) (hl : l.loop = .running (.storeCall call :: todo) last)
    (hnew : s.store.calls.lookup call.aliceCallID = none) :
    Accounted (Exchange.setLoop { s with store := s.store.store call } i l
      (.running todo last)) := by
  rcases hs.handOn i l _ call.trunkName todo last hi hl rfl rfl with ⟨hless, hsound, hnamed⟩
  refine ⟨?_, hs.history, hsound, ?_, ?_, hs.apart⟩
  · intro t
    have hset := hless t
    have hbal := hs.balance t
    have hins : tally (callOn t) (s.store.calls.insert call.aliceCallID call).entries =
        (if call.trunkName = t then 1 else 0) + s.established t :=
      tally_insert (callOn t) s.store.calls call.aliceCallID call hnew
    change s.mgr.active t = tally _ (s.legs.set i _) +
      (tally (callOn t) (s.store.calls.insert call.aliceCallID call).entries +
        tally (Teardown.owesOn t) s.teardowns)
    rw [Exchange.elsewhere] at hbal
    omega
  · intro k c hc
    change (s.store.calls.insert call.aliceCallID call).lookup k = some c at hc
    by_cases hk : k = call.aliceCallID
    · subst hk
      rw [AList.lookup_insert] at hc
      cases hc
      exact ⟨rfl, hnamed⟩
    · rw [AList.lookup_insert_ne hk] at hc
      exact hs.keyed k c hc
  · intro td htd c hc
    rcases hs.removing td htd c hc with ⟨hlook, htimer⟩
    refine ⟨?_, htimer⟩
    have hk : c.aliceCallID ≠ call.aliceCallID := by
      intro heq
      rw [heq, hnew] at hlook
      cases hlook
    change (s.store.calls.insert call.aliceCallID call).lookup c.aliceCallID = some c
    rw [AList.lookup_insert_ne hk]
    exact hlook

/-- A session timer starts, or a BYE arrives. -/
theorem addTeardown (hs : Accounted s) (td : Teardown) (hidle : td.Idle) :
    Accounted { s with teardowns := s.teardowns ++ [td] } := by
  rcases hidle.holds_nothing with ⟨howes, hremoves, hpc⟩
  refine ⟨?_, hs.history, hs.sound, hs.keyed, ?_, ?_⟩
  · intro t
    have hbal := hs.balance t
    have ht := howes t
    change s.mgr.active t = tally _ s.legs + (s.established t +
      tally (Teardown.owesOn t) (s.teardowns ++ [td]))
    rw [Exchange.elsewhere] at hbal
    rw [tally_append, tally_cons, tally_nil]
    omega
  · intro td' htd' call hc
    rcases mem_append.mp htd' with h | h
    · exact hs.removing td' h call hc
    · rw [mem_singleton.mp h] at hc
      exact absurd hc (hpc call)
  · intro k
    have := hs.apart k
    have hk := hremoves k
    change tally (Teardown.removes k) (s.teardowns ++ [td]) ≤ 1
    rw [tally_append, tally_cons, tally_nil]
    omega

/-- A teardown that holds nothing goes on, or returns, still holding nothing. -/
theorem moveTeardown (hs : Accounted s) (j : Nat) (td : Teardown) (o : Option Teardown)
    (hj : s.teardowns[j]? = some td) (hidle : td.Idle) (hidle' : ∀ td' ∈ o, td'.Idle) :
    Accounted { s with teardowns := resumeAt s.teardowns j o } := by
  have hzero : ∀ f : Teardown → Nat, (∀ td' ∈ o, f td' = 0) → (o.map f).getD 0 = 0 := by
    intro f hf
    cases o with
    | none => rfl
    | some td' => exact hf td' rfl
  refine ⟨?_, hs.history, hs.sound, hs.keyed, ?_, ?_⟩
  · intro t
    have hbal := hs.balance t
    have ht := hidle.holds_nothing.1 t
    have hres := tally_resumeAt (Teardown.owesOn t) s.teardowns j td o hj
    rw [hzero _ (fun td' h => (hidle' td' h).holds_nothing.1 t)] at hres
    change s.mgr.active t = tally _ s.legs + (s.established t +
      tally (Teardown.owesOn t) (resumeAt s.teardowns j o))
    rw [Exchange.elsewhere] at hbal
    omega
  · intro td' htd' call hc
    rcases mem_resumeAt s.teardowns j o td' htd' with h | h
    · exact hs.removing td' h call hc
    · exact absurd hc ((hidle' td' h).holds_nothing.2.2 call)
  · intro k
    have := hs.apart k
    have hres := tally_resumeAt (Teardown.removes k) s.teardowns j td o hj
    rw [hzero _ (fun td' h => (hidle' td' h).holds_nothing.2.1 k)] at hres
    change tally (Teardown.removes k) (resumeAt s.teardowns j o) ≤ 1
    omega

end Accounted

theorem get_eq_some {s : Exchange} (hs : Accounted s) (callID : Bytes) (call : Call)
    (h : s.store.get callID = some call) : s.store.calls.lookup call.aliceCallID = some call := by
  unfold Store.get at h
  split at h
  · rename_i c hc
    rw [some.injEq] at h
    rw [h] at hc
    rw [(hs.keyed callID call hc).1]
    exact hc
  · split at h
    · rename_i aid _
      split at h
      · rw [(hs.keyed aid call h).1]
        exact h
      · cases h
    · cases h

namespace Accounted

variable {s : Exchange}

/-- A teardown has found its call. -/
theorem find (hs : Accounted s) (h : Handler) (rnd : Option Bytes) (j : Nat) (td : Teardown)
    (call : Call) (hj : s.teardowns[j]? = some td) (hpc : td.pc = .lookup)
    (hget : s.store.get td.callID = some call) (hok : LookupOk s td) :
    Accounted { s with
      sent := s.sent ++ [td.bye h rnd call]
      teardowns := s.teardowns.set j ⟨td.callID, td.timerOf, .remove call⟩ } := by
  have hlook := get_eq_some hs td.callID call hget
  rcases hok hpc call hget with ⟨halone, htimer⟩
  refine ⟨?_, hs.history, hs.sound, hs.keyed, ?_, ?_⟩
  · intro t
    have hbal := hs.balance t
    have hset := tally_set (Teardown.owesOn t) s.teardowns j td
      ⟨td.callID, td.timerOf, .remove call⟩ hj
    have hold : td.owesOn t = 0 := Teardown.Idle.holds_nothing (.inr hpc) |>.1 t
    have hnew : Teardown.owesOn t ⟨td.callID, td.timerOf, .remove call⟩ = 0 := rfl
    change s.mgr.active t = tally _ s.legs + (s.established t +
      tally (Teardown.owesOn t) (s.teardowns.set j _))
    rw [Exchange.elsewhere] at hbal
    omega
  · intro td' htd' c hc
    rcases mem_or_eq_of_mem_set htd' with h' | h'
    · exact hs.removing td' h' c hc
    · rw [h'] at hc ⊢
      rw [← TeardownPoint.remove.inj hc]
      exact ⟨hlook, htimer⟩
  · intro k
    have hap := hs.apart k
    have hset := tally_set (Teardown.removes k) s.teardowns j td
      ⟨td.callID, td.timerOf, .remove call⟩ hj
    have hnew : Teardown.removes k ⟨td.callID, td.timerOf, .remove call⟩ =
        if call.aliceCallID = k then 1 else 0 := rfl
    change tally (Teardown.removes k) (s.teardowns.set j _) ≤ 1
    by_cases hk : call.aliceCallID = k
    · -- nobody else was about to remove this call
      have hnone := tally_eq_zero (Teardown.removes k) s.teardowns (by rw [← hk]; exact halone)
      rw [hnew, if_pos hk] at hset
      omega
    · rw [hnew, if_neg hk] at hset
      omega

/-- A teardown removes its call, and holds its channel from now on. -/
theorem take (hs : Accounted s) (j : Nat) (td : Teardown) (call : Call)
    (hj : s.teardowns[j]? = some td) (hpc : td.pc = .remove call) :
    Accounted { s with
      store := s.store.remove call.aliceCallID
      teardowns := s.teardowns.set j ⟨td.callID, td.timerOf, .release call.trunkName⟩ } := by
  rcases hs.removing td (mem_of_getElem? hj) call hpc with ⟨hlook, -⟩
  have hcalls : (s.store.remove call.aliceCallID).calls = s.store.calls.erase call.aliceCallID := by
    simp [Store.remove, hlook]
  have hsub : ∀ k c, (s.store.calls.erase call.aliceCallID).lookup k = some c →
      s.store.calls.lookup k = some c := by
    intro k c hc
    by_cases hk : k = call.aliceCallID
    · rw [hk, AList.lookup_erase] at hc
      cases hc
    · rw [AList.lookup_erase_ne hk] at hc
      exact hc
  have hremoves : ∀ k, tally (Teardown.removes k)
        (s.teardowns.set j ⟨td.callID, td.timerOf, .release call.trunkName⟩) +
      (if call.aliceCallID = k then 1 else 0) = tally (Teardown.removes k) s.teardowns := by
    intro k
    have hset := tally_set (Teardown.removes k) s.teardowns j td
      ⟨td.callID, td.timerOf, .release call.trunkName⟩ hj
    have hold : td.removes k = if call.aliceCallID = k then 1 else 0 := by
      rw [Teardown.removes, hpc]
    have hnew : Teardown.removes k ⟨td.callID, td.timerOf, .release call.trunkName⟩ = 0 := rfl
    omega
  refine ⟨?_, hs.history, hs.sound, ?_, ?_, ?_⟩
  · intro t
    have hbal := hs.balance t
    have hset := tally_set (Teardown.owesOn t) s.teardowns j td
      ⟨td.callID, td.timerOf, .release call.trunkName⟩ hj
    have hold : td.owesOn t = 0 := by
      rw [Teardown.owesOn, hpc, if_neg (by simp only [reduceCtorEq, not_false_eq_true])]
    have hnew : Teardown.owesOn t ⟨td.callID, td.timerOf, .release call.trunkName⟩ =
        if call.trunkName = t then 1 else 0 := by
      simp [Teardown.owesOn]
    have herase : tally (callOn t) (s.store.calls.erase call.aliceCallID).entries +
        (if call.trunkName = t then 1 else 0) = s.established t :=
      tally_erase (callOn t) s.store.calls call.aliceCallID call hlook
    change s.mgr.active t = tally _ s.legs +
      (tally (callOn t) (s.store.remove call.aliceCallID).calls.entries +
        tally (Teardown.owesOn t) (s.teardowns.set j _))
    rw [Exchange.elsewhere] at hbal
    rw [hcalls]
    omega
  · intro k c hc
    rw [hcalls] at hc
    exact hs.keyed k c (hsub k c hc)
  · intro td' htd' c hc
    -- the others are about to remove calls with another Call-ID
    have hother : td'.removes call.aliceCallID ≤ tally (Teardown.removes call.aliceCallID)
        (s.teardowns.set j ⟨td.callID, td.timerOf, .release call.trunkName⟩) :=
      le_tally (Teardown.removes call.aliceCallID) _ td' htd'
    have hcount := hremoves call.aliceCallID
    have hap := hs.apart call.aliceCallID
    rw [if_pos rfl] at hcount
    have hne : c.aliceCallID ≠ call.aliceCallID := by
      intro heq
      have hone : td'.removes call.aliceCallID = 1 := by
        rw [Teardown.removes, hc]
        exact if_pos heq
      omega
    rcases mem_or_eq_of_mem_set htd' with h' | h'
    · rcases hs.removing td' h' c hc with ⟨hc', htimer⟩
      refine ⟨?_, htimer⟩
      change (s.store.remove call.aliceCallID).calls.lookup c.aliceCallID = some c
      rw [hcalls, AList.lookup_erase_ne hne]
      exact hc'
    · rw [h'] at hc
      cases hc
  · intro k
    have := hremoves k
    have := hs.apart k
    change tally (Teardown.removes k) (s.teardowns.set j _) ≤ 1
    omega

/-- A teardown gives the channel of its call back. -/
theorem finish (hs : Accounted s) (j : Nat) (td : Teardown) (name : Bytes)
    (hj : s.teardowns[j]? = some td) (hpc : td.pc = .release name) :
    Accounted { s.release name with teardowns := s.teardowns.eraseIdx j } := by
  have howes : ∀ t, tally (Teardown.owesOn t) (s.teardowns.eraseIdx j) +
      (if name = t then 1 else 0) = tally (Teardown.owesOn t) s.teardowns := by
    intro t
    have herase := tally_eraseIdx (Teardown.owesOn t) s.teardowns j td hj
    have hold : td.owesOn t = if name = t then 1 else 0 := by
      simp [Teardown.owesOn, hpc]
    omega
  have hpos : ∀ t, (if name = t then 1 else 0) ≤ s.mgr.active t := by
    intro t
    have := howes t
    have hbal := hs.balance t
    rw [Exchange.elsewhere] at hbal
    omega
  refine ⟨?_, fun t => (hs.released name t (hpos t)).2, hs.sound, hs.keyed, ?_, ?_⟩
  · intro t
    have hrel := (hs.released name t (hpos t)).1
    have hset := howes t
    have hbal := hs.balance t
    change (s.release name).mgr.active t = tally _ s.legs + (s.established t +
      tally (Teardown.owesOn t) (s.teardowns.eraseIdx j))
    rw [Exchange.elsewhere] at hbal
    omega
  · intro td' htd' call hc
    exact hs.removing td' (mem_of_mem_eraseIdx htd') call hc
  · intro k
    have := tally_eraseIdx (Teardown.removes k) s.teardowns j td hj
    have := hs.apart k
    change tally (Teardown.removes k) (s.teardowns.eraseIdx j) ≤ 1
    omega

/-- One step of a teardown. -/
theorem teardown (hs : Accounted s) (h : Handler) (rnd : Option Bytes) (j : Nat) (td : Teardown)
    (o : Exchange × Option TeardownPoint) (hj : s.teardowns[j]? = some td) (hok : LookupOk s td)
    (hstep : s.teardownStep h rnd td = some o) :
    Accounted { o.1 with
      teardowns := resumeAt s.teardowns j (o.2.map (Teardown.mk td.callID td.timerOf)) } := by
  cases hpc : td.pc with
  | waiting =>
    simp only [Exchange.teardownStep, hpc, reduceCtorEq] at hstep
  | lookup =>
    cases hget : s.store.get td.callID with
    | none =>
      simp only [Exchange.teardownStep, hpc, hget] at hstep
      cases hstep
      exact hs.moveTeardown j td none hj (.inr hpc) (by intros; contradiction)
    | some call =>
      simp only [Exchange.teardownStep, hpc, hget] at hstep
      cases hstep
      exact hs.find h rnd j td call hj hpc hget hok
  | remove call =>
    rcases hs.removing td (mem_of_getElem? hj) call hpc with ⟨hlook, htimer⟩
    have hname : td.timerOf.getD call.trunkName = call.trunkName := by
      cases ht : td.timerOf with
      | none => rfl
      | some name => exact htimer name ht
    have hnamed := (hs.keyed _ _ hlook).2
    simp only [Exchange.teardownStep, hpc, hname, hnamed, and_false, if_false,
      some.injEq] at hstep
    rw [← hstep]
    exact hs.take j td call hj hpc
  | release name =>
    simp only [Exchange.teardownStep, hpc] at hstep
    cases hstep
    exact hs.finish j td name hj hpc

end Accounted

/-! ### What a loop sets out to do -/

/-- The actions all belong to trunk `name`, and hand `n` channels on. -/
def FreesFor (name : Bytes) (n : Nat) (todo : List Action) : Prop :=
  tally Action.frees todo = n ∧ ∀ a ∈ todo, ∀ t ∈ a.trunk?, t = name

namespace FreesFor

variable {name : Bytes} {n : Nat} {a : Action} {l : List Action}

theorem nil (name : Bytes) : FreesFor name 0 [] :=
  ⟨rfl, fun _ ha => nomatch ha⟩

theorem cons (ha : ∀ t ∈ a.trunk?, t = name) (h : FreesFor name n l) :
    FreesFor name (a.frees + n) (a :: l) := by
  refine ⟨by rw [tally_cons, h.1], ?_⟩
  intro b hb
  rcases mem_cons.mp hb with hl | hl
  · rw [hl]
    exact ha
  · exact h.2 b hl

theorem idle (hf : a.frees = 0) (hn : a.trunk? = none) (h : FreesFor name n l) :
    FreesFor name n (a :: l) := by
  have hc : FreesFor name (a.frees + n) (a :: l) :=
    cons (fun t ht => absurd ht (by rw [hn]; exact not_mem_none t)) h
  rw [hf, Nat.zero_add] at hc
  exact hc

theorem hand (hf : a.frees = 1) (hn : ∀ t ∈ a.trunk?, t = name) (h : FreesFor name 0 l) :
    FreesFor name 1 (a :: l) := by
  have hc : FreesFor name (a.frees + 0) (a :: l) := cons hn h
  rw [hf] at hc
  exact hc

/-- The loop gives the channel back, answers Alice and returns. -/
theorem release (name : Bytes) (h : FreesFor name 0 l) : FreesFor name 1 (.release name :: l) :=
  hand rfl (fun _ ht => (some.inj ht).symm) h

end FreesFor

/-- A reaction lets the loop wait again and hands nothing on, or lets it return
    and hands its channel on. -/
def Reaction.FreesFor (name : Bytes) (r : Reaction) : Prop :=
  B2bua.FreesFor name (if r.last then 1 else 0) r.todo

section Reactions

variable (cc : CallCtx) (name uri : Bytes) (expires : Int64)

theorem freesFor_deferred : FreesFor name 0 ((Peer.trunk name uri expires).deferred cc) :=
  .idle rfl rfl (.nil name)

theorem freesFor_onSendFailed :
    FreesFor name 1 ((Peer.trunk name uri expires).onSendFailed cc).todo :=
  .release name (.idle rfl rfl (.idle rfl rfl (.nil name)))

theorem freesFor_onDone : FreesFor name 1 ((Peer.trunk name uri expires).onDone cc).todo :=
  .release name (freesFor_deferred cc name uri expires)

theorem freesFor_onError : FreesFor name 1 ((Peer.trunk name uri expires).onError cc).todo :=
  .release name (.idle rfl rfl (freesFor_deferred cc name uri expires))

theorem freesFor_onResponse [UnicodeLower] (h : Handler) (env : LoopEnv) (resp : SIPMessage) :
    ((Peer.trunk name uri expires).onResponse h cc env resp).FreesFor name := by
  have hdef := freesFor_deferred cc name uri expires
  unfold Peer.onResponse
  dsimp only
  split
  · exact .idle rfl rfl (.nil name)
  · split
    · exact .hand rfl (by intros; contradiction) hdef
    · split
      · exact .release name (.idle rfl rfl hdef)
      · exact .nil name

/-- An answer hands the channel on, to the call or back to the trunk. -/
theorem freesFor_answerActions [SdpCodec] (h : Handler) (env : LoopEnv) (canceled : Bool)
    (resp : SIPMessage) (hres : env.resolves = true) :
    FreesFor name 1 ((Peer.trunk name uri expires).answerActions h cc env canceled resp) := by
  have hdiscard : FreesFor name 1 (Peer.trunk name uri expires).discard := .release name (.nil name)
  unfold Peer.answerActions
  split
  · exact hdiscard
  · split
    · exact hdiscard
    · split
      · exact hdiscard
      · rw [hres, Bool.not_true, Bool.and_false, if_neg Bool.false_ne_true]
        refine .idle rfl rfl (.idle rfl rfl (.hand rfl ?_ ?_))
        · exact fun t ht => (some.inj ht).symm
        · split
          · exact .idle rfl rfl (.nil name)
          · exact .nil name

end Reactions

/-! ### Runs -/

namespace Accounted

variable {s : Exchange}

/-- One action of a loop. -/
theorem perform [SdpCodec] (hs : Accounted s) (h : Handler) (env : LoopEnv) (i : Nat)
    (l : TrunkLeg) (a : Action) (todo : List Action) (last : Bool) (o : Exchange × List Action)
    (hi : s.legs[i]? = some l) (hl : l.loop = .running (a :: todo) last) (hok : ActionOk s env a)
    (hp : s.perform h env l a = some o) :
    Accounted (o.1.setLoop i l (.running (o.2 ++ todo) last)) := by
  cases a with
  | respond msg | sendReliable msg | sendBob msg =>
    cases hp
    exact (hs.frame { s with sent := s.sent ++ [msg] } rfl rfl rfl rfl rfl rfl).skip i l _ todo
      last hi hl rfl
  | cancelPRACK =>
    cases hp
    exact hs.skip i l _ todo last hi hl rfl
  | release name =>
    cases hp
    exact hs.giveBack i l name todo last hi hl
  | answer resp =>
    have hsound := hs.sound l (mem_of_getElem? hi)
    rcases map_eq_some_iff.mp hp with ⟨st, hst, ho⟩
    rcases hsound.peer st hst with ⟨uri, expires, hpeer⟩
    have hfrees := freesFor_answerActions st.cc l.trunkName uri expires h env l.canceled resp hok
    rw [← hpeer] at hfrees
    have htodo : l.loop.todo = .answer resp :: todo := by rw [hl]; rfl
    have hlast := hsound.last_eq_true hl rfl
    rw [← ho]
    refine hs.setLeg i l _ hi rfl ?_ ⟨hsound.named, ?_, ?_, hsound.peer⟩
    · rw [l.holds_of_ending (by rw [hl]; exact hlast),
        TrunkLeg.holds_of_ending _ (by exact hlast), htodo]
      change tally _ (_ ++ todo) = _
      rw [tally_append, hfrees.1, tally_cons]
      rfl
    · intro b hb
      rcases mem_append.mp hb with hb' | hb'
      · exact hfrees.2 b hb'
      · exact hsound.own b (by rw [htodo]; exact mem_cons_of_mem _ hb')
    · intro hend
      exact absurd hend (by rw [hlast]; exact Bool.noConfusion)
  | storeCall call =>
    cases hp
    exact hs.keep i l call todo last hi hl hok
  | sessionTimer callID name expires =>
    cases hp
    exact (hs.addTeardown ⟨callID, some name, .waiting⟩ (.inl rfl)).skip i l _ todo last hi hl rfl
  | removeEarly callID =>
    cases hp
    exact (hs.frame { s with store := s.store.removeEarly callID } rfl rfl rfl rfl rfl rfl).skip i
      l _ todo last hi hl rfl

/-- A call gets a channel. -/
theorem addLeg (hs : Accounted s) (trk : Trunk) (mgr : TrunkManager) (store : Store)
    (l : TrunkLeg) (hacq : s.mgr.acquireChannel trk.name = some mgr)
    (hcalls : store.calls = s.store.calls) (hname : l.trunkName = trk.name) (hholds : l.holds = 1)
    (hsound : l.Sound) :
    Accounted { s with
      mgr := mgr
      acquired := s.acquired ++ [trk.name]
      store := store
      legs := s.legs ++ [l] } := by
  have hactive := fun t => TrunkManager.active_acquireChannel s.mgr mgr trk.name t hacq
  refine ⟨?_, ?_, ?_, by rw [hcalls]; exact hs.keyed, by rw [hcalls]; exact hs.removing, hs.apart⟩
  · intro t
    have hbal := hs.balance t
    have hact := hactive t
    have hl : l.holdsOn t = if trk.name = t then 1 else 0 := by
      rw [TrunkLeg.holdsOn, hname, hholds]
    rw [Exchange.elsewhere, Exchange.established] at hbal ⊢
    rw [hcalls]
    change mgr.active t = tally _ (s.legs ++ [l]) + (_ + tally _ s.teardowns)
    rw [tally_append, tally_cons, tally_nil]
    omega
  · intro t
    have hhist := hs.history t
    have hact := hactive t
    change (s.acquired ++ [trk.name]).count t = s.released.count t + mgr.active t
    rw [count_append, count_singleton]
    simp only [beq_iff_eq]
    omega
  · intro m hm
    rcases mem_append.mp hm with h | h
    · exact hs.sound m h
    · rw [mem_singleton.mp h]
      exact hsound

end Accounted

theorem waiting_eq_some (s : Exchange) (i : Nat) (q : TrunkLeg × Started)
    (h : s.waiting i = some q) :
    s.legs[i]? = some q.1 ∧ q.1.loop = .select ∧ q.1.started = some q.2 := by
  rcases bind_eq_some_iff.mp h with ⟨l, hl, hq⟩
  split at hq
  · rename_i st hloop hst
    cases hq
    exact ⟨hl, hloop, hst⟩
  · contradiction

theorem sending_eq_some (s : Exchange) (i : Nat) (q : TrunkLeg × Started)
    (h : s.sending i = some q) :
    s.legs[i]? = some q.1 ∧ q.1.loop.ending = false ∧ q.1.started = some q.2 := by
  rcases bind_eq_some_iff.mp h with ⟨l, hl, hq⟩
  split at hq
  · rename_i task st hloop hst
    cases hq
    exact ⟨hl, by rw [hloop]; rfl, hst⟩
  · cases hq

namespace Accounted

variable {s : Exchange}

/-- A waiting loop wakes up. -/
theorem react (hs : Accounted s) (i : Nat) (l : TrunkLeg) (r : Reaction)
    (hi : s.legs[i]? = some l) (hlive : l.loop.ending = false) (hr : r.FreesFor l.trunkName) :
    Accounted (s.setLoop i l (.running r.todo r.last)) := by
  rcases r with ⟨todo, last⟩
  cases last with
  | true => exact hs.leave i l todo hi hlive hr.1 hr.2
  | false => exact hs.listen i l (.running todo false) hi hlive rfl hr.1 hr.2

/-- One step of a CANCEL. It ends the context of a loop, which holds what it
    held. -/
theorem cancel (hs : Accounted s) (c : CancelTask) : Accounted (s.cancelStep c).1 := by
  cases c with
  | checkCall req => exact hs
  | findEarly req => exact hs
  | respond req early | removeEarly req => exact hs.frame _ rfl rfl rfl rfl rfl rfl
  | cancelContext req early =>
    change Accounted (s.cancelLoop early.loop)
    cases hi : s.legs[early.loop]? with
    | none =>
      refine hs.frame _ rfl rfl ?_ rfl rfl rfl
      exact modify_eq_self (List.getElem?_eq_none_iff.mp hi)
    | some l =>
      have hset := hs.setLeg early.loop l { l with canceled := true } hi rfl rfl
        (by
          have hl := hs.sound l (mem_of_getElem? hi)
          exact ⟨hl.named, hl.own, hl.quiet, hl.peer⟩)
      refine hset.frame _ rfl rfl ?_ rfl rfl rfl
      rw [Exchange.cancelLoop, modify_eq_set_getElem?, hi]
      rfl

end Accounted

section Runs

variable [SdpCodec] [UnicodeLower]

omit [UnicodeLower] in
theorem accounted_invite (h : Handler) (env : InviteEnv) (req : SIPMessage) (trk : Trunk)
    (dest : Bytes) (toAddr : SIPAddress) (s t : Exchange) (hs : Accounted s)
    (hstep : s.invite h env req trk dest toAddr = some t) : Accounted t := by
  unfold Exchange.invite at hstep
  split at hstep
  · cases hstep
    exact hs.frame _ rfl rfl rfl rfl rfl rfl
  · rename_i mgr hacq
    split at hstep
    · cases hstep
    · rename_i res hres
      cases hstep
      have hfrees : FreesFor trk.name 1 [.release trk.name, .respond res] :=
        .release trk.name (.idle rfl rfl (.nil trk.name))
      refine hs.addLeg trk mgr s.store _ hacq rfl rfl hfrees.1
        ⟨trk.named, hfrees.2, fun h => Bool.noConfusion h, fun st hst => ?_⟩
      cases hst
    · rename_i st hst
      cases hstep
      refine hs.addLeg trk mgr _ _ hacq rfl rfl rfl
        ⟨trk.named, fun a ha => (by cases ha), fun _ => rfl, fun st' hst' => ?_⟩
      rw [← some.inj hst']
      exact ⟨_, (started_trunkInvite h env req trk dest toAddr st hst).2⟩

/-- Every step that meets the condition keeps the channels accounted for. -/
theorem accounted_step (h : Handler) (s t : Exchange) (e : ExchangeEvent) (hs : Accounted s)
    (hok : ChannelsOk s e) (hstep : exchangeStep h s e = some t) : Accounted t := by
  cases e with
  | invite env req trk dest toAddr => exact accounted_invite h env req trk dest toAddr s t hs hstep
  | sent i sendFails =>
    rcases map_eq_some_iff.mp hstep with ⟨q, hq, rfl⟩
    rcases sending_eq_some s i q hq with ⟨hi, hlive, hst⟩
    rcases (hs.sound q.1 (mem_of_getElem? hi)).peer q.2 hst with ⟨uri, expires, hpeer⟩
    split
    · rw [hpeer]
      exact hs.react i q.1 _ hi hlive (freesFor_onSendFailed q.2.cc q.1.trunkName uri expires)
    · exact hs.listen i q.1 .select hi hlive rfl rfl (by intros; contradiction)
  | takeDone i =>
    rcases bind_eq_some_iff.mp hstep with ⟨q, hq, hd⟩
    rcases waiting_eq_some s i q hq with ⟨hi, hl, hst⟩
    rcases (hs.sound q.1 (mem_of_getElem? hi)).peer q.2 hst with ⟨uri, expires, hpeer⟩
    split at hd
    · rw [← some.inj hd, hpeer]
      exact hs.react i q.1 _ hi (by rw [hl]; rfl)
        (freesFor_onDone q.2.cc q.1.trunkName uri expires)
    · cases hd
  | takeResponse i env resp =>
    rcases map_eq_some_iff.mp hstep with ⟨q, hq, rfl⟩
    rcases waiting_eq_some s i q hq with ⟨hi, hl, hst⟩
    rcases (hs.sound q.1 (mem_of_getElem? hi)).peer q.2 hst with ⟨uri, expires, hpeer⟩
    rw [hpeer]
    exact hs.react i q.1 _ hi (by rw [hl]; rfl)
      (freesFor_onResponse q.2.cc q.1.trunkName uri expires h env resp)
  | takeError i =>
    rcases map_eq_some_iff.mp hstep with ⟨q, hq, rfl⟩
    rcases waiting_eq_some s i q hq with ⟨hi, hl, hst⟩
    rcases (hs.sound q.1 (mem_of_getElem? hi)).peer q.2 hst with ⟨uri, expires, hpeer⟩
    rw [hpeer]
    exact hs.react i q.1 _ hi (by rw [hl]; rfl)
      (freesFor_onError q.2.cc q.1.trunkName uri expires)
  | act i env =>
    rcases bind_eq_some_iff.mp hstep with ⟨l, hi, hact⟩
    split at hact
    · rename_i last hl
      cases hact
      have hsound := hs.sound l (mem_of_getElem? hi)
      cases last with
      | true | false =>
        refine hs.setLeg i l _ hi rfl ?_
          ⟨hsound.named, fun a ha => (by cases ha), fun _ => rfl, hsound.peer⟩
        simp only [TrunkLeg.holds, hl]
        rfl
    · rename_i a todo last hl
      rcases map_eq_some_iff.mp hact with ⟨o, ho, rfl⟩
      have hnext : l.next? = some a := by rw [TrunkLeg.next?, hl]; rfl
      exact hs.perform h env i l a todo last o hi hl (hok l hi a hnext) ho
    · cases hact
  | cancel req =>
    cases hstep
    exact hs.frame _ rfl rfl rfl rfl rfl rfl
  | cancelStep k =>
    rcases map_eq_some_iff.mp hstep with ⟨c, _, rfl⟩
    exact (hs.cancel c).frame _ rfl rfl rfl rfl rfl rfl
  | bye req =>
    cases hstep
    exact hs.addTeardown _ (.inr rfl)
  | expire j =>
    rcases bind_eq_some_iff.mp hstep with ⟨td, hj, hd⟩
    split at hd
    · rename_i hpc
      cases hd
      exact hs.moveTeardown j td (some { td with pc := .lookup }) hj (.inl hpc)
        (fun td' h' => .inr (by rw [← some.inj h']))
    · cases hd
  | stopTimer j =>
    rcases bind_eq_some_iff.mp hstep with ⟨td, hj, hd⟩
    split at hd
    · rename_i hpc
      cases hd
      exact hs.moveTeardown j td none hj (.inl hpc) (by intros; contradiction)
    · cases hd
  | teardown j rnd =>
    rcases bind_eq_some_iff.mp hstep with ⟨td, hj, hd⟩
    rcases map_eq_some_iff.mp hd with ⟨o, ho, rfl⟩
    exact hs.teardown h rnd j td o hj (hok td hj) ho

omit [SdpCodec] [UnicodeLower] in
/-- A loop at rest holds a channel if it has not returned. -/
theorem TrunkLeg.holdsOn_of_atRest (l : TrunkLeg) (t : Bytes) (h : l.atRest = true) :
    l.holdsOn t = l.ringsOn t := by
  rcases l with ⟨name, started, loop, canceled⟩
  cases loop with
  | starting => exact Bool.noConfusion h
  | sending task => exact Bool.noConfusion h
  | select => rfl
  | running todo last => exact Bool.noConfusion h
  | ended => exact ite_self 0

/-- When nothing is left to do, a trunk counts its calls, those that ring and
    those that are established, and every other channel it granted was given back
    once. -/
theorem channels_balance (h : Handler) (trunks : AList (fun _ : Bytes => Trunk))
    (es : List ExchangeEvent) (s : Exchange)
    (hrun : Run (exchangeStep h) ChannelsOk (Exchange.start trunks) es s) (hq : s.Quiescent)
    (t : Bytes) :
    s.mgr.active t = s.ringing t + s.established t ∧
      s.acquired.count t = s.released.count t + (s.ringing t + s.established t) := by
  have hs : Accounted s := hrun.invariant Accounted (accounted_start trunks)
    (fun s e u hs hok hstep => accounted_step h s u e hs hok hstep)
  have hlegs : tally (TrunkLeg.holdsOn t) s.legs = s.ringing t :=
    tally_congr _ _ s.legs (fun l hl => l.holdsOn_of_atRest t (hq.1 l hl))
  have howes : tally (Teardown.owesOn t) s.teardowns = 0 := by
    refine tally_eq_zero _ s.teardowns fun td htd => ?_
    rw [Teardown.owesOn, hq.2.2 td htd]
    rfl
  have hbal := hs.balance t
  have hhist := hs.history t
  rw [Exchange.elsewhere] at hbal
  omega

end Runs

/-! ### Calls over a trunk -/

/-- The trunk of the carrier, with two channels. -/
def carrier : Trunk :=
  ⟨ascii "carrier", ascii "203.0.113.9", 5060, ascii "udp", 2, [], [], 0, [], by decide⟩

/-- A trunk for short calls. -/
def shortCalls : Trunk :=
  ⟨ascii "short", ascii "203.0.113.8", 5060, ascii "udp", 2, [], [], 90, [], by decide⟩

/-- Both trunks. -/
def bothTrunks : AList (fun _ : Bytes => Trunk) :=
  ((∅ : AList (fun _ : Bytes => Trunk)).insert carrier.name carrier).insert shortCalls.name
    shortCalls

/-- An INVITE with Alice's Call-ID `callID`, whose call to the trunk gets the
    Call-ID `bobCallID`. -/
def dial (trk : Trunk) (callID bobCallID : String) : ExchangeEvent :=
  .invite { reachable with bobCallID := ascii bobCallID }
    { dialledCall with headers := dialledCall.headers.insert hCallID [ascii callID] } trk
    (ascii "bo") ⟨∅, [], ascii "sip:bo@trecs", []⟩

/-- The loop of leg `i` sends its INVITE, gets an answer and does the next `n`
    things. -/
def answered (i n : Nat) (env : LoopEnv) : List ExchangeEvent :=
  [.sent i false,
    .takeResponse i env { newResponse inviteToBob 200 (ascii "OK") with body := audioBody }] ++
    List.replicate n (.act i env)

/-- A BYE with Call-ID `callID`. -/
def byeFor (callID : String) : ExchangeEvent :=
  .bye { newRequest .BYE (ascii "sip:trecs") with
    headers := SIPHeaders.add ∅ hCallID (ascii callID) }

/-- One call is established and ended, and another one rings. -/
def oneAfterTheOther : List ExchangeEvent :=
  [dial carrier "c1" "c2"] ++ answered 0 6 resolving ++ [byeFor "c1"] ++
    List.replicate 3 (.teardown 0 none) ++ [dial carrier "c3" "c4", .sent 1 false]

open Samples

theorem channels_balance_oneAfterTheOther :
    ∃ s, Run (exchangeStep plainHandler) ChannelsOk (Exchange.start bothTrunks) oneAfterTheOther s ∧
      s.Quiescent ∧ s.ringing carrier.name = 1 ∧ s.mgr.active carrier.name = 1 ∧
      s.acquired.count carrier.name = s.released.count carrier.name + 1 := by
  refine exists_run_imp (fun s => s.Quiescent ∧ s.ringing carrier.name = 1 ∧
    s.established carrier.name = 0) (by decide +kernel) ?_
  rintro s hrun ⟨hq, hring, hest⟩
  have hbal := channels_balance plainHandler bothTrunks oneAfterTheOther s hrun hq carrier.name
  rw [hring, hest] at hbal
  exact ⟨hq, hring, hbal.1, hbal.2⟩

/-- Both parties of the first of two calls hang up at once: each BYE finds the
    call before the other has removed it. -/
def bothHangUp : List ExchangeEvent :=
  [dial carrier "c1" "c2", dial carrier "c3" "c4"] ++ answered 0 6 resolving ++
    answered 1 6 resolving ++ [byeFor "c1", byeFor "c2", .teardown 0 none, .teardown 1 none] ++
    List.replicate 2 (.teardown 0 none) ++ List.replicate 2 (.teardown 0 none)

/-- What the loop needs from outside when Alice's media address does not
    resolve. -/
def unresolving : LoopEnv := ⟨none, [], false⟩

/-- Alice's media address does not resolve. Then both parties hang up. -/
def noMediaAddress : List ExchangeEvent :=
  [dial carrier "c1" "c2"] ++ answered 0 5 unresolving ++
    [byeFor "c1", byeFor "c2", .teardown 0 none, .teardown 0 none]

/-- Two calls with the same Call-ID of Alice are established. Then all parties
    hang up. -/
def sameCallID : List ExchangeEvent :=
  [dial carrier "c1" "c2", dial carrier "c1" "c4"] ++ answered 0 6 resolving ++
    answered 1 6 resolving ++ [byeFor "c1"] ++ List.replicate 3 (.teardown 0 none) ++
    [byeFor "c1", byeFor "c2", byeFor "c4"] ++ List.replicate 3 (.teardown 0 none)

/-- The session timer of a call that has ended finds a later one with the same
    Call-ID on another trunk. -/
def lateTimer : List ExchangeEvent :=
  [dial shortCalls "c1" "c2"] ++ answered 0 7 resolving ++ [byeFor "c1"] ++
    List.replicate 3 (.teardown 1 none) ++ [dial carrier "c1" "c4"] ++ answered 1 6 resolving ++
    [.expire 0] ++ List.replicate 3 (.teardown 0 none)

/-- Without the condition a channel is given back twice, or never. -/
theorem channels_balance_fails :
    (∃ s, Run (exchangeStep plainHandler) (fun _ _ => True) (Exchange.start bothTrunks) bothHangUp s ∧
      s.Quiescent ∧ s.mgr.active carrier.name = 0 ∧
      s.ringing carrier.name + s.established carrier.name = 1 ∧
      s.released = [carrier.name, carrier.name]) ∧
    ∀ es ∈ [noMediaAddress, sameCallID, lateTimer],
      ∃ s, Run (exchangeStep plainHandler) (fun _ _ => True) (Exchange.start bothTrunks) es s ∧
        s.Quiescent ∧ s.mgr.active carrier.name = 1 ∧
        s.ringing carrier.name + s.established carrier.name = 0 := by
  refine ⟨exists_run_of_exec (by decide +kernel), ?_⟩
  intro es hes
  simp only [mem_cons, not_mem_nil, or_false] at hes
  rcases hes with rfl | rfl | rfl
  · exact exists_run_of_exec (by decide +kernel)
  · exact exists_run_of_exec (by decide +kernel)
  · exact exists_run_of_exec (by decide +kernel)

end B2bua

end Trecs
