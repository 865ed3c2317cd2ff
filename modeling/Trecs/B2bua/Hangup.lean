import Trecs.B2bua.Dispatch
import Trecs.B2bua.InDialog
import Trecs.B2bua.ReInvite
import Trecs.B2bua.StoreIndex

/-!
# Hanging Up

`HandleBye` of `internal/b2bua/handler.go`. It looks the call up by the Call-ID of
the BYE. The call it finds is ended: the bridge is stopped, a BYE is sent in the
other dialog, the sessions and the call are removed and the channel is given
back. If there is no call, a service of the server is ended whose session has the
Call-ID and both tags.

The tags of the BYE are not compared with those of the call. Whoever knows a
Call-ID can end the call. And a BYE in the dialog of one call ends another if the
Call-ID of its dialog is Alice's Call-ID there.

The effects on calls are in `ByeOutcome`: the bridges that were stopped and the
BYEs that were sent, each with the call it was done for.

## Main definitions

* `handleBye`: `HandleBye`.
* `Store.Keyed`: Every call is stored under Alice's Call-ID.
* `ByeOutcome.Right`: A BYE has done to the calls what it should.
* `ByTags`: The Call-ID alone leads where the tags do.

## Theorems

* `keyed_of_run`: What holds of every store.
* `right_iff`: When a BYE does what it should.
-/

namespace Trecs

open List Option

namespace B2bua

open Proto Sip Media Trunks

/-- The sessions of a call. That of Bob's side has its tags the other way
    round. -/
def Call.session (c : Call) : Side → SessionKey
  | .alice => ⟨c.aliceDialog.id.callID, c.aliceDialog.id.localTag, c.aliceDialog.id.remoteTag⟩
  | .bob => ⟨c.bobDialog.id.callID, c.bobDialog.id.remoteTag, c.bobDialog.id.localTag⟩

/-- A BYE to the other party, with the call and the dialog it was written for. -/
structure ForwardedBye where
  call : Call
  dlg : Dialog
  msg : SIPMessage

/-- What has been done when `HandleBye` returns. -/
structure ByeOutcome where
  responses : List SIPMessage
  state : SwitchState
  stopped : List Call
  forwarded : List ForwardedBye

/-- The side a BYE is taken to come from. -/
def Call.sender (c : Call) (req : SIPMessage) : Side :=
  if SIPHeaders.getFirst req.headers hCallID = c.aliceCallID then .alice else .bob

/-- The BYE to a side. -/
def Call.byeTo (c : Call) (h : Handler) (branch : Bytes) : Side → SIPMessage
  | .alice => c.byeToAlice h.serverIP h.serverPort branch
  | .bob => c.byeToBob h.serverIP h.serverPort branch

section Handler

variable [RegexpLib]

/-- The part of `HandleBye` for a call. -/
def endCall (cfg : SwitchConfig) (rnd : Option Bytes) (req : SIPMessage) (st : SwitchState)
    (call : Call) : ByeOutcome where
  responses := []
  state := { st with
    mgr := if call.trunkName ≠ [] ∧ cfg.trunkMgr.isSome = true then
        st.mgr.releaseChannel call.trunkName
      else st.mgr
    store := st.store.remove call.aliceCallID
    sessions := (st.sessions.remove (call.session .bob)).remove (call.session .alice) }
  stopped := [call]
  forwarded :=
    let side := (call.sender req).other
    [⟨call, call.dialog side, call.byeTo cfg.handler (generateBranch rnd) side⟩]

/-- The session of the dialog a request claims to belong to. -/
def sessionKeyOf (req : SIPMessage) : Option SessionKey :=
  (dialogIDOf req).map (fun id => ⟨id.callID, id.localTag, id.remoteTag⟩)

/-- The part of `HandleBye` for a service of the server. -/
def endSession (req : SIPMessage) (st : SwitchState) : ByeOutcome where
  responses := []
  state :=
    match sessionKeyOf req with
    | some key =>
      if (st.sessions.get key).isSome then { st with sessions := st.sessions.remove key } else st
    | none => st
  stopped := []
  forwarded := []

variable [UnicodeLower] [UnicodeUpper] [HashFunctions] [Connections]

/-- `HandleBye`. -/
def handleBye (cfg : SwitchConfig) (now : Int) (authRnd : Bytes) (rnd : Option Bytes)
    (req : SIPMessage) (tx : Source) (st : SwitchState) : ByeOutcome :=
  let trying := newResponse req 100 (ascii "Trying")
  let a := requireProxyAuth cfg now authRnd "BYE" req tx st.auth
  let st := { st with auth := a.auth }
  if a.admitted then
    let o := match st.store.get (SIPHeaders.getFirst req.headers hCallID) with
      | some call => endCall cfg rnd req st call
      | none => endSession req st
    let res := newResponse req 200 (ascii "OK")
    let res := { res with headers := res.headers.insert (ascii "Allow") [cfg.allowMethods] }
    { o with responses := [trying, res] }
  else ⟨trying :: a.responses, st, [], []⟩

end Handler

/-! ### The calls in a store -/

/-- Every call is stored under Alice's Call-ID. -/
def Store.Keyed (s : Store) : Prop := ∀ k c, s.calls.lookup k = some c → c.aliceCallID = k

theorem keyed_create : Store.create.Keyed := fun _ _ h => nomatch h

theorem Store.Keyed.step {s t : Store} {op : StoreOp} (h : s.Keyed)
    (hstep : storeStep s op = some t) : t.Keyed := by
  cases op with
  | store call =>
    cases hstep
    intro k c hc
    simp only [Store.store] at hc
    by_cases hk : k = call.aliceCallID
    · rw [hk, AList.lookup_insert, some.injEq] at hc
      rw [← hc, hk]
    · rw [AList.lookup_insert_ne hk] at hc
      exact h k c hc
  | remove aliceCID =>
    cases hstep
    exact fun k c hc => h k c (Store.lookup_remove hc)
  | storeEarly ec | removeEarly aliceCID =>
    cases hstep
    exact h

/-- Whatever is done with a store, its calls are stored under Alice's Call-IDs. -/
theorem keyed_of_run (ops : List StoreOp) (s : Store)
    (hrun : Run storeStep (fun _ _ => True) Store.create ops s) : s.Keyed :=
  Run.invariant Store.Keyed keyed_create (fun _ _ _ h _ hstep => h.step hstep) hrun

/-- A call that is found is stored. -/
theorem Store.Keyed.lookup_of_get {s : Store} (h : s.Keyed) {k : Bytes} {c : Call}
    (hc : s.get k = some c) : s.calls.lookup c.aliceCallID = some c := by
  unfold Store.get at hc
  cases hlook : s.calls.lookup k with
  | some c' =>
    rw [hlook, some.injEq] at hc
    rw [← hc, h k c' hlook]
    exact hlook
  | none =>
    rw [hlook] at hc
    simp only at hc
    cases hindex : s.bobToAlice.lookup k with
    | none =>
      rw [hindex] at hc
      cases hc
    | some a =>
      rw [hindex] at hc
      simp only at hc
      by_cases ha : a ≠ []
      · rw [if_pos ha] at hc
        rw [h a c hc]
        exact hc
      · rw [if_neg ha] at hc
        cases hc

/-- Removing a call leaves the others. -/
theorem Store.lookup_remove_of_ne (s : Store) (aliceCID k : Bytes) (hk : k ≠ aliceCID) :
    (s.remove aliceCID).calls.lookup k = s.calls.lookup k := by
  unfold Store.remove
  cases s.calls.lookup aliceCID with
  | none => rfl
  | some call => exact AList.lookup_erase_ne hk

/-! ### The BYE to the other party -/

/-- The message has the Call-ID and the tags of the dialog. -/
structure Carries (msg : SIPMessage) (dlg : Dialog) : Prop where
  callID : SIPHeaders.getFirst msg.headers hCallID = dlg.id.callID
  fromTag : SIPHeaders.getFirst msg.headers hFrom =
    ascii "<" ++ stripBrackets dlg.localURI ++ ascii ">;tag=" ++ dlg.id.localTag
  toTag : SIPHeaders.getFirst msg.headers hTo =
    ascii "<" ++ stripBrackets dlg.remoteURI ++ ascii ">;tag=" ++ dlg.id.remoteTag

theorem carries_byeOn (dlg : Dialog) (requestURI : Bytes) (transport : Transport)
    (serverIP serverPort branch : Bytes) :
    Carries (byeOn dlg requestURI transport serverIP serverPort branch) dlg := by
  have hvia : canonicalHeaderKey hVia = hVia := by decide
  have hfrom : canonicalHeaderKey hFrom = hFrom := by decide
  have hto : canonicalHeaderKey hTo = hTo := by decide
  have hcall : canonicalHeaderKey hCallID = hCallID := by decide +kernel
  have hmax : canonicalHeaderKey (ascii "Max-Forwards") = ascii "Max-Forwards" := by decide +kernel
  have hlen : canonicalHeaderKey hContentLength = hContentLength := by decide +kernel
  -- Each of the three is written once, and what is written later has other names.
  constructor
  case callID =>
    rw [byeOn]
    simp only
    rw [SIPHeaders.getFirst_add_of_ne _ _ _ _ (by rw [hcall, hlen]; decide),
      SIPHeaders.getFirst_add_of_ne _ _ _ _ (by rw [hcall, hmax]; decide)]
    refine SIPHeaders.getFirst_add_of_none _ _ _ ?_
    rw [hcall, SIPHeaders.lookup_add_of_ne _ _ _ _ (by rw [hto]; decide),
      SIPHeaders.lookup_add_of_ne _ _ _ _ (by rw [hfrom]; decide),
      SIPHeaders.lookup_add_of_ne _ _ _ _ (by rw [hvia]; decide)]
    exact AList.lookup_empty _
  case fromTag =>
    rw [byeOn]
    simp only
    rw [SIPHeaders.getFirst_add_of_ne _ _ _ _ (by rw [hfrom, hlen]; decide),
      SIPHeaders.getFirst_add_of_ne _ _ _ _ (by rw [hfrom, hmax]; decide),
      SIPHeaders.getFirst_add_of_ne _ _ _ _ (by rw [hfrom, hcall]; decide),
      SIPHeaders.getFirst_add_of_ne _ _ _ _ (by rw [hfrom, hto]; decide)]
    refine SIPHeaders.getFirst_add_of_none _ _ _ ?_
    rw [hfrom, SIPHeaders.lookup_add_of_ne _ _ _ _ (by rw [hvia]; decide)]
    exact AList.lookup_empty _
  case toTag =>
    rw [byeOn]
    simp only
    rw [SIPHeaders.getFirst_add_of_ne _ _ _ _ (by rw [hto, hlen]; decide),
      SIPHeaders.getFirst_add_of_ne _ _ _ _ (by rw [hto, hmax]; decide),
      SIPHeaders.getFirst_add_of_ne _ _ _ _ (by rw [hto, hcall]; decide)]
    refine SIPHeaders.getFirst_add_of_none _ _ _ ?_
    rw [hto, SIPHeaders.lookup_add_of_ne _ _ _ _ (by rw [hfrom]; decide),
      SIPHeaders.lookup_add_of_ne _ _ _ _ (by rw [hvia]; decide)]
    exact AList.lookup_empty _

theorem carries_bye (c : Call) (h : Handler) (branch : Bytes) (side : Side) :
    Carries (c.byeTo h branch side) (c.dialog side) := by
  cases side with
  | alice | bob => exact carries_byeOn _ _ _ _ _ _

/-! ### What a BYE should do -/

/-- The BYE belongs to one of the two dialogs of the call. -/
def Call.Concerned (c : Call) (req : SIPMessage) : Prop := ∃ side, c.Matches side req

/-- A BYE has done what it should: bridges are stopped, BYEs sent, calls removed
    and channels given back only for calls it concerns. If it belongs to no
    dialog nothing has changed. If it belongs to one, and has been admitted, one
    BYE has been sent, in the other dialog of the call. -/
structure ByeOutcome.Right (st : SwitchState) (req : SIPMessage) (admitted : Bool)
    (o : ByeOutcome) : Prop where
  stopped : ∀ c ∈ o.stopped, c.Concerned req
  forwarded : ∀ f ∈ o.forwarded, f.call.Concerned req
  removed : ∀ k c, st.store.calls.lookup k = some c → o.state.store.calls.lookup k ≠ some c →
    c.Concerned req
  released : ∀ name, o.state.mgr.active name ≠ st.mgr.active name →
    ∃ k c, st.store.calls.lookup k = some c ∧ c.trunkName = name ∧ c.Concerned req
  unmatched : (∀ k c, st.store.calls.lookup k = some c → ¬ c.Concerned req) →
    (∀ key ∈ sessionKeyOf req, st.sessions.get key = none) →
    o.state.store = st.store ∧ o.state.sessions = st.sessions ∧ o.state.mgr = st.mgr
  matched : admitted = true → ∀ k c side, st.store.calls.lookup k = some c → c.Matches side req →
    ∃ f, o.forwarded = [f] ∧ f.call = c ∧ f.dlg.id = (c.dialog side.other).id ∧ Carries f.msg f.dlg

/-- The Call-ID alone leads where the tags do: the BYE belongs to the dialog it is
    taken to come from, and to no dialog of another call. -/
def ByTags (st : SwitchState) (req : SIPMessage) : Prop :=
  (∀ c, st.store.get (SIPHeaders.getFirst req.headers hCallID) = some c →
    c.Matches (c.sender req) req) ∧
  ∀ k c, st.store.calls.lookup k = some c → c.Concerned req →
    st.store.get (SIPHeaders.getFirst req.headers hCallID) = some c

/-! ### When it does -/

section Handler

variable [RegexpLib]

/-- A BYE that finds a call. -/
theorem right_endCall_iff (cfg : SwitchConfig) (rnd : Option Bytes) (req : SIPMessage)
    (st : SwitchState) (c : Call) (hkeyed : st.store.Keyed)
    (hget : st.store.get (SIPHeaders.getFirst req.headers hCallID) = some c) :
    (endCall cfg rnd req st c).Right st req true ↔ ByTags st req := by
  have hstored := hkeyed.lookup_of_get hget
  constructor
  · intro h
    refine ⟨fun c' hc' => ?_, fun k c' hc' ⟨side, hside⟩ => ?_⟩
    · rw [hget, some.injEq] at hc'
      rw [← hc']
      rcases h.stopped c mem_cons_self with ⟨side, hside⟩
      by_cases hs : side = c.sender req
      · rw [← hs]
        exact hside
      · -- Then the BYE was sent in its own dialog, and the other one has the same ID.
        rcases h.matched rfl _ c side hstored hside with ⟨f, hf, _, hid, _⟩
        rw [(Side.other_of_ne hs).1, ← singleton_inj.mp hf] at hid
        simp only [(Side.other_of_ne hs).2] at hid
        rw [Call.Matches, ← hid]
        exact hside
    · rcases h.matched rfl k c' side hc' hside with ⟨f, hf, hcall, _, _⟩
      rw [← singleton_inj.mp hf] at hcall
      rw [hget, ← hcall]
  · rintro ⟨hsender, hfound⟩
    have hmatch := hsender c hget
    have hconcerned : c.Concerned req := ⟨_, hmatch⟩
    constructor
    case stopped =>
      intro c' hc'
      rw [mem_singleton.mp hc']
      exact hconcerned
    case forwarded =>
      intro f hf
      rw [mem_singleton.mp hf]
      exact hconcerned
    case removed =>
      intro k c' hc' hgone
      by_cases hk : k = c.aliceCallID
      · rw [hk, hstored, some.injEq] at hc'
        rw [← hc']
        exact hconcerned
      · exact absurd ((Store.lookup_remove_of_ne st.store _ k hk).trans hc') hgone
    case released =>
      intro name hname
      refine ⟨_, c, hstored, ?_, hconcerned⟩
      by_contra hne
      apply hname
      simp only [endCall]
      split
      · rw [TrunkManager.active_releaseChannel, if_neg hne, Nat.sub_zero]
      · rfl
    case unmatched =>
      intro hnone _
      exact absurd hconcerned (hnone _ c hstored)
    case matched =>
      intro _ k c' side hc' hside
      have hc : c' = c := by
        have heq := hfound k c' hc' ⟨side, hside⟩
        rw [hget, some.injEq] at heq
        exact heq.symm
      rw [hc] at hside ⊢
      refine ⟨_, rfl, rfl, ?_, carries_bye c _ _ _⟩
      -- Both sides can match only if their dialogs have the same ID.
      have hsame : (c.dialog side).id = (c.dialog (c.sender req)).id :=
        some.inj (hside.symm.trans hmatch)
      by_cases hs : side = c.sender req
      · rw [hs]
      · simp [(Side.other_of_ne hs).1, (Side.other_of_ne hs).2, hsame]

omit [RegexpLib] in
/-- A BYE that finds no call. -/
theorem right_endSession_iff (req : SIPMessage) (st : SwitchState)
    (hget : st.store.get (SIPHeaders.getFirst req.headers hCallID) = none) :
    (endSession req st).Right st req true ↔ ByTags st req := by
  have hstate : (endSession req st).state.store = st.store ∧
      (endSession req st).state.mgr = st.mgr := by
    unfold endSession
    simp only
    split
    · split
      · exact ⟨rfl, rfl⟩
      · exact ⟨rfl, rfl⟩
    · exact ⟨rfl, rfl⟩
  constructor
  · intro h
    refine ⟨fun c hc => ?_, fun k c hc ⟨side, hside⟩ => ?_⟩
    · rw [hget] at hc
      cases hc
    · rcases h.matched rfl k c side hc hside with ⟨f, hf, _⟩
      exact absurd hf (by simp only [endSession, nil_eq, cons_ne_nil, not_false_eq_true])
  · rintro ⟨_, hfound⟩
    have hnone : ∀ k c, st.store.calls.lookup k = some c → ¬ c.Concerned req := by
      intro k c hc hcon
      cases hget.symm.trans (hfound k c hc hcon)
    constructor
    case stopped => exact fun c hc => by cases hc
    case forwarded => exact fun f hf => by cases hf
    case removed =>
      intro k c hc hgone
      rw [hstate.1] at hgone
      exact absurd hc hgone
    case released =>
      intro name hname
      rw [hstate.2] at hname
      exact absurd rfl hname
    case unmatched =>
      intro _ hkey
      refine ⟨hstate.1, ?_, hstate.2⟩
      unfold endSession
      simp only
      rcases hk : sessionKeyOf req with _ | key
      · rfl
      · simp only [hkey key hk, isSome_none, Bool.false_eq_true, if_false]
    case matched =>
      intro _ k c side hc hside
      exact absurd ⟨side, hside⟩ (hnone k c hc)

variable [UnicodeLower] [UnicodeUpper] [HashFunctions] [Connections]

/-- A BYE does what it should exactly if it is not admitted or its Call-ID alone
    leads where its tags do. -/
theorem right_iff (cfg : SwitchConfig) (now : Int) (authRnd : Bytes) (rnd : Option Bytes)
    (req : SIPMessage) (tx : Source) (st : SwitchState) (hkeyed : st.store.Keyed) :
    (handleBye cfg now authRnd rnd req tx st).Right st req
        (requireProxyAuth cfg now authRnd "BYE" req tx st.auth).admitted ↔
      ((requireProxyAuth cfg now authRnd "BYE" req tx st.auth).admitted = true →
        ByTags st req) := by
  unfold handleBye
  simp only
  rcases hadm : (requireProxyAuth cfg now authRnd "BYE" req tx st.auth).admitted
  · simp only [Bool.false_eq_true, if_false, false_implies, iff_true]
    constructor
    case stopped => exact fun c hc => by cases hc
    case forwarded => exact fun f hf => by cases hf
    case removed => exact fun k c hc hgone => absurd hc hgone
    case released => exact fun name hname => absurd rfl hname
    case unmatched => exact fun _ _ => ⟨rfl, rfl, rfl⟩
    case matched => exact fun hc => by cases hc
  simp only [if_true, true_implies]
  -- The responses and the state of the authentication make no difference.
  have hframe : ∀ (o : ByeOutcome) (res : List SIPMessage) (a : AuthState),
      ({ o with responses := res } : ByeOutcome).Right st req true ↔
        o.Right { st with auth := a } req true := fun o res a =>
    ⟨fun h => ⟨h.stopped, h.forwarded, h.removed, h.released, h.unmatched, h.matched⟩,
      fun h => ⟨h.stopped, h.forwarded, h.removed, h.released, h.unmatched, h.matched⟩⟩
  rw [hframe _ _ (requireProxyAuth cfg now authRnd "BYE" req tx st.auth).auth]
  rcases hget : st.store.get (SIPHeaders.getFirst req.headers hCallID) with _ | c
  · exact right_endSession_iff req _ hget
  · exact right_endCall_iff cfg rnd req _ c hkeyed hget

end Handler

/-! ### Hanging up a call in progress -/

/-- A BYE with the Call-ID of Alice's dialog in `talking` and the given tags. -/
def byeWith (fromTag toTag : String) : SIPMessage :=
  { newRequest .BYE (ascii "sip:trecs") with
    headers := SIPHeaders.add (SIPHeaders.add (SIPHeaders.add ∅
      hFrom (ascii "<sip:al@trecs>;tag=" ++ ascii fromTag))
      hTo (ascii "<sip:bo@trecs>;tag=" ++ ascii toTag)) hCallID (ascii "c1") }

theorem keyed_talkingSwitch : talkingSwitch.store.Keyed :=
  keyed_create.step (show storeStep Store.create (.store talking) = some talkingSwitch.store from rfl)

open Samples

theorem right_iff_aliceHangsUp :
    talkingSwitch.store.Keyed ∧
      (handleBye sampleSwitch 0 [] none (byeWith "a1" "s1") unknownSource talkingSwitch).Right
        talkingSwitch (byeWith "a1" "s1") true := by
  refine ⟨keyed_talkingSwitch, (right_iff sampleSwitch 0 [] none _ unknownSource talkingSwitch
    keyed_talkingSwitch).mpr fun _ => ?_⟩
  have hget : talkingSwitch.store.get
      (SIPHeaders.getFirst (byeWith "a1" "s1").headers hCallID) = some talking := by decide +kernel
  refine ⟨fun c hc => ?_, fun k c hc _ => ?_⟩
  · rw [hget] at hc
    cases hc
    decide +kernel
  · -- There is one call.
    rw [hget]
    by_cases hk : k = talking.aliceCallID
    · rw [hk] at hc
      exact (AList.lookup_insert _).symm.trans hc
    · have hnone : talkingSwitch.store.calls.lookup k = none :=
        (AList.lookup_insert_ne hk).trans (AList.lookup_empty k)
      cases hnone.symm.trans hc

/-- A BYE with the Call-ID of a call and two tags of the sender's choice. -/
theorem not_right_strangersBye :
    talkingSwitch.store.Keyed ∧ ¬ talking.Concerned (byeWith "x" "y") ∧
      (handleBye sampleSwitch 0 [] none (byeWith "x" "y") unknownSource
        talkingSwitch).state.store.calls.lookup (ascii "c1") = none ∧
      (handleBye sampleSwitch 0 [] none (byeWith "x" "y") unknownSource
        talkingSwitch).stopped = [talking] ∧
      (handleBye sampleSwitch 0 [] none (byeWith "x" "y") unknownSource
        talkingSwitch).forwarded.length = 1 ∧
      ¬ (handleBye sampleSwitch 0 [] none (byeWith "x" "y") unknownSource talkingSwitch).Right
        talkingSwitch (byeWith "x" "y") true := by
  have hnot : ¬ talking.Concerned (byeWith "x" "y") := by
    rintro ⟨side, hside⟩
    revert hside
    cases side with
    | alice => decide +kernel
    | bob => decide +kernel
  have hstopped : (handleBye sampleSwitch 0 [] none (byeWith "x" "y") unknownSource
      talkingSwitch).stopped = [talking] := by decide +kernel
  refine ⟨keyed_talkingSwitch, hnot, by decide +kernel, hstopped, by decide +kernel, fun h => ?_⟩
  have hc := h.stopped talking (by rw [hstopped]; exact mem_cons_self)
  exact hnot hc

end B2bua

end Trecs
