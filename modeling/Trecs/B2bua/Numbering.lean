import Trecs.B2bua.Channels
import Trecs.B2bua.Exchange
import Trecs.B2bua.InDialog
import Trecs.B2bua.ReInvite

/-!
# The Numbers of the Requests in a Dialog

One call from its INVITE to Bob to its end, with the requests the server sends in
the dialogs of the call: the INVITE, a PRACK for every reliable provisional
response of Bob, and a BYE when the other party hangs up or the session timer
expires.

The server does not count the requests of a dialog. The INVITE has number 1, a
PRACK has the number of the response it acknowledges plus one, which is 2 if Bob
answers with the number he was sent, and a BYE has number 2. So the second PRACK,
a BYE after a PRACK and a second BYE repeat a number.

The numbers do increase as long as there is at most one of these in each dialog,
and Bob's numbers can be counted up.

What comes from the network is free, as in the module on many calls: any response
at any time, a CANCEL, a BYE from either side. The transactions, and so the
repetitions of a request, are left out.

## Main definitions

* `CallRun`, `CallRunEvent`, `callStep`: One call.
* `SameDialog`, `Increasing`: What is claimed of its requests.
* `NumberOk`: The condition.

## Theorems

* `CallRun.Inv.step`: Every step that meets the condition keeps the invariant.
* `increasing_of_run`: The numbers in every run.
-/

namespace Trecs

open List Option

namespace B2bua

open Proto Sip Media

/-! ### One call -/

/-- A call, from the start of its response loop. `requests` are those the server
    has sent, without ACKs and CANCELs. -/
structure CallRun where
  loop : Loop
  canceled : Bool
  store : Store
  teardowns : List Teardown
  requests : List SIPMessage

/-- What can happen. The numbers are those of a teardown. -/
inductive CallRunEvent where
  | sent (sendFails : Bool)
  | takePrackDone
  | takeDone
  | takeError
  | takeResponse (env : LoopEnv) (resp : SIPMessage)
  | act (env : LoopEnv)
  | cancel
  | bye (req : SIPMessage)
  | expire (j : Nat)
  | stopTimer (j : Nat)
  | teardown (j : Nat) (rnd : Option Bytes)

/-- The call when its loop starts. -/
def CallRun.start (st : Started) : CallRun where
  loop := .sending (.storeRequest st.bobInvite)
  canceled := false
  store := Store.create.storeEarly ⟨st.cc.callID, st.cc.bobCallID, st.cc.serverTag, 0⟩
  teardowns := []
  requests := []

/-- Whether a request counts. -/
def Numbered (msg : SIPMessage) : Prop := msg.method ≠ .ACK ∧ msg.method ≠ .CANCEL

instance (msg : SIPMessage) : Decidable (Numbered msg) := inferInstanceAs (Decidable (_ ∧ _))

namespace CallRun

/-- Sending a request. -/
def send (s : CallRun) (msg : SIPMessage) : CallRun :=
  if Numbered msg then { s with requests := s.requests ++ [msg] } else s

/-- The loop goes on with what follows from an event. -/
def react (s : CallRun) (r : Reaction) : CallRun := { s with loop := .running r.todo r.last }

/-- One step of a teardown: the call afterwards, and where it goes on. Channels
    are no part of one call. -/
def teardownStep (h : Handler) (rnd : Option Bytes) (s : CallRun) (td : Teardown) :
    Option (CallRun × Option TeardownPoint) :=
  match td.pc with
  | .waiting => none
  | .lookup =>
    match s.store.get td.callID with
    | none => some (s, none)
    | some call => some (s.send (td.bye h rnd call), some (.remove call))
  | .remove call => some ({ s with store := s.store.remove call.aliceCallID }, none)
  | .release _ => some (s, none)

variable [SdpCodec]

/-- One action of the loop: the call afterwards and what the action turns into. -/
def perform (h : Handler) (st : Started) (env : LoopEnv) (s : CallRun) :
    Action → CallRun × List Action
  | .sendBob msg => (s.send msg, [])
  | .answer resp => (s, st.peer.answerActions h st.cc env s.canceled resp)
  | .storeCall call => ({ s with store := s.store.store call }, [])
  | .sessionTimer callID name _ =>
    ({ s with teardowns := s.teardowns ++ [⟨callID, some name, .waiting⟩] }, [])
  | .removeEarly callID => ({ s with store := s.store.removeEarly callID }, [])
  | .respond _ | .sendReliable _ | .cancelPRACK | .release _ => (s, [])

end CallRun

section Step

variable [SdpCodec] [UnicodeLower]

/-- The effect of an event. -/
def callStep (h : Handler) (st : Started) (s : CallRun) : CallRunEvent → Option CallRun
  | .sent sendFails =>
    match s.loop with
    | .sending _ =>
      if sendFails then some (s.react (st.peer.onSendFailed st.cc))
      else some { s.send st.bobInvite with loop := .select }
    | _ => none
  | .takePrackDone =>
    match s.loop, st.peer with
    | .select, .user _ _ => some (s.react (st.peer.onPrackDone st.cc))
    | _, _ => none
  | .takeDone =>
    match s.loop, s.canceled with
    | .select, true => some (s.react (st.peer.onDone st.cc))
    | _, _ => none
  | .takeError =>
    match s.loop with
    | .select => some (s.react (st.peer.onError st.cc))
    | _ => none
  | .takeResponse env resp =>
    match s.loop with
    | .select => some (s.react (st.peer.onResponse h st.cc env resp))
    | _ => none
  | .act env =>
    match s.loop with
    | .running [] last => some { s with loop := if last then .ended else .select }
    | .running (a :: todo) last =>
      let o := s.perform h st env a
      some { o.1 with loop := .running (o.2 ++ todo) last }
    | _ => none
  | .cancel => some { s with canceled := true }
  | .bye req =>
    some { s with
      teardowns := s.teardowns ++ [⟨SIPHeaders.getFirst req.headers hCallID, none, .lookup⟩] }
  | .expire j =>
    s.teardowns[j]?.bind (fun td =>
    if td.pc = .waiting then
      some { s with teardowns := s.teardowns.set j { td with pc := .lookup } }
    else none)
  | .stopTimer j =>
    s.teardowns[j]?.bind (fun td =>
    if td.pc = .waiting then some { s with teardowns := s.teardowns.eraseIdx j } else none)
  | .teardown j rnd =>
    s.teardowns[j]?.bind (fun td => (s.teardownStep h rnd td).map (fun o =>
    { o.1 with
      teardowns := resumeAt s.teardowns j (o.2.map (Teardown.mk td.callID td.timerOf)) }))

end Step

/-! ### The requests of a dialog -/

/-- Two requests of the server are in the same dialog, the first of them perhaps
    the INVITE that starts it, which has no tag of the other party. -/
def SameDialog (m m' : SIPMessage) : Prop :=
  SIPHeaders.getFirst m.headers hCallID = SIPHeaders.getFirst m'.headers hCallID ∧
    addressTags (SIPHeaders.getFirst m.headers hFrom) =
      addressTags (SIPHeaders.getFirst m'.headers hFrom) ∧
    (toTags m = toTags m' ∨ toTags m = [])

instance (m m' : SIPMessage) : Decidable (SameDialog m m') :=
  inferInstanceAs (Decidable (_ ∧ _ ∧ _))

/-- The numbers of the requests of each dialog increase. -/
def Increasing (requests : List SIPMessage) : Prop :=
  requests.Pairwise (fun m m' => SameDialog m m' → m.cseq.seq.toInt < m'.cseq.seq.toInt)

instance (requests : List SIPMessage) : Decidable (Increasing requests) :=
  inferInstanceAs (Decidable (List.Pairwise _ requests))

/-- Nothing but the INVITE has been sent in the dialog of a request. -/
def FirstInDialog (s : CallRun) (msg : SIPMessage) : Prop :=
  ∀ m ∈ s.requests, SameDialog m msg → m.method = .INVITE

instance (s : CallRun) (msg : SIPMessage) : Decidable (FirstInDialog s msg) :=
  inferInstanceAs (Decidable (∀ m ∈ s.requests, _))

section Condition

variable [UnicodeLower]

/-- A reliable provisional response has a number that can be counted up, and a
    PRACK or a BYE is sent only as the first of its dialog. -/
def NumberOk (h : Handler) (s : CallRun) : CallRunEvent → Prop
  | .takeResponse _ resp =>
    Peer.needsPRACK resp = true → 1 ≤ resp.cseq.seq.toInt ∧ resp.cseq.seq.toInt < 2 ^ 63 - 1
  | .act _ =>
    match s.loop.todo.head? with
    | some (.sendBob msg) => Numbered msg → FirstInDialog s msg
    | _ => True
  | .teardown j rnd =>
    ∀ td ∈ s.teardowns[j]?, td.pc = .lookup → ∀ call ∈ s.store.get td.callID,
      FirstInDialog s (td.bye h rnd call)
  | _ => True

instance (h : Handler) (s : CallRun) (e : CallRunEvent) : Decidable (NumberOk h s e) := by
  cases e with
  | act =>
    unfold NumberOk
    rcases s.loop.todo.head? with _ | a
    · infer_instance
    · cases a <;> infer_instance
  | _ => unfold NumberOk; infer_instance

end Condition

/-! ### What the loop sends -/

/-- A request in an action is a later one of its dialog. -/
def Action.Later : Action → Prop
  | .sendBob msg => Numbered msg → msg.method ≠ .INVITE ∧ 1 < msg.cseq.seq.toInt
  | _ => True

/-- The loop sends nothing to Bob when it gives up. -/
theorem later_of_giveUp (cc : CallCtx) (p : Peer) (res : SIPMessage) :
    (∀ a ∈ (p.onSendFailed cc).todo, a.Later) ∧ (∀ a ∈ (p.onPrackDone cc).todo, a.Later) ∧
      (∀ a ∈ (p.onDone cc).todo, a.Later) ∧ (∀ a ∈ (p.onError cc).todo, a.Later) ∧
      ∀ a ∈ p.giveUp ++ [.respond res] ++ p.deferred cc, a.Later := by
  cases p with
  | user binding supports100rel | trunk name uri expires =>
    simp only [Peer.onSendFailed, Peer.onPrackDone, Peer.onDone, Peer.onError, Peer.giveUp,
      Peer.deferred, cons_append, nil_append, forall_mem_cons, Action.Later,
      not_mem_nil, false_implies, implies_true, and_self]

/-- A number that can be counted up. -/
theorem toInt_succ (n : Int64) (h0 : 1 ≤ n.toInt) (hlt : n.toInt < 2 ^ 63 - 1) :
    (n + 1).toInt = n.toInt + 1 := by
  have hone : (1 : Int64).toInt = 1 := by decide
  rw [Int64.toInt_add, hone, Int.bmod_eq_of_le] <;> omega

section Sends

variable [UnicodeLower]

theorem later_onResponse (h : Handler) (cc : CallCtx) (env : LoopEnv) (p : Peer)
    (resp : SIPMessage)
    (hok : Peer.needsPRACK resp = true →
      1 ≤ resp.cseq.seq.toInt ∧ resp.cseq.seq.toInt < 2 ^ 63 - 1) :
    ∀ a ∈ (p.onResponse h cc env resp).todo, a.Later := by
  unfold Peer.onResponse
  simp only
  split
  · -- Only a PRACK is sent, and its number follows that of the response.
    have hprack : Peer.needsPRACK resp = true → (Action.sendBob (cc.prackToBob h p env resp)).Later := by
      intro hneeds _
      rcases hok hneeds with ⟨h0, hlt⟩
      refine ⟨by simp only [CallCtx.prackToBob, SIPMessage.method, newRequest, ne_eq, reduceCtorEq,
        not_false_eq_true], ?_⟩
      simp only [CallCtx.prackToBob]
      rw [toInt_succ _ h0 hlt]
      omega
    cases p with
    | trunk name uri expires =>
      simp [Peer.onProvisional, Action.Later]
    | user binding supports100rel =>
      simp only [Peer.onProvisional]
      split
      · intro a ha
        rcases mem_append.mp ha with ha | ha
        · split at ha
          · rename_i hneeds
            rw [mem_singleton.mp ha]
            exact hprack (Bool.and_eq_true_iff.mp hneeds).1
          · cases ha
        · rw [mem_singleton.mp ha]
          split <;> trivial
      · exact fun a ha => by cases ha
  · split
    · cases p with
      | user binding supports100rel | trunk name uri expires =>
        simp [Peer.beforeAnswer, Peer.deferred, Action.Later]
    · split
      · exact (later_of_giveUp cc p (cc.errorResponse resp)).2.2.2.2
      · exact fun a ha => by cases ha

end Sends

theorem later_answerActions [SdpCodec] (h : Handler) (cc : CallCtx) (env : LoopEnv)
    (canceled : Bool) (p : Peer) (resp : SIPMessage) :
    ∀ a ∈ p.answerActions h cc env canceled resp, a.Later := by
  have hdiscard : ∀ a ∈ p.discard, a.Later := by
    cases p with
    | user binding supports100rel => exact fun a ha => by cases ha
    | trunk name uri expires =>
      intro a ha
      rw [mem_singleton.mp ha]
      trivial
  have hestablish : ∀ call, ∀ a ∈ p.establish cc call, a.Later := by
    intro call a ha
    cases p with
    | user binding supports100rel =>
      rw [mem_singleton.mp ha]
      trivial
    | trunk name uri expires =>
      simp only [Peer.establish] at ha
      rcases mem_cons.mp ha with rfl | ha
      · trivial
      · split at ha
        · rw [mem_singleton.mp ha]
          trivial
        · cases ha
  unfold Peer.answerActions
  split
  · exact hdiscard
  · split
    · exact hdiscard
    · split
      · exact hdiscard
      · intro a ha
        rcases mem_append.mp ha with ha | ha
        · simp only [mem_cons, not_mem_nil, or_false] at ha
          rcases ha with rfl | rfl
          · -- The ACK does not count.
            exact fun hn => absurd rfl hn.1
          · trivial
        · split at ha
          · cases ha
          · exact hestablish _ a ha

/-! ### The invariant -/

/-- The numbers increase, an INVITE has number 1, nothing is sent before it, and
    what the loop has yet to send comes later. -/
structure CallRun.Inv (s : CallRun) : Prop where
  increasing : Increasing s.requests
  invites : ∀ m ∈ s.requests, m.method = .INVITE → m.cseq.seq.toInt = 1
  unsent : ∀ task, s.loop = .sending task → s.requests = [] ∧ s.store.calls = ∅
  later : ∀ a ∈ s.loop.todo, a.Later

namespace CallRun.Inv

variable {s : CallRun}

/-- What does not touch the loop or the requests. -/
theorem frame (hs : s.Inv) (t : CallRun) (hloop : t.loop = s.loop)
    (hreq : t.requests = s.requests) (hstore : s.store.calls = ∅ → t.store.calls = ∅) : t.Inv where
  increasing := by rw [hreq]; exact hs.increasing
  invites := by rw [hreq]; exact hs.invites
  unsent task htask := by
    rcases hs.unsent task (hloop ▸ htask) with ⟨hnil, hempty⟩
    exact ⟨hreq.trans hnil, hstore hempty⟩
  later := by rw [hloop]; exact hs.later

/-- The loop goes on with actions that send later requests. -/
theorem goOn (hs : s.Inv) (todo : List Action) (last : Bool) (h : ∀ a ∈ todo, a.Later) :
    ({ s with loop := .running todo last } : CallRun).Inv :=
  { hs with
    unsent task htask := by cases htask
    later := h }

/-- A later request as the first of its dialog. The INVITE has number 1, and
    nothing else is in the dialog. -/
theorem send (hs : s.Inv) (msg : SIPMessage) (hsent : ∀ task, s.loop ≠ .sending task)
    (hlater : (Action.sendBob msg).Later) (hfirst : Numbered msg → FirstInDialog s msg) :
    (s.send msg).Inv := by
  unfold CallRun.send
  by_cases hn : Numbered msg
  · rw [if_pos hn]
    rcases hlater hn with ⟨hmethod, hnumber⟩
    refine ⟨?_, fun m hm hinv => ?_, fun task htask => absurd htask (hsent task), hs.later⟩
    · refine pairwise_append.mpr ⟨hs.increasing, pairwise_singleton _ _, ?_⟩
      intro m hm m' hm' hsame
      rw [mem_singleton.mp hm'] at hsame ⊢
      rw [hs.invites m hm (hfirst hn m hm hsame)]
      exact hnumber
    · rcases mem_append.mp hm with hm | hm
      · exact hs.invites m hm hinv
      · rw [mem_singleton.mp hm] at hinv
        exact absurd hinv hmethod
  · rw [if_neg hn]
    exact hs

/-- The INVITE. -/
theorem sendInvite (hs : s.Inv) (msg : SIPMessage) (task : UACTask) (htask : s.loop = .sending task)
    (hseq : msg.cseq.seq.toInt = 1) : ({ s.send msg with loop := .select } : CallRun).Inv := by
  have hnil := (hs.unsent task htask).1
  have hreq : (s.send msg).requests = [] ∨ (s.send msg).requests = [msg] := by
    unfold CallRun.send
    split
    · simp [hnil]
    · exact .inl hnil
  refine ⟨?_, fun m hm _ => ?_, fun t ht => (by cases ht), fun a ha => by cases ha⟩
  · rcases hreq with hreq | hreq
    · simp only [hreq]
      exact List.Pairwise.nil
    · simp only [hreq]
      exact pairwise_singleton _ _
  · rcases hreq with hreq | hreq
    · simp only [hreq] at hm
      cases hm
    · simp only [hreq] at hm
      rw [mem_singleton.mp hm]
      exact hseq

end CallRun.Inv

theorem later_bye (td : Teardown) (h : Handler) (rnd : Option Bytes) (call : Call) :
    (Action.sendBob (td.bye h rnd call)).Later := by
  intro _
  unfold Teardown.bye
  simp only
  split
  · exact ⟨by simp only [Call.byeToBob, byeOn, SIPMessage.method, newRequest, ne_eq, reduceCtorEq,
      not_false_eq_true], by simp only [Call.byeToBob, byeOn]; decide⟩
  · exact ⟨by simp only [Call.byeToAlice, byeOn, SIPMessage.method, newRequest, ne_eq, reduceCtorEq,
      not_false_eq_true], by simp only [Call.byeToAlice, byeOn]; decide⟩

theorem Store.get_of_empty (s : Store) (h : s.calls = ∅) (k : Bytes) : s.get k = none := by
  unfold Store.get
  simp only [h, AList.lookup_empty]
  split
  · split <;> rfl
  · rfl

theorem Store.remove_of_empty (s : Store) (h : s.calls = ∅) (k : Bytes) :
    (s.remove k).calls = ∅ := by
  unfold Store.remove
  rw [h, AList.lookup_empty]
  exact h

theorem CallRun.Inv.teardown {s : CallRun} (hs : s.Inv) (h : Handler) (rnd : Option Bytes)
    (td : Teardown) (o : CallRun × Option TeardownPoint) (ho : s.teardownStep h rnd td = some o)
    (hok : td.pc = .lookup → ∀ call ∈ s.store.get td.callID, FirstInDialog s (td.bye h rnd call)) :
    o.1.Inv := by
  unfold CallRun.teardownStep at ho
  cases hpc : td.pc with
  | waiting =>
    rw [hpc] at ho
    cases ho
  | lookup =>
    rw [hpc] at ho
    simp only at ho
    cases hget : s.store.get td.callID with
    | none =>
      rw [hget] at ho
      cases ho
      exact hs
    | some call =>
      rw [hget] at ho
      cases ho
      -- A call that is found has been stored, so its INVITE has been sent.
      have hsent : ∀ task, s.loop ≠ .sending task := fun task htask => by
        rw [Store.get_of_empty s.store (hs.unsent task htask).2] at hget
        cases hget
      exact hs.send _ hsent (later_bye td h rnd call) fun _ => hok hpc call hget
  | remove call =>
    rw [hpc] at ho
    cases ho
    exact hs.frame _ rfl rfl fun hempty => Store.remove_of_empty s.store hempty _
  | release name =>
    rw [hpc] at ho
    cases ho
    exact hs

section Runs

variable [SdpCodec]

/-- One action of the loop. -/
theorem CallRun.Inv.perform {s : CallRun} (hs : s.Inv) (h : Handler) (st : Started) (env : LoopEnv)
    (a : Action) (todo : List Action) (last : Bool) (hloop : s.loop = .running (a :: todo) last)
    (hok : ∀ msg, a = .sendBob msg → Numbered msg → FirstInDialog s msg) :
    ({ (s.perform h st env a).1 with
      loop := .running ((s.perform h st env a).2 ++ todo) last } : CallRun).Inv := by
  have hall : ∀ b ∈ a :: todo, b.Later := by
    have hlater := hs.later
    rw [hloop] at hlater
    exact hlater
  rcases forall_mem_cons.mp hall with ⟨ha, hrest⟩
  cases a with
  | sendBob msg =>
    refine CallRun.Inv.goOn (hs.send msg (fun task htask => ?_) ha (hok msg rfl)) todo last hrest
    cases hloop.symm.trans htask
  | answer resp =>
    refine hs.goOn _ last fun b hb => ?_
    rcases mem_append.mp hb with hb | hb
    · exact later_answerActions h st.cc env s.canceled st.peer resp b hb
    · exact hrest b hb
  | storeCall call | sessionTimer callID name expires | removeEarly callID =>
    exact ⟨hs.increasing, hs.invites, fun task htask => (by cases htask), hrest⟩
  | respond res | sendReliable prov | cancelPRACK | release name => exact hs.goOn todo last hrest

variable [UnicodeLower]

theorem CallRun.Inv.step {s t : CallRun} (hs : s.Inv) (h : Handler) (st : Started)
    (hseq : st.bobInvite.cseq.seq.toInt = 1) (e : CallRunEvent) (hok : NumberOk h s e)
    (hstep : callStep h st s e = some t) : t.Inv := by
  have hgiveUp := later_of_giveUp st.cc st.peer st.bobInvite
  cases e with
  | sent sendFails =>
    simp only [callStep] at hstep
    split at hstep
    · rename_i task hloop
      split at hstep
      · cases hstep
        exact hs.goOn _ _ hgiveUp.1
      · cases hstep
        exact hs.sendInvite _ task hloop hseq
    · cases hstep
  | takePrackDone =>
    simp only [callStep] at hstep
    split at hstep
    · cases hstep
      exact hs.goOn _ _ hgiveUp.2.1
    · cases hstep
  | takeDone =>
    simp only [callStep] at hstep
    split at hstep
    · cases hstep
      exact hs.goOn _ _ hgiveUp.2.2.1
    · cases hstep
  | takeError =>
    simp only [callStep] at hstep
    split at hstep
    · cases hstep
      exact hs.goOn _ _ hgiveUp.2.2.2.1
    · cases hstep
  | takeResponse env resp =>
    simp only [callStep] at hstep
    split at hstep
    · cases hstep
      exact hs.goOn _ _ (later_onResponse h st.cc env st.peer resp hok)
    · cases hstep
  | act env =>
    simp only [callStep] at hstep
    split at hstep
    · cases hstep
      refine ⟨hs.increasing, hs.invites, fun task htask => ?_, fun a ha => ?_⟩
      · simp only at htask
        split at htask
        · cases htask
        · cases htask
      · simp only at ha
        split at ha
        · cases ha
        · cases ha
    · rename_i a todo last hloop
      cases hstep
      refine hs.perform h st env a todo last hloop fun msg hmsg => ?_
      rw [NumberOk, hloop] at hok
      simp only [Loop.todo, head?_cons, hmsg] at hok
      exact hok
    · cases hstep
  | cancel | bye req =>
    cases hstep
    exact hs.frame _ rfl rfl id
  | expire j | stopTimer j =>
    rcases bind_eq_some_iff.mp hstep with ⟨td, _, hstep⟩
    split at hstep
    · cases hstep
      exact hs.frame _ rfl rfl id
    · cases hstep
  | teardown j rnd =>
    rcases bind_eq_some_iff.mp hstep with ⟨td, htd, hstep⟩
    rcases map_eq_some_iff.mp hstep with ⟨o, ho, rfl⟩
    exact (hs.teardown h rnd td o ho (hok td htd)).frame _ rfl rfl id

omit [SdpCodec] [UnicodeLower] in
theorem CallRun.inv_start (st : Started) : (CallRun.start st).Inv where
  increasing := List.Pairwise.nil
  invites _ hm := by cases hm
  unsent _ _ := ⟨rfl, rfl⟩
  later _ ha := by cases ha

/-- The INVITE that a handler starts a loop with has number 1. -/
theorem seq_of_handleB2BUAInvite (h : Handler) (env : InviteEnv) (acquired : Bytes → Bool)
    (req : SIPMessage) (st : Started) (hst : handleB2BUAInvite h env acquired req = .ok st) :
    st.bobInvite.cseq.seq.toInt = 1 := by
  have hcseq : st.bobInvite.cseq = ⟨.INVITE, 1⟩ := by
    rcases started_handleB2BUAInvite h env acquired req st hst with
      ⟨toAddr, _, ⟨trk, dest, _, _, hst⟩ | ⟨_, hst⟩⟩
    · exact (started_trunkInvite h env req trk dest toAddr st hst).1
    · exact (started_userInvite h env req toAddr st hst).1
  rw [hcseq]
  decide

/-- In every run of a call in which a PRACK or a BYE is sent only as the first of
    its dialog, the numbers of the requests of each dialog increase. -/
theorem increasing_of_run (h : Handler) (env : InviteEnv) (acquired : Bytes → Bool)
    (req : SIPMessage) (st : Started) (hst : handleB2BUAInvite h env acquired req = .ok st)
    (es : List CallRunEvent) (s : CallRun)
    (hrun : Run (callStep h st) (NumberOk h) (CallRun.start st) es s) : Increasing s.requests := by
  have hseq := seq_of_handleB2BUAInvite h env acquired req st hst
  have hinv : s.Inv := Run.invariant CallRun.Inv (CallRun.inv_start st)
    (fun _ e _ hs hok hstep => hs.step h st hseq e hok hstep) hrun
  exact hinv.increasing

end Runs

/-! ### Calls with few and with many requests -/

open Samples

/-- A run of the call that a handler starts, exhibited by evaluating it. -/
theorem exists_callRun (h : Handler) (x : Except Exit Started)
    (ok : CallRun → CallRunEvent → Prop) [∀ s e, Decidable (ok s e)] (es : List CallRunEvent)
    (p : CallRun → Prop) [DecidablePred p]
    (hx : x.toOption.any (fun st => (exec (callStep h st) ok (CallRun.start st) es).any
      (fun s => decide (p s))) = true) :
    ∃ st s, x = .ok st ∧ Run (callStep h st) ok (CallRun.start st) es s ∧ p s := by
  rcases (Option.any_eq_true _ _).mp hx with ⟨st, hst, hs⟩
  rcases exists_run_of_exec hs with ⟨s, hrun, hp⟩
  refine ⟨st, s, ?_, hrun, hp⟩
  rcases x with e | st'
  · cases hst
  · rw [some.inj hst]

/-- The numbers of the requests that were sent. -/
def CallRun.numbers (s : CallRun) : List Int64 := s.requests.map (fun m => m.cseq.seq)

/-- A handler with reliable provisional responses. -/
def prackHandler : Handler := { plainHandler with prackEnabled := true }

/-- The call to Bob's phone. -/
def callToBob : Except Exit Started :=
  handleB2BUAInvite prackHandler reachable (fun _ => true) dialledCall

/-- The same call over a trunk with a session timer. -/
def callToTrunk : Except Exit Started :=
  handleB2BUAInvite prackHandler { reachable with matchRoute := fun user => some (shortCalls, user) }
    (fun _ => true) dialledCall

/-- Bob wants his ringing to be acknowledged. -/
def reliableRinging : CallRunEvent :=
  .takeResponse resolving { newResponse inviteToBob 180 (ascii "Ringing") with
    headers := ((newResponse inviteToBob 180 (ascii "Ringing")).headers.insert (ascii "Require")
      [ascii "100rel"]).insert (ascii "RSeq") [ascii "1"] }

/-- Bob answers, and the loop does the next `n` things. -/
def bobPicksUp (n : Nat) : List CallRunEvent :=
  .takeResponse resolving { newResponse inviteToBob 200 (ascii "OK") with body := audioBody } ::
    List.replicate n (.act resolving)

/-- A BYE with the Call-ID comes in and is forwarded. -/
def hangsUp (j : Nat) (callID : String) : List CallRunEvent :=
  [.bye { newRequest .BYE (ascii "sip:trecs") with
    headers := SIPHeaders.add ∅ hCallID (ascii callID) }, .teardown j none]

/-- Bob answers at once, and Alice hangs up. -/
theorem increasing_of_run_plainCall :
    ∃ st s, callToBob = .ok st ∧
      Run (callStep prackHandler st) (NumberOk prackHandler) (CallRun.start st)
        ([.sent false] ++ bobPicksUp 7 ++ hangsUp 0 "c1") s ∧
      s.numbers = [1, 2] ∧ Increasing s.requests := by
  rcases exists_callRun prackHandler callToBob (NumberOk prackHandler)
    ([.sent false] ++ bobPicksUp 7 ++ hangsUp 0 "c1") (fun s => s.numbers = [1, 2])
    (by decide +kernel) with ⟨st, s, hst, hrun, hnumbers⟩
  exact ⟨st, s, hst, hrun, hnumbers,
    increasing_of_run prackHandler reachable (fun _ => true) dialledCall st hst _ s hrun⟩

/-- Bob's ringing is acknowledged, he answers, and Alice hangs up. -/
def prackThenBye : List CallRunEvent :=
  [.sent false, reliableRinging] ++ List.replicate 3 (.act resolving) ++ bobPicksUp 7 ++
    hangsUp 0 "c1"

/-- Bob rings twice. -/
def twoPracks : List CallRunEvent :=
  [.sent false, reliableRinging] ++ List.replicate 3 (.act resolving) ++ [reliableRinging] ++
    List.replicate 3 (.act resolving)

/-- The session timer expires and Bob hangs up at the same time. -/
def twoByes : List CallRunEvent :=
  [.sent false] ++ bobPicksUp 6 ++ [.expire 0, .teardown 0 none] ++ hangsUp 1 "c2"

/-- A PRACK and a BYE have the same number, and so have two PRACKs and two
    BYEs. -/
theorem not_increasing_repeated :
    (∀ es ∈ [prackThenBye, twoPracks], ∃ st s, callToBob = .ok st ∧
      Run (callStep prackHandler st) (fun _ _ => True) (CallRun.start st) es s ∧
      s.numbers = [1, 2, 2] ∧ ¬ Increasing s.requests) ∧
    ∃ st s, callToTrunk = .ok st ∧
      Run (callStep prackHandler st) (fun _ _ => True) (CallRun.start st) twoByes s ∧
      s.numbers = [1, 2, 2] ∧ ¬ Increasing s.requests := by
  refine ⟨?_, exists_callRun prackHandler callToTrunk (fun _ _ => True) twoByes
    (fun s => s.numbers = [1, 2, 2] ∧ ¬ Increasing s.requests) (by decide +kernel)⟩
  intro es hes
  simp only [mem_cons, not_mem_nil, or_false] at hes
  rcases hes with rfl | rfl
  · exact exists_callRun prackHandler callToBob (fun _ _ => True) _
      (fun s => s.numbers = [1, 2, 2] ∧ ¬ Increasing s.requests) (by decide +kernel)
  · exact exists_callRun prackHandler callToBob (fun _ _ => True) _
      (fun s => s.numbers = [1, 2, 2] ∧ ¬ Increasing s.requests) (by decide +kernel)

end B2bua

end Trecs
