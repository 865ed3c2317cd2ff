import Trecs.B2bua.Leg
import Trecs.Sip.Channels

/-!
# One Final Response

Who gives Alice her final response: the response loop, a CANCEL that is being
handled, or the timeout of a reliable provisional response. Each of them owes
her one from some point on and gives it at a later one, and nothing in the code
keeps two of them from owing at the same time.

`Orderly` is the condition under which they do not. Nobody starts to owe Alice
a response while she has one or is owed one; and a 2xx of Bob is a 200 the
server can use that finds the loop still waiting for it. The number of final
responses given and owed then never exceeds one, and a loop that has made up
its mind to return has exactly one on its account.

## Main definitions

* `Leg.finals`: The final responses Alice's transaction was given.
* `Action.owes`, `CancelPoint.owes`, `TimeoutPoint.owes`: Those still to come.
* `Leg.Open`, `Orderly`: The condition.
* `SetupInv`: The invariant.

## Theorems

* `setupInv_step`: Every orderly step keeps the invariant.
-/

namespace Trecs

open List

namespace B2bua

open Proto Sip Media

/-! ### Final responses, given and owed -/

/-- Whether a response is final. -/
def isFinal (m : SIPMessage) : Bool := 200 ≤ m.statusCode

/-- The final responses Alice's transaction was given. -/
def Leg.finals (s : Leg) : Nat := s.given.countP isFinal

/-- The final responses an action stands for. -/
def Action.owes : Action → Nat
  | respond res => if isFinal res then 1 else 0
  | sendReliable prov => if isFinal prov then 1 else 0
  | answer _ => 1
  | _ => 0

/-- What the loop does for a provisional response. -/
def Action.passing : Action → Bool
  | respond res => !isFinal res
  | sendReliable prov => !isFinal prov
  | sendBob _ => true
  | _ => false

/-- The final responses a CANCEL at this point is going to give. -/
def CancelPoint.owes : CancelPoint → Nat
  | checkCall | findEarly | respond _ => 1
  | _ => 0

@[inherit_doc CancelPoint.owes] def TimeoutPoint.owes : TimeoutPoint → Nat
  | respond => 1
  | closeDone => 0

/-- The final responses owed by others than the loop. -/
def Leg.elsewhere (s : Leg) : Nat :=
  tally (fun j => j.pc.owes) s.cancels + (s.timeout.map TimeoutPoint.owes).getD 0

/-- Alice has no final response, the loop has none for her, and nobody else is
    handling the end of the call. -/
def Leg.Open (s : Leg) : Prop :=
  s.finals = 0 ∧ s.loop.ending = false ∧ s.cancels = [] ∧ s.timeout = none

instance (s : Leg) : Decidable s.Open := inferInstanceAs (Decidable (_ ∧ _ ∧ _ ∧ _))

/-- Bob has accepted the call. -/
def Leg.Answered (s : Leg) : Prop := ∃ m ∈ s.received, m.statusCode = 200

instance (s : Leg) : Decidable s.Answered := inferInstanceAs (Decidable (∃ m ∈ s.received, _))

section Condition

variable [SdpCodec]

/-- A final response of Bob or an error is taken up only while the call is open.
    A 2xx is a 200 that the server can use, and the first of them comes while
    the call is open, Bob's transaction waits for it and the channel has room.
    Until then, and only until then, a CANCEL, the timeout of a provisional
    response, timer B and a failing send may end the call. -/
def Orderly (s : Leg) : LegEvent → Prop
  | .send _ sendFails => sendFails = true → s.Open ∧ ¬ s.Answered
  | .takeResponse _ => ∀ m ∈ s.bob.responses.head?, 200 ≤ m.statusCode → s.Open
  | .takeError => s.Open
  | .bobResponse _ msg =>
    s.bob.Answers msg → 200 ≤ msg.statusCode → msg.statusCode < 300 →
      msg.statusCode = 200 ∧ Acceptable msg ∧
        (s.Answered ∨ (s.Open ∧ s.bob.waiting = true ∧ s.bob.responses.length < 4))
  | .bobCallback i _ => ∀ t ∈ s.bob.timers[i]?, t.kind = .B → ¬ s.Answered
  | .cancel _ _ => s.alice.pending = true → s.Open ∧ ¬ s.Answered
  | .prackTimeout => s.Open ∧ ¬ s.Answered
  | _ => True

instance (s : Leg) (e : LegEvent) : Decidable (Orderly s e) := by
  cases e <;> unfold Orderly <;> infer_instance

/-! ### The invariant -/

/-- At most one final response is given or owed, and a loop that will not wait
    again gives it unless it was given. A canceled call has it, and so has one
    whose CANCEL or timeout is past giving it. Before it, Alice's transaction is
    pending without timers, and no call is stored. -/
structure SetupInv (s : Leg) : Prop where
  one : s.finals + tally Action.owes s.loop.todo + s.elsewhere ≤ 1
  ending : s.loop.ending = true → s.finals + tally Action.owes s.loop.todo = 1
  quiet : s.loop.ending = false → ∀ a ∈ s.loop.todo, a.passing = true
  done : s.canceled = true ∨ s.prackDone = true → s.finals = 1
  jobs : ∀ j ∈ s.cancels, j.pc.owes = 0 → s.finals = 1
  closing : s.timeout = some .closeDone → s.finals = 1
  fresh : s.finals = 0 → s.alice.pending = true ∧ s.alice.timers = []
  unstored : s.loop.ending = false → s.store.calls = ∅
  channel : ∀ m ∈ s.bob.responses, m.statusCode = 200 → Acceptable m
  answers : ∀ m, .answer m ∈ s.loop.todo → Acceptable m

end Condition

theorem owes_of_passing (a : Action) (h : a.passing = true) : a.owes = 0 := by
  cases a with
  | respond res | sendReliable prov =>
    rw [Action.passing, Bool.not_eq_true'] at h
    rw [Action.owes, h, if_neg Bool.false_ne_true]
  | sendBob msg => rfl
  | _ => contradiction

theorem tally_owes_of_passing (todo : List Action) (h : ∀ a ∈ todo, a.passing = true) :
    tally Action.owes todo = 0 :=
  tally_eq_zero _ _ fun a ha => owes_of_passing a (h a ha)

/-! ### Responses to Alice -/

namespace Leg

variable (now : Nat) (s : Leg) (tx : InviteTransaction) (res : SIPMessage)

theorem finals_respond : (s.respond now res).finals = s.finals + if isFinal res then 1 else 0 := by
  rw [finals, respond, countP_append, countP_singleton, finals]

/-- A provisional response leaves Alice's transaction pending and without
    timers. -/
theorem fresh_respond (h : isFinal res = false) (hp : tx.pending = true ∧ tx.timers = []) :
    (tx.respond now res).tx.pending = true ∧ (tx.respond now res).tx.timers = [] := by
  have hlt : res.statusCode < 200 := by
    rw [isFinal, decide_eq_false_iff_not] at h
    omega
  rcases tx.respond_cases now res with
    h | ⟨_, _, h⟩ | ⟨_, _, h⟩ | ⟨_, _, h2, _⟩ | ⟨_, h3, _⟩ | ⟨_, h3, _⟩
  · rw [h]
    exact hp
  · rw [h]
    exact hp
  · rw [h]
    exact ⟨rfl, hp.2⟩
  · omega
  · omega
  · omega

/-- Alice's transaction after a response, while she has no final one. -/
theorem fresh_of_respond (hs : s.finals = 0 → s.alice.pending = true ∧ s.alice.timers = [])
    (h0 : (s.respond now res).finals = 0) :
    (s.respond now res).alice.pending = true ∧ (s.respond now res).alice.timers = [] := by
  rw [finals_respond] at h0
  cases hf : isFinal res with
  | true =>
    rw [hf, if_pos rfl] at h0
    omega
  | false => exact fresh_respond now s.alice res hf (hs (by omega))

/-- Alice's transaction when a CANCEL comes in: it stays as it is, and the
    handler is called if it is pending. -/
theorem cancelRequest_cases (ev : MessageEvent) : (tx.cancelRequest now ev true).sent = [] ∧
    (tx.cancelRequest now ev true).callHandler = tx.pending ∧
    (tx.cancelRequest now ev true).tx.pending = tx.pending ∧
    (tx.cancelRequest now ev true).tx.timers = tx.timers ∧
    (tx.cancelRequest now ev true).tx.lastResp = tx.lastResp := by
  cases hp : tx.pending with
  | true =>
    rw [InviteTransaction.cancelRequest, if_pos hp]
    exact ⟨rfl, rfl, hp, rfl, rfl⟩
  | false =>
    rw [InviteTransaction.cancelRequest, if_neg (by rw [hp]; exact Bool.false_ne_true)]
    split
    · split <;> exact ⟨rfl, rfl, hp, rfl, rfl⟩
    · exact ⟨rfl, rfl, hp, rfl, rfl⟩

theorem ackReceived_of_pending (hp : tx.pending = true) : (tx.ackReceived now).tx = tx := by
  have hne : tx.state ≠ .Completed := by
    intro hc
    rw [InviteTransaction.pending_iff, hc] at hp
    rcases hp with hp | hp <;> cases hp
  rw [InviteTransaction.ackReceived, if_pos hne]

end Leg

namespace SetupInv

variable [SdpCodec] {s : Leg}

/-- While the loop may wait again, it owes nothing. -/
theorem owes_eq_zero (hs : SetupInv s) (h : s.loop.ending = false) :
    tally Action.owes s.loop.todo = 0 :=
  tally_owes_of_passing _ (hs.quiet h)

/-- While a CANCEL owes a response, there is none and nobody else owes one. -/
theorem nothing_else (hs : SetupInv s) (j : CancelJob) (hj : j ∈ s.cancels)
    (howes : j.pc.owes = 1) : s.finals + tally Action.owes s.loop.todo = 0 := by
  have hle := le_tally (fun k : CancelJob => k.pc.owes) _ j hj
  have hone := hs.one
  rw [Leg.elsewhere] at hone
  omega

/-! ### Steps of the loop -/

/-- Changes on Bob's side that put nothing unacceptable into the channel. -/
theorem bobSide (hs : SetupInv s) (bob : UACTransaction) (bobTasks : List UACTask)
    (received toBob : List SIPMessage)
    (hch : ∀ m ∈ bob.responses, m.statusCode = 200 → Acceptable m) :
    SetupInv { s with bob := bob, bobTasks := bobTasks, received := received, toBob := toBob } :=
  { hs with
    channel := hch }

/-- Changes of Alice's transaction that keep a pending one without timers. -/
theorem aliceSide (hs : SetupInv s) (alice : InviteTransaction) (sent : List SIPMessage)
    (h : s.finals = 0 → alice.pending = true ∧ alice.timers = []) :
    SetupInv { s with alice := alice, sent := sent } :=
  { hs with
    fresh := h }

/-- The loop goes on waiting, or does what a provisional response asks for. -/
theorem listen (hs : SetupInv s) (l : Loop) (hend : s.loop.ending = false)
    (hl : l.ending = false) (hpass : ∀ a ∈ l.todo, a.passing = true) :
    SetupInv { s with loop := l } :=
  { hs with
    one := by
      have h1 := hs.one
      have h2 := hs.owes_eq_zero hend
      have h3 := tally_owes_of_passing _ hpass
      change s.finals + tally Action.owes l.todo + s.elsewhere ≤ 1
      omega
    ending := fun h => by cases hl.symm.trans h
    quiet := fun _ => hpass
    unstored := fun _ => hs.unstored hend
    answers := fun m hm => by cases hpass _ hm }

/-- The loop will not wait again. Either Alice has her final response, or the
    loop is going to give it and the call was open. -/
theorem leave (hs : SetupInv s) (todo : List Action)
    (hone : s.finals + tally Action.owes todo = 1)
    (hopen : 0 < tally Action.owes todo → s.Open)
    (hans : ∀ m, .answer m ∈ todo → Acceptable m) :
    SetupInv { s with loop := .running todo true } :=
  { hs with
    one := by
      change s.finals + tally Action.owes todo + s.elsewhere ≤ 1
      by_cases h : 0 < tally Action.owes todo
      · rcases hopen h with ⟨_, _, hc, ht⟩
        have helse : s.elsewhere = 0 := by rw [Leg.elsewhere, hc, ht]; rfl
        omega
      · have := hs.one
        omega
    ending := fun _ => hone
    quiet := fun h => by cases h.symm
    unstored := fun h => by cases h.symm
    answers := hans }

/-- One action of the loop: what it owed is given, or owed by what follows. -/
theorem perform (hs : SetupInv s) (s' : Leg) (a : Action) (todo next : List Action) (last : Bool)
    (hl : s.loop = .running (a :: todo) last)
    (hcancels : s'.cancels = s.cancels) (htimeout : s'.timeout = s.timeout)
    (hcanceled : s'.canceled = s.canceled) (hprackDone : s'.prackDone = s.prackDone)
    (hbob : s'.bob = s.bob)
    (hfin : s'.finals + tally Action.owes next = s.finals + a.owes) (hmono : s.finals ≤ s'.finals)
    (hfresh : s'.finals = 0 → s'.alice.pending = true ∧ s'.alice.timers = [])
    (hcalls : last = false → s'.store.calls = s.store.calls)
    (hnext : last = false → ∀ x ∈ next, x.passing = true)
    (hans : ∀ m, .answer m ∈ next → Acceptable m) :
    SetupInv { s' with loop := .running (next ++ todo) last } := by
  have hone := hs.one
  have hend := hs.ending
  have hquiet := hs.quiet
  have hunst := hs.unstored
  have hanswers := hs.answers
  rw [hl] at hone hend hquiet hunst hanswers
  simp only [Loop.todo, Loop.ending, tally_cons] at hone hend hquiet hunst hanswers
  have helse : s'.elsewhere = s.elsewhere := by rw [Leg.elsewhere, hcancels, htimeout, Leg.elsewhere]
  have htotal : s'.finals + tally Action.owes (next ++ todo) + s'.elsewhere ≤ 1 := by
    rw [tally_append, helse]
    omega
  -- Who had a final response before still has exactly that one.
  have hkeep : s.finals = 1 → s'.finals = 1 := by
    intro h
    omega
  exact
    { one := htotal
      ending := fun h => by
        have := hend h
        change s'.finals + tally Action.owes (next ++ todo) = 1
        rw [tally_append]
        omega
      quiet := fun h x hx => by
        rcases mem_append.mp hx with hx | hx
        · exact hnext h x hx
        · exact hquiet h x (mem_cons_of_mem a hx)
      done := fun h => hkeep (hs.done (by
        rw [← hcanceled, ← hprackDone]
        exact h))
      jobs := fun j hj h => hkeep (hs.jobs j (hcancels ▸ hj) h)
      closing := fun h => hkeep (hs.closing (htimeout.symm.trans h))
      fresh := hfresh
      unstored := fun h => (hcalls h).trans (hunst h)
      channel := fun m hm => hs.channel m (hbob ▸ hm)
      answers := fun m hm => by
        rcases mem_append.mp hm with hm | hm
        · exact hans m hm
        · exact hanswers m (mem_cons_of_mem a hm) }

/-! ### Steps of a CANCEL and of a timeout -/

/-- One step of a CANCEL: the response it owed is given, or still owed. -/
theorem advance (hs : SetupInv s) (s' : Leg) (i : Nat) (j : CancelJob) (pc : Option CancelPoint)
    (hj : s.cancels[i]? = some j) (hloop : s'.loop = s.loop) (htimeout : s'.timeout = s.timeout)
    (hcanceled : s'.canceled = true → s.canceled = true ∨ s'.finals = 1)
    (hprackDone : s'.prackDone = s.prackDone) (hbob : s'.bob = s.bob)
    (hfin : s'.finals + (pc.map CancelPoint.owes).getD 0 = s.finals + j.pc.owes)
    (hmono : s.finals ≤ s'.finals)
    (hfresh : s'.finals = 0 → s'.alice.pending = true ∧ s'.alice.timers = [])
    (hcalls : s'.store.calls = s.store.calls)
    (hpc : ∀ k, pc = some k → k.owes = 0 → s'.finals = 1) :
    SetupInv { s' with cancels := resumeAt s.cancels i (pc.map (CancelJob.mk j.req)) } := by
  have hone := hs.one
  have htally := tally_resumeAt (fun k : CancelJob => k.pc.owes) s.cancels i j
    (pc.map (CancelJob.mk j.req)) hj
  rw [Option.map_map] at htally
  change _ = _ + (pc.map CancelPoint.owes).getD 0 at htally
  have hle := le_tally (fun k : CancelJob => k.pc.owes) _ j (mem_of_getElem? hj)
  rw [Leg.elsewhere] at hone
  have hkeep : s.finals = 1 → s'.finals = 1 := by
    intro h
    omega
  exact
    { one := by
        change s'.finals + tally Action.owes s'.loop.todo +
          (tally (fun k => k.pc.owes) (resumeAt s.cancels i (pc.map (CancelJob.mk j.req))) +
            (s'.timeout.map TimeoutPoint.owes).getD 0) ≤ 1
        rw [hloop, htimeout]
        omega
      -- A loop on its way out leaves nothing for a CANCEL to owe.
      ending := fun h => by
        rw [hloop] at h
        have := hs.ending h
        change s'.finals + tally Action.owes s'.loop.todo = 1
        rw [hloop]
        omega
      quiet := fun h => by
        rw [hloop] at h ⊢
        exact hs.quiet h
      done := fun h => by
        rcases h with h | h
        · rcases hcanceled h with h | h
          · exact hkeep (hs.done (Or.inl h))
          · exact h
        · exact hkeep (hs.done (Or.inr (hprackDone.symm.trans h)))
      jobs := fun k hk h => by
        rcases mem_resumeAt s.cancels i _ k hk with hk | hk
        · exact hkeep (hs.jobs k hk h)
        · rcases Option.map_eq_some_iff.mp hk with ⟨x, hx, hk⟩
          rw [← hk] at h
          exact hpc x hx h
      closing := fun h => hkeep (hs.closing (htimeout.symm.trans h))
      fresh := hfresh
      unstored := fun h => hcalls.trans (hs.unstored (by rw [← hloop]; exact h))
      channel := fun m hm => hs.channel m (hbob ▸ hm)
      answers := fun m hm => hs.answers m (hloop ▸ hm) }

/-- Somebody else than the loop starts to owe Alice a response. -/
theorem undertake (hs : SetupInv s) (hopen : s.Open) (alice : InviteTransaction)
    (halice : s.alice.pending = true ∧ s.alice.timers = [] →
      alice.pending = true ∧ alice.timers = [])
    (sent : List SIPMessage) (prack : Option Int) (cancels : List CancelJob)
    (timeout : Option TimeoutPoint)
    (htally : tally (fun k => k.pc.owes) cancels + (timeout.map TimeoutPoint.owes).getD 0 = 1)
    (hjobs : ∀ j ∈ cancels, j.pc.owes = 1) (hclosing : timeout ≠ some .closeDone) :
    SetupInv { s with
      alice := alice, sent := sent, prack := prack, cancels := cancels, timeout := timeout } :=
  { hs with
    one := by
      rcases hopen with ⟨h0, hend, _, _⟩
      have := hs.owes_eq_zero hend
      change s.finals + tally Action.owes s.loop.todo +
        (tally (fun k => k.pc.owes) cancels + (timeout.map TimeoutPoint.owes).getD 0) ≤ 1
      omega
    jobs := fun j hj h => absurd h (by rw [hjobs j hj]; exact Nat.one_ne_zero)
    closing := fun h => absurd h hclosing
    fresh := fun h => halice (hs.fresh h) }

/-- The response of a timeout, which nobody else has given or owes. -/
theorem timedOut (hs : SetupInv s) (now : Nat) (res : SIPMessage) (hf : isFinal res = true)
    (hq : s.timeout = some .respond) :
    SetupInv { s.respond now res with timeout := some .closeDone } := by
  have hone := hs.one
  rw [Leg.elsewhere, hq] at hone
  simp only [Option.map_some, TimeoutPoint.owes, Option.getD_some] at hone
  have h1 : (s.respond now res).finals = 1 := by
    rw [s.finals_respond now res, hf, if_pos rfl]
    omega
  exact
    { one := by
        change (s.respond now res).finals + tally Action.owes s.loop.todo +
          (tally (fun k => k.pc.owes) s.cancels + 0) ≤ 1
        omega
      ending := fun h => by
        have := hs.ending h
        omega
      quiet := hs.quiet
      done := fun _ => h1
      jobs := fun _ _ _ => h1
      closing := fun _ => h1
      fresh := fun h0 => absurd (h0.symm.trans h1) Nat.zero_ne_one
      unstored := hs.unstored
      channel := hs.channel
      answers := hs.answers }

end SetupInv

/-! ### What the reactions owe -/

variable (cc : CallCtx) (call : Call) (p : Peer) (m : SIPMessage)

theorem tally_deferred : tally Action.owes (p.deferred cc) = 0 := by
  cases p <;> rfl

theorem tally_giveUp : tally Action.owes p.giveUp = 0 := by
  cases p <;> rfl

theorem tally_beforeAnswer : tally Action.owes p.beforeAnswer = 0 := by
  cases p <;> rfl

theorem tally_onSendFailed : tally Action.owes (p.onSendFailed cc).todo = 1 := by
  cases p <;> rfl

theorem tally_onDone : tally Action.owes (p.onDone cc).todo = 0 := by
  rw [Peer.onDone, tally_append, tally_giveUp, tally_deferred]

theorem tally_onError : tally Action.owes (p.onError cc).todo = 1 := by
  rw [Peer.onError, tally_append, tally_append, tally_giveUp, tally_deferred]
  rfl

/-- No reaction but that to a 200 has an answer to handle. -/
theorem not_mem_answer_deferred : Action.answer m ∉ p.deferred cc := by
  cases p <;> simp only [Peer.deferred, mem_cons, not_mem_nil, reduceCtorEq, or_self,
    not_false_eq_true]

theorem not_mem_answer_giveUp : Action.answer m ∉ p.giveUp := by
  cases p <;> simp only [Peer.giveUp, mem_cons, not_mem_nil, reduceCtorEq, or_self,
    not_false_eq_true]

theorem not_mem_answer_beforeAnswer : Action.answer m ∉ p.beforeAnswer := by
  cases p <;> simp only [Peer.beforeAnswer, mem_cons, not_mem_nil, reduceCtorEq, or_self,
    not_false_eq_true]

theorem not_mem_answer_onSendFailed : Action.answer m ∉ (p.onSendFailed cc).todo := by
  cases p <;> simp only [Peer.onSendFailed, mem_cons, not_mem_nil, reduceCtorEq, or_self,
    not_false_eq_true]

theorem not_mem_answer_respond (res m : SIPMessage) :
    Action.answer m ∉ p.giveUp ++ [.respond res] ++ p.deferred cc := by
  simp [not_mem_answer_giveUp p m, not_mem_answer_deferred cc p m]

theorem isFinal_newResponse (req : SIPMessage) (resp : SIPMessage) (reason : Bytes) :
    isFinal (newResponse req (statusInt resp) reason) = isFinal resp := by
  rw [isFinal, newResponse_statusCode, toInt_statusInt, isFinal]

theorem isFinal_provisional (resp : SIPMessage) : isFinal (cc.provisional resp) = isFinal resp := by
  rw [← isFinal_newResponse cc.req resp (CallCtx.reasonOf resp)]
  unfold CallCtx.provisional
  simp only
  split <;> rfl

theorem tally_establish : tally Action.owes (p.establish cc call) = 0 := by
  cases p with
  | user binding aliceSupports100rel => rfl
  | trunk trunkName bobReqURI sessionExpires =>
    simp only [Peer.establish]
    split <;> rfl

theorem not_mem_answer_establish : Action.answer m ∉ p.establish cc call := by
  cases p with
  | user binding aliceSupports100rel =>
    simp [Peer.establish]
  | trunk trunkName bobReqURI sessionExpires =>
    simp only [Peer.establish]
    split <;> simp only [mem_cons, not_mem_nil, reduceCtorEq, or_self,
      not_false_eq_true]

section Reactions

variable [UnicodeLower]

/-- A provisional response is passed on as one. -/
theorem passing_onProvisional (h : Handler) (cc : CallCtx) (env : LoopEnv) (p : Peer)
    (resp : SIPMessage) (hlt : resp.statusCode < 200) (a : Action)
    (ha : a ∈ p.onProvisional h cc env resp) : a.passing = true := by
  have hprov : (!isFinal (cc.provisional resp)) = true := by
    rw [isFinal_provisional, isFinal, Bool.not_eq_true', decide_eq_false_iff_not]
    omega
  cases p with
  | trunk trunkName bobReqURI sessionExpires =>
    rw [mem_singleton.mp ha]
    exact hprov
  | user binding aliceSupports100rel =>
    simp only [Peer.onProvisional] at ha
    split at ha
    · rcases mem_append.mp ha with ha | ha
      · split at ha
        · rw [mem_singleton.mp ha]
          rfl
        · cases ha
      · rw [mem_singleton.mp ha]
        split <;> exact hprov
    · cases ha

/-- What the loop does with a response: pass it on and wait again, or return
    with one final response to give. -/
theorem onResponse_cases (h : Handler) (cc : CallCtx) (env : LoopEnv) (p : Peer)
    (resp : SIPMessage) :
    ((p.onResponse h cc env resp).last = false ∧
      ∀ a ∈ (p.onResponse h cc env resp).todo, a.passing = true) ∨
    ((p.onResponse h cc env resp).last = true ∧ 200 ≤ resp.statusCode ∧
      tally Action.owes (p.onResponse h cc env resp).todo = 1 ∧
      ∀ m, .answer m ∈ (p.onResponse h cc env resp).todo → m = resp ∧ m.statusCode = 200) := by
  by_cases h1 : 100 ≤ resp.statusCode ∧ resp.statusCode < 200
  · left
    rw [Peer.onResponse, if_pos h1]
    exact ⟨rfl, passing_onProvisional h cc env p resp h1.2⟩
  by_cases h2 : resp.statusCode = 200
  · right
    rw [Peer.onResponse, if_neg h1, if_pos h2]
    refine ⟨rfl, by omega, ?_, fun m hm => ?_⟩
    · rw [tally_append, tally_append, tally_beforeAnswer, tally_deferred]
      rfl
    · simp only [mem_append, not_mem_answer_beforeAnswer p m, not_mem_answer_deferred cc p m,
        mem_singleton, Action.answer.injEq, false_or, or_false] at hm
      rw [hm]
      exact ⟨rfl, h2⟩
  by_cases h3 : 300 ≤ resp.statusCode
  · right
    rw [Peer.onResponse, if_neg h1, if_neg h2, if_pos h3]
    refine ⟨rfl, by omega, ?_, fun m hm => absurd hm (not_mem_answer_respond cc p _ m)⟩
    have hf : isFinal (cc.errorResponse resp) = true := by
      rw [CallCtx.errorResponse, isFinal_newResponse, isFinal, decide_eq_true_eq]
      omega
    rw [tally_append, tally_append, tally_giveUp, tally_deferred, tally_cons, tally_nil,
      Action.owes, hf, if_pos rfl]
  · left
    rw [Peer.onResponse, if_neg h1, if_neg h2, if_neg h3]
    exact ⟨rfl, fun a ha => by cases ha⟩

end Reactions

section Step

variable [SdpCodec]

/-- An acceptable answer owes Alice her 200. -/
theorem answerActions_owes (h : Handler) (cc : CallCtx) (env : LoopEnv) (p : Peer)
    (resp : SIPMessage) (ha : Acceptable resp) :
    tally Action.owes (p.answerActions h cc env false resp) = 1 ∧
      ∀ m, .answer m ∉ p.answerActions h cc env false resp := by
  rcases p.answerActions_of_acceptable h cc env resp ha with ⟨bobTo, heq⟩
  have hf : isFinal (cc.alice200 h env) = true := rfl
  constructor
  · have hrest : tally Action.owes (if cc.hasEarlyOffer && !env.resolves then []
        else p.establish cc (cc.answeredCall h p bobTo)) = 0 := by
      split
      · rfl
      · rw [tally_establish]
    rw [heq, tally_append, hrest]
    simp [Action.owes, hf]
  · intro m hm
    rw [heq] at hm
    rcases mem_append.mp hm with hm | hm
    · contradiction
    · split at hm
      · cases hm
      · exact absurd hm (not_mem_answer_establish cc _ p m)

/-- One action of the loop. -/
theorem setupInv_act (h : Handler) (cc : CallCtx) (p : Peer) (now : Nat) (env : LoopEnv)
    (s : Leg) (a : Action) (todo : List Action) (last : Bool)
    (hl : s.loop = .running (a :: todo) last) (hs : SetupInv s) (o : Leg × List Action)
    (ho : s.act h cc p now env a = some o) :
    SetupInv { o.1 with loop := .running (o.2 ++ todo) last } := by
  -- What the loop owes for a provisional response is nothing.
  have hpass : last = false → a.passing = true := by
    intro hlast
    refine hs.quiet ?_ a ?_
    · rw [hl, hlast]
      rfl
    · rw [hl]
      exact mem_cons_self
  cases a with
  | respond res =>
    rw [Leg.act] at ho
    cases ho
    have hf := s.finals_respond now res
    refine hs.perform (s.respond now res) _ todo [] last hl rfl rfl rfl rfl rfl ?_ (by omega)
      (s.fresh_of_respond now res hs.fresh) (fun _ => rfl)
      (fun _ x hx => by cases hx) (fun m hm => by cases hm)
    rw [hf, tally_nil, Action.owes]
    rfl
  | sendReliable prov =>
    rw [Leg.act] at ho
    split at ho
    · cases ho
      -- Its number and the required extension leave the status as it is.
      have hnum : isFinal (ReliableProvisionalManager.numbered prov (s.prack.getD 0 + 1)) =
          isFinal prov := rfl
      generalize ReliableProvisionalManager.numbered prov (s.prack.getD 0 + 1) = res at hnum
      have hf := s.finals_respond now res
      rw [hnum] at hf
      exact hs.perform { s.respond now res with prack := some (s.prack.getD 0 + 1) } _ todo []
        last hl rfl rfl rfl rfl rfl hf (by
          change s.finals ≤ (s.respond now res).finals
          omega)
        (s.fresh_of_respond now res hs.fresh) (fun _ => rfl)
        (fun _ x hx => by cases hx) (fun m hm => by cases hm)
    · cases ho
  | answer resp =>
    rw [Leg.act] at ho
    cases ho
    have hlast : last = true := by
      cases last with
      | true => rfl
      | false => cases hpass rfl
    -- The loop owes a response, so nobody has canceled the call.
    have h0 : s.finals = 0 := by
      have := hs.one
      rw [hl] at this
      simp only [Loop.todo, tally_cons, Action.owes] at this
      omega
    have hnc : s.canceled = false := by
      cases hc : s.canceled with
      | false => rfl
      | true => exact absurd (h0.symm.trans (hs.done (Or.inl hc))) Nat.zero_ne_one
    have hacc := hs.answers resp (by rw [hl]; exact mem_cons_self)
    rcases answerActions_owes h cc env p resp hacc with ⟨howes, hans⟩
    rw [hnc]
    exact hs.perform s _ todo _ last hl rfl rfl rfl rfl rfl (by rw [howes]; rfl) le_rfl hs.fresh
      (fun _ => rfl) (fun hf => by cases hf.symm.trans hlast)
      (fun m hm => absurd hm (hans m))
  | storeCall call =>
    rw [Leg.act] at ho
    cases ho
    exact hs.perform { s with store := s.store.store call } _ todo [] last hl rfl rfl rfl rfl rfl
      rfl le_rfl hs.fresh (fun hlast => by cases hpass hlast)
      (fun _ x hx => by cases hx) (fun m hm => by cases hm)
  | cancelPRACK =>
    rw [Leg.act] at ho
    split at ho
    · cases ho
      exact hs.perform { s with prack := none } _ todo [] last hl rfl rfl rfl rfl rfl
        rfl le_rfl hs.fresh (fun _ => rfl)
        (fun _ x hx => by cases hx) (fun m hm => by cases hm)
    · cases ho
  | removeEarly callID =>
    rw [Leg.act] at ho
    cases ho
    exact hs.perform { s with store := s.store.removeEarly callID } _ todo [] last hl
      rfl rfl rfl rfl rfl rfl le_rfl hs.fresh (fun _ => rfl)
      (fun _ x hx => by cases hx) (fun m hm => by cases hm)
  | sendBob msg =>
    rw [Leg.act] at ho
    cases ho
    exact hs.perform { s with toBob := s.toBob ++ [msg] } _ todo [] last hl rfl rfl rfl rfl rfl
      rfl le_rfl hs.fresh (fun _ => rfl)
      (fun _ x hx => by cases hx) (fun m hm => by cases hm)
  | release trunkName | sessionTimer callID trunkName sessionExpires =>
    rw [Leg.act] at ho
    cases ho
    exact hs.perform s _ todo [] last hl rfl rfl rfl rfl rfl rfl le_rfl hs.fresh (fun _ => rfl)
      (fun _ x hx => by cases hx) (fun m hm => by cases hm)

/-- While a CANCEL owes a response, no call is stored. -/
theorem get_eq_none_of_owes (s : Leg) (hs : SetupInv s) (j : CancelJob) (hj : j ∈ s.cancels)
    (howes : j.pc.owes = 1) (callID : Bytes) : s.store.get callID = none := by
  have hnone := hs.nothing_else j hj howes
  have hlive : s.loop.ending = false := by
    cases he : s.loop.ending with
    | false => rfl
    | true =>
      have := hs.ending he
      omega
  have hget : ∀ k, s.store.calls.lookup k = none := by
    intro k
    rw [hs.unstored hlive]
    exact AList.lookup_empty k
  rw [Store.get, hget callID]
  simp only
  split
  · rw [hget, ite_self]
  · rfl

/-- One step of a CANCEL. -/
theorem setupInv_cancelStep (now i : Nat) (s : Leg) (j : CancelJob) (hs : SetupInv s)
    (hj : s.cancels[i]? = some j) (o : Leg × Option CancelPoint)
    (ho : s.cancelStep now j = some o) :
    SetupInv { o.1 with cancels := resumeAt s.cancels i (o.2.map (CancelJob.mk j.req)) } := by
  rcases j with ⟨req, pc⟩
  have hmem := mem_of_getElem? hj
  unfold Leg.cancelStep at ho
  cases pc with
  | checkCall =>
    simp only [get_eq_none_of_owes s hs _ hmem rfl, Option.isSome_none, Bool.false_eq_true,
      if_false, Option.some.injEq] at ho
    rw [← ho]
    exact hs.advance s i _ (some .findEarly) hj rfl rfl Or.inl rfl rfl rfl le_rfl hs.fresh rfl
      (fun k hk h => absurd h (by rw [← Option.some.inj hk]; exact Nat.one_ne_zero))
  | findEarly =>
    cases ho
    exact hs.advance s i _ (some (.respond _)) hj rfl rfl Or.inl rfl rfl rfl le_rfl hs.fresh rfl
      (fun k hk h => absurd h (by rw [← Option.some.inj hk]; exact Nat.one_ne_zero))
  | respond early =>
    cases ho
    have hf : isFinal (Leg.canceledResponse req early) = true := by
      unfold Leg.canceledResponse
      simp only
      split <;> rfl
    have hfin := s.finals_respond now (Leg.canceledResponse req early)
    rw [hf, if_pos rfl] at hfin
    have h0 := hs.nothing_else _ hmem rfl
    have h1 : (s.respond now (Leg.canceledResponse req early)).finals = 1 := by omega
    refine hs.advance (s.respond now (Leg.canceledResponse req early)) i _
      (early.map (fun _ => .cancelContext)) hj rfl rfl Or.inl rfl rfl ?_
      (by omega) (fun h0 => by omega) rfl (fun _ _ _ => h1)
    rw [hfin]
    cases early <;> rfl
  | cancelContext =>
    cases ho
    have h1 := hs.jobs _ hmem rfl
    exact hs.advance { s with canceled := true } i _ (some .sendCancel) hj rfl rfl
      (fun _ => Or.inr h1) rfl rfl rfl le_rfl hs.fresh rfl (fun _ _ _ => h1)
  | sendCancel =>
    cases ho
    have h1 := hs.jobs _ hmem rfl
    exact hs.advance { s with toBob := s.toBob ++ s.bob.sendCancel.toList } i _
      (some .removeEarly) hj rfl rfl Or.inl rfl rfl rfl le_rfl hs.fresh rfl (fun _ _ _ => h1)
  | removeEarly =>
    cases ho
    have h1 := hs.jobs _ hmem rfl
    exact hs.advance { s with store := s.store.removeEarly _ } i _ (some .cancelPRACK) hj
      rfl rfl Or.inl rfl rfl rfl le_rfl hs.fresh rfl (fun _ _ _ => h1)
  | cancelPRACK =>
    simp only at ho
    split at ho
    · cases ho
      exact hs.advance { s with prack := none } i _ none hj rfl rfl Or.inl rfl rfl rfl le_rfl
        hs.fresh rfl (by intros; contradiction)
    · cases ho

variable [UnicodeLower]

theorem last_onResponse_eq (h : Handler) (cc : CallCtx) (env : LoopEnv) (p : Peer)
    (resp : SIPMessage) (s : Leg) (hs : SetupInv s) (hl : s.loop = .select)
    (hopen : 200 ≤ resp.statusCode → s.Open)
    (hacc : resp.statusCode = 200 → Acceptable resp) :
    SetupInv { s with
      loop := .running (p.onResponse h cc env resp).todo (p.onResponse h cc env resp).last } := by
  have hlive : s.loop.ending = false := by rw [hl]; rfl
  rcases onResponse_cases h cc env p resp with ⟨hlast, hpass⟩ | ⟨hlast, h200, howes, hans⟩
  · rw [hlast]
    exact hs.listen _ hlive rfl hpass
  · rw [hlast]
    have ho := hopen h200
    refine hs.leave _ (by rw [howes, ho.1]) (fun _ => ho) fun m hm => ?_
    rcases hans m hm with ⟨hm, hsc⟩
    rw [hm]
    exact hacc (hm ▸ hsc)

/-- Every orderly step keeps the invariant. -/
theorem setupInv_step (h : Handler) (cc : CallCtx) (p : Peer) (bobInvite : SIPMessage) (s t : Leg)
    (e : LegEvent) (hs : SetupInv s) (hok : Orderly s e)
    (hstep : legStep h cc p bobInvite s e = some t) : SetupInv t := by
  cases legStep_cases h cc p bobInvite s t e hstep with
  | start hl =>
    have hlive : s.loop.ending = false := by rw [hl]; rfl
    have := hs.listen (.sending (.storeRequest bobInvite)) hlive rfl
      (fun a ha => by cases ha)
    exact ⟨this.one, this.ending, this.quiet, this.done, this.jobs, this.closing, this.fresh,
      this.unstored, this.channel, this.answers⟩
  | sendFailed now task hl =>
    have hopen := (hok rfl).1
    have hl' := hs.leave (p.onSendFailed cc).todo (by rw [tally_onSendFailed, hopen.1])
      (fun _ => hopen) (fun m hm => absurd hm (not_mem_answer_onSendFailed cc p m))
    exact hl'.bobSide _ _ _ _ (by
      rw [UACTransaction.responses_runTask]
      exact hs.channel)
  | sent now sendFails task l hl hnext =>
    have hlive : s.loop.ending = false := by rw [hl]; rfl
    have hl' : SetupInv { s with loop := l } := by
      rcases hnext with rfl | ⟨t, _, rfl⟩
      · exact hs.listen .select hlive rfl (fun a ha => by cases ha)
      · exact hs.listen (.sending t) hlive rfl (fun a ha => by cases ha)
    exact hl'.bobSide _ _ _ _ (by
      rw [UACTransaction.responses_runTask]
      exact hs.channel)
  | takePrackDone hl hp =>
    have h1 := hs.done (Or.inr hp)
    have howes : tally Action.owes (p.onPrackDone cc).todo = 0 := tally_deferred cc p
    exact hs.leave _ (by rw [howes, h1]) (fun hpos => by omega)
      (fun m hm => absurd hm (not_mem_answer_deferred cc p m))
  | takeDone hl hc =>
    have h1 := hs.done (Or.inl hc)
    have howes := tally_onDone cc p
    refine hs.leave _ (by rw [howes, h1]) (fun hpos => by omega) fun m hm => ?_
    rcases mem_append.mp hm with hm | hm
    · exact absurd hm (not_mem_answer_giveUp p m)
    · exact absurd hm (not_mem_answer_deferred cc p m)
  | takeResponse env resp rest hl hr =>
    have hhead : resp ∈ s.bob.responses.head? := by rw [hr]; rfl
    have hl' := last_onResponse_eq h cc env p resp s hs hl (hok resp hhead)
      (hs.channel resp (by rw [hr]; exact mem_cons_self))
    exact hl'.bobSide { s.bob with responses := rest } _ _ _
      (fun m hm => hs.channel m (by rw [hr]; exact mem_cons_of_mem resp hm))
  | takeError m rest hl hr =>
    have hl' := hs.leave (p.onError cc).todo (by rw [tally_onError, hok.1]) (fun _ => hok)
      (fun m hm => absurd hm (not_mem_answer_respond cc p _ m))
    exact hl'.bobSide _ _ _ _ hs.channel
  | finish now env last hl =>
    cases last with
    | false =>
      exact hs.listen .select (by rw [hl]; rfl) rfl (fun a ha => by cases ha)
    | true =>
      have hone := hs.one
      have hend := hs.ending
      rw [hl] at hone hend
      exact ⟨hone, hend, fun h => absurd h.symm Bool.false_ne_true, hs.done, hs.jobs, hs.closing,
        hs.fresh, fun h => absurd h.symm Bool.false_ne_true, hs.channel,
        fun m hm => absurd hm not_mem_nil⟩
  | act now env a todo last o hl ho =>
    exact setupInv_act h cc p now env s a todo last hl hs o ho
  | bobResponse now msg u out hu =>
    refine hs.bobSide _ _ _ _ fun m hm h200 => ?_
    rcases (UACTransaction.handleResponse_passes now s.bob u msg out hu).2.1 with hr | ⟨ha, hr⟩
    · exact hs.channel m (hr ▸ hm) h200
    · rw [hr] at hm
      rcases mem_append.mp hm with hm | hm
      · exact hs.channel m hm h200
      · rw [mem_singleton.mp hm] at h200 ⊢
        exact (hok ha (by omega) (by omega)).2.1
  | bobExpire i ts ht => exact hs.bobSide _ _ _ _ hs.channel
  | bobCallback i sendFails k ts ht =>
    refine hs.bobSide _ _ _ _ ?_
    rw [(UACTransaction.passes_timerCallback sendFails _ k).responses]
    exact hs.channel
  | bobTask now i sendFails t ht =>
    refine hs.bobSide _ _ _ _ ?_
    rw [UACTransaction.responses_runTask]
    exact hs.channel
  | cancel now ev =>
    rcases Leg.cancelRequest_cases now s.alice ev with ⟨hsent, hcall, hpend, htimers, _⟩
    cases hp : s.alice.pending with
    | true =>
      have hopen := (hok hp).1
      rw [hcall, hp, hopen.2.2.1]
      exact hs.undertake hopen _ (fun ha => ⟨hpend.trans hp, htimers.trans ha.2⟩) _ s.prack _
        s.timeout
        (by rw [hopen.2.2.2]; rfl)
        (fun j hj => by rw [mem_singleton.mp hj]; rfl)
        (by rw [hopen.2.2.2]; simp only [ne_eq, reduceCtorEq, not_false_eq_true])
    | false =>
      rw [hcall, hp, if_neg Bool.false_ne_true, append_nil]
      exact hs.aliceSide _ _
        (fun h0 => by cases hp.symm.trans (hs.fresh h0).1)
  | cancelStep now i j o hj ho => exact setupInv_cancelStep now i s j hs hj o ho
  | prackTimeout ht =>
    exact hs.undertake hok.1 s.alice id s.sent none s.cancels (some .respond)
      (by rw [hok.1.2.2.1]; rfl)
      (fun j hj => by rw [hok.1.2.2.1] at hj; cases hj)
      (by simp only [ne_eq, Option.some.injEq, reduceCtorEq, not_false_eq_true])
  | timeoutRespond now hq =>
    exact hs.timedOut now _ rfl hq
  | timeoutClose now hq =>
    have h1 := hs.closing hq
    have hone := hs.one
    have helse : s.elsewhere = tally (fun k => k.pc.owes) s.cancels := by
      rw [Leg.elsewhere, hq]
      rfl
    rw [helse] at hone
    exact ⟨hone, hs.ending, hs.quiet, fun _ => h1, hs.jobs, fun _ => h1, hs.fresh, hs.unstored,
      hs.channel, hs.answers⟩
  | ack now =>
    refine hs.aliceSide _ _ fun h0 => ?_
    rw [Leg.ackReceived_of_pending now s.alice (hs.fresh h0).1]
    exact hs.fresh h0
  | retransmission => exact hs.aliceSide _ _ hs.fresh
  | aliceExpire i ts ht =>
    refine hs.aliceSide _ _ fun h0 => absurd ht ?_
    rw [(hs.fresh h0).2]
    simp [Timers.expire]
  | aliceCallback now i k ts ht =>
    refine hs.aliceSide _ _ fun h0 => absurd ht ?_
    rw [(hs.fresh h0).2]
    simp [Timers.take]

end Step

end B2bua

end Trecs
