import Trecs.Lib.Run
import Trecs.Sip.Reliable

/-!
# Silence after a PRACK

Once the PRACK for the latest reliable provisional response has been answered
200, the response must not be sent again and the call must not be torn down for
want of a PRACK, until another reliable response is sent.

`HandlePRACK` stops the timer of the record. That does not call back a callback
which has fired and waits for the lock of the manager, and the callback asks only
whether the record is done, which a PRACK does not make it. So it sends the
response once more and schedules the next callback, and the chain goes on until
it gives up and ends an acknowledged call.

A callback that waits while `SendReliable` runs does harm later: `SendReliable`
starts a new chain, the callback continues the old one, and the record can hold
the timer of one of them only. The PRACK then stops that one and the other goes
on.

`PrackOk` excludes these two orders and nothing else.

## Main definitions

* `ackState`: The latest RSeq of a Call-ID and whether it was acknowledged.
* `SilentAfterPrack`: No retransmission and no timeout after the PRACK.
* `PrackOk`: The orders of events under which this holds.
* `SilenceInv`: One chain of timers for each record, idle after the PRACK.

## Theorems

* `SilenceInv.step`: Every allowed event keeps the invariant.
* `silentAfterPrack_of_prackOk`: Silence in every run that meets `PrackOk`.
* `silentAfterPrack_fails`: The two orders that break it.
-/

namespace Trecs

open List Option

namespace Sip

open Proto

/-- How an observation changes the latest RSeq of a Call-ID and whether a PRACK
    for it was answered 200. -/
def ackStep (callID : Bytes) (st : Option Int × Bool) : ReliableObs → Option Int × Bool
  | .sent _ c rseq _ => if c = callID then (some rseq, false) else st
  | .acked _ c rseq => if c = callID ∧ st.1 = some rseq then (st.1, true) else st
  | .retransmitted .. | .timedOut .. => st

/-- The latest RSeq sent with a Call-ID, and whether a PRACK for it was answered
    200. -/
def ackState (callID : Bytes) (trace : List ReliableObs) : Option Int × Bool :=
  trace.foldl (ackStep callID) (none, false)

/-- Whether an observation is a retransmission or a timeout with the Call-ID. -/
def ReliableObs.disturbs (callID : Bytes) : ReliableObs → Bool
  | .retransmitted _ c _ | .timedOut _ c _ => c = callID
  | .sent .. | .acked .. => false

/-- After the PRACK for the latest RSeq of a Call-ID was answered 200 there is
    neither a retransmission nor a timeout with this Call-ID, until another
    response is sent. -/
def SilentAfterPrack (trace : List ReliableObs) : Prop :=
  ∀ pre o post, trace = pre ++ o :: post → ∀ callID, (ackState callID pre).2 = true →
    o.disturbs callID = false

/-- The condition. A response is sent on a record, and the PRACK for the latest
    RSeq of a record is handled, only while no callback of the record has fired
    and waits. -/
def PrackOk (m : ReliableProvisionalManager) : ReliableEvent → Prop
  | .send _ _ _ _ callID _ => ∀ p ∈ m.find callID, m.timers.NoneFired p.1
  | .prack msg =>
    ∀ r ∈ parseRAck msg, ∀ p ∈ m.accepts r, r.rseq = p.2.latestRSeq → m.timers.NoneFired p.1
  | _ => True

instance (m : ReliableProvisionalManager) : (e : ReliableEvent) → Decidable (PrackOk m e)
  | .send _ _ _ _ callID _ =>
    inferInstanceAs (Decidable (∀ p ∈ m.find callID, _))
  | .prack msg =>
    inferInstanceAs (Decidable (∀ r ∈ parseRAck msg, ∀ p ∈ m.accepts r, _ → _))
  | .cancel _ | .expire _ | .callback .. => inferInstanceAs (Decidable True)

/-! ### Traces -/

theorem ackState_append (callID : Bytes) (trace : List ReliableObs) (o : ReliableObs) :
    ackState callID (trace ++ [o]) = ackStep callID (ackState callID trace) o := by
  rw [ackState, ackState, foldl_append, foldl_cons, foldl_nil]

theorem silentAfterPrack_append (trace : List ReliableObs) (o : ReliableObs)
    (h : SilentAfterPrack trace)
    (ho : ∀ callID, (ackState callID trace).2 = true → o.disturbs callID = false) :
    SilentAfterPrack (trace ++ [o]) := by
  intro pre x post heq callID hack
  rcases eq_nil_or_concat post with hpost | ⟨post', y, hpost⟩
  · -- The observation in question is the new one.
    rw [hpost] at heq
    have hinj := append_inj' heq rfl
    rw [← (singleton_inj.mp hinj.2)]
    exact ho callID (hinj.1 ▸ hack)
  · rw [hpost, concat_eq_append, ← cons_append, ← append_assoc] at heq
    have hinj := append_inj' heq rfl
    exact h pre x post' hinj.1 callID hack

namespace ReliableProvisionalManager

variable {m : ReliableProvisionalManager} {k : Nat} {pr : PendingReliable}

/-- What holds of a record that is not done. -/
structure RecordQuiet (ts : Timers Nat) (trace : List ReliableObs) (k : Nat)
    (pr : PendingReliable) : Prop where
  chain : ts.OneChain k pr.timer
  latest : (ackState pr.callID trace).1 = some pr.latestRSeq
  quiet : (ackState pr.callID trace).2 = true → ts.Idle k

/-- The invariant: `RecordQuiet` of every record that is not done. -/
structure SilenceInv (m : ReliableProvisionalManager) : Prop where
  sound : m.Sound
  records : ∀ (k : Nat) (pr : PendingReliable), m.records[k]? = some pr → pr.done = false →
    RecordQuiet m.timers m.trace k pr
  silent : SilentAfterPrack m.trace

/-- Quieter timers are no trouble. -/
theorem RecordQuiet.quieter {ts ts' : Timers Nat} {trace : List ReliableObs}
    (h : RecordQuiet ts trace k pr) (hq : Timers.Quieter ts ts') : RecordQuiet ts' trace k pr where
  chain := h.chain.quieter hq
  latest := h.latest
  quiet := fun hack => (h.quiet hack).quieter hq

/-- An observation of another Call-ID, or none of a response sent or a PRACK, is
    no trouble. -/
theorem RecordQuiet.observe {ts : Timers Nat} {trace : List ReliableObs} {o : ReliableObs}
    (h : RecordQuiet ts trace k pr)
    (ho : ackStep pr.callID (ackState pr.callID trace) o = ackState pr.callID trace) :
    RecordQuiet ts (trace ++ [o]) k pr where
  chain := h.chain
  latest := by
    rw [ackState_append, ho]
    exact h.latest
  quiet := by
    rw [ackState_append, ho]
    exact h.quiet

/-- Two records that are not done have different Call-IDs. -/
theorem callID_ne (hs : m.Sound) (hk : m.records[k]? = some pr) (hopen : pr.done = false)
    {k' : Nat} {pr' : PendingReliable} (hk' : m.records[k']? = some pr') (hopen' : pr'.done = false)
    (hne : k' ≠ k) : pr'.callID ≠ pr.callID := by
  intro hc
  have hlook := hs.pending k' pr' hk' hopen'
  rw [hc, hs.pending k pr hk hopen, some.injEq] at hlook
  exact hne hlook.symm

namespace SilenceInv

/-- Sending a response on a record whose callbacks are all done. -/
theorem sendOn (hs : m.Sound)
    (hrec : ∀ (k' : Nat) (x : PendingReliable), m.records[k']? = some x → k' ≠ k →
      x.done = false → RecordQuiet m.timers m.trace k' x)
    (hsil : SilentAfterPrack m.trace) (hk : m.records[k]? = some pr) (hopen : pr.done = false)
    (hchain : m.timers.OneChain k pr.timer) (hnone : m.timers.NoneFired k) (now : Nat)
    (res : SIPMessage) (onTimeout : Option Nat) : SilenceInv (m.sendOn now k pr res onTimeout) where
  sound := hs.sendOn hk hopen now res onTimeout
  silent := silentAfterPrack_append _ _ hsil (fun _ _ => rfl)
  records := by
    intro k' x hx hxd
    rcases getElem?_set_cases m.records k k' x _ hx with ⟨hkk, hxp⟩ | ⟨hkk, hx0⟩
    · have hidle := Timers.idle_stop hchain hnone
      have hstate : ackState pr.callID (m.trace ++ [.sent k pr.callID (pr.counter + 1) onTimeout]) =
          (some (pr.counter + 1), false) := by
        rw [ackState_append, ackStep, if_pos rfl]
      rw [hkk, hxp]
      refine ⟨Timers.OneChain.start hidle now _, ?_, ?_⟩
      · simp [ReliableProvisionalManager.sendOn, hstate]
      · intro hack
        simp only [ReliableProvisionalManager.sendOn, hstate, Bool.false_eq_true] at hack
    · have hq := (hrec k' x hx0 hkk hxd).quieter (Timers.quieter_stop? m.timers pr.timer)
      have hne := callID_ne hs hk hopen hx0 hxd hkk
      have hstate : ackStep x.callID (ackState x.callID m.trace)
          (.sent k pr.callID (pr.counter + 1) onTimeout) = ackState x.callID m.trace := by
        rw [ackStep, if_neg (Ne.symm hne)]
      refine RecordQuiet.observe ⟨hq.chain.afterFunc now _ hkk, hq.latest, ?_⟩ hstate
      exact fun hack => (hq.quiet hack).afterFunc now _ hkk

/-- A PRACK, the one for the latest RSeq while no callback waits. -/
theorem acknowledge (h : SilenceInv m) (hk : m.records[k]? = some pr) (hopen : pr.done = false)
    (rseq : Int) (hnone : rseq = pr.latestRSeq → m.timers.NoneFired k) :
    SilenceInv (m.acknowledge k pr rseq) where
  sound := h.sound.acknowledge hk hopen rseq
  silent := silentAfterPrack_append _ _ h.silent (fun _ _ => rfl)
  records := by
    have hq : Timers.Quieter m.timers
        (if rseq = pr.latestRSeq then m.timers.stop? pr.timer else m.timers) := by
      split
      · exact Timers.quieter_stop? m.timers pr.timer
      · exact Timers.Quieter.refl m.timers
    have hpr := h.records k pr hk hopen
    intro k' x hx hxd
    rcases getElem?_set_cases m.records k k' x _ hx with ⟨hkk, hxp⟩ | ⟨hkk, hx0⟩
    · rw [hkk, hxp]
      by_cases hlast : rseq = pr.latestRSeq
      · -- The PRACK for the latest RSeq leaves no timer of the record live.
        have hidle := Timers.idle_stop hpr.chain (hnone hlast)
        have hstate : ackState pr.callID (m.trace ++ [.acked k pr.callID rseq]) =
            (some pr.latestRSeq, true) := by
          rw [ackState_append, ackStep, hpr.latest, hlast, if_pos ⟨rfl, rfl⟩]
        simp only [ReliableProvisionalManager.acknowledge, if_pos hlast]
        refine ⟨hidle.oneChain _, ?_, fun _ => hidle⟩
        simp [hstate]
      · have hstate : ackStep pr.callID (ackState pr.callID m.trace) (.acked k pr.callID rseq) =
            ackState pr.callID m.trace := by
          rw [ackStep, hpr.latest, if_neg (fun hc => hlast (some.inj hc.2).symm)]
        simp only [ReliableProvisionalManager.acknowledge, if_neg hlast]
        exact RecordQuiet.observe ⟨hpr.chain, hpr.latest, hpr.quiet⟩ hstate
    · have hne := callID_ne h.sound hk hopen hx0 hxd hkk
      refine RecordQuiet.observe ((h.records k' x hx0 hxd).quieter hq) ?_
      rw [ackStep, if_neg (fun hc => hne hc.1.symm)]

theorem cancel (h : SilenceInv m) (callID : Bytes) : SilenceInv (m.cancel callID) := by
  refine ⟨h.sound.cancel callID, ?_, ?_⟩
  · unfold ReliableProvisionalManager.cancel
    split
    · exact h.records
    · rename_i k pr hfind
      intro k' x hx hxd
      rcases getElem?_set_cases m.records k k' x _ hx with ⟨_, hxp⟩ | ⟨_, hx0⟩
      · rw [hxp] at hxd
        contradiction
      · exact (h.records k' x hx0 hxd).quieter (Timers.quieter_stop? m.timers pr.timer)
  · unfold ReliableProvisionalManager.cancel
    split <;> exact h.silent

theorem expire (h : SilenceInv m) (i : Nat) (ts : Timers Nat) (hexp : m.timers.expire i = some ts) :
    SilenceInv { m with timers := ts } where
  sound := h.sound.step (.expire i) _ (by rw [reliableStep, hexp, map_some])
  silent := h.silent
  records := by
    intro k pr hk hopen
    have hpr := h.records k pr hk hopen
    exact ⟨hpr.chain.expire i hexp, hpr.latest, fun hack => (hpr.quiet hack).expire i hexp⟩

/-- A callback of a record that is not done was live, so the latest response of
    the record has not been acknowledged. -/
theorem callback (h : SilenceInv m) (now i : Nat) (ts : Timers Nat)
    (htake : m.timers.take i = some (k, ts)) (hk : m.records[k]? = some pr) :
    SilenceInv (retransmitCallback now { m with timers := ts } k pr) := by
  have hq := Timers.quieter_take _ _ _ _ htake
  have hsound : Sound (retransmitCallback now { m with timers := ts } k pr) := by
    refine h.sound.step (.callback now i) _ ?_
    rw [reliableStep, htake, bind_some, hk, map_some]
  have hothers : ∀ (k' : Nat) (x : PendingReliable), m.records[k']? = some x → x.done = false →
      RecordQuiet ts m.trace k' x := fun k' x hx hxd => (h.records k' x hx hxd).quieter hq
  cases hopen : pr.done with
  | true =>
    rw [retransmitCallback, if_pos hopen] at hsound ⊢
    exact ⟨hsound, hothers, h.silent⟩
  | false =>
    have hpr := h.records k pr hk hopen
    have hidle := Timers.idle_take i hpr.chain htake
    have hunacked : ∀ callID, callID = pr.callID → ¬ (ackState callID m.trace).2 = true := by
      intro callID hc hack
      rw [hc] at hack
      exact Timers.not_idle_of_take i htake (hpr.quiet hack)
    rcases retransmitCallback_cases now { m with timers := ts } k pr hopen with
      ⟨_, hm⟩ | ⟨_, _, hm⟩ | ⟨_, _, hm⟩
    · rw [hm] at hsound ⊢
      refine ⟨hsound, ?_, ?_⟩
      · intro k' x hx hxd
        rcases getElem?_set_cases m.records k k' x _ hx with ⟨_, hxp⟩ | ⟨_, hx0⟩
        · rw [hxp] at hxd
          cases hxd
        · cases pr.onTimeout with
          | none =>
            simp only [map_none, toList_none, append_nil]
            exact hothers k' x hx0 hxd
          | some cb => exact RecordQuiet.observe (hothers k' x hx0 hxd) rfl
      · cases pr.onTimeout with
        | none =>
          simp only [map_none, toList_none, append_nil]
          exact h.silent
        | some cb =>
          refine silentAfterPrack_append _ _ h.silent (fun callID hack => ?_)
          exact decide_eq_false (fun hc => hunacked callID hc.symm hack)
    · rw [hm] at hsound ⊢
      refine ⟨hsound, ?_, h.silent⟩
      intro k' x hx hxd
      rcases getElem?_set_cases m.records k k' x _ hx with ⟨hkk, hxp⟩ | ⟨_, hx0⟩
      · rw [hkk, hxp]
        have hold := hothers k pr hk hopen
        exact ⟨hold.chain, hold.latest, hold.quiet⟩
      · exact hothers k' x hx0 hxd
    · rw [hm] at hsound ⊢
      refine ⟨hsound, ?_, ?_⟩
      · intro k' x hx hxd
        rcases getElem?_set_cases m.records k k' x _ hx with ⟨hkk, hxp⟩ | ⟨hkk, hx0⟩
        · rw [hkk, hxp]
          refine RecordQuiet.observe ⟨Timers.OneChain.start hidle now _, hpr.latest, ?_⟩ rfl
          exact fun hack => absurd hack (hunacked _ rfl)
        · have hx' := hothers k' x hx0 hxd
          refine RecordQuiet.observe ⟨hx'.chain.afterFunc now _ hkk, hx'.latest, ?_⟩ rfl
          exact fun hack => (hx'.quiet hack).afterFunc now _ hkk
      · refine silentAfterPrack_append _ _ h.silent (fun callID hack => ?_)
        exact decide_eq_false (fun hc => hunacked callID hc.symm hack)

/-- Every event that meets the condition keeps the invariant. -/
theorem step (m m' : ReliableProvisionalManager) (e : ReliableEvent) (h : SilenceInv m)
    (hok : PrackOk m e) (hstep : reliableStep m e = some m') : SilenceInv m' := by
  cases e with
  | send now transport target res callID onTimeout =>
    rcases h.sound.ensure transport target res callID onTimeout with
      ⟨m₁, k, pr, hens, hs₁, hk, _, hopen, hts, htr, hold, _, hwhich⟩
    rw [← some.inj hstep, sendReliable, hens]
    refine sendOn hs₁ ?_ (htr ▸ h.silent) hk hopen ?_ ?_ now res onTimeout
    · intro k' x hx hne hxd
      rw [hts, htr]
      exact h.records k' x (hold k' x hx hne) hxd
    · rw [hts]
      rcases hwhich with ⟨_, hm⟩ | ⟨_, _, hidle⟩
      · exact (h.records k pr (hm ▸ hk) hopen).chain
      · exact hidle.oneChain _
    · rw [hts]
      rcases hwhich with ⟨hfind, _⟩ | ⟨_, _, hidle⟩
      · exact hok (k, pr) hfind
      · intro t ht hkind hf
        rcases mem_iff_getElem?.mp ht with ⟨j, hj⟩
        exact hidle j t hj hkind (.inr hf)
  | prack msg =>
    cases hstep
    rcases m.handlePRACK_cases msg with ⟨hm, _⟩ | ⟨r, k, pr, hr, hacc, hm, _⟩
    · rw [hm]
      exact h
    · rcases h.sound.find r.callID (accepts_eq_some r hacc).1 with ⟨hk, _, hopen⟩
      rw [hm]
      exact h.acknowledge hk hopen r.rseq (hok r hr (k, pr) hacc)
  | cancel callID =>
    cases hstep
    exact h.cancel callID
  | expire i =>
    rcases map_eq_some_iff.mp hstep with ⟨ts, hexp, rfl⟩
    exact h.expire i ts hexp
  | callback now i =>
    rcases bind_eq_some_iff.mp hstep with ⟨⟨k, ts⟩, htake, hm⟩
    rcases map_eq_some_iff.mp hm with ⟨pr, hk, rfl⟩
    exact h.callback now i ts htake hk

end SilenceInv

end ReliableProvisionalManager

/-- In every run that meets the condition, a reliable provisional response is
    not sent again and its timeout is not called once the PRACK for it was
    answered 200, until another one is sent with the same Call-ID. -/
theorem silentAfterPrack_of_prackOk (es : List ReliableEvent) (m : ReliableProvisionalManager)
    (hrun : Run reliableStep PrackOk ReliableProvisionalManager.create es m) :
    SilentAfterPrack m.trace := by
  have h0 : ReliableProvisionalManager.SilenceInv ReliableProvisionalManager.create := by
    refine ⟨ReliableProvisionalManager.sound_create, ?_, ?_⟩
    · intro k pr hk
      exact absurd hk (by simp [ReliableProvisionalManager.create])
    · intro pre o post heq
      exact absurd heq (by simp [ReliableProvisionalManager.create])
  exact (hrun.invariant _ h0 (fun t e t' =>
    ReliableProvisionalManager.SilenceInv.step t t' e)).silent

/-- A provisional response to send reliably. -/
def sessionProgress : SIPMessage :=
  newResponse { newRequest .INVITE (ascii "sip:bob@example.com") with cseq := ⟨.INVITE, 1⟩ } 183
    (ascii "Session Progress")

/-- Sending it with Call-ID c1. Each call brings a callback of its own. -/
def sendProgress (onTimeout : Nat) : ReliableEvent :=
  .send 0 .udp ⟨none, none, []⟩ sessionProgress (ascii "c1") (some onTimeout)

/-- The PRACK for one of the responses with Call-ID c1. -/
def prackFor (rack : String) : ReliableEvent :=
  let h := SIPHeaders.add ∅ hCallID (ascii "c1")
  .prack { newRequest .PRACK (ascii "sip:bob@example.com") with
    headers := SIPHeaders.add h (ascii "RAck") (ascii rack) }

/-- Two responses, each sent again once and then acknowledged. -/
def progressAcked : List ReliableEvent :=
  [sendProgress 0, .expire 0, .callback 0 0, prackFor "1 1 INVITE", sendProgress 1, .expire 2,
    .callback 0 2, prackFor "2 1 invite"]

theorem silentAfterPrack_progressAcked :
    ∃ m, Run reliableStep PrackOk ReliableProvisionalManager.create progressAcked m ∧
      (ackState (ascii "c1") m.trace) = (some 2, true) ∧ SilentAfterPrack m.trace :=
  exists_run_and (by decide +kernel) fun m hrun _ => silentAfterPrack_of_prackOk _ m hrun

/-- The timer fires just before the PRACK, and the chain it continues gives up
    in the end. -/
def prackAfterFiring : List ReliableEvent :=
  [sendProgress 0, .expire 0, prackFor "1 1 INVITE", .callback 0 0] ++
    (List.range 6).flatMap (fun i => [.expire (i + 1), .callback 0 (i + 1)])

/-- The timer fires just before the next response is sent, and the PRACK for that
    one stops one chain of two. -/
def sendAfterFiring : List ReliableEvent :=
  [sendProgress 0, .expire 0, sendProgress 1, .callback 0 0, prackFor "2 1 INVITE", .expire 1,
    .callback 0 1]

/-- Whether the last observation comes after the PRACK for the latest RSeq. -/
def lateLast (callID : Bytes) (trace : List ReliableObs) : Bool :=
  (ackState callID trace.dropLast).2 && trace.getLast?.any (ReliableObs.disturbs callID)

theorem not_silentAfterPrack_of_lateLast (callID : Bytes) (trace : List ReliableObs)
    (h : lateLast callID trace = true) : ¬ SilentAfterPrack trace := by
  intro hs
  rw [lateLast, Bool.and_eq_true, Option.any_eq_true] at h
  rcases h with ⟨hack, o, ho, hd⟩
  have hsplit : trace = trace.dropLast ++ o :: [] := (dropLast_append_getLast? o ho).symm
  rw [hs _ o [] hsplit callID hack] at hd
  exact Bool.false_ne_true hd

/-- Without the condition an acknowledged response is sent again, and an
    acknowledged call is ended by the timeout. -/
theorem silentAfterPrack_fails :
    (∃ m, Run reliableStep (fun _ _ => True) ReliableProvisionalManager.create prackAfterFiring m ∧
      ¬ SilentAfterPrack m.trace ∧ m.trace.getLast? = some (.timedOut 0 (ascii "c1") 0)) ∧
    (∃ m, Run reliableStep (fun _ _ => True) ReliableProvisionalManager.create sendAfterFiring m ∧
      ¬ SilentAfterPrack m.trace) := by
  have hfire : ∃ m, Run reliableStep (fun _ _ => True) ReliableProvisionalManager.create
      prackAfterFiring m ∧ lateLast (ascii "c1") m.trace = true ∧
      m.trace.getLast? = some (.timedOut 0 (ascii "c1") 0) :=
    exists_run_of_exec (by decide +kernel)
  have hfork : ∃ m, Run reliableStep (fun _ _ => True) ReliableProvisionalManager.create
      sendAfterFiring m ∧ lateLast (ascii "c1") m.trace = true :=
    exists_run_of_exec (by decide +kernel)
  rcases hfire with ⟨m, hrun, hlate, hlast⟩
  rcases hfork with ⟨m', hrun', hlate'⟩
  exact ⟨⟨m, hrun, not_silentAfterPrack_of_lateLast _ _ hlate, hlast⟩,
    ⟨m', hrun', not_silentAfterPrack_of_lateLast _ _ hlate'⟩⟩

end Sip

end Trecs
