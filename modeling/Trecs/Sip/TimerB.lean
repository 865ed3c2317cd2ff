import Trecs.Lib.Run
import Trecs.Sip.Uac

/-!
# Timer B and Received Responses

RFC 3261 lets timer B act in the Calling state only: once any response to the
request has been received, a timeout is no longer the transaction's business.
The callback of timer B asks whether the timers were stopped for good and never
looks at the state, so three orders of events break the rule.

A provisional response stops timer A but leaves timer B armed, and the timer
then ends a call that is ringing. A final response that arrives while `Send` is
still on its way to timer B finds no timer to stop, and `Send` arms one
afterwards. A response that arrives after timer B has fired cannot call the
callback back.

`TimerBOk` excludes these three orders and nothing else, and in every run
without them the rule holds.

## Main definitions

* `NoLateTimeout`: Timer B shows nothing after a received response.
* `TimerBOk`: The orders of events under which the rule holds.
* `SendInv`: How timer B and the unfinished `Send` belong together.
* `LateInv`: What keeps timer B from acting once a response was received.

## Theorems

* `timerBInv_step`: Every allowed event keeps the invariant.
* `noLateTimeout_of_timerBOk`: Timer B is silent in every run that meets `TimerBOk`.
* `noLateTimeout_fails`: A ringing call that timer B ends.
-/

namespace Trecs

open List Option

namespace Sip

open Proto

/-- Whether an observation is a response to the request. -/
def UACObs.isReceived : UACObs → Bool
  | .received _ => true
  | _ => false

/-- Whether an observation is timer B ending the transaction or reporting it. -/
def UACObs.isTimeout : UACObs → Bool
  | .received _ => false
  | _ => true

/-- Timer B neither ends the transaction nor reports a timeout after a response
    has been received. -/
def NoLateTimeout (trace : List UACObs) : Prop :=
  trace.Pairwise (fun a b => a.isReceived = true → b.isTimeout = false)

instance (trace : List UACObs) : Decidable (NoLateTimeout trace) :=
  inferInstanceAs (Decidable (List.Pairwise _ trace))

/-- Whether a response has been received. -/
def Seen (trace : List UACObs) : Prop := ∃ o ∈ trace, o.isReceived = true

/-- The tasks of a `Send` that has not armed timer B yet. -/
def UACTask.isSend : UACTask → Bool
  | .storeRequest _ | .sendRequest _ | .startTimerA | .readIntervalB | .armTimerB _ => true
  | .readIntervalA inSend | .armTimerA _ inSend => inSend
  | _ => false

/-- Whether a task reports a timeout. -/
def UACTask.isPutTimeout : UACTask → Bool
  | .putTimeout => true
  | _ => false

/-- Whether a task moves a cancelled transaction to Terminated. -/
def UACTask.isTerminate : UACTask → Bool
  | .terminate => true
  | _ => false

/-- No timer B is in the given phase. -/
def NoB (p : Phase) (ts : Timers UACTimer) : Prop := ∀ t ∈ ts, t.kind = .B → t.phase ≠ p

instance (p : Phase) (ts : Timers UACTimer) : Decidable (NoB p ts) :=
  inferInstanceAs (Decidable (∀ t ∈ ts, t.kind = .B → t.phase ≠ p))

/-- No callback of timer B is under way: none has fired that would still act,
    and none has yet to report. -/
def UACClient.TimerBIdle (s : UACClient) : Prop :=
  s.tasks.any UACTask.isPutTimeout = false ∧ (s.tx.stopped = true ∨ NoB .fired s.tx.timers)

instance (s : UACClient) : Decidable s.TimerBIdle :=
  inferInstanceAs (Decidable (_ ∧ (_ ∨ _)))

/-- Timer B does not expire in the Proceeding state, no response is handled
    while a callback of timer B is under way, and no final response is handled
    before `Send` has armed timer B. -/
def TimerBOk (s : UACClient) : UACEvent → Prop
  | .expire i =>
    s.tx.timers[i]?.map Timer.kind = some .B → s.tx.stopped = false → s.tx.state ≠ .Proceeding
  | .response _ msg =>
    s.tx.Answers msg → s.TimerBIdle ∧
      (200 ≤ msg.statusCode → s.tx.waiting = true → s.tx.stopped = false →
        s.tx.timerB.isSome = true)
  | _ => True

instance (s : UACClient) : (e : UACEvent) → Decidable (TimerBOk s e)
  | .expire i => inferInstanceAs (Decidable (s.tx.timers[i]?.map Timer.kind = some .B → _ → _))
  | .response _ msg => inferInstanceAs (Decidable (s.tx.Answers msg → _ ∧ (_ → _ → _ → _)))
  | .task .. | .callback .. | .stopTimers | .cancel | .receiveResponse | .receiveError =>
    inferInstanceAs (Decidable True)

/-! ### The invariant -/

/-- There is at most one timer B, `Send` makes it last, and while it is armed
    the transaction holds it. Timer D is made on leaving the waiting states,
    and a cancelled transaction has stopped its timers for good. -/
structure SendInv (s : UACClient) : Prop where
  unique : ∀ (j k : Nat) (t u : Timer UACTimer), s.tx.timers[j]? = some t →
    s.tx.timers[k]? = some u → t.kind = .B → u.kind = .B → j = k
  sent : ∀ t ∈ s.tx.timers, t.kind = .B → s.tasks.countP UACTask.isSend = 0
  oneSend : s.tasks.countP UACTask.isSend ≤ 1
  held : ∀ j, s.tx.timerB = some j → ∃ t, s.tx.timers[j]? = some t ∧ t.kind = .B
  armed : ∀ (j : Nat) (t : Timer UACTimer), s.tx.timers[j]? = some t → t.kind = .B →
    t.phase = .armed → s.tx.timerB = some j
  noD : s.tx.waiting = true → ∀ t ∈ s.tx.timers, t.kind ≠ .D
  ending : s.tasks.any UACTask.isTerminate = true → s.tx.stopped = true

/-- No timer B is armed and none will be. -/
def UACClient.Settled (s : UACClient) : Prop :=
  s.tx.stopped = true ∨ (s.tasks.countP UACTask.isSend = 0 ∧ NoB .armed s.tx.timers)

/-- Outside the waiting states no timer B can fire any more, and once a response
    was received the transaction is past Calling and no callback of timer B is
    under way. -/
structure LateInv (s : UACClient) : Prop where
  settled : s.tx.waiting = false → s.Settled
  late : Seen s.trace → s.tx.state ≠ .Calling ∧ s.TimerBIdle
  silent : NoLateTimeout s.trace

/-- The invariant of a run. -/
structure TimerBInv (s : UACClient) : Prop extends SendInv s, LateInv s

namespace TimerBInv

variable {u u' : UACTransaction} {tasks tasks' : List UACTask} {sent sent' : List SIPMessage}
  {trace : List UACObs}

theorem noB_of_quieter {p : Phase} {ts ts' : Timers UACTimer} (hp : p = .armed ∨ p = .fired)
    (h : Timers.Quieter ts ts') (hn : NoB p ts) : NoB p ts' := by
  intro t' ht' hk hphase
  rcases mem_iff_getElem?.mp ht' with ⟨j, hj⟩
  rcases h.back j t' hj with ⟨t, ht, hkind, ha, hf, _⟩
  refine hn t (mem_of_getElem? ht) (hkind.trans hk) ?_
  rcases hp with hp | hp
  · rw [hp] at hphase ⊢
    exact ha hphase
  · rw [hp] at hphase ⊢
    exact hf hphase

/-- New timers keep the invariant as long as every timer B was one before, which
    was armed if it is, and none is forgotten while it is armed. -/
theorem retime (h : TimerBInv ⟨u, tasks, sent, trace⟩)
    (hback : ∀ (j : Nat) (t' : Timer UACTimer), u'.timers[j]? = some t' → t'.kind = .B →
      ∃ t, u.timers[j]? = some t ∧ t.kind = .B ∧ (t'.phase = .armed → t.phase = .armed))
    (hforth : ∀ (j : Nat) (t : Timer UACTimer), u.timers[j]? = some t → t.kind = .B →
      ∃ t', u'.timers[j]? = some t' ∧ t'.kind = .B)
    (hb : u'.timerB = u.timerB ∨ (u'.timerB = none ∧ NoB .armed u'.timers))
    (hd : u.waiting = true → ∀ t ∈ u'.timers, t.kind ≠ .D)
    (hf : Seen trace → u.stopped = true ∨ NoB .fired u'.timers) (hs : u'.state = u.state)
    (hstop : u'.stopped = u.stopped) : TimerBInv ⟨u', tasks, sent', trace⟩ := by
  have hw : u'.waiting = u.waiting := by simp only [UACTransaction.waiting, hs]
  have hmem : ∀ t' ∈ u'.timers, t'.kind = .B →
      ∃ t ∈ u.timers, t.kind = .B ∧ (t'.phase = .armed → t.phase = .armed) := by
    intro t' ht' htb
    rcases mem_iff_getElem?.mp ht' with ⟨j, hj⟩
    rcases hback j t' hj htb with ⟨t, ht, hk⟩
    exact ⟨t, mem_of_getElem? ht, hk⟩
  refine { unique := ?_, sent := ?_, oneSend := h.oneSend, held := ?_, armed := ?_,
           noD := fun hwait => hd (hw.symm.trans hwait),
           ending := fun ht => hstop.trans (h.ending ht), settled := ?_, late := ?_,
           silent := h.silent }
  · intro j k t' v' hj hk htb hvb
    rcases hback j t' hj htb with ⟨t, ht, htk, _⟩
    rcases hback k v' hk hvb with ⟨v, hv, hvk, _⟩
    exact h.unique j k t v ht hv htk hvk
  · intro t' ht' htb
    rcases hmem t' ht' htb with ⟨t, ht, htk, _⟩
    exact h.sent t ht htk
  · intro j hj
    rcases hb with hb | ⟨hb, _⟩
    · rcases h.held j (hb.symm.trans hj) with ⟨t, ht, htb⟩
      exact hforth j t ht htb
    · cases hb.symm.trans hj
  · intro j t' hj htb harmed
    rcases hb with hb | ⟨_, hno⟩
    · rcases hback j t' hj htb with ⟨t, ht, htk, ha⟩
      exact hb.trans (h.armed j t ht htk (ha harmed))
    · exact absurd harmed (hno t' (mem_of_getElem? hj) htb)
  · intro hwait
    rcases h.settled (hw.symm.trans hwait) with hst | ⟨hsend, hno⟩
    · exact .inl (hstop.trans hst)
    · refine .inr ⟨hsend, fun t' ht' htb harmed => ?_⟩
      rcases hmem t' ht' htb with ⟨t, ht, htk, ha⟩
      exact hno t ht htk (ha harmed)
  · intro hseen
    rcases h.late hseen with ⟨hc, hput, _⟩
    exact ⟨fun hx => hc (hs.symm.trans hx), hput, (hf hseen).imp_left hstop.trans⟩

/-- Stopping timers and running callbacks keeps the invariant, as long as timer
    B is not forgotten while it is armed. -/
theorem keep (h : TimerBInv ⟨u, tasks, sent, trace⟩) (hq : Timers.Quieter u.timers u'.timers)
    (hb : u'.timerB = u.timerB ∨ (u'.timerB = none ∧ NoB .armed u'.timers))
    (hs : u'.state = u.state) (hstop : u'.stopped = u.stopped) :
    TimerBInv ⟨u', tasks, sent', trace⟩ := by
  refine h.retime ?_ ?_ hb ?_ ?_ hs hstop
  · intro j t' hj htb
    rcases hq.back j t' hj with ⟨t, ht, htk, ha, _⟩
    exact ⟨t, ht, htk.trans htb, ha⟩
  · intro j t ht htb
    rcases hq.forth j t ht with ⟨t', ht', htk⟩
    exact ⟨t', ht', htk.trans htb⟩
  · intro hw t' ht'
    rcases mem_iff_getElem?.mp ht' with ⟨j, hj⟩
    rcases hq.back j t' hj with ⟨t, ht, htk, _⟩
    rw [← htk]
    exact h.noD hw t (mem_of_getElem? ht)
  · intro hseen
    exact (h.late hseen).2.2.imp_right (noB_of_quieter (.inr rfl) hq)

/-- Fewer tasks keep the invariant. -/
theorem reschedule (h : TimerBInv ⟨u, tasks, sent, trace⟩)
    (hsend : tasks'.countP UACTask.isSend ≤ tasks.countP UACTask.isSend)
    (hput : tasks'.any UACTask.isPutTimeout = true → tasks.any UACTask.isPutTimeout = true)
    (hterm : tasks'.any UACTask.isTerminate = true → tasks.any UACTask.isTerminate = true) :
    TimerBInv ⟨u, tasks', sent, trace⟩ :=
  { h with
    sent := fun t ht hb => Nat.le_zero.mp (h.sent t ht hb ▸ hsend)
    oneSend := hsend.trans h.oneSend
    ending := fun ht => h.ending (hterm ht)
    settled := by
      intro hw
      rcases h.settled hw with hst | ⟨h0, hno⟩
      · exact .inl hst
      · exact .inr ⟨Nat.le_zero.mp (h0 ▸ hsend), hno⟩
    late := by
      intro hseen
      rcases h.late hseen with ⟨hc, hp, hf⟩
      refine ⟨hc, ?_, hf⟩
      rw [Bool.eq_false_iff] at hp ⊢
      exact fun hx => hp (hput hx) }

/-- Making a timer other than B keeps the invariant. -/
theorem arm (h : TimerBInv ⟨u, tasks, sent, trace⟩) (now d : Nat) (k : UACTimer) (hk : k ≠ .B)
    (hd : u.waiting = true → k ≠ .D) (hts : u'.timers = u.timers.afterFunc now d k)
    (hb : u'.timerB = u.timerB) (hs : u'.state = u.state) (hstop : u'.stopped = u.stopped) :
    TimerBInv ⟨u', tasks, sent, trace⟩ := by
  have hold : ∀ t ∈ u'.timers, t ∈ u.timers ∨ t.kind = k := by
    intro t ht
    rw [hts] at ht
    exact (mem_append.mp ht).imp_right fun ht => by rw [mem_singleton.mp ht]
  refine h.retime ?_ ?_ (.inl hb) ?_ ?_ hs hstop
  · intro j t hj htb
    rw [hts] at hj
    rcases Timers.getElem?_afterFunc u.timers now d k j t hj with hj | ⟨_, rfl⟩
    · exact ⟨t, hj, htb, id⟩
    · exact absurd htb hk
  · intro j t ht htb
    rw [hts]
    exact ⟨t, Timers.getElem?_afterFunc_of_getElem? u.timers now d k j t ht, htb⟩
  · intro hw t ht
    rcases hold t ht with ht | ht
    · exact h.noD hw t ht
    · rw [ht]
      exact hd hw
  · intro hseen
    refine (h.late hseen).2.2.imp_right fun hno t ht htb => ?_
    rcases hold t ht with ht | ht
    · exact hno t ht htb
    · exact absurd (ht.symm.trans htb) hk

/-- `Send` makes timer B as its last task. -/
theorem armB (h : TimerBInv ⟨u, tasks, sent, trace⟩) (now d : Nat)
    (hone : tasks.countP UACTask.isSend = 1) (h0 : tasks'.countP UACTask.isSend = 0)
    (hput : tasks'.any UACTask.isPutTimeout = true → tasks.any UACTask.isPutTimeout = true)
    (hterm : tasks'.any UACTask.isTerminate = true → tasks.any UACTask.isTerminate = true) :
    TimerBInv ⟨{ u with timers := u.timers.afterFunc now d .B, timerB := some u.timers.length },
      tasks', sent, trace⟩ := by
  have hno : ∀ t ∈ u.timers, t.kind ≠ .B := by
    intro t ht htb
    have hzero := h.sent t ht htb
    simp only [hone, one_ne_zero] at hzero
  -- The new timer is the only timer B.
  have hnew : ∀ (j : Nat) (t : Timer UACTimer), (u.timers.afterFunc now d .B)[j]? = some t →
      t.kind = .B → j = u.timers.length ∧ t = ⟨.B, now + d, .armed⟩ := by
    intro j t hj htb
    rcases Timers.getElem?_afterFunc u.timers now d .B j t hj with hj | hj
    · exact absurd htb (hno t (mem_of_getElem? hj))
    · exact hj
  have hsub := reschedule h (by omega) hput hterm
  refine { unique := ?_, sent := fun _ _ _ => h0, oneSend := h0.trans_le (Nat.zero_le 1),
           held := ?_, armed := ?_, noD := ?_, ending := hsub.ending, settled := ?_,
           late := ?_, silent := h.silent }
  · intro j k t v hj hk htb hvb
    exact (hnew j t hj htb).1.trans (hnew k v hk hvb).1.symm
  · intro j hj
    rw [some.injEq] at hj
    refine ⟨⟨.B, now + d, .armed⟩, ?_, rfl⟩
    rw [← hj]
    simp [Timers.afterFunc]
  · intro j t hj htb _
    change some u.timers.length = some j
    rw [(hnew j t hj htb).1]
  · intro hw t ht
    rcases mem_iff_getElem?.mp ht with ⟨j, hj⟩
    rcases Timers.getElem?_afterFunc u.timers now d .B j t hj with hj | ⟨_, ht⟩
    · exact h.noD hw t (mem_of_getElem? hj)
    · simp [ht]
  · intro hw
    rcases h.settled hw with hst | ⟨hzero, _⟩
    · exact .inl hst
    · simp only [hone, one_ne_zero] at hzero
  · intro hseen
    rcases hsub.late hseen with ⟨hc, hp, hf⟩
    refine ⟨hc, hp, ?_⟩
    rcases hf with hf | _
    · exact .inl hf
    · refine .inr (fun t ht htb => ?_)
      rcases mem_iff_getElem?.mp ht with ⟨j, hj⟩
      simp [(hnew j t hj htb).2]

/-- Moving on to a state other than Calling keeps the invariant, provided that
    timer B is out of play when the new state does not wait for a response. -/
theorem settle (h : TimerBInv ⟨u, tasks, sent, trace⟩) (st : UACState) (hst : st ≠ .Calling)
    (hw : st = .Proceeding → u.waiting = true)
    (hset : st ≠ .Proceeding → UACClient.Settled ⟨u, tasks, sent, trace⟩) :
    TimerBInv ⟨{ u with state := st }, tasks, sent, trace⟩ :=
  { h with
    noD := by
      intro hwait
      refine h.noD (hw ?_)
      simpa only [UACTransaction.waiting, Bool.or_eq_true, decide_eq_true_eq, hst, false_or]
        using hwait
    settled := by
      intro hwait
      refine hset ?_
      simp only [UACTransaction.waiting, Bool.or_eq_false_iff, decide_eq_false_iff_not] at hwait
      exact hwait.2
    late := fun hseen => ⟨hst, (h.late hseen).2⟩ }

/-- Stopping the timers for good keeps the invariant. -/
theorem stopAll (h : TimerBInv ⟨u, tasks, sent, trace⟩) :
    TimerBInv ⟨{ u with stopped := true }, tasks, sent, trace⟩ :=
  { h with
    ending := fun _ => rfl
    settled := fun _ => .inl rfl
    late := fun hseen => ⟨(h.late hseen).1, (h.late hseen).2.1, .inl rfl⟩ }

theorem seen_append {o : UACObs} (h : Seen (trace ++ [o])) : Seen trace ∨ o.isReceived = true := by
  rcases h with ⟨x, hx, hr⟩
  rcases mem_append.mp hx with hx | hx
  · exact .inl ⟨x, hx, hr⟩
  · rw [mem_singleton.mp hx] at hr
    exact .inr hr

theorem noLateTimeout_append {o : UACObs} (h : NoLateTimeout trace)
    (ho : Seen trace → o.isTimeout = false) : NoLateTimeout (trace ++ [o]) := by
  refine pairwise_append.mpr ⟨h, pairwise_singleton _ o, ?_⟩
  intro a ha b hb hr
  rw [mem_singleton.mp hb]
  exact ho ⟨a, ha, hr⟩

/-- Observing something keeps the invariant when a response finds timer B idle
    and a timeout comes before every response. -/
theorem observe (h : TimerBInv ⟨u, tasks, sent, trace⟩) (o : UACObs)
    (hr : o.isReceived = true →
      u.state ≠ .Calling ∧ UACClient.TimerBIdle ⟨u, tasks, sent, trace⟩)
    (ht : Seen trace → o.isTimeout = false) :
    TimerBInv ⟨u, tasks, sent, trace ++ [o]⟩ :=
  { h with
    late := by
      intro hseen
      rcases seen_append hseen with hseen | hseen
      · exact h.late hseen
      · exact hr hseen
    silent := noLateTimeout_append h.silent ht }

/-- A new task outside `Send` keeps the invariant. -/
theorem spawn (h : TimerBInv ⟨u, tasks, sent, trace⟩) (x : UACTask) (hsend : x.isSend = false)
    (hput : x.isPutTimeout = true → ¬ Seen trace) (hterm : x.isTerminate = true → u.stopped = true) :
    TimerBInv ⟨u, tasks ++ [x], sent, trace⟩ := by
  have hcount : (tasks ++ [x]).countP UACTask.isSend = tasks.countP UACTask.isSend := by
    simp [hsend]
  refine { unique := h.unique, sent := ?_, oneSend := hcount.trans_le h.oneSend, held := h.held,
           armed := h.armed, noD := h.noD, ending := ?_, settled := ?_, late := ?_,
           silent := h.silent }
  · intro t ht htb
    exact hcount.trans (h.sent t ht htb)
  · intro ht
    simp only [any_append, any_cons, any_nil, Bool.or_false, Bool.or_eq_true] at ht
    rcases ht with ht | ht
    · exact h.ending ht
    · exact hterm ht
  · intro hw
    rcases h.settled hw with hst | ⟨h0, hno⟩
    · exact .inl hst
    · exact .inr ⟨hcount.trans h0, hno⟩
  · intro hseen
    rcases h.late hseen with ⟨hc, hp, hf⟩
    refine ⟨hc, ?_, hf⟩
    have hx : x.isPutTimeout = false := Bool.eq_false_iff.mpr (fun hx => hput hx hseen)
    change tasks.any UACTask.isPutTimeout = false at hp
    simp [hp, hx]

/-- A timer expires. For timer B that must not happen while Proceeding, and
    elsewhere past Calling none is armed. -/
theorem expire (h : TimerBInv ⟨u, tasks, sent, trace⟩) (i : Nat) (ts : Timers UACTimer)
    (hts : u.timers.expire i = some ts)
    (hok : u.timers[i]?.map Timer.kind = some .B → u.stopped = false → u.state ≠ .Proceeding) :
    TimerBInv ⟨{ u with timers := ts }, tasks, sent, trace⟩ := by
  rcases (Timers.expire_eq_some_iff u.timers ts i).mp hts with ⟨t, hi, harmed, hset⟩
  -- Every timer of the new table is one of the old one, apart from its phase.
  have hold : ∀ (j : Nat) (v' : Timer UACTimer), ts[j]? = some v' →
      ∃ v, u.timers[j]? = some v ∧ v.kind = v'.kind ∧
        (v'.phase = .armed → v.phase = .armed) ∧ (v'.phase = .fired → v.phase = .fired ∨ j = i) := by
    intro j v' hj
    rw [hset] at hj
    rcases getElem?_set_cases u.timers i j v' _ hj with ⟨hij, hv⟩ | ⟨_, hj⟩
    · refine ⟨t, hij ▸ hi, ?_, fun _ => harmed, fun _ => .inr hij⟩
      rw [hv]
    · exact ⟨v', hj, rfl, id, .inl⟩
  refine h.retime ?_ ?_ (.inl rfl) ?_ ?_ rfl rfl
  · intro j v' hj hvb
    rcases hold j v' hj with ⟨v, hv, hk, ha, _⟩
    exact ⟨v, hv, hk.trans hvb, ha⟩
  · intro j v hv hvb
    by_cases hij : i = j
    · rw [← hij, hi, some.injEq] at hv
      refine ⟨{ t with phase := .fired }, ?_, hv ▸ hvb⟩
      rw [hset, ← hij, getElem?_set_self (List.getElem?_eq_some_iff.mp hi).1]
    · refine ⟨v, ?_, hvb⟩
      rw [hset, getElem?_set_ne hij]
      exact hv
  · intro hw v' hv'
    rcases mem_iff_getElem?.mp hv' with ⟨j, hj⟩
    rcases hold j v' hj with ⟨v, hv, hk, _⟩
    rw [← hk]
    exact h.noD hw v (mem_of_getElem? hv)
  · intro hseen
    rcases h.late hseen with ⟨hc, _, hf⟩
    by_cases hstop : u.stopped = true
    · exact .inl hstop
    · refine .inr fun v' hv' hvb hvf => ?_
      rcases mem_iff_getElem?.mp hv' with ⟨j, hj⟩
      rcases hold j v' hj with ⟨v, hv, hk, _, hfired⟩
      rcases hfired hvf with hfired | hji
      · exact hf.resolve_left hstop v (mem_of_getElem? hv) (hk.trans hvb) hfired
      · -- The timer that expired is timer B, so the state waits no longer.
        rw [hji, hi, some.injEq] at hv
        have htb : t.kind = .B := by rw [hv]; exact hk.trans hvb
        have hprec : u.state ≠ .Proceeding :=
          hok (by rw [hi, map_some, htb]) (Bool.eq_false_iff.mpr hstop)
        have hw : u.waiting = false := by
          simp only [UACTransaction.waiting, Bool.or_eq_false_iff, decide_eq_false_iff_not]
          exact ⟨hc, hprec⟩
        exact ((h.settled hw).resolve_left hstop).2 t (mem_of_getElem? hi) htb harmed

theorem stopTimerA (h : TimerBInv ⟨u, tasks, sent, trace⟩) :
    TimerBInv ⟨u.stopTimerA, tasks, sent, trace⟩ :=
  h.keep (Timers.quieter_stop? u.timers u.timerA) (.inl rfl) rfl rfl

theorem stopTimerD (h : TimerBInv ⟨u, tasks, sent, trace⟩) :
    TimerBInv ⟨u.stopTimerD, tasks, sent, trace⟩ :=
  h.keep (Timers.quieter_stop? u.timers u.timerD) (.inl rfl) rfl rfl

/-- Stopping timer B leaves none armed, since the transaction holds the armed
    one. -/
theorem noB_stopTimerB (h : TimerBInv ⟨u, tasks, sent, trace⟩) :
    NoB .armed u.stopTimerB.timers := by
  intro t ht htb harmed
  rcases mem_iff_getElem?.mp ht with ⟨j, hj⟩
  rcases Timers.stop?_origin u.timers u.timerB j t hj with ⟨t0, h0, hk, ha, _⟩
  exact (ha harmed).2 (h.armed j t0 h0 (hk.trans htb) (ha harmed).1)

theorem stopTimerB (h : TimerBInv ⟨u, tasks, sent, trace⟩) :
    TimerBInv ⟨u.stopTimerB, tasks, sent, trace⟩ :=
  h.keep (Timers.quieter_stop? u.timers u.timerB) (.inr ⟨rfl, noB_stopTimerB h⟩) rfl rfl

theorem stopTimers (h : TimerBInv ⟨u, tasks, sent, trace⟩) :
    TimerBInv ⟨u.stopTimers, tasks, sent, trace⟩ :=
  h.stopAll.stopTimerA.stopTimerB.stopTimerD

theorem offer (h : TimerBInv ⟨u, tasks, sent, trace⟩) (msg : SIPMessage) :
    TimerBInv ⟨u.offer msg, tasks, sent', trace⟩ := by
  unfold UACTransaction.offer
  split
  · exact h.keep (Timers.Quieter.refl u.timers) (.inl rfl) rfl rfl
  · exact h.keep (Timers.Quieter.refl u.timers) (.inl rfl) rfl rfl

/-- Timer B stays idle when timers are stopped. -/
theorem idle_of_quieter (h : UACClient.TimerBIdle ⟨u, tasks, sent, trace⟩)
    (hq : Timers.Quieter u.timers u'.timers) (hstop : u'.stopped = u.stopped) :
    UACClient.TimerBIdle ⟨u', tasks, sent, trace⟩ := by
  rcases h with ⟨hput, hf⟩
  refine ⟨hput, ?_⟩
  rcases hf with hf | hf
  · exact .inl (hstop.trans hf)
  · exact .inr (noB_of_quieter (.inr rfl) hq hf)

/-- A final response in a waiting state. Timer B has been armed, so `Send` is
    over and stopping the timer puts it out of play. -/
theorem complete (h : TimerBInv ⟨u, tasks, sent, trace⟩) (now : Nat) (msg : SIPMessage)
    (hidle : UACClient.TimerBIdle ⟨u, tasks, sent, trace⟩)
    (hb : u.stopped = false → u.timerB.isSome = true) :
    TimerBInv ⟨u.transitionToCompleted now, tasks, sent, trace ++ [.received msg]⟩ := by
  have hquiet : TimerBInv ⟨u.stopTimerA.stopTimerB, tasks, sent, trace⟩ := h.stopTimerA.stopTimerB
  have hset : UACClient.Settled ⟨u.stopTimerA.stopTimerB, tasks, sent, trace⟩ := by
    by_cases hstop : u.stopped = true
    · exact .inl hstop
    · rcases isSome_iff_exists.mp (hb (Bool.eq_false_iff.mpr hstop)) with ⟨j, hj⟩
      rcases h.held j hj with ⟨t, ht, htb⟩
      exact .inr ⟨h.sent t (mem_of_getElem? ht) htb, noB_stopTimerB h.stopTimerA⟩
  have hdone := hquiet.settle .Completed (nofun)
    nofun (fun _ => hset)
  have hidle' : UACClient.TimerBIdle ⟨u.stopTimerA.stopTimerB, tasks, sent, trace⟩ :=
    idle_of_quieter hidle ((Timers.quieter_stop? u.timers u.timerA).trans
      (Timers.quieter_stop? u.stopTimerA.timers u.stopTimerA.timerB)) rfl
  have hseen := hdone.observe (.received msg)
    (fun _ => ⟨nofun, hidle'⟩) (fun _ => rfl)
  exact hseen.arm now u.timerDWait .D (nofun)
    nofun rfl rfl rfl rfl

/-- A provisional response. -/
theorem proceed (h : TimerBInv ⟨u, tasks, sent, trace⟩) (msg : SIPMessage)
    (hidle : UACClient.TimerBIdle ⟨u, tasks, sent, trace⟩) :
    TimerBInv ⟨if u.state = .Calling then
      UACTransaction.stopTimerA { u with state := .Proceeding } else u, tasks, sent,
      trace ++ [.received msg]⟩ := by
  by_cases hc : u.state = .Calling
  · rw [if_pos hc]
    have hne : UACState.Proceeding ≠ .Calling := nofun
    have hmove := h.settle .Proceeding hne
      (fun _ => by simp only [UACTransaction.waiting, hc, decide_true, Bool.true_or])
      (fun hx => absurd rfl hx)
    exact (hmove.observe (.received msg) (fun _ => ⟨hne, hidle⟩) (fun _ => rfl)).stopTimerA
  · rw [if_neg hc]
    exact h.observe (.received msg) (fun _ => ⟨hc, hidle⟩) (fun _ => rfl)

/-- A response that leaves the state alone. -/
theorem receive (h : TimerBInv ⟨u, tasks, sent, trace⟩) (msg : SIPMessage)
    (hw : u.state ≠ .Calling) (hidle : UACClient.TimerBIdle ⟨u, tasks, sent, trace⟩) :
    TimerBInv ⟨u, tasks, sent, trace ++ [.received msg]⟩ :=
  h.observe (.received msg) (fun _ => ⟨hw, hidle⟩) (fun _ => rfl)

theorem resend (h : TimerBInv ⟨u, tasks, sent, trace⟩) : TimerBInv ⟨u, tasks, sent', trace⟩ :=
  h.keep (Timers.Quieter.refl u.timers) (.inl rfl) rfl rfl

/-- Every response keeps the invariant. -/
theorem response (h : TimerBInv ⟨u, tasks, sent, trace⟩) (now : Nat) (msg : SIPMessage)
    (out : List SIPMessage) (hu : u.handleResponse now msg = some (u', out))
    (ha : u.Answers msg) (hidle : UACClient.TimerBIdle ⟨u, tasks, sent, trace⟩)
    (hb : 200 ≤ msg.statusCode → u.waiting = true → u.stopped = false → u.timerB.isSome = true) :
    TimerBInv ⟨u', tasks, sent', trace ++ [.received msg]⟩ := by
  rcases UACTransaction.handleResponse_cases now u u' msg out hu ha with
    ⟨ht, rfl⟩ | ⟨_, rfl⟩ | ⟨h2, hw, rfl⟩ | ⟨_, hw, rfl⟩
  · exact (h.receive msg (by rw [ht]; exact UACState.noConfusion) hidle).resend
  · exact (h.proceed msg hidle).offer msg
  · exact (h.complete now msg hidle (hb h2 hw)).offer msg
  · have hc : u.state ≠ .Calling := by
      simp only [UACTransaction.waiting, Bool.or_eq_false_iff, decide_eq_false_iff_not] at hw
      exact hw.1
    exact (h.receive msg hc hidle).offer msg

/-- The one timer B has run, so none is armed and `Send` is over. -/
theorem settled_of_fired (h : TimerBInv ⟨u, tasks, sent, trace⟩) (t : Timer UACTimer)
    (ht : t ∈ u.timers) (htb : t.kind = .B) (hphase : t.phase ≠ .armed) :
    UACClient.Settled ⟨u, tasks, sent, trace⟩ := by
  refine .inr ⟨h.sent t ht htb, ?_⟩
  intro v hv hvb harmed
  rcases mem_iff_getElem?.mp ht with ⟨j, hj⟩
  rcases mem_iff_getElem?.mp hv with ⟨k, hk⟩
  have hjk := h.unique j k t v hj hk htb hvb
  rw [hjk, hk, some.injEq] at hj
  rw [hj] at harmed
  exact hphase harmed

/-- The callback of timer B ends the transaction only when no response has been
    received. -/
theorem callbackB (h : TimerBInv ⟨u, tasks, sent, trace⟩) (t : Timer UACTimer)
    (ht : t ∈ u.timers) (htb : t.kind = .B) (hphase : t.phase ≠ .armed) (hseen : ¬ Seen trace) :
    TimerBInv ⟨UACTransaction.stopTimerA { u with state := .Terminated },
      tasks ++ [.putTimeout], sent, trace ++ [.terminatedByB]⟩ := by
  have hend := h.settle .Terminated (nofun)
    nofun
    (fun _ => h.settled_of_fired t ht htb hphase)
  have hput := (hend.stopTimerA).spawn .putTimeout rfl (fun _ => hseen)
    (by intros; contradiction)
  exact hput.observe .terminatedByB
    (by intros; contradiction)
    (fun hs => absurd hs hseen)

/-- Timer D is made on completion, so its callback finds timer B out of play. -/
theorem callbackD (h : TimerBInv ⟨u, tasks, sent, trace⟩) (t : Timer UACTimer)
    (ht : t ∈ u.timers) (htd : t.kind = .D) :
    TimerBInv ⟨{ u with state := .Terminated }, tasks ++ [.deregister], sent, trace⟩ := by
  have hw : u.waiting = false := by
    rw [Bool.eq_false_iff]
    exact fun hw => h.noD hw t ht htd
  have hend := h.settle .Terminated (nofun)
    nofun
    (fun _ => h.settled hw)
  exact hend.spawn .deregister rfl
    (by intros; contradiction)
    (by intros; contradiction)

/-- The locked section of a timer callback keeps the invariant. -/
theorem callback (h : TimerBInv ⟨u, tasks, sent, trace⟩) (i : Nat) (k : UACTimer)
    (ts : Timers UACTimer) (sendFails : Bool) (htake : u.timers.take i = some (k, ts)) :
    TimerBInv ⟨(UACTransaction.timerCallback sendFails { u with timers := ts } k).1,
      tasks ++ (UACTransaction.timerCallback sendFails { u with timers := ts } k).2.2, sent',
      trace ++ u.observeCallback k⟩ := by
  rcases (Timers.take_eq_some_iff u.timers ts i k).mp htake with ⟨t, hi, hfired, hk, hts⟩
  have hq := Timers.quieter_take u.timers ts i k htake
  have h' : TimerBInv ⟨{ u with timers := ts }, tasks, sent', trace⟩ := h.keep hq (.inl rfl) rfl rfl
  have hmem : { t with phase := Phase.finished } ∈ ts := by
    rw [hts]
    exact mem_of_getElem? (getElem?_set_self (List.getElem?_eq_some_iff.mp hi).1)
  cases k with
  | A =>
    simp only [UACTransaction.timerCallback, UACTransaction.observeCallback, reduceCtorEq,
      false_and, if_false, append_nil]
    split
    · simpa only [append_nil] using h'
    · split
      · simpa only [append_nil] using h'
      · have hcount : TimerBInv ⟨{ u with timers := ts, retxCount := u.retxCount + 1 }, tasks,
            sent', trace⟩ := h'.keep (Timers.Quieter.refl ts) (.inl rfl) rfl rfl
        exact hcount.spawn (.readIntervalA false) rfl (by intros; contradiction)
          (by intros; contradiction)
  | B =>
    by_cases hstop : u.stopped = true
    · simpa only [UACTransaction.timerCallback, UACTransaction.observeCallback, hstop, if_true,
        Bool.true_eq_false, and_false, if_false, append_nil] using h'
    · have hseen : ¬ Seen trace := by
        intro hseen
        rcases (h.late hseen).2.2 with hst | hno
        · exact hstop hst
        · exact hno t (mem_of_getElem? hi) hk.symm hfired
      have hstop' : u.stopped = false := Bool.eq_false_iff.mpr hstop
      simp only [UACTransaction.timerCallback, UACTransaction.observeCallback, hstop',
        Bool.false_eq_true, if_false, and_self, if_true]
      rw [← hstop']
      exact h'.callbackB _ hmem hk.symm
        (nofun) hseen
  | D =>
    simp only [UACTransaction.timerCallback, UACTransaction.observeCallback, reduceCtorEq,
      false_and, if_false, append_nil]
    split
    · simpa only [append_nil] using h'
    · exact h'.callbackD _ hmem hk.symm

/-! ### Tasks -/

theorem countP_eraseIdx (p : UACTask → Bool) (i : Nat) (x : UACTask) (hi : tasks[i]? = some x) :
    tasks.countP p = (tasks.eraseIdx i).countP p + if p x then 1 else 0 := by
  rcases List.getElem?_eq_some_iff.mp hi with ⟨hlt, hx⟩
  have hperm := getElem_cons_eraseIdx_perm hlt
  rw [hx] at hperm
  rw [← hperm.countP_eq p, countP_cons]

theorem any_eraseIdx_append (p : UACTask → Bool) (i : Nat) (next : List UACTask)
    (hn : next.any p = false) (h : (tasks.eraseIdx i ++ next).any p = true) :
    tasks.any p = true := by
  rw [any_append, hn, Bool.or_false, List.any_eq_true] at h
  rcases h with ⟨x, hx, hp⟩
  exact List.any_eq_true.mpr ⟨x, mem_of_mem_eraseIdx hx, hp⟩

/-- A task of `Send` is followed by at most one more, and no task is followed by
    the report of a timeout or by the end of a cancelled transaction. -/
theorem runTask_next (u : UACTransaction) (now : Nat) (sendFails : Bool) (x : UACTask) :
    ((u.runTask now sendFails x).2.2.countP UACTask.isSend ≤ if x.isSend then 1 else 0) ∧
      (u.runTask now sendFails x).2.2.any UACTask.isPutTimeout = false ∧
      (u.runTask now sendFails x).2.2.any UACTask.isTerminate = false := by
  cases x with
  | sendRequest req =>
    simp only [UACTransaction.runTask]
    split
    · exact ⟨Nat.zero_le _, rfl, rfl⟩
    · split
      · exact ⟨Nat.le_refl 1, rfl, rfl⟩
      · exact ⟨Nat.le_refl 1, rfl, rfl⟩
  | readIntervalA inSend | armTimerA interval inSend =>
    cases inSend with
    | true => exact ⟨Nat.le_refl 1, rfl, rfl⟩
    | false => exact ⟨Nat.le_refl 0, rfl, rfl⟩
  | storeRequest | startTimerA | readIntervalB => exact ⟨Nat.le_refl 1, rfl, rfl⟩
  | armTimerB | putTimeout | deregister | terminate | cancelContext =>
    exact ⟨Nat.zero_le _, rfl, rfl⟩

/-- A task is replaced by what follows it. -/
theorem advance (h : TimerBInv ⟨u', tasks, sent, trace⟩) (u : UACTransaction) (now i : Nat)
    (sendFails : Bool) (x : UACTask) (hi : tasks[i]? = some x) :
    TimerBInv ⟨u', tasks.eraseIdx i ++ (u.runTask now sendFails x).2.2, sent', trace⟩ := by
  rcases runTask_next u now sendFails x with ⟨hsend, hput, hterm⟩
  refine (h.reschedule ?_ (any_eraseIdx_append _ i _ hput) (any_eraseIdx_append _ i _ hterm)).resend
  have hcount := countP_eraseIdx UACTask.isSend i x hi
  rw [countP_append]
  omega

/-- Arming timer B ends `Send`. -/
theorem taskArmB (h : TimerBInv ⟨u, tasks, sent, trace⟩) (now i : Nat) (d : Int64)
    (hi : tasks[i]? = some (.armTimerB d)) :
    TimerBInv ⟨{ u with
      timers := u.timers.afterFunc now (wait d) .B
      timerB := some u.timers.length }, tasks.eraseIdx i ++ [], sent', trace⟩ := by
  have hcount := countP_eraseIdx UACTask.isSend i _ hi
  have hone : tasks.countP UACTask.isSend ≤ 1 := h.oneSend
  simp only [UACTask.isSend, if_true] at hcount
  refine (h.armB now (wait d) (by omega) ?_ (any_eraseIdx_append _ i [] rfl)
    (any_eraseIdx_append _ i [] rfl)).resend
  rw [append_nil]
  omega

/-- What a task other than arming timer B does to the transaction keeps the
    invariant. -/
theorem taskState (h : TimerBInv ⟨u, tasks, sent, trace⟩) (now : Nat) (sendFails : Bool)
    (x : UACTask) (hx : x ∈ tasks) (hb : ∀ d, x ≠ .armTimerB d) :
    TimerBInv ⟨(u.runTask now sendFails x).1, tasks, sent, trace ++ x.observe⟩ := by
  cases x with
  | armTimerB d => exact absurd rfl (hb d)
  | armTimerA interval inSend =>
    simp only [UACTask.observe, append_nil]
    exact h.arm now (wait interval) .A (nofun)
      (fun _ => nofun) rfl rfl rfl rfl
  | putTimeout =>
    -- The report is still to come, so no response has been received.
    have hseen : ¬ Seen trace := by
      intro hseen
      have hput := List.any_eq_false.mp (h.late hseen).2.1 _ hx
      exact hput rfl
    have hobs := h.observe .timeout (by intros; contradiction)
      (fun hs => absurd hs hseen)
    simp only [UACTransaction.runTask]
    split
    · exact hobs.keep (Timers.Quieter.refl u.timers) (.inl rfl) rfl rfl
    · exact hobs
  | terminate =>
    simp only [UACTask.observe, append_nil]
    have hstop : u.stopped = true := h.ending (List.any_eq_true.mpr ⟨_, hx, rfl⟩)
    exact h.settle .Terminated (nofun)
      nofun
      (fun _ => .inl hstop)
  | storeRequest | sendRequest | startTimerA | readIntervalA | readIntervalB | deregister
  | cancelContext =>
    simp only [UACTask.observe, append_nil]
    exact h.keep (Timers.Quieter.refl u.timers) (.inl rfl) rfl rfl

/-- Every task keeps the invariant. -/
theorem task (h : TimerBInv ⟨u, tasks, sent, trace⟩) (now i : Nat) (sendFails : Bool)
    (x : UACTask) (hi : tasks[i]? = some x) :
    TimerBInv ⟨(u.runTask now sendFails x).1, tasks.eraseIdx i ++ (u.runTask now sendFails x).2.2,
      sent', trace ++ x.observe⟩ := by
  by_cases hb : ∃ d, x = .armTimerB d
  · rcases hb with ⟨d, rfl⟩
    simp only [UACTask.observe, append_nil]
    exact h.taskArmB now i d hi
  · exact (h.taskState now sendFails x (mem_of_getElem? hi)
      (fun d hd => hb ⟨d, hd⟩)).advance u now i sendFails x hi

end TimerBInv

/-! ### Runs -/

theorem timerBInv_start (tx : UACTransaction) (req : SIPMessage) (hs : tx.state = .Calling)
    (ht : tx.timers = []) (hb : tx.timerB = none) : TimerBInv (UACClient.start tx req) where
  unique := by simp only [UACClient.start, ht, getElem?_nil, reduceCtorEq, false_implies,
    implies_true]
  sent := by simp only [UACClient.start, ht, not_mem_nil, false_implies, implies_true]
  oneSend := Nat.le_refl 1
  held := by simp only [UACClient.start, hb, reduceCtorEq, false_implies, implies_true]
  armed := by simp only [UACClient.start, ht, getElem?_nil, reduceCtorEq, false_implies,
    implies_true]
  noD := by simp only [UACClient.start, ht, not_mem_nil, false_implies, implies_true]
  ending := fun hx => by cases hx
  settled := by
    intro hw
    simp only [UACClient.start, UACTransaction.waiting, hs, decide_true, Bool.true_or,
      Bool.true_eq_false] at hw
  late := by
    rintro ⟨o, ho, _⟩
    cases ho
  silent := List.Pairwise.nil

/-- Every event that meets the condition keeps the invariant. -/
theorem timerBInv_step (s t : UACClient) (e : UACEvent) (h : TimerBInv s) (hok : TimerBOk s e)
    (hstep : uacStep s e = some t) : TimerBInv t := by
  rcases s with ⟨u, tasks, sent, trace⟩
  cases e with
  | task now i sendFails =>
    rcases map_eq_some_iff.mp hstep with ⟨x, hi, rfl⟩
    exact h.task now i sendFails x hi
  | response now msg =>
    rcases map_eq_some_iff.mp hstep with ⟨⟨u', out⟩, hu, rfl⟩
    by_cases ha : u.Answers msg
    · rcases hok ha with ⟨hidle, hb⟩
      simp only [if_pos ha]
      exact h.response now msg out hu ha hidle hb
    · change u.handleResponse now msg = _ at hu
      rw [u.handleResponse_of_not_answers now msg ha, some.injEq, Prod.mk.injEq] at hu
      simp only [if_neg ha, append_nil, ← hu.1]
      exact h.resend
  | expire i =>
    rcases map_eq_some_iff.mp hstep with ⟨ts, hts, rfl⟩
    exact h.expire i ts hts hok
  | callback i sendFails =>
    rcases map_eq_some_iff.mp hstep with ⟨⟨k, ts⟩, htake, rfl⟩
    exact h.callback i k ts sendFails htake
  | stopTimers =>
    cases hstep
    exact h.stopTimers
  | cancel =>
    cases hstep
    exact h.stopTimers.spawn .terminate rfl (by intros; contradiction)
      (fun _ => rfl)
  | receiveResponse | receiveError =>
    simp only [uacStep] at hstep
    split at hstep
    · cases hstep
    · cases hstep
      exact h.keep (Timers.Quieter.refl u.timers) (.inl rfl) rfl rfl

/-- In every run of an INVITE client transaction that meets the condition, timer
    B is silent once a response to the INVITE has been received. -/
theorem noLateTimeout_of_timerBOk (branch : Bytes) (transport : Transport) (target : Target)
    (req : SIPMessage) (es : List UACEvent) (s : UACClient)
    (hrun : Run uacStep TimerBOk
      (UACClient.start (UACTransaction.create branch .INVITE transport target) req) es s) :
    NoLateTimeout s.trace :=
  (hrun.invariant TimerBInv (timerBInv_start _ req rfl rfl rfl)
    (fun t e t' => timerBInv_step t t' e)).silent

/-- An outgoing INVITE over UDP. -/
def outgoing : SIPMessage :=
  { newRequest .INVITE (ascii "sip:bob@example.com") with cseq := ⟨.INVITE, 1⟩ }

/-- Its transaction with `Send` about to start. -/
def outgoingClient : UACClient :=
  .start (.create (ascii "z9hG4bK1") .INVITE .udp ⟨none, none, []⟩) outgoing

/-- All of `Send`. It makes timer A as timer 0 and timer B as timer 1. -/
def sendSteps : List UACEvent := List.replicate 7 (.task 0 0 false)

/-- A response to the INVITE. -/
def answer (code : Int64) (reason : String) : UACEvent :=
  .response 1 (newResponse outgoing code (ascii reason))

/-- A call that rings and is answered, after which timer B expires no more. -/
def answeredCall : List UACEvent :=
  sendSteps ++ [answer 180 "Ringing", answer 200 "OK", answer 200 "OK", .expire 2,
    .callback 2 false]

theorem noLateTimeout_answeredCall :
    ∃ s, Run uacStep TimerBOk outgoingClient answeredCall s ∧ s.trace.length = 3 ∧
      NoLateTimeout s.trace :=
  exists_run_and (by decide +kernel) fun _ hrun _ => noLateTimeout_of_timerBOk _ _ _ _ _ _ hrun

/-- Timer B expires while the call rings. -/
def ringingTooLong : List UACEvent :=
  sendSteps ++ [answer 180 "Ringing", .expire 1, .callback 1 false, .task 0 0 false]

/-- The answer is faster than `Send`, which arms timer B afterwards. -/
def answeredBeforeArmed : List UACEvent :=
  [.task 0 0 false, .task 0 0 false, answer 200 "OK"] ++ List.replicate 5 (.task 0 0 false) ++
    [.expire 2, .callback 2 false, .task 0 0 false]

/-- The answer comes between the firing of timer B and its callback. -/
def answeredAfterFiring : List UACEvent :=
  sendSteps ++ [.expire 1, answer 200 "OK", .callback 1 false, .task 0 0 false]

/-- Without the condition timer B acts after a response in each of the three
    ways. -/
theorem noLateTimeout_fails :
    (∃ s, Run uacStep (fun _ _ => True) outgoingClient ringingTooLong s ∧
      ¬ NoLateTimeout s.trace ∧ s.tx.errors = [.INVITE] ∧ s.tx.state = .Terminated) ∧
    (∃ s, Run uacStep (fun _ _ => True) outgoingClient answeredBeforeArmed s ∧
      ¬ NoLateTimeout s.trace ∧ s.tx.errors = [.INVITE] ∧ s.tx.state = .Terminated) ∧
    (∃ s, Run uacStep (fun _ _ => True) outgoingClient answeredAfterFiring s ∧
      ¬ NoLateTimeout s.trace ∧ s.tx.errors = [.INVITE] ∧ s.tx.state = .Terminated) :=
  ⟨exists_run_of_exec (by decide +kernel),
    exists_run_of_exec (by decide +kernel),
    exists_run_of_exec (by decide +kernel)⟩

end Sip

end Trecs
