import Trecs.Sip.Matching

/-!
# One Handler Call for One INVITE

How often the application sees an INVITE that arrives several times.

A copy is absorbed as long as the table has the transaction of the first one.
The transaction leaves the table by design at four moments, those of RFC 3261
section 17.2.1: when a 2xx response is given to it; when the ACK for another
final response arrives over a reliable transport; `T4` after that ACK over an
unreliable one; and `64*T1` after that response was sent if no ACK came.
`Manager.expired` reads from the log whether one of them has passed.

Until then every copy is absorbed and the handler is called exactly once,
provided that one copy is not looked up while another one is between its lookup
and the insertion of its transaction, which are two critical sections.

A timer is the reason why the argument needs the time. The callbacks of timers H
and I delete the table entry, so the invariant ties when such a timer is due to
the time in the log at which the response was sent or the ACK arrived.

## Main definitions

* `Manager.expired`: Whether a transaction has left the table by design.
* `IsCopy`: The same Via branch, sent-by and method.
* `CopyOk`: When a copy may arrive.
* `Timed`: The timers H and I of a transaction against the log.
* `OnceInv`: The invariant.

## Theorems

* `onceInv_step`: Every allowed event keeps the invariant.
* `handler_invoked_once`: The handler is called exactly once.
* `handler_invoked_twice`: A copy after a 2xx response calls it again.
-/

namespace Trecs

open List Option

namespace Sip

open Proto

/-- What the manager did, with the time. -/
abbrev Log := List (Nat × ManagerObs)

/-- Whether the log entry `o` shows that transaction `i` has left the table by
    the time `now`. -/
def expires (now i : Nat) (reliable : Bool) (o : Nat × ManagerObs) : Bool :=
  match o.2 with
  | .sent j m =>
    decide (j = i) && (decide (200 ≤ m.statusCode ∧ m.statusCode < 300) ||
      decide (300 ≤ m.statusCode ∧ o.1 + wait (64 * T1) ≤ now))
  | .acknowledged j => decide (j = i) && (reliable || decide (o.1 + wait T4 ≤ now))
  | _ => false

/-- Whether transaction `i` has left the table by design: a 2xx response was
    sent, an ACK came over a reliable transport, an ACK came `T4` ago, or
    another final response was sent `64*T1` ago. -/
def Manager.expired (s : Manager) (i : Nat) (reliable : Bool) : Bool :=
  s.log.any (expires s.now i reliable)

theorem expires_mono {now now' i : Nat} {reliable : Bool} {o : Nat × ManagerObs}
    (hn : now ≤ now') (h : expires now i reliable o = true) : expires now' i reliable o = true := by
  rcases o with ⟨t, o⟩
  cases o with
  | sent j m =>
    simp only [expires, Bool.and_eq_true, Bool.or_eq_true, decide_eq_true_eq] at h ⊢
    omega
  | acknowledged j =>
    simp only [expires, Bool.and_eq_true, Bool.or_eq_true, decide_eq_true_eq] at h ⊢
    rcases h with ⟨hj, hr | ht⟩
    · exact ⟨hj, .inl hr⟩
    · exact ⟨hj, .inr (ht.trans hn)⟩
  | replied | absorbed | invoked => contradiction

theorem expired_later {s t : Manager} (i : Nat) (reliable : Bool) (hl : Later s t)
    (h : s.expired i reliable = true) : t.expired i reliable = true := by
  rcases List.any_eq_true.mp h with ⟨o, ho, he⟩
  exact List.any_eq_true.mpr ⟨o, hl.log.subset ho, expires_mono hl.now he⟩

/-! ### The timers of an INVITE transaction against the log -/

/-- A timer H was made when a final response was sent and a timer I when an ACK
    arrived, and a timer that has fired was due. -/
def TimerInv (log : Log) (now i : Nat) (t : Timer ISTTimer) : Prop :=
  (t.phase = .fired → t.due ≤ now) ∧
  match t.kind with
  | .G => True
  | .H => ∃ t0 m, (t0, .sent i m) ∈ log ∧ 300 ≤ m.statusCode ∧ t.due = t0 + wait (64 * T1)
  | .I => ∃ t0, (t0, .acknowledged i) ∈ log ∧ t.due = t0 + wait T4

/-- Every timer of transaction `i` is tied to the log. -/
def Timed (log : Log) (now i : Nat) (ts : Timers ISTTimer) : Prop :=
  ∀ t ∈ ts, TimerInv log now i t

section Timed

variable {log log' : Log} {now now' i : Nat} {ts ts' : Timers ISTTimer} {tx : InviteTransaction}

theorem timerInv_mono {t : Timer ISTTimer} (hl : log ⊆ log') (hn : now ≤ now')
    (h : TimerInv log now i t) : TimerInv log' now' i t := by
  rcases t with ⟨kind, due, phase⟩
  refine ⟨fun hf => (h.1 hf).trans hn, ?_⟩
  cases kind with
  | G => trivial
  | H =>
    rcases h.2 with ⟨t0, m, hmem, hm, hd⟩
    exact ⟨t0, m, hl hmem, hm, hd⟩
  | I =>
    rcases h.2 with ⟨t0, hmem, hd⟩
    exact ⟨t0, hl hmem, hd⟩

theorem Timed.mono (h : Timed log now i ts) (hl : log ⊆ log') (hn : now ≤ now') :
    Timed log' now' i ts :=
  fun t ht => timerInv_mono hl hn (h t ht)

theorem Timed.quieter (h : Timed log now i ts) (hq : Timers.Quieter ts ts') :
    Timed log now i ts' := by
  intro t' ht'
  rcases mem_iff_getElem?.mp ht' with ⟨j, hj⟩
  rcases hq.back j t' hj with ⟨t, ht, hk, _, hf, hd⟩
  have hinv := h t (mem_of_getElem? ht)
  rcases t with ⟨kind, due, phase⟩
  rcases t' with ⟨kind', due', phase'⟩
  simp only at hk hd hf
  subst hk hd
  exact ⟨fun hx => hinv.1 (hf hx), hinv.2⟩

theorem Timed.afterFunc (h : Timed log now i ts) (d : Nat) (k : ISTTimer)
    (hnew : TimerInv log now i ⟨k, now + d, .armed⟩) : Timed log now i (ts.afterFunc now d k) := by
  intro t ht
  rcases mem_append.mp ht with ht | ht
  · exact h t ht
  · rw [mem_singleton.mp ht]
    exact hnew

theorem timed_startTimerG (h : Timed log now i tx.timers) :
    Timed log now i (tx.startTimerG now).timers := by
  unfold InviteTransaction.startTimerG
  split
  · exact h
  · exact h.afterFunc _ .G ⟨fun hf => (by cases hf),
      trivial⟩

/-- Timer H, armed when the response `m` is sent. -/
theorem timed_armTimerH (h : Timed log now i tx.timers) (m : SIPMessage)
    (hmem : (now, .sent i m) ∈ log) (hm : 300 ≤ m.statusCode) :
    Timed log now i (tx.armTimerH now).timers :=
  h.afterFunc _ .H ⟨fun hf => absurd hf (by simp only [reduceCtorEq, not_false_eq_true]),
    ⟨now, m, hmem, hm, rfl⟩⟩

theorem quieter_stopTimers (tx : InviteTransaction) :
    Timers.Quieter tx.timers tx.stopTimers.timers :=
  ((Timers.quieter_stop? tx.timers tx.timerH).trans
    (Timers.quieter_stop? _ tx.timerI)).trans (Timers.quieter_stop? _ tx.timerG)

theorem respond_timed (h : Timed log now i tx.timers) (res : SIPMessage) (hl : log ⊆ log')
    (hsent : ∀ m ∈ (tx.respond now res).sent, (now, .sent i m) ∈ log') :
    Timed log' now i (tx.respond now res).tx.timers := by
  have h' := h.mono hl (Nat.le_refl now)
  rcases tx.respond_cases now res with
    hr | ⟨_, _, hr⟩ | ⟨_, _, hr⟩ | ⟨_, _, _, _, hr⟩ | ⟨_, h300, hr⟩ | ⟨_, _, hr⟩ <;>
    rw [hr] at hsent ⊢
  case inr.inr.inr.inr.inl =>
    refine timed_startTimerG (timed_armTimerH ?_ res (hsent res (mem_singleton.mpr rfl)) h300)
    exact h'
  all_goals exact h'

theorem ackReceived_timed (h : Timed log now i tx.timers) (hl : log ⊆ log')
    (hack : tx.state = .Completed → (now, .acknowledged i) ∈ log') :
    Timed log' now i (tx.ackReceived now).tx.timers := by
  have h' := h.mono hl (Nat.le_refl now)
  unfold InviteTransaction.ackReceived
  by_cases hc : tx.state = .Completed
  · rw [if_neg (not_not_intro hc)]
    have hstop := h'.quieter (quieter_stopTimers { tx with state := .Confirmed })
    simp only []
    split
    · exact hstop
    · refine Timed.afterFunc hstop _ .I ⟨?_, now, hack hc, rfl⟩
      exact fun hf => nomatch hf
  · rw [if_pos hc]
    exact h'

theorem cancelRequest_timed (h : Timed log now i tx.timers) (ev : MessageEvent)
    (hasHandler : Bool) (hl : log ⊆ log')
    (hsent : ∀ m ∈ (tx.cancelRequest now ev hasHandler).sent, (now, .sent i m) ∈ log') :
    Timed log' now i (tx.cancelRequest now ev hasHandler).tx.timers := by
  have h' := h.mono hl (Nat.le_refl now)
  unfold InviteTransaction.cancelRequest at hsent ⊢
  split
  · rename_i hp
    simp only [hp, if_true] at hsent ⊢
    split
    · exact h'
    · rename_i hno
      simp only [hno] at hsent
      refine timed_startTimerG (timed_armTimerH ?_ _ (hsent _ (mem_singleton.mpr rfl)) ?_)
      · exact h'.quieter (quieter_stopTimers _)
      · change 300 ≤ (newResponse ev.msg 487 (ascii "Request Terminated")).statusCode
        rw [newResponse_statusCode]
        decide
  · split
    · split
      · exact h'
      · exact h'
    · exact h'

theorem timerCallback_timed (h : Timed log now i tx.timers) (k : ISTTimer) (hl : log ⊆ log') :
    Timed log' now i (tx.timerCallback now k).tx.timers := by
  have h' := h.mono hl (Nat.le_refl now)
  cases k with
  | G =>
    simp only [InviteTransaction.timerCallback]
    split
    · exact h'
    · exact h'.afterFunc _ .G
        ⟨fun hf => absurd hf (by simp only [reduceCtorEq, not_false_eq_true]), trivial⟩
  | H =>
    simp only [InviteTransaction.timerCallback]
    split
    · exact h'
    · exact h'.quieter (quieter_stopTimers { tx with state := .Terminated })
  | I =>
    simp only [InviteTransaction.timerCallback]
    split
    · exact h'
    · exact h'

theorem expire_timed (h : Timed log now i ts) (j : Nat) (hts : ts.expire j = some ts')
    (hdue : ts[j]?.any (fun t => t.due ≤ now) = true) : Timed log now i ts' := by
  rcases (Timers.expire_eq_some_iff ts ts' j).mp hts with ⟨t, hj, _, rfl⟩
  simp only [hj, any_some, decide_eq_true_eq] at hdue
  intro t' ht'
  rcases mem_or_eq_of_mem_set ht' with ht' | rfl
  · exact h t' ht'
  · exact ⟨fun _ => hdue, (h t (mem_of_getElem? hj)).2⟩

end Timed

/-! ### When a transaction leaves the table -/

theorem respond_delete (now : Nat) (tx : InviteTransaction) (res : SIPMessage)
    (h : (tx.respond now res).delete = true) :
    (tx.respond now res).sent = [res] ∧ 200 ≤ res.statusCode ∧ res.statusCode < 300 := by
  rcases tx.respond_cases now res with
    hr | ⟨_, _, hr⟩ | ⟨_, _, hr⟩ | ⟨_, _, h2, h3, hr⟩ | ⟨_, _, hr⟩ | ⟨_, _, hr⟩ <;>
    rw [hr] at h ⊢
  case inr.inr.inr.inl => exact ⟨rfl, h2, h3⟩
  all_goals contradiction

theorem ackReceived_delete (now : Nat) (tx : InviteTransaction)
    (h : (tx.ackReceived now).delete = true) : tx.state = .Completed ∧ tx.reliable = true := by
  unfold InviteTransaction.ackReceived at h
  by_cases hc : tx.state = .Completed
  · rw [if_neg (not_not_intro hc)] at h
    simp only [] at h
    split at h
    · rename_i hr
      exact ⟨hc, hr⟩
    · contradiction
  · rw [if_pos hc] at h
    contradiction

theorem timerCallback_delete (now : Nat) (tx : InviteTransaction) (k : ISTTimer)
    (h : (tx.timerCallback now k).delete = true) : k = .H ∨ k = .I := by
  cases k with
  | G =>
    simp only [InviteTransaction.timerCallback] at h
    split at h
    · cases h
    · cases h
  | H => exact .inl rfl
  | I => exact .inr rfl

/-- A timer H or I that has fired shows that its transaction has expired. -/
theorem expired_of_fired (s : Manager) (i : Nat) (reliable : Bool) (t : Timer ISTTimer)
    (h : TimerInv s.log s.now i t) (hf : t.phase = .fired) (hk : t.kind = .H ∨ t.kind = .I) :
    s.expired i reliable = true := by
  rcases t with ⟨kind, due, phase⟩
  have hdue : due ≤ s.now := h.1 hf
  rcases hk with rfl | rfl
  · rcases h.2 with ⟨t0, m, hmem, hm, hd⟩
    refine List.any_eq_true.mpr ⟨_, hmem, ?_⟩
    simp only [expires, decide_true, Bool.true_and, Bool.or_eq_true, decide_eq_true_eq]
    exact .inr ⟨hm, hd ▸ hdue⟩
  · rcases h.2 with ⟨t0, hmem, hd⟩
    refine List.any_eq_true.mpr ⟨_, hmem, ?_⟩
    simp only [expires, decide_true, Bool.true_and, Bool.or_eq_true, decide_eq_true_eq]
    exact .inr (hd ▸ hdue)

section Once

variable [UnicodeLower]

/-- The same Via branch, sent-by and method. -/
def IsCopy (inv msg : SIPMessage) : Prop :=
  msg.viaBranch = inv.viaBranch ∧ msg.viaSentBy = inv.viaSentBy ∧ msg.method = inv.method

instance (inv msg : SIPMessage) : Decidable (IsCopy inv msg) :=
  inferInstanceAs (Decidable (_ ∧ _ ∧ _))

/-- Whether a dispatch goroutine is on its way to the handler with a request
    that has the branch `b`. -/
def Carries (b : Bytes) : Worker → Prop
  | .missed ev _ | .inserted ev _ _ => ev.msg.viaBranch = some b
  | _ => False

instance (b : Bytes) (x : Worker) : Decidable (Carries b x) := by
  cases x <;> unfold Carries <;> infer_instance

/-- Whether a dispatch goroutine is between the lookup and the insertion of a
    request with the branch `b`. -/
def Looking (b : Bytes) : Worker → Prop
  | .missed ev _ => ev.msg.viaBranch = some b
  | _ => False

instance (b : Bytes) (x : Worker) : Decidable (Looking b x) := by
  cases x <;> unfold Looking <;> infer_instance

/-- No transaction with the branch `b` has left the table by design. -/
def Manager.Open (b : Bytes) (s : Manager) : Prop :=
  ∀ i < s.heap.length, ∀ c ∈ s.heap[i]?, c.request.viaBranch = some b →
    s.expired i c.request.isReliableTransport = false

instance (b : Bytes) (s : Manager) : Decidable (s.Open b) :=
  inferInstanceAs (Decidable (∀ i < s.heap.length, ∀ c ∈ s.heap[i]?, _ → _))

/-- When a request with the branch `b` of the INVITE `inv`, other than a CANCEL,
    may be looked up: it is a copy of the INVITE, there is a handler for it, no
    other copy is between its lookup and its insertion, and no transaction with
    the branch has left the table by design. -/
def CopyOk (inv : SIPMessage) (b : Bytes) (s : Manager) : ManagerEvent → Prop
  | .request _ ev hasHandler =>
    ev.msg.viaBranch = some b → ev.msg.method ≠ .CANCEL →
      IsCopy inv ev.msg ∧ hasHandler = true ∧ ¬ Looking b (s.worker .udp) ∧
      ¬ Looking b (s.worker .tcp) ∧ s.Open b
  | _ => True

instance (inv : SIPMessage) (b : Bytes) (s : Manager) (e : ManagerEvent) :
    Decidable (CopyOk inv b s e) := by
  cases e <;> unfold CopyOk <;> infer_instance

/-- Whether a log entry is a call of the handler with a copy of the INVITE. -/
def callsWith (inv : SIPMessage) (o : Nat × ManagerObs) : Bool :=
  match o.2 with
  | .invoked msg _ => decide (IsCopy inv msg)
  | _ => false

/-- How often the handler was called with a copy of the INVITE. -/
def invocations (inv : SIPMessage) (log : Log) : Nat := log.countP (callsWith inv)

/-! ### The way of the first copy -/

/-- How far the first copy has come: not arrived; looked up by `w`; stored as
    transaction `i` by `w`; or handed to the handler. -/
inductive Stage where
  | before
  | looking (w : Transport)
  | stored (w : Transport) (i : Nat)
  | handed (i : Nat)

/-- The request at position `o`, if any, has the branch `b`, and no other. -/
def OnlyAt (b : Bytes) (rs : List SIPMessage) (o : Option Nat) : Prop :=
  ∀ i : Nat, (∃ r, rs[i]? = some r ∧ r.viaBranch = some b) ↔ o = some i

/-- What holds at a stage, for the requests `rs` with a transaction, the
    goroutines `wk` and the number `n` of handler calls. -/
def AtStage (inv : SIPMessage) (b : Bytes) (rs : List SIPMessage) (wk : Transport → Worker)
    (n : Nat) : Stage → Prop
  | .before => OnlyAt b rs none ∧ (∀ v, ¬ Carries b (wk v)) ∧ n = 0
  | .looking w =>
    OnlyAt b rs none ∧ (∃ ev, wk w = .missed ev true ∧ IsCopy inv ev.msg) ∧
      (∀ v, v ≠ w → ¬ Carries b (wk v)) ∧ n = 0
  | .stored w i =>
    OnlyAt b rs (some i) ∧ (∃ ev, wk w = .inserted ev i true ∧ IsCopy inv ev.msg) ∧
      (∀ v, v ≠ w → ¬ Carries b (wk v)) ∧ n = 0
  | .handed i => OnlyAt b rs (some i) ∧ (∀ v, ¬ Carries b (wk v)) ∧ n = 1

section Stage

variable {inv : SIPMessage} {b : Bytes} {rs : List SIPMessage} {wk : Transport → Worker} {n : Nat}
  {st : Stage} {w : Transport} {i : Nat}

/-- All requests with the branch have one position. -/
theorem AtStage.unique (h : AtStage inv b rs wk n st) {i j : Nat} {r r' : SIPMessage}
    (hi : rs[i]? = some r) (hj : rs[j]? = some r') (hr : r.viaBranch = some b)
    (hr' : r'.viaBranch = some b) : i = j := by
  have hone : ∃ o, OnlyAt b rs o := by
    cases st with
    | before => exact ⟨_, h.1⟩
    | looking w => exact ⟨_, h.1⟩
    | stored w k => exact ⟨_, h.1⟩
    | handed k => exact ⟨_, h.1⟩
  rcases hone with ⟨o, ho⟩
  have hoi := (ho i).mp ⟨r, hi, hr⟩
  have hoj := (ho j).mp ⟨r', hj, hr'⟩
  exact some.inj (hoi.symm.trans hoj)

/-- A goroutine that has no such request moves. -/
theorem AtStage.move (h : AtStage inv b rs wk n st) (hinv : inv.viaBranch = some b) (w : Transport)
    (x : Worker) (hw : ¬ Carries b (wk w)) (hx : ¬ Carries b x) :
    AtStage inv b rs (fun v => if v = w then x else wk v) n st := by
  have hrest : ∀ v, ¬ Carries b (wk v) → ¬ Carries b (if v = w then x else wk v) := by
    intro v hv
    split
    · exact hx
    · exact hv
  cases st with
  | before | handed i => exact ⟨h.1, fun v => hrest v (h.2.1 v), h.2.2⟩
  | looking u | stored u i =>
    rcases h with ⟨honly, ⟨ev, hu, hcopy⟩, hothers, hn⟩
    have huw : u ≠ w := by
      rintro rfl
      exact hw (by rw [hu]; exact hcopy.1.trans hinv)
    refine ⟨honly, ⟨ev, ?_, hcopy⟩, fun v hv => hrest v (hothers v hv), hn⟩
    exact (if_neg huw).trans hu

theorem OnlyAt.append {o : Option Nat} (h : OnlyAt b rs o) (r : SIPMessage)
    (hr : r.viaBranch ≠ some b) : OnlyAt b (rs ++ [r]) o := by
  intro i
  rw [← h i]
  refine exists_congr (fun r' => ?_)
  rw [getElem?_append_singleton]
  refine ⟨fun ⟨hi, hb⟩ => ⟨?_, hb⟩, fun ⟨hi, hb⟩ => ⟨.inl hi, hb⟩⟩
  rcases hi with hi | ⟨_, hrr⟩
  · exact hi
  · exact absurd (hrr ▸ hb) hr

theorem OnlyAt.appendNew (h : OnlyAt b rs none) (r : SIPMessage) (hr : r.viaBranch = some b) :
    OnlyAt b (rs ++ [r]) (some rs.length) := by
  intro i
  rw [some.injEq]
  refine ⟨fun ⟨r', hi, hb⟩ => ?_, fun hi => ⟨r, ?_, hr⟩⟩
  · rw [getElem?_append_singleton] at hi
    rcases hi with hi | ⟨hi, _⟩
    · cases (h i).mp ⟨r', hi, hb⟩
    · exact hi.symm
  · rw [getElem?_append_singleton]
    exact .inr ⟨hi.symm, rfl⟩

/-- A transaction with another branch is stored. -/
theorem AtStage.append (h : AtStage inv b rs wk n st) (r : SIPMessage)
    (hr : r.viaBranch ≠ some b) : AtStage inv b (rs ++ [r]) wk n st := by
  cases st with
  | before | looking w | stored w i | handed i => exact ⟨h.1.append r hr, h.2⟩

/-- The first copy is looked up. -/
theorem AtStage.look (h : AtStage inv b rs wk n .before) (w : Transport) (ev : MessageEvent)
    (hcopy : IsCopy inv ev.msg) :
    AtStage inv b rs (fun v => if v = w then .missed ev true else wk v) n (.looking w) := by
  refine ⟨h.1, ⟨ev, if_pos rfl, hcopy⟩, fun v hv => ?_, h.2.2⟩
  simp only [if_neg hv]
  exact h.2.1 v

/-- The transaction of the first copy is stored. -/
theorem AtStage.store (h : AtStage inv b rs wk n (.looking w)) (ev : MessageEvent)
    (hw : wk w = .missed ev true) (hb : ev.msg.viaBranch = some b) :
    AtStage inv b (rs ++ [ev.msg])
      (fun v => if v = w then .inserted ev rs.length true else wk v) n (.stored w rs.length) := by
  rcases h with ⟨honly, ⟨ev', hw', hcopy⟩, hothers, hn⟩
  rw [hw, Worker.missed.injEq] at hw'
  refine ⟨honly.appendNew ev.msg hb, ⟨ev, if_pos rfl, hw'.1 ▸ hcopy⟩, fun v hv => ?_, hn⟩
  simp only [if_neg hv]
  exact hothers v hv

/-- The handler is called. -/
theorem AtStage.hand (h : AtStage inv b rs wk n (.stored w i)) (x : Worker)
    (hx : ¬ Carries b x) :
    AtStage inv b rs (fun v => if v = w then x else wk v) (n + 1) (.handed i) := by
  rcases h with ⟨honly, _, hothers, hn⟩
  refine ⟨honly, fun v => ?_, by rw [hn]⟩
  simp only []
  split
  · exact hx
  · rename_i hv
    exact hothers v hv

end Stage

/-! ### The transactions and their table entries -/

/-- What a transaction keeps for ever comes from its request; its timers are
    tied to the log; a transaction with the branch `b` is one for an INVITE, and
    it has its table entry or has expired; a deletion under way for `b` comes
    from an expired transaction. -/
structure KeepInv (b : Bytes) (s : Manager) : Prop where
  ident : ∀ (i : Nat) (c : Entry), s.heap[i]? = some c → ∃ b', c.request.viaBranch = some b' ∧
    c.tx.ident = (decide (c.request.method = .INVITE), b', c.request.isReliableTransport)
  timed : ∀ (i : Nat) (c : Entry) (tx : InviteTransaction), s.heap[i]? = some c →
    c.tx = .invite tx → Timed s.log s.now i tx.timers
  invites : ∀ (i : Nat) (c : Entry), s.heap[i]? = some c → c.request.viaBranch = some b →
    c.request.method = .INVITE
  stored : ∀ (i : Nat) (c : Entry), s.heap[i]? = some c → c.request.viaBranch = some b →
    s.serverTxs.lookup b = some i ∨ s.expired i c.request.isReliableTransport = true
  pending : ∀ p ∈ s.deletes, p.1 = b → ∃ c, s.heap[p.2]? = some c ∧
    c.request.viaBranch = some b ∧ s.expired p.2 c.request.isReliableTransport = true

/-- At most one transaction has the branch `b`. -/
def OneEntry (b : Bytes) (s : Manager) : Prop :=
  ∀ (i j : Nat) (c d : Entry), s.heap[i]? = some c → s.heap[j]? = some d →
    c.request.viaBranch = some b → d.request.viaBranch = some b → i = j

omit [UnicodeLower] in
theorem getElem?_setTx (s : Manager) (i j : Nat) (tx : ServerTx) (c' : Entry)
    (h : (s.setTx j tx).heap[i]? = some c') :
    ∃ c, s.heap[i]? = some c ∧ c'.request = c.request ∧
      (i = j ∧ c'.tx = tx ∨ i ≠ j ∧ c'.tx = c.tx) := by
  simp only [Manager.setTx, getElem?_modify] at h
  rcases hc : s.heap[i]? with _ | c
  · simp only [hc, Option.map_eq_map, map_none, reduceCtorEq] at h
  · simp only [hc, Option.map_eq_map, map_some, some.injEq] at h
    refine ⟨c, rfl, ?_⟩
    by_cases hij : j = i
    · rw [if_pos hij] at h
      rw [← h]
      exact ⟨rfl, .inl ⟨hij.symm, rfl⟩⟩
    · rw [if_neg hij] at h
      rw [← h]
      exact ⟨rfl, .inr ⟨fun hx => hij hx.symm, rfl⟩⟩

omit [UnicodeLower] in
theorem ServerTx.invite_of_ident {tx : InviteTransaction} {tx' : ServerTx}
    (h : tx'.ident = (ServerTx.invite tx).ident) : ∃ tx₀, tx' = .invite tx₀ := by
  cases tx' with
  | invite tx₀ => exact ⟨tx₀, rfl⟩
  | nonInvite => cases congrArg Prod.fst h

namespace KeepInv

variable {b : Bytes} {s s' : Manager}

/-- Nothing but the log and the time changes. -/
theorem later (h : KeepInv b s) (hl : Later s s') (hheap : s'.heap = s.heap)
    (htable : s'.serverTxs = s.serverTxs) (hdel : s'.deletes = s.deletes) : KeepInv b s' where
  ident := hheap ▸ h.ident
  timed := by
    intro i c tx hi htx
    rw [hheap] at hi
    exact (h.timed i c tx hi htx).mono hl.log.subset hl.now
  invites := hheap ▸ h.invites
  stored := by
    intro i c hi hb
    rw [hheap] at hi
    rw [htable]
    rcases h.stored i c hi hb with hlook | hexp
    · exact .inl hlook
    · exact .inr (expired_later i _ hl hexp)
  pending := by
    intro p hp hb
    rw [hdel] at hp
    rcases h.pending p hp hb with ⟨c, hc, hbr, hexp⟩
    exact ⟨c, hheap ▸ hc, hbr, expired_later p.2 _ hl hexp⟩

/-- A transaction for an INVITE is of the INVITE kind. -/
theorem invite (h : KeepInv b s) (j : Nat) (c : Entry) (hj : s.heap[j]? = some c)
    (hm : c.request.method = .INVITE) :
    ∃ tx, c.tx = .invite tx ∧ tx.reliable = c.request.isReliableTransport := by
  rcases h.ident j c hj with ⟨b', _, hid⟩
  rcases htx : c.tx with tx | tx
  · refine ⟨tx, rfl, ?_⟩
    rw [htx, ServerTx.ident, InviteTransaction.ident, Prod.mk.injEq, Prod.mk.injEq] at hid
    exact hid.2.2
  · rw [htx, ServerTx.ident, Prod.mk.injEq] at hid
    rw [decide_eq_true hm] at hid
    injection hid.1

/-- A locked section of transaction `j`. If it deletes the table entry, now or
    later, the transaction has expired. -/
theorem update (h : KeepInv b s) (hone : OneEntry b s) (j : Nat) (c : Entry) (tx' : ServerTx)
    (d e : Bool) (hj : s.heap[j]? = some c) (hid : tx'.ident = c.tx.ident) (hl : Later s s')
    (hheap : s'.heap = (s.setTx j tx').heap)
    (htable : s'.serverTxs = if d then s.serverTxs.erase tx'.branch else s.serverTxs)
    (hdel : s'.deletes = if e then s.deletes ++ [(tx'.branch, j)] else s.deletes)
    (hinv : ∀ tx tx₀, c.tx = .invite tx₀ → tx' = .invite tx →
      Timed s'.log s'.now j tx.timers ∧ ((d || e) = true → s'.expired j tx₀.reliable = true)) :
    KeepInv b s' := by
  -- The branch of the transaction is that of its request.
  have hbranch : c.request.viaBranch = some tx'.branch := by
    rcases h.ident j c hj with ⟨b', hb', hident⟩
    rw [hb', ServerTx.branch_eq_ident, hid, hident]
  have hexp : (d || e) = true → c.request.viaBranch = some b →
      s'.expired j c.request.isReliableTransport = true := by
    intro hde hb
    rcases h.invite j c hj (h.invites j c hj hb) with ⟨tx₀, htx₀, hrel⟩
    rcases ServerTx.invite_of_ident (hid.trans (congrArg _ htx₀)) with ⟨tx, htx⟩
    exact hrel ▸ (hinv tx tx₀ htx₀ htx).2 hde
  have hcell : ∀ (i : Nat) (c' : Entry), s'.heap[i]? = some c' → ∃ d, s.heap[i]? = some d ∧
      c'.request = d.request ∧ (i = j ∧ c'.tx = tx' ∨ i ≠ j ∧ c'.tx = d.tx) := by
    intro i c' hi
    rw [hheap] at hi
    exact getElem?_setTx s i j tx' c' hi
  have hforth : ∀ (i : Nat) (d : Entry), s.heap[i]? = some d →
      ∃ c', s'.heap[i]? = some c' ∧ c'.request = d.request := by
    intro i d hi
    have hreq : s'.requests = s.requests := by
      rw [← s.requests_setTx j tx']
      exact congrArg (List.map Entry.request) hheap
    have hr : s'.requests[i]? = some d.request := by
      rw [hreq, s.requests_eq_some]
      exact ⟨d, hi, rfl⟩
    exact (s'.requests_eq_some i d.request).mp hr
  refine ⟨?_, ?_, ?_, ?_, ?_⟩
  · intro i c' hi
    rcases hcell i c' hi with ⟨d, hd, hreq, ⟨hij, htx⟩ | ⟨_, htx⟩⟩
    · rw [hij, hj, some.injEq] at hd
      rw [hreq, htx, hid, ← hd]
      exact h.ident j c hj
    · rw [hreq, htx]
      exact h.ident i d hd
  · intro i c' tx hi hinvite
    rcases hcell i c' hi with ⟨d, hd, _, ⟨hij, htx⟩ | ⟨_, htx⟩⟩
    · have htx' : tx' = .invite tx := htx.symm.trans hinvite
      rcases ServerTx.invite_of_ident (hid.symm.trans (congrArg _ htx')) with ⟨tx₀, htx₀⟩
      rw [hij]
      exact (hinv tx tx₀ htx₀ htx').1
    · exact (h.timed i d tx hd (htx.symm.trans hinvite)).mono hl.log.subset hl.now
  · intro i c' hi hb
    rcases hcell i c' hi with ⟨d, hd, hreq, _⟩
    rw [hreq] at hb ⊢
    exact h.invites i d hd hb
  · intro i c' hi hb
    rcases hcell i c' hi with ⟨c₀, hc₀, hreq, _⟩
    rw [hreq] at hb ⊢
    rcases h.stored i c₀ hc₀ hb with hlook | hexpired
    · rw [htable]
      cases d with
      | false => exact .inl hlook
      | true =>
        by_cases hbb : tx'.branch = b
        · -- The entry that goes is the one of this branch, so it is transaction j.
          right
          have hij := hone i j c₀ c hc₀ hj hb (hbb ▸ hbranch)
          rw [hij, hj, some.injEq] at hc₀
          rw [hij, ← hc₀]
          exact hexp rfl (hbb ▸ hbranch)
        · left
          rw [if_pos rfl, AList.lookup_erase_ne (fun hx => hbb hx.symm)]
          exact hlook
    · exact .inr (expired_later i _ hl hexpired)
  · intro p hp hb
    have hmem : p ∈ s.deletes ∨ e = true ∧ p = (tx'.branch, j) := by
      rw [hdel] at hp
      split at hp
      · exact (mem_append.mp hp).imp_right (fun hp => ⟨‹_›, mem_singleton.mp hp⟩)
      · exact .inl hp
    rcases hmem with hp | ⟨he, hp⟩
    · rcases h.pending p hp hb with ⟨d, hd, hbr, hexpired⟩
      rcases hforth p.2 d hd with ⟨c', hc', hreq⟩
      exact ⟨c', hc', hreq ▸ hbr, hreq ▸ expired_later p.2 _ hl hexpired⟩
    · rw [hp] at hb ⊢
      rcases hforth j c hj with ⟨c', hc', hreq⟩
      have hbr : c.request.viaBranch = some b := hb ▸ hbranch
      exact ⟨c', hc', hreq ▸ hbr, hreq ▸ hexp (by rw [he, Bool.or_true]) hbr⟩

/-- A timer callback deletes the entry of its branch. -/
theorem delete (h : KeepInv b s) (hone : OneEntry b s) (k : Nat) (p : Bytes × Nat)
    (hp : s.deletes[k]? = some p) :
    KeepInv b { s.deleteTx p.1 with deletes := s.deletes.eraseIdx k } :=
  { h with
    stored := by
      intro i c hi hb
      rcases h.stored i c hi hb with hlook | hexp
      · by_cases hpb : p.1 = b
        · rcases h.pending p (mem_of_getElem? hp) hpb with ⟨d, hd, hbr, hexp⟩
          right
          have hij := hone i p.2 c d hi hd hb hbr
          rw [hij] at hi ⊢
          change s.heap[p.2]? = some c at hi
          rw [hd] at hi
          cases hi
          exact hexp
        · left
          change (s.serverTxs.erase p.1).lookup b = some i
          rw [AList.lookup_erase_ne (fun hx => hpb hx.symm)]
          exact hlook
      · exact .inr hexp
    pending := fun q hq => h.pending q (mem_of_mem_eraseIdx hq) }

/-- A new transaction. If it has the branch `b` it is the only one. -/
theorem insert (h : KeepInv b s) (w : Transport) (ev : MessageEvent) (hasHandler : Bool)
    (branch : Bytes) (hb : ev.msg.viaBranch = some branch)
    (hnew : ev.msg.viaBranch = some b → ev.msg.method = .INVITE ∧
      ∀ (i : Nat) (c : Entry), s.heap[i]? = some c → c.request.viaBranch ≠ some b) :
    KeepInv b { s.setWorker w (.inserted ev s.heap.length hasHandler) with
      heap := s.heap ++ [⟨ev.msg, ServerTx.create branch ev w⟩]
      serverTxs := s.serverTxs.insert branch s.heap.length } := by
  refine ⟨?_, ?_, ?_, ?_, ?_⟩
  · intro i c hi
    rcases (getElem?_append_singleton _ _ _ _).mp hi with hi | ⟨_, rfl⟩
    · exact h.ident i c hi
    · exact ⟨branch, hb, ServerTx.create_ident branch ev w⟩
  · intro i c tx hi htx
    rcases (getElem?_append_singleton _ _ _ _).mp hi with hi | ⟨_, rfl⟩
    · exact h.timed i c tx hi htx
    · -- A new transaction has no timers yet.
      simp only [ServerTx.create] at htx
      split at htx
      · cases htx
        exact fun t ht => by cases ht
      · cases htx
  · intro i c hi hbr
    rcases (getElem?_append_singleton _ _ _ _).mp hi with hi | ⟨_, rfl⟩
    · exact h.invites i c hi hbr
    · exact (hnew hbr).1
  · intro i c hi hbr
    change (s.serverTxs.insert branch s.heap.length).lookup b = some i ∨ _
    rcases (getElem?_append_singleton _ _ _ _).mp hi with hi | ⟨hlen, rfl⟩
    · have hne : b ≠ branch := by
        intro hx
        exact (hnew (hx ▸ hb)).2 i c hi hbr
      rw [AList.lookup_insert_ne hne]
      rcases h.stored i c hi hbr with hlook | hexp
      · exact .inl hlook
      · exact .inr hexp
    · left
      rw [hb, some.injEq] at hbr
      rw [hbr, AList.lookup_insert, hlen]
  · intro p hp hpb
    rcases h.pending p hp hpb with ⟨c, hc, hbr, hexp⟩
    exact ⟨c, getElem?_append_of_some _ hc, hbr, hexp⟩

end KeepInv

/-! ### Locked sections of a transaction -/

section Sections

variable {b : Bytes} {s : Manager}

omit [UnicodeLower] in
theorem mem_observe_sent (s : Manager) (i : Nat) (ms : List SIPMessage) (m : SIPMessage)
    (hm : m ∈ ms) : (s.now, .sent i m) ∈ (s.observe (ms.map (ManagerObs.sent i))).log := by
  refine mem_append_right _ (List.mem_map.mpr ⟨.sent i m, ?_, rfl⟩)
  exact List.mem_map.mpr ⟨m, hm, rfl⟩

theorem KeepInv.respond (h : KeepInv b s) (hone : OneEntry b s) (j : Nat) (c : Entry)
    (hj : s.heap[j]? = some c) (res : SIPMessage) :
    KeepInv b (s.commit j (c.tx.respond s.now res)) := by
  have hl := later_commit s j (c.tx.respond s.now res)
  rw [commit_eq] at hl ⊢
  refine h.update hone j c _ _ false hj (c.tx.respond_ident s.now res) hl rfl rfl rfl ?_
  intro tx tx₀ htx₀ htx
  rw [htx₀] at htx hl ⊢
  cases htx
  refine ⟨respond_timed (h.timed j c tx₀ hj htx₀) res hl.log.subset (mem_observe_sent s j _),
    fun hdel => ?_⟩
  -- Only a 2xx response deletes, and the log shows that it was sent.
  rcases respond_delete s.now tx₀ res ((Bool.or_false _).symm.trans hdel) with ⟨hsent, h2, h3⟩
  refine List.any_eq_true.mpr ⟨(s.now, .sent j res), mem_observe_sent s j _ res ?_, ?_⟩
  · rw [ServerTx.respond, hsent]
    exact mem_singleton.mpr rfl
  · simp only [expires, decide_true, Bool.true_and, Bool.or_eq_true, decide_eq_true_eq]
    exact .inl ⟨h2, h3⟩

theorem KeepInv.ack (h : KeepInv b s) (hone : OneEntry b s) (j : Nat) (c : Entry)
    (hj : s.heap[j]? = some c) :
    KeepInv b ((s.commit j (c.tx.ack s.now)).observe
      (if c.tx.acknowledges then [.acknowledged j] else [])) := by
  have hl := (later_commit s j (c.tx.ack s.now)).trans
    (later_observe _ (if c.tx.acknowledges then [.acknowledged j] else []))
  rw [commit_eq] at hl ⊢
  refine h.update hone j c _ _ false hj (c.tx.ack_ident s.now) hl rfl rfl rfl ?_
  intro tx tx₀ htx₀ htx
  rw [htx₀] at htx hl ⊢
  cases htx
  -- The log shows an ACK that found the transaction completed.
  have hlog : tx₀.state = .Completed → (s.now, ManagerObs.acknowledged j) ∈
      (if (ServerTx.invite tx₀).acknowledges then [ManagerObs.acknowledged j] else []).map
        (fun o => (s.now, o)) := by
    intro hst
    rw [ServerTx.acknowledges, decide_eq_true hst, if_pos rfl]
    exact mem_singleton.mpr rfl
  refine ⟨ackReceived_timed (h.timed j c tx₀ hj htx₀) hl.log.subset
    (fun hst => mem_append_right _ (hlog hst)), fun hdel => ?_⟩
  rcases ackReceived_delete s.now tx₀ ((Bool.or_false _).symm.trans hdel) with ⟨hst, hr⟩
  refine List.any_eq_true.mpr ⟨(s.now, .acknowledged j), mem_append_right _ (hlog hst), ?_⟩
  simp [expires, hr]

theorem KeepInv.cancel (h : KeepInv b s) (hone : OneEntry b s) (j : Nat) (c : Entry)
    (hj : s.heap[j]? = some c) (w : Transport) (ev : MessageEvent) (hasHandler : Bool) :
    KeepInv b (s.cancel w ev j hasHandler c.tx) := by
  have hl := later_cancel s w ev j hasHandler c.tx
  rcases hctx : c.tx with tx₀ | tx₀
  · rw [hctx] at hl
    refine h.update hone j c (.invite (tx₀.cancelRequest s.now ev hasHandler).tx) false false hj
      ?_ hl rfl rfl rfl ?_
    · rw [hctx, ServerTx.ident, ServerTx.ident, InviteTransaction.cancelRequest_ident]
    · intro tx _ _ htx
      cases htx
      refine ⟨cancelRequest_timed (h.timed j c tx₀ hj hctx) ev hasHandler hl.log.subset ?_,
        fun hdel => Bool.noConfusion hdel⟩
      intro m hm
      refine mem_append_right _ (List.mem_map.mpr ⟨.sent j m, ?_, rfl⟩)
      exact mem_append_right _ (List.mem_map.mpr ⟨m, hm, rfl⟩)
  · rw [hctx] at hl
    exact h.later hl rfl rfl rfl

theorem KeepInv.expire (h : KeepInv b s) (hone : OneEntry b s) (i j : Nat) (c : Entry)
    (hi : s.heap[i]? = some c) (tx' : ServerTx) (htx' : c.tx.expire s.now j = some tx') :
    KeepInv b (s.setTx i tx') := by
  refine h.update hone i c tx' false false hi (c.tx.expire_ident s.now tx' j htx')
    (later_setTx s i tx') rfl rfl rfl ?_
  intro tx tx₀ htx₀ htx
  rw [htx₀, ServerTx.expire] at htx'
  split at htx'
  · rename_i hdue
    rcases map_eq_some_iff.mp htx' with ⟨ts, hts, rfl⟩
    cases htx
    exact ⟨expire_timed (h.timed i c tx₀ hi htx₀) j hts hdue, fun hdel => Bool.noConfusion hdel⟩
  · contradiction

theorem KeepInv.callback (h : KeepInv b s) (hone : OneEntry b s) (i j : Nat) (c : Entry)
    (hi : s.heap[i]? = some c) (o : Outcome ServerTx) (ho : c.tx.callback s.now j = some o) :
    KeepInv b (s.commitLater i o) := by
  have hl := later_commitLater s i o
  rw [commitLater_eq] at hl ⊢
  refine h.update hone i c o.tx false o.delete hi (c.tx.callback_ident s.now j o ho) hl
    rfl rfl rfl ?_
  intro tx tx₀ htx₀ htx
  rw [htx₀] at ho
  rcases map_eq_some_iff.mp ho with ⟨⟨k, ts⟩, htake, rfl⟩
  cases htx
  have htimed := h.timed i c tx₀ hi htx₀
  have hq : Timed s.log s.now i { tx₀ with timers := ts }.timers :=
    htimed.quieter (Timers.quieter_take tx₀.timers ts j k htake)
  refine ⟨timerCallback_timed hq k hl.log.subset, fun hdel => ?_⟩
  -- The timer has fired, so it was due and the transaction has expired.
  rcases (Timers.take_eq_some_iff tx₀.timers ts j k).mp htake with ⟨t, ht, hf, hk, _⟩
  have hkind := timerCallback_delete s.now { tx₀ with timers := ts } k hdel
  exact expired_later i _ hl
    (expired_of_fired s i _ t (htimed t (mem_of_getElem? ht)) hf (hk ▸ hkind))

end Sections

/-! ### Every event -/

/-- Whether an event is the arrival of a request with the branch `b` that is not
    a CANCEL. -/
def IsArrival (b : Bytes) : ManagerEvent → Prop
  | .request _ ev _ => ev.msg.viaBranch = some b ∧ ev.msg.method ≠ .CANCEL
  | _ => False

/-- The stage the manager is at. -/
def Manager.AtStage (inv : SIPMessage) (b : Bytes) (s : Manager) (st : Stage) : Prop :=
  Sip.AtStage inv b s.requests s.worker (invocations inv s.log) st

/-- The invariant after the events `es`: the first copy is at some stage, which
    is not the one before its arrival once a copy has arrived. -/
structure OnceInv (inv : SIPMessage) (b : Bytes) (es : List ManagerEvent) (s : Manager) :
    Prop where
  table : TableInv s
  keep : KeepInv b s
  stage : ∃ st, s.AtStage inv b st ∧ ((∃ e ∈ es, IsArrival b e) → st ≠ .before)

section Events

variable {inv : SIPMessage} {b : Bytes} {s t : Manager} {st : Stage}

theorem Manager.AtStage.oneEntry (h : s.AtStage inv b st) : OneEntry b s := by
  intro i j c d hi hj hc hd
  exact Sip.AtStage.unique h ((s.requests_eq_some i c.request).mpr ⟨c, hi, rfl⟩)
    ((s.requests_eq_some j d.request).mpr ⟨d, hj, rfl⟩) hc hd

/-- Entries that are not calls of the handler with a copy do not count. -/
theorem invocations_append (inv : SIPMessage) (log more : Log)
    (h : ∀ time msg i, (time, ManagerObs.invoked msg i) ∈ more → ¬ IsCopy inv msg) :
    invocations inv (log ++ more) = invocations inv log := by
  have hzero : more.countP (callsWith inv) = 0 := by
    rw [countP_eq_zero]
    rintro ⟨time, o⟩ ho
    cases o with
    | invoked msg i => simpa only [callsWith, decide_eq_true_eq] using h time msg i ho
    | sent | replied | acknowledged | absorbed => exact Bool.false_ne_true
  rw [invocations, countP_append, hzero, Nat.add_zero, invocations]

/-- Whether something the manager did is a call of the handler. -/
def ManagerObs.isInvoked : ManagerObs → Bool
  | .invoked .. => true
  | _ => false

theorem invocations_observe (inv : SIPMessage) (s : Manager) (os : List ManagerObs)
    (h : os.any ManagerObs.isInvoked = false) :
    invocations inv (s.observe os).log = invocations inv s.log := by
  refine invocations_append inv s.log _ (fun time msg i hmem => ?_)
  rcases List.mem_map.mp hmem with ⟨o, ho, heq⟩
  rw [Prod.mk.injEq] at heq
  have hno := List.any_eq_false.mp h o ho
  rw [heq.2] at hno
  exact absurd rfl hno

/-- Recording anything but a handler call leaves the stage. -/
theorem Manager.AtStage.observe (h : s.AtStage inv b st) (os : List ManagerObs)
    (hos : os.any ManagerObs.isInvoked = false) : (s.observe os).AtStage inv b st := by
  unfold Manager.AtStage
  rw [invocations_observe inv s os hos]
  exact h

theorem Manager.AtStage.setWorker (h : s.AtStage inv b st) (hinv : inv.viaBranch = some b)
    (w : Transport) (x : Worker) (hw : ¬ Carries b (s.worker w)) (hx : ¬ Carries b x) :
    (s.setWorker w x).AtStage inv b st :=
  Sip.AtStage.move h hinv w x hw hx

theorem Manager.AtStage.setTx (h : s.AtStage inv b st) (i : Nat) (tx : ServerTx) :
    (s.setTx i tx).AtStage inv b st := by
  unfold Manager.AtStage
  rw [Manager.requests_setTx]
  exact h

theorem Manager.AtStage.sent (h : s.AtStage inv b st) (i : Nat) (tx : ServerTx)
    (ms : List SIPMessage) :
    ((s.setTx i tx).observe (ms.map (ManagerObs.sent i))).AtStage inv b st :=
  (h.setTx i tx).observe _ (any_map_eq_false (fun _ => rfl) ms)

/-- A goroutine that carries a request with the branch is the one the stage
    names. -/
theorem Manager.AtStage.carrier (h : s.AtStage inv b st) (w : Transport)
    (hcarry : Carries b (s.worker w)) :
    (st = .looking w ∧ ∃ ev, s.worker w = .missed ev true ∧ IsCopy inv ev.msg) ∨
      ∃ i, st = .stored w i ∧ ∃ ev, s.worker w = .inserted ev i true ∧ IsCopy inv ev.msg := by
  cases st with
  | before | handed i => exact absurd hcarry (h.2.1 w)
  | looking v =>
    have hvw : w = v := Classical.byContradiction fun hne => h.2.2.1 w hne hcarry
    exact .inl ⟨by rw [hvw], hvw ▸ h.2.1⟩
  | stored v i =>
    have hvw : w = v := Classical.byContradiction fun hne => h.2.2.1 w hne hcarry
    exact .inr ⟨i, by rw [hvw], hvw ▸ h.2.1⟩

theorem Manager.AtStage.looking (h : s.AtStage inv b st) (w : Transport) (ev : MessageEvent)
    (hasHandler : Bool) (hw : s.worker w = .missed ev hasHandler)
    (hb : ev.msg.viaBranch = some b) : st = .looking w ∧ hasHandler = true ∧ IsCopy inv ev.msg := by
  rcases h.carrier w (by rw [hw]; exact hb) with ⟨hst, _, hv, hcopy⟩ | ⟨_, _, _, hv, _⟩
  · cases hw.symm.trans hv
    exact ⟨hst, rfl, hcopy⟩
  · cases hw.symm.trans hv

theorem Manager.AtStage.inserted (h : s.AtStage inv b st) (w : Transport) (ev : MessageEvent)
    (i : Nat) (hasHandler : Bool) (hw : s.worker w = .inserted ev i hasHandler)
    (hb : ev.msg.viaBranch = some b) :
    st = .stored w i ∧ hasHandler = true ∧ IsCopy inv ev.msg := by
  rcases h.carrier w (by rw [hw]; exact hb) with ⟨_, _, hv, _⟩ | ⟨_, hst, _, hv, hcopy⟩
  · cases hw.symm.trans hv
  · cases hw.symm.trans hv
    exact ⟨hst, rfl, hcopy⟩

theorem not_carries_of_eq {w : Transport} {x : Worker} (hw : s.worker w = x)
    (hx : ¬ Carries b x) : ¬ Carries b (s.worker w) := by
  rw [hw]
  exact hx

/-- Calling the handler with a request that is no copy leaves the stage. -/
theorem atStage_call (hinv : inv.viaBranch = some b) (h : s.AtStage inv b st)
    (w : Transport) (msg : SIPMessage) (i : Nat) (hfree : ¬ Carries b (s.worker w))
    (hcopy : ¬ IsCopy inv msg) :
    ((s.observe [.invoked msg i]).setWorker w .handling).AtStage inv b st := by
  refine Manager.AtStage.setWorker ?_ hinv w .handling hfree id
  have hcount : invocations inv (s.observe [.invoked msg i]).log = invocations inv s.log := by
    refine invocations_append inv s.log _ (fun time msg' j hmem => ?_)
    rw [map_cons, map_nil, mem_singleton, Prod.mk.injEq, ManagerObs.invoked.injEq] at hmem
    rw [hmem.2.1]
    exact hcopy
  unfold Manager.AtStage
  rw [hcount]
  exact h

theorem atStage_cancel (hinv : inv.viaBranch = some b) (h : s.AtStage inv b st) (w : Transport)
    (ev : MessageEvent) (i : Nat) (hasHandler : Bool) (tx : ServerTx)
    (hfree : ¬ Carries b (s.worker w)) : (s.cancel w ev i hasHandler tx).AtStage inv b st := by
  cases tx with
  | invite tx =>
    refine Manager.AtStage.setWorker ((h.setTx i _).observe _ ?_) hinv w _ hfree ?_
    · rw [any_append, any_map_eq_false (fun _ => rfl), any_map_eq_false (fun _ => rfl),
        Bool.or_self]
    · split
      · exact id
      · exact id
  | nonInvite tx => exact (h.observe [.replied _] rfl).setWorker hinv w .idle hfree id

variable {es : List ManagerEvent} {e : ManagerEvent}

/-- An event other than an arrival that keeps the stage keeps the invariant. -/
theorem OnceInv.keepStage (h : OnceInv inv b es s) (he : ¬ IsArrival b e) (htable : TableInv t)
    (hkeep : KeepInv b t) (hstage : ∀ st, s.AtStage inv b st → t.AtStage inv b st) :
    OnceInv inv b (es ++ [e]) t := by
  rcases h.stage with ⟨st, hst, hne⟩
  refine ⟨htable, hkeep, st, hstage st hst, fun harr => hne ?_⟩
  rcases harr with ⟨x, hx, harr⟩
  rcases mem_append.mp hx with hx | hx
  · exact ⟨x, hx, harr⟩
  · rw [mem_singleton.mp hx] at harr
    exact absurd harr he

theorem OnceInv.oneEntry (h : OnceInv inv b es s) : OneEntry b s := by
  rcases h.stage with ⟨st, hst, _⟩
  exact hst.oneEntry

/-- A stored transaction with the branch rules out the stage before. -/
theorem Manager.AtStage.ne_before (h : s.AtStage inv b st) (i : Nat) (r : SIPMessage)
    (hr : s.requests[i]? = some r) (hb : r.viaBranch = some b) : st ≠ .before := by
  rintro rfl
  cases (h.1 i).mp ⟨r, hr, hb⟩

/-- A copy that finds no transaction is the first one. -/
theorem Manager.AtStage.eq_before (h : s.AtStage inv b st) (hinv : inv.viaBranch = some b)
    (hkeep : KeepInv b s) (hnone : s.serverTxs.lookup b = none)
    (hudp : ¬ Looking b (s.worker .udp)) (htcp : ¬ Looking b (s.worker .tcp)) (hopen : s.Open b) :
    st = .before := by
  -- A transaction with the branch would be in the table or have expired.
  have hno : ∀ (i : Nat) (r : SIPMessage), s.requests[i]? = some r → r.viaBranch ≠ some b := by
    intro i r hr hb
    rcases (s.requests_eq_some i r).mp hr with ⟨c, hc, rfl⟩
    rcases hkeep.stored i c hc hb with hlook | hexp
    · rw [hnone] at hlook
      contradiction
    · have hlt : i < s.heap.length := (List.getElem?_eq_some_iff.mp hc).1
      rw [hopen i hlt c hc hb] at hexp
      contradiction
  cases st with
  | before => rfl
  | looking v =>
    rcases h with ⟨_, ⟨ev, hv, hcopy⟩, _⟩
    have hlook : Looking b (s.worker v) := by
      rw [hv]
      exact hcopy.1.trans hinv
    cases v with
    | udp => exact absurd hlook hudp
    | tcp => exact absurd hlook htcp
  | stored v i | handed i =>
    rcases (h.1 i).mpr rfl with ⟨r, hr, hb⟩
    exact absurd hb (hno i r hr)

/-- The lookup of a request that finds no transaction. -/
theorem onceInv_missed (hinv : inv.viaBranch = some b) (h : OnceInv inv b es s) (w : Transport)
    (ev : MessageEvent) (hasHandler : Bool) (branch : Bytes)
    (hok : CopyOk inv b s (.request w ev hasHandler)) (hw : s.worker w = .idle)
    (hbr : ev.msg.viaBranch = some branch) (hnone : s.serverTxs.lookup branch = none)
    (hm : ev.msg.method ≠ .CANCEL) (htable : TableInv (s.setWorker w (.missed ev hasHandler))) :
    OnceInv inv b (es ++ [.request w ev hasHandler]) (s.setWorker w (.missed ev hasHandler)) := by
  have hkeep := h.keep.later (later_setWorker s w (.missed ev hasHandler)) rfl rfl rfl
  rcases h.stage with ⟨st, hst, hne⟩
  by_cases hbb : branch = b
  · rcases hok (hbb ▸ hbr) hm with ⟨hcopy, hh, hudp, htcp, hopen⟩
    have hbefore := hst.eq_before hinv h.keep (hbb ▸ hnone) hudp htcp hopen
    rw [hbefore] at hst
    refine ⟨htable, hkeep, .looking w, ?_, fun _ => ?_⟩
    · rw [hh]
      exact Sip.AtStage.look hst w ev hcopy
    · simp
  · have hother : ev.msg.viaBranch ≠ some b := by
      rw [hbr, ne_eq, some.injEq]
      exact hbb
    exact h.keepStage (fun harr => hother harr.1) htable hkeep
      (fun _ hx => hx.setWorker hinv w _ (not_carries_of_eq hw id) hother)

/-- Storing the transaction of a request that found none. -/
theorem onceInv_insert (hinv : inv.viaBranch = some b) (hmethod : inv.method = .INVITE)
    (h : OnceInv inv b es s) (w : Transport) (ev : MessageEvent) (hasHandler : Bool)
    (branch : Bytes) (hw : s.worker w = .missed ev hasHandler)
    (hb : ev.msg.viaBranch = some branch) :
    OnceInv inv b (es ++ [.proceed w])
      { s.setWorker w (.inserted ev s.heap.length hasHandler) with
        heap := s.heap ++ [⟨ev.msg, ServerTx.create branch ev w⟩]
        serverTxs := s.serverTxs.insert branch s.heap.length } := by
  have htable := h.table.insert w ev hasHandler branch hb
  have hlen : s.heap.length = s.requests.length := by
    rw [Manager.requests, length_map]
  rcases h.stage with ⟨st, hst, hne⟩
  by_cases hbr : ev.msg.viaBranch = some b
  · rcases hst.looking w ev hasHandler hw hbr with ⟨rfl, rfl, hcopy⟩
    have hkeep := h.keep.insert w ev true branch hb (fun _ => ⟨hcopy.2.2.trans hmethod, by
      intro i c hc hcb
      have hr : s.requests[i]? = some c.request := (s.requests_eq_some i _).mpr ⟨c, hc, rfl⟩
      cases (hst.1 i).mp ⟨_, hr, hcb⟩⟩)
    refine ⟨htable, hkeep, .stored w s.heap.length, ?_, fun _ => ?_⟩
    · have hstore := Sip.AtStage.store hst ev hw hbr
      rw [← hlen] at hstore
      unfold Manager.AtStage Manager.requests
      rw [map_append]
      exact hstore
    · simp
  · have hkeep := h.keep.insert w ev hasHandler branch hb (fun hx => absurd hx hbr)
    refine h.keepStage id htable hkeep (fun st' hx => ?_)
    have hmove := Sip.AtStage.append (Sip.AtStage.move hx hinv w
      (.inserted ev s.heap.length hasHandler) (not_carries_of_eq hw hbr) hbr) ev.msg hbr
    unfold Manager.AtStage Manager.requests
    rw [map_append]
    exact hmove

/-- Calling the handler with the request of a new transaction. -/
theorem onceInv_call (hinv : inv.viaBranch = some b) (h : OnceInv inv b es s) (w : Transport)
    (ev : MessageEvent) (i : Nat) (hw : s.worker w = .inserted ev i true)
    (htable : TableInv ((s.observe [.invoked ev.msg i]).setWorker w .handling))
    (hkeep : KeepInv b ((s.observe [.invoked ev.msg i]).setWorker w .handling)) :
    OnceInv inv b (es ++ [.proceed w])
      ((s.observe [.invoked ev.msg i]).setWorker w .handling) := by
  rcases h.stage with ⟨st, hst, hne⟩
  by_cases hbr : ev.msg.viaBranch = some b
  · rcases hst.inserted w ev i true hw hbr with ⟨rfl, _, hcopy⟩
    refine ⟨htable, hkeep, .handed i, ?_, fun _ => ?_⟩
    · have hcount : invocations inv (s.log ++ [(s.now, ManagerObs.invoked ev.msg i)]) =
          invocations inv s.log + 1 := by
        rw [invocations, countP_append, countP_singleton]
        simp only [callsWith, hcopy, decide_true, if_true]
        rfl
      have hhand := Sip.AtStage.hand hst .handling id
      rw [← hcount] at hhand
      exact hhand
    · simp
  · exact h.keepStage id htable hkeep (fun st' hx => atStage_call hinv hx w ev.msg i
      (not_carries_of_eq hw hbr) (fun hcopy => hbr (hcopy.1.trans hinv)))

/-- Every event that meets the condition keeps the invariant. -/
theorem onceInv_step (hinv : inv.viaBranch = some b) (hb : b ≠ []) (hmethod : inv.method = .INVITE)
    (h : OnceInv inv b es s) (hok : CopyOk inv b s e) (ht : managerStep s e = some t) :
    OnceInv inv b (es ++ [e]) t := by
  have htable := tableInv_step s t e h.table ht
  have hl := later_step s t e ht
  have hone := h.oneEntry
  cases managerStep_cases ht with
  | tick | passed => exact h.keepStage id htable (h.keep.later hl rfl rfl rfl) (fun _ hx => hx)
  | ignored hnil =>
    refine h.keepStage (fun harr => hb ?_) h.table h.keep (fun _ hx => hx)
    exact some.inj (harr.1.symm.trans hnil)
  | @found w ev _ branch i hw hbr hlook =>
    rcases h.stage with ⟨st, hst, hne⟩
    refine ⟨htable, h.keep.later hl rfl rfl rfl, st,
      hst.setWorker hinv w _ (not_carries_of_eq hw id) id, ?_⟩
    rintro ⟨x, hx, harr⟩
    rcases mem_append.mp hx with hx | hx
    · exact hne ⟨x, hx, harr⟩
    · -- The copy itself: the table has a transaction with its branch.
      rw [mem_singleton.mp hx] at harr
      have hbb : branch = b := some.inj (hbr.symm.trans harr.1)
      rcases h.table.table branch i hlook with ⟨r, hr, hrb⟩
      exact hst.ne_before i r hr (hbb ▸ hrb)
  | refused hcancel =>
    exact h.keepStage (fun harr => harr.2 hcancel) htable (h.keep.later hl rfl rfl rfl)
      (fun _ hx => hx.observe [.replied _] rfl)
  | missed hw hbr hnone hm => exact onceInv_missed hinv h _ _ _ _ hok hw hbr hnone hm htable
  | acking hw =>
    exact h.keepStage id htable (h.keep.later hl rfl rfl rfl)
      (fun _ hx => hx.setWorker hinv _ _ (not_carries_of_eq hw id) id)
  | cancel hw hc =>
    exact h.keepStage id htable (h.keep.cancel hone _ _ hc _ _ _)
      (fun _ hx => atStage_cancel hinv hx _ _ _ _ _ (not_carries_of_eq hw id))
  | absorb hw =>
    refine h.keepStage id htable (h.keep.later hl rfl rfl rfl) (fun st hx => ?_)
    refine (hx.observe _ ?_).setWorker hinv _ .idle (not_carries_of_eq hw id) id
    rw [any_cons, any_map_eq_false (fun _ => rfl)]
    rfl
  | insert hw hbr => exact onceInv_insert hinv hmethod h _ _ _ _ hw hbr
  | @call w ev i hw =>
    have hkeep := h.keep.later hl rfl rfl rfl
    rcases hw with hw | hw
    · exact onceInv_call hinv h w ev i hw htable hkeep
    · have hworker := h.table.workers w
      rw [hw] at hworker
      refine h.keepStage id htable hkeep (fun st hx => ?_)
      -- The handler is called with the CANCEL, which is no copy of the INVITE.
      refine atStage_call hinv hx w ev.msg i (not_carries_of_eq hw id) (fun hcopy => ?_)
      have hm := hcopy.2.2.symm.trans hworker.1
      rw [hmethod] at hm
      cases hm
  | @rest w hw =>
    have hkeep := h.keep.later hl rfl rfl rfl
    rcases hw with ⟨ev, i, hw⟩ | hw
    · refine h.keepStage id htable hkeep (fun st hx => ?_)
      refine hx.setWorker hinv w .idle (not_carries_of_eq hw fun hbr => ?_) id
      cases (hx.inserted w ev i false hw hbr).2.1
    · exact h.keepStage id htable hkeep
        (fun st hx => hx.setWorker hinv w .idle (not_carries_of_eq hw id) id)
  | @confirm w i c hw hc =>
    refine h.keepStage id htable
      ((h.keep.ack hone i c hc).later (later_setWorker _ w .idle) rfl rfl rfl) (fun st hx => ?_)
    rw [commit_eq]
    refine Manager.AtStage.setWorker (Manager.AtStage.observe (hx.sent i _ _) _ ?_) hinv w .idle
      (not_carries_of_eq (s := s) hw id) id
    split <;> rfl
  | respond hc =>
    refine h.keepStage id htable (h.keep.respond hone _ _ hc _) (fun _ hx => ?_)
    rw [commit_eq]
    exact hx.sent _ _ _
  | expire hc htx =>
    exact h.keepStage id htable (h.keep.expire hone _ _ _ hc _ htx) (fun _ hx => hx.setTx _ _)
  | callback hc ho =>
    refine h.keepStage id htable (h.keep.callback hone _ _ _ hc _ ho) (fun _ hx => ?_)
    rw [commitLater_eq]
    exact hx.sent _ _ _
  | delete hp =>
    exact h.keepStage id htable (h.keep.delete hone _ _ hp) (fun _ hx => hx)

theorem onceInv_init : OnceInv inv b [] Manager.init where
  table := tableInv_init
  keep := by
    refine ⟨?_, ?_, ?_, ?_, ?_⟩
    all_goals
      intro i
      simp [Manager.init]
  stage := by
    refine ⟨.before, ⟨?_, fun v => id, rfl⟩, ?_⟩
    · intro i
      simp [Manager.requests, Manager.init]
    · rintro ⟨e, he, _⟩
      cases he

end Events

/-- For every run of the manager in which copies of one INVITE arrive as
    `CopyOk` says, on either goroutine and in any interleaving, the handler is
    called at most once for it, and exactly once as soon as a copy has arrived
    and no goroutine is on its way to the handler with one. -/
theorem handler_invoked_once (inv : SIPMessage) (b : Bytes) (es : List ManagerEvent) (s : Manager)
    (hinv : inv.viaBranch = some b) (hb : b ≠ []) (hmethod : inv.method = .INVITE)
    (hrun : Run managerStep (CopyOk inv b) Manager.init es s) :
    invocations inv s.log ≤ 1 ∧
      ((∃ e ∈ es, IsArrival b e) → (∀ w, ¬ Carries b (s.worker w)) →
        invocations inv s.log = 1) := by
  have honce : OnceInv inv b es s := hrun.invariant_events (OnceInv inv b) onceInv_init
    (fun _ _ _ _ h hok hstep => onceInv_step hinv hb hmethod h hok hstep)
  rcases honce.stage with ⟨st, hst, hne⟩
  cases st with
  | before =>
    refine ⟨hst.2.2 ▸ Nat.zero_le 1, fun harr => ?_⟩
    exact absurd rfl (hne harr)
  | looking w | stored w i =>
    rcases hst with ⟨_, ⟨ev, hw, hcopy⟩, _, hn⟩
    refine ⟨hn ▸ Nat.zero_le 1, fun _ hfree => ?_⟩
    exact absurd (by rw [hw]; exact hcopy.1.trans hinv) (hfree w)
  | handed i => exact ⟨hst.2.2.le, fun _ _ => hst.2.2⟩

end Once

/-- The first copy of an INVITE gets to its handler. -/
def firstCopy : List ManagerEvent :=
  [.request .udp (sampleRequest .INVITE "alice" "z9hG4bK1") true, .proceed .udp, .proceed .udp]

/-- The handler rings and then rejects the call. Copies arrive on both
    goroutines before and after the rejection, the last one when timer G has
    repeated it. -/
def rejectedCall : List ManagerEvent :=
  let inv := sampleRequest .INVITE "alice" "z9hG4bK1"
  firstCopy ++
    [.respond 0 (newResponse inv.msg 180 (ascii "Ringing")), .request .tcp inv true,
      .proceed .tcp, .respond 0 (newResponse inv.msg 486 (ascii "Busy Here")), .proceed .udp,
      .tick 500000000, .expire 0 1, .callback 0 1, .request .udp inv true, .proceed .udp]

open Samples

theorem handler_invoked_once_rejectedCall :
    ∃ s, Run managerStep
        (CopyOk (sampleRequest .INVITE "alice" "z9hG4bK1").msg (ascii "z9hG4bK1")) Manager.init
        rejectedCall s ∧
      s.log.length = 7 ∧ invocations (sampleRequest .INVITE "alice" "z9hG4bK1").msg s.log = 1 := by
  refine exists_run_imp (fun s => s.log.length = 7 ∧
    ¬ Carries (ascii "z9hG4bK1") (s.worker .udp) ∧
    ¬ Carries (ascii "z9hG4bK1") (s.worker .tcp)) (by decide +kernel) ?_
  rintro s hrun ⟨hlen, hudp, htcp⟩
  refine ⟨hlen, ?_⟩
  refine (handler_invoked_once _ (ascii "z9hG4bK1") rejectedCall s (by decide +kernel)
    (by decide +kernel) (by decide) hrun).2 ?_ ?_
  · exact ⟨_, mem_cons_self, by decide +kernel, by decide⟩
  · intro w
    cases w with
    | udp => exact hudp
    | tcp => exact htcp

/-- The handler answers the call, and a copy arrives at the same instant. -/
def answeredCallCopied : List ManagerEvent :=
  let inv := sampleRequest .INVITE "alice" "z9hG4bK1"
  firstCopy ++
    [.respond 0 (newResponse inv.msg 200 (ascii "OK")), .proceed .udp, .request .udp inv true,
      .proceed .udp, .proceed .udp]

/-- After a 2xx response a copy is a new INVITE to the manager, however soon it
    arrives, and the handler is called again. -/
theorem handler_invoked_twice :
    ∃ s, Run managerStep (fun _ _ => True) Manager.init answeredCallCopied s ∧
      invocations (sampleRequest .INVITE "alice" "z9hG4bK1").msg s.log = 2 ∧
      s.now < wait (64 * T1) :=
  exists_run_of_exec (by decide +kernel)

end Sip

end Trecs
