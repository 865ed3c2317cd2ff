import Trecs.Sip.Manager

/-!
# Matching Requests to Transactions

Which requests the transaction manager absorbs as retransmissions. The key of
its table is the branch of the topmost Via and nothing else: `HandleRequest` is
documented to match by branch, and RFC 3261 asks for the sent-by and the method
as well. So a request is absorbed only by a transaction with its branch, and one
whose branch no stored transaction has goes to its handler. Two requests with
one branch share a transaction even when they come from different clients or
have different methods.

The invariant says which request each position in the table, in the log and in
the hands of a dispatch goroutine belongs to. It depends on the transactions
only through the requests they were created for, which never change.

## Main definitions

* `Manager.requests`: The requests the transactions were created for.
* `TableInv`: The table and the goroutines name transactions by their branch.
* `ReachesHandler`: What becomes of a request that found no transaction.

## Theorems

* `tableInv_step`: Every event keeps the invariant.
* `handed_run`: A request that found no transaction gets to its handler.
* `requests_matched_by_branch`: The rule of the manager.
* `requests_matched_by_branch_alone`: The other parts of the Via do not count.
-/

namespace Trecs

open List Option

namespace Sip

open Proto

namespace Manager

/-- The requests the transactions were created for, in order. -/
def requests (s : Manager) : List SIPMessage := s.heap.map Entry.request

@[simp] theorem requests_setWorker (s : Manager) (w : Transport) (x : Worker) :
    (s.setWorker w x).requests = s.requests := rfl

@[simp] theorem requests_observe (s : Manager) (os : List ManagerObs) :
    (s.observe os).requests = s.requests := rfl

@[simp] theorem requests_setTx (s : Manager) (i : Nat) (tx : ServerTx) :
    (s.setTx i tx).requests = s.requests := by
  unfold requests setTx
  apply ext_getElem?
  intro j
  simp only [getElem?_map, getElem?_modify]
  rcases s.heap[j]? with _ | c
  · rfl
  · simp only [Option.map_eq_map, map_some, some.injEq]
    split <;> rfl

theorem requests_eq_some (s : Manager) (i : Nat) (r : SIPMessage) :
    s.requests[i]? = some r ↔ ∃ c, s.heap[i]? = some c ∧ c.request = r := by
  unfold requests
  rw [getElem?_map, map_eq_some_iff]

end Manager

variable {α : Type} (s : Manager) (w : Transport) (ev : MessageEvent) (i : Nat)
  (o : Outcome ServerTx)

theorem getElem?_append_of_some {l : List α} {i : Nat} {a : α} (m : List α) (h : l[i]? = some a) :
    (l ++ m)[i]? = some a := by
  rw [getElem?_append_left (List.getElem?_eq_some_iff.mp h).1]
  exact h

theorem getElem?_append_singleton (l : List α) (a x : α) (i : Nat) :
    (l ++ [a])[i]? = some x ↔ l[i]? = some x ∨ i = l.length ∧ a = x := by
  rw [getElem?_append]
  split
  · rename_i hlt
    refine ⟨.inl, fun h => ?_⟩
    rcases h with h | ⟨hi, _⟩
    · exact h
    · omega
  · rename_i hge
    have hnone : l[i]? = none := List.getElem?_eq_none_iff.mpr (by omega)
    rw [getElem?_singleton, hnone]
    split
    · rename_i hz
      rw [some.injEq]
      exact ⟨fun h => .inr ⟨by omega, h⟩, fun h => by
        rcases h with h | ⟨_, h⟩
        · contradiction
        · exact h⟩
    · rename_i hz
      refine ⟨fun h => absurd h (by simp only [reduceCtorEq, not_false_eq_true]), fun h => ?_⟩
      rcases h with h | ⟨hi, _⟩
      · contradiction
      · omega

theorem getElem?_of_prefix {l m : List α} {i : Nat} {a : α} (hp : l <+: m) (h : l[i]? = some a) :
    m[i]? = some a := by
  rcases hp with ⟨r, rfl⟩
  exact getElem?_append_of_some r h

/-- Whether a request was absorbed. -/
def ManagerObs.isAbsorbed : ManagerObs → Bool
  | .absorbed .. => true
  | _ => false

theorem any_map_eq_false {f : SIPMessage → ManagerObs} {p : ManagerObs → Bool}
    (hf : ∀ m, p (f m) = false) (ms : List SIPMessage) : (ms.map f).any p = false := by
  rw [List.any_eq_false]
  intro o ho
  rcases List.mem_map.mp ho with ⟨m, _, rfl⟩
  rw [hf]
  exact Bool.false_ne_true

/-! ### What no event takes back and whom it leaves alone -/

/-- Transactions and log entries are only added, and time does not run
    backwards. -/
structure Later (s t : Manager) : Prop where
  requests : s.requests <+: t.requests
  log : s.log <+: t.log
  now : s.now ≤ t.now

/-- An event that neither adds a transaction nor moves time. -/
theorem later_of_log {s t : Manager} (os : List (Nat × ManagerObs)) (hr : t.requests = s.requests)
    (hl : t.log = s.log ++ os) (hn : t.now = s.now) : Later s t where
  requests := hr ▸ prefix_refl _
  log := hl ▸ prefix_append _ _
  now := hn ▸ Nat.le_refl _

theorem Later.refl : Later s s :=
  later_of_log [] rfl (append_nil _).symm rfl

theorem Later.trans {s t u : Manager} (h : Later s t) (h' : Later t u) : Later s u where
  requests := h.requests.trans h'.requests
  log := h.log.trans h'.log
  now := h.now.trans h'.now

theorem later_setWorker (x : Worker) : Later s (s.setWorker w x) :=
  later_of_log [] rfl (append_nil _).symm rfl

theorem later_observe (os : List ManagerObs) : Later s (s.observe os) :=
  later_of_log _ rfl rfl rfl

theorem later_setTx (tx : ServerTx) : Later s (s.setTx i tx) :=
  later_of_log [] (s.requests_setTx i tx) (append_nil _).symm rfl

theorem commit_eq : s.commit i o =
    { (s.setTx i o.tx).observe (o.sent.map (ManagerObs.sent i)) with
      serverTxs := if o.delete then s.serverTxs.erase o.tx.branch else s.serverTxs } := by
  unfold Manager.commit
  simp only []
  split <;> rfl

theorem commitLater_eq : s.commitLater i o =
    { (s.setTx i o.tx).observe (o.sent.map (ManagerObs.sent i)) with
      deletes := if o.delete then s.deletes ++ [(o.tx.branch, i)] else s.deletes } := by
  unfold Manager.commitLater
  simp only []
  split <;> rfl

theorem later_commit : Later s (s.commit i o) := by
  rw [commit_eq]
  exact later_of_log _ (s.requests_setTx i o.tx) rfl rfl

theorem later_commitLater : Later s (s.commitLater i o) := by
  rw [commitLater_eq]
  exact later_of_log _ (s.requests_setTx i o.tx) rfl rfl

theorem later_cancel (hasHandler : Bool) (tx : ServerTx) :
    Later s (s.cancel w ev i hasHandler tx) := by
  cases tx with
  | invite tx => exact later_of_log _ (s.requests_setTx i _) rfl rfl
  | nonInvite tx => exact later_of_log _ rfl rfl rfl

theorem later_insert (x : Worker) (c : Entry) (txs : AList (fun _ : Bytes => Nat)) :
    Later s { s.setWorker w x with heap := s.heap ++ [c], serverTxs := txs } := by
  refine ⟨?_, prefix_refl _, Nat.le_refl _⟩
  simp only [Manager.requests, map_append]
  exact prefix_append _ _

@[simp] theorem worker_commit : (s.commit i o).worker = s.worker := by
  rw [commit_eq]
  rfl

theorem worker_cancel (v w : Transport) (ev : MessageEvent) (i : Nat) (hasHandler : Bool)
    (tx : ServerTx) (hvw : w ≠ v) : (s.cancel v ev i hasHandler tx).worker w = s.worker w := by
  cases tx with
  | invite tx | nonInvite tx => exact if_neg hvw

/-! ### The invariant of the table -/

section Matching

variable [UnicodeLower]

/-- What a dispatch goroutine knows about the transaction it works on. -/
def WorkerInv (rs : List SIPMessage) : Worker → Prop
  | .found ev i _ => ∃ r, rs[i]? = some r ∧ r.viaBranch = ev.msg.viaBranch
  | .missed ev _ => ∃ b, ev.msg.viaBranch = some b
  | .inserted ev i _ => rs[i]? = some ev.msg
  | .cancelled ev i => ev.msg.method = .CANCEL ∧ i < rs.length
  | .acking i => i < rs.length
  | .idle | .handling => True

/-- The table maps a branch to a transaction created for a request with that
    branch, and the goroutines and the log name transactions likewise. -/
structure TableInv (s : Manager) : Prop where
  table : ∀ (b : Bytes) (i : Nat), s.serverTxs.lookup b = some i →
    ∃ r, s.requests[i]? = some r ∧ r.viaBranch = some b
  workers : ∀ w, WorkerInv s.requests (s.worker w)
  absorbed : ∀ (t : Nat) (msg : SIPMessage) (i : Nat), (t, ManagerObs.absorbed msg i) ∈ s.log →
    ∃ r, s.requests[i]? = some r ∧ r.viaBranch = msg.viaBranch

theorem workerInv_append (rs : List SIPMessage) (r : SIPMessage) (x : Worker)
    (h : WorkerInv rs x) : WorkerInv (rs ++ [r]) x := by
  cases x with
  | found ev i hasHandler =>
    rcases h with ⟨r', hr, hb⟩
    exact ⟨r', getElem?_append_of_some [r] hr, hb⟩
  | missed ev hasHandler => exact h
  | inserted ev i hasHandler => exact getElem?_append_of_some [r] h
  | cancelled ev i =>
    exact ⟨h.1, Nat.lt_of_lt_of_le h.2 (by simp only [length_append]; omega)⟩
  | acking i => exact Nat.lt_of_lt_of_le h (by simp only [length_append]; omega)
  | idle => trivial
  | handling => trivial

namespace TableInv

variable {s : Manager}

theorem setWorker (h : TableInv s) (w : Transport) (x : Worker) (hx : WorkerInv s.requests x) :
    TableInv (s.setWorker w x) :=
  { h with
    workers := by
      intro v
      simp only [Manager.setWorker]
      split
      · exact hx
      · exact h.workers v }

theorem observe (h : TableInv s) (os : List ManagerObs)
    (hos : ∀ msg i, ManagerObs.absorbed msg i ∈ os →
      ∃ r, s.requests[i]? = some r ∧ r.viaBranch = msg.viaBranch) : TableInv (s.observe os) :=
  { h with
    absorbed := by
      intro t msg i hmem
      rcases mem_append.mp hmem with hmem | hmem
      · exact h.absorbed t msg i hmem
      · rcases List.mem_map.mp hmem with ⟨o, ho, heq⟩
        rw [Prod.mk.injEq] at heq
        exact hos msg i (heq.2 ▸ ho) }

/-- Recording anything but an absorbed request. -/
theorem observeOther (h : TableInv s) (os : List ManagerObs)
    (hos : os.any ManagerObs.isAbsorbed = false) : TableInv (s.observe os) := by
  refine h.observe os (fun msg i hmem => ?_)
  have hno := List.any_eq_false.mp hos _ hmem
  exact absurd rfl hno

theorem setTx (h : TableInv s) (i : Nat) (tx : ServerTx) : TableInv (s.setTx i tx) where
  table := by
    rw [Manager.requests_setTx]
    exact h.table
  workers := by
    rw [Manager.requests_setTx]
    exact h.workers
  absorbed := by
    rw [Manager.requests_setTx]
    exact h.absorbed

theorem deleteTx (h : TableInv s) (branch : Bytes) : TableInv (s.deleteTx branch) :=
  { h with
    table := by
      intro b i hlook
      simp only [Manager.deleteTx] at hlook
      by_cases hb : b = branch
      · rw [hb, AList.lookup_erase] at hlook
        contradiction
      · rw [AList.lookup_erase_ne hb] at hlook
        exact h.table b i hlook }

theorem commit (h : TableInv s) (i : Nat) (o : Outcome ServerTx) : TableInv (s.commit i o) := by
  have hsent := (h.setTx i o.tx).observeOther _
    (any_map_eq_false (f := .sent i) (fun _ => rfl) o.sent)
  unfold Manager.commit
  simp only []
  split
  · exact hsent.deleteTx _
  · exact hsent

theorem commitLater (h : TableInv s) (i : Nat) (o : Outcome ServerTx) :
    TableInv (s.commitLater i o) := by
  have hsent := (h.setTx i o.tx).observeOther _
    (any_map_eq_false (f := .sent i) (fun _ => rfl) o.sent)
  rw [commitLater_eq]
  exact ⟨hsent.table, hsent.workers, hsent.absorbed⟩

theorem insert (h : TableInv s) (w : Transport) (ev : MessageEvent) (hasHandler : Bool)
    (branch : Bytes) (hb : ev.msg.viaBranch = some branch) :
    TableInv { s.setWorker w (.inserted ev s.heap.length hasHandler) with
      heap := s.heap ++ [⟨ev.msg, ServerTx.create branch ev w⟩]
      serverTxs := s.serverTxs.insert branch s.heap.length } := by
  have hlen : s.heap.length = s.requests.length := by
    simp [Manager.requests]
  have hreq : (s.heap ++ [(⟨ev.msg, ServerTx.create branch ev w⟩ : Entry)]).map Entry.request =
      s.requests ++ [ev.msg] := by
    rw [map_append]
    rfl
  have hnew : (s.requests ++ [ev.msg])[s.heap.length]? = some ev.msg := by
    rw [hlen, getElem?_concat_length]
  refine ⟨?_, ?_, ?_⟩
  · intro b i hlook
    simp only [Manager.requests, hreq] at hlook ⊢
    by_cases hbb : b = branch
    · rw [hbb, AList.lookup_insert, some.injEq] at hlook
      exact ⟨ev.msg, hlook ▸ hnew, hbb ▸ hb⟩
    · rw [AList.lookup_insert_ne hbb] at hlook
      rcases h.table b i hlook with ⟨r, hr, hbr⟩
      exact ⟨r, getElem?_append_of_some [ev.msg] hr, hbr⟩
  · intro v
    simp only [Manager.requests, hreq, Manager.setWorker]
    split
    · exact hnew
    · exact workerInv_append _ _ _ (h.workers v)
  · intro t msg i hmem
    simp only [Manager.requests, hreq]
    rcases h.absorbed t msg i hmem with ⟨r, hr, hbr⟩
    exact ⟨r, getElem?_append_of_some [ev.msg] hr, hbr⟩

theorem cancel {s : Manager} (h : TableInv s) (w : Transport) (ev : MessageEvent) (i : Nat)
    (hasHandler : Bool) (tx : ServerTx) (hm : ev.msg.method = .CANCEL)
    (hi : i < s.requests.length) :
    TableInv (s.cancel w ev i hasHandler tx) := by
  cases tx with
  | invite tx =>
    refine TableInv.setWorker ((h.setTx i _).observeOther _ ?_) w _ ?_
    · rw [any_append, any_map_eq_false (fun _ => rfl), any_map_eq_false (fun _ => rfl),
        Bool.or_self]
    · split
      · rw [Manager.requests_observe, Manager.requests_setTx]
        exact ⟨hm, hi⟩
      · trivial
  | nonInvite tx => exact (h.observeOther [.replied _] rfl).setWorker w _ trivial

end TableInv

variable (s t : Manager) (e : ManagerEvent) (w : Transport) (ev : MessageEvent) (n k : Nat)
  (hasHandler : Bool)

/-- Every event keeps the table in order. -/
theorem tableInv_step (h : TableInv s) (ht : managerStep s e = some t) : TableInv t := by
  cases managerStep_cases ht with
  | tick d => exact ⟨h.table, h.workers, h.absorbed⟩
  | ignored | passed => exact h
  | found _ hb hlook =>
    rcases h.table _ _ hlook with ⟨r, hr, hbr⟩
    exact h.setWorker _ _ ⟨r, hr, hbr.trans hb.symm⟩
  | refused => exact h.observeOther [.replied _] rfl
  | missed _ hb => exact h.setWorker _ _ ⟨_, hb⟩
  | acking _ hlook =>
    rcases h.table _ _ hlook with ⟨r, hr, _⟩
    exact h.setWorker _ _ (List.getElem?_eq_some_iff.mp hr).1
  | @cancel w ev i hasHandler c hw hc hm =>
    have hi : i < s.requests.length := by
      rw [Manager.requests, length_map]
      exact (List.getElem?_eq_some_iff.mp hc).1
    exact h.cancel w ev i hasHandler c.tx hm hi
  | @absorb w ev i hasHandler c hw hc =>
    have hwork := h.workers w
    rw [hw] at hwork
    refine TableInv.setWorker (h.observe _ (fun msg j hmem => ?_)) w _ trivial
    -- Only the first entry records an absorption, the rest are messages sent.
    rcases mem_cons.mp hmem with heq | hmem
    · cases heq
      exact hwork
    · rcases List.mem_map.mp hmem with ⟨_, _, hsent⟩
      cases hsent
  | insert hw hb => exact h.insert _ _ _ _ hb
  | call => exact (h.observeOther [.invoked _ _] rfl).setWorker _ _ trivial
  | rest => exact h.setWorker _ _ trivial
  | confirm =>
    refine TableInv.setWorker ((h.commit _ _).observeOther _ ?_) _ _ trivial
    split <;> rfl
  | respond => exact h.commit _ _
  | expire => exact h.setTx _ _
  | callback => exact h.commitLater _ _
  | @delete k p hp =>
    have hd := h.deleteTx p.1
    exact ⟨hd.table, hd.workers, hd.absorbed⟩

theorem tableInv_init : TableInv Manager.init where
  table := by
    intro b i hlook
    simp only [Manager.init, AList.lookup_empty, reduceCtorEq] at hlook
  workers := fun _ => trivial
  absorbed := fun _ _ _ hmem => by cases hmem

/-! ### From the lookup to the handler -/

theorem later_step (ht : managerStep s e = some t) : Later s t := by
  cases managerStep_cases ht with
  | tick d => exact ⟨prefix_refl _, prefix_refl _, Nat.le_add_right _ _⟩
  | ignored | passed => exact Later.refl s
  | found | missed | acking | rest => exact later_setWorker s _ _
  | refused => exact later_observe s _
  | cancel => exact later_cancel s _ _ _ _ _
  | absorb | call => exact (later_observe s _).trans (later_setWorker _ _ _)
  | insert => exact later_insert s _ _ _ _
  | confirm => exact ((later_commit s _ _).trans (later_observe _ _)).trans (later_setWorker _ _ _)
  | respond => exact later_commit s _ _
  | expire => exact later_setTx s _ _
  | callback => exact later_commitLater s _ _
  | delete => exact ⟨prefix_refl _, prefix_refl _, Nat.le_refl _⟩

/-- Whether an event is the next step of the dispatch goroutine `w`. -/
def ManagerEvent.isProceed (w : Transport) : ManagerEvent → Bool
  | .proceed v => v = w
  | _ => false

/-- A dispatch goroutine that is busy is moved by its own steps only. -/
theorem worker_step (hbusy : s.worker w ≠ .idle) (he : e.isProceed w = false)
    (ht : managerStep s e = some t) : t.worker w = s.worker w := by
  cases managerStep_cases ht with
  | tick | ignored | passed | refused | expire | delete => rfl
  | found hw | missed hw | acking hw => exact if_neg (fun hvw : w = _ => hbusy (hvw ▸ hw))
  | cancel => exact worker_cancel s _ w _ _ _ _ (fun hvw => of_decide_eq_false he hvw.symm)
  | absorb | insert | call | rest =>
    exact if_neg (fun hvw => of_decide_eq_false he hvw.symm)
  | confirm =>
    refine (if_neg (fun hvw => of_decide_eq_false he hvw.symm)).trans ?_
    rw [Manager.observe, worker_commit]
  | respond => rw [worker_commit]
  | callback =>
    rw [commitLater_eq]
    rfl

/-- How far the dispatch goroutine `w` has got with the request `ev`, after `k`
    steps of its own since the lookup that found no transaction. The first step
    stores a transaction that is not among the first `n`, and the second calls
    the handler. -/
def Handed (w : Transport) (ev : MessageEvent) (n k : Nat) (t : Manager) : Prop :=
  match k with
  | 0 => t.worker w = .missed ev true ∧ n ≤ t.requests.length
  | 1 => ∃ i, n ≤ i ∧ t.worker w = .inserted ev i true ∧ t.requests[i]? = some ev.msg
  | _ => ∃ i, n ≤ i ∧ t.requests[i]? = some ev.msg ∧ ∃ time, (time, .invoked ev.msg i) ∈ t.log

/-- Other events leave a request where it is on its way to the handler. -/
theorem handed_other (s t : Manager) (e : ManagerEvent) (h : Handed w ev n k s)
    (he : e.isProceed w = false) (ht : managerStep s e = some t) : Handed w ev n k t := by
  have hlater := later_step s t e ht
  match k, h with
  | 0, ⟨hw, hn⟩ =>
    refine ⟨?_, hn.trans hlater.requests.length_le⟩
    rw [worker_step s t e w (by rw [hw]; exact Worker.noConfusion) he ht]
    exact hw
  | 1, ⟨i, hn, hw, hr⟩ =>
    refine ⟨i, hn, ?_, getElem?_of_prefix hlater.requests hr⟩
    rw [worker_step s t e w (by rw [hw]; exact Worker.noConfusion) he ht]
    exact hw
  | k + 2, ⟨i, hn, hr, time, hlog⟩ =>
    exact ⟨i, hn, getElem?_of_prefix hlater.requests hr, time, hlater.log.subset hlog⟩

/-- The goroutine's own steps take the request on. -/
theorem handed_own (s t : Manager) (h : Handed w ev n k s) (ht : s.proceed w = some t) :
    Handed w ev n (k + 1) t := by
  match k, h with
  | 0, ⟨hw, hn⟩ =>
    simp only [Manager.proceed, hw] at ht
    rcases map_eq_some_iff.mp ht with ⟨branch, _, rfl⟩
    refine ⟨s.heap.length, ?_, if_pos rfl, ?_⟩
    · simpa only [Manager.requests, length_map] using hn
    · simp only [Manager.requests, map_append]
      rw [getElem?_append_right (by rw [length_map]), length_map, Nat.sub_self]
      rfl
  | 1, ⟨i, hn, hw, hr⟩ =>
    simp only [Manager.proceed, hw, Manager.callHandler, if_true] at ht
    cases ht
    exact ⟨i, hn, hr, s.now, mem_append_right _ (mem_singleton.mpr rfl)⟩
  | k + 2, ⟨i, hn, hr, time, hlog⟩ =>
    have hlater := later_step s t (.proceed w) ht
    exact ⟨i, hn, getElem?_of_prefix hlater.requests hr, time, hlater.log.subset hlog⟩

theorem lookup_of_none (s : Manager) (w : Transport) (ev : MessageEvent) (hasHandler : Bool)
    (b : Bytes) (hb : ev.msg.viaBranch = some b) (hne : b ≠ [])
    (hnone : s.serverTxs.lookup b = none) (hm : ev.msg.method ≠ .CANCEL) :
    s.lookup w ev hasHandler = some (s.setWorker w (.missed ev hasHandler)) := by
  cases b with
  | nil => exact absurd rfl hne
  | cons x xs => simp only [Manager.lookup, hb, hnone, hm, if_false]

/-- What becomes of the request `ev` with branch `b`, which the goroutine `w`
    took when there were `n` transactions, after the events `es`. As long as
    the handler has not been called the goroutine can move on, and when it does
    it changes no transaction there is and no other entry of the table. After
    two such steps the handler has been called with a new transaction. -/
def ReachesHandler (w : Transport) (ev : MessageEvent) (b : Bytes) (n : Nat)
    (es : List ManagerEvent) (t : Manager) : Prop :=
  (es.countP (ManagerEvent.isProceed w) < 2 →
    ∃ t', managerStep t (.proceed w) = some t' ∧
      (∀ (j : Nat) (c : Entry), t.heap[j]? = some c → t'.heap[j]? = some c) ∧
      ∀ b', b' ≠ b → t'.serverTxs.lookup b' = t.serverTxs.lookup b') ∧
  (2 ≤ es.countP (ManagerEvent.isProceed w) →
    ∃ (i : Nat) (c : Entry) (time : Nat), n ≤ i ∧ t.heap[i]? = some c ∧ c.request = ev.msg ∧
      (time, .invoked ev.msg i) ∈ t.log)

theorem handed_run (n : Nat) (s t : Manager) (es : List ManagerEvent) (h : Handed w ev n 0 s)
    (hrun : Run managerStep (fun _ _ => True) s es t) :
    Handed w ev n (es.countP (ManagerEvent.isProceed w)) t := by
  refine Run.invariant_events
    (fun es t => Handed w ev n (es.countP (ManagerEvent.isProceed w)) t) h ?_ hrun
  intro es t e u hh _ hstep
  simp only [countP_append, countP_singleton]
  cases he : e.isProceed w with
  | false => exact handed_other w ev n _ t u e hh he hstep
  | true =>
    cases e with
    | proceed v =>
      have hv : v = w := of_decide_eq_true he
      rw [hv] at hstep
      exact handed_own w ev n _ t u hh hstep
    | tick | request | ack | respond | expire | callback | delete =>
      cases he

/-- The steps of a goroutine on its way to the handler. -/
theorem reachesHandler_of_handed (b : Bytes) (n : Nat) (es : List ManagerEvent) (t : Manager)
    (hb : ev.msg.viaBranch = some b) (h : Handed w ev n (es.countP (ManagerEvent.isProceed w)) t) :
    ReachesHandler w ev b n es t := by
  unfold ReachesHandler
  generalize es.countP (ManagerEvent.isProceed w) = k at h ⊢
  match k, h with
  | 0, ⟨hw, _⟩ =>
    refine ⟨fun _ => ?_, fun h2 => absurd h2 (by omega)⟩
    have hins : ∃ t', t.insert w ev true = some t' := by
      rw [Manager.insert, hb]
      exact ⟨_, rfl⟩
    rcases hins with ⟨t', ht'⟩
    have hstep : managerStep t (.proceed w) = some t' := by
      simp only [managerStep, Manager.proceed, hw]
      exact ht'
    rcases map_eq_some_iff.mp ht' with ⟨branch, hbr, rfl⟩
    rw [hb, some.injEq] at hbr
    refine ⟨_, hstep, ?_, ?_⟩
    · intro j c hc
      exact getElem?_append_of_some _ hc
    · intro b' hne
      exact AList.lookup_insert_ne (hbr ▸ hne)
  | 1, ⟨i, _, hw, _⟩ =>
    refine ⟨fun _ => ?_, fun h2 => absurd h2 (by omega)⟩
    have hstep : managerStep t (.proceed w) = some (t.callHandler w ev.msg i true) := by
      simp [managerStep, Manager.proceed, hw]
    exact ⟨_, hstep, fun _ _ hc => hc, fun _ _ => rfl⟩
  | k + 2, ⟨i, hn, hr, time, hlog⟩ =>
    refine ⟨fun h2 => absurd h2 (by omega), fun _ => ?_⟩
    rcases (t.requests_eq_some i ev.msg).mp hr with ⟨c, hc, hreq⟩
    exact ⟨i, c, time, hn, hc, hreq, hlog⟩

/-- In every reachable state a request is absorbed only by a transaction created
    for a request with the same branch, and a request with a branch that no
    stored transaction was created with reaches its handler in a new
    transaction. -/
theorem requests_matched_by_branch (es : List ManagerEvent) (s : Manager)
    (hrun : Run managerStep (fun _ _ => True) Manager.init es s) :
    (∀ (time : Nat) (msg : SIPMessage) (i : Nat), (time, .absorbed msg i) ∈ s.log →
      ∃ c, s.heap[i]? = some c ∧ c.request.viaBranch = msg.viaBranch) ∧
    ∀ (w : Transport) (ev : MessageEvent) (b : Bytes), s.worker w = .idle →
      ev.msg.method ≠ .CANCEL → ev.msg.viaBranch = some b → b ≠ [] →
      (∀ (b' : Bytes) (i : Nat) (c : Entry), s.serverTxs.lookup b' = some i →
        s.heap[i]? = some c → c.request.viaBranch ≠ some b) →
      ∃ s', managerStep s (.request w ev true) = some s' ∧ s'.heap = s.heap ∧
        s'.serverTxs = s.serverTxs ∧
        ∀ es' t, Run managerStep (fun _ _ => True) s' es' t →
          ReachesHandler w ev b s.heap.length es' t := by
  have hinv : TableInv s := hrun.invariant TableInv tableInv_init
    (fun t e u ht _ hstep => tableInv_step t u e ht hstep)
  refine ⟨?_, ?_⟩
  · intro time msg i hlog
    rcases hinv.absorbed time msg i hlog with ⟨r, hr, hbr⟩
    rcases (s.requests_eq_some i r).mp hr with ⟨c, hc, hreq⟩
    exact ⟨c, hc, hreq ▸ hbr⟩
  · intro w ev b hidle hm hb hne hlive
    -- The table has nothing under this branch, so the lookup misses.
    have hnone : s.serverTxs.lookup b = none := by
      rcases hlook : s.serverTxs.lookup b with _ | i
      · rfl
      · rcases hinv.table b i hlook with ⟨r, hr, hbr⟩
        rcases (s.requests_eq_some i r).mp hr with ⟨c, hc, hreq⟩
        exact absurd (hreq ▸ hbr) (hlive b i c hlook hc)
    have hstep : managerStep s (.request w ev true) = some (s.setWorker w (.missed ev true)) := by
      simp only [managerStep, hidle]
      exact lookup_of_none s w ev true b hb hne hnone hm
    refine ⟨_, hstep, rfl, rfl, ?_⟩
    intro es' t hrun'
    refine reachesHandler_of_handed w ev b _ es' t hb (handed_run w ev _ _ t es' ⟨?_, ?_⟩ hrun')
    · exact if_pos rfl
    · rw [Manager.requests_setWorker, Manager.requests, length_map]

end Matching

/-- A request that came over UDP. -/
def sampleRequest (method : SIPMethod) (host branch : String) : MessageEvent where
  msg :=
    let req := newRequest method (ascii "sip:example.com")
    { req with
      headers := SIPHeaders.add req.headers hVia
        (ascii "SIP/2.0/UDP " ++ ascii host ++ ascii ";branch=" ++ ascii branch) }
  target := ⟨none, none, []⟩

/-- Whether a dispatch goroutine waits for a message. -/
def Worker.isIdle : Worker → Bool
  | .idle => true
  | _ => false

theorem eq_idle_of_isIdle (x : Worker) (h : x.isIdle = true) : x = .idle := by
  cases x with
  | idle => rfl
  | found | missed | inserted | cancelled | acking | handling =>
    cases h

/-- An OPTIONS request gets to its handler, which returns. -/
def oneTransaction : List ManagerEvent :=
  [.request .udp (sampleRequest .OPTIONS "alice" "z9hG4bK1") true, .proceed .udp, .proceed .udp,
    .proceed .udp]

open Samples

/-- With the transaction of `oneTransaction` stored, a REGISTER request with
    another branch is looked up by the idle goroutine and gets to its handler. -/
theorem requests_matched_after_oneTransaction :
    ∃ s, Run managerStep (fun _ _ => True) Manager.init oneTransaction s ∧
      ∃ s', managerStep s (.request .udp (sampleRequest .REGISTER "bob" "z9hG4bK2") true) =
          some s' ∧ s'.heap = s.heap ∧ s'.serverTxs = s.serverTxs ∧
        ∀ es' t, Run managerStep (fun _ _ => True) s' es' t →
          ReachesHandler .udp (sampleRequest .REGISTER "bob" "z9hG4bK2") (ascii "z9hG4bK2")
            s.heap.length es' t := by
  refine exists_run_imp (fun s => (s.worker .udp).isIdle = true ∧ s.heap.all
    (fun c => c.request.viaBranch ≠ some (ascii "z9hG4bK2")) = true) (by decide +kernel) ?_
  rintro s hrun ⟨hidle, hheap⟩
  refine (requests_matched_by_branch oneTransaction s hrun).2 .udp _ _ ?_
    (by decide) (by decide +kernel) (by decide +kernel) ?_
  · exact eq_idle_of_isIdle _ hidle
  · intro b' i c _ hc
    exact of_decide_eq_true (List.all_eq_true.mp hheap c (mem_of_getElem? hc))

/-- Another client sends a request with another method and the same branch. -/
def strangerAbsorbed : List ManagerEvent :=
  oneTransaction ++
    [.request .tcp (sampleRequest .REGISTER "bob" "z9hG4bK1") true, .proceed .tcp]

/-- Whether a request was absorbed by a transaction of another client and
    another method. -/
def Manager.absorbsStranger (s : Manager) : Bool :=
  s.log.any (fun o => match o.2 with
    | .absorbed msg i =>
      s.heap[i]?.any (fun c => c.request.viaSentBy ≠ msg.viaSentBy ∧ c.request.method ≠ msg.method)
    | _ => false)

/-- The sent-by and the method do not count: a request is absorbed by a
    transaction it shares neither with. -/
theorem requests_matched_by_branch_alone :
    ∃ s, Run managerStep (fun _ _ => True) Manager.init strangerAbsorbed s ∧
      ¬ ∀ (time : Nat) (msg : SIPMessage) (i : Nat), (time, .absorbed msg i) ∈ s.log →
        ∃ c, s.heap[i]? = some c ∧ c.request.viaBranch = msg.viaBranch ∧
          c.request.viaSentBy = msg.viaSentBy ∧ c.request.method = msg.method := by
  refine exists_run_imp (fun s => s.absorbsStranger = true) (by decide +kernel)
    fun s _ hstranger hall => ?_
  rcases List.any_eq_true.mp hstranger with ⟨⟨time, o⟩, hmem, ho⟩
  cases o with
  | absorbed msg i =>
    rcases hall time msg i hmem with ⟨c, hc, _, hsent, _⟩
    simp only [hc, any_some, decide_eq_true_eq] at ho
    exact ho.1 hsent
  | sent | replied | acknowledged | invoked => cases ho

end Sip

end Trecs
