import Trecs.Lib.Run
import Trecs.Lib.Tally

/-!
# Accepting TCP Connections

`internal/sip/transport.go`: `acceptLoop` takes inbound connections and starts a
goroutine with `handleConnection` for each. A buffered channel of `tcpMaxConns`
tokens stands between the two. The loop puts a token in before it starts the
goroutine and closes the connection at once when there is no room for one.

The goroutine takes a token out again as the first thing it does, not when it is
done. So what the channel bounds is the number of goroutines that have been
started and have not come that far (`unreleased_of_run`). The connections that are
served come on top of that, and nothing bounds them (`run_busy`).

## Main definitions

* `ConnPlace`: Where the goroutine of a connection is.
* `Acceptor`: The channel and the goroutines.
* `AcceptEvent`, `acceptStep`: What can happen.
* `Acceptor.handling`: The connections in `handleConnection`.
* `ServedAtMost`: A connection is accepted only while few are served.

## Theorems

* `Acceptor.Inv.step`: The tokens are those of goroutines before their receive.
* `unreleased_of_run`: What the channel bounds.
* `run_busy`: What it does not bound.
* `handling_le_iff`: How many may be served when a connection is accepted.
-/

namespace Trecs

open List Option

namespace Sip

/-- The capacity of `connSem`. -/
def tcpMaxConns : Nat := 1000

/-- Where the goroutine of an accepted connection is: it has not been scheduled
    yet, it is in `handleConnection` in front of the receive from `connSem`, or it
    is behind that and reads from the connection. -/
inductive ConnPlace where
  | spawned
  | entered
  | serving
deriving Repr, DecidableEq

/-- The goroutine has not received from `connSem` yet. -/
def ConnPlace.unreleased : ConnPlace → Nat
  | .spawned => 1
  | .entered => 1
  | .serving => 0

/-- The goroutine is behind its receive. -/
def ConnPlace.served : ConnPlace → Nat
  | .spawned => 0
  | .entered => 0
  | .serving => 1

/-- `handleConnection` has started. It has not returned, or the goroutine would
    be gone. -/
def ConnPlace.handling : ConnPlace → Nat
  | .spawned => 0
  | .entered => 1
  | .serving => 1

/-- The tokens in `connSem`, the goroutines of the inbound connections, and
    whether `acceptLoop` is still running. -/
structure Acceptor where
  connSem : Nat
  conns : List ConnPlace
  accepting : Bool
deriving Repr, DecidableEq

namespace Acceptor

/-- A new transport after `Start`. -/
def start : Acceptor := ⟨0, [], true⟩

/-- The connections whose `handleConnection` has started and not returned. -/
def handling (s : Acceptor) : Nat := tally ConnPlace.handling s.conns

/-- The goroutines that have not received from `connSem` yet. -/
def unreleased (s : Acceptor) : Nat := tally ConnPlace.unreleased s.conns

/-- The connections that are being served. -/
def served (s : Acceptor) : Nat := tally ConnPlace.served s.conns

end Acceptor

/-- What can happen: `Accept` returns a connection or an error, or the goroutine
    at a position is scheduled, receives from `connSem`, or returns. -/
inductive AcceptEvent where
  | accept
  | acceptFailed
  | enter (i : Nat)
  | receive (i : Nat)
  | finish (i : Nat)
deriving Repr, DecidableEq

/-- What an event does. -/
def acceptStep (s : Acceptor) : AcceptEvent → Option Acceptor
  | .accept =>
    if s.accepting then
      -- The send to `connSem` either succeeds at once or the connection is closed.
      if s.connSem < tcpMaxConns then
        some { s with connSem := s.connSem + 1, conns := s.conns ++ [.spawned] }
      else some s
    else none
  | .acceptFailed => if s.accepting then some { s with accepting := false } else none
  | .enter i =>
    if s.conns[i]? = some .spawned then some { s with conns := s.conns.set i .entered } else none
  | .receive i =>
    if s.conns[i]? = some .entered ∧ 0 < s.connSem then
      some { s with connSem := s.connSem - 1, conns := s.conns.set i .serving }
    else none
  | .finish i =>
    if s.conns[i]? = some .serving then some { s with conns := s.conns.eraseIdx i } else none

/-- A step that changes anything. -/
theorem acceptStep_cases {s t : Acceptor} {e : AcceptEvent} (h : acceptStep s e = some t) :
    (t.conns = s.conns ∧ t.connSem = s.connSem) ∨
      (e = .accept ∧ s.connSem < tcpMaxConns ∧ t.connSem = s.connSem + 1 ∧
        t.conns = s.conns ++ [.spawned]) ∨
      (∃ i, s.conns[i]? = some .spawned ∧ t.connSem = s.connSem ∧
        t.conns = s.conns.set i .entered) ∨
      (∃ i, s.conns[i]? = some .entered ∧ t.connSem + 1 = s.connSem ∧
        t.conns = s.conns.set i .serving) ∨
      (∃ i, s.conns[i]? = some .serving ∧ t.connSem = s.connSem ∧
        t.conns = s.conns.eraseIdx i) := by
  cases e with
  | accept =>
    simp only [acceptStep, ite_none_right_eq_some] at h
    by_cases hroom : s.connSem < tcpMaxConns
    · rw [if_pos hroom, some.injEq] at h
      rw [← h.2]
      exact .inr (Or.inl ⟨rfl, hroom, rfl, rfl⟩)
    · rw [if_neg hroom, some.injEq] at h
      rw [← h.2]
      exact .inl ⟨rfl, rfl⟩
  | acceptFailed =>
    simp only [acceptStep, ite_none_right_eq_some, some.injEq] at h
    rw [← h.2]
    exact .inl ⟨rfl, rfl⟩
  | enter i =>
    simp only [acceptStep, ite_none_right_eq_some, some.injEq] at h
    rw [← h.2]
    exact .inr (Or.inr (Or.inl ⟨i, h.1, rfl, rfl⟩))
  | receive i =>
    simp only [acceptStep, ite_none_right_eq_some, some.injEq] at h
    rw [← h.2]
    exact .inr (Or.inr (Or.inr (Or.inl ⟨i, h.1.1, Nat.sub_add_cancel h.1.2, rfl⟩)))
  | finish i =>
    simp only [acceptStep, ite_none_right_eq_some, some.injEq] at h
    rw [← h.2]
    exact .inr (Or.inr (Or.inr (Or.inr ⟨i, h.1, rfl, rfl⟩)))

/-! ### What the channel bounds -/

/-- The tokens in the channel are those of the goroutines that have not received
    one yet, and the channel is no fuller than it can be. -/
structure Acceptor.Inv (s : Acceptor) : Prop where
  tokens : s.connSem = s.unreleased
  room : s.connSem ≤ tcpMaxConns

theorem Acceptor.Inv.step {s t : Acceptor} {e : AcceptEvent} (h : s.Inv)
    (hstep : acceptStep s e = some t) : t.Inv := by
  have htokens := h.tokens
  have hroom := h.room
  unfold Acceptor.unreleased at htokens
  rcases acceptStep_cases hstep with ⟨hconns, hsem⟩ | ⟨-, hlt, hsem, hconns⟩ |
    ⟨i, hi, hsem, hconns⟩ | ⟨i, hi, hsem, hconns⟩ | ⟨i, hi, hsem, hconns⟩
  · exact ⟨by rw [Acceptor.unreleased, hconns, hsem, htokens], by omega⟩
  · refine ⟨?_, by omega⟩
    rw [Acceptor.unreleased, hconns, tally_append, tally_cons, tally_nil, hsem, htokens]
    rfl
  · have hset := tally_set ConnPlace.unreleased s.conns i _ .entered hi
    refine ⟨?_, by omega⟩
    rw [Acceptor.unreleased, hconns]
    simp only [ConnPlace.unreleased] at hset
    omega
  · have hset := tally_set ConnPlace.unreleased s.conns i _ .serving hi
    refine ⟨?_, by omega⟩
    rw [Acceptor.unreleased, hconns]
    simp only [ConnPlace.unreleased] at hset
    omega
  · have hset := tally_eraseIdx ConnPlace.unreleased s.conns i _ hi
    refine ⟨?_, by omega⟩
    rw [Acceptor.unreleased, hconns]
    simp only [ConnPlace.unreleased] at hset
    omega

/-- At most `tcpMaxConns` goroutines are on their way to their first receive. The
    channel has a token for each of them, so none has to wait there. -/
theorem unreleased_of_run (es : List AcceptEvent) (s : Acceptor)
    (hrun : Run acceptStep (fun _ _ => True) Acceptor.start es s) :
    s.connSem = s.unreleased ∧ s.unreleased ≤ tcpMaxConns ∧
      ∀ i, s.conns[i]? = some .entered → ∃ t, acceptStep s (.receive i) = some t := by
  have hinv : s.Inv := Run.invariant Acceptor.Inv ⟨rfl, Nat.zero_le _⟩
    (fun t e u h _ hstep => h.step hstep) hrun
  refine ⟨hinv.tokens, hinv.tokens ▸ hinv.room, fun i hi => ?_⟩
  have htoken : 1 ≤ s.unreleased :=
    le_tally ConnPlace.unreleased s.conns .entered (mem_of_getElem? hi)
  rw [← hinv.tokens] at htoken
  exact ⟨_, if_pos ⟨hi, htoken⟩⟩

theorem unreleased_of_run_twoConns :
    ∃ s, Run acceptStep (fun _ _ => True) Acceptor.start [.accept, .accept, .enter 1] s ∧
      s.conns = [.spawned, .entered] ∧ ∃ t, acceptStep s (.receive 1) = some t :=
  exists_run_and (by decide) (fun s hrun hs =>
    (unreleased_of_run _ s hrun).2.2 1 (by rw [hs]; rfl))

/-! ### What it does not bound -/

/-- A connection is accepted only while at most `k` others are behind their
    receive. -/
def ServedAtMost (k : Nat) (s : Acceptor) (e : AcceptEvent) : Prop := e = .accept → s.served ≤ k

/-- `n` connections are being served, and `m` are in front of their receive. -/
def busy (n m : Nat) : Acceptor :=
  ⟨m, List.replicate n .serving ++ List.replicate m .entered, true⟩

theorem tally_busy (f : ConnPlace → Nat) (n m : Nat) :
    tally f (busy n m).conns = n * f .serving + m * f .entered := by
  rw [busy, tally_append, tally_replicate, tally_replicate]

section Busy

variable {k n m : Nat} {es : List AcceptEvent}

/-- One more connection is accepted and comes to its receive. -/
theorem run_enter (hn : n ≤ k) (hm : m < tcpMaxConns)
    (hrun : Run acceptStep (ServedAtMost k) Acceptor.start es (busy n m)) :
    ∃ es', Run acceptStep (ServedAtMost k) Acceptor.start es' (busy n (m + 1)) := by
  have hserved : (busy n m).served ≤ k := by
    rw [Acceptor.served, tally_busy]
    simp only [ConnPlace.served]
    omega
  have haccept : acceptStep (busy n m) .accept =
      some ⟨m + 1, (busy n m).conns ++ [.spawned], true⟩ := if_pos hm
  have henter : acceptStep ⟨m + 1, (busy n m).conns ++ [.spawned], true⟩
      (.enter (busy n m).conns.length) = some (busy n (m + 1)) := by
    refine (if_pos getElem?_concat_length).trans (congrArg some ?_)
    simp [busy, replicate_succ']
  exact ⟨_, (hrun.snoc (fun _ => hserved) haccept).snoc (fun h => by cases h) henter⟩

/-- The only connection in front of its receive goes on, and its token is back. -/
theorem run_receive (hrun : Run acceptStep (ServedAtMost k) Acceptor.start es (busy n 1)) :
    ∃ es', Run acceptStep (ServedAtMost k) Acceptor.start es' (busy (n + 1) 0) := by
  have hreceive : acceptStep (busy n 1) (.receive n) = some (busy (n + 1) 0) := by
    have hset : (busy n 1).conns.set n .serving = (busy (n + 1) 0).conns := by
      simp [busy, replicate_succ']
    have hentered : (busy n 1).conns[n]? = some .entered := by
      simp [busy]
    refine (if_pos ⟨hentered, Nat.one_pos⟩).trans ?_
    rw [hset]
    rfl
  exact ⟨_, hrun.snoc (fun h => by cases h) hreceive⟩

/-- As many connections as may be served are, and as many again as the channel
    holds are in front of their receive. -/
theorem run_busy (hn : n ≤ k) (hm : m ≤ tcpMaxConns) :
    ∃ es, Run acceptStep (ServedAtMost k) Acceptor.start es (busy n m) := by
  have hserving : ∃ es, Run acceptStep (ServedAtMost k) Acceptor.start es (busy n 0) := by
    induction n with
    | zero => exact ⟨[], Run.nil⟩
    | succ n ih =>
      rcases ih (Nat.le_of_succ_le hn) with ⟨es, hes⟩
      rcases run_enter (Nat.le_of_succ_le hn) (by decide) hes with ⟨es', hes'⟩
      exact run_receive hes'
  induction m with
  | zero => exact hserving
  | succ m ih =>
    rcases ih (Nat.le_of_succ_le hm) with ⟨es, hes⟩
    exact run_enter hn hm hes

end Busy

theorem handling_busy (n m : Nat) : (busy n m).handling = n + m := by
  rw [Acceptor.handling, tally_busy]
  simp only [ConnPlace.handling, Nat.mul_one]

/-- One connection more than the constant says is served at a time. -/
theorem exists_handling_gt :
    ∃ es s, Run acceptStep (fun _ _ => True) Acceptor.start es s ∧
      ¬ s.handling ≤ tcpMaxConns := by
  rcases run_busy (Nat.le_refl (tcpMaxConns + 1)) (Nat.zero_le _) with ⟨es, hrun⟩
  refine ⟨es, _, hrun.mono (fun _ _ _ => trivial), ?_⟩
  rw [handling_busy]
  omega

/-! ### The bound -/

/-- A goroutine is in front of its receive or behind it. -/
theorem unreleased_add_served (s : Acceptor) : s.unreleased + s.served = s.conns.length := by
  unfold Acceptor.unreleased Acceptor.served
  induction s.conns with
  | nil => rfl
  | cons c l ih =>
    rw [tally_cons, tally_cons, length_cons]
    cases c with
    | spawned | entered | serving =>
      simp only [ConnPlace.unreleased, ConnPlace.served]
      omega

theorem length_conns_step {s t : Acceptor} {e : AcceptEvent} (hinv : s.Inv)
    (h : s.conns.length ≤ tcpMaxConns) (hok : ServedAtMost 0 s e)
    (hstep : acceptStep s e = some t) : t.conns.length ≤ tcpMaxConns := by
  rcases acceptStep_cases hstep with ⟨hconns, _⟩ | ⟨he, hlt, _, hconns⟩ | ⟨i, _, _, hconns⟩ |
    ⟨i, _, _, hconns⟩ | ⟨i, _, _, hconns⟩
  · rw [hconns]
    exact h
  · -- Every connection that is open has a token.
    have hserved := hok he
    have htokens := hinv.tokens
    have hsum := unreleased_add_served s
    rw [hconns, length_append, length_singleton]
    omega
  · rw [hconns, length_set]
    exact h
  · rw [hconns, length_set]
    exact h
  · rw [hconns]
    exact Nat.le_trans (length_eraseIdx_le _ _) h

/-- If a connection is accepted only while at most `k` others are served, then
    `tcpMaxConns` bounds the connections in `handleConnection` in every run if and
    only if `k` is zero. -/
theorem handling_le_iff (k : Nat) :
    (∀ es s, Run acceptStep (ServedAtMost k) Acceptor.start es s → s.handling ≤ tcpMaxConns) ↔
      k = 0 := by
  constructor
  · intro h
    by_contra hk
    rcases run_busy (Nat.one_le_iff_ne_zero.mpr hk) (Nat.le_refl tcpMaxConns) with ⟨es, hrun⟩
    have hle := h es _ hrun
    rw [handling_busy] at hle
    omega
  · rintro rfl es s hrun
    have hinv : s.Inv ∧ s.conns.length ≤ tcpMaxConns :=
      Run.invariant (fun s => s.Inv ∧ s.conns.length ≤ tcpMaxConns)
        ⟨⟨rfl, Nat.zero_le _⟩, Nat.zero_le _⟩
        (fun t e u h hok hstep => ⟨h.1.step hstep, length_conns_step h.1 h.2 hok hstep⟩) hrun
    refine Nat.le_trans (tally_le_length ConnPlace.handling s.conns (fun a => ?_)) hinv.2
    cases a with
    | spawned => exact Nat.zero_le 1
    | entered | serving => exact Nat.le_refl 1

end Sip

end Trecs
