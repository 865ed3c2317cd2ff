import Mathlib.Data.List.InsertIdx
import Trecs.Lib.Table
import Trecs.Sip.OnceOnly

/-!
# Who Deletes a Table Entry

A transaction deletes the table entry of its branch when it ends, and it does so
by the branch alone. So if it deletes twice, or deletes when another transaction
has taken its place, it deletes an entry that is not its own.

A transaction is active while it has not ended or a callback that would delete
its entry is still to come. The argument is that an active transaction has its
entry, that a deletion comes from an active transaction, and that it leaves it
inactive, for ever. This holds as long as a transaction has at most one callback
of this kind at a time, none before its final response, and the one it has when
an ACK arrives can still be stopped.

`OwnerOk` has what this needs. A non-INVITE transaction that is given a second
final response makes a second timer J. A 2xx given to a completed INVITE
transaction ends it and leaves timer H running. An ACK stops timer H, but not its
callback once it has fired. And a transaction that is stored over another one
takes the entry of a transaction that is still active.

## Main definitions

* `InviteTransaction.Active`, `NonInviteTransaction.Active`: A deletion may come.
* `InviteTransaction.Single`, `NonInviteTransaction.Single`: At most one callback
  that deletes.
* `Keeps`: What a locked section does to a transaction.
* `OwnerOk`: The condition.
* `OwnInv`: An active transaction has its entry.

## Theorems

* `ownInv_step`: Every step that meets the condition keeps the invariant.
* `deletes_own_entry`: A transaction deletes its own entry only.
-/

namespace Trecs

open List Option

namespace Sip

open Proto

/-! ### INVITE server transactions -/

namespace InviteTransaction

/-- A callback that deletes the table entry is still to come. -/
def Due (tx : InviteTransaction) (j : Nat) (k : ISTTimer) : Prop :=
  k ≠ .G ∧ tx.timers.Ticking j k

/-- The transaction has not ended, or will be ended again. -/
def Active (tx : InviteTransaction) : Prop := tx.state ≠ .Terminated ∨ ∃ j k, tx.Due j k

/-- At most one callback that deletes is to come, none before the final
    response, and only that of the current timer H before the ACK. -/
structure Single (tx : InviteTransaction) : Prop where
  one : ∀ j j' k k', tx.Due j k → tx.Due j' k' → j = j'
  quiet : tx.pending = true → ∀ j k, ¬ tx.Due j k
  completed : tx.state = .Completed → ∀ j k, tx.Due j k → k = .H ∧ tx.timerH = some j

end InviteTransaction

/-- What a locked section does to a transaction: an inactive one stays inactive,
    and a deletion makes an active one inactive. -/
structure Keeps {τ : Type} (S A : τ → Prop) (tx : τ) (o : Outcome τ) : Prop where
  single : S o.tx
  active : A o.tx → A tx
  delete : o.delete = true → A tx ∧ ¬ A o.tx

namespace InviteTransaction

variable {tx : InviteTransaction}

theorem single_of_quiet (h : ∀ j k, ¬ tx.Due j k) : tx.Single where
  one j _ k _ hd _ := absurd hd (h j k)
  quiet _ := h
  completed _ j k hd := absurd hd (h j k)

theorem active_of_ne (h : tx.state ≠ .Terminated) : tx.Active := Or.inl h

theorem ne_terminated_of_pending (h : tx.pending = true) : tx.state ≠ .Terminated := by
  intro hst
  rw [pending, hst] at h
  exact Bool.noConfusion h

/-- No callback that deletes is added, and the transaction neither goes back nor
    is completed. -/
theorem keeps_same (hs : tx.Single) (tx' : InviteTransaction) (sent : List SIPMessage)
    (hdue : ∀ j k, tx'.Due j k → tx.Due j k) (hH : tx'.timerH = tx.timerH)
    (hpending : tx'.pending = true → tx.pending = true)
    (hcompleted : tx'.state = .Completed → tx.state = .Completed)
    (hactive : tx'.state ≠ .Terminated → tx.state ≠ .Terminated) :
    Keeps Single Active tx ⟨tx', sent, false⟩ := by
  refine ⟨⟨?_, ?_, ?_⟩, ?_, fun h => Bool.noConfusion h⟩
  · intro j j' k k' hd hd'
    exact hs.one j j' k k' (hdue j k hd) (hdue j' k' hd')
  · intro hp j k hd
    exact hs.quiet (hpending hp) j k (hdue j k hd)
  · intro hc j k hd
    rw [hH]
    exact hs.completed (hcompleted hc) j k (hdue j k hd)
  · rintro (hst | ⟨j, k, hd⟩)
    · exact .inl (hactive hst)
    · exact .inr ⟨j, k, hdue j k hd⟩

/-- The transaction ends and deletes its entry, with no callback to come. -/
theorem keeps_end (htx : tx.Active) (tx' : InviteTransaction) (sent : List SIPMessage)
    (hst : tx'.state = .Terminated) (hquiet : ∀ j k, ¬ tx'.Due j k) :
    Keeps Single Active tx ⟨tx', sent, true⟩ := by
  refine ⟨single_of_quiet hquiet, fun _ => htx, fun _ => ⟨htx, ?_⟩⟩
  rintro (hne | ⟨j, k, hd⟩)
  · exact hne hst
  · exact hquiet j k hd

theorem due_startTimerG (now : Nat) (j : Nat) (k : ISTTimer) (h : (tx.startTimerG now).Due j k) :
    tx.Due j k := by
  unfold startTimerG at h
  split at h
  · exact h
  · rcases Timers.ticking_afterFunc h.2 with ht | ⟨_, hk⟩
    · exact ⟨h.1, ht⟩
    · exact absurd hk h.1

theorem startTimerG_timerH (now : Nat) : (tx.startTimerG now).timerH = tx.timerH := by
  unfold startTimerG
  split
  · rfl
  · rfl

/-- The first final response other than a 2xx arms timer H. -/
theorem keeps_complete (now : Nat) (tx' : InviteTransaction) (sent : List SIPMessage)
    (hst : tx'.state = .Completed) (hquiet : ∀ j k, ¬ tx'.Due j k)
    (hlive : tx.state ≠ .Terminated) :
    Keeps Single Active tx ⟨startTimerG now (armTimerH now tx'), sent, false⟩ := by
  have hdue : ∀ j k, (startTimerG now (armTimerH now tx')).Due j k →
      j = tx'.timers.length ∧ k = .H := by
    intro j k hd
    rcases Timers.ticking_afterFunc (due_startTimerG now j k hd).2 with ht | h
    · exact absurd ⟨hd.1, ht⟩ (hquiet j k)
    · exact h
  refine ⟨⟨?_, ?_, ?_⟩, fun _ => active_of_ne hlive, fun h => Bool.noConfusion h⟩
  · intro j j' k k' hd hd'
    rw [(hdue j k hd).1, (hdue j' k' hd').1]
  · intro hp
    rw [pending, startTimerG_state] at hp
    change (decide (tx'.state = _) || decide (tx'.state = _)) = true at hp
    rw [hst] at hp
    exact Bool.noConfusion hp
  · intro _ j k hd
    rw [startTimerG_timerH]
    exact ⟨(hdue j k hd).2, congrArg some (hdue j k hd).1.symm⟩

/-- `Respond`, unless it gives a 2xx to a completed transaction. -/
theorem keeps_respond (hs : tx.Single) (now : Nat) (res : SIPMessage)
    (hok : tx.state = .Completed → ¬ (200 ≤ res.statusCode ∧ res.statusCode < 300)) :
    Keeps Single Active tx (tx.respond now res) := by
  rcases tx.respond_cases now res with
    h | ⟨hp, _, h⟩ | ⟨hp, _, h⟩ | ⟨hnt, hnc, h2, h3, h⟩ | ⟨hp, _, h⟩ | ⟨_, _, h⟩
  · rw [h]
    exact keeps_same hs tx _ (fun _ _ => id) rfl id id id
  · rw [h]
    exact keeps_same hs tx _ (fun _ _ => id) rfl id id id
  · rw [h]
    refine keeps_same hs _ _ (fun _ _ => id) rfl (fun _ => hp) ?_ (fun _ => ne_terminated_of_pending hp)
    exact fun hc => by cases hc
  · -- the transaction was pending, so it has no timer that could delete once more
    have hp : tx.pending = true := by
      rw [pending_iff]
      cases hst : tx.state with
      | Trying => exact .inl rfl
      | Proceeding => exact .inr rfl
      | Completed => exact absurd ⟨h2, h3⟩ (hok hst)
      | Confirmed => exact absurd hst hnc
      | Terminated => exact absurd hst hnt
    rw [h]
    exact keeps_end (active_of_ne hnt) _ _ rfl (hs.quiet hp)
  · rw [h]
    exact keeps_complete now _ _ rfl (hs.quiet hp) (ne_terminated_of_pending hp)
  · rw [h]
    exact keeps_same hs _ _ (fun _ _ => id) rfl id id id

/-- `ackReceived`, unless the callback of timer H waits already. -/
theorem keeps_ackReceived (hs : tx.Single) (now : Nat)
    (hok : tx.state = .Completed → ∀ t ∈ tx.timers, t.kind = .H → t.phase ≠ .fired) :
    Keeps Single Active tx (tx.ackReceived now) := by
  unfold ackReceived
  by_cases hc : tx.state = .Completed
  · rw [if_neg (not_not_intro hc)]
    have hlive : tx.state ≠ .Terminated := by rw [hc]; exact fun h => ISTState.noConfusion h
    -- the one callback to come is that of the current timer H, which is stopped
    have hquiet : ∀ j k, ¬ Due (stopTimers { tx with state := .Confirmed }) j k := by
      rintro j k ⟨hk, ht⟩
      have hq₁ := Timers.quieter_stop? ((tx.timers.stop? tx.timerH).stop? tx.timerI) tx.timerG
      have hq₂ := Timers.quieter_stop? (tx.timers.stop? tx.timerH) tx.timerI
      rcases hq₂.ticking (hq₁.ticking ht) with ⟨t, hj, htk, hphase⟩
      rcases Timers.stop?_origin tx.timers tx.timerH j t hj with ⟨t₀, hj₀, hk₀, harm, hfire, _⟩
      have hold : tx.timers.Ticking j k := by
        refine ⟨t₀, hj₀, hk₀.trans htk, ?_⟩
        rcases hphase with h | h
        · exact .inl (harm h).1
        · exact .inr (hfire h)
      rcases hs.completed hc j k ⟨hk, hold⟩ with ⟨hkH, hname⟩
      rcases hphase with h | h
      · exact (harm h).2 hname
      · exact hok hc t₀ (mem_of_getElem? hj₀) (hk₀.trans (htk.trans hkH)) (hfire h)
    simp only []
    split
    · exact keeps_end (active_of_ne hlive) _ _ rfl hquiet
    · refine ⟨⟨?_, ?_, ?_⟩, fun _ => active_of_ne hlive, fun h => Bool.noConfusion h⟩
      · have hnew : ∀ j k, (armTimerI now (stopTimers { tx with state := .Confirmed })).Due j k →
            j = (stopTimers { tx with state := .Confirmed }).timers.length := by
          intro j k hd
          rcases Timers.ticking_afterFunc hd.2 with ht | h
          · exact absurd ⟨hd.1, ht⟩ (hquiet j k)
          · exact h.1
        intro j j' k k' hd hd'
        rw [hnew j k hd, hnew j' k' hd']
      · exact fun hp => Bool.noConfusion hp
      · exact fun h => ISTState.noConfusion h
  · rw [if_pos hc]
    exact keeps_same hs tx _ (fun _ _ => id) rfl id id id

/-- `handleCancelRequest`. -/
theorem keeps_cancelRequest (hs : tx.Single) (now : Nat) (ev : MessageEvent) (hasHandler : Bool) :
    Keeps Single Active tx
      ⟨(tx.cancelRequest now ev hasHandler).tx, (tx.cancelRequest now ev hasHandler).sent,
        false⟩ := by
  unfold cancelRequest
  split
  · rename_i hp
    simp only []
    split
    · exact keeps_same hs _ _ (fun _ _ => id) rfl id id id
    · refine keeps_complete now _ _ rfl ?_ (ne_terminated_of_pending hp)
      rintro j k ⟨hk, ht⟩
      refine hs.quiet hp j k ⟨hk, ?_⟩
      exact (quieter_stopTimers _).ticking ht
  · split
    · split
      · exact keeps_same hs tx _ (fun _ _ => id) rfl id id id
      · exact keeps_same hs tx _ (fun _ _ => id) rfl id id id
    · exact keeps_same hs tx _ (fun _ _ => id) rfl id id id

/-- A timer fires. -/
theorem keeps_expire (hs : tx.Single) (i : Nat) (ts : Timers ISTTimer)
    (h : tx.timers.expire i = some ts) :
    Keeps Single Active tx ⟨{ tx with timers := ts }, [], false⟩ :=
  keeps_same hs _ _ (fun _ _ hd => ⟨hd.1, Timers.ticking_expire h hd.2⟩) rfl id id id

/-- A callback. After one that deletes there is none. -/
theorem keeps_callback (hs : tx.Single) (now i : Nat) (k : ISTTimer) (ts : Timers ISTTimer)
    (h : tx.timers.take i = some (k, ts)) :
    Keeps Single Active tx (timerCallback now { tx with timers := ts } k) := by
  rcases Timers.ticking_take h with ⟨htick, hrest⟩
  have hdue : ∀ j k, Due { tx with timers := ts } j k → tx.Due j k :=
    fun j k hd => ⟨hd.1, (hrest j k hd.2).1⟩
  -- the callback of H or I was the only one to come
  have hend : k ≠ .G → ∀ j k', ¬ Due { tx with timers := ts } j k' := by
    intro hk j k' hd
    exact (hrest j k' hd.2).2 (hs.one j i k' k (hdue j k' hd) ⟨hk, htick⟩)
  cases k with
  | G =>
    simp only [timerCallback]
    split
    · exact keeps_same hs _ _ hdue rfl id id id
    · refine keeps_same hs _ _ (fun j k hd => ?_) rfl id id id
      rcases Timers.ticking_afterFunc hd.2 with ht | ⟨_, hk⟩
      · exact hdue j k ⟨hd.1, ht⟩
      · exact absurd hk hd.1
  | H =>
    have hH : ISTTimer.H ≠ .G := fun h => ISTTimer.noConfusion h
    simp only [timerCallback]
    split
    · exact keeps_same hs _ _ hdue rfl id id id
    · refine keeps_end (Or.inr ⟨i, .H, hH, htick⟩) _ _ rfl ?_
      rintro j k ⟨hk, ht⟩
      exact hend hH j k ⟨hk, (quieter_stopTimers _).ticking ht⟩
  | I =>
    have hI : ISTTimer.I ≠ .G := fun h => ISTTimer.noConfusion h
    simp only [timerCallback]
    split
    · exact keeps_same hs _ _ hdue rfl id id id
    · exact keeps_end (Or.inr ⟨i, .I, hI, htick⟩) _ _ rfl (hend hI)

end InviteTransaction

/-! ### Other server transactions -/

namespace NonInviteTransaction

/-- The callback of timer J is still to come. -/
def Due (tx : NonInviteTransaction) (j : Nat) : Prop := tx.timers.Ticking j ()

/-- The transaction has not ended, or will be ended again. -/
def Active (tx : NonInviteTransaction) : Prop := tx.state ≠ .Terminated ∨ ∃ j, tx.Due j

/-- At most one callback is to come, none before the final response. -/
structure Single (tx : NonInviteTransaction) : Prop where
  one : ∀ j j', tx.Due j → tx.Due j' → j = j'
  quiet : tx.state = .Trying ∨ tx.state = .Proceeding → ∀ j, ¬ tx.Due j

variable {tx : NonInviteTransaction}

/-- No callback is added, and the transaction does not go back. -/
theorem keeps_same (hs : tx.Single) (tx' : NonInviteTransaction) (sent : List SIPMessage)
    (hdue : ∀ j, tx'.Due j → tx.Due j)
    (hquiet : tx'.state = .Trying ∨ tx'.state = .Proceeding →
      tx.state = .Trying ∨ tx.state = .Proceeding)
    (hactive : tx'.state ≠ .Terminated → tx.state ≠ .Terminated) :
    Keeps Single Active tx ⟨tx', sent, false⟩ := by
  refine ⟨⟨?_, ?_⟩, ?_, fun h => Bool.noConfusion h⟩
  · exact fun j j' hd hd' => hs.one j j' (hdue j hd) (hdue j' hd')
  · exact fun hq j hd => hs.quiet (hquiet hq) j (hdue j hd)
  · rintro (hst | ⟨j, hd⟩)
    · exact .inl (hactive hst)
    · exact .inr ⟨j, hdue j hd⟩

/-- `Respond`, unless it gives a second final response. -/
theorem keeps_respond (hs : tx.Single) (now : Nat) (res : SIPMessage)
    (hok : tx.state = .Completed → res.statusCode < 200) :
    Keeps Single Active tx (tx.respond now res) := by
  unfold respond
  simp only []
  by_cases ht : tx.state = .Terminated
  · rw [if_pos ht]
    exact keeps_same hs tx _ (fun _ => id) id id
  rw [if_neg ht]
  split
  · split
    · rename_i htry
      exact keeps_same hs _ _ (fun _ => id) (fun _ => Or.inl htry) (fun _ => ht)
    · exact keeps_same hs tx _ (fun _ => id) id id
  · split
    · rename_i h200
      have hquiet : ∀ j, ¬ tx.Due j := by
        refine hs.quiet ?_
        cases hst : tx.state with
        | Trying => exact .inl rfl
        | Proceeding => exact .inr rfl
        | Completed =>
          have := hok hst
          omega
        | Terminated => exact absurd hst ht
      have hdue : ∀ j, Due (armTimerJ now { tx with lastResp := some res, state := .Completed }) j →
          j = tx.timers.length := by
        intro j hd
        rcases Timers.ticking_afterFunc hd with h | h
        · exact absurd h (hquiet j)
        · exact h.1
      refine ⟨⟨?_, ?_⟩, fun _ => Or.inl ht, fun h => Bool.noConfusion h⟩
      · intro j j' hd hd'
        rw [hdue j hd, hdue j' hd']
      · rintro (h | h)
        · exact NISTState.noConfusion h
        · exact NISTState.noConfusion h
    · exact keeps_same hs tx _ (fun _ => id) id id

/-- A timer fires. -/
theorem keeps_expire (hs : tx.Single) (i : Nat) (ts : Timers Unit)
    (h : tx.timers.expire i = some ts) :
    Keeps Single Active tx ⟨{ tx with timers := ts }, [], false⟩ :=
  keeps_same hs _ _ (fun _ hd => Timers.ticking_expire h hd) id id

/-- The callback of timer J, after which there is none. -/
theorem keeps_callback (hs : tx.Single) (i : Nat) (ts : Timers Unit)
    (h : tx.timers.take i = some ((), ts)) :
    Keeps Single Active tx (timerCallback { tx with timers := ts }) := by
  rcases Timers.ticking_take h with ⟨htick, hrest⟩
  unfold timerCallback
  split
  · exact keeps_same hs _ _ (fun j hd => (hrest j () hd).1) id id
  · have hquiet : ∀ j, ¬ Due { tx with state := .Terminated, timers := ts } j := by
      intro j hd
      exact (hrest j () hd).2 (hs.one j i (hrest j () hd).1 htick)
    refine ⟨⟨fun j _ hd _ => absurd hd (hquiet j), fun _ => hquiet⟩, fun _ => Or.inr ⟨i, htick⟩,
      fun _ => ⟨Or.inr ⟨i, htick⟩, ?_⟩⟩
    rintro (hst | ⟨j, hd⟩)
    · exact hst rfl
    · exact hquiet j hd

end NonInviteTransaction

/-! ### Either kind -/

namespace ServerTx

/-- The transaction has not ended, or will be ended again. -/
def Active : ServerTx → Prop
  | invite tx => tx.Active
  | nonInvite tx => tx.Active

/-- At most one callback that deletes is to come. -/
def Single : ServerTx → Prop
  | invite tx => tx.Single
  | nonInvite tx => tx.Single

/-- A response that is no second final response. An INVITE transaction keeps one
    other than a 2xx and does nothing more with it. -/
def RespondOk (res : SIPMessage) : ServerTx → Prop
  | invite tx => tx.state = .Completed → ¬ (200 ≤ res.statusCode ∧ res.statusCode < 300)
  | nonInvite tx => tx.state = .Completed → res.statusCode < 200

/-- Timer H can still be stopped. -/
def AckOk : ServerTx → Prop
  | invite tx => tx.state = .Completed → ∀ t ∈ tx.timers, t.kind = .H → t.phase ≠ .fired
  | nonInvite _ => True

instance (res : SIPMessage) (tx : ServerTx) : Decidable (RespondOk res tx) := by
  cases tx <;> unfold RespondOk <;> infer_instance

instance (tx : ServerTx) : Decidable (AckOk tx) := by
  cases tx <;> unfold AckOk <;> infer_instance

theorem single_create (branch : Bytes) (ev : MessageEvent) (w : Transport) :
    (create branch ev w).Single := by
  have hnil : ∀ {κ : Type} (j : Nat) (k : κ), ¬ Timers.Ticking [] j k := by
    rintro κ j k ⟨t, hj, _⟩
    cases hj
  unfold create
  split
  · exact InviteTransaction.single_of_quiet fun j k hd => hnil j k hd.2
  · exact ⟨fun j _ hd _ => absurd hd (hnil j ()), fun _ j hd => hnil j () hd⟩

variable {tx : ServerTx}

theorem keeps_respond (hs : tx.Single) (now : Nat) (res : SIPMessage) (hok : tx.RespondOk res) :
    Keeps Single Active tx (tx.respond now res) := by
  cases tx with
  | invite tx =>
    have h := InviteTransaction.keeps_respond hs now res hok
    exact ⟨h.single, h.active, h.delete⟩
  | nonInvite tx =>
    have h := NonInviteTransaction.keeps_respond hs now res hok
    exact ⟨h.single, h.active, h.delete⟩

theorem keeps_ack (hs : tx.Single) (now : Nat) (hok : tx.AckOk) :
    Keeps Single Active tx (tx.ack now) := by
  cases tx with
  | invite tx =>
    have h := InviteTransaction.keeps_ackReceived hs now hok
    exact ⟨h.single, h.active, h.delete⟩
  | nonInvite tx => exact ⟨hs, id, fun h => Bool.noConfusion h⟩

theorem keeps_expire (hs : tx.Single) (now j : Nat) (tx' : ServerTx)
    (h : tx.expire now j = some tx') : Keeps Single Active tx ⟨tx', [], false⟩ := by
  cases tx with
  | invite tx =>
    simp only [expire] at h
    split at h
    · rcases map_eq_some_iff.mp h with ⟨ts, hts, rfl⟩
      have h := InviteTransaction.keeps_expire hs j ts hts
      exact ⟨h.single, h.active, h.delete⟩
    · contradiction
  | nonInvite tx =>
    simp only [expire] at h
    split at h
    · rcases map_eq_some_iff.mp h with ⟨ts, hts, rfl⟩
      have h := NonInviteTransaction.keeps_expire hs j ts hts
      exact ⟨h.single, h.active, h.delete⟩
    · contradiction

theorem keeps_callback (hs : tx.Single) (now j : Nat) (o : Outcome ServerTx)
    (h : tx.callback now j = some o) : Keeps Single Active tx o := by
  cases tx with
  | invite tx =>
    rcases map_eq_some_iff.mp h with ⟨p, hp, rfl⟩
    have h := InviteTransaction.keeps_callback hs now j p.1 p.2 hp
    exact ⟨h.single, h.active, h.delete⟩
  | nonInvite tx =>
    rcases map_eq_some_iff.mp h with ⟨p, hp, rfl⟩
    have h := NonInviteTransaction.keeps_callback hs j p.2 hp
    exact ⟨h.single, h.active, h.delete⟩

end ServerTx

/-! ### The table -/

/-- An active transaction, and one that is about to delete its entry, is the one
    the table has for its branch. A deletion comes from a transaction that is not
    active any more, and there is one for each of them. -/
structure OwnInv (s : Manager) : Prop where
  single : ∀ (i : Nat) (c : Entry), s.heap[i]? = some c → c.tx.Single
  deletes : ∀ p ∈ s.deletes, ∃ c, s.heap[p.2]? = some c ∧ c.tx.branch = p.1 ∧ ¬ c.tx.Active
  once : (s.deletes.map Prod.snd).Nodup
  stored : ∀ (i : Nat) (c : Entry), s.heap[i]? = some c →
    c.tx.Active ∨ i ∈ s.deletes.map Prod.snd → s.serverTxs.lookup c.tx.branch = some i

/-- Whatever entry is gone in `t` belonged to the transaction `r`. -/
def RemovesOwn (s t : Manager) (r : Option Nat) : Prop :=
  ∀ b i, s.serverTxs.lookup b = some i → t.serverTxs.lookup b = none → r = some i

theorem removesOwn_of_table {s t : Manager} (r : Option Nat) (h : t.serverTxs = s.serverTxs) :
    RemovesOwn s t r := by
  intro b i hi hnone
  rw [h, hi] at hnone
  cases hnone

/-- A step keeps the invariant, and what it removes belonged to `r`. -/
structure OwnStep (s t : Manager) (r : Option Nat) : Prop where
  inv : OwnInv t
  own : RemovesOwn s t r

/-- The entry that is erased was that of transaction `i`. -/
theorem removesOwn_of_erase {s t : Manager} {b : Bytes} {i : Nat}
    (hown : s.serverTxs.lookup b = some i) (h : t.serverTxs = s.serverTxs.erase b) :
    RemovesOwn s t (some i) := by
  intro b' j hj hnone
  by_cases hb : b' = b
  · rw [hb, hown] at hj
    exact hj
  · rw [h, (lookup_erase_eq_some _ _ _ _).mpr ⟨hb, hj⟩] at hnone
    contradiction

theorem branch_of_ident {tx tx' : ServerTx} (h : tx'.ident = tx.ident) :
    tx'.branch = tx.branch := by
  rw [ServerTx.branch_eq_ident, ServerTx.branch_eq_ident, h]

namespace OwnInv

variable {s t : Manager}

/-- Neither a transaction nor the table changes. -/
theorem same (h : OwnInv s) (hheap : t.heap = s.heap) (htable : t.serverTxs = s.serverTxs)
    (hdel : t.deletes = s.deletes) : OwnInv t := by
  refine ⟨?_, ?_, ?_, ?_⟩
  · rw [hheap]
    exact h.single
  · rw [hdel, hheap]
    exact h.deletes
  · rw [hdel]
    exact h.once
  · rw [hdel, hheap, htable]
    exact h.stored

/-- A transaction that is active makes no deletion at the moment. -/
theorem not_mem_deletes (h : OwnInv s) (i : Nat) (c : Entry) (hi : s.heap[i]? = some c)
    (ha : c.tx.Active) : i ∉ s.deletes.map Prod.snd := by
  intro hmem
  rcases List.mem_map.mp hmem with ⟨p, hp, rfl⟩
  rcases h.deletes p hp with ⟨d, hd, _, hna⟩
  rw [hi, some.injEq] at hd
  exact hna (hd ▸ ha)

/-- A locked section of transaction `i` that deletes the entry now, or not at
    all. -/
theorem now (h : OwnInv s) (i : Nat) (c : Entry) (o : Outcome ServerTx)
    (hi : s.heap[i]? = some c) (hk : Keeps ServerTx.Single ServerTx.Active c.tx o)
    (hid : o.tx.ident = c.tx.ident) (hheap : t.heap = (s.setTx i o.tx).heap)
    (hdel : t.deletes = s.deletes)
    (htable : t.serverTxs = if o.delete then s.serverTxs.erase o.tx.branch else s.serverTxs) :
    OwnStep s t (some i) := by
  have hbranch := branch_of_ident hid
  have hcell : ∀ (j : Nat) (c' : Entry), t.heap[j]? = some c' → ∃ d, s.heap[j]? = some d ∧
      (j = i ∧ c'.tx = o.tx ∨ j ≠ i ∧ c'.tx = d.tx) := by
    intro j c' hj
    rw [hheap] at hj
    rcases getElem?_setTx s j i o.tx c' hj with ⟨d, hd, _, hc⟩
    exact ⟨d, hd, hc⟩
  have hactive : ∀ (j : Nat) (c' d : Entry), s.heap[j]? = some d →
      (j = i ∧ c'.tx = o.tx ∨ j ≠ i ∧ c'.tx = d.tx) →
      c'.tx.branch = d.tx.branch ∧ (c'.tx.Active → d.tx.Active) := by
    rintro j c' d hd (⟨rfl, hc⟩ | ⟨_, hc⟩)
    · rw [hi, some.injEq] at hd
      rw [hc, ← hd]
      exact ⟨hbranch, hk.active⟩
    · rw [hc]
      exact ⟨rfl, id⟩
  have hstored : ∀ (j : Nat) (c' : Entry), t.heap[j]? = some c' →
      c'.tx.Active ∨ j ∈ s.deletes.map Prod.snd →
        s.serverTxs.lookup c'.tx.branch = some j := by
    intro j c' hj hor
    rcases hcell j c' hj with ⟨d, hd, hc⟩
    rcases hactive j c' d hd hc with ⟨hb, ha⟩
    rw [hb]
    exact h.stored j d hd (hor.imp_left ha)
  refine ⟨⟨?_, ?_, hdel ▸ h.once, ?_⟩, ?_⟩
  · intro j c' hj
    rcases hcell j c' hj with ⟨d, hd, ⟨_, hc⟩ | ⟨_, hc⟩⟩
    · rw [hc]
      exact hk.single
    · rw [hc]
      exact h.single j d hd
  · intro p hp
    rw [hdel] at hp
    rcases h.deletes p hp with ⟨d, hd, hb, hna⟩
    have hsome : ∃ c', t.heap[p.2]? = some c' := by
      rw [hheap, Manager.setTx, getElem?_modify, hd]
      exact ⟨_, rfl⟩
    rcases hsome with ⟨c', hc'⟩
    rcases hcell p.2 c' hc' with ⟨d', hd', hc⟩
    rw [hd, some.injEq] at hd'
    rw [← hd'] at hc
    rcases hactive p.2 c' d hd hc with ⟨hb', ha⟩
    exact ⟨c', hc', hb'.trans hb, fun hx => hna (ha hx)⟩
  · intro j c' hj hor
    rw [hdel] at hor
    have hlook := hstored j c' hj hor
    rw [htable]
    by_cases hd : o.delete = true
    · -- the transaction that deletes has its entry, so no other one has it
      rw [if_pos hd]
      refine (lookup_erase_eq_some _ _ _ _).mpr ⟨fun hb => ?_, hlook⟩
      have hown := h.stored i c hi (Or.inl (hk.delete hd).1)
      rw [hb, hbranch, hown, some.injEq] at hlook
      rcases hcell j c' hj with ⟨d, _, ⟨_, hc⟩ | ⟨hne, _⟩⟩
      · rcases hor with ha | hmem
        · exact (hk.delete hd).2 (hc ▸ ha)
        · exact h.not_mem_deletes i c hi (hk.delete hd).1 (hlook ▸ hmem)
      · exact hne hlook.symm
    · rw [if_neg hd]
      exact hlook
  · by_cases hd : o.delete = true
    · rw [if_pos hd, hbranch] at htable
      exact removesOwn_of_erase (h.stored i c hi (Or.inl (hk.delete hd).1)) htable
    · rw [if_neg hd] at htable
      exact removesOwn_of_table _ htable

/-- A locked section of transaction `i` that deletes the entry later, or not at
    all. -/
theorem commitLater (h : OwnInv s) (i : Nat) (c : Entry) (o : Outcome ServerTx)
    (hi : s.heap[i]? = some c) (hk : Keeps ServerTx.Single ServerTx.Active c.tx o)
    (hid : o.tx.ident = c.tx.ident) : OwnInv (s.commitLater i o) := by
  have hmid := (h.now i c ⟨o.tx, o.sent, false⟩ hi
    ⟨hk.single, hk.active, fun hd => Bool.noConfusion hd⟩ hid
    (t := (s.setTx i o.tx).observe (o.sent.map (ManagerObs.sent i))) rfl rfl rfl).1
  unfold Manager.commitLater
  simp only []
  split
  · rename_i hd
    rcases hk.delete hd with ⟨ha, hna⟩
    have hfresh := h.not_mem_deletes i c hi ha
    have hcell : (s.setTx i o.tx).heap[i]? = some { c with tx := o.tx } := by
      simp [Manager.setTx, hi]
    refine ⟨hmid.single, ?_, ?_, ?_⟩
    · intro p hp
      rcases mem_append.mp hp with hp | hp
      · exact hmid.deletes p hp
      · rw [mem_singleton.mp hp]
        exact ⟨_, hcell, rfl, hna⟩
    · change ((s.deletes ++ [(o.tx.branch, i)]).map Prod.snd).Nodup
      rw [map_append, nodup_append]
      refine ⟨h.once, nodup_singleton _, ?_⟩
      intro j hj j' hj' heq
      rw [map_singleton, mem_singleton] at hj'
      rw [heq, hj'] at hj
      exact hfresh hj
    · intro j c' hj hor
      rcases hor with ha' | hmem
      · exact hmid.stored j c' hj (Or.inl ha')
      · change j ∈ (s.deletes ++ [(o.tx.branch, i)]).map Prod.snd at hmem
        rw [map_append, mem_append] at hmem
        rcases hmem with hmem | hmem
        · exact hmid.stored j c' hj (Or.inr hmem)
        · -- the transaction was active, so it has its entry
          rw [map_singleton, mem_singleton] at hmem
          change (s.setTx i o.tx).heap[j]? = some c' at hj
          rw [hmem, hcell, some.injEq] at hj
          rw [← hj, hmem]
          change s.serverTxs.lookup o.tx.branch = some i
          rw [branch_of_ident hid]
          exact h.stored i c hi (Or.inl ha)
  · exact hmid

/-- A callback deletes the entry of its transaction. -/
theorem delete (h : OwnInv s) (k : Nat) (p : Bytes × Nat) (hp : s.deletes[k]? = some p) :
    OwnStep s { s.deleteTx p.1 with deletes := s.deletes.eraseIdx k } (some p.2) := by
  have hmem := mem_of_getElem? hp
  rcases h.deletes p hmem with ⟨c, hc, hb, hna⟩
  have hown : s.serverTxs.lookup p.1 = some p.2 := by
    rw [← hb]
    exact h.stored p.2 c hc (Or.inr (List.mem_map.mpr ⟨p, hmem, rfl⟩))
  have hmap : (s.deletes.eraseIdx k).map Prod.snd = (s.deletes.map Prod.snd).eraseIdx k :=
    (eraseIdx_map Prod.snd s.deletes k).symm
  have hgone : p.2 ∉ (s.deletes.map Prod.snd).eraseIdx k := by
    have hk : (s.deletes.map Prod.snd)[k]? = some p.2 := by
      rw [getElem?_map, hp]
      rfl
    intro hm
    rcases mem_eraseIdx_iff_getElem?.mp hm with ⟨l, hne, hl⟩
    have hlt : l < (s.deletes.map Prod.snd).length := (List.getElem?_eq_some_iff.mp hl).1
    exact hne ((getElem?_inj hlt h.once).mp (hl.trans hk.symm))
  refine ⟨⟨h.single, ?_, ?_, ?_⟩, removesOwn_of_erase hown rfl⟩
  · intro q hq
    exact h.deletes q (mem_of_mem_eraseIdx hq)
  · change ((s.deletes.eraseIdx k).map Prod.snd).Nodup
    rw [hmap]
    exact h.once.sublist (eraseIdx_sublist _ _)
  · intro j d hj hor
    have hor' : d.tx.Active ∨ j ∈ s.deletes.map Prod.snd := by
      refine hor.imp_right fun hm => ?_
      change j ∈ (s.deletes.eraseIdx k).map Prod.snd at hm
      rw [hmap] at hm
      exact mem_of_mem_eraseIdx hm
    refine (lookup_erase_eq_some _ _ _ _).mpr ⟨fun hbr => ?_, h.stored j d hj hor'⟩
    -- the transaction with this entry is the one that deletes, and it is done
    have hlook := h.stored j d hj hor'
    rw [hbr, hown, some.injEq] at hlook
    rw [← hlook] at hj
    change s.heap[p.2]? = some d at hj
    rw [hc, some.injEq] at hj
    rcases hor with ha | hm
    · exact hna (hj ▸ ha)
    · change j ∈ (s.deletes.eraseIdx k).map Prod.snd at hm
      rw [hmap, ← hlook] at hm
      exact hgone hm

/-- A transaction is stored under a branch that has no entry. -/
theorem insert (h : OwnInv s) (w : Transport) (ev : MessageEvent) (x : Worker) (branch : Bytes)
    (hnone : s.serverTxs.lookup branch = none) (r : Option Nat) :
    OwnStep s { s.setWorker w x with
      heap := s.heap ++ [⟨ev.msg, ServerTx.create branch ev w⟩]
      serverTxs := s.serverTxs.insert branch s.heap.length } r := by
  refine ⟨⟨?_, ?_, h.once, ?_⟩, ?_⟩
  · intro j c hj
    rcases (getElem?_append_singleton _ _ _ _).mp hj with hj | ⟨_, rfl⟩
    · exact h.single j c hj
    · exact ServerTx.single_create branch ev w
  · intro p hp
    rcases h.deletes p hp with ⟨c, hc, hbr, hna⟩
    exact ⟨c, getElem?_append_of_some _ hc, hbr, hna⟩
  · intro j c hj hor
    change (s.serverTxs.insert branch s.heap.length).lookup c.tx.branch = some j
    rcases (getElem?_append_singleton _ _ _ _).mp hj with hj | ⟨hlen, rfl⟩
    · have hlook := h.stored j c hj hor
      have hne : c.tx.branch ≠ branch := by
        intro hbr
        rw [hbr, hnone] at hlook
        cases hlook
      rw [AList.lookup_insert_ne hne]
      exact hlook
    · have hbr : (ServerTx.create branch ev w).branch = branch := by
        rw [ServerTx.branch_eq_ident, ServerTx.create_ident]
      rw [hbr, AList.lookup_insert, hlen]
  · intro b i hi hgone
    change (s.serverTxs.insert branch s.heap.length).lookup b = none at hgone
    by_cases hbb : b = branch
    · rw [hbb, AList.lookup_insert] at hgone
      cases hgone
    · rw [AList.lookup_insert_ne hbb, hi] at hgone
      cases hgone

end OwnInv

/-! ### Every event -/

section Events

variable [UnicodeLower]

/-- What a step must meet for the entries to be deleted by their owners. -/
def OwnerOk (s : Manager) : ManagerEvent → Prop
  | .respond i res => ∀ c ∈ s.heap[i]?, c.tx.RespondOk res
  | .proceed w =>
    match s.worker w with
    | .missed ev _ => ∀ b ∈ ev.msg.viaBranch, s.serverTxs.lookup b = none
    | .acking i => ∀ c ∈ s.heap[i]?, c.tx.AckOk
    | _ => True
  | _ => True

instance (s : Manager) : (e : ManagerEvent) → Decidable (OwnerOk s e)
  | .respond i _ => inferInstanceAs (Decidable (∀ c ∈ s.heap[i]?, _))
  | .proceed w =>
    match h : s.worker w with
    | .missed ev _ => decidable_of_iff (∀ b ∈ ev.msg.viaBranch, s.serverTxs.lookup b = none)
        (by simp only [OwnerOk, h])
    | .acking i => decidable_of_iff (∀ c ∈ s.heap[i]?, c.tx.AckOk) (by simp only [OwnerOk, h])
    | .idle | .found .. | .inserted .. | .cancelled .. | .handling =>
      isTrue (by simp only [OwnerOk, h])
  | .tick _ | .request .. | .ack .. | .expire .. | .callback .. | .delete _ => isTrue trivial

/-- The transaction whose code runs in a step, if it may delete an entry. -/
def Manager.remover (s : Manager) : ManagerEvent → Option Nat
  | .respond i _ => some i
  | .proceed w =>
    match s.worker w with
    | .acking i => some i
    | _ => none
  | .delete k => s.deletes[k]?.map Prod.snd
  | _ => none

omit [UnicodeLower] in
theorem ownInv_init : OwnInv Manager.init where
  single i c hi := by cases hi
  deletes p hp := by cases hp
  once := nodup_nil
  stored i c hi := by cases hi

omit [UnicodeLower] in
theorem OwnInv.unchanged {s t : Manager} {r : Option Nat} (h : OwnInv s) (hheap : t.heap = s.heap)
    (htable : t.serverTxs = s.serverTxs) (hdel : t.deletes = s.deletes) : OwnStep s t r :=
  ⟨h.same hheap htable hdel, removesOwn_of_table r htable⟩

omit [UnicodeLower] in
theorem ownInv_cancel (s : Manager) (h : OwnInv s) (w : Transport) (ev : MessageEvent) (i : Nat)
    (c : Entry) (hi : s.heap[i]? = some c) (hasHandler : Bool) (r : Option Nat) :
    OwnStep s (s.cancel w ev i hasHandler c.tx) r := by
  have hs := h.single i c hi
  rcases hc : c.tx with tx | tx
  · rw [hc] at hs
    have hk := InviteTransaction.keeps_cancelRequest hs s.now ev hasHandler
    have hnow := h.now i c ⟨.invite (tx.cancelRequest s.now ev hasHandler).tx, [], false⟩ hi
      (by rw [hc]; exact ⟨hk.single, hk.active, fun hd => Bool.noConfusion hd⟩)
      (by rw [hc, ServerTx.ident, ServerTx.ident, InviteTransaction.cancelRequest_ident])
      (t := s.cancel w ev i hasHandler (.invite tx)) rfl rfl rfl
    exact ⟨hnow.1, removesOwn_of_table r rfl⟩
  · exact h.unchanged rfl rfl rfl

/-- Every step that meets the condition keeps the invariant, and an entry that
    goes belonged to the transaction whose code runs. -/
theorem ownInv_step (s t : Manager) (e : ManagerEvent) (h : OwnInv s) (hok : OwnerOk s e)
    (ht : managerStep s e = some t) : OwnStep s t (s.remover e) := by
  cases managerStep_cases ht with
  | tick | ignored | found | refused | missed | passed | acking | absorb | call | rest =>
    exact h.unchanged rfl rfl rfl
  | cancel hw hc => exact ownInv_cancel s h _ _ _ _ hc _ _
  | insert hw hb =>
    simp only [OwnerOk, hw] at hok
    exact h.insert _ _ _ _ (hok _ hb) _
  | confirm hw hc =>
    simp only [OwnerOk, hw] at hok
    have hk := ServerTx.keeps_ack (h.single _ _ hc) s.now (hok _ hc)
    rw [commit_eq]
    simp only [Manager.remover, hw]
    exact h.now _ _ _ hc hk (ServerTx.ack_ident s.now _) rfl rfl rfl
  | respond hc =>
    have hk := ServerTx.keeps_respond (h.single _ _ hc) s.now _ (hok _ hc)
    rw [commit_eq]
    exact h.now _ _ _ hc hk (ServerTx.respond_ident s.now _ _) rfl rfl rfl
  | expire hc htx =>
    have hk := ServerTx.keeps_expire (h.single _ _ hc) s.now _ _ htx
    exact ⟨(h.now _ _ _ hc hk (ServerTx.expire_ident s.now _ _ _ htx) rfl rfl rfl).1,
      removesOwn_of_table _ rfl⟩
  | callback hc ho =>
    have hk := ServerTx.keeps_callback (h.single _ _ hc) s.now _ _ ho
    refine ⟨h.commitLater _ _ _ hc hk (ServerTx.callback_ident s.now _ _ _ ho), ?_⟩
    rw [commitLater_eq]
    exact removesOwn_of_table _ rfl
  | delete hp =>
    simp only [Manager.remover, hp]
    exact h.delete _ _ hp

/-- In every run that meets the condition, a table entry that goes in a step was
    that of the transaction whose code made the deletion. -/
theorem deletes_own_entry (es : List ManagerEvent) (s t : Manager) (e : ManagerEvent)
    (hrun : Run managerStep OwnerOk Manager.init es s) (hok : OwnerOk s e)
    (hstep : managerStep s e = some t) (b : Bytes) (i : Nat)
    (hi : s.serverTxs.lookup b = some i) (hgone : t.serverTxs.lookup b = none) :
    s.remover e = some i := by
  have hinv : OwnInv s := hrun.invariant OwnInv ownInv_init
    (fun s e u h hok hstep => (ownInv_step s u e h hok hstep).1)
  exact (ownInv_step s t e hinv hok hstep).2 b i hi hgone

end Events

/-- The branch of the sample requests. -/
def reusedBranch : Bytes := ascii "z9hG4bK1"

/-- A request reaches its handler in a new transaction. -/
def arrives (method : SIPMethod) : List ManagerEvent :=
  [.request .udp (sampleRequest method "alice" "z9hG4bK1") true, .proceed .udp, .proceed .udp,
    .proceed .udp]

/-- A response to the sample request. -/
def reply (method : SIPMethod) (code : Int64) : SIPMessage :=
  newResponse (sampleRequest method "alice" "z9hG4bK1").msg code []

/-- `64*T1` later timer `j` of transaction 0 fires and its callback runs up to
    the deletion. -/
def timesOut (j : Nat) : List ManagerEvent :=
  [.tick 32000000000, .expire 0 j, .callback 0 j]

/-- A call is rejected and nobody acknowledges it. -/
def unacknowledged : List ManagerEvent :=
  arrives .INVITE ++ [.respond 0 (reply .INVITE 486)] ++ timesOut 0

open Samples

theorem deletes_own_entry_unacknowledged :
    ∃ s t, Run managerStep OwnerOk Manager.init unacknowledged s ∧
      managerStep s (.delete 0) = some t ∧ s.serverTxs.lookup reusedBranch = some 0 ∧
      t.serverTxs.lookup reusedBranch = none ∧ s.remover (.delete 0) = some 0 := by
  have hex : ∃ s, Run managerStep OwnerOk Manager.init unacknowledged s ∧
      (s.serverTxs.lookup reusedBranch = some 0 ∧ (managerStep s (.delete 0)).any (fun t =>
        decide (t.serverTxs.lookup reusedBranch = none)) = true) :=
    exists_run_of_exec (by decide +kernel)
  rcases hex with ⟨s, hrun, hi, hstep⟩
  rcases (Option.any_eq_true _ _).mp hstep with ⟨t, ht, hgone⟩
  rw [decide_eq_true_eq] at hgone
  exact ⟨s, t, hrun, ht, hi, hgone,
    deletes_own_entry unacknowledged s t (.delete 0) hrun trivial ht reusedBranch 0 hi hgone⟩

/-- In the step `e` transaction 0 deletes the entry of transaction 1. -/
def Manager.deletesOther (s : Manager) (e : ManagerEvent) : Bool :=
  decide (s.serverTxs.lookup reusedBranch = some 1) && decide (s.remover e = some 0) &&
    (managerStep s e).any (fun t => decide (t.serverTxs.lookup reusedBranch = none))

/-- A request is answered twice, which makes two timers J. The branch is used
    again between their callbacks. -/
def answeredTwice : List ManagerEvent :=
  arrives .OPTIONS ++ [.respond 0 (reply .OPTIONS 200), .respond 0 (reply .OPTIONS 200)] ++
    timesOut 0 ++ [.delete 0] ++ arrives .OPTIONS ++ [.expire 0 1, .callback 0 1]

/-- A call is rejected and then accepted, which leaves timer H. The branch is
    used again before it fires. -/
def acceptedAfterAll : List ManagerEvent :=
  arrives .INVITE ++ [.respond 0 (reply .INVITE 486), .respond 0 (reply .INVITE 200)] ++
    arrives .INVITE ++ timesOut 0

/-- The ACK arrives when timer H has fired and its callback waits, so that timer
    I runs as well. The branch is used again between their callbacks. -/
def acknowledgedLate : List ManagerEvent :=
  arrives .INVITE ++ [.respond 0 (reply .INVITE 486), .tick 32000000000, .expire 0 0,
    .ack .udp (sampleRequest .ACK "alice" "z9hG4bK1"), .proceed .udp, .tick 5000000000,
    .expire 0 2, .callback 0 0, .delete 0] ++ arrives .INVITE ++ [.callback 0 2]

/-- Both dispatch goroutines look the branch up before either has stored its
    transaction. -/
def storedTwice : List ManagerEvent :=
  [.request .udp (sampleRequest .INVITE "alice" "z9hG4bK1") true,
    .request .tcp (sampleRequest .INVITE "alice" "z9hG4bK1") true, .proceed .udp, .proceed .tcp]

/-- Without the condition a transaction deletes the entry of a later one. -/
theorem deletes_own_entry_fails :
    (∀ es ∈ [answeredTwice, acceptedAfterAll, acknowledgedLate],
      ∃ s, Run managerStep (fun _ _ => True) Manager.init es s ∧
        s.deletesOther (.delete 0) = true) ∧
    ∃ s, Run managerStep (fun _ _ => True) Manager.init storedTwice s ∧
      s.deletesOther (.respond 0 (reply .INVITE 200)) = true := by
  refine ⟨?_, exists_run_of_exec (by decide +kernel)⟩
  intro es hes
  simp only [mem_cons, not_mem_nil, or_false] at hes
  rcases hes with rfl | rfl | rfl
  · exact exists_run_of_exec (by decide +kernel)
  · exact exists_run_of_exec (by decide +kernel)
  · exact exists_run_of_exec (by decide +kernel)

end Sip

end Trecs
