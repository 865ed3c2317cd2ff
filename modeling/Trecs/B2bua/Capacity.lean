import Trecs.B2bua.Channels

/-!
# The Limit of a Trunk

`max_channels` of `internal/trunk/config.go` in every run of the exchange. Calls
may share Call-IDs, and they may ring, be cancelled, hang up and run out in any
order: nothing is asked of a step.

A channel can be given back twice, but `ReleaseChannel` stops at zero and
`AcquireChannel` compares the count before it adds to it. So no count is ever
above the limit, and a channel is counted until one is given back.

## Main definitions

* `Ledger`, `Ledger.Move`: The channels, and what can happen to them.
* `Ledger.Within`: The bounds on the counts.

## Theorems

* `move_step`: The steps of the exchange are moves of its ledger.
* `within_of_run`: The bounds in every run.
-/

namespace Trecs

open List Option

namespace B2bua

open Proto Sip Trunks

/-- The counts of the trunks, and for which of them a channel was granted and
    given back. -/
structure Ledger where
  mgr : TrunkManager
  acquired : List Bytes
  released : List Bytes

def Exchange.ledger (s : Exchange) : Ledger := ⟨s.mgr, s.acquired, s.released⟩

namespace Ledger

/-- Nothing, a grant or a return. -/
inductive Move : Ledger → Ledger → Prop
  | keep (c : Ledger) : Move c c
  | acquire (c : Ledger) (name : Bytes) (m : TrunkManager)
      (h : c.mgr.acquireChannel name = some m) : Move c ⟨m, c.acquired ++ [name], c.released⟩
  | release (c : Ledger) (name : Bytes) :
      Move c ⟨c.mgr.releaseChannel name, c.acquired, c.released ++ [name]⟩

/-- The trunks are the configured ones and none is over its limit, where 0 is no
    limit. The channels that have not been given back are counted. -/
structure Within (trunks : AList (fun _ : Bytes => Trunk)) (c : Ledger) : Prop where
  trunks_eq : c.mgr.trunks = trunks
  limit : ∀ name trk, trunks.lookup name = some trk → trk.maxChannels ≠ 0 →
    (c.mgr.active name : Int) ≤ max 0 trk.maxChannels
  counted : ∀ name, c.acquired.count name ≤ c.released.count name + c.mgr.active name

end Ledger

/-! ### Steps -/

/-- `AcquireChannel` grants a channel of a known trunk that is below its limit. -/
theorem below_of_acquireChannel {m m' : TrunkManager} {name : Bytes}
    (h : m.acquireChannel name = some m') : ∃ trk, m.trunks.lookup name = some trk ∧
      (trk.maxChannels = 0 ∨ (m.active name : Int) < trk.maxChannels) := by
  unfold TrunkManager.acquireChannel at h
  rcases hlook : m.trunks.lookup name with _ | trk
  · rw [hlook] at h
    cases h
  · refine ⟨trk, rfl, ?_⟩
    rw [hlook] at h
    by_cases hzero : trk.maxChannels = 0
    · exact .inl hzero
    · simp only [if_neg hzero] at h
      exact .inr (Int.not_le.mp (fun hle => by rw [if_pos hle] at h; cases h))

theorem Ledger.Within.move {trunks : AList (fun _ : Bytes => Trunk)} {c d : Ledger}
    (hc : c.Within trunks) (hmove : Move c d) : d.Within trunks := by
  cases hmove with
  | keep => exact hc
  | acquire name m h =>
    rcases below_of_acquireChannel h with ⟨trk', hlook', hbelow⟩
    have hactive := fun t => c.mgr.active_acquireChannel m name t h
    rw [hc.trunks_eq] at hlook'
    refine ⟨?_, fun t trk hlook hne => ?_, fun t => ?_⟩
    · rw [c.mgr.acquireChannel_eq m name h]
      exact hc.trunks_eq
    · have hlim := hc.limit t trk hlook hne
      rw [hactive]
      by_cases ht : name = t
      · -- The trunk that is granted a channel was below its limit.
        rw [← ht, hlook'] at hlook
        cases hlook
        rw [if_pos ht, ← ht]
        omega
      · rw [if_neg ht]
        exact hlim
    · have hcounted := hc.counted t
      rw [hactive, count_append, count_singleton]
      simp only [beq_iff_eq]
      omega
  | release name =>
    have hactive := c.mgr.active_releaseChannel name
    refine ⟨?_, fun t trk hlook hne => ?_, fun t => ?_⟩
    · rw [← hc.trunks_eq]
      unfold TrunkManager.releaseChannel
      split
      · rfl
      · rfl
    · have hlim := hc.limit t trk hlook hne
      rw [hactive]
      omega
    · have hcounted := hc.counted t
      rw [hactive, count_append, count_singleton]
      simp only [beq_iff_eq]
      omega

section Steps

variable [SdpCodec] {s t : Exchange}

theorem move_perform {h : Handler} {env : LoopEnv} {l : TrunkLeg} {a : Action}
    {o : Exchange × List Action} (ho : s.perform h env l a = some o) :
    Ledger.Move s.ledger o.1.ledger := by
  cases a with
  | release name =>
    cases ho
    exact .release _ name
  | answer resp =>
    rcases map_eq_some_iff.mp ho with ⟨st, _, rfl⟩
    exact .keep _
  | _ =>
    cases ho
    exact .keep _

/-- Only an INVITE takes a channel. A loop and a teardown can give one back. -/
theorem move_step [UnicodeLower] {h : Handler} {e : ExchangeEvent}
    (hstep : exchangeStep h s e = some t) : Ledger.Move s.ledger t.ledger := by
  cases e with
  | invite env req trk dest toAddr =>
    simp only [exchangeStep, Exchange.invite] at hstep
    split at hstep
    · cases hstep
      exact .keep _
    · rename_i mgr hacq
      split at hstep
      · cases hstep
      · cases hstep
        exact .acquire s.ledger trk.name mgr hacq
      · cases hstep
        exact .acquire s.ledger trk.name mgr hacq
  | sent i sendFails =>
    rcases map_eq_some_iff.mp hstep with ⟨q, _, rfl⟩
    split
    · exact .keep _
    · exact .keep _
  | takeResponse i env resp | takeError i =>
    rcases map_eq_some_iff.mp hstep with ⟨q, _, rfl⟩
    exact .keep _
  | takeDone i | expire j | stopTimer j =>
    rcases bind_eq_some_iff.mp hstep with ⟨q, _, hd⟩
    split at hd
    · cases hd
      exact .keep _
    · cases hd
  | act i env =>
    rcases bind_eq_some_iff.mp hstep with ⟨l, _, hact⟩
    split at hact
    · cases hact
      exact .keep _
    · rcases map_eq_some_iff.mp hact with ⟨o, ho, rfl⟩
      exact move_perform ho
    · cases hact
  | cancel req | bye req =>
    cases hstep
    exact .keep _
  | cancelStep k =>
    rcases map_eq_some_iff.mp hstep with ⟨c, _, rfl⟩
    cases c with
    | _ => exact .keep _
  | teardown j rnd =>
    rcases bind_eq_some_iff.mp hstep with ⟨td, _, hd⟩
    rcases map_eq_some_iff.mp hd with ⟨o, ho, rfl⟩
    unfold Exchange.teardownStep at ho
    split at ho
    · cases ho
    · split at ho
      · cases ho
        exact .keep _
      · cases ho
        exact .keep _
    · cases ho
      exact .keep _
    · cases ho
      exact .release s.ledger _

end Steps

/-! ### Runs -/

/-- Whatever happens, no trunk is over its limit. -/
theorem within_of_run [SdpCodec] [UnicodeLower] (h : Handler)
    (trunks : AList (fun _ : Bytes => Trunk)) (es : List ExchangeEvent) (s : Exchange)
    (hrun : Run (exchangeStep h) (fun _ _ => True) (Exchange.start trunks) es s) :
    s.ledger.Within trunks :=
  hrun.invariant (fun s => s.ledger.Within trunks)
    ⟨rfl, fun _ _ _ _ => Int.le_max_left .., fun _ => Nat.zero_le _⟩
    (fun _ _ _ hs _ hstep => hs.move (move_step hstep))

open Samples

theorem within_of_run_bothHangUp :
    ∃ s, Run (exchangeStep plainHandler) (fun _ _ => True) (Exchange.start bothTrunks)
        bothHangUp s ∧
      s.released.length = 2 ∧ s.ledger.Within bothTrunks :=
  exists_run_and (by decide +kernel) (fun s hrun _ => within_of_run _ _ _ s hrun)

end B2bua

end Trecs
