import Trecs.Lib.Timer

/-!
# Timers that Schedule Themselves Again

A retransmission timer is one timer after another: the callback does its work
and makes the next timer, and a variable holds the last one that was made, so
that it can be stopped. The timers of one such chain have the same `kind`.

A timer is live while it is armed or its callback has yet to run. A chain is
`Idle` when none of its timers is live, and then nothing happens until someone
makes a new timer. `OneChain` says that the chain has not forked: the armed
timer is the one the variable holds, and while a callback has yet to run nothing
else of the chain is live. Then stopping the timer the variable holds makes the
chain idle, unless a callback has yet to run, which no stop can prevent.

## Main definitions

* `Timer.Live`: A timer whose callback may still run.
* `Timers.Idle`: No timer of a kind is live.
* `Timers.NoneFired`: No callback of a kind has yet to run.
* `Timers.OneChain`: At most one timer of a kind is live, and the variable
  holds it while it is armed.

## Theorems

* `Timers.idle_stop`: Stopping the timer of a chain that has not forked.
* `Timers.OneChain.expire`, `Timers.OneChain.afterFunc`: The chain goes on.
-/

namespace Trecs

open List Option

/-- The callback of the timer may still run. -/
def Timer.Live {κ : Type*} (t : Timer κ) : Prop := t.phase = .armed ∨ t.phase = .fired

namespace Timers

variable {κ : Type*}

/-- No timer of kind `k` is live. -/
def Idle (ts : Timers κ) (k : κ) : Prop :=
  ∀ (j : Nat) (t : Timer κ), ts[j]? = some t → t.kind = k → ¬ t.Live

/-- No callback of kind `k` has yet to run. -/
def NoneFired (ts : Timers κ) (k : κ) : Prop := ∀ t ∈ ts, t.kind = k → t.phase ≠ .fired

instance [DecidableEq κ] (ts : Timers κ) (k : κ) : Decidable (NoneFired ts k) :=
  inferInstanceAs (Decidable (∀ t ∈ ts, t.kind = k → t.phase ≠ .fired))

/-- An armed timer of kind `k` is the one `held`, and while a callback of kind
    `k` has yet to run no other timer of this kind is live. -/
structure OneChain (ts : Timers κ) (k : κ) (held : Option Nat) : Prop where
  armed : ∀ (j : Nat) (t : Timer κ), ts[j]? = some t → t.kind = k → t.phase = .armed →
    held = some j
  fired : ∀ (j j' : Nat) (t t' : Timer κ), ts[j]? = some t → ts[j']? = some t' → t.kind = k →
    t'.kind = k → t.phase = .fired → t'.Live → j' = j

variable {ts ts' : Timers κ} {k k' : κ} {held : Option Nat}

theorem Quieter.live (h : Quieter ts ts') (j : Nat) (t' : Timer κ) (hj : ts'[j]? = some t')
    (hl : t'.Live) : ∃ t, ts[j]? = some t ∧ t.kind = t'.kind ∧ t.Live := by
  rcases h.back j t' hj with ⟨t, ht, hk, ha, hf, _⟩
  rcases hl with hl | hl
  · exact ⟨t, ht, hk, .inl (ha hl)⟩
  · exact ⟨t, ht, hk, .inr (hf hl)⟩

theorem Idle.quieter (h : Idle ts k) (hq : Quieter ts ts') : Idle ts' k := by
  intro j t' hj hk hl
  rcases hq.live j t' hj hl with ⟨t, ht, hkind, hlive⟩
  exact h j t ht (hkind.trans hk) hlive

theorem OneChain.quieter (h : OneChain ts k held) (hq : Quieter ts ts') :
    OneChain ts' k held where
  armed := by
    intro j t' hj hk ha
    rcases hq.back j t' hj with ⟨t, ht, hkind, harmed, _⟩
    exact h.armed j t ht (hkind.trans hk) (harmed ha)
  fired := by
    intro j j' t t' hj hj' hk hk' hf hl
    rcases hq.back j t hj with ⟨v, hv, hkind, _, hfired, _⟩
    rcases hq.live j' t' hj' hl with ⟨v', hv', hkind', hlive⟩
    exact h.fired j j' v v' hv hv' (hkind.trans hk) (hkind'.trans hk') (hfired hf) hlive

theorem Idle.oneChain (h : Idle ts k) (held : Option Nat) : OneChain ts k held where
  armed := fun j t hj hk ha => absurd (.inl ha) (h j t hj hk)
  fired := fun j _ t _ hj _ hk _ hf _ => absurd (.inr hf) (h j t hj hk)

/-- Stopping the timer the variable holds makes the chain idle when no callback
    has yet to run. -/
theorem idle_stop (h : OneChain ts k held) (hf : NoneFired ts k) : Idle (ts.stop? held) k := by
  intro j t hj hk hl
  rcases stop?_origin ts held j t hj with ⟨t0, h0, hkind, harmed, hfired, _⟩
  rcases hl with hl | hl
  · exact (harmed hl).2 (h.armed j t0 h0 (hkind.trans hk) (harmed hl).1)
  · exact hf t0 (mem_of_getElem? h0) (hkind.trans hk) (hfired hl)

/-- Running its callback makes the chain idle. -/
theorem idle_take (i : Nat) (h : OneChain ts k held) (htake : ts.take i = some (k, ts')) :
    Idle ts' k := by
  rcases (take_eq_some_iff ts ts' i k).mp htake with ⟨t, hi, hfired, hkind, hset⟩
  intro j t' hj hk hl
  rw [hset] at hj
  rcases getElem?_set_cases ts i j t' _ hj with ⟨_, ht⟩ | ⟨hne, hj0⟩
  · rw [ht] at hl
    rcases hl with hl | hl
    · exact Phase.noConfusion hl
    · exact Phase.noConfusion hl
  · exact hne (h.fired i j t t' hi hj0 hkind.symm hk hfired hl)

/-- A callback that runs was live. -/
theorem not_idle_of_take (i : Nat) (htake : ts.take i = some (k, ts')) : ¬ Idle ts k := by
  rcases (take_eq_some_iff ts ts' i k).mp htake with ⟨t, hi, hfired, hkind, _⟩
  exact fun h => h i t hi hkind.symm (.inr hfired)

/-- A new timer leaves the chains of other kinds idle. -/
theorem Idle.afterFunc (h : Idle ts k') (now d : Nat) (hne : k' ≠ k) :
    Idle (ts.afterFunc now d k) k' := by
  intro j t hj hk
  rcases getElem?_afterFunc ts now d k j t hj with hj0 | ⟨_, ht⟩
  · exact h j t hj0 hk
  · rw [ht] at hk
    exact absurd hk.symm hne

/-- The chain goes on with a new timer. -/
theorem OneChain.start (h : Idle ts k) (now d : Nat) :
    OneChain (ts.afterFunc now d k) k (some ts.length) where
  armed := by
    intro j t hj hk ha
    rcases getElem?_afterFunc ts now d k j t hj with hj0 | ⟨hlen, _⟩
    · exact absurd (.inl ha) (h j t hj0 hk)
    · rw [hlen]
  fired := by
    intro j j' t t' hj _ hk _ hf _
    rcases getElem?_afterFunc ts now d k j t hj with hj0 | ⟨_, ht⟩
    · exact absurd (.inr hf) (h j t hj0 hk)
    · rw [ht] at hf
      exact Phase.noConfusion hf

/-- A new timer does nothing to the chains of other kinds. -/
theorem OneChain.afterFunc (h : OneChain ts k' held) (now d : Nat) (hne : k' ≠ k) :
    OneChain (ts.afterFunc now d k) k' held where
  armed := by
    intro j t hj hk ha
    rcases getElem?_afterFunc ts now d k j t hj with hj0 | ⟨_, ht⟩
    · exact h.armed j t hj0 hk ha
    · rw [ht] at hk
      exact absurd hk.symm hne
  fired := by
    intro j j' t t' hj hj' hk hk' hf hl
    rcases getElem?_afterFunc ts now d k j t hj with hj0 | ⟨_, ht⟩
    · rcases getElem?_afterFunc ts now d k j' t' hj' with hj0' | ⟨_, ht'⟩
      · exact h.fired j j' t t' hj0 hj0' hk hk' hf hl
      · rw [ht'] at hk'
        exact absurd hk'.symm hne
    · rw [ht] at hk
      exact absurd hk.symm hne

/-- A timer that is live after another one expired was live before. -/
theorem live_of_expire (i : Nat) (hexp : ts.expire i = some ts') (j : Nat) (t' : Timer κ)
    (hj : ts'[j]? = some t') (hl : t'.Live) :
    ∃ t, ts[j]? = some t ∧ t.kind = t'.kind ∧ t.Live ∧ (j ≠ i → t = t') := by
  rcases (expire_eq_some_iff ts ts' i).mp hexp with ⟨t, hi, harmed, hset⟩
  rw [hset] at hj
  rcases getElem?_set_cases ts i j t' _ hj with ⟨hji, ht⟩ | ⟨_, hj0⟩
  · refine ⟨t, hji ▸ hi, ?_, .inl harmed, fun hne => absurd hji hne⟩
    rw [ht]
  · exact ⟨t', hj0, rfl, hl, fun _ => rfl⟩

theorem Idle.expire (h : Idle ts k) (i : Nat) (hexp : ts.expire i = some ts') : Idle ts' k := by
  intro j t' hj hk hl
  rcases live_of_expire i hexp j t' hj hl with ⟨t, ht, hkind, hlive, _⟩
  exact h j t ht (hkind.trans hk) hlive

theorem OneChain.expire (h : OneChain ts k held) (i : Nat) (hexp : ts.expire i = some ts') :
    OneChain ts' k held := by
  rcases (expire_eq_some_iff ts ts' i).mp hexp with ⟨v, hi, harmed, hset⟩
  -- The timer that expired is the only one of its kind that was live.
  have honly : v.kind = k → ∀ (j : Nat) (t : Timer κ), ts[j]? = some t → t.kind = k → t.Live →
      j = i := by
    intro hv j t hj hk hl
    rcases hl with hl | hl
    · have hij := (h.armed j t hj hk hl).symm.trans (h.armed i v hi hv harmed)
      exact some.inj hij
    · exact (h.fired j i t v hj hi hk hv hl (.inl harmed)).symm
  refine ⟨?_, ?_⟩
  · intro j t' hj hk ha
    rcases live_of_expire i hexp j t' hj (.inl ha) with ⟨t, ht, hkind, _, hsame⟩
    by_cases hji : j = i
    · rw [hset] at hj
      rcases getElem?_set_cases ts i j t' _ hj with ⟨_, ht'⟩ | ⟨hne, _⟩
      · rw [ht'] at ha
        exact Phase.noConfusion ha
      · exact absurd hji hne
    · rw [hsame hji] at ht
      exact h.armed j t' ht hk ha
  · intro j j' t t' hj hj' hk hk' hf hl
    rcases live_of_expire i hexp j t hj (.inr hf) with ⟨u, hu, hkind, hlive, hsame⟩
    rcases live_of_expire i hexp j' t' hj' hl with ⟨u', hu', hkind', hlive', _⟩
    by_cases hji : j = i
    · have hv : v.kind = k := by
        rw [hji, hi, some.injEq] at hu
        rw [hu, hkind, hk]
      rw [hji]
      exact honly hv j' u' hu' (hkind'.trans hk') hlive'
    · rw [hsame hji] at hu
      exact h.fired j j' t u' hu hu' hk (hkind'.trans hk') hf hlive'

/-- Something live stays live when a timer expires. -/
theorem not_idle_expire (h : ¬ Idle ts k) (i : Nat) (hexp : ts.expire i = some ts') :
    ¬ Idle ts' k := by
  rcases (expire_eq_some_iff ts ts' i).mp hexp with ⟨v, hi, _, hset⟩
  intro hidle
  refine h (fun j t hj hk hl => ?_)
  have hlt : i < ts.length := (List.getElem?_eq_some_iff.mp hi).1
  by_cases hji : i = j
  · refine hidle i { v with phase := .fired } ?_ ?_ (.inr rfl)
    · rw [hset, getElem?_set_self hlt]
    · rw [← hji, hi, some.injEq] at hj
      rw [← hk, ← hj]
  · refine hidle j t ?_ hk hl
    rw [hset, getElem?_set_ne hji]
    exact hj

/-- A new timer is live. -/
theorem not_idle_afterFunc (ts : Timers κ) (now d : Nat) (k : κ) :
    ¬ Idle (ts.afterFunc now d k) k := by
  intro h
  refine h ts.length ⟨k, now + d, .armed⟩ ?_ rfl (.inl rfl)
  simp [Timers.afterFunc]

/-- A new timer leaves what is live as it is. -/
theorem not_idle_afterFunc_of (h : ¬ Idle ts k') (now d : Nat) (k : κ) :
    ¬ Idle (ts.afterFunc now d k) k' := by
  intro hidle
  refine h (fun j t hj hk hl => ?_)
  exact hidle j t (getElem?_afterFunc_of_getElem? ts now d k j t hj) hk hl

/-- Overwriting a timer of another kind leaves what is live as it is. -/
theorem not_idle_set (h : ¬ Idle ts k') (i : Nat) (v u : Timer κ) (hi : ts[i]? = some v)
    (hne : v.kind ≠ k') : ¬ Idle (ts.set i u) k' := by
  intro hidle
  refine h (fun j t hj hk hl => ?_)
  have hij : i ≠ j := by
    intro hij
    rw [← hij, hi, some.injEq] at hj
    exact hne (hj ▸ hk)
  exact hidle j t ((getElem?_set_ne hij).trans hj) hk hl

/-- Stopping a timer of another kind leaves what is live as it is. -/
theorem not_idle_stop? (h : ¬ Idle ts k') (o : Option Nat)
    (ho : ∀ i, o = some i → ∃ v, ts[i]? = some v ∧ v.kind ≠ k') : ¬ Idle (ts.stop? o) k' := by
  cases o with
  | none => exact h
  | some i =>
    rcases ho i rfl with ⟨v, hi, hne⟩
    intro hidle
    refine h (fun j t hj hk hl => ?_)
    have hij : i ≠ j := by
      intro hij
      rw [← hij, hi, some.injEq] at hj
      exact hne (hj ▸ hk)
    refine hidle j t ?_ hk hl
    simp only [stop?, stop, getElem?_modify, hj, if_neg hij, Option.map_eq_map,
      map_some]

end Timers

end Trecs
