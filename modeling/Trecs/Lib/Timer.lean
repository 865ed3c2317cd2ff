import Mathlib.Tactic.Common

/-!
# Timers

Go's `time.AfterFunc` as a state machine. A timer is armed when it is made.
When its time has come the runtime fires it, which starts the callback in a
goroutine of its own; what the callback does happens later, once it has been
scheduled and has taken whatever lock it needs. `Stop` prevents the firing of
a timer that is still armed and does nothing to one that has fired, so a
callback can run after its timer was stopped, or after the variable that held
the timer was overwritten.

A table of timers is a list, and a timer is named by its position, which never
changes. `kind` says what the callback is.

Nothing here says when a timer fires: `expire` applies to any armed timer. A
model with a clock asks for `due ≤ now` before it uses `expire`.

## Main definitions

* `Phase`: Where a timer stands.
* `Timers.afterFunc`, `Timers.stop`: Making and stopping a timer.
* `Timers.expire`, `Timers.take`: A timer fires, and its callback starts its work.
* `Timers.Quieter`: No timer is armed or fired that was not before.
* `Timers.Ticking`: A timer whose callback is still to come.

## Theorems

* `Timers.expire_eq_some_iff`, `Timers.take_eq_some_iff`: When and what that changes.
* `Timers.quieter_stop?`, `Timers.quieter_take`: Stopping a timer and running a
  callback lead to a quieter table.
-/

namespace Trecs

open List Option

/-- Where a timer stands. -/
inductive Phase where
  | armed
  | fired
  | stopped
  | finished
deriving Repr, DecidableEq

/-- A timer whose callback is named by `kind`. -/
structure Timer (κ : Type*) where
  kind : κ
  due : Nat
  phase : Phase
deriving Repr, DecidableEq

/-- The timers made so far, each named by its position. -/
abbrev Timers (κ : Type*) := List (Timer κ)

/-- What is found in a list after one place was overwritten. -/
theorem getElem?_set_cases {α : Type*} (l : List α) (i j : Nat) (x y : α)
    (h : (l.set i y)[j]? = some x) : (j = i ∧ x = y) ∨ (j ≠ i ∧ l[j]? = some x) := by
  by_cases hij : i = j
  · have hlt : i < l.length := by
      by_contra hc
      rw [set_eq_of_length_le (Nat.le_of_not_lt hc), ← hij,
        List.getElem?_eq_none_iff.mpr (Nat.le_of_not_lt hc)] at h
      cases h
    rw [← hij, getElem?_set_self hlt, some.injEq] at h
    exact .inl ⟨hij.symm, h.symm⟩
  · rw [getElem?_set_ne hij] at h
    exact .inr ⟨fun hc => hij hc.symm, h⟩

namespace Timers

variable {κ : Type*}

/-- `time.AfterFunc(d, k)` at time `now`. The new timer is named by the old
    length of the table. -/
def afterFunc (ts : Timers κ) (now d : Nat) (k : κ) : Timers κ :=
  ts ++ [{ kind := k, due := now + d, phase := .armed }]

/-- A timer after `Stop`. -/
def stopOne (t : Timer κ) : Timer κ :=
  if t.phase = .armed then { t with phase := .stopped } else t

/-- `Stop` on the timer at `i`. -/
def stop (ts : Timers κ) (i : Nat) : Timers κ := ts.modify i stopOne

/-- `if t != nil { t.Stop() }`. -/
def stop? (ts : Timers κ) : Option Nat → Timers κ
  | none => ts
  | some i => ts.stop i

/-- The runtime fires the timer at `i`. -/
def expire (ts : Timers κ) (i : Nat) : Option (Timers κ) :=
  match ts[i]? with
  | none => none
  | some t => if t.phase = .armed then some (ts.set i { t with phase := .fired }) else none

/-- The callback of the timer at `i` starts its work. -/
def take (ts : Timers κ) (i : Nat) : Option (κ × Timers κ) :=
  match ts[i]? with
  | none => none
  | some t =>
    if t.phase = .fired then some (t.kind, ts.set i { t with phase := .finished }) else none

variable (t : Timer κ) (ts : Timers κ) (now d : Nat) (k : κ) (o : Option Nat) (j : Nat)

theorem stopOne_kind : (stopOne t).kind = t.kind := by
  unfold stopOne
  split <;> rfl

theorem stopOne_due : (stopOne t).due = t.due := by
  unfold stopOne
  split <;> rfl

theorem stopOne_phase_ne_armed : (stopOne t).phase ≠ .armed := by
  unfold stopOne
  by_cases h : t.phase = .armed
  · rw [if_pos h]
    exact fun hc => Phase.noConfusion hc
  · rw [if_neg h]
    exact h

theorem stopOne_phase_eq_fired (h : (stopOne t).phase = .fired) : t.phase = .fired := by
  unfold stopOne at h
  by_cases ha : t.phase = .armed
  · rw [if_pos ha] at h
    exact Phase.noConfusion h
  · rw [if_neg ha] at h
    exact h

/-- The table after a new timer: the old timers at their places, the new one
    at the end. -/
theorem getElem?_afterFunc (t : Timer κ) (h : (ts.afterFunc now d k)[j]? = some t) :
    ts[j]? = some t ∨ (j = ts.length ∧ t = { kind := k, due := now + d, phase := .armed }) := by
  unfold afterFunc at h
  rw [getElem?_append] at h
  by_cases hj : j < ts.length
  · rw [if_pos hj] at h
    exact .inl h
  · rw [if_neg hj] at h
    rcases hk : j - ts.length with _ | n
    · rw [hk, getElem?_cons_zero, some.injEq] at h
      exact .inr ⟨by omega, h.symm⟩
    · rw [hk, getElem?_cons_succ, getElem?_nil] at h
      cases h

/-- Stopping changes the one timer it names. -/
theorem getElem?_stop (i j : Nat) (t : Timer κ) (h : (ts.stop i)[j]? = some t) :
    (j = i ∧ ∃ t0, ts[j]? = some t0 ∧ t = stopOne t0) ∨ (j ≠ i ∧ ts[j]? = some t) := by
  unfold stop at h
  rw [getElem?_modify] at h
  rcases ht : ts[j]? with _ | t0
  · rw [ht] at h
    cases h
  · rw [ht] at h
    simp only [Option.map_eq_map, map_some, some.injEq] at h
    by_cases hij : j = i
    · rw [if_pos hij.symm] at h
      exact .inl ⟨hij, t0, rfl, h.symm⟩
    · rw [if_neg (Ne.symm hij)] at h
      exact .inr ⟨hij, congrArg some h⟩

/-- A timer found after a stop was there before, with the same callback, and
    if it is armed or fired now it was so before. -/
theorem stop?_origin (t : Timer κ) (h : (ts.stop? o)[j]? = some t) :
    ∃ t0, ts[j]? = some t0 ∧ t0.kind = t.kind ∧ (t.phase = .armed → t0.phase = .armed ∧ o ≠ some j)
      ∧ (t.phase = .fired → t0.phase = .fired) ∧ t0.due = t.due := by
  rcases o with _ | i
  · exact ⟨t, h, rfl, fun ha => ⟨ha, by simp only [ne_eq, reduceCtorEq, not_false_eq_true]⟩,
      fun hf => hf, rfl⟩
  · rcases getElem?_stop ts i j t h with ⟨hj, t0, h0, ht⟩ | ⟨hj, h0⟩
    · refine ⟨t0, h0, ?_, ?_, ?_, ?_⟩
      · rw [ht, stopOne_kind]
      · intro ha
        rw [ht] at ha
        exact absurd ha (stopOne_phase_ne_armed t0)
      · intro hf
        rw [ht] at hf
        exact stopOne_phase_eq_fired t0 hf
      · rw [ht, stopOne_due]
    · refine ⟨t, h0, rfl, fun ha => ⟨ha, fun hc => ?_⟩, fun hf => hf, rfl⟩
      rw [some.injEq] at hc
      exact hj hc.symm

theorem expire_eq_some_iff (ts ts' : Timers κ) (i : Nat) :
    ts.expire i = some ts' ↔
      ∃ t, ts[i]? = some t ∧ t.phase = .armed ∧ ts' = ts.set i { t with phase := .fired } := by
  unfold expire
  rcases ts[i]? with _ | t
  · simp
  · by_cases h : t.phase = .armed
    · simp only [h, if_true, some.injEq, exists_eq_left', true_and]
      exact ⟨Eq.symm, Eq.symm⟩
    · simp [h]

theorem take_eq_some_iff (ts ts' : Timers κ) (i : Nat) (k : κ) :
    ts.take i = some (k, ts') ↔
      ∃ t, ts[i]? = some t ∧ t.phase = .fired ∧ k = t.kind ∧
        ts' = ts.set i { t with phase := .finished } := by
  unfold take
  rcases ts[i]? with _ | t
  · simp
  · by_cases h : t.phase = .fired
    · simp only [h, if_true, some.injEq, Prod.mk.injEq, exists_eq_left', true_and]
      constructor
      · rintro ⟨h1, h2⟩
        exact ⟨h1.symm, h2.symm⟩
      · rintro ⟨h1, h2⟩
        exact ⟨h1.symm, h2.symm⟩
    · simp [h]

/-- `ts'` has the timers of `ts` with their callbacks, and none of them is armed
    or fired that was not so before. Stopping timers and running callbacks
    lead to a quieter table. -/
structure Quieter (ts ts' : Timers κ) : Prop where
  back : ∀ (j : Nat) (t' : Timer κ), ts'[j]? = some t' →
    ∃ t, ts[j]? = some t ∧ t.kind = t'.kind ∧ (t'.phase = .armed → t.phase = .armed) ∧
      (t'.phase = .fired → t.phase = .fired) ∧ t.due = t'.due
  forth : ∀ (j : Nat) (t : Timer κ), ts[j]? = some t → ∃ t', ts'[j]? = some t' ∧ t'.kind = t.kind

theorem Quieter.refl : Quieter ts ts where
  back := fun _ t h => ⟨t, h, rfl, fun ha => ha, fun hf => hf, rfl⟩
  forth := fun _ t h => ⟨t, h, rfl⟩

theorem Quieter.trans {ts ts' ts'' : Timers κ} (h : Quieter ts ts') (h' : Quieter ts' ts'') :
    Quieter ts ts'' where
  back := by
    intro j t'' hj
    rcases h'.back j t'' hj with ⟨t', hj', hk', ha', hf', hd'⟩
    rcases h.back j t' hj' with ⟨t, hj0, hk, ha, hf, hd⟩
    exact ⟨t, hj0, hk.trans hk', fun hx => ha (ha' hx), fun hx => hf (hf' hx), hd.trans hd'⟩
  forth := by
    intro j t hj
    rcases h.forth j t hj with ⟨t', hj', hk⟩
    rcases h'.forth j t' hj' with ⟨t'', hj'', hk'⟩
    exact ⟨t'', hj'', hk'.trans hk⟩

theorem quieter_stop? : Quieter ts (ts.stop? o) where
  back := by
    intro j t hj
    rcases stop?_origin ts o j t hj with ⟨t0, h0, hk, ha, hf⟩
    exact ⟨t0, h0, hk, fun hx => (ha hx).1, hf⟩
  forth := by
    intro j t hj
    rcases o with _ | i
    · exact ⟨t, hj, rfl⟩
    · by_cases hij : i = j
      · refine ⟨stopOne t, ?_, stopOne_kind t⟩
        simp [stop?, stop, hj, hij]
      · refine ⟨t, ?_, rfl⟩
        simp only [stop?, stop, getElem?_modify, hj, if_neg hij, Option.map_eq_map,
          map_some]

/-- Replacing a timer by one with the same callback that is neither armed nor
    fired. -/
theorem quieter_set (i : Nat) (t u : Timer κ) (hi : ts[i]? = some t) (hk : u.kind = t.kind)
    (ha : u.phase ≠ .armed) (hf : u.phase ≠ .fired) (hd : u.due = t.due) :
    Quieter ts (ts.set i u) where
  back := by
    intro j t' hj
    rcases getElem?_set_cases ts i j t' u hj with ⟨hij, ht⟩ | ⟨_, hj0⟩
    · refine ⟨t, ?_, ?_, ?_, ?_, ?_⟩
      · rw [hij]
        exact hi
      · rw [ht]
        exact hk.symm
      · intro hx
        rw [ht] at hx
        exact absurd hx ha
      · intro hx
        rw [ht] at hx
        exact absurd hx hf
      · rw [ht]
        exact hd.symm
    · exact ⟨t', hj0, rfl, fun hx => hx, fun hx => hx, rfl⟩
  forth := by
    intro j t' hj
    by_cases hij : i = j
    · rw [← hij] at hj ⊢
      have hlt : i < ts.length := (List.getElem?_eq_some_iff.mp hj).1
      refine ⟨u, getElem?_set_self hlt, ?_⟩
      rw [hi, some.injEq] at hj
      rw [hk, hj]
    · refine ⟨t', ?_, rfl⟩
      rw [getElem?_set_ne hij]
      exact hj

theorem quieter_take (ts ts' : Timers κ) (i : Nat) (k : κ) (h : ts.take i = some (k, ts')) :
    Quieter ts ts' := by
  rcases (take_eq_some_iff ts ts' i k).mp h with ⟨t, hi, _, _, hts⟩
  rw [hts]
  exact quieter_set ts i t _ hi rfl (by simp only [ne_eq, reduceCtorEq, not_false_eq_true])
    (by simp only [ne_eq, reduceCtorEq, not_false_eq_true]) rfl

theorem getElem?_afterFunc_of_getElem? (t : Timer κ) (h : ts[j]? = some t) :
    (ts.afterFunc now d k)[j]? = some t := by
  have hlt : j < ts.length := (List.getElem?_eq_some_iff.mp h).1
  unfold afterFunc
  rw [getElem?_append_left hlt]
  exact h

/-- The callback `k` of timer `j` is still to come: the timer is armed or has
    fired. -/
def Ticking (ts : Timers κ) (j : Nat) (k : κ) : Prop :=
  ∃ t, ts[j]? = some t ∧ t.kind = k ∧ (t.phase = .armed ∨ t.phase = .fired)

theorem Quieter.ticking {ts ts' : Timers κ} (h : Quieter ts ts') {j : Nat} {k : κ}
    (ht : Ticking ts' j k) : Ticking ts j k := by
  rcases ht with ⟨t', hj, hk, hp⟩
  rcases h.back j t' hj with ⟨t, hj0, hk0, ha, hf, _⟩
  refine ⟨t, hj0, hk0.trans hk, ?_⟩
  rcases hp with hp | hp
  · exact Or.inl (ha hp)
  · exact Or.inr (hf hp)

theorem ticking_afterFunc {ts : Timers κ} {now d : Nat} {k k' : κ} {j : Nat}
    (h : Ticking (ts.afterFunc now d k') j k) : Ticking ts j k ∨ (j = ts.length ∧ k = k') := by
  rcases h with ⟨t, hj, hk, hp⟩
  rcases getElem?_afterFunc ts now d k' j t hj with hold | ⟨hlen, rfl⟩
  · exact Or.inl ⟨t, hold, hk, hp⟩
  · exact Or.inr ⟨hlen, hk.symm⟩

theorem ticking_expire {ts ts' : Timers κ} {i j : Nat} {k : κ} (h : ts.expire i = some ts')
    (ht : Ticking ts' j k) : Ticking ts j k := by
  rcases (expire_eq_some_iff ts ts' i).mp h with ⟨t, hi, harmed, rfl⟩
  rcases ht with ⟨t', hj, hk, hp⟩
  rcases getElem?_set_cases ts i j t' _ hj with ⟨rfl, rfl⟩ | ⟨_, hj⟩
  · exact ⟨t, hi, hk, Or.inl harmed⟩
  · exact ⟨t', hj, hk, hp⟩

/-- A callback that runs was still to come and is over. -/
theorem ticking_take {ts ts' : Timers κ} {i : Nat} {k : κ} (h : ts.take i = some (k, ts')) :
    Ticking ts i k ∧ ∀ j k', Ticking ts' j k' → Ticking ts j k' ∧ j ≠ i := by
  have hq := quieter_take ts ts' i k h
  rcases (take_eq_some_iff ts ts' i k).mp h with ⟨t, hi, hf, hk, rfl⟩
  refine ⟨⟨t, hi, hk.symm, Or.inr hf⟩, fun j k' ht => ⟨hq.ticking ht, ?_⟩⟩
  rintro rfl
  rcases ht with ⟨t', hj, _, hp⟩
  rcases getElem?_set_cases ts j j t' _ hj with ⟨_, rfl⟩ | ⟨hne, _⟩
  · rcases hp with hp | hp
    · exact Phase.noConfusion hp
    · exact Phase.noConfusion hp
  · exact hne rfl

end Timers

end Trecs
