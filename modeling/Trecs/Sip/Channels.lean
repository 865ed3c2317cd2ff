import Trecs.Sip.TimerB

/-!
# What a Client Transaction Passes On

The goroutine behind a client transaction sees its two channels and nothing
else. This module says what each thing that runs on the transaction does to
them: only a response fills `Responses`, only timer B fills `Errors`, and a
transaction that has stopped waiting for a final response never waits again.

## Main definitions

* `UACTransaction.Passes`: The channels stay, and waiting does not come back.

## Theorems

* `UACTransaction.passes_timerCallback`, `UACTransaction.passes_runTask`: Timers
  and tasks leave the channels alone, apart from the report of timer B.
* `UACTransaction.handleResponse_passes`: What a response does to the channels.
* `UACTransaction.responses_of_waiting`: The first final response gets through if
  there is room for it.
-/

namespace Trecs

open List

namespace Sip

open Proto

namespace UACTransaction

/-- The channels of `u'` are those of `u`, and `u'` waits for a final response
    only if `u` does. -/
structure Passes (u u' : UACTransaction) : Prop where
  responses : u'.responses = u.responses
  errors : u'.errors = u.errors
  waiting : u'.waiting = true → u.waiting = true

variable (now : Nat) (sendFails : Bool) (u : UACTransaction) (k : UACTimer) (t : UACTask)
  (msg : SIPMessage)

theorem Passes.refl : Passes u u := ⟨rfl, rfl, fun h => h⟩

theorem waiting_iff : u.waiting = true ↔ u.state = .Calling ∨ u.state = .Proceeding := by
  rw [waiting, Bool.or_eq_true, decide_eq_true_eq, decide_eq_true_eq]

/-- The locked section of a timer callback. -/
theorem passes_timerCallback : Passes u (timerCallback sendFails u k).1 := by
  cases k with
  | A =>
    simp only [timerCallback]
    split
    · exact .refl u
    · split <;> exact ⟨rfl, rfl, fun h => h⟩
  | B | D =>
    simp only [timerCallback]
    split
    · exact .refl u
    · exact ⟨rfl, rfl, fun h => by cases h⟩

/-- Only timer B leaves a report to make, and it ends the transaction first. -/
theorem putTimeout_of_timerCallback (ht : t ∈ (timerCallback sendFails u k).2.2)
    (hp : t.isPutTimeout = true) : k = .B ∧ (timerCallback sendFails u k).1.waiting = false := by
  cases k with
  | A =>
    simp only [timerCallback] at ht
    split at ht
    · cases ht
    · split at ht
      · cases ht
      · rw [mem_singleton.mp ht] at hp
        cases hp
  | B =>
    refine ⟨rfl, ?_⟩
    simp only [timerCallback] at ht ⊢
    split at ht
    · cases ht
    · rename_i hs
      rw [if_neg hs]
      rfl
  | D =>
    simp only [timerCallback] at ht
    split at ht
    · cases ht
    · rw [mem_singleton.mp ht] at hp
      cases hp

/-- A task other than the report of timer B. -/
theorem passes_runTask (hp : t.isPutTimeout = false) : Passes u (u.runTask now sendFails t).1 := by
  cases t with
  | putTimeout =>
    exact absurd hp (by simp only [UACTask.isPutTimeout, Bool.true_eq_false, not_false_eq_true])
  | terminate =>
    exact ⟨rfl, rfl, fun h => nomatch h⟩
  | _ => exact ⟨rfl, rfl, fun h => h⟩

theorem waiting_putTimeout : (u.runTask now sendFails .putTimeout).1.waiting = u.waiting := by
  simp only [runTask]
  split <;> rfl

theorem responses_runTask : (u.runTask now sendFails t).1.responses = u.responses := by
  cases hp : t.isPutTimeout with
  | false => exact (passes_runTask now sendFails u t hp).responses
  | true =>
    cases t with
    | putTimeout =>
      simp only [runTask]
      split <;> rfl
    | _ => cases hp

/-- No task leaves a report to make. -/
theorem not_putTimeout_of_runTask (t t' : UACTask) (ht : t' ∈ (u.runTask now sendFails t).2.2) :
    t'.isPutTimeout = false := by
  cases t with
  | sendRequest req =>
    simp only [runTask] at ht
    split at ht
    · cases ht
    · split at ht <;> rw [mem_singleton.mp ht] <;> rfl
  | armTimerA interval inSend =>
    simp only [runTask] at ht
    split at ht
    · rw [mem_singleton.mp ht]
      rfl
    · cases ht
  | armTimerB d => cases ht
  | deregister => cases ht
  | _ =>
    rw [mem_singleton.mp ht]
    rfl

/-! ### Responses -/

theorem offer_responses_cases :
    (u.offer msg).responses = u.responses ∨ (u.offer msg).responses = u.responses ++ [msg] := by
  unfold offer
  split
  · exact Or.inr rfl
  · exact Or.inl rfl

theorem offer_responses_of_room (hroom : u.responses.length < 4) :
    (u.offer msg).responses = u.responses ++ [msg] := by
  rw [offer, if_pos hroom]

theorem offer_errors : (u.offer msg).errors = u.errors := by
  unfold offer
  split <;> rfl

theorem offer_waiting : (u.offer msg).waiting = u.waiting := by
  unfold offer
  split <;> rfl

/-- What a response does to the channels: it is appended to the first or
    dropped, and a transaction that still waits had a provisional one. -/
theorem handleResponse_passes (u u' : UACTransaction) (msg : SIPMessage) (out : List SIPMessage)
    (h : u.handleResponse now msg = some (u', out)) : u'.errors = u.errors ∧
    (u'.responses = u.responses ∨ (u.Answers msg ∧ u'.responses = u.responses ++ [msg])) ∧
    (u'.waiting = true → u.waiting = true ∧
      (u'.responses = u.responses ∨ msg.statusCode < 200)) := by
  by_cases ha : u.Answers msg
  · have hoff : ∀ v : UACTransaction, v.responses = u.responses →
        (v.offer msg).responses = u.responses ∨
          (u.Answers msg ∧ (v.offer msg).responses = u.responses ++ [msg]) := by
      intro v hv
      rcases v.offer_responses_cases msg with hr | hr
      · exact .inl (hr.trans hv)
      · exact .inr ⟨ha, by rw [hr, hv]⟩
    rcases handleResponse_cases now u u' msg out h ha with
      ⟨_, hu⟩ | ⟨hlt, hu⟩ | ⟨_, _, hu⟩ | ⟨_, hw, hu⟩
    · rw [hu]
      exact ⟨rfl, Or.inl rfl, fun hw => ⟨hw, Or.inl rfl⟩⟩
    · -- A provisional response moves Calling to Proceeding.
      rw [hu]
      have hv : Passes u (if u.state = .Calling then stopTimerA { u with state := .Proceeding }
          else u) := by
        split
        · rename_i hst
          exact ⟨rfl, rfl, fun _ => (waiting_iff u).mpr (Or.inl hst)⟩
        · exact .refl u
      refine ⟨by rw [offer_errors, hv.errors], hoff _ hv.responses, fun hw => ?_⟩
      rw [offer_waiting] at hw
      exact ⟨hv.waiting hw, Or.inr hlt⟩
    · rw [hu]
      refine ⟨by rw [offer_errors]; rfl, hoff _ rfl, fun hw => absurd hw ?_⟩
      rw [offer_waiting]
      exact Bool.false_ne_true
    · rw [hu]
      refine ⟨offer_errors u msg, hoff u rfl, fun hw' => absurd hw' ?_⟩
      rw [offer_waiting, hw]
      exact Bool.false_ne_true
  · rw [handleResponse_of_not_answers now u msg ha] at h
    cases h
    exact ⟨rfl, Or.inl rfl, fun hw => ⟨hw, Or.inl rfl⟩⟩

/-- A final response to a waiting transaction gets through if there is room for
    it. -/
theorem responses_of_waiting (u u' : UACTransaction) (msg : SIPMessage) (out : List SIPMessage)
    (h : u.handleResponse now msg = some (u', out)) (ha : u.Answers msg)
    (hfinal : 200 ≤ msg.statusCode) (hw : u.waiting = true) (hroom : u.responses.length < 4) :
    u'.responses = u.responses ++ [msg] := by
  rcases handleResponse_cases now u u' msg out h ha with
    ⟨ht, _⟩ | ⟨hlt, _⟩ | ⟨_, _, hu⟩ | ⟨_, hw', _⟩
  · rw [waiting_iff, ht] at hw
    rcases hw with hw | hw <;> cases hw
  · omega
  · rw [hu, offer_responses_of_room (u.transitionToCompleted now) msg hroom]
    rfl
  · rw [hw] at hw'
    exact absurd hw' (by simp only [Bool.true_eq_false, not_false_eq_true])

end UACTransaction

end Sip

end Trecs
