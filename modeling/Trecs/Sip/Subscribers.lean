import Trecs.Lib.Unwinding
import Trecs.Sip.AuthShare
import Trecs.Sip.BindingStore

/-!
# Subscribers That Share a Registrar

Whether the requests of one subscriber can be noticed by another.

The bindings are kept by address of record, and a request changes those of its
own address only. But the CSeq of the last change is kept by Call-ID alone, and
with a password store so are the nonces and the counters of failed attempts kept
by themselves. A subscriber that uses the Call-ID of another one with a larger
CSeq makes the registrar reject the requests of the other.

The result is about requests that keep apart: there is a set of Call-IDs, nonces
and counters that the requests of one subscriber stay in and the requests of the
other stay out of. Requests for a third address of record stay in it or out of
it with each request; a request that did both would carry over what it learned.
Without a password store a request uses its Call-ID and nothing else.

What the other subscriber sees is the status and the contacts of the responses
to its requests, and its bindings whenever they are looked up.

## Main definitions

* `Resource`, `RegisterCall.resources`: What a request shares with others.
* `SubscriberEvent`, `subscriberStep`, `seenBy`: The machine and the observer.
* `Apart`: The requests keep apart.

## Theorems

* `handleRegister_congr`: The same answer in registrars that agree.
* `handleRegister_frame`: A request changes nothing but what it uses.
* `unwinding_subscribers`: The requests of one subscriber are not noticed.
* `subscribers_apart`: Inserting and deleting them does not change what the other
  one sees.
-/

namespace Trecs

open List

namespace Sip

open Proto

/-- What a request may share with requests for other addresses of record. -/
inductive Resource where
  | callID (callID : Bytes)
  | shared (x : Shared)
deriving Repr, DecidableEq

/-- Two registrars agree on the bindings of `b`, and on everything shared that is
    not in `T`. -/
structure SameReg (T : Resource → Prop) (b : Bytes) (r r' : Registrar) : Prop where
  passwd : r.passwd = r'.passwd
  maxAttempts : r.maxFailedAttempts = r'.maxFailedAttempts
  bindings : r.bindings.lookup b = r'.bindings.lookup b
  cseqs : AgreeOff (fun id => T (.callID id)) r.lastCSeq r'.lastCSeq
  auth : SameAuth (fun x => T (.shared x)) r.auth r'.auth

variable {T : Resource → Prop} {b : Bytes} {r r' r'' : Registrar}

namespace SameReg

theorem refl (r : Registrar) : SameReg T b r r := ⟨rfl, rfl, rfl, .refl _, .refl _⟩

theorem symm (h : SameReg T b r r') : SameReg T b r' r :=
  ⟨h.passwd.symm, h.maxAttempts.symm, h.bindings.symm, h.cseqs.symm, h.auth.symm⟩

theorem trans (h : SameReg T b r r') (h' : SameReg T b r' r'') : SameReg T b r r'' :=
  ⟨h.passwd.trans h'.passwd, h.maxAttempts.trans h'.maxAttempts, h.bindings.trans h'.bindings,
    h.cseqs.trans h'.cseqs, h.auth.trans h'.auth⟩

theorem of_eq (h : SameReg T b r r') : r.of b = r'.of b := by
  rw [Registrar.of, Registrar.of, h.bindings]

theorem withAuth (h : SameReg T b r r') (auth auth' : AuthState)
    (ha : SameAuth (fun x => T (.shared x)) auth auth') :
    SameReg T b { r with auth } { r' with auth := auth' } :=
  { h with auth := ha }

/-- Replacing the lists of one address of record in both registrars. -/
theorem put (h : SameReg T b r r') (aor callID : Bytes) (seq : Int64) (l l' : List Binding)
    (hl : aor = b → l = l') :
    SameReg T b
      { r with bindings := r.put aor l, lastCSeq := r.lastCSeq.insert callID seq }
      { r' with bindings := r'.put aor l', lastCSeq := r'.lastCSeq.insert callID seq } := by
  refine { h with bindings := ?_, cseqs := h.cseqs.insert callID seq }
  rw [Registrar.lookup_put, Registrar.lookup_put]
  by_cases hb : b = aor
  · rw [if_pos hb, if_pos hb, hl hb.symm]
  · rw [if_neg hb, if_neg hb, h.bindings]

/-- Replacing the list of another address of record, with a Call-ID that is not
    compared. -/
theorem put_right (aor callID : Bytes) (seq : Int64) (l : List Binding) (hne : aor ≠ b)
    (hid : T (.callID callID)) :
    SameReg T b r
      { r with bindings := r.put aor l, lastCSeq := r.lastCSeq.insert callID seq } := by
  refine ⟨rfl, rfl, ?_, (AgreeOff.refl _).insert_right _ _ hid, .refl _⟩
  rw [Registrar.lookup_put, if_neg (Ne.symm hne)]

theorem keep (h : SameReg T b r r') (p : Binding → Bool) :
    SameReg T b { r with bindings := retain (Registrar.keepBindings p) r.bindings }
      { r' with bindings := retain (Registrar.keepBindings p) r'.bindings } := by
  refine { h with bindings := ?_ }
  rw [lookup_retain, lookup_retain, h.bindings]

end SameReg

section

variable [UnicodeLower] [UnicodeUpper] [HashFunctions] [Connections] [DateFormat]

/-! ### Under the lock -/

omit [UnicodeUpper] [HashFunctions] in
theorem updateBindings_congr (h : SameReg T b r r') (c : RegisterCall) (aor callID : Bytes)
    (hid : ¬ T (.callID callID)) :
    SameReg T b (updateBindings c aor callID r).1 (updateBindings c aor callID r').1 ∧
      (aor = b → (updateBindings c aor callID r).2 = (updateBindings c aor callID r').2) := by
  have hof : aor = b → r.of aor = r'.of aor := fun hb => hb ▸ h.of_eq
  unfold updateBindings
  simp only
  rw [← h.cseqs callID hid]
  split
  · exact ⟨h, fun _ => rfl⟩
  · split
    · split
      · exact ⟨h, fun _ => rfl⟩
      · exact ⟨h.put aor callID _ [] [] (fun _ => rfl), fun _ => rfl⟩
    · split
      · exact ⟨h, fun hb => by rw [hof hb]⟩
      · refine ⟨h.put aor callID _ _ _ (fun hb => by rw [hof hb]), fun hb => ?_⟩
        simp only [hof hb]

omit [UnicodeUpper] [HashFunctions] in
theorem updateBindings_frame (c : RegisterCall) (aor callID : Bytes) (hid : T (.callID callID))
    (hne : aor ≠ b) : SameReg T b r (updateBindings c aor callID r).1 := by
  unfold updateBindings
  simp only
  split
  · exact .refl r
  · split
    · split
      · exact .refl r
      · exact SameReg.put_right aor callID _ [] hne hid
    · split
      · exact .refl r
      · exact SameReg.put_right aor callID _ _ hne hid

/-! ### The credentials -/

/-- What a request shares: its Call-ID, and with a password store what the check
    of its credentials uses. -/
def RegisterCall.resources (c : RegisterCall) (auth : Bool) : List Resource :=
  .callID (SIPHeaders.getFirst c.req.headers hCallID) ::
    if auth then (sharedBy c.rnd registerScheme c.req c.tx).map .shared else []

/-- Two decisions that are the same, up to the states. -/
def SameAdmission (T : Resource → Prop) : Admission → Admission → Prop
  | .proceed auth, .proceed auth' => SameAuth (fun x => T (.shared x)) auth auth'
  | .answered auth res, .answered auth' res' =>
    res = res' ∧ SameAuth (fun x => T (.shared x)) auth auth'
  | _, _ => False

/-- The state after a decision. -/
def Admission.auth : Admission → AuthState
  | .proceed auth => auth
  | .answered auth _ => auth

omit [DateFormat] in
theorem authorizeRegister_congr (h : SameReg T b r r') (c : RegisterCall) (aor callID : Bytes)
    (hadm : c.admitted = some (aor, callID))
    (hT : ∀ x ∈ c.resources r.passwd.isSome, ¬ T x) :
    SameAdmission T (authorizeRegister c aor callID r) (authorizeRegister c aor callID r') := by
  unfold authorizeRegister
  rw [← h.passwd, ← h.maxAttempts]
  cases hp : r.passwd with
  | none => exact h.auth
  | some passwd =>
    have hshared : ∀ x ∈ sharedBy c.rnd registerScheme c.req c.tx, ¬ T (.shared x) := by
      intro x hx
      refine hT _ (mem_cons_of_mem _ ?_)
      rw [hp]
      exact List.mem_map_of_mem hx
    have hkey : ¬ T (.shared (.attempts (authAttemptKey c.tx callID))) := by
      rw [c.callID_of_admitted aor callID hadm]
      exact hshared _ (mem_append_left _ mem_cons_self)
    have hv := verifyDigestRequest_congr h.auth c.now c.rnd registerScheme passwd
      r.maxFailedAttempts c.req c.tx hshared
    simp only
    rw [← hv.creds]
    cases (verifyDigestRequest c.now c.rnd registerScheme passwd r.maxFailedAttempts c.req c.tx
      r.auth).creds with
    | none => exact ⟨hv.response, hv.state⟩
    | some creds =>
      simp only
      split
      · have hf := sendAuthFailureResponse_congr hv.state c.now c.rnd registerScheme passwd
          r.maxFailedAttempts _ c.req false hkey
        exact ⟨hf.response, hf.state⟩
      · exact hv.state.reset _

omit [DateFormat] in
theorem authorizeRegister_frame (c : RegisterCall) (aor callID : Bytes)
    (hadm : c.admitted = some (aor, callID)) (hT : ∀ x ∈ c.resources r.passwd.isSome, T x) :
    SameAuth (fun x => T (.shared x)) r.auth (authorizeRegister c aor callID r).auth := by
  unfold authorizeRegister
  cases hp : r.passwd with
  | none => exact .refl _
  | some passwd =>
    have hshared : ∀ x ∈ sharedBy c.rnd registerScheme c.req c.tx, T (.shared x) := by
      intro x hx
      refine hT _ (mem_cons_of_mem _ ?_)
      rw [hp]
      exact List.mem_map_of_mem hx
    have hkey : T (.shared (.attempts (authAttemptKey c.tx callID))) := by
      rw [c.callID_of_admitted aor callID hadm]
      exact hshared _ (mem_append_left _ mem_cons_self)
    have hrnd : T (.shared (.nonce (hexEncode c.rnd))) :=
      hshared _ (mem_append_left _ (mem_cons_of_mem _ mem_cons_self))
    have hv : SameAuth (fun x => T (.shared x)) r.auth _ :=
      verifyDigestRequest_frame c.now c.rnd registerScheme passwd r.maxFailedAttempts c.req c.tx
        hshared
    simp only
    split
    · exact hv
    · split
      · exact hv.trans (sendAuthFailureResponse_frame c.now c.rnd registerScheme passwd
          r.maxFailedAttempts _ c.req false hkey hrnd)
      · exact hv.trans (SameAuth.reset_right _ hkey)

/-! ### Requests -/

/-- In two registrars that agree on what a request uses it does the same, and the
    answer is the same if it is for `b`. -/
theorem handleRegister_congr (h : SameReg T b r r') (c : RegisterCall)
    (hT : ∀ x ∈ c.resources r.passwd.isSome, ¬ T x) :
    SameReg T b (handleRegister c r).1 (handleRegister c r').1 ∧
      (c.aor = some b → (handleRegister c r).2 = (handleRegister c r').2) := by
  unfold handleRegister
  cases hadm : c.admitted with
  | none => exact ⟨h, fun _ => rfl⟩
  | some p =>
    rcases p with ⟨aor, callID⟩
    have haor := c.aor_of_admitted aor callID hadm
    have hid : ¬ T (.callID callID) := by
      rw [c.callID_of_admitted aor callID hadm]
      exact hT _ mem_cons_self
    have hauth := authorizeRegister_congr h c aor callID hadm hT
    simp only
    cases hx : authorizeRegister c aor callID r with
    | answered auth res =>
      cases hy : authorizeRegister c aor callID r' with
      | answered auth' res' =>
        rw [hx, hy] at hauth
        exact ⟨h.withAuth _ _ hauth.2, fun _ => hauth.1⟩
      | proceed auth' => exact absurd hauth (by rw [hx, hy]; exact id)
    | proceed auth =>
      cases hy : authorizeRegister c aor callID r' with
      | answered auth' res' => exact absurd hauth (by rw [hx, hy]; exact id)
      | proceed auth' =>
        rw [hx, hy] at hauth
        rcases updateBindings_congr (h.withAuth _ _ hauth) c aor callID hid with ⟨hs, hres⟩
        refine ⟨hs, fun hb => ?_⟩
        rw [haor, Option.some.injEq] at hb
        exact congrArg some (hres hb)

/-- A request that is not for `b` changes nothing but what it uses. -/
theorem handleRegister_frame (c : RegisterCall) (hT : ∀ x ∈ c.resources r.passwd.isSome, T x)
    (hb : c.aor ≠ some b) : SameReg T b r (handleRegister c r).1 := by
  unfold handleRegister
  cases hadm : c.admitted with
  | none => exact .refl r
  | some p =>
    rcases p with ⟨aor, callID⟩
    have hid : T (.callID callID) := by
      rw [c.callID_of_admitted aor callID hadm]
      exact hT _ mem_cons_self
    have hne : aor ≠ b := by
      intro heq
      rw [c.aor_of_admitted aor callID hadm, heq] at hb
      exact hb rfl
    have hauth := authorizeRegister_frame c aor callID hadm hT
    simp only
    cases hx : authorizeRegister c aor callID r with
    | answered auth res =>
      rw [hx] at hauth
      exact (SameReg.refl r).withAuth _ _ hauth
    | proceed auth =>
      rw [hx] at hauth
      exact ((SameReg.refl r).withAuth _ _ hauth).trans
        (updateBindings_frame c aor callID hid hne)

/-! ### Runs -/

/-- What can happen: a request, a lookup, one of the sweeps, or a broken flow. -/
inductive SubscriberEvent where
  | register (c : RegisterCall)
  | getBindings (aor : Bytes)
  | sweep (now : Int)
  | sweepNonces (now : Int)
  | sweepAttempts (now : Int)
  | removeFlow (flowID : Bytes)

/-- What a subscriber sees: the status and the contacts of a response, or its
    bindings. -/
inductive SubscriberView where
  | answer (statusCode : Int) (contacts : List Bytes)
  | bindings (l : List Binding)
deriving Repr, DecidableEq

/-- What happens at an event. -/
def subscriberStep (r : Registrar) : SubscriberEvent → Registrar
  | .register c => (handleRegister c r).1
  | .getBindings _ => r
  | .sweep now => r.sweep now
  | .sweepNonces now => { r with auth := { r.auth with nonces := r.auth.nonces.sweep now } }
  | .sweepAttempts now => { r with auth := { r.auth with attempts := r.auth.attempts.sweep now } }
  | .removeFlow flowID => r.removeBindingsByFlowID flowID

/-- What `b` sees at an event. -/
def seenBy (b : Bytes) (r : Registrar) : SubscriberEvent → Option SubscriberView
  | .register c =>
    if c.aor = some b then
      (handleRegister c r).2.map (fun res =>
        .answer res.statusCode (SIPHeaders.get res.headers (ascii "Contact")))
    else none
  | .getBindings aor => if aor = b then some (.bindings (r.getBindings aor)) else none
  | _ => none

/-- Whether an event is a request for `a`. -/
def registersFor (a : Bytes) : SubscriberEvent → Bool
  | .register c => c.aor = some a
  | _ => false

/-- The requests for `a` stay in `T`, those for `b` stay out of it, and any other
    request does one or the other. -/
def Apart (a b : Bytes) (T : Resource → Prop) (auth : Bool) : SubscriberEvent → Prop
  | .register c =>
    (c.aor = some a → ∀ x ∈ c.resources auth, T x) ∧
    (c.aor = some b → ∀ x ∈ c.resources auth, ¬ T x) ∧
    ((∀ x ∈ c.resources auth, T x) ∨ ∀ x ∈ c.resources auth, ¬ T x)
  | _ => True

theorem passwd_handleRegister (c : RegisterCall) (r : Registrar) :
    (handleRegister c r).1.passwd = r.passwd := by
  rcases handleRegister_cases c r with
    ⟨_, hres⟩ | ⟨_, _, _, _, _, _, hres⟩ | ⟨_, _, _, _, _, _, _, hup, hres⟩
  · rw [hres]
  · rw [hres]
  · rw [hres]
    cases hup <;> rfl

/-- The requests for `a` are not noticed by `b`. -/
theorem unwinding_subscribers (a b : Bytes) (hab : a ≠ b) (T : Resource → Prop) (auth : Bool) :
    Unwinding subscriberStep (seenBy b) (Apart a b T auth) (registersFor a)
      (fun r r' => SameReg T b r r' ∧ r.passwd.isSome = auth) where
  respects := by
    intro r r' e hR hok hhidden
    cases e with
    | register c =>
      have ha : c.aor = some a := of_decide_eq_true hhidden
      have hb : c.aor ≠ some b := by
        rw [ha]
        exact fun hc => hab (Option.some.inj hc)
      have hT := hok.1 ha
      rw [← hR.2] at hT
      refine ⟨⟨(handleRegister_frame c hT hb).symm.trans hR.1, ?_⟩, if_neg hb⟩
      rw [subscriberStep, passwd_handleRegister]
      exact hR.2
    | _ => cases hhidden
  consistent := by
    intro r r' e hR hok _
    have hp : r'.passwd.isSome = auth := hR.1.passwd ▸ hR.2
    cases e with
    | register c =>
      simp only [subscriberStep, seenBy]
      rw [passwd_handleRegister]
      rcases hok.2.2 with hin | hout
      · -- The request stays in the set, so it is not for `b`.
        have hb : c.aor ≠ some b :=
          fun hc => hok.2.1 hc _ mem_cons_self (hin _ mem_cons_self)
        have hl := handleRegister_frame (r := r) c (hR.2 ▸ hin) hb
        have hr := handleRegister_frame (r := r') c (hp ▸ hin) hb
        exact ⟨⟨hl.symm.trans (hR.1.trans hr), hR.2⟩, by rw [if_neg hb, if_neg hb]⟩
      · rcases handleRegister_congr hR.1 c (hR.2 ▸ hout) with ⟨hs, hres⟩
        refine ⟨⟨hs, hR.2⟩, ?_⟩
        by_cases hb : c.aor = some b
        · rw [if_pos hb, if_pos hb, hres hb]
        · rw [if_neg hb, if_neg hb]
    | getBindings aor =>
      refine ⟨hR, ?_⟩
      simp only [seenBy]
      by_cases hb : aor = b
      · rw [if_pos hb, if_pos hb, hb, Registrar.getBindings, Registrar.getBindings, hR.1.of_eq]
      · rw [if_neg hb, if_neg hb]
    | sweep now | removeFlow flowID => exact ⟨⟨hR.1.keep _, hR.2⟩, rfl⟩
    | sweepNonces now => exact ⟨⟨hR.1.withAuth _ _ (hR.1.auth.sweepNonces now), hR.2⟩, rfl⟩
    | sweepAttempts now => exact ⟨⟨hR.1.withAuth _ _ (hR.1.auth.sweepAttempts now), hR.2⟩, rfl⟩

/-- If the requests keep apart, inserting and deleting requests for `a` changes
    nothing that `b` sees. -/
theorem subscribers_apart (a b : Bytes) (hab : a ≠ b) (T : Resource → Prop) (r : Registrar)
    (es es' : List SubscriberEvent) (hok : ∀ e ∈ es, Apart a b T r.passwd.isSome e)
    (hok' : ∀ e ∈ es', Apart a b T r.passwd.isSome e)
    (heq : es.filter (fun e => !registersFor a e) = es'.filter (fun e => !registersFor a e)) :
    observe subscriberStep (seenBy b) r es = observe subscriberStep (seenBy b) r es' :=
  (unwinding_subscribers a b hab T r.passwd.isSome).observe_eq es es' r ⟨.refl r, rfl⟩ hok hok' heq

instance (a b : Bytes) (T : Resource → Prop) [DecidablePred T] (auth : Bool) (e : SubscriberEvent) :
    Decidable (Apart a b T auth e) := by
  cases e <;> unfold Apart <;> infer_instance

end

/-! ### Sample runs -/

/-- A request of `al`, and one of `bo` with a Call-ID. -/
def alAndBo (callID : String) : List SubscriberEvent :=
  [.register (registerAt 0 "<sip:al@trecs>" "c1" 100 "<sip:a1>" ""),
    .register (registerAt 1 "<sip:bo@trecs>" callID 1 "<sip:b1>" ""),
    .getBindings (ascii "sip:bo@trecs")]

/-- The same without the request of `al`. -/
def boAlone (callID : String) : List SubscriberEvent :=
  [.register (registerAt 1 "<sip:bo@trecs>" callID 1 "<sip:b1>" ""),
    .getBindings (ascii "sip:bo@trecs")]

open Samples

theorem subscribers_apart_alAndBo :
    observe subscriberStep (seenBy (ascii "sip:bo@trecs")) (.create none) (alAndBo "c2") =
      observe subscriberStep (seenBy (ascii "sip:bo@trecs")) (.create none) (boAlone "c2") :=
  subscribers_apart (ascii "sip:al@trecs") (ascii "sip:bo@trecs") (by decide)
    (fun x => x = .callID (ascii "c1")) (.create none) (alAndBo "c2") (boAlone "c2")
    (by simp only [alAndBo, forall_mem_cons]; decide +kernel)
    (by simp only [boAlone, forall_mem_cons]; decide +kernel) rfl

/-- With the Call-ID of `al` the request of `bo` is rejected, and without the
    request of `al` it is not. -/
theorem subscribers_apart_fails :
    observe subscriberStep (seenBy (ascii "sip:bo@trecs")) (.create none) (alAndBo "c1") =
        [.answer 400 [], .bindings []] ∧
      (observe subscriberStep (seenBy (ascii "sip:bo@trecs")) (.create none) (boAlone "c1")).head? =
        some (.answer 200 [ascii "<sip:b1>;expires=3600"]) ∧
      (alAndBo "c1").filter (fun e => !registersFor (ascii "sip:al@trecs") e) = boAlone "c1" :=
  ⟨by decide +kernel, by decide +kernel, rfl⟩

end Sip

end Trecs
