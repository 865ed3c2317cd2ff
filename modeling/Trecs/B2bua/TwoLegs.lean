import Trecs.B2bua.OneFinal
import Trecs.Proto.SdpText

/-!
# The Two Legs Agree

Bob's answer on its way to Alice. It is received by his transaction, waits in
the channel behind the provisional responses before it, is taken up by the
loop, and becomes the 200 to Alice two actions later. On that way it can get
lost: in a full channel, behind another final response, to a loop that chose
another case of its `select`, or to a context that was canceled meanwhile.

In an orderly run it cannot. `Leg.Coming` says where the answer is while Alice
does not have it, and every step either keeps it there or brings it one place
further.

## Main definitions

* `Leg.Coming`: Bob's answer is on its way.
* `AnswerInv`: The invariant.
* `TwoLegs`: Alice is never sent both a 487 and a 200, and an answer of Bob is
  not left without one to Alice.

## Theorems

* `answerInv_step`: Every orderly step keeps the invariant.
* `twoLegs_of_orderly`: The two legs agree in every orderly run.
-/

namespace Trecs

open List Option

namespace B2bua

open Proto Sip Media

/-- Whether an action stands for a 200 to Alice. -/
def Action.accepts : Action → Bool
  | respond res => res.statusCode = 200
  | answer _ => true
  | _ => false

/-- The first final response in the channel is a 200. -/
def Queued (responses : List SIPMessage) : Prop :=
  ∃ m, responses.find? isFinal = some m ∧ m.statusCode = 200

/-- Alice has no final response, nobody but the loop is going to give her one,
    and the loop will come to Bob's answer or is about to pass it on. -/
structure Leg.Coming (s : Leg) : Prop where
  finals : s.finals = 0
  cancels : s.cancels = []
  timeout : s.timeout = none
  errors : s.bob.errors = []
  tasks : ∀ t ∈ s.bobTasks, t.isPutTimeout = false
  place : (s.loop.ending = false ∧ Queued s.bob.responses) ∨ ∃ a ∈ s.loop.todo, a.accepts = true

/-- Alice was sent a 200. -/
def Leg.Accepted (s : Leg) : Prop := ∃ m ∈ s.sent, m.statusCode = 200

/-- Alice was sent a 200, and the loop will not wait again. -/
def Leg.Passed (s : Leg) : Prop := s.Accepted ∧ s.loop.ending = true

/-- While Bob's transaction waits, no final response and no error is on its way
    to the loop; and an answer of Bob was passed on or is coming. -/
structure AnswerInv (s : Leg) : Prop where
  sending : ∀ t, s.loop = .sending t → t.isPutTimeout = false
  waiting : s.bob.waiting = true → (∀ m ∈ s.bob.responses, isFinal m = false) ∧
    s.bob.errors = [] ∧ ∀ t ∈ s.bobTasks, t.isPutTimeout = false
  answered : s.Answered → s.Passed ∨ s.Coming

theorem owes_of_accepts (a : Action) (h : a.accepts = true) : a.owes = 1 := by
  cases a with
  | respond res =>
    rw [Action.accepts, decide_eq_true_eq] at h
    rw [Action.owes, isFinal, if_pos (by rw [decide_eq_true_eq]; omega)]
  | answer resp => rfl
  | _ => contradiction

theorem queued_append (l l' : List SIPMessage) (h : Queued l) : Queued (l ++ l') := by
  rcases h with ⟨m, hm, h200⟩
  refine ⟨m, ?_, h200⟩
  rw [find?_append, hm, some_or]

/-- What an action of the loop does not touch. -/
theorem act_frame [SdpCodec] (h : Handler) (cc : CallCtx) (p : Peer) (now : Nat) (env : LoopEnv)
    (s : Leg) (a : Action) (o : Leg × List Action) (ho : s.act h cc p now env a = some o) :
    o.1.bob = s.bob ∧ o.1.bobTasks = s.bobTasks ∧ o.1.received = s.received ∧
    o.1.cancels = s.cancels ∧ o.1.timeout = s.timeout ∧ ∃ out, o.1.sent = s.sent ++ out := by
  cases a with
  | respond res =>
    cases ho
    exact ⟨rfl, rfl, rfl, rfl, rfl, _, rfl⟩
  | sendReliable prov =>
    rw [Leg.act] at ho
    split at ho
    · cases ho
      exact ⟨rfl, rfl, rfl, rfl, rfl, _, rfl⟩
    · cases ho
  | cancelPRACK =>
    rw [Leg.act] at ho
    split at ho
    · cases ho
      exact ⟨rfl, rfl, rfl, rfl, rfl, [], (append_nil _).symm⟩
    · cases ho
  | _ =>
    cases ho
    exact ⟨rfl, rfl, rfl, rfl, rfl, [], (append_nil _).symm⟩

/-- A provisional response to Alice is no final one. -/
theorem finals_act_of_passing [SdpCodec] (h : Handler) (cc : CallCtx) (p : Peer) (now : Nat)
    (env : LoopEnv) (s : Leg) (a : Action) (hpass : a.passing = true) (o : Leg × List Action)
    (ho : s.act h cc p now env a = some o) : o.1.finals = s.finals := by
  cases a with
  | respond res =>
    rw [Action.passing, Bool.not_eq_true'] at hpass
    cases ho
    change (s.respond now res).finals = s.finals
    rw [s.finals_respond, hpass, if_neg Bool.false_ne_true, Nat.add_zero]
  | sendReliable prov =>
    rw [Action.passing, Bool.not_eq_true'] at hpass
    rw [Leg.act] at ho
    split at ho
    · cases ho
      have hnum :
          isFinal (ReliableProvisionalManager.numbered prov (s.prack.getD 0 + 1)) = false :=
        hpass
      change (s.respond now _).finals = s.finals
      rw [s.finals_respond, hnum, if_neg Bool.false_ne_true, Nat.add_zero]
    · cases ho
  | sendBob msg =>
    cases ho
    rfl
  | _ => cases hpass

/-- What a step of a CANCEL does not touch. -/
theorem cancelStep_frame (now : Nat) (s : Leg) (j : CancelJob) (o : Leg × Option CancelPoint)
    (ho : s.cancelStep now j = some o) :
    o.1.bob = s.bob ∧ o.1.bobTasks = s.bobTasks ∧ o.1.received = s.received ∧
    o.1.loop = s.loop ∧ ∃ out, o.1.sent = s.sent ++ out := by
  rcases j with ⟨req, pc⟩
  unfold Leg.cancelStep at ho
  cases pc with
  | respond early =>
    cases ho
    exact ⟨rfl, rfl, rfl, rfl, _, rfl⟩
  | cancelPRACK =>
    simp only at ho
    split at ho
    · cases ho
      exact ⟨rfl, rfl, rfl, rfl, [], (append_nil _).symm⟩
    · contradiction
  | _ =>
    cases ho
    exact ⟨rfl, rfl, rfl, rfl, [], (append_nil _).symm⟩

theorem Leg.Accepted.mono {s t : Leg} (h : s.Accepted) (out : List SIPMessage)
    (ht : t.sent = s.sent ++ out) : t.Accepted := by
  rcases h with ⟨m, hm, h200⟩
  exact ⟨m, by rw [ht]; exact mem_append_left out hm, h200⟩

/-- A 200 to a pending transaction is sent. -/
theorem accepted_of_respond (now : Nat) (s : Leg) (res : SIPMessage) (h200 : res.statusCode = 200)
    (hp : s.alice.pending = true) : (s.respond now res).Accepted := by
  refine ⟨res, ?_, h200⟩
  have hsent : (s.alice.respond now res).sent = [res] := by
    rcases s.alice.respond_cases now res with
      h | ⟨_, h, _⟩ | ⟨_, h, _⟩ | ⟨_, _, _, _, h⟩ | ⟨_, h, _⟩ | ⟨_, h, _⟩
    · -- Doing nothing is for a transaction that is over.
      have hst : s.alice.state ≠ .Terminated ∧ s.alice.state ≠ .Confirmed := by
        rcases (InviteTransaction.pending_iff s.alice).mp hp with hst | hst <;> rw [hst] <;>
          exact ⟨nofun,
            nofun⟩
      rw [InviteTransaction.respond, if_neg (fun hx => hx.elim hst.1 hst.2), if_neg (by omega),
        if_pos (by omega)]
    · omega
    · omega
    · rw [h]
    · omega
    · omega
  change res ∈ s.sent ++ (s.alice.respond now res).sent
  rw [hsent]
  exact mem_append_right _ (mem_singleton.mpr rfl)

/-! ### Steps -/

/-- The loop takes up a response. -/
theorem coming_takeResponse [UnicodeLower] (h : Handler) (cc : CallCtx) (p : Peer) (env : LoopEnv)
    (s : Leg) (resp : SIPMessage) (rest : List SIPMessage) (hl : s.loop = .select)
    (hr : s.bob.responses = resp :: rest) (hc : s.Coming) :
    ({ s with
      bob := { s.bob with responses := rest }
      loop := .running (p.onResponse h cc env resp).todo
        (p.onResponse h cc env resp).last } : Leg).Coming := by
  refine ⟨hc.finals, hc.cancels, hc.timeout, hc.errors, hc.tasks, ?_⟩
  rcases hc.place with ⟨_, m, hm, h200⟩ | ⟨a, ha, _⟩
  · rw [hr, find?_cons] at hm
    cases hf : isFinal resp with
    | true =>
      -- The response is the answer.
      rw [hf] at hm
      rw [← some.inj hm] at h200
      refine .inr ⟨.answer resp, ?_, rfl⟩
      change _ ∈ (p.onResponse h cc env resp).todo
      rw [Peer.onResponse, if_neg (by omega), if_pos h200]
      exact mem_append_left _ (mem_append_right _ (mem_singleton.mpr rfl))
    | false =>
      rw [hf] at hm
      rw [isFinal, decide_eq_false_iff_not] at hf
      rcases onResponse_cases h cc env p resp with ⟨hlast, _⟩ | ⟨_, hle, _⟩
      · exact .inl ⟨hlast, m, hm, h200⟩
      · omega
  · rw [hl] at ha
    cases ha

/-- Changes on Bob's side that no response causes. -/
theorem answerInv_bobSide (s : Leg) (u : UACTransaction) (bobTasks : List UACTask)
    (toBob : List SIPMessage) (hs : AnswerInv s)
    (hpass : (∀ t ∈ s.bobTasks, t.isPutTimeout = false) → UACTransaction.Passes s.bob u)
    (hresp : u.responses = s.bob.responses) (hwait : u.waiting = true → s.bob.waiting = true)
    (htasks : (∀ t ∈ s.bobTasks, t.isPutTimeout = false) → u.waiting = true ∨ s.Answered →
      ∀ t ∈ bobTasks, t.isPutTimeout = false) :
    AnswerInv { s with bob := u, bobTasks := bobTasks, toBob := toBob } := by
  refine ⟨hs.sending, fun hw => ?_, fun hans => ?_⟩
  · rcases hs.waiting (hwait hw) with ⟨hno, he, ht⟩
    exact ⟨fun m hm => hno m (hresp ▸ hm), (hpass ht).errors.trans he, htasks ht (Or.inl hw)⟩
  · rcases hs.answered hans with ha | hc
    · exact .inl ha
    · refine .inr ⟨hc.finals, hc.cancels, hc.timeout, (hpass hc.tasks).errors.trans hc.errors,
        htasks hc.tasks (Or.inr hans), ?_⟩
      rcases hc.place with ⟨hlive, hq⟩ | hd
      · refine .inl ⟨hlive, ?_⟩
        change Queued u.responses
        rw [hresp]
        exact hq
      · exact .inr hd

/-- A new place of the loop, from which it still comes to Bob's answer. -/
theorem answerInv_loop (s : Leg) (l : Loop) (hs : AnswerInv s)
    (hend : s.loop.ending = true → l.ending = true)
    (hsend : ∀ t, l = .sending t → t.isPutTimeout = false)
    (hcoming : s.Answered → s.Coming →
      (l.ending = false ∧ Queued s.bob.responses) ∨ ∃ a ∈ l.todo, a.accepts = true) :
    AnswerInv { s with loop := l } := by
  refine ⟨hsend, hs.waiting, fun hans => ?_⟩
  rcases hs.answered hans with ha | hc
  · exact .inl ⟨ha.1, hend ha.2⟩
  · exact .inr ⟨hc.finals, hc.cancels, hc.timeout, hc.errors, hc.tasks, hcoming hans hc⟩

/-- Alice is sent more, and nothing else changes that matters here. -/
theorem answerInv_aliceSide (s t : Leg) (out : List SIPMessage) (hs : AnswerInv s)
    (hsent : t.sent = s.sent ++ out) (hloop : t.loop = s.loop) (hbob : t.bob = s.bob)
    (htasks : t.bobTasks = s.bobTasks) (hreceived : t.received = s.received)
    (hcoming : s.Answered → s.Coming → t.Coming) : AnswerInv t := by
  refine ⟨fun x hx => hs.sending x (hloop.symm.trans hx), ?_, fun hans => ?_⟩
  · rw [hbob, htasks]
    exact hs.waiting
  · have hans' : s.Answered := by
      rw [Leg.Answered, ← hreceived]
      exact hans
    rcases hs.answered hans' with ha | hc
    · exact .inl ⟨ha.1.mono out hsent, by rw [hloop]; exact ha.2⟩
    · exact .inr (hcoming hans' hc)

/-- At rest, an answer is neither in the channel nor in the hands of the loop. -/
theorem not_atRest_of_coming (s : Leg) (hc : s.Coming) : ¬ s.atRest = true := by
  intro hrest
  unfold Leg.atRest at hrest
  rcases hc.place with ⟨hlive, m, hm, _⟩ | ⟨a, ha, _⟩
  · split at hrest
    · rename_i hl
      rw [hl] at hlive
      cases hlive
    · simp only [Bool.and_eq_true, List.isEmpty_iff] at hrest
      rw [hrest.1.1.1] at hm
      cases hm
    · exact Bool.false_ne_true hrest
  · split at hrest
    · rename_i hl
      rw [hl] at ha
      exact not_mem_nil ha
    · rename_i hl
      rw [hl] at ha
      exact not_mem_nil ha
    · exact Bool.false_ne_true hrest

section Step

variable [SdpCodec]

/-- Bob's answer while the loop performs an action. -/
theorem coming_act (h : Handler) (cc : CallCtx) (p : Peer) (now : Nat) (env : LoopEnv) (s : Leg)
    (a : Action) (todo : List Action) (last : Bool) (hl : s.loop = .running (a :: todo) last)
    (hs : SetupInv s) (o : Leg × List Action) (ho : s.act h cc p now env a = some o)
    (hc : s.Coming) :
    ({ o.1 with loop := .running (o.2 ++ todo) last } : Leg).Passed ∨
      ({ o.1 with loop := .running (o.2 ++ todo) last } : Leg).Coming := by
  have ht := setupInv_act h cc p now env s a todo last hl hs o ho
  rcases act_frame h cc p now env s a o ho with ⟨hbob, htasks, _, hcancels, htimeout, _⟩
  -- Wherever the 200 still is, what is owed leaves room for no other response.
  have hstay : (∃ x ∈ o.2 ++ todo, x.accepts = true) →
      ({ o.1 with loop := .running (o.2 ++ todo) last } : Leg).Coming := by
    rintro ⟨x, hx, hacc⟩
    refine ⟨?_, hcancels.trans hc.cancels, htimeout.trans hc.timeout, ?_, ?_, Or.inr ⟨x, hx, hacc⟩⟩
    · have hone : o.1.finals + tally Action.owes (o.2 ++ todo) + o.1.elsewhere ≤ 1 := ht.one
      have hle := le_tally Action.owes (o.2 ++ todo) x hx
      rw [owes_of_accepts x hacc] at hle
      change o.1.finals = 0
      omega
    · rw [← hc.errors, ← hbob]
    · rw [htasks]
      exact hc.tasks
  rcases hc.place with ⟨hlive, hq⟩ | ⟨x, hx, hacc⟩
  · -- The loop is busy with a provisional response.
    have hlast : last = false := by
      rw [hl] at hlive
      exact hlive
    refine .inr ⟨?_, hcancels.trans hc.cancels, htimeout.trans hc.timeout, ?_, ?_,
      Or.inl ⟨hlast, ?_⟩⟩
    · have hpass := hs.quiet hlive a (by rw [hl]; exact mem_cons_self)
      exact (finals_act_of_passing h cc p now env s a hpass o ho).trans hc.finals
    · rw [← hc.errors, ← hbob]
    · rw [htasks]
      exact hc.tasks
    · rw [hbob]
      exact hq
  · rw [hl] at hx
    rcases mem_cons.mp hx with hx | hx
    · -- The action that stands for the 200 is the one performed.
      rw [hx] at hacc
      have hlast : last = true := by
        cases last with
        | true => rfl
        | false =>
          have hpass := hs.quiet (by rw [hl]; rfl) a (by rw [hl]; exact mem_cons_self)
          exact absurd ((owes_of_passing a hpass).symm.trans (owes_of_accepts a hacc))
            Nat.zero_ne_one
      cases a with
      | respond res =>
        rw [Action.accepts, decide_eq_true_eq] at hacc
        cases ho
        exact .inl ⟨accepted_of_respond now s res hacc (hs.fresh hc.finals).1, hlast⟩
      | answer resp =>
        refine .inr (hstay ⟨.respond (cc.alice200 h env), mem_append_left _ ?_, rfl⟩)
        have hnc : s.canceled = false := by
          cases hcan : s.canceled with
          | false => rfl
          | true => exact absurd (hc.finals.symm.trans (hs.done (Or.inl hcan))) Nat.zero_ne_one
        have hacc := hs.answers resp (by rw [hl]; exact mem_cons_self)
        rcases p.answerActions_of_acceptable h cc env resp hacc with ⟨bobTo, heq⟩
        rw [← some.inj ho, hnc, heq]
        exact mem_append_left _ (mem_cons_of_mem _ mem_cons_self)
      | _ => cases hacc
    · exact .inr (hstay ⟨x, mem_append_right _ hx, hacc⟩)

/-- A response of Bob arrives. -/
theorem answerInv_bobResponse (s : Leg) (now : Nat) (msg : SIPMessage) (u : UACTransaction)
    (out toBob : List SIPMessage) (hs : AnswerInv s) (hok : Orderly s (.bobResponse now msg))
    (hu : s.bob.handleResponse now msg = some (u, out)) :
    AnswerInv { s with
      bob := u
      toBob := toBob
      received := s.received ++ if s.bob.Answers msg then [msg] else [] } := by
  rcases UACTransaction.handleResponse_passes now s.bob u msg out hu with ⟨herr, hresp, hwait⟩
  refine ⟨hs.sending, fun hw => ?_, fun hans => ?_⟩
  · rcases hwait hw with ⟨hw, hprov⟩
    rcases hs.waiting hw with ⟨hno, he, ht⟩
    refine ⟨fun m hm => ?_, herr.trans he, ht⟩
    rcases hprov with hr | hlt
    · exact hno m (hr ▸ hm)
    · change m ∈ u.responses at hm
      rcases hresp with hr | ⟨_, hr⟩
      · exact hno m (hr ▸ hm)
      · rw [hr] at hm
        rcases mem_append.mp hm with hm | hm
        · exact hno m hm
        · rw [mem_singleton.mp hm, isFinal, decide_eq_false_iff_not]
          omega
  · by_cases hbefore : s.Answered
    · rcases hs.answered hbefore with ha | hc
      · exact .inl ha
      · refine .inr ⟨hc.finals, hc.cancels, hc.timeout, herr.trans hc.errors, hc.tasks, ?_⟩
        rcases hc.place with ⟨hlive, hq⟩ | hd
        · refine .inl ⟨hlive, ?_⟩
          rcases hresp with hr | ⟨_, hr⟩
          · change Queued u.responses
            rw [hr]
            exact hq
          · change Queued u.responses
            rw [hr]
            exact queued_append _ _ hq
        · exact .inr hd
    · -- This is the first answer: it finds the call open and the channel with room.
      rcases hans with ⟨m, hm, h200⟩
      rcases mem_append.mp hm with hm | hm
      · exact absurd ⟨m, hm, h200⟩ hbefore
      by_cases hansw : s.bob.Answers msg
      · rw [if_pos hansw, mem_singleton] at hm
        rw [hm] at h200
        rcases hok hansw (by omega) (by omega) with ⟨_, _, hx | ⟨hopen, hw, hroom⟩⟩
        · exact absurd hx hbefore
        rcases hs.waiting hw with ⟨hno, he, ht⟩
        refine .inr ⟨hopen.1, hopen.2.2.1, hopen.2.2.2, herr.trans he, ht,
          Or.inl ⟨hopen.2.1, msg, ?_, h200⟩⟩
        have hf : isFinal msg = true := by
          rw [isFinal, decide_eq_true_eq]
          omega
        have hnone : s.bob.responses.find? isFinal = none := by
          rw [find?_eq_none]
          intro x hx
          rw [hno x hx]
          exact Bool.false_ne_true
        rw [UACTransaction.responses_of_waiting now s.bob u msg out hu hansw (by omega) hw hroom,
          find?_append, hnone, none_or, find?_cons, hf]
      · rw [if_neg hansw] at hm
        cases hm

variable [UnicodeLower]

variable (h : Handler) (cc : CallCtx) (p : Peer) (bobInvite : SIPMessage) (aliceBranch : Bytes)
  (reliable : Bool)

/-- Every orderly step keeps the invariant. -/
theorem answerInv_step (s t : Leg) (e : LegEvent) (hset : SetupInv s) (hs : AnswerInv s)
    (hok : Orderly s e) (hstep : legStep h cc p bobInvite s e = some t) : AnswerInv t := by
  -- Where the loop has nothing to do, the answer is still in the channel.
  have hqueued : s.loop.todo = [] → s.Coming → s.loop.ending = false ∧ Queued s.bob.responses := by
    intro htodo hc
    rcases hc.place with hq | ⟨a, ha, _⟩
    · exact hq
    · rw [htodo] at ha
      cases ha
  cases legStep_cases h cc p bobInvite s t e hstep with
  | start hl =>
    have hl' := answerInv_loop s (.sending (.storeRequest bobInvite)) hs (by rw [hl]; exact id)
      (fun t ht => by rw [← Loop.sending.inj ht]; rfl)
      (fun _ hc => Or.inl ⟨rfl, (hqueued (by rw [hl]; rfl) hc).2⟩)
    exact answerInv_aliceSide _ _ [] hl' (append_nil _).symm rfl rfl rfl rfl
      (fun _ hc => ⟨hc.finals, hc.cancels, hc.timeout, hc.errors, hc.tasks, hc.place⟩)
  | sendFailed now task hl =>
    have hpass := UACTransaction.passes_runTask now true s.bob task (hs.sending task hl)
    have hl' := answerInv_loop s (.running (p.onSendFailed cc).todo true) hs (fun _ => rfl)
      (by intros; contradiction)
      (fun hans _ => absurd hans (hok rfl).2)
    exact answerInv_bobSide _ _ s.bobTasks _ hl' (fun _ => hpass) hpass.responses hpass.waiting
      (fun ht _ => ht)
  | sent now sendFails task l hl hnext =>
    have hpass := UACTransaction.passes_runTask now sendFails s.bob task (hs.sending task hl)
    have htodo : s.loop.todo = [] := by rw [hl]; rfl
    have hl' : AnswerInv { s with loop := l } := by
      rcases hnext with rfl | ⟨x, hx, rfl⟩
      · exact answerInv_loop s .select hs (by rw [hl]; exact id)
          (by intros; contradiction)
          (fun _ hc => Or.inl ⟨rfl, (hqueued htodo hc).2⟩)
      · refine answerInv_loop s (.sending x) hs (by rw [hl]; exact id) (fun t ht => ?_)
          (fun _ hc => Or.inl ⟨rfl, (hqueued htodo hc).2⟩)
        rw [← Loop.sending.inj ht]
        exact UACTransaction.not_putTimeout_of_runTask now sendFails s.bob task x hx
    exact answerInv_bobSide _ _ s.bobTasks _ hl' (fun _ => hpass) hpass.responses hpass.waiting
      (fun ht _ => ht)
  | takePrackDone hl hp =>
    exact answerInv_loop s _ hs (fun _ => rfl)
      (by intros; contradiction)
      (fun _ hc => absurd (hc.finals.symm.trans (hset.done (Or.inr hp))) Nat.zero_ne_one)
  | takeDone hl hcan =>
    exact answerInv_loop s _ hs (fun _ => rfl)
      (by intros; contradiction)
      (fun _ hc => absurd (hc.finals.symm.trans (hset.done (Or.inl hcan))) Nat.zero_ne_one)
  | takeResponse env resp rest hl hr =>
    refine ⟨fun t ht => (by cases ht),
      fun hw => ?_, fun hans => ?_⟩
    · rcases hs.waiting hw with ⟨hno, he, ht⟩
      exact ⟨fun m hm => hno m (by rw [hr]; exact mem_cons_of_mem resp hm), he, ht⟩
    · rcases hs.answered hans with ha | hc
      · exact absurd ha.2 (by rw [hl]; exact Bool.false_ne_true)
      · exact .inr (coming_takeResponse h cc p env s resp rest hl hr hc)
  | takeError m rest hl hr =>
    -- Neither a waiting transaction nor one with Bob's answer has an error to report.
    have hne : s.bob.errors ≠ [] := by rw [hr]; exact cons_ne_nil m rest
    refine ⟨fun t ht => (by cases ht),
      fun hw => absurd (hs.waiting hw).2.1 hne, fun hans => ?_⟩
    rcases hs.answered hans with ha | hc
    · exact absurd ha.2 (by rw [hl]; exact Bool.false_ne_true)
    · exact absurd hc.errors hne
  | finish now env last hl =>
    have htodo : s.loop.todo = [] := by rw [hl]; rfl
    cases last with
    | false =>
      exact answerInv_loop s .select hs (by rw [hl]; exact id)
        (by intros; contradiction)
        (fun _ hc => Or.inl ⟨rfl, (hqueued htodo hc).2⟩)
    | true =>
      refine answerInv_loop s .ended hs (fun _ => rfl)
        (by intros; contradiction)
        (fun _ hc => absurd (hqueued htodo hc).1 ?_)
      rw [hl]
      simp [Loop.ending]
  | act now env a todo last o hl ho =>
    rcases act_frame h cc p now env s a o ho with ⟨hbob, htasks, hrec, _, _, out, hsent⟩
    refine ⟨fun t ht => (by cases ht), ?_,
      fun hans => ?_⟩
    · change o.1.bob.waiting = true → _
      rw [hbob, htasks]
      exact hs.waiting
    · have hans' : s.Answered := by
        rw [Leg.Answered, ← hrec]
        exact hans
      rcases hs.answered hans' with ha | hc
      · have hend := ha.2
        rw [hl] at hend
        exact .inl ⟨ha.1.mono out hsent, hend⟩
      · exact coming_act h cc p now env s a todo last hl hset o ho hc
  | bobResponse now msg u out hu => exact answerInv_bobResponse s now msg u out _ hs hok hu
  | bobExpire i ts ht =>
    exact answerInv_bobSide s _ s.bobTasks s.toBob hs (fun _ => ⟨rfl, rfl, id⟩) rfl id
      (fun ht _ => ht)
  | bobCallback i sendFails k ts ht =>
    have hpass := UACTransaction.passes_timerCallback sendFails { s.bob with timers := ts } k
    refine answerInv_bobSide s _ _ _ hs (fun _ => ⟨hpass.responses, hpass.errors, hpass.waiting⟩)
      hpass.responses hpass.waiting fun hno hcase x hx => ?_
    rcases mem_append.mp hx with hx | hx
    · exact hno x hx
    · cases hp : x.isPutTimeout with
      | false => rfl
      | true =>
        -- Timer B leaves no waiting transaction, and it does not run after an answer.
        rcases UACTransaction.putTimeout_of_timerCallback sendFails _ k x hx hp with ⟨hk, hw⟩
        rcases hcase with hw' | hans
        · cases hw.symm.trans hw'
        · rcases (Timers.take_eq_some_iff _ _ i k).mp ht with ⟨t, hti, _, hkind, _⟩
          exact absurd hans (hok t hti (hkind.symm.trans hk))
  | bobTask now i sendFails t ht =>
    have hmem := mem_of_getElem? ht
    refine answerInv_bobSide s _ _ _ hs
      (fun hno => UACTransaction.passes_runTask now sendFails s.bob t (hno t hmem))
      (UACTransaction.responses_runTask now sendFails s.bob t) (fun hw => ?_)
      fun hno _ x hx => ?_
    · cases hp : t.isPutTimeout with
      | false => exact (UACTransaction.passes_runTask now sendFails s.bob t hp).waiting hw
      | true =>
        cases t with
        | putTimeout =>
          rw [UACTransaction.waiting_putTimeout] at hw
          exact hw
        | _ => cases hp
    · rcases mem_append.mp hx with hx | hx
      · exact hno x (mem_of_mem_eraseIdx hx)
      · exact UACTransaction.not_putTimeout_of_runTask now sendFails s.bob t x hx
  | cancel now ev =>
    exact answerInv_aliceSide s _ _ hs rfl rfl rfl rfl rfl
      (fun hans hc => absurd hans (hok (hset.fresh hc.finals).1).2)
  | cancelStep now i j o hj ho =>
    rcases cancelStep_frame now s j o ho with ⟨hbob, htasks, hrec, hloop, out, hsent⟩
    refine answerInv_aliceSide s _ out hs hsent hloop hbob htasks hrec (fun _ hc => ?_)
    have hmem := mem_of_getElem? hj
    rw [hc.cancels] at hmem
    cases hmem
  | prackTimeout ht =>
    exact answerInv_aliceSide s _ [] hs (append_nil _).symm rfl rfl rfl rfl
      (fun hans _ => absurd hans hok.2)
  | timeoutRespond now hq =>
    exact answerInv_aliceSide s _ _ hs rfl rfl rfl rfl rfl
      (fun _ hc => by cases hc.timeout.symm.trans hq)
  | timeoutClose now hq =>
    exact answerInv_aliceSide s _ [] hs (append_nil _).symm rfl rfl rfl rfl
      (fun _ hc => by cases hc.timeout.symm.trans hq)
  | ack now | aliceExpire i ts ht =>
    exact answerInv_aliceSide s _ [] hs (append_nil _).symm rfl rfl rfl rfl
      (fun _ hc => ⟨hc.finals, hc.cancels, hc.timeout, hc.errors, hc.tasks, hc.place⟩)
  | retransmission | aliceCallback now i k ts ht =>
    exact answerInv_aliceSide s _ _ hs rfl rfl rfl rfl rfl
      (fun _ hc => ⟨hc.finals, hc.cancels, hc.timeout, hc.errors, hc.tasks, hc.place⟩)

omit [UnicodeLower] in
/-- Both invariants hold when the handler starts the loop. -/
theorem setup_invariants_start (cc : CallCtx) :
    SetupInv (Leg.start aliceBranch reliable cc) ∧ AnswerInv (Leg.start aliceBranch reliable cc) := by
  constructor
  · exact
      { one := Nat.zero_le 1
        ending := fun h => by cases h
        quiet := fun _ a ha => nomatch ha
        done := fun h => nomatch h
        jobs := fun j hj => nomatch hj
        closing := fun h => by cases h
        fresh := fun _ => ⟨rfl, rfl⟩
        unstored := fun _ => rfl
        channel := fun m hm => by cases hm
        answers := fun m hm => by cases hm }
  · refine ⟨fun t ht => (by cases ht),
      fun _ => ⟨fun m hm => (by cases hm), rfl, fun t ht => by cases ht⟩,
      fun hans => ?_⟩
    rcases hans with ⟨m, hm, _⟩
    cases hm

/-- Both invariants hold in every orderly run. -/
theorem setup_invariants (es : List LegEvent) (s : Leg)
    (hrun : Run (legStep h cc p bobInvite) Orderly (Leg.start aliceBranch reliable cc) es s) :
    SetupInv s ∧ AnswerInv s :=
  hrun.invariant (fun s => SetupInv s ∧ AnswerInv s) (setup_invariants_start aliceBranch reliable cc)
    fun s e t hs hok hstep =>
      ⟨setupInv_step h cc p bobInvite s t e hs.1 hok hstep,
        answerInv_step h cc p bobInvite s t e hs.1 hs.2 hok hstep⟩

end Step

/-! ### What Alice is sent -/

/-- Alice is sent nothing her transaction was not given, and it keeps nothing
    else for retransmission. -/
structure SentInv (s : Leg) : Prop where
  sent : ∀ m ∈ s.sent, m ∈ s.given
  lastResp : ∀ m, s.alice.lastResp = some m → m ∈ s.given

theorem sentInv_respond (now : Nat) (s : Leg) (res : SIPMessage) (hs : SentInv s) :
    SentInv (s.respond now res) := by
  have hin : ∀ m ∈ s.given, m ∈ s.given ++ [res] := fun m hm => mem_append_left _ hm
  have hres : res ∈ s.given ++ [res] := mem_append_right _ (mem_singleton.mpr rfl)
  -- Whatever `Respond` does, it sends the response or nothing and keeps it or what it had.
  have hcases : (∀ m ∈ (s.alice.respond now res).sent, m = res) ∧
      ((s.alice.respond now res).tx.lastResp = s.alice.lastResp ∨
        (s.alice.respond now res).tx.lastResp = some res) := by
    rcases s.alice.respond_cases now res with
      h | ⟨_, _, h⟩ | ⟨_, _, h⟩ | ⟨_, _, _, _, h⟩ | ⟨_, _, h⟩ | ⟨_, _, h⟩
    · rw [h]
      exact ⟨fun m hm => (by cases hm), Or.inl rfl⟩
    · rw [h]
      exact ⟨fun m hm => mem_singleton.mp hm, Or.inl rfl⟩
    · rw [h]
      exact ⟨fun m hm => mem_singleton.mp hm, Or.inl rfl⟩
    · rw [h]
      exact ⟨fun m hm => mem_singleton.mp hm, Or.inl rfl⟩
    · rw [h]
      refine ⟨fun m hm => mem_singleton.mp hm, Or.inr ?_⟩
      rw [InviteTransaction.startTimerG_lastResp]
      rfl
    · rw [h]
      exact ⟨fun m hm => (by cases hm), Or.inr rfl⟩
  refine ⟨fun m hm => ?_, fun m hm => ?_⟩
  · rcases mem_append.mp hm with hm | hm
    · exact hin m (hs.sent m hm)
    · rw [hcases.1 m hm]
      exact hres
  · rcases hcases.2 with hl | hl
    · exact hin m (hs.lastResp m (hl.symm.trans hm))
    · rw [← some.inj (hl.symm.trans hm)]
      exact hres

/-- Sending what is kept for retransmission. -/
theorem sentInv_resend (s : Leg) (alice : InviteTransaction) (out : List SIPMessage)
    (hs : SentInv s) (hl : alice.lastResp = s.alice.lastResp)
    (hout : ∀ m ∈ out, m ∈ s.alice.lastResp.toList) :
    SentInv { s with alice := alice, sent := s.sent ++ out } := by
  refine ⟨fun m hm => ?_, fun m hm => hs.lastResp m (hl.symm.trans hm)⟩
  rcases mem_append.mp hm with hm | hm
  · exact hs.sent m hm
  · exact hs.lastResp m (mem_toList.mp (hout m hm))

theorem ackReceived_lastResp (now : Nat) (tx : InviteTransaction) :
    (tx.ackReceived now).tx.lastResp = tx.lastResp := by
  unfold InviteTransaction.ackReceived
  split
  · rfl
  · simp only
    split <;> rfl

/-- A timer callback sends what is kept or nothing. -/
theorem timerCallback_resends (now : Nat) (tx : InviteTransaction) (k : ISTTimer) :
    (tx.timerCallback now k).tx.lastResp = tx.lastResp ∧
      ∀ m ∈ (tx.timerCallback now k).sent, m ∈ tx.lastResp.toList := by
  cases k with
  | G =>
    simp only [InviteTransaction.timerCallback]
    split
    · exact ⟨rfl, fun _ => (absurd · not_mem_nil)⟩
    · exact ⟨rfl, fun m hm => hm⟩
  | H | I =>
    simp only [InviteTransaction.timerCallback]
    split <;> exact ⟨rfl, fun _ => (absurd · not_mem_nil)⟩

theorem sentInv_act [SdpCodec] (h : Handler) (cc : CallCtx) (p : Peer) (now : Nat) (env : LoopEnv)
    (s : Leg) (a : Action) (o : Leg × List Action) (hs : SentInv s)
    (ho : s.act h cc p now env a = some o) : SentInv o.1 := by
  cases a with
  | respond res =>
    cases ho
    exact sentInv_respond now s res hs
  | sendReliable prov =>
    rw [Leg.act] at ho
    split at ho
    · cases ho
      have hr := sentInv_respond now s (ReliableProvisionalManager.numbered prov
        (s.prack.getD 0 + 1)) hs
      exact ⟨hr.sent, hr.lastResp⟩
    · contradiction
  | cancelPRACK =>
    rw [Leg.act] at ho
    split at ho
    · cases ho
      exact ⟨hs.sent, hs.lastResp⟩
    · contradiction
  | _ =>
    cases ho
    exact ⟨hs.sent, hs.lastResp⟩

theorem sentInv_cancelStep (now : Nat) (s : Leg) (j : CancelJob) (o : Leg × Option CancelPoint)
    (hs : SentInv s) (ho : s.cancelStep now j = some o) : SentInv o.1 := by
  rcases j with ⟨req, pc⟩
  unfold Leg.cancelStep at ho
  cases pc with
  | respond early =>
    cases ho
    exact sentInv_respond now s _ hs
  | cancelPRACK =>
    simp only at ho
    split at ho
    · cases ho
      exact ⟨hs.sent, hs.lastResp⟩
    · cases ho
  | _ =>
    cases ho
    exact ⟨hs.sent, hs.lastResp⟩

/-- Every step keeps to what Alice's transaction was given. -/
theorem sentInv_step [SdpCodec] [UnicodeLower] (h : Handler) (cc : CallCtx) (p : Peer)
    (bobInvite : SIPMessage) (s t : Leg) (e : LegEvent) (hs : SentInv s)
    (hstep : legStep h cc p bobInvite s e = some t) : SentInv t := by
  cases legStep_cases h cc p bobInvite s t e hstep with
  | act now env a todo last o hl ho =>
    have ha := sentInv_act h cc p now env s a o hs ho
    exact ⟨ha.sent, ha.lastResp⟩
  | cancel now ev =>
    rcases Leg.cancelRequest_cases now s.alice ev with ⟨hsent, _, _, _, hlast⟩
    have hr := sentInv_resend s (s.alice.cancelRequest now ev true).tx
      (s.alice.cancelRequest now ev true).sent hs hlast
      (fun m hm => absurd hm (by rw [hsent]; exact not_mem_nil))
    exact ⟨hr.sent, hr.lastResp⟩
  | cancelStep now i j o hj ho =>
    have hc := sentInv_cancelStep now s j o hs ho
    exact ⟨hc.sent, hc.lastResp⟩
  | timeoutRespond now hq =>
    have hr := sentInv_respond now s (newResponse cc.req 504 (ascii "PRACK Timeout")) hs
    exact ⟨hr.sent, hr.lastResp⟩
  | ack now =>
    exact ⟨hs.sent, fun m hm => hs.lastResp m ((ackReceived_lastResp now s.alice).symm.trans hm)⟩
  | retransmission =>
    refine sentInv_resend s s.alice _ hs rfl fun m hm => ?_
    unfold InviteTransaction.retransmission at hm
    split at hm
    · exact hm
    · cases hm
  | aliceCallback now i k ts ht =>
    have hc := timerCallback_resends now { s.alice with timers := ts } k
    exact sentInv_resend s _ _ hs hc.1 hc.2
  | _ => exact ⟨hs.sent, hs.lastResp⟩

/-- In whatever order things happen, Alice's transaction sends only what it was
    given. The answer to a CANCEL itself is not sent by it. -/
theorem sent_subset_given [SdpCodec] [UnicodeLower] (h : Handler) (cc : CallCtx) (p : Peer)
    (bobInvite : SIPMessage) (aliceBranch : Bytes) (reliable : Bool) (es : List LegEvent) (s : Leg)
    (hrun : Run (legStep h cc p bobInvite) (fun _ _ => True) (Leg.start aliceBranch reliable cc) es
      s) : s.sent ⊆ s.given :=
  (hrun.invariant SentInv ⟨fun _ => (absurd · not_mem_nil), fun _ hm => by cases hm⟩
    (fun s e t hs _ hstep => sentInv_step h cc p bobInvite s t e hs hstep)).sent

/-! ### Agreement -/

/-- The messages to Bob have an ACK and a BYE behind it. -/
def AckThenBye (toBob : List SIPMessage) : Prop :=
  ∃ m ∈ toBob.dropWhile (fun m => m.method ≠ .ACK), m.method = .BYE

instance (toBob : List SIPMessage) : Decidable (AckThenBye toBob) :=
  inferInstanceAs (Decidable (∃ m ∈ _, _))

instance (s : Leg) : Decidable s.Accepted := inferInstanceAs (Decidable (∃ m ∈ s.sent, _))

/-- Alice is never sent both a 487 and a 200, and when nothing is left to do, an
    answer of Bob has led to a 200 for Alice or was taken back from him. -/
def TwoLegs (s : Leg) : Prop :=
  ¬ ((∃ m ∈ s.sent, m.statusCode = 487) ∧ s.Accepted) ∧
    (s.Quiescent → s.Answered → s.Accepted ∨ AckThenBye s.toBob)

instance (s : Leg) : Decidable (TwoLegs s) := inferInstanceAs (Decidable (¬ (_ ∧ _) ∧ (_ → _ → _)))

/-- Two responses with different codes, both final, count twice. -/
theorem two_le_finals (l : List SIPMessage) (a b : SIPMessage) (ha : a ∈ l) (hb : b ∈ l)
    (hne : a ≠ b) (hfa : isFinal a = true) (hfb : isFinal b = true) : 2 ≤ l.countP isFinal := by
  rcases append_of_mem ha with ⟨l₁, l₂, hl⟩
  have hb' : b ∈ l₁ ++ l₂ := by
    rw [hl] at hb
    rcases mem_append.mp hb with hb | hb
    · exact mem_append_left _ hb
    · rcases mem_cons.mp hb with hb | hb
      · exact absurd hb.symm hne
      · exact mem_append_right _ hb
  have hpos : 0 < (l₁ ++ l₂).countP isFinal := countP_pos_iff.mpr ⟨b, hb', hfb⟩
  rw [countP_append] at hpos
  rw [hl, countP_append, countP_cons, hfa, if_pos rfl]
  omega

/-- In every orderly run the two legs agree. -/
theorem twoLegs_of_orderly [SdpCodec] [UnicodeLower] (h : Handler) (cc : CallCtx) (p : Peer)
    (bobInvite : SIPMessage) (aliceBranch : Bytes) (reliable : Bool) (es : List LegEvent) (s : Leg)
    (hrun : Run (legStep h cc p bobInvite) Orderly (Leg.start aliceBranch reliable cc) es s) :
    TwoLegs s := by
  rcases setup_invariants h cc p bobInvite aliceBranch reliable es s hrun with ⟨hset, hans⟩
  have hsent : SentInv s := hrun.invariant SentInv
    ⟨fun m hm => absurd hm not_mem_nil,
      fun m hm => absurd hm (by simp only [Leg.start, InviteTransaction.create, reduceCtorEq,
        not_false_eq_true])⟩
    (fun s e t hs _ hstep => sentInv_step h cc p bobInvite s t e hs hstep)
  constructor
  · rintro ⟨⟨a, ha, ha487⟩, b, hb, hb200⟩
    have htwo := two_le_finals s.given a b (hsent.sent a ha) (hsent.sent b hb)
      (fun hab => by rw [hab] at ha487; omega)
      (by rw [isFinal, decide_eq_true_eq]; omega) (by rw [isFinal, decide_eq_true_eq]; omega)
    have hone : s.given.countP isFinal + _ + _ ≤ 1 := hset.one
    omega
  · intro hq hansw
    rcases hans.answered hansw with ha | hc
    · exact .inl ha.1
    · exact absurd hq.2.2.2 (not_atRest_of_coming s hc)

/-! ### One call -/

/-- A session description with one audio line. -/
def audioBody : Bytes :=
  ascii "v=0\r\no=- 1 1 IN IP4 198.51.100.7\r\ns=-\r\nt=0 0\r\nm=audio 4000 RTP/AVP 0\r\n"

/-- A handler without reliable provisional responses. -/
def plainHandler : Handler := ⟨ascii "192.0.2.1", ascii "5060", false⟩

/-- An INVITE with an offer. -/
def dialledCall : SIPMessage :=
  { newRequest .INVITE (ascii "sip:bo@trecs") with
    headers := SIPHeaders.add (SIPHeaders.add (SIPHeaders.add (SIPHeaders.add ∅
      hFrom (ascii "<sip:al@trecs>;tag=a1")) hTo (ascii "<sip:bo@trecs>")) hCallID (ascii "c1"))
      (ascii "Content-Type") (ascii "application/sdp")
    body := audioBody }

/-- The binding of Bob's phone. -/
def bobsBinding : Binding := ⟨0, 0, ascii "sip:bo@198.51.100.7", [], [], [], 1, 0, false⟩

/-- A network that reaches Bob's phone. -/
def reachable : InviteEnv where
  matchRoute _ := none
  getBindings _ := [bobsBinding]
  selectBinding bindings := bindings.getLast?.map (fun b => (b, ⟨none, none, []⟩, .udp))
  targetFromContact _ := some (⟨none, none, []⟩, .udp)
  handleOutbound := true
  rtpPortA := some 4000
  rtpPortB := some 4002
  fallbackTag := ascii "a0"
  serverTag := ascii "s1"
  calleeTag := ascii "s2"
  bobCallID := ascii "c2"
  rnd := none
  sessionID := []
  aliceTransport := .udp
  aliceTarget := ⟨none, none, []⟩

/-- The context of the call to Bob's phone. -/
def dialledCtx : CallCtx :=
  callCtx plainHandler reachable dialledCall (ascii "192.0.2.1") (ascii "a1") ⟨none, none, []⟩ .udp
    (4000, 4002) ⟨∅, [], ascii "sip:al@trecs", ascii "a1"⟩ ⟨∅, [], ascii "sip:bo@trecs", []⟩
    (unmarshalSDPBytes dialledCall.body) PCMU

/-- Bob's phone. -/
def bobsPhone : Peer := .user bobsBinding false

/-- The INVITE to Bob's phone, with the tag he gives in his responses. -/
def inviteToBob : SIPMessage :=
  { newRequest .INVITE (ascii "sip:bo@198.51.100.7") with
    headers := SIPHeaders.add (SIPHeaders.add ∅ hTo (ascii "<sip:bo@trecs>;tag=b1"))
      hCallID (ascii "c2") }

/-- The call before the loop starts. -/
def dialledLeg : Leg := .start (ascii "z9hG4bKa1") false dialledCtx

/-- The loop starts and sends the INVITE. -/
def dialling : List LegEvent := .start :: List.replicate 7 (.send 0 false)

/-- What the loop needs from outside when Alice's media address resolves. -/
def resolving : LoopEnv := ⟨none, [], true⟩

/-- The loop does the next `n` things. -/
def actions (n : Nat) : List LegEvent := List.replicate n (.act 0 resolving)

/-- Bob is ringing. -/
def bobRings : LegEvent := .bobResponse 0 (newResponse inviteToBob 180 (ascii "Ringing"))

/-- Bob answers with a session description. -/
def bobAnswers : LegEvent :=
  .bobResponse 0 { newResponse inviteToBob 200 (ascii "OK") with body := audioBody }

/-- Alice's CANCEL. -/
def cancelOfCall : SIPMessage :=
  { newRequest .CANCEL (ascii "sip:bo@trecs") with headers := dialledCall.headers }

/-- Alice cancels. -/
def aliceCancels : LegEvent := .cancel 0 ⟨cancelOfCall, ⟨none, none, []⟩⟩

/-- Bob rings and answers, and Alice gets both. -/
def answeredByBob : List LegEvent :=
  dialling ++ [bobRings, .takeResponse resolving] ++ actions 2 ++
    [bobAnswers, .takeResponse resolving] ++ actions 8

open Samples

theorem twoLegs_answeredByBob :
    ∃ s, Run (legStep plainHandler dialledCtx bobsPhone inviteToBob) Orderly dialledLeg
        answeredByBob s ∧
      s.Quiescent ∧ s.Answered ∧ s.sent.map SIPMessage.statusCode = [180, 200] ∧ TwoLegs s := by
  refine exists_run_imp (fun s => s.Quiescent ∧ s.Answered ∧
    s.sent.map SIPMessage.statusCode = [180, 200]) (by decide +kernel) ?_
  rintro s hrun ⟨hq, ha, hsent⟩
  exact ⟨hq, ha, hsent, twoLegs_of_orderly plainHandler dialledCtx bobsPhone inviteToBob
    (ascii "z9hG4bKa1") false answeredByBob s hrun⟩

/-- The loop has looked at the context when Alice's CANCEL is handled: the 487
    goes out first, and the 200 follows it. -/
def canceledTooLate : List LegEvent :=
  dialling ++ [bobAnswers, .takeResponse resolving] ++ actions 2 ++ [aliceCancels] ++
    List.replicate 3 (.cancelStep 0 0) ++ actions 2

/-- Alice's CANCEL is handled to the end when Bob's answer arrives: it is
    dropped, and Bob hears no more of the call. -/
def answeredTooLate : List LegEvent :=
  dialling ++ [aliceCancels] ++ List.replicate 7 (.cancelStep 0 0) ++ [bobAnswers, .takeDone] ++
    actions 4

theorem sent_subset_given_canceledTooLate :
    ∃ s, Run (legStep plainHandler dialledCtx bobsPhone inviteToBob) (fun _ _ => True) dialledLeg
      canceledTooLate s ∧ s.sent.length = 2 ∧ s.sent ⊆ s.given :=
  exists_run_and (by decide +kernel) (fun s hrun _ => sent_subset_given _ _ _ _ _ _ _ s hrun)

/-- Without the condition neither half of the agreement holds. -/
theorem twoLegs_fails :
    (∃ s, Run (legStep plainHandler dialledCtx bobsPhone inviteToBob) (fun _ _ => True) dialledLeg
        canceledTooLate s ∧
      s.sent.map SIPMessage.statusCode = [487, 200]) ∧
    ∃ s, Run (legStep plainHandler dialledCtx bobsPhone inviteToBob) (fun _ _ => True) dialledLeg
        answeredTooLate s ∧
      s.Quiescent ∧ s.Answered ∧ ¬ s.Accepted ∧
      s.toBob.map SIPMessage.method = [.INVITE, .CANCEL] ∧ ¬ TwoLegs s := by
  refine ⟨exists_run_of_exec (by decide +kernel), exists_run_of_exec (by decide +kernel)⟩

end B2bua

end Trecs
