import Trecs.Lib.Table
import Trecs.B2bua.Channels
import Trecs.B2bua.Hangup

/-!
# Session Timers and the Calls They Are For

`trunkSessionTimer` is started for a call and knows only Alice's Call-ID and the
trunk. When it expires it looks the Call-ID up, and takes the call it finds for
its own: it sends Alice a BYE, removes the sessions and the call, and gives a
channel of its own trunk back. Nothing stops the timer when its call ends.

So the timer of a call that has ended does no harm only as long as nobody uses
its Call-ID again. To say which call is whose the exchange is run together with
its history: by which leg each call was stored, each session added and each
timer started. The history has no influence on what happens. The sessions of a
call are added in the step that stores it, and removed in the step that removes
it.

If every call is stored with Call-IDs that no stored call has, and that no timer
of another call is after, a timer finds its own call or none. Neither can be
left out. Also `Get` finds calls by the other Call-ID, so that the Call-ID of the
dialog with Bob must not be one a timer is after.

## Main definitions

* `Traced`, `tracedStep`: The exchange with its history.
* `Traced.Ended`: The call of a leg is not stored, or not any more.
* `AffectsOnly`, `Traced.Confined`: A step of a session timer touches its own call.
* `FreshCall`, `FreshStep`: The Call-IDs of a new call are in nobody's way.

## Theorems

* `ex_of_run`, `exists_traced_run`: The runs with and without history.
* `Traced.Inv.step`: What a step keeps.
* `confined_of_run`: Session timers in every run.
-/

namespace Trecs

open List Option

namespace B2bua

open Proto Sip Trunks Media

/-- The two Call-IDs of a call. -/
def Call.ids (c : Call) : List Bytes := [c.aliceCallID, c.bobCallID]

/-- The exchange, its teardowns with the leg that started each timer, and the
    legs that stored the calls and added the sessions there are. -/
structure Traced where
  ex : Exchange
  jobs : List (Teardown × Option Nat)
  owners : AList (fun _ : Bytes => Nat)
  sessions : AList (fun _ : SessionKey => Nat)

namespace Traced

/-- The exchange before the first call. -/
def start (trunks : AList (fun _ : Bytes => Trunk)) : Traced := ⟨.start trunks, [], ∅, ∅⟩

/-- Leg `i` adds the sessions of a call and stores it. -/
def store (s : Traced) (i : Nat) (call : Call) : Traced :=
  { s with
    owners := s.owners.insert call.aliceCallID i
    sessions := (s.sessions.insert (call.session .alice) i).insert (call.session .bob) i }

/-- The sessions of a call are removed, and the call. -/
def remove (s : Traced) (call : Call) : Traced :=
  { s with
    owners := s.owners.erase call.aliceCallID
    sessions := (s.sessions.erase (call.session .alice)).erase (call.session .bob) }

/-- What a teardown does besides sending and giving channels back. -/
def tearDown (s : Traced) : TeardownPoint → Traced
  | .remove call => s.remove call
  | _ => s

/-- The job at `j` goes on at `pc` or returns. -/
def resume (s : Traced) (j : Nat) (p : Teardown × Option Nat) (pc : Option TeardownPoint) :
    Traced :=
  { s with jobs := resumeAt s.jobs j (pc.map (fun pc => (⟨p.1.callID, p.1.timerOf, pc⟩, p.2))) }

/-- The history after an action of leg `i`. -/
def act (s : Traced) (i : Nat) : Action → Traced
  | .storeCall call => s.store i call
  | .sessionTimer callID name _ =>
    { s with jobs := s.jobs ++ [(⟨callID, some name, .waiting⟩, some i)] }
  | _ => s

/-- The history after an event. -/
def record (h : Handler) (s : Traced) : ExchangeEvent → Traced
  | .act i _ => (s.ex.legs[i]?.bind TrunkLeg.next?).elim s (s.act i)
  | .bye req =>
    { s with
      jobs := s.jobs ++ [(⟨SIPHeaders.getFirst req.headers hCallID, none, .lookup⟩, none)] }
  | .expire j => s.jobs[j]?.elim s (fun p => s.resume j p (some .lookup))
  | .stopTimer j => s.jobs[j]?.elim s (fun p => s.resume j p none)
  | .teardown j rnd =>
    s.jobs[j]?.elim s (fun p =>
    (s.ex.teardownStep h rnd p.1).elim s (fun o => (s.tearDown p.1.pc).resume j p o.2))
  | _ => s

end Traced

section Runs

variable [SdpCodec] [UnicodeLower]

/-- The effect of an event on the exchange and its history. -/
def tracedStep (h : Handler) (s : Traced) (e : ExchangeEvent) : Option Traced :=
  (exchangeStep h s.ex e).map (fun ex => { s.record h e with ex := ex })

theorem ex_of_step (h : Handler) (s t : Traced) (e : ExchangeEvent)
    (hstep : tracedStep h s e = some t) : exchangeStep h s.ex e = some t.ex := by
  rcases map_eq_some_iff.mp hstep with ⟨ex, hex, rfl⟩
  exact hex

/-- A run with its history is a run. -/
theorem ex_of_run (h : Handler) (ok : Traced → ExchangeEvent → Prop) (s t : Traced)
    (es : List ExchangeEvent) (hrun : Run (tracedStep h) ok s es t) :
    Run (exchangeStep h) (fun _ _ => True) s.ex es t.ex := by
  induction hrun with
  | nil => exact .nil
  | snoc _ _ hstep ih => exact .snoc ih trivial (ex_of_step h _ _ _ hstep)

/-- Every run has a history. -/
theorem exists_traced_run (h : Handler) (s : Traced) (es : List ExchangeEvent) (u : Exchange)
    (hrun : Run (exchangeStep h) (fun _ _ => True) s.ex es u) :
    ∃ t, t.ex = u ∧ Run (tracedStep h) (fun _ _ => True) s es t := by
  induction hrun with
  | nil => exact ⟨s, rfl, .nil⟩
  | @snoc es u v e _ _ hstep ih =>
    rcases ih with ⟨t, rfl, ht⟩
    refine ⟨{ t.record h e with ex := v }, rfl, .snoc ht trivial ?_⟩
    rw [tracedStep, hstep]
    rfl

end Runs

/-! ### What a timer may do -/

namespace Traced

/-- The call of leg `i` is not stored. -/
def Ended (s : Traced) (i : Nat) : Prop := ∀ k, s.owners.lookup k ≠ some i

theorem ended_iff (s : Traced) (i : Nat) : (∀ e ∈ s.owners.entries, e.2 ≠ i) ↔ s.Ended i := by
  constructor
  · exact fun h k hk => h ⟨k, i⟩ (AList.mem_lookup_iff.mp hk) rfl
  · rintro h ⟨k, o⟩ he rfl
    exact h k (AList.mem_lookup_iff.mpr he)

instance (s : Traced) (i : Nat) : Decidable (s.Ended i) := decidable_of_iff _ (s.ended_iff i)

end Traced

/-- Between `s` and `t` nothing happens but to the call of leg `i`: its BYE to
    Alice, its sessions, its place in the store and a channel of its trunk. -/
structure AffectsOnly (h : Handler) (i : Nat) (s t : Traced) : Prop where
  calls : ∀ k, t.ex.store.calls.lookup k ≠ s.ex.store.calls.lookup k → s.owners.lookup k = some i
  sessions : ∀ key, t.sessions.lookup key ≠ s.sessions.lookup key → s.sessions.lookup key = some i
  sent : t.ex.sent = s.ex.sent ∨ ∃ k call branch,
    s.ex.store.calls.lookup k = some call ∧ s.owners.lookup k = some i ∧
      t.ex.sent = s.ex.sent ++ [call.byeToAlice h.serverIP h.serverPort branch]
  channels : (t.ex.mgr = s.ex.mgr ∧ t.ex.released = s.ex.released) ∨ ∃ l,
    s.ex.legs[i]? = some l ∧ t.ex.mgr = s.ex.mgr.releaseChannel l.trunkName ∧
      t.ex.released = s.ex.released ++ [l.trunkName]

/-- Between `s` and `t` the teardown at `j` has gone, and nothing else has
    happened. -/
structure OnlyGone (j : Nat) (s t : Traced) : Prop where
  ex : t.ex = { s.ex with teardowns := s.ex.teardowns.eraseIdx j }
  jobs : t.jobs = s.jobs.eraseIdx j
  sessions : t.sessions = s.sessions

section Property

variable [SdpCodec] [UnicodeLower]

/-- What a session timer does next affects only its own call. If that has ended
    when the timer looks it up, the timer goes away. -/
def Traced.Confined (h : Handler) (s : Traced) : Prop :=
  ∀ j rnd td i t, s.jobs[j]? = some (td, some i) →
    tracedStep h s (.teardown j rnd) = some t →
      AffectsOnly h i s t ∧ (td.pc = .lookup → s.Ended i → OnlyGone j s t)

end Property

/-! ### The condition -/

/-- The Call-IDs of the call a teardown is after. -/
def Teardown.watched (td : Teardown) : List Bytes :=
  match td.pc with
  | .waiting | .lookup => [td.callID]
  | .remove call => call.ids
  | .release _ => []

/-- The Call-ID of a timer to be started. -/
def Action.timed : Action → List Bytes
  | .sessionTimer callID _ _ => [callID]
  | _ => []

/-- No stored call has a Call-ID of the call that leg `i` stores, and no session
    timer of another call is after one or will be. -/
def FreshCall (s : Traced) (i : Nat) (call : Call) : Prop :=
  ∀ k ∈ call.ids,
    (∀ e ∈ s.ex.store.calls.entries, k ∉ e.2.ids) ∧
    (∀ p ∈ s.jobs, p.2.isSome = true → k ∉ p.1.watched) ∧
    ∀ l ∈ s.ex.legs.eraseIdx i, ∀ a ∈ l.loop.todo, k ∉ a.timed

instance (s : Traced) (i : Nat) (call : Call) : Decidable (FreshCall s i call) :=
  inferInstanceAs (Decidable (∀ k ∈ call.ids, _ ∧ _ ∧ _))

/-- Every call that is stored is fresh. -/
def FreshAction (s : Traced) (i : Nat) : Action → Prop
  | .storeCall call => FreshCall s i call
  | _ => True

instance (s : Traced) (i : Nat) : (a : Action) → Decidable (FreshAction s i a)
  | .storeCall _ => inferInstanceAs (Decidable (FreshCall _ _ _))
  | .respond _ | .sendReliable _ | .sendBob _ | .cancelPRACK | .release _ | .answer _
  | .sessionTimer _ _ _ | .removeEarly _ => inferInstanceAs (Decidable True)

/-- What a step must meet for the timers to be confined. -/
def FreshStep (s : Traced) : ExchangeEvent → Prop
  | .act i _ => ∀ a ∈ s.ex.legs[i]?.bind TrunkLeg.next?, FreshAction s i a
  | _ => True

instance (s : Traced) : (e : ExchangeEvent) → Decidable (FreshStep s e)
  | .act i _ => inferInstanceAs (Decidable (∀ a ∈ s.ex.legs[i]?.bind TrunkLeg.next?, _))
  | .invite _ _ _ _ _ | .sent _ _ | .takeDone _ | .takeResponse _ _ _ | .takeError _ | .cancel _
  | .cancelStep _ | .bye _ | .expire _ | .stopTimer _ | .teardown _ _ =>
    inferInstanceAs (Decidable True)

/-! ### The invariant -/

/-- The dialogs of the call have its Call-IDs. -/
def Call.Coherent (c : Call) : Prop :=
  c.aliceDialog.id.callID = c.aliceCallID ∧ c.bobDialog.id.callID = c.bobCallID

/-- A session has one of the Call-IDs of its call. -/
theorem Call.Coherent.session_mem {c : Call} (h : c.Coherent) (side : Side) :
    (c.session side).callID ∈ c.ids := by
  cases side with
  | alice => exact mem_cons.mpr (Or.inl h.1)
  | bob => exact mem_cons_of_mem _ (mem_singleton.mpr h.2)

/-- The action has nothing to do with the call once it is answered. -/
def Action.Idle : Action → Prop
  | .answer _ | .storeCall _ | .sessionTimer _ _ _ => False
  | _ => True

/-- The timers that are left to be started are for trunk `name`. Each is started
    right after its call is stored, or its Call-ID is `armed`. Nothing but idle
    actions follow an answer. -/
def TimersIn (name : Bytes) : (Bytes → Prop) → List Action → Prop
  | _, [] => True
  | armed, a :: todo =>
    (∀ callID t expires, a = .sessionTimer callID t expires → t = name ∧ armed callID) ∧
      (∀ call, a = .storeCall call → call.Coherent) ∧
      (∀ resp, a = .answer resp → ∀ b ∈ todo, b.Idle) ∧
      TimersIn name (fun k => ∃ call, a = .storeCall call ∧ call.aliceCallID = k) todo

namespace Traced

/-- A lookup of `callID` finds the call of leg `i` or none. -/
def Own (s : Traced) (callID : Bytes) (i : Nat) : Prop :=
  (∀ c, s.ex.store.calls.lookup callID = some c → s.owners.lookup callID = some i) ∧
    ∀ a c, s.ex.store.bobToAlice.lookup callID = some a → s.ex.store.calls.lookup a = some c →
      s.owners.lookup a = some i

/-- The sessions under the keys of the call are those of leg `i`. -/
def OwnSessions (s : Traced) (c : Call) (i : Nat) : Prop :=
  ∀ side o, s.sessions.lookup (c.session side) = some o → o = i

/-- What a timer of leg `i` is after is the call of that leg. -/
def PointOk (s : Traced) (i : Nat) (td : Teardown) : Prop :=
  match td.pc with
  | .waiting | .lookup => s.Own td.callID i
  | .remove call => call.Coherent ∧ s.OwnSessions call i ∧
      ∀ c, s.ex.store.calls.lookup call.aliceCallID = some c →
        s.owners.lookup call.aliceCallID = some i
  | .release name => td.timerOf = some name

/-- The trunk of a leg. -/
def trunkOf (s : Traced) (i : Nat) : Option Bytes := s.ex.legs[i]?.map TrunkLeg.trunkName

/-- A session timer gives channels of the trunk of its leg back. -/
structure TimerOk (s : Traced) (i : Nat) (td : Teardown) : Prop where
  trunk : ∃ name, s.trunkOf i = some name ∧ td.timerOf = some name
  point : s.PointOk i td

/-- A leg is about to start timers for its own call only. -/
structure LegOk (s : Traced) (i : Nat) (l : TrunkLeg) : Prop where
  timers : TimersIn l.trunkName (fun k => s.Own k i) l.loop.todo
  peer : ∀ st ∈ l.started, ∃ bobReqURI sessionExpires,
    st.peer = .trunk l.trunkName bobReqURI sessionExpires

/-- The maps of the store agree, and the sessions of a stored call are its own. -/
structure TablesOk (s : Traced) : Prop where
  keyed : ∀ a c, s.ex.store.calls.lookup a = some c → c.aliceCallID = a ∧ c.Coherent
  indexed : ∀ b a, s.ex.store.bobToAlice.lookup b = some a →
    ∃ c, s.ex.store.calls.lookup a = some c ∧ c.bobCallID = b
  sessions : ∀ a c i, s.ex.store.calls.lookup a = some c → s.owners.lookup a = some i →
    s.OwnSessions c i

/-- What holds of the exchange and its history. -/
structure Inv (s : Traced) : Prop where
  tables : s.TablesOk
  jobs : s.ex.teardowns = s.jobs.map Prod.fst
  timers : ∀ td i, (td, some i) ∈ s.jobs → s.TimerOk i td
  legs : ∀ i l, s.ex.legs[i]? = some l → s.LegOk i l

/-- Whatever `t` has under other Call-IDs than `ids`, `s` has too. -/
structure Keeps (ids : List Bytes) (s t : Traced) : Prop where
  calls : ∀ a c, a ∉ ids → t.ex.store.calls.lookup a = some c →
    s.ex.store.calls.lookup a = some c ∧ t.owners.lookup a = s.owners.lookup a
  index : ∀ b a, b ∉ ids → t.ex.store.bobToAlice.lookup b = some a →
    s.ex.store.bobToAlice.lookup b = some a ∧ a ∉ ids
  sessions : ∀ key o, key.callID ∉ ids → t.sessions.lookup key = some o →
    s.sessions.lookup key = some o
  trunks : ∀ i name, s.trunkOf i = some name → t.trunkOf i = some name

namespace Keeps

variable {ids : List Bytes} {s t : Traced}

theorem own (hk : Keeps ids s t) {k : Bytes} {i : Nat} (hnot : k ∉ ids) (h : s.Own k i) :
    t.Own k i := by
  refine ⟨fun c hc => ?_, fun a c hb hc => ?_⟩
  · rcases hk.calls k c hnot hc with ⟨hc', howner⟩
    rw [howner]
    exact h.1 c hc'
  · rcases hk.index k a hnot hb with ⟨hb', ha⟩
    rcases hk.calls a c ha hc with ⟨hc', howner⟩
    rw [howner]
    exact h.2 a c hb' hc'

theorem ownSessions (hk : Keeps ids s t) {c : Call} {i : Nat} (hc : c.Coherent)
    (hnot : ∀ k ∈ c.ids, k ∉ ids) (h : s.OwnSessions c i) : t.OwnSessions c i :=
  fun side o ho => h side o (hk.sessions _ o (hnot _ (hc.session_mem side)) ho)

theorem timerOk (hk : Keeps ids s t) {td : Teardown} {i : Nat} (hnot : ∀ k ∈ td.watched, k ∉ ids)
    (h : s.TimerOk i td) : t.TimerOk i td := by
  rcases h.trunk with ⟨name, hname, htimer⟩
  refine ⟨⟨name, hk.trunks i name hname, htimer⟩, ?_⟩
  have hpoint := h.point
  rcases td with ⟨callID, timerOf, pc⟩
  cases pc with
  | waiting | lookup => exact hk.own (hnot callID (mem_singleton.mpr rfl)) hpoint
  | remove call =>
    rcases hpoint with ⟨hc, hsessions, hcalls⟩
    refine ⟨hc, hk.ownSessions hc hnot hsessions, fun c' hc' => ?_⟩
    rcases hk.calls call.aliceCallID c' (hnot _ mem_cons_self) hc' with ⟨hold, howner⟩
    rw [howner]
    exact hcalls c' hold
  | release name' => exact hpoint

end Keeps

end Traced

theorem TimersIn.mono {name : Bytes} {armed armed' : Bytes → Prop} {todo : List Action}
    (h : TimersIn name armed todo) (hmono : ∀ a ∈ todo, ∀ k ∈ a.timed, armed k → armed' k) :
    TimersIn name armed' todo := by
  cases todo with
  | nil => trivial
  | cons a todo =>
    refine ⟨fun callID t expires ha => ?_, h.2⟩
    rcases h.1 callID t expires ha with ⟨hname, harmed⟩
    refine ⟨hname, hmono a mem_cons_self callID ?_ harmed⟩
    rw [ha]
    exact mem_singleton.mpr rfl

theorem timersIn_of_idle (name : Bytes) (armed : Bytes → Prop) (todo : List Action)
    (h : ∀ a ∈ todo, a.Idle) : TimersIn name armed todo := by
  induction todo generalizing armed with
  | nil => trivial
  | cons a todo ih =>
    have hidle := h a mem_cons_self
    refine ⟨fun callID t expires ha => ?_, fun call ha => ?_, fun resp ha => ?_,
      ih _ (fun b hb => h b (mem_cons_of_mem a hb))⟩
    · rw [ha] at hidle
      exact hidle.elim
    · rw [ha] at hidle
      exact hidle.elim
    · rw [ha] at hidle
      exact hidle.elim

/-- After an action that stores no call, what is left starts no timer at once. -/
theorem TimersIn.tail {name : Bytes} {armed armed' : Bytes → Prop} {a : Action}
    {todo : List Action} (h : TimersIn name armed (a :: todo)) (ha : ∀ call, a ≠ .storeCall call) :
    TimersIn name armed' todo := by
  refine h.2.2.2.mono fun _ _ k _ hk => ?_
  rcases hk with ⟨call, hcall, -⟩
  exact absurd hcall (ha call)

namespace Traced

namespace Inv

variable {s t : Traced}

/-- A step keeps the invariant if it does so for what is new, and whatever is not
    has nothing to do with the Call-IDs that are touched. -/
theorem keep {ids : List Bytes} (hs : s.Inv) (hk : Keeps ids s t) (htables : t.TablesOk)
    (hjobs : t.ex.teardowns = t.jobs.map Prod.fst)
    (htimers : ∀ td i, (td, some i) ∈ t.jobs →
      ((td, some i) ∈ s.jobs ∧ ∀ k ∈ td.watched, k ∉ ids) ∨ t.TimerOk i td)
    (hlegs : ∀ i l, t.ex.legs[i]? = some l →
      (s.ex.legs[i]? = some l ∧ ∀ a ∈ l.loop.todo, ∀ k ∈ a.timed, k ∉ ids) ∨ t.LegOk i l) :
    t.Inv where
  tables := htables
  jobs := hjobs
  timers td i hmem := by
    rcases htimers td i hmem with ⟨hold, hnot⟩ | hnew
    · exact hk.timerOk hnot (hs.timers td i hold)
    · exact hnew
  legs i l hi := by
    rcases hlegs i l hi with ⟨hold, hnot⟩ | hnew
    · have hl := hs.legs i l hold
      exact ⟨hl.timers.mono (fun a ha k hka => hk.own (hnot a ha k hka)), hl.peer⟩
    · exact hnew

/-- A step that leaves the calls, the sessions and the teardowns alone. -/
theorem frame (hs : s.Inv) (hcalls : t.ex.store.calls = s.ex.store.calls)
    (hindex : t.ex.store.bobToAlice = s.ex.store.bobToAlice) (howners : t.owners = s.owners)
    (hsessions : t.sessions = s.sessions) (hjobs : t.jobs = s.jobs)
    (hteardowns : t.ex.teardowns = s.ex.teardowns)
    (htrunks : ∀ i name, s.trunkOf i = some name → t.trunkOf i = some name)
    (hlegs : ∀ i l, t.ex.legs[i]? = some l → s.ex.legs[i]? = some l ∨ t.LegOk i l) : t.Inv := by
  have hk : Keeps [] s t := by
    refine ⟨fun a c _ hc => ?_, fun b a _ hb => ?_, fun key o _ ho => ?_, htrunks⟩
    · rw [hcalls] at hc
      rw [howners]
      exact ⟨hc, rfl⟩
    · rw [hindex] at hb
      exact ⟨hb, not_mem_nil⟩
    · rw [hsessions] at ho
      exact ho
  have htables : t.TablesOk := by
    refine ⟨?_, ?_, ?_⟩
    · rw [hcalls]
      exact hs.tables.keyed
    · rw [hcalls, hindex]
      exact hs.tables.indexed
    · rw [hcalls, howners]
      unfold OwnSessions
      rw [hsessions]
      exact hs.tables.sessions
  refine hs.keep hk htables ?_ (fun td i hmem => Or.inl ⟨?_, fun _ _ => not_mem_nil⟩)
    (fun i l hi => ?_)
  · rw [hteardowns, hjobs]
    exact hs.jobs
  · rw [← hjobs]
    exact hmem
  · rcases hlegs i l hi with hold | hnew
    · exact .inl ⟨hold, fun _ _ _ _ => not_mem_nil⟩
    · exact .inr hnew

end Inv

/-- Setting a leg leaves the trunks of all legs. -/
theorem trunkOf_set (s t : Traced) (i : Nat) (l l' : TrunkLeg) (hi : s.ex.legs[i]? = some l)
    (hset : t.ex.legs = s.ex.legs.set i l') (hname : l'.trunkName = l.trunkName) (i' : Nat)
    (name : Bytes) (h : s.trunkOf i' = some name) : t.trunkOf i' = some name := by
  rw [trunkOf, hset]
  by_cases hne : i = i'
  · rw [← hne, getElem?_set_self (List.getElem?_eq_some_iff.mp hi).1, map_some, hname]
    rw [← hne, trunkOf, hi, map_some] at h
    exact h
  · rw [getElem?_set_ne hne]
    exact h

/-- A leg after another one has been set. -/
theorem leg_set (s t : Traced) (i : Nat) (l' : TrunkLeg)
    (hset : t.ex.legs = s.ex.legs.set i l') (hl' : t.LegOk i l') (i' : Nat) (m : TrunkLeg)
    (h : t.ex.legs[i']? = some m) : i' ≠ i ∧ s.ex.legs[i']? = some m ∨ t.LegOk i' m := by
  rw [hset] at h
  by_cases hne : i = i'
  · rw [← hne, getElem?_set] at h
    simp only [if_true, ite_none_right_eq_some, some.injEq] at h
    rw [← hne, ← h.2]
    exact .inr hl'
  · rw [getElem?_set_ne hne] at h
    exact .inl ⟨Ne.symm hne, h⟩

namespace Inv

variable {s : Traced}

/-- Leg `i` goes on, and nothing else happens that matters. -/
theorem goOn (hs : s.Inv) (ex : Exchange) (i : Nat) (l l' : TrunkLeg)
    (hi : s.ex.legs[i]? = some l) (hcalls : ex.store.calls = s.ex.store.calls)
    (hindex : ex.store.bobToAlice = s.ex.store.bobToAlice)
    (hteardowns : ex.teardowns = s.ex.teardowns) (hlegs : ex.legs = s.ex.legs.set i l')
    (hname : l'.trunkName = l.trunkName) (hl' : ({ s with ex := ex } : Traced).LegOk i l') :
    ({ s with ex := ex } : Traced).Inv := by
  refine hs.frame hcalls hindex rfl rfl rfl hteardowns
    (trunkOf_set s _ i l l' hi hlegs hname) (fun i' m hm => ?_)
  rcases leg_set s _ i l' hlegs hl' i' m hm with ⟨-, hold⟩ | hnew
  · exact .inl hold
  · exact .inr hnew

/-- A loop wakes up, or is done. -/
theorem react (hs : s.Inv) (i : Nat) (l : TrunkLeg) (loop : Loop) (hi : s.ex.legs[i]? = some l)
    (htimers : ∀ armed, TimersIn l.trunkName armed loop.todo) :
    ({ s with ex := s.ex.setLoop i l loop } : Traced).Inv :=
  hs.goOn _ i l _ hi rfl rfl rfl rfl rfl ⟨htimers _, (hs.legs i l hi).peer⟩

/-- What is left to do of a leg whose next action is `a`. -/
theorem timersIn_todo (hs : s.Inv) {i : Nat} {l : TrunkLeg} {a : Action} {todo : List Action}
    {last : Bool} (hi : s.ex.legs[i]? = some l) (hl : l.loop = .running (a :: todo) last) :
    TimersIn l.trunkName (fun k => s.Own k i) (a :: todo) := by
  have htimers := (hs.legs i l hi).timers
  rw [hl] at htimers
  exact htimers

/-- An action that starts no timer and stores no call is done. -/
theorem skip (hs : s.Inv) (ex : Exchange) (i : Nat) (l : TrunkLeg) (a : Action)
    (todo : List Action) (last : Bool) (hi : s.ex.legs[i]? = some l)
    (hl : l.loop = .running (a :: todo) last) (hcalls : ex.store.calls = s.ex.store.calls)
    (hindex : ex.store.bobToAlice = s.ex.store.bobToAlice)
    (hteardowns : ex.teardowns = s.ex.teardowns) (hlegs : ex.legs = s.ex.legs)
    (hstore : ∀ call, a ≠ .storeCall call) :
    ({ s with ex := ex.setLoop i l (.running todo last) } : Traced).Inv := by
  refine hs.goOn _ i l { l with loop := .running todo last } hi hcalls hindex hteardowns ?_ rfl
    ⟨(hs.timersIn_todo hi hl).tail hstore, (hs.legs i l hi).peer⟩
  rw [Exchange.setLoop, hlegs]

end Inv

end Traced

/-! ### What a loop sets out to do -/

section Reactions

variable (cc : CallCtx) (name uri : Bytes) (expires : Int64)

theorem timersIn_onSendFailed (armed : Bytes → Prop) :
    TimersIn name armed ((Peer.trunk name uri expires).onSendFailed cc).todo := by
  simp [Peer.onSendFailed, TimersIn]

theorem timersIn_onDone (armed : Bytes → Prop) :
    TimersIn name armed ((Peer.trunk name uri expires).onDone cc).todo := by
  simp [Peer.onDone, Peer.giveUp, Peer.deferred, TimersIn]

theorem timersIn_onError (armed : Bytes → Prop) :
    TimersIn name armed ((Peer.trunk name uri expires).onError cc).todo := by
  simp [Peer.onError, Peer.giveUp, Peer.deferred, TimersIn]

theorem timersIn_onResponse [UnicodeLower] (h : Handler) (env : LoopEnv) (resp : SIPMessage)
    (armed : Bytes → Prop) :
    TimersIn name armed ((Peer.trunk name uri expires).onResponse h cc env resp).todo := by
  unfold Peer.onResponse
  dsimp only
  split
  · simp [Peer.onProvisional, TimersIn]
  · split
    · simp [Peer.beforeAnswer, Peer.deferred, TimersIn, Action.Idle]
    · split
      · simp [Peer.giveUp, Peer.deferred, TimersIn]
      · trivial

/-- The timer of an answered call is started right after the call is stored. -/
theorem timersIn_answerActions [SdpCodec] (h : Handler) (env : LoopEnv) (canceled : Bool)
    (resp : SIPMessage) (armed : Bytes → Prop) (todo : List Action) (htodo : ∀ a ∈ todo, a.Idle) :
    TimersIn name armed
      ((Peer.trunk name uri expires).answerActions h cc env canceled resp ++ todo) := by
  have hrest := fun armed => timersIn_of_idle name armed todo htodo
  have hdiscard : TimersIn name armed ((Peer.trunk name uri expires).discard ++ todo) := by
    simp [Peer.discard, TimersIn, hrest]
  have hcoherent : ∀ bobTo, (cc.answeredCall h (.trunk name uri expires) bobTo).Coherent :=
    fun _ => ⟨rfl, rfl⟩
  have hid : ∀ bobTo, (cc.answeredCall h (.trunk name uri expires) bobTo).aliceCallID = cc.callID :=
    fun _ => rfl
  unfold Peer.answerActions
  split
  · exact hdiscard
  · split
    · exact hdiscard
    · split
      · exact hdiscard
      · split
        · simp [TimersIn, hrest]
        · rw [Peer.establish]
          split
          · simp [TimersIn, hrest, hcoherent, hid]
          · simp [TimersIn, hrest, hcoherent]

end Reactions

/-! ### The steps -/

namespace Traced

namespace Inv

variable {s : Traced}

/-- The loop works an answer out. -/
theorem answer [SdpCodec] (hs : s.Inv) (h : Handler) (env : LoopEnv) (i : Nat) (l : TrunkLeg)
    (resp : SIPMessage) (todo : List Action) (last : Bool) (st : Started)
    (hi : s.ex.legs[i]? = some l) (hl : l.loop = .running (.answer resp :: todo) last)
    (hst : l.started = some st) :
    ({ s with
      ex := s.ex.setLoop i l
        (.running (st.peer.answerActions h st.cc env l.canceled resp ++ todo) last) } :
      Traced).Inv := by
  have hidle : ∀ a ∈ todo, a.Idle := (hs.timersIn_todo hi hl).2.2.1 resp rfl
  rcases (hs.legs i l hi).peer st hst with ⟨uri, expires, hpeer⟩
  refine hs.react i l _ hi (fun armed => ?_)
  rw [hpeer]
  exact timersIn_answerActions st.cc l.trunkName uri expires h env l.canceled resp armed todo hidle

/-- The Call-ID of a fresh call leads nowhere. -/
theorem fresh_lookup (hs : s.Inv) {i : Nat} {call : Call} (hfresh : FreshCall s i call)
    {k : Bytes} (hk : k ∈ call.ids) :
    s.ex.store.calls.lookup k = none ∧ s.ex.store.bobToAlice.lookup k = none := by
  have hnot : ∀ a c, s.ex.store.calls.lookup a = some c → k ∉ c.ids :=
    fun a c hc => (hfresh k hk).1 ⟨a, c⟩ (AList.mem_lookup_iff.mp hc)
  constructor
  · cases hc : s.ex.store.calls.lookup k with
    | none => rfl
    | some c =>
      refine absurd ?_ (hnot k c hc)
      rw [Call.ids, (hs.tables.keyed k c hc).1]
      exact mem_cons_self
  · cases hb : s.ex.store.bobToAlice.lookup k with
    | none => rfl
    | some a =>
      rcases hs.tables.indexed k a hb with ⟨c, hc, hbob⟩
      refine absurd ?_ (hnot a c hc)
      rw [Call.ids, hbob]
      exact mem_cons_of_mem _ (mem_singleton.mpr rfl)

/-- The exchange and its history after leg `i` has stored a call. -/
def stored (s : Traced) (i : Nat) (l : TrunkLeg) (call : Call) (todo : List Action)
    (last : Bool) : Traced :=
  { s.store i call with
    ex := ({ s.ex with store := s.ex.store.store call } : Exchange).setLoop i l
      (.running todo last) }

theorem keeps_stored (hs : s.Inv) (i : Nat) (l : TrunkLeg) (call : Call) (todo : List Action)
    (last : Bool) (hi : s.ex.legs[i]? = some l) (hc : call.Coherent)
    (hfresh : FreshCall s i call) : Keeps call.ids s (stored s i l call todo last) := by
  refine ⟨fun a c ha hlook => ?_, fun b a hb hlook => ?_, fun key o hkey ho => ?_,
    trunkOf_set s _ i l _ hi rfl rfl⟩
  · have hne : a ≠ call.aliceCallID := fun h => ha (h ▸ mem_cons_self)
    refine ⟨?_, AList.lookup_insert_ne hne⟩
    rw [← hlook]
    exact (AList.lookup_insert_ne hne).symm
  · have hne : b ≠ call.bobCallID :=
      fun h => hb (h ▸ mem_cons_of_mem _ (mem_singleton.mpr rfl))
    have hold : s.ex.store.bobToAlice.lookup b = some a := by
      rw [← hlook]
      exact (AList.lookup_insert_ne hne).symm
    refine ⟨hold, fun ha => ?_⟩
    rcases hs.tables.indexed b a hold with ⟨c, hlook', -⟩
    rw [(hs.fresh_lookup hfresh ha).1] at hlook'
    cases hlook'
  · have hne : ∀ side, key ≠ call.session side :=
      fun side h => hkey (h ▸ hc.session_mem side)
    rw [← ho]
    change _ = ((s.sessions.insert _ i).insert _ i).lookup key
    rw [AList.lookup_insert_ne (hne .bob), AList.lookup_insert_ne (hne .alice)]

/-- The sessions of the new call are its own. -/
theorem ownSessions_stored (s : Traced) (i : Nat) (l : TrunkLeg) (call : Call)
    (todo : List Action) (last : Bool) : (stored s i l call todo last).OwnSessions call i := by
  intro side o ho
  rcases (lookup_insert_eq_some _ _ _ _ _).mp ho with ⟨-, h⟩ | ⟨hbob, ho⟩
  · exact h.symm
  · rcases (lookup_insert_eq_some _ _ _ _ _).mp ho with ⟨-, h⟩ | ⟨halice, -⟩
    · exact h.symm
    · cases side with
      | alice => exact absurd rfl halice
      | bob => exact absurd rfl hbob

theorem tables_stored (hs : s.Inv) (i : Nat) (l : TrunkLeg) (call : Call) (todo : List Action)
    (last : Bool) (hi : s.ex.legs[i]? = some l) (hc : call.Coherent)
    (hfresh : FreshCall s i call) : (stored s i l call todo last).TablesOk := by
  have hk := hs.keeps_stored i l call todo last hi hc hfresh
  have hnone := (hs.fresh_lookup hfresh mem_cons_self).1
  refine ⟨fun a c hlook => ?_, fun b a hlook => ?_, fun a c i' hlook howner => ?_⟩
  · rcases (lookup_insert_eq_some _ _ _ _ _).mp hlook with ⟨ha, hcall⟩ | ⟨-, hold⟩
    · rw [← hcall, ha]
      exact ⟨rfl, hc⟩
    · exact hs.tables.keyed a c hold
  · rcases (lookup_insert_eq_some _ _ _ _ _).mp hlook with ⟨hb, ha⟩ | ⟨-, hold⟩
    · rw [← ha, hb]
      exact ⟨call, AList.lookup_insert _, rfl⟩
    · rcases hs.tables.indexed b a hold with ⟨c, hlook', hbob⟩
      refine ⟨c, (lookup_insert_eq_some _ _ _ _ _).mpr (Or.inr ⟨fun ha => ?_, hlook'⟩), hbob⟩
      rw [ha, hnone] at hlook'
      cases hlook'
  · rcases (lookup_insert_eq_some _ _ _ _ _).mp hlook with ⟨ha, hcall⟩ | ⟨hne, hold⟩
    · have hi' : i = i' := by
        rw [ha] at howner
        exact some.inj ((AList.lookup_insert _).symm.trans howner)
      rw [← hcall, ← hi']
      exact ownSessions_stored s i l call todo last
    · rcases (lookup_insert_eq_some _ _ _ _ _).mp howner with ⟨ha, -⟩ | ⟨-, howner'⟩
      · exact absurd ha hne
      · refine hk.ownSessions (hs.tables.keyed a c hold).2 (fun k hkc hkcall => ?_)
          (hs.tables.sessions a c i' hold howner')
        exact (hfresh k hkcall).1 ⟨a, c⟩ (AList.mem_lookup_iff.mp hold) hkc

/-- What is found under Alice's Call-ID of the new call is the new call. -/
theorem own_stored (hs : s.Inv) (i : Nat) (l : TrunkLeg) (call : Call) (todo : List Action)
    (last : Bool) (hfresh : FreshCall s i call) :
    (stored s i l call todo last).Own call.aliceCallID i := by
  have howner : (stored s i l call todo last).owners.lookup call.aliceCallID = some i :=
    AList.lookup_insert _
  refine ⟨fun _ _ => howner, fun a c hb _ => ?_⟩
  rcases (lookup_insert_eq_some _ _ _ _ _).mp hb with ⟨-, ha⟩ | ⟨-, hold⟩
  · rw [← ha]
    exact howner
  · rw [(hs.fresh_lookup hfresh mem_cons_self).2] at hold
    cases hold

/-- A fresh call is stored. -/
theorem store (hs : s.Inv) (i : Nat) (l : TrunkLeg) (call : Call) (todo : List Action)
    (last : Bool) (hi : s.ex.legs[i]? = some l)
    (hl : l.loop = .running (.storeCall call :: todo) last) (hfresh : FreshCall s i call) :
    (stored s i l call todo last).Inv := by
  have htimers := hs.timersIn_todo hi hl
  have hc : call.Coherent := htimers.2.1 call rfl
  refine hs.keep (hs.keeps_stored i l call todo last hi hc hfresh)
    (hs.tables_stored i l call todo last hi hc hfresh) hs.jobs
    (fun td i' hmem => Or.inl ⟨hmem, fun k hk hkc => ?_⟩) (fun i' m hm => ?_)
  · exact (hfresh k hkc).2.1 _ hmem rfl hk
  · have hleg : (stored s i l call todo last).LegOk i { l with loop := .running todo last } := by
      refine ⟨htimers.2.2.2.mono fun _ _ k _ hk => ?_, (hs.legs i l hi).peer⟩
      rcases hk with ⟨call', hcall, hid⟩
      rw [← hid, ← Action.storeCall.inj hcall]
      exact hs.own_stored i l call todo last hfresh
    rcases leg_set s _ i _ rfl hleg i' m hm with ⟨hne, hold⟩ | hnew
    · refine .inl ⟨hold, fun a ha k hk hkc => ?_⟩
      exact (hfresh k hkc).2.2 m (mem_eraseIdx_iff_getElem?.mpr ⟨i', hne, hold⟩) a ha hk
    · exact .inr hnew

/-- Only the teardowns change. -/
theorem withJobs (hs : s.Inv) (ex : Exchange) (jobs : List (Teardown × Option Nat))
    (hstore : ex.store = s.ex.store) (hlegs : ex.legs = s.ex.legs)
    (hteardowns : ex.teardowns = jobs.map Prod.fst)
    (htimers : ∀ td i, (td, some i) ∈ jobs → s.TimerOk i td) :
    ({ s with ex := ex, jobs := jobs } : Traced).Inv := by
  rcases ex with ⟨mgr, store, legs, cancels, teardowns, sent, acquired, released⟩
  simp only at hstore hlegs hteardowns
  subst hstore hlegs
  refine ⟨⟨hs.tables.keyed, hs.tables.indexed, hs.tables.sessions⟩, hteardowns,
    fun td i hmem => ?_, fun i l hi => ?_⟩
  · have htd := htimers td i hmem
    exact ⟨htd.trunk, htd.point⟩
  · have hl := hs.legs i l hi
    exact ⟨hl.timers, hl.peer⟩

/-- A teardown starts. -/
theorem addJob (hs : s.Inv) (td : Teardown) (o : Option Nat) (htd : ∀ i ∈ o, s.TimerOk i td) :
    ({ s with
      ex := { s.ex with teardowns := s.ex.teardowns ++ [td] }
      jobs := s.jobs ++ [(td, o)] } : Traced).Inv := by
  refine hs.withJobs _ _ rfl rfl ?_ (fun td' i hmem => ?_)
  · rw [map_append, ← hs.jobs]
    rfl
  · rcases mem_append.mp hmem with hold | hnew
    · exact hs.timers td' i hold
    · rcases Prod.mk.inj (mem_singleton.mp hnew) with ⟨rfl, ho⟩
      exact htd i ho.symm

/-- A teardown goes on or returns. -/
theorem moveJob (hs : s.Inv) (ex : Exchange) (j : Nat) (p : Teardown × Option Nat)
    (pc : Option TeardownPoint) (hstore : ex.store = s.ex.store) (hlegs : ex.legs = s.ex.legs)
    (hteardowns : ex.teardowns = resumeAt s.ex.teardowns j
      (pc.map (Teardown.mk p.1.callID p.1.timerOf)))
    (hp : ∀ i ∈ p.2, ∀ pc' ∈ pc, s.TimerOk i ⟨p.1.callID, p.1.timerOf, pc'⟩) :
    ({ s.resume j p pc with ex := ex } : Traced).Inv := by
  refine hs.withJobs ex _ hstore hlegs ?_ (fun td i hmem => ?_)
  · rw [hteardowns, resume, map_resumeAt, ← hs.jobs, Option.map_map]
    rfl
  · rcases mem_resumeAt _ _ _ _ hmem with hold | hnew
    · exact hs.timers td i hold
    · rcases map_eq_some_iff.mp hnew with ⟨pc', hpc, heq⟩
      rcases Prod.mk.inj heq with ⟨rfl, ho⟩
      exact hp i ho pc' hpc

end Inv

/-- A timer finds its own call, in the store. -/
theorem Own.get {s : Traced} {callID : Bytes} {i : Nat} {c : Call} (h : s.Own callID i)
    (hc : s.ex.store.get callID = some c) :
    ∃ a, s.ex.store.calls.lookup a = some c ∧ s.owners.lookup a = some i := by
  unfold Store.get at hc
  cases hlook : s.ex.store.calls.lookup callID with
  | some c' =>
    rw [hlook, some.injEq] at hc
    rw [← hc]
    exact ⟨callID, hlook, h.1 c' hlook⟩
  | none =>
    rw [hlook] at hc
    cases hindex : s.ex.store.bobToAlice.lookup callID with
    | none => simp only [hindex, reduceCtorEq] at hc
    | some a =>
      simp only [hindex, ne_eq, ite_none_right_eq_some] at hc
      exact ⟨a, hc.2, h.2 a c hindex hc.2⟩

namespace Inv

variable {s : Traced}

theorem timer_of_job (hs : s.Inv) {j i : Nat} {td : Teardown} {owner : Option Nat}
    (hj : s.jobs[j]? = some (td, owner)) (hi : i ∈ owner) : s.TimerOk i td := by
  rw [mem_def.mp hi] at hj
  exact hs.timers td i (mem_of_getElem? hj)

/-- A timer that has found a call is after its own. -/
theorem found (hs : s.Inv) {i : Nat} {td : Teardown} (htd : s.TimerOk i td) (hpc : td.pc = .lookup)
    {call : Call} (hget : s.ex.store.get td.callID = some call) :
    s.TimerOk i ⟨td.callID, td.timerOf, .remove call⟩ := by
  have hown : s.Own td.callID i := by
    have hpoint := htd.point
    simp only [PointOk, hpc] at hpoint
    exact hpoint
  rcases hown.get hget with ⟨a, hlook, howner⟩
  rcases hs.tables.keyed a call hlook with ⟨ha, hc⟩
  refine ⟨htd.trunk, hc, hs.tables.sessions a call i hlook howner, fun _ _ => ?_⟩
  rw [ha]
  exact howner

/-- The exchange and its history after a teardown has removed a call. -/
def removed (s : Traced) (call : Call) : Traced :=
  { s.remove call with ex := { s.ex with store := s.ex.store.remove call.aliceCallID } }

theorem lookup_bobToAlice_remove {st : Store} {aliceCID b a : Bytes}
    (h : (st.remove aliceCID).bobToAlice.lookup b = some a) :
    st.bobToAlice.lookup b = some a ∧ ∀ c, st.calls.lookup aliceCID = some c → c.bobCallID ≠ b := by
  unfold Store.remove at h
  cases hlook : st.calls.lookup aliceCID with
  | none =>
    rw [hlook] at h
    exact ⟨h, fun c hc => nomatch hc⟩
  | some call =>
    rw [hlook] at h
    rcases (lookup_erase_eq_some _ _ _ _).mp h with ⟨hne, hold⟩
    refine ⟨hold, fun c hc => ?_⟩
    cases hc
    exact Ne.symm hne

theorem lookup_remove_self (st : Store) (aliceCID : Bytes) :
    (st.remove aliceCID).calls.lookup aliceCID = none := by
  unfold Store.remove
  cases hlook : st.calls.lookup aliceCID with
  | none => exact hlook
  | some call => exact AList.lookup_erase _ _

theorem keeps_removed (s : Traced) (call : Call) : Keeps [] s (removed s call) := by
  refine ⟨fun a c _ hlook => ⟨Store.lookup_remove hlook, AList.lookup_erase_ne fun ha => ?_⟩,
    fun b a _ hlook => ⟨(lookup_bobToAlice_remove hlook).1, not_mem_nil⟩,
    fun key o _ ho => ?_, fun _ _ h => h⟩
  · rw [ha] at hlook
    cases hlook.symm.trans (lookup_remove_self _ _)
  · exact ((lookup_erase_eq_some _ _ _ _).mp ((lookup_erase_eq_some _ _ _ _).mp ho).2).2

/-- A call is removed, whosoever does it. -/
theorem remove (hs : s.Inv) (call : Call) : (removed s call).Inv := by
  have hk := keeps_removed s call
  refine hs.keep hk ⟨fun a c hlook => hs.tables.keyed a c (Store.lookup_remove hlook), ?_, ?_⟩
    hs.jobs (fun td i hmem => Or.inl ⟨hmem, fun _ _ => not_mem_nil⟩)
    (fun i l hi => Or.inl ⟨hi, fun _ _ _ _ => not_mem_nil⟩)
  · intro b a hlook
    rcases lookup_bobToAlice_remove hlook with ⟨hold, hother⟩
    rcases hs.tables.indexed b a hold with ⟨c, hc, hbob⟩
    refine ⟨c, ?_, hbob⟩
    -- The entry under `b` would have gone with its call.
    have hne : a ≠ call.aliceCallID := by
      intro ha
      rw [ha] at hc
      exact hother c hc hbob
    exact (Store.lookup_remove_of_ne _ _ _ hne).trans hc
  · intro a c i hlook howner
    rcases hk.calls a c not_mem_nil hlook with ⟨hold, hsame⟩
    refine hk.ownSessions (hs.tables.keyed a c hold).2 (fun _ _ => not_mem_nil)
      (hs.tables.sessions a c i hold ?_)
    rw [← hsame]
    exact howner

/-- One step of a teardown. -/
theorem teardown (hs : s.Inv) (h : Handler) (rnd : Option Bytes) (j : Nat)
    (p : Teardown × Option Nat) (o : Exchange × Option TeardownPoint) (hj : s.jobs[j]? = some p)
    (hstep : s.ex.teardownStep h rnd p.1 = some o) :
    ({ (s.tearDown p.1.pc).resume j p o.2 with
      ex := { o.1 with
        teardowns := resumeAt s.ex.teardowns j
          (o.2.map (Teardown.mk p.1.callID p.1.timerOf)) } } : Traced).Inv := by
  rcases p with ⟨td, owner⟩
  have htd : ∀ i ∈ owner, s.TimerOk i td := fun i hi => hs.timer_of_job hj hi
  cases hpc : td.pc with
  | waiting => simp only [Exchange.teardownStep, hpc, reduceCtorEq] at hstep
  | lookup =>
    cases hget : s.ex.store.get td.callID with
    | none =>
      simp only [Exchange.teardownStep, hpc, hget] at hstep
      cases hstep
      exact hs.moveJob _ j (td, owner) none rfl rfl rfl
        (by intros; contradiction)
    | some call =>
      simp only [Exchange.teardownStep, hpc, hget] at hstep
      cases hstep
      refine hs.moveJob _ j (td, owner) (some (.remove call)) rfl rfl rfl (fun i hi pc' hpc' => ?_)
      rw [← some.inj hpc']
      exact hs.found (htd i hi) hpc hget
  | remove call =>
    simp only [Exchange.teardownStep, hpc] at hstep
    cases hstep
    refine (hs.remove call).moveJob _ j (td, owner) _ rfl rfl rfl (fun i hi pc' hpc' => ?_)
    rcases (htd i hi).trunk with ⟨name, htrunk, htimer⟩
    refine ⟨⟨name, htrunk, htimer⟩, ?_⟩
    simp only [htimer, reduceCtorEq, false_and, if_false, mem_def, some.injEq,
      getD_some] at hpc'
    rw [← hpc']
    exact htimer
  | release name =>
    simp only [Exchange.teardownStep, hpc] at hstep
    cases hstep
    exact hs.moveJob _ j (td, owner) none rfl rfl rfl
      (by intros; contradiction)

/-- One step of a CANCEL. It ends the context of a loop, and leaves what the loop
    has left to do. -/
theorem cancel (hs : s.Inv) (c : CancelTask) (cancels : List CancelTask) :
    ({ s with ex := { (s.ex.cancelStep c).1 with cancels := cancels } } : Traced).Inv := by
  have hframe : ∀ ex : Exchange, ex.store.calls = s.ex.store.calls →
      ex.store.bobToAlice = s.ex.store.bobToAlice → ex.teardowns = s.ex.teardowns →
      ex.legs = s.ex.legs → ({ s with ex := ex } : Traced).Inv := by
    intro ex hcalls hindex hteardowns hlegs
    refine hs.frame hcalls hindex rfl rfl rfl hteardowns (fun i name h => ?_)
      (fun i l hi => Or.inl ?_)
    · rw [trunkOf, hlegs]
      exact h
    · rw [← hlegs]
      exact hi
  cases c with
  | checkCall req | findEarly req | respond req early | removeEarly req =>
    exact hframe _ rfl rfl rfl rfl
  | cancelContext req early =>
    cases hi : s.ex.legs[early.loop]? with
    | none =>
      refine hframe _ rfl rfl rfl ?_
      exact modify_eq_self (List.getElem?_eq_none_iff.mp hi)
    | some l =>
      have hl := hs.legs early.loop l hi
      refine hs.goOn _ early.loop l { l with canceled := true } hi rfl rfl rfl ?_ rfl
        ⟨hl.timers, hl.peer⟩
      change s.ex.legs.modify early.loop _ = _
      rw [modify_eq_set_getElem?, hi]
      rfl

/-- One action of a loop. -/
theorem perform [SdpCodec] (hs : s.Inv) (h : Handler) (env : LoopEnv) (i : Nat) (l : TrunkLeg)
    (a : Action) (todo : List Action) (last : Bool) (o : Exchange × List Action)
    (hi : s.ex.legs[i]? = some l) (hl : l.loop = .running (a :: todo) last)
    (hfresh : FreshAction s i a) (hp : s.ex.perform h env l a = some o) :
    ({ s.act i a with ex := o.1.setLoop i l (.running (o.2 ++ todo) last) } : Traced).Inv := by
  cases a with
  | respond res | sendReliable prov | sendBob msg | cancelPRACK | release name
  | removeEarly callID =>
    cases hp
    exact hs.skip _ i l _ todo last hi hl rfl rfl rfl rfl (fun _ => Action.noConfusion)
  | answer resp =>
    rcases map_eq_some_iff.mp hp with ⟨st, hst, rfl⟩
    exact hs.answer h env i l resp todo last st hi hl hst
  | storeCall call =>
    cases hp
    exact hs.store i l call todo last hi hl hfresh
  | sessionTimer callID name expires =>
    cases hp
    rcases (hs.timersIn_todo hi hl).1 callID name expires rfl with ⟨rfl, hown⟩
    have hskip := hs.skip s.ex i l _ todo last hi hl rfl rfl rfl rfl
      (fun _ => Action.noConfusion)
    refine hskip.addJob ⟨callID, some l.trunkName, .waiting⟩ (some i) (fun i' hi' => ?_)
    rw [← some.inj hi']
    refine ⟨⟨l.trunkName, ?_, rfl⟩, hown⟩
    exact trunkOf_set s _ i l { l with loop := .running todo last } hi rfl rfl i l.trunkName
      (by rw [trunkOf, hi]; rfl)

/-- A call gets a channel. Its loop has stored nothing. -/
theorem addLeg (hs : s.Inv) (ex : Exchange) (l : TrunkLeg)
    (hcalls : ex.store.calls = s.ex.store.calls)
    (hindex : ex.store.bobToAlice = s.ex.store.bobToAlice)
    (hteardowns : ex.teardowns = s.ex.teardowns) (hlegs : ex.legs = s.ex.legs ++ [l])
    (hl : ∀ i, ({ s with ex := ex } : Traced).LegOk i l) :
    ({ s with ex := ex } : Traced).Inv := by
  refine hs.frame hcalls hindex rfl rfl rfl hteardowns (fun i name h => ?_) (fun i m hm => ?_)
  · rcases map_eq_some_iff.mp h with ⟨m, hm, hname⟩
    rw [trunkOf, hlegs, getElem?_append_left (List.getElem?_eq_some_iff.mp hm).1, hm, ← hname]
    rfl
  · rw [hlegs] at hm
    by_cases hlt : i < s.ex.legs.length
    · rw [getElem?_append_left hlt] at hm
      exact .inl hm
    · rw [getElem?_append_right (Nat.le_of_not_lt hlt)] at hm
      rw [mem_singleton.mp (mem_of_getElem? hm)]
      exact .inr (hl i)

/-- The teardowns are the jobs. -/
theorem job (hs : s.Inv) {j : Nat} {td : Teardown} (hj : s.ex.teardowns[j]? = some td) :
    ∃ owner, s.jobs[j]? = some (td, owner) := by
  rw [hs.jobs, getElem?_map] at hj
  rcases map_eq_some_iff.mp hj with ⟨p, hp, rfl⟩
  exact ⟨p.2, hp⟩

variable [SdpCodec] [UnicodeLower]

omit [UnicodeLower] in
theorem invite (hs : s.Inv) (h : Handler) (env : InviteEnv) (req : SIPMessage) (trk : Trunk)
    (dest : Bytes) (toAddr : SIPAddress) (ex : Exchange)
    (hstep : s.ex.invite h env req trk dest toAddr = some ex) :
    ({ s with ex := ex } : Traced).Inv := by
  unfold Exchange.invite at hstep
  split at hstep
  · cases hstep
    exact hs.frame rfl rfl rfl rfl rfl rfl (fun _ _ h => h) (fun _ _ hi => Or.inl hi)
  · split at hstep
    · cases hstep
    · rename_i res hres
      cases hstep
      refine hs.addLeg _ _ rfl rfl rfl rfl (fun i => ⟨timersIn_of_idle _ _ _ (fun a ha => ?_),
        fun st hst => by cases hst⟩)
      simp only [Loop.todo, mem_cons, not_mem_nil, or_false] at ha
      rcases ha with rfl | rfl
      · trivial
      · trivial
    · rename_i st hst
      cases hstep
      refine hs.addLeg _ _ rfl rfl rfl rfl (fun i => ⟨trivial, fun st' hst' => ?_⟩)
      rw [← some.inj hst']
      exact ⟨_, (started_trunkInvite h env req trk dest toAddr st hst).2⟩

/-- Every step that meets the condition keeps the invariant. -/
theorem step (h : Handler) (s t : Traced) (e : ExchangeEvent) (hs : s.Inv) (hok : FreshStep s e)
    (hstep : tracedStep h s e = some t) : t.Inv := by
  rcases map_eq_some_iff.mp hstep with ⟨ex, hex, rfl⟩
  cases e with
  | invite env req trk dest toAddr => exact hs.invite h env req trk dest toAddr ex hex
  | sent i sendFails =>
    rcases map_eq_some_iff.mp hex with ⟨q, hq, rfl⟩
    rcases sending_eq_some s.ex i q hq with ⟨hi, -, hst⟩
    rcases (hs.legs i q.1 hi).peer q.2 hst with ⟨uri, expires, hpeer⟩
    split
    · rw [hpeer]
      exact hs.react i q.1 _ hi (timersIn_onSendFailed q.2.cc q.1.trunkName uri expires)
    · exact hs.react i q.1 .select hi (fun _ => trivial)
  | takeDone i =>
    rcases bind_eq_some_iff.mp hex with ⟨q, hq, hd⟩
    rcases waiting_eq_some s.ex i q hq with ⟨hi, -, hst⟩
    rcases (hs.legs i q.1 hi).peer q.2 hst with ⟨uri, expires, hpeer⟩
    split at hd
    · rw [← some.inj hd, hpeer]
      exact hs.react i q.1 _ hi (timersIn_onDone q.2.cc q.1.trunkName uri expires)
    · cases hd
  | takeResponse i env resp =>
    rcases map_eq_some_iff.mp hex with ⟨q, hq, rfl⟩
    rcases waiting_eq_some s.ex i q hq with ⟨hi, -, hst⟩
    rcases (hs.legs i q.1 hi).peer q.2 hst with ⟨uri, expires, hpeer⟩
    rw [hpeer]
    exact hs.react i q.1 _ hi
      (timersIn_onResponse q.2.cc q.1.trunkName uri expires h env resp)
  | takeError i =>
    rcases map_eq_some_iff.mp hex with ⟨q, hq, rfl⟩
    rcases waiting_eq_some s.ex i q hq with ⟨hi, -, hst⟩
    rcases (hs.legs i q.1 hi).peer q.2 hst with ⟨uri, expires, hpeer⟩
    rw [hpeer]
    exact hs.react i q.1 _ hi (timersIn_onError q.2.cc q.1.trunkName uri expires)
  | act i env =>
    rcases bind_eq_some_iff.mp hex with ⟨l, hi, hact⟩
    split at hact
    · rename_i last hl
      cases hact
      have hnext : s.record h (.act i env) = s := by
        rw [record, hi, bind_some, TrunkLeg.next?, hl]
        rfl
      rw [hnext]
      refine hs.react i l _ hi (fun armed => ?_)
      cases last with
      | true => trivial
      | false => trivial
    · rename_i a todo last hl
      rcases map_eq_some_iff.mp hact with ⟨o, ho, rfl⟩
      have hnext : s.ex.legs[i]?.bind TrunkLeg.next? = some a := by
        rw [hi, bind_some, TrunkLeg.next?, hl]
        rfl
      rw [record, hnext]
      exact hs.perform h env i l a todo last o hi hl (hok a hnext) ho
    · cases hact
  | cancel req =>
    cases hex
    exact hs.frame rfl rfl rfl rfl rfl rfl (fun _ _ h => h) (fun _ _ hi => Or.inl hi)
  | cancelStep k =>
    rcases map_eq_some_iff.mp hex with ⟨c, _, rfl⟩
    exact hs.cancel c _
  | bye req =>
    cases hex
    exact hs.addJob _ none (by intros; contradiction)
  | expire j =>
    rcases bind_eq_some_iff.mp hex with ⟨td, hj, hd⟩
    rcases hs.job hj with ⟨owner, hjob⟩
    split at hd
    · rename_i hpc
      rw [← some.inj hd, record, hjob]
      refine hs.moveJob _ j (td, owner) (some .lookup) rfl rfl rfl (fun i hi pc' hpc' => ?_)
      have htd := hs.timer_of_job hjob hi
      have hpoint := htd.point
      simp only [PointOk, hpc] at hpoint
      rw [← some.inj hpc']
      exact ⟨htd.trunk, hpoint⟩
    · cases hd
  | stopTimer j =>
    rcases bind_eq_some_iff.mp hex with ⟨td, hj, hd⟩
    rcases hs.job hj with ⟨owner, hjob⟩
    split at hd
    · rw [← some.inj hd, record, hjob]
      exact hs.moveJob _ j (td, owner) none rfl rfl rfl
        (by intros; contradiction)
    · cases hd
  | teardown j rnd =>
    rcases bind_eq_some_iff.mp hex with ⟨td, hj, hd⟩
    rcases hs.job hj with ⟨owner, hjob⟩
    rcases map_eq_some_iff.mp hd with ⟨o, ho, rfl⟩
    rw [record, hjob, elim_some, ho]
    exact hs.teardown h rnd j (td, owner) o hjob ho

omit [SdpCodec] [UnicodeLower] in
theorem start (trunks : AList (fun _ : Bytes => Trunk)) : (Traced.start trunks).Inv where
  tables := by
    refine ⟨fun a c h => absurd h ?_, fun b a h => absurd h ?_, fun a c i h => absurd h ?_⟩
    · simp [Traced.start, Exchange.start, Store.create]
    · simp [Traced.start, Exchange.start, Store.create]
    · simp [Traced.start, Exchange.start, Store.create]
  jobs := rfl
  timers td i hmem := by cases hmem
  legs i l hi := by cases mem_of_getElem? hi

omit [SdpCodec] [UnicodeLower] in
/-- The call that is removed was the own one. -/
theorem own_of_calls_ne {i : Nat} {call : Call} {k : Bytes}
    (hcalls : ∀ c, s.ex.store.calls.lookup call.aliceCallID = some c →
      s.owners.lookup call.aliceCallID = some i)
    (hne : (s.ex.store.remove call.aliceCallID).calls.lookup k ≠ s.ex.store.calls.lookup k) :
    s.owners.lookup k = some i := by
  by_cases hk : k = call.aliceCallID
  · rw [hk] at hne ⊢
    rw [lookup_remove_self] at hne
    rcases ne_none_iff_exists'.mp (Ne.symm hne) with ⟨c, hc⟩
    exact hcalls c hc
  · exact absurd (Store.lookup_remove_of_ne _ _ _ hk) hne

omit [SdpCodec] [UnicodeLower] in
/-- The sessions that are removed were the own ones. -/
theorem own_of_sessions_ne {i : Nat} {call : Call} {key : SessionKey}
    (hsessions : s.OwnSessions call i)
    (hne : (s.remove call).sessions.lookup key ≠ s.sessions.lookup key) :
    s.sessions.lookup key = some i := by
  -- A key that is not one of the two stays as it is.
  have hside : ∃ side, key = call.session side := by
    by_contra hnot
    rw [not_exists] at hnot
    refine hne ?_
    change ((s.sessions.erase _).erase _).lookup key = _
    rw [AList.lookup_erase_ne (hnot .bob), AList.lookup_erase_ne (hnot .alice)]
  rcases hside with ⟨side, rfl⟩
  cases ho : s.sessions.lookup (call.session side) with
  | some o => rw [hsessions side o ho]
  | none =>
    refine absurd ?_ hne
    rw [ho]
    cases hr : (s.remove call).sessions.lookup (call.session side) with
    | none => rfl
    | some o =>
      have hold := (keeps_removed s call).sessions _ o not_mem_nil hr
      rw [ho] at hold
      cases hold

/-- A session timer is confined to its own call. -/
theorem confined (hs : s.Inv) (h : Handler) : s.Confined h := by
  intro j rnd td i t hjob hstep
  rcases map_eq_some_iff.mp hstep with ⟨ex, hex, rfl⟩
  rcases bind_eq_some_iff.mp hex with ⟨td', hj, hd⟩
  have htd' : td' = td := by
    rw [hs.jobs, getElem?_map, hjob] at hj
    exact (some.inj hj).symm
  rcases map_eq_some_iff.mp hd with ⟨o, ho, rfl⟩
  rw [htd'] at ho
  rw [record, hjob, elim_some, ho, htd']
  have htd := hs.timers td i (mem_of_getElem? hjob)
  rcases htd.trunk with ⟨name, htrunk, htimer⟩
  rcases map_eq_some_iff.mp htrunk with ⟨l, hl, hname⟩
  have hpoint := htd.point
  cases hpc : td.pc with
  | waiting => simp only [Exchange.teardownStep, hpc, reduceCtorEq] at ho
  | lookup =>
    simp only [PointOk, hpc] at hpoint
    cases hget : s.ex.store.get td.callID with
    | none =>
      simp only [Exchange.teardownStep, hpc, hget] at ho
      cases ho
      exact ⟨⟨fun _ hne => absurd rfl hne, fun _ hne => absurd rfl hne, Or.inl rfl,
        Or.inl ⟨rfl, rfl⟩⟩, fun _ _ => ⟨rfl, rfl, rfl⟩⟩
    | some call =>
      rcases hpoint.get hget with ⟨a, hlook, howner⟩
      simp only [Exchange.teardownStep, hpc, hget] at ho
      cases ho
      refine ⟨⟨fun _ hne => absurd rfl hne, fun _ hne => absurd rfl hne, Or.inr ?_,
        Or.inl ⟨rfl, rfl⟩⟩, fun _ hended => absurd howner (hended a)⟩
      refine ⟨a, call, generateBranch rnd, hlook, howner, ?_⟩
      simp [Teardown.bye, htimer]
  | remove call =>
    simp only [PointOk, hpc] at hpoint
    rcases hpoint with ⟨-, hsessions, hcalls⟩
    simp only [Exchange.teardownStep, hpc] at ho
    cases ho
    refine ⟨⟨fun k hne => ?_, fun key hne => ?_, Or.inl rfl, Or.inl ⟨rfl, rfl⟩⟩,
      fun hlookup => by cases hlookup⟩
    · exact own_of_calls_ne hcalls hne
    · exact own_of_sessions_ne hsessions hne
  | release name' =>
    simp only [PointOk, hpc] at hpoint
    simp only [Exchange.teardownStep, hpc] at ho
    cases ho
    have hname' : name' = l.trunkName := by
      rw [htimer, some.injEq] at hpoint
      rw [hname, hpoint]
    refine ⟨⟨fun _ hne => absurd rfl hne, fun _ hne => absurd rfl hne, Or.inl rfl,
      Or.inr ⟨l, hl, ?_, ?_⟩⟩,
      fun hlookup => by cases hlookup⟩
    · rw [← hname']
      rfl
    · rw [← hname']
      rfl

end Inv

end Traced

/-- As long as the Call-IDs of new calls are fresh, session timers are confined to
    their own calls, however calls start and end. -/
theorem confined_of_run [SdpCodec] [UnicodeLower] (h : Handler)
    (trunks : AList (fun _ : Bytes => Trunk)) (es : List ExchangeEvent) (s : Traced)
    (hrun : Run (tracedStep h) FreshStep (Traced.start trunks) es s) : s.Confined h := by
  have hs : s.Inv := hrun.invariant Traced.Inv (Traced.Inv.start trunks)
    (fun s e u hs hok hstep => Traced.Inv.step h s u e hs hok hstep)
  exact hs.confined h

/-! ### Two runs -/

/-- A call with a timer is established and ended. Then a call with Call-ID
    `callID` is established on another trunk, and the timer expires. -/
def expiredAfter (callID : String) : List ExchangeEvent :=
  [dial shortCalls "c1" "c2"] ++ answered 0 7 resolving ++ [byeFor "c1"] ++
    List.replicate 3 (.teardown 1 none) ++ [dial carrier callID "c4"] ++ answered 1 6 resolving ++
    [.expire 0]

/-- The teardown at 0 is the timer of leg 0, and looks its call up, which has
    ended. The call of leg 1 is stored under `callID`. -/
def LateFor (callID : String) (s : Traced) : Prop :=
  s.jobs.head? = some (⟨ascii "c1", some shortCalls.name, .lookup⟩, some 0) ∧ s.Ended 0 ∧
    s.owners.lookup (ascii callID) = some 1

instance (callID : String) (s : Traced) : Decidable (LateFor callID s) :=
  inferInstanceAs (Decidable (_ ∧ _ ∧ _))

theorem LateFor.job {callID : String} {s : Traced} (h : LateFor callID s) :
    s.jobs[0]? = some (⟨ascii "c1", some shortCalls.name, .lookup⟩, some 0) := by
  rw [← head?_eq_getElem?]
  exact h.1

open Samples

theorem confined_of_run_otherCallID :
    ∃ s, Run (tracedStep plainHandler) FreshStep (Traced.start bothTrunks) (expiredAfter "c3") s ∧
      LateFor "c3" s ∧ s.Confined plainHandler :=
  exists_run_and (by decide +kernel)
    fun s hrun _ => confined_of_run plainHandler bothTrunks (expiredAfter "c3") s hrun

/-- With the Call-ID used again the timer takes the later call for its own. In the
    end that call and its sessions are gone, though nobody hung up, and both
    channels were given back to the first trunk. -/
theorem not_confined_reusedCallID :
    (∃ s, Run (tracedStep plainHandler) (fun _ _ => True) (Traced.start bothTrunks)
      (expiredAfter "c1") s ∧ LateFor "c1" s ∧ ¬ s.Confined plainHandler) ∧
    ∃ s, Run (tracedStep plainHandler) (fun _ _ => True) (Traced.start bothTrunks) lateTimer s ∧
      s.Ended 1 ∧ s.sessions.entries = [] ∧
      s.ex.released = [shortCalls.name, shortCalls.name] := by
  constructor
  · refine exists_run_imp (fun s => LateFor "c1" s ∧
      (tracedStep plainHandler s (.teardown 0 none)).any
        (fun t => t.ex.sent.length ≠ s.ex.sent.length) = true) (by decide +kernel) ?_
    rintro s - ⟨hlate, hsent⟩
    refine ⟨hlate, fun hconf => ?_⟩
    rcases (Option.any_eq_true _ _).mp hsent with ⟨t, hstep, hne⟩
    have hgone := (hconf 0 none _ 0 t hlate.job hstep).2 rfl hlate.2.1
    rw [hgone.ex] at hne
    exact of_decide_eq_true hne rfl
  · exact exists_run_of_exec (by decide +kernel)

end B2bua

end Trecs
