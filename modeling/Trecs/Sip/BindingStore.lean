import Trecs.Lib.Lease
import Trecs.Lib.Run
import Trecs.Sip.Registrar

/-!
# The Registrar as a Store of Contacts

What a registrar is for: it keeps, for each address of record, a finite map from
contacts to the time at which they expire, and for each Call-ID the CSeq of the
last request that changed bindings. `BindingStore` is that, with the flow of each
contact, since a flow that breaks takes its contacts with it. The abstract store
never sweeps; a contact that has expired is just not reported any more.

Requests, sweeps and broken flows are the events of a machine that runs the
registrar beside the abstract store. Times do not go back, and the expiry of a
contact fits into 64 bits of nanoseconds. What the registrar has is what the store
has, without the contacts that had expired at the last sweep.

A request is read by the functions of the registrar and then performed on the
abstract store as a whole: the contacts of one request are changed in their
order, so the last change of a contact is the one that counts. With a password
store, only a request whose credentials are accepted gets that far.

## Main definitions

* `BindingStore`: The abstract store.
* `RegisterOp`, `RegisterCall.op`: What a request asks for.
* `RegisterCall.permitted`: The same, if its credentials are accepted.
* `BindingStore.register`, `BindingStore.removeFlow`: The abstract operations.
* `registrarStep`: The registrar beside the store.
* `lastSweep`: When a run swept last.
* `Retains`, `Simulates`: The relation between the two.
* `Answers`: What the response to a request says.

## Theorems

* `register_outcome`: A request to both.
* `simulates_step`, `simulates_of_run`: The events keep the relation.
* `registrar_simulates_store`: The registrar and its answers in every run.
-/

namespace Trecs

open List Option

namespace Sip

open Proto

/-! ### The abstract store -/

/-- Contacts by address of record, each with its expiry and its flow, and the
    CSeq of the last change by Call-ID. -/
structure BindingStore where
  contacts : Bytes → Bytes → Option (Lease Bytes)
  lastChange : Bytes → Option Int64

/-- What a request wants to do with the contacts of its address of record. -/
inductive RegisterAction where
  | query
  | clear
  | change (changes : List (Bytes × Option (Lease Bytes)))

/-- A request as the store sees it. -/
structure RegisterOp where
  aor : Bytes
  callID : Bytes
  cseq : Int64
  action : RegisterAction

namespace BindingStore

/-- No contacts. -/
def empty : BindingStore := ⟨fun _ _ => none, fun _ => none⟩

/-- Setting or deleting contacts one after the other. -/
def applyChanges (m : Bytes → Option (Lease Bytes)) (changes : List (Bytes × Option (Lease Bytes))) :
    Bytes → Option (Lease Bytes) :=
  changes.foldl (fun m x => Function.update m x.1 x.2) m

/-- Replacing the contacts of an address of record. -/
def replace (st : BindingStore) (op : RegisterOp) (m : Bytes → Option (Lease Bytes)) :
    BindingStore where
  contacts := Function.update st.contacts op.aor m
  lastChange := Function.update st.lastChange op.callID (some op.cseq)

/-- A request that is accepted. -/
def perform (st : BindingStore) (op : RegisterOp) : BindingStore :=
  match op.action with
  | .query => st
  | .clear => st.replace op (fun _ => none)
  | .change changes => st.replace op (applyChanges (st.contacts op.aor) changes)

/-- A request that is well-formed is accepted if its CSeq is larger than that of
    the last change with its Call-ID. The result has its address of record
    then. -/
def register (st : BindingStore) (request : Option RegisterOp) : BindingStore × Option Bytes :=
  match request with
  | none => (st, none)
  | some op =>
    if (st.lastChange op.callID).all (fun last => last < op.cseq) then
      (st.perform op, some op.aor)
    else (st, none)

theorem register_of_lt (st : BindingStore) (op : RegisterOp)
    (h : ∀ last ∈ st.lastChange op.callID, last < op.cseq) :
    st.register (some op) = (st.perform op, some op.aor) := by
  refine if_pos ?_
  cases hlast : st.lastChange op.callID with
  | none => rfl
  | some last => exact decide_eq_true (h last hlast)

theorem register_of_le (st : BindingStore) (op : RegisterOp) (last : Int64)
    (hlast : st.lastChange op.callID = some last) (hle : op.cseq ≤ last) :
    st.register (some op) = (st, none) := by
  refine if_neg ?_
  rw [hlast, all_some, decide_eq_true_eq]
  exact Int64.not_lt.mpr hle

/-- A broken flow takes its contacts with it. -/
def removeFlow (st : BindingStore) (flowID : Bytes) : BindingStore :=
  { st with contacts := fun aor uri => (st.contacts aor uri).filter (fun x => x.tag ≠ flowID) }

end BindingStore

/-! ### The registrar beside the store -/

/-- The expiry and the flow of a binding. -/
def Binding.lease (b : Binding) : Lease Bytes := ⟨b.expires, b.flowID⟩

section

variable [Connections]

/-- What one contact of a request asks for. An expiry of zero deletes it. -/
def RegisterCall.changeOf (c : RegisterCall) (x : ParsedContact) : Bytes × Option (Lease Bytes) :=
  (x.uri,
    if x.expiresOr c.defaultExpires = 0 then none
    else some ⟨c.now + (x.expiresOr c.defaultExpires).toInt * 1000000000, c.flowID⟩)

/-- What a request asks for, if it is well-formed. -/
def RegisterCall.op (c : RegisterCall) : Option RegisterOp :=
  match c.admitted with
  | none => none
  | some (aor, callID) =>
    if c.hasStar then
      if c.defaultExpires = 0 then some ⟨aor, callID, c.req.cseq.seq, .clear⟩ else none
    else if c.isQuery then some ⟨aor, callID, c.req.cseq.seq, .query⟩
    else some ⟨aor, callID, c.req.cseq.seq, .change (c.contacts.map c.changeOf)⟩

end

/-- A registrar, the store it should simulate, and the time. -/
structure RegistrarRun where
  reg : Registrar
  store : BindingStore
  clock : Int

/-- What can happen. -/
inductive RegistrarEvent where
  | register (c : RegisterCall)
  | sweep (now : Int)
  | removeFlow (flowID : Bytes)

/-- Times do not go back, and the expiry of a contact fits into a
    `time.Duration`. -/
def RegistrarOk (s : RegistrarRun) : RegistrarEvent → Prop
  | .register c => s.clock ≤ c.now ∧ c.now ≤ c.later ∧
      ∀ x ∈ c.contacts, (x.expiresOr c.defaultExpires).toInt * 1000000000 < 2 ^ 63
  | .sweep now => s.clock ≤ now
  | .removeFlow _ => True

instance (s : RegistrarRun) (e : RegistrarEvent) : Decidable (RegistrarOk s e) := by
  cases e <;> unfold RegistrarOk <;> infer_instance

/-- A new registrar, and an empty store. -/
def RegistrarRun.create (passwd : Option PasswordStore) (start : Int) : RegistrarRun :=
  ⟨.create passwd, .empty, start⟩

/-- The time of the last sweep, and at first that at which the run started. -/
def lastSweep (start : Int) (es : List RegistrarEvent) : Int :=
  es.foldl (fun swept e => match e with
    | .sweep now => now
    | .register _ | .removeFlow _ => swept) start

/-- A list of bindings has the contacts of a map that had not expired at some
    time, each once, and no others. -/
structure Retains (now : Int) (l : List Binding) (m : Bytes → Option (Lease Bytes)) : Prop where
  distinct : KeysDistinct Binding.contactURI l
  holds : Holds Binding.contactURI Binding.lease now l m
  late : ∀ b ∈ l, now < b.expires

/-- The registrar keeps the contacts of the store that had not expired at some
    time. Its lists are not empty. -/
structure Simulates (r : Registrar) (st : BindingStore) (now : Int) : Prop where
  retains : ∀ (aor : Bytes), Retains now (r.of aor) (st.contacts aor)
  nonempty : ∀ (aor : Bytes) (l : List Binding), r.bindings.lookup aor = some l → l ≠ []
  cseqs : ∀ (callID : Bytes), r.lastCSeq.lookup callID = st.lastChange callID

/-- A response lists the contacts of an address of record that have not
    expired, each once and with its expiry. -/
def Lists (now : Int) (res : SIPMessage) (m : Bytes → Option (Lease Bytes)) : Prop :=
  ∃ bound : List (Bytes × Int), Listing now res bound ∧ (bound.map Prod.fst).Nodup ∧
    ∀ uri time, (uri, time) ∈ bound ↔ ∃ x, m uri = some x ∧ x.expires = time ∧ now < time

/-! ### The relation -/

theorem Retains.nil (now : Int) : Retains now [] (fun _ => none) where
  distinct := nodup_nil
  holds := Holds.nil
  late := fun _ hb => absurd hb not_mem_nil

theorem simulates_create (passwd : Option PasswordStore) (start : Int) :
    Simulates (.create passwd) .empty start where
  retains := fun _ => Retains.nil start
  nonempty := fun aor l h => absurd h (by simp [Registrar.create])
  cseqs := fun callID => AList.lookup_empty callID

namespace Simulates

variable {r : Registrar} {st : BindingStore} {now : Int}

/-- Replacing the list of one address of record, in both. -/
theorem replace (h : Simulates r st now) (op : RegisterOp) (bindings : List Binding)
    (m : Bytes → Option (Lease Bytes)) (hm : Retains now bindings m) :
    Simulates
      { r with bindings := r.put op.aor bindings, lastCSeq := r.lastCSeq.insert op.callID op.cseq }
      (st.replace op m) now where
  retains := by
    intro aor
    rw [Registrar.of, Registrar.getD_lookup_put, BindingStore.replace]
    by_cases ha : aor = op.aor
    · rw [if_pos ha, ha]
      simp only [Function.update_self]
      exact hm
    · rw [if_neg ha]
      simp only [Function.update_of_ne ha]
      exact h.retains aor
  nonempty := by
    intro aor l hlook
    rw [Registrar.lookup_put] at hlook
    split at hlook
    · split at hlook
      · cases hlook
      · rename_i hne
        exact some.inj hlook ▸ hne
    · exact h.nonempty aor l hlook
  cseqs := by
    intro callID
    by_cases hc : callID = op.callID
    · rw [hc]
      simp only [BindingStore.replace, Function.update_self]
      exact AList.lookup_insert r.lastCSeq
    · simp only [BindingStore.replace, Function.update_of_ne hc]
      exact (AList.lookup_insert_ne hc).trans (h.cseqs callID)

/-- Keeping some bindings of every list, with what that does to the store. -/
theorem retain (h : Simulates r st now) (p : Binding → Bool) (now' : Int) (st' : BindingStore)
    (hlast : st'.lastChange = st.lastChange)
    (hkept : ∀ aor, Retains now' ((r.of aor).filter p) (st'.contacts aor)) :
    Simulates { r with bindings := Trecs.retain (Registrar.keepBindings p) r.bindings } st' now' where
  retains := by
    intro aor
    rw [Registrar.of, Registrar.getD_lookup_retain]
    exact hkept aor
  nonempty := by
    intro aor l hlook
    rcases (Registrar.lookup_retain_keep p r aor l).mp hlook with ⟨_, _, _, hne⟩
    exact hne
  cseqs := by
    intro callID
    rw [hlast]
    exact h.cseqs callID

end Simulates

/-! ### One contact, and all of them -/

theorem atoiOr_nonneg (v : Bytes) (old : Int64) (hold : 0 ≤ old) : 0 ≤ atoiOr v old := by
  unfold atoiOr
  split
  · split
    · assumption
    · exact hold
  · exact hold

theorem expiresOr_nonneg (c : RegisterCall) (x : ParsedContact) :
    0 ≤ x.expiresOr c.defaultExpires := by
  unfold ParsedContact.expiresOr
  split
  · assumption
  · unfold RegisterCall.defaultExpires
    simp only
    split
    · decide
    · exact atoiOr_nonneg _ _ (by decide)

/-- Seconds that fit into a `time.Duration` are converted exactly. -/
theorem seconds_eq (n : Int64) (h0 : 0 ≤ n) (hlt : n.toInt * 1000000000 < 2 ^ 63) :
    seconds n = n.toInt * 1000000000 := by
  have hn : 0 ≤ n.toInt := Int64.le_iff_toInt_le.mp h0
  rw [seconds, Int64.toInt_mul]
  have hbillion : (1000000000 : Int64).toInt = 1000000000 := by decide
  rw [hbillion, Int.bmod_eq_of_le] <;> omega

section

variable [Connections]

/-- One contact of a request changes the list as it changes the store. -/
theorem retains_applyContact (c : RegisterCall) (callID : Bytes) (x : ParsedContact) (now : Int)
    (l : List Binding) (m : Bytes → Option (Lease Bytes)) (hm : Retains now l m)
    (hnow : now ≤ c.now) (hfits : (x.expiresOr c.defaultExpires).toInt * 1000000000 < 2 ^ 63) :
    Retains now (applyContact c.now callID c.req.cseq.seq c.defaultExpires c.flowID l x)
      (Function.update m (c.changeOf x).1 (c.changeOf x).2) := by
  unfold applyContact RegisterCall.changeOf
  simp only
  by_cases hzero : x.expiresOr c.defaultExpires = 0
  · rw [if_pos hzero, if_pos hzero]
    exact ⟨keysDistinct_eraseKey x.uri l hm.distinct, hm.holds.eraseKey hm.distinct x.uri,
      fun b hb => hm.late b (mem_of_mem_eraseP hb)⟩
  · rw [if_neg hzero, if_neg hzero]
    have hsec := seconds_eq _ (expiresOr_nonneg c x) hfits
    have hpos : 0 < (x.expiresOr c.defaultExpires).toInt := by
      have hnonneg := Int64.le_iff_toInt_le.mp (expiresOr_nonneg c x)
      have hne : (x.expiresOr c.defaultExpires).toInt ≠ 0 := fun h => hzero (Int64.toInt_inj.mp h)
      exact lt_of_le_of_ne hnonneg hne.symm
    refine ⟨keysDistinct_upsertKey x.uri l (fun _ => rfl) rfl hm.distinct, ?_, fun b hb => ?_⟩
    · refine hm.holds.upsertKey x.uri _ _ _ (fun _ => rfl) rfl (fun b => ?_) ?_
      · simp [Binding.refresh, Binding.lease, hsec]
      · simp [Binding.ofContact, Binding.lease, hsec]
    · -- A binding is an old one, or expires in a second or more.
      have hlate : now < c.now + seconds (x.expiresOr c.defaultExpires) := by omega
      rcases mem_upsertKey x.uri l b hb with hold | rfl | ⟨a, _, rfl⟩
      · exact hm.late b hold
      · exact hlate
      · exact hlate

/-- The loop over the contacts of a request. -/
theorem retains_applyContacts (c : RegisterCall) (callID : Bytes) (xs : List ParsedContact)
    (now : Int) (l : List Binding) (m : Bytes → Option (Lease Bytes)) (hm : Retains now l m)
    (hnow : now ≤ c.now)
    (hfits : ∀ x ∈ xs, (x.expiresOr c.defaultExpires).toInt * 1000000000 < 2 ^ 63) :
    Retains now (xs.foldl (applyContact c.now callID c.req.cseq.seq c.defaultExpires c.flowID) l)
      (BindingStore.applyChanges m (xs.map c.changeOf)) := by
  induction xs generalizing l m with
  | nil => exact hm
  | cons x xs ih =>
    have hx := retains_applyContact c callID x now l m hm hnow (hfits x mem_cons_self)
    exact ih _ _ hx (fun y hy => hfits y (mem_cons_of_mem x hy))

/-- What a request asks for is for the address of record and the Call-ID it was
    admitted with. -/
theorem admitted_of_op (c : RegisterCall) (op : RegisterOp) (hop : c.op = some op) :
    c.admitted = some (op.aor, op.callID) ∧ op.cseq = c.req.cseq.seq := by
  unfold RegisterCall.op at hop
  cases hadm : c.admitted with
  | none =>
    rw [hadm] at hop
    cases hop
  | some p =>
    rw [hadm] at hop
    simp only at hop
    split at hop
    · split at hop
      · cases hop
        exact ⟨rfl, rfl⟩
      · cases hop
    · split at hop
      · cases hop
        exact ⟨rfl, rfl⟩
      · cases hop
        exact ⟨rfl, rfl⟩

end

/-! ### The events -/

section

variable [UnicodeLower] [UnicodeUpper] [HashFunctions] [Connections] [DateFormat]

/-- The credentials of a request are accepted. -/
def Admission.proceeds : Admission → Bool
  | .proceed _ => true
  | .answered _ _ => false

/-- What a request asks for, if its credentials are accepted. -/
def RegisterCall.permitted (c : RegisterCall) (r : Registrar) : Option RegisterOp :=
  c.op.filter (fun op => (authorizeRegister c op.aor op.callID r).proceeds)

/-- What happens at an event, to the registrar and to the store. -/
def registrarStep (s : RegistrarRun) : RegistrarEvent → Option RegistrarRun
  | .register c =>
    some ⟨(handleRegister c s.reg).1, (s.store.register (c.permitted s.reg)).1, c.later⟩
  | .sweep now => some { s with reg := s.reg.sweep now, clock := now }
  | .removeFlow flowID =>
    some { s with reg := s.reg.removeBindingsByFlowID flowID, store := s.store.removeFlow flowID }

/-- The response to a request. If the store accepts it, it is a 200 with the
    contacts of the store afterwards. If not, it is a 400 and nothing changes;
    and so it is if the CSeq is not larger than that of the last change. -/
structure Answers (c : RegisterCall) (r : Registrar) (st : BindingStore) : Prop where
  accepted : ∀ (st' : BindingStore) (aor : Bytes), st.register c.op = (st', some aor) →
    ∃ res, (handleRegister c r).2 = some res ∧ res.statusCode = 200 ∧
      Lists c.later res (st'.contacts aor)
  rejected : (st.register c.op).2 = none → handleRegister c r = (r, some (badRequest c.req))
  stale : ∀ last, st.lastChange (SIPHeaders.getFirst c.req.headers hCallID) = some last →
    c.req.cseq.seq ≤ last → handleRegister c r = (r, some (badRequest c.req))

omit [UnicodeUpper] [HashFunctions] [Connections] in
/-- The response that lists the bindings of an address of record. -/
theorem lists_registerResponse (now : Int) (req : SIPMessage) (bindings : List Binding)
    (m : Bytes → Option (Lease Bytes))
    (hl : KeysDistinct Binding.contactURI bindings)
    (hm : Holds Binding.contactURI Binding.lease now bindings m) :
    Lists now (registerResponse now req bindings) m := by
  refine ⟨_, listing_registerResponse now req bindings, ?_, fun uri time => ?_⟩
  · rw [List.map_map]
    exact keysDistinct_filter _ _ hl
  · constructor
    · intro hmem
      rcases mem_map.mp hmem with ⟨b, hb, hdue⟩
      cases hdue
      rcases mem_filter.mp hb with ⟨hin, hlive⟩
      have hlive' := of_decide_eq_true hlive
      exact ⟨b.lease, hm.lease_of_mem hl b hin hlive', rfl, hlive'⟩
    · rintro ⟨x, hx, rfl, hlive⟩
      rcases map_eq_some_iff.mp ((hm uri x hlive).mpr hx) with ⟨b, hb, rfl⟩
      refine mem_map.mpr ⟨b, mem_filter.mpr ⟨mem_of_find?_eq_some hb, decide_eq_true hlive⟩, ?_⟩
      exact congrArg (·, b.expires) (key_of_lookupKey uri b bindings hb)

omit [DateFormat] in
theorem permitted_of_proceed (c : RegisterCall) (r : Registrar) (aor callID : Bytes)
    (auth : AuthState) (hadm : c.admitted = some (aor, callID))
    (hauth : authorizeRegister c aor callID r = .proceed auth) : c.permitted r = c.op := by
  cases hop : c.op with
  | none => rw [RegisterCall.permitted, hop, filter_none]
  | some op =>
    have hsame := hadm.symm.trans (admitted_of_op c op hop).1
    cases hsame
    rw [RegisterCall.permitted, hop]
    exact filter_some_pos (by rw [hauth]; rfl)

omit [DateFormat] in
theorem permitted_of_none (c : RegisterCall) (r : Registrar) (h : r.passwd = none) :
    c.permitted r = c.op := by
  cases hop : c.op with
  | none => rw [RegisterCall.permitted, hop, filter_none]
  | some op =>
    rw [RegisterCall.permitted, hop]
    exact filter_some_pos (by rw [authorizeRegister, h]; rfl)

omit [DateFormat] in
theorem permitted_of_answered (c : RegisterCall) (r : Registrar) (aor callID : Bytes)
    (auth : AuthState) (res : Option SIPMessage) (hadm : c.admitted = some (aor, callID))
    (hauth : authorizeRegister c aor callID r = .answered auth res) : c.permitted r = none := by
  refine filter_eq_none_iff.mpr (fun op hop => ?_)
  have hsame := hadm.symm.trans (admitted_of_op c op hop).1
  cases hsame
  rw [hauth]
  exact Bool.false_ne_true

/-- A request, in a registrar that simulates a store: the store rejects it and the
    registrar changes no binding, or the store accepts it and the registrar lists
    the bindings it has afterwards. -/
theorem register_outcome (r : Registrar) (st : BindingStore) (now : Int) (h : Simulates r st now)
    (c : RegisterCall) (hnow : now ≤ c.now)
    (hfits : ∀ x ∈ c.contacts, (x.expiresOr c.defaultExpires).toInt * 1000000000 < 2 ^ 63) :
    (st.register (c.permitted r) = (st, none) ∧
      ∃ auth res, handleRegister c r = ({ r with auth }, res) ∧
        (r.passwd = none → auth = r.auth ∧ res = some (badRequest c.req))) ∨
    (∃ op r', c.permitted r = some op ∧ (∀ last ∈ st.lastChange op.callID, last < op.cseq) ∧
      handleRegister c r = (r', some (registerResponse c.later c.req (r'.of op.aor))) ∧
      Simulates r' (st.perform op) now ∧ r'.passwd = r.passwd) := by
  rcases handleRegister_cases c r with
    ⟨hadm, hres⟩ | ⟨aor, callID, auth, res, hadm, hauth, hres⟩ |
    ⟨aor, callID, auth, r', res, hadm, hauth, hup, hres⟩
  · left
    refine ⟨?_, r.auth, _, hres, fun _ => ⟨rfl, rfl⟩⟩
    simp [RegisterCall.permitted, RegisterCall.op, hadm, BindingStore.register]
  · left
    refine ⟨?_, auth, res, hres, fun hnone => ?_⟩
    · rw [permitted_of_answered c r aor callID auth res hadm hauth]
      rfl
    · rw [authorizeRegister, hnone] at hauth
      cases hauth
  · rw [hres, permitted_of_proceed c r aor callID auth hadm hauth]
    have hsame : r.passwd = none → auth = r.auth := by
      intro hnone
      rw [authorizeRegister, hnone] at hauth
      cases hauth
      rfl
    have hr : Simulates { r with auth } st now := ⟨h.retains, h.nonempty, h.cseqs⟩
    -- The store has the same CSeq for the Call-ID.
    have hcseq : r.lastCSeq.lookup callID = st.lastChange callID := h.cseqs callID
    cases hup with
    | stale last hlast hle =>
      left
      refine ⟨?_, auth, _, rfl, fun hnone => ⟨hsame hnone, rfl⟩⟩
      cases hop : c.op with
      | none => rfl
      | some op =>
        rcases admitted_of_op c op hop with ⟨hadm', hseq⟩
        cases hadm.symm.trans hadm'
        exact st.register_of_le op last (hcseq.symm.trans hlast) (hseq ▸ hle)
    | invalid hnew hstar hexp =>
      left
      refine ⟨?_, auth, _, rfl, fun hnone => ⟨hsame hnone, rfl⟩⟩
      simp only [RegisterCall.op, hadm, hstar, if_true, if_neg hexp, BindingStore.register]
    | cleared hnew hstar hexp =>
      right
      let op : RegisterOp := ⟨aor, callID, c.req.cseq.seq, .clear⟩
      have hop : c.op = some op := by
        simp [RegisterCall.op, hadm, hstar, hexp, op]
      refine ⟨op, _, hop, hcseq ▸ hnew, ?_, hr.replace op [] _ (Retains.nil now), rfl⟩
      rw [Registrar.of_put, Registrar.put_nil]
    | queried hnew hstar hquery =>
      right
      have hop : c.op = some ⟨aor, callID, c.req.cseq.seq, .query⟩ := by
        simp [RegisterCall.op, hadm, hstar, hquery]
      exact ⟨_, _, hop, hcseq ▸ hnew, rfl, hr, rfl⟩
    | applied bindings hnew hstar hquery hb =>
      right
      let op : RegisterOp := ⟨aor, callID, c.req.cseq.seq, .change (c.contacts.map c.changeOf)⟩
      have hop : c.op = some op := by
        simp [RegisterCall.op, hadm, hstar, hquery, op]
      have hkept : Retains now bindings
          (BindingStore.applyChanges (st.contacts aor) (c.contacts.map c.changeOf)) := by
        rw [hb]
        exact retains_applyContacts c callID c.contacts now (r.of aor) _ (h.retains aor) hnow hfits
      refine ⟨op, _, hop, hcseq ▸ hnew, ?_, hr.replace op _ _ hkept, rfl⟩
      rw [Registrar.of_put]

/-- What a step keeps: the registrar simulates the store, without what had expired
    at the last sweep. -/
structure SweptAt (passwd : Option PasswordStore) (swept : Int) (s : RegistrarRun) : Prop where
  simulates : Simulates s.reg s.store swept
  clock : swept ≤ s.clock
  passwd : s.reg.passwd = passwd

theorem simulates_step (passwd : Option PasswordStore) (start : Int) (es : List RegistrarEvent)
    (s : RegistrarRun) (e : RegistrarEvent) (t : RegistrarRun)
    (hs : SweptAt passwd (lastSweep start es) s) (hok : RegistrarOk s e)
    (hstep : registrarStep s e = some t) : SweptAt passwd (lastSweep start (es ++ [e])) t := by
  rw [lastSweep, foldl_append]
  have hsim := hs.simulates
  have hclock := hs.clock
  cases e with
  | register c =>
    cases hstep
    rcases hok with ⟨hnow, hlater, hfits⟩
    refine ⟨?_, show lastSweep start es ≤ c.later by omega, ?_⟩
    all_goals
      rcases register_outcome s.reg s.store _ hsim c (by omega) hfits with
        ⟨hst, auth, res, hres, -⟩ | ⟨op, r', hop, hacc, hres, hsim', hpasswd⟩
    · simp only [hst, hres]
      exact ⟨hsim.retains, hsim.nonempty, hsim.cseqs⟩
    · simp only [hres, hop, s.store.register_of_lt op hacc]
      exact hsim'
    · simp only [hres]
      exact hs.passwd
    · simp only [hres]
      exact hpasswd.trans hs.passwd
  | sweep now =>
    cases hstep
    -- The store keeps what the registrar forgets here.
    have hle : lastSweep start es ≤ now := Int.le_trans hclock hok
    refine ⟨hsim.retain _ now s.store rfl (fun aor => ?_), Int.le_refl now, hs.passwd⟩
    have hkept := hsim.retains aor
    exact ⟨keysDistinct_filter _ _ hkept.distinct, (hkept.holds.mono now hle).sweep hkept.distinct,
      fun b hb => of_decide_eq_true (mem_filter.mp hb).2⟩
  | removeFlow flowID =>
    cases hstep
    refine ⟨hsim.retain _ _ (s.store.removeFlow flowID) rfl (fun aor => ?_), hclock, hs.passwd⟩
    have hkept := hsim.retains aor
    exact ⟨keysDistinct_filter _ _ hkept.distinct,
      hkept.holds.filterTag hkept.distinct (fun tag => tag ≠ flowID),
      fun b hb => hkept.late b (mem_filter.mp hb).1⟩

theorem simulates_of_run (passwd : Option PasswordStore) (start : Int) (es : List RegistrarEvent)
    (s : RegistrarRun)
    (hrun : Run registrarStep RegistrarOk (RegistrarRun.create passwd start) es s) :
    SweptAt passwd (lastSweep start es) s := by
  have hstart : SweptAt passwd (lastSweep start []) (RegistrarRun.create passwd start) :=
    ⟨simulates_create passwd start, Int.le_refl start, rfl⟩
  exact hrun.invariant_events (fun es s => SweptAt passwd (lastSweep start es) s) hstart
    (simulates_step passwd start)

/-- The response to a request, in a registrar without a password store that
    simulates a store. -/
theorem answers_of_simulates (r : Registrar) (st : BindingStore) (now : Int)
    (h : Simulates r st now) (hnone : r.passwd = none) (c : RegisterCall) (hnow : now ≤ c.now)
    (hlater : c.now ≤ c.later)
    (hfits : ∀ x ∈ c.contacts, (x.expiresOr c.defaultExpires).toInt * 1000000000 < 2 ^ 63) :
    Answers c r st := by
  have hop := permitted_of_none c r hnone
  rcases register_outcome r st now h c hnow hfits with
    ⟨hst, auth, res, hhandle, hbad⟩ | ⟨op, r', hperm, hacc, hres, hsim, -⟩
  · have hres : handleRegister c r = (r, some (badRequest c.req)) := by
      rcases hbad hnone with ⟨rfl, rfl⟩
      exact hhandle
    rw [hop] at hst
    refine ⟨fun st' aor heq => ?_, fun _ => hres, fun _ _ _ => hres⟩
    rw [hst] at heq
    exact absurd (Prod.mk.inj heq).2 (by simp only [reduceCtorEq, not_false_eq_true])
  · rw [hop] at hperm
    have hreg : st.register c.op = (st.perform op, some op.aor) := by
      rw [hperm, st.register_of_lt op hacc]
    refine ⟨fun st' aor heq => ?_, fun hnot => ?_, fun last hlast hle => ?_⟩
    · rw [hreg, Prod.mk.injEq, some.injEq] at heq
      rw [hres, ← heq.1, ← heq.2]
      have hkept := hsim.retains op.aor
      exact ⟨_, rfl, statusCode_registerResponse _ _ _,
        lists_registerResponse _ _ _ _ hkept.distinct (hkept.holds.mono _ (by omega))⟩
    · rw [hreg] at hnot
      cases hnot
    · rcases admitted_of_op c op hperm with ⟨hadm, hseq⟩
      rw [← RegisterCall.callID_of_admitted c op.aor op.callID hadm] at hlast
      rw [← hseq] at hle
      exact absurd hle (Int64.not_le.mpr (hacc last hlast))

/-- In every run the registrar has exactly the contacts of the store that had not
    expired at the last sweep, its lists are not empty and have no contact twice,
    and it answers every request from the store: a 200 lists exactly the contacts
    that have not expired, and a request whose CSeq is not larger than that of the
    last change with its Call-ID gets a 400 and changes nothing. -/
theorem registrar_simulates_store (start : Int) (es : List RegistrarEvent) (s : RegistrarRun)
    (hrun : Run registrarStep RegistrarOk (RegistrarRun.create none start) es s) :
    Simulates s.reg s.store (lastSweep start es) ∧
      ∀ c, RegistrarOk s (.register c) → Answers c s.reg s.store := by
  have hswept := simulates_of_run none start es s hrun
  exact ⟨hswept.simulates, fun c hok => answers_of_simulates _ _ _ hswept.simulates hswept.passwd c
    (Int.le_trans hswept.clock hok.1) hok.2.1 hok.2.2⟩

end

/-! ### A sample run -/

/-- A REGISTER request from a connection at a time in seconds. -/
def registerAt (time : Int) (aor callID : String) (cseq : Int64) (contact expires : String) :
    RegisterCall :=
  let headers : SIPHeaders := SIPHeaders.add ∅ hTo (ascii aor)
  let headers := SIPHeaders.add headers hCallID (ascii callID)
  let headers := if contact = "" then headers
    else SIPHeaders.add headers (ascii "Contact") (ascii contact)
  let headers := if expires = "" then headers
    else SIPHeaders.add headers (ascii "Expires") (ascii expires)
  { now := time * 1000000000
    later := time * 1000000000
    rnd := [UInt8.ofInt time]
    req := { newRequest .REGISTER (ascii "sip:trecs") with headers, cseq := ⟨.REGISTER, cseq⟩ }
    tx := ⟨none, ⟨none, some 0, []⟩⟩ }

/-- Two contacts, one of them for a short time; a sweep when it has expired; a
    refresh and a removal in one request; a request with an old CSeq. -/
def sampleRegistrations : List RegistrarEvent :=
  [.register (registerAt 0 "<sip:al@trecs>" "c1" 1 "<sip:a1>;expires=60, <sip:a2>" "600"),
    .register (registerAt 5 "<sip:bo@trecs>" "c2" 1 "<sip:b1>" ""),
    .sweep 61000000000,
    .register (registerAt 70 "<sip:al@trecs>" "c1" 2 "<sip:a2>;expires=0, <sip:a3>, sip:a3" "9"),
    .register (registerAt 71 "<sip:al@trecs>" "c1" 2 "*" "0"),
    .removeFlow (ascii "other")]

open Samples

theorem registrar_simulates_sampleRegistrations :
    ∃ s, Run registrarStep RegistrarOk (RegistrarRun.create none 0) sampleRegistrations s ∧
      (s.reg.of (ascii "sip:al@trecs")).map Binding.contactURI = [ascii "sip:a3"] ∧
      Simulates s.reg s.store (lastSweep 0 sampleRegistrations) ∧
      ∀ c, RegistrarOk s (.register c) → Answers c s.reg s.store :=
  exists_run_and (by decide +kernel) fun s hrun _ => registrar_simulates_store 0 _ s hrun

end Sip

end Trecs
