import Trecs.Sip.Subscribers

/-!
# Registering and Being Called

Whether a contact that was registered is found by a call to the same address.

`HandleRegister` keeps the bindings under the URI of the To header as it stands.
`handleB2BUAInvite` looks them up under `NormalizeAOR` of that URI, which drops
everything from the first colon behind the first at sign. For an address with a
port, with a colon in a parameter or with an IPv6 host the two are different, and
the call does not find the contact.

Within one request a contact may also come with a star, which makes the request
ignore it, or once more with an expiry of zero, which deletes it again.

## Main definitions

* `RegisterCall.keeps`: The last change of a contact in a request is not a
  deletion.

## Theorems

* `mem_applyContacts_iff`: The contacts after the loop of a request.
* `found_after_register_iff`: When the contact is found.
* `found_after_register_fails`: An address with a port, and one with an IPv6 host.
-/

namespace Trecs

open List Option

namespace Sip

open Proto

/-- The last contact of the request with this URI does not delete it. -/
def RegisterCall.keeps (c : RegisterCall) (uri : Bytes) : Prop :=
  ∀ y ∈ (c.contacts.filter (fun y => y.uri = uri)).getLast?, y.expiresOr c.defaultExpires ≠ 0

instance (c : RegisterCall) (uri : Bytes) : Decidable (c.keeps uri) :=
  inferInstanceAs (Decidable (∀ y ∈ List.getLast? _, _))

/-- A contact is among the bindings of an address. -/
def Registrar.Finds (r : Registrar) (aor uri : Bytes) : Prop :=
  uri ∈ (r.getBindings aor).map Binding.contactURI

instance (r : Registrar) (aor uri : Bytes) : Decidable (r.Finds aor uri) :=
  inferInstanceAs (Decidable (uri ∈ List.map _ _))

/-- No list has a contact twice. -/
def Registrar.Distinct (r : Registrar) : Prop :=
  ∀ (aor : Bytes), KeysDistinct Binding.contactURI (r.of aor)

/-! ### The contacts of a request -/

variable (now : Int) (callID : Bytes) (cseq default : Int64) (flowID : Bytes)
  (xs : List ParsedContact) (l : List Binding)

theorem keysDistinct_applyContact (x : ParsedContact) (hl : KeysDistinct Binding.contactURI l) :
    KeysDistinct Binding.contactURI (applyContact now callID cseq default flowID l x) := by
  unfold applyContact
  split
  · exact keysDistinct_eraseKey x.uri l hl
  · exact keysDistinct_upsertKey x.uri l (fun _ => rfl) rfl hl

theorem keysDistinct_applyContacts (hl : KeysDistinct Binding.contactURI l) :
    KeysDistinct Binding.contactURI (xs.foldl (applyContact now callID cseq default flowID) l) := by
  induction xs generalizing l with
  | nil => exact hl
  | cons x xs ih => exact ih _ (keysDistinct_applyContact now callID cseq default flowID l x hl)

/-- One contact: its own URI is there unless it was deleted, and the others stay
    as they were. -/
theorem mem_applyContact_iff (x : ParsedContact) (uri : Bytes)
    (hl : KeysDistinct Binding.contactURI l) :
    uri ∈ (applyContact now callID cseq default flowID l x).map Binding.contactURI ↔
      if x.uri = uri then x.expiresOr default ≠ 0 else uri ∈ l.map Binding.contactURI := by
  unfold applyContact
  by_cases hzero : x.expiresOr default = 0
  · rw [if_pos hzero, ← not_iff_not, removeBinding, ← lookupKey_eq_none_iff,
      lookupKey_eraseKey x.uri uri l hl]
    by_cases hu : x.uri = uri
    · simp only [if_pos hu, if_pos hu.symm, hzero, ne_eq, not_true_eq_false, not_false_eq_true]
    · rw [if_neg hu, if_neg (Ne.symm hu), lookupKey_eq_none_iff]
  · have hmem : uri ∈ (upsertBinding now l callID cseq (x.expiresOr default) flowID x).map
        Binding.contactURI ↔ uri = x.uri ∨ uri ∈ l.map Binding.contactURI :=
      mem_map_upsertKey x.uri uri l (fun _ => rfl) rfl
    rw [if_neg hzero, hmem]
    by_cases hu : x.uri = uri
    · simp [hu, hzero]
    · rw [if_neg hu]
      exact ⟨fun hx => hx.resolve_left (Ne.symm hu), .inr⟩

/-- The loop over contacts: the last one with a URI decides whether the URI is
    there. -/
theorem mem_applyContacts_iff (uri : Bytes) (hl : KeysDistinct Binding.contactURI l)
    (hx : ∃ x ∈ xs, x.uri = uri) :
    uri ∈ (xs.foldl (applyContact now callID cseq default flowID) l).map Binding.contactURI ↔
      ∀ y ∈ (xs.filter (fun y => y.uri = uri)).getLast?, y.expiresOr default ≠ 0 := by
  induction xs using List.reverseRecOn with
  | nil =>
    rcases hx with ⟨x, hmem, _⟩
    cases hmem
  | append_singleton xs x ih =>
    rw [foldl_append, foldl_cons, foldl_nil,
      mem_applyContact_iff _ _ _ _ _ _ _ _ (keysDistinct_applyContacts _ _ _ _ _ _ _ hl),
      filter_append]
    by_cases hu : x.uri = uri
    · have hlast : [x].filter (fun y => decide (y.uri = uri)) = [x] :=
        filter_cons_of_pos (by simpa using hu)
      rw [if_pos hu, hlast, getLast?_concat]
      simp
    · have hlast : [x].filter (fun y => decide (y.uri = uri)) = [] :=
        filter_cons_of_neg (by simpa using hu)
      rw [if_neg hu, hlast, append_nil]
      refine ih ?_
      rcases hx with ⟨y, hy, hyu⟩
      rcases mem_append.mp hy with hy | hy
      · exact ⟨y, hy, hyu⟩
      · exact absurd ((mem_singleton.mp hy) ▸ hyu) hu

/-- A request that only asks for the bindings has no contacts. -/
theorem contacts_of_isQuery (c : RegisterCall) (h : c.isQuery = true) : c.contacts = [] := by
  unfold RegisterCall.isQuery at h
  unfold RegisterCall.contacts
  split at h
  · rename_i hraw
    rw [hraw]
    rfl
  · rename_i v hraw
    have hblank : trimSpace v = [] := of_decide_eq_true h
    rw [hraw, extractContacts, foldl_cons, foldl_nil, extractHeader, hblank]
    rfl
  · cases h

/-! ### Answers before the bindings are looked at -/

/-- The responses of the authentication. -/
def Refusal (res : Option SIPMessage) : Prop :=
  ∀ m ∈ res, m.statusCode = 401 ∨ m.statusCode = 403

theorem statusCode_refused (now : Int) (rnd : Bytes) (passwd : PasswordStore) (req res : SIPMessage)
    (h : (∃ stale st, res ∈ (challenge now rnd registerScheme passwd req stale st).response) ∨
      res = newResponse req 403 (ascii "Forbidden")) :
    res.statusCode = 401 ∨ res.statusCode = 403 := by
  rcases h with ⟨_, _, h⟩ | rfl
  · cases h
    exact .inl rfl
  · exact .inr rfl

theorem statusCode_badRequest_ne (req : SIPMessage) : (badRequest req).statusCode ≠ 200 := by
  rw [badRequest, newResponse]
  exact (by decide : (400 : Int) ≠ 200)

theorem distinct_put (r : Registrar) (hr : r.Distinct) (aor : Bytes) (l : List Binding)
    (lastCSeq : AList (fun _ : Bytes => Int64)) (hl : KeysDistinct Binding.contactURI l) :
    Registrar.Distinct { r with bindings := r.put aor l, lastCSeq } := by
  intro aor'
  rw [Registrar.of, Registrar.getD_lookup_put]
  split
  · exact hl
  · exact hr aor'

section

variable [UnicodeLower] [UnicodeUpper] [HashFunctions] [Connections] [DateFormat]

variable (c : RegisterCall)

omit [DateFormat] in
/-- An answer before the bindings are looked at is not a 200. -/
theorem statusCode_authorizeRegister (aor callID : Bytes) (r : Registrar) (auth : AuthState)
    (res : Option SIPMessage) (h : authorizeRegister c aor callID r = .answered auth res) :
    Refusal res := by
  unfold authorizeRegister at h
  split at h
  · cases h
  · simp only at h
    split at h
    · rw [← (Admission.answered.inj h).2]
      exact fun m hm =>
        statusCode_refused _ _ _ _ m (response_verifyDigestRequest _ _ _ _ _ _ _ _ m hm)
    · split at h
      · rw [← (Admission.answered.inj h).2]
        exact fun m hm =>
          statusCode_refused _ _ _ _ m (response_sendAuthFailureResponse _ _ _ _ _ _ _ _ _ m hm)
      · cases h

/-- A request that is answered with a 200 was admitted. -/
theorem updated_of_ok (r : Registrar) (res : SIPMessage) (hres : (handleRegister c r).2 = some res)
    (hok : res.statusCode = 200) : ∃ aor callID auth, c.aor = some aor ∧
      Updated c aor callID { r with auth } ((handleRegister c r).1, res) := by
  rcases handleRegister_cases c r with
    ⟨_, heq⟩ | ⟨aor, callID, auth, res', _, hauth, heq⟩ |
      ⟨aor, callID, auth, r', res', hadm, _, hup, heq⟩
  · rw [heq] at hres
    rw [← some.inj hres] at hok
    exact absurd hok (statusCode_badRequest_ne c.req)
  · rw [heq] at hres
    rcases statusCode_authorizeRegister c aor callID r auth res' hauth res hres with hx | hx
    · exact absurd (hx.symm.trans hok) (by decide)
    · exact absurd (hx.symm.trans hok) (by decide)
  · rw [heq] at hres ⊢
    cases hres
    exact ⟨aor, callID, auth, c.aor_of_admitted aor callID hadm, hup⟩

/-! ### Looking up -/

/-- No event makes a list have a contact twice. -/
theorem distinct_step (r : Registrar) (e : SubscriberEvent) (hr : r.Distinct) :
    (subscriberStep r e).Distinct := by
  have hkeep : ∀ p, Registrar.Distinct
      { r with bindings := retain (Registrar.keepBindings p) r.bindings } := by
    intro p aor
    rw [Registrar.of, Registrar.getD_lookup_retain]
    exact keysDistinct_filter p _ (hr aor)
  cases e with
  | register c =>
    simp only [subscriberStep]
    rcases handleRegister_cases c r with
      ⟨_, heq⟩ | ⟨_, _, auth, _, _, _, heq⟩ | ⟨aor, callID, auth, r', res, _, _, hup, heq⟩
    · rw [heq]
      exact hr
    · rw [heq]
      exact hr
    · rw [heq]
      have hr' : Registrar.Distinct { r with auth } := hr
      cases hup with
      | stale => exact hr'
      | invalid => exact hr'
      | cleared => exact distinct_put _ hr' aor [] _ nodup_nil
      | queried => exact hr'
      | applied bindings _ _ _ hb =>
        refine distinct_put _ hr' aor bindings _ ?_
        rw [hb]
        exact keysDistinct_applyContacts _ _ _ _ _ _ _ (hr aor)
  | getBindings aor => exact hr
  | sweep now => exact hkeep _
  | sweepNonces now => exact hr
  | sweepAttempts now => exact hr
  | removeFlow flowID => exact hkeep _

/-- The registrar that events lead to. -/
def registrarAfter (passwd : Option PasswordStore) (es : List SubscriberEvent) : Registrar :=
  es.foldl subscriberStep (.create passwd)

theorem distinct_registrarAfter (passwd : Option PasswordStore) (es : List SubscriberEvent) :
    (registrarAfter passwd es).Distinct := by
  induction es using List.reverseRecOn with
  | nil => exact fun _ => nodup_nil
  | append_singleton es e ih =>
    rw [registrarAfter, foldl_append]
    exact distinct_step _ e ih

/-- After a request for `u` that is answered with a 200, a contact of the request
    is found under `NormalizeAOR(u)` if that is `u`, the request has no star and
    its last word on the contact is not to delete it; or if that is not `u`, and
    the contact was there before. -/
theorem found_after_register_iff (passwd : Option PasswordStore) (es : List SubscriberEvent)
    (c : RegisterCall) (u : Bytes) (res : SIPMessage) (x : ParsedContact)
    (hu : c.aor = some u) (hres : (handleRegister c (registrarAfter passwd es)).2 = some res)
    (hok : res.statusCode = 200) (hx : x ∈ c.contacts) :
    (handleRegister c (registrarAfter passwd es)).1.Finds (normalizeAOR u) x.uri ↔
      (normalizeAOR u = u ∧ c.hasStar = false ∧ c.keeps x.uri) ∨
      (normalizeAOR u ≠ u ∧ (registrarAfter passwd es).Finds (normalizeAOR u) x.uri) := by
  have hdist := distinct_registrarAfter passwd es
  revert hres hdist
  generalize registrarAfter passwd es = r
  intro hres hdist
  rcases updated_of_ok c r res hres hok with ⟨aor, callID, auth, haor, hup⟩
  have haoru : aor = u := some.inj (haor.symm.trans hu)
  rw [haoru] at hup
  generalize (handleRegister c r).1 = r' at hup ⊢
  -- The list of `u` is replaced, and all other lists stay.
  have hput : ∀ (bindings : List Binding) (lastCSeq : AList (fun _ : Bytes => Int64)),
      Registrar.Finds { r with auth, bindings := r.put u bindings, lastCSeq } (normalizeAOR u) x.uri ↔
        (normalizeAOR u = u ∧ x.uri ∈ bindings.map Binding.contactURI) ∨
        (normalizeAOR u ≠ u ∧ r.Finds (normalizeAOR u) x.uri) := by
    intro bindings lastCSeq
    rw [Registrar.Finds, Registrar.getBindings, Registrar.of, Registrar.getD_lookup_put]
    by_cases hn : normalizeAOR u = u
    · simp [hn]
    · simp only [hn, if_false, false_and, ne_eq, not_false_eq_true, true_and, false_or]
      rfl
  cases hup with
  | stale | invalid => exact absurd hok (statusCode_badRequest_ne c.req)
  | cleared _ hstar =>
    refine (hput [] _).trans ?_
    simp [hstar]
  | queried _ _ hquery =>
    rw [contacts_of_isQuery c hquery] at hx
    cases hx
  | applied bindings _ hstar _ hb =>
    refine (hput bindings _).trans ?_
    have hkeeps : x.uri ∈ bindings.map Binding.contactURI ↔ c.keeps x.uri := by
      rw [hb]
      exact mem_applyContacts_iff _ _ _ _ _ _ _ _ (hdist u) ⟨x, hx, rfl⟩
    simp [hkeeps, hstar]

end

/-! ### Sample requests -/

/-- A registration under an address without a port. -/
def plainAddress : RegisterCall := registerAt 0 "<sip:bo@trecs>" "c1" 1 "<sip:b1>" ""

open Samples

theorem found_after_register_plainAddress :
    (handleRegister plainAddress (registrarAfter none [])).1.Finds
      (normalizeAOR (ascii "sip:bo@trecs")) (ascii "sip:b1") := by
  have hok : ∃ res, (handleRegister plainAddress (registrarAfter none [])).2 = some res ∧
      res.statusCode = 200 := by
    refine ⟨_, rfl, ?_⟩
    decide +kernel
  rcases hok with ⟨res, hres, hstatus⟩
  exact (found_after_register_iff none [] plainAddress (ascii "sip:bo@trecs") res
    ⟨ascii "sip:b1", [], -1, -1, false⟩ (by decide +kernel) hres hstatus
    (by decide +kernel)).mpr (.inl (by decide +kernel))

/-- A request is answered with a 200 and its contact is not found. -/
def NotFound (c : RegisterCall) (u : String) : Prop :=
  c.aor = some (ascii u) ∧
    ((handleRegister c (registrarAfter none [])).2.map SIPMessage.statusCode) = some 200 ∧
    ¬ (handleRegister c (registrarAfter none [])).1.Finds (normalizeAOR (ascii u)) (ascii "sip:b1")

instance (c : RegisterCall) (u : String) : Decidable (NotFound c u) :=
  inferInstanceAs (Decidable (_ ∧ _ ∧ _))

/-- An address with a port, an IPv6 host, and a parameter with a colon. -/
theorem found_after_register_fails :
    NotFound (registerAt 0 "<sip:bo@trecs:5060>" "c1" 1 "<sip:b1>" "") "sip:bo@trecs:5060" ∧
    NotFound
      { registerAt 0 "<sip:bo@[2001:db8::1]>" "c1" 1 "<sip:b1>" "" with
        req := { (registerAt 0 "<sip:bo@[2001:db8::1]>" "c1" 1 "<sip:b1>" "").req with
          startLine := some (.request .REGISTER (ascii "sip:[2001:db8::1]") sipVersion) } }
      "sip:bo@[2001:db8::1]" ∧
    NotFound (registerAt 0 "<sip:bo@trecs;x=y:z>" "c1" 1 "<sip:b1>" "") "sip:bo@trecs;x=y:z" :=
  ⟨by decide +kernel, by decide +kernel, by decide +kernel⟩

end Sip

end Trecs
