import Mathlib.Data.List.Forall2
import Trecs.Lib.Float64
import Trecs.Lib.Keyed
import Trecs.Proto.Address
import Trecs.Sip.Auth
import Trecs.Sip.Contact

/-!
# The Registrar

`internal/sip/registrar.go`. The registrar keeps a list of bindings for each
address of record, and the CSeq of the last request that changed bindings for
each Call-ID.

`HandleRegister` reads the request, checks the credentials if there is a
password store, and changes the bindings while it holds the lock. The response
is built after that, and lists the bindings that have not expired by then. A
call gets the times of both as arguments. The bindings in Go are pointers in a
slice that is changed in place, and the slice the registrar keeps is always the
changed one, so they are a list here.

An expiry time is the time of the request plus a number of seconds, as a
`time.Duration` of 64 bits.

## Main definitions

* `Binding`, `Registrar`: The Go structs.
* `applyContact`: What one contact of a request does to a list of bindings.
* `Listing`: The URIs and times that a response lists.
* `updateBindings`: The part of `HandleRegister` under the lock.
* `handleRegister`, `sweep`, `removeBindingsByFlowID`, `getBindings`: The
  operations.

## Theorems

* `updateBindings_cases`: What an admitted request does.
* `handleRegister_cases`: A request is answered before the bindings are looked
  at, or admitted.
* `listing_registerResponse`: The contacts in a response.
-/

namespace Trecs

open Option

namespace Sip

open Proto

/-- Formatting a time as `time.RFC1123` in UTC. -/
class DateFormat where
  rfc1123 : Int → Bytes

/-- The Go struct `Binding`. -/
structure Binding where
  expires : Int
  lastUpdate : Int
  contactURI : Bytes
  callID : Bytes
  flowID : Bytes
  sipInstance : Bytes
  cseq : Int64
  regID : Int64
  ob : Bool
deriving Repr, DecidableEq

/-- The Go struct `Registrar`. -/
structure Registrar where
  bindings : AList (fun _ : Bytes => List Binding)
  lastCSeq : AList (fun _ : Bytes => Int64)
  passwd : Option PasswordStore
  auth : AuthState
  maxFailedAttempts : Int

/-- A REGISTER request with its transaction, the time at which the bindings are
    changed, the time of the response, and the random bytes for a nonce. -/
structure RegisterCall where
  now : Int
  later : Int
  rnd : Bytes
  req : SIPMessage
  tx : Source

namespace Registrar

/-- `NewRegistrar`, with or without a password store. -/
def create (passwd : Option PasswordStore) : Registrar where
  bindings := ∅
  lastCSeq := ∅
  passwd := passwd
  auth := ⟨.create 300000000000, .create 300000000000⟩
  maxFailedAttempts := 3

/-- The bindings of an address of record; Go reads a missing entry as nil. -/
def of (r : Registrar) (aor : Bytes) : List Binding := (r.bindings.lookup aor).getD []

/-- Keeping a list of bindings for an address of record, or nothing if it is
    empty. -/
def put (r : Registrar) (aor : Bytes) (bindings : List Binding) :
    AList (fun _ : Bytes => List Binding) :=
  if bindings = [] then r.bindings.erase aor else r.bindings.insert aor bindings

/-- `GetBindings`. -/
def getBindings (r : Registrar) (aor : Bytes) : List Binding := r.of aor

/-- The list without some bindings, or none if no binding is left. -/
def keepBindings (p : Binding → Bool) (_ : Bytes) (bindings : List Binding) :
    Option (List Binding) :=
  let filtered := bindings.filter p
  if filtered = [] then none else some filtered

/-- `RemoveBindingsByFlowID`. -/
def removeBindingsByFlowID (flowID : Bytes) (r : Registrar) : Registrar :=
  { r with bindings := retain (keepBindings (fun b => b.flowID ≠ flowID)) r.bindings }

/-- `sweep`. -/
def sweep (now : Int) (r : Registrar) : Registrar :=
  { r with bindings := retain (keepBindings (fun b => now < b.expires)) r.bindings }

variable (p : Binding → Bool) (r : Registrar) (aor : Bytes)

theorem lookup_put (aor aor' : Bytes) (bindings : List Binding) : (r.put aor bindings).lookup aor' =
      if aor' = aor then (if bindings = [] then none else some bindings)
      else r.bindings.lookup aor' := by
  unfold put
  by_cases hnil : bindings = []
  · rw [if_pos hnil, if_pos hnil]
    by_cases ha : aor' = aor
    · rw [if_pos ha, ha]
      exact AList.lookup_erase aor r.bindings
    · rw [if_neg ha]
      exact AList.lookup_erase_ne ha
  · rw [if_neg hnil, if_neg hnil]
    by_cases ha : aor' = aor
    · rw [if_pos ha, ha]
      exact AList.lookup_insert r.bindings
    · rw [if_neg ha]
      exact AList.lookup_insert_ne ha

/-- A star is the same as putting an empty list. -/
theorem put_nil : r.put aor [] = r.bindings.erase aor := rfl

theorem getD_lookup_put (aor aor' : Bytes) (bindings : List Binding) :
    ((r.put aor bindings).lookup aor').getD [] = if aor' = aor then bindings else r.of aor' := by
  rw [lookup_put]
  by_cases ha : aor' = aor
  · rw [if_pos ha, if_pos ha]
    by_cases hnil : bindings = []
    · rw [if_pos hnil, hnil]
      rfl
    · rw [if_neg hnil]
      rfl
  · rw [if_neg ha, if_neg ha]
    rfl

theorem of_put (aor : Bytes) (bindings : List Binding) (lastCSeq : AList (fun _ : Bytes => Int64)) :
    of { r with bindings := r.put aor bindings, lastCSeq } aor = bindings :=
  (getD_lookup_put r aor aor bindings).trans (if_pos rfl)

/-- What `RemoveBindingsByFlowID` and `sweep` leave of a list. -/
theorem lookup_retain_keep (l : List Binding) :
    (retain (keepBindings p) r.bindings).lookup aor = some l ↔
      ∃ old, r.bindings.lookup aor = some old ∧ l = old.filter p ∧ l ≠ [] := by
  rw [lookup_retain, bind_eq_some_iff]
  constructor
  · rintro ⟨old, hold, hkeep⟩
    unfold keepBindings at hkeep
    simp only at hkeep
    split at hkeep
    · contradiction
    · rename_i hne
      have heq := some.inj hkeep
      exact ⟨old, hold, heq.symm, heq ▸ hne⟩
  · rintro ⟨old, hold, heq, hne⟩
    refine ⟨old, hold, ?_⟩
    rw [heq] at hne
    simp only [keepBindings, if_neg hne, heq]

theorem getD_lookup_retain :
    ((retain (keepBindings p) r.bindings).lookup aor).getD [] = (r.of aor).filter p := by
  rw [lookup_retain, of]
  cases r.bindings.lookup aor with
  | none => rfl
  | some old =>
    rw [bind_some, getD_some, keepBindings]
    by_cases hnil : old.filter p = []
    · rw [if_pos hnil, hnil]
      rfl
    · rw [if_neg hnil]
      rfl

end Registrar

/-! ### Changing a list of bindings -/

/-- `removeBinding`. -/
def removeBinding (bindings : List Binding) (contactURI : Bytes) : List Binding :=
  eraseKey Binding.contactURI contactURI bindings

/-- `time.Duration(expiresSec) * time.Second`. -/
def seconds (expiresSec : Int64) : Int := (expiresSec * 1000000000).toInt

/-- A binding that exists, with what a request says about it. -/
def Binding.refresh (now : Int) (callID : Bytes) (cseq expiresSec : Int64) (flowID : Bytes)
    (c : ParsedContact) (b : Binding) : Binding :=
  { b with
    callID := callID
    cseq := cseq
    expires := now + seconds expiresSec
    lastUpdate := now
    flowID := flowID
    ob := c.ob
    regID := if 0 ≤ c.regID then c.regID else b.regID
    sipInstance := if c.sipInstance ≠ [] then c.sipInstance else b.sipInstance }

/-- A binding for a contact that has none. -/
def Binding.ofContact (now : Int) (callID : Bytes) (cseq expiresSec : Int64) (flowID : Bytes)
    (c : ParsedContact) : Binding where
  expires := now + seconds expiresSec
  lastUpdate := now
  contactURI := c.uri
  callID := callID
  flowID := flowID
  sipInstance := c.sipInstance
  cseq := cseq
  regID := c.regID
  ob := c.ob

/-- `upsertBinding`. -/
def upsertBinding (now : Int) (bindings : List Binding) (callID : Bytes) (cseq expiresSec : Int64)
    (flowID : Bytes) (c : ParsedContact) : List Binding :=
  upsertKey Binding.contactURI c.uri (Binding.refresh now callID cseq expiresSec flowID c)
    (Binding.ofContact now callID cseq expiresSec flowID c) bindings

/-- The expiry of a contact: its own, or that of the request. -/
def ParsedContact.expiresOr (c : ParsedContact) (defaultExpires : Int64) : Int64 :=
  if 0 ≤ c.expires then c.expires else defaultExpires

/-- One round of the loop over the contacts. -/
def applyContact (now : Int) (callID : Bytes) (cseq defaultExpires : Int64) (flowID : Bytes)
    (bindings : List Binding) (c : ParsedContact) : List Binding :=
  if c.expiresOr defaultExpires = 0 then removeBinding bindings c.uri
  else upsertBinding now bindings callID cseq (c.expiresOr defaultExpires) flowID c

/-! ### The response -/

/-- `Duration.Seconds`. -/
def durationSeconds (d : Int) : ℚ :=
  float64 (float64 (d.tdiv 1000000000) + float64 (float64 (d.tmod 1000000000) / 1000000000))

/-- `int(math.Ceil(remaining.Seconds()))`. -/
def ceilSeconds (remaining : Int) : Int := ⌈durationSeconds remaining⌉

/-- The value of a Contact header in a response. -/
def Binding.contactValue (now : Int) (b : Binding) : Bytes :=
  [60] ++ b.contactURI ++ ascii ">;expires=" ++ formatInt (ceilSeconds (b.expires - now)) ++
    (if b.ob then ascii ";ob" else []) ++
    (if 0 < b.regID then ascii ";reg-id=" ++ formatInt b.regID.toInt else []) ++
    (if b.sipInstance ≠ [] then ascii ";+sip.instance=" ++ b.sipInstance else [])

/-- A value of a Contact header that begins with a URI in angle brackets and an
    expiry in seconds, and may have more parameters. -/
def ContactText (v uri : Bytes) (secs : Int) : Prop :=
  ∃ params, v = ascii "<" ++ uri ++ ascii ">;expires=" ++ formatInt secs ++ params ∧
    (params = [] ∨ params.head? = some 59)

theorem contactText_contactValue (now : Int) (b : Binding) :
    ContactText (b.contactValue now) b.contactURI (ceilSeconds (b.expires - now)) := by
  refine ⟨_, by simp only [Binding.contactValue, List.append_assoc]; rfl, ?_⟩
  by_cases hob : b.ob
  · exact .inr (by rw [if_pos hob]; rfl)
  · rw [if_neg hob, List.nil_append]
    by_cases hreg : 0 < b.regID
    · exact .inr (by rw [if_pos hreg]; rfl)
    · rw [if_neg hreg, List.nil_append]
      by_cases hinst : b.sipInstance ≠ []
      · exact .inr (by rw [if_pos hinst]; rfl)
      · exact .inl (if_neg hinst)

/-- The URI of a binding and the time at which it expires. -/
def Binding.due (b : Binding) : Bytes × Int := (b.contactURI, b.expires)

/-- The smallest number of seconds that remains, and -1 if there is none. -/
def minExpires (now : Int) (bindings : List Binding) : Int :=
  bindings.foldl (fun m b =>
    let secs := ceilSeconds (b.expires - now)
    if m < 0 ∨ secs < m then secs else m) (-1)

/-- Adding a header under a condition. -/
def addIf (c : Bool) (h : SIPHeaders) (k v : Bytes) : SIPHeaders :=
  if c then SIPHeaders.add h k v else h

theorem get_addIf_of_ne (c : Bool) (h : SIPHeaders) (k v k' : Bytes)
    (hne : canonicalHeaderKey k' ≠ canonicalHeaderKey k) :
    SIPHeaders.get (addIf c h k v) k' = SIPHeaders.get h k' := by
  cases c with
  | false => rfl
  | true => exact SIPHeaders.get_add_of_ne h k k' v hne

section Response

variable [UnicodeLower]

/-- `containsIgnoreCase`. -/
def containsIgnoreCase (s substr : Bytes) : Bool :=
  (split 44 (toLower s)).any (fun part => trimSpace part = toLower substr)

variable [DateFormat]

/-- The response of `sendRegisterResponse`, at a time. -/
def registerResponse (now : Int) (req : SIPMessage) (bindings : List Binding) : SIPMessage :=
  let res := newResponse req 200 (ascii "OK")
  let headers := SIPHeaders.add res.headers (ascii "Date") (DateFormat.rfc1123 now)
  let unexpired := bindings.filter (fun b => 0 < b.expires - now)
  let headers := unexpired.foldl
    (fun h b => SIPHeaders.add h (ascii "Contact") (b.contactValue now)) headers
  let minimum := minExpires now unexpired
  let headers := addIf (0 ≤ minimum) headers (ascii "Expires") (formatInt minimum)
  let outbound := containsIgnoreCase (SIPHeaders.getFirst req.headers (ascii "Supported"))
    (ascii "outbound")
  let headers := addIf outbound headers (ascii "Require") (ascii "outbound")
  let headers := addIf (outbound && req.isReliableTransport) headers (ascii "Flow-Timer")
    (formatInt 120)
  { res with headers }

/-- The contacts in a response are those of the bindings that have not expired,
    in their order. -/
theorem getHeader_registerResponse (now : Int) (req : SIPMessage) (bindings : List Binding) :
    SIPHeaders.get (registerResponse now req bindings).headers (ascii "Contact") =
      (bindings.filter (fun b => 0 < b.expires - now)).map (Binding.contactValue now) := by
  have hne : ∀ k ∈ [ascii "Date", ascii "Expires", ascii "Require", ascii "Flow-Timer"],
      canonicalHeaderKey (ascii "Contact") ≠ canonicalHeaderKey k := by decide +kernel
  have hnone : SIPHeaders.get (newResponse req 200 (ascii "OK")).headers (ascii "Contact") =
      [] := by
    rw [SIPHeaders.get, lookup_newResponse_of_not_mem req _ _ _ (by decide +kernel),
      getD_none]
  unfold registerResponse
  simp only
  rw [get_addIf_of_ne _ _ _ _ _ (hne (ascii "Flow-Timer") (by decide)),
    get_addIf_of_ne _ _ _ _ _ (hne (ascii "Require") (by decide)),
    get_addIf_of_ne _ _ _ _ _ (hne (ascii "Expires") (by decide)), SIPHeaders.get_foldl_add,
    SIPHeaders.get_add_of_ne _ _ _ _ (hne (ascii "Date") (by decide)), hnone, List.nil_append]

/-- The contacts in a response are these URIs, each with the seconds until its
    time. -/
def Listing (now : Int) (res : SIPMessage) (bound : List (Bytes × Int)) : Prop :=
  List.Forall₂ (fun v x => ContactText v x.1 (ceilSeconds (x.2 - now)))
    (SIPHeaders.get res.headers (ascii "Contact")) bound

theorem listing_registerResponse (now : Int) (req : SIPMessage) (bindings : List Binding) :
    Listing now (registerResponse now req bindings)
      ((bindings.filter (fun b => now < b.expires)).map Binding.due) := by
  have hpos : (fun b : Binding => decide (0 < b.expires - now)) =
      fun b => decide (now < b.expires) := by
    funext b
    exact decide_eq_decide.mpr Int.sub_pos
  rw [Listing, getHeader_registerResponse, hpos, List.forall₂_map_left_iff,
    List.forall₂_map_right_iff, List.forall₂_same]
  exact fun b _ => contactText_contactValue now b

theorem statusCode_registerResponse (now : Int) (req : SIPMessage)
    (bindings : List Binding) : (registerResponse now req bindings).statusCode = 200 := rfl

end Response

/-! ### Requests -/

/-- A response with status 400. -/
def badRequest (req : SIPMessage) : SIPMessage := newResponse req 400 (ascii "Bad Request")

namespace RegisterCall

/-- The address of record a request is for: the URI of its To. -/
def aor (c : RegisterCall) : Option Bytes := c.req.toAddress.toOption.map SIPAddress.uri

/-- The address of record and the Call-ID of a request that passes the first
    checks. -/
def admitted (c : RegisterCall) : Option (Bytes × Bytes) :=
  match c.req.toAddress with
  | .error _ => none
  | .ok addr =>
    let reqURI := c.req.requestURI
    if reqURI ≠ [] ∧ uriHostname reqURI ≠ uriHostname addr.uri then none
    else
      let callID := SIPHeaders.getFirst c.req.headers hCallID
      if callID = [] then none else some (addr.uri, callID)

theorem aor_of_admitted (c : RegisterCall) (aor callID : Bytes)
    (h : c.admitted = some (aor, callID)) : c.aor = some aor := by
  unfold admitted at h
  split at h
  · contradiction
  · rename_i hto
    simp only at h
    split at h
    · contradiction
    · split at h
      · contradiction
      · rw [RegisterCall.aor, hto, ← (Prod.mk.inj (some.inj h)).1]
        rfl

theorem callID_of_admitted (c : RegisterCall) (aor callID : Bytes)
    (h : c.admitted = some (aor, callID)) : callID = SIPHeaders.getFirst c.req.headers hCallID := by
  unfold admitted at h
  split at h
  · cases h
  · simp only at h
    split at h
    · cases h
    · split at h
      · cases h
      · exact (Prod.mk.inj (some.inj h)).2.symm

/-- `rawContacts`. -/
def rawContacts (c : RegisterCall) : List Bytes := SIPHeaders.get c.req.headers (ascii "Contact")

/-- `defaultExpires`. -/
def defaultExpires (c : RegisterCall) : Int64 :=
  let expStr := SIPHeaders.getFirst c.req.headers (ascii "Expires")
  if expStr = [] then 3600 else atoiOr (trimSpace expStr) 3600

/-- `contacts`. -/
def contacts (c : RegisterCall) : List ParsedContact := (extractContacts c.rawContacts).1

/-- `hasStar`. -/
def hasStar (c : RegisterCall) : Bool := (extractContacts c.rawContacts).2

/-- Whether the request only asks for the bindings. -/
def isQuery (c : RegisterCall) : Bool :=
  match c.rawContacts with
  | [] => true
  | [v] => trimSpace v = []
  | _ => false

/-- `flowID`. -/
def flowID [Connections] (c : RegisterCall) : Bytes :=
  match c.tx.target.conn with
  | some conn => Connections.flowKey conn
  | none => []

end RegisterCall

/-- What the check of the credentials decides: the request goes on, or it has
    been answered. -/
inductive Admission where
  | proceed (auth : AuthState)
  | answered (auth : AuthState) (res : Option SIPMessage)

section Handle

variable [UnicodeLower] [UnicodeUpper] [HashFunctions] [Connections] [DateFormat]

/-- The part of `HandleRegister` that checks the credentials. -/
def authorizeRegister (c : RegisterCall) (aor callID : Bytes) (r : Registrar) : Admission :=
  match r.passwd with
  | none => .proceed r.auth
  | some passwd =>
    let v := verifyDigestRequest c.now c.rnd registerScheme passwd r.maxFailedAttempts c.req c.tx r.auth
    match v.creds with
    | none => .answered v.state v.response
    | some creds =>
      let allowedAORs := (passwd.aors creds.username).getD []
      let key := authAttemptKey c.tx callID
      if aorAllowed allowedAORs aor = false then
        let f := sendAuthFailureResponse c.now c.rnd registerScheme passwd r.maxFailedAttempts key
          c.req false v.state
        .answered f.state f.response
      else .proceed { v.state with attempts := v.state.attempts.reset key }

/-- The part of `HandleRegister` under the lock, and the response. -/
def updateBindings (c : RegisterCall) (aor callID : Bytes) (r : Registrar) :
    Registrar × SIPMessage :=
  let seq := c.req.cseq.seq
  if (r.lastCSeq.lookup callID).any (fun last => seq ≤ last) then (r, badRequest c.req)
  else if c.hasStar then
    if c.defaultExpires ≠ 0 then (r, badRequest c.req)
    else
      ({ r with
          bindings := r.bindings.erase aor
          lastCSeq := r.lastCSeq.insert callID seq },
        registerResponse c.later c.req [])
  else if c.isQuery then (r, registerResponse c.later c.req (r.of aor))
  else
    let bindings := c.contacts.foldl (applyContact c.now callID seq c.defaultExpires c.flowID)
      (r.of aor)
    ({ r with
        bindings := r.put aor bindings
        lastCSeq := r.lastCSeq.insert callID seq },
      registerResponse c.later c.req bindings)

/-- `HandleRegister`: the registrar afterwards, and the response. -/
def handleRegister (c : RegisterCall) (r : Registrar) : Registrar × Option SIPMessage :=
  match c.admitted with
  | none => (r, some (badRequest c.req))
  | some (aor, callID) =>
    match authorizeRegister c aor callID r with
    | .answered auth res => ({ r with auth }, res)
    | .proceed auth =>
      let u := updateBindings c aor callID { r with auth }
      (u.1, some u.2)

/-! ### What a request does -/

/-- What an admitted request does: the CSeq is too small, a star comes with an
    expiry, a star removes everything, nothing is changed, or the contacts are
    applied one by one. -/
inductive Updated (c : RegisterCall) (aor callID : Bytes) (r : Registrar) :
    Registrar × SIPMessage → Prop
  | stale (last : Int64) (hlast : r.lastCSeq.lookup callID = some last)
      (hle : c.req.cseq.seq ≤ last) : Updated c aor callID r (r, badRequest c.req)
  | invalid (hnew : ∀ last ∈ r.lastCSeq.lookup callID, last < c.req.cseq.seq)
      (hstar : c.hasStar = true) (hexp : c.defaultExpires ≠ 0) :
      Updated c aor callID r (r, badRequest c.req)
  | cleared (hnew : ∀ last ∈ r.lastCSeq.lookup callID, last < c.req.cseq.seq)
      (hstar : c.hasStar = true) (hexp : c.defaultExpires = 0) :
      Updated c aor callID r
        ({ r with
            bindings := r.bindings.erase aor
            lastCSeq := r.lastCSeq.insert callID c.req.cseq.seq },
          registerResponse c.later c.req [])
  | queried (hnew : ∀ last ∈ r.lastCSeq.lookup callID, last < c.req.cseq.seq)
      (hstar : c.hasStar = false) (hquery : c.isQuery = true) :
      Updated c aor callID r (r, registerResponse c.later c.req (r.of aor))
  | applied (bindings : List Binding)
      (hnew : ∀ last ∈ r.lastCSeq.lookup callID, last < c.req.cseq.seq)
      (hstar : c.hasStar = false) (hquery : c.isQuery = false)
      (hb : bindings = c.contacts.foldl
        (applyContact c.now callID c.req.cseq.seq c.defaultExpires c.flowID) (r.of aor)) :
      Updated c aor callID r
        ({ r with
            bindings := r.put aor bindings
            lastCSeq := r.lastCSeq.insert callID c.req.cseq.seq },
          registerResponse c.later c.req bindings)

omit [UnicodeUpper] [HashFunctions] in
theorem updateBindings_cases (c : RegisterCall) (aor callID : Bytes) (r : Registrar) :
    Updated c aor callID r (updateBindings c aor callID r) := by
  unfold updateBindings
  simp only
  by_cases hold : (r.lastCSeq.lookup callID).any (fun last => c.req.cseq.seq ≤ last) = true
  · rw [if_pos hold]
    rcases (Option.any_eq_true _ _).mp hold with ⟨last, hlast, hle⟩
    exact .stale last hlast (of_decide_eq_true hle)
  · have hnew : ∀ last ∈ r.lastCSeq.lookup callID, last < c.req.cseq.seq := by
      intro last hlast
      refine Int64.not_le.mp (fun hle => hold ?_)
      exact (Option.any_eq_true _ _).mpr ⟨last, hlast, decide_eq_true hle⟩
    rw [if_neg hold]
    cases hstar : c.hasStar with
    | true =>
      rw [if_pos rfl]
      by_cases hexp : c.defaultExpires = 0
      · rw [if_neg (not_not.mpr hexp)]
        exact .cleared hnew hstar hexp
      · rw [if_pos hexp]
        exact .invalid hnew hstar hexp
    | false =>
      rw [if_neg Bool.false_ne_true]
      cases hquery : c.isQuery with
      | true =>
        rw [if_pos rfl]
        exact .queried hnew hstar hquery
      | false =>
        rw [if_neg Bool.false_ne_true]
        exact .applied _ hnew hstar hquery rfl

/-- What a request does: it is answered before the bindings are looked at, or it
    is admitted. -/
theorem handleRegister_cases (c : RegisterCall) (r : Registrar) :
    (c.admitted = none ∧ handleRegister c r = (r, some (badRequest c.req))) ∨
    (∃ aor callID auth res, c.admitted = some (aor, callID) ∧
      authorizeRegister c aor callID r = .answered auth res ∧
      handleRegister c r = ({ r with auth }, res)) ∨
    (∃ aor callID auth r' res, c.admitted = some (aor, callID) ∧
      authorizeRegister c aor callID r = .proceed auth ∧
      Updated c aor callID { r with auth } (r', res) ∧ handleRegister c r = (r', some res)) := by
  unfold handleRegister
  cases hadm : c.admitted with
  | none => exact .inl ⟨rfl, rfl⟩
  | some p =>
    rcases p with ⟨aor, callID⟩
    right
    simp only
    cases hauth : authorizeRegister c aor callID r with
    | answered auth res => exact .inl ⟨aor, callID, auth, res, rfl, hauth, rfl⟩
    | proceed auth =>
      exact .inr ⟨aor, callID, auth, _, _, rfl, hauth, updateBindings_cases c aor callID _, rfl⟩

end Handle

end Sip

namespace Samples

open Sip

/-- Dates are left out of the samples. -/
scoped instance noDate : DateFormat := ⟨fun _ => []⟩

end Samples

end Trecs
