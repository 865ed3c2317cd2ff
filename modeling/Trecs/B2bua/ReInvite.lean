import Trecs.B2bua.Dispatch
import Trecs.B2bua.InDialog

/-!
# An INVITE Within a Dialog

A party of an established call may send another INVITE in its dialog, to change
the media or to refresh the session. `HandleInvite` does not look for the dialog.
It treats the INVITE as a new call: a leg to the callee is set up, a channel of a
trunk is taken, and a service answers with a second tag in the To header.

So the call is left alone only where a new call would be refused: the INVITE is
not admitted, the service, the trunk or the user cannot be had, there is no
channel or no socket left, or the offer cannot be read. An INVITE without an
offer that gets that far ends in a panic.

## Main definitions

* `ReInvite`: An INVITE in the dialog of a side of a call.
* `LeavesAlone`: What should come of it.
* `NoSockets`, `OfferUnreadable`, `ServiceFails`, `TrunkFails`, `UserFails`: What
  a call can fail at.
* `Declined`: The INVITE would be refused as a new call.

## Theorems

* `leavesAlone_iff`: When the call is left alone.
-/

namespace Trecs

open List
open Option hiding or_self

namespace B2bua

open Proto Sip Media Trunks

/-! ### Responses -/

/-- The To header of a request and of a response to it are the same. -/
theorem getFirst_newResponse_to (req : SIPMessage) (code : Int64) (reason : Bytes) :
    SIPHeaders.getFirst (newResponse req code reason).headers hTo =
      SIPHeaders.getFirst req.headers hTo := by
  have hkey : canonicalHeaderKey hTo = hTo := by decide
  have hback : (newResponse req code reason).headers.lookup hTo =
      (copyHeader req.headers ([hVia, hFrom].foldl (copyHeader req.headers) ∅) hTo).lookup hTo :=
    lookup_foldl_copyHeader req.headers [hCallID, hCSeq] _ hTo (by decide)
  have hfront : ([hVia, hFrom].foldl (copyHeader req.headers) ∅).lookup hTo = none :=
    (lookup_foldl_copyHeader req.headers [hVia, hFrom] ∅ hTo (by decide)).trans
      (AList.lookup_empty hTo)
  rw [SIPHeaders.getFirst, SIPHeaders.getFirst, hkey, hback, copyHeader]
  rcases hreq : req.headers.lookup hTo with _ | (_ | ⟨v, vs⟩)
  · simp only [hfront]
  · simp only [hfront]
    rfl
  · simp

/-- The tags in the To header of a response. -/
def toTags (res : SIPMessage) : List Bytes := addressTags (SIPHeaders.getFirst res.headers hTo)

theorem toTags_newResponse (req : SIPMessage) (code : Int64) (reason : Bytes) :
    toTags (newResponse req code reason) = toTags req := by
  rw [toTags, getFirst_newResponse_to, toTags]

section Admission

variable [UnicodeLower] [UnicodeUpper] [HashFunctions] [Connections]

variable (now : Int) (rnd : Bytes) (method : String) (passwd : PasswordStore) (maxAttempts : Int)
  (req : SIPMessage)

omit [UnicodeLower] [UnicodeUpper] [HashFunctions] [Connections] in
theorem toTags_challenge (stale : Bool) (st : AuthState) :
    ∀ res ∈ (challenge now rnd (proxyScheme method) passwd req stale st).response,
      toTags res = toTags req := by
  intro res hres
  rw [← some.inj hres, toTags]
  have hne : canonicalHeaderKey hTo ≠ canonicalHeaderKey (proxyScheme method).respChallengeKey := by
    simp only [proxyScheme]
    decide +kernel
  rw [SIPHeaders.getFirst_add_of_ne _ _ _ _ hne]
  exact toTags_newResponse req _ _

/-- Whoever is not admitted is answered with the tags of the request. -/
theorem toTags_verifyDigestRequest (tx : Source) (st : AuthState) :
    ∀ res ∈ (verifyDigestRequest now rnd (proxyScheme method) passwd maxAttempts req tx
      st).response, toTags res = toTags req := by
  intro res hres
  rcases response_verifyDigestRequest now rnd _ passwd maxAttempts req tx st res hres with
    ⟨stale, st', h⟩ | rfl
  · exact toTags_challenge now rnd method passwd req stale st' res h
  · exact toTags_newResponse req _ _

theorem toTags_admission [RegexpLib] (cfg : SwitchConfig) (env : ArrivalEnv) (req : SIPMessage)
    (tx : Source) (st : AuthState) :
    ∀ res ∈ (admission cfg env req tx st).responses, toTags res = toTags req := by
  intro res hres
  unfold admission requireProxyAuth at hres
  split at hres
  · cases hres
  · split at hres
    · cases hres
    · simp only at hres
      split at hres
      · cases hres
      · exact toTags_verifyDigestRequest env.now env.authRnd "INVITE" _ _ req tx st res
          (mem_toList.mp hres)

end Admission

/-! ### Refusals -/

/-- The handler leaves with a response to the INVITE. -/
def Declines {α : Type} (req : SIPMessage) (x : Except Exit α) : Prop :=
  ∃ code reason, x = refuse req code reason

/-- The handler leaves with a response exactly if something fails. -/
def DeclinesIf {α : Type} (req : SIPMessage) (x : Except Exit α) (fails : Prop) : Prop :=
  Declines req x ∧ fails ∨ (∀ res, x ≠ .error (.refused res)) ∧ ¬ fails

theorem DeclinesIf.of_ok {α : Type} (req : SIPMessage) (a : α) (fails : Prop) (h : ¬ fails) :
    DeclinesIf req (.ok a) fails :=
  Or.inr ⟨fun _ hc => (by cases hc), h⟩

/-- One of the two sockets of a call cannot be had. -/
def NoSockets (env : ArrivalEnv) : Prop := env.rtpPortA = none ∨ env.rtpPortB = none

section Refusals

variable [SdpCodec]

/-- The offer of the INVITE cannot be read. -/
def OfferUnreadable (req : SIPMessage) : Prop :=
  hasEarlyOffer req = true ∧ unmarshalSDPBytes req.body = none

/-- The outcome of the part that both kinds of calls have in common: no sockets
    or no offer that can be read, no offer at all, or both are there. -/
theorem media_cases {α : Type} (env : ArrivalEnv) (req : SIPMessage)
    (f : Int64 × Int64 → Option SDP → UInt8 → Except Exit α) (x : Except Exit α)
    (hx : x = do
      let ports ← newRTPConns env.toInviteEnv req
      let offer ← readOffer req
      let pt ← selectPT offer
      f ports offer pt) :
    (Declines req x ∧ (NoSockets env ∨ OfferUnreadable req)) ∨
    (x = .error .panicked ∧ ¬ NoSockets env ∧ hasEarlyOffer req = false) ∨
    (∃ ports offer pt, x = f ports offer pt ∧ ¬ NoSockets env ∧ ¬ OfferUnreadable req ∧
      hasEarlyOffer req = true) := by
  unfold newRTPConns NoSockets at *
  rcases hA : env.rtpPortA with _ | portA
  · rw [hA] at hx
    exact .inl ⟨⟨_, _, hx⟩, Or.inl (Or.inl rfl)⟩
  rcases hB : env.rtpPortB with _ | portB
  · rw [hA, hB] at hx
    exact .inl ⟨⟨_, _, hx⟩, Or.inl (Or.inr rfl)⟩
  have hports : ¬ (some portA = none ∨ some portB = none) := by
    simp
  rw [hA, hB] at hx
  unfold readOffer OfferUnreadable at *
  by_cases ho : hasEarlyOffer req = true
  · rw [if_pos ho] at hx
    rcases hbody : unmarshalSDPBytes req.body with _ | offer
    · rw [hbody] at hx
      exact .inl ⟨⟨_, _, hx⟩, Or.inr ⟨ho, rfl⟩⟩
    · rw [hbody] at hx
      rcases hpt : pickPayloadType (some offer) with _ | pt
      · cases (pickPayloadType_eq_none_iff _).mp hpt
      · refine .inr (Or.inr ⟨(portA, portB), some offer, pt, ?_, hports, ?_, ho⟩)
        · have hselect : selectPT (some offer) = .ok pt := by rw [selectPT, hpt]
          rw [hx]
          change selectPT (some offer) >>= f (portA, portB) (some offer) = _
          rw [hselect]
          rfl
        · simp
  · rw [if_neg ho] at hx
    exact .inr (Or.inl ⟨hx, hports, Bool.eq_false_of_not_eq_true ho⟩)

/-- What a call over a trunk can fail at once it has a channel: the sockets, the
    offer, or the way to the trunk. -/
def TrunkFails (env : ArrivalEnv) (req : SIPMessage) (trk : Trunk) (dest : Bytes) : Prop :=
  NoSockets env ∨ OfferUnreadable req ∨
    hasEarlyOffer req = true ∧
      ∀ target transport,
        env.targetFromContact (trunkURI trk.host trk.port dest) = some (target, transport) →
          transport = .tcp ∧ trk.transport = ascii "tcp" ∧ target.conn.isSome = true ∧
            env.handleOutbound = false

theorem declinesIf_trunkInvite (h : Handler) (env : ArrivalEnv) (req : SIPMessage) (trk : Trunk)
    (dest : Bytes) (toAddr fromAddr : SIPAddress) (hfrom : req.fromAddress = .ok fromAddr) :
    DeclinesIf req (trunkInvite h env.toInviteEnv req trk dest toAddr)
      (TrunkFails env req trk dest) := by
  have huri : ascii "sip:" ++ dest ++ ascii "@" ++
      joinHostPort trk.host (formatInt trk.port.toInt) = trunkURI trk.host trk.port dest := rfl
  unfold TrunkFails
  rcases media_cases env req _ (trunkInvite h env.toInviteEnv req trk dest toAddr) rfl with
    ⟨hdec, hor⟩ | ⟨hpanic, hports, hnone⟩ | ⟨ports, offer, pt, hx, hports, hread, ho⟩
  · exact .inl ⟨hdec, hor.imp_right Or.inl⟩
  · rw [hpanic]
    refine .inr ⟨fun _ hc => (by cases hc), ?_⟩
    simp [OfferUnreadable, hnone, hports]
  · rw [hx]
    simp only [hports, hread, ho, false_or, true_and, hfrom, Except.toOption, orRefuse, huri, bind,
      Except.bind]
    rcases htarget : env.targetFromContact (trunkURI trk.host trk.port dest) with _ | ⟨target, tr⟩
    · refine .inl ⟨⟨_, _, rfl⟩, ?_⟩
      simp
    · simp only [some.injEq, Prod.mk.injEq, and_imp]
      by_cases hrefused : (tr = .tcp ∧ trk.transport = ascii "tcp") ∧ target.conn.isSome = true ∧
          env.handleOutbound = false
      · rw [if_pos hrefused]
        refine .inl ⟨⟨_, _, rfl⟩, fun target' tr' ht htr => ?_⟩
        rw [← ht, ← htr]
        exact ⟨hrefused.1.1, hrefused.1.2, hrefused.2⟩
      · rw [if_neg hrefused]
        refine DeclinesIf.of_ok req _ _ fun hc => hrefused ?_
        rcases hc target tr rfl rfl with ⟨htr, hown, hconn⟩
        exact ⟨⟨htr, hown⟩, hconn⟩

/-- What a call to a user can fail at. -/
def UserFails (env : ArrivalEnv) (req : SIPMessage) : Prop :=
  ¬ Reachable env req ∨ NoSockets env ∨ OfferUnreadable req

theorem declinesIf_userInvite [UnicodeLower] (h : Handler) (env : ArrivalEnv) (req : SIPMessage)
    (toAddr fromAddr : SIPAddress) (hto : req.toAddress = .ok toAddr)
    (hfrom : req.fromAddress = .ok fromAddr) :
    DeclinesIf req (userInvite h env.toInviteEnv req toAddr) (UserFails env req) := by
  have hreach : Reachable env req ↔
      (reachableBinding env (normalizeAOR toAddr.uri)).isSome = true := by
    rw [Reachable, aorOf, hto]
    rfl
  unfold UserFails
  rw [hreach, reachableBinding]
  unfold userInvite
  simp only [hfrom, Except.toOption, orRefuse]
  by_cases hnil : env.getBindings (normalizeAOR toAddr.uri) = []
  · rw [if_pos hnil, if_pos hnil]
    exact .inl ⟨⟨_, _, rfl⟩, Or.inl (by simp only [isSome_none, Bool.false_eq_true,
      not_false_eq_true])⟩
  rw [if_neg hnil, if_neg hnil]
  rcases env.selectBinding (env.getBindings (normalizeAOR toAddr.uri)) with _ | ⟨binding, target, tr⟩
  · exact .inl ⟨⟨_, _, rfl⟩, Or.inl (by simp only [map_none, isSome_none,
      Bool.false_eq_true, not_false_eq_true])⟩
  simp only [map_some, isSome_some, not_true_eq_false, false_or]
  rcases media_cases env req _ _ rfl with
    ⟨hdec, hor⟩ | ⟨hpanic, hports, hnone⟩ | ⟨ports, offer, pt, hx, hports, hread, ho⟩
  · exact .inl ⟨hdec, hor⟩
  · refine .inr ⟨fun res hc => ?_, ?_⟩
    · cases hpanic.symm.trans hc
    · simp [OfferUnreadable, hnone, hports]
  · refine .inr ⟨fun res hc => ?_, by simp only [hports, hread, or_self, not_false_eq_true]⟩
    cases hx.symm.trans hc

/-- What a service can fail at. `loaded` says whether it has something to play. -/
def ServiceFails (env : ArrivalEnv) (req : SIPMessage) (loaded : Bool) : Prop :=
  OfferUnreadable req ∨ loaded = false ∨ env.rtpPortA = none ∨
    hasEarlyOffer req = true ∧ env.resolves = false

variable [RegexpLib]

variable (cfg : SwitchConfig) (env : ArrivalEnv) (kind : SessionKind) (loaded : Bool)
  (req : SIPMessage)

omit [SdpCodec] in
/-- The description of a service never fails: there is a payload type to pick. -/
theorem exists_serviceSDP (port : Int64) (offer : Option SDP) :
    ∃ sdp, serviceSDP cfg env port offer = .ok sdp := by
  rcases offer with _ | o
  · exact ⟨_, rfl⟩
  · rcases hpt : pickPayloadType (some o) with _ | pt
    · injection (pickPayloadType_eq_none_iff _).mp hpt
    · refine ⟨buildAnswer env.sessionID o port pt cfg.handler.serverIP, ?_⟩
      simp only [serviceSDP, selectPT, hpt]
      rfl

theorem declinesIf_serviceInvite (fromAddr : SIPAddress) (hfrom : req.fromAddress = .ok fromAddr) :
    DeclinesIf req (serviceInvite cfg env kind loaded req) (ServiceFails env req loaded) := by
  -- What follows once the offer has been read.
  have hrest : ∀ offer : Option SDP, offer.isSome = hasEarlyOffer req →
      ¬ OfferUnreadable req → readOffer req = .ok offer →
      DeclinesIf req (serviceInvite cfg env kind loaded req) (ServiceFails env req loaded) := by
    intro offer hsome hread hoffer
    unfold serviceInvite ServiceFails
    rw [hoffer]
    simp only [hread, false_or, ← hsome, bind, Except.bind]
    rcases loaded
    · rw [if_pos rfl]
      exact .inl ⟨⟨_, _, rfl⟩, Or.inl rfl⟩
    rw [if_neg (by simp only [Bool.true_eq_false, not_false_eq_true])]
    simp only [Bool.true_eq_false, false_or]
    rcases env.rtpPortA with _ | port
    · exact .inl ⟨⟨_, _, rfl⟩, Or.inl rfl⟩
    rcases exists_serviceSDP cfg env port offer with ⟨sdp, hsdp⟩
    simp only [orRefuse, hsdp, hfrom, Except.toOption, reduceCtorEq, false_or]
    by_cases hres : offer.isSome = true ∧ env.resolves = false
    · rw [if_pos hres]
      exact .inl ⟨⟨_, _, rfl⟩, hres⟩
    · rw [if_neg hres]
      exact DeclinesIf.of_ok req _ _ hres
  unfold OfferUnreadable at hrest
  by_cases ho : hasEarlyOffer req = true
  · rcases hbody : unmarshalSDPBytes req.body with _ | o
    · refine .inl ⟨?_, Or.inl ⟨ho, hbody⟩⟩
      unfold serviceInvite readOffer
      rw [if_pos ho, hbody]
      exact ⟨_, _, rfl⟩
    · refine hrest (some o) ho.symm (fun hc => absurd (hbody.symm.trans hc.2) ?_) ?_
      · simp
      · rw [readOffer, if_pos ho, hbody]
        rfl
  · refine hrest none (Bool.eq_false_of_not_eq_true ho).symm (fun hc => ho hc.1) ?_
    rw [readOffer, if_neg ho]
    rfl

/-- A service that answers does so with a tag of its own. -/
theorem answer_of_serviceInvite (o : Session × SIPMessage)
    (h : serviceInvite cfg env kind loaded req = .ok o) :
    ∃ sdp, o.2 = serviceOK cfg env req sdp := by
  unfold serviceInvite at h
  rcases bind_eq_ok h with ⟨offer, _, h⟩
  rcases guard_eq_ok h with ⟨_, h⟩
  rcases bind_eq_ok h with ⟨port, _, h⟩
  rcases bind_eq_ok h with ⟨sdp, _, h⟩
  rcases bind_eq_ok h with ⟨fromAddr, _, h⟩
  rcases guard_eq_ok h with ⟨_, h⟩
  rw [← Except.ok.inj h]
  exact ⟨sdp, rfl⟩

theorem toTags_serviceOK (sdp : SDP) (rnd : Option Bytes) (htag : env.serverTag = generateTag rnd)
    (hne : toTags req ≠ []) :
    toTags (serviceOK cfg env req sdp) = toTags req ++ [trimRight env.serverTag] := by
  have hto : SIPHeaders.getFirst (serviceOK cfg env req sdp).headers hTo =
      SIPHeaders.getFirst req.headers hTo ++ ascii ";tag=" ++ env.serverTag := by
    have hkey : canonicalHeaderKey hTo = hTo := by decide
    simp only [serviceOK, SIPHeaders.getFirst, SIPHeaders.set]
    rw [hkey, AList.lookup_insert_ne (by decide), AList.lookup_insert_ne (by decide +kernel),
      AList.lookup_insert]
    rfl
  rw [toTags, hto, htag]
  exact addressTags_append _ _ hne (generateTag_plain rnd).1 (generateTag_plain rnd).2

end Refusals

/-! ### What becomes of a call in progress -/

/-- The INVITE belongs to the dialog of a side of the call, and the tag of the
    dialog is the only one in its To header. -/
structure ReInvite (call : Call) (side : Side) (req : SIPMessage) : Prop where
  inDialog : call.Matches side req
  oneTag : toTags req = [(call.dialog side).id.localTag]

/-- No leg has been set up, the calls and the channels are as they were, and
    every response has the one tag. -/
structure InviteOutcome.Harmless (st : SwitchState) (tag : Bytes) (o : InviteOutcome) : Prop where
  started : o.started = none
  store : o.state.store = st.store
  channels : ∀ name, o.state.mgr.active name = st.mgr.active name
  tags : ∀ res ∈ o.responses, toTags res = [tag]

/-- The handler returns and has done no harm. -/
def LeavesAlone (st : SwitchState) (tag : Bytes) (o : Option InviteOutcome) : Prop :=
  ∃ out, o = some out ∧ out.Harmless st tag

theorem leavesAlone_some (st : SwitchState) (tag : Bytes) (o : InviteOutcome) :
    LeavesAlone st tag (some o) ↔ o.Harmless st tag :=
  ⟨fun ⟨_, ho, hout⟩ => some.inj ho ▸ hout, fun h => ⟨o, rfl, h⟩⟩

/-- A computation that can leave early does no harm exactly if it fails, when its
    refusals do none and its results do. -/
theorem leavesAlone_settle {α : Type} (st : SwitchState) (tag : Bytes) (req : SIPMessage)
    (x : Except Exit α) (f : SIPMessage → InviteOutcome) (g : α → InviteOutcome) (fails : Prop)
    (hx : DeclinesIf req x fails)
    (hf : ∀ code reason, (f (newResponse req code reason)).Harmless st tag)
    (hg : ∀ a, x = .ok a → ¬ (g a).Harmless st tag) :
    LeavesAlone st tag (settle x f g) ↔ fails := by
  rcases hx with ⟨⟨code, reason, rfl⟩, hfails⟩ | ⟨hnot, hfails⟩
  · exact ⟨fun _ => hfails, fun _ => ⟨_, rfl, hf code (ascii reason)⟩⟩
  · refine ⟨fun ⟨out, hout, hharm⟩ => ?_, fun h => absurd h hfails⟩
    rcases settle_eq_some hout with ⟨a, ha, rfl⟩ | ⟨res, hres, _⟩
    · exact absurd hharm (hg a ha)
    · exact absurd hres (hnot res)

section Handler

variable [SdpCodec] [RegexpLib] [UnicodeLower] [UnicodeUpper] [HashFunctions] [Connections]

/-- Whether the service of an entry has something to play. -/
def Entry.loads (env : ArrivalEnv) (e : Entry) : Bool :=
  match e.action with
  | .ActionEcho => true
  | .ActionPlay => env.loadWav e.file

/-- What a call to a trunk or a user can fail at. -/
def PartyFails (cfg : SwitchConfig) (env : ArrivalEnv) (req : SIPMessage) (st : SwitchState) :
    Prop :=
  match routeOf cfg req with
  | some (trk, dest) => st.mgr.acquireChannel trk.name = none ∨ TrunkFails env req trk dest
  | none => UserFails env req

/-- The INVITE would be refused as a new call: it is not admitted, or what it
    asks for fails. -/
def Declined (cfg : SwitchConfig) (env : ArrivalEnv) (req : SIPMessage) (tx : Source)
    (st : SwitchState) : Prop :=
  (admission cfg env req tx st.auth).admitted = false ∨
    match cfg.lookup req with
    | some e => ServiceFails env req (e.loads env)
    | none => PartyFails cfg env req st

variable (cfg : SwitchConfig) (env : ArrivalEnv) (req : SIPMessage) (st : SwitchState)

omit [UnicodeLower] [UnicodeUpper] [HashFunctions] [Connections] in
theorem leavesAlone_dispatchService_iff (e : Entry) (tag : Bytes) (rnd : Option Bytes)
    (fromAddr : SIPAddress) (hfrom : req.fromAddress = .ok fromAddr) (htags : toTags req = [tag])
    (hserver : env.serverTag = generateTag rnd) :
    LeavesAlone st tag (dispatchService cfg env req st e) ↔
      ServiceFails env req (e.loads env) := by
  have hservice : ∃ kind, handleService cfg env req e =
      serviceInvite cfg env kind (e.loads env) req := by
    unfold handleService Entry.loads
    cases e.action with
    | ActionEcho => exact ⟨.SessionKindEcho, rfl⟩
    | ActionPlay => exact ⟨.SessionKindPlay, rfl⟩
  rcases hservice with ⟨kind, hservice⟩
  unfold dispatchService
  rw [hservice]
  refine leavesAlone_settle st tag req _ _ _ _
    (declinesIf_serviceInvite cfg env _ _ req fromAddr hfrom)
    (fun code reason => ⟨rfl, rfl, fun _ => rfl, fun res hres => ?_⟩) fun o ho hharm => ?_
  · rw [mem_singleton.mp hres, toTags_newResponse, htags]
  · -- The answer has a second tag.
    rcases answer_of_serviceInvite cfg env _ _ req o ho with ⟨sdp, hsdp⟩
    have htwo := hharm.tags o.2 mem_cons_self
    rw [hsdp, toTags_serviceOK cfg env req sdp rnd hserver (by rw [htags]; exact cons_ne_nil _ _),
      htags] at htwo
    exact absurd htwo (by simp only [cons_append, nil_append, cons.injEq,
      cons_ne_nil, and_false, not_false_eq_true])

omit [UnicodeUpper] [HashFunctions] [Connections] in
theorem declinesIf_handleB2BUAInvite (toAddr fromAddr : SIPAddress)
    (hto : req.toAddress = .ok toAddr) (hfrom : req.fromAddress = .ok fromAddr) :
    DeclinesIf req (handleB2BUAInvite cfg.handler (env.routed cfg).toInviteEnv
        (fun name => (st.mgr.acquireChannel name).isSome) req)
      (PartyFails cfg env req st) := by
  have hroutes : (env.routed cfg).matchRoute = cfg.matchRoute := rfl
  unfold handleB2BUAInvite PartyFails
  simp only [routeOf, hroutes, hto, Except.toOption, orRefuse, bind_some, bind, Except.bind]
  rcases cfg.matchRoute (extractUser toAddr.uri) with _ | ⟨trk, dest⟩
  · exact declinesIf_userInvite cfg.handler (env.routed cfg) req toAddr fromAddr hto hfrom
  · rcases hacq : st.mgr.acquireChannel trk.name with _ | mgr
    · refine .inl ⟨⟨503, "Service Unavailable", ?_⟩, .inl hacq⟩
      simp only [handleTrunkInvite, hacq]
      rfl
    · simp only [handleTrunkInvite, hacq, isSome_some, if_true, reduceCtorEq, false_or]
      exact declinesIf_trunkInvite cfg.handler (env.routed cfg) req trk dest toAddr fromAddr hfrom

omit [SdpCodec] [UnicodeLower] [UnicodeUpper] [HashFunctions] [Connections] in
/-- Giving back the channel of a call leaves as many taken as before. -/
theorem active_giveBack (name : Bytes) :
    ((channelFor cfg req st).elim st.mgr (fun c => c.2.releaseChannel c.1)).active name =
      st.mgr.active name := by
  rcases hc : channelFor cfg req st with _ | ⟨trunk, mgr⟩
  · rfl
  · rcases bind_eq_some_iff.mp hc with ⟨⟨trk, dest⟩, _, hmap⟩
    rcases map_eq_some_iff.mp hmap with ⟨mgr', hacq, heq⟩
    cases heq
    have hup := TrunkManager.active_acquireChannel st.mgr mgr trk.name name hacq
    have hdown := TrunkManager.active_releaseChannel mgr trk.name name
    simp only [Option.elim]
    omega

omit [UnicodeUpper] [HashFunctions] [Connections] in
theorem leavesAlone_dispatchCall_iff (toAddr fromAddr : SIPAddress) (tag : Bytes)
    (hto : req.toAddress = .ok toAddr) (hfrom : req.fromAddress = .ok fromAddr)
    (htags : toTags req = [tag]) :
    LeavesAlone st tag (dispatchCall cfg env req st) ↔ PartyFails cfg env req st := by
  refine leavesAlone_settle st tag req _ _ _ _
    (declinesIf_handleB2BUAInvite cfg env req st toAddr fromAddr hto hfrom)
    (fun code reason => ⟨rfl, rfl, active_giveBack cfg req st, fun res hres => ?_⟩)
    fun s _ hharm => ?_
  · rw [mem_singleton.mp hres, toTags_newResponse, htags]
  · cases hharm.started

/-- An INVITE in the dialog of an established call leaves it alone exactly if it
    would be refused as a new call. -/
theorem leavesAlone_iff (cfg : SwitchConfig) (env : ArrivalEnv) (req : SIPMessage) (tx : Source)
    (st : SwitchState) (call : Call) (side : Side) (rnd : Option Bytes)
    (hre : ReInvite call side req) (hserver : env.serverTag = generateTag rnd) :
    LeavesAlone st (call.dialog side).id.localTag (handleInvite cfg env req tx st) ↔
      Declined cfg env req tx st := by
  rcases addresses_of_dialogIDOf req _ hre.inDialog with ⟨fromAddr, toAddr, hfrom, hto⟩
  have htags := hre.oneTag
  generalize (call.dialog side).id.localTag = tag at htags ⊢
  have htrying : toTags (newResponse req 100 (ascii "Trying")) = [tag] :=
    (toTags_newResponse req _ _).trans htags
  unfold handleInvite Declined
  simp only
  rcases hadm : (admission cfg env req tx st.auth).admitted
  · simp only [Bool.false_eq_true, if_false, true_or, iff_true]
    refine ⟨_, rfl, rfl, rfl, fun _ => rfl, fun res hres => ?_⟩
    rcases mem_cons.mp hres with rfl | hres
    · exact htrying
    · exact (toTags_admission cfg env req tx st.auth res hres).trans htags
  simp only [if_true, Bool.true_eq_false, false_or]
  generalize hst : ({ st with auth := (admission cfg env req tx st.auth).auth } : SwitchState) = st'
  have hparty : PartyFails cfg env req st = PartyFails cfg env req st' := by rw [← hst]; rfl
  -- The 100 and the admission make no difference.
  have hfront : LeavesAlone st tag ((dispatch cfg env req st').map
      (fun o => { o with responses := newResponse req 100 (ascii "Trying") :: o.responses })) ↔
      LeavesAlone st' tag (dispatch cfg env req st') := by
    rcases dispatch cfg env req st' with _ | o
    · exact ⟨fun ⟨_, hc, _⟩ => (by cases hc), fun ⟨_, hc, _⟩ => by cases hc⟩
    · rw [map_some, leavesAlone_some, leavesAlone_some, ← hst]
      constructor
      · rintro ⟨h1, h2, h3, h4⟩
        exact ⟨h1, h2, h3, fun res hres => h4 res (mem_cons_of_mem _ hres)⟩
      · rintro ⟨h1, h2, h3, h4⟩
        refine ⟨h1, h2, h3, fun res hres => ?_⟩
        rcases mem_cons.mp hres with rfl | hres
        · exact htrying
        · exact h4 res hres
  rw [hfront, dispatch]
  rcases cfg.lookup req with _ | e
  · simp only [hparty]
    exact leavesAlone_dispatchCall_iff cfg env req st' toAddr fromAddr tag hto hfrom htags
  · exact leavesAlone_dispatchService_iff cfg env req st' e tag rnd fromAddr hfrom htags hserver

end Handler

/-! ### A call in progress -/

/-- The call of `dialledCall`, answered. -/
def talking : Call where
  aliceCallID := ascii "c1"
  bobCallID := ascii "c2"
  bobContactURI := bobsBinding.contactURI
  aliceContactURI := []
  bobTransport := .udp
  bobTarget := ⟨none, none, []⟩
  aliceTransport := .udp
  aliceTarget := ⟨none, none, []⟩
  aliceDialog := confirmedDialog ⟨ascii "c1", ascii "s1", ascii "a1"⟩
    (ascii "<sip:trec@192.0.2.1:5060>") (ascii "sip:al@trecs") []
  bobDialog := confirmedDialog ⟨ascii "c2", ascii "s2", ascii "b1"⟩
    (ascii "<sip:trec@192.0.2.1:5060>") (ascii "sip:bo@trecs") bobsBinding.contactURI
  bridgeReady := true
  trunkName := []

/-- The server while the call is in progress. -/
def talkingSwitch : SwitchState := { idleSwitch with store := Store.create.store talking }

/-- The network of `bobOnly` with a tag the server generates. -/
def taggedArrival : ArrivalEnv := { bobOnly with serverTag := generateTag none }

theorem reInvite_dialledTo (callee : String)
    (h : toTags (dialledTo callee) = [ascii "s1"] ∧ talking.Matches .alice (dialledTo callee)) :
    ReInvite talking .alice (dialledTo callee) :=
  ⟨h.2, h.1⟩

open Samples

/-- Alice names a user who is not registered. -/
theorem leavesAlone_iff_unregistered :
    talkingSwitch.store.calls.lookup talking.aliceCallID = some talking ∧
      ReInvite talking .alice (dialledTo "<sip:cy@trecs>;tag=s1") ∧
      LeavesAlone talkingSwitch (ascii "s1") (handleInvite sampleSwitch taggedArrival
        (dialledTo "<sip:cy@trecs>;tag=s1") unknownSource talkingSwitch) := by
  have hstored : talkingSwitch.store.calls.lookup talking.aliceCallID = some talking :=
    AList.lookup_insert _
  have hre := reInvite_dialledTo "<sip:cy@trecs>;tag=s1" (by decide +kernel)
  refine ⟨hstored, hre, (leavesAlone_iff sampleSwitch taggedArrival _ unknownSource talkingSwitch
    talking .alice none hre rfl).mpr (Or.inr ?_)⟩
  have hlookup : sampleSwitch.lookup (dialledTo "<sip:cy@trecs>;tag=s1") = none := rfl
  have hroute : routeOf sampleSwitch (dialledTo "<sip:cy@trecs>;tag=s1") = none := by
    decide +kernel
  have hgone : ¬ Reachable taggedArrival (dialledTo "<sip:cy@trecs>;tag=s1") := by
    unfold Reachable
    decide +kernel
  simp only [hlookup, PartyFails, hroute]
  exact .inl hgone

/-- The INVITE of a party to a call in progress sets up another leg to Bob, and a
    service answers it with two tags. -/
theorem not_leavesAlone_reInvite :
    ReInvite talking .alice (dialledTo "<sip:bo@trecs>;tag=s1") ∧
      (∃ o, handleInvite sampleSwitch taggedArrival (dialledTo "<sip:bo@trecs>;tag=s1")
          unknownSource talkingSwitch = some o ∧ o.started.isSome = true ∧
        talkingSwitch.store.getEarly (ascii "c1") = none ∧
        (o.state.store.getEarly (ascii "c1")).isSome = true ∧
        ¬ o.Harmless talkingSwitch (ascii "s1")) ∧
      ∃ o, handleInvite
          { sampleSwitch with dp := some ⟨AList.insert (ascii "*") ⟨[], .ActionEcho⟩ ∅⟩ }
          taggedArrival (dialledTo "<sip:bo@trecs>;tag=s1") unknownSource talkingSwitch = some o ∧
        o.responses.map toTags = [[ascii "s1"], [ascii "s1", ascii "trec"]] ∧
        ¬ o.Harmless talkingSwitch (ascii "s1") := by
  refine ⟨reInvite_dialledTo _ (by decide +kernel), ?_, ?_⟩
  · have hsome : (handleInvite sampleSwitch taggedArrival (dialledTo "<sip:bo@trecs>;tag=s1")
        unknownSource talkingSwitch).any (fun o => o.started.isSome &&
          (o.state.store.getEarly (ascii "c1")).isSome) = true := by decide +kernel
    rcases (Option.any_eq_true _ _).mp hsome with ⟨o, ho, hboth⟩
    rw [Bool.and_eq_true] at hboth
    refine ⟨o, ho, hboth.1, rfl, hboth.2, fun hharm => ?_⟩
    rw [hharm.started] at hboth
    exact absurd hboth.1 (by simp only [isSome_none, Bool.false_eq_true, not_false_eq_true])
  · have hsome : (handleInvite
        { sampleSwitch with dp := some ⟨AList.insert (ascii "*") ⟨[], .ActionEcho⟩ ∅⟩ }
        taggedArrival (dialledTo "<sip:bo@trecs>;tag=s1") unknownSource talkingSwitch).any
        (fun o => o.responses.map toTags = [[ascii "s1"], [ascii "s1", ascii "trec"]]) = true := by
      decide +kernel
    rcases (Option.any_eq_true _ _).mp hsome with ⟨o, ho, htags⟩
    refine ⟨o, ho, of_decide_eq_true htags, fun hharm => ?_⟩
    have htwo : [ascii "s1", ascii "trec"] ∈ [[ascii "s1"], [ascii "s1", ascii "trec"]] := by decide
    rw [← of_decide_eq_true htags] at htwo
    rcases List.mem_map.mp htwo with ⟨res, hres, heq⟩
    rw [hharm.tags res hres] at heq
    exact absurd heq (by decide)

end B2bua

end Trecs
