import Trecs.B2bua.Invite
import Trecs.B2bua.Steering
import Trecs.B2bua.TwoLegs
import Trecs.Media.Session
import Trecs.Sip.Auth
import Trecs.Trunk.Route
import Trecs.Trunk.Trusted

/-!
# From an INVITE to Its Destination

`HandleInvite` of `internal/b2bua/handler.go`, as a whole. An INVITE is
authenticated unless it comes from a trusted trunk. Then the dialplan is asked,
with the user of the Request-URI, for a service of the server itself. If it has
none the call goes to a trunk or to a registered user, and both are looked up by
the To header.

So two INVITEs with the same Request-URI can go to different destinations. They
go to the same one if the dialplan decides, or if their To headers lead to the
same route, or to none and to the same user.

What the handlers get from outside is in `ArrivalEnv`, and what they change is in
`SwitchState`. A panic of a handler is `none`.

## Main definitions

* `requireProxyAuth`, `trustedSource`: Whether an INVITE is admitted.
* `handleEchoInvite`, `handleFileInvite`: The services of the server.
* `handleInvite`: `HandleInvite`.
* `select`: The destination it selects.
* `AgreeButTo`, `SameWay`: Two INVITEs, and when they go the same way.

## Theorems

* `leadsTo_of_started`: A leg goes to the destination that was selected.
* `select_eq_iff`: When two INVITEs go to the same destination.
-/

namespace Trecs

open Option

namespace B2bua

open Proto Sip Media Trunks

/-! ### The dialplan -/

/-- What an entry of the dialplan asks for. -/
inductive DialplanAction where
  | ActionEcho
  | ActionPlay
deriving Repr, DecidableEq

/-- The Go struct `Entry`. -/
structure Entry where
  file : Bytes
  action : DialplanAction
deriving Repr, DecidableEq

/-- The entries of a dialplan. The two types of dialplans have the same
    `Lookup`. -/
structure Dialplan where
  entries : AList (fun _ : Bytes => Entry)

/-- `Lookup`. -/
def Dialplan.lookup (dp : Dialplan) (req : SIPMessage) : Option Entry :=
  match dp.entries.lookup (extractUser req.requestURI) with
  | some e => some e
  | none => dp.entries.lookup (ascii "*")

/-! ### What the handler works with -/

/-- The state the handlers of INVITE and BYE share. -/
structure SwitchState where
  auth : AuthState
  mgr : TrunkManager
  store : Store
  sessions : SessionManager

/-- The configuration of the handler. -/
structure SwitchConfig [RegexpLib] where
  handler : Handler
  dp : Option Dialplan
  trunkMgr : Option ConfiguredManager
  proxyPasswd : Option PasswordStore
  maxFailedAttempts : Int
  allowMethods : Bytes

/-- What the handler gets from outside. -/
structure ArrivalEnv extends InviteEnv where
  now : Int
  authRnd : Bytes
  /-- Whether `LoadWav` can read a file. -/
  loadWav : Bytes → Bool
  /-- Whether the caller's media address resolves. -/
  resolves : Bool
  /-- The response loop that would be started. -/
  loop : Nat

/-- What has been done when the handler returns: the responses it has sent, the
    state it leaves and the response loop it has started. -/
structure InviteOutcome where
  responses : List SIPMessage
  state : SwitchState
  started : Option Started

/-- The outcome of a computation that can leave early. -/
def settle {α : Type} (x : Except Exit α) (refused : SIPMessage → InviteOutcome)
    (ok : α → InviteOutcome) : Option InviteOutcome :=
  match x with
  | .ok a => some (ok a)
  | .error (.refused res) => some (refused res)
  | .error .panicked => none

/-- The two ways a computation comes to an outcome. -/
theorem settle_eq_some {α : Type} {x : Except Exit α} {f : SIPMessage → InviteOutcome}
    {g : α → InviteOutcome} {o : InviteOutcome} (h : settle x f g = some o) :
    (∃ a, x = .ok a ∧ o = g a) ∨ ∃ res, x = .error (.refused res) ∧ o = f res := by
  rcases x with (res | _) | a
  · exact .inr ⟨res, rfl, (some.inj h).symm⟩
  · cases h
  · exact .inl ⟨a, rfl, (some.inj h).symm⟩

/-! ### Admission -/

/-- What the handler passes to `VerifyDigestRequest` for a method. -/
def proxyScheme (method : String) : AuthScheme where
  authHeaderKey := ascii "Proxy-Authorization"
  respChallengeKey := ascii "Proxy-Authenticate"
  challengeStatus := 407
  statusText := ascii "Proxy Authentication Required"
  method := ascii method

/-- Whether a request is handled any further, and what it has been answered. -/
structure Admission where
  admitted : Bool
  responses : List SIPMessage
  auth : AuthState

section Admission

variable [UnicodeLower] [UnicodeUpper] [HashFunctions] [Connections] [RegexpLib]

/-- `requireProxyAuth`, with the decision its callers make. -/
def requireProxyAuth (cfg : SwitchConfig) (now : Int) (rnd : Bytes) (method : String)
    (req : SIPMessage) (tx : Source) (st : AuthState) : Admission :=
  match cfg.proxyPasswd with
  | none => ⟨true, [], st⟩
  | some passwd =>
    let r := verifyDigestRequest now rnd (proxyScheme method) passwd cfg.maxFailedAttempts req tx st
    match r.creds with
    | some _ =>
      let key := authAttemptKey tx (SIPHeaders.getFirst req.headers hCallID)
      ⟨true, [], { r.state with attempts := r.state.attempts.reset key }⟩
    | none => ⟨false, r.response.toList, r.state⟩

omit [UnicodeLower] [UnicodeUpper] [HashFunctions] [Connections] in
/-- Whether the INVITE comes from a trusted trunk. The address of a connection is
    not looked at. -/
def trustedSource (cfg : SwitchConfig) (tx : Source) : Bool :=
  match cfg.trunkMgr, tx.target.addr with
  | some m, some addr =>
    m.trustedIPMatches (match splitHostPort addr with
      | some (host, _) => host
      | none => addr)
  | _, _ => false

/-- The admission of an INVITE. -/
def admission (cfg : SwitchConfig) (env : ArrivalEnv) (req : SIPMessage) (tx : Source)
    (st : AuthState) : Admission :=
  if trustedSource cfg tx then ⟨true, [], st⟩
  else requireProxyAuth cfg env.now env.authRnd "INVITE" req tx st

end Admission

/-! ### The services of the server -/

section Services

variable [SdpCodec] [RegexpLib]

/-- The 200 of a service. -/
def serviceOK (cfg : SwitchConfig) (env : ArrivalEnv) (req : SIPMessage) (sdp : SDP) : SIPMessage :=
  let res := newResponse req 200 (ascii "OK")
  let hs := SIPHeaders.set res.headers hTo
    [SIPHeaders.getFirst req.headers hTo ++ ascii ";tag=" ++ env.serverTag]
  let hs := SIPHeaders.set hs (ascii "Content-Type") [ascii "application/sdp"]
  { res with
    headers := hs.insert (ascii "Allow") [cfg.allowMethods]
    body := SdpCodec.marshal sdp }

/-- The description a service sends: an answer, or an offer for PCMU if there was
    none. -/
def serviceSDP (cfg : SwitchConfig) (env : ArrivalEnv) (port : Int64) :
    Option SDP → Except Exit SDP
  | some o => do
    let pt ← selectPT (some o)
    return buildAnswer env.sessionID o port pt cfg.handler.serverIP
  | none => return buildOffer env.sessionID port PCMU cfg.handler.serverIP

/-- What both services do. `loaded` says whether there is something to play. -/
def serviceInvite (cfg : SwitchConfig) (env : ArrivalEnv) (kind : SessionKind) (loaded : Bool)
    (req : SIPMessage) : Except Exit (Session × SIPMessage) := do
  let offer ← readOffer req
  if loaded = false then refuse req 500 "Server Internal Error"
  else
    let port ← orRefuse env.rtpPortA req 500 "Server Internal Error"
    let sdp ← serviceSDP cfg env port offer
    let fromAddr ← orRefuse req.fromAddress.toOption req 400 "Bad Request"
    if offer.isSome ∧ env.resolves = false then refuse req 500 "Internal Server Error"
    else
      return (⟨⟨SIPHeaders.getFirst req.headers hCallID, env.serverTag, fromAddr.tag⟩, kind,
        if offer.isSome then .SessionActive else .SessionWaitingAck⟩, serviceOK cfg env req sdp)

/-- `handleEchoInvite`. -/
def handleEchoInvite (cfg : SwitchConfig) (env : ArrivalEnv) (req : SIPMessage) :
    Except Exit (Session × SIPMessage) :=
  serviceInvite cfg env .SessionKindEcho true req

/-- `handleFileInvite`. -/
def handleFileInvite (cfg : SwitchConfig) (env : ArrivalEnv) (req : SIPMessage) (filePath : Bytes) :
    Except Exit (Session × SIPMessage) :=
  serviceInvite cfg env .SessionKindPlay (env.loadWav filePath) req

/-- The service of an entry. -/
def handleService (cfg : SwitchConfig) (env : ArrivalEnv) (req : SIPMessage) (e : Entry) :
    Except Exit (Session × SIPMessage) :=
  match e.action with
  | .ActionEcho => handleEchoInvite cfg env req
  | .ActionPlay => handleFileInvite cfg env req e.file

/-- A service with what it leaves behind. -/
def dispatchService (cfg : SwitchConfig) (env : ArrivalEnv) (req : SIPMessage) (st : SwitchState)
    (e : Entry) : Option InviteOutcome :=
  settle (handleService cfg env req e)
    (fun res => ⟨[res], st, none⟩)
    (fun o => ⟨[o.2], { st with sessions := st.sessions.add o.1 }, none⟩)

end Services

/-! ### Calls to trunks and users -/

section Calls

variable [SdpCodec] [RegexpLib]

/-- `MatchRoute`, if there are trunks. -/
def SwitchConfig.matchRoute (cfg : SwitchConfig) (user : Bytes) : Option (Trunk × Bytes) :=
  cfg.trunkMgr.bind (fun m => m.routeTo user)

/-- What the handler gets from outside, with the routes of the configuration. -/
def ArrivalEnv.routed (env : ArrivalEnv) (cfg : SwitchConfig) : ArrivalEnv :=
  { env with matchRoute := cfg.matchRoute }

/-- The store once the call of a new response loop is ringing. -/
def ringing (env : ArrivalEnv) (st : SwitchState) (s : Started) : Store :=
  st.store.storeEarly ⟨s.cc.callID, s.cc.bobCallID, s.cc.serverTag, env.loop⟩

/-- The trunk and the number the To header leads to. -/
def routeOf (cfg : SwitchConfig) (req : SIPMessage) : Option (Trunk × Bytes) :=
  req.toAddress.toOption.bind (fun toAddr => cfg.matchRoute (extractUser toAddr.uri))

/-- The channel that a call to a trunk takes: the trunk, and the manager
    afterwards. -/
def channelFor (cfg : SwitchConfig) (req : SIPMessage) (st : SwitchState) :
    Option (Bytes × TrunkManager) :=
  (routeOf cfg req).bind (fun r => (st.mgr.acquireChannel r.1.name).map (r.1.name, ·))

variable [UnicodeLower]

/-- `handleB2BUAInvite`, with what it leaves behind. A call that is refused gives
    its channel back. -/
def dispatchCall (cfg : SwitchConfig) (env : ArrivalEnv) (req : SIPMessage) (st : SwitchState) :
    Option InviteOutcome :=
  settle (handleB2BUAInvite cfg.handler (env.routed cfg).toInviteEnv
      (fun name => (st.mgr.acquireChannel name).isSome) req)
    (fun res =>
      let mgr := (channelFor cfg req st).elim st.mgr (fun c => c.2.releaseChannel c.1)
      ⟨[res], { st with mgr }, none⟩)
    (fun s =>
      let mgr := (channelFor cfg req st).elim st.mgr Prod.snd
      ⟨[], { st with mgr, store := ringing env st s }, some s⟩)

end Calls

/-! ### The handler -/

section Handler

variable [SdpCodec] [RegexpLib] [UnicodeLower] [UnicodeUpper] [HashFunctions] [Connections]

/-- The service the dialplan has for an INVITE. -/
def SwitchConfig.lookup (cfg : SwitchConfig) (req : SIPMessage) : Option Entry :=
  cfg.dp.bind (fun dp => dp.lookup req)

/-- What `HandleInvite` does with an INVITE that is admitted. -/
def dispatch (cfg : SwitchConfig) (env : ArrivalEnv) (req : SIPMessage) (st : SwitchState) :
    Option InviteOutcome :=
  match cfg.lookup req with
  | some e => dispatchService cfg env req st e
  | none => dispatchCall cfg env req st

/-- `HandleInvite`. -/
def handleInvite (cfg : SwitchConfig) (env : ArrivalEnv) (req : SIPMessage) (tx : Source)
    (st : SwitchState) : Option InviteOutcome :=
  let trying := newResponse req 100 (ascii "Trying")
  let a := admission cfg env req tx st.auth
  let st := { st with auth := a.auth }
  if a.admitted then
    (dispatch cfg env req st).map (fun o => { o with responses := trying :: o.responses })
  else some ⟨trying :: a.responses, st, none⟩

/-- The destinations of a call. A binding is that of its address of record. -/
inductive Selected where
  | service (entry : Entry)
  | trunk (trk : Trunk) (dest : Bytes)
  | binding (aor : Bytes) (b : Binding)
  | nobody
deriving DecidableEq

/-- The binding that is reached for an address of record. -/
def reachableBinding (env : ArrivalEnv) (aor : Bytes) : Option Binding :=
  if env.getBindings aor = [] then none
  else (env.selectBinding (env.getBindings aor)).map Prod.fst

/-- The address of record the To header names. -/
def aorOf (req : SIPMessage) : Option Bytes :=
  req.toAddress.toOption.map (fun toAddr => normalizeAOR toAddr.uri)

/-- The destination of a call that is not a service of the server. -/
def selectParty (cfg : SwitchConfig) (env : ArrivalEnv) (req : SIPMessage) : Selected :=
  match routeOf cfg req with
  | some (trk, dest) => .trunk trk dest
  | none =>
    match aorOf req with
    | none => .nobody
    | some aor =>
      match reachableBinding env aor with
      | some b => .binding aor b
      | none => .nobody

/-- The destination `HandleInvite` selects. -/
def select (cfg : SwitchConfig) (env : ArrivalEnv) (req : SIPMessage) (tx : Source)
    (st : SwitchState) : Selected :=
  if (admission cfg env req tx st.auth).admitted then
    match cfg.lookup req with
    | some e => .service e
    | none => selectParty cfg env req
  else .nobody

/-- The requests of a response loop go to the destination. -/
def Selected.LeadsTo : Selected → Peer → Prop
  | .trunk trk dest, .trunk name uri _ => name = trk.name ∧ uri = trunkURI trk.host trk.port dest
  | .binding _ b, .user b' _ => b = b'
  | _, _ => False

variable {r₁ r₂ : SIPMessage} (cfg : SwitchConfig) (env : ArrivalEnv) (req : SIPMessage)

omit [UnicodeUpper] [HashFunctions] [Connections] in
theorem leadsTo_dispatchCall (st : SwitchState) (o : InviteOutcome) (s : Started)
    (ho : dispatchCall cfg env req st = some o) (hs : o.started = some s) :
    (selectParty cfg env req).LeadsTo s.peer := by
  rcases settle_eq_some ho with ⟨s', hstart, rfl⟩ | ⟨res, _, rfl⟩
  · cases hs
    rcases started_handleB2BUAInvite _ _ _ _ _ hstart with
      ⟨toAddr, hto, ⟨trk, dest, hroute, _, hstart⟩ | ⟨hroute, hstart⟩⟩
    · rcases started_trunkInvite _ _ _ _ _ _ _ hstart with ⟨_, expires, hpeer⟩
      change cfg.matchRoute (extractUser toAddr.uri) = some (trk, dest) at hroute
      simp only [selectParty, routeOf, hto, bind_some, hroute, hpeer]
      exact ⟨rfl, rfl⟩
    · rcases started_userInvite _ _ _ _ _ hstart with
        ⟨_, hsome, b, target, tr, rel, hselect, hpeer⟩
      change cfg.matchRoute (extractUser toAddr.uri) = none at hroute
      change env.getBindings (normalizeAOR toAddr.uri) ≠ [] at hsome
      change env.selectBinding (env.getBindings (normalizeAOR toAddr.uri)) =
        some (b, target, tr) at hselect
      simp only [selectParty, routeOf, aorOf, hto, bind_some, map_some, hroute, reachableBinding,
        if_neg hsome, hselect, hpeer]
      rfl
  · cases hs

/-- A response loop that is started is for the destination that was selected. -/
theorem leadsTo_of_started (tx : Source) (st : SwitchState) (o : InviteOutcome) (s : Started)
    (ho : handleInvite cfg env req tx st = some o) (hs : o.started = some s) :
    (select cfg env req tx st).LeadsTo s.peer := by
  simp only [handleInvite] at ho
  unfold select
  split at ho
  · rename_i hadm
    rcases map_eq_some_iff.mp ho with ⟨o', ho', rfl⟩
    rw [if_pos hadm]
    unfold dispatch at ho'
    split at ho'
    · -- A service starts no response loop.
      rcases settle_eq_some ho' with ⟨_, _, rfl⟩ | ⟨res, _, rfl⟩
      · cases hs
      · cases hs
    · exact leadsTo_dispatchCall cfg env req _ o' s ho' hs
  · cases ho
    cases hs

/-! ### Two INVITEs -/

/-- The INVITEs differ in their To headers only. -/
structure AgreeButTo (r₁ r₂ : SIPMessage) : Prop where
  startLine : r₁.startLine = r₂.startLine
  cseq : r₁.cseq = r₂.cseq
  body : r₁.body = r₂.body
  headers : ∀ k, k ≠ hTo → r₁.headers.lookup k = r₂.headers.lookup k

/-- Someone is reached under the address of record of the To header. -/
def Reachable (env : ArrivalEnv) (req : SIPMessage) : Prop :=
  ((aorOf req).bind (reachableBinding env)).isSome = true

/-- The INVITEs go the same way: they are not admitted, the dialplan decides,
    both To headers lead to the same route, or neither leads to one and both name
    the same user or users that are not reached. -/
def SameWay (cfg : SwitchConfig) (env : ArrivalEnv) (r₁ r₂ : SIPMessage) (tx : Source)
    (st : SwitchState) : Prop :=
  (admission cfg env r₁ tx st.auth).admitted = false ∨ (cfg.lookup r₁).isSome = true ∨
    routeOf cfg r₁ = routeOf cfg r₂ ∧
      ((routeOf cfg r₁).isSome = true ∨ aorOf r₁ = aorOf r₂ ∨
        ¬ Reachable env r₁ ∧ ¬ Reachable env r₂)

omit [SdpCodec] [RegexpLib] [UnicodeLower] [UnicodeUpper] [HashFunctions] [Connections] in
theorem AgreeButTo.requestURI (h : AgreeButTo r₁ r₂) : r₁.requestURI = r₂.requestURI := by
  rw [SIPMessage.requestURI, h.startLine, SIPMessage.requestURI]

omit [SdpCodec] [UnicodeLower] [UnicodeUpper] [HashFunctions] [Connections] in
theorem AgreeButTo.lookup (h : AgreeButTo r₁ r₂) (cfg : SwitchConfig) :
    cfg.lookup r₁ = cfg.lookup r₂ := by
  have hdp : ∀ dp : Dialplan, dp.lookup r₁ = dp.lookup r₂ := fun dp => by
    rw [Dialplan.lookup, h.requestURI, Dialplan.lookup]
  simp [SwitchConfig.lookup, hdp]

omit [SdpCodec] in
/-- The admission does not look at the To header. -/
theorem AgreeButTo.admitted (h : AgreeButTo r₁ r₂) (cfg : SwitchConfig) (env : ArrivalEnv)
    (tx : Source) (st : AuthState) :
    (admission cfg env r₁ tx st).admitted = (admission cfg env r₂ tx st).admitted := by
  unfold admission
  by_cases htrusted : trustedSource cfg tx = true
  · rw [if_pos htrusted, if_pos htrusted]
  rw [if_neg htrusted, if_neg htrusted]
  unfold requireProxyAuth
  rcases cfg.proxyPasswd with _ | passwd
  · rfl
  have hpresented : presented (proxyScheme "INVITE") passwd r₁ =
      presented (proxyScheme "INVITE") passwd r₂ := by
    have hkey : canonicalHeaderKey (proxyScheme "INVITE").authHeaderKey ≠ hTo := by decide +kernel
    simp only [presented, SIPHeaders.getFirst, h.headers _ hkey, h.requestURI]
  have hcreds := creds_congr env.now env.authRnd (proxyScheme "INVITE") passwd
    cfg.maxFailedAttempts r₁ r₂ tx st hpresented
  simp only [hcreds]
  cases (verifyDigestRequest env.now env.authRnd (proxyScheme "INVITE") passwd
    cfg.maxFailedAttempts r₂ tx st).creds with
  | none => rfl
  | some creds => rfl

omit [SdpCodec] [UnicodeLower] [UnicodeUpper] [HashFunctions] [Connections] in
/-- Without a route the destination is the binding of the user, if one is
    reached. -/
theorem selectParty_of_no_route (hroute : routeOf cfg req = none) :
    (∃ aor b, aorOf req = some aor ∧ reachableBinding env aor = some b ∧
      selectParty cfg env req = .binding aor b) ∨
    (¬ Reachable env req ∧ selectParty cfg env req = .nobody) := by
  unfold selectParty Reachable
  rw [hroute]
  rcases haor : aorOf req with _ | aor
  · exact .inr ⟨by simp only [bind_none, isSome_none, Bool.false_eq_true,
      not_false_eq_true], rfl⟩
  · rcases hb : reachableBinding env aor with _ | b
    · refine .inr ⟨?_, by simp only [hb]⟩
      simp [hb]
    · exact .inl ⟨aor, b, rfl, hb, by simp only [hb]⟩

omit [SdpCodec] [UnicodeLower] [UnicodeUpper] [HashFunctions] [Connections] in
/-- Two calls that are not services go to the same destination if they go the
    same way. -/
theorem selectParty_eq_iff (r₁ r₂ : SIPMessage) : selectParty cfg env r₁ = selectParty cfg env r₂ ↔
      routeOf cfg r₁ = routeOf cfg r₂ ∧
        ((routeOf cfg r₁).isSome = true ∨ aorOf r₁ = aorOf r₂ ∨
          ¬ Reachable env r₁ ∧ ¬ Reachable env r₂) := by
  have htrunk : ∀ r trk dest, routeOf cfg r = some (trk, dest) →
      selectParty cfg env r = .trunk trk dest := fun r trk dest h => by
    rw [selectParty, h]
  rcases h₁ : routeOf cfg r₁ with _ | ⟨trk₁, dest₁⟩
  · rcases h₂ : routeOf cfg r₂ with _ | ⟨trk₂, dest₂⟩
    · simp only [isSome_none, Bool.false_eq_true, false_or, true_and]
      rcases selectParty_of_no_route cfg env r₁ h₁ with ⟨aor₁, b₁, ha₁, hb₁, hs₁⟩ | ⟨hn₁, hs₁⟩
      · have hr₁ : Reachable env r₁ := by
          rw [Reachable, ha₁, bind_some, hb₁, isSome_some]
        simp only [hr₁, not_true_eq_false, false_and, or_false, hs₁]
        constructor
        · intro heq
          rcases selectParty_of_no_route cfg env r₂ h₂ with ⟨aor₂, b₂, ha₂, _, hs₂⟩ | ⟨_, hs₂⟩
          · rw [hs₂, Selected.binding.injEq] at heq
            rw [ha₁, ha₂, heq.1]
          · rw [hs₂] at heq
            cases heq
        · intro heq
          rw [selectParty, h₂, ← heq, ha₁]
          simp [hb₁]
      · simp only [hn₁, not_false_eq_true, true_and, hs₁]
        constructor
        · intro heq
          rcases selectParty_of_no_route cfg env r₂ h₂ with ⟨aor₂, b₂, _, _, hs₂⟩ | ⟨hn₂, _⟩
          · rw [hs₂] at heq
            cases heq
          · exact .inr hn₂
        · intro hor
          -- A user who is not reached is the same for both.
          have hn₂ : ¬ Reachable env r₂ := by
            rcases hor with heq | hn₂
            · rw [Reachable, ← heq]
              exact hn₁
            · exact hn₂
          rcases selectParty_of_no_route cfg env r₂ h₂ with ⟨aor₂, b₂, ha₂, hb₂, _⟩ | ⟨_, hs₂⟩
          · exact absurd (by rw [Reachable, ha₂, bind_some, hb₂, isSome_some]) hn₂
          · exact hs₂.symm
    · simp only [reduceCtorEq, false_and, iff_false, htrunk r₂ trk₂ dest₂ h₂]
      rcases selectParty_of_no_route cfg env r₁ h₁ with ⟨_, _, _, _, hs₁⟩ | ⟨_, hs₁⟩
      · simp [hs₁]
      · simp [hs₁]
  · simp only [isSome_some, true_or, and_true, htrunk r₁ trk₁ dest₁ h₁]
    rcases h₂ : routeOf cfg r₂ with _ | ⟨trk₂, dest₂⟩
    · simp only [reduceCtorEq, iff_false]
      rcases selectParty_of_no_route cfg env r₂ h₂ with ⟨_, _, _, _, hs₂⟩ | ⟨_, hs₂⟩
      · simp [hs₂]
      · simp [hs₂]
    · simp only [htrunk r₂ trk₂ dest₂ h₂, Selected.trunk.injEq, some.injEq, Prod.mk.injEq]

omit [SdpCodec] in
/-- Two INVITEs with the same Request-URI go to the same destination exactly if
    they go the same way. -/
theorem select_eq_iff (cfg : SwitchConfig) (env : ArrivalEnv) (r₁ r₂ : SIPMessage) (tx : Source)
    (st : SwitchState) (h : AgreeButTo r₁ r₂) :
    select cfg env r₁ tx st = select cfg env r₂ tx st ↔ SameWay cfg env r₁ r₂ tx st := by
  unfold select SameWay
  rw [← h.admitted cfg env tx st.auth, ← h.lookup cfg]
  rcases (admission cfg env r₁ tx st.auth).admitted
  · simp
  · simp only [if_true, Bool.true_eq_false, false_or]
    rcases cfg.lookup r₁ with _ | e
    · simp only [isSome_none, Bool.false_eq_true, false_or]
      exact selectParty_eq_iff cfg env r₁ r₂
    · simp

end Handler

/-! ### Calls with another To -/

open Samples

/-- A server with the route of `sampleRoutes` and one registered user. -/
def sampleSwitch : SwitchConfig where
  handler := plainHandler
  dp := none
  trunkMgr := some sampleRoutes
  proxyPasswd := none
  maxFailedAttempts := 3
  allowMethods := ascii "INVITE, ACK, BYE"

/-- Bob is registered, and nobody else. -/
def bobOnly : ArrivalEnv where
  toInviteEnv := { reachable with
    getBindings := fun aor => if aor = ascii "sip:bo@trecs" then [bobsBinding] else [] }
  now := 0
  authRnd := []
  loadWav _ := false
  resolves := true
  loop := 0

/-- The state of a server that has just been started. -/
def idleSwitch : SwitchState where
  auth := ⟨.create 300, .create 300⟩
  mgr := ⟨∅, ∅⟩
  store := .create
  sessions := ⟨∅⟩

/-- Nothing is known about where a request comes from. -/
def unknownSource : Source := ⟨none, ⟨none, none, []⟩⟩

/-- An INVITE for Bob whose To header has the given value. -/
def dialledTo (callee : String) : SIPMessage :=
  { dialledCall with headers := dialledCall.headers.insert hTo [ascii callee] }

theorem agreeButTo_dialledTo (callee₁ callee₂ : String) :
    AgreeButTo (dialledTo callee₁) (dialledTo callee₂) where
  startLine := rfl
  cseq := rfl
  body := rfl
  headers k hk := by rw [dialledTo, AList.lookup_insert_ne hk, dialledTo, AList.lookup_insert_ne hk]

theorem leadsTo_of_started_dialledBob :
    ∃ o s, handleInvite sampleSwitch bobOnly (dialledTo "<sip:bo@trecs>") unknownSource idleSwitch =
        some o ∧ o.started = some s ∧ (select sampleSwitch bobOnly (dialledTo "<sip:bo@trecs>")
          unknownSource idleSwitch).LeadsTo s.peer := by
  have hsome : ((handleInvite sampleSwitch bobOnly (dialledTo "<sip:bo@trecs>") unknownSource
      idleSwitch).bind InviteOutcome.started).isSome = true := by decide +kernel
  rcases isSome_iff_exists.mp hsome with ⟨s, hs⟩
  rcases bind_eq_some_iff.mp hs with ⟨o, ho, hstart⟩
  exact ⟨o, s, ho, hstart, leadsTo_of_started _ _ _ _ _ o s ho hstart⟩

theorem select_eq_iff_displayName :
    AgreeButTo (dialledTo "<sip:bo@trecs>") (dialledTo "Bo <sip:bo@trecs>") ∧
      select sampleSwitch bobOnly (dialledTo "<sip:bo@trecs>") unknownSource idleSwitch =
        select sampleSwitch bobOnly (dialledTo "Bo <sip:bo@trecs>") unknownSource
          idleSwitch := by
  refine ⟨agreeButTo_dialledTo _ _, (select_eq_iff _ _ _ _ _ _ (agreeButTo_dialledTo _ _)).mpr ?_⟩
  exact .inr (Or.inr ⟨by decide +kernel, Or.inr (Or.inl (by decide +kernel))⟩)

/-- Two INVITEs for the same Request-URI. The To header sends one of them to Bob
    and the other one over a trunk. -/
theorem select_ne_otherTo :
    AgreeButTo (dialledTo "<sip:bo@trecs>") (dialledTo "<sip:95551@trecs>") ∧
      select sampleSwitch bobOnly (dialledTo "<sip:bo@trecs>") unknownSource idleSwitch =
        .binding (ascii "sip:bo@trecs") bobsBinding ∧
      (∃ trk, select sampleSwitch bobOnly (dialledTo "<sip:95551@trecs>") unknownSource
        idleSwitch = .trunk trk (ascii "0305551")) ∧
      ¬ select sampleSwitch bobOnly (dialledTo "<sip:bo@trecs>") unknownSource
          idleSwitch =
        select sampleSwitch bobOnly (dialledTo "<sip:95551@trecs>") unknownSource
          idleSwitch := by
  have hbob : select sampleSwitch bobOnly (dialledTo "<sip:bo@trecs>") unknownSource
      idleSwitch = .binding (ascii "sip:bo@trecs") bobsBinding := by decide +kernel
  have htrunk : select sampleSwitch bobOnly (dialledTo "<sip:95551@trecs>")
      unknownSource idleSwitch =
        .trunk (TrunkEntry.toTrunk (trunkTrusting (ascii "s") .static []) (by decide))
          (ascii "0305551") := by decide +kernel
  refine ⟨agreeButTo_dialledTo _ _, hbob, ⟨_, htrunk⟩, ?_⟩
  rw [hbob, htrunk]
  exact fun h => by cases h

end B2bua

end Trecs
