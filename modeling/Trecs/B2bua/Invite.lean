import Trecs.B2bua.ResponseLoop
import Trecs.Lib.Outcome
import Trecs.Trunk.Manager

/-!
# Incoming Calls

`handleB2BUAInvite` and `handleTrunkInvite` of `internal/b2bua/handler.go`: an
INVITE is refused, or a leg towards its callee is prepared and a response loop
started on it.

Either handler answers Alice by itself only when it refuses the call, and then
returns. It works through a list of conditions, so it is a computation that can
leave early with an `Exit`. Leaving with `panicked` is the dereference of a
missing offer in `PickPayloadType`.

What the handlers ask the network and the random source for is in `InviteEnv`.
The route of a number and the reachable contact of a user are functions there:
how they are found is no part of this module.

## Main definitions

* `Exit`: Why a handler returns without a response loop.
* `Started`: The response loop it starts otherwise.
* `handleB2BUAInvite`, `handleTrunkInvite`: The handlers.

## Theorems

* `answers_handleB2BUAInvite`: An INVITE with an offer is answered by a final
  response wherever the handler leaves.
* `started_trunkInvite`, `started_userInvite`, `started_handleB2BUAInvite`: Whom a
  response loop is for.
-/

namespace Trecs

namespace B2bua

open Proto Sip Media Trunks

/-- What the handlers get from outside. -/
structure InviteEnv where
  /-- `MatchRoute`: the trunk for a dialled user and the number to dial there. -/
  matchRoute : Bytes → Option (Trunk × Bytes)
  /-- `GetBindings` of the registrar. -/
  getBindings : Bytes → List Binding
  /-- `selectBinding`: the last reachable binding, with how to reach it. -/
  selectBinding : List Binding → Option (Binding × Target × Transport)
  /-- `TargetFromContact`, which resolves or dials the address. -/
  targetFromContact : Bytes → Option (Target × Transport)
  /-- Whether `HandleOutbound` takes a dialled connection. -/
  handleOutbound : Bool
  /-- The port of a media socket for each side, if one is left. -/
  rtpPortA : Option Int64
  rtpPortB : Option Int64
  fallbackTag : Bytes
  serverTag : Bytes
  calleeTag : Bytes
  bobCallID : Bytes
  /-- The random bytes of the branch of the request to Bob. -/
  rnd : Option Bytes
  sessionID : Bytes
  /-- Where the INVITE came from. -/
  aliceTransport : Transport
  aliceTarget : Target

/-- Why a handler returns without a response loop. -/
inductive Exit where
  | refused (res : SIPMessage)
  | panicked

/-- The response loop a handler starts. -/
structure Started where
  cc : CallCtx
  peer : Peer
  bobInvite : SIPMessage

/-- `ExtractUser`. -/
def extractUser (uri : Bytes) : Bytes :=
  let uri := if ascii "sip:" <+: uri then uri.drop 4 else uri
  match cut 64 uri with
  | some (user, _) => user
  | none => []

/-- Whether the INVITE carries an offer. -/
def hasEarlyOffer (req : SIPMessage) : Bool :=
  req.body ≠ [] && SIPHeaders.getFirst req.headers (ascii "Content-Type") = ascii "application/sdp"

/-- Leaving with a response to the INVITE. -/
def refuse {α : Type} (req : SIPMessage) (code : Int64) (reason : String) : Except Exit α :=
  .error (.refused (newResponse req code (ascii reason)))

/-- Leaving with a response unless there is a value. -/
def orRefuse {α : Type} (o : Option α) (req : SIPMessage) (code : Int64) (reason : String) :
    Except Exit α :=
  match o with
  | some a => .ok a
  | none => refuse req code reason

/-- Two media sockets, one for each side. -/
def newRTPConns (env : InviteEnv) (req : SIPMessage) : Except Exit (Int64 × Int64) := do
  let rtpPortA ← orRefuse env.rtpPortA req 500 "Server Internal Error"
  let rtpPortB ← orRefuse env.rtpPortB req 500 "Server Internal Error"
  return (rtpPortA, rtpPortB)

variable [SdpCodec]

/-- Alice's offer, if she made one. -/
def readOffer (req : SIPMessage) : Except Exit (Option SDP) :=
  if hasEarlyOffer req then do
    let offer ← orRefuse (unmarshalSDPBytes req.body) req 488 "Not Acceptable Here"
    return some offer
  else return none

/-- `PickPayloadType` on the offer there may be. -/
def selectPT (offer : Option SDP) : Except Exit UInt8 :=
  match pickPayloadType offer with
  | some pt => .ok pt
  | none => .error .panicked

/-- The description of the answer to Alice's offer. -/
def aliceAnswer (env : InviteEnv) (h : Handler) (offer : Option SDP) (rtpPortA : Int64)
    (pt : UInt8) : Bytes :=
  match offer with
  | some o => SdpCodec.marshal (buildAnswer env.sessionID o rtpPortA pt h.serverIP)
  | none => []

/-- The headers of the INVITE to Bob that both handlers write, with the address
    `ip` of the server. -/
def inviteHeaders (h : Handler) (env : InviteEnv) (ip : Bytes) (transport : Transport)
    (fromAddr toAddr : SIPAddress) : SIPHeaders :=
  let hs := SIPHeaders.add ∅ hVia
    (ascii "SIP/2.0/" ++ transport.name ++ [SP] ++ ip ++ ascii ":" ++ h.serverPort ++
      ascii ";branch=" ++ generateBranch env.rnd)
  let hs := SIPHeaders.add hs hFrom
    (ascii "<" ++ fromAddr.uri ++ ascii ">;tag=" ++ env.calleeTag)
  let hs := SIPHeaders.add hs hTo (ascii "<" ++ toAddr.uri ++ ascii ">")
  let hs := SIPHeaders.add hs (ascii "Contact")
    (ascii "<sip:trec@" ++ ip ++ ascii ":" ++ h.serverPort ++ ascii ";transport=" ++
      transport.name ++ ascii ">")
  let hs := SIPHeaders.add hs hCallID env.bobCallID
  let hs := SIPHeaders.add hs (ascii "Max-Forwards") (ascii "70")
  let hs := SIPHeaders.add hs (ascii "Record-Route")
    (ascii "<sip:trec@" ++ ip ++ ascii ":" ++ h.serverPort ++ ascii ";lr>")
  SIPHeaders.add hs (ascii "Content-Type") (ascii "application/sdp")

/-- The context of the response loop, for an offer, sockets and addresses. -/
def callCtx (h : Handler) (env : InviteEnv) (req : SIPMessage) (ip aliceFromTag : Bytes)
    (target : Target) (transportImpl : Transport) (ports : Int64 × Int64)
    (fromAddr toAddr : SIPAddress) (offer : Option SDP) (pt : UInt8) : CallCtx where
  req := req
  aliceTransport := env.aliceTransport
  aliceTarget := env.aliceTarget
  target := target
  transportImpl := transportImpl
  branch := generateBranch env.rnd
  rtpPortA := ports.1
  rtpPortB := ports.2
  fromAddr := fromAddr
  toAddr := toAddr
  aliceFromTag := aliceFromTag
  serverTag := env.serverTag
  callID := SIPHeaders.getFirst req.headers hCallID
  calleeTag := env.calleeTag
  bobCallID := env.bobCallID
  selectedPT := pt
  hasEarlyOffer := hasEarlyOffer req
  aliceSDPOffer := offer
  aliceSDPBytes := aliceAnswer env h offer ports.1 pt
  recordRoute := ascii "<sip:trec@" ++ ip ++ ascii ":" ++ h.serverPort ++ ascii ";lr>"

/-- The headers a trunk's configuration adds to the INVITE and takes from it. -/
def trunkHeaders (trk : Trunk) (trunkIP : Bytes) (hs : SIPHeaders) : SIPHeaders :=
  let hs := if trk.callerID ≠ [] then
      SIPHeaders.add (SIPHeaders.add hs (ascii "P-Asserted-Identity")
        (ascii "<sip:" ++ trk.callerID ++ ascii "@" ++ trunkIP ++ ascii ">"))
        (ascii "Privacy") (ascii "none")
    else hs
  let hs := trk.stripHeaders.foldl SIPHeaders.delete hs
  if 0 < trk.sessionExpiresSec.toInt then
    SIPHeaders.add hs (ascii "Session-Expires")
      (formatInt trk.sessionExpiresSec.toInt ++ ascii ";refresher=uac")
  else hs

/-- `net.JoinHostPort`. -/
def joinHostPort (host port : Bytes) : Bytes :=
  if 58 ∈ host then ascii "[" ++ host ++ ascii "]:" ++ port else host ++ ascii ":" ++ port

/-- The part of `handleTrunkInvite` behind `AcquireChannel`. Wherever it leaves,
    the channel is given back before Alice is answered. -/
def trunkInvite (h : Handler) (env : InviteEnv) (req : SIPMessage) (trk : Trunk) (dest : Bytes)
    (toAddr : SIPAddress) : Except Exit Started := do
  let trunkIP := if trk.localIP = [] then h.serverIP else trk.localIP
  let ports ← newRTPConns env req
  let offer ← readOffer req
  let pt ← selectPT offer
  let fromAddr ← orRefuse req.fromAddress.toOption req 400 "Bad Request"
  let bobReqURI := ascii "sip:" ++ dest ++ ascii "@" ++
    joinHostPort trk.host (formatInt trk.port.toInt)
  let (bobTarget, bobTransport) ←
    orRefuse (env.targetFromContact bobReqURI) req 502 "Bad Gateway"
  let tcp := bobTransport = .tcp ∧ trk.transport = ascii "tcp"
  if tcp ∧ bobTarget.conn.isSome ∧ env.handleOutbound = false then refuse req 502 "Bad Gateway"
  else
    let cc := callCtx h env req trunkIP fromAddr.tag bobTarget (if tcp then .tcp else .udp)
      ports fromAddr toAddr offer pt
    let headers := trunkHeaders trk trunkIP
      (inviteHeaders h env trunkIP bobTransport fromAddr toAddr)
    let body := SdpCodec.marshal (buildOffer env.sessionID ports.2 pt trunkIP)
    let sessionExpires := if 0 < trk.sessionExpiresSec.toInt then
      trk.sessionExpiresSec * 1000000000 else 0
    return ⟨cc, .trunk trk.name bobReqURI sessionExpires,
      { newRequest .INVITE bobReqURI with headers := headers, body := body }⟩

/-- `handleTrunkInvite`, with the outcome of `AcquireChannel`. -/
def handleTrunkInvite (h : Handler) (env : InviteEnv) (acquired : Bool) (req : SIPMessage)
    (trk : Trunk) (dest : Bytes) (toAddr : SIPAddress) : Except Exit Started :=
  if acquired then trunkInvite h env req trk dest toAddr
  else refuse req 503 "Service Unavailable"

variable [UnicodeLower]

/-- `detect100relSupport`. -/
def detect100relSupport (h : Handler) (req : SIPMessage) : Bool :=
  h.prackEnabled &&
    [ascii "Supported", ascii "Require"].any
      (fun k => ((req.headers.lookup k).getD []).any Peer.names100rel)

/-- The part of `handleB2BUAInvite` for a callee who is a registered user. -/
def userInvite (h : Handler) (env : InviteEnv) (req : SIPMessage) (toAddr : SIPAddress) :
    Except Exit Started := do
  let bindings := env.getBindings (normalizeAOR toAddr.uri)
  if bindings = [] then refuse req 404 "Not Found"
  else
    let (binding, target, transport) ←
      orRefuse (env.selectBinding bindings) req 502 "Bad Gateway"
    let fromAddr ← orRefuse req.fromAddress.toOption req 400 "Bad Request"
    let aliceFromTag := if fromAddr.tag = [] then env.fallbackTag else fromAddr.tag
    let ports ← newRTPConns env req
    let offer ← readOffer req
    let pt ← selectPT offer
    let cc := callCtx h env req h.serverIP aliceFromTag target transport ports fromAddr toAddr
      offer pt
    let hs := inviteHeaders h env h.serverIP transport fromAddr toAddr
    let hs := if h.prackEnabled then SIPHeaders.add hs (ascii "Supported") (ascii "100rel") else hs
    let body := SdpCodec.marshal (buildOffer env.sessionID ports.2 pt h.serverIP)
    return ⟨cc, .user binding (detect100relSupport h req),
      { newRequest .INVITE binding.contactURI with headers := hs, body := body }⟩

/-- `handleB2BUAInvite`. `acquired` says whether a trunk has a channel left. -/
def handleB2BUAInvite (h : Handler) (env : InviteEnv) (acquired : Bytes → Bool)
    (req : SIPMessage) : Except Exit Started := do
  let toAddr ← orRefuse req.toAddress.toOption req 400 "Bad Request"
  match env.matchRoute (extractUser toAddr.uri) with
  | some (trk, dest) => handleTrunkInvite h env (acquired trk.name) req trk dest toAddr
  | none => userInvite h env req toAddr

/-! ### Leaving early -/

/-- Wherever the computation leaves early, it has a final response for Alice. -/
def Answers {α : Type} (x : Except Exit α) : Prop :=
  ∀ e, x = .error e → ∃ res, e = .refused res ∧ 200 ≤ res.statusCode

namespace Answers

variable {α β : Type}

omit [SdpCodec] [UnicodeLower]

theorem ok (a : α) : Answers (.ok a : Except Exit α) :=
  fun _ h => nomatch h

theorem refuse (req : SIPMessage) (code : Int64) (reason : String) (hcode : 200 ≤ code.toInt) :
    Answers (B2bua.refuse req code reason : Except Exit α) :=
  fun _ h => ⟨_, (Except.error.inj h).symm, hcode⟩

theorem orRefuse (o : Option α) (req : SIPMessage) (code : Int64) (reason : String)
    (hcode : 200 ≤ code.toInt) : Answers (B2bua.orRefuse o req code reason) := by
  cases o with
  | none => exact refuse req code reason hcode
  | some a => exact ok a

/-- Leaving from a sequence is leaving from its first part, or from the rest
    with the value of the first. -/
theorem bind (x : Except Exit α) (f : α → Except Exit β) (hx : Answers x)
    (hf : ∀ a, x = .ok a → Answers (f a)) : Answers (x >>= f) := by
  intro e he
  cases x with
  | error e' => exact hx e (congrArg Except.error (Except.error.inj he))
  | ok a => exact hf a rfl e he

theorem newRTPConns (env : InviteEnv) (req : SIPMessage) : Answers (B2bua.newRTPConns env req) :=
  bind _ _ (orRefuse _ req 500 _ (by decide)) fun _ _ =>
    bind _ _ (orRefuse _ req 500 _ (by decide)) fun _ _ => ok _

end Answers

omit [UnicodeLower]

theorem answers_readOffer (req : SIPMessage) : Answers (readOffer req) := by
  unfold readOffer
  split
  · exact .bind _ _ (.orRefuse _ req 488 _ (by decide)) fun _ _ => .ok _
  · exact .ok _

/-- An INVITE with an offer leaves a payload type to pick. -/
theorem answers_selectPT (req : SIPMessage) (ho : hasEarlyOffer req = true) (offer : Option SDP)
    (h : readOffer req = .ok offer) : Answers (selectPT offer) := by
  have hsome : offer ≠ none := by
    rw [readOffer, if_pos ho] at h
    cases hb : unmarshalSDPBytes req.body with
    | none =>
      rw [hb] at h
      cases h
    | some o =>
      rw [hb] at h
      exact fun hn => nomatch (Except.ok.inj (h.trans (congrArg Except.ok hn)))
  unfold selectPT
  split
  · exact .ok _
  · exact absurd ((pickPayloadType_eq_none_iff offer).mp ‹_›) hsome

/-- Whatever both handlers do with the sockets and the offer. -/
theorem answers_media {α : Type} (env : InviteEnv) (req : SIPMessage)
    (ho : hasEarlyOffer req = true) (f : Int64 × Int64 → Option SDP → UInt8 → Except Exit α)
    (hf : ∀ ports offer pt, Answers (f ports offer pt)) :
    Answers (do
      let ports ← newRTPConns env req
      let offer ← readOffer req
      let pt ← selectPT offer
      f ports offer pt) :=
  .bind _ _ (.newRTPConns env req) fun ports _ =>
    .bind _ _ (answers_readOffer req) fun offer hoffer =>
      .bind _ _ (answers_selectPT req ho offer hoffer) fun pt _ => hf ports offer pt

theorem answers_trunkInvite (h : Handler) (env : InviteEnv) (req : SIPMessage) (trk : Trunk)
    (dest : Bytes) (toAddr : SIPAddress) (ho : hasEarlyOffer req = true) :
    Answers (trunkInvite h env req trk dest toAddr) := by
  refine answers_media env req ho _ fun ports offer pt => ?_
  refine .bind _ _ (.orRefuse _ req 400 _ (by decide)) fun fromAddr _ => ?_
  refine .bind _ _ (.orRefuse _ req 502 _ (by decide)) fun target _ => ?_
  simp only
  split
  · exact .refuse req 502 _ (by decide)
  · exact .ok _

variable [UnicodeLower]

theorem answers_userInvite (h : Handler) (env : InviteEnv) (req : SIPMessage)
    (toAddr : SIPAddress) (ho : hasEarlyOffer req = true) :
    Answers (userInvite h env req toAddr) := by
  unfold userInvite
  simp only
  split
  · exact .refuse req 404 _ (by decide)
  · refine .bind _ _ (.orRefuse _ req 502 _ (by decide)) fun target _ => ?_
    refine .bind _ _ (.orRefuse _ req 400 _ (by decide)) fun fromAddr _ => ?_
    exact answers_media env req ho _ fun ports offer pt => .ok _

/-- An INVITE with an offer is answered by a final response wherever the handler
    leaves. -/
theorem answers_handleB2BUAInvite (h : Handler) (env : InviteEnv) (acquired : Bytes → Bool)
    (req : SIPMessage) (ho : hasEarlyOffer req = true) :
    Answers (handleB2BUAInvite h env acquired req) := by
  refine .bind _ _ (.orRefuse _ req 400 _ (by decide)) fun toAddr _ => ?_
  split
  · unfold handleTrunkInvite
    split
    · exact answers_trunkInvite h env req _ _ toAddr ho
    · exact .refuse req 503 _ (by decide)
  · exact answers_userInvite h env req toAddr ho

/-! ### Whom a response loop is for -/

omit [SdpCodec] [UnicodeLower]

theorem orRefuse_eq_ok {α : Type} {o : Option α} {req : SIPMessage} {code : Int64}
    {reason : String} {a : α} (h : orRefuse o req code reason = .ok a) : o = some a := by
  cases o with
  | none => cases h
  | some b => rw [Except.ok.inj h]

variable [SdpCodec]

/-- Whatever `trunkInvite` starts has the first number and is for its own trunk
    and the number it was given. -/
theorem started_trunkInvite (h : Handler) (env : InviteEnv) (req : SIPMessage) (trk : Trunk)
    (dest : Bytes) (toAddr : SIPAddress) (st : Started)
    (hst : trunkInvite h env req trk dest toAddr = .ok st) :
    st.bobInvite.cseq = ⟨.INVITE, 1⟩ ∧ ∃ expires, st.peer = .trunk trk.name
      (ascii "sip:" ++ dest ++ ascii "@" ++ joinHostPort trk.host (formatInt trk.port.toInt))
      expires := by
  unfold trunkInvite at hst
  rcases bind_eq_ok hst with ⟨ports, _, hst⟩
  rcases bind_eq_ok hst with ⟨offer, _, hst⟩
  rcases bind_eq_ok hst with ⟨pt, _, hst⟩
  rcases bind_eq_ok hst with ⟨fromAddr, _, hst⟩
  rcases bind_eq_ok hst with ⟨target, _, hst⟩
  rcases guard_eq_ok hst with ⟨_, hst⟩
  rw [← Except.ok.inj hst]
  exact ⟨rfl, _, rfl⟩

/-- Whatever `userInvite` starts has the first number and is for the binding that
    was selected among those of the user. -/
theorem started_userInvite [UnicodeLower] (h : Handler) (env : InviteEnv) (req : SIPMessage)
    (toAddr : SIPAddress) (st : Started) (hst : userInvite h env req toAddr = .ok st) :
    st.bobInvite.cseq = ⟨.INVITE, 1⟩ ∧ env.getBindings (normalizeAOR toAddr.uri) ≠ [] ∧
      ∃ binding target transport supports100rel,
        env.selectBinding (env.getBindings (normalizeAOR toAddr.uri)) =
          some (binding, target, transport) ∧ st.peer = .user binding supports100rel := by
  unfold userInvite at hst
  rcases guard_eq_ok hst with ⟨hsome, hst⟩
  rcases bind_eq_ok hst with ⟨⟨binding, target, transport⟩, hselect, hst⟩
  rcases bind_eq_ok hst with ⟨fromAddr, _, hst⟩
  rcases bind_eq_ok hst with ⟨ports, _, hst⟩
  rcases bind_eq_ok hst with ⟨offer, _, hst⟩
  rcases bind_eq_ok hst with ⟨pt, _, hst⟩
  rw [← Except.ok.inj hst]
  exact ⟨rfl, hsome, binding, target, transport, _, orRefuse_eq_ok hselect, rfl⟩

/-- A response loop is for a trunk that has a channel left, or for a registered
    user. -/
theorem started_handleB2BUAInvite [UnicodeLower] (h : Handler) (env : InviteEnv)
    (acquired : Bytes → Bool) (req : SIPMessage) (st : Started)
    (hst : handleB2BUAInvite h env acquired req = .ok st) :
    ∃ toAddr, req.toAddress.toOption = some toAddr ∧
      ((∃ trk dest, env.matchRoute (extractUser toAddr.uri) = some (trk, dest) ∧
          acquired trk.name = true ∧ trunkInvite h env req trk dest toAddr = .ok st) ∨
        env.matchRoute (extractUser toAddr.uri) = none ∧ userInvite h env req toAddr = .ok st) := by
  unfold handleB2BUAInvite at hst
  rcases bind_eq_ok hst with ⟨toAddr, hto, hst⟩
  refine ⟨toAddr, orRefuse_eq_ok hto, ?_⟩
  split at hst
  · rename_i trk dest hroute
    unfold handleTrunkInvite at hst
    split at hst
    · exact .inl ⟨trk, dest, hroute, ‹_›, hst⟩
    · cases hst
  · exact .inr ⟨‹_›, hst⟩

end B2bua

end Trecs
