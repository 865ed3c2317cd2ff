import Trecs.B2bua.Call
import Trecs.Media.Sdp
import Trecs.Proto.Address
import Trecs.Sip.Registrar

/-!
# The Response Loop

The goroutine that waits for the callee of a call, `b2buaResponseLoop` for a
registered user and `trunkResponseLoop` for a trunk, in
`internal/b2bua/handler.go`, with `handleBob200OK` and `handleTrunk200OK`.

Between two waits the goroutine does one thing after another while every other
goroutine goes on. So what it does after a wait is a list of `Action`s, each of
them one call that takes a lock of its own: a response to Alice, a message to
Bob, a change of the call store, a channel given back. The two loops differ in
these lists and in nothing else, and `Peer` says which of them runs.

`handleBob200OK` and `handleTrunk200OK` look at the context first. They are the
action `answer`, which stands for the rest of them: `answerActions` says what it
becomes, given what the context and the resolver say at that moment.

Closing the media sockets, the media sessions and the bridge are left out.

## Main definitions

* `CallCtx`, `Peer`: What a response loop works with.
* `CallCtx.alice200`, `CallCtx.ackToBob`: Two of the messages it builds.
* `Action`: What it does between two waits.
* `Peer.onResponse`, `Peer.onError`, `Peer.onDone`, `Peer.onPrackDone`,
  `Peer.onSendFailed`: What follows each thing it can wake up for.
* `Acceptable`: A 200 that can be handled.

## Theorems

* `Peer.answerActions_of_acceptable`: An acceptable answer is passed on to Alice.
-/

namespace Trecs

namespace B2bua

open Proto Sip Media

/-- The status code of a response as the integer it was parsed to. -/
def statusInt (m : SIPMessage) : Int64 :=
  match m.startLine with
  | some (.response _ _ c) => c
  | _ => 0

theorem toInt_statusInt (m : SIPMessage) : (statusInt m).toInt = m.statusCode := by
  rcases m with ⟨_ | (_ | _), _, _, _⟩
  · rfl
  · rfl
  · rfl

/-- The configuration of the handler. -/
structure Handler where
  serverIP : Bytes
  serverPort : Bytes
  prackEnabled : Bool

/-- The Go struct `callCtx`. The client transaction is known by its branch and
    the sockets by their ports. -/
structure CallCtx where
  req : SIPMessage
  aliceTransport : Transport
  aliceTarget : Target
  target : Target
  transportImpl : Transport
  branch : Bytes
  rtpPortA : Int64
  rtpPortB : Int64
  fromAddr : SIPAddress
  toAddr : SIPAddress
  aliceFromTag : Bytes
  serverTag : Bytes
  callID : Bytes
  calleeTag : Bytes
  bobCallID : Bytes
  selectedPT : UInt8
  hasEarlyOffer : Bool
  aliceSDPOffer : Option SDP
  aliceSDPBytes : Bytes
  recordRoute : Bytes

/-- Whom the call goes to. -/
inductive Peer where
  | user (binding : Binding) (aliceSupports100rel : Bool)
  | trunk (trunkName bobReqURI : Bytes) (sessionExpires : Int64)

/-- Where the requests to the callee go. -/
def Peer.uri : Peer → Bytes
  | user binding _ => binding.contactURI
  | trunk _ bobReqURI _ => bobReqURI

/-- What the loop gets from outside while it handles a response: the random
    bytes of a branch, the clock, and whether the resolver finds Alice's media
    address both times it is asked. -/
structure LoopEnv where
  rnd : Option Bytes
  sessionID : Bytes
  resolves : Bool
deriving DecidableEq

/-! ### Messages -/

namespace CallCtx

/-- The reason phrase of a response, `resp.Status()` behind its first blank. -/
def reasonOf (resp : SIPMessage) : Bytes :=
  match cut SP resp.status with
  | some (_, reason) => reason
  | none => resp.status

/-- The response that passes Bob's provisional response on to Alice. -/
def provisional (cc : CallCtx) (resp : SIPMessage) : SIPMessage :=
  let prov := newResponse cc.req (statusInt resp) (reasonOf resp)
  let h := SIPHeaders.set prov.headers hTo
    [ascii "<" ++ cc.toAddr.uri ++ ascii ">;tag=" ++ cc.serverTag]
  if resp.body = [] then { prov with headers := h }
  else
    let h := match resp.headers.lookup (ascii "Content-Type") with
      | some (v :: vs) => h.insert (ascii "Content-Type") (v :: vs)
      | _ => h
    { prov with
      headers := SIPHeaders.set h hContentLength [formatNat resp.body.length]
      body := resp.body }

/-- The response that passes Bob's refusal on to Alice. -/
def errorResponse (cc : CallCtx) (resp : SIPMessage) : SIPMessage :=
  newResponse cc.req (statusInt resp) (reasonOf resp)

/-- The value of a Via header of a request to Bob. -/
def via (h : Handler) (transport : Transport) (branch : Bytes) : Bytes :=
  ascii "SIP/2.0/" ++ transport.name ++ [SP] ++ h.serverIP ++ ascii ":" ++ h.serverPort ++
    ascii ";branch=" ++ branch

/-- The headers of a request to Bob inside the dialog with him, up to the
    Call-ID. -/
def dialogHeaders (cc : CallCtx) (viaValue bobTag : Bytes) : SIPHeaders :=
  let h := SIPHeaders.add ∅ hVia viaValue
  let h := SIPHeaders.add h hFrom (ascii "<" ++ cc.fromAddr.uri ++ ascii ">;tag=" ++ cc.calleeTag)
  let h := SIPHeaders.add h hTo (ascii "<" ++ cc.toAddr.uri ++ ascii ">;tag=" ++ bobTag)
  SIPHeaders.add h hCallID cc.bobCallID

/-- The ACK for Bob's answer. -/
def ackToBob (cc : CallCtx) (h : Handler) (p : Peer) (env : LoopEnv) (bobTo : SIPAddress) :
    SIPMessage :=
  let hs := cc.dialogHeaders
    (via h cc.transportImpl (generateBranch env.rnd) ++ ascii ";rport") bobTo.tag
  let hs := SIPHeaders.add hs (ascii "Max-Forwards") (ascii "70")
  { newRequest .ACK p.uri with headers := SIPHeaders.add hs hContentLength (ascii "0") }

/-- The PRACK for a reliable provisional response of Bob. -/
def prackToBob (cc : CallCtx) (h : Handler) (p : Peer) (env : LoopEnv) (resp : SIPMessage) :
    SIPMessage :=
  let bobTag := match resp.toAddress with
    | .ok a => a.tag
    | .error _ => []
  let hs := cc.dialogHeaders (via h cc.transportImpl (generateBranch env.rnd)) bobTag
  let hs := SIPHeaders.add hs (ascii "RAck")
    (SIPHeaders.getFirst resp.headers (ascii "RSeq") ++ [SP] ++ formatInt resp.cseq.seq.toInt ++
      ascii " INVITE")
  let hs := SIPHeaders.add hs (ascii "Max-Forwards") (ascii "70")
  { newRequest .PRACK p.uri with
    headers := SIPHeaders.add hs hContentLength (ascii "0")
    cseq := { method := .PRACK, seq := resp.cseq.seq + 1 } }

/-- The contact of the server over a transport. -/
def contactOver (h : Handler) (transport : Transport) : Bytes :=
  ascii "<sip:trec@" ++ h.serverIP ++ ascii ":" ++ h.serverPort ++ ascii ";transport=" ++
    transport.name ++ ascii ">"

variable [SdpCodec]

/-- The 200 that answers Alice. Without an offer of hers it carries one. -/
def alice200 (cc : CallCtx) (h : Handler) (env : LoopEnv) : SIPMessage :=
  let body := if cc.hasEarlyOffer then cc.aliceSDPBytes
    else SdpCodec.marshal (buildOffer env.sessionID cc.rtpPortA cc.selectedPT h.serverIP)
  let res := newResponse cc.req 200 (ascii "OK")
  let hs := SIPHeaders.set res.headers hTo
    [SIPHeaders.getFirst cc.req.headers hTo ++ ascii ";tag=" ++ cc.serverTag]
  let hs := SIPHeaders.set hs (ascii "Content-Type") [ascii "application/sdp"]
  let hs := hs.insert (ascii "Allow") [ascii "INVITE, ACK, BYE, CANCEL, OPTIONS, REGISTER"]
  let hs := SIPHeaders.add hs (ascii "Record-Route") cc.recordRoute
  let hs := SIPHeaders.add hs (ascii "Contact") (contactOver h cc.aliceTransport)
  { res with headers := hs, body := body }

end CallCtx

/-- The name of the trunk of a call, empty for a call to a registered user. -/
def Peer.trunkName : Peer → Bytes
  | user _ _ => []
  | trunk trunkName _ _ => trunkName

/-- The call that is stored when Bob has answered with the address `bobTo`. -/
def CallCtx.answeredCall (cc : CallCtx) (h : Handler) (p : Peer) (bobTo : SIPAddress) : Call :=
  let aliceContact := SIPHeaders.getFirst cc.req.headers (ascii "Contact")
  let serverContact := ascii "<sip:trec@" ++ h.serverIP ++ ascii ":" ++ h.serverPort ++ ascii ">"
  { aliceCallID := cc.callID
    bobCallID := cc.bobCallID
    bobContactURI := p.uri
    aliceContactURI := aliceContact
    bobTransport := cc.transportImpl
    bobTarget := cc.target
    aliceTransport := cc.aliceTransport
    aliceTarget := cc.aliceTarget
    aliceDialog := confirmedDialog ⟨cc.callID, cc.serverTag, cc.aliceFromTag⟩ serverContact
      cc.fromAddr.uri aliceContact
    bobDialog := confirmedDialog ⟨cc.bobCallID, cc.calleeTag, bobTo.tag⟩ serverContact
      cc.toAddr.uri p.uri
    bridgeReady := cc.hasEarlyOffer
    trunkName := p.trunkName }

/-! ### What the loop does -/

/-- One thing the loop does between two waits. -/
inductive Action where
  | respond (res : SIPMessage)
  | sendReliable (prov : SIPMessage)
  | sendBob (msg : SIPMessage)
  | cancelPRACK
  | release (trunkName : Bytes)
  | answer (resp : SIPMessage)
  | storeCall (call : Call)
  | sessionTimer (callID trunkName : Bytes) (sessionExpires : Int64)
  | removeEarly (callID : Bytes)

/-- What the loop does next, and whether it returns after that. -/
structure Reaction where
  todo : List Action
  last : Bool

namespace Peer

/-- The deferred calls, once the request has been sent. -/
def deferred (cc : CallCtx) : Peer → List Action
  | user _ _ => [.cancelPRACK, .removeEarly cc.callID]
  | trunk _ _ _ => [.removeEarly cc.callID]

/-- What either loop does first when it gives the call up. -/
def giveUp : Peer → List Action
  | user _ _ => [.cancelPRACK]
  | trunk trunkName _ _ => [.release trunkName]

/-- What either loop does before it handles Bob's answer. -/
def beforeAnswer : Peer → List Action
  | user _ _ => [.cancelPRACK]
  | trunk _ _ _ => []

/-- The network refused the request. -/
def onSendFailed (cc : CallCtx) (p : Peer) : Reaction :=
  let bad := Action.respond (newResponse cc.req 502 (ascii "Bad Gateway"))
  match p with
  | user _ _ => ⟨[bad, .removeEarly cc.callID], true⟩
  | trunk trunkName _ _ => ⟨[.release trunkName, bad, .removeEarly cc.callID], true⟩

/-- The context was canceled. -/
def onDone (cc : CallCtx) (p : Peer) : Reaction := ⟨p.giveUp ++ p.deferred cc, true⟩

/-- Alice did not acknowledge a reliable provisional response in time. -/
def onPrackDone (cc : CallCtx) (p : Peer) : Reaction := ⟨p.deferred cc, true⟩

/-- The client transaction timed out. -/
def onError (cc : CallCtx) (p : Peer) : Reaction :=
  ⟨p.giveUp ++ [.respond (newResponse cc.req 408 (ascii "Request Timeout"))] ++ p.deferred cc, true⟩

section Lower

variable [UnicodeLower]

/-- Whether a header value names the extension `100rel`. -/
def names100rel (v : Bytes) : Bool := (index (ascii "100rel") (toLower v)).isSome

/-- Whether Bob wants his provisional response acknowledged. -/
def needsPRACK (resp : SIPMessage) : Bool :=
  let bobRequire := SIPHeaders.getFirst resp.headers (ascii "Require")
  bobRequire ≠ [] && SIPHeaders.getFirst resp.headers (ascii "RSeq") ≠ [] && names100rel bobRequire

/-- A provisional response of Bob. A registered user's is passed on if it says
    that he is ringing or that the session is in progress. -/
def onProvisional (h : Handler) (cc : CallCtx) (env : LoopEnv) (p : Peer) (resp : SIPMessage) :
    List Action :=
  match p with
  | trunk _ _ _ => [.respond (cc.provisional resp)]
  | user _ aliceSupports100rel =>
    if resp.statusCode = 180 ∨ resp.statusCode = 183 then
      (if needsPRACK resp && h.prackEnabled then [.sendBob (cc.prackToBob h p env resp)] else []) ++
      [if aliceSupports100rel && h.prackEnabled then .sendReliable (cc.provisional resp)
        else .respond (cc.provisional resp)]
    else []

/-- A response of Bob. A 2xx other than 200 falls through every branch. -/
def onResponse (h : Handler) (cc : CallCtx) (env : LoopEnv) (p : Peer) (resp : SIPMessage) :
    Reaction :=
  let sc := resp.statusCode
  if 100 ≤ sc ∧ sc < 200 then ⟨p.onProvisional h cc env resp, false⟩
  else if sc = 200 then ⟨p.beforeAnswer ++ [.answer resp] ++ p.deferred cc, true⟩
  else if 300 ≤ sc then
    ⟨p.giveUp ++ [.respond (cc.errorResponse resp)] ++ p.deferred cc, true⟩
  else ⟨[], false⟩

end Lower

/-- What is left to do when an answer of Bob is discarded. -/
def discard : Peer → List Action
  | user _ _ => []
  | trunk trunkName _ _ => [.release trunkName]

/-- Storing the call and watching over its length. -/
def establish (cc : CallCtx) (call : Call) : Peer → List Action
  | user _ _ => [.storeCall call]
  | trunk trunkName _ sessionExpires =>
    .storeCall call ::
      if 0 < sessionExpires.toInt then [.sessionTimer cc.callID trunkName sessionExpires] else []

variable [SdpCodec]

/-- `handleBob200OK` and `handleTrunk200OK`, when the context says `canceled`. -/
def answerActions (h : Handler) (cc : CallCtx) (env : LoopEnv) (canceled : Bool) (p : Peer)
    (resp : SIPMessage) : List Action :=
  if canceled then p.discard
  else
    match resp.toAddress with
    | .error _ => p.discard
    | .ok bobTo =>
      match unmarshalSDPBytes resp.body with
      | none => p.discard
      | some _ =>
        [.sendBob (cc.ackToBob h p env bobTo), .respond (cc.alice200 h env)] ++
        -- Alice has her 200 when her media address turns out not to resolve.
        if cc.hasEarlyOffer && !env.resolves then []
        else p.establish cc (cc.answeredCall h p bobTo)

end Peer

variable [SdpCodec]

/-- An answer the server can use: it has an address to answer to and a session
    description. -/
def Acceptable (resp : SIPMessage) : Prop :=
  resp.toAddress.toOption.isSome = true ∧ (unmarshalSDPBytes resp.body).isSome = true

instance (resp : SIPMessage) : Decidable (Acceptable resp) :=
  inferInstanceAs (Decidable (_ ∧ _))

/-- An acceptable answer to a call that was not canceled is passed on. -/
theorem Peer.answerActions_of_acceptable (h : Handler) (cc : CallCtx) (env : LoopEnv) (p : Peer)
    (resp : SIPMessage) (ha : Acceptable resp) :
    ∃ bobTo, p.answerActions h cc env false resp =
      [.sendBob (cc.ackToBob h p env bobTo), .respond (cc.alice200 h env)] ++
        if cc.hasEarlyOffer && !env.resolves then []
        else p.establish cc (cc.answeredCall h p bobTo) := by
  rcases ha with ⟨hto, hsdp⟩
  cases hta : resp.toAddress with
  | error e =>
    rw [hta] at hto
    cases hto
  | ok bobTo =>
    rcases Option.isSome_iff_exists.mp hsdp with ⟨sdp, hs⟩
    refine ⟨bobTo, ?_⟩
    simp [answerActions, hta, hs]

end B2bua

end Trecs
