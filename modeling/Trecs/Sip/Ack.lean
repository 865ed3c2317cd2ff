import Trecs.Lib.Run
import Trecs.Sip.TimerB

/-!
# The ACK for a Rejected INVITE

An INVITE client transaction acknowledges a final response other than 2xx
itself. RFC 3261 section 17.1.1.3 fixes every field of that ACK: it is the
INVITE again, with the same Request-URI, From, Call-ID, CSeq number and topmost
Via, and the To of the response, whose tag the INVITE does not have. Section
17.1.1.2 has it sent anew for every retransmission of the response.

`sendACK` builds the Via and copies From, Call-ID and CSeq as it should. It
takes the Request-URI from the Contact of the response when there is one, and it
takes To from the INVITE. It is called on the transition to Completed only, so a
retransmission goes without an ACK.

`acknowledged_iff` says of every state a transaction can be in and every
response which of them are acknowledged as the RFC asks.

## Main definitions

* `Acknowledges`: An ACK as section 17.1.1.3 asks for it.
* `AckOk`: When the transaction sends such an ACK.

## Theorems

* `ackFor_acknowledges_iff`: When the fields are right.
* `acknowledged_iff`: Which responses are acknowledged.
* `acknowledged_fails`: A retransmission without an ACK, and an ACK with the
  wrong To.
-/

namespace Trecs

open List Option

namespace Proto

/-! ### Reading a Via that was put together -/

/-- A text is found where it was put if its first byte does not occur before. -/
theorem index_append (b : UInt8) (sub pre rest : Bytes) (h : b ∉ pre) :
    index (b :: sub) (pre ++ b :: (sub ++ rest)) = some pre.length := by
  induction pre with
  | nil =>
    have hpre : (b :: sub).isPrefixOf (b :: (sub ++ rest)) = true :=
      isPrefixOf_iff_prefix.mpr ⟨rest, rfl⟩
    simp [index, hpre]
  | cons c pre ih =>
    rw [mem_cons, not_or] at h
    have hpre : ¬ (b :: sub).isPrefixOf (c :: (pre ++ b :: (sub ++ rest))) = true := by
      intro hc
      exact h.1 (cons_prefix_cons.mp (List.isPrefixOf_iff_prefix.mp hc)).1
    simp only [cons_append, index, if_neg hpre, ih h.2, map_some, length_cons]

/-- The sent-by of a Via has no semicolon and starts with no white space. -/
theorem unmarshalViaSentBy_spec (via : Bytes) :
    (59 : UInt8) ∉ unmarshalViaSentBy via ∧
      ∀ r ∈ spaceRunes, ¬ r <+: unmarshalViaSentBy via := by
  have hnil : (59 : UInt8) ∉ ([] : Bytes) ∧ ∀ r ∈ spaceRunes, ¬ r <+: ([] : Bytes) :=
    ⟨not_mem_nil, fun r hr hpre => spaceRunes_ne_nil r hr (prefix_nil.mp hpre)⟩
  unfold unmarshalViaSentBy
  split
  · exact hnil
  · rename_i after _
    have htrim := not_prefix_trimSpace after
    simp only
    split
    · rename_i sentBy _ hcut
      rcases (cut_eq_some_iff _ _ _ _).mp hcut with ⟨hs, hn⟩
      refine ⟨hn, fun r hr hpre => htrim r hr (hpre.trans ?_)⟩
      rw [hs]
      exact prefix_append sentBy _
    · rename_i hcut
      exact ⟨(cut_eq_none_iff _ _).mp hcut, htrim⟩

/-- A sent-by that was read from a Via is read back from a new one. -/
theorem unmarshalViaSentBy_built (proto via params : Bytes) (hp : SP ∉ proto) :
    unmarshalViaSentBy (proto ++ SP :: (unmarshalViaSentBy via ++ 59 :: params)) =
      unmarshalViaSentBy via := by
  rcases unmarshalViaSentBy_spec via with ⟨hsemi, hfront⟩
  rcases trimSpace_stop _ params hfront with ⟨rest, htrim⟩
  rw [unmarshalViaSentBy, cut_append SP proto _ hp]
  simp [htrim, cut_append 59 _ rest hsemi]

/-- A branch without separators and blanks is read back from a Via. -/
theorem unmarshalViaBranch_built [UnicodeLower] (front branch : Bytes) (hf : (59 : UInt8) ∉ front)
    (hb : ∀ b ∈ branch, b ≠ 59 ∧ b ≠ SP ∧ b ≠ CR) :
    unmarshalViaBranch (front ++ (ascii ";branch=" ++ branch)) = some branch := by
  have hidx : index (ascii ";branch=") (front ++ (ascii ";branch=" ++ branch)) =
      some front.length := index_append 59 (ascii "branch=") front branch hf
  have h8 : (front ++ ascii ";branch=").length = front.length + 8 := length_append
  have hlen : front.length + 8 ≤ (front ++ (ascii ";branch=" ++ branch)).length := by
    rw [← h8, ← append_assoc]
    exact (prefix_append _ branch).length_le
  have hdrop : (front ++ (ascii ";branch=" ++ branch)).drop (front.length + 8) = branch := by
    rw [← append_assoc, ← h8, drop_left]
  have hcut : cut 59 branch = none :=
    (cut_eq_none_iff _ _).mpr (fun hm => (hb 59 hm).1 rfl)
  have htrim : branch.rdropWhile (fun b => b == SP || b == CR) = branch := by
    rw [rdropWhile_eq_self_iff]
    intro hne hlast
    rcases hb _ (getLast_mem hne) with ⟨_, hsp, hcr⟩
    simp only [Bool.or_eq_true, beq_iff_eq] at hlast
    exact hlast.elim hsp hcr
  simp only [unmarshalViaBranch, hidx, branchFrom, if_pos hlen, hdrop, hcut, htrim]

end Proto

namespace Sip

open Proto

/-! ### The fields of the ACK -/

/-- `h.Add(k, vs[0])` unless `vs` is empty. -/
def copyFirst (h : SIPHeaders) (k : Bytes) (vs : Option (List Bytes)) : SIPHeaders :=
  match vs with
  | some (v :: _) => SIPHeaders.add h k v
  | _ => h

/-- Copying the first value of a header leaves the others alone. -/
theorem lookup_copyFirst_of_ne (h : SIPHeaders) (k k' : Bytes) (vs : Option (List Bytes))
    (hne : k' ≠ canonicalHeaderKey k) : (copyFirst h k vs).lookup k' = h.lookup k' := by
  unfold copyFirst
  split
  · exact SIPHeaders.lookup_add_of_ne h k k' _ hne
  · rfl

/-- A header copied into a map without it has the first value it had. -/
theorem lookup_copyFirst (h : SIPHeaders) (k : Bytes) (vs : Option (List Bytes))
    (hnone : h.lookup (canonicalHeaderKey k) = none) :
    ((copyFirst h k vs).lookup (canonicalHeaderKey k)).bind List.head? = vs.bind List.head? := by
  unfold copyFirst
  split
  · rw [SIPHeaders.lookup_add_of_none h k _ hnone]
    rfl
  · rename_i hno
    rw [hnone]
    rcases vs with _ | _ | ⟨v, vs⟩
    · rfl
    · rfl
    · exact absurd rfl (hno v vs)

/-- The names of the headers of an ACK are canonical. -/
theorem canonicalHeaderKey_ack :
    canonicalHeaderKey hVia = hVia ∧ canonicalHeaderKey hFrom = hFrom ∧
      canonicalHeaderKey hTo = hTo ∧ canonicalHeaderKey hCallID = hCallID ∧
      canonicalHeaderKey (ascii "Max-Forwards") = ascii "Max-Forwards" ∧
      canonicalHeaderKey hContentLength = hContentLength := by
  decide +kernel

namespace UACTransaction

/-- The value of the Via of the ACK. -/
def ackVia (u : UACTransaction) (req : SIPMessage) : Bytes :=
  ascii "SIP/2.0/" ++ u.transport.name ++ [SP] ++ req.viaSentBy ++ ascii ";branch=" ++ u.branch

theorem ackFor_headers (u : UACTransaction) (req resp : SIPMessage) :
    (u.ackFor req resp).headers =
      SIPHeaders.add (SIPHeaders.add (SIPHeaders.add
        (copyFirst (copyFirst (SIPHeaders.add ∅ hVia (u.ackVia req)) hFrom
          (req.headers.lookup hFrom)) hTo (req.headers.lookup hTo))
        hCallID (SIPHeaders.getFirst req.headers hCallID))
        (ascii "Max-Forwards") (ascii "70")) hContentLength (ascii "0") := rfl

/-- The first value of each header the ACK is required to have. -/
theorem getFirst_ackFor (u : UACTransaction) (req resp : SIPMessage) :
    SIPHeaders.getFirst (u.ackFor req resp).headers hVia = u.ackVia req ∧
    SIPHeaders.getFirst (u.ackFor req resp).headers hFrom =
      SIPHeaders.getFirst req.headers hFrom ∧
    SIPHeaders.getFirst (u.ackFor req resp).headers hTo = SIPHeaders.getFirst req.headers hTo ∧
    SIPHeaders.getFirst (u.ackFor req resp).headers hCallID =
      SIPHeaders.getFirst req.headers hCallID := by
  rcases canonicalHeaderKey_ack with ⟨hv, hf, ht, hc, hm, hl⟩
  rw [ackFor_headers]
  simp only [SIPHeaders.getFirst]
  rw [hv, hf, ht, hc]
  -- Max-Forwards and Content-Length are none of the four.
  have hrest : ∀ h : SIPHeaders, ∀ k ∈ [hVia, hFrom, hTo, hCallID],
      ((h.add (ascii "Max-Forwards") (ascii "70")).add hContentLength (ascii "0")).lookup k =
        h.lookup k := by
    intro h k hk
    rw [SIPHeaders.lookup_add_of_ne _ _ _ _ (by rw [hl]; revert k; decide),
      SIPHeaders.lookup_add_of_ne _ _ _ _ (by rw [hm]; revert k; decide)]
  have hvia : ∀ k, k ≠ hVia → (SIPHeaders.add ∅ hVia (u.ackVia req)).lookup k = none := by
    intro k hne
    rw [SIPHeaders.lookup_add_of_ne _ _ _ _ (by rw [hv]; exact hne), AList.lookup_empty]
  refine ⟨?_, ?_, ?_, ?_⟩
  · rw [hrest _ _ (by decide), SIPHeaders.lookup_add_of_ne _ _ _ _ (by rw [hc]; decide),
      lookup_copyFirst_of_ne _ _ _ _ (by rw [ht]; decide),
      lookup_copyFirst_of_ne _ _ _ _ (by rw [hf]; decide)]
    have hself := SIPHeaders.lookup_add_of_none ∅ hVia (u.ackVia req) (AList.lookup_empty _)
    rw [hv] at hself
    rw [hself]
    rfl
  · rw [hrest _ _ (by decide), SIPHeaders.lookup_add_of_ne _ _ _ _ (by rw [hc]; decide),
      lookup_copyFirst_of_ne _ _ _ _ (by rw [ht]; decide)]
    have hcopy := lookup_copyFirst _ hFrom (req.headers.lookup hFrom)
      (by rw [hf]; exact hvia hFrom (by decide))
    rw [hf] at hcopy
    rw [hcopy]
  · rw [hrest _ _ (by decide), SIPHeaders.lookup_add_of_ne _ _ _ _ (by rw [hc]; decide)]
    have hnone : (copyFirst (SIPHeaders.add ∅ hVia (u.ackVia req)) hFrom
        (req.headers.lookup hFrom)).lookup hTo = none := by
      rw [lookup_copyFirst_of_ne _ _ _ _ (by rw [hf]; decide)]
      exact hvia hTo (by decide)
    have hcopy := lookup_copyFirst _ hTo (req.headers.lookup hTo) (by rw [ht]; exact hnone)
    rw [ht] at hcopy
    rw [hcopy]
  · rw [hrest _ _ (by decide)]
    have hnone : (copyFirst (copyFirst (SIPHeaders.add ∅ hVia (u.ackVia req)) hFrom
        (req.headers.lookup hFrom)) hTo (req.headers.lookup hTo)).lookup hCallID = none := by
      rw [lookup_copyFirst_of_ne _ _ _ _ (by rw [ht]; decide),
        lookup_copyFirst_of_ne _ _ _ _ (by rw [hf]; decide)]
      exact hvia hCallID (by decide)
    have hself := SIPHeaders.lookup_add_of_none _ hCallID
      (((req.headers.lookup hCallID).bind List.head?).getD []) (by rw [hc]; exact hnone)
    rw [hc] at hself
    rw [hself]
    rfl

end UACTransaction

/-- A generated branch has no separators and no blanks. -/
theorem generateBranch_plain (rnd : Option Bytes) :
    ∀ b ∈ generateBranch rnd, b ≠ 59 ∧ b ≠ SP ∧ b ≠ CR := by
  have hcookie : ∀ b ∈ ascii "z9hG4bK", b ≠ 59 ∧ b ≠ SP ∧ b ≠ CR := by
    decide +kernel
  cases rnd with
  | none =>
    have hall : ∀ b ∈ ascii "z9hG4bKtrec00000000", b ≠ 59 ∧ b ≠ SP ∧ b ≠ CR := by
      decide +kernel
    exact hall
  | some bytes =>
    intro b hb
    rcases mem_append.mp hb with hb | hb
    · exact hcookie b hb
    · exact (IsHex.ne b (isHex_hexEncode bytes b hb)).2

namespace UACTransaction

theorem ackVia_eq (u : UACTransaction) (req : SIPMessage) :
    u.ackVia req = (ascii "SIP/2.0/" ++ u.transport.name) ++
      SP :: (req.viaSentBy ++ 59 :: (ascii "branch=" ++ u.branch)) := by
  have hsemi : ascii ";branch=" = 59 :: ascii "branch=" := by decide
  simp [ackVia, hsemi]

/-- The Via of the ACK has the sent-by of the INVITE. -/
theorem ackFor_viaSentBy (u : UACTransaction) (req resp : SIPMessage) :
    (u.ackFor req resp).viaSentBy = req.viaSentBy := by
  have hsp : SP ∉ ascii "SIP/2.0/" ++ u.transport.name := by
    cases u.transport <;> decide
  rw [SIPMessage.viaSentBy, (getFirst_ackFor u req resp).1, ackVia_eq]
  exact unmarshalViaSentBy_built _ _ _ hsp

/-- What `HandleResponse` sends for a final response other than 2xx. -/
theorem handleResponse_rejected (now : Nat) (u : UACTransaction) (resp : SIPMessage)
    (hm : resp.cseq.method = u.method) (hinv : u.method = .INVITE)
    (hsc : 300 ≤ resp.statusCode) (hlive : u.state ≠ .Terminated) :
    (u.handleResponse now resp).map Prod.snd =
      if u.waiting then u.request.map (fun req => [u.ackFor req resp]) else some [] := by
  unfold handleResponse
  simp only
  rw [if_neg (fun hx => hx hm), if_neg hlive, if_neg (by omega), if_neg (by omega), if_pos hsc]
  cases hw : u.waiting with
  | true =>
    simp only [if_true, hinv, sendACK, Option.map_map]
    rfl
  | false => simp only [Bool.false_eq_true, if_false, map_some]

end UACTransaction

/-! ### The branch, the method and the request of a transaction -/

/-- What identifies the transaction is the same. -/
structure UACTransaction.Kept (u u' : UACTransaction) : Prop where
  branch : u'.branch = u.branch
  method : u'.method = u.method
  request : u'.request = u.request

namespace UACTransaction

variable {u u' : UACTransaction}

theorem Kept.trans {u'' : UACTransaction} (h : Kept u u') (h' : Kept u' u'') : Kept u u'' :=
  ⟨h'.branch.trans h.branch, h'.method.trans h.method, h'.request.trans h.request⟩

theorem kept_offer (u : UACTransaction) (msg : SIPMessage) : Kept u (u.offer msg) := by
  unfold offer
  split <;> exact ⟨rfl, rfl, rfl⟩

theorem kept_handleResponse (now : Nat) (msg : SIPMessage) (out : List SIPMessage)
    (h : u.handleResponse now msg = some (u', out)) : Kept u u' := by
  by_cases ha : u.Answers msg
  · rcases u.handleResponse_cases now u' msg out h ha with ⟨_, hu⟩ | ⟨_, hu⟩ | ⟨_, _, hu⟩ | ⟨_, _, hu⟩
    · rw [hu]
      exact ⟨rfl, rfl, rfl⟩
    · rw [hu]
      refine Kept.trans ?_ (kept_offer _ msg)
      split <;> exact ⟨rfl, rfl, rfl⟩
    · rw [hu]
      have hkept : Kept u (u.transitionToCompleted now) := ⟨rfl, rfl, rfl⟩
      exact hkept.trans (kept_offer _ msg)
    · rw [hu]
      exact kept_offer u msg
  · rw [u.handleResponse_of_not_answers now msg ha] at h
    have hu : u = u' := congrArg Prod.fst (some.inj h)
    rw [← hu]
    exact ⟨rfl, rfl, rfl⟩

/-- The locked section of a callback keeps it, and leaves no request to store. -/
theorem kept_timerCallback (sendFails : Bool) (u : UACTransaction) (k : UACTimer) :
    Kept u (timerCallback sendFails u k).1 ∧
      ∀ r, UACTask.storeRequest r ∉ (timerCallback sendFails u k).2.2 := by
  cases k with
  | A =>
    simp only [timerCallback]
    split
    · exact ⟨⟨rfl, rfl, rfl⟩, fun r => not_mem_nil⟩
    · split
      · exact ⟨⟨rfl, rfl, rfl⟩, fun r => not_mem_nil⟩
      · exact ⟨⟨rfl, rfl, rfl⟩, fun r hr => absurd (mem_singleton.mp hr) (by simp)⟩
  | B | D =>
    simp only [timerCallback]
    split
    · exact ⟨⟨rfl, rfl, rfl⟩, fun r => not_mem_nil⟩
    · exact ⟨⟨rfl, rfl, rfl⟩, fun r hr => absurd (mem_singleton.mp hr) (by simp)⟩

/-- A task keeps it apart from storing the request, and no task leaves a
    request to store. -/
theorem kept_runTask (now : Nat) (sendFails : Bool) (u : UACTransaction) (t : UACTask) :
    ((∃ r, t = .storeRequest r ∧ (u.runTask now sendFails t).1 = { u with request := some r }) ∨
      Kept u (u.runTask now sendFails t).1) ∧
      ∀ r, UACTask.storeRequest r ∉ (u.runTask now sendFails t).2.2 := by
  cases t with
  | storeRequest req =>
    refine ⟨.inl ⟨req, rfl, rfl⟩, fun r hr => ?_⟩
    cases mem_singleton.mp hr
  | putTimeout =>
    refine ⟨.inr ?_, fun r hr => ?_⟩
    · simp only [runTask]
      split <;> exact ⟨rfl, rfl, rfl⟩
    · cases mem_singleton.mp hr
  | sendRequest req =>
    refine ⟨.inr ⟨rfl, rfl, rfl⟩, fun r hr => ?_⟩
    simp only [runTask] at hr
    split at hr
    · cases hr
    · split at hr <;>
        cases mem_singleton.mp hr
  | armTimerA interval inSend =>
    refine ⟨.inr ⟨rfl, rfl, rfl⟩, fun r hr => ?_⟩
    simp only [runTask] at hr
    split at hr
    · cases mem_singleton.mp hr
    · cases hr
  | armTimerB _ | deregister => exact ⟨.inr ⟨rfl, rfl, rfl⟩, fun r => not_mem_nil⟩
  | startTimerA | readIntervalA _ | readIntervalB | terminate | cancelContext =>
    refine ⟨.inr ⟨rfl, rfl, rfl⟩, fun r hr => ?_⟩
    cases mem_singleton.mp hr

end UACTransaction

/-- The transaction has its branch and method, and the one request it has or
    will have is `req`. -/
structure RequestInv (branch : Bytes) (method : SIPMethod) (req : SIPMessage) (s : UACClient) :
    Prop where
  branch : s.tx.branch = branch
  method : s.tx.method = method
  request : ∀ r, s.tx.request = some r → r = req
  pending : ∀ r, UACTask.storeRequest r ∈ s.tasks → r = req

namespace RequestInv

variable {branch : Bytes} {method : SIPMethod} {req : SIPMessage} {s s' : UACClient}

/-- A step that keeps the transaction and stores no request keeps the
    invariant. -/
theorem keep (h : RequestInv branch method req s) (hk : UACTransaction.Kept s.tx s'.tx)
    (ht : ∀ r, UACTask.storeRequest r ∈ s'.tasks → UACTask.storeRequest r ∈ s.tasks) :
    RequestInv branch method req s' where
  branch := hk.branch.trans h.branch
  method := hk.method.trans h.method
  request := fun r hr => h.request r (hk.request ▸ hr)
  pending := fun r hr => h.pending r (ht r hr)

/-- Every event keeps it. -/
theorem step (h : RequestInv branch method req s) (e : UACEvent) (hstep : uacStep s e = some s') :
    RequestInv branch method req s' := by
  cases e with
  | task now i sendFails =>
    rcases map_eq_some_iff.mp hstep with ⟨t, hi, hs⟩
    rcases UACTransaction.kept_runTask now sendFails s.tx t with ⟨hkept, hnew⟩
    have htasks : ∀ r, UACTask.storeRequest r ∈
        s.tasks.eraseIdx i ++ (s.tx.runTask now sendFails t).2.2 →
        UACTask.storeRequest r ∈ s.tasks := by
      intro r hr
      rcases mem_append.mp hr with hr | hr
      · exact mem_of_mem_eraseIdx hr
      · exact absurd hr (hnew r)
    rw [← hs]
    rcases hkept with ⟨r, hr, hu⟩ | hkept
    · -- The request that is stored was pending.
      have hreq : r = req := h.pending r (hr ▸ mem_of_getElem? hi)
      refine ⟨(congrArg UACTransaction.branch hu).trans h.branch,
        (congrArg UACTransaction.method hu).trans h.method, ?_,
        fun x hx => h.pending x (htasks x hx)⟩
      intro x hx
      have hx' := (congrArg UACTransaction.request hu).symm.trans hx
      rw [← some.inj hx']
      exact hreq
    · exact h.keep hkept htasks
  | response now msg =>
    rcases map_eq_some_iff.mp hstep with ⟨⟨u', out⟩, hu, rfl⟩
    exact h.keep (UACTransaction.kept_handleResponse now msg out hu) (fun _ hr => hr)
  | expire i =>
    rcases map_eq_some_iff.mp hstep with ⟨ts, _, rfl⟩
    exact h.keep ⟨rfl, rfl, rfl⟩ (fun _ hr => hr)
  | callback i sendFails =>
    rcases map_eq_some_iff.mp hstep with ⟨p, _, hs⟩
    rcases UACTransaction.kept_timerCallback sendFails { s.tx with timers := p.2 } p.1 with
      ⟨hkept, hnew⟩
    rw [← hs]
    refine h.keep ⟨hkept.branch, hkept.method, hkept.request⟩ ?_
    intro r hr
    exact (mem_append.mp hr).resolve_right (hnew r)
  | stopTimers =>
    cases hstep
    exact h.keep ⟨rfl, rfl, rfl⟩ (fun _ hr => hr)
  | cancel =>
    cases hstep
    refine h.keep ⟨rfl, rfl, rfl⟩ ?_
    intro r hr
    refine (mem_append.mp hr).resolve_right (fun hx => ?_)
    cases mem_singleton.mp hx
  | receiveResponse | receiveError =>
    simp only [uacStep] at hstep
    split at hstep
    · cases hstep
    · cases hstep
      exact h.keep ⟨rfl, rfl, rfl⟩ (fun _ hr => hr)

end RequestInv

theorem requestInv_run (ok : UACClient → UACEvent → Prop) (branch : Bytes) (method : SIPMethod)
    (transport : Transport) (target : Target) (req : SIPMessage) (es : List UACEvent)
    (s : UACClient)
    (hrun : Run uacStep ok (.start (.create branch method transport target) req) es s) :
    RequestInv branch method req s := by
  refine hrun.invariant (RequestInv branch method req) ⟨rfl, rfl, ?_, ?_⟩
    (fun t e t' h _ hstep => h.step e hstep)
  · intro r hr
    cases hr
  · intro r hr
    exact UACTask.storeRequest.inj (mem_singleton.mp hr)

section Fields

variable [UnicodeLower]

/-- The ACK `ack` for the response `resp` to the INVITE `req` has the fields RFC
    3261 section 17.1.1.3 asks for. -/
structure Acknowledges (ack req resp : SIPMessage) : Prop where
  method : ack.method = .ACK
  requestURI : ack.requestURI = req.requestURI
  sender : SIPHeaders.getFirst ack.headers hFrom = SIPHeaders.getFirst req.headers hFrom
  receiver : SIPHeaders.getFirst ack.headers hTo = SIPHeaders.getFirst resp.headers hTo
  callID : SIPHeaders.getFirst ack.headers hCallID = SIPHeaders.getFirst req.headers hCallID
  cseq : ack.cseq = ⟨.ACK, req.cseq.seq⟩
  branch : ack.viaBranch = req.viaBranch
  sentBy : ack.viaSentBy = req.viaSentBy

/-- The condition. The INVITE has been stored and no final response has been
    received. The INVITE carries the branch of the transaction. The response has
    no Contact or the Request-URI of the INVITE in it, and its To is the To of
    the INVITE. -/
def AckOk (u : UACTransaction) (req resp : SIPMessage) : Prop :=
  u.request.isSome = true ∧ u.waiting = true ∧ req.viaBranch = some u.branch ∧
    (SIPHeaders.getFirst resp.headers (ascii "Contact") = [] ∨
      stripBrackets (SIPHeaders.getFirst resp.headers (ascii "Contact")) = req.requestURI) ∧
    SIPHeaders.getFirst resp.headers hTo = SIPHeaders.getFirst req.headers hTo

instance (u : UACTransaction) (req resp : SIPMessage) : Decidable (AckOk u req resp) :=
  inferInstanceAs (Decidable (_ ∧ _))

/-! ### When the fields are right -/

namespace UACTransaction

/-- It has the branch of the transaction. -/
theorem ackFor_viaBranch (u : UACTransaction) (req resp : SIPMessage)
    (hb : ∀ b ∈ u.branch, b ≠ 59 ∧ b ≠ SP ∧ b ≠ CR) :
    (u.ackFor req resp).viaBranch = some u.branch := by
  have hfront : (59 : UInt8) ∉ ascii "SIP/2.0/" ++ u.transport.name ++ [SP] ++ req.viaSentBy := by
    have hfixed : (59 : UInt8) ∉ ascii "SIP/2.0/" ++ u.transport.name ++ [SP] := by
      cases u.transport <;> decide
    rw [mem_append, not_or]
    exact ⟨hfixed, (unmarshalViaSentBy_spec _).1⟩
  rw [SIPMessage.viaBranch, (getFirst_ackFor u req resp).1, ackVia, append_assoc _ _ u.branch]
  exact unmarshalViaBranch_built _ u.branch hfront hb

/-- The ACK is right exactly if the Request-URI and the To it uses are. -/
theorem ackFor_acknowledges_iff (u : UACTransaction) (req resp : SIPMessage)
    (hb : ∀ b ∈ u.branch, b ≠ 59 ∧ b ≠ SP ∧ b ≠ CR) :
    Acknowledges (u.ackFor req resp) req resp ↔
      req.viaBranch = some u.branch ∧
      (SIPHeaders.getFirst resp.headers (ascii "Contact") = [] ∨
        stripBrackets (SIPHeaders.getFirst resp.headers (ascii "Contact")) = req.requestURI) ∧
      SIPHeaders.getFirst resp.headers hTo = SIPHeaders.getFirst req.headers hTo := by
  rcases getFirst_ackFor u req resp with ⟨_, hfrom, hto, hcall⟩
  have huri : (u.ackFor req resp).requestURI =
      if SIPHeaders.getFirst resp.headers (ascii "Contact") ≠ [] then
        stripBrackets (SIPHeaders.getFirst resp.headers (ascii "Contact"))
      else req.requestURI := rfl
  constructor
  · rintro ⟨_, hu, _, ht, _, _, hbr, _⟩
    refine ⟨?_, ?_, ?_⟩
    · rw [← hbr, ackFor_viaBranch u req resp hb]
    · rw [huri] at hu
      split at hu
      · exact .inr hu
      · exact .inl (not_not.mp ‹_›)
    · rw [← ht, hto]
  · rintro ⟨hbr, hcontact, ht⟩
    refine ⟨rfl, ?_, hfrom, hto.trans ht.symm, hcall, rfl, ?_, ackFor_viaSentBy u req resp⟩
    · rw [huri]
      split
      · exact hcontact.resolve_left ‹_›
      · rfl
    · rw [ackFor_viaBranch u req resp hb, hbr]

end UACTransaction

/-- In every state of every run of an INVITE client transaction, and for every
    final response other than 2xx that it receives before it is terminated: the
    response causes exactly one ACK, and that one is right, exactly if the
    condition holds. -/
theorem acknowledged_iff (rnd : Option Bytes) (transport : Transport) (target : Target)
    (req : SIPMessage) (es : List UACEvent) (s : UACClient)
    (hrun : Run uacStep (fun _ _ => True)
      (.start (.create (generateBranch rnd) .INVITE transport target) req) es s)
    (now : Nat) (resp : SIPMessage) (hm : resp.cseq.method = .INVITE)
    (hsc : 300 ≤ resp.statusCode) (hlive : s.tx.state ≠ .Terminated) :
    (∃ s' ack, uacStep s (.response now resp) = some s' ∧ s'.sent = s.sent ++ [ack] ∧
      Acknowledges ack req resp) ↔ AckOk s.tx req resp := by
  have hinv := requestInv_run _ _ _ _ _ _ _ _ hrun
  have hplain : ∀ b ∈ s.tx.branch, b ≠ 59 ∧ b ≠ SP ∧ b ≠ CR := by
    rw [hinv.branch]
    exact generateBranch_plain rnd
  have hsent := UACTransaction.handleResponse_rejected now s.tx resp (hm.trans hinv.method.symm)
    hinv.method hsc hlive
  have hright := UACTransaction.ackFor_acknowledges_iff s.tx req resp hplain
  constructor
  · rintro ⟨s', ack, hstep, hs, hack⟩
    rcases map_eq_some_iff.mp hstep with ⟨⟨u', out⟩, hu, hs'⟩
    rw [← hs'] at hs
    have hout : out = [ack] := append_cancel_left hs
    rw [hu, map_some, hout] at hsent
    split at hsent
    · rename_i hw
      rcases map_eq_some_iff.mp hsent.symm with ⟨r, hr, hx⟩
      rw [hinv.request r hr] at hx
      rw [← singleton_inj.mp hx] at hack
      exact ⟨isSome_of_eq_some hr, hw, hright.mp hack⟩
    · cases hsent
  · rintro ⟨hstored, hw, hfields⟩
    rcases isSome_iff_exists.mp hstored with ⟨r, hr⟩
    rw [if_pos hw, hr, map_some, hinv.request r hr] at hsent
    rcases map_eq_some_iff.mp hsent with ⟨⟨u', out⟩, hu, hout⟩
    have hstep : ∃ s', uacStep s (.response now resp) = some s' ∧ s'.sent = s.sent ++ out :=
      ⟨_, map_eq_some_iff.mpr ⟨_, hu, rfl⟩, rfl⟩
    rcases hstep with ⟨s', hs', hsent'⟩
    exact ⟨s', _, hs', hsent'.trans (congrArg (s.sent ++ ·) hout), hright.mpr hfields⟩

end Fields

/-- An outgoing INVITE with the headers the call set-up gives it. -/
def dialledInvite : SIPMessage :=
  let h := SIPHeaders.add ∅ hVia (ascii "SIP/2.0/UDP 192.0.2.1:5060;branch=z9hG4bKtrec00000000")
  let h := SIPHeaders.add h hFrom (ascii "<sip:alice@example.com>;tag=a")
  let h := SIPHeaders.add h hTo (ascii "<sip:bob@example.com>")
  let h := SIPHeaders.add h hCallID (ascii "c1")
  { newRequest .INVITE (ascii "sip:bob@192.0.2.7") with headers := h, cseq := ⟨.INVITE, 1⟩ }

/-- Its transaction with `Send` about to start. -/
def diallingClient : UACClient :=
  .start (.create (generateBranch none) .INVITE .udp ⟨none, none, []⟩) dialledInvite

/-- A rejection that has To from the INVITE as it is. -/
def untaggedBusy : SIPMessage := newResponse dialledInvite 486 (ascii "Busy Here")

/-- A rejection with a To tag, as RFC 3261 section 8.2.6.2 asks for. -/
def taggedBusy : SIPMessage :=
  { untaggedBusy with
    headers := SIPHeaders.set untaggedBusy.headers hTo [ascii "<sip:bob@example.com>;tag=b"] }

/-- A redirection that says where to call. -/
def movedTemporarily : SIPMessage :=
  let res := newResponse dialledInvite 302 (ascii "Moved Temporarily")
  { res with headers := SIPHeaders.add res.headers (ascii "Contact") (ascii "<sip:bob@192.0.2.9>") }

open Samples

theorem acknowledged_untaggedBusy :
    ∃ s, Run uacStep (fun _ _ => True) diallingClient sendSteps s ∧
      ∃ s' ack, uacStep s (.response 1 untaggedBusy) = some s' ∧ s'.sent = s.sent ++ [ack] ∧
        Acknowledges ack dialledInvite untaggedBusy := by
  refine exists_run_imp (fun s => s.tx.state ≠ .Terminated ∧ AckOk s.tx dialledInvite untaggedBusy)
    (by decide +kernel) ?_
  rintro s hrun ⟨hlive, hok⟩
  exact (acknowledged_iff _ _ _ _ _ s hrun 1 untaggedBusy rfl (by decide) hlive).mpr hok

/-- Without the condition: a retransmission of an acknowledged rejection gets no
    ACK, the ACK for a rejection with a To tag goes out without it, and the ACK
    for a redirection goes to its Contact. -/
theorem acknowledged_fails :
    (∃ s, Run uacStep (fun _ _ => True) diallingClient
        (sendSteps ++ [.response 1 untaggedBusy, .response 2 untaggedBusy]) s ∧
      s.tx.state = .Completed ∧ s.sent.map SIPMessage.method = [.INVITE, .ACK]) ∧
    (∃ s, Run uacStep (fun _ _ => True) diallingClient (sendSteps ++ [.response 1 taggedBusy]) s ∧
      s.sent.map (fun m => SIPHeaders.getFirst m.headers hTo) =
        [ascii "<sip:bob@example.com>", ascii "<sip:bob@example.com>"]) ∧
    (∃ s, Run uacStep (fun _ _ => True) diallingClient
        (sendSteps ++ [.response 1 movedTemporarily]) s ∧
      s.sent.map SIPMessage.requestURI = [ascii "sip:bob@192.0.2.7", ascii "sip:bob@192.0.2.9"]) :=
  ⟨exists_run_of_exec (by decide +kernel),
    exists_run_of_exec (by decide +kernel),
    exists_run_of_exec (by decide +kernel)⟩

end Sip

end Trecs
