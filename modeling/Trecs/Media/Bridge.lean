import Trecs.Lib.Run
import Trecs.Proto.RtpRoundTrip

/-!
# The Media Bridge

`internal/media/bridge.go`: the loop that takes RTP packets from one leg of a
call and sends them to the other with a source and numbers of its own.

One packet and one buffer serve all turns of the loop. Of the header only the
padding flag, the marker and the payload type are copied; the size of the
padding stays 0, and contributing sources and extensions are dropped. The
buffer grows when a packet needs more, and otherwise keeps what earlier packets
left in it.

`MarshalTo` takes the whole buffer for the packet when the padding flag is set
and stores the size of the padding in its last byte. The size is 0 here, so what
is sent for a padded packet is a full buffer that no receiver accepts. A packet
without padding arrives as it was read.

## Main definitions

* `Forwarder`: The variables of the loop and what has been written.
* `ForwardEvent`: What one turn of the loop meets.
* `forwardStep`: One turn of the loop.
* `Faithful`, `Bridged`: What a bridge is for.

## Theorems

* `Forwarder.Inv.step`: The packet and the buffer in every turn.
* `faithful_iff`: One packet.
* `bridged_iff`: All packets.
-/

namespace Trecs

open List Option

namespace Media

open Proto

/-- 20 ms of mu-law audio. -/
def samplesPerFrame : UInt32 := 160

/-- The size of the buffers in `rtpBufPool`. -/
def readBufSize : Nat := 4096

/-- `ReadRTP`, as far as the datagram goes. A longer one is cut. -/
def readRTP (datagram : Bytes) : Except Fault RTPPacket :=
  unmarshalRTP (datagram.take readBufSize)

/-- The variables of `forward`, what it has written, and whether it has
    returned. -/
structure Forwarder where
  seq : UInt16
  timestamp : UInt32
  out : RTPPacket
  marshalBuf : Bytes
  written : List Bytes
  running : Bool
deriving Repr, DecidableEq

/-- The packet `forward` starts with. -/
def newPacket (ssrc : UInt32) : RTPPacket where
  payload := []
  header :=
    { csrc := [], extensions := [], timestamp := 0, ssrc := ssrc, sequenceNumber := 0
      extensionProfile := 0, version := 2, padding := false, marker := false, payloadType := 0
      extension := false, paddingSize := 0 }

/-- `forward` before its loop. -/
def Forwarder.start (ssrc : UInt32) : Forwarder where
  seq := 0
  timestamp := 0
  out := newPacket ssrc
  marshalBuf := zeros 1500
  written := []
  running := true

/-- What one turn of the loop meets. `done` is whether the context has been
    cancelled when a read fails, `sent` whether the write succeeds. -/
inductive ForwardEvent where
  | deadlineFailed
  | readFailed (done : Bool)
  | datagram (data : Bytes) (done sent : Bool)
deriving Repr, DecidableEq

/-- The fields that are set in every turn. -/
def nextPacket (out pkt : RTPPacket) (seq : UInt16) (timestamp : UInt32) : RTPPacket :=
  { payload := pkt.payload
    header :=
      { out.header with
        padding := pkt.header.padding
        marker := pkt.header.marker
        payloadType := pkt.header.payloadType
        sequenceNumber := seq
        timestamp := timestamp } }

/-- The buffer a packet goes into. -/
def grow (buf : Bytes) (size : Nat) : Bytes := if buf.length < size then zeros size else buf

/-- The rest of a turn, with a packet. -/
def forwardPacket (s : Forwarder) (pkt : RTPPacket) (sent : Bool) : Option Forwarder :=
  let out := nextPacket s.out pkt s.seq s.timestamp
  match out.marshalTo (grow s.marshalBuf out.marshalSize) with
  | .error .panic => none
  | .error (.error _) => some { s with out := out, running := false }
  | .ok (buf, n) =>
    if sent then
      some
        { s with
          seq := s.seq + 1
          timestamp := s.timestamp + samplesPerFrame
          out := out
          marshalBuf := buf
          written := s.written ++ [buf.take n] }
    else some { s with out := out, marshalBuf := buf, running := false }

/-- One turn of the loop. `none` is a panic, or a loop that has ended. -/
def forwardStep (s : Forwarder) (e : ForwardEvent) : Option Forwarder :=
  if s.running then
    match e with
    | .deadlineFailed => some { s with running := false }
    | .readFailed done => some (if done then { s with running := false } else s)
    | .datagram data done sent =>
      match readRTP data with
      | .error .panic => none
      | .error (.error _) => some (if done then { s with running := false } else s)
      | .ok pkt => forwardPacket s pkt sent
  else none

/-- The packet of an event that is read and sent on. -/
def ForwardEvent.forwarded : ForwardEvent → Option RTPPacket
  | .datagram data _ true => (readRTP data).toOption
  | _ => none

/-- The packets that are read and sent on. -/
def forwarded (es : List ForwardEvent) : List RTPPacket := es.filterMap ForwardEvent.forwarded

/-- The packet `q` is the packet `p` as number `i` of the new source. -/
structure FaithfulTo (ssrc : UInt32) (i : Nat) (p q : RTPPacket) : Prop where
  payload : q.payload = p.payload
  payloadType : q.header.payloadType = p.header.payloadType
  marker : q.header.marker = p.header.marker
  ssrc : q.header.ssrc = ssrc
  sequenceNumber : q.header.sequenceNumber.toNat = i % 2 ^ 16
  timestamp : q.header.timestamp.toNat = 160 * i % 2 ^ 32

/-- A receiver of the datagram `d` gets the packet `p` as number `i` of the new
    source. -/
def Faithful (ssrc : UInt32) (i : Nat) (p : RTPPacket) (d : Bytes) : Prop :=
  ∃ q, unmarshalRTP d = .ok q ∧ FaithfulTo ssrc i p q

/-- Every packet that was read arrives, in its place. -/
def Bridged (ssrc : UInt32) (ins : List RTPPacket) (outs : List Bytes) : Prop :=
  outs.length = ins.length ∧
    ∀ i p d, ins[i]? = some p → outs[i]? = some d → Faithful ssrc i p d

/-! ### The buffer -/

/-- A packet without sources, extension and padding. -/
def plainText (p : RTPPacket) : Bytes := writeText p.header.fixedWrites ++ p.payload

/-- The buffer after `text` has been written to its front. -/
def overlay (text buf : Bytes) : Bytes := text ++ buf.drop text.length

/-- A packet without sources and extension in front of what the buffer held. -/
theorem marshalTo_plain (p : RTPPacket) (buf : Bytes) (hcsrc : p.header.csrc = [])
    (hext : p.header.extension = false) (hsize : p.header.paddingSize = 0)
    (hroom : 12 + p.payload.length ≤ buf.length) :
    p.marshalTo buf =
      .ok (if p.header.padding then ((overlay (plainText p) buf).dropLast ++ [0], buf.length)
        else (overlay (plainText p) buf, (plainText p).length)) := by
  have hmarshal : p.marshalSize = 12 + p.payload.length := by
    rw [RTPPacket.marshalSize, hcsrc, hext, hsize]
    simp only [length_nil, Bool.false_eq_true, if_false]
    rfl
  have hws : p.header.extensionWrites = .ok [] := by
    rw [RTPHeader.extensionWrites, hext, if_neg Bool.false_ne_true]
  have htext : writeText (p.header.fixedWrites ++ [] ++ [.copy p.payload]) = plainText p := by
    rw [append_nil, writeText_append]
    exact congrArg _ (append_nil p.payload)
  have hlen : (plainText p).length = 12 + p.payload.length := by
    rw [plainText, length_append, length_fixedWrites, hcsrc, length_nil]
  have hrun := writeAll_of_le (p.header.fixedWrites ++ [] ++ [.copy p.payload]) ⟨[], buf.length⟩
    (by rw [htext, hlen]; exact hroom)
  have hused : (overlay (plainText p) buf).length = buf.length := by
    rw [overlay, length_append, length_drop]
    omega
  unfold RTPPacket.marshalTo
  rw [if_neg (by omega), if_neg (by rw [hcsrc]; decide), hws]
  simp only
  rw [hrun]
  simp only [nil_append, htext]
  rw [← overlay]
  cases p.header.padding with
  | true => rw [if_pos rfl, if_pos rfl, hsize, hused]
  | false => rw [if_neg Bool.false_ne_true, if_neg Bool.false_ne_true]

theorem length_grow (buf : Bytes) (size : Nat) :
    buf.length ≤ (grow buf size).length ∧ size ≤ (grow buf size).length := by
  unfold grow
  by_cases h : buf.length < size
  · rw [if_pos h, length_zeros]
    omega
  · rw [if_neg h]
    omega

/-- The packet that is sent for `p` as number `i`. -/
def outgoing (ssrc : UInt32) (i : Nat) (p : RTPPacket) : RTPPacket :=
  nextPacket (newPacket ssrc) p (UInt16.ofNat i) (UInt32.ofNat (160 * i))

/-- The datagram `d` is what a buffer makes of the packet `p` as number `i`. -/
def SentAs (ssrc : UInt32) (i : Nat) (p : RTPPacket) (d : Bytes) : Prop :=
  ∃ buf r, 1500 ≤ buf.length ∧ 12 + p.payload.length ≤ buf.length ∧
    (outgoing ssrc i p).marshalTo buf = .ok r ∧ d = r.1.take r.2

/-- A packet that is sent on has a version, a source, and nothing behind its
    fixed header but the payload. -/
theorem outgoing_plain (ssrc : UInt32) (i : Nat) (p : RTPPacket) :
    (outgoing ssrc i p).header.version = 2 ∧ (outgoing ssrc i p).header.csrc = [] ∧
      (outgoing ssrc i p).header.extension = false ∧
      (outgoing ssrc i p).header.paddingSize = 0 ∧ (outgoing ssrc i p).payload = p.payload ∧
      (outgoing ssrc i p).header.padding = p.header.padding :=
  ⟨rfl, rfl, rfl, rfl, rfl, rfl⟩

/-- A large enough buffer takes the packet and keeps its length. -/
theorem marshalTo_outgoing (ssrc : UInt32) (i : Nat) (p : RTPPacket) (buf : Bytes)
    (hroom : 12 + p.payload.length ≤ buf.length) :
    ∃ r, (outgoing ssrc i p).marshalTo buf = .ok r ∧ r.1.length = buf.length := by
  have hlen := length_fixedWrites (outgoing ssrc i p).header
  rw [(outgoing_plain ssrc i p).2.1, length_nil] at hlen
  refine ⟨_, marshalTo_plain (outgoing ssrc i p) buf rfl rfl rfl hroom, ?_⟩
  cases (outgoing ssrc i p).header.padding with
  | true =>
    simp only [if_true, overlay, plainText, length_append, length_dropLast,
      length_drop, length_singleton, hlen, (outgoing_plain ssrc i p).2.2.2.2.1]
    omega
  | false =>
    simp only [Bool.false_eq_true, if_false, overlay, plainText, length_append,
      length_drop, hlen, (outgoing_plain ssrc i p).2.2.2.2.1]
    omega

/-! ### The loop -/

/-- The loop after the packets `ins`. -/
structure Forwarder.Inv (ssrc : UInt32) (ins : List RTPPacket) (s : Forwarder) : Prop where
  out : ∀ p seq timestamp,
    nextPacket s.out p seq timestamp = nextPacket (newPacket ssrc) p seq timestamp
  buf : 1500 ≤ s.marshalBuf.length
  seq : s.seq = UInt16.ofNat s.written.length
  timestamp : s.timestamp = UInt32.ofNat (160 * s.written.length)
  count : s.written.length = ins.length
  sent : ∀ i p d, ins[i]? = some p → s.written[i]? = some d → SentAs ssrc i p d

theorem Forwarder.inv_start (ssrc : UInt32) : (Forwarder.start ssrc).Inv ssrc [] where
  out _ _ _ := rfl
  buf := by rw [Forwarder.start, length_zeros]
  seq := rfl
  timestamp := rfl
  count := rfl
  sent i p d h := by cases h

variable {ssrc : UInt32} {i : Nat} {es : List ForwardEvent} {p : RTPPacket} {ins : List RTPPacket}
  {s : Forwarder}

/-- A packet never stops the loop; only a write that fails does. -/
theorem Forwarder.Inv.packet (h : s.Inv ssrc ins) (pkt : RTPPacket) (sent : Bool) :
    ∃ t, forwardPacket s pkt sent = some t ∧
      t.Inv ssrc (if sent then ins ++ [pkt] else ins) := by
  have hout : nextPacket s.out pkt s.seq s.timestamp = outgoing ssrc s.written.length pkt := by
    rw [h.out, h.seq, h.timestamp, outgoing]
  have hsize : (outgoing ssrc s.written.length pkt).marshalSize = 12 + pkt.payload.length := rfl
  rcases length_grow s.marshalBuf (12 + pkt.payload.length) with ⟨hold, hneed⟩
  rcases marshalTo_outgoing ssrc s.written.length pkt _ hneed with ⟨r, hr, hlen⟩
  have hbuf : 1500 ≤ r.1.length := by
    have := h.buf
    omega
  unfold forwardPacket
  simp only [hout, hsize, hr]
  cases sent with
  | false =>
    rw [if_neg Bool.false_ne_true]
    exact ⟨_, rfl, fun p seq ts => rfl, hbuf, h.seq, h.timestamp, h.count, h.sent⟩
  | true =>
    rw [if_pos rfl]
    refine ⟨_, rfl, fun p seq ts => rfl, hbuf, ?_, ?_, ?_, ?_⟩
    · simp only [h.seq, length_append, length_singleton]
      rw [UInt16.ofNat_add]
      rfl
    · simp only [h.timestamp, length_append, length_singleton, Nat.mul_add]
      rw [UInt32.ofNat_add]
      rfl
    · simp [h.count]
    · intro i p d hp hd
      simp only [if_true] at hp hd
      by_cases hi : i < ins.length
      · rw [getElem?_append_left hi] at hp
        rw [getElem?_append_left (by rw [h.count]; exact hi)] at hd
        exact h.sent i p d hp hd
      · -- This is the packet of this turn.
        have hlast : i = ins.length := by
          have := (List.getElem?_eq_some_iff.mp hp).1
          rw [length_append, length_singleton] at this
          omega
        rw [hlast, getElem?_concat_length, some.injEq] at hp
        rw [hlast, ← h.count, getElem?_concat_length, some.injEq] at hd
        rw [hlast, ← hp, ← hd, ← h.count]
        exact ⟨_, r, by have := h.buf; omega, hneed, hr, rfl⟩

theorem Forwarder.Inv.stopped (h : s.Inv ssrc ins) :
    Forwarder.Inv ssrc ins { s with running := false } :=
  ⟨h.out, h.buf, h.seq, h.timestamp, h.count, h.sent⟩

theorem Forwarder.Inv.step {s t : Forwarder} {e : ForwardEvent} (h : s.Inv ssrc ins)
    (hstep : forwardStep s e = some t) : t.Inv ssrc (ins ++ e.forwarded.toList) := by
  have hskip : ∀ done : Bool,
      Forwarder.Inv ssrc ins (if done then { s with running := false } else s) := fun done => by
    cases done with
    | true => exact h.stopped
    | false => exact h
  unfold forwardStep at hstep
  split at hstep
  · cases e with
    | deadlineFailed =>
      cases hstep
      change Forwarder.Inv ssrc (ins ++ []) _
      rw [append_nil]
      exact h.stopped
    | readFailed done =>
      cases hstep
      change Forwarder.Inv ssrc (ins ++ []) _
      rw [append_nil]
      exact hskip done
    | datagram data done sent =>
      simp only at hstep
      have hforwarded : (ForwardEvent.datagram data done sent).forwarded =
          if sent then (readRTP data).toOption else none := by
        cases sent with
        | true => rfl
        | false => rfl
      rcases hread : readRTP data with err | pkt
      · -- What is not a packet leaves no trace, or ends the loop.
        have hnone : (ForwardEvent.datagram data done sent).forwarded = none := by
          rw [hforwarded, hread]
          exact ite_self none
        rw [hread] at hstep
        rw [hnone, toList_none, append_nil]
        cases err with
        | panic => contradiction
        | error err =>
          cases hstep
          exact hskip done
      · rw [hread] at hstep
        rcases h.packet pkt sent with ⟨u, hu, hinv⟩
        simp only [hu, some.injEq] at hstep
        rw [← hstep, hforwarded, hread]
        cases sent with
        | true => exact hinv
        | false =>
          rw [if_neg Bool.false_ne_true] at hinv ⊢
          rw [toList_none, append_nil]
          exact hinv
  · contradiction

theorem forwarded_concat (es : List ForwardEvent) (e : ForwardEvent) :
    forwarded (es ++ [e]) = forwarded es ++ e.forwarded.toList := by
  rw [forwarded, filterMap_append]
  refine congrArg _ ?_
  cases h : e.forwarded with
  | none => rw [filterMap_cons_none h]; rfl
  | some p => rw [filterMap_cons_some h]; rfl

/-- The loop in every run. -/
theorem Forwarder.inv_of_run {ssrc : UInt32} {es : List ForwardEvent} {s : Forwarder}
    (hrun : Run forwardStep (fun _ _ => True) (Forwarder.start ssrc) es s) :
    s.Inv ssrc (forwarded es) := by
  refine Run.invariant_events (fun es t => t.Inv ssrc (forwarded es))
    (Forwarder.inv_start ssrc) ?_ hrun
  intro es t e u h _ hstep
  rw [forwarded_concat]
  exact h.step hstep

/-! ### What arrives -/

/-- Without padding the datagram is the packet. -/
theorem faithful_of_plain {d : Bytes} (h : SentAs ssrc i p d) (hpt : p.header.payloadType ≤ 127)
    (hpad : p.header.padding = false) : Faithful ssrc i p d := by
  rcases h with ⟨buf, r, _, hroom, hr, rfl⟩
  let q := outgoing ssrc i p
  have hvalid : q.Valid :=
    { version := rfl
      payloadType := hpt
      padding := by
        change p.header.padding = true ↔ (1 : UInt8) ≤ 0
        rw [hpad]
        decide
      noExtension := fun _ => ⟨rfl, rfl⟩
      otherProfile := fun _ _ => ⟨Nat.zero_le _, forall_mem_nil _⟩ }
  have hplain := marshalTo_plain q buf rfl rfl rfl hroom
  rw [hr, show q.header.padding = false from hpad, if_neg Bool.false_ne_true,
    Except.ok.injEq] at hplain
  have hback := unmarshal_marshal_plain q hvalid (Nat.zero_le _) rfl
  rw [RTPHeader.paddingText, show q.header.padding = false from hpad, if_neg Bool.false_ne_true,
    append_nil, nil_append] at hback
  refine ⟨q, ?_, rfl, rfl, rfl, rfl, UInt16.toNat_ofNat', UInt32.toNat_ofNat'⟩
  rw [hplain]
  simp only [overlay, take_left', plainText, hback]

/-- The padding flag with a last byte of zero. -/
theorem unmarshalRTP_zeroPadding (h : RTPHeader) (hversion : h.version = 2) (hcsrc : h.csrc = [])
    (hext : h.extension = false) (hpt : h.payloadType ≤ 127) (hpad : h.padding = true)
    (rest : Bytes) :
    unmarshalRTP (writeText h.fixedWrites ++ (rest ++ [0])) =
      unmarshalErrorf (ascii "rtp: invalid padding size 0") := by
  have hfixed : (writeText h.fixedWrites).length = 12 := by rw [length_fixedWrites, hcsrc]; rfl
  have hlen : 12 < (writeText h.fixedWrites ++ (rest ++ [0])).length := by
    rw [length_append, hfixed, length_append, length_singleton]
    omega
  have hlast : (writeText h.fixedWrites ++ (rest ++ [0])).getLast? = some 0 := by
    rw [← append_assoc, getLast?_concat]
  have hhead := unmarshalFixedHeader_put h hversion (by rw [hcsrc]; exact Nat.zero_le _) hpt
    (rest ++ [0])
  generalize writeText h.fixedWrites ++ (rest ++ [0]) = data at hlen hlast hhead ⊢
  unfold unmarshalRTP
  simp only [hhead]
  rw [if_neg (by omega), if_neg (not_not.mpr hversion), hcsrc,
    if_neg (by simp only [length_nil]; omega)]
  unfold unmarshalVariablePart unmarshalPadding
  simp only [hext, hpad, length_nil, Nat.zero_mul, Nat.add_zero, Bool.false_eq_true, if_false,
    if_true]
  rw [if_neg (by omega), hlast, getD_some, if_pos rfl]
  rfl

/-- With padding the datagram is the whole buffer, and its last byte says that
    there are no bytes of padding. -/
theorem not_faithful_of_padding {d : Bytes} (h : SentAs ssrc i p d)
    (hpt : p.header.payloadType ≤ 127) (hpad : p.header.padding = true) :
    ¬ Faithful ssrc i p d := by
  rcases h with ⟨buf, r, hlong, hroom, hr, rfl⟩
  rintro ⟨q', hq', _⟩
  let q := outgoing ssrc i p
  have hfixed : (writeText q.header.fixedWrites).length = 12 := length_fixedWrites q.header
  have hplain := marshalTo_plain q buf rfl rfl rfl hroom
  rw [hr, show q.header.padding = true from hpad, if_pos rfl, Except.ok.injEq] at hplain
  -- The fixed header is in front of the last byte, so it is intact.
  let rest := q.payload ++ buf.drop (writeText q.header.fixedWrites ++ q.payload).length
  have hrest : rest ≠ [] := by
    intro hnil
    have hlen := congrArg List.length hnil
    simp only [rest, length_append, length_drop, hfixed, length_nil] at hlen
    omega
  have hd : r.1.take r.2 = writeText q.header.fixedWrites ++ (rest.dropLast ++ [0]) := by
    rw [hplain, overlay, plainText, append_assoc, dropLast_append_of_ne_nil hrest,
      append_assoc]
    refine take_of_length_le ?_
    have hroom' : 12 + q.payload.length ≤ buf.length := hroom
    simp only [rest, length_append, length_dropLast, length_drop, hfixed,
      length_singleton]
    omega
  rw [hd, unmarshalRTP_zeroPadding q.header rfl rfl rfl hpt hpad] at hq'
  cases hq'

/-- A packet arrives exactly if it has no padding. -/
theorem faithful_iff {d : Bytes} (h : SentAs ssrc i p d) (hpt : p.header.payloadType ≤ 127) :
    Faithful ssrc i p d ↔ p.header.padding = false := by
  constructor
  · intro hf
    by_contra hpad
    exact not_faithful_of_padding h hpt (Bool.eq_true_of_not_eq_false hpad) hf
  · exact faithful_of_plain h hpt

/-- What was read has a payload type of seven bits. -/
theorem payloadType_of_forwarded (h : p ∈ forwarded es) : p.header.payloadType ≤ 127 := by
  rcases mem_filterMap.mp h with ⟨e, _, he⟩
  cases e with
  | deadlineFailed => cases he
  | readFailed done => cases he
  | datagram data done sent =>
    cases sent with
    | false => cases he
    | true =>
      change (readRTP data).toOption = some p at he
      rcases hread : readRTP data with err | q
      · rw [hread] at he
        cases he
      · rw [hread] at he
        rw [← some.inj he]
        exact (accepted_of_unmarshal _ q hread).1.payloadType

/-- The bridge hands on what it reads exactly if none of it is padded. -/
theorem bridged_iff (ssrc : UInt32) (es : List ForwardEvent) (s : Forwarder)
    (hrun : Run forwardStep (fun _ _ => True) (Forwarder.start ssrc) es s) :
    Bridged ssrc (forwarded es) s.written ↔
      ∀ p ∈ forwarded es, p.header.padding = false := by
  have hinv := Forwarder.inv_of_run hrun
  constructor
  · intro hb p hp
    rcases mem_iff_getElem?.mp hp with ⟨i, hi⟩
    have hlt : i < s.written.length := by
      rw [hinv.count]
      exact (List.getElem?_eq_some_iff.mp hi).1
    have hd : s.written[i]? = some s.written[i] := getElem?_eq_getElem hlt
    exact (faithful_iff (hinv.sent i p _ hi hd) (payloadType_of_forwarded hp)).mp
      (hb.2 i p _ hi hd)
  · intro hall
    refine ⟨hinv.count, fun i p d hi hd => ?_⟩
    have hp := mem_of_getElem? hi
    exact (faithful_iff (hinv.sent i p d hi hd) (payloadType_of_forwarded hp)).mpr (hall p hp)

/-- A packet of mu-law audio with two bytes and a marker. -/
def plainDatagram : Bytes := [0x80, 0x80, 0, 9, 0, 0, 0, 8, 0, 0, 0, 7, 0x55, 0xAA]

/-- A packet with one source, one byte of audio and two bytes of padding. -/
def paddedDatagram : Bytes :=
  [0xA1, 0x00, 0, 9, 0, 0, 0, 8, 0, 0, 0, 7, 0, 0, 0, 1, 0x55, 0, 2]

theorem bridged_iff_plainDatagrams :
    ∃ es s, Run forwardStep (fun _ _ => True) (Forwarder.start 3) es s ∧
      (forwarded es).length = 2 ∧ Bridged 3 (forwarded es) s.written := by
  let es : List ForwardEvent :=
    [.datagram plainDatagram false true, .readFailed false, .datagram plainDatagram false true]
  have hpackets : (forwarded es).length = 2 ∧
      (forwarded es).all (fun p => !p.header.padding) = true := by decide +kernel
  have hexec : ∃ s, Run forwardStep (fun _ _ => True) (Forwarder.start 3) es s ∧ True :=
    exists_run_of_exec (by decide +kernel)
  rcases hexec with ⟨s, hrun, _⟩
  refine ⟨es, s, hrun, hpackets.1, (bridged_iff 3 es s hrun).mpr fun p hp => ?_⟩
  exact Bool.not_eq_true' _ |>.mp (List.all_eq_true.mp hpackets.2 p hp)

/-- A padded packet that is accepted leaves the bridge as one that is not. -/
theorem not_bridged_paddedDatagram :
    ∃ es s, Run forwardStep (fun _ _ => True) (Forwarder.start 3) es s ∧
      ¬ Bridged 3 (forwarded es) s.written := by
  let es : List ForwardEvent := [.datagram paddedDatagram false true]
  have hexec : ∃ s, Run forwardStep (fun _ _ => True) (Forwarder.start 3) es s ∧
      (s.written[0]?).any (fun d => (unmarshalRTP d).toOption.isNone) = true :=
    exists_run_of_exec (by decide +kernel)
  rcases hexec with ⟨s, hrun, hout⟩
  rcases (Option.any_eq_true ..).mp hout with ⟨d, hd, hnone⟩
  have hin : ((forwarded es)[0]?).isSome = true := by decide +kernel
  refine ⟨es, s, hrun, fun hb => ?_⟩
  rcases hb.2 0 _ d (some_get hin).symm hd with ⟨q, hq, _⟩
  rw [hq] at hnone
  cases hnone

end Media

end Trecs
