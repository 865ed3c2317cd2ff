import Trecs.Lib.Consumed
import Trecs.Lib.Machine
import Trecs.Proto.Framing

/-!
# The Read Loop of a TCP Connection

`startReader` of `internal/sip/transport.go` reads messages from a connection.
Between messages `drainCRLFKeepalive` takes the keepalives of RFC 5626 off the
stream: a double CRLF is a ping, which it answers, and a single one is a pong.

The drain reads byte by byte and has a place for each byte of a double CRLF. It
sets the read deadline when it is entered. A deadline that expires makes it
return, and so does a byte that belongs to no keepalive, which it puts back.
Then the loop sets the deadline once more and calls `UnmarshalSIP`. A timeout in
there starts the next turn of the loop, and any other error closes the
connection.

A place in the code together with a reader is a state here, and a step is one
`ReadByte` or one call of `UnmarshalSIP`. A state without a step is one that
waits for the peer, or the end of the loop.

Where a deadline expires decides what the loop makes of it. `Harmless` says
where it may. While the loop drains and has read nothing, an expiry only moves
it on into `UnmarshalSIP`; there another one moves it back. But a keepalive that
arrives while `UnmarshalSIP` waits is taken for a start line, and an expiry that
finds the drain in the middle of a double CRLF hands the rest of it to
`UnmarshalSIP`, with the same result.

## Main definitions

* `ReadLoop`, `readLoopStep`: The loop and its steps.
* `Sent`: What a peer sends.
* `Harmless`: Expiries that do not disturb the loop.
* `Delivers`: The loop delivers what was sent and then waits.

## Theorems

* `reaches_crlf_idle`, `reaches_crlf_half`, `reaches_message`: Keepalives and messages.
* `delivers_of_harmless`: With harmless expiries everything is delivered.
-/

namespace Trecs

open List Option

namespace Sip

open Reader Proto

/-! ### The loop -/

/-- A place in the loop: in the drain, after the part of a double CRLF that the
    name says, in front of `UnmarshalSIP`, or after the connection was closed.
    A panic ends the program. -/
inductive Place where
  | drain
  | sawCR
  | sawCRLF
  | sawCRLFCR
  | parse
  | closed
  | crashed
deriving Repr, DecidableEq

/-- The loop, with the messages it has delivered and the pongs it has sent. -/
structure ReadLoop where
  place : Place
  reader : Reader
  delivered : List SIPMessage
  pongs : Nat

namespace ReadLoop

/-- The drain returns, and the loop goes on to `UnmarshalSIP` with a new
    deadline. -/
def enterParse (s : ReadLoop) (r : Reader) : ReadLoop :=
  { s with place := .parse, reader := r.setReadDeadline }

/-- The loop calls the drain, which sets a new deadline. -/
def enterDrain (s : ReadLoop) (r : Reader) : ReadLoop :=
  { s with place := .drain, reader := r.setReadDeadline }

/-- `ReadByte` failed in the drain. `unread` is the reader with the last byte
    put back where the source puts it back. -/
def readFailed (s : ReadLoop) (e : ReadError) (r unread : Reader) : ReadLoop :=
  match e with
  | .timeout => s.enterParse unread
  | _ => { s with place := .closed, reader := r }

/-- The loop after `UnmarshalSIP` has returned. -/
def parsed (s : ReadLoop) (res : Except Fault SIPMessage) (r : Reader) : ReadLoop :=
  match res with
  | .ok m => { s.enterDrain r with delivered := s.delivered ++ [m] }
  | .error (.error e) =>
    if e.isTimeout then s.enterDrain r else { s with place := .closed, reader := r }
  | .error .panic => { s with place := .crashed, reader := r }

end ReadLoop

/-- One step of the loop. `none` is a read that waits for ever, or the end. -/
def readLoopStep (s : ReadLoop) : Option ReadLoop :=
  match s.place with
  | .drain =>
    match s.reader.readByte with
    | none => none
    | some (.error e, r) => some (s.readFailed e r r)
    | some (.ok b, r) =>
      if b ≠ CR then some (s.enterParse r.unreadByte)
      else some { s with place := .sawCR, reader := r }
  | .sawCR =>
    match s.reader.readByte with
    | none => none
    | some (.error e, r) => some (s.readFailed e r r.unreadByte)
    | some (.ok b, r) =>
      if b ≠ LF then some (s.enterParse r) else some { s with place := .sawCRLF, reader := r }
  | .sawCRLF =>
    match s.reader.readByte with
    | none => none
    | some (.error e, r) => some (s.readFailed e r r.unreadByte)
    | some (.ok b, r) =>
      if b ≠ CR then some (s.enterParse r.unreadByte)
      else some { s with place := .sawCRLFCR, reader := r }
  | .sawCRLFCR =>
    match s.reader.readByte with
    | none => none
    | some (.error e, r) => some (s.readFailed e r r.unreadByte)
    | some (.ok b, r) =>
      if b ≠ LF then some (s.enterParse r)
      else some { s with place := .drain, reader := r, pongs := s.pongs + 1 }
  | .parse => (Parser.run unmarshalSIP s.reader).map (fun p => s.parsed p.1 p.2)
  | .closed => none
  | .crashed => none

/-- The loop when it starts on a connection. -/
def startReader (r : Reader) : ReadLoop :=
  { place := .drain, reader := r.setReadDeadline, delivered := [], pongs := 0 }

/-! ### What is sent -/

/-- A message, with compact header names or without, or a CRLF. A ping is two
    CRLFs in a row and a pong is one. -/
inductive Sent where
  | message (compact : Bool) (m : SIPMessage)
  | crlf

namespace Sent

/-- What a peer puts on the stream. -/
def text : Sent → Bytes
  | message compact m => match serialise compact m with
    | .ok out => out
    | .error _ => []
  | crlf => Trecs.crlf

/-- The messages that are sent are well-formed. -/
def WellFormed : Sent → Prop
  | message _ m => Proto.WellFormed m
  | crlf => True

/-- The message that is sent, if it is one. -/
def message? : Sent → Option SIPMessage
  | message _ m => some m
  | crlf => none

end Sent

/-- The text of all that is sent. -/
def streamText (items : List Sent) : Bytes := items.flatMap Sent.text

/-- The messages among what is sent. -/
def messages (items : List Sent) : List SIPMessage := items.filterMap Sent.message?

/-- The loop delivers the messages that were sent, in order, and then waits for
    more on an open connection. -/
def Delivers (s : ReadLoop) (items : List Sent) : Prop :=
  ∃ t ms, Halts readLoopStep s t ∧ (t.place ≠ .closed ∧ t.place ≠ .crashed) ∧
    t.delivered = s.delivered ++ ms ∧ List.Forall₂ SameMessage (messages items) ms

/-- The states the loop waits in: draining with nothing read, draining after one
    CRLF of a pair, and inside `UnmarshalSIP`. -/
inductive Waiting where
  | idle
  | half
  | parsing
deriving Repr, DecidableEq

/-- Expiries that do not disturb the loop. They come between what is sent. None
    comes after the first CRLF of a pair, and none that sends the loop into
    `UnmarshalSIP` is followed by a CRLF before there was another one. -/
inductive Harmless : Waiting → List Sent → List Token → Prop where
  | done (w : Waiting) : Harmless w [] []
  | expiryIdle {items ts} (h : Harmless .parsing items ts) : Harmless .idle items (.expiry :: ts)
  | expiryParsing {items ts} (h : Harmless .idle items ts) :
      Harmless .parsing items (.expiry :: ts)
  | crlfIdle {items ts} (h : Harmless .half items ts) :
      Harmless .idle (.crlf :: items) (crlf.map .byte ++ ts)
  | crlfHalf {items ts} (h : Harmless .idle items ts) :
      Harmless .half (.crlf :: items) (crlf.map .byte ++ ts)
  | message (w : Waiting) (compact : Bool) (m : SIPMessage) {items ts}
      (h : Harmless .idle items ts) :
      Harmless w (.message compact m :: items) ((Sent.message compact m).text.map .byte ++ ts)

/-! ### Where the loop stands -/

/-- The byte that the drain puts back when a deadline expires at a place. -/
def Place.held : Place → Option UInt8
  | .sawCR => some CR
  | .sawCRLF => some LF
  | .sawCRLFCR => some CR
  | _ => none

/-- The places where the loop has a call of `ReadByte` to make. -/
def Place.draining : Place → Bool
  | .drain => true
  | .sawCR => true
  | .sawCRLF => true
  | .sawCRLFCR => true
  | _ => false

/-- Where a byte takes the drain. -/
def Place.after (p : Place) (b : UInt8) : Place :=
  match p with
  | .drain => if b ≠ CR then .parse else .sawCR
  | .sawCR => if b ≠ LF then .parse else .sawCRLF
  | .sawCRLF => if b ≠ CR then .parse else .sawCRLFCR
  | .sawCRLFCR => if b ≠ LF then .parse else .drain
  | _ => p

/-- The bytes that are left to `UnmarshalSIP` of the one the drain read: the
    byte itself where a CR was possible, and nothing where a LF was. -/
def Place.returned (p : Place) (b : UInt8) : Bytes :=
  match p with
  | .drain => if b ≠ CR then [b] else []
  | .sawCRLF => if b ≠ CR then [b] else []
  | _ => []

/-- The loop on an open connection with a live deadline. A byte that it may put
    back is the last one that was read. -/
structure Stands (s : ReadLoop) (ts : List Token) : Prop where
  reader : At s.reader false ts
  last : ∀ b ∈ s.place.held, s.reader.last = some b

variable {r : Reader} {c : Bool} {w : Waiting} {s : ReadLoop} {b : UInt8} {ts : List Token}

theorem at_setReadDeadline_of_at (h : At r c ts) :
    At r.setReadDeadline c ts := ⟨h.tokens, rfl, h.closed⟩

theorem stands_startReader (h : At r false ts) : Stands (startReader r) ts :=
  ⟨at_setReadDeadline_of_at h, by simp only [startReader, Place.held, mem_def, reduceCtorEq,
    false_implies, implies_true]⟩

theorem stands_enterParse (s : ReadLoop) (h : At r.setReadDeadline false ts) :
    Stands (s.enterParse r) ts :=
  ⟨h, by simp only [ReadLoop.enterParse, Place.held, mem_def, reduceCtorEq, false_implies,
    implies_true]⟩

/-- Setting the deadline commutes with putting a byte back. -/
theorem at_unreadByte_setReadDeadline (b : UInt8) (h : At r.setReadDeadline c ts)
    (hl : r.last = some b) : At r.unreadByte.setReadDeadline c (.byte b :: ts) := by
  have hback := at_unreadByte (r := r.setReadDeadline) b h hl
  unfold unreadByte at hback ⊢
  rw [hl]
  rw [show r.setReadDeadline.last = some b from hl] at hback
  exact hback

/-- The drain reads a byte. -/
theorem step_byte (h : Stands s (.byte b :: ts)) (hp : s.place.draining = true) :
    ∃ s', readLoopStep s = some s' ∧ s'.place = s.place.after b ∧ s'.delivered = s.delivered ∧
      Stands s' ((s.place.returned b).map .byte ++ ts) := by
  rcases readByte_byte b h.reader with ⟨r', hr, hat, hlast⟩
  have hback : At r'.unreadByte.setReadDeadline false (.byte b :: ts) :=
    at_setReadDeadline_of_at (at_unreadByte b hat hlast)
  have hheld : ∀ c, b = c → ∀ x ∈ some c, r'.last = some x :=
    fun c hc x hx => by rw [hlast, hc, mem_some.mp hx]
  unfold readLoopStep
  rcases hplace : s.place with _ | _ | _ | _ | _ | _ | _
  -- A byte that is not a CR goes back to the reader.
  case drain =>
    by_cases hb : b = CR
    · simp only [hr, Place.after, Place.returned, hb, ne_eq, not_true_eq_false, if_false]
      exact ⟨_, rfl, rfl, rfl, hat, hheld _ hb⟩
    · simp only [hr, Place.after, Place.returned, ne_eq, hb, not_false_eq_true, if_true]
      exact ⟨_, rfl, rfl, rfl, stands_enterParse s hback⟩
  case sawCRLF =>
    by_cases hb : b = CR
    · simp only [hr, Place.after, Place.returned, hb, ne_eq, not_true_eq_false, if_false]
      exact ⟨_, rfl, rfl, rfl, hat, hheld _ hb⟩
    · simp only [hr, Place.after, Place.returned, ne_eq, hb, not_false_eq_true, if_true]
      exact ⟨_, rfl, rfl, rfl, stands_enterParse s hback⟩
  -- A byte that is not a LF is lost, with the CR in front of it.
  case sawCR =>
    by_cases hb : b = LF
    · simp only [hr, Place.after, Place.returned, hb, ne_eq, not_true_eq_false, if_false]
      exact ⟨_, rfl, rfl, rfl, hat, hheld _ hb⟩
    · simp only [hr, Place.after, Place.returned, ne_eq, hb, not_false_eq_true, if_true]
      exact ⟨_, rfl, rfl, rfl, stands_enterParse s (at_setReadDeadline_of_at hat)⟩
  case sawCRLFCR =>
    by_cases hb : b = LF
    · simp only [hr, Place.after, Place.returned, hb, ne_eq, not_true_eq_false, if_false]
      refine ⟨_, rfl, rfl, rfl, hat, ?_⟩
      simp [Place.held]
    · simp only [hr, Place.after, Place.returned, ne_eq, hb, not_false_eq_true, if_true]
      exact ⟨_, rfl, rfl, rfl, stands_enterParse s (at_setReadDeadline_of_at hat)⟩
  all_goals
    rw [hplace] at hp
    exact absurd hp (by decide)

/-- The deadline expires in the drain. -/
theorem step_drain_expiry (h : Stands s (.expiry :: ts)) (hp : s.place.draining = true) :
    ∃ s', readLoopStep s = some s' ∧ s'.place = .parse ∧ s'.delivered = s.delivered ∧
      Stands s' (s.place.held.toList.map .byte ++ ts) := by
  rcases readByte_expiry h.reader with ⟨r', hr, hlast, hat⟩
  have hback : ∀ b ∈ s.place.held, At r'.unreadByte.setReadDeadline false (.byte b :: ts) :=
    fun b hb => at_unreadByte_setReadDeadline b hat (hlast.trans (h.last b hb))
  unfold readLoopStep
  rcases hplace : s.place with _ | _ | _ | _ | _ | _ | _
  case drain =>
    simp only [hr]
    exact ⟨_, rfl, rfl, rfl, stands_enterParse s hat⟩
  case parse | closed | crashed =>
    rw [hplace] at hp
    exact absurd hp (by decide)
  all_goals
    rw [hplace] at hback
    simp only [hr]
    exact ⟨_, rfl, rfl, rfl, stands_enterParse s (hback _ rfl)⟩

theorem step_drain_wait (h : Stands s []) (hp : s.place.draining = true) :
    readLoopStep s = none := by
  unfold readLoopStep
  rw [readByte_wait h.reader]
  rcases hplace : s.place with _ | _ | _ | _ | _ | _ | _
  case parse =>
    rw [hplace] at hp
    exact absurd hp (by decide)
  all_goals rfl

/-! ### Calls of `UnmarshalSIP` -/

theorem readLoopStep_parse (hp : s.place = .parse) :
    readLoopStep s = (Parser.run unmarshalSIP s.reader).map (fun p => s.parsed p.1 p.2) := by
  unfold readLoopStep
  rw [hp]

theorem stands_enterDrain (s : ReadLoop) (h : At r.setReadDeadline false ts) :
    Stands (s.enterDrain r) ts :=
  ⟨h, by simp only [ReadLoop.enterDrain, Place.held, mem_def, reduceCtorEq, false_implies,
    implies_true]⟩

/-- A start line that could not be read. -/
theorem unmarshalSIP_of_readLine_error {r r' : Reader} {e : GoError}
    (h : Parser.run readLine r = some (.error (.error e), r')) :
    Parser.run unmarshalSIP r =
      some (unmarshalErrorWrap e (ascii "error reading start-line"), r') := by
  have hstart : Parser.run readStartLine r =
      some (unmarshalErrorWrap e (ascii "error reading start-line"), r') := by
    rw [readStartLine, Parser.run_mk, h]
    rfl
  exact Parser.run_bind_error _ hstart

theorem step_parse_wait (h : Stands s []) (hp : s.place = .parse) : readLoopStep s = none := by
  have hline : Parser.run readLine s.reader = none := by
    rw [readLine, Parser.run_mk, readString_wait LF h.reader]
    rfl
  rw [readLoopStep_parse hp, unmarshalSIP, unmarshalSIPFrom, Parser.run_bind, readStartLine,
    Parser.run_mk, hline]
  rfl

/-- A deadline that expires in front of a start line starts the loop again. -/
theorem step_parse_expiry (h : Stands s (.expiry :: ts)) (hp : s.place = .parse) :
    ∃ s', readLoopStep s = some s' ∧ s'.place = .drain ∧ s'.delivered = s.delivered ∧
      Stands s' ts := by
  have hat : At s.reader false (([] : Bytes).map .byte ++ .expiry :: ts) := h.reader
  rcases readString_expiry LF [] (not_mem_nil) hat with ⟨r', hr, _, hat'⟩
  have hline : Parser.run readLine s.reader = some (.error (.error (.read .timeout)), r') := by
    rw [readLine, Parser.run_mk, hr]
    rfl
  refine ⟨s.enterDrain r', ?_, rfl, rfl, stands_enterDrain s hat'⟩
  rw [readLoopStep_parse hp, unmarshalSIP_of_readLine_error hline]
  rfl

/-- A message is delivered. -/
theorem step_parse_message (compact : Bool) (m : SIPMessage) (hwf : WellFormed m)
    (h : Stands s ((Sent.message compact m).text.map .byte ++ ts)) (hp : s.place = .parse) :
    ∃ s' m', readLoopStep s = some s' ∧ s'.place = .drain ∧
      s'.delivered = s.delivered ++ [m'] ∧ SameMessage m m' ∧ Stands s' ts := by
  rcases writable_of_wellFormed m compact hwf with ⟨sl, hw⟩
  have htext : (Sent.message compact m).text = m.wire sl compact := by
    rw [Sent.text, serialise_eq compact m hwf sl hw.startLine]
  have hat := h.reader
  rw [htext] at hat
  rcases unmarshalSIPFrom_wire true m sl compact hw hat with ⟨m', r', hrun, hsame, hat'⟩
  have hdrain := stands_enterDrain s (at_setReadDeadline_of_at hat')
  refine ⟨s.parsed (.ok m') r', m', ?_, rfl, rfl, hsame, hdrain.reader, hdrain.last⟩
  rw [readLoopStep_parse hp, unmarshalSIP, hrun]
  rfl

/-! ### Whole items -/

/-- The loop waits at a place, with the given tokens to come. -/
def Waiting.place : Waiting → Place
  | idle => .drain
  | half => .sawCRLF
  | parsing => .parse

/-- The loop waits, with the given tokens to come. -/
structure Waits (w : Waiting) (s : ReadLoop) (ts : List Token) : Prop where
  stands : Stands s ts
  place : s.place = w.place

/-- Two bytes that the drain takes without putting one back. -/
theorem reaches_two {a b : UInt8} {ts : List Token} (p p' : Place)
    (h : Stands s (.byte a :: .byte b :: ts)) (hp : s.place.draining = true)
    (hp' : p.draining = true) (ha : s.place.after a = p ∧ s.place.returned a = [])
    (hb : p.after b = p' ∧ p.returned b = []) :
    ∃ s', Reaches readLoopStep s s' ∧ s'.place = p' ∧ s'.delivered = s.delivered ∧
      Stands s' ts := by
  rcases step_byte h hp with ⟨s₁, hs₁, hplace₁, hdel₁, hstands₁⟩
  rw [ha.2, map_nil, nil_append] at hstands₁
  rw [ha.1] at hplace₁
  rcases step_byte hstands₁ (hplace₁ ▸ hp') with ⟨s₂, hs₂, hplace₂, hdel₂, hstands₂⟩
  rw [hplace₁, hb.2, map_nil, nil_append] at hstands₂
  rw [hplace₁, hb.1] at hplace₂
  exact ⟨s₂, .step hs₁ (.step hs₂ (.refl s₂)), hplace₂, hdel₂.trans hdel₁, hstands₂⟩

/-- The first CRLF of a pair, or a pong. -/
theorem reaches_crlf_idle (h : Waits .idle s (crlf.map .byte ++ ts)) :
    ∃ s', Reaches readLoopStep s s' ∧ s'.delivered = s.delivered ∧ Waits .half s' ts := by
  have hp : s.place = .drain := h.place
  rcases reaches_two (a := CR) (b := LF) .sawCR .sawCRLF h.stands (by rw [hp]; rfl) rfl
    (by rw [hp]; decide) (by decide) with ⟨s', hs', hplace, hdel, hstands⟩
  exact ⟨s', hs', hdel, hstands, hplace⟩

/-- The second CRLF of a pair. -/
theorem reaches_crlf_half (h : Waits .half s (crlf.map .byte ++ ts)) :
    ∃ s', Reaches readLoopStep s s' ∧ s'.delivered = s.delivered ∧ Waits .idle s' ts := by
  have hp : s.place = .sawCRLF := h.place
  rcases reaches_two (a := CR) (b := LF) .sawCRLFCR .drain h.stands (by rw [hp]; rfl) rfl
    (by rw [hp]; decide) (by decide) with ⟨s', hs', hplace, hdel, hstands⟩
  exact ⟨s', hs', hdel, hstands, hplace⟩

/-- A message starts with a byte of its start line, which has no CR in it. -/
theorem text_message_cons (compact : Bool) (m : SIPMessage) (hwf : WellFormed m) :
    ∃ b rest, (Sent.message compact m).text = b :: rest ∧ b ≠ CR := by
  rcases hwf.start with ⟨sl, hsl, hstart⟩
  have htext : (Sent.message compact m).text = m.wire sl compact := by
    rw [Sent.text, serialise_eq compact m hwf sl hsl]
  have hplain := plain_startLine sl hstart
  rw [htext, SIPMessage.wire, wireHead_eq, headLines, sectionText_cons]
  rcases ht : sl.text with _ | ⟨b, bs⟩
  · exact absurd ht hplain.ne_nil
  · exact ⟨b, _, rfl, fun hb => hplain.cr (by rw [ht, hb]; exact mem_cons_self)⟩

/-- A byte that is not a CR moves a waiting loop on into `UnmarshalSIP`. -/
theorem reaches_parse (h : Waits w s (.byte b :: ts)) (hb : b ≠ CR) :
    ∃ s', Reaches readLoopStep s s' ∧ s'.delivered = s.delivered ∧
      Waits .parsing s' (.byte b :: ts) := by
  have hp := h.place
  cases w with
  | parsing => exact ⟨s, .refl s, rfl, h⟩
  | idle | half =>
    rcases step_byte h.stands (by rw [hp]; rfl) with ⟨s', hs', hplace, hdel, hstands⟩
    rw [hp] at hplace hstands
    simp only [Waiting.place, Place.after, Place.returned, ne_eq, hb, not_false_eq_true,
      if_true] at hplace hstands
    exact ⟨s', .step hs' (.refl s'), hdel, hstands, hplace⟩

/-- A message is delivered, wherever the loop waits for it. -/
theorem reaches_message (compact : Bool) (m : SIPMessage) (hwf : WellFormed m)
    (h : Waits w s ((Sent.message compact m).text.map .byte ++ ts)) :
    ∃ s' m', Reaches readLoopStep s s' ∧ s'.delivered = s.delivered ++ [m'] ∧
      SameMessage m m' ∧ Waits .idle s' ts := by
  rcases text_message_cons compact m hwf with ⟨b, rest, htext, hb⟩
  rw [htext, map_cons, cons_append] at h
  rcases reaches_parse h hb with ⟨s₁, hs₁, hdel₁, hwaits₁⟩
  have hstands₁ := hwaits₁.stands
  rw [← cons_append, ← map_cons, ← htext] at hstands₁
  rcases step_parse_message compact m hwf hstands₁ hwaits₁.place with
    ⟨s₂, m', hs₂, hplace, hdel₂, hsame, hstands₂⟩
  exact ⟨s₂, m', hs₁.trans (.step hs₂ (.refl s₂)), by rw [hdel₂, hdel₁], hsame, hstands₂, hplace⟩

theorem step_expiry {w w' : Waiting} {s : ReadLoop} {ts : List Token}
    (h : Waits w s (.expiry :: ts))
    (hw : (w = .idle ∧ w' = .parsing) ∨ (w = .parsing ∧ w' = .idle)) :
    ∃ s', Reaches readLoopStep s s' ∧ s'.delivered = s.delivered ∧ Waits w' s' ts := by
  have hp := h.place
  rcases hw with ⟨rfl, rfl⟩ | ⟨rfl, rfl⟩
  · rcases step_drain_expiry h.stands (by rw [hp]; rfl) with ⟨s', hs', hplace, hdel, hstands⟩
    rw [hp] at hstands
    exact ⟨s', .step hs' (.refl s'), hdel, hstands, hplace⟩
  · rcases step_parse_expiry h.stands hp with ⟨s', hs', hplace, hdel, hstands⟩
    exact ⟨s', .step hs' (.refl s'), hdel, hstands, hplace⟩

theorem step_wait (h : Waits w s []) : readLoopStep s = none := by
  have hp := h.place
  cases w with
  | parsing => exact step_parse_wait h.stands hp
  | idle | half => exact step_drain_wait h.stands (by rw [hp]; rfl)

/-! ### Delivery -/

/-- Steps in front of a delivery. -/
theorem Delivers.prepend {s s' : ReadLoop} {items : List Sent} (h : Delivers s' items)
    (hr : Reaches readLoopStep s s') (hd : s'.delivered = s.delivered) : Delivers s items := by
  rcases h with ⟨t, ms, hhalt, hopen, hdel, hsame⟩
  exact ⟨t, ms, hhalt.prepend hr, hopen, hd ▸ hdel, hsame⟩

/-- With harmless expiries everything is delivered. -/
theorem delivers_of_harmless {items : List Sent} {ts : List Token} (hok : Harmless w items ts)
    (hwf : ∀ i ∈ items, i.WellFormed) {s : ReadLoop} (h : Waits w s ts) : Delivers s items := by
  induction hok generalizing s with
  | done w =>
    refine ⟨s, [], ⟨.refl s, step_wait h⟩, ?_, (append_nil _).symm, .nil⟩
    rw [h.place]
    cases w <;> decide
  | expiryIdle _ ih =>
    rcases step_expiry h (.inl ⟨rfl, rfl⟩) with ⟨s', hs', hdel, hwaits⟩
    exact (ih hwf hwaits).prepend hs' hdel
  | expiryParsing _ ih =>
    rcases step_expiry h (.inr ⟨rfl, rfl⟩) with ⟨s', hs', hdel, hwaits⟩
    exact (ih hwf hwaits).prepend hs' hdel
  | crlfIdle _ ih =>
    rcases reaches_crlf_idle h with ⟨s', hs', hdel, hwaits⟩
    exact (ih (fun i hi => hwf i (.tail _ hi)) hwaits).prepend hs' hdel
  | crlfHalf _ ih =>
    rcases reaches_crlf_half h with ⟨s', hs', hdel, hwaits⟩
    exact (ih (fun i hi => hwf i (.tail _ hi)) hwaits).prepend hs' hdel
  | message w compact m _ ih =>
    rcases reaches_message compact m (hwf _ (.head _)) h with
      ⟨s', m', hs', hdel, hsame, hwaits⟩
    rcases ih (fun i hi => hwf i (.tail _ hi)) hwaits with ⟨t, ms, hhalt, hopen, ht, hms⟩
    refine ⟨t, m' :: ms, hhalt.prepend hs', hopen, ?_, .cons hsame hms⟩
    rw [ht, hdel, append_assoc, singleton_append]

end Sip

end Trecs
