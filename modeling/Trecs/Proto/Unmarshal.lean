import Trecs.Lib.Bufio
import Trecs.Lib.Outcome
import Trecs.Lib.Parser
import Trecs.Proto.Sip

/-!
# Reading SIP Messages

The parser of `proto/sip.go` and `proto/proto_read.go`: a start line, header
lines with their continuations, and a body.

Two details of `readLine` shape everything above it. A line ends at a line feed
and only the pair CR LF is cut off, so a line that ends in a bare line feed
keeps it. And an error is reported only when nothing was read before it, so a
line that an error interrupts passes for a complete one.

A loop of the source runs as long as there is input. Each turn takes at least
one byte from the reader, and the loops here have the number of tokens left as
their fuel.

A datagram is parsed from a reader of its own. What is left in it after the
body is discarded, which nothing can observe and the model leaves out.

## Main definitions

* `GoError`, `Fault`: What a call returns instead of a message, or a panic.
* `readLine`, `readContinuedLine`: Lines.
* `unmarshalHeaders`: The header section.
* `unmarshalStartLine`, `unmarshalCSeq`, `unmarshalMethod`: Their contents.
* `unmarshalSIPFrom`: A message, from a stream or from a datagram.
* `unmarshalSIP`, `unmarshalSIPDatagram`: The two entry points.
-/

namespace Trecs

namespace Proto

/-- The errors the parser returns: one from the connection, one from
    `strconv.Atoi` with its argument, and an `UnmarshalError` without and with a
    cause. -/
inductive GoError where
  | read (e : ReadError)
  | num (e : NumError) (arg : Bytes)
  | failed (msg : Bytes)
  | wrap (cause : GoError) (msg : Bytes)
deriving Repr, DecidableEq

/-- Whether an error is a timeout, as `errors.As` with `net.Error` finds it. -/
def GoError.isTimeout : GoError → Bool
  | read .timeout => true
  | wrap cause _ => cause.isTimeout
  | _ => false

/-- Whether `errors.Is` finds `io.EOF` in an error. -/
def GoError.isEOF : GoError → Bool
  | read .eof => true
  | wrap cause _ => cause.isEOF
  | _ => false

/-- How a call ends other than with a value. -/
inductive Fault where
  | error (e : GoError)
  | panic
deriving Repr, DecidableEq

/-- A parser on a buffered reader. -/
abbrev Parse (α : Type) := Parser Reader Fault α

/-- Failing with an `UnmarshalError` that has no cause. -/
def unmarshalErrorf {α : Type} (msg : Bytes) : Except Fault α := .error (.error (.failed msg))

/-- Failing with an `UnmarshalError` around a cause. -/
def unmarshalErrorWrap {α : Type} (cause : GoError) (msg : Bytes) : Except Fault α :=
  .error (.error (.wrap cause msg))

/-- A check that was passed. -/
theorem check_eq_ok {α : Type} {c : Prop} [Decidable c] {msg : Bytes} {x : Except Fault α} {a : α}
    (h : (if c then unmarshalErrorf msg else x) = .ok a) : ¬ c ∧ x = .ok a := guard_eq_ok h

/-- One line without its CR LF. An error counts only if nothing came before
    it. -/
def readLine : Parse Bytes := .mk fun r =>
  (r.readString LF).map fun p => match p.1.2 with
    | some e => if p.1.1 = [] then (.error (.error (.read e)), p.2)
        else (.ok (trimSuffix crlf p.1.1), p.2)
    | none => (.ok (trimSuffix crlf p.1.1), p.2)

/-- The bytes `strings.TrimRight` takes off before a continuation is added. -/
def blank (b : UInt8) : Bool := b == SP || b == HT || b == CR

/-- The loop of `readContinuedLine`: a line that starts with a space or a tab
    continues the one before it. An error of `Peek` ends the line. -/
def continueLine : Nat → Bytes → Parse Bytes
  | 0, _ => .mk fun _ => none
  | fuel + 1, line => .mk fun r =>
    match r.peek with
    | none => none
    | some (.error _, r) => some (.ok line, r)
    | some (.ok b, r) =>
      if b ≠ SP ∧ b ≠ HT then some (.ok line, r)
      else Parser.run (do
        let cont ← readLine
        continueLine fuel (line.rdropWhile blank ++ cont)) r

/-- A line with the lines that continue it. -/
def readContinuedLine : Parse Bytes := do
  let line ← readLine
  if line = [] then pure line
  else .mk fun r => Parser.run (continueLine (r.tokens.length + 1) line) r

/-- A header line, with the errors of `unmarshalHeaders`. -/
def readHeaderLine : Parse Bytes := .mk fun r =>
  (Parser.run readContinuedLine r).map fun p => match p.1 with
    | .error (.error e) =>
      if e.isEOF then
        (unmarshalErrorWrap (.read .eof) (ascii "header terminated prematurely"), p.2)
      else (unmarshalErrorWrap e (ascii "Failed to read headers"), p.2)
    | res => (res, p.2)

/-- The key that the name on a header line is stored under. -/
def wireKey (k : Bytes) : Bytes := canonicalHeaderKey ((compactHeaders k).getD k)

/-- The loop of `unmarshalHeaders`. -/
def unmarshalHeaderLines : Nat → SIPHeaders → Parse SIPHeaders
  | 0, _ => .mk fun _ => none
  | fuel + 1, h => do
    let line ← readHeaderLine
    if line = [] then pure h
    else
      match cut 58 line with
      | none => .mk fun r => some (unmarshalErrorf (ascii "Invalid header: " ++ line), r)
      | some (k, v) =>
        unmarshalHeaderLines fuel (SIPHeaders.push h (wireKey k) (v.dropWhile (· == SP)))

/-- The header section, up to and including the empty line that ends it. -/
def unmarshalHeaders : Parse SIPHeaders :=
  .mk fun r => Parser.run (unmarshalHeaderLines (r.tokens.length + 1) ∅) r

/-- The method a text names. -/
def unmarshalMethod (v : Bytes) : Except Fault SIPMethod :=
  match SIPMethod.known.find? (fun m => m.text = v) with
  | some m => .ok m
  | none => unmarshalErrorf (ascii "Invalid Method: " ++ v)

/-- The start line: a status line if its first word starts with `SIP/`, and a
    request line otherwise. -/
def unmarshalStartLine (s : Bytes) : Except Fault StartLine :=
  match cut SP s with
  | none => unmarshalErrorf (ascii "Invalid start-line: " ++ s)
  | some (t0, rest) =>
    match cut SP rest with
    | none => unmarshalErrorf (ascii "Invalid start-line: " ++ s)
    | some (t1, t2) =>
      if t1 = [] ∨ t2 = [] then unmarshalErrorf (ascii "Invalid start-line: " ++ s)
      else if sipIndicator.isPrefixOf t0 then
        if t1.length ≠ 3 then unmarshalErrorf (ascii "Invalid start-line status-code: " ++ t1)
        else
          match atoi t1 with
          | .error e =>
            unmarshalErrorWrap (.num e t1) (ascii "Invalid start-line status-code: " ++ t1)
          | .ok sc => .ok (.response t0 (t1 ++ [SP] ++ t2) sc)
      else
        match unmarshalMethod t0 with
        | .error e => .error e
        | .ok m =>
          if sipIndicator.isPrefixOf t2 then .ok (.request m t1 t2)
          else unmarshalErrorf (ascii "Invalid start-line version: " ++ t2)

/-- The CSeq header, which must have exactly one value. -/
def unmarshalCSeq : List Bytes → Except Fault CSeq
  | [] => unmarshalErrorf (ascii "No Cseq value found")
  | _ :: _ :: _ => unmarshalErrorf (ascii "Multipel Cseq values found")
  | [value] =>
    match cut SP value with
    | none => unmarshalErrorf (ascii "Invalid Cseq payload: " ++ value)
    | some (seqStr, methodStr) =>
      match atoi seqStr with
      | .error e => unmarshalErrorWrap (.num e seqStr) (ascii "Invalid Cseq Sequence " ++ seqStr)
      | .ok seq =>
        match unmarshalMethod methodStr with
        | .error (.error e) => unmarshalErrorWrap e (ascii "Invalid Cseq Method")
        | .error .panic => .error .panic
        | .ok method => .ok { method := method, seq := seq }

/-- The largest slice Go can make on a 64-bit machine; a longer one is a
    run-time panic. -/
def maxAlloc : Nat := 2 ^ 48

/-- The value of a Content-Length header. -/
def unmarshalContentLength (clStr : Bytes) : Except Fault Nat :=
  match atoi (trimSpace clStr) with
  | .error e => unmarshalErrorWrap (.num e (trimSpace clStr)) (ascii "invalid Content-Length")
  | .ok n =>
    if n.toInt < 0 then
      unmarshalErrorf (ascii "negative Content-Length: " ++ formatInt n.toInt)
    else if maxAlloc < n.toInt.toNat then .error .panic
    else .ok n.toInt.toNat

/-- A failed read of the body. -/
def bodyError (p : Except ReadError Bytes × Reader) : Except Fault Bytes × Reader :=
  match p.1 with
  | .error e => (unmarshalErrorWrap (.read e) (ascii "error reading body"), p.2)
  | .ok body => (.ok body, p.2)

/-- The body of a message with the given headers. -/
def unmarshalBody (streamed : Bool) (h : SIPHeaders) : Parse Bytes :=
  match h.lookup hContentLength with
  | some (clStr :: _) => .mk fun r =>
    match unmarshalContentLength clStr with
    | .error e => some (.error e, r)
    | .ok n => if 0 < n then (r.readFull n).map bodyError else some (.ok [], r)
  | some [] => .mk fun r => some (.error .panic, r)
  | none => .mk fun r =>
    if streamed then
      some (unmarshalErrorf (ascii "Content-Length required for stream transport"), r)
    else r.readAll.map bodyError

/-- The start line of a message. -/
def readStartLine : Parse StartLine := .mk fun r =>
  (Parser.run readLine r).map fun p => match p.1 with
    | .error (.error e) => (unmarshalErrorWrap e (ascii "error reading start-line"), p.2)
    | .error .panic => (.error .panic, p.2)
    | .ok line => (unmarshalStartLine line, p.2)

/-- The CSeq of a message with the given headers, zero when there is none. -/
def headerCSeq (h : SIPHeaders) : Except Fault CSeq :=
  match h.lookup hCSeq with
  | some values => unmarshalCSeq values
  | none => .ok { method := .none, seq := 0 }

/-- A message, read from a stream or from a datagram. -/
def unmarshalSIPFrom (streamed : Bool) : Parse SIPMessage := do
  let sl ← readStartLine
  let headers ← unmarshalHeaders
  let cseq ← .mk fun r => some (headerCSeq headers, r)
  let body ← unmarshalBody streamed headers
  pure { startLine := some sl, headers := headers, cseq := cseq, body := body }

/-- The next message of a stream. -/
def unmarshalSIP : Parse SIPMessage := unmarshalSIPFrom true

/-- The message in a datagram. -/
def unmarshalSIPDatagram (data : Bytes) : Option (Except Fault SIPMessage) :=
  (Parser.run (unmarshalSIPFrom false) (Reader.ofBytes data)).map Prod.fst

end Proto

end Trecs
