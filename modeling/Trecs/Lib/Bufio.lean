import Trecs.Lib.Bytes

/-!
# Buffered Readers

Go's `bufio.Reader` over a connection that delivers bytes in segments and may
report that a read deadline has expired.

The buffer holds what has been received and not read. When it is empty the next
read of the connection returns the next segment, or the end of the stream if the
peer has closed it, or waits if the peer has not. An expired deadline makes
every read of the connection fail until the deadline is set again; bytes in the
buffer can still be read. A call that waits for a peer that sends nothing more
does not return, and is `none`.

What a caller can observe depends on the bytes and on the places of the
expiries among them, not on how the bytes are cut into segments. `tokens` is
that view, and every operation has a lemma for each shape the next tokens can
have. Later proofs use these lemmas and never look at segments.

The buffer of a `bufio.Reader` has a fixed size. A line longer than that is
collected in pieces, which cannot be seen from outside, so the size is left
out.

## Main definitions

* `Arrival`: A segment, or an expiry of the read deadline.
* `Reader`: A `bufio.Reader` with what is to come from its connection.
* `Reader.readString`, `Reader.peek`, `Reader.readByte`, `Reader.unreadByte`:
  The methods of the same names.
* `Reader.readFull`, `Reader.readAll`: `io.ReadFull` and `io.ReadAll`.
* `Reader.At`: The tokens a reader with a live deadline has yet to deliver.
* `Reader.Dead`: A reader that an expired deadline keeps from reading.
* `Reader.LineEnd`, `Reader.FullEnd`: The ways `ReadString` and `io.ReadFull` end.

## Theorems

* `Reader.lineEnd_readString`, `Reader.fullEnd_readFull`: How a call ends.
* `Reader.readString_line`, `Reader.readString_eof`, `Reader.readString_expiry`:
  What `ReadString` returns.
-/

namespace Trecs

open List

/-- What the connection has in store: a segment of at least one byte, or the
    expiry of the read deadline. -/
inductive Arrival where
  | data (b : UInt8) (bs : Bytes)
  | expiry
deriving Repr, DecidableEq

/-- A byte or an expiry. -/
inductive Token where
  | byte (b : UInt8)
  | expiry
deriving Repr, DecidableEq

/-- The ways a read fails. -/
inductive ReadError where
  | eof
  | unexpectedEOF
  | timeout
deriving Repr, DecidableEq

/-- The tokens of one arrival. -/
def Arrival.tokens : Arrival → List Token
  | data b bs => (b :: bs).map .byte
  | expiry => [.expiry]

/-- A buffered reader: the bytes received and not read, what is still to come,
    whether the stream then ends or stays open, whether the deadline has
    expired, and the last byte read. -/
structure Reader where
  buf : Bytes
  src : List Arrival
  closed : Bool
  expired : Bool
  last : Option UInt8

namespace Reader

/-- A reader on a byte string that is there as a whole. -/
def ofBytes : Bytes → Reader
  | [] => ⟨[], [], true, false, none⟩
  | b :: bs => ⟨[], [.data b bs], true, false, none⟩

/-- A reader on an open stream that delivers the given tokens, each byte in a
    segment of its own. -/
def ofTokens (ts : List Token) : Reader :=
  ⟨[], ts.map (fun t => match t with
    | .byte b => .data b []
    | .expiry => .expiry), false, false, none⟩

/-- `SetReadDeadline` with a time that lies in the future. -/
def setReadDeadline (r : Reader) : Reader := { r with expired := false }

/-- The buffer after it was filled, if it was empty, by one read of the
    connection. -/
def available (r : Reader) : Option (Except ReadError (UInt8 × Bytes) × Reader) :=
  match r.buf with
  | b :: bs => some (.ok (b, bs), r)
  | [] =>
    if r.expired then some (.error .timeout, r)
    else
      match r.src with
      | [] => if r.closed then some (.error .eof, r) else none
      | .data b bs :: src => some (.ok (b, bs), { r with buf := b :: bs, src := src })
      | .expiry :: src => some (.error .timeout, { r with src := src, expired := true })

/-- `Peek(1)`. -/
def peek (r : Reader) : Option (Except ReadError UInt8 × Reader) :=
  r.available.map (fun p => (p.1.map Prod.fst, { p.2 with last := none }))

/-- `ReadByte`. -/
def readByte (r : Reader) : Option (Except ReadError UInt8 × Reader) :=
  r.available.map (fun p => match p.1 with
    | .ok (b, bs) => (.ok b, { p.2 with buf := bs, last := some b })
    | .error e => (.error e, p.2))

/-- `UnreadByte`. -/
def unreadByte (r : Reader) : Reader :=
  match r.last with
  | some b => { r with buf := b :: r.buf, last := none }
  | none => r

/-- `ReadString` with a live deadline: the text up to and including the
    delimiter, or what there is before an error. -/
def readStringFrom (delim : UInt8) (r : Reader) (src : List Arrival) (buf : Bytes) :
    Option ((Bytes × Option ReadError) × Reader) :=
  match cut delim buf with
  | some (line, rest) =>
    some ((line ++ [delim], none), { r with buf := rest, src := src, last := some delim })
  | none =>
    match src with
    | [] =>
      if r.closed then
        some ((buf, some .eof), { r with buf := [], src := [], last := buf.getLast?.or r.last })
      else none
    | .data b bs :: src => readStringFrom delim r src (buf ++ b :: bs)
    | .expiry :: src =>
      some ((buf, some .timeout),
        { r with buf := [], src := src, expired := true, last := buf.getLast?.or r.last })

/-- `ReadString`. -/
def readString (delim : UInt8) (r : Reader) : Option ((Bytes × Option ReadError) × Reader) :=
  if r.expired then
    match cut delim r.buf with
    | some (line, rest) =>
      some ((line ++ [delim], none), { r with buf := rest, last := some delim })
    | none => some ((r.buf, some .timeout), { r with buf := [], last := r.buf.getLast?.or r.last })
  else readStringFrom delim r r.src r.buf

/-- `io.ReadFull` of `n` bytes with a live deadline. -/
def readFullFrom (n : Nat) (r : Reader) (src : List Arrival) (buf : Bytes) :
    Option (Except ReadError Bytes × Reader) :=
  if n ≤ buf.length then
    some (.ok (buf.take n),
      { r with buf := buf.drop n, src := src, last := (buf.take n).getLast?.or r.last })
  else
    match src with
    | [] =>
      if r.closed then
        some (.error (if buf = [] then .eof else .unexpectedEOF),
          { r with buf := [], src := [], last := buf.getLast?.or r.last })
      else none
    | .data b bs :: src => readFullFrom n r src (buf ++ b :: bs)
    | .expiry :: src =>
      some (.error .timeout,
        { r with buf := [], src := src, expired := true, last := buf.getLast?.or r.last })

/-- `io.ReadFull` of `n` bytes. -/
def readFull (n : Nat) (r : Reader) : Option (Except ReadError Bytes × Reader) :=
  if r.expired then
    if n ≤ r.buf.length then
      some (.ok (r.buf.take n),
        { r with buf := r.buf.drop n, last := (r.buf.take n).getLast?.or r.last })
    else some (.error .timeout, { r with buf := [], last := r.buf.getLast?.or r.last })
  else readFullFrom n r r.src r.buf

/-- `io.ReadAll` with a live deadline. -/
def readAllFrom (r : Reader) (src : List Arrival) (buf : Bytes) :
    Option (Except ReadError Bytes × Reader) :=
  match src with
  | [] =>
    if r.closed then
      some (.ok buf, { r with buf := [], src := [], last := buf.getLast?.or r.last })
    else none
  | .data b bs :: src => readAllFrom r src (buf ++ b :: bs)
  | .expiry :: src =>
    some (.error .timeout,
      { r with buf := [], src := src, expired := true, last := buf.getLast?.or r.last })

/-- `io.ReadAll`. -/
def readAll (r : Reader) : Option (Except ReadError Bytes × Reader) :=
  if r.expired then
    some (.error .timeout, { r with buf := [], last := r.buf.getLast?.or r.last })
  else readAllFrom r r.src r.buf

/-! ### The view of a caller -/

/-- What a reader has yet to deliver, whatever the segments. -/
def tokens (r : Reader) : List Token := r.buf.map .byte ++ r.src.flatMap Arrival.tokens

/-- A reader with a live deadline that has yet to deliver `ts`. -/
structure At (r : Reader) (closed : Bool) (ts : List Token) : Prop where
  tokens : r.tokens = ts
  live : r.expired = false
  closed : r.closed = closed

/-- A reader whose deadline has expired and that holds no bytes. Every read
    fails. -/
structure Dead (r : Reader) : Prop where
  buf : r.buf = []
  expired : r.expired = true

theorem at_ofBytes (data : Bytes) : At (ofBytes data) true (data.map .byte) := by
  cases data with
  | nil => exact ⟨rfl, rfl, rfl⟩
  | cons b bs =>
    refine ⟨?_, rfl, rfl⟩
    simp [ofBytes, Reader.tokens, Arrival.tokens]

theorem at_ofTokens (ts : List Token) : At (ofTokens ts) false ts := by
  refine ⟨?_, rfl, rfl⟩
  simp only [ofTokens, Reader.tokens, map_nil, nil_append]
  induction ts with
  | nil => rfl
  | cons t ts ih =>
    rw [map_cons, flatMap_cons, ih]
    cases t <;> rfl

theorem byte_injective : Function.Injective Token.byte := fun _ _ h => Token.byte.inj h

/-- Bytes in front of a token list either reach past a text into the token that
    follows it, or end inside the text. -/
theorem map_byte_append_eq (buf a : Bytes) (t : Token) (more ts : List Token)
    (h : buf.map Token.byte ++ more = a.map Token.byte ++ t :: ts) :
    (∃ b rest, buf = a ++ b :: rest ∧ t = .byte b ∧ rest.map Token.byte ++ more = ts) ∨
    (∃ a', a = buf ++ a' ∧ more = a'.map Token.byte ++ t :: ts) := by
  induction buf generalizing a with
  | nil => exact .inr ⟨a, rfl, h⟩
  | cons b bs ih =>
    cases a with
    | nil =>
      simp only [map_cons, map_nil, cons_append, nil_append,
        cons.injEq] at h
      exact .inl ⟨b, bs, rfl, h.1.symm, h.2⟩
    | cons x xs =>
      simp only [map_cons, cons_append, cons.injEq, Token.byte.injEq] at h
      rcases ih xs h.2 with ⟨c, rest, hbs, ht, hrest⟩ | ⟨a', hxs, hmore⟩
      · left
        exact ⟨c, rest, by rw [h.1, hbs]; rfl, ht, hrest⟩
      · right
        exact ⟨a', by rw [h.1, hxs]; rfl, hmore⟩

theorem map_byte_append_data (buf : Bytes) (b : UInt8) (bs : Bytes) (src : List Arrival) :
    buf.map Token.byte ++ (Arrival.data b bs :: src).flatMap Arrival.tokens =
      (buf ++ b :: bs).map Token.byte ++ src.flatMap Arrival.tokens := by
  rw [flatMap_cons, Arrival.tokens, map_append, append_assoc]

/-- A token is an expiry or a byte of the text it is in. -/
theorem mem_of_mem_map_byte {a : Bytes} {b : UInt8} (h : Token.byte b ∈ a.map Token.byte) :
    b ∈ a := by
  rcases List.mem_map.mp h with ⟨x, hx, hb⟩
  exact Token.byte.inj hb ▸ hx

variable {r : Reader} {c : Bool} {ts : List Token} (b d : UInt8) (a : Bytes)

theorem expiry_not_mem_map_byte : Token.expiry ∉ a.map Token.byte := by
  intro h
  rcases List.mem_map.mp h with ⟨_, _, hb⟩
  cases hb

/-- The token that ends a line: the delimiter or an expiry. -/
def Stops (d : UInt8) (t : Token) : Prop := t = .byte d ∨ t = .expiry

theorem Stops.not_mem {d : UInt8} {t : Token} {a : Bytes} (h : Stops d t) (ha : d ∉ a) :
    t ∉ a.map Token.byte := by
  rcases h with rfl | rfl
  · exact fun hm => ha (mem_of_mem_map_byte hm)
  · exact expiry_not_mem_map_byte a

/-- There is one place where a line ends. -/
theorem Stops.unique {d : UInt8} {a l : Bytes} {t t' : Token} {ts ts' : List Token}
    (ht : Stops d t) (ht' : Stops d t') (ha : d ∉ a) (hl : d ∉ l)
    (h : a.map Token.byte ++ t :: ts = l.map Token.byte ++ t' :: ts') :
    a = l ∧ t = t' ∧ ts = ts' := by
  rcases map_byte_append_eq a l t' (t :: ts) ts' h with ⟨b, rest, rfl, rfl, -⟩ | ⟨a', rfl, hmore⟩
  · have hb : d = b := by
      rcases ht' with hb | hb
      · exact (Token.byte.inj hb).symm
      · cases hb
    exact absurd (hb ▸ mem_append_right l mem_cons_self) ha
  · cases a' with
    | nil =>
      rw [map_nil, nil_append, cons.injEq] at hmore
      exact ⟨(append_nil a).symm, hmore⟩
    | cons x xs =>
      rw [map_cons, cons_append, cons.injEq] at hmore
      refine absurd (List.mem_map.mpr ⟨x, ?_, hmore.1.symm⟩) (ht.not_mem hl)
      exact mem_append_right a mem_cons_self

/-- How `ReadString` ends on a live reader with the tokens `ts`: at the delimiter,
    at an expiry, at the end of the stream, or not at all. -/
inductive LineEnd (d : UInt8) (r : Reader) (ts : List Token) :
    Option ((Bytes × Option ReadError) × Reader) → Prop
  | found {a : Bytes} {r' : Reader} (hd : d ∉ a) (hlive : r'.expired = r.expired)
      (hclosed : r'.closed = r.closed) (htok : ts = a.map .byte ++ .byte d :: r'.tokens) :
      LineEnd d r ts (some ((a ++ [d], none), r'))
  | expired {a : Bytes} {r' : Reader} (hd : d ∉ a) (hdead : Dead r')
      (hclosed : r'.closed = r.closed) (htok : ts = a.map .byte ++ .expiry :: r'.tokens) :
      LineEnd d r ts (some ((a, some .timeout), r'))
  | eof {a : Bytes} {r' : Reader} (hd : d ∉ a) (hlive : r'.expired = r.expired)
      (hclosed : r'.closed = r.closed) (hend : r.closed = true) (hnil : r'.tokens = [])
      (htok : ts = a.map .byte) : LineEnd d r ts (some ((a, some .eof), r'))
  | wait {a : Bytes} (hd : d ∉ a) (hopen : r.closed = false) (htok : ts = a.map .byte) :
      LineEnd d r ts none

theorem lineEnd_readStringFrom (r : Reader) (src : List Arrival) (buf : Bytes) :
    LineEnd d r (buf.map Token.byte ++ src.flatMap Arrival.tokens)
      (readStringFrom d r src buf) := by
  fun_induction readStringFrom d r src buf with
  | case1 src buf line rest hcut =>
    rcases (cut_eq_some_iff d buf line rest).mp hcut with ⟨rfl, hd⟩
    refine .found hd rfl rfl ?_
    simp [Reader.tokens]
  | case2 buf hcut hend =>
    exact .eof ((cut_eq_none_iff d buf).mp hcut) rfl rfl hend rfl (append_nil _)
  | case3 buf hcut hopen =>
    exact .wait ((cut_eq_none_iff d buf).mp hcut) (eq_false_of_ne_true hopen) (append_nil _)
  | case4 buf hcut b bs src ih =>
    rw [map_byte_append_data]
    exact ih
  | case5 buf hcut src => exact .expired ((cut_eq_none_iff d buf).mp hcut) ⟨rfl, rfl⟩ rfl rfl

theorem lineEnd_readString (h : At r c ts) : LineEnd d r ts (r.readString d) := by
  rw [readString, h.live, if_neg Bool.false_ne_true, ← h.tokens]
  exact lineEnd_readStringFrom d r r.src r.buf

/-- A complete line comes as it is. -/
theorem readString_line (ts : List Token) (hd : d ∉ a) (h : At r c (a.map .byte ++ .byte d :: ts)) :
    ∃ r', r.readString d = some ((a ++ [d], none), r') ∧ At r' c ts := by
  have hmem : Token.byte d ∈ a.map Token.byte ++ .byte d :: ts :=
    mem_append_right _ mem_cons_self
  have hend := lineEnd_readString d h
  generalize r.readString d = x at hend ⊢
  cases hend with
  | found hl hlive hclosed htok =>
    rcases Stops.unique (.inl rfl) (.inl rfl) hd hl htok with ⟨rfl, -, hts⟩
    exact ⟨_, rfl, hts.symm, hlive.trans h.live, hclosed.trans h.closed⟩
  | expired hl hdead hclosed htok =>
    injection (Stops.unique (.inl rfl) (.inr rfl) hd hl htok).2.1
  | eof hl _ _ _ _ htok | wait hl _ htok => exact absurd (htok ▸ hmem) (Stops.not_mem (.inl rfl) hl)

/-- A line that the stream ends in comes with the end of the stream. -/
theorem readString_eof (hd : d ∉ a) (h : At r true (a.map .byte)) :
    ∃ r', r.readString d = some ((a, some .eof), r') ∧ At r' true [] := by
  have hend := lineEnd_readString d h
  have hno : ∀ t l ts, Stops d t → a.map Token.byte ≠ l ++ t :: ts := fun t l ts ht htok =>
    ht.not_mem hd (htok ▸ mem_append_right l mem_cons_self)
  generalize r.readString d = x at hend ⊢
  cases hend with
  | found hl _ _ htok => exact absurd htok (hno _ _ _ (.inl rfl))
  | expired hl _ _ htok => exact absurd htok (hno _ _ _ (.inr rfl))
  | eof hl hlive hclosed _ hnil htok =>
    rw [map_injective_iff.mpr byte_injective htok]
    exact ⟨_, rfl, hnil, hlive.trans h.live, hclosed.trans h.closed⟩
  | wait _ hopen _ => injection h.closed.symm.trans hopen

theorem at_nil (h : At r c []) : r.buf = [] ∧ r.src = [] := by
  have htok := h.tokens
  simp only [Reader.tokens, append_eq_nil_iff, map_eq_nil_iff] at htok
  refine ⟨htok.1, ?_⟩
  rcases hs : r.src with _ | ⟨e, src⟩
  · rfl
  · rw [hs] at htok
    cases e <;> simp only [flatMap_cons, Arrival.tokens, append_eq_nil_iff,
      map_eq_nil_iff, reduceCtorEq, false_and, and_false] at htok

theorem at_expiry (h : At r c (.expiry :: ts)) :
    ∃ src, r.buf = [] ∧ r.src = .expiry :: src ∧ src.flatMap Arrival.tokens = ts := by
  have htok := h.tokens
  unfold Reader.tokens at htok
  rcases hb : r.buf with _ | ⟨b, bs⟩
  · rw [hb, map_nil, nil_append] at htok
    rcases hs : r.src with _ | ⟨e, src⟩
    · rw [hs] at htok
      cases htok
    · rw [hs, flatMap_cons] at htok
      cases e with
      | data b bs =>
        cases htok
      | expiry =>
        rw [Arrival.tokens, singleton_append, cons.injEq] at htok
        exact ⟨src, rfl, rfl, htok.2⟩
  · rw [hb] at htok
    cases htok

/-- A line that an expiry interrupts comes with a timeout. Setting the deadline
    again goes on behind the expiry. -/
theorem readString_expiry (hd : d ∉ a) (h : At r c (a.map .byte ++ .expiry :: ts)) :
    ∃ r', r.readString d = some ((a, some .timeout), r') ∧ Dead r' ∧
      At r'.setReadDeadline c ts := by
  have hmem : Token.expiry ∈ a.map Token.byte ++ .expiry :: ts :=
    mem_append_right _ mem_cons_self
  have hend := lineEnd_readString d h
  generalize r.readString d = x at hend ⊢
  cases hend with
  | found hl _ _ htok => injection (Stops.unique (.inr rfl) (.inl rfl) hd hl htok).2.1
  | expired hl hdead hclosed htok =>
    rcases Stops.unique (.inr rfl) (.inr rfl) hd hl htok with ⟨rfl, -, hts⟩
    exact ⟨_, rfl, hdead, hts.symm, rfl, hclosed.trans h.closed⟩
  | eof hl _ _ _ _ htok | wait hl _ htok => exact absurd (htok ▸ hmem) (expiry_not_mem_map_byte _)

/-- With nothing more to come on an open stream the call waits. -/
theorem readString_wait (h : At r false []) : r.readString d = none := by
  unfold readString
  rw [h.live, if_neg Bool.false_ne_true, (at_nil h).1, (at_nil h).2]
  unfold readStringFrom
  rw [h.closed]
  rfl

/-! ### Single bytes -/

theorem available_byte (h : At r c (.byte b :: ts)) :
    ∃ bs r', r.available = some (.ok (b, bs), r') ∧ At r' c (.byte b :: ts) ∧ r'.buf = b :: bs := by
  have htok := h.tokens
  unfold Reader.tokens at htok
  unfold available
  rcases hb : r.buf with _ | ⟨x, xs⟩
  · rw [hb, map_nil, nil_append] at htok
    rcases hs : r.src with _ | ⟨e, src⟩
    · rw [hs] at htok
      contradiction
    · rw [hs, flatMap_cons] at htok
      cases e with
      | data x xs =>
        have hx : x = b := by
          simp only [Arrival.tokens, map_cons, cons_append, cons.injEq,
            Token.byte.injEq] at htok
          exact htok.1
        rw [← hx] at htok ⊢
        simp only [h.live, Bool.false_eq_true, if_false]
        exact ⟨xs, _, rfl, ⟨htok, rfl, h.closed⟩, rfl⟩
      | expiry =>
        cases (cons.inj htok).1
  · rw [hb] at htok
    have hx : x = b := by
      simp only [map_cons, cons_append, cons.injEq, Token.byte.injEq] at htok
      exact htok.1
    rw [← hx] at h ⊢
    exact ⟨xs, r, rfl, h, hb⟩

theorem peek_byte (h : At r c (.byte b :: ts)) :
    ∃ r', r.peek = some (.ok b, r') ∧ At r' c (.byte b :: ts) := by
  rcases available_byte b h with ⟨bs, r', hr, hat, _⟩
  refine ⟨{ r' with last := none }, ?_, hat.tokens, hat.live, hat.closed⟩
  rw [peek, hr]
  rfl

theorem peek_eof (h : At r true []) : ∃ r', r.peek = some (.error .eof, r') ∧ At r' true [] := by
  have havail : r.available = some (.error .eof, r) := by
    simp only [available, (at_nil h).1, (at_nil h).2, h.live, h.closed, Bool.false_eq_true,
      if_false, if_true]
  refine ⟨{ r with last := none }, ?_, h.tokens, h.live, h.closed⟩
  rw [peek, havail]
  rfl

theorem readByte_byte (h : At r c (.byte b :: ts)) :
    ∃ r', r.readByte = some (.ok b, r') ∧ At r' c ts ∧ r'.last = some b := by
  rcases available_byte b h with ⟨bs, r', hr, hat, hbuf⟩
  refine ⟨{ r' with buf := bs, last := some b }, ?_, ⟨?_, hat.live, hat.closed⟩, rfl⟩
  · rw [readByte, hr]
    rfl
  · have htok := hat.tokens
    rw [Reader.tokens, hbuf, map_cons, cons_append, cons.injEq] at htok
    exact htok.2

/-- The byte read last can still be put back. -/
theorem readByte_expiry (h : At r c (.expiry :: ts)) :
    ∃ r', r.readByte = some (.error .timeout, r') ∧ r'.last = r.last ∧
      At r'.setReadDeadline c ts := by
  rcases at_expiry h with ⟨src, hbuf, hsrc, hts⟩
  refine ⟨{ r with src := src, expired := true }, ?_, rfl, ?_, rfl, h.closed⟩
  · unfold readByte available
    rw [hbuf, hsrc, h.live]
    rfl
  · rw [← hts, Reader.tokens, setReadDeadline, hbuf]
    rfl

theorem readByte_wait (h : At r false []) : r.readByte = none := by
  unfold readByte available
  rw [(at_nil h).1, (at_nil h).2, h.live, h.closed]
  rfl

/-- A byte that was put back is read again. -/
theorem at_unreadByte (h : At r c ts) (hl : r.last = some b) :
    At r.unreadByte c (.byte b :: ts) := by
  unfold unreadByte
  rw [hl]
  refine ⟨?_, h.live, h.closed⟩
  rw [← h.tokens]
  rfl

/-! ### Bodies -/

/-- How `io.ReadFull` ends on a live reader with the tokens `ts`. -/
inductive FullEnd (n : Nat) (r : Reader) (ts : List Token) :
    Option (Except ReadError Bytes × Reader) → Prop
  | full {a : Bytes} {r' : Reader} (hlen : a.length = n) (hlive : r'.expired = r.expired)
      (hclosed : r'.closed = r.closed) (htok : ts = a.map .byte ++ r'.tokens) :
      FullEnd n r ts (some (.ok a, r'))
  | expired {a : Bytes} {r' : Reader} (hlen : a.length < n) (hclosed : r'.closed = r.closed)
      (htok : ts = a.map .byte ++ .expiry :: r'.tokens) :
      FullEnd n r ts (some (.error .timeout, r'))
  | eof {a : Bytes} {r' : Reader} (hlen : a.length < n) (hclosed : r'.closed = r.closed)
      (hnil : r'.tokens = []) (htok : ts = a.map .byte) :
      FullEnd n r ts (some (.error (if a = [] then .eof else .unexpectedEOF), r'))
  | wait {a : Bytes} (hlen : a.length < n) (hopen : r.closed = false) (htok : ts = a.map .byte) :
      FullEnd n r ts none

theorem fullEnd_readFullFrom (n : Nat) (r : Reader) (src : List Arrival) (buf : Bytes) :
    FullEnd n r (buf.map Token.byte ++ src.flatMap Arrival.tokens) (readFullFrom n r src buf) := by
  fun_induction readFullFrom n r src buf with
  | case1 src buf hn =>
    refine .full (length_take_of_le hn) rfl rfl ?_
    rw [Reader.tokens, ← append_assoc, ← map_append, take_append_drop]
  | case2 buf hn hend => exact .eof (Nat.lt_of_not_le hn) rfl rfl (append_nil _)
  | case3 buf hn hopen =>
    exact .wait (Nat.lt_of_not_le hn) (eq_false_of_ne_true hopen) (append_nil _)
  | case4 buf hn b bs src ih =>
    rw [map_byte_append_data]
    exact ih
  | case5 buf hn src => exact .expired (Nat.lt_of_not_le hn) rfl rfl

theorem fullEnd_readFull (n : Nat) (h : At r c ts) : FullEnd n r ts (r.readFull n) := by
  rw [readFull, h.live, if_neg Bool.false_ne_true, ← h.tokens]
  exact fullEnd_readFullFrom n r r.src r.buf

/-- A body that is there comes as it is. -/
theorem readFull_bytes (h : At r c (a.map .byte ++ ts)) :
    ∃ r', r.readFull a.length = some (.ok a, r') ∧ At r' c ts := by
  have hend := fullEnd_readFull a.length h
  have hlong : ∀ l : Bytes, l.length < a.length → a.map Token.byte ++ ts ≠ l.map Token.byte := by
    intro l hl htok
    have hlen := congrArg List.length htok
    simp only [length_append, length_map] at hlen
    omega
  generalize r.readFull a.length = x at hend ⊢
  cases hend with
  | full hlen hlive hclosed htok =>
    rcases append_inj htok (by rw [length_map, length_map, hlen]) with ⟨ha, hts⟩
    rw [map_injective_iff.mpr byte_injective ha]
    exact ⟨_, rfl, hts.symm, hlive.trans h.live, hclosed.trans h.closed⟩
  | expired hlen _ htok =>
    -- The text goes on past what was read, and no byte of it is an expiry.
    rcases map_byte_append_eq a _ _ _ _ htok with ⟨b, rest, _, hb, _⟩ | ⟨a', rfl, _⟩
    · cases hb
    · rw [length_append] at hlen
      omega
  | eof hlen _ _ htok | wait hlen _ htok => exact absurd htok (hlong _ hlen)

/-- A body that the stream ends in is an error. -/
theorem readFull_eof (n : Nat) (a : Bytes) (hn : a.length < n) (h : At r true (a.map .byte)) :
    ∃ r', r.readFull n = some (.error (if a = [] then .eof else .unexpectedEOF), r') := by
  have hend := fullEnd_readFull n h
  generalize r.readFull n = x at hend ⊢
  cases hend with
  | full hlen _ _ htok =>
    have hl := congrArg List.length htok
    simp only [length_append, length_map] at hl
    omega
  | expired _ _ htok =>
    exact absurd (htok ▸ mem_append_right _ mem_cons_self) (expiry_not_mem_map_byte a)
  | eof _ _ _ htok => exact ⟨_, by rw [map_injective_iff.mpr byte_injective htok]⟩
  | wait _ hopen _ => injection h.closed.symm.trans hopen

theorem readAllFrom_bytes (r : Reader) (src : List Arrival) (buf a : Bytes)
    (hclosed : r.closed = true)
    (h : buf.map Token.byte ++ src.flatMap Arrival.tokens = a.map Token.byte) :
    ∃ r', readAllFrom r src buf = some (.ok a, r') := by
  fun_induction readAllFrom r src buf with
  | case1 buf _ =>
    rw [flatMap_nil, append_nil] at h
    exact ⟨_, by rw [map_injective_iff.mpr byte_injective h]⟩
  | case2 buf hopen => exact absurd hclosed hopen
  | case3 buf b bs src ih =>
    rw [map_byte_append_data] at h
    exact ih h
  | case4 buf src =>
    refine absurd (h ▸ mem_append_right _ ?_) (expiry_not_mem_map_byte a)
    exact mem_flatMap.mpr ⟨.expiry, mem_cons_self, mem_singleton.mpr rfl⟩

theorem readAll_bytes (h : At r true (a.map .byte)) : ∃ r', r.readAll = some (.ok a, r') := by
  unfold readAll
  rw [h.live, if_neg Bool.false_ne_true]
  exact readAllFrom_bytes r r.src r.buf a h.closed h.tokens

end Reader

end Trecs
