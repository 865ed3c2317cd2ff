import Trecs.Lib.Bufio

/-!
# What a Reader Has Consumed

The lemmas of `Trecs.Lib.Bufio` say what a call returns when the next tokens are
known. The lemmas here go the other way: from what a call returned to what the
tokens were.

`left` is the text a reader has yet to deliver, without the expiries. A call
takes a front part of it. When the call succeeds on a live reader, no expiry
lay in that part; when it fails on one whose peer has not closed the stream, the
reader is dead.

## Main definitions

* `bytesOf`: The bytes among some tokens.
* `Reader.left`: The text a reader has yet to deliver.

## Theorems

* `Reader.readString_left`, `Reader.peek_left`, `Reader.readFull_left`: Each call
  takes from the front of the text.
* `Reader.readString_inv`, `Reader.peek_inv`, `Reader.readFull_inv`: What the
  tokens were.
-/

namespace Trecs

open List Option

/-- The bytes among some tokens. -/
def bytesOf (ts : List Token) : Bytes :=
  ts.filterMap (fun t => match t with
    | .byte b => some b
    | .expiry => none)

@[simp] theorem bytesOf_append (ts us : List Token) :
    bytesOf (ts ++ us) = bytesOf ts ++ bytesOf us := filterMap_append

@[simp] theorem bytesOf_byte (b : UInt8) (ts : List Token) :
    bytesOf (.byte b :: ts) = b :: bytesOf ts := rfl

@[simp] theorem bytesOf_expiry (ts : List Token) : bytesOf (.expiry :: ts) = bytesOf ts := rfl

@[simp] theorem bytesOf_map_byte (a : Bytes) : bytesOf (a.map .byte) = a := by
  induction a with
  | nil => rfl
  | cons b bs ih => rw [map_cons, bytesOf_byte, ih]

namespace Reader

/-- The text a reader has yet to deliver. -/
def left (r : Reader) : Bytes := bytesOf r.tokens

theorem left_eq (r : Reader) : r.left = r.buf ++ bytesOf (r.src.flatMap Arrival.tokens) := by
  rw [left, Reader.tokens, bytesOf_append, bytesOf_map_byte]

theorem At.left_eq {r : Reader} {c : Bool} {ts : List Token} (h : At r c ts) :
    r.left = bytesOf ts := by
  rw [left, h.tokens]

theorem at_setReadDeadline (r : Reader) : At r.setReadDeadline r.closed r.tokens :=
  ⟨rfl, rfl, rfl⟩

theorem bytesOf_data (b : UInt8) (bs : Bytes) (src : List Arrival) :
    bytesOf ((Arrival.data b bs :: src).flatMap Arrival.tokens) =
      b :: bs ++ bytesOf (src.flatMap Arrival.tokens) := by
  rw [flatMap_cons, bytesOf_append, Arrival.tokens, bytesOf_map_byte]

/-! ### Taking from the front -/

/-- A reader with a live deadline is at its own tokens. -/
theorem at_self {r : Reader} (h : ¬ r.expired = true) : At r r.closed r.tokens :=
  ⟨rfl, eq_false_of_ne_true h, rfl⟩

/-- What `ReadString` returns, with or without an error, is the front of the
    text. -/
theorem readString_left {d : UInt8} {r r' : Reader} {l : Bytes} {e : Option ReadError}
    (h : r.readString d = some ((l, e), r')) : l ++ r'.left = r.left ∧ r'.closed = r.closed := by
  by_cases hexp : r.expired = true
  · unfold readString at h
    rw [if_pos hexp] at h
    rcases hcut : cut d r.buf with _ | ⟨a, rest⟩
    · simp only [hcut, some.injEq, Prod.mk.injEq] at h
      rcases h with ⟨⟨rfl, _⟩, rfl⟩
      exact ⟨by rw [left_eq, left_eq]; rfl, rfl⟩
    · simp only [hcut, some.injEq, Prod.mk.injEq] at h
      rcases h with ⟨⟨rfl, _⟩, rfl⟩
      refine ⟨?_, rfl⟩
      rw [left_eq, left_eq, ((cut_eq_some_iff d r.buf a rest).mp hcut).1]
      simp
  · have hend := lineEnd_readString d (at_self hexp)
    rw [h] at hend
    cases hend with
    | found _ _ hclosed htok =>
      refine ⟨?_, hclosed⟩
      simp [left, htok]
    | expired _ _ hclosed htok =>
      simp [left, htok, hclosed]
    | eof _ _ hclosed _ hnil htok =>
      rw [left, left, hnil, htok, bytesOf_map_byte]
      exact ⟨append_nil l, hclosed⟩

theorem available_left {r r' : Reader} {res : Except ReadError (UInt8 × Bytes)}
    (h : r.available = some (res, r')) : r'.left = r.left ∧ r'.closed = r.closed := by
  unfold available at h
  rcases hb : r.buf with _ | ⟨b, bs⟩
  · simp only [hb] at h
    by_cases hexp : r.expired = true
    · rw [if_pos hexp] at h
      cases h
      exact ⟨rfl, rfl⟩
    · rw [if_neg hexp] at h
      rcases hs : r.src with _ | ⟨_ | _, src⟩
      · simp only [hs, ite_none_right_eq_some, some.injEq, Prod.mk.injEq] at h
        rw [← h.2.2]
        exact ⟨rfl, rfl⟩
      · simp only [hs, some.injEq, Prod.mk.injEq] at h
        rw [← h.2, left_eq, left_eq, hb, hs, bytesOf_data]
        exact ⟨rfl, rfl⟩
      · simp only [hs, some.injEq, Prod.mk.injEq] at h
        rw [← h.2, left_eq, left_eq, hb, hs]
        exact ⟨rfl, rfl⟩
  · simp only [hb] at h
    cases h
    exact ⟨rfl, rfl⟩

theorem peek_left {r r' : Reader} {res : Except ReadError UInt8} (h : r.peek = some (res, r')) :
    r'.left = r.left ∧ r'.closed = r.closed := by
  rcases map_eq_some_iff.mp h with ⟨⟨res₁, r₁⟩, hr, heq⟩
  rw [← (Prod.mk.inj heq).2]
  exact (available_left hr : r₁.left = r.left ∧ r₁.closed = r.closed)

theorem readFull_left {n : Nat} {r r' : Reader} {res : Except ReadError Bytes}
    (h : r.readFull n = some (res, r')) : r'.left <:+ r.left ∧ r'.closed = r.closed := by
  by_cases hexp : r.expired = true
  · unfold readFull at h
    rw [if_pos hexp] at h
    by_cases hn : n ≤ r.buf.length
    · rw [if_pos hn, some.injEq, Prod.mk.injEq] at h
      rw [← h.2, left_eq, left_eq]
      refine ⟨⟨r.buf.take n, ?_⟩, rfl⟩
      rw [← append_assoc, take_append_drop]
    · rw [if_neg hn, some.injEq, Prod.mk.injEq] at h
      rw [← h.2, left_eq, left_eq]
      exact ⟨suffix_append _ _, rfl⟩
  · have hend := fullEnd_readFull n (at_self hexp)
    rw [h] at hend
    cases hend with
    | full _ _ hclosed htok | expired _ hclosed htok =>
      rw [left, left, htok, bytesOf_append]
      exact ⟨suffix_append _ _, hclosed⟩
    | eof _ hclosed hnil _ =>
      rw [left, hnil]
      exact ⟨nil_suffix, hclosed⟩

/-! ### What the tokens were -/

/-- On an open stream, what `ReadString` returns is a complete line or the
    reader is dead afterwards. -/
theorem readString_inv {d : UInt8} {r r' : Reader} {ts : List Token} {l : Bytes}
    {e : Option ReadError} (hat : At r false ts) (h : r.readString d = some ((l, e), r')) :
    (∃ a ts', l = a ++ [d] ∧ d ∉ a ∧ e = none ∧ ts = l.map Token.byte ++ ts' ∧ At r' false ts') ∨
      (Dead r' ∧ d ∉ l ∧ e = some .timeout) := by
  have hend := lineEnd_readString d hat
  rw [h] at hend
  cases hend with
  | found hd hlive hclosed htok =>
    refine .inl ⟨_, r'.tokens, rfl, hd, rfl, ?_, rfl, hlive.trans hat.live,
      hclosed.trans hat.closed⟩
    rw [htok, map_append, append_assoc]
    rfl
  | expired hd hdead _ _ => exact .inr ⟨hdead, hd, rfl⟩
  | eof _ _ _ hclosed _ _ => injection hclosed.symm.trans hat.closed

theorem readString_dead {r : Reader} (d : UInt8) (h : Dead r) :
    ∃ r', r.readString d = some (([], some .timeout), r') ∧ Dead r' := by
  unfold readString
  rw [if_pos h.expired, h.buf]
  exact ⟨_, rfl, rfl, h.expired⟩

/-- On an open stream, a byte is there or the reader is dead afterwards. -/
theorem peek_inv {r r' : Reader} {ts : List Token} {res : Except ReadError UInt8}
    (hat : At r false ts) (h : r.peek = some (res, r')) :
    (∃ b ts', res = .ok b ∧ ts = .byte b :: ts' ∧ At r' false ts) ∨
      (Dead r' ∧ res = .error .timeout) := by
  rcases ts with _ | ⟨b | _, ts⟩
  · unfold peek available at h
    simp only [(at_nil hat).1, (at_nil hat).2, hat.live, hat.closed, Bool.false_eq_true, if_false,
      map_none, reduceCtorEq] at h
  · rcases peek_byte b hat with ⟨r₁, hr, hat₁⟩
    rw [hr] at h
    cases h
    exact .inl ⟨b, ts, rfl, rfl, hat₁⟩
  · rcases at_expiry hat with ⟨src, hbuf, hsrc, _⟩
    unfold peek available at h
    simp only [hbuf, hsrc, hat.live, Bool.false_eq_true, if_false, map_some,
      some.injEq, Prod.mk.injEq] at h
    rw [← h.1, ← h.2]
    exact .inr ⟨⟨rfl, rfl⟩, rfl⟩

theorem peek_dead {r : Reader} (h : Dead r) :
    ∃ r', r.peek = some (.error .timeout, r') ∧ Dead r' := by
  have havail : r.available = some (.error .timeout, r) := by
    simp only [available, h.buf, h.expired, if_true]
  refine ⟨{ r with last := none }, ?_, h.buf, h.expired⟩
  rw [peek, havail]
  rfl

/-- A body that was read came without an expiry in it. -/
theorem readFull_inv {n : Nat} {r r' : Reader} {ts : List Token} {a : Bytes}
    (hat : At r false ts) (h : r.readFull n = some (.ok a, r')) :
    ∃ ts', ts = a.map Token.byte ++ ts' ∧ At r' false ts' := by
  have hend := fullEnd_readFull n hat
  rw [h] at hend
  cases hend with
  | full _ hlive hclosed htok =>
    exact ⟨r'.tokens, htok, rfl, hlive.trans hat.live, hclosed.trans hat.closed⟩

end Reader

end Trecs
