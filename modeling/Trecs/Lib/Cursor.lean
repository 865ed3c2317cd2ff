import Trecs.Lib.Bytes

/-!
# Writing into a Fixed Buffer

Go code that serialises into a preallocated slice keeps a position and moves it
forward with every write. There are two kinds of write. A `copy` takes what fits
and says how much that was. A store to an index panics past the end.

A sequence of writes is a list here, and its text is what the writes put down
when the buffer is large enough. `writeAll_of_le` is that case. The other two
lemmas are for a buffer that is too small: a store at the end of the sequence
panics, and a copy at the end is cut short.

## Main definitions

* `Write`: One write.
* `Cursor`: What has been written and the room that is left.
* `writeAll`: A sequence of writes.

## Theorems

* `writeAll_of_le`: A buffer that is large enough.
* `writeAll_store_of_lt`, `writeAll_copy_of_lt`: One that is too small.
-/

namespace Trecs

open List Option

/-- A write at the current position: `copy(buf[pos:], s)`, one or two stores
    `buf[pos] = b`, or `strconv.AppendInt(buf[pos:pos], n, 10)`. -/
inductive Write where
  | copy (s : Bytes)
  | store (b : UInt8)
  | store2 (a b : UInt8)
  | appendInt (n : Int)
deriving Repr, DecidableEq

/-- The bytes in front of the position and how many fit behind it. -/
structure Cursor where
  written : Bytes
  room : Nat
deriving Repr, DecidableEq

namespace Write

/-- What a write puts down when there is room. -/
def text : Write → Bytes
  | copy s => s
  | store b => [b]
  | store2 a b => [a, b]
  | appendInt n => formatInt n

/-- One write. `none` is a panic. A number that does not fit is appended to a
    new array and moves the position past the end of this one, where the next
    store panics. -/
def apply (w : Write) (c : Cursor) : Option Cursor :=
  match w with
  | copy s => some ⟨c.written ++ s.take c.room, c.room - s.length⟩
  | _ =>
    if w.text.length ≤ c.room then some ⟨c.written ++ w.text, c.room - w.text.length⟩ else none

theorem apply_of_le (w : Write) (c : Cursor) (h : w.text.length ≤ c.room) :
    w.apply c = some ⟨c.written ++ w.text, c.room - w.text.length⟩ := by
  cases w with
  | copy s =>
    have hs : s.take c.room = s := take_of_length_le h
    simp [apply, text, hs]
  | store b | store2 a b | appendInt n => simp only [apply, if_pos h]

/-- Every write uses up its length, as far as there is room. -/
theorem apply_room (w : Write) (c c' : Cursor) (h : w.apply c = some c') :
    c'.room = c.room - w.text.length := by
  cases w with
  | copy s =>
    simp only [apply, some.injEq] at h
    rw [← h, text]
  | store b | store2 a b | appendInt n =>
    simp only [apply, ite_none_right_eq_some, some.injEq] at h
    rw [← h.2]

end Write

/-- The text of a sequence of writes. -/
def writeText (ws : List Write) : Bytes := ws.flatMap Write.text

/-- A sequence of writes. -/
def writeAll : List Write → Cursor → Option Cursor
  | [], c => some c
  | w :: ws, c => (w.apply c).bind (writeAll ws)

theorem writeAll_append (ws vs : List Write) (c : Cursor) :
    writeAll (ws ++ vs) c = (writeAll ws c).bind (writeAll vs) := by
  induction ws generalizing c with
  | nil => rfl
  | cons w ws ih =>
    simp only [cons_append, writeAll]
    rcases w.apply c with _ | c'
    · rfl
    · exact ih c'

theorem writeText_append (ws vs : List Write) :
    writeText (ws ++ vs) = writeText ws ++ writeText vs := flatMap_append

@[simp] theorem writeText_copy (s : Bytes) : writeText [.copy s] = s := append_nil s

theorem writeAll_of_le (ws : List Write) (c : Cursor) (h : (writeText ws).length ≤ c.room) :
    writeAll ws c = some ⟨c.written ++ writeText ws, c.room - (writeText ws).length⟩ := by
  induction ws generalizing c with
  | nil => simp only [writeAll, writeText, flatMap_nil, append_nil, length_nil,
      Nat.sub_zero]
  | cons w ws ih =>
    have htext : writeText (w :: ws) = w.text ++ writeText ws := flatMap_cons
    rw [htext, length_append] at h
    rw [writeAll, Write.apply_of_le w c (by omega), bind_some, ih _ (by simp only; omega),
      htext, length_append, append_assoc, Nat.sub_sub]

theorem writeAll_room (ws : List Write) (c c' : Cursor) (h : writeAll ws c = some c') :
    c'.room = c.room - (writeText ws).length := by
  induction ws generalizing c with
  | nil =>
    simp only [writeAll, some.injEq] at h
    simp [← h, writeText]
  | cons w ws ih =>
    have htext : writeText (w :: ws) = w.text ++ writeText ws := flatMap_cons
    rw [writeAll] at h
    rcases hw : w.apply c with _ | d
    · rw [hw] at h
      contradiction
    · rw [hw, bind_some] at h
      rw [ih d h, Write.apply_room w c d hw, htext, length_append, Nat.sub_sub]

/-- Copies on the way are cut short in silence, so it is the store at the end
    that finds no room. -/
theorem writeAll_store_of_lt (ws : List Write) (a b : UInt8) (c : Cursor)
    (h : c.room < (writeText (ws ++ [.store2 a b])).length) :
    writeAll (ws ++ [.store2 a b]) c = none := by
  have htext : (writeText (ws ++ [.store2 a b])).length = (writeText ws).length + 2 := by
    rw [writeText_append, length_append]
    rfl
  rw [writeAll_append]
  rcases hw : writeAll ws c with _ | d
  · rfl
  · have hroom : ¬ (Write.store2 a b).text.length ≤ d.room := by
      rw [writeAll_room ws c d hw]
      simp only [Write.text, length_cons, length_nil]
      omega
    simp only [bind_some, writeAll, Write.apply, if_neg hroom, bind_none]

theorem writeAll_copy_of_lt (ws : List Write) (s : Bytes) (c : Cursor)
    (h : (writeText ws).length ≤ c.room) :
    writeAll (ws ++ [.copy s]) c =
      some ⟨c.written ++ writeText ws ++ s.take (c.room - (writeText ws).length),
        c.room - (writeText ws).length - s.length⟩ := by
  rw [writeAll_append, writeAll_of_le ws c h]
  rfl

end Trecs
