import Trecs.Lib.Cursor

/-!
# Big-Endian Words

Numbers in network byte order, as Go's `binary.BigEndian` reads and stores
them. A word of `w` bytes holds a number below `256 ^ w`, and a larger one loses
its upper part.

A read looks at the front of a slice that is long enough; where the source does
not check that, its model has to. `uint16_put` and the two lemmas like it say
that a word is read back from in front of anything.

## Main definitions

* `getBE`, `putBE`: A number from bytes, and its last bytes.
* `uint16`, `uint32`, `uint64`: Reading a word.
* `putUint16`, `putUint32`, `putUint64`: The bytes of a word.
* `stores`: Storing bytes one after the other.
* `roundUp`: The next multiple of four.

## Theorems

* `drop_behind`, `drop_field`, `getD_of_drop`: What stands behind a field.
* `getBE_putBE`: A word holds a number modulo its size.
* `uint16_put`, `uint32_put`, `uint64_put`, `uint32s_put`: Reading back words.
-/

namespace Trecs

open List

/-- What holds for the 256 bytes holds for every byte. -/
theorem forall_uint8 {P : UInt8 → Prop} (h : ∀ i : Fin 256, P (UInt8.ofNat i)) (b : UInt8) : P b :=
  UInt8.ofNat_toNat (x := b) ▸ h ⟨b.toNat, b.toNat_lt⟩

/-- What stands behind a field of `j` bytes at `i`. -/
theorem drop_behind {data field rest : Bytes} {i j : Nat} (h : data.drop i = field ++ rest)
    (hfield : field.length = j) : data.drop (i + j) = rest := by
  rw [← drop_drop, h]
  exact drop_left' hfield

theorem drop_field {field rest : Bytes} {j : Nat} (hfield : field.length = j) (i : Nat) :
    (field ++ rest).drop (i + j) = rest.drop i := by
  rw [← hfield, Nat.add_comm, drop_length_add_append]

theorem getD_of_drop {data rest : Bytes} {b : UInt8} {i : Nat} (h : data.drop i = b :: rest) :
    data.getD i 0 = b := by
  rw [getD_eq_getElem?_getD, ← Nat.add_zero i, ← getElem?_drop, h]
  rfl

/-- The number with the given bytes, the most significant one first. -/
def getBE (s : Bytes) : Nat := s.foldl (fun n b => n * 256 + b.toNat) 0

/-- The last `w` bytes of a number, the most significant one first. -/
def putBE : Nat → Nat → Bytes
  | 0, _ => []
  | w + 1, n => putBE w (n / 256) ++ [UInt8.ofNat n]

@[simp] theorem length_putBE (w n : Nat) : (putBE w n).length = w := by
  induction w generalizing n with
  | zero => rfl
  | succ w ih => rw [putBE, length_append, ih, length_singleton]

theorem drop_putBE (w n i : Nat) (rest : Bytes) :
    (putBE w n ++ rest).drop (i + w) = rest.drop i := drop_field (length_putBE w n) i

theorem getBE_putBE (w n : Nat) : getBE (putBE w n) = n % 256 ^ w := by
  induction w generalizing n with
  | zero => rw [pow_zero, Nat.mod_one]; rfl
  | succ w ih =>
    have hlast : (UInt8.ofNat n).toNat = n % 256 := UInt8.toNat_ofNat'
    have hfold : getBE (putBE (w + 1) n) = getBE (putBE w (n / 256)) * 256 + n % 256 := by
      rw [putBE, getBE, foldl_append, foldl_cons, foldl_nil, hlast]
      rfl
    rw [hfold, ih, pow_succ', Nat.mod_mul, Nat.mul_comm, Nat.add_comm]

theorem getBE_putBE_of_lt (w n : Nat) (h : n < 256 ^ w) : getBE (putBE w n) = n := by
  rw [getBE_putBE, Nat.mod_eq_of_lt h]

theorem getBE_lt (s : Bytes) : getBE s < 256 ^ s.length := by
  induction s using List.reverseRecOn with
  | nil => exact Nat.one_pos
  | append_singleton s b ih =>
    have hb := b.toNat_lt
    rw [getBE, foldl_append, foldl_cons, foldl_nil, length_append,
      length_singleton, Nat.pow_succ]
    change getBE s * 256 + b.toNat < _
    omega

/-- `Uint16` of a slice that has two bytes. -/
def uint16 (s : Bytes) : UInt16 := UInt16.ofNat (getBE (s.take 2))

/-- `Uint32` of a slice that has four bytes. -/
def uint32 (s : Bytes) : UInt32 := UInt32.ofNat (getBE (s.take 4))

/-- `Uint64` of a slice that has eight bytes. -/
def uint64 (s : Bytes) : UInt64 := UInt64.ofNat (getBE (s.take 8))

/-- What `PutUint16` stores. -/
def putUint16 (v : UInt16) : Bytes := putBE 2 v.toNat

/-- What `PutUint32` stores. -/
def putUint32 (v : UInt32) : Bytes := putBE 4 v.toNat

/-- What `PutUint64` stores. -/
def putUint64 (v : UInt64) : Bytes := putBE 8 v.toNat

@[simp] theorem length_putUint16 (v : UInt16) : (putUint16 v).length = 2 := length_putBE 2 _

@[simp] theorem length_putUint32 (v : UInt32) : (putUint32 v).length = 4 := length_putBE 4 _

@[simp] theorem length_putUint64 (v : UInt64) : (putUint64 v).length = 8 := length_putBE 8 _

@[simp] theorem drop_putUint32 (v : UInt32) (rest : Bytes) (i : Nat) :
    (putUint32 v ++ rest).drop (i + 4) = rest.drop i := drop_field (length_putUint32 v) i

theorem drop_putUint64 (v : UInt64) (rest : Bytes) (i : Nat) :
    (putUint64 v ++ rest).drop (i + 8) = rest.drop i := drop_field (length_putUint64 v) i

theorem uint16_put (v : UInt16) (rest : Bytes) : uint16 (putUint16 v ++ rest) = v := by
  rw [uint16, take_left' (length_putUint16 v), putUint16,
    getBE_putBE_of_lt 2 v.toNat v.toNat_lt, UInt16.ofNat_toNat]

theorem uint32_put (v : UInt32) (rest : Bytes) : uint32 (putUint32 v ++ rest) = v := by
  rw [uint32, take_left' (length_putUint32 v), putUint32,
    getBE_putBE_of_lt 4 v.toNat v.toNat_lt, UInt32.ofNat_toNat]

theorem uint64_put (v : UInt64) (rest : Bytes) : uint64 (putUint64 v ++ rest) = v := by
  rw [uint64, take_left' (length_putUint64 v), putUint64,
    getBE_putBE_of_lt 8 v.toNat v.toNat_lt, UInt64.ofNat_toNat]

/-- The first `n` words of four bytes, each read at its own offset. -/
def uint32s (n : Nat) (s : Bytes) : List UInt32 :=
  (List.range n).map (fun i => uint32 (s.drop (i * 4)))

@[simp] theorem length_uint32s (n : Nat) (s : Bytes) : (uint32s n s).length = n := by
  rw [uint32s, length_map, length_range]

theorem uint32s_put (vs : List UInt32) (rest : Bytes) :
    uint32s vs.length (vs.flatMap putUint32 ++ rest) = vs := by
  induction vs with
  | nil => rfl
  | cons v vs ih =>
    have hnext : ∀ i, (putUint32 v ++ (vs.flatMap putUint32 ++ rest)).drop ((i + 1) * 4) =
        (vs.flatMap putUint32 ++ rest).drop (i * 4) := by
      intro i
      rw [show (i + 1) * 4 = (putUint32 v).length + i * 4 by rw [length_putUint32]; omega,
        drop_length_add_append]
    rw [flatMap_cons, append_assoc, length_cons, uint32s, range_succ_eq_map,
      map_cons, List.map_map, Nat.zero_mul, drop_zero, uint32_put]
    refine congrArg (v :: ·) (Eq.trans ?_ ih)
    refine map_congr_left (fun i _ => ?_)
    rw [Function.comp_apply, Nat.succ_eq_add_one, hnext]

/-- Storing bytes one after the other, each at its own index. -/
def stores (s : Bytes) : List Write := s.map .store

@[simp] theorem writeText_stores (s : Bytes) : writeText (stores s) = s := by
  induction s with
  | nil => rfl
  | cons b s ih => exact congrArg (b :: ·) ih

theorem writeText_flatMap {α : Type} (f : α → List Write) (as : List α) :
    writeText (as.flatMap f) = as.flatMap (fun a => writeText (f a)) := flatMap_assoc

/-- Texts of one length in a row. -/
theorem length_flatMap_const {α : Type} (f : α → Bytes) (k : Nat) (hf : ∀ a, (f a).length = k)
    (as : List α) : (as.flatMap f).length = as.length * k := by
  induction as with
  | nil => exact (Nat.zero_mul k).symm
  | cons a as ih =>
    rw [flatMap_cons, length_append, hf, ih, length_cons, Nat.add_mul, Nat.one_mul,
      Nat.add_comm]

/-- The bytes of a new slice. -/
def zeros (n : Nat) : Bytes := List.replicate n 0

@[simp] theorem length_zeros (n : Nat) : (zeros n).length = n := length_replicate

/-- The next multiple of four. -/
def roundUp (n : Nat) : Nat := (n + 3) / 4 * 4

theorem le_roundUp (n : Nat) : n ≤ roundUp n := by
  unfold roundUp
  omega

theorem dvd_roundUp (n : Nat) : 4 ∣ roundUp n := ⟨(n + 3) / 4, Nat.mul_comm _ _⟩

theorem roundUp_add (m n : Nat) (h : 4 ∣ m) : roundUp (m + n) = m + roundUp n := by
  unfold roundUp
  omega

theorem roundUp_of_dvd (n : Nat) (h : 4 ∣ n) : roundUp n = n := by
  unfold roundUp
  omega

end Trecs
