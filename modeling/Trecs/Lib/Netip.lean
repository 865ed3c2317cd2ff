import Mathlib.Data.BitVec
import Trecs.Lib.Hex
import Trecs.Lib.HostPort

/-!
# Addresses and Prefixes

Go's `net/netip`: addresses of both families as texts and as bits, and prefixes
of them. An IPv6 address may have a zone, a prefix has none.

A prefix contains the addresses of its family that start with the same bits. An
address with a zone is in no prefix, and neither family has a prefix that
contains an address of the other, the mapped ones included.

## Main definitions

* `Addr`, `AddrPrefix`: An address and a prefix.
* `AddrPrefix.contains`: `Prefix.Contains`.
* `parseAddr`, `parseAddrPrefix`: `ParseAddr` and `ParsePrefix`.
-/

namespace Trecs

/-- An address. -/
inductive Addr where
  | v4 (bits : BitVec 32)
  | v6 (bits : BitVec 128) (zone : Bytes)
deriving Repr, DecidableEq

/-- A prefix: an address and how many of its bits count. -/
inductive AddrPrefix where
  | v4 (bits : BitVec 32) (len : Fin 33)
  | v6 (bits : BitVec 128) (len : Fin 129)
deriving Repr, DecidableEq

/-- The first `len` bits are the same. -/
def sameLeading {w : Nat} (a b : BitVec w) (len : Nat) : Bool := a >>> (w - len) == b >>> (w - len)

/-- `Prefix.Contains`. -/
def AddrPrefix.contains : AddrPrefix → Addr → Bool
  | .v4 p len, .v4 a => sameLeading p a len
  | .v6 p len, .v6 a zone => zone = [] && sameLeading p a len
  | _, _ => false

/-- A field of a dotted address. -/
def parseOctet (s : Bytes) : Option Nat :=
  -- A zero in front of other digits is refused.
  if s.head? = some 48 ∧ 1 < s.length ∨ s = [] then none
  else (parseDigits 0 s).filter (· ≤ 255)

/-- `parseIPv4Fields`. -/
def parseIPv4Fields (s : Bytes) : Option (Nat × Nat × Nat × Nat) :=
  match (split 46 s).mapM parseOctet with
  | some [a, b, c, d] => some (a, b, c, d)
  | _ => none

/-- The number with the given digits to the base `2 ^ w`. -/
def ofGroups (w : Nat) (gs : List Nat) : Nat := gs.foldl (fun n g => n * 2 ^ w + g) 0

/-- A group of an IPv6 address, which has at most four digits, and what follows. -/
def parseGroup (s : Bytes) : Option (Nat × Bytes) :=
  let digits := s.takeWhile (fun b => (hexVal b).isSome)
  if digits = [] ∨ 4 < digits.length then none
  else (hexValue 0 digits).map (fun n => (n, s.drop digits.length))

/-- The loop of `parseIPv6`: the groups of an address, how many of them stand in
    front of the ellipsis, and what is left of the text. -/
def parseGroups : Nat → Bytes → List Nat → Option Nat → Option (List Nat × Option Nat × Bytes)
  | 0, s, gs, ellipsis => some (gs, ellipsis, s)
  | fuel + 1, s, gs, ellipsis =>
    match parseGroup s with
    | none => none
    | some (n, rest) =>
      match rest with
      | [] => some (gs ++ [n], ellipsis, [])
      | 46 :: _ =>
        -- The last two groups may be written as an IPv4 address.
        if ellipsis = none ∧ gs.length ≠ 6 ∨ 6 < gs.length then none
        else (parseIPv4Fields s).map
          (fun (a, b, c, d) => (gs ++ [a * 256 + b, c * 256 + d], ellipsis, []))
      | 58 :: 58 :: rest =>
        if ellipsis.isSome then none
        else if rest = [] then some (gs ++ [n], some (gs.length + 1), [])
        else parseGroups fuel rest (gs ++ [n]) (some (gs.length + 1))
      | [58] => none
      | 58 :: rest => parseGroups fuel rest (gs ++ [n]) ellipsis
      | _ => none

/-- The eight groups, with zeros for the ellipsis. -/
def expandGroups (gs : List Nat) (ellipsis : Option Nat) : Option (List Nat) :=
  if gs.length < 8 then
    ellipsis.map (fun k => gs.take k ++ List.replicate (8 - gs.length) 0 ++ gs.drop k)
  else if ellipsis.isSome then none
  else some gs

/-- The groups of `s`, which is all of the address but the zone. -/
def parseIPv6Groups (s : Bytes) : Option (List Nat) :=
  let start := if ascii "::" <+: s then (s.drop 2, some 0) else (s, none)
  if start.2.isSome ∧ start.1 = [] then some (List.replicate 8 0)
  else
    match parseGroups 8 start.1 [] start.2 with
    | some (gs, ellipsis, []) => expandGroups gs ellipsis
    | _ => none

/-- `parseIPv6`. -/
def parseIPv6 (s : Bytes) : Option Addr :=
  match cut 37 s with
  | some (addr, zone) =>
    if zone = [] then none
    else (parseIPv6Groups addr).map (fun gs => .v6 (BitVec.ofNat 128 (ofGroups 16 gs)) zone)
  | none => (parseIPv6Groups s).map (fun gs => .v6 (BitVec.ofNat 128 (ofGroups 16 gs)) [])

/-- `ParseAddr`: the first dot, colon or percent sign decides. -/
def parseAddr (s : Bytes) : Option Addr :=
  match s.find? (fun b => b = 46 ∨ b = 58 ∨ b = 37) with
  | some 46 => (parseIPv4Fields s).map
      (fun (a, b, c, d) => .v4 (BitVec.ofNat 32 (ofGroups 8 [a, b, c, d])))
  | some 58 => parseIPv6 s
  | _ => none

/-- `ParsePrefix`. -/
def parseAddrPrefix (s : Bytes) : Option AddrPrefix :=
  match cutLast 47 s with
  | none => none
  | some (ip, bits) =>
    -- `Atoi` would take a sign and leading zeros.
    if 1 < bits.length ∧ (bits.head?.any (fun b => b < 49 ∨ 57 < b)) = true then none
    else
      match atoi bits with
      | .error _ => none
      | .ok n =>
        match parseAddr ip with
        | some (.v4 a) =>
          if h : 0 ≤ n.toInt ∧ n.toInt.toNat < 33 then some (.v4 a ⟨n.toInt.toNat, h.2⟩) else none
        | some (.v6 a []) =>
          if h : 0 ≤ n.toInt ∧ n.toInt.toNat < 129 then some (.v6 a ⟨n.toInt.toNat, h.2⟩) else none
        | _ => none

example : (parseAddrPrefix (ascii "10.0.1.0/24")).any (fun p =>
    (parseAddr (ascii "10.0.1.77")).any p.contains) = true := by decide +kernel

example : (parseAddrPrefix (ascii "2001:db8::/32")).any (fun p =>
    (parseAddr (ascii "2001:db8:0:1::192.0.2.1")).any p.contains) = true := by decide +kernel

end Trecs
