import Trecs.Lib.Hex
import Trecs.Proto.Sip

/-!
# Digest Credentials

Parsing and checking of digest credentials, from `internal/sip/auth.go`.

`ParseDigest` reads the parameters of an Authorization header one after the
other. A parameter without a value ends the reading, an unknown one is skipped,
and of one that occurs twice the last value counts. What the header leaves out
has its zero value, except that the algorithm is MD5. In particular `qop` may be
empty and `nc` zero.

The response is a hash over other hashes. With qop `auth` or `auth-int` the
hashed text has `nc`, `cnonce` and `qop` in it. With any other qop it does not,
so the response says nothing about them. The hash functions are a parameter,
`HashFunctions`. Every real one has collisions; `CollisionFree` says that there is
none among given texts, those that a run hashes.

## Main definitions

* `DigestCredentials`, `parseDigest`: Reading a header.
* `buildDigestChallenge`: What a client is asked for.
* `computeDigestResponse`, `verifyDigest`: The check of the response.
* `hashedText`: What the response is the hash of.
* `CollisionFree`: Of some texts, each is determined by its hash.

## Theorems

* `nc_eq_of_response_eq`: A response determines `nc` if it covers it.
* `response_eq_of_verifyDigest`, `qop_eq_of_response_eq`: When a verified
  response is the one that was asked for.
-/

namespace Trecs

open List

namespace Sip

open Proto

/-- The Go struct `DigestCredentials`. -/
structure DigestCredentials where
  username : Bytes
  realm : Bytes
  nonce : Bytes
  uri : Bytes
  response : Bytes
  algorithm : Bytes
  cnonce : Bytes
  qop : Bytes
  nc : UInt64
  opaqueValue : Bytes
deriving Repr, DecidableEq

/-- The value of a parameter and what follows it. A quoted value ends at the
    next quote, and the text up to the next comma is dropped. `none` is a quote
    that is not closed. -/
def digestValue (rest : Bytes) : Option (Bytes × Bytes) :=
  match rest with
  | 34 :: quoted =>
    match cut 34 quoted with
    | none => none
    | some (value, after) =>
      match cut 44 after with
      | some (_, next) => some (value, next)
      | none => some (value, [])
  | _ =>
    match cut 44 rest with
    | some (value, next) => some (trimSpace value, next)
    | none => some (trimSpace rest, [])

section Parse

variable [UnicodeLower] [UnicodeUpper]

/-- The assignment of a parameter to its field. -/
def DigestCredentials.assign (creds : DigestCredentials) (key value : Bytes) :
    Except Bytes DigestCredentials :=
  let key := toLower key
  if key = ascii "username" then .ok { creds with username := value }
  else if key = ascii "realm" then .ok { creds with realm := value }
  else if key = ascii "nonce" then .ok { creds with nonce := value }
  else if key = ascii "uri" then .ok { creds with uri := value }
  else if key = ascii "response" then .ok { creds with response := value }
  else if key = ascii "algorithm" then .ok { creds with algorithm := toUpper value }
  else if key = ascii "cnonce" then .ok { creds with cnonce := value }
  else if key = ascii "qop" then .ok { creds with qop := value }
  else if key = ascii "nc" then
    match parseHex value with
    | some n => .ok { creds with nc := n }
    | none => .error (ascii "sip auth: invalid nc: " ++ value)
  else if key = ascii "opaque" then .ok { creds with opaqueValue := value }
  else .ok creds

/-- The loop of `ParseDigest`. Each turn takes at least an equals sign, so the
    length of the text is fuel enough. -/
def parseParams : Nat → Bytes → DigestCredentials → Except Bytes DigestCredentials
  | 0, _, creds => .ok creds
  | n + 1, raw, creds =>
    match cut 61 (trimSpace raw) with
    | none => .ok creds
    | some (key, rest) =>
      match digestValue (trimSpace rest) with
      | none => .error (ascii "sip auth: unterminated quoted string")
      | some (value, next) =>
        match creds.assign (trimSpace key) value with
        | .error e => .error e
        | .ok creds => parseParams n next creds

/-- Credentials before any parameter was read. -/
def DigestCredentials.initial : DigestCredentials :=
  ⟨[], [], [], [], [], ascii "MD5", [], [], 0, []⟩

/-- `ParseDigest`, with the text of its errors. -/
def parseDigest (raw : Bytes) : Except Bytes DigestCredentials :=
  let raw := trimSpace raw
  if raw.length < 6 ∨ equalFold (raw.take 6) (ascii "Digest") = false then
    .error (ascii "sip auth: not a Digest Authorization header")
  else
    let raw := trimSpace (raw.drop 6)
    if raw = [] then .error (ascii "sip auth: not a Digest Authorization header")
    else
      match parseParams raw.length raw .initial with
      | .error e => .error e
      | .ok creds =>
        if creds.username = [] ∨ creds.realm = [] ∨ creds.nonce = [] ∨ creds.uri = [] ∨
            creds.response = [] then
          .error (ascii "sip auth: missing required field")
        else .ok creds

/-- Credentials that were parsed have a user name. -/
theorem username_ne_nil_of_parseDigest (raw : Bytes) (creds : DigestCredentials)
    (h : parseDigest raw = .ok creds) : creds.username ≠ [] := by
  unfold parseDigest at h
  simp only at h
  split at h
  · cases h
  · split at h
    · cases h
    · split at h
      · cases h
      · split at h
        · cases h
        · rename_i hreq
          rw [← Except.ok.inj h]
          exact fun hnil => hreq (.inl hnil)

end Parse

/-- `BuildDigestChallenge`. -/
def buildDigestChallenge (realm nonce algorithm : Bytes) (stale : Bool) : Bytes :=
  ascii "Digest realm=\"" ++ realm ++ ascii "\", nonce=\"" ++ nonce ++ ascii "\", algorithm=" ++
    algorithm ++ ascii ", qop=\"auth\"" ++ if stale then ascii ", stale=TRUE" else []

/-! ### The response -/

/-- The hash functions. -/
inductive HashAlgorithm where
  | MD5
  | SHA256
  | SHA512256
deriving Repr, DecidableEq

/-- The hash function an algorithm name selects. Other names select MD5. -/
def HashAlgorithm.ofName (algorithm : Bytes) : HashAlgorithm :=
  if algorithm = ascii "MD5" then .MD5
  else if algorithm = ascii "SHA-256" then .SHA256
  else if algorithm = ascii "SHA-512-256" then .SHA512256
  else .MD5

/-- The hash functions of Go's `crypto` packages. -/
class HashFunctions where
  sum : HashAlgorithm → Bytes → Bytes

/-- No two of these texts have a hash in common, each under the function that is
    with it. -/
def CollisionFree (h : HashFunctions) (texts : Set (HashAlgorithm × Bytes)) : Prop :=
  texts.InjOn (fun x => h.sum x.1 x.2)

/-- Whether a qop value makes the response depend on `nc`, `cnonce` and `qop`. -/
def covered (qop : Bytes) : Bool := qop = ascii "auth" || qop = ascii "auth-int"

/-- The text `ComputeDigestResponse` hashes. -/
def respData (ha1 nonce nc cnonce qop ha2 : Bytes) : Bytes :=
  if covered qop then
    ha1 ++ [58] ++ nonce ++ [58] ++ nc ++ [58] ++ cnonce ++ [58] ++ qop ++ [58] ++ ha2
  else ha1 ++ [58] ++ nonce ++ [58] ++ ha2

theorem colon_not_mem_formatHex (n : Nat) : (58 : UInt8) ∉ formatHex n :=
  fun hm => (IsHex.ne _ (isHex_formatHex n _ hm)).1 rfl

/-- Two texts that agree up to a colon each have no colon before. -/
theorem append_colon_inj (a a' r r' : Bytes) (ha : (58 : UInt8) ∉ a) (ha' : (58 : UInt8) ∉ a')
    (heq : a ++ 58 :: r = a' ++ 58 :: r') : a = a' ∧ r = r' := by
  have hcut := cut_append 58 a r ha
  rw [heq, cut_append 58 a' r' ha', Option.some.injEq, Prod.mk.injEq] at hcut
  exact ⟨hcut.1.symm, hcut.2.symm⟩

theorem respData_eq_of_covered (ha1 nonce nc cnonce qop ha2 : Bytes) (hq : covered qop = true) :
    respData ha1 nonce nc cnonce qop ha2 =
      ha1 ++ 58 :: (nonce ++ 58 :: (nc ++ 58 :: (cnonce ++ 58 :: (qop ++ 58 :: ha2)))) := by
  simp [respData, hq]

theorem respData_eq_of_not_covered (ha1 nonce nc cnonce qop ha2 : Bytes)
    (hq : covered qop = false) :
    respData ha1 nonce nc cnonce qop ha2 = ha1 ++ 58 :: (nonce ++ 58 :: ha2) := by
  simp [respData, hq]

/-- If both texts cover it, the number of the request is the same. The keys have
    no colon, so both texts have it at the same place. -/
theorem respData_nc (ha1 ha1' nonce cnonce cnonce' qop qop' ha2 ha2' : Bytes) (n n' : Nat)
    (hk : (58 : UInt8) ∉ ha1) (hk' : (58 : UInt8) ∉ ha1') (hq : covered qop = true)
    (hq' : covered qop' = true)
    (heq : respData ha1 nonce (formatHex n) cnonce qop ha2 =
      respData ha1' nonce (formatHex n') cnonce' qop' ha2') : n = n' := by
  rw [respData_eq_of_covered _ _ _ _ _ _ hq, respData_eq_of_covered _ _ _ _ _ _ hq'] at heq
  have hrest := append_cancel_left (append_colon_inj _ _ _ _ hk hk' heq).2
  have hnc := append_colon_inj _ _ _ _ (colon_not_mem_formatHex n) (colon_not_mem_formatHex n')
    (cons.inj hrest).2
  exact formatHex_injective n n' hnc.1

section Response

variable [h : HashFunctions]

/-- `hexHash`. -/
def hexHash (algorithm data : Bytes) : Bytes :=
  hexEncode (HashFunctions.sum (HashAlgorithm.ofName algorithm) data)

/-- `ComputeHA1`, which has the switch of `h` once more. -/
def computeHA1 (username realm password algorithm : Bytes) : Bytes :=
  hexHash algorithm (username ++ [58] ++ realm ++ [58] ++ password)

/-- `ComputeDigestResponse`. -/
def computeDigestResponse (ha1 nonce nc cnonce qop method uri algorithm : Bytes) : Bytes :=
  let ha2 := hexHash algorithm (method ++ [58] ++ uri)
  hexHash algorithm (respData ha1 nonce nc cnonce qop ha2)

/-- What `ComputeDigestResponse` hashes last, and the function. -/
def hashedText (ha1 nonce nc cnonce qop method uri algorithm : Bytes) : HashAlgorithm × Bytes :=
  (.ofName algorithm, respData ha1 nonce nc cnonce qop (hexHash algorithm (method ++ [58] ++ uri)))

/-- `VerifyDigest`. -/
def verifyDigest (creds : DigestCredentials) (ha1 method : Bytes) : Bool :=
  let nc := if creds.qop ≠ [] then formatHex creds.nc.toNat else []
  computeDigestResponse ha1 creds.nonce nc creds.cnonce creds.qop method creds.uri creds.algorithm
    = creds.response

/-- What `VerifyDigest` hashes last. -/
def DigestCredentials.hashed (creds : DigestCredentials) (ha1 method : Bytes) :
    HashAlgorithm × Bytes :=
  let nc := if creds.qop ≠ [] then formatHex creds.nc.toNat else []
  hashedText ha1 creds.nonce nc creds.cnonce creds.qop method creds.uri creds.algorithm

/-- A hash in hexadecimal has no colon. -/
theorem colon_not_mem_hexHash (algorithm data : Bytes) : (58 : UInt8) ∉ hexHash algorithm data :=
  fun hm => (IsHex.ne _ (isHex_hexEncode _ _ hm)).1 rfl

/-- A hash in hexadecimal determines which of the texts was hashed. -/
theorem CollisionFree.inj {texts : Set (HashAlgorithm × Bytes)} (hfree : CollisionFree h texts)
    {x y : HashAlgorithm × Bytes} (hx : x ∈ texts) (hy : y ∈ texts)
    (heq : hexEncode (HashFunctions.sum x.1 x.2) = hexEncode (HashFunctions.sum y.1 y.2)) : x = y :=
  hfree hx hy (hexEncode_injective _ _ heq)

/-- A response that was verified is the one for qop `auth` and a given algorithm,
    if the credentials say so. -/
theorem response_eq_of_verifyDigest (creds : DigestCredentials) (ha1 method algorithm : Bytes)
    (hv : verifyDigest creds ha1 method = true) (hq : creds.qop = ascii "auth")
    (ha : HashAlgorithm.ofName creds.algorithm = HashAlgorithm.ofName algorithm) :
    creds.response = computeDigestResponse ha1 creds.nonce (formatHex creds.nc.toNat) creds.cnonce
      (ascii "auth") method creds.uri algorithm := by
  have hne : creds.qop ≠ [] := by
    rw [hq]
    decide
  have hv' := of_decide_eq_true hv
  rw [if_pos hne, hq] at hv'
  rw [← hv']
  simp [computeDigestResponse, hexHash, ha]

/-- If it is, the credentials say so. -/
theorem qop_eq_of_response_eq {texts : Set (HashAlgorithm × Bytes)}
    (hfree : CollisionFree h texts) (creds : DigestCredentials) (ha1 method algorithm : Bytes)
    (hhashed : creds.hashed ha1 method ∈ texts)
    (hasked : hashedText ha1 creds.nonce (formatHex creds.nc.toNat) creds.cnonce (ascii "auth")
      method creds.uri algorithm ∈ texts)
    (hv : verifyDigest creds ha1 method = true)
    (heq : creds.response = computeDigestResponse ha1 creds.nonce (formatHex creds.nc.toNat)
      creds.cnonce (ascii "auth") method creds.uri algorithm) :
    creds.qop = ascii "auth" ∧
      HashAlgorithm.ofName creds.algorithm = HashAlgorithm.ofName algorithm := by
  have hv' := (of_decide_eq_true hv).trans heq
  rcases Prod.mk.inj (hfree.inj hhashed hasked hv') with ⟨halg, hdata⟩
  refine ⟨?_, halg⟩
  rw [respData_eq_of_covered _ _ _ _ (ascii "auth") _ (by decide)] at hdata
  cases hq : covered creds.qop with
  | false =>
    -- Without coverage the second hash would have a colon in it.
    rw [respData_eq_of_not_covered _ _ _ _ _ _ hq] at hdata
    have hrest := (cons.inj (append_cancel_left hdata)).2
    have hrest' := (cons.inj (append_cancel_left hrest)).2
    have hcolon := colon_not_mem_hexHash creds.algorithm (method ++ [58] ++ creds.uri)
    rw [hrest'] at hcolon
    exact absurd (mem_append_right _ mem_cons_self) hcolon
  | true =>
    have hne : creds.qop ≠ [] := by
      intro hc
      rw [hc] at hq
      exact absurd hq (by decide)
    rw [respData_eq_of_covered _ _ _ _ _ _ hq, if_pos hne] at hdata
    have hrest := (cons.inj (append_cancel_left hdata)).2
    have hrest := (cons.inj (append_cancel_left hrest)).2
    have hrest := (cons.inj (append_cancel_left hrest)).2
    have hrest := (cons.inj (append_cancel_left hrest)).2
    have hplain : (58 : UInt8) ∉ creds.qop := by
      rcases Bool.or_eq_true_iff.mp hq with hx | hx
      · rw [of_decide_eq_true hx]
        decide
      · rw [of_decide_eq_true hx]
        decide
    exact (append_colon_inj _ _ _ _ hplain (by decide) hrest).1

/-- Two responses over one nonce that cover the number of the request are
    different if the numbers are. -/
theorem nc_eq_of_response_eq {texts : Set (HashAlgorithm × Bytes)}
    (hfree : CollisionFree h texts) (a b : DigestCredentials) (ha1 ha1' method method' : Bytes)
    (ha : a.hashed ha1 method ∈ texts) (hb : b.hashed ha1' method' ∈ texts)
    (hk : (58 : UInt8) ∉ ha1) (hk' : (58 : UInt8) ∉ ha1') (hq : covered a.qop = true)
    (hq' : covered b.qop = true)
    (hv : verifyDigest a ha1 method = true) (hv' : verifyDigest b ha1' method' = true)
    (hn : a.nonce = b.nonce) (hr : a.response = b.response) : a.nc = b.nc := by
  have hne : ∀ qop, covered qop = true → qop ≠ [] := by
    intro qop hc hnil
    rw [hnil] at hc
    exact absurd hc (by decide)
  have hresp := (of_decide_eq_true hv).trans (hr.trans (of_decide_eq_true hv').symm)
  have heq := (Prod.mk.inj (hfree.inj ha hb hresp)).2
  rw [if_pos (hne _ hq), if_pos (hne _ hq'), hn] at heq
  exact UInt64.toNat_inj.mp (respData_nc _ _ _ _ _ _ _ _ _ _ _ hk hk' hq hq' heq)

end Response

end Sip

namespace Samples

open Sip

/-- Hash functions without collisions: the text itself, behind the number of the
    function. -/
scoped instance taggedHash : HashFunctions where
  sum
    | .MD5, data => 1 :: data
    | .SHA256, data => 2 :: data
    | .SHA512256, data => 3 :: data

theorem collisionFree_taggedHash (texts : Set (HashAlgorithm × Bytes)) :
    CollisionFree taggedHash texts := by
  rintro ⟨a, x⟩ - ⟨b, y⟩ - heq
  cases a <;> cases b <;>
    first
    | exact Prod.ext rfl (cons.inj heq).2
    | exact absurd (cons.inj heq).1 (by decide)

end Samples

end Trecs
