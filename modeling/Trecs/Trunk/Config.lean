import Mathlib.Data.List.AList
import Trecs.Lib.Netip
import Trecs.Lib.Outcome
import Trecs.Lib.Quote
import Trecs.Lib.Unicode

/-!
# The Trunk Configuration

`internal/trunk/config.go` and `NewTrunkManager`: the configured trunks and
routes, the checks a configuration has to pass, and the tables the manager keeps
of it.

The trusted address ranges of a trunk are texts, and the parsed prefixes are kept
beside them. Both `validate` and `NewTrunkManager` parse them, the second only if
nothing has been parsed yet, so an entry has either no prefixes or exactly those
of its texts.

Regular expressions are a parameter, and so is what `netip.ParsePrefix` says
about a text it refuses.

## Main definitions

* `TrunkEntry`, `OutboundRoute`, `TrunkConfig`: The Go structs.
* `TrunkEntry.validate`, `OutboundRoute.validate`, `TrunkConfig.validate`: The
  checks.
* `ConfiguredManager`, `newTrunkManager`: The tables of the manager.

## Theorems

* `TrunkEntry.validate_eq_ok`: What the checks leave of a trunk.
-/

namespace Trecs

open List

namespace Trunks

/-- The Go type `TrunkType`, a string. -/
inductive TrunkType where
  | static
  | registration
  | other (name : Bytes)
deriving Repr, DecidableEq

/-- The string. -/
def TrunkType.text : TrunkType → Bytes
  | .static => ascii "static"
  | .registration => ascii "registration"
  | .other name => name

/-- The package `regexp`: compiling a pattern, with the text of its error, and
    whether `FindStringIndex` finds it. -/
class RegexpLib where
  Regexp : Type
  compile : Bytes → Except Bytes Regexp
  found : Regexp → Bytes → Bool

/-- The text of the error of `netip.ParsePrefix`. -/
class NetipText where
  refused : Bytes → Bytes

end Trunks

namespace Samples

open Trunks

/-- Patterns that stand for themselves. -/
scoped instance literalPatterns : RegexpLib where
  Regexp := Bytes
  compile p := .ok p
  found p s := decide (p <:+: s)

/-- One text for all errors. -/
scoped instance plainNetipText : NetipText := ⟨fun _ => ascii "bad prefix"⟩

end Samples

namespace Trunks

/-- The Go struct `Trunk` with the fields that call handling, registering and
    address checks read. -/
structure TrunkEntry where
  name : Bytes
  type : TrunkType
  host : Bytes
  port : Int64
  transport : Bytes
  authUser : Bytes
  authPass : Bytes
  maxChannels : Int64
  callerID : Bytes
  trustedIPs : List Bytes
  registerURI : Bytes
  stripHeaders : List Bytes
  sessionExpiresSec : Int64
  localIP : Bytes
  validCIDRs : List AddrPrefix
  /-- The prefixes have not been parsed yet, or they are those of the texts. -/
  parsed : validCIDRs = [] ∨
    ∀ p, p ∈ validCIDRs ↔ ∃ cidr ∈ trustedIPs, parseAddrPrefix cidr = some p

section Regexp

variable [RegexpLib]

/-- The Go struct `OutboundRoute`. -/
structure OutboundRoute where
  name : Bytes
  pattern : Bytes
  trunkName : Bytes
  stripDigits : Int64
  prefixDigits : Bytes
  compiled : Option RegexpLib.Regexp

/-- The Go struct `TrunkConfig`. -/
structure TrunkConfig where
  trunks : List TrunkEntry
  routes : List OutboundRoute

end Regexp

section Parse

variable [UnicodePrint] [NetipText]

/-- The loop that parses the trusted ranges. -/
def parseCIDRs : List Bytes → Except Bytes (List AddrPrefix)
  | [] => .ok []
  | cidr :: cidrs =>
    match parseAddrPrefix cidr with
    | none => .error (ascii "trusted_ip " ++ quote cidr ++ ascii ": " ++ NetipText.refused cidr)
    | some p => (parseCIDRs cidrs).map (fun ps => p :: ps)

theorem mem_parseCIDRs {cidrs : List Bytes} {ps : List AddrPrefix}
    (h : parseCIDRs cidrs = .ok ps) (p : AddrPrefix) :
    p ∈ ps ↔ ∃ cidr ∈ cidrs, parseAddrPrefix cidr = some p := by
  induction cidrs generalizing ps with
  | nil =>
    rw [← Except.ok.inj h]
    simp
  | cons cidr cidrs ih =>
    rw [parseCIDRs] at h
    rcases hp : parseAddrPrefix cidr with _ | q
    · rw [hp] at h
      contradiction
    · rw [hp] at h
      rcases map_eq_ok h with ⟨qs, hrest, hps⟩
      rw [← hps, mem_cons, ih hrest]
      simp only [mem_cons, exists_eq_or_imp, hp, Option.some.injEq]
      rw [@eq_comm _ p q]

theorem parseCIDRs_parsed {old : List AddrPrefix} {cidrs : List Bytes} {ps : List AddrPrefix}
    (hold : old = [] ∨ ∀ p, p ∈ old ↔ ∃ cidr ∈ cidrs, parseAddrPrefix cidr = some p)
    (h : parseCIDRs cidrs = .ok ps) (p : AddrPrefix) :
    p ∈ old ++ ps ↔ ∃ cidr ∈ cidrs, parseAddrPrefix cidr = some p := by
  rw [mem_append, mem_parseCIDRs h]
  rcases hold with hnil | hall
  · simp [hnil]
  · rw [hall p, or_self]

namespace TrunkEntry

/-- `append(t.validCIDRs, prefix)` for each of the texts. -/
def withCIDRs (t : TrunkEntry) (ps : List AddrPrefix) (h : parseCIDRs t.trustedIPs = .ok ps) :
    TrunkEntry :=
  { t with validCIDRs := t.validCIDRs ++ ps, parsed := .inr (parseCIDRs_parsed t.parsed h) }

/-- The loop over `TrustedIPs` with its appends. -/
def parseTrusted (t : TrunkEntry) : Except Bytes TrunkEntry :=
  match h : parseCIDRs t.trustedIPs with
  | .error e => .error e
  | .ok ps => .ok (t.withCIDRs ps h)

/-- After the loop the prefixes are those of the texts. -/
theorem parseTrusted_eq_ok {t u : TrunkEntry} (h : t.parseTrusted = .ok u) :
    (∀ p, p ∈ u.validCIDRs ↔ ∃ cidr ∈ t.trustedIPs, parseAddrPrefix cidr = some p) ∧
      u.trustedIPs = t.trustedIPs ∧ u.type = t.type ∧ u.name = t.name := by
  unfold parseTrusted at h
  split at h
  · cases h
  · rename_i ps hps
    rw [← Except.ok.inj h]
    exact ⟨parseCIDRs_parsed t.parsed hps, rfl, rfl, rfl⟩

end TrunkEntry

end Parse

/-! ### The checks -/

section Validate

variable [UnicodeLower] [UnicodePrint]

namespace TrunkEntry

/-- The transport. A missing one is UDP. -/
def checkTransport (t : TrunkEntry) : Except Bytes TrunkEntry :=
  let transport := toLower t.transport
  if transport = ascii "udp" ∨ transport = ascii "tcp" then .ok t
  else if transport = [] then .ok { t with transport := ascii "udp" }
  else .error (ascii "unsupported transport " ++ quote t.transport ++ ascii " (use udp or tcp)")

/-- The type, and what a registration needs. -/
def checkType (t : TrunkEntry) : Except Bytes TrunkEntry :=
  match t.type with
  | .static => .ok t
  | .registration =>
    if t.authUser = [] then .error (ascii "auth_user is required for registration trunks")
    else if t.authPass = [] then .error (ascii "auth_password is required for registration trunks")
    else .ok t
  | .other _ => .error (ascii "unsupported type " ++ quote t.type.text ++
      ascii " (use static or registration)")

/-- `Trunk.validate`. -/
def validate (t : TrunkEntry) : Except Bytes TrunkEntry :=
  if t.name = [] then .error (ascii "name is required")
  else if t.host = [] then .error (ascii "host is required")
  else if t.port.toInt < 1 ∨ 65535 < t.port.toInt then
    .error (ascii "port " ++ formatInt t.port.toInt ++ ascii " out of range [1-65535]")
  else do
    let t ← t.checkTransport
    let t ← t.checkType
    if t.maxChannels.toInt < 0 then .error (ascii "max_channels must be >= 0") else return t

/-- What the checks are for. -/
structure Valid (t : TrunkEntry) : Prop where
  named : t.name ≠ []
  hosted : t.host ≠ []
  port : 1 ≤ t.port.toInt ∧ t.port.toInt ≤ 65535
  transport : toLower t.transport = ascii "udp" ∨ toLower t.transport = ascii "tcp"
  type : t.type = .static ∨ t.type = .registration ∧ t.authUser ≠ [] ∧ t.authPass ≠ []
  channels : 0 ≤ t.maxChannels.toInt

theorem checkTransport_eq_ok {t u : TrunkEntry} (h : t.checkTransport = .ok u) :
    (toLower u.transport = ascii "udp" ∨ toLower u.transport = ascii "tcp") ∧
      u = { t with transport := u.transport } := by
  unfold checkTransport at h
  by_cases hknown : toLower t.transport = ascii "udp" ∨ toLower t.transport = ascii "tcp"
  · rw [if_pos hknown] at h
    rw [← Except.ok.inj h]
    exact ⟨hknown, rfl⟩
  · rw [if_neg hknown] at h
    by_cases hmissing : toLower t.transport = []
    · rw [if_pos hmissing] at h
      rw [← Except.ok.inj h]
      exact ⟨Or.inl rfl, rfl⟩
    · rw [if_neg hmissing] at h
      cases h

omit [UnicodeLower] in
theorem checkType_eq_ok {t u : TrunkEntry} (h : t.checkType = .ok u) :
    u = t ∧ (t.type = .static ∨ t.type = .registration ∧ t.authUser ≠ [] ∧ t.authPass ≠ []) := by
  unfold checkType at h
  cases htype : t.type with
  | static =>
    rw [htype] at h
    exact ⟨(Except.ok.inj h).symm, Or.inl rfl⟩
  | registration =>
    rw [htype] at h
    rcases guard_eq_ok h with ⟨huser, h⟩
    rcases guard_eq_ok h with ⟨hpass, h⟩
    exact ⟨(Except.ok.inj h).symm, Or.inr ⟨rfl, huser, hpass⟩⟩
  | other name =>
    rw [htype] at h
    cases h

/-- What passes the checks is valid, and only the transport may have been set. -/
theorem validate_eq_ok {t u : TrunkEntry} (h : t.validate = .ok u) :
    u.Valid ∧ u = { t with transport := u.transport } := by
  unfold validate at h
  rcases guard_eq_ok h with ⟨hname, h⟩
  rcases guard_eq_ok h with ⟨hhost, h⟩
  rcases guard_eq_ok h with ⟨hport, h⟩
  rcases bind_eq_ok h with ⟨v, htr, h⟩
  rcases bind_eq_ok h with ⟨w, hty, h⟩
  rcases guard_eq_ok h with ⟨hmax, h⟩
  rcases checkTransport_eq_ok htr with ⟨htransport, hv⟩
  rcases checkType_eq_ok hty with ⟨hw, htype⟩
  have hu : u = v := (Except.ok.inj h).symm.trans hw
  rw [hw] at hmax
  rw [hu]
  refine ⟨⟨?_, ?_, ?_, htransport, htype, Int.not_lt.mp hmax⟩, hv⟩
  · rw [hv]
    exact hname
  · rw [hv]
    exact hhost
  · rw [hv]
    simp only
    omega

end TrunkEntry

variable [RegexpLib] [NetipText]

/-- `OutboundRoute.validate`. -/
def OutboundRoute.validate (r : OutboundRoute) : Except Bytes OutboundRoute :=
  if r.name = [] then .error (ascii "name is required")
  else if r.pattern = [] then .error (ascii "pattern is required")
  else
    match RegexpLib.compile r.pattern with
    | .error e => .error (ascii "pattern " ++ quote r.pattern ++ ascii ": " ++ e)
    | .ok re =>
      if r.stripDigits.toInt < 0 then .error (ascii "strip_digits must be >= 0")
      else if r.trunkName = [] then .error (ascii "trunk reference is required")
      else .ok { r with compiled := some re }

/-- The loop of `TrunkConfig.validate` over the trunks, with the names seen so
    far. -/
def validateTrunks : List TrunkEntry → List Bytes → Except Bytes (List TrunkEntry)
  | [], _ => .ok []
  | t :: ts, seen =>
    match t.validate with
    | .error e => .error (ascii "trunk " ++ quote t.name ++ ascii ": " ++ e)
    | .ok u =>
      if u.name ∈ seen then .error (ascii "duplicate trunk name " ++ quote u.name)
      else
        match u.parseTrusted with
        | .error e => .error e
        | .ok v => (validateTrunks ts (u.name :: seen)).map (fun vs => v :: vs)

/-- The loop over the routes. -/
def validateRoutes (trunkNames : List Bytes) :
    List OutboundRoute → Except Bytes (List OutboundRoute)
  | [] => .ok []
  | r :: rs =>
    match r.validate with
    | .error e => .error (ascii "route " ++ quote r.name ++ ascii ": " ++ e)
    | .ok u =>
      if u.trunkName ∈ trunkNames then (validateRoutes trunkNames rs).map (fun us => u :: us)
      else .error (ascii "route " ++ quote u.name ++ ascii " references unknown trunk " ++
        quote u.trunkName)

/-- `TrunkConfig.validate`. -/
def TrunkConfig.validate (cfg : TrunkConfig) : Except Bytes TrunkConfig :=
  if cfg.trunks = [] then .error (ascii "at least one trunk is required")
  else
    match validateTrunks cfg.trunks [] with
    | .error e => .error e
    | .ok trunks =>
      (validateRoutes (trunks.map TrunkEntry.name) cfg.routes).map (fun routes => ⟨trunks, routes⟩)

/-! ### The manager -/

/-- The tables of the manager that come from the configuration. -/
structure ConfiguredManager where
  trunks : AList (fun _ : Bytes => TrunkEntry)
  routes : List OutboundRoute

/-- The loop of `NewTrunkManager` over the trunks. -/
def addTrunks : List TrunkEntry → AList (fun _ : Bytes => TrunkEntry) →
    Except Bytes (AList (fun _ : Bytes => TrunkEntry))
  | [], m => .ok m
  | t :: ts, m =>
    if (m.lookup t.name).isSome then .error (ascii "duplicate trunk name " ++ quote t.name)
    else if t.validCIDRs = [] ∧ t.trustedIPs ≠ [] then
      match t.parseTrusted with
      | .error e => .error (ascii "trunk " ++ quote t.name ++ ascii ": " ++ e)
      | .ok u => addTrunks ts (m.insert t.name u)
    else addTrunks ts (m.insert t.name t)

/-- The loop over the routes. -/
def compileRoutes : List OutboundRoute → Except Bytes (List OutboundRoute)
  | [] => .ok []
  | r :: rs =>
    match r.compiled with
    | some _ => (compileRoutes rs).map (fun us => r :: us)
    | none =>
      match RegexpLib.compile r.pattern with
      | .error e => .error (ascii "route " ++ quote r.name ++ ascii ": invalid pattern " ++
          quote r.pattern ++ ascii ": " ++ e)
      | .ok re => (compileRoutes rs).map (fun us => { r with compiled := some re } :: us)

/-- `NewTrunkManager`. -/
def newTrunkManager (cfg : TrunkConfig) : Except Bytes ConfiguredManager :=
  match addTrunks cfg.trunks ∅ with
  | .error e => .error e
  | .ok trunks => (compileRoutes cfg.routes).map (fun routes => ⟨trunks, routes⟩)

end Validate

/-- A trunk at 192.0.2.1 with trusted ranges. -/
def trunkTrusting (name : Bytes) (type : TrunkType) (trustedIPs : List Bytes) : TrunkEntry where
  name := name
  type := type
  host := ascii "192.0.2.1"
  port := 5060
  transport := ascii "udp"
  authUser := ascii "u"
  authPass := ascii "p"
  maxChannels := 0
  callerID := []
  trustedIPs := trustedIPs
  registerURI := []
  stripHeaders := []
  sessionExpiresSec := 0
  localIP := []
  validCIDRs := []
  parsed := .inl rfl

end Trunks

end Trecs
