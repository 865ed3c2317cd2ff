import Trecs.Trunk.Config

/-!
# Trusted Addresses

An INVITE from a trusted address needs no proxy authentication. An address is
trusted if it is in one of the ranges in the manager's table.

The ranges are meant for trunks of type `static`. A trunk of type `registration`
may have some as well, since `validate` parses them for every type, and
`TrustedIPMatches` asks all trunks. So such a range switches the authentication
off too. What decides is the configuration alone (`trustedIPMatches_iff`): both
ways of parsing the ranges come to the same.

## Main definitions

* `TrunkEntry.trustedIPMatches`, `ConfiguredManager.trustedIPMatches`: The Go
  methods `TrustedIPMatches`.
* `TrunkEntry.Trusts`: A configured range contains an address.
* `TrunkConfig.TrustedBy`: A trunk of a type has such a range.

## Theorems

* `trustedIPMatches_iff`: Whom the manager trusts.
* `staticOnly_iff`: When only static trunks count.
-/

namespace Trecs

open List

namespace Trunks

namespace TrunkEntry

/-- `Trunk.TrustedIPMatches`. -/
def trustedIPMatches (t : TrunkEntry) (ip : Bytes) : Bool :=
  match parseAddr ip with
  | none => false
  | some a => t.validCIDRs.any (·.contains a)

/-- One of the ranges in the configuration contains the address. -/
def Trusts (t : TrunkEntry) (a : Addr) : Prop :=
  ∃ cidr ∈ t.trustedIPs, ∃ p, parseAddrPrefix cidr = some p ∧ p.contains a = true

/-- One of the parsed prefixes contains the address. -/
def InCIDRs (t : TrunkEntry) (a : Addr) : Prop := t.validCIDRs.any (·.contains a) = true

/-- Prefixes that are those of the texts contain the same addresses. -/
theorem inCIDRs_iff {t u : TrunkEntry} (a : Addr)
    (h : ∀ p, p ∈ u.validCIDRs ↔ ∃ cidr ∈ t.trustedIPs, parseAddrPrefix cidr = some p) :
    u.InCIDRs a ↔ t.Trusts a := by
  rw [InCIDRs, List.any_eq_true]
  constructor
  · rintro ⟨p, hp, ha⟩
    rcases (h p).mp hp with ⟨cidr, hcidr, hparse⟩
    exact ⟨cidr, hcidr, p, hparse, ha⟩
  · rintro ⟨cidr, hcidr, p, hparse, ha⟩
    exact ⟨p, (h p).mpr ⟨cidr, hcidr, hparse⟩, ha⟩

end TrunkEntry

section Manager

variable [RegexpLib]

/-- `TrunkManager.TrustedIPMatches`. -/
def ConfiguredManager.trustedIPMatches (m : ConfiguredManager) (ip : Bytes) : Bool :=
  m.trunks.entries.any (fun e => e.2.trustedIPMatches ip)

/-- A trunk of the type has a range that contains the address. -/
def TrunkConfig.TrustedBy (cfg : TrunkConfig) (type : TrunkType) (a : Addr) : Prop :=
  ∃ t ∈ cfg.trunks, t.type = type ∧ t.Trusts a

/-- A trunk in the table has a prefix that contains the address. -/
def InTable (m : AList (fun _ : Bytes => TrunkEntry)) (a : Addr) : Prop :=
  ∃ name t, m.lookup name = some t ∧ t.InCIDRs a

theorem trustedIPMatches_iff_inTable (m : ConfiguredManager) (ip : Bytes) (a : Addr)
    (ha : parseAddr ip = some a) : m.trustedIPMatches ip = true ↔ InTable m.trunks a := by
  have hentry : ∀ t : TrunkEntry, t.trustedIPMatches ip = true ↔ t.InCIDRs a := fun t => by
    rw [TrunkEntry.trustedIPMatches, ha]
    exact Iff.rfl
  rw [ConfiguredManager.trustedIPMatches, List.any_eq_true]
  constructor
  · rintro ⟨⟨name, t⟩, hmem, ht⟩
    exact ⟨name, t, AList.mem_lookup_iff.mpr hmem, (hentry t).mp ht⟩
  · rintro ⟨name, t, hlook, ht⟩
    exact ⟨⟨name, t⟩, AList.mem_lookup_iff.mp hlook, (hentry t).mpr ht⟩

end Manager

/-! ### Both ways of parsing -/

theorem inTable_insert (m : AList (fun _ : Bytes => TrunkEntry)) (name : Bytes) (u : TrunkEntry)
    (a : Addr) (hnew : (m.lookup name).isSome = false) :
    InTable (m.insert name u) a ↔ u.InCIDRs a ∨ InTable m a := by
  constructor
  · rintro ⟨k, t, hlook, ht⟩
    by_cases hk : k = name
    · rw [hk, AList.lookup_insert] at hlook
      cases hlook
      exact .inl ht
    · rw [AList.lookup_insert_ne hk] at hlook
      exact .inr ⟨k, t, hlook, ht⟩
  · rintro (hu | ⟨k, t, hlook, ht⟩)
    · exact ⟨name, u, AList.lookup_insert _, hu⟩
    · have hk : k ≠ name := by
        rintro rfl
        rw [hlook] at hnew
        cases hnew
      exact ⟨k, t, by rw [AList.lookup_insert_ne hk]; exact hlook, ht⟩

/-- What `validate` makes of a trunk: it keeps the type, which is one of the two,
    and the texts of the ranges. -/
structure Checked (t u : TrunkEntry) : Prop where
  type : u.type = t.type
  known : t.type = .static ∨ t.type = .registration
  trustedIPs : u.trustedIPs = t.trustedIPs

theorem Checked.trusts {t u : TrunkEntry} (h : Checked t u) (a : Addr) :
    u.Trusts a ↔ t.Trusts a := by
  rw [TrunkEntry.Trusts, h.trustedIPs, TrunkEntry.Trusts]

/-- Ranges are found in the checked trunks where they were configured. -/
theorem exists_trusts_iff {ts vs : List TrunkEntry} (h : List.Forall₂ Checked ts vs) (a : Addr) :
    (∃ v ∈ vs, v.Trusts a) ↔
      (∃ t ∈ ts, t.type = .static ∧ t.Trusts a) ∨
        ∃ t ∈ ts, t.type = .registration ∧ t.Trusts a := by
  induction h with
  | nil => simp only [not_mem_nil, false_and, exists_false, or_self]
  | @cons t v ts vs ht _ ih =>
    simp only [mem_cons, exists_eq_or_imp, ht.trusts a, ih]
    rcases ht.known with hs | hr
    · simp only [hs, true_and, reduceCtorEq, false_and, false_or, or_assoc]
    · simp only [hr, true_and, reduceCtorEq, false_and, false_or]
      rw [or_left_comm]

section Parsing

variable [UnicodePrint] [NetipText]

/-- The manager trusts whom the configuration trusts, whether the prefixes had
    been parsed before or not. -/
theorem inCIDRs_of_addTrunks {ts : List TrunkEntry} {m m' : AList (fun _ : Bytes => TrunkEntry)}
    (h : addTrunks ts m = .ok m') (a : Addr) :
    InTable m' a ↔ InTable m a ∨ ∃ t ∈ ts, t.Trusts a := by
  induction ts generalizing m with
  | nil =>
    rw [← Except.ok.inj h]
    simp
  | cons t ts ih =>
    rw [addTrunks] at h
    rcases guard_eq_ok h with ⟨hdup, h⟩
    have hnew : (m.lookup t.name).isSome = false := Bool.eq_false_of_not_eq_true hdup
    -- What is stored for this trunk contains the addresses of its texts.
    have hstored : ∃ u : TrunkEntry, addTrunks ts (m.insert t.name u) = .ok m' ∧
        (u.InCIDRs a ↔ t.Trusts a) := by
      by_cases hparse : t.validCIDRs = [] ∧ t.trustedIPs ≠ []
      · rw [if_pos hparse] at h
        rcases hu : t.parseTrusted with e | u
        · rw [hu] at h
          cases h
        · rw [hu] at h
          exact ⟨u, h, TrunkEntry.inCIDRs_iff a (TrunkEntry.parseTrusted_eq_ok hu).1⟩
      · rw [if_neg hparse] at h
        refine ⟨t, h, ?_⟩
        rcases t.parsed with hnil | hall
        · have hnone : t.trustedIPs = [] := by
            by_contra hne
            exact hparse ⟨hnil, hne⟩
          rw [TrunkEntry.InCIDRs, TrunkEntry.Trusts, hnil, hnone]
          simp
        · exact TrunkEntry.inCIDRs_iff a hall
    rcases hstored with ⟨u, hrest, hu⟩
    rw [ih hrest, inTable_insert m t.name u a hnew, hu]
    simp only [mem_cons, exists_eq_or_imp]
    rw [or_comm (a := t.Trusts a), or_assoc]

variable [UnicodeLower]

theorem checked_of_validate {t u v : TrunkEntry} (hu : t.validate = .ok u)
    (hv : u.parseTrusted = .ok v) : Checked t v := by
  rcases TrunkEntry.validate_eq_ok hu with ⟨hvalid, heq⟩
  rcases TrunkEntry.parseTrusted_eq_ok hv with ⟨_, hips, htype, _⟩
  have hut : u.type = t.type := by rw [heq]
  refine ⟨htype.trans hut, ?_, ?_⟩
  · rw [← hut]
    exact hvalid.type.imp_right And.left
  · rw [hips, heq]

theorem checked_of_validateTrunks {ts vs : List TrunkEntry} {seen : List Bytes}
    (h : validateTrunks ts seen = .ok vs) : List.Forall₂ Checked ts vs := by
  induction ts generalizing vs seen with
  | nil =>
    rw [← Except.ok.inj h]
    exact List.Forall₂.nil
  | cons t ts ih =>
    rw [validateTrunks] at h
    rcases hu : t.validate with e | u
    · rw [hu] at h
      cases h
    · rw [hu] at h
      rcases guard_eq_ok h with ⟨_, h⟩
      rcases hv : u.parseTrusted with e | v
      · rw [hv] at h
        cases h
      · rw [hv] at h
        rcases map_eq_ok h with ⟨ws, hrest, rfl⟩
        exact List.Forall₂.cons (checked_of_validate hu hv) (ih hrest)

end Parsing

/-! ### Whom the manager trusts -/

section Trusted

variable [RegexpLib] [UnicodePrint] [NetipText] [UnicodeLower]

theorem trunks_of_validate {cfg cfg' : TrunkConfig} (h : cfg.validate = .ok cfg') :
    List.Forall₂ Checked cfg.trunks cfg'.trunks := by
  unfold TrunkConfig.validate at h
  rcases guard_eq_ok h with ⟨_, h⟩
  rcases hts : validateTrunks cfg.trunks [] with e | trunks
  · rw [hts] at h
    cases h
  · rw [hts] at h
    rcases map_eq_ok h with ⟨routes, _, rfl⟩
    exact checked_of_validateTrunks hts

omit [UnicodeLower] in
theorem trunks_of_newTrunkManager {cfg : TrunkConfig} {m : ConfiguredManager}
    (h : newTrunkManager cfg = .ok m) : addTrunks cfg.trunks ∅ = .ok m.trunks := by
  unfold newTrunkManager at h
  rcases hts : addTrunks cfg.trunks ∅ with e | trunks
  · rw [hts] at h
    cases h
  · rw [hts] at h
    rcases map_eq_ok h with ⟨routes, _, hm⟩
    rw [← hm]

/-- The manager trusts an address if a trunk of either type does. -/
theorem trustedIPMatches_iff {cfg cfg' : TrunkConfig} {m : ConfiguredManager}
    (hv : cfg.validate = .ok cfg') (hm : newTrunkManager cfg' = .ok m) {ip : Bytes} {a : Addr}
    (ha : parseAddr ip = some a) :
    m.trustedIPMatches ip = true ↔ cfg.TrustedBy .static a ∨ cfg.TrustedBy .registration a := by
  have hempty : ¬ InTable ∅ a := by
    rintro ⟨name, t, hlook, _⟩
    cases hlook
  rw [trustedIPMatches_iff_inTable m ip a ha,
    inCIDRs_of_addTrunks (trunks_of_newTrunkManager hm) a, or_iff_right hempty,
    exists_trusts_iff (trunks_of_validate hv) a]
  exact Iff.rfl

/-- Only static trunks count for an address exactly if no registration trunk
    trusts it on its own. -/
theorem staticOnly_iff (cfg cfg' : TrunkConfig) (m : ConfiguredManager) (ip : Bytes) (a : Addr)
    (hv : cfg.validate = .ok cfg') (hm : newTrunkManager cfg' = .ok m)
    (ha : parseAddr ip = some a) :
    (m.trustedIPMatches ip = true ↔ cfg.TrustedBy .static a) ↔
      (cfg.TrustedBy .registration a → cfg.TrustedBy .static a) := by
  rw [trustedIPMatches_iff hv hm ha]
  constructor
  · intro h hr
    exact h.mp (Or.inr hr)
  · intro h
    exact ⟨fun hor => hor.elim id h, Or.inl⟩

end Trusted

open Samples

/-- A trunk of each type, with a range of its own. -/
def sampleConfig : TrunkConfig where
  trunks := [trunkTrusting (ascii "s") .static [ascii "10.0.1.0/24"],
    trunkTrusting (ascii "r") .registration [ascii "10.9.0.0/16", ascii "2001:db8::/32"]]
  routes := []

/-- What the manager of the configuration says about an address. -/
def sampleMatches (ip : Bytes) : Option Bool :=
  sampleConfig.validate.toOption.bind (fun cfg =>
    (newTrunkManager cfg).toOption.map (fun m => m.trustedIPMatches ip))

/-- The configuration passes, so a manager with what it says exists. -/
theorem exists_sampleManager {ip : Bytes} {b : Bool} (h : sampleMatches ip = some b) :
    ∃ cfg m, sampleConfig.validate = .ok cfg ∧ newTrunkManager cfg = .ok m ∧
      m.trustedIPMatches ip = b := by
  unfold sampleMatches at h
  rcases hv : sampleConfig.validate with e | cfg
  · rw [hv] at h
    contradiction
  · rw [hv] at h
    simp only [Except.toOption, Option.bind_some] at h
    rcases hm : newTrunkManager cfg with e | m
    · rw [hm] at h
      contradiction
    · rw [hm] at h
      exact ⟨cfg, m, rfl, hm, Option.some.inj h⟩

theorem staticOnly_iff_sampleConfig :
    ∃ cfg m a, sampleConfig.validate = .ok cfg ∧ newTrunkManager cfg = .ok m ∧
      parseAddr (ascii "10.0.1.77") = some a ∧ m.trustedIPMatches (ascii "10.0.1.77") = true ∧
      (m.trustedIPMatches (ascii "10.0.1.77") = true ↔ sampleConfig.TrustedBy .static a) := by
  have hsome : sampleMatches (ascii "10.0.1.77") = some true := by decide +kernel
  rcases exists_sampleManager hsome with ⟨cfg, m, hv, hm, htrue⟩
  have ha : parseAddr (ascii "10.0.1.77") = some (.v4 0x0A00014D#32) := by decide +kernel
  refine ⟨cfg, m, _, hv, hm, ha, htrue, (staticOnly_iff _ _ _ _ _ hv hm ha).mpr fun _ => ?_⟩
  exact ⟨_, mem_cons_self, rfl, _, mem_cons_self, .v4 0x0A000100#32 24,
    by decide +kernel, by decide +kernel⟩

/-- The range of a registration trunk switches the authentication off. -/
theorem staticOnly_fails :
    ∃ cfg m a, sampleConfig.validate = .ok cfg ∧ newTrunkManager cfg = .ok m ∧
      parseAddr (ascii "10.9.1.1") = some a ∧
      ¬ (m.trustedIPMatches (ascii "10.9.1.1") = true ↔ sampleConfig.TrustedBy .static a) := by
  have hsome : sampleMatches (ascii "10.9.1.1") = some true := by decide +kernel
  rcases exists_sampleManager hsome with ⟨cfg, m, hv, hm, htrue⟩
  have ha : parseAddr (ascii "10.9.1.1") = some (.v4 0x0A090101#32) := by decide +kernel
  refine ⟨cfg, m, _, hv, hm, ha, fun h => ?_⟩
  rcases h.mp htrue with ⟨t, ht, htype, cidr, hcidr, p, hp, hin⟩
  rcases mem_cons.mp ht with rfl | ht
  · -- The static trunk has one range, and the address is not in it.
    rw [mem_singleton.mp hcidr,
      show parseAddrPrefix (ascii "10.0.1.0/24") = some (.v4 0x0A000100#32 24) by decide +kernel,
      Option.some.injEq] at hp
    rw [← hp] at hin
    exact absurd hin (by decide +kernel)
  · rw [mem_singleton.mp ht] at htype
    exact absurd htype (by decide)

end Trunks

end Trecs
