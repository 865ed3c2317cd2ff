import Trecs.Proto.SdpSections

/-!
# SDP Round Trips

A description comes back from its text as it was exactly when none of its
numbers is negative, every number of ports is at least one, and every name
without a value is kept by its line. This holds for every description whose
parts the reader could have found.

## Main definitions

* `SDP.Rewritable`: What makes a description come back.
* `Clean`, `Word`, `NameValue`, `SDP.InDomain`: The domain of the writer.

## Theorems

* `SDP.reread_eq_self_iff`: When nothing changes.
* `SDP.Ok.comes_back_iff`: Writing and reading.
* `unmarshal_marshal_sdp`: The descriptions of the domain come back.
-/

namespace Trecs

open List Option

namespace Proto

/-! ### What comes back -/

/-- A media description that comes back as it was. -/
structure MediaDescription.Rewritable (md : MediaDescription) : Prop where
  ports : 1 ≤ md.portCount.toInt
  encryption : ∀ k ∈ md.encryption, PairKept k.method k.key
  attributes : ∀ a ∈ md.attributes, PairKept a.key a.value

/-- A description that is written and comes back as it was. -/
structure SDP.Rewritable (s : SDP) : Prop where
  numbers : ∀ n ∈ s.numbers, 0 ≤ n.toInt
  encryption : ∀ k ∈ s.encryption, PairKept k.method k.key
  attributes : ∀ a ∈ s.attributes, PairKept a.key a.value
  mediaDescs : ∀ md ∈ s.mediaDescs, md.Rewritable

theorem map_rereadPair_eq_iff {α : Type} (typ : UInt8) (name value : Bytes) (mk : Bytes × Bytes → α)
    (hmk : Function.Injective mk) :
    (rereadPair typ name value).map mk = .ok (mk (name, value)) ↔ PairKept name value := by
  rw [← rereadPair_eq_self_iff typ]
  constructor
  · intro h
    rcases map_eq_ok h with ⟨p, hp, heq⟩
    rw [hp, hmk heq]
  · intro h
    rw [h]
    rfl

theorem Attribute.reread_eq_self_iff (a : Attribute) :
    a.reread = .ok a ↔ PairKept a.key a.value :=
  map_rereadPair_eq_iff 97 a.key a.value (fun p => Attribute.mk p.1 p.2)
    (fun _ _ h => Prod.ext (congrArg Attribute.key h) (congrArg Attribute.value h))

theorem rereadKey_eq_self_iff (o : Option EncryptionKey) :
    rereadKey o = .ok o ↔ ∀ k ∈ o, PairKept k.method k.key := by
  cases o with
  | none => exact iff_of_true rfl (fun _ hk => absurd hk (by simp only [not_mem_none,
      not_false_eq_true]))
  | some k =>
    have hiff := map_rereadPair_eq_iff 107 k.method k.key (fun p => EncryptionKey.mk p.1 p.2)
      (fun _ _ h => Prod.ext (congrArg EncryptionKey.method h) (congrArg EncryptionKey.key h))
    simp only [mem_some_iff, forall_eq', ← hiff]
    constructor
    · intro h
      rcases map_eq_ok h with ⟨k', hk, heq⟩
      exact some.inj heq ▸ hk
    · intro h
      exact congrArg (Except.map some) h

variable {s : SDP} {name value : Bytes} (md : MediaDescription) {t : Bytes}

theorem MediaDescription.ports_eq_iff : md.ports = md.portCount ↔ 1 ≤ md.portCount.toInt := by
  unfold ports
  by_cases hcount : 1 < md.portCount.toInt
  · rw [if_pos hcount]
    exact iff_of_true rfl (by omega)
  · rw [if_neg hcount, ← Int64.toInt_inj, show (1 : Int64).toInt = 1 from rfl]
    omega

theorem MediaDescription.reread_eq_self_iff : md.reread = .ok md ↔ md.Rewritable := by
  constructor
  · intro h
    rcases bind_eq_ok h with ⟨k, hk, h⟩
    rcases bind_eq_ok h with ⟨as, has, h⟩
    have hmd := Except.ok.inj h
    have hkey : k = md.encryption := congrArg MediaDescription.encryption hmd
    have hattrs : as = md.attributes := congrArg MediaDescription.attributes hmd
    have hports : md.ports = md.portCount := congrArg MediaDescription.portCount hmd
    rw [hkey] at hk
    rw [hattrs, mapM_eq_self_iff] at has
    exact ⟨md.ports_eq_iff.mp hports, (rereadKey_eq_self_iff _).mp hk,
      fun a ha => a.reread_eq_self_iff.mp (has a ha)⟩
  · intro h
    have hattrs := (mapM_eq_self_iff Attribute.reread md.attributes).mpr
      (fun a ha => a.reread_eq_self_iff.mpr (h.attributes a ha))
    rw [reread, (rereadKey_eq_self_iff _).mpr h.encryption, hattrs, md.ports_eq_iff.mpr h.ports]
    rfl

theorem SDP.reread_eq_self_iff (s : SDP) (hn : ∀ n ∈ s.numbers, 0 ≤ n.toInt) :
    s.reread = .ok s ↔ s.Rewritable := by
  constructor
  · intro h
    rcases bind_eq_ok h with ⟨k, hk, h⟩
    rcases bind_eq_ok h with ⟨as, has, h⟩
    rcases bind_eq_ok h with ⟨mds, hmds, h⟩
    have hs := Except.ok.inj h
    have hkey : k = s.encryption := congrArg SDP.encryption hs
    have hattrs : as = s.attributes := congrArg SDP.attributes hs
    have hmedia : mds = s.mediaDescs := congrArg SDP.mediaDescs hs
    rw [hkey] at hk
    rw [hattrs, mapM_eq_self_iff] at has
    rw [hmedia, mapM_eq_self_iff] at hmds
    exact ⟨hn, (rereadKey_eq_self_iff _).mp hk, fun a ha => a.reread_eq_self_iff.mp (has a ha),
      fun md hmd => md.reread_eq_self_iff.mp (hmds md hmd)⟩
  · intro h
    have hattrs := (mapM_eq_self_iff Attribute.reread s.attributes).mpr
      (fun a ha => a.reread_eq_self_iff.mpr (h.attributes a ha))
    have hmds := (mapM_eq_self_iff MediaDescription.reread s.mediaDescs).mpr
      (fun md hmd => md.reread_eq_self_iff.mpr (h.mediaDescs md hmd))
    rw [reread, (rereadKey_eq_self_iff _).mpr h.encryption, hattrs, hmds]
    rfl

/-- A description that the reader could have found is written and comes back if
    and only if it is rewritable. -/
theorem SDP.Ok.comes_back_iff (h : s.Ok) :
    (∃ d, s.marshal = some d ∧ SDP.unmarshalSDPBytes d = some (.ok s)) ↔ s.Rewritable := by
  by_cases hn : ∀ n ∈ s.numbers, 0 ≤ n.toInt
  · rw [← s.reread_eq_self_iff hn, s.marshal_of_nonneg hn]
    have htext := h.unmarshal_text hn
    constructor
    · rintro ⟨d, hd, hs⟩
      rw [← some.inj hd, htext] at hs
      exact some.inj hs
    · intro hs
      exact ⟨_, rfl, htext.trans (congrArg some hs)⟩
  · refine iff_of_false ?_ (fun hs => hn hs.numbers)
    rintro ⟨d, hd, _⟩
    rw [s.marshal_of_negative hn] at hd
    cases hd

/-! ### Encoding first -/

/-- A string on one line, without white space at its ends. -/
structure Clean (t : Bytes) : Prop where
  cr : CR ∉ t
  lf : LF ∉ t
  lead : NoLeading t
  trail : NoTrailing t

/-- A string that is not empty and has no white space in it. -/
structure Word (t : Bytes) : Prop where
  ne_nil : t ≠ []
  noSpace : NoSpace t

instance (t : Bytes) : Decidable (Clean t) :=
  decidable_of_iff (CR ∉ t ∧ LF ∉ t ∧ NoLeading t ∧ NoTrailing t)
    ⟨fun h => ⟨h.1, h.2.1, h.2.2.1, h.2.2.2⟩, fun h => ⟨h.cr, h.lf, h.lead, h.trail⟩⟩

instance (t : Bytes) : Decidable (Word t) :=
  decidable_of_iff (t ≠ [] ∧ NoSpace t) ⟨fun h => ⟨h.1, h.2⟩, fun h => ⟨h.ne_nil, h.noSpace⟩⟩

/-- A name with a value that may be empty. -/
structure NameValue (name value : Bytes) : Prop where
  ne_nil : name ≠ []
  colon : 58 ∉ name
  name : Clean name
  value : Clean value

/-- The connections that the round trip is for. -/
structure ConnectionInfo.InDomain (c : ConnectionInfo) : Prop where
  networkType : Word c.networkType
  addressType : Word c.addressType
  address : Word c.address

/-- The bandwidths that the round trip is for. -/
structure BandwidthInfo.InDomain (bw : BandwidthInfo) : Prop where
  ne_nil : bw.type ≠ []
  colon : 58 ∉ bw.type
  type : Clean bw.type
  value : 0 ≤ bw.value.toInt

/-- The repeats that the round trip is for. -/
structure RepeatInfo.InDomain (r : RepeatInfo) : Prop where
  interval : 0 ≤ r.interval.toInt
  duration : 0 ≤ r.duration.toInt
  ne_nil : r.offsets ≠ []
  offsets : ∀ o ∈ r.offsets, 0 ≤ o.toInt

/-- The times that the round trip is for. -/
structure TimeDescription.InDomain (td : TimeDescription) : Prop where
  start : 0 ≤ td.start.toInt
  stop : 0 ≤ td.stop.toInt
  repeats : ∀ r ∈ td.repeats, r.InDomain

/-- The media descriptions that the round trip is for. -/
structure MediaDescription.InDomain (md : MediaDescription) : Prop where
  type : Word md.type
  port : 0 ≤ md.port.toInt
  portCount : 1 ≤ md.portCount.toInt
  proto : Word md.proto
  fmt_ne_nil : md.fmt ≠ []
  fmt : ∀ f ∈ md.fmt, Word f
  title : Clean md.title
  connection : ∀ c ∈ md.connection, c.InDomain
  bandwidths : ∀ bw ∈ md.bandwidths, bw.InDomain
  encryption : ∀ k ∈ md.encryption, NameValue k.method k.key
  attributes : ∀ a ∈ md.attributes, NameValue a.key a.value

/-- The descriptions that the round trip is for. -/
structure SDP.InDomain (s : SDP) : Prop where
  version : s.version = 0
  username : Word s.origin.username
  sessionID : Word s.origin.sessionID
  sessionVersion : Word s.origin.sessionVersion
  networkType : Word s.origin.networkType
  addressType : Word s.origin.addressType
  address : Word s.origin.address
  name : s.sessionName ≠ []
  sessionName : Clean s.sessionName
  sessionInfo : Clean s.sessionInfo
  uri : Clean s.uri
  emails : ∀ e ∈ s.emails, e ≠ [] ∧ Clean e
  phones : ∀ p ∈ s.phones, p ≠ [] ∧ Clean p
  connection : ∀ c ∈ s.connection, c.InDomain
  bandwidths : ∀ bw ∈ s.bandwidths, bw.InDomain
  timed : s.times ≠ []
  times : ∀ td ∈ s.times, td.InDomain
  timeZone : Clean s.timeZone
  encryption : ∀ k ∈ s.encryption, NameValue k.method k.key
  attributes : ∀ a ∈ s.attributes, NameValue a.key a.value
  mediaDescs : ∀ md ∈ s.mediaDescs, md.InDomain

theorem Word.field (h : Word t) : Field t := ⟨h.ne_nil, h.noSpace.not_mem (by decide)⟩

theorem Word.kept (h : Word t) : Kept t := ⟨h.ne_nil, h.noSpace.noTrailing⟩

theorem Word.lf (h : Word t) : LF ∉ t := h.noSpace.not_mem (by decide)

theorem Clean.textOk (h : Clean t) : TextOk t := by
  by_cases ht : t = []
  · exact Or.inl ht
  · exact Or.inr ⟨⟨ht, h.trail⟩, h.lf⟩

theorem NameValue.pairOk (h : NameValue name value) : PairOk name value := by
  refine ⟨h.colon, h.value.textOk.imp id And.left, ?_⟩
  rw [pairText, mem_append, not_or]
  refine ⟨h.name.lf, ?_⟩
  split
  · rw [mem_cons, not_or]
    exact ⟨by decide, h.value.lf⟩
  · exact not_mem_nil

theorem NameValue.pairKept (h : NameValue name value) : PairKept name value :=
  fun _ => ⟨h.ne_nil, h.name.trail⟩

theorem ConnectionInfo.InDomain.ok {c : ConnectionInfo} (h : c.InDomain) : c.Ok := by
  refine ⟨h.networkType.field.2, h.addressType.field, h.address.kept, ?_⟩
  rw [ConnectionInfo.val_line]
  simp only [mem_append, mem_cons, not_or]
  exact ⟨h.networkType.lf, by decide, h.addressType.lf, by decide, h.address.lf⟩

theorem BandwidthInfo.InDomain.ok {bw : BandwidthInfo} (h : bw.InDomain) : bw.Ok :=
  ⟨h.colon, h.type.lead, h.type.trail, h.type.lf⟩

theorem TimeDescription.InDomain.numbers {td : TimeDescription} (h : td.InDomain) :
    ∀ n ∈ td.numbers, 0 ≤ n.toInt := by
  refine forall_mem_cons.mpr ⟨h.start, forall_mem_cons.mpr ⟨h.stop, ?_⟩⟩
  refine forall_mem_flatMap.mpr (fun r hr => ?_)
  have hrepeat := h.repeats r hr
  exact forall_mem_cons.mpr ⟨hrepeat.interval,
    forall_mem_cons.mpr ⟨hrepeat.duration, hrepeat.offsets⟩⟩

/-- Words with spaces between them. -/
theorem kept_joinWith (fs : List Bytes) (hne : fs ≠ []) (hfs : ∀ f ∈ fs, Word f) :
    Kept (joinWith SP fs) ∧ LF ∉ joinWith SP fs := by
  induction fs with
  | nil => exact absurd rfl hne
  | cons f fs ih =>
    rcases forall_mem_cons.mp hfs with ⟨hf, hrest⟩
    cases fs with
    | nil =>
      rw [joinWith, flatMap_nil, append_nil]
      exact ⟨hf.kept, hf.lf⟩
    | cons g fs =>
      rcases ih (cons_ne_nil g fs) hrest with ⟨hkept, hlf⟩
      rw [joinWith_cons_cons, mem_append, mem_cons, not_or, not_or]
      exact ⟨hkept.append_space f, hf.lf, by decide, hlf⟩

theorem MediaDescription.InDomain.line_ok {md : MediaDescription} (h : md.InDomain) :
    md.LineOk := by
  rcases kept_joinWith md.fmt h.fmt_ne_nil h.fmt with ⟨hkept, hlf⟩
  have hfront : trimLeft (joinWith SP md.fmt) = joinWith SP md.fmt := by
    rcases hfmt : md.fmt with _ | ⟨f, fs⟩
    · exact absurd hfmt h.fmt_ne_nil
    · have hf := (h.fmt f (hfmt ▸ mem_cons_self)).field
      exact trimLeft_field f _ hf.1 hf.2
  refine ⟨h.type.field.2, h.proto.field, h.fmt_ne_nil, fun f hf => (h.fmt f hf).field.2, hkept,
    hfront, ?_⟩
  have hport : LF ∉ md.portText := by
    rw [portText, mem_append, not_or]
    refine ⟨not_mem_formatInt _ LF (by decide), ?_⟩
    split
    · rw [mem_cons, not_or]
      exact ⟨by decide, not_mem_formatInt _ LF (by decide)⟩
    · exact not_mem_nil
  rw [val_line]
  simp only [mem_append, mem_cons, not_or]
  exact ⟨h.type.lf, by decide, hport, by decide, h.proto.lf, by decide, hlf⟩

theorem MediaDescription.InDomain.ok {md : MediaDescription} (h : md.InDomain) : md.Ok where
  line := h.line_ok
  title := h.title.textOk
  connection := fun c hc => (h.connection c hc).ok
  bandwidths := fun bw hbw => (h.bandwidths bw hbw).ok
  encryption := fun k hk => (h.encryption k hk).pairOk
  attributes := fun a ha => (h.attributes a ha).pairOk

theorem SDP.InDomain.ok (h : s.InDomain) : s.Ok :=
  { h with
    origin := by
      refine Or.inr ⟨h.username.field.2, h.sessionID.field, h.sessionVersion.field,
        h.networkType.field, h.addressType.field, h.address.kept, ?_⟩
      rw [Origin.val_line]
      simp only [mem_append, mem_cons, not_or]
      exact ⟨h.username.lf, by decide, h.sessionID.lf, by decide, h.sessionVersion.lf, by decide,
        h.networkType.lf, by decide, h.addressType.lf, by decide, h.address.lf⟩
    sessionName := h.sessionName.textOk
    sessionInfo := h.sessionInfo.textOk
    uri := h.uri.textOk
    emails := fun e he => h.emails e he |>.2.textOk.resolve_left (h.emails e he).1
    phones := fun p hp => h.phones p hp |>.2.textOk.resolve_left (h.phones p hp).1
    connection := fun c hc => (h.connection c hc).ok
    bandwidths := fun bw hbw => (h.bandwidths bw hbw).ok
    times := fun td htd r hr => ((h.times td htd).repeats r hr).ne_nil
    timeZone := h.timeZone.textOk
    encryption := fun k hk => (h.encryption k hk).pairOk
    attributes := fun a ha => (h.attributes a ha).pairOk
    mediaDescs := fun md hmd => (h.mediaDescs md hmd).ok
    version_eq := h.version
    username := h.username.ne_nil }

theorem SDP.InDomain.rewritable (h : s.InDomain) : s.Rewritable where
  numbers := by
    refine forall_mem_cons.mpr ⟨h.version ▸ (by decide), ?_⟩
    rw [append_assoc, forall_mem_append, forall_mem_append]
    simp only [forall_mem_flatMap, forall_mem_singleton]
    refine ⟨fun bw hbw => (h.bandwidths bw hbw).value, fun td htd => (h.times td htd).numbers,
      fun md hmd => forall_mem_cons.mpr ⟨(h.mediaDescs md hmd).port, ?_⟩⟩
    simp only [forall_mem_flatMap, forall_mem_singleton]
    exact fun bw hbw => ((h.mediaDescs md hmd).bandwidths bw hbw).value
  encryption := fun k hk => (h.encryption k hk).pairKept
  attributes := fun a ha => (h.attributes a ha).pairKept
  mediaDescs := fun md hmd =>
    have hm := h.mediaDescs md hmd
    ⟨hm.portCount, fun k hk => (hm.encryption k hk).pairKept,
      fun a ha => (hm.attributes a ha).pairKept⟩

/-- A description in the domain is written, and what was written is read as the
    same description. -/
theorem unmarshal_marshal_sdp (s : SDP) (h : s.InDomain) :
    ∃ d, s.marshal = some d ∧ SDP.unmarshalSDPBytes d = some (.ok s) :=
  h.ok.comes_back_iff.mpr h.rewritable

/-- An offer with a line of every kind. -/
def sampleOffer : SDP where
  connection := some ⟨ascii "IN", ascii "IP4", ascii "192.0.2.1"⟩
  encryption := some ⟨ascii "clear", ascii "a b"⟩
  origin := ⟨ascii "-", ascii "1", ascii "2", ascii "IN", ascii "IP4", ascii "192.0.2.1"⟩
  sessionName := ascii "two words"
  sessionInfo := ascii "info"
  uri := ascii "u"
  timeZone := ascii "0 1h"
  phones := [ascii "+1"]
  bandwidths := [⟨ascii "AS", 64⟩]
  times := [⟨[⟨[0, 3600], 604800, 60⟩], 0, 0⟩]
  emails := [ascii "a@b"]
  attributes := [⟨ascii "sendrecv", []⟩]
  mediaDescs := [
    { connection := none, encryption := none, type := ascii "audio", proto := ascii "RTP/AVP"
      title := [], fmt := [ascii "0", ascii "8"], bandwidths := []
      attributes := [⟨ascii "rtpmap", ascii "0 PCMU/8000"⟩], port := 4000, portCount := 2 }]
  version := 0

theorem unmarshal_marshal_sdp_sampleOffer :
    ∃ d, sampleOffer.marshal = some d ∧ SDP.unmarshalSDPBytes d = some (.ok sampleOffer) := by
  have hmedia : ∀ md ∈ sampleOffer.mediaDescs, md.InDomain := by
    refine forall_mem_singleton.mpr ⟨by decide, by decide, by decide, by decide, by decide,
      by decide, by decide, fun c hc => absurd hc (not_mem_none c),
      fun _ hbw => (by cases hbw), fun k hk => absurd hk (not_mem_none k),
      forall_mem_singleton.mpr ⟨by decide, by decide, by decide, by decide⟩⟩
  refine unmarshal_marshal_sdp sampleOffer ⟨rfl, by decide, by decide, by decide, by decide,
    by decide, by decide, by decide, by decide, by decide, by decide, by decide, by decide, ?_, ?_,
    by decide, ?_, by decide, ?_, ?_, hmedia⟩
  · rintro c ⟨⟩
    exact ⟨by decide, by decide, by decide⟩
  · exact forall_mem_singleton.mpr ⟨by decide, by decide, by decide, by decide⟩
  · refine forall_mem_singleton.mpr ⟨by decide, by decide, ?_⟩
    exact forall_mem_singleton.mpr ⟨by decide, by decide, by decide,
      forall_mem_cons.mpr ⟨by decide, forall_mem_singleton.mpr (by decide)⟩⟩
  · rintro k ⟨⟩
    exact ⟨by decide, by decide, by decide, by decide⟩
  · exact forall_mem_singleton.mpr ⟨by decide, by decide, by decide, by decide⟩

end Proto

end Trecs
