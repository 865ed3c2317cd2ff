import Trecs.Proto.Accepted
import Trecs.Proto.SdpRoundTrip

/-!
# SDP Stability

Writing what was read. Every line that the reader accepts leaves values that it
could find again on the line the writer makes of them, whatever the order and
the spacing of the lines were. So an accepted description is `SDP.Ok`, and it
comes back exactly when it is rewritable.

## Main definitions

* `Found`: A value that was found on a line.

## Theorems

* `origin_of_unmarshal` and the lemmas like it: What one line leaves.
* `SDP.Parts.line`: One turn of the loop keeps the parts.
* `SDP.ok_of_unmarshal`: What the reader accepts.
* `marshal_unmarshal_sdp_iff`: Which accepted descriptions come back.
-/

namespace Trecs

open List Option

namespace Proto

/-! ### Values -/

/-- A value that was found on a line. -/
structure Found (v : Bytes) : Prop extends Kept v where
  lf : LF ∉ v

/-- What stands behind a space of a value. -/
theorem Kept.behind {v t : Bytes} (h : Kept v) (ht : SP :: t <:+ v) : Kept t := by
  have hback : t <:+ v := (suffix_cons SP t).trans ht
  refine ⟨fun hnil => ?_, h.trail.of_suffix hback⟩
  exact h.trail [SP] (by decide) (hnil ▸ ht)

theorem cutSpace_inv {msg val s : Bytes} {p : Bytes × Bytes} (h : cutSpace msg val s = .ok p) :
    SP ∉ p.1 ∧ p.1 ⊆ s ∧ SP :: p.2 <:+ s := by
  unfold cutSpace at h
  split at h
  · contradiction
  · rename_i q hq
    rw [← Except.ok.inj h]
    rcases (cut_eq_some_iff SP s q.1 q.2).mp hq with ⟨hs, hnot⟩
    exact ⟨hnot, hs ▸ subset_append_left _ _, ⟨q.1, hs.symm⟩⟩

theorem cutSpace_field_inv {msg val s : Bytes} {p : Bytes × Bytes}
    (h : cutSpace msg val (trimLeft s) = .ok p) : Field p.1 ∧ p.1 ⊆ s ∧ SP :: p.2 <:+ s := by
  rcases cutSpace_inv h with ⟨hnot, hsub, hback⟩
  have htrim := trimLeft_suffix s
  refine ⟨⟨fun hnil => ?_, hnot⟩, List.Subset.trans hsub htrim.subset, hback.trans htrim⟩
  -- The text would start with the space that was cut at.
  unfold cutSpace at h
  split at h
  · contradiction
  · rename_i q hq
    rw [← Except.ok.inj h] at hnil
    rcases (cut_eq_some_iff SP (trimLeft s) q.1 q.2).mp hq with ⟨hs, _⟩
    rw [hnil] at hs
    exact trimLeft_head_ne s q.2 hs

theorem not_mem_of_subset {b : UInt8} {s t : Bytes} (hs : s ⊆ t) (hb : b ∉ t) : b ∉ s :=
  fun hc => hb (hs hc)

variable {val : Bytes}

theorem origin_of_unmarshal {o : Origin} (hv : Found val) (h : unmarshalOrigin val = .ok o) :
    o.Ok := by
  rcases bind_eq_ok h with ⟨f1, h1, h⟩
  rcases bind_eq_ok h with ⟨f2, h2, h⟩
  rcases bind_eq_ok h with ⟨f3, h3, h⟩
  rcases bind_eq_ok h with ⟨f4, h4, h⟩
  rcases bind_eq_ok h with ⟨f5, h5, h⟩
  rw [← Except.ok.inj h]
  rcases cutSpace_inv h1 with ⟨hf1, hs1, hb1⟩
  rcases cutSpace_field_inv h2 with ⟨hf2, hs2, hb2⟩
  rcases cutSpace_field_inv h3 with ⟨hf3, hs3, hb3⟩
  rcases cutSpace_field_inv h4 with ⟨hf4, hs4, hb4⟩
  rcases cutSpace_field_inv h5 with ⟨hf5, hs5, hb5⟩
  -- Each rest is an end of the value.
  have hr1 : f1.2 <:+ val := (suffix_cons SP _).trans hb1
  have hr2 : f2.2 <:+ val := ((suffix_cons SP _).trans hb2).trans hr1
  have hr3 : f3.2 <:+ val := ((suffix_cons SP _).trans hb3).trans hr2
  have hr4 : f4.2 <:+ val := ((suffix_cons SP _).trans hb4).trans hr3
  refine ⟨hf1, hf2, hf3, hf4, hf5, hv.toKept.behind (hb5.trans hr4), ?_⟩
  have hr5 : f5.2 <:+ val := ((suffix_cons SP _).trans hb5).trans hr4
  rw [Origin.val_line]
  simp only [mem_append, mem_cons, not_or]
  exact ⟨not_mem_of_subset hs1 hv.lf, by decide,
    not_mem_of_subset (List.Subset.trans hs2 hr1.subset) hv.lf, by decide,
    not_mem_of_subset (List.Subset.trans hs3 hr2.subset) hv.lf, by decide,
    not_mem_of_subset (List.Subset.trans hs4 hr3.subset) hv.lf, by decide,
    not_mem_of_subset (List.Subset.trans hs5 hr4.subset) hv.lf, by decide,
    not_mem_of_subset hr5.subset hv.lf⟩

theorem connection_of_unmarshal {c : ConnectionInfo} (hv : Found val)
    (h : unmarshalConnection val = .ok c) : c.Ok := by
  rcases bind_eq_ok h with ⟨f1, h1, h⟩
  rcases bind_eq_ok h with ⟨f2, h2, h⟩
  rw [← Except.ok.inj h]
  rcases cutSpace_inv h1 with ⟨hf1, hs1, hb1⟩
  rcases cutSpace_field_inv h2 with ⟨hf2, hs2, hb2⟩
  have hr1 : f1.2 <:+ val := (suffix_cons SP _).trans hb1
  have hr2 : f2.2 <:+ val := ((suffix_cons SP _).trans hb2).trans hr1
  refine ⟨hf1, hf2, hv.toKept.behind (hb2.trans hr1), ?_⟩
  rw [ConnectionInfo.val_line]
  simp only [mem_append, mem_cons, not_or]
  exact ⟨not_mem_of_subset hs1 hv.lf, by decide,
    not_mem_of_subset (List.Subset.trans hs2 hr1.subset) hv.lf, by decide,
    not_mem_of_subset hr2.subset hv.lf⟩

theorem bandwidth_of_unmarshal {bw : BandwidthInfo} (hv : Found val)
    (h : unmarshalBandwidth val = .ok bw) : bw.Ok := by
  rw [unmarshalBandwidth.eq_def] at h
  split at h
  · cases h
  · rename_i before after hcut
    rcases bind_eq_ok h with ⟨n, _, h⟩
    rw [← Except.ok.inj h]
    rcases (cut_eq_some_iff 58 val before after).mp hcut with ⟨hval, hcolon⟩
    have hsub := (trimSpace_isInfix before).subset
    have hbefore : before ⊆ val := hval ▸ subset_append_left _ _
    exact ⟨not_mem_of_subset hsub hcolon, noLeading_trimSpace _, noTrailing_trimSpace _,
      not_mem_of_subset (List.Subset.trans hsub hbefore) hv.lf⟩

/-- A time line has no repeat lines yet. -/
theorem repeats_of_unmarshal {td : TimeDescription} (h : unmarshalTime val = .ok td) :
    td.repeats = [] := by
  rcases bind_eq_ok h with ⟨f, _, h⟩
  dsimp only at h
  split at h
  · cases h
  · rcases bind_eq_ok h with ⟨start, _, h⟩
    rcases bind_eq_ok h with ⟨stop, _, h⟩
    rw [← Except.ok.inj h]

/-- What is left behind the spaces of a value. -/
theorem Kept.trimLeft {t : Bytes} (h : Kept t) : Kept (trimLeft t) :=
  ⟨trimLeft_ne_nil t h.ne_nil h.trail, h.trail.of_suffix (trimLeft_suffix t)⟩

theorem offsets_of_unmarshal {r : RepeatInfo} (hv : Found val) (h : unmarshalRepeat val = .ok r) :
    r.offsets ≠ [] := by
  rcases bind_eq_ok h with ⟨f1, h1, h⟩
  rcases bind_eq_ok h with ⟨f2, h2, h⟩
  rcases bind_eq_ok h with ⟨interval, _, h⟩
  rcases bind_eq_ok h with ⟨duration, _, h⟩
  rcases bind_eq_ok h with ⟨offsets, hoffsets, h⟩
  rw [← Except.ok.inj h]
  rcases cutSpace_inv h1 with ⟨_, _, hb1⟩
  rcases cutSpace_field_inv h2 with ⟨_, _, hb2⟩
  have hr1 : f1.2 <:+ val := (suffix_cons SP _).trans hb1
  have hrest : Kept f2.2 := hv.toKept.behind (hb2.trans hr1)
  -- The first turn of the loop finds an offset.
  cases hfuel : f2.2.length with
  | zero => exact absurd (length_eq_zero_iff.mp hfuel) hrest.ne_nil
  | succ fuel =>
    rw [hfuel, unmarshalOffsets, if_neg hrest.trimLeft.ne_nil] at hoffsets
    rcases bind_eq_ok hoffsets with ⟨n, _, hoffsets⟩
    rcases bind_eq_ok hoffsets with ⟨ns, _, hoffsets⟩
    rw [← Except.ok.inj hoffsets]
    exact cons_ne_nil n ns

theorem pairOk_of_cut (hv : Found val) {name value : Bytes} (h : cut 58 val = some (name, value)) :
    PairOk name value := by
  rcases (cut_eq_some_iff 58 val name value).mp h with ⟨hval, hcolon⟩
  have hback : value <:+ val := ⟨name ++ [58], by rw [hval, append_assoc]; rfl⟩
  refine ⟨hcolon, ?_, ?_⟩
  · by_cases hne : value = []
    · exact Or.inl hne
    · exact Or.inr ⟨hne, hv.trail.of_suffix hback⟩
  · rw [pairText, mem_append, not_or]
    refine ⟨not_mem_of_subset (hval ▸ subset_append_left _ _) hv.lf, ?_⟩
    split
    · rw [mem_cons, not_or]
      exact ⟨by decide, not_mem_of_subset hback.subset hv.lf⟩
    · exact not_mem_nil

theorem pairOk_of_not_cut (hv : Found val) (h : cut 58 val = none) : PairOk val [] := by
  refine ⟨(cut_eq_none_iff 58 val).mp h, Or.inl rfl, ?_⟩
  rw [pairText, if_neg (not_not.mpr rfl), append_nil]
  exact hv.lf

theorem encryption_of_unmarshal (hv : Found val) :
    PairOk (unmarshalEncryption val).method (unmarshalEncryption val).key := by
  rw [unmarshalEncryption.eq_def]
  split
  · rename_i hcut
    exact pairOk_of_not_cut hv hcut
  · rename_i before after hcut
    exact pairOk_of_cut hv hcut

theorem attribute_of_unmarshal (hv : Found val) :
    PairOk (unmarshalAttribute val).key (unmarshalAttribute val).value := by
  rw [unmarshalAttribute.eq_def]
  split
  · rename_i k v hcut
    exact pairOk_of_cut hv hcut
  · rename_i hcut
    exact pairOk_of_not_cut hv hcut

theorem media_of_unmarshal {md : MediaDescription} (hv : Found val)
    (h : unmarshalMedia val = .ok md) : md.Ok := by
  rcases bind_eq_ok h with ⟨f1, h1, h⟩
  rcases bind_eq_ok h with ⟨f2, h2, h⟩
  rcases bind_eq_ok h with ⟨f3, h3, h⟩
  rcases bind_eq_ok h with ⟨ports, _, h⟩
  rcases cutSpace_inv h1 with ⟨hf1, hs1, hb1⟩
  rcases cutSpace_field_inv h2 with ⟨hf2, hs2, hb2⟩
  rcases cutSpace_field_inv h3 with ⟨hf3, hs3, hb3⟩
  have hr1 : f1.2 <:+ val := (suffix_cons SP _).trans hb1
  have hr2 : f2.2 <:+ val := ((suffix_cons SP _).trans hb2).trans hr1
  have hr3 : f3.2 <:+ val := ((suffix_cons SP _).trans hb3).trans hr2
  have hrest : Kept (trimLeft f3.2) := (hv.toKept.behind (hb3.trans hr2)).trimLeft
  have hmd : { connection := none, encryption := none, type := f1.1, proto := f3.1, title := []
               fmt := split SP (trimLeft f3.2), bandwidths := [], attributes := []
               port := ports.1, portCount := ports.2 } = md := by
    have hok := Except.ok.inj h
    rw [if_neg hrest.ne_nil] at hok
    exact hok
  rw [← hmd]
  refine ⟨⟨hf1, hf3, split_ne_nil SP _, not_mem_split SP _, ?_, ?_, ?_⟩, Or.inl rfl,
    fun c hc => absurd hc (not_mem_none c), fun _ hbw => (by cases hbw),
    fun k hk => absurd hk (not_mem_none k), fun _ ha => by cases ha⟩
  · rw [joinWith_split]
    exact hrest
  · rw [joinWith_split, trimLeft_trimLeft]
  · rw [MediaDescription.val_line, joinWith_split, MediaDescription.portText]
    have hback := (trimLeft_suffix f3.2).trans hr3
    simp only [mem_append, mem_cons, not_or]
    refine ⟨not_mem_of_subset hs1 hv.lf, by decide, ⟨not_mem_formatInt _ LF (by decide), ?_⟩,
      by decide, not_mem_of_subset (List.Subset.trans hs3 hr2.subset) hv.lf, by decide,
      not_mem_of_subset hback.subset hv.lf⟩
    split
    · rw [mem_cons, not_or]
      exact ⟨by decide, not_mem_formatInt _ LF (by decide)⟩
    · exact not_mem_nil

/-! ### Lines -/

/-- A line has no line feed left when white space is dropped. -/
theorem lf_not_mem_trimSpace {l : Bytes} (h : Piece l) : LF ∉ trimSpace l := by
  intro hmem
  rcases append_of_mem hmem with ⟨x, y, hxy⟩
  rcases trimSpace_isInfix l with ⟨a, b, hab⟩
  have hl : l = (a ++ x) ++ LF :: (y ++ b) := by
    rw [← hab, hxy]
    simp
  have hend := (append_eq_nil_iff.mp (h _ _ hl).2).1
  refine noTrailing_trimSpace l [LF] (by decide) ⟨x, ?_⟩
  rw [hxy, hend]

namespace SDP

theorem parts_zero : zero.Parts where
  origin := Or.inl rfl
  sessionName := Or.inl rfl
  sessionInfo := Or.inl rfl
  uri := Or.inl rfl
  emails := fun _ h => by cases h
  phones := fun _ h => by cases h
  connection := fun c h => by cases h
  bandwidths := fun _ h => by cases h
  times := fun _ h => by cases h
  timeZone := Or.inl rfl
  encryption := fun k h => by cases h
  attributes := fun _ h => by cases h
  mediaDescs := fun _ h => by cases h

end SDP

theorem forall_mem_concat {α : Type} {P : α → Prop} {xs : List α} {x : α} (hxs : ∀ y ∈ xs, P y)
    (hx : P x) : ∀ y ∈ xs ++ [x], P y :=
  forall_mem_append.mpr ⟨hxs, forall_mem_singleton.mpr hx⟩

theorem forall_mem_some {α : Type} {P : α → Prop} {x : α} (hx : P x) : ∀ y ∈ some x, P y :=
  fun _ hy => some.inj hy ▸ hx

theorem times_addRepeat {times : List TimeDescription} {r : RepeatInfo}
    (h : ∀ td ∈ times, ∀ r ∈ td.repeats, r.offsets ≠ []) (hr : r.offsets ≠ []) :
    ∀ td ∈ addRepeat times r, ∀ r ∈ td.repeats, r.offsets ≠ [] := by
  unfold addRepeat
  split
  · exact h
  · rename_i t ht
    have hlast : t ∈ times := mem_of_getLast? ht
    exact forall_mem_concat (fun td htd => h td (mem_of_mem_dropLast htd))
      (forall_mem_concat (h t hlast) hr)

/-- A session line keeps what the reader says about the parts. -/
theorem SDP.Parts.sessionLine {sdp sdp' : SDP} (hp : sdp.Parts) {typ : UInt8} {val : Bytes}
    (hv : Found val) (h : sdp.unmarshalSessionLine typ val = .ok sdp') : sdp'.Parts := by
  have htext : TextOk val := Or.inr ⟨hv.toKept, hv.lf⟩
  unfold SDP.unmarshalSessionLine at h
  split at h
  · rcases map_eq_ok h with ⟨o, ho, rfl⟩
    exact { hp with origin := Or.inr (origin_of_unmarshal hv ho) }
  · exact Except.ok.inj h ▸ { hp with sessionName := htext }
  · exact Except.ok.inj h ▸ { hp with sessionInfo := htext }
  · exact Except.ok.inj h ▸ { hp with uri := htext }
  · exact Except.ok.inj h ▸ { hp with emails := forall_mem_concat hp.emails ⟨hv.toKept, hv.lf⟩ }
  · exact Except.ok.inj h ▸ { hp with phones := forall_mem_concat hp.phones ⟨hv.toKept, hv.lf⟩ }
  · rcases map_eq_ok h with ⟨c, hc, rfl⟩
    exact { hp with connection := forall_mem_some (connection_of_unmarshal hv hc) }
  · rcases map_eq_ok h with ⟨bw, hbw, rfl⟩
    exact { hp with
      bandwidths := forall_mem_concat hp.bandwidths (bandwidth_of_unmarshal hv hbw) }
  · rcases map_eq_ok h with ⟨td, htd, rfl⟩
    refine { hp with times := forall_mem_concat hp.times ?_ }
    rw [repeats_of_unmarshal htd]
    exact fun _ hr => nomatch hr
  · split at h
    · contradiction
    · rcases map_eq_ok h with ⟨r, hr, rfl⟩
      exact { hp with times := times_addRepeat hp.times (offsets_of_unmarshal hv hr) }
  · exact Except.ok.inj h ▸ { hp with timeZone := htext }
  · exact Except.ok.inj h ▸ { hp with encryption := forall_mem_some (encryption_of_unmarshal hv) }
  · exact Except.ok.inj h ▸
      { hp with attributes := forall_mem_concat hp.attributes (attribute_of_unmarshal hv) }
  · contradiction

theorem MediaDescription.Ok.mediaLine {md md' : MediaDescription} (hm : md.Ok) {typ : UInt8}
    {val : Bytes} (hv : Found val) (h : unmarshalMediaLine md typ val = .ok md') : md'.Ok := by
  unfold unmarshalMediaLine at h
  split at h
  · exact Except.ok.inj h ▸ { hm with line := { hm.line with }, title := Or.inr ⟨hv.toKept, hv.lf⟩ }
  · rcases map_eq_ok h with ⟨c, hc, rfl⟩
    exact { hm with
      line := { hm.line with }, connection := forall_mem_some (connection_of_unmarshal hv hc) }
  · rcases map_eq_ok h with ⟨bw, hbw, rfl⟩
    exact { hm with
      line := { hm.line with }
      bandwidths := forall_mem_concat hm.bandwidths (bandwidth_of_unmarshal hv hbw) }
  · exact Except.ok.inj h ▸ { hm with
      line := { hm.line with }, encryption := forall_mem_some (encryption_of_unmarshal hv) }
  · exact Except.ok.inj h ▸ { hm with
      line := { hm.line with }
      attributes := forall_mem_concat hm.attributes (attribute_of_unmarshal hv) }
  · cases h

namespace SDP

theorem Parts.field {st st' : Loop} (hp : st.sdp.Parts) {typ : UInt8} {val : Bytes}
    (hv : Found val) (h : unmarshalField st typ val = .ok st') : st'.sdp.Parts := by
  unfold unmarshalField at h
  split at h
  · rcases map_eq_ok h with ⟨md, hmd, rfl⟩
    exact { hp with mediaDescs := forall_mem_concat hp.mediaDescs (media_of_unmarshal hv hmd) }
  · split at h
    · split at h
      · cases h
      · rcases map_eq_ok h with ⟨n, _, rfl⟩
        exact { hp with }
    · split at h
      · rename_i md hlast
        rcases map_eq_ok h with ⟨md', hmd, rfl⟩
        have hok := hp.mediaDescs md (mem_of_getLast? hlast)
        have hrest : ∀ m ∈ st.sdp.mediaDescs.dropLast, m.Ok :=
          fun m hm => hp.mediaDescs m (mem_of_mem_dropLast hm)
        exact { hp with mediaDescs := forall_mem_concat hrest (hok.mediaLine hv hmd) }
      · rcases map_eq_ok h with ⟨sdp, hsdp, rfl⟩
        exact hp.sessionLine hv hsdp

/-- One turn of the loop. -/
theorem Parts.line {st st' : Loop} (hp : st.sdp.Parts) {line : Bytes} (hline : Piece line)
    (h : unmarshalLine st line = .ok st') : st'.sdp.Parts := by
  have hlf := lf_not_mem_trimSpace hline
  have htrail := noTrailing_trimSpace line
  rw [unmarshalLine.eq_def] at h
  split at h
  · exact Except.ok.inj h ▸ hp
  · rename_i typ b val hval
    rw [hval] at hlf htrail
    have hback : b :: val <:+ typ :: 61 :: b :: val := ⟨[typ, 61], rfl⟩
    refine hp.field ⟨⟨cons_ne_nil b val, htrail.of_suffix hback⟩, ?_⟩ h
    exact not_mem_of_subset hback.subset hlf
  · contradiction

theorem ok_of_checkLoop {st : Loop} {s : SDP} (hp : st.sdp.Parts) (h : checkLoop st = .ok s) :
    s.Ok := by
  unfold checkLoop at h
  split at h
  · cases h
  split at h
  · cases h
  rename_i hversion
  split at h
  · cases h
  rename_i husername
  split at h
  · cases h
  rename_i hname
  split at h
  · cases h
  rename_i htimes
  rw [← Except.ok.inj h]
  exact ⟨hp, not_not.mp hversion, husername, hname, htimes⟩

/-- The reader finds only what it can find again, as long as it can be written. -/
theorem ok_of_unmarshalLoop (fuel : Nat) (seen : Bool) (st : Loop) (r : Reader) (bs : Bytes)
    (s : SDP) (hat : Reader.At r true (bs.map .byte)) (hp : st.sdp.Parts)
    (h : unmarshalLoop fuel seen st r = some (.ok s)) : s.Ok := by
  induction fuel generalizing seen st r bs with
  | zero => contradiction
  | succ fuel ih =>
    rw [unmarshalLoop] at h
    split at h
    · contradiction
    · split at h
      · exact ok_of_checkLoop hp (some.inj h)
      · injection some.inj h
    · rename_i line r' hread
      have hne : bs ≠ [] := by
        rintro rfl
        rcases readLine_nil hat with ⟨_, hnil⟩
        injection some.inj (hread.symm.trans hnil) with herr _
        contradiction
      -- The line that was read is the first one of the text.
      rw [← append_nil (bs.map _)] at hat
      rcases readLine_text hne (fun _ => ⟨rfl, rfl⟩) hat with ⟨r₁, hline, hrest⟩
      rw [append_nil] at hrest
      injection some.inj (hread.symm.trans hline) with hfirst hr
      have hpiece : Piece line := Except.ok.inj hfirst ▸ firstLine_sound bs
      split at h
      · injection some.inj h
      · rename_i st' hst
        exact ih true st' r' _ (hr ▸ hrest) (hp.line hpiece hst) h

theorem ok_of_unmarshal (d : Bytes) (s : SDP) (h : unmarshalSDPBytes d = some (.ok s)) : s.Ok :=
  ok_of_unmarshalLoop _ false _ _ d s (Reader.at_ofBytes d) parts_zero h

end SDP

/-! ### Decoding first -/

/-- What `UnmarshalSDPBytes` accepts is written and read back as the same
    description if and only if it is rewritable. -/
theorem marshal_unmarshal_sdp_iff (d : Bytes) (s : SDP)
    (h : SDP.unmarshalSDPBytes d = some (.ok s)) :
    (∃ d', s.marshal = some d' ∧ SDP.unmarshalSDPBytes d' = some (.ok s)) ↔ s.Rewritable :=
  (SDP.ok_of_unmarshal d s h).comes_back_iff

/-- An offer of one stream, as text. -/
def callText (attr port : String) : Bytes :=
  ascii ("v=0\r\no=- 1 1 IN IP4 h\r\ns=-\r\nt=0 0\r\na=" ++ attr ++ "\r\nm=audio " ++ port ++
    " RTP/AVP 0\r\n")

/-- The description that `callText` is for. -/
def callOffer (key : Bytes) (port portCount : Int64) : SDP :=
  { SDP.zero with
    origin := ⟨ascii "-", ascii "1", ascii "1", ascii "IN", ascii "IP4", ascii "h"⟩
    sessionName := ascii "-"
    times := [⟨[], 0, 0⟩]
    attributes := [⟨key, []⟩]
    mediaDescs := [
      { connection := none, encryption := none, type := ascii "audio", proto := ascii "RTP/AVP"
        title := [], fmt := [ascii "0"], bandwidths := [], attributes := []
        port := port, portCount := portCount }] }

theorem marshal_unmarshal_sdp_call :
    ∃ d', (callOffer (ascii "sendrecv") 9 2).marshal = some d' ∧
      SDP.unmarshalSDPBytes d' = some (.ok (callOffer (ascii "sendrecv") 9 2)) := by
  have hnumbers : (callOffer (ascii "sendrecv") 9 2).numbers.all (fun n => 0 ≤ n.toInt) = true := by
    decide
  refine (marshal_unmarshal_sdp_iff (callText "sendrecv  " "9/2") _ (by decide +kernel)).mpr
    ⟨fun n hn => of_decide_eq_true (List.all_eq_true.mp hnumbers n hn),
      fun k hk => absurd hk (not_mem_none k), ?_, ?_⟩
  · exact forall_mem_singleton.mpr (fun _ => ⟨by decide, by decide⟩)
  · exact forall_mem_singleton.mpr ⟨by decide, fun k hk => absurd hk (not_mem_none k),
      fun _ ha => by cases ha⟩

/-- A number of ports of zero comes back as one, an attribute without a key is
    rejected after it was written, and the writer runs past its buffer at a port
    below zero. -/
theorem marshal_unmarshal_sdp_fails :
    (SDP.unmarshalSDPBytes (callText "sendrecv" "9/0") =
        some (.ok (callOffer (ascii "sendrecv") 9 0)) ∧
      (callOffer (ascii "sendrecv") 9 0).marshal = some (callText "sendrecv" "9") ∧
      SDP.unmarshalSDPBytes (callText "sendrecv" "9") =
        some (.ok (callOffer (ascii "sendrecv") 9 1))) ∧
    (SDP.unmarshalSDPBytes (callText ":" "9") = some (.ok (callOffer [] 9 1)) ∧
      (callOffer [] 9 1).marshal = some (callText "" "9") ∧
      ∃ e, SDP.unmarshalSDPBytes (callText "" "9") = some (.error e)) ∧
    SDP.unmarshalSDPBytes (callText "sendrecv" "-9") =
        some (.ok (callOffer (ascii "sendrecv") (-9) 1)) ∧
      (callOffer (ascii "sendrecv") (-9) 1).marshal = none := by
  refine ⟨⟨?_, ?_, ?_⟩, ⟨?_, ?_, _, rfl⟩, ?_, ?_⟩ <;> decide +kernel

end Proto

end Trecs
