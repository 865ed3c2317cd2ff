import Trecs.Lib.Sections
import Trecs.Proto.SdpValues

/-!
# Reading Descriptions Back

The lines of the writer, section by section. A section takes the state of the
loop from a description without some of its parts to one with them. Most
sections give the parts that were written. Keys and attributes give what
`rereadPair` says, and a media description also loses a number of ports below
one.

## Main definitions

* `MediaDescription.Ok`, `SDP.Parts`, `SDP.Ok`: Descriptions as the reader finds
  them.
* `MediaDescription.reread`, `SDP.reread`: What comes back.

## Theorems

* `MediaDescription.Ok.foldlM_lines`: A media description.
* `SDP.Ok.foldlM_lines`: A description.
* `SDP.Ok.unmarshal_text`: The reader behind the writer.
-/

namespace Trecs

open List Option

namespace Proto

/-! ### Sections -/

/-- The letter of a line that belongs to the session or to a media description. -/
structure Letter (typ : UInt8) : Prop where
  space : ∀ r ∈ spaceRunes, r.head? ≠ some typ
  media : typ ≠ 109
  version : typ ≠ 118

/-- A state of the loop in front of the first media line. -/
def inSession (sdp : SDP) : SDP.Loop := ⟨sdp, true⟩

/-- A state of the loop behind a media line. -/
def inMedia (sdp : SDP) (done : List MediaDescription) (md : MediaDescription) : SDP.Loop :=
  ⟨{ sdp with mediaDescs := done ++ [md] }, true⟩

theorem unmarshalField_session {sdp : SDP} (hm : sdp.mediaDescs = []) {typ : UInt8}
    (htyp : Letter typ) (val : Bytes) :
    SDP.unmarshalField (inSession sdp) typ val =
      (SDP.unmarshalSessionLine sdp typ val).map inSession := by
  unfold SDP.unmarshalField inSession
  rw [if_neg htyp.media, if_neg htyp.version]
  simp [hm]

theorem unmarshalField_media (sdp : SDP) (done : List MediaDescription) (md : MediaDescription)
    {typ : UInt8} (htyp : Letter typ) (val : Bytes) :
    SDP.unmarshalField (inMedia sdp done md) typ val =
      (unmarshalMediaLine md typ val).map (inMedia sdp done) := by
  unfold SDP.unmarshalField inMedia
  rw [if_neg htyp.media, if_neg htyp.version]
  simp

variable {α : Type} {md : MediaDescription} {l : SdpLine} (typ : UInt8) (s : Bytes)

theorem letter (h : typ ∈ ascii "abceikoprstuz") : Letter typ := by
  have hall : ∀ typ ∈ ascii "abceikoprstuz",
      (∀ r ∈ spaceRunes, r.head? ≠ some typ) ∧ typ ≠ 109 ∧ typ ≠ 118 := by decide +kernel
  exact ⟨(hall typ h).1, (hall typ h).2.1, (hall typ h).2.2⟩

theorem Kept.stepLine_session (h : Kept l.val) (htyp : Letter l.typ) {sdp : SDP}
    (hm : sdp.mediaDescs = []) :
    stepLine (inSession sdp) l = (SDP.unmarshalSessionLine sdp l.typ l.val).map inSession := by
  rw [h.stepLine_eq htyp.space, unmarshalField_session hm htyp]

theorem Kept.stepLine_media (h : Kept l.val) (htyp : Letter l.typ) (sdp : SDP)
    (done : List MediaDescription) (md : MediaDescription) : stepLine (inMedia sdp done md) l =
      (unmarshalMediaLine md l.typ l.val).map (inMedia sdp done) := by
  rw [h.stepLine_eq htyp.space, unmarshalField_media sdp done md htyp]

theorem val_textLine : (textLine typ s).val = s := append_nil s

/-- A text that is left out when it is empty. -/
theorem foldlM_optionalLine (put : Bytes → SDP.Loop)
    (h : s ≠ [] → stepLine (put []) (textLine typ s) = .ok (put s)) :
    (optionalLine typ s).foldlM stepLine (put []) = .ok (put s) := by
  unfold optionalLine
  by_cases hs : s = []
  · rw [if_neg (not_not.mpr hs), hs]
    rfl
  · rw [if_pos hs, foldlM_cons, h hs]
    rfl

/-- A line that may be missing. -/
theorem foldlM_toList (line : α → SdpLine) (o : Option α) (put : Option α → SDP.Loop)
    (h : ∀ x ∈ o, stepLine (put none) (line x) = .ok (put (some x))) :
    (o.map line).toList.foldlM stepLine (put none) = .ok (put o) := by
  cases o with
  | none => rfl
  | some x =>
    rw [map_some, toList_some, foldlM_cons, h x rfl]
    rfl

/-- What is read back of a key. -/
def EncryptionKey.reread (k : EncryptionKey) : Except SdpError EncryptionKey :=
  (rereadPair 107 k.method k.key).map (fun p => ⟨p.1, p.2⟩)

/-- What is read back of a key that may be missing. -/
def rereadKey : Option EncryptionKey → Except SdpError (Option EncryptionKey)
  | none => .ok none
  | some k => k.reread.map some

/-- What is read back of an attribute. -/
def Attribute.reread (a : Attribute) : Except SdpError Attribute :=
  (rereadPair 97 a.key a.value).map (fun p => ⟨p.1, p.2⟩)

theorem colon_of_rereadPair {typ : UInt8} {name value : Bytes} (h : 58 ∉ name) {p : Bytes × Bytes}
    (hp : rereadPair typ name value = .ok p) : 58 ∉ p.1 := by
  unfold rereadPair at hp
  split at hp
  · exact Except.ok.inj hp ▸ h
  · split at hp
    · cases hp
    · rw [← Except.ok.inj hp]
      exact fun hc => h ((trimRight_isPrefix name).subset hc)

/-- A key line, where the loop puts a key into its state by `put`. -/
theorem foldlM_key (o : Option EncryptionKey) (ho : ∀ k ∈ o, PairOk k.method k.key)
    (put : Option EncryptionKey → SDP.Loop)
    (h : ∀ val, SDP.unmarshalField (put none) 107 val =
      .ok (put (some (unmarshalEncryption val)))) :
    (o.map EncryptionKey.line).toList.foldlM stepLine (put none) = (rereadKey o).map put := by
  cases o with
  | none => rfl
  | some k =>
    have hk := ho k rfl
    rw [map_some, toList_some, foldlM_cons, EncryptionKey.line,
      stepLine_pairLine hk (letter 107 (by decide)).space]
    simp only [rereadKey, EncryptionKey.reread]
    cases hp : rereadPair 107 k.method k.key with
    | error e => rfl
    | ok p =>
      simp only [Except.bind, h, unmarshalEncryption_pairText p.1 p.2
        (colon_of_rereadPair hk.colon hp)]
      rfl

/-- The attribute lines, where the loop puts attributes into its state by `put`. -/
theorem foldlM_attributes (as : List Attribute) (has : ∀ a ∈ as, PairOk a.key a.value)
    (put : List Attribute → SDP.Loop)
    (h : ∀ done val, SDP.unmarshalField (put done) 97 val =
      .ok (put (done ++ [unmarshalAttribute val]))) :
    (as.map Attribute.line).foldlM stepLine (put []) = (as.mapM Attribute.reread).map put := by
  have hone : ∀ a ∈ as, ∀ done, [Attribute.line a].foldlM stepLine (put done) =
      a.reread.map (fun b => put (done ++ [b])) := by
    intro a ha done
    rw [foldlM_cons, Attribute.line,
      stepLine_pairLine (has a ha) (letter 97 (by decide)).space]
    simp only [Attribute.reread]
    cases hp : rereadPair 97 a.key a.value with
    | error e => rfl
    | ok p =>
      simp only [Except.bind, h, unmarshalAttribute_pairText p.1 p.2
        (colon_of_rereadPair (has a ha).colon hp)]
      rfl
  rw [map_eq_flatMap, foldlM_sections stepLine _ put Attribute.reread as hone]
  simp

/-! ### Media descriptions -/

/-- A text as the reader finds it, if there is one. -/
def TextOk (t : Bytes) : Prop := t = [] ∨ Kept t ∧ LF ∉ t

/-- A media description as the reader finds it. -/
structure MediaDescription.Ok (md : MediaDescription) : Prop where
  line : md.LineOk
  title : TextOk md.title
  connection : ∀ c ∈ md.connection, c.Ok
  bandwidths : ∀ bw ∈ md.bandwidths, bw.Ok
  encryption : ∀ k ∈ md.encryption, PairOk k.method k.key
  attributes : ∀ a ∈ md.attributes, PairOk a.key a.value

/-- What is read back of a media description. -/
def MediaDescription.reread (md : MediaDescription) : Except SdpError MediaDescription := do
  let k ← rereadKey md.encryption
  let as ← md.attributes.mapM Attribute.reread
  pure { md with encryption := k, attributes := as, portCount := md.ports }

theorem BandwidthInfo.kept (bw : BandwidthInfo) (hn : 0 ≤ bw.value.toInt) : Kept bw.line.val := by
  rw [BandwidthInfo.val_line]
  exact (kept_formatInt _ hn).append_colon _

/-- The lines of a media description behind those of others. -/
theorem MediaDescription.Ok.foldlM_lines (h : md.Ok) (hn : ∀ n ∈ md.numbers, 0 ≤ n.toInt)
    (sdp : SDP) (done : List MediaDescription) :
    md.lines.foldlM stepLine (inSession { sdp with mediaDescs := done }) =
      md.reread.map (inMedia sdp done) := by
  rcases forall_mem_cons.mp hn with ⟨hport, hbws⟩
  -- The media line, then the lines that are read back as they are.
  let md₁ : MediaDescription := { md.bare with title := md.title }
  let md₂ : MediaDescription := { md₁ with connection := md.connection }
  let md₃ : MediaDescription := { md₂ with bandwidths := md.bandwidths }
  have hline : stepLine (inSession { sdp with mediaDescs := done }) md.line =
      .ok (inMedia sdp done md.bare) := by
    have hspace : ∀ r ∈ spaceRunes, r.head? ≠ some (109 : UInt8) := by decide
    rw [h.line.kept.stepLine_eq hspace]
    exact congrArg (Except.map _) (unmarshalMedia_put h.line hport)
  have htitle : (optionalLine 105 md.title).foldlM stepLine (inMedia sdp done md.bare) =
      .ok (inMedia sdp done md₁) := by
    refine foldlM_optionalLine 105 md.title
      (fun t => inMedia sdp done { md.bare with title := t }) (fun hne => ?_)
    have hkept : Kept (textLine 105 md.title).val :=
      (val_textLine 105 md.title).symm ▸ (h.title.resolve_left hne).1
    rw [hkept.stepLine_media (letter 105 (by decide)), val_textLine]
    rfl
  have hconn : (md.connection.map ConnectionInfo.line).toList.foldlM stepLine
      (inMedia sdp done md₁) = .ok (inMedia sdp done md₂) := by
    refine foldlM_toList ConnectionInfo.line md.connection
      (fun c => inMedia sdp done { md₁ with connection := c }) (fun c hc => ?_)
    rw [(h.connection c hc).kept.stepLine_media (letter 99 (by decide))]
    change Except.map _ ((unmarshalConnection c.line.val).map _) = _
    rw [unmarshalConnection_put (h.connection c hc)]
    rfl
  have hband : (md.bandwidths.map BandwidthInfo.line).foldlM stepLine (inMedia sdp done md₂) =
      .ok (inMedia sdp done md₃) := by
    refine foldlM_map_ok stepLine BandwidthInfo.line
      (fun bs => inMedia sdp done { md₂ with bandwidths := bs }) md.bandwidths
      (fun bw hbw bs => ?_) []
    have hval := hbws bw.value (mem_flatMap.mpr ⟨bw, hbw, mem_cons_self⟩)
    rw [(bw.kept hval).stepLine_media (letter 98 (by decide))]
    change Except.map _ ((unmarshalBandwidth bw.line.val).map _) = _
    rw [unmarshalBandwidth_put (h.bandwidths bw hbw) hval]
    rfl
  have hkey : (md.encryption.map EncryptionKey.line).toList.foldlM stepLine
      (inMedia sdp done md₃) = (rereadKey md.encryption).map
        (fun k => inMedia sdp done { md₃ with encryption := k }) :=
    foldlM_key md.encryption h.encryption (fun k => inMedia sdp done { md₃ with encryption := k })
      (fun val => unmarshalField_media sdp done md₃ (letter 107 (by decide)) val)
  have hattrs : ∀ k, (md.attributes.map Attribute.line).foldlM stepLine
      (inMedia sdp done { md₃ with encryption := k }) = (md.attributes.mapM Attribute.reread).map
        (fun as => inMedia sdp done { md₃ with encryption := k, attributes := as }) :=
    fun k => foldlM_attributes md.attributes h.attributes
      (fun as => inMedia sdp done { md₃ with encryption := k, attributes := as })
      (fun as val => unmarshalField_media sdp done _ (letter 97 (by decide)) val)
  rw [lines, foldlM_cons, hline]
  simp only [append_assoc]
  refine (foldlM_append_ok htitle _).trans ?_
  rw [foldlM_append_ok hconn, foldlM_append_ok hband, foldlM_append_map hkey, reread]
  cases rereadKey md.encryption with
  | error e => rfl
  | ok k =>
    refine (hattrs k).trans ?_
    cases md.attributes.mapM Attribute.reread with
    | error e => rfl
    | ok as => rfl

/-! ### Descriptions -/

/-- The parts of a description as the reader finds them. -/
structure SDP.Parts (s : SDP) : Prop where
  origin : s.origin = SDP.zero.origin ∨ s.origin.Ok
  sessionName : TextOk s.sessionName
  sessionInfo : TextOk s.sessionInfo
  uri : TextOk s.uri
  emails : ∀ e ∈ s.emails, Kept e ∧ LF ∉ e
  phones : ∀ p ∈ s.phones, Kept p ∧ LF ∉ p
  connection : ∀ c ∈ s.connection, c.Ok
  bandwidths : ∀ bw ∈ s.bandwidths, bw.Ok
  times : ∀ td ∈ s.times, ∀ r ∈ td.repeats, r.offsets ≠ []
  timeZone : TextOk s.timeZone
  encryption : ∀ k ∈ s.encryption, PairOk k.method k.key
  attributes : ∀ a ∈ s.attributes, PairOk a.key a.value
  mediaDescs : ∀ md ∈ s.mediaDescs, md.Ok

/-- A description that passed the checks behind the loop. -/
structure SDP.Ok (s : SDP) : Prop extends s.Parts where
  version_eq : s.version = 0
  username : s.origin.username ≠ []
  name : s.sessionName ≠ []
  timed : s.times ≠ []

theorem SDP.Ok.origin_ok {s : SDP} (h : s.Ok) : s.origin.Ok := by
  rcases h.origin with hzero | hok
  · exact absurd (congrArg Origin.username hzero) h.username
  · exact hok

/-- What is read back of a description. -/
def SDP.reread (s : SDP) : Except SdpError SDP := do
  let k ← rereadKey s.encryption
  let as ← s.attributes.mapM Attribute.reread
  let mds ← s.mediaDescs.mapM MediaDescription.reread
  pure { s with encryption := k, attributes := as, mediaDescs := mds }

/-- The time line and the repeat lines of a time. -/
theorem foldlM_time {td : TimeDescription} (hr : ∀ r ∈ td.repeats, r.offsets ≠ [])
    (hn : ∀ n ∈ td.numbers, 0 ≤ n.toInt) {sdp : SDP} (hm : sdp.mediaDescs = [])
    (done : List TimeDescription) :
    td.lines.foldlM stepLine (inSession { sdp with times := done }) =
      .ok (inSession { sdp with times := done ++ [td] }) := by
  rcases td with ⟨repeats, start, stop⟩
  rcases forall_mem_cons.mp hn with ⟨hstart, hn⟩
  rcases forall_mem_cons.mp hn with ⟨hstop, hn⟩
  let l : SdpLine := ⟨116, [.appendInt start.toInt, .store SP, .appendInt stop.toInt]⟩
  have hval : l.val = formatInt start.toInt ++ SP :: formatInt stop.toInt := by
    simp [l, SdpLine.val, writeText, Write.text]
  have hkept : Kept l.val := hval ▸ (kept_formatInt stop hstop).append_space _
  have htime : stepLine (inSession { sdp with times := done }) l =
      .ok (inSession { sdp with times := done ++ [⟨[], start, stop⟩] }) := by
    have hempty : ({ sdp with times := done } : SDP).mediaDescs = [] := hm
    rw [hkept.stepLine_session (letter 116 (by decide)) hempty, hval]
    change Except.map _ ((unmarshalTime _).map _) = _
    rw [unmarshalTime_put start stop hstart hstop]
    rfl
  have hrepeats : (repeats.map RepeatInfo.line).foldlM stepLine
      (inSession { sdp with times := done ++ [⟨[], start, stop⟩] }) =
        .ok (inSession { sdp with times := done ++ [⟨repeats, start, stop⟩] }) := by
    refine foldlM_map_ok stepLine RepeatInfo.line
      (fun rs => inSession { sdp with times := done ++ [⟨rs, start, stop⟩] }) repeats
      (fun r hmem rs => ?_) []
    have hnums : ∀ n ∈ r.numbers, 0 ≤ n.toInt := fun n hnr =>
      hn n (mem_flatMap.mpr ⟨r, hmem, hnr⟩)
    have hempty : ({ sdp with times := done ++ [⟨rs, start, stop⟩] } : SDP).mediaDescs = [] := hm
    rw [(RepeatInfo.kept hnums (hr r hmem)).stepLine_session (letter 114 (by decide)) hempty]
    change Except.map _ (if _ then _ else (unmarshalRepeat r.line.val).map _) = _
    rw [if_neg (append_ne_nil_of_right_ne_nil _ (cons_ne_nil _ _)),
      unmarshalRepeat_put r hnums (hr r hmem)]
    simp [Except.map, addRepeat]
  rw [TimeDescription.lines, foldlM_cons]
  refine Eq.trans ?_ hrepeats
  exact congrArg (fun x => x >>= fun st => (repeats.map RepeatInfo.line).foldlM stepLine st) htime

/-- The lines of a list of texts. -/
theorem foldlM_texts (ts : List Bytes) (hts : ∀ t ∈ ts, Kept t ∧ LF ∉ t) (htyp : Letter typ)
    (put : List Bytes → SDP) (hm : ∀ done, (put done).mediaDescs = [])
    (hput : ∀ done t, SDP.unmarshalSessionLine (put done) typ t = .ok (put (done ++ [t]))) :
    (ts.map (textLine typ)).foldlM stepLine (inSession (put [])) = .ok (inSession (put ts)) := by
  refine foldlM_map_ok stepLine (textLine typ) (fun done => inSession (put done)) ts
    (fun t ht done => ?_) []
  have hkept : Kept (textLine typ t).val := (val_textLine typ t).symm ▸ (hts t ht).1
  rw [hkept.stepLine_session htyp (hm done), val_textLine,
    show (textLine typ t).typ = typ from rfl, hput]
  rfl

/-- A line of the session that is left out when its text is empty. -/
theorem foldlM_text (t : Bytes) (ht : TextOk t) (htyp : Letter typ) (put : Bytes → SDP)
    (hm : (put []).mediaDescs = []) (hput : SDP.unmarshalSessionLine (put []) typ t = .ok (put t)) :
    (optionalLine typ t).foldlM stepLine (inSession (put [])) = .ok (inSession (put t)) := by
  refine foldlM_optionalLine typ t (fun t => inSession (put t)) (fun hne => ?_)
  have hkept : Kept (textLine typ t).val := (val_textLine typ t).symm ▸ (ht.resolve_left hne).1
  rw [hkept.stepLine_session htyp hm, val_textLine, show (textLine typ t).typ = typ from rfl, hput]
  rfl

theorem oneLine_of (htyp : l.typ = typ) (hne : typ ≠ LF) (hl : LF ∉ l.val) :
    l.OneLine := ⟨htyp.symm ▸ hne, hl⟩

theorem oneLine_textLine {typ : UInt8} {t : Bytes} (htyp : typ ≠ LF) (ht : LF ∉ t) :
    (textLine typ t).OneLine := ⟨htyp, (val_textLine typ t).symm ▸ ht⟩

theorem oneLine_optionalLine {typ : UInt8} {t : Bytes} (htyp : typ ≠ LF) (ht : TextOk t) :
    ∀ l ∈ optionalLine typ t, l.OneLine := by
  unfold optionalLine
  split
  · rename_i hne
    exact forall_mem_singleton.mpr (oneLine_textLine htyp (ht.resolve_left hne).2)
  · exact fun _ hl => nomatch hl

theorem oneLine_pairLine {typ : UInt8} {name value : Bytes} (htyp : typ ≠ LF)
    (h : PairOk name value) : (pairLine typ name value).OneLine :=
  ⟨htyp, (val_pairLine typ name value).symm ▸ h.lf⟩

theorem oneLine_toList {line : α → SdpLine} {o : Option α} (h : ∀ x ∈ o, (line x).OneLine) :
    ∀ l ∈ (o.map line).toList, l.OneLine := by
  cases o with
  | none => exact fun _ hl => nomatch hl
  | some x => exact forall_mem_singleton.mpr (h x rfl)

theorem oneLine_bandwidths {bws : List BandwidthInfo} (h : ∀ bw ∈ bws, bw.Ok) :
    ∀ l ∈ bws.map BandwidthInfo.line, l.OneLine := by
  refine List.forall_mem_map.mpr (fun bw hbw => oneLine_of 98 rfl (by decide) ?_)
  rw [BandwidthInfo.val_line, mem_append, mem_cons, not_or, not_or]
  exact ⟨(h bw hbw).lf, by decide, not_mem_formatInt _ LF (by decide)⟩

theorem oneLine_time (td : TimeDescription) : ∀ l ∈ td.lines, l.OneLine := by
  have hdigits : ∀ n : Int64, LF ∉ formatInt n.toInt := fun n =>
    not_mem_formatInt n.toInt LF (by decide)
  refine forall_mem_cons.mpr ⟨oneLine_of 116 rfl (by decide) ?_,
    List.forall_mem_map.mpr (fun r hr => oneLine_of 114 rfl (by decide) ?_)⟩
  · simp only [SdpLine.val, writeText, flatMap_cons, flatMap_nil, Write.text,
      append_nil, mem_append, mem_singleton, not_or]
    exact ⟨hdigits _, by decide, hdigits _⟩
  · simp only [RepeatInfo.val_line, mem_append, mem_cons, mem_flatMap, not_or,
      not_exists, not_and]
    exact ⟨hdigits _, by decide, hdigits _, fun o _ => ⟨by decide, hdigits o⟩⟩

theorem MediaDescription.Ok.oneLine (h : md.Ok) : ∀ l ∈ md.lines, l.OneLine := by
  simp only [lines, forall_mem_cons, forall_mem_append]
  refine ⟨oneLine_of 109 rfl (by decide) h.line.lf, ⟨⟨⟨⟨?_, ?_⟩, ?_⟩, ?_⟩, ?_⟩⟩
  · exact oneLine_optionalLine (by decide) h.title
  · exact oneLine_toList (fun c hc => oneLine_of 99 rfl (by decide) (h.connection c hc).lf)
  · exact oneLine_bandwidths h.bandwidths
  · exact oneLine_toList (fun k hk => oneLine_pairLine (by decide) (h.encryption k hk))
  · exact List.forall_mem_map.mpr (fun a ha => oneLine_pairLine (by decide) (h.attributes a ha))

namespace SDP

/-- The first three lines. -/
theorem Ok.foldlM_front {s : SDP} (h : s.Ok) (ls : List SdpLine) :
    (⟨118, [.appendInt s.version.toInt]⟩ :: s.origin.line ::
        textLine 115 s.sessionName :: ls).foldlM stepLine ⟨zero, false⟩ =
      ls.foldlM stepLine
        (inSession { zero with origin := s.origin, sessionName := s.sessionName }) := by
  have hversion : stepLine ⟨zero, false⟩ ⟨118, [.appendInt s.version.toInt]⟩ =
      .ok (inSession zero) := by
    rw [h.version_eq]
    decide +kernel
  have horigin : stepLine (inSession zero) s.origin.line =
      .ok (inSession { zero with origin := s.origin }) := by
    rw [h.origin_ok.kept.stepLine_session (letter 111 (by decide)) rfl]
    change Except.map _ ((unmarshalOrigin s.origin.line.val).map _) = _
    rw [unmarshalOrigin_put h.origin_ok]
    rfl
  have hname : stepLine (inSession { zero with origin := s.origin })
      (textLine 115 s.sessionName) =
        .ok (inSession { zero with origin := s.origin, sessionName := s.sessionName }) := by
    have hkept : Kept (textLine 115 s.sessionName).val :=
      (val_textLine 115 s.sessionName).symm ▸ (h.sessionName.resolve_left h.name).1
    rw [hkept.stepLine_session (letter 115 (by decide)) rfl, val_textLine]
    rfl
  simp [hversion, horigin, hname, bind, Except.bind]

/-- The lines that are read back as they are. -/
def plain (s : SDP) : SDP := { s with encryption := none, attributes := [], mediaDescs := [] }

theorem Ok.foldlM_plain {s : SDP} (h : s.Ok) (hn : ∀ n ∈ s.numbers, 0 ≤ n.toInt)
    (ls : List SdpLine) :
    (optionalLine 105 s.sessionInfo ++ (optionalLine 117 s.uri ++ (s.emails.map (textLine 101) ++
      (s.phones.map (textLine 112) ++ ((s.connection.map ConnectionInfo.line).toList ++
        (s.bandwidths.map BandwidthInfo.line ++ (s.times.flatMap TimeDescription.lines ++
          (optionalLine 122 s.timeZone ++ ls)))))))).foldlM stepLine
        (inSession { zero with origin := s.origin, sessionName := s.sessionName }) =
      ls.foldlM stepLine (inSession s.plain) := by
  rcases forall_mem_cons.mp hn with ⟨_, hn⟩
  rw [append_assoc, forall_mem_append, forall_mem_append] at hn
  rcases hn with ⟨hbws, htimes, _⟩
  let s₀ : SDP := { zero with origin := s.origin, sessionName := s.sessionName }
  let s₁ : SDP := { s₀ with sessionInfo := s.sessionInfo }
  let s₂ : SDP := { s₁ with uri := s.uri }
  let s₃ : SDP := { s₂ with emails := s.emails }
  let s₄ : SDP := { s₃ with phones := s.phones }
  let s₅ : SDP := { s₄ with connection := s.connection }
  let s₆ : SDP := { s₅ with bandwidths := s.bandwidths }
  let s₇ : SDP := { s₆ with times := s.times }
  let s₈ : SDP := { s₇ with timeZone := s.timeZone }
  have h₁ : (optionalLine 105 s.sessionInfo).foldlM stepLine (inSession s₀) = .ok (inSession s₁) :=
    foldlM_text 105 s.sessionInfo h.sessionInfo (letter 105 (by decide))
      (fun t => { s₀ with sessionInfo := t }) rfl rfl
  have h₂ : (optionalLine 117 s.uri).foldlM stepLine (inSession s₁) = .ok (inSession s₂) :=
    foldlM_text 117 s.uri h.uri (letter 117 (by decide)) (fun t => { s₁ with uri := t }) rfl rfl
  have h₃ : (s.emails.map (textLine 101)).foldlM stepLine (inSession s₂) = .ok (inSession s₃) :=
    foldlM_texts 101 s.emails h.emails (letter 101 (by decide)) (fun ts => { s₂ with emails := ts })
      (fun _ => rfl) (fun _ _ => rfl)
  have h₄ : (s.phones.map (textLine 112)).foldlM stepLine (inSession s₃) = .ok (inSession s₄) :=
    foldlM_texts 112 s.phones h.phones (letter 112 (by decide)) (fun ts => { s₃ with phones := ts })
      (fun _ => rfl) (fun _ _ => rfl)
  have h₅ : (s.connection.map ConnectionInfo.line).toList.foldlM stepLine (inSession s₄) =
      .ok (inSession s₅) := by
    refine foldlM_toList ConnectionInfo.line s.connection
      (fun c => inSession { s₄ with connection := c }) (fun c hc => ?_)
    have hempty : ({ s₄ with connection := none } : SDP).mediaDescs = [] := rfl
    rw [(h.connection c hc).kept.stepLine_session (letter 99 (by decide)) hempty]
    change Except.map _ ((unmarshalConnection c.line.val).map _) = _
    rw [unmarshalConnection_put (h.connection c hc)]
    rfl
  have h₆ : (s.bandwidths.map BandwidthInfo.line).foldlM stepLine (inSession s₅) =
      .ok (inSession s₆) := by
    refine foldlM_map_ok stepLine BandwidthInfo.line
      (fun bs => inSession { s₅ with bandwidths := bs }) s.bandwidths (fun bw hbw bs => ?_) []
    have hval := hbws bw.value (mem_flatMap.mpr ⟨bw, hbw, mem_cons_self⟩)
    have hempty : ({ s₅ with bandwidths := bs } : SDP).mediaDescs = [] := rfl
    rw [(bw.kept hval).stepLine_session (letter 98 (by decide)) hempty]
    change Except.map _ ((unmarshalBandwidth bw.line.val).map _) = _
    rw [unmarshalBandwidth_put (h.bandwidths bw hbw) hval]
    rfl
  have h₇ : (s.times.flatMap TimeDescription.lines).foldlM stepLine (inSession s₆) =
      .ok (inSession s₇) := by
    have hone : ∀ td ∈ s.times, ∀ done, td.lines.foldlM stepLine
        (inSession { s₆ with times := done }) =
          (Except.ok td : Except SdpError TimeDescription).map
            (fun td => inSession { s₆ with times := done ++ [td] }) := fun td htd done =>
      foldlM_time (h.times td htd) (fun n hnt => htimes n (mem_flatMap.mpr ⟨td, htd, hnt⟩)) rfl
        done
    refine (foldlM_sections stepLine _ (fun ts => inSession { s₆ with times := ts }) Except.ok
      s.times hone []).trans ?_
    rw [mapM_of_eq_self Except.ok s.times (fun _ _ => rfl)]
    rfl
  have h₈ : (optionalLine 122 s.timeZone).foldlM stepLine (inSession s₇) = .ok (inSession s₈) :=
    foldlM_text 122 s.timeZone h.timeZone (letter 122 (by decide))
      (fun t => { s₇ with timeZone := t }) rfl rfl
  have hend : s₈ = s.plain := by
    rw [plain, h.version_eq]
    rfl
  rw [foldlM_append_ok h₁, foldlM_append_ok h₂, foldlM_append_ok h₃, foldlM_append_ok h₄,
    foldlM_append_ok h₅, foldlM_append_ok h₆, foldlM_append_ok h₇, foldlM_append_ok h₈, hend]

/-- The reader finds the lines of the writer. -/
theorem Ok.foldlM_lines {s : SDP} (h : s.Ok) (hn : ∀ n ∈ s.numbers, 0 ≤ n.toInt) :
    s.lines.foldlM stepLine ⟨zero, false⟩ = s.reread.map inSession := by
  have hmedia : ∀ n ∈ s.mediaDescs.flatMap MediaDescription.numbers, 0 ≤ n.toInt := fun n hm =>
    hn n (mem_cons_of_mem _ (mem_append_right _ hm))
  have hkey : (s.encryption.map EncryptionKey.line).toList.foldlM stepLine (inSession s.plain) =
      (rereadKey s.encryption).map (fun k => inSession { s.plain with encryption := k }) :=
    foldlM_key s.encryption h.encryption (fun k => inSession { s.plain with encryption := k })
      (fun val => unmarshalField_session rfl (letter 107 (by decide)) val)
  have hattrs : ∀ k, (s.attributes.map Attribute.line).foldlM stepLine
      (inSession { s.plain with encryption := k }) = (s.attributes.mapM Attribute.reread).map
        (fun as => inSession { s.plain with encryption := k, attributes := as }) := by
    intro k
    refine foldlM_attributes s.attributes h.attributes
      (fun as => inSession { s.plain with encryption := k, attributes := as }) (fun as val => ?_)
    exact unmarshalField_session rfl (letter 97 (by decide)) val
  have hmds : ∀ sdp : SDP, (s.mediaDescs.flatMap MediaDescription.lines).foldlM stepLine
      (inSession { sdp with mediaDescs := [] }) = (s.mediaDescs.mapM MediaDescription.reread).map
        (fun mds => inSession { sdp with mediaDescs := mds }) := by
    intro sdp
    refine foldlM_sections stepLine _ (fun mds => inSession { sdp with mediaDescs := mds })
      MediaDescription.reread s.mediaDescs (fun md hmd done => ?_) []
    exact (h.mediaDescs md hmd).foldlM_lines
      (fun n hnm => hmedia n (mem_flatMap.mpr ⟨md, hmd, hnm⟩)) sdp done
  rw [lines]
  simp only [append_assoc]
  rw [h.foldlM_front, h.foldlM_plain hn, foldlM_append_map hkey, reread]
  cases rereadKey s.encryption with
  | error e => rfl
  | ok k =>
    refine (foldlM_append_map (hattrs k) _).trans ?_
    cases s.attributes.mapM Attribute.reread with
    | error e => rfl
    | ok as =>
      refine (hmds { s.plain with encryption := k, attributes := as }).trans ?_
      cases s.mediaDescs.mapM MediaDescription.reread with
      | error e => rfl
      | ok mds => rfl

/-- Every line of the writer is read as one line. -/
theorem Ok.oneLine {s : SDP} (h : s.Ok) : ∀ l ∈ s.lines, l.OneLine := by
  simp only [lines, forall_mem_cons, forall_mem_append, forall_mem_flatMap]
  refine ⟨oneLine_of 118 rfl (by decide) ?_, oneLine_of 111 rfl (by decide) h.origin_ok.lf,
    oneLine_textLine (by decide) (h.sessionName.resolve_left h.name).2,
    ⟨⟨⟨⟨⟨⟨⟨⟨⟨⟨?_, ?_⟩, ?_⟩, ?_⟩, ?_⟩, ?_⟩, ?_⟩, ?_⟩, ?_⟩, ?_⟩, ?_⟩⟩
  · simp only [SdpLine.val, writeText, flatMap_cons, flatMap_nil, Write.text,
      append_nil]
    exact not_mem_formatInt _ LF (by decide)
  · exact oneLine_optionalLine (by decide) h.sessionInfo
  · exact oneLine_optionalLine (by decide) h.uri
  · exact List.forall_mem_map.mpr (fun e he => oneLine_textLine (by decide) (h.emails e he).2)
  · exact List.forall_mem_map.mpr (fun p hp => oneLine_textLine (by decide) (h.phones p hp).2)
  · exact oneLine_toList (fun c hc => oneLine_of 99 rfl (by decide) (h.connection c hc).lf)
  · exact oneLine_bandwidths h.bandwidths
  · exact fun td _ => oneLine_time td
  · exact oneLine_optionalLine (by decide) h.timeZone
  · exact oneLine_toList (fun k hk => oneLine_pairLine (by decide) (h.encryption k hk))
  · exact List.forall_mem_map.mpr (fun a ha => oneLine_pairLine (by decide) (h.attributes a ha))
  · exact fun md hmd => (h.mediaDescs md hmd).oneLine

/-- The reader behind the writer. -/
theorem Ok.unmarshal_text {s : SDP} (h : s.Ok) (hn : ∀ n ∈ s.numbers, 0 ≤ n.toInt) :
    unmarshalSDPBytes (textOf s.lines) = some s.reread := by
  rw [unmarshalSDPBytes_textOf s.lines (cons_ne_nil _ _) h.oneLine, h.foldlM_lines hn]
  -- The checks behind the loop look at fields that came back as they were.
  unfold reread
  cases rereadKey s.encryption with
  | error e => rfl
  | ok k =>
    cases s.attributes.mapM Attribute.reread with
    | error e => rfl
    | ok as =>
      cases s.mediaDescs.mapM MediaDescription.reread with
      | error e => rfl
      | ok mds =>
        refine congrArg some ?_
        simp only [bind, Except.bind, Except.map, pure, Except.pure, inSession, checkLoop]
        rw [if_neg (by decide), if_neg (not_not.mpr h.version_eq), if_neg h.username,
          if_neg h.name, if_neg h.timed]

end SDP

end Proto

end Trecs
