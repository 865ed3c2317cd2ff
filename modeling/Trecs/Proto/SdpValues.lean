import Trecs.Proto.Lines
import Trecs.Proto.SdpSize

/-!
# Reading Values Back

What the reader makes of a line of the writer. A value stays as it is when it is
not empty and ends in no white space, which is `Kept`. The values of most lines
end in a part that is kept. Only a name without a value stands at the end of its
line, where the reader drops the white space behind it; `rereadPair` says what
comes back.

Each structure with the name `Ok` lists what the reader needs to find the parts
of a value again.

## Main definitions

* `stepLine`: One turn of the loop with a line of the writer.
* `Kept`: A value that its line keeps.
* `Origin.Ok`, `ConnectionInfo.Ok`, `BandwidthInfo.Ok`, `MediaDescription.LineOk`,
  `PairOk`: Values that are found again.
* `rereadPair`, `PairKept`: What comes back of a name and a value.

## Theorems

* `unmarshalOrigin_put` and the lemmas like it: One value.
-/

namespace Trecs

open List

namespace Proto

/-! ### Lines -/

/-- One turn of the loop with a line of the writer. -/
def stepLine (st : SDP.Loop) (l : SdpLine) : Except SdpError SDP.Loop :=
  SDP.unmarshalLine st (l.typ :: 61 :: l.val)

/-- A line that is read as one line. -/
def SdpLine.OneLine (l : SdpLine) : Prop := l.typ ≠ LF ∧ LF ∉ l.val

theorem readLine_eof {r : Reader} (h : Reader.At r true []) :
    ∃ e r', Parser.run readLine r = some (.error e, r') := by
  rcases Reader.readString_eof LF [] not_mem_nil h with ⟨r', hr, _⟩
  refine ⟨.error (.read .eof), r', ?_⟩
  rw [readLine, Parser.run_mk, hr]
  rfl

variable {c : ConnectionInfo} (typ : UInt8) (name value : Bytes) {md : MediaDescription} (n : Int64)
  (ls : List SdpLine)

/-- The loop finds the lines of the writer. -/
theorem unmarshalLoop_lines (hls : ∀ l ∈ ls, l.OneLine) (fuel : Nat) (seen : Bool) (st : SDP.Loop)
    (r : Reader) (hfuel : ls.length < fuel) (hseen : seen = true ∨ ls ≠ [])
    (h : Reader.At r true ((textOf ls).map .byte)) :
    SDP.unmarshalLoop fuel seen st r = some ((ls.foldlM stepLine st).bind SDP.checkLoop) := by
  induction ls generalizing fuel seen st r with
  | nil =>
    cases fuel with
    | zero => contradiction
    | succ fuel =>
      rcases readLine_eof h with ⟨e, r', hread⟩
      have hone : seen = true := hseen.resolve_right (fun hc => hc rfl)
      rw [SDP.unmarshalLoop, hread, hone]
      rfl
  | cons l ls ih =>
    cases fuel with
    | zero => contradiction
    | succ fuel =>
      rcases hls l mem_cons_self with ⟨htyp, hval⟩
      have hline : LF ∉ l.typ :: 61 :: l.val := by
        simp only [mem_cons, not_or]
        exact ⟨fun hc => htyp hc.symm, by decide, hval⟩
      have hshape : (textOf (l :: ls)).map Token.byte =
          ((l.typ :: 61 :: l.val) ++ crlf).map Token.byte ++ (textOf ls).map Token.byte := by
        rw [textOf_cons, map_append]
        rfl
      rcases readLine_crlf _ hline (hshape ▸ h) with ⟨r', hread, hat⟩
      rw [SDP.unmarshalLoop, hread, foldlM_cons]
      simp only [stepLine]
      cases SDP.unmarshalLine st (l.typ :: 61 :: l.val) with
      | error e => rfl
      | ok st' =>
        exact ih (fun m hm => hls m (mem_cons_of_mem l hm)) fuel true st' r'
          (Nat.lt_of_succ_lt_succ hfuel) (Or.inl rfl) hat

theorem length_le_textOf : ls.length ≤ (textOf ls).length := by
  induction ls with
  | nil => exact Nat.zero_le _
  | cons l ls ih =>
    rw [length_textOf_cons, length_cons]
    omega

/-- The reader on the text of some lines. -/
theorem unmarshalSDPBytes_textOf (hne : ls ≠ []) (hls : ∀ l ∈ ls, l.OneLine) :
    SDP.unmarshalSDPBytes (textOf ls) =
      some ((ls.foldlM stepLine ⟨SDP.zero, false⟩).bind SDP.checkLoop) := by
  have hat := Reader.at_ofBytes (textOf ls)
  refine unmarshalLoop_lines ls hls _ false _ _ ?_ (Or.inr hne) hat
  have hle := length_le_textOf ls
  rw [hat.tokens, length_map]
  omega

/-- What is left of a line without white space at its end. -/
theorem trimSpace_line (v : Bytes) (htyp : ∀ r ∈ spaceRunes, r.head? ≠ some typ) :
    trimSpace (typ :: 61 :: v) = typ :: 61 :: trimRight v := by
  rw [trimSpace_of_noLeading _ (noLeading_cons typ _ htyp)]
  exact trimRight_append [typ] v 61 (by decide)

/-- A value that its line keeps. -/
structure Kept (v : Bytes) : Prop where
  ne_nil : v ≠ []
  trail : NoTrailing v

theorem Kept.stepLine_eq {l : SdpLine} (h : Kept l.val)
    (htyp : ∀ r ∈ spaceRunes, r.head? ≠ some l.typ) (st : SDP.Loop) :
    stepLine st l = SDP.unmarshalField st l.typ l.val := by
  rw [stepLine, SDP.unmarshalLine.eq_def, trimSpace_line l.typ l.val htyp,
    trimRight_of_noTrailing l.val h.trail]
  cases hv : l.val with
  | nil => exact absurd hv h.ne_nil
  | cons b v => rfl

/-! ### Values -/

/-- A part of a value between spaces. -/
def Field (f : Bytes) : Prop := f ≠ [] ∧ SP ∉ f

theorem cutSpace_put (msg val : Bytes) {f : Bytes} (hf : SP ∉ f) (rest : Bytes) :
    cutSpace msg val (f ++ SP :: rest) = .ok (f, rest) := by
  rw [cutSpace, cut_append SP f rest hf]

theorem cutSpace_field (msg val : Bytes) {f : Bytes} (hf : Field f) (rest : Bytes) :
    cutSpace msg val (trimLeft (f ++ SP :: rest)) = .ok (f, rest) := by
  rw [trimLeft_field f _ hf.1 hf.2, cutSpace_put msg val hf.2]

theorem formatInt_of_nonneg (hn : 0 ≤ n.toInt) : formatInt n.toInt = formatNat n.toInt.natAbs := by
  rw [formatInt, if_neg (by omega)]

theorem field_formatInt (hn : 0 ≤ n.toInt) : Field (formatInt n.toInt) := by
  refine ⟨?_, not_mem_formatInt _ SP (by decide)⟩
  rw [formatInt_of_nonneg n hn]
  exact formatNat_ne_nil _

theorem kept_formatInt (hn : 0 ≤ n.toInt) : Kept (formatInt n.toInt) := by
  refine ⟨(field_formatInt n hn).1, ?_⟩
  rw [formatInt_of_nonneg n hn]
  exact noTrailing_formatNat _

theorem trimSpace_formatInt (hn : 0 ≤ n.toInt) :
    trimSpace (formatInt n.toInt) = formatInt n.toInt := by
  rw [formatInt_of_nonneg n hn, trimSpace_formatNat]

theorem sdpNumber_put (func msg arg : Bytes) (n : Int64) :
    sdpNumber func msg arg (formatInt n.toInt) = .ok n := by
  rw [sdpNumber, atoi_formatInt]

theorem Kept.append_space {t : Bytes} (h : Kept t) (s : Bytes) : Kept (s ++ SP :: t) :=
  ⟨append_ne_nil_of_right_ne_nil _ (cons_ne_nil _ _),
    noTrailing_append_space s t h.trail h.ne_nil⟩

theorem Kept.append_colon {t : Bytes} (h : Kept t) (s : Bytes) : Kept (s ++ 58 :: t) :=
  ⟨append_ne_nil_of_right_ne_nil _ (cons_ne_nil _ _),
    noTrailing_append_colon s t h.trail h.ne_nil⟩

/-- An origin as the reader finds it. -/
structure Origin.Ok (o : Origin) : Prop where
  username : SP ∉ o.username
  sessionID : Field o.sessionID
  sessionVersion : Field o.sessionVersion
  networkType : Field o.networkType
  addressType : Field o.addressType
  address : Kept o.address
  lf : LF ∉ o.line.val

theorem Origin.Ok.kept {o : Origin} (h : o.Ok) : Kept o.line.val := by
  rw [Origin.val_line]
  have h4 := (h.address.append_space o.addressType).append_space o.networkType
  exact ((h4.append_space o.sessionVersion).append_space o.sessionID).append_space o.username

theorem unmarshalOrigin_put {o : Origin} (h : o.Ok) : unmarshalOrigin o.line.val = .ok o := by
  rw [Origin.val_line]
  unfold unmarshalOrigin
  simp only [cutSpace_put _ _ h.username, cutSpace_field _ _ h.sessionID,
    cutSpace_field _ _ h.sessionVersion, cutSpace_field _ _ h.networkType,
    cutSpace_field _ _ h.addressType, bind, Except.bind, pure, Except.pure]

/-- A connection as the reader finds it. -/
structure ConnectionInfo.Ok (c : ConnectionInfo) : Prop where
  networkType : SP ∉ c.networkType
  addressType : Field c.addressType
  address : Kept c.address
  lf : LF ∉ c.line.val

theorem ConnectionInfo.Ok.kept (h : c.Ok) : Kept c.line.val := by
  rw [ConnectionInfo.val_line]
  exact (h.address.append_space _).append_space _

theorem unmarshalConnection_put (h : c.Ok) : unmarshalConnection c.line.val = .ok c := by
  rw [ConnectionInfo.val_line]
  unfold unmarshalConnection
  simp only [cutSpace_put _ _ h.networkType, cutSpace_field _ _ h.addressType, bind, Except.bind,
    pure, Except.pure]

/-- A bandwidth as the reader finds it. -/
structure BandwidthInfo.Ok (bw : BandwidthInfo) : Prop where
  colon : 58 ∉ bw.type
  lead : NoLeading bw.type
  trail : NoTrailing bw.type
  lf : LF ∉ bw.type

theorem unmarshalBandwidth_put {bw : BandwidthInfo} (h : bw.Ok) (hn : 0 ≤ bw.value.toInt) :
    unmarshalBandwidth bw.line.val = .ok bw := by
  rw [BandwidthInfo.val_line, unmarshalBandwidth.eq_def, cut_append 58 _ _ h.colon]
  simp only [trimSpace_formatInt _ hn, sdpNumber_put, trimSpace_eq_self _ h.lead h.trail, bind,
    Except.bind, pure, Except.pure]

theorem unmarshalTime_put (start stop : Int64) (hstart : 0 ≤ start.toInt) (hstop : 0 ≤ stop.toInt) :
    unmarshalTime (formatInt start.toInt ++ SP :: formatInt stop.toInt) =
      .ok ⟨[], start, stop⟩ := by
  unfold unmarshalTime
  simp only [cutSpace_put _ _ (field_formatInt start hstart).2, trimSpace_formatInt _ hstop,
    if_neg (field_formatInt stop hstop).1, sdpNumber_put, bind, Except.bind, pure, Except.pure]

/-- The offsets are found one after the other. -/
theorem unmarshalOffsets_put (o : Int64) (os : List Int64) (hos : ∀ n ∈ o :: os, 0 ≤ n.toInt)
    (fuel : Nat) (hfuel : os.length < fuel) :
    unmarshalOffsets fuel
      (formatInt o.toInt ++ os.flatMap (fun o => SP :: formatInt o.toInt)) = .ok (o :: os) := by
  induction os generalizing o fuel with
  | nil =>
    cases fuel with
    | zero => contradiction
    | succ fuel =>
      have hfield := field_formatInt o (hos o mem_cons_self)
      rw [flatMap_nil, append_nil, unmarshalOffsets, if_neg hfield.1,
        (cut_eq_none_iff SP _).mpr hfield.2]
      simp only [Option.getD_none, sdpNumber_put, bind, Except.bind]
      cases fuel <;> rfl
  | cons p os ih =>
    cases fuel with
    | zero => contradiction
    | succ fuel =>
      rcases forall_mem_cons.mp hos with ⟨ho, hrest⟩
      have hfield := field_formatInt o ho
      have hnext := field_formatInt p (hrest p mem_cons_self)
      have hne :
          formatInt o.toInt ++ (p :: os).flatMap (fun o => SP :: formatInt o.toInt) ≠ [] :=
        append_ne_nil_of_left_ne_nil hfield.1 _
      rw [unmarshalOffsets, if_neg hne, flatMap_cons, cons_append,
        cut_append SP _ _ hfield.2]
      simp only [Option.getD_some, sdpNumber_put, bind, Except.bind]
      rw [trimLeft_field _ _ hnext.1 hnext.2,
        ih p hrest fuel (Nat.lt_of_succ_lt_succ hfuel)]
      rfl

theorem unmarshalRepeat_put (r : RepeatInfo) (hn : ∀ n ∈ r.numbers, 0 ≤ n.toInt)
    (hne : r.offsets ≠ []) : unmarshalRepeat r.line.val = .ok r := by
  rcases r with ⟨_ | ⟨o, os⟩, interval, duration⟩
  · exact absurd rfl hne
  rcases forall_mem_cons.mp hn with ⟨hinterval, hn⟩
  rcases forall_mem_cons.mp hn with ⟨hduration, hoffsets⟩
  have ho := field_formatInt o (hoffsets o mem_cons_self)
  have hfuel : os.length <
      (formatInt o.toInt ++ os.flatMap (fun o => SP :: formatInt o.toInt)).length := by
    have hmany := length_le_flatMap_cons SP (fun o : Int64 => formatInt o.toInt) os
    have hpos := length_pos_iff.mpr ho.1
    rw [length_append]
    omega
  rw [RepeatInfo.val_line]
  unfold unmarshalRepeat
  simp only [flatMap_cons, cons_append,
    cutSpace_put _ _ (field_formatInt interval hinterval).2,
    cutSpace_field _ _ (field_formatInt duration hduration), sdpNumber_put,
    trimLeft_field _ _ ho.1 ho.2, unmarshalOffsets_put o os hoffsets _ hfuel, bind, Except.bind,
    pure, Except.pure]

theorem RepeatInfo.kept {r : RepeatInfo} (hn : ∀ n ∈ r.numbers, 0 ≤ n.toInt)
    (hne : r.offsets ≠ []) : Kept r.line.val := by
  rw [RepeatInfo.val_line]
  rcases r with ⟨offsets, interval, duration⟩
  -- The value ends in the last offset.
  rcases eq_nil_or_concat offsets with rfl | ⟨os, o, rfl⟩
  · exact absurd rfl hne
  have ho : 0 ≤ o.toInt := by
    refine hn o (mem_cons_of_mem _ (mem_cons_of_mem _ ?_))
    rw [concat_eq_append]
    exact mem_append_right _ mem_cons_self
  rw [concat_eq_append, flatMap_append, flatMap_singleton, ← append_assoc]
  refine Kept.append_space ?_ _
  exact (kept_formatInt o ho).append_space _

/-- A media line as the reader finds it. -/
structure MediaDescription.LineOk (md : MediaDescription) : Prop where
  type : SP ∉ md.type
  proto : Field md.proto
  fmt_ne_nil : md.fmt ≠ []
  fmt : ∀ f ∈ md.fmt, SP ∉ f
  rest : Kept (joinWith SP md.fmt)
  front : trimLeft (joinWith SP md.fmt) = joinWith SP md.fmt
  lf : LF ∉ md.line.val

theorem MediaDescription.LineOk.kept (h : md.LineOk) : Kept md.line.val := by
  rw [MediaDescription.val_line]
  exact ((h.rest.append_space md.proto).append_space md.portText).append_space md.type

/-- The number of ports that is read back. -/
def MediaDescription.ports (md : MediaDescription) : Int64 :=
  if 1 < md.portCount.toInt then md.portCount else 1

theorem MediaDescription.field_portText (md : MediaDescription) (hn : 0 ≤ md.port.toInt) :
    Field md.portText := by
  refine ⟨append_ne_nil_of_left_ne_nil (field_formatInt _ hn).1 _, ?_⟩
  rw [portText, mem_append, not_or]
  refine ⟨(field_formatInt _ hn).2, ?_⟩
  split
  · rename_i hcount
    rw [mem_cons, not_or]
    exact ⟨by decide, (field_formatInt _ (by omega)).2⟩
  · exact not_mem_nil

theorem unmarshalPort_put (val : Bytes) (md : MediaDescription) (hn : 0 ≤ md.port.toInt) :
    unmarshalPort val md.portText = .ok (md.port, md.ports) := by
  have hslash : (47 : UInt8) ∉ formatInt md.port.toInt := by
    rw [formatInt_of_nonneg _ hn]
    exact fun hc => absurd (formatNat_digit _ 47 hc) (by decide)
  rw [MediaDescription.portText, MediaDescription.ports, unmarshalPort.eq_def]
  by_cases hcount : 1 < md.portCount.toInt
  · rw [if_pos hcount, if_pos hcount, cut_append 47 _ _ hslash]
    simp only [sdpNumber_put, bind, Except.bind, pure, Except.pure]
  · rw [if_neg hcount, if_neg hcount, append_nil, (cut_eq_none_iff 47 _).mpr hslash]
    simp only [sdpNumber_put, bind, Except.bind, pure, Except.pure]

/-- A media description with nothing but its media line. -/
def MediaDescription.bare (md : MediaDescription) : MediaDescription :=
  ⟨none, none, md.type, md.proto, [], md.fmt, [], [], md.port, md.ports⟩

theorem unmarshalMedia_put (h : md.LineOk) (hn : 0 ≤ md.port.toInt) :
    unmarshalMedia md.line.val = .ok md.bare := by
  rw [MediaDescription.val_line]
  unfold unmarshalMedia
  simp only [cutSpace_put _ _ h.type, cutSpace_field _ _ (md.field_portText hn),
    cutSpace_field _ _ h.proto, unmarshalPort_put _ md hn, h.front, if_neg h.rest.ne_nil,
    split_joinWith SP md.fmt h.fmt_ne_nil h.fmt, bind, Except.bind, pure, Except.pure]
  rfl

/-- A name and a value as the reader finds them. -/
structure PairOk (name value : Bytes) : Prop where
  colon : 58 ∉ name
  back : value = [] ∨ Kept value
  lf : LF ∉ pairText name value

theorem unmarshalAttribute_pairText (h : 58 ∉ name) :
    unmarshalAttribute (pairText name value) = ⟨name, value⟩ := by
  rw [unmarshalAttribute.eq_def, pairText]
  by_cases hv : value = []
  · rw [if_neg (not_not.mpr hv), append_nil, (cut_eq_none_iff 58 name).mpr h, hv]
  · rw [if_pos hv, cut_append 58 name value h]

theorem unmarshalEncryption_pairText (h : 58 ∉ name) :
    unmarshalEncryption (pairText name value) = ⟨name, value⟩ := by
  rw [unmarshalEncryption.eq_def, pairText]
  by_cases hv : value = []
  · rw [if_neg (not_not.mpr hv), append_nil, (cut_eq_none_iff 58 name).mpr h, hv]
  · rw [if_pos hv, cut_append 58 name value h]

/-- What is read back of a name and a value. A name alone stands at the end of
    its line, where white space is dropped. -/
def rereadPair (typ : UInt8) (name value : Bytes) : Except SdpError (Bytes × Bytes) :=
  if value ≠ [] then .ok (name, value)
  else if trimRight name = [] then sdpErrorf (ascii "sdp: malformed line: ") [typ, 61]
  else .ok (trimRight name, [])

/-- A name that stands at the end of its line and comes back. -/
def PairKept (name value : Bytes) : Prop := value = [] → Kept name

theorem rereadPair_eq_self_iff :
    rereadPair typ name value = .ok (name, value) ↔ PairKept name value := by
  unfold rereadPair PairKept
  by_cases hv : value = []
  · rw [if_neg (not_not.mpr hv)]
    by_cases hn : trimRight name = []
    · rw [if_pos hn]
      refine iff_of_false (by simp only [sdpErrorf, reduceCtorEq, not_false_eq_true]) (fun h => ?_)
      have hkept := h hv
      exact hkept.ne_nil ((trimRight_of_noTrailing name hkept.trail).symm.trans hn)
    · rw [if_neg hn, Except.ok.injEq, Prod.mk.injEq, trimRight_eq_self_iff]
      constructor
      · rintro ⟨htrail, _⟩ _
        exact ⟨fun hc => hn (by rw [trimRight_of_noTrailing name htrail, hc]), htrail⟩
      · exact fun h => ⟨(h hv).trail, hv.symm⟩
  · rw [if_pos hv]
    exact iff_of_true rfl (fun hc => absurd hc hv)

theorem stepLine_pairLine {typ : UInt8} {name value : Bytes} (h : PairOk name value)
    (htyp : ∀ r ∈ spaceRunes, r.head? ≠ some typ) (st : SDP.Loop) :
    stepLine st (pairLine typ name value) =
      (rereadPair typ name value).bind (fun p => SDP.unmarshalField st typ (pairText p.1 p.2)) := by
  unfold rereadPair
  by_cases hv : value = []
  · have hval : (pairLine typ name value).val = name := by
      rw [val_pairLine, pairText, if_neg (not_not.mpr hv), append_nil]
    rw [stepLine, hval, SDP.unmarshalLine.eq_def]
    simp only [show (pairLine typ name value).typ = typ from rfl, trimSpace_line typ name htyp,
      if_neg (not_not.mpr hv)]
    cases hn : trimRight name with
    | nil => rfl
    | cons b n =>
      rw [if_neg (cons_ne_nil b n)]
      exact congrArg (SDP.unmarshalField st typ) (append_nil (b :: n)).symm
  · have hkept : Kept (pairLine typ name value).val := by
      rw [val_pairLine, pairText, if_pos hv]
      exact (h.back.resolve_left hv).append_colon name
    rw [hkept.stepLine_eq htyp, val_pairLine, if_pos hv]
    rfl

end Proto

end Trecs
