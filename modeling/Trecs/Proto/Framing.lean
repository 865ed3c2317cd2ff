import Trecs.Lib.TextLines
import Trecs.Proto.RoundTrip
import Trecs.Proto.Span

/-!
# Reading from the Middle of a Message

A stream has no marks between messages. A reader that has lost its place reads
on from somewhere inside a message. What it may read there is a message too: a
header value can look like a start line, and a body can hold a whole message.
But it is never the message it is in the middle of.

A text that starts inside the head has a shorter start line, or starts on a
header line, and then the first header of the message is missing from what
follows. The end of the head cannot be taken for anything else, since no line of
it is empty.

## Main definitions

* `headLines`: The lines of the head of a message.

## Theorems

* `wireHead_eq`, `headLines_plain`: The head as a section of lines.
* `unmarshalSIP_inside`: A text that starts inside the head is not read as the
  message.
* `unmarshalSIP_aligned`: A message is read as itself at its start only.
-/

namespace Trecs

open List Option

namespace Proto

open Reader

/-! ### The lines of a head -/

/-- The lines of the head of a message. -/
def headLines (m : SIPMessage) (sl : StartLine) (compact : Bool) : List Bytes :=
  sl.text :: m.allFields.map (lineText (writtenName compact))

variable {r r' : Reader} (name : Bytes → Bytes) (m : SIPMessage) (sl : StartLine) (compact : Bool)

theorem sectionText_lineText (fs : List (Bytes × Bytes)) : sectionText (fs.map (lineText name)) =
      fs.flatMap (fun f => lineText name f ++ crlf) ++ crlf := by
  rw [sectionText, flatMap_map]

theorem wireHead_eq : m.wireHead sl compact = sectionText (headLines m sl compact) := by
  rw [headLines, sectionText_cons, sectionText_lineText, SIPMessage.wireHead]
  simp only [append_assoc]
  rfl

theorem plain_startLine (h : WellFormedStart sl) : Plain sl.text := by
  have hmethods : ∀ method ∈ SIPMethod.known, CR ∉ method.text := by decide
  have hlf := (unmarshalStartLine_text sl h).2
  cases sl with
  | request method uri version =>
    refine ⟨?_, ?_, hlf⟩
    · simp only [StartLine.text, append_assoc]
      exact append_ne_nil_of_right_ne_nil _ (cons_ne_nil _ _)
    · simp only [StartLine.text, mem_append, mem_singleton, not_or]
      exact ⟨⟨⟨⟨hmethods method h.1, by decide⟩, h.2.1.2.2.1⟩, by decide⟩, h.2.2.2.1⟩
  | response version status statusCode =>
    rcases h with ⟨⟨_, _, hversion⟩, code, reason, rfl, ⟨_, hcode, _⟩, _, hreason⟩
    refine ⟨?_, ?_, hlf⟩
    · simp only [StartLine.text, append_assoc]
      exact append_ne_nil_of_right_ne_nil _ (cons_ne_nil _ _)
    · have hdigits : CR ∉ code := fun hmem => absurd (hcode CR hmem).1 (by decide)
      simp only [StartLine.text, mem_append, mem_singleton, not_or]
      exact ⟨⟨hversion.1, by decide⟩, ⟨hdigits, by decide⟩, hreason.1⟩

theorem plain_lineText (f : Bytes × Bytes) (hname : OneLine (name f.1)) (hvalue : OneLine f.2) :
    Plain (lineText name f) := by
  refine ⟨lineText_ne_nil name f, ?_, ?_⟩
  · rw [lineText, mem_append, mem_append, not_or, not_or]
    exact ⟨⟨hname.1, by decide⟩, hvalue.1⟩
  · rw [lineText, mem_append, mem_append, not_or, not_or]
    exact ⟨⟨hname.2, by decide⟩, hvalue.2⟩

theorem oneLine_token (n : Bytes) (h : n.all validHeaderFieldByte = true) : OneLine n :=
  ⟨not_mem_token n h CR (by decide), not_mem_token n h LF (by decide)⟩

theorem oneLine_cseqValue (h : m.cseq.method ∈ SIPMethod.known) : OneLine m.cseqValue := by
  have hmethods : ∀ method ∈ SIPMethod.known, OneLine method.text := by decide
  have hmethod := hmethods _ h
  constructor
  · rw [SIPMessage.cseqValue, mem_append, mem_append, not_or, not_or]
    exact ⟨⟨not_mem_formatInt _ CR (by decide), by decide⟩, hmethod.1⟩
  · rw [SIPMessage.cseqValue, mem_append, mem_append, not_or, not_or]
    exact ⟨⟨not_mem_formatInt _ LF (by decide), by decide⟩, hmethod.2⟩

theorem oneLine_formatNat (n : Nat) : OneLine (formatNat n) := by
  rw [← formatInt_natCast]
  exact ⟨not_mem_formatInt _ CR (by decide), not_mem_formatInt _ LF (by decide)⟩

/-- No line of the head is empty. -/
theorem headLines_plain (h : WellFormed m) (hsl : m.startLine = some sl) :
    ∀ l ∈ headLines m sl compact, Plain l := by
  intro l hl
  have hnames : OneLine (writtenName compact hCSeq) ∧
      OneLine (writtenName compact hContentLength) := by cases compact <;> decide
  rw [headLines, mem_cons, List.mem_map] at hl
  rcases hl with rfl | ⟨f, hf, rfl⟩
  · rcases h.start with ⟨sl', hsl', hstart⟩
    rw [hsl, some.injEq] at hsl'
    exact plain_startLine sl (hsl' ▸ hstart)
  · rw [SIPMessage.allFields, mem_append, mem_cons, mem_singleton] at hf
    rcases hf with hf | rfl | rfl
    · rcases (m.mem_fields f).mp hf with ⟨_, vs, hvs, hv⟩
      rcases h.headers ⟨f.1, vs⟩ (AList.mem_lookup_iff.mp hvs) with
        ⟨⟨hne, htoken, hcan⟩, _, hvalues⟩
      exact plain_lineText _ f
        (oneLine_token _ (writtenName_token compact f.1 hne htoken hcan).2.1) (hvalues f.2 hv).1
    · exact plain_lineText _ _ hnames.1 (oneLine_cseqValue m h.cseq.2)
    · exact plain_lineText _ _ hnames.2 (oneLine_formatNat _)

/-! ### Reading from the middle of a head -/

/-- The first header of a well-formed message is one of the map. -/
theorem fields_cons (h : WellFormed m) : ∃ f fs, m.fields = f :: fs := by
  have hvia : hVia ∈ m.headers := h.required hVia (.head _)
  rcases hl : m.headers.lookup hVia with _ | vs
  · exact absurd (AList.lookup_isSome.mpr hvia) (by rw [hl]; exact Bool.false_ne_true)
  · have hne := (h.headers ⟨hVia, vs⟩ (AList.mem_lookup_iff.mp hl)).2.1
    rcases vs with _ | ⟨v, vs⟩
    · exact absurd rfl hne
    · have hmem : (hVia, v) ∈ m.fields :=
        (m.mem_fields _).mpr ⟨(show fromMap hVia = true by decide), v :: vs, hl, mem_cons_self⟩
      exact exists_cons_of_ne_nil (ne_nil_of_mem hmem)

/-- Some of the header lines without the first one do not make the headers of
    the message. -/
theorem lookup_behind (h : WellFormed m) (before behind : List (Bytes × Bytes)) (f : Bytes × Bytes)
    (hall : m.allFields = before ++ f :: behind) : ∃ k, k ≠ hCSeq ∧ k ≠ hContentLength ∧
      (behind.foldl (fun h f => SIPHeaders.push h f.1 f.2) ∅).lookup k ≠ m.headers.lookup k := by
  rcases fields_cons m h with ⟨g, gs, hg⟩
  have hgmem : g ∈ m.fields := hg ▸ mem_cons_self
  rcases (m.mem_fields g).mp hgmem with ⟨hmap, vs, hvs, hv⟩
  rw [fromMap_eq_true_iff] at hmap
  refine ⟨g.1, hmap.1, hmap.2, ?_⟩
  -- The message has one more value under the key of its first header.
  have hvalues := valuesOf_allFields m g.1
  rw [if_neg hmap.1, if_neg hmap.2, hvs, getD_some] at hvalues
  have hlt : (valuesOf behind g.1).length < vs.length := by
    rw [← hvalues]
    rcases before with _ | ⟨b, before⟩
    · have hfirst : f = g := by
        rw [SIPMessage.allFields, hg, cons_append, nil_append, cons.injEq] at hall
        exact hall.1.symm
      rw [hall, nil_append, hfirst, valuesOf_cons, if_pos rfl, length_cons]
      omega
    · have hfirst : b = g := by
        rw [SIPMessage.allFields, hg, cons_append, cons_append, cons.injEq] at hall
        exact hall.1.symm
      have hpart : valuesOf (before ++ f :: behind) g.1 =
          valuesOf (before ++ [f]) g.1 ++ valuesOf behind g.1 := by
        rw [← valuesOf_append, append_assoc, singleton_append]
      rw [hall, cons_append, hfirst, valuesOf_cons, if_pos rfl, length_cons, hpart,
        length_append]
      omega
  rw [lookup_foldl_push, hvs]
  intro hc
  by_cases hnil : valuesOf behind g.1 = []
  · rw [if_pos hnil] at hc
    cases hc
  · rw [if_neg hnil, AList.lookup_empty, getD_none, nil_append,
      some.injEq] at hc
    rw [hc] at hlt
    exact Nat.lt_irrefl _ hlt

/-- A text that starts inside the head of a message is not read as that
    message. -/
theorem unmarshalSIP_inside {c : Bool} {ts : List Token} {m m' : SIPMessage} {sl : StartLine}
    {compact : Bool} (hwf : WellFormed m) (hw : Writable m sl compact) (z : Bytes)
    (hz : z <:+ m.wireHead sl compact) (hne : z ≠ []) (hlt : z ≠ m.wireHead sl compact)
    (hat : At r c (z.map .byte ++ ts)) (h : Parser.run unmarshalSIP r = some (.ok m', r')) :
    ¬ SameMessage m m' := by
  intro hsame
  rcases unmarshalSIPFrom_eq_ok h with ⟨line, sl', r₁, r₂, hline, hstart, hsl', hheaders, _, _⟩
  have hslEq : sl' = sl := by
    have hmsg := hsame.startLine
    rw [hsl', hw.startLine, some.injEq] at hmsg
    exact hmsg
  have htext : sl.text = line := hslEq ▸ unmarshalStartLine_sound hstart
  have hplain := headLines_plain m sl compact hwf hw.startLine
  have hlinePlain : Plain line := htext ▸ hplain sl.text (.head _)
  rw [wireHead_eq] at hz hlt
  rcases sectionText_suffix _ z hz hne with ⟨before, l, behind, a, hls, ha, hzeq⟩ | ⟨rest, hzeq⟩ |
    hzeq
  · have hlf : LF ∉ a := by
      have hl := hplain l (hls ▸ mem_append_right before mem_cons_self)
      exact fun hmem => hl.lf (ha.mem hmem)
    have hshape : z.map Token.byte ++ ts = (a ++ crlf).map Token.byte ++
        ((sectionText behind).map Token.byte ++ ts) := by
      rw [hzeq, ← append_assoc]
      simp
    rw [hshape] at hat
    rcases readLine_crlf a hlf hat with ⟨r₃, hread, hat₁⟩
    rw [hread, some.injEq, Prod.mk.injEq, Except.ok.injEq] at hline
    rcases hline with ⟨haline, hr₃⟩
    rcases before with _ | ⟨b, before⟩
    · -- The rest of the start line is the whole of it.
      rw [headLines, nil_append, cons.injEq] at hls
      refine hlt ?_
      rw [hzeq, haline, ← htext, headLines, sectionText_cons, hls.2]
    · -- The text starts on a header line, and the headers behind it are read.
      rw [headLines, cons_append, cons.injEq] at hls
      rcases map_eq_append_iff.mp hls.2 with ⟨fs, gs, hall, _, hgs⟩
      rcases map_eq_cons_iff.mp hgs with ⟨f, fs', rfl, _, hbehind⟩
      have hmem : ∀ f' ∈ fs', f' ∈ m.allFields := fun f' hf' =>
        hall ▸ mem_append_right fs (.tail _ hf')
      have htail : ∀ f' ∈ fs'.tail, f' ∈ m.allFields.tail := by
        intro f' hf'
        have hmem' := mem_of_mem_tail hf'
        rcases fs with _ | ⟨x, fs⟩
        · rw [hall]
          exact hmem'
        · rw [hall]
          exact mem_append_right fs (.tail _ hmem')
      rw [← hbehind, sectionText_lineText, hr₃] at hat₁
      rcases unmarshalHeaders_fields (writtenName compact) fs'
        (fun f' hf' => hw.allFields_ok f' (hmem f' hf'))
        (fun f' hf' => hw.allFields_plain f' (htail f' hf')) hat₁ with ⟨r₄, hread', _⟩
      rw [hread', some.injEq, Prod.mk.injEq, Except.ok.injEq] at hheaders
      rcases lookup_behind m hwf fs fs' f hall with ⟨k, hk, hk', hlookup⟩
      exact hlookup (hheaders.1 ▸ hsame.headers k hk hk')
  · -- The line ends of a start line are not start lines.
    have hshape : z.map Token.byte ++ ts =
        (([] : Bytes) ++ [LF]).map Token.byte ++ (rest.map Token.byte ++ ts) := by
      rw [hzeq]
      rfl
    rw [hshape] at hat
    rcases readLine_lf [] not_mem_nil (by decide) hat with ⟨r₃, hread, _⟩
    rw [hread, some.injEq, Prod.mk.injEq, Except.ok.injEq] at hline
    exact hlinePlain.lf (hline.1 ▸ mem_singleton_self LF)
  · rw [hzeq, ← nil_append crlf] at hat
    rcases readLine_crlf [] not_mem_nil hat with ⟨r₃, hread, _⟩
    rw [hread, some.injEq, Prod.mk.injEq, Except.ok.injEq] at hline
    exact hlinePlain.ne_nil hline.1.symm

/-! ### Reading at the right place -/

/-- Bytes other than those of a line end. -/
def visible (b : UInt8) : Bool := b != CR && b != LF

theorem countP_visible_eq_zero (cs : Bytes) (h : ∀ b ∈ cs, b = CR ∨ b = LF) :
    cs.countP visible = 0 := by
  rw [countP_eq_zero]
  intro b hb
  rcases h b hb with rfl | rfl <;> decide

/-- When a message has been read as itself, the reader was at its start. In
    front of the text that is still to come there may be line ends. -/
theorem unmarshalSIP_aligned {ts : List Token} {m m' : SIPMessage} {sl : StartLine} {compact : Bool}
    (hwf : WellFormed m) (hw : Writable m sl compact) (hat : At r false ts)
    (h : Parser.run unmarshalSIP r = some (.ok m', r')) (hsame : SameMessage m m')
    (y cs rest : Bytes) (hcs : ∀ b ∈ cs, b = CR ∨ b = LF) (hrest : rest <:+ r'.left)
    (hbytes : y ++ bytesOf ts = m.wire sl compact ++ (cs ++ rest)) :
    y = [] ∧ ∃ ts', ts = (m.wire sl compact).map Token.byte ++ ts' := by
  rcases unmarshalSIP_span hat h with ⟨head, ts', hts, hat', ⟨e, hend⟩, hsp⟩
  rcases hrest with ⟨x, hx⟩
  -- What was read and what is left of it make up the message and the line ends.
  have hwhole : y ++ (head ++ (m.body ++ x)) = m.wireHead sl compact ++ (m.body ++ cs) := by
    rw [hts, bytesOf_append, bytesOf_map_byte, ← hat'.left_eq, ← hx, hsame.body,
      SIPMessage.wire] at hbytes
    have hall : (y ++ (head ++ (m.body ++ x))) ++ rest =
        (m.wireHead sl compact ++ (m.body ++ cs)) ++ rest := by
      simpa only [append_assoc] using hbytes
    exact append_cancel_right hall
  -- The message was not read inside the body, which is too short for it.
  have hbody : ∀ y', y' ++ (head ++ (m.body ++ x)) ≠ m.body ++ cs := by
    intro y' heq
    have hcount := congrArg (List.countP visible) heq
    have hpos : 0 < head.countP visible :=
      countP_pos_iff.mpr ⟨SP, hsp, by decide⟩
    simp only [countP_append, countP_visible_eq_zero cs hcs] at hcount
    omega
  rcases append_eq_append_iff.mp hwhole with ⟨z, hz, hrest⟩ | ⟨y', _, hy'⟩
  · -- The head that was read does not end inside the head of the message.
    have hlong : ∃ w, head = z ++ w := by
      rcases append_eq_append_iff.mp hrest with ⟨v, hv, _⟩ | ⟨w, hw, _⟩
      · have hblank : m.wireHead sl compact = (y ++ e) ++ ([LF, CR, LF] ++ v) := by
          rw [hz, hv, ← hend]
          simp
        rw [wireHead_eq] at hblank
        have hnil := sectionText_blank _ (headLines_plain m sl compact hwf hw.startLine) _ _ hblank
        rw [hnil, append_nil] at hv
        exact ⟨[], by rw [hv, append_nil]⟩
      · exact ⟨w, hw⟩
    rcases hlong with ⟨w, rfl⟩
    have hzat : ts = z.map Token.byte ++ ((w ++ m'.body).map Token.byte ++ ts') := by
      rw [hts]
      simp
    have hy : y = [] := by
      by_contra hne
      have hzne : z ≠ [] := by
        rintro rfl
        exact hbody [] hrest
      have hzlt : z ≠ m.wireHead sl compact := by
        intro heq
        rw [← heq] at hz
        exact hne (append_left_eq_self.mp hz.symm)
      exact unmarshalSIP_inside hwf hw z ⟨y, hz.symm⟩ hzne hzlt (hzat ▸ hat) h hsame
    refine ⟨hy, ?_⟩
    rw [hy, nil_append] at hz
    -- The line ends that were read with the head are the first of the body.
    have hshift : w ++ (m.body ++ x) = m.body ++ cs := by
      rw [append_assoc] at hrest
      exact append_cancel_left hrest
    have hpre : m.body <+: w ++ m.body := by
      refine prefix_of_prefix_length_le (prefix_append m.body cs) ?_ ?_
      · rw [← hshift, ← append_assoc]
        exact prefix_append _ _
      · rw [length_append]
        omega
    rcases hpre with ⟨v, hv⟩
    refine ⟨v.map Token.byte ++ ts', ?_⟩
    rw [hzat, hsame.body, ← hv, SIPMessage.wire, hz]
    simp
  · exact absurd hy'.symm (hbody y')

end Proto

end Trecs
