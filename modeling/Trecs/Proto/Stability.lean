import Trecs.Proto.Accepted

/-!
# Writing Back What Was Read

A message that the parser accepted is written out and parsed again. Four things
keep the second message from being the first one.

A line that a bare line feed ended keeps it. When such a line is written, CR LF
follows the line feed and stands there as an empty line, which ends the header
section. That is so for the start line and for every header value.

A negative sequence number makes the buffer too small for the text, as
`marshalBytes_of_neg` has it.

A header name may start with a space or a tab if its line was the first one, or
followed a line of carriage returns. Written behind another header it is a
continuation of that one.

`Rewritable` excludes these four, and `marshal_stable_iff` says that there are
no others. For the necessity it is enough to know which keys come out of the
header section that was written: `headerFields_lines` finds only keys
that were written, and behind the first line no key with a blank in front.

## Main definitions

* `Rewritable`: The messages that survive.
* `ended`: A line with its end, as it is written or as it stands for itself.

## Theorems

* `firstLine_ended`: A line is read piece by piece.
* `headerFields_lines`: The keys of a written header section.
* `marshal_stable_iff`: When writing back and reading again changes nothing.
-/

namespace Trecs

open List Option

namespace Proto

open Reader

/-! ### Reading written lines -/

/-- A line with the CR LF that is needed to end it. A line that ends in a line
    feed needs none. -/
def ended (l : Bytes) : Bytes := if l.getLast? = some LF then l else l ++ crlf

/-- The text of a header line with its full name. -/
def fieldText (f : Bytes × Bytes) : Bytes := f.1 ++ [58, SP] ++ f.2

theorem Assembled.rest {a b : Bytes} (h : Assembled (a ++ LF :: b)) : Assembled b := by
  intro a' b' hb
  have hl : a ++ LF :: b = (a ++ LF :: a') ++ LF :: b' := by
    rw [hb, append_assoc, cons_append]
  refine ⟨?_, (h _ _ hl).2⟩
  intro hlast
  refine (h _ _ hl).1 ?_
  rw [getLast?_append, getLast?_cons, hlast]
  rfl

theorem ended_of_not_mem (l : Bytes) (h : LF ∉ l) : ended l = l ++ crlf := by
  unfold ended
  rw [if_neg (fun hc => h (mem_of_getLast? hc))]

/-- The end of a line with pieces is the end of its last piece. -/
theorem ended_append (a b : Bytes) (hb : b ≠ []) :
    ended (a ++ LF :: b) = (a ++ [LF]) ++ ended b := by
  have hlast : (a ++ LF :: b).getLast? = b.getLast? := by
    rw [getLast?_append_of_ne_nil _ (cons_ne_nil _ _)]
    rcases b with _ | ⟨x, xs⟩
    · exact absurd rfl hb
    · rw [getLast?_cons_cons]
  unfold ended
  rw [hlast]
  by_cases h : b.getLast? = some LF
  · rw [if_pos h, if_pos h, append_assoc]
    rfl
  · rw [if_neg h, if_neg h]
    simp

theorem ended_cons (x : UInt8) (xs : Bytes) : ∃ more, ended (x :: xs) = x :: more := by
  unfold ended
  split
  · exact ⟨_, rfl⟩
  · exact ⟨_, rfl⟩

variable (g : Bytes × Bytes) (m : SIPMessage)

/-- The first piece of a line is read, and then its other pieces are added to
    whatever it was itself added to. -/
theorem firstLine_ended (rest : Bytes) (n : Nat) (l : Bytes) (hlen : l.length ≤ n)
    (hl : Assembled l) (hne : l ≠ []) :
    ∃ p tail, firstLine (ended l ++ rest) = (p, tail) ∧ p ≠ [] ∧
      ∀ acc, foldedLine (acc ++ p) tail = foldedLine (acc ++ l) rest := by
  -- Induction on a bound for the length, since the rest of a line is a shorter line.
  induction n generalizing l with
  | zero => exact absurd (length_eq_zero_iff.mp (Nat.le_zero.mp hlen)) hne
  | succ n ih =>
    rcases line_cases l with hnot | ⟨a, b, rfl, hnot⟩
    · rw [ended_of_not_mem l hnot]
      exact ⟨l, rest, firstLine_crlf l rest hnot, hne, fun acc => rfl⟩
    rcases hl a b rfl with ⟨hcr, hblank⟩
    have hpiece : a ++ [LF] ≠ [] := append_ne_nil_of_right_ne_nil a (cons_ne_nil _ _)
    rcases b with _ | ⟨x, xs⟩
    · -- The line ends with this line feed.
      refine ⟨a ++ [LF], rest, ?_, hpiece, fun acc => rfl⟩
      rw [ended, if_pos getLast?_concat, append_assoc]
      exact firstLine_lf a rest hnot hcr
    · rw [length_append, length_cons] at hlen
      rcases ih (x :: xs) (by omega) hl.rest (cons_ne_nil _ _) with ⟨p, tail, hfirst, _, hgo⟩
      refine ⟨a ++ [LF], ended (x :: xs) ++ rest, ?_, hpiece, fun acc => ?_⟩
      · rw [ended_append a (x :: xs) (cons_ne_nil _ _), append_assoc, append_assoc]
        exact firstLine_lf a _ hnot hcr
      · rcases ended_cons x xs with ⟨more, hmore⟩
        rw [hmore, cons_append] at hfirst ⊢
        rw [foldedLine_next _ _ (hblank x rfl), hfirst, ← append_assoc acc, rdropWhile_blank_lf,
          hgo]
        simp

/-- Trimming and adding to a line leaves the text in front of its colon. -/
theorem cut_colon_rdropWhile {line k v : Bytes} (more : Bytes) (h : cut 58 line = some (k, v)) :
    ∃ v', cut 58 (line.rdropWhile blank ++ more) = some (k, v') := by
  rcases (cut_eq_some_iff 58 line k v).mp h with ⟨hline, hcolon⟩
  have hsplit : line.rdropWhile blank ++ line.rtakeWhile blank = k ++ 58 :: v := by
    rw [← hline]
    exact rdropWhile_append_rtakeWhile
  have hblank : (58 : UInt8) ∉ line.rtakeWhile blank := by
    intro hmem
    exact absurd (mem_rtakeWhile_imp hmem) (by decide)
  rcases append_eq_append_iff.mp hsplit with ⟨x, hk, hx⟩ | ⟨x, hk, hx⟩
  · rw [hx] at hblank
    exact absurd (mem_append_right x mem_cons_self) hblank
  · rcases x with _ | ⟨x₀, xs⟩
    · rw [nil_append] at hx
      rw [← hx] at hblank
      exact absurd mem_cons_self hblank
    · rw [cons_append, cons.injEq] at hx
      refine ⟨xs ++ more, ?_⟩
      rw [cut_eq_some_iff, hk, ← hx.1, append_assoc]
      exact ⟨rfl, hcolon⟩

/-- The lines of a header section. -/
def linesText (gs : List (Bytes × Bytes)) : Bytes := gs.flatMap (fun g => ended (fieldText g))

theorem fieldText_ne_nil : fieldText g ≠ [] := by
  unfold fieldText
  rw [append_assoc]
  exact append_ne_nil_of_right_ne_nil _ (cons_ne_nil _ _)

/-- The first byte of a line decides whether its name starts with a blank. -/
theorem ended_fieldText_cons :
    ∃ x more, ended (fieldText g) = x :: more ∧ ((x ≠ SP ∧ x ≠ HT) → PlainName g.1) := by
  have hhead : ∃ x more, fieldText g = x :: more ∧ ((x ≠ SP ∧ x ≠ HT) → PlainName g.1) := by
    unfold fieldText PlainName
    rcases hg : g.1 with _ | ⟨x, xs⟩
    · exact ⟨58, SP :: g.2, rfl, fun _ b hb => by cases hb⟩
    · refine ⟨x, xs ++ [58, SP] ++ g.2, rfl, fun hx b hb => ?_⟩
      cases hb
      exact hx
  rcases hhead with ⟨x, more, htext, hplain⟩
  rcases ended_cons x more with ⟨more', hended⟩
  exact ⟨x, more', by rw [htext, hended], hplain⟩

/-- Continuations are whole written lines. A header line that has its colon
    keeps its name whatever is added, and ends in front of a line whose name
    does not start with a blank. -/
theorem foldedLine_lines (gs : List (Bytes × Bytes)) (hgs : ∀ g ∈ gs, Assembled (fieldText g))
    (line k v rest : Bytes) (hline : cut 58 line = some (k, v)) :
    ∃ gs₁ gs₂ res v', gs = gs₁ ++ gs₂ ∧ (∀ g, gs₂.head? = some g → PlainName g.1) ∧
      foldedLine line (linesText gs ++ (crlf ++ rest)) = (res, linesText gs₂ ++ (crlf ++ rest)) ∧
      cut 58 res = some (k, v') := by
  induction gs generalizing line v with
  | nil =>
    exact ⟨[], [], line, v, rfl, fun g hg => (by cases hg),
      foldedLine_stop line (LF :: rest) (by decide), hline⟩
  | cons g gs ih =>
    have hshape : linesText (g :: gs) ++ (crlf ++ rest) =
        ended (fieldText g) ++ (linesText gs ++ (crlf ++ rest)) := by
      rw [linesText, flatMap_cons, append_assoc]
      rfl
    rcases ended_fieldText_cons g with ⟨x, more, hcons, hplain⟩
    by_cases hx : x ≠ SP ∧ x ≠ HT
    · -- The next line starts a header of its own.
      refine ⟨[], g :: gs, line, v, rfl, fun g' hg' => some.inj hg' ▸ hplain hx, ?_, hline⟩
      rw [hshape, hcons, cons_append]
      exact foldedLine_stop line _ hx
    · -- The next line is added, with all of its pieces.
      have hblank : x = SP ∨ x = HT := by
        by_contra hc
        exact hx (not_or.mp hc)
      rcases firstLine_ended (linesText gs ++ (crlf ++ rest)) _ (fieldText g) (Nat.le_refl _)
        (hgs g mem_cons_self) (fieldText_ne_nil g) with ⟨p, tail, hfirst, _, hgo⟩
      rcases cut_colon_rdropWhile (fieldText g) hline with ⟨v₁, hcut⟩
      rcases ih (fun g' hg' => hgs g' (mem_cons_of_mem g hg')) _ v₁ hcut with
        ⟨gs₁, gs₂, res, v', hsplit, hhead, hres, hcut'⟩
      refine ⟨g :: gs₁, gs₂, res, v', by rw [hsplit, cons_append], hhead, ?_, hcut'⟩
      rw [hshape]
      rw [hcons, cons_append] at hfirst ⊢
      rw [foldedLine_next line _ hblank, hfirst, hgo, hres]

/-- The headers that come out of a header section: their keys were written, and
    only the first one can start with a blank. -/
theorem headerFields_lines (n : Nat) (gs : List (Bytes × Bytes)) (hn : gs.length ≤ n)
    (hgs : ∀ g ∈ gs, Stored g) (rest : Bytes) :
    ∃ fs : List (Bytes × Bytes), headerFields (linesText gs ++ (crlf ++ rest)) = .ok (fs, rest) ∧
      (∀ f ∈ fs, ∃ g ∈ gs, f.1 = g.1) ∧ (∀ f ∈ fs.tail, PlainName f.1) ∧
      ∀ f, fs.head? = some f → ∃ g, gs.head? = some g ∧ f.1 = g.1 := by
  induction n generalizing gs with
  | zero =>
    rw [length_eq_zero_iff.mp (Nat.le_zero.mp hn)]
    exact ⟨[], headerFields_empty rest, fun f hf => (by cases hf), fun f hf => (by cases hf),
      fun f hf => by cases hf⟩
  | succ n ih =>
    rcases gs with _ | ⟨g, gs⟩
    · exact ih [] (Nat.zero_le n) hgs
    have hg := hgs g mem_cons_self
    have hcut : cut 58 (fieldText g) = some (g.1, SP :: g.2) := by
      rw [cut_eq_some_iff, fieldText, append_assoc]
      exact ⟨rfl, hg.colon⟩
    rcases firstLine_ended (linesText gs ++ (crlf ++ rest)) _ (fieldText g) (Nat.le_refl _) hg.line
      (fieldText_ne_nil g) with ⟨p, tail, hfirst, hpne, hgo⟩
    rcases foldedLine_lines gs (fun g' hg' => (hgs g' (mem_cons_of_mem g hg')).line) (fieldText g)
      g.1 _ rest hcut with ⟨gs₁, gs₂, res, v, hsplit, hhead, hfolded, hres⟩
    have hline : headerLine (linesText (g :: gs) ++ (crlf ++ rest)) =
        (res, linesText gs₂ ++ (crlf ++ rest)) := by
      rw [linesText, flatMap_cons, append_assoc]
      change headerLine (ended (fieldText g) ++ (linesText gs ++ (crlf ++ rest))) = _
      rw [headerLine, hfirst, if_neg hpne, ← nil_append p, hgo, nil_append, hfolded]
    have hsub : ∀ g' ∈ gs₂, g' ∈ g :: gs := fun g' hg' => by
      rw [hsplit]
      exact mem_cons_of_mem g (mem_append_right gs₁ hg')
    have hlen := congrArg List.length hsplit
    rw [length_append] at hlen
    rw [length_cons] at hn
    rcases ih gs₂ (by omega) (fun g' hg' => hgs g' (hsub g' hg')) with
      ⟨fs, hfs, hkeys, htail, hfirst'⟩
    refine ⟨(g.1, v) :: fs, ?_, ?_, ?_, ?_⟩
    · rw [headerFields_cons hline hres, hfs]
      rfl
    · refine forall_mem_cons.mpr ⟨⟨g, mem_cons_self, rfl⟩, fun f hf => ?_⟩
      rcases hkeys f hf with ⟨g', hg', hfg⟩
      exact ⟨g', hsub g' hg', hfg⟩
    · intro f hf
      rcases fs with _ | ⟨f₀, fs⟩
      · cases hf
      · rcases mem_cons.mp hf with rfl | hf
        · rcases hfirst' f rfl with ⟨g', hg', hfg⟩
          rw [hfg]
          exact hhead g' hg'
        · exact htail f hf
    · intro f hf
      cases hf
      exact ⟨g, rfl, rfl⟩

/-! ### Which messages survive -/

/-- What keeps a message from changing: no line was ended by a bare line feed,
    the sequence number is not negative, and a header whose name starts with a
    space or a tab has one value and comes before all others. -/
structure Rewritable (m : SIPMessage) : Prop where
  start : ∀ sl, m.startLine = some sl → sl.text.getLast? ≠ some LF
  values : ∀ k vs v, fromMap k = true → m.headers.lookup k = some vs → v ∈ vs →
    v.getLast? ≠ some LF
  seq : 0 ≤ m.cseq.seq.toInt
  names : ∀ k vs, fromMap k = true → m.headers.lookup k = some vs → ¬ PlainName k →
    vs.length = 1 ∧ ∀ k' ∈ m.headers, fromMap k' = true → k ≤ k'

theorem headerKeys_pairwise : m.headerKeys.Pairwise (· ≤ ·) := by
  have htrans : IsTrans Bytes (· ≤ ·) := ⟨fun _ _ _ => List.le_trans⟩
  exact pairwise_insertionSort _ _

/-- The condition on names, seen in the order of writing. -/
theorem fields_tail_plain_iff
    (hvalues : ∀ k vs, fromMap k = true → m.headers.lookup k = some vs → vs ≠ []) :
    (∀ f ∈ m.fields.tail, PlainName f.1) ↔
      ∀ k vs, fromMap k = true → m.headers.lookup k = some vs → ¬ PlainName k →
        vs.length = 1 ∧ ∀ k' ∈ m.headers, fromMap k' = true → k ≤ k' := by
  have hmem : ∀ k vs, fromMap k = true → m.headers.lookup k = some vs → k ∈ m.headerKeys := by
    intro k vs hk hl
    rw [m.mem_headerKeys, ← AList.mem_keys, ← AList.lookup_isSome, hl]
    exact ⟨rfl, hk⟩
  rcases hks : m.headerKeys with _ | ⟨k₀, ks⟩
  · -- Nothing is written from the map.
    constructor
    · intro _ k vs hk hl _
      cases hks ▸ hmem k vs hk hl
    · intro _ f hf
      rw [SIPMessage.fields, hks] at hf
      cases hf
  · have hk₀ := (m.mem_headerKeys k₀).mp (hks ▸ mem_cons_self)
    rcases isSome_iff_exists.mp (AList.lookup_isSome.mpr (AList.mem_keys.mpr hk₀.1)) with
      ⟨vs₀, hl₀⟩
    rcases vs₀ with _ | ⟨v₀, vs₀⟩
    · exact absurd rfl (hvalues k₀ [] hk₀.2 hl₀)
    have hsorted := headerKeys_pairwise m
    have hnodup := m.headerKeys_nodup
    rw [hks, pairwise_cons] at hsorted
    rw [hks, nodup_cons] at hnodup
    have htail : m.fields.tail = vs₀.map (fun v => (k₀, v)) ++
        ks.flatMap (fun k => ((m.headers.lookup k).getD []).map (fun v => (k, v))) := by
      rw [SIPMessage.fields, hks, flatMap_cons, hl₀]
      rfl
    constructor
    · intro hplain k vs hk hl hblank
      -- A blank name among the later ones would be in the tail.
      have hfirst : k = k₀ := by
        rcases mem_cons.mp (hks ▸ hmem k vs hk hl) with h | h
        · exact h
        · rcases exists_mem_of_ne_nil vs (hvalues k vs hk hl) with ⟨v, hv⟩
          refine absurd (hplain (k, v) ?_) hblank
          rw [htail, mem_append, mem_flatMap]
          refine .inr ⟨k, h, ?_⟩
          rw [hl]
          exact List.mem_map.mpr ⟨v, hv, rfl⟩
      have hvs : vs = v₀ :: vs₀ := by
        rw [hfirst, hl₀, some.injEq] at hl
        exact hl.symm
      refine ⟨?_, ?_⟩
      · rcases vs₀ with _ | ⟨v₁, vs₀⟩
        · rw [hvs]
          rfl
        · refine absurd (hplain (k₀, v₁) ?_) (hfirst ▸ hblank)
          rw [htail]
          exact mem_append_left _ mem_cons_self
      · intro k' hk' hmap
        have hkey : k' ∈ k₀ :: ks := by
          rw [← hks, m.mem_headerKeys]
          exact ⟨hk', hmap⟩
        rw [hfirst]
        rcases mem_cons.mp hkey with rfl | h
        · exact List.le_refl _
        · exact hsorted.1 k' h
    · intro hnames f hf
      by_contra hblank
      rcases (m.mem_fields f).mp (mem_of_mem_tail hf) with ⟨hk, vs, hl, _⟩
      rcases hnames f.1 vs hk hl hblank with ⟨hone, hleast⟩
      rw [htail, mem_append] at hf
      rcases hf with hf | hf
      · rcases List.mem_map.mp hf with ⟨v, hv, rfl⟩
        rw [hl₀, some.injEq] at hl
        rw [← hl, length_cons] at hone
        have hlen := length_pos_of_mem hv
        omega
      · rcases mem_flatMap.mp hf with ⟨k, hkmem, hfk⟩
        rcases List.mem_map.mp hfk with ⟨v, _, rfl⟩
        have hle := hleast k₀ (AList.mem_keys.mpr hk₀.1) hk₀.2
        have heq : k₀ = k := List.le_antisymm (hsorted.1 k hkmem) hle
        exact hnodup.1 (heq ▸ hkmem)

/-! ### Sufficiency -/

theorem foldable_of_assembled {l : Bytes} (h : Assembled l) (hlast : l.getLast? ≠ some LF) :
    Foldable l := by
  intro a b hl
  rcases h a b hl with ⟨hcr, hblank⟩
  refine ⟨hcr, ?_⟩
  rcases b with _ | ⟨c, b'⟩
  · exact absurd (by rw [hl]; exact getLast?_concat) hlast
  · exact ⟨c, b', rfl, hblank c rfl⟩

/-- A header line ends as its value does. -/
theorem getLast?_fieldText (f : Bytes × Bytes) :
    (fieldText f).getLast? = some LF ↔ f.2.getLast? = some LF := by
  unfold fieldText
  rcases hv : f.2 with _ | ⟨b, bs⟩
  · rw [append_nil, getLast?_append_of_ne_nil _ (cons_ne_nil _ _)]
    decide
  · rw [getLast?_append_of_ne_nil _ (cons_ne_nil _ _)]

theorem fieldOk_of_stored {f : Bytes × Bytes} (h : Stored f) (hlast : f.2.getLast? ≠ some LF) :
    FieldOk f.1 f :=
  ⟨h.colon, h.key, h.value, foldable_of_assembled h.line (fun hc =>
    hlast ((getLast?_fieldText f).mp hc))⟩

theorem Accepted.startLF_iff {m : SIPMessage} {sl : StartLine} (h : Accepted m sl) :
    LF ∉ sl.text ↔ sl.text.getLast? ≠ some LF := by
  constructor
  · intro hnot hc
    exact hnot (mem_of_getLast? hc)
  · intro hlast hmem
    rcases append_of_mem hmem with ⟨a, b, hsplit⟩
    refine hlast ?_
    rw [hsplit, (h.piece a b hsplit).2]
    exact getLast?_concat

/-- An accepted message can be read back if its lines end where they should
    and no name makes a continuation. -/
theorem Accepted.writable {m : SIPMessage} {sl : StartLine} (h : Accepted m sl)
    (hc : hCSeq ∈ m.headers) (hbody : m.body.length ≤ maxAlloc)
    (hstart : sl.text.getLast? ≠ some LF) (hvalues : ∀ f ∈ m.fields, f.2.getLast? ≠ some LF)
    (hnames : ∀ f ∈ m.fields.tail, PlainName f.1) : Writable m sl false :=
  { h with
    startLF := h.startLF_iff.mpr hstart
    method := h.method_known hc
    fields := fun f hf => fieldOk_of_stored (h.stored f hf) (hvalues f hf)
    plain := hnames
    values := fun _ _ _ hl => h.values_ne_nil hl
    body := hbody }

theorem unmarshalSIPDatagram_wire (sl : StartLine) (h : Writable m sl false) :
    ∃ m', unmarshalSIPDatagram (m.wire sl false) = some (.ok m') ∧ SameMessage m m' := by
  have hat := at_ofBytes (m.wire sl false)
  rw [← append_nil (List.map _ _)] at hat
  rcases unmarshalSIPFrom_wire false m sl false h hat with ⟨m', r', hrun, hsame, _⟩
  refine ⟨m', ?_, hsame⟩
  rw [unmarshalSIPDatagram, hrun]
  rfl

/-! ### Necessity -/

/-- The text is complete, or the end of the body is missing. -/
theorem marshal_eq_ok {m : SIPMessage} {sl : StartLine} (hsl : m.startLine = some sl) {out : Bytes}
    (h : m.marshal = .ok out) :
    ∃ n, out = m.wireHead sl false ++ m.body.take n ∧
      (m.cseq.seq.toInt < 0 → n < m.body.length) := by
  have hbytes : m.marshalBytes false = some out := by
    unfold SIPMessage.marshal at h
    rcases hv : m.validateRequiredHeaders with e | u
    · simp only [hv, reduceCtorEq] at h
    · rcases hb : m.marshalBytes false with _ | out'
      · simp only [hv, hb, reduceCtorEq] at h
      · simp only [hv, hb, Except.ok.injEq] at h
        rw [h]
  by_cases hseq : m.cseq.seq.toInt < 0
  · rcases m.marshalBytes_of_neg sl false hsl hseq with hnone | ⟨n, hn, hsome⟩
    · rw [hnone] at hbytes
      cases hbytes
    · rw [hsome, some.injEq] at hbytes
      exact ⟨n, hbytes.symm, fun _ => hn⟩
  · rw [m.marshalBytes_eq sl false hsl (by omega), some.injEq] at hbytes
    refine ⟨m.body.length, ?_, fun hc => absurd hc hseq⟩
    rw [← hbytes, take_length]
    rfl

/-- A message whose text was read again, with what the second reader saw after
    the start line. -/
structure Reread (m m' : SIPMessage) (r₁ : Reader) : Prop where
  same : SameMessage m m'
  cseq : headerCSeq m'.headers = .ok m'.cseq
  body : ∃ r₂ r₃, Parser.run unmarshalHeaders r₁ = some (.ok m'.headers, r₂) ∧
    Parser.run (unmarshalBody false m'.headers) r₂ = some (.ok m'.body, r₃)

section Reread

variable {m m' : SIPMessage} {sl : StartLine} {r₁ : Reader}

/-- No key comes out of a header section that was not written into it. -/
theorem Reread.lookup_of_lines (h : Reread m m' r₁) {c : Bool} {ts : List Token}
    (gs : List (Bytes × Bytes)) (hgs : ∀ g ∈ gs, Stored g)
    (hat : At r₁ c ((linesText gs ++ crlf).map .byte ++ ts)) :
    ∃ fs : List (Bytes × Bytes),
      (∀ k, m'.headers.lookup k =
        if valuesOf fs k = [] then none else some (valuesOf fs k)) ∧
      (∀ f ∈ fs, ∃ g ∈ gs, f.1 = g.1) ∧ (∀ f ∈ fs.tail, PlainName f.1) ∧
      ∀ f, fs.head? = some f → ∃ g, gs.head? = some g ∧ f.1 = g.1 := by
  rcases h.body with ⟨r₂, _, hheaders, _⟩
  rcases headerFields_lines _ gs (Nat.le_refl _) hgs [] with ⟨fs, hfs, hkeys, htail, hhead⟩
  rw [append_nil] at hfs
  rcases unmarshalHeaders_text (.inr ⟨_, hfs⟩) hat with ⟨r₃, hrun, _⟩
  rw [hrun, hfs, some.injEq, Prod.mk.injEq] at hheaders
  -- A key that was written is stored under itself.
  have hstored : fs.map (fun f => (wireKey f.1, f.2.dropWhile (· == SP))) =
      fs.map (fun f => (f.1, f.2.dropWhile (· == SP))) := by
    refine map_congr_left fun f hf => ?_
    rcases hkeys f hf with ⟨g, hg, hfg⟩
    rw [hfg, (hgs g hg).key]
  have hempty (k : Bytes) : (∅ : SIPHeaders).lookup k = none := rfl
  refine ⟨fs.map (fun f => (f.1, f.2.dropWhile (· == SP))), fun k => ?_,
    List.forall_mem_map.mpr hkeys, ?_, ?_⟩
  · have hfold := Except.ok.inj hheaders.1
    rw [← hfold]
    change (fs.foldl storeField ∅).lookup k = _
    rw [foldl_storeField, hstored, lookup_foldl_push, hempty]
    rfl
  · rw [← map_tail]
    exact List.forall_mem_map.mpr htail
  · intro f hf
    rw [head?_map] at hf
    rcases Option.map_eq_some_iff.mp hf with ⟨f', hf', rfl⟩
    exact hhead f' hf'

theorem valuesOf_eq_nil {fs : List (Bytes × Bytes)} {k : Bytes} (h : ∀ f ∈ fs, f.1 ≠ k) :
    valuesOf fs k = [] := by
  unfold valuesOf
  rw [map_eq_nil_iff, filter_eq_nil_iff]
  intro f hf
  simp only [h f hf, decide_false, Bool.false_eq_true, not_false_eq_true]

/-- After a start line that keeps a line feed there are no headers. -/
theorem Reread.start (h : Reread m m' r₁) (hvia : hVia ∈ m.headers) {c : Bool} {ts : List Token} :
    ¬ At r₁ c (crlf.map .byte ++ ts) := by
  intro hat
  rcases h.lookup_of_lines [] (by intros; contradiction) hat with
    ⟨fs, hlookup, hkeys, _, _⟩
  have hnone : m'.headers.lookup hVia = none := by
    rw [hlookup, if_pos]
    refine valuesOf_eq_nil fun f hf => ?_
    rcases hkeys f hf with ⟨g, hg, _⟩
    cases hg
  rw [h.same.headers hVia (by decide) (by decide)] at hnone
  exact absurd hvia (AList.lookup_eq_none.mp hnone)

/-- The first value that ends in a line feed ends the header section before
    CSeq is reached. -/
theorem Reread.values (h : Reread m m' r₁) (hA : Accepted m sl) (hc : hCSeq ∈ m.headers)
    {c : Bool} {ts : List Token}
    (hat : At r₁ c ((m.allFields.flatMap (fieldLine false) ++ crlf).map .byte ++ ts)) :
    ∀ f ∈ m.fields, f.2.getLast? ≠ some LF := by
  by_contra hbad
  have hfind : (m.fields.find? (fun f => f.2.getLast? = some LF)).isSome = true := by
    rw [find?_isSome]
    by_contra hnone
    refine hbad fun f hf hlast => hnone ⟨f, hf, decide_eq_true hlast⟩
  rcases isSome_iff_exists.mp hfind with ⟨g, hg⟩
  rcases find?_eq_some_iff_append.mp hg with ⟨hlast, pre, post, hsplit, hpre⟩
  have hsub : ∀ f ∈ pre ++ [g], f ∈ m.fields := by
    intro f hf
    rw [hsplit]
    rcases mem_append.mp hf with hf | hf
    · exact mem_append_left _ hf
    · rw [mem_singleton.mp hf]
      exact mem_append_right _ mem_cons_self
  -- The lines up to this one, and the CR LF behind it as the empty line.
  have hlines : ∃ more, m.allFields.flatMap (fieldLine false) ++ crlf =
      linesText (pre ++ [g]) ++ crlf ++ more := by
    refine ⟨(post ++ [(hCSeq, m.cseqValue), (hContentLength, formatNat m.body.length)]).flatMap
      (fieldLine false) ++ crlf, ?_⟩
    have hfirst : pre.flatMap (fieldLine false) = linesText pre := by
      unfold linesText
      refine flatMap_congr fun f hf => ?_
      have hnot : ¬ (fieldText f).getLast? = some LF := by
        have := hpre f hf
        rw [getLast?_fieldText]
        simpa using this
      rw [ended, if_neg hnot]
      rfl
    have hlastLine : ended (fieldText g) = fieldText g := by
      rw [ended, if_pos ((getLast?_fieldText g).mpr (of_decide_eq_true hlast))]
    have hline : fieldLine false g = fieldText g ++ crlf := rfl
    rw [SIPMessage.allFields, hsplit]
    simp only [linesText, flatMap_append, flatMap_cons, flatMap_nil, hlastLine,
      append_nil, append_assoc] at hfirst ⊢
    rw [hfirst, hline, append_assoc]
  rcases hlines with ⟨more, hlines⟩
  rw [hlines, map_append, append_assoc] at hat
  rcases h.lookup_of_lines (pre ++ [g]) (fun f hf => hA.stored f (hsub f hf)) hat with
    ⟨fs, hlookup, hkeys, _, _⟩
  have hnone : m'.headers.lookup hCSeq = none := by
    rw [hlookup, if_pos]
    refine valuesOf_eq_nil fun f hf heq => ?_
    rcases hkeys f hf with ⟨g', hg', hfg⟩
    have hmap := ((m.mem_fields g').mp (hsub g' hg')).1
    rw [← hfg, heq] at hmap
    exact absurd hmap (by decide)
  have hcseq := h.cseq
  rw [headerCSeq, hnone, Except.ok.injEq, h.same.cseq] at hcseq
  have hknown := hA.method_known hc
  rw [← hcseq] at hknown
  exact absurd hknown (by decide)

theorem stored_of_fieldOk {f : Bytes × Bytes} (h : FieldOk f.1 f) : Stored f := by
  refine ⟨h.colon, h.key, h.value, ?_⟩
  intro a b hl
  rcases h.fold a b hl with ⟨hcr, c, b', hb, hblank⟩
  refine ⟨hcr, ?_⟩
  intro c' hc'
  rw [hb] at hc'
  rw [← some.inj hc']
  exact hblank

theorem Accepted.allFields_stored (hA : Accepted m sl) : ∀ f ∈ m.allFields, Stored f := by
  intro f hf
  rw [SIPMessage.allFields, mem_append, mem_cons, mem_singleton] at hf
  rcases hf with hf | rfl | rfl
  · exact hA.stored f hf
  · exact stored_of_fieldOk (fieldOk_cseq m false)
  · exact stored_of_fieldOk (fieldOk_contentLength _ false)

/-- Lines that do not end in a line feed are written with CR LF. -/
theorem flatMap_fieldLine_eq (hvalues : ∀ f ∈ m.fields, f.2.getLast? ≠ some LF) :
    m.allFields.flatMap (fieldLine false) = linesText m.allFields := by
  unfold linesText
  refine flatMap_congr fun f hf => ?_
  have hnot : ¬ (fieldText f).getLast? = some LF := by
    rw [getLast?_fieldText]
    rw [SIPMessage.allFields, mem_append, mem_cons, mem_singleton] at hf
    rcases hf with hf | rfl | rfl
    · exact hvalues f hf
    · have hfold := (fieldOk_cseq m false).fold
      intro hlast
      rcases getLast?_eq_some_iff.mp hlast with ⟨a, ha⟩
      rcases (hfold _ [] (by rw [ha, ← append_assoc])).2 with ⟨_, _, hnil, _⟩
      cases hnil
    · have hfold := (fieldOk_contentLength m.body.length false).fold
      intro hlast
      rcases getLast?_eq_some_iff.mp hlast with ⟨a, ha⟩
      rcases (hfold _ [] (by rw [ha, ← append_assoc])).2 with ⟨_, _, hnil, _⟩
      cases hnil
  rw [ended, if_neg hnot]
  rfl

/-- A name with a blank in front is read as a name on the first line only, so
    with a second such line a value is missing. -/
theorem Reread.names (h : Reread m m' r₁) (hA : Accepted m sl) {c : Bool} {ts : List Token}
    (hat : At r₁ c ((linesText m.allFields ++ crlf).map .byte ++ ts)) :
    ∀ f ∈ m.fields.tail, PlainName f.1 := by
  intro f hf
  by_contra hblank
  rcases h.lookup_of_lines m.allFields hA.allFields_stored hat with
    ⟨fs, hlookup, _, htail, hhead⟩
  rcases (m.mem_fields f).mp (mem_of_mem_tail hf) with ⟨hk, vs, hl, _⟩
  rcases (fromMap_eq_true_iff f.1).mp hk with ⟨hne₁, hne₂⟩
  -- The values of this name, as they were read.
  have hvs : valuesOf fs f.1 = vs := by
    have hboth := hlookup f.1
    rw [h.same.headers f.1 hne₁ hne₂, hl] at hboth
    by_cases hnil : valuesOf fs f.1 = []
    · rw [if_pos hnil] at hboth
      cases hboth
    · rw [if_neg hnil, some.injEq] at hboth
      exact hboth.symm
  have hwritten : valuesOf m.fields f.1 = vs := by
    rw [m.valuesOf_fields, if_pos hk, hl]
    rfl
  have hne := hA.values_ne_nil hl
  rcases fs with _ | ⟨f₀, fs⟩
  · exact hne hvs.symm
  · have hrest : valuesOf fs f.1 = [] :=
      valuesOf_eq_nil fun f' hf' heq => hblank (heq ▸ htail f' hf')
    rw [valuesOf_cons, hrest] at hvs
    by_cases hf₀ : f₀.1 = f.1
    · -- It was written first, and then once more.
      rcases hg : m.fields with _ | ⟨g, gs⟩
      · rw [hg] at hf
        cases hf
      · rcases hhead f₀ rfl with ⟨g', hg', hfg⟩
        rw [SIPMessage.allFields, hg, cons_append, head?_cons, some.injEq] at hg'
        rw [hg, tail_cons] at hf
        have hmem : f.2 ∈ valuesOf gs f.1 :=
          List.mem_map.mpr ⟨f, mem_filter.mpr ⟨hf, decide_eq_true rfl⟩, rfl⟩
        rw [hg, valuesOf_cons, if_pos (by rw [hg', ← hfg, hf₀]), ← hvs, if_pos hf₀,
          cons.injEq] at hwritten
        rw [hwritten.2] at hmem
        cases hmem
    · rw [if_neg hf₀] at hvs
      exact hne hvs.symm

/-- A body that lost its end is shorter than its length says. -/
theorem Reread.body_complete (h : Reread m m' r₁) (hw : Writable m sl false) (n : Nat)
    (hat : At r₁ true ((linesText m.allFields ++ crlf).map .byte ++ (m.body.take n).map .byte))
    (hlines : m.allFields.flatMap (fieldLine false) = linesText m.allFields) :
    ¬ n < m.body.length := by
  intro hn
  rcases h.body with ⟨r₂, r₃, hheaders, hbody⟩
  rw [← hlines] at hat
  rcases unmarshalHeaders_fields (writtenName false) m.allFields hw.allFields_ok hw.allFields_plain
    hat with ⟨r₂', hread, hat₂⟩
  rw [hread, some.injEq, Prod.mk.injEq, Except.ok.injEq] at hheaders
  have hcl : m'.headers.lookup hContentLength = some [formatNat m.body.length] := by
    rw [← hheaders.1, lookup_allFields m hw.values, if_neg (by decide), if_pos rfl]
  have hlen : unmarshalContentLength (formatNat m.body.length) = .ok m.body.length :=
    unmarshalContentLength_formatNat _ hw.body
  rcases readFull_eof m.body.length (m.body.take n) (by rw [length_take]; omega) hat₂ with
    ⟨r₄, hfull⟩
  rw [← hheaders.2] at hbody
  unfold unmarshalBody at hbody
  simp only [hcl, Parser.run_mk, hlen, if_pos (show 0 < m.body.length by omega), hfull,
    map_some, bodyError, unmarshalErrorWrap, some.injEq, Prod.mk.injEq, reduceCtorEq,
    false_and] at hbody

end Reread

/-- The start line of a message that survives does not end in a line feed, and
    its header section is then read from the line behind it. -/
theorem Accepted.reread {m m' : SIPMessage} {sl : StartLine} (hA : Accepted m sl)
    (hvia : hVia ∈ m.headers) (tail : Bytes)
    (hrun : unmarshalSIPDatagram (m.wireHead sl false ++ tail) = some (.ok m'))
    (hsame : SameMessage m m') :
    sl.text.getLast? ≠ some LF ∧ ∃ r₁, Reread m m' r₁ ∧
      At r₁ true ((m.allFields.flatMap (fieldLine false) ++ crlf).map .byte ++ tail.map .byte) := by
  rcases map_eq_some_iff.mp hrun with ⟨⟨res, r'⟩, hrun', hres⟩
  rw [show res = .ok m' from hres] at hrun'
  rcases unmarshalSIPFrom_eq_ok hrun' with ⟨line, sl', r₁, r₂, hline, _, _, hheaders, hcseq, hbody⟩
  have hR : Reread m m' r₁ := ⟨hsame, hcseq, r₂, r', hheaders, hbody⟩
  have hat := at_ofBytes (m.wireHead sl false ++ tail)
  have hshape : (m.wireHead sl false ++ tail).map Token.byte = (sl.text ++ crlf).map Token.byte ++
      ((m.allFields.flatMap (fieldLine false) ++ crlf).map Token.byte ++ tail.map Token.byte) := by
    simp [SIPMessage.wireHead]
  rw [hshape] at hat
  have hstart : sl.text.getLast? ≠ some LF := by
    intro hlast
    rcases getLast?_eq_some_iff.mp hlast with ⟨a, ha⟩
    have hnot : LF ∉ a := by
      intro hmem
      rcases append_of_mem hmem with ⟨x, y, hxy⟩
      have hnil := (hA.piece x (y ++ [LF]) (by rw [ha, hxy, append_assoc]; rfl)).2
      exact absurd hnil (append_ne_nil_of_right_ne_nil y (cons_ne_nil _ _))
    have hmap : (a ++ [LF] ++ crlf).map Token.byte =
        (a ++ [LF]).map Token.byte ++ crlf.map Token.byte := map_append
    rw [ha, hmap, append_assoc] at hat
    rcases readLine_lf a hnot (hA.piece a [] ha).1 hat with ⟨r₀, hread, hat₀⟩
    rw [hread, some.injEq, Prod.mk.injEq] at hline
    rw [hline.2] at hat₀
    exact hR.start hvia hat₀
  refine ⟨hstart, r₁, hR, ?_⟩
  rcases readLine_crlf sl.text (hA.startLF_iff.mpr hstart) hat with ⟨r₀, hread, hat₀⟩
  rw [hread] at hline
  cases hline
  exact hat₀

/-- A message taken from a datagram, with the required headers and a CSeq, is
    written and read back as the same message exactly when it is rewritable.
    The bound on the datagram holds of every slice Go can make. -/
theorem marshal_stable_iff (d : Bytes) (hd : d.length ≤ maxAlloc) (m : SIPMessage)
    (hm : unmarshalSIPDatagram d = some (.ok m))
    (hreq : ∀ h ∈ [hVia, hFrom, hTo, hCallID, hCSeq], h ∈ m.headers) :
    (∃ out m', m.marshal = .ok out ∧ unmarshalSIPDatagram out = some (.ok m') ∧
      SameMessage m m') ↔ Rewritable m := by
  rcases accepted_of_unmarshalSIPDatagram hm with ⟨sl, hA, hlen⟩
  have hvia : hVia ∈ m.headers := hreq hVia (by decide)
  have hc : hCSeq ∈ m.headers := hreq hCSeq (by decide)
  have hbody : m.body.length ≤ maxAlloc := by omega
  constructor
  · rintro ⟨out, m', hmarshal, hread, hsame⟩
    rcases marshal_eq_ok hA.startLine hmarshal with ⟨n, rfl, hn⟩
    rcases hA.reread hvia _ hread hsame with ⟨hstart, r₁, hR, hat⟩
    have hvalues := hR.values hA hc hat
    have hlines := flatMap_fieldLine_eq hvalues
    rw [hlines] at hat
    have hnames := hR.names hA hat
    have hw := hA.writable hc hbody hstart hvalues hnames
    refine ⟨?_, ?_, ?_, ?_⟩
    · intro sl' hsl'
      rw [hA.startLine, some.injEq] at hsl'
      rw [← hsl']
      exact hstart
    · intro k vs v hk hl hv
      exact hvalues (k, v) ((m.mem_fields (k, v)).mpr ⟨hk, vs, hl, hv⟩)
    · by_contra hneg
      exact hR.body_complete hw n hat hlines (hn (by omega))
    · exact (fields_tail_plain_iff m (fun _ _ _ hl => hA.values_ne_nil hl)).mp hnames
  · intro hm'
    have hvalues : ∀ f ∈ m.fields, f.2.getLast? ≠ some LF := by
      intro f hf
      rcases (m.mem_fields f).mp hf with ⟨hk, vs, hl, hv⟩
      exact hm'.values f.1 vs f.2 hk hl hv
    have hw := hA.writable hc hbody (hm'.start sl hA.startLine) hvalues
      ((fields_tail_plain_iff m (fun _ _ _ hl => hA.values_ne_nil hl)).mpr hm'.names)
    have hvalid := validateRequiredHeaders_ok m sl hA.startLine
      (fun k hk => hreq k (by
        simp only [mem_cons, not_mem_nil, or_false] at hk ⊢
        tauto))
    rcases unmarshalSIPDatagram_wire m sl hw with ⟨m', hread, hsame⟩
    refine ⟨m.wire sl false, m', ?_, hread, hsame⟩
    simp [SIPMessage.marshal, hvalid, m.marshalBytes_eq sl false hA.startLine hm'.seq]

/-- The header lines of a request that only has what is required, then a line of
    its own, and the empty line. -/
def optionsDatagram (line : Bytes) : Bytes :=
  ascii "OPTIONS sip:b SIP/2.0\r\nVia: v\r\nFrom: f\r\nTo: t\r\nCall-ID: c\r\nCSeq: 1 OPTIONS\r\n"
    ++ line ++ crlf

/-- The request as it is read when the line of its own is stored as `value`. -/
def optionsMessage (value : Bytes) : SIPMessage where
  startLine := some (.request .OPTIONS (ascii "sip:b") sipVersion)
  headers := [(hVia, ascii "v"), (hFrom, ascii "f"), (hTo, ascii "t"), (hCallID, ascii "c"),
      (hCSeq, ascii "1 OPTIONS"), (ascii "X", value)].foldl
    (fun h f => SIPHeaders.push h f.1 f.2) ∅
  cseq := { method := .OPTIONS, seq := 1 }
  body := []

/-- A header line that was continued survives. -/
theorem marshal_stable_iff_continued :
    unmarshalSIPDatagram (optionsDatagram (ascii "x: a\r\n b\r\n")) =
        some (.ok (optionsMessage (ascii "a b"))) ∧
      ∃ out m', (optionsMessage (ascii "a b")).marshal = .ok out ∧
        unmarshalSIPDatagram out = some (.ok m') ∧
        SameMessage (optionsMessage (ascii "a b")) m' := by
  have hm : unmarshalSIPDatagram (optionsDatagram (ascii "x: a\r\n b\r\n")) =
      some (.ok (optionsMessage (ascii "a b"))) := by
    decide +kernel
  have hentries : ∀ e ∈ (optionsMessage (ascii "a b")).headers.entries,
      (e.1.head? ≠ some SP ∧ e.1.head? ≠ some HT) ∧ ∀ v ∈ e.2, v.getLast? ≠ some LF := by
    decide
  refine ⟨hm, (marshal_stable_iff _ (by decide) _ hm (by decide)).mpr ⟨?_, ?_, by decide, ?_⟩⟩
  · intro sl hsl
    cases hsl
    decide
  · intro k vs v _ hl hv
    exact (hentries ⟨k, vs⟩ (AList.mem_lookup_iff.mp hl)).2 v hv
  · intro k vs _ hl hblank
    have hplain := (hentries ⟨k, vs⟩ (AList.mem_lookup_iff.mp hl)).1
    refine absurd ?_ hblank
    rintro b hb
    exact ⟨fun hc => hplain.1 (hc ▸ hb), fun hc => hplain.2 (hc ▸ hb)⟩

/-- A header line that a bare line feed ended does not: written back, it ends
    the header section, and CSeq and Content-Length become the body. -/
theorem marshal_not_stable :
    ∃ d m, d.length ≤ maxAlloc ∧ unmarshalSIPDatagram d = some (.ok m) ∧
      (∀ h ∈ [hVia, hFrom, hTo, hCallID, hCSeq], h ∈ m.headers) ∧
      ¬ ∃ out m', m.marshal = .ok out ∧ unmarshalSIPDatagram out = some (.ok m') ∧
        SameMessage m m' := by
  refine ⟨optionsDatagram (ascii "X: a\n"), optionsMessage (ascii "a\n"), by decide,
    by decide +kernel, by decide, ?_⟩
  rintro ⟨out, m', hmarshal, hread, hsame⟩
  have hout : (optionsMessage (ascii "a\n")).marshal = .ok (ascii ("OPTIONS sip:b SIP/2.0\r\n" ++
      "Call-ID: c\r\nFrom: f\r\nTo: t\r\nVia: v\r\nX: a\n\r\n" ++
      "CSeq: 1 OPTIONS\r\nContent-Length: 0\r\n\r\n")) := by
    decide +kernel
  rw [hout, Except.ok.injEq] at hmarshal
  have hbody : ((unmarshalSIPDatagram (ascii ("OPTIONS sip:b SIP/2.0\r\n" ++
      "Call-ID: c\r\nFrom: f\r\nTo: t\r\nVia: v\r\nX: a\n\r\n" ++
      "CSeq: 1 OPTIONS\r\nContent-Length: 0\r\n\r\n"))).map
        (fun res => res.map SIPMessage.body)) =
      some (.ok (ascii "CSeq: 1 OPTIONS\r\nContent-Length: 0\r\n\r\n")) := by
    decide +kernel
  rw [hmarshal, hread, map_some, Except.map, some.injEq, Except.ok.injEq,
    hsame.body] at hbody
  exact absurd hbody (by decide)

/-! ### Room for what was read -/

/-- A message that was read, and every response to it, is written with full and
    with compact names into a buffer of the announced size, if and only if its
    CSeq number is not negative. -/
theorem fitsBuffer_received_iff (m : SIPMessage)
    (hm : (∃ d, unmarshalSIPDatagram d = some (.ok m)) ∨
      ∃ r r', Parser.run unmarshalSIP r = some (.ok m, r')) (code : Int64) (reason : Bytes) :
    (∀ compact, m.FitsBuffer compact ∧ (newResponse m code reason).FitsBuffer compact) ↔
      0 ≤ m.cseq.seq.toInt := by
  obtain ⟨sl, hsl⟩ : ∃ sl, m.startLine = some sl := by
    rcases hm with ⟨d, hd⟩ | ⟨r, r', hrun⟩
    · rcases accepted_of_unmarshalSIPDatagram hd with ⟨sl, hA, _⟩
      exact ⟨sl, hA.startLine⟩
    · rcases unmarshalSIPFrom_eq_ok hrun with ⟨_, sl, _, _, _, _, hsl, _⟩
      exact ⟨sl, hsl⟩
  have hresponse := fun compact =>
    SIPMessage.fitsBuffer_iff (newResponse m code reason) _ compact rfl
  constructor
  · intro h
    exact (m.fitsBuffer_iff sl false hsl).mp (h false).1
  · intro hseq compact
    exact ⟨(m.fitsBuffer_iff sl compact hsl).mpr hseq, (hresponse compact).mpr hseq⟩

theorem fitsBuffer_received_iff_continued :
    unmarshalSIPDatagram (optionsDatagram (ascii "x: a\r\n b\r\n")) =
        some (.ok (optionsMessage (ascii "a b"))) ∧
      ∀ compact, (optionsMessage (ascii "a b")).FitsBuffer compact ∧
        (newResponse (optionsMessage (ascii "a b")) 200 (ascii "OK")).FitsBuffer compact := by
  have hm : unmarshalSIPDatagram (optionsDatagram (ascii "x: a\r\n b\r\n")) =
      some (.ok (optionsMessage (ascii "a b"))) := by
    decide +kernel
  exact ⟨hm, (fitsBuffer_received_iff _ (.inl ⟨_, hm⟩) 200 _).mpr (by decide)⟩

/-- The digits of a negative CSeq number are not counted, and the empty line is
    stored behind the buffer. -/
theorem buffer_too_small :
    ∃ d m, unmarshalSIPDatagram d = some (.ok m) ∧
      ∀ compact, m.marshalBytes compact = none ∧
        (newResponse m 200 (ascii "OK")).marshalBytes compact = none := by
  refine ⟨ascii "OPTIONS sip:b SIP/2.0\r\nCSeq: -1 OPTIONS\r\n\r\n",
    ⟨some (.request .OPTIONS (ascii "sip:b") sipVersion),
      SIPHeaders.push ∅ hCSeq (ascii "-1 OPTIONS"), { method := .OPTIONS, seq := -1 }, []⟩,
    by decide +kernel, ?_⟩
  decide +kernel

end Proto

end Trecs
