import Trecs.Lib.Consumed
import Trecs.Proto.Accepted

/-!
# The Span of a Message

What a call of `UnmarshalSIP` takes from a stream that the peer keeps open.

However the call ends, it takes a front part of the text. When it returns a
message, that part is a head and the body of the message, and no deadline
expired while it was read. The reason is that an expiry leaves the reader dead:
a line that it interrupts still passes for a line, but the next one fails, and
the header section cannot end without an empty line.

## Main definitions

* `Shrinks`: A reader that has less to deliver than another one.

## Theorems

* `shrinks_unmarshalSIP`: A call takes from the front of the text.
* `unmarshalSIP_consumes`: It takes at least one byte.
* `unmarshalSIP_span`: What it takes when it succeeds.
-/

namespace Trecs

open List Option

namespace Proto

open Reader

/-! ### Taking from the front -/

/-- The second reader has a rear part of the text left that the first one has. -/
def Shrinks (r r' : Reader) : Prop := r'.left <:+ r.left ∧ r'.closed = r.closed

theorem shrinks_refl (r : Reader) : Shrinks r r := ⟨suffix_refl _, rfl⟩

theorem shrinks_trans (r s t : Reader) (h₁ : Shrinks r s) (h₂ : Shrinks s t) : Shrinks r t :=
  ⟨h₂.1.trans h₁.1, h₂.2.trans h₁.2⟩

variable (fuel : Nat) (line : Bytes) (h : SIPHeaders) {r r' : Reader} {ts : List Token} {l : Bytes}

theorem readString_of_readLine {res : Except Fault Bytes}
    (h : Parser.run readLine r = some (res, r')) : ∃ l e, r.readString LF = some ((l, e), r') := by
  rcases Parser.exists_of_map (fun p => by split <;> [split <;> rfl; rfl]) h with ⟨⟨l, e⟩, hread, -⟩
  exact ⟨l, e, hread⟩

theorem shrinks_readLine : Parser.Keeps Shrinks readLine := by
  intro r res r' h
  rcases readString_of_readLine h with ⟨l, e, hread⟩
  rcases readString_left hread with ⟨hleft, hclosed⟩
  exact ⟨⟨l, hleft⟩, hclosed⟩

theorem shrinks_continueLine : Parser.Keeps Shrinks (continueLine fuel line) := by
  induction fuel generalizing line with
  | zero =>
    intro r res r' h
    contradiction
  | succ fuel ih =>
    intro r res r' h
    rw [continueLine, Parser.run_mk] at h
    rcases hpeek : r.peek with _ | ⟨e | b, r₁⟩
    · simp only [hpeek, reduceCtorEq] at h
    · simp only [hpeek, some.injEq, Prod.mk.injEq] at h
      rcases peek_left hpeek with ⟨hleft, hclosed⟩
      rw [← h.2]
      exact ⟨hleft ▸ suffix_refl _, hclosed⟩
    · rcases peek_left hpeek with ⟨hleft, hclosed⟩
      have hpk : Shrinks r r₁ := ⟨hleft ▸ suffix_refl _, hclosed⟩
      simp only [hpeek] at h
      by_cases hb : b ≠ SP ∧ b ≠ HT
      · rw [if_pos hb] at h
        cases h
        exact hpk
      · rw [if_neg hb] at h
        exact shrinks_trans _ _ _ hpk
          (shrinks_readLine.bind shrinks_trans (fun cont => ih _) r₁ res r' h)

theorem shrinks_readContinuedLine : Parser.Keeps Shrinks readContinuedLine := by
  refine shrinks_readLine.bind shrinks_trans fun line => ?_
  by_cases hl : line = []
  · rw [if_pos hl]
    exact Parser.keeps_pure shrinks_refl line
  · rw [if_neg hl]
    intro r res r' h
    rw [Parser.run_mk] at h
    exact shrinks_continueLine _ line r res r' h

theorem shrinks_readHeaderLine : Parser.Keeps Shrinks readHeaderLine := by
  intro r res r' h
  rcases Parser.exists_of_map (fun p => by split <;> [split <;> rfl; rfl]) h with ⟨res₁, hread, -⟩
  exact shrinks_readContinuedLine r res₁ r' hread

theorem shrinks_unmarshalHeaderLines : Parser.Keeps Shrinks (unmarshalHeaderLines fuel h) := by
  induction fuel generalizing h with
  | zero =>
    intro r res r' hrun
    contradiction
  | succ fuel ih =>
    rw [unmarshalHeaderLines]
    refine shrinks_readHeaderLine.bind shrinks_trans fun line => ?_
    by_cases hl : line = []
    · rw [if_pos hl]
      exact Parser.keeps_pure shrinks_refl h
    · rw [if_neg hl]
      rcases cut 58 line with _ | ⟨k, v⟩
      · intro r res r' hrun
        simp only [Parser.run_mk] at hrun
        cases hrun
        exact shrinks_refl r
      · exact ih _

theorem shrinks_unmarshalBody : Parser.Keeps Shrinks (unmarshalBody true h) := by
  intro r res r' hrun
  unfold unmarshalBody at hrun
  rcases hl : h.lookup hContentLength with _ | (_ | ⟨clStr, more⟩)
  · simp only [hl, Parser.run_mk, if_true] at hrun
    cases hrun
    exact shrinks_refl r
  · simp only [hl, Parser.run_mk] at hrun
    cases hrun
    exact shrinks_refl r
  · rcases hcl : unmarshalContentLength clStr with e | n
    · simp only [hl, Parser.run_mk, hcl] at hrun
      cases hrun
      exact shrinks_refl r
    · by_cases hpos : 0 < n
      · simp only [hl, Parser.run_mk, hcl, if_pos hpos] at hrun
        rcases Parser.exists_of_map (fun p => by unfold bodyError; split <;> rfl) hrun with
          ⟨res₁, hread, -⟩
        exact readFull_left hread
      · simp only [hl, Parser.run_mk, hcl, if_neg hpos] at hrun
        cases hrun
        exact shrinks_refl r

/-- What follows the start line. -/
theorem shrinks_rest (sl : StartLine) : Parser.Keeps Shrinks (do
    let headers ← unmarshalHeaders
    let cseq ← .mk fun r => some (headerCSeq headers, r)
    let body ← unmarshalBody true headers
    pure { startLine := some sl, headers := headers, cseq := cseq, body := body } :
      Parse SIPMessage) := by
  have hheaders : Parser.Keeps Shrinks unmarshalHeaders := by
    intro r res r' h
    rw [unmarshalHeaders, Parser.run_mk] at h
    exact shrinks_unmarshalHeaderLines _ ∅ r res r' h
  refine hheaders.bind shrinks_trans fun headers => ?_
  have hcseq : Parser.Keeps Shrinks
      (Parser.mk fun r => some (headerCSeq headers, r) : Parse CSeq) := by
    intro r res r' h
    rw [Parser.run_mk] at h
    cases h
    exact shrinks_refl r
  refine hcseq.bind shrinks_trans fun cseq => ?_
  exact (shrinks_unmarshalBody headers).bind shrinks_trans fun body =>
    Parser.keeps_pure shrinks_refl _

theorem readStartLine_readLine {res : Except Fault StartLine}
    (h : Parser.run readStartLine r = some (res, r')) :
    ∃ res₁, Parser.run readLine r = some (res₁, r') := by
  rcases Parser.exists_of_map (fun p => by split <;> rfl) h with ⟨res₁, hread, -⟩
  exact ⟨res₁, hread⟩

theorem shrinks_unmarshalSIP : Parser.Keeps Shrinks unmarshalSIP := by
  have hstart : Parser.Keeps Shrinks readStartLine := by
    intro r res r' h
    rcases readStartLine_readLine h with ⟨res₁, hread⟩
    exact shrinks_readLine r res₁ r' hread
  exact hstart.bind shrinks_trans shrinks_rest

/-- With a byte to come, a line takes at least that byte. -/
theorem readLine_consumes {c : Bool} {b : UInt8} {ts : List Token} {res : Except Fault Bytes}
    (hat : At r c (.byte b :: ts)) (h : Parser.run readLine r = some (res, r')) :
    r'.left.length < r.left.length := by
  rcases readString_of_readLine h with ⟨l, e, hread⟩
  have hne : l ≠ [] := by
    have hend := lineEnd_readString LF hat
    rw [hread] at hend
    cases hend with
    | found _ _ _ _ => exact append_ne_nil_of_right_ne_nil _ (cons_ne_nil _ _)
    | expired _ _ _ htok =>
      rintro rfl
      cases (cons.inj htok).1
    | eof _ _ _ _ _ htok =>
      rintro rfl
      cases htok
  rw [← (readString_left hread).1, length_append]
  have := length_pos_iff.mpr hne
  omega

theorem unmarshalSIP_consumes {c : Bool} {b : UInt8} {ts : List Token}
    {res : Except Fault SIPMessage} (hat : At r c (.byte b :: ts))
    (h : Parser.run unmarshalSIP r = some (res, r')) : r'.left.length < r.left.length := by
  rw [unmarshalSIP, unmarshalSIPFrom, Parser.run_bind] at h
  rcases hstart : Parser.run readStartLine r with _ | ⟨e | sl, r₁⟩
  · simp only [hstart, reduceCtorEq] at h
  · simp only [hstart, some.injEq, Prod.mk.injEq] at h
    rcases readStartLine_readLine hstart with ⟨res₁, hread⟩
    rw [← h.2]
    exact readLine_consumes hat hread
  · simp only [hstart] at h
    rcases readStartLine_readLine hstart with ⟨res₁, hread⟩
    have hfirst := readLine_consumes hat hread
    have hrest := (shrinks_rest sl r₁ res r' h).1.length_le
    omega

/-! ### The span -/

/-- On an open stream a line is complete, or the reader is dead and the line was
    not empty. -/
theorem readLine_open (hat : At r false ts) (h : Parser.run readLine r = some (.ok l, r')) :
    (∃ a ts', LF ∉ a ∧ l = trimSuffix crlf (a ++ [LF]) ∧ ts = (a ++ [LF]).map Token.byte ++ ts' ∧
        At r' false ts') ∨ (Dead r' ∧ l ≠ []) := by
  rw [readLine, Parser.run_mk] at h
  rcases map_eq_some_iff.mp h with ⟨⟨⟨line, e⟩, r₁⟩, hread, heq⟩
  rcases readString_inv hat hread with ⟨a, ts', rfl, hnot, rfl, hts, hat'⟩ | ⟨hdead, hnot, rfl⟩
  · cases heq
    exact .inl ⟨a, ts', hnot, rfl, hts, hat'⟩
  · right
    by_cases hl : line = []
    · simp only [if_pos hl, Prod.mk.injEq, reduceCtorEq, false_and] at heq
    · simp only [if_neg hl, Prod.mk.injEq, Except.ok.injEq] at heq
      rw [trimSuffix_crlf_of_not_mem line hnot] at heq
      rw [← heq.1, ← heq.2]
      exact ⟨hdead, hl⟩

theorem readLine_dead {r : Reader} (h : Dead r) :
    ∃ r', Parser.run readLine r = some (.error (.error (.read .timeout)), r') ∧ Dead r' := by
  rcases readString_dead LF h with ⟨r', hread, hdead⟩
  refine ⟨r', ?_, hdead⟩
  rw [readLine, Parser.run_mk, hread]
  rfl

/-- A dead reader ends a header line where it is. -/
theorem continueLine_dead (h : Dead r)
    (hrun : Parser.run (continueLine fuel line) r = some (.ok l, r')) : Dead r' ∧ l = line := by
  cases fuel with
  | zero => contradiction
  | succ fuel =>
    rcases peek_dead h with ⟨r₁, hpeek, hdead⟩
    simp only [continueLine, Parser.run_mk, hpeek, some.injEq, Prod.mk.injEq,
      Except.ok.injEq] at hrun
    rw [← hrun.1, ← hrun.2]
    exact ⟨hdead, rfl⟩

theorem getLast?_append_lf (a a' : Bytes) (h : a' = [] ∨ a'.getLast? = some LF) :
    (a ++ [LF] ++ a').getLast? = some LF := by
  rcases h with rfl | h
  · rw [append_nil]
    exact getLast?_concat
  · rw [getLast?_append, h]
    rfl

theorem continueLine_open (hline : line ≠ []) {r r' : Reader} {ts : List Token} {l : Bytes}
    (hat : At r false ts) (hrun : Parser.run (continueLine fuel line) r = some (.ok l, r')) :
    l ≠ [] ∧ ((∃ a ts', ts = a.map Token.byte ++ ts' ∧ At r' false ts' ∧
      (a = [] ∨ a.getLast? = some LF)) ∨ Dead r') := by
  induction fuel generalizing line r ts with
  | zero => cases hrun
  | succ fuel ih =>
    rw [continueLine, Parser.run_mk] at hrun
    rcases hpeek : r.peek with _ | ⟨res, r₁⟩
    · simp only [hpeek, reduceCtorEq] at hrun
    · rcases peek_inv hat hpeek with ⟨b, ts₁, rfl, hts, hat₁⟩ | ⟨hdead, rfl⟩
      · simp only [hpeek] at hrun
        by_cases hb : b ≠ SP ∧ b ≠ HT
        · rw [if_pos hb] at hrun
          cases hrun
          exact ⟨hline, .inl ⟨[], ts, rfl, hat₁, .inl rfl⟩⟩
        · rw [if_neg hb] at hrun
          rcases Parser.run_bind_eq_ok hrun with ⟨cont, r₂, hread, hgo⟩
          have hne : ∀ x, cont ≠ [] → x ++ cont ≠ [] :=
            fun x hc => append_ne_nil_of_right_ne_nil x hc
          rcases readLine_open hat₁ hread with ⟨a, ts₂, hnot, hcont, hts₂, hat₂⟩ | ⟨hdead, hc⟩
          · -- A continuation is not empty, since it starts with a blank.
            have hcne : cont ≠ [] := by
              intro hc
              rw [hc] at hcont
              rcases trimSuffix_crlf_lf a with ⟨l', ha, htrim⟩ | ⟨_, htrim⟩
              · rw [htrim] at hcont
                rw [ha, ← hcont] at hts₂
                rw [hts] at hts₂
                have hcr : b = CR := by
                  have := (cons.inj hts₂).1
                  exact Token.byte.inj this
                exact hb (by rw [hcr]; decide)
              · rw [htrim] at hcont
                exact absurd hcont.symm
                  (append_ne_nil_of_right_ne_nil a (cons_ne_nil _ _))
            rcases ih _ (hne _ hcne) hat₂ hgo with ⟨hl, ⟨a', ts₃, hts₃, hat₃, hend⟩ | hdead⟩
            · refine ⟨hl, .inl ⟨a ++ [LF] ++ a', ts₃, ?_, hat₃,
                .inr (getLast?_append_lf a a' hend)⟩⟩
              rw [hts₂, hts₃, ← append_assoc, ← map_append]
            · exact ⟨hl, .inr hdead⟩
          · rcases continueLine_dead fuel _ hdead hgo with ⟨hdead', hl⟩
            rw [hl]
            exact ⟨hne _ hc, .inr hdead'⟩
      · simp only [hpeek] at hrun
        cases hrun
        exact ⟨hline, .inr hdead⟩

/-- A header line is a text that ends in a line feed, or the reader is dead. The
    empty line is CR LF. -/
theorem readContinuedLine_open (hat : At r false ts)
    (h : Parser.run readContinuedLine r = some (.ok l, r')) :
    (∃ a ts', ts = a.map Token.byte ++ ts' ∧ At r' false ts' ∧ a.getLast? = some LF ∧
      (l = [] → a = crlf)) ∨ (Dead r' ∧ l ≠ []) := by
  rw [readContinuedLine] at h
  rcases Parser.run_bind_eq_ok h with ⟨line, r₁, hread, hgo⟩
  by_cases hne : line = []
  · rw [if_pos hne, Parser.run_pure] at hgo
    cases hgo
    rcases readLine_open hat hread with ⟨a, ts', hnot, hline, hts, hat'⟩ | hdead
    · refine .inl ⟨a ++ [LF], ts', hts, hat', getLast?_concat, fun _ => ?_⟩
      rw [hne] at hline
      rcases trimSuffix_crlf_lf a with ⟨l', ha, htrim⟩ | ⟨_, htrim⟩
      · rw [htrim] at hline
        rw [ha, ← hline]
        rfl
      · rw [htrim] at hline
        exact absurd hline.symm (append_ne_nil_of_right_ne_nil a (cons_ne_nil _ _))
    · exact .inr hdead
  · rw [if_neg hne, Parser.run_mk] at hgo
    rcases readLine_open hat hread with ⟨a, ts', hnot, hline, hts, hat'⟩ | ⟨hdead, _⟩
    · rcases continueLine_open _ line hne hat' hgo with ⟨hl, ⟨a', ts₂, hts₂, hat₂, hend⟩ | hdead⟩
      · refine .inl ⟨a ++ [LF] ++ a', ts₂, ?_, hat₂, getLast?_append_lf a a' hend,
          fun hc => absurd hc hl⟩
        rw [hts, hts₂, ← append_assoc, ← map_append]
      · exact .inr ⟨hdead, hl⟩
    · rcases continueLine_dead _ line hdead hgo with ⟨hdead', hl⟩
      rw [hl]
      exact .inr ⟨hdead', hne⟩

theorem unmarshalHeaderLines_dead {r : Reader} (hdead : Dead r) (h' : SIPHeaders) (r' : Reader) :
    Parser.run (unmarshalHeaderLines fuel h) r ≠ some (.ok h', r') := by
  intro hrun
  cases fuel with
  | zero => cases hrun
  | succ fuel =>
    rw [unmarshalHeaderLines] at hrun
    rcases Parser.run_bind_eq_ok hrun with ⟨line, r₁, hread, _⟩
    rcases readLine_dead hdead with ⟨r₂, hline, _⟩
    have hcont : Parser.run readContinuedLine r =
        some (.error (.error (.read .timeout)), r₂) := by
      rw [readContinuedLine, Parser.run_bind_error _ hline]
    rw [readHeaderLine_eq_ok hread] at hcont
    cases hcont

/-- A header section that ends is a text of complete lines and the empty line. -/
theorem unmarshalHeaderLines_open {h' : SIPHeaders} {r r' : Reader} {ts : List Token}
    (hat : At r false ts) (hrun : Parser.run (unmarshalHeaderLines fuel h) r = some (.ok h', r')) :
    ∃ a ts', ts = (a ++ crlf).map Token.byte ++ ts' ∧ At r' false ts' ∧
      (a = [] ∨ a.getLast? = some LF) := by
  induction fuel generalizing h r ts with
  | zero => contradiction
  | succ fuel ih =>
    rw [unmarshalHeaderLines] at hrun
    rcases Parser.run_bind_eq_ok hrun with ⟨line, r₁, hread, hgo⟩
    rcases readContinuedLine_open hat (readHeaderLine_eq_ok hread) with
      ⟨a, ts', hts, hat', hend, hempty⟩ | ⟨hdead, hne⟩
    · by_cases hl : line = []
      · rw [if_pos hl, Parser.run_pure] at hgo
        cases hgo
        refine ⟨[], ts', ?_, hat', .inl rfl⟩
        rw [hts, hempty hl]
        rfl
      · rw [if_neg hl] at hgo
        rcases hcut : cut 58 line with _ | ⟨k, v⟩
        · rw [hcut] at hgo
          injection congrArg Prod.fst (some.inj hgo)
        · rw [hcut] at hgo
          rcases ih _ hat' hgo with ⟨a', ts₂, hts₂, hat₂, hend₂⟩
          rcases getLast?_eq_some_iff.mp hend with ⟨b, hb⟩
          refine ⟨a ++ a', ts₂, ?_, hat₂, .inr ?_⟩
          · rw [hts, hts₂, ← append_assoc, ← map_append, append_assoc a]
          · rw [hb]
            exact getLast?_append_lf b a' hend₂
    · rw [if_neg hne] at hgo
      rcases hcut : cut 58 line with _ | ⟨k, v⟩
      · rw [hcut] at hgo
        injection congrArg Prod.fst (some.inj hgo)
      · rw [hcut] at hgo
        exact absurd hgo (unmarshalHeaderLines_dead fuel _ hdead h' r')

theorem unmarshalBody_open {h : SIPHeaders} {r r' : Reader} {ts : List Token} {body : Bytes}
    (hat : At r false ts)
    (hrun : Parser.run (unmarshalBody true h) r = some (.ok body, r')) :
    ∃ ts', ts = body.map Token.byte ++ ts' ∧ At r' false ts' := by
  unfold unmarshalBody at hrun
  rcases hl : h.lookup hContentLength with _ | (_ | ⟨clStr, more⟩)
  · simp only [hl, Parser.run_mk, if_true, unmarshalErrorf, some.injEq, Prod.mk.injEq,
      reduceCtorEq, false_and] at hrun
  · simp only [hl, Parser.run_mk, some.injEq, Prod.mk.injEq, reduceCtorEq, false_and] at hrun
  · rcases hcl : unmarshalContentLength clStr with e | n
    · simp only [hl, Parser.run_mk, hcl, some.injEq, Prod.mk.injEq, reduceCtorEq,
        false_and] at hrun
    · by_cases hpos : 0 < n
      · simp only [hl, Parser.run_mk, hcl, if_pos hpos] at hrun
        rcases map_eq_some_iff.mp hrun with ⟨⟨e | body', r₁⟩, hread, heq⟩
        · simp only [bodyError, unmarshalErrorWrap, Prod.mk.injEq, reduceCtorEq, false_and] at heq
        · simp only [bodyError] at heq
          cases heq
          exact readFull_inv hat hread
      · simp only [hl, Parser.run_mk, hcl, if_neg hpos, some.injEq, Prod.mk.injEq,
          Except.ok.injEq] at hrun
        rw [← hrun.1, ← hrun.2]
        exact ⟨ts, rfl, hat⟩

/-- A message that came from an open stream was a head and its body, without an
    expiry in them. The head ends in an empty line and has a space in it. -/
theorem unmarshalSIP_span {m : SIPMessage} (hat : At r false ts)
    (h : Parser.run unmarshalSIP r = some (.ok m, r')) :
    ∃ head ts', ts = (head ++ m.body).map Token.byte ++ ts' ∧ At r' false ts' ∧
      [LF, CR, LF] <:+ head ∧ SP ∈ head := by
  rcases unmarshalSIPFrom_eq_ok h with ⟨line, sl, r₁, r₂, hline, hsl, _, hheaders, _, hbody⟩
  rw [unmarshalHeaders, Parser.run_mk] at hheaders
  rcases readLine_open hat hline with ⟨a, ts₁, hnot, hl, hts, hat₁⟩ | ⟨hdead, _⟩
  · rcases unmarshalHeaderLines_open _ ∅ hat₁ hheaders with ⟨a₂, ts₂, hts₂, hat₂, hend⟩
    rcases unmarshalBody_open hat₂ hbody with ⟨ts₃, hts₃, hat₃⟩
    refine ⟨a ++ [LF] ++ a₂ ++ crlf, ts₃, ?_, hat₃, ?_, ?_⟩
    · rw [hts, hts₂, hts₃]
      simp
    · -- The line in front of the empty one ends in a line feed.
      rcases getLast?_eq_some_iff.mp (getLast?_append_lf a a₂ hend) with ⟨b, hb⟩
      rw [hb]
      exact ⟨b, by simp only [append_assoc, cons_append, nil_append]⟩
    · have hsp : SP ∈ line := by
        rw [← unmarshalStartLine_sound hsl]
        cases sl <;> simp only [StartLine.text, mem_append, mem_singleton, true_or,
          or_true]
      have hmem : SP ∈ a ++ [LF] := by
        rcases trimSuffix_crlf_lf a with ⟨l', ha, htrim⟩ | ⟨_, htrim⟩
        · rw [hl, htrim] at hsp
          rw [ha]
          exact mem_append_left _ (mem_append_left _ hsp)
        · rw [hl, htrim] at hsp
          exact hsp
      exact mem_append_left _ (mem_append_left _ hmem)
  · exact absurd hheaders (unmarshalHeaderLines_dead _ ∅ hdead _ _)

end Proto

end Trecs
