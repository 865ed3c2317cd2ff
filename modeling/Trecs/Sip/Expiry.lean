import Trecs.Sip.Stream

/-!
# Expiries that Disturb the Read Loop

`Trecs.Sip.Stream` shows that the read loop delivers everything when the
expiries are harmless. Here is the converse: a loop that delivers everything had
harmless expiries only.

A harmful expiry leads to one of two ends. Outside of messages it makes
`UnmarshalSIP` read the rest of a keepalive, which is no start line, and the
connection is closed. Inside a message it makes the loop lose what was read of
the message. The bytes behind may still be read as messages, but not as the ones
that are due: `pending` only shrinks, and by `unmarshalSIP_aligned` a message is
read as itself only when all of its text is pending. So nothing can make up for
the lost bytes.

## Main definitions

* `pending`: The text the loop can still hand to `UnmarshalSIP`.

## Theorems

* `step_cases`: What one step can do.
* `pending_eq_of_delivers`: Everything that is delivered was pending as a whole.
* `harmless_of_delivers`: Delivery needs harmless expiries.
* `startReader_delivers_iff`: The exact condition.
-/

namespace Trecs

open List Option

namespace Sip

open Reader Proto

/-! ### What one step can do -/

/-- The text that the loop can still hand to `UnmarshalSIP`: what the reader has
    left, behind the byte that the drain may put back. -/
def pending (s : ReadLoop) (ts : List Token) : Bytes := s.place.held.toList ++ bytesOf ts

/-- A byte that the drain reads stays pending, or the bytes up to it do not. -/
theorem pending_after (p : Place) (b : UInt8) (rest : Bytes) :
    (p.after b).held.toList ++ (p.returned b ++ rest) <:+ p.held.toList ++ b :: rest := by
  have htail : rest <:+ b :: rest := suffix_cons b rest
  cases p with
  | drain =>
    by_cases hb : b = CR
    · simp only [Place.after, Place.returned, hb, ne_eq, not_true_eq_false, if_false]
      exact suffix_refl _
    · simp only [Place.after, Place.returned, hb, ne_eq, not_false_eq_true, if_true]
      exact suffix_refl _
  | sawCR =>
    by_cases hb : b = LF
    · simp only [Place.after, Place.returned, hb, ne_eq, not_true_eq_false, if_false]
      exact suffix_cons _ _
    · simp only [Place.after, Place.returned, hb, ne_eq, not_false_eq_true, if_true]
      exact htail.trans (suffix_cons _ _)
  | sawCRLF =>
    by_cases hb : b = CR
    · simp only [Place.after, Place.returned, hb, ne_eq, not_true_eq_false, if_false]
      exact suffix_cons _ _
    · simp only [Place.after, Place.returned, hb, ne_eq, not_false_eq_true, if_true]
      exact suffix_cons _ _
  | sawCRLFCR =>
    by_cases hb : b = LF
    · simp only [Place.after, Place.returned, hb, ne_eq, not_true_eq_false, if_false]
      exact (suffix_cons _ _).trans (suffix_cons _ _)
    · simp only [Place.after, Place.returned, hb, ne_eq, not_false_eq_true, if_true]
      exact htail.trans (suffix_cons _ _)
  | parse | closed | crashed => exact htail

/-- A call of `UnmarshalSIP` with a byte to come leaves less pending. -/
def Lessens (s s' : ReadLoop) (ts ts' : List Token) : Prop :=
  s.place = .parse → ∀ b us, ts = .byte b :: us → (pending s' ts').length < (pending s ts).length

/-- A step goes on with no more pending than before, or delivers a message, or
    ends the loop. -/
theorem step_cases {s s' : ReadLoop} {ts : List Token} (h : Stands s ts)
    (hs : readLoopStep s = some s') :
    (∃ ts', Stands s' ts' ∧ s'.delivered = s.delivered ∧ pending s' ts' <:+ pending s ts ∧
        Lessens s s' ts ts') ∨
      (s.place = .parse ∧ ∃ m r', Parser.run unmarshalSIP s.reader = some (.ok m, r') ∧
        s' = s.parsed (.ok m) r') ∨
      ((s'.place = .closed ∨ s'.place = .crashed) ∧ s'.delivered = s.delivered) := by
  by_cases hp : s.place.draining = true
  · have hnot : ∀ ts', Lessens s s' ts ts' := by
      intro ts' hparse
      rw [hparse] at hp
      exact absurd hp (by decide)
    rcases ts with _ | ⟨b | _, ts⟩
    · rw [step_drain_wait h hp] at hs
      cases hs
    · rcases step_byte h hp with ⟨s₁, hs₁, hplace, hdel, hstands⟩
      rw [hs₁, some.injEq] at hs
      subst hs
      refine .inl ⟨_, hstands, hdel, ?_, hnot _⟩
      rw [pending, pending, hplace, bytesOf_append, bytesOf_map_byte]
      exact pending_after s.place b (bytesOf ts)
    · rcases step_drain_expiry h hp with ⟨s₁, hs₁, hplace, hdel, hstands⟩
      rw [hs₁, some.injEq] at hs
      subst hs
      refine .inl ⟨_, hstands, hdel, ?_, hnot _⟩
      rw [pending, pending, hplace, bytesOf_append, bytesOf_map_byte]
      exact suffix_refl _
  · rcases hplace : s.place with _ | _ | _ | _ | _ | _ | _
    case parse =>
      rw [readLoopStep_parse hplace] at hs
      rcases map_eq_some_iff.mp hs with ⟨⟨res, r'⟩, hrun, rfl⟩
      rcases shrinks_unmarshalSIP _ _ _ hrun with ⟨hleft, hclosed⟩
      rcases res with (e | _) | m
      · by_cases htime : e.isTimeout = true
        · simp only [ReadLoop.parsed, htime, if_true]
          have hat : At r'.setReadDeadline false r'.tokens := by
            rw [← h.reader.closed, ← hclosed]
            exact at_setReadDeadline r'
          refine .inl ⟨r'.tokens, stands_enterDrain s hat, rfl, ?_, ?_⟩
          · rw [h.reader.left_eq] at hleft
            rw [pending, pending, hplace]
            exact hleft
          · intro _ b us hts
            subst hts
            rw [pending, pending, hplace]
            exact h.reader.left_eq ▸ unmarshalSIP_consumes h.reader hrun
        · have hparsed : s.parsed (.error (.error e)) r' =
              { s with place := .closed, reader := r' } := if_neg htime
          rw [hparsed]
          exact .inr (.inr ⟨.inl rfl, rfl⟩)
      · exact .inr (.inr ⟨.inr rfl, rfl⟩)
      · exact .inr (.inl ⟨rfl, m, r', hrun, rfl⟩)
    case closed | crashed =>
      simp only [readLoopStep, hplace, reduceCtorEq] at hs
    all_goals
      rw [hplace] at hp
      exact absurd rfl hp

/-! ### Runs that deliver -/

theorem readFailed_delivered (s : ReadLoop) (e : ReadError) (r unread : Reader) :
    (s.readFailed e r unread).delivered = s.delivered := by cases e <;> rfl

theorem parsed_delivered (s : ReadLoop) (res : Except Fault SIPMessage) (r : Reader) :
    ∃ ms, (s.parsed res r).delivered = s.delivered ++ ms := by
  rcases res with (e | _) | m
  · refine ⟨[], ?_⟩
    unfold ReadLoop.parsed
    rw [append_nil]
    by_cases htime : e.isTimeout = true
    · simp [htime, ReadLoop.enterDrain]
    · simp [htime]
  · exact ⟨[], (append_nil _).symm⟩
  · exact ⟨[m], rfl⟩

/-- A delivered message stays delivered. -/
theorem delivered_of_step {s s' : ReadLoop} (hs : readLoopStep s = some s') :
    ∃ ms, s'.delivered = s.delivered ++ ms := by
  have hsame :
      ∀ {t : ReadLoop}, t.delivered = s.delivered → ∃ ms, t.delivered = s.delivered ++ ms :=
    fun ht => ⟨[], by rw [ht, append_nil]⟩
  rcases hplace : s.place with _ | _ | _ | _ | _ | _ | _
  case parse =>
    rw [readLoopStep_parse hplace] at hs
    rcases map_eq_some_iff.mp hs with ⟨p, _, rfl⟩
    exact parsed_delivered s p.1 p.2
  case closed | crashed => simp only [readLoopStep, hplace, reduceCtorEq] at hs
  all_goals
    rcases hr : s.reader.readByte with _ | ⟨e | b, r⟩
    · simp only [readLoopStep, hplace, hr, reduceCtorEq] at hs
    · simp only [readLoopStep, hplace, hr] at hs
      cases hs
      exact hsame (readFailed_delivered s e r _)
    · simp only [readLoopStep, hplace, hr] at hs
      split_ifs at hs with hb
      all_goals
        cases hs
        exact hsame rfl

theorem delivered_of_reaches {s t : ReadLoop} (h : Reaches readLoopStep s t) :
    ∃ ms, t.delivered = s.delivered ++ ms := by
  induction h with
  | refl s => exact ⟨[], (append_nil _).symm⟩
  | step hs _ ih =>
    rcases delivered_of_step hs with ⟨ms, hms⟩
    rcases ih with ⟨ms', hms'⟩
    exact ⟨ms ++ ms', by rw [hms', hms, append_assoc]⟩

theorem Delivers.of_step {s s' : ReadLoop} {items : List Sent} (h : Delivers s items)
    (hs : readLoopStep s = some s') (hd : s'.delivered = s.delivered) : Delivers s' items := by
  rcases h with ⟨t, ms, hhalt, hopen, hdel, hsame⟩
  exact ⟨t, ms, hhalt.of_step hs, hopen, hd ▸ hdel, hsame⟩

theorem Delivers.of_reaches {s s' : ReadLoop} {items : List Sent} (h : Delivers s items)
    (hr : Reaches readLoopStep s s') (hd : s'.delivered = s.delivered) : Delivers s' items := by
  rcases h with ⟨t, ms, hhalt, hopen, hdel, hsame⟩
  exact ⟨t, ms, hhalt.of_reaches hr, hopen, hd ▸ hdel, hsame⟩

variable {w : Waiting} {s : ReadLoop} {ts : List Token} {compact : Bool} {m : SIPMessage}
  {items : List Sent}

/-- A loop that has ended delivers nothing more. -/
theorem Delivers.not_ended (h : Delivers s items) : s.place ≠ .closed ∧ s.place ≠ .crashed := by
  rcases h with ⟨t, ms, hhalt, hopen, _, _⟩
  by_contra hc
  have hnone : readLoopStep s = none := by
    unfold readLoopStep
    rcases not_and_or.mp hc with hp | hp
    · rw [not_not.mp hp]
    · rw [not_not.mp hp]
  cases hhalt.reaches with
  | refl => exact hc hopen
  | step hs _ => cases hs.symm.trans hnone

/-- The first message that is delivered is the first that is due. -/
theorem Delivers.of_message {s s' : ReadLoop} {compact : Bool} {m m' : SIPMessage}
    {items : List Sent} (h : Delivers s (.message compact m :: items))
    (hs : readLoopStep s = some s') (hd : s'.delivered = s.delivered ++ [m']) :
    SameMessage m m' ∧ Delivers s' items := by
  rcases h with ⟨t, ms, hhalt, hopen, hdel, hsame⟩
  have hhalt' := hhalt.of_step hs
  rcases delivered_of_reaches hhalt'.reaches with ⟨ms', hms'⟩
  have hms : ms = m' :: ms' := by
    rw [hdel, hd, append_assoc] at hms'
    exact append_cancel_left hms'
  have hcons : messages (.message compact m :: items) = m :: messages items := rfl
  rw [hms, hcons, forall₂_cons] at hsame
  refine ⟨hsame.1, t, ms', hhalt', hopen, hms', hsame.2⟩

/-- While a message is due the loop does not stop. -/
theorem Delivers.exists_step (h : Delivers s (.message compact m :: items)) :
    ∃ s', readLoopStep s = some s' := by
  rcases h with ⟨t, ms, hhalt, _, hdel, hsame⟩
  cases hhalt.reaches with
  | refl =>
    have hnil : ms = [] := append_right_eq_self.mp hdel.symm
    rw [hnil] at hsame
    cases hsame
  | step hs _ => exact ⟨_, hs⟩

/-! ### Nothing makes up for lost bytes -/

/-- The state in which a run delivers its first message. -/
theorem Delivers.first (h : Delivers s (.message compact m :: items)) (hstands : Stands s ts) :
    ∃ s₁ ts₁ m' r', Stands s₁ ts₁ ∧ bytesOf ts₁ <:+ pending s ts ∧
      Parser.run unmarshalSIP s₁.reader = some (.ok m', r') ∧ SameMessage m m' ∧
      Delivers (s₁.parsed (.ok m') r') items := by
  rcases id h with ⟨t, _, ⟨hreach, hstop⟩, -⟩
  -- The run is not empty, and its first step delivers the message or leaves it due.
  induction hreach generalizing ts with
  | refl s =>
    rcases h.exists_step with ⟨s', hs'⟩
    cases hs'.symm.trans hstop
  | step hs _ ih =>
    rcases step_cases hstands hs with ⟨ts', hstands', hdel, hsuffix, _⟩ |
      ⟨hplace, m', r', hparse, rfl⟩ | ⟨hended, hdel⟩
    · rcases ih (h.of_step hs hdel) hstands' hstop with
        ⟨s₁, ts₁, m', r', hstands₁, hsuffix₁, hrest⟩
      exact ⟨s₁, ts₁, m', r', hstands₁, hsuffix₁.trans hsuffix, hrest⟩
    · rcases h.of_message hs rfl with ⟨hsame, hdelivers⟩
      refine ⟨_, ts, m', r', hstands, ?_, hparse, hsame, hdelivers⟩
      rw [pending, hplace]
      exact suffix_refl _
    · have hopen := (h.of_step hs hdel).not_ended
      rcases hended with hended | hended
      · exact absurd hended hopen.1
      · exact absurd hended hopen.2

/-- The line ends in front of the next message that is sent. -/
theorem exists_crlfs (items : List Sent) :
    ∃ cs rest, streamText items = cs ++ streamText rest ∧ (∀ b ∈ cs, b = CR ∨ b = LF) ∧
      messages items = messages rest ∧ rest <:+ items ∧
      (rest = [] ∨ ∃ compact m rest', rest = .message compact m :: rest') := by
  induction items with
  | nil =>
    exact ⟨[], [], rfl, fun b hb => absurd hb not_mem_nil, rfl, suffix_refl _, .inl rfl⟩
  | cons i items ih =>
    cases i with
    | message compact m =>
      exact ⟨[], _, rfl, fun b hb => absurd hb not_mem_nil, rfl, suffix_refl _,
        .inr ⟨compact, m, items, rfl⟩⟩
    | crlf =>
      rcases ih with ⟨cs, rest, htext, hcs, hmsgs, hsuffix, hrest⟩
      refine ⟨crlf ++ cs, rest, ?_, ?_, hmsgs, hsuffix.trans (suffix_cons _ _), hrest⟩
      · rw [append_assoc, ← htext]
        rfl
      · intro b hb
        rcases mem_append.mp hb with hb | hb
        · exact mem_pair.mp hb
        · exact hcs b hb

theorem stands_parsed {r' : Reader} (h : Stands s ts)
    (hrun : Parser.run unmarshalSIP s.reader = some (.ok m, r')) :
    ∃ ts', Stands (s.parsed (.ok m) r') ts' ∧ bytesOf ts' = r'.left ∧
      bytesOf ts' <:+ bytesOf ts := by
  rcases unmarshalSIP_span h.reader hrun with ⟨head, ts', hts, hat, _⟩
  have hdrain := stands_enterDrain s (at_setReadDeadline_of_at hat)
  refine ⟨ts', ⟨hdrain.reader, hdrain.last⟩, hat.left_eq.symm, ?_⟩
  rw [hts, bytesOf_append]
  exact suffix_append _ _

/-- Delivering some items needs all of their text to be pending. -/
def NeedsAll (items : List Sent) : Prop :=
  ∀ s ts, Stands s ts → pending s ts <:+ streamText items → Delivers s items →
    pending s ts = streamText items

/-- A message that is delivered, with the ones behind it, is read from its
    start. -/
theorem aligned_of_delivers {m m' : SIPMessage} {sl : StartLine} {compact : Bool}
    (hwf : WellFormed m) (hw : Writable m sl compact)
    (hneeds : ∀ c m rest, .message c m :: rest <:+ items → NeedsAll (.message c m :: rest))
    {s : ReadLoop} {ts : List Token} {r' : Reader} (hstands : Stands s ts)
    (hparse : Parser.run unmarshalSIP s.reader = some (.ok m', r')) (hsame : SameMessage m m')
    (hd : Delivers (s.parsed (.ok m') r') items) (y : Bytes)
    (hy : y ++ bytesOf ts = m.wire sl compact ++ streamText items) :
    y = [] ∧ ∃ ts', ts = (m.wire sl compact).map Token.byte ++ ts' := by
  rcases stands_parsed hstands hparse with ⟨ts', hstands', hleft, hsuffix⟩
  rcases exists_crlfs items with ⟨cs, rest, htext, hcs, hmsgs, hrest, hshape⟩
  rw [htext] at hy
  refine unmarshalSIP_aligned hwf hw hstands.reader hparse hsame y cs (streamText rest) hcs ?_ hy
  rw [← hleft]
  rcases hshape with rfl | ⟨c, m₂, rest', rfl⟩
  · exact nil_suffix
  · -- What is pending and the text of the rest are both at the end of the stream.
    have hall : bytesOf ts' <:+ m.wire sl compact ++ (cs ++ streamText (.message c m₂ :: rest')) :=
      hy ▸ hsuffix.trans (suffix_append _ _)
    have hsub : streamText (.message c m₂ :: rest') <:+
        m.wire sl compact ++ (cs ++ streamText (.message c m₂ :: rest')) :=
      (suffix_append _ _).trans (suffix_append _ _)
    rcases suffix_or_suffix_of_suffix hsub hall with hle | hle
    · exact hle
    · have hd' : Delivers (s.parsed (.ok m') r') (.message c m₂ :: rest') := by
        unfold Delivers
        rw [← hmsgs]
        exact hd
      have heq : bytesOf ts' = _ := hneeds c m₂ rest' hrest _ _ hstands' hle hd'
      rw [heq]

theorem streamText_message (hwf : WellFormed m) {sl : StartLine} (hw : Writable m sl compact)
    (items : List Sent) :
    streamText (.message compact m :: items) = m.wire sl compact ++ streamText items := by
  rw [streamText, flatMap_cons, Sent.text, serialise_eq compact m hwf sl hw.startLine]
  rfl

/-- Messages that are delivered were pending as a whole. -/
theorem pending_eq_of_delivers (items : List Sent) (hwf : ∀ i ∈ items, i.WellFormed)
    (compact : Bool) (m : SIPMessage) (rest : List Sent)
    (hsuffix : .message compact m :: rest <:+ items) : NeedsAll (.message compact m :: rest) := by
  -- By induction on what is sent: the messages behind the first one were pending as a whole
  -- when it had been read.
  induction hn : rest.length using Nat.strong_induction_on generalizing compact m rest with
  | _ n ih =>
    intro s ts hstands hpending hd
    have hwfm : WellFormed m := hwf _ (hsuffix.mem mem_cons_self)
    rcases writable_of_wellFormed m compact hwfm with ⟨sl, hw⟩
    rcases hd.first hstands with ⟨s₁, ts₁, m', r', hstands₁, hsuffix₁, hparse, hsame, hd₁⟩
    have hneeds : ∀ c m₂ rest', .message c m₂ :: rest' <:+ rest →
        NeedsAll (.message c m₂ :: rest') := by
      intro c m₂ rest' hrest
      have hlen := hrest.length_le
      rw [length_cons] at hlen
      exact ih rest'.length (by omega) c m₂ rest'
        ((hrest.trans (suffix_cons _ _)).trans hsuffix) rfl
    rcases hsuffix₁.trans hpending with ⟨y, hy⟩
    have hyWire := hy.trans (streamText_message hwfm hw rest)
    have halign := aligned_of_delivers hwfm hw hneeds hstands₁ hparse hsame hd₁ y hyWire
    -- The reader was at the start of the message, so all of it was pending before.
    rw [halign.1, nil_append] at hy
    rw [hy] at hsuffix₁
    exact hpending.eq_of_length_le hsuffix₁.length_le

/-! ### Keepalives that are taken for a start line -/

/-- A line without a space closes the connection. -/
theorem step_parse_of_readLine {line : Bytes} {r' : Reader} (hp : s.place = .parse)
    (hline : Parser.run readLine s.reader = some (.ok line, r')) (hsp : SP ∉ line) :
    ∃ s', readLoopStep s = some s' ∧ s'.place = .closed ∧ s'.delivered = s.delivered := by
  have hcut : cut SP line = none := (cut_eq_none_iff SP line).mpr hsp
  have hstart : Parser.run readStartLine s.reader =
      some (unmarshalErrorf (ascii "Invalid start-line: " ++ line), r') := by
    simp [readStartLine, Parser.run_mk, hline, unmarshalStartLine, hcut]
  refine ⟨{ s with place := .closed, reader := r' }, ?_, rfl, rfl⟩
  rw [readLoopStep_parse hp, unmarshalSIP, unmarshalSIPFrom, Parser.run_bind_error _ hstart]
  rfl

/-- What is left of a line end closes the connection. -/
theorem step_parse_lf (h : Stands s (.byte LF :: ts)) (hp : s.place = .parse) :
    ∃ s', readLoopStep s = some s' ∧ s'.place = .closed ∧ s'.delivered = s.delivered := by
  have hat : At s.reader false ((([] : Bytes) ++ [LF]).map .byte ++ ts) := h.reader
  rcases readLine_lf [] not_mem_nil (by decide) hat with ⟨r', hline, _⟩
  exact step_parse_of_readLine hp hline (by decide)

/-- A CRLF closes the connection, whether an expiry comes in the middle of it or
    not. -/
theorem step_parse_cr {rest : Bytes} (h : Stands s (.byte CR :: ts)) (hts : bytesOf ts = LF :: rest)
    (hp : s.place = .parse) :
    ∃ s', readLoopStep s = some s' ∧ s'.place = .closed ∧ s'.delivered = s.delivered := by
  rcases ts with _ | ⟨b | _, ts⟩
  · exact absurd hts (cons_ne_nil _ _).symm
  · have hb : b = LF := (cons.inj hts).1
    rw [hb] at h
    have hat : At s.reader false ((([] : Bytes) ++ crlf).map .byte ++ ts) := h.reader
    rcases readLine_crlf [] not_mem_nil hat with ⟨r', hline, _⟩
    exact step_parse_of_readLine hp hline not_mem_nil
  · -- A line that a timeout cuts short is taken as it is.
    have hat : At s.reader false (([CR] : Bytes).map .byte ++ .expiry :: ts) := h.reader
    rcases readString_expiry LF [CR] (by decide) hat with ⟨r', hread, _⟩
    have hline : Parser.run readLine s.reader = some (.ok [CR], r') := by
      rw [readLine, Parser.run_mk, hread]
      rfl
    exact step_parse_of_readLine hp hline (by decide)

/-- A connection that has been closed stays closed. -/
theorem not_delivers_of_reaches {s s' : ReadLoop} {items : List Sent}
    (hr : Reaches readLoopStep s s') (hplace : s'.place = .closed) : ¬ Delivers s items := by
  rintro ⟨t, ms, hhalt, hopen, _, _⟩
  cases (hhalt.of_reaches hr).reaches with
  | refl => exact hopen.1 hplace
  | step hs _ => simp only [readLoopStep, hplace, reduceCtorEq] at hs

/-- An expiry in front of the LF of a CRLF closes the connection. -/
theorem not_delivers_of_expiry {rest : Bytes} (h : Stands s (.expiry :: ts))
    (hp : s.place.held = some CR) (hts : bytesOf ts = LF :: rest) : ¬ Delivers s items := by
  have hdrain : ∀ p : Place, p.held = some CR → p.draining = true := by
    intro p
    cases p <;> decide
  rcases step_drain_expiry h (hdrain _ hp) with ⟨s₁, hs₁, hplace₁, hdel₁, hstands₁⟩
  rw [hp] at hstands₁
  rcases step_parse_cr hstands₁ hts hplace₁ with ⟨s₂, hs₂, hplace₂, _⟩
  exact not_delivers_of_reaches (.step hs₁ (.step hs₂ (.refl s₂))) hplace₂

/-- An expiry behind the first CRLF of a pair closes the connection. -/
theorem closes_half_expiry (h : Waits .half s (.expiry :: ts)) :
    ∃ s', Reaches readLoopStep s s' ∧ s'.place = .closed := by
  have hp : s.place = .sawCRLF := h.place
  rcases step_drain_expiry h.stands (by rw [hp]; rfl) with ⟨s₁, hs₁, hplace₁, _, hstands₁⟩
  rw [hp] at hstands₁
  rcases step_parse_lf hstands₁ hplace₁ with ⟨s₂, hs₂, hplace₂, _⟩
  exact ⟨s₂, .step hs₁ (.step hs₂ (.refl s₂)), hplace₂⟩

/-! ### The converse -/

theorem streamText_eq_nil (hwf : ∀ i ∈ items, i.WellFormed) (h : streamText items = []) :
    items = [] := by
  rcases items with _ | ⟨i, items⟩
  · rfl
  · rw [streamText, flatMap_cons, append_eq_nil_iff] at h
    cases i with
    | crlf => exact absurd h.1 (by decide)
    | message compact m =>
      rcases text_message_cons compact m (hwf _ (.head _)) with ⟨b, rest, htext, _⟩
      rw [htext] at h
      exact absurd h.1 (cons_ne_nil b rest)

/-- A CRLF that is delivered, and what the loop does behind it. -/
theorem delivers_crlf {w w' : Waiting} {s : ReadLoop} {ts : List Token} {items : List Sent}
    {rest : Bytes} (hw : (w = .idle ∧ w' = .half) ∨ (w = .half ∧ w' = .idle))
    (h : Waits w s (.byte CR :: ts)) (hts : bytesOf ts = LF :: rest) (hd : Delivers s items) :
    ∃ s' ts', ts = .byte LF :: ts' ∧ Waits w' s' ts' ∧ Delivers s' items := by
  have hp := h.place
  have hdrain : s.place.draining = true := by
    rw [hp]
    rcases hw with ⟨rfl, rfl⟩ | ⟨rfl, rfl⟩ <;> rfl
  rcases step_byte h.stands hdrain with ⟨s₁, hs₁, hplace₁, hdel₁, hstands₁⟩
  have hback : s.place.returned CR = [] ∧ s₁.place.held = some CR := by
    rw [hplace₁, hp]
    rcases hw with ⟨rfl, rfl⟩ | ⟨rfl, rfl⟩ <;> decide
  rw [hback.1, map_nil, nil_append] at hstands₁
  rcases ts with _ | ⟨b | _, ts⟩
  · exact absurd hts (cons_ne_nil _ _).symm
  · have hb : b = LF := (cons.inj hts).1
    rw [hb] at h ⊢
    rcases hw with ⟨rfl, rfl⟩ | ⟨rfl, rfl⟩
    · rcases reaches_crlf_idle h with ⟨s', hs', hdel, hwaits⟩
      exact ⟨s', ts, rfl, hwaits, hd.of_reaches hs' hdel⟩
    · rcases reaches_crlf_half h with ⟨s', hs', hdel, hwaits⟩
      exact ⟨s', ts, rfl, hwaits, hd.of_reaches hs' hdel⟩
  · exact absurd (hd.of_step hs₁ hdel₁) (not_delivers_of_expiry hstands₁ hback.2 hts)

/-- A message that is delivered had no expiry in it. -/
theorem delivers_message {b : UInt8} {ts : List Token} {compact : Bool} {m : SIPMessage}
    {items : List Sent} (hwf : ∀ i ∈ Sent.message compact m :: items, i.WellFormed)
    (h : Waits w s (.byte b :: ts))
    (hts : bytesOf (.byte b :: ts) = streamText (.message compact m :: items))
    (hd : Delivers s (.message compact m :: items)) :
    ∃ s' ts', .byte b :: ts = (Sent.message compact m).text.map Token.byte ++ ts' ∧
      Waits .idle s' ts' ∧ Delivers s' items := by
  have hwfm : WellFormed m := hwf _ (.head _)
  rcases writable_of_wellFormed m compact hwfm with ⟨sl, hw⟩
  have htext : (Sent.message compact m).text = m.wire sl compact := by
    rw [Sent.text, serialise_eq compact m hwfm sl hw.startLine]
  have hb : b ≠ CR := by
    rcases text_message_cons compact m hwfm with ⟨b', rest, hcons, hb'⟩
    rw [streamText, flatMap_cons, hcons, bytesOf_byte, cons_append,
      cons.injEq] at hts
    rw [hts.1]
    exact hb'
  have hneeds := pending_eq_of_delivers (.message compact m :: items) hwf
  rcases reaches_parse h hb with ⟨s₁, hs₁, hdel₁, hwaits₁⟩
  have hd₁ := hd.of_reaches hs₁ hdel₁
  rcases hd₁.exists_step with ⟨s₂, hs₂⟩
  have hpending : pending s₁ (.byte b :: ts) = bytesOf (.byte b :: ts) := by
    rw [pending, hwaits₁.place]
    rfl
  rcases step_cases hwaits₁.stands hs₂ with ⟨ts', hstands₂, hdel₂, hsuffix, hless⟩ |
    ⟨hplace, m', r', hparse, rfl⟩ | ⟨hended, hdel₂⟩
  · -- The bytes that were lost are missing from what is pending.
    have hshorter := hless hwaits₁.place b ts rfl
    rw [hpending, hts] at hsuffix hshorter
    have heq := hneeds compact m items (suffix_refl _) s₂ ts' hstands₂ hsuffix
      (hd₁.of_step hs₂ hdel₂)
    rw [heq] at hshorter
    exact absurd hshorter (Nat.lt_irrefl _)
  · rcases hd₁.of_message hs₂ rfl with ⟨hsame, hd₂⟩
    have hbytes : [] ++ bytesOf (.byte b :: ts) = m.wire sl compact ++ streamText items := by
      rw [nil_append, hts, streamText_message hwfm hw]
    have hbehind : ∀ c m₂ rest, .message c m₂ :: rest <:+ items →
        NeedsAll (.message c m₂ :: rest) :=
      fun c m₂ rest hrest => hneeds c m₂ rest (hrest.trans (suffix_cons _ _))
    rcases (aligned_of_delivers hwfm hw hbehind hwaits₁.stands hparse hsame hd₂ [] hbytes).2 with
      ⟨ts', hshape⟩
    rw [← htext] at hshape
    have hstands₁ := hwaits₁.stands
    rw [hshape] at hstands₁
    rcases step_parse_message compact m hwfm hstands₁ hplace with
      ⟨s₃, m₃, hs₃, hplace₃, _, _, hstands₃⟩
    rw [hs₂] at hs₃
    cases hs₃
    exact ⟨_, ts', hshape, ⟨hstands₃, hplace₃⟩, hd₂⟩
  · have hopen := (hd₁.of_step hs₂ hdel₂).not_ended
    rcases hended with hended | hended
    · exact absurd hended hopen.1
    · exact absurd hended hopen.2

/-- Delivery needs harmless expiries. -/
theorem harmless_of_delivers {w : Waiting} {items : List Sent} {ts : List Token}
    (hwf : ∀ i ∈ items, i.WellFormed) (hts : bytesOf ts = streamText items) {s : ReadLoop}
    (h : Waits w s ts) (hd : Delivers s items) : Harmless w items ts := by
  -- By induction on the tokens, since an item takes several of them.
  induction hn : ts.length using Nat.strong_induction_on generalizing w items ts s with
  | _ n ih =>
    rcases ts with _ | ⟨b | _, ts⟩
    · rw [streamText_eq_nil hwf hts.symm]
      exact .done w
    · rcases items with _ | ⟨⟨compact, m⟩ | _, items⟩
      · exact absurd hts (cons_ne_nil _ _)
      · rcases delivers_message hwf h hts hd with ⟨s', ts', hshape, hwaits, hd'⟩
        have hwfm : WellFormed m := hwf _ (.head _)
        rcases text_message_cons compact m hwfm with ⟨b', rest, hcons, _⟩
        have hlen : ts'.length < n := by
          rw [← hn, hshape, hcons, length_append, length_map, length_cons]
          omega
        rw [hshape, bytesOf_append, bytesOf_map_byte] at hts
        have hts' : bytesOf ts' = streamText items := append_cancel_left hts
        rw [hshape]
        exact .message w compact m
          (ih ts'.length hlen (fun i hi => hwf i (.tail _ hi)) hts' hwaits hd' rfl)
      · rw [bytesOf_byte, streamText, flatMap_cons] at hts
        rcases cons.inj hts with ⟨rfl, hrest⟩
        have hd' : Delivers s items := hd
        have hwf' : ∀ i ∈ items, i.WellFormed := fun i hi => hwf i (.tail _ hi)
        cases w with
        | parsing =>
          rcases step_parse_cr h.stands hrest h.place with ⟨s', hs', hplace, _⟩
          exact absurd hd (not_delivers_of_reaches (.step hs' (.refl s')) hplace)
        | idle =>
          rcases delivers_crlf (.inl ⟨rfl, rfl⟩) h hrest hd' with ⟨s', ts', rfl, hwaits, hd'⟩
          exact .crlfIdle (ih ts'.length (by rw [← hn]; simp) hwf' (cons.inj hrest).2 hwaits
            hd' rfl)
        | half =>
          rcases delivers_crlf (.inr ⟨rfl, rfl⟩) h hrest hd' with ⟨s', ts', rfl, hwaits, hd'⟩
          exact .crlfHalf (ih ts'.length (by rw [← hn]; simp) hwf' (cons.inj hrest).2 hwaits
            hd' rfl)
    · have hlen : ts.length < n := by rw [← hn, length_cons]; omega
      cases w with
      | idle =>
        rcases step_expiry h (.inl ⟨rfl, rfl⟩) with ⟨s', hs', hdel, hwaits⟩
        exact .expiryIdle (ih ts.length hlen hwf hts hwaits (hd.of_reaches hs' hdel) rfl)
      | parsing =>
        rcases step_expiry h (.inr ⟨rfl, rfl⟩) with ⟨s', hs', hdel, hwaits⟩
        exact .expiryParsing (ih ts.length hlen hwf hts hwaits (hd.of_reaches hs' hdel) rfl)
      | half =>
        rcases closes_half_expiry h with ⟨s', hs', hplace⟩
        exact absurd hd (not_delivers_of_reaches hs' hplace)

/-- The read loop delivers what was sent, and leaves the connection open, exactly
    when the expiries are harmless, however the stream is split into
    segments. -/
theorem startReader_delivers_iff (items : List Sent) (hwf : ∀ i ∈ items, i.WellFormed)
    (r : Reader) (ts : List Token) (hat : At r false ts) (hts : bytesOf ts = streamText items) :
    Delivers (startReader r) items ↔ Harmless .idle items ts := by
  have hwaits : Waits .idle (startReader r) ts := ⟨stands_startReader hat, rfl⟩
  exact ⟨harmless_of_delivers hwf hts hwaits, fun hok => delivers_of_harmless hok hwf hwaits⟩

/-- A request and a response with a ping between them. -/
def pingedItems : List Sent :=
  [.message false twoHopInvite, .crlf, .crlf,
    .message true (newResponse twoHopInvite 200 (ascii "OK"))]

/-- The tokens of `pingedItems`, with two expiries behind the ping. -/
def pingedTokens : List Token :=
  (Sent.message false twoHopInvite).text.map .byte ++ (crlf.map .byte ++ (crlf.map .byte ++
    (.expiry :: .expiry ::
      ((Sent.message true (newResponse twoHopInvite 200 (ascii "OK"))).text.map .byte ++ []))))

theorem startReader_delivers_pinged :
    bytesOf pingedTokens = streamText pingedItems ∧
      Delivers (startReader (Reader.ofTokens pingedTokens)) pingedItems := by
  have hwf : ∀ i ∈ pingedItems, i.WellFormed := by
    intro i hi
    simp only [pingedItems, mem_cons, not_mem_nil, or_false] at hi
    rcases hi with rfl | rfl | rfl | rfl
    · exact twoMessages_wellFormed (false, twoHopInvite) (.head _)
    · trivial
    · trivial
    · exact twoMessages_wellFormed (true, newResponse twoHopInvite 200 (ascii "OK"))
        (.tail _ (.head _))
  have hts : bytesOf pingedTokens = streamText pingedItems := by
    simp only [pingedTokens, pingedItems, streamText, bytesOf_append, bytesOf_map_byte,
      bytesOf_expiry, flatMap_cons, flatMap_nil]
    rfl
  refine ⟨hts, (startReader_delivers_iff pingedItems hwf _ _ (at_ofTokens _) hts).mpr ?_⟩
  exact .message .idle _ _ (.crlfIdle (.crlfHalf (.expiryIdle (.expiryParsing
    (.message .idle _ _ (.done .idle))))))

/-- The tokens of a request and a pong, with an expiry behind the pong. -/
def pongTokens : List Token :=
  (Sent.message false twoHopInvite).text.map .byte ++ (crlf.map .byte ++ [.expiry])

/-- A pong that nothing follows before the deadline closes the connection. -/
theorem startReader_closes_after_pong :
    WellFormed twoHopInvite ∧
      bytesOf pongTokens = streamText [.message false twoHopInvite, .crlf] ∧
      At (Reader.ofTokens pongTokens) false pongTokens ∧
      ¬ Delivers (startReader (Reader.ofTokens pongTokens)) [.message false twoHopInvite, .crlf] := by
  have hwf : WellFormed twoHopInvite := twoMessages_wellFormed (false, twoHopInvite) (.head _)
  refine ⟨hwf, ?_, at_ofTokens _, ?_⟩
  · simp only [pongTokens, streamText, bytesOf_append, bytesOf_map_byte, bytesOf_expiry,
      flatMap_cons, flatMap_nil]
    rfl
  · have hwaits : Waits .idle (startReader (Reader.ofTokens pongTokens)) pongTokens :=
      ⟨stands_startReader (at_ofTokens _), rfl⟩
    rcases reaches_message false twoHopInvite hwf hwaits with ⟨s₁, m', hs₁, _, _, hwaits₁⟩
    rcases reaches_crlf_idle hwaits₁ with ⟨s₂, hs₂, _, hwaits₂⟩
    rcases closes_half_expiry hwaits₂ with ⟨s₃, hs₃, hplace⟩
    exact not_delivers_of_reaches ((hs₁.trans hs₂).trans hs₃) hplace

end Sip

end Trecs
