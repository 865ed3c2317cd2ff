import Trecs.B2bua.Call
import Trecs.Lib.Trim
import Trecs.Proto.Address

/-!
# Requests Within a Dialog

A request belongs to a dialog if it has its Call-ID and its two tags: the one in
From is the tag of the party that sends the request, the one in To is that of the
server. A call has a dialog on each side.

The tag of a party is a parameter of its address. A value of a From or To header
may have several parameters of that name, and `addressTags` collects them all.

## Main definitions

* `Side`, `Call.dialog`: The two sides of a call.
* `dialogIDOf`: The dialog a request claims to belong to.
* `Call.Matches`: It is that of a side of a call.
* `addressTags`: The tags of an address.

## Theorems

-/

namespace Trecs

open List

namespace B2bua

open Proto Sip

/-- The two sides of a call. -/
inductive Side where
  | alice
  | bob
deriving Repr, DecidableEq

/-- The side a message from this one is passed on to. -/
def Side.other : Side → Side
  | alice => bob
  | bob => alice

theorem Side.other_of_ne {side t : Side} (h : side ≠ t) : side.other = t ∧ t.other = side := by
  revert h
  cases side <;> cases t <;> decide

/-- The dialog of a side. -/
def Call.dialog (c : Call) : Side → Dialog
  | .alice => c.aliceDialog
  | .bob => c.bobDialog

/-- The dialog a request claims to belong to. -/
def dialogIDOf (req : SIPMessage) : Option DialogID :=
  match req.fromAddress, req.toAddress with
  | .ok fromAddr, .ok toAddr =>
    some ⟨SIPHeaders.getFirst req.headers hCallID, toAddr.tag, fromAddr.tag⟩
  | _, _ => none

/-- The request belongs to the dialog of a side of the call. -/
def Call.Matches (c : Call) (side : Side) (req : SIPMessage) : Prop :=
  dialogIDOf req = some (c.dialog side).id

instance (c : Call) (side : Side) (req : SIPMessage) : Decidable (c.Matches side req) :=
  inferInstanceAs (Decidable (_ = _))

theorem addresses_of_dialogIDOf (req : SIPMessage) (id : DialogID)
    (h : dialogIDOf req = some id) :
    ∃ fromAddr toAddr, req.fromAddress = .ok fromAddr ∧ req.toAddress = .ok toAddr := by
  unfold dialogIDOf at h
  rcases hfrom : req.fromAddress with e | fromAddr
  · rw [hfrom] at h
    cases h
  · rcases hto : req.toAddress with e | toAddr
    · rw [hfrom, hto] at h
      cases h
    · exact ⟨fromAddr, toAddr, rfl, rfl⟩

/-! ### Tags -/

/-- The tag in a parameter, if the parameter is one. -/
def tagOf (p : Bytes) : Option Bytes :=
  match cut 61 p with
  | some (k, v) => if k = ascii "tag" then some v else none
  | none => none

/-- The tags among parameters. -/
def tagParams (s : Bytes) : List Bytes := (split 59 s).filterMap (fun p => tagOf (trimSpace p))

/-- The tags in the value of a From or To header: those behind the brackets, if
    there are any. -/
def addressTags (raw : Bytes) : List Bytes :=
  match cut 60 raw with
  | some (_, rest) =>
    match cut 62 rest with
    | some (_, params) => tagParams params
    | none => []
  | none => tagParams raw

theorem tagParams_append (s tag : Bytes) (htag : 59 ∉ tag) :
    tagParams (s ++ ascii ";tag=" ++ tag) = tagParams s ++ [trimRight tag] := by
  have hform : s ++ ascii ";tag=" ++ tag = s ++ 59 :: (ascii "tag=" ++ tag) := by
    rw [append_assoc]
    rfl
  have hpiece : 59 ∉ ascii "tag=" ++ tag := by
    rw [mem_append, not_or]
    exact ⟨by decide, htag⟩
  -- Blanks behind the tag are trimmed, and the equals sign stops them.
  have htrim : trimSpace (ascii "tag=" ++ tag) = ascii "tag" ++ 61 :: trimRight tag := by
    have hlead : NoLeading (ascii "tag=" ++ tag) := noLeading_cons 116 _ (by decide)
    rw [trimSpace_of_noLeading _ hlead]
    exact trimRight_append (ascii "tag") tag 61 (by decide)
  have htagOf : tagOf (ascii "tag" ++ 61 :: trimRight tag) = some (trimRight tag) := by
    rw [tagOf, cut_append 61 _ _ (by decide)]
    rfl
  rw [hform, tagParams, split_append_sep, split_of_not_mem 59 _ hpiece, filterMap_append,
    filterMap_cons, htrim, htagOf]
  rfl

/-- Appending a tag to an address that has one gives it another. -/
theorem addressTags_append (raw tag : Bytes) (hraw : addressTags raw ≠ []) (hsemi : 59 ∉ tag)
    (hopen : 60 ∉ tag) :
    addressTags (raw ++ ascii ";tag=" ++ tag) = addressTags raw ++ [trimRight tag] := by
  unfold addressTags at hraw ⊢
  rcases hcut : cut 60 raw with _ | ⟨display, rest⟩
  · have hmem : 60 ∉ raw ++ ascii ";tag=" ++ tag := by
      rw [mem_append, mem_append, not_or, not_or]
      exact ⟨⟨(cut_eq_none_iff 60 raw).mp hcut, by decide⟩, hopen⟩
    rw [(cut_eq_none_iff 60 _).mpr hmem]
    exact tagParams_append raw tag hsemi
  rw [hcut] at hraw
  rcases (cut_eq_some_iff 60 raw display rest).mp hcut with ⟨hraw', hdisplay⟩
  have hcut' : cut 60 (raw ++ ascii ";tag=" ++ tag) =
      some (display, rest ++ ascii ";tag=" ++ tag) := by
    rw [hraw', append_assoc, append_assoc, cons_append,
      cut_append 60 display _ hdisplay, append_assoc]
  rw [hcut']
  simp only at hraw ⊢
  rcases hclose : cut 62 rest with _ | ⟨uri, params⟩
  · rw [hclose] at hraw
    exact absurd rfl hraw
  rcases (cut_eq_some_iff 62 rest uri params).mp hclose with ⟨hrest, huri⟩
  rw [hrest, append_assoc, append_assoc, cons_append, cut_append 62 uri _ huri]
  simp only [← append_assoc]
  exact tagParams_append params tag hsemi

/-- A generated tag has no separators and no brackets. -/
theorem generateTag_plain (rnd : Option Bytes) :
    59 ∉ generateTag rnd ∧ 60 ∉ generateTag rnd := by
  cases rnd with
  | none => exact ⟨by decide, by decide⟩
  | some bytes =>
    have hhex : ∀ d : Fin 16, hexDigit d ≠ 59 ∧ hexDigit d ≠ 60 := by decide
    constructor
    · intro hb
      rcases isHex_hexEncode bytes _ hb with ⟨d, hd, hb⟩
      exact (hhex ⟨d, hd⟩).1 hb.symm
    · intro hb
      rcases isHex_hexEncode bytes _ hb with ⟨d, hd, hb⟩
      exact (hhex ⟨d, hd⟩).2 hb.symm

end B2bua

end Trecs
