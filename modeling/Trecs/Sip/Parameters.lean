import Trecs.Lib.Trim
import Trecs.Sip.Digest

/-!
# Digest Parameters

Reading the parameters of a Digest header back. The writers put a list of
parameters with commas between them, each with its value in quotes or without.
`ParseDigest` reads such a list as it was written if no quoted value has a quote
in it and the other values are words.

What the loop makes of any other text is bounded by `digestValue_inv`: a value
is free of quotes or ends at the next comma.

## Main definitions

* `Solid`: A word.
* `Param`, `paramsText`: Parameters as they are written.
* `DigestCredentials.assignAll`: What they are read as.

## Theorems

* `parseParams_put`, `parseDigest_put`: Reading what was written.
-/

namespace Trecs

open List Option

namespace Sip

open Proto

/-- A word that ends at no separator and at no white space. -/
def Solid (t : Bytes) : Prop :=
  t ≠ [] ∧ ∀ b ∈ t, b ∉ [34, 44, 61] ∧ ∀ r ∈ spaceRunes, b ∉ r

instance (t : Bytes) : Decidable (Solid t) :=
  -- Byte by byte along the word, not over all bytes there are.
  @instDecidableAnd _ _ inferInstance (List.decidableBAll _ t)

variable {t : Bytes}

theorem Solid.not_mem (h : Solid t) {b : UInt8} (hb : b ∈ [34, 44, 61]) : b ∉ t :=
  fun hm => (h.2 b hm).1 hb

theorem Solid.noLeading (h : Solid t) (s : Bytes) : NoLeading (t ++ s) := by
  cases t with
  | nil => exact absurd rfl h.1
  | cons b t =>
    refine noLeading_cons b (t ++ s) (fun r hr hhead => ?_)
    exact (h.2 b mem_cons_self).2 r hr (mem_of_head? hhead)

theorem Solid.noTrailing (h : Solid t) (s : Bytes) : NoTrailing (s ++ t) := by
  rcases eq_nil_or_concat t with hnil | ⟨front, b, hback⟩
  · exact absurd hnil h.1
  · rw [concat_eq_append] at hback
    have hb := (h.2 b (hback ▸ mem_concat_self)).2
    rw [hback, ← append_assoc]
    exact noTrailing_concat b (s ++ front) hb

theorem Solid.trimSpace_eq (h : Solid t) : trimSpace t = t := by
  have hl := h.noLeading []
  rw [append_nil] at hl
  exact trimSpace_eq_self t hl (h.noTrailing [])

/-! ### Writing -/

/-- A parameter as the writers put it, with its value in quotes or without. -/
inductive Param where
  | quoted (key value : Bytes)
  | plain (key value : Bytes)
deriving Repr, DecidableEq

namespace Param

def key : Param → Bytes
  | quoted k _ => k
  | plain k _ => k

def value : Param → Bytes
  | quoted _ v => v
  | plain _ v => v

/-- What stands behind the equals sign. -/
def valueText : Param → Bytes
  | quoted _ v => 34 :: (v ++ [34])
  | plain _ v => v

def text (p : Param) : Bytes := p.key ++ 61 :: p.valueText

/-- A parameter that is read as it was written. -/
def Ok : Param → Prop
  | quoted k v => Solid k ∧ 34 ∉ v
  | plain k v => Solid k ∧ Solid v

variable {p : Param}

theorem Ok.key (h : p.Ok) : Solid p.key := by
  cases p with
  | quoted k v => exact h.1
  | plain k v => exact h.1

theorem Ok.noLeading_valueText (h : p.Ok) (s : Bytes) :
    NoLeading (p.valueText ++ s) := by
  cases p with
  | quoted k v => exact noLeading_cons 34 _ (by decide)
  | plain k v => exact h.2.noLeading s

theorem Ok.noTrailing_valueText (h : p.Ok) (s : Bytes) :
    NoTrailing (s ++ p.valueText) := by
  cases p with
  | quoted k v =>
    rw [valueText, ← cons_append, ← append_assoc]
    exact noTrailing_concat 34 _ (by decide)
  | plain k v => exact h.2.noTrailing s

theorem Ok.noTrailing_text (h : p.Ok) (s : Bytes) : NoTrailing (s ++ p.text) := by
  have hback := h.noTrailing_valueText (s ++ p.key ++ [61])
  rw [text]
  simp only [append_assoc, singleton_append] at hback
  exact hback

end Param

/-- Parameters with commas between them. -/
def paramsText : List Param → Bytes
  | [] => []
  | p :: ps => p.text ++ ps.flatMap (fun q => 44 :: SP :: q.text)

variable (ps : List Param)

theorem noLeading_paramsText (h : ∀ p ∈ ps, p.Ok) :
    NoLeading (paramsText ps) := by
  cases ps with
  | nil => exact (by decide : NoLeading [])
  | cons p ps =>
    have hkey := (h p mem_cons_self).key
    rw [paramsText, Param.text, append_assoc]
    exact hkey.noLeading _

theorem noTrailing_paramsText (hne : ps ≠ []) (h : ∀ p ∈ ps, p.Ok) (s : Bytes) :
    NoTrailing (s ++ paramsText ps) := by
  induction ps generalizing s with
  | nil => exact absurd rfl hne
  | cons p ps ih =>
    rcases forall_mem_cons.mp h with ⟨hp, hps⟩
    cases ps with
    | nil =>
      rw [paramsText, flatMap_nil, append_nil]
      exact hp.noTrailing_text s
    | cons q ps =>
      have hback := ih (cons_ne_nil q ps) hps (s ++ p.text ++ [44, SP])
      rw [paramsText] at hback ⊢
      simpa only [flatMap_cons, append_assoc, cons_append,
        nil_append] using hback

theorem length_le_paramsText : ps.length ≤ (paramsText ps).length := by
  cases ps with
  | nil => exact Nat.le_refl 0
  | cons p ps =>
    have hrest := length_le_flatMap_cons 44 (fun q : Param => SP :: q.text) ps
    rw [paramsText, length_append, Param.text, length_append, length_cons,
      length_cons]
    omega

theorem paramsText_ne_nil (hne : ps ≠ []) : paramsText ps ≠ [] := by
  intro hnil
  have hlen := length_le_paramsText ps
  rw [hnil] at hlen
  exact hne (length_eq_zero_iff.mp (Nat.le_zero.mp hlen))

/-! ### Reading -/

/-- A quoted value. What stands between it and the next comma is dropped. -/
theorem digestValue_quoted (v junk x next : Bytes) (hv : 34 ∉ v)
    (hjunk : cut 44 junk = some (x, next)) :
    digestValue (34 :: (v ++ 34 :: junk)) = some (v, next) := by
  simp [digestValue, cut_append 34 v junk hv, hjunk]

theorem digestValue_of_head (rest : Bytes) (h : rest.head? ≠ some 34) :
    digestValue rest = match cut 44 rest with
      | some (value, next) => some (trimSpace value, next)
      | none => some (trimSpace rest, []) := by
  unfold digestValue
  split
  · exact absurd rfl h
  · rfl

theorem Param.Ok.head?_plain {k v : Bytes} (h : (plain k v).Ok) (s : Bytes) :
    (v ++ s).head? ≠ some 34 := by
  cases v with
  | nil => exact absurd rfl h.2.1
  | cons b v =>
    intro hb
    have hmem : b ∈ b :: v := mem_cons_self
    exact h.2.not_mem (by decide) (show (34 : UInt8) ∈ b :: v from some.inj hb ▸ hmem)

theorem Param.Ok.digestValue_last {p : Param} (h : p.Ok) :
    digestValue p.valueText = some (p.value, []) := by
  cases p with
  | quoted k v =>
    rw [valueText, digestValue, cut_append 34 v [] h.2]
    rfl
  | plain k v =>
    have hhead := h.head?_plain []
    rw [append_nil] at hhead
    rw [valueText, digestValue_of_head v hhead,
      (cut_eq_none_iff 44 v).mpr (h.2.not_mem (by decide))]
    simp [h.2.trimSpace_eq, value]

theorem Param.Ok.digestValue_comma {p : Param} (h : p.Ok) (next : Bytes) :
    digestValue (p.valueText ++ 44 :: next) = some (p.value, next) := by
  cases p with
  | quoted k v =>
    have hshape : (quoted k v).valueText ++ 44 :: next = 34 :: (v ++ 34 :: 44 :: next) := by
      simp [valueText]
    rw [hshape]
    exact digestValue_quoted v (44 :: next) [] next h.2 rfl
  | plain k v =>
    rw [valueText, digestValue_of_head _ (h.head?_plain _),
      cut_append 44 v next (h.2.not_mem (by decide))]
    simp [h.2.trimSpace_eq, value]

section Parse

variable [UnicodeLower] [UnicodeUpper]

/-- One turn of the loop. -/
theorem parseParams_step (n : Nat) (raw key rest value next : Bytes) (creds : DigestCredentials)
    (htrim : trimSpace raw = key ++ 61 :: rest) (hkey : Solid key) (hrest : trimSpace rest = rest)
    (hval : digestValue rest = some (value, next)) :
    parseParams (n + 1) raw creds = (creds.assign key value).bind (parseParams n next) := by
  rw [parseParams, htrim, cut_append 61 key rest (hkey.not_mem (by decide))]
  simp only [hrest, hval, hkey.trimSpace_eq]
  cases creds.assign key value with
  | error e => rfl
  | ok creds => rfl

/-- The assignment of parameters one after the other. -/
def DigestCredentials.assignAll (creds : DigestCredentials) (ps : List Param) :
    Except Bytes DigestCredentials :=
  ps.foldlM (fun creds p => creds.assign p.key p.value) creds

/-- Reading what was written assigns the parameters one after the other. -/
theorem parseParams_put (ps : List Param) (h : ∀ p ∈ ps, p.Ok) (n : Nat) (hn : ps.length ≤ n)
    (raw : Bytes) (hraw : trimSpace raw = paramsText ps) (creds : DigestCredentials) :
    parseParams n raw creds = creds.assignAll ps := by
  induction ps generalizing n raw creds with
  | nil =>
    cases n with
    | zero => rfl
    | succ n =>
      rw [parseParams, hraw]
      rfl
  | cons p ps ih =>
    rcases forall_mem_cons.mp h with ⟨hp, hps⟩
    cases n with
    | zero => cases hn
    | succ n =>
      have hn := Nat.le_of_succ_le_succ hn
      rw [DigestCredentials.assignAll, foldlM_cons]
      cases ps with
      | nil =>
        rw [paramsText, flatMap_nil, append_nil, Param.text] at hraw
        have hl := hp.noLeading_valueText []
        rw [append_nil] at hl
        rw [parseParams_step n raw p.key _ _ _ creds hraw hp.key
          (trimSpace_eq_self _ hl (hp.noTrailing_valueText [])) hp.digestValue_last]
        exact congrArg _ (funext (ih hps n hn [] rfl))
      | cons q ps =>
        have hrest : trimSpace (p.valueText ++ 44 :: SP :: paramsText (q :: ps)) =
            p.valueText ++ 44 :: SP :: paramsText (q :: ps) := by
          refine trimSpace_eq_self _ (hp.noLeading_valueText _) ?_
          have hback := noTrailing_paramsText (q :: ps) (cons_ne_nil q ps) hps
            (p.valueText ++ [44, SP])
          simpa only [append_assoc, cons_append, nil_append] using hback
        have hshape : paramsText (p :: q :: ps) =
            p.key ++ 61 :: (p.valueText ++ 44 :: SP :: paramsText (q :: ps)) := by
          simp [paramsText, Param.text]
        rw [parseParams_step n raw p.key _ _ _ creds (hraw.trans hshape) hp.key hrest
          (hp.digestValue_comma _)]
        have hnext := trimSpace_cons_space (paramsText (q :: ps))
          (noLeading_paramsText _ hps)
          (noTrailing_paramsText _ (cons_ne_nil q ps) hps [SP])
        exact congrArg _ (funext (ih hps n hn _ hnext))

/-- The check at the end of `ParseDigest`. -/
def DigestCredentials.required (creds : DigestCredentials) : Except Bytes DigestCredentials :=
  if creds.username = [] ∨ creds.realm = [] ∨ creds.nonce = [] ∨ creds.uri = [] ∨
      creds.response = [] then
    .error (ascii "sip auth: missing required field")
  else .ok creds

/-- The header in front of its parameters. -/
theorem parseDigest_params (t : Bytes) (hl : NoLeading t) (ht : NoTrailing t) (hne : t ≠ []) :
    parseDigest (ascii "Digest " ++ t) =
      (parseParams t.length t .initial).bind DigestCredentials.required := by
  have hspace : NoTrailing (SP :: t) := noTrailing_append_space [] t ht hne
  have hwhole : trimSpace (ascii "Digest " ++ t) = ascii "Digest " ++ t :=
    trimSpace_eq_self _ (noLeading_cons 68 _ (by decide))
      (noTrailing_append_space (ascii "Digest") t ht hne)
  have hscheme : ¬ ((ascii "Digest " ++ t).length < 6 ∨
      equalFold ((ascii "Digest " ++ t).take 6) (ascii "Digest") = false) := by
    rw [show (ascii "Digest " ++ t).take 6 = ascii "Digest" from rfl, length_append,
      show (ascii "Digest ").length = 7 from rfl]
    rintro (hlen | hfold)
    · omega
    · exact absurd hfold (by decide)
  have hdrop : trimSpace ((ascii "Digest " ++ t).drop 6) = t := trimSpace_cons_space t hl hspace
  unfold parseDigest
  simp only [hwhole]
  rw [if_neg hscheme, hdrop, if_neg hne]
  cases parseParams t.length t .initial with
  | error e => rfl
  | ok creds => rfl

theorem parseParams_of_parseDigest (t : Bytes) (hl : NoLeading t) (ht : NoTrailing t) (hne : t ≠ [])
    (c : DigestCredentials) (h : parseDigest (ascii "Digest " ++ t) = .ok c) :
    parseParams t.length t .initial = .ok c := by
  rw [parseDigest_params t hl ht hne] at h
  cases hparse : parseParams t.length t .initial with
  | error e =>
    rw [hparse] at h
    cases h
  | ok creds =>
    rw [hparse, Except.bind, DigestCredentials.required] at h
    split at h
    · cases h
    · exact h

/-- Reading a header that was written. -/
theorem parseDigest_put (ps : List Param) (hne : ps ≠ []) (h : ∀ p ∈ ps, p.Ok) :
    parseDigest (ascii "Digest " ++ paramsText ps) =
      (DigestCredentials.initial.assignAll ps).bind DigestCredentials.required := by
  have hl := noLeading_paramsText ps h
  have ht := noTrailing_paramsText ps hne h []
  have hlen := length_le_paramsText ps
  rw [parseDigest_params _ hl ht (paramsText_ne_nil ps hne),
    parseParams_put ps h _ hlen _ (trimSpace_eq_self _ hl ht)]

/-! ### Values -/

theorem nonce_assign (creds creds' : DigestCredentials) (key value : Bytes)
    (h : creds.assign key value = .ok creds') :
    creds'.nonce = creds.nonce ∨ creds'.nonce = value := by
  unfold DigestCredentials.assign at h
  simp only at h
  by_cases hnonce : toLower key = ascii "nonce"
  · rw [hnonce] at h
    exact .inr (congrArg DigestCredentials.nonce (Except.ok.inj h)).symm
  · left
    rw [if_neg hnonce] at h
    repeat' split at h
    all_goals first
      | exact (congrArg DigestCredentials.nonce (Except.ok.inj h)).symm
      | cases h

/-- The nonce at the end has what every value has that the loop comes across, as
    long as the rest of the text has what makes it so. -/
theorem parseParams_nonce (P R : Bytes → Prop)
    (hstep : ∀ raw key rest value next, R raw → cut 61 (trimSpace raw) = some (key, rest) →
      digestValue (trimSpace rest) = some (value, next) → P value ∧ R next)
    (n : Nat) (raw : Bytes) (creds c : DigestCredentials) (hraw : R raw) (hcreds : P creds.nonce)
    (h : parseParams n raw creds = .ok c) : P c.nonce := by
  induction n generalizing raw creds with
  | zero => exact Except.ok.inj h ▸ hcreds
  | succ n ih =>
    rw [parseParams] at h
    split at h
    · exact Except.ok.inj h ▸ hcreds
    · rename_i key rest hcut
      split at h
      · cases h
      · rename_i value next hval
        rcases hstep raw key rest value next hraw hcut hval with ⟨hvalue, hnext⟩
        split at h
        · cases h
        · rename_i creds' hassign
          refine ih next creds' hnext ?_ h
          rcases nonce_assign creds creds' _ _ hassign with hold | hnew
          · exact hold.symm ▸ hcreds
          · exact hnew.symm ▸ hvalue

end Parse

/-- A value has no quote in it, or it stands in front of the next comma. -/
theorem digestValue_inv (y v next : Bytes) (h : digestValue y = some (v, next)) :
    next <:+ y ∧ (34 ∉ v ∨ ∃ w, v = trimSpace w ∧ 44 ∉ w ∧ w <+: y) := by
  unfold digestValue at h
  split at h
  · rename_i quoted
    split at h
    · cases h
    · rename_i value after hcut
      rcases (cut_eq_some_iff 34 quoted value after).mp hcut with ⟨hquoted, hnot⟩
      have hafter : after <:+ 34 :: quoted :=
        hquoted ▸ ((suffix_cons 34 after).trans (suffix_append value _)).trans
          (suffix_cons 34 _)
      split at h
      · rename_i x rest hcomma
        rcases Prod.mk.inj (some.inj h) with ⟨hv, hn⟩
        have hrest : rest <:+ after :=
          ((cut_eq_some_iff 44 after x rest).mp hcomma).1 ▸
            (suffix_cons 44 rest).trans (suffix_append x _)
        exact ⟨hn ▸ hrest.trans hafter, Or.inl (hv ▸ hnot)⟩
      · rcases Prod.mk.inj (some.inj h) with ⟨hv, hn⟩
        exact ⟨hn ▸ nil_suffix, Or.inl (hv ▸ hnot)⟩
  · split at h
    · rename_i value rest hcomma
      rcases Prod.mk.inj (some.inj h) with ⟨hv, hn⟩
      rcases (cut_eq_some_iff 44 y value rest).mp hcomma with ⟨hy, hnot⟩
      refine ⟨hn ▸ hy ▸ (suffix_cons 44 rest).trans (suffix_append value _),
        Or.inr ⟨value, hv.symm, hnot, hy ▸ prefix_append value _⟩⟩
    · rename_i hnone
      rcases Prod.mk.inj (some.inj h) with ⟨hv, hn⟩
      exact ⟨hn ▸ nil_suffix,
        Or.inr ⟨y, hv.symm, (cut_eq_none_iff 44 y).mp hnone, prefix_refl y⟩⟩

end Sip

end Trecs
