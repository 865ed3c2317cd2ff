import Trecs.Lib.Hex
import Trecs.Lib.Table

/-!
# Nonces

The `NonceManager` of `internal/sip/nonce.go`. It remembers each nonce it has
issued until the nonce expires, with the largest request number `nc` it has
accepted for it. `Verify` accepts a number that is larger than that, and then
remembers the new one.

Every operation holds the lock of the manager throughout. The clock counts
nanoseconds, and the random bytes of a new nonce are an argument. Nothing stops
two nonces from being equal but chance, and a nonce issued anew starts at zero;
so what a manager guarantees over time is stated for runs in which each nonce is
new.

## Main definitions

* `NonceManager`: The Go struct.
* `newNonce`, `verify`, `sweep`: Its operations.
* `NonceInv`: The entries against what was issued and what was accepted.

## Theorems

* `NonceInv.newNonce`, `NonceInv.verify`, `NonceInv.sweep`: The operations keep
  the invariant.
* `NonceInv.lt_of_accepts`: An accepted number is larger than all before.
-/

namespace Trecs

open List Option

namespace Sip

/-- The Go struct `nonceEntry`. -/
structure NonceEntry where
  expires : Int
  maxNC : UInt64
deriving Repr, DecidableEq

/-- The Go struct `NonceManager`. -/
structure NonceManager where
  entries : AList (fun _ : Bytes => NonceEntry)
  ttl : Int

namespace NonceManager

/-- `NewNonceManager`. -/
def create (ttl : Int) : NonceManager := ⟨∅, ttl⟩

/-- `NewNonce` with the random bytes it read. -/
def newNonce (now : Int) (rnd : Bytes) (nm : NonceManager) : NonceManager :=
  { nm with entries := nm.entries.insert (hexEncode rnd) ⟨now + nm.ttl, 0⟩ }

/-- `Verify`: whether the nonce is known, whether the number is accepted, and the
    manager afterwards. -/
def verify (now : Int) (nonce : Bytes) (nc : UInt64) (nm : NonceManager) :
    (Bool × Bool) × NonceManager :=
  match nm.entries.lookup nonce with
  | none => ((false, false), nm)
  | some entry =>
    if now > entry.expires then
      ((true, false), { nm with entries := nm.entries.erase nonce })
    else if nc ≤ entry.maxNC then ((true, false), nm)
    else ((true, true), { nm with entries := nm.entries.insert nonce { entry with maxNC := nc } })

/-- `Sweep`. -/
def sweep (now : Int) (nm : NonceManager) : NonceManager :=
  { nm with
    entries := retain (fun _ entry => if now > entry.expires then none else some entry) nm.entries }

/-- Whether `Verify` accepts a number for a nonce. -/
def Accepts (nm : NonceManager) (now : Int) (nonce : Bytes) (nc : UInt64) : Prop :=
  (nm.verify now nonce nc).1.2 = true

instance (nm : NonceManager) (now : Int) (nonce : Bytes) (nc : UInt64) :
    Decidable (nm.Accepts now nonce nc) :=
  inferInstanceAs (Decidable (_ = true))

variable {nm : NonceManager}

variable (now : Int) (nonce : Bytes) (nc : UInt64)

/-- A number is accepted for a nonce that has not expired if it is larger than
    the largest one so far. -/
theorem accepts_iff : nm.Accepts now nonce nc ↔
      ∃ entry, nm.entries.lookup nonce = some entry ∧ now ≤ entry.expires ∧ entry.maxNC < nc := by
  unfold Accepts verify
  cases hlook : nm.entries.lookup nonce with
  | none => simp only [Bool.false_eq_true, reduceCtorEq, false_and, exists_false]
  | some entry =>
    simp only [some.injEq, exists_eq_left']
    by_cases hexp : now > entry.expires
    · rw [if_pos hexp]
      simp only [Bool.false_eq_true, false_iff, not_and]
      exact fun hle => absurd hle (Int.not_le.mpr hexp)
    · rw [if_neg hexp]
      by_cases hnc : nc ≤ entry.maxNC
      · rw [if_pos hnc]
        simp only [Bool.false_eq_true, false_iff, not_and]
        exact fun _ hlt => absurd hnc (UInt64.not_le.mpr hlt)
      · rw [if_neg hnc]
        simp only [true_iff]
        exact ⟨Int.not_lt.mp hexp, UInt64.not_le.mp hnc⟩

/-- The entries after `Verify`: the nonce is forgotten if it has expired, and its
    number is raised if it is accepted. -/
theorem verify_entries (n : Bytes) : (nm.verify now nonce nc).2.entries.lookup n =
      if n = nonce then
        (nm.entries.lookup n).bind (fun entry =>
          if now > entry.expires then none
          else some { entry with maxNC := if nc ≤ entry.maxNC then entry.maxNC else nc })
      else nm.entries.lookup n := by
  unfold verify
  by_cases hn : n = nonce
  · rw [if_pos hn, hn]
    cases hlook : nm.entries.lookup nonce with
    | none => simp only [hlook, bind_none]
    | some entry =>
      simp only [bind_some]
      by_cases hexp : now > entry.expires
      · rw [if_pos hexp, if_pos hexp]
        exact AList.lookup_erase nonce nm.entries
      · rw [if_neg hexp, if_neg hexp]
        by_cases hnc : nc ≤ entry.maxNC
        · rw [if_pos hnc, if_pos hnc, hlook]
        · rw [if_neg hnc, if_neg hnc]
          exact AList.lookup_insert nm.entries
  · rw [if_neg hn]
    cases hlook : nm.entries.lookup nonce with
    | none => rfl
    | some entry =>
      simp only
      by_cases hexp : now > entry.expires
      · rw [if_pos hexp]
        exact AList.lookup_erase_ne hn
      · rw [if_neg hexp]
        by_cases hnc : nc ≤ entry.maxNC
        · rw [if_pos hnc]
        · rw [if_neg hnc]
          exact AList.lookup_insert_ne hn

theorem newNonce_entries (rnd n : Bytes) : (nm.newNonce now rnd).entries.lookup n =
      if n = hexEncode rnd then some ⟨now + nm.ttl, 0⟩ else nm.entries.lookup n := by
  by_cases hn : n = hexEncode rnd
  · rw [if_pos hn, hn]
    exact AList.lookup_insert nm.entries
  · rw [if_neg hn]
    exact AList.lookup_insert_ne hn

theorem verify_ttl : (nm.verify now nonce nc).2.ttl = nm.ttl := by
  unfold verify
  split
  · rfl
  · split
    · rfl
    · split <;> rfl

end NonceManager

/-! ### The entries against the past -/

/-- A nonce with an entry was issued, and the entry expires with it. A number
    that was accepted for a nonce was accepted after the nonce was issued, and
    the entry, if there still is one, knows about it. -/
structure NonceInv (issued : List (Bytes × Int)) (accepted : List (Bytes × UInt64))
    (nm : NonceManager) : Prop where
  known : ∀ (nonce : Bytes) (entry : NonceEntry), nm.entries.lookup nonce = some entry →
    ∃ t, (nonce, t) ∈ issued ∧ entry.expires = t + nm.ttl
  past : ∀ (nonce : Bytes) (nc : UInt64), (nonce, nc) ∈ accepted → ∃ t, (nonce, t) ∈ issued
  bounded : ∀ (nonce : Bytes) (nc : UInt64) (entry : NonceEntry), (nonce, nc) ∈ accepted →
    nm.entries.lookup nonce = some entry → nc ≤ entry.maxNC

namespace NonceInv

variable {issued : List (Bytes × Int)} {accepted : List (Bytes × UInt64)} {nm : NonceManager}

theorem create (ttl : Int) : NonceInv [] [] (NonceManager.create ttl) where
  known := fun nonce entry h => absurd h (by simp [NonceManager.create])
  past := fun nonce nc h => by cases h
  bounded := fun nonce nc entry h => by cases h

/-- A number that is accepted is larger than all that were accepted before. -/
theorem lt_of_accepts (h : NonceInv issued accepted nm) (now : Int) (nonce : Bytes) (nc nc' : UInt64)
    (hacc : nm.Accepts now nonce nc) (hold : (nonce, nc') ∈ accepted) : nc' < nc := by
  rcases (NonceManager.accepts_iff now nonce nc).mp hacc with ⟨entry, hlook, _, hlt⟩
  exact UInt64.lt_of_le_of_lt (h.bounded nonce nc' entry hold hlook) hlt

/-- A nonce that was never issued before. -/
theorem newNonce (h : NonceInv issued accepted nm) (now : Int) (rnd : Bytes)
    (hfresh : ∀ t, (hexEncode rnd, t) ∉ issued) :
    NonceInv (issued ++ [(hexEncode rnd, now)]) accepted (nm.newNonce now rnd) where
  known := by
    intro nonce entry hlook
    rw [NonceManager.newNonce_entries] at hlook
    split at hlook
    · rename_i hn
      refine ⟨now, ?_, ?_⟩
      · rw [hn]
        exact mem_append_right _ (mem_singleton.mpr rfl)
      · cases hlook
        rfl
    · rcases h.known nonce entry hlook with ⟨t, ht, hexp⟩
      exact ⟨t, mem_append_left _ ht, hexp⟩
  past := by
    intro nonce nc hacc
    rcases h.past nonce nc hacc with ⟨t, ht⟩
    exact ⟨t, mem_append_left _ ht⟩
  bounded := by
    intro nonce nc entry hacc hlook
    rw [NonceManager.newNonce_entries] at hlook
    split at hlook
    · -- Nothing was accepted for a nonce that is new.
      rename_i hn
      rcases h.past nonce nc hacc with ⟨t, ht⟩
      exact absurd (hn ▸ ht) (hfresh t)
    · exact h.bounded nonce nc entry hacc hlook

/-- `Verify` keeps the invariant, with the number among those accepted if it
    is. -/
theorem verify (h : NonceInv issued accepted nm) (now : Int) (nonce : Bytes) (nc : UInt64) :
    NonceInv issued
      (accepted ++ if nm.Accepts now nonce nc then [(nonce, nc)] else [])
      (nm.verify now nonce nc).2 where
  known := by
    intro n entry hlook
    rw [NonceManager.verify_ttl]
    rw [NonceManager.verify_entries] at hlook
    split at hlook
    · rcases bind_eq_some_iff.mp hlook with ⟨old, hold, hx⟩
      split at hx
      · cases hx
      · cases hx
        exact h.known n old hold
    · exact h.known n entry hlook
  past := by
    intro n c hacc
    rcases mem_append.mp hacc with hacc | hacc
    · exact h.past n c hacc
    · split at hacc
      · rename_i hok
        rcases (NonceManager.accepts_iff now nonce nc).mp hok with ⟨entry, hlook, _⟩
        rcases h.known nonce entry hlook with ⟨t, ht, _⟩
        rw [(Prod.mk.inj (mem_singleton.mp hacc)).1]
        exact ⟨t, ht⟩
      · cases hacc
  bounded := by
    intro n c entry hacc hlook
    rw [NonceManager.verify_entries] at hlook
    split at hlook
    · rcases bind_eq_some_iff.mp hlook with ⟨old, hold, hx⟩
      split at hx
      · cases hx
      · -- The number of the entry does not go down, and reaches `nc`.
        have hmax : old.maxNC ≤ entry.maxNC ∧ nc ≤ entry.maxNC := by
          cases hx
          simp only
          split
          · exact ⟨UInt64.le_refl _, by assumption⟩
          · rename_i hgt
            exact ⟨UInt64.le_of_lt (UInt64.not_le.mp hgt), UInt64.le_refl _⟩
        rcases mem_append.mp hacc with hacc | hacc
        · exact UInt64.le_trans (h.bounded n c old hacc hold) hmax.1
        · split at hacc
          · rw [(Prod.mk.inj (mem_singleton.mp hacc)).2]
            exact hmax.2
          · cases hacc
    · rename_i hne
      rcases mem_append.mp hacc with hacc | hacc
      · exact h.bounded n c entry hacc hlook
      · split at hacc
        · exact absurd (Prod.mk.inj (mem_singleton.mp hacc)).1 hne
        · cases hacc

/-- `Sweep` only deletes entries. -/
theorem sweep (h : NonceInv issued accepted nm) (now : Int) :
    NonceInv issued accepted (nm.sweep now) := by
  have hsub : ∀ (nonce : Bytes) (entry : NonceEntry),
      (nm.sweep now).entries.lookup nonce = some entry →
      nm.entries.lookup nonce = some entry := by
    intro nonce entry hlook
    rw [NonceManager.sweep, lookup_retain] at hlook
    rcases bind_eq_some_iff.mp hlook with ⟨old, hold, hx⟩
    split at hx
    · cases hx
    · rw [hold, hx]
  exact ⟨fun nonce entry hlook => h.known nonce entry (hsub nonce entry hlook), h.past,
    fun nonce nc entry hacc hlook => h.bounded nonce nc entry hacc (hsub nonce entry hlook)⟩

end NonceInv

end Sip

end Trecs
