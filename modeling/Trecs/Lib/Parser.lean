/-!
# Parsers with State

A parser reads from a state that it changes, and returns a value or an error.
It may also wait for input that never comes, in which case it does not return
at all. The state here is arbitrary; for a text protocol it is a buffered
reader.

`run_bind` says what a sequence of two parsers does. The two rules derived from
it are the ones proofs go through: a first part that is known to succeed is
replaced by its result, and a sequence that is known to have succeeded did so in
both parts.

## Main definitions

* `Parser`: A parser over states `σ` with errors `ε`.
* `Parser.run`: What it does in a state.
* `Parser.Keeps`: A relation between the state found and the state left.

## Theorems

* `Parser.run_bind`: What a sequence does.
* `Parser.run_bind_ok`: The first part succeeds.
* `Parser.run_bind_eq_ok`: The whole has succeeded.
* `Parser.Keeps.bind`: A sequence keeps what its parts keep.
-/

namespace Trecs

open Option

/-- A parser: `none` is a call that never returns. -/
abbrev Parser (σ ε α : Type) := ExceptT ε (StateT σ Option) α

namespace Parser

variable {σ ε α β : Type}

/-- What a parser does in a state. -/
def run (p : Parser σ ε α) (s : σ) : Option (Except ε α × σ) := StateT.run (ExceptT.run p) s

/-- The parser that does what a function says. -/
def mk (f : σ → Option (Except ε α × σ)) : Parser σ ε α := ExceptT.mk (fun s => f s)

@[simp] theorem run_mk (f : σ → Option (Except ε α × σ)) (s : σ) : run (mk f) s = f s := rfl

@[simp] theorem run_pure (a : α) (s : σ) :
    run (pure a : Parser σ ε α) s = some (.ok a, s) := rfl

theorem run_bind (p : Parser σ ε α) (f : α → Parser σ ε β) (s : σ) :
    run (p >>= f) s = match run p s with
      | none => none
      | some (.error e, s') => some (.error e, s')
      | some (.ok a, s') => run (f a) s' := by
  simp only [run, ExceptT.run_bind, StateT.run_bind]
  rcases StateT.run (ExceptT.run p) s with _ | ⟨_ | _, s'⟩ <;> rfl

theorem run_bind_ok {p : Parser σ ε α} {s s' : σ} {a : α} (f : α → Parser σ ε β)
    (h : run p s = some (.ok a, s')) : run (p >>= f) s = run (f a) s' := by
  rw [run_bind, h]

theorem run_bind_error {p : Parser σ ε α} {s s' : σ} {e : ε} (f : α → Parser σ ε β)
    (h : run p s = some (.error e, s')) : run (p >>= f) s = some (.error e, s') := by
  rw [run_bind, h]

/-- Two parsers of which each has a result. -/
theorem exists_run_bind {p : Parser σ ε α} {f : α → Parser σ ε β} {s t : σ} {x : Except ε α}
    {g : α → Except ε β} (h : run p s = some (x, t))
    (hf : ∀ a, x = .ok a → ∃ t', run (f a) t = some (g a, t')) :
    ∃ t', run (p >>= f) s = some (x >>= g, t') := by
  rw [run_bind, h]
  cases x with
  | error e => exact ⟨t, rfl⟩
  | ok a => exact hf a rfl

theorem run_bind_eq_ok {p : Parser σ ε α} {f : α → Parser σ ε β} {s s' : σ} {b : β}
    (h : run (p >>= f) s = some (.ok b, s')) :
    ∃ a t, run p s = some (.ok a, t) ∧ run (f a) t = some (.ok b, s') := by
  rw [run_bind] at h
  rcases hp : run p s with _ | ⟨e | a, t⟩
  · rw [hp] at h
    cases h
  · rw [hp] at h
    cases h
  · rw [hp] at h
    exact ⟨a, t, rfl, h⟩

/-- A result that was changed on the way out, with the state left as it was. -/
theorem exists_of_map {x : Option (α × σ)} {f : α × σ → β × σ} (hf : ∀ p, (f p).2 = p.2) {b : β}
    {s : σ} (h : x.map f = some (b, s)) : ∃ a, x = some (a, s) ∧ (f (a, s)).1 = b := by
  rcases map_eq_some_iff.mp h with ⟨⟨a, t⟩, hx, hfa⟩
  have ht : t = s := (hf (a, t)).symm.trans (congrArg Prod.snd hfa)
  exact ⟨a, ht ▸ hx, ht ▸ congrArg Prod.fst hfa⟩

/-- However the parser ends, the state it leaves is related to the state it
    found. -/
def Keeps (R : σ → σ → Prop) (p : Parser σ ε α) : Prop :=
  ∀ s res s', run p s = some (res, s') → R s s'

theorem keeps_pure {R : σ → σ → Prop} (hrefl : ∀ s, R s s) (a : α) :
    Keeps R (pure a : Parser σ ε α) := by
  intro s res s' h
  rw [run_pure] at h
  cases h
  exact hrefl s

theorem Keeps.bind {R : σ → σ → Prop} (htrans : ∀ s t u, R s t → R t u → R s u)
    {p : Parser σ ε α} {f : α → Parser σ ε β} (hp : Keeps R p) (hf : ∀ a, Keeps R (f a)) :
    Keeps R (p >>= f) := by
  intro s res s' h
  rw [run_bind] at h
  rcases hrun : run p s with _ | ⟨e | a, t⟩
  · rw [hrun] at h
    cases h
  · simp only [hrun, some.injEq, Prod.mk.injEq] at h
    rw [← h.2]
    exact hp s _ t hrun
  · rw [hrun] at h
    exact htrans s t s' (hp s _ t hrun) (hf a t res s' h)

end Parser

end Trecs
