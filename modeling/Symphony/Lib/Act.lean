/-!
# Actions

An action reads and changes a state, and returns a result or fails. A failure
keeps the changes made before it. `Keeps` is the rule of reasoning about actions:
an invariant of the state survives, whatever the outcome, and a result satisfies
its postcondition.
-/

namespace Symphony.Lib

/-- Actions on states `σ` with failures `ε` and results `α`. -/
def Act (σ ε α : Type) := σ → Except ε α × σ

namespace Act

variable {σ τ ε α β : Type}

def bind (m : Act σ ε α) (f : α → Act σ ε β) : Act σ ε β := fun s =>
  match m s with
  | (.ok a, s) => f a s
  | (.error e, s) => (.error e, s)

instance : Monad (Act σ ε) where
  pure a := fun s => (.ok a, s)
  bind := bind

def fail (e : ε) : Act σ ε α := fun s => (.error e, s)

/-- A computation that does not touch the state. -/
def ofExcept (r : Except ε α) : Act σ ε α := fun s => (r, s)

/-- A computation on a part of the state that cannot fail. -/
def onPart (read : σ → τ) (write : σ → τ → σ) (m : StateM τ α) : Act σ ε α := fun s =>
  (.ok (m (read s)).1, write s (m (read s)).2)

/-- `I` is kept, and a result satisfies `Q`. -/
def Keeps (I : σ → Prop) (m : Act σ ε α) (Q : α → Prop) : Prop :=
  ∀ s, I s → I (m s).2 ∧ ∀ a, (m s).1 = .ok a → Q a

variable {I : σ → Prop} {Q : α → Prop} {R : β → Prop}

variable {m : Act σ ε α} {f : α → Act σ ε β}

theorem keeps_pure {a : α} (h : Q a) : Keeps I (pure a : Act σ ε α) Q := by
  intro s hs
  refine ⟨hs, ?_⟩
  rintro b ⟨⟩
  exact h

theorem keeps_fail (e : ε) : Keeps I (fail e : Act σ ε α) Q := by
  intro s hs
  refine ⟨hs, ?_⟩
  rintro b ⟨⟩

theorem keeps_ofExcept {r : Except ε α} (h : ∀ a, r = .ok a → Q a) : Keeps I (ofExcept r : Act σ ε α) Q :=
  fun _ hs => ⟨hs, h⟩

theorem Keeps.bind (hm : Keeps I m Q) (hf : ∀ a, Q a → Keeps I (f a) R) :
    Keeps I (m >>= f) R := by
  intro s hs
  obtain ⟨hs', hq⟩ := hm s hs
  change I (Act.bind m f s).2 ∧ ∀ b, (Act.bind m f s).1 = .ok b → R b
  unfold Act.bind
  cases h : m s with
  | mk r s' =>
    rw [h] at hs' hq
    cases r with
    | error e =>
      refine ⟨hs', ?_⟩
      rintro b ⟨⟩
    | ok a => exact hf a (hq a rfl) s' hs'

theorem bind_ok {s s' : σ} {b : β} (h : (m >>= f) s = (.ok b, s')) :
    ∃ a s₁, m s = (.ok a, s₁) ∧ f a s₁ = (.ok b, s') := by
  change Act.bind m f s = _ at h
  unfold Act.bind at h
  cases hm : m s with
  | mk r s₁ =>
    rw [hm] at h
    cases r with
    | error e => cases h
    | ok a => exact ⟨a, s₁, rfl, h⟩

/-- Whatever the outcome, the action moves the state along `R`. -/
def Moves (R : σ → σ → Prop) (m : Act σ ε α) : Prop := ∀ s, R s (m s).2

section Moves

variable {R : σ → σ → Prop} (hrefl : ∀ s, R s s)

include hrefl

theorem moves_pure (a : α) : Moves R (pure a : Act σ ε α) := hrefl

theorem moves_fail (e : ε) : Moves R (fail e : Act σ ε α) := hrefl

theorem moves_ofExcept (r : Except ε α) : Moves R (ofExcept r : Act σ ε α) := hrefl

end Moves

theorem Moves.of_eq {R : σ → σ → Prop} (hm : Moves R m) {s s' : σ} {r : Except ε α} (h : m s = (r, s')) : R s s' := by
  have := hm s
  rwa [h] at this

theorem Moves.bind {R : σ → σ → Prop} (htrans : ∀ {s t u}, R s t → R t u → R s u) (hm : Moves R m)
    (hf : ∀ a, Moves R (f a)) : Moves R (m >>= f) := by
  intro s
  have h := hm s
  change R s (Act.bind m f s).2
  unfold Act.bind
  cases hs : m s with
  | mk r s₁ =>
    rw [hs] at h
    cases r with
    | error e => exact h
    | ok a => exact htrans h (hf a s₁)

end Act

end Symphony.Lib
