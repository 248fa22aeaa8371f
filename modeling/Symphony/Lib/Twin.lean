import Symphony.Lib.Act
/-!
# Two runs side by side

Relational rules. `Twin I R m m'` says that `m` and `m'`, each started in a state of `I`,
end in states of `I` with results related by `R`. The two states may differ in everything
`I` leaves open, so a relation that holds of the results does not depend on it.
-/

namespace Symphony.Lib

variable {σ α α' β β' γ δ ε : Type}

/-- Both look the same through `f`. -/
def Alike (f : α → β) (a a' : α) : Prop := f a = f a'

def Twin (I : σ → Prop) (R : α → α' → Prop) (m : StateM σ α) (m' : StateM σ α') : Prop :=
  ∀ s s', I s → I s' → R (m s).1 (m' s').1 ∧ I (m s).2 ∧ I (m' s').2

section States

variable {I : σ → Prop} {R : α → α' → Prop} {S : β → β' → Prop}

theorem twin_pure {a : α} {a' : α'} (h : R a a') : Twin I R (pure a) (pure a') :=
  fun _ _ hs hs' => ⟨h, hs, hs'⟩

theorem Twin.bind {m : StateM σ α} {m' : StateM σ α'} {f : α → StateM σ β} {f' : α' → StateM σ β'}
    (hm : Twin I R m m') (hf : ∀ a a', R a a' → Twin I S (f a) (f' a')) : Twin I S (m >>= f) (m' >>= f') := by
  intro s s' hs hs'
  obtain ⟨hr, h₁, h₁'⟩ := hm s s' hs hs'
  exact hf _ _ hr _ _ h₁ h₁'

theorem twin_mapM {g : α → γ} {f : β → δ} {m m' : α → StateM σ β}
    (hm : ∀ a a', g a = g a' → Twin I (Alike f) (m a) (m' a')) (l l' : List α) (hl : l.map g = l'.map g) :
    Twin I (Alike (List.map f)) (l.mapM m) (l'.mapM m') := by
  induction l generalizing l' with
  | nil =>
    cases l' with
    | nil => exact twin_pure rfl
    | cons a' l' => cases hl
  | cons a l ih =>
    cases l' with
    | nil => cases hl
    | cons a' l' =>
      obtain ⟨ha, hrest⟩ := List.cons.inj hl
      rw [List.mapM_cons, List.mapM_cons]
      apply (hm a a' ha).bind
      intro b b' hb
      apply (ih l' hrest).bind
      intro bs bs' hbs
      apply twin_pure
      change f b :: bs.map f = f b' :: bs'.map f
      rw [hb, hbs]

end States

/-! ## Actions -/

/-- Both fail, or both return related results. -/
inductive OkRel (R : α → α' → Prop) : Except ε α → Except ε α' → Prop where
  | ok {a : α} {a' : α'} : R a a' → OkRel R (.ok a) (.ok a')
  | error (e e' : ε) : OkRel R (.error e) (.error e')

theorem okRel_refl (r : Except ε α) : OkRel Eq r r := by
  cases r with
  | ok a => exact .ok rfl
  | error e => exact .error e e

theorem okRel_alike {f : α → β} {r r' : Except ε α} (h : r.toOption.map f = r'.toOption.map f) :
    OkRel (Alike f) r r' := by
  cases r with
  | error e =>
    cases r' with
    | error e' => exact .error e e'
    | ok a' => cases h
  | ok a =>
    cases r' with
    | error e' => cases h
    | ok a' => exact .ok (Option.some.inj h)

namespace Act

def Twin (I : σ → Prop) (R : α → α' → Prop) (m : Act σ ε α) (m' : Act σ ε α') : Prop :=
  ∀ s s', I s → I s' → OkRel R (m s).1 (m' s').1 ∧ I (m s).2 ∧ I (m' s').2

variable {I : σ → Prop} {R : α → α' → Prop} {S : β → β' → Prop}

theorem twin_pure {a : α} {a' : α'} (h : R a a') : Twin I R (pure a : Act σ ε α) (pure a') :=
  fun _ _ hs hs' => ⟨.ok h, hs, hs'⟩

theorem twin_fail (e e' : ε) : Twin I R (fail e) (fail e') := fun _ _ hs hs' => ⟨.error e e', hs, hs'⟩

theorem twin_ofExcept {r : Except ε α} {r' : Except ε α'} (h : OkRel R r r') : Twin I R (ofExcept r) (ofExcept r') :=
  fun _ _ hs hs' => ⟨h, hs, hs'⟩

theorem Twin.bind {m : Act σ ε α} {m' : Act σ ε α'} {f : α → Act σ ε β} {f' : α' → Act σ ε β'}
    (hm : Twin I R m m') (hf : ∀ a a', R a a' → Twin I S (f a) (f' a')) : Twin I S (m >>= f) (m' >>= f') := by
  intro s s' hs hs'
  obtain ⟨hr, h₁, h₁'⟩ := hm s s' hs hs'
  change OkRel S (Act.bind m f s).1 (Act.bind m' f' s').1 ∧ I (Act.bind m f s).2 ∧ I (Act.bind m' f' s').2
  unfold Act.bind
  cases hm₁ : m s with
  | mk r t =>
    cases hm₂ : m' s' with
    | mk r' t' =>
      rw [hm₁] at hr h₁
      rw [hm₂] at hr h₁'
      cases hr with
      | ok h => exact hf _ _ h _ _ h₁ h₁'
      | error e e' => exact ⟨.error e e', h₁, h₁'⟩

end Act

end Symphony.Lib
