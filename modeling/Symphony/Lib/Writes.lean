import Mathlib.Data.List.Find
import Mathlib.Data.List.Forall2
/-!
# Writes to places of a list

A sequence of writes, each to one place. Where a write overwrites what earlier writes to
the place left, each place ends up with its last write.
-/

namespace Symphony.Lib

/-- The last element that passes `p`. -/
def last? {α : Type} (p : α → Bool) (l : List α) : Option α := l.reverse.find? p

theorem last?_cons {α : Type} (p : α → Bool) (a : α) (l : List α) :
    last? p (a :: l) = (last? p l).or (if p a then some a else none) := by
  unfold last?
  rw [List.reverse_cons, List.find?_append, List.find?_singleton]

section Writes

variable {σ ν : Type} (put : ν → σ → σ)

/-- One write: `put v` at place `i`. -/
def write (l : List σ) (w : Nat × ν) : List σ := l.modify w.1 (put w.2)

/-- The last value written to place `i`. -/
def lastWrite (i : Nat) (ws : List (Nat × ν)) : Option ν := (last? (fun w => w.1 = i) ws).map (·.2)

theorem lastWrite_cons (i : Nat) (w : Nat × ν) (ws : List (Nat × ν)) :
    lastWrite i (w :: ws) = (lastWrite i ws).or (if w.1 = i then some w.2 else none) := by
  unfold lastWrite
  rw [last?_cons]
  cases last? (fun w => decide (w.1 = i)) ws with
  | some u => rfl
  | none => by_cases h : w.1 = i <;> simp [h]

theorem getElem?_write (l : List σ) (w : Nat × ν) (i : Nat) :
    (write put l w)[i]? = l[i]?.map fun s => if w.1 = i then put w.2 s else s := by
  rw [write, List.getElem?_modify]
  rfl

theorem length_writes (ws : List (Nat × ν)) (l : List σ) : (ws.foldl (write put) l).length = l.length := by
  induction ws generalizing l with
  | nil => rfl
  | cons w ws ih => rw [List.foldl_cons, ih, write, List.length_modify]

variable {put} in
/-- After the writes, a place has its last write on top of what it had before. -/
theorem getElem?_writes (hput : ∀ v v' s, put v (put v' s) = put v s) (ws : List (Nat × ν)) (l : List σ) (i : Nat) :
    (ws.foldl (write put) l)[i]? = l[i]?.map fun s => (lastWrite i ws).elim s fun v => put v s := by
  induction ws generalizing l with
  | nil =>
    change l[i]? = l[i]?.map fun s => s
    rw [Option.map_id']
  | cons w ws ih =>
    rw [List.foldl_cons, ih, lastWrite_cons, getElem?_write, Option.map_map]
    congr 1
    funext s
    by_cases h : w.1 = i
    · cases lastWrite i ws <;> simp [h, hput]
    · cases lastWrite i ws <;> simp [h]

end Writes

/-! ## Moving one item on -/

/-- An item of a list with one item set is that one, or another item of the list. -/
theorem getElem?_set_cases {α : Type} {l : List α} {i j : Nat} {a b : α} (h : (l.set i a)[j]? = some b) :
    (j = i ∧ b = a) ∨ (j ≠ i ∧ l[j]? = some b) := by
  rw [List.getElem?_set] at h
  split at h
  · next hij =>
    split at h
    · exact .inl ⟨hij.symm, (Option.some.inj h).symm⟩
    · cases h
  · next hij => exact .inr ⟨Ne.symm hij, h⟩

/-- An item of a list with one more item at the end is of the list, or that one. -/
theorem getElem?_concat_cases {α : Type} {l : List α} {i : Nat} {a b : α} (h : (l ++ [a])[i]? = some b) :
    l[i]? = some b ∨ (i = l.length ∧ b = a) := by
  rw [List.getElem?_append] at h
  split at h
  · exact .inl h
  · next hi =>
    rw [List.getElem?_singleton] at h
    split at h
    · exact .inr ⟨by omega, (Option.some.inj h).symm⟩
    · cases h

/-- Changing one item changes each count by what it was and is. -/
theorem countP_move {α : Type} {l : List α} {i : Nat} {a b : α} (p : α → Bool) (h : l[i]? = some a) :
    (l.set i b).countP p + (p a).toNat = l.countP p + (p b).toNat := by
  induction l generalizing i with
  | nil => simp at h
  | cons c l ih =>
    cases i with
    | zero =>
      rw [List.getElem?_cons_zero] at h
      cases h
      rw [List.set_cons_zero, List.countP_cons, List.countP_cons]
      cases p a <;> cases p b <;> simp
    | succ i =>
      rw [List.getElem?_cons_succ] at h
      have := ih h
      rw [List.set_cons_succ, List.countP_cons, List.countP_cons]
      omega

/-! ## Results of a list -/

section Results

variable {α β ε : Type} {f : α → Except ε β}

theorem forall₂_of_mapM {l : List α} {l' : List β} (h : l.mapM f = .ok l') :
    List.Forall₂ (fun a b => f a = .ok b) l l' := by
  induction l generalizing l' with
  | nil =>
    cases h
    exact .nil
  | cons a l ih =>
    rw [List.mapM_cons] at h
    cases ha : f a with
    | error e =>
      rw [ha] at h
      cases h
    | ok b =>
      cases hl : l.mapM f with
      | error e =>
        rw [ha, hl] at h
        cases h
      | ok bs =>
        rw [ha, hl] at h
        cases h
        exact .cons ha (ih hl)

/-- What each result keeps of its item, the results keep of the list. -/
theorem map_eq_of_mapM {γ : Type} {g : α → γ} {g' : β → γ} (hg : ∀ a b, f a = .ok b → g' b = g a) {l : List α}
    {l' : List β} (h : l.mapM f = .ok l') : l'.map g' = l.map g := by
  replace h := forall₂_of_mapM h
  induction h with
  | nil => rfl
  | cons hb _ ih => rw [List.map_cons, List.map_cons, ih, hg _ _ hb]

theorem mapM_ok {l : List α} (h : ∀ a ∈ l, ∃ b, f a = .ok b) : ∃ l', l.mapM f = .ok l' := by
  induction l with
  | nil => exact ⟨[], rfl⟩
  | cons a l ih =>
    obtain ⟨b, hb⟩ := h a List.mem_cons_self
    obtain ⟨l', hl'⟩ := ih fun a ha => h a (List.mem_cons_of_mem _ ha)
    refine ⟨b :: l', ?_⟩
    rw [List.mapM_cons, hb, hl']
    rfl

theorem bind_ok {x : Except ε α} {b : β} (h : x >>= f = .ok b) : ∃ a, x = .ok a ∧ f a = .ok b := by
  cases x with
  | error e => cases h
  | ok a => exact ⟨a, rfl, h⟩

theorem map_ok {g : α → β} {x : Except ε α} {b : β} (h : x.map g = .ok b) : ∃ a, x = .ok a ∧ g a = b := by
  cases x with
  | error e => cases h
  | ok a => exact ⟨a, rfl, Except.ok.inj h⟩

end Results

end Symphony.Lib
