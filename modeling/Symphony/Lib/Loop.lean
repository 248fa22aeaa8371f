import Mathlib.Data.List.Basic
/-!
# Loops over a list

A loop that sees each item with its position, the state it has before each item,
and the rules for reasoning about it: an invariant at every position, and a map
whose keys are each written by one deciding item.
-/

namespace Symphony.Lib

variable {σ α κ ν : Type}

/-- `for (i, a) in list.iter().enumerate()`, from position `i` on. -/
def loop (step : σ → Nat → α → σ) : Nat → σ → List α → σ
  | _, s, [] => s
  | i, s, a :: l => loop step (i + 1) (step s i a) l

/-- The state before the item at position `n`. -/
def before (step : σ → Nat → α → σ) (s : σ) (l : List α) (n : Nat) : σ := loop step 0 s (l.take n)

variable {step : σ → Nat → α → σ} {s : σ} {l : List α}

theorem loop_append (i : Nat) (s : σ) (l l' : List α) :
    loop step i s (l ++ l') = loop step (i + l.length) (loop step i s l) l' := by
  induction l generalizing i s with
  | nil => rfl
  | cons a l ih =>
    rw [List.cons_append, loop, loop, ih, List.length_cons]
    congr 1
    omega

theorem before_succ {n : Nat} {a : α} (h : l[n]? = some a) :
    before step s l (n + 1) = step (before step s l n) n a := by
  have hn : n < l.length := (List.getElem?_eq_some_iff.1 h).1
  unfold before
  rw [List.take_add_one, h, loop_append, List.length_take, Nat.min_eq_left (Nat.le_of_lt hn), Nat.zero_add]
  rfl

theorem before_length : before step s l l.length = loop step 0 s l := by
  unfold before
  rw [List.take_length]

/-- What holds before the first item and is kept by every item holds before every item
and at the end. -/
theorem before_inv (I : Nat → σ → Prop) (h0 : I 0 s)
    (hs : ∀ n a, l[n]? = some a → I n (before step s l n) → I (n + 1) (step (before step s l n) n a)) :
    ∀ n, n ≤ l.length → I n (before step s l n) := by
  intro n
  induction n with
  | zero =>
    intro _
    exact h0
  | succ n ih =>
    intro hn
    have ha : l[n]? = some (l.get ⟨n, hn⟩) := List.getElem?_eq_getElem hn
    rw [before_succ ha]
    exact hs n _ ha (ih (by omega))

theorem loop_inv (I : Nat → σ → Prop) (h0 : I 0 s)
    (hs : ∀ n a, l[n]? = some a → I n (before step s l n) → I (n + 1) (step (before step s l n) n a)) :
    I l.length (loop step 0 s l) := by
  rw [← before_length]
  exact before_inv I h0 hs l.length (Nat.le_refl _)

/-- A fold: what holds of the items done so far and of the state is kept by every item. -/
theorem foldl_inv {f : σ → α → σ} (I : List α → σ → Prop) (h0 : I [] s)
    (hs : ∀ done s a, a ∈ l → I done s → I (done ++ [a]) (f s a)) : I l (l.foldl f s) := by
  suffices h : ∀ rest done s, (∀ a ∈ rest, a ∈ l) → I done s → I (done ++ rest) (rest.foldl f s) from
    h l [] s (fun _ ha => ha) h0
  intro rest
  induction rest with
  | nil =>
    intro done s _ h
    rwa [List.append_nil]
  | cons a rest ih =>
    intro done s hl h
    have hrest := ih (done ++ [a]) (f s a) (fun b hb => hl b (List.mem_cons_of_mem a hb))
      (hs done s a (hl a List.mem_cons_self) h)
    rwa [List.append_assoc] at hrest

section Written

variable (view : σ → κ → Option ν) (decider : κ → Option Nat) (out : σ → α → ν)

/-- A map that starts empty, where the item at position `n` writes the keys it decides
and changes nothing else: before position `n`, a key decided earlier has what its
decider wrote, and every other key is empty. -/
theorem written_before (h0 : ∀ k, view s k = none)
    (hs : ∀ n a, l[n]? = some a →
      (∀ k, (∀ m, decider k = some m → n ≤ m) → view (before step s l n) k = none) →
      ∀ k, view (step (before step s l n) n a) k =
        if decider k = some n then some (out (before step s l n) a) else view (before step s l n) k) :
    ∀ n, n ≤ l.length → ∀ k, view (before step s l n) k =
      (decider k).bind fun m => if m < n then l[m]?.map (out (before step s l m)) else none := by
  apply before_inv (fun n t => ∀ k, view t k =
    (decider k).bind fun m => if m < n then l[m]?.map (out (before step s l m)) else none)
  · intro k
    cases decider k <;> simp [h0]
  · intro n a ha ih k
    have hblank : ∀ k, (∀ m, decider k = some m → n ≤ m) → view (before step s l n) k = none := by
      intro k hk
      rw [ih k]
      cases hd : decider k with
      | none => rfl
      | some m => simp [Nat.not_lt.2 (hk m hd)]
    rw [hs n a ha hblank k, ih k]
    cases hd : decider k with
    | none => simp
    | some m =>
      by_cases hm : m = n
      · subst hm
        simp [ha]
      · have hlt : m < n + 1 ↔ m < n := by omega
        rw [if_neg fun e => hm (Option.some.inj e), Option.bind_some, Option.bind_some]
        simp only [hlt]

/-- At the end, each key has what its decider wrote. -/
theorem written_once (h0 : ∀ k, view s k = none) (hlt : ∀ k n, decider k = some n → n < l.length)
    (hs : ∀ n a, l[n]? = some a →
      (∀ k, (∀ m, decider k = some m → n ≤ m) → view (before step s l n) k = none) →
      ∀ k, view (step (before step s l n) n a) k =
        if decider k = some n then some (out (before step s l n) a) else view (before step s l n) k) (k : κ) :
    view (loop step 0 s l) k = (decider k).bind fun n => l[n]?.map (out (before step s l n)) := by
  rw [← before_length, written_before view decider out h0 hs l.length (Nat.le_refl _) k]
  cases hd : decider k with
  | none => rfl
  | some m => simp [hlt k m hd]

end Written

/-! ## The last position -/

/-- The last position that passes `p`. -/
def lastIdx? (p : α → Bool) : List α → Option Nat
  | [] => none
  | a :: l =>
    match lastIdx? p l with
    | some i => some (i + 1)
    | none => if p a then some 0 else none

variable {p : α → Bool}

theorem lastIdx?_concat (l : List α) (a : α) :
    lastIdx? p (l ++ [a]) = if p a then some l.length else lastIdx? p l := by
  induction l with
  | nil => rfl
  | cons b l ih =>
    rw [List.cons_append, lastIdx?, ih, lastIdx?]
    by_cases ha : p a
    · simp [ha]
    · simp [ha]

theorem lastIdx?_map {β : Type} (f : α → β) (p : β → Bool) (l : List α) :
    lastIdx? p (l.map f) = lastIdx? (p ∘ f) l := by
  induction l with
  | nil => rfl
  | cons a l ih => rw [List.map_cons, lastIdx?, lastIdx?, ih, Function.comp_apply]

theorem lastIdx?_eq_none {l : List α} (h : lastIdx? p l = none) : ∀ a ∈ l, p a = false := by
  induction l with
  | nil => simp
  | cons b l ih =>
    rw [lastIdx?] at h
    split at h
    · cases h
    · rename_i hl
      split at h
      · cases h
      · rename_i hb
        intro a ha
        rcases List.mem_cons.1 ha with rfl | ha
        · simpa using hb
        · exact ih hl a ha

theorem lastIdx?_eq_some {l : List α} {i : Nat} (h : lastIdx? p l = some i) : ∃ a, l[i]? = some a ∧ p a = true := by
  induction l generalizing i with
  | nil => cases h
  | cons b l ih =>
    rw [lastIdx?] at h
    split at h
    · rename_i j hl
      cases h
      simpa using ih hl
    · split at h
      · rename_i hb
        cases h
        exact ⟨b, rfl, hb⟩
      · cases h

end Symphony.Lib
