import Mathlib.Data.List.Nodup
/-!
# Grouping a list by a key

`firsts key l` keeps the first item of each key, in order. The groups of a list are, for
each of those, the items with its key.
-/

namespace Symphony.Lib

variable {α κ : Type} [DecidableEq κ] (key : α → κ)

/-- The first item of each key. -/
def firsts : List α → List α
  | [] => []
  | a :: l => a :: (firsts l).filter fun b => key b ≠ key a

theorem mem_of_mem_firsts {l : List α} {a : α} (h : a ∈ firsts key l) : a ∈ l := by
  induction l with
  | nil => exact h
  | cons b l ih =>
    rcases List.mem_cons.1 h with rfl | h
    · exact List.mem_cons_self
    · exact List.mem_cons_of_mem _ (ih (List.mem_filter.1 h).1)

theorem nodup_firsts (l : List α) : ((firsts key l).map key).Nodup := by
  induction l with
  | nil => exact List.nodup_nil
  | cons a l ih =>
    rw [firsts, List.map_cons, List.nodup_cons]
    constructor
    · intro h
      obtain ⟨b, hb, hkey⟩ := List.mem_map.1 h
      simpa [hkey] using (List.mem_filter.1 hb).2
    · exact ih.sublist (List.filter_sublist.map key)

theorem exists_mem_firsts {l : List α} {a : α} (h : a ∈ l) : ∃ b ∈ firsts key l, key b = key a := by
  induction l with
  | nil => cases h
  | cons x l ih =>
    by_cases hx : key x = key a
    · exact ⟨x, List.mem_cons_self, hx⟩
    · rcases List.mem_cons.1 h with rfl | h
      · exact absurd rfl hx
      · obtain ⟨b, hb, hkey⟩ := ih h
        refine ⟨b, List.mem_cons_of_mem _ (List.mem_filter.2 ⟨hb, ?_⟩), hkey⟩
        rw [hkey]
        exact decide_eq_true fun h => hx h.symm

/-- A further item is a first one unless its key was there. -/
theorem firsts_concat (l : List α) (a : α) :
    firsts key (l ++ [a]) = firsts key l ++ if ∃ b ∈ l, key b = key a then [] else [a] := by
  induction l with
  | nil => simp [firsts]
  | cons x l ih =>
    rw [List.cons_append, firsts, firsts, ih, List.filter_append, List.cons_append]
    by_cases hx : key x = key a
    · by_cases hl : ∃ b ∈ l, key b = key a
      · simp [hl]
      · simp [hl, hx]
    · by_cases hl : ∃ b ∈ l, key b = key a
      · simp [hl]
      · have hx' : key a ≠ key x := fun h => hx h.symm
        simp [hl, hx, hx']

end Symphony.Lib
