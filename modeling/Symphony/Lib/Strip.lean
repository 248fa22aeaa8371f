import Mathlib.Data.List.DropRight
/-!
# Stripping both ends of a list

`strip p` drops the elements `p` holds of from both ends. Stripping less first
changes nothing, and what stands between separators is stripped piece by piece.
-/

namespace Symphony.Lib

variable {α : Type} {p q : α → Bool}

def strip (p : α → Bool) (v : List α) : List α := (v.dropWhile p).rdropWhile p

theorem strip_of_free {v : List α} (h : ∀ b ∈ v, p b = false) : strip p v = v := by
  have hd : v.dropWhile p = v := by
    cases v with
    | nil => rfl
    | cons b t => rw [List.dropWhile_cons_of_neg (by simp [h b (by simp)])]
  rw [strip, hd, List.rdropWhile_eq_self_iff]
  intro hne
  simp [h _ (List.getLast_mem hne)]

theorem dropWhile_stop (a : List α) {c : α} (hc : p c = false) (b : List α) :
    (a ++ c :: b).dropWhile p = a.dropWhile p ++ c :: b := by
  induction a with
  | nil => simp [hc]
  | cons x a ih =>
    rw [List.cons_append, List.dropWhile_cons, List.dropWhile_cons, ih]
    split <;> rfl

theorem rdropWhile_stop (a : List α) {c : α} (hc : p c = false) (b : List α) :
    (a ++ c :: b).rdropWhile p = a ++ c :: b.rdropWhile p := by
  have h : (a ++ c :: b).reverse = b.reverse ++ c :: a.reverse := by simp
  rw [List.rdropWhile, h, dropWhile_stop _ hc, List.rdropWhile]
  simp

theorem strip_comm (v : List α) : strip p v = (v.rdropWhile p).dropWhile p := by
  have hv : v.takeWhile p ++ v.dropWhile p = v := List.takeWhile_append_dropWhile
  cases hd : v.dropWhile p with
  | nil =>
    have hall : ∀ b ∈ v, p b = true := List.dropWhile_eq_nil_iff.1 hd
    have hr : v.rdropWhile p = [] := List.rdropWhile_eq_nil_iff.2 hall
    rw [strip, hd, hr]
    rfl
  | cons c t =>
    have hc : p c = false := by
      have := List.head?_dropWhile_not p v
      rw [hd] at this
      simpa using this
    rw [hd] at hv
    have ht : (v.takeWhile p).dropWhile p = [] :=
      List.dropWhile_eq_nil_iff.2 fun b hb => List.mem_takeWhile_imp hb
    rw [strip, hd, ← hv, rdropWhile_stop _ hc, dropWhile_stop _ hc, ht]
    exact rdropWhile_stop [] hc t

variable (hpq : ∀ b, p b = true → q b = true)

include hpq

theorem dropWhile_dropWhile (v : List α) :
    (v.dropWhile p).dropWhile q = v.dropWhile q := by
  induction v with
  | nil => rfl
  | cons b t ih =>
    by_cases hb : p b = true
    · rw [List.dropWhile_cons_of_pos hb, List.dropWhile_cons_of_pos (hpq b hb), ih]
    · rw [List.dropWhile_cons_of_neg hb]

theorem rdropWhile_rdropWhile (v : List α) :
    (v.rdropWhile p).rdropWhile q = v.rdropWhile q := by
  simp only [List.rdropWhile, List.reverse_reverse, dropWhile_dropWhile hpq]

theorem strip_rdropWhile (v : List α) :
    strip q (v.rdropWhile p) = strip q v := by
  rw [strip_comm, strip_comm, rdropWhile_rdropWhile hpq]

theorem strip_strip (v : List α) : strip q (strip p v) = strip q v :=
  calc strip q (strip p v) = strip q (v.dropWhile p) := strip_rdropWhile hpq _
    _ = strip q v := by rw [strip, dropWhile_dropWhile hpq, strip]

end Symphony.Lib
