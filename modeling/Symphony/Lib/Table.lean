import Mathlib.Data.List.AList
/-!
# Tables

Mathlib's association lists with distinct keys, and the operation a hash map
adds to them: keeping the entries that pass a test.
-/

namespace Symphony.Lib

/-- A finite map from keys to values. -/
abbrev Table (κ : Type) (ν : Type) := AList fun _ : κ => ν

namespace Table

variable {κ ν : Type} [DecidableEq κ]

/-- Keep the entries whose value passes `p`. -/
def retain (p : ν → Bool) (t : Table κ ν) : Table κ ν :=
  ⟨t.entries.filter fun e => p e.2, t.nodupKeys.sublist List.filter_sublist⟩

/-- Keep the entries that pass `p`. -/
def keep (p : κ → ν → Bool) (t : Table κ ν) : Table κ ν :=
  ⟨t.entries.filter fun e => p e.1 e.2, t.nodupKeys.sublist List.filter_sublist⟩

theorem lookup_keep (p : κ → ν → Bool) (t : Table κ ν) (k : κ) :
    (keep p t).lookup k = (t.lookup k).filter (p k) := by
  apply Option.ext
  intro v
  have h1 : v ∈ (keep p t).lookup k ↔ (⟨k, v⟩ : Sigma fun _ : κ => ν) ∈ (keep p t).entries :=
    AList.mem_lookup_iff
  have h2 : v ∈ t.lookup k ↔ (⟨k, v⟩ : Sigma fun _ : κ => ν) ∈ t.entries := AList.mem_lookup_iff
  rw [Option.mem_def] at h1 h2
  rw [h1, Option.filter_eq_some_iff, h2, keep, List.mem_filter]

theorem lookup_retain (p : ν → Bool) (t : Table κ ν) (k : κ) :
    (retain p t).lookup k = (t.lookup k).filter p := lookup_keep (fun _ => p) t k

/-- An entry after an insert is the inserted one, or was there before. -/
theorem lookup_insert_cases {t : Table κ ν} {k k' : κ} {v v' : ν} (h : (t.insert k v).lookup k' = some v') :
    (k' = k ∧ v' = v) ∨ t.lookup k' = some v' := by
  by_cases hk : k' = k
  · subst hk
    rw [AList.lookup_insert] at h
    exact .inl ⟨rfl, (Option.some.inj h).symm⟩
  · rw [AList.lookup_insert_ne hk] at h
    exact .inr h

/-- An entry after an erase was there before, under another key. -/
theorem lookup_erase_cases {t : Table κ ν} {k k' : κ} {v : ν} (h : (t.erase k).lookup k' = some v) :
    k' ≠ k ∧ t.lookup k' = some v := by
  have hk : k' ≠ k := by
    rintro rfl
    rw [AList.lookup_erase] at h
    cases h
  rw [AList.lookup_erase_ne hk] at h
  exact ⟨hk, h⟩

end Table

end Symphony.Lib
