import Symphony.Protection.State
/-!
# The entries of the table

What each operation does to what one can see of an address's entry. An address without
an entry is seen as it would be with a new one.
-/

namespace Symphony.Protection

open Lib (Table)

/-- Entries are allocated, and no two addresses share one. -/
structure Owned (st : ProtectionState) : Prop where
  allocated : ∀ {ip id}, st.ip_table.lookup ip = some id → id < st.next
  unshared : ∀ {ip ip' id}, st.ip_table.lookup ip = some id → st.ip_table.lookup ip' = some id → ip = ip'

/-- What `f` sees in the entry of `ip`, or `d` when there is none. -/
def view {α : Type} (f : IpState → α) (d : α) (st : ProtectionState) (ip : IpAddr) : α :=
  (st.ip_table.lookup ip).elim d fun id => f (st.states id)

section View

variable {α : Type} {f : IpState → α} {d : α} {st st₁ : ProtectionState} {ip : IpAddr} {id : Nat}

theorem view_some (h : st.ip_table.lookup ip = some id) : view f d st ip = f (st.states id) := by
  simp [view, h]

theorem view_none (h : st.ip_table.lookup ip = none) : view f d st ip = d := by
  simp [view, h]

theorem Owned.fresh (cfg : ProtectionConfig) : Owned (.fresh cfg) where
  allocated h := by cases h
  unshared h := by cases h

/-! ## Looking an entry up -/

variable (ip) in
theorem Owned.create (h : Owned st) (s : IpState) :
    Owned { st with
      ip_table := st.ip_table.insert ip st.next
      states := Function.update st.states st.next s
      next := st.next + 1 } := by
  constructor
  · intro ip' id hl
    rcases Table.lookup_insert_cases hl with ⟨-, rfl⟩ | hold
    · exact Nat.lt_succ_self _
    · exact Nat.lt_succ_of_lt (h.allocated hold)
  · -- the new index is above every allocated one
    intro ip₁ ip₂ id h₁ h₂
    rcases Table.lookup_insert_cases h₁ with ⟨rfl, rfl⟩ | hold₁
    · rcases Table.lookup_insert_cases h₂ with ⟨rfl, -⟩ | hold₂
      · rfl
      · exact absurd (h.allocated hold₂) (Nat.lt_irrefl _)
    · rcases Table.lookup_insert_cases h₂ with ⟨rfl, rfl⟩ | hold₂
      · exact absurd (h.allocated hold₁) (Nat.lt_irrefl _)
      · exact h.unshared hold₁ hold₂

variable {burst_fp sustained_burst_fp now : Nat}

theorem Owned.get_or_create (h : Owned st)
    (hg : get_or_create_state st ip burst_fp sustained_burst_fp now = (id, st₁)) :
    Owned st₁ ∧ st₁.config = st.config ∧ st₁.ip_table.lookup ip = some id := by
  unfold get_or_create_state at hg
  split at hg
  · rename_i hl
    cases hg
    exact ⟨h, rfl, hl⟩
  · cases hg
    exact ⟨h.create ip _, rfl, AList.lookup_insert _⟩

/-- The entry a check looks at: the address's own as it was, or a new one. -/
theorem get_or_create_entry (hg : get_or_create_state st ip burst_fp sustained_burst_fp now = (id, st₁)) :
    (st.ip_table.lookup ip = some id ∧ st₁.states id = st.states id) ∨
      (st.ip_table.lookup ip = none ∧ st₁.states id = IpState.new burst_fp sustained_burst_fp now) := by
  unfold get_or_create_state at hg
  split at hg
  · rename_i hl
    cases hg
    exact .inl ⟨hl, rfl⟩
  · rename_i hl
    cases hg
    exact .inr ⟨hl, Function.update_self ..⟩

/-- The entry a check of `ip` at reading `now` looks at. -/
def entryAt (st : ProtectionState) (ip : IpAddr) (now : Nat) : IpState :=
  (st.ip_table.lookup ip).elim (IpState.new st.config.burst_fp st.config.sustained_burst_fp now) st.states

theorem entryAt_eq (hg : get_or_create_state st ip st.config.burst_fp st.config.sustained_burst_fp now = (id, st₁)) :
    entryAt st ip now = st₁.states id := by
  unfold entryAt
  rcases get_or_create_entry hg with ⟨hl, he⟩ | ⟨hl, he⟩
  · rw [hl, he]
    rfl
  · rw [hl, he]
    rfl

theorem Owned.other_entry (h : Owned st) (hg : get_or_create_state st ip burst_fp sustained_burst_fp now = (id, st₁))
    {ip' : IpAddr} {id' : Nat} (hip : ip' ≠ ip) (hl' : st₁.ip_table.lookup ip' = some id') :
    st.ip_table.lookup ip' = some id' ∧ id' ≠ id ∧ st₁.states id' = st.states id' := by
  unfold get_or_create_state at hg
  split at hg
  · rename_i hl
    cases hg
    refine ⟨hl', ?_, rfl⟩
    rintro rfl
    exact hip (h.unshared hl' hl)
  · cases hg
    rw [AList.lookup_insert_ne hip] at hl'
    have hne : id' ≠ st.next := Nat.ne_of_lt (h.allocated hl')
    exact ⟨hl', hne, Function.update_of_ne hne ..⟩

/-- Looking up an entry, or creating it, changes nothing one sees. -/
theorem view_get_or_create (h : Owned st) (hg : get_or_create_state st ip burst_fp sustained_burst_fp now = (id, st₁))
    (hd : f (IpState.new burst_fp sustained_burst_fp now) = d) (ip' : IpAddr) :
    view f d st₁ ip' = view f d st ip' := by
  unfold get_or_create_state at hg
  split at hg
  · cases hg
    rfl
  · rename_i hl
    cases hg
    by_cases hip : ip' = ip
    · subst hip
      rw [view_some (AList.lookup_insert _), view_none hl]
      simpa using hd
    · unfold view
      rw [AList.lookup_insert_ne hip]
      cases hl' : st.ip_table.lookup ip' with
      | none => rfl
      | some id' =>
        have hne : id' ≠ st.next := Nat.ne_of_lt (h.allocated hl')
        simp only [Option.elim_some, Function.update_of_ne hne]

/-! ## Writing, releasing and evicting -/

theorem Owned.setState (h : Owned st) (id : Nat) (s : IpState) : Owned (st.setState id s) := ⟨h.allocated, h.unshared⟩

/-- Writing an address's entry is seen at that address only. -/
theorem view_setState (h : Owned st) (hl : st.ip_table.lookup ip = some id) (s : IpState) (ip' : IpAddr) :
    view f d (st.setState id s) ip' = if ip' = ip then f s else view f d st ip' := by
  by_cases hip : ip' = ip
  · subst hip
    have hl' : (st.setState id s).ip_table.lookup ip' = some id := hl
    rw [if_pos rfl, view_some hl']
    simp [ProtectionState.setState]
  · rw [if_neg hip]
    unfold view ProtectionState.setState
    cases hl' : st.ip_table.lookup ip' with
    | none => rfl
    | some id' =>
      have hne : id' ≠ id := by
        intro e
        subst e
        exact hip (h.unshared hl' hl)
      simp only [Option.elim_some, Function.update_of_ne hne]

/-- A release is not seen where it leaves `f` as it was: it may even name an entry
already evicted. -/
theorem view_release (hf : ∀ s, f (IpState.release s) = f s) (id : Nat) (ip : IpAddr) :
    view f d (release st id) ip = view f d st ip := by
  unfold view release ProtectionState.setState
  cases st.ip_table.lookup ip with
  | none => rfl
  | some id' =>
    by_cases e : id' = id
    · subst e
      simp only [Option.elim_some, Function.update_self]
      exact hf _
    · simp only [Option.elim_some, Function.update_of_ne e]

theorem lookup_evict_at (now : Nat) {round : ℚ → ℚ} (h : (evict_at st now round).ip_table.lookup ip = some id) :
    st.ip_table.lookup ip = some id := by
  rw [evict_at, Table.lookup_retain, Option.filter_eq_some_iff] at h
  exact h.1

theorem Owned.evict (h : Owned st) (now : Nat) {round : ℚ → ℚ} : Owned (evict_at st now round) where
  allocated hl := h.allocated (lookup_evict_at now hl)
  unshared h₁ h₂ := h.unshared (lookup_evict_at now h₁) (lookup_evict_at now h₂)

/-- An eviction is seen only where it removes an entry it need not keep. -/
theorem view_evict (st : ProtectionState) (now : Nat) (ip : IpAddr) :
    view f d (evict_at st now) ip = view f d st ip ∨
      ∃ id, st.ip_table.lookup ip = some id ∧ retained st.config now (st.states id) = false ∧
        view f d (evict_at st now) ip = d := by
  cases hl : st.ip_table.lookup ip with
  | none =>
    left
    have hn : (evict_at st now).ip_table.lookup ip = none := by simp [evict_at, Table.lookup_retain, hl]
    rw [view_none hl, view_none hn]
  | some id =>
    cases hr : retained st.config now (st.states id) with
    | true =>
      left
      have hn : (evict_at st now).ip_table.lookup ip = some id := by simp [evict_at, Table.lookup_retain, hl, hr]
      rw [view_some hl, view_some hn]
      rfl
    | false =>
      right
      have hn : (evict_at st now).ip_table.lookup ip = none := by simp [evict_at, Table.lookup_retain, hl, hr]
      exact ⟨id, rfl, hr, view_none hn⟩

end View

end Symphony.Protection
