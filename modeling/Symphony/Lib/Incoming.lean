/-!
# Reading a stream under a deadline

What arrives on a stream: items, each with the time it arrives at, and when the other
side closes, if it does. A reader that wants `n` items gets them if all have arrived
by the deadline.
-/

namespace Symphony.Lib

structure Incoming (β : Type) where
  arriving : List (Nat × β)
  closed : Option Nat

/-- Why a read failed: the stream ended first, or the deadline passed. -/
inductive ReadError where
  | ended
  | late
  deriving DecidableEq, Repr

namespace Incoming

variable {β : Type}

/-- Take the next `n` items. -/
def readExact (limit n : Nat) (s : Incoming β) : Except ReadError (List β × Incoming β) :=
  if (s.arriving.take n).any fun b => limit < b.1 then .error .late
  else if n ≤ s.arriving.length then .ok ((s.arriving.take n).map (·.2), { s with arriving := s.arriving.drop n })
  else if s.closed.any (· ≤ limit) then .error .ended
  else .error .late

/-- The stream begins with `l`, which arrives by the deadline, and goes on as `rest`. -/
def Begins (limit : Nat) (l : List β) (s rest : Incoming β) : Prop :=
  ∃ sent : List (Nat × β), sent.map (·.2) = l ∧ (∀ b ∈ sent, b.1 ≤ limit) ∧
    s = ⟨sent ++ rest.arriving, rest.closed⟩

variable {limit : Nat} {l l' : List β} {s rest : Incoming β}

theorem Begins.nil_iff : Begins limit [] s rest ↔ s = rest := by
  constructor
  · rintro ⟨sent, hl, -, rfl⟩
    rw [List.map_eq_nil_iff.1 hl]
    rfl
  · rintro rfl
    exact ⟨[], rfl, by simp, rfl⟩

theorem Begins.split (h : Begins limit (l ++ l') s rest) : ∃ mid, Begins limit l s mid ∧ Begins limit l' mid rest := by
  obtain ⟨sent, hl, htime, rfl⟩ := h
  obtain ⟨a, b, rfl, ha, hb⟩ := List.map_eq_append_iff.1 hl
  refine ⟨⟨b ++ rest.arriving, rest.closed⟩, ⟨a, ha, ?_, ?_⟩, ⟨b, hb, ?_, rfl⟩⟩
  · exact fun x hx => htime x (List.mem_append_left _ hx)
  · simp
  · exact fun x hx => htime x (List.mem_append_right _ hx)

theorem Begins.append {mid : Incoming β} (h : Begins limit l s mid) (h' : Begins limit l' mid rest) :
    Begins limit (l ++ l') s rest := by
  obtain ⟨a, rfl, ha, rfl⟩ := h
  obtain ⟨b, rfl, hb, rfl⟩ := h'
  refine ⟨a ++ b, by simp, ?_, by simp⟩
  intro x hx
  exact (List.mem_append.1 hx).elim (ha x) (hb x)

/-- All that arrives begins with what the stream begins with. -/
theorem Begins.items (h : Begins limit l s rest) : s.arriving.map (·.2) = l ++ rest.arriving.map (·.2) := by
  obtain ⟨sent, rfl, -, rfl⟩ := h
  exact List.map_append

/-- What arrives in time is read, and nothing after it. -/
theorem Begins.readExact (h : Begins limit l s rest) : s.readExact limit l.length = .ok (l, rest) := by
  obtain ⟨sent, rfl, htime, rfl⟩ := h
  have hlate : (sent.any fun b => decide (limit < b.1)) = false := by
    rw [List.any_eq_false]
    intro b hb
    have := htime b hb
    simp only [decide_eq_true_eq]
    omega
  simp [Incoming.readExact, hlate]

/-- What is read has arrived in time. -/
theorem begins_of_readExact {n : Nat} (h : s.readExact limit n = .ok (l, rest)) :
    Begins limit l s rest ∧ l.length = n := by
  unfold Incoming.readExact at h
  split at h
  · cases h
  · next hlate =>
    split at h
    · next hn =>
      cases h
      refine ⟨⟨s.arriving.take n, rfl, ?_, ?_⟩, by simp [hn]⟩
      · intro b hb
        exact Nat.le_of_not_lt fun hlt => hlate (List.any_eq_true.2 ⟨b, hb, decide_eq_true hlt⟩)
      · simp
    · split at h <;> cases h

end Incoming

end Symphony.Lib
