/-!
# Runs of a timed machine

A machine takes one event at a time and answers it. Some events carry a clock
reading, and along a run the readings never go back. A run keeps the log of its
events and answers, so a property of the history is a property of the log.
-/

namespace Symphony.Lib

/-- A deterministic machine with states `σ`, events `ε` and answers `ω`. -/
structure Machine (σ ε ω : Type) where
  step : σ → ε → ω × σ
  reading : ε → Option Nat

namespace Machine

variable {σ ε ω : Type} (M : Machine σ ε ω)

/-- Runs from `init`: the state reached, the last clock reading, the log. -/
inductive Run (init : σ) : σ → Nat → List (ε × ω) → Prop where
  | nil : Run init init 0 []
  | step {s : σ} {clock : Nat} {log : List (ε × ω)} (e : ε) : Run init s clock log →
      clock ≤ (M.reading e).getD clock →
      Run init (M.step s e).2 ((M.reading e).getD clock) (log ++ [(e, (M.step s e).1)])

variable {M}

variable {init s : σ} {clock : Nat} {log : List (ε × ω)} {ok : σ → ε → Prop}

/-- What holds at the start and is kept by every step holds after every run. -/
theorem Run.inv (I : σ → Nat → List (ε × ω) → Prop) (h0 : I init 0 [])
    (hs : ∀ s clock log e, I s clock log → clock ≤ (M.reading e).getD clock →
      I (M.step s e).2 ((M.reading e).getD clock) (log ++ [(e, (M.step s e).1)]))
    (h : M.Run init s clock log) : I s clock log := by
  induction h with
  | nil => exact h0
  | step e _ hc ih => exact hs _ _ _ e ih hc

/-- An entry of the log was answered in a state that a run with the entries before it
reaches. -/
theorem Run.answered {past rest : List (ε × ω)} {e : ε} {w : ω} (h : M.Run init s clock log)
    (hlog : log = past ++ (e, w) :: rest) :
    ∃ s' clock', M.Run init s' clock' past ∧ clock' ≤ (M.reading e).getD clock' ∧ w = (M.step s' e).1 := by
  induction h generalizing rest with
  | nil => simp at hlog
  | @step s clock log e' hrun hclock ih =>
    rcases List.eq_nil_or_concat rest with rfl | ⟨rest', last, rfl⟩
    · obtain ⟨rfl, hlast⟩ := List.append_inj' hlog rfl
      simp only [List.cons.injEq, Prod.mk.injEq, and_true] at hlast
      obtain ⟨rfl, rfl⟩ := hlast
      exact ⟨s, clock, hrun, hclock, rfl⟩
    · rw [List.concat_eq_append, ← List.cons_append, ← List.append_assoc] at hlog
      exact ih (List.append_inj' hlog rfl).1

/-- The state after the events of a log. -/
def stateAfter (M : Machine σ ε ω) (init : σ) (log : List (ε × ω)) : σ := log.foldl (fun s x => (M.step s x.1).2) init

theorem stateAfter_concat (init : σ) (log : List (ε × ω)) (x : ε × ω) :
    M.stateAfter init (log ++ [x]) = (M.step (M.stateAfter init log) x.1).2 := by
  unfold stateAfter
  rw [List.foldl_append]
  rfl

theorem Run.stateAfter (h : M.Run init s clock log) : M.stateAfter init log = s := by
  induction h with
  | nil => rfl
  | step e _ _ ih => rw [stateAfter_concat, ih]

/-- Runs whose steps all meet `ok`, a condition on the state before the step and on the
event. -/
inductive RunWhere (M : Machine σ ε ω) (ok : σ → ε → Prop) (init : σ) : σ → Nat → List (ε × ω) → Prop where
  | nil : RunWhere M ok init init 0 []
  | step {s : σ} {clock : Nat} {log : List (ε × ω)} (e : ε) : RunWhere M ok init s clock log → ok s e →
      clock ≤ (M.reading e).getD clock →
      RunWhere M ok init (M.step s e).2 ((M.reading e).getD clock) (log ++ [(e, (M.step s e).1)])

/-- What holds at the start and is kept by every step that meets the condition holds
after every such run. -/
theorem RunWhere.inv (I : σ → Nat → List (ε × ω) → Prop) (h0 : I init 0 [])
    (hs : ∀ s clock log e, I s clock log → ok s e → clock ≤ (M.reading e).getD clock →
      I (M.step s e).2 ((M.reading e).getD clock) (log ++ [(e, (M.step s e).1)]))
    (h : M.RunWhere ok init s clock log) : I s clock log := by
  induction h with
  | nil => exact h0
  | step e _ hok hc ih => exact hs _ _ _ e ih hok hc

theorem RunWhere.run (h : M.RunWhere ok init s clock log) : M.Run init s clock log := by
  induction h with
  | nil => exact .nil
  | step e _ _ hc ih => exact ih.step e hc

/-- A run all of whose steps meet a condition. -/
theorem Run.meets (ok : σ → ε → Prop) (hok : ∀ s e, ok s e) (h : M.Run init s clock log) :
    M.RunWhere ok init s clock log := by
  induction h with
  | nil => exact .nil
  | step e _ hc ih => exact ih.step e (hok _ e) hc

/-- The answers to a list of events, and the state after them. -/
def exec (M : Machine σ ε ω) (s : σ) : List ε → List (ε × ω) × σ
  | [] => ([], s)
  | e :: es => ((e, (M.step s e).1) :: (exec M (M.step s e).2 es).1, (exec M (M.step s e).2 es).2)

/-- Every event meets `ok` in the state it comes to, and the readings do not go back. -/
def Admissible (M : Machine σ ε ω) (ok : σ → ε → Prop) (s : σ) (clock : Nat) : List ε → Prop
  | [] => True
  | e :: es => ok s e ∧ clock ≤ (M.reading e).getD clock ∧
      Admissible M ok (M.step s e).2 ((M.reading e).getD clock) es

instance Admissible.decide {ok : σ → ε → Prop} [∀ s e, Decidable (ok s e)] :
    ∀ (s : σ) (clock : Nat) (es : List ε), Decidable (M.Admissible ok s clock es)
  | _, _, [] => .isTrue trivial
  | _, _, _ :: es => @instDecidableAnd _ _ _ (@instDecidableAnd _ _ _ (Admissible.decide _ _ es))

theorem RunWhere.exec (h : M.RunWhere ok init s clock log) {es : List ε} (hes : M.Admissible ok s clock es) :
    ∃ clock', M.RunWhere ok init (M.exec s es).2 clock' (log ++ (M.exec s es).1) := by
  induction es generalizing s clock log with
  | nil => exact ⟨clock, by simpa [Machine.exec] using h⟩
  | cons e es ih =>
    obtain ⟨hok, hclock, hrest⟩ := hes
    obtain ⟨clock', hrun⟩ := ih (h.step e hok hclock) hrest
    exact ⟨clock', by simpa [Machine.exec] using hrun⟩

theorem admissible_untimed (hM : ∀ e, M.reading e = none) (s : σ) (clock : Nat) (es : List ε) :
    M.Admissible (fun _ _ => True) s clock es := by
  induction es generalizing s clock with
  | nil => trivial
  | cons e es ih =>
    refine ⟨trivial, ?_, ih _ _⟩
    rw [hM e]
    exact Nat.le_refl _

/-- Events whose readings do not go back are a run. -/
theorem exec_run {es : List ε} (hes : M.Admissible (fun _ _ => True) init 0 es) :
    ∃ clock, M.Run init (M.exec init es).2 clock (M.exec init es).1 := by
  have h₀ : M.RunWhere (fun _ _ => True) init init 0 [] := .nil
  obtain ⟨clock, h⟩ := h₀.exec hes
  exact ⟨clock, h.run⟩

theorem exec_untimed (hM : ∀ e, M.reading e = none) (init : σ) (es : List ε) :
    ∃ clock, M.Run init (M.exec init es).2 clock (M.exec init es).1 := exec_run (admissible_untimed hM init 0 es)

end Machine

/-! ## Since -/

section Since

variable {α : Type} {mark ok : List α → α → Prop} {log : List α} {x : α}

/-- Some entry of the log is marked, and it and every later one is in order. Both may
depend on the entries before. -/
def Since (mark ok : List α → α → Prop) (log : List α) : Prop :=
  ∃ past x rest, log = past ++ x :: rest ∧ mark past x ∧
    ∀ before y after, x :: rest = before ++ y :: after → ok (past ++ before) y

theorem Since.start (hmark : mark log x) (hok : ok log x) : Since mark ok (log ++ [x]) := by
  refine ⟨log, x, [], rfl, hmark, ?_⟩
  intro before y after heq
  cases before with
  | nil =>
    cases heq
    rwa [List.append_nil]
  | cons z before => simp at heq

theorem Since.keep (h : Since mark ok log) (hok : ok log x) : Since mark ok (log ++ [x]) := by
  obtain ⟨past, m, rest, rfl, hmark, hall⟩ := h
  refine ⟨past, m, rest ++ [x], by simp, hmark, ?_⟩
  intro before y after heq
  rcases List.eq_nil_or_concat after with rfl | ⟨after', z, rfl⟩
  · -- the new entry itself
    have hlast : m :: rest ++ [x] = before ++ [y] := heq
    obtain ⟨rfl, hy⟩ := List.append_inj' hlast rfl
    cases hy
    exact hok
  · have hlast : m :: rest ++ [x] = before ++ y :: after' ++ [z] := by
      rw [List.concat_eq_append] at heq
      simpa using heq
    exact hall before y after' (List.append_inj' hlast rfl).1

end Since

end Symphony.Lib
