import Mathlib.Data.List.Basic
/-!
# Searching a list for a pattern

`position` is the index of a pattern's first occurrence. What a reader that
receives a stream in pieces needs to know about it: a match stays where it is
when the stream grows, and a search that failed can resume near the end. For a
two-symbol line end, a text is a list of lines, and a blank line is the first
doubled line end.
-/

namespace Symphony.Lib

variable {α : Type} [DecidableEq α]

/-- `haystack.windows(pat.len()).position(|w| w == pat)`. -/
def position (pat : List α) : List α → Option Nat
  | [] => if pat = [] then some 0 else none
  | b :: t => if pat.isPrefixOf (b :: t) then some 0 else (position pat t).map (· + 1)

/-! ## First occurrences -/

variable {s pat l : List α} {n : Nat}

theorem position_zero : position pat s = some 0 ↔ pat <+: s := by
  cases s with
  | nil => simp [position]
  | cons b t =>
    rw [position]
    by_cases h : pat.isPrefixOf (b :: t) = true
    · simp [h, List.isPrefixOf_iff_prefix.1 h]
    · have h' : ¬ pat <+: b :: t := fun hp => h (List.isPrefixOf_iff_prefix.2 hp)
      simp [h, h']

theorem position_cons {b : α} {t : List α} (h : ¬ pat <+: b :: t) :
    position pat (b :: t) = (position pat t).map (· + 1) := by
  rw [position, if_neg (fun hp => h (List.isPrefixOf_iff_prefix.1 hp))]

section

variable (hp : pat ≠ [])

include hp

theorem position_eq_some :
    position pat s = some n ↔ pat <+: s.drop n ∧ ∀ m < n, ¬ pat <+: s.drop m := by
  induction s generalizing n with
  | nil => simp [position, hp]
  | cons b t ih =>
    by_cases h : pat <+: b :: t
    · rw [position_zero.2 h]
      constructor
      · rintro ⟨rfl⟩
        exact ⟨h, fun m hm => absurd hm (Nat.not_lt_zero m)⟩
      · rintro ⟨-, hm⟩
        cases n with
        | zero => rfl
        | succ n => exact absurd h (hm 0 (Nat.succ_pos n))
    · rw [position_cons h]
      cases n with
      | zero => simpa using h
      | succ n =>
        simp only [Option.map_eq_some_iff, Nat.add_right_cancel_iff, exists_eq_right, ih, List.drop_succ_cons]
        constructor
        · rintro ⟨h1, h2⟩
          refine ⟨h1, fun m hm => ?_⟩
          cases m with
          | zero => exact h
          | succ m => exact h2 m (Nat.lt_of_succ_lt_succ hm)
        · rintro ⟨h1, h2⟩
          exact ⟨h1, fun m hm => h2 (m + 1) (Nat.succ_lt_succ hm)⟩

theorem position_eq_none :
    position pat s = none ↔ ∀ m, ¬ pat <+: s.drop m := by
  constructor
  · intro h m hm
    -- The first of the occurrences up to `m` would have been found.
    induction m using Nat.strongRecOn with
    | ind m ih =>
      by_cases he : ∃ k < m, pat <+: s.drop k
      · obtain ⟨k, hk, hpk⟩ := he
        exact ih k hk hpk
      · have := (position_eq_some hp).2 ⟨hm, fun k hk hpk => he ⟨k, hk, hpk⟩⟩
        rw [h] at this
        cases this
  · intro h
    cases hs : position pat s with
    | none => rfl
    | some n => exact absurd ((position_eq_some hp).1 hs).1 (h n)

theorem position_le (h : position pat s = some n) :
    n + pat.length ≤ s.length := by
  have hle := ((position_eq_some hp).1 h).1.length_le
  have hpos := List.length_pos_iff.2 hp
  rw [List.length_drop] at hle
  omega

/-! ## Streams that grow -/

/-- A match stays where it is when more arrives. -/
theorem position_append (h : position pat s = some n) (t : List α) :
    position pat (s ++ t) = some n := by
  have hle := position_le hp h
  obtain ⟨h1, h2⟩ := (position_eq_some hp).1 h
  refine (position_eq_some hp).2 ⟨?_, fun m hm hpm => h2 m hm ?_⟩
  · rw [List.drop_append_of_le_length (by omega)]
    exact h1.trans (List.prefix_append _ _)
  · rw [List.drop_append_of_le_length (by omega)] at hpm
    exact List.prefix_of_prefix_length_le hpm (List.prefix_append _ _) (by rw [List.length_drop]; omega)

/-- A match that lies within what has arrived was there already. -/
theorem position_of_append {t : List α} (h : position pat (s ++ t) = some n)
    (hn : n + pat.length ≤ s.length) : position pat s = some n := by
  cases hs : position pat s with
  | some m =>
    rw [position_append hp hs] at h
    exact h
  | none =>
    obtain ⟨h1, -⟩ := (position_eq_some hp).1 h
    rw [List.drop_append_of_le_length (by omega)] at h1
    refine absurd ?_ ((position_eq_none hp).1 hs n)
    exact List.prefix_of_prefix_length_le h1 (List.prefix_append _ _) (by rw [List.length_drop]; omega)

/-- A search that failed on `s` resumes at any offset no match inside `s` could start before. -/
theorem position_resume (h : position pat s = none) (t : List α) {k : Nat} (hk : k + pat.length ≤ s.length + 1) :
    position pat (s ++ t) = (position pat ((s ++ t).drop k)).map (· + k) := by
  have hnone : ∀ m < k, ¬ pat <+: (s ++ t).drop m := by
    intro m hm hpm
    rw [List.drop_append_of_le_length (by omega)] at hpm
    exact (position_eq_none hp).1 h m
      (List.prefix_of_prefix_length_le hpm (List.prefix_append _ _) (by rw [List.length_drop]; omega))
  cases hd : position pat ((s ++ t).drop k) with
  | none =>
    rw [Option.map_none, position_eq_none hp]
    intro m hm
    by_cases hmk : m < k
    · exact hnone m hmk hm
    · refine (position_eq_none hp).1 hd (m - k) ?_
      rw [List.drop_drop, Nat.add_sub_cancel' (Nat.le_of_not_lt hmk)]
      exact hm
  | some n =>
    obtain ⟨h1, h2⟩ := (position_eq_some hp).1 hd
    rw [Option.map_some, position_eq_some hp]
    rw [List.drop_drop, Nat.add_comm] at h1
    refine ⟨h1, fun m hm hpm => ?_⟩
    by_cases hmk : m < k
    · exact hnone m hmk hpm
    · refine h2 (m - k) (by omega) ?_
      rw [List.drop_drop, Nat.add_sub_cancel' (Nat.le_of_not_lt hmk)]
      exact hpm

end

/-! ## Lines -/

section Lines

variable {c d : α} (hcd : c ≠ d)
include hcd

/-- The first line end comes right after a line that holds none. -/
theorem position_line (h : position [c, d] l = none) (r : List α) :
    position [c, d] (l ++ c :: d :: r) = some l.length := by
  rw [position_eq_some (by simp)]
  refine ⟨by simp, fun m hm hp => ?_⟩
  rw [List.drop_append_of_le_length (by omega)] at hp
  match hl : l.drop m with
  | [] =>
    rw [List.drop_eq_nil_iff] at hl
    omega
  | [x] =>
    rw [hl] at hp
    simp only [List.cons_append, List.nil_append, List.cons_prefix_cons] at hp
    exact hcd hp.2.1.symm
  | x :: y :: t =>
    rw [hl] at hp
    refine (position_eq_none (by simp)).1 h m ?_
    rw [hl]
    simpa [List.cons_prefix_cons] using hp

omit hcd in
/-- The text up to the first line end is a line, and the rest follows it. -/
theorem line_of_position (h : position [c, d] s = some n) :
    position [c, d] (s.take n) = none ∧ s = s.take n ++ c :: d :: s.drop (n + 2) := by
  obtain ⟨⟨t, ht⟩, hno⟩ := (position_eq_some (by simp)).1 h
  have hle := position_le (by simp) h
  constructor
  · rw [position_eq_none (by simp)]
    intro m hm
    have hlen := hm.length_le
    rw [List.length_drop, List.length_take] at hlen
    simp only [List.length_cons, List.length_nil] at hlen
    refine hno m (by omega) (hm.trans ?_)
    rw [List.drop_take]
    exact List.take_prefix _ _
  · have hd : s.drop (n + 2) = t := by rw [← List.drop_drop, ← ht]; rfl
    rw [hd]
    change s = s.take n ++ ([c, d] ++ t)
    rw [ht, List.take_append_drop]

/-- Lines, each with its line end. -/
def unlines (c d : α) (ls : List (List α)) : List α := ls.flatMap (· ++ [c, d])

omit hcd [DecidableEq α] in
@[simp] theorem unlines_cons (l : List α) (ls : List (List α)) :
    unlines c d (l :: ls) = l ++ c :: d :: unlines c d ls := by
  simp [unlines]

omit hcd [DecidableEq α] in
@[simp] theorem unlines_nil : unlines c d [] = [] := rfl

omit hcd [DecidableEq α] in
theorem unlines_append (ls ms : List (List α)) : unlines c d (ls ++ ms) = unlines c d ls ++ unlines c d ms := by
  simp [unlines]

/-- Where a doubled line end can start: not inside a line, and not at the end of
one that another line follows. -/
theorem position_double_line {r : List α} (h : position [c, d] l = none) (hr : ¬ [c, d] <+: r) :
    position [c, d, c, d] (l ++ c :: d :: r) = (position [c, d, c, d] r).map (· + (l.length + 2)) := by
  induction l with
  | nil =>
    have h1 : ¬ [c, d, c, d] <+: c :: d :: r := by simpa [List.cons_prefix_cons] using hr
    have h2 : ¬ [c, d, c, d] <+: d :: r := by
      rw [List.cons_prefix_cons]
      exact fun e => hcd e.1
    rw [List.nil_append, position_cons h1, position_cons h2, Option.map_map]
    rfl
  | cons x l ih =>
    have hx : ¬ [c, d] <+: x :: l := fun hp => (position_eq_none (by simp)).1 h 0 (by simpa using hp)
    have hl : position [c, d] l = none := by
      rw [position_cons hx, Option.map_eq_none_iff] at h
      exact h
    have h1 : ¬ [c, d, c, d] <+: x :: (l ++ c :: d :: r) := by
      intro hp
      match l with
      | [] =>
        rw [List.nil_append, List.cons_prefix_cons, List.cons_prefix_cons] at hp
        exact hcd hp.2.1.symm
      | y :: l =>
        rw [List.cons_append, List.cons_prefix_cons, List.cons_prefix_cons] at hp
        exact hx (by simp [List.cons_prefix_cons, hp.1, hp.2.1])
    rw [List.cons_append, position_cons h1, ih hl, Option.map_map, List.length_cons]
    refine congrArg (fun f => Option.map f _) (funext fun k => ?_)
    simp only [Function.comp_apply]
    omega

/-- The first doubled line end of a block of lines is its closing blank line. -/
theorem position_block {ls : List (List α)} (hl : position [c, d] l = none)
    (hls : ∀ x ∈ ls, x ≠ [] ∧ position [c, d] x = none) (rest : List α) :
    position [c, d, c, d] (unlines c d (l :: ls) ++ c :: d :: rest) =
      some ((unlines c d (l :: ls)).length - 2) := by
  induction ls generalizing l with
  | nil =>
    rw [unlines_cons, unlines_nil, List.append_assoc, List.cons_append, List.cons_append, List.nil_append,
      position_eq_some (by simp)]
    refine ⟨by simp, fun m hm hp => ?_⟩
    have hfirst := ((position_eq_some (by simp)).1 (position_line hcd hl (c :: d :: rest))).2 m (by simpa using hm)
    exact hfirst ((List.prefix_append [c, d] [c, d]).trans hp)
  | cons x xs ih =>
    obtain ⟨hx, hxs⟩ := hls x (by simp)
    have hnot : ¬ [c, d] <+: unlines c d (x :: xs) ++ c :: d :: rest := by
      intro hp
      match x with
      | [] => exact hx rfl
      | [a] =>
        rw [unlines_cons] at hp
        simp only [List.cons_append, List.nil_append, List.cons_prefix_cons] at hp
        exact hcd hp.2.1.symm
      | a :: b :: t =>
        refine (position_eq_none (by simp)).1 hxs 0 ?_
        rw [unlines_cons] at hp
        simpa [List.cons_prefix_cons] using hp
    rw [unlines_cons, List.append_assoc, List.cons_append, List.cons_append, position_double_line hcd hl hnot,
      ih hxs (fun y hy => hls y (by simp [hy])), Option.map_some]
    refine congrArg some ?_
    simp only [unlines_cons, List.length_append, List.length_cons]
    omega

/-- Conversely, the text up to the first doubled line end is a block of lines. -/
theorem block_of_position (h : position [c, d, c, d] s = some n) :
    ∃ l ls rest, position [c, d] l = none ∧ (∀ x ∈ ls, x ≠ [] ∧ position [c, d] x = none) ∧
      s = unlines c d (l :: ls) ++ c :: d :: rest ∧ (unlines c d (l :: ls)).length = n + 2 := by
  induction hlen : s.length using Nat.strongRecOn generalizing s n with
  | ind k ih =>
    obtain ⟨⟨t, ht⟩, hno⟩ := (position_eq_some (by simp)).1 h
    cases hp : position [c, d] s with
    | none =>
      refine absurd ?_ ((position_eq_none (by simp)).1 hp n)
      rw [← ht]
      simp [List.cons_prefix_cons]
    | some p =>
      obtain ⟨hfree, hs⟩ := line_of_position hp
      have hle := position_le (by simp) hp
      have hpn : p ≤ n := by
        by_contra hlt
        refine ((position_eq_some (by simp)).1 hp).2 n (by omega) ?_
        rw [← ht]
        simp [List.cons_prefix_cons]
      have hl : (s.take p).length = p := by rw [List.length_take]; omega
      by_cases hblank : [c, d] <+: s.drop (p + 2)
      · -- A blank line follows: the block is this line alone.
        obtain ⟨rest, hrest⟩ := hblank
        have hs' : s = unlines c d [s.take p] ++ c :: d :: rest := by
          rw [unlines_cons, unlines_nil, List.append_assoc, List.cons_append, List.cons_append, List.nil_append]
          change s = s.take p ++ c :: d :: ([c, d] ++ rest)
          rw [hrest]
          exact hs
        have hpos : position [c, d, c, d] (unlines c d [s.take p] ++ c :: d :: rest) = _ :=
          position_block hcd hfree (by simp) rest
        rw [← hs', h] at hpos
        refine ⟨s.take p, [], rest, hfree, by simp, hs', ?_⟩
        simp only [Option.some.injEq] at hpos
        rw [hpos]
        simp only [unlines_cons, unlines_nil, List.length_append, List.length_cons, List.length_nil]
        omega
      · have hstep := position_double_line hcd hfree hblank
        rw [← hs, h] at hstep
        obtain ⟨m, hm, hmn⟩ := Option.map_eq_some_iff.1 hstep.symm
        obtain ⟨l, ls, rest, h1, h2, h3, h4⟩ := ih (s.drop (p + 2)).length
          (by rw [List.length_drop]; simp only [List.length_cons, List.length_nil] at hle; omega) hm rfl
        refine ⟨s.take p, l :: ls, rest, hfree, ?_, ?_, ?_⟩
        · intro x hx
          rcases List.mem_cons.1 hx with rfl | hx
          · refine ⟨?_, h1⟩
            rintro rfl
            exact hblank (by rw [h3]; simp)
          · exact h2 x hx
        · rw [unlines_cons, List.append_assoc, List.cons_append, List.cons_append, ← h3]
          exact hs
        · rw [unlines_cons, List.length_append, List.length_cons, List.length_cons, h4]
          omega

end Lines

end Symphony.Lib
