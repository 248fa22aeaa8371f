import Mathlib.Data.Nat.Bitwise
import Symphony.Failover.Rotation
/-!
# The cooldown word

A failure streak in the top 8 bits of a word and a deadline in the low 56. The two fields
never touch: the streak counts the failures since the last success up to 255, and the
deadline only moves on, at least as far as the doubled backoff asks for, up to 2⁵⁶ - 1.
-/

namespace Symphony.Failover

open Router (FailoverPeer)

/-! ## One word -/

/-- The streak of a cooldown word. -/
def cooldown_streak (word : Nat) : Nat := word >>> COOLDOWN_STREAK_SHIFT

/-- The deadline that a failure after `k` others is due. -/
def due_until (k min_ns max_ns now : Nat) : Nat :=
  min (sat_add64 now (min max_ns (sat_mul64 min_ns (2 ^ k)))) COOLDOWN_UNTIL_MASK

theorem cooldown_until_eq (word : Nat) : cooldown_until word = word % 2 ^ COOLDOWN_STREAK_SHIFT :=
  Nat.and_two_pow_sub_one_eq_mod word COOLDOWN_STREAK_SHIFT

theorem cooldown_until_le (word : Nat) : cooldown_until word ≤ COOLDOWN_UNTIL_MASK := Nat.and_le_right

theorem cooldown_packed (streak : Nat) {until_ : Nat} (h : until_ ≤ COOLDOWN_UNTIL_MASK) :
    cooldown_streak (streak <<< COOLDOWN_STREAK_SHIFT ||| until_) = streak ∧
      cooldown_until (streak <<< COOLDOWN_STREAK_SHIFT ||| until_) = until_ := by
  have hlt : until_ < 2 ^ COOLDOWN_STREAK_SHIFT := Nat.lt_of_le_of_lt h (by decide)
  rw [cooldown_until_eq, cooldown_streak, ← Nat.shiftLeft_add_eq_or_of_lt hlt, Nat.shiftLeft_eq,
    Nat.shiftRight_eq_div_pow]
  constructor
  · rw [Nat.mul_comm, Nat.mul_add_div (by positivity), Nat.div_eq_of_lt hlt, Nat.add_zero]
  · rw [Nat.mul_comm, Nat.mul_add_mod, Nat.mod_eq_of_lt hlt]

section Failure

variable (word min_ns max_ns now : Nat)

theorem failed_streak : cooldown_streak (failed_word word min_ns max_ns now) = min (cooldown_streak word + 1) 255 :=
  (cooldown_packed _ (min_le_right _ _)).1

theorem failed_until : cooldown_until (failed_word word min_ns max_ns now) =
    min (max (cooldown_until word)
      (sat_add64 now (min (sat_mul64 min_ns (1 <<< min (min (cooldown_streak word + 1) 255 - 1) 63)) max_ns)))
      COOLDOWN_UNTIL_MASK :=
  (cooldown_packed _ (min_le_right _ _)).2

theorem failed_until_ge : cooldown_until word ≤ cooldown_until (failed_word word min_ns max_ns now) := by
  rw [failed_until]
  exact le_min (le_max_left _ _) (cooldown_until_le word)

end Failure

/-- The backoff of the code, whose shift stops at 63, reaches as far as the doubled one: past
the shift both are beyond every deadline, or at the maximum. -/
theorem due_until_le {k min_ns : Nat} (hmin : 1 ≤ min_ns) (max_ns now : Nat) :
    due_until k min_ns max_ns now ≤
      min (sat_add64 now (min (sat_mul64 min_ns (1 <<< min k 63)) max_ns)) COOLDOWN_UNTIL_MASK := by
  unfold due_until
  rcases Nat.lt_or_ge 63 k with hk | hk
  · have hpow : (2 : Nat) ^ 63 ≤ min_ns * 2 ^ 63 := Nat.le_mul_of_pos_left _ hmin
    rw [min_eq_right hk.le, Nat.one_shiftLeft]
    unfold sat_add64 sat_mul64 COOLDOWN_UNTIL_MASK COOLDOWN_STREAK_SHIFT
    have hmax : (2 : Nat) ^ 63 ≤ U64_MAX := by decide
    omega
  · rw [min_eq_left hk, Nat.one_shiftLeft, min_comm max_ns]

theorem failed_until_due {word k min_ns : Nat} (hk : cooldown_streak word = min k 255) (hmin : 1 ≤ min_ns)
    (max_ns now : Nat) : due_until k min_ns max_ns now ≤ cooldown_until (failed_word word min_ns max_ns now) := by
  have hshift : min (min (min k 255 + 1) 255 - 1) 63 = min k 63 := by omega
  rw [failed_until, hk, hshift]
  exact (due_until_le hmin max_ns now).trans (min_le_min_right _ (le_max_right _ _))

/-- At its deadline a peer has cooled down, by whatever clock. -/
theorem cooled_down {word now : Nat} (h : cooldown_until word ≤ now) : ¬ Cooling now word :=
  Nat.not_lt.2 (le_min h (cooldown_until_le word))

/-! ## Any sequence of calls -/

/-- The failures of a peer since its cooldown was last cleared, `k` before the calls. -/
def failures_since (peer : FailoverPeer) (k : Nat) (es : List Interference) : Nat :=
  es.foldl (fun k e => match e with
    | .record_failure p _ _ _ => if p = peer then k + 1 else k
    | .clear_cooldown p => if p = peer then 0 else k) k

/-- The words after the calls. -/
def words_after (word : FailoverPeer → Nat) (es : List Interference) : FailoverPeer → Nat :=
  es.foldl Interference.act word

theorem act_streak {word : FailoverPeer → Nat} {peer : FailoverPeer} {k : Nat}
    (h : cooldown_streak (word peer) = min k 255) (e : Interference) :
    cooldown_streak (e.act word peer) = min (failures_since peer k [e]) 255 := by
  cases e with
  | record_failure p min_ns max_ns now =>
    change cooldown_streak (Function.update word p _ peer) = min (if p = peer then k + 1 else k) 255
    by_cases hp : p = peer
    · subst hp
      rw [Function.update_self, if_pos rfl, failed_streak, h]
      omega
    · rw [Function.update_of_ne (Ne.symm hp), if_neg hp, h]
  | clear_cooldown p =>
    change cooldown_streak (Function.update word p 0 peer) = min (if p = peer then 0 else k) 255
    by_cases hp : p = peer
    · subst hp
      rw [Function.update_self, if_pos rfl]
      rfl
    · rw [Function.update_of_ne (Ne.symm hp), if_neg hp, h]

theorem streak_after (peer : FailoverPeer) (es : List Interference) :
    ∀ (word : FailoverPeer → Nat) (k : Nat), cooldown_streak (word peer) = min k 255 →
      cooldown_streak (words_after word es peer) = min (failures_since peer k es) 255 := by
  induction es with
  | nil =>
    intro word k h
    exact h
  | cons e es ih =>
    intro word k h
    exact ih _ _ (act_streak h e)

/-- **The cooldown word.** After any calls on peers whose words were any 64-bit words, with
any readings in any order and any bounds: the streak of a peer is the number of its
failures since it was last cleared, up to 255; another failure never lowers its deadline
and leaves it at least where the doubled backoff asks; and at its deadline the peer is not
cooling down. -/
theorem cooldown_sound {word : FailoverPeer → Nat} (hword : ∀ peer, word peer < 2 ^ 64) (es : List Interference)
    (peer : FailoverPeer) :
    cooldown_streak (words_after word es peer) =
      min (failures_since peer (cooldown_streak (word peer)) es) 255 ∧
    (∀ min_ns max_ns now, cooldown_until (words_after word es peer) ≤
      cooldown_until (words_after word (es ++ [.record_failure peer min_ns max_ns now]) peer)) ∧
    (∀ min_ns max_ns now, 1 ≤ min_ns →
      due_until (failures_since peer (cooldown_streak (word peer)) es) min_ns max_ns now ≤
        cooldown_until (words_after word (es ++ [.record_failure peer min_ns max_ns now]) peer)) ∧
    ∀ now, cooldown_until (words_after word es peer) ≤ now → ¬ Cooling now (words_after word es peer) := by
  have hstreak : cooldown_streak (word peer) = min (cooldown_streak (word peer)) 255 := by
    have := hword peer
    rw [cooldown_streak, Nat.shiftRight_eq_div_pow]
    unfold COOLDOWN_STREAK_SHIFT
    omega
  have hfailed : ∀ min_ns max_ns now, words_after word (es ++ [.record_failure peer min_ns max_ns now]) peer =
      failed_word (words_after word es peer) min_ns max_ns now := by
    intro min_ns max_ns now
    unfold words_after
    rw [List.foldl_append]
    exact Function.update_self ..
  have hafter := streak_after peer es word _ hstreak
  refine ⟨hafter, ?_, ?_, fun now => cooled_down⟩
  · intro min_ns max_ns now
    rw [hfailed]
    exact failed_until_ge ..
  · intro min_ns max_ns now hmin
    rw [hfailed]
    exact failed_until_due hafter hmin max_ns now

def examplePeer : FailoverPeer := ⟨0, .new (.V4 1) 443⟩

/-- A failure, a success, and three failures whose readings come out of order. -/
def threeFailures : List Interference :=
  [.record_failure examplePeer 100 1000 7, .clear_cooldown examplePeer, .record_failure examplePeer 100 1000 500,
    .record_failure examplePeer 100 1000 0, .record_failure examplePeer 100 1000 900]

theorem cooldown_sound_third :
    cooldown_streak (words_after (fun _ => 0) threeFailures examplePeer) = 3 ∧
    cooldown_until (words_after (fun _ => 0) threeFailures examplePeer) = 1300 ∧
    ¬ Cooling (2 ^ 60) (words_after (fun _ => 0) threeFailures examplePeer) := by
  obtain ⟨hstreak, -, -, hcooled⟩ := @cooldown_sound (fun _ => 0) (fun _ => by decide) threeFailures examplePeer
  have hthree : failures_since examplePeer (cooldown_streak 0) threeFailures = 3 := by decide +kernel
  rw [hthree] at hstreak
  exact ⟨hstreak, by decide +kernel, hcooled _ (by decide +kernel)⟩

end Symphony.Failover
