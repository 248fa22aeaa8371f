import Mathlib.Data.Int.Log
import Mathlib.Data.Rat.Floor
import Mathlib.Tactic.Linarith
import Mathlib.Tactic.Positivity
/-!
# Rounding to binary64

A rational rounds to the nearest number of 53 significant bits, ties to even, with units no
smaller than `2 ^ -1074`. There is no largest number: a result that would overflow stays
the large rational it is, which a saturating conversion to an integer cannot tell apart.
-/

namespace Symphony.Lib.Binary64

/-- The nearest integer; of two that are equally near, the even one. -/
def nearest (x : ℚ) : ℤ :=
  if x - ⌊x⌋ < 1 / 2 ∨ x - ⌊x⌋ = 1 / 2 ∧ ⌊x⌋ % 2 = 0 then ⌊x⌋ else ⌊x⌋ + 1

/-- The unit in the last place. -/
def ulp (q : ℚ) : ℚ := 2 ^ max (Int.log 2 |q| - 52) (-1074)

def round (q : ℚ) : ℚ := nearest (q / ulp q) * ulp q

theorem ulp_pos (q : ℚ) : 0 < ulp q := zpow_pos (by norm_num) _

theorem nearest_error (x : ℚ) : |nearest x - x| ≤ 1 / 2 := by
  have h₀ := Int.floor_le x
  have h₁ := Int.lt_floor_add_one x
  unfold nearest
  split
  · rename_i h
    rw [abs_le]
    constructor
    · rcases h with h | ⟨h, -⟩ <;> linarith
    · linarith
  · rename_i h
    have hhalf : 1 / 2 ≤ x - ⌊x⌋ := not_lt.1 fun hlt => h (.inl hlt)
    push_cast
    rw [abs_le]
    constructor <;> linarith

theorem le_nearest {x : ℚ} {n : ℤ} (h : n ≤ x) : n ≤ nearest x := by
  have hfloor := Int.le_floor.2 h
  unfold nearest
  split <;> omega

theorem round_error (q : ℚ) : |round q - q| ≤ ulp q / 2 := by
  have hq : q / ulp q * ulp q = q := div_mul_cancel₀ q (ulp_pos q).ne'
  calc |round q - q| = |(nearest (q / ulp q) - q / ulp q) * ulp q| := by rw [sub_mul, hq, round]
    _ = |nearest (q / ulp q) - q / ulp q| * ulp q := by rw [abs_mul, abs_of_pos (ulp_pos q)]
    _ ≤ 1 / 2 * ulp q := mul_le_mul_of_nonneg_right (nearest_error _) (ulp_pos q).le
    _ = ulp q / 2 := by ring

/-- A number that is not too small loses at most one part in `2 ^ 53`. -/
theorem le_round_of_normal {q : ℚ} (h : 2 ^ (-1022 : ℤ) ≤ q) : q * (1 - 1 / 2 ^ 53) ≤ round q := by
  have hpos : 0 < q := lt_of_lt_of_le (zpow_pos (by norm_num) _) h
  have hlog : -1022 ≤ Int.log 2 q := (Int.zpow_le_iff_le_log (by norm_num) hpos).1 (by exact_mod_cast h)
  have hulp : ulp q / 2 ≤ q / 2 ^ 53 := by
    have hle : (2 : ℚ) ^ Int.log 2 q ≤ q := by exact_mod_cast Int.zpow_log_le_self (by norm_num) hpos
    rw [ulp, abs_of_pos hpos, max_eq_left (by omega), zpow_sub₀ (by norm_num)]
    norm_num
    linarith
  have herror := (abs_le.1 (round_error q)).1
  linarith

/-- A product that is more than one by one part in `2 ^ 50` is not rounded below one
with its factors. -/
theorem one_le_mul {x : ℚ} {n : Nat} (hx : 2 ^ (-1022 : ℤ) ≤ x) (h : 1 + 1 / 2 ^ 50 ≤ n * x) :
    1 ≤ round n * round x := by
  have hn : (1 : ℚ) ≤ n := by
    rcases Nat.eq_zero_or_pos n with rfl | hpos
    · norm_num at h
    · exact_mod_cast hpos
  have hrn := le_round_of_normal ((zpow_le_one_of_nonpos₀ one_le_two (by norm_num)).trans hn)
  have hrx := le_round_of_normal hx
  have hpos : 0 < x := lt_of_lt_of_le (zpow_pos (by norm_num) _) hx
  calc (1 : ℚ) ≤ (1 + 1 / 2 ^ 50) * ((1 - 1 / 2 ^ 53) * (1 - 1 / 2 ^ 53)) := by norm_num
    _ ≤ n * x * ((1 - 1 / 2 ^ 53) * (1 - 1 / 2 ^ 53)) := mul_le_mul_of_nonneg_right h (by norm_num)
    _ = n * (1 - 1 / 2 ^ 53) * (x * (1 - 1 / 2 ^ 53)) := by ring
    _ ≤ round n * round x :=
      mul_le_mul hrn hrx (mul_nonneg hpos.le (by norm_num)) ((mul_nonneg (by linarith) (by norm_num)).trans hrn)

/-- Rounding does not go below a multiple of the unit. -/
theorem mul_ulp_le_round {q : ℚ} {m : ℤ} (h : m * ulp q ≤ q) : m * ulp q ≤ round q := by
  have hle : (m : ℚ) ≤ nearest (q / ulp q) := by exact_mod_cast le_nearest ((le_div_iff₀ (ulp_pos q)).2 h)
  exact mul_le_mul_of_nonneg_right hle (ulp_pos q).le

/-- Nor below a whole number of 53 bits. -/
theorem le_round {q : ℚ} {n : Nat} (hn : n ≤ 2 ^ 53) (h : n ≤ q) : n ≤ round q := by
  obtain ⟨k, hk⟩ : ∃ k, k = max (Int.log 2 |q| - 52) (-1074) := ⟨_, rfl⟩
  have hulp : ulp q = 2 ^ k := by rw [ulp, hk]
  by_cases hneg : k ≤ 0
  · -- the number is a multiple of the unit
    obtain ⟨j, rfl⟩ := Int.exists_eq_neg_ofNat hneg
    have hm : ((n * 2 ^ j : ℤ) : ℚ) * ulp q = n := by
      rw [hulp, zpow_neg, zpow_natCast]
      push_cast
      rw [mul_assoc, mul_inv_cancel₀ (by positivity), mul_one]
    rw [← hm] at h ⊢
    exact mul_ulp_le_round h
  · -- the unit is more than one, so `q` is at least `2 ^ 53`
    have hq : 0 < q := by
      refine lt_of_le_of_ne ((Nat.cast_nonneg n).trans h) ?_
      rintro rfl
      rw [abs_zero, Int.log_zero_right] at hk
      omega
    have hlog : Int.log 2 q = 52 + k := by
      rw [abs_of_pos hq] at hk
      omega
    have hle : ((2 ^ 52 : ℤ) : ℚ) * ulp q ≤ q := by
      have hself : ((2 : Nat) : ℚ) ^ Int.log 2 q ≤ q := Int.zpow_log_le_self (by norm_num) hq
      rw [hlog, zpow_add₀ (by norm_num)] at hself
      rw [hulp]
      exact_mod_cast hself
    have htwo : (2 : ℚ) ≤ ulp q := by
      rw [hulp]
      exact (zpow_one (2 : ℚ)).ge.trans (zpow_le_zpow_right₀ (by norm_num) (by omega))
    have hn' : (n : ℚ) ≤ 2 ^ 53 := by exact_mod_cast hn
    calc (n : ℚ) ≤ 2 ^ 53 := hn'
      _ ≤ ((2 ^ 52 : ℤ) : ℚ) * ulp q := by
        push_cast
        linarith
      _ ≤ round q := mul_ulp_le_round hle

end Symphony.Lib.Binary64
