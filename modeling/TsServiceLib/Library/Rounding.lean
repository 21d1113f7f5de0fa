import Mathlib.Data.Int.Log
import Mathlib.Data.Rat.Floor
import Mathlib.Tactic.FieldSimp
import Mathlib.Tactic.Linarith
import Mathlib.Tactic.Positivity
import Mathlib.Tactic.Ring

/-!
The double nearest to a number, ties to the even significand, in the range of
the normal doubles. A quotient of whole numbers below 2^53 lies further from the
next whole number than rounding can carry it, so that the floor of the rounded
quotient is that of the exact one.
-/
namespace Rounding

/-- The distance between the doubles around a positive number. -/
def spacing (x : ℚ) : ℚ := 2 ^ (Int.log 2 x - 52)

/-- The multiple of the spacing at or below a positive number. -/
def significand (x : ℚ) : ℤ := ⌊x / spacing x⌋

def nearestPositive (x : ℚ) : ℚ :=
  let rest := x / spacing x - significand x
  if rest < 1 / 2 ∨ (rest = 1 / 2 ∧ significand x % 2 = 0) then significand x * spacing x
  else (significand x + 1) * spacing x

def nearest (x : ℚ) : ℚ :=
  if 0 < x then nearestPositive x else if x < 0 then -nearestPositive (-x) else 0

section Floors
variable {x : ℚ}

theorem spacing_pos (x : ℚ) : 0 < spacing x := by
  unfold spacing
  exact zpow_pos (by norm_num) _

theorem log_bounds (positive : 0 < x) : (2 : ℚ) ^ Int.log 2 x ≤ x ∧ x < 2 ^ (Int.log 2 x + 1) := by
  have low := Int.zpow_log_le_self (R := ℚ) (b := 2) (by omega) positive
  have high := Int.lt_zpow_succ_log_self (R := ℚ) (b := 2) (by omega) x
  exact ⟨by exact_mod_cast low, by exact_mod_cast high⟩

theorem whole_multiple (positive : 0 < x) (small : x < 2 ^ 53) (n : ℤ) : ∃ m : ℤ, (n : ℚ) = m * spacing x := by
  have low := (log_bounds positive).1
  have exponent : Int.log 2 x < 53 := by
    have power : (2 : ℚ) ^ Int.log 2 x < 2 ^ (53 : ℤ) := lt_of_le_of_lt low (by exact_mod_cast small)
    exact (zpow_lt_zpow_iff_right₀ (by norm_num)).mp power
  obtain ⟨k, same⟩ : ∃ k : ℕ, Int.log 2 x - 52 = -(k : ℤ) := ⟨(52 - Int.log 2 x).toNat, by omega⟩
  refine ⟨n * 2 ^ k, ?_⟩
  have power : (2 : ℚ) ^ k ≠ 0 := by positivity
  rw [spacing, same, zpow_neg, zpow_natCast]
  push_cast
  field_simp

theorem significand_bounds (x : ℚ) :
    significand x * spacing x ≤ x ∧ x < (significand x + 1) * spacing x := by
  have positive := spacing_pos x
  constructor
  · exact (le_div_iff₀ positive).mp (Int.floor_le _)
  · exact (div_lt_iff₀ positive).mp (Int.lt_floor_add_one _)

theorem significand_le (x : ℚ) : significand x * spacing x ≤ nearestPositive x := by
  unfold nearestPositive
  dsimp only
  split
  · exact le_refl _
  · have positive := spacing_pos x
    linarith

theorem whole_le (positive : 0 < x) (small : x < 2 ^ 53) {n : ℤ} (below : (n : ℚ) ≤ x) : (n : ℚ) ≤ nearestPositive x := by
  obtain ⟨m, same⟩ := whole_multiple positive small n
  have positive := spacing_pos x
  have reached : m ≤ significand x := by
    rw [same] at below
    exact Int.le_floor.mpr ((le_div_iff₀ positive).mpr below)
  have bound : (m : ℚ) * spacing x ≤ significand x * spacing x :=
    mul_le_mul_of_nonneg_right (by exact_mod_cast reached) (le_of_lt positive)
  rw [same]
  exact le_trans bound (significand_le x)

/-- Rounding does not reach a whole number that is further away than half the spacing. -/
theorem lt_whole (positive : 0 < x) (small : x < 2 ^ 53) {n : ℤ} (far : spacing x / 2 < n - x) :
    nearestPositive x < n := by
  obtain ⟨m, same⟩ := whole_multiple positive small n
  have gap := spacing_pos x
  obtain ⟨low, high⟩ := significand_bounds x
  have above : significand x < m := by
    have order : (significand x : ℚ) * spacing x < m * spacing x := by
      rw [← same]
      linarith
    exact_mod_cast lt_of_mul_lt_mul_right order (le_of_lt gap)
  unfold nearestPositive
  dsimp only
  split
  · rw [same]
    exact mul_lt_mul_of_pos_right (by exact_mod_cast above) gap
  · rename_i up
    have half : (significand x + 1 / 2) * spacing x ≤ x := by
      have rest : 1 / 2 ≤ x / spacing x - significand x := not_lt.mp fun less => up (.inl less)
      have bound : significand x + 1 / 2 ≤ x / spacing x := by linarith
      exact (le_div_iff₀ gap).mp bound
    have far' : (significand x + 1) * spacing x < n := by linarith
    exact far'

theorem nearestPositive_pos (positive : 0 < x) : 0 < nearestPositive x := by
  have gap := spacing_pos x
  have low := (log_bounds positive).1
  have whole : (1 : ℚ) ≤ x / spacing x := by
    rw [le_div_iff₀ gap, one_mul, spacing]
    refine le_trans ?_ low
    exact zpow_le_zpow_right₀ (by norm_num) (by omega)
  have one : (1 : ℤ) ≤ significand x := Int.le_floor.mpr (by exact_mod_cast whole)
  have bound : 0 < (significand x : ℚ) * spacing x := mul_pos (by exact_mod_cast one) gap
  exact lt_of_lt_of_le bound (significand_le x)

/-- The floor of a rounded quotient of whole numbers below 2^53. -/
theorem floor_nearest_div {a b : Nat} (small : a < 2 ^ 53) (positive : 0 < b) :
    ⌊nearest ((a : ℚ) / b)⌋ = ((a / b : Nat) : ℤ) := by
  have denominator : (0 : ℚ) < b := by exact_mod_cast positive
  rcases Nat.eq_zero_or_pos a with zero | numerator
  · simp [zero, nearest]
  · have quotient : (0 : ℚ) < (a : ℚ) / b := div_pos (by exact_mod_cast numerator) denominator
    have bounded : (a : ℚ) / b < 2 ^ 53 := by
      have whole : (1 : ℚ) ≤ b := by exact_mod_cast positive
      have below : (a : ℚ) < 2 ^ 53 := by exact_mod_cast small
      exact lt_of_le_of_lt (div_le_self (by positivity) whole) below
    rw [nearest, if_pos quotient, Int.floor_eq_iff]
    constructor
    · apply whole_le quotient bounded
      rw [le_div_iff₀ denominator]
      exact_mod_cast Nat.div_mul_le_self a b
    · have far : spacing ((a : ℚ) / b) / 2 < ((((a / b : Nat) : ℤ) + 1 : ℤ) : ℚ) - (a : ℚ) / b := by
        have narrow : spacing ((a : ℚ) / b) < 2 / b := by
          have power : spacing ((a : ℚ) / b) = 2 ^ Int.log 2 ((a : ℚ) / b) / 2 ^ 52 := by
            rw [spacing, zpow_sub₀ (by norm_num)]
            norm_num
          have numeratorSmall : (a : ℚ) < 2 ^ 53 := by exact_mod_cast small
          rw [power, div_lt_div_iff₀ (by positivity) denominator]
          have low := (le_div_iff₀ denominator).mp (log_bounds quotient).1
          linarith
        have division : (b : ℚ) * ((a / b : Nat) : ℚ) + ((a % b : Nat) : ℚ) = a := by exact_mod_cast Nat.div_add_mod a b
        have remainder : ((a % b : Nat) : ℚ) + 1 ≤ b := by exact_mod_cast Nat.mod_lt a positive
        have gap : 1 / (b : ℚ) ≤ ((a / b : Nat) : ℚ) + 1 - a / b := by
          rw [div_le_iff₀ denominator, sub_mul, div_mul_cancel₀ _ (ne_of_gt denominator)]
          linarith
        have half : spacing ((a : ℚ) / b) / 2 < 1 / b := by
          have doubled : (2 : ℚ) / b = 2 * (1 / b) := by ring
          linarith
        rw [Int.cast_add, Int.cast_one, Int.cast_natCast]
        linarith
      exact_mod_cast lt_whole quotient bounded far

theorem floor_nearest_negative (negative : x < 0) : ⌊nearest x⌋ < 0 := by
  have mirrored := nearestPositive_pos (x := -x) (by linarith)
  rw [nearest, if_neg (not_lt.mpr (le_of_lt negative)), if_pos negative, Int.floor_lt]
  push_cast
  linarith

end Floors

end Rounding
