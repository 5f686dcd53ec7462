import Mathlib.Data.Int.Log
import Mathlib.Data.Rat.Floor
import Mathlib.Algebra.Order.Field.Power
import Mathlib.Tactic.Linarith
import Mathlib.Tactic.Positivity
import Mathlib.Tactic.NormNum
import Mathlib.Tactic.Ring
import Mathlib.Tactic.FieldSimp

/-! IEEE 754 binary64: rounding of exact rationals to the nearest double, ties to even. -/

namespace Binary64

def roundHalfEven (q : ℚ) : ℤ :=
  if q - ⌊q⌋ < 1 / 2 then ⌊q⌋
  else if 1 / 2 < q - ⌊q⌋ then ⌊q⌋ + 1
  else if ⌊q⌋ % 2 = 0 then ⌊q⌋ else ⌊q⌋ + 1

/-- The distance between the doubles around `q`: 53 significant bits, and never under `2 ^ -1074`. -/
def spacing (q : ℚ) : ℚ := 2 ^ max (Int.log 2 |q| - 52) (-1074)

/-- The nearest double, were the exponent not bounded above. -/
def nearest (q : ℚ) : ℚ := roundHalfEven (q / spacing q) * spacing q

/-- A double. The sign of zero is left out: the two zeros are equal. -/
inductive Double
  | finite (value : ℚ)
  | infinite (negative : Bool)
  | nan
  deriving DecidableEq, Repr

/-- The nearest double; a magnitude that rounds to `2 ^ 1024` or more is infinite. -/
def Double.ofRat (q : ℚ) : Double :=
  if |nearest q| < 2 ^ 1024 then .finite (nearest q) else .infinite (decide (q < 0))

theorem roundHalfEven_error (q : ℚ) : |(roundHalfEven q : ℚ) - q| ≤ 1 / 2 := by
  have low := Int.floor_le q
  have high := Int.lt_floor_add_one q
  unfold roundHalfEven
  rw [abs_le]
  split_ifs with below above even
  · constructor <;> linarith
  · push_cast; constructor <;> linarith
  · constructor <;> linarith
  · push_cast; constructor <;> linarith

theorem roundHalfEven_nonneg {q : ℚ} (h : 0 ≤ q) : 0 ≤ roundHalfEven q := by
  have floor : 0 ≤ ⌊q⌋ := Int.floor_nonneg.mpr h
  unfold roundHalfEven
  split_ifs <;> omega

theorem spacing_pos (q : ℚ) : 0 < spacing q := by
  unfold spacing
  positivity

theorem nearest_error (q : ℚ) : |nearest q - q| ≤ spacing q / 2 := by
  have positive := spacing_pos q
  have scaled : nearest q - q = (roundHalfEven (q / spacing q) - q / spacing q) * spacing q := by
    unfold nearest
    field_simp
  rw [scaled, abs_mul, abs_of_pos positive]
  have unit := mul_le_mul_of_nonneg_right (roundHalfEven_error (q / spacing q)) positive.le
  linarith

theorem nearest_zero : nearest 0 = 0 := by
  simp [nearest, roundHalfEven]

theorem spacing_le {q : ℚ} (nonzero : q ≠ 0) : spacing q ≤ |q| / 2 ^ 52 + 2 ^ (-1074 : ℤ) := by
  have magnitude : (2 : ℚ) ^ Int.log 2 |q| ≤ |q| :=
    Int.zpow_log_le_self (by norm_num) (abs_pos.mpr nonzero)
  have normal : (0 : ℚ) ≤ |q| / 2 ^ 52 := by positivity
  have subnormal : (0 : ℚ) ≤ 2 ^ (-1074 : ℤ) := by positivity
  unfold spacing
  rcases le_total (Int.log 2 |q| - 52) (-1074) with small | large
  · rw [max_eq_right small]
    linarith
  · rw [max_eq_left large, zpow_sub₀ (by norm_num)]
    have scaled : (2 : ℚ) ^ Int.log 2 |q| / 2 ^ (52 : ℤ) ≤ |q| / 2 ^ 52 := by
      norm_cast
      gcongr
    linarith

theorem nearest_error_relative (q : ℚ) : |nearest q - q| ≤ |q| / 2 ^ 53 + 2 ^ (-1075 : ℤ) := by
  by_cases zero : q = 0
  · subst zero
    rw [nearest_zero]
    simp
  · have bound := nearest_error q
    have spaced := spacing_le zero
    have halved : (2 : ℚ) ^ (-1074 : ℤ) = 2 * 2 ^ (-1075 : ℤ) := by
      rw [show (-1074 : ℤ) = 1 + -1075 by norm_num, zpow_add₀ (by norm_num), zpow_one]
    rw [halved] at spaced
    generalize (2 : ℚ) ^ (-1075 : ℤ) = tiny at *
    linarith

theorem nearest_nonneg {q : ℚ} (h : 0 ≤ q) : 0 ≤ nearest q := by
  have scaled : 0 ≤ q / spacing q := div_nonneg h (spacing_pos q).le
  have whole : (0 : ℚ) ≤ roundHalfEven (q / spacing q) := by exact_mod_cast roundHalfEven_nonneg scaled
  exact mul_nonneg whole (spacing_pos q).le

theorem tiny_le : (2 : ℚ) ^ (-1075 : ℤ) ≤ 1 / 2 ^ 60 := by
  have smaller : (2 : ℚ) ^ (-1075 : ℤ) ≤ 2 ^ (-60 : ℤ) := zpow_le_zpow_right₀ (by norm_num) (by norm_num)
  refine smaller.trans_eq ?_
  rw [zpow_neg]
  norm_num

theorem nearest_within {q bound : ℚ} (h : |q| ≤ bound) :
    |nearest q - q| ≤ bound / 2 ^ 53 + 1 / 2 ^ 60 := by
  have relative := nearest_error_relative q
  have tiny := tiny_le
  generalize (2 : ℚ) ^ (-1075 : ℤ) = t at *
  have scaled : |q| / 2 ^ 53 ≤ bound / 2 ^ 53 := by gcongr
  linarith

theorem Double.ofRat_of_le {q : ℚ} (h : |q| ≤ 2 ^ 200) : Double.ofRat q = .finite (nearest q) := by
  have error := abs_le.mp (nearest_within h)
  have magnitude := abs_le.mp h
  have large : (2 : ℚ) ^ 200 + (2 ^ 200 / 2 ^ 53 + 1 / 2 ^ 60) < 2 ^ 201 := by norm_num
  have range : (2 : ℚ) ^ 201 < 2 ^ 1024 := pow_lt_pow_right₀ (by norm_num) (by norm_num)
  unfold Double.ofRat
  rw [if_pos]
  refine lt_trans (abs_lt.mpr ⟨?_, ?_⟩) range
  · linarith [error.1, magnitude.1]
  · linarith [error.2, magnitude.2]

end Binary64
