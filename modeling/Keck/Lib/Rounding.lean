import Keck.Lib.Float
/-!
# Rounding to doubles

`round` takes an exact value to the nearest `f64`: 53 binary digits, none of
them below `2 ^ -1074`, halves to the even neighbour, and an infinity from
`2 ^ 1024` on. An operation on doubles is the exact operation and then `round`,
and so is reading a text (`parseRounded`). A rounded value is off by half a
unit of its last place at most (`abs_nearest_sub_le`).
-/
namespace Keck.Lib.F64

/-- The exponent of the last binary digit a double has at `q`. -/
def lastPlace (q : ℚ) : ℤ := max (Int.log 2 |q| - 52) (-1074)

/-- The nearest value with that last digit. -/
def nearest (q : ℚ) : ℚ :=
  let r : ℚ := roundHalfEven (|q| / 2 ^ lastPlace q) * 2 ^ lastPlace q
  if q < 0 then -r else r

def round : F64 → F64
  | finite q => if 2 ^ 1024 ≤ |nearest q| then inf (decide (q < 0)) else finite (nearest q)
  | x => x

/-- `str::parse::<f64>`. -/
def parseRounded (s : List Char) : Option F64 := (parse s).map round

theorem abs_roundHalfEven_sub_le {q : ℚ} (h : 0 ≤ q) : |(roundHalfEven q : ℚ) - q| ≤ 1 / 2 := by
  have hfloor : ((⌊q⌋.toNat : ℕ) : ℚ) = ⌊q⌋ := by exact_mod_cast Int.toNat_of_nonneg (Int.floor_nonneg.2 h)
  have hle : (⌊q⌋ : ℚ) ≤ q := Int.floor_le q
  have hlt : q < ⌊q⌋ + 1 := Int.lt_floor_add_one q
  unfold roundHalfEven
  rw [abs_le]
  dsimp only
  split_ifs <;> push_cast <;> constructor <;> linarith

theorem abs_nearest_sub_le (q : ℚ) : |nearest q - q| ≤ 2 ^ lastPlace q / 2 := by
  have hunit : (0 : ℚ) < 2 ^ lastPlace q := by positivity
  have hround := abs_roundHalfEven_sub_le (q := |q| / 2 ^ lastPlace q) (by positivity)
  -- the same distance in units of the last place
  have habs : abs (roundHalfEven (|q| / 2 ^ lastPlace q) * 2 ^ lastPlace q - |q|) ≤ 2 ^ lastPlace q / 2 := by
    have hsplit : (roundHalfEven (|q| / 2 ^ lastPlace q) : ℚ) * 2 ^ lastPlace q - |q| =
        (roundHalfEven (|q| / 2 ^ lastPlace q) - |q| / 2 ^ lastPlace q) * 2 ^ lastPlace q := by
      rw [sub_mul, div_mul_cancel₀ _ hunit.ne']
    rw [hsplit, abs_mul, abs_of_pos hunit]
    linarith [mul_le_mul_of_nonneg_right hround hunit.le]
  unfold nearest
  dsimp only
  split_ifs with hneg
  · rw [abs_of_neg hneg] at habs ⊢
    rw [abs_sub_comm]
    convert habs using 2
    ring
  · rw [abs_of_nonneg (not_lt.1 hneg)] at habs ⊢
    exact habs

/-- The relative error, and what is lost below the smallest digit. -/
theorem abs_nearest_sub_le_mul (q : ℚ) : |nearest q - q| ≤ |q| / 2 ^ 53 + 1 / 2 ^ 1075 := by
  rcases eq_or_ne q 0 with rfl | hq
  · have hzero : nearest 0 = 0 := by decide +kernel
    rw [hzero, sub_self, abs_zero]
    positivity
  refine (abs_nearest_sub_le q).trans ?_
  have hlog : (2 : ℚ) ^ Int.log 2 |q| ≤ |q| := by
    exact_mod_cast Int.zpow_log_le_self one_lt_two (abs_pos.2 hq)
  rcases max_choice (Int.log 2 |q| - 52) (-1074) with hmax | hmax
  · have hunit : (2 : ℚ) ^ lastPlace q / 2 = 2 ^ Int.log 2 |q| / 2 ^ 53 := by
      rw [lastPlace, hmax, zpow_sub₀ two_ne_zero, div_div]
      norm_num
    rw [hunit]
    have hdiv : (2 : ℚ) ^ Int.log 2 |q| / 2 ^ 53 ≤ |q| / 2 ^ 53 := by gcongr
    exact hdiv.trans (le_add_of_nonneg_right (by positivity))
  · have hunit : (2 : ℚ) ^ lastPlace q / 2 = 1 / 2 ^ 1075 := by
      rw [lastPlace, hmax, zpow_neg, pow_succ, ← one_div, div_div]
      rfl
    rw [hunit]
    exact le_add_of_nonneg_left (by positivity)

theorem nearest_nonneg {q : ℚ} (h : 0 ≤ q) : 0 ≤ nearest q := by
  unfold nearest
  dsimp only
  rw [if_neg (not_lt.2 h)]
  positivity

/-- A value that is not large does not become an infinity. -/
theorem round_finite {q : ℚ} (h : |q| ≤ 2 ^ 1023) : round (finite q) = finite (nearest q) := by
  have herror := abs_nearest_sub_le_mul q
  have hadd : |nearest q| ≤ |q| + |nearest q - q| := by
    have := abs_add_le q (nearest q - q)
    rwa [add_sub_cancel] at this
  have hdiv : |q| / 2 ^ 53 ≤ |q| / 4 := div_le_div_of_nonneg_left (abs_nonneg q) (by norm_num) (by norm_num)
  have htiny : (1 : ℚ) / 2 ^ 1075 ≤ 1 := div_le_one_of_le₀ (one_le_pow₀ one_le_two) (by positivity)
  have hlarge : (2 : ℚ) ^ 2 ≤ 2 ^ 1023 := pow_le_pow_right₀ one_le_two (by norm_num)
  refine if_neg (not_le.2 ?_)
  rw [pow_succ]
  generalize (2 : ℚ) ^ 1023 = large at h hlarge ⊢
  generalize (1 : ℚ) / 2 ^ 1075 = tiny at herror htiny
  linarith

example : (finite (1 / 10)).round = finite (3602879701896397 / 2 ^ 55) := by decide +kernel

example : (finite (10 ^ 309)).round = inf false ∧ (finite (3 / 10 ^ 324)).round = finite (1 / 2 ^ 1074) ∧
    (finite (-1 / 10 ^ 400)).round = 0 := by decide +kernel

end Keck.Lib.F64
