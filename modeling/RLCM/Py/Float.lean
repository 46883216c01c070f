/-
# `RLCM.Py.Float` — rounding to a double

A double keeps 53 significant bits, and no bit below `2 ^ (-1074)`.  `roundDouble x` is
the nearest of them, with ties to the even neighbour, up to any exponent; `floatOfInt` is
`float(n)` of an integer, which raises `OverflowError` from `2 ^ 1024` on.  Integers below
`2 ^ 53` are exact, and a power of two is never crossed by rounding.
-/
import Mathlib.Data.Int.Log
import Mathlib.Tactic.Linarith
import Mathlib.Tactic.Positivity
import Mathlib.Tactic.NormNum
import RLCM.Py.Num

namespace Py

/-- The spacing of the doubles around `x`. -/
def ulp (x : ℚ) : ℚ := 2 ^ max (Int.log 2 |x| - 52) (-1074)

def roundDouble (x : ℚ) : ℚ := roundHalfEven (x / ulp x) * ulp x

/-- `x + y` of finite doubles. -/
def addDouble (x y : ℚ) : ℚ := roundDouble (x + y)

/-- `x * y`. -/
def mulDouble (x y : ℚ) : ℚ := roundDouble (x * y)

/-- `float(n)`; `none` is the `OverflowError`. -/
def floatOfInt (n : ℤ) : Option ℚ :=
  let x := roundDouble n
  if |x| < 2 ^ 1024 then some x else none

/-! ## Rounding to an integer -/

theorem roundHalfEven_mem (x : ℚ) :
    roundHalfEven x = ⌊x⌋ ∨ (roundHalfEven x = ⌊x⌋ + 1 ∧ (⌊x⌋ : ℚ) < x) := by
  have hfloor := Int.floor_le x
  unfold roundHalfEven
  dsimp only
  split_ifs with hlow hhigh heven
  · exact Or.inl rfl
  · exact Or.inr ⟨rfl, by linarith⟩
  · exact Or.inl rfl
  · exact Or.inr ⟨rfl, by linarith⟩

/-- An integer below stays below. -/
theorem le_roundHalfEven {n : ℤ} {x : ℚ} (h : (n : ℚ) ≤ x) : n ≤ roundHalfEven x := by
  have hfloor := Int.le_floor.mpr h
  rcases roundHalfEven_mem x with hx | ⟨hx, -⟩
  · rw [hx]
    exact hfloor
  · rw [hx]
    omega

/-- An integer above stays above. -/
theorem roundHalfEven_le {n : ℤ} {x : ℚ} (h : x ≤ n) : roundHalfEven x ≤ n := by
  rcases roundHalfEven_mem x with hx | ⟨hx, hlt⟩
  · rw [hx]
    exact_mod_cast (Int.floor_le x).trans h
  · rw [hx]
    have hfloor : ⌊x⌋ < n := by exact_mod_cast hlt.trans_le h
    exact hfloor

@[simp] theorem roundHalfEven_intCast (n : ℤ) : roundHalfEven n = n :=
  le_antisymm (roundHalfEven_le le_rfl) (le_roundHalfEven le_rfl)

/-! ## Rounding to a double -/

theorem ulp_pos (x : ℚ) : 0 < ulp x := zpow_pos two_pos _

theorem ulp_of_log {x : ℚ} (h : -1022 ≤ Int.log 2 |x|) :
    (2 ^ 52 : ℤ) * ulp x = 2 ^ Int.log 2 |x| := by
  rw [ulp, max_eq_left (by omega), Int.cast_pow, Int.cast_ofNat, ← zpow_natCast,
    ← zpow_add₀ two_ne_zero]
  congr 1
  omega

theorem two_zpow_log_le (x : ℚ) : (2 : ℚ) ^ Int.log 2 |x| ≤ (2 ^ 52 : ℤ) * ulp x := by
  rw [ulp, Int.cast_pow, Int.cast_ofNat, ← zpow_natCast, ← zpow_add₀ two_ne_zero]
  exact zpow_le_zpow_right₀ one_le_two (by omega)

/-- A number that is not below the normal ones is at least `2 ^ 52` spacings from zero. -/
theorem ulp_mul_le {k : ℤ} (hk : -1022 ≤ k) {x : ℚ} (hx : 2 ^ k ≤ |x|) :
    (2 ^ 52 : ℤ) * ulp x ≤ |x| := by
  have hpos : 0 < |x| := lt_of_lt_of_le (zpow_pos two_pos k) hx
  have hlog : k ≤ Int.log 2 |x| :=
    (Int.zpow_le_iff_le_log one_lt_two hpos).mp (by exact_mod_cast hx)
  rw [ulp_of_log (hk.trans hlog)]
  exact_mod_cast Int.zpow_log_le_self (b := 2) one_lt_two hpos

theorem lt_ulp_mul (x : ℚ) : |x| < 2 * ((2 ^ 52 : ℤ) * ulp x) := by
  have hlt : |x| < 2 ^ (Int.log 2 |x| + 1) := by
    exact_mod_cast Int.lt_zpow_succ_log_self (b := 2) one_lt_two |x|
  rw [zpow_add_one₀ two_ne_zero, mul_comm] at hlt
  exact hlt.trans_le (mul_le_mul_of_nonneg_left (two_zpow_log_le x) two_pos.le)

theorem le_ulp_mul {k : ℤ} {x : ℚ} (h : 2 ^ k ≤ |x|) : (2 : ℚ) ^ k ≤ (2 ^ 52 : ℤ) * ulp x := by
  have hx : 0 < |x| := lt_of_lt_of_le (zpow_pos two_pos k) h
  refine le_trans ?_ (two_zpow_log_le x)
  exact zpow_le_zpow_right₀ one_le_two
    ((Int.zpow_le_iff_le_log one_lt_two hx).mp (by exact_mod_cast h))

theorem le_roundDouble {k : ℤ} (hk : -1022 ≤ k) {x : ℚ} (h : 2 ^ k ≤ x) :
    2 ^ k ≤ roundDouble x := by
  have hx : 0 < x := lt_of_lt_of_le (zpow_pos two_pos k) h
  have habs : 2 ^ k ≤ |x| := by rwa [abs_of_pos hx]
  have hround : (2 ^ 52 : ℤ) ≤ roundHalfEven (x / ulp x) := by
    refine le_roundHalfEven ((le_div_iff₀ (ulp_pos x)).mpr ?_)
    have hle := ulp_mul_le hk habs
    rwa [abs_of_pos hx] at hle
  calc (2 : ℚ) ^ k ≤ (2 ^ 52 : ℤ) * ulp x := le_ulp_mul habs
    _ ≤ roundHalfEven (x / ulp x) * ulp x :=
        mul_le_mul_of_nonneg_right (Int.cast_le.mpr hround) (ulp_pos x).le

theorem roundDouble_le_neg {k : ℤ} (hk : -1022 ≤ k) {x : ℚ} (h : x ≤ -2 ^ k) :
    roundDouble x ≤ -2 ^ k := by
  have hx : x < 0 := lt_of_le_of_lt h (neg_neg_of_pos (zpow_pos two_pos k))
  have habs : 2 ^ k ≤ |x| := by
    rw [abs_of_neg hx]
    linarith
  have hround : roundHalfEven (x / ulp x) ≤ -2 ^ 52 := by
    refine roundHalfEven_le ((div_le_iff₀ (ulp_pos x)).mpr ?_)
    have hle := ulp_mul_le hk habs
    rw [abs_of_neg hx] at hle
    rw [Int.cast_neg, neg_mul]
    linarith
  calc roundHalfEven (x / ulp x) * ulp x ≤ ((-2 ^ 52 : ℤ) : ℚ) * ulp x :=
        mul_le_mul_of_nonneg_right (Int.cast_le.mpr hround) (ulp_pos x).le
    _ = -((2 ^ 52 : ℤ) * ulp x) := by rw [Int.cast_neg, neg_mul]
    _ ≤ -2 ^ k := neg_le_neg (le_ulp_mul habs)

theorem roundDouble_intCast {n : ℤ} (h : |n| < 2 ^ 53) : roundDouble n = n := by
  rcases eq_or_ne n 0 with rfl | hn
  · simp [roundDouble, roundHalfEven]
  have hcast : |(n : ℚ)| < (2 : ℕ) ^ (53 : ℤ) := by exact_mod_cast h
  have hpos : 0 < |(n : ℚ)| := abs_pos.mpr (Int.cast_ne_zero.mpr hn)
  have hlog : Int.log 2 |(n : ℚ)| < 53 := (Int.lt_zpow_iff_log_lt one_lt_two hpos).mp hcast
  -- the spacing divides one, so the quotient is an integer
  obtain ⟨k, hk⟩ : ∃ k : ℕ, -max (Int.log 2 |(n : ℚ)| - 52) (-1074) = k :=
    Int.eq_ofNat_of_zero_le (by omega)
  have hulp : (n : ℚ) / ulp n = (n * 2 ^ k : ℤ) := by
    rw [ulp, ← neg_neg (max _ _), hk, zpow_neg, zpow_natCast, div_inv_eq_mul]
    push_cast
    rfl
  rw [roundDouble, hulp, roundHalfEven_intCast, ← hulp]
  exact div_mul_cancel₀ _ (ulp_pos _).ne'

/-- A number up to one stays up to one. -/
theorem roundDouble_le_one {x : ℚ} (h0 : 0 ≤ x) (h : x ≤ 1) : roundDouble x ≤ 1 := by
  rcases h.eq_or_lt with rfl | hlt
  · exact (roundDouble_intCast (n := 1) (by decide)).le
  rcases h0.eq_or_lt with rfl | hpos
  · simp [roundDouble, roundHalfEven]
  have hround : roundHalfEven (x / ulp x) ≤ 2 * 2 ^ 52 := by
    refine roundHalfEven_le ((div_le_iff₀ (ulp_pos x)).mpr ?_)
    have hlt := lt_ulp_mul x
    rw [abs_of_pos hpos] at hlt
    push_cast at hlt ⊢
    linarith
  have hlog : Int.log 2 |x| + 1 ≤ 0 := by
    rw [abs_of_pos hpos]
    exact (Int.lt_zpow_iff_log_lt (b := 2) (x := 0) one_lt_two hpos).mp (by simpa using hlt)
  have hulp : ulp x ≤ 2 ^ (-53 : ℤ) := zpow_le_zpow_right₀ one_le_two (by omega)
  calc roundHalfEven (x / ulp x) * ulp x ≤ ((2 * 2 ^ 52 : ℤ) : ℚ) * ulp x :=
        mul_le_mul_of_nonneg_right (Int.cast_le.mpr hround) (ulp_pos x).le
    _ ≤ ((2 * 2 ^ 52 : ℤ) : ℚ) * 2 ^ (-53 : ℤ) := mul_le_mul_of_nonneg_left hulp (by norm_num)
    _ = 1 := by norm_num

theorem floatOfInt_of_lt {n : ℤ} (h : |n| < 2 ^ 53) : floatOfInt n = some (n : ℚ) := by
  have hsmall : |(n : ℚ)| < 2 ^ 1024 := by
    have hcast : |(n : ℚ)| < 2 ^ 53 := by exact_mod_cast h
    exact hcast.trans (pow_lt_pow_right₀ one_lt_two (by decide))
  rw [floatOfInt, roundDouble_intCast h]
  exact if_pos hsmall

/-- The conversion of a larger one is larger. -/
theorem le_abs_of_floatOfInt {n : ℤ} (h : 2 ^ 53 ≤ |n|) {x : ℚ} (hx : floatOfInt n = some x) :
    2 ^ 53 ≤ |x| := by
  have hround : x = roundDouble n := by
    rw [floatOfInt] at hx
    split at hx
    case isTrue => exact (Option.some.inj hx).symm
    case isFalse => cases hx
  have habs : (2 : ℚ) ^ (53 : ℤ) ≤ |(n : ℚ)| := by exact_mod_cast h
  rw [hround]
  rcases le_total 0 (n : ℚ) with hn | hn
  · rw [abs_of_nonneg hn] at habs
    exact (le_roundDouble (by norm_num) habs).trans (le_abs_self _)
  · rw [abs_of_nonpos hn] at habs
    exact (le_neg_of_le_neg (roundDouble_le_neg (by norm_num) (le_neg_of_le_neg habs))).trans
      (neg_le_abs _)

end Py
