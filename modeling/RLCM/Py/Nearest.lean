/-
# `RLCM.Py.Nearest` — no double is nearer

`roundDouble x` is at least as near to `x` as any double (`roundDouble_nearest`).
Everything else that is said here follows from that: a double is rounded to
itself, and rounding never passes a double.
-/
import RLCM.Py.Float

namespace Py

/-- `d` has at most 53 significant bits, and none below `2 ^ (-1074)`. -/
def IsDouble (d : ℚ) : Prop := ∃ (m e : ℤ), |m| ≤ 2 ^ 53 ∧ -1074 ≤ e ∧ d = m * 2 ^ e

/-! ## Rounding to an integer -/

theorem abs_roundHalfEven_sub_le (q : ℚ) : |(roundHalfEven q : ℚ) - q| ≤ 1 / 2 := by
  have hfloor := Int.floor_le q
  have hlt := Int.lt_floor_add_one q
  unfold roundHalfEven
  dsimp only
  rw [abs_le]
  split_ifs with hlow hhigh heven
  · exact ⟨by linarith, by linarith⟩
  · push_cast
    exact ⟨by linarith, by linarith⟩
  · exact ⟨by linarith, by linarith⟩
  · push_cast
    exact ⟨by linarith, by linarith⟩

theorem roundHalfEven_nearest (q : ℚ) (n : ℤ) : |(roundHalfEven q : ℚ) - q| ≤ |(n : ℚ) - q| := by
  have hhalf := abs_roundHalfEven_sub_le q
  rcases eq_or_ne (roundHalfEven q) n with heq | hne
  · rw [heq]
  · -- another integer is at least one away from the rounded one
    have hone : (1 : ℚ) ≤ |(roundHalfEven q : ℚ) - n| := by
      exact_mod_cast Int.one_le_abs (sub_ne_zero.mpr hne)
    have htriangle := abs_sub_le (roundHalfEven q : ℚ) q n
    rw [abs_sub_comm q] at htriangle
    linarith

/-- Ties to even are the same on both sides of zero. -/
theorem roundHalfEven_neg (q : ℚ) : roundHalfEven (-q) = -roundHalfEven q := by
  rcases eq_or_ne ((⌊q⌋ : ℤ) : ℚ) q with hint | hne
  · rw [← hint, ← Int.cast_neg, roundHalfEven_intCast, roundHalfEven_intCast]
  · have hfloor : (⌊q⌋ : ℚ) < q := lt_of_le_of_ne (Int.floor_le q) hne
    have hlt := Int.lt_floor_add_one q
    have hneg : ⌊-q⌋ = -⌊q⌋ - 1 := by
      rw [Int.floor_eq_iff]
      push_cast
      exact ⟨by linarith, by linarith⟩
    unfold roundHalfEven
    simp only [hneg]
    push_cast
    split_ifs
    all_goals first
      | omega
      | (exfalso; linarith)

/-! ## Rounding to a double -/

theorem roundDouble_zero : roundDouble 0 = 0 := by
  exact_mod_cast roundDouble_intCast (n := 0) (by decide)

theorem ulp_neg (x : ℚ) : ulp (-x) = ulp x := by
  rw [ulp, ulp, abs_neg]

theorem roundDouble_neg (x : ℚ) : roundDouble (-x) = -roundDouble x := by
  rw [roundDouble, roundDouble, ulp_neg, neg_div, roundHalfEven_neg, Int.cast_neg, neg_mul]

theorem roundDouble_nearest_multiple (x : ℚ) (n : ℤ) :
    |roundDouble x - x| ≤ |n * ulp x - x| := by
  have hpos := ulp_pos x
  have hscale : ∀ k : ℚ, |k * ulp x - x| = |k - x / ulp x| * ulp x := by
    intro k
    rw [← abs_of_pos hpos, ← abs_mul, abs_of_pos hpos, sub_mul, div_mul_cancel₀ _ hpos.ne']
  rw [roundDouble, hscale, hscale]
  exact mul_le_mul_of_nonneg_right (roundHalfEven_nearest _ _) hpos.le

/-- No double is nearer to a positive number than the rounded one. -/
theorem roundDouble_nearest_of_pos {x : ℚ} (hx : 0 < x) {d : ℚ} (hd : IsDouble d) :
    |roundDouble x - x| ≤ |d - x| := by
  obtain ⟨m, e, hm, hmin, rfl⟩ := hd
  rcases le_or_gt (max (Int.log 2 |x| - 52) (-1074)) e with hfine | hcoarse
  · -- a multiple of the spacing
    obtain ⟨k, hk⟩ : ∃ k : ℕ, e - max (Int.log 2 |x| - 52) (-1074) = k :=
      Int.eq_ofNat_of_zero_le (by omega)
    have hmultiple : (m : ℚ) * 2 ^ e = (m * 2 ^ k : ℤ) * ulp x := by
      have he : e = k + max (Int.log 2 |x| - 52) (-1074) := by omega
      rw [ulp, he, zpow_add₀ two_ne_zero, zpow_natCast]
      push_cast
      ring
    rw [hmultiple]
    exact roundDouble_nearest_multiple x _
  · -- not above the power of two below `x`, which is one
    have hpow : (m : ℚ) * 2 ^ e ≤ (2 ^ 52 : ℤ) * ulp x := by
      have hm' : (m : ℚ) ≤ 2 ^ (53 : ℤ) := by exact_mod_cast (le_abs_self m).trans hm
      calc (m : ℚ) * 2 ^ e ≤ 2 ^ (53 : ℤ) * 2 ^ e :=
            mul_le_mul_of_nonneg_right hm' (zpow_pos two_pos e).le
        _ = 2 ^ (53 + e) := (zpow_add₀ two_ne_zero _ _).symm
        _ ≤ 2 ^ Int.log 2 |x| := zpow_le_zpow_right₀ one_le_two (by omega)
        _ = (2 ^ 52 : ℤ) * ulp x := (ulp_of_log (by omega)).symm
    have hbelow : ((2 ^ 52 : ℤ) : ℚ) * ulp x ≤ x := by
      have hlog : (2 : ℚ) ^ Int.log 2 |x| ≤ |x| := by
        exact_mod_cast Int.zpow_log_le_self (b := 2) one_lt_two (abs_pos.mpr hx.ne')
      rw [ulp_of_log (by omega)]
      rwa [abs_of_pos hx] at hlog ⊢
    refine (roundDouble_nearest_multiple x (2 ^ 52)).trans ?_
    rw [abs_of_nonpos (sub_nonpos.mpr hbelow), abs_of_nonpos (sub_nonpos.mpr (hpow.trans hbelow))]
    linarith

theorem IsDouble.neg {d : ℚ} (hd : IsDouble d) : IsDouble (-d) := by
  obtain ⟨m, e, hm, hmin, rfl⟩ := hd
  exact ⟨-m, e, by rwa [abs_neg], hmin, by rw [Int.cast_neg, neg_mul]⟩

theorem roundDouble_nearest (x : ℚ) {d : ℚ} (hd : IsDouble d) :
    |roundDouble x - x| ≤ |d - x| := by
  rcases lt_trichotomy x 0 with hneg | rfl | hpos
  · have h := roundDouble_nearest_of_pos (neg_pos.mpr hneg) hd.neg
    rw [roundDouble_neg, ← neg_add', ← neg_add', abs_neg, abs_neg] at h
    rw [sub_eq_add_neg, sub_eq_add_neg]
    exact h
  · rw [roundDouble_zero, sub_zero, abs_zero]
    exact abs_nonneg _
  · exact roundDouble_nearest_of_pos hpos hd

/-! ## What rounding does to doubles -/

theorem IsDouble.le_roundDouble {d x : ℚ} (hd : IsDouble d) (h : d ≤ x) : d ≤ roundDouble x := by
  have hnear := roundDouble_nearest x hd
  rw [abs_of_nonpos (sub_nonpos.mpr h)] at hnear
  have := neg_abs_le (roundDouble x - x)
  linarith

theorem IsDouble.roundDouble_le {d x : ℚ} (hd : IsDouble d) (h : x ≤ d) : roundDouble x ≤ d := by
  have hnear := roundDouble_nearest x hd
  rw [abs_of_nonneg (sub_nonneg.mpr h)] at hnear
  have := le_abs_self (roundDouble x - x)
  linarith

theorem IsDouble.roundDouble_eq {d : ℚ} (hd : IsDouble d) : roundDouble d = d :=
  le_antisymm (hd.roundDouble_le le_rfl) (hd.le_roundDouble le_rfl)

theorem isDouble_roundDouble (x : ℚ) : IsDouble (roundDouble x) := by
  refine ⟨roundHalfEven (x / ulp x), max (Int.log 2 |x| - 52) (-1074), ?_, le_max_right _ _, rfl⟩
  have hpos := ulp_pos x
  have hlt : |x / ulp x| ≤ (2 ^ 53 : ℤ) := by
    rw [abs_div, abs_of_pos hpos, div_le_iff₀ hpos]
    refine (lt_ulp_mul x).le.trans (le_of_eq ?_)
    push_cast
    ring
  rw [abs_le]
  rw [abs_le, ← Int.cast_neg] at hlt
  exact ⟨le_roundHalfEven hlt.1, roundHalfEven_le hlt.2⟩

theorem roundDouble_mono {x y : ℚ} (h : x ≤ y) : roundDouble x ≤ roundDouble y := by
  rcases le_or_gt x (roundDouble y) with hle | hgt
  · exact (isDouble_roundDouble y).roundDouble_le hle
  · by_contra hlt
    have hlt := not_le.mp hlt
    -- both lie above the rounded `y`, which is the nearest to `y` all the same
    have hx := roundDouble_nearest x (isDouble_roundDouble y)
    have hy := roundDouble_nearest y (isDouble_roundDouble x)
    rw [abs_sub_comm (roundDouble y), abs_of_pos (sub_pos.mpr hgt)] at hx
    rw [abs_sub_comm (roundDouble y), abs_of_pos (sub_pos.mpr (hgt.trans_le h))] at hy
    have hxle := (le_abs_self _).trans hx
    rcases le_or_gt (roundDouble x) y with hbelow | habove
    · rw [abs_of_nonpos (sub_nonpos.mpr hbelow)] at hy
      linarith
    · rw [abs_of_pos (sub_pos.mpr habove)] at hy
      have heq : x = y := by linarith
      rw [heq] at hlt
      exact lt_irrefl _ hlt

theorem isDouble_intCast {n : ℤ} (h : |n| ≤ 2 ^ 53) : IsDouble n :=
  ⟨n, 0, h, by decide, by rw [zpow_zero, mul_one]⟩

theorem roundDouble_nonneg {x : ℚ} (h : 0 ≤ x) : 0 ≤ roundDouble x := by
  have hzero : IsDouble ((0 : ℤ) : ℚ) := isDouble_intCast (by decide)
  exact_mod_cast hzero.le_roundDouble (by exact_mod_cast h)

theorem IsDouble.double {d : ℚ} (hd : IsDouble d) : IsDouble (2 * d) := by
  obtain ⟨m, e, hm, hmin, rfl⟩ := hd
  refine ⟨m, e + 1, hm, by omega, ?_⟩
  rw [zpow_add_one₀ two_ne_zero]
  ring

theorem roundDouble_bounds {x : ℚ} (hx : 0 ≤ x) (hpos : 0 < roundDouble x) :
    roundDouble x ≤ 2 * x ∧ 2 * x ≤ 3 * roundDouble x := by
  have hzero := roundDouble_nearest x (isDouble_intCast (n := 0) (by decide))
  have htwice := roundDouble_nearest x (isDouble_roundDouble x).double
  rw [Int.cast_zero, zero_sub, abs_neg, abs_of_nonneg hx] at hzero
  have hup := (le_abs_self _).trans hzero
  refine ⟨by linarith, ?_⟩
  rcases le_or_gt x (2 * roundDouble x) with hle | hgt
  · rw [abs_of_nonneg (sub_nonneg.mpr hle)] at htwice
    have := (neg_le_abs _).trans htwice
    linarith
  · rw [abs_of_neg (sub_neg.mpr hgt)] at htwice
    have := (neg_le_abs _).trans htwice
    linarith

theorem roundDouble_eq_zero {x y : ℚ} (hx : 0 ≤ x) (hxy : 3 * x < y)
    (heq : roundDouble x = roundDouble y) : roundDouble y = 0 := by
  by_contra hne
  have hpos : 0 < roundDouble y :=
    lt_of_le_of_ne (roundDouble_nonneg (by linarith)) (Ne.symm hne)
  have hup := (roundDouble_bounds hx (heq ▸ hpos)).1
  have hlow := (roundDouble_bounds (by linarith) hpos).2
  rw [heq] at hup
  linarith

theorem IsDouble.roundDouble_add_half {d : ℚ} (hd : IsDouble d) :
    d ≤ roundDouble (d + 1 / 2) ∧ roundDouble (d + 1 / 2) ≤ d + 1 := by
  have hnear := roundDouble_nearest (d + 1 / 2) hd
  have hhalf : |d - (d + 1 / 2)| = 1 / 2 := by
    rw [sub_add_cancel_left, abs_neg]
    norm_num
  rw [hhalf, abs_le] at hnear
  exact ⟨by linarith [hnear.1], by linarith [hnear.2]⟩

end Py
