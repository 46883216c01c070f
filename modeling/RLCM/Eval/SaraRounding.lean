/-
# `RLCM.Eval.SaraRounding` — integer parts that are rounded

`compute_sara_integer_part_accuracy` is meant to ignore decimals, but it rounds
both sides to the nearest integer, away from zero from one half on.  A number is
its integer part and a carry (`roundHalfAwayFromZero_eq`), so the comparison is
one of integer parts exactly when the carries do not interfere
(`CarriesAgree`).
-/
import RLCM.Eval.TaskAnswers
import RLCM.Py.Nearest

namespace RLCM.Eval

open Py

/-- Half a unit more brings the magnitude to the next integer, as doubles. -/
def ReachesNext (x : ℚ) : Prop := (⌊|x|⌋ : ℚ) + 1 ≤ roundDouble (|x| + 1 / 2)

instance (x : ℚ) : Decidable (ReachesNext x) := inferInstanceAs (Decidable (_ ≤ _))

/-- What rounding adds to the integer part. -/
def carry (x : ℚ) : ℤ := if ReachesNext x then (if 0 ≤ x then 1 else -1) else 0

/-- Two numbers with one integer part have one carry, and the carries of two
numbers with different integer parts do not make up the difference. -/
def CarriesAgree (x y : ℚ) : Prop :=
  (intOfFloat x = intOfFloat y → carry x = carry y) ∧
    (intOfFloat x ≠ intOfFloat y → intOfFloat y - intOfFloat x ≠ carry x - carry y)

/-! ## Rounding is integer part and carry -/

theorem floor_roundDouble_add_half {d : ℚ} (hd : IsDouble d) (hpos : 0 ≤ d) :
    ⌊roundDouble (d + 1 / 2)⌋ = ⌊d⌋ + if ReachesNext d then 1 else 0 := by
  have hreaches : ReachesNext d ↔ (⌊d⌋ : ℚ) + 1 ≤ roundDouble (d + 1 / 2) := by
    rw [ReachesNext, abs_of_nonneg hpos]
  obtain ⟨hle, hge⟩ := hd.roundDouble_add_half
  have hfloor := Int.floor_le d
  have hlt := Int.lt_floor_add_one d
  rw [Int.floor_eq_iff]
  split_ifs with hnext
  · push_cast
    exact ⟨hreaches.mp hnext, by linarith⟩
  · have hbelow := not_le.mp (fun h => hnext (hreaches.mpr h))
    push_cast
    exact ⟨by linarith, by linarith⟩

theorem reachesNext_neg (x : ℚ) : ReachesNext (-x) ↔ ReachesNext x := by
  rw [ReachesNext, ReachesNext, abs_neg]

theorem roundHalfAwayFromZero_eq {x : ℚ} (hx : IsDouble x) :
    roundHalfAwayFromZero (.finite x) = .ok (intOfFloat x + carry x) := by
  rw [roundHalfAwayFromZero, carry, intOfFloat]
  refine congrArg Except.ok ?_
  rcases le_or_gt 0 x with hpos | hneg
  · rw [if_pos hpos, if_pos hpos, if_pos hpos, floor_roundDouble_add_half hx hpos]
  · have hmirror : x - 1 / 2 = -(-x + 1 / 2) := by ring
    have hceil : ⌈x⌉ = -⌊-x⌋ := by rw [Int.floor_neg, neg_neg]
    have hround := floor_roundDouble_add_half hx.neg (neg_nonneg.mpr hneg.le)
    rw [if_neg (not_le.mpr hneg), if_neg (not_le.mpr hneg), if_neg (not_le.mpr hneg), hmirror,
      roundDouble_neg, Int.ceil_neg, hround, hceil]
    simp only [reachesNext_neg]
    split_ifs
    · ring
    · ring

section Between

variable {x : ℚ} {n : ℕ} (hlow : n ≤ x) (hhigh : x < n + 1)
include hlow hhigh

/-- The integer part of a number from `n` to below `n + 1`. -/
theorem intOfFloat_eq : intOfFloat x = n := by
  have hpos : 0 ≤ x := (Nat.cast_nonneg n).trans hlow
  rw [intOfFloat, if_pos hpos, Int.floor_eq_iff]
  exact ⟨hlow, hhigh⟩

theorem reachesNext_iff : ReachesNext x ↔ (n : ℚ) + 1 ≤ roundDouble (x + 1 / 2) := by
  have hpos : 0 ≤ x := (Nat.cast_nonneg n).trans hlow
  have hfloor : ⌊x⌋ = (n : ℤ) := Int.floor_eq_iff.mpr ⟨hlow, hhigh⟩
  rw [ReachesNext, abs_of_nonneg hpos, hfloor, Int.cast_natCast]

theorem carry_of_half_le (hnext : IsDouble ((n : ℚ) + 1)) (hhalf : n + 1 / 2 ≤ x) :
    carry x = 1 := by
  have hpos : 0 ≤ x := (Nat.cast_nonneg n).trans hlow
  have hreaches : ReachesNext x :=
    (reachesNext_iff hlow hhigh).mpr (hnext.le_roundDouble (by linarith))
  rw [carry, if_pos hreaches, if_pos hpos]

theorem carry_of_lt_half {b : ℚ} (hb : IsDouble b) (hbelow : b < n + 1) (hhalf : x + 1 / 2 ≤ b) :
    carry x = 0 := by
  refine if_neg fun hreaches => ?_
  have hround := (reachesNext_iff hlow hhigh).mp hreaches
  exact absurd (hround.trans (hb.roundDouble_le hhalf)) (not_le.mpr hbelow)

end Between

/-! ## The comparison -/

theorem isDouble_of_ofRat {q x : ℚ} (h : PyFloat.ofRat q = .finite x) : IsDouble x := by
  unfold PyFloat.ofRat at h
  dsimp only at h
  split_ifs at h with hsmall
  cases h
  exact isDouble_roundDouble q

theorem isDouble_of_floatOfStr {s : Str} {x : ℚ} (h : floatOfStr s = some (.finite x)) :
    IsDouble x := by
  unfold floatOfStr at h
  dsimp only at h
  split_ifs at h with hinf hnan
  · cases h
  · cases h
  all_goals
    obtain ⟨number, -, h⟩ := Option.bind_eq_some_iff.mp h
    obtain ⟨exponent, -, h⟩ := Option.bind_eq_some_iff.mp h
    exact isDouble_of_ofRat (Option.some.inj h)

theorem isDouble_of_numericValue {s : Str} {x : ℚ} (h : numericValue s = some (.finite x)) :
    IsDouble x := isDouble_of_floatOfStr h

theorem isDouble_of_extractNumericAnswer {s : Str} {x : ℚ}
    (h : extractNumericAnswer s = some (.finite x)) : IsDouble x := by
  unfold extractNumericAnswer at h
  split at h
  · exact isDouble_of_numericValue h
  · cases h

section Compare

variable {solutionStr groundTruth : Str} {x y : ℚ}

theorem computeSaraIntegerPartAccuracy_eq (hx : extractNumericAnswer solutionStr = some (.finite x))
    (hy : numericValue groundTruth = some (.finite y)) :
    computeSaraIntegerPartAccuracy solutionStr groundTruth =
      .ok (some (decide (intOfFloat x + carry x = intOfFloat y + carry y))) := by
  rw [computeSaraIntegerPartAccuracy, hx]
  dsimp only
  rw [hy]
  dsimp only
  rw [roundHalfAwayFromZero_eq (isDouble_of_extractNumericAnswer hx), ok_bind,
    roundHalfAwayFromZero_eq (isDouble_of_numericValue hy), ok_bind]
  rfl

theorem carriesAgree_iff :
    (intOfFloat x + carry x = intOfFloat y + carry y ↔ intOfFloat x = intOfFloat y) ↔
      CarriesAgree x y := by
  unfold CarriesAgree
  omega

end Compare

/-- The verdict is that of the integer parts exactly when the carries agree, and
then it does not change with the decimals of either side. -/
theorem sara_integer_part_iff (solutionStr groundTruth : Str) (x y : ℚ)
    (hx : extractNumericAnswer solutionStr = some (.finite x))
    (hy : numericValue groundTruth = some (.finite y)) :
    ((computeSaraIntegerPartAccuracy solutionStr groundTruth = .ok (some true) ↔
      intOfFloat x = intOfFloat y) ↔ CarriesAgree x y) ∧
    (CarriesAgree x y → ∀ (solutionStr' groundTruth' : Str) (x' y' : ℚ),
      extractNumericAnswer solutionStr' = some (.finite x') →
      numericValue groundTruth' = some (.finite y') →
      intOfFloat x' = intOfFloat x → intOfFloat y' = intOfFloat y → CarriesAgree x' y' →
        computeSaraIntegerPartAccuracy solutionStr' groundTruth' =
          computeSaraIntegerPartAccuracy solutionStr groundTruth) := by
  refine ⟨?_, ?_⟩
  · rw [computeSaraIntegerPartAccuracy_eq hx hy, ← carriesAgree_iff, Except.ok.injEq,
      Option.some.injEq, decide_eq_true_iff]
  · intro hagree solutionStr' groundTruth' x' y' hx' hy' hxPart hyPart hagree'
    rw [computeSaraIntegerPartAccuracy_eq hx hy, computeSaraIntegerPartAccuracy_eq hx' hy']
    have hsame := carriesAgree_iff.mpr hagree
    have hsame' := carriesAgree_iff.mpr hagree'
    rw [hxPart, hyPart] at hsame'
    rw [hxPart, hyPart, decide_eq_decide.mpr (hsame'.trans hsame.symm)]

/-! ## 123.9 and 123.1 -/

/-- A number of moderate size is read as the double nearest to it. -/
theorem ofRat_of_mem {q : ℚ} (h0 : 0 ≤ q) (h : q ≤ 2 ^ 53) :
    PyFloat.ofRat q = .finite (roundDouble q) := by
  have hlow : 0 ≤ roundDouble q :=
    IsDouble.le_roundDouble ⟨0, 0, by norm_num, by norm_num, by norm_num⟩ h0
  have hhigh : roundDouble q ≤ 2 ^ 53 :=
    IsDouble.roundDouble_le ⟨1, 53, by norm_num, by norm_num, by norm_num⟩ h
  have hsmall : |roundDouble q| < 2 ^ 1024 := by
    rw [abs_of_nonneg hlow]
    exact hhigh.trans_lt (pow_lt_pow_right₀ one_lt_two (by decide))
  exact if_pos hsmall

theorem floatOfStr_123_9 :
    floatOfStr "123.9".toList = some (.finite (roundDouble (1239 / 10))) := by
  rw [← ofRat_of_mem (by norm_num) (by norm_num)]
  rfl

theorem floatOfStr_123_1 :
    floatOfStr "123.1".toList = some (.finite (roundDouble (1231 / 10))) := by
  rw [← ofRat_of_mem (by norm_num) (by norm_num)]
  rfl

theorem numericValue_123_9 :
    numericValue "123.9".toList = some (.finite (roundDouble (1239 / 10))) := by
  rw [← floatOfStr_123_9]
  exact congrArg floatOfStr (by decide +kernel)

theorem numericValue_123_1 :
    numericValue "123.1".toList = some (.finite (roundDouble (1231 / 10))) := by
  rw [← floatOfStr_123_1]
  exact congrArg floatOfStr (by decide +kernel)

def boxed123 : Str := "The tax is \\boxed\x7b123.9\x7d.".toList

theorem extractNumericAnswer_boxed123 :
    extractNumericAnswer boxed123 = some (.finite (roundDouble (1239 / 10))) := by
  have hpred : RewardScore.extractedPred boxed123 = .ok (some "123.9".toList) := by
    decide +kernel
  rw [extractNumericAnswer, hpred]
  exact numericValue_123_9

theorem carry_123_9 : intOfFloat (roundDouble (1239 / 10)) = 123 ∧
    carry (roundDouble (1239 / 10)) = 1 := by
  have hhalf : (247 / 2 : ℚ) ≤ roundDouble (1239 / 10) :=
    IsDouble.le_roundDouble ⟨247, -1, by norm_num, by norm_num, by norm_num⟩ (by norm_num)
  have hbelow : roundDouble (1239 / 10) ≤ 1983 / 16 :=
    IsDouble.roundDouble_le ⟨1983, -4, by norm_num, by norm_num, by norm_num⟩ (by norm_num)
  have hnext : IsDouble (((123 : ℕ) : ℚ) + 1) := ⟨124, 0, by norm_num, by norm_num, by norm_num⟩
  generalize roundDouble (1239 / 10) = x at *
  have hlow : ((123 : ℕ) : ℚ) ≤ x := by
    push_cast
    linarith
  have hhigh : x < ((123 : ℕ) : ℚ) + 1 := by
    push_cast
    linarith
  refine ⟨intOfFloat_eq hlow hhigh, carry_of_half_le hlow hhigh hnext ?_⟩
  push_cast
  linarith

theorem carry_123_1 : intOfFloat (roundDouble (1231 / 10)) = 123 ∧
    carry (roundDouble (1231 / 10)) = 0 := by
  have hstart : (123 : ℚ) ≤ roundDouble (1231 / 10) :=
    IsDouble.le_roundDouble ⟨123, 0, by norm_num, by norm_num, by norm_num⟩ (by norm_num)
  have hbelow : roundDouble (1231 / 10) ≤ 493 / 4 :=
    IsDouble.roundDouble_le ⟨493, -2, by norm_num, by norm_num, by norm_num⟩ (by norm_num)
  have hdouble : IsDouble (495 / 4) := ⟨495, -2, by norm_num, by norm_num, by norm_num⟩
  generalize roundDouble (1231 / 10) = x at *
  have hlow : ((123 : ℕ) : ℚ) ≤ x := by
    push_cast
    exact hstart
  have hhigh : x < ((123 : ℕ) : ℚ) + 1 := by
    push_cast
    linarith
  refine ⟨intOfFloat_eq hlow hhigh, carry_of_lt_half hlow hhigh hdouble ?_ ?_⟩
  · norm_num
  · linarith

/-- The two numbers of the docstring have one integer part and are told apart. -/
theorem sara_123_9_and_123_1 :
    ¬ ∀ (solutionStr groundTruth : Str) (x y : ℚ),
      extractNumericAnswer solutionStr = some (.finite x) →
      numericValue groundTruth = some (.finite y) →
        (computeSaraIntegerPartAccuracy solutionStr groundTruth = .ok (some true) ↔
          intOfFloat x = intOfFloat y) := by
  intro hclaim
  have h := hclaim boxed123 "123.1".toList _ _ extractNumericAnswer_boxed123 numericValue_123_1
  have hparts : intOfFloat (roundDouble (1239 / 10)) = intOfFloat (roundDouble (1231 / 10)) := by
    rw [carry_123_9.1, carry_123_1.1]
  have htrue := h.mpr hparts
  rw [computeSaraIntegerPartAccuracy_eq extractNumericAnswer_boxed123 numericValue_123_1,
    carry_123_9.1, carry_123_9.2, carry_123_1.1, carry_123_1.2] at htrue
  cases htrue

/-- 123.9 on both sides. -/
theorem sara_integer_part_123_9 :
    computeSaraIntegerPartAccuracy boxed123 "123.9".toList = .ok (some true) :=
  ((sara_integer_part_iff boxed123 "123.9".toList _ _ extractNumericAnswer_boxed123
    numericValue_123_9).1.mpr ⟨fun _ => rfl, fun h => absurd rfl h⟩).mpr rfl

end RLCM.Eval
