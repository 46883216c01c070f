/-
# `RLCM.Lib.Scoring` — scoring rules for a stated probability

A binary scoring rule gives a score to an outcome, `1` or `0`, and the probability that
was stated for it.  It is strictly proper if the expected score is highest exactly where
the stated probability is the true one (`StrictlyProper`).

The quadratic rule takes the squared distance from the outcome off the outcome; over any
ordered field it is strictly proper, and it never puts a miss above a hit.
-/
import Mathlib.Algebra.Order.Field.Basic
import Mathlib.Tactic.Linarith
import Mathlib.Tactic.Ring

namespace Scoring

variable {K : Type*} [Field K] [LinearOrder K]

/-- The expected score of stating `c` for an outcome of probability `p`. -/
def expected (rule : K → K → K) (p c : K) : K := p * rule 1 c + (1 - p) * rule 0 c

/-- No stated probability is worth more than the true one, and no other as much. -/
def StrictlyProper (rule : K → K → K) : Prop :=
  ∀ p c, 0 ≤ p → p ≤ 1 → 0 ≤ c → c ≤ 1 →
    expected rule p c ≤ expected rule p p ∧ (expected rule p c = expected rule p p ↔ c = p)

/-- The outcome, less the squared distance of the stated probability from it. -/
def quadratic (outcome c : K) : K := outcome - (outcome - c) ^ 2

omit [LinearOrder K] in
/-- What is lost is the squared distance from the true probability. -/
theorem expected_quadratic (p c : K) : expected quadratic p c = p ^ 2 - (c - p) ^ 2 := by
  simp only [expected, quadratic]
  ring

omit [LinearOrder K] in
theorem expected_quadratic_self (p : K) : expected quadratic p p = p ^ 2 := by
  rw [expected_quadratic, sub_self]
  ring

section Ordered

variable [IsStrictOrderedRing K]

theorem strictlyProper_quadratic : StrictlyProper (quadratic : K → K → K) := by
  intro p c _ _ _ _
  rw [expected_quadratic, expected_quadratic_self]
  constructor
  · exact sub_le_self _ (sq_nonneg _)
  · rw [sub_eq_self, sq_eq_zero_iff, sub_eq_zero]

/-- The score of a hit is in the upper half. -/
theorem quadratic_one_mem {c : K} (h0 : 0 ≤ c) (h1 : c ≤ 1) :
    0 ≤ quadratic 1 c ∧ quadratic 1 c ≤ 1 := by
  have hsq : (1 - c) ^ 2 ≤ 1 := pow_le_one₀ (sub_nonneg.mpr h1) (sub_le_self 1 h0)
  constructor
  · exact sub_nonneg.mpr hsq
  · exact sub_le_self 1 (sq_nonneg _)

/-- The score of a miss is in the lower half. -/
theorem quadratic_zero_mem {c : K} (h0 : 0 ≤ c) (h1 : c ≤ 1) :
    -1 ≤ quadratic 0 c ∧ quadratic 0 c ≤ 0 := by
  have hsq : (0 - c) ^ 2 ≤ 1 := by
    rw [zero_sub, neg_sq]
    exact pow_le_one₀ h0 h1
  constructor
  · rw [quadratic, zero_sub]
    exact neg_le_neg hsq
  · exact sub_nonpos.mpr (sq_nonneg _)

end Ordered

end Scoring
