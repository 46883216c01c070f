/-
# `RLCM.RewardScore.ProperScore` — what the confidence score rewards

Whatever text the confidence tag holds, the confidence that is used lies between zero and
one, so the score of a correct response is never below that of an incorrect one; and the
score is the quadratic rule of `RLCM.Lib.Scoring`, so the expected score is highest exactly
where the stated confidence is the probability of being correct.
-/
import Mathlib.Data.Real.Basic
import RLCM.Lib.Scoring
import RLCM.Py.Nearest
import RLCM.RewardScore.LastTags

namespace RLCM.RewardScore

open Py Scoring

/-- A confidence that the code takes from a text is a probability. -/
theorem statedConfidence_mem {confRaw : Str} {c : ℚ} (h : statedConfidence confRaw = some c) :
    0 ≤ c ∧ c ≤ 1 := by
  rw [statedConfidence] at h
  split at h
  case h_1 => cases h
  case h_2 groups _ =>
    dsimp only at h
    split at h
    case isTrue hval =>
      split at h
      case isTrue hsmall =>
        obtain rfl := Option.some.inj h
        exact ⟨hval.1, hsmall⟩
      case isFalse =>
        obtain rfl := Option.some.inj h
        have hnonneg := div_nonneg hval.1 (by norm_num : (0 : ℚ) ≤ 100)
        exact ⟨roundDouble_nonneg hnonneg,
          roundDouble_le_one hnonneg ((div_le_one (by norm_num)).mpr hval.2)⟩
    case isFalse =>
      split at h
      case isTrue hval =>
        obtain rfl := Option.some.inj h
        exact hval
      case isFalse => cases h

theorem confidence_mem (solutionStr : Str) :
    0 ≤ (extractAnswerAndConfidence solutionStr).2.1 ∧
      (extractAnswerAndConfidence solutionStr).2.1 ≤ 1 := by
  rw [extractAnswerAndConfidence_snd]
  cases hstated : (confRaw solutionStr).bind statedConfidence with
  | none =>
      show (0 : ℚ) ≤ 1 / 2 ∧ (1 : ℚ) / 2 ≤ 1
      norm_num
  | some c =>
      obtain ⟨raw, -, hraw⟩ := Option.bind_eq_some_iff.mp hstated
      exact statedConfidence_mem hraw

theorem computeScore_score (solutionStr groundTruth : Str) :
    (computeScore solutionStr groundTruth).score =
      quadratic ((computeScore solutionStr groundTruth).acc : ℚ)
        (computeScore solutionStr groundTruth).confidence := by
  rfl

theorem computeScore_acc_eq (solutionStr groundTruth : Str) :
    (computeScore solutionStr groundTruth).acc = 1 ∨
      (computeScore solutionStr groundTruth).acc = 0 := by
  rw [computeScore_acc]
  split
  case isTrue => exact Or.inl rfl
  case isFalse => exact Or.inr rfl

/-- The score of a correct response is not negative, that of an incorrect one not
positive. -/
theorem score_mem (solutionStr groundTruth : Str) :
    let result := computeScore solutionStr groundTruth
    (result.acc = 1 → 0 ≤ result.score ∧ result.score ≤ 1) ∧
      (result.acc = 0 → -1 ≤ result.score ∧ result.score ≤ 0) := by
  intro result
  have hmem : 0 ≤ result.confidence ∧ result.confidence ≤ 1 := confidence_mem solutionStr
  have hscore : result.score = quadratic (result.acc : ℚ) result.confidence :=
    computeScore_score solutionStr groundTruth
  constructor
  · intro hacc
    rw [hscore, hacc, Int.cast_one]
    exact quadratic_one_mem hmem.1 hmem.2
  · intro hacc
    rw [hscore, hacc, Int.cast_zero]
    exact quadratic_zero_mem hmem.1 hmem.2

/-- The score is bounded, ordered and proper: it is the quadratic rule at a confidence
between zero and one, correct responses never score below incorrect ones, and the expected
score of a stated confidence is at most the square of the probability of being correct, and
that only where the confidence is the probability. -/
theorem computeScore_proper :
    (∀ solutionStr groundTruth,
      let result := computeScore solutionStr groundTruth
      result.score = quadratic (result.acc : ℚ) result.confidence ∧
        (0 ≤ result.confidence ∧ result.confidence ≤ 1) ∧
        (result.acc = 1 ∧ (0 ≤ result.score ∧ result.score ≤ 1) ∨
          result.acc = 0 ∧ (-1 ≤ result.score ∧ result.score ≤ 0))) ∧
    (∀ solutionStr groundTruth solutionStr' groundTruth',
      (computeScore solutionStr groundTruth).acc = 1 →
      (computeScore solutionStr' groundTruth').acc = 0 →
        (computeScore solutionStr' groundTruth').score ≤
          (computeScore solutionStr groundTruth).score) ∧
    (∀ p c : ℝ, 0 ≤ p → p ≤ 1 → 0 ≤ c → c ≤ 1 →
      p * quadratic 1 c + (1 - p) * quadratic 0 c ≤ p ^ 2 ∧
        (p * quadratic 1 c + (1 - p) * quadratic 0 c = p ^ 2 ↔ c = p)) := by
  refine ⟨?_, ?_, ?_⟩
  · intro s g
    refine ⟨computeScore_score s g, confidence_mem s, ?_⟩
    rcases computeScore_acc_eq s g with hacc | hacc
    · exact Or.inl ⟨hacc, (score_mem s g).1 hacc⟩
    · exact Or.inr ⟨hacc, (score_mem s g).2 hacc⟩
  · intro s g s' g' hacc hacc'
    have hcorrect := ((score_mem s g).1 hacc).1
    have hincorrect := ((score_mem s' g').2 hacc').2
    exact hincorrect.trans hcorrect
  · intro p c hp0 hp1 hc0 hc1
    have hproper := strictlyProper_quadratic p c hp0 hp1 hc0 hc1
    rw [expected_quadratic_self] at hproper
    exact hproper

end RLCM.RewardScore
