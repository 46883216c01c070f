/-
# `RLCM.ForcedOutput.ConfDiffLaws` — which way the margin reward pushes

A trace is what the margin reward sees of a sample: the confidence and the MC accuracy at
every budget (`ProbeSample.trace`), and the reward is a function of it (`traceReward`).

Confidences on budgets that are always right may only raise the reward, on budgets that are
always wrong only lower it, and all others do not count, whatever the mode and the corner
setting: `marginReward_laws`.
-/
import RLCM.ForcedOutput.ProbeBatch

namespace RLCM.ForcedOutput

open Py Stats Averaging

variable {d : ℕ}

/-- The confidences at the budgets with accuracy `value`. -/
def confsAt (value : ℚ) (trace : List (ℚ × ℚ)) : List ℚ :=
  (trace.filter (fun ca => ca.2 = value)).map Prod.fst

def traceReward (cfg : ProbeConfig) (marginCorner : Bool) (trace : List (ℚ × ℚ)) : ℚ :=
  confDiffReward cfg marginCorner (meanOrNan (confsAt 1 trace)) (meanOrNan (confsAt 0 trace))

/-- The confidence and the accuracy at every budget of a sample. -/
def ProbeSample.trace (cfg : ProbeConfig) (probe : Features d → ℚ) (sample : ProbeSample d) :
    List (ℚ × ℚ) :=
  (sample.preds cfg probe).zip sample.mcAccuracies

theorem confDiffRewards_eq (cfg : ProbeConfig) (probe : Features d → ℚ) (fns : Elementary)
    (marginCorner : Option Bool) (samples : List (ProbeSample d)) :
    confDiffRewards cfg probe fns marginCorner samples =
      .ok (samples.map (fun sample =>
        traceReward cfg (marginCorner.getD cfg.marginCorner) (sample.trace cfg probe))) := by
  obtain ⟨metrics, h⟩ := computeConfDiffRewards_eq cfg probe fns samples marginCorner
  rw [confDiffRewards, h]
  rfl

/-! ## One confidence -/

theorem confsAt_append (value : ℚ) (trace trace' : List (ℚ × ℚ)) :
    confsAt value (trace ++ trace') = confsAt value trace ++ confsAt value trace' := by
  rw [confsAt, List.filter_append, List.map_append]
  rfl

theorem confsAt_cons_self (value c : ℚ) (trace : List (ℚ × ℚ)) :
    confsAt value ((c, value) :: trace) = c :: confsAt value trace := by
  simp [confsAt]

theorem confsAt_cons_of_ne {value a : ℚ} (h : a ≠ value) (c : ℚ) (trace : List (ℚ × ℚ)) :
    confsAt value ((c, a) :: trace) = confsAt value trace := by
  simp [confsAt, h]

theorem mean_insert_mono (xs ys : List ℚ) {c c' : ℚ} (h : c ≤ c') :
    mean (xs ++ c :: ys) ≤ mean (xs ++ c' :: ys) := by
  have hraised : List.Forall₂ (· ≤ ·) (xs ++ c :: ys) (xs ++ c' :: ys) :=
    List.rel_append (List.forall₂_same.mpr fun _ _ => le_rfl)
      (.cons h (List.forall₂_same.mpr fun _ _ => le_rfl))
  exact isAverage_mean.mono hraised
    (List.append_ne_nil_of_right_ne_nil xs (List.cons_ne_nil c ys))

theorem meanOrNan_insert (xs ys : List ℚ) (c : ℚ) :
    meanOrNan (xs ++ c :: ys) = some (mean (xs ++ c :: ys)) :=
  if_neg (List.append_ne_nil_of_right_ne_nil xs (List.cons_ne_nil c ys))

/-! ## The two means -/

/-- The weights of the margins are not negative. -/
def ProbeConfig.AlphasNonneg (cfg : ProbeConfig) : Prop :=
  0 ≤ cfg.confDiffV2Alpha ∧ 0 ≤ cfg.confDiffV3AlphaBoth ∧
    0 ≤ cfg.confDiffV3AlphaOnlyCorrect ∧ 0 ≤ cfg.confDiffV3AlphaOnlyIncorrect

section Config

variable {cfg : ProbeConfig}

/-- The reward grows with the mean confidence on the correct budgets. -/
theorem confDiffReward_mono (halpha : cfg.AlphasNonneg) (marginCorner : Bool)
    (incorrect : Option ℚ) {mu mu' : ℚ} (h : mu ≤ mu') :
    confDiffReward cfg marginCorner (some mu) incorrect ≤
      confDiffReward cfg marginCorner (some mu') incorrect := by
  obtain ⟨h2, hboth, hcorrect, -⟩ := halpha
  cases incorrect with
  | some muIncorrect =>
      have hdiff : mu - muIncorrect ≤ mu' - muIncorrect := sub_le_sub_right h _
      simp only [confDiffReward]
      split
      case isTrue => exact mul_le_mul_of_nonneg_left hdiff hboth
      case isFalse => exact hdiff
  | none =>
      have htau : mu - cfg.confDiffV2Tau ≤ mu' - cfg.confDiffV2Tau := sub_le_sub_right h _
      simp only [confDiffReward]
      split
      case isTrue =>
        split
        case h_1 => exact mul_le_mul_of_nonneg_left htau hcorrect
        case h_2 => exact mul_le_mul_of_nonneg_left htau h2
        case h_3 => exact h
      case isFalse => exact le_rfl

/-- It falls with the mean confidence on the incorrect ones. -/
theorem confDiffReward_anti (halpha : cfg.AlphasNonneg) (marginCorner : Bool)
    (correct : Option ℚ) {mu mu' : ℚ} (h : mu ≤ mu') :
    confDiffReward cfg marginCorner correct (some mu') ≤
      confDiffReward cfg marginCorner correct (some mu) := by
  obtain ⟨h2, hboth, -, hincorrect⟩ := halpha
  cases correct with
  | some muCorrect =>
      have hdiff : muCorrect - mu' ≤ muCorrect - mu := sub_le_sub_left h _
      simp only [confDiffReward]
      split
      case isTrue => exact mul_le_mul_of_nonneg_left hdiff hboth
      case isFalse => exact hdiff
  | none =>
      have htau : cfg.confDiffV2Tau - mu' ≤ cfg.confDiffV2Tau - mu := sub_le_sub_left h _
      simp only [confDiffReward]
      split
      case isTrue =>
        split
        case h_1 => exact mul_le_mul_of_nonneg_left htau hincorrect
        case h_2 => exact mul_le_mul_of_nonneg_left htau h2
        case h_3 => exact neg_le_neg h
        case h_4 => exact neg_le_neg h
        case h_5 => exact sub_le_sub_left h 1
      case isFalse => exact le_rfl

/-! ## The laws of the margin -/

/-- Raising the confidence at a budget that is always right never lowers the reward. -/
theorem traceReward_mono (halpha : cfg.AlphasNonneg) (marginCorner : Bool)
    (before after : List (ℚ × ℚ)) {c c' : ℚ} (h : c ≤ c') :
    traceReward cfg marginCorner (before ++ (c, 1) :: after) ≤
      traceReward cfg marginCorner (before ++ (c', 1) :: after) := by
  have hcorrect : ∀ x : ℚ, meanOrNan (confsAt 1 (before ++ (x, 1) :: after)) =
      some (mean (confsAt 1 before ++ x :: confsAt 1 after)) := by
    intro x
    rw [confsAt_append, confsAt_cons_self, meanOrNan_insert]
  have hincorrect : ∀ x : ℚ, confsAt 0 (before ++ (x, 1) :: after) =
      confsAt 0 before ++ confsAt 0 after := by
    intro x
    rw [confsAt_append, confsAt_cons_of_ne one_ne_zero]
  rw [traceReward, traceReward, hcorrect, hcorrect, hincorrect, hincorrect]
  exact confDiffReward_mono halpha marginCorner _ (mean_insert_mono _ _ h)

/-- Raising it at a budget that is always wrong never raises the reward. -/
theorem traceReward_anti (halpha : cfg.AlphasNonneg) (marginCorner : Bool)
    (before after : List (ℚ × ℚ)) {c c' : ℚ} (h : c ≤ c') :
    traceReward cfg marginCorner (before ++ (c', 0) :: after) ≤
      traceReward cfg marginCorner (before ++ (c, 0) :: after) := by
  have hincorrect : ∀ x : ℚ, meanOrNan (confsAt 0 (before ++ (x, 0) :: after)) =
      some (mean (confsAt 0 before ++ x :: confsAt 0 after)) := by
    intro x
    rw [confsAt_append, confsAt_cons_self, meanOrNan_insert]
  have hcorrect : ∀ x : ℚ, confsAt 1 (before ++ (x, 0) :: after) =
      confsAt 1 before ++ confsAt 1 after := by
    intro x
    rw [confsAt_append, confsAt_cons_of_ne zero_ne_one]
  rw [traceReward, traceReward, hcorrect, hcorrect, hincorrect, hincorrect]
  exact confDiffReward_anti halpha marginCorner _ (mean_insert_mono _ _ h)

/-- A budget that is sometimes right does not count. -/
theorem traceReward_insert (cfg : ProbeConfig) (marginCorner : Bool) (before after : List (ℚ × ℚ))
    (c : ℚ) {a : ℚ} (h0 : 0 < a) (h1 : a < 1) :
    traceReward cfg marginCorner (before ++ (c, a) :: after) =
      traceReward cfg marginCorner (before ++ after) := by
  have hconfs : ∀ value, a ≠ value →
      confsAt value (before ++ (c, a) :: after) = confsAt value (before ++ after) := by
    intro value hne
    rw [confsAt_append, confsAt_append, confsAt_cons_of_ne hne]
  rw [traceReward, traceReward, hconfs 1 h1.ne, hconfs 0 h0.ne']

theorem meanOrNan_confsAt_mem {trace : List (ℚ × ℚ)} (h : ∀ ca ∈ trace, 0 ≤ ca.1 ∧ ca.1 ≤ 1)
    (value : ℚ) : ∀ mu ∈ meanOrNan (confsAt value trace), 0 ≤ mu ∧ mu ≤ 1 := by
  intro mu hmu
  rw [meanOrNan] at hmu
  split at hmu
  case isTrue => cases hmu
  case isFalse hne =>
    obtain rfl := Option.some.inj hmu
    refine mean_mem hne (fun x hx => ?_)
    obtain ⟨ca, hca, rfl⟩ := List.mem_map.mp hx
    exact h ca (List.mem_filter.mp hca).1

/-- The modes whose reward is a difference of two means, or one of them. -/
def ProbeConfig.PlainMargin (cfg : ProbeConfig) : Prop :=
  cfg.rewardMode = .confDiff ∨ cfg.rewardMode = .confDiffV1 ∨ cfg.rewardMode = .confMarginCovar

theorem confDiffReward_both (hmode : cfg.PlainMargin) (marginCorner : Bool) (mu mu' : ℚ) :
    confDiffReward cfg marginCorner (some mu) (some mu') = mu - mu' := by
  have hv3 : cfg.rewardMode ≠ .confDiffV3 := by
    rcases hmode with hmode | hmode | hmode
    · simp [hmode]
    · simp [hmode]
    · simp [hmode]
  rw [confDiffReward, if_neg hv3]

theorem confDiffReward_onlyCorrect (hmode : cfg.PlainMargin) (mu : ℚ) :
    confDiffReward cfg true (some mu) none = mu := by
  rcases hmode with hmode | hmode | hmode
  · simp [confDiffReward, hmode]
  · simp [confDiffReward, hmode]
  · simp [confDiffReward, hmode]

/-- A sample that is always incorrect gets one less its mean confidence, or zero less it. -/
theorem confDiffReward_onlyIncorrect (hmode : cfg.PlainMargin) (mu : ℚ) :
    confDiffReward cfg true none (some mu) = 1 - mu ∨
      confDiffReward cfg true none (some mu) = -mu := by
  rcases hmode with hmode | hmode | hmode
  · exact Or.inl (by simp [confDiffReward, hmode])
  · exact Or.inr (by simp [confDiffReward, hmode])
  · exact Or.inr (by simp [confDiffReward, hmode])

/-- So the reward is between minus one and one. -/
theorem confDiffReward_mem (hmode : cfg.PlainMargin) (marginCorner : Bool)
    {correct incorrect : Option ℚ} (hcorrect : ∀ mu ∈ correct, 0 ≤ mu ∧ mu ≤ 1)
    (hincorrect : ∀ mu ∈ incorrect, 0 ≤ mu ∧ mu ≤ 1) :
    -1 ≤ confDiffReward cfg marginCorner correct incorrect ∧
      confDiffReward cfg marginCorner correct incorrect ≤ 1 := by
  have hzero : (-1 : ℚ) ≤ 0 ∧ (0 : ℚ) ≤ 1 := ⟨by norm_num, zero_le_one⟩
  cases correct with
  | none =>
      cases incorrect with
      | none => exact hzero
      | some mu' =>
          obtain ⟨h0, h1⟩ := hincorrect mu' rfl
          cases marginCorner with
          | false => exact hzero
          | true =>
              rcases confDiffReward_onlyIncorrect hmode mu' with heq | heq
              · rw [heq]
                exact ⟨hzero.1.trans (sub_nonneg.mpr h1), sub_le_self 1 h0⟩
              · rw [heq]
                exact ⟨neg_le_neg h1, (neg_nonpos.mpr h0).trans zero_le_one⟩
  | some mu =>
      obtain ⟨h0, h1⟩ := hcorrect mu rfl
      cases incorrect with
      | none =>
          cases marginCorner with
          | false => exact hzero
          | true =>
              rw [confDiffReward_onlyCorrect hmode]
              exact ⟨hzero.1.trans h0, h1⟩
      | some mu' =>
          obtain ⟨h0', h1'⟩ := hincorrect mu' rfl
          rw [confDiffReward_both hmode]
          exact ⟨by linarith, by linarith⟩

theorem traceReward_mem (hmode : cfg.PlainMargin) (marginCorner : Bool) {trace : List (ℚ × ℚ)}
    (h : ∀ ca ∈ trace, 0 ≤ ca.1 ∧ ca.1 ≤ 1) :
    -1 ≤ traceReward cfg marginCorner trace ∧ traceReward cfg marginCorner trace ≤ 1 :=
  confDiffReward_mem hmode marginCorner (meanOrNan_confsAt_mem h 1) (meanOrNan_confsAt_mem h 0)

/-- The settings of version 3 under which it is version 2. -/
def ProbeConfig.asV3 (cfg : ProbeConfig) : ProbeConfig :=
  { cfg with
    rewardMode := .confDiffV3
    confDiffV3AlphaBoth := 1
    confDiffV3AlphaOnlyCorrect := cfg.confDiffV2Alpha
    confDiffV3AlphaOnlyIncorrect := cfg.confDiffV2Alpha }

theorem confDiffReward_asV3 (hmode : cfg.rewardMode = .confDiffV2) (marginCorner : Bool)
    (correct incorrect : Option ℚ) :
    confDiffReward cfg.asV3 marginCorner correct incorrect =
      confDiffReward cfg marginCorner correct incorrect := by
  cases correct with
  | none =>
      cases incorrect with
      | none => rfl
      | some mu' => simp [confDiffReward, ProbeConfig.asV3, hmode]
  | some mu =>
      cases incorrect with
      | none => simp [confDiffReward, ProbeConfig.asV3, hmode]
      | some mu' => simp [confDiffReward, ProbeConfig.asV3, hmode]

end Config

/-- The laws of the margin reward, in every mode and with every corner setting.  The reward
of a sample is a function of its trace; it does not fall when the confidence rises at a budget
of accuracy one, does not rise when it rises at one of accuracy zero, and does not depend on
the others; in the modes without weights it is between minus one and one; and version 3 with
the weights of version 2 is version 2. -/
theorem marginReward_laws (cfg : ProbeConfig) (halpha : cfg.AlphasNonneg)
    (marginCorner : Option Bool) :
    let reward := traceReward cfg (marginCorner.getD cfg.marginCorner)
    (∀ (d : ℕ) (probe : Features d → ℚ) (fns : Elementary) (samples : List (ProbeSample d)),
      confDiffRewards cfg probe fns marginCorner samples =
        .ok (samples.map (fun sample => reward (sample.trace cfg probe)))) ∧
    (∀ before after c c', c ≤ c' →
      reward (before ++ (c, 1) :: after) ≤ reward (before ++ (c', 1) :: after)) ∧
    (∀ before after c c', c ≤ c' →
      reward (before ++ (c', 0) :: after) ≤ reward (before ++ (c, 0) :: after)) ∧
    (∀ before after c a, 0 < a → a < 1 →
      reward (before ++ (c, a) :: after) = reward (before ++ after)) ∧
    (cfg.PlainMargin → ∀ trace : List (ℚ × ℚ), (∀ ca ∈ trace, 0 ≤ ca.1 ∧ ca.1 ≤ 1) →
      -1 ≤ reward trace ∧ reward trace ≤ 1) ∧
    (cfg.rewardMode = .confDiffV2 → ∀ trace,
      traceReward cfg.asV3 (marginCorner.getD cfg.marginCorner) trace = reward trace) := by
  intro reward
  refine ⟨?_, ?_, ?_, ?_, ?_, ?_⟩
  · intro d probe fns samples
    exact confDiffRewards_eq cfg probe fns marginCorner samples
  · intro before after c c' h
    exact traceReward_mono halpha _ before after h
  · intro before after c c' h
    exact traceReward_anti halpha _ before after h
  · intro before after c a h0 h1
    exact traceReward_insert cfg _ before after c h0 h1
  · intro hmode trace h
    exact traceReward_mem hmode _ h
  · intro hmode trace
    exact confDiffReward_asV3 hmode _ _ _

/-- Version 2, on a trace with one budget that is always right. -/
theorem marginReward_laws_accuracyConfig :
    traceReward { accuracyConfig with rewardMode := .confDiffV2 } true [(1 / 2, 1)] ≤
      traceReward { accuracyConfig with rewardMode := .confDiffV2 } true [(1, 1)] :=
  (marginReward_laws { accuracyConfig with rewardMode := .confDiffV2 }
    ⟨zero_le_one, zero_le_one, zero_le_one, zero_le_one⟩ (some true)).2.1 [] [] (1 / 2) 1
    (by norm_num)

end RLCM.ForcedOutput
