/-
# `RLCM.ForcedOutput.RewardMonotone` — more correctness never costs reward

The reward of a sample is an average over its budgets of scaled averages over the
answers at each, plus the natural score.  Both helpers of
`forced_output_utils.py` are averages in the sense of `RLCM.Lib.Averaging`, so
with a weight that is not negative a raised score never lowers the reward, and
the reward stays between the scaled bounds of the scores.

`rewardFromScores` is the reward as a function of the raw scores alone;
`aggregated_eq_rewardFromScores` finds it in what the reward function returns.
-/
import RLCM.ForcedOutput.RewardReference
import RLCM.Lib.Averaging

namespace RLCM.ForcedOutput

open Py Stats Averaging

/-! ## The helpers are averages -/

theorem isAverage_maxOf : IsAverage maxOf := by
  refine isAverage_of_max fun xs hne => ?_
  obtain ⟨r, rs, rfl⟩ := List.exists_cons_of_ne_nil hne
  rfl

theorem isAverage_multiAgg (method : MultiAnswerAggregation) : IsAverage (multiAgg method) := by
  cases method with
  | mean => exact isAverage_mean
  | max => exact isAverage_maxOf
  | other name => exact isAverage_mean

def linearWeights (n : ℕ) : List ℚ := (arange1 n).map (· / (arange1 n).sum)

theorem length_linearWeights (n : ℕ) : (linearWeights n).length = n := by
  simp [linearWeights, arange1]

theorem sum_arange1_pos {n : ℕ} (hn : n ≠ 0) : 0 < (arange1 n).sum := by
  refine List.sum_pos _ ?_ ?_
  · intro x hx
    obtain ⟨k, -, rfl⟩ := List.mem_map.mp hx
    exact Nat.cast_add_one_pos k
  · intro hnil
    have hlen := congrArg List.length hnil
    simp [arange1] at hlen
    exact hn hlen

theorem linearWeights_getElem? {n k : ℕ} (hk : k < n) :
    (linearWeights n)[k]? = some (((k : ℚ) + 1) / (arange1 n).sum) := by
  simp [linearWeights, arange1, hk]

theorem linearWeights_nonneg (n : ℕ) : ∀ w ∈ linearWeights n, 0 ≤ w := by
  intro w hw
  obtain ⟨k, hk⟩ := List.mem_iff_getElem?.mp hw
  have hlt : k < n := by
    have h := (List.getElem?_eq_some_iff.mp hk).1
    rwa [length_linearWeights] at h
  rw [linearWeights_getElem? hlt] at hk
  obtain rfl := Option.some.inj hk
  have hpos := sum_arange1_pos (Nat.ne_zero_of_lt hlt)
  exact div_nonneg (Nat.cast_add_one_pos k).le hpos.le

theorem sum_linearWeights {n : ℕ} (hn : n ≠ 0) : (linearWeights n).sum = 1 := by
  unfold linearWeights
  simp only [div_eq_mul_inv]
  rw [List.sum_map_mul_right, List.map_id']
  exact mul_inv_cancel₀ (sum_arange1_pos hn).ne'

theorem agg_linearWeighted (rs : List ℚ) :
    agg .linearWeighted rs = weightedSum (linearWeights rs.length) rs :=
  (dot_weights rs (arange1 rs.length).sum).symm

theorem isAverage_agg (mode : RewardAggregation) : IsAverage (agg mode) := by
  cases mode with
  | mean => exact isAverage_mean
  | linearWeighted =>
      have h : IsAverage (fun rs : List ℚ => weightedSum (linearWeights rs.length) rs) :=
        isAverage_weightedSum length_linearWeights linearWeights_nonneg fun _ => sum_linearWeights
      exact (funext agg_linearWeighted : agg .linearWeighted = _) ▸ h
  | other name => exact isAverage_mean

/-! ## The reward from the raw scores -/

section Scores

variable (cfg : TrainerConfig)

/-- The reward of a sample from the natural score and the scores of the answers
at each budget, by the helpers. -/
def rewardFromScores (natural : ℚ) (scores : List (List ℚ)) : Except Error ℚ := do
  let perBudgetRewards ← scores.mapM (fun perAnswerRewards => do
    let budgetReward ← aggregateMultiAnswerRewards perAnswerRewards cfg.foMultiAnswerAgg
    pure (budgetReward * cfg.foBudgetRewardWeight))
  let aggregated ← aggregateRewards perBudgetRewards cfg.foRewardAggregation
  pure (if cfg.foIncludeNaturalTrace then aggregated + natural else aggregated)

def naturalPart (natural : ℚ) : ℚ := if cfg.foIncludeNaturalTrace then natural else 0

variable {cfg}

theorem rewardFromScores_eq (hagg : cfg.foRewardAggregation.Supported)
    (hmulti : cfg.foMultiAnswerAgg.Supported) (natural : ℚ) {scores : List (List ℚ)}
    (hne : scores ≠ []) (hrows : ∀ s ∈ scores, s ≠ []) :
    rewardFromScores cfg natural scores = .ok (naturalPart cfg natural +
      agg cfg.foRewardAggregation (scores.map
        (fun s => multiAgg cfg.foMultiAnswerAgg s * cfg.foBudgetRewardWeight))) := by
  have hbudgets : scores.mapM (fun perAnswerRewards => do
      let budgetReward ← aggregateMultiAnswerRewards perAnswerRewards cfg.foMultiAnswerAgg
      pure (budgetReward * cfg.foBudgetRewardWeight)) =
      .ok (scores.map (fun s => multiAgg cfg.foMultiAnswerAgg s * cfg.foBudgetRewardWeight)) := by
    refine mapM_eq_map fun s hs => ?_
    rw [aggregateMultiAnswerRewards_eq_multiAgg hmulti (hrows s hs)]
    rfl
  unfold rewardFromScores
  rw [hbudgets, ok_bind, aggregateRewards_eq_agg hagg (fun h => hne (List.map_eq_nil_iff.mp h)),
    ok_bind, naturalPart]
  cases cfg.foIncludeNaturalTrace with
  | true => exact congrArg Except.ok (add_comm _ _)
  | false => exact congrArg Except.ok (zero_add _).symm

/-- A raised score, of the natural trace or of an answer, does not lower the
reward, and the reward is between the scaled bounds of the scores. -/
structure RewardsCorrectness (cfg : TrainerConfig) (natural : ℚ) (scores : List (List ℚ)) (r : ℚ) :
    Prop where
  naturalRaised : ∀ natural', natural ≤ natural' →
    ∃ r', rewardFromScores cfg natural' scores = .ok r' ∧ r ≤ r'
  answerRaised : ∀ (j a : ℕ) (s : List ℚ) (x x' : ℚ), scores[j]? = some s → s[a]? = some x →
    x ≤ x' → ∃ r', rewardFromScores cfg natural (scores.set j (s.set a x')) = .ok r' ∧ r ≤ r'
  lower : ∀ lo, (∀ s ∈ scores, ∀ x ∈ s, lo ≤ x) →
    naturalPart cfg natural + cfg.foBudgetRewardWeight * lo ≤ r
  upper : ∀ hi, (∀ s ∈ scores, ∀ x ∈ s, x ≤ hi) →
    r ≤ naturalPart cfg natural + cfg.foBudgetRewardWeight * hi

theorem naturalPart_mono {natural natural' : ℚ} (h : natural ≤ natural') :
    naturalPart cfg natural ≤ naturalPart cfg natural' := by
  unfold naturalPart
  split_ifs
  · exact h
  · exact le_refl 0

variable (hagg : cfg.foRewardAggregation.Supported) (hmulti : cfg.foMultiAnswerAgg.Supported)
  (hweight : 0 ≤ cfg.foBudgetRewardWeight)
include hagg hmulti hweight

theorem rewardFromScores_mono {natural natural' r r' : ℚ} {scores scores' : List (List ℚ)}
    (hne : scores ≠ []) (hrows : ∀ s ∈ scores, s ≠ []) (hnatural : natural ≤ natural')
    (hscores : List.Forall₂ (List.Forall₂ (· ≤ ·)) scores scores')
    (hr : rewardFromScores cfg natural scores = .ok r)
    (hr' : rewardFromScores cfg natural' scores' = .ok r') : r ≤ r' := by
  have hne' := ne_nil_of_forall₂ hscores hne
  have hrows' : ∀ s ∈ scores', s ≠ [] := by
    clear hr hr' hne hne'
    induction hscores with
    | nil => exact List.forall_mem_nil _
    | cons hrow _ ih =>
        obtain ⟨hs, hrows⟩ := List.forall_mem_cons.mp hrows
        exact List.forall_mem_cons.mpr ⟨ne_nil_of_forall₂ hrow hs, ih hrows⟩
  rw [rewardFromScores_eq hagg hmulti natural hne hrows] at hr
  rw [rewardFromScores_eq hagg hmulti natural' hne' hrows'] at hr'
  rw [← Except.ok.inj hr, ← Except.ok.inj hr']
  exact add_le_add (naturalPart_mono hnatural)
    (nested_mono (isAverage_agg _) (isAverage_multiAgg _) hweight hne hrows hscores)

theorem rewardsCorrectness {natural r : ℚ} {scores : List (List ℚ)} (hne : scores ≠ [])
    (hrows : ∀ s ∈ scores, s ≠ []) (hr : rewardFromScores cfg natural scores = .ok r) :
    RewardsCorrectness cfg natural scores r where
  naturalRaised := by
    intro natural' hle
    have hr' := rewardFromScores_eq hagg hmulti natural' hne hrows
    have hsame : List.Forall₂ (List.Forall₂ (· ≤ ·)) scores scores :=
      List.forall₂_same.mpr fun _ _ => List.forall₂_same.mpr fun _ _ => le_refl _
    exact ⟨_, hr', rewardFromScores_mono hagg hmulti hweight hne hrows hle hsame hr hr'⟩
  answerRaised := by
    intro j a s x x' hs hx hle
    have hraised := forall₂_set_row hs (forall₂_set hx hle)
    have hne' : scores.set j (s.set a x') ≠ [] := ne_nil_of_forall₂ hraised hne
    have hrows' : ∀ t ∈ scores.set j (s.set a x'), t ≠ [] := by
      intro t ht
      rcases List.mem_or_eq_of_mem_set ht with ht | rfl
      · exact hrows t ht
      · exact ne_nil_of_forall₂ (forall₂_set hx hle) (hrows s (List.mem_of_getElem? hs))
    have hr' := rewardFromScores_eq hagg hmulti natural hne' hrows'
    exact ⟨_, hr', rewardFromScores_mono hagg hmulti hweight hne hrows (le_refl _) hraised hr hr'⟩
  lower := by
    intro lo hlo
    rw [rewardFromScores_eq hagg hmulti natural hne hrows] at hr
    rw [← Except.ok.inj hr, mul_comm]
    exact add_le_add (le_refl _)
      (nested_lower (isAverage_agg _) (isAverage_multiAgg _) hweight hne hrows hlo)
  upper := by
    intro hi hhi
    rw [rewardFromScores_eq hagg hmulti natural hne hrows] at hr
    rw [← Except.ok.inj hr, mul_comm]
    exact add_le_add (le_refl _)
      (nested_upper (isAverage_agg _) (isAverage_multiAgg _) hweight hne hrows hhi)

end Scores

/-! ## The reward function -/

section Function

variable {Token Truth Info : Type} {cfg : TrainerConfig} {tok : Tokenizer Token}
  {scorer : Scorer Truth Info}

def rawScores (cfg : TrainerConfig) (scorer : Scorer Truth Info) (item : Item Token Truth Info) :
    List (List ℚ) := item.budgets.map (scoresAt cfg scorer item)

theorem rawScores_ne_nil {item : Item Token Truth Info} (hbudgets : item.budgets ≠ []) :
    rawScores cfg scorer item ≠ [] := fun h => hbudgets (List.map_eq_nil_iff.mp h)

theorem rows_rawScores (item : Item Token Truth Info) :
    ∀ s ∈ rawScores cfg scorer item, s ≠ [] := by
  intro s hs
  obtain ⟨budget, -, rfl⟩ := List.mem_map.mp hs
  exact scoresAt_ne_nil cfg scorer item budget

def naturalScore (tok : Tokenizer Token) (scorer : Scorer Truth Info)
    (item : Item Token Truth Info) : ℚ := (computeNaturalTraceReward tok scorer item).1

variable (hagg : cfg.foRewardAggregation.Supported) (hmulti : cfg.foMultiAnswerAgg.Supported)
include hagg hmulti

theorem aggregated_eq_rewardFromScores {L : ℕ} {batch : Batch Token Truth Info L}
    {out : ForcedOutputRewards L} (hout : computeForcedOutputRewards cfg tok scorer batch = .ok out)
    {i : ℕ} {item : Item Token Truth Info} (hitem : batch.items[i]? = some item)
    (hbudgets : item.budgets ≠ []) :
    ∃ r, out.extraInfos.forcedOutputAggregatedReward[i]? = some r ∧
      rewardFromScores cfg (naturalScore tok scorer item) (rawScores cfg scorer item) = .ok r := by
  refine ⟨referenceReward cfg tok scorer item, ?_, ?_⟩
  · rw [extraInfos_of_supported cfg tok scorer hagg hmulti hout]
    change (batch.items.map (referenceReward cfg tok scorer))[i]? = _
    rw [List.getElem?_map, hitem]
    rfl
  · rw [rewardFromScores_eq hagg hmulti _ (rawScores_ne_nil hbudgets) (rows_rawScores item)]
    refine congrArg Except.ok ?_
    have hnatural : naturalPart cfg (naturalScore tok scorer item) =
        (naturalRewardOf cfg tok scorer item).getD 0 := by
      unfold naturalPart naturalRewardOf
      split_ifs
      · rfl
      · rfl
    rw [hnatural, referenceReward, rawScores, budgetRewards, List.map_map, List.map_map]
    simp only [Function.comp_def, mul_comm]

end Function

section TwoScorers

variable {Token Truth Info : Type} (cfg : TrainerConfig) (tok : Tokenizer Token)
  (scorer scorer' : Scorer Truth Info) {item : Item Token Truth Info}

/-- The second scorer gives no text of the sample a lower score. -/
def RaisesScores (item : Item Token Truth Info) : Prop :=
  ∀ text ∈ item.scoredTexts cfg tok, scoreOf scorer item text ≤ scoreOf scorer' item text

variable {cfg tok scorer scorer'} (h : RaisesScores cfg tok scorer scorer' item)
include h

theorem naturalScore_mono : naturalScore tok scorer item ≤ naturalScore tok scorer' item := by
  unfold naturalScore computeNaturalTraceReward
  dsimp only
  split_ifs
  · exact le_refl 0
  · exact h (item.naturalText tok) List.mem_cons_self

theorem rawScores_mono :
    List.Forall₂ (List.Forall₂ (· ≤ ·)) (rawScores cfg scorer item)
      (rawScores cfg scorer' item) := by
  unfold rawScores
  rw [List.forall₂_map_left_iff, List.forall₂_map_right_iff, List.forall₂_same]
  intro budget hbudget
  unfold scoresAt
  rw [List.forall₂_map_left_iff, List.forall₂_map_right_iff, List.forall₂_same]
  intro text htext
  exact h text (List.mem_cons_of_mem _ (List.mem_flatMap.mpr ⟨budget, hbudget, htext⟩))

end TwoScorers

/-! ## Later budgets -/

/-- The same amount is worth at least as much at a later budget. -/
theorem linearWeighted_later {rs : List ℚ} {j j' : ℕ} {d : ℚ} (hd : 0 ≤ d) (hle : j ≤ j')
    (hj' : j' < rs.length) :
    ∃ r r', aggregateRewards (rs.modify j (· + d)) .linearWeighted = .ok r ∧
      aggregateRewards (rs.modify j' (· + d)) .linearWeighted = .ok r' ∧ r ≤ r' := by
  have hvalue : ∀ k < rs.length, aggregateRewards (rs.modify k (· + d)) .linearWeighted =
      .ok (weightedSum (linearWeights rs.length) rs +
        ((k : ℚ) + 1) / (arange1 rs.length).sum * d) := by
    intro k hk
    have hne : rs.modify k (· + d) ≠ [] := by
      rw [← List.length_pos_iff, List.length_modify]
      exact Nat.zero_lt_of_lt hk
    have hsupported : RewardAggregation.linearWeighted.Supported := trivial
    rw [aggregateRewards_eq_agg hsupported hne, agg_linearWeighted, List.length_modify,
      weightedSum_modify d (linearWeights_getElem? hk) hk]
  have hsum := sum_arange1_pos (Nat.ne_zero_of_lt hj')
  refine ⟨_, _, hvalue j (Nat.lt_of_le_of_lt hle hj'), hvalue j' hj', ?_⟩
  have hcast : (j : ℚ) + 1 ≤ (j' : ℚ) + 1 := by exact_mod_cast Nat.succ_le_succ hle
  exact add_le_add (le_refl _)
    (mul_le_mul_of_nonneg_right (div_le_div_of_nonneg_right hcast hsum.le) hd)

/-! ## More correctness never costs reward -/

/-- With supported modes and a weight that is not negative, from any table of
scores: a raised score never lowers the reward, which is between the scaled
bounds of the scores.  The reward function gives every sample that reward, and
under a scorer that raises scores of its texts at least as much; and with linear
weights an amount counts at least as much at a later budget. -/
theorem more_correctness_never_costs_reward {Token Truth Info : Type} (cfg : TrainerConfig)
    (hagg : cfg.foRewardAggregation.Supported) (hmulti : cfg.foMultiAnswerAgg.Supported)
    (hweight : 0 ≤ cfg.foBudgetRewardWeight) :
    (∀ (natural : ℚ) (scores : List (List ℚ)), scores ≠ [] → (∀ s ∈ scores, s ≠ []) →
      ∃ r, rewardFromScores cfg natural scores = .ok r ∧
        RewardsCorrectness cfg natural scores r) ∧
    (∀ (L : ℕ) (tok : Tokenizer Token) (scorer scorer' : Scorer Truth Info)
      (batch : Batch Token Truth Info L) (out out' : ForcedOutputRewards L),
      computeForcedOutputRewards cfg tok scorer batch = .ok out →
      computeForcedOutputRewards cfg tok scorer' batch = .ok out' →
      ∀ (i : ℕ) (item : Item Token Truth Info), batch.items[i]? = some item → item.budgets ≠ [] →
        ∃ r r', out.extraInfos.forcedOutputAggregatedReward[i]? = some r ∧
          rewardFromScores cfg (naturalScore tok scorer item) (rawScores cfg scorer item) = .ok r ∧
          out'.extraInfos.forcedOutputAggregatedReward[i]? = some r' ∧
          (RaisesScores cfg tok scorer scorer' item → r ≤ r')) ∧
    ∀ (rs : List ℚ) (j j' : ℕ) (d : ℚ), 0 ≤ d → j ≤ j' → j' < rs.length →
      ∃ r r', aggregateRewards (rs.modify j (· + d)) .linearWeighted = .ok r ∧
        aggregateRewards (rs.modify j' (· + d)) .linearWeighted = .ok r' ∧ r ≤ r' := by
  refine ⟨?_, ?_, fun rs j j' d hd hle hj' => linearWeighted_later hd hle hj'⟩
  · intro natural scores hne hrows
    have hr := rewardFromScores_eq hagg hmulti natural hne hrows
    exact ⟨_, hr, rewardsCorrectness hagg hmulti hweight hne hrows hr⟩
  · intro L tok scorer scorer' batch out out' hout hout' i item hitem hbudgets
    obtain ⟨r, hentry, hr⟩ := aggregated_eq_rewardFromScores hagg hmulti hout hitem hbudgets
    obtain ⟨r', hentry', hr'⟩ := aggregated_eq_rewardFromScores hagg hmulti hout' hitem hbudgets
    refine ⟨r, r', hentry, hr, hentry', fun hraises => ?_⟩
    exact rewardFromScores_mono hagg hmulti hweight (rawScores_ne_nil hbudgets)
      (rows_rawScores item) (naturalScore_mono hraises) (rawScores_mono hraises) hr hr'

/-- Two budgets with two answers each, weight `1 / 2`. -/
theorem more_correctness_never_costs_reward_twoBudgets :
    ∃ r, rewardFromScores ⟨.linearWeighted, 2, .max, true, 1 / 2, [.int 1, .int 2]⟩ 1
        [[0, 1], [-1, 0]] = .ok r ∧
      RewardsCorrectness ⟨.linearWeighted, 2, .max, true, 1 / 2, [.int 1, .int 2]⟩ 1
        [[0, 1], [-1, 0]] r :=
  (@more_correctness_never_costs_reward Char Unit Unit
    ⟨.linearWeighted, 2, .max, true, 1 / 2, [.int 1, .int 2]⟩ trivial trivial
    (by decide +kernel)).1 1 [[0, 1], [-1, 0]] (by decide) (by decide)

end RLCM.ForcedOutput
