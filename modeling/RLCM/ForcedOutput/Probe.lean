/-
# `RLCM.ForcedOutput.Probe` — the budget probe

`BudgetProbeTrainer` reads one hidden-state vector for every sample and budget,
trains on them, and turns its predictions into rewards.  The three reward
methods share a shape: walk over the samples and concatenate the feature
vectors of those that have budgets, predict once, and cut the predictions back
by a running offset.

The probe itself is a parameter, a function on vectors: `predict` applies it row
by row.  Arithmetic is exact; `log` and `sqrt` are parameters.  A mean that the
code reports as NaN is `none`.
-/
import RLCM.Lib.Blocks
import RLCM.Lib.Stats
import Mathlib.Algebra.Field.Rat
import Mathlib.Data.Fin.Tuple.Basic

namespace RLCM.ForcedOutput

open Py Stats

/-- `BudgetProbeTrainer.VALID_REWARD_MODES`. -/
inductive RewardMode where
  | crossEntropy
  | accuracy
  | brier
  | confDiff
  | confDiffV1
  | confDiffV2
  | confDiffV3
  | confMarginCovar
  | rankingReward
deriving DecidableEq

/-- The settings of `BudgetProbeTrainer` that rewards depend on. -/
structure ProbeConfig where
  avgLastK : ℕ
  rewardMode : RewardMode
  marginCorner : Bool
  rankingRewardRt : ℚ
  confDiffV2Tau : ℚ
  confDiffV2Alpha : ℚ
  confDiffV3AlphaBoth : ℚ
  confDiffV3AlphaOnlyCorrect : ℚ
  confDiffV3AlphaOnlyIncorrect : ℚ

def rankingConfidenceThreshold : ℚ := 1 / 2

abbrev Features (d : ℕ) := Fin d → ℚ

variable {d : ℕ}

/-! ## Features -/

def meanRows (rows : List (Features d)) : Features d := fun k => mean (rows.map (· k))

/-- The body of the loop of `extract_budget_hidden_states`. -/
def budgetHiddenState (hiddenStates : List (Features d)) (promptLength avgLastK bp : ℕ) :
    Features d :=
  let endPos := min (promptLength + bp) hiddenStates.length
  let startPos := endPos - avgLastK
  if endPos ≤ startPos then 0 else meanRows (Blocks.slice hiddenStates startPos endPos)

/-- `extract_budget_hidden_states`; `torch.stack` needs at least one row. -/
def extractBudgetHiddenStates (hiddenStates : List (Features d)) (promptLength : ℕ)
    (budgetPositions : List ℕ) (avgLastK : ℕ) : Except Error (List (Features d)) :=
  if budgetPositions = [] then
    .error (.runtimeError "stack expects a non-empty TensorList")
  else .ok (budgetPositions.map (budgetHiddenState hiddenStates promptLength avgLastK))

theorem extractBudgetHiddenStates_of_ne {budgets : List ℕ} (h : budgets ≠ [])
    (hiddenStates : List (Features d)) (promptLength avgLastK : ℕ) :
    extractBudgetHiddenStates hiddenStates promptLength budgets avgLastK =
      .ok (budgets.map (budgetHiddenState hiddenStates promptLength avgLastK)) :=
  if_neg h

section Trainer

variable (cfg : ProbeConfig) (probe : Features d → ℚ) (fns : Elementary)

def predict (features : List (Features d)) : List ℚ := features.map probe

/-! ## Training pairs -/

/-- The body of the loop of `collect_probe_data`. -/
def collectStep (batchHiddenStates : List (List (Features d))) (batchPromptLengths : List ℕ)
    (batchBudgetPositions : List (List ℕ)) (batchMcAccuracies : List (List ℚ))
    (st : List (Features d) × List ℚ) (i : ℕ) : Except Error (List (Features d) × List ℚ) := do
  let hs ← getItem batchHiddenStates i
  let budgets ← getItem batchBudgetPositions i
  let mcAccs ← getItem batchMcAccuracies i
  if budgets = [] ∨ mcAccs = [] then pure st
  else
    let promptLength ← getItem batchPromptLengths i
    let features ← extractBudgetHiddenStates hs promptLength budgets cfg.avgLastK
    pure (st.1 ++ features, st.2 ++ mcAccs)

def collectProbeData (batchHiddenStates : List (List (Features d)))
    (batchPromptLengths : List ℕ) (batchBudgetPositions : List (List ℕ))
    (batchMcAccuracies : List (List ℚ)) : Except Error (List (Features d) × List ℚ) :=
  (List.range batchPromptLengths.length).foldlM
    (collectStep cfg batchHiddenStates batchPromptLengths batchBudgetPositions
      batchMcAccuracies) ([], [])

/-! ## Gathering -/

/-- What the first loop of the reward methods fills: the feature vectors of all
samples in a row, and for every sample its number of budgets and its targets. -/
structure Gathered (d : ℕ) where
  allFeatures : List (Features d)
  counts : List (ℕ × List ℚ)

/-- The targets of sample `i`; zeros if the caller passed none for it. -/
def targetsOf (batchMcAccuracies : Option (List (List ℚ))) (i count : ℕ) : List ℚ :=
  (batchMcAccuracies.bind (fun mcs => mcs[i]?)).getD (List.replicate count 0)

/-- The body of the first loop. -/
def gatherStep (batchHiddenStates : List (List (Features d))) (batchPromptLengths : List ℕ)
    (batchBudgetPositions : List (List ℕ)) (batchMcAccuracies : Option (List (List ℚ)))
    (st : Gathered d) (i : ℕ) : Except Error (Gathered d) := do
  let hs ← getItem batchHiddenStates i
  let budgets ← getItem batchBudgetPositions i
  if budgets = [] then pure ⟨st.allFeatures, st.counts ++ [(0, [])]⟩
  else
    let promptLength ← getItem batchPromptLengths i
    let features ← extractBudgetHiddenStates hs promptLength budgets cfg.avgLastK
    pure ⟨st.allFeatures ++ features,
      st.counts ++ [(budgets.length, targetsOf batchMcAccuracies i budgets.length)]⟩

/-- The first loop. -/
def gather (batchHiddenStates : List (List (Features d))) (batchPromptLengths : List ℕ)
    (batchBudgetPositions : List (List ℕ)) (batchMcAccuracies : Option (List (List ℚ))) :
    Except Error (Gathered d) :=
  (List.range batchPromptLengths.length).foldlM
    (gatherStep cfg batchHiddenStates batchPromptLengths batchBudgetPositions
      batchMcAccuracies) ⟨[], []⟩

/-! ## Metrics -/

/-- `_summary`: mean and population standard deviation, NaN if empty. -/
def summary (vals : List ℚ) : Option ℚ × Option ℚ :=
  if vals = [] then (none, none)
  else (some (mean vals), some (populationStd fns vals))

/-- `_build_confidence_bucket_metrics`: `probe/mean_conf_correct` and so on. -/
structure ConfidenceBucketMetrics where
  meanConfCorrect : Option ℚ
  meanConfIncorrect : Option ℚ
  stdConfCorrect : Option ℚ
  stdConfIncorrect : Option ℚ

def buildConfidenceBucketMetrics (correctPreds incorrectPreds : List ℚ) :
    ConfidenceBucketMetrics where
  meanConfCorrect := (summary fns correctPreds).1
  meanConfIncorrect := (summary fns incorrectPreds).1
  stdConfCorrect := (summary fns correctPreds).2
  stdConfIncorrect := (summary fns incorrectPreds).2

/-- `np.mean` of a list that may be empty, where the code writes NaN. -/
def meanOrNan (vals : List ℚ) : Option ℚ := if vals = [] then none else some (mean vals)

/-! ## Per-budget rewards -/

/-- An elementwise operation of two 1-D tensors, with broadcasting of a single
element. -/
def elementwise (f : ℚ → ℚ → ℚ) (preds targets : List ℚ) : Except Error (List ℚ) :=
  if preds.length = targets.length then .ok (List.zipWith f preds targets)
  else
    match preds, targets with
    | [p], targets => .ok (targets.map (f p))
    | preds, [t] => .ok (preds.map (f · t))
    | _, _ => .error (.runtimeError "The size of tensor a must match the size of tensor b")

def perSampleModeMessage : String :=
  "probe reward mode 'conf_diff'/'conf_diff_v1'/'conf_diff_v2'/'conf_diff_v3'/" ++
  "'conf_margin_covar'/'ranking_reward' cannot be computed via " ++
  "_compute_reward_signal; use the per-sample reward helpers instead."

def rewardSignal : RewardMode → Option (ℚ → ℚ → ℚ)
  | .crossEntropy => some (fun pred target =>
      let eps : ℚ := 1 / 10000000
      let p := clamp eps (1 - eps) pred
      target * fns.log p + (1 - target) * fns.log (1 - p))
  | .accuracy => some (fun pred target =>
      if decide (1 / 2 < pred) = decide (1 / 2 < target) then 1 else 0)
  | .brier => some (fun pred target => -(pred - target) ^ 2)
  | _ => none

def computeRewardSignal (preds targets : List ℚ) (mode : RewardMode) :
    Except Error (List ℚ) :=
  match rewardSignal fns mode with
  | some f => elementwise f preds targets
  | none => .error (.valueError perSampleModeMessage)

def computeProbeRewards (batchHiddenStates : List (List (Features d)))
    (batchPromptLengths : List ℕ) (batchBudgetPositions : List (List ℕ))
    (batchMcAccuracies : Option (List (List ℚ))) : Except Error (List (List ℚ)) := do
  let gathered ← gather cfg batchHiddenStates batchPromptLengths batchBudgetPositions
    batchMcAccuracies
  if gathered.allFeatures = [] then pure (batchPromptLengths.map (fun _ => []))
  else
    let preds := predict probe gathered.allFeatures
    let rewards ← computeRewardSignal fns preds (gathered.counts.flatMap Prod.snd) cfg.rewardMode
    Blocks.walk Prod.fst (fun _ block => pure block) rewards gathered.counts

/-! ## Ranking rewards -/

/-- The metrics of `compute_ranking_rewards`. -/
structure RankingMetrics where
  rankingRewardRt : ℚ
  rankingHighConfThreshold : ℚ
  rankingAvgConfMean : Option ℚ
  rankingAvgConfCorrect : Option ℚ
  rankingAvgConfIncorrect : Option ℚ
  rankingHighConfRate : Option ℚ

/-- `_build_metrics` of `compute_ranking_rewards`. -/
def buildRankingMetrics (avgConfAll avgConfCorrect avgConfIncorrect highConfFlags : List ℚ) :
    RankingMetrics where
  rankingRewardRt := cfg.rankingRewardRt
  rankingHighConfThreshold := rankingConfidenceThreshold
  rankingAvgConfMean := meanOrNan avgConfAll
  rankingAvgConfCorrect := meanOrNan avgConfCorrect
  rankingAvgConfIncorrect := meanOrNan avgConfIncorrect
  rankingHighConfRate := meanOrNan highConfFlags

/-- What the second loop of `compute_ranking_rewards` makes of one sample: its
reward, and `(avg_conf, is_correct)` if it has budgets. -/
def rankingOf (row : (ℕ × List ℚ) × Bool) (samplePreds : List ℚ) :
    ℚ × Option (ℚ × Bool) :=
  if row.1.1 = 0 then (0, none)
  else
    let avgConf := mean samplePreds
    let isHighConf := decide (rankingConfidenceThreshold < avgConf)
    if row.2 then (if isHighConf then 1 else cfg.rankingRewardRt, some (avgConf, true))
    else (if isHighConf then -1 else -cfg.rankingRewardRt, some (avgConf, false))

def computeRankingRewards (batchHiddenStates : List (List (Features d)))
    (batchPromptLengths : List ℕ) (batchBudgetPositions : List (List ℕ))
    (naturalCorrect : Option (List Bool)) : Except Error (List ℚ × RankingMetrics) := do
  let naturalCorrect ← naturalCorrect.elim
    (.error (.valueError "natural_correct is required for probe reward mode 'ranking_reward'"))
    .ok
  if naturalCorrect.length ≠ batchPromptLengths.length then
    .error (.valueError ("natural_correct must have the same length as batch_prompt_lengths, " ++
      "got " ++ toString naturalCorrect.length ++ " and " ++
      toString batchPromptLengths.length))
  else
    let gathered ← gather cfg batchHiddenStates batchPromptLengths batchBudgetPositions none
    if gathered.allFeatures = [] then
      pure (batchPromptLengths.map (fun _ => 0), buildRankingMetrics cfg [] [] [] [])
    else
      let preds := predict probe gathered.allFeatures
      let ranked ← Blocks.walk (fun row => row.1.1)
        (fun row block => pure (rankingOf cfg row block))
        preds (gathered.counts.zip naturalCorrect)
      let confs := ranked.filterMap Prod.snd
      pure (ranked.map Prod.fst, buildRankingMetrics cfg (confs.map Prod.fst)
        ((confs.filter (fun c => c.2)).map Prod.fst)
        ((confs.filter (fun c => !c.2)).map Prod.fst)
        (confs.map (fun c => if rankingConfidenceThreshold < c.1 then 1 else 0)))

/-! ## Confidence-difference rewards -/

/-- `[sample_preds[j] for j in range(count) if mc_accs[j] == value]`. -/
def confsWhere (value : ℚ) (samplePreds mcAccs : List ℚ) : List ℚ :=
  ((samplePreds.zip mcAccs).filter (fun pm => pm.2 = value)).map Prod.fst

/-- The reward of a sample from the mean confidence on its correct and on its
incorrect budgets. -/
def confDiffReward (marginCorner : Bool) :
    Option ℚ → Option ℚ → ℚ
  | none, none => 0
  | some muConfCorrect, some muConfIncorrect =>
      if cfg.rewardMode = .confDiffV3 then
        cfg.confDiffV3AlphaBoth * (muConfCorrect - muConfIncorrect)
      else muConfCorrect - muConfIncorrect
  | some muConfCorrect, none =>
      if marginCorner then
        match cfg.rewardMode with
        | .confDiffV3 => cfg.confDiffV3AlphaOnlyCorrect * (muConfCorrect - cfg.confDiffV2Tau)
        | .confDiffV2 => cfg.confDiffV2Alpha * (muConfCorrect - cfg.confDiffV2Tau)
        | _ => muConfCorrect
      else 0
  | none, some muConfIncorrect =>
      if marginCorner then
        match cfg.rewardMode with
        | .confDiffV3 => cfg.confDiffV3AlphaOnlyIncorrect * (cfg.confDiffV2Tau - muConfIncorrect)
        | .confDiffV2 => cfg.confDiffV2Alpha * (cfg.confDiffV2Tau - muConfIncorrect)
        | .confDiffV1 => -muConfIncorrect
        | .confMarginCovar => -muConfIncorrect
        | _ => 1 - muConfIncorrect
      else 0

/-- What the second loop of `compute_conf_diff_rewards` makes of one sample:
its reward and its two confidence buckets. -/
def confDiffOf (marginCorner : Bool) (row : ℕ × List ℚ) (samplePreds : List ℚ) :
    Except Error (ℚ × List ℚ × List ℚ) :=
  if row.1 = 0 then .ok (0, [], [])
  else if row.2.length < row.1 then .error .indexError
  else
    let correctConfs := confsWhere 1 samplePreds row.2
    let incorrectConfs := confsWhere 0 samplePreds row.2
    .ok (confDiffReward cfg marginCorner (meanOrNan correctConfs) (meanOrNan incorrectConfs),
      correctConfs, incorrectConfs)

/-- `compute_conf_diff_rewards`; with all budget lists empty there are no
metrics. -/
def computeConfDiffRewards (batchHiddenStates : List (List (Features d)))
    (batchPromptLengths : List ℕ) (batchBudgetPositions : List (List ℕ))
    (batchMcAccuracies : Option (List (List ℚ))) (marginCorner : Option Bool) :
    Except Error (List ℚ × Option ConfidenceBucketMetrics) := do
  let marginCorner := marginCorner.getD cfg.marginCorner
  let gathered ← gather cfg batchHiddenStates batchPromptLengths batchBudgetPositions
    batchMcAccuracies
  if gathered.allFeatures = [] then pure (batchPromptLengths.map (fun _ => 0), none)
  else
    let preds := predict probe gathered.allFeatures
    let diffs ← Blocks.walk Prod.fst (confDiffOf cfg marginCorner) preds gathered.counts
    pure (diffs.map Prod.fst, some (buildConfidenceBucketMetrics fns
      (diffs.flatMap (fun diff => diff.2.1)) (diffs.flatMap (fun diff => diff.2.2))))

end Trainer

end RLCM.ForcedOutput
