/-
# `RLCM.ForcedOutput.Rewards` — aggregating scores, placing them on tokens

The reward helpers of `forced_output_utils.py`: scores of the answers at one
budget become a budget reward, budget rewards become the reward of a trace,
and the rewards of a batch become a token-level tensor that is zero except at
the last valid token of every row.

Each helper has an abstract counterpart (`multiAgg`, `agg`), total and without
the special case for one value; the lemmas say that with a supported mode the
helper computes it.
-/
import RLCM.Py.Error
import RLCM.Lib.Stats
import RLCM.Lib.Row

namespace RLCM.ForcedOutput

open Py Stats

/-- `forced_output.reward_aggregation`. -/
inductive RewardAggregation where
  | mean
  | linearWeighted
  | other (name : String)
deriving DecidableEq

/-- `forced_output.multi_answer_aggregation`. -/
inductive MultiAnswerAggregation where
  | mean
  | max
  | other (name : String)
deriving DecidableEq

/-- One of the two documented modes. -/
def RewardAggregation.Supported : RewardAggregation → Prop
  | .other _ => False
  | _ => True

/-- One of the two documented methods. -/
def MultiAnswerAggregation.Supported : MultiAnswerAggregation → Prop
  | .other _ => False
  | _ => True

/-! ## The helpers -/

/-- `np.dot`. -/
def dot (xs ys : List ℚ) : ℚ := (List.zipWith (· * ·) xs ys).sum

/-- `np.arange(1, n + 1)`. -/
def arange1 (n : ℕ) : List ℚ := (List.range n).map (fun k : ℕ => (k : ℚ) + 1)

def aggregateRewards (rewardsPerBudget : List ℚ) (aggregationMode : RewardAggregation) :
    Except Error ℚ :=
  match rewardsPerBudget with
  | [] => .error (.valueError "rewards_per_budget cannot be empty")
  | [r] => .ok r
  | rs =>
      match aggregationMode with
      | .mean => .ok (mean rs)
      | .linearWeighted =>
          let weights := arange1 rs.length
          .ok (dot (weights.map (· / weights.sum)) rs)
      | .other name =>
          .error (.valueError ("Unknown reward aggregation mode: " ++ name ++
            ". Supported: 'mean', 'linear_weighted'."))

def aggregateRewardsBatch (rewardsMatrix : List (List ℚ))
    (aggregationMode : RewardAggregation) : Except Error (List ℚ) :=
  rewardsMatrix.mapM (fun r => aggregateRewards r aggregationMode)

/-- `max` of a non-empty list. -/
def maxOf : List ℚ → ℚ
  | [] => 0
  | r :: rs => rs.foldl max r

def aggregateMultiAnswerRewards (perAnswerRewards : List ℚ)
    (method : MultiAnswerAggregation) : Except Error ℚ :=
  match perAnswerRewards with
  | [] => .error (.valueError "per_answer_rewards cannot be empty")
  | [r] => .ok r
  | rs =>
      match method with
      | .mean => .ok (mean rs)
      | .max => .ok (maxOf rs)
      | .other name =>
          .error (.valueError ("Unknown multi-answer aggregation method: " ++ name ++
            ". Supported: 'mean', 'max'."))

/-- The body of the loop of `create_token_level_reward_tensor`. -/
def rewardRow {L : ℕ} (responseMask : Option (List (Fin L → ℕ))) (i : ℕ) (reward : ℚ) :
    Except Error (Fin L → ℚ) :=
  match responseMask with
  | some rows => do
      let validPositions := Row.nonzero (← getItem rows i)
      pure (validPositions.getLast?.elim 0 (fun lastPos => Row.single lastPos reward))
  | none =>
      if h : 0 < L then .ok (Row.single ⟨L - 1, by omega⟩ reward) else .error .indexError

/-- `create_token_level_reward_tensor`; the row width `L` is
`response_length`. -/
def createTokenLevelRewardTensor {L : ℕ} (aggregatedRewards : List ℚ)
    (responseMask : Option (List (Fin L → ℕ))) : Except Error (List (Fin L → ℚ)) :=
  aggregatedRewards.zipIdx.mapM (fun r => rewardRow responseMask r.2 r.1)

/-! ## What they compute -/

/-- The aggregate of a list of budget rewards, the `k`-th of `m` weighted by
`k / (1 + … + m)` in the linear mode. -/
def agg : RewardAggregation → List ℚ → ℚ
  | .linearWeighted, rs =>
      (rs.zipIdx.map (fun rk => ((rk.2 : ℚ) + 1) / (arange1 rs.length).sum * rk.1)).sum
  | _, rs => mean rs

/-- The aggregate of the scores of the answers at one budget. -/
def multiAgg : MultiAnswerAggregation → List ℚ → ℚ
  | .max, rs => maxOf rs
  | _, rs => mean rs

@[simp] theorem agg_nil (mode : RewardAggregation) : agg mode [] = 0 := by
  cases mode <;> simp [agg, mean]

theorem agg_singleton (mode : RewardAggregation) (r : ℚ) : agg mode [r] = r := by
  cases mode <;> simp [agg, arange1]

theorem multiAgg_singleton (method : MultiAnswerAggregation) (r : ℚ) :
    multiAgg method [r] = r := by
  cases method <;> simp [multiAgg, maxOf]

theorem dot_weights (rs : List ℚ) (c : ℚ) :
    dot ((arange1 rs.length).map (· / c)) rs =
      (rs.zipIdx.map (fun rk => ((rk.2 : ℚ) + 1) / c * rk.1)).sum := by
  unfold dot
  congr 1
  apply List.ext_getElem
  · simp [arange1]
  · intro i h₁ h₂
    simp [arange1]

theorem aggregateRewards_eq_agg {mode : RewardAggregation} (hmode : mode.Supported)
    {rs : List ℚ} (hne : rs ≠ []) : aggregateRewards rs mode = .ok (agg mode rs) := by
  match rs, mode with
  | [r], mode =>
      rw [agg_singleton]
      rfl
  | _ :: _ :: _, .mean => rfl
  | r :: r' :: rs, .linearWeighted =>
      simp only [aggregateRewards, agg]
      rw [dot_weights]

theorem aggregateMultiAnswerRewards_eq_multiAgg {method : MultiAnswerAggregation}
    (hmethod : method.Supported) {rs : List ℚ} (hne : rs ≠ []) :
    aggregateMultiAnswerRewards rs method = .ok (multiAgg method rs) := by
  match rs, method with
  | [r], method =>
      rw [multiAgg_singleton]
      rfl
  | _ :: _ :: _, .mean => rfl
  | _ :: _ :: _, .max => rfl

theorem multiAgg_of_ok {method : MultiAnswerAggregation} {xs : List ℚ} {r : ℚ}
    (h : aggregateMultiAnswerRewards xs method = .ok r) : r = multiAgg method xs := by
  match xs, method, h with
  | [_], method, h =>
      cases h
      exact (multiAgg_singleton method _).symm
  | _ :: _ :: _, .mean, h => exact (Except.ok.inj h).symm
  | _ :: _ :: _, .max, h => exact (Except.ok.inj h).symm

theorem createTokenLevelRewardTensor_eq {L : ℕ} {rewards : List ℚ}
    {rows : List (Fin L → ℕ)} (hlen : rewards.length ≤ rows.length) :
    createTokenLevelRewardTensor rewards (some rows) =
      .ok (List.zipWith (fun reward row =>
        (Row.nonzero row).getLast?.elim 0 (fun lastPos => Row.single lastPos reward))
        rewards rows) := by
  unfold createTokenLevelRewardTensor
  rw [mapM_eq_map (g := fun r => (Row.nonzero (rows.getD r.2 0)).getLast?.elim 0
    (fun lastPos => Row.single lastPos r.1))]
  · congr 1
    apply List.ext_getElem
    · simpa using hlen
    · intro i h₁ h₂
      have hi : i < rows.length := by
        simp only [List.length_map, List.length_zipIdx] at h₁
        omega
      simp [hi]
  · intro r hr
    have hlt : r.2 < rows.length := by
      have := List.snd_lt_of_mem_zipIdx hr
      omega
    simp [rewardRow, getItem_of_lt hlt, hlt]

end RLCM.ForcedOutput
