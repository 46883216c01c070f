/-
# `RLCM.ForcedOutput.Trainer` — the rewards of a batch of traces

`_compute_forced_output_rewards` walks over the samples of a batch.  For each
it scores the forced answers at every budget and, if configured, the natural
trace, and appends to about ten parallel lists; a second pass aggregates
across budgets and adds the natural rewards by `zip`.

The scorer and the tokenizer are parameters.  A scorer may raise, return a
number or return a dictionary; `np.nan` as the reward of a natural trace that
was not scored is `none`.  The details of a sample are kept as data, not as
the JSON text the code stores.
-/
import RLCM.ForcedOutput.AgentLoop
import RLCM.ForcedOutput.Rewards

namespace RLCM.ForcedOutput

open Py Stats

variable {Token Truth Info : Type}

/-- What `reward_fn.compute_score` is asked. -/
structure ScoreQuery (Truth Info : Type) where
  dataSource : Str
  solutionStr : Str
  groundTruth : Option Truth
  extraInfo : Dict Str Info

/-- What `reward_fn.compute_score` does: raise, return a number, or return a
dictionary, whose `score` may be missing or not a number. -/
inductive ScoreResult where
  | raised
  | number (x : ℚ)
  | dict (score : Option (Option ℚ)) (acc : Option Bool) (pred : Option Str)

abbrev Scorer (Truth Info : Type) := ScoreQuery Truth Info → ScoreResult

/-- The forced-output settings of the trainer. -/
structure TrainerConfig where
  foRewardAggregation : RewardAggregation
  foNumForcedAnswers : ℕ
  foMultiAnswerAgg : MultiAnswerAggregation
  foIncludeNaturalTrace : Bool
  foBudgetRewardWeight : ℚ
  foBudgetCheckpoints : List Budget

/-- One sample of the batch.  The budgets stored by the agent loop are
ascending. -/
structure Item (Token Truth Info : Type) where
  groundTruth : Option Truth
  dataSource : Option Str
  extraInfo : Option (Dict Str Info)
  promptLength : ℕ
  attentionMask : List ℕ
  responses : List Token
  traceLength : Option ℕ
  forcedFullTexts : Option (Dict ℕ Str)
  forcedFullTextsMulti : Option (Dict ℕ (List Str))
  budgetCheckpoints : Option (List ℕ)
  ascending : ∀ budgets ∈ budgetCheckpoints, StrictAsc budgets

/-- A batch whose responses have width `L`; the mask, if there is one, has a
row for every sample. -/
structure Batch (Token Truth Info : Type) (L : ℕ) where
  items : List (Item Token Truth Info)
  responseMask : Option (List (Fin L → ℕ))
  length_responseMask : ∀ rows ∈ responseMask, rows.length = items.length

/-- An entry of `per_budget_details`. -/
inductive Detail where
  | multiAnswer (budget : ℕ) (reward rawReward budgetRewardWeight : ℚ)
      (perAnswerRewards : List ℚ) (numAnswers : ℕ) (multiAnswerAgg : MultiAnswerAggregation)
  | forcedBudget (budget : ℕ) (reward rawReward budgetRewardWeight : ℚ)
  | naturalTrace (reward : ℚ) (traceLength : ℕ) (acc : Option Bool) (pred : Option Str)
  | fallbackZero (reward : ℚ)

/-- What the loop over the samples appends for one sample. -/
structure SampleReward where
  perBudgetRewards : List ℚ
  naturalReward : Option ℚ
  naturalCorrect : Bool
  anyCorrect : Bool
  fallback : Bool
  numComponents : ℕ
  details : List Detail
  perBudgetMean : ℚ
  mcAccuracies : List ℚ
  budgetPositions : List ℕ

/-- `reward_extra_infos_dict`. -/
structure ExtraInfos where
  forcedOutputNaturalReward : List (Option ℚ)
  forcedOutputNaturalCorrect : List Bool
  forcedOutputAnyCorrect : List Bool
  forcedOutputFallback : List Bool
  forcedOutputNumComponents : List ℕ
  forcedOutputDetails : List (List Detail)
  forcedOutputPerBudgetMean : List ℚ
  forcedOutputAggregatedReward : List ℚ
  probeMcAccuracies : List (List ℚ)
  probeBudgetPositions : List (List ℕ)

/-- The lists the loop over the samples fills. -/
structure RewardLoop where
  rewardsMatrix : List (List ℚ)
  naturalReward : List (Option ℚ)
  naturalCorrect : List Bool
  anyCorrect : List Bool
  fallback : List Bool
  numComponents : List ℕ
  details : List (List Detail)
  perBudgetMean : List ℚ
  perSampleMcAccuracies : List (List ℚ)
  perSampleBudgetPositions : List (List ℕ)
  perBudgetRewardLists : Dict ℚ (List ℚ)

/-- The lists before the loop. -/
def RewardLoop.empty : RewardLoop where
  rewardsMatrix := []
  naturalReward := []
  naturalCorrect := []
  anyCorrect := []
  fallback := []
  numComponents := []
  details := []
  perBudgetMean := []
  perSampleMcAccuracies := []
  perSampleBudgetPositions := []
  perBudgetRewardLists := ∅

/-- What `_compute_forced_output_rewards` returns. -/
structure ForcedOutputRewards (L : ℕ) where
  rewardTensor : List (Fin L → ℚ)
  extraInfos : ExtraInfos
  perBudgetRewardLists : Dict ℚ (List ℚ)

/-! ## Scoring -/

/-- `_safe_compute_score`: a raising scorer counts as score `0`. -/
def safeComputeScore (scorer : Scorer Truth Info) (query : ScoreQuery Truth Info) :
    ℚ × Option (Option Bool × Option Str) :=
  match scorer query with
  | .raised => (0, none)
  | .number x => (x, none)
  | .dict none acc pred => (0, some (acc, pred))
  | .dict (some none) _ _ => (0, none)
  | .dict (some (some x)) acc pred => (x, some (acc, pred))

/-- The query about a text of this sample. -/
def Item.query (item : Item Token Truth Info) (solutionStr : Str) : ScoreQuery Truth Info where
  dataSource := item.dataSource.getD "unknown".toList
  solutionStr := solutionStr
  groundTruth := item.groundTruth
  extraInfo := item.extraInfo.getD ∅

/-- `valid_response_length`: the attention mask summed behind the prompt. -/
def Item.validResponseLength (item : Item Token Truth Info) : ℕ :=
  (item.attentionMask.drop item.promptLength).sum

def Item.naturalTraceLength (item : Item Token Truth Info) : ℕ :=
  min (item.traceLength.getD item.validResponseLength) item.validResponseLength

def computeNaturalTraceReward (tok : Tokenizer Token) (scorer : Scorer Truth Info)
    (item : Item Token Truth Info) : ℚ × Detail :=
  let naturalTraceLength := item.naturalTraceLength
  if naturalTraceLength = 0 then (0, .naturalTrace 0 naturalTraceLength none none)
  else
    let naturalSolutionStr := tok.decode (item.responses.take naturalTraceLength)
    let scored := safeComputeScore scorer (item.query naturalSolutionStr)
    (scored.1, .naturalTrace scored.1 naturalTraceLength (scored.2.bind Prod.fst)
      (scored.2.bind Prod.snd))

/-! ## One sample -/

/-- What the loop over the budgets of a sample fills. -/
structure BudgetLoop where
  perBudgetRewards : List ℚ
  perBudgetDetails : List Detail
  clampedToReward : Dict ℕ ℚ
  sampleMcAccs : List ℚ

def BudgetLoop.empty : BudgetLoop := ⟨[], [], ∅, []⟩

def Item.hasForcedOutputs (item : Item Token Truth Info) : Bool :=
  item.forcedFullTexts.isSome && item.budgetCheckpoints.isSome

/-- `forced_full_texts`, empty without forced outputs. -/
def Item.fullTexts (item : Item Token Truth Info) : Dict ℕ Str :=
  if item.hasForcedOutputs then item.forcedFullTexts.getD ∅ else ∅

/-- `forced_full_texts_multi`, `None` without forced outputs. -/
def Item.fullTextsMulti (item : Item Token Truth Info) : Option (Dict ℕ (List Str)) :=
  if item.hasForcedOutputs then item.forcedFullTextsMulti else none

/-- `budget_checkpoints`, empty without forced outputs. -/
def Item.budgets (item : Item Token Truth Info) : List ℕ :=
  if item.hasForcedOutputs then item.budgetCheckpoints.getD [] else []

section Config

variable (cfg : TrainerConfig) (tok : Tokenizer Token) (scorer : Scorer Truth Info)

/-- The body of the loop over the budgets of a sample. -/
def budgetStep (item : Item Token Truth Info) (st : BudgetLoop) (budget : ℕ) :
    Except Error BudgetLoop :=
  let single := item.fullTexts.getD budget []
  match item.fullTextsMulti.filter (fun _ => 1 < cfg.foNumForcedAnswers) with
  | some multi => do
      let answerTexts := multi.getD budget []
      let answerTexts := if answerTexts = [] then [single] else answerTexts
      let perAnswerRewards := answerTexts.map (fun solutionStr =>
        (safeComputeScore scorer (item.query solutionStr)).1)
      let budgetReward ← aggregateMultiAnswerRewards perAnswerRewards cfg.foMultiAnswerAgg
      let mcAcc := mean (perAnswerRewards.map (fun r => if 0 < r then 1 else 0))
      let weightedBudgetReward := budgetReward * cfg.foBudgetRewardWeight
      pure
        { perBudgetRewards := st.perBudgetRewards ++ [weightedBudgetReward]
          perBudgetDetails := st.perBudgetDetails ++
            [.multiAnswer budget weightedBudgetReward budgetReward cfg.foBudgetRewardWeight
              perAnswerRewards perAnswerRewards.length cfg.foMultiAnswerAgg]
          clampedToReward := st.clampedToReward.insert budget weightedBudgetReward
          sampleMcAccs := st.sampleMcAccs ++ [mcAcc] }
  | none =>
      let rewardVal := (safeComputeScore scorer (item.query single)).1
      let weightedRewardVal := rewardVal * cfg.foBudgetRewardWeight
      let mcAcc := if 0 < rewardVal then 1 else 0
      pure
        { perBudgetRewards := st.perBudgetRewards ++ [weightedRewardVal]
          perBudgetDetails := st.perBudgetDetails ++
            [.forcedBudget budget weightedRewardVal rewardVal cfg.foBudgetRewardWeight]
          clampedToReward := st.clampedToReward.insert budget weightedRewardVal
          sampleMcAccs := st.sampleMcAccs ++ [mcAcc] }

/-- The number a configured budget is as a dictionary key. -/
def Budget.value : Budget → ℚ
  | .int n => n
  | .float x => x

/-- The body of the loop that books a sample's rewards under the configured
budgets. -/
def attributeStep (traceLength : ℕ) (clampedToReward : Dict ℕ ℚ)
    (lists : Dict ℚ (List ℚ)) (cfgBudget : Budget) : Dict ℚ (List ℚ) :=
  let resolvedBudget := resolveBudgetCheckpoint traceLength cfgBudget
  match if 0 ≤ resolvedBudget then clampedToReward.lookup resolvedBudget.toNat else none with
  | some reward => lists.append cfgBudget.value reward
  | none => lists

/-- One pass of the loop over the samples, up to the appends: the values for
the parallel lists, and the rewards by clamped budget. -/
def sampleReward (item : Item Token Truth Info) :
    Except Error (SampleReward × Dict ℕ ℚ) := do
  let budgetLoop ← item.budgets.foldlM (budgetStep cfg scorer item) BudgetLoop.empty
  let natural := if cfg.foIncludeNaturalTrace then
    some (computeNaturalTraceReward tok scorer item) else none
  let naturalReward := natural.map Prod.fst
  let details := budgetLoop.perBudgetDetails ++ (natural.map Prod.snd).toList
  let noRewards := budgetLoop.perBudgetRewards.isEmpty
  let perBudgetRewards := if noRewards then [0] else budgetLoop.perBudgetRewards
  let naturalCorrect := naturalReward.any (0 < ·)
  pure
    ({ perBudgetRewards := perBudgetRewards
       naturalReward := naturalReward
       naturalCorrect := naturalCorrect
       anyCorrect := perBudgetRewards.any (0 < ·) || naturalCorrect
       fallback := !item.hasForcedOutputs
       numComponents := perBudgetRewards.length
       details := if noRewards then details ++ [.fallbackZero 0] else details
       perBudgetMean := mean perBudgetRewards
       mcAccuracies := budgetLoop.sampleMcAccs
       budgetPositions := item.budgets },
     budgetLoop.clampedToReward)

/-- The appends at the end of the loop body. -/
def RewardLoop.push (st : RewardLoop) (sample : SampleReward)
    (perBudgetRewardLists : Dict ℚ (List ℚ)) : RewardLoop where
  rewardsMatrix := st.rewardsMatrix ++ [sample.perBudgetRewards]
  naturalReward := st.naturalReward ++ [sample.naturalReward]
  naturalCorrect := st.naturalCorrect ++ [sample.naturalCorrect]
  anyCorrect := st.anyCorrect ++ [sample.anyCorrect]
  fallback := st.fallback ++ [sample.fallback]
  numComponents := st.numComponents ++ [sample.numComponents]
  details := st.details ++ [sample.details]
  perBudgetMean := st.perBudgetMean ++ [sample.perBudgetMean]
  perSampleMcAccuracies := st.perSampleMcAccuracies ++ [sample.mcAccuracies]
  perSampleBudgetPositions := st.perSampleBudgetPositions ++ [sample.budgetPositions]
  perBudgetRewardLists := perBudgetRewardLists

/-- The body of the loop over the samples. -/
def sampleStep (st : RewardLoop) (item : Item Token Truth Info) : Except Error RewardLoop := do
  let sample ← sampleReward cfg tok scorer item
  let traceLength := item.traceLength.getD (item.budgets.foldl max 0)
  pure (st.push sample.1 (cfg.foBudgetCheckpoints.foldl
    (attributeStep traceLength sample.2) st.perBudgetRewardLists))

def computeForcedOutputRewards {L : ℕ} (batch : Batch Token Truth Info L) :
    Except Error (ForcedOutputRewards L) := do
  let loop ← batch.items.foldlM (sampleStep cfg tok scorer) RewardLoop.empty
  let aggregatedRewards ← aggregateRewardsBatch loop.rewardsMatrix cfg.foRewardAggregation
  let aggregatedRewards := if cfg.foIncludeNaturalTrace then
    List.zipWith (fun agg nat => agg + nat.getD 0) aggregatedRewards loop.naturalReward
    else aggregatedRewards
  let rewardTensor ← createTokenLevelRewardTensor aggregatedRewards batch.responseMask
  pure
    { rewardTensor := rewardTensor
      extraInfos :=
        { forcedOutputNaturalReward := loop.naturalReward
          forcedOutputNaturalCorrect := loop.naturalCorrect
          forcedOutputAnyCorrect := loop.anyCorrect
          forcedOutputFallback := loop.fallback
          forcedOutputNumComponents := loop.numComponents
          forcedOutputDetails := loop.details
          forcedOutputPerBudgetMean := loop.perBudgetMean
          forcedOutputAggregatedReward := aggregatedRewards
          probeMcAccuracies := loop.perSampleMcAccuracies
          probeBudgetPositions := loop.perSampleBudgetPositions }
      perBudgetRewardLists := loop.perBudgetRewardLists }

end Config

end RLCM.ForcedOutput
