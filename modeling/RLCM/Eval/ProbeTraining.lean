/-
# `RLCM.Eval.ProbeTraining` — the probe of the evaluation, trained and chosen

`4_probe_training.py`: the samples are split into a training and a validation
part, by groups if their metadata have them; `train_single_run` trains one
configuration with early stopping on the validation loss; `run_probe_sweep`
does so for every configuration of a grid and saves the best probe.

What the optimiser does to the model is a parameter.  The loop over the epochs
is written for any kind of loss that can be compared, with `float("inf")` above
all of them; the loss the script computes is `validationLoss`.
-/
import Mathlib.Order.WithBot
import RLCM.Eval.Metrics
import RLCM.Lib.Blocks
import RLCM.Py.Dict
import RLCM.Py.Float

namespace RLCM.Eval

open Py Stats

/-! ## Splitting by groups -/

/-- One entry of the metadata; a value of `none` is a stored `None`. -/
abbrev ProbeMetadata (V : Type) := List (String × Option V)

/-- What the split takes from Python and `numpy`: the text of a value, the text
of a list of keys, and the random order of the groups. -/
structure SplitEnv (V : Type) where
  str : V → String
  reprKeys : List String → String
  shuffle : List String → List String
  shuffle_perm : ∀ keys, (shuffle keys).Perm keys

def groupEntry {V : Type} (env : SplitEnv V) (groupKey : String)
    (entry : ProbeMetadata V × ℕ) : Except Error (String × ℕ) :=
  match (entry.1.lookup groupKey).join with
  | some groupVal => .ok (env.str groupVal, entry.2)
  | none =>
      let availableKeys := env.reprKeys (entry.1.map Prod.fst)
      .error (.valueError ("Missing group key '" ++ groupKey ++ "' at index " ++
        toString entry.2 ++ ". Available keys: " ++ availableKeys ++
        ". Try using --split_mode with one of: " ++ availableKeys ++ " or 'random'"))

def targetVal (total : ℕ) (valSplit : ℚ) : ℕ := max 1 ⌊roundDouble (total * valSplit)⌋.toNat

/-- What the loop over the groups fills. -/
structure SplitLoop where
  valIndices : List ℕ
  trainIndices : List ℕ
  valCount : ℕ

/-- The body of the loop over the groups. -/
def splitStep (groups : Dict String (List ℕ)) (target : ℕ) (st : SplitLoop) (key : String) :
    SplitLoop :=
  let groupIndices := groups.getD key []
  if st.valCount < target then
    { st with
      valIndices := st.valIndices ++ groupIndices
      valCount := st.valCount + groupIndices.length }
  else { st with trainIndices := st.trainIndices ++ groupIndices }

/-- The training and the validation indices: the loop over the groups and the
exchange after it. -/
def splitGroups (groups : Dict String (List ℕ)) (target : ℕ) (groupKeys : List String) :
    List ℕ × List ℕ :=
  let st := groupKeys.foldl (splitStep groups target) ⟨[], [], 0⟩
  if st.trainIndices = [] then (st.valIndices, []) else (st.trainIndices, st.valIndices)

def buildGroupSplitIndices {V : Type} (env : SplitEnv V) (metadata : List (ProbeMetadata V))
    (valSplit : ℚ) (groupKey : String) : Except Error (List ℕ × List ℕ) := do
  let entries ← metadata.zipIdx.mapM (groupEntry env groupKey)
  let groups := Dict.group entries
  pure (splitGroups groups (targetVal metadata.length valSplit) (env.shuffle groups.keys))

/-! ## Epochs -/

/-- What one epoch does: training, validation, the scheduler's step; and the
weights of the model. -/
structure EpochEnv (M S Met L : Type) where
  trainEpoch : M → M
  validate : M → Except Error (L × Met)
  schedulerStep : M → L → M
  stateDict : M → S

/-- The dictionary `metrics`. -/
structure RunMetrics (Met L : Type) where
  loss : L
  scores : Met

/-- The variables of the loop; `epochsRun` counts its iterations. -/
structure EpochLoop (S Met L : Type) where
  bestValLoss : WithTop L
  bestState : Option S
  metrics : Option (RunMetrics Met L)
  patienceCounter : ℕ
  epochsRun : ℕ

/-- A run as `train_single_run` returns it, with the model it leaves behind. -/
structure ProbeRun (M S Met L : Type) where
  metrics : RunMetrics Met L
  bestState : Option S
  epochsRun : ℕ
  model : M

section Epochs

variable {M S Met L : Type} [LinearOrder L]

/-- The loop over the epochs that are left. -/
def trainEpochs (env : EpochEnv M S Met L) (patienceLimit : ℕ) :
    ℕ → M → EpochLoop S Met L → Except Error (M × EpochLoop S Met L)
  | 0, model, st => .ok (model, st)
  | epochs + 1, model, st => do
      let trained := env.trainEpoch model
      let (valLoss, scores) ← env.validate trained
      let model := env.schedulerStep trained valLoss
      if (valLoss : WithTop L) < st.bestValLoss then
        trainEpochs env patienceLimit epochs model
          { bestValLoss := valLoss
            bestState := some (env.stateDict model)
            metrics := some { loss := valLoss, scores }
            patienceCounter := 0
            epochsRun := st.epochsRun + 1 }
      else
        let st' : EpochLoop S Met L :=
          { st with
            patienceCounter := st.patienceCounter + 1
            epochsRun := st.epochsRun + 1 }
        if patienceLimit ≤ st'.patienceCounter then .ok (model, st')
        else trainEpochs env patienceLimit epochs model st'

/-- `train_single_run` once the data and the model are set up. -/
def trainSingleRun (env : EpochEnv M S Met L) (epochs patienceLimit : ℕ) (model : M) :
    Except Error (ProbeRun M S Met L) := do
  let (model, st) ← trainEpochs env patienceLimit epochs model ⟨⊤, none, none, 0, 0⟩
  match st.metrics with
  | some metrics => pure { metrics, bestState := st.bestState, epochsRun := st.epochsRun, model }
  | none => .error .unboundLocalError

end Epochs

/-! ## The sweep -/

/-- `base_config`. -/
structure ProbeBaseConfig where
  epochs : ℕ
  batchSize : ℕ
  valSplit : ℚ
  patience : ℕ
  seed : Option ℕ
deriving DecidableEq

/-- `{**base_config, **config}`. -/
structure ProbeConfig extends ProbeBaseConfig where
  lr : ℚ
  dropout : ℚ
  weightDecay : ℚ
deriving DecidableEq

/-- `configs`, completed by the base: the grid in the order of
`itertools.product`. -/
def sweepConfigs (base : ProbeBaseConfig) : List ProbeConfig :=
  [1 / 1000, 5 / 10000, 1 / 10000].flatMap (fun lr =>
    [5 / 10, 8 / 10].flatMap (fun dropout =>
      [1 / 1000, 1 / 100].map (fun weightDecay =>
        { toProbeBaseConfig := base, lr, dropout, weightDecay })))

/-- How a run for a configuration is set up, given the state `G` of the global
generators, and the state it leaves them in. -/
structure SweepEnv (G M S Met L : Type) where
  setUp : ProbeConfig → G → Except Error (EpochEnv M S Met L × M)
  generators : M → G

/-- The variables of the loop over the configurations. -/
structure SweepLoop (G S Met L : Type) where
  generators : G
  bestOverallMetric : WithTop L
  bestOverallConfig : Option ProbeConfig
  bestOverallState : Option S
  sweepResults : List (ProbeConfig × RunMetrics Met L)

/-- What the sweep writes: the probe (under its tag and as `best_probe.pt`), the
summary and the results of all runs. -/
structure SweepFiles (S Met L : Type) where
  bestProbe : S
  bestConfig : ProbeConfig
  bestLoss : WithTop L
  sweepResults : List (ProbeConfig × RunMetrics Met L)

section Sweep

variable {G M S Met L : Type} [LinearOrder L]

/-- `train_single_run` of a configuration. -/
def runConfig (env : SweepEnv G M S Met L) (generators : G) (config : ProbeConfig) :
    Except Error (ProbeRun M S Met L) := do
  let (epochEnv, model) ← env.setUp config generators
  trainSingleRun epochEnv config.epochs config.patience model

/-- The body of the loop over the configurations. -/
def sweepStep (env : SweepEnv G M S Met L) (st : SweepLoop G S Met L) (config : ProbeConfig) :
    Except Error (SweepLoop G S Met L) := do
  let run ← runConfig env st.generators config
  let st := { st with
    generators := env.generators run.model
    sweepResults := st.sweepResults ++ [(config, run.metrics)] }
  if (run.metrics.loss : WithTop L) < st.bestOverallMetric then
    pure { st with
      bestOverallMetric := run.metrics.loss
      bestOverallConfig := some config
      bestOverallState := run.bestState }
  else pure st

/-- `run_probe_sweep`.  Loading `None` into the final model raises. -/
def runProbeSweep (env : SweepEnv G M S Met L) (generators : G) (base : ProbeBaseConfig) :
    Except Error (SweepFiles S Met L) := do
  let st ← (sweepConfigs base).foldlM (sweepStep env) ⟨generators, ⊤, none, none, []⟩
  match st.bestOverallConfig, st.bestOverallState with
  | some bestConfig, some bestProbe =>
      pure { bestProbe, bestConfig, bestLoss := st.bestOverallMetric,
             sweepResults := st.sweepResults }
  | _, _ => .error .typeError

end Sweep

/-! ## The data of a run and its validation loss -/

/-- A hidden state with its label. -/
abbrev ProbeSample (H : Type) := H × ℚ

/-- What a run takes from `torch`. -/
structure ProbeEnv (G H M S : Type) where
  fns : Elementary
  corrcoef : List ℚ → List ℚ → ℚ
  randperm : ProbeConfig → G → ℕ → List ℕ
  initModel : ProbeConfig → G → M
  trainEpoch : ProbeConfig → List (ProbeSample H) → M → M
  logit : M → H → ℚ
  schedulerStep : M → ℚ → M
  stateDict : M → S
  generators : M → G

/-- The scores among the metrics. -/
structure ProbeScores where
  mae : ℚ
  brier : ℚ
  corr : ℚ
  ece : Option ℚ

section Data

variable {G H M S : Type}

/-- `random_split`, as indices. -/
def randomSplit (env : ProbeEnv G H M S) (config : ProbeConfig) (generators : G) (total : ℕ) :
    List ℕ × List ℕ :=
  let valSize := ⌊roundDouble (total * config.valSplit)⌋.toNat
  let order := env.randperm config generators total
  (order.take (total - valSize), order.drop (total - valSize))

/-- The two parts of the dataset. -/
def splitDataset (env : ProbeEnv G H M S) (config : ProbeConfig) (generators : G)
    (dataset : List (ProbeSample H)) (splitIndices : Option (List ℕ × List ℕ)) :
    Except Error (List (ProbeSample H) × List (ProbeSample H)) := do
  let split := splitIndices.getD (randomSplit env config generators dataset.length)
  let trainDs ← split.1.mapM (getItem dataset)
  let valDs ← split.2.mapM (getItem dataset)
  pure (trainDs, valDs)

/-- `BCEWithLogitsLoss` of one sample. -/
def bceWithLogits (fns : Elementary) (logit target : ℚ) : ℚ :=
  max logit 0 - logit * target + fns.log (1 + fns.exp (-|logit|))

/-- The loss of one sample, with `torch.round` of its label. -/
def sampleLoss (env : ProbeEnv G H M S) (model : M) (sample : ProbeSample H) : ℚ :=
  bceWithLogits env.fns (env.logit model sample.1) (roundHalfEven sample.2)

/-- `val_loss`: the mean of a batch, summed over the batches, over their number. -/
def validationLoss (env : ProbeEnv G H M S) (valDs : List (ProbeSample H)) (batchSize : ℕ)
    (model : M) : Except Error ℚ :=
  let valLoader := Blocks.pieces batchSize valDs
  let valLoss := valLoader.foldl
    (fun valLoss batch => valLoss + mean (batch.map (sampleLoss env model))) 0
  if valLoader.length = 0 then .error .zeroDivisionError
  else .ok (valLoss / valLoader.length)

/-- The scores of the predictions on the validation part. -/
def probeScores (env : ProbeEnv G H M S) (valDs : List (ProbeSample H)) (model : M) :
    ProbeScores :=
  let preds := valDs.map (fun sample => 1 / (1 + env.fns.exp (-env.logit model sample.1)))
  let targets := valDs.map Prod.snd
  let errors := List.zipWith (fun pred target => pred - target) preds targets
  { mae := mean (errors.map (fun error => |error|))
    brier := mean (errors.map (fun error => error ^ 2))
    corr := env.corrcoef preds targets
    ece := computeEce preds targets (some (List.replicate valDs.length 1)) 10 }

/-- The epochs of a run on these parts. -/
def probeEpochs (env : ProbeEnv G H M S) (trainDs valDs : List (ProbeSample H))
    (config : ProbeConfig) : EpochEnv M S ProbeScores ℚ where
  trainEpoch := env.trainEpoch config trainDs
  validate model := do
    let valLoss ← validationLoss env valDs config.batchSize model
    pure (valLoss, probeScores env valDs model)
  schedulerStep := env.schedulerStep
  stateDict := env.stateDict

def probeSweep (env : ProbeEnv G H M S) (dataset : List (ProbeSample H))
    (splitIndices : Option (List ℕ × List ℕ)) : SweepEnv G M S ProbeScores ℚ where
  setUp config generators := do
    let (trainDs, valDs) ← splitDataset env config generators dataset splitIndices
    pure (probeEpochs env trainDs valDs config, env.initModel config generators)
  generators := env.generators

end Data

end RLCM.Eval
