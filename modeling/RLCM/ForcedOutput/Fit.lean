/-
# `RLCM.ForcedOutput.Fit` — one training step, from rewards to advantages

`RayForcedOutputGRPOTrainer.fit` after the rollout: compute the forced-output
rewards, build the mask of the natural-corner filter, train the probe and add
its weighted reward to the token-level tensor, zero the filtered rows, build
the C2GSPG labels and compute the advantages.

What the step gets from elsewhere is in `StepBatch` (the columns of the batch)
and `StepEnv` (tokenizer, scorer, the probe and its training).  A batch of a
dataloader is never empty.  Rollout correction only changes the response mask
that the advantages use; a KL penalty in the reward is subtracted row by row.
-/
import RLCM.ForcedOutput.RewardReference
import RLCM.ForcedOutput.Probe
import RLCM.ForcedOutput.CornerFilter
import RLCM.PPO.CoreAlgos

namespace RLCM.ForcedOutput

open Py Stats PPO

variable {Token Truth Info Uid : Type} [DecidableEq Uid] {L d : ℕ}

/-! ## Settings -/

/-- `algorithm.adv_estimator`. -/
inductive AdvEstimator where
  | grpo
  | c2gspg
  | other
deriving DecidableEq

/-- The settings of a step as they are written in the configuration. -/
structure FitSettings where
  trainer : TrainerConfig
  includeBudgetReward : Bool
  probeEnabled : Bool
  probeUseAsReward : Bool
  probeRewardWeight : ℚ
  probe : ProbeConfig
  probeFilterNaturalCornerGroups : Bool
  advEstimator : AdvEstimator
  normAdvByStdInGrpo : Bool
  c2gspgConfidenceClipEps : ℚ
  c2gspgDenominatorEps : ℚ

/-- The settings of a trainer that started. -/
structure FitConfig extends FitSettings where
  filter_probe : probeFilterNaturalCornerGroups = true → probeEnabled = true
  filter_natural : probeFilterNaturalCornerGroups = true → trainer.foIncludeNaturalTrace = true
  ranking_natural : probe.rewardMode = .rankingReward → trainer.foIncludeNaturalTrace = true

/-- `__init__`: the startup checks; without budget reward the budget weight is
zero. -/
def FitSettings.start (settings : FitSettings) : Except Error FitConfig :=
  if h₁ : settings.probeFilterNaturalCornerGroups = true ∧ settings.probeEnabled = false then
    .error (.valueError ("forced_output.probe.filter_natural_corner_groups=True requires " ++
      "forced_output.probe.enable=True"))
  else if h₂ : settings.probeFilterNaturalCornerGroups = true ∧
      settings.trainer.foIncludeNaturalTrace = false then
    .error (.valueError ("forced_output.probe.filter_natural_corner_groups=True requires " ++
      "forced_output.include_natural_trace=True"))
  else if h₃ : settings.probe.rewardMode = .rankingReward ∧
      settings.trainer.foIncludeNaturalTrace = false then
    .error (.valueError ("forced_output.probe.reward_mode=ranking_reward requires " ++
      "forced_output.include_natural_trace=True"))
  else
    let weight := if settings.includeBudgetReward then settings.trainer.foBudgetRewardWeight else 0
    .ok
      { settings with
        trainer := { settings.trainer with foBudgetRewardWeight := weight }
        filter_probe := fun hf => by simpa [hf] using h₁
        filter_natural := fun hf => by simpa [hf] using h₂
        ranking_natural := fun hr => by simpa [hr] using h₃ }

/-! ## The batch -/

/-- The columns of the batch a step reads. -/
structure StepBatch (Token Truth Info Uid : Type) (L d : ℕ) where
  items : List (Item Token Truth Info)
  responseMask : List (Fin L → ℕ)
  uids : List Uid
  hiddenStates : Option (List (List (Features d)))
  promptLenGlobal : ℕ
  oldSequenceConfidence : Option (List ℚ)
  klPenalty : Option (List (Fin L → ℚ))
  correctedMask : List (Fin L → ℕ)
  items_ne_nil : items ≠ []
  length_responseMask : responseMask.length = items.length
  length_uids : uids.length = items.length
  length_hiddenStates : ∀ hs ∈ hiddenStates, hs.length = items.length
  length_oldSequenceConfidence : ∀ cs ∈ oldSequenceConfidence, cs.length = items.length
  length_klPenalty : ∀ kl ∈ klPenalty, kl.length = items.length
  length_correctedMask : correctedMask.length = items.length

def StepBatch.rewardBatch (batch : StepBatch Token Truth Info Uid L d) :
    Batch Token Truth Info L where
  items := batch.items
  responseMask := some batch.responseMask
  length_responseMask := by
    intro rows h
    obtain rfl := Option.mem_some_iff.mp h
    exact batch.length_responseMask

/-- What the step calls.  `trainStep` is the probe after training on some
pairs; `otherEstimator` stands for the remaining advantage estimators. -/
structure StepEnv (Token Truth Info Uid : Type) (L d : ℕ) where
  tok : Tokenizer Token
  scorer : Scorer Truth Info
  fns : Elementary
  probe : Features d → ℚ
  trainStep : List (Features d) → List ℚ → Features d → ℚ
  otherEstimator : List (Fin L → ℚ) → List (Fin L → ℕ) → List Uid → List (Fin L → ℚ)

/-- `reward_extra_infos_dict.get("forced_output_natural_correct")`: the key is
there once a sample was appended. -/
def ExtraInfos.naturalCorrect? (infos : ExtraInfos) : Option (List Bool) :=
  if infos.forcedOutputNaturalCorrect = [] then none else some infos.forcedOutputNaturalCorrect

/-- A value, or the error of its absence. -/
def require {α : Type} (msg : String) : Option α → Except Error α
  | some x => .ok x
  | none => .error (.valueError msg)

/-! ## The filter mask -/

/-- `natural_corner_keep_mask`; `None` without the filter, and when every
group is unanimous. -/
def naturalCornerKeepMask (filterOn : Bool) (uids : List Uid)
    (naturalCorrect : Option (List Bool)) : Except Error (Option (List Bool)) :=
  if filterOn then do
    let naturalCorrect ← require ("forced_output_natural_correct not found while " ++
      "forced_output.probe.filter_natural_corner_groups=True") naturalCorrect
    let filtered ← computeUnanimousGroupKeepMask uids naturalCorrect
    pure (if filtered.1.any id then some filtered.1 else none)
  else pure none

/-- `for idx, keep in enumerate(mask): if not keep: scalars[idx] = 0.0`. -/
def zeroDropped (keepMask : Option (List Bool)) (scalars : List ℚ) : List ℚ :=
  keepMask.elim scalars (List.zipWith (fun s keep => if keep then s else 0) scalars)

/-- `reward_tensor[~keep_mask_t] = 0.0`. -/
def zeroDroppedRows (keepMask : Option (List Bool)) (rewardTensor : List (Fin L → ℚ)) :
    List (Fin L → ℚ) :=
  keepMask.elim rewardTensor
    (List.zipWith (fun row keep => if keep then row else 0) rewardTensor)

/-! ## Probe rewards -/

def computeGroupCovarFactors (uids : List Uid) (naturalCorrect : List Bool) :
    Except Error (List ℚ) :=
  if uids.length ≠ naturalCorrect.length then
    .error (.valueError ("uids and natural_correct must have the same length, got " ++
      toString uids.length ++ " and " ++ toString naturalCorrect.length))
  else .ok (uids.map (fun g =>
    let p := mean ((groupCorrect uids naturalCorrect g).map (fun b => if b then 1 else 0))
    p * (1 - p)))

def applyConfMarginCovar (baseRewards : List ℚ) (uids : List Uid) (naturalCorrect : List Bool) :
    Except Error (List ℚ) := do
  let factors ← computeGroupCovarFactors uids naturalCorrect
  if baseRewards.length ≠ factors.length then
    .error (.valueError ("base_rewards and factors must have the same length, got " ++
      toString baseRewards.length ++ " and " ++ toString factors.length))
  else pure (List.zipWith (· * ·) baseRewards factors)

/-- The error of `conf_margin_covar` without natural labels. -/
def covarRequiresNatural : String :=
  "forced_output_natural_correct is required for probe reward mode 'conf_margin_covar'"

/-- The error of `ranking_reward` without natural labels. -/
def rankingRequiresNatural : String :=
  "forced_output_natural_correct is required for probe reward mode 'ranking_reward'"

/-- `probe_reward_scalars`, one for every sample. -/
def probeRewardScalars (cfg : FitSettings) (fns : Elementary) (probe : Features d → ℚ)
    (hiddenStates : List (List (Features d))) (promptLengths : List ℕ) (uids : List Uid)
    (infos : ExtraInfos) (keepMask : Option (List Bool)) : Except Error (List ℚ) :=
  match cfg.probe.rewardMode with
  | .rankingReward => do
      let naturalCorrect ← require rankingRequiresNatural infos.naturalCorrect?
      let ranking ← computeRankingRewards cfg.probe probe hiddenStates promptLengths
        infos.probeBudgetPositions (some naturalCorrect)
      pure (zeroDropped keepMask ranking.1)
  | .crossEntropy | .accuracy | .brier => do
      let rewards ← computeProbeRewards cfg.probe probe fns hiddenStates promptLengths
        infos.probeBudgetPositions (some infos.probeMcAccuracies)
      pure (rewards.map (fun pr => if pr = [] then 0 else mean pr))
  | .confMarginCovar => do
      let confDiff ← computeConfDiffRewards cfg.probe probe fns hiddenStates promptLengths
        infos.probeBudgetPositions (some infos.probeMcAccuracies) (some cfg.probe.marginCorner)
      let naturalCorrect ← require covarRequiresNatural infos.naturalCorrect?
      let scaled ← applyConfMarginCovar confDiff.1 uids naturalCorrect
      pure (zeroDropped keepMask scaled)
  | .confDiff | .confDiffV1 | .confDiffV2 | .confDiffV3 => do
      let confDiff ← computeConfDiffRewards cfg.probe probe fns hiddenStates promptLengths
        infos.probeBudgetPositions (some infos.probeMcAccuracies) (some cfg.probe.marginCorner)
      pure (zeroDropped keepMask confDiff.1)

/-! ## Placement -/

def placePos (responseMask : Option (Fin L → ℕ)) : ℤ :=
  match responseMask with
  | some mask => max (min (((Row.sum mask : ℕ) : ℤ) - 1) ((L : ℤ) - 1)) 0
  | none => (L : ℤ) - 1

/-- `probe_reward_contribution[idx, place_pos] = pr_val`, on a row of zeros. -/
def contributionRow (responseMask : Option (Fin L → ℕ)) (prVal : ℚ) :
    Except Error (Fin L → ℚ) :=
  if h : 0 ≤ placePos responseMask ∧ (placePos responseMask).toNat < L then
    .ok (Row.single ⟨(placePos responseMask).toNat, h.2⟩ prVal)
  else .error .indexError

/-- The loop that fills `probe_reward_contribution`. -/
def probeRewardContribution (batchSize : ℕ) (probeRewardScalars : List ℚ)
    (probeRewardWeight : ℚ) (responseMask : Option (List (Fin L → ℕ))) :
    Except Error (List (Fin L → ℚ)) :=
  (List.range batchSize).mapM (fun idx => do
    let scalar ← getItem probeRewardScalars idx
    let mask ← responseMask.elim (pure none) (fun rows => do
      let row ← getItem rows idx
      pure (some row))
    contributionRow mask (scalar * probeRewardWeight))

def addProbeReward (rewardTensor : List (Fin L → ℚ)) (probeRewardScalars : List ℚ)
    (probeRewardWeight : ℚ) (responseMask : Option (List (Fin L → ℕ))) :
    Except Error (List (Fin L → ℚ)) := do
  let contribution ← probeRewardContribution rewardTensor.length probeRewardScalars
    probeRewardWeight responseMask
  pure (List.zipWith (· + ·) rewardTensor contribution)

/-- The probe after the training of this step; without pairs it is left alone. -/
def StepEnv.trained (env : StepEnv Token Truth Info Uid L d)
    (pairs : List (Features d) × List ℚ) : Features d → ℚ :=
  if pairs.1 = [] then env.probe else env.trainStep pairs.1 pairs.2

/-- The probe block: train on the pairs of the batch and add the probe reward
if it is used. -/
def probeBlock (cfg : FitSettings) (env : StepEnv Token Truth Info Uid L d)
    (batch : StepBatch Token Truth Info Uid L d) (infos : ExtraInfos)
    (keepMask : Option (List Bool)) (rewardTensor : List (Fin L → ℚ)) :
    Except Error (List (Fin L → ℚ)) :=
  match batch.hiddenStates.filter (fun _ => cfg.probeEnabled) with
  | none => pure rewardTensor
  | some hiddenStates => do
      let promptLengths := batch.items.map (fun _ => batch.promptLenGlobal)
      let pairs ← collectProbeData cfg.probe hiddenStates promptLengths
        infos.probeBudgetPositions infos.probeMcAccuracies
      if cfg.probeUseAsReward ∧ 0 < cfg.probeRewardWeight then do
        let scalars ← probeRewardScalars cfg env.fns (env.trained pairs) hiddenStates
          promptLengths batch.uids infos keepMask
        addProbeReward rewardTensor scalars cfg.probeRewardWeight (some batch.responseMask)
      else pure rewardTensor

/-! ## Labels and advantages -/

/-- `c2_binary_reward`: the natural labels if there is one for every sample,
else the sign of the summed token-level reward.  (The look-up in
`non_tensor_batch` in between finds the same list.) -/
def c2BinaryReward (naturalCorrect : Option (List Bool))
    (tokenLevelRewards : List (Fin L → ℚ)) : List ℚ :=
  match naturalCorrect.filter (fun labels => labels.length = tokenLevelRewards.length) with
  | some labels => labels.map (fun b => if b then 1 else 0)
  | none => tokenLevelRewards.map (fun row => if 0 < Row.sum row then 1 else 0)

/-- `effective_adv_estimator`: C2GSPG falls back to GRPO without the
confidence of the old policy. -/
def effectiveAdvEstimator (cfg : FitSettings) (oldSequenceConfidence : Option (List ℚ)) :
    AdvEstimator :=
  if cfg.advEstimator = .c2gspg ∧ oldSequenceConfidence = none then .grpo
  else cfg.advEstimator

def computeAdvantage (cfg : FitSettings) (env : StepEnv Token Truth Info Uid L d)
    (batch : StepBatch Token Truth Info Uid L d) (tokenLevelRewards : List (Fin L → ℚ))
    (labels : Option (List ℚ)) : List (Fin L → ℚ) :=
  match effectiveAdvEstimator cfg batch.oldSequenceConfidence with
  | .grpo => computeGrpoOutcomeAdvantage env.fns tokenLevelRewards batch.correctedMask batch.uids
      (1 / 1000000) cfg.normAdvByStdInGrpo
  | .c2gspg => computeC2gspgOutcomeAdvantage tokenLevelRewards batch.correctedMask
      (some batch.uids) batch.oldSequenceConfidence labels cfg.c2gspgConfidenceClipEps
      cfg.c2gspgDenominatorEps
  | .other => env.otherEstimator tokenLevelRewards batch.correctedMask batch.uids

/-! ## The step -/

/-- What a step leaves in the batch. -/
structure StepResult (L : ℕ) where
  extraInfos : ExtraInfos
  keepMask : Option (List Bool)
  rewardTensor : List (Fin L → ℚ)
  tokenLevelScores : List (Fin L → ℚ)
  tokenLevelRewards : List (Fin L → ℚ)
  c2BinaryReward : Option (List ℚ)
  advantages : List (Fin L → ℚ)

/-- `token_level_rewards`: the scores, less the KL penalty if there is one. -/
def applyKlPenalty (klPenalty : Option (List (Fin L → ℚ)))
    (tokenLevelScores : List (Fin L → ℚ)) : List (Fin L → ℚ) :=
  klPenalty.elim tokenLevelScores (List.zipWith (· - ·) tokenLevelScores)

/-- The end of the step: guardrail, KL penalty, labels, advantages. -/
def finishStep (cfg : FitSettings) (env : StepEnv Token Truth Info Uid L d)
    (batch : StepBatch Token Truth Info Uid L d) (infos : ExtraInfos)
    (keepMask : Option (List Bool)) (rewardTensor : List (Fin L → ℚ)) : StepResult L :=
  let tokenLevelScores := zeroDroppedRows keepMask rewardTensor
  let tokenLevelRewards := applyKlPenalty batch.klPenalty tokenLevelScores
  let labels := if cfg.advEstimator = .c2gspg then
    some (c2BinaryReward infos.naturalCorrect? tokenLevelRewards) else none
  { extraInfos := infos
    keepMask := keepMask
    rewardTensor := rewardTensor
    tokenLevelScores := tokenLevelScores
    tokenLevelRewards := tokenLevelRewards
    c2BinaryReward := labels
    advantages := computeAdvantage cfg env batch tokenLevelRewards labels }

/-- The body of the loop of `fit`, from the rewards to the advantages. -/
def trainingStep (cfg : FitSettings) (env : StepEnv Token Truth Info Uid L d)
    (batch : StepBatch Token Truth Info Uid L d) : Except Error (StepResult L) := do
  let rewards ← computeForcedOutputRewards cfg.trainer env.tok env.scorer batch.rewardBatch
  let keepMask ← naturalCornerKeepMask cfg.probeFilterNaturalCornerGroups batch.uids
    rewards.extraInfos.naturalCorrect?
  let rewardTensor ← probeBlock cfg env batch rewards.extraInfos keepMask rewards.rewardTensor
  pure (finishStep cfg env batch rewards.extraInfos keepMask rewardTensor)

/-! ## What a step that returns has done -/

section Stages

variable {cfg : FitSettings} {env : StepEnv Token Truth Info Uid L d}
  {batch : StepBatch Token Truth Info Uid L d}

/-- The stages of a step, each with its result. -/
structure Stages (cfg : FitSettings) (env : StepEnv Token Truth Info Uid L d)
    (batch : StepBatch Token Truth Info Uid L d) (rewards : ForcedOutputRewards L)
    (keepMask : Option (List Bool)) (rewardTensor : List (Fin L → ℚ)) : Prop where
  rewards_eq : computeForcedOutputRewards cfg.trainer env.tok env.scorer batch.rewardBatch =
    .ok rewards
  keepMask_eq : naturalCornerKeepMask cfg.probeFilterNaturalCornerGroups batch.uids
    rewards.extraInfos.naturalCorrect? = .ok keepMask
  rewardTensor_eq : probeBlock cfg env batch rewards.extraInfos keepMask rewards.rewardTensor =
    .ok rewardTensor

theorem trainingStep_eq_ok {out : StepResult L} :
    trainingStep cfg env batch = .ok out ↔ ∃ rewards keepMask rewardTensor,
      Stages cfg env batch rewards keepMask rewardTensor ∧
        out = finishStep cfg env batch rewards.extraInfos keepMask rewardTensor := by
  simp only [trainingStep, bind_eq_ok, pure_eq_ok, Except.ok.injEq]
  constructor
  · rintro ⟨rewards, hrewards, keepMask, hmask, tensor, htensor, rfl⟩
    exact ⟨rewards, keepMask, tensor, ⟨hrewards, hmask, htensor⟩, rfl⟩
  · rintro ⟨rewards, keepMask, tensor, ⟨hrewards, hmask, htensor⟩, rfl⟩
    exact ⟨rewards, hrewards, keepMask, hmask, tensor, htensor, rfl⟩

def naturalLabel (cfg : FitSettings) (env : StepEnv Token Truth Info Uid L d)
    (item : Item Token Truth Info) : Bool :=
  (naturalRewardOf cfg.trainer env.tok env.scorer item).any (0 < ·)

omit [DecidableEq Uid] in
theorem naturalCorrect?_eq (cfg : FitSettings) (env : StepEnv Token Truth Info Uid L d)
    (batch : StepBatch Token Truth Info Uid L d) {rewards : ForcedOutputRewards L}
    (h : computeForcedOutputRewards cfg.trainer env.tok env.scorer batch.rewardBatch =
      .ok rewards) :
    rewards.extraInfos.naturalCorrect? = some (batch.items.map (naturalLabel cfg env)) := by
  have hlist := (naturalLists_of_ok cfg.trainer env.tok env.scorer h).2
  unfold ExtraInfos.naturalCorrect?
  rw [hlist, if_neg]
  · rfl
  · simpa [StepBatch.rewardBatch] using batch.items_ne_nil

omit [DecidableEq Uid] in
theorem length_rewardTensor (cfg : FitSettings) (env : StepEnv Token Truth Info Uid L d)
    (batch : StepBatch Token Truth Info Uid L d) {rewards : ForcedOutputRewards L}
    (h : computeForcedOutputRewards cfg.trainer env.tok env.scorer batch.rewardBatch =
      .ok rewards) : rewards.rewardTensor.length = batch.items.length := by
  obtain ⟨samples, total, -, -, htensor, hlen⟩ := extraInfos_of_ok _ _ _ h
  have := (mapM_eq_ok.mp htensor).length_eq
  rw [List.length_zipIdx, hlen] at this
  exact this.symm

theorem length_addProbeReward {rewardTensor out : List (Fin L → ℚ)} {scalars : List ℚ}
    {weight : ℚ} {responseMask : Option (List (Fin L → ℕ))}
    (h : addProbeReward rewardTensor scalars weight responseMask = .ok out) :
    out.length = rewardTensor.length := by
  obtain ⟨contribution, hcontribution, h⟩ := bind_eq_ok.mp h
  obtain rfl := Except.ok.inj h
  have := (mapM_eq_ok.mp hcontribution).length_eq
  rw [List.length_range] at this
  simp [← this]

theorem length_probeBlock {infos : ExtraInfos} {keepMask : Option (List Bool)}
    {rewardTensor out : List (Fin L → ℚ)}
    (h : probeBlock cfg env batch infos keepMask rewardTensor = .ok out) :
    out.length = rewardTensor.length := by
  unfold probeBlock at h
  split at h
  · rw [Except.ok.inj h]
  · obtain ⟨pairs, -, h⟩ := bind_eq_ok.mp h
    split_ifs at h
    · obtain ⟨scalars, -, h⟩ := bind_eq_ok.mp h
      exact length_addProbeReward h
    · rw [Except.ok.inj h]

end Stages

end RLCM.ForcedOutput
