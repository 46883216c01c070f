/-
# `RLCM.ForcedOutput.FitLabels` — natural labels that were never computed

Three consumers read `forced_output_natural_correct`: the C2GSPG labels, the
covariance factors and the filter.  Each tests whether the list is there, with
a fallback or an error for the case that it is not.  The producer fills the
list also when natural traces are not scored, with `False` for every sample, so
the tests never fail and an unknown label is read as an incorrect one.

`absentLabelsTreatedAsAbsent_iff` says in which configurations and batches this
makes no difference.
-/
import RLCM.ForcedOutput.FitFilter
import RLCM.ForcedOutput.ProbeBatch

namespace RLCM.ForcedOutput

open Py Stats PPO

variable {Token Truth Info Uid : Type} [DecidableEq Uid] {L d : ℕ}

/-! ## The description -/

/-- `conf_margin_covar` is in use and the batch has hidden states. -/
def CovarInUse (cfg : FitSettings) (batch : StepBatch Token Truth Info Uid L d) : Prop :=
  cfg.probe.rewardMode = .confMarginCovar ∧ cfg.probeEnabled = true ∧
    cfg.probeUseAsReward = true ∧ 0 < cfg.probeRewardWeight ∧ batch.hiddenStates.isSome = true

/-- The labels are the signs of the summed token-level rewards. -/
def LabelsFromScores (out : StepResult L) : Prop :=
  out.c2BinaryReward =
    some (out.tokenLevelRewards.map (fun row => if 0 < Row.sum row then 1 else 0))

def LabelsFromNatural (cfg : FitSettings) (env : StepEnv Token Truth Info Uid L d)
    (batch : StepBatch Token Truth Info Uid L d) (out : StepResult L) : Prop :=
  out.c2BinaryReward =
    some (batch.items.map (fun item => if naturalLabel cfg env item then 1 else 0))

/-- Without natural scoring, C2GSPG labels come from the scores and
`conf_margin_covar` raises; with it, C2GSPG labels are the natural ones. -/
def AbsentLabelsTreatedAsAbsent (cfg : FitConfig) (env : StepEnv Token Truth Info Uid L d)
    (batch : StepBatch Token Truth Info Uid L d) : Prop :=
  (cfg.trainer.foIncludeNaturalTrace = false →
    (cfg.advEstimator = .c2gspg → ∀ out, trainingStep cfg.toFitSettings env batch = .ok out →
      LabelsFromScores out) ∧
    (CovarInUse cfg.toFitSettings batch →
      trainingStep cfg.toFitSettings env batch = .error (.valueError covarRequiresNatural))) ∧
  (cfg.trainer.foIncludeNaturalTrace = true → cfg.advEstimator = .c2gspg →
    ∀ out, trainingStep cfg.toFitSettings env batch = .ok out →
      LabelsFromNatural cfg.toFitSettings env batch out)

/-! ## The state in which the labels are built -/

def tokenLevelRewardsOf (cfg : FitSettings) (env : StepEnv Token Truth Info Uid L d)
    (batch : StepBatch Token Truth Info Uid L d) : Except Error (List (Fin L → ℚ)) := do
  let rewards ← computeForcedOutputRewards cfg.trainer env.tok env.scorer batch.rewardBatch
  let keepMask ← naturalCornerKeepMask cfg.probeFilterNaturalCornerGroups batch.uids
    rewards.extraInfos.naturalCorrect?
  let rewardTensor ← probeBlock cfg env batch rewards.extraInfos keepMask rewards.rewardTensor
  pure (applyKlPenalty batch.klPenalty (zeroDroppedRows keepMask rewardTensor))

/-- No sample of the batch has a positive summed token-level reward. -/
def NoPositiveReward (cfg : FitSettings) (env : StepEnv Token Truth Info Uid L d)
    (batch : StepBatch Token Truth Info Uid L d) : Prop :=
  ∀ rows, tokenLevelRewardsOf cfg env batch = .ok rows → ∀ row ∈ rows, ¬ 0 < Row.sum row

section Step

variable {cfg : FitSettings} {env : StepEnv Token Truth Info Uid L d}
  {batch : StepBatch Token Truth Info Uid L d}

theorem tokenLevelRewardsOf_eq_ok {rows : List (Fin L → ℚ)} :
    tokenLevelRewardsOf cfg env batch = .ok rows ↔
      ∃ out, trainingStep cfg env batch = .ok out ∧ out.tokenLevelRewards = rows := by
  simp only [tokenLevelRewardsOf, bind_eq_ok, pure_eq_ok, Except.ok.injEq]
  constructor
  · rintro ⟨rewards, hrewards, keepMask, hmask, tensor, htensor, rfl⟩
    exact ⟨_, trainingStep_eq_ok.mpr ⟨rewards, keepMask, tensor, ⟨hrewards, hmask, htensor⟩, rfl⟩,
      rfl⟩
  · rintro ⟨out, hout, rfl⟩
    obtain ⟨rewards, keepMask, tensor, hstages, rfl⟩ := trainingStep_eq_ok.mp hout
    exact ⟨rewards, hstages.rewards_eq, keepMask, hstages.keepMask_eq, tensor,
      hstages.rewardTensor_eq, rfl⟩

theorem length_naturalCornerKeepMask {filterOn : Bool} {uids : List Uid} {labels : List Bool}
    {keepMask : Option (List Bool)} (hlen : uids.length = labels.length)
    (h : naturalCornerKeepMask filterOn uids (some labels) = .ok keepMask) :
    ∀ mask ∈ keepMask, mask.length = uids.length := by
  intro mask hmem
  cases filterOn with
  | false =>
      obtain rfl : none = keepMask := Except.ok.inj h
      cases hmem
  | true =>
      by_cases hmixed : ∃ g, Mixed uids labels g
      · rw [naturalCornerKeepMask_of_mixed hlen hmixed] at h
        obtain rfl := Except.ok.inj h
        rw [← Option.mem_some_iff.mp hmem, List.length_map]
      · rw [naturalCornerKeepMask_of_unanimous hlen hmixed] at h
        obtain rfl := Except.ok.inj h
        cases hmem

theorem length_tokenLevelRewards {out : StepResult L}
    (h : trainingStep cfg env batch = .ok out) :
    out.tokenLevelRewards.length = batch.items.length := by
  obtain ⟨rewards, keepMask, tensor, hstages, rfl⟩ := trainingStep_eq_ok.mp h
  have htensor : tensor.length = batch.items.length := by
    rw [length_probeBlock hstages.rewardTensor_eq,
      length_rewardTensor cfg env batch hstages.rewards_eq]
  have hscores : (zeroDroppedRows keepMask tensor).length = batch.items.length := by
    cases hmask : keepMask with
    | none => exact htensor
    | some mask =>
        have hkeep := hstages.keepMask_eq
        rw [naturalCorrect?_eq cfg env batch hstages.rewards_eq] at hkeep
        have hlen := length_naturalCornerKeepMask
          (by rw [List.length_map, batch.length_uids]) hkeep mask (by simp [hmask])
        simp [zeroDroppedRows, htensor, hlen, batch.length_uids]
  simp only [finishStep, applyKlPenalty]
  cases hkl : batch.klPenalty with
  | none => exact hscores
  | some kl =>
      have := batch.length_klPenalty kl (by simp [hkl])
      simp [hscores, this]

theorem labels_of_step {out : StepResult L} (hadv : cfg.advEstimator = .c2gspg)
    (h : trainingStep cfg env batch = .ok out) : LabelsFromNatural cfg env batch out := by
  have hlen := length_tokenLevelRewards h
  obtain ⟨rewards, keepMask, tensor, hstages, rfl⟩ := trainingStep_eq_ok.mp h
  have hlabels := naturalCorrect?_eq cfg env batch hstages.rewards_eq
  simp only [finishStep] at hlen
  simp only [LabelsFromNatural, finishStep, if_pos hadv, hlabels]
  rw [c2BinaryReward_of_labels (by rw [List.length_map, hlen]), List.map_map]
  rfl

omit [DecidableEq Uid] in
theorem naturalLabel_of_unscored (hnat : cfg.trainer.foIncludeNaturalTrace = false)
    (item : Item Token Truth Info) : naturalLabel cfg env item = false := by
  simp [naturalLabel, naturalRewardOf, hnat]

theorem labelsFromScores_iff {out : StepResult L} (hadv : cfg.advEstimator = .c2gspg)
    (hnat : cfg.trainer.foIncludeNaturalTrace = false)
    (h : trainingStep cfg env batch = .ok out) :
    LabelsFromScores out ↔ ∀ row ∈ out.tokenLevelRewards, ¬ 0 < Row.sum row := by
  have hlabels := labels_of_step hadv h
  have hlen := length_tokenLevelRewards h
  have hzero : out.c2BinaryReward =
      some (out.tokenLevelRewards.map (fun _ => (0 : ℚ))) := by
    rw [hlabels]
    simp only [naturalLabel_of_unscored hnat, Bool.false_eq_true, if_false, List.map_const',
      hlen]
  rw [LabelsFromScores, hzero, Option.some.injEq, List.map_inj_left]
  refine forall₂_congr (fun row _ => ?_)
  split_ifs with hpos
  · simp [hpos]
  · simp [hpos]

end Step

/-! ## The error that is never raised -/

/-- Any error but the one for a missing label in `conf_margin_covar`. -/
def NotCovarError (e : Error) : Prop := e ≠ .valueError covarRequiresNatural

theorem notCovarError_of_head {msg : String} (h : msg.toList.head? ≠ some 'f') :
    NotCovarError (.valueError msg) := by
  intro heq
  rw [Error.valueError.inj heq] at h
  exact h (by decide)

theorem aggregateRewards_onlyRaises (rs : List ℚ) (mode : RewardAggregation) :
    OnlyRaises NotCovarError (aggregateRewards rs mode) := by
  unfold aggregateRewards
  split
  · exact onlyRaises_error (notCovarError_of_head (by decide))
  · exact onlyRaises_ok _
  · split
    · exact onlyRaises_ok _
    · exact onlyRaises_ok _
    · exact onlyRaises_error (notCovarError_of_head (by simp))

theorem aggregateMultiAnswerRewards_onlyRaises (rs : List ℚ) (method : MultiAnswerAggregation) :
    OnlyRaises NotCovarError (aggregateMultiAnswerRewards rs method) := by
  unfold aggregateMultiAnswerRewards
  split
  · exact onlyRaises_error (notCovarError_of_head (by decide))
  · exact onlyRaises_ok _
  · split
    · exact onlyRaises_ok _
    · exact onlyRaises_ok _
    · exact onlyRaises_error (notCovarError_of_head (by simp))

theorem createTokenLevelRewardTensor_onlyRaises (rewards : List ℚ)
    (responseMask : Option (List (Fin L → ℕ))) :
    OnlyRaises NotCovarError (createTokenLevelRewardTensor rewards responseMask) := by
  refine onlyRaises_mapM (fun r _ => ?_)
  unfold rewardRow
  split
  · exact (onlyRaises_getItem (by simp [NotCovarError]) _ _).bind (fun _ _ => onlyRaises_ok _)
  · split_ifs
    · exact onlyRaises_ok _
    · exact onlyRaises_error (by simp [NotCovarError])

theorem computeForcedOutputRewards_onlyRaises (cfg : TrainerConfig) (tok : Tokenizer Token)
    (scorer : Scorer Truth Info) (batch : Batch Token Truth Info L) :
    OnlyRaises NotCovarError (computeForcedOutputRewards cfg tok scorer batch) := by
  rw [computeForcedOutputRewards_eq]
  refine OnlyRaises.bind (onlyRaises_mapM (fun item _ => ?_)) (fun samples _ => ?_)
  · rw [sampleReward_eq]
    exact (onlyRaises_mapM (fun _ _ => aggregateMultiAnswerRewards_onlyRaises _ _)).bind
      (fun _ _ => onlyRaises_ok _)
  · refine OnlyRaises.bind (onlyRaises_mapM (fun _ _ => aggregateRewards_onlyRaises _ _))
      (fun aggregated _ => ?_)
    exact (createTokenLevelRewardTensor_onlyRaises _ _).bind (fun _ _ => onlyRaises_ok _)

theorem extractBudgetHiddenStates_onlyRaises (hiddenStates : List (Features d))
    (promptLength : ℕ) (budgets : List ℕ) (avgLastK : ℕ) :
    OnlyRaises NotCovarError
      (extractBudgetHiddenStates hiddenStates promptLength budgets avgLastK) := by
  unfold extractBudgetHiddenStates
  split_ifs
  · exact onlyRaises_error (by simp [NotCovarError])
  · exact onlyRaises_ok _

theorem getItem_onlyRaises {α : Type} (xs : List α) (i : ℕ) :
    OnlyRaises NotCovarError (getItem xs i) :=
  onlyRaises_getItem (by simp [NotCovarError]) xs i

theorem collectProbeData_onlyRaises (cfg : ProbeConfig) (hiddenStates : List (List (Features d)))
    (promptLengths : List ℕ) (positions : List (List ℕ)) (accuracies : List (List ℚ)) :
    OnlyRaises NotCovarError
      (collectProbeData cfg hiddenStates promptLengths positions accuracies) := by
  refine onlyRaises_foldlM (fun st i _ => ?_) _
  refine (getItem_onlyRaises _ _).bind (fun hs _ => (getItem_onlyRaises _ _).bind (fun budgets _ =>
    (getItem_onlyRaises _ _).bind (fun mcAccs _ => ?_)))
  split_ifs
  · exact onlyRaises_ok _
  · exact (getItem_onlyRaises _ _).bind (fun _ _ =>
      (extractBudgetHiddenStates_onlyRaises _ _ _ _).bind (fun _ _ => onlyRaises_ok _))

theorem gather_onlyRaises (cfg : ProbeConfig) (hiddenStates : List (List (Features d)))
    (promptLengths : List ℕ) (positions : List (List ℕ))
    (accuracies : Option (List (List ℚ))) :
    OnlyRaises NotCovarError (gather cfg hiddenStates promptLengths positions accuracies) := by
  refine onlyRaises_foldlM (fun st i _ => ?_) _
  refine (getItem_onlyRaises _ _).bind (fun hs _ => (getItem_onlyRaises _ _).bind
    (fun budgets _ => ?_))
  split_ifs
  · exact onlyRaises_ok _
  · exact (getItem_onlyRaises _ _).bind (fun _ _ =>
      (extractBudgetHiddenStates_onlyRaises _ _ _ _).bind (fun _ _ => onlyRaises_ok _))

theorem walk_onlyRaises {ι β : Type} {count : ι → ℕ} {f : ι → List ℚ → Except Error β}
    (hf : ∀ r block, OnlyRaises NotCovarError (f r block)) (xs : List ℚ) (rows : List ι) :
    OnlyRaises NotCovarError (Blocks.walk count f xs rows) :=
  (onlyRaises_foldlM (fun _ _ _ => (hf _ _).bind (fun _ _ => onlyRaises_ok _)) _).bind
    (fun _ _ => onlyRaises_ok _)

theorem computeProbeRewards_onlyRaises (cfg : ProbeConfig) (probe : Features d → ℚ)
    (fns : Elementary) (hiddenStates : List (List (Features d))) (promptLengths : List ℕ)
    (positions : List (List ℕ)) (accuracies : Option (List (List ℚ))) :
    OnlyRaises NotCovarError
      (computeProbeRewards cfg probe fns hiddenStates promptLengths positions accuracies) := by
  refine (gather_onlyRaises _ _ _ _ _).bind (fun gathered _ => ?_)
  split_ifs
  · exact onlyRaises_ok _
  · refine OnlyRaises.bind ?_ (fun _ _ => walk_onlyRaises (fun _ _ => onlyRaises_ok _) _ _)
    unfold computeRewardSignal
    split
    · unfold elementwise
      split_ifs
      · exact onlyRaises_ok _
      · split
        · exact onlyRaises_ok _
        · exact onlyRaises_ok _
        · exact onlyRaises_error (by simp [NotCovarError])
    · refine onlyRaises_error (notCovarError_of_head ?_)
      -- the first part of the message decides
      unfold perSampleModeMessage
      rewrite [String.append_assoc, String.toList_append, List.head?_append]
      decide +kernel

theorem computeRankingRewards_onlyRaises (cfg : ProbeConfig) (probe : Features d → ℚ)
    (hiddenStates : List (List (Features d))) (promptLengths : List ℕ)
    (positions : List (List ℕ)) (labels : List Bool) :
    OnlyRaises NotCovarError
      (computeRankingRewards cfg probe hiddenStates promptLengths positions (some labels)) := by
  refine (onlyRaises_ok _).bind (fun labels _ => ?_)
  split_ifs
  · exact onlyRaises_error (notCovarError_of_head (by simp))
  · refine (gather_onlyRaises _ _ _ _ _).bind (fun gathered _ => ?_)
    split_ifs
    · exact onlyRaises_ok _
    · exact (walk_onlyRaises (fun _ _ => onlyRaises_ok _) _ _).bind (fun _ _ => onlyRaises_ok _)

theorem computeConfDiffRewards_onlyRaises (cfg : ProbeConfig) (probe : Features d → ℚ)
    (fns : Elementary) (hiddenStates : List (List (Features d))) (promptLengths : List ℕ)
    (positions : List (List ℕ)) (accuracies : Option (List (List ℚ)))
    (marginCorner : Option Bool) :
    OnlyRaises NotCovarError (computeConfDiffRewards cfg probe fns hiddenStates promptLengths
      positions accuracies marginCorner) := by
  refine (gather_onlyRaises _ _ _ _ _).bind (fun gathered _ => ?_)
  split_ifs
  · exact onlyRaises_ok _
  · refine OnlyRaises.bind (walk_onlyRaises (fun row block => ?_) _ _)
      (fun _ _ => onlyRaises_ok _)
    unfold confDiffOf
    split_ifs
    · exact onlyRaises_ok _
    · exact onlyRaises_error (by simp [NotCovarError])
    · exact onlyRaises_ok _

theorem applyConfMarginCovar_onlyRaises (baseRewards : List ℚ) (uids : List Uid)
    (labels : List Bool) :
    OnlyRaises NotCovarError (applyConfMarginCovar baseRewards uids labels) := by
  refine OnlyRaises.bind ?_ (fun factors _ => ?_)
  · unfold computeGroupCovarFactors
    split_ifs
    · exact onlyRaises_error (notCovarError_of_head (by simp))
    · exact onlyRaises_ok _
  · split_ifs
    · exact onlyRaises_error (notCovarError_of_head (by simp))
    · exact onlyRaises_ok _

/-- With the list of labels in place no mode asks for it in vain. -/
theorem probeRewardScalars_onlyRaises (cfg : FitSettings) (fns : Elementary)
    (probe : Features d → ℚ) (hiddenStates : List (List (Features d))) (promptLengths : List ℕ)
    (uids : List Uid) {infos : ExtraInfos} {labels : List Bool}
    (hlabels : infos.naturalCorrect? = some labels) (keepMask : Option (List Bool)) :
    OnlyRaises NotCovarError (probeRewardScalars cfg fns probe hiddenStates promptLengths uids
      infos keepMask) := by
  unfold probeRewardScalars
  rw [hlabels]
  split
  · exact (onlyRaises_ok _).bind (fun _ _ =>
      (computeRankingRewards_onlyRaises _ _ _ _ _ _).bind (fun _ _ => onlyRaises_ok _))
  · exact (computeProbeRewards_onlyRaises _ _ _ _ _ _ _).bind (fun _ _ => onlyRaises_ok _)
  · exact (computeProbeRewards_onlyRaises _ _ _ _ _ _ _).bind (fun _ _ => onlyRaises_ok _)
  · exact (computeProbeRewards_onlyRaises _ _ _ _ _ _ _).bind (fun _ _ => onlyRaises_ok _)
  · exact (computeConfDiffRewards_onlyRaises _ _ _ _ _ _ _ _).bind (fun _ _ =>
      (onlyRaises_ok _).bind (fun _ _ =>
        (applyConfMarginCovar_onlyRaises _ _ _).bind (fun _ _ => onlyRaises_ok _)))
  all_goals
    exact (computeConfDiffRewards_onlyRaises _ _ _ _ _ _ _ _).bind (fun _ _ => onlyRaises_ok _)

theorem addProbeReward_onlyRaises (rewardTensor : List (Fin L → ℚ)) (scalars : List ℚ)
    (weight : ℚ) (responseMask : Option (List (Fin L → ℕ))) :
    OnlyRaises NotCovarError (addProbeReward rewardTensor scalars weight responseMask) := by
  refine OnlyRaises.bind (onlyRaises_mapM (fun i _ => ?_)) (fun _ _ => onlyRaises_ok _)
  refine (getItem_onlyRaises _ _).bind (fun scalar _ => OnlyRaises.bind ?_ (fun mask _ => ?_))
  · cases responseMask with
    | none => exact onlyRaises_ok _
    | some rows => exact (getItem_onlyRaises _ _).bind (fun _ _ => onlyRaises_ok _)
  · unfold contributionRow
    split_ifs
    · exact onlyRaises_ok _
    · exact onlyRaises_error (by simp [NotCovarError])

theorem trainingStep_onlyRaises (cfg : FitSettings) (env : StepEnv Token Truth Info Uid L d)
    (batch : StepBatch Token Truth Info Uid L d) :
    OnlyRaises NotCovarError (trainingStep cfg env batch) := by
  refine (computeForcedOutputRewards_onlyRaises _ _ _ _).bind (fun rewards hrewards => ?_)
  have hlabels := naturalCorrect?_eq cfg env batch hrewards
  refine OnlyRaises.bind ?_ (fun keepMask _ => OnlyRaises.bind ?_ (fun _ _ => onlyRaises_ok _))
  · unfold naturalCornerKeepMask
    rw [hlabels]
    split_ifs
    · refine (onlyRaises_ok _).bind (fun labels _ => OnlyRaises.bind ?_
        (fun _ _ => onlyRaises_ok _))
      unfold computeUnanimousGroupKeepMask
      split_ifs
      · exact onlyRaises_error (notCovarError_of_head (by simp))
      · exact onlyRaises_ok _
    · exact onlyRaises_ok _
  · unfold probeBlock
    split
    · exact onlyRaises_ok _
    · refine (collectProbeData_onlyRaises _ _ _ _ _).bind (fun pairs _ => ?_)
      split_ifs
      · exact (probeRewardScalars_onlyRaises _ _ _ _ _ _ hlabels _).bind
          (fun _ _ => addProbeReward_onlyRaises _ _ _ _)
      · exact onlyRaises_ok _

/-! ## When it makes no difference -/

/-- An unscored label is treated as absent exactly when natural traces are
scored, or C2GSPG meets no positive reward and `conf_margin_covar` is not in
use. -/
theorem absentLabelsTreatedAsAbsent_iff (cfg : FitConfig)
    (env : StepEnv Token Truth Info Uid L d) (batch : StepBatch Token Truth Info Uid L d) :
    AbsentLabelsTreatedAsAbsent cfg env batch ↔
      (cfg.trainer.foIncludeNaturalTrace = true ∨
        ((cfg.advEstimator = .c2gspg → NoPositiveReward cfg.toFitSettings env batch) ∧
          ¬ CovarInUse cfg.toFitSettings batch)) := by
  cases hnat : cfg.trainer.foIncludeNaturalTrace with
  | true =>
      refine iff_of_true ⟨fun h => ?_, fun _ hadv out hout => labels_of_step hadv hout⟩
        (Or.inl rfl)
      rw [hnat] at h
      cases h
  | false =>
      rw [or_iff_right (by decide)]
      constructor
      · rintro ⟨habsent, -⟩
        obtain ⟨hscores, hcovar⟩ := habsent hnat
        refine ⟨fun hadv rows hrows => ?_, fun huse => ?_⟩
        · obtain ⟨out, hout, rfl⟩ := tokenLevelRewardsOf_eq_ok.mp hrows
          exact (labelsFromScores_iff hadv hnat hout).mp (hscores hadv out hout)
        · exact trainingStep_onlyRaises _ _ _ _ (hcovar huse) rfl
      · rintro ⟨hnone, hcovar⟩
        refine ⟨fun _ => ⟨fun hadv out hout => ?_, fun huse => absurd huse hcovar⟩, fun h => ?_⟩
        · exact (labelsFromScores_iff hadv hnat hout).mpr
            (hnone hadv _ (tokenLevelRewardsOf_eq_ok.mpr ⟨out, hout, rfl⟩))
        · rw [hnat] at h
          cases h

/-! ## A rewarded batch with all-zero labels -/

/-- A sample with one budget, one answer at it, and no scored natural trace. -/
def oneBudgetItem : Item Char Unit Unit where
  groundTruth := none
  dataSource := none
  extraInfo := none
  promptLength := 0
  attentionMask := [1]
  responses := ['x']
  traceLength := some 1
  forcedFullTexts := some (Dict.assign ∅ [(1, "x".toList)])
  forcedFullTextsMulti := none
  budgetCheckpoints := some [1]
  ascending := by
    intro budgets h
    obtain rfl := Option.mem_some_iff.mp h
    decide

/-- C2GSPG with the forced-output defaults: natural traces are not scored. -/
def c2gspgDefaults : FitConfig where
  trainer := ⟨.mean, 1, .mean, false, 1, [.int 1]⟩
  includeBudgetReward := true
  probeEnabled := false
  probeUseAsReward := false
  probeRewardWeight := 0
  probe := accuracyConfig
  probeFilterNaturalCornerGroups := false
  advEstimator := .c2gspg
  normAdvByStdInGrpo := true
  c2gspgConfidenceClipEps := 1 / 1000000
  c2gspgDenominatorEps := 1 / 1000000
  filter_probe := by decide
  filter_natural := by decide
  ranking_natural := by decide

def acceptingEnv : StepEnv Char Unit Unit ℕ 1 1 where
  tok := ⟨id, id, 'e'⟩
  scorer := fun _ => .number 1
  fns := ⟨id, id, id⟩
  probe := fun _ => 0
  trainStep := fun _ _ _ => 0
  otherEstimator := fun rows _ _ => rows

def rewardedBatch : StepBatch Char Unit Unit ℕ 1 1 where
  items := [oneBudgetItem]
  responseMask := [fun _ => 1]
  uids := [0]
  hiddenStates := none
  promptLenGlobal := 0
  oldSequenceConfidence := some [1 / 2]
  klPenalty := none
  correctedMask := [fun _ => 1]
  items_ne_nil := by simp
  length_responseMask := rfl
  length_uids := rfl
  length_hiddenStates := by simp
  length_oldSequenceConfidence := by simp
  length_klPenalty := by simp
  length_correctedMask := rfl

/-- The only sample has reward `1` and label `0`. -/
theorem unscored_label_is_zero :
    ¬ AbsentLabelsTreatedAsAbsent c2gspgDefaults acceptingEnv rewardedBatch := by
  rintro ⟨habsent, -⟩
  have hrun : ((trainingStep c2gspgDefaults.toFitSettings acceptingEnv rewardedBatch).toOption.map
      (fun out => (out.c2BinaryReward, out.tokenLevelRewards.map Row.sum))) =
        some (some [0], [1]) := by
    decide +kernel
  cases hout : trainingStep c2gspgDefaults.toFitSettings acceptingEnv rewardedBatch with
  | error e =>
      rw [hout] at hrun
      cases hrun
  | ok out =>
      rw [hout] at hrun
      obtain ⟨hlabels, hsums⟩ := Prod.ext_iff.mp (Option.some.inj hrun)
      simp only at hlabels hsums
      have hscores := (habsent rfl).1 rfl out hout
      rw [LabelsFromScores] at hscores
      have hcalc : out.tokenLevelRewards.map (fun row => if 0 < Row.sum row then (1 : ℚ) else 0) =
          (out.tokenLevelRewards.map Row.sum).map (fun s => if 0 < s then 1 else 0) := by
        rw [List.map_map]
        rfl
      rw [hcalc, hsums, hlabels] at hscores
      exact absurd hscores (by decide +kernel)

end RLCM.ForcedOutput
