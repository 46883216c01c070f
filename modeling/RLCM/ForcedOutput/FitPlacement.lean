/-
# `RLCM.ForcedOutput.FitPlacement` — the placed rewards are those of a step

`RLCM.ForcedOutput.Placement` speaks about the two placements on their own.
Here they are found in a training step: whenever a step uses the probe reward,
its reward tensor is `tokenLevelReward` of the rewards it computed, with one
probe reward for every sample.
-/
import RLCM.ForcedOutput.Placement
import RLCM.ForcedOutput.FitLabels

namespace RLCM.ForcedOutput

open Py Stats

variable {Token Truth Info Uid : Type} [DecidableEq Uid] {L d : ℕ}

/-! ## One probe reward for every sample -/

section Lengths

variable {cfg : ProbeConfig} {probe : Features d → ℚ} {fns : Elementary}
  {hiddenStates : List (List (Features d))} {promptLengths : List ℕ} {positions : List (List ℕ)}

theorem length_gather {mcs : Option (List (List ℚ))} {gathered : Gathered d}
    (h : gather cfg hiddenStates promptLengths positions mcs = .ok gathered) :
    gathered.counts.length = promptLengths.length := by
  have hstep : ∀ (st : Gathered d) (i : ℕ) (st' : Gathered d),
      gatherStep cfg hiddenStates promptLengths positions mcs st i = .ok st' →
        st'.counts.length = st.counts.length + 1 := by
    intro st i st' hpass
    obtain ⟨hs, _, hpass⟩ := bind_eq_ok.mp hpass
    obtain ⟨budgets, _, hpass⟩ := bind_eq_ok.mp hpass
    split at hpass
    · cases hpass
      simp
    · obtain ⟨promptLength, _, hpass⟩ := bind_eq_ok.mp hpass
      obtain ⟨features, _, hpass⟩ := bind_eq_ok.mp hpass
      cases hpass
      simp
  have hcount := foldlM_count (f := gatherStep cfg hiddenStates promptLengths positions mcs) hstep h
  rw [hcount, List.length_range]
  exact Nat.zero_add _

theorem length_computeProbeRewards {mcs : Option (List (List ℚ))} {rewards : List (List ℚ)}
    (h : computeProbeRewards cfg probe fns hiddenStates promptLengths positions mcs =
      .ok rewards) : rewards.length = promptLengths.length := by
  obtain ⟨gathered, hgathered, h⟩ := bind_eq_ok.mp h
  split at h
  · cases h
    rw [List.length_map]
  · obtain ⟨signal, _, h⟩ := bind_eq_ok.mp h
    rw [Blocks.length_walk h]
    exact length_gather hgathered

theorem length_computeConfDiffRewards {mcs : Option (List (List ℚ))} {corner : Option Bool}
    {out : List ℚ × Option ConfidenceBucketMetrics}
    (h : computeConfDiffRewards cfg probe fns hiddenStates promptLengths positions mcs corner =
      .ok out) : out.1.length = promptLengths.length := by
  obtain ⟨gathered, hgathered, h⟩ := bind_eq_ok.mp h
  split at h
  · cases h
    rw [List.length_map]
  · obtain ⟨diffs, hdiffs, h⟩ := bind_eq_ok.mp h
    cases h
    rw [List.length_map, Blocks.length_walk hdiffs]
    exact length_gather hgathered

theorem length_computeRankingRewards {labels : List Bool} {out : List ℚ × RankingMetrics}
    (h : computeRankingRewards cfg probe hiddenStates promptLengths positions (some labels) =
      .ok out) : out.1.length = promptLengths.length := by
  obtain ⟨labels', hlabels, h⟩ := bind_eq_ok.mp h
  cases hlabels
  split at h
  case isTrue => cases h
  case isFalse hlen =>
    obtain ⟨gathered, hgathered, h⟩ := bind_eq_ok.mp h
    split at h
    · cases h
      rw [List.length_map]
    · obtain ⟨ranked, hranked, h⟩ := bind_eq_ok.mp h
      cases h
      have hcounts := length_gather hgathered
      rw [List.length_map, Blocks.length_walk hranked, List.length_zip, hcounts]
      rw [not_not] at hlen
      rw [hlen, Nat.min_self]

end Lengths

theorem length_applyConfMarginCovar {base out : List ℚ} {uids : List Uid} {labels : List Bool}
    (h : applyConfMarginCovar base uids labels = .ok out) : out.length = base.length := by
  obtain ⟨factors, _, h⟩ := bind_eq_ok.mp h
  split at h
  case isTrue => cases h
  case isFalse hlen =>
    cases h
    rw [not_not] at hlen
    rw [List.length_zipWith, hlen, Nat.min_self]

theorem length_zeroDropped {keepMask : Option (List Bool)} {scalars : List ℚ}
    (h : ∀ mask ∈ keepMask, mask.length = scalars.length) :
    (zeroDropped keepMask scalars).length = scalars.length := by
  cases keepMask with
  | none => rfl
  | some mask =>
      have hmask := h mask rfl
      show (List.zipWith _ scalars mask).length = scalars.length
      rw [List.length_zipWith, hmask, Nat.min_self]

/-- In every reward mode there is one scalar for every sample. -/
theorem length_probeRewardScalars {cfg : FitSettings} {fns : Elementary}
    {probe : Features d → ℚ} {hiddenStates : List (List (Features d))} {promptLengths : List ℕ}
    {uids : List Uid} {infos : ExtraInfos} {keepMask : Option (List Bool)} {scalars : List ℚ}
    (hmask : ∀ mask ∈ keepMask, mask.length = promptLengths.length)
    (h : probeRewardScalars cfg fns probe hiddenStates promptLengths uids infos keepMask =
      .ok scalars) : scalars.length = promptLengths.length := by
  have hzero : ∀ {raw : List ℚ}, raw.length = promptLengths.length →
      (zeroDropped keepMask raw).length = promptLengths.length := by
    intro raw hraw
    rw [length_zeroDropped (fun mask hmem => (hmask mask hmem).trans hraw.symm)]
    exact hraw
  unfold probeRewardScalars at h
  split at h
  · obtain ⟨labels, _, h⟩ := bind_eq_ok.mp h
    obtain ⟨ranking, hranking, h⟩ := bind_eq_ok.mp h
    cases h
    exact hzero (length_computeRankingRewards hranking)
  · obtain ⟨rewards, hrewards, h⟩ := bind_eq_ok.mp h
    cases h
    rw [List.length_map]
    exact length_computeProbeRewards hrewards
  · obtain ⟨rewards, hrewards, h⟩ := bind_eq_ok.mp h
    cases h
    rw [List.length_map]
    exact length_computeProbeRewards hrewards
  · obtain ⟨rewards, hrewards, h⟩ := bind_eq_ok.mp h
    cases h
    rw [List.length_map]
    exact length_computeProbeRewards hrewards
  · obtain ⟨confDiff, hconf, h⟩ := bind_eq_ok.mp h
    obtain ⟨labels, _, h⟩ := bind_eq_ok.mp h
    obtain ⟨scaled, hscaled, h⟩ := bind_eq_ok.mp h
    cases h
    refine hzero ?_
    rw [length_applyConfMarginCovar hscaled]
    exact length_computeConfDiffRewards hconf
  all_goals
    obtain ⟨confDiff, hconf, h⟩ := bind_eq_ok.mp h
    cases h
    exact hzero (length_computeConfDiffRewards hconf)

/-! ## The step -/

/-- The probe reward is added to the reward of the answers in this step. -/
def ProbeRewardUsed (cfg : FitSettings) (batch : StepBatch Token Truth Info Uid L d) : Prop :=
  cfg.probeEnabled = true ∧ batch.hiddenStates ≠ none ∧ cfg.probeUseAsReward = true ∧
    0 < cfg.probeRewardWeight

/-- The reward tensor of a step that uses the probe reward is the tensor of the
two placements, on the masks of the batch and with the weight of the
configuration. -/
theorem rewardTensor_of_step {cfg : FitSettings} {env : StepEnv Token Truth Info Uid L d}
    {batch : StepBatch Token Truth Info Uid L d} {out : StepResult L}
    (huse : ProbeRewardUsed cfg batch)
    (hmasks : ∀ mask ∈ batch.responseMask, ∃ n, Row.IsPrefix mask n)
    (h : trainingStep cfg env batch = .ok out) :
    ∃ input : PlacementInput L, input.responseMask = batch.responseMask ∧
      input.probeRewardWeight = cfg.probeRewardWeight ∧
      tokenLevelReward input = .ok out.rewardTensor := by
  obtain ⟨rewards, keepMask, tensor, hstages, rfl⟩ := trainingStep_eq_ok.mp h
  obtain ⟨henabled, hhidden, hused, hweight⟩ := huse
  obtain ⟨hiddenStates, hhidden⟩ := Option.ne_none_iff_exists'.mp hhidden
  obtain ⟨samples, total, _, _, hanswers, htotal⟩ := extraInfos_of_ok _ _ _ hstages.rewards_eq
  have hblock := hstages.rewardTensor_eq
  simp only [probeBlock, hhidden, henabled, Option.filter_some, if_true] at hblock
  obtain ⟨pairs, _, hblock⟩ := bind_eq_ok.mp hblock
  rw [if_pos ⟨hused, hweight⟩] at hblock
  obtain ⟨scalars, hscalars, hplaced⟩ := bind_eq_ok.mp hblock
  have hkeep := hstages.keepMask_eq
  rw [naturalCorrect?_eq cfg env batch hstages.rewards_eq] at hkeep
  have hscalarsLength : scalars.length = batch.responseMask.length := by
    have hmask : ∀ mask ∈ keepMask,
        mask.length = (batch.items.map (fun _ => batch.promptLenGlobal)).length := by
      intro mask hmem
      have huids := batch.length_uids
      rw [List.length_map, ← huids]
      exact length_naturalCornerKeepMask (by rw [huids, List.length_map]) hkeep mask hmem
    rw [length_probeRewardScalars hmask hscalars, List.length_map, batch.length_responseMask]
  refine ⟨⟨total, scalars, cfg.probeRewardWeight, batch.responseMask, ?_, hscalarsLength,
    hmasks⟩, rfl, rfl, ?_⟩
  · rw [batch.length_responseMask]
    exact htotal
  · show (do
        let rewardTensor ← createTokenLevelRewardTensor total (some batch.responseMask)
        addProbeReward rewardTensor scalars cfg.probeRewardWeight (some batch.responseMask)) =
      .ok tensor
    rw [show createTokenLevelRewardTensor total (some batch.responseMask) =
      .ok rewards.rewardTensor from hanswers, ok_bind]
    exact hplaced

end RLCM.ForcedOutput
