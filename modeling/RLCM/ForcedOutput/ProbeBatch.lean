/-
# `RLCM.ForcedOutput.ProbeBatch` — batches of the probe, sample by sample

The probe methods take parallel lists.  Here a batch is a list of samples whose
budget list and MC-accuracy list have the same length, the parallel lists are
its projections, and every method is a map over the samples: nothing a method
returns for a sample depends on the other samples of the batch.
-/
import RLCM.ForcedOutput.Probe

namespace RLCM.ForcedOutput

open Py Stats

variable {d : ℕ}

/-- What the probe methods get of one sample. -/
structure ProbeSample (d : ℕ) where
  hiddenStates : List (Features d)
  promptLength : ℕ
  budgets : List ℕ
  mcAccuracies : List ℚ
  naturalCorrect : Bool
  length_mcAccuracies : mcAccuracies.length = budgets.length

section Trainer

variable (cfg : ProbeConfig) (probe : Features d → ℚ) (fns : Elementary)

def ProbeSample.features (sample : ProbeSample d) : List (Features d) :=
  sample.budgets.map (budgetHiddenState sample.hiddenStates sample.promptLength cfg.avgLastK)

/-- The predictions for a sample, in budget order. -/
def ProbeSample.preds (sample : ProbeSample d) : List ℚ := (sample.features cfg).map probe

@[simp] theorem length_features (sample : ProbeSample d) :
    (sample.features cfg).length = sample.budgets.length := by
  simp [ProbeSample.features]

@[simp] theorem length_preds (sample : ProbeSample d) :
    (sample.preds cfg probe).length = sample.budgets.length := by
  simp [ProbeSample.preds]

theorem mcAccuracies_eq_nil {sample : ProbeSample d} :
    sample.mcAccuracies = [] ↔ sample.budgets = [] := by
  rw [← List.length_eq_zero_iff, ← List.length_eq_zero_iff, sample.length_mcAccuracies]

/-! ## The loops -/

theorem getItem_map_of_get {γ : Type} {samples : List (ProbeSample d)} {i : ℕ}
    {sample : ProbeSample d} (hi : samples[i]? = some sample) (f : ProbeSample d → γ) :
    getItem (samples.map f) i = .ok (f sample) := by
  rw [getItem_eq_ok, List.getElem?_map, hi, Option.map_some]

theorem collectStep_eq {samples : List (ProbeSample d)} {i : ℕ} {sample : ProbeSample d}
    (hi : samples[i]? = some sample) (st : List (Features d) × List ℚ) :
    collectStep cfg (samples.map ProbeSample.hiddenStates)
        (samples.map ProbeSample.promptLength) (samples.map ProbeSample.budgets)
        (samples.map ProbeSample.mcAccuracies) st i =
      .ok (st.1 ++ sample.features cfg, st.2 ++ sample.mcAccuracies) := by
  simp only [collectStep, getItem_map_of_get hi, ok_bind]
  by_cases hb : sample.budgets = []
  · simp [hb, ProbeSample.features, mcAccuracies_eq_nil.mpr hb]
  · have hmc : sample.mcAccuracies ≠ [] := fun h => hb (mcAccuracies_eq_nil.mp h)
    rw [if_neg (by simp [hb, hmc]), extractBudgetHiddenStates_of_ne hb]
    rfl

theorem foldl_collected (samples : List (ProbeSample d)) (st : List (Features d) × List ℚ) :
    samples.foldl (fun st sample => (st.1 ++ sample.features cfg, st.2 ++ sample.mcAccuracies)) st =
      (st.1 ++ samples.flatMap (ProbeSample.features cfg),
        st.2 ++ samples.flatMap ProbeSample.mcAccuracies) := by
  induction samples generalizing st with
  | nil => simp
  | cons sample samples ih =>
      rw [List.foldl_cons, ih]
      simp

/-- The training pairs of a batch are those of its samples, in order. -/
theorem collectProbeData_eq (samples : List (ProbeSample d)) :
    collectProbeData cfg (samples.map ProbeSample.hiddenStates)
        (samples.map ProbeSample.promptLength) (samples.map ProbeSample.budgets)
        (samples.map ProbeSample.mcAccuracies) =
      .ok (samples.flatMap (ProbeSample.features cfg),
        samples.flatMap ProbeSample.mcAccuracies) := by
  have hloop := foldlM_range_eq_foldl samples
    (g := fun st sample => (st.1 ++ sample.features cfg, st.2 ++ sample.mcAccuracies))
    (fun st _ _ hi => collectStep_eq cfg hi st) ([], [])
  rw [collectProbeData, List.length_map, hloop, foldl_collected]
  simp

/-- One pass of the first loop of the reward methods appends the features of its
sample and its count, with the targets it was given. -/
theorem gatherStep_eq {samples : List (ProbeSample d)}
    {batchMcAccuracies : Option (List (List ℚ))} {targets : List ℚ} {i : ℕ}
    {sample : ProbeSample d} (hi : samples[i]? = some sample)
    (htargets : (if sample.budgets = [] then [] else
      targetsOf batchMcAccuracies i sample.budgets.length) = targets) (st : Gathered d) :
    gatherStep cfg (samples.map ProbeSample.hiddenStates)
        (samples.map ProbeSample.promptLength) (samples.map ProbeSample.budgets)
        batchMcAccuracies st i =
      .ok ⟨st.allFeatures ++ sample.features cfg,
        st.counts ++ [(sample.budgets.length, targets)]⟩ := by
  simp only [gatherStep, getItem_map_of_get hi, ok_bind]
  by_cases hb : sample.budgets = []
  · rw [if_pos hb] at htargets
    simp [hb, ProbeSample.features, ← htargets]
  · rw [if_neg hb] at htargets
    rw [if_neg hb, extractBudgetHiddenStates_of_ne hb, htargets]
    rfl

theorem foldl_gathered (targets : ProbeSample d → List ℚ) (samples : List (ProbeSample d))
    (st : Gathered d) :
    samples.foldl (fun st sample => (⟨st.allFeatures ++ sample.features cfg,
        st.counts ++ [(sample.budgets.length, targets sample)]⟩ : Gathered d)) st =
      ⟨st.allFeatures ++ samples.flatMap (ProbeSample.features cfg),
        st.counts ++ samples.map (fun sample => (sample.budgets.length, targets sample))⟩ := by
  induction samples generalizing st with
  | nil => simp
  | cons sample samples ih =>
      rw [List.foldl_cons, ih]
      simp

/-- The first loop of the reward methods concatenates the features of the
samples and keeps their counts, whatever targets it was given. -/
theorem gather_eq (samples : List (ProbeSample d)) (batchMcAccuracies : Option (List (List ℚ)))
    (targets : ProbeSample d → List ℚ)
    (htargets : ∀ i sample, samples[i]? = some sample →
      (if sample.budgets = [] then [] else
        targetsOf batchMcAccuracies i sample.budgets.length) = targets sample) :
    gather cfg (samples.map ProbeSample.hiddenStates)
        (samples.map ProbeSample.promptLength) (samples.map ProbeSample.budgets)
        batchMcAccuracies =
      .ok ⟨samples.flatMap (ProbeSample.features cfg),
        samples.map (fun sample => (sample.budgets.length, targets sample))⟩ := by
  have hloop := foldlM_range_eq_foldl samples
    (g := fun st sample => (⟨st.allFeatures ++ sample.features cfg,
      st.counts ++ [(sample.budgets.length, targets sample)]⟩ : Gathered d))
    (fun st i sample hi => gatherStep_eq cfg hi (htargets i sample hi) st) ⟨[], []⟩
  rw [gather, List.length_map, hloop, foldl_gathered]
  simp

theorem gather_mcAccuracies (samples : List (ProbeSample d)) :
    gather cfg (samples.map ProbeSample.hiddenStates)
        (samples.map ProbeSample.promptLength) (samples.map ProbeSample.budgets)
        (some (samples.map ProbeSample.mcAccuracies)) =
      .ok ⟨samples.flatMap (ProbeSample.features cfg),
        samples.map (fun sample => (sample.budgets.length, sample.mcAccuracies))⟩ := by
  refine gather_eq cfg samples _ ProbeSample.mcAccuracies (fun i sample hi => ?_)
  split_ifs with hb
  · exact (mcAccuracies_eq_nil.mpr hb).symm
  · simp [targetsOf, hi]

theorem flatMap_features_eq_nil {samples : List (ProbeSample d)} :
    samples.flatMap (ProbeSample.features cfg) = [] ↔
      ∀ sample ∈ samples, sample.budgets = [] := by
  simp [ProbeSample.features]

theorem predict_flatMap (samples : List (ProbeSample d)) :
    predict probe (samples.flatMap (ProbeSample.features cfg)) =
      samples.flatMap (ProbeSample.preds cfg probe) := by
  simp only [predict, List.map_flatMap]
  rfl

/-- The second loop: with the predictions of the whole batch every sample is
processed on its own predictions. -/
theorem walk_preds {ι β : Type} (samples : List (ProbeSample d)) (row : ProbeSample d → ι)
    (count : ι → ℕ) (hcount : ∀ sample, count (row sample) = sample.budgets.length)
    {f : ι → List ℚ → Except Error β} {g : ProbeSample d → β}
    (hf : ∀ sample ∈ samples, f (row sample) (sample.preds cfg probe) = .ok (g sample)) :
    Blocks.walk count f (predict probe (samples.flatMap (ProbeSample.features cfg)))
      (samples.map row) = .ok (samples.map g) := by
  rw [predict_flatMap, Blocks.walk_map, Blocks.walk_flatMap]
  · exact mapM_eq_map hf
  · intro sample _
    simp [hcount]

/-! ## Confidence difference -/

/-- The reward of one sample and its two confidence buckets. -/
def confDiffEntry (marginCorner : Bool) (sample : ProbeSample d) : ℚ × List ℚ × List ℚ :=
  let correctConfs := confsWhere 1 (sample.preds cfg probe) sample.mcAccuracies
  let incorrectConfs := confsWhere 0 (sample.preds cfg probe) sample.mcAccuracies
  (confDiffReward cfg marginCorner (meanOrNan correctConfs) (meanOrNan incorrectConfs),
    correctConfs, incorrectConfs)

theorem confDiffOf_eq (marginCorner : Bool) (sample : ProbeSample d) :
    confDiffOf cfg marginCorner (sample.budgets.length, sample.mcAccuracies)
      (sample.preds cfg probe) = .ok (confDiffEntry cfg probe marginCorner sample) := by
  unfold confDiffOf confDiffEntry
  by_cases hb : sample.budgets = []
  · have hmc := mcAccuracies_eq_nil.mpr hb
    have hpreds : sample.preds cfg probe = [] := by
      simp [ProbeSample.preds, ProbeSample.features, hb]
    simp [hb, hmc, hpreds, confsWhere, meanOrNan, confDiffReward]
  · have hlen : sample.budgets.length ≠ 0 := by simpa using hb
    rw [if_neg hlen, if_neg (by rw [sample.length_mcAccuracies]; exact lt_irrefl _)]

theorem computeConfDiffRewards_eq (samples : List (ProbeSample d)) (marginCorner : Option Bool) :
    ∃ metrics, computeConfDiffRewards cfg probe fns (samples.map ProbeSample.hiddenStates)
        (samples.map ProbeSample.promptLength) (samples.map ProbeSample.budgets)
        (some (samples.map ProbeSample.mcAccuracies)) marginCorner =
      .ok (samples.map (fun sample =>
        (confDiffEntry cfg probe (marginCorner.getD cfg.marginCorner) sample).1), metrics) := by
  simp only [computeConfDiffRewards, gather_mcAccuracies, ok_bind]
  split_ifs with hempty
  · refine ⟨none, ?_⟩
    rw [flatMap_features_eq_nil] at hempty
    rw [List.map_map, pure_eq_ok]
    refine congrArg (fun rewards => Except.ok (rewards, none))
      (List.map_congr_left (fun sample hs => ?_))
    have hmc := mcAccuracies_eq_nil.mpr (hempty sample hs)
    simp [confDiffEntry, hmc, confsWhere, meanOrNan, confDiffReward]
  · rw [walk_preds cfg probe samples _ Prod.fst (fun _ => rfl)
      (fun sample _ => confDiffOf_eq cfg probe _ sample)]
    simp only [ok_bind, pure_eq_ok, List.map_map]
    exact ⟨_, rfl⟩

/-! ## Ranking -/

def rankingEntry (sample : ProbeSample d) : ℚ × Option (ℚ × Bool) :=
  rankingOf cfg ((sample.budgets.length, List.replicate sample.budgets.length 0),
    sample.naturalCorrect) (sample.preds cfg probe)

theorem computeRankingRewards_eq (samples : List (ProbeSample d)) :
    ∃ metrics, computeRankingRewards cfg probe (samples.map ProbeSample.hiddenStates)
        (samples.map ProbeSample.promptLength) (samples.map ProbeSample.budgets)
        (some (samples.map ProbeSample.naturalCorrect)) =
      .ok (samples.map (fun sample => (rankingEntry cfg probe sample).1), metrics) := by
  have hgather := gather_eq cfg samples none
    (fun sample => List.replicate sample.budgets.length 0) (by
      intro i sample _
      split_ifs with hb
      · simp [hb]
      · rfl)
  simp only [computeRankingRewards, hgather, Option.elim_some, ok_bind, List.length_map, ne_eq,
    not_true_eq_false, if_false]
  split_ifs with hempty
  · refine ⟨buildRankingMetrics cfg [] [] [] [], ?_⟩
    rw [flatMap_features_eq_nil] at hempty
    rw [List.map_map, pure_eq_ok]
    refine congrArg (fun rewards => Except.ok (rewards, buildRankingMetrics cfg [] [] [] []))
      (List.map_congr_left (fun sample hs => ?_))
    simp [rankingEntry, rankingOf, hempty sample hs]
  · have hwalk := walk_preds cfg probe samples
      (fun sample => ((sample.budgets.length, List.replicate sample.budgets.length (0 : ℚ)),
        sample.naturalCorrect))
      (fun row => row.1.1) (fun _ => rfl) (f := fun row block => pure (rankingOf cfg row block))
      (g := rankingEntry cfg probe) (fun sample _ => rfl)
    rw [List.zip_map', hwalk]
    simp only [ok_bind, pure_eq_ok, List.map_map]
    exact ⟨_, rfl⟩

/-! ## Per-budget rewards -/

theorem zipWith_flatMap {ι α β γ : Type} (f : α → β → γ) {u : ι → List α} {v : ι → List β}
    (h : ∀ i, (u i).length = (v i).length) (is : List ι) :
    List.zipWith f (is.flatMap u) (is.flatMap v) =
      is.flatMap (fun i => List.zipWith f (u i) (v i)) := by
  induction is with
  | nil => rfl
  | cons i is ih => rw [List.flatMap_cons, List.flatMap_cons, List.zipWith_append (h i), ih,
      List.flatMap_cons]

theorem length_flatMap_eq {ι α β : Type} {u : ι → List α} {v : ι → List β}
    (h : ∀ i, (u i).length = (v i).length) (is : List ι) :
    (is.flatMap u).length = (is.flatMap v).length := by
  simp only [List.length_flatMap, h]

def probeRewardEntry (f : ℚ → ℚ → ℚ) (sample : ProbeSample d) : List ℚ :=
  List.zipWith f (sample.preds cfg probe) sample.mcAccuracies

theorem computeProbeRewards_eq (samples : List (ProbeSample d)) {f : ℚ → ℚ → ℚ}
    (hmode : rewardSignal fns cfg.rewardMode = some f) :
    computeProbeRewards cfg probe fns (samples.map ProbeSample.hiddenStates)
        (samples.map ProbeSample.promptLength) (samples.map ProbeSample.budgets)
        (some (samples.map ProbeSample.mcAccuracies)) =
      .ok (samples.map (probeRewardEntry cfg probe f)) := by
  have hlen : ∀ sample : ProbeSample d,
      (sample.preds cfg probe).length = sample.mcAccuracies.length := by
    intro sample
    rw [length_preds, sample.length_mcAccuracies]
  simp only [computeProbeRewards, gather_mcAccuracies, ok_bind]
  split_ifs with hempty
  · rw [flatMap_features_eq_nil] at hempty
    rw [List.map_map, pure_eq_ok]
    refine congrArg Except.ok (List.map_congr_left (fun sample hs => ?_))
    simp [probeRewardEntry, mcAccuracies_eq_nil.mpr (hempty sample hs)]
  · have hsignal : computeRewardSignal fns
        (predict probe (samples.flatMap (ProbeSample.features cfg)))
        (samples.flatMap ProbeSample.mcAccuracies) cfg.rewardMode =
          .ok (samples.flatMap (probeRewardEntry cfg probe f)) := by
      rw [predict_flatMap]
      simp only [computeRewardSignal, hmode, elementwise]
      rw [if_pos (length_flatMap_eq hlen samples), zipWith_flatMap f hlen]
      rfl
    have htargets : (samples.map (fun sample =>
        (sample.budgets.length, sample.mcAccuracies))).flatMap Prod.snd =
          samples.flatMap ProbeSample.mcAccuracies := by
      rw [List.flatMap_map]
    rw [htargets, hsignal, ok_bind, Blocks.walk_map, Blocks.walk_flatMap]
    · exact mapM_eq_map (fun _ _ => rfl)
    · intro sample _
      simp [probeRewardEntry, sample.length_mcAccuracies]

/-! ## No sample sees its batch -/

/-- A method on batches returns one entry for every sample, the entry it
returns for the batch of that sample alone. -/
def BatchIndependent {β : Type} (method : List (ProbeSample d) → Except Error (List β)) : Prop :=
  ∀ samples : List (ProbeSample d), ∃ entries, method samples = .ok entries ∧
    entries.length = samples.length ∧
    ∀ (i : ℕ) sample, samples[i]? = some sample →
      ∃ entry, method [sample] = .ok [entry] ∧ entries[i]? = some entry

theorem batchIndependent_of_map {β : Type} {method : List (ProbeSample d) → Except Error (List β)}
    (entry : ProbeSample d → β) (h : ∀ samples, method samples = .ok (samples.map entry)) :
    BatchIndependent method := by
  intro samples
  refine ⟨_, h samples, by simp, fun i sample hi => ⟨entry sample, h [sample], ?_⟩⟩
  simp [hi]

/-- `compute_conf_diff_rewards` on a batch, without its metrics. -/
def confDiffRewards (marginCorner : Option Bool) (samples : List (ProbeSample d)) :
    Except Error (List ℚ) := do
  let out ← computeConfDiffRewards cfg probe fns (samples.map ProbeSample.hiddenStates)
    (samples.map ProbeSample.promptLength) (samples.map ProbeSample.budgets)
    (some (samples.map ProbeSample.mcAccuracies)) marginCorner
  pure out.1

/-- `compute_ranking_rewards` on a batch, without its metrics. -/
def rankingRewards (samples : List (ProbeSample d)) : Except Error (List ℚ) := do
  let out ← computeRankingRewards cfg probe (samples.map ProbeSample.hiddenStates)
    (samples.map ProbeSample.promptLength) (samples.map ProbeSample.budgets)
    (some (samples.map ProbeSample.naturalCorrect))
  pure out.1

/-- `compute_probe_rewards` on a batch. -/
def probeRewards (samples : List (ProbeSample d)) : Except Error (List (List ℚ)) :=
  computeProbeRewards cfg probe fns (samples.map ProbeSample.hiddenStates)
    (samples.map ProbeSample.promptLength) (samples.map ProbeSample.budgets)
    (some (samples.map ProbeSample.mcAccuracies))

end Trainer

/-- The three reward methods are maps over the samples of a batch: the
confidence-difference reward in every mode and with every corner setting, the
ranking reward, and the three per-budget signals. -/
theorem probeMethods_batchIndependent (cfg : ProbeConfig) (probe : Features d → ℚ)
    (fns : Elementary) :
    (∀ marginCorner, BatchIndependent (confDiffRewards cfg probe fns marginCorner)) ∧
    BatchIndependent (rankingRewards cfg probe) ∧
    (cfg.rewardMode ∈ [.crossEntropy, .accuracy, .brier] →
      BatchIndependent (probeRewards cfg probe fns)) := by
  refine ⟨fun marginCorner => ?_, ?_, fun hmode => ?_⟩
  · refine batchIndependent_of_map (fun sample =>
      (confDiffEntry cfg probe (marginCorner.getD cfg.marginCorner) sample).1) (fun samples => ?_)
    obtain ⟨metrics, h⟩ := computeConfDiffRewards_eq cfg probe fns samples marginCorner
    rw [confDiffRewards, h]
    rfl
  · refine batchIndependent_of_map (fun sample => (rankingEntry cfg probe sample).1)
      (fun samples => ?_)
    obtain ⟨metrics, h⟩ := computeRankingRewards_eq cfg probe samples
    rw [rankingRewards, h]
    rfl
  · obtain ⟨f, hf⟩ : ∃ f, rewardSignal fns cfg.rewardMode = some f := by
      simp only [List.mem_cons, List.not_mem_nil, or_false] at hmode
      rcases hmode with h | h | h <;> simp [h, rewardSignal]
    exact batchIndependent_of_map (probeRewardEntry cfg probe f)
      (fun samples => computeProbeRewards_eq cfg probe fns samples hf)

/-- The accuracy mode with a probe that reads the first coordinate. -/
def accuracyConfig : ProbeConfig where
  avgLastK := 1
  rewardMode := .accuracy
  marginCorner := false
  rankingRewardRt := 1 / 2
  confDiffV2Tau := 1 / 2
  confDiffV2Alpha := 1
  confDiffV3AlphaBoth := 1
  confDiffV3AlphaOnlyCorrect := 1
  confDiffV3AlphaOnlyIncorrect := 1

theorem probeMethods_batchIndependent_accuracy :
    BatchIndependent (probeRewards accuracyConfig (fun h : Features 1 => h 0) ⟨id, id, id⟩) :=
  (probeMethods_batchIndependent accuracyConfig (fun h : Features 1 => h 0)
    ⟨id, id, id⟩).2.2 (by decide)

end RLCM.ForcedOutput
