/-
# `RLCM.ForcedOutput.FitFilter` — a step with and without the filter

The natural-corner filter is compared with the run that differs in nothing but
the switch.  The two runs score the same rewards and train the same probe; with
the filter the rows of unanimous groups are zeroed, first among the probe
rewards and then in the whole tensor.  Advantages are relative to a group, so
the rows of a unanimous group lose theirs and every other row keeps its own.
-/
import RLCM.ForcedOutput.Fit
import RLCM.ForcedOutput.ProbeBatch

namespace RLCM.ForcedOutput

open Py Stats PPO

variable {Token Truth Info Uid : Type} [DecidableEq Uid] {L d : ℕ}

/-! ## Rows that the filter keeps -/

/-- `kept` has the rows of `full` where the mask says keep. -/
structure KeepsRows {α : Type} (mask : List Bool) (kept full : List α) : Prop where
  length_eq : kept.length = full.length
  getElem?_eq : ∀ i : ℕ, mask[i]? = some true → kept[i]? = full[i]?

theorem zeroDropped_getElem? {mask : List Bool} {scalars : List ℚ} {i : ℕ}
    (hi : mask[i]? = some true) :
    (zeroDropped (some mask) scalars)[i]? = scalars[i]? := by
  simp only [zeroDropped, Option.elim_some, List.getElem?_zipWith, hi]
  cases scalars[i]? <;> rfl

theorem zeroDroppedRows_of_kept {mask : List Bool} {rows : List (Fin L → ℚ)} {i : ℕ}
    (hi : mask[i]? = some true) : (zeroDroppedRows (some mask) rows)[i]? = rows[i]? := by
  simp only [zeroDroppedRows, Option.elim_some, List.getElem?_zipWith, hi]
  cases rows[i]? <;> rfl

theorem zeroDroppedRows_of_dropped {mask : List Bool} {rows : List (Fin L → ℚ)} {i : ℕ}
    (hi : mask[i]? = some false) (hrow : i < rows.length) :
    (zeroDroppedRows (some mask) rows)[i]? = some 0 := by
  simp [zeroDroppedRows, List.getElem?_zipWith, hi, List.getElem?_eq_getElem hrow]

/-! ## The probe block -/

theorem contributionRow_returns {mask : Option (Fin L → ℕ)} {x : ℚ} {row : Fin L → ℚ}
    (h : contributionRow mask x = .ok row) (y : ℚ) : ∃ row', contributionRow mask y = .ok row' := by
  unfold contributionRow at h ⊢
  split_ifs at h ⊢
  · exact ⟨_, rfl⟩

/-- The scalars with the filter are the scalars without it, except that some of
them may be zeroed where the mask says drop. -/
theorem probeRewardScalars_filter {cfg : FitSettings} {fns : Elementary}
    {probe : Features d → ℚ} {hiddenStates : List (List (Features d))} {promptLengths : List ℕ}
    {uids : List Uid} {infos : ExtraInfos} {scalars : List ℚ} (mask : List Bool)
    (h : probeRewardScalars cfg fns probe hiddenStates promptLengths uids infos none =
      .ok scalars) :
    ∃ filtered, probeRewardScalars cfg fns probe hiddenStates promptLengths uids infos
        (some mask) = .ok filtered ∧
      (filtered = scalars ∨ filtered = zeroDropped (some mask) scalars) := by
  unfold probeRewardScalars at h ⊢
  split at h
  · obtain ⟨labels, hlabels, h⟩ := bind_eq_ok.mp h
    obtain ⟨ranking, hranking, h⟩ := bind_eq_ok.mp h
    obtain rfl := Except.ok.inj h
    exact ⟨_, by simp only [hlabels, hranking, ok_bind]; rfl, Or.inr rfl⟩
  · exact ⟨_, h, Or.inl rfl⟩
  · exact ⟨_, h, Or.inl rfl⟩
  · exact ⟨_, h, Or.inl rfl⟩
  · obtain ⟨confDiff, hconf, h⟩ := bind_eq_ok.mp h
    obtain ⟨labels, hlabels, h⟩ := bind_eq_ok.mp h
    obtain ⟨scaled, hscaled, h⟩ := bind_eq_ok.mp h
    obtain rfl := Except.ok.inj h
    exact ⟨_, by simp only [hconf, hlabels, hscaled, ok_bind]; rfl, Or.inr rfl⟩
  all_goals
    obtain ⟨confDiff, hconf, h⟩ := bind_eq_ok.mp h
    obtain rfl := Except.ok.inj h
    exact ⟨_, by simp only [hconf, ok_bind]; rfl, Or.inr rfl⟩

theorem probeRewardContribution_eq_ok {n : ℕ} {scalars : List ℚ} {weight : ℚ}
    {responseMask : Option (List (Fin L → ℕ))} {contribution : List (Fin L → ℚ)}
    (h : probeRewardContribution n scalars weight responseMask = .ok contribution) :
    contribution.length = n ∧ ∀ i, i < n → ∃ scalar row rowMask,
      scalars[i]? = some scalar ∧ contribution[i]? = some row ∧
      (responseMask.elim (pure none) (fun rows => do
        let row ← getItem rows i
        pure (some row)) : Except Error (Option (Fin L → ℕ))) = .ok rowMask ∧
      contributionRow rowMask (scalar * weight) = .ok row := by
  constructor
  · have hlen := (mapM_eq_ok.mp h).length_eq
    rw [← hlen, List.length_range]
  · intro i hi
    obtain ⟨row, hrow, hbody⟩ := getElem?_of_mapM h
      (show (List.range n)[i]? = some i by simp [hi])
    obtain ⟨scalar, hscalar, hbody⟩ := bind_eq_ok.mp hbody
    obtain ⟨rowMask, hrowMask, hbody⟩ := bind_eq_ok.mp hbody
    exact ⟨scalar, row, rowMask, getItem_eq_ok.mp hscalar, hrow, hrowMask, hbody⟩

theorem probeRewardContribution_returns {n : ℕ} {scalars scalars' : List ℚ} {weight : ℚ}
    {responseMask : Option (List (Fin L → ℕ))} {contribution : List (Fin L → ℚ)}
    (h : probeRewardContribution n scalars weight responseMask = .ok contribution)
    (hscalars : n ≤ scalars'.length) :
    ∃ contribution', probeRewardContribution n scalars' weight responseMask =
      .ok contribution' := by
  obtain ⟨-, hpass⟩ := probeRewardContribution_eq_ok h
  refine mapM_returns (fun i hi => ?_)
  rw [List.mem_range] at hi
  obtain ⟨scalar, row, rowMask, -, -, hrowMask, hrow⟩ := hpass i hi
  obtain ⟨row', hrow'⟩ := contributionRow_returns hrow (scalars'[i] * weight)
  refine ⟨row', ?_⟩
  rw [getItem_of_lt (hi.trans_le hscalars), ok_bind, hrowMask, ok_bind, hrow']

/-- Adding zeroed scalars changes dropped rows only. -/
theorem addProbeReward_filter {rewardTensor full : List (Fin L → ℚ)} {scalars filtered : List ℚ}
    {weight : ℚ} {responseMask : Option (List (Fin L → ℕ))} {mask : List Bool}
    (h : addProbeReward rewardTensor scalars weight responseMask = .ok full)
    (hmask : rewardTensor.length ≤ mask.length)
    (hfiltered : filtered = scalars ∨ filtered = zeroDropped (some mask) scalars) :
    ∃ kept, addProbeReward rewardTensor filtered weight responseMask = .ok kept ∧
      KeepsRows mask kept full := by
  rcases hfiltered with rfl | rfl
  · exact ⟨full, h, rfl, fun _ _ => rfl⟩
  obtain ⟨contribution, hcontribution, h⟩ := bind_eq_ok.mp h
  obtain rfl := Except.ok.inj h
  obtain ⟨hlen, hpass⟩ := probeRewardContribution_eq_ok hcontribution
  have hscalars : rewardTensor.length ≤ scalars.length := by
    by_contra hshort
    obtain ⟨scalar, -, -, hscalar, -⟩ := hpass scalars.length (not_le.mp hshort)
    exact absurd (List.getElem?_eq_some_iff.mp hscalar).1 (lt_irrefl _)
  have hdropped : rewardTensor.length ≤ (zeroDropped (some mask) scalars).length := by
    rw [zeroDropped, Option.elim_some, List.length_zipWith]
    exact le_min hscalars hmask
  obtain ⟨contribution', hcontribution'⟩ :=
    probeRewardContribution_returns hcontribution hdropped
  obtain ⟨hlen', hpass'⟩ := probeRewardContribution_eq_ok hcontribution'
  refine ⟨_, by rw [addProbeReward, hcontribution']; rfl, ?_, fun i hi => ?_⟩
  · rw [List.length_zipWith, List.length_zipWith, hlen, hlen']
  · rw [List.getElem?_zipWith, List.getElem?_zipWith]
    by_cases hlt : i < rewardTensor.length
    · obtain ⟨scalar, row, rowMask, hscalar, hrow, hrowMask, hplaced⟩ := hpass i hlt
      obtain ⟨scalar', row', rowMask', hscalar', hrow', hrowMask', hplaced'⟩ := hpass' i hlt
      -- a kept row has the same scalar and the same mask in both runs
      rw [zeroDropped_getElem? hi, hscalar] at hscalar'
      rw [hrowMask] at hrowMask'
      cases hscalar'
      cases hrowMask'
      rw [hplaced] at hplaced'
      rw [hrow, hrow', Except.ok.inj hplaced']
    · have hnone : rewardTensor[i]? = none := List.getElem?_eq_none (by omega)
      rw [hnone]

/-- With the filter the probe block returns if it does without, and the rows
the mask keeps are the same. -/
theorem probeBlock_filter {cfg : FitSettings} {env : StepEnv Token Truth Info Uid L d}
    {batch : StepBatch Token Truth Info Uid L d} {infos : ExtraInfos}
    {rewardTensor full : List (Fin L → ℚ)} (mask : List Bool)
    (hmask : rewardTensor.length ≤ mask.length)
    (h : probeBlock cfg env batch infos none rewardTensor = .ok full) :
    ∃ kept, probeBlock cfg env batch infos (some mask) rewardTensor = .ok kept ∧
      KeepsRows mask kept full := by
  unfold probeBlock at h ⊢
  split at h
  · exact ⟨full, h, rfl, fun _ _ => rfl⟩
  · obtain ⟨pairs, hpairs, h⟩ := bind_eq_ok.mp h
    simp only [hpairs, ok_bind]
    split_ifs at h ⊢ with huse
    · obtain ⟨scalars, hscalars, h⟩ := bind_eq_ok.mp h
      obtain ⟨filtered, hfiltered, hcases⟩ := probeRewardScalars_filter mask hscalars
      obtain ⟨kept, hkept, hrows⟩ := addProbeReward_filter h hmask hcases
      exact ⟨kept, by rw [hfiltered]; exact hkept, hrows⟩
    · exact ⟨full, h, rfl, fun _ _ => rfl⟩

/-! ## Advantages of filtered rows -/

/-- The rows of mixed groups are those of the unfiltered run, all others are
zero. -/
structure FilteredRows (uids : List Uid) (labels : List Bool)
    (filtered full : List (Fin L → ℚ)) : Prop where
  length_eq : filtered.length = full.length
  mixed : ∀ (i : ℕ) g, uids[i]? = some g → Mixed uids labels g → filtered[i]? = full[i]?
  unanimous : ∀ (i : ℕ) g, uids[i]? = some g → ¬ Mixed uids labels g → filtered[i]? = some 0

theorem FilteredRows.groupValues_mixed {uids : List Uid} {labels : List Bool}
    {filtered full : List (Fin L → ℚ)} (h : FilteredRows uids labels filtered full) {g : Uid}
    (hg : Mixed uids labels g) :
    groupValues uids (filtered.map Row.sum) g = groupValues uids (full.map Row.sum) g := by
  refine Dict.valuesAt_zip_congr (by simp [h.length_eq]) (fun i hi => ?_)
  rw [List.getElem?_map, List.getElem?_map, h.mixed i g hi hg]

theorem FilteredRows.groupValues_unanimous {uids : List Uid} {labels : List Bool}
    {filtered full : List (Fin L → ℚ)} (h : FilteredRows uids labels filtered full) {g : Uid}
    (hg : ¬ Mixed uids labels g) : ∀ x ∈ groupValues uids (filtered.map Row.sum) g, x = 0 := by
  intro x hx
  obtain ⟨i, hi, hxi⟩ := Dict.mem_valuesAt_zip.mp hx
  rw [List.getElem?_map, h.unanimous i g hi hg, Option.map_some, Option.some.injEq] at hxi
  rw [← hxi, Row.sum_zero]

theorem grpoAdvantage_filtered (fns : Elementary) (epsilon : ℚ) (norm : Bool)
    {uids : List Uid} {labels : List Bool} {filtered full : List (Fin L → ℚ)}
    {responseMask : List (Fin L → ℕ)} (h : FilteredRows uids labels filtered full)
    (hmask : responseMask.length = uids.length) (hrows : full.length = uids.length)
    {i : ℕ} {g : Uid} (hg : uids[i]? = some g) :
    (¬ Mixed uids labels g →
      (computeGrpoOutcomeAdvantage fns filtered responseMask uids epsilon norm)[i]? = some 0) ∧
    (Mixed uids labels g →
      (computeGrpoOutcomeAdvantage fns filtered responseMask uids epsilon norm)[i]? =
        (computeGrpoOutcomeAdvantage fns full responseMask uids epsilon norm)[i]?) := by
  have hi : i < uids.length := (List.getElem?_eq_some_iff.mp hg).1
  have hmaski : responseMask[i]? = some responseMask[i] := List.getElem?_eq_getElem (by omega)
  constructor
  · intro hunanimous
    have hrow := h.unanimous i g hg hunanimous
    have hmem : (0 : ℚ) ∈ groupValues uids (filtered.map Row.sum) g :=
      Dict.mem_valuesAt_zip.mpr ⟨i, hg, by simp [hrow]⟩
    rw [getElem?_grpoAdvantage fns epsilon norm hrow hmaski hg, Row.sum_zero,
      grpoScore_zero fns epsilon norm (List.ne_nil_of_mem hmem)
        (h.groupValues_unanimous hunanimous), spread_zero]
  · intro hmixed
    have hfull : full[i]? = some full[i] := List.getElem?_eq_getElem (by omega)
    have hrow := (h.mixed i g hg hmixed).trans hfull
    rw [getElem?_grpoAdvantage fns epsilon norm hrow hmaski hg,
      getElem?_grpoAdvantage fns epsilon norm hfull hmaski hg, h.groupValues_mixed hmixed]

theorem eq_of_not_mixed {uids : List Uid} {labels : List Bool} {g : Uid}
    (hg : ¬ Mixed uids labels g) {b b' : Bool} (hb : b ∈ groupCorrect uids labels g)
    (hb' : b' ∈ groupCorrect uids labels g) : b = b' := by
  cases b <;> cases b'
  · rfl
  · exact absurd ⟨hb', hb⟩ hg
  · exact absurd ⟨hb, hb'⟩ hg
  · rfl

theorem c2gspgAdvantage_unanimous {uids : List Uid} {labels : List Bool}
    {rows : List (Fin L → ℚ)} {responseMask : List (Fin L → ℕ)} {confidence : List ℚ}
    (clipEps denomEps : ℚ) (hmask : responseMask.length = uids.length)
    (hconf : confidence.length = uids.length) (hlabels : labels.length = uids.length)
    {i : ℕ} {g : Uid} (hg : uids[i]? = some g) (hunanimous : ¬ Mixed uids labels g) :
    (computeC2gspgOutcomeAdvantage rows responseMask (some uids) (some confidence)
      (some (labels.map (fun b => if b then 1 else 0))) clipEps denomEps)[i]? = some 0 := by
  have hi : i < uids.length := (List.getElem?_eq_some_iff.mp hg).1
  have hmaski : responseMask[i]? = some responseMask[i] := List.getElem?_eq_getElem (by omega)
  have hconfi : confidence[i]? = some confidence[i] := List.getElem?_eq_getElem (by omega)
  have hlabeli : labels[i]? = some labels[i] := List.getElem?_eq_getElem (by omega)
  have hri : (labels.map (fun b => if b then (1 : ℚ) else 0))[i]? =
      some (if labels[i] then 1 else 0) := by
    rw [List.getElem?_map, hlabeli, Option.map_some]
  have hmem : (if labels[i] then (1 : ℚ) else 0) ∈
      groupValues uids (labels.map (fun b => if b then 1 else 0)) g :=
    Dict.mem_valuesAt_zip.mpr ⟨i, hg, hri⟩
  have hsame : ∀ x ∈ groupValues uids (labels.map (fun b => if b then (1 : ℚ) else 0)) g,
      x = if labels[i] then 1 else 0 := by
    intro x hx
    obtain ⟨j, hj, hxj⟩ := Dict.mem_valuesAt_zip.mp hx
    rw [List.getElem?_map] at hxj
    obtain ⟨b, hb, rfl⟩ := Option.map_eq_some_iff.mp hxj
    rw [eq_of_not_mixed hunanimous (Dict.mem_valuesAt_zip.mpr ⟨j, hj, hb⟩)
      (Dict.mem_valuesAt_zip.mpr ⟨i, hg, hlabeli⟩)]
  rw [getElem?_c2gspgAdvantage clipEps denomEps hmaski hg hconfi hri,
    centered_eq_zero (List.ne_nil_of_mem hmem) hsame, zero_div, spread_zero]

/-! ## The two runs -/

section Runs

variable {cfg : FitSettings} {env : StepEnv Token Truth Info Uid L d}
  {batch : StepBatch Token Truth Info Uid L d}

def FitSettings.withoutFilter (cfg : FitSettings) : FitSettings :=
  { cfg with probeFilterNaturalCornerGroups := false }

theorem c2BinaryReward_of_labels {labels : List Bool} {rows : List (Fin L → ℚ)}
    (h : labels.length = rows.length) :
    c2BinaryReward (some labels) rows = labels.map (fun b => if b then 1 else 0) := by
  simp [c2BinaryReward, Option.filter, h]

theorem any_keepMask_iff {uids : List Uid} {labels : List Bool} :
    (uids.map (fun g => decide (Mixed uids labels g))).any id = true ↔
      ∃ g, Mixed uids labels g := by
  simp only [List.any_map, List.any_eq_true, Function.comp_apply, id_eq, decide_eq_true_eq]
  constructor
  · rintro ⟨g, -, hg⟩
    exact ⟨g, hg⟩
  · rintro ⟨g, hg⟩
    obtain ⟨i, hi, -⟩ := Dict.mem_valuesAt_zip.mp hg.1
    exact ⟨g, List.mem_of_getElem? hi, hg⟩

theorem naturalCornerKeepMask_of_mixed {uids : List Uid} {labels : List Bool}
    (hlen : uids.length = labels.length) (hmixed : ∃ g, Mixed uids labels g) :
    naturalCornerKeepMask true uids (some labels) =
      .ok (some (uids.map (fun g => decide (Mixed uids labels g)))) := by
  obtain ⟨stats, hmask⟩ := keepMask_eq hlen
  simp only [naturalCornerKeepMask, if_true, require, ok_bind, hmask, pure_eq_ok,
    if_pos (any_keepMask_iff.mpr hmixed)]

theorem naturalCornerKeepMask_of_unanimous {uids : List Uid} {labels : List Bool}
    (hlen : uids.length = labels.length) (hmixed : ¬ ∃ g, Mixed uids labels g) :
    naturalCornerKeepMask true uids (some labels) = .ok none := by
  obtain ⟨stats, hmask⟩ := keepMask_eq hlen
  simp only [naturalCornerKeepMask, if_true, require, ok_bind, hmask, pure_eq_ok,
    if_neg (mt any_keepMask_iff.mp hmixed)]

/-- The rewards the advantages are computed from, with and without the
filter. -/
theorem filteredRows_of_keepsRows {uids : List Uid} {labels : List Bool}
    {kept full : List (Fin L → ℚ)} (hlen : full.length = uids.length)
    (h : KeepsRows (uids.map (fun g => decide (Mixed uids labels g))) kept full) :
    FilteredRows uids labels
      (zeroDroppedRows (some (uids.map (fun g => decide (Mixed uids labels g)))) kept) full where
  length_eq := by
    simp [zeroDroppedRows, h.length_eq, hlen]
  mixed := by
    intro i g hg hmixed
    have hi : (uids.map (fun g => decide (Mixed uids labels g)))[i]? = some true := by
      simp [hg, hmixed]
    rw [zeroDroppedRows_of_kept hi, h.getElem?_eq i hi]
  unanimous := by
    intro i g hg hunanimous
    have hlt : i < uids.length := (List.getElem?_eq_some_iff.mp hg).1
    exact zeroDroppedRows_of_dropped (by simp [hg, hunanimous]) (by rw [h.length_eq]; omega)

def stepLabels (cfg : FitSettings) (labels : List Bool) (rows : List (Fin L → ℚ)) :
    Option (List ℚ) :=
  if cfg.advEstimator = .c2gspg then some (c2BinaryReward (some labels) rows) else none

/-- The advantages of a step on filtered rows: GRPO, C2GSPG, and C2GSPG that
falls back to GRPO. -/
theorem computeAdvantage_filtered {labels : List Bool} {filtered full : List (Fin L → ℚ)}
    (h : FilteredRows batch.uids labels filtered full) (hadv : cfg.advEstimator ≠ .other)
    (hrows : full.length = batch.items.length) (hlabels : labels.length = batch.items.length)
    {i : ℕ} {g : Uid} (hg : batch.uids[i]? = some g) :
    (¬ Mixed batch.uids labels g →
      (computeAdvantage cfg env batch filtered (stepLabels cfg labels filtered))[i]? = some 0) ∧
    (Mixed batch.uids labels g →
      (computeAdvantage cfg env batch filtered (stepLabels cfg labels filtered))[i]? =
        (computeAdvantage cfg env batch full (stepLabels cfg labels full))[i]?) := by
  have huids := batch.length_uids
  have hmask := batch.length_correctedMask
  have hfiltered := h.length_eq
  cases hest : effectiveAdvEstimator cfg batch.oldSequenceConfidence with
  | other =>
      unfold effectiveAdvEstimator at hest
      split_ifs at hest
      exact absurd hest hadv
  | grpo =>
      simp only [computeAdvantage, hest]
      exact grpoAdvantage_filtered env.fns _ _ h (by omega) (by omega) hg
  | c2gspg =>
      have hc2 : cfg.advEstimator = .c2gspg := by
        unfold effectiveAdvEstimator at hest
        split_ifs at hest
        exact hest
      obtain ⟨confidence, hconf⟩ : ∃ confidence, batch.oldSequenceConfidence = some confidence := by
        cases hold : batch.oldSequenceConfidence with
        | none =>
            rw [hold, effectiveAdvEstimator, if_pos ⟨hc2, rfl⟩] at hest
            cases hest
        | some confidence => exact ⟨confidence, rfl⟩
      have hconfLen := batch.length_oldSequenceConfidence confidence (by simp [hconf])
      rw [hconf] at hest
      simp only [computeAdvantage, hconf, hest, stepLabels, if_pos hc2]
      rw [c2BinaryReward_of_labels (by omega), c2BinaryReward_of_labels (by omega)]
      refine ⟨fun hunanimous => ?_, fun _ => rfl⟩
      exact c2gspgAdvantage_unanimous _ _ (by omega) (by omega) (by omega) hg hunanimous

end Runs

/-- With at least one mixed group, the filter takes the advantage of every
sample of a unanimous group and leaves every other sample the advantage it has
without the filter; with no mixed group it changes no advantage. -/
theorem filter_removes_unanimous_groups (cfg : FitConfig)
    (env : StepEnv Token Truth Info Uid L d) (batch : StepBatch Token Truth Info Uid L d)
    (hfilter : cfg.probeFilterNaturalCornerGroups = true) (hkl : batch.klPenalty = none)
    (hadv : cfg.advEstimator ≠ .other) (unfiltered : StepResult L)
    (hrun : trainingStep cfg.toFitSettings.withoutFilter env batch = .ok unfiltered) :
    ∃ out, trainingStep cfg.toFitSettings env batch = .ok out ∧
      ((∃ g, Mixed batch.uids (batch.items.map (naturalLabel cfg.toFitSettings env)) g) →
        ∀ (i : ℕ) g, batch.uids[i]? = some g →
          (¬ Mixed batch.uids (batch.items.map (naturalLabel cfg.toFitSettings env)) g →
            out.advantages[i]? = some 0) ∧
          (Mixed batch.uids (batch.items.map (naturalLabel cfg.toFitSettings env)) g →
            out.advantages[i]? = unfiltered.advantages[i]?)) ∧
      ((¬ ∃ g, Mixed batch.uids (batch.items.map (naturalLabel cfg.toFitSettings env)) g) →
        out.advantages = unfiltered.advantages) := by
  obtain ⟨rewards, keepMask, full, ⟨hrewards, hkeep, hfull⟩, rfl⟩ := trainingStep_eq_ok.mp hrun
  obtain rfl : none = keepMask := Except.ok.inj hkeep
  -- Only the mask stage reads the switch.
  have hrewards' : computeForcedOutputRewards cfg.trainer env.tok env.scorer batch.rewardBatch =
    .ok rewards := hrewards
  have hlabels := naturalCorrect?_eq cfg.toFitSettings env batch hrewards'
  have hlen : batch.uids.length =
      (batch.items.map (naturalLabel cfg.toFitSettings env)).length := by
    rw [List.length_map, batch.length_uids]
  by_cases hmixed : ∃ g, Mixed batch.uids (batch.items.map (naturalLabel cfg.toFitSettings env)) g
  · have hmask := naturalCornerKeepMask_of_mixed hlen hmixed
    rw [← hlabels, ← hfilter] at hmask
    have htensor : rewards.rewardTensor.length = batch.items.length :=
      length_rewardTensor cfg.toFitSettings env batch hrewards'
    have hfull' : probeBlock cfg.toFitSettings env batch rewards.extraInfos none
      rewards.rewardTensor = .ok full := hfull
    obtain ⟨kept, hkept, hrows⟩ := probeBlock_filter
      (batch.uids.map (fun g => decide
        (Mixed batch.uids (batch.items.map (naturalLabel cfg.toFitSettings env)) g)))
      (by rw [List.length_map, batch.length_uids, htensor]) hfull'
    have hfullLen : full.length = batch.items.length := by
      rw [length_probeBlock hfull, htensor]
    have hfiltered := filteredRows_of_keepsRows (by rw [hfullLen, batch.length_uids]) hrows
    refine ⟨_, trainingStep_eq_ok.mpr ⟨rewards, _, kept, ⟨hrewards', hmask, hkept⟩, rfl⟩,
      fun _ i g hg => ?_, fun hnone => absurd hmixed hnone⟩
    simp only [finishStep, hlabels, applyKlPenalty, hkl, Option.elim_none]
    exact computeAdvantage_filtered hfiltered hadv hfullLen (by simp) hg
  · have hmask := naturalCornerKeepMask_of_unanimous hlen hmixed
    rw [← hlabels, ← hfilter] at hmask
    refine ⟨_, trainingStep_eq_ok.mpr ⟨rewards, none, full, ⟨hrewards', hmask, hfull⟩, rfl⟩,
      fun h => absurd h hmixed, fun _ => rfl⟩

/-- A sample with a natural trace of one token and no forced outputs. -/
def naturalItem (answer : Char) : Item Char Unit Unit where
  groundTruth := none
  dataSource := none
  extraInfo := none
  promptLength := 0
  attentionMask := [1]
  responses := [answer]
  traceLength := some 1
  forcedFullTexts := none
  forcedFullTextsMulti := none
  budgetCheckpoints := none
  ascending := by simp

def filterConfig : FitConfig where
  trainer := ⟨.mean, 1, .mean, true, 0, []⟩
  includeBudgetReward := false
  probeEnabled := true
  probeUseAsReward := true
  probeRewardWeight := 1 / 10
  probe := accuracyConfig
  probeFilterNaturalCornerGroups := true
  advEstimator := .grpo
  normAdvByStdInGrpo := false
  c2gspgConfidenceClipEps := 1 / 1000000
  c2gspgDenominatorEps := 1 / 1000000
  filter_probe := by decide
  filter_natural := by decide
  ranking_natural := by decide

/-- A scorer for which `r` is the right answer. -/
def gradingEnv : StepEnv Char Unit Unit ℕ 1 1 where
  tok := ⟨id, id, 'e'⟩
  scorer := fun query => if query.solutionStr = ['r'] then .number 1 else .number (-1)
  fns := ⟨id, id, id⟩
  probe := fun _ => 0
  trainStep := fun _ _ _ => 0
  otherEstimator := fun rows _ _ => rows

/-- A mixed group `0` around a singleton group `1`. -/
def interleavedBatch : StepBatch Char Unit Unit ℕ 1 1 where
  items := [naturalItem 'r', naturalItem 'r', naturalItem 'w']
  responseMask := [fun _ => 1, fun _ => 1, fun _ => 1]
  uids := [0, 1, 0]
  hiddenStates := none
  promptLenGlobal := 0
  oldSequenceConfidence := none
  klPenalty := none
  correctedMask := [fun _ => 1, fun _ => 1, fun _ => 1]
  items_ne_nil := by simp
  length_responseMask := rfl
  length_uids := rfl
  length_hiddenStates := by simp
  length_oldSequenceConfidence := by simp
  length_klPenalty := by simp
  length_correctedMask := rfl

theorem filter_removes_unanimous_groups_interleaved :
    ∃ unfiltered out,
      trainingStep filterConfig.toFitSettings.withoutFilter gradingEnv interleavedBatch =
        .ok unfiltered ∧
      trainingStep filterConfig.toFitSettings gradingEnv interleavedBatch = .ok out ∧
      out.advantages[1]? = some 0 ∧ out.advantages[0]? = unfiltered.advantages[0]? := by
  have hsome : (trainingStep filterConfig.toFitSettings.withoutFilter gradingEnv
      interleavedBatch).toOption.isSome = true := by
    decide +kernel
  cases hrun : trainingStep filterConfig.toFitSettings.withoutFilter gradingEnv
      interleavedBatch with
  | error e =>
      rw [hrun] at hsome
      cases hsome
  | ok unfiltered =>
      have hmixed : Mixed interleavedBatch.uids
          (interleavedBatch.items.map (naturalLabel filterConfig.toFitSettings gradingEnv)) 0 := by
        decide +kernel
      have hunanimous : ¬ Mixed interleavedBatch.uids
          (interleavedBatch.items.map (naturalLabel filterConfig.toFitSettings gradingEnv)) 1 := by
        decide +kernel
      obtain ⟨out, hout, hrows, -⟩ := filter_removes_unanimous_groups filterConfig gradingEnv
        interleavedBatch rfl rfl (by decide) unfiltered hrun
      exact ⟨unfiltered, out, rfl, hout, (hrows ⟨0, hmixed⟩ 1 1 rfl).1 hunanimous,
        (hrows ⟨0, hmixed⟩ 0 0 rfl).2 hmixed⟩

end RLCM.ForcedOutput
