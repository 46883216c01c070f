/-
# `RLCM.PPO.Reordering` — advantages do not depend on the order of the batch

The trainer reorders the batch for its ranks before it computes the advantages.
A group-relative advantage reads the numbers of the group as a whole: a sum, a
mean, a standard deviation.  None of them depends on the order
(`grpoScore_perm`, `scalarAdvantage_perm`), so every sequence keeps its advantage
and takes it along: `advantages_balanced`.
-/
import RLCM.PPO.C2gspgLaws
import RLCM.Balancing.BalanceBatch

namespace RLCM.PPO

open Py Stats Balancing Protocol

variable {Uid : Type} [DecidableEq Uid] {L : ℕ}

/-! ## GRPO, sample by sample -/

section Grpo

variable (fns : Elementary) (epsilon : ℚ) (normAdvByStdInGrpo : Bool)

omit [DecidableEq Uid] in
def C2Sample.score (s : C2Sample Uid L) : ℚ := Row.sum s.tokenLevelRewards

/-- The advantages `compute_grpo_outcome_advantage` gives for a batch. -/
def grpoAdvantages (samples : List (C2Sample Uid L)) : List (Fin L → ℚ) :=
  computeGrpoOutcomeAdvantage fns (samples.map C2Sample.tokenLevelRewards)
    (samples.map C2Sample.responseMask) (samples.map C2Sample.uid) epsilon normAdvByStdInGrpo

/-- One of them. -/
def grpoAdvantage (samples : List (C2Sample Uid L)) (s : C2Sample Uid L) : ℚ :=
  grpoScore fns epsilon normAdvByStdInGrpo ((groupOf samples s.uid).map C2Sample.score) s.score

theorem groupValues_score (samples : List (C2Sample Uid L)) (g : Uid) :
    groupValues (samples.map C2Sample.uid)
      ((samples.map C2Sample.tokenLevelRewards).map Row.sum) g =
      (groupOf samples g).map C2Sample.score := by
  rw [groupValues, Dict.valuesAt, List.map_map, List.zip_map', List.filter_map, List.map_map,
    groupOf]
  rfl

theorem grpoAdvantages_eq (samples : List (C2Sample Uid L)) :
    grpoAdvantages fns epsilon normAdvByStdInGrpo samples = samples.map (fun s =>
      spread (grpoAdvantage fns epsilon normAdvByStdInGrpo samples s) s.responseMask) := by
  refine List.ext_getElem? (fun i => ?_)
  rw [List.getElem?_map]
  cases hs : samples[i]? with
  | none =>
      have hlen := List.getElem?_eq_none_iff.mp hs
      refine List.getElem?_eq_none ?_
      simp only [grpoAdvantages, computeGrpoOutcomeAdvantage, List.length_zipWith,
        List.length_map, List.length_zip]
      omega
  | some s =>
      have hfield : ∀ {β : Type} (f : C2Sample Uid L → β), (samples.map f)[i]? = some (f s) := by
        intro β f
        rw [List.getElem?_map, hs, Option.map_some]
      rw [grpoAdvantages, getElem?_grpoAdvantage fns epsilon normAdvByStdInGrpo (hfield _)
        (hfield _) (hfield _), groupValues_score]
      rfl

end Grpo

/-! ## Groups in another order -/

section Perm

variable {samples samples' : List (C2Sample Uid L)}

theorem mean_perm {xs ys : List ℚ} (h : xs.Perm ys) : mean xs = mean ys := by
  rw [mean, mean, h.sum_eq, h.length_eq]

theorem sampleStd_perm (fns : Elementary) {xs ys : List ℚ} (h : xs.Perm ys) :
    sampleStd fns xs = sampleStd fns ys := by
  have hsquares : squaredDeviations xs = squaredDeviations ys := by
    rw [squaredDeviations, squaredDeviations, mean_perm h]
    exact (h.map _).sum_eq
  rw [sampleStd, sampleStd, hsquares, h.length_eq]

theorem grpoScore_perm (fns : Elementary) (epsilon : ℚ) (norm : Bool) {group group' : List ℚ}
    (h : group.Perm group') (score : ℚ) :
    grpoScore fns epsilon norm group score = grpoScore fns epsilon norm group' score := by
  have hmean : groupMean group = groupMean group' := by
    rw [groupMean, groupMean, h.length_eq, mean_perm h]
  have hstd : groupStd fns group = groupStd fns group' := by
    rw [groupStd, groupStd, h.length_eq, sampleStd_perm fns h]
  rw [grpoScore, grpoScore, hmean, hstd]

theorem groupOf_perm (h : samples.Perm samples') (g : Uid) :
    (groupOf samples g).Perm (groupOf samples' g) := h.filter _

theorem grpoAdvantage_perm (fns : Elementary) (epsilon : ℚ) (norm : Bool)
    (h : samples.Perm samples') (s : C2Sample Uid L) :
    grpoAdvantage fns epsilon norm samples s = grpoAdvantage fns epsilon norm samples' s :=
  grpoScore_perm fns epsilon norm ((groupOf_perm h s.uid).map C2Sample.score) s.score

theorem scalarAdvantage_perm (clipEps denomEps : ℚ) (h : samples.Perm samples')
    (s : C2Sample Uid L) :
    scalarAdvantage clipEps denomEps samples s = scalarAdvantage clipEps denomEps samples' s := by
  have hmean : groupLabelMean samples s.uid = groupLabelMean samples' s.uid :=
    mean_perm ((groupOf_perm h s.uid).map C2Sample.label)
  rw [scalarAdvantage, scalarAdvantage, hmean]

end Perm

/-! ## A balanced batch -/

theorem gather_map {α β : Type} (f : α → β) (rows : List α) (order : List ℕ) :
    gather (rows.map f) order = (gather rows order).map f := by
  rw [gather, gather, List.map_filterMap]
  exact List.filterMap_congr (fun i _ => List.getElem?_map)

/-- The advantages of a balanced batch are those of the batch, reordered with it:
balancing changes on which rank a sequence is trained, not with what advantage. -/
theorem advantages_balanced {cfg : BalanceConfig} {samples : List (C2Sample Uid L)}
    {seqlens : List ℕ} {uids : Option (List Uid)} {dpSize : ℕ}
    (hgrouper : cfg.usePrefixGrouper = false) (hkeep : cfg.keepMinibatch = false)
    (hdp : getDpSize cfg.dpRankMapping = .ok dpSize) (hlen : samples.length = seqlens.length)
    {reordered : List (C2Sample Uid L)} {parts : List (List ℕ)} {stats : SeqlenStats}
    (h : balanceBatch cfg samples seqlens uids = .ok (reordered, parts, stats))
    (fns : Elementary) (epsilon : ℚ) (norm : Bool) (clipEps denomEps : ℚ) :
    grpoAdvantages fns epsilon norm reordered =
        gather (grpoAdvantages fns epsilon norm samples) parts.flatten ∧
      c2gspgAdvantages clipEps denomEps reordered =
        gather (c2gspgAdvantages clipEps denomEps samples) parts.flatten := by
  obtain ⟨parts0, _, hpart, rfl, rfl⟩ := exists_partitions_of_ok hgrouper hkeep hdp hlen h
  have hperm : (gather samples (orderedPartitions cfg seqlens parts0).flatten).Perm samples :=
    gather_perm ((flatten_orderedPartitions cfg seqlens parts0).trans hpart.flatten_perm)
  rw [grpoAdvantages_eq, grpoAdvantages_eq, c2gspgAdvantages_eq, c2gspgAdvantages_eq, gather_map,
    gather_map]
  constructor
  · refine List.map_congr_left (fun s _ => ?_)
    rw [grpoAdvantage_perm fns epsilon norm hperm s]
  · refine List.map_congr_left (fun s _ => ?_)
    rw [scalarAdvantage_perm clipEps denomEps hperm s]

/-- Two prompts of two samples, one of the first correct. -/
def fourSamples : List (C2Sample ℕ 1) :=
  [(7, true, 1), (7, false, 0), (5, false, 0), (5, false, 0)].map (fun (uid, correct, reward) =>
    { uid, correct, oldSequenceConfidence := 1 / 2, tokenLevelRewards := fun _ => reward
      responseMask := fun _ => 1, mask01 := fun _ => Or.inr rfl })

theorem advantages_balanced_four : ∃ reordered parts stats,
    balanceBatch (twoRanks false false) fourSamples [4, 3, 2, 2] (none : Option (List ℕ)) =
        .ok (reordered, parts, stats) ∧ parts = [[2, 0], [3, 1]] ∧
      grpoAdvantages { exp := id, log := id, sqrt := id } 1 false reordered =
        gather (grpoAdvantages { exp := id, log := id, sqrt := id } 1 false fourSamples)
          parts.flatten := by
  have hparts : getSeqlenBalancedPartitions ([4, 3, 2, 2].map calculateWorkload) 2 true =
      .ok [[0, 2], [1, 3]] := by
    decide +kernel
  obtain ⟨-, stats, hout⟩ := @balanceBatch_default _ ℕ _ (twoRanks false false) fourSamples
    [4, 3, 2, 2] none 2 rfl rfl rfl rfl _ hparts
  refine ⟨_, _, stats, hout, by decide +kernel, ?_⟩
  exact (advantages_balanced rfl rfl rfl rfl hout _ 1 false 1 1).1

end RLCM.PPO
