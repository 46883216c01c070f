/-
# `RLCM.PPO.CoreAlgos` — group-relative advantages

The two outcome advantages the trainers use.  Both reduce a sequence to one
number, centre it on the mean of its prompt group, scale it, and write it on
the valid tokens: GRPO with the summed token-level rewards and the standard
deviation of the group, C2GSPG with the binary label and the confidence of the
old policy.

The lemmas say that the advantage of a sequence depends on its own group only,
and vanishes in a group whose members all have the same number.
-/
import RLCM.Py.Dict
import RLCM.Lib.Row
import RLCM.Lib.Stats

namespace RLCM.PPO

open Py Stats

variable {Uid : Type} [DecidableEq Uid] {L : ℕ}

/-- One row of `scores.unsqueeze(-1) * response_mask`. -/
def spread (score : ℚ) (mask : Fin L → ℕ) : Fin L → ℚ := fun t => score * mask t

@[simp] theorem spread_zero (mask : Fin L → ℕ) : spread 0 mask = 0 := by
  funext t
  simp [spread]

/-! ## GRPO -/

/-- `id2mean[idx]`. -/
def groupMean (scores : List ℚ) : ℚ := if scores.length = 1 then 0 else mean scores

/-- `id2std[idx]`. -/
def groupStd (fns : Elementary) (scores : List ℚ) : ℚ :=
  if scores.length = 1 then 1 else sampleStd fns scores

/-- The normalised score of a sequence in a group with these scores. -/
def grpoScore (fns : Elementary) (epsilon : ℚ) (normAdvByStdInGrpo : Bool)
    (group : List ℚ) (score : ℚ) : ℚ :=
  if normAdvByStdInGrpo then (score - groupMean group) / (groupStd fns group + epsilon)
  else score - groupMean group

def computeGrpoOutcomeAdvantage (fns : Elementary) (tokenLevelRewards : List (Fin L → ℚ))
    (responseMask : List (Fin L → ℕ)) (index : List Uid) (epsilon : ℚ)
    (normAdvByStdInGrpo : Bool) : List (Fin L → ℚ) :=
  let scores := tokenLevelRewards.map Row.sum
  let id2score := Dict.group (index.zip scores)
  let normalized := (index.zip scores).map (fun is =>
    grpoScore fns epsilon normAdvByStdInGrpo (id2score.getD is.1 []) is.2)
  List.zipWith spread normalized responseMask

/-! ## C2GSPG -/

/-- `compute_c2gspg_outcome_advantage`, with the clipping constants read from
the configuration. -/
def computeC2gspgOutcomeAdvantage (tokenLevelRewards : List (Fin L → ℚ))
    (responseMask : List (Fin L → ℕ)) (index : Option (List Uid))
    (oldSequenceConfidence c2BinaryReward : Option (List ℚ))
    (confidenceClipEps denominatorEps : ℚ) : List (Fin L → ℚ) :=
  let scores := tokenLevelRewards.map Row.sum
  let binaryReward := c2BinaryReward.getD (scores.map (fun s => if 0 < s then 1 else 0))
  let oldConf := (oldSequenceConfidence.getD (binaryReward.map (fun _ => 0))).map
    (clamp 0 (1 - confidenceClipEps))
  let centeredReward :=
    match index with
    | none => binaryReward.map (fun r => r - mean binaryReward)
    | some index =>
        let id2reward := Dict.group (index.zip binaryReward)
        (index.zip binaryReward).map (fun ir => ir.2 - mean (id2reward.getD ir.1 []))
  let scalarAdvantages :=
    List.zipWith (fun r c => r / max (1 - c) denominatorEps) centeredReward oldConf
  List.zipWith spread scalarAdvantages responseMask

/-! ## One sequence -/

def groupValues (index : List Uid) (values : List ℚ) (g : Uid) : List ℚ :=
  Dict.valuesAt (index.zip values) g

theorem getElem?_grpoAdvantage (fns : Elementary) {tokenLevelRewards : List (Fin L → ℚ)}
    {responseMask : List (Fin L → ℕ)} {index : List Uid} (epsilon : ℚ) (norm : Bool) {i : ℕ}
    {row : Fin L → ℚ} {mask : Fin L → ℕ} {g : Uid} (hrow : tokenLevelRewards[i]? = some row)
    (hmask : responseMask[i]? = some mask) (hg : index[i]? = some g) :
    (computeGrpoOutcomeAdvantage fns tokenLevelRewards responseMask index epsilon norm)[i]? =
      some (spread (grpoScore fns epsilon norm
        (groupValues index (tokenLevelRewards.map Row.sum) g) (Row.sum row)) mask) := by
  have hzip : (index.zip (tokenLevelRewards.map Row.sum))[i]? = some (g, Row.sum row) :=
    List.getElem?_zip_eq_some.mpr ⟨hg, by simp [hrow]⟩
  simp only [computeGrpoOutcomeAdvantage, List.getElem?_zipWith, List.getElem?_map, hzip, hmask,
    Dict.getD_group, groupValues, Option.map_some]

theorem getElem?_c2gspgAdvantage {tokenLevelRewards : List (Fin L → ℚ)}
    {responseMask : List (Fin L → ℕ)} {index : List Uid} {confidence labels : List ℚ}
    (clipEps denomEps : ℚ) {i : ℕ} {mask : Fin L → ℕ} {g : Uid} {c r : ℚ}
    (hmask : responseMask[i]? = some mask) (hg : index[i]? = some g)
    (hc : confidence[i]? = some c) (hr : labels[i]? = some r) :
    (computeC2gspgOutcomeAdvantage tokenLevelRewards responseMask (some index)
      (some confidence) (some labels) clipEps denomEps)[i]? =
      some (spread ((r - mean (groupValues index labels g)) /
        max (1 - clamp 0 (1 - clipEps) c) denomEps) mask) := by
  have hzip : (index.zip labels)[i]? = some (g, r) := List.getElem?_zip_eq_some.mpr ⟨hg, hr⟩
  simp only [computeC2gspgOutcomeAdvantage, Option.getD_some, List.getElem?_zipWith,
    List.getElem?_map, hzip, hc, hmask, Dict.getD_group, groupValues, Option.map_some]

/-! ## Constant groups -/

theorem grpoScore_zero (fns : Elementary) (epsilon : ℚ) (norm : Bool) {group : List ℚ}
    (hne : group ≠ []) (h : ∀ x ∈ group, x = 0) : grpoScore fns epsilon norm group 0 = 0 := by
  have hmean : groupMean group = 0 := by
    unfold groupMean
    split_ifs
    · rfl
    · exact mean_of_forall_eq hne h
  unfold grpoScore
  rw [hmean]
  split_ifs <;> simp

theorem centered_eq_zero {group : List ℚ} {r : ℚ} (hne : group ≠ []) (h : ∀ x ∈ group, x = r) :
    r - mean group = 0 := by
  rw [mean_of_forall_eq hne h, sub_self]

end RLCM.PPO
