/-
# `RLCM.ForcedOutput.Placement` — two rewards on one token

The reward of the answers is placed by `create_token_level_reward_tensor`, at
the last non-zero position of the response mask, and dropped for an empty mask.
The probe reward is placed by `fit`, at the sum of the mask minus one, clamped
into the row.  On a mask that is a run of ones the two positions coincide; on
an empty mask the clamp puts the probe reward on the first padding token.

`placementsAgree_iff` says when the tensor carries both rewards together.
-/
import RLCM.ForcedOutput.Fit

namespace RLCM.ForcedOutput

open Py

variable {L : ℕ}

/-- The rewards of a batch, and masks that are ones followed by zeros. -/
structure PlacementInput (L : ℕ) where
  aggregatedRewards : List ℚ
  probeRewardScalars : List ℚ
  probeRewardWeight : ℚ
  responseMask : List (Fin L → ℕ)
  length_aggregatedRewards : aggregatedRewards.length = responseMask.length
  length_probeRewardScalars : probeRewardScalars.length = responseMask.length
  isPrefix : ∀ mask ∈ responseMask, ∃ n, Row.IsPrefix mask n

/-- The tensor of `fit` after the probe contribution. -/
def tokenLevelReward (input : PlacementInput L) : Except Error (List (Fin L → ℚ)) := do
  let rewardTensor ← createTokenLevelRewardTensor input.aggregatedRewards
    (some input.responseMask)
  addProbeReward rewardTensor input.probeRewardScalars input.probeRewardWeight
    (some input.responseMask)

/-- The row that is `x` at the last valid token and zero elsewhere; zero
everywhere without a valid token. -/
def atLastToken (mask : Fin L → ℕ) (x : ℚ) : Fin L → ℚ :=
  fun t => if t.val + 1 = Row.sum mask then x else 0

/-- Both rewards of every sample are at its last valid token, or dropped
together. -/
def PlacementsAgree (input : PlacementInput L) : Prop :=
  ∀ tensor, tokenLevelReward input = .ok tensor →
    ∀ (i : ℕ) mask aggregated probe, input.responseMask[i]? = some mask →
      input.aggregatedRewards[i]? = some aggregated →
      input.probeRewardScalars[i]? = some probe →
        tensor[i]? = some (atLastToken mask (aggregated + input.probeRewardWeight * probe))

/-! ## One row -/

theorem atLastToken_eq_single {mask : Fin L → ℕ} {n : ℕ} (h : Row.IsPrefix mask n)
    (hn : 0 < n) (hL : n - 1 < L) (x : ℚ) : atLastToken mask x = Row.single ⟨n - 1, hL⟩ x := by
  funext t
  unfold atLastToken
  rw [Row.sum_of_isPrefix h]
  by_cases ht : t = ⟨n - 1, hL⟩
  · subst ht
    rw [Row.single_self, if_pos (by simp only; omega)]
  · have hne : ¬ t.val + 1 = n := by
      intro heq
      exact ht (Fin.ext (by simp only; omega))
    rw [Row.single_of_ne ht, if_neg hne]

theorem atLastToken_of_empty {mask : Fin L → ℕ} (h : Row.sum mask = 0) (x : ℚ) :
    atLastToken mask x = 0 := by
  funext t
  simp [atLastToken, h]

theorem answerRow_eq {mask : Fin L → ℕ} {n : ℕ} (h : Row.IsPrefix mask n) (x : ℚ) :
    (Row.nonzero mask).getLast?.elim 0 (fun lastPos => Row.single lastPos x) =
      atLastToken mask x := by
  rcases Nat.eq_zero_or_pos n with rfl | hn
  · have hsum : Row.sum mask = 0 := Row.sum_of_isPrefix h
    have hnil : Row.nonzero mask = [] := by
      rw [Row.nonzero_eq_nil]
      intro t
      rw [h.2]
      simp
    rw [hnil, atLastToken_of_empty hsum]
    rfl
  · have hL : n - 1 < L := by
      have := h.1
      omega
    rw [Row.getLast?_nonzero_of_isPrefix h hn hL, atLastToken_eq_single h hn hL]
    rfl

theorem contributionRow_of_pos {mask : Fin L → ℕ} {n : ℕ} (h : Row.IsPrefix mask n)
    (hn : 0 < n) (x : ℚ) : contributionRow (some mask) x = .ok (atLastToken mask x) := by
  have hle := h.1
  have hL : n - 1 < L := by omega
  have hpos : placePos (some mask) = ((n - 1 : ℕ) : ℤ) := by
    simp only [placePos, Row.sum_of_isPrefix h]
    omega
  rw [contributionRow, dif_pos (by rw [hpos]; simpa using hL), atLastToken_eq_single h hn hL]
  simp only [hpos, Int.toNat_natCast]

theorem contributionRow_of_empty {mask : Fin L → ℕ} (h : Row.sum mask = 0) (hL : 0 < L) (x : ℚ) :
    contributionRow (some mask) x = .ok (Row.single ⟨0, hL⟩ x) := by
  have hpos : placePos (some mask) = 0 := by
    simp only [placePos, h]
    omega
  rw [contributionRow, dif_pos (by rw [hpos]; simpa using hL)]
  simp only [hpos, Int.toNat_zero]

theorem atLastToken_add (mask : Fin L → ℕ) (x y : ℚ) :
    atLastToken mask x + atLastToken mask y = atLastToken mask (x + y) := by
  funext t
  simp only [atLastToken, Pi.add_apply]
  split_ifs <;> simp

/-- A row takes both rewards at its last valid token unless it has none and the
probe reward counts. -/
theorem placedRow_eq_iff {mask : Fin L → ℕ} (hones : ∃ n, Row.IsPrefix mask n) (hL : 0 < L)
    {aggregated x : ℚ} {row : Fin L → ℚ} (hrow : contributionRow (some mask) x = .ok row) :
    atLastToken mask aggregated + row = atLastToken mask (aggregated + x) ↔
      (Row.sum mask = 0 → x = 0) := by
  obtain ⟨n, hn⟩ := hones
  rcases Nat.eq_zero_or_pos n with rfl | hpos
  · have hempty : Row.sum mask = 0 := Row.sum_of_isPrefix hn
    rw [contributionRow_of_empty hempty hL] at hrow
    obtain rfl := Except.ok.inj hrow
    rw [atLastToken_of_empty hempty, atLastToken_of_empty hempty, zero_add]
    constructor
    · intro hsame _
      have hzero := congrFun hsame ⟨0, hL⟩
      rwa [Row.single_self, Pi.zero_apply] at hzero
    · intro hzero
      rw [hzero hempty, Row.single_zero]
  · have hne : Row.sum mask ≠ 0 := by
      rw [Row.sum_of_isPrefix hn]
      exact hpos.ne'
    rw [contributionRow_of_pos hn hpos] at hrow
    obtain rfl := Except.ok.inj hrow
    exact iff_of_true (atLastToken_add mask aggregated x) (fun hempty => absurd hempty hne)

/-! ## The tensor -/

/-- Row `i` of the tensor is the sum of the two placed rows of sample `i`. -/
theorem getElem?_tokenLevelReward {input : PlacementInput L} {tensor : List (Fin L → ℚ)}
    (h : tokenLevelReward input = .ok tensor) {i : ℕ} {mask : Fin L → ℕ} {aggregated probe : ℚ}
    (hmask : input.responseMask[i]? = some mask)
    (hagg : input.aggregatedRewards[i]? = some aggregated)
    (hprobe : input.probeRewardScalars[i]? = some probe) :
    ∃ row, contributionRow (some mask) (probe * input.probeRewardWeight) = .ok row ∧
      tensor[i]? = some (atLastToken mask aggregated + row) := by
  unfold tokenLevelReward at h
  have hlen := input.length_aggregatedRewards
  rw [createTokenLevelRewardTensor_eq (by omega), ok_bind, addProbeReward] at h
  obtain ⟨contribution, hcontribution, h⟩ := bind_eq_ok.mp h
  obtain rfl := Except.ok.inj h
  have hi : i < input.responseMask.length := (List.getElem?_eq_some_iff.mp hmask).1
  have hrange : (List.range (List.zipWith (fun reward row =>
      (Row.nonzero row).getLast?.elim 0 (fun lastPos => Row.single lastPos reward))
      input.aggregatedRewards input.responseMask).length)[i]? = some i := by
    rw [List.getElem?_range]
    simpa using ⟨by omega, hi⟩
  obtain ⟨row, hrow, hbody⟩ := getElem?_of_mapM hcontribution hrange
  simp only [getItem_eq_ok.mpr hprobe, getItem_eq_ok.mpr hmask, Option.elim_some, ok_bind,
    pure_eq_ok] at hbody
  obtain ⟨n, hn⟩ := input.isPrefix mask (List.mem_of_getElem? hmask)
  refine ⟨row, hbody, ?_⟩
  simp only [List.getElem?_zipWith, hagg, hmask, hrow, answerRow_eq hn]

theorem tokenLevelReward_returns (input : PlacementInput L) (hL : 0 < L) :
    ∃ tensor, tokenLevelReward input = .ok tensor := by
  unfold tokenLevelReward
  have hlen := input.length_aggregatedRewards
  rw [createTokenLevelRewardTensor_eq (by omega), ok_bind, addProbeReward]
  obtain ⟨contribution, hcontribution⟩ : ∃ contribution, probeRewardContribution
      (List.zipWith (fun reward row =>
        (Row.nonzero row).getLast?.elim 0 (fun lastPos => Row.single lastPos reward))
        input.aggregatedRewards input.responseMask).length
      input.probeRewardScalars input.probeRewardWeight (some input.responseMask) =
        .ok contribution := by
    refine mapM_returns (fun i hi => ?_)
    have hmask : i < input.responseMask.length := by
      simp only [List.length_zipWith, List.mem_range] at hi
      omega
    have hprobe : i < input.probeRewardScalars.length := by
      rw [input.length_probeRewardScalars]
      exact hmask
    simp only [getItem_of_lt hprobe, getItem_of_lt hmask, Option.elim_some, ok_bind, pure_eq_ok]
    obtain ⟨n, hn⟩ := input.isPrefix _ (List.getElem_mem hmask)
    rcases Nat.eq_zero_or_pos n with rfl | hpos
    · exact ⟨_, contributionRow_of_empty (Row.sum_of_isPrefix hn) hL _⟩
    · exact ⟨_, contributionRow_of_pos hn hpos _⟩
  exact ⟨_, by rw [hcontribution]; rfl⟩

/-- The two placements agree exactly when no row without a valid token has a
weighted probe reward. -/
theorem placementsAgree_iff (input : PlacementInput L) :
    PlacementsAgree input ↔
      (L = 0 ∨ ∀ (i : ℕ) mask probe, input.responseMask[i]? = some mask →
        input.probeRewardScalars[i]? = some probe → Row.sum mask = 0 →
          input.probeRewardWeight * probe = 0) := by
  rcases Nat.eq_zero_or_pos L with rfl | hL
  · refine iff_of_true ?_ (Or.inl rfl)
    intro tensor htensor i mask aggregated probe hmask hagg hprobe
    obtain ⟨row, -, hrow⟩ := getElem?_tokenLevelReward htensor hmask hagg hprobe
    rw [hrow]
    exact congrArg some (funext (fun t => t.elim0))
  rw [or_iff_right (by omega)]
  constructor
  · intro hagree i mask probe hmask hprobe hempty
    obtain ⟨tensor, htensor⟩ := tokenLevelReward_returns input hL
    have hi : i < input.aggregatedRewards.length := by
      rw [input.length_aggregatedRewards]
      exact (List.getElem?_eq_some_iff.mp hmask).1
    have hagg := List.getElem?_eq_getElem hi
    obtain ⟨row, hcontribution, hrow⟩ := getElem?_tokenLevelReward htensor hmask hagg hprobe
    have hsame := hagree tensor htensor i mask _ probe hmask hagg hprobe
    rw [mul_comm] at hcontribution
    rw [hrow, Option.some.injEq] at hsame
    exact (placedRow_eq_iff (input.isPrefix mask (List.mem_of_getElem? hmask)) hL
      hcontribution).mp hsame hempty
  · intro hcond tensor htensor i mask aggregated probe hmask hagg hprobe
    obtain ⟨row, hcontribution, hrow⟩ := getElem?_tokenLevelReward htensor hmask hagg hprobe
    rw [mul_comm] at hcontribution
    rw [hrow]
    refine congrArg some ((placedRow_eq_iff (input.isPrefix mask (List.mem_of_getElem? hmask)) hL
      hcontribution).mpr ?_)
    exact hcond i mask probe hmask hprobe

/-- One sample without a valid token, with answer and probe reward `1`. -/
def emptyMaskInput : PlacementInput 2 where
  aggregatedRewards := [1]
  probeRewardScalars := [1]
  probeRewardWeight := 1 / 10
  responseMask := [0]
  length_aggregatedRewards := rfl
  length_probeRewardScalars := rfl
  isPrefix := by
    intro mask h
    obtain rfl := List.mem_singleton.mp h
    exact ⟨0, by simp [Row.IsPrefix]⟩

/-- Its probe reward is kept on the first padding token, its answer reward is
dropped. -/
theorem emptyMask_keeps_probe_reward : ¬ PlacementsAgree emptyMaskInput := by
  intro hagree
  obtain ⟨tensor, htensor⟩ := tokenLevelReward_returns emptyMaskInput (by decide)
  obtain ⟨row, hcontribution, hrow⟩ := getElem?_tokenLevelReward (i := 0) htensor rfl rfl rfl
  rw [contributionRow_of_empty (by decide) (by decide)] at hcontribution
  obtain rfl := Except.ok.inj hcontribution
  have hsame := hagree tensor htensor 0 _ _ _ rfl rfl rfl
  rw [hrow, Option.some.injEq] at hsame
  exact absurd (congrFun hsame 0) (by decide +kernel)

end RLCM.ForcedOutput
