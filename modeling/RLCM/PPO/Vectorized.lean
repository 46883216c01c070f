/-
# `RLCM.PPO.Vectorized` — the vectorized estimators and the plain ones

GRPO and RLOO each come twice: with a dictionary of groups, filled sequence by
sequence, and vectorized, with numbered groups and sums taken by index.  The two
versions treat the corners differently, and nothing else:

  * plain RLOO leaves the score of a lone response as it is, vectorized RLOO
    makes it zero (`rlooVectorized_eq_iff`);
  * vectorized GRPO does not let the variance of a group fall below `epsilon`,
    plain GRPO takes it as it is (`grpoVectorized_eq_iff`).
-/
import RLCM.Lib.Buckets
import RLCM.PPO.CoreAlgos
import RLCM.Py.Error

namespace RLCM.PPO

open Py Stats Buckets Grouping

variable {Uid : Type} [LinearOrder Uid] {L : ℕ}

/-! ## RLOO -/

def rlooScore (group : List ℚ) (score : ℚ) : ℚ :=
  let responseNum : ℚ := group.length
  if 1 < group.length then
    score * responseNum / (responseNum - 1) - groupMean group * responseNum / (responseNum - 1)
  else score

def computeRlooOutcomeAdvantage (tokenLevelRewards : List (Fin L → ℚ))
    (responseMask : List (Fin L → ℕ)) (index : List Uid) : List (Fin L → ℚ) :=
  let scores := tokenLevelRewards.map Row.sum
  let id2score := Dict.group (index.zip scores)
  let scores := (index.zip scores).map (fun is => rlooScore (id2score.getD is.1 []) is.2)
  List.zipWith spread scores responseMask

/-- `compute_rloo_vectorized_outcome_advantage`; `inv` indexes both counts. -/
def computeRlooVectorizedOutcomeAdvantage (tokenLevelRewards : List (Fin L → ℚ))
    (responseMask : List (Fin L → ℕ)) (index : List Uid) : List (Fin L → ℚ) :=
  let scores := tokenLevelRewards.map Row.sum
  let inv := uniqueInverse index
  let adv := (inv.zip scores).map (fun js =>
    let c := (bincount inv (inv.map (fun _ => (1 : ℚ)))).getD js.1 0
    (c * js.2 - (bincount inv scores).getD js.1 0) / max (c - 1) 1 * if 1 < c then 1 else 0)
  List.zipWith spread adv responseMask

/-! ## GRPO -/

/-- `group_mean_std`, over groups that are numbered from zero. -/
def groupMeanStd (fns : Elementary) (scores : List ℚ) (gidx : List ℕ) (eps : ℚ) :
    Except Error (List ℚ × List ℚ × List ℚ) :=
  if scores.length ≠ gidx.length then
    .error (.valueError ("scores and gidx length mismatch: " ++ toString scores.length ++ " vs " ++
      toString gidx.length))
  else
    let count := bincount gidx (scores.map (fun _ => (1 : ℚ)))
    let s1 := bincount gidx scores
    let s2 := bincount gidx (scores.map (fun s => s * s))
    let mean := fun j =>
      if count.getD j 0 ≤ 1 then 0 else s1.getD j 0 / max (count.getD j 0) 1
    let std := fun j =>
      let varNum := s2.getD j 0 - s1.getD j 0 * s1.getD j 0 / max (count.getD j 0) 1
      let var := varNum / max (count.getD j 0 - 1) 1
      if count.getD j 0 ≤ 1 then 1 else fns.sqrt (max var eps)
    .ok ((List.range count.length).map mean, (List.range count.length).map std, count)

/-- `compute_grpo_vectorized_outcome_advantage`, for labels that
`as_torch_index` numbers by their rank. -/
def computeGrpoVectorizedOutcomeAdvantage (fns : Elementary)
    (tokenLevelRewards : List (Fin L → ℚ)) (responseMask : List (Fin L → ℕ)) (index : List Uid)
    (epsilon : ℚ) (normAdvByStdInGrpo : Bool) : Except Error (List (Fin L → ℚ)) := do
  let scores := tokenLevelRewards.map Row.sum
  let g := uniqueInverse index
  let (meanG, stdG, _) ← groupMeanStd fns scores g epsilon
  let scalars := (g.zip scores).map (fun js =>
    if normAdvByStdInGrpo then (js.2 - meanG.getD js.1 0) / (stdG.getD js.1 0 + epsilon)
    else js.2 - meanG.getD js.1 0)
  .ok (List.zipWith spread scalars responseMask)

/-! ## Groups by number -/

theorem spread_eq_iff {a b : ℚ} {mask : Fin L → ℕ} :
    spread a mask = spread b mask ↔ a = b ∨ ∀ t, mask t = 0 := by
  constructor
  · intro h
    by_contra hne
    push Not at hne
    obtain ⟨hab, t, ht⟩ := hne
    have hat := congrFun h t
    rw [spread, spread] at hat
    exact hab (mul_right_cancel₀ (Nat.cast_ne_zero.mpr ht) hat)
  · rintro (rfl | hzero)
    · rfl
    · funext t
      simp [spread, hzero t]

/-- Two ways to score the sequences of a batch give the same advantages exactly
when they give the same score to every sequence that has a token. -/
theorem zipWith_spread_eq_iff {α : Type} {f f' : α → ℚ} {samples : List α}
    {masks : List (Fin L → ℕ)} :
    List.zipWith spread (samples.map f) masks = List.zipWith spread (samples.map f') masks ↔
      ∀ sm ∈ samples.zip masks, f sm.1 = f' sm.1 ∨ ∀ t, sm.2 t = 0 := by
  have hzip : ∀ h : α → ℚ, List.zipWith spread (samples.map h) masks =
      (samples.zip masks).map (fun sm => spread (h sm.1) sm.2) := by
    intro h
    rw [List.zipWith_map_left]
    exact (List.map_zip_eq_zipWith
      (f := fun sm : α × (Fin L → ℕ) => spread (h sm.1) sm.2)).symm
  rw [hzip, hzip, List.map_inj_left]
  exact forall₂_congr (fun sm _ => spread_eq_iff)

variable {index : List Uid} {scores : List ℚ}

theorem groupSum_zip (values : List ℚ) (g : Uid) :
    groupSum Prod.fst Prod.snd (index.zip values) g = (groupValues index values g).sum := rfl

theorem getD_groupSum {g : Uid} (hg : g ∈ index) (f : ℚ → ℚ) :
    (bincount (uniqueInverse index) (scores.map f)).getD (rank index g) 0 =
      ((groupValues index scores g).map f).sum := by
  rw [getD_bincount_rank hg, groupSum_zip, groupValues, Dict.valuesAt_zip_map]
  rfl

theorem getD_groupTotal {g : Uid} (hg : g ∈ index) :
    (bincount (uniqueInverse index) scores).getD (rank index g) 0 =
      (groupValues index scores g).sum := by
  rw [getD_bincount_rank hg, groupSum_zip]

theorem getD_groupCount {g : Uid} (hg : g ∈ index) :
    (bincount (uniqueInverse index) (scores.map (fun _ => (1 : ℚ)))).getD (rank index g) 0 =
      (groupValues index scores g).length := by
  rw [getD_groupSum hg, List.map_const', List.sum_replicate, nsmul_eq_mul, mul_one]

theorem mem_groupValues {g : Uid} {score : ℚ} (h : (g, score) ∈ index.zip scores) :
    score ∈ groupValues index scores g :=
  List.mem_map.mpr ⟨(g, score), List.mem_filter.mpr ⟨h, decide_eq_true rfl⟩, rfl⟩

/-- The scalars of a vectorized estimator, sequence by sequence. -/
theorem zip_uniqueInverse : (uniqueInverse index).zip scores =
    (index.zip scores).map (Prod.map (rank index) id) := by
  rw [uniqueInverse, List.zip_map_left]

/-! ## RLOO agrees but for lone responses -/

def rlooVectorizedScore (group : List ℚ) (score : ℚ) : ℚ :=
  (group.length * score - group.sum) / max ((group.length : ℚ) - 1) 1 *
    if (1 : ℚ) < group.length then 1 else 0

theorem computeRlooVectorized_eq {tokenLevelRewards : List (Fin L → ℚ)}
    (responseMask : List (Fin L → ℕ)) (hlen : tokenLevelRewards.length = index.length) :
    computeRlooVectorizedOutcomeAdvantage tokenLevelRewards responseMask index =
      List.zipWith spread ((index.zip (tokenLevelRewards.map Row.sum)).map (fun is =>
        rlooVectorizedScore (groupValues index (tokenLevelRewards.map Row.sum) is.1) is.2))
        responseMask := by
  have hones : (uniqueInverse index).map (fun _ => (1 : ℚ)) =
      (tokenLevelRewards.map Row.sum).map (fun _ => (1 : ℚ)) := by
    rw [List.map_const', List.map_const', uniqueInverse, List.length_map, List.length_map, hlen]
  rw [computeRlooVectorizedOutcomeAdvantage, zip_uniqueInverse, List.map_map, hones]
  refine congrArg (fun scores => List.zipWith spread scores responseMask)
    (List.map_congr_left (fun is his => ?_))
  have hg : is.1 ∈ index := (List.of_mem_zip his).1
  simp only [Function.comp_apply, Prod.map_fst, Prod.map_snd, id_eq, getD_groupCount hg,
    getD_groupTotal hg, rlooVectorizedScore]

/-- From two responses on, both versions take off the mean of the others. -/
theorem rlooScore_of_many {group : List ℚ} (h : 1 < group.length) {score : ℚ}
    (hmem : score ∈ group) :
    rlooScore group score = score - mean (group.erase score) ∧
      rlooVectorizedScore group score = rlooScore group score := by
  have hcast : (1 : ℚ) < group.length := by exact_mod_cast h
  have hpos : (0 : ℚ) < (group.length : ℚ) - 1 := sub_pos.mpr hcast
  have hplain : rlooScore group score =
      (group.length * score - group.sum) / (group.length - 1) := by
    rw [rlooScore, if_pos h, groupMean, if_neg h.ne', ← sub_div, mul_comm score,
      mul_comm (mean group), length_mul_mean]
  refine ⟨?_, ?_⟩
  · have herase : (((group.erase score).length : ℕ) : ℚ) = group.length - 1 := by
      rw [List.length_erase_of_mem hmem, Nat.cast_pred (Nat.zero_lt_of_lt h)]
    have hsum : score + (group.erase score).sum = group.sum := List.sum_erase hmem
    rw [hplain, mean, herase, ← hsum, eq_sub_iff_add_eq, ← add_div, div_eq_iff hpos.ne']
    ring
  · have hone : max ((group.length : ℚ) - 1) 1 = group.length - 1 := by
      refine max_eq_left ?_
      have htwo : ((1 + 1 : ℕ) : ℚ) ≤ group.length := Nat.cast_le.mpr h
      push_cast at htwo
      linarith
    rw [hplain, rlooVectorizedScore, hone, if_pos hcast, mul_one]

theorem rlooScore_of_lone {group : List ℚ} (h : group.length = 1) (score : ℚ) :
    rlooScore group score = score ∧ rlooVectorizedScore group score = 0 := by
  simp [rlooScore, rlooVectorizedScore, h]

theorem computeRloo_eq (tokenLevelRewards : List (Fin L → ℚ))
    (responseMask : List (Fin L → ℕ)) :
    computeRlooOutcomeAdvantage tokenLevelRewards responseMask index =
      List.zipWith spread ((index.zip (tokenLevelRewards.map Row.sum)).map (fun is =>
        rlooScore (groupValues index (tokenLevelRewards.map Row.sum) is.1) is.2))
        responseMask := by
  simp only [computeRlooOutcomeAdvantage, Dict.getD_group]
  rfl

/-- A response of a larger group gets its score less the mean of the others.  The
versions agree on a batch exactly when every lone response scores zero or has no
token. -/
theorem rlooVectorized_eq_iff {tokenLevelRewards : List (Fin L → ℚ)}
    (responseMask : List (Fin L → ℕ)) (hlen : tokenLevelRewards.length = index.length) :
    (∀ (i : ℕ) g score mask, index[i]? = some g → (tokenLevelRewards.map Row.sum)[i]? = some score →
        responseMask[i]? = some mask →
        1 < (groupValues index (tokenLevelRewards.map Row.sum) g).length →
        (computeRlooOutcomeAdvantage tokenLevelRewards responseMask index)[i]? =
          some (spread (score - mean ((groupValues index (tokenLevelRewards.map Row.sum) g).erase
            score)) mask)) ∧
      (computeRlooVectorizedOutcomeAdvantage tokenLevelRewards responseMask index =
          computeRlooOutcomeAdvantage tokenLevelRewards responseMask index ↔
        ∀ sm ∈ (index.zip (tokenLevelRewards.map Row.sum)).zip responseMask,
          (groupValues index (tokenLevelRewards.map Row.sum) sm.1.1).length = 1 →
            sm.1.2 = 0 ∨ ∀ t, sm.2 t = 0) := by
  rw [computeRlooVectorized_eq responseMask hlen, computeRloo_eq, zipWith_spread_eq_iff]
  refine ⟨?_, forall₂_congr (fun sm hsm => ?_)⟩
  · intro i g score mask hg hscore hmask hmany
    have hzip : (index.zip (tokenLevelRewards.map Row.sum))[i]? = some (g, score) :=
      List.getElem?_zip_eq_some.mpr ⟨hg, hscore⟩
    have hmem := mem_groupValues (List.mem_of_getElem? hzip)
    rw [List.getElem?_zipWith, List.getElem?_map, hzip, hmask, Option.map_some,
      (rlooScore_of_many hmany hmem).1]
  have hmem := mem_groupValues (List.of_mem_zip hsm).1
  rcases Nat.lt_or_ge 1 (groupValues index (tokenLevelRewards.map Row.sum) sm.1.1).length
    with hmany | hone
  · refine iff_of_true (Or.inl (rlooScore_of_many hmany hmem).2) (fun hlone => ?_)
    omega
  · have hlone : (groupValues index (tokenLevelRewards.map Row.sum) sm.1.1).length = 1 :=
      le_antisymm hone (List.length_pos_of_mem hmem)
    obtain ⟨hkeeps, hloses⟩ := rlooScore_of_lone hlone sm.1.2
    rw [hkeeps, hloses, eq_comm]
    exact ⟨fun h _ => h, fun h => h hlone⟩

/-- A prompt with two responses, and one with one that scores. -/
theorem rlooVectorized_eq_iff_threeResponses :
    ([(fun _ => 1), (fun _ => 0), (fun _ => 1)] : List (Fin 1 → ℚ)).length = [7, 7, 5].length ∧
      computeRlooVectorizedOutcomeAdvantage ([(fun _ => 1), (fun _ => 0), (fun _ => 1)] :
          List (Fin 1 → ℚ)) [fun _ => 1, fun _ => 1, fun _ => 1] [7, 7, 5] ≠
        computeRlooOutcomeAdvantage ([(fun _ => 1), (fun _ => 0), (fun _ => 1)] :
          List (Fin 1 → ℚ)) [fun _ => 1, fun _ => 1, fun _ => 1] [7, 7, 5] := by
  refine ⟨rfl, fun h => ?_⟩
  have hlone := (@rlooVectorized_eq_iff ℕ _ 1 [7, 7, 5] [(fun _ => 1), (fun _ => 0), (fun _ => 1)]
    [fun _ => 1, fun _ => 1, fun _ => 1] rfl).2.mp h ((5, 1), fun _ => 1) (by decide +kernel)
    (by decide +kernel)
  rcases hlone with hzero | hempty
  · exact absurd hzero (by norm_num)
  · exact absurd (hempty 0) (by decide)

/-! ## GRPO agrees but for small variances -/

/-- `mean_g` of a group with these scores. -/
def vectorizedMean (group : List ℚ) : ℚ :=
  if (group.length : ℚ) ≤ 1 then 0 else group.sum / max (group.length : ℚ) 1

/-- `std_g` of a group with these scores. -/
def vectorizedStd (fns : Elementary) (eps : ℚ) (group : List ℚ) : ℚ :=
  let varNum := (group.map (fun s => s * s)).sum -
    group.sum * group.sum / max (group.length : ℚ) 1
  if (group.length : ℚ) ≤ 1 then 1
  else fns.sqrt (max (varNum / max ((group.length : ℚ) - 1) 1) eps)

def grpoVectorizedScore (fns : Elementary) (epsilon : ℚ) (normAdvByStdInGrpo : Bool)
    (group : List ℚ) (score : ℚ) : ℚ :=
  if normAdvByStdInGrpo then
    (score - vectorizedMean group) / (vectorizedStd fns epsilon group + epsilon)
  else score - vectorizedMean group

theorem getD_map_range (f : ℕ → ℚ) {n j : ℕ} (h : j < n) :
    ((List.range n).map f).getD j 0 = f j := by
  rw [List.getD_eq_getElem?_getD, List.getElem?_map, List.getElem?_range h]
  rfl

theorem groupMeanStd_ok (fns : Elementary) (hlen : scores.length = index.length) (eps : ℚ) :
    ∃ meanG stdG count, groupMeanStd fns scores (uniqueInverse index) eps =
        .ok (meanG, stdG, count) ∧
      ∀ g ∈ index, meanG.getD (rank index g) 0 = vectorizedMean (groupValues index scores g) ∧
        stdG.getD (rank index g) 0 = vectorizedStd fns eps (groupValues index scores g) := by
  have hsame : scores.length = (uniqueInverse index).length := by
    rw [uniqueInverse, List.length_map, hlen]
  refine ⟨_, _, _, by rw [groupMeanStd, if_neg (not_not.mpr hsame)], fun g hg => ?_⟩
  have hmem : rank index g ∈ uniqueInverse index := List.mem_map_of_mem hg
  have hlt := lt_length_bincount hmem (scores.map (fun _ => (1 : ℚ)))
  rw [getD_map_range _ hlt, getD_map_range _ hlt, getD_groupCount hg, getD_groupTotal hg,
    getD_groupSum hg (fun s => s * s)]
  exact ⟨rfl, rfl⟩

theorem computeGrpoVectorized_eq (fns : Elementary) {tokenLevelRewards : List (Fin L → ℚ)}
    (responseMask : List (Fin L → ℕ)) (hlen : tokenLevelRewards.length = index.length)
    (epsilon : ℚ) (norm : Bool) :
    computeGrpoVectorizedOutcomeAdvantage fns tokenLevelRewards responseMask index epsilon norm =
      .ok (List.zipWith spread ((index.zip (tokenLevelRewards.map Row.sum)).map (fun is =>
        grpoVectorizedScore fns epsilon norm
          (groupValues index (tokenLevelRewards.map Row.sum) is.1) is.2)) responseMask) := by
  have hscores : (tokenLevelRewards.map Row.sum).length = index.length := by
    rw [List.length_map, hlen]
  obtain ⟨meanG, stdG, count, hstats, hgroup⟩ := groupMeanStd_ok fns hscores epsilon
  simp only [computeGrpoVectorizedOutcomeAdvantage, hstats, ok_bind, zip_uniqueInverse,
    List.map_map]
  refine congrArg (fun scores => Except.ok (List.zipWith spread scores responseMask))
    (List.map_congr_left (fun is his => ?_))
  obtain ⟨hmean, hstd⟩ := hgroup is.1 (List.of_mem_zip his).1
  simp only [Function.comp_apply, Prod.map_fst, Prod.map_snd, id_eq, hmean, hstd,
    grpoVectorizedScore]

theorem squaredDeviations_eq (xs : List ℚ) :
    squaredDeviations xs = (xs.map (fun x => x * x)).sum - xs.sum * xs.sum / xs.length := by
  have hexpand : ∀ c : ℚ, (xs.map (fun x => (x - c) ^ 2)).sum =
      (xs.map (fun x => x * x)).sum - 2 * c * xs.sum + xs.length * c ^ 2 := by
    intro c
    induction xs with
    | nil => simp
    | cons x xs ih =>
        rw [List.map_cons, List.sum_cons, ih, List.map_cons, List.sum_cons, List.sum_cons,
          List.length_cons]
        push_cast
        ring
  rw [squaredDeviations, hexpand]
  rcases eq_or_ne xs [] with rfl | hne
  · simp
  · have hlen : (xs.length : ℚ) ≠ 0 := by simpa using hne
    rw [mean]
    field_simp
    ring

theorem vectorizedMean_eq (group : List ℚ) (hne : group ≠ []) :
    vectorizedMean group = groupMean group := by
  have hpos : 0 < group.length := List.length_pos_iff.mpr hne
  have hone : (1 : ℚ) ≤ group.length := by exact_mod_cast hpos
  by_cases h : group.length = 1
  · simp [vectorizedMean, groupMean, h]
  · have hmany : ¬ (group.length : ℚ) ≤ 1 := by
      rw [not_le]
      exact_mod_cast (by omega : 1 < group.length)
    rw [vectorizedMean, if_neg hmany, groupMean, if_neg h, max_eq_left hone, mean]

def sampleVariance (group : List ℚ) : ℚ := squaredDeviations group / (group.length - 1)

/-- The standard deviation is that of the group, except for the floor. -/
theorem vectorizedStd_eq (fns : Elementary) (eps : ℚ) {group : List ℚ}
    (h : 1 < group.length) :
    vectorizedStd fns eps group = fns.sqrt (max (sampleVariance group) eps) ∧
      groupStd fns group = fns.sqrt (sampleVariance group) := by
  have hcast : (1 : ℚ) < group.length := by exact_mod_cast h
  have hpred : (1 : ℚ) ≤ (group.length : ℚ) - 1 := by
    have htwo : ((1 + 1 : ℕ) : ℚ) ≤ group.length := Nat.cast_le.mpr h
    push_cast at htwo
    linarith
  refine ⟨?_, ?_⟩
  · rw [vectorizedStd, if_neg (not_le.mpr hcast), max_eq_left hcast.le, max_eq_left hpred,
      ← squaredDeviations_eq, sampleVariance]
  · rw [groupStd, if_neg h.ne', sampleStd, sampleVariance]

theorem squaredDeviations_nonneg (xs : List ℚ) : 0 ≤ squaredDeviations xs := by
  refine List.sum_nonneg (fun y hy => ?_)
  obtain ⟨x, -, rfl⟩ := List.mem_map.mp hy
  exact sq_nonneg _

section Compare

variable {fns : Elementary} (hnonneg : ∀ x, 0 ≤ x → 0 ≤ fns.sqrt x)
  (hmono : ∀ x y, 0 ≤ x → x < y → fns.sqrt x < fns.sqrt y) {epsilon : ℚ} (heps : 0 < epsilon)

include hnonneg hmono heps

/-- In a group of several the floor shows exactly where the variance is below it
and the score is not the mean. -/
theorem grpoScores_of_many {group : List ℚ} (h : 1 < group.length) (score : ℚ) :
    grpoVectorizedScore fns epsilon true group score = grpoScore fns epsilon true group score ↔
      score = mean group ∨ epsilon ≤ sampleVariance group := by
  have hne : group ≠ [] := List.length_pos_iff.mp (Nat.zero_lt_of_lt h)
  have hmean : groupMean group = mean group := if_neg h.ne'
  obtain ⟨hfloor, hplain⟩ := vectorizedStd_eq fns epsilon h
  rw [grpoVectorizedScore, grpoScore, if_pos rfl, if_pos rfl, vectorizedMean_eq group hne, hmean,
    hfloor, hplain]
  rcases le_or_gt epsilon (sampleVariance group) with hle | hlt
  · rw [max_eq_left hle]
    exact iff_of_true rfl (Or.inr hle)
  · have hvar : 0 ≤ sampleVariance group := by
      refine div_nonneg (squaredDeviations_nonneg group) (sub_nonneg.mpr ?_)
      exact_mod_cast h.le
    have hsmall : fns.sqrt (sampleVariance group) + epsilon ≠ 0 :=
      (add_pos_of_nonneg_of_pos (hnonneg _ hvar) heps).ne'
    have hlarge : fns.sqrt epsilon + epsilon ≠ 0 :=
      (add_pos_of_nonneg_of_pos (hnonneg _ heps.le) heps).ne'
    have hdistinct : fns.sqrt (sampleVariance group) + epsilon ≠ fns.sqrt epsilon + epsilon :=
      fun heq => (hmono _ _ hvar hlt).ne (add_right_cancel heq)
    rw [max_eq_right hlt.le, div_eq_div_iff hlarge hsmall, mul_eq_mul_left_iff, sub_eq_zero]
    constructor
    · rintro (heq | hzero)
      · exact absurd heq hdistinct
      · exact Or.inl hzero
    · rintro (hzero | hle)
      · exact Or.inr hzero
      · exact absurd hle (not_le.mpr hlt)

theorem grpoScores_eq_iff {group : List ℚ} {score : ℚ} (hmem : score ∈ group) (norm : Bool) :
    grpoVectorizedScore fns epsilon norm group score = grpoScore fns epsilon norm group score ↔
      norm = false ∨ score = mean group ∨ epsilon ≤ sampleVariance group := by
  have hne : group ≠ [] := List.ne_nil_of_mem hmem
  cases norm with
  | false =>
      refine iff_of_true ?_ (Or.inl rfl)
      rw [grpoVectorizedScore, grpoScore, vectorizedMean_eq group hne]
      rfl
  | true =>
      rcases Nat.lt_or_ge 1 group.length with hmany | hone
      · rw [grpoScores_of_many hnonneg hmono heps hmany]
        simp
      · -- a lone response is its own mean
        obtain ⟨x, rfl⟩ := List.length_eq_one_iff.mp
          (le_antisymm hone (List.length_pos_iff.mpr hne))
        refine iff_of_true ?_ (Or.inr (Or.inl ?_))
        · simp [grpoVectorizedScore, grpoScore, vectorizedMean, vectorizedStd, groupMean, groupStd]
        · rw [mean_singleton]
          exact List.mem_singleton.mp hmem

/-- The versions agree on a batch exactly when they do not divide, or every
response that has a token scores the mean of its group or belongs to a group whose
variance is at least `epsilon`. -/
theorem grpoVectorized_eq_iff {tokenLevelRewards : List (Fin L → ℚ)}
    (responseMask : List (Fin L → ℕ)) (hlen : tokenLevelRewards.length = index.length)
    (norm : Bool) :
    ∃ advantages, computeGrpoVectorizedOutcomeAdvantage fns tokenLevelRewards responseMask index
        epsilon norm = .ok advantages ∧
      (advantages = computeGrpoOutcomeAdvantage fns tokenLevelRewards responseMask index epsilon
          norm ↔
        norm = false ∨ ∀ sm ∈ (index.zip (tokenLevelRewards.map Row.sum)).zip responseMask,
          let group := groupValues index (tokenLevelRewards.map Row.sum) sm.1.1
          sm.1.2 = mean group ∨ epsilon ≤ sampleVariance group ∨ ∀ t, sm.2 t = 0) := by
  have hplain : computeGrpoOutcomeAdvantage fns tokenLevelRewards responseMask index epsilon norm =
      List.zipWith spread ((index.zip (tokenLevelRewards.map Row.sum)).map (fun is =>
        grpoScore fns epsilon norm (groupValues index (tokenLevelRewards.map Row.sum) is.1) is.2))
        responseMask := by
    simp only [computeGrpoOutcomeAdvantage, Dict.getD_group]
    rfl
  refine ⟨_, computeGrpoVectorized_eq fns responseMask hlen epsilon norm, ?_⟩
  rw [hplain, zipWith_spread_eq_iff]
  have heach : ∀ sm ∈ (index.zip (tokenLevelRewards.map Row.sum)).zip responseMask,
      _ := fun sm hsm => grpoScores_eq_iff hnonneg hmono heps
        (mem_groupValues (List.of_mem_zip hsm).1) norm
  cases norm with
  | false =>
      refine iff_of_true (fun sm hsm => Or.inl ((heach sm hsm).mpr (Or.inl rfl))) (Or.inl rfl)
  | true =>
      refine Iff.trans (forall₂_congr (fun sm hsm => or_congr_left (heach sm hsm))) ?_
      simp [or_assoc]

end Compare

/-- Three responses of one prompt, with scores of variance one. -/
theorem grpoVectorized_eq_iff_threeResponses :
    (∀ x : ℚ, 0 ≤ x → 0 ≤ id x) ∧ (∀ x y : ℚ, 0 ≤ x → x < y → id x < id y) ∧
      computeGrpoVectorizedOutcomeAdvantage { exp := id, log := id, sqrt := id }
          ([(fun _ => 0), (fun _ => 1), (fun _ => 2)] : List (Fin 1 → ℚ))
          [fun _ => 1, fun _ => 1, fun _ => 1] [7, 7, 7] 1 true =
        .ok (computeGrpoOutcomeAdvantage { exp := id, log := id, sqrt := id }
          ([(fun _ => 0), (fun _ => 1), (fun _ => 2)] : List (Fin 1 → ℚ))
          [fun _ => 1, fun _ => 1, fun _ => 1] [7, 7, 7] 1 true) := by
  have hnonneg : ∀ x : ℚ, 0 ≤ x → 0 ≤ id x := fun _ hx => hx
  have hmono : ∀ x y : ℚ, 0 ≤ x → x < y → id x < id y := fun _ _ _ h => h
  obtain ⟨advantages, hok, hiff⟩ := @grpoVectorized_eq_iff ℕ _ 1 [7, 7, 7]
    { exp := id, log := id, sqrt := id } hnonneg hmono 1 zero_lt_one
    [(fun _ => 0), (fun _ => 1), (fun _ => 2)] [fun _ => 1, fun _ => 1, fun _ => 1] rfl true
  refine ⟨hnonneg, hmono, ?_⟩
  rw [hok, hiff.mpr (Or.inr (by decide +kernel))]

end RLCM.PPO
