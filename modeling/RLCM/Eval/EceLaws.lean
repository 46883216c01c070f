/-
# `RLCM.Eval.EceLaws` — what the calibration error measures

With confidences in `[0, 1]` the bins of `_compute_ece` are a partition: the
widened last bin takes confidence 1 and nothing else (`mem_eceBin_iff`).  The
error is then a sum over groups in the sense of `RLCM.Lib.Grouping`, with the bin
as key and accuracy minus confidence as value, and its laws are those of
grouping: refining the bins cannot lower it, one bin gives the difference of the
means, and the mean absolute difference bounds it.
-/
import Mathlib.Algebra.BigOperators.Field
import Mathlib.Algebra.Order.Floor.Semifield
import RLCM.Eval.NaturalEval
import RLCM.Lib.Grouping

namespace RLCM.Eval

open Stats Grouping

/-! ## The bins are a partition -/

def binIndex (bins : ℕ) (conf : ℚ) : ℕ := min ⌊conf * bins⌋₊ (bins - 1)

theorem binIndex_lt {bins : ℕ} (hbins : 1 ≤ bins) (conf : ℚ) : binIndex bins conf < bins := by
  unfold binIndex
  omega

/-- A confidence in `[0, 1]` lies in bin `i` exactly when `i` is its bin. -/
theorem mem_eceBin_iff {bins i : ℕ} (hi : i < bins) {conf : ℚ} (h₀ : 0 ≤ conf) (h₁ : conf ≤ 1) :
    ((eceBin bins i).1 ≤ conf ∧ conf < (eceBin bins i).2) ↔ binIndex bins conf = i := by
  have hpos : (0 : ℚ) < bins := by exact_mod_cast (by omega : 0 < bins)
  have hlower : (i : ℚ) / bins ≤ conf ↔ i ≤ ⌊conf * bins⌋₊ := by
    rw [div_le_iff₀ hpos, Nat.le_floor_iff (mul_nonneg h₀ hpos.le)]
  unfold eceBin binIndex
  by_cases hlast : i < bins - 1
  · have hupper : conf < ((i : ℚ) + 1) / bins ↔ ⌊conf * bins⌋₊ < i + 1 := by
      rw [lt_div_iff₀ hpos, Nat.floor_lt (mul_nonneg h₀ hpos.le)]
      push_cast
      exact Iff.rfl
    rw [if_pos hlast, hlower, hupper]
    omega
  · have hi' : i = bins - 1 := by omega
    have htop : ((i : ℚ) + 1) / bins = 1 := by
      have hcast : (i : ℚ) + 1 = bins := by exact_mod_cast (by omega : i + 1 = bins)
      rw [hcast, div_self hpos.ne']
    have hbelow : conf < 1 + 1 / 10 ^ 6 := by
      refine lt_of_le_of_lt h₁ ?_
      norm_num
    rw [if_neg hlast, htop, hlower]
    constructor
    · rintro ⟨hle, -⟩
      omega
    · intro hmin
      exact ⟨by omega, hbelow⟩

theorem existsUnique_bin {bins : ℕ} (hbins : 1 ≤ bins) {conf : ℚ} (h₀ : 0 ≤ conf)
    (h₁ : conf ≤ 1) :
    ∃! i, i < bins ∧ (eceBin bins i).1 ≤ conf ∧ conf < (eceBin bins i).2 := by
  refine ⟨binIndex bins conf, ⟨binIndex_lt hbins conf, ?_⟩, ?_⟩
  · exact (mem_eceBin_iff (binIndex_lt hbins conf) h₀ h₁).mpr rfl
  · rintro i ⟨hi, hmem⟩
    exact ((mem_eceBin_iff hi h₀ h₁).mp hmem).symm

theorem binIndex_refine {m k : ℕ} (hm : 1 ≤ m) (hk : 1 ≤ k) (conf : ℚ) :
    binIndex m conf = binIndex (k * m) conf / k := by
  have hk' : (k : ℚ) ≠ 0 := by exact_mod_cast (by omega : k ≠ 0)
  have hfloor : ⌊conf * m⌋₊ = ⌊conf * ((k * m : ℕ) : ℚ)⌋₊ / k := by
    rw [← Nat.floor_div_natCast]
    congr 1
    push_cast
    field_simp
  have hlast : m - 1 = (k * m - 1) / k := by
    have := Nat.mul_sub_div 0 k m (Nat.mul_pos hk hm)
    simpa using this.symm
  unfold binIndex
  rw [hfloor, hlast]
  have hmono : Monotone (fun n : ℕ => n / k) := fun _ _ h => Nat.div_le_div_right h
  exact hmono.map_min.symm

/-! ## The error as a sum over groups -/

/-- Accuracy minus confidence. -/
def gap (sample : ℚ × ℚ) : ℚ := sample.2 - sample.1

/-- Confidence and accuracy lie between 0 and 1. -/
def UnitSamples (samples : List (ℚ × ℚ)) : Prop :=
  ∀ s ∈ samples, (0 ≤ s.1 ∧ s.1 ≤ 1) ∧ 0 ≤ s.2 ∧ s.2 ≤ 1

theorem sum_gap (samples : List (ℚ × ℚ)) :
    (samples.map gap).sum = (samples.map Prod.snd).sum - (samples.map Prod.fst).sum := by
  induction samples with
  | nil => simp
  | cons s samples ih =>
      rw [List.map_cons, List.sum_cons, ih, List.map_cons, List.map_cons, List.sum_cons,
        List.sum_cons, gap]
      ring

theorem mean_sub_mean (samples : List (ℚ × ℚ)) :
    mean (samples.map Prod.snd) - mean (samples.map Prod.fst) =
      (samples.map gap).sum / samples.length := by
  rw [mean, mean, List.length_map, List.length_map, sum_gap, sub_div]

theorem eceTerm_eq (total : ℕ) (bin : List (ℚ × ℚ)) :
    eceTerm total bin = |(bin.map gap).sum| / total := by
  unfold eceTerm
  split_ifs with hnil
  · simp [hnil]
  · have hlen : (bin.length : ℚ) ≠ 0 := by simpa using hnil
    have hpos : (0 : ℚ) < bin.length := by positivity
    rw [mean_sub_mean, abs_div, abs_of_pos hpos]
    field_simp

theorem inBin_eq {bins i : ℕ} (hi : i < bins) {samples : List (ℚ × ℚ)}
    (hunit : UnitSamples samples) :
    inBin bins i samples = samples.filter (fun s => binIndex bins s.1 = i) := by
  refine List.filter_congr (fun s hs => ?_)
  obtain ⟨⟨h₀, h₁⟩, -⟩ := hunit s hs
  rw [decide_eq_decide]
  exact mem_eceBin_iff hi h₀ h₁

/-- The error over these bins. -/
def eceOf (bins : ℕ) (samples : List (ℚ × ℚ)) : ℚ :=
  groupedAbs (Finset.range bins) (fun s => binIndex bins s.1) gap samples / samples.length

theorem computeEce_eq {confidences accuracies : List ℚ} (hne : confidences ≠ [])
    (hlen : confidences.length = accuracies.length)
    (hunit : UnitSamples (confidences.zip accuracies)) (bins : ℕ) :
    computeEce confidences accuracies none bins =
      some (eceOf bins (confidences.zip accuracies)) := by
  have hsamples : confidences.zip accuracies ≠ [] := by
    intro hnil
    have hzip := congrArg List.length hnil
    rw [List.length_zip, ← hlen, min_self] at hzip
    exact hne (List.length_eq_zero_iff.mp hzip)
  have hterms : (List.range bins).map (fun i =>
      eceTerm (confidences.zip accuracies).length (inBin bins i (confidences.zip accuracies))) =
        (List.range bins).map (fun i => |groupSum (fun s => binIndex bins s.1) gap
          (confidences.zip accuracies) i| / (confidences.zip accuracies).length) := by
    refine List.map_congr_left (fun i hi => ?_)
    rw [eceTerm_eq, inBin_eq (List.mem_range.mp hi) hunit]
    rfl
  unfold computeEce
  simp only [Option.elim_none, hne, hsamples, or_self, if_false, hterms]
  rw [eceOf, groupedAbs, Finset.sum_div]
  rfl

theorem binIndex_mem (bins : ℕ) (hbins : 1 ≤ bins) (samples : List (ℚ × ℚ)) :
    ∀ s ∈ samples, binIndex bins s.1 ∈ Finset.range bins :=
  fun s _ => Finset.mem_range.mpr (binIndex_lt hbins s.1)

/-! ## The laws -/

theorem eceOf_perm {samples samples' : List (ℚ × ℚ)} (h : samples.Perm samples') (bins : ℕ) :
    eceOf bins samples = eceOf bins samples' := by
  rw [eceOf, eceOf, groupedAbs_perm h, h.length_eq]

theorem eceOf_one {samples : List (ℚ × ℚ)} :
    eceOf 1 samples = |mean (samples.map Prod.snd) - mean (samples.map Prod.fst)| := by
  have hone : groupSum (fun s : ℚ × ℚ => binIndex 1 s.1) gap samples 0 =
      (samples.map gap).sum := by
    have hmem := sum_groupSum (binIndex_mem 1 le_rfl samples) gap
    rwa [Finset.sum_range_one] at hmem
  have hnonneg : (0 : ℚ) ≤ samples.length := Nat.cast_nonneg _
  rw [eceOf, groupedAbs, Finset.sum_range_one, hone, mean_sub_mean, abs_div,
    abs_of_nonneg hnonneg]

theorem eceOf_one_le {bins : ℕ} (hbins : 1 ≤ bins) (samples : List (ℚ × ℚ)) :
    eceOf 1 samples ≤ eceOf bins samples := by
  have hnonneg : (0 : ℚ) ≤ samples.length := Nat.cast_nonneg _
  rw [eceOf_one, mean_sub_mean, abs_div, abs_of_nonneg hnonneg]
  exact div_le_div_of_nonneg_right (abs_sum_le_groupedAbs (binIndex_mem bins hbins samples) gap)
    hnonneg

theorem eceOf_le_refine {m k : ℕ} (hm : 1 ≤ m) (hk : 1 ≤ k) (samples : List (ℚ × ℚ)) :
    eceOf m samples ≤ eceOf (k * m) samples := by
  have hkm : 1 ≤ k * m := Nat.mul_pos hk hm
  refine div_le_div_of_nonneg_right ?_ (Nat.cast_nonneg _)
  refine groupedAbs_le_of_coarser (binIndex_mem (k * m) hkm samples) (· / k)
    (fun s _ => binIndex_refine hm hk s.1) (fun i hi => ?_) gap
  rw [Finset.mem_range] at hi ⊢
  exact Nat.div_lt_of_lt_mul hi

/-- The mean absolute difference of accuracy and confidence. -/
def meanAbsGap (samples : List (ℚ × ℚ)) : ℚ := mean (samples.map (fun s => |gap s|))

theorem eceOf_le_meanAbsGap {bins : ℕ} (hbins : 1 ≤ bins) (samples : List (ℚ × ℚ)) :
    eceOf bins samples ≤ meanAbsGap samples := by
  rw [meanAbsGap, mean, List.length_map]
  exact div_le_div_of_nonneg_right (groupedAbs_le_sum_abs (binIndex_mem bins hbins samples) gap)
    (Nat.cast_nonneg _)

theorem meanAbsGap_le_one {samples : List (ℚ × ℚ)} (hunit : UnitSamples samples) :
    meanAbsGap samples ≤ 1 := by
  have hgap : ∀ x ∈ samples.map (fun s => |gap s|), x ≤ 1 := by
    intro x hx
    obtain ⟨s, hs, rfl⟩ := List.mem_map.mp hx
    obtain ⟨⟨hc₀, hc₁⟩, ha₀, ha₁⟩ := hunit s hs
    rw [abs_le, gap]
    constructor
    · linarith
    · linarith
  have hsum := List.sum_le_card_nsmul _ 1 hgap
  rw [nsmul_eq_mul, mul_one] at hsum
  exact div_le_one_of_le₀ hsum (Nat.cast_nonneg _)

/-- The laws of the calibration error, for confidences and accuracies in
`[0, 1]`. -/
theorem ece_laws {confidences accuracies : List ℚ} (hne : confidences ≠ [])
    (hlen : confidences.length = accuracies.length)
    (hunit : UnitSamples (confidences.zip accuracies)) {m k : ℕ} (hm : 1 ≤ m) (hk : 1 ≤ k) :
    ∃ eceOne eceM eceKM, computeEce confidences accuracies none 1 = some eceOne ∧
      computeEce confidences accuracies none m = some eceM ∧
      computeEce confidences accuracies none (k * m) = some eceKM ∧
      (finalize confidences accuracies m).naturalEce = eceM ∧
      (∀ conf ∈ confidences,
        ∃! i, i < m ∧ (eceBin m i).1 ≤ conf ∧ conf < (eceBin m i).2) ∧
      (∀ confidences' accuracies', confidences'.length = accuracies'.length →
        (confidences'.zip accuracies').Perm (confidences.zip accuracies) →
          computeEce confidences' accuracies' none m = some eceM) ∧
      |mean accuracies - mean confidences| = eceOne ∧ eceOne ≤ eceM ∧ eceM ≤ eceKM ∧
      eceKM ≤ mean (List.zipWith (fun conf acc => |acc - conf|) confidences accuracies) ∧
      mean (List.zipWith (fun conf acc => |acc - conf|) confidences accuracies) ≤ 1 := by
  have hkm : 1 ≤ k * m := Nat.mul_pos hk hm
  have hfst : (confidences.zip accuracies).map Prod.fst = confidences :=
    List.map_fst_zip (by omega)
  have hsnd : (confidences.zip accuracies).map Prod.snd = accuracies :=
    List.map_snd_zip (by omega)
  have hgaps : meanAbsGap (confidences.zip accuracies) =
      mean (List.zipWith (fun conf acc => |acc - conf|) confidences accuracies) := by
    rw [meanAbsGap, List.map_zip_eq_zipWith]
    rfl
  have hece := computeEce_eq hne hlen hunit
  refine ⟨_, _, _, hece 1, hece m, hece (k * m), ?_, fun conf hconf => ?_,
    fun confidences' accuracies' hlen' hperm => ?_, ?_, eceOf_one_le hm _,
    eceOf_le_refine hm hk _, ?_, ?_⟩
  · rw [finalize, hece m]
    rfl
  · rw [← hfst] at hconf
    obtain ⟨s, hs, rfl⟩ := List.mem_map.mp hconf
    obtain ⟨⟨h₀, h₁⟩, -⟩ := hunit s hs
    exact existsUnique_bin hm h₀ h₁
  · have hne' : confidences' ≠ [] := by
      rintro rfl
      have hcount := hperm.length_eq
      rw [List.zip_nil_left, List.length_nil, List.length_zip, ← hlen, min_self] at hcount
      exact hne (List.length_eq_zero_iff.mp hcount.symm)
    rw [computeEce_eq hne' hlen' (fun s hs => hunit s (hperm.mem_iff.mp hs)), eceOf_perm hperm]
  · rw [eceOf_one, hfst, hsnd]
  · rw [← hgaps]
    exact eceOf_le_meanAbsGap hkm _
  · rw [← hgaps]
    exact meanAbsGap_le_one hunit

/-- Confidence 1 and a confidence on a bin boundary among them. -/
theorem ece_laws_boundary :
    ∃ eceOne eceM eceKM, computeEce [1, 1 / 2, 0] [1, 0, 1] none 1 = some eceOne ∧
      computeEce [1, 1 / 2, 0] [1, 0, 1] none 2 = some eceM ∧
      computeEce [1, 1 / 2, 0] [1, 0, 1] none (3 * 2) = some eceKM ∧
      eceOne ≤ eceM ∧ eceM ≤ eceKM := by
  have hunit : UnitSamples (List.zip [1, 1 / 2, 0] [1, 0, 1]) := by
    intro s hs
    simp only [List.zip_cons_cons, List.zip_nil_right, List.mem_cons, List.not_mem_nil,
      or_false] at hs
    rcases hs with rfl | rfl | rfl <;> norm_num
  obtain ⟨eceOne, eceM, eceKM, h₁, hm, hkm, -, -, -, -, hle, hle', -⟩ :=
    ece_laws (by simp) (by simp) hunit (by decide : 1 ≤ 2) (by decide : 1 ≤ 3)
  exact ⟨eceOne, eceM, eceKM, h₁, hm, hkm, hle, hle'⟩

end RLCM.Eval
