/-
# `RLCM.ForcedOutput.GroupStats` — three group-by loops that agree

`compute_group_covar_factors`, `compute_unanimous_group_keep_mask` and the
counters of naturally solved groups each walk over the prompt groups on their
own.  What they have in common is whether a group is mixed: its factor
`p * (1 - p)` vanishes, its samples are dropped and it is counted as solved by
all or by none exactly when it is not.
-/
import RLCM.ForcedOutput.Fit
import RLCM.ForcedOutput.SolvedMetrics

namespace RLCM.ForcedOutput

open Py Stats

variable {Uid : Type} [DecidableEq Uid]

/-! ## The covariance factors -/

/-- `p` of a prompt group. -/
def groupRate (uids : List Uid) (naturalCorrect : List Bool) (g : Uid) : ℚ :=
  mean ((groupCorrect uids naturalCorrect g).map (fun b => if b then 1 else 0))

/-- `factors[group_mask] = p * (1.0 - p)`. -/
def covarStep (uids : List Uid) (naturalCorrect : List Bool) (factors : List ℚ) (g : Uid) :
    List ℚ :=
  let p := groupRate uids naturalCorrect g
  List.zipWith (fun uid factor => if uid = g then p * (1 - p) else factor) uids factors

/-- The loop over the groups, from a list of zeros. -/
def covarLoop (uids : List Uid) (naturalCorrect : List Bool) : List ℚ :=
  uids.dedup.foldl (covarStep uids naturalCorrect) (List.replicate uids.length 0)

/-- After the loop over `groups` the samples of these groups have their factor
and the others what they had. -/
theorem foldl_covarStep (uids : List Uid) (naturalCorrect : List Bool) (groups : List Uid)
    (factors : List ℚ) (hlen : factors.length = uids.length) :
    groups.foldl (covarStep uids naturalCorrect) factors =
      List.zipWith (fun uid factor =>
        if uid ∈ groups then groupRate uids naturalCorrect uid *
          (1 - groupRate uids naturalCorrect uid) else factor) uids factors := by
  induction groups generalizing factors with
  | nil =>
      apply List.ext_getElem
      · simp [hlen]
      · intro i h₁ h₂
        simp
  | cons g groups ih =>
      have hlen' : (covarStep uids naturalCorrect factors g).length = uids.length := by
        simp [covarStep, hlen]
      rw [List.foldl_cons, ih _ hlen']
      apply List.ext_getElem
      · simp [covarStep, hlen]
      · intro i h₁ h₂
        have hi : i < uids.length := by
          simp only [List.length_zipWith] at h₂
          omega
        simp only [covarStep, List.getElem_zipWith, List.mem_cons]
        by_cases hg : uids[i] = g
        · subst hg
          by_cases hmem : uids[i] ∈ groups
          · simp [hmem]
          · simp [hmem]
        · simp [hg]

theorem computeGroupCovarFactors_eq_loop {uids : List Uid} {naturalCorrect : List Bool}
    (hlen : uids.length = naturalCorrect.length) :
    computeGroupCovarFactors uids naturalCorrect = .ok (covarLoop uids naturalCorrect) := by
  rw [computeGroupCovarFactors, if_neg (not_not.mpr hlen), covarLoop,
    foldl_covarStep uids naturalCorrect uids.dedup _ (by simp)]
  refine congrArg Except.ok (List.ext_getElem (by simp) (fun i h₁ h₂ => ?_))
  simp [groupRate]

theorem groupCorrect_ne_nil {uids : List Uid} {naturalCorrect : List Bool}
    (hlen : uids.length = naturalCorrect.length) {g : Uid} (hg : g ∈ uids) :
    groupCorrect uids naturalCorrect g ≠ [] := by
  obtain ⟨i, hi⟩ := List.mem_iff_getElem?.mp hg
  have hlt : i < naturalCorrect.length := hlen ▸ (List.getElem?_eq_some_iff.mp hi).1
  intro hnil
  have hmem : naturalCorrect[i] ∈ groupCorrect uids naturalCorrect g :=
    Dict.mem_valuesAt_zip.mpr ⟨i, hi, List.getElem?_eq_getElem hlt⟩
  rw [hnil] at hmem
  cases hmem

theorem groupRate_eq (uids : List Uid) (naturalCorrect : List Bool) (g : Uid) :
    groupRate uids naturalCorrect g =
      (groupCorrect uids naturalCorrect g).countP id /
        (groupCorrect uids naturalCorrect g).length :=
  mean_indicator id _

theorem groupRate_mem (uids : List Uid) (naturalCorrect : List Bool) (g : Uid) :
    0 ≤ groupRate uids naturalCorrect g ∧ groupRate uids naturalCorrect g ≤ 1 := by
  rw [groupRate_eq]
  have hle : ((groupCorrect uids naturalCorrect g).countP id : ℚ) ≤
      (groupCorrect uids naturalCorrect g).length := by
    exact_mod_cast List.countP_le_length
  exact ⟨by positivity, div_le_one_of_le₀ hle (by positivity)⟩

/-- The factor of a non-empty group vanishes exactly when the group is not
mixed. -/
theorem factor_eq_zero_iff {uids : List Uid} {naturalCorrect : List Bool} {g : Uid}
    (hne : groupCorrect uids naturalCorrect g ≠ []) :
    groupRate uids naturalCorrect g * (1 - groupRate uids naturalCorrect g) = 0 ↔
      ¬ Mixed uids naturalCorrect g := by
  have hlen : ((groupCorrect uids naturalCorrect g).length : ℚ) ≠ 0 := by simpa using hne
  have hzero : groupRate uids naturalCorrect g = 0 ↔
      true ∉ groupCorrect uids naturalCorrect g := by
    rw [groupRate_eq, div_eq_zero_iff, or_iff_left hlen, Nat.cast_eq_zero, List.countP_eq_zero]
    exact ⟨fun h hmem => h true hmem rfl, fun h b hb hbt => h (show true ∈ _ from hbt ▸ hb)⟩
  have hone : 1 - groupRate uids naturalCorrect g = 0 ↔
      false ∉ groupCorrect uids naturalCorrect g := by
    rw [groupRate_eq, sub_eq_zero, eq_comm, div_eq_one_iff_eq hlen, Nat.cast_inj,
      List.countP_eq_length]
    constructor
    · intro h hmem
      exact absurd (h false hmem) (by decide)
    · intro h b hb
      cases b with
      | true => rfl
      | false => exact absurd hb h
  rw [mul_eq_zero, hzero, hone, Mixed, not_and_or]

/-! ## The counters of the filter -/

/-- Some samples of the group are correct, some are not, as the loop tests
it. -/
def mixedCorrect (uids : List Uid) (naturalCorrect : List Bool) (g : Uid) : Bool :=
  !allCorrect uids naturalCorrect g && (groupCorrect uids naturalCorrect g).any id

theorem foldl_keepStep_counters (uids : List Uid) (naturalCorrect : List Bool)
    (groups : List Uid) (st : KeepLoop) :
    (groups.foldl (keepStep uids naturalCorrect) st).droppedAllCorrectGroups =
        st.droppedAllCorrectGroups + groups.countP (allCorrect uids naturalCorrect) ∧
      (groups.foldl (keepStep uids naturalCorrect) st).droppedAllIncorrectGroups =
        st.droppedAllIncorrectGroups + groups.countP (noneCorrect uids naturalCorrect) ∧
      (groups.foldl (keepStep uids naturalCorrect) st).keptMixedGroups =
        st.keptMixedGroups + groups.countP (mixedCorrect uids naturalCorrect) := by
  induction groups generalizing st with
  | nil => exact ⟨rfl, rfl, rfl⟩
  | cons g groups ih =>
      obtain ⟨hall, hnone, hmixed⟩ := ih (keepStep uids naturalCorrect st g)
      simp only [List.foldl_cons, List.countP_cons, hall, hnone, hmixed]
      unfold keepStep mixedCorrect noneCorrect allCorrect
      cases (groupCorrect uids naturalCorrect g).all id with
      | true => simp [add_assoc, add_comm]
      | false =>
          cases (groupCorrect uids naturalCorrect g).any id with
          | true => simp [add_assoc, add_comm]
          | false => simp [add_assoc, add_comm]

theorem countP_kinds (uids : List Uid) (naturalCorrect : List Bool) (groups : List Uid) :
    groups.length = groups.countP (mixedCorrect uids naturalCorrect) +
      groups.countP (allCorrect uids naturalCorrect) +
        groups.countP (noneCorrect uids naturalCorrect) := by
  induction groups with
  | nil => rfl
  | cons g groups ih =>
      rw [List.length_cons, List.countP_cons, List.countP_cons, List.countP_cons, ih]
      unfold mixedCorrect noneCorrect allCorrect
      cases (groupCorrect uids naturalCorrect g).all id with
      | true =>
          simp
          omega
      | false =>
          cases (groupCorrect uids naturalCorrect g).any id with
          | true =>
              simp
              omega
          | false =>
              simp
              omega

theorem countP_id_add_countP_not (mask : List Bool) :
    mask.countP id + mask.countP (!·) = mask.length := by
  have hcount := mask.length_eq_countP_add_countP id
  simpa using hcount.symm

theorem computeUnanimousGroupKeepMask_eq {uids : List Uid} {naturalCorrect : List Bool}
    (hlen : uids.length = naturalCorrect.length) :
    ∃ stats, computeUnanimousGroupKeepMask uids naturalCorrect =
        .ok (uids.map (fun uid => decide (Mixed uids naturalCorrect uid)), stats) ∧
      stats.groupsTotal = stats.groupsKeptMixed + stats.groupsDroppedAllCorrect +
        stats.groupsDroppedAllIncorrect ∧
      stats.samplesKept + stats.samplesDropped = uids.length ∧
      solvedCounts uids naturalCorrect =
        ⟨stats.groupsDroppedAllCorrect, stats.groupsDroppedAllIncorrect⟩ := by
  obtain ⟨stats, hstats⟩ := keepMask_eq hlen
  refine ⟨stats, hstats, ?_⟩
  rw [computeUnanimousGroupKeepMask, if_neg (not_not.mpr hlen)] at hstats
  obtain ⟨hmask, rfl⟩ := Prod.ext_iff.mp (Except.ok.inj hstats)
  obtain ⟨hall, hnone, hmixed⟩ := foldl_keepStep_counters uids naturalCorrect uids.dedup
    ⟨List.replicate uids.length true, 0, 0, 0⟩
  simp only at hmask hall hnone hmixed ⊢
  rw [hmask, hall, hnone, hmixed, solvedCounts_eq]
  simp only [Nat.zero_add]
  refine ⟨countP_kinds uids naturalCorrect uids.dedup, ?_, trivial⟩
  rw [countP_id_add_countP_not, List.length_map]

/-! ## The scaled rewards -/

theorem factor_mem {p : ℚ} (h₀ : 0 ≤ p) (h₁ : p ≤ 1) : 0 ≤ p * (1 - p) ∧ p * (1 - p) ≤ 1 / 4 :=
  ⟨mul_nonneg h₀ (sub_nonneg.mpr h₁), by nlinarith [sq_nonneg (2 * p - 1)]⟩

/-- A scaled reward is at most a quarter of the base reward. -/
theorem abs_mul_factor_le {p : ℚ} (h₀ : 0 ≤ p) (h₁ : p ≤ 1) (r : ℚ) :
    |r * (p * (1 - p))| ≤ |r| / 4 := by
  obtain ⟨hnonneg, hquarter⟩ := factor_mem h₀ h₁
  rw [abs_mul, abs_of_nonneg hnonneg]
  calc |r| * (p * (1 - p)) ≤ |r| * (1 / 4) := mul_le_mul_of_nonneg_left hquarter (abs_nonneg r)
    _ = |r| / 4 := by ring

theorem applyConfMarginCovar_eq {uids : List Uid} {naturalCorrect : List Bool}
    {factors base : List ℚ} (hfactors : computeGroupCovarFactors uids naturalCorrect = .ok factors)
    (hbase : base.length = factors.length) :
    applyConfMarginCovar base uids naturalCorrect = .ok (List.zipWith (· * ·) base factors) := by
  simp [applyConfMarginCovar, hfactors, hbase]

theorem getElem?_factor_eq_zero_iff {uids : List Uid} {naturalCorrect : List Bool}
    (hlen : uids.length = naturalCorrect.length) (i : ℕ) :
    (uids.map (fun g => groupRate uids naturalCorrect g *
        (1 - groupRate uids naturalCorrect g)))[i]? = some 0 ↔
      (uids.map (fun uid => decide (Mixed uids naturalCorrect uid)))[i]? = some false := by
  rw [List.getElem?_map, List.getElem?_map]
  cases hi : uids[i]? with
  | none => simp
  | some g =>
      have hne := groupCorrect_ne_nil hlen (List.mem_of_getElem? hi)
      rw [Option.map_some, Option.map_some, Option.some_inj, Option.some_inj,
        decide_eq_false_iff_not]
      exact factor_eq_zero_iff hne

/-- The three loops agree: on every list of prompt groups and natural
correctness the factors lie in `[0, 1/4]`, are constant on a group and vanish
exactly on the samples the filter drops; the scaled margin reward is zero there
and at most a quarter of the base reward anywhere; the statistics add up; and
the solved counters are the counters of the dropped groups. -/
theorem groupStatistics_agree {uids : List Uid} {naturalCorrect : List Bool}
    (hlen : uids.length = naturalCorrect.length) :
    ∃ factors keepMask stats,
      computeGroupCovarFactors uids naturalCorrect = .ok factors ∧
      computeUnanimousGroupKeepMask uids naturalCorrect = .ok (keepMask, stats) ∧
      factors.length = uids.length ∧ keepMask.length = uids.length ∧
      (∀ f ∈ factors, 0 ≤ f ∧ f ≤ 1 / 4) ∧
      (∀ i j : ℕ, uids[i]? = uids[j]? → factors[i]? = factors[j]?) ∧
      (∀ i : ℕ, factors[i]? = some 0 ↔ keepMask[i]? = some false) ∧
      (∀ base : List ℚ, base.length = uids.length →
        ∃ scaled, applyConfMarginCovar base uids naturalCorrect = .ok scaled ∧
          scaled.length = uids.length ∧
          ∀ (i : ℕ) r s, base[i]? = some r → scaled[i]? = some s →
            (keepMask[i]? = some false → s = 0) ∧ |s| ≤ |r| / 4) ∧
      stats.groupsTotal = stats.groupsKeptMixed + stats.groupsDroppedAllCorrect +
        stats.groupsDroppedAllIncorrect ∧
      stats.samplesKept + stats.samplesDropped = uids.length ∧
      naturalTraceSolved (some uids) (some naturalCorrect) =
        some ⟨stats.groupsDroppedAllCorrect, stats.groupsDroppedAllIncorrect⟩ := by
  obtain ⟨stats, hmask, htotal, hsamples, hsolved⟩ := computeUnanimousGroupKeepMask_eq hlen
  let rate : Uid → ℚ := groupRate uids naturalCorrect
  have hfactors : computeGroupCovarFactors uids naturalCorrect =
      .ok (uids.map (fun g => rate g * (1 - rate g))) := by
    rw [computeGroupCovarFactors, if_neg (not_not.mpr hlen)]
    rfl
  have hrate : ∀ g, 0 ≤ rate g ∧ rate g ≤ 1 := groupRate_mem uids naturalCorrect
  refine ⟨_, _, stats, hfactors, hmask, by rw [List.length_map], by rw [List.length_map], ?_, ?_,
    getElem?_factor_eq_zero_iff hlen, ?_, htotal, hsamples, ?_⟩
  · intro f hf
    obtain ⟨g, _, rfl⟩ := List.mem_map.mp hf
    exact factor_mem (hrate g).1 (hrate g).2
  · intro i j hij
    rw [List.getElem?_map, List.getElem?_map, hij]
  · intro base hbase
    refine ⟨_, applyConfMarginCovar_eq hfactors (by rw [hbase, List.length_map]), ?_, ?_⟩
    · rw [List.length_zipWith, List.length_map, hbase, Nat.min_self]
    · intro i r s hr hs
      rw [List.getElem?_zipWith, hr, List.getElem?_map] at hs
      cases hi : uids[i]? with
      | none =>
          rw [hi] at hs
          cases hs
      | some g =>
          rw [hi, Option.map_some, Option.some_inj] at hs
          subst hs
          refine ⟨fun hdropped => ?_, abs_mul_factor_le (hrate g).1 (hrate g).2 r⟩
          have hfactor := (getElem?_factor_eq_zero_iff hlen i).mpr hdropped
          rw [List.getElem?_map, hi, Option.map_some, Option.some_inj] at hfactor
          rw [hfactor, mul_zero]
  · rw [naturalTraceSolved_of_flags hlen.symm, hsolved]

/-- A mixed group around a unanimous one. -/
theorem groupStatistics_agree_interleaved :
    ∃ factors keepMask stats,
      computeGroupCovarFactors [1, 2, 1] [true, true, false] = .ok factors ∧
      computeUnanimousGroupKeepMask [1, 2, 1] [true, true, false] = .ok (keepMask, stats) ∧
      ∀ i : ℕ, factors[i]? = some 0 ↔ keepMask[i]? = some false := by
  have hlen : ([1, 2, 1] : List ℕ).length = [true, true, false].length := rfl
  obtain ⟨factors, keepMask, stats, hfactors, hmask, -, -, -, -, hzero, -⟩ :=
    groupStatistics_agree hlen
  exact ⟨factors, keepMask, stats, hfactors, hmask, hzero⟩

end RLCM.ForcedOutput
