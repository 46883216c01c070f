/-
# `RLCM.ForcedOutput.RewardReference` — the reward of a trace, defined once

What the reward loop is for, without its lists: the reward of a sample is its
natural reward plus the aggregate over its budgets of the weighted aggregate
over its answers.  `describeSample` gives everything the loop appends for one
sample as a function of that sample alone.

`sampleReward_eq` connects the loop body to it and `computeForcedOutputRewards_eq` the
whole function: each parallel list is the map of one field over the samples.
-/
import RLCM.ForcedOutput.Trainer

namespace RLCM.ForcedOutput

open Py Stats

variable {Token Truth Info : Type}

section Config

variable (cfg : TrainerConfig) (tok : Tokenizer Token) (scorer : Scorer Truth Info)

/-! ## One budget -/

/-- The texts scored at a budget: all answers if there are several per budget,
else the single one. -/
def Item.answerTexts (item : Item Token Truth Info) (budget : ℕ) : List Str :=
  match item.fullTextsMulti.filter (fun _ => 1 < cfg.foNumForcedAnswers) with
  | some multi =>
      if multi.getD budget [] = [] then [item.fullTexts.getD budget []]
      else multi.getD budget []
  | none => [item.fullTexts.getD budget []]

/-- The score of a text of this sample; a raising scorer gives `0`. -/
def scoreOf (item : Item Token Truth Info) (text : Str) : ℚ :=
  (safeComputeScore scorer (item.query text)).1

def scoresAt (item : Item Token Truth Info) (budget : ℕ) : List ℚ :=
  (item.answerTexts cfg budget).map (scoreOf scorer item)

def aggregatedScore (item : Item Token Truth Info) (budget : ℕ) : ℚ :=
  multiAgg cfg.foMultiAnswerAgg (scoresAt cfg scorer item budget)

/-- The fraction of the answers at a budget with a positive score. -/
def mcAccuracyAt (item : Item Token Truth Info) (budget : ℕ) : ℚ :=
  (scoresAt cfg scorer item budget).countP (0 < ·) / (scoresAt cfg scorer item budget).length

/-- The entry of `per_budget_details` for a budget with raw reward `r`. -/
def detailAt (item : Item Token Truth Info) (budget : ℕ) (r : ℚ) : Detail :=
  if (item.fullTextsMulti.filter (fun _ => 1 < cfg.foNumForcedAnswers)).isSome then
    .multiAnswer budget (r * cfg.foBudgetRewardWeight) r cfg.foBudgetRewardWeight
      (scoresAt cfg scorer item budget) (scoresAt cfg scorer item budget).length
      cfg.foMultiAnswerAgg
  else .forcedBudget budget (r * cfg.foBudgetRewardWeight) r cfg.foBudgetRewardWeight

/-- The lists after a budget with raw reward `r`. -/
def BudgetLoop.store (item : Item Token Truth Info) (st : BudgetLoop) (budget : ℕ) (r : ℚ) :
    BudgetLoop where
  perBudgetRewards := st.perBudgetRewards ++ [r * cfg.foBudgetRewardWeight]
  perBudgetDetails := st.perBudgetDetails ++ [detailAt cfg scorer item budget r]
  clampedToReward := st.clampedToReward.insert budget (r * cfg.foBudgetRewardWeight)
  sampleMcAccs := st.sampleMcAccs ++ [mcAccuracyAt cfg scorer item budget]

theorem answerTexts_ne_nil (item : Item Token Truth Info) (budget : ℕ) :
    item.answerTexts cfg budget ≠ [] := by
  unfold Item.answerTexts
  split
  · split_ifs with h
    · simp
    · exact h
  · simp

theorem scoresAt_ne_nil (item : Item Token Truth Info) (budget : ℕ) :
    scoresAt cfg scorer item budget ≠ [] := by
  simpa [scoresAt] using answerTexts_ne_nil cfg item budget

/-- Both paths of the loop body aggregate the scores and store the result. -/
theorem budgetStep_eq (item : Item Token Truth Info) (st : BudgetLoop) (budget : ℕ) :
    budgetStep cfg scorer item st budget = (do
      let r ← aggregateMultiAnswerRewards (scoresAt cfg scorer item budget) cfg.foMultiAnswerAgg
      pure (st.store cfg scorer item budget r)) := by
  cases hmulti : item.fullTextsMulti.filter (fun _ => 1 < cfg.foNumForcedAnswers) with
  | none =>
      have hscores : scoresAt cfg scorer item budget =
          [scoreOf scorer item (item.fullTexts.getD budget [])] := by
        simp [scoresAt, Item.answerTexts, hmulti]
      simp only [budgetStep, hmulti, BudgetLoop.store, detailAt, mcAccuracyAt, hscores,
        aggregateMultiAnswerRewards, ok_bind, Option.isSome_none, scoreOf]
      by_cases hpos : 0 < (safeComputeScore scorer
        (item.query (item.fullTexts.getD budget []))).1
      · simp [hpos]
      · simp [hpos]
  | some multi =>
      have htexts : (if multi.getD budget [] = [] then [item.fullTexts.getD budget []]
          else multi.getD budget []) = item.answerTexts cfg budget := by
        simp [Item.answerTexts, hmulti]
      simp only [budgetStep, hmulti, htexts, BudgetLoop.store, detailAt, mcAccuracyAt,
        Option.isSome_some, if_true]
      have hscores : (item.answerTexts cfg budget).map
          (fun solutionStr => (safeComputeScore scorer (item.query solutionStr)).1) =
            scoresAt cfg scorer item budget := rfl
      have hmean := mean_indicator (fun r : ℚ => decide (0 < r)) (scoresAt cfg scorer item budget)
      simp only [decide_eq_true_eq] at hmean
      rw [hscores, hmean]

/-! ## One sample -/

/-- Everything the loop appends for a sample whose raw budget rewards are
`rs`. -/
def describeSample (item : Item Token Truth Info) (rs : List ℚ) : SampleReward :=
  let weighted := rs.map (· * cfg.foBudgetRewardWeight)
  let perBudgetRewards := if rs = [] then [0] else weighted
  let naturalReward := if cfg.foIncludeNaturalTrace then
    some (computeNaturalTraceReward tok scorer item).1 else none
  { perBudgetRewards := perBudgetRewards
    naturalReward := naturalReward
    naturalCorrect := naturalReward.any (0 < ·)
    anyCorrect := perBudgetRewards.any (0 < ·) || naturalReward.any (0 < ·)
    fallback := !item.hasForcedOutputs
    numComponents := perBudgetRewards.length
    details := List.zipWith (detailAt cfg scorer item) item.budgets rs ++
      (if cfg.foIncludeNaturalTrace then [(computeNaturalTraceReward tok scorer item).2] else [])
      ++ (if rs = [] then [.fallbackZero 0] else [])
    perBudgetMean := mean perBudgetRewards
    mcAccuracies := item.budgets.map (mcAccuracyAt cfg scorer item)
    budgetPositions := item.budgets }

def rawBudgetRewards (item : Item Token Truth Info) : Except Error (List ℚ) :=
  item.budgets.mapM (fun budget =>
    aggregateMultiAnswerRewards (scoresAt cfg scorer item budget) cfg.foMultiAnswerAgg)

theorem map_eq_of_forall₂ {α β γ : Type} {R : α → β → Prop} {f : β → γ} {g : α → γ}
    {xs : List α} {ys : List β} (h : List.Forall₂ R xs ys)
    (hfg : ∀ x y, R x y → f y = g x) : ys.map f = xs.map g := by
  induction h with
  | nil => rfl
  | cons hxy _ ih => rw [List.map_cons, List.map_cons, hfg _ _ hxy, ih]

theorem rawBudgetRewards_of_ok {item : Item Token Truth Info} {rs : List ℚ}
    (h : rawBudgetRewards cfg scorer item = .ok rs) :
    rs = item.budgets.map (aggregatedScore cfg scorer item) := by
  have hforall := mapM_eq_ok.mp h
  rw [← List.map_id rs]
  exact map_eq_of_forall₂ hforall (fun budget r hr => multiAgg_of_ok hr)

theorem map_fst_zip_comp {α β γ : Type} {xs : List α} {ys : List β}
    (hlen : ys.length = xs.length) (f : α → γ) :
    (xs.zip ys).map (fun xy => f xy.1) = xs.map f := by
  have hfst : (xs.zip ys).map Prod.fst = xs := List.map_fst_zip (by omega)
  conv_rhs => rw [← hfst, List.map_map]
  rfl

theorem map_snd_zip_comp {α β γ : Type} {xs : List α} {ys : List β}
    (hlen : ys.length = xs.length) (f : β → γ) :
    (xs.zip ys).map (fun xy => f xy.2) = ys.map f := by
  have hsnd : (xs.zip ys).map Prod.snd = ys := List.map_snd_zip (by omega)
  conv_rhs => rw [← hsnd, List.map_map]
  rfl

theorem foldl_store (item : Item Token Truth Info) (budgetRewards : List (ℕ × ℚ))
    (st : BudgetLoop) :
    budgetRewards.foldl (fun st br => st.store cfg scorer item br.1 br.2) st =
      { perBudgetRewards := st.perBudgetRewards ++
          budgetRewards.map (fun br => br.2 * cfg.foBudgetRewardWeight)
        perBudgetDetails := st.perBudgetDetails ++
          budgetRewards.map (fun br => detailAt cfg scorer item br.1 br.2)
        clampedToReward := Dict.assign st.clampedToReward
          (budgetRewards.map (fun br => (br.1, br.2 * cfg.foBudgetRewardWeight)))
        sampleMcAccs := st.sampleMcAccs ++
          budgetRewards.map (fun br => mcAccuracyAt cfg scorer item br.1) } := by
  induction budgetRewards generalizing st with
  | nil => simp [Dict.assign]
  | cons br budgetRewards ih =>
      rw [List.foldl_cons, ih]
      simp [BudgetLoop.store, Dict.assign]

theorem sampleReward_eq (item : Item Token Truth Info) :
    sampleReward cfg tok scorer item = (do
      let rs ← rawBudgetRewards cfg scorer item
      pure (describeSample cfg tok scorer item rs, Dict.assign ∅
        ((item.budgets.zip rs).map (fun br => (br.1, br.2 * cfg.foBudgetRewardWeight))))) := by
  unfold sampleReward
  have hstep : budgetStep cfg scorer item = fun st budget => (do
      let r ← aggregateMultiAnswerRewards (scoresAt cfg scorer item budget) cfg.foMultiAnswerAgg
      pure (st.store cfg scorer item budget r)) := by
    funext st budget
    exact budgetStep_eq cfg scorer item st budget
  rw [hstep, foldlM_store]
  cases hrs : rawBudgetRewards cfg scorer item with
  | error e =>
      simp only [rawBudgetRewards] at hrs
      simp [hrs]
  | ok rs =>
      have hlen : rs.length = item.budgets.length := (mapM_eq_ok.mp hrs).length_eq.symm
      simp only [rawBudgetRewards] at hrs
      simp only [hrs, ok_bind, pure_eq_ok]
      have hdetails : (item.budgets.zip rs).map (fun br => detailAt cfg scorer item br.1 br.2) =
          List.zipWith (detailAt cfg scorer item) item.budgets rs :=
        List.map_zip_eq_zipWith
      have hweighted := map_snd_zip_comp hlen (· * cfg.foBudgetRewardWeight)
      have hmcs := map_fst_zip_comp hlen (mcAccuracyAt cfg scorer item)
      rw [foldl_store, hdetails, hweighted, hmcs]
      simp only [BudgetLoop.empty, List.nil_append, describeSample]
      cases rs <;> cases cfg.foIncludeNaturalTrace <;> simp

/-! ## The batch -/

/-- The parallel lists that describe these samples. -/
def ExtraInfos.ofSamples (samples : List SampleReward) (aggregatedRewards : List ℚ) :
    ExtraInfos where
  forcedOutputNaturalReward := samples.map SampleReward.naturalReward
  forcedOutputNaturalCorrect := samples.map SampleReward.naturalCorrect
  forcedOutputAnyCorrect := samples.map SampleReward.anyCorrect
  forcedOutputFallback := samples.map SampleReward.fallback
  forcedOutputNumComponents := samples.map SampleReward.numComponents
  forcedOutputDetails := samples.map SampleReward.details
  forcedOutputPerBudgetMean := samples.map SampleReward.perBudgetMean
  forcedOutputAggregatedReward := aggregatedRewards
  probeMcAccuracies := samples.map SampleReward.mcAccuracies
  probeBudgetPositions := samples.map SampleReward.budgetPositions

/-- The lists of the loop after these samples. -/
def RewardLoop.ofSamples (samples : List SampleReward) (lists : Dict ℚ (List ℚ)) :
    RewardLoop where
  rewardsMatrix := samples.map SampleReward.perBudgetRewards
  naturalReward := samples.map SampleReward.naturalReward
  naturalCorrect := samples.map SampleReward.naturalCorrect
  anyCorrect := samples.map SampleReward.anyCorrect
  fallback := samples.map SampleReward.fallback
  numComponents := samples.map SampleReward.numComponents
  details := samples.map SampleReward.details
  perBudgetMean := samples.map SampleReward.perBudgetMean
  perSampleMcAccuracies := samples.map SampleReward.mcAccuracies
  perSampleBudgetPositions := samples.map SampleReward.budgetPositions
  perBudgetRewardLists := lists

def bookSample (lists : Dict ℚ (List ℚ)) (item : Item Token Truth Info)
    (sample : SampleReward × Dict ℕ ℚ) : Dict ℚ (List ℚ) :=
  cfg.foBudgetCheckpoints.foldl
    (attributeStep (item.traceLength.getD (item.budgets.foldl max 0)) sample.2) lists

/-- Every append of the loop body goes to its own list. -/
theorem foldl_push (pairs : List (Item Token Truth Info × SampleReward × Dict ℕ ℚ))
    (samples : List SampleReward) (lists : Dict ℚ (List ℚ)) :
    pairs.foldl (fun st p => st.push p.2.1 (bookSample cfg st.perBudgetRewardLists p.1 p.2))
        (RewardLoop.ofSamples samples lists) =
      RewardLoop.ofSamples (samples ++ pairs.map (fun p => p.2.1))
        (pairs.foldl (fun lists p => bookSample cfg lists p.1 p.2) lists) := by
  induction pairs generalizing samples lists with
  | nil => simp
  | cons p pairs ih =>
      have hpush : (RewardLoop.ofSamples samples lists).push p.2.1
          (bookSample cfg lists p.1 p.2) =
            RewardLoop.ofSamples (samples ++ [p.2.1]) (bookSample cfg lists p.1 p.2) := by
        simp [RewardLoop.push, RewardLoop.ofSamples]
      simp only [List.foldl_cons]
      have hlists : (RewardLoop.ofSamples samples lists).perBudgetRewardLists = lists := rfl
      rw [hlists, hpush, ih]
      simp

/-- The natural rewards added by `zip`. -/
def addNatural (aggregatedRewards : List ℚ) (naturalRewards : List (Option ℚ)) : List ℚ :=
  if cfg.foIncludeNaturalTrace then
    List.zipWith (fun agg nat => agg + nat.getD 0) aggregatedRewards naturalRewards
  else aggregatedRewards

/-- The function without its accumulators. -/
theorem computeForcedOutputRewards_eq {L : ℕ} (batch : Batch Token Truth Info L) :
    computeForcedOutputRewards cfg tok scorer batch = (do
      let samples ← batch.items.mapM (sampleReward cfg tok scorer)
      let aggregated ← aggregateRewardsBatch (samples.map (fun s => s.1.perBudgetRewards))
        cfg.foRewardAggregation
      let total := addNatural cfg aggregated (samples.map (fun s => s.1.naturalReward))
      let rewardTensor ← createTokenLevelRewardTensor total batch.responseMask
      pure ⟨rewardTensor, ExtraInfos.ofSamples (samples.map Prod.fst) total,
        (batch.items.zip samples).foldl (fun lists p => bookSample cfg lists p.1 p.2) ∅⟩) := by
  have hempty : RewardLoop.empty = RewardLoop.ofSamples [] ∅ := rfl
  unfold computeForcedOutputRewards
  have hstep : sampleStep cfg tok scorer = fun st item => (do
      let sample ← sampleReward cfg tok scorer item
      pure (st.push sample.1 (bookSample cfg st.perBudgetRewardLists item sample))) := rfl
  rw [hstep, foldlM_store]
  cases hsamples : batch.items.mapM (sampleReward cfg tok scorer) with
  | error e => rfl
  | ok samples =>
      have hlen : samples.length = batch.items.length :=
        (mapM_eq_ok.mp hsamples).length_eq.symm
      have hfst := map_snd_zip_comp hlen (fun s : SampleReward × Dict ℕ ℚ => s.1)
      simp only [ok_bind, pure_eq_ok, hempty, foldl_push, List.nil_append, hfst]
      simp only [RewardLoop.ofSamples, ExtraInfos.ofSamples, addNatural, List.map_map,
        Function.comp_def]

/-! ## What holds of every result -/

def naturalRewardOf (item : Item Token Truth Info) : Option ℚ :=
  if cfg.foIncludeNaturalTrace then some (computeNaturalTraceReward tok scorer item).1 else none

/-- Whatever the modes: if the function returns, every list is a map over the
samples, and each sample is described on its own. -/
theorem extraInfos_of_ok {L : ℕ} {batch : Batch Token Truth Info L}
    {out : ForcedOutputRewards L} (h : computeForcedOutputRewards cfg tok scorer batch = .ok out) :
    ∃ samples total,
      List.Forall₂ (fun item sample => ∃ rs, rawBudgetRewards cfg scorer item = .ok rs ∧
        sample = describeSample cfg tok scorer item rs) batch.items samples ∧
      out.extraInfos = ExtraInfos.ofSamples samples total ∧
      createTokenLevelRewardTensor total batch.responseMask = .ok out.rewardTensor ∧
      total.length = batch.items.length := by
  rw [computeForcedOutputRewards_eq] at h
  obtain ⟨samples, hsamples, h⟩ := bind_eq_ok.mp h
  obtain ⟨aggregated, hagg, h⟩ := bind_eq_ok.mp h
  obtain ⟨tensor, htensor, h⟩ := bind_eq_ok.mp h
  cases h
  have hforall := mapM_eq_ok.mp hsamples
  have hlen := hforall.length_eq
  have hlenAgg := (mapM_eq_ok.mp hagg).length_eq
  refine ⟨samples.map Prod.fst, _, ?_, rfl, htensor, ?_⟩
  · rw [List.forall₂_map_right_iff]
    refine hforall.imp (fun item sample hsample => ?_)
    rw [sampleReward_eq] at hsample
    obtain ⟨rs, hrs, hsample⟩ := bind_eq_ok.mp hsample
    exact ⟨rs, hrs, by cases hsample; rfl⟩
  · simp only [List.length_map] at hlenAgg
    unfold addNatural
    split_ifs
    · simp only [List.length_zipWith, List.length_map]
      omega
    · omega

theorem probeLists_of_ok {L : ℕ} {batch : Batch Token Truth Info L}
    {out : ForcedOutputRewards L} (h : computeForcedOutputRewards cfg tok scorer batch = .ok out) :
    out.extraInfos.probeMcAccuracies =
        batch.items.map (fun item => item.budgets.map (mcAccuracyAt cfg scorer item)) ∧
      out.extraInfos.probeBudgetPositions = batch.items.map Item.budgets := by
  obtain ⟨samples, total, hsamples, hextra, -, -⟩ := extraInfos_of_ok cfg tok scorer h
  rw [hextra]
  refine ⟨map_eq_of_forall₂ hsamples ?_, map_eq_of_forall₂ hsamples ?_⟩ <;>
  · rintro item sample ⟨rs, -, rfl⟩
    rfl

theorem naturalLists_of_ok {L : ℕ} {batch : Batch Token Truth Info L}
    {out : ForcedOutputRewards L} (h : computeForcedOutputRewards cfg tok scorer batch = .ok out) :
    out.extraInfos.forcedOutputNaturalReward =
        batch.items.map (naturalRewardOf cfg tok scorer) ∧
      out.extraInfos.forcedOutputNaturalCorrect =
        batch.items.map (fun item => (naturalRewardOf cfg tok scorer item).any (0 < ·)) := by
  obtain ⟨samples, total, hsamples, hextra, -, -⟩ := extraInfos_of_ok cfg tok scorer h
  rw [hextra]
  refine ⟨map_eq_of_forall₂ hsamples ?_, map_eq_of_forall₂ hsamples ?_⟩ <;>
  · rintro item sample ⟨rs, -, rfl⟩
    rfl

/-! ## The reference -/

def budgetRewards (item : Item Token Truth Info) : List ℚ :=
  item.budgets.map (fun budget =>
    multiAgg cfg.foMultiAnswerAgg (scoresAt cfg scorer item budget))

/-- The reward of a sample: natural reward plus the aggregate over its budgets
of the weighted budget rewards. -/
def referenceReward (item : Item Token Truth Info) : ℚ :=
  (naturalRewardOf cfg tok scorer item).getD 0 +
    agg cfg.foRewardAggregation
      ((budgetRewards cfg scorer item).map (cfg.foBudgetRewardWeight * ·))

/-- What the lists hold for a sample under supported modes. -/
def referenceSample (item : Item Token Truth Info) : SampleReward :=
  describeSample cfg tok scorer item (budgetRewards cfg scorer item)

theorem rawBudgetRewards_eq (hmulti : cfg.foMultiAnswerAgg.Supported)
    (item : Item Token Truth Info) :
    rawBudgetRewards cfg scorer item = .ok (budgetRewards cfg scorer item) :=
  mapM_eq_map (fun budget _ =>
    aggregateMultiAnswerRewards_eq_multiAgg hmulti (scoresAt_ne_nil cfg scorer item budget))

theorem agg_perBudgetRewards (item : Item Token Truth Info) (rs : List ℚ) :
    agg cfg.foRewardAggregation (describeSample cfg tok scorer item rs).perBudgetRewards =
      agg cfg.foRewardAggregation (rs.map (cfg.foBudgetRewardWeight * ·)) := by
  simp only [describeSample]
  split_ifs with h
  · subst h
    rw [agg_singleton, List.map_nil, agg_nil]
  · simp only [mul_comm]

theorem perBudgetRewards_ne_nil (item : Item Token Truth Info) (rs : List ℚ) :
    (describeSample cfg tok scorer item rs).perBudgetRewards ≠ [] := by
  simp only [describeSample]
  split_ifs with h
  · simp
  · simpa using h

/-- With supported modes the function builds the tensor of the reference
rewards and describes every sample by its reference. -/
theorem computeForcedOutputRewards_supported {L : ℕ} (batch : Batch Token Truth Info L)
    (hagg : cfg.foRewardAggregation.Supported) (hmulti : cfg.foMultiAnswerAgg.Supported) :
    ∃ lists, computeForcedOutputRewards cfg tok scorer batch = (do
      let rewardTensor ← createTokenLevelRewardTensor
        (batch.items.map (referenceReward cfg tok scorer)) batch.responseMask
      pure ⟨rewardTensor, ExtraInfos.ofSamples
        (batch.items.map (referenceSample cfg tok scorer))
        (batch.items.map (referenceReward cfg tok scorer)), lists⟩) := by
  have hsample : ∀ item ∈ batch.items, sampleReward cfg tok scorer item =
      .ok (referenceSample cfg tok scorer item, Dict.assign ∅
        ((item.budgets.zip (budgetRewards cfg scorer item)).map
          (fun br => (br.1, br.2 * cfg.foBudgetRewardWeight)))) := by
    intro item _
    rw [sampleReward_eq, rawBudgetRewards_eq cfg scorer hmulti]
    rfl
  have haggregated : aggregateRewardsBatch
      (batch.items.map (fun item => (referenceSample cfg tok scorer item).perBudgetRewards))
      cfg.foRewardAggregation =
      .ok (batch.items.map (fun item => agg cfg.foRewardAggregation
        ((budgetRewards cfg scorer item).map (cfg.foBudgetRewardWeight * ·)))) := by
    rw [aggregateRewardsBatch, mapM_eq_map (g := agg cfg.foRewardAggregation)]
    · rw [List.map_map]
      congr 1
      exact List.map_congr_left (fun item _ => agg_perBudgetRewards cfg tok scorer item _)
    · intro rs hrs
      obtain ⟨item, -, rfl⟩ := List.mem_map.mp hrs
      exact aggregateRewards_eq_agg hagg (perBudgetRewards_ne_nil cfg tok scorer item _)
  have htotal : addNatural cfg
      (batch.items.map (fun item => agg cfg.foRewardAggregation
        ((budgetRewards cfg scorer item).map (cfg.foBudgetRewardWeight * ·))))
      (batch.items.map (fun item => (referenceSample cfg tok scorer item).naturalReward)) =
      batch.items.map (referenceReward cfg tok scorer) := by
    unfold addNatural
    cases hnat : cfg.foIncludeNaturalTrace with
    | true =>
        simp only [if_true, List.zipWith_map, List.zipWith_self]
        refine List.map_congr_left (fun item _ => ?_)
        simp [referenceReward, referenceSample, describeSample, naturalRewardOf, hnat, add_comm]
    | false =>
        refine List.map_congr_left (fun item _ => ?_)
        simp [referenceReward, naturalRewardOf, hnat]
  rw [computeForcedOutputRewards_eq, mapM_eq_map hsample]
  simp only [ok_bind, List.map_map, Function.comp_def, haggregated, htotal]
  exact ⟨_, rfl⟩

theorem extraInfos_of_supported {L : ℕ} {batch : Batch Token Truth Info L}
    (hagg : cfg.foRewardAggregation.Supported) (hmulti : cfg.foMultiAnswerAgg.Supported)
    {out : ForcedOutputRewards L}
    (hout : computeForcedOutputRewards cfg tok scorer batch = .ok out) :
    out.extraInfos = ExtraInfos.ofSamples (batch.items.map (referenceSample cfg tok scorer))
      (batch.items.map (referenceReward cfg tok scorer)) := by
  obtain ⟨lists, heq⟩ := computeForcedOutputRewards_supported cfg tok scorer batch hagg hmulti
  rw [heq] at hout
  obtain ⟨tensor, -, hout⟩ := bind_eq_ok.mp hout
  cases hout
  rfl

/-! ## What a sample's entry depends on -/

def Item.naturalText (item : Item Token Truth Info) : Str :=
  tok.decode (item.responses.take item.naturalTraceLength)

def Item.scoredTexts (item : Item Token Truth Info) : List Str :=
  item.naturalText tok :: item.budgets.flatMap (item.answerTexts cfg)

variable {scorer} {scorer' : Scorer Truth Info} {item : Item Token Truth Info}

theorem scoresAt_congr
    (h : ∀ text ∈ item.scoredTexts cfg tok, scorer' (item.query text) = scorer (item.query text))
    {budget : ℕ} (hb : budget ∈ item.budgets) :
    scoresAt cfg scorer' item budget = scoresAt cfg scorer item budget := by
  refine List.map_congr_left (fun text htext => ?_)
  have hmem : text ∈ item.scoredTexts cfg tok :=
    List.mem_cons_of_mem _ (List.mem_flatMap.mpr ⟨budget, hb, htext⟩)
  simp only [scoreOf, safeComputeScore, h text hmem]

theorem computeNaturalTraceReward_congr
    (h : scorer' (item.query (item.naturalText tok)) = scorer (item.query (item.naturalText tok))) :
    computeNaturalTraceReward tok scorer' item = computeNaturalTraceReward tok scorer item := by
  simp only [Item.naturalText] at h
  simp only [computeNaturalTraceReward, safeComputeScore, h]

theorem referenceSample_congr
    (h : ∀ text ∈ item.scoredTexts cfg tok, scorer' (item.query text) = scorer (item.query text)) :
    referenceSample cfg tok scorer' item = referenceSample cfg tok scorer item := by
  have hscores : ∀ budget ∈ item.budgets,
      scoresAt cfg scorer' item budget = scoresAt cfg scorer item budget :=
    fun _ hb => scoresAt_congr cfg tok h hb
  have hnat := computeNaturalTraceReward_congr tok (h _ List.mem_cons_self)
  have hbudgets : budgetRewards cfg scorer' item = budgetRewards cfg scorer item :=
    List.map_congr_left (fun budget hb => by rw [hscores budget hb])
  have hmc : item.budgets.map (mcAccuracyAt cfg scorer' item) =
      item.budgets.map (mcAccuracyAt cfg scorer item) :=
    List.map_congr_left (fun budget hb => by simp only [mcAccuracyAt, hscores budget hb])
  have hdetails : List.zipWith (detailAt cfg scorer' item) item.budgets
        (budgetRewards cfg scorer item) =
      List.zipWith (detailAt cfg scorer item) item.budgets (budgetRewards cfg scorer item) := by
    rw [← List.map_uncurry_zip_eq_zipWith, ← List.map_uncurry_zip_eq_zipWith]
    refine List.map_congr_left (fun br hbr => ?_)
    have hb := (List.of_mem_zip hbr).1
    simp only [Function.uncurry, detailAt, hscores br.1 hb]
  simp only [referenceSample, describeSample, hbudgets, hnat, hmc, hdetails]

theorem referenceReward_congr
    (h : ∀ text ∈ item.scoredTexts cfg tok, scorer' (item.query text) = scorer (item.query text)) :
    referenceReward cfg tok scorer' item = referenceReward cfg tok scorer item := by
  have hnat := computeNaturalTraceReward_congr tok (h _ List.mem_cons_self)
  have hbudgets : budgetRewards cfg scorer' item = budgetRewards cfg scorer item :=
    List.map_congr_left (fun budget hb => by rw [scoresAt_congr cfg tok h hb])
  simp only [referenceReward, naturalRewardOf, hbudgets, hnat]

end Config

/-! ## The reward function meets the reference -/

/-- Every list has `n` entries. -/
def ExtraInfos.HasSize (infos : ExtraInfos) (n : ℕ) : Prop :=
  infos.forcedOutputNaturalReward.length = n ∧ infos.forcedOutputNaturalCorrect.length = n ∧
  infos.forcedOutputAnyCorrect.length = n ∧ infos.forcedOutputFallback.length = n ∧
  infos.forcedOutputNumComponents.length = n ∧ infos.forcedOutputDetails.length = n ∧
  infos.forcedOutputPerBudgetMean.length = n ∧ infos.forcedOutputAggregatedReward.length = n ∧
  infos.probeMcAccuracies.length = n ∧ infos.probeBudgetPositions.length = n

/-- Entry `i` of every list describes `sample`, whose reward is `reward`. -/
def ExtraInfos.Describes (infos : ExtraInfos) (i : ℕ) (sample : SampleReward) (reward : ℚ) :
    Prop :=
  infos.forcedOutputNaturalReward[i]? = some sample.naturalReward ∧
  infos.forcedOutputNaturalCorrect[i]? = some sample.naturalCorrect ∧
  infos.forcedOutputAnyCorrect[i]? = some sample.anyCorrect ∧
  infos.forcedOutputFallback[i]? = some sample.fallback ∧
  infos.forcedOutputNumComponents[i]? = some sample.numComponents ∧
  infos.forcedOutputDetails[i]? = some sample.details ∧
  infos.forcedOutputPerBudgetMean[i]? = some sample.perBudgetMean ∧
  infos.forcedOutputAggregatedReward[i]? = some reward ∧
  infos.probeMcAccuracies[i]? = some sample.mcAccuracies ∧
  infos.probeBudgetPositions[i]? = some sample.budgetPositions

theorem ofSamples_hasSize {samples : List SampleReward} {total : List ℚ} {n : ℕ}
    (hs : samples.length = n) (ht : total.length = n) :
    (ExtraInfos.ofSamples samples total).HasSize n := by
  simp [ExtraInfos.HasSize, ExtraInfos.ofSamples, hs, ht]

theorem ofSamples_describes {samples : List SampleReward} {total : List ℚ} {i : ℕ}
    {sample : SampleReward} {reward : ℚ} (hs : samples[i]? = some sample)
    (ht : total[i]? = some reward) :
    (ExtraInfos.ofSamples samples total).Describes i sample reward := by
  simp [ExtraInfos.Describes, ExtraInfos.ofSamples, hs, ht]

theorem rewardTensor_ok {L : ℕ} (batch : Batch Token Truth Info L) (rewards : List ℚ)
    (hlen : rewards.length = batch.items.length) (hplace : batch.responseMask.isSome ∨ 0 < L) :
    ∃ tensor, createTokenLevelRewardTensor rewards batch.responseMask = .ok tensor := by
  cases hmask : batch.responseMask with
  | some rows =>
      have hrows := batch.length_responseMask rows (by simp [hmask])
      exact ⟨_, createTokenLevelRewardTensor_eq (by omega)⟩
  | none =>
      have hL : 0 < L := by simpa [hmask] using hplace
      refine ⟨_, mapM_eq_map (g := fun r => Row.single ⟨L - 1, by omega⟩ r.1) ?_⟩
      intro r _
      simp [rewardRow, hL]

/-- With supported modes the function returns, as long as there is a position
to place a reward at. -/
theorem computeForcedOutputRewards_returns (cfg : TrainerConfig) (tok : Tokenizer Token)
    (scorer : Scorer Truth Info) {L : ℕ} (batch : Batch Token Truth Info L)
    (hagg : cfg.foRewardAggregation.Supported) (hmulti : cfg.foMultiAnswerAgg.Supported)
    (hplace : batch.responseMask.isSome ∨ 0 < L) :
    ∃ out, computeForcedOutputRewards cfg tok scorer batch = .ok out := by
  obtain ⟨lists, heq⟩ := computeForcedOutputRewards_supported cfg tok scorer batch hagg hmulti
  obtain ⟨tensor, htensor⟩ := rewardTensor_ok batch
    (batch.items.map (referenceReward cfg tok scorer)) (by simp) hplace
  exact ⟨_, by rw [heq, htensor]; rfl⟩

/-- The reward function returns, and what it returns is the reference: the
aggregated rewards, and every list, sample by sample.  The MC accuracies are
the same under every other weight and every other pair of modes, and the
entries of a sample are the same under every scorer that agrees on the texts
of that sample. -/
theorem forcedOutputRewards_eq_reference (cfg : TrainerConfig) (tok : Tokenizer Token)
    (scorer : Scorer Truth Info) {L : ℕ} (batch : Batch Token Truth Info L)
    (hagg : cfg.foRewardAggregation.Supported) (hmulti : cfg.foMultiAnswerAgg.Supported) :
    (batch.responseMask.isSome ∨ 0 < L →
      ∃ out, computeForcedOutputRewards cfg tok scorer batch = .ok out) ∧
    ∀ out, computeForcedOutputRewards cfg tok scorer batch = .ok out →
      out.extraInfos.forcedOutputAggregatedReward =
        batch.items.map (referenceReward cfg tok scorer) ∧
      out.extraInfos.HasSize batch.items.length ∧
      (∀ i item, batch.items[i]? = some item → out.extraInfos.Describes i
        (referenceSample cfg tok scorer item) (referenceReward cfg tok scorer item)) ∧
      (∀ cfg' : TrainerConfig, cfg'.foNumForcedAnswers = cfg.foNumForcedAnswers → ∀ out',
        computeForcedOutputRewards cfg' tok scorer batch = .ok out' →
          out'.extraInfos.probeMcAccuracies = out.extraInfos.probeMcAccuracies) ∧
      (∀ scorer' out', computeForcedOutputRewards cfg tok scorer' batch = .ok out' →
        ∀ i item, batch.items[i]? = some item →
          (∀ text ∈ item.scoredTexts cfg tok,
            scorer' (item.query text) = scorer (item.query text)) →
          out'.extraInfos.Describes i (referenceSample cfg tok scorer item)
            (referenceReward cfg tok scorer item)) := by
  refine ⟨computeForcedOutputRewards_returns cfg tok scorer batch hagg hmulti,
    fun out hout => ⟨?_, ?_, ?_, ?_, ?_⟩⟩
  · rw [extraInfos_of_supported cfg tok scorer hagg hmulti hout]
    rfl
  · rw [extraInfos_of_supported cfg tok scorer hagg hmulti hout]
    exact ofSamples_hasSize (by simp) (by simp)
  · intro i item hitem
    rw [extraInfos_of_supported cfg tok scorer hagg hmulti hout]
    exact ofSamples_describes (by simp [hitem]) (by simp [hitem])
  · intro cfg' hn out' hout'
    rw [(probeLists_of_ok cfg' tok scorer hout').1, (probeLists_of_ok cfg tok scorer hout).1]
    -- An MC accuracy reads the number of answers and nothing else of the configuration.
    refine List.map_congr_left (fun item _ => List.map_congr_left (fun budget _ => ?_))
    simp only [mcAccuracyAt, scoresAt, Item.answerTexts, hn]
  · intro scorer' out' hout' i item hitem hagree
    rw [extraInfos_of_supported cfg tok scorer' hagg hmulti hout',
      ← referenceSample_congr cfg tok hagree, ← referenceReward_congr cfg tok hagree]
    exact ofSamples_describes (by simp [hitem]) (by simp [hitem])

/-- Two budgets with two answers each, weight `1 / 2`; one scorer call
raises. -/
def twoBudgetItem : Item Char Unit Unit where
  groundTruth := none
  dataSource := none
  extraInfo := none
  promptLength := 1
  attentionMask := [1, 1, 1]
  responses := ['x', 'y']
  traceLength := some 2
  forcedFullTexts := some (Dict.assign ∅ [(1, "a".toList), (2, "c".toList)])
  forcedFullTextsMulti := some (Dict.assign ∅
    [(1, ["a".toList, "b".toList]), (2, ["c".toList, "d".toList])])
  budgetCheckpoints := some [1, 2]
  ascending := by
    intro budgets h
    obtain rfl := Option.mem_some_iff.mp h
    decide

/-- The natural reward is `1`, the two budgets give `1 / 2` and `1`. -/
theorem forcedOutputRewards_eq_reference_twoBudgets :
    ∃ out, computeForcedOutputRewards
        ⟨.linearWeighted, 2, .mean, true, 1 / 2, [.int 1, .int 2]⟩
        ⟨id, id, 'e'⟩
        (fun query => if query.solutionStr = "b".toList then .raised else .number 1)
        (⟨[twoBudgetItem], some [fun _ => 1], by simp⟩ : Batch Char Unit Unit 2) = .ok out ∧
      out.extraInfos.forcedOutputAggregatedReward =
        [1 + (1 / 3 * (1 / 2 * (1 / 2)) + 2 / 3 * (1 / 2 * 1))] := by
  obtain ⟨hret, hall⟩ := forcedOutputRewards_eq_reference
    ⟨.linearWeighted, 2, .mean, true, 1 / 2, [.int 1, .int 2]⟩ ⟨id, id, 'e'⟩
    (fun query => if query.solutionStr = "b".toList then .raised else .number 1)
    (⟨[twoBudgetItem], some [fun _ => 1], by simp⟩ : Batch Char Unit Unit 2) trivial trivial
  obtain ⟨out, hout⟩ := hret (Or.inl rfl)
  refine ⟨out, hout, ?_⟩
  rw [(hall out hout).1]
  decide +kernel

end RLCM.ForcedOutput
