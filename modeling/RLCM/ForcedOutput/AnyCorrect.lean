/-
# `RLCM.ForcedOutput.AnyCorrect` — what the solved counters count

`forced_output_any_correct` overrides the score-based correctness in
`compute_solved_metrics`.  Its name says that some text of the sample was
correct.  The code decides it from the budget rewards, after they were
aggregated over the answers and multiplied by the budget weight.

`solvedAsNamed_iff` says when flag and counters mean what they are called: for
every sample without a correct natural trace the weighted aggregates must have
kept the sign of a correct answer (`WeightKeepsSign`).
-/
import RLCM.ForcedOutput.RewardReference
import RLCM.ForcedOutput.GroupStats

namespace RLCM.ForcedOutput

open Py Stats

variable {Token Truth Info Uid : Type} [DecidableEq Uid] {L : ℕ}

/-! ## Correct texts -/

section Config

variable (cfg : TrainerConfig) (tok : Tokenizer Token) (scorer : Scorer Truth Info)

def NaturalTextCorrect (item : Item Token Truth Info) : Prop :=
  cfg.foIncludeNaturalTrace = true ∧ item.naturalTraceLength ≠ 0 ∧
    0 < scoreOf scorer item (item.naturalText tok)

/-- A forced answer of the sample is correct. -/
def AnswerCorrect (item : Item Token Truth Info) : Prop :=
  ∃ budget ∈ item.budgets, ∃ text ∈ item.answerTexts cfg budget, 0 < scoreOf scorer item text

/-- A scored text of the sample is correct. -/
def SomeTextCorrect (item : Item Token Truth Info) : Prop :=
  NaturalTextCorrect cfg tok scorer item ∨ AnswerCorrect cfg scorer item

instance (item : Item Token Truth Info) : Decidable (NaturalTextCorrect cfg tok scorer item) :=
  inferInstanceAs (Decidable (_ ∧ _))

instance (item : Item Token Truth Info) : Decidable (AnswerCorrect cfg scorer item) :=
  inferInstanceAs (Decidable (∃ budget ∈ item.budgets, _))

instance (item : Item Token Truth Info) : Decidable (SomeTextCorrect cfg tok scorer item) :=
  inferInstanceAs (Decidable (_ ∨ _))

/-- The weighted aggregates say whether an answer is correct.  With a positive
weight the correct answers of some budget outweigh the others; with weight zero
no answer is correct; with a negative weight an answer is correct exactly when
some aggregate is negative. -/
def WeightKeepsSign (item : Item Token Truth Info) : Prop :=
  (0 < cfg.foBudgetRewardWeight → AnswerCorrect cfg scorer item →
    ∃ budget ∈ item.budgets, 0 < aggregatedScore cfg scorer item budget) ∧
  (cfg.foBudgetRewardWeight = 0 → ¬ AnswerCorrect cfg scorer item) ∧
  (cfg.foBudgetRewardWeight < 0 → (AnswerCorrect cfg scorer item ↔
    ∃ budget ∈ item.budgets, aggregatedScore cfg scorer item budget < 0))

/-! ## Aggregates -/

theorem maxOf_pos_iff {xs : List ℚ} : 0 < maxOf xs ↔ ∃ x ∈ xs, 0 < x := by
  cases xs with
  | nil => simp [maxOf]
  | cons r xs =>
      have hmax : (r :: xs).max? = some (maxOf (r :: xs)) := rfl
      obtain ⟨hmem, hle⟩ := List.max?_eq_some_iff.mp hmax
      constructor
      · intro h
        exact ⟨_, hmem, h⟩
      · rintro ⟨x, hx, hpos⟩
        exact lt_of_lt_of_le hpos (hle x hx)

theorem multiAgg_pos {method : MultiAnswerAggregation} {xs : List ℚ}
    (h : 0 < multiAgg method xs) : ∃ x ∈ xs, 0 < x := by
  cases method with
  | mean => exact exists_pos_of_mean_pos h
  | max => exact maxOf_pos_iff.mp h
  | other name => exact exists_pos_of_mean_pos h

theorem answerCorrect_iff (item : Item Token Truth Info) :
    AnswerCorrect cfg scorer item ↔
      ∃ budget ∈ item.budgets, ∃ s ∈ scoresAt cfg scorer item budget, 0 < s := by
  simp only [AnswerCorrect, scoresAt, List.mem_map]
  constructor
  · rintro ⟨budget, hb, text, htext, hpos⟩
    exact ⟨budget, hb, _, ⟨text, htext, rfl⟩, hpos⟩
  · rintro ⟨budget, hb, _, ⟨text, htext, rfl⟩, hpos⟩
    exact ⟨budget, hb, text, htext, hpos⟩

/-- A positive weighted aggregate says that an answer is correct, and the other
way round, exactly when the weights keep the sign. -/
theorem weightKeepsSign_iff (item : Item Token Truth Info) :
    WeightKeepsSign cfg scorer item ↔
      ((∃ budget ∈ item.budgets,
          0 < aggregatedScore cfg scorer item budget * cfg.foBudgetRewardWeight) ↔
        AnswerCorrect cfg scorer item) := by
  have hcorrect : (∃ budget ∈ item.budgets, 0 < aggregatedScore cfg scorer item budget) →
      AnswerCorrect cfg scorer item := by
    rintro ⟨budget, hb, hpos⟩
    exact (answerCorrect_iff cfg scorer item).mpr ⟨budget, hb, multiAgg_pos hpos⟩
  unfold WeightKeepsSign
  rcases lt_trichotomy cfg.foBudgetRewardWeight 0 with hneg | hzero | hpos
  · have hsign : ∀ x : ℚ, 0 < x * cfg.foBudgetRewardWeight ↔ x < 0 :=
      fun x => ⟨fun h => neg_of_mul_pos_left h hneg.le, fun h => mul_pos_of_neg_of_neg h hneg⟩
    simp only [hsign, hneg, hneg.ne, not_lt.mpr hneg.le, false_imp_iff, true_imp_iff, true_and]
    exact iff_comm
  · simp [hzero]
  · simp only [mul_pos_iff_of_pos_right hpos, hpos, hpos.ne', not_lt.mpr hpos.le,
      false_imp_iff, true_imp_iff, and_true]
    exact ⟨fun h => ⟨hcorrect, h⟩, fun h => h.mpr⟩

theorem weight_of_start {settings : FitSettings} {started : FitConfig}
    (h : settings.start = .ok started) (hinclude : settings.includeBudgetReward = false) :
    started.trainer.foBudgetRewardWeight = 0 := by
  unfold FitSettings.start at h
  simp only [hinclude] at h
  split_ifs at h with _ _ _ hfalse
  · cases hfalse
  · cases h
    rfl

theorem weightKeepsSign_of_zero (hzero : cfg.foBudgetRewardWeight = 0)
    (item : Item Token Truth Info) :
    WeightKeepsSign cfg scorer item ↔ ¬ AnswerCorrect cfg scorer item := by
  refine ⟨fun h => h.2.1 hzero, fun h => ⟨fun hpos => ?_, fun _ => h, fun hneg => ?_⟩⟩
  · exact absurd hpos (by simp [hzero])
  · exact absurd hneg (by simp [hzero])

theorem weightKeepsSign_of_max (hweight : 0 < cfg.foBudgetRewardWeight)
    (hmax : cfg.foMultiAnswerAgg = .max) (item : Item Token Truth Info) :
    WeightKeepsSign cfg scorer item := by
  refine ⟨fun _ h => ?_, fun hzero => absurd hzero hweight.ne',
    fun hneg => absurd hneg (not_lt.mpr hweight.le)⟩
  obtain ⟨budget, hb, hscore⟩ := (answerCorrect_iff cfg scorer item).mp h
  refine ⟨budget, hb, ?_⟩
  rw [aggregatedScore, hmax]
  exact maxOf_pos_iff.mpr hscore

theorem weightKeepsSign_of_single (hweight : 0 < cfg.foBudgetRewardWeight)
    {item : Item Token Truth Info}
    (hsingle : ∀ budget ∈ item.budgets, ∃ s, scoresAt cfg scorer item budget = [s]) :
    WeightKeepsSign cfg scorer item := by
  refine ⟨fun _ h => ?_, fun hzero => absurd hzero hweight.ne',
    fun hneg => absurd hneg (not_lt.mpr hweight.le)⟩
  obtain ⟨budget, hb, s, hs, hpos⟩ := (answerCorrect_iff cfg scorer item).mp h
  obtain ⟨t, ht⟩ := hsingle budget hb
  rw [ht] at hs
  obtain rfl := List.mem_singleton.mp hs
  refine ⟨budget, hb, ?_⟩
  rw [aggregatedScore, ht, multiAgg_singleton]
  exact hpos

/-! ## The flag of a sample -/

theorem naturalRewardOf_pos_iff (item : Item Token Truth Info) :
    (naturalRewardOf cfg tok scorer item).any (0 < ·) = true ↔
      NaturalTextCorrect cfg tok scorer item := by
  unfold naturalRewardOf NaturalTextCorrect computeNaturalTraceReward
  cases cfg.foIncludeNaturalTrace with
  | false => simp
  | true =>
      by_cases hlen : item.naturalTraceLength = 0
      · simp [hlen]
      · simp [hlen, scoreOf, Item.naturalText]

theorem anyCorrect_iff {item : Item Token Truth Info} {rs : List ℚ}
    (h : rawBudgetRewards cfg scorer item = .ok rs) :
    (describeSample cfg tok scorer item rs).anyCorrect = true ↔
      NaturalTextCorrect cfg tok scorer item ∨
        ∃ budget ∈ item.budgets,
          0 < aggregatedScore cfg scorer item budget * cfg.foBudgetRewardWeight := by
  have hnatural := naturalRewardOf_pos_iff cfg tok scorer item
  have hbudgets : (if rs = [] then [0] else rs.map (· * cfg.foBudgetRewardWeight)).any (0 < ·) =
      true ↔ ∃ budget ∈ item.budgets,
        0 < aggregatedScore cfg scorer item budget * cfg.foBudgetRewardWeight := by
    rw [rawBudgetRewards_of_ok cfg scorer h]
    cases item.budgets with
    | nil => simp
    | cons budget budgets => simp
  unfold naturalRewardOf at hnatural
  simp only [describeSample, Bool.or_eq_true]
  rw [hbudgets, hnatural, or_comm]

theorem anyCorrect_of_ok {batch : Batch Token Truth Info L} {out : ForcedOutputRewards L}
    (h : computeForcedOutputRewards cfg tok scorer batch = .ok out) :
    out.extraInfos.forcedOutputAnyCorrect = batch.items.map (fun item =>
      decide (NaturalTextCorrect cfg tok scorer item ∨ ∃ budget ∈ item.budgets,
        0 < aggregatedScore cfg scorer item budget * cfg.foBudgetRewardWeight)) := by
  obtain ⟨samples, total, hsamples, hextra, -, -⟩ := extraInfos_of_ok cfg tok scorer h
  rw [hextra]
  refine map_eq_of_forall₂ hsamples ?_
  rintro item sample ⟨rs, hrs, rfl⟩
  rw [Bool.eq_iff_iff, decide_eq_true_eq]
  exact anyCorrect_iff cfg tok scorer hrs

/-! ## Flags and counters -/

/-- The samples of a prompt group. -/
def groupItems (uids : List Uid) (items : List (Item Token Truth Info)) (g : Uid) :
    List (Item Token Truth Info) :=
  Dict.valuesAt (uids.zip items) g

/-- The flag of a sample says whether a scored text of it is correct; a prompt
group counts as solved by all if every sample of it has a correct text, and as
solved by none if no sample has one. -/
def SolvedAsNamed (uids : List Uid) (batch : Batch Token Truth Info L)
    (out : ForcedOutputRewards L) : Prop :=
  (∀ (i : ℕ) item, batch.items[i]? = some item →
    (out.extraInfos.forcedOutputAnyCorrect[i]? = some true ↔
      SomeTextCorrect cfg tok scorer item)) ∧
  computeSolvedMetrics (some uids) (some out.extraInfos.forcedOutputAnyCorrect)
      (some out.rewardTensor) 0 =
    some ⟨uids.dedup.countP (fun g => decide (∀ item ∈ groupItems uids batch.items g,
        SomeTextCorrect cfg tok scorer item)),
      uids.dedup.countP (fun g => decide (∀ item ∈ groupItems uids batch.items g,
        ¬ SomeTextCorrect cfg tok scorer item))⟩

end Config

/-- The counters for flags that are a property of the samples. -/
theorem solvedCounts_map {uids : List Uid} {items : List (Item Token Truth Info)}
    (hlen : uids.length = items.length) (p : Item Token Truth Info → Prop) [DecidablePred p] :
    solvedCounts uids (items.map (fun item => decide (p item))) =
      ⟨uids.dedup.countP (fun g => decide (∀ item ∈ groupItems uids items g, p item)),
        uids.dedup.countP (fun g => decide (∀ item ∈ groupItems uids items g, ¬ p item))⟩ := by
  have hgroup : ∀ g, groupCorrect uids (items.map (fun item => decide (p item))) g =
      (groupItems uids items g).map (fun item => decide (p item)) :=
    fun g => Dict.valuesAt_zip_map uids items _ g
  have hall : ∀ g, allCorrect uids (items.map (fun item => decide (p item))) g =
      decide (∀ item ∈ groupItems uids items g, p item) := by
    intro g
    rw [allCorrect, hgroup, Bool.eq_iff_iff]
    simp
  have hnone : ∀ g ∈ uids.dedup, noneCorrect uids (items.map (fun item => decide (p item))) g =
      decide (∀ item ∈ groupItems uids items g, ¬ p item) := by
    intro g hg
    have hne : groupItems uids items g ≠ [] := by
      intro hnil
      have hlen' : uids.length = (items.map (fun item => decide (p item))).length := by
        simpa using hlen
      refine groupCorrect_ne_nil hlen' (List.mem_dedup.mp hg) ?_
      rw [hgroup, hnil, List.map_nil]
    obtain ⟨item, hitem⟩ := List.exists_mem_of_ne_nil _ hne
    rw [noneCorrect, hall, hgroup, Bool.eq_iff_iff]
    simp only [Bool.and_eq_true, Bool.not_eq_true', decide_eq_false_iff_not, List.any_map,
      List.any_eq_false, decide_eq_true_eq, Function.comp_apply, id_eq]
    exact ⟨fun h => h.2, fun h => ⟨fun hp => h item hitem (hp item hitem), h⟩⟩
  rw [solvedCounts_eq]
  congr 1
  · exact List.countP_congr (fun g _ => by rw [hall])
  · exact List.countP_congr (fun g hg => by rw [hnone g hg])

/-- Flag and counters mean what they are called exactly when, for every sample
without a correct natural trace, the weighted aggregates keep the sign of a
correct answer. -/
theorem solvedAsNamed_iff {cfg : TrainerConfig} {tok : Tokenizer Token}
    {scorer : Scorer Truth Info} {uids : List Uid} {batch : Batch Token Truth Info L}
    {out : ForcedOutputRewards L} (huids : uids.length = batch.items.length)
    (hout : computeForcedOutputRewards cfg tok scorer batch = .ok out) :
    SolvedAsNamed cfg tok scorer uids batch out ↔
      ∀ item ∈ batch.items, NaturalTextCorrect cfg tok scorer item ∨
        WeightKeepsSign cfg scorer item := by
  have hflags := anyCorrect_of_ok cfg tok scorer hout
  -- sample by sample the flag is right or the sign was lost
  have hsample : ∀ item : Item Token Truth Info,
      ((NaturalTextCorrect cfg tok scorer item ∨ ∃ budget ∈ item.budgets,
          0 < aggregatedScore cfg scorer item budget * cfg.foBudgetRewardWeight) ↔
        SomeTextCorrect cfg tok scorer item) ↔
      (NaturalTextCorrect cfg tok scorer item ∨ WeightKeepsSign cfg scorer item) := by
    intro item
    rw [weightKeepsSign_iff, SomeTextCorrect]
    by_cases hnat : NaturalTextCorrect cfg tok scorer item
    · simp [hnat]
    · simp [hnat]
  have hget : ∀ (i : ℕ) item, batch.items[i]? = some item →
      (out.extraInfos.forcedOutputAnyCorrect[i]? = some true ↔
        (NaturalTextCorrect cfg tok scorer item ∨ ∃ budget ∈ item.budgets,
          0 < aggregatedScore cfg scorer item budget * cfg.foBudgetRewardWeight)) := by
    intro i item hi
    rw [hflags, List.getElem?_map, hi, Option.map_some, Option.some_inj, decide_eq_true_eq]
  constructor
  · rintro ⟨hall, -⟩ item hitem
    obtain ⟨i, hi⟩ := List.mem_iff_getElem?.mp hitem
    exact (hsample item).mp ((hget i item hi).symm.trans (hall i item hi))
  · intro hall
    refine ⟨fun i item hi => ?_, ?_⟩
    · exact (hget i item hi).trans ((hsample item).mpr (hall item (List.mem_of_getElem? hi)))
    · have hmap : out.extraInfos.forcedOutputAnyCorrect =
          batch.items.map (fun item => decide (SomeTextCorrect cfg tok scorer item)) := by
        rw [hflags]
        refine List.map_congr_left (fun item hitem => ?_)
        rw [decide_eq_decide]
        exact (hsample item).mpr (hall item hitem)
      rw [computeSolvedMetrics_of_flags (by rw [hmap, List.length_map, huids]), hmap,
        solvedCounts_map huids]

/-! ## The launch script

Budget weight 0, natural traces scored: one sample whose natural trace is wrong
and whose forced answer is right. -/

/-- The trainer settings of the launch script, with one budget. -/
def zeroWeightConfig : TrainerConfig := ⟨.mean, 4, .mean, true, 0, [.float (1 / 2)]⟩

theorem ascending_one : ∀ budgets ∈ some [1], StrictAsc budgets := by
  intro budgets h
  obtain rfl := Option.mem_some_iff.mp h
  exact List.pairwise_singleton _ _

/-- A natural trace of two tokens, cut after the first. -/
def halfTraceItem : Item Char Unit Unit where
  groundTruth := none
  dataSource := none
  extraInfo := none
  promptLength := 0
  attentionMask := [1, 1]
  responses := ['x', 'y']
  traceLength := some 2
  forcedFullTexts := some (Dict.assign ∅ [(1, "x4".toList)])
  forcedFullTextsMulti := none
  budgetCheckpoints := some [1]
  ascending := ascending_one

/-- The answer is `4`. -/
def fourScorer : Scorer Unit Unit := fun query =>
  if query.solutionStr = "x4".toList then .number 1 else .number (-1)

def halfTraceBatch : Batch Char Unit Unit 2 :=
  ⟨[halfTraceItem], some [fun _ => 1], by simp⟩

theorem solvedAsNamed_iff_zeroWeight :
    ∃ out, computeForcedOutputRewards zeroWeightConfig ⟨id, id, 'e'⟩ fourScorer halfTraceBatch =
        .ok out ∧
      (SolvedAsNamed zeroWeightConfig ⟨id, id, 'e'⟩ fourScorer [0] halfTraceBatch out ↔
        ∀ item ∈ halfTraceBatch.items,
          NaturalTextCorrect zeroWeightConfig ⟨id, id, 'e'⟩ fourScorer item ∨
            WeightKeepsSign zeroWeightConfig fourScorer item) := by
  obtain ⟨out, hout⟩ := computeForcedOutputRewards_returns zeroWeightConfig ⟨id, id, 'e'⟩
    fourScorer halfTraceBatch trivial trivial (Or.inl rfl)
  exact ⟨out, hout, solvedAsNamed_iff rfl hout⟩

/-- The forced answer is correct, and the group counts as solved by none. -/
theorem zeroWeight_solved_none :
    AnswerCorrect zeroWeightConfig fourScorer halfTraceItem ∧
      ∃ out, computeForcedOutputRewards zeroWeightConfig ⟨id, id, 'e'⟩ fourScorer
          halfTraceBatch = .ok out ∧
        ¬ SolvedAsNamed zeroWeightConfig ⟨id, id, 'e'⟩ fourScorer [0] halfTraceBatch out := by
  have hanswer : AnswerCorrect zeroWeightConfig fourScorer halfTraceItem := by decide +kernel
  obtain ⟨out, hout⟩ := computeForcedOutputRewards_returns zeroWeightConfig ⟨id, id, 'e'⟩
    fourScorer halfTraceBatch trivial trivial (Or.inl rfl)
  refine ⟨hanswer, out, hout, fun hnamed => ?_⟩
  have hflag := (hnamed.1 0 halfTraceItem rfl).mpr (Or.inr hanswer)
  rw [anyCorrect_of_ok _ _ _ hout] at hflag
  exact absurd hflag (by decide +kernel)

end RLCM.ForcedOutput
