/-
# `RLCM.ForcedOutput.ProbePairs` — the pairs the probe is trained on

The whole chain from a batch of traces to the training pairs of the probe: the
agent loop generates and stores the forced answers of each trace, the batch
carries its `extra_fields`, the trainer scores them, and `collect_probe_data`
pairs hidden states with accuracies.

`probePairs_eq` says that a pair is what it should be: the features of a sample
at a budget, with the fraction of the answers generated at that budget, for
that sample, that scored positive.
-/
import RLCM.ForcedOutput.RewardReference
import RLCM.ForcedOutput.ProbeBatch
import RLCM.ForcedOutput.ForcedPrompt

namespace RLCM.ForcedOutput

open Py Stats

variable {Token Truth Info : Type} [DecidableEq Token] {d : ℕ}

/-- A sample before phase 2: its trace, the generator its requests meet, and
the columns of the batch that phase 2 does not touch. -/
structure TraceSample (Token Truth Info : Type) (d : ℕ) where
  promptIds : List Token
  thinkingOutput : ThinkingOutput Token
  generate : ℕ → List Token → List Token
  groundTruth : Option Truth
  dataSource : Option Str
  extraInfo : Option (Dict Str Info)
  promptLength : ℕ
  attentionMask : List ℕ
  responses : List Token
  hiddenStates : List (Features d)

/-- The batch row of a sample after the agent loop: `_postprocess` copies
`extra_fields` into the columns of the batch. -/
def TraceSample.item (sample : TraceSample Token Truth Info d) (out : AgentLoopOutput Token) :
    Item Token Truth Info where
  groundTruth := sample.groundTruth
  dataSource := sample.dataSource
  extraInfo := sample.extraInfo
  promptLength := sample.promptLength
  attentionMask := sample.attentionMask
  responses := sample.responses
  traceLength := some out.extraFields.traceLength
  forcedFullTexts := some out.extraFields.forcedFullTexts
  forcedFullTextsMulti := some out.extraFields.forcedFullTextsMulti
  budgetCheckpoints := some out.extraFields.budgetCheckpoints
  ascending := by
    intro budgets h
    obtain rfl := Option.mem_some_iff.mp h
    exact out.extraFields.ascending

section Chain

variable (tok : Tokenizer Token) (agentCfg : AgentLoopConfig)

/-- The rows of a batch after the agent loop. -/
def rolloutItems (samples : List (TraceSample Token Truth Info d)) :
    Except Error (List (Item Token Truth Info)) :=
  samples.mapM (fun sample => do
    let out ← run tok agentCfg sample.promptIds sample.thinkingOutput sample.generate
    pure (sample.item out))

def TraceSample.budgets (sample : TraceSample Token Truth Info d) : List ℕ :=
  budgetsOf agentCfg sample.thinkingOutput.tokenIds

/-- The full text of answer `ansIdx` generated from the prompt cut at
`budget`. -/
def TraceSample.answerText (sample : TraceSample Token Truth Info d) (budget ansIdx : ℕ) : Str :=
  fullText tok agentCfg sample.thinkingOutput.tokenIds budget
    (tok.decode (forcedAnswer tok agentCfg sample.promptIds sample.thinkingOutput.tokenIds
      sample.generate budget ansIdx))

def TraceSample.scoreOf (sample : TraceSample Token Truth Info d) (scorer : Scorer Truth Info)
    (text : Str) : ℚ :=
  (safeComputeScore scorer
    { dataSource := sample.dataSource.getD "unknown".toList
      solutionStr := text
      groundTruth := sample.groundTruth
      extraInfo := sample.extraInfo.getD ∅ }).1

/-- The fraction of the answers generated at a budget that score positive. -/
def TraceSample.accuracyAt (sample : TraceSample Token Truth Info d) (scorer : Scorer Truth Info)
    (budget : ℕ) : ℚ :=
  (List.range agentCfg.numForcedAnswers).countP
      (fun ansIdx => 0 < sample.scoreOf scorer (sample.answerText tok agentCfg budget ansIdx)) /
    agentCfg.numForcedAnswers

/-! ## From the agent loop to the scored texts -/

/-- What the row of a sample holds after the agent loop. -/
structure RowOf (sample : TraceSample Token Truth Info d) (item : Item Token Truth Info) :
    Prop where
  groundTruth : item.groundTruth = sample.groundTruth
  dataSource : item.dataSource = sample.dataSource
  extraInfo : item.extraInfo = sample.extraInfo
  budgets : item.budgets = sample.budgets agentCfg
  texts : ∀ budget ∈ sample.budgets agentCfg, ∀ cfg : TrainerConfig,
    cfg.foNumForcedAnswers = agentCfg.numForcedAnswers →
      item.answerTexts cfg budget =
        (List.range agentCfg.numForcedAnswers).map (sample.answerText tok agentCfg budget)

/-- The row holds, under each budget, the texts of that budget's answers, on
the single-answer path as on the multi-answer path. -/
theorem rowOf_run (sample : TraceSample Token Truth Info d)
    (hn : 1 ≤ agentCfg.numForcedAnswers) :
    ∃ out, run tok agentCfg sample.promptIds sample.thinkingOutput sample.generate = .ok out ∧
      RowOf tok agentCfg sample (sample.item out) := by
  obtain ⟨out, hout, hbudgets, -, hdict⟩ :=
    run_ok tok agentCfg sample.promptIds sample.generate sample.thinkingOutput hn
  have hforced : (sample.item out).hasForcedOutputs = true := rfl
  refine ⟨out, hout, ⟨rfl, rfl, rfl, ?_, fun budget hb cfg hcfg => ?_⟩⟩
  · rw [Item.budgets, if_pos hforced]
    exact hbudgets
  · obtain ⟨hmulti, hsingle⟩ := hdict budget hb
    have htexts : forcedFullTextsAt tok agentCfg sample.promptIds
        sample.thinkingOutput.tokenIds sample.generate budget =
          (List.range agentCfg.numForcedAnswers).map (sample.answerText tok agentCfg budget) :=
      rfl
    have hmultiD : out.extraFields.forcedFullTextsMulti.getD budget [] =
        (List.range agentCfg.numForcedAnswers).map (sample.answerText tok agentCfg budget) := by
      rw [Dict.getD, hmulti, Option.getD_some, htexts]
    have hne : (List.range agentCfg.numForcedAnswers).map
        (sample.answerText tok agentCfg budget) ≠ [] := by
      intro hnil
      have := congrArg List.length hnil
      simp only [List.length_map, List.length_range, List.length_nil] at this
      omega
    have hsome : (sample.item out).fullTextsMulti = some out.extraFields.forcedFullTextsMulti := by
      rw [Item.fullTextsMulti, if_pos hforced]
      rfl
    unfold Item.answerTexts
    rw [hsome, hcfg]
    by_cases hmany : 1 < agentCfg.numForcedAnswers
    · simp only [Option.filter, hmany, decide_true, if_true, hmultiD, if_neg hne]
    · have hone : agentCfg.numForcedAnswers = 1 := by omega
      have hfull : (sample.item out).fullTexts = out.extraFields.forcedFullTexts := by
        rw [Item.fullTexts, if_pos hforced]
        rfl
      simp only [Option.filter, hone, lt_irrefl, decide_false, Bool.false_eq_true, if_false,
        hfull, Dict.getD, hsingle, Option.getD_some, htexts, List.range_one, List.map_cons,
        List.map_nil, List.headD_cons]

theorem mcAccuracyAt_eq {sample : TraceSample Token Truth Info d} {item : Item Token Truth Info}
    (hrow : RowOf tok agentCfg sample item) {cfg : TrainerConfig}
    (hcfg : cfg.foNumForcedAnswers = agentCfg.numForcedAnswers) (scorer : Scorer Truth Info)
    {budget : ℕ} (hb : budget ∈ sample.budgets agentCfg) :
    mcAccuracyAt cfg scorer item budget = sample.accuracyAt tok agentCfg scorer budget := by
  have hscore : ∀ text, scoreOf scorer item text = sample.scoreOf scorer text := by
    intro text
    simp only [scoreOf, TraceSample.scoreOf, Item.query, hrow.groundTruth, hrow.dataSource,
      hrow.extraInfo]
  simp only [mcAccuracyAt, scoresAt, hrow.texts budget hb cfg hcfg, List.length_map,
    List.length_range, List.countP_map, TraceSample.accuracyAt, Function.comp_def, hscore]

/-! ## The chain -/

def TraceSample.probeSample (sample : TraceSample Token Truth Info d)
    (scorer : Scorer Truth Info) : ProbeSample d where
  hiddenStates := sample.hiddenStates
  promptLength := sample.promptLength
  budgets := sample.budgets agentCfg
  mcAccuracies := (sample.budgets agentCfg).map (sample.accuracyAt tok agentCfg scorer)
  naturalCorrect := false
  length_mcAccuracies := by simp

theorem rolloutItems_ok (samples : List (TraceSample Token Truth Info d))
    (hn : 1 ≤ agentCfg.numForcedAnswers) :
    ∃ items, rolloutItems tok agentCfg samples = .ok items ∧
      List.Forall₂ (RowOf tok agentCfg) samples items := by
  induction samples with
  | nil => exact ⟨[], rfl, .nil⟩
  | cons sample samples ih =>
      obtain ⟨items, hitems, hrows⟩ := ih
      obtain ⟨out, hout, hrow⟩ := rowOf_run tok agentCfg sample hn
      refine ⟨sample.item out :: items, ?_, .cons hrow hrows⟩
      simp only [rolloutItems, pure_eq_ok] at hitems ⊢
      simp [List.mapM_cons, hout, hitems]

end Chain

/-- From the agent loop to the training pairs: positions are the strictly
ascending cut points, accuracies are the fractions of positive answers, and
`collect_probe_data` returns one row for every sample and budget, in order. -/
theorem probePairs_eq (tok : Tokenizer Token) (agentCfg : AgentLoopConfig) (cfg : TrainerConfig)
    (probeCfg : ProbeConfig) (scorer : Scorer Truth Info)
    (samples : List (TraceSample Token Truth Info d)) (L : ℕ)
    (hn : 1 ≤ agentCfg.numForcedAnswers)
    (hcfg : cfg.foNumForcedAnswers = agentCfg.numForcedAnswers) :
    ∃ items, rolloutItems tok agentCfg samples = .ok items ∧
      ∀ batch : Batch Token Truth Info L, batch.items = items →
        (cfg.foRewardAggregation.Supported → cfg.foMultiAnswerAgg.Supported →
          (batch.responseMask.isSome ∨ 0 < L) →
            ∃ out, computeForcedOutputRewards cfg tok scorer batch = .ok out) ∧
        ∀ out, computeForcedOutputRewards cfg tok scorer batch = .ok out →
          (∀ sample ∈ samples, StrictAsc (sample.budgets agentCfg)) ∧
          out.extraInfos.probeBudgetPositions =
            samples.map (TraceSample.budgets agentCfg) ∧
          out.extraInfos.probeMcAccuracies =
            samples.map (fun sample => (sample.budgets agentCfg).map
              (sample.accuracyAt tok agentCfg scorer)) ∧
          ∃ features targets,
            collectProbeData probeCfg (samples.map TraceSample.hiddenStates)
              (samples.map TraceSample.promptLength) out.extraInfos.probeBudgetPositions
              out.extraInfos.probeMcAccuracies = .ok (features, targets) ∧
            features.length = targets.length ∧
            features.zip targets = samples.flatMap (fun sample =>
              (sample.budgets agentCfg).map (fun budget =>
                (budgetHiddenState sample.hiddenStates sample.promptLength probeCfg.avgLastK
                  budget, sample.accuracyAt tok agentCfg scorer budget))) := by
  obtain ⟨items, hitems, hrows⟩ := rolloutItems_ok tok agentCfg samples hn
  refine ⟨items, hitems, fun batch hbatch =>
    ⟨computeForcedOutputRewards_returns cfg tok scorer batch, fun out hout => ?_⟩⟩
  obtain ⟨haccs, hpositions⟩ := probeLists_of_ok cfg tok scorer hout
  rw [hbatch] at haccs hpositions
  have hpos : items.map Item.budgets = samples.map (TraceSample.budgets agentCfg) :=
    map_eq_of_forall₂ hrows (fun _ _ hrow => hrow.budgets)
  have hacc : items.map (fun item => item.budgets.map (mcAccuracyAt cfg scorer item)) =
      samples.map (fun sample => (sample.budgets agentCfg).map
        (sample.accuracyAt tok agentCfg scorer)) := by
    refine map_eq_of_forall₂ hrows (fun sample item hrow => ?_)
    rw [hrow.budgets]
    exact List.map_congr_left (fun budget hb =>
      mcAccuracyAt_eq tok agentCfg hrow hcfg scorer hb)
  rw [haccs, hpositions, hpos, hacc]
  refine ⟨fun sample _ => truncationLengths_strictAsc _ _ _, rfl, rfl, ?_⟩
  -- The parallel lists are the projections of one list of probe samples.
  let probeSamples := samples.map (fun sample => sample.probeSample tok agentCfg scorer)
  have hcollect := collectProbeData_eq probeCfg probeSamples
  simp only [probeSamples, List.map_map, List.flatMap_map] at hcollect
  have hlen : ∀ sample : TraceSample Token Truth Info d,
      ((sample.probeSample tok agentCfg scorer).features probeCfg).length =
        (sample.probeSample tok agentCfg scorer).mcAccuracies.length := by
    intro sample
    rw [length_features, ProbeSample.length_mcAccuracies]
  refine ⟨_, _, hcollect, length_flatMap_eq hlen samples, ?_⟩
  rw [List.zip_eq_zipWith, zipWith_flatMap Prod.mk hlen]
  refine congrArg (fun f => samples.flatMap f) (funext (fun sample => ?_))
  simp only [TraceSample.probeSample, ProbeSample.features]
  rw [List.zipWith_map, List.zipWith_self]

def twoTokenSample : TraceSample (Option Char) Unit Unit 1 where
  promptIds := [some 'q']
  thinkingOutput := ⟨[some 'x', some 'y'], none⟩
  generate := fun requestId _ => if requestId % 2 = 0 then [some '1'] else [some '0']
  groundTruth := none
  dataSource := none
  extraInfo := none
  promptLength := 1
  attentionMask := [1, 1, 1]
  responses := [some 'x', some 'y']
  hiddenStates := [0, 1, 0]

/-- Half of the answers end in `1`, at the cut as at the full trace. -/
theorem probePairs_eq_twoTokens :
    ∃ items, rolloutItems charTokenizer
        ⟨"/".toList, [.float (1 / 2)], [], true, 2, false, 8⟩ [twoTokenSample] = .ok items ∧
      ∀ out, computeForcedOutputRewards ⟨.mean, 2, .mean, false, 1, [.float (1 / 2)]⟩
          charTokenizer
          (fun query => if query.solutionStr.getLast? = some '1' then .number 1 else .raised)
          (⟨items, none, by simp⟩ : Batch (Option Char) Unit Unit 2) = .ok out →
        out.extraInfos.probeMcAccuracies = [[1 / 2, 1 / 2]] := by
  obtain ⟨items, hitems, hall⟩ := probePairs_eq charTokenizer
    ⟨"/".toList, [.float (1 / 2)], [], true, 2, false, 8⟩
    ⟨.mean, 2, .mean, false, 1, [.float (1 / 2)]⟩ accuracyConfig
    (fun query => if query.solutionStr.getLast? = some '1' then .number 1 else .raised)
    [twoTokenSample] 2 (by decide) rfl
  refine ⟨items, hitems, fun out hout => ?_⟩
  rw [((hall _ rfl).2 out hout).2.2.1]
  decide +kernel

end RLCM.ForcedOutput
