/-
# `RLCM.Eval.RlcrScores` — the two evaluators of stated confidence

`evaluate_budget_forced_outputs` with `rlcr=True`, and the copy of it that is a script of its
own, `evaluate_budget_forced_outputs_rlcr`.  Both send the same prompts and loop over the same
completions; a completion is graded by `compute_rlcr_score`, and the first evaluator goes on to
a box where there is no answer, and to letters where the task is multiple choice.  Both let the
numeric comparison of the SARA data have the last word on the accuracy.

The parts that the two share word for word are one definition here; each keeps its own grading
and its own loop.
-/
import RLCM.Eval.BudgetRun

namespace RLCM.Eval

open Py Stats

variable {Token : Type} {n : ℕ}

/-! ## One completion -/

/-- `compute_rlcr_score`; a list of ground truths has no `split`. -/
def computeRlcrScore (solutionStr : Str) : GroundTruth → Except Error RewardScore.Score
  | .value groundTruth => .ok (RewardScore.computeScore solutionStr groundTruth)
  | .list _ => .error .attributeError

/-- `rlcr_text`: the opening tag of the prompt put back. -/
def rlcrTextOf (generatedText : Str) : Str :=
  if onlyClosesAnswer generatedText then "<answer>".toList ++ generatedText else generatedText

/-- What grading decides about a completion. -/
structure RlcrVerdict where
  pred : Str
  isCorrect : Bool
  confidence : ℚ
  confidenceValid : Bool
  rlcrScore : ℚ
  brier : ℚ

def extractRlcrContent (text : Str) : Option Str × ℚ × Bool :=
  RewardScore.extractAnswerAndConfidence text

/-- The verdict of `compute_rlcr_score`, with the confidence that the text states. -/
def RlcrVerdict.ofScore (rlcrText : Str) (result : RewardScore.Score) : RlcrVerdict where
  pred := result.pred
  isCorrect := result.acc ≠ 0
  confidence := (extractRlcrContent rlcrText).2.1
  confidenceValid := (extractRlcrContent rlcrText).2.2
  rlcrScore := result.score
  brier := result.brier

def RlcrVerdict.rescored (pred : Str) (isCorrect : Bool) (confidence : ℚ)
    (confidenceValid : Bool) : RlcrVerdict :=
  let accInt : ℚ := accuracyOf isCorrect
  let brier := (accInt - confidence) ^ 2
  { pred, isCorrect, confidence, confidenceValid, rlcrScore := accInt - brier, brier }

def useBoxedFallback (generatedText : Str) (result : RewardScore.Score) : Bool :=
  (!result.answerValid || result.pred = []) && contains boxedOpen generatedText

def boxedVerdict (env : Externals) (groundTruth : GroundTruth) (generatedText : Str) :
    Except Error RlcrVerdict := do
  let (isCorrect, pred) ← computeScore env generatedText groundTruth
  pure (RlcrVerdict.rescored (pred.getD []) isCorrect (1 / 2) false)

/-- The verdict on the letters, if there is one on both sides. -/
def gpqaVerdict (env : Externals) (groundTruth : GroundTruth) (verdict : RlcrVerdict) :
    RlcrVerdict :=
  match extractGpqaChoice env.uni (some verdict.pred),
      extractGpqaChoice env.uni (some (groundTruth.str env)) with
  | some predChoice, some gtChoice =>
      RlcrVerdict.rescored [predChoice] (predChoice == gtChoice) verdict.confidence
        verdict.confidenceValid
  | _, _ => verdict

/-- The grading of `evaluate_budget_forced_outputs`, up to the numeric comparison. -/
def gradeRlcr (env : Externals) (row : BudgetRow) (generatedText : Str) :
    Except Error RlcrVerdict := do
  let result ← computeRlcrScore (rlcrTextOf generatedText) row.groundTruth
  let verdict ← (if useBoxedFallback generatedText result then
      boxedVerdict env row.groundTruth generatedText
    else .ok (RlcrVerdict.ofScore (rlcrTextOf generatedText) result) : Except Error RlcrVerdict)
  pure (if isGpqa row.dataSource then gpqaVerdict env row.groundTruth verdict else verdict)

/-- The grading of `evaluate_budget_forced_outputs_rlcr`, up to the numeric comparison. -/
def gradeRlcrCopy (row : BudgetRow) (generatedText : Str) : Except Error RlcrVerdict := do
  let result ← computeRlcrScore (rlcrTextOf generatedText) row.groundTruth
  pure (RlcrVerdict.ofScore (rlcrTextOf generatedText) result)

/-- The numbers of a completion. -/
@[ext]
structure SeqNumbers where
  isCorrect : Bool
  confidence : ℚ
  rlcrScore : ℚ
  brier : ℚ
  answerValid : Bool
  risk : Option PyFloat
deriving Inhabited

/-- What the loop over the sequences appends to its lists. -/
structure SeqScore extends SeqNumbers where
  generatedText : Str
  rlcrText : Str
  pred : Str
  confidenceValid : Bool
deriving Inhabited

def BudgetRow.isSara (env : Externals) (row : BudgetRow) : Bool :=
  isSaraNumerical row.dataSource (row.groundTruth.str env)

/-- The body of the loop over the sequences, around the grading. -/
def scoreSequence (env : Externals) (grade : BudgetRow → Str → Except Error RlcrVerdict)
    (row : BudgetRow) (generatedText : Str) : Except Error SeqScore := do
  let verdict ← grade row generatedText
  let gt := row.groundTruth.str env
  let isCorrect ← saraVerdict (row.isSara env) generatedText gt verdict.isCorrect
  pure
    { isCorrect
      confidence := verdict.confidence
      rlcrScore := verdict.rlcrScore
      brier := verdict.brier
      answerValid := verdict.pred ≠ []
      risk := computeSaraNumericalRisk generatedText gt
      generatedText
      rlcrText := rlcrTextOf generatedText
      pred := verdict.pred
      confidenceValid := verdict.confidenceValid }

/-! ## Statistics and records -/

/-- `budget_stats[budget]` of both evaluators. -/
structure RlcrStats extends BudgetStats where
  totalConfidence : ℚ
  confidenceCount : ℕ
  totalRlcrScore : ℚ
  rlcrCount : ℕ
  totalBrier : ℚ
  brierCount : ℕ

/-- The statistics before the loop. -/
def rlcrStatsBase : RlcrStats where
  toBudgetStats := budgetStatsBase
  totalConfidence := 0
  confidenceCount := 0
  totalRlcrScore := 0
  rlcrCount := 0
  totalBrier := 0
  brierCount := 0

/-- A completion added to the statistics. -/
def RlcrStats.addSequence (isSara : Bool) (truncatedCotLength : ℕ) (stats : RlcrStats)
    (seq : SeqNumbers) : RlcrStats :=
  let base := if isSara then stats.toBudgetStats.addRisk seq.risk else stats.toBudgetStats
  { correct := stats.correct + accuracyOf seq.isCorrect
    total := stats.total + 1
    extracted := stats.extracted + if seq.answerValid then 1 else 0
    avgTokens := stats.avgTokens + truncatedCotLength
    totalRisk := base.totalRisk
    riskCount := base.riskCount
    totalConfidence := stats.totalConfidence + seq.confidence
    confidenceCount := stats.confidenceCount + 1
    totalRlcrScore := stats.totalRlcrScore + seq.rlcrScore
    rlcrCount := stats.rlcrCount + 1
    totalBrier := stats.totalBrier + seq.brier
    brierCount := stats.brierCount + 1 }

/-- `result_record` of both evaluators; the copy has no `gpqa_answer_format`. -/
structure RlcrRecord extends BudgetRow where
  forcedAnswers : List Str
  forcedAccuracies : List ℕ
  meanAccuracy : ℚ
  gpqaAnswerFormat : Option (Option Str)
  forcedOutputs : List Str
  forcedRlcrTexts : List Str
  forcedAnswerValid : List Bool
  forcedConfidenceValid : List Bool
  modelConfidences : List ℚ
  meanConfidence : ℚ
  rlcrScores : List ℚ
  meanRlcrScore : ℚ
  brierScores : List ℚ
  meanBrier : ℚ
  forcedRisks : Option (List (Option PyFloat))
  meanRisk : Option PyFloat

/-- `forced_risks`, filled for numeric problems only. -/
def risksOf (env : Externals) (row : BudgetRow) (scores : List SeqScore) :
    List (Option PyFloat) :=
  if row.isSara env then scores.map (fun s => s.risk) else []

/-- The record of a row and its scored completions. -/
def rlcrRecordOf (env : Externals) (gpqaAnswerFormat : Option (Option Str)) (row : BudgetRow)
    (scores : List SeqScore) : RlcrRecord :=
  let forcedAccuracies := scores.map (fun s => accuracyOf s.isCorrect)
  let modelConfidences := scores.map (fun s => s.confidence)
  let rlcrScores := scores.map (fun s => s.rlcrScore)
  let brierScores := scores.map (fun s => s.brier)
  let forcedRisks := risksOf env row scores
  { toBudgetRow := row
    forcedAnswers := scores.map (fun s => s.pred)
    forcedAccuracies
    meanAccuracy := meanOr 0 (forcedAccuracies.map (fun acc : ℕ => (acc : ℚ)))
    gpqaAnswerFormat
    forcedOutputs := scores.map (fun s => s.generatedText)
    forcedRlcrTexts := scores.map (fun s => s.rlcrText)
    forcedAnswerValid := scores.map (fun s => s.answerValid)
    forcedConfidenceValid := scores.map (fun s => s.confidenceValid)
    modelConfidences
    meanConfidence := meanOr (1 / 2) modelConfidences
    rlcrScores
    meanRlcrScore := meanOr 0 rlcrScores
    brierScores
    meanBrier := meanOr (1 / 2) brierScores
    forcedRisks := if forcedRisks = [] then none else some forcedRisks
    meanRisk := meanRisk forcedRisks }

/-- What both evaluators return. -/
structure RlcrResults where
  allResults : List RlcrRecord
  budgetStats : Dict ℤ RlcrStats

def RlcrResults.start (budgets : List ℤ) : RlcrResults where
  allResults := []
  budgetStats := Dict.assign ∅ (budgets.map (fun b => (b, rlcrStatsBase)))

/-- The completions of a row, in the statistics of its budget. -/
def RlcrStats.addRow (env : Externals) (stats : RlcrStats) (scored : BudgetRow × List SeqScore) :
    RlcrStats :=
  (scored.2.map (fun s => s.toSeqNumbers)).foldl
    (RlcrStats.addSequence (scored.1.isSara env) scored.1.truncatedCotLength) stats

/-- The end of the loop body: the record of a row, and its statistics. -/
def RlcrResults.push (env : Externals) (format : BudgetRow → Option (Option Str))
    (out : RlcrResults) (scored : BudgetRow × List SeqScore) : RlcrResults where
  allResults := out.allResults ++ [rlcrRecordOf env (format scored.1) scored.1 scored.2]
  budgetStats := out.budgetStats.modify scored.1.budget (fun stats => stats.addRow env scored)

/-- The body of the loop over the rows. -/
def RlcrResults.step (env : Externals) (grade : BudgetRow → Str → Except Error RlcrVerdict)
    (format : BudgetRow → Option (Option Str)) (out : RlcrResults) (row : BudgetRow)
    (sequences : List Str) : Except Error RlcrResults := do
  let scores ← sequences.mapM (scoreSequence env grade row)
  pure (out.push env format (row, scores))

/-! ## The evaluators -/

abbrev rlcrMode (budgets : List ℤ) (gpqaXml : Bool) : BudgetEvalArgs where
  budgets := budgets
  rlcr := true
  gpqaXml := gpqaXml

/-- `evaluate_budget_forced_outputs` with `rlcr=True`.  The code entries are scored into the
cache in this mode too: nothing reads it, but a scorer that raises ends the function. -/
def evaluateRlcrMode (env : Externals) (tok : Tokenizer Token) (gen : Generator Token n)
    (pool : CompletionOrder) (budgets : List ℤ) (gpqaXml : Bool) (data : List Rollout) :
    Except Error RlcrResults := do
  let st := prepare tok (rlcrMode budgets gpqaXml) data
  let entries := st.allMetadata.zip (attachOutputs gen st)
  let _cache ← codeScoreCache env (pool.asCompleted (codeItemsToScore entries))
  entries.foldlM (fun out entry => do
    let sequences ← sequencesOf entry.2
    out.step env (gradeRlcr env) (fun row => some (gpqaFormat gpqaXml row.dataSource))
      entry.1.row sequences) (RlcrResults.start budgets)

/-- `ground_truth` of a rollout as the copy reads it. -/
def Rollout.rawTruth (item : Rollout) : GroundTruth :=
  item.gts.getD (item.groundTruth.getD (.value []))

def promptMetadata (tok : Tokenizer Token) (budgets : List ℤ) (data : List Rollout) :
    List (Option (List Token) × BudgetRow) :=
  data.zipIdx.flatMap (fun item =>
    (buildBudgetPromptsRlcr tok item.1.input (extractThinkingContent item.1.output) budgets).map
      (fun p => (p.tokenPrompt,
        { rolloutIdx := item.2
          prompt := item.1.input
          budget := p.budget
          truncatedCot := p.truncatedCot
          truncatedCotLength := p.truncatedCotLength
          groundTruth := item.1.rawTruth
          dataSource := item.1.source })))

def evaluateBudgetForcedOutputsRlcr (env : Externals) (tok : Tokenizer Token)
    (gen : Generator Token n) (budgets : List ℤ) (data : List Rollout) :
    Except Error RlcrResults :=
  let prepared := promptMetadata tok budgets data
  let allOutputs := gen.generate .math (prepared.map Prod.fst)
  (allOutputs.zip (prepared.map Prod.snd)).foldlM (fun out output =>
    out.step env gradeRlcrCopy (fun _ => none) output.2 output.1.outputs)
    (RlcrResults.start budgets)

/-! ## The runs

Both evaluators grade, row by row, the completions of the same prompts. -/

/-- The rollouts and budgets in the order of the prompts. -/
def requests (budgets : List ℤ) (data : List Rollout) : List ((Rollout × ℕ) × ℤ) :=
  data.zipIdx.flatMap (fun item => budgets.map (fun b => (item, b)))

def rlcrPrompt (tok : Tokenizer Token) (request : (Rollout × ℕ) × ℤ) : Option (List Token) :=
  (cutPrompt tok request.1.1.input (extractThinkingContent request.1.1.output)
    (closing forcedAnswerPromptRlcr) request.2).tokenPrompt

def completions (tok : Tokenizer Token) (gen : Generator Token n) (budgets : List ℤ)
    (data : List Rollout) : List (((Rollout × ℕ) × ℤ) × List Str) :=
  (requests budgets data).zip
    ((gen.generate .math ((requests budgets data).map (rlcrPrompt tok))).map
      (fun output => output.outputs))

/-- The row of a request, with the unwrapped ground truth. -/
def rowOf (tok : Tokenizer Token) (request : (Rollout × ℕ) × ℤ) : BudgetRow :=
  rowAt tok request.1.2 request.1.1 request.2

/-- The row of a request, with the ground truth as it stands in the file. -/
def rawRowOf (tok : Tokenizer Token) (request : (Rollout × ℕ) × ℤ) : BudgetRow :=
  { rowOf tok request with groundTruth := request.1.1.rawTruth }

/-- The loop over rows with their completions. -/
def runRows (env : Externals) (grade : BudgetRow → Str → Except Error RlcrVerdict)
    (format : BudgetRow → Option (Option Str)) (budgets : List ℤ)
    (rows : List (BudgetRow × List Str)) : Except Error RlcrResults :=
  rows.foldlM (fun out row => out.step env grade format row.1 row.2) (RlcrResults.start budgets)

/-- What the loop returns for these scores. -/
def rlcrResultsOf (env : Externals) (format : BudgetRow → Option (Option Str))
    (budgets : List ℤ) (scored : List (BudgetRow × List SeqScore)) : RlcrResults where
  allResults := scored.map (fun rs => rlcrRecordOf env (format rs.1) rs.1 rs.2)
  budgetStats := Dict.tally (RlcrStats.addRow env) (RlcrResults.start budgets).budgetStats
    (scored.map (fun rs => (rs.1.budget, rs)))

section Runs

variable (env : Externals) (tok : Tokenizer Token) (gen : Generator Token n)
  (pool : CompletionOrder) (budgets : List ℤ) (gpqaXml : Bool) (data : List Rollout)

def rlcrEntry (request : (Rollout × ℕ) × ℤ) : PromptMeta × Option (List Token) × Queue :=
  let row := rowOf tok request
  ({ rolloutIdx := row.rolloutIdx
     budget := row.budget
     truncatedCot := row.truncatedCot
     truncatedCotLength := row.truncatedCotLength
     groundTruth := row.groundTruth
     prompt := row.prompt
     dataSource := row.dataSource
     isCode := isCode row.dataSource
     thinkingComplete := false
     originalOutput := request.1.1.output }, rlcrPrompt tok request, .math)

theorem allEntries_rlcrMode :
    allEntries tok (rlcrMode budgets gpqaXml) data =
      (requests budgets data).map (rlcrEntry tok) := by
  rw [allEntries, requests, List.map_flatMap]
  apply List.flatMap_congr
  intro item _
  rw [rolloutEntries, if_pos rfl, buildBudgetPromptsRlcr, List.map_map, List.map_map]
  rfl

/-- Every entry waits in the one queue, and gets its own output. -/
theorem attachOutputs_rlcrMode :
    attachOutputs gen (prepare tok (rlcrMode budgets gpqaXml) data) =
      (gen.generate .math ((requests budgets data).map (rlcrPrompt tok))).map some := by
  have hmath := outputsOf_math tok (rlcrMode budgets gpqaXml) data gen
  have hlength := length_attachOutputs tok (rlcrMode budgets gpqaXml) data gen
  generalize attachOutputs gen (prepare tok (rlcrMode budgets gpqaXml) data) = slots at *
  rw [allEntries_rlcrMode] at hmath hlength
  have hqueue : ∀ entry ∈ (requests budgets data).map (rlcrEntry tok), queueOf entry = .math := by
    intro entry hentry
    obtain ⟨request, -, rfl⟩ := List.mem_map.mp hentry
    rfl
  have hslots : outputsOf ((requests budgets data).map (rlcrEntry tok)) slots .math = slots := by
    rw [outputsOf, Routing.slotsOf, List.filter_eq_self.mpr]
    · exact List.map_snd_zip hlength.le
    · intro es hes
      exact decide_eq_true (hqueue es.1 (List.of_mem_zip hes).1)
  have hprompts : promptsOf ((requests budgets data).map (rlcrEntry tok)) .math =
      (requests budgets data).map (rlcrPrompt tok) := by
    rw [promptsOf, List.filter_eq_self.mpr, List.map_map]
    · rfl
    · intro entry hentry
      exact decide_eq_true (hqueue entry hentry)
  rw [hslots, hprompts] at hmath
  exact hmath

/-- The code scorer returns on a completion of a rollout, if it is a code rollout. -/
def CodeScored (item : Rollout) (text : Str) : Prop :=
  isCode item.source = true → ∃ score, env.codeScore text item.truth = .ok score

theorem entries_rlcrMode :
    (prepare tok (rlcrMode budgets gpqaXml) data).allMetadata.zip
        (attachOutputs gen (prepare tok (rlcrMode budgets gpqaXml) data)) =
      (completions tok gen budgets data).map
        (fun c => ((rlcrEntry tok c.1).1, some ⟨c.2⟩)) := by
  have hmeta : (prepare tok (rlcrMode budgets gpqaXml) data).allMetadata =
      (requests budgets data).map (fun request => (rlcrEntry tok request).1) := by
    rw [prepare_eq, allEntries_rlcrMode, List.map_map]
    rfl
  rw [hmeta, attachOutputs_rlcrMode, completions, List.zip_map, List.zip_map_right, List.map_map]
  rfl

theorem scorerReturns_rlcrEntry_iff {request : (Rollout × ℕ) × ℤ} {texts : List Str} :
    ScorerReturns env ((rlcrEntry tok request).1, some ⟨texts⟩) ↔
      ∀ text ∈ texts, CodeScored env request.1.1 text := by
  show (∀ text ∈ (if isCode request.1.1.source then texts else []),
    ∃ score, env.codeScore text request.1.1.truth = .ok score) ↔ _
  split
  case isTrue hcode =>
    exact ⟨fun h text htext _ => h text htext, fun h text htext => h text htext hcode⟩
  case isFalse hcode =>
    exact ⟨fun _ _ _ hyes => absurd hyes hcode, fun _ _ hno => absurd hno List.not_mem_nil⟩

/-- The evaluator returns what the loop over the rows returns, if the scorer returns on every
completion of a code rollout. -/
theorem evaluateRlcrMode_eq_ok_iff {out : RlcrResults} :
    evaluateRlcrMode env tok gen pool budgets gpqaXml data = .ok out ↔
      (∀ c ∈ completions tok gen budgets data, ∀ text ∈ c.2, CodeScored env c.1.1.1 text) ∧
        runRows env (gradeRlcr env) (fun row => some (gpqaFormat gpqaXml row.dataSource)) budgets
          ((completions tok gen budgets data).map (fun c => (rowOf tok c.1, c.2))) = .ok out := by
  have hscorer := codeScoreCache_returns_iff env pool
    ((completions tok gen budgets data).map (fun c => ((rlcrEntry tok c.1).1, some ⟨c.2⟩)))
  rw [List.forall_mem_map, forall₂_congr (fun _ _ => scorerReturns_rlcrEntry_iff env tok)]
    at hscorer
  rw [evaluateRlcrMode, entries_rlcrMode, ← hscorer, bind_eq_ok, List.foldlM_map, runRows,
    List.foldlM_map]
  constructor
  · rintro ⟨cache, hcache, hloop⟩
    exact ⟨⟨cache, hcache⟩, hloop⟩
  · rintro ⟨⟨cache, hcache⟩, hloop⟩
    exact ⟨cache, hcache, hloop⟩

theorem evaluateBudgetForcedOutputsRlcr_eq_runRows :
    evaluateBudgetForcedOutputsRlcr env tok gen budgets data =
      runRows env gradeRlcrCopy (fun _ => none) budgets
        ((completions tok gen budgets data).map (fun c => (rawRowOf tok c.1, c.2))) := by
  have hprepared : promptMetadata tok budgets data =
      (requests budgets data).map
        (fun request => (rlcrPrompt tok request, rawRowOf tok request)) := by
    rw [promptMetadata, requests, List.map_flatMap]
    apply List.flatMap_congr
    intro item _
    rw [buildBudgetPromptsRlcr, List.map_map, List.map_map]
    rfl
  have hprompts : (promptMetadata tok budgets data).map Prod.fst =
      (requests budgets data).map (rlcrPrompt tok) := by
    rw [hprepared, List.map_map]
    rfl
  have hrows : (promptMetadata tok budgets data).map Prod.snd =
      (requests budgets data).map (rawRowOf tok) := by
    rw [hprepared, List.map_map]
    rfl
  rw [evaluateBudgetForcedOutputsRlcr, hprompts, hrows, runRows, completions,
    ← List.zip_swap, List.zip_map_left, List.zip_map_right, List.map_map, List.map_map,
    List.foldlM_map, List.foldlM_map]
  rfl

end Runs

/-- The loop scores the completions of every row by themselves, and collects. -/
theorem runRows_eq (env : Externals) (grade : BudgetRow → Str → Except Error RlcrVerdict)
    (format : BudgetRow → Option (Option Str)) (budgets : List ℤ)
    (rows : List (BudgetRow × List Str)) :
    runRows env grade format budgets rows =
      (do let scores ← rows.mapM (fun row => row.2.mapM (scoreSequence env grade row.1))
          pure (rlcrResultsOf env format budgets ((rows.map Prod.fst).zip scores))) := by
  have hcollect : ∀ (scored : List (BudgetRow × List SeqScore)) (out : RlcrResults),
      scored.foldl (RlcrResults.push env format) out =
        { allResults := out.allResults ++
            scored.map (fun rs => rlcrRecordOf env (format rs.1) rs.1 rs.2)
          budgetStats := Dict.tally (RlcrStats.addRow env) out.budgetStats
            (scored.map (fun rs => (rs.1.budget, rs))) } := by
    intro scored
    induction scored with
    | nil =>
        intro out
        simp [Dict.tally]
    | cons rs scored ih =>
        intro out
        rw [List.foldl_cons, ih, RlcrResults.push, List.append_assoc]
        rfl
  rw [runRows]
  show rows.foldlM (fun out row => do
    let scores ← row.2.mapM (scoreSequence env grade row.1)
    pure (out.push env format (row.1, scores))) (RlcrResults.start budgets) = _
  rw [foldlM_store]
  cases rows.mapM (fun row => row.2.mapM (scoreSequence env grade row.1)) with
  | error e => rfl
  | ok scores =>
      have hscored : (rows.zip scores).map (fun rs => (rs.1.1, rs.2)) =
          (rows.map Prod.fst).zip scores := by
        rw [List.zip_map_left]
        rfl
      rw [ok_bind, ok_bind, ← hscored, ← List.foldl_map, hcollect]
      rfl

/-! ## How the first evaluator grades -/

/-- A verdict of the first evaluator: a string to compare with, the verdict on the box or that of
`compute_rlcr_score`, and the letters last. -/
theorem gradeRlcr_cases {env : Externals} {row : BudgetRow} {text : Str} {verdict : RlcrVerdict}
    (h : gradeRlcr env row text = .ok verdict) :
    ∃ t base, row.groundTruth = .value t ∧
      (useBoxedFallback text (RewardScore.computeScore (rlcrTextOf text) t) = true ∧
          (∃ graded, computeScore env text (.value t) = .ok graded ∧
            base = RlcrVerdict.rescored (graded.2.getD []) graded.1 (1 / 2) false) ∨
        useBoxedFallback text (RewardScore.computeScore (rlcrTextOf text) t) = false ∧
          base = RlcrVerdict.ofScore (rlcrTextOf text)
            (RewardScore.computeScore (rlcrTextOf text) t)) ∧
      verdict = if isGpqa row.dataSource then gpqaVerdict env (.value t) base else base := by
  obtain ⟨result, hresult, h⟩ := bind_eq_ok.mp h
  obtain ⟨base, hbase, h⟩ := bind_eq_ok.mp h
  obtain rfl := Except.ok.inj h
  cases htruth : row.groundTruth with
  | list ts =>
      rw [htruth] at hresult
      cases hresult
  | value t =>
      rw [htruth] at hresult hbase
      obtain rfl := Except.ok.inj hresult
      refine ⟨t, base, rfl, ?_, rfl⟩
      split at hbase
      case isTrue hfallback =>
        obtain ⟨graded, hgraded, hboxed⟩ := bind_eq_ok.mp hbase
        exact Or.inl ⟨hfallback, graded, hgraded, (Except.ok.inj hboxed).symm⟩
      case isFalse hfallback =>
        exact Or.inr ⟨Bool.eq_false_iff.mpr hfallback, (Except.ok.inj hbase).symm⟩

/-! ## When a completion is scored -/

theorem gradeRlcrCopy_returns_iff {row : BudgetRow} {text : Str} :
    (∃ verdict, gradeRlcrCopy row text = .ok verdict) ↔ ∃ t, row.groundTruth = .value t := by
  unfold gradeRlcrCopy
  cases row.groundTruth with
  | value t => exact ⟨fun _ => ⟨t, rfl⟩, fun _ => ⟨_, rfl⟩⟩
  | list ts =>
      constructor
      · rintro ⟨_, hno⟩
        cases hno
      · rintro ⟨_, hno⟩
        cases hno

/-- The first evaluator also needs the grader of boxes, if it goes on to a box. -/
theorem gradeRlcr_returns_iff {env : Externals} {row : BudgetRow} {text : Str} :
    (∃ verdict, gradeRlcr env row text = .ok verdict) ↔ ∃ t, row.groundTruth = .value t ∧
      (useBoxedFallback text (RewardScore.computeScore (rlcrTextOf text) t) = true →
        ∃ graded, computeScore env text (.value t) = .ok graded) := by
  unfold gradeRlcr
  cases row.groundTruth with
  | value t =>
      show (∃ verdict, ((if useBoxedFallback text (RewardScore.computeScore (rlcrTextOf text) t)
        then _ else _ : Except Error RlcrVerdict) >>= _) = .ok verdict) ↔ _
      rw [bind_returns_iff]
      split
      case isTrue hfallback =>
        constructor
        · rintro ⟨verdict, hverdict, -⟩
          obtain ⟨graded, hgraded, -⟩ := bind_eq_ok.mp hverdict
          exact ⟨t, rfl, fun _ => ⟨graded, hgraded⟩⟩
        · rintro ⟨_, ⟨⟩, hgraded⟩
          obtain ⟨graded, hgraded⟩ := hgraded hfallback
          exact ⟨_, bind_eq_ok.mpr ⟨graded, hgraded, rfl⟩, _, rfl⟩
      case isFalse hfallback =>
        exact ⟨fun _ => ⟨t, rfl, fun h => absurd h hfallback⟩, fun _ => ⟨_, rfl, _, rfl⟩⟩
  | list ts =>
      constructor
      · rintro ⟨_, hno⟩
        cases hno
      · rintro ⟨_, hno, -⟩
        cases hno

theorem scoreSequence_returns_iff {env : Externals}
    {grade : BudgetRow → Str → Except Error RlcrVerdict} {row : BudgetRow} {text : Str} :
    (∃ seq, scoreSequence env grade row text = .ok seq) ↔
      (∃ verdict, grade row text = .ok verdict) ∧
        (row.isSara env = true → FiniteNumbers text (row.groundTruth.str env)) := by
  unfold scoreSequence
  rw [bind_returns_iff]
  dsimp only
  constructor
  · rintro ⟨verdict, hverdict, seq, hseq⟩
    obtain ⟨isCorrect, hisCorrect, -⟩ := bind_eq_ok.mp hseq
    exact ⟨⟨verdict, hverdict⟩, saraVerdict_returns_iff.mp ⟨isCorrect, hisCorrect⟩⟩
  · rintro ⟨⟨verdict, hverdict⟩, hfinite⟩
    obtain ⟨isCorrect, hisCorrect⟩ := saraVerdict_returns_iff.mpr hfinite
    exact ⟨verdict, hverdict, _, bind_eq_ok.mpr ⟨isCorrect, hisCorrect, rfl⟩⟩

theorem rawRowOf_eq {tok : Tokenizer Token} {request : (Rollout × ℕ) × ℤ} {t : Str}
    (htruth : request.1.1.rawTruth = .value t) : rawRowOf tok request = rowOf tok request := by
  have hunwrap : request.1.1.truth = request.1.1.rawTruth := by
    show request.1.1.rawTruth.unwrap = request.1.1.rawTruth
    rw [htruth]
    rfl
  show { rowOf tok request with groundTruth := request.1.1.rawTruth } = rowOf tok request
  rw [← hunwrap]
  rfl

/-- Both evaluators score a completion where the ground truth is a string and no grader
raises. -/
theorem scoreSequence_returns {env : Externals} {tok : Tokenizer Token}
    {request : (Rollout × ℕ) × ℤ} {text t : Str} (htruth : request.1.1.rawTruth = .value t)
    (hfinite : isSaraNumerical request.1.1.source t = true → FiniteNumbers text t)
    (hgraded : useBoxedFallback text (RewardScore.computeScore (rlcrTextOf text) t) = true →
      ∃ graded, computeScore env text (.value t) = .ok graded) :
    (∃ seq, scoreSequence env (gradeRlcr env) (rowOf tok request) text = .ok seq) ∧
      ∃ seq, scoreSequence env gradeRlcrCopy (rawRowOf tok request) text = .ok seq := by
  have hrow : (rowOf tok request).groundTruth = .value t := by
    rw [← rawRowOf_eq htruth]
    exact htruth
  have hnumbers : (rowOf tok request).isSara env = true →
      FiniteNumbers text ((rowOf tok request).groundTruth.str env) := by
    rw [BudgetRow.isSara, hrow]
    exact hfinite
  rw [rawRowOf_eq htruth, scoreSequence_returns_iff, scoreSequence_returns_iff,
    gradeRlcr_returns_iff, gradeRlcrCopy_returns_iff]
  exact ⟨⟨⟨t, hrow, hgraded⟩, hnumbers⟩, ⟨⟨t, hrow⟩, hnumbers⟩⟩

theorem runRows_returns_iff {env : Externals}
    {grade : BudgetRow → Str → Except Error RlcrVerdict}
    {format : BudgetRow → Option (Option Str)} {budgets : List ℤ}
    {rows : List (BudgetRow × List Str)} :
    (∃ out, runRows env grade format budgets rows = .ok out) ↔
      ∀ row ∈ rows, ∀ text ∈ row.2, ∃ seq, scoreSequence env grade row.1 text = .ok seq := by
  have hscores : (∃ scores, rows.mapM (fun row => row.2.mapM (scoreSequence env grade row.1)) =
      .ok scores) ↔ ∀ row ∈ rows, ∀ text ∈ row.2, ∃ seq,
        scoreSequence env grade row.1 text = .ok seq :=
    mapM_returns_iff.trans (forall₂_congr (fun _ _ => mapM_returns_iff))
  rw [runRows_eq, bind_returns_iff, ← hscores]
  exact exists_congr (fun scores => and_iff_left ⟨_, rfl⟩)

theorem evaluators_return {env : Externals} {tok : Tokenizer Token} {gen : Generator Token n}
    (pool : CompletionOrder) {budgets : List ℤ} (gpqaXml : Bool) {data : List Rollout}
    (hcode : ∀ c ∈ completions tok gen budgets data, ∀ text ∈ c.2, CodeScored env c.1.1.1 text)
    (h : ∀ c ∈ completions tok gen budgets data, ∀ text ∈ c.2,
      (∃ seq, scoreSequence env (gradeRlcr env) (rowOf tok c.1) text = .ok seq) ∧
        ∃ seq, scoreSequence env gradeRlcrCopy (rawRowOf tok c.1) text = .ok seq) :
    (∃ out, evaluateRlcrMode env tok gen pool budgets gpqaXml data = .ok out) ∧
      ∃ out', evaluateBudgetForcedOutputsRlcr env tok gen budgets data = .ok out' := by
  constructor
  · obtain ⟨out, hout⟩ : ∃ out, runRows env (gradeRlcr env)
        (fun row => some (gpqaFormat gpqaXml row.dataSource)) budgets
          ((completions tok gen budgets data).map (fun c => (rowOf tok c.1, c.2))) = .ok out := by
      rw [runRows_returns_iff, List.forall_mem_map]
      intro c hc text htext
      exact (h c hc text htext).1
    exact ⟨out, (evaluateRlcrMode_eq_ok_iff env tok gen pool budgets gpqaXml data).mpr
      ⟨hcode, hout⟩⟩
  · rw [evaluateBudgetForcedOutputsRlcr_eq_runRows, runRows_returns_iff, List.forall_mem_map]
    intro c hc text htext
    exact (h c hc text htext).2

end RLCM.Eval
