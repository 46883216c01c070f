/-
# `RLCM.Eval.BudgetScores` — generating and grading the forced answers

The rest of `evaluate_budget_forced_outputs` in boxed mode.  The prompts of the two queues are
generated, one batch each, and the outputs are written back to the entries.  The code answers
are scored beforehand by a pool of threads, into a cache that fills in the order in which the
threads finish; a scorer that raises ends the function.  Then every entry is graded by the rules
of its task, gives one record, and adds to the statistics of its budget.

What is outside the repository is a parameter: the tokenizer, the generator, the computer
algebra and `eval` of the grader, the Unicode tables, the text of a list, the scorer of code,
the order of the threads.
-/
import RLCM.Eval.BudgetEval
import RLCM.Eval.MathDapo
import RLCM.Eval.TaskAnswers
import RLCM.Lib.Routing
import RLCM.Lib.Stats
import RLCM.Py.Dict

namespace RLCM.Eval

open Py Stats

variable {Token : Type}

/-! ## What is outside -/

/-- What the graders call. -/
structure Externals where
  sympy : Sympy
  evalFloat : Str → Option ℚ
  uni : Unicode
  strOfList : List Str → Str
  codeScore : Str → GroundTruth → Except Error ℚ

/-- `RequestOutput`: the texts of the sequences. -/
structure RequestOutput where
  outputs : List Str

/-- `llm.generate` with `n` sequences a prompt, under the sampling parameters of a queue: one
object for every prompt, in order. -/
structure Generator (Token : Type) (n : ℕ) where
  generate : Queue → List (Option (List Token)) → List RequestOutput
  length_generate : ∀ queue prompts, (generate queue prompts).length = prompts.length
  length_outputs : ∀ queue prompts, ∀ output ∈ generate queue prompts, output.outputs.length = n

def GroundTruth.str (env : Externals) : GroundTruth → Str
  | .value t => t
  | .list ts => env.strOfList ts

/-- `compute_score` with `strict_box_verify=True`: `acc` and `pred`. -/
def computeScore (env : Externals) (solutionStr : Str) (groundTruth : GroundTruth) :
    Except Error (Bool × Option Str) := do
  let (correct, pred) ← isCorrectStrictBox env.sympy env.evalFloat solutionStr
    (groundTruth.str env)
  pure (correct = 1, pred)

/-! ## Generation -/

/-- Step 2: `generated_output` of every entry. -/
def attachOutputs {n : ℕ} (gen : Generator Token n) (st : Prepared Token) :
    List (Option RequestOutput) :=
  let slots := List.replicate st.allMetadata.length none
  let slots := if st.mathPrompts.isEmpty then slots else
    Routing.writeBack slots (st.mathPrompts.map Prod.snd)
      (gen.generate .math (st.mathPrompts.map Prod.fst))
  if st.codePrompts.isEmpty then slots else
    Routing.writeBack slots (st.codePrompts.map Prod.snd)
      (gen.generate .code (st.codePrompts.map Prod.fst))

/-- An entry of `all_metadata` after generation. -/
abbrev Entry := PromptMeta × Option RequestOutput

/-- `output_obj.outputs`, which `None` does not have. -/
def sequencesOf (generatedOutput : Option RequestOutput) : Except Error (List Str) :=
  generatedOutput.elim (.error .attributeError) (fun output => .ok output.outputs)

/-! ## The code scores -/

/-- An item of `code_items_to_score`. -/
structure CodeItem where
  metaIdx : ℕ
  seqIdx : ℕ
  text : Str
  groundTruth : GroundTruth

def codeItemsOf (metaIdx : ℕ) (entry : Entry) : List CodeItem :=
  match entry.1.isCode, entry.2 with
  | true, some output => output.outputs.mapIdx (fun seqIdx text =>
      { metaIdx, seqIdx, text, groundTruth := entry.1.groundTruth })
  | _, _ => []

def codeItemsToScore (entries : List Entry) : List CodeItem :=
  entries.zipIdx.flatMap (fun entry => codeItemsOf entry.2 entry.1)

/-- The order in which `as_completed` hands the items on. -/
structure CompletionOrder where
  asCompleted : List CodeItem → List CodeItem
  perm : ∀ items, (asCompleted items).Perm items

/-- The score of a code answer, and whether it is one. -/
def codeVerdict (env : Externals) (text : Str) (groundTruth : GroundTruth) :
    Except Error (ℚ × Bool) := do
  let score ← env.codeScore text groundTruth
  pure (score, score ≠ 0)

def scoreCodeItem (env : Externals) (item : CodeItem) :
    Except Error ((ℕ × ℕ) × (ℚ × Bool)) := do
  let verdict ← codeVerdict env item.text item.groundTruth
  pure ((item.metaIdx, item.seqIdx), verdict)

/-- `code_score_cache`, filled in the order of completion: `future.result()` raises what the
scorer of its item has raised. -/
def codeScoreCache (env : Externals) (completed : List CodeItem) :
    Except Error (Dict (ℕ × ℕ) (ℚ × Bool)) := do
  let scored ← completed.mapM (scoreCodeItem env)
  pure (Dict.assign ∅ scored)

/-! ## Grading -/

/-- The lists an entry fills. -/
structure EntryScore where
  forcedAnswers : List (Option Str)
  forcedAccuracies : List ℕ
  forcedRisks : List (Option PyFloat)

/-- `1 if is_correct else 0`. -/
def accuracyOf (isCorrect : Bool) : ℕ := if isCorrect then 1 else 0

/-- `is_sara_numerical` of an entry. -/
def PromptMeta.isSara (env : Externals) (entry : PromptMeta) : Bool :=
  isSaraNumerical entry.dataSource (entry.groundTruth.str env)

/-- The verdict after the numeric comparison, if the task has one and it has a result. -/
def saraVerdict (isSara : Bool) (solutionStr groundTruth : Str) (isCorrect : Bool) :
    Except Error Bool :=
  if isSara then do
    let saraAcc ← computeSaraIntegerPartAccuracy solutionStr groundTruth
    pure (saraAcc.getD isCorrect)
  else pure isCorrect

/-- A multiple-choice answer as an XML tag: the answer, the verdict, and `full_answer_text`. -/
def gradeXml (env : Externals) (groundTruth : GroundTruth) (generatedText : Str) :
    Option Str × Bool × Str :=
  let answerText := extractXmlAnswerContent (some generatedText)
  let pred := (extractGpqaChoice env.uni answerText).orElse
    (fun _ => extractGpqaChoice env.uni (some generatedText))
  let gtChoice := extractGpqaChoice env.uni (some (groundTruth.str env))
  (pred.map ([·]), pred.isSome && gtChoice.isSome && pred == gtChoice,
    answerText.elim generatedText (fun answer =>
      "<answer>".toList ++ answer ++ "</answer>".toList))

/-- A boxed answer, the box having been opened by the prompt. -/
def gradeBoxed (env : Externals) (gpqa : Bool) (groundTruth : GroundTruth)
    (generatedText : Str) : Except Error (Option Str × Bool × Str) := do
  let fullAnswerText := boxedOpen ++ generatedText
  let (isCorrect, pred) ← computeScore env fullAnswerText groundTruth
  let predChoice := if gpqa then extractGpqaChoice env.uni pred else none
  let gtChoice := if gpqa then extractGpqaChoice env.uni (some (groundTruth.str env)) else none
  match predChoice, gtChoice with
  | some predChoice, some gtChoice =>
      pure (some [predChoice], predChoice == gtChoice, fullAnswerText)
  | _, _ => pure (pred, isCorrect, fullAnswerText)

/-- A generated answer, read as the prompt asked for it. -/
def gradeText (env : Externals) (gpqaXml : Bool) (entry : PromptMeta) (generatedText : Str) :
    Except Error (Option Str × Bool × Str) :=
  let gpqa := isGpqa entry.dataSource
  if gpqa && gpqaXml then .ok (gradeXml env entry.groundTruth generatedText)
  else gradeBoxed env gpqa entry.groundTruth generatedText

def gradeSequence (env : Externals) (gpqaXml : Bool) (entry : PromptMeta)
    (generatedText : Str) : Except Error (Option Str × ℕ × Option PyFloat) := do
  let (pred, isCorrect, fullAnswerText) ← gradeText env gpqaXml entry generatedText
  let gt := entry.groundTruth.str env
  let isCorrect ← saraVerdict (entry.isSara env) fullAnswerText gt isCorrect
  pure (pred, accuracyOf isCorrect, computeSaraNumericalRisk fullAnswerText gt)

/-- The branch of an entry with finished thinking: the original output, graded once. -/
def scoreComplete (env : Externals) (n : ℕ) (entry : PromptMeta) : Except Error EntryScore := do
  let (isCorrect, pred) ← computeScore env entry.originalOutput entry.groundTruth
  let gt := entry.groundTruth.str env
  let isCorrect ← saraVerdict (entry.isSara env) entry.originalOutput gt isCorrect
  let risk := computeSaraNumericalRisk entry.originalOutput gt
  pure
    { forcedAnswers := List.replicate n pred
      forcedAccuracies := List.replicate n (accuracyOf isCorrect)
      forcedRisks := if entry.isSara env then List.replicate n risk else [] }

def scoreTruncated (env : Externals) (gpqaXml : Bool) (entry : PromptMeta)
    (generatedOutput : Option RequestOutput) : Except Error EntryScore := do
  let sequences ← sequencesOf generatedOutput
  let graded ← sequences.mapM (gradeSequence env gpqaXml entry)
  pure
    { forcedAnswers := graded.map (fun g => g.1)
      forcedAccuracies := graded.map (fun g => g.2.1)
      forcedRisks := if entry.isSara env then graded.map (fun g => g.2.2) else [] }

/-- The branch of a code entry; `lookup` reads the cache. -/
def scoreCode (lookup : ℕ → ℚ × Bool) (generatedOutput : Option RequestOutput) :
    Except Error EntryScore := do
  let sequences ← sequencesOf generatedOutput
  pure
    { forcedAnswers := sequences.map some
      forcedAccuracies := sequences.mapIdx (fun seqIdx _ => accuracyOf (lookup seqIdx).2)
      forcedRisks := [] }

def scoreEntry (env : Externals) (n : ℕ) (gpqaXml : Bool) (lookup : ℕ → ℚ × Bool)
    (entry : Entry) : Except Error EntryScore :=
  if entry.1.isCode then scoreCode lookup entry.2
  else if entry.1.thinkingComplete then scoreComplete env n entry.1
  else scoreTruncated env gpqaXml entry.1 entry.2

/-! ## Statistics and records -/

/-- `budget_stats[budget]`. -/
structure BudgetStats where
  correct : ℕ
  total : ℕ
  extracted : ℕ
  avgTokens : ℕ
  totalRisk : PyFloat
  riskCount : ℕ

def budgetStatsBase : BudgetStats := ⟨0, 0, 0, 0, .finite 0, 0⟩

def BudgetStats.addRisk (stats : BudgetStats) (risk : Option PyFloat) : BudgetStats :=
  match risk with
  | none => stats
  | some risk =>
      { stats with totalRisk := stats.totalRisk.add risk, riskCount := stats.riskCount + 1 }

/-- What counts as an extracted answer: text, for code, and a prediction elsewhere. -/
def wasExtracted (code : Bool) (answer : Option Str) : Bool :=
  if code then answer.any (· ≠ []) else answer.isSome

def BudgetStats.addAnswer (code : Bool) (truncatedCotLength : ℕ) (stats : BudgetStats)
    (answer : Option Str × ℕ) : BudgetStats :=
  { stats with
    total := stats.total + 1
    extracted := stats.extracted + if wasExtracted code answer.1 then 1 else 0
    correct := stats.correct + if answer.2 = 0 then 0 else 1
    avgTokens := stats.avgTokens + truncatedCotLength }

def BudgetStats.addEntry (stats : BudgetStats) (entry : PromptMeta × EntryScore) : BudgetStats :=
  let stats := entry.2.forcedRisks.foldl BudgetStats.addRisk stats
  (entry.2.forcedAnswers.zip entry.2.forcedAccuracies).foldl
    (BudgetStats.addAnswer entry.1.isCode entry.1.truncatedCotLength) stats

/-- `sum(xs) / len(xs) if xs else default`. -/
def meanOr (default : ℚ) (xs : List ℚ) : ℚ := if xs = [] then default else mean xs

def meanRisk (risks : List (Option PyFloat)) : Option PyFloat :=
  let validRisks := risks.filterMap id
  if validRisks = [] then none
  else some ((PyFloat.sum validRisks).scale (1 / validRisks.length))

/-- `result_record` in boxed mode. -/
structure BudgetRecord extends BudgetRow where
  forcedAnswers : List (Option Str)
  forcedAccuracies : List ℕ
  meanAccuracy : ℚ
  gpqaAnswerFormat : Option Str
  forcedRisks : Option (List (Option PyFloat))
  meanRisk : Option PyFloat

/-- The `gpqa_answer_format` of a record. -/
def gpqaFormat (gpqaXml : Bool) (dataSource : Str) : Option Str :=
  if isGpqa dataSource then some (if gpqaXml then "xml".toList else "boxed".toList) else none

def budgetRecordOf (gpqaXml : Bool) (entry : PromptMeta) (score : EntryScore) : BudgetRecord where
  toBudgetRow := entry.row
  forcedAnswers := score.forcedAnswers
  forcedAccuracies := score.forcedAccuracies
  meanAccuracy := meanOr 0 (score.forcedAccuracies.map (fun acc : ℕ => (acc : ℚ)))
  gpqaAnswerFormat := gpqaFormat gpqaXml entry.dataSource
  forcedRisks := if score.forcedRisks = [] then none else some score.forcedRisks
  meanRisk := meanRisk score.forcedRisks

/-- What the function returns: the records, and the statistics of each budget. -/
structure BudgetResults where
  allResults : List BudgetRecord
  budgetStats : Dict ℤ BudgetStats

/-- The end of the loop body of step 3b. -/
def BudgetResults.push (gpqaXml : Bool) (out : BudgetResults) (entry : PromptMeta)
    (score : EntryScore) : BudgetResults where
  allResults := out.allResults ++ [budgetRecordOf gpqaXml entry score]
  budgetStats := out.budgetStats.modify entry.budget (fun stats => stats.addEntry (entry, score))

def BudgetResults.start (budgets : List ℤ) : BudgetResults where
  allResults := []
  budgetStats := Dict.assign ∅ (budgets.map (fun b => (b, budgetStatsBase)))

/-- `rlcr=False`. -/
abbrev boxedMode (budgets : List ℤ) (gpqaXml : Bool) : BudgetEvalArgs where
  budgets := budgets
  rlcr := false
  gpqaXml := gpqaXml

/-- The entries with their outputs, after step 2. -/
def generatedEntries {n : ℕ} (tok : Tokenizer Token) (gen : Generator Token n)
    (budgets : List ℤ) (gpqaXml : Bool) (data : List Rollout) : List Entry :=
  let st := prepare tok (boxedMode budgets gpqaXml) data
  st.allMetadata.zip (attachOutputs gen st)

/-- `evaluate_budget_forced_outputs` with `rlcr=False`. -/
def evaluateBudgetForcedOutputs {n : ℕ} (env : Externals) (tok : Tokenizer Token)
    (gen : Generator Token n) (pool : CompletionOrder) (budgets : List ℤ) (gpqaXml : Bool)
    (data : List Rollout) : Except Error BudgetResults := do
  let entries := generatedEntries tok gen budgets gpqaXml data
  let cache ← codeScoreCache env (pool.asCompleted (codeItemsToScore entries))
  entries.zipIdx.foldlM (fun out entry => do
    let score ← scoreEntry env n gpqaXml (fun seqIdx => cache.getD (entry.2, seqIdx) (0, false))
      entry.1
    pure (out.push gpqaXml entry.1.1 score)) (BudgetResults.start budgets)

end RLCM.Eval
