/-
# `RLCM.Eval.BudgetEval` — cutting the rollouts at the budgets

The first step of `evaluate_budget_forced_outputs`: for every rollout and every
budget one entry of `all_metadata`, and a prompt in one of the two queues
unless the thinking already ends with a boxed answer.  Every entry becomes one
record of the output file; `BudgetRow` is what a record copies from its entry.

`budgetRows_eq` says which records the file holds: the rollouts in order, and
for each the budgets in order, with the thinking cut at the budget.
-/
import RLCM.Eval.Boxed

namespace RLCM.Eval

open Py

variable {Token : Type}

/-- What the evaluation uses of the tokenizer: `encode` without special tokens,
`decode` with `skip_special_tokens=False`. -/
structure Tokenizer (Token : Type) where
  encode : Str → List Token
  decode : List Token → Str

/-- `xs[:b]`; a negative bound counts from the end. -/
def prefixTo {α : Type} (xs : List α) (b : ℤ) : List α :=
  if 0 ≤ b then xs.take b.toNat else xs.take (xs.length - (-b).toNat)

theorem prefixTo_of_length_le {α : Type} {xs : List α} {b : ℤ} (h : (xs.length : ℤ) ≤ b) :
    prefixTo xs b = xs := by
  have hb : 0 ≤ b := by omega
  rw [prefixTo, if_pos hb]
  exact List.take_of_length_le (by omega)

/-! ## Rollouts -/

/-- A ground truth as the file holds it. -/
inductive GroundTruth where
  | value (t : Str)
  | list (ts : List Str)
deriving DecidableEq

/-- A list of one element stands for its element. -/
def GroundTruth.unwrap : GroundTruth → GroundTruth
  | .list [t] => .value t
  | truth => truth

/-- A rollout of the reproduced file. -/
structure Rollout where
  input : Str
  output : Str
  acc : Bool
  gts : Option GroundTruth
  groundTruth : Option GroundTruth
  dataSource : Option Str

def Rollout.truth (item : Rollout) : GroundTruth :=
  (item.gts.getD (item.groundTruth.getD (.value []))).unwrap

def Rollout.source (item : Rollout) : Str := item.dataSource.getD "unknown".toList

/-- `data_source in CODE_DATA_SOURCES`. -/
def isCode (dataSource : Str) : Bool :=
  dataSource ∈ ["codecontests".toList, "apps".toList, "codeforces".toList, "taco".toList,
    "livecodebench".toList]

/-- `str(data_source).lower() in GPQA_DATA_SOURCES`. -/
def isGpqa (dataSource : Str) : Bool :=
  dataSource.lower ∈ ["gpqa".toList, "gpqa_rlcr".toList]

/-! ## Closing prompts -/

/-- `"..." + THINK_END_TAG + "\n\n"` and the prompt for the answer. -/
def closing (forcedAnswerPrompt : Str) : Str :=
  "...".toList ++ thinkEndTag ++ "\n\n".toList ++ forcedAnswerPrompt

def forcedAnswerPrompt : Str :=
  "If I were to give the final answer now, the final answer would be \\boxed\x7b".toList

def forcedAnswerPromptGpqaXml : Str :=
  "Answer now with exactly one XML tag. Use only A, B, C, or D.\n<answer>".toList

def forcedAnswerPromptRlcr : Str :=
  ("I am out of time, let me just output the final answer and confidence analysis " ++
    "in exactly this format:\n" ++
    "<answer> final answer here </answer>\n" ++
    "<analysis> confidence and uncertainty analysis here </analysis>\n" ++
    "<confidence> number between 0 and 1 </confidence>" ++ "\n\n" ++ "<answer>").toList

def forcedAnswerPromptCode : Str := "Here is my final Python solution:\n".toList

/-! ## Prompts at the budgets -/

/-- One tuple of `build_budget_prompts`. -/
structure BudgetPrompt (Token : Type) where
  budget : ℤ
  tokenPrompt : Option (List Token)
  truncatedCot : Str
  truncatedCotLength : ℕ
  thinkingComplete : Bool

def cutPrompt (tok : Tokenizer Token) (prompt thinkingContent closingPrompt : Str)
    (budget : ℤ) : BudgetPrompt Token :=
  let truncatedThinkingIds := prefixTo (tok.encode thinkingContent) budget
  { budget
    tokenPrompt := some (tok.encode prompt ++ truncatedThinkingIds ++ tok.encode closingPrompt)
    truncatedCot := tok.decode truncatedThinkingIds
    truncatedCotLength := truncatedThinkingIds.length
    thinkingComplete := false }

def buildBudgetPrompts (tok : Tokenizer Token) (prompt thinkingContent : Str) (budgets : List ℤ)
    (closingPrompt : Option Str) (alwaysGenerate : Bool) : List (BudgetPrompt Token) :=
  let thinkingTokenIds := tok.encode thinkingContent
  let closingPrompt := closingPrompt.getD (closing forcedAnswerPrompt)
  let thinkingHasBoxed := !alwaysGenerate && (lastBoxedOnlyString thinkingContent).isSome
  budgets.map (fun budget =>
    if (thinkingTokenIds.length : ℤ) ≤ budget && thinkingHasBoxed then
      { budget
        tokenPrompt := none
        truncatedCot := tok.decode thinkingTokenIds
        truncatedCotLength := thinkingTokenIds.length
        thinkingComplete := true }
    else cutPrompt tok prompt thinkingContent closingPrompt budget)

def buildBudgetPromptsRlcr (tok : Tokenizer Token) (prompt thinkingContent : Str)
    (budgets : List ℤ) : List (BudgetPrompt Token) :=
  budgets.map (cutPrompt tok prompt thinkingContent (closing forcedAnswerPromptRlcr))

/-! ## The entries -/

/-- An entry of `all_metadata` before generation. -/
structure PromptMeta where
  rolloutIdx : ℕ
  budget : ℤ
  truncatedCot : Str
  truncatedCotLength : ℕ
  groundTruth : GroundTruth
  prompt : Str
  dataSource : Str
  isCode : Bool
  thinkingComplete : Bool
  originalOutput : Str

/-- The list a prompt goes to. -/
inductive Queue where
  | math
  | code
  | noGeneration
deriving DecidableEq

/-- The options of a run. -/
structure BudgetEvalArgs where
  budgets : List ℤ
  rlcr : Bool
  gpqaXml : Bool

def rolloutEntries (tok : Tokenizer Token) (args : BudgetEvalArgs) (rolloutIdx : ℕ)
    (item : Rollout) : List (PromptMeta × Option (List Token) × Queue) :=
  let thinkingContent := extractThinkingContent item.output
  let promptMeta (p : BudgetPrompt Token) (code complete : Bool) : PromptMeta :=
    { rolloutIdx, budget := p.budget, truncatedCot := p.truncatedCot
      truncatedCotLength := p.truncatedCotLength, groundTruth := item.truth
      prompt := item.input, dataSource := item.source, isCode := code
      thinkingComplete := complete, originalOutput := item.output }
  if args.rlcr then
    (buildBudgetPromptsRlcr tok item.input thinkingContent args.budgets).map (fun p =>
      (promptMeta p (isCode item.source) false, p.tokenPrompt, .math))
  else if isCode item.source then
    (buildBudgetPrompts tok item.input thinkingContent args.budgets
      (some (closing forcedAnswerPromptCode)) true).map (fun p =>
        (promptMeta p true false, p.tokenPrompt, .code))
  else
    let gpqa := isGpqa item.source
    let closingPrompt :=
      if gpqa && args.gpqaXml then some (closing forcedAnswerPromptGpqaXml) else none
    (buildBudgetPrompts tok item.input thinkingContent args.budgets closingPrompt gpqa).map
      (fun p =>
        (promptMeta p false (if gpqa then false else p.thinkingComplete), p.tokenPrompt,
          if gpqa || !p.thinkingComplete then .math else .noGeneration))

/-- The lists step 1 builds; a prompt stands with the index of its entry. -/
structure Prepared (Token : Type) where
  mathPrompts : List (Option (List Token) × ℕ)
  codePrompts : List (Option (List Token) × ℕ)
  allMetadata : List PromptMeta

/-- The body of the loops: append the entry and queue its prompt. -/
def Prepared.add (st : Prepared Token) (entry : PromptMeta × Option (List Token) × Queue) :
    Prepared Token :=
  let metaIdx := st.allMetadata.length
  { mathPrompts :=
      if entry.2.2 = .math then st.mathPrompts ++ [(entry.2.1, metaIdx)] else st.mathPrompts
    codePrompts :=
      if entry.2.2 = .code then st.codePrompts ++ [(entry.2.1, metaIdx)] else st.codePrompts
    allMetadata := st.allMetadata ++ [entry.1] }

/-- Step 1 of `evaluate_budget_forced_outputs`. -/
def prepare (tok : Tokenizer Token) (args : BudgetEvalArgs) (data : List Rollout) :
    Prepared Token :=
  data.zipIdx.foldl (fun st item =>
    (rolloutEntries tok args item.2 item.1).foldl Prepared.add st) ⟨[], [], []⟩

/-- What a record copies from its entry. -/
structure BudgetRow where
  rolloutIdx : ℕ
  prompt : Str
  budget : ℤ
  truncatedCot : Str
  truncatedCotLength : ℕ
  groundTruth : GroundTruth
  dataSource : Str

/-- The copied part of `result_record`. -/
def PromptMeta.row (entry : PromptMeta) : BudgetRow where
  rolloutIdx := entry.rolloutIdx
  prompt := entry.prompt
  budget := entry.budget
  truncatedCot := entry.truncatedCot
  truncatedCotLength := entry.truncatedCotLength
  groundTruth := entry.groundTruth
  dataSource := entry.dataSource

/-- The records of the output file, one for every entry. -/
def budgetRows (tok : Tokenizer Token) (args : BudgetEvalArgs) (data : List Rollout) :
    List BudgetRow :=
  (prepare tok args data).allMetadata.map PromptMeta.row

/-! ## Which records the file holds -/

/-- The thinking of a rollout cut at a budget, as text. -/
def truncatedCot (tok : Tokenizer Token) (budget : ℤ) (item : Rollout) : Str :=
  tok.decode (prefixTo (tok.encode (extractThinkingContent item.output)) budget)

/-- The record of a rollout at a budget. -/
def rowAt (tok : Tokenizer Token) (rolloutIdx : ℕ) (item : Rollout) (budget : ℤ) : BudgetRow where
  rolloutIdx := rolloutIdx
  prompt := item.input
  budget := budget
  truncatedCot := truncatedCot tok budget item
  truncatedCotLength := (prefixTo (tok.encode (extractThinkingContent item.output)) budget).length
  groundTruth := item.truth
  dataSource := item.source

theorem allMetadata_foldl_add (entries : List (PromptMeta × Option (List Token) × Queue))
    (st : Prepared Token) :
    (entries.foldl Prepared.add st).allMetadata = st.allMetadata ++ entries.map Prod.fst := by
  induction entries generalizing st with
  | nil => simp
  | cons entry entries ih =>
      rw [List.foldl_cons, ih]
      simp [Prepared.add]

theorem allMetadata_prepare (tok : Tokenizer Token) (args : BudgetEvalArgs)
    (data : List Rollout) :
    (prepare tok args data).allMetadata =
      data.zipIdx.flatMap (fun item => (rolloutEntries tok args item.2 item.1).map Prod.fst) := by
  have hloop : ∀ (items : List (Rollout × ℕ)) (st : Prepared Token),
      (items.foldl (fun st item => (rolloutEntries tok args item.2 item.1).foldl Prepared.add st)
        st).allMetadata =
        st.allMetadata ++
          items.flatMap (fun item => (rolloutEntries tok args item.2 item.1).map Prod.fst) := by
    intro items
    induction items with
    | nil => simp
    | cons item items ih =>
        intro st
        rw [List.foldl_cons, ih, allMetadata_foldl_add, List.flatMap_cons, List.append_assoc]
  rw [prepare, hloop, List.nil_append]

/-- Whether or not the thinking is complete, the tuple of a budget holds the
thinking cut there. -/
theorem buildBudgetPrompts_cut (tok : Tokenizer Token) (prompt thinkingContent : Str)
    (budgets : List ℤ) (closingPrompt : Option Str) (alwaysGenerate : Bool) :
    (buildBudgetPrompts tok prompt thinkingContent budgets closingPrompt alwaysGenerate).map
        (fun p => (p.budget, p.truncatedCot, p.truncatedCotLength)) =
      budgets.map (fun b =>
        (b, tok.decode (prefixTo (tok.encode thinkingContent) b),
          (prefixTo (tok.encode thinkingContent) b).length)) := by
  rw [buildBudgetPrompts, List.map_map]
  apply List.map_congr_left
  intro b _
  simp only [Function.comp]
  split
  case isTrue h =>
    rw [Bool.and_eq_true, decide_eq_true_eq] at h
    rw [prefixTo_of_length_le h.1]
  case isFalse h => rfl

/-- A record is determined by the cut of its tuple. -/
theorem row_map_eq {f : BudgetPrompt Token → PromptMeta} {tok : Tokenizer Token} {idx : ℕ}
    {item : Rollout} {prompts : List (BudgetPrompt Token)} {budgets : List ℤ}
    (hcut : prompts.map (fun p => (p.budget, p.truncatedCot, p.truncatedCotLength)) =
      budgets.map (fun b =>
        (b, tok.decode (prefixTo (tok.encode (extractThinkingContent item.output)) b),
          (prefixTo (tok.encode (extractThinkingContent item.output)) b).length)))
    (hrow : ∀ p, (f p).row =
      ⟨idx, item.input, p.budget, p.truncatedCot, p.truncatedCotLength, item.truth,
        item.source⟩) :
    prompts.map (fun p => (f p).row) = budgets.map (rowAt tok idx item) := by
  have := congrArg (List.map (fun t : ℤ × Str × ℕ =>
    (⟨idx, item.input, t.1, t.2.1, t.2.2, item.truth, item.source⟩ : BudgetRow))) hcut
  rw [List.map_map, List.map_map] at this
  rw [List.map_congr_left (fun p _ => hrow p)]
  exact this

theorem rolloutEntries_rows (tok : Tokenizer Token) (args : BudgetEvalArgs) (idx : ℕ)
    (item : Rollout) :
    ((rolloutEntries tok args idx item).map Prod.fst).map PromptMeta.row =
      args.budgets.map (rowAt tok idx item) := by
  unfold rolloutEntries
  split
  · rw [List.map_map, List.map_map]
    refine row_map_eq (f := fun p => _) ?_ (fun p => rfl)
    rw [buildBudgetPromptsRlcr, List.map_map]
    rfl
  · split
    · rw [List.map_map, List.map_map]
      exact row_map_eq (f := fun p => _) (buildBudgetPrompts_cut ..) (fun p => rfl)
    · rw [List.map_map, List.map_map]
      exact row_map_eq (f := fun p => _) (buildBudgetPrompts_cut ..) (fun p => rfl)

/-- The file holds, for every rollout in order and every budget in order, one
record with the thinking cut at the budget. -/
theorem budgetRows_eq (tok : Tokenizer Token) (args : BudgetEvalArgs) (data : List Rollout) :
    budgetRows tok args data =
      data.zipIdx.flatMap (fun item => args.budgets.map (rowAt tok item.2 item.1)) := by
  rw [budgetRows, allMetadata_prepare, List.map_flatMap]
  apply List.flatMap_congr
  intro item _
  exact rolloutEntries_rows tok args item.2 item.1

theorem mem_budgetRows {tok : Tokenizer Token} {args : BudgetEvalArgs} {data : List Rollout}
    {row : BudgetRow} :
    row ∈ budgetRows tok args data ↔
      ∃ (i : ℕ) (item : Rollout), data[i]? = some item ∧
        ∃ b ∈ args.budgets, row = rowAt tok i item b := by
  rw [budgetRows_eq]
  simp only [List.mem_flatMap, List.mem_map, Prod.exists, List.mem_zipIdx_iff_getElem?]
  constructor
  · rintro ⟨item, i, hi, b, hb, rfl⟩
    exact ⟨i, item, hi, b, hb, rfl⟩
  · rintro ⟨i, item, hi, b, hb, rfl⟩
    exact ⟨item, i, hi, b, hb, rfl⟩

end RLCM.Eval
