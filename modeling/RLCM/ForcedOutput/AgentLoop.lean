/-
# `RLCM.ForcedOutput.AgentLoop` — the two-phase agent loop

`ForcedOutputAgentLoop.run` takes the thinking trace of phase 1, cuts it at
every budget, sends one request per budget and answer, and stores the decoded
answers and the full texts to be scored under the budget as key.

What is outside the repository is a parameter: the tokenizer, the trace phase 1
returned, and the generator.  The generator sees a request number besides the
prompt, since two requests with the same prompt may be answered differently;
`asyncio.gather` returns the answers in the order of the requests.

`run_ok` is the specification later modules use: with at least one answer per
budget the loop returns, and under each budget it stores exactly the answers
generated from the prompt cut at that budget.
-/
import RLCM.Py.Error
import RLCM.Py.Dict
import RLCM.Py.Str
import RLCM.ForcedOutput.Budget

namespace RLCM.ForcedOutput

open Py

/-- What the agent loop uses of the tokenizer: `encode` without special
tokens, `decode` with `skip_special_tokens=True`. -/
structure Tokenizer (Token : Type) where
  encode : Str → List Token
  decode : List Token → Str
  eosTokenId : Token

/-- `config.forced_output`, and the response length of the rollout. -/
structure AgentLoopConfig where
  stopToken : Str
  budgetCheckpoints : List Budget
  suffixPrompt : Str
  includeFullTrace : Bool
  numForcedAnswers : ℕ
  trainOnForcedOutput : Bool
  responseLength : ℕ

/-- What phase 1 returned. -/
structure ThinkingOutput (Token : Type) where
  tokenIds : List Token
  logProbs : Option (List ℚ)

/-- One request of phase 2 with its label `(budget, ans_idx)`. -/
structure ForcedTask (Token : Type) where
  budget : ℕ
  ansIdx : ℕ
  promptIds : List Token

/-- `extra_fields` of the output.  The cut points are ascending by
construction. -/
structure ExtraFields (Token : Type) where
  forcedAnswers : Dict ℕ Str
  forcedAnswerIds : Dict ℕ (List Token)
  forcedAnswersMulti : Dict ℕ (List Str)
  forcedAnswerIdsMulti : Dict ℕ (List (List Token))
  budgetCheckpoints : List ℕ
  ascending : StrictAsc budgetCheckpoints
  numForcedAnswers : ℕ
  traceLength : ℕ
  forcedFullTexts : Dict ℕ Str
  forcedFullTextsMulti : Dict ℕ (List Str)
  trainOnForcedOutput : Bool

/-- `AgentLoopOutput`. -/
structure AgentLoopOutput (Token : Type) where
  promptIds : List Token
  responseIds : List Token
  responseMask : List ℕ
  responseLogprobs : Option (List ℚ)
  extraFields : ExtraFields Token

variable {Token : Type} [DecidableEq Token]

/-! ## Prompts -/

/-- `build_forced_output_tokens`: the cut trace, the closing token unless the
cut trace ends with it, the suffix. -/
def buildForcedOutputTokens (thinkingTraceIds : List Token) (truncationLength : ℕ)
    (thinkEndTokenId : Token) (suffixTokenIds : List Token) : List Token :=
  let truncated := thinkingTraceIds.take truncationLength
  if truncated.getLast? = some thinkEndTokenId then truncated ++ suffixTokenIds
  else truncated ++ [thinkEndTokenId] ++ suffixTokenIds

section Loop

variable (tok : Tokenizer Token) (cfg : AgentLoopConfig)

def stopTokenIds : List Token := tok.encode cfg.stopToken

/-- `self.think_end_token_id`: the last stop token id, or EOS when the stop
token is empty. -/
def thinkEndTokenId : Token := (stopTokenIds tok cfg).getLast?.getD tok.eosTokenId

def suffixTokenIds : List Token := tok.encode cfg.suffixPrompt

/-- The prompt sent for budget `budget`. -/
def forcedPrompt (promptIds trace : List Token) (budget : ℕ) : List Token :=
  promptIds ++ buildForcedOutputTokens trace budget (thinkEndTokenId tok cfg)
    (suffixTokenIds tok cfg)

/-- The cut points of a trace under this configuration. -/
def budgetsOf (trace : List Token) : List ℕ :=
  truncationLengths cfg.budgetCheckpoints cfg.includeFullTrace trace.length

/-- `forced_tasks` with `budget_labels`: one request per budget and answer. -/
def forcedTasks (promptIds trace : List Token) : List (ForcedTask Token) :=
  (budgetsOf cfg trace).flatMap (fun budget =>
    (List.range cfg.numForcedAnswers).map (fun ansIdx =>
      { budget := budget
        ansIdx := ansIdx
        promptIds := forcedPrompt tok cfg promptIds trace budget }))

/-! ## Texts -/

def truncatedTraceText (trace : List Token) (budget : ℕ) : Str :=
  tok.decode (trace.take budget)

/-- `think_end_text`: the stop string, unless the cut text without trailing
white space already ends with it. -/
def thinkEndText (trace : List Token) (budget : ℕ) : Str :=
  if (truncatedTraceText tok trace budget).rstrip.endsWith cfg.stopToken then []
  else cfg.stopToken

def fullText (trace : List Token) (budget : ℕ) (answerText : Str) : Str :=
  truncatedTraceText tok trace budget ++ thinkEndText tok cfg trace budget ++
    cfg.suffixPrompt ++ answerText

/-- The body of the loop that fills `forced_full_texts` and
`forced_full_texts_multi`. -/
def fullTextsStep (trace : List Token) (forcedAnswersMulti : Dict ℕ (List Str))
    (texts : Dict ℕ Str × Dict ℕ (List Str)) (budget : ℕ) :
    Except Error (Dict ℕ Str × Dict ℕ (List Str)) := do
  let answers ← (forcedAnswersMulti.lookup budget).elim (.error .keyError) .ok
  let budgetFullTexts := answers.map (fullText tok cfg trace budget)
  let first ← getItem budgetFullTexts 0
  pure (texts.1.insert budget first, texts.2.insert budget budgetFullTexts)

/-! ## The loop -/

/-- `ForcedOutputAgentLoop.run` after phase 1. -/
def run (promptIds : List Token) (thinkingOutput : ThinkingOutput Token)
    (generate : ℕ → List Token → List Token) : Except Error (AgentLoopOutput Token) := do
  let thinkingTraceIds := thinkingOutput.tokenIds
  let traceLength := thinkingTraceIds.length
  let lengths := budgetsOf cfg thinkingTraceIds
  let tasks := forcedTasks tok cfg promptIds thinkingTraceIds
  let forcedOutputs := tasks.mapIdx (fun requestId task => generate requestId task.promptIds)
  let answered := tasks.zip forcedOutputs
  let first := answered.filter (fun answer => answer.1.ansIdx = 0)
  let forcedAnswersMulti := Dict.group (answered.map (fun a => (a.1.budget, tok.decode a.2)))
  let forcedAnswerIds := Dict.assign ∅ (first.map (fun a => (a.1.budget, a.2)))
  let texts ← lengths.foldlM (fullTextsStep tok cfg thinkingTraceIds forcedAnswersMulti) (∅, ∅)
  let trainOnFo := cfg.trainOnForcedOutput && cfg.budgetCheckpoints.length == 0 &&
    cfg.includeFullTrace
  let extraFields : ExtraFields Token :=
    { forcedAnswers := Dict.assign ∅ (first.map (fun a => (a.1.budget, tok.decode a.2)))
      forcedAnswerIds := forcedAnswerIds
      forcedAnswersMulti := forcedAnswersMulti
      forcedAnswerIdsMulti := Dict.group (answered.map (fun a => (a.1.budget, a.2)))
      budgetCheckpoints := lengths
      ascending := truncationLengths_strictAsc _ _ _
      numForcedAnswers := cfg.numForcedAnswers
      traceLength := traceLength
      forcedFullTexts := texts.1
      forcedFullTextsMulti := texts.2
      trainOnForcedOutput := trainOnFo }
  if trainOnFo then
    let foSuffixIds := (buildForcedOutputTokens thinkingTraceIds traceLength
      (thinkEndTokenId tok cfg) (suffixTokenIds tok cfg)).drop traceLength
    let fullTraceAnswerIds := forcedAnswerIds.getD traceLength []
    let fullResponseIds := thinkingTraceIds ++ foSuffixIds ++ fullTraceAnswerIds
    let fullResponseMask := List.replicate fullResponseIds.length 1
    pure
      { promptIds := promptIds
        responseIds := fullResponseIds.take cfg.responseLength
        responseMask := fullResponseMask.take cfg.responseLength
        responseLogprobs := none
        extraFields := extraFields }
  else
    pure
      { promptIds := promptIds
        responseIds := thinkingTraceIds.take cfg.responseLength
        responseMask := (List.replicate thinkingTraceIds.length 1).take cfg.responseLength
        responseLogprobs :=
          (thinkingOutput.logProbs.filter (· ≠ [])).map (·.take cfg.responseLength)
        extraFields := extraFields }

/-! ## What the dictionaries hold -/

/-- The number of the request for answer `ansIdx` at budget `budget`. -/
def requestId (trace : List Token) (budget ansIdx : ℕ) : ℕ :=
  (budgetsOf cfg trace).idxOf budget * cfg.numForcedAnswers + ansIdx

/-- Answer `ansIdx` generated from the prompt cut at `budget`. -/
def forcedAnswer (promptIds trace : List Token) (generate : ℕ → List Token → List Token)
    (budget ansIdx : ℕ) : List Token :=
  generate (requestId cfg trace budget ansIdx) (forcedPrompt tok cfg promptIds trace budget)

/-- The full texts of the answers generated from the prompt cut at `budget`. -/
def forcedFullTextsAt (promptIds trace : List Token)
    (generate : ℕ → List Token → List Token) (budget : ℕ) : List Str :=
  (List.range cfg.numForcedAnswers).map (fun ansIdx =>
    fullText tok cfg trace budget
      (tok.decode (forcedAnswer tok cfg promptIds trace generate budget ansIdx)))

omit [DecidableEq Token] in
theorem zip_mapIdx {α β : Type} (xs : List α) (f : ℕ → α → β) :
    xs.zip (xs.mapIdx f) = xs.mapIdx (fun i x => (x, f i x)) := by
  apply List.ext_getElem
  · simp
  · intro i h₁ h₂
    simp

theorem answered_eq_nested {ν : Type} (promptIds trace : List Token)
    (generate : ℕ → List Token → List Token) (g : List Token → ν) :
    (((forcedTasks tok cfg promptIds trace).zip
        ((forcedTasks tok cfg promptIds trace).mapIdx
          (fun requestId task => generate requestId task.promptIds))).map
      (fun a => (a.1.budget, g a.2))) =
      nested (budgetsOf cfg trace) cfg.numForcedAnswers
        (fun j budget _ => g (generate j (forcedPrompt tok cfg promptIds trace budget))) := by
  have htasks : forcedTasks tok cfg promptIds trace =
      ((budgetsOf cfg trace).flatMap (fun budget =>
        (List.range cfg.numForcedAnswers).map (fun ansIdx => (budget, ansIdx)))).map
          (fun label => { budget := label.1, ansIdx := label.2,
                          promptIds := forcedPrompt tok cfg promptIds trace label.1 }) := by
    simp [forcedTasks, List.map_flatMap, Function.comp_def]
  rw [zip_mapIdx, htasks]
  apply List.ext_getElem
  · simp [nested]
  · intro i h₁ h₂
    simp [nested]

variable (promptIds : List Token) (trace : List Token)
  (generate : ℕ → List Token → List Token)

theorem lookup_forcedAnswersMulti (hn : 1 ≤ cfg.numForcedAnswers) {budget : ℕ}
    (hb : budget ∈ budgetsOf cfg trace) :
    (Dict.group (nested (budgetsOf cfg trace) cfg.numForcedAnswers (fun j b _ =>
        tok.decode (generate j (forcedPrompt tok cfg promptIds trace b))))).lookup budget =
      some ((List.range cfg.numForcedAnswers).map (fun ansIdx =>
        tok.decode (forcedAnswer tok cfg promptIds trace generate budget ansIdx))) := by
  have hnodup : (budgetsOf cfg trace).Nodup :=
    (truncationLengths_strictAsc _ _ _).nodup
  have hvals := valuesAt_nested (n := cfg.numForcedAnswers) hnodup hb (fun j b _ =>
    tok.decode (generate j (forcedPrompt tok cfg promptIds trace b)))
  have hne : Dict.valuesAt (nested (budgetsOf cfg trace) cfg.numForcedAnswers (fun j b _ =>
      tok.decode (generate j (forcedPrompt tok cfg promptIds trace b)))) budget ≠ [] := by
    rw [hvals]
    intro hnil
    have := congrArg List.length hnil
    simp only [List.length_map, List.length_range, List.length_nil] at this
    omega
  rw [Dict.lookup_group hne, hvals]
  rfl

omit [DecidableEq Token] in
/-- The text loop over the budgets never raises when every budget has an
answer, and assigns each budget its texts. -/
theorem foldlM_fullTextsStep {budgets : List ℕ} {answersMulti : Dict ℕ (List Str)}
    {answers : ℕ → List Str}
    (hlook : ∀ b ∈ budgets, answersMulti.lookup b = some (answers b))
    (hne : ∀ b ∈ budgets, answers b ≠ []) :
    budgets.foldlM (fullTextsStep tok cfg trace answersMulti) (∅, ∅) =
      .ok (Dict.assign ∅ (budgets.map (fun b =>
              (b, fullText tok cfg trace b ((answers b).headD [])))),
           Dict.assign ∅ (budgets.map (fun b =>
              (b, (answers b).map (fullText tok cfg trace b))))) := by
  have hstep : ∀ texts, ∀ b ∈ budgets, fullTextsStep tok cfg trace answersMulti texts b =
      .ok (texts.1.insert b (fullText tok cfg trace b ((answers b).headD [])),
           texts.2.insert b ((answers b).map (fullText tok cfg trace b))) := by
    intro texts b hb
    simp only [fullTextsStep, hlook b hb, Option.elim_some, ok_bind]
    cases hans : answers b with
    | nil => exact absurd hans (hne b hb)
    | cons a as => simp [getItem]
  rw [foldlM_eq_foldl hstep]
  have hfold : ∀ texts : Dict ℕ Str × Dict ℕ (List Str),
      budgets.foldl (fun texts b =>
        (texts.1.insert b (fullText tok cfg trace b ((answers b).headD [])),
          texts.2.insert b ((answers b).map (fullText tok cfg trace b)))) texts =
      (Dict.assign texts.1 (budgets.map (fun b =>
          (b, fullText tok cfg trace b ((answers b).headD [])))),
        Dict.assign texts.2 (budgets.map (fun b =>
          (b, (answers b).map (fullText tok cfg trace b))))) := by
    clear hlook hne hstep
    induction budgets with
    | nil => intro texts; rfl
    | cons b budgets ih =>
        intro texts
        simp only [List.foldl_cons, List.map_cons, Dict.assign]
        rw [ih]
        rfl
  rw [hfold]

/-- The loop returns, and stores under each budget the texts of exactly the
answers generated from the prompt cut at that budget. -/
theorem run_ok (thinkingOutput : ThinkingOutput Token) (hn : 1 ≤ cfg.numForcedAnswers) :
    ∃ out, run tok cfg promptIds thinkingOutput generate = .ok out ∧
      out.extraFields.budgetCheckpoints = budgetsOf cfg thinkingOutput.tokenIds ∧
      out.extraFields.traceLength = thinkingOutput.tokenIds.length ∧
      ∀ budget ∈ budgetsOf cfg thinkingOutput.tokenIds,
        out.extraFields.forcedFullTextsMulti.lookup budget =
          some (forcedFullTextsAt tok cfg promptIds thinkingOutput.tokenIds generate budget) ∧
        out.extraFields.forcedFullTexts.lookup budget =
          some ((forcedFullTextsAt tok cfg promptIds thinkingOutput.tokenIds generate
            budget).headD []) := by
  have hnodup : (budgetsOf cfg thinkingOutput.tokenIds).Nodup :=
    (truncationLengths_strictAsc _ _ _).nodup
  let answers : ℕ → List Str := fun b => (List.range cfg.numForcedAnswers).map (fun ansIdx =>
    tok.decode (forcedAnswer tok cfg promptIds thinkingOutput.tokenIds generate b ansIdx))
  have hne : ∀ b, answers b ≠ [] := by
    intro b hnil
    have := congrArg List.length hnil
    simp only [answers, List.length_map, List.length_range, List.length_nil] at this
    omega
  have htexts : ∀ b, forcedFullTextsAt tok cfg promptIds thinkingOutput.tokenIds generate b =
      (answers b).map (fullText tok cfg thinkingOutput.tokenIds b) := by
    intro b
    simp [forcedFullTextsAt, answers, Function.comp_def]
  have hfold := foldlM_fullTextsStep tok cfg thinkingOutput.tokenIds
    (fun b hb => lookup_forcedAnswersMulti tok cfg promptIds thinkingOutput.tokenIds generate
      hn hb) (fun b _ => hne b)
  have hkeys : ∀ {ν : Type} (f : ℕ → ν),
      (((budgetsOf cfg thinkingOutput.tokenIds).map (fun b => (b, f b))).map Prod.fst).Nodup := by
    intro ν f
    simpa [List.map_map, Function.comp_def] using hnodup
  simp only [run, answered_eq_nested, hfold, ok_bind]
  -- The two branches differ in the response only, never in `extra_fields`.
  split <;>
  · refine ⟨_, rfl, rfl, rfl, fun budget hb => ⟨?_, ?_⟩⟩
    · rw [htexts]
      exact Dict.lookup_assign ∅ (hkeys _) (List.mem_map.mpr ⟨budget, hb, rfl⟩)
    · have hhead : ((answers budget).map (fullText tok cfg thinkingOutput.tokenIds budget)).headD []
          = fullText tok cfg thinkingOutput.tokenIds budget ((answers budget).headD []) := by
        cases hans : answers budget with
        | nil => exact absurd hans (hne budget)
        | cons a as => rfl
      rw [htexts, hhead]
      exact Dict.lookup_assign ∅ (hkeys _) (List.mem_map.mpr ⟨budget, hb, rfl⟩)

end Loop

end RLCM.ForcedOutput
