/-
# `RLCM.ForcedOutput.TrainedTokens` — the tokens that are trained on, and those that are scored

With `train_on_forced_output`, no budgets and the full trace as a budget of its own, the
response of a sample is the trace, the closing tokens and the first forced answer, cut to the
response length.  The suffix is what the builder of the prompts puts behind the trace, so
prompt and response together are the forced prompt that was sent and the answer to it
(`prompt_append_fullResponse`).

The trainer finds the natural trace in the padded response by its length alone.  It scores
the trace, cut to the response length, and no forced token; a trace without tokens is not
scored at all: `trainedTokens_generated`.
-/
import RLCM.ForcedOutput.ForcedPrompt
import RLCM.ForcedOutput.Trainer

namespace RLCM.ForcedOutput

open Py

variable {Token : Type} [DecidableEq Token]

/-- `train_on_fo`. -/
def AgentLoopConfig.TrainsOnForcedOutput (cfg : AgentLoopConfig) : Prop :=
  cfg.trainOnForcedOutput = true ∧ cfg.budgetCheckpoints = [] ∧ cfg.includeFullTrace = true

/-! ## The response -/

section Response

variable (tok : Tokenizer Token) (cfg : AgentLoopConfig)

def fullResponseIds (trace answerIds : List Token) : List Token :=
  trace ++ (buildForcedOutputTokens trace trace.length (thinkEndTokenId tok cfg)
    (suffixTokenIds tok cfg)).drop trace.length ++ answerIds

theorem prompt_append_fullResponse (promptIds trace answerIds : List Token) :
    promptIds ++ fullResponseIds tok cfg trace answerIds =
      forcedPrompt tok cfg promptIds trace trace.length ++ answerIds := by
  -- the builder leaves the trace as it was, so slicing at its length gives the suffix
  have hbuild : trace <+: buildForcedOutputTokens trace trace.length (thinkEndTokenId tok cfg)
      (suffixTokenIds tok cfg) := by
    rw [buildForcedOutputTokens, List.take_length]
    split
    case isTrue => exact List.prefix_append _ _
    case isFalse =>
      rw [List.append_assoc]
      exact List.prefix_append _ _
  obtain ⟨suffix, hsuffix⟩ := hbuild
  rw [fullResponseIds, forcedPrompt, ← hsuffix, List.drop_left, List.append_assoc promptIds,
    List.append_assoc trace]

omit [DecidableEq Token] in
theorem budgetsOf_of_trains {cfg : AgentLoopConfig} (h : cfg.TrainsOnForcedOutput)
    (trace : List Token) : budgetsOf cfg trace = [trace.length] := by
  rw [budgetsOf, h.2.1, h.2.2]
  rfl

/-- The first answer to the one prompt is stored under the length of the trace. -/
theorem first_forcedAnswerIds (h : cfg.TrainsOnForcedOutput) (hn : 1 ≤ cfg.numForcedAnswers)
    (promptIds trace : List Token) (generate : ℕ → List Token → List Token) :
    (((forcedTasks tok cfg promptIds trace).zip
        ((forcedTasks tok cfg promptIds trace).mapIdx
          (fun requestId task => generate requestId task.promptIds))).filter
      (fun answer => answer.1.ansIdx = 0)).map (fun a => (a.1.budget, a.2)) =
      [(trace.length, forcedAnswer tok cfg promptIds trace generate trace.length 0)] := by
  obtain ⟨n, hn⟩ := Nat.exists_eq_add_of_le' hn
  have htasks : forcedTasks tok cfg promptIds trace =
      (List.range (n + 1)).map (fun ansIdx =>
        { budget := trace.length
          ansIdx := ansIdx
          promptIds := forcedPrompt tok cfg promptIds trace trace.length }) := by
    rw [forcedTasks, budgetsOf_of_trains h, hn, List.flatMap_singleton]
  have hid : requestId cfg trace trace.length 0 = 0 := by
    rw [requestId, budgetsOf_of_trains h, List.idxOf_cons_self, Nat.zero_mul]
  rw [zip_mapIdx, htasks, List.range_succ_eq_map, List.map_cons, List.mapIdx_cons,
    List.filter_cons_of_pos (by exact decide_eq_true rfl), forcedAnswer, hid]
  -- the other answers have other numbers
  have hothers : ∀ answer ∈ (((List.range n).map Nat.succ).map (fun ansIdx =>
        ({ budget := trace.length
           ansIdx := ansIdx
           promptIds := forcedPrompt tok cfg promptIds trace trace.length } :
          ForcedTask Token))).mapIdx
        (fun i task => (task, generate (i + 1) task.promptIds)),
      ¬ decide (answer.1.ansIdx = 0) = true := by
    intro answer hanswer
    obtain ⟨i, hi, rfl⟩ := List.mem_mapIdx.mp hanswer
    rw [decide_eq_true_iff]
    simp
  rw [List.filter_eq_nil_iff.mpr hothers]
  rfl

/-- What the loop returns: it never fails with at least one answer, and its response is the
full response or the trace, cut to the response length, under a mask of ones. -/
theorem run_response (promptIds : List Token) (thinkingOutput : ThinkingOutput Token)
    (generate : ℕ → List Token → List Token) (hn : 1 ≤ cfg.numForcedAnswers) :
    ∃ out, run tok cfg promptIds thinkingOutput generate = .ok out ∧
      out.promptIds = promptIds ∧
      out.extraFields.traceLength = thinkingOutput.tokenIds.length ∧
      out.responseMask = List.replicate out.responseIds.length 1 ∧
      (cfg.TrainsOnForcedOutput → out.responseIds =
        (fullResponseIds tok cfg thinkingOutput.tokenIds (forcedAnswer tok cfg promptIds
          thinkingOutput.tokenIds generate thinkingOutput.tokenIds.length 0)).take
            cfg.responseLength) ∧
      (¬ cfg.TrainsOnForcedOutput →
        out.responseIds = thinkingOutput.tokenIds.take cfg.responseLength) := by
  obtain ⟨out, hout, -, htrace, -⟩ := run_ok tok cfg promptIds generate thinkingOutput hn
  refine ⟨out, hout, ?_⟩
  rw [run] at hout
  obtain ⟨texts, htexts, hout⟩ := bind_eq_ok.mp hout
  dsimp only at hout
  split at hout
  case isTrue hactive =>
    have htrains : cfg.TrainsOnForcedOutput := by
      simpa [and_assoc, AgentLoopConfig.TrainsOnForcedOutput] using hactive
    have hfirst := first_forcedAnswerIds tok cfg htrains hn promptIds thinkingOutput.tokenIds
      generate
    obtain rfl := Except.ok.inj hout
    refine ⟨rfl, htrace, ?_, fun _ => ?_, fun h => absurd htrains h⟩
    · dsimp only
      rw [List.take_replicate, List.length_take]
    · dsimp only
      have hlook := Dict.lookup_assign ∅
        (show ([(thinkingOutput.tokenIds.length, forcedAnswer tok cfg promptIds
          thinkingOutput.tokenIds generate thinkingOutput.tokenIds.length 0)].map
            Prod.fst).Nodup from List.nodup_singleton _) (List.mem_singleton.mpr rfl)
      rw [hfirst, Dict.getD, hlook]
      rfl
  case isFalse hinactive =>
    have htrains : ¬ cfg.TrainsOnForcedOutput := by
      simpa [and_assoc, AgentLoopConfig.TrainsOnForcedOutput] using hinactive
    obtain rfl := Except.ok.inj hout
    refine ⟨rfl, htrace, ?_, fun h => absurd h htrains, fun _ => rfl⟩
    dsimp only
    rw [List.take_replicate, List.length_take]

end Response

/-! ## The padded sample -/

/-- What a row of the data set adds to the output of the loop. -/
structure SampleData (Truth Info : Type) where
  groundTruth : Option Truth
  dataSource : Option Str
  extraInfo : Option (Dict Str Info)

variable {Truth Info : Type}

omit [DecidableEq Token] in
theorem strictAsc_checkpoints (out : AgentLoopOutput Token) :
    ∀ budgets ∈ some out.extraFields.budgetCheckpoints, StrictAsc budgets := by
  rintro budgets ⟨⟩
  exact out.extraFields.ascending

/-- `_agent_loop_postprocess`, as the trainer finds the sample in the batch: the prompt padded
on the left, the response on the right, ones in the attention mask under the tokens of both,
and the extra fields next to them. -/
def agentLoopPostprocess (padTokenId : Token) (promptWidth responseLength : ℕ)
    (out : AgentLoopOutput Token) (data : SampleData Truth Info) : Item Token Truth Info where
  groundTruth := data.groundTruth
  dataSource := data.dataSource
  extraInfo := data.extraInfo
  promptLength := max promptWidth out.promptIds.length
  attentionMask :=
    (List.replicate (promptWidth - out.promptIds.length) 0 ++
      List.replicate out.promptIds.length 1) ++
    (List.replicate out.responseIds.length 1 ++
      List.replicate (responseLength - out.responseIds.length) 0)
  responses := out.responseIds ++
    List.replicate (responseLength - out.responseIds.length) padTokenId
  traceLength := some out.extraFields.traceLength
  forcedFullTexts := some out.extraFields.forcedFullTexts
  forcedFullTextsMulti := some out.extraFields.forcedFullTextsMulti
  budgetCheckpoints := some out.extraFields.budgetCheckpoints
  ascending := strictAsc_checkpoints out

section Padded

variable (padTokenId : Token) (promptWidth responseLength : ℕ) (out : AgentLoopOutput Token)
  (data : SampleData Truth Info)

omit [DecidableEq Token] in
theorem validResponseLength_postprocess :
    (agentLoopPostprocess padTokenId promptWidth responseLength out data).validResponseLength =
      out.responseIds.length := by
  have hprompt : max promptWidth out.promptIds.length =
      (List.replicate (promptWidth - out.promptIds.length) 0 ++
        List.replicate out.promptIds.length 1).length := by
    rw [List.length_append, List.length_replicate, List.length_replicate]
    omega
  simp only [Item.validResponseLength, agentLoopPostprocess]
  rw [hprompt, List.drop_left, List.sum_append, List.sum_replicate, List.sum_replicate]
  simp

omit [DecidableEq Token] in
theorem naturalTraceLength_postprocess :
    (agentLoopPostprocess padTokenId promptWidth responseLength out data).naturalTraceLength =
      min out.extraFields.traceLength out.responseIds.length := by
  rw [Item.naturalTraceLength, validResponseLength_postprocess]
  rfl

omit [DecidableEq Token] in
/-- The natural reward of a padded sample whose response begins with the trace, cut to the
response length, is the score of that much of the trace, and zero if there is nothing of it. -/
theorem naturalReward_postprocess (tok : Tokenizer Token) (scorer : Scorer Truth Info)
    {trace : List Token} (htrace : out.extraFields.traceLength = trace.length)
    (hresponse : out.responseIds.take (min trace.length out.responseIds.length) =
      trace.take (min trace.length out.responseIds.length)) :
    let item := agentLoopPostprocess padTokenId promptWidth responseLength out data
    (computeNaturalTraceReward tok scorer item).1 =
      if item.naturalTraceLength = 0 then 0
      else (safeComputeScore scorer
        (item.query (tok.decode (trace.take item.naturalTraceLength)))).1 := by
  intro item
  have hlength : item.naturalTraceLength = min trace.length out.responseIds.length := by
    rw [← htrace]
    exact naturalTraceLength_postprocess padTokenId promptWidth responseLength out data
  have htokens : item.responses.take item.naturalTraceLength =
      trace.take item.naturalTraceLength := by
    rw [hlength, ← hresponse]
    exact List.take_append_of_le_length (min_le_right _ _)
  rw [computeNaturalTraceReward]
  split
  case isTrue => rfl
  case isFalse => rw [htokens]

end Padded

/-! ## The law -/

omit [DecidableEq Token] in
/-- The first `min(trace_length, valid response length)` tokens of a response that is cut from
one that begins with the trace are tokens of the trace. -/
theorem take_response {trace rest response : List Token} {n : ℕ}
    (h : response = (trace ++ rest).take n) :
    response.take (min trace.length response.length) =
      trace.take (min trace.length response.length) := by
  have hcut : response <+: trace ++ rest := by
    rw [h]
    exact List.take_prefix n _
  obtain ⟨after, hafter⟩ := hcut
  have hle : min trace.length response.length ≤ response.length := min_le_right _ _
  have hle' : min trace.length response.length ≤ trace.length := min_le_left _ _
  calc response.take (min trace.length response.length)
      = (response ++ after).take (min trace.length response.length) :=
        (List.take_append_of_le_length hle).symm
    _ = (trace ++ rest).take (min trace.length response.length) := by rw [hafter]
    _ = trace.take (min trace.length response.length) := List.take_append_of_le_length hle'

omit [DecidableEq Token] in
theorem naturalReward_run (tok : Tokenizer Token) (cfg : AgentLoopConfig)
    {trace : List Token} {out : AgentLoopOutput Token}
    (htrace : out.extraFields.traceLength = trace.length)
    (hresponse : ∃ rest, out.responseIds = (trace ++ rest).take cfg.responseLength)
    (scorer : Scorer Truth Info) (padTokenId : Token) (promptWidth responseLength : ℕ)
    (data : SampleData Truth Info) :
    let item := agentLoopPostprocess padTokenId promptWidth responseLength out data
    item.naturalTraceLength = min trace.length out.responseIds.length ∧
      (computeNaturalTraceReward tok scorer item).1 =
        if item.naturalTraceLength = 0 then 0
        else (safeComputeScore scorer
          (item.query (tok.decode (trace.take item.naturalTraceLength)))).1 := by
  obtain ⟨rest, hrest⟩ := hresponse
  refine ⟨?_, naturalReward_postprocess padTokenId promptWidth responseLength out data tok scorer
    htrace (take_response hrest)⟩
  rw [← htrace]
  exact naturalTraceLength_postprocess padTokenId promptWidth responseLength out data

/-- With at least one answer to a prompt the loop returns.  Trained on forced outputs, prompt
and full response are the forced prompt at the full trace, which was sent, and the first
answer to it; the response is the full response cut to the response length, else the trace cut
to it, under ones.  And however the trainer pads it, the natural reward is the score of the
trace, cut to the response, and zero if that leaves no token. -/
theorem trainedTokens_generated (tok : Tokenizer Token) (cfg : AgentLoopConfig)
    (hn : 1 ≤ cfg.numForcedAnswers) (promptIds : List Token)
    (thinkingOutput : ThinkingOutput Token) (generate : ℕ → List Token → List Token) :
    let trace := thinkingOutput.tokenIds
    let answer := forcedAnswer tok cfg promptIds trace generate trace.length 0
    ∃ out, run tok cfg promptIds thinkingOutput generate = .ok out ∧
      out.promptIds = promptIds ∧
      out.responseMask = List.replicate out.responseIds.length 1 ∧
      out.responseIds.length ≤ cfg.responseLength ∧
      (cfg.TrainsOnForcedOutput →
        ⟨trace.length, 0, forcedPrompt tok cfg promptIds trace trace.length⟩ ∈
            forcedTasks tok cfg promptIds trace ∧
          promptIds ++ fullResponseIds tok cfg trace answer =
            forcedPrompt tok cfg promptIds trace trace.length ++ answer ∧
          out.responseIds =
            (fullResponseIds tok cfg trace answer).take cfg.responseLength) ∧
      (¬ cfg.TrainsOnForcedOutput → out.responseIds = trace.take cfg.responseLength) ∧
      ∀ (scorer : Scorer Truth Info) (padTokenId : Token) (promptWidth responseLength : ℕ)
          (data : SampleData Truth Info),
        let item := agentLoopPostprocess padTokenId promptWidth responseLength out data
        item.naturalTraceLength = min trace.length out.responseIds.length ∧
          (computeNaturalTraceReward tok scorer item).1 =
            if item.naturalTraceLength = 0 then 0
            else (safeComputeScore scorer
              (item.query (tok.decode (trace.take item.naturalTraceLength)))).1 := by
  intro trace answer
  obtain ⟨out, hout, hprompt, htrace, hmask, hactive, hinactive⟩ :=
    run_response tok cfg promptIds thinkingOutput generate hn
  -- either response is cut from tokens that begin with the trace
  have hresponse : ∃ rest, out.responseIds = (trace ++ rest).take cfg.responseLength := by
    rcases em cfg.TrainsOnForcedOutput with htrains | hnot
    · refine ⟨(buildForcedOutputTokens trace trace.length (thinkEndTokenId tok cfg)
        (suffixTokenIds tok cfg)).drop trace.length ++ answer, ?_⟩
      rw [hactive htrains, fullResponseIds, List.append_assoc]
    · refine ⟨[], ?_⟩
      rw [hinactive hnot, List.append_nil]
  have hlength : out.responseIds.length ≤ cfg.responseLength := by
    obtain ⟨rest, hrest⟩ := hresponse
    rw [hrest]
    exact List.length_take_le _ _
  refine ⟨out, hout, hprompt, hmask, hlength, fun htrains => ⟨?_, ?_, hactive htrains⟩,
    hinactive, ?_⟩
  · have hbudget : trace.length ∈ budgetsOf cfg trace := by
      rw [budgetsOf_of_trains htrains]
      exact List.mem_singleton.mpr rfl
    exact (mem_forcedTasks tok cfg).mpr ⟨hbudget, hn, rfl⟩
  · exact prompt_append_fullResponse tok cfg promptIds trace answer
  · intro scorer padTokenId promptWidth responseLength data
    exact naturalReward_run tok cfg htrace hresponse scorer padTokenId promptWidth
      responseLength data

/-! ## A training run -/

def trainOnForcedConfig : AgentLoopConfig where
  stopToken := []
  budgetCheckpoints := []
  suffixPrompt := defaultSuffixPrompt
  includeFullTrace := true
  numForcedAnswers := 1
  trainOnForcedOutput := true
  responseLength := 4096

/-- A row of the data set without anything but its ground truth. -/
def onlyTruth (groundTruth : ℕ) : SampleData ℕ Unit := ⟨some groundTruth, none, none⟩

theorem trainedTokens_generated_charTokenizer :
    ∃ out, run charTokenizer trainOnForcedConfig [some 'Q'] ⟨[some 'a', none], none⟩
        (fun _ _ => [some '4', some '\x7d']) = .ok out ∧
      [some 'Q'] ++ fullResponseIds charTokenizer trainOnForcedConfig [some 'a', none]
          [some '4', some '\x7d'] =
        forcedPrompt charTokenizer trainOnForcedConfig [some 'Q'] [some 'a', none] 2 ++
          [some '4', some '\x7d'] := by
  obtain ⟨out, hout, -, -, -, hactive, -⟩ := @trainedTokens_generated (Option Char) _ ℕ Unit
    charTokenizer trainOnForcedConfig (by decide) [some 'Q'] ⟨[some 'a', none], none⟩
    (fun _ _ => [some '4', some '\x7d'])
  exact ⟨out, hout, (hactive ⟨rfl, rfl, rfl⟩).2.1⟩

/-- An empty trace is not scored, though a scorer may have a reward for the empty text. -/
theorem naturalReward_emptyTrace :
    ∃ out, run charTokenizer trainOnForcedConfig [some 'Q'] ⟨[], none⟩
        (fun _ _ => [some '4', some '\x7d']) = .ok out ∧
      let item := agentLoopPostprocess none 8 4096 out (onlyTruth 4)
      let scorer : Scorer ℕ Unit := fun _ => .number (-1)
      (computeNaturalTraceReward charTokenizer scorer item).1 ≠
        (safeComputeScore scorer (item.query (charTokenizer.decode
          (item.responses.take item.naturalTraceLength)))).1 := by
  obtain ⟨out, hout, -, htrace, -⟩ := run_response charTokenizer trainOnForcedConfig [some 'Q']
    ⟨[], none⟩ (fun _ _ => [some '4', some '\x7d']) (by decide)
  refine ⟨out, hout, ?_⟩
  have hlength : (agentLoopPostprocess none 8 4096 out (onlyTruth 4)).naturalTraceLength = 0 := by
    rw [naturalTraceLength_postprocess, htrace]
    exact Nat.zero_min _
  intro item scorer hreward
  have hzero : (computeNaturalTraceReward charTokenizer scorer item).1 = 0 := by
    rw [computeNaturalTraceReward, if_pos hlength]
  have hscore : (0 : ℚ) = -1 := hzero.symm.trans hreward
  norm_num at hscore

end RLCM.ForcedOutput
