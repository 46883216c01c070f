/-
# `RLCM.AgentLoop.ConversationLaws` — runs of the multi-turn agent loop

Three results about every run, whatever the environment answers.  A token has a one in the
mask exactly when the server sampled it, and what stands before it in the row is what the
server had seen (`runToolAgent_trains_sampled`).  The log-probabilities are those the server
sent, moved to the left by as many tokens as were observed before the first sampled one
(`runToolAgent_logProbs`).  And a bound on the answers bounds the turns (`runToolAgent_ends`).
-/
import RLCM.AgentLoop.ToolAgentRuns
import Mathlib.Data.List.Infix

namespace RLCM.AgentLoop

open Py WhileLoop

variable {W Token Image Video : Type}

/-! ## Where the tokens come from -/

/-- A conversation and the requests that made it. -/
structure Traced (c : Conversation Token) (log : List (Request Token)) : Prop where
  length : c.responseMask.length ≤ c.promptIds.length
  starts : ∀ r ∈ log, c.promptLength ≤ r.promptIds.length
  asked : ∀ r ∈ log, r.promptIds ++ r.output.tokenIds <+: c.promptIds
  mask : c.responseMask = rowOf maskValue log c.promptLength c.responseMask.length

section Traced

variable {c : Conversation Token} {log : List (Request Token)}

theorem Traced.promptLength_add (h : Traced c log) :
    c.promptLength + c.responseMask.length = c.promptIds.length :=
  Nat.sub_add_cancel h.length

theorem Traced.stop_le (h : Traced c log) : ∀ r ∈ log, r.stop ≤ c.promptIds.length := by
  intro r hr
  have hlen := (h.asked r hr).length_le
  rw [List.length_append] at hlen
  exact hlen

theorem promptLength_answered (c : Conversation Token) (output : TokenOutput Token) :
    (c.answered output).promptLength = c.promptLength := by
  simp only [Conversation.promptLength, Conversation.answered, List.length_append,
    List.length_replicate]
  omega

theorem promptLength_observed (c : Conversation Token) (ids : List Token) :
    (c.observed ids).promptLength = c.promptLength := by
  simp only [Conversation.promptLength, Conversation.observed, List.length_append,
    List.length_replicate]
  omega

theorem rowOf_answered {α : Type} (h : Traced c log) (output : TokenOutput Token)
    (value : Option (Request Token × ℕ) → α) :
    rowOf value (log ++ [{ promptIds := c.promptIds, output }]) c.promptLength
        (c.responseMask.length + output.tokenIds.length) =
      rowOf value log c.promptLength c.responseMask.length ++
        (List.range output.tokenIds.length).map
          (fun j => value (some ({ promptIds := c.promptIds, output }, j))) := by
  rw [rowOf_add, rowOf_snoc_of_le (le_of_eq h.promptLength_add), h.promptLength_add,
    rowOf_snoc_self h.stop_le]

theorem rowOf_observed {α : Type} (h : Traced c log) (more : ℕ)
    (value : Option (Request Token × ℕ) → α) :
    rowOf value log c.promptLength (c.responseMask.length + more) =
      rowOf value log c.promptLength c.responseMask.length ++
        List.replicate more (value none) := by
  rw [rowOf_add, h.promptLength_add, rowOf_behind h.stop_le]

theorem Traced.answered (h : Traced c log) (output : TokenOutput Token) :
    Traced (c.answered output) (log ++ [{ promptIds := c.promptIds, output }]) where
  length := by
    have hlen := h.length
    simp only [Conversation.answered, List.length_append, List.length_replicate]
    omega
  starts := by
    intro r hr
    rw [promptLength_answered]
    rcases List.mem_append.mp hr with hr | hr
    · exact h.starts r hr
    · rw [List.mem_singleton.mp hr]
      exact Nat.sub_le _ _
  asked := by
    intro r hr
    rcases List.mem_append.mp hr with hr | hr
    · exact (h.asked r hr).trans (List.prefix_append _ _)
    · rw [List.mem_singleton.mp hr]
      exact List.prefix_rfl
  mask := by
    have hrow := rowOf_answered h output maskValue
    rw [← h.mask] at hrow
    rw [promptLength_answered]
    simp only [Conversation.answered, List.length_append, List.length_replicate]
    rw [hrow]
    simp only [maskValue, List.map_const', List.length_range]

theorem Traced.observed (h : Traced c log) (ids : List Token) : Traced (c.observed ids) log where
  length := by
    have hlen := h.length
    simp only [Conversation.observed, List.length_append, List.length_replicate]
    omega
  starts := by
    intro r hr
    rw [promptLength_observed]
    exact h.starts r hr
  asked := fun r hr => (h.asked r hr).trans (List.prefix_append _ _)
  mask := by
    have hrow := rowOf_observed h ids.length maskValue
    rw [← h.mask] at hrow
    rw [promptLength_observed]
    simp only [Conversation.observed, List.length_append, List.length_replicate]
    rw [hrow]
    rfl

theorem traced_rendered {ids : List Token} (hmask : c.responseMask = []) :
    Traced { c with promptIds := ids } [] where
  length := by
    dsimp only
    rw [hmask]
    exact Nat.zero_le _
  starts := by simp
  asked := by simp
  mask := by
    dsimp only
    rw [hmask]
    rfl

end Traced

/-! ## The log-probabilities -/

/-- The server sent a log-probability for every token. -/
def Sent (log : List (Request Token)) : Prop :=
  ∀ r ∈ log, ∃ logProbs, r.output.logProbs = some logProbs ∧
    logProbs.length = r.output.tokenIds.length

/-- The log-probabilities are the row behind the first `lead` tokens, which were not
sampled. -/
structure LogProbsFrom (lead : ℕ) (c : Conversation Token) (log : List (Request Token)) : Prop where
  le : lead ≤ c.responseMask.length
  zeros : ∀ k < lead, c.responseMask[k]? = some 0
  first : lead < c.responseMask.length → c.responseMask[lead]? = some 1
  logprobs : c.responseLogprobs =
    (rowOf logProbValue log c.promptLength c.responseMask.length).drop lead

section LogProbs

variable {c : Conversation Token} {log : List (Request Token)} {lead : ℕ}

/-- The row of an answer is what the server sent. -/
theorem map_logProbValue {r : Request Token} {logProbs : List ℚ}
    (hsent : r.output.logProbs = some logProbs)
    (hlen : logProbs.length = r.output.tokenIds.length) :
    (List.range r.output.tokenIds.length).map (fun j => logProbValue (some (r, j))) = logProbs := by
  refine List.ext_getElem ?_ (fun j hj hj' => ?_)
  · rw [List.length_map, List.length_range, hlen]
  · rw [List.getElem_map, List.getElem_range, logProbValue, hsent, Option.getD_some,
      List.getD_eq_getElem?_getD, List.getElem?_eq_getElem hj', Option.getD_some]

theorem LogProbsFrom.answered (h : LogProbsFrom lead c log) (htraced : Traced c log)
    {output : TokenOutput Token}
    (hsent : Sent (log ++ [{ promptIds := c.promptIds, output }])) :
    LogProbsFrom lead (c.answered output) (log ++ [{ promptIds := c.promptIds, output }]) where
  le := by
    simp only [Conversation.answered, List.length_append]
    exact Nat.le_add_right_of_le h.le
  zeros := by
    intro k hk
    have hlt := lt_of_lt_of_le hk h.le
    simp only [Conversation.answered]
    rw [List.getElem?_append_left hlt]
    exact h.zeros k hk
  first := by
    intro hlt
    simp only [Conversation.answered, List.length_append, List.length_replicate] at hlt ⊢
    rcases Nat.lt_or_eq_of_le h.le with hold | heq
    · rw [List.getElem?_append_left hold]
      exact h.first hold
    · -- nothing was sampled before: the first one is the answer's
      rw [List.getElem?_append_right (le_of_eq heq.symm), heq, Nat.sub_self,
        List.getElem?_replicate, if_pos (by omega)]
  logprobs := by
    obtain ⟨logProbs, hsome, hlen⟩ := hsent _ (List.mem_append_right _ (List.mem_singleton_self _))
    have hnew := map_logProbValue hsome hlen
    dsimp only at hsome hnew
    rw [promptLength_answered]
    simp only [Conversation.answered, List.length_append, List.length_replicate]
    rw [rowOf_answered htraced, hnew, h.logprobs, hsome, Option.getD_some,
      List.drop_append_of_le_length (by rw [length_rowOf]; exact h.le)]

theorem logProbsFrom_answered (h : Sent log → ∃ lead, LogProbsFrom lead c log)
    (htraced : Traced c log) (output : TokenOutput Token)
    (hsent : Sent (log ++ [{ promptIds := c.promptIds, output }])) :
    ∃ lead, LogProbsFrom lead (c.answered output)
      (log ++ [{ promptIds := c.promptIds, output }]) := by
  obtain ⟨lead, hlead⟩ := h (fun r hr => hsent r (List.mem_append_left _ hr))
  exact ⟨lead, hlead.answered htraced hsent⟩

/-- Observed tokens move the start as long as nothing was sampled. -/
theorem LogProbsFrom.observed (h : LogProbsFrom lead c log) (htraced : Traced c log)
    (ids : List Token) : ∃ lead', LogProbsFrom lead' (c.observed ids) log := by
  have hrow := rowOf_observed htraced ids.length logProbValue
  have hlen : c.responseLogprobs.length = c.responseMask.length - lead := by
    rw [h.logprobs, List.length_drop, length_rowOf]
  rcases Nat.lt_or_eq_of_le h.le with hlt | heq
  · refine ⟨lead, ?_, ?_, ?_, ?_⟩
    · simp only [Conversation.observed, List.length_append]
      exact Nat.le_add_right_of_le h.le
    · intro k hk
      simp only [Conversation.observed]
      rw [List.getElem?_append_left (lt_of_lt_of_le hk h.le)]
      exact h.zeros k hk
    · intro _
      simp only [Conversation.observed]
      rw [List.getElem?_append_left hlt]
      exact h.first hlt
    · have hsome : c.responseLogprobs.isEmpty = false := by
        rw [List.isEmpty_eq_false_iff, ← List.length_pos_iff, hlen]
        omega
      rw [promptLength_observed]
      simp only [Conversation.observed, hsome, List.length_append, List.length_replicate]
      rw [hrow, List.drop_append_of_le_length (by rw [length_rowOf]; exact h.le), ← h.logprobs]
      rfl
  · refine ⟨lead + ids.length, ?_, ?_, ?_, ?_⟩
    · simp only [Conversation.observed, List.length_append, List.length_replicate]
      omega
    · intro k hk
      simp only [Conversation.observed]
      rcases Nat.lt_or_ge k c.responseMask.length with hold | hnew
      · rw [List.getElem?_append_left hold]
        exact h.zeros k (by omega)
      · rw [List.getElem?_append_right hnew, List.getElem?_replicate, if_pos (by omega)]
    · intro hlt
      simp only [Conversation.observed, List.length_append, List.length_replicate] at hlt
      omega
    · have hnone : c.responseLogprobs = [] := by
        rw [← List.length_eq_zero_iff, hlen, heq, Nat.sub_self]
      rw [promptLength_observed]
      simp only [Conversation.observed, hnone, List.isEmpty_nil, if_true, List.length_append,
        List.length_replicate]
      rw [List.drop_eq_nil_of_le (by rw [length_rowOf, heq])]

end LogProbs

/-! ## What a run keeps -/

/-- What holds between the turns. -/
structure RunKeeps (state : AgentState) (c : Conversation Token) (log : List (Request Token)) :
    Prop where
  traced : Traced c log
  logprobs : Sent log → ∃ lead, LogProbsFrom lead c log
  pending : state = .pending → log = [] ∧ c.responseMask = [] ∧ c.responseLogprobs = []

section Run

variable {env : Environment W Token Image Video} {cfg : ToolAgentConfig}

theorem logProbsFrom_zero {c : Conversation Token} (hmask : c.responseMask = [])
    (hlogprobs : c.responseLogprobs = []) : LogProbsFrom 0 c [] where
  le := Nat.zero_le _
  zeros := fun k hk => absurd hk (Nat.not_lt_zero k)
  first := by
    rw [hmask]
    exact fun hlt => absurd hlt (Nat.not_lt_zero _)
  logprobs := by
    rw [hmask, hlogprobs]
    rfl

theorem runKeeps_turn {state state' : AgentState} {c c' : Conversation Token}
    {log new : List (Request Token)} (hturn : Turn cfg state c new state' c')
    (h : RunKeeps state c log) : RunKeeps state' c' (log ++ new) := by
  cases hturn with
  | render _ ids =>
      obtain ⟨rfl, hmask, hlogprobs⟩ := h.pending rfl
      exact ⟨traced_rendered hmask, fun _ => ⟨0, logProbsFrom_zero hmask hlogprobs⟩,
        fun hp => nomatch hp⟩
  | stop _ output =>
      exact ⟨h.traced.answered output, logProbsFrom_answered h.logprobs h.traced output,
        fun hp => nomatch hp⟩
  | goOn _ output _ hnext hgoes =>
      refine ⟨h.traced.answered output, logProbsFrom_answered h.logprobs h.traced output,
        fun hp => ?_⟩
      rcases hnext with rfl | rfl
      · cases hp
      · cases hp
  | observe _ ids _ _ hhere hnext =>
      rw [List.append_nil]
      refine ⟨h.traced.observed ids, fun hsent => ?_, fun hp => ?_⟩
      · obtain ⟨lead, hlead⟩ := h.logprobs hsent
        exact hlead.observed h.traced ids
      · rcases hnext with rfl | rfl
        · cases hp
        · cases hp
  | giveUp _ =>
      rw [List.append_nil]
      exact ⟨h.traced, h.logprobs, fun hp => nomatch hp⟩

def blankConversation (Token : Type) : Conversation Token where
  promptIds := []
  responseMask := []
  responseLogprobs := []
  userTurns := 0
  assistantTurns := 0

theorem runKeeps_init : RunKeeps .pending (blankConversation Token) [] :=
  ⟨traced_rendered (c := blankConversation Token) rfl, fun _ => ⟨0, logProbsFrom_zero rfl rfl⟩,
    fun _ => ⟨rfl, rfl, rfl⟩⟩

theorem startRun_ok {requestId : Str} {kwargs : RunKwargs} {world : W}
    {start : LoopState W Token Image Video}
    (h : startRun env cfg requestId kwargs world = .ok start) :
    start.state = .pending ∧ start.agent.conversation = blankConversation Token := by
  obtain ⟨⟨⟨images, videos⟩, w⟩, -, h⟩ := bind_eq_ok.mp h
  obtain ⟨interaction, -, h⟩ := bind_eq_ok.mp h
  obtain ⟨w', -, h⟩ := bind_eq_ok.mp h
  cases h
  exact ⟨rfl, rfl⟩

/-- What a run returns is what the loop left, and there everything holds that turns keep. -/
theorem runToolAgent_keeps {fuel : ℕ} {requestId : Str} {kwargs : RunKwargs} {world world' : W}
    {out : ToolAgentOutput Token Image Video}
    (h : runToolAgent env cfg fuel requestId kwargs world = .ok (some (out, world'))) :
    ∃ agent : AgentData Token Image Video, out = finalize cfg agent ∧
      RunKeeps .terminated agent.conversation
        (requestsOf env cfg fuel requestId kwargs world) := by
  obtain ⟨start, hstart, h⟩ := bind_eq_ok.mp h
  obtain ⟨last, hlast, h⟩ := bind_eq_ok.mp h
  obtain ⟨hpending, hempty⟩ := startRun_ok hstart
  cases last with
  | none => cases h
  | some last =>
      cases h
      have hinit : RunKeeps start.state start.agent.conversation [] := by
        rw [hpending, hempty]
        exact runKeeps_init
      have hrun := drive_keeps (asked env)
        (fun s log => RunKeeps s.state s.agent.conversation log)
        (fun s s' log hrunning hstep hs => runKeeps_turn (agentStep_turn hrunning hstep) hs)
        [] hinit hlast
      rw [List.nil_append] at hrun
      have hdone : last.state = .terminated := of_decide_eq_true hrun.2
      refine ⟨last.agent, rfl, ?_⟩
      have hkept := hrun.1
      rw [hdone] at hkept
      rw [requestsOf, hstart]
      exact hkept

end Run

/-! ## What is trained on -/

section Trained

theorem source_isSome_iff {log : List (Request Token)} {i : ℕ} :
    (source log i).isSome = true ↔ ∃ r ∈ log, r.promptIds.length ≤ i ∧ i < r.stop := by
  rw [source, Option.isSome_map, List.find?_isSome]
  simp only [Bool.and_eq_true, decide_eq_true_eq]

variable {cfg : ToolAgentConfig} {agent : AgentData Token Image Video}
  {log : List (Request Token)}

theorem promptIds_finalize : (finalize cfg agent).promptIds =
    agent.promptIds.take agent.conversation.promptLength := rfl

theorem length_promptIds_finalize :
    (finalize cfg agent).promptIds.length = agent.conversation.promptLength := by
  rw [promptIds_finalize, List.length_take]
  exact Nat.min_eq_left (Nat.sub_le _ _)

theorem responseIds_finalize (hmask : agent.responseMask ≠ []) :
    (finalize cfg agent).responseIds =
      (agent.promptIds.drop agent.conversation.promptLength).take cfg.responseLength := by
  have hne : agent.responseMask.length ≠ 0 := fun hzero => hmask (List.length_eq_zero_iff.mp hzero)
  rw [finalize, lastItems, if_neg hne]
  rfl

theorem responseIds_finalize_nil (hmask : agent.responseMask = []) :
    (finalize cfg agent).promptIds = agent.promptIds ∧
      (finalize cfg agent).responseIds = agent.promptIds.take cfg.responseLength := by
  rw [finalize, hmask]
  exact ⟨List.take_length, rfl⟩

theorem getElem?_responseMask (h : Traced agent.conversation log) {i : ℕ}
    (hi : i < agent.responseMask.length) (hcut : i < cfg.responseLength) :
    (finalize cfg agent).responseMask[i]? =
      some (maskValue (source log (agent.conversation.promptLength + i))) := by
  have hmask : agent.responseMask =
      rowOf maskValue log agent.conversation.promptLength agent.responseMask.length := h.mask
  rw [finalize, List.getElem?_take_of_lt hcut, hmask]
  exact getElem?_rowOf hi

/-- A sampled token is in the row, behind what the server had seen. -/
theorem sampled_finalize (h : Traced agent.conversation log) {r : Request Token} (hr : r ∈ log)
    {j : ℕ} {token : Token} (htoken : r.output.tokenIds[j]? = some token) :
    ∃ i, r.promptIds.length + j = (finalize cfg agent).promptIds.length + i ∧
      (i < cfg.responseLength →
        (finalize cfg agent).responseMask[i]? = some 1 ∧
        (finalize cfg agent).responseIds[i]? = some token ∧
        (finalize cfg agent).promptIds ++ (finalize cfg agent).responseIds.take i =
          r.promptIds ++ r.output.tokenIds.take j) := by
  obtain ⟨hj, -⟩ := List.getElem?_eq_some_iff.mp htoken
  have hstart := h.starts r hr
  have hstop := h.stop_le r hr
  have hlen := h.promptLength_add
  have hasked : r.promptIds ++ r.output.tokenIds <+: agent.promptIds := h.asked r hr
  obtain ⟨rest, hrest⟩ := hasked
  rw [Request.stop] at hstop
  obtain ⟨i, hi⟩ : ∃ i, r.promptIds.length + j = agent.conversation.promptLength + i :=
    ⟨r.promptIds.length + j - agent.conversation.promptLength, by omega⟩
  have himask : i < agent.responseMask.length := by
    have hmask : agent.conversation.responseMask.length = agent.responseMask.length := rfl
    omega
  have hresponse : (finalize cfg agent).responseIds =
      (agent.promptIds.drop agent.conversation.promptLength).take cfg.responseLength :=
    responseIds_finalize (List.ne_nil_of_length_pos (by omega))
  rw [length_promptIds_finalize]
  refine ⟨i, hi, fun hcut => ⟨?_, ?_, ?_⟩⟩
  · rw [getElem?_responseMask h himask hcut]
    have hsome : (source log (agent.conversation.promptLength + i)).isSome = true :=
      source_isSome_iff.mpr ⟨r, hr, by omega, by rw [Request.stop]; omega⟩
    obtain ⟨found, hfound⟩ := Option.isSome_iff_exists.mp hsome
    rw [hfound]
    rfl
  · rw [hresponse, List.getElem?_take_of_lt hcut, List.getElem?_drop, ← hi, ← hrest,
      List.append_assoc, List.getElem?_append_right (Nat.le_add_right _ _),
      Nat.add_sub_cancel_left, List.getElem?_append_left hj]
    exact htoken
  · -- both are the tokens before the same position
    have hrow : agent.promptIds.take (agent.conversation.promptLength + i) =
        r.promptIds ++ r.output.tokenIds.take j := by
      rw [← hi, ← hrest, List.append_assoc, List.take_length_add_append,
        List.take_append_of_le_length (le_of_lt hj)]
    rw [hresponse, promptIds_finalize, List.take_take, Nat.min_eq_left (le_of_lt hcut), ← hrow,
      List.take_add]

end Trained

/-! ## A conversation with one tool call -/

/-- A server that calls a tool in its first answer; the world counts the answers. -/
def toolEnv : Environment ℕ ℕ Unit Unit where
  processVisionInfo := fun _ world => .ok ((none, none), world)
  renderTemplate := fun _ tools _ _ world => .ok (if tools then [1, 2] else [5], world)
  generate := fun _ _ _ _ world => .ok
    (if world = 0 then { tokenIds := [7, 8], logProbs := some [-1, -2], numPreempted := none }
      else { tokenIds := [9], logProbs := some [-3], numPreempted := none }, world + 1)
  extractToolCalls := fun _ world =>
    .ok (if world = 1 then [{ name := "search".toList, arguments := [] }] else [], world)
  executeTools := fun calls _ world =>
    .ok (calls.map (fun _ =>
      .ok ({ text := some "4".toList, image := none, video := none }, some 1)), world)
  startInteraction := fun _ _ world => .ok world
  generateResponse := fun _ _ _ _ => .error .attributeError
  encode := fun _ => []
  decode := fun _ => []
  formatParts := fun _ => []

/-- No limit but the response length. -/
def toolConfig : ToolAgentConfig where
  maxUserTurns := none
  maxAssistantTurns := none
  maxParallelCalls := 1
  maxToolResponseLength := 256
  toolResponseTruncateSide := "middle".toList
  toolParserName := "hermes".toList
  responseLength := 8
  interactionConfigFile := false
  interactionMap := []
  systemPromptLength := 0
  hasImageProcessor := false

def toolKwargs : RunKwargs where
  rawPrompt := [{ role := "user".toList, content := .text "2+2".toList }]
  interactionKwargs := none

/-- What the run returns: the tokens of the tool response stand under a zero. -/
def toolOutput : ToolAgentOutput ℕ Unit Unit where
  promptIds := [1, 2]
  responseIds := [7, 8, 5, 9]
  responseMask := [1, 1, 0, 1]
  images := none
  videos := none
  responseLogprobs := some [-1, -2, 0, -3]
  numTurns := 4
  numPreempted := some (-1)
  turnScores := []
  toolRewards := [1]

theorem run_toolEnv : runToolAgent toolEnv toolConfig 16 [] toolKwargs 0 =
    .ok (some (toolOutput, 2)) := rfl

theorem sent_toolEnv : Sent (requestsOf toolEnv toolConfig 16 [] toolKwargs 0) := by
  intro r hr
  have hr : r ∈ [
      { promptIds := [1, 2],
        output := { tokenIds := [7, 8], logProbs := some [-1, -2], numPreempted := none } },
      { promptIds := [1, 2, 7, 8, 5],
        output := { tokenIds := [9], logProbs := some [-3], numPreempted := none } }] := hr
  rcases List.mem_cons.mp hr with rfl | hr
  · exact ⟨_, rfl, rfl⟩
  · rw [List.mem_singleton.mp hr]
    exact ⟨_, rfl, rfl⟩

section Results

variable {env : Environment W Token Image Video} {cfg : ToolAgentConfig} {fuel : ℕ}
  {requestId : Str} {kwargs : RunKwargs} {world world' : W}
  {out : ToolAgentOutput Token Image Video}

/-- The mask marks exactly the sampled tokens.  Every token the server sampled is in the
row unless the row was cut before it, and what stands before it is what the server had
seen when it sampled it.  A run without any response returns its prompt in the place of
the response, under an empty mask. -/
theorem runToolAgent_trains_sampled
    (h : runToolAgent env cfg fuel requestId kwargs world = .ok (some (out, world'))) :
    (∀ r ∈ requestsOf env cfg fuel requestId kwargs world,
      ∀ (j : ℕ) (token : Token), r.output.tokenIds[j]? = some token →
        ∃ i, r.promptIds.length + j = out.promptIds.length + i ∧
          (i < cfg.responseLength →
            out.responseMask[i]? = some 1 ∧ out.responseIds[i]? = some token ∧
            out.promptIds ++ out.responseIds.take i =
              r.promptIds ++ r.output.tokenIds.take j)) ∧
    (∀ (i m : ℕ), out.responseMask[i]? = some m →
      (m = 1 ∧ ∃ r ∈ requestsOf env cfg fuel requestId kwargs world,
        r.promptIds.length ≤ out.promptIds.length + i ∧ out.promptIds.length + i < r.stop) ∨
      (m = 0 ∧ ¬ ∃ r ∈ requestsOf env cfg fuel requestId kwargs world,
        r.promptIds.length ≤ out.promptIds.length + i ∧ out.promptIds.length + i < r.stop)) ∧
    (out.responseMask ≠ [] → out.responseIds.length = out.responseMask.length) ∧
    (out.responseMask = [] → out.responseIds = out.promptIds.take cfg.responseLength) := by
  obtain ⟨agent, rfl, hkept⟩ := runToolAgent_keeps h
  have htraced := hkept.traced
  have hlen : agent.conversation.promptLength + agent.responseMask.length =
      agent.promptIds.length := htraced.promptLength_add
  refine ⟨fun r hr j token => sampled_finalize htraced hr, fun i m hm => ?_, fun hne => ?_,
    fun hnil => ?_⟩
  · obtain ⟨hi, -⟩ := List.getElem?_eq_some_iff.mp hm
    have hi : i < (agent.responseMask.take cfg.responseLength).length := hi
    rw [List.length_take] at hi
    rw [getElem?_responseMask htraced (lt_of_lt_of_le hi (Nat.min_le_right _ _))
      (lt_of_lt_of_le hi (Nat.min_le_left _ _))] at hm
    rw [length_promptIds_finalize, ← source_isSome_iff]
    cases hsource : source (requestsOf env cfg fuel requestId kwargs world)
        (agent.conversation.promptLength + i) with
    | none =>
        rw [hsource] at hm
        cases hm
        exact Or.inr ⟨rfl, fun hsome => nomatch hsome⟩
    | some found =>
        rw [hsource] at hm
        cases hm
        exact Or.inl ⟨rfl, rfl⟩
  · have hmask : agent.responseMask ≠ [] := by
      intro hnil
      apply hne
      rw [finalize, hnil]
      exact List.take_nil
    rw [responseIds_finalize hmask, List.length_take, List.length_drop, finalize,
      List.length_take]
    omega
  · rcases List.take_eq_nil_iff.mp hnil with hzero | hmask
    · rw [hzero, List.take_zero, finalize, hzero]
      rfl
    · obtain ⟨hprompt, hresponse⟩ := responseIds_finalize_nil hmask
      rw [hprompt, hresponse]

theorem runToolAgent_trains_sampled_toolCall :
    runToolAgent toolEnv toolConfig 16 [] toolKwargs 0 = .ok (some (toolOutput, 2)) ∧
      ∀ r ∈ requestsOf toolEnv toolConfig 16 [] toolKwargs 0,
        ∀ (j : ℕ) (token : ℕ), r.output.tokenIds[j]? = some token →
          ∃ i, r.promptIds.length + j = toolOutput.promptIds.length + i ∧
            (i < 8 → toolOutput.responseMask[i]? = some 1 ∧
              toolOutput.responseIds[i]? = some token ∧
              toolOutput.promptIds ++ toolOutput.responseIds.take i =
                r.promptIds ++ r.output.tokenIds.take j) :=
  ⟨run_toolEnv, (runToolAgent_trains_sampled run_toolEnv).1⟩

/-- With a log-probability for every sampled token, what a run returns are these and zeros
under the observed tokens, except that the row begins at the first sampled token: with
tokens observed before it, every entry stands that far to the left of its token. -/
theorem runToolAgent_logProbs
    (h : runToolAgent env cfg fuel requestId kwargs world = .ok (some (out, world')))
    (hsent : Sent (requestsOf env cfg fuel requestId kwargs world)) :
    ∃ lead, (∀ k < lead, k < out.responseMask.length → out.responseMask[k]? = some 0) ∧
      (lead < out.responseMask.length → out.responseMask[lead]? = some 1) ∧
      (out.responseLogprobs = none → ∀ m ∈ out.responseMask, m = 0) ∧
      (∀ logProbs, out.responseLogprobs = some logProbs →
        ∀ k, lead ≤ k → k < out.responseMask.length →
          logProbs[k - lead]? = some (logProbValue
            (source (requestsOf env cfg fuel requestId kwargs world)
              (out.promptIds.length + k)))) := by
  obtain ⟨agent, rfl, hkept⟩ := runToolAgent_keeps h
  obtain ⟨lead, hlead⟩ := hkept.logprobs hsent
  have hle : lead ≤ agent.responseMask.length := hlead.le
  have hlogprobs : agent.responseLogprobs = (rowOf logProbValue
      (requestsOf env cfg fuel requestId kwargs world) agent.conversation.promptLength
        agent.responseMask.length).drop lead := hlead.logprobs
  have hcut : ∀ k, k < (finalize cfg agent).responseMask.length →
      k < cfg.responseLength ∧ k < agent.responseMask.length ∧
        (finalize cfg agent).responseMask[k]? = agent.responseMask[k]? := by
    intro k hk
    have hk : k < (agent.responseMask.take cfg.responseLength).length := hk
    rw [List.length_take] at hk
    have hlength := lt_of_lt_of_le hk (Nat.min_le_left _ _)
    refine ⟨hlength, lt_of_lt_of_le hk (Nat.min_le_right _ _), ?_⟩
    rw [finalize, List.getElem?_take_of_lt hlength]
  refine ⟨lead, fun k hk hlt => ?_, fun hlt => ?_, fun hnone m hm => ?_,
    fun logProbs hsome k hk hlt => ?_⟩
  · rw [(hcut k hlt).2.2]
    exact hlead.zeros k hk
  · rw [(hcut lead hlt).2.2]
    exact hlead.first (hcut lead hlt).2.1
  · -- no log-probabilities: nothing was sampled
    rw [finalize] at hnone
    dsimp only at hnone
    split at hnone
    case isFalse => cases hnone
    case isTrue hempty =>
      rw [List.isEmpty_iff, hlogprobs, List.drop_eq_nil_iff, length_rowOf] at hempty
      obtain ⟨k, hk, rfl⟩ := List.getElem_of_mem hm
      have hzero := hlead.zeros k (lt_of_lt_of_le (hcut k hk).2.1 hempty)
      have hmask : agent.conversation.responseMask[k]? = agent.responseMask[k]? := rfl
      rw [hmask, ← (hcut k hk).2.2, List.getElem?_eq_getElem hk] at hzero
      exact Option.some.inj hzero
  · obtain ⟨hlength, hmask, -⟩ := hcut k hlt
    rw [finalize] at hsome
    dsimp only at hsome
    split at hsome
    case isTrue => cases hsome
    case isFalse =>
      cases hsome
      rw [List.getElem?_take_of_lt (lt_of_le_of_lt (Nat.sub_le _ _) hlength), hlogprobs,
        List.getElem?_drop, Nat.add_sub_cancel' hk, getElem?_rowOf hmask,
        length_promptIds_finalize]

theorem runToolAgent_logProbs_toolCall :
    ∃ lead, (∀ k < lead, k < 4 → toolOutput.responseMask[k]? = some 0) ∧
      ∀ logProbs, toolOutput.responseLogprobs = some logProbs →
        ∀ k, lead ≤ k → k < 4 → logProbs[k - lead]? = some (logProbValue
          (source (requestsOf toolEnv toolConfig 16 [] toolKwargs 0) (2 + k))) := by
  obtain ⟨lead, hzeros, -, -, hrow⟩ := runToolAgent_logProbs run_toolEnv sent_toolEnv
  exact ⟨lead, hzeros, hrow⟩

end Results

/-! ## How long a run is -/

/-- The server never answers with nothing. -/
def AlwaysAnswers (env : Environment W Token Image Video) : Prop :=
  ∀ requestId promptIds images videos world output world',
    env.generate requestId promptIds images videos world = .ok (output, world') →
      output.tokenIds ≠ []

/-- What bounds the answers of a run by `n`. -/
def AnswersBounded (env : Environment W Token Image Video) (cfg : ToolAgentConfig) (n : ℕ) : Prop :=
  n ≠ 0 ∧ (cfg.maxAssistantTurns = some n ∨ (n ≠ 1 ∧ cfg.maxUserTurns = some (n - 1)) ∨
    (AlwaysAnswers env ∧ cfg.responseLength ≤ n))

def TurnsCounted (n : ℕ) (state : AgentState) (c : Conversation Token) : Prop :=
  match state with
  | .pending | .generating => c.userTurns = c.assistantTurns ∧ c.assistantTurns < n
  | .processingTools | .interacting => c.assistantTurns = c.userTurns + 1 ∧ c.assistantTurns < n
  | .terminated => c.userTurns + c.assistantTurns + 1 ≤ 2 * n

def turnsLeft (n : ℕ) (state : AgentState) (c : Conversation Token) : ℕ :=
  match state with
  | .pending => 2 * n - 1
  | .generating => 2 * (n - 1 - c.assistantTurns)
  | .processingTools | .interacting => 2 * (n - c.assistantTurns) - 1
  | .terminated => 0

section Length

variable {env : Environment W Token Image Video} {cfg : ToolAgentConfig} {n : ℕ}

/-- Every answer added a token, if the server always answers. -/
def AnswersCounted (env : Environment W Token Image Video) (c : Conversation Token) : Prop :=
  AlwaysAnswers env → c.assistantTurns ≤ c.responseMask.length

theorem AnswersCounted.answered {c : Conversation Token} (h : AnswersCounted env c)
    {output : TokenOutput Token} (hnew : AlwaysAnswers env → output.tokenIds ≠ []) :
    AnswersCounted env (c.answered output) := by
  intro halways
  have hle := h halways
  have hpos := List.length_pos_iff.mpr (hnew halways)
  simp only [Conversation.answered, List.length_append, List.length_replicate]
  omega

theorem AnswersCounted.observed {c : Conversation Token} (h : AnswersCounted env c)
    (ids : List Token) : AnswersCounted env (c.observed ids) := by
  intro halways
  have hle := h halways
  simp only [Conversation.observed, List.length_append]
  omega

theorem reached_of_le {limit turns : ℕ} (hlimit : limit ≠ 0) (h : limit ≤ turns) :
    reached (some limit) turns = true := by
  simp only [reached, bne_iff_ne, ne_eq, hlimit, not_false_eq_true, decide_eq_true_eq,
    Bool.and_eq_true, true_and]
  exact h

theorem assistantTurns_lt (hbounded : AnswersBounded env cfg n) {c : Conversation Token}
    (hcounted : AnswersCounted env c) (hturns : c.assistantTurns = c.userTurns + 1)
    (h : c.isFinished cfg = false) : c.assistantTurns < n := by
  rw [Conversation.isFinished, Bool.or_eq_false_iff, Bool.or_eq_false_iff] at h
  obtain ⟨⟨hlength, hassistant⟩, huser⟩ := h
  obtain ⟨hn, hmax | ⟨hone, hmax⟩ | ⟨hanswers, hmax⟩⟩ := hbounded
  · refine lt_of_not_ge (fun hge => ?_)
    rw [hmax, reached_of_le hn hge] at hassistant
    cases hassistant
  · refine lt_of_not_ge (fun hge => ?_)
    rw [hmax, reached_of_le (by omega) (by omega)] at huser
    cases huser
  · have hlt := of_decide_eq_false hlength
    have hle := hcounted hanswers
    omega

/-- A turn keeps the counts and leaves fewer turns. -/
theorem turnsCounted_turn (hbounded : AnswersBounded env cfg n) {state state' : AgentState}
    {c c' : Conversation Token} {new : List (Request Token)}
    (hturn : Turn cfg state c new state' c')
    (hnew : AlwaysAnswers env → ∀ r ∈ new, r.output.tokenIds ≠ [])
    (hanswers : AnswersCounted env c) (h : TurnsCounted n state c) :
    (AnswersCounted env c' ∧ TurnsCounted n state' c') ∧
      (state' ≠ .terminated → turnsLeft n state' c' < turnsLeft n state c) := by
  cases hturn with
  | render _ ids =>
      refine ⟨⟨hanswers, h⟩, fun _ => ?_⟩
      obtain ⟨-, hlt⟩ := h
      simp only [turnsLeft]
      omega
  | stop _ output =>
      obtain ⟨heq, hlt⟩ := h
      have hanswers' : AnswersCounted env (c.answered output) :=
        hanswers.answered (fun halways => hnew halways _ (List.mem_singleton_self _))
      refine ⟨⟨hanswers', ?_⟩, fun hne => absurd rfl hne⟩
      simp only [TurnsCounted, Conversation.answered]
      omega
  | goOn _ output _ hnext hgoes =>
      obtain ⟨heq, hlt⟩ := h
      have hanswers' : AnswersCounted env (c.answered output) :=
        hanswers.answered (fun halways => hnew halways _ (List.mem_singleton_self _))
      have hturns : (c.answered output).assistantTurns = (c.answered output).userTurns + 1 := by
        simp only [Conversation.answered]
        omega
      have hlt' := assistantTurns_lt hbounded hanswers' hturns hgoes
      have hone : (c.answered output).assistantTurns = c.assistantTurns + 1 := rfl
      rcases hnext with rfl | rfl
      · refine ⟨⟨hanswers', hturns, hlt'⟩, fun _ => ?_⟩
        simp only [turnsLeft]
        omega
      · refine ⟨⟨hanswers', hturns, hlt'⟩, fun _ => ?_⟩
        simp only [turnsLeft]
        omega
  | observe _ ids _ _ hhere hnext =>
      have hcounts : c.assistantTurns = c.userTurns + 1 ∧ c.assistantTurns < n := by
        rcases hhere with rfl | rfl
        · exact h
        · exact h
      have hleft : turnsLeft n state c = 2 * (n - c.assistantTurns) - 1 := by
        rcases hhere with rfl | rfl
        · rfl
        · rfl
      obtain ⟨heq, hlt⟩ := hcounts
      refine ⟨⟨hanswers.observed ids, ?_⟩, fun hne => ?_⟩
      · rcases hnext with rfl | rfl
        · exact ⟨heq.symm, hlt⟩
        · simp only [TurnsCounted, Conversation.observed]
          omega
      · rcases hnext with rfl | rfl
        · rw [hleft]
          simp only [turnsLeft, Conversation.observed]
          omega
        · exact absurd rfl hne
  | giveUp _ =>
      obtain ⟨heq, hlt⟩ := h
      refine ⟨⟨hanswers, ?_⟩, fun hne => absurd rfl hne⟩
      simp only [TurnsCounted]
      omega

theorem generate_of_mem_asked {s : LoopState W Token Image Video} {r : Request Token}
    (h : r ∈ asked env s) : ∃ world, env.generate s.agent.requestId s.agent.promptIds
      s.agent.imageData s.agent.videoData s.world = .ok (r.output, world) := by
  rw [asked] at h
  split at h
  case h_1 =>
    split at h
    case h_1 output world houtput =>
      rw [List.mem_singleton.mp h]
      exact ⟨world, houtput⟩
    case h_2 => cases h
  case h_2 => cases h

def LoopCounted (env : Environment W Token Image Video) (n : ℕ)
    (s : LoopState W Token Image Video) : Prop :=
  AnswersCounted env s.agent.conversation ∧ TurnsCounted n s.state s.agent.conversation

theorem loopCounted_agentStep (hbounded : AnswersBounded env cfg n)
    {s s' : LoopState W Token Image Video} (hrunning : s.isTerminated = false)
    (hstep : agentStep env cfg s = .ok s') (h : LoopCounted env n s) :
    LoopCounted env n s' ∧
      (s'.isTerminated = false →
        turnsLeft n s'.state s'.agent.conversation < turnsLeft n s.state s.agent.conversation) := by
  have hnew : AlwaysAnswers env → ∀ r ∈ asked env s, r.output.tokenIds ≠ [] := by
    intro halways r hr
    obtain ⟨world, hgenerate⟩ := generate_of_mem_asked hr
    exact halways _ _ _ _ _ _ _ hgenerate
  obtain ⟨hkeeps, hfewer⟩ :=
    turnsCounted_turn hbounded (agentStep_turn hrunning hstep) hnew h.1 h.2
  exact ⟨hkeeps, fun hgoes => hfewer (of_decide_eq_false hgoes)⟩

theorem loopCounted_startRun (hn : n ≠ 0) {requestId : Str} {kwargs : RunKwargs} {world : W}
    {start : LoopState W Token Image Video}
    (h : startRun env cfg requestId kwargs world = .ok start) :
    LoopCounted env n start ∧ turnsLeft n start.state start.agent.conversation < 2 * n := by
  obtain ⟨hpending, hblank⟩ := startRun_ok h
  rw [LoopCounted, hpending, hblank]
  refine ⟨⟨fun _ => le_refl _, rfl, Nat.pos_of_ne_zero hn⟩, ?_⟩
  simp only [turnsLeft]
  omega

/-- If the answers are bounded by `n`, a run takes at most `2 * n` turns of the loop, so
that more fuel changes nothing, and reports at most `2 * n` turns of the conversation. -/
theorem runToolAgent_ends (hbounded : AnswersBounded env cfg n) {fuel : ℕ} (hfuel : 2 * n ≤ fuel)
    (requestId : Str) (kwargs : RunKwargs) (world : W) :
    runToolAgent env cfg fuel requestId kwargs world =
        runToolAgent env cfg (2 * n) requestId kwargs world ∧
      runToolAgent env cfg fuel requestId kwargs world ≠ .ok none ∧
      ∀ out world', runToolAgent env cfg fuel requestId kwargs world = .ok (some (out, world')) →
        out.numTurns ≤ 2 * n := by
  unfold runToolAgent
  cases hstart : startRun env cfg requestId kwargs world with
  | error e => exact ⟨rfl, by simp, fun out world' h => by cases h⟩
  | ok start =>
      obtain ⟨hinit, hleft⟩ := loopCounted_startRun hbounded.1 hstart
      obtain ⟨hsame, hends⟩ := drive_ends (LoopCounted env n)
        (fun s => turnsLeft n s.state s.agent.conversation)
        (fun _ _ => loopCounted_agentStep hbounded)
        hinit (fun _ => hleft) hfuel
      rw [ok_bind, ok_bind, hsame]
      refine ⟨rfl, ?_, fun out world' h => ?_⟩
      · cases hlast : drive (agentStep env cfg) LoopState.isTerminated (2 * n) start with
        | error e => simp
        | ok last =>
            cases last with
            | none => exact absurd hlast hends
            | some last => simp
      · obtain ⟨last, hlast, h⟩ := bind_eq_ok.mp h
        cases last with
        | none => cases h
        | some last =>
            cases h
            have hkept := drive_keeps (asked env) (fun s _ => LoopCounted env n s)
              (fun _ _ _ hrunning hstep h => (loopCounted_agentStep hbounded hrunning hstep h).1)
              [] hinit hlast
            have hdone : last.state = .terminated := of_decide_eq_true hkept.2
            have hcounted := hkept.1.2
            rw [hdone] at hcounted
            exact hcounted

theorem answersBounded_toolEnv : AnswersBounded toolEnv toolConfig 8 := by
  refine ⟨by decide, Or.inr (Or.inr ⟨?_, le_refl _⟩)⟩
  intro requestId promptIds images videos world output world' h
  rw [toolEnv] at h
  dsimp only at h
  split at h
  case isTrue =>
    cases h
    exact List.cons_ne_nil _ _
  case isFalse =>
    cases h
    exact List.cons_ne_nil _ _

theorem runToolAgent_ends_toolCall :
    runToolAgent toolEnv toolConfig 100 [] toolKwargs 0 =
        runToolAgent toolEnv toolConfig 16 [] toolKwargs 0 ∧
      runToolAgent toolEnv toolConfig 100 [] toolKwargs 0 ≠ .ok none :=
  have h := runToolAgent_ends answersBounded_toolEnv (by decide : 2 * 8 ≤ 100) [] toolKwargs 0
  ⟨h.1, h.2.1⟩

end Length

end RLCM.AgentLoop
