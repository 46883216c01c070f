/-
# `RLCM.AgentLoop.ToolAgentRuns` — what a conversation trains on

A turn of the loop changes the tokens of the conversation in one of four ways, whatever
the environment answers: `Turn` is that smaller machine, and `agentStep_turn` says that the
loop follows it.  Everything else is proved of `Turn`.

The requests of a run are what the server was asked and answered, in order.  `source` finds
the request that a position of the conversation was sampled by; the mask and the
log-probabilities are the rows that one reads off it (`rowOf`).
-/
import RLCM.AgentLoop.ToolAgent

namespace RLCM.AgentLoop

open Py WhileLoop

variable {W Token Image Video : Type}

/-! ## Requests -/

/-- What the server was asked, and what it answered. -/
structure Request (Token : Type) where
  promptIds : List Token
  output : TokenOutput Token

/-- The position behind the last token of the answer. -/
def Request.stop (r : Request Token) : ℕ := r.promptIds.length + r.output.tokenIds.length

/-- The request of a turn of the loop. -/
def asked (env : Environment W Token Image Video) (s : LoopState W Token Image Video) :
    List (Request Token) :=
  match s.state with
  | .generating =>
      match env.generate s.agent.requestId s.agent.promptIds s.agent.imageData s.agent.videoData
          s.world with
      | .ok (output, _) => [{ promptIds := s.agent.promptIds, output }]
      | .error _ => []
  | _ => []

def requestsOf (env : Environment W Token Image Video) (cfg : ToolAgentConfig) (fuel : ℕ)
    (requestId : Str) (kwargs : RunKwargs) (world : W) : List (Request Token) :=
  match startRun env cfg requestId kwargs world with
  | .ok start => emitted (agentStep env cfg) LoopState.isTerminated (asked env) fuel start
  | .error _ => []

/-- The request whose answer holds position `i`, and where in the answer. -/
def source (log : List (Request Token)) (i : ℕ) : Option (Request Token × ℕ) :=
  (log.find? (fun r => r.promptIds.length ≤ i && i < r.stop)).map
    (fun r => (r, i - r.promptIds.length))

/-- A value for each of `len` positions from `start` on, by where it comes from. -/
def rowOf {α : Type} (value : Option (Request Token × ℕ) → α) (log : List (Request Token))
    (start len : ℕ) : List α :=
  (List.range len).map (fun i => value (source log (start + i)))

/-- The mask: 1 under what was sampled. -/
def maskValue : Option (Request Token × ℕ) → ℕ
  | some _ => 1
  | none => 0

/-- The log-probability: what the server sent, 0 under what was not sampled. -/
def logProbValue : Option (Request Token × ℕ) → ℚ
  | some (r, j) => (r.output.logProbs.getD []).getD j 0
  | none => 0

section Rows

variable {α : Type} {value : Option (Request Token × ℕ) → α} {log : List (Request Token)}
  {r : Request Token} {start i : ℕ}

theorem source_eq_none (h : ∀ r ∈ log, r.stop ≤ i) : source log i = none := by
  have hfind : log.find? (fun r => r.promptIds.length ≤ i && i < r.stop) = none := by
    refine List.find?_eq_none.mpr (fun r hr => ?_)
    have hstop := h r hr
    simp only [Bool.and_eq_true, decide_eq_true_eq, not_and, not_lt]
    exact fun _ => hstop
  rw [source, hfind]
  rfl

theorem source_snoc_of_lt (h : i < r.promptIds.length) :
    source (log ++ [r]) i = source log i := by
  have hnew : [r].find? (fun r => r.promptIds.length ≤ i && i < r.stop) = none := by
    refine List.find?_eq_none.mpr (fun r' hr' => ?_)
    rw [List.mem_singleton.mp hr']
    simp only [Bool.and_eq_true, decide_eq_true_eq, not_and, not_lt]
    omega
  rw [source, source, List.find?_append, hnew, Option.or_none]

/-- The positions behind all earlier answers belong to the new one. -/
theorem source_snoc_self (hlog : ∀ r' ∈ log, r'.stop ≤ r.promptIds.length)
    (h : i < r.output.tokenIds.length) :
    source (log ++ [r]) (r.promptIds.length + i) = some (r, i) := by
  have hold : log.find? (fun r' => r'.promptIds.length ≤ r.promptIds.length + i &&
      r.promptIds.length + i < r'.stop) = none := by
    refine List.find?_eq_none.mpr (fun r' hr' => ?_)
    have hstop := hlog r' hr'
    simp only [Bool.and_eq_true, decide_eq_true_eq, not_and, not_lt]
    omega
  have hnew : [r].find? (fun r' => r'.promptIds.length ≤ r.promptIds.length + i &&
      r.promptIds.length + i < r'.stop) = some r := by
    refine List.find?_cons_of_pos ?_
    simp only [Request.stop, Nat.le_add_right, decide_true, Bool.true_and]
    exact decide_eq_true (Nat.add_lt_add_left h _)
  rw [source, List.find?_append, hold, hnew, Option.none_or, Option.map_some,
    Nat.add_sub_cancel_left]

@[simp] theorem length_rowOf {len : ℕ} : (rowOf value log start len).length = len := by
  rw [rowOf, List.length_map, List.length_range]

theorem getElem?_rowOf {len : ℕ} (h : i < len) :
    (rowOf value log start len)[i]? = some (value (source log (start + i))) := by
  rw [rowOf, List.getElem?_map, List.getElem?_range h]
  rfl

theorem rowOf_add (len more : ℕ) :
    rowOf value log start (len + more) =
      rowOf value log start len ++ rowOf value log (start + len) more := by
  simp only [rowOf, List.range_add, List.map_append, List.map_map, Function.comp_def,
    Nat.add_assoc]

theorem rowOf_behind (h : ∀ r ∈ log, r.stop ≤ start) (len : ℕ) :
    rowOf value log start len = List.replicate len (value none) := by
  refine List.eq_replicate_iff.mpr ⟨length_rowOf, fun x hx => ?_⟩
  obtain ⟨i, -, rfl⟩ := List.mem_map.mp hx
  rw [source_eq_none (fun r hr => Nat.le_add_right_of_le (h r hr))]

theorem rowOf_snoc_of_le {len : ℕ} (h : start + len ≤ r.promptIds.length) :
    rowOf value (log ++ [r]) start len = rowOf value log start len := by
  refine List.map_congr_left (fun i hi => ?_)
  have hlt := List.mem_range.mp hi
  rw [source_snoc_of_lt (by omega)]

theorem rowOf_snoc_self (hlog : ∀ r' ∈ log, r'.stop ≤ r.promptIds.length) :
    rowOf value (log ++ [r]) r.promptIds.length r.output.tokenIds.length =
      (List.range r.output.tokenIds.length).map (fun j => value (some (r, j))) := by
  refine List.map_congr_left (fun i hi => ?_)
  rw [source_snoc_self hlog (List.mem_range.mp hi)]

end Rows

/-! ## The smaller machine -/

/-- What a turn changes of `AgentData` as far as training and ending go. -/
structure Conversation (Token : Type) where
  promptIds : List Token
  responseMask : List ℕ
  responseLogprobs : List ℚ
  userTurns : ℕ
  assistantTurns : ℕ

def AgentData.conversation (agent : AgentData Token Image Video) : Conversation Token where
  promptIds := agent.promptIds
  responseMask := agent.responseMask
  responseLogprobs := agent.responseLogprobs
  userTurns := agent.userTurns
  assistantTurns := agent.assistantTurns

namespace Conversation

variable (c : Conversation Token)

/-- How many of the tokens are not response. -/
def promptLength : ℕ := c.promptIds.length - c.responseMask.length

/-- With the server's answer at the end. -/
def answered (output : TokenOutput Token) : Conversation Token :=
  { c with
    promptIds := c.promptIds ++ output.tokenIds
    responseMask := c.responseMask ++ List.replicate output.tokenIds.length 1
    responseLogprobs := c.responseLogprobs ++ output.logProbs.getD []
    assistantTurns := c.assistantTurns + 1 }

/-- With tokens at the end that were not sampled. -/
def observed (ids : List Token) : Conversation Token :=
  { c with
    promptIds := c.promptIds ++ ids
    responseMask := c.responseMask ++ List.replicate ids.length 0
    responseLogprobs :=
      if c.responseLogprobs.isEmpty then c.responseLogprobs
      else c.responseLogprobs ++ List.replicate ids.length 0
    userTurns := c.userTurns + 1 }

/-- Whether it ends after an answer. -/
def isFinished (cfg : ToolAgentConfig) : Bool :=
  cfg.responseLength ≤ c.responseMask.length ||
    reached cfg.maxAssistantTurns c.assistantTurns || reached cfg.maxUserTurns c.userTurns

end Conversation

/-- The turns of a conversation, with the requests they make. -/
inductive Turn (cfg : ToolAgentConfig) :
    AgentState → Conversation Token → List (Request Token) → AgentState → Conversation Token → Prop
  | render (c : Conversation Token) (ids : List Token) :
      Turn cfg .pending c [] .generating { c with promptIds := ids }
  | stop (c : Conversation Token) (output : TokenOutput Token) :
      Turn cfg .generating c [{ promptIds := c.promptIds, output }] .terminated (c.answered output)
  | goOn (c : Conversation Token) (output : TokenOutput Token) (next : AgentState)
      (hnext : next = .processingTools ∨ next = .interacting)
      (h : (c.answered output).isFinished cfg = false) :
      Turn cfg .generating c [{ promptIds := c.promptIds, output }] next (c.answered output)
  | observe (c : Conversation Token) (ids : List Token) (here next : AgentState)
      (hhere : here = .processingTools ∨ here = .interacting)
      (hnext : next = .generating ∨ next = .terminated) :
      Turn cfg here c [] next (c.observed ids)
  | giveUp (c : Conversation Token) : Turn cfg .processingTools c [] .terminated c

section Refinement

variable {env : Environment W Token Image Video} {cfg : ToolAgentConfig}
  {s s' : LoopState W Token Image Video}

theorem handlePendingState_turn
    (h : handlePendingState env cfg s.agent s.world = .ok s') :
    Turn cfg .pending s.agent.conversation [] s'.state s'.agent.conversation := by
  obtain ⟨⟨ids, world⟩, -, h⟩ := bind_eq_ok.mp h
  cases h
  exact Turn.render _ ids

theorem handleGeneratingState_turn
    (h : handleGeneratingState env cfg s.agent s.world = .ok s') :
    ∃ output world, env.generate s.agent.requestId s.agent.promptIds s.agent.imageData
        s.agent.videoData s.world = .ok (output, world) ∧
      Turn cfg .generating s.agent.conversation [{ promptIds := s.agent.promptIds, output }]
        s'.state s'.agent.conversation := by
  obtain ⟨⟨output, world⟩, houtput, h⟩ := bind_eq_ok.mp h
  refine ⟨output, world, houtput, ?_⟩
  dsimp only at h
  split at h
  case isTrue =>
    cases h
    exact Turn.stop _ output
  case isFalse hgoes =>
    have hgoes : (s.agent.conversation.answered output).isFinished cfg = false :=
      Bool.eq_false_iff.mpr hgoes
    obtain ⟨⟨toolCalls, world⟩, -, h⟩ := bind_eq_ok.mp h
    dsimp only at h
    split at h
    case isTrue =>
      cases h
      exact Turn.goOn _ output _ (Or.inl rfl) hgoes
    case isFalse =>
      split at h
      case isTrue =>
        cases h
        exact Turn.goOn _ output _ (Or.inr rfl) hgoes
      case isFalse =>
        cases h
        exact Turn.stop _ output

theorem handleProcessingToolsState_turn
    (h : handleProcessingToolsState env cfg s.agent s.world = .ok s') :
    Turn cfg .processingTools s.agent.conversation [] s'.state s'.agent.conversation := by
  obtain ⟨⟨outcomes, world⟩, -, h⟩ := bind_eq_ok.mp h
  obtain ⟨turn, -, h⟩ := bind_eq_ok.mp h
  obtain ⟨⟨responseIds, world⟩, -, h⟩ := bind_eq_ok.mp h
  dsimp only at h
  split at h
  case isTrue =>
    cases h
    exact Turn.giveUp _
  case isFalse =>
    cases h
    exact Turn.observe _ responseIds _ _ (Or.inl rfl) (Or.inl rfl)

theorem handleInteractingState_turn
    (h : handleInteractingState env cfg s.agent s.world = .ok s') :
    Turn cfg .interacting s.agent.conversation [] s'.state s'.agent.conversation := by
  rw [handleInteractingState] at h
  split at h
  case h_1 => cases h
  case h_2 interaction hinteraction =>
    obtain ⟨⟨reply, world⟩, -, h⟩ := bind_eq_ok.mp h
    obtain ⟨⟨responseIds, world⟩, -, h⟩ := bind_eq_ok.mp h
    cases h
    refine Turn.observe _ responseIds _ _ (Or.inr rfl) ?_
    cases reply.shouldTerminateSequence with
    | true => exact Or.inr rfl
    | false => exact Or.inl rfl

theorem agentStep_turn (hrunning : s.isTerminated = false) (h : agentStep env cfg s = .ok s') :
    Turn cfg s.state s.agent.conversation (asked env s) s'.state s'.agent.conversation := by
  rw [agentStep] at h
  rw [asked]
  split at h
  case h_1 hstate =>
    rw [hstate]
    exact handlePendingState_turn h
  case h_2 hstate =>
    rw [hstate]
    obtain ⟨output, world, houtput, hturn⟩ := handleGeneratingState_turn h
    dsimp only
    rw [houtput]
    exact hturn
  case h_3 hstate =>
    rw [hstate]
    exact handleProcessingToolsState_turn h
  case h_4 hstate =>
    rw [hstate]
    exact handleInteractingState_turn h
  case h_5 hstate =>
    rw [LoopState.isTerminated, hstate] at hrunning
    cases hrunning

end Refinement

end RLCM.AgentLoop
