/-
# `RLCM.AgentLoop.ToolAgent` — the multi-turn agent loop

`ToolAgentLoop.run` is a state machine: it renders the prompt, then lets the server
generate, runs the tools that the answer calls or asks the interaction for the next user
message, appends what came back, and generates again.  `AgentData` carries the tokens of
the conversation with a mask, 1 under what the server generated.

Everything outside the loop is an `Environment`: the chat template, the server, the tool
parser, the tools and the interaction are functions of a world that each of them may
change, so no assumption is made about what they answer or how calls that run at the same
time interleave.
-/
import RLCM.Py.Str
import RLCM.Lib.WhileLoop
import Mathlib.Data.Rat.Defs

namespace RLCM.AgentLoop

open Py WhileLoop

/-! ## Messages and answers -/

/-- `AgentState`. -/
inductive AgentState where
  | pending
  | generating
  | processingTools
  | terminated
  | interacting
deriving DecidableEq, Repr

/-- An entry of a structured message. -/
inductive ContentPart where
  | image
  | video
  | text (text : Str)

/-- `message["content"]`. -/
inductive Content where
  | text (text : Str)
  | parts (parts : List ContentPart)

/-- A chat message. -/
structure Message where
  role : Str
  content : Content

/-- `FunctionCall`. -/
structure FunctionCall where
  name : Str
  arguments : Str

/-- `TokenOutput`, as far as the loop reads it. -/
structure TokenOutput (Token : Type) where
  tokenIds : List Token
  logProbs : Option (List ℚ)
  numPreempted : Option ℤ

/-- `ToolResponse`. -/
structure ToolResponse (Image Video : Type) where
  text : Option Str
  image : Option (List (Option Image))
  video : Option (List Video)

/-- What `interaction.generate_response` returns, without the metrics the loop drops. -/
structure InteractionReply where
  shouldTerminateSequence : Bool
  interactionResponses : Str
  reward : Option ℚ

/-- `AgentData`. -/
structure AgentData (Token Image Video : Type) where
  messages : List Message
  imageData : Option (List Image)
  videoData : Option (List Video)
  numPreempted : Option ℤ := none
  requestId : Str
  interaction : Option Str
  promptIds : List Token := []
  responseIds : List Token := []
  responseMask : List ℕ := []
  responseLogprobs : List ℚ := []
  turnScores : List ℚ := []
  toolRewards : List ℚ := []
  userTurns : ℕ := 0
  assistantTurns : ℕ := 0
  toolCalls : List FunctionCall := []

/-- What the loop calls.  `executeTools` runs the calls of one turn, which `asyncio.gather`
starts together; it gives the outcome of each in the order of the calls, an exception as
its text. -/
structure Environment (W Token Image Video : Type) where
  processVisionInfo : List Message → W →
    Except Error ((Option (List Image) × Option (List Video)) × W)
  renderTemplate : List Message → Bool → Option (List Image) → Option (List Video) → W →
    Except Error (List Token × W)
  generate : Str → List Token → Option (List Image) → Option (List Video) → W →
    Except Error (TokenOutput Token × W)
  extractToolCalls : List Token → W → Except Error (List FunctionCall × W)
  executeTools : List FunctionCall → AgentData Token Image Video → W →
    Except Error (List (Except Str (ToolResponse Image Video × Option ℚ)) × W)
  startInteraction : Str → Str → W → Except Error W
  generateResponse : Str → Str → List Message → W → Except Error (InteractionReply × W)
  encode : Str → List Token
  decode : List Token → Str
  formatParts : List ContentPart → Str

/-- What `ToolAgentLoop.__init__` reads, the length of the rendered system prompt, and
whether the processor takes images. -/
structure ToolAgentConfig where
  maxUserTurns : Option ℕ
  maxAssistantTurns : Option ℕ
  maxParallelCalls : ℕ
  maxToolResponseLength : ℕ
  toolResponseTruncateSide : Str
  toolParserName : Str
  responseLength : ℕ
  interactionConfigFile : Bool
  interactionMap : List Str
  systemPromptLength : ℕ
  hasImageProcessor : Bool

/-- The keyword arguments of `run`; `extra_info["interaction_kwargs"]` with its name. -/
structure RunKwargs where
  rawPrompt : List Message
  interactionKwargs : Option (Option Str)

/-- `AgentLoopOutput`, as this loop fills it. -/
structure ToolAgentOutput (Token Image Video : Type) where
  promptIds : List Token
  responseIds : List Token
  responseMask : List ℕ
  images : Option (List Image)
  videos : Option (List Video)
  responseLogprobs : Option (List ℚ)
  numTurns : ℕ
  numPreempted : Option ℤ
  turnScores : List ℚ
  toolRewards : List ℚ

/-- `xs[-n:]`, which is everything for `n = 0`. -/
def lastItems {α : Type} (n : ℕ) (xs : List α) : List α :=
  if n = 0 then xs else xs.drop (xs.length - n)

/-! ## Tool responses -/

/-- The truncation in `_call_tool`. -/
def truncateToolResponse (cfg : ToolAgentConfig) (text : Str) : Str :=
  if cfg.maxToolResponseLength < text.length then
    if cfg.toolResponseTruncateSide = "left".toList then
      text.take cfg.maxToolResponseLength ++ "...(truncated)".toList
    else if cfg.toolResponseTruncateSide = "right".toList then
      "(truncated)...".toList ++ lastItems cfg.maxToolResponseLength text
    else
      let length := cfg.maxToolResponseLength / 2
      text.take length ++ "...(truncated)...".toList ++ lastItems length text
  else text

section Tools

variable {Image Video : Type}

/-- What `_call_tool` returns for an execution, or for the exception it raised. -/
def callTool (cfg : ToolAgentConfig) :
    Except Str (ToolResponse Image Video × Option ℚ) → ToolResponse Image Video × Option ℚ
  | .error e =>
      ({ text := some ("Error when executing tool: ".toList ++ e), image := none, video := none },
        some 0)
  | .ok (response, reward) =>
      ({ response with text := response.text.map (truncateToolResponse cfg) }, reward)

/-- The local variables of the loop over the responses, and the rewards it appends to. -/
structure ToolTurn (Image : Type) where
  addMessages : List Message := []
  newImages : List Image := []
  toolRewards : List ℚ

def toolMessage (cfg : ToolAgentConfig) (response : ToolResponse Image Video) :
    Except Error Message :=
  let image := (response.image.getD []).isEmpty
  let video := (response.video.getD []).isEmpty
  let text := response.text.getD []
  if !image || !video then
    if !cfg.hasImageProcessor then
      .error (.valueError ("Multimedia data can only be processed by `processor`, but the " ++
        "processor is None. This error is often caused if you are using a LLM model but your " ++
        "tool returns multimodal data. Plase use a vlm as the base model."))
    else
      .ok
        { role := "tool".toList
          content := .parts ((if image then [] else [.image]) ++ (if video then [] else [.video]) ++
            (if text.isEmpty then [] else [.text text])) }
  else .ok { role := "tool".toList, content := .text text }

/-- One iteration of the loop over the responses. -/
def processResponse (cfg : ToolAgentConfig) (turn : ToolTurn Image)
    (response : ToolResponse Image Video × Option ℚ) : Except Error (ToolTurn Image) := do
  let message ← toolMessage cfg response.1
  if (response.1.video.getD []).isEmpty then
    pure
      { addMessages := turn.addMessages ++ [message]
        newImages := turn.newImages ++ (response.1.image.getD []).filterMap id
        toolRewards := turn.toolRewards ++ response.2.toList }
  else
    .error (.runtimeError
      "Multimedia type 'video' is not currently supported. Only 'image' is supported.")

end Tools

def formatGptOssToolResponseManually (toolResponse toolCallName : Str) : Str :=
  "<|start|>functions.".toList ++ toolCallName ++
    " to=assistant<|channel|>commentary<|message|>".toList ++ toolResponse ++ "<|end|>".toList

def addGenerationPromptForGptOss (messageContent : Str) : Str :=
  messageContent ++ "<|start|>assistant".toList

/-- `build_gpt_oss_tool_response_text`; `formatParts` renders a structured content. -/
def buildGptOssToolResponseText (formatParts : List ContentPart → Str) (messages : List Message)
    (toolCallNames : List Str) : Except Error Str := do
  let toolResponseTexts ← messages.zipIdx.mapM (fun (message, i) => do
    let actualToolName ← getItem toolCallNames i
    let content := match message.content with
      | .text text => text
      | .parts parts => formatParts parts
    pure (formatGptOssToolResponseManually content actualToolName))
  pure (addGenerationPromptForGptOss toolResponseTexts.flatten)

/-! ## The handlers -/

variable {W Token Image Video : Type}

/-- `if max and turns >= max`. -/
def reached (limit : Option ℕ) (turns : ℕ) : Bool :=
  match limit with
  | none => false
  | some limit => limit != 0 && limit ≤ turns

/-- The server's answer goes to the end of the conversation, with ones in the mask. -/
def AgentData.addOutput (agent : AgentData Token Image Video) (output : TokenOutput Token) :
    AgentData Token Image Video :=
  { agent with
    numPreempted := some (match agent.numPreempted with
      | none => output.numPreempted.getD (-1)
      | some n => n + output.numPreempted.getD 0)
    assistantTurns := agent.assistantTurns + 1
    responseIds := output.tokenIds
    promptIds := agent.promptIds ++ output.tokenIds
    responseMask := agent.responseMask ++ List.replicate output.tokenIds.length 1
    responseLogprobs := agent.responseLogprobs ++ output.logProbs.getD [] }

/-- Tokens that were not generated go there with zeros in the mask, and in the
log-probabilities if there are any so far. -/
def AgentData.addObservation (agent : AgentData Token Image Video) (responseIds : List Token) :
    AgentData Token Image Video :=
  { agent with
    promptIds := agent.promptIds ++ responseIds
    responseMask := agent.responseMask ++ List.replicate responseIds.length 0
    responseLogprobs :=
      if agent.responseLogprobs.isEmpty then agent.responseLogprobs
      else agent.responseLogprobs ++ List.replicate responseIds.length 0 }

/-- The state of the `while` loop of `run`. -/
structure LoopState (W Token Image Video : Type) where
  state : AgentState
  agent : AgentData Token Image Video
  world : W

section Handlers

variable (env : Environment W Token Image Video) (cfg : ToolAgentConfig)

def applyChatTemplate (messages : List Message) (tools : Bool) (images : Option (List Image))
    (videos : Option (List Video)) (removeSystemPrompt : Bool) (world : W) :
    Except Error (List Token × W) := do
  let (promptIds, world) ← env.renderTemplate messages tools images videos world
  pure (if removeSystemPrompt then promptIds.drop cfg.systemPromptLength else promptIds, world)

def handlePendingState (agent : AgentData Token Image Video) (world : W) :
    Except Error (LoopState W Token Image Video) := do
  let (promptIds, world) ←
    applyChatTemplate env cfg agent.messages true agent.imageData agent.videoData false world
  pure { state := .generating, agent := { agent with promptIds := promptIds }, world }

/-- Whether a conversation ends after the answer it just got. -/
def finished (agent : AgentData Token Image Video) : Bool :=
  cfg.responseLength ≤ agent.responseMask.length ||
    reached cfg.maxAssistantTurns agent.assistantTurns || reached cfg.maxUserTurns agent.userTurns

def handleGeneratingState (agent : AgentData Token Image Video) (world : W) :
    Except Error (LoopState W Token Image Video) := do
  let (output, world) ←
    env.generate agent.requestId agent.promptIds agent.imageData agent.videoData world
  let agent := agent.addOutput output
  if finished cfg agent then pure { state := .terminated, agent, world }
  else do
    let (toolCalls, world) ← env.extractToolCalls agent.responseIds world
    let agent := { agent with
      toolCalls := toolCalls
      messages :=
        if cfg.interactionConfigFile then
          agent.messages ++
            [{ role := "assistant".toList, content := .text (env.decode agent.responseIds) }]
        else agent.messages }
    if !toolCalls.isEmpty then pure { state := .processingTools, agent, world }
    else if cfg.interactionConfigFile then pure { state := .interacting, agent, world }
    else pure { state := .terminated, agent, world }

/-- The tokens of the tool messages, which the template of one model cannot render. -/
def toolResponseIds (turn : ToolTurn Image) (toolCallNames : List Str) (world : W) :
    Except Error (List Token × W) :=
  if cfg.toolParserName = "gpt-oss".toList then do
    let text ← buildGptOssToolResponseText env.formatParts turn.addMessages toolCallNames
    pure (env.encode text, world)
  else applyChatTemplate env cfg turn.addMessages false (some turn.newImages) none true world

def handleProcessingToolsState (agent : AgentData Token Image Video) (world : W) :
    Except Error (LoopState W Token Image Video) := do
  let toolCalls := agent.toolCalls.take cfg.maxParallelCalls
  let (outcomes, world) ← env.executeTools toolCalls agent world
  let turn ← (outcomes.map (callTool cfg)).foldlM (processResponse cfg)
    { toolRewards := agent.toolRewards }
  let agent := { agent with
    toolRewards := turn.toolRewards
    messages := agent.messages ++ turn.addMessages }
  let (responseIds, world) ←
    toolResponseIds env cfg turn (toolCalls.map FunctionCall.name) world
  if cfg.responseLength ≤ agent.responseMask.length + responseIds.length then
    pure { state := .terminated, agent, world }
  else
    let agent := { agent with
      imageData :=
        if turn.newImages.isEmpty then agent.imageData
        else some (agent.imageData.getD [] ++ turn.newImages) }
    pure
      { state := .generating
        agent := { agent.addObservation responseIds with userTurns := agent.userTurns + 1 }
        world }

def handleInteractingState (agent : AgentData Token Image Video) (world : W) :
    Except Error (LoopState W Token Image Video) :=
  match agent.interaction with
  | none => .error .attributeError
  | some interaction => do
      let (reply, world) ←
        env.generateResponse interaction agent.requestId agent.messages world
      let addMessages : List Message :=
        [{ role := "user".toList, content := .text reply.interactionResponses }]
      let agent := { agent with
        userTurns := agent.userTurns + 1
        messages := agent.messages ++ addMessages
        turnScores := agent.turnScores ++ reply.reward.toList }
      let (responseIds, world) ← applyChatTemplate env cfg addMessages false none none true world
      pure
        { state := if reply.shouldTerminateSequence then .terminated else .generating
          agent := agent.addObservation responseIds
          world }

/-- One turn of the loop. -/
def agentStep (s : LoopState W Token Image Video) : Except Error (LoopState W Token Image Video) :=
  match s.state with
  | .pending => handlePendingState env cfg s.agent s.world
  | .generating => handleGeneratingState env cfg s.agent s.world
  | .processingTools => handleProcessingToolsState env cfg s.agent s.world
  | .interacting => handleInteractingState env cfg s.agent s.world
  | .terminated => .ok s

/-! ## A run -/

def LoopState.isTerminated (s : LoopState W Token Image Video) : Bool := s.state = .terminated

/-- `list(self.interaction_map.keys())` in a message. -/
def reprNames (names : List Str) : String :=
  "[" ++ String.intercalate ", " (names.map (fun name => "'" ++ String.ofList name ++ "'")) ++ "]"

def chooseInteraction (kwargs : RunKwargs) : Except Error (Option Str) :=
  if cfg.interactionConfigFile then
    match kwargs.interactionKwargs with
    | none => .error .keyError
    | some none => .error (.valueError "'name' key is required in interaction_kwargs")
    | some (some name) =>
        if cfg.interactionMap.contains name then .ok (some name)
        else .error (.valueError ("Interaction '" ++ String.ofList name ++
          "' not found in interaction_map. Available interactions: " ++
          reprNames cfg.interactionMap))
  else .ok none

/-- `await interaction.start_interaction(...)`, if there is one. -/
def startInteraction (interaction : Option Str) (requestId : Str) (world : W) : Except Error W :=
  match interaction with
  | none => .ok world
  | some name => env.startInteraction name requestId world

/-- What `run` does before the loop. -/
def startRun (requestId : Str) (kwargs : RunKwargs) (world : W) :
    Except Error (LoopState W Token Image Video) := do
  let ((images, videos), world) ← env.processVisionInfo kwargs.rawPrompt world
  let interaction ← chooseInteraction cfg kwargs
  let world ← startInteraction env interaction requestId world
  pure
    { state := .pending
      agent :=
        { messages := kwargs.rawPrompt, imageData := images, videoData := videos, requestId
          interaction }
      world }

/-- What `run` returns for the data the loop left. -/
def finalize (agent : AgentData Token Image Video) : ToolAgentOutput Token Image Video where
  promptIds := agent.promptIds.take (agent.promptIds.length - agent.responseMask.length)
  responseIds := (lastItems agent.responseMask.length agent.promptIds).take cfg.responseLength
  responseMask := agent.responseMask.take cfg.responseLength
  images := agent.imageData
  videos := agent.videoData
  responseLogprobs :=
    if agent.responseLogprobs.isEmpty then none
    else some (agent.responseLogprobs.take cfg.responseLength)
  numTurns := agent.userTurns + agent.assistantTurns + 1
  numPreempted := agent.numPreempted
  turnScores := agent.turnScores
  toolRewards := agent.toolRewards

/-- `ToolAgentLoop.run`, with at most `fuel` turns of the loop. -/
def runToolAgent (fuel : ℕ) (requestId : Str) (kwargs : RunKwargs) (world : W) :
    Except Error (Option (ToolAgentOutput Token Image Video × W)) := do
  let start ← startRun env cfg requestId kwargs world
  let last ← drive (agentStep env cfg) LoopState.isTerminated fuel start
  pure (last.map (fun last => (finalize cfg last.agent, last.world)))

end Handlers

end RLCM.AgentLoop
