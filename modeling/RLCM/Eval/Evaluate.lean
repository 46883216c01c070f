/-
# `RLCM.Eval.Evaluate` — the evaluation driver and what it leaves on disk

`evaluate.py`: merge the checkpoint, run the stages of every dataset, compute
the table.  A stage is skipped when its output is non-empty; otherwise its
script runs, and the script or the whole driver may be killed at any moment.

The disk (`World`) survives an invocation.  A file remembers the attempt that
wrote it: which command ran, which attempts had written its inputs, and whether
it ran to its end.  The driver never reads that; it is there for statements
about histories, together with the log of skips and uses.
-/
import RLCM.Lib.Interrupt
import RLCM.Py.Error
import Mathlib.Data.Rat.Defs

namespace RLCM.Eval

open Py Interrupt

/-! ## Names -/

abbrev Path := List String

/-- The stages of an evaluation. -/
inductive Stage where
  | merge
  | rollouts
  | budgetEval
  | hidden
  | probe
  | naturalEval
deriving DecidableEq

def Stage.name : Stage → String
  | .merge => "merge"
  | .rollouts => "rollouts"
  | .budgetEval => "budget_eval"
  | .hidden => "hidden"
  | .probe => "probe"
  | .naturalEval => "natural_eval"

/-- The output file of a stage in the directory of a dataset. -/
structure OutputId where
  outputDir : Path
  stage : Stage
deriving DecidableEq

/-! ## Configuration -/

/-- A configuration file, with the defaults of `load_config`. -/
structure ConfigFile where
  runName : String
  dataFiles : List String
  nSamples : ℤ := 4
  temperature : ℚ := 3 / 5
  maxTokens : ℤ := 8000
  budgets : List ℤ := [8000]
  nForced : ℤ := 1
  forcedMaxTokens : ℤ := 64
  codeForcedMaxTokens : ℤ := 2048
  gpqaAnswerFormat : String := "boxed"
  maxBatchQuota : ℚ := 120000
  maxBatchSize : ℤ := 32
  splitMode : String := "prompt"
  valSplit : ℚ := 1 / 5
  epochs : ℤ := 100
  batchSize : ℤ := 64
  patience : ℤ := 30
  tensorParallelSize : ℤ := 2
  gpuMemoryUtilization : ℚ := 9 / 10

/-- `DatasetConfig`. -/
structure DatasetConfig extends ConfigFile where
  outputDir : Path

def loadConfig (outputRoot : Path) (raw : ConfigFile) : DatasetConfig :=
  { raw with outputDir := outputRoot ++ [raw.runName] }

namespace DatasetConfig

variable (cfg : DatasetConfig)

def rolloutsFile : OutputId := ⟨cfg.outputDir, .rollouts⟩

def budgetEvalFile : OutputId := ⟨cfg.outputDir, .budgetEval⟩

def hiddenStatesFile : OutputId := ⟨cfg.outputDir, .hidden⟩

def probeModel : OutputId := ⟨cfg.outputDir, .probe⟩

end DatasetConfig

/-- A command line of a stage. -/
inductive Command where
  | merge (localDir targetDir : Path)
  | rollouts (modelPath : Path) (dataFiles : List String) (outputPath : OutputId) (nSamples : ℤ)
      (temperature : ℚ) (maxTokens tensorParallelSize : ℤ) (gpuMemoryUtilization : ℚ)
      (useRlcr : Bool)
  | budgetEval (rlcr : Bool) (inputFile : OutputId) (modelPath : Path) (outputFile : OutputId)
      (nForced : ℤ) (budgets : List ℤ) (forcedMaxTokens tensorParallelSize : ℤ)
      (gpuMemoryUtilization : ℚ) (boxedArgs : Option (ℤ × String))
  | hidden (inputFile : OutputId) (modelPath : Path) (outputFile : OutputId) (maxBatchQuota : ℚ)
      (maxBatchSize : ℤ)
  | probe (inputFile outputFile : OutputId) (splitMode : String) (valSplit : ℚ)
      (epochs batchSize patience : ℤ)
deriving DecidableEq

/-! ## The disk -/

/-- One run of the script of a stage: `inputs` are the numbers of the attempts
that wrote what it read. -/
structure Attempt where
  number : ℕ
  command : Command
  inputs : List ℕ
  finished : Bool
deriving DecidableEq

/-- A file and the attempt that wrote it. -/
structure File where
  size : ℕ
  attempt : Attempt
deriving DecidableEq

/-- A `merge/` directory, with the size of its `config.json`. -/
structure MergeDir where
  isThere : Bool := false
  configJson : Option ℕ := none
  attempt : Option Attempt := none

/-- What happened to an output: a stage was skipped because of it, or a stage
read it. -/
inductive Event where
  | skip (stage : Stage) (attempt : Attempt)
  | use (stage : Stage) (attempt : Attempt)
deriving DecidableEq

def Event.attempt : Event → Attempt
  | .skip _ a => a
  | .use _ a => a

/-- What survives an invocation; `attempts` is the number of the next attempt,
`markerWrites` are the calls of `_write_marker`, which replaces a marker with one
of a later time. -/
structure World where
  merges : Path → MergeDir
  outputs : OutputId → Option File
  markers : OutputId → Bool
  markerWrites : List OutputId
  attempts : ℕ
  events : List Event

namespace World

/-- No output of any stage. -/
def fresh : World where
  merges _ := {}
  outputs _ := none
  markers _ := false
  markerWrites := []
  attempts := 0
  events := []

variable (w : World)

/-- `_nonempty(path)`. -/
def nonempty (id : OutputId) : Bool := (w.outputs id).any (0 < ·.size)

/-- The attempts that wrote a file, if it is there. -/
def writers (id : OutputId) : List Attempt := (w.outputs id).toList.map File.attempt

/-- The attempts that wrote a model directory, if a merge did. -/
def modelWriters (modelPath : Path) : List Attempt := (w.merges modelPath).attempt.toList

/-- The file is there, non-empty, and was written by an attempt that ran to its
end. -/
def Complete (id : OutputId) : Prop :=
  ∃ f, w.outputs id = some f ∧ 0 < f.size ∧ f.attempt.finished = true

/-- The file is not the non-empty leftover of an attempt that did not run to its
end. -/
def NoLeftover (id : OutputId) : Prop :=
  ∀ f ∈ w.outputs id, 0 < f.size → f.attempt.finished = true

instance (id : OutputId) : Decidable (w.NoLeftover id) :=
  inferInstanceAs (Decidable (∀ f ∈ w.outputs id, 0 < f.size → f.attempt.finished = true))

def setOutput (id : OutputId) (file : Option File) : World :=
  { w with outputs := fun id' => if id' = id then file else w.outputs id' }

def setMerge (mergeDir : Path) (dir : MergeDir) : World :=
  { w with merges := fun p => if p = mergeDir then dir else w.merges p }

def setMarker (id : OutputId) : World :=
  { w with
    markers := fun id' => if id' = id then true else w.markers id'
    markerWrites := w.markerWrites ++ [id] }

def log (events : List Event) : World := { w with events := w.events ++ events }

def countAttempt : World := { w with attempts := w.attempts + 1 }

end World

/-! ## Kills -/

/-- What a killed or failed script leaves in place of its output. -/
inductive Leftover where
  | untouched
  | absent
  | empty
  | truncated (lastByte : ℕ)

/-- How an attempt ends; `finishedKilled` is a kill of the driver between the
end of the script and the marker. -/
inductive Outcome where
  | finished (size : ℕ)
  | finishedKilled (size : ℕ)
  | killed (leftover : Leftover)

/-- The script ran to its end. -/
def Outcome.finishes : Outcome → Bool
  | .finished _ | .finishedKilled _ => true
  | .killed _ => false

/-- The driver goes on. -/
def Outcome.continues : Outcome → Bool
  | .finished _ => true
  | .finishedKilled _ | .killed _ => false

/-- The output after the attempt. -/
def Outcome.file (old : Option File) (a : Attempt) : Outcome → Option File
  | .finished size | .finishedKilled size => some ⟨size, a⟩
  | .killed .untouched => old
  | .killed .absent => none
  | .killed .empty => some ⟨0, a⟩
  | .killed (.truncated lastByte) => some ⟨lastByte + 1, a⟩

/-- The merge directory after the attempt. -/
def Outcome.mergeDir (old : MergeDir) (a : Attempt) : Outcome → MergeDir
  | .finished size | .finishedKilled size => ⟨true, some size, some a⟩
  | .killed .untouched => old
  | .killed .absent => ⟨true, none, some a⟩
  | .killed .empty => ⟨true, some 0, some a⟩
  | .killed (.truncated lastByte) => ⟨true, some (lastByte + 1), some a⟩

/-- What becomes of a stage call: killed before it does anything, or going on,
with the outcome of the attempt if it makes one. -/
inductive Fate where
  | killedBefore
  | goesOn (outcome : Outcome)

/-- Why the driver stopped. -/
inductive Stop where
  | killed
  | raised (e : Error)
deriving DecidableEq

/-- The stage calls of an invocation; those of a dataset carry its index. -/
inductive Call where
  | merge
  | dataset (i : ℕ) (stage : Stage)
  | naturalEval

/-! ## An invocation -/

/-- What the user gave under `--ckpt`. -/
structure Checkpoint where
  configJson : Bool
  actor : Bool

/-- The arguments, the files they name, and the fate of every stage call. -/
structure Invocation where
  ckpt : Path
  checkpoint : Checkpoint
  rlcr : Bool
  configDir : Path
  configFiles : List (String × ConfigFile)
  datasets : List String
  probeDataset : String
  outputRoot : Option Path
  finalBudget : ℤ := 0
  bins : ℕ := 10
  skipMerge : Bool
  force : Bool
  dryRun : Bool
  visibleDevices : Option ℕ
  fate : Call → Fate

namespace Invocation

variable (inv : Invocation)

def root : Path :=
  inv.outputRoot.getD (inv.ckpt ++ [if inv.rlcr then "eval_rlcr" else "eval_boxed"])

def effectiveTp (configured : ℤ) : ℤ :=
  match inv.visibleDevices with
  | none => configured
  | some visible => if visible = 0 then 1 else min configured visible

/-- `discover_configs`, and `load_config` on what it found.  The directory is
listed in order. -/
def configs : List DatasetConfig :=
  let wanted := if inv.datasets = [] then
      inv.configFiles.filter (fun p => p.1.endsWith "_rlcr" == inv.rlcr)
    else inv.configFiles.filter (fun p => p.1 ∈ inv.datasets)
  wanted.map (fun p => loadConfig inv.root p.2)

def outcome (call : Call) : Prog World Stop Outcome :=
  match inv.fate call with
  | .killedBefore => Prog.stop .killed
  | .goesOn outcome => pure outcome

/-- `_run` of a command that reads what the listed attempts wrote. -/
def run (stage : Stage) (outcome : Outcome) (command : Command) (reads : World → List Attempt)
    (write : Attempt → World → World) : Prog World Stop Unit :=
  if inv.dryRun then pure ()
  else do
    Prog.modify (fun w =>
      write ⟨w.attempts, command, (reads w).map Attempt.number, outcome.finishes⟩
        (w.countAttempt.log ((reads w).map (Event.use stage))))
    Prog.require outcome.continues .killed

/-! ### Merge -/

/-- `stage_merge`: the path of the model. -/
def stageMerge : Prog World Stop Path := do
  let outcome ← inv.outcome .merge
  let w ← Prog.get
  if inv.checkpoint.configJson || (w.merges inv.ckpt).configJson.isSome then do
    Prog.modify (fun w => w.log ((w.modelWriters inv.ckpt).map (Event.skip .merge)))
    pure inv.ckpt
  else do
    let mergeDir := inv.ckpt ++ ["merge"]
    let dir := w.merges mergeDir
    if dir.configJson.any (0 < ·) || (inv.skipMerge && dir.isThere) then do
      Prog.modify (fun w => w.log ((w.modelWriters mergeDir).map (Event.skip .merge)))
      pure mergeDir
    else do
      Prog.require inv.checkpoint.actor (.raised (.fileNotFoundError
        ("[merge] no HF dir, no merge/, and no actor/ under " ++ "/".intercalate inv.ckpt ++
          "; pass a valid checkpoint.")))
      inv.run .merge outcome (.merge (inv.ckpt ++ ["actor"]) mergeDir) (fun _ => [])
        (fun a w => w.setMerge mergeDir (outcome.mergeDir (w.merges mergeDir) a))
      pure mergeDir

/-! ### The stages of a dataset -/

/-- `_is_done`: a non-empty output is enough; a missing marker is written. -/
def isDone (id : OutputId) : Prog World Stop Bool := do
  let w ← Prog.get
  if w.nonempty id && w.markers id then pure true
  else if w.nonempty id then do
    Prog.modify (World.setMarker · id)
    pure true
  else pure false

/-- The common body of the stage functions: check the input, skip or run the
script, check the output, write the marker. -/
def runStage (runName : String) (call : Call) (id : OutputId) (input : Option (OutputId × String))
    (model : Option Path) (command : Command) : Prog World Stop Unit := do
  let outcome ← inv.outcome call
  let w ← Prog.get
  Prog.require (inv.dryRun || input.all (fun file => w.nonempty file.1))
    (.raised (.runtimeError ("[" ++ runName ++ "] " ++ id.stage.name ++ " needs " ++
      (input.elim "" Prod.snd))))
  let done ← isDone id
  if done && !inv.force then
    Prog.modify (fun w => w.log ((w.writers id).map (Event.skip id.stage)))
  else do
    inv.run id.stage outcome command
      (fun w => (model.elim [] w.modelWriters) ++ (input.elim [] (fun file => w.writers file.1)))
      (fun a w => w.setOutput id (outcome.file (w.outputs id) a))
    let w ← Prog.get
    Prog.require (inv.dryRun || w.nonempty id)
      (.raised (.runtimeError ("[" ++ runName ++ "] " ++ id.stage.name ++ " produced no output")))
    Prog.modify (World.setMarker · id)

section Stages

variable (modelPath : Path) (i : ℕ) (cfg : DatasetConfig)

def stageRollouts : Prog World Stop Unit :=
  inv.runStage cfg.runName (.dataset i .rollouts) cfg.rolloutsFile none (some modelPath)
    (.rollouts modelPath cfg.dataFiles cfg.rolloutsFile cfg.nSamples cfg.temperature cfg.maxTokens
      (inv.effectiveTp cfg.tensorParallelSize) cfg.gpuMemoryUtilization inv.rlcr)

def stageBudgetEval : Prog World Stop Unit :=
  inv.runStage cfg.runName (.dataset i .budgetEval) cfg.budgetEvalFile
    (some (cfg.rolloutsFile, "rollouts first")) (some modelPath)
    (.budgetEval inv.rlcr cfg.rolloutsFile modelPath cfg.budgetEvalFile cfg.nForced cfg.budgets
      cfg.forcedMaxTokens (inv.effectiveTp cfg.tensorParallelSize) cfg.gpuMemoryUtilization
      (if inv.rlcr then none else some (cfg.codeForcedMaxTokens, cfg.gpqaAnswerFormat)))

def stageHidden : Prog World Stop Unit :=
  inv.runStage cfg.runName (.dataset i .hidden) cfg.hiddenStatesFile
    (some (cfg.budgetEvalFile, "budget_eval first")) (some modelPath)
    (.hidden cfg.budgetEvalFile modelPath cfg.hiddenStatesFile cfg.maxBatchQuota cfg.maxBatchSize)

def stageProbe : Prog World Stop Unit :=
  inv.runStage cfg.runName (.dataset i .probe) cfg.probeModel
    (some (cfg.hiddenStatesFile, "hidden states first")) none
    (.probe cfg.hiddenStatesFile cfg.probeModel cfg.splitMode cfg.valSplit cfg.epochs
      cfg.batchSize cfg.patience)

/-- The body of the loop over the datasets; `cfg.final_budget` is printed
first. -/
def evaluateDataset : Prog World Stop Unit := do
  Prog.require (cfg.budgets ≠ []) (.raised (.valueError "max() iterable argument is empty"))
  inv.stageRollouts modelPath i cfg
  inv.stageBudgetEval modelPath i cfg
  if inv.rlcr then pure ()
  else do
    inv.stageHidden modelPath i cfg
    if cfg.runName = inv.probeDataset then inv.stageProbe i cfg else pure ()

end Stages

/-! ### The table -/

/-- The files of a dataset the table is computed from; a dataset with a missing
file is left out. -/
def tableFiles (w : World) (cfg : DatasetConfig) : List OutputId :=
  if inv.rlcr then
    if (w.outputs cfg.budgetEvalFile).isSome then [cfg.budgetEvalFile, cfg.rolloutsFile] else []
  else
    let files := [cfg.budgetEvalFile, cfg.hiddenStatesFile, cfg.rolloutsFile]
    if files.all (fun id => (w.outputs id).isSome) then files else []

/-- `next((c for c in configs if c.run_name == args.probe_dataset), None)`. -/
def probeConfig : Option DatasetConfig :=
  inv.configs.find? (fun cfg => cfg.runName = inv.probeDataset)

/-- `probe_path`; none in mode `rlcr`. -/
def probeFiles : Prog World Stop (List OutputId) :=
  if inv.rlcr then pure []
  else match inv.probeConfig with
    | none => Prog.stop (.raised (.valueError ("boxed mode needs the probe dataset '" ++
        inv.probeDataset ++ "' in --config_dir/--datasets")))
    | some cfg => pure [cfg.probeModel]

/-- Stage 5: load the probe, then the files of every dataset. -/
def naturalEvalStage : Prog World Stop Unit := do
  let _ ← inv.outcome .naturalEval
  let w ← Prog.get
  let probeFiles ← inv.probeFiles
  Prog.require (probeFiles.all (fun id => (w.outputs id).isSome))
    (.raised (.fileNotFoundError "best_probe.pt"))
  Prog.modify (fun w => w.log
    ((probeFiles ++ inv.configs.flatMap (inv.tableFiles w)).flatMap
      (fun id => (w.writers id).map (Event.use .naturalEval))))

/-- `main`. -/
def evaluate : Prog World Stop Unit := do
  Prog.require (inv.configs ≠ [])
    (.raised (.fileNotFoundError ("No matching configs in " ++ "/".intercalate inv.configDir)))
  let modelPath ← inv.stageMerge
  Prog.forEach inv.configs.zipIdx (fun cfg => inv.evaluateDataset modelPath cfg.2 cfg.1)
  if inv.dryRun then pure () else inv.naturalEvalStage

end Invocation

/-- The disk after a sequence of invocations, from an empty one. -/
def worldAfter (invocations : List Invocation) : World :=
  invocations.foldl (fun w inv => (inv.evaluate w).2) World.fresh

end RLCM.Eval
