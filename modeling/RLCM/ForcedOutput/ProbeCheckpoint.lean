/-
# `RLCM.ForcedOutput.ProbeCheckpoint` — the probe's part of a checkpoint

The trainer with a probe saves `probe.pt` after the base trainer is done, tracker
included, and loads it from the default directory whatever folder the policy came
from.  And it saves in place: into a folder that is there already, the ranks write their
files over the old ones.

`CarefulHistory` is what keeps policy and probe together (`Together`): no process with a
probe is killed between the whole actor and `probe.pt`, no kill leaves files of two saves
that make an actor, no probe replaces the one of an actor that stays behind for another
number of ranks, and every resumed folder is the one of the default directory.
-/
import RLCM.PPO.Checkpoint

namespace RLCM.ForcedOutput

open Py PPO

/-! ## Saving and loading -/

/-- Where a save is cut short: after so many of its writes before the actor, with so many
writes of every rank done, or after the actor and so many writes more. -/
inductive Interruption where
  | beforeActor (writes : ℕ)
  | inActor (written : ℕ → ℕ)
  | afterActor (writes : ℕ)

/-- One process: its configuration, and the steps it saves at; it ends with the
first save that is interrupted. -/
structure TrainingRun where
  cfg : PPO.TrainerConfig
  probeEnabled : Bool
  saves : List (ℤ × Option Interruption)

/-- How the probe of a process starts. -/
inductive ProbeStart where
  | noProbe
  | fresh
  | restored (save : Save)
deriving DecidableEq

/-- What a process goes on from; of the policy, the saves that its files are from. -/
structure Resumed where
  globalSteps : ℤ
  policy : Option (List Save)
  probe : ProbeStart
deriving DecidableEq

section Run

variable {Dir : Type} [DecidableEq Dir] (resolve : Str → Dir) (run : TrainingRun)

def stepDir (cfg : PPO.TrainerConfig) (step : ℤ) : Dir :=
  resolve (globalStepFolder cfg.defaultLocalDir step)

def probeWrites (save : Save) : List (Write Dir) :=
  let folder := stepDir resolve run.cfg save.step
  if run.probeEnabled then [.probe folder .torn, .probe folder (.whole save)] else []

def wholeActor (previous : List Str) (save : Save) : List (Write Dir) :=
  writesBeforeActor resolve run.cfg previous save ++
    actorWrites resolve run.cfg save allWritten

/-- The writes of `_save_checkpoint`, up to where it is interrupted. -/
def saveCheckpoint (previous : List Str) (save : Save) : Option Interruption → List (Write Dir)
  | some (.beforeActor n) => (writesBeforeActor resolve run.cfg previous save).take n
  | some (.inActor written) => writesBeforeActor resolve run.cfg previous save ++
      actorWrites resolve run.cfg save written
  | some (.afterActor n) => wholeActor resolve run previous save ++
      (writesAfterActor resolve run.cfg previous save ++ probeWrites resolve run save).take n
  | none => wholeActor resolve run previous save ++
      (writesAfterActor resolve run.cfg previous save ++ probeWrites resolve run save)

/-- The saves of a process, from the checkpoints it keeps so far. -/
def runSaves : List Str → List (ℤ × Option Interruption) → Disk Dir → Disk Dir
  | _, [], d => d
  | previous, (step, interruption) :: saves, d =>
      let save : Save := ⟨d.saves, step, run.probeEnabled⟩
      let d' := { d with saves := d.saves + 1 }.writeAll
        (saveCheckpoint resolve run previous save interruption)
      match interruption with
      | some _ => d'
      | none => runSaves (keptAfter run.cfg previous save) saves d'

/-- `_try_load_probe_checkpoint`, after the probe was initialised. -/
def tryLoadProbeCheckpoint (globalSteps : ℤ) (d : Disk Dir) : Except Error ProbeStart :=
  if run.probeEnabled then
    match (d.folders (stepDir resolve run.cfg globalSteps)).bind StepFolder.probe with
    | none => .ok .fresh
    | some .torn => .error (.runtimeError "could not load the probe")
    | some (.whole save) => .ok (.restored save)
  else .ok .noProbe

/-- The start of `fit`: the policy is loaded first, then the probe. -/
def resume (d : Disk Dir) : Except Error Resumed := do
  let (globalSteps, policy) ← loadCheckpoint resolve run.cfg d
  let probe ← tryLoadProbeCheckpoint resolve run globalSteps d
  pure ⟨globalSteps, policy, probe⟩

/-- A process: it ends at once when resuming raises. -/
def trainingRun (d : Disk Dir) : Except Error Resumed × Disk Dir :=
  match resume resolve run d with
  | .error e => (.error e, d)
  | .ok r => (.ok r, runSaves resolve run [] run.saves d)

/-- One process after another; what each of them resumed from. -/
def history : List TrainingRun → Disk Dir → List (Except Error Resumed)
  | [], _ => []
  | run :: runs, d => (trainingRun resolve run d).1 :: history runs (trainingRun resolve run d).2

end Run

/-- A policy with a file of a save with a probe is all of this save, and so is the probe. -/
def Together (r : Resumed) : Prop :=
  ∀ policy, r.policy = some policy → ∀ save ∈ policy, save.probeEnabled = true →
    r.probe = .noProbe ∨ (∀ save' ∈ policy, save' = save) ∧ r.probe = .restored save

/-! ## What a save must not do -/

/-- All files that so many ranks load are whole. -/
def ActorWhole (worldSize : ℕ) (f : StepFolder) : Prop :=
  ∀ file ∈ actorFiles worldSize, ∃ save, f.actor file = some (.whole save)

/-- None of these files is from a save with a probe. -/
def Unprobed (files : List ActorFile) (f : StepFolder) : Prop :=
  ∀ file ∈ files, ∀ save, f.actor file = some (.whole save) → save.probeEnabled = false

/-- A whole actor for another number of ranks is not from a save with a probe. -/
def OthersUnprobed (worldSize : ℕ) (f : StepFolder) : Prop :=
  ∀ worldSize' ≠ worldSize, ActorWhole worldSize' f → Unprobed (actorFiles worldSize') f

/-- Cut short with so many writes of every rank done, a save changes nothing, or leaves a file
that is not whole, or touches no save with a probe. -/
def CutApart (worldSize : ℕ) (probeEnabled : Bool) (written : ℕ → ℕ) (f : StepFolder) : Prop :=
  (∀ rank < worldSize, written rank = 0) ∨
    (∃ file ∈ actorFiles worldSize, file.writesDone written = 1 ∨
      file.writesDone written = 0 ∧ ∀ save, f.actor file ≠ some (.whole save)) ∨
    (probeEnabled = false ∧
      Unprobed ((actorFiles worldSize).filter (fun file => file.writesDone written = 0)) f)

section Apart

variable {Dir : Type} [DecidableEq Dir] (resolve : Str → Dir) (run : TrainingRun)

/-- The folder of a save when the ranks begin to write. -/
def folderBefore (previous : List Str) (save : Save) (d : Disk Dir) : StepFolder :=
  (d.writeAll (writesBeforeActor resolve run.cfg previous save)).made
    (stepDir resolve run.cfg save.step)

/-- What a save has to observe, by where it ends.  A process with a probe is not killed between
the whole actor and the opening of `probe.pt`. -/
def SaveApart (previous : List Str) (save : Save) (d : Disk Dir) : Option Interruption → Prop
  | some (.beforeActor _) => True
  | some (.inActor written) => CutApart run.cfg.worldSize run.probeEnabled written
      (folderBefore resolve run previous save d)
  | some (.afterActor n) => run.probeEnabled = true →
      (writesAfterActor resolve run.cfg previous save).length < n ∧
        ((writesAfterActor resolve run.cfg previous save).length + 1 < n →
          OthersUnprobed run.cfg.worldSize (folderBefore resolve run previous save d))
  | none => run.probeEnabled = true →
      OthersUnprobed run.cfg.worldSize (folderBefore resolve run previous save d)

def SavesApart : List Str → List (ℤ × Option Interruption) → Disk Dir → Prop
  | _, [], _ => True
  | previous, (step, interruption) :: saves, d =>
      let save : Save := ⟨d.saves, step, run.probeEnabled⟩
      let d := { d with saves := d.saves + 1 }
      SaveApart resolve run previous save d interruption ∧
        (interruption = none → SavesApart (keptAfter run.cfg previous save) saves
          (d.writeAll (saveCheckpoint resolve run previous save none)))

end Apart

/-- A folder that is resumed from by name is the one of that step in the default
directory. -/
def TrainingRun.ResumesInPlace {Dir : Type} (resolve : Str → Dir) (run : TrainingRun) : Prop :=
  run.probeEnabled = true → run.cfg.resumeMode = .resumePath →
    ∀ path step, run.cfg.resumeFromPath = some path → intOfStr (stepText path) = some step →
      resolve path = stepDir resolve run.cfg step

/-- Every process of a history resumes in place, and its saves keep policy and probe
together. -/
def CarefulHistory {Dir : Type} [DecidableEq Dir] (resolve : Str → Dir) :
    List TrainingRun → Disk Dir → Prop
  | [], _ => True
  | run :: runs, d => run.ResumesInPlace resolve ∧
      (∀ r, resume resolve run d = .ok r → SavesApart resolve run [] run.saves d) ∧
      CarefulHistory resolve runs (trainingRun resolve run d).2

end RLCM.ForcedOutput
