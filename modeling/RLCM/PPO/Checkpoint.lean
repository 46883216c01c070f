/-
# `RLCM.PPO.Checkpoint` — saving and loading a checkpoint

What `_save_checkpoint` of the trainer puts on disk, write by write, and what
`_load_checkpoint` reads back.  The actor is a directory with three files of every
rank, which the ranks write in place and all at once.  A save that is interrupted leaves
a prefix of its writes, of every rank its own; a file that was being written is torn, and
loading it raises.

Paths are absolute texts; `resolve` is the directory that the operating system
opens for one, so two texts may name the same directory.
-/
import Mathlib.Logic.Function.Basic
import RLCM.Py.Error
import RLCM.Py.Int

namespace RLCM.PPO

open Py

/-! ## The disk -/

/-- One call of `_save_checkpoint`; no two have the same number. -/
structure Save where
  number : ℕ
  step : ℤ
  probeEnabled : Bool
deriving DecidableEq

/-- A file of a checkpoint: cut short, or whole. -/
inductive Piece where
  | torn
  | whole (save : Save)
deriving DecidableEq

/-- What a rank saves of the actor, in this order. -/
inductive ActorPart where
  | model
  | optim
  | extra
deriving DecidableEq

/-- How many files of a rank are written before this one. -/
def ActorPart.place : ActorPart → ℕ
  | .model => 0
  | .optim => 1
  | .extra => 2

/-- `{part}_world_size_{worldSize}_rank_{rank}.pt` in the directory of the actor. -/
structure ActorFile where
  part : ActorPart
  worldSize : ℕ
  rank : ℕ
deriving DecidableEq

def rankFiles (worldSize rank : ℕ) : List ActorFile :=
  [⟨.model, worldSize, rank⟩, ⟨.optim, worldSize, rank⟩, ⟨.extra, worldSize, rank⟩]

/-- The files that so many ranks write, and load. -/
def actorFiles (worldSize : ℕ) : List ActorFile :=
  (List.range worldSize).flatMap (rankFiles worldSize)

/-- What a `global_step_N` directory holds. -/
structure StepFolder where
  actor : ActorFile → Option Piece := fun _ => none
  dataloader : Option Piece := none
  probe : Option Piece := none

/-- The directories with checkpoints, the text of the tracker file of each, and
the number of saves so far. -/
structure Disk (Dir : Type) where
  folders : Dir → Option StepFolder
  tracker : Dir → Option Str
  saves : ℕ

/-- Nothing saved yet. -/
def Disk.empty {Dir : Type} : Disk Dir := ⟨fun _ => none, fun _ => none, 0⟩

/-- One change of the disk. -/
inductive Write (Dir : Type) where
  | mkdir (folder : Dir)
  | actor (folder : Dir) (file : ActorFile) (piece : Piece)
  | removeActor (folder : Dir)
  | dataloader (folder : Dir) (piece : Piece)
  | probe (folder : Dir) (piece : Piece)
  | tracker (dir : Dir) (text : Str)

section Disk

variable {Dir : Type} [DecidableEq Dir]

/-- Change what a directory is. -/
def Disk.setFolder (d : Disk Dir) (folder : Dir) (content : Option StepFolder) : Disk Dir :=
  { d with folders := fun dir => if dir = folder then content else d.folders dir }

@[simp] theorem Disk.folders_setFolder (d : Disk Dir) (folder : Dir)
    (content : Option StepFolder) (dir : Dir) :
    (d.setFolder folder content).folders dir = if dir = folder then content else d.folders dir :=
  rfl

/-- A directory, which is made if it is not there. -/
def Disk.made (d : Disk Dir) (folder : Dir) : StepFolder := (d.folders folder).getD {}

def Disk.write (d : Disk Dir) : Write Dir → Disk Dir
  | .mkdir folder => d.setFolder folder (some (d.made folder))
  | .actor folder file piece =>
      let f := d.made folder
      d.setFolder folder (some { f with actor := Function.update f.actor file (some piece) })
  | .removeActor folder =>
      d.setFolder folder ((d.folders folder).map (fun f => { f with actor := fun _ => none }))
  | .dataloader folder piece =>
      d.setFolder folder (some { d.made folder with dataloader := some piece })
  | .probe folder piece => d.setFolder folder (some { d.made folder with probe := some piece })
  | .tracker dir text =>
      { d with tracker := fun dir' => if dir' = dir then some text else d.tracker dir' }

def Disk.writeAll (d : Disk Dir) (writes : List (Write Dir)) : Disk Dir := writes.foldl Disk.write d

theorem Disk.writeAll_append (d : Disk Dir) (writes writes' : List (Write Dir)) :
    d.writeAll (writes ++ writes') = (d.writeAll writes).writeAll writes' :=
  List.foldl_append

theorem Disk.writeAll_cons (d : Disk Dir) (w : Write Dir) (writes : List (Write Dir)) :
    d.writeAll (w :: writes) = (d.write w).writeAll writes := rfl

theorem Disk.saves_writeAll (d : Disk Dir) (writes : List (Write Dir)) :
    (d.writeAll writes).saves = d.saves := by
  induction writes generalizing d with
  | nil => rfl
  | cons w writes ih =>
      rw [Disk.writeAll_cons, ih]
      cases w with
      | mkdir folder => rfl
      | actor folder file piece => rfl
      | removeActor folder => rfl
      | dataloader folder piece => rfl
      | probe folder piece => rfl
      | tracker dir text => rfl

omit [DecidableEq Dir] in
theorem Disk.made_of_some {d : Disk Dir} {dir : Dir} {f : StepFolder}
    (h : d.folders dir = some f) : d.made dir = f := by
  rw [Disk.made, h, Option.getD_some]

/-- What a write makes of the content of a directory. -/
def Write.change (dir : Dir) (f : StepFolder) : Write Dir → StepFolder
  | .mkdir _ => f
  | .actor folder file piece =>
      if dir = folder then { f with actor := Function.update f.actor file (some piece) } else f
  | .removeActor folder => if dir = folder then { f with actor := fun _ => none } else f
  | .dataloader folder piece => if dir = folder then { f with dataloader := some piece } else f
  | .probe folder piece => if dir = folder then { f with probe := some piece } else f
  | .tracker _ _ => f

theorem Disk.made_setFolder (d : Disk Dir) (folder : Dir) (f : StepFolder) (dir : Dir) :
    (d.setFolder folder (some f)).made dir = if dir = folder then f else d.made dir := by
  rw [Disk.made, Disk.folders_setFolder]
  split
  case isTrue => rfl
  case isFalse => rfl

theorem Disk.made_write (d : Disk Dir) (w : Write Dir) (dir : Dir) :
    (d.write w).made dir = w.change dir (d.made dir) := by
  have hmade : ∀ (folder : Dir) (change : StepFolder → StepFolder),
      (d.setFolder folder (some (change (d.made folder)))).made dir =
        if dir = folder then change (d.made dir) else d.made dir := by
    intro folder change
    rw [Disk.made_setFolder]
    by_cases hdir : dir = folder
    · rw [hdir]
    · rw [if_neg hdir, if_neg hdir]
  cases w with
  | mkdir folder => exact (hmade folder id).trans (ite_self _)
  | actor folder file piece =>
      exact hmade folder (fun f => { f with actor := Function.update f.actor file (some piece) })
  | removeActor folder =>
      have hsame : ((d.folders folder).map (fun f => { f with actor := fun _ => none })).getD {} =
          { d.made folder with actor := fun _ => none } := by
        unfold Disk.made
        cases d.folders folder with
        | none => rfl
        | some f => rfl
      show ((d.setFolder folder _).folders dir).getD {} = _
      rw [Disk.folders_setFolder, Write.change]
      by_cases hdir : dir = folder
      · rw [if_pos hdir, if_pos hdir, hsame, hdir]
      · rw [if_neg hdir, if_neg hdir, Disk.made]
  | dataloader folder piece => exact hmade folder (fun f => { f with dataloader := some piece })
  | probe folder piece => exact hmade folder (fun f => { f with probe := some piece })
  | tracker dir' text => rfl

theorem Disk.made_writeAll (d : Disk Dir) (writes : List (Write Dir)) (dir : Dir) :
    (d.writeAll writes).made dir = writes.foldl (Write.change dir) (d.made dir) := by
  induction writes generalizing d with
  | nil => rfl
  | cons w writes ih => rw [Disk.writeAll_cons, ih, Disk.made_write, List.foldl_cons]

theorem Disk.made_writeAll_of_keeps {P : StepFolder → Prop} {dir : Dir} {writes : List (Write Dir)}
    (hw : ∀ w ∈ writes, ∀ f, P f → P (w.change dir f)) {d : Disk Dir} (hd : P (d.made dir)) :
    P ((d.writeAll writes).made dir) := by
  induction writes generalizing d with
  | nil => exact hd
  | cons w writes ih =>
      refine ih (fun w' hw' => hw w' (List.mem_cons_of_mem _ hw')) ?_
      rw [Disk.made_write]
      exact hw w List.mem_cons_self _ hd

end Disk

/-! ## Paths -/

/-- `os.path.join(a, b)` of a relative `b`. -/
def pathJoin (a b : Str) : Str :=
  if a = [] ∨ a.getLast? = some '/' then a ++ b else a ++ '/' :: b

/-- The text between a directory and the step. -/
def globalStepTag : Str := "global_step_".toList

def globalStepFolder (dir : Str) (step : ℤ) : Str := pathJoin dir (globalStepTag ++ strOfInt step)

/-- `folder.split("global_step_")[-1]`. -/
def stepText (folder : Str) : Str :=
  match Str.rfind globalStepTag folder with
  | some i => folder.drop (i + globalStepTag.length)
  | none => folder

/-! ## Configuration -/

/-- `trainer.resume_mode`. -/
inductive ResumeMode where
  | auto
  | resumePath
  | disable
deriving DecidableEq

/-- What saving and loading read of the configuration. -/
structure TrainerConfig where
  defaultLocalDir : Str
  resumeMode : ResumeMode := .auto
  resumeFromPath : Option Str := none
  maxActorCkptToKeep : Option ℕ := none
  asyncSave : Bool := false
  worldSize : ℕ := 1
  worldSize_pos : 0 < worldSize := by exact Nat.one_pos

/-! ## `_save_checkpoint` -/

/-- `ensure_checkpoint_capacity`: how many of the saved checkpoints go before a save. -/
def capacityExcess (maxToKeep : Option ℕ) (previous : List Str) : ℕ :=
  match maxToKeep with
  | some n => if 1 < n ∧ n ≤ previous.length then previous.length - n + 1 else 0
  | none => 0

/-- `register_checkpoint`: how many go after it. -/
def registerExcess (maxToKeep : Option ℕ) (previous : List Str) : ℕ :=
  match maxToKeep with
  | some n => if 0 < n ∧ n < previous.length then previous.length - n else 0
  | none => 0

section Save

variable {Dir : Type} (resolve : Str → Dir) (cfg : TrainerConfig)

/-- The removal of the actors of some checkpoints. -/
def removeActors (folders : List Str) : List (Write Dir) :=
  folders.map (fun folder => .removeActor (resolve folder))

def writesBeforeActor (previous : List Str) (save : Save) : List (Write Dir) :=
  removeActors resolve (previous.take (capacityExcess cfg.maxActorCkptToKeep previous)) ++
    [.mkdir (resolve (globalStepFolder cfg.defaultLocalDir save.step))]

def fileWrites (folder : Dir) (save : Save) (file : ActorFile) : List (Write Dir) :=
  [.actor folder file .torn, .actor folder file (.whole save)]

def rankWrites (folder : Dir) (worldSize : ℕ) (save : Save) (written : ℕ → ℕ) (rank : ℕ) :
    List (Write Dir) :=
  ((rankFiles worldSize rank).flatMap (fileWrites folder save)).take (written rank)

/-- The writes of the actor, when every rank has come so far.  No two ranks write one file, so
the order in which they take turns leaves no trace. -/
def actorWrites (save : Save) (written : ℕ → ℕ) : List (Write Dir) :=
  let folder := resolve (globalStepFolder cfg.defaultLocalDir save.step)
  (List.range cfg.worldSize).flatMap (rankWrites folder cfg.worldSize save written)

/-- Every rank has written its three files. -/
def allWritten : ℕ → ℕ := fun _ => 6

/-- The saved checkpoints that this process still keeps, the new one among them,
before the register drops some. -/
def registered (previous : List Str) (save : Save) : List Str :=
  previous.drop (capacityExcess cfg.maxActorCkptToKeep previous) ++
    [globalStepFolder cfg.defaultLocalDir save.step]

def keptAfter (previous : List Str) (save : Save) : List Str :=
  let previous := registered cfg previous save
  previous.drop (registerExcess cfg.maxActorCkptToKeep previous)

/-- The writes of the base `_save_checkpoint` after the actor. -/
def writesAfterActor (previous : List Str) (save : Save) : List (Write Dir) :=
  let folder := resolve (globalStepFolder cfg.defaultLocalDir save.step)
  let previous := registered cfg previous save
  removeActors resolve (previous.take (registerExcess cfg.maxActorCkptToKeep previous)) ++
    [.dataloader folder .torn, .dataloader folder (.whole save)] ++
    -- the tracker is opened for writing, which empties it, and then written
    if cfg.asyncSave then [] else
      [.tracker (resolve cfg.defaultLocalDir) [],
        .tracker (resolve cfg.defaultLocalDir) (strOfInt save.step)]

end Save

/-! ## The files of the actor -/

theorem mem_actorFiles {worldSize : ℕ} {file : ActorFile} :
    file ∈ actorFiles worldSize ↔ file.worldSize = worldSize ∧ file.rank < worldSize := by
  obtain ⟨part, size, rank⟩ := file
  simp only [actorFiles, rankFiles, List.mem_flatMap, List.mem_range, List.mem_cons,
    ActorFile.mk.injEq, List.not_mem_nil, or_false]
  constructor
  · rintro ⟨r, hr, ⟨-, rfl, rfl⟩ | ⟨-, rfl, rfl⟩ | ⟨-, rfl, rfl⟩⟩
    · exact ⟨rfl, hr⟩
    · exact ⟨rfl, hr⟩
    · exact ⟨rfl, hr⟩
  · rintro ⟨rfl, hr⟩
    refine ⟨rank, hr, ?_⟩
    cases part with
    | model => exact Or.inl ⟨rfl, rfl, rfl⟩
    | optim => exact Or.inr (Or.inl ⟨rfl, rfl, rfl⟩)
    | extra => exact Or.inr (Or.inr ⟨rfl, rfl, rfl⟩)

/-- How many of the two writes of a file its rank has come to, two or more being both. -/
def ActorFile.writesDone (file : ActorFile) (written : ℕ → ℕ) : ℕ :=
  written file.rank - 2 * file.part.place

/-- A file after so many of its writes. -/
def cutPiece (save : Save) (old : Option Piece) : ℕ → Option Piece
  | 0 => old
  | 1 => some .torn
  | _ + 2 => some (.whole save)

/-- A folder, when every rank of a save has come so far. -/
def StepFolder.cutActor (f : StepFolder) (worldSize : ℕ) (save : Save) (written : ℕ → ℕ) :
    StepFolder :=
  { f with actor := fun file =>
      if file ∈ actorFiles worldSize then
        cutPiece save (f.actor file) (file.writesDone written) else f.actor file }

section Actor

variable {Dir : Type} [DecidableEq Dir] (resolve : Str → Dir) (cfg : TrainerConfig)

theorem change_fileWrites (dir : Dir) (save : Save) (file : ActorFile) (f : StepFolder) (k : ℕ) :
    ((fileWrites dir save file).take k).foldl (Write.change dir) f =
      { f with actor := Function.update f.actor file (cutPiece save (f.actor file) k) } := by
  rcases k with _ | _ | k
  · show f = _
    rw [cutPiece, Function.update_eq_self]
  · show Write.change dir f (.actor dir file .torn) = _
    rw [Write.change, if_pos rfl, cutPiece]
  · rw [List.take_of_length_le (Nat.le_add_left 2 k)]
    show Write.change dir (Write.change dir f (.actor dir file .torn))
      (.actor dir file (.whole save)) = _
    rw [Write.change, Write.change, if_pos rfl, if_pos rfl, cutPiece, Function.update_idem]

theorem change_rankWrites (dir : Dir) (worldSize : ℕ) (save : Save) (written : ℕ → ℕ) (rank : ℕ)
    (f : StepFolder) :
    (rankWrites dir worldSize save written rank).foldl (Write.change dir) f =
      { f with actor := fun file =>
          if file.worldSize = worldSize ∧ file.rank = rank then
            cutPiece save (f.actor file) (file.writesDone written) else f.actor file } := by
  have hlength : ∀ file, (fileWrites dir save file).length = 2 := fun _ => rfl
  simp only [rankWrites, rankFiles, List.flatMap_cons, List.flatMap_nil, List.append_nil,
    List.take_append, hlength, List.foldl_append, change_fileWrites, Nat.sub_sub]
  congr 1
  funext file
  obtain ⟨part, size, r⟩ := file
  simp only [Function.update_apply, ActorFile.mk.injEq, ActorFile.writesDone]
  by_cases hown : size = worldSize ∧ r = rank
  · obtain ⟨rfl, rfl⟩ := hown
    cases part with
    | model => simp [ActorPart.place]
    | optim => simp [ActorPart.place]
    | extra => simp [ActorPart.place]
  · simp only [hown, and_false, if_false]

theorem change_ranks (dir : Dir) (worldSize : ℕ) (save : Save) (written : ℕ → ℕ) (m : ℕ)
    (f : StepFolder) :
    ((List.range m).flatMap (rankWrites dir worldSize save written)).foldl (Write.change dir) f =
      { f with actor := fun file =>
          if file.worldSize = worldSize ∧ file.rank < m then
            cutPiece save (f.actor file) (file.writesDone written) else f.actor file } := by
  induction m with
  | zero => simp
  | succ m ih =>
      rw [List.range_succ, List.flatMap_append, List.foldl_append, ih, List.flatMap_singleton,
        change_rankWrites]
      congr 1
      funext file
      by_cases hsize : file.worldSize = worldSize
      · obtain hlt | heq | hgt := Nat.lt_trichotomy file.rank m
        · simp [hsize, hlt, Nat.lt_succ_of_lt hlt, Nat.ne_of_lt hlt]
        · simp [hsize, heq]
        · have hnot : ¬ file.rank < m + 1 := Nat.not_lt_of_ge hgt
          simp [hsize, Nat.ne_of_gt hgt, Nat.not_lt_of_gt hgt, hnot]
      · simp [hsize]

theorem change_others {dir : Dir} {f : StepFolder} {writes : List (Write Dir)}
    (h : ∀ w ∈ writes, w.change dir f = f) : writes.foldl (Write.change dir) f = f := by
  induction writes with
  | nil => rfl
  | cons w writes ih =>
      rw [List.foldl_cons, h w List.mem_cons_self]
      exact ih (fun w' hw' => h w' (List.mem_cons_of_mem _ hw'))

omit [DecidableEq Dir] in
theorem mem_actorWrites {save : Save} {written : ℕ → ℕ} {w : Write Dir}
    (hw : w ∈ actorWrites resolve cfg save written) :
    ∃ file piece, w = .actor (resolve (globalStepFolder cfg.defaultLocalDir save.step)) file
      piece := by
  obtain ⟨rank, -, hw⟩ := List.mem_flatMap.mp hw
  obtain ⟨file, -, hw⟩ := List.mem_flatMap.mp (List.mem_of_mem_take hw)
  rcases List.mem_cons.mp hw with rfl | hw
  · exact ⟨file, _, rfl⟩
  · obtain rfl := List.mem_singleton.mp hw
    exact ⟨file, _, rfl⟩

/-- What the ranks make of the folder, so far, and of no other. -/
theorem made_actorWrites (d : Disk Dir) (save : Save) (written : ℕ → ℕ) (dir : Dir) :
    (d.writeAll (actorWrites resolve cfg save written)).made dir =
      if dir = resolve (globalStepFolder cfg.defaultLocalDir save.step) then
        (d.made dir).cutActor cfg.worldSize save written else d.made dir := by
  rw [Disk.made_writeAll]
  split
  case isTrue hdir =>
    rw [actorWrites, ← hdir, change_ranks, StepFolder.cutActor]
    simp only [mem_actorFiles]
  case isFalse hdir =>
    refine change_others (fun w hw => ?_)
    obtain ⟨file, piece, rfl⟩ := mem_actorWrites resolve cfg hw
    exact if_neg hdir

end Actor

/-! ## `_load_checkpoint` -/

section Load

variable {Dir : Type} (resolve : Str → Dir) (cfg : TrainerConfig)

def findLatestCkptPath (d : Disk Dir) (path : Str) : Except Error (Option Str) :=
  match d.tracker (resolve path) with
  | none => .ok none
  | some text =>
      match intOfStr text with
      | none => .error (.valueError "invalid literal for int()")
      | some iteration =>
          let ckptPath := globalStepFolder path iteration
          .ok (if (d.folders (resolve ckptPath)).isSome then some ckptPath else none)

/-- The folder to load from, if there is one. -/
def resumeFolder (d : Disk Dir) : Except Error (Option Str) := do
  match cfg.resumeMode with
  | .disable => pure none
  | .auto => findLatestCkptPath resolve d cfg.defaultLocalDir
  | .resumePath =>
      -- the tracker is read, and must be readable, in this mode too
      let _ ← findLatestCkptPath resolve d cfg.defaultLocalDir
      match cfg.resumeFromPath with
      | none => .error .assertionError
      | some path =>
          if Str.find globalStepTag path = none then .error .assertionError else pure (some path)

def readFile (folder : Option StepFolder) (file : ActorFile) : Except Error Save :=
  match folder.bind (fun f => f.actor file) with
  | some (.whole save) => .ok save
  | some .torn => .error (.runtimeError "could not load the actor")
  | none => .error (.fileNotFoundError "no actor")

/-- The step of a folder, and the policy in it: every rank loads its files. -/
def readFolder (d : Disk Dir) (folder : Str) : Except Error (ℤ × List Save) := do
  match intOfStr (stepText folder) with
  | none => .error (.valueError "invalid literal for int()")
  | some step =>
      let policy ← (actorFiles cfg.worldSize).mapM (readFile (d.folders (resolve folder)))
      pure (step, policy)

/-- The state of the dataloader is loaded if it is there. -/
def readDataloader (d : Disk Dir) (folder : Str) : Except Error Unit :=
  if (d.folders (resolve folder)).bind StepFolder.dataloader = some .torn then
    .error (.runtimeError "could not load the dataloader")
  else .ok ()

/-- `_load_checkpoint`: the step to go on from, and the saves that the files of the
policy are from, if one was restored. -/
def loadCheckpoint (d : Disk Dir) : Except Error (ℤ × Option (List Save)) := do
  match ← resumeFolder resolve cfg d with
  | none => pure (0, none)
  | some folder =>
      let (step, policy) ← readFolder resolve cfg d folder
      readDataloader resolve d folder
      pure (step, some policy)

end Load

/-! ## What loading reads -/

section Read

variable {Dir : Type} (resolve : Str → Dir)

theorem pathJoin_eq (a b : Str) : ∃ p, pathJoin a b = p ++ b := by
  unfold pathJoin
  split
  · exact ⟨a, rfl⟩
  · exact ⟨a ++ ['/'], by rw [List.append_assoc, List.singleton_append]⟩

theorem intOfStr_stepText (dir : Str) (step : ℤ) :
    intOfStr (stepText (globalStepFolder dir step)) = some step := by
  obtain ⟨p, hp⟩ := pathJoin_eq dir (globalStepTag ++ strOfInt step)
  have htag : globalStepTag = 'g' :: "lobal_step_".toList := rfl
  have hlast : 'g' ∉ "lobal_step_".toList ++ strOfInt step := by
    intro h
    rcases List.mem_append.mp h with h | h
    · exact absurd h (by decide)
    · rcases strOfInt_chars h with hdigit | hminus
      · cases hdigit
      · cases hminus
  have hfind : Str.rfind globalStepTag (globalStepFolder dir step) = some p.length := by
    rw [globalStepFolder, hp, htag, ← List.append_assoc]
    exact Str.rfind_append hlast p
  have htext : stepText (globalStepFolder dir step) = strOfInt step := by
    rw [stepText, hfind]
    dsimp only
    rw [globalStepFolder, hp, ← List.append_assoc, ← List.length_append, List.drop_left]
  rw [htext, intOfStr_strOfInt]

/-- The folder is one of the default directory, or the named one. -/
theorem resumeFolder_some {cfg : TrainerConfig} {d : Disk Dir} {folder : Str}
    (h : resumeFolder resolve cfg d = .ok (some folder)) :
    (∃ step, folder = globalStepFolder cfg.defaultLocalDir step) ∨
      (cfg.resumeMode = .resumePath ∧ cfg.resumeFromPath = some folder) := by
  unfold resumeFolder at h
  cases hmode : cfg.resumeMode with
  | disable =>
      rw [hmode] at h
      cases h
  | auto =>
      rw [hmode] at h
      dsimp only [findLatestCkptPath] at h
      split at h
      case h_1 => cases h
      case h_2 text htracker =>
        split at h
        case h_1 => cases h
        case h_2 iteration hiteration =>
          by_cases hthere : (d.folders (resolve
              (globalStepFolder cfg.defaultLocalDir iteration))).isSome = true
          · rw [if_pos hthere] at h
            cases h
            exact Or.inl ⟨iteration, rfl⟩
          · rw [if_neg hthere] at h
            cases h
  | resumePath =>
      rw [hmode] at h
      obtain ⟨_, -, h⟩ := bind_eq_ok.mp h
      cases hpath : cfg.resumeFromPath with
      | none =>
          rw [hpath] at h
          cases h
      | some path =>
          rw [hpath] at h
          dsimp only at h
          split at h
          case isTrue => cases h
          case isFalse =>
            cases h
            exact Or.inr ⟨rfl, rfl⟩

theorem readFile_eq_ok {d : Disk Dir} {dir : Dir} {file : ActorFile} {save : Save} :
    readFile (d.folders dir) file = .ok save ↔
      (d.made dir).actor file = some (.whole save) := by
  unfold readFile Disk.made
  cases d.folders dir with
  | none =>
      constructor
      · intro h
        cases h
      · intro h
        cases h
  | some f =>
      rw [Option.bind_some, Option.getD_some]
      cases f.actor file with
      | none =>
          constructor
          · intro h
            cases h
          · intro h
            cases h
      | some piece =>
          cases piece with
          | torn =>
              constructor
              · intro h
                cases h
              · intro h
                cases h
          | whole save' =>
              constructor
              · intro h
                obtain rfl := Except.ok.inj h
                rfl
              · intro h
                obtain rfl := Piece.whole.inj (Option.some.inj h)
                rfl

theorem loadCheckpoint_some {cfg : TrainerConfig} {d : Disk Dir} {step : ℤ} {policy : List Save}
    (h : loadCheckpoint resolve cfg d = .ok (step, some policy)) :
    ∃ folder, resumeFolder resolve cfg d = .ok (some folder) ∧
      intOfStr (stepText folder) = some step ∧
      (∀ file ∈ actorFiles cfg.worldSize, ∃ save ∈ policy,
        (d.made (resolve folder)).actor file = some (.whole save)) ∧
      ∀ save ∈ policy, ∃ file ∈ actorFiles cfg.worldSize,
        (d.made (resolve folder)).actor file = some (.whole save) := by
  unfold loadCheckpoint at h
  obtain ⟨found, hfound, h⟩ := bind_eq_ok.mp h
  cases found with
  | none => cases h
  | some folder =>
      obtain ⟨⟨step', policy'⟩, hread, h⟩ := bind_eq_ok.mp h
      obtain ⟨_, -, h⟩ := bind_eq_ok.mp h
      cases h
      unfold readFolder at hread
      split at hread
      case h_1 => cases hread
      case h_2 n hstep =>
        obtain ⟨saves, hsaves, hread⟩ := bind_eq_ok.mp hread
        cases hread
        obtain ⟨hfiles, hpolicy⟩ := mem_of_mapM hsaves
        simp only [readFile_eq_ok] at hfiles hpolicy
        exact ⟨folder, hfound, hstep, hfiles, hpolicy⟩

end Read

end RLCM.PPO
