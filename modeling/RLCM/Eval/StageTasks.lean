/-
# `RLCM.Eval.StageTasks` — an evaluation as a pass over tasks

A stage of `evaluate.py` is a task in the sense of `RLCM.Lib.Rebuild`: it makes
one file from the model and one other file, and is skipped when its output is
non-empty, whatever that was made from.

`World.store` keeps of the disk what that library speaks about.  `runCall_step`
says that a stage that returns is a step, `evaluate_pass` that an invocation
that returns is a merge stage and then a pass over the stages of all datasets;
`worldAfter_numbered` says that the disk of any history numbers its attempts.
-/
import RLCM.Eval.EvaluateRuns
import RLCM.Lib.Rebuild

namespace RLCM.Eval

open Py Interrupt Rebuild

/-! ## The calls of an invocation -/

/-- A call of `runStage`. -/
structure StageCall where
  call : Call
  id : OutputId
  input : Option (OutputId × String)
  model : Option Path
  command : Command

namespace StageCall

variable (s : StageCall)

def reads (w : World) : List Attempt :=
  s.model.elim [] w.modelWriters ++ s.input.elim [] (fun file => w.writers file.1)

/-- The output was written in full, by the command of this call, from what is on
the disk; `key` is what of a command line is compared. -/
def Current {κ : Type} (key : Command → κ) (w : World) : Prop :=
  ∃ f ∈ w.outputs s.id, 0 < f.size ∧ f.attempt.finished = true ∧
    key f.attempt.command = key s.command ∧ f.attempt.inputs = (s.reads w).map Attempt.number

/-- What the stage reads is there. -/
def InputThere (w : World) : Prop := ∀ file ∈ s.input, w.nonempty file.1 = true

variable {s} in
theorem reads_congr {w v : World} (houtputs : v.outputs = w.outputs)
    (hmodel : ∀ p ∈ s.model, v.modelWriters p = w.modelWriters p) : s.reads v = s.reads w := by
  have hinput : s.input.elim [] (fun file => v.writers file.1) =
      s.input.elim [] (fun file => w.writers file.1) := by
    unfold World.writers
    rw [houtputs]
  unfold reads
  rw [hinput]
  cases hs : s.model with
  | none => rfl
  | some p => exact congrArg (· ++ _) (hmodel p hs)

variable {s} in
theorem Current.congr {κ : Type} {key : Command → κ} {w v : World} (h : s.Current key w)
    (houtputs : v.outputs = w.outputs)
    (hmodel : ∀ p ∈ s.model, v.modelWriters p = w.modelWriters p) : s.Current key v := by
  obtain ⟨f, hf, hsize, hfinished, hkey, hinputs⟩ := h
  refine ⟨f, ?_, hsize, hfinished, hkey, ?_⟩
  · rw [houtputs]
    exact hf
  · rw [reads_congr houtputs hmodel]
    exact hinputs

instance {κ : Type} [DecidableEq κ] (key : Command → κ) (w : World) :
    Decidable (s.Current key w) :=
  inferInstanceAs (Decidable (∃ f ∈ w.outputs s.id, _))

instance (w : World) : Decidable (s.InputThere w) :=
  inferInstanceAs (Decidable (∀ file ∈ s.input, w.nonempty file.1 = true))

end StageCall

namespace Invocation

variable (inv : Invocation)

/-- The path `stage_merge` returns. -/
def modelPath (w : World) : Path :=
  if inv.checkpoint.configJson || (w.merges inv.ckpt).configJson.isSome then inv.ckpt
  else inv.ckpt ++ ["merge"]

section Calls

variable (modelPath : Path) (i : ℕ) (cfg : DatasetConfig)

def rolloutsCall : StageCall where
  call := .dataset i .rollouts
  id := cfg.rolloutsFile
  input := none
  model := some modelPath
  command := .rollouts modelPath cfg.dataFiles cfg.rolloutsFile cfg.nSamples cfg.temperature
    cfg.maxTokens (inv.effectiveTp cfg.tensorParallelSize) cfg.gpuMemoryUtilization inv.rlcr

def budgetEvalCall : StageCall where
  call := .dataset i .budgetEval
  id := cfg.budgetEvalFile
  input := some (cfg.rolloutsFile, "rollouts first")
  model := some modelPath
  command := .budgetEval inv.rlcr cfg.rolloutsFile modelPath cfg.budgetEvalFile cfg.nForced
    cfg.budgets cfg.forcedMaxTokens (inv.effectiveTp cfg.tensorParallelSize)
    cfg.gpuMemoryUtilization
    (if inv.rlcr then none else some (cfg.codeForcedMaxTokens, cfg.gpqaAnswerFormat))

def hiddenCall : StageCall where
  call := .dataset i .hidden
  id := cfg.hiddenStatesFile
  input := some (cfg.budgetEvalFile, "budget_eval first")
  model := some modelPath
  command := .hidden cfg.budgetEvalFile modelPath cfg.hiddenStatesFile cfg.maxBatchQuota
    cfg.maxBatchSize

def probeCall : StageCall where
  call := .dataset i .probe
  id := cfg.probeModel
  input := some (cfg.hiddenStatesFile, "hidden states first")
  model := none
  command := .probe cfg.hiddenStatesFile cfg.probeModel cfg.splitMode cfg.valSplit cfg.epochs
    cfg.batchSize cfg.patience

def stageCalls : List StageCall :=
  inv.rolloutsCall modelPath i cfg :: inv.budgetEvalCall modelPath i cfg ::
    if inv.rlcr then []
    else hiddenCall modelPath i cfg ::
      if cfg.runName = inv.probeDataset then [probeCall i cfg] else []

end Calls

def allCalls (modelPath : Path) : List StageCall :=
  inv.configs.zipIdx.flatMap (fun c => inv.stageCalls modelPath c.2 c.1)

/-! ## The driver as a list of calls -/

def runCall (cfg : DatasetConfig) (s : StageCall) : Prog World Stop Unit :=
  inv.runStage cfg.runName s.call s.id s.input s.model s.command

theorem evaluateDataset_eq (modelPath : Path) (i : ℕ) (cfg : DatasetConfig) :
    inv.evaluateDataset modelPath i cfg =
      (do Prog.require (cfg.budgets ≠ []) (.raised (.valueError "max() iterable argument is empty"))
          Prog.forEach (inv.stageCalls modelPath i cfg) (inv.runCall cfg)) := by
  have hrollouts : inv.stageRollouts modelPath i cfg =
      inv.runCall cfg (inv.rolloutsCall modelPath i cfg) := rfl
  have hbudgetEval : inv.stageBudgetEval modelPath i cfg =
      inv.runCall cfg (inv.budgetEvalCall modelPath i cfg) := rfl
  have hhidden : inv.stageHidden modelPath i cfg =
      inv.runCall cfg (hiddenCall modelPath i cfg) := rfl
  have hprobe : inv.stageProbe i cfg = inv.runCall cfg (probeCall i cfg) := rfl
  unfold evaluateDataset stageCalls
  rw [hrollouts, hbudgetEval, hhidden, hprobe]
  by_cases hrlcr : inv.rlcr = true
  · simp [hrlcr]
  · by_cases hlead : cfg.runName = inv.probeDataset
    · simp [hrlcr, hlead]
    · simp [hrlcr, hlead]

end Invocation

/-! ## Numbers

The attempts that wrote what is on the disk, and those they read, took place;
a merge directory was written by a merge of the actor beside it. -/

namespace World

/-- The numbers on the disk are of attempts that were made. -/
structure Numbered (w : World) : Prop where
  outputs : ∀ id, ∀ f ∈ w.outputs id, f.attempt.number < w.attempts ∧
    ∀ n ∈ f.attempt.inputs, n < w.attempts
  merges : ∀ p, ∀ a ∈ (w.merges p).attempt, a.number < w.attempts ∧
    a.command = .merge (p.dropLast ++ ["actor"]) p

variable {w : World}

theorem numbered_fresh : Numbered fresh :=
  ⟨fun _ _ hf => (nomatch hf), fun _ _ ha => (nomatch ha)⟩

theorem Numbered.writers (h : w.Numbered) (id : OutputId) :
    ∀ a ∈ w.writers id, a.number < w.attempts := by
  intro a ha
  obtain ⟨f, hf, rfl⟩ := List.mem_map.mp ha
  exact (h.outputs id f (Option.mem_toList.mp hf)).1

theorem Numbered.modelWriters (h : w.Numbered) (p : Path) :
    ∀ a ∈ w.modelWriters p, a.number < w.attempts := by
  intro a ha
  exact (h.merges p a (Option.mem_toList.mp ha)).1

/-- A script ran: its attempt has the next number and read what is there. -/
theorem Numbered.setOutput (h : w.Numbered) (id : OutputId) (outcome : Outcome) (command : Command)
    {reads : List Attempt} (hreads : ∀ a ∈ reads, a.number < w.attempts) (events : List Event) :
    ((w.countAttempt.log events).setOutput id (outcome.file (w.outputs id)
      ⟨w.attempts, command, reads.map Attempt.number, outcome.finishes⟩)).Numbered := by
  have hold : ∀ id, ∀ f ∈ w.outputs id, f.attempt.number < w.attempts + 1 ∧
      ∀ n ∈ f.attempt.inputs, n < w.attempts + 1 := by
    intro id f hf
    obtain ⟨hnumber, hinputs⟩ := h.outputs id f hf
    exact ⟨Nat.lt_succ_of_lt hnumber, fun n hn => Nat.lt_succ_of_lt (hinputs n hn)⟩
  have hnew : ∀ n ∈ reads.map Attempt.number, n < w.attempts + 1 := by
    intro n hn
    obtain ⟨a, ha, rfl⟩ := List.mem_map.mp hn
    exact Nat.lt_succ_of_lt (hreads a ha)
  refine ⟨fun id' f hf => ?_, fun p a ha => ?_⟩
  · by_cases hEq : id' = id
    · subst hEq
      rw [setOutput_outputs_self] at hf
      -- the old file, or one with the new attempt
      rcases outcome with size | size | (_ | _ | _ | lastByte)
      case killed.untouched => exact hold id' f hf
      case killed.absent => cases hf
      all_goals
        obtain rfl := Option.some.inj hf
        exact ⟨Nat.lt_succ_self _, hnew⟩
    · rw [setOutput_outputs_of_ne _ _ _ _ hEq] at hf
      exact hold id' f hf
  · obtain ⟨hnumber, hcommand⟩ := h.merges p a ha
    exact ⟨Nat.lt_succ_of_lt hnumber, hcommand⟩

theorem Numbered.setMerge (h : w.Numbered) (ckpt : Path) (outcome : Outcome) (events : List Event) :
    ((w.countAttempt.log events).setMerge (ckpt ++ ["merge"])
      (outcome.mergeDir (w.merges (ckpt ++ ["merge"]))
        ⟨w.attempts, .merge (ckpt ++ ["actor"]) (ckpt ++ ["merge"]), [],
          outcome.finishes⟩)).Numbered := by
  have hold : ∀ p, ∀ a ∈ (w.merges p).attempt, a.number < w.attempts + 1 ∧
      a.command = .merge (p.dropLast ++ ["actor"]) p := by
    intro p a ha
    obtain ⟨hnumber, hcommand⟩ := h.merges p a ha
    exact ⟨Nat.lt_succ_of_lt hnumber, hcommand⟩
  refine ⟨fun id f hf => ?_, fun p a ha => ?_⟩
  · obtain ⟨hnumber, hinputs⟩ := h.outputs id f hf
    exact ⟨Nat.lt_succ_of_lt hnumber, fun n hn => Nat.lt_succ_of_lt (hinputs n hn)⟩
  · by_cases hEq : p = ckpt ++ ["merge"]
    · subst hEq
      rcases outcome with size | size | (_ | _ | _ | lastByte)
      case killed.untouched =>
        refine hold _ a ?_
        simpa [World.setMerge, Outcome.mergeDir] using ha
      all_goals
        simp only [World.setMerge, Outcome.mergeDir, if_true, Option.mem_def,
          Option.some.injEq] at ha
        subst ha
        refine ⟨Nat.lt_succ_self _, ?_⟩
        rw [List.dropLast_concat]
    · refine hold p a ?_
      simpa [World.setMerge, World.log, World.countAttempt, hEq] using ha

end World

namespace Invocation

variable (inv : Invocation)

theorem outcome_numbered (call : Call) : Keeps World.Numbered (inv.outcome call) := by
  unfold outcome
  split
  case h_1 => exact Keeps.stop
  case h_2 => exact Keeps.pure'

theorem stageMerge_numbered : Keeps World.Numbered inv.stageMerge := by
  have hlog : ∀ (reused : Path),
      Keeps World.Numbered (do
        Prog.modify (fun w => w.log ((w.modelWriters reused).map (Event.skip .merge)))
        pure reused : Prog World Stop Path) :=
    fun _ => Keeps.bind (Keeps.modify fun _ hw => ⟨hw.outputs, hw.merges⟩) fun _ => Keeps.pure'
  refine (inv.outcome_numbered .merge).bind fun outcome => Keeps.get.bind fun w => ?_
  refine Keeps.ite (hlog _) (Keeps.ite (hlog _) ?_)
  refine Keeps.require.bind fun _ => Keeps.bind ?_ fun _ => Keeps.pure'
  refine Keeps.ite Keeps.pure' ?_
  exact (Keeps.modify fun w hw => hw.setMerge inv.ckpt outcome _).bind fun _ => Keeps.require

theorem runStage_numbered (runName : String) (call : Call) (id : OutputId)
    (input : Option (OutputId × String)) (model : Option Path) (command : Command) :
    Keeps World.Numbered (inv.runStage runName call id input model command) := by
  have hmarker : Keeps World.Numbered (Prog.modify (World.setMarker · id) : Prog World Stop Unit) :=
    Keeps.modify fun _ hw => ⟨hw.outputs, hw.merges⟩
  have hdone : Keeps World.Numbered (isDone id) :=
    Keeps.get.bind fun _ => Keeps.ite Keeps.pure'
      (Keeps.ite (hmarker.bind fun _ => Keeps.pure') Keeps.pure')
  refine (inv.outcome_numbered call).bind fun outcome => Keeps.get.bind fun _ => ?_
  refine Keeps.require.bind fun _ => hdone.bind fun _ => ?_
  refine Keeps.ite (Keeps.modify fun _ hw => ⟨hw.outputs, hw.merges⟩) ?_
  refine Keeps.bind (Keeps.ite Keeps.pure' ?_)
    fun _ => Keeps.get.bind fun _ => Keeps.require.bind fun _ => hmarker
  refine (Keeps.modify fun w hw => hw.setOutput id outcome command ?_ _).bind
    fun _ => Keeps.require
  intro a ha
  rcases List.mem_append.mp ha with ha | ha
  · cases model with
    | none => cases ha
    | some p => exact hw.modelWriters p a ha
  · cases input with
    | none => cases ha
    | some file => exact hw.writers file.1 a ha

/-- An invocation, whenever it is killed, leaves a disk that numbers its
attempts. -/
theorem evaluate_numbered : Keeps World.Numbered inv.evaluate := by
  refine Keeps.require.bind fun _ => inv.stageMerge_numbered.bind fun modelPath => ?_
  refine Keeps.bind (Keeps.forEach fun c => ?_) fun _ => Keeps.ite Keeps.pure' ?_
  · rw [evaluateDataset_eq]
    exact Keeps.require.bind fun _ => Keeps.forEach fun s => inv.runStage_numbered _ _ _ _ _ _
  · refine (inv.outcome_numbered .naturalEval).bind fun _ => Keeps.get.bind fun w => ?_
    refine Keeps.bind ?_ fun _ => Keeps.require.bind fun _ =>
      Keeps.modify fun _ hw => ⟨hw.outputs, hw.merges⟩
    refine Keeps.ite Keeps.pure' ?_
    cases inv.probeConfig with
    | none => exact Keeps.stop
    | some cfg => exact Keeps.pure'

end Invocation

theorem worldAfter_numbered (history : List Invocation) : (worldAfter history).Numbered := by
  have hfold : ∀ w : World, w.Numbered →
      (history.foldl (fun w inv => (inv.evaluate w).2) w).Numbered := by
    induction history with
    | nil => exact fun _ hw => hw
    | cons inv rest ih => exact fun w hw => ih _ (inv.evaluate_numbered.final hw)
  exact hfold World.fresh World.numbered_fresh

/-! ## The stages as tasks -/

section Tasks

variable {κ : Type} (key : Command → κ)

/-- The non-empty outputs with the attempts that wrote them.  An attempt that
did not run to its end counts as a recipe of its own. -/
def World.store (w : World) : Store OutputId (κ × Bool) where
  stamp id := ((w.outputs id).filter (0 < ·.size)).map
    fun f => ⟨f.attempt.number, (key f.attempt.command, f.attempt.finished), f.attempt.inputs⟩
  clock := w.attempts

def StageCall.task (w : World) (s : StageCall) : Task OutputId (κ × Bool) where
  out := s.id
  base := (s.model.elim [] w.modelWriters).map Attempt.number
  needs := s.input.toList.map Prod.fst
  recipe := (key s.command, true)

variable {key} {w v : World} {s : StageCall} {id : OutputId}

theorem store_stamp : (w.store key).stamp id = ((w.outputs id).filter (0 < ·.size)).map
    fun f => ⟨f.attempt.number, (key f.attempt.command, f.attempt.finished), f.attempt.inputs⟩ :=
  rfl

theorem store_present : (w.store key).Present id ↔ w.nonempty id = true := by
  unfold Store.Present World.nonempty
  rw [store_stamp]
  cases w.outputs id with
  | none => simp
  | some f => by_cases hsize : 0 < f.size <;> simp [Option.filter, hsize]

theorem stamp_numbers (h : w.nonempty id = true) :
    ((w.store key).stamp id).toList.map Stamp.number = (w.writers id).map Attempt.number := by
  unfold World.nonempty at h
  rw [store_stamp, World.writers]
  cases hf : w.outputs id with
  | none => simp [hf] at h
  | some f =>
      have hsize : 0 < f.size := by simpa [hf] using h
      simp [Option.filter, hsize]

theorem forall_needs {P : OutputId → Prop} :
    (∀ i ∈ (s.task key v).needs, P i) ↔ ∀ file ∈ s.input, P file.1 := by
  unfold StageCall.task
  cases s.input <;> simp

theorem readsOf_task (h : s.InputThere w) :
    (w.store key).readsOf (s.task key w) = (s.reads w).map Attempt.number := by
  unfold Store.readsOf StageCall.reads StageCall.task
  rw [List.map_append]
  congr 1
  cases hinput : s.input with
  | none => rfl
  | some file =>
      have hstamp : ((w.store key).stamp file.1).toList.map Stamp.number =
          (w.writers file.1).map Attempt.number := stamp_numbers (h file hinput)
      simpa using hstamp

theorem current_task (h : s.InputThere w) :
    (w.store key).Current (s.task key w) ↔ s.Current key w := by
  have hout : (s.task key w).out = s.id := rfl
  unfold Store.Current StageCall.Current
  rw [readsOf_task h, hout, store_stamp]
  cases hf : w.outputs s.id with
  | none => simp
  | some f =>
      by_cases hsize : 0 < f.size
      · simp [StageCall.task, Option.filter, hsize, and_assoc, and_left_comm]
      · simp [Option.filter, hsize]

/-- The same files, whatever the markers and the log. -/
structure World.SameFiles (w v : World) : Prop where
  outputs : v.outputs = w.outputs
  merges : v.merges = w.merges
  attempts : v.attempts = w.attempts

theorem World.SameFiles.store_eq (h : w.SameFiles v) : v.store key = w.store key := by
  unfold World.store
  rw [h.outputs, h.attempts]

theorem task_congr (h : v.merges = w.merges) : s.task key v = s.task key w := by
  unfold StageCall.task World.modelWriters
  rw [h]

end Tasks

/-! ## An invocation that returns is a pass -/

namespace Invocation

variable {inv : Invocation} {w : World}

theorem modelPath_of_reused {p : Path} (h : inv.reusedModel w = some p) : inv.modelPath w = p := by
  unfold reusedModel at h
  unfold modelPath
  split at h
  case isTrue hhf => rw [if_pos hhf, ← Option.some.inj h]
  case isFalse hhf =>
    dsimp only at h
    rw [if_neg hhf]
    split at h
    case isTrue => exact Option.some.inj h
    case isFalse => cases h

theorem modelPath_of_merged (h : inv.reusedModel w = none) :
    inv.modelPath w = inv.ckpt ++ ["merge"] := by
  unfold reusedModel at h
  unfold modelPath
  split at h
  case isTrue => cases h
  case isFalse hhf => rw [if_neg hhf]

/-- The disk after the merge stage: the same files, or a finished merge more. -/
structure Merged (inv : Invocation) (w v : World) : Prop where
  outputs : v.outputs = w.outputs
  attempts : w.attempts ≤ v.attempts
  merges : ((inv.reusedModel w).isSome = true ∧ v.merges = w.merges) ∨
    inv.reusedModel w = none ∧ ∃ size, v.merges = (w.setMerge (inv.ckpt ++ ["merge"])
      ⟨true, some size, some ⟨w.attempts, .merge (inv.ckpt ++ ["actor"]) (inv.ckpt ++ ["merge"]),
        [], true⟩⟩).merges

theorem outcome_returns (call : Call) {P : World → Prop} :
    Triple P (inv.outcome call) (fun _ => P) (fun _ => True) := by
  unfold outcome
  split
  case h_1 => exact Triple.stop fun _ _ => trivial
  case h_2 => exact Triple.pure' fun _ hs => hs

theorem stageMerge_merged (hdry : inv.dryRun = false) :
    Triple (fun s => s = w) inv.stageMerge
      (fun modelPath s => modelPath = inv.modelPath w ∧ inv.Merged w s) (fun _ => True) := by
  refine (outcome_returns .merge).bind fun outcome => ?_
  refine Triple.bind (Q := fun v s => v = w ∧ s = w) (Triple.get fun s hs => ⟨hs, hs⟩) fun v => ?_
  have hreuse : ∀ p, (v = w → inv.reusedModel w = some p) →
      Triple (fun s => v = w ∧ s = w)
        (do Prog.modify (fun w => w.log ((w.modelWriters p).map (Event.skip .merge)))
            pure p : Prog World Stop Path)
        (fun modelPath s => modelPath = inv.modelPath w ∧ inv.Merged w s) (fun _ => True) := by
    intro p hp
    refine Triple.bind (Q := fun _ s => p = inv.modelPath w ∧ inv.Merged w s)
      (Triple.modify ?_) fun _ => Triple.pure' fun _ hs => hs
    rintro s ⟨hv, rfl⟩
    have hreused := hp hv
    exact ⟨(modelPath_of_reused hreused).symm, rfl, Nat.le_refl _,
      .inl ⟨Option.isSome_of_eq_some hreused, rfl⟩⟩
  refine Triple.ite (fun hhf => hreuse _ fun hv => ?_) fun hhf => ?_
  · rw [reusedModel, ← hv, if_pos hhf]
  refine Triple.ite (fun hmerged => hreuse _ fun hv => ?_) fun hmerged => ?_
  · rw [reusedModel, ← hv, if_neg hhf, if_pos hmerged]
  · refine Triple.bind (Q := fun _ s => v = w ∧ s = w)
      (Triple.require (fun _ _ hs => hs) fun _ _ _ => trivial) fun _ => ?_
    refine Triple.bind (Q := fun _ s => v = w ∧ inv.Merged w s) ?_
      fun _ => Triple.pure' fun s hs => ⟨?_, hs.2⟩
    · refine Triple.ite (fun h => absurd h (by simp [hdry])) fun _ => ?_
      refine Triple.bind (Q := fun _ s => outcome.continues = true → v = w ∧ inv.Merged w s)
        (Triple.modify ?_) fun _ => Triple.require (fun hgo _ hs => hs hgo) fun _ _ _ => trivial
      rintro s ⟨rfl, rfl⟩ hgo
      have hnone : inv.reusedModel s = none := by rw [reusedModel, if_neg hhf, if_neg hmerged]
      cases outcome with
      | finished size => exact ⟨rfl, rfl, Nat.le_succ _, .inr ⟨hnone, size, rfl⟩⟩
      | finishedKilled size => cases hgo
      | killed leftover => cases hgo
    · obtain ⟨rfl, -⟩ := hs
      exact (modelPath_of_merged (by rw [reusedModel, if_neg hhf, if_neg hmerged])).symm

/-- `_is_done` answers whether the output is non-empty, and changes no file. -/
theorem isDone_returns (id : OutputId) :
    Triple (fun s => s = w) (isDone id) (fun done s => done = w.nonempty id ∧ w.SameFiles s)
      (fun _ => True) := by
  refine Triple.bind (Q := fun v s => v = w ∧ s = w) (Triple.get fun s hs => ⟨hs, hs⟩) fun v => ?_
  refine Triple.ite (fun h => Triple.pure' ?_) fun _ => Triple.ite (fun h => ?_) fun h => ?_
  · rintro s ⟨rfl, rfl⟩
    exact ⟨(Bool.and_eq_true _ _ ▸ h).1.symm, rfl, rfl, rfl⟩
  · refine Triple.bind (Q := fun _ s => v = w ∧ w.SameFiles s) (Triple.modify ?_)
      fun _ => Triple.pure' ?_
    · rintro s ⟨rfl, rfl⟩
      exact ⟨rfl, rfl, rfl, rfl⟩
    · rintro s ⟨rfl, hs⟩
      exact ⟨h.symm, hs⟩
  · refine Triple.pure' ?_
    rintro s ⟨rfl, rfl⟩
    exact ⟨(Bool.eq_false_iff.mpr h).symm, rfl, rfl, rfl⟩

section Steps

variable {κ : Type} (key : Command → κ) {s : StageCall}

/-- The disk after a script that ran to its end and left something. -/
theorem store_setOutput {v : World} (hs : w.SameFiles v) (hinput : s.InputThere w) {size : ℕ}
    (hsize : 0 < size) (events : List Event) :
    ((v.countAttempt.log events).setOutput s.id (some ⟨size,
      ⟨v.attempts, s.command, (s.reads v).map Attempt.number, true⟩⟩)).store key =
      (w.store key).write (s.task key w) := by
  have hreads : s.reads v = s.reads w := by
    refine StageCall.reads_congr hs.outputs fun p _ => ?_
    unfold World.modelWriters
    rw [hs.merges]
  have hstamp : ∀ id, (((v.countAttempt.log events).setOutput s.id (some ⟨size,
      ⟨v.attempts, s.command, (s.reads v).map Attempt.number, true⟩⟩)).store key).stamp id =
      ((w.store key).write (s.task key w)).stamp id := by
    intro id
    by_cases hEq : id = s.id
    · subst hEq
      have hnew := Store.write_stamp_self (s := w.store key) (t := s.task key w)
      rw [readsOf_task hinput] at hnew
      change _ = ((w.store key).write (s.task key w)).stamp (s.task key w).out
      rw [hnew, store_stamp, World.setOutput_outputs_self, hreads, hs.attempts]
      simp [Option.filter, hsize, StageCall.task, World.store]
    · rw [store_stamp, World.setOutput_outputs_of_ne _ _ _ _ hEq]
      change ((v.outputs id).filter _).map _ = _
      rw [hs.outputs, Store.write_stamp_of_ne hEq, store_stamp]
  have hclock : v.attempts + 1 = w.attempts + 1 := by rw [hs.attempts]
  exact Store.ext (funext hstamp) hclock

/-- The script of a stage, if the driver goes on: the task was run, unless it
left nothing. -/
theorem run_returns (hdry : inv.dryRun = false) (hinput : s.InputThere w) (outcome : Outcome) :
    Triple (fun v => w.SameFiles v)
      (inv.run s.id.stage outcome s.command s.reads
        (fun a v => v.setOutput s.id (outcome.file (v.outputs s.id) a)))
      (fun _ v => v.merges = w.merges ∧
        (v.nonempty s.id = true → v.store key = (w.store key).write (s.task key w)))
      (fun _ => True) := by
  refine Triple.ite (fun h => absurd h (by simp [hdry])) fun _ => ?_
  refine Triple.bind (Q := fun _ v => outcome.continues = true → v.merges = w.merges ∧
    (v.nonempty s.id = true → v.store key = (w.store key).write (s.task key w)))
    (Triple.modify fun v hv hgo => ?_)
    fun _ => Triple.require (fun hgo _ hv => hv hgo) fun _ _ _ => trivial
  cases outcome with
  | finished size =>
      refine ⟨hv.merges, fun hsize => store_setOutput key hv hinput ?_ _⟩
      simpa [World.nonempty, Outcome.file] using hsize
  | finishedKilled size => cases hgo
  | killed leftover => cases hgo

/-- A stage that returns is a step of the pass. -/
theorem runCall_step (hdry : inv.dryRun = false) (cfg : DatasetConfig) :
    Triple (fun v => v = w) (inv.runCall cfg s)
      (fun _ v => v.merges = w.merges ∧
        Rebuild.Step inv.force (s.task key w) (w.store key) (v.store key))
      (fun _ => True) := by
  refine (outcome_returns s.call).bind fun outcome => ?_
  refine Triple.bind (Q := fun v u => v = w ∧ u = w) (Triple.get fun u hu => ⟨hu, hu⟩) fun v => ?_
  refine Triple.bind (Q := fun _ u => s.InputThere w ∧ u = w)
    (Triple.require ?_ fun _ _ _ => trivial) fun _ => ?_
  · rintro hinput u ⟨rfl, rfl⟩
    refine ⟨fun file hfile => ?_, rfl⟩
    rw [hdry, Bool.false_or, hfile] at hinput
    exact hinput
  refine Triple.assume fun hinput => (isDone_returns s.id).bind fun done => ?_
  have hneeds : ∀ i ∈ (s.task key w).needs, (w.store key).Present i :=
    forall_needs.mpr fun file hfile => store_present.mpr (hinput file hfile)
  refine Triple.assume fun hdone => Triple.ite (fun hskip => ?_) fun hrun => ?_
  · obtain ⟨hpresent, hforce⟩ := Bool.and_eq_true _ _ ▸ hskip
    refine Triple.modify fun u hu => ⟨hu.merges, ?_⟩
    have hstore : (u.log ((u.writers s.id).map (Event.skip s.id.stage))).store key = w.store key :=
      hu.store_eq
    rw [hstore]
    exact .skip (by simpa using hforce) (store_present.mpr (hdone ▸ hpresent)) hneeds
  · have hdue : inv.force = true ∨ ¬ (w.store key).Present s.id := by
      rw [store_present, ← hdone]
      cases hforce : inv.force with
      | true => exact .inl rfl
      | false => exact .inr (by simpa [hforce] using hrun)
    refine (run_returns key hdry hinput outcome).bind fun _ => Triple.from_state fun v hv => ?_
    refine Triple.bind (Q := fun u u' => u = v ∧ u' = v) (Triple.get fun u hu => ⟨hu, hu⟩)
      fun u => Triple.assume fun hu => ?_
    refine Triple.bind (Q := fun _ u' => v.nonempty s.id = true ∧ u' = v)
      (Triple.require (fun hok u' hu' => ⟨?_, hu'⟩) fun _ _ _ => trivial)
      fun _ => Triple.assume fun hnonempty => Triple.modify ?_
    · rw [hdry, Bool.false_or, hu] at hok
      exact hok
    · rintro _ rfl
      have hstore : (u.setMarker s.id).store key = u.store key := rfl
      refine ⟨hv.1, ?_⟩
      rw [← hu, hstore, hu, hv.2 hnonempty]
      exact .run hdue hneeds

theorem runCalls_pass (hdry : inv.dryRun = false) (cfg : DatasetConfig) (calls : List StageCall)
    {ts : List (Task OutputId (κ × Bool))} :
    Triple (fun v => v.merges = w.merges ∧ Pass inv.force ts (w.store key) (v.store key))
      (Prog.forEach calls (inv.runCall cfg))
      (fun _ v => v.merges = w.merges ∧
        Pass inv.force (ts ++ calls.map (StageCall.task key w)) (w.store key) (v.store key))
      (fun _ => True) := by
  refine Triple.conseq (Triple.forEach (J := fun done v => v.merges = w.merges ∧
    Pass inv.force (ts ++ done.map (StageCall.task key w)) (w.store key) (v.store key)) calls
    fun done s rest _ => Triple.from_state fun v hv => ?_) ?_ fun _ _ hu => hu
  · refine (runCall_step key hdry cfg).conseq (fun _ hu => hu) fun _ u hu => ?_
    obtain ⟨hmerges, hstep⟩ := hu
    refine ⟨hmerges.trans hv.1, ?_⟩
    rw [task_congr hv.1] at hstep
    rw [List.map_append, ← List.append_assoc]
    exact hv.2.append (.cons hstep .nil)
  · intro v hv
    rwa [List.map_nil, List.append_nil]

theorem evaluateDatasets_pass (hdry : inv.dryRun = false) (modelPath : Path) :
    Triple (fun v => v = w)
      (Prog.forEach inv.configs.zipIdx (fun cfg => inv.evaluateDataset modelPath cfg.2 cfg.1))
      (fun _ v => v.merges = w.merges ∧
        Pass inv.force ((inv.allCalls modelPath).map (StageCall.task key w)) (w.store key)
          (v.store key))
      (fun _ => True) := by
  let tasks (passed : List (DatasetConfig × ℕ)) : List (Task OutputId (κ × Bool)) :=
    (passed.flatMap fun c => inv.stageCalls modelPath c.2 c.1).map (StageCall.task key w)
  refine Triple.conseq (Triple.forEach (J := fun passed v => v.merges = w.merges ∧
    Pass inv.force (tasks passed) (w.store key) (v.store key)) inv.configs.zipIdx
    fun passed c rest _ => ?_) ?_ fun _ _ hu => hu
  · have htasks : tasks (passed ++ [c]) =
        tasks passed ++ (inv.stageCalls modelPath c.2 c.1).map (StageCall.task key w) := by
      simp only [tasks, List.flatMap_append, List.flatMap_singleton, List.map_append]
    rw [htasks, evaluateDataset_eq]
    exact (Triple.require (fun _ _ hs => hs) fun _ _ _ => trivial).bind
      fun _ => runCalls_pass key hdry c.1 _
  · rintro v rfl
    exact ⟨rfl, .nil⟩

end Steps

theorem naturalEvalStage_returns :
    Triple (fun v => v = w) inv.naturalEvalStage
      (fun _ v => w.SameFiles v ∧ (inv.rlcr = false → inv.probeConfig.isSome = true))
      (fun _ => True) := by
  refine (outcome_returns .naturalEval).bind fun _ => ?_
  refine Triple.bind (Q := fun _ v => v = w) (Triple.get fun _ hv => hv) fun v => ?_
  refine Triple.bind (Q := fun _ v => (inv.rlcr = false → inv.probeConfig.isSome = true) ∧ v = w)
    ?_ fun files => Triple.assume fun hprobe => ?_
  · refine Triple.ite (fun hrlcr => Triple.pure' fun v hv => ⟨fun h => ?_, hv⟩) fun _ => ?_
    · rw [hrlcr] at h
      cases h
    · cases inv.probeConfig with
      | none => exact Triple.stop fun _ _ => trivial
      | some cfg => exact Triple.pure' fun v hv => ⟨fun _ => rfl, hv⟩
  · refine Triple.bind (Q := fun _ v => v = w)
      (Triple.require (fun _ _ hv => hv) fun _ _ _ => trivial) fun _ => Triple.modify ?_
    rintro _ rfl
    exact ⟨⟨rfl, rfl, rfl⟩, hprobe⟩

/-- An invocation that returns, up to the files it leaves: a merge stage, a pass
over the stages of all datasets, and the table. -/
theorem evaluate_pass {κ : Type} (key : Command → κ) (hdry : inv.dryRun = false) :
    Triple (fun v => v = w) inv.evaluate
      (fun _ v => ∃ w₁, inv.Merged w w₁ ∧ v.merges = w₁.merges ∧
        Pass inv.force ((inv.allCalls (inv.modelPath w)).map (StageCall.task key w₁))
          (w₁.store key) (v.store key) ∧
        (inv.rlcr = false → inv.probeConfig.isSome = true))
      (fun _ => True) := by
  refine Triple.bind (Q := fun _ v => v = w)
    (Triple.require (fun _ _ hv => hv) fun _ _ _ => trivial) fun _ => ?_
  refine (stageMerge_merged hdry).bind fun modelPath => Triple.from_state fun w₁ hw₁ => ?_
  obtain ⟨rfl, hmerged⟩ := hw₁
  refine (evaluateDatasets_pass key hdry _).bind fun _ => Triple.from_state fun v hv => ?_
  refine Triple.ite (fun h => absurd h (by simp [hdry])) fun _ => ?_
  refine naturalEvalStage_returns.conseq (fun _ hu => hu) fun _ u hu => ?_
  refine ⟨w₁, hmerged, hu.1.merges.trans hv.1, ?_, hu.2⟩
  rw [hu.1.store_eq]
  exact hv.2

end Invocation

end RLCM.Eval
