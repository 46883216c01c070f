/-
# `RLCM.ForcedOutput.ResumeSafety` — resuming after a save that was cut short

A process saves at ascending steps and may be killed inside its last save.  The next
process finds a policy to go on from unless the kill fell into one window
(`resume_after_crash_iff`): between the two writes of the tracker, which is emptied
first; and, when one checkpoint is kept, already from the removal of the old policy on,
which the register does before the tracker names the new one.

Between the saves the tracker names a whole policy, or nothing was saved (`Tracked`);
`Spares` are the writes that leave this alone.  Every process finds it so if none before it
was killed in the window (`history_resumes`).
-/
import RLCM.ForcedOutput.ProbePairing

namespace RLCM.ForcedOutput

open Py PPO

variable {Dir : Type} [DecidableEq Dir] (resolve : Str → Dir) (cfg : PPO.TrainerConfig)

/-! ## What the tracker names -/

/-- A policy that so many ranks can load, with its dataloader. -/
def PolicyLoads (worldSize : ℕ) (f : StepFolder) : Prop :=
  ActorWhole worldSize f ∧ f.dataloader ≠ some .torn

/-- The tracker names a policy that can be loaded, or there is no tracker. -/
def Tracked (d : Disk Dir) : Option ℤ → Prop
  | none => d.tracker (resolve cfg.defaultLocalDir) = none
  | some step => d.tracker (resolve cfg.defaultLocalDir) = some (strOfInt step) ∧
      PolicyLoads cfg.worldSize (d.made (stepDir resolve cfg step))

/-- A write that leaves the tracker and the policy it names alone. -/
def Spares (last : Option ℤ) : Write Dir → Prop
  | .actor folder _ _ | .removeActor folder | .dataloader folder _ =>
      ∀ step ∈ last, folder ≠ stepDir resolve cfg step
  | .mkdir _ | .probe _ _ => True
  | .tracker _ _ => False

variable {resolve cfg} {d : Disk Dir} {last : Option ℤ} {step : ℤ} {save : Save}

section Writes

theorem Spares.policyLoads {w : Write Dir} (hw : Spares resolve cfg (some step) w)
    {worldSize : ℕ} {f : StepFolder} (h : PolicyLoads worldSize f) :
    PolicyLoads worldSize (w.change (stepDir resolve cfg step) f) := by
  cases w with
  | mkdir folder => exact h
  | actor folder file piece =>
      rw [Write.change, if_neg (fun heq => hw step rfl heq.symm)]
      exact h
  | removeActor folder =>
      rw [Write.change, if_neg (fun heq => hw step rfl heq.symm)]
      exact h
  | dataloader folder piece =>
      rw [Write.change, if_neg (fun heq => hw step rfl heq.symm)]
      exact h
  | probe folder piece =>
      rw [Write.change]
      split
      case isTrue => exact h
      case isFalse => exact h
  | tracker dir text => cases hw

theorem Spares.tracker {w : Write Dir} (hw : Spares resolve cfg last w) (d : Disk Dir) :
    (d.write w).tracker = d.tracker := by
  cases w with
  | mkdir folder => rfl
  | actor folder file piece => rfl
  | removeActor folder => rfl
  | dataloader folder piece => rfl
  | probe folder piece => rfl
  | tracker dir text => cases hw

theorem tracked_write (h : Tracked resolve cfg d last) {w : Write Dir}
    (hw : Spares resolve cfg last w) : Tracked resolve cfg (d.write w) last := by
  cases last with
  | none =>
      rw [Tracked, hw.tracker]
      exact h
  | some step =>
      rw [Tracked, hw.tracker, Disk.made_write]
      exact ⟨h.1, hw.policyLoads h.2⟩

theorem tracked_writeAll (h : Tracked resolve cfg d last) {writes : List (Write Dir)}
    (hw : ∀ w ∈ writes, Spares resolve cfg last w) :
    Tracked resolve cfg (d.writeAll writes) last := by
  induction writes generalizing d with
  | nil => exact h
  | cons w writes ih =>
      exact ih (tracked_write h (hw w List.mem_cons_self))
        (fun w' hw' => hw w' (List.mem_cons_of_mem _ hw'))

theorem tracked_take (h : Tracked resolve cfg d last) {writes : List (Write Dir)}
    (hw : ∀ w ∈ writes, Spares resolve cfg last w) (n : ℕ) :
    Tracked resolve cfg (d.writeAll (writes.take n)) last :=
  tracked_writeAll h (fun w hmem => hw w (List.mem_of_mem_take hmem))

end Writes

/-! ## What loading finds -/

section Load

omit [DecidableEq Dir] in
theorem findLatestCkptPath_named
    (hnamed : d.tracker (resolve cfg.defaultLocalDir) = some (strOfInt step))
    (hthere : (d.folders (stepDir resolve cfg step)).isSome = true) :
    findLatestCkptPath resolve d cfg.defaultLocalDir =
      .ok (some (globalStepFolder cfg.defaultLocalDir step)) := by
  rw [stepDir] at hthere
  rw [findLatestCkptPath, hnamed]
  dsimp only
  rw [intOfStr_strOfInt]
  dsimp only
  rw [if_pos hthere]

omit [DecidableEq Dir] in
theorem exists_actorFile (cfg : PPO.TrainerConfig) : ∃ file, file ∈ actorFiles cfg.worldSize :=
  ⟨⟨.model, cfg.worldSize, 0⟩, mem_actorFiles.mpr ⟨rfl, cfg.worldSize_pos⟩⟩

omit [DecidableEq Dir] in
theorem isSome_of_actorWhole {dir : Dir} (h : ActorWhole cfg.worldSize (d.made dir)) :
    (d.folders dir).isSome = true := by
  obtain ⟨file, hfile⟩ := exists_actorFile cfg
  obtain ⟨save, hactor⟩ := h file hfile
  unfold Disk.made at hactor
  cases hf : d.folders dir with
  | none =>
      rw [hf] at hactor
      cases hactor
  | some f => rfl

variable (hauto : cfg.resumeMode = .auto)
include hauto

omit [DecidableEq Dir] in
theorem resumeFolder_auto (d : Disk Dir) :
    resumeFolder resolve cfg d = findLatestCkptPath resolve d cfg.defaultLocalDir := by
  unfold resumeFolder
  simp only [hauto]

omit [DecidableEq Dir] in
theorem loadCheckpoint_tracked (h : Tracked resolve cfg d last) :
    ∃ policy, loadCheckpoint resolve cfg d = .ok (last.getD 0, policy) := by
  rw [loadCheckpoint, resumeFolder_auto hauto]
  cases last with
  | none =>
      have hnone : d.tracker (resolve cfg.defaultLocalDir) = none := h
      rw [findLatestCkptPath, hnone]
      exact ⟨_, rfl⟩
  | some step =>
      obtain ⟨hnamed, hactor, hdata⟩ := h
      obtain ⟨f, hf⟩ := Option.isSome_iff_exists.mp (isSome_of_actorWhole hactor)
      obtain ⟨policy, hpolicy⟩ : ∃ policy, (actorFiles cfg.worldSize).mapM
          (readFile (d.folders (stepDir resolve cfg step))) = .ok policy := by
        refine mapM_returns (fun file hfile => ?_)
        obtain ⟨save, hsave⟩ := hactor file hfile
        exact ⟨save, readFile_eq_ok.mpr hsave⟩
      rw [Disk.made_of_some hf] at hdata
      rw [findLatestCkptPath_named hnamed (Option.isSome_of_eq_some hf), ok_bind]
      rw [stepDir] at hf hpolicy
      dsimp only
      rw [readFolder, intOfStr_stepText]
      dsimp only
      rw [hpolicy, ok_bind, pure_eq_ok, ok_bind, readDataloader, hf, Option.bind_some,
        if_neg hdata]
      exact ⟨_, rfl⟩

omit [DecidableEq Dir] in
theorem loadCheckpoint_tracked_some (h : Tracked resolve cfg d (some step))
    {r : ℤ × Option (List Save)} (hr : loadCheckpoint resolve cfg d = .ok r) :
    r.1 = step ∧ ∃ policy, r.2 = some policy ∧ ∀ file ∈ actorFiles cfg.worldSize,
      ∃ save ∈ policy, (d.made (stepDir resolve cfg step)).actor file = some (.whole save) := by
  rw [loadCheckpoint, resumeFolder_auto hauto,
    findLatestCkptPath_named h.1 (isSome_of_actorWhole h.2.1), ok_bind] at hr
  dsimp only at hr
  rw [readFolder, intOfStr_stepText] at hr
  obtain ⟨_, hread, hr⟩ := bind_eq_ok.mp hr
  obtain ⟨policy, hpolicy, hread⟩ := bind_eq_ok.mp hread
  obtain ⟨_, -, hr⟩ := bind_eq_ok.mp hr
  cases hread
  cases hr
  refine ⟨rfl, policy, rfl, fun file hfile => ?_⟩
  obtain ⟨save, hmem, hsave⟩ := (mem_of_mapM hpolicy).1 file hfile
  exact ⟨save, hmem, readFile_eq_ok.mp hsave⟩

omit [DecidableEq Dir] in
theorem loadCheckpoint_emptied (h : d.tracker (resolve cfg.defaultLocalDir) = some []) :
    ¬ ∃ r, loadCheckpoint resolve cfg d = .ok r := by
  rw [loadCheckpoint, resumeFolder_auto hauto, findLatestCkptPath, h]
  rintro ⟨r, hr⟩
  cases hr

omit [DecidableEq Dir] in
theorem loadCheckpoint_removed
    (hnamed : d.tracker (resolve cfg.defaultLocalDir) = some (strOfInt step))
    (hthere : (d.folders (stepDir resolve cfg step)).isSome = true)
    (hactor : (d.made (stepDir resolve cfg step)).actor = fun _ => none) :
    ¬ ∃ r, loadCheckpoint resolve cfg d = .ok r := by
  rw [loadCheckpoint, resumeFolder_auto hauto, findLatestCkptPath_named hnamed hthere, ok_bind]
  dsimp only
  rw [readFolder, intOfStr_stepText]
  rintro ⟨r, hr⟩
  obtain ⟨_, hread, -⟩ := bind_eq_ok.mp hr
  obtain ⟨policy, hpolicy, -⟩ := bind_eq_ok.mp hread
  obtain ⟨file, hfile⟩ := exists_actorFile cfg
  obtain ⟨save, -, hsave⟩ := (mem_of_mapM hpolicy).1 file hfile
  have hloaded : (d.made (stepDir resolve cfg step)).actor file = some (.whole save) :=
    readFile_eq_ok.mp hsave
  rw [hactor] at hloaded
  cases hloaded

end Load

/-! ## The writes of a save -/

/-- The checkpoints that a process keeps, and the step that the tracker names: the newest
of them, if it saved at all. -/
structure KeptSteps (cfg : PPO.TrainerConfig) (steps : List ℤ) (last : Option ℤ) : Prop where
  newest : steps = [] ∨ ∃ older step, steps = older ++ [step] ∧ last = some step ∧
    ∀ s ∈ older, s < step
  bounded : ∀ n, cfg.maxActorCkptToKeep = some n → 0 < n → steps.length ≤ n

theorem keptSteps_nil (cfg : PPO.TrainerConfig) (last : Option ℤ) : KeptSteps cfg [] last :=
  ⟨Or.inl rfl, fun n _ _ => Nat.zero_le n⟩

def stepFolders (cfg : PPO.TrainerConfig) (steps : List ℤ) : List Str :=
  steps.map (globalStepFolder cfg.defaultLocalDir)

/-- The old policies that the register removes. -/
def replaced (cfg : PPO.TrainerConfig) (steps : List ℤ) : List ℤ :=
  if cfg.maxActorCkptToKeep = some 1 then steps else []

section Excess

variable {steps : List ℤ}

theorem capacityExcess_lt (hne : steps ≠ []) :
    capacityExcess cfg.maxActorCkptToKeep (stepFolders cfg steps) < steps.length := by
  have hpos := List.length_pos_iff.mpr hne
  rw [stepFolders]
  unfold capacityExcess
  rw [List.length_map]
  split
  case h_1 n hn =>
    split
    case isTrue hn => omega
    case isFalse => exact hpos
  case h_2 => exact hpos

/-- Before the save nothing goes if one checkpoint is kept. -/
theorem capacityExcess_one (hone : cfg.maxActorCkptToKeep = some 1) (previous : List Str) :
    capacityExcess cfg.maxActorCkptToKeep previous = 0 := by
  rw [hone]
  rfl

theorem registered_eq (cfg : PPO.TrainerConfig) (steps : List ℤ) (save : Save) :
    registered cfg (stepFolders cfg steps) save = stepFolders cfg
      (steps.drop (capacityExcess cfg.maxActorCkptToKeep (stepFolders cfg steps)) ++
        [save.step]) := by
  rw [registered, stepFolders, stepFolders, List.map_append, List.map_drop]
  rfl

/-- Only a process that keeps one checkpoint drops any after a save. -/
theorem KeptSteps.registerExcess_eq (h : KeptSteps cfg steps last) (save : Save) :
    registerExcess cfg.maxActorCkptToKeep (registered cfg (stepFolders cfg steps) save) =
      (replaced cfg steps).length := by
  rw [registered_eq, replaced]
  unfold registerExcess
  simp only [stepFolders, capacityExcess, List.length_map, List.length_append, List.length_drop,
    List.length_singleton]
  cases hmax : cfg.maxActorCkptToKeep with
  | none => rfl
  | some n =>
      have hbounded := h.bounded n hmax
      simp only [Option.some.injEq]
      by_cases hone : n = 1
      · rw [if_pos hone, hone]
        simp only [Nat.lt_irrefl, false_and, if_false, Nat.sub_zero]
        split
        case isTrue => omega
        case isFalse => omega
      · rw [if_neg hone, List.length_nil]
        refine if_neg (fun hmore => ?_)
        have hle := hbounded hmore.1
        obtain ⟨hpos, hmore⟩ := hmore
        split at hmore
        case isTrue => omega
        case isFalse => omega

theorem KeptSteps.registered_take (h : KeptSteps cfg steps last) (save : Save) :
    (registered cfg (stepFolders cfg steps) save).take
        (registerExcess cfg.maxActorCkptToKeep (registered cfg (stepFolders cfg steps) save)) =
      stepFolders cfg (replaced cfg steps) := by
  rw [h.registerExcess_eq, registered_eq, replaced]
  by_cases hone : cfg.maxActorCkptToKeep = some 1
  · rw [if_pos hone, capacityExcess_one hone, List.drop_zero, stepFolders, stepFolders,
      ← List.map_take, List.take_left]
  · rw [if_neg hone]
    rfl

theorem KeptSteps.keptAfter (h : KeptSteps cfg steps last) (save : Save)
    (hnew : ∀ l ∈ last, l < save.step) :
    ∃ steps', keptAfter cfg (stepFolders cfg steps) save = stepFolders cfg steps' ∧
      (!steps'.isEmpty) = true ∧ KeptSteps cfg steps' (some save.step) := by
  have hbelow : ∀ s ∈ steps, s < save.step := by
    intro s hs
    rcases h.newest with rfl | ⟨older, l, rfl, rfl, holder⟩
    · cases hs
    · have hl := hnew l rfl
      rcases List.mem_append.mp hs with hs | hs
      · exact Int.lt_trans (holder s hs) hl
      · rw [List.mem_singleton.mp hs]
        exact hl
  have hsub : ∀ n, ∀ s ∈ steps.drop n, s < save.step :=
    fun n s hs => hbelow s (List.mem_of_mem_drop hs)
  rw [PPO.keptAfter, h.registerExcess_eq, registered_eq, replaced]
  by_cases hone : cfg.maxActorCkptToKeep = some 1
  · refine ⟨[save.step], ?_, rfl, Or.inr ⟨[], _, rfl, rfl, by simp⟩, ?_⟩
    · rw [if_pos hone, capacityExcess_one hone, List.drop_zero, stepFolders, ← List.map_drop,
        List.drop_left]
      rfl
    · intro n hn hpos
      exact hpos
  · refine ⟨_, by rw [if_neg hone, List.length_nil, List.drop_zero],
      by simp,
      Or.inr ⟨_, _, rfl, rfl, hsub _⟩, ?_⟩
    intro n hn hpos
    have hlen := h.bounded n hn hpos
    have hne : n ≠ 1 := by
      rintro rfl
      exact hone hn
    rw [List.length_append, List.length_drop, List.length_singleton, hn, stepFolders]
    unfold capacityExcess
    dsimp only
    rw [List.length_map]
    split
    case isTrue => omega
    case isFalse => omega

end Excess

/-- The writes from the whole actor until the tracker is opened. -/
def headWrites (resolve : Str → Dir) (cfg : PPO.TrainerConfig) (removed : List ℤ) (save : Save) :
    List (Write Dir) :=
  removed.map (fun s => .removeActor (stepDir resolve cfg s)) ++
    [.dataloader (stepDir resolve cfg save.step) .torn,
      .dataloader (stepDir resolve cfg save.step) (.whole save)]

def trackerWrites (resolve : Str → Dir) (cfg : PPO.TrainerConfig) (save : Save) :
    List (Write Dir) :=
  [.tracker (resolve cfg.defaultLocalDir) [],
    .tracker (resolve cfg.defaultLocalDir) (strOfInt save.step)]

section Head

variable {steps removed : List ℤ}

omit [DecidableEq Dir] in
theorem KeptSteps.writesAfterActor_eq (h : KeptSteps cfg steps last) (save : Save)
    (hsync : cfg.asyncSave = false) :
    writesAfterActor resolve cfg (stepFolders cfg steps) save =
      headWrites resolve cfg (replaced cfg steps) save ++ trackerWrites resolve cfg save := by
  rw [writesAfterActor, h.registered_take, hsync, removeActors, stepFolders, List.map_map]
  simp only [headWrites, trackerWrites, List.append_assoc, Bool.false_eq_true, if_false]
  rfl

omit [DecidableEq Dir] in
theorem length_headWrites (save : Save) :
    (headWrites resolve cfg removed save).length = removed.length + 2 := by
  rw [headWrites, List.length_append, List.length_map]
  rfl

theorem policyLoads_head {worldSize : ℕ} (save : Save)
    (hne : ∀ s ∈ removed, stepDir resolve cfg s ≠ stepDir resolve cfg save.step)
    (h : ActorWhole worldSize (d.made (stepDir resolve cfg save.step))) :
    PolicyLoads worldSize ((d.writeAll (headWrites resolve cfg removed save)).made
      (stepDir resolve cfg save.step)) := by
  have hremovals : ActorWhole worldSize ((d.writeAll (removed.map (fun s =>
      Write.removeActor (stepDir resolve cfg s)))).made (stepDir resolve cfg save.step)) := by
    refine Disk.made_writeAll_of_keeps (fun w hw f hf => ?_) h
    obtain ⟨s, hs, rfl⟩ := List.mem_map.mp hw
    rw [Write.change, if_neg (hne s hs).symm]
    exact hf
  rw [headWrites, Disk.writeAll_append, Disk.writeAll_cons, Disk.writeAll_cons, Disk.writeAll,
    List.foldl_nil, Disk.made_write, Disk.made_write, Write.change, Write.change, if_pos rfl,
    if_pos rfl]
  exact ⟨hremovals, by simp⟩

theorem tracked_new (save : Save)
    (hne : ∀ s ∈ removed, stepDir resolve cfg s ≠ stepDir resolve cfg save.step)
    (h : ActorWhole cfg.worldSize (d.made (stepDir resolve cfg save.step))) :
    Tracked resolve cfg ((d.writeAll (headWrites resolve cfg removed save)).writeAll
      (trackerWrites resolve cfg save)) (some save.step) :=
  ⟨if_pos rfl, policyLoads_head save hne h⟩

theorem tracker_opened (d : Disk Dir) (save : Save) :
    (d.writeAll ((trackerWrites resolve cfg save).take 1)).tracker (resolve cfg.defaultLocalDir) =
      some [] := if_pos rfl

end Head

/-! ## After a save -/

/-- Where a save must not be cut short, in a process that saved before or not. -/
def InWindow (cfg : PPO.TrainerConfig) (savedBefore : Bool) : Interruption → Prop
  | .beforeActor _ | .inActor _ => False
  | .afterActor n =>
      if cfg.maxActorCkptToKeep = some 1 ∧ savedBefore = true then 1 ≤ n ∧ n ≤ 4 else n = 3

section Saves

variable {run : TrainingRun} {steps : List ℤ}
  (hdirs : ∀ s s' : ℤ, stepDir resolve run.cfg s = stepDir resolve run.cfg s' → s = s')
  (hkept : KeptSteps run.cfg steps last) (hnew : ∀ l ∈ last, l < save.step)
include hdirs hkept hnew

omit [DecidableEq Dir] hkept in
theorem stepDir_ne_tracked : ∀ l ∈ last, stepDir resolve run.cfg save.step ≠
    stepDir resolve run.cfg l := by
  intro l hl heq
  exact Int.lt_irrefl l (hdirs _ _ heq ▸ hnew l hl)

omit [DecidableEq Dir] in
theorem stepDir_ne_new : ∀ s ∈ replaced run.cfg steps, stepDir resolve run.cfg s ≠
    stepDir resolve run.cfg save.step := by
  intro s hs heq
  have hs : s ∈ steps := by
    rw [replaced] at hs
    split at hs
    case isTrue => exact hs
    case isFalse => cases hs
  have heq := hdirs _ _ heq
  rcases hkept.newest with rfl | ⟨older, l, rfl, rfl, holder⟩
  · cases hs
  · have hl := hnew l rfl
    rcases List.mem_append.mp hs with hs | hs
    · have hlt := holder s hs
      omega
    · rw [List.mem_singleton.mp hs] at heq
      omega

omit [DecidableEq Dir] in
/-- Until the new policy is whole, the tracked one is left alone. -/
theorem spares_writesBeforeActor : ∀ w ∈ writesBeforeActor resolve run.cfg
    (stepFolders run.cfg steps) save, Spares resolve run.cfg last w := by
  intro w hw
  rw [writesBeforeActor] at hw
  rcases List.mem_append.mp hw with hw | hw
  · -- the steps that go before a save are older than the tracked one
    rw [removeActors, stepFolders, ← List.map_take, List.map_map] at hw
    obtain ⟨s, hs, rfl⟩ := List.mem_map.mp hw
    intro l hl heq
    have heq : s = l := hdirs s l heq
    rcases hkept.newest with rfl | ⟨older, step, rfl, rfl, holder⟩
    · rw [List.take_nil] at hs
      cases hs
    · have hcap := @capacityExcess_lt run.cfg (older ++ [step]) (by simp)
      rw [List.length_append, List.length_singleton] at hcap
      rw [stepFolders] at hcap
      rw [List.take_append_of_le_length (Nat.le_of_lt_succ hcap)] at hs
      have hlt := holder s (List.mem_of_mem_take hs)
      rw [heq] at hlt
      cases hl
      exact Int.lt_irrefl _ hlt
  · rw [List.mem_singleton.mp hw]
    trivial

omit [DecidableEq Dir] hkept in
theorem spares_actorWrites (written : ℕ → ℕ) :
    ∀ w ∈ actorWrites resolve run.cfg save written, Spares resolve run.cfg last w := by
  intro w hw
  obtain ⟨file, piece, rfl⟩ := mem_actorWrites resolve run.cfg hw
  exact stepDir_ne_tracked hdirs hnew

omit [DecidableEq Dir] in
theorem spares_wholeActor : ∀ w ∈ wholeActor resolve run (stepFolders run.cfg steps) save,
    Spares resolve run.cfg last w := by
  intro w hw
  rcases List.mem_append.mp hw with hw | hw
  · exact spares_writesBeforeActor hdirs hkept hnew w hw
  · exact spares_actorWrites hdirs hnew allWritten w hw

end Saves

theorem actorWhole_wholeActor (resolve : Str → Dir) (run : TrainingRun) (previous : List Str)
    (save : Save) (d : Disk Dir) :
    ActorWhole run.cfg.worldSize ((d.writeAll (wholeActor resolve run previous save)).made
      (stepDir resolve run.cfg save.step)) := by
  intro file hfile
  rw [wholeActor, Disk.writeAll_append, made_actorWrites, stepDir, if_pos rfl]
  exact ⟨save, cutActor_allWritten hfile⟩

section Cut

variable {steps removed : List ℤ} {probes : List (Write Dir)}

theorem tracked_cut {k : ℕ} (hk : removed.length + 4 ≤ k)
    (hne : ∀ s ∈ removed, stepDir resolve cfg s ≠ stepDir resolve cfg save.step)
    (hprobes : ∀ w ∈ probes, Spares resolve cfg (some save.step) w)
    (h : ActorWhole cfg.worldSize (d.made (stepDir resolve cfg save.step))) :
    Tracked resolve cfg (d.writeAll
      ((headWrites resolve cfg removed save ++ trackerWrites resolve cfg save ++ probes).take k))
      (some save.step) := by
  have hlen : (headWrites resolve cfg removed save ++ trackerWrites resolve cfg save).length =
      removed.length + 4 := by
    rw [List.length_append, length_headWrites]
    rfl
  rw [List.take_append, List.take_of_length_le (by omega), Disk.writeAll_append,
    Disk.writeAll_append]
  exact tracked_writeAll (tracked_new save hne h)
    (fun w hw => hprobes w (List.mem_of_mem_take hw))

theorem tracker_cut {k : ℕ} (hk : k = removed.length + 3) :
    (d.writeAll ((headWrites resolve cfg removed save ++ trackerWrites resolve cfg save ++
      probes).take k)).tracker (resolve cfg.defaultLocalDir) = some [] := by
  rw [hk, List.append_assoc, List.take_append, length_headWrites,
    List.take_of_length_le (by rw [length_headWrites]; omega), Disk.writeAll_append]
  have hone : removed.length + 3 - (removed.length + 2) = 1 := by omega
  rw [hone, List.take_append_of_le_length (by simp [trackerWrites])]
  exact tracker_opened _ save

omit [DecidableEq Dir] in
theorem take_head {k : ℕ} (hk : k ≤ removed.length + 2) :
    (headWrites resolve cfg removed save ++ trackerWrites resolve cfg save ++ probes).take k =
      (headWrites resolve cfg removed save).take k := by
  rw [List.append_assoc, List.take_append_of_le_length (by rw [length_headWrites]; exact hk)]

omit [DecidableEq Dir] in
/-- With nothing to remove, the writes before the tracker leave the old policy alone. -/
theorem spares_head (hne : ∀ l ∈ last, stepDir resolve cfg save.step ≠ stepDir resolve cfg l) :
    ∀ w ∈ headWrites resolve cfg [] save, Spares resolve cfg last w := by
  intro w hw
  rcases List.mem_cons.mp hw with rfl | hw
  · exact hne
  · rw [List.mem_singleton.mp hw]
    exact hne

/-- The old policy is removed before the tracker names the new one. -/
theorem removed_head {old : ℤ} {k : ℕ} (h : Tracked resolve cfg d (some old))
    (hne : stepDir resolve cfg save.step ≠ stepDir resolve cfg old) (hlow : 1 ≤ k) (hk : k ≤ 3) :
    (d.writeAll ((headWrites resolve cfg [old] save).take k)).tracker
        (resolve cfg.defaultLocalDir) = some (strOfInt old) ∧
      ((d.writeAll ((headWrites resolve cfg [old] save).take k)).folders
        (stepDir resolve cfg old)).isSome = true ∧
      ((d.writeAll ((headWrites resolve cfg [old] save).take k)).made
        (stepDir resolve cfg old)).actor = fun _ => none := by
  obtain ⟨hnamed, hactor, -⟩ := h
  obtain ⟨f, hf⟩ := Option.isSome_iff_exists.mp (isSome_of_actorWhole hactor)
  have hfolder : (d.writeAll ((headWrites resolve cfg [old] save).take k)).folders
      (stepDir resolve cfg old) = some { f with actor := fun _ => none } := by
    obtain rfl | rfl | rfl : k = 1 ∨ k = 2 ∨ k = 3 := by omega
    all_goals
      simp only [headWrites, List.map_cons, List.map_nil, List.cons_append, List.nil_append,
        List.take_succ_cons, List.take_zero, Disk.writeAll, List.foldl_cons, List.foldl_nil,
        Disk.write, Disk.folders_setFolder, if_true, if_neg hne.symm, hf, Option.map_some]
  have htracker : (d.writeAll ((headWrites resolve cfg [old] save).take k)).tracker =
      d.tracker := by
    obtain rfl | rfl | rfl : k = 1 ∨ k = 2 ∨ k = 3 := by omega
    · rfl
    · rfl
    · rfl
  refine ⟨by rw [htracker, hnamed], by rw [hfolder]; rfl, by rw [Disk.made_of_some hfolder]⟩

omit [DecidableEq Dir] in
theorem spares_probeWrites (run : TrainingRun) (save : Save) :
    ∀ w ∈ probeWrites resolve run save, Spares resolve run.cfg last w := by
  intro w hw
  simp only [probeWrites] at hw
  split at hw
  case isTrue =>
    simp only [List.mem_cons, List.not_mem_nil, or_false] at hw
    rcases hw with rfl | rfl
    · trivial
    · trivial
  case isFalse => cases hw

end Cut

/-- Nothing can be loaded if something went wrong, and otherwise the tracker is in order. -/
def ResumesUnless (resolve : Str → Dir) (cfg : PPO.TrainerConfig) (wrong : Prop) (d : Disk Dir) :
    Prop :=
  (wrong → ¬ ∃ r, loadCheckpoint resolve cfg d = .ok r) ∧
    (¬ wrong → ∃ last, Tracked resolve cfg d last)

section Window

variable {old : ℤ} {probes : List (Write Dir)} (hauto : cfg.resumeMode = .auto)
  (hprobes : ∀ w ∈ probes, Spares resolve cfg (some save.step) w) (n : ℕ)
  (hactor : ActorWhole cfg.worldSize (d.made (stepDir resolve cfg save.step)))
include hauto hprobes hactor

theorem resumesUnless_of_none_removed (h : Tracked resolve cfg d last)
    (hne : ∀ l ∈ last, stepDir resolve cfg save.step ≠ stepDir resolve cfg l) :
    ResumesUnless resolve cfg (n = 3) (d.writeAll ((headWrites resolve cfg [] save ++
      trackerWrites resolve cfg save ++ probes).take n)) := by
  obtain hlt | hopened | hgt := Nat.lt_trichotomy n 3
  · rw [take_head (by rw [List.length_nil]; omega)]
    exact ⟨fun hwrong => absurd hwrong (Nat.ne_of_lt hlt),
      fun _ => ⟨last, tracked_take h (spares_head hne) n⟩⟩
  · exact ⟨fun _ => loadCheckpoint_emptied hauto (tracker_cut (by rw [hopened]; rfl)),
      fun hright => absurd hopened hright⟩
  · refine ⟨fun hwrong => absurd hwrong (Nat.ne_of_gt hgt), fun _ => ⟨some save.step, ?_⟩⟩
    exact tracked_cut (by rw [List.length_nil]; omega) (by simp) hprobes hactor

theorem resumesUnless_of_removed (h : Tracked resolve cfg d (some old))
    (hne : stepDir resolve cfg save.step ≠ stepDir resolve cfg old) :
    ResumesUnless resolve cfg (1 ≤ n ∧ n ≤ 4) (d.writeAll ((headWrites resolve cfg [old] save ++
      trackerWrites resolve cfg save ++ probes).take n)) := by
  obtain hzero | hremoved | hopened | hgt : n = 0 ∨ (1 ≤ n ∧ n ≤ 3) ∨ n = 4 ∨ 5 ≤ n := by omega
  · -- only the new policy is written
    rw [hzero, List.take_zero]
    exact ⟨fun hwrong => absurd hwrong.1 (by decide), fun _ => ⟨some old, h⟩⟩
  · rw [take_head (by rw [List.length_singleton]; omega)]
    obtain ⟨hnamed, hthere, hnone⟩ := removed_head h hne hremoved.1 hremoved.2
    exact ⟨fun _ => loadCheckpoint_removed hauto hnamed hthere hnone,
      fun hright => absurd ⟨hremoved.1, by omega⟩ hright⟩
  · exact ⟨fun _ => loadCheckpoint_emptied hauto (tracker_cut (by rw [hopened]; rfl)),
      fun hright => absurd ⟨by omega, by omega⟩ hright⟩
  · refine ⟨fun hwrong => by omega, fun _ => ⟨some save.step, ?_⟩⟩
    refine tracked_cut (by rw [List.length_singleton]; omega) (fun s hs => ?_) hprobes hactor
    rw [List.mem_singleton.mp hs]
    exact hne.symm

end Window

theorem KeptSteps.replaced_eq {steps : List ℤ} (hkept : KeptSteps cfg steps last) :
    replaced cfg steps = [] ∧ ¬ (cfg.maxActorCkptToKeep = some 1 ∧ (!steps.isEmpty) = true) ∨
    (∃ old, replaced cfg steps = [old] ∧ last = some old) ∧
      cfg.maxActorCkptToKeep = some 1 ∧ (!steps.isEmpty) = true := by
  rw [replaced]
  by_cases hone : cfg.maxActorCkptToKeep = some 1
  · rw [if_pos hone]
    rcases hkept.newest with rfl | ⟨older, old, rfl, rfl, -⟩
    · exact Or.inl ⟨rfl, fun hcond => nomatch hcond.2⟩
    · have hlen := hkept.bounded 1 hone Nat.one_pos
      rw [List.length_append, List.length_singleton] at hlen
      have hnil : older = [] := List.length_eq_zero_iff.mp (by omega)
      rw [hnil]
      exact Or.inr ⟨⟨old, rfl, rfl⟩, hone, rfl⟩
  · rw [if_neg hone]
    exact Or.inl ⟨rfl, fun hcond => hone hcond.1⟩

section Interrupted

variable {run : TrainingRun} {steps : List ℤ}
  (hdirs : ∀ s s' : ℤ, stepDir resolve run.cfg s = stepDir resolve run.cfg s' → s = s')
  (hsync : run.cfg.asyncSave = false) (hkept : KeptSteps run.cfg steps last)
  (hnew : ∀ l ∈ last, l < save.step)
include hdirs hsync hkept hnew

theorem tracked_saveCheckpoint : Tracked resolve run.cfg
    (d.writeAll (saveCheckpoint resolve run (stepFolders run.cfg steps) save none))
    (some save.step) := by
  rw [saveCheckpoint, hkept.writesAfterActor_eq save hsync, Disk.writeAll_append]
  have hlen : (replaced run.cfg steps).length + 4 ≤
      (headWrites resolve run.cfg (replaced run.cfg steps) save ++
        trackerWrites resolve run.cfg save ++ probeWrites resolve run save).length := by
    rw [List.length_append, List.length_append, length_headWrites]
    exact Nat.le_add_right _ _
  have hcut := tracked_cut hlen (stepDir_ne_new hdirs hkept hnew) (spares_probeWrites run save)
    (actorWhole_wholeActor resolve run (stepFolders run.cfg steps) save d)
  rw [List.take_length] at hcut
  exact hcut

/-- A save that is cut short leaves something to resume from unless it was cut in the
window. -/
theorem resumesUnless_of_interrupted (hauto : run.cfg.resumeMode = .auto)
    (h : Tracked resolve run.cfg d last) (interruption : Interruption) :
    ResumesUnless resolve run.cfg (InWindow run.cfg (!steps.isEmpty) interruption)
      (d.writeAll (saveCheckpoint resolve run (stepFolders run.cfg steps) save
        (some interruption))) := by
  have hspares := spares_writesBeforeActor hdirs hkept hnew
  cases interruption with
  | beforeActor n =>
      exact ⟨fun hwrong => absurd hwrong id, fun _ => ⟨last, tracked_take h hspares n⟩⟩
  | inActor written =>
      rw [saveCheckpoint, Disk.writeAll_append]
      exact ⟨fun hwrong => absurd hwrong id, fun _ => ⟨last,
        tracked_writeAll (tracked_writeAll h hspares) (spares_actorWrites hdirs hnew written)⟩⟩
  | afterActor n =>
      have hbefore := tracked_writeAll h (spares_wholeActor hdirs hkept hnew)
      have hactor := actorWhole_wholeActor resolve run (stepFolders run.cfg steps) save d
      rw [saveCheckpoint, hkept.writesAfterActor_eq save hsync, Disk.writeAll_append, InWindow]
      rcases hkept.replaced_eq with ⟨hnil, hcond⟩ | ⟨⟨old, hold, rfl⟩, hcond⟩
      · rw [hnil, if_neg hcond]
        exact resumesUnless_of_none_removed hauto (spares_probeWrites run save) n hactor hbefore
          (stepDir_ne_tracked hdirs hnew)
      · rw [hold, if_pos hcond]
        exact resumesUnless_of_removed hauto (spares_probeWrites run save) n hactor hbefore
          (stepDir_ne_tracked hdirs hnew old rfl)

end Interrupted

/-! ## After a process -/

/-- A process was killed where a save must not be cut short. -/
def KilledInWindow (cfg : PPO.TrainerConfig) : Bool → List (ℤ × Option Interruption) → Prop
  | _, [] => False
  | savedBefore, (_, some interruption) :: _ => InWindow cfg savedBefore interruption
  | _, (_, none) :: saves => KilledInWindow cfg true saves

section Process

variable {run : TrainingRun} (hauto : run.cfg.resumeMode = .auto)
  (hsync : run.cfg.asyncSave = false)
  (hdirs : ∀ s s' : ℤ, stepDir resolve run.cfg s = stepDir resolve run.cfg s' → s = s')
include hauto hsync hdirs

omit hauto hsync hdirs [DecidableEq Dir] in
theorem after_of_later {saves : List (ℤ × Option Interruption)} {step : ℤ}
    (hlater : ∀ s ∈ saves, step < s.1) : ∀ s ∈ saves, ∀ l ∈ some step, l < s.1 := by
  intro s hs l hl
  cases hl
  exact hlater s hs

theorem resumesUnless_runSaves {saves : List (ℤ × Option Interruption)} {steps : List ℤ}
    (hkept : KeptSteps run.cfg steps last) (hafter : ∀ s ∈ saves, ∀ l ∈ last, l < s.1)
    (hascending : saves.Pairwise (fun s s' => s.1 < s'.1)) (h : Tracked resolve run.cfg d last) :
    ResumesUnless resolve run.cfg (KilledInWindow run.cfg (!steps.isEmpty) saves)
      (runSaves resolve run (stepFolders run.cfg steps) saves d) := by
  induction saves generalizing steps last d with
  | nil => exact ⟨fun hwrong => absurd hwrong id, fun _ => ⟨last, h⟩⟩
  | cons s saves ih =>
      obtain ⟨step, interruption⟩ := s
      obtain ⟨hlater, hrest⟩ := List.pairwise_cons.mp hascending
      have hcounted : Tracked resolve run.cfg { d with saves := d.saves + 1 } last := by
        cases last with
        | none => exact h
        | some l => exact h
      have hnew : ∀ l ∈ last, l < (Save.mk d.saves step run.probeEnabled).step :=
        hafter _ List.mem_cons_self
      cases interruption with
      | some interruption =>
          exact resumesUnless_of_interrupted hdirs hsync hkept hnew hauto hcounted interruption
      | none =>
          have hsaved : Tracked resolve run.cfg (Disk.writeAll { d with saves := d.saves + 1 }
              (saveCheckpoint resolve run (stepFolders run.cfg steps)
                ⟨d.saves, step, run.probeEnabled⟩ none)) (some step) :=
            tracked_saveCheckpoint hdirs hsync hkept hnew
          obtain ⟨steps', hfolders, hsome, hkept'⟩ := hkept.keptAfter _ hnew
          have hresumes := ih hkept' (after_of_later hlater) hrest hsaved
          rw [hsome, ← hfolders] at hresumes
          rw [runSaves, KilledInWindow]
          exact hresumes

/-- After a process that saved at ascending steps, the next one finds something to resume
from exactly if it was not killed in the window; then the tracker is in order again. -/
theorem resume_after_crash_iff (hd : Tracked resolve run.cfg d last)
    (hafter : ∀ s ∈ run.saves, ∀ l ∈ last, l < s.1)
    (hascending : run.saves.Pairwise (fun s s' => s.1 < s'.1)) :
    ((∃ r, loadCheckpoint resolve run.cfg (runSaves resolve run [] run.saves d) = .ok r) ↔
        ¬ KilledInWindow run.cfg false run.saves) ∧
      (¬ KilledInWindow run.cfg false run.saves →
        ∃ last', Tracked resolve run.cfg (runSaves resolve run [] run.saves d) last') := by
  obtain ⟨hwrong, hright⟩ :
      ResumesUnless resolve run.cfg (KilledInWindow run.cfg false run.saves)
        (runSaves resolve run [] run.saves d) :=
    resumesUnless_runSaves hauto hsync hdirs (keptSteps_nil run.cfg last) hafter hascending hd
  refine ⟨⟨fun hload hkilled => hwrong hkilled hload, fun hsafe => ?_⟩, hright⟩
  obtain ⟨last', htracked⟩ := hright hsafe
  obtain ⟨policy, hload⟩ := loadCheckpoint_tracked hauto htracked
  exact ⟨_, hload⟩

end Process

/-- A process that keeps one checkpoint and is killed in its second save, right after the
register removed the first one. -/
def killedRun : TrainingRun where
  cfg := { defaultLocalDir := "/ckpt".toList, maxActorCkptToKeep := some 1 }
  probeEnabled := false
  saves := [(10, none), (20, some (.afterActor 1))]

theorem stepDir_inj (s s' : ℤ) (h : stepDir id killedRun.cfg s = stepDir id killedRun.cfg s') :
    s = s' := by
  have hread := congrArg (fun folder => intOfStr (stepText folder)) h
  dsimp only [stepDir, id] at hread
  rw [intOfStr_stepText, intOfStr_stepText] at hread
  exact Option.some.inj hread

/-- There is a whole policy of step 20, but the tracker still names step 10. -/
theorem resume_after_crash_iff_oneKept :
    ¬ ∃ r, loadCheckpoint id killedRun.cfg
      (runSaves id killedRun [] killedRun.saves Disk.empty) = .ok r := by
  have hauto : killedRun.cfg.resumeMode = .auto := rfl
  have hd : Tracked id killedRun.cfg Disk.empty none := rfl
  have hiff := (resume_after_crash_iff hauto rfl stepDir_inj hd (fun s _ l hl => nomatch hl)
    (by decide)).1
  rw [hiff, not_not]
  exact ⟨by decide, by decide⟩

/-! ## One process after another -/

/-- A process in the default directory, on as many ranks, that saves at ascending steps, behind
the one it resumed from, and is not killed in the window. -/
structure SafeProcess (resolve : Str → Dir) (cfg : PPO.TrainerConfig) (run : TrainingRun)
    (d : Disk Dir) : Prop where
  dir : run.cfg.defaultLocalDir = cfg.defaultLocalDir
  worldSize : run.cfg.worldSize = cfg.worldSize
  auto : run.cfg.resumeMode = .auto
  sync : run.cfg.asyncSave = false
  behind : ∀ r, resume resolve run d = .ok r → ∀ s ∈ run.saves, r.globalSteps < s.1
  ascending : run.saves.Pairwise (fun s s' => s.1 < s'.1)
  safe : ¬ KilledInWindow run.cfg false run.saves

def SafeHistory (resolve : Str → Dir) (cfg : PPO.TrainerConfig) :
    List TrainingRun → Disk Dir → Prop
  | [], _ => True
  | run :: runs, d =>
      SafeProcess resolve cfg run d ∧ SafeHistory resolve cfg runs (trainingRun resolve run d).2

/-- The error of a probe that was cut short. -/
def tornProbe : Error := .runtimeError "could not load the probe"

section History

omit [DecidableEq Dir] in
theorem Tracked.of_dir {cfg' : PPO.TrainerConfig}
    (hdir : cfg.defaultLocalDir = cfg'.defaultLocalDir) (hsize : cfg.worldSize = cfg'.worldSize)
    (h : Tracked resolve cfg d last) : Tracked resolve cfg' d last := by
  cases last with
  | none =>
      rw [Tracked, ← hdir]
      exact h
  | some step =>
      rw [Tracked, stepDir, ← hdir, ← hsize]
      exact h

variable {run : TrainingRun}

omit [DecidableEq Dir] in
/-- From a disk in order a process resumes, or only its probe was cut short. -/
theorem resume_tracked (hauto : run.cfg.resumeMode = .auto)
    (h : Tracked resolve run.cfg d last) :
    (∃ policy probe, resume resolve run d = .ok ⟨last.getD 0, policy, probe⟩) ∨
      resume resolve run d = .error tornProbe := by
  obtain ⟨policy, hload⟩ := loadCheckpoint_tracked hauto h
  rw [resume, hload, ok_bind]
  dsimp only
  unfold tryLoadProbeCheckpoint
  split
  case isTrue =>
    split
    case h_1 => exact Or.inl ⟨policy, _, rfl⟩
    case h_2 => exact Or.inr rfl
    case h_3 => exact Or.inl ⟨policy, _, rfl⟩
  case isFalse => exact Or.inl ⟨policy, _, rfl⟩

omit [DecidableEq Dir] in
theorem stepDir_inj_of_dir (hdir : run.cfg.defaultLocalDir = cfg.defaultLocalDir)
    (hdirs : ∀ s s' : ℤ, stepDir resolve cfg s = stepDir resolve cfg s' → s = s') :
    ∀ s s' : ℤ, stepDir resolve run.cfg s = stepDir resolve run.cfg s' → s = s' := by
  intro s s'
  rw [stepDir, stepDir, hdir]
  exact hdirs s s'

omit [DecidableEq Dir] in
theorem SafeProcess.after (hrun : SafeProcess resolve cfg run d) {policy : Option (List Save)}
    {probe : ProbeStart} (hresume : resume resolve run d = .ok ⟨last.getD 0, policy, probe⟩) :
    ∀ s ∈ run.saves, ∀ l ∈ last, l < s.1 := by
  intro s hs l hl
  have hbehind := hrun.behind _ hresume s hs
  cases hl
  exact hbehind

theorem tracked_trainingRun
    (hdirs : ∀ s s' : ℤ, stepDir resolve cfg s = stepDir resolve cfg s' → s = s')
    (hrun : SafeProcess resolve cfg run d) (h : Tracked resolve cfg d last) :
    ∃ last', Tracked resolve cfg (trainingRun resolve run d).2 last' := by
  have hown : Tracked resolve run.cfg d last := h.of_dir hrun.dir.symm hrun.worldSize.symm
  rcases resume_tracked hrun.auto hown with ⟨policy, probe, hresume⟩ | herror
  · obtain ⟨last', hlast'⟩ := (resumesUnless_runSaves hrun.auto hrun.sync
      (stepDir_inj_of_dir hrun.dir hdirs) (keptSteps_nil run.cfg last) (hrun.after hresume)
      hrun.ascending hown).2 hrun.safe
    rw [trainingRun, hresume]
    exact ⟨last', hlast'.of_dir hrun.dir hrun.worldSize⟩
  · rw [trainingRun, herror]
    exact ⟨last, h⟩

/-- Across any number of restarts, every process finds something to resume from, except
that its probe may have been cut short. -/
theorem history_resumes
    (hdirs : ∀ s s' : ℤ, stepDir resolve cfg s = stepDir resolve cfg s' → s = s')
    (runs : List TrainingRun) (h : Tracked resolve cfg d last)
    (hsafe : SafeHistory resolve cfg runs d) :
    ∀ r ∈ history resolve runs d, (∃ resumed, r = .ok resumed) ∨ r = .error tornProbe := by
  induction runs generalizing d last with
  | nil =>
      intro r hr
      cases hr
  | cons run runs ih =>
      obtain ⟨hrun, hrest⟩ := hsafe
      intro r hr
      rcases List.mem_cons.mp hr with rfl | hr
      · unfold trainingRun
        rcases resume_tracked hrun.auto (h.of_dir hrun.dir.symm hrun.worldSize.symm) with
          ⟨policy, probe, hresume⟩ | herror
        · rw [hresume]
          exact Or.inl ⟨_, rfl⟩
        · rw [herror]
          exact Or.inr rfl
      · obtain ⟨last', hlast'⟩ := tracked_trainingRun hdirs hrun h
        exact ih hlast' hrest r hr

end History

/-- A process that keeps one checkpoint and is killed before the policy of its second save
is whole, the one that goes on, and the one after. -/
def restartedRuns : List TrainingRun :=
  [{ killedRun with saves := [(10, none), (20, some (.inActor (fun _ => 3)))] },
    { killedRun with saves := [(20, none)] }, { killedRun with saves := [] }]

theorem safeProcess_of_resume {d : Disk Str} {saves : List (ℤ × Option Interruption)} {r : Resumed}
    (hresume : resume id { killedRun with saves } d = .ok r)
    (hbehind : ∀ s ∈ saves, r.globalSteps < s.1)
    (hascending : saves.Pairwise (fun s s' => s.1 < s'.1))
    (hsafe : ¬ KilledInWindow killedRun.cfg false saves) :
    SafeProcess id killedRun.cfg { killedRun with saves } d where
  dir := rfl
  worldSize := rfl
  auto := rfl
  sync := rfl
  behind := by
    intro r' hr'
    rw [hresume] at hr'
    cases hr'
    exact hbehind
  ascending := hascending
  safe := hsafe

/-- The second process goes on from step 10, the third from step 20. -/
theorem history_resumes_restarted :
    history id restartedRuns Disk.empty =
        [.ok ⟨0, none, .noProbe⟩, .ok ⟨10, some (List.replicate 3 ⟨0, 10, false⟩), .noProbe⟩,
          .ok ⟨20, some (List.replicate 3 ⟨2, 20, false⟩), .noProbe⟩] ∧
      ∀ r ∈ history id restartedRuns Disk.empty,
        (∃ resumed, r = .ok resumed) ∨ r = .error tornProbe := by
  have hd : Tracked id killedRun.cfg Disk.empty none := rfl
  refine ⟨by decide +kernel, history_resumes stepDir_inj restartedRuns hd ⟨?_, ?_, ?_, trivial⟩⟩
  · exact safeProcess_of_resume (r := ⟨0, none, .noProbe⟩) (by decide +kernel) (by decide)
      (by decide) id
  · exact safeProcess_of_resume (r := ⟨10, some (List.replicate 3 ⟨0, 10, false⟩), .noProbe⟩)
      (by decide +kernel) (by decide) (by decide) id
  · exact safeProcess_of_resume (r := ⟨20, some (List.replicate 3 ⟨2, 20, false⟩), .noProbe⟩)
      (by decide +kernel) (by decide) (by decide) id

end RLCM.ForcedOutput
