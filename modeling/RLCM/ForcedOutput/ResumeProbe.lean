/-
# `RLCM.ForcedOutput.ResumeProbe` — resuming with the probe after a save that was cut short

The probe is written behind the tracker.  So there are two more places where a process with
a probe must not be killed: from the tracker on until `probe.pt` is opened, the tracker names a
policy without its own probe; then, until the probe is whole, it names one whose probe cannot be
loaded, and every later process with a probe ends at once.

Without a kill in the second place no probe is cut short (`ProbesLoad`), and whether a process can
be started depends on the window of the policy only (`resume_returns_iff`).  Without a kill in
either, and only then, it goes on with policy and probe of one save (`resume_whole_iff`); the disk
is in order again (`InOrder`), so this holds of process after process (`history_all_together`).
-/
import RLCM.ForcedOutput.ResumeSafety

namespace RLCM.ForcedOutput

open Py PPO

variable {Dir : Type} [DecidableEq Dir] {resolve : Str → Dir} {cfg : PPO.TrainerConfig}
  {run : TrainingRun} {d : Disk Dir} {last : Option ℤ} {save : Save} {step : ℤ}

/-! ## Probes that are whole -/

def ProbeLoads (f : StepFolder) : Prop := f.probe ≠ some .torn

/-- No probe of the disk is cut short. -/
def ProbesLoad (d : Disk Dir) : Prop := ∀ dir, ProbeLoads (d.made dir)

def NoProbe : Write Dir → Prop
  | .probe _ _ => False
  | _ => True

section Writes

omit [DecidableEq Dir] in
theorem Quiet.noProbe {w : Write Dir} (hw : Quiet w) : NoProbe w := by
  cases w with
  | probe folder piece => cases hw
  | _ => trivial

theorem NoProbe.change_probe {w : Write Dir} (hw : NoProbe w) (dir : Dir) (f : StepFolder) :
    (w.change dir f).probe = f.probe := by
  cases w with
  | mkdir folder => rfl
  | actor folder file piece =>
      rw [Write.change]
      split
      case isTrue => rfl
      case isFalse => rfl
  | removeActor folder =>
      rw [Write.change]
      split
      case isTrue => rfl
      case isFalse => rfl
  | dataloader folder piece =>
      rw [Write.change]
      split
      case isTrue => rfl
      case isFalse => rfl
  | probe folder piece => cases hw
  | tracker dir' text => rfl

theorem made_probe_writeAll {writes : List (Write Dir)} (hw : ∀ w ∈ writes, NoProbe w)
    (d : Disk Dir) (dir : Dir) : ((d.writeAll writes).made dir).probe = (d.made dir).probe :=
  Disk.made_writeAll_of_keeps (P := fun f => f.probe = (d.made dir).probe)
    (fun w hmem f hf => ((hw w hmem).change_probe dir f).trans hf) rfl

omit [DecidableEq Dir] in
theorem noProbe_wholeActor (resolve : Str → Dir) (run : TrainingRun) (previous : List Str)
    (save : Save) : ∀ w ∈ wholeActor resolve run previous save, NoProbe w := by
  intro w hw
  rcases List.mem_append.mp hw with hw | hw
  · exact (quiet_writesBeforeActor resolve run.cfg previous save w hw).noProbe
  · obtain ⟨file, piece, rfl⟩ := mem_actorWrites resolve run.cfg hw
    trivial

omit [DecidableEq Dir] in
theorem noProbe_writesAfterActor (resolve : Str → Dir) (cfg : PPO.TrainerConfig)
    (previous : List Str) (save : Save) :
    ∀ w ∈ writesAfterActor resolve cfg previous save, NoProbe w :=
  fun w hw => (quiet_writesAfterActor resolve cfg previous save w hw).noProbe

omit [DecidableEq Dir] in
theorem mem_probeWrites {w : Write Dir} (hw : w ∈ probeWrites resolve run save) :
    ∃ piece, w = .probe (stepDir resolve run.cfg save.step) piece := by
  rw [probeWrites] at hw
  split at hw
  case isTrue =>
    rcases List.mem_cons.mp hw with rfl | hw
    · exact ⟨_, rfl⟩
    · exact ⟨_, List.mem_singleton.mp hw⟩
  case isFalse => cases hw

theorem made_probeWrites (resolve : Str → Dir) (run : TrainingRun) (save : Save) (d : Disk Dir)
    (n : ℕ) (dir : Dir) :
    ((d.writeAll ((probeWrites resolve run save).take n)).made dir).probe =
      if run.probeEnabled = true ∧ dir = stepDir resolve run.cfg save.step then
        cutPiece save (d.made dir).probe n else (d.made dir).probe := by
  unfold probeWrites
  cases run.probeEnabled with
  | false => simp [Disk.writeAll]
  | true =>
      by_cases hdir : dir = stepDir resolve run.cfg save.step
      · rcases n with _ | _ | n
        · simp [Disk.writeAll, cutPiece]
        · simp [Disk.writeAll, Disk.made_write, Write.change, cutPiece, hdir]
        · simp [Disk.writeAll, Disk.made_write, Write.change, cutPiece, hdir]
      · rcases n with _ | _ | n
        · simp [Disk.writeAll, hdir]
        · simp [Disk.writeAll, Disk.made_write, Write.change, hdir]
        · simp [Disk.writeAll, Disk.made_write, Write.change, hdir]

end Writes

/-! ## A save, as far as it comes -/

/-- How many writes of its probe a save has come to, behind so many others. -/
def probeProgress (tail : ℕ) : Option Interruption → ℕ
  | some (.beforeActor _) | some (.inActor _) => 0
  | some (.afterActor n) => n - tail
  | none => 2

/-- A save changes no probe but its own. -/
theorem made_saveCheckpoint_probe (resolve : Str → Dir) (run : TrainingRun) (previous : List Str)
    (save : Save) (d : Disk Dir) (interruption : Option Interruption) (dir : Dir) :
    ((d.writeAll (saveCheckpoint resolve run previous save interruption)).made dir).probe =
      if run.probeEnabled = true ∧ dir = stepDir resolve run.cfg save.step then
        cutPiece save (d.made dir).probe (probeProgress
          (writesAfterActor resolve run.cfg previous save).length interruption)
      else (d.made dir).probe := by
  have hbefore := noProbe_wholeActor resolve run previous save
  have hafter := noProbe_writesAfterActor resolve run.cfg previous save
  have hearly : ∀ writes : List (Write Dir), (∀ w ∈ writes, NoProbe w) →
      ((d.writeAll writes).made dir).probe =
        if run.probeEnabled = true ∧ dir = stepDir resolve run.cfg save.step then
          cutPiece save (d.made dir).probe 0 else (d.made dir).probe := by
    intro writes hwrites
    rw [made_probe_writeAll hwrites, cutPiece, ite_self]
  -- cut among the writes after the actor
  have hlate : ∀ n, ((d.writeAll (wholeActor resolve run previous save ++
      (writesAfterActor resolve run.cfg previous save ++
        probeWrites resolve run save).take n)).made dir).probe =
      if run.probeEnabled = true ∧ dir = stepDir resolve run.cfg save.step then
        cutPiece save (d.made dir).probe
          (n - (writesAfterActor resolve run.cfg previous save).length)
      else (d.made dir).probe := by
    intro n
    rw [List.take_append, Disk.writeAll_append, Disk.writeAll_append, made_probeWrites,
      made_probe_writeAll (fun w hw => hafter w (List.mem_of_mem_take hw)),
      made_probe_writeAll hbefore]
  cases interruption with
  | none =>
      have hlength : (probeWrites resolve run save).length ≤ 2 := by
        rw [probeWrites]
        split
        case isTrue => exact le_refl _
        case isFalse => exact Nat.zero_le _
      have hall := hlate ((writesAfterActor resolve run.cfg previous save).length + 2)
      rw [List.take_of_length_le (by rw [List.length_append]; omega),
        Nat.add_sub_cancel_left] at hall
      exact hall
  | some i =>
      cases i with
      | beforeActor n =>
          exact hearly _ (fun w hw =>
            (quiet_writesBeforeActor resolve run.cfg previous save w
              (List.mem_of_mem_take hw)).noProbe)
      | inActor written =>
          refine hearly _ (fun w hw => ?_)
          rcases List.mem_append.mp hw with hw | hw
          · exact (quiet_writesBeforeActor resolve run.cfg previous save w hw).noProbe
          · obtain ⟨file, piece, rfl⟩ := mem_actorWrites resolve run.cfg hw
            trivial
      | afterActor n => exact hlate n

theorem probesLoad_saveCheckpoint (h : ProbesLoad d) (previous : List Str)
    {interruption : Option Interruption}
    (hnot : run.probeEnabled = true → probeProgress
      (writesAfterActor resolve run.cfg previous save).length interruption ≠ 1) :
    ProbesLoad (d.writeAll (saveCheckpoint resolve run previous save interruption)) := by
  intro dir htorn
  rw [made_saveCheckpoint_probe] at htorn
  split at htorn
  case isTrue hown =>
    have hone := hnot hown.1
    generalize probeProgress (writesAfterActor resolve run.cfg previous save).length
      interruption = n at htorn hone
    rcases n with _ | _ | n
    · exact h dir htorn
    · exact hone rfl
    · cases htorn
  case isFalse => exact h dir htorn

/-! ## Where a kill takes the probe -/

/-- How many writes of a save come between the actor and the probe, the tracker's the last. -/
def tailLength (cfg : PPO.TrainerConfig) (savedBefore : Bool) : ℕ :=
  if cfg.maxActorCkptToKeep = some 1 ∧ savedBefore = true then 5 else 4

/-- The cut between the two writes of the probe. -/
def OpensProbe (run : TrainingRun) (savedBefore : Bool) : Interruption → Prop
  | .beforeActor _ | .inActor _ => False
  | .afterActor n => run.probeEnabled = true ∧ n = tailLength run.cfg savedBefore + 1

/-- The cut behind the tracker, when the probe is not whole yet. -/
def BehindTracker (run : TrainingRun) (savedBefore : Bool) : Interruption → Prop
  | .beforeActor _ | .inActor _ => False
  | .afterActor n => run.probeEnabled = true ∧
      (n = tailLength run.cfg savedBefore ∨ n = tailLength run.cfg savedBefore + 1)

def PastTracker (cfg : PPO.TrainerConfig) (savedBefore : Bool) : Interruption → Prop
  | .beforeActor _ | .inActor _ => False
  | .afterActor n => tailLength cfg savedBefore ≤ n

/-- A process was killed when it had opened `probe.pt`. -/
def KilledAtProbe (run : TrainingRun) : Bool → List (ℤ × Option Interruption) → Prop
  | _, [] => False
  | savedBefore, (_, some interruption) :: _ => OpensProbe run savedBefore interruption
  | _, (_, none) :: saves => KilledAtProbe run true saves

/-- A process was killed when the tracker was written, and the probe was not whole. -/
def KilledBehindTracker (run : TrainingRun) : Bool → List (ℤ × Option Interruption) → Prop
  | _, [] => False
  | savedBefore, (_, some interruption) :: _ => BehindTracker run savedBefore interruption
  | _, (_, none) :: saves => KilledBehindTracker run true saves

section Cuts

variable {savedBefore : Bool} {interruption : Interruption}

theorem opensProbe_iff : OpensProbe run savedBefore interruption ↔ run.probeEnabled = true ∧
    probeProgress (tailLength run.cfg savedBefore) (some interruption) = 1 := by
  cases interruption with
  | beforeActor n => simp [OpensProbe, probeProgress]
  | inActor written => simp [OpensProbe, probeProgress]
  | afterActor n =>
      refine and_congr_right (fun _ => ?_)
      rw [probeProgress]
      omega

theorem OpensProbe.behindTracker (h : OpensProbe run savedBefore interruption) :
    BehindTracker run savedBefore interruption := by
  cases interruption with
  | beforeActor n => cases h
  | inActor written => cases h
  | afterActor n => exact ⟨h.1, Or.inr h.2⟩

theorem behindTracker_iff : BehindTracker run savedBefore interruption ↔
    run.probeEnabled = true ∧ PastTracker run.cfg savedBefore interruption ∧
      probeProgress (tailLength run.cfg savedBefore) (some interruption) < 2 := by
  cases interruption with
  | beforeActor n => simp [BehindTracker, PastTracker]
  | inActor written => simp [BehindTracker, PastTracker]
  | afterActor n =>
      refine and_congr_right (fun _ => ?_)
      rw [PastTracker, probeProgress]
      omega

omit [DecidableEq Dir] in
theorem length_writesAfterActor {steps : List ℤ} (hsync : run.cfg.asyncSave = false)
    (hkept : KeptSteps run.cfg steps last) (resolve : Str → Dir) (save : Save) :
    (writesAfterActor resolve run.cfg (stepFolders run.cfg steps) save).length =
      tailLength run.cfg (!steps.isEmpty) := by
  rw [hkept.writesAfterActor_eq save hsync, List.length_append, length_headWrites, tailLength]
  rcases hkept.replaced_eq with ⟨hnil, hcond⟩ | ⟨⟨old, hold, -⟩, hcond⟩
  · rw [hnil, if_neg hcond]
    rfl
  · rw [hold, if_pos hcond]
    rfl

end Cuts

/-! ## What resuming finds -/

section Resume

variable (hauto : run.cfg.resumeMode = .auto)
include hauto

omit [DecidableEq Dir] in
theorem resumesInPlace_of_auto : run.ResumesInPlace resolve := by
  intro _ hmode
  rw [hauto] at hmode
  cases hmode

omit [DecidableEq Dir] in
/-- From a disk in order a process goes on from the tracked step, if the probe can be loaded. -/
theorem resume_returns (h : Tracked resolve run.cfg d last)
    (hloads : ProbeLoads (d.made (stepDir resolve run.cfg (last.getD 0)))) :
    ∃ r, resume resolve run d = .ok r ∧ r.globalSteps = last.getD 0 := by
  obtain ⟨policy, hload⟩ := loadCheckpoint_tracked hauto h
  obtain ⟨probe, hprobe⟩ : ∃ probe,
      tryLoadProbeCheckpoint resolve run (last.getD 0) d = .ok probe := by
    unfold tryLoadProbeCheckpoint
    split
    case isTrue =>
      split
      case h_1 => exact ⟨_, rfl⟩
      case h_2 htorn =>
        obtain ⟨f, hf, hprobe⟩ := Option.bind_eq_some_iff.mp htorn
        rw [Disk.made_of_some hf] at hloads
        exact absurd hprobe hloads
      case h_3 => exact ⟨_, rfl⟩
    case isFalse => exact ⟨_, rfl⟩
  rw [resume, hload, ok_bind]
  dsimp only
  rw [hprobe]
  exact ⟨_, rfl, rfl⟩

omit [DecidableEq Dir] in
theorem not_resumes_of_torn (h : Tracked resolve run.cfg d (some step))
    (hprobe : run.probeEnabled = true)
    (htorn : (d.made (stepDir resolve run.cfg step)).probe = some .torn) :
    ¬ ∃ r, resume resolve run d = .ok r := by
  rintro ⟨r, hr⟩
  obtain ⟨⟨step', policy⟩, hload, hr⟩ := bind_eq_ok.mp hr
  obtain ⟨probe, htry, -⟩ := bind_eq_ok.mp hr
  obtain ⟨hstep, -⟩ := loadCheckpoint_tracked_some hauto h hload
  dsimp only at hstep
  subst hstep
  exact (tryLoadProbeCheckpoint_eq resolve hprobe htry).1 htorn

omit [DecidableEq Dir] in
theorem not_together_of_tracked (h : Tracked resolve run.cfg d (some step))
    (hprobe : run.probeEnabled = true) (hsave : save.probeEnabled = true)
    (hactor : ∀ file ∈ actorFiles run.cfg.worldSize,
      (d.made (stepDir resolve run.cfg step)).actor file = some (.whole save))
    (hother : (d.made (stepDir resolve run.cfg step)).probe ≠ some (.whole save)) {r : Resumed}
    (hr : resume resolve run d = .ok r) : ¬ Together r := by
  obtain ⟨⟨step', policy⟩, hload, hr⟩ := bind_eq_ok.mp hr
  obtain ⟨probe, htry, hr⟩ := bind_eq_ok.mp hr
  obtain ⟨hstep, saves, hsaves, hfiles⟩ := loadCheckpoint_tracked_some hauto h hload
  dsimp only at hstep hsaves
  subst hstep hsaves
  obtain rfl := Except.ok.inj hr
  obtain ⟨-, henabled, hrestored⟩ := tryLoadProbeCheckpoint_eq resolve hprobe htry
  obtain ⟨file, hfile⟩ := exists_actorFile run.cfg
  obtain ⟨save', hmem, hloaded⟩ := hfiles file hfile
  rw [hactor file hfile] at hloaded
  obtain rfl := Piece.whole.inj (Option.some.inj hloaded)
  exact not_together rfl hmem hsave henabled hmem
    (Or.inl (fun heq => hother ((hrestored save).mpr heq)))

omit [DecidableEq Dir] in
theorem together_of_tracked (h : Tracked resolve run.cfg d last)
    (hloads : ProbeLoads (d.made (stepDir resolve run.cfg (last.getD 0))))
    (hpaired : ∀ step ∈ last,
      PairedActor run.cfg.worldSize (d.made (stepDir resolve run.cfg step))) :
    ∃ r, resume resolve run d = .ok r ∧ Together r := by
  obtain ⟨r, hr, hsteps⟩ := resume_returns hauto h hloads
  refine ⟨r, hr, ?_⟩
  cases last with
  | none =>
      have hnone : d.tracker (resolve run.cfg.defaultLocalDir) = none := h
      obtain ⟨⟨step, policy⟩, hload, hrest⟩ := bind_eq_ok.mp hr
      obtain ⟨_, -, hrest⟩ := bind_eq_ok.mp hrest
      obtain rfl := Except.ok.inj hrest
      rw [loadCheckpoint, resumeFolder_auto hauto, findLatestCkptPath, hnone] at hload
      cases hload
      intro policy hpolicy
      cases hpolicy
  | some step =>
      refine together_of_pairedActor resolve (resumesInPlace_of_auto hauto) hr
        (fun step' _ hstep' _ => ?_)
      rw [hsteps] at hstep'
      rw [← hstep']
      exact hpaired step rfl

end Resume

/-! ## A disk in order -/

/-- The tracker is in order, no probe is cut short, the tracked policy is beside its probe, and
the saves have been counted. -/
structure InOrder (resolve : Str → Dir) (cfg : PPO.TrainerConfig) (d : Disk Dir)
    (last : Option ℤ) : Prop where
  tracked : Tracked resolve cfg d last
  loads : ProbesLoad d
  paired : ∀ step ∈ last, PairedActor cfg.worldSize (d.made (stepDir resolve cfg step))
  counted : ∀ dir save, (d.made dir).probe = some (.whole save) → save.number < d.saves

omit [DecidableEq Dir] in
theorem inOrder_empty (resolve : Str → Dir) (cfg : PPO.TrainerConfig) :
    InOrder resolve cfg Disk.empty none where
  tracked := rfl
  loads := fun _ htorn => by cases htorn
  paired := fun _ hstep => by cases hstep
  counted := fun _ _ hprobe => by cases hprobe

omit [DecidableEq Dir] in
theorem InOrder.resumes (h : InOrder resolve run.cfg d last) (hauto : run.cfg.resumeMode = .auto) :
    ∃ r, resume resolve run d = .ok r ∧ Together r :=
  together_of_tracked hauto h.tracked (h.loads _) h.paired

theorem Spares.change_actor {w : Write Dir} (hw : Spares resolve cfg last w) (hstep : step ∈ last)
    (f : StepFolder) : (w.change (stepDir resolve cfg step) f).actor = f.actor := by
  cases w with
  | mkdir folder => rfl
  | actor folder file piece => rw [Write.change, if_neg (fun heq => hw step hstep heq.symm)]
  | removeActor folder => rw [Write.change, if_neg (fun heq => hw step hstep heq.symm)]
  | dataloader folder piece => rw [Write.change, if_neg (fun heq => hw step hstep heq.symm)]
  | probe folder piece =>
      rw [Write.change]
      split
      case isTrue => rfl
      case isFalse => rfl
  | tracker dir text => cases hw

theorem InOrder.spared (h : InOrder resolve cfg d last) {writes : List (Write Dir)}
    (hw : ∀ w ∈ writes, Spares resolve cfg last w ∧ NoProbe w) :
    InOrder resolve cfg (d.writeAll writes) last := by
  have hprobe := fun dir => made_probe_writeAll (fun w hmem => (hw w hmem).2) d dir
  refine ⟨tracked_writeAll h.tracked (fun w hmem => (hw w hmem).1), fun dir => ?_,
    fun step hstep => ?_, fun dir save hwhole => ?_⟩
  · rw [ProbeLoads, hprobe]
    exact h.loads dir
  · have hactor : ((d.writeAll writes).made (stepDir resolve cfg step)).actor =
        (d.made (stepDir resolve cfg step)).actor :=
      Disk.made_writeAll_of_keeps
        (P := fun f => f.actor = (d.made (stepDir resolve cfg step)).actor)
        (fun w hmem f hf => ((hw w hmem).1.change_actor hstep f).trans hf) rfl
    have hpaired := h.paired step hstep
    unfold PairedActor at hpaired ⊢
    rw [hactor, hprobe]
    exact hpaired
  · rw [hprobe] at hwhole
    rw [Disk.saves_writeAll]
    exact h.counted dir save hwhole

section Interrupted

variable {steps : List ℤ}
  (hdirs : ∀ s s' : ℤ, stepDir resolve run.cfg s = stepDir resolve run.cfg s' → s = s')
  (hsync : run.cfg.asyncSave = false) (hkept : KeptSteps run.cfg steps last)
  (hnew : ∀ l ∈ last, l < save.step)
include hdirs hsync hkept hnew

omit [DecidableEq Dir] in
/-- Cut before the tracker and outside the window, a save leaves the tracked policy and all
probes alone. -/
theorem early_interrupted {interruption : Interruption}
    (hwindow : ¬ InWindow run.cfg (!steps.isEmpty) interruption)
    (hearly : ¬ PastTracker run.cfg (!steps.isEmpty) interruption) :
    ∀ w ∈ saveCheckpoint resolve run (stepFolders run.cfg steps) save (some interruption),
      Spares resolve run.cfg last w ∧ NoProbe w := by
  have hbefore : ∀ w ∈ writesBeforeActor resolve run.cfg (stepFolders run.cfg steps) save,
      Spares resolve run.cfg last w ∧ NoProbe w := fun w hw =>
    ⟨spares_writesBeforeActor hdirs hkept hnew w hw,
      (quiet_writesBeforeActor resolve run.cfg _ save w hw).noProbe⟩
  have hactor : ∀ written, ∀ w ∈ actorWrites resolve run.cfg save written,
      Spares resolve run.cfg last w ∧ NoProbe w := by
    intro written w hw
    refine ⟨spares_actorWrites hdirs hnew written w hw, ?_⟩
    obtain ⟨file, piece, rfl⟩ := mem_actorWrites resolve run.cfg hw
    trivial
  intro w hw
  cases interruption with
  | beforeActor n => exact hbefore w (List.mem_of_mem_take hw)
  | inActor written => exact (List.mem_append.mp hw).elim (hbefore w) (hactor written w)
  | afterActor n =>
      rcases List.mem_append.mp hw with hw | hw
      · exact (List.mem_append.mp hw).elim (hbefore w) (hactor allWritten w)
      · rw [hkept.writesAfterActor_eq save hsync] at hw
        rcases hkept.replaced_eq with ⟨hnil, hcond⟩ | ⟨⟨old, hold, rfl⟩, hcond⟩
        · rw [InWindow, if_neg hcond] at hwindow
          rw [PastTracker, tailLength, if_neg hcond] at hearly
          rw [hnil, take_head (by rw [List.length_nil]; omega)] at hw
          have hw := List.mem_of_mem_take hw
          refine ⟨spares_head (stepDir_ne_tracked hdirs hnew) w hw, ?_⟩
          rcases List.mem_cons.mp hw with rfl | hw
          · trivial
          · rw [List.mem_singleton.mp hw]
            trivial
        · rw [InWindow, if_pos hcond] at hwindow
          rw [PastTracker, tailLength, if_pos hcond] at hearly
          have hzero : n = 0 := by omega
          rw [hzero, List.take_zero] at hw
          cases hw

omit hdirs hnew [DecidableEq Dir] in
theorem saveCheckpoint_past (resolve : Str → Dir) (save : Save) {interruption : Option Interruption}
    (hpast : ∀ i ∈ interruption, PastTracker run.cfg (!steps.isEmpty) i) :
    ∃ n, saveCheckpoint resolve run (stepFolders run.cfg steps) save interruption =
      wholeActor resolve run (stepFolders run.cfg steps) save ++
        ((headWrites resolve run.cfg (replaced run.cfg steps) save ++
          trackerWrites resolve run.cfg save) ++ (probeWrites resolve run save).take n) := by
  rw [← hkept.writesAfterActor_eq save hsync]
  cases interruption with
  | none =>
      refine ⟨(probeWrites resolve run save).length, ?_⟩
      rw [saveCheckpoint, List.take_length]
  | some i =>
      have hi := hpast i rfl
      cases i with
      | beforeActor n => cases hi
      | inActor written => cases hi
      | afterActor n =>
          refine ⟨n - (writesAfterActor resolve run.cfg (stepFolders run.cfg steps) save).length,
            ?_⟩
          rw [saveCheckpoint, List.take_append, List.take_of_length_le]
          rw [length_writesAfterActor hsync hkept resolve save]
          exact hi

omit hsync in
theorem actor_afterActor {file : ActorFile} {n : ℕ}
    (h : (d.made (stepDir resolve run.cfg save.step)).actor file = some (.whole save)) :
    ((d.writeAll ((headWrites resolve run.cfg (replaced run.cfg steps) save ++
      trackerWrites resolve run.cfg save) ++ (probeWrites resolve run save).take n)).made
        (stepDir resolve run.cfg save.step)).actor file = some (.whole save) := by
  refine Disk.made_writeAll_of_keeps (P := fun f => f.actor file = some (.whole save))
    (fun w hw f hf => ?_) h
  rcases List.mem_append.mp hw with hw | hw
  · rcases List.mem_append.mp hw with hw | hw
    · rcases List.mem_append.mp hw with hw | hw
      · obtain ⟨s, hs, rfl⟩ := List.mem_map.mp hw
        rw [Write.change, if_neg (stepDir_ne_new hdirs hkept hnew s hs).symm]
        exact hf
      · rcases List.mem_cons.mp hw with rfl | hw
        · rw [Write.change, if_pos rfl]
          exact hf
        · rw [List.mem_singleton.mp hw, Write.change, if_pos rfl]
          exact hf
    · rcases List.mem_cons.mp hw with rfl | hw
      · exact hf
      · rw [List.mem_singleton.mp hw]
        exact hf
  · obtain ⟨piece, rfl⟩ := mem_probeWrites (List.mem_of_mem_take hw)
    rw [Write.change, if_pos rfl]
    exact hf

/-- Cut behind the tracker, or not at all, a save is what the tracker names. -/
theorem tracked_past {interruption : Option Interruption}
    (hpast : ∀ i ∈ interruption, PastTracker run.cfg (!steps.isEmpty) i) :
    Tracked resolve run.cfg (d.writeAll
        (saveCheckpoint resolve run (stepFolders run.cfg steps) save interruption))
        (some save.step) ∧
      ∀ file ∈ actorFiles run.cfg.worldSize,
        ((d.writeAll (saveCheckpoint resolve run (stepFolders run.cfg steps) save
          interruption)).made (stepDir resolve run.cfg save.step)).actor file =
            some (.whole save) := by
  obtain ⟨n, heq⟩ := saveCheckpoint_past hsync hkept resolve save hpast
  have hactor : ∀ file ∈ actorFiles run.cfg.worldSize,
      ((d.writeAll (wholeActor resolve run (stepFolders run.cfg steps) save)).made
        (stepDir resolve run.cfg save.step)).actor file = some (.whole save) := by
    intro file hfile
    rw [wholeActor, Disk.writeAll_append, made_actorWrites, stepDir, if_pos rfl]
    exact cutActor_allWritten hfile
  rw [heq, Disk.writeAll_append]
  refine ⟨?_, fun file hfile => actor_afterActor hdirs hkept hnew (hactor file hfile)⟩
  rw [Disk.writeAll_append, Disk.writeAll_append]
  exact tracked_writeAll (tracked_new save (stepDir_ne_new hdirs hkept hnew)
    (fun file hfile => ⟨save, hactor file hfile⟩))
    (fun w hw => spares_probeWrites run save w (List.mem_of_mem_take hw))

/-- Behind the tracker and with its probe whole, or not interrupted at all, a save leaves the
disk in order. -/
theorem InOrder.past (h : InOrder resolve run.cfg d last) (hnumber : save.number < d.saves)
    (hsave : save.probeEnabled = run.probeEnabled) {interruption : Option Interruption}
    (hpast : ∀ i ∈ interruption, PastTracker run.cfg (!steps.isEmpty) i)
    (hbehind : ∀ i ∈ interruption, ¬ BehindTracker run (!steps.isEmpty) i) :
    InOrder resolve run.cfg (d.writeAll
      (saveCheckpoint resolve run (stepFolders run.cfg steps) save interruption))
      (some save.step) := by
  have hlength := length_writesAfterActor hsync hkept resolve save
  have hprobe := made_saveCheckpoint_probe resolve run (stepFolders run.cfg steps) save d
    interruption
  obtain ⟨htracked, hactor⟩ := tracked_past hdirs hsync hkept hnew hpast (d := d)
  have hdone : run.probeEnabled = true →
      ∃ n, probeProgress (tailLength run.cfg (!steps.isEmpty)) interruption = n + 2 := by
    intro henabled
    refine Nat.exists_eq_add_of_le' ?_
    cases interruption with
    | none => exact le_refl 2
    | some i =>
        refine Nat.le_of_not_lt (fun hlt => hbehind i rfl ?_)
        exact behindTracker_iff.mpr ⟨henabled, hpast i rfl, hlt⟩
  refine ⟨htracked, probesLoad_saveCheckpoint h.loads _ (fun henabled => ?_), ?_, ?_⟩
  · obtain ⟨n, hn⟩ := hdone henabled
    rw [hlength, hn]
    omega
  · intro step hstep file hfile save' hwhole henabled
    obtain rfl := Option.some.inj hstep
    rw [hactor file hfile] at hwhole
    obtain rfl := Piece.whole.inj (Option.some.inj hwhole)
    have henabled := hsave.symm.trans henabled
    obtain ⟨n, hn⟩ := hdone henabled
    refine ⟨hactor, ?_⟩
    rw [hprobe, if_pos ⟨henabled, rfl⟩, hlength, hn, cutPiece]
  · intro dir save' hwhole
    rw [hprobe] at hwhole
    rw [Disk.saves_writeAll]
    split at hwhole
    case isTrue =>
      rcases cutPiece_eq_whole hwhole with ⟨rfl, -⟩ | ⟨-, hold⟩
      · exact hnumber
      · exact h.counted dir save' hold
    case isFalse => exact h.counted dir save' hwhole

/-- Killed neither in the window nor between the tracker and its whole probe, a save leaves the
disk in order. -/
theorem inOrder_interrupted (h : InOrder resolve run.cfg d last) (hnumber : save.number < d.saves)
    (hsave : save.probeEnabled = run.probeEnabled) {interruption : Interruption}
    (hwindow : ¬ InWindow run.cfg (!steps.isEmpty) interruption)
    (hbehind : ¬ BehindTracker run (!steps.isEmpty) interruption) :
    ∃ last', InOrder resolve run.cfg (d.writeAll
      (saveCheckpoint resolve run (stepFolders run.cfg steps) save (some interruption))) last' := by
  by_cases hpast : PastTracker run.cfg (!steps.isEmpty) interruption
  · refine ⟨_, h.past hdirs hsync hkept hnew hnumber hsave (fun i hi => ?_) (fun i hi => ?_)⟩
    · rwa [← Option.some.inj hi]
    · rwa [← Option.some.inj hi]
  · exact ⟨last, h.spared (early_interrupted hdirs hsync hkept hnew hwindow hpast)⟩

theorem not_resumes_of_opensProbe (hauto : run.cfg.resumeMode = .auto)
    {interruption : Interruption} (hopens : OpensProbe run (!steps.isEmpty) interruption) :
    ¬ ∃ r, resume resolve run (d.writeAll
      (saveCheckpoint resolve run (stepFolders run.cfg steps) save (some interruption))) =
        .ok r := by
  obtain ⟨henabled, hone⟩ := opensProbe_iff.mp hopens
  obtain ⟨-, hpast, -⟩ := behindTracker_iff.mp hopens.behindTracker
  have hpast : ∀ i ∈ some interruption, PastTracker run.cfg (!steps.isEmpty) i :=
    fun i hi => Option.some.inj hi ▸ hpast
  have htracked := (tracked_past hdirs hsync hkept hnew hpast (d := d)).1
  refine not_resumes_of_torn hauto htracked henabled ?_
  rw [made_saveCheckpoint_probe, if_pos ⟨henabled, rfl⟩,
    length_writesAfterActor hsync hkept resolve save, hone, cutPiece]

/-- Killed between the tracker and its whole probe, a save leaves a policy that is not resumed
with its probe. -/
theorem not_together_of_behindTracker (hauto : run.cfg.resumeMode = .auto)
    (hfresh : ∀ dir, (d.made dir).probe ≠ some (.whole save))
    (hsave : save.probeEnabled = run.probeEnabled) {interruption : Interruption}
    (hbehind : BehindTracker run (!steps.isEmpty) interruption) {r : Resumed}
    (hr : resume resolve run (d.writeAll (saveCheckpoint resolve run (stepFolders run.cfg steps)
      save (some interruption))) = .ok r) : ¬ Together r := by
  obtain ⟨henabled, hpast, hlt⟩ := behindTracker_iff.mp hbehind
  have hpast : ∀ i ∈ some interruption, PastTracker run.cfg (!steps.isEmpty) i :=
    fun i hi => Option.some.inj hi ▸ hpast
  obtain ⟨htracked, hactor⟩ := tracked_past hdirs hsync hkept hnew hpast (d := d)
  refine not_together_of_tracked hauto htracked henabled (hsave.trans henabled) hactor
    (fun hwhole => ?_) hr
  rw [made_saveCheckpoint_probe, if_pos ⟨henabled, rfl⟩,
    length_writesAfterActor hsync hkept resolve save] at hwhole
  rcases cutPiece_eq_whole hwhole with ⟨-, hdone⟩ | ⟨-, hold⟩
  · exact Nat.not_lt_of_le hdone hlt
  · -- an older probe, if there was one, is of another save
    exact hfresh _ hold

end Interrupted

/-! ## After a process -/

section Process

variable (hauto : run.cfg.resumeMode = .auto) (hsync : run.cfg.asyncSave = false)
  (hdirs : ∀ s s' : ℤ, stepDir resolve run.cfg s = stepDir resolve run.cfg s' → s = s')
include hauto hsync hdirs

omit hauto hsync hdirs [DecidableEq Dir] in
theorem InOrder.count (h : InOrder resolve cfg d last) :
    InOrder resolve cfg { d with saves := d.saves + 1 } last where
  tracked := by
    cases last with
    | none => exact h.tracked
    | some l => exact h.tracked
  loads := h.loads
  paired := h.paired
  counted := fun dir save hwhole => Nat.lt_succ_of_lt (h.counted dir save hwhole)

/-- No probe is cut short unless the process was killed there; then nothing is resumed. -/
theorem probes_runSaves {saves : List (ℤ × Option Interruption)} {steps : List ℤ}
    (hkept : KeptSteps run.cfg steps last) (hafter : ∀ s ∈ saves, ∀ l ∈ last, l < s.1)
    (hascending : saves.Pairwise (fun s s' => s.1 < s'.1)) (h : ProbesLoad d) :
    (¬ KilledAtProbe run (!steps.isEmpty) saves →
        ProbesLoad (runSaves resolve run (stepFolders run.cfg steps) saves d)) ∧
      (KilledAtProbe run (!steps.isEmpty) saves →
        ¬ ∃ r, resume resolve run (runSaves resolve run (stepFolders run.cfg steps) saves d) =
          .ok r) := by
  induction saves generalizing steps last d with
  | nil => exact ⟨fun _ => h, fun hkilled => absurd hkilled id⟩
  | cons s saves ih =>
      obtain ⟨step, interruption⟩ := s
      obtain ⟨hlater, hrest⟩ := List.pairwise_cons.mp hascending
      have hcounted : ProbesLoad { d with saves := d.saves + 1 } := h
      have hnew : ∀ l ∈ last, l < (Save.mk d.saves step run.probeEnabled).step :=
        hafter _ List.mem_cons_self
      have hlength := length_writesAfterActor hsync hkept resolve
        ⟨d.saves, step, run.probeEnabled⟩
      cases interruption with
      | some interruption =>
          refine ⟨fun hnot => probesLoad_saveCheckpoint hcounted _ (fun henabled hone => ?_),
            fun hopens => not_resumes_of_opensProbe hdirs hsync hkept hnew hauto hopens⟩
          rw [hlength] at hone
          exact hnot (opensProbe_iff.mpr ⟨henabled, hone⟩)
      | none =>
          obtain ⟨steps', hfolders, hsome, hkept'⟩ := hkept.keptAfter _ hnew
          have hsaved : ProbesLoad (Disk.writeAll { d with saves := d.saves + 1 }
              (saveCheckpoint resolve run (stepFolders run.cfg steps)
                ⟨d.saves, step, run.probeEnabled⟩ none)) :=
            probesLoad_saveCheckpoint hcounted _ (fun _ => Nat.succ_succ_ne_one 0)
          have hprobes := ih hkept' (after_of_later hlater) hrest hsaved
          rw [hsome, ← hfolders] at hprobes
          rw [runSaves, KilledAtProbe]
          exact hprobes

/-- The disk is in order unless the process was killed in the window, or between the tracker and
its whole probe; then policy and probe are not resumed together. -/
theorem inOrder_runSaves {saves : List (ℤ × Option Interruption)} {steps : List ℤ}
    (hkept : KeptSteps run.cfg steps last) (hafter : ∀ s ∈ saves, ∀ l ∈ last, l < s.1)
    (hascending : saves.Pairwise (fun s s' => s.1 < s'.1)) (h : InOrder resolve run.cfg d last) :
    (¬ KilledInWindow run.cfg (!steps.isEmpty) saves →
      ¬ KilledBehindTracker run (!steps.isEmpty) saves → ∃ last', InOrder resolve run.cfg
        (runSaves resolve run (stepFolders run.cfg steps) saves d) last') ∧
    (KilledBehindTracker run (!steps.isEmpty) saves →
      ∀ r, resume resolve run (runSaves resolve run (stepFolders run.cfg steps) saves d) = .ok r →
        ¬ Together r) := by
  induction saves generalizing steps last d with
  | nil => exact ⟨fun _ _ => ⟨last, h⟩, fun hkilled => absurd hkilled id⟩
  | cons s saves ih =>
      obtain ⟨step, interruption⟩ := s
      obtain ⟨hlater, hrest⟩ := List.pairwise_cons.mp hascending
      have hnew : ∀ l ∈ last, l < (Save.mk d.saves step run.probeEnabled).step :=
        hafter _ List.mem_cons_self
      cases interruption with
      | some interruption =>
          refine ⟨fun hwindow hbehind => inOrder_interrupted hdirs hsync hkept hnew h.count
            (Nat.lt_succ_self _) rfl hwindow hbehind, fun hbehind r hr => ?_⟩
          refine not_together_of_behindTracker hdirs hsync hkept hnew hauto (fun dir hwhole => ?_)
            rfl hbehind hr
          exact Nat.lt_irrefl _ (h.counted dir _ hwhole)
      | none =>
          obtain ⟨steps', hfolders, hsome, hkept'⟩ := hkept.keptAfter _ hnew
          have hsaved : InOrder resolve run.cfg (Disk.writeAll { d with saves := d.saves + 1 }
              (saveCheckpoint resolve run (stepFolders run.cfg steps)
                ⟨d.saves, step, run.probeEnabled⟩ none)) (some step) :=
            h.count.past hdirs hsync hkept hnew (Nat.lt_succ_self _) rfl
              (fun i hi => by cases hi) (fun i hi => by cases hi)
          have horder := ih hkept' (after_of_later hlater) hrest hsaved
          rw [hsome, ← hfolders] at horder
          rw [runSaves, KilledInWindow, KilledBehindTracker]
          exact horder

/-- The next process with the same configuration can be started exactly if the one before was
killed neither in the window nor when it had opened `probe.pt`. -/
theorem resume_returns_iff (hd : Tracked resolve run.cfg d last) (hprobes : ProbesLoad d)
    (hafter : ∀ s ∈ run.saves, ∀ l ∈ last, l < s.1)
    (hascending : run.saves.Pairwise (fun s s' => s.1 < s'.1)) :
    (∃ r, resume resolve run (runSaves resolve run [] run.saves d) = .ok r) ↔
      ¬ KilledInWindow run.cfg false run.saves ∧ ¬ KilledAtProbe run false run.saves := by
  have hkept := keptSteps_nil run.cfg last
  obtain ⟨hwrong, hright⟩ := resumesUnless_runSaves hauto hsync hdirs hkept hafter hascending hd
  obtain ⟨hload, htorn⟩ := probes_runSaves hauto hsync hdirs hkept hafter hascending hprobes
  refine ⟨fun hresumes => ⟨fun hkilled => ?_, fun hkilled => htorn hkilled hresumes⟩,
    fun hsafe => ?_⟩
  · obtain ⟨r, hr⟩ := hresumes
    obtain ⟨policy, hpolicy, -⟩ := bind_eq_ok.mp hr
    exact hwrong hkilled ⟨policy, hpolicy⟩
  · obtain ⟨last', htracked⟩ := hright hsafe.1
    obtain ⟨r, hr, -⟩ := resume_returns hauto htracked (hload hsafe.2 _)
    exact ⟨r, hr⟩

/-- It goes on with the policy and the probe of one save exactly if the one before was killed
neither in the window nor between the tracker and its whole probe. -/
theorem resume_whole_iff (hd : InOrder resolve run.cfg d last)
    (hafter : ∀ s ∈ run.saves, ∀ l ∈ last, l < s.1)
    (hascending : run.saves.Pairwise (fun s s' => s.1 < s'.1)) :
    (∃ r, resume resolve run (runSaves resolve run [] run.saves d) = .ok r ∧ Together r) ↔
      ¬ KilledInWindow run.cfg false run.saves ∧ ¬ KilledBehindTracker run false run.saves := by
  have hkept := keptSteps_nil run.cfg last
  obtain ⟨hwrong, -⟩ :=
    resumesUnless_runSaves hauto hsync hdirs hkept hafter hascending hd.tracked
  obtain ⟨hright, hapart⟩ := inOrder_runSaves hauto hsync hdirs hkept hafter hascending hd
  refine ⟨fun hwhole => ?_, fun hsafe => ?_⟩
  · obtain ⟨r, hr, htogether⟩ := hwhole
    refine ⟨fun hkilled => ?_, fun hkilled => hapart hkilled r hr htogether⟩
    obtain ⟨policy, hpolicy, -⟩ := bind_eq_ok.mp hr
    exact hwrong hkilled ⟨policy, hpolicy⟩
  · obtain ⟨last', horder⟩ := hright hsafe.1 hsafe.2
    exact horder.resumes hauto

end Process

/-! ## One process after another -/

section History

variable (hdirs : ∀ s s' : ℤ, stepDir resolve cfg s = stepDir resolve cfg s' → s = s')

omit [DecidableEq Dir] in
theorem InOrder.of_dir {cfg' : PPO.TrainerConfig}
    (hdir : cfg.defaultLocalDir = cfg'.defaultLocalDir) (hsize : cfg.worldSize = cfg'.worldSize)
    (h : InOrder resolve cfg d last) : InOrder resolve cfg' d last where
  tracked := h.tracked.of_dir hdir hsize
  loads := h.loads
  paired := by
    intro step hstep
    have hpaired := h.paired step hstep
    rw [stepDir, hdir, hsize] at hpaired
    exact hpaired
  counted := h.counted

include hdirs

theorem probesLoad_trainingRun (hrun : SafeProcess resolve cfg run d)
    (hnot : ¬ KilledAtProbe run false run.saves) (h : Tracked resolve cfg d last)
    (hprobes : ProbesLoad d) : ProbesLoad (trainingRun resolve run d).2 := by
  rcases resume_tracked hrun.auto (h.of_dir hrun.dir.symm hrun.worldSize.symm) with
    ⟨policy, probe, hresume⟩ | herror
  · rw [trainingRun, hresume]
    exact (probes_runSaves hrun.auto hrun.sync (stepDir_inj_of_dir hrun.dir hdirs)
      (keptSteps_nil run.cfg last) (hrun.after hresume) hrun.ascending hprobes).1 hnot
  · rw [trainingRun, herror]
    exact hprobes

theorem history_all_resume (runs : List TrainingRun) (h : Tracked resolve cfg d last)
    (hprobes : ProbesLoad d) (hsafe : SafeHistory resolve cfg runs d)
    (hnot : ∀ run ∈ runs, ¬ KilledAtProbe run false run.saves) :
    ∀ r ∈ history resolve runs d, ∃ resumed, r = .ok resumed := by
  induction runs generalizing d last with
  | nil =>
      intro r hr
      cases hr
  | cons run runs ih =>
      obtain ⟨hrun, hrest⟩ := hsafe
      have hnotrun := hnot run List.mem_cons_self
      intro r hr
      rcases List.mem_cons.mp hr with rfl | hr
      · obtain ⟨resumed, hresumed, -⟩ := resume_returns hrun.auto
          (h.of_dir hrun.dir.symm hrun.worldSize.symm) (hprobes _)
        rw [trainingRun, hresumed]
        exact ⟨_, rfl⟩
      · obtain ⟨last', hlast'⟩ := tracked_trainingRun hdirs hrun h
        exact ih hlast' (probesLoad_trainingRun hdirs hrun hnotrun h hprobes) hrest
          (fun run' hrun' => hnot run' (List.mem_cons_of_mem _ hrun')) r hr

/-- Without a kill between a tracker and its whole probe they resume with policy and probe of
one save. -/
theorem history_all_together (runs : List TrainingRun) (h : InOrder resolve cfg d last)
    (hsafe : SafeHistory resolve cfg runs d)
    (hnot : ∀ run ∈ runs, ¬ KilledBehindTracker run false run.saves) :
    ∀ r ∈ history resolve runs d, ∃ resumed, r = .ok resumed ∧ Together resumed := by
  induction runs generalizing d last with
  | nil =>
      intro r hr
      cases hr
  | cons run runs ih =>
      obtain ⟨hrun, hrest⟩ := hsafe
      have hown := h.of_dir hrun.dir.symm hrun.worldSize.symm
      obtain ⟨resumed, hresumed, htogether⟩ := hown.resumes hrun.auto
      have hstart : ∀ s ∈ run.saves, ∀ l ∈ last, l < s.1 := by
        obtain ⟨r, hr, hsteps⟩ := resume_returns hrun.auto hown.tracked (hown.loads _)
        intro s hs l hl
        have hbehind := hrun.behind r hr s hs
        rw [hsteps] at hbehind
        cases hl
        exact hbehind
      obtain ⟨last', horder⟩ := (inOrder_runSaves hrun.auto hrun.sync
        (stepDir_inj_of_dir hrun.dir hdirs) (keptSteps_nil run.cfg last) hstart hrun.ascending
        hown).1 hrun.safe (hnot run List.mem_cons_self)
      have hrun' : trainingRun resolve run d =
          (.ok resumed, runSaves resolve run [] run.saves d) := by
        rw [trainingRun, hresumed]
      intro r hr
      rw [history, hrun'] at hr
      rw [hrun'] at hrest
      rcases List.mem_cons.mp hr with rfl | hr
      · exact ⟨resumed, rfl, htogether⟩
      · exact ih (horder.of_dir hrun.dir hrun.worldSize) hrest
          (fun run' hmem => hnot run' (List.mem_cons_of_mem _ hmem)) r hr

end History

/-- A process with a probe that is killed in its second save, right behind the tracker. -/
def probeKilledRun : TrainingRun :=
  { killedRun with
    cfg := { defaultLocalDir := "/ckpt".toList }
    probeEnabled := true
    saves := [(10, none), (20, some (.afterActor 4))] }

/-- The process can be started again, but not with the probe of step 20. -/
theorem resume_whole_iff_behindTracker :
    ¬ ∃ r, resume id probeKilledRun
      (runSaves id probeKilledRun [] probeKilledRun.saves Disk.empty) = .ok r ∧ Together r := by
  have hauto : probeKilledRun.cfg.resumeMode = .auto := rfl
  have hiff := resume_whole_iff hauto rfl stepDir_inj (inOrder_empty id probeKilledRun.cfg)
    (fun s _ l hl => by cases hl) (by decide)
  rw [hiff]
  rintro ⟨-, hsafe⟩
  exact hsafe ⟨rfl, Or.inl rfl⟩

end RLCM.ForcedOutput
