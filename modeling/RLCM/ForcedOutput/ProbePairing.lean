/-
# `RLCM.ForcedOutput.ProbePairing` — policy and probe after every resume

The invariant is that every directory is paired (`PairedFolder`): where the files that so
many ranks load are all whole, and one of them is from a save with a probe, they are all
from this save, and so is the probe.  The writes around the actor keep this (`Quiet`), and
so do the ranks if their files are cut apart (`PairedFolder.cutActor`); the whole probe
restores it after a whole actor (`SavedFolder.paired`).  So in every careful history each
process that resumes has the policy and the probe of one save (`history_together`).
-/
import RLCM.ForcedOutput.ProbeCheckpoint

namespace RLCM.ForcedOutput

open Py PPO

/-! ## What one write does to the pairing -/

/-- If one of these files is from a save with a probe, they all are, and so is the probe. -/
def PairedActor (worldSize : ℕ) (f : StepFolder) : Prop :=
  ∀ file ∈ actorFiles worldSize, ∀ save, f.actor file = some (.whole save) →
    save.probeEnabled = true →
      (∀ file' ∈ actorFiles worldSize, f.actor file' = some (.whole save)) ∧
        f.probe = some (.whole save)

/-- Every whole actor of a folder is paired, unless the probe cannot be loaded. -/
def PairedFolder (f : StepFolder) : Prop :=
  f.probe ≠ some .torn → ∀ worldSize, ActorWhole worldSize f → PairedActor worldSize f

/-- The policy for so many ranks is of one save, and the others are without a probe. -/
structure SavedFolder (worldSize : ℕ) (save : Save) (f : StepFolder) : Prop where
  own : ∀ file ∈ actorFiles worldSize, ∀ save', f.actor file = some (.whole save') → save' = save
  others : OthersUnprobed worldSize f

section Folders

variable {f f' : StepFolder} {worldSize : ℕ} {save : Save} {written : ℕ → ℕ}

theorem PairedFolder.congr (h : PairedFolder f) (hactor : f'.actor = f.actor)
    (hprobe : f'.probe = f.probe) : PairedFolder f' := by
  unfold PairedFolder ActorWhole PairedActor
  rw [hactor, hprobe]
  exact h

theorem SavedFolder.congr (h : SavedFolder worldSize save f) (hactor : f'.actor = f.actor) :
    SavedFolder worldSize save f' := by
  constructor
  · rw [hactor]
    exact h.own
  · unfold OthersUnprobed ActorWhole Unprobed
    rw [hactor]
    exact h.others

theorem pairedFolder_removed (f : StepFolder) :
    PairedFolder { f with actor := fun _ => none } := by
  intro _ worldSize _ file _ save hactor
  cases hactor

theorem savedFolder_removed (worldSize : ℕ) (save : Save) (f : StepFolder) :
    SavedFolder worldSize save { f with actor := fun _ => none } := by
  constructor
  · intro file _ save' hactor
    cases hactor
  · intro worldSize' _ _ file _ save' hactor
    cases hactor

theorem cutActor_of_mem {file : ActorFile} (hfile : file ∈ actorFiles worldSize) :
    (f.cutActor worldSize save written).actor file =
      cutPiece save (f.actor file) (file.writesDone written) := if_pos hfile

theorem cutActor_of_not_mem {file : ActorFile} (hfile : file ∉ actorFiles worldSize) :
    (f.cutActor worldSize save written).actor file = f.actor file := if_neg hfile

theorem not_mem_actorFiles {worldSize' : ℕ} (hne : worldSize' ≠ worldSize) {file : ActorFile}
    (hfile : file ∈ actorFiles worldSize') : file ∉ actorFiles worldSize := by
  intro hfile'
  exact hne ((mem_actorFiles.mp hfile).1.symm.trans (mem_actorFiles.mp hfile').1)

theorem cutActor_other {worldSize' : ℕ} (hne : worldSize' ≠ worldSize) {file : ActorFile}
    (hfile : file ∈ actorFiles worldSize') :
    (f.cutActor worldSize save written).actor file = f.actor file :=
  cutActor_of_not_mem (not_mem_actorFiles hne hfile)

theorem cutPiece_eq_whole {old : Option Piece} {n : ℕ} {save' : Save}
    (h : cutPiece save old n = some (.whole save')) :
    save' = save ∧ 2 ≤ n ∨ n = 0 ∧ old = some (.whole save') := by
  rcases n with _ | _ | n
  · exact Or.inr ⟨rfl, h⟩
  · cases h
  · obtain rfl := Piece.whole.inj (Option.some.inj h)
    exact Or.inl ⟨rfl, Nat.le_add_left 2 n⟩

/-- Where the files that so many ranks load are the same, their actor is paired again. -/
theorem PairedFolder.pairedActor (h : PairedFolder f) (hprobe : f'.probe = f.probe)
    (htorn : f'.probe ≠ some .torn)
    (hsame : ∀ file ∈ actorFiles worldSize, f'.actor file = f.actor file)
    (hwhole : ActorWhole worldSize f') : PairedActor worldSize f' := by
  have hwhole' : ActorWhole worldSize f := by
    intro file hfile
    obtain ⟨save, hactor⟩ := hwhole file hfile
    exact ⟨save, (hsame file hfile).symm.trans hactor⟩
  intro file hfile save hactor hsave
  rw [hprobe] at htorn
  obtain ⟨hall, hpair⟩ :=
    h htorn worldSize hwhole' file hfile save ((hsame file hfile).symm.trans hactor) hsave
  exact ⟨fun file' hfile' => (hsame file' hfile').trans (hall file' hfile'), hprobe.trans hpair⟩

/-- Files that are cut apart make no actor of two saves. -/
theorem PairedFolder.cutActor (h : PairedFolder f)
    (hcut : CutApart worldSize save.probeEnabled written f) :
    PairedFolder (f.cutActor worldSize save written) := by
  intro htorn worldSize' hwhole
  by_cases hsize : worldSize' = worldSize
  · subst hsize
    rcases hcut with hnothing | ⟨torn, hmem, hdone⟩ | ⟨hno, hunprobed⟩
    · -- no rank has begun
      refine h.pairedActor rfl htorn (fun file hfile => ?_) hwhole
      rw [cutActor_of_mem hfile, ActorFile.writesDone, hnothing _ (mem_actorFiles.mp hfile).2,
        Nat.zero_sub, cutPiece]
    · -- the actor is not whole
      obtain ⟨other, hother⟩ := hwhole torn hmem
      rw [cutActor_of_mem hmem] at hother
      rcases hdone with hdone | ⟨hdone, hnone⟩
      · rw [hdone] at hother
        cases hother
      · rw [hdone] at hother
        exact absurd hother (hnone other)
    · -- nor is it of a save with a probe
      intro file hfile save' hactor hsave
      rw [cutActor_of_mem hfile] at hactor
      rcases cutPiece_eq_whole hactor with ⟨rfl, -⟩ | ⟨hdone, hold⟩
      · rw [hno] at hsave
        cases hsave
      · rw [hunprobed file (List.mem_filter.mpr ⟨hfile, decide_eq_true hdone⟩) save' hold] at hsave
        cases hsave
  · -- the files for another number of ranks are as before
    exact h.pairedActor rfl htorn (fun file hfile => cutActor_other hsize hfile) hwhole

theorem cutActor_allWritten {file : ActorFile} (hfile : file ∈ actorFiles worldSize) :
    (f.cutActor worldSize save allWritten).actor file = some (.whole save) := by
  rw [cutActor_of_mem hfile]
  obtain ⟨part, size, rank⟩ := file
  cases part with
  | model => rfl
  | optim => rfl
  | extra => rfl

/-- A process without a probe may always write its whole actor. -/
theorem cutApart_allWritten : CutApart worldSize false allWritten f := by
  refine Or.inr (Or.inr ⟨rfl, fun file hfile save hactor => ?_⟩)
  have hdone := of_decide_eq_true (List.mem_filter.mp hfile).2
  obtain ⟨part, size, rank⟩ := file
  cases part with
  | model => cases hdone
  | optim => cases hdone
  | extra => cases hdone

theorem savedFolder_allWritten (hothers : OthersUnprobed worldSize f) :
    SavedFolder worldSize save (f.cutActor worldSize save allWritten) := by
  constructor
  · intro file hfile save' hactor
    rw [cutActor_allWritten hfile] at hactor
    exact (Piece.whole.inj (Option.some.inj hactor)).symm
  · intro worldSize' hne hwhole file hfile save' hactor
    rw [cutActor_other hne hfile] at hactor
    refine hothers worldSize' hne (fun file hfile => ?_) file hfile save' hactor
    obtain ⟨save, hactor⟩ := hwhole file hfile
    exact ⟨save, (cutActor_other hne hfile).symm.trans hactor⟩

theorem SavedFolder.paired (h : SavedFolder worldSize save f) :
    PairedFolder { f with probe := some (.whole save) } := by
  intro _ worldSize' hwhole file hfile save' hactor hsave
  by_cases hsize : worldSize' = worldSize
  · subst hsize
    obtain rfl := h.own file hfile save' hactor
    refine ⟨fun file' hfile' => ?_, rfl⟩
    obtain ⟨other, hother⟩ := hwhole file' hfile'
    rw [hother, h.own file' hfile' other hother]
  · rw [h.others worldSize' hsize hwhole file hfile save' hactor] at hsave
    cases hsave

end Folders

/-! ## What a save does to it -/

section Writes

variable {Dir : Type} [DecidableEq Dir] {d : Disk Dir} {dir : Dir} {worldSize : ℕ} {save : Save}

def Paired (d : Disk Dir) : Prop := ∀ dir, PairedFolder (d.made dir)

omit [DecidableEq Dir] in
/-- A write that touches neither a file of an actor nor a probe, but to remove it. -/
def Quiet : Write Dir → Prop
  | .actor _ _ _ | .probe _ _ => False
  | _ => True

theorem Quiet.pairedFolder {w : Write Dir} (hw : Quiet w) {f : StepFolder} (h : PairedFolder f) :
    PairedFolder (w.change dir f) := by
  cases w with
  | mkdir folder => exact h
  | actor folder file piece => cases hw
  | removeActor folder =>
      rw [Write.change]
      split
      case isTrue => exact pairedFolder_removed f
      case isFalse => exact h
  | dataloader folder piece =>
      rw [Write.change]
      split
      case isTrue => exact h.congr rfl rfl
      case isFalse => exact h
  | probe folder piece => cases hw
  | tracker dir' text => exact h

theorem Quiet.savedFolder {w : Write Dir} (hw : Quiet w) {f : StepFolder}
    (h : SavedFolder worldSize save f) : SavedFolder worldSize save (w.change dir f) := by
  cases w with
  | mkdir folder => exact h
  | actor folder file piece => cases hw
  | removeActor folder =>
      rw [Write.change]
      split
      case isTrue => exact savedFolder_removed worldSize save f
      case isFalse => exact h
  | dataloader folder piece =>
      rw [Write.change]
      split
      case isTrue => exact h.congr rfl
      case isFalse => exact h
  | probe folder piece => cases hw
  | tracker dir' text => exact h

theorem paired_quiet {writes : List (Write Dir)} (hw : ∀ w ∈ writes, Quiet w)
    (h : PairedFolder (d.made dir)) : PairedFolder ((d.writeAll writes).made dir) :=
  Disk.made_writeAll_of_keeps (fun w hmem _ => (hw w hmem).pairedFolder) h

end Writes

/-! ## The saves of a process -/

section Saves

variable {Dir : Type} (resolve : Str → Dir)

theorem quiet_writesBeforeActor (cfg : PPO.TrainerConfig) (previous : List Str) (save : Save) :
    ∀ w ∈ writesBeforeActor resolve cfg previous save, Quiet w := by
  intro w hw
  rcases List.mem_append.mp hw with hw | hw
  · obtain ⟨folder, -, rfl⟩ := List.mem_map.mp hw
    trivial
  · obtain rfl := List.mem_singleton.mp hw
    trivial

theorem quiet_writesAfterActor (cfg : PPO.TrainerConfig) (previous : List Str) (save : Save) :
    ∀ w ∈ writesAfterActor resolve cfg previous save, Quiet w := by
  intro w hw
  rcases List.mem_append.mp hw with hw | hw
  · rcases List.mem_append.mp hw with hw | hw
    · obtain ⟨folder, -, rfl⟩ := List.mem_map.mp hw
      trivial
    · rcases List.mem_cons.mp hw with rfl | hw
      · trivial
      · obtain rfl := List.mem_singleton.mp hw
        trivial
  · cases hasync : cfg.asyncSave with
    | true =>
        rw [hasync] at hw
        cases hw
    | false =>
        rw [hasync] at hw
        rcases List.mem_cons.mp hw with rfl | hw
        · trivial
        · obtain rfl := List.mem_singleton.mp hw
          trivial

variable [DecidableEq Dir] {run : TrainingRun} {previous : List Str} {save : Save} {d : Disk Dir}

theorem paired_actorWrites (hd : Paired d) (hsave : save.probeEnabled = run.probeEnabled)
    {written : ℕ → ℕ} (hcut : CutApart run.cfg.worldSize run.probeEnabled written
      (folderBefore resolve run previous save d)) :
    Paired (d.writeAll (writesBeforeActor resolve run.cfg previous save ++
      actorWrites resolve run.cfg save written)) := by
  intro dir
  have hbefore := paired_quiet (quiet_writesBeforeActor resolve run.cfg previous save) (hd dir)
  rw [Disk.writeAll_append, made_actorWrites]
  split
  case isTrue hdir =>
    subst hdir
    rw [← hsave] at hcut
    exact hbefore.cutActor hcut
  case isFalse => exact hbefore

theorem wholeActor_made (hd : Paired d) (run : TrainingRun) (previous : List Str) (save : Save)
    (dir : Dir) :
    (dir ≠ stepDir resolve run.cfg save.step →
      PairedFolder ((d.writeAll (wholeActor resolve run previous save)).made dir)) ∧
    (OthersUnprobed run.cfg.worldSize (folderBefore resolve run previous save d) →
      SavedFolder run.cfg.worldSize save
        ((d.writeAll (wholeActor resolve run previous save)).made
          (stepDir resolve run.cfg save.step))) := by
  rw [wholeActor, Disk.writeAll_append, made_actorWrites, made_actorWrites]
  constructor
  · intro hne
    rw [stepDir] at hne
    rw [if_neg hne]
    exact paired_quiet (quiet_writesBeforeActor resolve run.cfg previous save) (hd dir)
  · intro hothers
    rw [stepDir, if_pos rfl]
    exact savedFolder_allWritten hothers

theorem paired_write_probe {dir : Dir} (hothers : ∀ dir' ≠ dir, PairedFolder (d.made dir'))
    {piece : Piece} (hown : PairedFolder { d.made dir with probe := some piece }) :
    Paired (d.write (.probe dir piece)) := by
  intro dir'
  rw [Disk.made_write, Write.change]
  split
  case isTrue hdir =>
    rw [hdir]
    exact hown
  case isFalse hdir => exact hothers dir' hdir

theorem pairedFolder_torn (f : StepFolder) : PairedFolder { f with probe := some .torn } :=
  fun hprobe => absurd rfl hprobe

theorem paired_probeWrites (hprobe : run.probeEnabled = true) (hd : Paired d) {n : ℕ}
    (hopened : (writesAfterActor resolve run.cfg previous save).length < n)
    (hothers : (writesAfterActor resolve run.cfg previous save).length + 1 < n →
      OthersUnprobed run.cfg.worldSize (folderBefore resolve run previous save d)) :
    Paired (d.writeAll (wholeActor resolve run previous save ++
      (writesAfterActor resolve run.cfg previous save ++ probeWrites resolve run save).take
        n)) := by
  have hquiet := quiet_writesAfterActor resolve run.cfg previous save
  have hactor := wholeActor_made resolve hd run previous save
  rw [List.take_append, List.take_of_length_le hopened.le, Disk.writeAll_append,
    Disk.writeAll_append, probeWrites, if_pos hprobe]
  have helsewhere : ∀ dir ≠ stepDir resolve run.cfg save.step,
      PairedFolder (((d.writeAll (wholeActor resolve run previous save)).writeAll
        (writesAfterActor resolve run.cfg previous save)).made dir) :=
    fun dir hne => paired_quiet hquiet ((hactor dir).1 hne)
  obtain hone | hmore : n - (writesAfterActor resolve run.cfg previous save).length = 1 ∨
      ∃ m, n - (writesAfterActor resolve run.cfg previous save).length = m + 2 := by
    rcases Nat.lt_or_ge ((writesAfterActor resolve run.cfg previous save).length + 1) n with
      hlt | hle
    · exact Or.inr ⟨n - (writesAfterActor resolve run.cfg previous save).length - 2, by omega⟩
    · exact Or.inl (by omega)
  · rw [hone]
    exact paired_write_probe helsewhere (pairedFolder_torn _)
  · obtain ⟨m, hm⟩ := hmore
    have hsaved := Disk.made_writeAll_of_keeps
      (fun w hw _ => (hquiet w hw).savedFolder)
      ((hactor (stepDir resolve run.cfg save.step)).2 (hothers (by omega)))
    rw [hm, List.take_of_length_le (Nat.le_add_left 2 m), Disk.writeAll_cons]
    refine paired_write_probe (fun dir hne => ?_) ?_
    · rw [Disk.made_write, Write.change, if_neg hne]
      exact helsewhere dir hne
    · rw [Disk.made_write, Write.change, if_pos rfl]
      exact (hsaved.congr rfl).paired

/-- A process without a probe writes nothing that could come unpaired. -/
theorem paired_of_noProbe (hprobe : run.probeEnabled = false)
    (hsave : save.probeEnabled = run.probeEnabled) (hd : Paired d) (n : ℕ) :
    Paired (d.writeAll (wholeActor resolve run previous save ++
      (writesAfterActor resolve run.cfg previous save ++ probeWrites resolve run save).take
        n)) := by
  intro dir
  have hcut : CutApart run.cfg.worldSize run.probeEnabled allWritten
      (folderBefore resolve run previous save d) := by
    rw [hprobe]
    exact cutApart_allWritten
  rw [Disk.writeAll_append]
  refine paired_quiet (fun w hw => ?_) (paired_actorWrites resolve hd hsave hcut dir)
  have hw := List.mem_of_mem_take hw
  rw [probeWrites, hprobe, if_neg Bool.false_ne_true, List.append_nil] at hw
  exact quiet_writesAfterActor resolve run.cfg previous save w hw

theorem paired_saveCheckpoint (hsave : save.probeEnabled = run.probeEnabled) (hd : Paired d)
    (interruption : Option Interruption)
    (hapart : SaveApart resolve run previous save d interruption) :
    Paired (d.writeAll (saveCheckpoint resolve run previous save interruption)) := by
  have hend : saveCheckpoint resolve run previous save none =
      wholeActor resolve run previous save ++
        (writesAfterActor resolve run.cfg previous save ++ probeWrites resolve run save).take
          ((writesAfterActor resolve run.cfg previous save).length + 2) := by
    rw [saveCheckpoint, List.take_of_length_le]
    rw [List.length_append, probeWrites]
    split
    case isTrue => exact le_refl _
    case isFalse => exact Nat.le_add_right _ 2
  cases interruption with
  | none =>
      rw [hend]
      cases hprobe : run.probeEnabled with
      | true =>
          exact paired_probeWrites resolve hprobe hd (by omega) (fun _ => hapart hprobe)
      | false => exact paired_of_noProbe resolve hprobe hsave hd _
  | some i =>
      cases i with
      | beforeActor n =>
          intro dir
          exact paired_quiet (fun w hw => quiet_writesBeforeActor resolve run.cfg previous save w
            (List.mem_of_mem_take hw)) (hd dir)
      | inActor written => exact paired_actorWrites resolve hd hsave hapart
      | afterActor n =>
          cases hprobe : run.probeEnabled with
          | true =>
              obtain ⟨hopened, hothers⟩ := hapart hprobe
              exact paired_probeWrites resolve hprobe hd hopened hothers
          | false => exact paired_of_noProbe resolve hprobe hsave hd n

theorem paired_runSaves (saves : List (ℤ × Option Interruption)) (hd : Paired d)
    (hapart : SavesApart resolve run previous saves d) :
    Paired (runSaves resolve run previous saves d) := by
  induction saves generalizing previous d with
  | nil => exact hd
  | cons s saves ih =>
      obtain ⟨step, interruption⟩ := s
      obtain ⟨hfirst, hrest⟩ := hapart
      have hcounted : Paired { d with saves := d.saves + 1 } := hd
      have hsame : (Save.mk d.saves step run.probeEnabled).probeEnabled = run.probeEnabled := rfl
      have hsaved := paired_saveCheckpoint resolve hsame hcounted interruption hfirst
      cases interruption with
      | some i => exact hsaved
      | none => exact ih hsaved (hrest rfl)

end Saves

/-! ## What a process resumes from -/

section Resume

variable {Dir : Type} (resolve : Str → Dir)

theorem resolve_folder {run : TrainingRun} (hplace : run.ResumesInPlace resolve)
    (hprobe : run.probeEnabled = true) {d : Disk Dir} {folder : Str} {step : ℤ}
    (hfolder : resumeFolder resolve run.cfg d = .ok (some folder))
    (hstep : intOfStr (stepText folder) = some step) :
    resolve folder = stepDir resolve run.cfg step := by
  rcases resumeFolder_some resolve hfolder with ⟨n, rfl⟩ | ⟨hmode, hpath⟩
  · rw [intOfStr_stepText, Option.some.injEq] at hstep
    rw [hstep]
    rfl
  · exact hplace hprobe hmode folder step hpath hstep

theorem tryLoadProbeCheckpoint_eq {run : TrainingRun} (hprobe : run.probeEnabled = true)
    {step : ℤ} {d : Disk Dir} {probe : ProbeStart}
    (h : tryLoadProbeCheckpoint resolve run step d = .ok probe) :
    (d.made (stepDir resolve run.cfg step)).probe ≠ some .torn ∧ probe ≠ .noProbe ∧
      ∀ save, (d.made (stepDir resolve run.cfg step)).probe = some (.whole save) ↔
        probe = .restored save := by
  have hmade : (d.folders (stepDir resolve run.cfg step)).bind StepFolder.probe =
      (d.made (stepDir resolve run.cfg step)).probe := by
    unfold Disk.made
    cases d.folders (stepDir resolve run.cfg step) with
    | none => rfl
    | some f => rfl
  rw [tryLoadProbeCheckpoint, if_pos hprobe, hmade] at h
  split at h
  case h_1 hnone =>
    obtain rfl := Except.ok.inj h
    rw [hnone]
    simp
  case h_2 htorn => cases h
  case h_3 save hwhole =>
    obtain rfl := Except.ok.inj h
    rw [hwhole]
    simp

theorem together_of_pairedActor {run : TrainingRun} (hplace : run.ResumesInPlace resolve)
    {d : Disk Dir} {r : Resumed} (h : resume resolve run d = .ok r)
    (hpaired : ∀ step, (d.made (stepDir resolve run.cfg step)).probe ≠ some .torn →
      r.globalSteps = step → ActorWhole run.cfg.worldSize (d.made (stepDir resolve run.cfg step)) →
        PairedActor run.cfg.worldSize (d.made (stepDir resolve run.cfg step))) : Together r := by
  obtain ⟨⟨step, policy⟩, hload, h⟩ := bind_eq_ok.mp h
  obtain ⟨probe, hprobe, h⟩ := bind_eq_ok.mp h
  cases h
  rintro policy rfl save hmem hsave
  obtain ⟨folder, hfolder, hstep, hfiles, hpolicy⟩ := loadCheckpoint_some resolve hload
  cases henabled : run.probeEnabled with
  | false =>
      rw [tryLoadProbeCheckpoint, henabled] at hprobe
      cases hprobe
      exact Or.inl rfl
  | true =>
      rw [resolve_folder resolve hplace henabled hfolder hstep] at hfiles hpolicy
      obtain ⟨hloads, -, hrestored⟩ := tryLoadProbeCheckpoint_eq resolve henabled hprobe
      have hwhole : ActorWhole run.cfg.worldSize (d.made (stepDir resolve run.cfg step)) := by
        intro file hfile
        obtain ⟨save, -, hactor⟩ := hfiles file hfile
        exact ⟨save, hactor⟩
      obtain ⟨file, hfile, hactor⟩ := hpolicy save hmem
      obtain ⟨hall, hpair⟩ := hpaired step hloads rfl hwhole file hfile save hactor hsave
      refine Or.inr ⟨fun save' hmem' => ?_, (hrestored save).mp hpair⟩
      obtain ⟨file', hfile', hactor'⟩ := hpolicy save' hmem'
      rw [hall file' hfile'] at hactor'
      exact (Piece.whole.inj (Option.some.inj hactor')).symm

end Resume

/-! ## A history of processes -/

section History

variable {Dir : Type} [DecidableEq Dir] (resolve : Str → Dir)

theorem history_together_from (runs : List TrainingRun) {d : Disk Dir}
    (hcareful : CarefulHistory resolve runs d) (hd : Paired d) :
    ∀ r, .ok r ∈ history resolve runs d → Together r := by
  induction runs generalizing d with
  | nil =>
      intro r hr
      cases hr
  | cons run runs ih =>
      obtain ⟨hplace, hsaves, hrest⟩ := hcareful
      cases hresume : resume resolve run d with
      | error e =>
          have hrun : trainingRun resolve run d = (.error e, d) := by
            rw [trainingRun, hresume]
          intro r hr
          rw [history, hrun] at hr
          rw [hrun] at hrest
          rcases List.mem_cons.mp hr with hr | hr
          · cases hr
          · exact ih hrest hd r hr
      | ok resumed =>
          have hrun : trainingRun resolve run d =
              (.ok resumed, runSaves resolve run [] run.saves d) := by
            rw [trainingRun, hresume]
          intro r hr
          rw [history, hrun] at hr
          rw [hrun] at hrest
          rcases List.mem_cons.mp hr with hr | hr
          · obtain rfl := Except.ok.inj hr
            exact together_of_pairedActor resolve hplace hresume
              (fun step hloads _ => hd (stepDir resolve run.cfg step) hloads run.cfg.worldSize)
          · exact ih hrest (paired_runSaves resolve run.saves hd (hsaves resumed hresume)) r hr

end History

/-! ## Policies that are resumed without their probe -/

/-- A process with a probe that saves at step 10 to a directory. -/
def savingRun (dir : Str) (interruption : Option Interruption) : TrainingRun :=
  { cfg := { defaultLocalDir := dir }, probeEnabled := true, saves := [(10, interruption)] }

/-- One that does not look for what is there. -/
def restartedRun (dir : Str) (interruption : Option Interruption) : TrainingRun :=
  { savingRun dir interruption with cfg := { defaultLocalDir := dir, resumeMode := .disable } }

def twoRanksRun (dir : Str) : TrainingRun :=
  { savingRun dir none with
    cfg := {
      defaultLocalDir := dir
      resumeMode := .disable
      worldSize := 2
      worldSize_pos := Nat.two_pos } }

/-- A process with a probe that resumes and saves nothing. -/
def resumingRun (dir : Str) (mode : ResumeMode) (path : Option Str) : TrainingRun :=
  { cfg := { defaultLocalDir := dir, resumeMode := mode, resumeFromPath := path }
    probeEnabled := true, saves := [] }

theorem not_together {r : Resumed} {policy : List Save} {save save' : Save}
    (hpolicy : r.policy = some policy) (hsave : save ∈ policy) (hprobed : save.probeEnabled = true)
    (henabled : r.probe ≠ .noProbe) (hsave' : save' ∈ policy)
    (hother : r.probe ≠ .restored save ∨ save' ≠ save) : ¬ Together r := by
  intro h
  rcases h policy hpolicy save hsave hprobed with hno | ⟨hall, hrestored⟩
  · exact henabled hno
  · rcases hother with hprobe | hne
    · exact hprobe hrestored
    · exact hne (hall save' hsave')

end RLCM.ForcedOutput
