/-
# `RLCM.Eval.Freshness` — when the table is computed from one generation of files

`ResultsFresh` says that no file stage 5 reads is of another generation: each
was written in full, by the command this invocation has for it, from the model
and the upstream file that are on the disk now.  `NothingStale` is a condition
on an invocation and the disk it starts from.

`results_fresh_iff`: after any history, killed at any moments, an invocation
that finishes has fresh results exactly when nothing it starts from is stale.
The driver does not check that: `results_mixed` has a second checkpoint in one
output directory, and a plain run after an interrupted forced one.
-/
import RLCM.Eval.StageTasks

namespace RLCM.Eval

open Py Interrupt Rebuild

namespace Invocation

variable (inv : Invocation)

def stage5Files (w : World) : List OutputId :=
  (if inv.rlcr then [] else inv.probeConfig.toList.map DatasetConfig.probeModel) ++
    inv.configs.flatMap (inv.tableFiles w)

/-- The model is a finished merge of its actor, or was there before any
invocation, and every file stage 5 reads is current. -/
def ResultsFresh {κ : Type} (key : Command → κ) (w : World) : Prop :=
  (∀ a ∈ w.modelWriters (inv.modelPath w), a.finished = true ∧
    a.command = .merge ((inv.modelPath w).dropLast ++ ["actor"]) (inv.modelPath w)) ∧
  ∀ s ∈ inv.allCalls (inv.modelPath w), s.id ∈ inv.stage5Files w → s.Current key w

/-- Configurations that share a file ask for the same commands; a model that is
reused was merged in full; and the invocation is forced, or every output it
finds is current, with its input there and its model reused. -/
def NothingStale {κ : Type} (key : Command → κ) (w : World) : Prop :=
  (∀ s ∈ inv.allCalls (inv.modelPath w), ∀ t ∈ inv.allCalls (inv.modelPath w),
    s.id = t.id → key s.command = key t.command) ∧
  (∀ p ∈ inv.reusedModel w, ∀ a ∈ w.modelWriters p, a.finished = true) ∧
  (inv.force = true ∨ ∀ s ∈ inv.allCalls (inv.modelPath w), w.nonempty s.id = true →
    s.Current key w ∧ s.InputThere w ∧ ∀ p ∈ s.model, inv.reusedModel w = some p)

instance {κ : Type} [DecidableEq κ] (key : Command → κ) (w : World) :
    Decidable (inv.ResultsFresh key w) :=
  inferInstanceAs (Decidable (_ ∧ _))

instance {κ : Type} [DecidableEq κ] (key : Command → κ) (w : World) :
    Decidable (inv.NothingStale key w) :=
  inferInstanceAs (Decidable (_ ∧ _))

/-! ## The tasks of an invocation -/

variable {inv} {modelPath : Path} {i j : ℕ} {cfg cfg' : DatasetConfig} {s t : StageCall}

theorem mem_stageCalls :
    s ∈ inv.stageCalls modelPath i cfg ↔
      s = inv.rolloutsCall modelPath i cfg ∨ s = inv.budgetEvalCall modelPath i cfg ∨
        inv.rlcr = false ∧ (s = hiddenCall modelPath i cfg ∨
          cfg.runName = inv.probeDataset ∧ s = probeCall i cfg) := by
  unfold stageCalls
  cases inv.rlcr with
  | true => simp
  | false =>
      by_cases hprobe : cfg.runName = inv.probeDataset
      · simp [hprobe]
      · simp [hprobe]

theorem mem_allCalls :
    s ∈ inv.allCalls modelPath ↔ ∃ c ∈ inv.configs.zipIdx, s ∈ inv.stageCalls modelPath c.2 c.1 :=
  List.mem_flatMap

def inputOf (id : OutputId) : Option (OutputId × String) :=
  match id.stage with
  | .budgetEval => some (⟨id.outputDir, .rollouts⟩, "rollouts first")
  | .hidden => some (⟨id.outputDir, .budgetEval⟩, "budget_eval first")
  | .probe => some (⟨id.outputDir, .hidden⟩, "hidden states first")
  | .merge | .rollouts | .naturalEval => none

theorem reads_of_mem (h : s ∈ inv.stageCalls modelPath i cfg) :
    s.id.outputDir = cfg.outputDir ∧ s.input = inputOf s.id ∧
      s.model = if s.id.stage = .probe then none else some modelPath := by
  rcases mem_stageCalls.mp h with rfl | rfl | ⟨-, rfl | ⟨-, rfl⟩⟩
  all_goals exact ⟨rfl, rfl, rfl⟩

theorem map_id_stageCalls :
    (inv.stageCalls modelPath i cfg).map StageCall.id = inv.datasetOutputs cfg := by
  unfold stageCalls datasetOutputs
  cases inv.rlcr with
  | true => rfl
  | false =>
      by_cases hprobe : cfg.runName = inv.probeDataset
      · simp only [hprobe]
        rfl
      · simp only [hprobe]
        rfl

theorem outputDir_of_mem (h : cfg ∈ inv.configs) : cfg.outputDir = inv.root ++ [cfg.runName] := by
  obtain ⟨raw, -, rfl⟩ := List.mem_map.mp h
  rfl

theorem datasetOutputs_congr (h : cfg ∈ inv.configs) (h' : cfg' ∈ inv.configs)
    (hdir : cfg.outputDir = cfg'.outputDir) : inv.datasetOutputs cfg = inv.datasetOutputs cfg' := by
  have hname : cfg.runName = cfg'.runName := by
    rw [outputDir_of_mem h, outputDir_of_mem h'] at hdir
    simpa using hdir
  unfold datasetOutputs DatasetConfig.rolloutsFile DatasetConfig.budgetEvalFile
    DatasetConfig.hiddenStatesFile DatasetConfig.probeModel
  rw [hdir, hname]

section Tasks

variable {κ : Type} {key : Command → κ} {w : World}

theorem alike_tasks :
    Alike ((inv.allCalls modelPath).map (StageCall.task key w)) := by
  intro t ht u hu hout
  obtain ⟨s, hs, rfl⟩ := List.mem_map.mp ht
  obtain ⟨s', hs', rfl⟩ := List.mem_map.mp hu
  obtain ⟨c, -, hc⟩ := mem_allCalls.mp hs
  obtain ⟨c', -, hc'⟩ := mem_allCalls.mp hs'
  obtain ⟨-, hinput, hmodel⟩ := reads_of_mem hc
  obtain ⟨-, hinput', hmodel'⟩ := reads_of_mem hc'
  have hid : s.id = s'.id := hout
  unfold StageCall.task
  rw [hinput, hinput', hmodel, hmodel', hid]
  exact ⟨rfl, rfl⟩

variable (inv modelPath i cfg) in
/-- Within a dataset every stage reads what was made before it. -/
theorem chain_stageCalls :
    (∀ t ∈ (inv.stageCalls modelPath i cfg).map (StageCall.task key w), t.out ∉ t.needs) ∧
      ((inv.stageCalls modelPath i cfg).map (StageCall.task key w)).Pairwise
        fun t u => u.out ∉ t.needs := by
  unfold stageCalls
  cases inv.rlcr with
  | true =>
      simp [StageCall.task, rolloutsCall, budgetEvalCall, DatasetConfig.rolloutsFile,
        DatasetConfig.budgetEvalFile]
  | false =>
      by_cases hprobe : cfg.runName = inv.probeDataset
      · simp [hprobe, StageCall.task, rolloutsCall, budgetEvalCall, hiddenCall, probeCall,
          DatasetConfig.rolloutsFile, DatasetConfig.budgetEvalFile, DatasetConfig.hiddenStatesFile,
          DatasetConfig.probeModel]
      · simp [hprobe, StageCall.task, rolloutsCall, budgetEvalCall, hiddenCall,
          DatasetConfig.rolloutsFile, DatasetConfig.budgetEvalFile, DatasetConfig.hiddenStatesFile]

/-- A dataset one of whose stages makes the input of a stage makes its output
too. -/
theorem exists_call_of_input (h : cfg ∈ inv.configs) (h' : cfg' ∈ inv.configs)
    (hs : s ∈ inv.stageCalls modelPath i cfg) (ht : t ∈ inv.stageCalls modelPath j cfg')
    {file : OutputId × String} (hfile : s.input = some file) (hid : t.id = file.1) :
    ∃ v ∈ inv.stageCalls modelPath j cfg', v.id = s.id := by
  obtain ⟨hdir, hinput, -⟩ := reads_of_mem hs
  obtain ⟨hdir', -, -⟩ := reads_of_mem ht
  have hsame : file.1.outputDir = s.id.outputDir := by
    rw [hinput] at hfile
    unfold inputOf at hfile
    split at hfile
    all_goals cases hfile
    all_goals rfl
  have hdirs : cfg.outputDir = cfg'.outputDir := by rw [← hdir, ← hdir', hid, hsame]
  have hmem : s.id ∈ (inv.stageCalls modelPath j cfg').map StageCall.id := by
    rw [map_id_stageCalls, ← datasetOutputs_congr h h' hdirs, ← map_id_stageCalls]
    exact List.mem_map.mpr ⟨s, hs, rfl⟩
  exact List.mem_map.mp hmem

theorem ordered_tasks : Ordered ((inv.allCalls modelPath).map (StageCall.task key w)) := by
  have hall : ∀ cs : List (DatasetConfig × ℕ), (∀ c ∈ cs, c.1 ∈ inv.configs) →
      Ordered ((cs.flatMap fun c => inv.stageCalls modelPath c.2 c.1).map
        (StageCall.task key w)) := by
    intro cs
    induction cs with
    | nil => exact fun _ => trivial
    | cons c cs ih =>
        intro hcs
        rw [List.flatMap_cons, List.map_append]
        obtain ⟨hself, hchain⟩ := chain_stageCalls inv modelPath c.2 c.1
        refine Ordered.append hself hchain (ih fun c hc => hcs c (List.mem_cons_of_mem _ hc)) ?_
        -- a later dataset that makes the input again is in the same directory
        rintro t ht ⟨u, hu, hmem⟩
        obtain ⟨s, hs, rfl⟩ := List.mem_map.mp ht
        obtain ⟨s', hs', rfl⟩ := List.mem_map.mp hu
        obtain ⟨c', hc', hs'⟩ := List.mem_flatMap.mp hs'
        obtain ⟨file, hfile, hid⟩ := List.mem_map.mp hmem
        obtain ⟨v, hv, hout⟩ := exists_call_of_input (hcs c List.mem_cons_self)
          (hcs c' (List.mem_cons_of_mem _ hc')) hs hs' (Option.mem_toList.mp hfile) hid.symm
        exact ⟨_, List.mem_map.mpr ⟨v, List.mem_flatMap.mpr ⟨c', hc', hv⟩, rfl⟩, hout⟩
  exact hall _ fun c hc => List.fst_mem_of_mem_zipIdx hc

end Tasks

/-! ## Results and tasks -/

section Results

variable {κ : Type} {key : Command → κ} {w w₁ v : World}

/-- The table of a dataset whose outputs are there is computed from all of them
but the probe. -/
theorem mem_tableFiles (hthere : ∀ s ∈ inv.stageCalls modelPath i cfg, w.nonempty s.id = true)
    (hs : s ∈ inv.stageCalls modelPath i cfg) :
    s.id ∈ inv.tableFiles w cfg ∨
      inv.rlcr = false ∧ cfg.runName = inv.probeDataset ∧ s.id = cfg.probeModel := by
  have hsome : ∀ {s}, s ∈ inv.stageCalls modelPath i cfg → (w.outputs s.id).isSome = true := by
    intro s hs
    have hnonempty := hthere s hs
    unfold World.nonempty at hnonempty
    cases hf : w.outputs s.id with
    | none => simp [hf] at hnonempty
    | some f => rfl
  have hbudgetEval : (w.outputs cfg.budgetEvalFile).isSome = true :=
    hsome (s := inv.budgetEvalCall modelPath i cfg) (mem_stageCalls.mpr (.inr (.inl rfl)))
  have hrollouts : (w.outputs cfg.rolloutsFile).isSome = true :=
    hsome (s := inv.rolloutsCall modelPath i cfg) (mem_stageCalls.mpr (.inl rfl))
  unfold tableFiles
  by_cases hrlcr : inv.rlcr = true
  · rw [if_pos hrlcr, if_pos hbudgetEval]
    rcases mem_stageCalls.mp hs with rfl | rfl | ⟨hboxed, -⟩
    · exact .inl (List.mem_cons_of_mem _ List.mem_cons_self)
    · exact .inl List.mem_cons_self
    · rw [hrlcr] at hboxed
      cases hboxed
  · have hboxed : inv.rlcr = false := by simpa using hrlcr
    have hhidden : (w.outputs cfg.hiddenStatesFile).isSome = true :=
      hsome (s := hiddenCall modelPath i cfg)
        (mem_stageCalls.mpr (.inr (.inr ⟨hboxed, .inl rfl⟩)))
    rw [if_neg hrlcr]
    simp only [List.all_cons, List.all_nil, hbudgetEval, hhidden, hrollouts, Bool.and_self, if_true]
    rcases mem_stageCalls.mp hs with rfl | rfl | ⟨-, rfl | ⟨hlead, rfl⟩⟩
    · exact .inl (List.mem_cons_of_mem _ (List.mem_cons_of_mem _ List.mem_cons_self))
    · exact .inl List.mem_cons_self
    · exact .inl (List.mem_cons_of_mem _ List.mem_cons_self)
    · exact .inr ⟨hboxed, hlead, rfl⟩

theorem mem_stage5Files (hthere : ∀ s ∈ inv.allCalls modelPath, w.nonempty s.id = true)
    (hprobe : inv.rlcr = false → inv.probeConfig.isSome = true)
    (hs : s ∈ inv.allCalls modelPath) : s.id ∈ inv.stage5Files w := by
  obtain ⟨c, hc, hmem⟩ := mem_allCalls.mp hs
  have hcfg : c.1 ∈ inv.configs := List.fst_mem_of_mem_zipIdx hc
  rcases mem_tableFiles (fun t ht => hthere t (mem_allCalls.mpr ⟨c, hc, ht⟩)) hmem with
    htable | ⟨hboxed, hlead, hid⟩
  · exact List.mem_append_right _ (List.mem_flatMap.mpr ⟨c.1, hcfg, htable⟩)
  · -- the configuration found for the probe is in the same directory
    obtain ⟨cfg, hfind⟩ := Option.isSome_iff_exists.mp (hprobe hboxed)
    have hname := List.find?_some hfind
    simp only [decide_eq_true_eq] at hname
    have hdir : cfg.outputDir = c.1.outputDir := by
      rw [outputDir_of_mem (List.mem_of_find?_eq_some hfind), outputDir_of_mem hcfg, hname, hlead]
    refine List.mem_append_left _ ?_
    rw [hboxed, if_neg Bool.false_ne_true, hfind, hid]
    refine List.mem_singleton.mpr ?_
    unfold DatasetConfig.probeModel
    rw [hdir]

theorem model_fresh_iff (hw : w.Numbered) (h : inv.Merged w w₁) (hv : v.merges = w₁.merges) :
    inv.modelPath v = inv.modelPath w ∧
      ((∀ a ∈ v.modelWriters (inv.modelPath w), a.finished = true ∧
        a.command = .merge ((inv.modelPath w).dropLast ++ ["actor"]) (inv.modelPath w)) ↔
      ∀ p ∈ inv.reusedModel w, ∀ a ∈ w.modelWriters p, a.finished = true) := by
  rcases h.merges with ⟨hreused, hmerges⟩ | ⟨hnone, size, hmerges⟩
  · obtain ⟨p, hp⟩ := Option.isSome_iff_exists.mp hreused
    have hpath := modelPath_of_reused hp
    have hmerges : v.merges = w.merges := hv.trans hmerges
    have hwriters : v.modelWriters p = w.modelWriters p := by
      unfold World.modelWriters
      rw [hmerges]
    refine ⟨by rw [modelPath, modelPath, hmerges], ?_⟩
    rw [hpath, hwriters]
    constructor
    · intro hall q hq a ha
      rw [hp] at hq
      obtain rfl := Option.some.inj hq
      exact (hall a ha).1
    · intro hall a ha
      exact ⟨hall p hp a ha, (hw.merges p a (Option.mem_toList.mp ha)).2⟩
  · have hpath := modelPath_of_merged hnone
    have hmerges := hv.trans hmerges
    have hwriters : v.modelWriters (inv.ckpt ++ ["merge"]) =
        [⟨w.attempts, .merge (inv.ckpt ++ ["actor"]) (inv.ckpt ++ ["merge"]), [], true⟩] := by
      unfold World.modelWriters
      rw [hmerges]
      simp [World.setMerge]
    have hckpt : v.merges inv.ckpt = w.merges inv.ckpt := by
      rw [hmerges]
      simp [World.setMerge]
    refine ⟨by rw [modelPath, modelPath, hckpt], ?_⟩
    rw [hpath, hwriters, hnone]
    simp

theorem Merged.modelWriters_eq (h : inv.Merged w w₁) {p : Path}
    (hreused : inv.reusedModel w = some p) : w₁.modelWriters p = w.modelWriters p := by
  rcases h.merges with ⟨-, hmerges⟩ | ⟨hnone, -⟩
  · unfold World.modelWriters
    rw [hmerges]
  · rw [hreused] at hnone
    cases hnone

/-- What is current after the merge stage was made with a model that is reused:
the number of a merge made now is newer than what any output has read. -/
theorem Merged.reused_of_current (h : inv.Merged w w₁) (hw : w.Numbered)
    (hs : s ∈ inv.allCalls (inv.modelPath w)) (hcurrent : s.Current key w₁) :
    ∀ p ∈ s.model, inv.reusedModel w = some p := by
  intro p hp
  have hpath : p = inv.modelPath w := by
    obtain ⟨c, -, hc⟩ := mem_allCalls.mp hs
    obtain ⟨-, -, hmodel⟩ := reads_of_mem hc
    rw [hmodel] at hp
    split at hp
    · cases hp
    · exact (Option.some.inj hp).symm
  rcases h.merges with ⟨hsome, -⟩ | ⟨hnone, size, hmerges⟩
  · obtain ⟨q, hq⟩ := Option.isSome_iff_exists.mp hsome
    rw [hq, hpath, modelPath_of_reused hq]
  · obtain ⟨f, hf, -, -, -, hinputs⟩ := hcurrent
    have hwriter : (⟨w.attempts, .merge (inv.ckpt ++ ["actor"]) (inv.ckpt ++ ["merge"]), [],
        true⟩ : Attempt) ∈ s.reads w₁ := by
      unfold StageCall.reads
      rw [Option.mem_def.mp hp, hpath, modelPath_of_merged hnone]
      refine List.mem_append_left _ (Option.mem_toList.mpr ?_)
      rw [hmerges]
      simp [World.setMerge]
    have hread : w.attempts ∈ f.attempt.inputs := by
      rw [hinputs]
      exact List.mem_map.mpr ⟨_, hwriter, rfl⟩
    rw [h.outputs] at hf
    exact absurd ((hw.outputs s.id f hf).2 _ hread) (Nat.lt_irrefl _)

/-- What the pass finds is up to date exactly when the invocation found it so. -/
theorem upToDate_iff (hw : w.Numbered) (h : inv.Merged w w₁) :
    UpToDate ((inv.allCalls (inv.modelPath w)).map (StageCall.task key w₁)) (w₁.store key) ↔
      ∀ s ∈ inv.allCalls (inv.modelPath w), w.nonempty s.id = true →
        s.Current key w ∧ s.InputThere w ∧ ∀ p ∈ s.model, inv.reusedModel w = some p := by
  have hnonempty : ∀ id, w₁.nonempty id = w.nonempty id := by
    intro id
    unfold World.nonempty
    rw [h.outputs]
  unfold UpToDate
  rw [List.forall_mem_map]
  refine forall₂_congr fun s hs => ?_
  have hout : (s.task key w₁).out = s.id := rfl
  have hneeds : (∀ i ∈ (s.task key w₁).needs, (w₁.store key).Present i) ↔ s.InputThere w := by
    rw [forall_needs]
    exact forall₂_congr fun file _ => by rw [store_present, hnonempty]
  have hinput : s.InputThere w → s.InputThere w₁ :=
    fun hthere file hfile => (hnonempty file.1).trans (hthere file hfile)
  rw [hout, store_present, hnonempty, hneeds]
  refine imp_congr_right fun hpresent => ⟨?_, ?_⟩
  · rintro ⟨hcurrent, hthere⟩
    have hcurrent := (current_task (hinput hthere)).mp hcurrent
    have hreused := h.reused_of_current hw hs hcurrent
    exact ⟨hcurrent.congr h.outputs.symm fun p hp => (h.modelWriters_eq (hreused p hp)).symm,
      hthere, hreused⟩
  · rintro ⟨hcurrent, hthere, hreused⟩
    exact ⟨(current_task (hinput hthere)).mpr
      (hcurrent.congr h.outputs fun p hp => h.modelWriters_eq (hreused p hp)), hthere⟩

theorem current_tasks_iff (hv : v.merges = w₁.merges)
    (hpass : Pass inv.force ((inv.allCalls modelPath).map (StageCall.task key w₁)) (w₁.store key)
      (v.store key)) (hprobe : inv.rlcr = false → inv.probeConfig.isSome = true) :
    (∀ s ∈ inv.allCalls modelPath, s.id ∈ inv.stage5Files v → s.Current key v) ↔
      ∀ t ∈ (inv.allCalls modelPath).map (StageCall.task key w₁), (v.store key).Current t := by
  have htask : ∀ {s}, s ∈ inv.allCalls modelPath →
      s.task key w₁ ∈ (inv.allCalls modelPath).map (StageCall.task key w₁) :=
    fun hs => List.mem_map.mpr ⟨_, hs, rfl⟩
  have hthere : ∀ s ∈ inv.allCalls modelPath, v.nonempty s.id = true :=
    fun s hs => store_present.mp (hpass.present_out (htask hs))
  rw [List.forall_mem_map]
  refine forall₂_congr fun s hs => ?_
  have hinputs : s.InputThere v := fun file hfile =>
    store_present.mp (forall_needs.mp (hpass.needs_present (htask hs)) file hfile)
  rw [← task_congr hv, current_task hinputs]
  exact ⟨fun h => h (mem_stage5Files hthere hprobe hs), fun h _ => h⟩

theorem agree_tasks_iff :
    Agree ((inv.allCalls modelPath).map (StageCall.task key w)) ↔
      ∀ s ∈ inv.allCalls modelPath, ∀ t ∈ inv.allCalls modelPath,
        s.id = t.id → key s.command = key t.command := by
  unfold Agree
  simp only [List.forall_mem_map]
  refine forall₂_congr fun s _ => forall₂_congr fun t _ => imp_congr_right fun _ => ?_
  exact ⟨fun h => congrArg Prod.fst h, fun h => congrArg (·, true) h⟩

end Results

end Invocation

/-! ## Histories -/

/-- After any history, each invocation of it killed at any moment, an invocation
that finishes has fresh results exactly when nothing it starts from is stale.
`key` says what of a command line counts: all of it, or all but the number of
devices. -/
theorem results_fresh_iff {κ : Type} (key : Command → κ) (history : List Invocation)
    (inv : Invocation) (hdry : inv.dryRun = false)
    (hok : (inv.evaluate (worldAfter history)).1 = .ok ()) :
    inv.ResultsFresh key (inv.evaluate (worldAfter history)).2 ↔
      inv.NothingStale key (worldAfter history) := by
  have hnumbered := worldAfter_numbered history
  obtain ⟨w₁, hmerged, hmerges, hpass, hprobe⟩ :=
    (Invocation.evaluate_pass key hdry).returned rfl hok
  obtain ⟨hpath, hmodel⟩ := Invocation.model_fresh_iff hnumbered hmerged hmerges
  have hstore : (w₁.store key).Numbered := by
    intro id a ha
    obtain ⟨f, hf, rfl⟩ := Option.map_eq_some_iff.mp ha
    have hf : w₁.outputs id = some f := (Option.filter_eq_some_iff.mp hf).1
    rw [hmerged.outputs] at hf
    obtain ⟨hnumber, hinputs⟩ := hnumbered.outputs id f hf
    exact ⟨Nat.lt_of_lt_of_le hnumber hmerged.attempts,
      fun n hn => Nat.lt_of_lt_of_le (hinputs n hn) hmerged.attempts⟩
  unfold Invocation.ResultsFresh Invocation.NothingStale
  rw [hpath, hmodel, Invocation.current_tasks_iff hmerges hpass hprobe,
    hpass.current_iff hstore Invocation.alike_tasks Invocation.ordered_tasks,
    Invocation.upToDate_iff hnumbered hmerged, Invocation.agree_tasks_iff]
  exact and_left_comm

/-- After truncated rollouts a forced invocation has fresh results. -/
theorem results_fresh_forced :
    (oneDataset true undisturbed).ResultsFresh id
      ((oneDataset true undisturbed).evaluate
        (worldAfter [oneDataset false rolloutsKilled])).2 :=
  (results_fresh_iff id [oneDataset false rolloutsKilled] (oneDataset true undisturbed) rfl
    (by decide +kernel)).mpr (by decide +kernel)

/-! ### Two mixtures

The mode is `boxed` and the dataset is the probe dataset, so all stages run. -/

/-- An invocation on the dataset, into one output directory for all
checkpoints. -/
def probeRun (ckpt : Path) (force : Bool) (fate : Call → Fate) : Invocation where
  ckpt := ckpt
  checkpoint := ⟨true, false⟩
  rlcr := false
  configDir := ["configs"]
  configFiles := [("lead", { runName := "lead", dataFiles := ["lead.parquet"] })]
  datasets := []
  probeDataset := "lead"
  outputRoot := some ["out"]
  skipMerge := false
  force := force
  dryRun := false
  visibleDevices := none
  fate := fate

/-- The driver is killed between the budget evaluation and the hidden states. -/
def hiddenKilled : Call → Fate
  | .dataset 0 .hidden => .killedBefore
  | _ => .goesOn (.finished 100)

/-- A second checkpoint is evaluated into the directory of the first, and gets
its table.  After an interrupted forced run a plain one combines new rollouts
and budget evaluations with old hidden states and an old probe, although no
command ever changed. -/
theorem results_mixed :
    (((probeRun ["b"] false undisturbed).evaluate
        (worldAfter [probeRun ["a"] false undisturbed])).1 = .ok () ∧
      ¬ (probeRun ["b"] false undisturbed).ResultsFresh id
        ((probeRun ["b"] false undisturbed).evaluate
          (worldAfter [probeRun ["a"] false undisturbed])).2) ∧
    ((probeRun ["a"] false undisturbed).evaluate
        (worldAfter [probeRun ["a"] false undisturbed,
          probeRun ["a"] true hiddenKilled])).1 = .ok () ∧
      ¬ (probeRun ["a"] false undisturbed).ResultsFresh (fun _ => ())
        ((probeRun ["a"] false undisturbed).evaluate
          (worldAfter [probeRun ["a"] false undisturbed,
            probeRun ["a"] true hiddenKilled])).2 := by
  decide +kernel

end RLCM.Eval
