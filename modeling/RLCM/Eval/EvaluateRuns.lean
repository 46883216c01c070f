/-
# `RLCM.Eval.EvaluateRuns` — which histories of evaluations are sound

An event of the log is sound when the output it is about was written by an
attempt that ran to its end.  The driver cannot tell a truncated output from a
complete one, so a history with kills may log unsound skips and uses.

`Careful` is the condition on an invocation and the disk it starts from that
rules this out: unless forced, it finds no non-empty leftover of an unfinished
attempt among the outputs it consults, and it does not reuse an unfinished
merge.  `eventsSound_of_carefulFrom` goes by a triple for every stage
(`runStage_keeps`) and for a whole invocation (`evaluate_keeps`), and by
induction over the history.
-/
import RLCM.Eval.Evaluate

namespace RLCM.Eval

open Py Interrupt

/-! ## The effect of one change on the disk -/

namespace World

variable (w : World) (id id' : OutputId)

@[simp] theorem setOutput_outputs_self (file : Option File) :
    (w.setOutput id file).outputs id = file := by simp [setOutput]

theorem setOutput_outputs_of_ne (file : Option File) (h : id' ≠ id) :
    (w.setOutput id file).outputs id' = w.outputs id' := by simp [setOutput, h]

@[simp] theorem setMerge_modelWriters_self (p : Path) (dir : MergeDir) :
    (w.setMerge p dir).modelWriters p = dir.attempt.toList := by simp [setMerge, modelWriters]

@[simp] theorem setMarker_outputs : (w.setMarker id).outputs = w.outputs := rfl

variable {w id}

theorem complete_of_nonempty (h : w.NoLeftover id) (hne : w.nonempty id = true) :
    w.Complete id := by
  unfold nonempty at hne
  cases hf : w.outputs id with
  | none => simp [hf] at hne
  | some f =>
      have hsize : 0 < f.size := by simpa [hf] using hne
      exact ⟨f, hf, hsize, h f hf hsize⟩

theorem Complete.writers_finished (h : w.Complete id) : ∀ a ∈ w.writers id, a.finished = true := by
  obtain ⟨f, hf, _, hfin⟩ := h
  intro a ha
  simp only [writers, hf, Option.toList_some, List.map_cons, List.map_nil,
    List.mem_singleton] at ha
  rw [ha]
  exact hfin

end World

/-! ## The condition -/

/-- Every logged output was written in full. -/
def EventsSound (w : World) : Prop := ∀ e ∈ w.events, e.attempt.finished = true

instance (w : World) : Decidable (EventsSound w) :=
  inferInstanceAs (Decidable (∀ e ∈ w.events, e.attempt.finished = true))

theorem eventsSound_append {events logged : List Event}
    (h : ∀ e ∈ events, e.attempt.finished = true) (hnew : ∀ e ∈ logged, e.attempt.finished = true) :
    ∀ e ∈ events ++ logged, e.attempt.finished = true := by
  intro e he
  rcases List.mem_append.mp he with he | he
  · exact h e he
  · exact hnew e he

theorem finished_of_mem_map {event : Attempt → Event} (hevent : ∀ a, (event a).attempt = a)
    {attempts : List Attempt} (h : ∀ a ∈ attempts, a.finished = true) :
    ∀ e ∈ attempts.map event, e.attempt.finished = true := by
  intro e he
  obtain ⟨a, ha, rfl⟩ := List.mem_map.mp he
  rw [hevent]
  exact h a ha

namespace Invocation

variable (inv : Invocation)

def datasetOutputs (cfg : DatasetConfig) : List OutputId :=
  [cfg.rolloutsFile, cfg.budgetEvalFile] ++
    if inv.rlcr then []
    else [cfg.hiddenStatesFile] ++
      if cfg.runName = inv.probeDataset then [cfg.probeModel] else []

variable {inv} in
theorem mem_datasetOutputs {cfg : DatasetConfig} {id : OutputId} :
    id ∈ inv.datasetOutputs cfg ↔
      id = cfg.rolloutsFile ∨ id = cfg.budgetEvalFile ∨
        inv.rlcr = false ∧
          (id = cfg.hiddenStatesFile ∨ cfg.runName = inv.probeDataset ∧ id = cfg.probeModel) := by
  unfold datasetOutputs
  cases inv.rlcr with
  | true => simp
  | false =>
      by_cases hprobe : cfg.runName = inv.probeDataset
      · simp [hprobe]
      · simp [hprobe]

def consulted : List OutputId := inv.configs.flatMap inv.datasetOutputs

/-- The model path `stage_merge` returns without merging. -/
def reusedModel (w : World) : Option Path :=
  if inv.checkpoint.configJson || (w.merges inv.ckpt).configJson.isSome then some inv.ckpt
  else
    let mergeDir := inv.ckpt ++ ["merge"]
    if (w.merges mergeDir).configJson.any (0 < ·) ||
        (inv.skipMerge && (w.merges mergeDir).isThere) then some mergeDir
    else none

/-- Unless it is forced, the invocation finds no non-empty leftover of an
unfinished attempt among the outputs it consults; and it reuses no unfinished
merge. -/
def Careful (w : World) : Prop :=
  (inv.force = true ∨ ∀ id ∈ inv.consulted, w.NoLeftover id) ∧
    ∀ p ∈ inv.reusedModel w, ∀ a ∈ w.modelWriters p, a.finished = true

instance (w : World) : Decidable (inv.Careful w) :=
  inferInstanceAs (Decidable (_ ∧ _))

/-! ## One invocation -/

/-- What holds between the stage calls: `done` are the outputs of the stages
already passed. -/
structure Running (modelPath : Path) (done : List OutputId) (w : World) : Prop where
  events : EventsSound w
  clean : inv.force = true ∨ ∀ id ∈ inv.consulted, w.NoLeftover id
  complete : inv.dryRun = false → ∀ id ∈ done, w.Complete id
  model : inv.dryRun = false → ∀ a ∈ w.modelWriters modelPath, a.finished = true

variable {inv} {modelPath : Path} {done : List OutputId}

theorem Running.mono {done' : List OutputId} {w : World} (h : inv.Running modelPath done w)
    (hsub : done' ⊆ done) : inv.Running modelPath done' w :=
  ⟨h.events, h.clean, fun hdry id hid => h.complete hdry id (hsub hid), h.model⟩

theorem Running.setMarker {w : World} (h : inv.Running modelPath done w) (id : OutputId) :
    inv.Running modelPath done (w.setMarker id) :=
  ⟨h.events, h.clean, h.complete, h.model⟩

theorem Running.log {w : World} (h : inv.Running modelPath done w) {events : List Event}
    (hnew : ∀ e ∈ events, e.attempt.finished = true) :
    inv.Running modelPath done (w.log events) :=
  ⟨eventsSound_append h.events hnew, h.clean, h.complete, h.model⟩

theorem Running.cons {w : World} (h : inv.Running modelPath done w) {id : OutputId}
    (hid : inv.dryRun = false → w.Complete id) : inv.Running modelPath (id :: done) w := by
  refine ⟨h.events, h.clean, fun hdry id' hid' => ?_, h.model⟩
  rcases List.mem_cons.mp hid' with rfl | hid'
  · exact hid hdry
  · exact h.complete hdry id' hid'

/-- After its own script, a stage that was done before is done again once its
new output is complete. -/
theorem Running.cons_of_filter {w : World} {id : OutputId}
    (h : inv.Running modelPath (done.filter (· ≠ id)) w)
    (hid : inv.dryRun = false → w.Complete id) : inv.Running modelPath (id :: done) w := by
  refine (h.cons hid).mono (fun id' hid' => ?_)
  by_cases hEq : id' = id
  · exact List.mem_cons.mpr (Or.inl hEq)
  · refine List.mem_cons_of_mem _ (List.mem_filter.mpr ⟨?_, by simpa using hEq⟩)
    exact (List.mem_cons.mp hid').resolve_left hEq

/-- What a stage reads, the model and the output of an earlier stage, was
written in full. -/
theorem Running.reads_finished {w : World} (h : inv.Running modelPath done w)
    (hdry : inv.dryRun = false) {input : Option (OutputId × String)} {model : Option Path}
    (hinput : ∀ file ∈ input, file.1 ∈ done) (hmodel : ∀ p ∈ model, p = modelPath) :
    ∀ a ∈ model.elim [] w.modelWriters ++ input.elim [] (fun file => w.writers file.1),
      a.finished = true := by
  intro a ha
  rcases List.mem_append.mp ha with ha | ha
  · cases model with
    | none => cases ha
    | some p =>
        rw [hmodel p rfl] at ha
        exact h.model hdry a ha
  · cases input with
    | none => cases ha
    | some file => exact (h.complete hdry file.1 (hinput file rfl)).writers_finished a ha

theorem outcome_keeps {P : World → Prop} (call : Call) (hP : ∀ w, P w → EventsSound w) :
    Triple P (inv.outcome call) (fun _ => P) EventsSound := by
  unfold outcome
  split
  case h_1 => exact Triple.stop hP
  case h_2 outcome => exact Triple.pure' (fun _ hw => hw)

theorem isDone_keeps (id : OutputId) :
    Triple (inv.Running modelPath done) (isDone id)
      (fun isDone w => inv.Running modelPath done w ∧ (isDone = true → w.nonempty id = true))
      EventsSound := by
  refine Triple.bind (Q := fun w s => w = s ∧ inv.Running modelPath done s)
    (Triple.get fun s hs => ⟨rfl, hs⟩) (fun w => ?_)
  refine Triple.ite (fun h => ?_) (fun _ => Triple.ite (fun h => ?_) (fun _ => ?_))
  · refine Triple.pure' ?_
    rintro s ⟨rfl, hs⟩
    exact ⟨hs, fun _ => (Bool.and_eq_true _ _ ▸ h).1⟩
  · refine Triple.bind (Q := fun _ s => inv.Running modelPath done s ∧ s.nonempty id = true)
      (Triple.modify ?_) (fun _ => Triple.pure' fun s hs => ⟨hs.1, fun _ => hs.2⟩)
    rintro s ⟨rfl, hs⟩
    exact ⟨hs.setMarker id, h⟩
  · refine Triple.pure' ?_
    rintro s ⟨rfl, hs⟩
    exact ⟨hs, fun hfalse => absurd hfalse (by decide)⟩

/-- What a script that ran leaves: its output was written in full, the other
outputs are as they were. -/
theorem Running.setOutput {w : World} (h : inv.Running modelPath done w) {id : OutputId} {f : File}
    (hf : f.attempt.finished = true) :
    inv.Running modelPath (done.filter (· ≠ id)) (w.setOutput id (some f)) := by
  refine ⟨h.events, ?_, fun hdry id' hid' => ?_, h.model⟩
  · refine h.clean.imp_right (fun hclean id' hid' g hg hsize => ?_)
    by_cases hEq : id' = id
    · subst hEq
      rw [World.setOutput_outputs_self] at hg
      cases hg
      exact hf
    · rw [World.setOutput_outputs_of_ne _ _ _ _ hEq] at hg
      exact hclean id' hid' g hg hsize
  · obtain ⟨hmem, hne⟩ := List.mem_filter.mp hid'
    obtain ⟨g, hg, hcomplete⟩ := h.complete hdry id' hmem
    refine ⟨g, ?_, hcomplete⟩
    rw [World.setOutput_outputs_of_ne _ _ _ _ (by simpa using hne)]
    exact hg

/-- The script of a stage: what it reads was written in full, and if the driver
goes on, so was what it wrote. -/
theorem run_keeps (id : OutputId) (outcome : Outcome) (command : Command)
    {reads : World → List Attempt}
    (hreads : inv.dryRun = false → ∀ w, inv.Running modelPath done w →
      ∀ a ∈ reads w, a.finished = true) :
    Triple (inv.Running modelPath done)
      (inv.run id.stage outcome command reads
        (fun a w => w.setOutput id (outcome.file (w.outputs id) a)))
      (fun _ w => inv.Running modelPath (done.filter (· ≠ id)) w ∧
        (inv.dryRun = false → ∃ f, w.outputs id = some f ∧ f.attempt.finished = true))
      EventsSound := by
  refine Triple.ite (fun hdry => Triple.pure' fun s hs => ?_) (fun hdry => ?_)
  · exact ⟨hs.mono (fun _ hid => List.mem_of_mem_filter hid),
      fun hno => absurd hdry (by simp [hno])⟩
  · have hdry : inv.dryRun = false := by simpa using hdry
    have huse : ∀ s, inv.Running modelPath done s →
        ∀ e ∈ (reads s).map (Event.use id.stage), e.attempt.finished = true := by
      intro s hs
      exact finished_of_mem_map (fun _ => rfl) (hreads hdry s hs)
    refine Triple.bind (Q := fun _ s => EventsSound s ∧ (outcome.continues = true →
        inv.Running modelPath (done.filter (· ≠ id)) s ∧
          ∃ f, s.outputs id = some f ∧ f.attempt.finished = true))
      (Triple.modify fun s hs => ⟨?_, fun hgo => ?_⟩)
      (fun _ => Triple.require (fun hgo s hs => ⟨(hs.2 hgo).1, fun _ => (hs.2 hgo).2⟩)
        (fun _ s hs => hs.1))
    · exact eventsSound_append hs.events (huse s hs)
    · cases outcome with
      | finished size =>
          have hlog := hs.log (huse s hs)
          have hcount : inv.Running modelPath done
              (s.countAttempt.log ((reads s).map (Event.use id.stage))) :=
            ⟨hlog.events, hlog.clean, hlog.complete, hlog.model⟩
          exact ⟨hcount.setOutput rfl, _, World.setOutput_outputs_self _ _ _, rfl⟩
      | finishedKilled size => cases hgo
      | killed leftover => cases hgo

/-- One stage: with its input complete, the stage logs only outputs written in
full, and if the driver goes on, its own output is complete. -/
theorem runStage_keeps {runName : String} {call : Call} {id : OutputId}
    {input : Option (OutputId × String)} {model : Option Path} {command : Command}
    (hid : id ∈ inv.consulted) (hinput : ∀ file ∈ input, file.1 ∈ done)
    (hmodel : ∀ p ∈ model, p = modelPath) :
    Triple (inv.Running modelPath done) (inv.runStage runName call id input model command)
      (fun _ => inv.Running modelPath (id :: done)) EventsSound := by
  refine (outcome_keeps call fun _ h => h.events).bind (fun outcome => ?_)
  refine Triple.bind (Q := fun _ => inv.Running modelPath done)
    (Triple.get fun s hs => hs) (fun w => ?_)
  refine Triple.bind (Q := fun _ => inv.Running modelPath done)
    (Triple.require (fun _ s hs => hs) (fun _ s hs => hs.events)) (fun _ => ?_)
  refine (isDone_keeps id).bind (fun isDone => ?_)
  refine Triple.ite (fun hskip => Triple.modify fun s hs => ?_) (fun _ => ?_)
  · -- skipped: not forced, so the non-empty output is no leftover
    obtain ⟨hdone, hforce⟩ := Bool.and_eq_true _ _ ▸ hskip
    have hclean := hs.1.clean.resolve_left (by simpa using hforce)
    have hcomplete := World.complete_of_nonempty (hclean id hid) (hs.2 hdone)
    exact (hs.1.log (finished_of_mem_map (fun _ => rfl) hcomplete.writers_finished)).cons
      (fun _ => hcomplete)
  · refine Triple.bind ((run_keeps id outcome command ?_).conseq (fun s hs => hs.1)
      (fun _ s hs => hs)) (fun _ => ?_)
    · intro hdry s hs
      exact hs.reads_finished hdry hinput hmodel
    · refine Triple.bind (Q := fun w s => w = s ∧
          (inv.Running modelPath (done.filter (· ≠ id)) s ∧
            (inv.dryRun = false → ∃ f, s.outputs id = some f ∧ f.attempt.finished = true)))
        (Triple.get fun s hs => ⟨rfl, hs⟩) (fun w => ?_)
      refine Triple.bind (Q := fun _ => inv.Running modelPath (id :: done))
        (Triple.require ?_ ?_) (fun _ => Triple.modify fun s hs => hs.setMarker id)
      · rintro hok s ⟨rfl, hs, hwritten⟩
        have hcomplete : inv.dryRun = false → w.Complete id := by
          intro hdry
          obtain ⟨f, hf, hfin⟩ := hwritten hdry
          refine ⟨f, hf, ?_, hfin⟩
          simpa [hdry, World.nonempty, hf] using hok
        exact hs.cons_of_filter hcomplete
      · rintro _ s ⟨rfl, hs, _⟩
        exact hs.events

theorem stageMerge_keeps :
    Triple (fun w => EventsSound w ∧ inv.Careful w) inv.stageMerge
      (fun modelPath => inv.Running modelPath []) EventsSound := by
  refine (outcome_keeps .merge fun _ h => h.1).bind (fun outcome => ?_)
  refine Triple.bind (Q := fun w s => w = s ∧ (EventsSound s ∧ inv.Careful s))
    (Triple.get fun s hs => ⟨rfl, hs⟩) (fun w => ?_)
  -- a reused model path, whichever of the two it is
  have hreuse : ∀ p, inv.reusedModel w = some p →
      Triple (fun s => w = s ∧ (EventsSound s ∧ inv.Careful s))
        (do Prog.modify (fun w => w.log ((w.modelWriters p).map (Event.skip .merge)))
            pure p : Prog World Stop Path)
        (fun modelPath => inv.Running modelPath []) EventsSound := by
    intro p hp
    refine Triple.bind (Q := fun _ => inv.Running p []) (Triple.modify ?_)
      (fun _ => Triple.pure' fun _ hs => hs)
    rintro s ⟨rfl, hs, hcareful⟩
    exact ⟨eventsSound_append hs (finished_of_mem_map (fun _ => rfl) (hcareful.2 p hp)),
      hcareful.1, fun _ => List.forall_mem_nil _, fun _ => hcareful.2 p hp⟩
  refine Triple.ite (fun hhf => hreuse _ (by simp [reusedModel, hhf])) (fun hhf => ?_)
  refine Triple.ite (fun hmerged => hreuse _ ?_) (fun _ => ?_)
  · rw [reusedModel, if_neg hhf, if_pos hmerged]
  · refine Triple.bind (Q := fun _ s => w = s ∧ (EventsSound s ∧ inv.Careful s))
      (Triple.require (fun _ s hs => hs) (fun _ s hs => hs.2.1)) (fun _ => ?_)
    refine Triple.bind (Q := fun _ => inv.Running (inv.ckpt ++ ["merge"]) []) ?_
      (fun _ => Triple.pure' fun _ hs => hs)
    refine Triple.ite (fun hdry => Triple.pure' fun s hs => ?_) (fun hdry => ?_)
    · exact ⟨hs.2.1, hs.2.2.1, fun _ => List.forall_mem_nil _,
        fun hno => absurd hdry (by simp [hno])⟩
    · refine Triple.bind (Q := fun _ s => EventsSound s ∧ (outcome.continues = true →
          inv.Running (inv.ckpt ++ ["merge"]) [] s))
        (Triple.modify fun s hs => ⟨?_, fun hgo => ?_⟩)
        (fun _ => Triple.require (fun hgo s hs => hs.2 hgo) (fun _ s hs => hs.1))
      · exact eventsSound_append hs.2.1 (by simp)
      · cases outcome with
        | finished size =>
            refine ⟨eventsSound_append hs.2.1 (by simp), hs.2.2.1, fun _ => List.forall_mem_nil _,
              fun _ a ha => ?_⟩
            rw [World.setMerge_modelWriters_self] at ha
            obtain rfl := List.mem_singleton.mp ha
            rfl
        | finishedKilled size => cases hgo
        | killed leftover => cases hgo

theorem evaluateDataset_keeps {cfg : DatasetConfig} (hcfg : cfg ∈ inv.configs) (i : ℕ) :
    Triple (inv.Running modelPath done) (inv.evaluateDataset modelPath i cfg)
      (fun _ => inv.Running modelPath (done ++ inv.datasetOutputs cfg)) EventsSound := by
  have hconsulted : inv.datasetOutputs cfg ⊆ inv.consulted :=
    fun id hid => List.mem_flatMap.mpr ⟨cfg, hcfg, hid⟩
  have hmodel : ∀ p ∈ some modelPath, p = modelPath := by
    intro p hp
    exact (Option.mem_some_iff.mp hp).symm
  refine Triple.bind (Q := fun _ => inv.Running modelPath done)
    (Triple.require (fun _ s hs => hs) (fun _ s hs => hs.events)) (fun _ => ?_)
  refine (runStage_keeps (hconsulted (by simp [mem_datasetOutputs])) (by simp) hmodel).bind
    (fun _ => ?_)
  refine (runStage_keeps (hconsulted (by simp [mem_datasetOutputs])) (by simp) hmodel).bind
    (fun _ => ?_)
  refine Triple.ite (fun hrlcr => Triple.pure' fun s hs => hs.mono fun id hid => ?_)
    (fun hrlcr => ?_)
  · rw [List.mem_append, mem_datasetOutputs, hrlcr] at hid
    simp only [List.mem_cons]
    tauto
  · have hrlcr : inv.rlcr = false := by simpa using hrlcr
    refine (runStage_keeps (hconsulted (by simp [mem_datasetOutputs, hrlcr])) (by simp)
      hmodel).bind (fun _ => ?_)
    refine Triple.ite (fun hprobe => ?_)
      (fun hprobe => Triple.pure' fun s hs => hs.mono fun id hid => ?_)
    · refine (runStage_keeps (hconsulted (by simp [mem_datasetOutputs, hrlcr, hprobe]))
        (by simp) (by simp)).conseq (fun s hs => hs) (fun _ s hs => hs.mono fun id hid => ?_)
      rw [List.mem_append, mem_datasetOutputs] at hid
      simp only [List.mem_cons]
      tauto
    · rw [List.mem_append, mem_datasetOutputs] at hid
      simp only [List.mem_cons]
      tauto

theorem tableFiles_subset (w : World) (cfg : DatasetConfig) :
    inv.tableFiles w cfg ⊆ inv.datasetOutputs cfg := by
  intro id hid
  rw [mem_datasetOutputs]
  unfold tableFiles at hid
  split at hid
  case isTrue hrlcr =>
    split at hid
    · simp only [List.mem_cons, List.not_mem_nil, or_false] at hid
      tauto
    · cases hid
  case isFalse hrlcr =>
    dsimp only at hid
    split at hid
    · simp only [List.mem_cons, List.not_mem_nil, or_false] at hid
      simp only [Bool.not_eq_true] at hrlcr
      tauto
    · cases hid

/-- The table: with all consulted outputs complete, it is computed from files
written in full. -/
theorem naturalEvalStage_keeps (hdry : inv.dryRun = false) :
    Triple (inv.Running modelPath inv.consulted) inv.naturalEvalStage (fun _ => EventsSound)
      EventsSound := by
  refine (outcome_keeps .naturalEval fun _ h => h.events).bind (fun _ => ?_)
  refine Triple.bind (Q := fun _ => inv.Running modelPath inv.consulted)
    (Triple.get fun s hs => hs) (fun w => ?_)
  refine Triple.bind (Q := fun probeFiles s => inv.Running modelPath inv.consulted s ∧
    probeFiles ⊆ inv.consulted) ?_ (fun probeFiles => ?_)
  · refine Triple.ite (fun _ => Triple.pure' fun s hs => ⟨hs, List.nil_subset _⟩) (fun hrlcr => ?_)
    cases hcfg : inv.probeConfig with
    | none => exact Triple.stop fun s hs => hs.events
    | some cfg =>
        refine Triple.pure' fun s hs => ⟨hs, ?_⟩
        have hmem := List.mem_of_find?_eq_some hcfg
        have hname := List.find?_some hcfg
        intro id hid
        obtain rfl := List.mem_singleton.mp hid
        refine List.mem_flatMap.mpr ⟨cfg, hmem, ?_⟩
        simp only [Bool.not_eq_true] at hrlcr
        simp only [decide_eq_true_eq] at hname
        simp [mem_datasetOutputs, hrlcr, hname]
  · refine Triple.bind (Q := fun _ s => inv.Running modelPath inv.consulted s ∧
      probeFiles ⊆ inv.consulted) (Triple.require (fun _ s hs => hs) (fun _ s hs => hs.1.events))
      (fun _ => Triple.modify fun s hs => eventsSound_append hs.1.events fun e he => ?_)
    obtain ⟨id, hid, he⟩ := List.mem_flatMap.mp he
    obtain ⟨a, ha, rfl⟩ := List.mem_map.mp he
    have hconsulted : id ∈ inv.consulted := by
      rcases List.mem_append.mp hid with hid | hid
      · exact hs.2 hid
      · obtain ⟨cfg, hcfg, hid⟩ := List.mem_flatMap.mp hid
        exact List.mem_flatMap.mpr ⟨cfg, hcfg, tableFiles_subset _ cfg hid⟩
    exact (hs.1.complete hdry id hconsulted).writers_finished a ha

/-- A careful invocation, whenever it is killed, logs only outputs written in
full. -/
theorem evaluate_keeps :
    Triple (fun w => EventsSound w ∧ inv.Careful w) inv.evaluate (fun _ => EventsSound)
      EventsSound := by
  refine Triple.bind (Q := fun _ w => EventsSound w ∧ inv.Careful w)
    (Triple.require (fun _ s hs => hs) (fun _ s hs => hs.1)) (fun _ => ?_)
  refine stageMerge_keeps.bind (fun modelPath => ?_)
  refine Triple.bind (Q := fun _ => inv.Running modelPath inv.consulted) ?_ (fun _ => ?_)
  · let passedOutputs (passed : List (DatasetConfig × ℕ)) : List OutputId :=
      passed.flatMap (fun c => inv.datasetOutputs c.1)
    have hloop : Triple (inv.Running modelPath (passedOutputs []))
        (Prog.forEach inv.configs.zipIdx
          (fun cfg => inv.evaluateDataset modelPath cfg.2 cfg.1))
        (fun _ => inv.Running modelPath (passedOutputs inv.configs.zipIdx)) EventsSound := by
      refine Triple.forEach (J := fun passed => inv.Running modelPath (passedOutputs passed))
        inv.configs.zipIdx (fun passed cfg rest hsplit => ?_)
      have hcfg : cfg.1 ∈ inv.configs := by
        have hmem : cfg ∈ inv.configs.zipIdx := by
          rw [hsplit]
          simp
        exact List.fst_mem_of_mem_zipIdx hmem
      have hpassed : passedOutputs (passed ++ [cfg]) =
          passedOutputs passed ++ inv.datasetOutputs cfg.1 := by
        simp only [passedOutputs, List.flatMap_append, List.flatMap_singleton]
      rw [hpassed]
      exact evaluateDataset_keeps hcfg cfg.2
    refine hloop.conseq (fun s hs => hs) (fun _ s hs => hs.mono fun id hid => ?_)
    obtain ⟨cfg, hcfg, hid⟩ := List.mem_flatMap.mp hid
    obtain ⟨i, hi⟩ := List.mem_iff_getElem?.mp hcfg
    exact List.mem_flatMap.mpr ⟨(cfg, i), List.mem_zipIdx_iff_getElem?.mpr hi, hid⟩
  · refine Triple.ite (fun _ => Triple.pure' fun s hs => hs.events) (fun hdry => ?_)
    exact naturalEvalStage_keeps (by simpa using hdry)

end Invocation

/-! ## Histories -/

/-- Every invocation of the sequence is careful on the disk it starts from. -/
def CarefulFrom : World → List Invocation → Prop
  | _, [] => True
  | w, inv :: rest => inv.Careful w ∧ CarefulFrom (inv.evaluate w).2 rest

instance decidableCarefulFrom : ∀ (w : World) (invocations : List Invocation),
    Decidable (CarefulFrom w invocations)
  | _, [] => inferInstanceAs (Decidable True)
  | w, inv :: rest =>
      have := decidableCarefulFrom (inv.evaluate w).2 rest
      inferInstanceAs (Decidable (inv.Careful w ∧ CarefulFrom (inv.evaluate w).2 rest))

/-- No stage is skipped for, and nothing reads, an output that was not written
in full. -/
def SkipsOnlyComplete (invocations : List Invocation) : Prop :=
  EventsSound (worldAfter invocations)

theorem eventsSound_of_carefulFrom {w : World} {invocations : List Invocation}
    (hw : EventsSound w) (h : CarefulFrom w invocations) :
    EventsSound (invocations.foldl (fun w inv => (inv.evaluate w).2) w) := by
  induction invocations generalizing w with
  | nil => exact hw
  | cons inv rest ih =>
      obtain ⟨hinv, hrest⟩ := h
      exact ih (Invocation.evaluate_keeps.final ⟨hw, hinv⟩) hrest

/-- In a history of careful invocations, each possibly killed at any moment,
every skip and every use is of an output that an attempt wrote in full. -/
theorem skipsOnlyComplete_of_careful {invocations : List Invocation}
    (h : CarefulFrom World.fresh invocations) : SkipsOnlyComplete invocations :=
  eventsSound_of_carefulFrom (fun _ he => by cases he) h

/-- The condition is needed: an unforced stage that finds a leftover logs a skip
of it, unless it is killed or raises before it looks. -/
theorem skip_of_leftover {inv : Invocation} {runName : String} {call : Call} {id : OutputId}
    {input : Option (OutputId × String)} {model : Option Path} {command : Command} {w : World}
    {f : File} {outcome : Outcome} (hforce : inv.force = false)
    (hfate : inv.fate call = .goesOn outcome)
    (hinput : (inv.dryRun || input.all (fun file => w.nonempty file.1)) = true)
    (hf : w.outputs id = some f) (hsize : 0 < f.size) :
    Event.skip id.stage f.attempt ∈
      (inv.runStage runName call id input model command w).2.events := by
  have hnonempty : w.nonempty id = true := by simp [World.nonempty, hf, hsize]
  have hdone : ∃ w', Invocation.isDone id w = (.ok true, w') ∧ w'.events = w.events ∧
      w'.writers id = [f.attempt] := by
    cases hmarker : w.markers id with
    | true =>
        refine ⟨w, ?_, rfl, by simp [World.writers, hf]⟩
        simp [Invocation.isDone, bind, Prog.andThen, Prog.get, hnonempty, hmarker, pure]
    | false =>
        refine ⟨w.setMarker id, ?_, rfl, by simp [World.writers, hf]⟩
        simp [Invocation.isDone, bind, Prog.andThen, Prog.get, Prog.modify, hnonempty, hmarker,
          pure]
  obtain ⟨w', hrun, -, hwriters⟩ := hdone
  simp [Invocation.runStage, Invocation.outcome, hfate, bind, Prog.andThen, pure, Prog.get,
    Prog.require, hinput, hrun, hforce, Prog.modify, World.log, hwriters]

/-! ### Three invocations on one dataset

The checkpoint is an HF directory and the mode is `rlcr`, so the stages are the
rollouts, the budget evaluation and the table. -/

def oneDataset (force : Bool) (fate : Call → Fate) : Invocation where
  ckpt := ["ckpt"]
  checkpoint := ⟨true, false⟩
  rlcr := true
  configDir := ["configs"]
  configFiles := [("d_rlcr", { runName := "d", dataFiles := ["d.parquet"] })]
  datasets := ["d_rlcr"]
  probeDataset := "lead"
  outputRoot := some ["out"]
  skipMerge := false
  force := force
  dryRun := false
  visibleDevices := none
  fate := fate

/-- Nothing is killed. -/
def undisturbed : Call → Fate := fun _ => .goesOn (.finished 100)

def rolloutsKilled : Call → Fate
  | .dataset 0 .rollouts => .goesOn (.killed (.truncated 40))
  | _ => .goesOn (.finished 100)

/-- After the kill a forced invocation, then a plain one. -/
theorem skipsOnlyComplete_of_careful_forced :
    CarefulFrom World.fresh
        [oneDataset false rolloutsKilled, oneDataset true undisturbed,
          oneDataset false undisturbed] ∧
      SkipsOnlyComplete
        [oneDataset false rolloutsKilled, oneDataset true undisturbed,
          oneDataset false undisturbed] :=
  have hcareful : CarefulFrom World.fresh
      [oneDataset false rolloutsKilled, oneDataset true undisturbed,
        oneDataset false undisturbed] := by decide +kernel
  ⟨hcareful, skipsOnlyComplete_of_careful hcareful⟩

/-- After the kill a plain invocation: it takes the truncated rollouts for
finished and evaluates them. -/
theorem killed_rollouts_skipped :
    ¬ SkipsOnlyComplete [oneDataset false rolloutsKilled, oneDataset false undisturbed] := by
  unfold SkipsOnlyComplete
  decide +kernel

end RLCM.Eval
