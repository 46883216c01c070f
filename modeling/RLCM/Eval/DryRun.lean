/-
# `RLCM.Eval.DryRun` — what a dry run leaves on the disk

`--dry_run` is to print the commands only.  Its scripts do not run, but the
done-check still backfills markers and every stage still ends with
`_write_marker`, as `runCall_dry` says for one stage and `evaluate_dry` for the
invocation.  So markers are written unless every stage the dry run comes to is
`Settled`.

A marker is read by the done-check only, beside an output that decides alone.
Hence two disks that differ in their markers (`SameSince`) stay so under any
later invocations, which see the same on both.
-/
import RLCM.Eval.StageTasks

namespace RLCM.Eval

open Py Interrupt

namespace Invocation

variable (inv : Invocation)

/-! ## The stages a dry run comes to -/

/-- The driver is not killed before the call. -/
def comesTo (call : Call) : Bool :=
  match inv.fate call with
  | .killedBefore => false
  | .goesOn _ => true

/-- `stage_merge` returns in a dry run. -/
def findsModel (w : World) : Bool :=
  inv.comesTo .merge && ((inv.reusedModel w).isSome || inv.checkpoint.actor)

/-- The turns of the loop over the datasets: the look at `final_budget`, then the
stage calls. -/
def turns (modelPath : Path) : List (DatasetConfig × Option StageCall) :=
  inv.configs.zipIdx.flatMap (fun c =>
    (c.1, none) :: (inv.stageCalls modelPath c.2 c.1).map (fun s => (c.1, some s)))

/-- The loop goes on after this turn of a dry run. -/
def turnGoes (turn : DatasetConfig × Option StageCall) : Bool :=
  match turn.2 with
  | none => turn.1.budgets ≠ []
  | some s => inv.comesTo s.call

def dryCalls (w : World) : List StageCall :=
  if inv.findsModel w then
    ((inv.turns (inv.modelPath w)).takeWhile inv.turnGoes).filterMap Prod.snd
  else []

/-- The stage is done, has its marker, and is not forced. -/
def Settled (w : World) (s : StageCall) : Prop :=
  inv.force = false ∧ w.nonempty s.id = true ∧ w.markers s.id = true

instance (w : World) (s : StageCall) : Decidable (inv.Settled w s) :=
  inferInstanceAs (Decidable (_ ∧ _))

/-! ## A dry run, step by step -/

/-- The marker that the done-check adds to an output without one. -/
def backfill (w : World) (id : OutputId) : World :=
  if w.nonempty id && !w.markers id then w.setMarker id else w

/-- What a stage call does in a dry run: the backfill, then the skip or the
marker. -/
def dryStep (w : World) (s : StageCall) : World :=
  let v := backfill w s.id
  if w.nonempty s.id && !inv.force then v.log ((v.writers s.id).map (Event.skip s.id.stage))
  else v.setMarker s.id

theorem isDone_eq (id : OutputId) (w : World) :
    isDone id w = (.ok (w.nonempty id), backfill w id) := by
  unfold backfill
  cases hnonempty : w.nonempty id with
  | false => simp [isDone, bind, Prog.andThen, Prog.get, hnonempty, pure]
  | true =>
      cases hmarker : w.markers id with
      | true => simp [isDone, bind, Prog.andThen, Prog.get, hnonempty, hmarker, pure]
      | false =>
          simp [isDone, bind, Prog.andThen, Prog.get, Prog.modify, hnonempty, hmarker, pure]

def turnStop (t : DatasetConfig × Option StageCall) : Stop :=
  match t.2 with
  | none => .raised (.valueError "max() iterable argument is empty")
  | some _ => .killed

/-- A turn of the loop over the datasets. -/
def turn (t : DatasetConfig × Option StageCall) : Prog World Stop Unit :=
  match t.2 with
  | none => Prog.require (t.1.budgets ≠ [])
      (.raised (.valueError "max() iterable argument is empty"))
  | some s => inv.runCall t.1 s

theorem forEach_evaluateDataset (modelPath : Path) :
    Prog.forEach inv.configs.zipIdx (fun c => inv.evaluateDataset modelPath c.2 c.1) =
      Prog.forEach (inv.turns modelPath) inv.turn := by
  unfold turns
  rw [Prog.forEach_flatMap]
  refine congrArg (Prog.forEach _) (funext fun c => ?_)
  rw [evaluateDataset_eq, Prog.forEach_cons, Prog.forEach_map]
  rfl

theorem log_nil (w : World) : w.log [] = w := by
  unfold World.log
  rw [List.append_nil]

section Dry

variable {inv}

theorem outcome_goesOn {call : Call} (hcomes : inv.comesTo call = true) (w : World) :
    ∃ outcome, inv.outcome call w = (.ok outcome, w) := by
  unfold comesTo at hcomes
  unfold Invocation.outcome
  cases hfate : inv.fate call with
  | killedBefore =>
      rw [hfate] at hcomes
      cases hcomes
  | goesOn outcome => exact ⟨outcome, rfl⟩

theorem outcome_killed {call : Call} (hcomes : inv.comesTo call = false) (w : World) :
    inv.outcome call w = (.error .killed, w) := by
  unfold comesTo at hcomes
  unfold Invocation.outcome
  cases hfate : inv.fate call with
  | killedBefore => rfl
  | goesOn outcome =>
      rw [hfate] at hcomes
      cases hcomes

theorem runCall_killed (cfg : DatasetConfig) {s : StageCall} (w : World)
    (hcomes : inv.comesTo s.call = false) : inv.runCall cfg s w = (.error .killed, w) :=
  Prog.bind_of_error (outcome_killed hcomes w)

variable (hdry : inv.dryRun = true)
include hdry

theorem runCall_dry (cfg : DatasetConfig) {s : StageCall} (w : World)
    (hcomes : inv.comesTo s.call = true) : inv.runCall cfg s w = (.ok (), inv.dryStep w s) := by
  obtain ⟨outcome, houtcome⟩ := outcome_goesOn hcomes w
  unfold runCall runStage
  rw [Prog.bind_of_ok houtcome, Prog.bind_of_ok (show Prog.get w = (.ok w, w) from rfl),
    hdry, Bool.true_or, Prog.bind_of_ok (show Prog.require true _ w = (.ok (), w) from rfl),
    Prog.bind_of_ok (isDone_eq s.id w)]
  unfold dryStep
  dsimp only
  -- skipped, or "run" and marked
  cases hskip : w.nonempty s.id && !inv.force with
  | true => rfl
  | false =>
      rw [if_neg Bool.false_ne_true, if_neg Bool.false_ne_true]
      have hrun : ∀ command reads write,
          inv.run s.id.stage outcome command reads write = pure () :=
        fun _ _ _ => if_pos hdry
      rw [hrun]
      rfl

/-- The stages of a dry run take their steps, up to a kill or an empty list of
budgets. -/
theorem turns_dry (modelPath : Path) (w : World) :
    (Prog.forEach (inv.turns modelPath) inv.turn w).2 =
      (((inv.turns modelPath).takeWhile inv.turnGoes).filterMap Prod.snd).foldl inv.dryStep w := by
  have hgoes : ∀ t w, inv.turnGoes t = true →
      inv.turn t w = (.ok (), t.2.elim w (inv.dryStep w)) := by
    rintro ⟨cfg, _ | s⟩ w hgoes
    · change Prog.require _ _ w = _
      rw [show decide (cfg.budgets ≠ []) = true from hgoes]
      rfl
    · exact runCall_dry hdry cfg w hgoes
  have hstops : ∀ t w, inv.turnGoes t = false → inv.turn t w = (.error (turnStop t), w) := by
    rintro ⟨cfg, _ | s⟩ w hstops
    · change Prog.require _ _ w = _
      rw [show decide (cfg.budgets ≠ []) = false from hstops]
      rfl
    · exact runCall_killed cfg w hstops
  rw [Prog.forEach_eq_foldl hgoes hstops, List.foldl_filterMap]
  refine congrArg (fun step => List.foldl step w _) (funext fun w => funext fun t => ?_)
  cases t.2 with
  | none => rfl
  | some s => rfl

/-- The merge stage of a dry run reuses a model, or prints the command that would
make one, or stops. -/
theorem stageMerge_dry (w : World) : ∃ events, (inv.stageMerge w).2 = w.log events ∧
    ((inv.findsModel w = true ∧ (inv.stageMerge w).1 = .ok (inv.modelPath w)) ∨
      inv.findsModel w = false ∧ ∃ reason, (inv.stageMerge w).1 = .error reason) := by
  unfold findsModel
  cases hcomes : inv.comesTo .merge with
  | false =>
      have hkilled : inv.stageMerge w = (.error .killed, w) :=
        Prog.bind_of_error (outcome_killed hcomes w)
      rw [hkilled]
      exact ⟨[], (log_nil w).symm, .inr ⟨rfl, .killed, rfl⟩⟩
  | true =>
      obtain ⟨outcome, houtcome⟩ := outcome_goesOn hcomes w
      unfold stageMerge
      rw [Prog.bind_of_ok houtcome, Prog.bind_of_ok (show Prog.get w = (.ok w, w) from rfl),
        Bool.true_and]
      by_cases hhf : inv.checkpoint.configJson || (w.merges inv.ckpt).configJson.isSome
      · rw [if_pos hhf, reusedModel, modelPath, if_pos hhf, if_pos hhf]
        exact ⟨_, rfl, .inl ⟨rfl, rfl⟩⟩
      · rw [if_neg hhf, reusedModel, modelPath, if_neg hhf, if_neg hhf]
        dsimp only
        by_cases hmerged : (w.merges (inv.ckpt ++ ["merge"])).configJson.any (0 < ·) ||
            (inv.skipMerge && (w.merges (inv.ckpt ++ ["merge"])).isThere)
        · rw [if_pos hmerged, if_pos hmerged]
          exact ⟨_, rfl, .inl ⟨rfl, rfl⟩⟩
        · rw [if_neg hmerged, if_neg hmerged]
          have hrun : ∀ command reads write,
              inv.run .merge outcome command reads write = pure () :=
            fun _ _ _ => if_pos hdry
          rw [hrun]
          cases hactor : inv.checkpoint.actor with
          | true => exact ⟨[], (log_nil w).symm, .inl ⟨rfl, rfl⟩⟩
          | false => exact ⟨[], (log_nil w).symm, .inr ⟨rfl, _, rfl⟩⟩

theorem evaluate_dry (w : World) :
    ∃ events, (inv.evaluate w).2 = (inv.dryCalls w).foldl inv.dryStep (w.log events) := by
  unfold evaluate dryCalls
  by_cases hconfigs : inv.configs = []
  · have hturns : inv.turns (inv.modelPath w) = [] := by rw [turns, hconfigs]; rfl
    refine ⟨[], ?_⟩
    rw [hturns, log_nil, hconfigs]
    split_ifs
    · rfl
    · rfl
  · have hsome : decide (inv.configs ≠ []) = true := decide_eq_true hconfigs
    obtain ⟨events, hworld, hresult⟩ := stageMerge_dry hdry w
    refine ⟨events, ?_⟩
    rw [hsome, Prog.bind_of_ok (show Prog.require true _ w = (.ok (), w) from rfl)]
    rcases hresult with ⟨hfinds, hok⟩ | ⟨hfinds, reason, herror⟩
    · rw [if_pos hfinds, Prog.bind_of_ok (Prod.ext hok hworld), forEach_evaluateDataset,
        if_pos hdry, Prog.bind_unit]
      exact turns_dry hdry _ _
    · rw [Prog.bind_of_error (Prod.ext herror hworld), hfinds]
      rfl

end Dry

/-! ## What the steps write -/

theorem dryStep_sameFiles (w : World) (s : StageCall) : w.SameFiles (inv.dryStep w s) := by
  unfold dryStep backfill
  dsimp only
  split_ifs
  all_goals exact ⟨rfl, rfl, rfl⟩

theorem dryStep_of_settled {w : World} {s : StageCall} (h : inv.Settled w s) :
    inv.dryStep w s = w.log ((w.writers s.id).map (Event.skip s.id.stage)) := by
  obtain ⟨hforce, hnonempty, hmarker⟩ := h
  have hfill : backfill w s.id = w := by
    unfold backfill
    rw [hnonempty, hmarker]
    rfl
  unfold dryStep
  rw [hfill, hnonempty, hforce]
  rfl

theorem dryStep_markerWrites (w : World) (s : StageCall) :
    ∃ ids, (inv.dryStep w s).markerWrites = w.markerWrites ++ ids ∧
      (ids = [] ↔ inv.Settled w s) := by
  by_cases hsettled : inv.Settled w s
  · rw [dryStep_of_settled inv hsettled]
    exact ⟨[], (List.append_nil _).symm, iff_of_true rfl hsettled⟩
  · have hfill : ∃ ids, (backfill w s.id).markerWrites = w.markerWrites ++ ids ∧
        (ids = [] → w.nonempty s.id = true → w.markers s.id = true) := by
      unfold backfill
      split_ifs with hc
      · exact ⟨[s.id], rfl, fun h => (List.cons_ne_nil _ _ h).elim⟩
      · refine ⟨[], (List.append_nil _).symm, fun _ hnonempty => ?_⟩
        rw [hnonempty, Bool.true_and, Bool.not_eq_true', Bool.not_eq_false] at hc
        exact hc
    obtain ⟨ids, hids, hmarker⟩ := hfill
    unfold dryStep
    dsimp only
    split_ifs with hskip
    · rw [Bool.and_eq_true, Bool.not_eq_true'] at hskip
      refine ⟨ids, hids, iff_of_false (fun h => ?_) hsettled⟩
      exact hsettled ⟨hskip.2, hskip.1, hmarker h hskip.1⟩
    · refine ⟨ids ++ [s.id], ?_, iff_of_false (List.append_ne_nil_of_right_ne_nil _
        (List.cons_ne_nil _ _)) hsettled⟩
      change (backfill w s.id).markerWrites ++ [s.id] = _
      rw [hids, List.append_assoc]

theorem foldl_dryStep_sameFiles (calls : List StageCall) (w : World) :
    w.SameFiles (calls.foldl inv.dryStep w) := by
  induction calls generalizing w with
  | nil => exact ⟨rfl, rfl, rfl⟩
  | cons s rest ih =>
      have hstep := inv.dryStep_sameFiles w s
      have hrest := ih (inv.dryStep w s)
      exact ⟨hrest.outputs.trans hstep.outputs, hrest.merges.trans hstep.merges,
        hrest.attempts.trans hstep.attempts⟩

theorem foldl_dryStep_markerWrites (calls : List StageCall) (w : World) :
    ∃ ids, (calls.foldl inv.dryStep w).markerWrites = w.markerWrites ++ ids := by
  induction calls generalizing w with
  | nil => exact ⟨[], (List.append_nil _).symm⟩
  | cons s rest ih =>
      obtain ⟨ids, hids, -⟩ := inv.dryStep_markerWrites w s
      obtain ⟨ids', hids'⟩ := ih (inv.dryStep w s)
      refine ⟨ids ++ ids', ?_⟩
      rw [List.foldl_cons, hids', hids, List.append_assoc]

theorem foldl_dryStep_writes_nothing_iff (calls : List StageCall) (w : World) :
    ((calls.foldl inv.dryStep w).markers = w.markers ∧
        (calls.foldl inv.dryStep w).markerWrites = w.markerWrites) ↔
      ∀ s ∈ calls, inv.Settled w s := by
  induction calls generalizing w with
  | nil => exact iff_of_true ⟨rfl, rfl⟩ (List.forall_mem_nil _)
  | cons s rest ih =>
      rw [List.foldl_cons, List.forall_mem_cons]
      by_cases hsettled : inv.Settled w s
      · rw [dryStep_of_settled inv hsettled]
        exact (ih _).trans (and_iff_right hsettled).symm
      · refine iff_of_false (fun h => ?_) (fun h => hsettled h.1)
        obtain ⟨ids, hids, hnil⟩ := inv.dryStep_markerWrites w s
        obtain ⟨ids', hids'⟩ := inv.foldl_dryStep_markerWrites rest (inv.dryStep w s)
        rw [hids', hids, List.append_assoc] at h
        have hnothing := List.append_eq_nil_iff.mp (List.append_right_eq_self.mp h.2)
        exact hsettled (hnil.mp hnothing.1)

end Invocation

/-! ## Later invocations -/

/-- Two disks with the same files, and the same events since they had the logs
`before` and `before'`. -/
structure SameSince (before before' : List Event) (w v : World) : Prop where
  files : w.SameFiles v
  events : ∃ seen, w.events = before ++ seen ∧ v.events = before' ++ seen

namespace SameSince

variable {before before' : List Event} {w v : World}

theorem log (h : SameSince before before' w v) (logged : List Event) :
    SameSince before before' (w.log logged) (v.log logged) := by
  obtain ⟨seen, hw, hv⟩ := h.events
  refine ⟨⟨h.files.outputs, h.files.merges, h.files.attempts⟩, seen ++ logged, ?_, ?_⟩
  · change w.events ++ logged = _
    rw [hw, List.append_assoc]
  · change v.events ++ logged = _
    rw [hv, List.append_assoc]

theorem nonempty (h : SameSince before before' w v) (id : OutputId) :
    v.nonempty id = w.nonempty id := by
  unfold World.nonempty
  rw [h.files.outputs]

theorem writers (h : SameSince before before' w v) (id : OutputId) :
    v.writers id = w.writers id := by
  unfold World.writers
  rw [h.files.outputs]

theorem modelWriters (h : SameSince before before' w v) (p : Path) :
    v.modelWriters p = w.modelWriters p := by
  unfold World.modelWriters
  rw [h.files.merges]

theorem backfill (h : SameSince before before' w v) (id id' : OutputId) :
    SameSince before before' (Invocation.backfill w id) (Invocation.backfill v id') := by
  unfold Invocation.backfill
  split_ifs
  all_goals exact ⟨⟨h.files.outputs, h.files.merges, h.files.attempts⟩, h.events⟩

theorem setMarker (h : SameSince before before' w v) (id : OutputId) :
    SameSince before before' (w.setMarker id) (v.setMarker id) :=
  ⟨⟨h.files.outputs, h.files.merges, h.files.attempts⟩, h.events⟩

theorem countAttempt (h : SameSince before before' w v) :
    SameSince before before' w.countAttempt v.countAttempt :=
  ⟨⟨h.files.outputs, h.files.merges, congrArg (· + 1) h.files.attempts⟩, h.events⟩

theorem setOutput (h : SameSince before before' w v) (id : OutputId)
    (file : Option File → Option File) :
    SameSince before before' (w.setOutput id (file (w.outputs id)))
      (v.setOutput id (file (v.outputs id))) := by
  refine ⟨⟨?_, h.files.merges, h.files.attempts⟩, h.events⟩
  unfold World.setOutput
  rw [h.files.outputs]

theorem setMerge (h : SameSince before before' w v) (mergeDir : Path) (dir : MergeDir → MergeDir) :
    SameSince before before' (w.setMerge mergeDir (dir (w.merges mergeDir)))
      (v.setMerge mergeDir (dir (v.merges mergeDir))) := by
  refine ⟨⟨h.files.outputs, ?_, h.files.attempts⟩, h.events⟩
  unfold World.setMerge
  rw [h.files.merges]

end SameSince

namespace Invocation

section Later

variable (inv : Invocation) {before before' : List Event}

theorem sameRuns_outcome (call : Call) :
    SameRuns (SameSince before before') (inv.outcome call) (inv.outcome call) := by
  unfold outcome
  split
  · exact SameRuns.stop
  · exact SameRuns.pure'

theorem sameRuns_isDone (id : OutputId) :
    SameRuns (SameSince before before') (isDone id) (isDone id) := by
  intro w v h
  rw [isDone_eq, isDone_eq, h.nonempty]
  exact ⟨rfl, h.backfill id id⟩

theorem sameRuns_log {reads : World → List Event}
    (hreads : ∀ w v, SameSince before before' w v → reads v = reads w) :
    SameRuns (SameSince before before')
      (Prog.modify (fun w => w.log (reads w)) : Prog World Stop Unit)
      (Prog.modify (fun w => w.log (reads w))) := by
  refine SameRuns.modify fun w v h => ?_
  rw [hreads w v h]
  exact h.log _

theorem sameRuns_run (stage : Stage) (outcome : Outcome) (command : Command)
    {reads : World → List Attempt} {write : Attempt → World → World}
    (hreads : ∀ w v, SameSince before before' w v → reads v = reads w)
    (hwrite : ∀ a w v, SameSince before before' w v →
      SameSince before before' (write a w) (write a v)) :
    SameRuns (SameSince before before') (inv.run stage outcome command reads write)
      (inv.run stage outcome command reads write) := by
  refine SameRuns.ite SameRuns.pure'
    (SameRuns.bind (SameRuns.modify fun w v h => ?_) fun _ => SameRuns.require)
  rw [hreads w v h, h.files.attempts]
  exact hwrite _ _ _ (h.countAttempt.log _)

theorem sameRuns_runStage (runName : String) (call : Call) (id : OutputId)
    (input : Option (OutputId × String)) (model : Option Path) (command : Command) :
    SameRuns (SameSince before before') (inv.runStage runName call id input model command)
      (inv.runStage runName call id input model command) := by
  refine (inv.sameRuns_outcome call).bind fun outcome => SameRuns.get_bind fun w v h => ?_
  simp only [h.nonempty]
  refine SameRuns.require.bind fun _ => (sameRuns_isDone id).bind fun done => SameRuns.ite ?_ ?_
  · exact sameRuns_log fun w v h => by rw [h.writers]
  · refine (inv.sameRuns_run _ _ _ (fun w v h => ?_) fun a w v h =>
      h.setOutput id (fun old => outcome.file old a)).bind
      fun _ => SameRuns.get_bind fun w v h => ?_
    · rw [show v.modelWriters = w.modelWriters from funext h.modelWriters]
      simp only [h.writers]
    · rw [h.nonempty]
      exact SameRuns.require.bind fun _ => SameRuns.modify fun _ _ h => h.setMarker id

theorem sameRuns_stageMerge :
    SameRuns (SameSince before before') inv.stageMerge inv.stageMerge := by
  have hreuse : ∀ p, SameRuns (SameSince before before')
      (do Prog.modify (fun w => w.log ((w.modelWriters p).map (Event.skip .merge)))
          pure p : Prog World Stop Path)
      (do Prog.modify (fun w => w.log ((w.modelWriters p).map (Event.skip .merge)))
          pure p) :=
    fun p => (sameRuns_log fun w v h => by rw [h.modelWriters]).bind fun _ => SameRuns.pure'
  refine (inv.sameRuns_outcome .merge).bind fun outcome => SameRuns.get_bind fun w v h => ?_
  rw [h.files.merges]
  refine SameRuns.ite (hreuse _) (SameRuns.ite (hreuse _) (SameRuns.require.bind fun _ => ?_))
  exact (inv.sameRuns_run _ _ _ (fun _ _ _ => rfl) fun a w v h =>
    h.setMerge _ (fun old => outcome.mergeDir old a)).bind fun _ => SameRuns.pure'

theorem sameRuns_naturalEvalStage :
    SameRuns (SameSince before before') inv.naturalEvalStage inv.naturalEvalStage := by
  have hprobe : SameRuns (SameSince before before') inv.probeFiles inv.probeFiles := by
    unfold probeFiles
    refine SameRuns.ite SameRuns.pure' ?_
    cases inv.probeConfig with
    | none => exact SameRuns.stop
    | some cfg => exact SameRuns.pure'
  refine (inv.sameRuns_outcome .naturalEval).bind fun _ => SameRuns.get_bind fun w v h => ?_
  rw [h.files.outputs]
  refine hprobe.bind fun files => SameRuns.require.bind fun _ => sameRuns_log fun w v h => ?_
  have htable : inv.tableFiles v = inv.tableFiles w := by
    funext cfg
    unfold tableFiles
    rw [h.files.outputs]
  simp only [h.writers, htable]

theorem sameRuns_evaluate : SameRuns (SameSince before before') inv.evaluate inv.evaluate := by
  refine SameRuns.require.bind fun _ => inv.sameRuns_stageMerge.bind fun modelPath => ?_
  refine SameRuns.bind (SameRuns.forEach fun c => ?_) fun _ =>
    SameRuns.ite SameRuns.pure' inv.sameRuns_naturalEvalStage
  rw [evaluateDataset_eq]
  exact SameRuns.require.bind fun _ => SameRuns.forEach fun s => inv.sameRuns_runStage _ _ _ _ _ _

end Later

/-- The disk after some more invocations, each possibly killed. -/
def worldFrom (w : World) (later : List Invocation) : World :=
  later.foldl (fun w inv => (inv.evaluate w).2) w

/-- Whatever is invoked later sees the same on both disks: what is done, how the
next invocation ends, and what was skipped and used until then. -/
def SameToLater (w v : World) : Prop :=
  ∀ later : List Invocation,
    (∀ id, (isDone id (worldFrom w later)).1 = (isDone id (worldFrom v later)).1) ∧
    (∀ next : Invocation,
      (next.evaluate (worldFrom w later)).1 = (next.evaluate (worldFrom v later)).1) ∧
    ∃ seen, (worldFrom w later).events = w.events ++ seen ∧
      (worldFrom v later).events = v.events ++ seen

theorem sameSince_worldFrom {before before' : List Event} {w v : World}
    (h : SameSince before before' w v) (later : List Invocation) :
    SameSince before before' (worldFrom w later) (worldFrom v later) := by
  induction later generalizing w v with
  | nil => exact h
  | cons inv rest ih => exact ih (inv.sameRuns_evaluate w v h).2

theorem sameToLater_of_sameFiles {w v : World} (h : w.SameFiles v) : SameToLater w v := by
  intro later
  have hstart : SameSince w.events v.events w v :=
    ⟨h, [], (List.append_nil _).symm, (List.append_nil _).symm⟩
  have hsame := sameSince_worldFrom hstart later
  exact ⟨fun id => (sameRuns_isDone id _ _ hsame).1,
    fun next => (next.sameRuns_evaluate _ _ hsame).1, hsame.events⟩

/-! ## A dry run and what comes after it -/

/-- The invocation leaves the disk as it was, and nothing that later invocations
could see. -/
structure LeavesNoTrace (inv : Invocation) (w : World) : Prop where
  outputs : (inv.evaluate w).2.outputs = w.outputs
  merges : (inv.evaluate w).2.merges = w.merges
  markers : (inv.evaluate w).2.markers = w.markers
  markerWrites : (inv.evaluate w).2.markerWrites = w.markerWrites
  later : SameToLater w (inv.evaluate w).2

section DryRun

variable {inv : Invocation} (hdry : inv.dryRun = true)
include hdry

theorem evaluate_dry_sameFiles (w : World) : w.SameFiles (inv.evaluate w).2 := by
  obtain ⟨events, hrun⟩ := evaluate_dry hdry w
  rw [hrun]
  have hsteps := inv.foldl_dryStep_sameFiles (inv.dryCalls w) (w.log events)
  exact ⟨hsteps.outputs, hsteps.merges, hsteps.attempts⟩

theorem evaluate_dry_writes_nothing_iff (w : World) :
    ((inv.evaluate w).2.markers = w.markers ∧
        (inv.evaluate w).2.markerWrites = w.markerWrites) ↔
      ∀ s ∈ inv.dryCalls w, inv.Settled w s := by
  obtain ⟨events, hrun⟩ := evaluate_dry hdry w
  rw [hrun]
  exact inv.foldl_dryStep_writes_nothing_iff (inv.dryCalls w) (w.log events)

end DryRun

/-- A dry run leaves no trace exactly when every stage it comes to has a
non-empty output and its marker, and is not forced. -/
theorem dry_run_leaves_no_trace_iff (inv : Invocation) (w : World) (hdry : inv.dryRun = true) :
    inv.LeavesNoTrace w ↔ ∀ s ∈ inv.dryCalls w,
      inv.force = false ∧ w.nonempty s.id = true ∧ w.markers s.id = true := by
  have hfiles := evaluate_dry_sameFiles hdry w
  have hmarkers := evaluate_dry_writes_nothing_iff hdry w
  constructor
  · intro h
    exact hmarkers.mp ⟨h.markers, h.markerWrites⟩
  · intro h
    obtain ⟨hsame, hwrites⟩ := hmarkers.mpr h
    exact ⟨hfiles.outputs, hfiles.merges, hsame, hwrites, sameToLater_of_sameFiles hfiles⟩

end Invocation

/-! ### A dry run on an empty disk and after a finished run -/

def dryDataset : Invocation := { oneDataset false undisturbed with dryRun := true }

/-- After a finished run nothing is left to mark. -/
theorem dry_run_after_finished_run :
    dryDataset.LeavesNoTrace (worldAfter [oneDataset false undisturbed]) :=
  (Invocation.dry_run_leaves_no_trace_iff dryDataset
    (worldAfter [oneDataset false undisturbed]) rfl).mpr (by decide +kernel)

/-- On an empty disk the dry run marks both stages, which have no output. -/
theorem dry_run_marks_empty_disk :
    ¬ ∀ (inv : Invocation) (w : World), inv.dryRun = true → inv.LeavesNoTrace w := by
  intro hclaim
  have hmarked : (dryDataset.evaluate World.fresh).2.markerWrites ≠ World.fresh.markerWrites := by
    decide +kernel
  exact hmarked (hclaim dryDataset World.fresh rfl).markerWrites

end RLCM.Eval
