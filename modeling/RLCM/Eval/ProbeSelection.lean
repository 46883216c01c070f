/-
# `RLCM.Eval.ProbeSelection` — early stopping and the sweep keep the best probe

The loop of `train_single_run` carries the best loss, a copy of the weights, the
metrics and a patience counter.  `EpochInvariant` says what they are after `n`
epochs: those of the first epoch with the smallest loss so far, and the number
of epochs since.  From it the run is known completely: where it stops, and which
epoch it returns.  The sweep repeats the same choice over its runs.

Losses are the values of any linear order, below `float('inf')` and never NaN; weights and
scores are of any type.
-/
import RLCM.Eval.ProbeTraining
import RLCM.Lib.FirstMin

namespace RLCM.Eval

open Py FirstMin

/-! ## One run -/

section Run

variable {M S Met L : Type} [LinearOrder L]

/-- What the validation gives for every model. -/
structure Validates (env : EpochEnv M S Met L) (lossOf : M → L) (scoresOf : M → Met) : Prop where
  validate_eq : ∀ model, env.validate model = .ok (lossOf model, scoresOf model)

def afterEpochs (env : EpochEnv M S Met L) (lossOf : M → L) (model : M) : ℕ → M
  | 0 => model
  | n + 1 =>
      let trained := env.trainEpoch (afterEpochs env lossOf model n)
      env.schedulerStep trained (lossOf trained)

/-- The model that epoch `n` validates. -/
def validated (env : EpochEnv M S Met L) (lossOf : M → L) (model : M) (n : ℕ) : M :=
  env.trainEpoch (afterEpochs env lossOf model n)

/-- The validation losses of the epochs, in order. -/
def epochLoss (env : EpochEnv M S Met L) (lossOf : M → L) (model : M) (n : ℕ) : L :=
  lossOf (validated env lossOf model n)

variable {env : EpochEnv M S Met L} {lossOf : M → L} {scoresOf : M → Met} {model : M}
  {patience : ℕ}

/-- The loop holds epoch `e`: its loss, its weights, its metrics. -/
structure HoldsEpoch (env : EpochEnv M S Met L) (lossOf : M → L) (scoresOf : M → Met) (model : M)
    (e : ℕ) (st : EpochLoop S Met L) : Prop where
  bestValLoss : st.bestValLoss = (epochLoss env lossOf model e : L)
  bestState : st.bestState = some (env.stateDict (afterEpochs env lossOf model (e + 1)))
  metrics : st.metrics = some
    { loss := epochLoss env lossOf model e, scores := scoresOf (validated env lossOf model e) }

/-- What the loop knows after `n` epochs, at least one. -/
structure EpochInvariant (env : EpochEnv M S Met L) (lossOf : M → L) (scoresOf : M → Met)
    (model : M) (n e : ℕ) (st : EpochLoop S Met L) : Prop where
  first : IsFirstMin (epochLoss env lossOf model) n e
  holds : HoldsEpoch env lossOf scoresOf model e st
  since : e + st.patienceCounter + 1 = n
  epochsRun : st.epochsRun = n

/-- How a run of `n` epochs ends: nowhere before did it stall, and it stalls now
or has reached the limit. -/
structure StopsAfter (losses : ℕ → L) (patience limit n : ℕ) : Prop where
  pos : 1 ≤ n
  le : n ≤ limit
  earlier : ∀ k, k + 1 < n → ¬ Stalled losses patience k
  stop : n = limit ∨ Stalled losses patience (n - 1)

/-- The variables after epoch `n` when it improved. -/
def improved (env : EpochEnv M S Met L) (lossOf : M → L) (scoresOf : M → Met) (model : M) (n : ℕ)
    (st : EpochLoop S Met L) : EpochLoop S Met L where
  bestValLoss := (epochLoss env lossOf model n : L)
  bestState := some (env.stateDict (afterEpochs env lossOf model (n + 1)))
  metrics := some
    { loss := epochLoss env lossOf model n, scores := scoresOf (validated env lossOf model n) }
  patienceCounter := 0
  epochsRun := st.epochsRun + 1

/-- The variables after an epoch that did not. -/
def stale (st : EpochLoop S Met L) : EpochLoop S Met L :=
  { st with patienceCounter := st.patienceCounter + 1, epochsRun := st.epochsRun + 1 }

theorem trainEpochs_succ (hvalid : Validates env lossOf scoresOf) (epochs n : ℕ)
    (st : EpochLoop S Met L) :
    trainEpochs env patience (epochs + 1) (afterEpochs env lossOf model n) st =
      if ((epochLoss env lossOf model n : L) : WithTop L) < st.bestValLoss then
        trainEpochs env patience epochs (afterEpochs env lossOf model (n + 1))
          (improved env lossOf scoresOf model n st)
      else if patience ≤ (stale st).patienceCounter then
        .ok (afterEpochs env lossOf model (n + 1), stale st)
      else trainEpochs env patience epochs (afterEpochs env lossOf model (n + 1)) (stale st) := by
  rw [trainEpochs, hvalid.validate_eq]
  rfl

theorem invariant_first (st : EpochLoop S Met L) (hst : st.epochsRun = 0) :
    EpochInvariant env lossOf scoresOf model 1 0 (improved env lossOf scoresOf model 0 st) where
  first := isFirstMin_one _
  holds := { bestValLoss := rfl, bestState := rfl, metrics := rfl }
  since := rfl
  epochsRun := by rw [improved, hst]

theorem EpochInvariant.improve {n e : ℕ} {st : EpochLoop S Met L}
    (h : EpochInvariant env lossOf scoresOf model n e st)
    (hlt : epochLoss env lossOf model n < epochLoss env lossOf model e) :
    EpochInvariant env lossOf scoresOf model (n + 1) n (improved env lossOf scoresOf model n st)
    where
  first := h.first.replace hlt
  holds := { bestValLoss := rfl, bestState := rfl, metrics := rfl }
  since := rfl
  epochsRun := by rw [improved, h.epochsRun]

theorem EpochInvariant.wait {n e : ℕ} {st : EpochLoop S Met L}
    (h : EpochInvariant env lossOf scoresOf model n e st)
    (hlt : ¬ epochLoss env lossOf model n < epochLoss env lossOf model e) :
    EpochInvariant env lossOf scoresOf model (n + 1) e (stale st) where
  first := h.first.keep hlt
  holds :=
    { bestValLoss := h.holds.bestValLoss
      bestState := h.holds.bestState
      metrics := h.holds.metrics }
  since := congrArg (· + 1) h.since
  epochsRun := congrArg (· + 1) h.epochsRun

theorem EpochInvariant.stalled_iff {n e : ℕ} {st : EpochLoop S Met L}
    (h : EpochInvariant env lossOf scoresOf model (n + 1) e st) :
    Stalled (epochLoss env lossOf model) patience n ↔ patience ≤ st.patienceCounter := by
  have hsince := h.since
  rw [h.first.stalled_iff]
  omega

/-- The loop from a state that satisfies the invariant and has not stalled. -/
theorem trainEpochs_of_invariant (hvalid : Validates env lossOf scoresOf) (hpatience : 1 ≤ patience)
    (epochs : ℕ) {n e : ℕ} {st : EpochLoop S Met L}
    (hst : EpochInvariant env lossOf scoresOf model n e st)
    (hbefore : ∀ k, k + 1 ≤ n → ¬ Stalled (epochLoss env lossOf model) patience k) :
    ∃ n' e' st', trainEpochs env patience epochs (afterEpochs env lossOf model n) st =
        .ok (afterEpochs env lossOf model n', st') ∧
      EpochInvariant env lossOf scoresOf model n' e' st' ∧
      StopsAfter (epochLoss env lossOf model) patience (n + epochs) n' := by
  induction epochs generalizing n e st with
  | zero =>
      refine ⟨n, e, st, rfl, hst, Nat.one_le_of_lt hst.first.lt, le_rfl, ?_, Or.inl rfl⟩
      exact fun k hk => hbefore k hk.le
  | succ epochs ih =>
      have hlimit : n + (epochs + 1) = n + 1 + epochs := by omega
      -- what is left of the loop, from a state that did not stall at epoch `n`
      have hrest : ∀ {e'} {st' : EpochLoop S Met L},
          EpochInvariant env lossOf scoresOf model (n + 1) e' st' →
          ¬ patience ≤ st'.patienceCounter →
          ∃ n' e'' st'',
            trainEpochs env patience epochs (afterEpochs env lossOf model (n + 1)) st' =
              .ok (afterEpochs env lossOf model n', st'') ∧
            EpochInvariant env lossOf scoresOf model n' e'' st'' ∧
            StopsAfter (epochLoss env lossOf model) patience (n + 1 + epochs) n' := by
        intro e' st' hst' hcounter
        refine ih hst' (fun k hk => ?_)
        rcases Nat.lt_succ_iff_lt_or_eq.mp hk with hk | rfl
        · exact hbefore k hk
        · exact fun hstalled => hcounter (hst'.stalled_iff.mp hstalled)
      rw [trainEpochs_succ hvalid, hst.holds.bestValLoss, hlimit]
      split_ifs with hbest hstop
      · have hlt := WithTop.coe_lt_coe.mp hbest
        exact hrest (hst.improve hlt) (not_le.mpr hpatience)
      · have hwait := hst.wait (fun hlt => hbest (WithTop.coe_lt_coe.mpr hlt))
        refine ⟨n + 1, e, stale st, rfl, hwait, Nat.le_add_left 1 n, Nat.le_add_right _ _, ?_, ?_⟩
        · exact fun k hk => hbefore k (Nat.lt_succ_iff.mp hk)
        · exact Or.inr (hwait.stalled_iff.mpr hstop)
      · exact hrest (hst.wait (fun hlt => hbest (WithTop.coe_lt_coe.mpr hlt))) hstop

/-- `run` is what `train_single_run` should return: it ran `n` epochs and holds
the metrics and the weights of epoch `e`, the first with the smallest loss. -/
structure ReturnsBest (env : EpochEnv M S Met L) (lossOf : M → L) (scoresOf : M → Met) (model : M)
    (patience epochs n e : ℕ) (run : ProbeRun M S Met L) : Prop where
  stops : StopsAfter (epochLoss env lossOf model) patience epochs n
  first : IsFirstMin (epochLoss env lossOf model) n e
  loss_eq : run.metrics.loss = epochLoss env lossOf model e
  scores_eq : run.metrics.scores = scoresOf (validated env lossOf model e)
  state_eq : run.bestState = some (env.stateDict (afterEpochs env lossOf model (e + 1)))
  epochsRun_eq : run.epochsRun = n

theorem trainSingleRun_returnsBest (hvalid : Validates env lossOf scoresOf) {epochs : ℕ}
    (hepochs : 1 ≤ epochs) (hpatience : 1 ≤ patience) (model : M) :
    ∃ run n e, trainSingleRun env epochs patience model = .ok run ∧
      ReturnsBest env lossOf scoresOf model patience epochs n e run := by
  obtain ⟨left, rfl⟩ := Nat.exists_eq_add_of_le hepochs
  have hfirst : EpochInvariant env lossOf scoresOf model 1 0
      (improved env lossOf scoresOf model 0 ⟨⊤, none, none, 0, 0⟩) := invariant_first _ rfl
  obtain ⟨n, e, st, hloop, hinv, hstops⟩ := trainEpochs_of_invariant hvalid hpatience left hfirst
    (fun k hk hstalled => by
      obtain rfl : k = 0 := Nat.lt_one_iff.mp hk
      exact absurd (hfirst.stalled_iff.mp hstalled) (not_le.mpr hpatience))
  have hrun : trainEpochs env patience (1 + left) model ⟨⊤, none, none, 0, 0⟩ =
      .ok (afterEpochs env lossOf model n, st) := by
    rw [Nat.add_comm]
    refine (trainEpochs_succ hvalid left 0 ⟨⊤, none, none, 0, 0⟩).trans ?_
    rw [if_pos (WithTop.coe_lt_top _), hloop]
  refine ⟨⟨⟨epochLoss env lossOf model e, scoresOf (validated env lossOf model e)⟩,
    some (env.stateDict (afterEpochs env lossOf model (e + 1))), n,
    afterEpochs env lossOf model n⟩, n, e, ?_, hstops, hinv.first, rfl, rfl, rfl, rfl⟩
  rw [trainSingleRun, hrun, ok_bind]
  dsimp only
  rw [hinv.holds.metrics, hinv.holds.bestState, hinv.epochsRun]
  rfl

end Run

/-! ## The sweep -/

section Sweep

variable {G M S Met L : Type} [LinearOrder L] {env : SweepEnv G M S Met L}

/-- The runs of some configurations, one after another. -/
inductive SweepTrace (env : SweepEnv G M S Met L) :
    G → List ProbeConfig → List (ProbeConfig × ProbeRun M S Met L) → Prop
  | nil {generators : G} : SweepTrace env generators [] []
  | cons {generators : G} {config : ProbeConfig} {run : ProbeRun M S Met L}
      {configs : List ProbeConfig} {runs : List (ProbeConfig × ProbeRun M S Met L)} :
      runConfig env generators config = .ok run →
      SweepTrace env (env.generators run.model) configs runs →
      SweepTrace env generators (config :: configs) ((config, run) :: runs)

/-- The loss that the run at `i` returned. -/
def sweepLoss (runs : List (ProbeConfig × ProbeRun M S Met L)) (i : ℕ) : WithTop L :=
  (runs[i]?).elim ⊤ (fun run => run.2.metrics.loss)

/-- The loop over the configurations holds the run at `i`. -/
structure HoldsRun (runs : List (ProbeConfig × ProbeRun M S Met L)) (i : ℕ)
    (st : SweepLoop G S Met L) : Prop where
  first : IsFirstMin (sweepLoss runs) runs.length i
  held : ∃ config run, runs[i]? = some (config, run) ∧
    st.bestOverallMetric = (run.metrics.loss : L) ∧ st.bestOverallConfig = some config ∧
      st.bestOverallState = run.bestState
  results : st.sweepResults = runs.map (fun run => (run.1, run.2.metrics))

variable {runs : List (ProbeConfig × ProbeRun M S Met L)}

omit [LinearOrder L] in
theorem sweepLoss_concat_of_lt (run : ProbeConfig × ProbeRun M S Met L) {i : ℕ}
    (hi : i < runs.length) : sweepLoss (runs ++ [run]) i = sweepLoss runs i := by
  rw [sweepLoss, List.getElem?_append_left hi]
  rfl

omit [LinearOrder L] in
theorem sweepLoss_concat_length (run : ProbeConfig × ProbeRun M S Met L) :
    sweepLoss (runs ++ [run]) runs.length = run.2.metrics.loss := by
  rw [sweepLoss, List.getElem?_concat_length]
  rfl

theorem sweepStep_first {generators : G} {config : ProbeConfig} {run : ProbeRun M S Met L}
    (hrun : runConfig env generators config = .ok run) :
    ∃ st, sweepStep env ⟨generators, ⊤, none, none, []⟩ config = .ok st ∧
      HoldsRun [(config, run)] 0 st ∧ st.generators = env.generators run.model := by
  refine ⟨⟨env.generators run.model, run.metrics.loss, some config, run.bestState,
    [(config, run.metrics)]⟩, ?_, ⟨isFirstMin_one _, ⟨config, run, rfl, rfl, rfl, rfl⟩, rfl⟩, rfl⟩
  rw [sweepStep, hrun, ok_bind]
  exact if_pos (WithTop.coe_lt_top _)

/-- One more configuration: the better run is held, the earlier one on a tie. -/
theorem sweepStep_holds {i : ℕ} {st : SweepLoop G S Met L} (hst : HoldsRun runs i st)
    {config : ProbeConfig} {run : ProbeRun M S Met L}
    (hrun : runConfig env st.generators config = .ok run) :
    ∃ i' st', sweepStep env st config = .ok st' ∧ HoldsRun (runs ++ [(config, run)]) i' st' ∧
      st'.generators = env.generators run.model := by
  obtain ⟨heldConfig, heldRun, hget, hmetric, hconfig, hstate⟩ := hst.held
  have hlt := hst.first.lt
  have hresults : st.sweepResults ++ [(config, run.metrics)] =
      (runs ++ [(config, run)]).map (fun run => (run.1, run.2.metrics)) := by
    rw [hst.results, List.map_append]
    rfl
  have hloss : sweepLoss runs i = heldRun.metrics.loss := by
    rw [sweepLoss, hget]
    rfl
  have hfirst : IsFirstMin (sweepLoss (runs ++ [(config, run)])) runs.length i :=
    hst.first.congr (fun j hj => (sweepLoss_concat_of_lt _ hj).symm)
  have hcompare : sweepLoss (runs ++ [(config, run)]) runs.length <
      sweepLoss (runs ++ [(config, run)]) i ↔
      (run.metrics.loss : WithTop L) < st.bestOverallMetric := by
    rw [sweepLoss_concat_length, sweepLoss_concat_of_lt _ hlt, hloss, hmetric]
  rw [sweepStep, hrun, ok_bind]
  dsimp only
  split_ifs with hbetter
  · refine ⟨runs.length, _, rfl, ⟨?_, ⟨config, run, ?_, rfl, rfl, rfl⟩, hresults⟩, rfl⟩
    · rw [List.length_append]
      exact hfirst.replace (hcompare.mpr hbetter)
    · exact List.getElem?_concat_length
  · refine ⟨i, _, rfl, ⟨?_, ⟨heldConfig, heldRun, ?_, hmetric, hconfig, hstate⟩, hresults⟩, rfl⟩
    · rw [List.length_append]
      exact hfirst.keep (fun h => hbetter (hcompare.mp h))
    · rw [List.getElem?_append_left hlt]
      exact hget

theorem foldlM_sweepStep {generators : G} {configs : List ProbeConfig}
    {more : List (ProbeConfig × ProbeRun M S Met L)}
    (htrace : SweepTrace env generators configs more) {i : ℕ} {st : SweepLoop G S Met L}
    (hst : HoldsRun runs i st) (hgenerators : st.generators = generators) :
    ∃ i' st', configs.foldlM (sweepStep env) st = .ok st' ∧ HoldsRun (runs ++ more) i' st' := by
  induction htrace generalizing runs i st with
  | nil => exact ⟨i, st, rfl, by rwa [List.append_nil]⟩
  | cons hrun _ ih =>
      rw [← hgenerators] at hrun
      obtain ⟨i', st', hstep, hst', hgenerators'⟩ := sweepStep_holds hst hrun
      rw [List.foldlM_cons, hstep, ok_bind, ← List.singleton_append, ← List.append_assoc]
      exact ih hst' hgenerators'

theorem runProbeSweep_of_trace {generators : G} {base : ProbeBaseConfig}
    (htrace : SweepTrace env generators (sweepConfigs base) runs)
    (hstates : ∀ run ∈ runs, ∃ state, run.2.bestState = some state) :
    ∃ files i config run, runProbeSweep env generators base = .ok files ∧
      runs[i]? = some (config, run) ∧ IsFirstMin (sweepLoss runs) runs.length i ∧
      files.bestConfig = config ∧ run.bestState = some files.bestProbe ∧
      files.bestLoss = (run.metrics.loss : L) ∧
      files.sweepResults = runs.map (fun run => (run.1, run.2.metrics)) := by
  cases htrace with
  | cons hrun hmore =>
      obtain ⟨st, hstep, hst, hgenerators⟩ := sweepStep_first hrun
      obtain ⟨i, st', hloop, hst'⟩ := foldlM_sweepStep hmore hst hgenerators
      obtain ⟨config, run, hget, hmetric, hconfig, hstate⟩ := hst'.held
      obtain ⟨state, hsome⟩ := hstates (config, run) (List.mem_of_getElem? hget)
      refine ⟨⟨state, config, st'.bestOverallMetric, st'.sweepResults⟩, i, config, run, ?_, hget,
        hst'.first, rfl, hsome, hmetric, hst'.results⟩
      have hall : (sweepConfigs base).foldlM (sweepStep env) ⟨generators, ⊤, none, none, []⟩ =
          .ok st' := by
        show (sweepStep env _ _ >>= fun st => List.foldlM (sweepStep env) st _) = _
        rw [hstep, ok_bind]
        exact hloop
      rw [runProbeSweep, hall, ok_bind]
      rw [hsome] at hstate
      simp only [hconfig, hstate]
      rfl

/-- The run was set up for the configuration and returned the best of its epochs. -/
def BestOfItsEpochs (env : SweepEnv G M S Met L) (base : ProbeBaseConfig)
    (run : ProbeConfig × ProbeRun M S Met L) : Prop :=
  ∃ generators epochEnv model lossOf scoresOf n e,
    env.setUp run.1 generators = .ok (epochEnv, model) ∧ Validates epochEnv lossOf scoresOf ∧
      ReturnsBest epochEnv lossOf scoresOf model base.patience base.epochs n e run.2

/-- Every configuration can be set up, and its validation gives a loss. -/
def SetsUp (env : SweepEnv G M S Met L) (base : ProbeBaseConfig) : Prop :=
  ∀ (config : ProbeConfig) (generators : G), config.toProbeBaseConfig = base →
    ∃ epochEnv model lossOf scoresOf, env.setUp config generators = .ok (epochEnv, model) ∧
      Validates epochEnv lossOf scoresOf

theorem base_of_mem_sweepConfigs {base : ProbeBaseConfig} {config : ProbeConfig}
    (h : config ∈ sweepConfigs base) : config.toProbeBaseConfig = base := by
  obtain ⟨lr, -, h⟩ := List.mem_flatMap.mp h
  obtain ⟨dropout, -, h⟩ := List.mem_flatMap.mp h
  obtain ⟨weightDecay, -, rfl⟩ := List.mem_map.mp h
  rfl

/-- Runs that are set up can be made one after another. -/
theorem exists_sweepTrace {base : ProbeBaseConfig} (hepochs : 1 ≤ base.epochs)
    (hpatience : 1 ≤ base.patience) (hsetUp : SetsUp env base) {configs : List ProbeConfig}
    (hconfigs : ∀ config ∈ configs, config.toProbeBaseConfig = base) (generators : G) :
    ∃ runs, SweepTrace env generators configs runs ∧
      ∀ run ∈ runs, BestOfItsEpochs env base run := by
  induction configs generalizing generators with
  | nil => exact ⟨[], SweepTrace.nil, fun _ h => by cases h⟩
  | cons config configs ih =>
      have hbase := hconfigs config List.mem_cons_self
      obtain ⟨epochEnv, model, lossOf, scoresOf, hset, hvalid⟩ := hsetUp config generators hbase
      obtain ⟨run, n, e, hrun, hbest⟩ := trainSingleRun_returnsBest hvalid hepochs hpatience model
      have hconfig : runConfig env generators config = .ok run := by
        rw [runConfig, hset, ok_bind]
        show trainSingleRun epochEnv config.toProbeBaseConfig.epochs
          config.toProbeBaseConfig.patience model = .ok run
        rw [hbase]
        exact hrun
      obtain ⟨runs, htrace, hruns⟩ := ih (fun config' h => hconfigs config'
        (List.mem_cons_of_mem _ h)) (env.generators run.model)
      refine ⟨(config, run) :: runs, SweepTrace.cons hconfig htrace, ?_⟩
      intro run' hrun'
      rcases List.mem_cons.mp hrun' with rfl | hrun'
      · exact ⟨generators, epochEnv, model, lossOf, scoresOf, n, e, hset, hvalid, hbest⟩
      · exact hruns run' hrun'

end Sweep

/-! ## The probe that is kept -/

/-- Whatever the losses, as long as each is below `float('inf')` and none is NaN,
`train_single_run` stops at the first epoch that completes the patience (or at the
limit) and returns the first executed epoch with the smallest loss, its weights with
its metrics; `run_probe_sweep` saves the weights and the configuration of the first run
with the smallest loss, and reports that loss. -/
theorem probe_selection_keeps_best {G M S Met L : Type} [LinearOrder L] :
    (∀ (env : EpochEnv M S Met L) (lossOf : M → L) (scoresOf : M → Met) (model : M)
        (epochs patience : ℕ), Validates env lossOf scoresOf → 1 ≤ epochs → 1 ≤ patience →
      ∃ run n e, trainSingleRun env epochs patience model = .ok run ∧
        ReturnsBest env lossOf scoresOf model patience epochs n e run) ∧
    (∀ (env : SweepEnv G M S Met L) (generators : G) (base : ProbeBaseConfig), SetsUp env base →
        1 ≤ base.epochs → 1 ≤ base.patience →
      ∃ runs files i config run, SweepTrace env generators (sweepConfigs base) runs ∧
        runProbeSweep env generators base = .ok files ∧ runs[i]? = some (config, run) ∧
        IsFirstMin (sweepLoss runs) runs.length i ∧ files.bestConfig = config ∧
        run.bestState = some files.bestProbe ∧ files.bestLoss = (run.metrics.loss : L) ∧
        files.sweepResults = runs.map (fun run => (run.1, run.2.metrics)) ∧
        ∀ run ∈ runs, BestOfItsEpochs env base run) := by
  refine ⟨?_, ?_⟩
  · intro env lossOf scoresOf model epochs patience hvalid hepochs hpatience
    exact trainSingleRun_returnsBest hvalid hepochs hpatience model
  · intro env generators base hsetUp hepochs hpatience
    obtain ⟨runs, htrace, hruns⟩ := exists_sweepTrace hepochs hpatience hsetUp
      (fun config h => base_of_mem_sweepConfigs h) generators
    have hstates : ∀ run ∈ runs, ∃ state, run.2.bestState = some state := by
      intro run hrun
      obtain ⟨_, _, _, _, _, _, _, _, _, hbest⟩ := hruns run hrun
      exact ⟨_, hbest.state_eq⟩
    obtain ⟨files, i, config, run, hfiles, hget, hfirst, hconfig, hstate, hloss, hresults⟩ :=
      runProbeSweep_of_trace htrace hstates
    exact ⟨runs, files, i, config, run, htrace, hfiles, hget, hfirst, hconfig, hstate, hloss,
      hresults, hruns⟩

/-- Losses 5, 3, 3, 4, 2: the model counts its epochs. -/
def plateauEpochs : EpochEnv ℕ ℕ Unit ℕ where
  trainEpoch model := model + 1
  validate model := .ok ([0, 5, 3, 3, 4, 2].getD model 0, ())
  schedulerStep model _ := model
  stateDict model := model

theorem plateau_validates :
    Validates plateauEpochs (fun model => [0, 5, 3, 3, 4, 2].getD model 0) (fun _ => ()) :=
  ⟨fun _ => rfl⟩

/-- With a patience of two the run ends after the fourth epoch and keeps the
second; the fifth, which would be better, is not reached. -/
theorem probe_selection_plateau :
    ∃ run n e, trainSingleRun plateauEpochs 5 2 0 = .ok run ∧ run.epochsRun = 4 ∧
      run.bestState = some 2 ∧ run.metrics.loss = 3 ∧
      ReturnsBest plateauEpochs (fun model => [0, 5, 3, 3, 4, 2].getD model 0) (fun _ => ()) 0 2 5
        n e run := by
  obtain ⟨run, n, e, hrun, hbest⟩ := (@probe_selection_keeps_best Unit ℕ ℕ Unit ℕ _).1
    plateauEpochs _ _ 0 5 2 plateau_validates (by decide) (by decide)
  have hconcrete : trainSingleRun plateauEpochs 5 2 0 = .ok ⟨⟨3, ()⟩, some 2, 4, 4⟩ := rfl
  obtain rfl := Except.ok.inj (hrun.symm.trans hconcrete)
  exact ⟨_, n, e, hrun, rfl, rfl, rfl, hbest⟩

end RLCM.Eval
