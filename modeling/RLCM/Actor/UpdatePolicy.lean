/-
# `RLCM.Actor.UpdatePolicy` — one policy update, loss call by loss call

`DataParallelPPOActor.update_policy`: select columns, cut the batch into
mini-batches and these into micro-batches, and call the policy loss on every
micro-batch, for `ppo_epochs` epochs.  The run is the list of the loss calls in
the order in which they are made; each remembers which rows of the batch it is
about.

What one call gets is `lossCall`; `mem_calls` reduces a statement about a run to
it.  The partition of a mini-batch by token counts is a parameter that keeps
every row exactly once, and the model's log-probabilities are a parameter that
may change from call to call.
-/
import RLCM.Actor.DataProto
import RLCM.PPO.PolicyLoss

namespace RLCM.Actor

open Py Stats PPO

variable {L n : ℕ}

/-! ## Settings -/

/-- `policy_loss.loss_mode`. -/
inductive LossMode where
  | vanilla
  | c2gspg
  | other
deriving DecidableEq

/-- The actor configuration as the worker normalised and checked it, and whether the batch has
a `uid`. -/
structure ActorConfig where
  ppoMiniBatchSize : ℕ
  ppoMicroBatchSizePerGpu : ℕ
  useDynamicBsz : Bool
  ppoMaxTokenLenPerGpu : ℕ
  ulyssesSequenceParallelSize : ℕ
  ppoEpochs : ℕ
  usePrefixGrouper : Bool
  useRemovePadding : Bool
  useFusedKernels : Bool
  hasUid : Bool
  useKlLoss : Bool
  useRolloutLogProbs : Bool
  lossMode : LossMode
  loss : PolicyLossConfig
  miniBatch_pos : 0 < ppoMiniBatchSize
  microBatch_pos : useDynamicBsz = false → 0 < ppoMicroBatchSizePerGpu

/-- What an update calls. -/
structure UpdateEnv (L : ℕ) where
  fns : Elementary
  forward : {m : ℕ} → ℕ → TensorDict L m → Tensor m L
  partition : {m : ℕ} → TensorDict L m → ℕ → List (List (Fin m))
  partition_perm : ∀ {m : ℕ} (batch : TensorDict L m) (maxTokenLen : ℕ),
    (partition batch maxTokenLen).flatten.Perm (List.finRange m)
  otherPolicyLoss : {m : ℕ} → PolicyLossConfig → PolicyLossArgs m L →
    Except Error (ℚ × PgMetrics)

/-! ## The columns and the schedule -/

def selectKeys (cfg : ActorConfig) (data : TensorDict L n) : List BatchKey :=
  [.responses, .responseMask, .inputIds, .attentionMask, .positionIds, .oldLogProbs, .advantages]
    ++ (if cfg.usePrefixGrouper && data.has .prompts then [.prompts] else [])
    ++ (if cfg.useKlLoss then [.refLogProb] else [])
    ++ (if data.has .rolloutIsWeights then [.rolloutIsWeights] else [])
    ++ (if data.has .rolloutLogProbs then [.rolloutLogProbs] else [])

/-- `data.split(self.config.ppo_mini_batch_size)`, as the rows of every
mini-batch. -/
def miniBatches (cfg : ActorConfig) (n : ℕ) : List (List (Fin n)) :=
  Blocks.pieces cfg.ppoMiniBatchSize (List.finRange n)

def microBatches (cfg : ActorConfig) (env : UpdateEnv L) (data : TensorDict L n)
    (miniBatch : List (Fin n)) : List (List (Fin n)) :=
  if cfg.useDynamicBsz then
    let maxTokenLen := cfg.ppoMaxTokenLenPerGpu * cfg.ulyssesSequenceParallelSize
    (env.partition (data.gather miniBatch) maxTokenLen).map (fun idx => idx.map miniBatch.get)
  else Blocks.pieces cfg.ppoMicroBatchSizePerGpu miniBatch

def epoch (cfg : ActorConfig) (env : UpdateEnv L) (data : TensorDict L n) :
    List (List (Fin n)) :=
  (miniBatches cfg n).flatMap (microBatches cfg env data)

/-- The micro-batches of an update, in order. -/
def schedule (cfg : ActorConfig) (env : UpdateEnv L) (data : TensorDict L n) :
    List (List (Fin n)) :=
  (List.range cfg.ppoEpochs).flatMap (fun _ => epoch cfg env data)

/-! ## One loss call -/

/-- A call of the policy loss and what came out of it. -/
structure LossCall (L n : ℕ) where
  rows : List (Fin n)
  args : PolicyLossArgs rows.length L
  c2BinaryReward : Option (Fin rows.length → ℚ)
  result : Except Error (ℚ × PgMetrics)
  lossScaleFactor : ℚ

/-- `loss_scale_factor` of a micro-batch of `m` rows. -/
def lossScaleFactor (cfg : ActorConfig) (m : ℕ) : ℚ :=
  if cfg.useDynamicBsz then m / cfg.ppoMiniBatchSize
  else 1 / (cfg.ppoMiniBatchSize / cfg.ppoMicroBatchSizePerGpu : ℕ)

/-- `policy_loss_fn(..., **extra_loss_kwargs)`. -/
def policyLoss {m : ℕ} (cfg : ActorConfig) (env : UpdateEnv L) (args : PolicyLossArgs m L)
    (c2BinaryReward : Option (Fin m → ℚ)) : Except Error (ℚ × PgMetrics) :=
  match cfg.lossMode with
  | .vanilla => computePolicyLossVanilla env.fns cfg.loss args
  | .c2gspg => computePolicyLossC2gspg env.fns cfg.loss args c2BinaryReward
  | .other => env.otherPolicyLoss cfg.loss args

/-- The prefix-grouper path of `_forward_micro_batch` is taken.  The mask it needs is among the
selected columns. -/
def ActorConfig.takesPrefixGrouper (cfg : ActorConfig) : Bool :=
  cfg.usePrefixGrouper && !cfg.useRemovePadding && cfg.ulyssesSequenceParallelSize ≤ 1 &&
    !cfg.useFusedKernels && !cfg.useDynamicBsz && cfg.hasUid

/-- `_forward_micro_batch(...)["log_probs"]`.  The prefix-grouper path gives a tuple, which
cannot be indexed by key. -/
def forwardLogProbs {m : ℕ} (cfg : ActorConfig) (env : UpdateEnv L) (callNumber : ℕ)
    (modelInputs : TensorDict L m) : Except Error (Tensor m L) :=
  if cfg.takesPrefixGrouper then .error .typeError
  else .ok (env.forward callNumber modelInputs)

/-- The body of the innermost loop up to the policy loss, on the selected
columns. -/
def lossCall (cfg : ActorConfig) (env : UpdateEnv L) (data : TensorDict L n) (onPolicy : Bool)
    (callNumber : ℕ) (rows : List (Fin n)) : Except Error (LossCall L n) := do
  let modelInputs := data.gather rows
  let responseMask ← modelInputs.getItem .responseMask
  let oldLogProbs ← modelInputs.getItem .oldLogProbs
  let advantages ← modelInputs.getItem .advantages
  let logProb ← forwardLogProbs cfg env callNumber modelInputs
  let args : PolicyLossArgs rows.length L :=
    { oldLogProb :=
        if cfg.useRolloutLogProbs then oldLogProbs else if onPolicy then logProb else oldLogProbs
      logProb, advantages, responseMask
      rolloutIsWeights := modelInputs.column .rolloutIsWeights }
  let c2BinaryReward :=
    if cfg.lossMode = .c2gspg then modelInputs.column .c2BinaryReward else none
  pure
    { rows, args, c2BinaryReward
      result := policyLoss cfg env args c2BinaryReward
      lossScaleFactor := lossScaleFactor cfg rows.length }

/-! ## The run -/

/-- The loss calls of an update, with `metrics["actor/pg_loss"]` or the
exception that ended it. -/
structure UpdateRun (L n : ℕ) where
  calls : List (LossCall L n)
  pgLoss : Except Error ℚ

/-- The loop over the micro-batches, after the listed calls. -/
def trainMicroBatches (cfg : ActorConfig) (env : UpdateEnv L) (data : TensorDict L n)
    (onPolicy : Bool) (calls : List (LossCall L n)) (pgLoss : ℚ) :
    List (List (Fin n)) → UpdateRun L n
  | [] => { calls, pgLoss := .ok pgLoss }
  | rows :: rest =>
      match lossCall cfg env data onPolicy calls.length rows with
      | .error e => { calls, pgLoss := .error e }
      | .ok call =>
          match call.result with
          | .error e => { calls := calls ++ [call], pgLoss := .error e }
          | .ok (loss, _) =>
              trainMicroBatches cfg env data onPolicy (calls ++ [call])
                (pgLoss + loss * call.lossScaleFactor) rest

/-- `DataParallelPPOActor.update_policy`. -/
def updatePolicy (cfg : ActorConfig) (env : UpdateEnv L) (data : TensorDict L n) :
    UpdateRun L n :=
  match data.select (selectKeys cfg data) with
  | .error e => { calls := [], pgLoss := .error e }
  | .ok selected =>
      let onPolicy := (miniBatches cfg n).length == 1 && cfg.ppoEpochs == 1
      trainMicroBatches cfg env selected onPolicy [] 0 (schedule cfg env selected)

/-! ## The schedule keeps every row -/

section Schedule

variable (cfg : ActorConfig) (env : UpdateEnv L) (data : TensorDict L n)

theorem microBatches_perm (miniBatch : List (Fin n)) :
    (microBatches cfg env data miniBatch).flatten.Perm miniBatch := by
  unfold microBatches
  split
  case isTrue h =>
    have hperm := (env.partition_perm (data.gather miniBatch)
      (cfg.ppoMaxTokenLenPerGpu * cfg.ulyssesSequenceParallelSize)).map miniBatch.get
    rw [List.map_get_finRange, List.map_flatten] at hperm
    exact hperm
  case isFalse h =>
    rw [Blocks.flatten_pieces (cfg.microBatch_pos (by simpa using h))]

/-- Every epoch trains on every row of the batch exactly once, whatever the
sizes and however the mini-batches are partitioned. -/
theorem epoch_perm : (epoch cfg env data).flatten.Perm (List.finRange n) := by
  have hmini : (miniBatches cfg n).flatten = List.finRange n :=
    Blocks.flatten_pieces cfg.miniBatch_pos _
  rw [← hmini, epoch]
  induction miniBatches cfg n with
  | nil => exact List.Perm.refl _
  | cons miniBatch rest ih =>
      rw [List.flatMap_cons, List.flatten_append, List.flatten_cons]
      exact (microBatches_perm cfg env data miniBatch).append ih

/-- An update has a micro-batch as soon as it has an epoch and a row. -/
theorem schedule_ne_nil (hepochs : cfg.ppoEpochs ≠ 0) (hn : n ≠ 0) :
    schedule cfg env data ≠ [] := by
  intro hnil
  have hzero : 0 ∈ List.range cfg.ppoEpochs := List.mem_range.mpr (Nat.pos_of_ne_zero hepochs)
  have hepoch : epoch cfg env data = [] := List.flatMap_eq_nil_iff.mp hnil 0 hzero
  have hperm := epoch_perm cfg env data
  rw [hepoch] at hperm
  have hlen := hperm.length_eq
  simp only [List.flatten_nil, List.length_nil, List.length_finRange] at hlen
  exact hn hlen.symm

end Schedule

/-! ## What the calls of a run get -/

section Calls

variable {cfg : ActorConfig} {env : UpdateEnv L} {data : TensorDict L n}

/-- Every call of the loop was there before or was made on a micro-batch of
the schedule. -/
theorem mem_calls_trainMicroBatches {onPolicy : Bool} {rest : List (List (Fin n))}
    {calls : List (LossCall L n)} {pgLoss : ℚ} {call : LossCall L n}
    (h : call ∈ (trainMicroBatches cfg env data onPolicy calls pgLoss rest).calls) :
    call ∈ calls ∨
      ∃ callNumber, ∃ rows ∈ rest,
        lossCall cfg env data onPolicy callNumber rows = .ok call := by
  induction rest generalizing calls pgLoss with
  | nil => exact Or.inl h
  | cons rows rest ih =>
      rw [trainMicroBatches] at h
      split at h
      case h_1 e hcall => exact Or.inl h
      case h_2 new hcall =>
        have hnew : call ∈ calls ++ [new] → call ∈ calls ∨
            ∃ callNumber, ∃ rows' ∈ rows :: rest,
              lossCall cfg env data onPolicy callNumber rows' = .ok call := by
          intro hmem
          rcases List.mem_append.mp hmem with hold | hlast
          · exact Or.inl hold
          · obtain rfl := List.mem_singleton.mp hlast
            exact Or.inr ⟨_, rows, List.mem_cons_self, hcall⟩
        split at h
        case h_1 e hresult => exact hnew h
        case h_2 loss metrics hresult =>
          rcases ih h with hmem | ⟨callNumber, rows', hrows', hmade⟩
          · exact hnew hmem
          · exact Or.inr ⟨callNumber, rows', List.mem_cons_of_mem _ hrows', hmade⟩

/-- Every call of an update was made on the selected columns of a micro-batch
of the schedule. -/
theorem mem_calls {call : LossCall L n} (h : call ∈ (updatePolicy cfg env data).calls) :
    ∃ selected onPolicy callNumber, data.select (selectKeys cfg data) = .ok selected ∧
      ∃ rows ∈ schedule cfg env selected,
        lossCall cfg env selected onPolicy callNumber rows = .ok call := by
  unfold updatePolicy at h
  split at h
  case h_1 e hselect => cases h
  case h_2 selected hselect =>
    rcases mem_calls_trainMicroBatches h with hnil | ⟨callNumber, rows, hrows, hmade⟩
    · cases hnil
    · exact ⟨selected, _, callNumber, hselect, rows, hrows, hmade⟩

theorem subset_calls_trainMicroBatches (onPolicy : Bool) (rest : List (List (Fin n)))
    (calls : List (LossCall L n)) (pgLoss : ℚ) :
    calls ⊆ (trainMicroBatches cfg env data onPolicy calls pgLoss rest).calls := by
  induction rest generalizing calls pgLoss with
  | nil => exact fun _ h => h
  | cons rows rest ih =>
      intro call hmem
      rw [trainMicroBatches]
      split
      case h_1 e hcall => exact hmem
      case h_2 new hcall =>
        split
        case h_1 e hresult => exact List.mem_append_left _ hmem
        case h_2 loss metrics hresult => exact ih _ _ (List.mem_append_left _ hmem)

theorem lossCall_eq_ok {onPolicy : Bool} {callNumber : ℕ} {rows : List (Fin n)}
    {call : LossCall L n} (h : lossCall cfg env data onPolicy callNumber rows = .ok call) :
    ∃ (args : PolicyLossArgs rows.length L) (c2BinaryReward : Option (Fin rows.length → ℚ)),
      (data.gather rows).column .responseMask = some args.responseMask ∧
      (data.gather rows).column .advantages = some args.advantages ∧
      args.rolloutIsWeights = (data.gather rows).column .rolloutIsWeights ∧
      c2BinaryReward =
        (if cfg.lossMode = .c2gspg then (data.gather rows).column .c2BinaryReward else none) ∧
      call = ⟨rows, args, c2BinaryReward, policyLoss cfg env args c2BinaryReward,
        lossScaleFactor cfg rows.length⟩ := by
  unfold lossCall at h
  obtain ⟨responseMask, hmask, h⟩ := bind_eq_ok.mp h
  obtain ⟨oldLogProbs, hold, h⟩ := bind_eq_ok.mp h
  obtain ⟨advantages, hadv, h⟩ := bind_eq_ok.mp h
  obtain ⟨logProb, -, h⟩ := bind_eq_ok.mp h
  cases h
  exact ⟨_, _, TensorDict.getItem_eq_ok.mp hmask, TensorDict.getItem_eq_ok.mp hadv, rfl, rfl, rfl⟩

theorem forwardLogProbs_ok (hpath : cfg.takesPrefixGrouper = false) {m : ℕ} (callNumber : ℕ)
    (modelInputs : TensorDict L m) :
    forwardLogProbs cfg env callNumber modelInputs = .ok (env.forward callNumber modelInputs) := by
  rw [forwardLogProbs, hpath, if_neg Bool.false_ne_true]

theorem lossCall_prefixGrouper (hpath : cfg.takesPrefixGrouper = true) (onPolicy : Bool)
    (callNumber : ℕ) (rows : List (Fin n)) (call : LossCall L n) :
    lossCall cfg env data onPolicy callNumber rows ≠ .ok call := by
  intro h
  obtain ⟨_, -, h⟩ := bind_eq_ok.mp h
  obtain ⟨_, -, h⟩ := bind_eq_ok.mp h
  obtain ⟨_, -, h⟩ := bind_eq_ok.mp h
  obtain ⟨_, hforward, -⟩ := bind_eq_ok.mp h
  rw [forwardLogProbs, if_pos hpath] at hforward
  cases hforward

theorem lossCall_returns (hpath : cfg.takesPrefixGrouper = false) (onPolicy : Bool)
    (callNumber : ℕ) (rows : List (Fin n))
    (hmask : ∃ col, data.column .responseMask = some col)
    (hold : ∃ col, data.column .oldLogProbs = some col)
    (hadv : ∃ col, data.column .advantages = some col) :
    ∃ call, lossCall cfg env data onPolicy callNumber rows = .ok call := by
  obtain ⟨mask, hmask⟩ := hmask
  obtain ⟨old, hold⟩ := hold
  obtain ⟨adv, hadv⟩ := hadv
  simp [lossCall, TensorDict.getItem, TensorDict.gather, hmask, hold, hadv,
    forwardLogProbs_ok hpath]

/-- Outside the prefix-grouper path, an update with an epoch, a row and all selected columns
makes a call. -/
theorem calls_ne_nil (hpath : cfg.takesPrefixGrouper = false) (hepochs : cfg.ppoEpochs ≠ 0)
    (hn : n ≠ 0) (hselect : ∀ k ∈ selectKeys cfg data, data.column k ≠ none) :
    (updatePolicy cfg env data).calls ≠ [] := by
  obtain ⟨selected, hselected⟩ := TensorDict.select_returns.mpr hselect
  have hcolumn : ∀ k ∈ selectKeys cfg data, ∃ col, selected.column k = some col :=
    fun k hk => TensorDict.has_of_select hselected hk
  simp only [updatePolicy, hselected]
  obtain ⟨rows, rest, hschedule⟩ :=
    List.exists_cons_of_ne_nil (schedule_ne_nil cfg env selected hepochs hn)
  rw [hschedule, trainMicroBatches]
  generalize ((miniBatches cfg n).length == 1 && cfg.ppoEpochs == 1) = onPolicy
  obtain ⟨call, hcall⟩ : ∃ call, lossCall cfg env selected onPolicy 0 rows = .ok call :=
    lossCall_returns hpath onPolicy 0 rows (hcolumn .responseMask (by simp [selectKeys]))
      (hcolumn .oldLogProbs (by simp [selectKeys])) (hcolumn .advantages (by simp [selectKeys]))
  simp only [List.length_nil, hcall, List.nil_append]
  cases call.result with
  | error e => simp
  | ok loss =>
      have hmem : call ∈ (trainMicroBatches cfg env selected onPolicy [call]
          (0 + loss.1 * call.lossScaleFactor) rest).calls :=
        subset_calls_trainMicroBatches onPolicy rest [call] _ List.mem_cons_self
      exact List.ne_nil_of_mem hmem

/-- Without an epoch, a row or a selected column, or in the prefix-grouper path, no call is
made. -/
theorem calls_eq_nil (h : cfg.takesPrefixGrouper = true ∨ cfg.ppoEpochs = 0 ∨ n = 0 ∨
    ∃ k ∈ selectKeys cfg data, data.column k = none) :
    (updatePolicy cfg env data).calls = [] := by
  rcases h with hpath | h
  · refine List.eq_nil_iff_forall_not_mem.mpr (fun call hmem => ?_)
    obtain ⟨selected, onPolicy, callNumber, -, rows, -, hcall⟩ := mem_calls hmem
    exact lossCall_prefixGrouper hpath onPolicy callNumber rows call hcall
  unfold updatePolicy
  split
  case h_1 e hselect => rfl
  case h_2 selected hselect =>
    rcases h with hepochs | hn | ⟨k, hk, hnone⟩
    · simp [schedule, hepochs, trainMicroBatches]
    · subst hn
      have hmini : miniBatches cfg 0 = [] := by
        have hpos := cfg.miniBatch_pos
        have hdiv : (cfg.ppoMiniBatchSize - 1) / cfg.ppoMiniBatchSize = 0 :=
          Nat.div_eq_of_lt (by omega)
        simp [miniBatches, Blocks.pieces, hdiv]
      have hepoch : epoch cfg env selected = [] := by simp [epoch, hmini]
      have hschedule : schedule cfg env selected = [] :=
        List.flatMap_eq_nil_iff.mpr (fun _ _ => hepoch)
      rw [hschedule, trainMicroBatches]
    · exact absurd hnone (TensorDict.select_returns.mp ⟨_, hselect⟩ k hk)

theorem call_gets_own_rows {call : LossCall L n}
    (h : call ∈ (updatePolicy cfg env data).calls) :
    ∃ mask advantages, data.column .responseMask = some mask ∧
      data.column .advantages = some advantages ∧
      (∀ j, call.args.responseMask j = mask (call.rows.get j)) ∧
      ∀ j, call.args.advantages j = advantages (call.rows.get j) := by
  obtain ⟨selected, onPolicy, callNumber, hselect, rows, _, hcall⟩ := mem_calls h
  obtain ⟨args, c2BinaryReward, hmask, hadv, -, -, rfl⟩ := lossCall_eq_ok hcall
  have hkey : ∀ k ∈ selectKeys cfg data, selected.column k = data.column k :=
    fun k hk => TensorDict.column_of_select_of_mem hselect hk
  simp only [TensorDict.gather, hkey .responseMask (by simp [selectKeys]),
    hkey .advantages (by simp [selectKeys]), Option.map_eq_some_iff] at hmask hadv
  obtain ⟨mask, hmask, hmask'⟩ := hmask
  obtain ⟨advantages, hadv, hadv'⟩ := hadv
  exact ⟨mask, advantages, hmask, hadv, fun j => by rw [← hmask'], fun j => by rw [← hadv']⟩

end Calls

/-! ## The calibration labels -/

section Labels

variable (cfg : ActorConfig) (env : UpdateEnv L)

/-- Every loss call of the update gets the label the batch has for each of its
rows, and its loss is the clipped term plus the weighted calibration term on
them. -/
def LabelsReachLoss (data : TensorDict L n) : Prop :=
  ∀ labels, data.column .c2BinaryReward = some labels →
    ∀ call ∈ (updatePolicy cfg env data).calls,
      call.c2BinaryReward = some (fun j => labels (call.rows.get j)) ∧
      call.result.map Prod.fst =
        calibratedLoss env.fns cfg.loss call.args (fun j => labels (call.rows.get j))

variable {cfg env} {data : TensorDict L n}

theorem c2BinaryReward_not_mem_selectKeys : BatchKey.c2BinaryReward ∉ selectKeys cfg data := by
  unfold selectKeys
  split_ifs <;> decide

theorem call_without_labels (hmode : cfg.lossMode = .c2gspg) {call : LossCall L n}
    (h : call ∈ (updatePolicy cfg env data).calls) :
    call.c2BinaryReward = none ∧
      call.result = computePolicyLossVanilla env.fns cfg.loss call.args := by
  obtain ⟨selected, onPolicy, callNumber, hselect, rows, _, hcall⟩ := mem_calls h
  obtain ⟨args, c2BinaryReward, -, -, -, hlabels, rfl⟩ := lossCall_eq_ok hcall
  have hnone : selected.column .c2BinaryReward = none :=
    TensorDict.column_of_select_of_not_mem hselect c2BinaryReward_not_mem_selectKeys
  simp only [TensorDict.gather, hnone, Option.map_none, ite_self] at hlabels
  subst hlabels
  refine ⟨rfl, ?_⟩
  simp only [policyLoss, hmode]
  exact computePolicyLossC2gspg_none env.fns cfg.loss args

/-- With loss mode `c2gspg`, the labels of a batch reach the loss only in an
update that makes no loss call at all: the prefix-grouper path, no epoch, no row, or a
selected column missing. -/
theorem labelsReachLoss_iff (hmode : cfg.lossMode = .c2gspg) {labels : Fin n → ℚ}
    (hlabels : data.column .c2BinaryReward = some labels) :
    LabelsReachLoss cfg env data ↔ cfg.takesPrefixGrouper = true ∨
      cfg.ppoEpochs = 0 ∨ n = 0 ∨ ∃ k ∈ selectKeys cfg data, data.column k = none := by
  constructor
  · intro hreach
    by_contra hnot
    push Not at hnot
    obtain ⟨hpath, hepochs, hn, hselect⟩ := hnot
    have hne : (updatePolicy cfg env data).calls ≠ [] :=
      calls_ne_nil (Bool.eq_false_iff.mpr hpath) hepochs hn hselect
    obtain ⟨call, rest, hcalls⟩ := List.exists_cons_of_ne_nil hne
    have hmem : call ∈ (updatePolicy cfg env data).calls := by
      rw [hcalls]
      exact List.mem_cons_self
    have hsome := (hreach labels hlabels call hmem).1
    rw [(call_without_labels hmode hmem).1] at hsome
    cases hsome
  · intro hnone _ _ call hmem
    rw [calls_eq_nil hnone] at hmem
    cases hmem

/-! ### A batch of one sequence

The configuration of the launch script: mode `c2gspg`, weight 0.1, one epoch,
fixed-size micro-batches. -/

/-- The actor settings of the run. -/
def oneRowConfig : ActorConfig where
  ppoMiniBatchSize := 1
  ppoMicroBatchSizePerGpu := 1
  useDynamicBsz := false
  ppoMaxTokenLenPerGpu := 8
  ulyssesSequenceParallelSize := 1
  ppoEpochs := 1
  usePrefixGrouper := false
  useRemovePadding := false
  useFusedKernels := false
  hasUid := true
  useKlLoss := false
  useRolloutLogProbs := false
  lossMode := .c2gspg
  loss :=
    { clipRatio := 1 / 5, clipRatioLow := some (1 / 5), clipRatioHigh := some (1 / 5)
      clipRatioC := 3, lossAggMode := .tokenMean, globalBatchInfo := {}
      c2gspgBceBeta := 1 / 10 }
  miniBatch_pos := by decide
  microBatch_pos := by decide

/-- A model that gives every token log-probability `-1`. -/
def oneRowEnv : UpdateEnv 1 where
  fns := { exp := fun x => 1 + x, log := fun x => x - 1, sqrt := id }
  forward := fun _ _ _ _ => -1
  partition := fun {m} _ _ => [List.finRange m]
  partition_perm := fun {m} _ _ => by simp
  otherPolicyLoss := fun _ _ => .error .typeError

/-- One sequence of one token, answered correctly. -/
def oneRowBatch : TensorDict 1 1 where
  column
    | .responses => some (fun _ _ => 7)
    | .responseMask => some (fun _ _ => 1)
    | .inputIds => some (fun _ => [5, 7])
    | .attentionMask => some (fun _ => [1, 1])
    | .positionIds => some (fun _ => [0, 1])
    | .oldLogProbs => some (fun _ _ => -1)
    | .advantages => some (fun _ _ => 1)
    | .c2BinaryReward => some (fun _ => 1)
    | _ => none

theorem labelsReachLoss_iff_oneRow :
    oneRowConfig.lossMode = .c2gspg ∧
      (LabelsReachLoss oneRowConfig oneRowEnv oneRowBatch ↔
        oneRowConfig.takesPrefixGrouper = true ∨ oneRowConfig.ppoEpochs = 0 ∨ 1 = 0 ∨
          ∃ k ∈ selectKeys oneRowConfig oneRowBatch, oneRowBatch.column k = none) :=
  ⟨rfl, labelsReachLoss_iff rfl rfl⟩

/-- The label is 1, and the one loss call is made without it. -/
theorem oneRow_label_lost : ¬ LabelsReachLoss oneRowConfig oneRowEnv oneRowBatch := by
  intro hreach
  have hcalls : (updatePolicy oneRowConfig oneRowEnv oneRowBatch).calls.map
      (fun call => call.c2BinaryReward.isNone) = [true] := by
    decide +kernel
  obtain ⟨call, hmem, hnone⟩ := List.mem_map.mp (hcalls ▸ List.mem_singleton_self true)
  rw [(hreach (fun _ => 1) rfl call hmem).1] at hnone
  cases hnone

end Labels

end RLCM.Actor
