/-
# `RLCM.Actor.ComputeLogProb` — log-probabilities and hidden states in sample order

`DataParallelPPOActor.compute_log_prob` cuts the batch into micro-batches, runs
the model on each, concatenates what came out and, if the micro-batches were
chosen by token count, puts the rows back in the order of the samples.  It does
the last step in two ways: `restore_dynamic_batch` for the log-probabilities and
entropies, an `argsort` of its own for the hidden states.

The forward pass is a parameter with one row for every row of its input; the
index lists of `prepare_dynamic_batch` are a parameter that has every sample
once.  `computeLogProb_inSampleOrder` says that both ways bring every row back
to the sample it was computed for.
-/
import Mathlib.Data.List.Rotate
import RLCM.Actor.DataProto
import RLCM.Lib.Reindex

namespace RLCM.Actor

open Py Reindex

variable {L n : ℕ} {R H : Type}

/-! ## Settings -/

/-- What the actor, its module and the `meta_info` of the call say. -/
structure LogProbConfig where
  microBatchSize : ℕ
  useDynamicBsz : Bool
  maxTokenLen : ℕ
  hiddenStatesLayerIdx : ℕ
  hasUid : Bool
  ulyssesSequenceParallelSize : ℕ
  usePrefixGrouper : Bool
  useRemovePadding : Bool
  useFusedKernels : Bool
  actorUseDynamicBsz : Bool
  calculateSumPiSquared : Bool
  layers : Option ℕ
  hasNorm : Bool
  microBatch_pos : useDynamicBsz = false → 0 < microBatchSize
  sumPiSquared_supported : calculateSumPiSquared = true →
    useFusedKernels = false ∧ usePrefixGrouper = false

/-- What the model gives for a batch of `m` rows. -/
structure ForwardRows (R H : Type) (m : ℕ) where
  logProbs : Fin m → R
  entropys : Fin m → R
  sumPiSquared : Fin m → R
  hiddenStates : Fin m → H

/-- What the computation calls. -/
structure LogProbEnv (L : ℕ) (R H : Type) where
  forward : {m : ℕ} → TensorDict L m → ForwardRows R H m
  partition : {m : ℕ} → TensorDict L m → ℕ → List (List (Fin m))
  partition_perm : ∀ {m : ℕ} (batch : TensorDict L m) (maxTokenLen : ℕ),
    (partition batch maxTokenLen).flatten.Perm (List.finRange m)

/-- The dictionary `outputs`, of a micro-batch and of the whole call. -/
structure Outputs (R H : Type) where
  logProbs : List R
  entropys : Option (List R)
  sumPiSquared : Option (List R)
  hiddenStates : Option (List H)
deriving DecidableEq

/-! ## One micro-batch -/

/-- The lookup of the layer to hook: will the hidden states be captured? -/
def registerHook (cfg : LogProbConfig) (returnHiddenStates : Bool) : Except Error Bool :=
  if returnHiddenStates then
    match cfg.layers with
    | some layers =>
        if cfg.hiddenStatesLayerIdx ≤ layers then do
          let _ ← getItem (List.range layers) (layers - cfg.hiddenStatesLayerIdx)
          pure true
        else pure cfg.hasNorm
    | none => pure cfg.hasNorm
  else pure false

/-- The prefix-grouper path of `_forward_micro_batch` is taken. -/
def prefixGrouperPath {m : ℕ} (cfg : LogProbConfig) (microBatch : TensorDict L m) : Bool :=
  cfg.usePrefixGrouper && !cfg.useRemovePadding && cfg.ulyssesSequenceParallelSize ≤ 1 &&
    !cfg.useFusedKernels && !cfg.actorUseDynamicBsz && microBatch.has .responseMask && cfg.hasUid

/-- The dictionary of a micro-batch, once it is known whether the hidden states
were captured. -/
def microOutputs {m : ℕ} (cfg : LogProbConfig) (rows : ForwardRows R H m)
    (calculateEntropy captured : Bool) : Outputs R H where
  logProbs := List.ofFn rows.logProbs
  entropys := if calculateEntropy then some (List.ofFn rows.entropys) else none
  sumPiSquared := if cfg.calculateSumPiSquared then some (List.ofFn rows.sumPiSquared) else none
  hiddenStates := if captured then some (List.ofFn rows.hiddenStates) else none

/-- `_forward_micro_batch`.  The prefix-grouper path gives a tuple, which the
caller cannot index by key. -/
def forwardMicroBatch {m : ℕ} (cfg : LogProbConfig) (env : LogProbEnv L R H)
    (microBatch : TensorDict L m) (calculateEntropy returnHiddenStates : Bool) :
    Except Error (Outputs R H) :=
  if prefixGrouperPath cfg microBatch then .error .typeError
  else do
    let captured ← registerHook cfg returnHiddenStates
    pure (microOutputs cfg (env.forward microBatch) calculateEntropy captured)

/-! ## Putting the rows back -/

/-- `torch.concat(xs, dim=0)`. -/
def concat {α : Type} (xs : List (List α)) : Except Error (List α) :=
  if xs = [] then .error (.runtimeError "torch.cat(): expected a non-empty list of Tensors")
  else .ok xs.flatten

def getReverseIdx (idxMap : List ℕ) : Except Error (List ℕ) :=
  idxMap.zipIdx.foldlM (fun reverseIdxMap entry => setItem reverseIdxMap entry.1 entry.2) idxMap

def restoreDynamicBatch {α : Type} (data : List α) (batchIdxList : List (List ℕ)) :
    Except Error (List α) := do
  let indices := batchIdxList.flatten
  if indices.length = data.length then
    let revertIndices ← getReverseIdx indices
    revertIndices.mapM (getItem data)
  else .error .assertionError

/-- The lines of `compute_log_prob` that restore the hidden states. -/
def restoreHiddenStates {α : Type} (hiddenStates : List α) (batchIdxList : List (List ℕ)) :
    Except Error (List α) :=
  let revertIndices := argsort batchIdxList.flatten
  revertIndices.mapM (getItem hiddenStates)

/-! ## The whole computation -/

/-- `select_keys`. -/
def logProbKeys (cfg : LogProbConfig) (data : TensorDict L n) : List BatchKey :=
  [.responses, .inputIds, .attentionMask, .positionIds] ++
    (if cfg.usePrefixGrouper then [.prompts, .responseMask].filter data.has else [])

/-- The rows of every micro-batch; under `use_dynamic_bsz` this is
`batch_idx_list`. -/
def logProbMicroBatches (cfg : LogProbConfig) (env : LogProbEnv L R H) (data : TensorDict L n) :
    List (List (Fin n)) :=
  if cfg.useDynamicBsz then
    env.partition data (cfg.maxTokenLen * cfg.ulyssesSequenceParallelSize)
  else Blocks.pieces cfg.microBatchSize (List.finRange n)

/-- The rows of a concatenation, put back if the micro-batches were chosen by
token count. -/
def restoreRows {α : Type} (cfg : LogProbConfig) (batchIdxList : List (List ℕ))
    (restoreDynamic : List α → List (List ℕ) → Except Error (List α)) (x : List α) :
    Except Error (List α) :=
  if cfg.useDynamicBsz then restoreDynamic x batchIdxList else pure x

def outputItem {α : Type} : Option α → Except Error α
  | some x => .ok x
  | none => .error .keyError

/-- `entropys` and `sum_pi_squared`: the tensors of one key, if they are wanted. -/
def outputColumn (cfg : LogProbConfig) (batchIdxList : List (List ℕ)) (wanted : Bool)
    (outputs : List (Option (List R))) : Except Error (Option (List R)) :=
  if wanted then do
    let lst ← outputs.mapM outputItem
    let x ← concat lst
    let x ← restoreRows cfg batchIdxList restoreDynamicBatch x
    pure (some x)
  else pure none

/-- `hidden_states`: those of the micro-batches that have them. -/
def hiddenStatesColumn (cfg : LogProbConfig) (batchIdxList : List (List ℕ))
    (returnHiddenStates : Bool) (hiddenStatesLst : List (List H)) :
    Except Error (Option (List H)) :=
  if returnHiddenStates && !hiddenStatesLst.isEmpty then do
    let x ← concat hiddenStatesLst
    let x ← restoreRows cfg batchIdxList restoreHiddenStates x
    pure (some x)
  else pure none

/-- `compute_log_prob` after the loop over the micro-batches. -/
def joinOutputs (cfg : LogProbConfig) (batchIdxList : List (List ℕ))
    (calculateEntropy returnHiddenStates : Bool) (outputs : List (Outputs R H)) :
    Except Error (Outputs R H) := do
  let logProbs ← concat (outputs.map Outputs.logProbs)
  let logProbs ← restoreRows cfg batchIdxList restoreDynamicBatch logProbs
  let entropys ← outputColumn cfg batchIdxList calculateEntropy (outputs.map Outputs.entropys)
  let sumPiSquared ← outputColumn cfg batchIdxList cfg.calculateSumPiSquared
    (outputs.map Outputs.sumPiSquared)
  let hiddenStates ← hiddenStatesColumn cfg batchIdxList returnHiddenStates
    (outputs.filterMap Outputs.hiddenStates)
  pure { logProbs, entropys, sumPiSquared, hiddenStates }

/-- `DataParallelPPOActor.compute_log_prob`. -/
def computeLogProb (cfg : LogProbConfig) (env : LogProbEnv L R H) (data : TensorDict L n)
    (calculateEntropy returnHiddenStates : Bool) : Except Error (Outputs R H) := do
  let selected ← data.select (logProbKeys cfg data)
  let microBatches := logProbMicroBatches cfg env selected
  let outputs ← microBatches.mapM (fun rows =>
    forwardMicroBatch cfg env (selected.gather rows) calculateEntropy returnHiddenStates)
  joinOutputs cfg (microBatches.map (fun rows => rows.map Fin.val)) calculateEntropy
    returnHiddenStates outputs

/-! ## Both ways of putting back -/

section Restore

variable {α : Type} {batchIdxList : List (List ℕ)}

theorem getReverseIdx_eq {idxMap : List ℕ} (h : idxMap.Perm (List.range idxMap.length)) :
    getReverseIdx idxMap = .ok (places idxMap) := by
  have hrun : ∀ (entries : List (ℕ × ℕ)) (out : List ℕ), (∀ entry ∈ entries,
      entry.1 < out.length) → entries.foldlM
        (fun reverseIdxMap entry => setItem reverseIdxMap entry.1 entry.2) out =
          .ok (Scatter.scatter out entries) := by
    intro entries
    induction entries with
    | nil => exact fun _ _ => rfl
    | cons entry entries ih =>
        intro out hlt
        rw [List.foldlM_cons, setItem, if_pos (hlt entry List.mem_cons_self), ok_bind, ih]
        · rfl
        · intro entry' hentry'
          rw [List.length_set]
          exact hlt entry' (List.mem_cons_of_mem _ hentry')
  rw [getReverseIdx, hrun, scatter_zipIdx h]
  intro entry hentry
  exact lt_of_perm_range h (List.fst_mem_of_mem_zipIdx hentry)

/-- The two ways of the source permute alike: sorting the indices gives the
list that `get_reverse_idx` builds. -/
theorem getReverseIdx_eq_argsort {idxMap : List ℕ}
    (h : idxMap.Perm (List.range idxMap.length)) :
    getReverseIdx idxMap = .ok (argsort idxMap) := by
  rw [getReverseIdx_eq h, argsort_eq_places h]

theorem mapM_getItem_places {order : List ℕ} (h : order.Perm (List.range order.length))
    {xs : List α} (hlen : xs.length = order.length) :
    ∃ ys, (places order).mapM (getItem xs) = .ok ys ∧ Restores order xs ys := by
  have hlt : ∀ i ∈ places order, i < xs.length := by
    intro i hi
    obtain ⟨j, hj, rfl⟩ := List.mem_map.mp hi
    rw [hlen]
    exact List.idxOf_lt_length_iff.mpr (h.mem_iff.mpr hj)
  cases xs with
  | nil =>
      have horder : order = [] := List.length_eq_zero_iff.mp hlen.symm
      subst horder
      exact ⟨[], rfl, rfl, fun _ _ hmem => by cases hmem⟩
  | cons x xs =>
      refine ⟨_, mapM_eq_map (fun i hi => ?_), restores_places h hlen x⟩
      rw [getItem_of_lt (hlt i hi), List.getD_eq_getElem _ _ (hlt i hi)]

theorem restoreDynamicBatch_ok
    (h : batchIdxList.flatten.Perm (List.range batchIdxList.flatten.length)) {data : List α}
    (hlen : data.length = batchIdxList.flatten.length) :
    ∃ ys, restoreDynamicBatch data batchIdxList = .ok ys ∧
      Restores batchIdxList.flatten data ys := by
  obtain ⟨ys, hys, hrestores⟩ := mapM_getItem_places h hlen
  refine ⟨ys, ?_, hrestores⟩
  rw [restoreDynamicBatch, if_pos hlen.symm, getReverseIdx_eq h, ok_bind, hys]

theorem restoreHiddenStates_ok
    (h : batchIdxList.flatten.Perm (List.range batchIdxList.flatten.length)) {data : List α}
    (hlen : data.length = batchIdxList.flatten.length) :
    ∃ ys, restoreHiddenStates data batchIdxList = .ok ys ∧
      Restores batchIdxList.flatten data ys := by
  obtain ⟨ys, hys, hrestores⟩ := mapM_getItem_places h hlen
  refine ⟨ys, ?_, hrestores⟩
  rw [restoreHiddenStates, argsort_eq_places h, hys]

end Restore

/-! ## The micro-batches -/

theorem logProbMicroBatches_perm (cfg : LogProbConfig) (env : LogProbEnv L R H)
    (data : TensorDict L n) :
    (logProbMicroBatches cfg env data).flatten.Perm (List.finRange n) := by
  unfold logProbMicroBatches
  split_ifs with hdynamic
  · exact env.partition_perm _ _
  · rw [Blocks.flatten_pieces (cfg.microBatch_pos (by simpa using hdynamic))]

theorem flatten_batchIdxList (microBatches : List (List (Fin n))) :
    (microBatches.map (fun rows => rows.map Fin.val)).flatten =
      microBatches.flatten.map Fin.val :=
  (List.map_flatten ..).symm

theorem batchIdxList_perm {microBatches : List (List (Fin n))}
    (h : microBatches.flatten.Perm (List.finRange n)) :
    (microBatches.map (fun rows => rows.map Fin.val)).flatten.Perm (List.range n) := by
  rw [flatten_batchIdxList]
  have := h.map Fin.val
  rwa [List.map_coe_finRange_eq_range] at this

/-- `xs` holds, for every row of every micro-batch, the value computed for it,
at the place of its sample. -/
def InSampleOrder {α : Type} (microBatches : List (List (Fin n)))
    (computed : (rows : List (Fin n)) → Fin rows.length → α) (xs : List α) : Prop :=
  xs.length = n ∧ ∀ rows ∈ microBatches, ∀ j : Fin rows.length,
    xs[(rows.get j).val]? = some (computed rows j)

theorem inSampleOrder_of_restores {α : Type} {microBatches : List (List (Fin n))}
    (h : microBatches.flatten.Perm (List.finRange n))
    {computed : (rows : List (Fin n)) → Fin rows.length → α} {ys : List α}
    (hys : Restores (microBatches.map (fun rows => rows.map Fin.val)).flatten
      (microBatches.map (fun rows => List.ofFn (computed rows))).flatten ys) :
    InSampleOrder microBatches computed ys := by
  refine ⟨by rw [hys.1, (batchIdxList_perm h).length_eq, List.length_range], ?_⟩
  intro rows hrows j
  refine hys.2 _ _ ?_
  rw [← List.flatMap_def, ← List.flatMap_def]
  refine mem_zip_flatMap (fun rows _ => by simp) hrows (List.mem_iff_getElem.mpr ⟨j, ?_, ?_⟩)
  · simp
  · simp

theorem length_flatten_rows {α : Type} {microBatches : List (List (Fin n))}
    (computed : (rows : List (Fin n)) → Fin rows.length → α) :
    (microBatches.map (fun rows => List.ofFn (computed rows))).flatten.length =
      (microBatches.map (fun rows => rows.map Fin.val)).flatten.length := by
  rw [List.length_flatten, List.length_flatten, List.map_map, List.map_map]
  congr 1
  exact List.map_congr_left (fun rows _ => by simp)

/-- The restoring step, on the rows of all micro-batches. -/
theorem restoreRows_ok {α : Type} (cfg : LogProbConfig) (env : LogProbEnv L R H)
    (data : TensorDict L n) (computed : (rows : List (Fin n)) → Fin rows.length → α)
    {restoreDynamic : List α → List (List ℕ) → Except Error (List α)}
    (hdynamic : ∀ {lists : List (List ℕ)},
      lists.flatten.Perm (List.range lists.flatten.length) → ∀ {xs : List α},
        xs.length = lists.flatten.length →
          ∃ ys, restoreDynamic xs lists = .ok ys ∧ Restores lists.flatten xs ys)
    {microBatches : List (List (Fin n))}
    (hmicro : logProbMicroBatches cfg env data = microBatches) :
    ∃ ys, restoreRows cfg (microBatches.map (fun rows => rows.map Fin.val)) restoreDynamic
        (microBatches.map (fun rows => List.ofFn (computed rows))).flatten = .ok ys ∧
      InSampleOrder microBatches computed ys := by
  have hperm : microBatches.flatten.Perm (List.finRange n) :=
    hmicro ▸ logProbMicroBatches_perm cfg env data
  have hlen : (microBatches.map (fun rows => List.ofFn (computed rows))).flatten.length =
      (microBatches.map (fun rows => rows.map Fin.val)).flatten.length :=
    length_flatten_rows computed
  have hrange := batchIdxList_perm hperm
  unfold restoreRows
  split_ifs with hcfg
  · have hcount := hrange.length_eq
    rw [List.length_range] at hcount
    obtain ⟨ys, hys, hrestores⟩ := hdynamic (by rw [hcount]; exact hrange) hlen
    exact ⟨ys, hys, inSampleOrder_of_restores hperm hrestores⟩
  · refine ⟨_, rfl, inSampleOrder_of_restores hperm ?_⟩
    -- fixed splits are in sample order already
    have hflat : microBatches.flatten = List.finRange n := by
      rw [← hmicro, logProbMicroBatches, if_neg hcfg]
      exact Blocks.flatten_pieces (cfg.microBatch_pos (by simpa using hcfg)) _
    have hidx : (microBatches.map (fun rows => rows.map Fin.val)).flatten = List.range n := by
      rw [flatten_batchIdxList, hflat, List.map_coe_finRange_eq_range]
    rw [hidx] at hlen ⊢
    rw [List.length_range] at hlen
    exact restores_range hlen

/-! ## The whole computation -/

/-- What `compute_log_prob` gives back is in sample order, column by column. -/
structure RowsInSampleOrder (cfg : LogProbConfig) (env : LogProbEnv L R H)
    (data : TensorDict L n) (out : Outputs R H) : Prop where
  logProbs : InSampleOrder (logProbMicroBatches cfg env data)
    (fun rows => (env.forward (data.gather rows)).logProbs) out.logProbs
  entropys : ∀ xs ∈ out.entropys, InSampleOrder (logProbMicroBatches cfg env data)
    (fun rows => (env.forward (data.gather rows)).entropys) xs
  sumPiSquared : ∀ xs ∈ out.sumPiSquared, InSampleOrder (logProbMicroBatches cfg env data)
    (fun rows => (env.forward (data.gather rows)).sumPiSquared) xs
  hiddenStates : ∀ xs ∈ out.hiddenStates, InSampleOrder (logProbMicroBatches cfg env data)
    (fun rows => (env.forward (data.gather rows)).hiddenStates) xs

section Run

variable {cfg : LogProbConfig} {env : LogProbEnv L R H} {data selected : TensorDict L n}
  {calculateEntropy returnHiddenStates captured : Bool}

theorem forwardMicroBatch_eq_ok {m : ℕ} {microBatch : TensorDict L m} {out : Outputs R H} :
    forwardMicroBatch cfg env microBatch calculateEntropy returnHiddenStates = .ok out ↔
      prefixGrouperPath cfg microBatch = false ∧
        ∃ captured, registerHook cfg returnHiddenStates = .ok captured ∧
          microOutputs cfg (env.forward microBatch) calculateEntropy captured = out := by
  unfold forwardMicroBatch
  cases prefixGrouperPath cfg microBatch with
  | true => simp
  | false => simp [bind_eq_ok]

theorem captured_of_registerHook (h : registerHook cfg returnHiddenStates = .ok true) :
    returnHiddenStates = true := by
  cases returnHiddenStates with
  | true => rfl
  | false => cases h

theorem concat_ok {α : Type} {xs : List (List α)} (h : xs ≠ []) : concat xs = .ok xs.flatten :=
  if_neg h

section Columns

variable {microBatches : List (List (Fin n))} {α : Type}
  {computed : (rows : List (Fin n)) → Fin rows.length → α}

theorem rows_ne_nil (hne : microBatches ≠ []) :
    microBatches.map (fun rows => List.ofFn (computed rows)) ≠ [] := by
  simpa using hne

/-- A column that every micro-batch has is put back; one that is not wanted is
not there. -/
theorem outputColumn_ok (hne : microBatches ≠ []) (wanted : Bool)
    {computed : (rows : List (Fin n)) → Fin rows.length → R} {batchIdxList : List (List ℕ)}
    (hrestore : ∃ ys, restoreRows cfg batchIdxList restoreDynamicBatch
      (microBatches.map (fun rows => List.ofFn (computed rows))).flatten = .ok ys ∧
        InSampleOrder microBatches computed ys) :
    ∃ column, outputColumn cfg batchIdxList wanted (microBatches.map
        (fun rows => if wanted then some (List.ofFn (computed rows)) else none)) = .ok column ∧
      column.isSome = wanted ∧ ∀ ys ∈ column, InSampleOrder microBatches computed ys := by
  cases wanted with
  | false => exact ⟨none, rfl, rfl, fun ys hys => by cases hys⟩
  | true =>
      obtain ⟨ys, hys, horder⟩ := hrestore
      refine ⟨some ys, ?_, rfl, fun ys' hys' => by cases hys'; exact horder⟩
      have hlst : (microBatches.map (fun rows =>
          if true then some (List.ofFn (computed rows)) else none)).mapM outputItem =
          .ok (microBatches.map (fun rows => List.ofFn (computed rows))) := by
        rw [List.mapM_map]
        exact mapM_eq_map (fun rows _ => rfl)
      rw [outputColumn, if_pos rfl, hlst, ok_bind, concat_ok (rows_ne_nil hne), ok_bind, hys]
      rfl

/-- Captured hidden states are put back; without a hook there are none. -/
theorem hiddenStatesColumn_ok (hne : microBatches ≠ [])
    (hhook : registerHook cfg returnHiddenStates = .ok captured)
    {computed : (rows : List (Fin n)) → Fin rows.length → H} {batchIdxList : List (List ℕ)}
    (hrestore : ∃ ys, restoreRows cfg batchIdxList restoreHiddenStates
      (microBatches.map (fun rows => List.ofFn (computed rows))).flatten = .ok ys ∧
        InSampleOrder microBatches computed ys) :
    ∃ column, hiddenStatesColumn cfg batchIdxList returnHiddenStates (microBatches.filterMap
        (fun rows => if captured then some (List.ofFn (computed rows)) else none)) = .ok column ∧
      column.isSome = captured ∧ ∀ ys ∈ column, InSampleOrder microBatches computed ys := by
  cases captured with
  | false =>
      refine ⟨none, ?_, rfl, fun ys hys => by cases hys⟩
      have hnil : microBatches.filterMap (fun rows =>
          if false then some (List.ofFn (computed rows)) else none) = [] := by
        simp
      rw [hnil, hiddenStatesColumn, List.isEmpty_nil, Bool.not_true, Bool.and_false]
      rfl
  | true =>
      obtain ⟨ys, hys, horder⟩ := hrestore
      refine ⟨some ys, ?_, rfl, fun ys' hys' => by cases hys'; exact horder⟩
      have hlst : microBatches.filterMap (fun rows =>
          if true then some (List.ofFn (computed rows)) else none) =
          microBatches.map (fun rows => List.ofFn (computed rows)) := by
        exact congrFun List.filterMap_eq_map' microBatches
      have hsome : (microBatches.map (fun rows => List.ofFn (computed rows))).isEmpty = false := by
        simpa using hne
      rw [hlst, hiddenStatesColumn, captured_of_registerHook hhook, hsome]
      show (concat _ >>= _) = _
      rw [concat_ok (rows_ne_nil hne), ok_bind, hys]
      rfl

end Columns

/-- A call with at least one micro-batch returns: with the columns present, off
the prefix-grouper path and the layer found. -/
theorem computeLogProb_ok (hselect : data.select (logProbKeys cfg data) = .ok selected)
    (hne : logProbMicroBatches cfg env selected ≠ [])
    (hpath : ∀ rows ∈ logProbMicroBatches cfg env selected,
      prefixGrouperPath cfg (selected.gather rows) = false)
    (hhook : registerHook cfg returnHiddenStates = .ok captured) :
    ∃ out, computeLogProb cfg env data calculateEntropy returnHiddenStates = .ok out ∧
      RowsInSampleOrder cfg env selected out ∧ out.entropys.isSome = calculateEntropy ∧
      out.hiddenStates.isSome = captured := by
  have hrestore := fun computed : (rows : List (Fin n)) → Fin rows.length → R =>
    restoreRows_ok cfg env selected computed restoreDynamicBatch_ok rfl
  have hrestoreHidden := restoreRows_ok cfg env selected
    (fun rows => (env.forward (selected.gather rows)).hiddenStates) restoreHiddenStates_ok rfl
  obtain ⟨logProbs, hlogProbs, hlogOrder⟩ := hrestore
    (fun rows => (env.forward (selected.gather rows)).logProbs)
  obtain ⟨entropys, hentropys, hentSome, hentOrder⟩ := outputColumn_ok hne calculateEntropy
    (hrestore (fun rows => (env.forward (selected.gather rows)).entropys))
  obtain ⟨sumPiSquared, hsum, -, hsumOrder⟩ := outputColumn_ok hne cfg.calculateSumPiSquared
    (hrestore (fun rows => (env.forward (selected.gather rows)).sumPiSquared))
  obtain ⟨hiddenStates, hhidden, hhiddenSome, hhiddenOrder⟩ :=
    hiddenStatesColumn_ok hne hhook hrestoreHidden
  refine ⟨{ logProbs, entropys, sumPiSquared, hiddenStates }, ?_,
    ⟨hlogOrder, hentOrder, hsumOrder, hhiddenOrder⟩, hentSome, hhiddenSome⟩
  let outputs := fun rows =>
    microOutputs cfg (env.forward (selected.gather rows)) calculateEntropy captured
  have houtputs : (logProbMicroBatches cfg env selected).mapM (fun rows =>
      forwardMicroBatch cfg env (selected.gather rows) calculateEntropy returnHiddenStates) =
        .ok ((logProbMicroBatches cfg env selected).map outputs) :=
    mapM_eq_map (fun rows hrows =>
      forwardMicroBatch_eq_ok.mpr ⟨hpath rows hrows, captured, hhook, rfl⟩)
  have hlogCol : Outputs.logProbs ∘ outputs = fun rows =>
    List.ofFn (env.forward (selected.gather rows)).logProbs := rfl
  have hentCol : Outputs.entropys ∘ outputs = fun rows =>
    if calculateEntropy then some (List.ofFn (env.forward (selected.gather rows)).entropys)
    else none := rfl
  have hsumCol : Outputs.sumPiSquared ∘ outputs = fun rows =>
    if cfg.calculateSumPiSquared then
      some (List.ofFn (env.forward (selected.gather rows)).sumPiSquared) else none := rfl
  have hhiddenCol : Outputs.hiddenStates ∘ outputs = fun rows =>
    if captured then some (List.ofFn (env.forward (selected.gather rows)).hiddenStates)
    else none := rfl
  simp only [computeLogProb, hselect, ok_bind, houtputs, joinOutputs, List.map_map,
    List.filterMap_map, hlogCol, hentCol, hsumCol, hhiddenCol, concat_ok (rows_ne_nil hne),
    hlogProbs, hentropys, hsum, hhidden, pure_eq_ok]

theorem computeLogProb_returns {out : Outputs R H}
    (h : computeLogProb cfg env data calculateEntropy returnHiddenStates = .ok out) :
    ∃ selected captured, data.select (logProbKeys cfg data) = .ok selected ∧
      logProbMicroBatches cfg env selected ≠ [] ∧
      (∀ rows ∈ logProbMicroBatches cfg env selected,
        prefixGrouperPath cfg (selected.gather rows) = false) ∧
      registerHook cfg returnHiddenStates = .ok captured := by
  obtain ⟨selected, hselect, h⟩ := bind_eq_ok.mp h
  obtain ⟨outputs, houtputs, h⟩ := bind_eq_ok.mp h
  obtain ⟨logProbs, hconcat, h⟩ := bind_eq_ok.mp h
  have hrun := fun rows hrows => mapM_returns_iff.mp ⟨outputs, houtputs⟩ rows hrows
  have hne : logProbMicroBatches cfg env selected ≠ [] := by
    intro hnil
    rw [hnil] at houtputs
    cases houtputs
    cases hconcat
  obtain ⟨rows, hrows⟩ := List.exists_mem_of_ne_nil _ hne
  obtain ⟨out', hout'⟩ := hrun rows hrows
  obtain ⟨-, captured, hhook, -⟩ := forwardMicroBatch_eq_ok.mp hout'
  refine ⟨selected, captured, hselect, hne, fun rows hrows => ?_, hhook⟩
  obtain ⟨out', hout'⟩ := hrun rows hrows
  exact (forwardMicroBatch_eq_ok.mp hout').1

end Run

/-- Every tensor that `compute_log_prob` returns is in sample order, however the
batch is cut; the call returns unless something it needs is missing; and the two
ways of restoring apply the same permutation. -/
theorem computeLogProb_inSampleOrder (cfg : LogProbConfig) (env : LogProbEnv L R H)
    (data : TensorDict L n) (calculateEntropy returnHiddenStates : Bool) :
    (∀ selected, (logProbMicroBatches cfg env selected).flatten.Perm (List.finRange n)) ∧
    (∀ out, computeLogProb cfg env data calculateEntropy returnHiddenStates = .ok out →
      ∃ selected, data.select (logProbKeys cfg data) = .ok selected ∧
        RowsInSampleOrder cfg env selected out) ∧
    (∀ selected captured, data.select (logProbKeys cfg data) = .ok selected →
      logProbMicroBatches cfg env selected ≠ [] →
      (∀ rows ∈ logProbMicroBatches cfg env selected,
        prefixGrouperPath cfg (selected.gather rows) = false) →
      registerHook cfg returnHiddenStates = .ok captured →
        ∃ out, computeLogProb cfg env data calculateEntropy returnHiddenStates = .ok out ∧
          out.entropys.isSome = calculateEntropy ∧ out.hiddenStates.isSome = captured) ∧
    (∀ batchIdxList : List (List ℕ), batchIdxList.flatten.Perm (List.range n) →
      getReverseIdx batchIdxList.flatten = .ok (argsort batchIdxList.flatten)) := by
  refine ⟨fun selected => logProbMicroBatches_perm cfg env selected, ?_, ?_, ?_⟩
  · intro out hout
    obtain ⟨selected, captured, hselect, hne, hpath, hhook⟩ := computeLogProb_returns hout
    obtain ⟨out', hout', hrows, -⟩ := computeLogProb_ok hselect hne hpath hhook
    obtain rfl : out' = out := Except.ok.inj (hout'.symm.trans hout)
    exact ⟨selected, hselect, hrows⟩
  · intro selected captured hselect hne hpath hhook
    obtain ⟨out, hout, -, hpresent⟩ := computeLogProb_ok hselect hne hpath hhook
    exact ⟨out, hout, hpresent⟩
  · intro batchIdxList hperm
    refine getReverseIdx_eq_argsort ?_
    have hcount := hperm.length_eq
    rw [List.length_range] at hcount
    rw [hcount]
    exact hperm

/-! ## Three samples in the order 1, 2, 0 -/

/-- One dynamic micro-batch, with a layer to hook. -/
def rotatedConfig : LogProbConfig where
  microBatchSize := 1
  useDynamicBsz := true
  maxTokenLen := 8
  hiddenStatesLayerIdx := 1
  hasUid := false
  ulyssesSequenceParallelSize := 1
  usePrefixGrouper := false
  useRemovePadding := true
  useFusedKernels := false
  actorUseDynamicBsz := true
  calculateSumPiSquared := false
  layers := some 2
  hasNorm := true
  microBatch_pos := fun h => by cases h
  sumPiSquared_supported := fun h => by cases h

theorem rotated_perm (m : ℕ) : [(List.finRange m).rotate 1].flatten.Perm (List.finRange m) := by
  rw [List.flatten_singleton]
  exact List.rotate_perm _ _

/-- The model shows the position ids; the index list is rotated by one. -/
def rotatedEnv : LogProbEnv 1 (List ℕ) (List ℕ) where
  forward microBatch :=
    let shown := fun j => ((microBatch.column .positionIds).map (fun col => col j)).getD []
    { logProbs := shown, entropys := shown, sumPiSquared := shown, hiddenStates := shown }
  partition {m} _ _ := [(List.finRange m).rotate 1]
  partition_perm {m} _ _ := rotated_perm m

/-- Sample `i` has the position ids `[i]`. -/
def threeSamples : TensorDict 1 3 where
  column
    | .responses => some (fun _ _ => 0)
    | .inputIds => some (fun _ => [7])
    | .attentionMask => some (fun _ => [1])
    | .positionIds => some (fun i => [i.val])
    | _ => none

/-- The rotation is not its own inverse, and every row is back at its sample. -/
theorem computeLogProb_inSampleOrder_three :
    ∃ out, computeLogProb rotatedConfig rotatedEnv threeSamples false true = .ok out ∧
      out.hiddenStates = some [[0], [1], [2]] ∧ out.logProbs = [[0], [1], [2]] ∧
      ∃ selected, threeSamples.select (logProbKeys rotatedConfig threeSamples) = .ok selected ∧
        RowsInSampleOrder rotatedConfig rotatedEnv selected out := by
  have hrun : computeLogProb rotatedConfig rotatedEnv threeSamples false true =
      .ok ⟨[[0], [1], [2]], none, none, some [[0], [1], [2]]⟩ := by
    decide +kernel
  refine ⟨_, hrun, rfl, rfl, ?_⟩
  exact (computeLogProb_inSampleOrder rotatedConfig rotatedEnv threeSamples false true).2.1 _ hrun

end RLCM.Actor
