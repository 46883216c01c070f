/-
# `RLCM.Balancing.BalanceBatch` — reordering a batch for the ranks

`_balance_batch` of the trainer: the rows are shared out among the data-parallel
ranks by workload and the batch is reordered so that the rows of a rank stand
together; `chunk` then hands every rank its own (`chunk_gather_flatten`).

Three ways to share out: all rows at once, mini-batch by mini-batch, and in whole
groups of one `uid` (`get_group_balanced_partitions`).  What they have in common
is said of the list of partitions, `global_partition_lst`.
-/
import RLCM.Balancing.MicroBatches
import RLCM.Protocol.Dispatch

namespace RLCM.Balancing

open Py Differencing Protocol

variable {α Uid : Type} [DecidableEq Uid]

/-! ## Groups of one uid -/

/-- What the loop over the samples keeps. -/
structure GroupScan (Uid : Type) where
  groups : List (List ℕ × ℕ)
  currentUid : Option Uid
  currentIndices : List ℕ
  currentSeqlen : ℕ

/-- `if current_indices: groups.append((current_indices, current_seqlen))`. -/
def GroupScan.flush (scan : GroupScan Uid) : List (List ℕ × ℕ) :=
  if scan.currentIndices = [] then scan.groups
  else scan.groups ++ [(scan.currentIndices, scan.currentSeqlen)]

/-- The body of the loop. -/
def GroupScan.step (scan : GroupScan Uid) (entry : (ℕ × Uid) × ℕ) : GroupScan Uid :=
  if some entry.1.2 ≠ scan.currentUid then
    { groups := scan.flush
      currentUid := some entry.1.2
      currentIndices := [entry.2]
      currentSeqlen := entry.1.1 }
  else
    { scan with
      currentIndices := scan.currentIndices ++ [entry.2]
      currentSeqlen := scan.currentSeqlen + entry.1.1 }

def uidGroups (seqlenList : List ℕ) (uidList : List Uid) : List (List ℕ × ℕ) :=
  ((seqlenList.zip uidList).zipIdx.foldl GroupScan.step ⟨[], none, [], 0⟩).flush

def groupWorkload (seqlenList : List ℕ) (indices : List ℕ) : ℕ :=
  (indices.map (fun i => calculateWorkload (seqlenList.getD i 0))).sum

def getGroupBalancedPartitions (seqlenList : List ℕ) (uidList : List Uid) (k : ℕ) :
    Except Error (List (List ℕ)) :=
  if seqlenList.length ≠ uidList.length then .error .assertionError
  else
    let groups := uidGroups seqlenList uidList
    if groups.length < k then .error .assertionError
    else do
      let groupWorkloads := groups.map (fun group => groupWorkload seqlenList group.1)
      let groupPartitions ← getSeqlenBalancedPartitions groupWorkloads k true
      groupPartitions.mapM (fun groupPartition => do
        let sampleIndices ← groupPartition.mapM (getItem groups)
        pure ((sampleIndices.flatMap Prod.fst).insertionSort (· ≤ ·)))

/-! ## `_balance_batch` -/

/-- What the trainer is set to.  The ranks are those of the dispatch mapping. -/
structure BalanceConfig where
  dpRankMapping : List ℕ
  usePrefixGrouper : Bool
  keepMinibatch : Bool
  ppoMiniBatchSize : ℕ

/-- The partitions of mini-batch `i`, appended to those of the ranks. -/
def extendPartitions (workloads : List ℕ) (dpSize minibatchSize : ℕ)
    (globalPartitionLst : List (List ℕ)) (i : ℕ) : Except Error (List (List ℕ)) := do
  let parts ← getSeqlenBalancedPartitions
    (Blocks.slice workloads (i * minibatchSize) ((i + 1) * minibatchSize)) dpSize true
  pure (List.zipWith (fun rank part => rank ++ part.map (· + minibatchSize * i))
    globalPartitionLst parts)

/-- The partitions before they are ordered. -/
def globalPartitions (cfg : BalanceConfig) (seqlens : List ℕ) (uids : Option (List Uid))
    (dpSize : ℕ) : Except Error (List (List ℕ)) :=
  let workloads := seqlens.map calculateWorkload
  match cfg.usePrefixGrouper, uids with
  | true, some uids =>
      let numGroups := uids.dedup.length
      if numGroups % dpSize ≠ 0 then
        .error (.valueError (s!"PrefixGrouper with balance_batch requires num_uid_groups " ++
          s!"({numGroups}) % dp_size ({dpSize}) == 0. " ++
          "This ensures each rank gets equal number of groups. " ++
          s!"Current batch_size={seqlens.length}, adjust batch_size to be a multiple of " ++
          "dp_size * rollout.n."))
      else getGroupBalancedPartitions seqlens uids dpSize
  | _, _ =>
      if cfg.keepMinibatch then
        if cfg.ppoMiniBatchSize = 0 then .error .zeroDivisionError
        else (List.range (workloads.length / cfg.ppoMiniBatchSize)).foldlM
          (extendPartitions workloads dpSize cfg.ppoMiniBatchSize) (List.replicate dpSize [])
      else getSeqlenBalancedPartitions workloads dpSize true

def orderPartition (workloads : List ℕ) (partition : List ℕ) : List ℕ :=
  let sorted := partition.insertionSort
    (fun x y => toLex (workloads.getD x 0, x) ≤ toLex (workloads.getD y 0, y))
  everyOther sorted ++ (everyOther sorted.tail).reverse

/-- The entries of `log_seqlen_unbalance`. -/
structure SeqlenStats where
  min : ℕ
  max : ℕ
  minmaxDiff : ℕ
  balancedMin : ℕ
  balancedMax : ℕ
  mean : ℚ
deriving DecidableEq

def minItem (xs : List ℕ) : Except Error ℕ :=
  match xs.min? with
  | some x => .ok x
  | none => .error (.valueError "min() arg is an empty sequence")

def logSeqlenUnbalance (seqlenList : List ℕ) (partitions : List (List ℕ)) :
    Except Error SeqlenStats :=
  if partitions.length = 0 then .error .zeroDivisionError
  else
    let batchSize := seqlenList.length / partitions.length
    if batchSize = 0 then .error (.valueError "range() arg 3 must not be zero")
    else do
      let sums := (Blocks.pieces batchSize seqlenList).map List.sum
      let minSum ← minItem sums
      let maxSum ← maxItem sums
      let balanced ← partitions.mapM (fun partition => do
        let lens ← partition.mapM (getItem seqlenList)
        pure lens.sum)
      let balancedMin ← minItem balanced
      let balancedMax ← maxItem balanced
      pure
        { min := minSum, max := maxSum, minmaxDiff := maxSum - minSum
          balancedMin, balancedMax, mean := sums.sum / partitions.length }

/-- `batch.reorder(global_idx)`.  Without an index `torch.tensor` gives floating
point numbers, which do not index. -/
def reorder (rows : List α) (globalIdx : List ℕ) : Except Error (List α) :=
  if globalIdx = [] then .error .indexError else indexSelect rows globalIdx

/-- `_balance_batch` on the rows of a batch: the reordered rows, the partitions
they come from, and the metrics. -/
def balanceBatch (cfg : BalanceConfig) (rows : List α) (seqlens : List ℕ)
    (uids : Option (List Uid)) : Except Error (List α × List (List ℕ) × SeqlenStats) := do
  let dpSize ← getDpSize cfg.dpRankMapping
  let parts ← globalPartitions cfg seqlens uids dpSize
  let parts := if cfg.usePrefixGrouper then parts
    else parts.map (orderPartition (seqlens.map calculateWorkload))
  let reordered ← reorder rows parts.flatten
  let stats ← logSeqlenUnbalance seqlens parts
  pure (reordered, parts, stats)

/-! ## The order within a rank -/

section Order

variable {workloads : List ℕ}

theorem orderPartition_perm (workloads partition : List ℕ) :
    (orderPartition workloads partition).Perm partition := by
  refine List.Perm.trans ?_ (List.perm_insertionSort
    (fun x y => toLex (workloads.getD x 0, x) ≤ toLex (workloads.getD y 0, y)) partition)
  exact ((List.reverse_perm _).append_left _).trans (everyOther_perm _)

theorem orderPartition_lightEnds (workloads partition : List ℕ) :
    LightEnds ((orderPartition workloads partition).map (fun x => workloads.getD x 0)) := by
  let key : ℕ → ℕ ×ₗ ℕ := fun x => toLex (workloads.getD x 0, x)
  have : Std.Total (fun x y => key x ≤ key y) := ⟨fun x y => le_total _ _⟩
  have : IsTrans ℕ (fun x y => key x ≤ key y) := ⟨fun _ _ _ => le_trans⟩
  have hsorted : (partition.insertionSort (fun x y => key x ≤ key y)).Pairwise
      (fun x y => workloads.getD x 0 ≤ workloads.getD y 0) :=
    (List.pairwise_insertionSort (fun x y => key x ≤ key y) partition).imp (fun hkey =>
      (Prod.Lex.toLex_le_toLex.mp hkey).elim le_of_lt (fun h => h.1.le))
  refine ⟨_, _, List.map_append, ?_, ?_⟩
  · exact List.pairwise_map.mpr (hsorted.sublist (everyOther_sublist _))
  · rw [List.map_reverse, List.pairwise_reverse]
    exact List.pairwise_map.mpr
      (hsorted.sublist ((everyOther_sublist _).trans (List.tail_sublist _)))

end Order

/-! ## Chunks -/

section Chunk

variable {rows : List α} {parts : List (List ℕ)} {c : ℕ}

/-- Rows that were picked part by part, all parts of one size, come apart again
where they were put together. -/
theorem chunk_gather_flatten (rows : List α) (hne : parts ≠ []) (hlen : ∀ p ∈ parts, p.length = c)
    (hidx : ∀ p ∈ parts, ∀ i ∈ p, i < rows.length) :
    chunk parts.length (gather rows parts.flatten) = .ok (parts.map (gather rows)) := by
  have hpos : 0 < parts.length := List.length_pos_iff.mpr hne
  have hblocks : ∀ block ∈ parts.map (gather rows), block.length = c := by
    intro block hblock
    obtain ⟨p, hp, rfl⟩ := List.mem_map.mp hblock
    rw [length_gather (hidx p hp), hlen p hp]
  have htotal : (gather rows parts.flatten).length = parts.length * c := by
    rw [gather_flatten, List.length_flatten, List.map_congr_left hblocks, List.map_const',
      List.sum_replicate_nat, List.length_map]
  have hsize : parts.length * c / parts.length = c := Nat.mul_div_cancel_left c hpos
  rw [chunk, if_neg hpos.ne', htotal, if_neg (not_not.mpr (Nat.mul_mod_right _ c)), hsize,
    gather_flatten]
  congr 1
  refine List.ext_getElem (by simp) (fun i hi _ => ?_)
  rw [List.getElem_map, List.getElem_range]
  exact Blocks.slice_flatten hblocks (by simpa using hi)

theorem gather_range (rows : List α) : gather rows (List.range rows.length) = rows := by
  induction rows using List.reverseRecOn with
  | nil => rfl
  | append_singleton rows x ih =>
      have hfront : ∀ i ∈ List.range rows.length, (rows ++ [x])[i]? = rows[i]? :=
        fun i hi => List.getElem?_append_left (List.mem_range.mp hi)
      rw [gather] at ih ⊢
      rw [List.length_append, List.length_singleton, List.range_succ, List.filterMap_append,
        List.filterMap_congr hfront, ih]
      simp

theorem gather_perm {order : List ℕ} (h : order.Perm (List.range rows.length)) :
    (gather rows order).Perm rows :=
  (h.filterMap _).trans (List.Perm.of_eq (gather_range rows))

end Chunk

/-! ## The metrics -/

section Stats

variable {seqlens : List ℕ} {parts : List (List ℕ)}

theorem minItem_ok {xs : List ℕ} (hne : xs ≠ []) : ∃ m, minItem xs = .ok m := by
  cases h : xs.min? with
  | none => exact absurd (List.min?_eq_none_iff.mp h) hne
  | some m => exact ⟨m, by rw [minItem, h]⟩

/-- The metrics are there as soon as every rank can have a row. -/
theorem logSeqlenUnbalance_ok (hparts : parts ≠ []) (hle : parts.length ≤ seqlens.length)
    (hidx : ∀ p ∈ parts, ∀ i ∈ p, i < seqlens.length) :
    ∃ stats, logSeqlenUnbalance seqlens parts = .ok stats := by
  have hpos : 0 < parts.length := List.length_pos_iff.mpr hparts
  have hsize : 0 < seqlens.length / parts.length := Nat.div_pos hle hpos
  have hseqlens : seqlens ≠ [] := List.length_pos_iff.mp (hpos.trans_le hle)
  have hsums : (Blocks.pieces (seqlens.length / parts.length) seqlens).map List.sum ≠ [] :=
    fun h => Blocks.pieces_ne_nil hseqlens hsize (List.map_eq_nil_iff.mp h)
  have hbalanced : parts.mapM (fun partition => do
      let lens ← partition.mapM (getItem seqlens)
      (pure lens.sum : Except Error ℕ)) = .ok (parts.map (fun p => (gather seqlens p).sum)) := by
    refine mapM_eq_map (fun p hp => ?_)
    have hp := indexSelect_ok _ (hidx p hp)
    rw [indexSelect] at hp
    rw [hp]
    rfl
  obtain ⟨minSum, hmin⟩ := minItem_ok hsums
  obtain ⟨maxSum, hmax, -⟩ := maxItem_ok hsums
  have hne : parts.map (fun p => (gather seqlens p).sum) ≠ [] := by
    simpa using hparts
  obtain ⟨balancedMin, hbmin⟩ := minItem_ok hne
  obtain ⟨balancedMax, hbmax, -⟩ := maxItem_ok hne
  rw [logSeqlenUnbalance, if_neg hpos.ne']
  simp only [if_neg hsize.ne', hmin, hmax, hbalanced, hbmin, hbmax, ok_bind]
  exact ⟨_, rfl⟩

end Stats

/-! ## The batch -/

section Batch

variable {cfg : BalanceConfig} {rows : List α} {seqlens : List ℕ} {uids : Option (List Uid)}
  {dpSize : ℕ}

/-- The partitions as the ranks get them. -/
def orderedPartitions (cfg : BalanceConfig) (seqlens : List ℕ) (parts : List (List ℕ)) :
    List (List ℕ) :=
  if cfg.usePrefixGrouper then parts
  else parts.map (orderPartition (seqlens.map calculateWorkload))

theorem orderedPartitions_perm (cfg : BalanceConfig) (seqlens : List ℕ) (parts : List (List ℕ)) :
    List.Forall₂ List.Perm (orderedPartitions cfg seqlens parts) parts := by
  unfold orderedPartitions
  split
  case isTrue => exact List.forall₂_same.mpr (fun p _ => List.Perm.refl p)
  case isFalse =>
    rw [List.forall₂_map_left_iff]
    exact List.forall₂_same.mpr (fun p _ => orderPartition_perm _ p)

theorem flatten_orderedPartitions (cfg : BalanceConfig) (seqlens : List ℕ)
    (parts : List (List ℕ)) :
    (orderedPartitions cfg seqlens parts).flatten.Perm parts.flatten :=
  List.Perm.flatten_congr (orderedPartitions_perm cfg seqlens parts)

theorem map_load_orderedPartitions (cfg : BalanceConfig) (seqlens : List ℕ)
    (parts : List (List ℕ)) (workloads : List ℕ) :
    (orderedPartitions cfg seqlens parts).map (load workloads) = parts.map (load workloads) := by
  unfold orderedPartitions
  split
  case isTrue => rfl
  case isFalse =>
    rw [List.map_map]
    exact List.map_congr_left (fun p _ => ((orderPartition_perm _ p).map _).sum_eq)

theorem length_of_orderedPartitions {parts : List (List ℕ)} {c : ℕ}
    (h : ∀ p ∈ parts, p.length = c) :
    ∀ p ∈ orderedPartitions cfg seqlens parts, p.length = c := by
  intro p hp
  unfold orderedPartitions at hp
  split at hp
  case isTrue => exact h p hp
  case isFalse =>
    obtain ⟨q, hq, rfl⟩ := List.mem_map.mp hp
    rw [(orderPartition_perm _ q).length_eq, h q hq]

variable (rows) in
theorem balanceBatch_of_parts (hdp : getDpSize cfg.dpRankMapping = .ok dpSize)
    {parts : List (List ℕ)} (hparts : globalPartitions cfg seqlens uids dpSize = .ok parts)
    (hne : parts ≠ []) (hrows : parts.flatten ≠ []) (hle : parts.length ≤ seqlens.length)
    (hidx : ∀ i ∈ parts.flatten, i < rows.length) (hlen : rows.length = seqlens.length) :
    ∃ stats, balanceBatch cfg rows seqlens uids =
      .ok (gather rows (orderedPartitions cfg seqlens parts).flatten,
        orderedPartitions cfg seqlens parts, stats) := by
  have hperm := flatten_orderedPartitions cfg seqlens parts
  have hcount : (orderedPartitions cfg seqlens parts).length = parts.length :=
    (orderedPartitions_perm cfg seqlens parts).length_eq
  have hidx' : ∀ i ∈ (orderedPartitions cfg seqlens parts).flatten, i < rows.length :=
    fun i hi => hidx i (hperm.mem_iff.mp hi)
  have hne' : orderedPartitions cfg seqlens parts ≠ [] := by
    rw [← List.length_pos_iff, hcount]
    exact List.length_pos_iff.mpr hne
  have hrows' : (orderedPartitions cfg seqlens parts).flatten ≠ [] :=
    fun h => hrows (List.nil_perm.mp (h ▸ hperm))
  obtain ⟨stats, hstats⟩ := logSeqlenUnbalance_ok hne' (hcount ▸ hle)
    (fun p hp i hi => hlen ▸ hidx' i (List.mem_flatten_of_mem hp hi))
  refine ⟨stats, ?_⟩
  rw [balanceBatch, hdp, ok_bind, hparts, ok_bind]
  show (reorder rows (orderedPartitions cfg seqlens parts).flatten >>= _) = _
  rw [reorder, if_neg hrows', indexSelect_ok rows hidx', ok_bind]
  show (logSeqlenUnbalance seqlens (orderedPartitions cfg seqlens parts) >>= _) = _
  rw [hstats]
  rfl

/-! ### All rows at once -/

section AllRows

variable (hgrouper : cfg.usePrefixGrouper = false) (hkeep : cfg.keepMinibatch = false)
  (hdp : getDpSize cfg.dpRankMapping = .ok dpSize) (hlen : rows.length = seqlens.length)

include hgrouper hkeep

theorem globalPartitions_default : globalPartitions cfg seqlens uids dpSize =
    getSeqlenBalancedPartitions (seqlens.map calculateWorkload) dpSize true := by
  unfold globalPartitions
  rw [hgrouper, hkeep]
  rfl

include hdp hlen

variable (uids) in
/-- What a call does whose partitions are there. -/
theorem balanceBatch_default {parts0 : List (List ℕ)}
    (hparts : getSeqlenBalancedPartitions (seqlens.map calculateWorkload) dpSize true =
      .ok parts0) :
    IsPartition rows.length dpSize parts0 ∧ ∃ stats, balanceBatch cfg rows seqlens uids =
      .ok (gather rows (orderedPartitions cfg seqlens parts0).flatten,
        orderedPartitions cfg seqlens parts0, stats) := by
  have hworkloads : (seqlens.map calculateWorkload).length = rows.length := by
    rw [List.length_map, hlen]
  have hpos := getDpSize_pos hdp
  have hpart := hworkloads ▸ isPartition_of_ok hparts
  have hne : parts0 ≠ [] := List.length_pos_iff.mp (hpart.length_eq.symm ▸ hpos)
  have hle : dpSize ≤ rows.length := hworkloads ▸ (conditions_of_ok hparts).2.1
  refine ⟨hpart, balanceBatch_of_parts rows hdp
    ((globalPartitions_default hgrouper hkeep).trans hparts) hne ?_ ?_ ?_ hlen⟩
  · intro hnil
    have hcount := hpart.flatten_perm.length_eq
    rw [hnil, List.length_nil, List.length_range] at hcount
    omega
  · rw [hpart.length_eq, ← hlen]
    exact hle
  · exact fun i hi => List.mem_range.mp (hpart.flatten_perm.mem_iff.mp hi)

/-- A call that returns did that. -/
theorem exists_partitions_of_ok {reordered : List α} {parts : List (List ℕ)} {stats : SeqlenStats}
    (h : balanceBatch cfg rows seqlens uids = .ok (reordered, parts, stats)) :
    ∃ parts0, getSeqlenBalancedPartitions (seqlens.map calculateWorkload) dpSize true =
        .ok parts0 ∧ IsPartition rows.length dpSize parts0 ∧
      parts = orderedPartitions cfg seqlens parts0 ∧ reordered = gather rows parts.flatten := by
  have hcall := h
  rw [balanceBatch, hdp, ok_bind, globalPartitions_default hgrouper hkeep] at hcall
  obtain ⟨parts0, hparts, -⟩ := bind_eq_ok.mp hcall
  obtain ⟨hpart, stats', hout⟩ := balanceBatch_default uids hgrouper hkeep hdp hlen hparts
  rw [hout] at h
  cases h
  exact ⟨parts0, hparts, hpart, rfl, rfl⟩

/-- Without prefix sharing and with no mini-batches to keep, the call returns
exactly when the ranks share the rows evenly.  The batch it leaves has the rows
it had; `chunk` then gives every rank the rows of its partition, the ranks'
workloads differ by no more than two rows can, and a rank's light rows come first
and last. -/
theorem balanceBatch_spec :
    ((∃ out, balanceBatch cfg rows seqlens uids = .ok out) ↔
      dpSize ≤ rows.length ∧ dpSize ∣ rows.length) ∧
    ∀ reordered parts stats,
      balanceBatch cfg rows seqlens uids = .ok (reordered, parts, stats) →
      reordered.Perm rows ∧ chunk dpSize reordered = .ok (parts.map (gather rows)) ∧
      parts.flatten.Perm (List.range rows.length) ∧
      (∀ p ∈ parts, ∀ q ∈ parts, load (seqlens.map calculateWorkload) p ≤
        load (seqlens.map calculateWorkload) q + gap (seqlens.map calculateWorkload) true) ∧
      ∀ p ∈ parts, LightEnds (p.map (fun i => (seqlens.map calculateWorkload).getD i 0)) := by
  have hworkloads : (seqlens.map calculateWorkload).length = rows.length := by
    rw [List.length_map, hlen]
  have hpos := getDpSize_pos hdp
  constructor
  · constructor
    · rintro ⟨⟨reordered, parts, stats⟩, h⟩
      obtain ⟨parts0, hparts, -⟩ := exists_partitions_of_ok hgrouper hkeep hdp hlen h
      obtain ⟨-, hle, hdvd⟩ := conditions_of_ok hparts
      rw [hworkloads] at hle hdvd
      exact ⟨hle, hdvd rfl⟩
    · rintro ⟨hle, hdvd⟩
      obtain ⟨parts0, hparts⟩ := exists_of_conditions
        (seqlens.map calculateWorkload) true hpos
        (hworkloads ▸ hle) (fun _ => hworkloads ▸ hdvd)
      obtain ⟨-, stats, hout⟩ := balanceBatch_default uids hgrouper hkeep hdp hlen hparts
      exact ⟨_, hout⟩
  · intro reordered parts stats h
    obtain ⟨parts0, hparts, hpart, rfl, rfl⟩ :=
      exists_partitions_of_ok hgrouper hkeep hdp hlen h
    have hflat := (flatten_orderedPartitions cfg seqlens parts0).trans hpart.flatten_perm
    have hcount : (orderedPartitions cfg seqlens parts0).length = dpSize :=
      (orderedPartitions_perm cfg seqlens parts0).length_eq.trans hpart.length_eq
    have hsizes : ∀ p ∈ parts0, p.length = rows.length / dpSize := by
      intro p hp
      rw [← hworkloads, ← length_mul_of_ok hparts hp, Nat.mul_div_cancel _ hpos]
    have hchunk := chunk_gather_flatten rows
      (List.length_pos_iff.mp (hcount.symm ▸ hpos)) (length_of_orderedPartitions hsizes)
      (fun p hp i hi => List.mem_range.mp (hflat.mem_iff.mp (List.mem_flatten_of_mem hp hi)))
    rw [hcount] at hchunk
    refine ⟨gather_perm hflat, hchunk, hflat, fun p hp q hq => ?_, fun p hp => ?_⟩
    · have hwithin := within_of_ok hparts
      rw [← map_load_orderedPartitions cfg seqlens parts0] at hwithin
      exact hwithin _ (List.mem_map.mpr ⟨p, hp, rfl⟩) _ (List.mem_map.mpr ⟨q, hq, rfl⟩)
    · rw [orderedPartitions, if_neg (by rw [hgrouper]; exact Bool.false_ne_true)] at hp
      obtain ⟨q, _, rfl⟩ := List.mem_map.mp hp
      exact orderPartition_lightEnds _ q

end AllRows

def twoRanks (usePrefixGrouper keepMinibatch : Bool) : BalanceConfig where
  dpRankMapping := [0, 0, 1, 1]
  usePrefixGrouper := usePrefixGrouper
  keepMinibatch := keepMinibatch
  ppoMiniBatchSize := 4

/-- Four rows: each rank has one of the two longer ones, and `chunk` hands them out. -/
theorem balanceBatch_spec_four :
    @balanceBatch ℕ ℕ _ (twoRanks false false) [10, 11, 12, 13] [4, 3, 2, 2] none =
        .ok ([12, 10, 13, 11], [[2, 0], [3, 1]], ⟨4, 7, 3, 5, 6, 11 / 2⟩) ∧
      chunk 2 [12, 10, 13, 11] = .ok [[12, 10], [13, 11]] := by
  have hcall : @balanceBatch ℕ ℕ _ (twoRanks false false) [10, 11, 12, 13] [4, 3, 2, 2] none =
      .ok ([12, 10, 13, 11], [[2, 0], [3, 1]], ⟨4, 7, 3, 5, 6, 11 / 2⟩) := by
    decide +kernel
  exact ⟨hcall, ((@balanceBatch_spec ℕ ℕ _ (twoRanks false false) [10, 11, 12, 13] [4, 3, 2, 2]
    none 2 rfl rfl rfl rfl).2 _ _ _ hcall).2.1⟩

end Batch

end RLCM.Balancing
