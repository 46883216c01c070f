/-
# `RLCM.Balancing.KeepMinibatch` — balancing mini-batch by mini-batch

The branch of `_balance_batch` that shares out each mini-batch by itself.
`KeptState` is what holds of the ranks' rows after every mini-batch: an equal
share of each, in rows and nearly in workload.  The whole call then drops the
rows after the last full mini-batch and orders each rank's rows by workload,
which mixes its mini-batches.
-/
import RLCM.Balancing.BalanceBatch

namespace RLCM.Balancing

open Py Differencing Protocol

variable {α Uid : Type} [DecidableEq Uid] {workloads : List ℕ} {m dpSize : ℕ}

/-- A rank's rows of mini-batch `b`. -/
def inMinibatch (m b : ℕ) (partition : List ℕ) : List ℕ := partition.filter (fun x => x / m = b)

/-- The ranks' rows after `i` mini-batches: from each mini-batch every rank has an
equal share of the rows and nearly of the workload. -/
structure KeptState (workloads : List ℕ) (m dpSize i : ℕ) (parts : List (List ℕ)) : Prop where
  length_eq : parts.length = dpSize
  sizes : ∀ p ∈ parts, p.length * dpSize = i * m
  flatten_perm : parts.flatten.Perm (List.range (i * m))
  shares : ∀ b < i, ∀ p ∈ parts, (inMinibatch m b p).length * dpSize = m
  within : ∀ b < i, Within (gap (Blocks.slice workloads (b * m) ((b + 1) * m)) true)
    (parts.map (fun p => load workloads (inMinibatch m b p)))

theorem keptState_start (workloads : List ℕ) (m dpSize : ℕ) :
    KeptState workloads m dpSize 0 (List.replicate dpSize []) where
  length_eq := List.length_replicate
  sizes := by
    intro p hp
    rw [List.eq_of_mem_replicate hp, List.length_nil, Nat.zero_mul, Nat.zero_mul]
  flatten_perm := by
    rw [List.flatten_replicate_nil, Nat.zero_mul]
    exact List.Perm.refl _
  shares := fun b hb => absurd hb (Nat.not_lt_zero b)
  within := fun b hb => absurd hb (Nat.not_lt_zero b)

/-- The rows of mini-batch `i` are those that were just appended. -/
theorem inMinibatch_append {i b : ℕ} {rank part : List ℕ} (hrank : ∀ x ∈ rank, x < i * m)
    (hpart : ∀ x ∈ part, x < m) :
    inMinibatch m b (rank ++ part.map (· + m * i)) =
      if b = i then part.map (· + m * i) else inMinibatch m b rank := by
  have hnew : ∀ x ∈ part.map (· + m * i), x / m = i := by
    intro x hx
    obtain ⟨y, hy, rfl⟩ := List.mem_map.mp hx
    have hlt := hpart y hy
    rw [Nat.add_mul_div_left _ _ (Nat.zero_lt_of_lt hlt), Nat.div_eq_of_lt hlt, Nat.zero_add]
  have hold : ∀ x ∈ rank, x / m < i := by
    intro x hx
    rw [Nat.mul_comm] at hrank
    exact Nat.div_lt_of_lt_mul (hrank x hx)
  rw [inMinibatch, List.filter_append, ← inMinibatch]
  split
  case isTrue hb =>
    subst hb
    have hnone : inMinibatch m b rank = [] :=
      List.filter_eq_nil_iff.mpr (fun x hx => by simpa using (hold x hx).ne)
    rw [hnone, List.nil_append]
    exact List.filter_eq_self.mpr (fun x hx => decide_eq_true (hnew x hx))
  case isFalse hb =>
    have hnone : (part.map (· + m * i)).filter (fun x => x / m = b) = [] :=
      List.filter_eq_nil_iff.mpr (fun x hx => by
        rw [decide_eq_true_iff, hnew x hx]
        exact fun h => hb h.symm)
    rw [hnone, List.append_nil]

/-- From mini-batch `i` every rank has the part that was appended, from the others what it had. -/
theorem map_inMinibatch_append {i b : ℕ} {parts new : List (List ℕ)}
    (hlen : parts.length = new.length) (hrank : ∀ rank ∈ parts, ∀ x ∈ rank, x < i * m)
    (hpart : ∀ part ∈ new, ∀ x ∈ part, x < m) :
    (List.zipWith (fun rank part => rank ++ part.map (· + m * i)) parts new).map
        (inMinibatch m b) =
      if b = i then new.map (List.map (· + m * i)) else parts.map (inMinibatch m b) := by
  refine List.ext_getElem (by split <;> simp [hlen]) (fun j hj hj' => ?_)
  rw [List.length_map, List.length_zipWith, hlen, min_self] at hj
  rw [List.getElem_map, List.getElem_zipWith, inMinibatch_append
    (hrank _ (List.getElem_mem _)) (hpart _ (List.getElem_mem _))]
  split
  case isTrue => rw [List.getElem_map]
  case isFalse => rw [List.getElem_map]

/-- The workload of rows that are counted from the start of their mini-batch. -/
theorem load_slice {i : ℕ} {part : List ℕ} (hpart : ∀ x ∈ part, x < m) :
    load workloads (part.map (· + m * i)) =
      load (Blocks.slice workloads (i * m) ((i + 1) * m)) part := by
  rw [load, load, List.map_map]
  congr 1
  refine List.map_congr_left (fun x hx => ?_)
  have hwidth : (i + 1) * m - i * m = m := by
    rw [Nat.succ_mul, Nat.add_sub_cancel_left]
  rw [Function.comp_apply, List.getD_eq_getElem?_getD, List.getD_eq_getElem?_getD, Blocks.slice,
    hwidth, List.getElem?_take_of_lt (hpart x hx), List.getElem?_drop, Nat.mul_comm i,
    Nat.add_comm]

theorem length_minibatch {i : ℕ} (hroom : (i + 1) * m ≤ workloads.length) :
    (Blocks.slice workloads (i * m) ((i + 1) * m)).length = m := by
  rw [Blocks.slice, List.length_take, List.length_drop]
  rw [Nat.succ_mul] at hroom ⊢
  omega

theorem flatten_append_perm {i : ℕ} {parts new : List (List ℕ)}
    (hlen : parts.length = new.length) (hparts : parts.flatten.Perm (List.range (i * m)))
    (hnew : new.flatten.Perm (List.range m)) :
    (List.zipWith (fun rank part => rank ++ part.map (· + m * i)) parts new).flatten.Perm
      (List.range ((i + 1) * m)) := by
  have hzip : List.zipWith (fun rank part => rank ++ part.map (· + m * i)) parts new =
      List.zipWith (· ++ ·) parts (new.map (List.map (· + m * i))) := by
    rw [List.zipWith_map_right]
  rw [hzip]
  refine (flatten_zipWith_perm (by rw [List.length_map, hlen])).trans ?_
  rw [← List.map_flatten, Nat.succ_mul, List.range_add]
  refine hparts.append ((hnew.map _).trans (List.Perm.of_eq ?_))
  exact List.map_congr_left (fun x _ => by rw [Nat.mul_comm m, Nat.add_comm])

/-- One more mini-batch. -/
theorem KeptState.step {i : ℕ} {parts : List (List ℕ)} (h : KeptState workloads m dpSize i parts)
    (hroom : (i + 1) * m ≤ workloads.length) {parts' : List (List ℕ)}
    (hstep : extendPartitions workloads dpSize m parts i = .ok parts') :
    KeptState workloads m dpSize (i + 1) parts' := by
  obtain ⟨new, hnew, hstep⟩ := bind_eq_ok.mp hstep
  cases hstep
  have hslice := length_minibatch hroom
  have hpart := isPartition_of_ok hnew
  have hwithin := within_of_ok hnew
  have hshare : ∀ part ∈ new, part.length * dpSize = m :=
    fun part hp => hslice ▸ length_mul_of_ok hnew hp
  rw [hslice] at hpart
  have hlen : parts.length = new.length := by rw [h.length_eq, hpart.length_eq]
  have hrank : ∀ rank ∈ parts, ∀ x ∈ rank, x < i * m := fun rank hr x hx =>
    List.mem_range.mp (h.flatten_perm.mem_iff.mp (List.mem_flatten_of_mem hr hx))
  have hpartlt : ∀ part ∈ new, ∀ x ∈ part, x < m := fun part hp x hx =>
    List.mem_range.mp (hpart.flatten_perm.mem_iff.mp (List.mem_flatten_of_mem hp hx))
  -- every rank is an old one with its part of the mini-batch after it
  have hmem : ∀ p ∈ List.zipWith (fun rank part => rank ++ part.map (· + m * i)) parts new,
      ∃ rank ∈ parts, ∃ part ∈ new, p = rank ++ part.map (· + m * i) := by
    intro p hp
    obtain ⟨j, hj, rfl⟩ := List.mem_iff_getElem.mp hp
    rw [List.length_zipWith] at hj
    exact ⟨parts[j], List.getElem_mem _, new[j], List.getElem_mem _, List.getElem_zipWith⟩
  refine ⟨?_, ?_, ?_, ?_, ?_⟩
  · rw [List.length_zipWith, ← hlen, min_self, h.length_eq]
  · intro p hp
    obtain ⟨rank, hr, part, hpnew, rfl⟩ := hmem p hp
    rw [List.length_append, List.length_map, Nat.add_mul, h.sizes rank hr, hshare part hpnew,
      Nat.succ_mul]
  · exact flatten_append_perm hlen h.flatten_perm hpart.flatten_perm
  · intro b hb p hp
    have hp := List.mem_map_of_mem (f := inMinibatch m b) hp
    rw [map_inMinibatch_append hlen hrank hpartlt] at hp
    split at hp
    case isTrue =>
      obtain ⟨part, hpnew, hpart⟩ := List.mem_map.mp hp
      rw [← hpart, List.length_map, hshare part hpnew]
    case isFalse hne =>
      obtain ⟨rank, hr, hkept⟩ := List.mem_map.mp hp
      rw [← hkept]
      exact h.shares b (lt_of_le_of_ne (Nat.le_of_lt_succ hb) hne) rank hr
  · intro b hb
    have hloads : ∀ parts : List (List ℕ), parts.map (fun p => load workloads (inMinibatch m b p)) =
        (parts.map (inMinibatch m b)).map (load workloads) := by
      intro parts
      rw [List.map_map]
      rfl
    rw [hloads, map_inMinibatch_append hlen hrank hpartlt]
    split
    case isTrue hbi =>
      have hnewloads : (new.map (List.map (· + m * i))).map (load workloads) =
          new.map (load (Blocks.slice workloads (i * m) ((i + 1) * m))) := by
        rw [List.map_map]
        exact List.map_congr_left (fun part hp => load_slice (hpartlt part hp))
      rw [hbi, hnewloads]
      exact hwithin
    case isFalse hne =>
      rw [← hloads]
      exact h.within b (lt_of_le_of_ne (Nat.le_of_lt_succ hb) hne)

/-- All mini-batches. -/
theorem keptState_run {i : ℕ} (hroom : i * m ≤ workloads.length)
    {parts : List (List ℕ)}
    (h : (List.range i).foldlM (extendPartitions workloads dpSize m)
      (List.replicate dpSize []) = .ok parts) :
    KeptState workloads m dpSize i parts := by
  induction i generalizing parts with
  | zero =>
      cases h
      exact keptState_start workloads m dpSize
  | succ i ih =>
      rw [List.range_succ, List.foldlM_append] at h
      obtain ⟨before, hbefore, h⟩ := bind_eq_ok.mp h
      rw [List.foldlM_cons] at h
      obtain ⟨after, hafter, h⟩ := bind_eq_ok.mp h
      cases h
      have hle : i * m ≤ workloads.length :=
        (Nat.mul_le_mul_right m (Nat.le_succ i)).trans hroom
      exact (ih hle hbefore).step hroom hafter

/-- Mini-batches that the ranks can share evenly do not raise. -/
theorem keptState_returns (hm : 0 < m) (hdp : 0 < dpSize) (hdvd : dpSize ∣ m) {i : ℕ}
    (hroom : i * m ≤ workloads.length) :
    ∃ parts, (List.range i).foldlM (extendPartitions workloads dpSize m)
      (List.replicate dpSize []) = .ok parts := by
  induction i with
  | zero => exact ⟨_, rfl⟩
  | succ i ih =>
      have hle : i * m ≤ workloads.length :=
        (Nat.mul_le_mul_right m (Nat.le_succ i)).trans hroom
      obtain ⟨before, hbefore⟩ := ih hle
      have hslice := length_minibatch hroom
      obtain ⟨parts, hparts⟩ := exists_of_conditions
        (Blocks.slice workloads (i * m) ((i + 1) * m)) true hdp
        (hslice.symm ▸ Nat.le_of_dvd hm hdvd) (fun _ => hslice.symm ▸ hdvd)
      refine ⟨List.zipWith (fun rank part => rank ++ part.map (· + m * i)) before parts, ?_⟩
      rw [List.range_succ, List.foldlM_append, hbefore, ok_bind, List.foldlM_cons,
        extendPartitions, hparts]
      rfl

theorem inMinibatch_perm {b : ℕ} {p q : List ℕ} (h : p.Perm q) :
    (inMinibatch m b p).Perm (inMinibatch m b q) := h.filter _

theorem load_inMinibatch_orderPartition (b : ℕ) (partition : List ℕ) :
    load workloads (inMinibatch m b (orderPartition workloads partition)) =
      load workloads (inMinibatch m b partition) :=
  ((inMinibatch_perm (orderPartition_perm workloads partition)).map _).sum_eq

/-! ## The whole call -/

section Call

variable {cfg : BalanceConfig} {rows : List α} {seqlens : List ℕ} {uids : Option (List Uid)}

theorem fullRows_le (hlen : rows.length = seqlens.length) (m : ℕ) :
    rows.length / m * m ≤ (seqlens.map calculateWorkload).length := by
  rw [List.length_map, ← hlen]
  exact Nat.div_mul_le_self rows.length m

theorem globalPartitions_keepMinibatch (hgrouper : cfg.usePrefixGrouper = false)
    (hkeep : cfg.keepMinibatch = true) (hlen : rows.length = seqlens.length)
    (uids : Option (List Uid)) (dpSize : ℕ) :
    globalPartitions cfg seqlens uids dpSize =
      if cfg.ppoMiniBatchSize = 0 then .error .zeroDivisionError
      else (List.range (rows.length / cfg.ppoMiniBatchSize)).foldlM
        (extendPartitions (seqlens.map calculateWorkload) dpSize cfg.ppoMiniBatchSize)
        (List.replicate dpSize []) := by
  unfold globalPartitions
  rw [hgrouper, hkeep, hlen, ← List.length_map calculateWorkload]
  rfl

theorem exists_of_mem_orderedPartitions (hgrouper : cfg.usePrefixGrouper = false)
    {parts0 : List (List ℕ)} {p : List ℕ} (hp : p ∈ orderedPartitions cfg seqlens parts0) :
    ∃ q ∈ parts0, p = orderPartition (seqlens.map calculateWorkload) q := by
  rw [orderedPartitions, if_neg (by rw [hgrouper]; exact Bool.false_ne_true)] at hp
  obtain ⟨q, hq, rfl⟩ := List.mem_map.mp hp
  exact ⟨q, hq, rfl⟩

variable (hgrouper : cfg.usePrefixGrouper = false) (hkeep : cfg.keepMinibatch = true)
  (hdp : getDpSize cfg.dpRankMapping = .ok dpSize) (hlen : rows.length = seqlens.length)
include hgrouper hkeep hdp hlen

/-- What a call that returns has done. -/
theorem kept_of_ok {out : List α × List (List ℕ) × SeqlenStats}
    (h : balanceBatch cfg rows seqlens uids = .ok out) :
    0 < cfg.ppoMiniBatchSize ∧ ∃ parts0, globalPartitions cfg seqlens uids dpSize = .ok parts0 ∧
      KeptState (seqlens.map calculateWorkload) cfg.ppoMiniBatchSize dpSize
        (rows.length / cfg.ppoMiniBatchSize) parts0 ∧
      parts0.flatten ≠ [] := by
  rw [balanceBatch, hdp, ok_bind] at h
  obtain ⟨parts0, hparts, h⟩ := bind_eq_ok.mp h
  have hfold := hparts
  rw [globalPartitions_keepMinibatch hgrouper hkeep hlen] at hfold
  split at hfold
  case isTrue => cases hfold
  case isFalse hne =>
    refine ⟨Nat.pos_of_ne_zero hne, parts0, hparts, keptState_run (fullRows_le hlen _) hfold,
      fun hnil => ?_⟩
    obtain ⟨reordered, hreorder, -⟩ := bind_eq_ok.mp h
    have hperm := flatten_orderedPartitions cfg seqlens parts0
    rw [hnil] at hperm
    have hempty : (orderedPartitions cfg seqlens parts0).flatten = [] := List.perm_nil.mp hperm
    have hreorder : reorder rows (orderedPartitions cfg seqlens parts0).flatten =
      .ok reordered := hreorder
    rw [hempty, reorder, if_pos rfl] at hreorder
    cases hreorder

omit hgrouper hkeep in
/-- From the ranks' rows of all mini-batches, if there are any, the call returns. -/
theorem balanceBatch_of_kept {parts0 : List (List ℕ)} (hpos : 0 < cfg.ppoMiniBatchSize)
    (hparts : globalPartitions cfg seqlens uids dpSize = .ok parts0)
    (hkept : KeptState (seqlens.map calculateWorkload) cfg.ppoMiniBatchSize dpSize
      (rows.length / cfg.ppoMiniBatchSize) parts0) (hne : parts0.flatten ≠ []) :
    cfg.ppoMiniBatchSize ≤ rows.length ∧ dpSize ∣ cfg.ppoMiniBatchSize ∧
      ∃ stats, balanceBatch cfg rows seqlens uids =
        .ok (gather rows (orderedPartitions cfg seqlens parts0).flatten,
          orderedPartitions cfg seqlens parts0, stats) := by
  have hfull : 0 < rows.length / cfg.ppoMiniBatchSize := by
    refine Nat.pos_of_ne_zero (fun hzero => hne ?_)
    have hflat := hkept.flatten_perm
    rw [hzero, Nat.zero_mul] at hflat
    exact List.perm_nil.mp hflat
  have hle : cfg.ppoMiniBatchSize ≤ rows.length := (Nat.div_pos_iff.mp hfull).2
  have hparts0 : parts0 ≠ [] :=
    List.length_pos_iff.mp (hkept.length_eq.symm ▸ getDpSize_pos hdp)
  obtain ⟨p, hp⟩ := List.exists_mem_of_ne_nil _ hparts0
  have hdvd : dpSize ∣ cfg.ppoMiniBatchSize :=
    ⟨_, by rw [Nat.mul_comm, hkept.shares 0 hfull p hp]⟩
  refine ⟨hle, hdvd, balanceBatch_of_parts rows hdp hparts hparts0 hne ?_ ?_ hlen⟩
  · rw [hkept.length_eq, ← hlen]
    exact (Nat.le_of_dvd hpos hdvd).trans hle
  · intro i hi
    have hlt := List.mem_range.mp (hkept.flatten_perm.mem_iff.mp hi)
    exact hlt.trans_le (Nat.div_mul_le_self _ _)

/-- The call returns exactly when there is a mini-batch and the ranks share it evenly. -/
theorem balanceBatch_keepMinibatch_returns :
    (∃ out, balanceBatch cfg rows seqlens uids = .ok out) ↔
      0 < cfg.ppoMiniBatchSize ∧ cfg.ppoMiniBatchSize ≤ rows.length ∧
        dpSize ∣ cfg.ppoMiniBatchSize := by
  constructor
  · rintro ⟨out, h⟩
    obtain ⟨hpos, parts0, hparts, hkept, hne⟩ := kept_of_ok hgrouper hkeep hdp hlen h
    obtain ⟨hle, hdvd, -⟩ := balanceBatch_of_kept hdp hlen hpos hparts hkept hne
    exact ⟨hpos, hle, hdvd⟩
  · rintro ⟨hpos, hle, hdvd⟩
    have hroom := fullRows_le hlen cfg.ppoMiniBatchSize
    obtain ⟨parts0, hfold⟩ := keptState_returns hpos (getDpSize_pos hdp) hdvd hroom
    have hkept := keptState_run hroom hfold
    have hparts : globalPartitions cfg seqlens uids dpSize = .ok parts0 := by
      rw [globalPartitions_keepMinibatch hgrouper hkeep hlen, if_neg hpos.ne', hfold]
    have hne : parts0.flatten ≠ [] := by
      rw [← List.length_pos_iff, hkept.flatten_perm.length_eq, List.length_range]
      exact Nat.mul_pos (Nat.div_pos hle hpos) hpos
    obtain ⟨-, -, stats, hout⟩ := balanceBatch_of_kept hdp hlen hpos hparts hkept hne
    exact ⟨_, hout⟩

omit hgrouper hkeep hlen in
theorem chunk_of_kept {parts0 : List (List ℕ)}
    (hkept : KeptState (seqlens.map calculateWorkload) m dpSize (rows.length / m) parts0) :
    chunk dpSize (gather rows (orderedPartitions cfg seqlens parts0).flatten) =
      .ok ((orderedPartitions cfg seqlens parts0).map (gather rows)) := by
  have hpos := getDpSize_pos hdp
  have hflat := (flatten_orderedPartitions cfg seqlens parts0).trans hkept.flatten_perm
  have hcount : (orderedPartitions cfg seqlens parts0).length = dpSize :=
    (orderedPartitions_perm cfg seqlens parts0).length_eq.trans hkept.length_eq
  have hsizes : ∀ p ∈ parts0, p.length = rows.length / m * m / dpSize :=
    fun p hp => by rw [← hkept.sizes p hp, Nat.mul_div_cancel _ hpos]
  have hchunk := chunk_gather_flatten rows
    (List.length_pos_iff.mp (hcount.symm ▸ hpos)) (length_of_orderedPartitions hsizes)
    (fun p hp i hi => (List.mem_range.mp (hflat.mem_iff.mp
      (List.mem_flatten_of_mem hp hi))).trans_le (Nat.div_mul_le_self _ _))
  rwa [hcount] at hchunk

/-- With mini-batches to keep, the call returns exactly when there is one and the
ranks share it evenly.  Rows after the last full mini-batch are dropped; of each
mini-batch every rank gets as many rows, with workloads that differ by no more
than two rows of that mini-batch can.  But a rank's rows are then ordered by
workload over all its mini-batches. -/
theorem balanceBatch_keepMinibatch :
    ((∃ out, balanceBatch cfg rows seqlens uids = .ok out) ↔
      0 < cfg.ppoMiniBatchSize ∧ cfg.ppoMiniBatchSize ≤ rows.length ∧
        dpSize ∣ cfg.ppoMiniBatchSize) ∧
    ∀ reordered parts stats,
      balanceBatch cfg rows seqlens uids = .ok (reordered, parts, stats) →
      chunk dpSize reordered = .ok (parts.map (gather rows)) ∧
      parts.flatten.Perm
        (List.range (rows.length / cfg.ppoMiniBatchSize * cfg.ppoMiniBatchSize)) ∧
      (∀ b < rows.length / cfg.ppoMiniBatchSize, ∀ p ∈ parts,
        (inMinibatch cfg.ppoMiniBatchSize b p).length * dpSize = cfg.ppoMiniBatchSize ∧
        ∀ q ∈ parts,
          load (seqlens.map calculateWorkload) (inMinibatch cfg.ppoMiniBatchSize b p) ≤
            load (seqlens.map calculateWorkload) (inMinibatch cfg.ppoMiniBatchSize b q) +
            gap (Blocks.slice (seqlens.map calculateWorkload) (b * cfg.ppoMiniBatchSize)
              ((b + 1) * cfg.ppoMiniBatchSize)) true) ∧
      ∀ p ∈ parts, LightEnds (p.map (fun i => (seqlens.map calculateWorkload).getD i 0)) := by
  refine ⟨balanceBatch_keepMinibatch_returns hgrouper hkeep hdp hlen, ?_⟩
  intro reordered parts stats h
  obtain ⟨hpos, parts0, hparts, hkept, hne⟩ := kept_of_ok hgrouper hkeep hdp hlen h
  obtain ⟨-, -, stats', hout⟩ := balanceBatch_of_kept hdp hlen hpos hparts hkept hne
  rw [hout] at h
  cases h
  refine ⟨chunk_of_kept hdp hkept,
    (flatten_orderedPartitions cfg seqlens parts0).trans hkept.flatten_perm,
    fun b hb p hp => ⟨?_, fun q hq => ?_⟩, fun p hp => ?_⟩
  · obtain ⟨p0, hp0, rfl⟩ := exists_of_mem_orderedPartitions hgrouper hp
    rw [(inMinibatch_perm (orderPartition_perm _ p0)).length_eq]
    exact hkept.shares b hb p0 hp0
  · obtain ⟨p0, hp0, rfl⟩ := exists_of_mem_orderedPartitions hgrouper hp
    obtain ⟨q0, hq0, rfl⟩ := exists_of_mem_orderedPartitions hgrouper hq
    rw [load_inMinibatch_orderPartition, load_inMinibatch_orderPartition]
    exact hkept.within b hb _ (List.mem_map.mpr ⟨p0, hp0, rfl⟩) _
      (List.mem_map.mpr ⟨q0, hq0, rfl⟩)
  · obtain ⟨p0, _, rfl⟩ := exists_of_mem_orderedPartitions hgrouper hp
    exact orderPartition_lightEnds _ p0

end Call

/-- Of nine rows the last is dropped.  The first rank has rows 5 and 4 of the
second mini-batch around row 0 of the first. -/
theorem balanceBatch_keepMinibatch_nine :
    chunk 2 [15, 10, 14, 12, 16, 13, 11, 17] =
      .ok ([[5, 0, 4, 2], [6, 3, 1, 7]].map (gather [10, 11, 12, 13, 14, 15, 16, 17, 18])) ∧
    [[5, 0, 4, 2], [6, 3, 1, 7]].flatten.Perm (List.range (9 / 4 * 4)) := by
  have h := (@balanceBatch_keepMinibatch ℕ ℕ _ 2 (twoRanks false true)
    [10, 11, 12, 13, 14, 15, 16, 17, 18] [4, 3, 2, 2, 9, 1, 1, 1, 7] none rfl rfl rfl rfl).2
    [15, 10, 14, 12, 16, 13, 11, 17] [[5, 0, 4, 2], [6, 3, 1, 7]] ⟨7, 12, 5, 7, 16, 15⟩
    (by decide +kernel)
  exact ⟨h.1, h.2.1⟩

end RLCM.Balancing
