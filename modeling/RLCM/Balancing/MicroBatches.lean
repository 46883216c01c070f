/-
# `RLCM.Balancing.MicroBatches` — cutting a batch by its tokens

`rearrange_micro_batches`: as many micro-batches as the tokens need, the rows
shared out by workload, the light micro-batches at both ends; then
`prepare_dynamic_batch` on top of it, and `restore_dynamic_batch` after the
micro-batches were processed.

The number of micro-batches is found in two steps, because between them the
ranks of a data-parallel group agree on the largest: `numMicroBatches` is what a
rank says, `cutMicroBatches` what it does with the number agreed on.
-/
import Mathlib.Algebra.BigOperators.Ring.List
import Mathlib.Tactic.Ring
import RLCM.Balancing.PartitionLaws
import RLCM.Actor.ComputeLogProb

namespace RLCM.Balancing

open Py Differencing

/-! ## Batches -/

/-- A batch of sequences.  `seqLen` counts the tokens of a row: the entries of
its `attention_mask`, or the entries of nested `input_ids`.  The width is that of
the padded `attention_mask`; nested tensors have none. -/
structure TokenBatch (α : Type) where
  rows : List α
  seqLen : α → ℕ
  width : Option ℕ
  seqLen_le : ∀ w ∈ width, ∀ row ∈ rows, seqLen row ≤ w

variable {α β γ : Type}

namespace TokenBatch

/-- `seq_len_effective`. -/
def seqLens (batch : TokenBatch α) : List ℕ := batch.rows.map batch.seqLen

def maxSeqLen (batch : TokenBatch α) : Except Error ℕ :=
  match batch.width with
  | some width => .ok width
  | none => maxItem batch.seqLens

end TokenBatch

/-- What the callers set. -/
structure MicroBatchArgs where
  maxTokenLen : ℕ
  numBatchesDividedBy : Option ℕ
  minNumMicroBatch : Option ℕ
  useDynamicBszBalance : Bool

/-! ## How many micro-batches -/

def ceildiv (a b : ℤ) : Except Error ℤ :=
  if b = 0 then .error .zeroDivisionError else .ok (-(a.fdiv (-b)))

def roundupDivisible (a b : ℕ) : Except Error ℕ :=
  if b = 0 then .error .zeroDivisionError else .ok ((a + b - 1) / b * b)

/-- `rearrange_micro_batches` up to the `all_reduce`: the number this rank needs. -/
def numMicroBatches (args : MicroBatchArgs) (batch : TokenBatch α) : Except Error ℕ := do
  let maxSeqLen ← batch.maxSeqLen
  if args.maxTokenLen < maxSeqLen then .error .assertionError
  else
    let needed ← ceildiv batch.seqLens.sum args.maxTokenLen
    let num := min batch.rows.length needed.toNat
    .ok (args.minNumMicroBatch.elim num (fun minNum => max minNum num))

def roundNumMicroBatches (args : MicroBatchArgs) (num : ℕ) : Except Error ℕ :=
  match args.numBatchesDividedBy with
  | some divisor => roundupDivisible num divisor
  | none => .ok num

/-! ## Which rows -/

/-- `xs[::2]`. -/
def everyOther : List α → List α
  | [] => []
  | [x] => [x]
  | x :: _ :: xs => x :: everyOther xs

def microBatchKey (workloads : List ℕ) (partition : List ℕ) : ℕ ×ₗ ℕ :=
  toLex (load workloads partition, partition.headD 0)

def balanceMicroBatches (workloads : List ℕ) (microBszIdx : List (List ℕ)) : List (List ℕ) :=
  let sorted := microBszIdx.insertionSort
    (fun p q => microBatchKey workloads q ≤ microBatchKey workloads p)
  (everyOther sorted).reverse ++ everyOther sorted.tail

/-- `index_select_tensor_dict`. -/
def indexSelect (rows : List α) (partition : List ℕ) : Except Error (List α) :=
  partition.mapM (getItem rows)

/-- `rearrange_micro_batches` after the `all_reduce`. -/
def cutMicroBatches (args : MicroBatchArgs) (batch : TokenBatch α) (num : ℕ) :
    Except Error (List (List α) × List (List ℕ)) := do
  let num ← roundNumMicroBatches args num
  if batch.rows.length < num then .error .assertionError
  else
    let workloads := batch.seqLens.map calculateWorkload
    let microBszIdx ← getSeqlenBalancedPartitions workloads num false
    let microBszIdx :=
      if args.useDynamicBszBalance then balanceMicroBatches workloads microBszIdx
      else microBszIdx
    let microBatches ← microBszIdx.mapM (indexSelect batch.rows)
    pure (microBatches, microBszIdx)

/-- `rearrange_micro_batches` on a rank by itself. -/
def rearrangeMicroBatches (args : MicroBatchArgs) (batch : TokenBatch α) :
    Except Error (List (List α) × List (List ℕ)) := do
  let num ← numMicroBatches args batch
  cutMicroBatches args batch num

/-- `rearrange_micro_batches` on all ranks of a data-parallel group, which take
the largest of their numbers. -/
def rearrangeInGroup (args : MicroBatchArgs) (batches : List (TokenBatch α)) :
    Except Error (List (List (List α) × List (List ℕ))) := do
  let nums ← batches.mapM (numMicroBatches args)
  let num ← maxItem nums
  batches.mapM (fun batch => cutMicroBatches args batch num)

/-! ## There and back -/

/-- `prepare_dynamic_batch`: the tensors of a micro-batch with the entries of
`non_tensor_batch` for the same rows. -/
def prepareDynamicBatch (args : MicroBatchArgs) (batch : TokenBatch α) (nonTensors : List β) :
    Except Error (List (List α × List β) × List (List ℕ)) := do
  let (microBatches, batchIdxList) ← rearrangeMicroBatches args batch
  let microBatches ← (microBatches.zip batchIdxList).mapM (fun (tensors, batchIdx) => do
    let nonTensors ← indexSelect nonTensors batchIdx
    pure (tensors, nonTensors))
  pure (microBatches, batchIdxList)

/-! ## The number of micro-batches -/

section Number

variable {args : MicroBatchArgs} {batch : TokenBatch α}

theorem ceildiv_spec {a b : ℕ} (hb : 0 < b) :
    ∃ c : ℕ, ceildiv a b = .ok (c : ℤ) ∧ a ≤ c * b ∧ c * b < a + b := by
  have hdiv := Nat.div_add_mod a b
  have hmod := Nat.mod_lt a hb
  have hne : (b : ℤ) ≠ 0 := by exact_mod_cast hb.ne'
  have hfloor : -((a : ℤ).fdiv (-b)) = (a / b : ℕ) + if b ∣ a then 0 else 1 := by
    have hnonneg : ¬ (0 : ℤ) ≤ -b := by omega
    simp only [Int.fdiv_eq_ediv, Int.ediv_neg, Int.neg_dvd, Int.natCast_dvd_natCast, hnonneg,
      false_or, Int.natCast_ediv]
    split
    case isTrue => omega
    case isFalse => omega
  by_cases hdvd : b ∣ a
  · refine ⟨a / b, ?_, ?_, ?_⟩
    · rw [ceildiv, if_neg hne, hfloor, if_pos hdvd, add_zero]
    · rw [Nat.div_mul_cancel hdvd]
    · rw [Nat.div_mul_cancel hdvd]
      omega
  · have hpos : 0 < a % b := Nat.pos_of_ne_zero (fun h => hdvd (Nat.dvd_of_mod_eq_zero h))
    refine ⟨a / b + 1, ?_, ?_, ?_⟩
    · rw [ceildiv, if_neg hne, hfloor, if_neg hdvd]
      rfl
    · rw [Nat.succ_mul, Nat.mul_comm]
      omega
    · rw [Nat.succ_mul, Nat.mul_comm]
      omega

/-- The longest row is within the budget of a micro-batch. -/
def Fits (args : MicroBatchArgs) (batch : TokenBatch α) : Prop :=
  0 < args.maxTokenLen ∧ ∃ maxSeqLen, batch.maxSeqLen = .ok maxSeqLen ∧
    maxSeqLen ≤ args.maxTokenLen

theorem seqLen_le_maxSeqLen {maxSeqLen : ℕ} (h : batch.maxSeqLen = .ok maxSeqLen) :
    ∀ s ∈ batch.seqLens, s ≤ maxSeqLen := by
  intro s hs
  unfold TokenBatch.maxSeqLen at h
  split at h
  case h_1 width hwidth =>
    cases h
    obtain ⟨row, hrow, rfl⟩ := List.mem_map.mp hs
    exact batch.seqLen_le _ hwidth row hrow
  case h_2 hwidth =>
    obtain ⟨m, hm, hle⟩ := maxItem_ok (List.ne_nil_of_mem hs)
    rw [hm] at h
    cases h
    exact hle s hs

theorem numMicroBatches_spec (h : Fits args batch) :
    ∃ needed, numMicroBatches args batch =
        .ok (args.minNumMicroBatch.elim needed (fun minNum => max minNum needed)) ∧
      needed ≤ batch.rows.length ∧ batch.seqLens.sum ≤ needed * args.maxTokenLen ∧
      (0 < batch.seqLens.sum → 0 < needed) := by
  obtain ⟨hpos, maxSeqLen, hmax, hle⟩ := h
  obtain ⟨needed, hceil, hlow, hhigh⟩ := ceildiv_spec (a := batch.seqLens.sum) hpos
  have htotal : batch.seqLens.sum ≤ batch.rows.length * args.maxTokenLen := by
    have hsum := List.sum_le_card_nsmul batch.seqLens args.maxTokenLen
      (fun s hs => (seqLen_le_maxSeqLen hmax s hs).trans hle)
    rwa [TokenBatch.seqLens, List.length_map, nsmul_eq_mul, Nat.cast_id] at hsum
  have hrows : needed ≤ batch.rows.length := by
    have hlt : needed * args.maxTokenLen < (batch.rows.length + 1) * args.maxTokenLen := by
      rw [Nat.succ_mul]
      omega
    exact Nat.le_of_lt_succ (Nat.lt_of_mul_lt_mul_right hlt)
  refine ⟨needed, ?_, hrows, hlow, fun hsum => ?_⟩
  · rw [numMicroBatches, hmax, ok_bind, if_neg (not_lt.mpr hle), hceil, ok_bind,
      Int.toNat_natCast, min_eq_right hrows]
  · refine Nat.pos_of_ne_zero (fun hzero => ?_)
    rw [hzero, Nat.zero_mul] at hlow
    omega

theorem fits_of_ok {num : ℕ} (h : numMicroBatches args batch = .ok num) : Fits args batch := by
  obtain ⟨maxSeqLen, hmax, h⟩ := bind_eq_ok.mp h
  split at h
  case isTrue => cases h
  case isFalse hle =>
    obtain ⟨needed, hceil, -⟩ := bind_eq_ok.mp h
    refine ⟨Nat.pos_of_ne_zero (fun hzero => ?_), maxSeqLen, hmax, not_lt.mp hle⟩
    rw [hzero] at hceil
    cases hceil

/-- Rounding up stays below any multiple. -/
theorem roundupDivisible_spec {a b n : ℕ} (hb : 0 < b) (hdvd : b ∣ n) (ha : a ≤ n) :
    ∃ c, roundupDivisible a b = .ok c ∧ a ≤ c ∧ c ≤ n := by
  refine ⟨(a + b - 1) / b * b, by rw [roundupDivisible, if_neg hb.ne'], ?_, ?_⟩
  · have := Nat.lt_div_mul_add (a := a + b - 1) hb
    omega
  · obtain ⟨m, rfl⟩ := hdvd
    have hlt : (a + b - 1) / b < m + 1 := by
      rw [Nat.div_lt_iff_lt_mul hb, Nat.succ_mul, Nat.mul_comm m b]
      omega
    rw [Nat.mul_comm b m]
    exact Nat.mul_le_mul_right b (Nat.le_of_lt_succ hlt)

end Number

/-! ## The order of the micro-batches -/

section Order

variable {workloads : List ℕ}

/-- Both halves together. -/
theorem everyOther_perm (xs : List α) : (everyOther xs ++ everyOther xs.tail).Perm xs := by
  induction xs using everyOther.induct with
  | case1 => exact List.Perm.refl _
  | case2 x => exact List.Perm.refl _
  | case3 x y xs ih =>
      cases xs with
      | nil => exact List.Perm.refl _
      | cons z zs =>
          show (x :: (everyOther (z :: zs) ++ (everyOther (y :: z :: zs)))).Perm _
          have hodd : everyOther (y :: z :: zs) = y :: everyOther zs := rfl
          rw [hodd]
          exact (List.perm_middle.trans (ih.cons y)).cons x

theorem everyOther_sublist (xs : List α) : (everyOther xs).Sublist xs := by
  induction xs using everyOther.induct with
  | case1 => exact List.Sublist.refl _
  | case2 x => exact List.Sublist.refl _
  | case3 x y xs ih => exact (ih.cons y).cons_cons x

/-- Heavier and heavier at first, lighter and lighter after. -/
def LightEnds (loads : List ℕ) : Prop :=
  ∃ front back, loads = front ++ back ∧ front.Pairwise (· ≤ ·) ∧ back.Pairwise (· ≥ ·)

theorem sorted_pairwise (workloads : List ℕ) (parts : List (List ℕ)) :
    (parts.insertionSort
      (fun p q => microBatchKey workloads q ≤ microBatchKey workloads p)).Pairwise
      (fun p q => load workloads q ≤ load workloads p) := by
  have : Std.Total (fun p q => microBatchKey workloads q ≤ microBatchKey workloads p) :=
    ⟨fun p q => le_total _ _⟩
  have : IsTrans (List ℕ) (fun p q => microBatchKey workloads q ≤ microBatchKey workloads p) :=
    ⟨fun _ _ _ hpq hqr => hqr.trans hpq⟩
  refine (List.pairwise_insertionSort _ parts).imp (fun hkey => ?_)
  exact (Prod.Lex.toLex_le_toLex.mp hkey).elim le_of_lt (fun h => h.1.le)

theorem balanceMicroBatches_perm (workloads : List ℕ) (parts : List (List ℕ)) :
    (balanceMicroBatches workloads parts).Perm parts := by
  refine List.Perm.trans ?_ (List.perm_insertionSort
    (fun p q => microBatchKey workloads q ≤ microBatchKey workloads p) parts)
  exact ((List.reverse_perm _).append_right _).trans (everyOther_perm _)

theorem balanceMicroBatches_lightEnds (workloads : List ℕ) (parts : List (List ℕ)) :
    LightEnds ((balanceMicroBatches workloads parts).map (load workloads)) := by
  have hsorted := sorted_pairwise workloads parts
  refine ⟨_, _, List.map_append, ?_, ?_⟩
  · rw [List.map_reverse, List.pairwise_reverse]
    exact List.pairwise_map.mpr (hsorted.sublist (everyOther_sublist _))
  · exact List.pairwise_map.mpr
      (hsorted.sublist ((everyOther_sublist _).trans (List.tail_sublist _)))

end Order

/-! ## The cut -/

section Cut

variable {args : MicroBatchArgs} {batch : TokenBatch α} {num k : ℕ}

def gather (rows : List α) (partition : List ℕ) : List α :=
  partition.filterMap (fun i => rows[i]?)

theorem gather_cons {rows : List α} {i : ℕ} (hi : i < rows.length) (partition : List ℕ) :
    gather rows (i :: partition) = rows[i] :: gather rows partition :=
  List.filterMap_cons_some (List.getElem?_eq_getElem hi)

theorem length_gather {rows : List α} {partition : List ℕ}
    (h : ∀ i ∈ partition, i < rows.length) :
    (gather rows partition).length = partition.length := by
  induction partition with
  | nil => rfl
  | cons i partition ih =>
      rw [gather_cons (h i List.mem_cons_self), List.length_cons, List.length_cons,
        ih (fun j hj => h j (List.mem_cons_of_mem _ hj))]

theorem gather_flatten (rows : List α) (parts : List (List ℕ)) :
    gather rows parts.flatten = (parts.map (gather rows)).flatten := by
  induction parts with
  | nil => rfl
  | cons p parts ih =>
      rw [List.flatten_cons, gather, List.filterMap_append, ← gather, ← gather, ih,
        List.map_cons, List.flatten_cons]

theorem indexSelect_ok (rows : List α) {partition : List ℕ}
    (h : ∀ i ∈ partition, i < rows.length) :
    indexSelect rows partition = .ok (gather rows partition) := by
  induction partition with
  | nil => rfl
  | cons i partition ih =>
      have hi := h i List.mem_cons_self
      have htail := ih (fun j hj => h j (List.mem_cons_of_mem _ hj))
      rw [indexSelect] at htail ⊢
      rw [List.mapM_cons, getItem_of_lt hi, ok_bind, htail, gather_cons hi]
      rfl

def tokens (batch : TokenBatch α) (partition : List ℕ) : ℕ := load batch.seqLens partition

/-- What a cut of a batch into `k` micro-batches gives. -/
structure IsCut (args : MicroBatchArgs) (batch : TokenBatch α) (k : ℕ)
    (out : List (List α) × List (List ℕ)) : Prop where
  length_eq : out.2.length = k
  flatten_perm : out.2.flatten.Perm (List.range batch.rows.length)
  ne_nil : ∀ p ∈ out.2, p ≠ []
  rows_eq : out.1 = out.2.map (gather batch.rows)
  within : Within (gap (batch.seqLens.map calculateWorkload) false)
    (out.2.map (load (batch.seqLens.map calculateWorkload)))
  lightEnds : args.useDynamicBszBalance = true →
    LightEnds (out.2.map (load (batch.seqLens.map calculateWorkload)))

theorem IsCut.lt_of_mem {out : List (List α) × List (List ℕ)} (h : IsCut args batch k out)
    {p : List ℕ} (hp : p ∈ out.2) {i : ℕ} (hi : i ∈ p) : i < batch.rows.length :=
  List.mem_range.mp (h.flatten_perm.mem_iff.mp (List.mem_flatten_of_mem hp hi))

theorem cutMicroBatches_spec (batch : TokenBatch α)
    (hround : roundNumMicroBatches args num = .ok k) (hk : 0 < k)
    (hle : k ≤ batch.rows.length) :
    ∃ out, cutMicroBatches args batch num = .ok out ∧ IsCut args batch k out := by
  let workloads := batch.seqLens.map calculateWorkload
  have hlen : workloads.length = batch.rows.length := by
    simp [workloads, TokenBatch.seqLens]
  obtain ⟨parts, hparts⟩ := exists_of_conditions workloads false hk (hlen.symm ▸ hle)
    (fun h => absurd h Bool.false_ne_true)
  have hpart := isPartition_of_ok hparts
  have hwithin := within_of_ok hparts
  rw [hlen] at hpart
  obtain ⟨idx, hidx⟩ : ∃ idx, idx = if args.useDynamicBszBalance then
      balanceMicroBatches workloads parts else parts := ⟨_, rfl⟩
  have hperm : idx.Perm parts := by
    rw [hidx]
    split
    case isTrue => exact balanceMicroBatches_perm _ _
    case isFalse => exact List.Perm.refl _
  have hflat : idx.flatten.Perm (List.range batch.rows.length) :=
    hperm.flatten.trans hpart.flatten_perm
  have hselect : idx.mapM (indexSelect batch.rows) = .ok (idx.map (gather batch.rows)) :=
    mapM_eq_map (fun p hp => indexSelect_ok _ (fun i hi =>
      List.mem_range.mp (hflat.mem_iff.mp (List.mem_flatten_of_mem hp hi))))
  refine ⟨(idx.map (gather batch.rows), idx), ?_, ?_, hflat, ?_, rfl, ?_, ?_⟩
  · rw [cutMicroBatches, hround, ok_bind, if_neg (not_lt.mpr hle)]
    show (getSeqlenBalancedPartitions workloads k false >>= _) = _
    rw [hparts, ok_bind]
    show ((if args.useDynamicBszBalance then balanceMicroBatches workloads parts
      else parts).mapM (indexSelect batch.rows) >>= _) = _
    rw [← hidx, hselect, ok_bind]
    rfl
  · rw [hperm.length_eq, hpart.length_eq]
  · exact fun p hp => hpart.ne_nil p (hperm.mem_iff.mp hp)
  · exact hwithin.perm (hperm.map _).symm
  · intro hbalance
    rw [hidx, if_pos hbalance]
    exact balanceMicroBatches_lightEnds _ _

theorem conditions_of_cut {out : List (List α) × List (List ℕ)}
    (h : cutMicroBatches args batch num = .ok out) :
    ∃ k, roundNumMicroBatches args num = .ok k ∧ 0 < k ∧ k ≤ batch.rows.length := by
  obtain ⟨k, hround, h⟩ := bind_eq_ok.mp h
  split at h
  case isTrue => cases h
  case isFalse hle =>
    obtain ⟨_, hparts, _⟩ := bind_eq_ok.mp h
    exact ⟨k, hround, (conditions_of_ok hparts).1, not_lt.mp hle⟩

/-! ### The tokens of a micro-batch -/

theorem tokens_le_load (seqLens partition : List ℕ) :
    24576 * load seqLens partition ≤ load (seqLens.map calculateWorkload) partition := by
  rw [load, load, ← List.sum_map_mul_left]
  refine List.sum_le_sum (fun i _ => ?_)
  rw [List.getD_eq_getElem?_getD, List.getD_eq_getElem?_getD, List.getElem?_map]
  cases seqLens[i]? with
  | none => exact Nat.zero_le _
  | some s => exact Nat.le_add_right _ _

/-- With no row above `s` it is at most linear as well. -/
theorem workload_le {seqLens : List ℕ} {s : ℕ} (hs : ∀ len ∈ seqLens, len ≤ s) :
    (seqLens.map calculateWorkload).sum ≤ (24576 + s) * seqLens.sum := by
  induction seqLens with
  | nil => exact Nat.zero_le _
  | cons len seqLens ih =>
      have hlen := hs len List.mem_cons_self
      have htail := ih (fun l hl => hs l (List.mem_cons_of_mem _ hl))
      rw [List.map_cons, List.sum_cons, List.sum_cons, Nat.mul_add]
      refine Nat.add_le_add ?_ htail
      rw [calculateWorkload, sq, ← Nat.add_mul]
      exact Nat.mul_le_mul_right len (Nat.add_le_add_left hlen _)

def longest (batch : TokenBatch α) : ℕ := batch.seqLens.max?.getD 0

theorem gap_workloads_le (batch : TokenBatch α) :
    gap (batch.seqLens.map calculateWorkload) false ≤ (24576 + longest batch) * longest batch := by
  rw [gap, if_neg Bool.false_ne_true, Nat.sub_zero]
  cases hmax : (batch.seqLens.map calculateWorkload).max? with
  | none => exact Nat.zero_le _
  | some m =>
      obtain ⟨len, hlen, rfl⟩ := List.mem_map.mp (List.max?_mem hmax)
      have hle : len ≤ longest batch := List.le_max?_getD_of_mem hlen
      rw [Option.getD_some, calculateWorkload, sq, ← Nat.add_mul]
      exact Nat.mul_le_mul (Nat.add_le_add_left hle _) hle

/-- A part has hardly more than an even share of the tokens and the longest row
together. -/
theorem IsCut.tokens_le {out : List (List α) × List (List ℕ)} (h : IsCut args batch k out)
    (hk : 0 < k) {budget : ℕ} (htotal : batch.seqLens.sum ≤ k * budget) {p : List ℕ}
    (hp : p ∈ out.2) :
    24576 * tokens batch p ≤ (24576 + longest batch) * (budget + longest batch) := by
  let workloads := batch.seqLens.map calculateWorkload
  have hsum : (out.2.map (load workloads)).sum = workloads.sum := by
    have hall := (h.flatten_perm.map (fun idx => workloads.getD idx 0)).sum_eq
    have hlen : batch.rows.length = workloads.length := by
      simp [workloads, TokenBatch.seqLens]
    rw [hlen, map_getD_range, List.map_flatten, List.sum_flatten, List.map_map] at hall
    exact hall
  have hmean := h.within.length_nsmul_le (List.mem_map.mpr ⟨p, hp, rfl⟩)
  rw [List.length_map, h.length_eq, hsum, nsmul_eq_mul, nsmul_eq_mul, Nat.cast_id,
    Nat.cast_id] at hmean
  have hwork : workloads.sum ≤ (24576 + longest batch) * (k * budget) :=
    (workload_le (fun len hlen => List.le_max?_getD_of_mem hlen)).trans
      (Nat.mul_le_mul_left _ htotal)
  have hgap : (k - 1) * gap workloads false ≤
      k * ((24576 + longest batch) * longest batch) :=
    Nat.mul_le_mul (Nat.sub_le k 1) (gap_workloads_le batch)
  have hshare : k * load workloads p ≤
      k * ((24576 + longest batch) * (budget + longest batch)) := by
    calc k * load workloads p
        ≤ (24576 + longest batch) * (k * budget) +
            k * ((24576 + longest batch) * longest batch) :=
          hmean.trans (Nat.add_le_add hwork hgap)
      _ = k * ((24576 + longest batch) * (budget + longest batch)) := by ring
  exact (tokens_le_load _ p).trans (Nat.le_of_mul_le_mul_left hshare hk)

end Cut

/-! ## The whole function -/

section Whole

variable {args : MicroBatchArgs} {batch : TokenBatch α}

/-- What is returned is a cut, into at least as many micro-batches as this rank
asked for. -/
theorem isCut_of_ok {num : ℕ} {out : List (List α) × List (List ℕ)}
    (h : cutMicroBatches args batch num = .ok out) :
    ∃ k, 0 < k ∧ num ≤ k ∧ roundNumMicroBatches args num = .ok k ∧ IsCut args batch k out := by
  obtain ⟨k, hround, hk, hle⟩ := conditions_of_cut h
  obtain ⟨out', hout', hcut⟩ := cutMicroBatches_spec batch hround hk hle
  rw [hout'] at h
  cases h
  refine ⟨k, hk, ?_, hround, hcut⟩
  unfold roundNumMicroBatches at hround
  split at hround
  case h_1 divisor _ =>
    unfold roundupDivisible at hround
    split at hround
    case isTrue => cases hround
    case isFalse hne =>
      cases hround
      have := Nat.lt_div_mul_add (a := num + divisor - 1) (Nat.pos_of_ne_zero hne)
      omega
  case h_2 =>
    cases hround
    exact le_rfl

theorem sum_le_of_numMicroBatches {num : ℕ} (h : numMicroBatches args batch = .ok num) :
    batch.seqLens.sum ≤ num * args.maxTokenLen := by
  obtain ⟨needed, hnum, -, hroom, -⟩ := numMicroBatches_spec (fits_of_ok h)
  rw [hnum] at h
  cases h
  refine hroom.trans (Nat.mul_le_mul_right _ ?_)
  cases args.minNumMicroBatch with
  | none => exact le_rfl
  | some minNum => exact le_max_right _ _

/-- The call returns exactly when the longest row is within the budget and the
number of micro-batches, raised and rounded as asked, is neither zero nor more
than the rows.  Then every row is in one micro-batch, once, none is empty, the
heavy ones are in the middle, and none has more tokens than the budget and the
longest row together, but for the part that the quadratic term of the workload
lets in. -/
theorem rearrangeMicroBatches_spec (args : MicroBatchArgs) (batch : TokenBatch α) :
    ((∃ out, rearrangeMicroBatches args batch = .ok out) ↔
      ∃ num k, numMicroBatches args batch = .ok num ∧ roundNumMicroBatches args num = .ok k ∧
        0 < k ∧ k ≤ batch.rows.length) ∧
    ∀ out, rearrangeMicroBatches args batch = .ok out →
      out.2.flatten.Perm (List.range batch.rows.length) ∧
      out.1 = out.2.map (gather batch.rows) ∧ (∀ p ∈ out.2, p ≠ []) ∧
      (args.useDynamicBszBalance = true →
        LightEnds (out.2.map (load (batch.seqLens.map calculateWorkload)))) ∧
      ∀ p ∈ out.2, 24576 * tokens batch p ≤
        (24576 + longest batch) * (args.maxTokenLen + longest batch) := by
  refine ⟨⟨?_, ?_⟩, fun out h => ?_⟩
  · rintro ⟨out, h⟩
    obtain ⟨num, hnum, hcut⟩ := bind_eq_ok.mp h
    obtain ⟨k, hround, hk, hle⟩ := conditions_of_cut hcut
    exact ⟨num, k, hnum, hround, hk, hle⟩
  · rintro ⟨num, k, hnum, hround, hk, hle⟩
    obtain ⟨out, hout, -⟩ := cutMicroBatches_spec batch hround hk hle
    exact ⟨out, by rw [rearrangeMicroBatches, hnum, ok_bind, hout]⟩
  · obtain ⟨num, hnum, hout⟩ := bind_eq_ok.mp h
    obtain ⟨k, hk, hnumk, -, hcut⟩ := isCut_of_ok hout
    refine ⟨hcut.flatten_perm, hcut.rows_eq, hcut.ne_nil, hcut.lightEnds, fun p hp => ?_⟩
    exact hcut.tokens_le hk
      ((sum_le_of_numMicroBatches hnum).trans (Nat.mul_le_mul_right _ hnumk)) hp

end Whole

/-! ## A group of ranks -/

section Group

variable {args : MicroBatchArgs} {n : ℕ}

/-- Raised to a minimum that there are rows for, a rank's own number is at most the rows. -/
theorem numMicroBatches_le {batch : TokenBatch α} (hrows : batch.rows.length = n)
    (hfits : Fits args batch) (htokens : 0 < batch.seqLens.sum)
    (hmin : ∀ minNum ∈ args.minNumMicroBatch, minNum ≤ n) :
    ∃ num, numMicroBatches args batch = .ok num ∧ 0 < num ∧ num ≤ n := by
  obtain ⟨needed, hnum, hle, -, hpos⟩ := numMicroBatches_spec hfits
  rw [hrows] at hle
  have hneeded := hpos htokens
  cases hminNum : args.minNumMicroBatch with
  | none =>
      rw [hminNum] at hnum
      exact ⟨needed, hnum, hneeded, hle⟩
  | some minNum =>
      rw [hminNum] at hnum
      exact ⟨max minNum needed, hnum, lt_max_of_lt_right hneeded, max_le (hmin minNum hminNum) hle⟩

theorem roundNumMicroBatches_le
    (hdivisor : ∀ divisor ∈ args.numBatchesDividedBy, 0 < divisor ∧ divisor ∣ n) {num : ℕ}
    (hle : num ≤ n) : ∃ k, roundNumMicroBatches args num = .ok k ∧ num ≤ k ∧ k ≤ n := by
  unfold roundNumMicroBatches
  cases hdiv : args.numBatchesDividedBy with
  | none => exact ⟨num, rfl, le_rfl, hle⟩
  | some divisor =>
      obtain ⟨hdpos, hdvd⟩ := hdivisor divisor hdiv
      exact roundupDivisible_spec hdpos hdvd hle

section Agree

variable {batches : List (TokenBatch α)} (hrows : ∀ batch ∈ batches, batch.rows.length = n)
include hrows

/-- The largest number of a rank has room for every rank, and no rank is short of rows. -/
theorem largest_of_group (hne : batches ≠ []) (hfits : ∀ batch ∈ batches, Fits args batch)
    (htokens : ∀ batch ∈ batches, 0 < batch.seqLens.sum)
    (hmin : ∀ minNum ∈ args.minNumMicroBatch, minNum ≤ n) :
    ∃ nums num, batches.mapM (numMicroBatches args) = .ok nums ∧ maxItem nums = .ok num ∧
      0 < num ∧ num ≤ n ∧
      ∀ batch ∈ batches, batch.seqLens.sum ≤ num * args.maxTokenLen := by
  have hnum := fun batch hbatch => numMicroBatches_le (hrows batch hbatch)
    (hfits batch hbatch) (htokens batch hbatch) hmin
  obtain ⟨nums, hnums⟩ := mapM_returns (fun batch hbatch =>
    (hnum batch hbatch).imp (fun _ h => h.1))
  have hnumsne : nums ≠ [] := by
    rintro rfl
    exact hne (List.length_eq_zero_iff.mp (mapM_eq_ok.mp hnums).length_eq)
  obtain ⟨num, hmax, hlargest⟩ := maxItem_ok hnumsne
  obtain ⟨hown, hbatch⟩ := mem_of_mapM hnums
  have hbounds : 0 < num ∧ num ≤ n := by
    obtain ⟨batch, hmem, hb⟩ := hbatch num (mem_of_maxItem hmax)
    obtain ⟨num', hnum', hbounds⟩ := hnum batch hmem
    rw [hb] at hnum'
    cases hnum'
    exact hbounds
  refine ⟨nums, num, hnums, hmax, hbounds.1, hbounds.2, fun batch hmem => ?_⟩
  -- a rank's own number is at most the one agreed on
  obtain ⟨own, hin, hb⟩ := hown batch hmem
  exact (sum_le_of_numMicroBatches hb).trans (Nat.mul_le_mul_right _ (hlargest own hin))

/-- All ranks cut alike at a number that their rows allow. -/
theorem cut_of_group {num k : ℕ} (hround : roundNumMicroBatches args num = .ok k) (hpos : 0 < k)
    (hle : k ≤ n) : ∃ outs, batches.mapM (fun batch => cutMicroBatches args batch num) = .ok outs ∧
      List.Forall₂ (fun batch out => batch ∈ batches ∧ IsCut args batch k out) batches outs := by
  obtain ⟨outs, houts⟩ := mapM_returns (f := fun batch => cutMicroBatches args batch num)
    (fun batch hbatch => by
      obtain ⟨out, hout, -⟩ := cutMicroBatches_spec batch hround hpos
        (hle.trans (hrows batch hbatch).ge)
      exact ⟨out, hout⟩)
  have hcut : ∀ (batch : TokenBatch α) out, cutMicroBatches args batch num = .ok out →
      IsCut args batch k out := by
    intro batch out hout
    obtain ⟨k', _, _, hround', hcut⟩ := isCut_of_ok hout
    rw [hround] at hround'
    cases hround'
    exact hcut
  exact ⟨outs, houts, (List.forall₂_and_left _ _).mpr
    ⟨fun _ h => h, (mapM_eq_ok.mp houts).imp hcut⟩⟩

end Agree

/-! ### Two ranks of three rows

The first needs two micro-batches for its eight tokens, the second one would do
with one.  The first of the two has five tokens, one more than the budget. -/

/-- A rank whose rows are just their numbers of tokens. -/
def countedRows (rows : List ℕ) : TokenBatch ℕ where
  rows := rows
  seqLen := id
  width := none
  seqLen_le := fun _ h => by cases h

def fourTokens : MicroBatchArgs where
  maxTokenLen := 4
  numBatchesDividedBy := none
  minNumMicroBatch := none
  useDynamicBszBalance := true

example : rearrangeInGroup fourTokens [countedRows [3, 3, 2], countedRows [1, 1, 1]] =
    .ok [([[3, 2], [3]], [[0, 2], [1]]), ([[1, 1], [1]], [[0, 1], [2]])] := by
  decide +kernel

end Group

/-! ## There and back -/

section Restore

open Reindex

variable {args : MicroBatchArgs} {batch : TokenBatch α}

theorem eq_of_restores_gather {order : List ℕ} {rows ys : List α}
    (h : order.Perm (List.range rows.length)) (hys : Restores order (gather rows order) ys) :
    ys = rows := by
  have hlen : ys.length = rows.length := by
    rw [hys.1, h.length_eq, List.length_range]
  refine List.ext_getElem? (fun i => ?_)
  by_cases hi : i < rows.length
  · rw [List.getElem?_eq_getElem hi]
    refine hys.2 i _ ?_
    obtain ⟨front, back, rfl⟩ := List.append_of_mem (h.mem_iff.mpr (List.mem_range.mpr hi))
    have hfront : (gather rows front).length = front.length :=
      length_gather (fun j hj => List.mem_range.mp (h.mem_iff.mp (List.mem_append_left _ hj)))
    rw [gather, List.filterMap_append, ← gather, ← gather, gather_cons hi,
      List.zip_append hfront.symm]
    exact List.mem_append_right _ List.mem_cons_self
  · rw [List.getElem?_eq_none (by omega), List.getElem?_eq_none (by omega)]

/-- Picking rows of two columns and working on each pair is picking from the
results. -/
theorem zipWith_gather (f : α → β → γ) {rows : List α} {nonTensors : List β}
    (hlen : nonTensors.length = rows.length) {partition : List ℕ}
    (h : ∀ i ∈ partition, i < rows.length) :
    List.zipWith f (gather rows partition) (gather nonTensors partition) =
      gather (List.zipWith f rows nonTensors) partition := by
  induction partition with
  | nil => rfl
  | cons i partition ih =>
      have hi := h i List.mem_cons_self
      have htail := ih (fun j hj => h j (List.mem_cons_of_mem _ hj))
      have hi' : i < nonTensors.length := by omega
      have hz : i < (List.zipWith f rows nonTensors).length := by
        rw [List.length_zipWith]
        omega
      rw [gather_cons hi, gather_cons hi', gather_cons hz, List.zipWith_cons_cons,
        List.getElem_zipWith, htail]

theorem prepareDynamicBatch_eq {nonTensors : List β}
    (hlen : nonTensors.length = batch.rows.length) {out : List (List α) × List (List ℕ)}
    (hout : rearrangeMicroBatches args batch = .ok out) {k : ℕ} (hcut : IsCut args batch k out) :
    prepareDynamicBatch args batch nonTensors =
      .ok (out.2.map (fun p => (gather batch.rows p, gather nonTensors p)), out.2) := by
  have hzip : out.1.zip out.2 = out.2.map (fun p => (gather batch.rows p, p)) := by
    rw [hcut.rows_eq, List.zip_map_left]
    induction out.2 with
    | nil => rfl
    | cons p parts ih => rw [List.zip_cons_cons, List.map_cons, List.map_cons, ih]; rfl
  have hpick : (out.1.zip out.2).mapM (fun (tensors, batchIdx) => do
      let nonTensors ← indexSelect nonTensors batchIdx
      (pure (tensors, nonTensors) : Except Error (List α × List β))) =
      .ok (out.2.map (fun p => (gather batch.rows p, gather nonTensors p))) := by
    rw [hzip, List.mapM_map]
    refine mapM_eq_map (fun p hp => ?_)
    show (indexSelect nonTensors p >>= _) = _
    rw [indexSelect_ok _ (fun i hi => hlen ▸ hcut.lt_of_mem hp hi)]
    rfl
  rw [prepareDynamicBatch, hout, ok_bind]
  show (_ >>= _) = _
  rw [hpick]
  rfl

/-- Work done row by row on the micro-batches and put back is work done row by
row on the batch, whatever the work is. -/
theorem restoreDynamicBatch_prepareDynamicBatch (args : MicroBatchArgs) (batch : TokenBatch α)
    {nonTensors : List β} (hlen : nonTensors.length = batch.rows.length) (f : α → β → γ)
    {microBatches : List (List α × List β)} {batchIdxList : List (List ℕ)}
    (h : prepareDynamicBatch args batch nonTensors = .ok (microBatches, batchIdxList)) :
    Actor.restoreDynamicBatch
        (microBatches.flatMap (fun microBatch => List.zipWith f microBatch.1 microBatch.2))
        batchIdxList =
      .ok (List.zipWith f batch.rows nonTensors) := by
  obtain ⟨out, hout, -⟩ := bind_eq_ok.mp h
  obtain ⟨num, -, hnum⟩ := bind_eq_ok.mp hout
  obtain ⟨k, -, -, -, hcut⟩ := isCut_of_ok hnum
  rw [prepareDynamicBatch_eq hlen hout hcut] at h
  cases h
  let whole := List.zipWith f batch.rows nonTensors
  have hwhole : whole.length = batch.rows.length := by
    simp [whole, hlen]
  have hdata : (out.2.map (fun p => (gather batch.rows p, gather nonTensors p))).flatMap
      (fun microBatch => List.zipWith f microBatch.1 microBatch.2) =
        gather whole out.2.flatten := by
    rw [gather_flatten, List.flatMap_map, List.flatMap_def]
    exact congrArg List.flatten (List.map_congr_left (fun p hp =>
      zipWith_gather f hlen (fun i hi => hcut.lt_of_mem hp hi)))
  have hperm : out.2.flatten.Perm (List.range whole.length) := by
    rw [hwhole]
    exact hcut.flatten_perm
  have hcount : out.2.flatten.length = whole.length := by
    rw [hperm.length_eq, List.length_range]
  have hpicked : (gather whole out.2.flatten).length = out.2.flatten.length :=
    length_gather (fun i hi => List.mem_range.mp (hperm.mem_iff.mp hi))
  obtain ⟨ys, hys, hrestores⟩ := Actor.restoreDynamicBatch_ok (hcount ▸ hperm) hpicked
  rw [hdata, hys, eq_of_restores_gather hperm hrestores]

theorem restoreDynamicBatch_prepareDynamicBatch_three :
    Actor.restoreDynamicBatch
        ([([3, 2], [10, 30]), ([3], [20])].flatMap
          (fun microBatch => List.zipWith (· + ·) microBatch.1 microBatch.2))
        [[0, 2], [1]] =
      .ok (List.zipWith (· + ·) [3, 3, 2] [10, 20, 30]) :=
  restoreDynamicBatch_prepareDynamicBatch fourTokens (countedRows [3, 3, 2])
    (show [10, 20, 30].length = (countedRows [3, 3, 2]).rows.length from rfl) (· + ·)
    (show prepareDynamicBatch fourTokens (countedRows [3, 3, 2]) [10, 20, 30] = _ by
      decide +kernel)

end Restore

end RLCM.Balancing
