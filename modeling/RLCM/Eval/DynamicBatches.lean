/-
# `RLCM.Eval.DynamicBatches` — the batches of the extraction are a greedy cut

`create_dynamic_batches` keeps a running quota, a double, beside the open batch.  The
invariant of its loop ties the two: the running quota is the total of the open
batch, and the batches so far with the open one are a greedy cut of the indices
seen.  A sequence that is over the quota by itself gets a batch of its own.

The indices of the extraction are sorted by length, longest first, so a batch
is padded to the length of its first sequence.
-/
import RLCM.Eval.HiddenStates
import RLCM.Lib.GreedyCut
import RLCM.Py.Nearest

namespace RLCM.Eval

open Py GreedyCut

variable {Token : Type}

/-- The quota of the sequence at `idx`. -/
def indexQuota (seqLengths : List ℕ) (idx : ℕ) : ℚ := computeSeqQuota (seqLengths.getD idx 0)

theorem addDouble_zero_computeSeqQuota (seqLen : ℕ) :
    addDouble 0 (computeSeqQuota seqLen) = computeSeqQuota seqLen := by
  have hquota : IsDouble (computeSeqQuota seqLen) := by
    rw [computeSeqQuota]
    split
    case isTrue => exact isDouble_roundDouble _
    case isFalse => exact isDouble_roundDouble _
  rw [addDouble, zero_add]
  exact hquota.roundDouble_eq

/-! ## The loop -/

section Loop

variable {seqLengths : List ℕ} {maxQuota : ℚ} {maxBatchSize : ℕ}

/-- What the loop knows once it has seen `indices`. -/
structure BatchInvariant (seqLengths : List ℕ) (maxQuota : ℚ) (maxBatchSize : ℕ)
    (indices : List ℕ) (st : BatchLoop) : Prop where
  quota_eq : st.currentQuota = total addDouble (indexQuota seqLengths) st.currentBatch
  open_eq_nil : st.currentBatch = [] → st.batches = [] ∧ indices = []
  cut : st.currentBatch ≠ [] →
    IsGreedyCut addDouble (indexQuota seqLengths) maxQuota maxBatchSize indices
      (st.batches ++ [st.currentBatch])

theorem batchStep_invariant (hsize : 1 ≤ maxBatchSize) {indices : List ℕ} {st : BatchLoop}
    (h : BatchInvariant seqLengths maxQuota maxBatchSize indices st) (idx : ℕ) :
    BatchInvariant seqLengths maxQuota maxBatchSize (indices ++ [idx])
      (batchStep seqLengths maxQuota maxBatchSize st idx) := by
  have htest : (maxQuota < addDouble st.currentQuota (computeSeqQuota (seqLengths.getD idx 0)) ∨
      maxBatchSize ≤ st.currentBatch.length) ↔
      Full addDouble (indexQuota seqLengths) maxQuota maxBatchSize st.currentBatch idx := by
    rw [h.quota_eq, Full, Nat.lt_succ_iff]
    rfl
  unfold batchStep
  dsimp only
  split_ifs with hfull
  · refine ⟨rfl, fun hnil => absurd hnil (List.cons_ne_nil _ _), ?_⟩
    intro _
    refine (h.cut hfull.1).start hsize (fun part hpart => ?_)
    rw [List.getLast?_concat] at hpart
    obtain rfl := Option.some.inj hpart
    exact htest.mp hfull.2
  · refine ⟨?_, fun hnil => absurd (List.append_eq_nil_iff.mp hnil).2 (List.cons_ne_nil _ _), ?_⟩
    · rcases Decidable.em (st.currentBatch = []) with hnil | hopen
      · -- `0.0 + q` is `q`
        rw [h.quota_eq, hnil]
        exact addDouble_zero_computeSeqQuota _
      · rw [total_concat hopen, ← h.quota_eq]
        rfl
    · intro _
      rcases Decidable.em (st.currentBatch = []) with hnil | hopen
      · -- nothing is open: this is the first index
        obtain ⟨hbatches, hindices⟩ := h.open_eq_nil hnil
        rw [hnil, hbatches, hindices]
        exact isGreedyCut_nil.start hsize (fun part hpart => by cases hpart)
      · exact (h.cut hopen).extend (fun hroom => hfull ⟨hopen, htest.mpr hroom⟩)

theorem foldl_batchStep_invariant (hsize : 1 ≤ maxBatchSize) (indices seen : List ℕ)
    {st : BatchLoop} (h : BatchInvariant seqLengths maxQuota maxBatchSize seen st) :
    BatchInvariant seqLengths maxQuota maxBatchSize (seen ++ indices)
      (indices.foldl (batchStep seqLengths maxQuota maxBatchSize) st) := by
  induction indices generalizing seen st with
  | nil =>
      rw [List.append_nil]
      exact h
  | cons idx indices ih =>
      have := ih (seen ++ [idx]) (batchStep_invariant hsize h idx)
      rwa [List.append_assoc] at this

theorem createDynamicBatches_isGreedyCut (sortedIndices : List ℕ) (hsize : 1 ≤ maxBatchSize) :
    IsGreedyCut addDouble (indexQuota seqLengths) maxQuota maxBatchSize sortedIndices
      (createDynamicBatches sortedIndices seqLengths maxQuota maxBatchSize) := by
  have hinit : BatchInvariant seqLengths maxQuota maxBatchSize [] ⟨[], [], 0⟩ :=
    ⟨rfl, fun _ => ⟨rfl, rfl⟩, fun hne => absurd rfl hne⟩
  have h := foldl_batchStep_invariant hsize sortedIndices [] hinit
  rw [List.nil_append] at h
  unfold createDynamicBatches
  dsimp only
  split_ifs with hopen
  · exact h.cut hopen
  · obtain ⟨hbatches, hindices⟩ := h.open_eq_nil (not_not.mp hopen)
    rw [hbatches, hindices]
    exact isGreedyCut_nil

end Loop

/-! ## Padding -/

theorem maxItem_of_first_largest {x : ℕ} {xs : List ℕ} (h : ∀ y ∈ xs, y ≤ x) :
    maxItem (x :: xs) = .ok x := by
  have hmax : (x :: xs).max? = some x := by
    refine List.max?_eq_some_iff.mpr ⟨List.mem_cons_self, fun y hy => ?_⟩
    rcases List.mem_cons.mp hy with rfl | hy
    · exact le_rfl
    · exact h y hy
  exact congrArg Except.ok (Option.some.inj hmax)

theorem sortedByLength_pairwise (seqLengths : List ℕ) :
    (sortedByLength seqLengths).Pairwise
      (fun i j => seqLengths.getD j 0 ≤ seqLengths.getD i 0) := by
  have : Std.Total (fun i j => seqLengths.getD j 0 ≤ seqLengths.getD i 0) :=
    ⟨fun i j => le_total _ _⟩
  have : IsTrans ℕ (fun i j => seqLengths.getD j 0 ≤ seqLengths.getD i 0) :=
    ⟨fun _ _ _ hij hjk => le_trans hjk hij⟩
  exact List.pairwise_insertionSort _ _

theorem first_longest {seqLengths sortedIndices : List ℕ} {maxQuota : ℚ} {maxBatchSize : ℕ}
    (hsize : 1 ≤ maxBatchSize)
    (hsorted : sortedIndices.Pairwise (fun i j => seqLengths.getD j 0 ≤ seqLengths.getD i 0))
    {batch : List ℕ}
    (hbatch : batch ∈ createDynamicBatches sortedIndices seqLengths maxQuota maxBatchSize) :
    ∃ first rest, batch = first :: rest ∧
      (∀ idx ∈ batch, seqLengths.getD idx 0 ≤ seqLengths.getD first 0) ∧
      maxItem (batch.map (fun idx => seqLengths.getD idx 0)) = .ok (seqLengths.getD first 0) := by
  have hcut : IsGreedyCut addDouble (indexQuota seqLengths) maxQuota maxBatchSize sortedIndices
      (createDynamicBatches sortedIndices seqLengths maxQuota maxBatchSize) :=
    createDynamicBatches_isGreedyCut sortedIndices hsize
  obtain ⟨first, rest, rfl⟩ := List.exists_cons_of_ne_nil (hcut.ne_nil batch hbatch)
  have hrest := (List.pairwise_cons.mp (hcut.pairwise hsorted _ hbatch)).1
  refine ⟨first, rest, rfl, ?_, ?_⟩
  · intro idx hidx
    rcases List.mem_cons.mp hidx with rfl | hidx
    · exact le_rfl
    · exact hrest idx hidx
  · rw [List.map_cons]
    refine maxItem_of_first_largest (fun len hlen => ?_)
    obtain ⟨idx, hidx, rfl⟩ := List.mem_map.mp hlen
    exact hrest idx hidx

/-- Where `extract_hidden_states_dynamic` pads: the rows of a batch get the
length of its first sequence. -/
theorem padded_to_first (padTokenId : Token) (tokenized : List (List Token)) (maxQuota : ℚ)
    {maxBatchSize : ℕ} (hsize : 1 ≤ maxBatchSize) {batch : List ℕ}
    (hbatch : batch ∈ createDynamicBatches (sortedByLength (tokenized.map List.length))
      (tokenized.map List.length) maxQuota maxBatchSize) :
    ∃ first seqs, batch.mapM (getItem tokenized) = .ok (first :: seqs) ∧
      maxItem ((first :: seqs).map List.length) = .ok first.length ∧
      ∀ seq ∈ first :: seqs,
        (leftPad padTokenId (first.length - seq.length) seq).length = first.length := by
  have hlt : ∀ idx ∈ batch, idx < tokenized.length := by
    intro idx hidx
    have hmem := (dynamicBatches_perm (tokenized.map List.length) maxQuota maxBatchSize).mem_iff.mp
      (List.mem_flatten.mpr ⟨batch, hbatch, hidx⟩)
    rw [List.length_map] at hmem
    exact List.mem_range.mp hmem
  have hseqs : batch.mapM (getItem tokenized) =
      .ok (batch.map (fun idx => tokenized.getD idx [])) := by
    refine mapM_eq_map (fun idx hidx => ?_)
    rw [getItem_of_lt (hlt idx hidx), List.getD_eq_getElem _ _ (hlt idx hidx)]
  have hlen : ∀ idx, (tokenized.map List.length).getD idx 0 = (tokenized.getD idx []).length :=
    fun idx => List.getD_map _ [] List.length
  obtain ⟨first, rest, rfl, hle, hmax⟩ :=
    first_longest hsize (sortedByLength_pairwise (tokenized.map List.length)) hbatch
  simp only [hlen] at hle hmax
  refine ⟨tokenized.getD first [], rest.map (fun idx => tokenized.getD idx []), hseqs, ?_, ?_⟩
  · rw [← List.map_cons (f := fun idx => tokenized.getD idx []), List.map_map]
    exact hmax
  · intro seq hseq
    rw [← List.map_cons (f := fun idx => tokenized.getD idx [])] at hseq
    obtain ⟨idx, hidx, rfl⟩ := List.mem_map.mp hseq
    rw [length_leftPad]
    exact Nat.sub_add_cancel (hle idx hidx)

/-! ## The batches as a whole -/

/-- `create_dynamic_batches` cuts the indices greedily, whatever their order and the quota, the
quotas and their totals being the doubles that the code computes; on indices sorted by length the
first sequence of every batch is its longest, and the extraction pads every batch to that
length. -/
theorem dynamic_batches_greedy (seqLengths : List ℕ) (maxQuota : ℚ) (maxBatchSize : ℕ)
    (hsize : 1 ≤ maxBatchSize) :
    (∀ sortedIndices, IsGreedyCut addDouble (indexQuota seqLengths) maxQuota maxBatchSize
      sortedIndices (createDynamicBatches sortedIndices seqLengths maxQuota maxBatchSize)) ∧
    (∀ sortedIndices : List ℕ,
      sortedIndices.Pairwise (fun i j => seqLengths.getD j 0 ≤ seqLengths.getD i 0) →
        ∀ batch ∈ createDynamicBatches sortedIndices seqLengths maxQuota maxBatchSize,
          ∃ first rest, batch = first :: rest ∧
            (∀ idx ∈ batch, seqLengths.getD idx 0 ≤ seqLengths.getD first 0) ∧
            maxItem (batch.map (fun idx => seqLengths.getD idx 0)) =
              .ok (seqLengths.getD first 0)) ∧
    (∀ (padTokenId : Token) (tokenized : List (List Token)),
      tokenized.map List.length = seqLengths →
        ∀ batch ∈ createDynamicBatches (sortedByLength seqLengths) seqLengths maxQuota
            maxBatchSize,
          ∃ first seqs, batch.mapM (getItem tokenized) = .ok (first :: seqs) ∧
            maxItem ((first :: seqs).map List.length) = .ok first.length ∧
            ∀ seq ∈ first :: seqs,
              (leftPad padTokenId (first.length - seq.length) seq).length = first.length) := by
  refine ⟨?_, ?_, ?_⟩
  · intro sortedIndices
    exact createDynamicBatches_isGreedyCut sortedIndices hsize
  · intro sortedIndices hsorted batch hbatch
    exact first_longest hsize hsorted hbatch
  · intro padTokenId tokenized hlens batch hbatch
    rw [← hlens] at hbatch
    exact padded_to_first padTokenId tokenized maxQuota hsize hbatch

/-- The totals are those of the doubles: exactly, two sequences of 4600 tokens cost 9890. -/
example : createDynamicBatches [0, 1] [4600, 4600] 9890 8 = [[0], [1]] := by decide +kernel

/-- Three short sequences and one over the quota, at most two a batch. -/
theorem dynamic_batches_greedy_four :
    createDynamicBatches [1, 0, 3, 2] [3, 9, 1, 2] 5 2 = [[1], [0, 3], [2]] ∧
      IsGreedyCut addDouble (indexQuota [3, 9, 1, 2]) 5 2 [1, 0, 3, 2] [[1], [0, 3], [2]] := by
  have hbatches : createDynamicBatches [1, 0, 3, 2] [3, 9, 1, 2] 5 2 = [[1], [0, 3], [2]] := by
    decide +kernel
  refine ⟨hbatches, ?_⟩
  rw [← hbatches]
  exact (@dynamic_batches_greedy ℕ [3, 9, 1, 2] 5 2 (by decide)).1 [1, 0, 3, 2]

end RLCM.Eval
