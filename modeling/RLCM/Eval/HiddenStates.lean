/-
# `RLCM.Eval.HiddenStates` — one hidden state for every record

`3_reproduce_hidden_states_extraction.py` runs the model on the text of every
record of the budget evaluation and keeps the last hidden state.  To save
padding it sorts the records by length, cuts the sorted list into batches under
a quota, pads every batch on the left, and writes each result back to the place
of its record.

The model is a parameter: the states its hooked layer gives for a batch.  What
is assumed of it is `RowWise` (a row of a batch is computed from the row alone)
and `PadInsensitive` (masked padding on the left does not change the last
state).  `extractHiddenStatesDynamic_eq` then says that order, batches and padding do
not show: the state of a record is the one of its sequence run alone.
-/
import Mathlib.Data.List.GetD
import Mathlib.Data.List.Sort
import RLCM.Eval.NaturalEval
import RLCM.Lib.Scatter
import RLCM.Py.Float

namespace RLCM.Eval

open Py

variable {Token F : Type}

/-! ## Batches -/

/-- `compute_seq_quota`, a double.  A length converts exactly up to `2 ^ 53`; nothing
overflows for the length of a list. -/
def computeSeqQuota (seqLen : ℕ) : ℚ :=
  let len := roundDouble seqLen
  if 4000 < seqLen then
    roundDouble (mulDouble (addDouble 1 (mulDouble (roundDouble (25 / 100000)) len)) len / 2)
  else len

/-- What the loop over the sorted indices fills. -/
structure BatchLoop where
  batches : List (List ℕ)
  currentBatch : List ℕ
  currentQuota : ℚ

/-- The body of the loop: start a new batch if the current one is full. -/
def batchStep (seqLengths : List ℕ) (maxQuota : ℚ) (maxBatchSize : ℕ) (st : BatchLoop)
    (idx : ℕ) : BatchLoop :=
  let seqQuota := computeSeqQuota (seqLengths.getD idx 0)
  if st.currentBatch ≠ [] ∧
      (maxQuota < addDouble st.currentQuota seqQuota ∨ maxBatchSize ≤ st.currentBatch.length) then
    { batches := st.batches ++ [st.currentBatch]
      currentBatch := [idx]
      currentQuota := seqQuota }
  else
    { st with
      currentBatch := st.currentBatch ++ [idx]
      currentQuota := addDouble st.currentQuota seqQuota }

/-- `create_dynamic_batches`; the indices are positions of `seqLengths`. -/
def createDynamicBatches (sortedIndices seqLengths : List ℕ) (maxQuota : ℚ)
    (maxBatchSize : ℕ) : List (List ℕ) :=
  let st := sortedIndices.foldl (batchStep seqLengths maxQuota maxBatchSize) ⟨[], [], 0⟩
  if st.currentBatch ≠ [] then st.batches ++ [st.currentBatch] else st.batches

/-- `sorted(range(num_samples), key=lambda x: seq_lengths[x], reverse=True)`. -/
def sortedByLength (seqLengths : List ℕ) : List ℕ :=
  (List.range seqLengths.length).insertionSort
    (fun i j => seqLengths.getD j 0 ≤ seqLengths.getD i 0)

/-! ## The model -/

/-- The states of the hooked layer for `input_ids` and `attention_mask`: one row
a sequence, one state a position. -/
abbrev Forward (Token F : Type) := List (List Token) → List (List ℕ) → List (List F)

/-- Every row of a rectangular batch is computed by `row` from that row. -/
structure RowWise (forward : Forward Token F) (row : List Token → List ℕ → List F) : Prop where
  forward_eq : ∀ (width : ℕ) (inputIds : List (List Token)) (attentionMask : List (List ℕ)),
    (∀ ids ∈ inputIds, ids.length = width) → (∀ mask ∈ attentionMask, mask.length = width) →
      inputIds.length = attentionMask.length →
        forward inputIds attentionMask = List.zipWith row inputIds attentionMask
  length_row : ∀ ids mask, ids.length = mask.length → (row ids mask).length = ids.length

/-- A sequence with `n` masked padding tokens before it. -/
def leftPad (padTokenId : Token) (n : ℕ) (seq : List Token) : List Token :=
  List.replicate n padTokenId ++ seq

def leftMask (n : ℕ) (seq : List Token) : List ℕ :=
  List.replicate n 0 ++ List.replicate seq.length 1

/-- The last state of a row does not depend on the padding before it. -/
def PadInsensitive (row : List Token → List ℕ → List F) (padTokenId : Token) : Prop :=
  ∀ (n : ℕ) (seq : List Token), seq ≠ [] →
    (row (leftPad padTokenId n seq) (leftMask n seq)).getLast? =
      (row seq (leftMask 0 seq)).getLast?

/-- `extract_hidden_state` after tokenization: the sequence run alone. -/
def extractHiddenState (forward : Forward Token F) (inputIds : List Token) : Except Error F := do
  let hiddenStates ← getItem (forward [inputIds] [leftMask 0 inputIds]) 0
  getItem hiddenStates (inputIds.length - 1)

/-! ## The extraction -/

section Extraction

variable (forward : Forward Token F) (padTokenId : Token)

/-- The inner loop over a batch: `all_hidden_states[sample_idx] = …`. -/
def storeBatch (batchSeqs : List (List Token)) (maxLen : ℕ) (hiddenStates : List (List F))
    (allHiddenStates : List F) (sample : ℕ × ℕ) : Except Error (List F) := do
  let seq ← getItem batchSeqs sample.2
  let padLen := maxLen - seq.length
  let lastPos := padLen + seq.length - 1
  let row ← getItem hiddenStates sample.2
  setItem allHiddenStates sample.1 (← getItem row lastPos)

/-- The body of the loop over the batches. -/
def extractBatch (tokenizedSequences : List (List Token)) (allHiddenStates : List F)
    (batchIndices : List ℕ) : Except Error (List F) := do
  let batchSeqs ← batchIndices.mapM (getItem tokenizedSequences)
  let maxLen ← maxItem (batchSeqs.map List.length)
  let hiddenStates := forward
    (batchSeqs.map (fun seq => leftPad padTokenId (maxLen - seq.length) seq))
    (batchSeqs.map (fun seq => leftMask (maxLen - seq.length) seq))
  batchIndices.zipIdx.foldlM (storeBatch batchSeqs maxLen hiddenStates) allHiddenStates

/-- `extract_hidden_states_dynamic`; `zero` is a row of zeros. -/
def extractHiddenStatesDynamic (zero : F) (tokenizedSequences : List (List Token))
    (maxBatchQuota : ℚ) (maxBatchSize : ℕ) : Except Error (List F) :=
  let seqLengths := tokenizedSequences.map List.length
  (createDynamicBatches (sortedByLength seqLengths) seqLengths maxBatchQuota
    maxBatchSize).foldlM (extractBatch forward padTokenId tokenizedSequences)
      (List.replicate tokenizedSequences.length zero)

/-- `build_sequence` on a record, which has a prompt and a thinking and no
`output`. -/
def buildSequence (item : BudgetRow) : Str := item.prompt ++ item.truncatedCot

/-- The tokens of a record; `encode` truncates to `max_seq_len`. -/
def tokenizeRecord (encode : Str → List Token) (item : BudgetRow) : List Token :=
  let inputIds := encode (buildSequence item)
  if inputIds = [] then [padTokenId] else inputIds

/-- `main`: the `hidden_states` of the file. -/
def extractHiddenStates (zero : F) (encode : Str → List Token) (data : List BudgetRow)
    (maxBatchQuota : ℚ) (maxBatchSize : ℕ) : Except Error (List F) :=
  extractHiddenStatesDynamic forward padTokenId zero
    (data.map (tokenizeRecord padTokenId encode)) maxBatchQuota maxBatchSize

end Extraction

/-- What the model reads for the records of an evaluation: the prompt of every rollout, and its
thinking cut at every budget. -/
theorem map_buildSequence_budgetRows (tok : Tokenizer Token) (args : BudgetEvalArgs)
    (data : List Rollout) :
    (budgetRows tok args data).map buildSequence = data.flatMap (fun item =>
      args.budgets.map (fun budget => item.input ++ truncatedCot tok budget item)) := by
  have hrow : ∀ item : Rollout × ℕ, (args.budgets.map (rowAt tok item.2 item.1)).map
      buildSequence = args.budgets.map (fun budget =>
        item.1.input ++ truncatedCot tok budget item.1) := by
    intro item
    rw [List.map_map]
    rfl
  rw [budgetRows_eq, List.map_flatMap]
  simp only [hrow]
  conv_rhs => rw [← List.zipIdx_map_fst 0 data, List.flatMap_map]

/-! ## Batches keep every index once -/

theorem foldl_batchStep (seqLengths : List ℕ) (maxQuota : ℚ) (maxBatchSize : ℕ)
    (indices : List ℕ) (st : BatchLoop) :
    let st' := indices.foldl (batchStep seqLengths maxQuota maxBatchSize) st
    st'.batches.flatten ++ st'.currentBatch =
        st.batches.flatten ++ st.currentBatch ++ indices ∧
      ((∀ batch ∈ st.batches, batch ≠ []) → ∀ batch ∈ st'.batches, batch ≠ []) := by
  induction indices generalizing st with
  | nil => exact ⟨by simp, fun h => h⟩
  | cons idx indices ih =>
      obtain ⟨hflat, hne⟩ := ih (batchStep seqLengths maxQuota maxBatchSize st idx)
      rw [List.foldl_cons]
      refine ⟨?_, fun hst => hne ?_⟩
      · rw [hflat]
        unfold batchStep
        dsimp only
        split_ifs
        · simp
        · simp
      · unfold batchStep
        dsimp only
        split_ifs with hfull
        · intro batch hbatch
          rcases List.mem_append.mp hbatch with hbatch | hbatch
          · exact hst batch hbatch
          · rw [List.mem_singleton.mp hbatch]
            exact hfull.1
        · exact hst

theorem flatten_createDynamicBatches (sortedIndices seqLengths : List ℕ) (maxQuota : ℚ)
    (maxBatchSize : ℕ) :
    (createDynamicBatches sortedIndices seqLengths maxQuota maxBatchSize).flatten =
      sortedIndices := by
  have h := (foldl_batchStep seqLengths maxQuota maxBatchSize sortedIndices ⟨[], [], 0⟩).1
  simp only [List.flatten_nil, List.nil_append] at h
  unfold createDynamicBatches
  dsimp only
  split_ifs with hlast
  · rw [List.flatten_append, List.flatten_singleton]
    exact h
  · rw [not_not] at hlast
    rw [hlast, List.append_nil] at h
    exact h

theorem ne_nil_of_mem_createDynamicBatches {sortedIndices seqLengths : List ℕ} {maxQuota : ℚ}
    {maxBatchSize : ℕ} {batch : List ℕ}
    (h : batch ∈ createDynamicBatches sortedIndices seqLengths maxQuota maxBatchSize) :
    batch ≠ [] := by
  have hne := (foldl_batchStep seqLengths maxQuota maxBatchSize sortedIndices ⟨[], [], 0⟩).2
    (fun _ hb => by cases hb)
  unfold createDynamicBatches at h
  dsimp only at h
  split_ifs at h with hlast
  · rcases List.mem_append.mp h with h | h
    · exact hne batch h
    · rw [List.mem_singleton.mp h]
      exact hlast
  · exact hne batch h

theorem sortedByLength_perm (seqLengths : List ℕ) :
    (sortedByLength seqLengths).Perm (List.range seqLengths.length) :=
  List.perm_insertionSort _ _

/-! ## Batches and padding do not show -/

section Extraction

variable {forward : Forward Token F} {padTokenId : Token} {row : List Token → List ℕ → List F}

def lastState (row : List Token → List ℕ → List F) (seq : List Token) : Option F :=
  (row seq (leftMask 0 seq)).getLast?

theorem length_leftPad (n : ℕ) (seq : List Token) :
    (leftPad padTokenId n seq).length = n + seq.length := by
  simp [leftPad]

theorem length_leftMask (n : ℕ) (seq : List Token) :
    (leftMask n seq).length = n + seq.length := by
  simp [leftMask]

theorem extractHiddenState_eq (hrow : RowWise forward row) {seq : List Token} {state : F}
    (hstate : lastState row seq = some state) :
    extractHiddenState forward seq = .ok state := by
  have hlen : (leftMask 0 seq).length = seq.length := by
    rw [length_leftMask, Nat.zero_add]
  have hforward : forward [seq] [leftMask 0 seq] = [row seq (leftMask 0 seq)] := by
    refine hrow.forward_eq seq.length _ _ ?_ ?_ rfl
    · intro ids hids
      rw [List.mem_singleton.mp hids]
    · intro mask hmask
      rw [List.mem_singleton.mp hmask, hlen]
  rw [extractHiddenState, hforward]
  show getItem (row seq (leftMask 0 seq)) (seq.length - 1) = .ok state
  rw [getItem_eq_ok, ← hrow.length_row seq _ hlen.symm, ← List.getLast?_eq_getElem?]
  exact hstate

theorem exists_lastState (hrow : RowWise forward row) {seq : List Token} (hne : seq ≠ []) :
    ∃ state, lastState row seq = some state := by
  have hlen : (leftMask 0 seq).length = seq.length := by
    rw [length_leftMask, Nat.zero_add]
  have hpos : row seq (leftMask 0 seq) ≠ [] := by
    intro hnil
    have := hrow.length_row seq _ hlen.symm
    rw [hnil] at this
    exact hne (List.length_eq_zero_iff.mp this.symm)
  exact ⟨_, List.getLast?_eq_some_getLast hpos⟩

theorem lastPos_padded (hrow : RowWise forward row) (hpad : PadInsensitive row padTokenId)
    {seq : List Token} (hne : seq ≠ []) {state : F} (hstate : lastState row seq = some state)
    (n : ℕ) : getItem (row (leftPad padTokenId n seq) (leftMask n seq)) (n + seq.length - 1) =
      .ok state := by
  have hlen : (leftPad padTokenId n seq).length = (leftMask n seq).length := by
    rw [length_leftPad, length_leftMask]
  have hpadded : (leftPad padTokenId n seq).length = n + seq.length := length_leftPad n seq
  rw [getItem_eq_ok, ← hpadded, ← hrow.length_row _ _ hlen, ← List.getLast?_eq_getElem?,
    hpad n seq hne]
  exact hstate

/-- The inner loop writes every result to the place of its sample. -/
theorem foldlM_storeBatch {batchSeqs : List (List Token)} {maxLen : ℕ}
    {hiddenStates : List (List F)} (result : ℕ → F) (samples : List (ℕ × ℕ)) (all : List F)
    (hsamples : ∀ sample ∈ samples, sample.1 < all.length ∧ ∃ seq states,
      batchSeqs[sample.2]? = some seq ∧ hiddenStates[sample.2]? = some states ∧
        getItem states (maxLen - seq.length + seq.length - 1) = .ok (result sample.1)) :
    samples.foldlM (storeBatch batchSeqs maxLen hiddenStates) all =
      .ok (Scatter.scatter all (samples.map (fun sample => (sample.1, result sample.1)))) := by
  induction samples generalizing all with
  | nil => rfl
  | cons sample samples ih =>
      obtain ⟨hlt, seq, states, hseq, hstates, hlast⟩ := hsamples sample List.mem_cons_self
      have hstep : storeBatch batchSeqs maxLen hiddenStates all sample =
          .ok (all.set sample.1 (result sample.1)) := by
        simp only [storeBatch, getItem_eq_ok.mpr hseq, getItem_eq_ok.mpr hstates, hlast, ok_bind,
          setItem, if_pos hlt]
      rw [List.foldlM_cons, hstep, ok_bind, ih]
      · rfl
      · intro sample' hsample'
        rw [List.length_set]
        exact hsamples sample' (List.mem_cons_of_mem _ hsample')

/-- On a batch padded to its longest sequence every row is computed from its own
padded sequence. -/
theorem forward_padded (hrow : RowWise forward row) {seqs : List (List Token)} {maxLen : ℕ}
    (hle : ∀ seq ∈ seqs, seq.length ≤ maxLen) :
    forward (seqs.map (fun seq => leftPad padTokenId (maxLen - seq.length) seq))
        (seqs.map (fun seq => leftMask (maxLen - seq.length) seq)) =
      seqs.map (fun seq => row (leftPad padTokenId (maxLen - seq.length) seq)
        (leftMask (maxLen - seq.length) seq)) := by
  rw [hrow.forward_eq maxLen, List.zipWith_map, List.zipWith_self]
  · intro ids hids
    obtain ⟨seq, hseq, rfl⟩ := List.mem_map.mp hids
    rw [length_leftPad, Nat.sub_add_cancel (hle seq hseq)]
  · intro mask hmask
    obtain ⟨seq, hseq, rfl⟩ := List.mem_map.mp hmask
    rw [length_leftMask, Nat.sub_add_cancel (hle seq hseq)]
  · rw [List.length_map, List.length_map]

/-- One batch: the last state of every sequence, at its place. -/
theorem extractBatch_eq (hrow : RowWise forward row) (hpad : PadInsensitive row padTokenId)
    {tokenized : List (List Token)} (hne : ∀ seq ∈ tokenized, seq ≠ []) {result : ℕ → F}
    (hresult : ∀ (i : ℕ) seq, tokenized[i]? = some seq → lastState row seq = some (result i))
    {all : List F} (hall : all.length = tokenized.length) {batch : List ℕ} (hbatch : batch ≠ [])
    (hlt : ∀ i ∈ batch, i < tokenized.length) :
    extractBatch forward padTokenId tokenized all batch =
      .ok (Scatter.scatter all (batch.map (fun i => (i, result i)))) := by
  have hseqs : batch.mapM (getItem tokenized) = .ok (batch.map (fun i => tokenized.getD i [])) := by
    refine mapM_eq_map (fun i hi => ?_)
    rw [getItem_of_lt (hlt i hi), List.getD_eq_getElem _ _ (hlt i hi)]
  have hlens : (batch.map (fun i => tokenized.getD i [])).map List.length ≠ [] := by
    simpa using hbatch
  obtain ⟨maxLen, hmax, hle⟩ := maxItem_ok hlens
  have hforward := @forward_padded _ _ _ padTokenId _ hrow
    (batch.map (fun i => tokenized.getD i [])) maxLen
    (fun seq hseq => hle _ (List.mem_map_of_mem hseq))
  rw [extractBatch, hseqs, ok_bind, hmax, ok_bind, hforward, foldlM_storeBatch result]
  · have hfst : (batch.zipIdx.map (fun sample => (sample.1, result sample.1))) =
        (batch.zipIdx.map Prod.fst).map (fun i => (i, result i)) := by
      rw [List.map_map]
      rfl
    rw [hfst, List.zipIdx_map_fst]
  · rintro ⟨i, k⟩ hsample
    have hk : batch[k]? = some i := List.mem_zipIdx_iff_getElem?.mp hsample
    have hi : i < tokenized.length := hlt i (List.mem_of_getElem? hk)
    have hseq : tokenized[i]? = some (tokenized.getD i []) := by
      rw [List.getD_eq_getElem _ _ hi]
      exact List.getElem?_eq_getElem hi
    have hk' : (batch.map (fun i => tokenized.getD i []))[k]? = some (tokenized.getD i []) := by
      rw [List.getElem?_map, hk]
      rfl
    refine ⟨hall ▸ hi, tokenized.getD i [], _, hk', ?_,
      lastPos_padded hrow hpad (hne _ (List.mem_of_getElem? hseq)) (hresult i _ hseq) _⟩
    rw [List.getElem?_map, hk']
    rfl

theorem foldlM_extractBatch (hrow : RowWise forward row) (hpad : PadInsensitive row padTokenId)
    {tokenized : List (List Token)} (hne : ∀ seq ∈ tokenized, seq ≠ []) {result : ℕ → F}
    (hresult : ∀ (i : ℕ) seq, tokenized[i]? = some seq → lastState row seq = some (result i))
    {batches : List (List ℕ)} (hbatches : ∀ batch ∈ batches, batch ≠ [])
    (hlt : ∀ batch ∈ batches, ∀ i ∈ batch, i < tokenized.length) {all : List F}
    (hall : all.length = tokenized.length) :
    batches.foldlM (extractBatch forward padTokenId tokenized) all =
      .ok (Scatter.scatter all (batches.flatten.map (fun i => (i, result i)))) := by
  induction batches generalizing all with
  | nil => rfl
  | cons batch batches ih =>
      rw [List.foldlM_cons, extractBatch_eq hrow hpad hne hresult hall
        (hbatches batch List.mem_cons_self) (hlt batch List.mem_cons_self), ok_bind, ih]
      · rw [List.flatten_cons, List.map_append, Scatter.scatter_append]
      · exact fun batch' hb => hbatches batch' (List.mem_cons_of_mem _ hb)
      · exact fun batch' hb => hlt batch' (List.mem_cons_of_mem _ hb)
      · rw [Scatter.length_scatter, hall]

theorem dynamicBatches_perm (seqLengths : List ℕ) (maxQuota : ℚ) (maxBatchSize : ℕ) :
    (createDynamicBatches (sortedByLength seqLengths) seqLengths maxQuota
      maxBatchSize).flatten.Perm (List.range seqLengths.length) := by
  rw [flatten_createDynamicBatches]
  exact sortedByLength_perm seqLengths

/-- Whatever the quota and the batch size: every sequence gets the state it has
when it is run alone. -/
theorem extractHiddenStatesDynamic_eq (hrow : RowWise forward row)
    (hpad : PadInsensitive row padTokenId) {tokenized : List (List Token)}
    (hne : ∀ seq ∈ tokenized, seq ≠ []) (zero : F) (maxBatchQuota : ℚ) (maxBatchSize : ℕ) :
    ∃ states, extractHiddenStatesDynamic forward padTokenId zero tokenized maxBatchQuota
        maxBatchSize = .ok states ∧
      List.Forall₂ (fun seq state => lastState row seq = some state) tokenized states := by
  have hexists : ∀ i : ℕ, ∃ state : F, ∀ seq, tokenized[i]? = some seq →
      lastState row seq = some state := by
    intro i
    cases hseq : tokenized[i]? with
    | none => exact ⟨zero, fun seq h => by cases h⟩
    | some seq =>
        obtain ⟨state, hstate⟩ := exists_lastState hrow (hne seq (List.mem_of_getElem? hseq))
        refine ⟨state, fun seq' h => ?_⟩
        obtain rfl := Option.some.inj h
        exact hstate
  choose result hresult using hexists
  have hperm := dynamicBatches_perm (tokenized.map List.length) maxBatchQuota maxBatchSize
  rw [List.length_map] at hperm
  have hrun := foldlM_extractBatch hrow hpad hne hresult
    (fun batch hb => ne_nil_of_mem_createDynamicBatches hb)
    (fun batch hb i hi => List.mem_range.mp
      (hperm.mem_iff.mp (List.mem_flatten.mpr ⟨batch, hb, hi⟩)))
    (List.length_replicate (a := zero))
  refine ⟨_, hrun, ?_⟩
  rw [← List.length_replicate (n := tokenized.length) (a := zero)] at hperm
  rw [Scatter.scatter_of_perm _ hperm result, List.length_replicate]
  refine List.forall₂_iff_get.mpr ⟨by simp, fun i h₁ h₂ => ?_⟩
  simp only [List.get_eq_getElem, List.getElem_map, List.getElem_range]
  exact hresult i _ (List.getElem?_eq_getElem h₁)

end Extraction

end RLCM.Eval
