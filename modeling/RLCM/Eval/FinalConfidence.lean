/-
# `RLCM.Eval.FinalConfidence` — every final record with its own confidence

Two scripts meet at positions in a file.  The extraction stores one hidden state
a record; `_evaluate_boxed` picks the records at the final budget by their
position, takes the states at the same positions, and runs the probe on them in
batches of its own.

`final_records_own_confidence` says that nothing of this shows in the report:
the confidence that goes with a record is the probe's on the record's own
sequence run alone, next to the accuracy of the record's own rollout.
-/
import Mathlib.Algebra.BigOperators.Fin
import RLCM.Eval.HiddenStates

namespace RLCM.Eval

open Py Stats

variable {Token : Type} {d m : ℕ}

/-! ## The probe -/

/-- `ConfProbe`: the parameters of its two linear layers. -/
structure ConfProbe (d m : ℕ) where
  weight0 : Fin m → Fin d → ℚ
  bias0 : Fin m → ℚ
  weight3 : Fin m → ℚ
  bias3 : ℚ

/-- The logit of one row: linear, ReLU, linear; dropout is off in evaluation. -/
def ConfProbe.logit (probe : ConfProbe d m) (state : Fin d → ℚ) : ℚ :=
  ∑ j, probe.weight3 j * max 0 (∑ k, probe.weight0 j k * state k + probe.bias0 j) + probe.bias3

/-- `ConfProbe.forward` on a batch of shape `(batch_size, hidden_size)`. -/
def ConfProbe.forward (probe : ConfProbe d m) (hiddenStates : List (Fin d → ℚ)) : List ℚ :=
  hiddenStates.map probe.logit

def ConfProbe.confidence (fns : Elementary) (probe : ConfProbe d m) (state : Fin d → ℚ) : ℚ :=
  sigmoid fns (probe.logit state)

theorem runProbeInference_eq (fns : Elementary) (probe : ConfProbe d m)
    (hiddenStates : List (Fin d → ℚ)) {batchSize : ℕ} (hbatch : 0 < batchSize) :
    runProbeInference fns probe.forward hiddenStates batchSize =
      hiddenStates.map (probe.confidence fns) := by
  conv_rhs => rw [← Blocks.flatten_pieces hbatch hiddenStates]
  rw [runProbeInference, List.map_flatten, List.flatMap_def]
  congr 1
  refine List.map_congr_left (fun batch _ => ?_)
  rw [ConfProbe.forward, List.map_map]
  rfl

/-! ## The final records -/

def atFinalBudget (data : List BudgetRow) (finalBudget : ℤ) : List BudgetRow :=
  data.filter (fun record => record.budget = finalBudget)

theorem map_fst_finalRecords (data : List BudgetRow) (finalBudget : ℤ) :
    (finalRecords data finalBudget).map Prod.fst = atFinalBudget data finalBudget := by
  have hfilter := List.filter_map (f := Prod.fst)
    (p := fun record : BudgetRow => decide (record.budget = finalBudget)) (l := data.zipIdx)
  rw [List.zipIdx_map_fst] at hfilter
  exact hfilter.symm

/-- The states picked by position belong to the records picked with them. -/
theorem mapM_finalRecords {F : Type} {data : List BudgetRow} {states : List F}
    {R : BudgetRow → F → Prop} (hstates : List.Forall₂ R data states) (finalBudget : ℤ) :
    ∃ own, (finalRecords data finalBudget).mapM (fun record => getItem states record.2) = .ok own ∧
      List.Forall₂ R (atFinalBudget data finalBudget) own := by
  have hreturns : ∀ record ∈ finalRecords data finalBudget,
      ∃ state, getItem states record.2 = .ok state := by
    rintro ⟨record, i⟩ hrecord
    have hi : data[i]? = some record :=
      List.mem_zipIdx_iff_getElem?.mp (List.mem_filter.mp hrecord).1
    have hlt : i < states.length := by
      rw [← hstates.length_eq]
      exact (List.getElem?_eq_some_iff.mp hi).1
    exact ⟨_, getItem_of_lt hlt⟩
  obtain ⟨own, hown⟩ := mapM_returns hreturns
  refine ⟨own, hown, ?_⟩
  have hpairs := mapM_eq_ok.mp hown
  rw [← map_fst_finalRecords, List.forall₂_map_left_iff]
  have hmem : ∀ record ∈ finalRecords data finalBudget, data[record.2]? = some record.1 :=
    fun record hrecord => List.mem_zipIdx_iff_getElem?.mp (List.mem_filter.mp hrecord).1
  clear hown hreturns
  generalize finalRecords data finalBudget = records at hpairs hmem ⊢
  induction hpairs with
  | nil => exact .nil
  | @cons record state _ _ hstate _ ih =>
      refine .cons ?_ (ih (fun record' h => hmem record' (List.mem_cons_of_mem _ h)))
      obtain ⟨hi, hrecord⟩ := List.getElem?_eq_some_iff.mp (hmem record List.mem_cons_self)
      obtain ⟨hi', hstate⟩ := List.getElem?_eq_some_iff.mp (getItem_eq_ok.mp hstate)
      rw [← hrecord, ← hstate]
      exact hstates.get hi hi'

/-- Every position gets the state of its own sequence, written once; the report
pairs every final record with its own confidence and accuracy. -/
theorem final_records_own_confidence {forward : Forward Token (Fin d → ℚ)} {padTokenId : Token}
    {row : List Token → List ℕ → List (Fin d → ℚ)} (hrow : RowWise forward row)
    (hpad : PadInsensitive row padTokenId) (encode : Str → List Token) (data : List BudgetRow)
    (maxBatchQuota : ℚ) (maxBatchSize : ℕ) :
    ∃ states, extractHiddenStates forward padTokenId 0 encode data maxBatchQuota maxBatchSize =
        .ok states ∧
      List.Forall₂ (fun record state =>
        extractHiddenState forward (tokenizeRecord padTokenId encode record) = .ok state)
        data states ∧
      (createDynamicBatches
        (sortedByLength ((data.map (tokenizeRecord padTokenId encode)).map List.length))
        ((data.map (tokenizeRecord padTokenId encode)).map List.length) maxBatchQuota
        maxBatchSize).flatten.Perm (List.range data.length) ∧
      ∀ (fns : Elementary) (probe : ConfProbe d m) (rollouts : List Rollout) (finalBudget : ℤ)
        (bins : ℕ), ∃ own, List.Forall₂ (fun record state =>
            extractHiddenState forward (tokenizeRecord padTokenId encode record) = .ok state)
            (atFinalBudget data finalBudget) own ∧
          evaluateBoxed fns probe.forward ⟨some data, some states, some rollouts⟩ finalBudget bins =
            .ok (if atFinalBudget data finalBudget = [] then none
              else some (finalize (own.map (probe.confidence fns))
                ((atFinalBudget data finalBudget).map (naturalAccuracy rollouts)) bins)) ∧
          ∀ batchSize, 1 ≤ batchSize → runProbeInference fns probe.forward own batchSize =
            own.map (probe.confidence fns) := by
  have hne : ∀ seq ∈ data.map (tokenizeRecord padTokenId encode), seq ≠ [] := by
    intro seq hseq
    obtain ⟨record, -, rfl⟩ := List.mem_map.mp hseq
    unfold tokenizeRecord
    dsimp only
    split_ifs with hnil
    · simp
    · exact hnil
  obtain ⟨states, hrun, hlast⟩ := extractHiddenStatesDynamic_eq hrow hpad hne 0 maxBatchQuota
    maxBatchSize
  have hown : List.Forall₂ (fun record state =>
      extractHiddenState forward (tokenizeRecord padTokenId encode record) = .ok state)
      data states :=
    (List.forall₂_map_left_iff.mp hlast).imp (fun _ _ h => extractHiddenState_eq hrow h)
  refine ⟨states, hrun, hown, ?_, fun fns probe rollouts finalBudget bins => ?_⟩
  · have hperm := dynamicBatches_perm ((data.map (tokenizeRecord padTokenId encode)).map
      List.length) maxBatchQuota maxBatchSize
    rwa [List.length_map, List.length_map] at hperm
  · obtain ⟨own, hselected, hrecords⟩ := mapM_finalRecords hown finalBudget
    refine ⟨own, hrecords, ?_, fun batchSize hbatch => runProbeInference_eq fns probe own hbatch⟩
    have hnil : finalRecords data finalBudget = [] ↔ atFinalBudget data finalBudget = [] := by
      rw [← map_fst_finalRecords, List.map_eq_nil_iff]
    have haccuracies : (finalRecords data finalBudget).map (fun row =>
        naturalAccuracy rollouts row.1) =
          (atFinalBudget data finalBudget).map (naturalAccuracy rollouts) := by
      rw [← map_fst_finalRecords, List.map_map]
      rfl
    unfold evaluateBoxed
    simp only [hnil]
    split_ifs with hempty
    · rfl
    · rw [hselected, haccuracies, ok_bind, runProbeInference_eq fns probe own (by decide)]
      rfl

/-! ## A model that adds up its tokens -/

def runningSum (total : ℚ) : List (ℕ × ℕ) → List (Fin 1 → ℚ)
  | [] => []
  | (token, mask) :: rest =>
      (fun _ => total + token * mask) :: runningSum (total + token * mask) rest

def sumRow (ids mask : List ℕ) : List (Fin 1 → ℚ) := runningSum 0 (ids.zip mask)

theorem length_runningSum (total : ℚ) (xs : List (ℕ × ℕ)) :
    (runningSum total xs).length = xs.length := by
  induction xs generalizing total with
  | nil => rfl
  | cons x xs ih => rw [runningSum, List.length_cons, ih, List.length_cons]

theorem sumRow_rowWise : RowWise (List.zipWith sumRow) sumRow where
  forward_eq := fun _ _ _ _ _ _ => rfl
  length_row := by
    intro ids mask hlen
    rw [sumRow, length_runningSum, List.length_zip, hlen, min_self]

theorem sumRow_padInsensitive (padTokenId : ℕ) : PadInsensitive sumRow padTokenId := by
  intro n seq hne
  induction n with
  | zero => rfl
  | succ n ih =>
      rw [← ih]
      have hcons : sumRow (leftPad padTokenId (n + 1) seq) (leftMask (n + 1) seq) =
          (fun _ => 0) :: sumRow (leftPad padTokenId n seq) (leftMask n seq) := by
        simp [sumRow, leftPad, leftMask, List.replicate_succ, runningSum]
      have hpos : sumRow (leftPad padTokenId n seq) (leftMask n seq) ≠ [] := by
        intro hnil
        have hlen := congrArg List.length hnil
        rw [sumRow, length_runningSum, List.length_zip, length_leftPad, length_leftMask] at hlen
        have := List.length_pos_of_ne_nil hne
        simp only [List.length_nil] at hlen
        omega
      rw [hcons, List.getLast?_cons_of_ne_nil hpos]

def recordOf (rolloutIdx : ℕ) (budget : ℤ) (truncatedCot : String) : BudgetRow where
  rolloutIdx := rolloutIdx
  prompt := "q".toList
  budget := budget
  truncatedCot := truncatedCot.toList
  truncatedCotLength := truncatedCot.length
  groundTruth := .value []
  dataSource := []

theorem final_records_own_confidence_threeRecords :
    ∃ states, extractHiddenStates (List.zipWith sumRow) 0 0 (fun s => s.map Char.toNat)
        [recordOf 1 8 "ab", recordOf 0 4 "", recordOf 0 8 "abcd"] 9 2 = .ok states ∧
      List.Forall₂ (fun record state => extractHiddenState (List.zipWith sumRow)
          (tokenizeRecord 0 (fun s => s.map Char.toNat) record) = .ok state)
        [recordOf 1 8 "ab", recordOf 0 4 "", recordOf 0 8 "abcd"] states := by
  have hpad : PadInsensitive sumRow 0 := sumRow_padInsensitive 0
  obtain ⟨states, hrun, hown, -⟩ := final_records_own_confidence (m := 0) sumRow_rowWise hpad
    (fun s => s.map Char.toNat)
    [recordOf 1 8 "ab", recordOf 0 4 "", recordOf 0 8 "abcd"] 9 2
  exact ⟨states, hrun, hown⟩

end RLCM.Eval
