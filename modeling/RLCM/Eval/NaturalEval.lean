/-
# `RLCM.Eval.NaturalEval` — natural accuracy and natural calibration error

`_evaluate_boxed` of `natural_eval.py` on the rollouts, the records the budget
evaluation built from them, and one hidden state for every record.

A record counts when its truncated thinking holds a complete box and the
rollout was graded correct.  The documented number is another one: a rollout
counts when it was graded correct and finished within the final budget.
`finishedCorrectCounted_iff` says when the two agree.
-/
import RLCM.Eval.BudgetEval
import RLCM.Eval.Metrics
import RLCM.Lib.Blocks

namespace RLCM.Eval

open Py Stats

variable {Token F : Type}

/-! ## The evaluation -/

/-- `torch.sigmoid`. -/
def sigmoid (fns : Elementary) (x : ℚ) : ℚ := 1 / (1 + fns.exp (-x))

/-- `_run_probe_inference`: batch by batch; `probe` gives one logit a row. -/
def runProbeInference (fns : Elementary) (probe : List F → List ℚ) (hiddenStates : List F)
    (batchSize : ℕ) : List ℚ :=
  (Blocks.pieces batchSize hiddenStates).flatMap
    (fun batch => (probe batch).map (sigmoid fns))

/-- A result of `_finalize`. -/
structure NaturalReport where
  naturalAccuracy : ℚ
  naturalEce : ℚ
  meanConfidence : ℚ
  nSamples : ℕ
deriving DecidableEq

def finalize (confidences accuracies : List ℚ) (bins : ℕ) : NaturalReport where
  naturalAccuracy := mean accuracies
  naturalEce := (computeEce confidences accuracies none bins).getD 0
  meanConfidence := mean confidences
  nSamples := confidences.length

/-- The files of a dataset; a missing file is `none`. -/
structure DatasetFiles (F : Type) where
  budgetEval : Option (List BudgetRow)
  hiddenStates : Option (List F)
  rollouts : Option (List Rollout)

/-- `rollout_acc.get(idx, 0.0)`. -/
def rolloutAcc (rollouts : List Rollout) (idx : ℕ) : ℚ :=
  (rollouts[idx]?).elim 0 (fun r => if r.acc then 1 else 0)

def finalRecords (budgetRows : List BudgetRow) (finalBudget : ℤ) : List (BudgetRow × ℕ) :=
  budgetRows.zipIdx.filter (fun row => row.1.budget = finalBudget)

/-- What a record adds to `accuracies`. -/
def naturalAccuracy (rollouts : List Rollout) (row : BudgetRow) : ℚ :=
  if (lastBoxedOnlyString row.truncatedCot).isSome then rolloutAcc rollouts row.rolloutIdx else 0

/-- `_evaluate_boxed`; `None` for a dataset that is skipped. -/
def evaluateBoxed (fns : Elementary) (probe : List F → List ℚ) (files : DatasetFiles F)
    (finalBudget : ℤ) (bins : ℕ) : Except Error (Option NaturalReport) :=
  match files.budgetEval, files.hiddenStates, files.rollouts with
  | some budgetRows, some hiddenStates, some rollouts =>
      let final := finalRecords budgetRows finalBudget
      if final = [] then .ok none
      else do
        let accuracies := final.map (fun row => naturalAccuracy rollouts row.1)
        let selected ← final.mapM (fun row => getItem hiddenStates row.2)
        let confidences := runProbeInference fns probe selected 512
        pure (some (finalize confidences accuracies bins))
  | _, _, _ => .ok none

/-! ## What is counted -/

/-- The whole output fits in the final budget. -/
def finished (tok : Tokenizer Token) (finalBudget : ℤ) (r : Rollout) : Bool :=
  (tok.encode r.output).length ≤ finalBudget

def boxedInThinking (tok : Tokenizer Token) (finalBudget : ℤ) (r : Rollout) : Bool :=
  (lastBoxedOnlyString (truncatedCot tok finalBudget r)).isSome

/-- The rollout of a record has the property. -/
def rolloutHas (rollouts : List Rollout) (p : Rollout → Bool) (row : BudgetRow) : Bool :=
  (rollouts[row.rolloutIdx]?).any p

/-- The documented natural accuracy: the reported number is the fraction of
final-budget records whose rollout is graded correct and finished, and each
such record counts as one. -/
def FinishedCorrectCounted (tok : Tokenizer Token) (rollouts : List Rollout)
    (budgetRows : List BudgetRow) (finalBudget : ℤ) (report : NaturalReport) : Prop :=
  let counted := rolloutHas rollouts (fun r => r.acc && finished tok finalBudget r)
  let final := (finalRecords budgetRows finalBudget).map Prod.fst
  report.naturalAccuracy = final.countP counted / final.length ∧
    ∀ row ∈ final, counted row = true → naturalAccuracy rollouts row = 1

section

variable {tok : Tokenizer Token} {args : BudgetEvalArgs} {rollouts : List Rollout}
  {finalBudget : ℤ}

theorem mem_map_finalRecords {rows : List BudgetRow} {row : BudgetRow} :
    row ∈ (finalRecords rows finalBudget).map Prod.fst ↔
      row ∈ rows ∧ row.budget = finalBudget := by
  simp only [finalRecords, List.mem_map, List.mem_filter, decide_eq_true_eq]
  constructor
  · rintro ⟨⟨_, i⟩, ⟨hmem, hbudget⟩, rfl⟩
    exact ⟨List.fst_mem_of_mem_zipIdx hmem, hbudget⟩
  · rintro ⟨hmem, hbudget⟩
    obtain ⟨i, hi⟩ := List.mem_iff_getElem?.mp hmem
    exact ⟨(row, i), ⟨List.mem_zipIdx_iff_getElem?.mpr hi, hbudget⟩, rfl⟩

theorem mem_finalRecords {row : BudgetRow} :
    row ∈ (finalRecords (budgetRows tok args rollouts) finalBudget).map Prod.fst ↔
      ∃ (i : ℕ) (r : Rollout), rollouts[i]? = some r ∧ finalBudget ∈ args.budgets ∧
        row = rowAt tok i r finalBudget := by
  rw [mem_map_finalRecords, mem_budgetRows]
  constructor
  · rintro ⟨⟨i, r, hi, b, hb, rfl⟩, hbudget⟩
    obtain rfl : b = finalBudget := hbudget
    exact ⟨i, r, hi, hb, rfl⟩
  · rintro ⟨i, r, hi, hb, rfl⟩
    exact ⟨⟨i, r, hi, finalBudget, hb, rfl⟩, rfl⟩

/-- A record with a box in its truncated thinking whose rollout is graded
correct. -/
def boxedCorrect (rollouts : List Rollout) (row : BudgetRow) : Bool :=
  rolloutHas rollouts (fun r => r.acc && (lastBoxedOnlyString row.truncatedCot).isSome) row

/-- What the code adds for a record is an indicator. -/
theorem naturalAccuracy_eq (row : BudgetRow) :
    naturalAccuracy rollouts row = if boxedCorrect rollouts row then 1 else 0 := by
  unfold naturalAccuracy rolloutAcc boxedCorrect rolloutHas
  cases rollouts[row.rolloutIdx]? with
  | none => simp
  | some r => cases (lastBoxedOnlyString row.truncatedCot).isSome <;> simp

theorem rolloutHas_rowAt {i : ℕ} {r : Rollout} (hi : rollouts[i]? = some r)
    (p : Rollout → Bool) : rolloutHas rollouts p (rowAt tok i r finalBudget) = p r := by
  simp [rolloutHas, rowAt, hi]

theorem naturalAccuracy_of_evaluateBoxed {fns : Elementary} {probe : List F → List ℚ}
    {hiddenStates : List F} {rows : List BudgetRow} {bins : ℕ} {report : NaturalReport}
    (h : evaluateBoxed fns probe ⟨some rows, some hiddenStates, some rollouts⟩ finalBudget bins =
      .ok (some report)) :
    (finalRecords rows finalBudget).map Prod.fst ≠ [] ∧
      report.naturalAccuracy =
        mean (((finalRecords rows finalBudget).map Prod.fst).map (naturalAccuracy rollouts)) := by
  unfold evaluateBoxed at h
  dsimp only at h
  split at h
  case isTrue hnil => cases h
  case isFalse hne =>
    obtain ⟨selected, _, h⟩ := bind_eq_ok.mp h
    cases h
    refine ⟨fun hnil => hne (List.map_eq_nil_iff.mp hnil), ?_⟩
    rw [List.map_map]
    rfl

theorem finishedCorrectCounted_iff_records {rows : List BudgetRow} {report : NaturalReport}
    (hne : (finalRecords rows finalBudget).map Prod.fst ≠ [])
    (hacc : report.naturalAccuracy =
      mean (((finalRecords rows finalBudget).map Prod.fst).map (naturalAccuracy rollouts))) :
    FinishedCorrectCounted tok rollouts rows finalBudget report ↔
      ∀ row ∈ (finalRecords rows finalBudget).map Prod.fst, boxedCorrect rollouts row =
        rolloutHas rollouts (fun r => r.acc && finished tok finalBudget r) row := by
  have hone : ∀ row, naturalAccuracy rollouts row = 1 ↔ boxedCorrect rollouts row = true := by
    intro row
    rw [naturalAccuracy_eq]
    cases boxedCorrect rollouts row <;> simp
  have hmap : naturalAccuracy rollouts =
      fun row => if boxedCorrect rollouts row then (1 : ℚ) else 0 :=
    funext naturalAccuracy_eq
  unfold FinishedCorrectCounted
  simp only [hacc, hone]
  rw [hmap]
  exact mean_indicator_eq_iff hne

theorem boxedInThinking_of_fits (hround : ∀ s, tok.decode (tok.encode s) = s) {r : Rollout}
    (hfits : ((tok.encode (extractThinkingContent r.output)).length : ℤ) ≤ finalBudget) :
    boxedInThinking tok finalBudget r =
      (lastBoxedOnlyString (extractThinkingContent r.output)).isSome := by
  rw [boxedInThinking, truncatedCot, prefixTo_of_length_le hfits, hround]

/-- The reported natural accuracy is the documented one exactly when, for every
rollout graded correct, the thinking cut at the final budget holds a complete
box if and only if the whole output fits in the final budget. -/
theorem finishedCorrectCounted_iff {fns : Elementary} {probe : List F → List ℚ}
    {hiddenStates : List F} {bins : ℕ} {report : NaturalReport}
    (h : evaluateBoxed fns probe
      ⟨some (budgetRows tok args rollouts), some hiddenStates, some rollouts⟩ finalBudget bins =
        .ok (some report)) :
    FinishedCorrectCounted tok rollouts (budgetRows tok args rollouts) finalBudget report ↔
      ∀ r ∈ rollouts, r.acc = true →
        (boxedInThinking tok finalBudget r = true ↔ finished tok finalBudget r = true) := by
  obtain ⟨hne, hacc⟩ := naturalAccuracy_of_evaluateBoxed h
  rw [finishedCorrectCounted_iff_records hne hacc]
  -- at the record of a rollout both sides speak about that rollout
  have hrecord : ∀ (i : ℕ) (r : Rollout), rollouts[i]? = some r →
      (boxedCorrect rollouts (rowAt tok i r finalBudget) =
          rolloutHas rollouts (fun r => r.acc && finished tok finalBudget r)
            (rowAt tok i r finalBudget) ↔
        (r.acc = true →
          (boxedInThinking tok finalBudget r = true ↔ finished tok finalBudget r = true))) := by
    intro i r hi
    rw [boxedCorrect, rolloutHas_rowAt hi, rolloutHas_rowAt hi]
    change (r.acc && boxedInThinking tok finalBudget r) = _ ↔ _
    cases r.acc with
    | false => simp
    | true =>
        rw [Bool.true_and, Bool.true_and, Bool.eq_iff_iff]
        exact ⟨fun h _ => h, fun h => h rfl⟩
  constructor
  · intro hall r hr
    obtain ⟨row, hrow⟩ := List.exists_mem_of_ne_nil _ hne
    obtain ⟨_, _, _, hbudget, _⟩ := mem_finalRecords.mp hrow
    obtain ⟨i, hi⟩ := List.mem_iff_getElem?.mp hr
    exact (hrecord i r hi).mp (hall _ (mem_finalRecords.mpr ⟨i, r, hi, hbudget, rfl⟩))
  · intro hall row hrow
    obtain ⟨i, r, hi, _, rfl⟩ := mem_finalRecords.mp hrow
    exact (hrecord i r hi).mpr (hall r (List.mem_of_getElem? hi))

end

/-! ### An answer after the thinking

One rollout whose output is `t</think>\boxed{4}`, graded correct; the tokens are
the characters, and everything fits in 100 of them. -/

def answerAfterThinking : Rollout where
  input := "q".toList
  output := "t</think>\\boxed\x7b4\x7d".toList
  acc := true
  gts := some (.value "4".toList)
  groundTruth := none
  dataSource := some "math".toList

/-- One token a character. -/
def charTokenizer : Tokenizer Char := ⟨id, id⟩

/-- The files of the run: one hidden state for the one record. -/
def answerAfterThinkingFiles : DatasetFiles Unit where
  budgetEval := some (budgetRows charTokenizer ⟨[100], false, false⟩ [answerAfterThinking])
  hiddenStates := some [()]
  rollouts := some [answerAfterThinking]

def evenProbe (batch : List Unit) : List ℚ := batch.map (fun _ => 0)

/-- The `exp` of the run; the only value used is at 0. -/
def evenFns : Elementary := ⟨fun x => 1 + x, id, id⟩

theorem evaluateBoxed_answerAfterThinking :
    evaluateBoxed evenFns evenProbe answerAfterThinkingFiles 100 10 =
      .ok (some ⟨0, 1 / 2, 1 / 2, 1⟩) := by decide +kernel

theorem finishedCorrectCounted_iff_answerAfterThinking :
    FinishedCorrectCounted charTokenizer [answerAfterThinking]
        (budgetRows charTokenizer ⟨[100], false, false⟩ [answerAfterThinking]) 100
        ⟨0, 1 / 2, 1 / 2, 1⟩ ↔
      ∀ r ∈ [answerAfterThinking], r.acc = true →
        (boxedInThinking charTokenizer 100 r = true ↔ finished charTokenizer 100 r = true) :=
  finishedCorrectCounted_iff evaluateBoxed_answerAfterThinking

/-- The rollout finished and is correct, and the reported accuracy is 0. -/
theorem answerAfterThinking_not_counted :
    answerAfterThinking.acc = true ∧ finished charTokenizer 100 answerAfterThinking = true ∧
      ∃ report, evaluateBoxed evenFns evenProbe answerAfterThinkingFiles 100 10 =
          .ok (some report) ∧
        ¬ FinishedCorrectCounted charTokenizer [answerAfterThinking]
          (budgetRows charTokenizer ⟨[100], false, false⟩ [answerAfterThinking]) 100 report := by
  refine ⟨rfl, by decide, _, evaluateBoxed_answerAfterThinking, ?_⟩
  intro h
  exact absurd h.1 (by decide +kernel)

end RLCM.Eval
