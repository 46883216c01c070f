/-
# `RLCM.Eval.RlcrConsistent` — accuracy, confidence, brier and score of a record

In a record of either evaluator the brier of a position should be the squared distance of its
confidence from its accuracy, and its score the accuracy less the brier; the means and the
statistics should be the means and the sums of the lists (`RlcrResults.Consistent`).

Every branch that changes the accuracy recomputes brier and score, except the last: the numeric
comparison of the SARA data overrides the accuracy alone.  So the records are consistent exactly
when that comparison never overturns a verdict: `rlcrRecords_consistent_iff`.
-/
import RLCM.Eval.NaturalEval
import RLCM.Eval.BudgetConservation
import RLCM.Eval.RlcrScores
import RLCM.RewardScore.ProperScore

namespace RLCM.Eval

open Py Stats

variable {Token : Type} {n : ℕ}

/-! ## What should hold -/

/-- Brier and score of each position, and the means of the lists. -/
structure RlcrRecord.Consistent (record : RlcrRecord) : Prop where
  positions : record.modelConfidences.length = record.forcedAccuracies.length
  brier : record.brierScores =
    List.zipWith (fun (acc : ℕ) confidence => ((acc : ℚ) - confidence) ^ 2)
      record.forcedAccuracies record.modelConfidences
  score : record.rlcrScores =
    List.zipWith (fun (acc : ℕ) brier => (acc : ℚ) - brier) record.forcedAccuracies
      record.brierScores
  means : record.forcedAccuracies ≠ [] →
    record.meanAccuracy = mean (record.forcedAccuracies.map (fun acc : ℕ => (acc : ℚ))) ∧
      record.meanConfidence = mean record.modelConfidences ∧
      record.meanRlcrScore = mean record.rlcrScores ∧ record.meanBrier = mean record.brierScores

/-- The totals are the sums over these records. -/
structure RlcrStats.Totals (stats : RlcrStats) (records : List RlcrRecord) : Prop where
  total : stats.total = (records.map (fun r => r.forcedAccuracies.length)).sum
  correct : stats.correct = (records.map (fun r => r.forcedAccuracies.sum)).sum
  confidence : stats.totalConfidence = (records.map (fun r => r.modelConfidences.sum)).sum
  score : stats.totalRlcrScore = (records.map (fun r => r.rlcrScores.sum)).sum
  brier : stats.totalBrier = (records.map (fun r => r.brierScores.sum)).sum
  counts : stats.confidenceCount = stats.total ∧ stats.rlcrCount = stats.total ∧
    stats.brierCount = stats.total

/-- All records and all statistics. -/
structure RlcrResults.Consistent (out : RlcrResults) (budgets : List ℤ) : Prop where
  records : ∀ record ∈ out.allResults, record.Consistent
  stats : ∀ b ∈ budgets, ∃ stats, out.budgetStats.lookup b = some stats ∧
    stats.Totals (out.allResults.filter (fun record => record.budget = b))

/-! ## The statistics are always the sums -/

section Totals

variable {env : Externals}

theorem addRow_add {M : Type*} [AddCommMonoid M] (field : RlcrStats → M) (inc : SeqNumbers → M)
    (h : ∀ isSara length stats seq,
      field (RlcrStats.addSequence isSara length stats seq) = field stats + inc seq)
    (stats : RlcrStats) (scored : BudgetRow × List SeqScore) :
    field (stats.addRow env scored) =
      field stats + (scored.2.map (fun s => inc s.toSeqNumbers)).sum := by
  rw [RlcrStats.addRow, Dict.foldl_add _ field inc (fun stats seq _ => h _ _ stats seq),
    List.map_map]
  rfl

theorem lookup_rlcrResultsOf (format : BudgetRow → Option (Option Str)) {budgets : List ℤ}
    {b : ℤ} (hb : b ∈ budgets) (scored : List (BudgetRow × List SeqScore)) :
    (rlcrResultsOf env format budgets scored).budgetStats.lookup b =
      some ((scored.filter (fun rs => rs.1.budget = b)).foldl (RlcrStats.addRow env)
        rlcrStatsBase) := by
  have hvalues : Dict.valuesAt (scored.map (fun rs => (rs.1.budget, rs))) b =
      scored.filter (fun rs => rs.1.budget = b) := by
    rw [Dict.valuesAt, List.filter_map, List.map_map]
    exact List.map_id _
  rw [rlcrResultsOf, Dict.lookup_tally, RlcrResults.start, Dict.lookup_assign_const, if_pos hb,
    hvalues]
  rfl

theorem sum_records {M : Type*} [AddCommMonoid M] (field : RlcrStats → M) (inc : SeqNumbers → M)
    (hinc : ∀ isSara length stats seq,
      field (RlcrStats.addSequence isSara length stats seq) = field stats + inc seq)
    (hbase : field rlcrStatsBase = 0) (list : RlcrRecord → M)
    {format : BudgetRow → Option (Option Str)}
    (hlist : ∀ rs : BudgetRow × List SeqScore, list (rlcrRecordOf env (format rs.1) rs.1 rs.2) =
      (rs.2.map (fun s => inc s.toSeqNumbers)).sum)
    (budgets : List ℤ) (scored : List (BudgetRow × List SeqScore)) (b : ℤ) :
    field ((scored.filter (fun rs => rs.1.budget = b)).foldl (RlcrStats.addRow env)
        rlcrStatsBase) =
      (((rlcrResultsOf env format budgets scored).allResults.filter
        (fun record => record.budget = b)).map list).sum := by
  rw [Dict.foldl_add (RlcrStats.addRow env) field _
    (fun stats rs _ => addRow_add field inc hinc stats rs), hbase, zero_add, rlcrResultsOf,
    List.filter_map, List.map_map]
  exact congrArg List.sum (List.map_congr_left (fun rs _ => (hlist rs).symm))

theorem sum_map_one (scores : List SeqScore) : (scores.map (fun _ => 1)).sum = scores.length := by
  rw [List.map_const', List.sum_replicate]
  exact Nat.mul_one _

/-- The statistics are the sums of the records. -/
theorem totals_rlcrResultsOf (format : BudgetRow → Option (Option Str)) {budgets : List ℤ}
    {b : ℤ} (hb : b ∈ budgets) (scored : List (BudgetRow × List SeqScore)) :
    ∃ stats, (rlcrResultsOf env format budgets scored).budgetStats.lookup b = some stats ∧
      stats.Totals ((rlcrResultsOf env format budgets scored).allResults.filter
        (fun record => record.budget = b)) := by
  have hlength : ∀ rs : BudgetRow × List SeqScore,
      (rlcrRecordOf env (format rs.1) rs.1 rs.2).forcedAccuracies.length =
        (rs.2.map (fun _ => 1)).sum := by
    intro rs
    rw [sum_map_one]
    exact List.length_map _
  -- the total and the three counts go up by one together
  have hcount : ∀ field : RlcrStats → ℕ,
      (∀ isSara length stats seq,
        field (RlcrStats.addSequence isSara length stats seq) = field stats + 1) →
      field rlcrStatsBase = 0 →
      field ((scored.filter (fun rs => rs.1.budget = b)).foldl (RlcrStats.addRow env)
          rlcrStatsBase) =
        (((rlcrResultsOf env format budgets scored).allResults.filter
          (fun record => record.budget = b)).map (fun r => r.forcedAccuracies.length)).sum :=
    fun field hinc hbase => sum_records field (fun _ => 1) hinc hbase _ hlength budgets scored b
  have htotal := hcount (fun stats => stats.total) (fun _ _ _ _ => rfl) rfl
  refine ⟨_, lookup_rlcrResultsOf format hb scored, htotal, ?_, ?_, ?_, ?_, ?_, ?_, ?_⟩
  · exact sum_records (fun stats => stats.correct) (fun s => accuracyOf s.isCorrect)
      (fun _ _ _ _ => rfl) rfl (fun r => r.forcedAccuracies.sum) (fun _ => rfl) budgets scored b
  · exact sum_records RlcrStats.totalConfidence (fun s => s.confidence) (fun _ _ _ _ => rfl) rfl
      (fun r => r.modelConfidences.sum) (fun _ => rfl) budgets scored b
  · exact sum_records RlcrStats.totalRlcrScore (fun s => s.rlcrScore) (fun _ _ _ _ => rfl) rfl
      (fun r => r.rlcrScores.sum) (fun _ => rfl) budgets scored b
  · exact sum_records RlcrStats.totalBrier (fun s => s.brier) (fun _ _ _ _ => rfl) rfl
      (fun r => r.brierScores.sum) (fun _ => rfl) budgets scored b
  · exact (hcount RlcrStats.confidenceCount (fun _ _ _ _ => rfl) rfl).trans htotal.symm
  · exact (hcount RlcrStats.rlcrCount (fun _ _ _ _ => rfl) rfl).trans htotal.symm
  · exact (hcount RlcrStats.brierCount (fun _ _ _ _ => rfl) rfl).trans htotal.symm

end Totals

/-! ## One completion -/

def BrierScored (isCorrect : Bool) (confidence brier rlcrScore : ℚ) : Prop :=
  brier = ((accuracyOf isCorrect : ℚ) - confidence) ^ 2 ∧
    rlcrScore = (accuracyOf isCorrect : ℚ) - brier

theorem accuracyOf_injective : Function.Injective accuracyOf := by decide

theorem BrierScored.iff_eq {isCorrect isCorrect' : Bool} {confidence brier rlcrScore : ℚ}
    (h : BrierScored isCorrect confidence brier rlcrScore) :
    BrierScored isCorrect' confidence brier rlcrScore ↔ isCorrect' = isCorrect := by
  constructor
  · intro h'
    have hacc : (accuracyOf isCorrect' : ℚ) = accuracyOf isCorrect := by
      linarith only [h.2, h'.2]
    exact accuracyOf_injective (Nat.cast_injective hacc)
  · rintro rfl
    exact h

theorem BrierScored.unique {isCorrect : Bool} {confidence brier brier' rlcrScore rlcrScore' : ℚ}
    (h : BrierScored isCorrect confidence brier rlcrScore)
    (h' : BrierScored isCorrect confidence brier' rlcrScore') :
    brier = brier' ∧ rlcrScore = rlcrScore' := by
  have hbrier : brier = brier' := h.1.trans h'.1.symm
  refine ⟨hbrier, ?_⟩
  rw [h.2, h'.2, hbrier]

abbrev RlcrVerdict.BrierScored (verdict : RlcrVerdict) : Prop :=
  Eval.BrierScored verdict.isCorrect verdict.confidence verdict.brier verdict.rlcrScore

abbrev SeqScore.BrierScored (seq : SeqScore) : Prop :=
  Eval.BrierScored seq.isCorrect seq.confidence seq.brier seq.rlcrScore

theorem brierScored_rescored (pred : Str) (isCorrect : Bool) (confidence : ℚ)
    (confidenceValid : Bool) :
    (RlcrVerdict.rescored pred isCorrect confidence confidenceValid).BrierScored :=
  ⟨rfl, rfl⟩

theorem brierScored_ofScore (rlcrText groundTruth : Str) :
    (RlcrVerdict.ofScore rlcrText (RewardScore.computeScore rlcrText groundTruth)).BrierScored := by
  have hacc : ((RewardScore.computeScore rlcrText groundTruth).acc : ℚ) =
      accuracyOf ((RewardScore.computeScore rlcrText groundTruth).acc ≠ 0) := by
    rcases RewardScore.computeScore_acc_eq rlcrText groundTruth with h | h
    · rw [h]
      norm_num [accuracyOf]
    · rw [h]
      norm_num [accuracyOf]
  have hbrier : (RewardScore.computeScore rlcrText groundTruth).brier =
      ((RewardScore.computeScore rlcrText groundTruth).acc -
        (extractRlcrContent rlcrText).2.1) ^ 2 := rfl
  have hscore : (RewardScore.computeScore rlcrText groundTruth).score =
      (RewardScore.computeScore rlcrText groundTruth).acc -
        (RewardScore.computeScore rlcrText groundTruth).brier := rfl
  refine ⟨hbrier.trans ?_, hscore.trans ?_⟩
  · rw [hacc]
    rfl
  · rw [hacc]
    rfl

theorem brierScored_gpqaVerdict {env : Externals} {groundTruth : GroundTruth}
    {verdict : RlcrVerdict}
    (h : verdict.BrierScored) : (gpqaVerdict env groundTruth verdict).BrierScored := by
  unfold gpqaVerdict
  split
  case h_1 => exact brierScored_rescored _ _ _ _
  case h_2 => exact h

/-- The grading by text alone: `compute_rlcr_score`, and with the fallback the box where that
finds no answer. -/
def textVerdict (env : Externals) (fallback : Bool) (generatedText groundTruth : Str) :
    Except Error Bool :=
  let result := RewardScore.computeScore (rlcrTextOf generatedText) groundTruth
  if fallback && useBoxedFallback generatedText result then do
    let (isCorrect, _) ← computeScore env generatedText (.value groundTruth)
    pure isCorrect
  else .ok (result.acc ≠ 0)

/-- Of a numeric problem: where the numeric comparison has a verdict, it is the one by text. -/
def NumbersAgree (env : Externals) (fallback : Bool) (row : BudgetRow) (text : Str) : Prop :=
  row.isSara env = true → ∀ acc,
    computeSaraIntegerPartAccuracy text (row.groundTruth.str env) = .ok (some acc) →
      textVerdict env fallback text (row.groundTruth.str env) = .ok acc

/-- What a grading does before the numeric comparison. -/
def GradesByText (env : Externals) (fallback : Bool)
    (grade : BudgetRow → Str → Except Error RlcrVerdict) : Prop :=
  ∀ row text verdict, grade row text = .ok verdict →
    verdict.BrierScored ∧ (row.isSara env = true →
      textVerdict env fallback text (row.groundTruth.str env) = .ok verdict.isCorrect)

theorem gradesByText_gradeRlcrCopy (env : Externals) : GradesByText env false gradeRlcrCopy := by
  intro row text verdict h
  obtain ⟨result, hresult, h⟩ := bind_eq_ok.mp h
  obtain rfl := Except.ok.inj h
  cases htruth : row.groundTruth with
  | list ts =>
      rw [htruth] at hresult
      cases hresult
  | value t =>
      rw [htruth] at hresult
      obtain rfl := Except.ok.inj hresult
      exact ⟨brierScored_ofScore _ t, fun _ => rfl⟩

theorem gradesByText_gradeRlcr (env : Externals) : GradesByText env true (gradeRlcr env) := by
  intro row text verdict h
  obtain ⟨t, base, htruth, hcases, rfl⟩ := gradeRlcr_cases h
  have hbase : base.BrierScored ∧ textVerdict env true text t = .ok base.isCorrect := by
    unfold textVerdict
    dsimp only
    rcases hcases with ⟨hfallback, graded, hgraded, rfl⟩ | ⟨hfallback, rfl⟩
    · refine ⟨brierScored_rescored _ _ _ _, ?_⟩
      rw [Bool.true_and, if_pos hfallback, hgraded]
      rfl
    · refine ⟨brierScored_ofScore _ t, ?_⟩
      rw [Bool.true_and, hfallback]
      rfl
  constructor
  · split
    case isTrue => exact brierScored_gpqaVerdict hbase.1
    case isFalse => exact hbase.1
  · intro hsara
    have hgpqa : ¬ isGpqa row.dataSource = true := by
      intro hgpqa
      rw [BudgetRow.isSara, isSaraNumerical_of_isGpqa hgpqa] at hsara
      cases hsara
    rw [if_neg hgpqa, htruth]
    exact hbase.2

section Sequence

variable {env : Externals} {fallback : Bool} {grade : BudgetRow → Str → Except Error RlcrVerdict}

/-- The numbers of a completion fit exactly when the numeric comparison changes nothing. -/
theorem brierScored_scoreSequence_iff (hgrade : GradesByText env fallback grade) {row : BudgetRow}
    {text : Str} {seq : SeqScore} (h : scoreSequence env grade row text = .ok seq) :
    seq.BrierScored ↔ NumbersAgree env fallback row text := by
  obtain ⟨verdict, hverdict, h⟩ := bind_eq_ok.mp h
  obtain ⟨isCorrect, hisCorrect, h⟩ := bind_eq_ok.mp h
  obtain rfl := Except.ok.inj h
  obtain ⟨hscored, htext⟩ := hgrade row text verdict hverdict
  show Eval.BrierScored isCorrect verdict.confidence verdict.brier verdict.rlcrScore ↔ _
  rw [hscored.iff_eq, NumbersAgree]
  unfold saraVerdict at hisCorrect
  split at hisCorrect
  case isTrue hsara =>
    obtain ⟨saraAcc, hacc, hisCorrect⟩ := bind_eq_ok.mp hisCorrect
    obtain rfl := Except.ok.inj hisCorrect
    rw [htext hsara, hacc]
    cases saraAcc with
    | none =>
        refine ⟨fun _ _ acc hno => ?_, fun _ => rfl⟩
        cases hno
    | some acc =>
        constructor
        · rintro hsame _ acc' ⟨⟩
          exact congrArg Except.ok hsame.symm
        · intro hagree
          exact (Except.ok.inj (hagree hsara acc rfl)).symm
  case isFalse hsara =>
    obtain rfl := Except.ok.inj hisCorrect
    exact ⟨fun _ hno => absurd hno hsara, fun _ => rfl⟩

/-- A record is consistent exactly when the numbers of its completions fit. -/
theorem consistent_rlcrRecordOf_iff {format : Option (Option Str)} {row : BudgetRow}
    {scores : List SeqScore} :
    (rlcrRecordOf env format row scores).Consistent ↔ ∀ seq ∈ scores, seq.BrierScored := by
  have hbrier : ((rlcrRecordOf env format row scores).brierScores =
      List.zipWith (fun (acc : ℕ) confidence => ((acc : ℚ) - confidence) ^ 2)
        (rlcrRecordOf env format row scores).forcedAccuracies
        (rlcrRecordOf env format row scores).modelConfidences) ↔
      ∀ seq ∈ scores, seq.brier = ((accuracyOf seq.isCorrect : ℚ) - seq.confidence) ^ 2 := by
    rw [rlcrRecordOf, List.zipWith_map, List.zipWith_self, List.map_inj_left]
  have hscore : ((rlcrRecordOf env format row scores).rlcrScores =
      List.zipWith (fun (acc : ℕ) brier => (acc : ℚ) - brier)
        (rlcrRecordOf env format row scores).forcedAccuracies
        (rlcrRecordOf env format row scores).brierScores) ↔
      ∀ seq ∈ scores, seq.rlcrScore = (accuracyOf seq.isCorrect : ℚ) - seq.brier := by
    rw [rlcrRecordOf, List.zipWith_map, List.zipWith_self, List.map_inj_left]
  constructor
  · intro h seq hseq
    exact ⟨hbrier.mp h.brier seq hseq, hscore.mp h.score seq hseq⟩
  · intro h
    refine ⟨?_, hbrier.mpr (fun seq hseq => (h seq hseq).1),
      hscore.mpr (fun seq hseq => (h seq hseq).2), fun hne => ?_⟩
    · exact (List.length_map _).trans (List.length_map _).symm
    · have hscores : scores ≠ [] := fun hnil => hne (congrArg (List.map _) hnil)
      have hmean : ∀ (default : ℚ) (number : SeqScore → ℚ),
          meanOr default (scores.map number) = mean (scores.map number) :=
        fun default number => if_neg (fun hnil => hscores (List.map_eq_nil_iff.mp hnil))
      refine ⟨?_, hmean _ _, hmean _ _, hmean _ _⟩
      show meanOr 0 ((scores.map _).map _) = mean ((scores.map _).map _)
      rw [List.map_map]
      exact hmean _ _

/-- What the loop returns is consistent exactly when the numeric comparison changes nothing. -/
theorem consistent_runRows_iff (hgrade : GradesByText env fallback grade)
    {format : BudgetRow → Option (Option Str)} {budgets : List ℤ}
    {rows : List (BudgetRow × List Str)} {out : RlcrResults}
    (h : runRows env grade format budgets rows = .ok out) :
    out.Consistent budgets ↔
      ∀ row ∈ rows, ∀ text ∈ row.2, NumbersAgree env fallback row.1 text := by
  rw [runRows_eq] at h
  obtain ⟨scores, hscores, h⟩ := bind_eq_ok.mp h
  obtain rfl := Except.ok.inj h
  have hscored : (∀ scores' ∈ scores, ∀ seq ∈ scores', seq.BrierScored) ↔
      ∀ row ∈ rows, ∀ text ∈ row.2, NumbersAgree env fallback row.1 text :=
    forall_mapM_iff hscores (fun row _ scores' hrow =>
      forall_mapM_iff hrow (fun text _ seq hseq => brierScored_scoreSequence_iff hgrade hseq))
  have hsnd : ((rows.map Prod.fst).zip scores).map Prod.snd = scores := List.map_snd_zip (by
    rw [List.length_map, (mapM_eq_ok.mp hscores).length_eq])
  rw [← hscored]
  constructor
  · intro hconsistent scores' hmem
    rw [← hsnd] at hmem
    obtain ⟨rs, hrs, rfl⟩ := List.mem_map.mp hmem
    exact consistent_rlcrRecordOf_iff.mp
      (hconsistent.records _ (List.mem_map.mpr ⟨rs, hrs, rfl⟩))
  · intro hall
    refine ⟨?_, fun b hb => totals_rlcrResultsOf format hb _⟩
    intro record hrecord
    obtain ⟨rs, hrs, rfl⟩ := List.mem_map.mp hrecord
    exact consistent_rlcrRecordOf_iff.mpr (hall rs.2 (List.of_mem_zip hrs).2)

end Sequence

/-! ## Both evaluators -/

/-- What either evaluator returns is consistent exactly when, on every completion of a numeric
problem, the numeric comparison agrees with the grading by text wherever it has a verdict. -/
theorem rlcrRecords_consistent_iff (env : Externals) (tok : Tokenizer Token)
    (gen : Generator Token n) (pool : CompletionOrder) (budgets : List ℤ) (gpqaXml : Bool)
    (data : List Rollout) :
    (∀ out, evaluateRlcrMode env tok gen pool budgets gpqaXml data = .ok out →
      (out.Consistent budgets ↔ ∀ c ∈ completions tok gen budgets data, ∀ text ∈ c.2,
        NumbersAgree env true (rowOf tok c.1) text)) ∧
    (∀ out, evaluateBudgetForcedOutputsRlcr env tok gen budgets data = .ok out →
      (out.Consistent budgets ↔ ∀ c ∈ completions tok gen budgets data, ∀ text ∈ c.2,
        NumbersAgree env false (rawRowOf tok c.1) text)) := by
  constructor
  · intro out hout
    have hrows := ((evaluateRlcrMode_eq_ok_iff env tok gen pool budgets gpqaXml data).mp hout).2
    rw [consistent_runRows_iff (gradesByText_gradeRlcr env) hrows, List.forall_mem_map]
  · intro out hout
    rw [evaluateBudgetForcedOutputsRlcr_eq_runRows] at hout
    rw [consistent_runRows_iff (gradesByText_gradeRlcrCopy env) hout, List.forall_mem_map]

/-! ## A numeric answer without a box

The answer between the tags is the right one, with full confidence; the numeric comparison looks
for a box, finds none, and calls it wrong. -/

/-- The completion. -/
def unboxedText : Str := "1200</answer><confidence>1</confidence>".toList

theorem completions_unboxed : completions charTokenizer (constantGenerator unboxedText) [1]
    [saraRollout] = [(((saraRollout, 0), 1), [unboxedText])] := rfl

theorem unboxed_noFallback (result : RewardScore.Score) :
    useBoxedFallback unboxedText result = false := by
  have hbox : contains boxedOpen unboxedText = false := by decide +kernel
  rw [useBoxedFallback, hbox, Bool.and_false]

theorem unboxed_returns :
    (∃ out, evaluateRlcrMode textExternals charTokenizer (constantGenerator unboxedText) inOrder [1]
      false [saraRollout] = .ok out) ∧
    ∃ out, evaluateBudgetForcedOutputsRlcr textExternals charTokenizer
      (constantGenerator unboxedText) [1] [saraRollout] = .ok out := by
  have hnumeric : extractNumericAnswer unboxedText = none := by decide +kernel
  have hcode : isCode saraRollout.source = false := by decide
  apply evaluators_return
  · rw [completions_unboxed, List.forall_mem_singleton, List.forall_mem_singleton]
    exact fun hyes => absurd (hcode.symm.trans hyes) Bool.false_ne_true
  · rw [completions_unboxed, List.forall_mem_singleton, List.forall_mem_singleton]
    refine scoreSequence_returns rfl (fun _ predicted hpredicted => ?_) (fun hno => ?_)
    · rw [hnumeric] at hpredicted
      cases hpredicted
    · rw [unboxed_noFallback] at hno
      cases hno

theorem rlcrRecords_consistent_iff_unboxed :
    (∃ out, evaluateRlcrMode textExternals charTokenizer (constantGenerator unboxedText) inOrder [1]
        false [saraRollout] = .ok out ∧
      (out.Consistent [1] ↔
        ∀ c ∈ completions charTokenizer (constantGenerator unboxedText) [1] [saraRollout],
          ∀ text ∈ c.2, NumbersAgree textExternals true (rowOf charTokenizer c.1) text)) ∧
    ∃ out, evaluateBudgetForcedOutputsRlcr textExternals charTokenizer
        (constantGenerator unboxedText) [1] [saraRollout] = .ok out ∧
      (out.Consistent [1] ↔
        ∀ c ∈ completions charTokenizer (constantGenerator unboxedText) [1] [saraRollout],
          ∀ text ∈ c.2, NumbersAgree textExternals false (rawRowOf charTokenizer c.1) text) := by
  obtain ⟨⟨out, hout⟩, ⟨out', hout'⟩⟩ := unboxed_returns
  have hboth := rlcrRecords_consistent_iff textExternals charTokenizer
    (constantGenerator unboxedText) inOrder [1] false [saraRollout]
  exact ⟨⟨out, hout, hboth.1 out hout⟩, ⟨out', hout', hboth.2 out' hout'⟩⟩

theorem unboxed_disagrees (fallback : Bool) :
    ¬ NumbersAgree textExternals fallback (rowOf charTokenizer ((saraRollout, 0), 1))
      unboxedText := by
  intro hagree
  have hsara : (rowOf charTokenizer ((saraRollout, 0), 1)).isSara textExternals = true := by
    decide +kernel
  have hnumeric : computeSaraIntegerPartAccuracy unboxedText "1200".toList =
      .ok (some false) := by decide +kernel
  have hacc : (RewardScore.computeScore (rlcrTextOf unboxedText) "1200".toList).acc ≠ 0 := by
    decide +kernel
  have htext : textVerdict textExternals fallback unboxedText "1200".toList = .ok true := by
    unfold textVerdict
    dsimp only
    rw [unboxed_noFallback, Bool.and_false, if_neg Bool.false_ne_true, decide_eq_true hacc]
  have hsame := htext.symm.trans (hagree hsara false hnumeric)
  cases hsame

/-- Neither evaluator returns consistent records on this completion. -/
theorem rlcrRecords_unboxed_inconsistent :
    (∃ out, evaluateRlcrMode textExternals charTokenizer (constantGenerator unboxedText) inOrder [1]
        false [saraRollout] = .ok out ∧ ¬ out.Consistent [1]) ∧
    ∃ out, evaluateBudgetForcedOutputsRlcr textExternals charTokenizer
        (constantGenerator unboxedText) [1] [saraRollout] = .ok out ∧ ¬ out.Consistent [1] := by
  obtain ⟨⟨out, hout⟩, ⟨out', hout'⟩⟩ := unboxed_returns
  refine ⟨⟨out, hout, fun hconsistent => ?_⟩, ⟨out', hout', fun hconsistent => ?_⟩⟩
  · have hrows := ((evaluateRlcrMode_eq_ok_iff ..).mp hout).2
    rw [completions_unboxed] at hrows
    rw [consistent_runRows_iff (gradesByText_gradeRlcr textExternals) hrows, List.forall_mem_map,
      List.forall_mem_singleton, List.forall_mem_singleton] at hconsistent
    exact unboxed_disagrees true hconsistent
  · rw [evaluateBudgetForcedOutputsRlcr_eq_runRows, completions_unboxed] at hout'
    rw [consistent_runRows_iff (gradesByText_gradeRlcrCopy textExternals) hout',
      List.forall_mem_map, List.forall_mem_singleton, List.forall_mem_singleton] at hconsistent
    exact unboxed_disagrees false hconsistent

end RLCM.Eval
