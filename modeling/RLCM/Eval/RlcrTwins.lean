/-
# `RLCM.Eval.RlcrTwins` — the two evaluators of stated confidence, compared

`evaluate_budget_forced_outputs` with `rlcr=True` and its copy score the same completions.  The
copy takes the verdict of `compute_rlcr_score` as it is; the first evaluator goes on to a box
where there is no answer, compares letters where the task is multiple choice, takes a ground
truth out of a list of one, and has the programs of code rollouts run.  `rlcrTwins_agree_iff`
says for which completions none of this makes a difference.
-/
import RLCM.Eval.RlcrConsistent

namespace RLCM.Eval

open Py Stats

variable {Token : Type} {n : ℕ}

/-! ## What should agree -/

/-- The numbers of two records. -/
structure RlcrRecord.SameNumbers (record record' : RlcrRecord) : Prop where
  rolloutIdx : record.rolloutIdx = record'.rolloutIdx
  budget : record.budget = record'.budget
  forcedAccuracies : record.forcedAccuracies = record'.forcedAccuracies
  modelConfidences : record.modelConfidences = record'.modelConfidences
  rlcrScores : record.rlcrScores = record'.rlcrScores
  brierScores : record.brierScores = record'.brierScores
  means : record.meanAccuracy = record'.meanAccuracy ∧
    record.meanConfidence = record'.meanConfidence ∧
    record.meanRlcrScore = record'.meanRlcrScore ∧ record.meanBrier = record'.meanBrier ∧
    record.meanRisk = record'.meanRisk

/-- The same numbers, record by record, and the same statistics. -/
structure RlcrResults.Agree (out out' : RlcrResults) : Prop where
  records : List.Forall₂ RlcrRecord.SameNumbers out.allResults out'.allResults
  stats : ∀ b, out.budgetStats.lookup b = out'.budgetStats.lookup b

/-! ## One completion -/

/-- Where the branches of the first evaluator change nothing, and nothing raises. -/
def TextAgrees (env : Externals) (item : Rollout) (text : Str) : Prop :=
  ∃ t, item.rawTruth = .value t ∧
    let result := RewardScore.computeScore (rlcrTextOf text) t
    (isSaraNumerical item.source t = true → FiniteNumbers text t) ∧
    (useBoxedFallback text result = true → result.confidence = 1 / 2 ∧
      ∃ pred, computeScore env text (.value t) = .ok (decide (result.acc ≠ 0), pred) ∧
        pred.getD [] = []) ∧
    (isGpqa item.source = true →
      ∀ predChoice ∈ extractGpqaChoice env.uni (some result.pred),
        ∀ gtChoice ∈ extractGpqaChoice env.uni (some t),
          (predChoice == gtChoice) = decide (result.acc ≠ 0))

/-- What of two verdicts reaches the numbers. -/
structure SameVerdict (verdict verdict' : RlcrVerdict) : Prop where
  isCorrect : verdict.isCorrect = verdict'.isCorrect
  confidence : verdict.confidence = verdict'.confidence
  rlcrScore : verdict.rlcrScore = verdict'.rlcrScore
  brier : verdict.brier = verdict'.brier
  pred : verdict.pred = [] ↔ verdict'.pred = []

theorem sameVerdict_of_brierScored {verdict verdict' : RlcrVerdict}
    (hscored : verdict.BrierScored) (hscored' : verdict'.BrierScored)
    (hconfidence : verdict.confidence = verdict'.confidence)
    (hscore : verdict.rlcrScore = verdict'.rlcrScore) (hbrier : verdict.brier = verdict'.brier)
    (hpred : verdict.pred = [] ↔ verdict'.pred = []) : SameVerdict verdict verdict' := by
  refine ⟨?_, hconfidence, hscore, hbrier, hpred⟩
  rw [RlcrVerdict.BrierScored, hconfidence, hscore, hbrier] at hscored
  exact (BrierScored.iff_eq hscored').mp hscored

section Verdicts

variable {env : Externals}

theorem extractGpqaChoice_nil (uni : Unicode) : extractGpqaChoice uni (some []) = none := rfl

theorem gpqaVerdict_of_pred_nil {groundTruth : GroundTruth} {verdict : RlcrVerdict}
    (h : verdict.pred = []) : gpqaVerdict env groundTruth verdict = verdict := by
  rw [gpqaVerdict, h, extractGpqaChoice_nil]

theorem gpqaVerdict_pred_eq_nil (groundTruth : GroundTruth) (verdict : RlcrVerdict) :
    (gpqaVerdict env groundTruth verdict).pred = [] ↔ verdict.pred = [] := by
  constructor
  · intro h
    unfold gpqaVerdict at h
    split at h
    case h_1 => cases h
    case h_2 => exact h
  · intro h
    rw [gpqaVerdict_of_pred_nil h]
    exact h

theorem letters_pred_eq_nil (gpqa : Bool) (groundTruth : GroundTruth) (verdict : RlcrVerdict) :
    (if gpqa then gpqaVerdict env groundTruth verdict else verdict).pred = [] ↔
      verdict.pred = [] := by
  split
  case isTrue => exact gpqaVerdict_pred_eq_nil groundTruth verdict
  case isFalse => exact Iff.rfl

/-- The letters change nothing exactly when their comparison repeats the verdict. -/
theorem sameVerdict_gpqaVerdict_iff {t : Str} {verdict : RlcrVerdict}
    (hscored : verdict.BrierScored) :
    SameVerdict (gpqaVerdict env (.value t) verdict) verdict ↔
      ∀ predChoice ∈ extractGpqaChoice env.uni (some verdict.pred),
        ∀ gtChoice ∈ extractGpqaChoice env.uni (some t),
          (predChoice == gtChoice) = verdict.isCorrect := by
  unfold gpqaVerdict
  split
  case h_1 predChoice gtChoice hpredChoice hgtChoice =>
    have hpred : verdict.pred ≠ [] := by
      intro hnil
      rw [hnil, extractGpqaChoice_nil] at hpredChoice
      cases hpredChoice
    constructor
    · intro hsame predChoice' hpredChoice' gtChoice' hgtChoice'
      obtain rfl := Option.some.inj (hpredChoice.symm.trans hpredChoice')
      obtain rfl := Option.some.inj (hgtChoice.symm.trans hgtChoice')
      exact hsame.isCorrect
    · intro hrepeat
      obtain ⟨hbrier, hscore⟩ := hscored
      have hisCorrect := hrepeat predChoice hpredChoice gtChoice hgtChoice
      refine ⟨hisCorrect, rfl, ?_, ?_, iff_of_false (List.cons_ne_nil _ _) hpred⟩
      · rw [hscore, hbrier, ← hisCorrect]
        rfl
      · rw [hbrier, ← hisCorrect]
        rfl
  case h_2 hnone =>
    refine iff_of_true ⟨rfl, rfl, rfl, rfl, Iff.rfl⟩ ?_
    intro predChoice hpredChoice gtChoice hgtChoice
    exact absurd hgtChoice (hnone predChoice gtChoice hpredChoice)

theorem pred_eq_nil_of_fallback {text t : Str}
    (h : useBoxedFallback text (RewardScore.computeScore (rlcrTextOf text) t) = true) :
    (RewardScore.computeScore (rlcrTextOf text) t).pred = [] := by
  have hnone : (RewardScore.computeScore (rlcrTextOf text) t).answerValid = false →
      (RewardScore.computeScore (rlcrTextOf text) t).pred = [] := by
    intro hinvalid
    have hanswer : (RewardScore.extractAnswerAndConfidence (rlcrTextOf text)).1 = none :=
      Option.not_isSome_iff_eq_none.mp (Bool.eq_false_iff.mp hinvalid)
    show (RewardScore.verifyExtractedAnswer
      ((RewardScore.extractAnswerAndConfidence (rlcrTextOf text)).1.getD []) t).2 = []
    rw [hanswer]
    rfl
  rcases Bool.or_eq_true_iff.mp (Bool.and_eq_true_iff.mp h).1 with hinvalid | hpred
  · exact hnone (by simpa using hinvalid)
  · exact of_decide_eq_true hpred

/-- Without a box to go on to, only the letters can make a difference. -/
theorem sameVerdict_letters_iff {gpqa : Bool} {t : Str} {verdict : RlcrVerdict}
    (hscored : verdict.BrierScored) :
    SameVerdict (if gpqa then gpqaVerdict env (.value t) verdict else verdict) verdict ↔
      (gpqa = true → ∀ predChoice ∈ extractGpqaChoice env.uni (some verdict.pred),
        ∀ gtChoice ∈ extractGpqaChoice env.uni (some t),
          (predChoice == gtChoice) = verdict.isCorrect) := by
  split
  case isTrue hgpqa =>
    rw [sameVerdict_gpqaVerdict_iff hscored]
    constructor
    · intro hall _
      exact hall
    · intro hall
      exact hall hgpqa
  case isFalse hgpqa =>
    exact iff_of_true ⟨rfl, rfl, rfl, rfl, Iff.rfl⟩ (fun hno => absurd hno hgpqa)

/-- With one, the verdict is that of a copy without an answer exactly if nothing is in the box
and the rest is the same. -/
theorem sameVerdict_boxed_iff {gpqa : Bool} {t pred : Str} {isCorrect : Bool}
    {verdict : RlcrVerdict} (hscored : verdict.BrierScored) (hnil : verdict.pred = []) :
    SameVerdict (if gpqa then
        gpqaVerdict env (.value t) (RlcrVerdict.rescored pred isCorrect (1 / 2) false)
      else RlcrVerdict.rescored pred isCorrect (1 / 2) false) verdict ↔
        verdict.confidence = 1 / 2 ∧ isCorrect = verdict.isCorrect ∧ pred = [] := by
  have hletters : pred = [] → (if gpqa then
        gpqaVerdict env (.value t) (RlcrVerdict.rescored pred isCorrect (1 / 2) false)
      else RlcrVerdict.rescored pred isCorrect (1 / 2) false) =
        RlcrVerdict.rescored pred isCorrect (1 / 2) false := by
    intro hboxed
    have hpred : (RlcrVerdict.rescored pred isCorrect (1 / 2) false).pred = [] := hboxed
    rw [gpqaVerdict_of_pred_nil hpred, ite_self]
  constructor
  · intro hsame
    have hboxed : pred = [] := (letters_pred_eq_nil _ _ _).mp (hsame.pred.mpr hnil)
    rw [hletters hboxed] at hsame
    exact ⟨hsame.confidence.symm, hsame.isCorrect, hboxed⟩
  · rintro ⟨hconfidence, rfl, hboxed⟩
    rw [hletters hboxed]
    rw [RlcrVerdict.BrierScored, hconfidence] at hscored
    obtain ⟨hbrier, hscore⟩ :=
      (brierScored_rescored pred verdict.isCorrect (1 / 2) false).unique hscored
    exact ⟨rfl, hconfidence.symm, hscore, hbrier, iff_of_true hboxed hnil⟩

/-- The two verdicts on a completion: an answer of the copy is never lost, and they are the same
exactly where the branches of the first evaluator change nothing. -/
theorem gradeRlcr_sameVerdict_iff {row : BudgetRow} {text t : Str} {verdict : RlcrVerdict}
    (htruth : row.groundTruth = .value t) (h : gradeRlcr env row text = .ok verdict) :
    let result := RewardScore.computeScore (rlcrTextOf text) t
    (verdict.pred = [] → result.pred = []) ∧
      (SameVerdict verdict (RlcrVerdict.ofScore (rlcrTextOf text) result) ↔
        (useBoxedFallback text result = true → result.confidence = 1 / 2 ∧
          ∃ pred, computeScore env text (.value t) = .ok (decide (result.acc ≠ 0), pred) ∧
            pred.getD [] = []) ∧
        (isGpqa row.dataSource = true →
          ∀ predChoice ∈ extractGpqaChoice env.uni (some result.pred),
            ∀ gtChoice ∈ extractGpqaChoice env.uni (some t),
              (predChoice == gtChoice) = decide (result.acc ≠ 0))) := by
  intro result
  have hcopy : (RlcrVerdict.ofScore (rlcrTextOf text) result).BrierScored := brierScored_ofScore _ t
  obtain ⟨t', base, htruth', hcases, rfl⟩ := gradeRlcr_cases h
  obtain rfl := GroundTruth.value.inj (htruth.symm.trans htruth')
  rcases hcases with ⟨hfallback, ⟨isCorrect, pred⟩, hgraded, rfl⟩ | ⟨hfallback, rfl⟩
  · have hnil : result.pred = [] := pred_eq_nil_of_fallback hfallback
    refine ⟨fun _ => hnil, (sameVerdict_boxed_iff hcopy hnil).trans ?_⟩
    constructor
    · rintro ⟨hconfidence, hisCorrect, hboxed⟩
      refine ⟨fun _ => ⟨hconfidence, pred, hgraded.trans ?_, hboxed⟩, ?_⟩
      · exact congrArg (fun isCorrect => Except.ok (isCorrect, pred)) hisCorrect
      · intro _ predChoice hno
        rw [hnil, extractGpqaChoice_nil] at hno
        cases hno
    · rintro ⟨hneutral, -⟩
      obtain ⟨hconfidence, pred', hscore, hboxed⟩ := hneutral hfallback
      obtain ⟨rfl, rfl⟩ := Prod.mk.inj (Except.ok.inj (hgraded.symm.trans hscore))
      exact ⟨hconfidence, rfl, hboxed⟩
  · refine ⟨fun hnil => (letters_pred_eq_nil _ _ _).mp hnil, ?_⟩
    have hvacuous : useBoxedFallback text result ≠ true := Bool.eq_false_iff.mp hfallback
    rw [and_iff_right (fun hno => absurd hno hvacuous)]
    exact sameVerdict_letters_iff hcopy

end Verdicts

/-! ## The two scores of a completion -/

section Sequence

variable {env : Externals} {tok : Tokenizer Token}

theorem scoreSequence_numbers {grade : BudgetRow → Str → Except Error RlcrVerdict}
    {row : BudgetRow} {text : Str} {seq : SeqScore}
    (h : scoreSequence env grade row text = .ok seq) :
    ∃ verdict isCorrect, grade row text = .ok verdict ∧
      saraVerdict (row.isSara env) text (row.groundTruth.str env) verdict.isCorrect =
        .ok isCorrect ∧
      seq.toSeqNumbers = ⟨isCorrect, verdict.confidence, verdict.rlcrScore, verdict.brier,
        decide (verdict.pred ≠ []),
        computeSaraNumericalRisk text (row.groundTruth.str env)⟩ := by
  obtain ⟨verdict, hverdict, h⟩ := bind_eq_ok.mp h
  obtain ⟨isCorrect, hisCorrect, h⟩ := bind_eq_ok.mp h
  obtain rfl := Except.ok.inj h
  exact ⟨verdict, isCorrect, hverdict, hisCorrect, rfl⟩

theorem returns_of_textAgrees {request : (Rollout × ℕ) × ℤ} {text : Str}
    (h : TextAgrees env request.1.1 text) :
    (∃ seq, scoreSequence env (gradeRlcr env) (rowOf tok request) text = .ok seq) ∧
      ∃ seq, scoreSequence env gradeRlcrCopy (rawRowOf tok request) text = .ok seq := by
  obtain ⟨t, htruth, hfinite, hneutral, -⟩ := h
  refine scoreSequence_returns htruth hfinite (fun hfallback => ?_)
  obtain ⟨-, pred, hscore, -⟩ := hneutral hfallback
  exact ⟨_, hscore⟩

/-- Verdicts that fit give the same numbers exactly if they are the same. -/
theorem toSeqNumbers_eq_iff {grade grade' : BudgetRow → Str → Except Error RlcrVerdict}
    {row : BudgetRow} {text : Str} {seq seq' : SeqScore} {verdict verdict' : RlcrVerdict}
    (h : scoreSequence env grade row text = .ok seq)
    (h' : scoreSequence env grade' row text = .ok seq')
    (hverdict : grade row text = .ok verdict) (hverdict' : grade' row text = .ok verdict')
    (hscored : verdict.BrierScored) (hscored' : verdict'.BrierScored) :
    seq.toSeqNumbers = seq'.toSeqNumbers ↔ SameVerdict verdict verdict' := by
  obtain ⟨_, isCorrect, hgrade, hisCorrect, hseq⟩ := scoreSequence_numbers h
  obtain ⟨_, isCorrect', hgrade', hisCorrect', hseq'⟩ := scoreSequence_numbers h'
  obtain rfl := Except.ok.inj (hverdict.symm.trans hgrade)
  obtain rfl := Except.ok.inj (hverdict'.symm.trans hgrade')
  rw [hseq, hseq']
  constructor
  · intro heq
    injection heq with _ hconfidence hscore hbrier hpred
    exact sameVerdict_of_brierScored hscored hscored' hconfidence hscore hbrier
      (by simpa using hpred)
  · intro heq
    rw [heq.isCorrect] at hisCorrect
    obtain rfl := Except.ok.inj (hisCorrect.symm.trans hisCorrect')
    rw [heq.confidence, heq.rlcrScore, heq.brier, decide_eq_decide.mpr (not_congr heq.pred)]

/-- The first evaluator never finds less, the risk is the same, and so are the other numbers
exactly where the two agree. -/
theorem numbers_eq_iff {request : (Rollout × ℕ) × ℤ} {text : Str} {seq seq' : SeqScore}
    (h : scoreSequence env (gradeRlcr env) (rowOf tok request) text = .ok seq)
    (h' : scoreSequence env gradeRlcrCopy (rawRowOf tok request) text = .ok seq') :
    (seq'.answerValid = true → seq.answerValid = true) ∧ seq.risk = seq'.risk ∧
      (seq.toSeqNumbers = seq'.toSeqNumbers ↔ TextAgrees env request.1.1 text) := by
  have hcopy := scoreSequence_returns_iff.mp ⟨seq', h'⟩
  obtain ⟨t, htruth⟩ := gradeRlcrCopy_returns_iff.mp hcopy.1
  have hraw : request.1.1.rawTruth = .value t := htruth
  rw [rawRowOf_eq hraw] at h' htruth hcopy
  obtain ⟨verdict, isCorrect, hverdict, -, hseq⟩ := scoreSequence_numbers h
  obtain ⟨verdict', isCorrect', hverdict', -, hseq'⟩ := scoreSequence_numbers h'
  have hnumbers := toSeqNumbers_eq_iff h h' hverdict hverdict'
    (gradesByText_gradeRlcr env _ _ _ hverdict).1
    (gradesByText_gradeRlcrCopy env _ _ _ hverdict').1
  obtain ⟨hvalid, hsame⟩ := gradeRlcr_sameVerdict_iff htruth hverdict
  rw [gradeRlcrCopy, htruth] at hverdict'
  obtain rfl := Except.ok.inj hverdict'
  refine ⟨?_, ?_, ?_⟩
  · have hanswers := congrArg SeqNumbers.answerValid hseq
    have hanswers' := congrArg SeqNumbers.answerValid hseq'
    intro hanswer
    rw [hanswer] at hanswers'
    rw [hanswers]
    exact decide_eq_true (fun hnil => of_decide_eq_true hanswers'.symm (hvalid hnil))
  · rw [hseq, hseq']
  · rw [hnumbers, hsame]
    constructor
    · rintro ⟨hneutral, hletters⟩
      refine ⟨t, hraw, ?_, hneutral, hletters⟩
      intro hsara
      have hfinite := hcopy.2
      rw [BudgetRow.isSara, htruth] at hfinite
      exact hfinite hsara
    · rintro ⟨t', hraw', -, hneutral, hletters⟩
      obtain rfl := GroundTruth.value.inj (hraw.symm.trans hraw')
      exact ⟨hneutral, hletters⟩

end Sequence

/-! ## Rows with the same numbers -/

def rowNumbers (env : Externals) (scored : BudgetRow × List SeqScore) :
    List (Bool × SeqNumbers) :=
  scored.2.map (fun seq => (scored.1.isSara env, seq.toSeqNumbers))

/-- Two rows with the same place, budget, length and numbers. -/
structure SameRow (env : Externals) (scored scored' : BudgetRow × List SeqScore) : Prop where
  rolloutIdx : scored.1.rolloutIdx = scored'.1.rolloutIdx
  budget : scored.1.budget = scored'.1.budget
  truncatedCotLength : scored.1.truncatedCotLength = scored'.1.truncatedCotLength
  numbers : rowNumbers env scored = rowNumbers env scored'

section Rows

variable {env : Externals} {scored scored' : BudgetRow × List SeqScore}

theorem addRow_eq_foldl (stats : RlcrStats) (scored : BudgetRow × List SeqScore) :
    stats.addRow env scored = (rowNumbers env scored).foldl (fun stats numbers =>
      RlcrStats.addSequence numbers.1 scored.1.truncatedCotLength stats numbers.2) stats := by
  rw [RlcrStats.addRow, rowNumbers, List.foldl_map, List.foldl_map]

theorem SameRow.addRow (h : SameRow env scored scored') (stats : RlcrStats) :
    stats.addRow env scored = stats.addRow env scored' := by
  rw [addRow_eq_foldl, addRow_eq_foldl, h.numbers, h.truncatedCotLength]

theorem SameRow.record (h : SameRow env scored scored') (format format' : Option (Option Str)) :
    (rlcrRecordOf env format scored.1 scored.2).SameNumbers
      (rlcrRecordOf env format' scored'.1 scored'.2) := by
  have hmap : ∀ {β : Type} (number : SeqNumbers → β),
      scored.2.map (fun seq => number seq.toSeqNumbers) =
        scored'.2.map (fun seq => number seq.toSeqNumbers) := by
    intro β number
    have hnumbers := congrArg (List.map (fun numbers => number numbers.2)) h.numbers
    rw [rowNumbers, rowNumbers, List.map_map, List.map_map] at hnumbers
    exact hnumbers
  have haccuracies := hmap (fun numbers => accuracyOf numbers.isCorrect)
  have hconfidences := hmap SeqNumbers.confidence
  have hscores := hmap SeqNumbers.rlcrScore
  have hbriers := hmap SeqNumbers.brier
  have hrisks : risksOf env scored.1 scored.2 = risksOf env scored'.1 scored'.2 := by
    have hrisks : ∀ scored : BudgetRow × List SeqScore, risksOf env scored.1 scored.2 =
        (rowNumbers env scored).flatMap (fun numbers =>
          if numbers.1 then [numbers.2.risk] else []) := by
      intro scored
      rw [risksOf, rowNumbers, List.flatMap_map]
      split
      case isTrue => exact List.map_eq_flatMap
      case isFalse => exact (List.flatMap_eq_nil_iff.mpr (fun _ _ => rfl)).symm
    rw [hrisks, hrisks, h.numbers]
  refine ⟨h.rolloutIdx, h.budget, haccuracies, hconfidences, hscores, hbriers, ?_, ?_, ?_, ?_, ?_⟩
  · exact congrArg (fun accuracies : List ℕ => meanOr 0 (accuracies.map (fun acc : ℕ => (acc : ℚ))))
      haccuracies
  · exact congrArg (meanOr (1 / 2)) hconfidences
  · exact congrArg (meanOr 0) hscores
  · exact congrArg (meanOr (1 / 2)) hbriers
  · exact congrArg meanRisk hrisks

end Rows

/-! ## The runs -/

section Runs

variable {env : Externals} {tok : Tokenizer Token} {budgets : List ℤ}
  {cs : List (((Rollout × ℕ) × ℤ) × List Str)}

theorem runRows_scored {grade : BudgetRow → Str → Except Error RlcrVerdict}
    {format : BudgetRow → Option (Option Str)} {row : (Rollout × ℕ) × ℤ → BudgetRow}
    {out : RlcrResults}
    (h : runRows env grade format budgets (cs.map (fun c => (row c.1, c.2))) = .ok out) :
    ∃ score : ((Rollout × ℕ) × ℤ) × List Str → Str → SeqScore,
      (∀ c ∈ cs, ∀ text ∈ c.2, scoreSequence env grade (row c.1) text = .ok (score c text)) ∧
        out = rlcrResultsOf env format budgets
          (cs.map (fun c => (row c.1, c.2.map (score c)))) := by
  have hreturns := runRows_returns_iff.mp ⟨out, h⟩
  rw [List.forall_mem_map] at hreturns
  choose! score hscore using hreturns
  refine ⟨score, hscore, ?_⟩
  have hscores : (cs.map (fun c => (row c.1, c.2))).mapM
      (fun row => row.2.mapM (scoreSequence env grade row.1)) =
        .ok (cs.map (fun c => c.2.map (score c))) := by
    rw [List.mapM_map]
    exact mapM_eq_map (fun c hc => mapM_eq_map (fun text htext => hscore c hc text htext))
  rw [runRows_eq, hscores, ok_bind, List.map_map, List.zip_map'] at h
  exact (Except.ok.inj h).symm

theorem sameNumbers_iff {format format' : BudgetRow → Option (Option Str)}
    {scored scored' : ((Rollout × ℕ) × ℤ) × List Str → BudgetRow × List SeqScore} :
    List.Forall₂ RlcrRecord.SameNumbers
        (rlcrResultsOf env format budgets (cs.map scored)).allResults
        (rlcrResultsOf env format' budgets (cs.map scored')).allResults ↔
      ∀ c ∈ cs, (rlcrRecordOf env (format (scored c).1) (scored c).1 (scored c).2).SameNumbers
        (rlcrRecordOf env (format' (scored' c).1) (scored' c).1 (scored' c).2) := by
  rw [rlcrResultsOf, rlcrResultsOf, List.forall₂_map_left_iff, List.forall₂_map_left_iff,
    List.forall₂_map_right_iff, List.forall₂_map_right_iff]
  exact List.forall₂_same

theorem agree_of_sameRow {format format' : BudgetRow → Option (Option Str)}
    {scored scored' : ((Rollout × ℕ) × ℤ) × List Str → BudgetRow × List SeqScore}
    (h : ∀ c ∈ cs, SameRow env (scored c) (scored' c)) :
    (rlcrResultsOf env format budgets (cs.map scored)).Agree
      (rlcrResultsOf env format' budgets (cs.map scored')) := by
  constructor
  · exact sameNumbers_iff.mpr (fun c hc => (h c hc).record _ _)
  · intro b
    have hvalues : Dict.valuesAt ((cs.map scored).map (fun rs => (rs.1.budget, rs))) b =
        (cs.filter (fun c => (scored c).1.budget = b)).map scored := by
      rw [Dict.valuesAt, List.map_map, List.filter_map, List.map_map]
      rfl
    have hvalues' : Dict.valuesAt ((cs.map scored').map (fun rs => (rs.1.budget, rs))) b =
        (cs.filter (fun c => (scored c).1.budget = b)).map scored' := by
      rw [Dict.valuesAt, List.map_map, List.filter_map, List.map_map]
      refine congrArg (List.map _) (List.filter_congr (fun c hc => ?_))
      show decide ((scored' c).1.budget = b) = decide ((scored c).1.budget = b)
      rw [(h c hc).budget]
    rw [rlcrResultsOf, rlcrResultsOf, Dict.lookup_tally, Dict.lookup_tally, hvalues, hvalues']
    refine congrArg (Option.map · _) (funext (fun stats => ?_))
    rw [List.foldl_map, List.foldl_map]
    exact List.foldl_ext _ _ stats
      (fun stats c hc => (h c (List.mem_filter.mp hc).1).addRow stats)

theorem extracted_rlcrResultsOf {format : BudgetRow → Option (Option Str)} {b : ℤ}
    (hb : b ∈ budgets) (scored : List (BudgetRow × List SeqScore)) :
    ((rlcrResultsOf env format budgets scored).budgetStats.lookup b).map (·.extracted) =
      some ((scored.filter (fun rs => rs.1.budget = b)).map (fun rs =>
        (rs.2.map (fun seq => if seq.answerValid then 1 else 0)).sum)).sum := by
  rw [lookup_rlcrResultsOf format hb, Option.map_some,
    Dict.foldl_add (RlcrStats.addRow env) (fun stats => stats.extracted) _
      (fun stats rs _ => addRow_add (fun stats => stats.extracted)
        (fun seq => if seq.answerValid then 1 else 0) (fun _ _ _ _ => rfl) stats rs)]
  exact congrArg some (Nat.zero_add _)

/-- Where the first evaluator never finds less and the statistics agree, the same answers are
extracted. -/
theorem answerValid_of_agree {format format' : BudgetRow → Option (Option Str)}
    {score score' : ((Rollout × ℕ) × ℤ) × List Str → Str → SeqScore}
    (hbudgets : ∀ c ∈ cs, c.1.2 ∈ budgets)
    (hvalid : ∀ c ∈ cs, ∀ text ∈ c.2,
      (score' c text).answerValid = true → (score c text).answerValid = true)
    (h : (rlcrResultsOf env format budgets
        (cs.map (fun c => (rowOf tok c.1, c.2.map (score c))))).Agree
      (rlcrResultsOf env format' budgets
        (cs.map (fun c => (rawRowOf tok c.1, c.2.map (score' c)))))) :
    ∀ c ∈ cs, ∀ text ∈ c.2, (score c text).answerValid = (score' c text).answerValid := by
  intro c hc text htext
  have hle : ∀ c' ∈ cs, ∀ text' ∈ c'.2, (if (score' c' text').answerValid then 1 else 0) ≤
      if (score c' text').answerValid then 1 else 0 := by
    intro c' hc' text' htext'
    cases hanswer : (score' c' text').answerValid with
    | false => exact Nat.zero_le _
    | true =>
        rw [hvalid c' hc' text' htext' hanswer]
  -- the answers of a budget are counted alike, so each of them is
  have hstats := congrArg (Option.map (fun stats => stats.extracted)) (h.stats c.1.2)
  rw [extracted_rlcrResultsOf (hbudgets c hc), extracted_rlcrResultsOf (hbudgets c hc),
    List.filter_map, List.filter_map, List.map_map, List.map_map] at hstats
  have hrow : ∀ c' ∈ cs.filter (fun c' => c'.1.2 = c.1.2),
      ((c'.2.map (score' c')).map (fun seq => if seq.answerValid then 1 else 0)).sum =
        ((c'.2.map (score c')).map (fun seq => if seq.answerValid then 1 else 0)).sum := by
    refine eq_of_sum_eq (fun c' hc' => ?_) (Option.some.inj hstats).symm
    rw [List.map_map, List.map_map]
    exact List.sum_le_sum (hle c' (List.mem_filter.mp hc').1)
  have hanswers := hrow c (List.mem_filter.mpr ⟨hc, decide_eq_true rfl⟩)
  rw [List.map_map, List.map_map] at hanswers
  have hone := eq_of_sum_eq (hle c hc) hanswers text htext
  exact (accuracyOf_injective hone).symm

theorem numbers_of_agree {format format' : BudgetRow → Option (Option Str)}
    {score score' : ((Rollout × ℕ) × ℤ) × List Str → Str → SeqScore}
    (h : (rlcrResultsOf env format budgets
        (cs.map (fun c => (rowOf tok c.1, c.2.map (score c))))).Agree
      (rlcrResultsOf env format' budgets
        (cs.map (fun c => (rawRowOf tok c.1, c.2.map (score' c)))))) :
    ∀ c ∈ cs, ∀ text ∈ c.2, (score c text).isCorrect = (score' c text).isCorrect ∧
      (score c text).confidence = (score' c text).confidence ∧
      (score c text).rlcrScore = (score' c text).rlcrScore ∧
      (score c text).brier = (score' c text).brier := by
  intro c hc text htext
  have hrecord := sameNumbers_iff.mp h.records c hc
  have hmap : ∀ {β : Type} {number : SeqScore → β},
      (c.2.map (score c)).map number = (c.2.map (score' c)).map number →
        number (score c text) = number (score' c text) := by
    intro β number heq
    rw [List.map_map, List.map_map] at heq
    exact List.map_inj_left.mp heq text htext
  exact ⟨accuracyOf_injective (hmap hrecord.forcedAccuracies), hmap hrecord.modelConfidences,
    hmap hrecord.rlcrScores, hmap hrecord.brierScores⟩

end Runs

/-! ## Both evaluators -/

section Twins

variable {env : Externals} {tok : Tokenizer Token} {gen : Generator Token n}
  {pool : CompletionOrder} {budgets : List ℤ} {gpqaXml : Bool} {data : List Rollout}

theorem budget_mem_of_completion {c : ((Rollout × ℕ) × ℤ) × List Str}
    (hc : c ∈ completions tok gen budgets data) : c.1.2 ∈ budgets := by
  obtain ⟨item, -, hrequest⟩ := List.mem_flatMap.mp (List.of_mem_zip hc).1
  obtain ⟨b, hb, hrequest⟩ := List.mem_map.mp hrequest
  rw [← hrequest]
  exact hb

theorem textAgrees_of_agree {out out' : RlcrResults}
    (hout : evaluateRlcrMode env tok gen pool budgets gpqaXml data = .ok out)
    (hout' : evaluateBudgetForcedOutputsRlcr env tok gen budgets data = .ok out')
    (h : out.Agree out') :
    ∀ c ∈ completions tok gen budgets data, ∀ text ∈ c.2, TextAgrees env c.1.1.1 text := by
  rw [evaluateBudgetForcedOutputsRlcr_eq_runRows] at hout'
  obtain ⟨score, hscore, rfl⟩ := runRows_scored ((evaluateRlcrMode_eq_ok_iff ..).mp hout).2
  obtain ⟨score', hscore', rfl⟩ := runRows_scored hout'
  have hboth : ∀ c ∈ completions tok gen budgets data, ∀ text ∈ c.2,
      ((score' c text).answerValid = true → (score c text).answerValid = true) ∧
        (score c text).risk = (score' c text).risk ∧
        ((score c text).toSeqNumbers = (score' c text).toSeqNumbers ↔
          TextAgrees env c.1.1.1 text) :=
    fun c hc text htext => numbers_eq_iff (hscore c hc text htext) (hscore' c hc text htext)
  intro c hc text htext
  obtain ⟨hisCorrect, hconfidence, hrlcr, hbrier⟩ := numbers_of_agree h c hc text htext
  have hanswer := answerValid_of_agree (fun c hc => budget_mem_of_completion hc)
    (fun c hc text htext => (hboth c hc text htext).1) h c hc text htext
  obtain ⟨-, hrisk, hiff⟩ := hboth c hc text htext
  exact hiff.mp (SeqNumbers.ext hisCorrect hconfidence hrlcr hbrier hanswer hrisk)

theorem agree_of_textAgrees (pool : CompletionOrder)
    (hcode : ∀ c ∈ completions tok gen budgets data, ∀ text ∈ c.2, CodeScored env c.1.1.1 text)
    (h : ∀ c ∈ completions tok gen budgets data, ∀ text ∈ c.2, TextAgrees env c.1.1.1 text) :
    ∃ out out', evaluateRlcrMode env tok gen pool budgets gpqaXml data = .ok out ∧
      evaluateBudgetForcedOutputsRlcr env tok gen budgets data = .ok out' ∧ out.Agree out' := by
  obtain ⟨⟨out, hout⟩, ⟨out', hout'⟩⟩ := evaluators_return pool gpqaXml hcode
    (fun c hc text htext => returns_of_textAgrees (h c hc text htext))
  refine ⟨out, out', hout, hout', ?_⟩
  rw [evaluateBudgetForcedOutputsRlcr_eq_runRows] at hout'
  obtain ⟨score, hscore, rfl⟩ := runRows_scored ((evaluateRlcrMode_eq_ok_iff ..).mp hout).2
  obtain ⟨score', hscore', rfl⟩ := runRows_scored hout'
  refine agree_of_sameRow (fun c hc => ⟨rfl, rfl, rfl, ?_⟩)
  rw [rowNumbers, rowNumbers, List.map_map, List.map_map]
  apply List.map_congr_left
  intro text htext
  obtain ⟨t, htruth, -⟩ := h c hc text htext
  have hnumbers := (numbers_eq_iff (hscore c hc text htext) (hscore' c hc text htext)).2.2.mpr
    (h c hc text htext)
  show ((rowOf tok c.1).isSara env, (score c text).toSeqNumbers) =
    ((rawRowOf tok c.1).isSara env, (score' c text).toSeqNumbers)
  rw [rawRowOf_eq htruth, hnumbers]

end Twins

/-- Both evaluators return the same numbers exactly when, on every completion, nothing raises,
the scorer of the programs included, and none of the first evaluator's branches changes
anything. -/
theorem rlcrTwins_agree_iff (env : Externals) (tok : Tokenizer Token) (gen : Generator Token n)
    (pool : CompletionOrder) (budgets : List ℤ) (gpqaXml : Bool) (data : List Rollout) :
    (∃ out out', evaluateRlcrMode env tok gen pool budgets gpqaXml data = .ok out ∧
        evaluateBudgetForcedOutputsRlcr env tok gen budgets data = .ok out' ∧ out.Agree out') ↔
      ∀ c ∈ completions tok gen budgets data, ∀ text ∈ c.2,
        CodeScored env c.1.1.1 text ∧ TextAgrees env c.1.1.1 text := by
  constructor
  · rintro ⟨out, out', hout, hout', hagree⟩ c hc text htext
    exact ⟨((evaluateRlcrMode_eq_ok_iff ..).mp hout).1 c hc text htext,
      textAgrees_of_agree hout hout' hagree c hc text htext⟩
  · intro h
    exact agree_of_textAgrees pool (fun c hc text htext => (h c hc text htext).1)
      (fun c hc text htext => (h c hc text htext).2)

/-! ## A letter in brackets

A multiple-choice answer that is right by its letter and wrong as a text. -/

/-- The task. -/
def gpqaRollout : Rollout :=
  { saraRollout with gts := some (.value "A".toList), dataSource := some "gpqa".toList }

/-- The completion. -/
def bracketText : Str := "(A)</answer><confidence>1</confidence>".toList

theorem completions_bracket : completions charTokenizer (constantGenerator bracketText) [1]
    [gpqaRollout] = [(((gpqaRollout, 0), 1), [bracketText])] := rfl

/-- Both evaluators return on it, and their results differ. -/
theorem rlcrTwins_differ_on_letters :
    ∃ out out', evaluateRlcrMode textExternals charTokenizer (constantGenerator bracketText)
        inOrder [1] false [gpqaRollout] = .ok out ∧
      evaluateBudgetForcedOutputsRlcr textExternals charTokenizer (constantGenerator bracketText)
        [1] [gpqaRollout] = .ok out' ∧ ¬ out.Agree out' := by
  have hbox : contains boxedOpen bracketText = false := by decide +kernel
  have hgpqa : isGpqa gpqaRollout.source = true := by decide
  have hcode : isCode gpqaRollout.source = false := by decide
  obtain ⟨⟨out, hout⟩, ⟨out', hout'⟩⟩ : (∃ out, evaluateRlcrMode textExternals charTokenizer
        (constantGenerator bracketText) inOrder [1] false [gpqaRollout] = .ok out) ∧
      ∃ out', evaluateBudgetForcedOutputsRlcr textExternals charTokenizer
        (constantGenerator bracketText) [1] [gpqaRollout] = .ok out' := by
    apply evaluators_return
    · rw [completions_bracket, List.forall_mem_singleton, List.forall_mem_singleton]
      exact fun hyes => absurd (hcode.symm.trans hyes) Bool.false_ne_true
    · rw [completions_bracket, List.forall_mem_singleton, List.forall_mem_singleton]
      refine scoreSequence_returns rfl (fun hsara => ?_) (fun hno => ?_)
      · rw [isSaraNumerical_of_isGpqa hgpqa] at hsara
        cases hsara
      · rw [useBoxedFallback, hbox, Bool.and_false] at hno
        cases hno
  refine ⟨out, out', hout, hout', fun hagree => ?_⟩
  have hall := textAgrees_of_agree hout hout' hagree
  rw [completions_bracket, List.forall_mem_singleton, List.forall_mem_singleton] at hall
  obtain ⟨t, htruth, -, -, hletters⟩ := hall
  obtain rfl := GroundTruth.value.inj htruth
  have hsame := hletters hgpqa 'A' (by decide +kernel) 'A' (by decide +kernel)
  exact absurd hsame (by decide +kernel)

end RLCM.Eval
