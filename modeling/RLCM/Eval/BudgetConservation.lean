/-
# `RLCM.Eval.BudgetConservation` — budget evaluation loses and mixes nothing

One record for every rollout and budget, in order; every generated output with the entry whose
prompt produced it, and none used twice; as many answers and accuracies in a record as there
are sequences; and statistics that are the counts and sums of the records (`Conserves`).

All of this holds of what the function returns.  It returns unless a grader or the code scorer
raises, and both do on texts a model may write: the numeric comparison rounds what `float`
reads, and `float` reads infinities; `compute_score` of `prime_code`, called with
`continuous=False`, returns a name it has not bound when a program fails a test.
`evaluateBudgetForcedOutputs_conserves_iff` is the exact condition.
-/
import RLCM.Eval.BudgetRun
import RLCM.Eval.NaturalEval

namespace RLCM.Eval

open Py Stats

variable {Token : Type} {n : ℕ}

/-! ## The lists of an entry -/

/-- Lists of `n` entries, the accuracies being zeros and ones. -/
structure EntryScore.WellFormed (n : ℕ) (score : EntryScore) : Prop where
  answers : score.forcedAnswers.length = n
  accuracies : score.forcedAccuracies.length = n
  zeroOne : ∀ acc ∈ score.forcedAccuracies, acc = 0 ∨ acc = 1

theorem accuracyOf_zero_or_one (isCorrect : Bool) :
    accuracyOf isCorrect = 0 ∨ accuracyOf isCorrect = 1 := by
  cases isCorrect with
  | false => exact Or.inl rfl
  | true => exact Or.inr rfl

theorem scoreCode_wellFormed {lookup : ℕ → ℚ × Bool} {output : RequestOutput}
    {score : EntryScore} (h : scoreCode lookup (some output) = .ok score) :
    score.WellFormed output.outputs.length := by
  obtain rfl := Except.ok.inj h
  refine ⟨List.length_map _, List.length_mapIdx, ?_⟩
  intro acc hacc
  obtain ⟨i, hi, rfl⟩ := List.mem_mapIdx.mp hacc
  exact accuracyOf_zero_or_one _

theorem scoreComplete_wellFormed {env : Externals} {entry : PromptMeta} {score : EntryScore}
    (h : scoreComplete env n entry = .ok score) : score.WellFormed n := by
  obtain ⟨graded, -, h⟩ := bind_eq_ok.mp h
  obtain ⟨verdict, -, h⟩ := bind_eq_ok.mp h
  obtain rfl := Except.ok.inj h
  refine ⟨List.length_replicate, List.length_replicate, ?_⟩
  intro acc hacc
  rw [List.eq_of_mem_replicate hacc]
  exact accuracyOf_zero_or_one _

theorem gradeSequence_accuracy {env : Externals} {gpqaXml : Bool} {entry : PromptMeta}
    {text : Str} {graded : Option Str × ℕ × Option PyFloat}
    (h : gradeSequence env gpqaXml entry text = .ok graded) :
    graded.2.1 = 0 ∨ graded.2.1 = 1 := by
  obtain ⟨_, -, h⟩ := bind_eq_ok.mp h
  obtain ⟨verdict, -, h⟩ := bind_eq_ok.mp h
  obtain rfl := Except.ok.inj h
  exact accuracyOf_zero_or_one verdict

theorem scoreTruncated_wellFormed {env : Externals} {gpqaXml : Bool} {entry : PromptMeta}
    {output : RequestOutput} {score : EntryScore}
    (h : scoreTruncated env gpqaXml entry (some output) = .ok score) :
    score.WellFormed output.outputs.length := by
  obtain ⟨sequences, hsequences, h⟩ := bind_eq_ok.mp h
  obtain rfl := Except.ok.inj hsequences
  obtain ⟨graded, hgraded, h⟩ := bind_eq_ok.mp h
  obtain rfl := Except.ok.inj h
  have hforall := mapM_eq_ok.mp hgraded
  refine ⟨?_, ?_, ?_⟩
  · rw [List.length_map, ← hforall.length_eq]
  · rw [List.length_map, ← hforall.length_eq]
  · intro acc hacc
    obtain ⟨g, hg, rfl⟩ := List.mem_map.mp hacc
    obtain ⟨i, hi⟩ := List.mem_iff_getElem?.mp hg
    obtain ⟨hlt, hget⟩ := List.getElem?_eq_some_iff.mp hi
    have hlt' : i < output.outputs.length := by
      rw [hforall.length_eq]
      exact hlt
    rw [← hget]
    exact gradeSequence_accuracy (hforall.get hlt' hlt)

/-- Whatever the branch, an entry with the output it needs gets `n` answers. -/
theorem scoreDirectly_wellFormed {env : Externals} {gpqaXml : Bool} {entry : Entry}
    (hneeds : entry.1.isCode = true ∨ entry.1.thinkingComplete = false →
      ∃ output, entry.2 = some output ∧ output.outputs.length = n) {score : EntryScore}
    (h : scoreDirectly env n gpqaXml entry = .ok score) : score.WellFormed n := by
  unfold scoreDirectly scoreEntry at h
  split at h
  case isTrue hcode =>
    obtain ⟨output, houtput, rfl⟩ := hneeds (Or.inl hcode)
    rw [houtput] at h
    exact scoreCode_wellFormed h
  case isFalse =>
    split at h
    case isTrue => exact scoreComplete_wellFormed h
    case isFalse hcomplete =>
      obtain ⟨output, houtput, rfl⟩ := hneeds (Or.inr (Bool.eq_false_iff.mpr hcomplete))
      rw [houtput] at h
      exact scoreTruncated_wellFormed h

/-! ## Statistics -/

theorem addRisk_counts (stats : BudgetStats) (risk : Option PyFloat) :
    (stats.addRisk risk).total = stats.total ∧ (stats.addRisk risk).correct = stats.correct ∧
      (stats.addRisk risk).extracted = stats.extracted := by
  cases risk with
  | none => exact ⟨rfl, rfl, rfl⟩
  | some risk => exact ⟨rfl, rfl, rfl⟩

theorem foldl_addRisk_counts (risks : List (Option PyFloat)) (stats : BudgetStats) :
    (risks.foldl BudgetStats.addRisk stats).total = stats.total ∧
      (risks.foldl BudgetStats.addRisk stats).correct = stats.correct ∧
      (risks.foldl BudgetStats.addRisk stats).extracted = stats.extracted := by
  induction risks generalizing stats with
  | nil => exact ⟨rfl, rfl, rfl⟩
  | cons risk risks ih =>
      obtain ⟨htotal, hcorrect, hextracted⟩ := ih (stats.addRisk risk)
      obtain ⟨htotal', hcorrect', hextracted'⟩ := addRisk_counts stats risk
      exact ⟨htotal.trans htotal', hcorrect.trans hcorrect', hextracted.trans hextracted'⟩

theorem foldl_addAnswer_counts (code : Bool) (truncatedCotLength : ℕ)
    (answers : List (Option Str × ℕ)) (stats : BudgetStats) :
    (answers.foldl (BudgetStats.addAnswer code truncatedCotLength) stats).total =
        stats.total + (answers.map (fun _ => 1)).sum ∧
      (answers.foldl (BudgetStats.addAnswer code truncatedCotLength) stats).correct =
        stats.correct + (answers.map (fun answer => if answer.2 = 0 then 0 else 1)).sum ∧
      (answers.foldl (BudgetStats.addAnswer code truncatedCotLength) stats).extracted =
        stats.extracted +
          (answers.map (fun answer => if wasExtracted code answer.1 then 1 else 0)).sum :=
  ⟨Dict.foldl_add _ BudgetStats.total _ (fun _ _ _ => rfl) stats,
    Dict.foldl_add _ BudgetStats.correct _ (fun _ _ _ => rfl) stats,
    Dict.foldl_add _ BudgetStats.extracted _ (fun _ _ _ => rfl) stats⟩

def extractedCount (entry : PromptMeta × EntryScore) : ℕ :=
  ((entry.2.forcedAnswers.zip entry.2.forcedAccuracies).map
    (fun answer => if wasExtracted entry.1.isCode answer.1 then 1 else 0)).sum

section AddEntry

variable {score : EntryScore} (hscore : score.WellFormed n) (stats : BudgetStats)
  (entry : PromptMeta)

include hscore

theorem length_zip_answers : (score.forcedAnswers.zip score.forcedAccuracies).length = n := by
  rw [List.length_zip, hscore.answers, hscore.accuracies, min_self]

theorem addEntry_total : (stats.addEntry (entry, score)).total = stats.total + n := by
  have hlength : ((score.forcedAnswers.zip score.forcedAccuracies).map (fun _ => 1)).sum = n := by
    rw [List.map_const', List.sum_replicate, length_zip_answers hscore]
    exact Nat.mul_one n
  rw [BudgetStats.addEntry, (foldl_addAnswer_counts _ _ _ _).1, (foldl_addRisk_counts _ _).1,
    hlength]

theorem addEntry_correct :
    (stats.addEntry (entry, score)).correct = stats.correct + score.forcedAccuracies.sum := by
  have hincs : (score.forcedAnswers.zip score.forcedAccuracies).map
      (fun answer => if answer.2 = 0 then 0 else 1) = score.forcedAccuracies := by
    have hsnd : (score.forcedAnswers.zip score.forcedAccuracies).map Prod.snd =
        score.forcedAccuracies :=
      List.map_snd_zip (hscore.accuracies.trans hscore.answers.symm).le
    conv_rhs => rw [← hsnd]
    apply List.map_congr_left
    intro answer hanswer
    rcases hscore.zeroOne answer.2 (List.of_mem_zip hanswer).2 with h | h
    · rw [h]
      rfl
    · rw [h]
      rfl
  rw [BudgetStats.addEntry, (foldl_addAnswer_counts _ _ _ _).2.1,
    (foldl_addRisk_counts _ _).2.1, hincs]

omit hscore in
theorem addEntry_extracted :
    (stats.addEntry (entry, score)).extracted =
      stats.extracted + extractedCount (entry, score) := by
  rw [BudgetStats.addEntry, (foldl_addAnswer_counts _ _ _ _).2.2,
    (foldl_addRisk_counts _ _).2.2]
  rfl

theorem extractedCount_le : extractedCount (entry, score) ≤ n := by
  have hle : ∀ inc ∈ (score.forcedAnswers.zip score.forcedAccuracies).map
      (fun answer => if wasExtracted entry.isCode answer.1 then 1 else 0), inc ≤ 1 := by
    intro inc hinc
    obtain ⟨answer, -, rfl⟩ := List.mem_map.mp hinc
    split
    case isTrue => exact le_rfl
    case isFalse => exact Nat.zero_le 1
  have hsum := List.sum_le_card_nsmul _ 1 hle
  rw [List.length_map, length_zip_answers hscore] at hsum
  exact hsum.trans_eq (Nat.mul_one n)

end AddEntry

def scoredAt (scored : List (Entry × EntryScore)) (b : ℤ) : List (Entry × EntryScore) :=
  scored.filter (fun es => es.1.1.budget = b)

theorem lookup_resultsOf (gpqaXml : Bool) {budgets : List ℤ} {b : ℤ} (hb : b ∈ budgets)
    (scored : List (Entry × EntryScore)) :
    (resultsOf gpqaXml budgets scored).budgetStats.lookup b =
      some (((scoredAt scored b).map (fun es => (es.1.1, es.2))).foldl BudgetStats.addEntry
        budgetStatsBase) := by
  have hvalues : Dict.valuesAt (scored.map (fun es => (es.1.1.budget, (es.1.1, es.2)))) b =
      (scoredAt scored b).map (fun es => (es.1.1, es.2)) := by
    rw [Dict.valuesAt, List.filter_map, List.map_map]
    rfl
  rw [resultsOf, Dict.lookup_tally, BudgetResults.start, Dict.lookup_assign_const, if_pos hb,
    hvalues]
  rfl

/-- The counts of a budget. -/
theorem stats_of_wellFormed (gpqaXml : Bool) {budgets : List ℤ} {b : ℤ} (hb : b ∈ budgets)
    {scored : List (Entry × EntryScore)} (hscored : ∀ es ∈ scored, es.2.WellFormed n) :
    ∃ stats, (resultsOf gpqaXml budgets scored).budgetStats.lookup b = some stats ∧
      stats.total = n * (scoredAt scored b).length ∧
      stats.correct = ((scoredAt scored b).map (fun es => es.2.forcedAccuracies.sum)).sum ∧
      stats.extracted ≤ stats.total := by
  have hformed : ∀ es ∈ (scoredAt scored b).map (fun es => (es.1.1, es.2)),
      es.2.WellFormed n := by
    intro es hes
    obtain ⟨es', hes', rfl⟩ := List.mem_map.mp hes
    exact hscored es' (List.mem_filter.mp hes').1
  refine ⟨_, lookup_resultsOf gpqaXml hb scored, ?_⟩
  have hlength : ((scoredAt scored b).map (fun es => (es.1.1, es.2))).length =
      (scoredAt scored b).length := List.length_map _
  have hsums : ((scoredAt scored b).map (fun es => (es.1.1, es.2))).map
      (fun es => es.2.forcedAccuracies.sum) =
        (scoredAt scored b).map (fun es => es.2.forcedAccuracies.sum) := List.map_map
  generalize (scoredAt scored b).map (fun es => (es.1.1, es.2)) = values at *
  have htotal := Dict.foldl_add BudgetStats.addEntry BudgetStats.total (fun _ => n)
    (fun stats es hes => addEntry_total (hformed es hes) stats es.1) budgetStatsBase
  have hcorrect := Dict.foldl_add BudgetStats.addEntry BudgetStats.correct
    (fun es => es.2.forcedAccuracies.sum)
    (fun stats es hes => addEntry_correct (hformed es hes) stats es.1) budgetStatsBase
  have hextracted := Dict.foldl_add BudgetStats.addEntry BudgetStats.extracted extractedCount
    (fun stats es (_ : es ∈ values) => addEntry_extracted stats es.1) budgetStatsBase
  refine ⟨?_, ?_, ?_⟩
  · rw [htotal, List.map_const', List.sum_replicate, hlength]
    exact (Nat.zero_add _).trans (Nat.mul_comm _ _)
  · rw [hcorrect, hsums]
    exact Nat.zero_add _
  · rw [htotal, hextracted]
    refine Nat.add_le_add_left (List.sum_le_sum (fun es hes => ?_)) _
    exact extractedCount_le (hformed es hes) es.1

/-! ## Conservation -/

/-- Every queue holds the prompts of its entries, and the objects generated for them are handed
to these entries, in order; the other entries get none. -/
def OutputsRouted (tok : Tokenizer Token) (gen : Generator Token n) (args : BudgetEvalArgs)
    (data : List Rollout) : Prop :=
  let entries := allEntries tok args data
  let slots := attachOutputs gen (prepare tok args data)
  slots.length = entries.length ∧
    (∀ queue ∈ [Queue.math, Queue.code],
      (∀ prompt ∈ promptsOf entries queue, prompt.isSome = true) ∧
        outputsOf entries slots queue =
          (gen.generate queue (promptsOf entries queue)).map some) ∧
    ∀ output ∈ outputsOf entries slots .noGeneration, output = none

/-- Nothing is lost and nothing is mixed. -/
structure Conserves (env : Externals) (tok : Tokenizer Token) (gen : Generator Token n)
    (budgets : List ℤ) (gpqaXml : Bool) (data : List Rollout) (out : BudgetResults) : Prop where
  routed : OutputsRouted tok gen (boxedMode budgets gpqaXml) data
  rows : out.allResults.map BudgetRecord.toBudgetRow =
    data.zipIdx.flatMap (fun item => budgets.map (rowAt tok item.2 item.1))
  graded : List.Forall₂
    (fun entry record => ∃ score, scoreDirectly env n gpqaXml entry = .ok score ∧
      record = budgetRecordOf gpqaXml entry.1 score)
    (generatedEntries tok gen budgets gpqaXml data) out.allResults
  answers : ∀ record ∈ out.allResults,
    record.forcedAnswers.length = n ∧ record.forcedAccuracies.length = n
  stats : ∀ b ∈ budgets, ∃ stats, out.budgetStats.lookup b = some stats ∧
    stats.total = n * data.length ∧
    stats.correct = ((out.allResults.filter (fun record => record.budget = b)).map
      (fun record => record.forcedAccuracies.sum)).sum ∧
    stats.extracted ≤ stats.total

section Conservation

variable {tok : Tokenizer Token} {gen : Generator Token n} {budgets : List ℤ} {gpqaXml : Bool}
  {data : List Rollout}

theorem isSome_prompt {args : BudgetEvalArgs}
    {entry : PromptMeta × Option (List Token) × Queue} (h : entry ∈ allEntries tok args data)
    (hqueue : queueOf entry ≠ .noGeneration) : entry.2.1.isSome = true := by
  have hprompt : ∀ (prompt thinking : Str) (closingPrompt : Option Str) (always : Bool),
      ∀ p ∈ buildBudgetPrompts tok prompt thinking args.budgets closingPrompt always,
        p.tokenPrompt.isSome = true ∨ (p.thinkingComplete = true ∧ always = false) := by
    intro prompt thinking closingPrompt always p hp
    obtain ⟨b, -, rfl⟩ := List.mem_map.mp hp
    split
    case isTrue hcomplete =>
      refine Or.inr ⟨rfl, ?_⟩
      have hboxed := (Bool.and_eq_true_iff.mp (Bool.and_eq_true_iff.mp hcomplete).2).1
      simpa using hboxed
    case isFalse => exact Or.inl rfl
  obtain ⟨item, -, h⟩ := List.mem_flatMap.mp h
  unfold rolloutEntries at h
  split at h
  case isTrue =>
    obtain ⟨p, hp, rfl⟩ := List.mem_map.mp h
    obtain ⟨b, -, rfl⟩ := List.mem_map.mp hp
    rfl
  case isFalse =>
    split at h
    case isTrue =>
      obtain ⟨p, hp, rfl⟩ := List.mem_map.mp h
      exact (hprompt _ _ _ _ p hp).resolve_right (fun hno => absurd hno.2 (by decide))
    case isFalse =>
      obtain ⟨p, hp, rfl⟩ := List.mem_map.mp h
      rcases hprompt _ _ _ _ p hp with hsome | ⟨hcomplete, hgpqa⟩
      · exact hsome
      · refine absurd ?_ hqueue
        simp [queueOf, hcomplete, hgpqa]

/-- The routing loses and mixes nothing, whether or not the graders return. -/
theorem outputsRouted (args : BudgetEvalArgs) : OutputsRouted tok gen args data := by
  have hprompts : ∀ queue, queue ≠ .noGeneration →
      ∀ prompt ∈ promptsOf (allEntries tok args data) queue, prompt.isSome = true := by
    intro queue hqueue prompt hprompt
    obtain ⟨entry, hentry, rfl⟩ := List.mem_map.mp hprompt
    obtain ⟨hentry, hq⟩ := List.mem_filter.mp hentry
    exact isSome_prompt hentry ((of_decide_eq_true hq).trans_ne hqueue)
  refine ⟨length_attachOutputs tok args data gen, ?_, outputsOf_noGeneration tok args data gen⟩
  intro queue hqueue
  rcases List.mem_cons.mp hqueue with rfl | hqueue
  · exact ⟨hprompts .math (by decide), outputsOf_math tok args data gen⟩
  · obtain rfl := List.mem_singleton.mp hqueue
    exact ⟨hprompts .code (by decide), outputsOf_code tok args data gen⟩

/-- With distinct budgets every budget has one entry for each rollout. -/
theorem length_scoredAt (hbudgets : budgets.Nodup) {b : ℤ} (hb : b ∈ budgets)
    {scored : List (Entry × EntryScore)}
    (hfst : scored.map Prod.fst = generatedEntries tok gen budgets gpqaXml data) :
    (scoredAt scored b).length = data.length := by
  have hkeys : scored.map (fun es => es.1.1.budget) = data.zipIdx.flatMap (fun _ => budgets) := by
    calc scored.map (fun es => es.1.1.budget)
        = ((scored.map Prod.fst).map (fun entry => entry.1.row)).map BudgetRow.budget := by
          rw [List.map_map, List.map_map]
          rfl
      _ = (data.zipIdx.flatMap (fun item => budgets.map (rowAt tok item.2 item.1))).map
            BudgetRow.budget := by rw [hfst, rows_generatedEntries]
      _ = data.zipIdx.flatMap (fun _ => budgets) := by
          rw [List.map_flatMap]
          apply List.flatMap_congr
          intro item _
          rw [List.map_map]
          exact List.map_id budgets
  have hcount : (scoredAt scored b).length = (scored.map (fun es => es.1.1.budget)).count b := by
    rw [scoredAt, ← List.countP_eq_length_filter, List.count, List.countP_map]
    rfl
  have hone : ∀ item : Rollout × ℕ, (List.count b ∘ fun _ => budgets) item = 1 := by
    intro item
    exact List.count_eq_one_of_mem hbudgets hb
  rw [hcount, hkeys, List.count_flatMap, List.map_congr_left (fun item _ => hone item),
    List.map_const', List.sum_replicate, List.length_zipIdx]
  exact Nat.mul_one _

variable {env : Externals} {pool : CompletionOrder}

/-- What the function returns loses and mixes nothing. -/
theorem conserves_of_returns (hbudgets : budgets.Nodup) {out : BudgetResults}
    (h : evaluateBudgetForcedOutputs env tok gen pool budgets gpqaXml data = .ok out) :
    Conserves env tok gen budgets gpqaXml data out := by
  rw [evaluateBudgetForcedOutputs_eq] at h
  obtain ⟨-, -, h⟩ := bind_eq_ok.mp h
  obtain ⟨scores, hscores, h⟩ := bind_eq_ok.mp h
  obtain rfl := Except.ok.inj h
  have hforall := mapM_eq_ok.mp hscores
  have hfst : ((generatedEntries tok gen budgets gpqaXml data).zip scores).map Prod.fst =
      generatedEntries tok gen budgets gpqaXml data :=
    List.map_fst_zip hforall.length_eq.le
  have hscored : ∀ es ∈ (generatedEntries tok gen budgets gpqaXml data).zip scores,
      scoreDirectly env n gpqaXml es.1 = .ok es.2 := by
    intro es hes
    exact List.forall₂_zip hforall hes
  have hformed : ∀ es ∈ (generatedEntries tok gen budgets gpqaXml data).zip scores,
      es.2.WellFormed n := by
    intro es hes
    exact scoreDirectly_wellFormed (output_of_mem (List.of_mem_zip hes).1) (hscored es hes)
  refine ⟨outputsRouted _, ?_, ?_, ?_, ?_⟩
  · -- a record copies the row of its entry
    rw [← rows_generatedEntries, resultsOf, List.map_map]
    conv_rhs => rw [← hfst, List.map_map]
    rfl
  · rw [resultsOf, ← hfst, List.forall₂_map_left_iff, List.forall₂_map_right_iff, hfst]
    exact List.forall₂_same.mpr (fun es hes => ⟨es.2, hscored es hes, rfl⟩)
  · intro record hrecord
    obtain ⟨es, hes, rfl⟩ := List.mem_map.mp hrecord
    exact ⟨(hformed es hes).answers, (hformed es hes).accuracies⟩
  · intro b hb
    obtain ⟨stats, hstats, htotal, hcorrect, hextracted⟩ := stats_of_wellFormed gpqaXml hb hformed
    refine ⟨stats, hstats, ?_, ?_, hextracted⟩
    · rw [htotal, length_scoredAt hbudgets hb hfst]
    · rw [hcorrect, resultsOf, List.filter_map, List.map_map]
      rfl

theorem evaluateBudgetForcedOutputs_returns_iff :
    (∃ out, evaluateBudgetForcedOutputs env tok gen pool budgets gpqaXml data = .ok out) ↔
      ∀ entry ∈ generatedEntries tok gen budgets gpqaXml data,
        ScorerReturns env entry ∧
          ∀ text ∈ gradedTexts gpqaXml entry, GradersReturn env entry.1 text := by
  have hentry : ∀ entry ∈ generatedEntries tok gen budgets gpqaXml data,
      ((∃ score, scoreDirectly env n gpqaXml entry = .ok score) ↔
        ∀ text ∈ gradedTexts gpqaXml entry, GradersReturn env entry.1 text) := by
    intro entry hmem
    refine scoreDirectly_returns_iff (fun hneeds => ?_)
    obtain ⟨output, houtput, -⟩ := output_of_mem hmem hneeds
    exact ⟨output, houtput⟩
  have hcache := codeScoreCache_returns_iff env pool
    (generatedEntries tok gen budgets gpqaXml data)
  rw [evaluateBudgetForcedOutputs_eq, bind_returns_iff]
  constructor
  · rintro ⟨cache, hfills, hscored⟩ entry hmem
    obtain ⟨scores, hscores, -⟩ := bind_returns_iff.mp hscored
    exact ⟨hcache.mp ⟨cache, hfills⟩ entry hmem,
      (hentry entry hmem).mp (mapM_returns_iff.mp ⟨scores, hscores⟩ entry hmem)⟩
  · intro h
    obtain ⟨cache, hfills⟩ := hcache.mpr (fun entry hmem => (h entry hmem).1)
    obtain ⟨scores, hscores⟩ := mapM_returns_iff.mpr
      (fun entry hmem => (hentry entry hmem).mpr (h entry hmem).2)
    exact ⟨cache, hfills, bind_returns_iff.mpr ⟨scores, hscores, _, rfl⟩⟩

end Conservation

/-- With distinct budgets, the function returns what loses and mixes nothing exactly when the
code scorer returns on every code answer and the graders on every text that is graded. -/
theorem evaluateBudgetForcedOutputs_conserves_iff (env : Externals) (tok : Tokenizer Token)
    (gen : Generator Token n) (pool : CompletionOrder) {budgets : List ℤ}
    (hbudgets : budgets.Nodup) (gpqaXml : Bool) (data : List Rollout) :
    (∃ out, evaluateBudgetForcedOutputs env tok gen pool budgets gpqaXml data = .ok out ∧
        Conserves env tok gen budgets gpqaXml data out) ↔
      ∀ entry ∈ generatedEntries tok gen budgets gpqaXml data,
        ScorerReturns env entry ∧
          ∀ text ∈ gradedTexts gpqaXml entry, GradersReturn env entry.1 text := by
  have hreturns : (∃ out, evaluateBudgetForcedOutputs env tok gen pool budgets gpqaXml data =
      .ok out) ↔ ∀ entry ∈ generatedEntries tok gen budgets gpqaXml data,
        ScorerReturns env entry ∧
          ∀ text ∈ gradedTexts gpqaXml entry, GradersReturn env entry.1 text :=
    evaluateBudgetForcedOutputs_returns_iff
  rw [← hreturns]
  constructor
  · rintro ⟨out, hout, -⟩
    exact ⟨out, hout⟩
  · rintro ⟨out, hout⟩
    exact ⟨out, hout, conserves_of_returns hbudgets hout⟩

/-! ## An infinite answer

One numeric task, unfinished at the budget, whose forced answer is `inf}`. -/

def sameText (text : Str) (prompts : List (Option (List Char))) : List RequestOutput :=
  prompts.map (fun _ => ⟨[text]⟩)

theorem length_outputs_sameText (text : Str) (prompts : List (Option (List Char))) :
    ∀ output ∈ sameText text prompts, output.outputs.length = 1 := by
  intro output houtput
  obtain ⟨_, -, rfl⟩ := List.mem_map.mp houtput
  rfl

/-- A generator that answers every prompt alike. -/
def constantGenerator (text : Str) : Generator Char 1 where
  generate := fun _ => sameText text
  length_generate := fun _ _ => List.length_map _
  length_outputs := fun _ => length_outputs_sameText text

/-- Graders that have texts only to compare, and a code scorer whose programs fail. -/
def textExternals : Externals where
  sympy := ⟨Unit, fun _ => none, fun _ => .error (.valueError ""), fun _ _ => none⟩
  evalFloat := fun _ => none
  uni := asciiUnicode
  strOfList := List.flatten
  codeScore := fun _ _ => .error .unboundLocalError

/-- Threads that finish in the order in which they started. -/
def inOrder : CompletionOrder := ⟨id, fun _ => List.Perm.refl _⟩

/-- The task. -/
def saraRollout : Rollout where
  input := "q".toList
  output := "t".toList
  acc := false
  gts := some (.value "1200".toList)
  groundTruth := none
  dataSource := some "sara".toList

theorem evaluateBudgetForcedOutputs_conserves_iff_sara :
    (∃ out, evaluateBudgetForcedOutputs textExternals charTokenizer
        (constantGenerator "1200\x7d".toList) inOrder [1] false [saraRollout] = .ok out ∧
        Conserves textExternals charTokenizer (constantGenerator "1200\x7d".toList) [1] false
          [saraRollout] out) ↔
      ∀ entry ∈ generatedEntries charTokenizer (constantGenerator "1200\x7d".toList) [1] false
        [saraRollout], ScorerReturns textExternals entry ∧
          ∀ text ∈ gradedTexts false entry, GradersReturn textExternals entry.1 text :=
  evaluateBudgetForcedOutputs_conserves_iff textExternals charTokenizer
    (constantGenerator "1200\x7d".toList) inOrder (by decide) false [saraRollout]

/-- The evaluation of the task raises, and no record is returned. -/
theorem evaluateBudgetForcedOutputs_infinite :
    ¬ ∃ out, evaluateBudgetForcedOutputs textExternals charTokenizer
        (constantGenerator "inf\x7d".toList) inOrder [1] false [saraRollout] = .ok out ∧
        Conserves textExternals charTokenizer (constantGenerator "inf\x7d".toList) [1] false
          [saraRollout] out := by
  rintro ⟨out, hout, -⟩
  have hreturns := evaluateBudgetForcedOutputs_returns_iff.mp ⟨out, hout⟩
  have hentries : ∃ entry, generatedEntries charTokenizer (constantGenerator "inf\x7d".toList)
      [1] false [saraRollout] = [entry] ∧ gradedTexts false entry = ["\\boxed\x7binf\x7d".toList] ∧
        entry.1.isSara textExternals = true ∧
        entry.1.groundTruth.str textExternals = "1200".toList :=
    ⟨_, rfl, rfl, by decide +kernel, rfl⟩
  obtain ⟨entry, hentry, htexts, hsara, htruth⟩ := hentries
  have hgraders := (hreturns entry (by rw [hentry]; exact List.mem_singleton.mpr rfl)).2
    "\\boxed\x7binf\x7d".toList (by rw [htexts]; exact List.mem_singleton.mpr rfl)
  have hfinite := hgraders.2 hsara
  rw [htruth] at hfinite
  obtain ⟨gtValue, hgt⟩ : ∃ gtValue, numericValue "1200".toList = some gtValue :=
    Option.isSome_iff_exists.mp (by decide +kernel)
  have hpredicted : extractNumericAnswer "\\boxed\x7binf\x7d".toList = some (.infinite false) := by
    decide +kernel
  exact absurd (hfinite _ hpredicted gtValue hgt).1 (by decide)

end RLCM.Eval
