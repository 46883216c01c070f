/-
# `RLCM.Eval.ResultsTable` — which datasets are in `results.json`

The last stage of `evaluate.py` picks one budget for all datasets, the largest of
all configurations unless `--final_budget` names one, and `natural_eval` keeps of
every dataset the records at that budget.  A dataset without such a record is
skipped with a warning, and a requested name without a configuration never got
that far, so neither is in the table or in its average.

`results_hold_datasets_at_final_budget` says for a run that finished which
datasets are in the table: those with a record at that budget.
-/
import RLCM.Eval.Freshness
import RLCM.Eval.NaturalEval
import RLCM.Eval.RlcrScores
import RLCM.RewardScore.LastTags

namespace RLCM.Eval

open Py Stats

variable {Token F : Type}

/-! ## Files of a dataset -/

/-- What the table reads of a record. -/
structure TableRow extends BudgetRow where
  meanConfidence : Option ℚ

/-- What the files hold. -/
structure Contents (F : Type) where
  budgetEval : OutputId → List TableRow
  hiddenStates : OutputId → List F
  rollouts : OutputId → List Rollout

/-- The files of a dataset; a missing file is `none`. -/
structure TableFiles (F : Type) where
  budgetEval : Option (List TableRow)
  hiddenStates : Option (List F)
  rollouts : Option (List Rollout)

/-- The files named by `_resolve_paths`. -/
def resolvePaths (w : World) (contents : Contents F) (baseDir : Path) (dataset : String) :
    TableFiles F :=
  { budgetEval := (w.outputs ⟨baseDir ++ [dataset], .budgetEval⟩).map
      (fun _ => contents.budgetEval ⟨baseDir ++ [dataset], .budgetEval⟩)
    hiddenStates := (w.outputs ⟨baseDir ++ [dataset], .hidden⟩).map
      (fun _ => contents.hiddenStates ⟨baseDir ++ [dataset], .hidden⟩)
    rollouts := (w.outputs ⟨baseDir ++ [dataset], .rollouts⟩).map
      (fun _ => contents.rollouts ⟨baseDir ++ [dataset], .rollouts⟩) }

/-- The files as `_evaluate_boxed` reads them. -/
def TableFiles.boxed (files : TableFiles F) : DatasetFiles F where
  budgetEval := files.budgetEval.map (List.map TableRow.toBudgetRow)
  hiddenStates := files.hiddenStates
  rollouts := files.rollouts

/-! ## One dataset -/

/-- `rollout_out.get(ridx, "")`. -/
def rolloutOut (rollouts : List Rollout) (ridx : ℕ) : Str :=
  (rollouts[ridx]?).elim [] Rollout.output

/-- `_evaluate_rlcr`; `None` for a dataset that is skipped. -/
def evaluateRlcr (files : TableFiles F) (finalBudget : ℤ) (bins : ℕ) : Option NaturalReport :=
  match files.budgetEval with
  | none => none
  | some budgetRows =>
      let finalRecords := budgetRows.filter (fun row => row.budget = finalBudget)
      if finalRecords = [] then none
      else
        let rollouts := files.rollouts.getD []
        let confidences := finalRecords.map (fun row => row.meanConfidence.getD (1 / 2))
        let accuracies := finalRecords.map (fun row =>
          if (RewardScore.extractAnswerTag (rolloutOut rollouts row.rolloutIdx)).isSome then
            rolloutAcc rollouts row.rolloutIdx
          else 0)
        some (finalize confidences accuracies bins)

/-- What evaluates the confidences: the elementary functions and the loaded
probe. -/
structure Reader (F : Type) where
  fns : Elementary
  probe : List F → List ℚ

/-- The body of the loop of `natural_eval`. -/
def evaluateOne (reader : Reader F) (rlcr : Bool) (files : TableFiles F) (finalBudget : ℤ)
    (bins : ℕ) : Except Error (Option NaturalReport) :=
  if rlcr then .ok (evaluateRlcr files finalBudget bins)
  else evaluateBoxed reader.fns reader.probe files.boxed finalBudget bins

/-! ## The table -/

/-- A value of `results.json`. -/
inductive ResultsEntry where
  | dataset (report : NaturalReport)
  | average (naturalAccuracy naturalEce : ℚ) (numDatasets : ℕ)
  | metadata (rlcr : Bool) (finalBudget : ℤ) (bins : ℕ)
deriving DecidableEq

/-- `results[dataset] = res`, unless there is none. -/
def addDataset (rows : Dict String NaturalReport) (dataset : String) :
    Option NaturalReport → Dict String NaturalReport
  | none => rows
  | some res => rows.insert dataset res

def reports (rows : Dict String NaturalReport) : List NaturalReport := rows.entries.map Sigma.snd

/-- The entries of the datasets, `_average` and `_meta`. -/
def withAverage (rows : Dict String NaturalReport) (rlcr : Bool) (finalBudget : ℤ) (bins : ℕ) :
    Dict String ResultsEntry :=
  let results := Dict.assign ∅ (rows.entries.map (fun e => (e.1, ResultsEntry.dataset e.2)))
  let results := if reports rows = [] then results
    else results.insert "_average"
      (.average (mean ((reports rows).map NaturalReport.naturalAccuracy))
        (mean ((reports rows).map NaturalReport.naturalEce)) (reports rows).length)
  results.insert "_meta" (.metadata rlcr finalBudget bins)

def naturalEval (reader : Reader F) (w : World) (contents : Contents F) (baseDir : Path)
    (datasets : List String) (rlcr : Bool) (finalBudget : ℤ) (bins : ℕ) :
    Except Error (Dict String ResultsEntry) := do
  let rows ← datasets.foldlM (fun rows dataset => do
    let res ← evaluateOne reader rlcr (resolvePaths w contents baseDir dataset) finalBudget bins
    pure (addDataset rows dataset res)) ∅
  pure (withAverage rows rlcr finalBudget bins)

/-- `max`. -/
def maximum (xs : List ℤ) : Except Error ℤ :=
  match xs.max? with
  | some x => .ok x
  | none => .error (.valueError "max() iterable argument is empty")

/-- `final_budget` of a configuration. -/
def DatasetConfig.finalBudget (cfg : DatasetConfig) : Except Error ℤ := maximum cfg.budgets

namespace Invocation

variable (inv : Invocation)

/-- `args.final_budget or max(c.final_budget for c in configs)`. -/
def chosenBudget : Except Error ℤ :=
  if inv.finalBudget ≠ 0 then .ok inv.finalBudget
  else do
    let budgets ← inv.configs.mapM DatasetConfig.finalBudget
    maximum budgets

/-- What the last stage writes to `results.json`. -/
def results (reader : Reader F) (w : World) (contents : Contents F) :
    Except Error (Dict String ResultsEntry) := do
  let finalBudget ← inv.chosenBudget
  naturalEval reader w contents inv.root (inv.configs.map (fun cfg => cfg.runName)) inv.rlcr
    finalBudget inv.bins

end Invocation

/-! ## A dataset is skipped when it has no record at the budget -/

section Skip

variable {files : TableFiles F} {rows : List TableRow} {finalBudget : ℤ} {bins : ℕ}

/-- With its budget evaluation there, a dataset is skipped in mode `rlcr` exactly
when no record is at the budget. -/
theorem evaluateRlcr_isSome (hrows : files.budgetEval = some rows) :
    (evaluateRlcr files finalBudget bins).isSome = true ↔
      ∃ row ∈ rows, row.budget = finalBudget := by
  unfold evaluateRlcr
  rw [hrows]
  dsimp only
  split_ifs with hnil
  · rw [List.filter_eq_nil_iff] at hnil
    refine iff_of_false Bool.false_ne_true ?_
    rintro ⟨row, hrow, hbudget⟩
    exact hnil row hrow (decide_eq_true hbudget)
  · obtain ⟨row, hrow⟩ := List.exists_mem_of_ne_nil _ hnil
    obtain ⟨hmem, hbudget⟩ := List.mem_filter.mp hrow
    exact iff_of_true rfl ⟨row, hmem, of_decide_eq_true hbudget⟩

/-- With all its files there, likewise in mode `boxed`. -/
theorem evaluateBoxed_isSome {fns : Elementary} {probe : List F → List ℚ} {hiddenStates : List F}
    {rollouts : List Rollout} {res : Option NaturalReport}
    (hrows : files.budgetEval = some rows) (hstates : files.hiddenStates = some hiddenStates)
    (hrollouts : files.rollouts = some rollouts)
    (h : evaluateBoxed fns probe files.boxed finalBudget bins = .ok res) :
    res.isSome = true ↔ ∃ row ∈ rows, row.budget = finalBudget := by
  have hexists : (∃ row ∈ rows, row.budget = finalBudget) ↔
      (finalRecords (rows.map TableRow.toBudgetRow) finalBudget).map Prod.fst ≠ [] := by
    constructor
    · rintro ⟨row, hrow, hbudget⟩
      exact List.ne_nil_of_mem (mem_map_finalRecords.mpr
        ⟨List.mem_map.mpr ⟨row, hrow, rfl⟩, hbudget⟩)
    · intro hne
      obtain ⟨record, hrecord⟩ := List.exists_mem_of_ne_nil _ hne
      obtain ⟨hmem, hbudget⟩ := mem_map_finalRecords.mp hrecord
      obtain ⟨row, hrow, rfl⟩ := List.mem_map.mp hmem
      exact ⟨row, hrow, hbudget⟩
  rw [hexists, ne_eq, List.map_eq_nil_iff]
  unfold evaluateBoxed TableFiles.boxed at h
  rw [hrows, hstates, hrollouts] at h
  dsimp only [Option.map_some] at h
  split_ifs at h with hnil
  · cases h
    exact iff_of_false Bool.false_ne_true (fun hne => hne hnil)
  · obtain ⟨selected, _, h⟩ := bind_eq_ok.mp h
    cases h
    exact iff_of_true rfl hnil

end Skip

/-! ## The loop over the datasets -/

/-- Every dataset already done has its report or none, and no other name has. -/
def RowsOf (evaluate : String → Except Error (Option NaturalReport)) (done : List String)
    (rows : Dict String NaturalReport) : Prop :=
  ∀ name, (name ∈ done → evaluate name = .ok (rows.lookup name)) ∧
    (name ∉ done → rows.lookup name = none)

theorem RowsOf.addDataset {evaluate : String → Except Error (Option NaturalReport)}
    {done : List String} {rows : Dict String NaturalReport} (h : RowsOf evaluate done rows)
    {dataset : String} {res : Option NaturalReport} (hres : evaluate dataset = .ok res) :
    RowsOf evaluate (done ++ [dataset]) (addDataset rows dataset res) := by
  have hself : (Eval.addDataset rows dataset res).lookup dataset = res := by
    cases res with
    | some report => exact AList.lookup_insert rows
    | none =>
        -- a dataset done before was skipped then as well
        by_cases hdone : dataset ∈ done
        · exact Except.ok.inj (((h dataset).1 hdone).symm.trans hres)
        · exact (h dataset).2 hdone
  have hother : ∀ name, name ≠ dataset →
      (Eval.addDataset rows dataset res).lookup name = rows.lookup name := by
    intro name hne
    cases res with
    | some report => exact AList.lookup_insert_ne hne
    | none => rfl
  intro name
  by_cases hname : name = dataset
  · subst hname
    rw [hself]
    exact ⟨fun _ => hres, fun hnot => absurd (List.mem_append_right _ List.mem_cons_self) hnot⟩
  · rw [hother name hname]
    refine ⟨fun hmem => (h name).1 ?_, fun hnot => (h name).2 fun hmem =>
      hnot (List.mem_append_left _ hmem)⟩
    rcases List.mem_append.mp hmem with hmem | hmem
    · exact hmem
    · exact absurd (List.mem_singleton.mp hmem) hname

theorem rowsOf_foldlM {evaluate : String → Except Error (Option NaturalReport)}
    (rest : List String) : ∀ {done : List String} {rows rows' : Dict String NaturalReport},
    RowsOf evaluate done rows →
    rest.foldlM (fun rows dataset => do
      let res ← evaluate dataset
      pure (addDataset rows dataset res)) rows = .ok rows' →
    RowsOf evaluate (done ++ rest) rows' := by
  induction rest with
  | nil =>
      intro done rows rows' h hloop
      cases hloop
      rw [List.append_nil]
      exact h
  | cons dataset rest ih =>
      intro done rows rows' h hloop
      rw [List.foldlM_cons] at hloop
      obtain ⟨rows₁, hstep, hloop⟩ := bind_eq_ok.mp hloop
      obtain ⟨res, hres, hstep⟩ := bind_eq_ok.mp hstep
      cases hstep
      have hrest := ih (h.addDataset hres) hloop
      rw [List.append_assoc] at hrest
      exact hrest

/-! ## The table holds the rows -/

section Lookup

variable {rows : Dict String NaturalReport} {rlcr : Bool} {finalBudget : ℤ} {bins : ℕ}

theorem lookup_withAverage {name : String} (haverage : name ≠ "_average") (hmeta : name ≠ "_meta") :
    (withAverage rows rlcr finalBudget bins).lookup name =
      (rows.lookup name).map ResultsEntry.dataset := by
  unfold withAverage
  dsimp only
  rw [AList.lookup_insert_ne hmeta]
  split_ifs
  · exact Dict.lookup_assign_entries rows _ name
  · rw [AList.lookup_insert_ne haverage]
    exact Dict.lookup_assign_entries rows _ name

theorem lookup_withAverage_average :
    (withAverage rows rlcr finalBudget bins).lookup "_average" =
      if reports rows = [] then none
      else some (.average (mean ((reports rows).map NaturalReport.naturalAccuracy))
        (mean ((reports rows).map NaturalReport.naturalEce)) (reports rows).length) := by
  unfold withAverage
  dsimp only
  rw [AList.lookup_insert_ne (by decide)]
  split_ifs with hnil
  · rw [Dict.lookup_assign_entries]
    cases hlook : rows.lookup "_average" with
    | none => rfl
    | some report =>
        have hmem : report ∈ reports rows :=
          List.mem_map.mpr ⟨⟨"_average", report⟩, AList.mem_lookup_iff.mp hlook, rfl⟩
        rw [hnil] at hmem
        cases hmem
  · exact AList.lookup_insert _

end Lookup

/-! ## Records at the budgets of a configuration -/

/-- The budgets of the records of a dataset are those of its configuration. -/
def RunWith (contents : Contents F) (cfg : DatasetConfig) : Prop :=
  ∀ b, (∃ row ∈ contents.budgetEval cfg.budgetEvalFile, row.budget = b) ↔ b ∈ cfg.budgets

section RunWith

variable {contents : Contents F} {cfg : DatasetConfig} {data : List Rollout}

theorem exists_request_iff {budgets : List ℤ} (hdata : data ≠ []) (b : ℤ) :
    (∃ request ∈ requests budgets data, request.2 = b) ↔ b ∈ budgets := by
  unfold requests
  constructor
  · rintro ⟨request, hrequest, rfl⟩
    obtain ⟨item, -, hmem⟩ := List.mem_flatMap.mp hrequest
    obtain ⟨budget, hbudget, rfl⟩ := List.mem_map.mp hmem
    exact hbudget
  · intro hb
    obtain ⟨item, rest, rfl⟩ := List.exists_cons_of_ne_nil hdata
    exact ⟨((item, 0), b), List.mem_flatMap.mpr ⟨(item, 0), by simp, List.mem_map.mpr ⟨b, hb, rfl⟩⟩,
      rfl⟩

theorem runWith_of_requests (hdata : data ≠ [])
    (row : (Rollout × ℕ) × ℤ → BudgetRow) (hbudget : ∀ request, (row request).budget = request.2)
    (hrows : (contents.budgetEval cfg.budgetEvalFile).map TableRow.toBudgetRow =
      (requests cfg.budgets data).map row) : RunWith contents cfg := by
  have hbudgets : (contents.budgetEval cfg.budgetEvalFile).map (fun record => record.budget) =
      (requests cfg.budgets data).map Prod.snd := by
    have h := congrArg (List.map BudgetRow.budget) hrows
    rw [List.map_map, List.map_map] at h
    exact h.trans (List.map_congr_left fun request _ => hbudget request)
  intro b
  rw [← exists_request_iff hdata b, ← List.mem_map, ← List.mem_map, hbudgets]

theorem runWith_budgetRows (tok : Tokenizer Token) {gpqaXml : Bool} (hdata : data ≠ [])
    (hrows : (contents.budgetEval cfg.budgetEvalFile).map TableRow.toBudgetRow =
      budgetRows tok ⟨cfg.budgets, false, gpqaXml⟩ data) : RunWith contents cfg := by
  refine runWith_of_requests hdata (rowOf tok) (fun _ => rfl) ?_
  rw [hrows, budgetRows_eq, requests, List.map_flatMap]
  refine List.flatMap_congr fun item _ => ?_
  rw [List.map_map]
  rfl

/-- The records that `2_budget_eval_rlcr.py` writes for at least one rollout. -/
theorem runWith_rlcr {n : ℕ} (env : Externals) (tok : Tokenizer Token) (gen : Generator Token n)
    (hdata : data ≠ []) {out : RlcrResults}
    (hout : evaluateBudgetForcedOutputsRlcr env tok gen cfg.budgets data = .ok out)
    (hrows : contents.budgetEval cfg.budgetEvalFile =
      out.allResults.map (fun record => ⟨record.toBudgetRow, some record.meanConfidence⟩)) :
    RunWith contents cfg := by
  refine runWith_of_requests hdata (rawRowOf tok) (fun _ => rfl) ?_
  rw [evaluateBudgetForcedOutputsRlcr_eq_runRows, runRows_eq] at hout
  obtain ⟨scores, hscores, hout⟩ := bind_eq_ok.mp hout
  cases hout
  have hcompletions : (completions tok gen cfg.budgets data).map Prod.fst =
      requests cfg.budgets data := by
    refine List.map_fst_zip ?_
    rw [List.length_map, gen.length_generate, List.length_map]
  have hlength := (mapM_eq_ok.mp hscores).length_eq
  rw [List.length_map] at hlength
  have hfst : (((completions tok gen cfg.budgets data).map (fun c => rawRowOf tok c.1)).zip
      scores).map Prod.fst =
        (completions tok gen cfg.budgets data).map (fun c => rawRowOf tok c.1) :=
    List.map_fst_zip (by rw [List.length_map, hlength])
  rw [hrows, ← hcompletions, List.map_map, List.map_map, rlcrResultsOf, List.map_map, List.map_map]
  exact hfst

end RunWith

/-! ## A run that finished -/

section Finished

variable {inv : Invocation} {w : World} {reader : Reader F} {contents : Contents F}

theorem outputs_there (hdry : inv.dryRun = false) (hrun : (inv.evaluate w).1 = .ok ())
    {cfg : DatasetConfig} (hcfg : cfg ∈ inv.configs) :
    ((inv.evaluate w).2.outputs cfg.budgetEvalFile).isSome = true ∧
      ((inv.evaluate w).2.outputs cfg.rolloutsFile).isSome = true ∧
      (inv.rlcr = false → ((inv.evaluate w).2.outputs cfg.hiddenStatesFile).isSome = true) := by
  obtain ⟨w₁, -, -, hpass, -⟩ :=
    (Invocation.evaluate_pass (fun _ => ()) hdry).returned rfl hrun
  obtain ⟨i, hi⟩ := List.mem_iff_getElem?.mp hcfg
  have hzip : (cfg, i) ∈ inv.configs.zipIdx := List.mem_zipIdx_iff_getElem?.mpr hi
  have hthere : ∀ s ∈ inv.stageCalls (inv.modelPath w) i cfg,
      ((inv.evaluate w).2.outputs s.id).isSome = true := by
    intro s hs
    have hcall := Invocation.mem_allCalls.mpr ⟨(cfg, i), hzip, hs⟩
    have hnonempty := store_present.mp (hpass.present_out (List.mem_map_of_mem hcall))
    exact Option.isSome_of_any hnonempty
  exact ⟨hthere _ (Invocation.mem_stageCalls.mpr (.inr (.inl rfl))),
    hthere _ (Invocation.mem_stageCalls.mpr (.inl rfl)),
    fun hboxed => hthere _ (Invocation.mem_stageCalls.mpr (.inr (.inr ⟨hboxed, .inl rfl⟩)))⟩

theorem resolvePaths_of_finished (hdry : inv.dryRun = false) (hrun : (inv.evaluate w).1 = .ok ())
    {cfg : DatasetConfig} (hcfg : cfg ∈ inv.configs) :
    let files := resolvePaths (inv.evaluate w).2 contents inv.root cfg.runName
    files.budgetEval = some (contents.budgetEval cfg.budgetEvalFile) ∧
      files.rollouts = some (contents.rollouts cfg.rolloutsFile) ∧
      (inv.rlcr = false →
        files.hiddenStates = some (contents.hiddenStates cfg.hiddenStatesFile)) := by
  obtain ⟨hbudgetEval, hrollouts, hhidden⟩ := outputs_there hdry hrun hcfg
  have hdir := Invocation.outputDir_of_mem hcfg
  unfold DatasetConfig.budgetEvalFile at hbudgetEval ⊢
  unfold DatasetConfig.rolloutsFile at hrollouts ⊢
  unfold DatasetConfig.hiddenStatesFile at hhidden ⊢
  rw [hdir] at hbudgetEval hrollouts hhidden ⊢
  have hthere : ∀ {α : Type} {id : OutputId} (contentsOf : OutputId → α),
      ((inv.evaluate w).2.outputs id).isSome = true →
        ((inv.evaluate w).2.outputs id).map (fun _ => contentsOf id) = some (contentsOf id) := by
    intro α id contentsOf hsome
    obtain ⟨_, houtput⟩ := Option.isSome_iff_exists.mp hsome
    rw [houtput, Option.map_some]
  exact ⟨hthere contents.budgetEval hbudgetEval, hthere contents.rollouts hrollouts,
    fun hboxed => hthere contents.hiddenStates (hhidden hboxed)⟩

theorem evaluateOne_isSome (hdry : inv.dryRun = false) (hrun : (inv.evaluate w).1 = .ok ())
    {cfg : DatasetConfig} (hcfg : cfg ∈ inv.configs) {finalBudget : ℤ} {res : Option NaturalReport}
    (hres : evaluateOne reader inv.rlcr
      (resolvePaths (inv.evaluate w).2 contents inv.root cfg.runName) finalBudget inv.bins =
        .ok res) :
    res.isSome = true ↔
      ∃ row ∈ contents.budgetEval cfg.budgetEvalFile, row.budget = finalBudget := by
  obtain ⟨hrows, hrollouts, hstates⟩ := @resolvePaths_of_finished _ _ _ contents hdry hrun _ hcfg
  unfold evaluateOne at hres
  cases hrlcr : inv.rlcr with
  | true =>
      rw [hrlcr, if_pos rfl] at hres
      cases hres
      exact evaluateRlcr_isSome hrows
  | false =>
      rw [hrlcr, if_neg Bool.false_ne_true] at hres
      exact evaluateBoxed_isSome hrows (hstates hrlcr) hrollouts hres

theorem mem_rows_iff (hdry : inv.dryRun = false) (hrun : (inv.evaluate w).1 = .ok ())
    {finalBudget : ℤ} {rows : Dict String NaturalReport}
    (hrows : RowsOf (fun name => evaluateOne reader inv.rlcr
      (resolvePaths (inv.evaluate w).2 contents inv.root name) finalBudget inv.bins)
      (inv.configs.map (fun cfg => cfg.runName)) rows) (name : String) :
    name ∈ rows ↔ ∃ cfg ∈ inv.configs, cfg.runName = name ∧
      ∃ row ∈ contents.budgetEval cfg.budgetEvalFile, row.budget = finalBudget := by
  rw [← AList.lookup_isSome]
  constructor
  · intro hsome
    by_cases hname : name ∈ inv.configs.map (fun cfg => cfg.runName)
    · obtain ⟨cfg, hcfg, rfl⟩ := List.mem_map.mp hname
      exact ⟨cfg, hcfg, rfl, (evaluateOne_isSome hdry hrun hcfg ((hrows _).1 hname)).mp hsome⟩
    · rw [(hrows name).2 hname] at hsome
      cases hsome
  · rintro ⟨cfg, hcfg, rfl, hrecord⟩
    have hname := List.mem_map_of_mem (f := fun cfg : DatasetConfig => cfg.runName) hcfg
    exact (evaluateOne_isSome hdry hrun hcfg ((hrows _).1 hname)).mpr hrecord

end Finished

/-- After a run that finished, the table holds one entry for every configured
dataset with a record at the chosen budget, computed from these records, and no
other dataset; `_average` is the mean over exactly these entries. -/
theorem results_hold_datasets_at_final_budget (inv : Invocation) (w : World) (reader : Reader F)
    (contents : Contents F) (results : Dict String ResultsEntry) (hdry : inv.dryRun = false)
    (hrun : (inv.evaluate w).1 = .ok ())
    (hresults : inv.results reader (inv.evaluate w).2 contents = .ok results) :
    ∃ (finalBudget : ℤ) (rows : Dict String NaturalReport),
      inv.chosenBudget = .ok finalBudget ∧
      (∀ name, name ∈ rows ↔ ∃ cfg ∈ inv.configs, cfg.runName = name ∧
        ∃ row ∈ contents.budgetEval cfg.budgetEvalFile, row.budget = finalBudget) ∧
      ((∀ cfg ∈ inv.configs, RunWith contents cfg) → ∀ name, name ∈ rows ↔
        ∃ cfg ∈ inv.configs, cfg.runName = name ∧ finalBudget ∈ cfg.budgets) ∧
      (∀ name report, rows.lookup name = some report →
        evaluateOne reader inv.rlcr (resolvePaths (inv.evaluate w).2 contents inv.root name)
          finalBudget inv.bins = .ok (some report)) ∧
      (∀ name, name ≠ "_average" → name ≠ "_meta" →
        results.lookup name = (rows.lookup name).map ResultsEntry.dataset) ∧
      results.lookup "_average" = if reports rows = [] then none
        else some (.average (mean ((reports rows).map NaturalReport.naturalAccuracy))
          (mean ((reports rows).map NaturalReport.naturalEce)) (reports rows).length) := by
  obtain ⟨finalBudget, hbudget, hresults⟩ := bind_eq_ok.mp hresults
  obtain ⟨rows, hloop, hresults⟩ := bind_eq_ok.mp hresults
  cases hresults
  have hstart : RowsOf (fun name => evaluateOne reader inv.rlcr
      (resolvePaths (inv.evaluate w).2 contents inv.root name) finalBudget inv.bins) [] ∅ :=
    fun name => ⟨fun hmem => (List.not_mem_nil hmem).elim, fun _ => rfl⟩
  have hrows := rowsOf_foldlM _ hstart hloop
  rw [List.nil_append] at hrows
  have hmem := mem_rows_iff hdry hrun hrows
  refine ⟨finalBudget, rows, hbudget, hmem, fun hwith name => ?_, fun name report hlook => ?_,
    fun name haverage hmeta => lookup_withAverage haverage hmeta, lookup_withAverage_average⟩
  · rw [hmem name]
    refine exists_congr fun cfg => and_congr_right fun hcfg => and_congr_right fun _ => ?_
    exact hwith cfg hcfg finalBudget
  · have hname : name ∈ inv.configs.map (fun cfg => cfg.runName) := by
      by_contra hnot
      rw [(hrows name).2 hnot] at hlook
      cases hlook
    rw [← hlook]
    exact (hrows name).1 hname

/-! ### Two datasets with different budgets

In mode `rlcr`: the budgets of `a` are 1 and those of `b` are 2, and a third name
that is asked for has no configuration. -/

/-- The invocation. -/
def twoDatasets : Invocation where
  ckpt := ["ckpt"]
  checkpoint := ⟨true, false⟩
  rlcr := true
  configDir := ["configs"]
  configFiles := [("a_rlcr", { runName := "a", dataFiles := ["a.parquet"], budgets := [1] }),
    ("b_rlcr", { runName := "b", dataFiles := ["b.parquet"], budgets := [2] })]
  datasets := ["a_rlcr", "b_rlcr", "c_rlcr"]
  probeDataset := "lead"
  outputRoot := some ["out"]
  skipMerge := false
  force := false
  dryRun := false
  visibleDevices := none
  fate := undisturbed

/-- The only rollout of both datasets. -/
def tableRollout : Rollout where
  input := "q".toList
  output := "<answer>4</answer>".toList
  acc := true
  gts := some (.value "4".toList)
  groundTruth := none
  dataSource := none

/-- One record for each dataset, at its budget. -/
def tableContents : Contents Unit where
  budgetEval id :=
    [⟨rowAt charTokenizer 0 tableRollout (if id.outputDir = ["out", "a"] then 1 else 2),
      some (1 / 2)⟩]
  hiddenStates _ := []
  rollouts _ := [tableRollout]

/-- No probe is used. -/
def tableReader : Reader Unit := ⟨evenFns, evenProbe⟩

theorem runWith_tableContents : ∀ cfg ∈ twoDatasets.configs, RunWith tableContents cfg := by
  have hconfigs : twoDatasets.configs =
      [loadConfig ["out"] { runName := "a", dataFiles := ["a.parquet"], budgets := [1] },
        loadConfig ["out"] { runName := "b", dataFiles := ["b.parquet"], budgets := [2] }] := rfl
  intro cfg hcfg
  rw [hconfigs, List.mem_cons, List.mem_singleton] at hcfg
  have hdata : [tableRollout] ≠ [] := List.cons_ne_nil _ _
  rcases hcfg with rfl | rfl
  · exact @runWith_budgetRows _ _ _ _ _ charTokenizer false hdata rfl
  · exact @runWith_budgetRows _ _ _ _ _ charTokenizer false hdata rfl

theorem evaluate_twoDatasets : (twoDatasets.evaluate World.fresh).1 = .ok () := by
  decide +kernel

/-- The table has an entry for `b` and averages over it alone. -/
theorem results_twoDatasets : ∃ results,
    twoDatasets.results tableReader (twoDatasets.evaluate World.fresh).2 tableContents =
        .ok results ∧
      results.lookup "a" = none ∧ results.lookup "_average" = some (.average 1 (1 / 2) 1) := by
  have h : (twoDatasets.results tableReader (twoDatasets.evaluate World.fresh).2
      tableContents).toOption.map (fun results => (results.lookup "a", results.lookup "_average")) =
        some (none, some (.average 1 (1 / 2) 1)) := by decide +kernel
  cases hresults : twoDatasets.results tableReader (twoDatasets.evaluate World.fresh).2
      tableContents with
  | error e =>
      rw [hresults] at h
      cases h
  | ok results =>
      rw [hresults] at h
      obtain ⟨ha, haverage⟩ := Prod.mk.inj (Option.some.inj h)
      exact ⟨results, rfl, ha, haverage⟩

/-- The rows of that table. -/
theorem results_hold_datasets_twoDatasets : ∃ results,
    twoDatasets.results tableReader (twoDatasets.evaluate World.fresh).2 tableContents =
        .ok results ∧
      ∃ (finalBudget : ℤ) (rows : Dict String NaturalReport),
        twoDatasets.chosenBudget = .ok finalBudget ∧
          ∀ name, name ∈ rows ↔ ∃ cfg ∈ twoDatasets.configs, cfg.runName = name ∧
            ∃ row ∈ tableContents.budgetEval cfg.budgetEvalFile, row.budget = finalBudget := by
  obtain ⟨results, hresults, -⟩ := results_twoDatasets
  obtain ⟨finalBudget, rows, hbudget, hrows, -⟩ :=
    results_hold_datasets_at_final_budget twoDatasets World.fresh tableReader tableContents results
      rfl evaluate_twoDatasets hresults
  exact ⟨results, hresults, finalBudget, rows, hbudget, hrows⟩

/-- The run finishes; the third name has no configuration, and `a`, although it
was evaluated at its budget, no entry. -/
theorem results_without_requested_dataset :
    (¬ ∀ (inv : Invocation) (w : World), inv.dryRun = false → (inv.evaluate w).1 = .ok () →
      ∀ name ∈ inv.datasets, ∃ file ∈ inv.configFiles, file.1 = name) ∧
    ¬ ∀ (inv : Invocation) (w : World) (reader : Reader Unit) (contents : Contents Unit)
      (results : Dict String ResultsEntry), inv.dryRun = false → (inv.evaluate w).1 = .ok () →
      inv.results reader (inv.evaluate w).2 contents = .ok results →
      (∀ cfg ∈ inv.configs, RunWith contents cfg) →
      ∀ cfg ∈ inv.configs, ∃ report, results.lookup cfg.runName = some (.dataset report) := by
  constructor
  · intro hclaim
    have h := hclaim twoDatasets World.fresh rfl evaluate_twoDatasets "c_rlcr" (by decide)
    revert h
    decide
  · intro hclaim
    obtain ⟨results, hresults, ha, -⟩ := results_twoDatasets
    have h := hclaim twoDatasets World.fresh tableReader tableContents results rfl
      evaluate_twoDatasets hresults runWith_tableContents
      (loadConfig ["out"] { runName := "a", dataFiles := ["a.parquet"], budgets := [1] })
      List.mem_cons_self
    obtain ⟨report, hreport⟩ := h
    change results.lookup "a" = _ at hreport
    rw [ha] at hreport
    cases hreport

end RLCM.Eval
