/-
# `RLCM.Eval.BudgetRun` — a run of the budget evaluation, taken apart

The specification of the parts of `evaluate_budget_forced_outputs` that later modules use.
The prompts of the queues, and the outputs that come back to their entries
(`outputsOf_math`, `outputsOf_code`); the cache of the code scores, which fills if no scorer
raises (`codeScoreCache_returns_iff`), in any order (`scoreEntry_cache`); the loop, which grades
every entry by itself and collects (`evaluateBudgetForcedOutputs_eq`); and when grading returns
(`scoreDirectly_returns_iff`).
-/
import RLCM.Eval.BudgetScores

namespace RLCM.Eval

open Py Stats

variable {Token : Type} {n : ℕ}

/-! ## The queues -/

def allEntries (tok : Tokenizer Token) (args : BudgetEvalArgs) (data : List Rollout) :
    List (PromptMeta × Option (List Token) × Queue) :=
  data.zipIdx.flatMap (fun item => rolloutEntries tok args item.2 item.1)

def queueOf (entry : PromptMeta × Option (List Token) × Queue) : Queue := entry.2.2

def promptsOf (entries : List (PromptMeta × Option (List Token) × Queue)) (queue : Queue) :
    List (Option (List Token)) :=
  (entries.filter (fun entry => queueOf entry = queue)).map (fun entry => entry.2.1)

/-- What the loops append to a list of prompts. -/
def queuedFrom (k : ℕ) (entries : List (PromptMeta × Option (List Token) × Queue))
    (queue : Queue) : List (Option (List Token) × ℕ) :=
  ((entries.zipIdx k).filter (fun entry => queueOf entry.1 = queue)).map
    (fun entry => (entry.1.2.1, entry.2))

theorem foldl_add_eq (entries : List (PromptMeta × Option (List Token) × Queue))
    (st : Prepared Token) :
    entries.foldl Prepared.add st =
      { mathPrompts := st.mathPrompts ++ queuedFrom st.allMetadata.length entries .math
        codePrompts := st.codePrompts ++ queuedFrom st.allMetadata.length entries .code
        allMetadata := st.allMetadata ++ entries.map Prod.fst } := by
  induction entries generalizing st with
  | nil => simp [queuedFrom]
  | cons entry entries ih =>
      have hcons : ∀ queue, queuedFrom st.allMetadata.length (entry :: entries) queue =
          (if queueOf entry = queue then [(entry.2.1, st.allMetadata.length)] else []) ++
            queuedFrom (st.allMetadata.length + 1) entries queue := by
        intro queue
        rw [queuedFrom, List.zipIdx_cons, List.filter_cons]
        split
        case isTrue h => rw [if_pos (of_decide_eq_true h)]; rfl
        case isFalse h => rw [if_neg (fun hq => h (decide_eq_true hq))]; rfl
      have happend : ∀ (queue : Queue) (prompts : List (Option (List Token) × ℕ)),
          (if entry.2.2 = queue then prompts ++ [(entry.2.1, st.allMetadata.length)]
            else prompts) =
            prompts ++ if queueOf entry = queue then [(entry.2.1, st.allMetadata.length)]
              else [] := by
        intro queue prompts
        show (if queueOf entry = queue then _ else _) = _
        split
        case isTrue => rfl
        case isFalse => rw [List.append_nil]
      rw [List.foldl_cons, ih, hcons, hcons]
      simp only [Prepared.add, happend, List.length_append, List.length_singleton,
        List.append_assoc, List.map_cons, List.singleton_append]

theorem prepare_eq (tok : Tokenizer Token) (args : BudgetEvalArgs) (data : List Rollout) :
    prepare tok args data =
      { mathPrompts := queuedFrom 0 (allEntries tok args data) .math
        codePrompts := queuedFrom 0 (allEntries tok args data) .code
        allMetadata := (allEntries tok args data).map Prod.fst } := by
  have hflat : prepare tok args data =
      (allEntries tok args data).foldl Prepared.add ⟨[], [], []⟩ := by
    rw [allEntries, List.foldl_flatMap]
    rfl
  rw [hflat, foldl_add_eq]
  rfl

theorem map_fst_queuedFrom (entries : List (PromptMeta × Option (List Token) × Queue))
    (queue : Queue) : (queuedFrom 0 entries queue).map Prod.fst = promptsOf entries queue := by
  conv_rhs => rw [promptsOf, ← List.zipIdx_map_fst 0 entries, List.filter_map, List.map_map]
  rw [queuedFrom, List.map_map]
  rfl

theorem map_snd_queuedFrom (entries : List (PromptMeta × Option (List Token) × Queue))
    (queue : Queue) :
    (queuedFrom 0 entries queue).map Prod.snd = Routing.places queueOf entries queue := by
  rw [queuedFrom, List.map_map]
  rfl

/-! ## Generation -/

abbrev outputsOf (entries : List (PromptMeta × Option (List Token) × Queue))
    (slots : List (Option RequestOutput)) (queue : Queue) : List (Option RequestOutput) :=
  Routing.slotsOf queueOf entries slots queue

section Attach

variable (tok : Tokenizer Token) (args : BudgetEvalArgs) (data : List Rollout)
  (gen : Generator Token n)

/-- Step 2 without the tests for an empty queue, in which nothing would be written. -/
theorem attachOutputs_eq :
    attachOutputs gen (prepare tok args data) =
      Routing.writeBack
        (Routing.writeBack (List.replicate (allEntries tok args data).length none)
          (Routing.places queueOf (allEntries tok args data) .math)
          (gen.generate .math (promptsOf (allEntries tok args data) .math)))
        (Routing.places queueOf (allEntries tok args data) .code)
        (gen.generate .code (promptsOf (allEntries tok args data) .code)) := by
  have hskip : ∀ (queued : List (Option (List Token) × ℕ)) (slots : List (Option RequestOutput))
      (results : List RequestOutput),
      (if queued.isEmpty then slots
        else Routing.writeBack slots (queued.map Prod.snd) results) =
        Routing.writeBack slots (queued.map Prod.snd) results := by
    intro queued slots results
    split
    case isTrue h =>
      rw [List.isEmpty_iff.mp h, List.map_nil, Routing.writeBack, List.zip_nil_right]
      rfl
    case isFalse => rfl
  rw [attachOutputs, prepare_eq]
  simp only [hskip]
  rw [map_fst_queuedFrom, map_snd_queuedFrom, map_fst_queuedFrom, map_snd_queuedFrom,
    List.length_map]

theorem length_attachOutputs :
    (attachOutputs gen (prepare tok args data)).length = (allEntries tok args data).length := by
  rw [attachOutputs_eq, Routing.length_writeBack, Routing.length_writeBack,
    List.length_replicate]

theorem length_generate_promptsOf (queue : Queue) :
    (gen.generate queue (promptsOf (allEntries tok args data) queue)).length =
      ((allEntries tok args data).filter (fun entry => queueOf entry = queue)).length := by
  rw [gen.length_generate, promptsOf, List.length_map]

theorem outputsOf_math :
    outputsOf (allEntries tok args data) (attachOutputs gen (prepare tok args data)) .math =
      (gen.generate .math (promptsOf (allEntries tok args data) .math)).map some := by
  rw [attachOutputs_eq, outputsOf, Routing.slotsOf_writeBack_of_ne (by simp) (by decide),
    Routing.slotsOf_writeBack (by simp) (length_generate_promptsOf tok args data gen .math)]

theorem outputsOf_code :
    outputsOf (allEntries tok args data) (attachOutputs gen (prepare tok args data)) .code =
      (gen.generate .code (promptsOf (allEntries tok args data) .code)).map some := by
  rw [attachOutputs_eq, outputsOf,
    Routing.slotsOf_writeBack (by simp) (length_generate_promptsOf tok args data gen .code)]

theorem outputsOf_noGeneration :
    ∀ output ∈ outputsOf (allEntries tok args data)
      (attachOutputs gen (prepare tok args data)) .noGeneration, output = none := by
  rw [attachOutputs_eq, outputsOf, Routing.slotsOf_writeBack_of_ne (by simp) (by decide),
    Routing.slotsOf_writeBack_of_ne (by simp) (by decide), Routing.slotsOf_replicate]
  intro output houtput
  exact List.eq_of_mem_replicate houtput

end Attach

/-! ## The entries with their outputs -/

theorem queueOf_rolloutEntries {tok : Tokenizer Token} {budgets : List ℤ} {gpqaXml : Bool}
    {idx : ℕ} {item : Rollout} {entry : PromptMeta × Option (List Token) × Queue}
    (h : entry ∈ rolloutEntries tok (boxedMode budgets gpqaXml) idx item) :
    queueOf entry = if entry.1.isCode then .code
      else if entry.1.thinkingComplete then .noGeneration else .math := by
  have hrlcr : (boxedMode budgets gpqaXml).rlcr = false := rfl
  rw [rolloutEntries, hrlcr, if_neg Bool.false_ne_true] at h
  split at h
  case isTrue =>
    obtain ⟨p, -, rfl⟩ := List.mem_map.mp h
    rfl
  case isFalse =>
    obtain ⟨p, -, rfl⟩ := List.mem_map.mp h
    cases hgpqa : isGpqa item.source with
    | true => rfl
    | false => cases p.thinkingComplete <;> rfl

section Entries

variable {tok : Tokenizer Token} {gen : Generator Token n} {budgets : List ℤ} {gpqaXml : Bool}
  {data : List Rollout}

theorem generatedEntries_eq :
    generatedEntries tok gen budgets gpqaXml data =
      ((allEntries tok (boxedMode budgets gpqaXml) data).zip
        (attachOutputs gen (prepare tok (boxedMode budgets gpqaXml) data))).map
          (fun es => (es.1.1, es.2)) := by
  have hmeta : (prepare tok (boxedMode budgets gpqaXml) data).allMetadata =
      (allEntries tok (boxedMode budgets gpqaXml) data).map Prod.fst := by
    rw [prepare_eq]
  rw [generatedEntries, hmeta, List.zip_map_left]
  rfl

/-- An entry that needs an output has one, with the sequences asked for. -/
theorem output_of_mem {entry : Entry} (h : entry ∈ generatedEntries tok gen budgets gpqaXml data)
    (hneeds : entry.1.isCode = true ∨ entry.1.thinkingComplete = false) :
    ∃ output, entry.2 = some output ∧ output.outputs.length = n := by
  rw [generatedEntries_eq] at h
  obtain ⟨⟨e, slot⟩, hmem, rfl⟩ := List.mem_map.mp h
  obtain ⟨item, -, he⟩ := List.mem_flatMap.mp (List.of_mem_zip hmem).1
  have hqueue := queueOf_rolloutEntries he
  -- the slot is among the outputs of the queue of the entry
  have hslot : ∀ queue, queueOf e = queue →
      slot ∈ outputsOf (allEntries tok (boxedMode budgets gpqaXml) data)
        (attachOutputs gen (prepare tok (boxedMode budgets gpqaXml) data)) queue := by
    intro queue hq
    exact List.mem_map.mpr ⟨(e, slot), List.mem_filter.mpr ⟨hmem, decide_eq_true hq⟩, rfl⟩
  have hobject : ∀ queue prompts, slot ∈ (gen.generate queue prompts).map some →
      ∃ output, slot = some output ∧ output.outputs.length = n := by
    intro queue prompts hmap
    obtain ⟨output, houtput, rfl⟩ := List.mem_map.mp hmap
    exact ⟨output, rfl, gen.length_outputs _ _ output houtput⟩
  by_cases hcode : e.1.isCode = true
  · rw [if_pos hcode] at hqueue
    have hcodeSlot := hslot .code hqueue
    rw [outputsOf_code] at hcodeSlot
    exact hobject .code _ hcodeSlot
  · have htruncated : e.1.thinkingComplete = false := hneeds.resolve_left hcode
    rw [if_neg hcode, htruncated] at hqueue
    have hmathSlot := hslot .math hqueue
    rw [outputsOf_math] at hmathSlot
    exact hobject .math _ hmathSlot

theorem rows_generatedEntries :
    (generatedEntries tok gen budgets gpqaXml data).map (fun entry => entry.1.row) =
      data.zipIdx.flatMap (fun item => budgets.map (rowAt tok item.2 item.1)) := by
  rw [← budgetRows_eq tok (boxedMode budgets gpqaXml) data, budgetRows, prepare_eq,
    generatedEntries_eq, List.map_map, List.map_map]
  have hfst := List.map_fst_zip (length_attachOutputs tok (boxedMode budgets gpqaXml) data gen).ge
  conv_rhs => rw [← hfst, List.map_map]
  rfl

end Entries

/-! ## The code scores

The keys of the cache are the places of the sequences, so the order in which it fills does not
matter. -/

section Cache

variable (env : Externals)

abbrev CodeItem.key (item : CodeItem) : ℕ × ℕ := (item.metaIdx, item.seqIdx)

theorem keys_codeItemsOf (i : ℕ) (entry : Entry) :
    ∃ k, (codeItemsOf i entry).map CodeItem.key =
      (List.range k).map (fun seqIdx => (i, seqIdx)) := by
  unfold codeItemsOf
  split
  case h_1 output _ _ =>
    refine ⟨output.outputs.length, ?_⟩
    apply List.ext_getElem
    · simp
    · intro j h₁ h₂
      simp
  case h_2 => exact ⟨0, rfl⟩

theorem nodup_codeItemsToScore (entries : List Entry) :
    ((codeItemsToScore entries).map CodeItem.key).Nodup := by
  rw [codeItemsToScore, List.map_flatMap, List.nodup_flatMap]
  refine ⟨fun entry _ => ?_, ?_⟩
  · obtain ⟨k, hk⟩ := keys_codeItemsOf entry.2 entry.1
    rw [hk]
    exact List.nodup_range.map (fun a b hab => (Prod.mk.inj hab).2)
  · have hplaces : (entries.zipIdx.map Prod.snd).Nodup := by
      rw [List.zipIdx_map_snd]
      exact List.nodup_range'
    refine (List.pairwise_map.mp hplaces).imp (fun {a b} hne => ?_)
    intro key ha hb
    obtain ⟨k, hk⟩ := keys_codeItemsOf a.2 a.1
    obtain ⟨k', hk'⟩ := keys_codeItemsOf b.2 b.1
    have ha' : key ∈ (codeItemsOf a.2 a.1).map CodeItem.key := ha
    have hb' : key ∈ (codeItemsOf b.2 b.1).map CodeItem.key := hb
    rw [hk] at ha'
    rw [hk'] at hb'
    obtain ⟨_, -, rfl⟩ := List.mem_map.mp ha'
    obtain ⟨_, -, hkey⟩ := List.mem_map.mp hb'
    exact hne (Prod.mk.inj hkey).1.symm

def codeTexts (entry : Entry) : List Str :=
  if entry.1.isCode then entry.2.elim [] (fun output => output.outputs) else []

def ScorerReturns (entry : Entry) : Prop :=
  ∀ text ∈ codeTexts entry, ∃ score, env.codeScore text entry.1.groundTruth = .ok score

/-- What the cache holds for an answer on which the scorer returns. -/
def verdictOf (text : Str) (groundTruth : GroundTruth) : ℚ × Bool :=
  (codeVerdict env text groundTruth).toOption.getD (0, false)

theorem scoreCodeItem_eq {item : CodeItem}
    (h : ∃ score, env.codeScore item.text item.groundTruth = .ok score) :
    scoreCodeItem env item = .ok (item.key, verdictOf env item.text item.groundTruth) := by
  obtain ⟨score, hscore⟩ := h
  rw [scoreCodeItem, verdictOf, codeVerdict, hscore]
  rfl

theorem scoreCodeItem_returns_iff {item : CodeItem} :
    (∃ scored, scoreCodeItem env item = .ok scored) ↔
      ∃ score, env.codeScore item.text item.groundTruth = .ok score := by
  constructor
  · rintro ⟨scored, hscored⟩
    obtain ⟨verdict, hverdict, -⟩ := bind_eq_ok.mp hscored
    obtain ⟨score, hscore, -⟩ := bind_eq_ok.mp hverdict
    exact ⟨score, hscore⟩
  · intro h
    exact ⟨_, scoreCodeItem_eq env h⟩

/-- The cache fills exactly when no scorer raises. -/
theorem codeScoreCache_eq_ok_iff {completed : List CodeItem}
    {cache : Dict (ℕ × ℕ) (ℚ × Bool)} :
    codeScoreCache env completed = .ok cache ↔
      (∀ item ∈ completed, ∃ score, env.codeScore item.text item.groundTruth = .ok score) ∧
        cache = Dict.assign ∅ (completed.map (fun item =>
          (item.key, verdictOf env item.text item.groundTruth))) := by
  have hfills : (∀ item ∈ completed,
      ∃ score, env.codeScore item.text item.groundTruth = .ok score) →
        codeScoreCache env completed = .ok (Dict.assign ∅ (completed.map (fun item =>
          (item.key, verdictOf env item.text item.groundTruth)))) := by
    intro h
    rw [codeScoreCache, mapM_eq_map (fun item hitem => scoreCodeItem_eq env (h item hitem))]
    rfl
  constructor
  · intro hcache
    obtain ⟨scored, hscored, -⟩ := bind_eq_ok.mp hcache
    have hreturns : ∀ item ∈ completed,
        ∃ score, env.codeScore item.text item.groundTruth = .ok score :=
      fun item hitem => (scoreCodeItem_returns_iff env).mp
        (mapM_returns_iff.mp ⟨scored, hscored⟩ item hitem)
    rw [hfills hreturns] at hcache
    exact ⟨hreturns, (Except.ok.inj hcache).symm⟩
  · rintro ⟨hreturns, rfl⟩
    exact hfills hreturns

theorem scorerReturns_codeItemsOf_iff (i : ℕ) {entry : Entry} :
    (∀ item ∈ codeItemsOf i entry,
        ∃ score, env.codeScore item.text item.groundTruth = .ok score) ↔
      ScorerReturns env entry := by
  unfold codeItemsOf ScorerReturns codeTexts
  split
  case h_1 output hcode houtput =>
    rw [if_pos hcode, houtput, Option.elim_some]
    constructor
    · intro h text htext
      obtain ⟨seqIdx, hseq, rfl⟩ := List.getElem_of_mem htext
      exact h _ (List.mem_mapIdx.mpr ⟨seqIdx, hseq, rfl⟩)
    · intro h item hitem
      obtain ⟨seqIdx, hseq, rfl⟩ := List.mem_mapIdx.mp hitem
      exact h _ (List.getElem_mem hseq)
  case h_2 hnone =>
    have htexts : (if entry.1.isCode then entry.2.elim [] (fun output => output.outputs)
        else []) = [] := by
      split
      case isTrue hcode =>
        cases houtput : entry.2 with
        | none => rfl
        | some output => exact absurd houtput (hnone output hcode)
      case isFalse => rfl
    rw [htexts]
    exact ⟨fun _ _ h => absurd h List.not_mem_nil, fun _ _ h => absurd h List.not_mem_nil⟩

theorem codeScoreCache_returns_iff (pool : CompletionOrder) (entries : List Entry) :
    (∃ cache, codeScoreCache env (pool.asCompleted (codeItemsToScore entries)) = .ok cache) ↔
      ∀ entry ∈ entries, ScorerReturns env entry := by
  have hitems : (∃ cache, codeScoreCache env (pool.asCompleted (codeItemsToScore entries)) =
      .ok cache) ↔ ∀ item ∈ codeItemsToScore entries,
        ∃ score, env.codeScore item.text item.groundTruth = .ok score := by
    simp only [codeScoreCache_eq_ok_iff, (pool.perm _).mem_iff]
    exact ⟨fun ⟨_, h, _⟩ => h, fun h => ⟨_, h, rfl⟩⟩
  rw [hitems, codeItemsToScore]
  constructor
  · intro h entry hentry
    obtain ⟨i, hi, rfl⟩ := List.getElem_of_mem hentry
    refine (scorerReturns_codeItemsOf_iff env i).mp (fun item hitem => ?_)
    exact h item (List.mem_flatMap.mpr ⟨(entries[i], i),
      List.mem_zipIdx_iff_getElem?.mpr (List.getElem?_eq_getElem hi), hitem⟩)
  · intro h item hitem
    obtain ⟨entry, hentry, hitem⟩ := List.mem_flatMap.mp hitem
    exact (scorerReturns_codeItemsOf_iff env _).mpr (h entry.1 (List.mem_of_getElem?
      (List.mem_zipIdx_iff_getElem?.mp hentry))) item hitem

/-- The score of a sequence of an entry, without the cache. -/
def directLookup (entry : Entry) (seqIdx : ℕ) : ℚ × Bool :=
  (entry.2.bind (fun output => output.outputs[seqIdx]?)).elim (0, false)
    (fun text => verdictOf env text entry.1.groundTruth)

theorem getD_codeScoreCache {pool : CompletionOrder} {entries : List Entry}
    {cache : Dict (ℕ × ℕ) (ℚ × Bool)}
    (hcache : codeScoreCache env (pool.asCompleted (codeItemsToScore entries)) = .ok cache)
    {i : ℕ} {entry : Entry} (hentry : entries[i]? = some entry) (hcode : entry.1.isCode = true)
    {output : RequestOutput} (houtput : entry.2 = some output) {seqIdx : ℕ}
    (hseq : seqIdx < output.outputs.length) :
    cache.getD (i, seqIdx) (0, false) = directLookup env entry seqIdx := by
  obtain ⟨-, rfl⟩ := (codeScoreCache_eq_ok_iff env).mp hcache
  have hitem : (⟨i, seqIdx, output.outputs[seqIdx], entry.1.groundTruth⟩ : CodeItem) ∈
      codeItemsToScore entries := by
    refine List.mem_flatMap.mpr ⟨(entry, i), List.mem_zipIdx_iff_getElem?.mpr hentry, ?_⟩
    rw [codeItemsOf, hcode, houtput]
    exact List.mem_mapIdx.mpr ⟨seqIdx, hseq, rfl⟩
  have hperm := pool.perm (codeItemsToScore entries)
  have hnodup : (((pool.asCompleted (codeItemsToScore entries)).map (fun item =>
      (item.key, verdictOf env item.text item.groundTruth))).map Prod.fst).Nodup := by
    rw [List.map_map]
    exact (hperm.map _).nodup_iff.mpr (nodup_codeItemsToScore entries)
  rw [Dict.getD, Dict.lookup_assign ∅ hnodup
    (List.mem_map.mpr ⟨_, hperm.mem_iff.mpr hitem, rfl⟩), directLookup, houtput]
  simp [hseq]

/-- An entry graded without the cache. -/
def scoreDirectly (n : ℕ) (gpqaXml : Bool) (entry : Entry) : Except Error EntryScore :=
  scoreEntry env n gpqaXml (directLookup env entry) entry

/-- Grading with the cache is grading without it. -/
theorem scoreEntry_cache {pool : CompletionOrder} (n : ℕ) (gpqaXml : Bool)
    {entries : List Entry} {cache : Dict (ℕ × ℕ) (ℚ × Bool)}
    (hcache : codeScoreCache env (pool.asCompleted (codeItemsToScore entries)) = .ok cache)
    {i : ℕ} {entry : Entry} (hentry : entries[i]? = some entry) :
    scoreEntry env n gpqaXml (fun seqIdx => cache.getD (i, seqIdx) (0, false)) entry =
      scoreDirectly env n gpqaXml entry := by
  rw [scoreDirectly, scoreEntry, scoreEntry]
  split
  case isFalse => rfl
  case isTrue hcode =>
    cases houtput : entry.2 with
    | none => rfl
    | some output =>
        have haccuracies : ∀ lookup : ℕ → ℚ × Bool, output.outputs.mapIdx
            (fun seqIdx _ => accuracyOf (lookup seqIdx).2) =
              (List.range output.outputs.length).map
                (fun seqIdx => accuracyOf (lookup seqIdx).2) := by
          intro lookup
          apply List.ext_getElem
          · simp
          · intro j h₁ h₂
            simp
        show Except.ok _ = Except.ok _
        rw [haccuracies, haccuracies]
        congr 2
        apply List.map_congr_left
        intro seqIdx hseq
        rw [getD_codeScoreCache env hcache hentry hcode houtput (List.mem_range.mp hseq)]

end Cache

/-! ## When the graders return -/

def GradersReturn (env : Externals) (entry : PromptMeta) (text : Str) : Prop :=
  (∃ graded, computeScore env text entry.groundTruth = .ok graded) ∧
    (entry.isSara env = true → FiniteNumbers text (entry.groundTruth.str env))

/-- The texts that are graded for an entry: of a finished one its original output, of a
truncated one the completions of the box.  The letters of the XML format are only compared. -/
def gradedTexts (gpqaXml : Bool) (entry : Entry) : List Str :=
  if entry.1.isCode then []
  else if entry.1.thinkingComplete then [entry.1.originalOutput]
  else if isGpqa entry.1.dataSource && gpqaXml then []
  else (entry.2.elim [] (fun output => output.outputs)).map (boxedOpen ++ ·)

section Graders

variable {env : Externals}

theorem saraVerdict_returns_iff {isSara isCorrect : Bool} {solutionStr groundTruth : Str} :
    (∃ verdict, saraVerdict isSara solutionStr groundTruth isCorrect = .ok verdict) ↔
      (isSara = true → FiniteNumbers solutionStr groundTruth) := by
  unfold saraVerdict
  split
  case isTrue hsara =>
    rw [bind_returns_iff, ← computeSaraIntegerPartAccuracy_returns_iff]
    constructor
    · rintro ⟨acc, hacc, -⟩ _
      exact ⟨acc, hacc⟩
    · intro h
      obtain ⟨acc, hacc⟩ := h hsara
      exact ⟨acc, hacc, _, rfl⟩
  case isFalse hsara =>
    exact ⟨fun _ h => absurd h hsara, fun _ => ⟨_, rfl⟩⟩

/-- No multiple-choice task is a numeric one. -/
theorem isSaraNumerical_of_isGpqa {dataSource : Str} (h : isGpqa dataSource = true)
    (groundTruth : Str) : isSaraNumerical dataSource groundTruth = false := by
  have hno : contains "sara".toList (Str.lower dataSource) = false := by
    rcases List.mem_cons.mp (of_decide_eq_true h) with hgpqa | hmem
    · rw [hgpqa]
      decide
    · rw [List.mem_singleton.mp hmem]
      decide
  rw [isSaraNumerical, hno]
  rfl

theorem gradeBoxed_cases (gpqa : Bool) (groundTruth : GroundTruth) (text : Str) :
    ((∃ graded, computeScore env (boxedOpen ++ text) groundTruth = .ok graded) ∧
      ∃ pred isCorrect, gradeBoxed env gpqa groundTruth text =
        .ok (pred, isCorrect, boxedOpen ++ text)) ∨
    ∃ e, computeScore env (boxedOpen ++ text) groundTruth = .error e ∧
      gradeBoxed env gpqa groundTruth text = .error e := by
  unfold gradeBoxed
  dsimp only
  cases hscore : computeScore env (boxedOpen ++ text) groundTruth with
  | error e => exact Or.inr ⟨e, rfl, rfl⟩
  | ok graded =>
      refine Or.inl ⟨⟨graded, rfl⟩, ?_⟩
      rw [ok_bind]
      split
      case h_1 => exact ⟨_, _, rfl⟩
      case h_2 => exact ⟨_, _, rfl⟩

theorem gradeSequence_returns_iff {gpqaXml : Bool} {entry : PromptMeta} {text : Str} :
    (∃ graded, gradeSequence env gpqaXml entry text = .ok graded) ↔
      ((isGpqa entry.dataSource && gpqaXml) = false →
        GradersReturn env entry (boxedOpen ++ text)) := by
  unfold gradeSequence gradeText
  dsimp only
  cases hxml : isGpqa entry.dataSource && gpqaXml with
  | true =>
      have hsara : entry.isSara env = false :=
        isSaraNumerical_of_isGpqa (Bool.and_eq_true_iff.mp hxml).1 _
      rw [if_pos rfl, hsara]
      exact ⟨fun _ h => absurd h.symm Bool.false_ne_true, fun _ => ⟨_, rfl⟩⟩
  | false =>
      rw [if_neg Bool.false_ne_true]
      rcases gradeBoxed_cases (isGpqa entry.dataSource) entry.groundTruth text with
        ⟨hscore, pred, isCorrect, hgrade⟩ | ⟨e, hscore, hgrade⟩
      · rw [hgrade, ok_bind, bind_returns_iff]
        constructor
        · rintro ⟨verdict, hverdict, -⟩ _
          exact ⟨hscore, saraVerdict_returns_iff.mp ⟨verdict, hverdict⟩⟩
        · intro h
          obtain ⟨verdict, hverdict⟩ := saraVerdict_returns_iff.mpr (h rfl).2
          exact ⟨verdict, hverdict, _, rfl⟩
      · rw [hgrade, error_bind]
        constructor
        · rintro ⟨_, h⟩
          cases h
        · intro h
          obtain ⟨graded, hgraded⟩ := (h rfl).1
          rw [hscore] at hgraded
          cases hgraded

theorem scoreComplete_returns_iff {n : ℕ} {entry : PromptMeta} :
    (∃ score, scoreComplete env n entry = .ok score) ↔
      GradersReturn env entry entry.originalOutput := by
  rw [GradersReturn, scoreComplete, bind_returns_iff]
  constructor
  · rintro ⟨graded, hgraded, _, h⟩
    obtain ⟨verdict, hverdict, -⟩ := bind_eq_ok.mp h
    exact ⟨⟨graded, hgraded⟩, saraVerdict_returns_iff.mp ⟨verdict, hverdict⟩⟩
  · rintro ⟨⟨graded, hgraded⟩, hfinite⟩
    obtain ⟨verdict, hverdict⟩ := saraVerdict_returns_iff.mpr hfinite
    exact ⟨graded, hgraded, _, bind_eq_ok.mpr ⟨verdict, hverdict, rfl⟩⟩

theorem scoreTruncated_returns_iff {gpqaXml : Bool} {entry : PromptMeta} {output : RequestOutput} :
    (∃ score, scoreTruncated env gpqaXml entry (some output) = .ok score) ↔
      ∀ text ∈ output.outputs, ∃ graded, gradeSequence env gpqaXml entry text = .ok graded := by
  rw [scoreTruncated, ← mapM_returns_iff]
  show (∃ score, (output.outputs.mapM (gradeSequence env gpqaXml entry) >>= _) = .ok score) ↔ _
  rw [bind_returns_iff]
  constructor
  · rintro ⟨ys, hys, -⟩
    exact ⟨ys, hys⟩
  · rintro ⟨ys, hys⟩
    exact ⟨ys, hys, _, rfl⟩

/-- An entry with the output it needs is graded exactly when the graders return on all of its
texts. -/
theorem scoreDirectly_returns_iff {n : ℕ} {gpqaXml : Bool} {entry : Entry}
    (hneeds : entry.1.isCode = true ∨ entry.1.thinkingComplete = false →
      ∃ output, entry.2 = some output) :
    (∃ score, scoreDirectly env n gpqaXml entry = .ok score) ↔
      ∀ text ∈ gradedTexts gpqaXml entry, GradersReturn env entry.1 text := by
  unfold scoreDirectly scoreEntry gradedTexts
  split
  case isTrue hcode =>
    obtain ⟨output, houtput⟩ := hneeds (Or.inl hcode)
    rw [scoreCode, houtput]
    exact ⟨fun _ text h => absurd h List.not_mem_nil, fun _ => ⟨_, rfl⟩⟩
  case isFalse hcode =>
    split
    case isTrue hcomplete =>
      rw [List.forall_mem_singleton]
      exact scoreComplete_returns_iff
    case isFalse hcomplete =>
      obtain ⟨output, houtput⟩ := hneeds (Or.inr (Bool.eq_false_iff.mpr hcomplete))
      rw [houtput, scoreTruncated_returns_iff]
      simp only [gradeSequence_returns_iff, Option.elim_some]
      split
      case isTrue hxml =>
        constructor
        · intro _ text h
          exact absurd h List.not_mem_nil
        · intro _ text _ h
          exact absurd hxml (Bool.eq_false_iff.mp h)
      case isFalse hxml =>
        rw [List.forall_mem_map]
        constructor
        · intro h text htext
          exact h text htext (Bool.eq_false_iff.mpr hxml)
        · intro h text htext _
          exact h text htext

end Graders

/-! ## The loop of step 3b -/

/-- What the loop returns for these scores. -/
def resultsOf (gpqaXml : Bool) (budgets : List ℤ) (scored : List (Entry × EntryScore)) :
    BudgetResults where
  allResults := scored.map (fun es => budgetRecordOf gpqaXml es.1.1 es.2)
  budgetStats := Dict.tally BudgetStats.addEntry (BudgetResults.start budgets).budgetStats
    (scored.map (fun es => (es.1.1.budget, (es.1.1, es.2))))

theorem foldl_push (gpqaXml : Bool) (scored : List (Entry × EntryScore)) (out : BudgetResults) :
    scored.foldl (fun out es => out.push gpqaXml es.1.1 es.2) out =
      { allResults := out.allResults ++ scored.map (fun es => budgetRecordOf gpqaXml es.1.1 es.2)
        budgetStats := Dict.tally BudgetStats.addEntry out.budgetStats
          (scored.map (fun es => (es.1.1.budget, (es.1.1, es.2)))) } := by
  induction scored generalizing out with
  | nil => simp [Dict.tally]
  | cons es scored ih =>
      rw [List.foldl_cons, ih, BudgetResults.push, List.append_assoc]
      rfl

section Run

variable (env : Externals) (tok : Tokenizer Token) (gen : Generator Token n)
  (pool : CompletionOrder) (budgets : List ℤ) (gpqaXml : Bool) (data : List Rollout)

/-- The function fills the cache, grades every entry by itself, and collects. -/
theorem evaluateBudgetForcedOutputs_eq :
    evaluateBudgetForcedOutputs env tok gen pool budgets gpqaXml data =
      (do let _ ← codeScoreCache env (pool.asCompleted
            (codeItemsToScore (generatedEntries tok gen budgets gpqaXml data)))
          let scores ← (generatedEntries tok gen budgets gpqaXml data).mapM
            (scoreDirectly env n gpqaXml)
          pure (resultsOf gpqaXml budgets
            ((generatedEntries tok gen budgets gpqaXml data).zip scores))) := by
  rw [evaluateBudgetForcedOutputs]
  generalize generatedEntries tok gen budgets gpqaXml data = entries
  cases hcache : codeScoreCache env (pool.asCompleted (codeItemsToScore entries)) with
  | error e => rfl
  | ok cache =>
      have hbody : ∀ (out : BudgetResults), ∀ entry ∈ entries.zipIdx,
          (do let score ← scoreEntry env n gpqaXml
                (fun seqIdx => cache.getD (entry.2, seqIdx) (0, false)) entry.1
              pure (out.push gpqaXml entry.1.1 score) : Except Error BudgetResults) =
            (do let score ← scoreDirectly env n gpqaXml entry.1
                pure (out.push gpqaXml entry.1.1 score)) := by
        intro out entry hentry
        rw [scoreEntry_cache env n gpqaXml hcache (List.mem_zipIdx_iff_getElem?.mp hentry)]
      have hloop : entries.zipIdx.foldlM (fun out entry => do
            let score ← scoreDirectly env n gpqaXml entry.1
            pure (out.push gpqaXml entry.1.1 score)) (BudgetResults.start budgets) =
          entries.foldlM (fun out entry => do
            let score ← scoreDirectly env n gpqaXml entry
            pure (out.push gpqaXml entry.1 score)) (BudgetResults.start budgets) := by
        conv_rhs => rw [← List.zipIdx_map_fst 0 entries, List.foldlM_map]
      rw [ok_bind, ok_bind, foldlM_congr hbody, hloop, foldlM_store]
      cases entries.mapM (scoreDirectly env n gpqaXml) with
      | error e => rfl
      | ok scores =>
          rw [ok_bind, ok_bind, foldl_push]
          rfl

end Run

end RLCM.Eval
