/-
# `RLCM.ForcedOutput.ValidationRuns` — the lists of a validation run

What scoring says about a sample on its own is a dictionary, `sampleInfo`.  The
lists of a batch hold, under each key, the values of the samples that have the
key, in order, and so do the lists of a run.  A list with a value of every
sample is aligned; a list with values of some only is what the assertion of
`_validate` stops.
-/
import RLCM.ForcedOutput.Validation

namespace RLCM.ForcedOutput

open Py

variable {Token Truth Info Uid V : Type} {L : ℕ}

/-! ## Partial columns -/

section Columns

variable {α β : Type}

theorem filterMap_singleton (x : α) (f : α → Option β) : [x].filterMap f = (f x).toList := by
  cases h : f x with
  | none => exact List.filterMap_cons_none h
  | some y => exact List.filterMap_cons_some h

/-- A column with a value of every row. -/
theorem map_some_filterMap {xs : List α} {f : α → Option β} (h : ∀ x ∈ xs, (f x).isSome) :
    (xs.filterMap f).map some = xs.map f := by
  induction xs with
  | nil => rfl
  | cons x xs ih =>
      obtain ⟨y, hy⟩ := Option.isSome_iff_exists.mp (h x List.mem_cons_self)
      rw [List.filterMap_cons_some hy, List.map_cons, List.map_cons, hy,
        ih (fun x' hx' => h x' (List.mem_cons_of_mem _ hx'))]

theorem length_filterMap_of_isSome {xs : List α} {f : α → Option β}
    (h : ∀ x ∈ xs, (f x).isSome) : (xs.filterMap f).length = xs.length := by
  have := congrArg List.length (map_some_filterMap h)
  rwa [List.length_map, List.length_map] at this

/-- A column as long as the rows has a value of every row. -/
theorem isSome_of_length_filterMap {xs : List α} {f : α → Option β}
    (h : (xs.filterMap f).length = xs.length) : ∀ x ∈ xs, (f x).isSome := by
  induction xs with
  | nil => exact fun x hx => by cases hx
  | cons x xs ih =>
      have hle := List.length_filterMap_le f xs
      cases hx : f x with
      | none =>
          rw [List.filterMap_cons_none hx, List.length_cons] at h
          omega
      | some y =>
          rw [List.filterMap_cons_some hx, List.length_cons, List.length_cons] at h
          intro x' hx'
          rcases List.mem_cons.mp hx' with rfl | hx'
          · rw [hx]
            rfl
          · exact ih (Nat.succ.inj h) x' hx'

end Columns

section Config

variable (values : ScoreValues V) (tok : Tokenizer Token) (scorer : ValScorer Truth Info V)

/-! ## One sample -/

/-- The score of a sample and the dictionary it was scored to, if any; a missing
text scores `0`. -/
def scored (item : Item Token Truth Info) : ℚ × Option (Dict Str V) :=
  match selectValidationSolutionText tok item with
  | (_, .missing) => (0, none)
  | (solutionStr, _) => safeComputeScoreDict values scorer (item.query solutionStr)

/-- What scoring says about a sample. -/
def sampleInfo (item : Item Token Truth Info) : Dict Str V :=
  let score := values.ofFloat (scored values tok scorer item).1
  match (scored values tok scorer item).2 with
  | none => AList.singleton scoreKey score
  | some entries => if scoreKey ∈ entries then entries else entries.insert scoreKey score

theorem lookup_singleton (key : Str) (v : V) :
    (AList.singleton key v : Dict Str V).lookup key = some v :=
  List.dlookup_cons_eq _ _ _

/-- The sample was scored to a dictionary with this key. -/
def DictHasKey (item : Item Token Truth Info) (key : Str) : Prop :=
  ∃ entries, (scored values tok scorer item).2 = some entries ∧ key ∈ entries

theorem mem_sampleInfo {item : Item Token Truth Info} {key : Str} :
    key ∈ sampleInfo values tok scorer item ↔
      key = scoreKey ∨ DictHasKey values tok scorer item key := by
  unfold sampleInfo DictHasKey
  cases (scored values tok scorer item).2 with
  | none => simp [AList.mem_keys]
  | some entries =>
      by_cases hscore : scoreKey ∈ entries
      · simp only [hscore, if_true]
        constructor
        · exact fun h => Or.inr ⟨entries, rfl, h⟩
        · rintro (rfl | ⟨_, h, hkey⟩)
          · exact hscore
          · cases h
            exact hkey
      · simp [hscore]

/-- The appends of one sample: its own value under each of its keys. -/
theorem getD_appendScore (info : Dict Str (List V)) (item : Item Token Truth Info) (key : Str) :
    (appendScore values info (scored values tok scorer item).1
        (scored values tok scorer item).2).getD key [] =
      info.getD key [] ++ ((sampleInfo values tok scorer item).lookup key).toList := by
  have hentries : ∀ entries : Dict Str V,
      (entries.entries.foldl (fun info kv => info.append kv.1 kv.2) info).getD key [] =
        info.getD key [] ++ (entries.lookup key).toList := by
    intro entries
    rw [show (entries.lookup key).toList = ((entries.lookup key).map (fun v => [v])).getD [] by
      cases entries.lookup key <;> rfl]
    exact Dict.getD_foldl_extend (fun v => [v]) entries.nodupKeys info key
  unfold sampleInfo appendScore
  cases (scored values tok scorer item).2 with
  | none =>
      rw [Dict.getD_append]
      by_cases h : scoreKey = key
      · subst h
        simp [lookup_singleton]
      · have hnone : (AList.singleton scoreKey
            (values.ofFloat (scored values tok scorer item).1) : Dict Str V).lookup key = none := by
          refine AList.lookup_eq_none.mpr (fun hmem => h ?_)
          rw [AList.mem_keys, AList.keys_singleton] at hmem
          exact (List.mem_singleton.mp hmem).symm
        rw [hnone, if_neg h]
        rfl
  | some entries =>
      by_cases hscore : scoreKey ∈ entries
      · simp only [hscore, if_true]
        exact hentries entries
      · simp only [hscore, if_false]
        rw [Dict.getD_append, hentries]
        by_cases h : scoreKey = key
        · subst h
          have hnone : entries.lookup scoreKey = none := AList.lookup_eq_none.mpr hscore
          simp [hnone]
        · simp [h, AList.lookup_insert_ne (Ne.symm h)]

theorem mem_appendScore (info : Dict Str (List V)) (item : Item Token Truth Info) (key : Str) :
    key ∈ appendScore values info (scored values tok scorer item).1
        (scored values tok scorer item).2 ↔
      key ∈ info ∨ key ∈ sampleInfo values tok scorer item := by
  have hentries : ∀ entries : Dict Str V,
      key ∈ entries.entries.foldl (fun info kv => info.append kv.1 kv.2) info ↔
        key ∈ info ∨ key ∈ entries :=
    fun entries => Dict.mem_foldl_extend (fun v => [v]) entries.entries info key
  rw [mem_sampleInfo]
  unfold DictHasKey appendScore
  cases (scored values tok scorer item).2 with
  | none =>
      rw [Dict.append, AList.mem_insert]
      simp [or_comm]
  | some entries =>
      by_cases hscore : scoreKey ∈ entries
      · simp only [hscore, if_true]
        rw [hentries]
        constructor
        · rintro (h | h)
          · exact Or.inl h
          · exact Or.inr (Or.inr ⟨entries, rfl, h⟩)
        · rintro (h | rfl | ⟨_, hEq, h⟩)
          · exact Or.inl h
          · exact Or.inr hscore
          · cases hEq
            exact Or.inr h
      · simp only [hscore, if_false]
        rw [Dict.append, AList.mem_insert, hentries]
        simp only [Option.some.injEq, exists_eq_left']
        tauto

/-! ## One batch -/

def rewardRowOf (hL : 0 < L) (item : Item Token Truth Info) : Fin L → ℚ :=
  Row.single ⟨placeIdx item.validResponseLength L, by unfold placeIdx; omega⟩
    (scored values tok scorer item).1

/-- The loop body stores the row of its sample and appends its dictionary. -/
theorem valStep_eq (hL : 0 < L) (st : ValReward L V) (item : Item Token Truth Info) :
    valStep values tok scorer st item =
      .ok ⟨st.rewardTensor ++ [rewardRowOf values tok scorer hL item],
        appendScore values st.rewardExtraInfo (scored values tok scorer item).1
          (scored values tok scorer item).2⟩ := by
  have hplace : placeIdx item.validResponseLength L < L := by
    unfold placeIdx
    omega
  unfold valStep rewardRowOf scored
  obtain ⟨solutionStr, source⟩ := selectValidationSolutionText tok item
  cases source with
  | missing => simp [appendScore]
  | natural => simp [placeScore, hplace]
  | forcedFallback => simp [placeScore, hplace]

/-- The lists of these samples. -/
def batchInfo (items : List (Item Token Truth Info)) : Dict Str (List V) :=
  items.foldl (fun info item => appendScore values info (scored values tok scorer item).1
    (scored values tok scorer item).2) ∅

theorem foldl_valReward (hL : 0 < L) (items : List (Item Token Truth Info)) (st : ValReward L V) :
    items.foldl (fun st item => ⟨st.rewardTensor ++ [rewardRowOf values tok scorer hL item],
        appendScore values st.rewardExtraInfo (scored values tok scorer item).1
          (scored values tok scorer item).2⟩) st =
      (⟨st.rewardTensor ++ items.map (rewardRowOf values tok scorer hL),
        items.foldl (fun info item => appendScore values info (scored values tok scorer item).1
          (scored values tok scorer item).2) st.rewardExtraInfo⟩ : ValReward L V) := by
  induction items generalizing st with
  | nil => simp
  | cons item items ih => simp [ih]

theorem computeValReward_eq (hL : 0 < L) (items : List (Item Token Truth Info)) :
    computeValRewardPreferringNaturalTrace values tok scorer items =
      .ok (⟨items.map (rewardRowOf values tok scorer hL), batchInfo values tok scorer items⟩ :
        ValReward L V) := by
  unfold computeValRewardPreferringNaturalTrace
  rw [foldlM_eq_foldl (fun st item _ => valStep_eq values tok scorer hL st item),
    foldl_valReward]
  rfl

theorem getD_batchInfo (items : List (Item Token Truth Info)) (key : Str) :
    (batchInfo values tok scorer items).getD key [] =
      items.filterMap (fun item => (sampleInfo values tok scorer item).lookup key) := by
  induction items using List.reverseRecOn with
  | nil => rfl
  | append_singleton items item ih =>
      unfold batchInfo at ih ⊢
      rw [List.foldl_append, List.foldl_cons, List.foldl_nil, getD_appendScore, ih,
        List.filterMap_append, filterMap_singleton]

theorem mem_batchInfo (items : List (Item Token Truth Info)) (key : Str) :
    key ∈ batchInfo values tok scorer items ↔
      ∃ item ∈ items, key ∈ sampleInfo values tok scorer item := by
  induction items using List.reverseRecOn with
  | nil => simp [batchInfo]
  | append_singleton items item ih =>
      unfold batchInfo at ih ⊢
      rw [List.foldl_append, List.foldl_cons, List.foldl_nil, mem_appendScore, ih]
      constructor
      · rintro (⟨item', h, hkey⟩ | hkey)
        · exact ⟨item', List.mem_append_left _ h, hkey⟩
        · exact ⟨item, by simp, hkey⟩
      · rintro ⟨item', h, hkey⟩
        rcases List.mem_append.mp h with h | h
        · exact Or.inl ⟨item', h, hkey⟩
        · obtain rfl := List.mem_singleton.mp h
          exact Or.inr hkey

/-! ## The run -/

def ValSample.score (sample : ValSample Token Truth Info Uid) : ℚ :=
  (scored values tok scorer sample.item).1

/-- What the lists of a run should say about a sample. -/
def ValSample.described (sample : ValSample Token Truth Info Uid) : Dict Str V :=
  (sampleInfo values tok scorer sample.item).insert rewardKey
    (values.ofFloat (sample.score values tok scorer))

/-- The values a batch adds under `"reward"`. -/
def rewardValues (batch : List (ValSample Token Truth Info Uid)) : List V :=
  batch.map (fun sample => values.ofFloat (sample.score values tok scorer))

/-- The lists after one more batch. -/
def addBatch (infos : Dict Str (List V)) (batch : List (ValSample Token Truth Info Uid)) :
    Dict Str (List V) :=
  (batchInfo values tok scorer (batch.map ValSample.item)).entries.foldl
    (fun infos kv => infos.extend kv.1 kv.2)
    (infos.extend rewardKey (rewardValues values tok scorer batch))

/-- The lists of these batches. -/
def runInfos (batches : List (List (ValSample Token Truth Info Uid))) : Dict Str (List V) :=
  batches.foldl (addBatch values tok scorer) ∅

/-- What the loop over these batches leaves. -/
def runLists (batches : List (List (ValSample Token Truth Info Uid))) :
    ValidationLists Uid V where
  sampleScores := batches.flatten.map (ValSample.score values tok scorer)
  sampleUids := batches.flatten.map ValSample.uid
  dataSources := batches.flatten.map ValSample.dataSource
  rewardExtraInfos := runInfos values tok scorer batches

theorem validateStep_eq (hL : 0 < L) (batches : List (List (ValSample Token Truth Info Uid)))
    (batch : List (ValSample Token Truth Info Uid)) :
    validateStep values tok scorer L (runLists values tok scorer batches) batch =
      .ok (runLists values tok scorer (batches ++ [batch])) := by
  have hscores : ((batch.map ValSample.item).map (rewardRowOf values tok scorer hL)).map Row.sum =
      batch.map (ValSample.score values tok scorer) := by
    rw [List.map_map, List.map_map]
    refine List.map_congr_left (fun sample _ => ?_)
    simp [rewardRowOf, ValSample.score]
  have hreward : (batch.map (ValSample.score values tok scorer)).map values.ofFloat =
      rewardValues values tok scorer batch := List.map_map
  simp only [validateStep, computeValReward_eq values tok scorer hL, ok_bind, pure_eq_ok, hscores,
    hreward]
  simp [runLists, runInfos, addBatch]

/-- The run with its lists in closed form; only the assertion may raise. -/
theorem validate_eq (hL : 0 < L) (batches : List (List (ValSample Token Truth Info Uid))) :
    validate values tok scorer L batches =
      if ∀ kv ∈ (runInfos values tok scorer batches).entries,
        kv.2.length = 0 ∨ kv.2.length = batches.flatten.length then
          .ok (runLists values tok scorer batches)
      else .error .assertionError := by
  have hfold : ∀ pre post : List (List (ValSample Token Truth Info Uid)),
      post.foldlM (validateStep values tok scorer L) (runLists values tok scorer pre) =
        .ok (runLists values tok scorer (pre ++ post)) := by
    intro pre post
    induction post generalizing pre with
    | nil => simp
    | cons batch post ih =>
        rw [List.foldlM_cons, validateStep_eq values tok scorer hL, ok_bind, ih]
        simp
  have hstart : (⟨[], [], [], ∅⟩ : ValidationLists Uid V) = runLists values tok scorer
      ([] : List (List (ValSample Token Truth Info Uid))) := rfl
  unfold validate
  rw [hstart, hfold [] batches, ok_bind, List.nil_append]
  have hlen : (runLists values tok scorer batches).sampleScores.length =
      batches.flatten.length := by
    simp only [runLists, List.length_map]
  rw [hlen]
  rfl

theorem getD_addBatch (infos : Dict Str (List V))
    (batch : List (ValSample Token Truth Info Uid)) (key : Str) :
    (addBatch values tok scorer infos batch).getD key [] = infos.getD key [] ++
      ((if rewardKey = key then rewardValues values tok scorer batch else []) ++
        batch.filterMap (fun sample =>
          (sampleInfo values tok scorer sample.item).lookup key)) := by
  have hbatch := getD_batchInfo values tok scorer (batch.map ValSample.item) key
  rw [List.filterMap_map, Dict.getD] at hbatch
  have hextend := Dict.getD_foldl_extend id
    (batchInfo values tok scorer (batch.map ValSample.item)).nodupKeys
    (infos.extend rewardKey (rewardValues values tok scorer batch)) key
  rw [Dict.getD_extend, Option.map_id, List.append_assoc] at hextend
  refine hextend.trans ?_
  congr 2

theorem mem_addBatch (infos : Dict Str (List V))
    (batch : List (ValSample Token Truth Info Uid)) (key : Str) :
    key ∈ addBatch values tok scorer infos batch ↔ (key = rewardKey ∨ key ∈ infos) ∨
      ∃ sample ∈ batch, key ∈ sampleInfo values tok scorer sample.item := by
  have hbatch := mem_batchInfo values tok scorer (batch.map ValSample.item) key
  have hextend := Dict.mem_foldl_extend id
    (batchInfo values tok scorer (batch.map ValSample.item)).entries
    (infos.extend rewardKey (rewardValues values tok scorer batch)) key
  rw [Dict.extend, AList.mem_insert] at hextend
  refine hextend.trans (or_congr_right (hbatch.trans ?_))
  constructor
  · rintro ⟨_, hmem, hkey⟩
    obtain ⟨sample, hsample, rfl⟩ := List.mem_map.mp hmem
    exact ⟨sample, hsample, hkey⟩
  · rintro ⟨sample, hsample, hkey⟩
    exact ⟨sample.item, List.mem_map_of_mem hsample, hkey⟩

theorem getD_runInfos (batches : List (List (ValSample Token Truth Info Uid))) (key : Str) :
    (runInfos values tok scorer batches).getD key [] =
      batches.flatMap (fun batch =>
        (if rewardKey = key then rewardValues values tok scorer batch else []) ++
          batch.filterMap (fun sample =>
            (sampleInfo values tok scorer sample.item).lookup key)) := by
  induction batches using List.reverseRecOn with
  | nil => rfl
  | append_singleton batches batch ih =>
      unfold runInfos at ih ⊢
      rw [List.foldl_append, List.foldl_cons, List.foldl_nil, getD_addBatch, ih,
        List.flatMap_append, List.flatMap_singleton]

theorem mem_runInfos (batches : List (List (ValSample Token Truth Info Uid))) (key : Str) :
    key ∈ runInfos values tok scorer batches ↔ (key = rewardKey ∧ batches ≠ []) ∨
      ∃ sample ∈ batches.flatten, key ∈ sampleInfo values tok scorer sample.item := by
  induction batches using List.reverseRecOn with
  | nil => simp [runInfos]
  | append_singleton batches batch ih =>
      unfold runInfos at ih ⊢
      rw [List.foldl_append, List.foldl_cons, List.foldl_nil, mem_addBatch, ih,
        List.flatten_append, List.flatten_singleton]
      constructor
      · rintro ((h | h | ⟨sample, hs, h⟩) | ⟨sample, hs, h⟩)
        · exact Or.inl ⟨h, by simp⟩
        · exact Or.inl ⟨h.1, by simp⟩
        · exact Or.inr ⟨sample, List.mem_append_left _ hs, h⟩
        · exact Or.inr ⟨sample, List.mem_append_right _ hs, h⟩
      · rintro (⟨h, -⟩ | ⟨sample, hs, h⟩)
        · exact Or.inl (Or.inl h)
        · rcases List.mem_append.mp hs with hs | hs
          · exact Or.inl (Or.inr (Or.inr ⟨sample, hs, h⟩))
          · exact Or.inr ⟨sample, hs, h⟩

theorem getD_runInfos_of_ne (batches : List (List (ValSample Token Truth Info Uid))) {key : Str}
    (hkey : key ≠ rewardKey) :
    (runInfos values tok scorer batches).getD key [] = batches.flatten.filterMap (fun sample =>
      (sampleInfo values tok scorer sample.item).lookup key) := by
  rw [getD_runInfos, List.filterMap_flatten, List.flatMap_def]
  simp only [if_neg (Ne.symm hkey), List.nil_append]

theorem length_rewards (batches : List (List (ValSample Token Truth Info Uid))) :
    ((runInfos values tok scorer batches).getD rewardKey []).length =
      batches.flatten.length + (batches.flatten.filterMap (fun sample =>
        (sampleInfo values tok scorer sample.item).lookup rewardKey)).length := by
  rw [getD_runInfos]
  induction batches with
  | nil => rfl
  | cons batch batches ih =>
      rw [List.flatMap_cons, List.length_append, ih, List.flatten_cons, List.filterMap_append,
        if_pos rfl]
      simp only [List.length_append, rewardValues, List.length_map]
      omega

end Config

end RLCM.ForcedOutput
