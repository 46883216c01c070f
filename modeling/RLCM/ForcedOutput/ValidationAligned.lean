/-
# `RLCM.ForcedOutput.ValidationAligned` — entry `i` describes sample `i`

`ValidationAligned` is what the readers of the lists rely on: every list of a
batch has one entry a sample, the assertion of `_validate` passes, the lists of
the run have one entry a sample, and the values grouped by
`process_validation_metrics` under a prompt are those of its samples.

All of it holds exactly when the samples of the run contribute the same keys.
-/
import RLCM.ForcedOutput.ValidationRuns

namespace RLCM.ForcedOutput

open Py

variable {Token Truth Info Uid V : Type} {L : ℕ}

/-! ## Aligned lists -/

/-- Every list has one entry a row: the row's value under that key. -/
def InfosAligned (rows : List (Dict Str V)) (infos : Dict Str (List V)) : Prop :=
  ∀ key vs, infos.lookup key = some vs → rows.map (fun row => row.lookup key) = vs.map some

theorem InfosAligned.length_eq {rows : List (Dict Str V)} {infos : Dict Str (List V)}
    (h : InfosAligned rows infos) {key : Str} {vs : List V} (hvs : infos.lookup key = some vs) :
    vs.length = rows.length := by
  have := congrArg List.length (h key vs hvs)
  simpa using this.symm

theorem InfosAligned.get {rows : List (Dict Str V)} {infos : Dict Str (List V)}
    (h : InfosAligned rows infos) {key : Str} {vs : List V} (hvs : infos.lookup key = some vs)
    {i : ℕ} {row : Dict Str V} (hrow : rows[i]? = some row) :
    ∃ v, vs[i]? = some v ∧ row.lookup key = some v := by
  have hcolumn := congrArg (fun column => column[i]?) (h key vs hvs)
  simp only [List.getElem?_map, hrow, Option.map_some] at hcolumn
  cases hv : vs[i]? with
  | none =>
      rw [hv] at hcolumn
      cases hcolumn
  | some v =>
      rw [hv] at hcolumn
      exact ⟨v, rfl, Option.some.inj hcolumn⟩

section Config

variable (values : ScoreValues V) (tok : Tokenizer Token) (scorer : ValScorer Truth Info V)

/-- All samples contribute the same keys: a key of one sample's score dictionary,
other than `"score"`, is a key of every sample's score dictionary, and it is not
`"reward"`. -/
def UniformKeys (items : List (Item Token Truth Info)) : Prop :=
  ∀ item ∈ items, ∀ key, DictHasKey values tok scorer item key → key ≠ scoreKey →
    key ≠ rewardKey ∧ ∀ item' ∈ items, DictHasKey values tok scorer item' key

/-- The same condition on what scoring says. -/
theorem uniformKeys_iff (items : List (Item Token Truth Info)) :
    UniformKeys values tok scorer items ↔
      ∀ item ∈ items, ∀ key ∈ sampleInfo values tok scorer item,
        key ≠ rewardKey ∧ ∀ item' ∈ items, key ∈ sampleInfo values tok scorer item' := by
  have hreward : scoreKey ≠ rewardKey := by decide
  constructor
  · intro h item hitem key hkey
    rcases eq_or_ne key scoreKey with rfl | hne
    · exact ⟨hreward, fun item' _ => (mem_sampleInfo values tok scorer).mpr (Or.inl rfl)⟩
    · have hdict := ((mem_sampleInfo values tok scorer).mp hkey).resolve_left hne
      obtain ⟨hnot, hall⟩ := h item hitem key hdict hne
      exact ⟨hnot, fun item' hitem' =>
        (mem_sampleInfo values tok scorer).mpr (Or.inr (hall item' hitem'))⟩
  · intro h item hitem key hdict hne
    obtain ⟨hnot, hall⟩ := h item hitem key ((mem_sampleInfo values tok scorer).mpr (Or.inr hdict))
    exact ⟨hnot, fun item' hitem' =>
      ((mem_sampleInfo values tok scorer).mp (hall item' hitem')).resolve_left hne⟩

theorem batchInfo_aligned {items : List (Item Token Truth Info)}
    (h : UniformKeys values tok scorer items) :
    InfosAligned (items.map (sampleInfo values tok scorer))
      (batchInfo values tok scorer items) := by
  rw [uniformKeys_iff] at h
  intro key vs hvs
  have hmem : key ∈ batchInfo values tok scorer items :=
    Dict.mem_iff_exists_lookup.mpr ⟨vs, hvs⟩
  obtain ⟨item, hitem, hkey⟩ := (mem_batchInfo values tok scorer items key).mp hmem
  have hall := (h item hitem key hkey).2
  have hcolumn := getD_batchInfo values tok scorer items key
  rw [Dict.getD_of_lookup hvs] at hcolumn
  rw [hcolumn, List.map_map, map_some_filterMap]
  · rfl
  · exact fun item' hitem' => AList.lookup_isSome.mpr (hall item' hitem')

/-! ## The assertion -/

theorem length_column_iff {samples : List (ValSample Token Truth Info Uid)} {key : Str} :
    (samples.filterMap (fun sample =>
        (sampleInfo values tok scorer sample.item).lookup key)).length = samples.length ↔
      ∀ sample ∈ samples, key ∈ sampleInfo values tok scorer sample.item := by
  constructor
  · intro hfull sample hsample
    exact AList.lookup_isSome.mp (isSome_of_length_filterMap hfull sample hsample)
  · intro hall
    exact length_filterMap_of_isSome fun sample hsample =>
      AList.lookup_isSome.mpr (hall sample hsample)

/-- The assertion passes exactly when all samples of the run contribute the same
keys. -/
theorem assertion_iff (batches : List (List (ValSample Token Truth Info Uid))) :
    (∀ kv ∈ (runInfos values tok scorer batches).entries,
        kv.2.length = 0 ∨ kv.2.length = batches.flatten.length) ↔
      UniformKeys values tok scorer (batches.flatten.map ValSample.item) := by
  rw [uniformKeys_iff]
  have hentries := @Dict.forall_entries_iff _ _ _ (runInfos values tok scorer batches)
    (fun vs => vs.length = 0 ∨ vs.length = batches.flatten.length) []
  refine hentries.trans ?_
  constructor
  · intro h item hitem key hkey
    obtain ⟨sample, hsample, rfl⟩ := List.mem_map.mp hitem
    have hlength := h key ((mem_runInfos values tok scorer batches key).mpr
      (Or.inr ⟨sample, hsample, hkey⟩))
    obtain ⟨v, hv⟩ := Dict.mem_iff_exists_lookup.mp hkey
    have hpos : 0 < (batches.flatten.filterMap (fun sample =>
        (sampleInfo values tok scorer sample.item).lookup key)).length :=
      List.length_pos_of_mem (List.mem_filterMap.mpr ⟨sample, hsample, hv⟩)
    have hne : key ≠ rewardKey := by
      rintro rfl
      rw [length_rewards] at hlength
      omega
    rw [getD_runInfos_of_ne values tok scorer batches hne] at hlength
    have hall := (length_column_iff values tok scorer).mp (hlength.resolve_left hpos.ne')
    refine ⟨hne, fun item' hitem' => ?_⟩
    obtain ⟨sample', hsample', rfl⟩ := List.mem_map.mp hitem'
    exact hall sample' hsample'
  · intro h key hkey
    right
    rcases eq_or_ne key rewardKey with rfl | hne
    · rw [length_rewards, List.filterMap_eq_nil_iff.mpr, List.length_nil, Nat.add_zero]
      intro sample hsample
      refine AList.lookup_eq_none.mpr (fun hmem => ?_)
      exact (h sample.item (List.mem_map_of_mem hsample) rewardKey hmem).1 rfl
    · obtain ⟨sample, hsample, hmem⟩ := ((mem_runInfos values tok scorer batches key).mp
        hkey).resolve_left (fun hr => hne hr.1)
      have hall := (h sample.item (List.mem_map_of_mem hsample) key hmem).2
      rw [getD_runInfos_of_ne values tok scorer batches hne]
      exact (length_column_iff values tok scorer).mpr fun sample' hsample' =>
        hall sample'.item (List.mem_map_of_mem hsample')

/-! ## The lists of the run -/

theorem runInfos_aligned {batches : List (List (ValSample Token Truth Info Uid))}
    (h : UniformKeys values tok scorer (batches.flatten.map ValSample.item)) :
    InfosAligned (batches.flatten.map (ValSample.described values tok scorer))
      (runInfos values tok scorer batches) := by
  rw [uniformKeys_iff] at h
  intro key vs hvs
  have hcolumn : (runInfos values tok scorer batches).getD key [] = vs :=
    Dict.getD_of_lookup hvs []
  rw [List.map_map]
  rcases eq_or_ne key rewardKey with rfl | hne
  · -- only the scores are under `"reward"`
    have hnone : ∀ batch ∈ batches, batch.filterMap (fun sample =>
        (sampleInfo values tok scorer sample.item).lookup rewardKey) = [] := by
      intro batch hbatch
      refine List.filterMap_eq_nil_iff.mpr (fun sample hsample => ?_)
      refine AList.lookup_eq_none.mpr (fun hmem => ?_)
      have hflat : sample ∈ batches.flatten := List.mem_flatten.mpr ⟨batch, hbatch, hsample⟩
      exact (h sample.item (List.mem_map_of_mem hflat) rewardKey hmem).1 rfl
    have hrewards : vs = batches.flatten.map (fun sample =>
        values.ofFloat (ValSample.score values tok scorer sample)) := by
      rw [← hcolumn, getD_runInfos, List.map_flatten, List.flatMap_def]
      refine congrArg List.flatten (List.map_congr_left (fun batch hbatch => ?_))
      rw [hnone batch hbatch, if_pos rfl, List.append_nil, rewardValues]
    rw [hrewards, List.map_map]
    refine List.map_congr_left (fun sample _ => ?_)
    exact AList.lookup_insert _
  · have hmem : key ∈ runInfos values tok scorer batches :=
      Dict.mem_iff_exists_lookup.mpr ⟨vs, hvs⟩
    obtain ⟨sample, hsample, hkey⟩ := ((mem_runInfos values tok scorer batches key).mp
      hmem).resolve_left (fun hr => hne hr.1)
    have hall := (h sample.item (List.mem_map_of_mem hsample) key hkey).2
    rw [← hcolumn, getD_runInfos_of_ne values tok scorer batches hne, map_some_filterMap]
    · exact List.map_congr_left (fun sample' _ => AList.lookup_insert_ne hne)
    · exact fun sample' hsample' =>
        AList.lookup_isSome.mpr (hall sample'.item (List.mem_map_of_mem hsample'))

theorem mem_runInfos_of_described {batches : List (List (ValSample Token Truth Info Uid))}
    {sample : ValSample Token Truth Info Uid} (hsample : sample ∈ batches.flatten) {key : Str}
    (hkey : key ∈ sample.described values tok scorer) :
    key ∈ runInfos values tok scorer batches := by
  rw [ValSample.described, AList.mem_insert] at hkey
  rw [mem_runInfos]
  rcases hkey with rfl | hkey
  · refine Or.inl ⟨rfl, ?_⟩
    rintro rfl
    cases hsample
  · exact Or.inr ⟨sample, hsample, hkey⟩

end Config

/-! ## Grouping by prompt -/

section Metrics

variable [DecidableEq Uid]

/-- The inner loop appends the values of one sample under its prompt. -/
theorem foldlM_sampleInfos {entries : List (Sigma fun _ : Str => List V)}
    (hkeys : entries.NodupKeys) {row : Dict Str V} {i : ℕ}
    (hrow : ∀ kv ∈ entries, ∃ v, kv.2[i]? = some v ∧ row.lookup kv.1 = some v)
    (source : Str) (uid : Uid) (d : Dict (Str × Uid × Str) (List V)) :
    ∃ d', entries.foldlM (fun var2vals kv => do
        let v ← getItem kv.2 i
        pure (var2vals.append (source, uid, kv.1) v)) d = .ok d' ∧
      ∀ source' uid' key, d'.getD (source', uid', key) [] = d.getD (source', uid', key) [] ++
        if source = source' ∧ uid = uid' ∧ key ∈ entries.keys then (row.lookup key).toList
        else [] := by
  induction entries generalizing d with
  | nil => exact ⟨d, rfl, by simp⟩
  | cons kv entries ih =>
      obtain ⟨hfresh, hkeys⟩ := List.nodupKeys_cons.mp hkeys
      obtain ⟨v, hv, hlook⟩ := hrow kv List.mem_cons_self
      obtain ⟨d', hd', hgetD⟩ := ih hkeys (fun kv' hkv' => hrow kv' (List.mem_cons_of_mem _ hkv'))
        (d.append (source, uid, kv.1) v)
      refine ⟨d', ?_, fun source' uid' key => ?_⟩
      · rw [List.foldlM_cons, getItem_eq_ok.mpr hv]
        exact hd'
      · rw [hgetD, Dict.getD_append, List.append_assoc]
        congr 1
        by_cases hkey : kv.1 = key
        · subst hkey
          rw [hlook]
          simp [hfresh]
        · simp [hkey, Ne.symm hkey]

def promptValues (describe : ValSample Token Truth Info Uid → Dict Str V)
    (samples : List (ValSample Token Truth Info Uid)) (source : Str) (uid : Uid) (key : Str) :
    List V :=
  (samples.filter (fun sample => sample.dataSource = source ∧ sample.uid = uid)).filterMap
    (fun sample => (describe sample).lookup key)

theorem promptValues_snoc (describe : ValSample Token Truth Info Uid → Dict Str V)
    (samples : List (ValSample Token Truth Info Uid)) (sample : ValSample Token Truth Info Uid)
    (source : Str) (uid : Uid) (key : Str) :
    promptValues describe (samples ++ [sample]) source uid key =
      promptValues describe samples source uid key ++
        if sample.dataSource = source ∧ sample.uid = uid then ((describe sample).lookup key).toList
        else [] := by
  rw [promptValues, promptValues, List.filter_append, List.filterMap_append]
  congr 1
  by_cases hprompt : sample.dataSource = source ∧ sample.uid = uid
  · simp [hprompt, filterMap_singleton]
  · simp [hprompt]

section Grouping

variable {lists : ValidationLists Uid V} {samples : List (ValSample Token Truth Info Uid)}
  (describe : ValSample Token Truth Info Uid → Dict Str V)
  (huids : lists.sampleUids = samples.map ValSample.uid)
  (haligned : InfosAligned (samples.map describe) lists.rewardExtraInfos)
  (hall : ∀ sample ∈ samples, ∀ key ∈ describe sample, key ∈ lists.rewardExtraInfos)
include huids haligned hall

/-- The outer loop adds the values of one sample to those of the samples before. -/
theorem groupSample_ok {pre post : List (ValSample Token Truth Info Uid)}
    {sample : ValSample Token Truth Info Uid} (hpre : samples = pre ++ sample :: post)
    {d : Dict (Str × Uid × Str) (List V)} (hd : ∀ source uid key,
      d.getD (source, uid, key) [] = promptValues describe pre source uid key) :
    ∃ d', groupSample lists d (sample.dataSource, pre.length) = .ok d' ∧ ∀ source uid key,
      d'.getD (source, uid, key) [] = promptValues describe (pre ++ [sample]) source uid key := by
  have hsample : samples[pre.length]? = some sample := by simp [hpre]
  have huid : getItem lists.sampleUids pre.length = .ok sample.uid := by
    rw [getItem_eq_ok, huids, List.getElem?_map, hsample]
    rfl
  have hrow : ∀ kv ∈ lists.rewardExtraInfos.entries, ∃ v, kv.2[pre.length]? = some v ∧
      (describe sample).lookup kv.1 = some v := by
    rintro ⟨key, vs⟩ hkv
    refine haligned.get (AList.mem_lookup_iff.mpr hkv) ?_
    rw [List.getElem?_map, hsample]
    rfl
  obtain ⟨d', hd', hgetD⟩ := foldlM_sampleInfos lists.rewardExtraInfos.nodupKeys hrow
    sample.dataSource sample.uid d
  refine ⟨d', ?_, fun source uid key => ?_⟩
  · rw [groupSample, huid]
    exact hd'
  · rw [hgetD, hd, promptValues_snoc]
    congr 1
    by_cases hkey : key ∈ lists.rewardExtraInfos.entries.keys
    · simp only [hkey, and_true]
    · -- a key that the lists do not have, the sample does not have
      have hnone : (describe sample).lookup key = none :=
        AList.lookup_eq_none.mpr fun h => hkey (hall sample (List.mem_of_getElem? hsample) key h)
      rw [hnone, Option.toList_none, ite_self, ite_self]

theorem groupValidationInfos_ok (hsources : lists.dataSources = samples.map ValSample.dataSource) :
    ∃ grouped, groupValidationInfos lists = .ok grouped ∧ ∀ source uid key,
      grouped.getD (source, uid, key) [] = promptValues describe samples source uid key := by
  -- the samples before number `pre.length` are grouped already
  suffices hpart : ∀ post pre : List (ValSample Token Truth Info Uid), samples = pre ++ post →
      ∀ d : Dict (Str × Uid × Str) (List V), (∀ source uid key,
        d.getD (source, uid, key) [] = promptValues describe pre source uid key) →
      ∃ grouped, ((post.map ValSample.dataSource).zipIdx pre.length).foldlM
          (groupSample lists) d = .ok grouped ∧ ∀ source uid key,
          grouped.getD (source, uid, key) [] = promptValues describe samples source uid key by
    unfold groupValidationInfos
    rw [hsources]
    exact hpart samples [] rfl ∅ (fun _ _ _ => rfl)
  intro post
  induction post with
  | nil =>
      intro pre hpre d hd
      rw [List.append_nil] at hpre
      exact ⟨d, rfl, hpre ▸ hd⟩
  | cons sample post ih =>
      intro pre hpre d hd
      obtain ⟨d', hstep, hd'⟩ := groupSample_ok describe huids haligned hall hpre hd
      obtain ⟨grouped, hgrouped, hvalues⟩ := ih (pre ++ [sample]) (by simp [hpre]) d' hd'
      refine ⟨grouped, ?_, hvalues⟩
      rw [List.map_cons, List.zipIdx_cons, List.foldlM_cons, hstep, ok_bind]
      simpa using hgrouped

end Grouping

/-! ## A whole validation -/

/-- Every list of every batch has one entry a sample, the sample's own; the
assertion passes; and the metrics see, under every prompt, the values of its own
samples. -/
def ValidationAligned (values : ScoreValues V) (tok : Tokenizer Token)
    (scorer : ValScorer Truth Info V) (L : ℕ)
    (batches : List (List (ValSample Token Truth Info Uid))) : Prop :=
  (∀ batch ∈ batches, ∃ reward : ValReward L V,
    computeValRewardPreferringNaturalTrace values tok scorer (batch.map ValSample.item) =
        .ok reward ∧
      InfosAligned ((batch.map ValSample.item).map (sampleInfo values tok scorer))
        reward.rewardExtraInfo) ∧
  ∃ lists, validate values tok scorer L batches = .ok lists ∧
    InfosAligned (batches.flatten.map (ValSample.described values tok scorer))
      lists.rewardExtraInfos ∧
    ∃ grouped, groupValidationInfos lists = .ok grouped ∧ ∀ source uid key,
      grouped.getD (source, uid, key) [] =
        promptValues (ValSample.described values tok scorer) batches.flatten source uid key

/-- The lists of a validation are aligned exactly when all its samples contribute
the same keys. -/
theorem validationAligned_iff {values : ScoreValues V} {tok : Tokenizer Token}
    {scorer : ValScorer Truth Info V} (hL : 0 < L)
    {batches : List (List (ValSample Token Truth Info Uid))} :
    ValidationAligned values tok scorer L batches ↔
      UniformKeys values tok scorer (batches.flatten.map ValSample.item) := by
  constructor
  · rintro ⟨-, lists, hlists, -⟩
    rw [validate_eq values tok scorer hL] at hlists
    refine (assertion_iff values tok scorer batches).mp ?_
    by_contra hassert
    rw [if_neg hassert] at hlists
    cases hlists
  · intro h
    refine ⟨fun batch hbatch => ?_, runLists values tok scorer batches, ?_, ?_, ?_⟩
    · refine ⟨_, computeValReward_eq values tok scorer hL _, batchInfo_aligned values tok scorer ?_⟩
      have hsub : ∀ item ∈ batch.map ValSample.item, item ∈ batches.flatten.map ValSample.item := by
        intro item hitem
        obtain ⟨sample, hsample, rfl⟩ := List.mem_map.mp hitem
        exact List.mem_map_of_mem (List.mem_flatten.mpr ⟨batch, hbatch, hsample⟩)
      intro item hitem key hdict hne
      obtain ⟨hnot, hall⟩ := h item (hsub item hitem) key hdict hne
      exact ⟨hnot, fun item' hitem' => hall item' (hsub item' hitem')⟩
    · rw [validate_eq values tok scorer hL,
        if_pos ((assertion_iff values tok scorer batches).mpr h)]
    · exact runInfos_aligned values tok scorer h
    · exact groupValidationInfos_ok (ValSample.described values tok scorer) rfl
        (runInfos_aligned values tok scorer h)
        (fun sample hsample key hkey => mem_runInfos_of_described values tok scorer hsample hkey)
        rfl

end Metrics

/-! ## A scorer that raises once -/

theorem ascending_none : ∀ budgets ∈ (none : Option (List ℕ)), StrictAsc budgets := by
  intro budgets h
  cases h

/-- A sample with a natural trace of one character. -/
def oneCharSample (c : Char) : ValSample Char Unit Unit ℕ where
  uid := 0
  item :=
    { groundTruth := none
      dataSource := none
      extraInfo := none
      promptLength := 0
      attentionMask := [1]
      responses := [c]
      traceLength := some 1
      forcedFullTexts := none
      forcedFullTextsMulti := none
      budgetCheckpoints := none
      ascending := ascending_none }

def correctScore : Dict Str ℚ := Dict.assign ∅ [(scoreKey, 1), ("acc".toList, 1)]

/-- The answer `4` is correct; anything else makes the scorer raise. -/
def raisingScorer : ValScorer Unit Unit ℚ := fun query =>
  if query.solutionStr = ['4'] then .dict correctScore else .raised

theorem validationAligned_iff_twoBatches :
    ValidationAligned ⟨some, id⟩ ⟨id, id, 'e'⟩ raisingScorer 1
      [[oneCharSample '4'], [oneCharSample '4', oneCharSample '4']] := by
  refine (validationAligned_iff (by decide)).mpr ?_
  have hscored : (scored ⟨some, id⟩ ⟨id, id, 'e'⟩ raisingScorer (oneCharSample '4').item).2 =
      some correctScore := by rfl
  have hdict : ∀ key, DictHasKey ⟨some, id⟩ ⟨id, id, 'e'⟩ raisingScorer (oneCharSample '4').item
      key ↔ key ∈ correctScore := by
    intro key
    simp [DictHasKey, hscored]
  have hsame : ∀ item ∈ ([[oneCharSample '4'], [oneCharSample '4', oneCharSample '4']] :
      List (List (ValSample Char Unit Unit ℕ))).flatten.map ValSample.item,
      item = (oneCharSample '4').item := by simp
  intro item hitem key hkey hne
  obtain rfl := hsame item hitem
  refine ⟨?_, fun item' hitem' => ?_⟩
  · rintro rfl
    exact absurd ((hdict rewardKey).mp hkey) (by decide)
  · rw [hsame item' hitem']
    exact hkey

/-- One sample is scored to a dictionary, for the other the scorer raises: the
assertion of `_validate` fails. -/
theorem raising_scorer_misaligns :
    ¬ ValidationAligned ⟨some, id⟩ ⟨id, id, 'e'⟩ raisingScorer 1
      [[oneCharSample '4', oneCharSample '5']] := by
  rintro ⟨-, lists, hlists, -⟩
  have hraises : validate ⟨some, id⟩ ⟨id, id, 'e'⟩ raisingScorer 1
      [[oneCharSample '4', oneCharSample '5']] = .error .assertionError := by rfl
  rw [hraises] at hlists
  cases hlists

end RLCM.ForcedOutput
