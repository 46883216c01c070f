/-
# `RLCM.Eval.ProbeSplit` — when the grouped split has a validation part

`build_group_split_indices` gives whole groups to the validation part until a
target is reached, and the rest to the training part.  If nothing is left for
training it exchanges the two lists, which leaves the validation part empty
instead; `train_single_run` then divides by its number of batches.

`SplitInvariant` says what the loop knows: the groups taken so far, the groups
left over, and that the last group taken was still needed.  So the split has two
parts exactly when the target is reached without the last group of the order.
-/
import RLCM.Eval.ProbeTraining
import RLCM.Py.Error

namespace RLCM.Eval

open Py Stats

variable {V : Type}

/-! ## What a split should be -/

def sampleGroup (env : SplitEnv V) (groupKey : String) (metadata : List (ProbeMetadata V))
    (i : ℕ) : Option String :=
  (metadata[i]?.bind (fun entry => (entry.lookup groupKey).join)).map env.str

def groupMembers (env : SplitEnv V) (groupKey : String) (metadata : List (ProbeMetadata V))
    (group : String) : List ℕ :=
  (List.range metadata.length).filter
    (fun i => sampleGroup env groupKey metadata i = some group)

def groupOrder (env : SplitEnv V) (groupKey : String) (metadata : List (ProbeMetadata V)) :
    List String :=
  match metadata.zipIdx.mapM (groupEntry env groupKey) with
  | .ok entries => env.shuffle (Dict.group entries).keys
  | .error _ => []

/-- Two parts that are not empty, hold every index once and keep the groups
together. -/
structure ValidSplit (env : SplitEnv V) (groupKey : String) (metadata : List (ProbeMetadata V))
    (split : List ℕ × List ℕ) : Prop where
  train_ne_nil : split.1 ≠ []
  val_ne_nil : split.2 ≠ []
  perm : (split.1 ++ split.2).Perm (List.range metadata.length)
  apart : ∀ i ∈ split.1, ∀ j ∈ split.2,
    sampleGroup env groupKey metadata i ≠ sampleGroup env groupKey metadata j

def NeverDividesByZero (total : ℕ) (split : List ℕ × List ℕ) : Prop :=
  ∀ (G H M S : Type) (env : ProbeEnv G H M S) (dataset : List (ProbeSample H))
    (config : ProbeConfig) (generators : G),
    dataset.length = total → 1 ≤ config.batchSize →
      runConfig (probeSweep env dataset (some split)) generators config ≠
        .error .zeroDivisionError

/-! ## The loop over the groups -/

section Loop

variable {members : String → List ℕ} {target : ℕ}

/-- The samples of some groups, one group after another. -/
def samplesOf (members : String → List ℕ) (keys : List String) : List ℕ := keys.flatMap members

theorem samplesOf_append (members : String → List ℕ) (keys keys' : List String) :
    samplesOf members (keys ++ keys') = samplesOf members keys ++ samplesOf members keys' :=
  List.flatMap_append

theorem samplesOf_singleton (members : String → List ℕ) (key : String) :
    samplesOf members [key] = members key := List.flatMap_singleton ..

/-- What the loop knows when it has taken some groups and left others. -/
structure SplitInvariant (members : String → List ℕ) (target : ℕ) (taken left : List String)
    (st : SplitLoop) : Prop where
  val_eq : st.valIndices = samplesOf members taken
  train_eq : st.trainIndices = samplesOf members left
  count_eq : st.valCount = (samplesOf members taken).length
  reached : left ≠ [] → target ≤ (samplesOf members taken).length
  needed : ∀ before last, taken = before ++ [last] → (samplesOf members before).length < target

theorem splitStep_invariant {groups : Dict String (List ℕ)}
    (hmembers : ∀ key, groups.getD key [] = members key) {taken left : List String}
    {st : SplitLoop} (h : SplitInvariant members target taken left st) (key : String) :
    ∃ taken' left', taken ++ left ++ [key] = taken' ++ left' ∧
      SplitInvariant members target taken' left' (splitStep groups target st key) := by
  unfold splitStep
  dsimp only
  rw [hmembers]
  split_ifs with hcount
  · -- the target is not reached, so nothing was left so far
    rw [h.count_eq] at hcount
    have hleft : left = [] := by
      by_contra hne
      exact absurd (h.reached hne) (not_le.mpr hcount)
    subst hleft
    refine ⟨taken ++ [key], [], by simp, ?_, h.train_eq, ?_, fun hne => absurd rfl hne, ?_⟩
    · rw [samplesOf_append, samplesOf_singleton, ← h.val_eq]
    · rw [samplesOf_append, samplesOf_singleton, List.length_append, ← h.count_eq]
    · intro before last heq
      rw [(List.append_inj' heq rfl).1] at hcount
      exact hcount
  · rw [h.count_eq, not_lt] at hcount
    refine ⟨taken, left ++ [key], (List.append_assoc ..), h.val_eq, ?_, h.count_eq,
      fun _ => hcount, h.needed⟩
    rw [samplesOf_append, samplesOf_singleton, ← h.train_eq]

theorem foldl_splitStep_invariant {groups : Dict String (List ℕ)}
    (hmembers : ∀ key, groups.getD key [] = members key) (order : List String) :
    ∃ taken left, order = taken ++ left ∧
      SplitInvariant members target taken left
        (order.foldl (splitStep groups target) ⟨[], [], 0⟩) := by
  induction order using List.reverseRecOn with
  | nil =>
      refine ⟨[], [], rfl, rfl, rfl, rfl, fun hne => absurd rfl hne, ?_⟩
      intro before last heq
      exact absurd heq.symm (List.append_ne_nil_of_right_ne_nil _ (List.cons_ne_nil last []))
  | append_singleton order key ih =>
      obtain ⟨taken, left, rfl, h⟩ := ih
      rw [List.foldl_append, List.foldl_cons, List.foldl_nil]
      exact splitStep_invariant hmembers h key

variable {taken left : List String} {st : SplitLoop}

/-- Something is left over exactly when the target is reached without the last
group. -/
theorem SplitInvariant.left_ne_nil_iff (h : SplitInvariant members target taken left st)
    (hne : taken ++ left ≠ []) :
    left ≠ [] ↔ ∀ last ∈ (taken ++ left).getLast?,
      target + (members last).length ≤ (samplesOf members (taken ++ left)).length := by
  constructor
  · intro hleft last hlast
    rw [List.getLast?_append_of_ne_nil _ hleft] at hlast
    obtain ⟨before, rfl⟩ := List.getLast?_eq_some_iff.mp hlast
    have hreached := h.reached hleft
    rw [samplesOf_append, samplesOf_append, samplesOf_singleton, List.length_append,
      List.length_append]
    omega
  · rintro hfits rfl
    rw [List.append_nil] at hne hfits
    obtain ⟨before, last, rfl⟩ := (List.eq_nil_or_concat' taken).resolve_left hne
    have hneeded := h.needed before last rfl
    have hlast := hfits last List.getLast?_concat
    rw [samplesOf_append, samplesOf_singleton, List.length_append] at hlast
    omega

theorem SplitInvariant.taken_ne_nil (h : SplitInvariant members target taken left st)
    (htarget : 1 ≤ target) (hne : taken ++ left ≠ []) : taken ≠ [] := by
  rintro rfl
  have hreached := h.reached hne
  exact absurd hreached (not_le.mpr htarget)

theorem samplesOf_ne_nil {keys : List String} (hkeys : keys ≠ [])
    (hmembers : ∀ key ∈ keys, members key ≠ []) : samplesOf members keys ≠ [] := by
  obtain ⟨key, hkey⟩ := List.exists_mem_of_ne_nil _ hkeys
  intro hnil
  exact hmembers key hkey (List.flatMap_eq_nil_iff.mp hnil key hkey)

end Loop

/-! ## The groups of the metadata -/

section Groups

variable {env : SplitEnv V} {groupKey : String} {metadata : List (ProbeMetadata V)}

theorem mem_groupMembers {group : String} {i : ℕ} :
    i ∈ groupMembers env groupKey metadata group ↔
      i < metadata.length ∧ sampleGroup env groupKey metadata i = some group := by
  rw [groupMembers, List.mem_filter, List.mem_range, decide_eq_true_eq]

def groupedIndices (env : SplitEnv V) (groupKey : String) (metadata : List (ProbeMetadata V)) :
    List (String × ℕ) :=
  (List.range metadata.length).map (fun i => ((sampleGroup env groupKey metadata i).getD "", i))

section Grouped

variable (hgroups : ∀ i < metadata.length, sampleGroup env groupKey metadata i ≠ none)
include hgroups

theorem mem_groupedIndices {kv : String × ℕ} : kv ∈ groupedIndices env groupKey metadata ↔
    kv.2 < metadata.length ∧ sampleGroup env groupKey metadata kv.2 = some kv.1 := by
  rw [groupedIndices, List.mem_map]
  constructor
  · rintro ⟨i, hi, rfl⟩
    refine ⟨List.mem_range.mp hi, ?_⟩
    obtain ⟨key, hkey⟩ := Option.ne_none_iff_exists'.mp (hgroups i (List.mem_range.mp hi))
    simp only [hkey, Option.getD_some]
  · rintro ⟨hlt, hgroup⟩
    refine ⟨kv.2, List.mem_range.mpr hlt, ?_⟩
    rw [hgroup, Option.getD_some]

theorem mapM_groupEntry : metadata.zipIdx.mapM (groupEntry env groupKey) =
    .ok (groupedIndices env groupKey metadata) := by
  have hmap : metadata.zipIdx.mapM (groupEntry env groupKey) =
      .ok (metadata.zipIdx.map
        (fun entry => ((sampleGroup env groupKey metadata entry.2).getD "", entry.2))) := by
    refine mapM_eq_map (fun entry hentry => ?_)
    have hget : metadata[entry.2]? = some entry.1 := List.mem_zipIdx_iff_getElem?.mp hentry
    have hlt : entry.2 < metadata.length := (List.getElem?_eq_some_iff.mp hget).1
    have hsome := hgroups entry.2 hlt
    simp only [sampleGroup, hget, Option.bind_some] at hsome ⊢
    unfold groupEntry
    cases hlookup : (entry.1.lookup groupKey).join with
    | none =>
        rw [hlookup] at hsome
        exact absurd rfl hsome
    | some groupVal => rfl
  have hsnd : metadata.zipIdx.map Prod.snd = List.range metadata.length := by
    rw [List.zipIdx_map_snd, List.range_eq_range']
  rw [hmap, groupedIndices, ← hsnd, List.map_map]
  rfl

theorem valuesAt_groupedIndices (group : String) :
    Dict.valuesAt (groupedIndices env groupKey metadata) group =
      groupMembers env groupKey metadata group := by
  rw [groupedIndices, Dict.valuesAt, groupMembers, List.filter_map, List.map_map]
  have hid : (Prod.snd ∘ fun i => ((sampleGroup env groupKey metadata i).getD "", i)) = id := rfl
  rw [hid, List.map_id]
  refine List.filter_congr (fun i hi => ?_)
  have hsome := hgroups i (List.mem_range.mp hi)
  cases hgroup : sampleGroup env groupKey metadata i with
  | none => exact absurd hgroup hsome
  | some key => simp [hgroup]

end Grouped

/-- The order holds the groups that occur, each once. -/
structure IsGroupOrder (env : SplitEnv V) (groupKey : String) (metadata : List (ProbeMetadata V))
    (order : List String) : Prop where
  nodup : order.Nodup
  covers : ∀ i < metadata.length, ∃ key ∈ order, sampleGroup env groupKey metadata i = some key
  members_ne_nil : ∀ key ∈ order, groupMembers env groupKey metadata key ≠ []

theorem isGroupOrder_of_perm
    (hgroups : ∀ i < metadata.length, sampleGroup env groupKey metadata i ≠ none)
    {order : List String}
    (hperm : order.Perm (Dict.group (groupedIndices env groupKey metadata)).keys) :
    IsGroupOrder env groupKey metadata order where
  nodup := hperm.nodup_iff.mpr (AList.keys_nodup _)
  covers := by
    intro i hi
    obtain ⟨key, hkey⟩ := Option.ne_none_iff_exists'.mp (hgroups i hi)
    have hpair : (key, i) ∈ groupedIndices env groupKey metadata :=
      (mem_groupedIndices hgroups).mpr ⟨hi, hkey⟩
    exact ⟨key, hperm.mem_iff.mpr (Dict.mem_keys_group.mpr ⟨(key, i), hpair, rfl⟩), hkey⟩
  members_ne_nil := by
    intro key hkey
    obtain ⟨kv, hkv, rfl⟩ := Dict.mem_keys_group.mp (hperm.mem_iff.mp hkey)
    exact List.ne_nil_of_mem (mem_groupMembers.mpr ((mem_groupedIndices hgroups).mp hkv))

theorem IsGroupOrder.perm {order : List String} (h : IsGroupOrder env groupKey metadata order) :
    (samplesOf (groupMembers env groupKey metadata) order).Perm (List.range metadata.length) := by
  have hsome : ∀ i < metadata.length, sampleGroup env groupKey metadata i ≠ none := by
    intro i hi
    obtain ⟨key, -, hkey⟩ := h.covers i hi
    rw [hkey]
    exact Option.some_ne_none key
  have hmem : samplesOf (groupMembers env groupKey metadata) order =
      order.flatMap (Dict.valuesAt (groupedIndices env groupKey metadata)) :=
    List.flatMap_congr (fun key _ => (valuesAt_groupedIndices hsome key).symm)
  rw [hmem]
  refine (Dict.flatMap_valuesAt_perm h.nodup ?_).trans ?_
  · intro kv hkv
    obtain ⟨hlt, hkey⟩ := (mem_groupedIndices hsome).mp hkv
    obtain ⟨key, hmem, hgroup⟩ := h.covers kv.2 hlt
    obtain rfl := Option.some.inj (hkey.symm.trans hgroup)
    exact hmem
  · rw [groupedIndices, List.map_map]
    exact List.Perm.of_eq (List.map_id _)

theorem IsGroupOrder.apart {taken left : List String}
    (h : IsGroupOrder env groupKey metadata (taken ++ left)) :
    ∀ i ∈ samplesOf (groupMembers env groupKey metadata) left,
      ∀ j ∈ samplesOf (groupMembers env groupKey metadata) taken,
        sampleGroup env groupKey metadata i ≠ sampleGroup env groupKey metadata j := by
  intro i hi j hj heq
  obtain ⟨key, hkey, hi⟩ := List.mem_flatMap.mp hi
  obtain ⟨key', hkey', hj⟩ := List.mem_flatMap.mp hj
  rw [(mem_groupMembers.mp hi).2, (mem_groupMembers.mp hj).2] at heq
  obtain rfl := Option.some.inj heq
  exact (List.nodup_append.mp h.nodup).2.2 key hkey' key hkey rfl

/-- `build_group_split_indices`, as whole groups: some are taken for validation,
in the order of the shuffle, the others are left for training. -/
theorem buildGroupSplitIndices_eq
    (hgroups : ∀ i < metadata.length, sampleGroup env groupKey metadata i ≠ none)
    (valSplit : ℚ) :
    ∃ taken left st, groupOrder env groupKey metadata = taken ++ left ∧
      IsGroupOrder env groupKey metadata (taken ++ left) ∧
      SplitInvariant (groupMembers env groupKey metadata) (targetVal metadata.length valSplit)
        taken left st ∧
      buildGroupSplitIndices env metadata valSplit groupKey = .ok
        (if st.trainIndices = [] then (st.valIndices, [])
         else (st.trainIndices, st.valIndices)) := by
  have hentries := mapM_groupEntry hgroups
  have hmembers : ∀ key, (Dict.group (groupedIndices env groupKey metadata)).getD key [] =
      groupMembers env groupKey metadata key := by
    intro key
    rw [Dict.getD_group, valuesAt_groupedIndices hgroups]
  obtain ⟨taken, left, hsplit, hinv⟩ := foldl_splitStep_invariant hmembers
    (env.shuffle (Dict.group (groupedIndices env groupKey metadata)).keys)
  refine ⟨taken, left, _, ?_, ?_, hinv, ?_⟩
  · rw [groupOrder, hentries]
    exact hsplit
  · rw [← hsplit]
    exact isGroupOrder_of_perm hgroups (env.shuffle_perm _)
  · rw [buildGroupSplitIndices, hentries]
    rfl

end Groups

/-! ## Division by the number of batches -/

section Division

variable {G H M S Met L : Type} [LinearOrder L] {P : Error → Prop}

theorem trainEpochs_onlyRaises {env : EpochEnv M S Met L}
    (hvalidate : ∀ model, OnlyRaises P (env.validate model)) (patienceLimit epochs : ℕ)
    (model : M) (st : EpochLoop S Met L) :
    OnlyRaises P (trainEpochs env patienceLimit epochs model st) := by
  induction epochs generalizing model st with
  | zero => exact onlyRaises_ok _
  | succ epochs ih =>
      rw [trainEpochs]
      refine (hvalidate _).bind (fun result _ => ?_)
      dsimp only
      split_ifs with hbest hpatience
      · exact ih _ _
      · exact onlyRaises_ok _
      · exact ih _ _

theorem validationLoss_returns (env : ProbeEnv G H M S) {valDs : List (ProbeSample H)}
    (hval : valDs ≠ []) {batchSize : ℕ} (hbatch : 1 ≤ batchSize) (model : M) :
    ∃ loss, validationLoss env valDs batchSize model = .ok loss := by
  have hlen : (Blocks.pieces batchSize valDs).length ≠ 0 :=
    fun hzero => Blocks.pieces_ne_nil hval hbatch (List.length_eq_zero_iff.mp hzero)
  exact ⟨_, if_neg hlen⟩

/-- A valid split cuts a dataset of its size into two parts, the second of which
is not empty. -/
theorem ValidSplit.parts {env : SplitEnv V} {groupKey : String}
    {metadata : List (ProbeMetadata V)} {split : List ℕ × List ℕ}
    (h : ValidSplit env groupKey metadata split) {dataset : List (ProbeSample H)}
    (htotal : dataset.length = metadata.length) :
    ∃ trainDs valDs, split.1.mapM (getItem dataset) = .ok trainDs ∧
      split.2.mapM (getItem dataset) = .ok valDs ∧ valDs ≠ [] := by
  have hlt : ∀ i ∈ split.1 ++ split.2, i < dataset.length := by
    intro i hi
    rw [htotal]
    exact List.mem_range.mp (h.perm.mem_iff.mp hi)
  have hreturns : ∀ indices : List ℕ, (∀ i ∈ indices, i < dataset.length) →
      ∃ part, indices.mapM (getItem dataset) = .ok part := by
    intro indices hindices
    exact mapM_returns (fun i hi => ⟨_, getItem_of_lt (hindices i hi)⟩)
  obtain ⟨trainDs, htrain⟩ := hreturns split.1 (fun i hi => hlt i (List.mem_append_left _ hi))
  obtain ⟨valDs, hval⟩ := hreturns split.2 (fun i hi => hlt i (List.mem_append_right _ hi))
  refine ⟨trainDs, valDs, htrain, hval, fun hnil => ?_⟩
  have hlen := (mapM_eq_ok.mp hval).length_eq
  rw [hnil] at hlen
  exact h.val_ne_nil (List.length_eq_zero_iff.mp hlen)

theorem ValidSplit.neverDividesByZero {env : SplitEnv V} {groupKey : String}
    {metadata : List (ProbeMetadata V)} {split : List ℕ × List ℕ}
    (h : ValidSplit env groupKey metadata split) :
    NeverDividesByZero metadata.length split := by
  intro G H M S env dataset config generators htotal hbatch
  obtain ⟨trainDs, valDs, htrain, hval, hvalNe⟩ := h.parts htotal
  have honly : OnlyRaises (· = .unboundLocalError)
      (runConfig (probeSweep env dataset (some split)) generators config) := by
    simp only [runConfig, probeSweep, splitDataset, Option.getD_some, htrain, hval, ok_bind,
      pure_eq_ok]
    refine (trainEpochs_onlyRaises (fun model => ?_) _ _ _ _).bind (fun result _ => ?_)
    · obtain ⟨loss, hloss⟩ := validationLoss_returns env hvalNe hbatch model
      simp only [probeEpochs, hloss, ok_bind]
      exact onlyRaises_ok _
    · dsimp only
      split
      · exact onlyRaises_ok _
      · exact onlyRaises_error rfl
  intro hraises
  cases honly _ hraises

end Division

/-! ## When the split is valid -/

/-- The grouped split has two parts, and its runs never divide by zero, exactly
when the target is reached without the last group of the random order. -/
theorem grouped_split_valid_iff (env : SplitEnv V) (groupKey : String)
    (metadata : List (ProbeMetadata V)) (valSplit : ℚ) (hne : metadata ≠ [])
    (hgroups : ∀ i < metadata.length, sampleGroup env groupKey metadata i ≠ none) :
    (∃ split, buildGroupSplitIndices env metadata valSplit groupKey = .ok split ∧
      ValidSplit env groupKey metadata split ∧ NeverDividesByZero metadata.length split) ↔
    ∀ last ∈ (groupOrder env groupKey metadata).getLast?,
      targetVal metadata.length valSplit + (groupMembers env groupKey metadata last).length ≤
        metadata.length := by
  obtain ⟨taken, left, st, horder, hgroup, hinv, hbuild⟩ :=
    buildGroupSplitIndices_eq hgroups valSplit
  have hsome : taken ++ left ≠ [] := by
    intro hnil
    obtain ⟨key, hkey, -⟩ := hgroup.covers 0 (List.length_pos_iff.mpr hne)
    rw [hnil] at hkey
    cases hkey
  have htotal : (samplesOf (groupMembers env groupKey metadata) (taken ++ left)).length =
      metadata.length := by
    rw [hgroup.perm.length_eq, List.length_range]
  have hfits := hinv.left_ne_nil_iff hsome
  rw [htotal] at hfits
  rw [horder, ← hfits, hbuild, hinv.val_eq, hinv.train_eq]
  constructor
  · rintro ⟨split, hsplit, hvalid, -⟩ rfl
    rw [samplesOf, List.flatMap_nil, if_pos rfl] at hsplit
    cases hsplit
    exact hvalid.val_ne_nil rfl
  · intro hleft
    have htrain := samplesOf_ne_nil hleft
      (fun key hkey => hgroup.members_ne_nil key (List.mem_append_right _ hkey))
    have hval := samplesOf_ne_nil (hinv.taken_ne_nil (le_max_left _ _) hsome)
      (fun key hkey => hgroup.members_ne_nil key (List.mem_append_left _ hkey))
    have hperm := hgroup.perm
    rw [samplesOf_append] at hperm
    have hvalid : ValidSplit env groupKey metadata
        (samplesOf (groupMembers env groupKey metadata) left,
          samplesOf (groupMembers env groupKey metadata) taken) :=
      ⟨htrain, hval, List.perm_append_comm.trans hperm, hgroup.apart⟩
    exact ⟨_, by rw [if_neg htrain], hvalid, hvalid.neverDividesByZero⟩

/-! ## One sample before three -/

/-- Texts stand for themselves, and the groups come as they were found. -/
def plainSplitEnv : SplitEnv String where
  str := id
  reprKeys _ := "[]"
  shuffle := List.reverse
  shuffle_perm := List.reverse_perm

/-- A group of one sample and a group of three. -/
def oneAndThree : List (ProbeMetadata String) :=
  [[("prompt", some "p")], [("prompt", some "q")], [("prompt", some "q")],
    [("prompt", some "q")]]

theorem targetVal_four : targetVal 4 (1 / 2) = 2 := by
  have hproduct : ((4 : ℕ) : ℚ) * (1 / 2) = (2 : ℤ) := by norm_num
  rw [targetVal, hproduct, roundDouble_intCast (by decide), Int.floor_intCast]
  rfl

/-- Half of four samples is two: the group of one does not reach it, the group of
three is taken as well, and validation is left with nothing. -/
theorem grouped_split_one_and_three :
    ¬ ∀ (env : SplitEnv String) (groupKey : String) (metadata : List (ProbeMetadata String))
        (valSplit : ℚ), 0 < valSplit → valSplit < 1 →
      (∀ i < metadata.length, sampleGroup env groupKey metadata i ≠ none) →
      (∃ i < metadata.length, ∃ j < metadata.length,
        sampleGroup env groupKey metadata i ≠ sampleGroup env groupKey metadata j) →
      ∃ split, buildGroupSplitIndices env metadata valSplit groupKey = .ok split ∧
        ValidSplit env groupKey metadata split ∧ NeverDividesByZero metadata.length split := by
  intro hclaim
  obtain ⟨split, hsplit, hvalid, -⟩ := hclaim plainSplitEnv "prompt" oneAndThree (1 / 2)
    (by norm_num) (by norm_num) (by decide) ⟨0, by decide, 1, by decide, by decide⟩
  have hbuild : buildGroupSplitIndices plainSplitEnv oneAndThree (1 / 2) "prompt" =
      .ok ([0, 1, 2, 3], []) := by
    show (oneAndThree.zipIdx.mapM (groupEntry plainSplitEnv "prompt") >>= fun entries =>
      Except.ok (splitGroups (Dict.group entries) (targetVal 4 (1 / 2))
        (List.reverse (Dict.group entries).keys))) = _
    rw [targetVal_four]
    decide +kernel
  rw [hbuild] at hsplit
  cases hsplit
  exact hvalid.val_ne_nil rfl

/-- The same with the groups in the other order. -/
def reversedSplitEnv : SplitEnv String where
  str := id
  reprKeys _ := "[]"
  shuffle := id
  shuffle_perm := List.Perm.refl

/-- The group of three reaches the target by itself. -/
theorem grouped_split_valid_three_and_one :
    ∃ split, buildGroupSplitIndices reversedSplitEnv oneAndThree (1 / 2) "prompt" = .ok split ∧
      ValidSplit reversedSplitEnv "prompt" oneAndThree split ∧ NeverDividesByZero 4 split := by
  refine (grouped_split_valid_iff reversedSplitEnv "prompt" oneAndThree (1 / 2) (by decide)
    (by decide)).mpr ?_
  intro last hlast
  have hp : last = "p" := by
    have : (groupOrder reversedSplitEnv "prompt" oneAndThree).getLast? = some "p" := by
      decide +kernel
    exact Option.some.inj (hlast.symm.trans this)
  subst hp
  show targetVal 4 (1 / 2) + (groupMembers reversedSplitEnv "prompt" oneAndThree "p").length ≤ 4
  rw [targetVal_four]
  decide +kernel

end RLCM.Eval
