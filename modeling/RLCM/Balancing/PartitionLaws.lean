/-
# `RLCM.Balancing.PartitionLaws` — what the differencing method returns

`mergeStates_spec` is the induction everything here goes through: whatever holds
of the states the heap starts with, and of a merged state when it holds of the
two, holds of the state that is left, and that state has all items.  The order in
which the heap hands out the states plays no part.

From it, for every list of lengths:

* every index is in one part, once, and with as many items as parts no part is
  empty (`Filled`), so that the assertions of the caller never fail;
* in the equal-size mode all parts have the same number of items;
* no two loads differ by more than the longest sequence, and in the equal-size
  mode by more than the longest exceeds the shortest (`Within`).
-/
import RLCM.Balancing.Partitions
import RLCM.Lib.Differencing

namespace RLCM.Balancing

open Py Heapq Differencing

/-! ## Sets -/

namespace ItemSet

theorem items_merge (s other : ItemSet) : (s.merge other).items = s.items ++ other.items := by
  have hfold : ∀ (items : List (ℕ × ℕ)) (s : ItemSet),
      (items.foldl add s).items = s.items ++ items := by
    intro items
    induction items with
    | nil => simp
    | cons item items ih =>
        intro s
        rw [List.foldl_cons, ih]
        simp [add]
  exact hfold other.items s

theorem sum_merge (s other : ItemSet) : (s.merge other).sum = s.sum + other.sum := by
  rw [sum_eq, items_merge, s.sum_eq, other.sum_eq, List.map_append, List.sum_append]

theorem sum_le_of_not_lt {s other : ItemSet} (h : s.lt other = false) : other.sum ≤ s.sum := by
  rw [lt_eq, decide_eq_false_iff_not, key_lt_iff] at h
  exact not_lt.mp (fun hlt => h (Or.inl hlt))

theorem items_eq_nil_of_not_lt {s other : ItemSet} (h : s.lt other = false) (hs : s.items = []) :
    other.items = [] := by
  have hsum : s.sum = 0 := by rw [s.sum_eq, hs, List.map_nil, List.sum_nil]
  rw [lt_eq, decide_eq_false_iff_not, key_lt_iff, hsum, hs, List.length_nil] at h
  by_contra hne
  have hlen : 0 < other.items.length := List.length_pos_iff.mpr hne
  rcases Nat.eq_zero_or_pos other.sum with hzero | hpos
  · exact h (Or.inr ⟨hzero.symm, Or.inl hlen⟩)
  · exact h (Or.inl hpos)

end ItemSet

/-! ## States -/

namespace State

variable {k : ℕ}

def items (state : State k) : List (ℕ × ℕ) := (state.sets.map ItemSet.items).flatten

def loads (state : State k) : List ℕ := state.sets.map ItemSet.sum

theorem weakOrder : WeakOrder (lt (k := k)) := by
  have h := weakOrder_of_key
    (fun s : State k => OrderDual.toDual (toLex (s.spread, s.largest.key)))
  have hlt : lt (k := k) = fun s other => decide
      (OrderDual.toDual (toLex (s.spread, s.largest.key)) <
        OrderDual.toDual (toLex (other.spread, other.largest.key))) := by
    funext s other
    rw [Bool.eq_iff_iff, decide_eq_true_iff, OrderDual.toDual_lt_toDual,
      Prod.Lex.toLex_lt_toLex, lt, ItemSet.lt_eq]
    split_ifs with hne
    · rw [decide_eq_true_iff]
      exact ⟨Or.inl, fun h => h.resolve_right (fun hr => hne hr.1.symm)⟩
    · have heq : s.spread = other.spread := not_not.mp hne
      rw [decide_eq_true_iff]
      refine ⟨fun h => Or.inr ⟨heq.symm, h⟩, fun h => ?_⟩
      rcases h with h | ⟨-, h⟩
      · exact absurd heq.symm h.ne
      · exact h
  rw [hlt]
  exact h

theorem loads_pairwise (state : State k) : state.loads.Pairwise (· ≥ ·) :=
  List.pairwise_map.mpr (state.decreasing.imp ItemSet.sum_le_of_not_lt)

theorem filledFirst (state : State k) : FilledFirst (state.sets.map ItemSet.items) :=
  List.pairwise_map.mpr (state.decreasing.imp ItemSet.items_eq_nil_of_not_lt)

theorem sets_merge_perm (state other : State k) :
    (state.merge other).sets.Perm (opposed ItemSet.merge state.sets other.sets) :=
  sortDecreasing_perm _

theorem items_merge_perm (state other : State k) :
    (state.merge other).items.Perm (state.items ++ other.items) := by
  have hlen : (state.sets.map ItemSet.items).length = (other.sets.map ItemSet.items).length := by
    simp [state.length_eq, other.length_eq]
  refine ((sets_merge_perm state other).map ItemSet.items).flatten.trans ?_
  rw [map_opposed ItemSet.items_merge]
  exact flatten_opposed_perm hlen

theorem within_merge {d : ℕ} {state other : State k} (hs : Within d state.loads)
    (ho : Within d other.loads) : Within d (state.merge other).loads := by
  have hlen : state.loads.length = other.loads.length := by
    simp [loads, state.length_eq, other.length_eq]
  have hperm := (sets_merge_perm state other).map ItemSet.sum
  rw [map_opposed ItemSet.sum_merge] at hperm
  exact (Differencing.within_opposed hlen state.loads_pairwise other.loads_pairwise hs ho).perm
    hperm.symm

theorem filled_merge {state other : State k} (hs : Filled (state.sets.map ItemSet.items))
    (ho : Filled (other.sets.map ItemSet.items)) :
    Filled ((state.merge other).sets.map ItemSet.items) := by
  have hlen : (state.sets.map ItemSet.items).length = (other.sets.map ItemSet.items).length := by
    simp [state.length_eq, other.length_eq]
  have hperm := (sets_merge_perm state other).map ItemSet.items
  rw [map_opposed ItemSet.items_merge] at hperm
  exact (filled_opposed hlen state.filledFirst other.filledFirst hs ho).perm hperm.symm

/-- All sets of a state have `c` items. -/
def EvenSets (state : State k) : Prop := ∃ c, ∀ s ∈ state.sets, s.items.length = c

theorem evenSets_merge {state other : State k} (hs : state.EvenSets) (ho : other.EvenSets) :
    (state.merge other).EvenSets := by
  obtain ⟨a, ha⟩ := hs
  obtain ⟨b, hb⟩ := ho
  refine ⟨a + b, fun s hsets => ?_⟩
  have hmem := (sets_merge_perm state other).mem_iff.mp hsets
  obtain ⟨i, hi, rfl⟩ := List.mem_iff_getElem.mp hmem
  obtain ⟨hx, hy, heq⟩ := getElem_opposed hi
  rw [heq, ItemSet.items_merge, List.length_append, ha _ (List.getElem_mem hx),
    hb _ (List.getElem_mem hy)]

end State

/-! ## The loop -/

section Loop

variable {k : ℕ} {P : State k → Prop}

theorem exists_final {statesPq : List (State k)} (hne : statesPq ≠ [])
    (hone : statesPq.length ≤ 1) (hP : ∀ state ∈ statesPq, P state) :
    ∃ final, statesPq = [final] ∧ P final ∧
      final.items.Perm (statesPq.map State.items).flatten := by
  obtain ⟨final, rfl⟩ := List.length_eq_one_iff.mp
    (le_antisymm hone (List.length_pos_iff.mpr hne))
  exact ⟨final, rfl, hP final List.mem_cons_self, by simp⟩

/-- One state is left; what merging keeps holds of it, and it has all items. -/
theorem mergeStates_spec (hmerge : ∀ state other, P state → P other → P (state.merge other))
    {statesPq : List (State k)} (hheap : IsHeap State.lt statesPq) (hne : statesPq ≠ [])
    (hP : ∀ state ∈ statesPq, P state) {fuel : ℕ} (hfuel : statesPq.length ≤ fuel + 1) :
    ∃ final, mergeStates fuel statesPq = .ok [final] ∧ P final ∧
      final.items.Perm (statesPq.map State.items).flatten := by
  induction fuel generalizing statesPq with
  | zero =>
      obtain ⟨final, rfl, hfinal⟩ := exists_final hne hfuel hP
      exact ⟨final, rfl, hfinal⟩
  | succ fuel ih =>
      by_cases htwo : 1 < statesPq.length
      · obtain ⟨state0, rest0, hpop0, hheap0, hperm0, -⟩ :=
          heappop_spec State.weakOrder hheap hne
        have hlen0 : statesPq.length = rest0.length + 1 := by
          rw [hperm0.length_eq, List.length_cons]
        have hne0 : rest0 ≠ [] := List.length_pos_iff.mp (by omega)
        obtain ⟨state1, rest1, hpop1, hheap1, hperm1, -⟩ :=
          heappop_spec State.weakOrder hheap0 hne0
        have hlen1 : rest0.length = rest1.length + 1 := by
          rw [hperm1.length_eq, List.length_cons]
        have hall : statesPq.Perm (state0 :: state1 :: rest1) := hperm0.trans (hperm1.cons state0)
        have hP' : ∀ state ∈ state0 :: state1 :: rest1, P state :=
          fun state hs => hP state (hall.mem_iff.mpr hs)
        obtain ⟨hheap', hpush⟩ := heappush_spec State.weakOrder hheap1 (state0.merge state1)
        have hlen := hpush.length_eq
        rw [List.length_cons] at hlen
        have hPush : ∀ state ∈ heappush State.lt rest1 (state0.merge state1), P state := by
          intro state hs
          rcases List.mem_cons.mp (hpush.mem_iff.mp hs) with rfl | hs
          · exact hmerge _ _ (hP' _ List.mem_cons_self)
              (hP' _ (List.mem_cons_of_mem _ List.mem_cons_self))
          · exact hP' _ (List.mem_cons_of_mem _ (List.mem_cons_of_mem _ hs))
        obtain ⟨final, hfinal, hPfinal, hitems⟩ :=
          ih hheap' (List.length_pos_iff.mp (by omega)) hPush (by omega)
        refine ⟨final, ?_, hPfinal, ?_⟩
        · simp only [mergeStates, if_pos htwo, hpop0, ok_bind, hpop1, hfinal]
        · have hmerged : ((heappush State.lt rest1 (state0.merge state1)).map
              State.items).flatten.Perm
              (state0.items ++ state1.items ++ (rest1.map State.items).flatten) := by
            refine (hpush.map State.items).flatten.trans ?_
            rw [List.map_cons, List.flatten_cons]
            exact (State.items_merge_perm state0 state1).append_right _
          have horig := (hall.map State.items).flatten
          rw [List.map_cons, List.map_cons, List.flatten_cons, List.flatten_cons,
            ← List.append_assoc] at horig
          exact hitems.trans (hmerged.trans horig.symm)
      · obtain ⟨final, rfl, hfinal⟩ := exists_final hne (not_lt.mp htwo) hP
        exact ⟨final, by rw [mergeStates, if_neg htwo], hfinal⟩

end Loop

/-! ## The states the heap starts with -/

section Start

variable {k : ℕ}

theorem startSets_eq {items : List (ℕ × ℕ)} (hle : items.length ≤ k) :
    (List.range k).map (fun i => (items[i]?).elim .empty ItemSet.empty.add) =
      items.map ItemSet.empty.add ++ List.replicate (k - items.length) .empty := by
  refine List.ext_getElem (by simp [hle]) (fun i hi _ => ?_)
  rw [List.getElem_map, List.getElem_range]
  by_cases hitem : i < items.length
  · rw [List.getElem_append_left (by simpa using hitem), List.getElem_map,
      List.getElem?_eq_getElem hitem]
    rfl
  · rw [List.getElem_append_right (by simpa using hitem), List.getElem_replicate,
      List.getElem?_eq_none (not_lt.mp hitem)]
    rfl

theorem State.new_spec {items : List (ℕ × ℕ)} (hlen : items.length = 1 ∨ items.length = k)
    (hle : items.length ≤ k) :
    ∃ state : State k, State.new k items = .ok state ∧
      state.sets.Perm
        (items.map ItemSet.empty.add ++ List.replicate (k - items.length) .empty) := by
  refine ⟨_, by rw [State.new, if_pos hlen, if_pos hle], ?_⟩
  rw [← startSets_eq hle]
  exact sortDecreasing_perm _

/-- How far apart two sequences can be: by the longest length where a part may
be empty at the start, else by the longest less the shortest. -/
def gap (seqlenList : List ℕ) (equalSize : Bool) : ℕ :=
  seqlenList.max?.getD 0 - if equalSize then seqlenList.min?.getD 0 else 0

theorem le_gap {seqlenList : List ℕ} {v : ℕ} (hv : v ∈ seqlenList) : v ≤ gap seqlenList false := by
  rw [gap, if_neg Bool.false_ne_true, Nat.sub_zero]
  exact List.le_max?_getD_of_mem hv

theorem le_add_gap {seqlenList : List ℕ} {v w : ℕ} (hv : v ∈ seqlenList) (hw : w ∈ seqlenList) :
    v ≤ w + gap seqlenList true := by
  have hmax : v ≤ seqlenList.max?.getD 0 := List.le_max?_getD_of_mem hv
  have hmin : seqlenList.min?.getD 0 ≤ w := List.min?_getD_le_of_mem hw
  rw [gap, if_pos rfl]
  omega

theorem gap_le {seqlenList : List ℕ} {d : ℕ} (h : ∀ v ∈ seqlenList, ∀ w ∈ seqlenList, v ≤ w + d) :
    gap seqlenList true ≤ d := by
  rw [gap, if_pos rfl]
  rcases eq_or_ne seqlenList [] with rfl | hne
  · exact Nat.zero_le d
  · obtain ⟨v, hv⟩ := Option.isSome_iff_exists.mp (List.isSome_max?_iff.mpr hne)
    obtain ⟨w, hw⟩ := Option.isSome_iff_exists.mp (List.isSome_min?_iff.mpr hne)
    have hle := h v (List.max?_mem hv) w (List.min?_mem hw)
    rw [hv, hw, Option.getD_some, Option.getD_some]
    omega

/-- How far apart the states on the heap can have two parts at the start: a state has one item,
or in the equal-size mode a block of `k` neighbours in the sorted list. -/
def spread (seqlenList : List ℕ) (k : ℕ) (equalSize : Bool) : ℕ :=
  if equalSize then
    ((Blocks.pieces k ((sortedSeqlenList seqlenList).map Prod.fst)).map (gap · true)).max?.getD 0
  else gap seqlenList false

theorem mem_of_mem_sorted {seqlenList : List ℕ} {v : ℕ}
    (hv : v ∈ (sortedSeqlenList seqlenList).map Prod.fst) : v ∈ seqlenList := by
  have hperm : (sortedSeqlenList seqlenList).Perm seqlenList.zipIdx := List.perm_insertionSort _ _
  obtain ⟨entry, hentry, rfl⟩ := List.mem_map.mp hv
  exact List.mem_of_getElem? (List.mem_zipIdx_iff_getElem?.mp (hperm.mem_iff.mp hentry))

/-- A block is no wider than the whole list. -/
theorem spread_le_gap (hk : 0 < k) (seqlenList : List ℕ) (equalSize : Bool) :
    spread seqlenList k equalSize ≤ gap seqlenList equalSize := by
  cases equalSize with
  | false => exact le_rfl
  | true =>
      rw [spread, if_pos rfl]
      cases hmax : ((Blocks.pieces k ((sortedSeqlenList seqlenList).map Prod.fst)).map
          (gap · true)).max? with
      | none => exact Nat.zero_le _
      | some widest =>
          obtain ⟨block, hblock, rfl⟩ := List.mem_map.mp (List.max?_mem hmax)
          have hmem : ∀ v ∈ block, v ∈ seqlenList := by
            intro v hv
            refine mem_of_mem_sorted ?_
            rw [← Blocks.flatten_pieces hk ((sortedSeqlenList seqlenList).map Prod.fst)]
            exact List.mem_flatten_of_mem hblock hv
          exact gap_le (fun v hv w hw => le_add_gap (hmem v hv) (hmem w hw))

/-- What every state on the heap keeps. -/
structure Balanced (d : ℕ) (equalSize : Bool) (state : State k) : Prop where
  within : Within d state.loads
  filled : Filled (state.sets.map ItemSet.items)
  even : equalSize = true → state.EvenSets

theorem Balanced.merge {d : ℕ} {equalSize : Bool} {state other : State k}
    (hs : Balanced d equalSize state) (ho : Balanced d equalSize other) :
    Balanced d equalSize (state.merge other) where
  within := State.within_merge hs.within ho.within
  filled := State.filled_merge hs.filled ho.filled
  even := fun heq => State.evenSets_merge (hs.even heq) (ho.even heq)

/-- A state with one item in a set at most is a good start. -/
theorem State.new_balanced {d : ℕ} {equalSize : Bool} {items : List (ℕ × ℕ)}
    (hk : 0 < k) (hlen : items.length = if equalSize then k else 1)
    (hvals : ∀ item ∈ items, if equalSize then ∀ item' ∈ items, item.2 ≤ item'.2 + d
      else item.2 ≤ d) :
    ∃ state : State k, State.new k items = .ok state ∧ Balanced d equalSize state ∧
      state.items.Perm items := by
  have hle : items.length ≤ k := by
    rw [hlen]
    split
    · exact le_rfl
    · exact hk
  have hor : items.length = 1 ∨ items.length = k := by
    rw [hlen]
    split
    · exact Or.inr rfl
    · exact Or.inl rfl
  obtain ⟨state, hnew, hsets⟩ := State.new_spec hor hle
  have hitems : (state.sets.map ItemSet.items).Perm
      (items.map (fun item => [item]) ++ List.replicate (k - items.length) []) := by
    refine (hsets.map ItemSet.items).trans (List.Perm.of_eq ?_)
    simp [ItemSet.add, ItemSet.empty, Function.comp_def]
  have hloads : state.loads.Perm
      (items.map Prod.snd ++ List.replicate (k - items.length) 0) := by
    refine (hsets.map ItemSet.sum).trans (List.Perm.of_eq ?_)
    simp [ItemSet.add, ItemSet.empty, Function.comp_def]
  refine ⟨state, hnew, ⟨?_, ?_, ?_⟩, ?_⟩
  · cases equalSize with
    | true =>
        rw [hlen, if_pos rfl, Nat.sub_self, List.replicate_zero, List.append_nil] at hloads
        intro x hx y hy
        obtain ⟨item, hitem, rfl⟩ := List.mem_map.mp (hloads.mem_iff.mp hx)
        obtain ⟨item', hitem', rfl⟩ := List.mem_map.mp (hloads.mem_iff.mp hy)
        exact hvals item hitem item' hitem'
    | false =>
        intro x hx y _
        refine le_trans ?_ (Nat.le_add_left _ y)
        rcases List.mem_append.mp (hloads.mem_iff.mp hx) with hx | hx
        · obtain ⟨item, hitem, rfl⟩ := List.mem_map.mp hx
          exact hvals item hitem
        · rw [List.eq_of_mem_replicate hx]
          exact Nat.zero_le _
  · refine Or.inr (fun p hp => ?_)
    rcases List.mem_append.mp (hitems.mem_iff.mp hp) with hp | hp
    · obtain ⟨item, _, rfl⟩ := List.mem_map.mp hp
      exact le_rfl
    · rw [List.eq_of_mem_replicate hp]
      exact Nat.zero_le _
  · rintro rfl
    refine ⟨1, fun s hs => ?_⟩
    rw [hlen, if_pos rfl, Nat.sub_self, List.replicate_zero, List.append_nil] at hsets
    obtain ⟨item, _, rfl⟩ := List.mem_map.mp (hsets.mem_iff.mp hs)
    rfl
  · refine hitems.flatten.trans (List.Perm.of_eq ?_)
    rw [List.flatten_append, List.flatten_replicate_nil, List.append_nil]
    rw [← List.flatMap_def]
    exact List.flatMap_singleton' items

end Start

/-! ## The differencing method -/

section Method

variable {k : ℕ} {seqlenList : List ℕ} {equalSize : Bool}

/-- Every sequence is in one of the groups the states are made of, and no group is wider than
the spread. -/
theorem initialItems_spec (hk : 0 < k) (hdvd : equalSize = true → k ∣ seqlenList.length) :
    ∃ groups, initialItems seqlenList k equalSize = .ok groups ∧
      groups.flatten.Perm (seqlenList.zipIdx.map Prod.swap) ∧
      ∀ items ∈ groups, (items.length = if equalSize then k else 1) ∧
        ∀ item ∈ items, if equalSize then
          ∀ item' ∈ items, item.2 ≤ item'.2 + spread seqlenList k equalSize
        else item.2 ≤ spread seqlenList k equalSize := by
  have hsorted : (sortedSeqlenList seqlenList).Perm seqlenList.zipIdx :=
    List.perm_insertionSort _ _
  cases equalSize with
  | true =>
      have hlen : ((sortedSeqlenList seqlenList).map Prod.swap).length = seqlenList.length := by
        rw [List.length_map, hsorted.length_eq, List.length_zipIdx]
      refine ⟨Blocks.pieces k ((sortedSeqlenList seqlenList).map Prod.swap), ?_, ?_, ?_⟩
      · rw [initialItems, if_pos rfl, if_neg hk.ne',
          if_pos (Nat.mod_eq_zero_of_dvd (hdvd rfl))]
      · rw [Blocks.flatten_pieces hk]
        exact hsorted.map Prod.swap
      · intro items hitems
        refine ⟨Blocks.length_of_mem_pieces (by rw [hlen]; exact hdvd rfl) hitems, ?_⟩
        rw [Blocks.pieces_map] at hitems
        obtain ⟨block, hblock, rfl⟩ := List.mem_map.mp hitems
        have hwide : gap (block.map Prod.fst) true ≤ spread seqlenList k true := by
          rw [spread, if_pos rfl, Blocks.pieces_map]
          exact List.le_max?_getD_of_mem
            (List.mem_map.mpr ⟨_, List.mem_map.mpr ⟨block, hblock, rfl⟩, rfl⟩)
        intro item hitem
        rw [if_pos rfl]
        intro item' hitem'
        obtain ⟨entry, hentry, rfl⟩ := List.mem_map.mp hitem
        obtain ⟨entry', hentry', rfl⟩ := List.mem_map.mp hitem'
        exact (le_add_gap (List.mem_map.mpr ⟨entry, hentry, rfl⟩)
          (List.mem_map.mpr ⟨entry', hentry', rfl⟩)).trans (Nat.add_le_add_left hwide _)
  | false =>
      refine ⟨((sortedSeqlenList seqlenList).map Prod.swap).map (fun item => [item]), rfl, ?_, ?_⟩
      · rw [← List.flatMap_def, List.flatMap_singleton']
        exact hsorted.map Prod.swap
      · intro items hitems
        obtain ⟨item, hitem, rfl⟩ := List.mem_map.mp hitems
        refine ⟨rfl, fun item' hitem' => ?_⟩
        rw [List.mem_singleton.mp hitem', if_neg Bool.false_ne_true, spread,
          if_neg Bool.false_ne_true]
        obtain ⟨entry, hentry, rfl⟩ := List.mem_map.mp hitem
        exact le_gap (mem_of_mem_sorted (List.mem_map.mpr ⟨entry, hentry, rfl⟩))

/-- The heap the loop starts with. -/
theorem pushStates_spec {P : State k → Prop} {groups : List (List (ℕ × ℕ))}
    (hnew : ∀ items ∈ groups,
      ∃ state, State.new k items = .ok state ∧ P state ∧ state.items.Perm items)
    {statesPq : List (State k)} (hheap : IsHeap State.lt statesPq)
    (hP : ∀ state ∈ statesPq, P state) :
    ∃ statesPq', groups.foldlM (fun statesPq items => do
        let state ← State.new k items
        pure (heappush State.lt statesPq state)) statesPq = .ok statesPq' ∧
      IsHeap State.lt statesPq' ∧ (∀ state ∈ statesPq', P state) ∧
      statesPq'.length = statesPq.length + groups.length ∧
      (statesPq'.map State.items).flatten.Perm
        ((statesPq.map State.items).flatten ++ groups.flatten) := by
  induction groups generalizing statesPq with
  | nil => exact ⟨statesPq, rfl, hheap, hP, rfl, by simp⟩
  | cons items groups ih =>
      obtain ⟨state, hstate, hPstate, hitems⟩ := hnew items List.mem_cons_self
      obtain ⟨hheap', hpush⟩ := heappush_spec State.weakOrder hheap state
      have hP' : ∀ s ∈ heappush State.lt statesPq state, P s := by
        intro s hs
        rcases List.mem_cons.mp (hpush.mem_iff.mp hs) with rfl | hs
        · exact hPstate
        · exact hP s hs
      obtain ⟨final, hfold, hheapf, hPf, hlen, hperm⟩ :=
        ih (fun items hi => hnew items (List.mem_cons_of_mem _ hi)) hheap' hP'
      refine ⟨final, ?_, hheapf, hPf, ?_, ?_⟩
      · rw [List.foldlM_cons, hstate, ok_bind, pure_eq_ok, ok_bind, hfold]
      · rw [hlen, hpush.length_eq, List.length_cons, List.length_cons]
        omega
      · have hpushed := (hpush.map State.items).flatten
        rw [List.map_cons, List.flatten_cons] at hpushed
        refine hperm.trans ?_
        rw [List.flatten_cons, ← List.append_assoc]
        refine List.Perm.append_right _ (hpushed.trans ?_)
        exact (hitems.append_right _).trans List.perm_append_comm

/-- The sum of the lengths of a part. -/
def load (seqlenList : List ℕ) (partition : List ℕ) : ℕ :=
  (partition.map (fun idx => seqlenList.getD idx 0)).sum

theorem load_append (seqlenList p q : List ℕ) :
    load seqlenList (p ++ q) = load seqlenList p + load seqlenList q := by
  rw [load, List.map_append, List.sum_append, ← load, ← load]

theorem load_cons (seqlenList : List ℕ) (idx : ℕ) (p : List ℕ) :
    load seqlenList (idx :: p) = seqlenList.getD idx 0 + load seqlenList p := by
  rw [load, List.map_cons, List.sum_cons, ← load]

/-- The state that is left, and what the method makes of it. -/
theorem karmarkarKarp_final (hk : 0 < k) (hne : seqlenList ≠ [])
    (hdvd : equalSize = true → k ∣ seqlenList.length) :
    ∃ final : State k, Balanced (spread seqlenList k equalSize) equalSize final ∧
      final.items.Perm (seqlenList.zipIdx.map Prod.swap) ∧
      karmarkarKarp seqlenList k equalSize =
        if equalSize && !final.getPartitions.all (fun p => p.length * k == seqlenList.length)
        then .error .assertionError else .ok final.getPartitions := by
  obtain ⟨groups, hgroups, hflat, hlen⟩ := initialItems_spec hk hdvd
  have hnew : ∀ items ∈ groups, ∃ state : State k, State.new k items = .ok state ∧
      Balanced (spread seqlenList k equalSize) equalSize state ∧ state.items.Perm items :=
    fun items hitems => State.new_balanced hk (hlen items hitems).1 (hlen items hitems).2
  obtain ⟨statesPq, hfold, hheap, hP, hcount, hitems⟩ :=
    pushStates_spec hnew isHeap_nil (fun _ h => absurd h List.not_mem_nil)
  have hgroupsne : groups ≠ [] := by
    rintro rfl
    have := hflat.length_eq
    rw [List.flatten_nil, List.length_nil, List.length_map, List.length_zipIdx] at this
    exact hne (List.length_eq_zero_iff.mp this.symm)
  have hpqne : statesPq ≠ [] := by
    refine List.length_pos_iff.mp ?_
    have := List.length_pos_iff.mpr hgroupsne
    omega
  obtain ⟨final, hmerge, hbalanced, hfinal⟩ :=
    mergeStates_spec (fun _ _ hs ho => hs.merge ho) hheap hpqne hP
      (Nat.le_succ statesPq.length)
  refine ⟨final, hbalanced, (hfinal.trans hitems).trans (by simpa using hflat), ?_⟩
  rw [karmarkarKarp, hgroups, ok_bind, hfold, ok_bind, hmerge, ok_bind]
  rfl

theorem load_eq_sum {state : State k}
    (hitems : state.items.Perm (seqlenList.zipIdx.map Prod.swap)) {s : ItemSet}
    (hs : s ∈ state.sets) : load seqlenList (s.items.map Prod.fst) = s.sum := by
  rw [load, s.sum_eq, List.map_map]
  congr 1
  refine List.map_congr_left (fun item hitem => ?_)
  have hmem : item ∈ state.items :=
    List.mem_flatten_of_mem (List.mem_map.mpr ⟨s, hs, rfl⟩) hitem
  obtain ⟨⟨v, i⟩, hv, rfl⟩ := List.mem_map.mp (hitems.mem_iff.mp hmem)
  have hget : seqlenList[i]? = some v := List.mem_zipIdx_iff_getElem?.mp hv
  simp [hget]

theorem map_load_getPartitions {state : State k}
    (hitems : state.items.Perm (seqlenList.zipIdx.map Prod.swap)) :
    state.getPartitions.map (load seqlenList) = state.loads := by
  rw [State.getPartitions, State.loads, List.map_map]
  exact List.map_congr_left (fun s hs => load_eq_sum hitems hs)

/-- The parts hold every index once. -/
theorem flatten_getPartitions {state : State k}
    (hitems : state.items.Perm (seqlenList.zipIdx.map Prod.swap)) :
    state.getPartitions.flatten.Perm (List.range seqlenList.length) := by
  have hfst := hitems.map Prod.fst
  have hflat : state.items.map Prod.fst = state.getPartitions.flatten := by
    rw [State.items, State.getPartitions, List.map_flatten, List.map_map]
    rfl
  have hrange : (seqlenList.zipIdx.map Prod.swap).map Prod.fst =
      List.range seqlenList.length := by
    rw [List.map_map]
    exact (List.zipIdx_map_snd 0 seqlenList).trans (List.range_eq_range' (n := _)).symm
  rwa [hflat, hrange] at hfst

theorem length_mul_of_even {state : State k} (heven : state.EvenSets)
    (hitems : state.items.Perm (seqlenList.zipIdx.map Prod.swap)) {p : List ℕ}
    (hp : p ∈ state.getPartitions) : p.length * k = seqlenList.length := by
  obtain ⟨c, hc⟩ := heven
  have hall : ∀ q ∈ state.getPartitions, q.length = c := by
    intro q hq
    obtain ⟨s, hs, rfl⟩ := List.mem_map.mp hq
    rw [List.length_map, hc s hs]
  have hlen := (flatten_getPartitions hitems).length_eq
  rw [List.length_flatten, List.length_range, List.map_congr_left hall, List.map_const',
    List.sum_replicate_nat, State.getPartitions, List.length_map, state.length_eq] at hlen
  rw [hall p hp, Nat.mul_comm, hlen]

end Method

/-! ## The function that is called -/

/-- The indices below `n` in `k` parts: each index in one part, once, no part
empty, each part ascending. -/
structure IsPartition (n k : ℕ) (parts : List (List ℕ)) : Prop where
  length_eq : parts.length = k
  flatten_perm : parts.flatten.Perm (List.range n)
  ne_nil : ∀ p ∈ parts, p ≠ []
  ascending : ∀ p ∈ parts, p.Pairwise (· < ·)

section Called

variable {k n : ℕ} {seqlenList : List ℕ} {equalSize : Bool}

theorem isPartition_sorted {parts : List (List ℕ)} (hlen : parts.length = k)
    (hflat : parts.flatten.Perm (List.range n)) (hne : ∀ p ∈ parts, p ≠ []) :
    IsPartition n k (parts.map (List.insertionSort (· ≤ ·))) where
  length_eq := by rw [List.length_map, hlen]
  flatten_perm := by
    refine List.Perm.trans ?_ hflat
    rw [← List.flatMap_def]
    exact (List.Perm.flatMap_left parts (fun p _ => List.perm_insertionSort _ p)).trans
      (List.Perm.of_eq (by rw [List.flatMap_def, List.map_id']))
  ne_nil := by
    intro q hq
    obtain ⟨p, hp, rfl⟩ := List.mem_map.mp hq
    rw [← List.length_pos_iff, List.length_insertionSort]
    exact List.length_pos_iff.mpr (hne p hp)
  ascending := by
    intro q hq
    obtain ⟨p, hp, rfl⟩ := List.mem_map.mp hq
    have hnodup : p.Nodup :=
      (List.nodup_flatten.mp (hflat.nodup_iff.mpr List.nodup_range)).1 p hp
    have hsorted := List.pairwise_insertionSort (· ≤ · : ℕ → ℕ → Prop) p
    have hdistinct := (List.perm_insertionSort (· ≤ · : ℕ → ℕ → Prop) p).nodup_iff.mpr hnodup
    exact hsorted.imp₂ (fun _ _ hle hne => lt_of_le_of_ne hle hne) hdistinct

theorem checkAndSortPartitions_ok {parts : List (List ℕ)} (hlen : parts.length = k)
    (hflat : parts.flatten.Perm (List.range n)) (hne : ∀ p ∈ parts, p ≠ []) :
    checkAndSortPartitions n k parts = .ok (parts.map (List.insertionSort (· ≤ ·))) := by
  have hsort : parts.mapM (fun partition =>
      if partition = [] then (.error .assertionError : Except Error (List ℕ))
      else .ok (partition.insertionSort (· ≤ ·))) =
      .ok (parts.map (List.insertionSort (· ≤ ·))) :=
    mapM_eq_map (fun p hp => by rw [if_neg (hne p hp)])
  have hseen : parts.flatten.toFinset = Finset.range n := by
    rw [List.toFinset_eq_of_perm _ _ hflat]
    ext i
    simp
  rw [checkAndSortPartitions, if_neg (not_not.mpr hlen), hsort, ok_bind, if_pos hseen]

theorem load_insertionSort (seqlenList p : List ℕ) :
    load seqlenList (p.insertionSort (· ≤ ·)) = load seqlenList p :=
  ((List.perm_insertionSort _ p).map _).sum_eq

/-- What the call gives: the parts of the final state, each sorted. -/
theorem getSeqlenBalancedPartitions_final (hk : 0 < k) (hle : k ≤ seqlenList.length)
    (hdvd : equalSize = true → k ∣ seqlenList.length) :
    ∃ final : State k, Balanced (spread seqlenList k equalSize) equalSize final ∧
      final.items.Perm (seqlenList.zipIdx.map Prod.swap) ∧
      (∀ p ∈ final.getPartitions, p ≠ []) ∧
      getSeqlenBalancedPartitions seqlenList k equalSize =
        .ok (final.getPartitions.map (List.insertionSort (· ≤ ·))) := by
  have hne : seqlenList ≠ [] := List.length_pos_iff.mp (hk.trans_le hle)
  obtain ⟨final, hbalanced, hitems, hmethod⟩ := karmarkarKarp_final hk hne hdvd
  have hlen : final.getPartitions.length = k := by
    rw [State.getPartitions, List.length_map, final.length_eq]
  have hflat := flatten_getPartitions hitems
  have hnonempty : ∀ p ∈ final.getPartitions, p ≠ [] := by
    intro p hp
    obtain ⟨s, hs, rfl⟩ := List.mem_map.mp hp
    have hcount : (final.sets.map ItemSet.items).length ≤
        (final.sets.map ItemSet.items).flatten.length := by
      have hlen' := hitems.length_eq
      rw [List.length_map, List.length_zipIdx] at hlen'
      rw [List.length_map, final.length_eq]
      exact hle.trans hlen'.ge
    have := hbalanced.filled.forall_ne_nil hcount s.items (List.mem_map.mpr ⟨s, hs, rfl⟩)
    exact fun hnil => this (List.map_eq_nil_iff.mp hnil)
  refine ⟨final, hbalanced, hitems, hnonempty, ?_⟩
  have hassert : (equalSize &&
      !final.getPartitions.all (fun p => p.length * k == seqlenList.length)) = false := by
    cases equalSize with
    | false => rfl
    | true =>
        have hall : final.getPartitions.all (fun p => p.length * k == seqlenList.length) = true :=
          List.all_eq_true.mpr (fun p hp =>
            beq_iff_eq.mpr (length_mul_of_even (hbalanced.even rfl) hitems hp))
        rw [hall]
        rfl
  rw [getSeqlenBalancedPartitions, if_pos hle, hmethod, hassert, if_neg Bool.false_ne_true,
    ok_bind, checkAndSortPartitions_ok hlen hflat hnonempty]

theorem exists_of_conditions (seqlenList : List ℕ) (equalSize : Bool) (hk : 0 < k)
    (hle : k ≤ seqlenList.length) (hdvd : equalSize = true → k ∣ seqlenList.length) :
    ∃ parts, getSeqlenBalancedPartitions seqlenList k equalSize = .ok parts := by
  obtain ⟨final, _, _, _, hcall⟩ := getSeqlenBalancedPartitions_final hk hle hdvd
  exact ⟨_, hcall⟩

/-- The loop pushes a state for every item, so a state that cannot be built
ends the call. -/
theorem karmarkarKarp_zero (seqlenList : List ℕ) (equalSize : Bool) :
    ∃ e, karmarkarKarp seqlenList 0 equalSize = .error e := by
  cases equalSize with
  | true => exact ⟨_, rfl⟩
  | false =>
      rw [karmarkarKarp, initialItems, if_neg Bool.false_ne_true, ok_bind]
      cases (sortedSeqlenList seqlenList).map Prod.swap with
      | nil => exact ⟨_, rfl⟩
      | cons item items => exact ⟨_, rfl⟩

/-- Where the call returns, there is at least one part, an item for every part
and, in the equal-size mode, a multiple of the number of parts. -/
theorem conditions_of_ok {parts : List (List ℕ)}
    (h : getSeqlenBalancedPartitions seqlenList k equalSize = .ok parts) :
    0 < k ∧ k ≤ seqlenList.length ∧ (equalSize = true → k ∣ seqlenList.length) := by
  rw [getSeqlenBalancedPartitions] at h
  split at h
  case isFalse => cases h
  case isTrue hle =>
    obtain ⟨_, hmethod, _⟩ := bind_eq_ok.mp h
    have hk : 0 < k := by
      refine Nat.pos_of_ne_zero (fun hzero => ?_)
      subst hzero
      obtain ⟨e, he⟩ := karmarkarKarp_zero seqlenList equalSize
      rw [he] at hmethod
      cases hmethod
    refine ⟨hk, hle, ?_⟩
    rintro rfl
    obtain ⟨_, hgroups, _⟩ := bind_eq_ok.mp hmethod
    rw [initialItems, if_pos rfl, if_neg hk.ne'] at hgroups
    split at hgroups
    case isTrue hmod => exact Nat.dvd_of_mod_eq_zero hmod
    case isFalse => cases hgroups

theorem isPartition_of_ok {parts : List (List ℕ)}
    (h : getSeqlenBalancedPartitions seqlenList k equalSize = .ok parts) :
    IsPartition seqlenList.length k parts := by
  obtain ⟨hk, hle, hdvd⟩ := conditions_of_ok h
  obtain ⟨final, _, hitems, hne, hcall⟩ := getSeqlenBalancedPartitions_final hk hle hdvd
  rw [hcall] at h
  cases h
  refine isPartition_sorted ?_ (flatten_getPartitions hitems) hne
  rw [State.getPartitions, List.length_map, final.length_eq]

theorem length_mul_of_ok {parts : List (List ℕ)}
    (h : getSeqlenBalancedPartitions seqlenList k true = .ok parts) {p : List ℕ}
    (hp : p ∈ parts) : p.length * k = seqlenList.length := by
  obtain ⟨hk, hle, hdvd⟩ := conditions_of_ok h
  obtain ⟨final, hbalanced, hitems, _, hcall⟩ := getSeqlenBalancedPartitions_final hk hle hdvd
  rw [hcall] at h
  cases h
  obtain ⟨q, hq, rfl⟩ := List.mem_map.mp hp
  rw [List.length_insertionSort]
  exact length_mul_of_even (hbalanced.even rfl) hitems hq

/-- The loads of the parts are as close to one another as two items of one state. -/
theorem within_spread_of_ok {parts : List (List ℕ)}
    (h : getSeqlenBalancedPartitions seqlenList k equalSize = .ok parts) :
    Within (spread seqlenList k equalSize) (parts.map (load seqlenList)) := by
  obtain ⟨hk, hle, hdvd⟩ := conditions_of_ok h
  obtain ⟨final, hbalanced, hitems, _, hcall⟩ := getSeqlenBalancedPartitions_final hk hle hdvd
  rw [hcall] at h
  cases h
  have hloads : (final.getPartitions.map (List.insertionSort (· ≤ ·))).map (load seqlenList) =
      final.loads := by
    rw [← map_load_getPartitions hitems, List.map_map]
    exact List.map_congr_left (fun p _ => load_insertionSort seqlenList p)
  rw [hloads]
  exact hbalanced.within

theorem within_of_ok {parts : List (List ℕ)}
    (h : getSeqlenBalancedPartitions seqlenList k equalSize = .ok parts) :
    Within (gap seqlenList equalSize) (parts.map (load seqlenList)) :=
  (within_spread_of_ok h).mono (spread_le_gap (conditions_of_ok h).1 seqlenList equalSize)

theorem map_getD_range (seqlenList : List ℕ) :
    (List.range seqlenList.length).map (fun idx => seqlenList.getD idx 0) = seqlenList := by
  refine List.ext_getElem (by simp) (fun i hi hi' => ?_)
  simp [hi']

theorem IsPartition.sum_load {parts : List (List ℕ)}
    (h : IsPartition seqlenList.length k parts) :
    (parts.map (load seqlenList)).sum = seqlenList.sum := by
  have hall := (h.flatten_perm.map (fun idx => seqlenList.getD idx 0)).sum_eq
  rw [map_getD_range, List.map_flatten, List.sum_flatten, List.map_map] at hall
  exact hall

/-- The call returns exactly when there is at least one part, an item for every
part and, in the equal-size mode, a multiple of the number of parts: none of the
assertions after the method ever fails.  What it returns is a partition, in the
equal-size mode with parts of one size. -/
theorem getSeqlenBalancedPartitions_returns (seqlenList : List ℕ) (k : ℕ) (equalSize : Bool) :
    ((∃ parts, getSeqlenBalancedPartitions seqlenList k equalSize = .ok parts) ↔
      0 < k ∧ k ≤ seqlenList.length ∧ (equalSize = true → k ∣ seqlenList.length)) ∧
    ∀ parts, getSeqlenBalancedPartitions seqlenList k equalSize = .ok parts →
      IsPartition seqlenList.length k parts ∧
      (equalSize = true → ∀ p ∈ parts, p.length * k = seqlenList.length) := by
  refine ⟨⟨fun ⟨_, h⟩ => conditions_of_ok h, ?_⟩, fun parts h => ⟨isPartition_of_ok h, ?_⟩⟩
  · rintro ⟨hk, hle, hdvd⟩
    exact exists_of_conditions seqlenList equalSize hk hle hdvd
  · rintro rfl p hp
    exact length_mul_of_ok h hp

/-- No two parts differ by more than the longest sequence, or in the equal-size mode than two
neighbours of one block of the sorted list can, and none exceeds the average by that much. -/
theorem getSeqlenBalancedPartitions_balanced (seqlenList : List ℕ) (k : ℕ) (equalSize : Bool) :
    ∀ parts, getSeqlenBalancedPartitions seqlenList k equalSize = .ok parts →
      (∀ p ∈ parts, ∀ q ∈ parts,
        load seqlenList p ≤ load seqlenList q + spread seqlenList k equalSize) ∧
      ∀ p ∈ parts,
        k * load seqlenList p ≤ seqlenList.sum + (k - 1) * spread seqlenList k equalSize := by
  intro parts h
  have hwithin := within_spread_of_ok h
  have hpart := isPartition_of_ok h
  refine ⟨fun p hp q hq => hwithin _ (List.mem_map.mpr ⟨p, hp, rfl⟩) _
    (List.mem_map.mpr ⟨q, hq, rfl⟩), fun p hp => ?_⟩
  have hmean := hwithin.length_nsmul_le (List.mem_map.mpr ⟨p, hp, rfl⟩)
  rw [hpart.sum_load, List.length_map, hpart.length_eq] at hmean
  exact hmean

/-- With five lengths and two parts the method is off by two of the best split; with blocks of
equal lengths it finds parts of equal size and load. -/
theorem getSeqlenBalancedPartitions_balanced_two :
    (getSeqlenBalancedPartitions [8, 7, 6, 5, 4] 2 false = .ok [[1, 3, 4], [0, 2]] ∧
      ∀ p ∈ [[1, 3, 4], [0, 2]], 2 * load [8, 7, 6, 5, 4] p ≤
        [8, 7, 6, 5, 4].sum + 1 * spread [8, 7, 6, 5, 4] 2 false) ∧
    getSeqlenBalancedPartitions [1, 100, 1, 100] 2 true = .ok [[0, 3], [1, 2]] ∧
      ∀ p ∈ [[0, 3], [1, 2]], ∀ q ∈ [[0, 3], [1, 2]],
        load [1, 100, 1, 100] p ≤ load [1, 100, 1, 100] q + spread [1, 100, 1, 100] 2 true := by
  have hfive : getSeqlenBalancedPartitions [8, 7, 6, 5, 4] 2 false = .ok [[1, 3, 4], [0, 2]] := by
    decide +kernel
  have hfour : getSeqlenBalancedPartitions [1, 100, 1, 100] 2 true = .ok [[0, 3], [1, 2]] := by
    decide +kernel
  exact ⟨⟨hfive, (getSeqlenBalancedPartitions_balanced _ 2 false _ hfive).2⟩, hfour,
    (getSeqlenBalancedPartitions_balanced _ 2 true _ hfour).1⟩

end Called

end RLCM.Balancing
