/-
# `RLCM.Balancing.Greedy` — what the greedy method returns

Every item goes to a part whose sum is smallest, so the sums stay as close as
the largest item (`GreedyState.step`).  In the equal-size mode every length is
raised by a bias that is more than all lengths together; a part with fewer items
then always has the smaller sum, so that the numbers of items stay within one of
each other, and the assertion at the end depends on the number of items alone.
-/
import RLCM.Balancing.PartitionLaws
import RLCM.Lib.FirstMin

namespace RLCM.Balancing

open Py Differencing FirstMin

/-! ## The part with the smallest sum -/

section MinIdx

variable {partitionSums : List ℕ}

theorem minIdx_spec (partitionSums : List ℕ) (k : ℕ) :
    ∃ m, minIdx partitionSums (k + 1) = some m ∧
      IsFirstMin (fun j => partitionSums.getD j 0) (k + 1) m := by
  induction k with
  | zero => exact ⟨0, rfl, isFirstMin_one _⟩
  | succ k ih =>
      obtain ⟨m, hm, hfirst⟩ := ih
      have hstep : minIdx partitionSums (k + 1 + 1) =
          if partitionSums.getD (k + 1) 0 < partitionSums.getD m 0 then some (k + 1)
          else some m := by
        rw [minIdx, List.range_succ, List.foldl_append, ← minIdx, hm]
        rfl
      rw [hstep]
      split
      case isTrue hlt => exact ⟨k + 1, rfl, hfirst.replace hlt⟩
      case isFalse hle => exact ⟨m, rfl, hfirst.keep hle⟩

theorem minIdx_least (hpos : 0 < partitionSums.length) :
    ∃ (m : ℕ) (hm : m < partitionSums.length),
      minIdx partitionSums partitionSums.length = some m ∧
      ∀ y ∈ partitionSums, partitionSums[m] ≤ y := by
  obtain ⟨k, hk⟩ := Nat.exists_eq_succ_of_ne_zero hpos.ne'
  obtain ⟨m, hm, hfirst⟩ := minIdx_spec partitionSums k
  rw [← Nat.succ_eq_add_one, ← hk] at hm hfirst
  refine ⟨m, hfirst.lt, hm, fun y hy => ?_⟩
  obtain ⟨i, hi, rfl⟩ := List.mem_iff_getElem.mp hy
  have hle := hfirst.le i hi
  simpa [hfirst.lt, hi] using hle

end MinIdx

/-! ## One item after the other -/

section Loop

variable {k : ℕ} {lens : List ℕ}

theorem map_modify {α β : Type*} {f : α → α} {g : α → β} (f' : β → β)
    (hcomm : ∀ a, g (f a) = f' (g a)) (xs : List α) (m : ℕ) :
    (xs.modify m f).map g = (xs.map g).modify m f' := by
  refine List.ext_getElem (by simp) (fun i hi _ => ?_)
  rw [List.getElem_map, List.getElem_modify, List.getElem_modify, List.getElem_map]
  split
  case isTrue => exact hcomm _
  case isFalse => rfl

/-- The parts and sums after the items with the indices `done`. -/
structure GreedyState (lens : List ℕ) (k d : ℕ) (done : List ℕ)
    (st : List (List ℕ) × List ℕ) : Prop where
  length_eq : st.1.length = k
  sums_eq : st.2 = st.1.map (load lens)
  flatten_perm : st.1.flatten.Perm done
  within : Within d st.2

theorem greedyState_start (lens : List ℕ) (k d : ℕ) :
    GreedyState lens k d [] (List.replicate k [], List.replicate k 0) where
  length_eq := List.length_replicate
  sums_eq := by rw [List.map_replicate]; rfl
  flatten_perm := by rw [List.flatten_replicate_nil]
  within := by
    intro x hx y _
    rw [List.eq_of_mem_replicate hx]
    exact Nat.zero_le _

/-- An item goes to a part with the smallest sum. -/
theorem GreedyState.step {d : ℕ} {done : List ℕ} {st : List (List ℕ) × List ℕ}
    (h : GreedyState lens k d done st) (hk : 0 < k) {v i : ℕ} (hv : lens[i]? = some v)
    (hvd : v ≤ d) :
    ∃ (m : ℕ) (hm : m < st.1.length), greedyStep k st (v, i) =
        .ok (st.1.modify m (· ++ [i]), st.2.modify m (· + v)) ∧
      (∀ p ∈ st.1, load lens st.1[m] ≤ load lens p) ∧
      GreedyState lens k d (done ++ [i]) (st.1.modify m (· ++ [i]), st.2.modify m (· + v)) := by
  have hlen : st.2.length = k := by rw [h.sums_eq, List.length_map, h.length_eq]
  obtain ⟨m, hm, hmin, hleast⟩ := minIdx_least (by rw [hlen]; exact hk)
  rw [hlen] at hmin
  have hm' : m < st.1.length := by rwa [h.length_eq, ← hlen]
  refine ⟨m, hm', by rw [greedyStep, hmin], ?_, ?_, ?_, ?_, ?_⟩
  · intro p hp
    have hle := hleast (load lens p) (by rw [h.sums_eq]; exact List.mem_map.mpr ⟨p, hp, rfl⟩)
    simpa [h.sums_eq] using hle
  · rw [List.length_modify, h.length_eq]
  · have hcomm : ∀ p, load lens (p ++ [i]) = load lens p + v := by
      intro p
      simp [load, hv]
    rw [map_modify (· + v) hcomm, h.sums_eq]
  · obtain ⟨pre, p, post, heq, _, hmod⟩ := List.exists_of_modify (· ++ [i]) hm'
    have hperm := h.flatten_perm
    rw [heq, List.flatten_append, List.flatten_cons] at hperm
    rw [show (st.1.modify m (· ++ [i])) = pre ++ (p ++ [i]) :: post from hmod,
      List.flatten_append, List.flatten_cons]
    have hmove : (pre.flatten ++ (p ++ [i] ++ post.flatten)).Perm
        (pre.flatten ++ (p ++ post.flatten) ++ [i]) := by
      rw [List.append_assoc p, List.append_assoc pre.flatten, List.append_assoc p]
      exact ((List.perm_append_comm.append_left p).append_left _)
    exact hmove.trans (hperm.append_right [i])
  · exact h.within.modify_least (Nat.zero_le v) hvd hm hleast

/-- All items, with an invariant `Q` of the parts. -/
theorem greedy_run {d : ℕ} (hk : 0 < k) (hd : ∀ v ∈ lens, v ≤ d) {Q : List (List ℕ) → Prop}
    (hQ : ∀ done st, GreedyState lens k d done st → done <+: List.range lens.length → Q st.1 →
      ∀ m i (hm : m < st.1.length), (∀ p ∈ st.1, load lens st.1[m] ≤ load lens p) →
        Q (st.1.modify m (· ++ [i])))
    {todo : List (ℕ × ℕ)} {done : List ℕ} {st : List (List ℕ) × List ℕ}
    (hitems : ∀ item ∈ todo, lens[item.2]? = some item.1)
    (hall : done ++ todo.map Prod.snd = List.range lens.length)
    (h : GreedyState lens k d done st) (hst : Q st.1) :
    ∃ st', todo.foldlM (greedyStep k) st = .ok st' ∧
      GreedyState lens k d (List.range lens.length) st' ∧ Q st'.1 := by
  induction todo generalizing done st with
  | nil =>
      rw [List.map_nil, List.append_nil] at hall
      subst hall
      exact ⟨st, rfl, h, hst⟩
  | cons item todo ih =>
      have hv := hitems item List.mem_cons_self
      obtain ⟨m, hm, hstep, hleast, hnext⟩ := h.step hk hv (hd _ (List.mem_of_getElem? hv))
      have hQ' := hQ done st h ⟨_, hall⟩ hst m item.2 hm hleast
      have hall' : (done ++ [item.2]) ++ todo.map Prod.snd = List.range lens.length := by
        rw [← hall, List.map_cons, List.append_assoc, List.singleton_append]
      obtain ⟨st', hfold, hst'⟩ :=
        ih (fun item hi => hitems item (List.mem_cons_of_mem _ hi)) hall' hnext hQ'
      refine ⟨st', ?_, hst'⟩
      rw [List.foldlM_cons, hstep, ok_bind, hfold]

end Loop

/-! ## The bias -/

section Bias

variable {k : ℕ} {seqlenList : List ℕ}

theorem load_biased (bias : ℕ) {p : List ℕ} (hp : ∀ i ∈ p, i < seqlenList.length) :
    load (seqlenList.map (· + bias)) p = load seqlenList p + bias * p.length := by
  induction p with
  | nil => rfl
  | cons i p ih =>
      have hi : i < seqlenList.length := hp i List.mem_cons_self
      have htail := ih (fun j hj => hp j (List.mem_cons_of_mem _ hj))
      rw [load_cons, htail, load_cons, List.length_cons, Nat.mul_succ]
      simp only [List.getD_eq_getElem?_getD, List.getElem?_map,
        List.getElem?_eq_getElem hi, Option.map_some, Option.getD_some]
      omega

theorem load_le_sum {parts : List (List ℕ)} {done : List ℕ} (hflat : parts.flatten.Perm done)
    (hdone : done <+: List.range seqlenList.length) {p : List ℕ} (hp : p ∈ parts) :
    load seqlenList p ≤ seqlenList.sum := by
  have hpart : load seqlenList p ≤ (parts.map (load seqlenList)).sum :=
    List.single_le_sum (fun _ _ => Nat.zero_le _) _ (List.mem_map.mpr ⟨p, hp, rfl⟩)
  have hsum := (hflat.map (fun idx => seqlenList.getD idx 0)).sum_eq
  rw [List.map_flatten, List.sum_flatten, List.map_map] at hsum
  have hdoneSum := (hdone.sublist.map (fun idx => seqlenList.getD idx 0)).sum_le_sum
    (fun _ _ => Nat.zero_le _)
  rw [map_getD_range] at hdoneSum
  exact (hpart.trans hsum.le).trans hdoneSum

/-- With the bias of the equal-size mode a part with a smallest sum has fewest
items, so the sizes stay within one of each other. -/
theorem within_sizes {bias d : ℕ} (hbias : seqlenList.sum < bias) {done : List ℕ}
    {st : List (List ℕ) × List ℕ} (h : GreedyState (seqlenList.map (· + bias)) k d done st)
    (hdone : done <+: List.range seqlenList.length) (hsizes : Within 1 (st.1.map List.length))
    {m i : ℕ} (hm : m < st.1.length)
    (hleast : ∀ p ∈ st.1, load (seqlenList.map (· + bias)) st.1[m] ≤
      load (seqlenList.map (· + bias)) p) :
    Within 1 ((st.1.modify m (· ++ [i])).map List.length) := by
  have hcomm : ∀ p : List ℕ, (p ++ [i]).length = p.length + 1 := by
    intro p
    rw [List.length_append, List.length_singleton]
  rw [map_modify (· + 1) hcomm]
  refine hsizes.modify_least (Nat.zero_le 1) le_rfl (by rwa [List.length_map]) ?_
  intro size hsize
  obtain ⟨p, hp, rfl⟩ := List.mem_map.mp hsize
  have hidx : ∀ q ∈ st.1, ∀ j ∈ q, j < seqlenList.length := by
    intro q hq j hj
    have hmem := h.flatten_perm.mem_iff.mp (List.mem_flatten_of_mem hq hj)
    exact List.mem_range.mp (hdone.subset hmem)
  have hle := hleast p hp
  rw [load_biased bias (hidx _ (List.getElem_mem hm)), load_biased bias (hidx p hp)] at hle
  have hsmall := load_le_sum h.flatten_perm hdone hp
  rw [List.getElem_map]
  by_contra hlt
  have hmul : bias * (p.length + 1) ≤ bias * st.1[m].length :=
    Nat.mul_le_mul_left _ (not_le.mp hlt)
  rw [Nat.mul_succ] at hmul
  omega

end Bias

/-! ## The whole method -/

section Method

variable {k : ℕ} {seqlenList : List ℕ} {equalSize : Bool}

theorem greedyPartition_items (seqlenList : List ℕ) (bias : ℕ) :
    seqlenList.zipIdx.map (fun (seqlen, i) => (seqlen + bias, i)) =
      (seqlenList.map (· + bias)).zipIdx := by
  rw [List.zipIdx_map]
  rfl

/-- What the loop leaves; in the equal-size mode the sizes are within one. -/
theorem greedyPartition_loop (hk : 0 < k) (seqlenList : List ℕ) (equalSize : Bool) :
    ∃ parts, greedyPartition seqlenList k equalSize =
        (if equalSize && !parts.all (fun p => p.length * k == seqlenList.length) then
          .error .assertionError else .ok parts) ∧
      parts.length = k ∧ parts.flatten.Perm (List.range seqlenList.length) ∧
      (equalSize = true → Within 1 (parts.map List.length)) ∧
      (equalSize = false →
        Within (gap seqlenList false) (parts.map (load seqlenList))) := by
  obtain ⟨bias, hbias⟩ : ∃ bias, bias = if equalSize then seqlenList.sum + 1 else 0 := ⟨_, rfl⟩
  let lens := seqlenList.map (· + bias)
  have hlen : lens.length = seqlenList.length := List.length_map _
  have hd : ∀ v ∈ lens, v ≤ gap seqlenList false + bias := by
    intro v hv
    obtain ⟨w, hw, rfl⟩ := List.mem_map.mp hv
    exact Nat.add_le_add_right (le_gap hw) bias
  have hitems : ∀ item ∈ lens.zipIdx, lens[item.2]? = some item.1 :=
    fun item hi => List.mem_zipIdx_iff_getElem?.mp hi
  have hall : [] ++ lens.zipIdx.map Prod.snd = List.range lens.length := by
    rw [List.nil_append, List.zipIdx_map_snd, List.range_eq_range']
  obtain ⟨st, hfold, hst, hsizes⟩ := greedy_run hk hd
    (Q := fun parts => equalSize = true → Within 1 (parts.map List.length))
    (fun done st h hdone hQ m i hm hleast heq => by
      rw [hlen] at hdone
      refine within_sizes ?_ h hdone (hQ heq) hm hleast
      rw [hbias, if_pos heq]
      exact Nat.lt_succ_self _)
    hitems hall (greedyState_start lens k _)
    (fun _ x hx y _ => by
      rw [List.map_replicate] at hx
      rw [List.eq_of_mem_replicate hx]
      exact Nat.zero_le _)
  refine ⟨st.1, ?_, hst.length_eq, hlen ▸ hst.flatten_perm, hsizes, ?_⟩
  · rw [greedyPartition, greedyPartition_items, ← hbias]
    simp only [lens] at hfold
    rw [hfold]
    rfl
  · rintro rfl
    rw [if_neg Bool.false_ne_true] at hbias
    subst hbias
    have hwithin := hst.within
    rw [hst.sums_eq] at hwithin
    simpa [lens] using hwithin

theorem greedyPartition_zero (hne : seqlenList ≠ []) :
    greedyPartition seqlenList 0 equalSize = .error .typeError := by
  cases seqlenList with
  | nil => exact absurd rfl hne
  | cons v seqlenList =>
      rw [greedyPartition, greedyPartition_items, List.map_cons, List.zipIdx_cons,
        List.foldlM_cons]
      rfl

/-- Sizes within one of each other all come out right when the number of items
is a multiple. -/
theorem sizes_eq_iff {parts : List (List ℕ)} {n : ℕ} (hk : 0 < k) (hlen : parts.length = k)
    (hflat : parts.flatten.Perm (List.range n)) (hsizes : Within 1 (parts.map List.length)) :
    parts.all (fun p => p.length * k == n) = true ↔ k ∣ n := by
  have hsum : (parts.map List.length).sum = n := by
    rw [← List.length_flatten, hflat.length_eq, List.length_range]
  constructor
  · intro hall
    obtain ⟨p, hp⟩ := List.exists_mem_of_length_pos (hlen ▸ hk)
    exact ⟨p.length, by rw [← beq_iff_eq.mp (List.all_eq_true.mp hall p hp), Nat.mul_comm]⟩
  · rintro ⟨c, rfl⟩
    refine List.all_eq_true.mpr (fun p hp => beq_iff_eq.mpr ?_)
    have hone := hsizes.eq_of_dvd (c := c) (by rw [List.length_map, hlen, hsum])
    rw [hone p.length (List.mem_map.mpr ⟨p, hp, rfl⟩), Nat.mul_comm]

/-- The method returns exactly when there is a part for the items and, in the
equal-size mode, their number is a multiple of the number of parts: its assertion
fails in no other case.  Each item is in one part, once; the parts have one size
in the equal-size mode, and loads no further apart than the longest sequence in
the other. -/
theorem greedyPartition_returns (seqlenList : List ℕ) (k : ℕ) (equalSize : Bool) :
    ((∃ parts, greedyPartition seqlenList k equalSize = .ok parts) ↔
      (k = 0 → seqlenList = []) ∧ (equalSize = true → k ∣ seqlenList.length)) ∧
    ∀ parts, greedyPartition seqlenList k equalSize = .ok parts →
      parts.length = k ∧ parts.flatten.Perm (List.range seqlenList.length) ∧
      (equalSize = true → ∀ p ∈ parts, p.length * k = seqlenList.length) ∧
      (equalSize = false → ∀ p ∈ parts, ∀ q ∈ parts,
        load seqlenList p ≤ load seqlenList q + gap seqlenList false) := by
  rcases Nat.eq_zero_or_pos k with rfl | hk
  · by_cases hne : seqlenList = []
    · subst hne
      have hrun : greedyPartition [] 0 equalSize = .ok [] := by
        cases equalSize with
        | true => rfl
        | false => rfl
      rw [hrun]
      refine ⟨⟨fun _ => ⟨fun _ => rfl, fun _ => ⟨0, rfl⟩⟩, fun _ => ⟨[], rfl⟩⟩, ?_⟩
      rintro parts ⟨⟩
      refine ⟨rfl, List.Perm.refl _, fun _ p hp => ?_, fun _ p hp => ?_⟩
      · exact absurd hp List.not_mem_nil
      · exact absurd hp List.not_mem_nil
    · rw [greedyPartition_zero hne]
      refine ⟨⟨?_, fun h => absurd (h.1 rfl) hne⟩, ?_⟩
      · rintro ⟨parts, h⟩
        cases h
      · intro parts h
        cases h
  · obtain ⟨parts, hrun, hlen, hflat, hsizes, hwithin⟩ :=
      greedyPartition_loop hk seqlenList equalSize
    have hzero : k = 0 → seqlenList = [] := fun h => absurd h hk.ne'
    cases equalSize with
    | false =>
        rw [Bool.false_and, if_neg Bool.false_ne_true] at hrun
        rw [hrun]
        refine ⟨⟨fun _ => ⟨hzero, fun h => absurd h Bool.false_ne_true⟩,
          fun _ => ⟨parts, rfl⟩⟩, ?_⟩
        rintro _ ⟨⟩
        refine ⟨hlen, hflat, fun h => absurd h Bool.false_ne_true, fun _ p hp q hq => ?_⟩
        exact hwithin rfl _ (List.mem_map.mpr ⟨p, hp, rfl⟩) _ (List.mem_map.mpr ⟨q, hq, rfl⟩)
    | true =>
        have hiff := sizes_eq_iff hk hlen hflat (hsizes rfl)
        rw [Bool.true_and] at hrun
        by_cases hdvd : k ∣ seqlenList.length
        · have hall := hiff.mpr hdvd
          rw [hall, Bool.not_true, if_neg Bool.false_ne_true] at hrun
          rw [hrun]
          refine ⟨⟨fun _ => ⟨hzero, fun _ => hdvd⟩, fun _ => ⟨parts, rfl⟩⟩, ?_⟩
          rintro _ ⟨⟩
          refine ⟨hlen, hflat, fun _ p hp => ?_, fun h => absurd h.symm Bool.false_ne_true⟩
          exact beq_iff_eq.mp (List.all_eq_true.mp hall p hp)
        · have hall := Bool.eq_false_iff.mpr (mt hiff.mp hdvd)
          rw [hall, Bool.not_false, if_pos rfl] at hrun
          rw [hrun]
          refine ⟨⟨?_, fun h => absurd (h.2 rfl) hdvd⟩, ?_⟩
          · rintro ⟨_, h⟩
            cases h
          · intro _ h
            cases h

end Method

end RLCM.Balancing
