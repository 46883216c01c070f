/-
# `RLCM.Balancing.PrefixGroups` — balancing whole groups of one uid

`get_group_balanced_partitions` and the branch of `_balance_batch` that uses it.
The loop over the samples starts a new group whenever the uid changes
(`ScanInv`), so a group is a run of neighbours with one uid, and neighbours with
one uid are never separated.  Where the samples of each uid stand together, as
they do after every prompt was repeated, all samples of a prompt end on one rank.
-/
import Mathlib.Algebra.BigOperators.Group.List.Lemmas
import RLCM.Balancing.BalanceBatch

namespace RLCM.Balancing

open Py Differencing Protocol

variable {α Uid : Type} [DecidableEq Uid] {uids : List Uid} {n : ℕ}

/-! ## The scan -/

/-- The groups after the first `n` samples: they hold the samples in order, those
of one group have one uid, and neighbours with one uid are in one group. -/
structure ScanInv (uids : List Uid) (n : ℕ) (scan : GroupScan Uid) : Prop where
  flatten : (scan.flush.map Prod.fst).flatten = List.range n
  ne_nil : ∀ g ∈ scan.flush, g.1 ≠ []
  current : ∀ i ∈ scan.currentIndices, uids[i]? = scan.currentUid
  last : n = 0 ∧ scan.currentUid = none ∨ ∃ i, n = i + 1 ∧ i ∈ scan.currentIndices
  same : ∀ g ∈ scan.flush, ∀ i ∈ g.1, ∀ j ∈ g.1, uids[i]? = uids[j]?
  neighbours : ∀ i, i + 1 < n → uids[i]? = uids[i + 1]? →
    ∃ g ∈ scan.flush, i ∈ g.1 ∧ i + 1 ∈ g.1

omit [DecidableEq Uid] in
theorem flush_of_ne_nil {scan : GroupScan Uid} (h : scan.currentIndices ≠ []) :
    scan.flush = scan.groups ++ [(scan.currentIndices, scan.currentSeqlen)] := if_neg h

omit [DecidableEq Uid] in
/-- A sample with another uid starts a group. -/
theorem ScanInv.newGroup {scan : GroupScan Uid} (h : ScanInv uids n scan) (seqlen : ℕ) {uid : Uid}
    (huid : uids[n]? = some uid) (hne : some uid ≠ scan.currentUid) :
    ScanInv uids (n + 1)
      { groups := scan.flush, currentUid := some uid
        currentIndices := [n], currentSeqlen := seqlen } := by
  have hflush : GroupScan.flush { groups := scan.flush, currentUid := some uid
                                  currentIndices := [n], currentSeqlen := seqlen } =
      scan.flush ++ [([n], seqlen)] := flush_of_ne_nil (List.cons_ne_nil n [])
  refine ⟨?_, ?_, ?_, Or.inr ⟨n, rfl, List.mem_singleton_self n⟩, ?_, ?_⟩
  · rw [hflush, List.map_append, List.flatten_append, h.flatten, List.range_succ]
    rfl
  · intro g hg
    rw [hflush] at hg
    rcases List.mem_append.mp hg with hg | hg
    · exact h.ne_nil g hg
    · rw [List.mem_singleton.mp hg]
      exact List.cons_ne_nil n []
  · intro i hi
    rw [List.mem_singleton.mp hi, huid]
  · intro g hg i hi j hj
    rw [hflush] at hg
    rcases List.mem_append.mp hg with hg | hg
    · exact h.same g hg i hi j hj
    · rw [List.mem_singleton.mp hg] at hi hj
      rw [List.mem_singleton.mp hi, List.mem_singleton.mp hj]
  · intro i hi heq
    rw [hflush]
    rcases Nat.lt_succ_iff_lt_or_eq.mp hi with hlt | hlast
    · obtain ⟨g, hg, hmem⟩ := h.neighbours i hlt heq
      exact ⟨g, List.mem_append_left _ hg, hmem⟩
    · -- the sample before the new one has another uid
      exfalso
      rcases h.last with ⟨hzero, _⟩ | ⟨k, hk, hcur⟩
      · omega
      · have hki : k = i := by omega
        rw [hlast, huid, ← hki, h.current k hcur] at heq
        exact hne heq.symm

omit [DecidableEq Uid] in
/-- A sample with the same uid goes into the current group. -/
theorem ScanInv.sameGroup {scan : GroupScan Uid} (h : ScanInv uids n scan) (seqlen : ℕ) {uid : Uid}
    (huid : uids[n]? = some uid) (heq : some uid = scan.currentUid) :
    ScanInv uids (n + 1)
      { scan with
        currentIndices := scan.currentIndices ++ [n]
        currentSeqlen := scan.currentSeqlen + seqlen } := by
  obtain ⟨k, hk, hcur⟩ : ∃ k, n = k + 1 ∧ k ∈ scan.currentIndices := by
    rcases h.last with ⟨_, hnone⟩ | hlast
    · rw [hnone] at heq
      cases heq
    · exact hlast
  have hold := flush_of_ne_nil (List.ne_nil_of_mem hcur)
  have hnew : GroupScan.flush { scan with
      currentIndices := scan.currentIndices ++ [n]
      currentSeqlen := scan.currentSeqlen + seqlen } =
      scan.groups ++ [(scan.currentIndices ++ [n], scan.currentSeqlen + seqlen)] :=
    flush_of_ne_nil (List.append_ne_nil_of_right_ne_nil _ (List.cons_ne_nil n []))
  have hmem : ∀ i ∈ scan.currentIndices ++ [n], uids[i]? = scan.currentUid := by
    intro i hi
    rcases List.mem_append.mp hi with hi | hi
    · exact h.current i hi
    · rw [List.mem_singleton.mp hi, huid, heq]
  refine ⟨?_, ?_, hmem, Or.inr ⟨n, rfl, List.mem_append_right _ List.mem_cons_self⟩, ?_, ?_⟩
  · have hflat := h.flatten
    rw [hold, List.map_append, List.flatten_append] at hflat
    rw [hnew, List.map_append, List.flatten_append, List.range_succ, ← hflat]
    simp
  · intro g hg
    rw [hnew] at hg
    rcases List.mem_append.mp hg with hg | hg
    · exact h.ne_nil g (hold ▸ List.mem_append_left _ hg)
    · rw [List.mem_singleton.mp hg]
      exact List.append_ne_nil_of_right_ne_nil _ (List.cons_ne_nil n [])
  · intro g hg i hi j hj
    rw [hnew] at hg
    rcases List.mem_append.mp hg with hg | hg
    · exact h.same g (hold ▸ List.mem_append_left _ hg) i hi j hj
    · rw [List.mem_singleton.mp hg] at hi hj
      rw [hmem i hi, hmem j hj]
  · intro i hi hsame
    rw [hnew]
    have hcurrent : (scan.currentIndices ++ [n], scan.currentSeqlen + seqlen) ∈
        scan.groups ++ [(scan.currentIndices ++ [n], scan.currentSeqlen + seqlen)] :=
      List.mem_append_right _ List.mem_cons_self
    rcases Nat.lt_succ_iff_lt_or_eq.mp hi with hlt | hlast
    · obtain ⟨g, hg, hboth⟩ := h.neighbours i hlt hsame
      rw [hold] at hg
      rcases List.mem_append.mp hg with hg | hg
      · exact ⟨g, List.mem_append_left _ hg, hboth⟩
      · rw [List.mem_singleton.mp hg] at hboth
        exact ⟨_, hcurrent, List.mem_append_left _ hboth.1, List.mem_append_left _ hboth.2⟩
    · have hki : k = i := by omega
      refine ⟨_, hcurrent, List.mem_append_left _ (hki ▸ hcur), ?_⟩
      rw [hlast]
      exact List.mem_append_right _ List.mem_cons_self

theorem ScanInv.step {scan : GroupScan Uid} (h : ScanInv uids n scan) {seqlen : ℕ} {uid : Uid}
    (huid : uids[n]? = some uid) : ScanInv uids (n + 1) (scan.step ((seqlen, uid), n)) := by
  unfold GroupScan.step
  split
  case isTrue hne => exact h.newGroup seqlen huid hne
  case isFalse heq => exact h.sameGroup seqlen huid (not_not.mp heq)

/-- All samples. -/
theorem scanInv_run (entries : List (ℕ × Uid)) {scan : GroupScan Uid}
    (h : ScanInv uids n scan)
    (hentries : ∀ k, (entries[k]?).map Prod.snd = uids[n + k]?) :
    ScanInv uids (n + entries.length) ((entries.zipIdx n).foldl GroupScan.step scan) := by
  induction entries generalizing n scan with
  | nil => exact h
  | cons entry entries ih =>
      have hfirst := hentries 0
      have hstep : ScanInv uids (n + 1) (scan.step (entry, n)) := h.step hfirst.symm
      have hrest := ih hstep (fun k => by
        have := hentries (k + 1)
        rw [List.getElem?_cons_succ] at this
        rw [this, Nat.add_assoc, Nat.add_comm 1])
      rw [List.zipIdx_cons, List.foldl_cons, List.length_cons, ← Nat.add_assoc,
        Nat.add_right_comm]
      exact hrest

theorem uidGroups_inv {seqlens : List ℕ} (hlen : seqlens.length = uids.length) :
    ∃ scan : GroupScan Uid, uidGroups seqlens uids = scan.flush ∧
      ScanInv uids uids.length scan := by
  have hstart : ScanInv uids 0 ⟨[], none, [], 0⟩ :=
    ⟨rfl, fun g hg => absurd hg List.not_mem_nil, fun i hi => absurd hi List.not_mem_nil,
      Or.inl ⟨rfl, rfl⟩, fun g hg => absurd hg List.not_mem_nil,
      fun i hi => absurd hi (Nat.not_lt_zero _)⟩
  have hrun := scanInv_run (seqlens.zip uids) hstart (fun k => by
    rw [Nat.zero_add, ← List.getElem?_map, List.map_snd_zip hlen.ge])
  refine ⟨_, rfl, ?_⟩
  rw [List.length_zip, hlen, min_self, Nat.zero_add] at hrun
  exact hrun

/-- The parts in terms of the groups. -/
def samplePartition (groups : List (List ℕ × ℕ)) (groupPartition : List ℕ) : List ℕ :=
  ((gather groups groupPartition).flatMap Prod.fst).insertionSort (· ≤ ·)

/-- What the call does once the groups are shared out. -/
theorem getGroupBalancedPartitions_eq {seqlens : List ℕ} {k : ℕ} {out : List (List ℕ)}
    (hlen : seqlens.length = uids.length) :
    getGroupBalancedPartitions seqlens uids k = .ok out ↔
      ∃ groupPartitions, getSeqlenBalancedPartitions ((uidGroups seqlens uids).map
          (fun group => groupWorkload seqlens group.1)) k true = .ok groupPartitions ∧
        out = groupPartitions.map (samplePartition (uidGroups seqlens uids)) := by
  have hpick : ∀ groupPartitions, getSeqlenBalancedPartitions ((uidGroups seqlens uids).map
      (fun group => groupWorkload seqlens group.1)) k true = .ok groupPartitions →
      groupPartitions.mapM (fun groupPartition => do
        let sampleIndices ← groupPartition.mapM (getItem (uidGroups seqlens uids))
        (pure ((sampleIndices.flatMap Prod.fst).insertionSort (· ≤ ·)) :
          Except Error (List ℕ))) =
        .ok (groupPartitions.map (samplePartition (uidGroups seqlens uids))) := by
    intro groupPartitions h
    have hpart := isPartition_of_ok h
    rw [List.length_map] at hpart
    refine mapM_eq_map (fun p hp => ?_)
    have hidx := indexSelect_ok (uidGroups seqlens uids) (fun i hi =>
      List.mem_range.mp (hpart.flatten_perm.mem_iff.mp (List.mem_flatten_of_mem hp hi)))
    rw [indexSelect] at hidx
    rw [hidx]
    rfl
  rw [getGroupBalancedPartitions, if_neg (not_not.mpr hlen)]
  dsimp only
  constructor
  · intro h
    split at h
    case isTrue => cases h
    case isFalse hle =>
      obtain ⟨groupPartitions, hparts, h⟩ := bind_eq_ok.mp h
      rw [hpick _ hparts] at h
      cases h
      exact ⟨groupPartitions, hparts, rfl⟩
  · rintro ⟨groupPartitions, hparts, rfl⟩
    have hle := (conditions_of_ok hparts).2.1
    rw [List.length_map] at hle
    rw [if_neg (not_lt.mpr hle), hparts, ok_bind, hpick _ hparts]

/-- Two samples are in one part. -/
def Together (parts : List (List ℕ)) (i j : ℕ) : Prop := ∃ p ∈ parts, i ∈ p ∧ j ∈ p

theorem part_unique {parts : List (List ℕ)} (hnodup : parts.flatten.Nodup) {p q : List ℕ}
    (hp : p ∈ parts) (hq : q ∈ parts) {i : ℕ} (hip : i ∈ p) (hiq : i ∈ q) : p = q := by
  have : Std.Symm (List.Disjoint (α := ℕ)) := ⟨fun _ _ h => h.symm⟩
  by_contra hne
  exact (List.nodup_flatten.mp hnodup).2.forall hp hq hne hip hiq

theorem Together.trans {parts : List (List ℕ)} (hnodup : parts.flatten.Nodup) {i j l : ℕ}
    (hij : Together parts i j) (hjl : Together parts j l) : Together parts i l := by
  obtain ⟨p, hp, hi, hj⟩ := hij
  obtain ⟨q, hq, hj', hl⟩ := hjl
  have hpq : p = q := part_unique hnodup hp hq hj hj'
  exact ⟨p, hp, hi, hpq ▸ hl⟩

omit [DecidableEq Uid] in
theorem together_of_neighbours {parts : List (List ℕ)} (hnodup : parts.flatten.Nodup)
    (hneighbours : ∀ i, i + 1 < n → uids[i]? = uids[i + 1]? → Together parts i (i + 1))
    (hall : ∀ i < n, ∃ p ∈ parts, i ∈ p) {i j : ℕ} (hij : i ≤ j) (hj : j < n)
    (hsame : ∀ l, i ≤ l → l ≤ j → uids[l]? = uids[i]?) : Together parts i j := by
  induction j, hij using Nat.le_induction with
  | base =>
      obtain ⟨p, hp, hi⟩ := hall i hj
      exact ⟨p, hp, hi, hi⟩
  | succ j hij ih =>
      have hbefore := ih (Nat.lt_of_succ_lt hj) (fun l hil hlj => hsame l hil (hlj.trans
        (Nat.le_succ j)))
      refine hbefore.trans hnodup (hneighbours j hj ?_)
      rw [hsame j hij (Nat.le_succ j), hsame (j + 1) (hij.trans (Nat.le_succ j)) le_rfl]

theorem load_samplePartition {seqlens : List ℕ} {groups : List (List ℕ × ℕ)}
    {groupPartition : List ℕ} (hidx : ∀ a ∈ groupPartition, a < groups.length) :
    load (seqlens.map calculateWorkload) (samplePartition groups groupPartition) =
      load (groups.map (fun group => groupWorkload seqlens group.1)) groupPartition := by
  have hvalue : ∀ i, (seqlens.map calculateWorkload).getD i 0 =
      calculateWorkload (seqlens.getD i 0) := by
    intro i
    rw [List.getD_eq_getElem?_getD, List.getD_eq_getElem?_getD, List.getElem?_map]
    cases seqlens[i]? with
    | none => rfl
    | some s => rfl
  rw [samplePartition, load_insertionSort]
  induction groupPartition with
  | nil => rfl
  | cons a groupPartition ih =>
      have ha := hidx a List.mem_cons_self
      have htail := ih (fun b hb => hidx b (List.mem_cons_of_mem _ hb))
      rw [gather_cons ha, List.flatMap_cons, load_append, htail, load_cons]
      have hget : (groups.map (fun group => groupWorkload seqlens group.1)).getD a 0 =
          groupWorkload seqlens groups[a].1 := by
        simp [ha]
      rw [hget, groupWorkload, load, List.map_congr_left (fun i _ => hvalue i)]

theorem flatten_samplePartitions {groups : List (List ℕ × ℕ)} {k : ℕ}
    {groupPartitions : List (List ℕ)} (h : IsPartition groups.length k groupPartitions) :
    (groupPartitions.map (samplePartition groups)).flatten.Perm (groups.map Prod.fst).flatten := by
  have hsort : (groupPartitions.map (samplePartition groups)).flatten.Perm
      (groupPartitions.map (fun p => (gather groups p).flatMap Prod.fst)).flatten := by
    refine List.Perm.flatten_congr ?_
    rw [List.forall₂_map_left_iff, List.forall₂_map_right_iff]
    exact List.forall₂_same.mpr (fun p _ => List.perm_insertionSort _ _)
  have hall : (groupPartitions.map (fun p => (gather groups p).flatMap Prod.fst)).flatten =
      (gather groups groupPartitions.flatten).flatMap Prod.fst := by
    rw [gather_flatten, List.flatMap_def, List.map_flatten, List.map_map, List.flatten_flatten,
      List.map_map]
    rfl
  refine hsort.trans ?_
  rw [hall, ← List.flatMap_def]
  exact (gather_perm h.flatten_perm).flatMap_right _

theorem exists_part_of_group {groups : List (List ℕ × ℕ)} {k : ℕ}
    {groupPartitions : List (List ℕ)} (h : IsPartition groups.length k groupPartitions)
    {group : List ℕ × ℕ} (hgroup : group ∈ groups) :
    ∃ p ∈ groupPartitions.map (samplePartition groups), ∀ i ∈ group.1, i ∈ p := by
  obtain ⟨a, ha, rfl⟩ := List.mem_iff_getElem.mp hgroup
  have hmem := h.flatten_perm.mem_iff.mpr (List.mem_range.mpr ha)
  obtain ⟨gp, hgp, hagp⟩ := List.mem_flatten.mp hmem
  refine ⟨_, List.mem_map.mpr ⟨gp, hgp, rfl⟩, fun i hi => ?_⟩
  rw [samplePartition, (List.perm_insertionSort _ _).mem_iff]
  exact List.mem_flatMap.mpr ⟨_, List.mem_filterMap.mpr ⟨a, hagp, List.getElem?_eq_getElem ha⟩, hi⟩

theorem getGroupBalancedPartitions_returns {seqlens : List ℕ}
    (hlen : seqlens.length = uids.length) (k : ℕ) :
    (∃ parts, getGroupBalancedPartitions seqlens uids k = .ok parts) ↔
      0 < k ∧ k ≤ (uidGroups seqlens uids).length ∧ k ∣ (uidGroups seqlens uids).length := by
  have hgroups : (uidGroups seqlens uids).length =
      ((uidGroups seqlens uids).map (fun group => groupWorkload seqlens group.1)).length :=
    List.length_map _ |>.symm
  constructor
  · rintro ⟨parts, h⟩
    obtain ⟨groupPartitions, hparts, -⟩ := (getGroupBalancedPartitions_eq hlen).mp h
    obtain ⟨hk, hle, hdvd⟩ := conditions_of_ok hparts
    exact ⟨hk, hgroups ▸ hle, hgroups ▸ hdvd rfl⟩
  · rintro ⟨hk, hle, hdvd⟩
    obtain ⟨groupPartitions, hparts⟩ := exists_of_conditions _ true hk
      (hgroups ▸ hle) (fun _ => hgroups ▸ hdvd)
    exact ⟨_, (getGroupBalancedPartitions_eq hlen).mpr ⟨groupPartitions, hparts, rfl⟩⟩

/-- What the call gives for `k` parts. -/
structure KeepsGroups (seqlens : List ℕ) (uids : List Uid) (k : ℕ) (parts : List (List ℕ)) :
    Prop where
  length_eq : parts.length = k
  flatten_perm : parts.flatten.Perm (List.range uids.length)
  together : ∀ i j, i ≤ j → j < uids.length → (∀ l, i ≤ l → l ≤ j → uids[l]? = uids[i]?) →
    Together parts i j
  within : Within
    (gap ((uidGroups seqlens uids).map (fun group => groupWorkload seqlens group.1)) true)
    (parts.map (load (seqlens.map calculateWorkload)))
  sizes : ∀ r, (∀ g ∈ uidGroups seqlens uids, g.1.length = r) →
    ∀ p ∈ parts, p.length * k = (uidGroups seqlens uids).length * r

/-- Each sample is in one part; samples of one uid that stand together stay
together; and the workloads of the parts differ by no more than two groups can. -/
theorem keepsGroups_of_ok {seqlens : List ℕ} (hlen : seqlens.length = uids.length) {k : ℕ}
    {parts : List (List ℕ)} (h : getGroupBalancedPartitions seqlens uids k = .ok parts) :
    KeepsGroups seqlens uids k parts := by
  obtain ⟨scan, hscan, hinv⟩ := uidGroups_inv hlen
  obtain ⟨groupPartitions, hparts, rfl⟩ := (getGroupBalancedPartitions_eq hlen).mp h
  have hpart := isPartition_of_ok hparts
  have hwithin := within_of_ok hparts
  have hsize := fun p hp => length_mul_of_ok (p := p) hparts hp
  rw [List.length_map] at hpart hsize
  have hidx : ∀ p ∈ groupPartitions, ∀ a ∈ p, a < (uidGroups seqlens uids).length :=
    fun p hp a ha =>
      List.mem_range.mp (hpart.flatten_perm.mem_iff.mp (List.mem_flatten_of_mem hp ha))
  have hflat : (groupPartitions.map (samplePartition (uidGroups seqlens uids))).flatten.Perm
      (List.range uids.length) := by
    refine (flatten_samplePartitions hpart).trans (List.Perm.of_eq ?_)
    rw [hscan, hinv.flatten]
  refine ⟨by rw [List.length_map, hpart.length_eq], hflat, ?_, ?_, ?_⟩
  · intro i j hij hj hsame
    refine together_of_neighbours (hflat.nodup_iff.mpr List.nodup_range) ?_ ?_ hij hj hsame
    · intro l hl heq
      obtain ⟨g, hg, hl, hl'⟩ := hinv.neighbours l hl heq
      obtain ⟨p, hp, hmem⟩ := exists_part_of_group hpart (hscan ▸ hg)
      exact ⟨p, hp, hmem l hl, hmem _ hl'⟩
    · intro l hl
      exact List.mem_flatten.mp (hflat.mem_iff.mpr (List.mem_range.mpr hl))
  · refine hwithin.perm (List.Perm.of_eq ?_)
    rw [List.map_map]
    exact List.map_congr_left (fun p hp => (load_samplePartition (hidx p hp)).symm)
  · intro r hr p hp
    obtain ⟨gp, hgp, rfl⟩ := List.mem_map.mp hp
    have hpicked : ∀ g ∈ gather (uidGroups seqlens uids) gp, g.1.length = r := by
      intro g hg
      obtain ⟨a, _, ha⟩ := List.mem_filterMap.mp hg
      exact hr g (List.mem_of_getElem? ha)
    rw [samplePartition, List.length_insertionSort, List.length_flatMap,
      List.map_congr_left hpicked, List.map_const', List.sum_replicate_nat,
      length_gather (hidx gp hgp), Nat.mul_right_comm, hsize gp hgp]

/-- The samples of each uid stand together. -/
def Contiguous (uids : List Uid) : Prop :=
  ∀ i j l, i ≤ l → l ≤ j → j < uids.length → uids[i]? = uids[j]? → uids[l]? = uids[i]?

theorem count_eq_length_filter (uids : List Uid) (u : Uid) :
    uids.count u = ((List.range uids.length).filter (fun i => uids[i]? = some u)).length := by
  have hsome : uids.map some = (List.range uids.length).map (fun i => uids[i]?) := by
    refine List.ext_getElem (by simp) (fun i hi _ => ?_)
    rw [List.length_map] at hi
    rw [List.getElem_map, List.getElem_map, List.getElem_range, List.getElem?_eq_getElem hi]
  have hcount : uids.count u = (uids.map some).count (some u) :=
    (List.count_map_of_injective uids some (Option.some_injective Uid) u).symm
  rw [hcount, hsome, List.count, List.countP_map, List.countP_eq_length_filter]
  congr 1
  exact List.filter_congr (fun i _ => by
    rw [Function.comp_apply, Bool.eq_iff_iff, beq_iff_eq, decide_eq_true_iff])

/-- Where the samples of each uid stand together, a group has all of one uid. -/
theorem length_group {scan : GroupScan Uid} (h : ScanInv uids uids.length scan)
    (hcontiguous : Contiguous uids) {g : List ℕ × ℕ} (hg : g ∈ scan.flush) :
    ∃ u ∈ uids, g.1.length = uids.count u := by
  obtain ⟨i, hi⟩ := List.exists_mem_of_ne_nil _ (h.ne_nil g hg)
  have hflat : (scan.flush.map Prod.fst).flatten.Perm (List.range uids.length) :=
    List.Perm.of_eq h.flatten
  have hnodup : (scan.flush.map Prod.fst).flatten.Nodup := hflat.nodup_iff.mpr List.nodup_range
  have hgmem : g.1 ∈ scan.flush.map Prod.fst := List.mem_map.mpr ⟨g, hg, rfl⟩
  have hlt : ∀ j ∈ g.1, j < uids.length := fun j hj =>
    List.mem_range.mp (hflat.mem_iff.mp (List.mem_flatten_of_mem hgmem hj))
  have htogether : ∀ a b, a ≤ b → b < uids.length → uids[a]? = uids[b]? →
      Together (scan.flush.map Prod.fst) a b := by
    intro a b hab hb hsame
    refine together_of_neighbours hnodup (fun l hl heq => ?_) (fun l hl => ?_) hab hb
      (fun l hal hlb => hcontiguous a b l hal hlb hb hsame)
    · obtain ⟨g', hg', hl, hl'⟩ := h.neighbours l hl heq
      exact ⟨g'.1, List.mem_map.mpr ⟨g', hg', rfl⟩, hl, hl'⟩
    · exact List.mem_flatten.mp (hflat.mem_iff.mpr (List.mem_range.mpr hl))
  -- an index with the uid of `i` is together with `i`, so in the group
  have hin : ∀ j, j < uids.length → uids[j]? = uids[i]? → j ∈ g.1 := by
    intro j hj hsame
    obtain ⟨p, hp, hip, hjp⟩ : Together (scan.flush.map Prod.fst) i j := by
      rcases le_total i j with hij | hji
      · exact htogether i j hij hj hsame.symm
      · obtain ⟨p, hp, hjp, hip⟩ := htogether j i hji (hlt i hi) hsame
        exact ⟨p, hp, hip, hjp⟩
    exact part_unique hnodup hp hgmem hip hi ▸ hjp
  obtain ⟨u, hu⟩ : ∃ u, uids[i]? = some u := ⟨_, List.getElem?_eq_getElem (hlt i hi)⟩
  refine ⟨u, List.mem_of_getElem? hu, ?_⟩
  have hgnodup : g.1.Nodup := (List.nodup_flatten.mp hnodup).1 g.1 hgmem
  have hmem : ∀ j, j ∈ g.1 ↔
      j ∈ (List.range uids.length).filter (fun i => uids[i]? = some u) := by
    intro j
    rw [List.mem_filter, List.mem_range, decide_eq_true_iff]
    constructor
    · intro hj
      exact ⟨hlt j hj, by rw [h.same g hg j hj i hi, hu]⟩
    · rintro ⟨hj, hsame⟩
      exact hin j hj (by rw [hsame, hu])
  rw [count_eq_length_filter]
  exact ((List.perm_ext_iff_of_nodup hgnodup (List.nodup_range.filter _)).mpr hmem).length_eq

/-- Where every uid has `r` samples that stand together, there are as many groups
as uids. -/
theorem length_uidGroups {seqlens : List ℕ} (hlen : seqlens.length = uids.length)
    (hcontiguous : Contiguous uids) {r : ℕ} (hr : 0 < r) (hcount : ∀ u ∈ uids, uids.count u = r) :
    (uidGroups seqlens uids).length = uids.dedup.length ∧
      ∀ g ∈ uidGroups seqlens uids, g.1.length = r := by
  obtain ⟨scan, hscan, hinv⟩ := uidGroups_inv hlen
  have hsize : ∀ g ∈ uidGroups seqlens uids, g.1.length = r := by
    intro g hg
    obtain ⟨u, hu, hlength⟩ := length_group hinv hcontiguous (hscan ▸ hg)
    rw [hlength, hcount u hu]
  refine ⟨?_, hsize⟩
  have hsamples : (uidGroups seqlens uids).length * r = uids.length := by
    have hflat := congrArg List.length hinv.flatten
    rw [← hscan, List.length_flatten, List.map_map, List.length_range] at hflat
    have hsizes : (uidGroups seqlens uids).map (List.length ∘ Prod.fst) =
        (uidGroups seqlens uids).map (fun _ => r) := List.map_congr_left hsize
    rw [← hflat, hsizes, List.map_const', List.sum_replicate_nat]
  have hdedup : uids.dedup.length * r = uids.length := by
    have hsum := List.sum_map_count_dedup_eq_length uids
    rw [List.map_congr_left (g := fun _ => r) (fun u hu => hcount u (List.mem_dedup.mp hu)),
      List.map_const', List.sum_replicate_nat] at hsum
    exact hsum
  exact Nat.eq_of_mul_eq_mul_right hr (hsamples.trans hdedup.symm)

/-! ## The whole call -/

section Call

variable {cfg : BalanceConfig} {rows : List α} {seqlens : List ℕ} {dpSize r : ℕ}

theorem globalPartitions_prefixGrouper (hgrouper : cfg.usePrefixGrouper = true)
    {parts : List (List ℕ)} : globalPartitions cfg seqlens (some uids) dpSize = .ok parts ↔
      dpSize ∣ uids.dedup.length ∧ getGroupBalancedPartitions seqlens uids dpSize = .ok parts := by
  unfold globalPartitions
  rw [hgrouper]
  dsimp only
  split
  case isTrue hmod =>
    refine ⟨fun h => (by cases h), fun h => ?_⟩
    exact absurd (Nat.mod_eq_zero_of_dvd h.1) hmod
  case isFalse hmod =>
    exact ⟨fun h => ⟨Nat.dvd_of_mod_eq_zero (not_not.mp hmod), h⟩, And.right⟩

theorem KeepsGroups.together_of_contiguous {parts : List (List ℕ)} {k : ℕ}
    (h : KeepsGroups seqlens uids k parts) (hcontiguous : Contiguous uids) {i j : ℕ}
    (hi : i < uids.length) (hj : j < uids.length) (hsame : uids[i]? = uids[j]?) :
    Together parts i j := by
  rcases le_total i j with hij | hji
  · exact h.together i j hij hj (fun l hil hlj => hcontiguous i j l hil hlj hj hsame)
  · obtain ⟨p, hp, hjp, hip⟩ := h.together j i hji hi
      (fun l hjl hli => hcontiguous j i l hjl hli hi hsame.symm)
    exact ⟨p, hp, hip, hjp⟩

theorem KeepsGroups.chunk_eq {parts : List (List ℕ)} (h : KeepsGroups seqlens uids dpSize parts)
    (hpos : 0 < dpSize) (hrows : rows.length = uids.length)
    (hsizes : ∀ g ∈ uidGroups seqlens uids, g.1.length = r) :
    chunk dpSize (gather rows parts.flatten) = .ok (parts.map (gather rows)) := by
  have hsize : ∀ p ∈ parts, p.length = (uidGroups seqlens uids).length * r / dpSize :=
    fun p hp => by rw [← h.sizes r hsizes p hp, Nat.mul_div_cancel _ hpos]
  have hchunk := chunk_gather_flatten rows
    (List.length_pos_iff.mp (h.length_eq.symm ▸ hpos)) hsize
    (fun p hp i hi => hrows.symm ▸ List.mem_range.mp
      (h.flatten_perm.mem_iff.mp (List.mem_flatten_of_mem hp hi)))
  rwa [h.length_eq] at hchunk

theorem balanceBatch_of_groups (hgrouper : cfg.usePrefixGrouper = true)
    (hdp : getDpSize cfg.dpRankMapping = .ok dpSize) (hrows : rows.length = uids.length)
    (hlen : seqlens.length = uids.length) (hgroups : dpSize ≤ uids.dedup.length)
    {parts : List (List ℕ)}
    (hparts : globalPartitions cfg seqlens (some uids) dpSize = .ok parts) :
    KeepsGroups seqlens uids dpSize parts ∧ ∃ stats,
      balanceBatch cfg rows seqlens (some uids) =
        .ok (gather rows parts.flatten, parts, stats) := by
  have hpos := getDpSize_pos hdp
  have hkeeps := keepsGroups_of_ok hlen ((globalPartitions_prefixGrouper hgrouper).mp hparts).2
  have hdedup : uids.dedup.length ≤ uids.length := (List.dedup_sublist uids).length_le
  have hne : parts ≠ [] := List.length_pos_iff.mp (hkeeps.length_eq.symm ▸ hpos)
  have hflat : parts.flatten ≠ [] := by
    rw [← List.length_pos_iff, hkeeps.flatten_perm.length_eq, List.length_range]
    omega
  have hmore : parts.length ≤ seqlens.length := by
    rw [hkeeps.length_eq, hlen]
    exact hgroups.trans hdedup
  obtain ⟨stats, hout⟩ := balanceBatch_of_parts rows hdp hparts hne hflat hmore
    (fun i hi => hrows.symm ▸ List.mem_range.mp (hkeeps.flatten_perm.mem_iff.mp hi))
    (hrows.trans hlen.symm)
  have hordered : orderedPartitions cfg seqlens parts = parts := if_pos hgrouper
  rw [hordered] at hout
  exact ⟨hkeeps, stats, hout⟩

end Call

/-- With prefix sharing, on a batch that has the `r` samples of every prompt next
to one another, the call returns exactly when the prompts can be shared evenly.
The batch it leaves has the rows it had, `chunk` gives every rank the rows of its
partition, and all samples of a prompt are on one rank. -/
theorem balanceBatch_prefixGrouper {cfg : BalanceConfig} {rows : List α} {seqlens : List ℕ}
    {dpSize r : ℕ} (hgrouper : cfg.usePrefixGrouper = true)
    (hdp : getDpSize cfg.dpRankMapping = .ok dpSize) (hrows : rows.length = uids.length)
    (hlen : seqlens.length = uids.length) (hcontiguous : Contiguous uids) (hr : 0 < r)
    (hcount : ∀ u ∈ uids, uids.count u = r) :
    ((∃ out, balanceBatch cfg rows seqlens (some uids) = .ok out) ↔
      0 < uids.dedup.length ∧ dpSize ∣ uids.dedup.length) ∧
    ∀ reordered parts stats,
      balanceBatch cfg rows seqlens (some uids) = .ok (reordered, parts, stats) →
      reordered.Perm rows ∧ chunk dpSize reordered = .ok (parts.map (gather rows)) ∧
      Within
        (gap ((uidGroups seqlens uids).map (fun group => groupWorkload seqlens group.1)) true)
        (parts.map (load (seqlens.map calculateWorkload))) ∧
      ∀ i j, i < uids.length → j < uids.length → uids[i]? = uids[j]? → Together parts i j := by
  have hpos := getDpSize_pos hdp
  obtain ⟨hgroups, hsizes⟩ := length_uidGroups hlen hcontiguous hr hcount
  have hreturns := getGroupBalancedPartitions_returns hlen dpSize
  rw [hgroups] at hreturns
  have hcall : ∀ out, balanceBatch cfg rows seqlens (some uids) = .ok out → ∃ parts,
      globalPartitions cfg seqlens (some uids) dpSize = .ok parts ∧
      0 < dpSize ∧ dpSize ≤ uids.dedup.length ∧ dpSize ∣ uids.dedup.length := by
    intro out h
    rw [balanceBatch, hdp, ok_bind] at h
    obtain ⟨parts, hparts, -⟩ := bind_eq_ok.mp h
    exact ⟨parts, hparts,
      hreturns.mp ⟨parts, ((globalPartitions_prefixGrouper hgrouper).mp hparts).2⟩⟩
  constructor
  · constructor
    · rintro ⟨out, h⟩
      obtain ⟨parts, -, -, hle, hdvd⟩ := hcall out h
      exact ⟨hpos.trans_le hle, hdvd⟩
    · rintro ⟨hsome, hdvd⟩
      have hle := Nat.le_of_dvd hsome hdvd
      obtain ⟨parts, hgroup⟩ := hreturns.mpr ⟨hpos, hle, hdvd⟩
      obtain ⟨-, stats, hout⟩ := balanceBatch_of_groups hgrouper hdp hrows hlen hle
        ((globalPartitions_prefixGrouper hgrouper).mpr ⟨hdvd, hgroup⟩)
      exact ⟨_, hout⟩
  · intro reordered parts stats h
    obtain ⟨parts0, hparts, -, hle, -⟩ := hcall _ h
    obtain ⟨hkeeps, stats', hout⟩ := balanceBatch_of_groups hgrouper hdp hrows hlen hle hparts
    rw [hout] at h
    cases h
    exact ⟨gather_perm (hrows.symm ▸ hkeeps.flatten_perm), hkeeps.chunk_eq hpos hrows hsizes,
      hkeeps.within, fun i j hi hj hsame => hkeeps.together_of_contiguous hcontiguous hi hj hsame⟩

theorem contiguous_pairs : Contiguous [7, 7, 5, 5] := by
  have hall : ∀ j < 4, ∀ l ≤ j, ∀ i ≤ l, [7, 7, 5, 5][i]? = [7, 7, 5, 5][j]? →
      [7, 7, 5, 5][l]? = [7, 7, 5, 5][i]? := by
    decide
  exact fun i j l hil hlj hj => hall j hj l hlj i hil

theorem balanceBatch_prefixGrouper_pairs :
    chunk 2 [10, 11, 12, 13] = .ok [[10, 11], [12, 13]] ∧ Together [[0, 1], [2, 3]] 2 3 := by
  have h := (@balanceBatch_prefixGrouper ℕ ℕ _ [7, 7, 5, 5] (twoRanks true false) [10, 11, 12, 13]
    [4, 3, 2, 2] 2 2 rfl rfl rfl rfl
    contiguous_pairs (by decide) (by decide)).2 [10, 11, 12, 13] [[0, 1], [2, 3]]
    ⟨4, 7, 3, 4, 7, 11 / 2⟩ (by decide +kernel)
  exact ⟨h.2.1, h.2.2.2 2 3 (by decide) (by decide) rfl⟩

end RLCM.Balancing
