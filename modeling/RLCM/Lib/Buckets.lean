/-
# `RLCM.Lib.Buckets` — group sums without a table of groups

The groups are numbered, and every value is added to the entry of an array that
has its group's number.  What stands in an entry afterwards is the sum of the
group (`getD_indexAdd`), whatever way of numbering tells the groups apart
(`groupSum_relabel`), among them the rank of a label in the sorted list of all
labels (`getD_bincount_rank`).
-/
import Mathlib.Data.List.Dedup
import Mathlib.Order.Defs.LinearOrder
import RLCM.Lib.Grouping

namespace Buckets

open Grouping

variable {M : Type*} [AddCommMonoid M] {κ : Type*} [DecidableEq κ]

def indexAdd (acc : List M) (idx : List ℕ) (vals : List M) : List M :=
  (idx.zip vals).foldl (fun acc jv => acc.modify jv.1 (· + jv.2)) acc

/-- From zeros, with an entry for every index. -/
def bincount (idx : List ℕ) (weights : List M) : List M :=
  indexAdd (List.replicate ((idx.max?.map (· + 1)).getD 0) 0) idx weights

theorem getD_modify_add (acc : List M) {j : ℕ} (hj : j < acc.length) (i : ℕ) (v : M) :
    (acc.modify i (· + v)).getD j 0 = acc.getD j 0 + if i = j then v else 0 := by
  rw [List.getD_eq_getElem?_getD, List.getD_eq_getElem?_getD, List.getElem?_modify,
    List.getElem?_eq_getElem hj]
  split_ifs <;> simp

theorem getD_indexAdd (acc : List M) {j : ℕ} (hj : j < acc.length) (idx : List ℕ)
    (vals : List M) :
    (indexAdd acc idx vals).getD j 0 =
      acc.getD j 0 + groupSum Prod.fst Prod.snd (idx.zip vals) j := by
  rw [indexAdd]
  generalize idx.zip vals = pairs
  induction pairs generalizing acc with
  | nil => rw [List.foldl_nil, groupSum_nil, add_zero]
  | cons p pairs ih =>
      have hlen : j < (acc.modify p.1 (· + p.2)).length := by rwa [List.length_modify]
      rw [List.foldl_cons, ih _ hlen, getD_modify_add acc hj, groupSum_cons, add_assoc]

theorem length_indexAdd (acc : List M) (idx : List ℕ) (vals : List M) :
    (indexAdd acc idx vals).length = acc.length := by
  rw [indexAdd]
  generalize idx.zip vals = pairs
  induction pairs generalizing acc with
  | nil => rfl
  | cons p pairs ih => rw [List.foldl_cons, ih, List.length_modify]

theorem lt_length_bincount {idx : List ℕ} {j : ℕ} (hj : j ∈ idx) (weights : List M) :
    j < (bincount idx weights).length := by
  obtain ⟨m, hm⟩ := Option.isSome_iff_exists.mp (List.isSome_max?_of_mem hj)
  rw [bincount, length_indexAdd, List.length_replicate, hm]
  exact Nat.lt_succ_of_le ((List.max?_eq_some_iff.mp hm).2 j hj)

theorem getD_bincount {idx : List ℕ} {j : ℕ} (hj : j ∈ idx) (weights : List M) :
    (bincount idx weights).getD j 0 = groupSum Prod.fst Prod.snd (idx.zip weights) j := by
  have hlen := lt_length_bincount hj weights
  rw [bincount, length_indexAdd] at hlen
  have hzero : (List.replicate ((idx.max?.map (· + 1)).getD 0) (0 : M)).getD j 0 = 0 := by
    rw [List.getD_eq_getElem?_getD, List.getElem?_eq_getElem hlen, List.getElem_replicate,
      Option.getD_some]
  rw [bincount, getD_indexAdd _ hlen, hzero, zero_add]

theorem groupSum_relabel {f : κ → ℕ} {keys : List κ} {k : κ}
    (hinj : ∀ k' ∈ keys, f k' = f k → k' = k) (vals : List M) :
    groupSum Prod.fst Prod.snd ((keys.map f).zip vals) (f k) =
      groupSum Prod.fst Prod.snd (keys.zip vals) k := by
  induction keys generalizing vals with
  | nil => rfl
  | cons key keys ih =>
      cases vals with
      | nil => rfl
      | cons v vals =>
          have htail := ih (fun k' hk' => hinj k' (List.mem_cons_of_mem _ hk')) vals
          have hhead : f key = f k ↔ key = k :=
            ⟨hinj key List.mem_cons_self, fun h => h ▸ rfl⟩
          rw [List.map_cons, List.zip_cons_cons, List.zip_cons_cons, groupSum_cons, groupSum_cons,
            htail]
          simp only [hhead]

section Rank

variable {ι : Type*} [LinearOrder ι]

def rank (labels : List ι) (k : ι) : ℕ := (labels.dedup.mergeSort (· ≤ ·)).idxOf k

def uniqueInverse (labels : List ι) : List ℕ := labels.map (rank labels)

theorem rank_inj {labels : List ι} {k k' : ι} (hk : k ∈ labels)
    (h : rank labels k' = rank labels k) : k' = k := by
  have hmem : k ∈ labels.dedup.mergeSort (· ≤ ·) :=
    List.mem_mergeSort.mpr (List.mem_dedup.mpr hk)
  exact ((List.idxOf_inj hmem).mp h.symm).symm

theorem getD_bincount_rank {labels : List ι} {k : ι} (hk : k ∈ labels) (weights : List M) :
    (bincount (uniqueInverse labels) weights).getD (rank labels k) 0 =
      groupSum Prod.fst Prod.snd (labels.zip weights) k := by
  have hmem : rank labels k ∈ uniqueInverse labels := List.mem_map_of_mem hk
  rw [getD_bincount hmem, uniqueInverse, groupSum_relabel (fun k' _ h => rank_inj hk h)]

end Rank

end Buckets
