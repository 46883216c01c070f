/-
# `RLCM.Lib.Grouping` — sums over groups, and what grouping does to them

Samples are grouped by a key; every group contributes the absolute value of its
sum.  The finer the groups, the less cancels: `groupedAbs_le_of_coarser`.  One
group gives the absolute value of the whole sum, and no grouping exceeds the sum
of the absolute values.

Values live in any ordered abelian group, keys in any type.
-/
import Mathlib.Algebra.Order.BigOperators.Group.Finset
import Mathlib.Algebra.Order.BigOperators.Group.List
import Mathlib.Algebra.BigOperators.Fin

namespace Grouping

variable {α κ κ' M : Type*} [DecidableEq κ] [DecidableEq κ']

section Sum

variable [AddCommMonoid M]

/-- The sum over the group of key `k`. -/
def groupSum (key : α → κ) (value : α → M) (xs : List α) (k : κ) : M :=
  ((xs.filter (fun x => key x = k)).map value).sum

@[simp] theorem groupSum_nil (key : α → κ) (value : α → M) (k : κ) :
    groupSum key value [] k = 0 := rfl

theorem groupSum_cons (key : α → κ) (value : α → M) (x : α) (xs : List α) (k : κ) :
    groupSum key value (x :: xs) k = (if key x = k then value x else 0) +
      groupSum key value xs k := by
  by_cases h : key x = k
  · simp [groupSum, h]
  · simp [groupSum, h]

theorem groupSum_perm {xs ys : List α} (h : xs.Perm ys) (key : α → κ) (value : α → M) (k : κ) :
    groupSum key value xs k = groupSum key value ys k :=
  ((h.filter _).map value).sum_eq

theorem sum_groupSum {keys : Finset κ} {key : α → κ} {xs : List α}
    (hkeys : ∀ x ∈ xs, key x ∈ keys) (value : α → M) :
    ∑ k ∈ keys, groupSum key value xs k = (xs.map value).sum := by
  induction xs with
  | nil => simp
  | cons x xs ih =>
      have hx : key x ∈ keys := hkeys x List.mem_cons_self
      have hhead : ∑ k ∈ keys, (if key x = k then value x else 0) = value x := by
        rw [Finset.sum_ite_eq, if_pos hx]
      simp only [groupSum_cons, Finset.sum_add_distrib, hhead, List.map_cons, List.sum_cons,
        ih (fun y hy => hkeys y (List.mem_cons_of_mem _ hy))]

theorem groupSum_eq_sum_finer {keys' : Finset κ'} {key : α → κ} {key' : α → κ'}
    {coarsen : κ' → κ} {xs : List α} (hkeys' : ∀ x ∈ xs, key' x ∈ keys')
    (hcoarsen : ∀ x ∈ xs, key x = coarsen (key' x)) (value : α → M) (k : κ) :
    groupSum key value xs k =
      ∑ k' ∈ keys' with coarsen k' = k, groupSum key' value xs k' := by
  induction xs with
  | nil => simp
  | cons x xs ih =>
      have hx : key' x ∈ keys' := hkeys' x List.mem_cons_self
      have hhead : ∑ k' ∈ keys' with coarsen k' = k, (if key' x = k' then value x else 0) =
          if key x = k then value x else 0 := by
        rw [Finset.sum_ite_eq, hcoarsen x List.mem_cons_self]
        simp [hx]
      simp only [groupSum_cons, Finset.sum_add_distrib, hhead,
        ih (fun y hy => hkeys' y (List.mem_cons_of_mem _ hy))
          (fun y hy => hcoarsen y (List.mem_cons_of_mem _ hy))]

end Sum

section Abs

variable [AddCommGroup M] [LinearOrder M] [IsOrderedAddMonoid M]

def groupedAbs (keys : Finset κ) (key : α → κ) (value : α → M) (xs : List α) : M :=
  ∑ k ∈ keys, |groupSum key value xs k|

omit [IsOrderedAddMonoid M] in
theorem groupedAbs_perm {xs ys : List α} (h : xs.Perm ys) (keys : Finset κ) (key : α → κ)
    (value : α → M) : groupedAbs keys key value xs = groupedAbs keys key value ys :=
  Finset.sum_congr rfl (fun k _ => by rw [groupSum_perm h])

theorem abs_sum_le_groupedAbs {keys : Finset κ} {key : α → κ} {xs : List α}
    (hkeys : ∀ x ∈ xs, key x ∈ keys) (value : α → M) :
    |(xs.map value).sum| ≤ groupedAbs keys key value xs := by
  rw [← sum_groupSum hkeys value]
  exact Finset.abs_sum_le_sum_abs _ _

theorem groupedAbs_le_of_coarser {keys : Finset κ} {keys' : Finset κ'} {key : α → κ}
    {key' : α → κ'} {xs : List α} (hkeys' : ∀ x ∈ xs, key' x ∈ keys') (coarsen : κ' → κ)
    (hcoarsen : ∀ x ∈ xs, key x = coarsen (key' x)) (hmaps : ∀ k' ∈ keys', coarsen k' ∈ keys)
    (value : α → M) : groupedAbs keys key value xs ≤ groupedAbs keys' key' value xs := by
  calc groupedAbs keys key value xs
      = ∑ k ∈ keys, |∑ k' ∈ keys' with coarsen k' = k, groupSum key' value xs k'| :=
        Finset.sum_congr rfl (fun k _ => by rw [groupSum_eq_sum_finer hkeys' hcoarsen])
    _ ≤ ∑ k ∈ keys, ∑ k' ∈ keys' with coarsen k' = k, |groupSum key' value xs k'| :=
        Finset.sum_le_sum (fun k _ => Finset.abs_sum_le_sum_abs _ _)
    _ = groupedAbs keys' key' value xs := Finset.sum_fiberwise_of_maps_to hmaps _

theorem abs_groupSum_le (key : α → κ) (value : α → M) (xs : List α) (k : κ) :
    |groupSum key value xs k| ≤ groupSum key (fun x => |value x|) xs k := by
  induction xs with
  | nil => simp
  | cons x xs ih =>
      rw [groupSum_cons, groupSum_cons]
      refine (abs_add_le _ _).trans (add_le_add ?_ ih)
      split_ifs
      · exact le_refl _
      · exact abs_zero.le

theorem groupedAbs_le_sum_abs {keys : Finset κ} {key : α → κ} {xs : List α}
    (hkeys : ∀ x ∈ xs, key x ∈ keys) (value : α → M) :
    groupedAbs keys key value xs ≤ (xs.map (fun x => |value x|)).sum := by
  rw [← sum_groupSum hkeys (fun x => |value x|)]
  exact Finset.sum_le_sum (fun k _ => abs_groupSum_le key value xs k)

end Abs

end Grouping
