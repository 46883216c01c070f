/-
# `RLCM.Lib.Scatter` — writing results back by index

A computation that handles its items in an order of its own writes every result
to the place of its item.  If the places are all places, each once, and every
result belongs to its place, the order does not matter: `scatter_of_perm`.
-/
import Mathlib.Data.List.Perm.Basic
import Mathlib.Data.List.Nodup
import Mathlib.Data.List.Range

namespace Scatter

variable {α : Type*}

/-- The loop `for i, x in writes: xs[i] = x`. -/
def scatter (xs : List α) (writes : List (ℕ × α)) : List α :=
  writes.foldl (fun xs w => xs.set w.1 w.2) xs

@[simp] theorem scatter_nil (xs : List α) : scatter xs [] = xs := rfl

theorem scatter_cons (xs : List α) (w : ℕ × α) (writes : List (ℕ × α)) :
    scatter xs (w :: writes) = scatter (xs.set w.1 w.2) writes := rfl

theorem scatter_append (xs : List α) (writes writes' : List (ℕ × α)) :
    scatter xs (writes ++ writes') = scatter (scatter xs writes) writes' := by
  rw [scatter, List.foldl_append]
  rfl

@[simp] theorem length_scatter (xs : List α) (writes : List (ℕ × α)) :
    (scatter xs writes).length = xs.length := by
  induction writes generalizing xs with
  | nil => rfl
  | cons w writes ih => rw [scatter_cons, ih, List.length_set]

/-- A place nothing is written to keeps its value. -/
theorem getElem?_scatter_of_notMem {writes : List (ℕ × α)} {i : ℕ}
    (h : i ∉ writes.map Prod.fst) (xs : List α) : (scatter xs writes)[i]? = xs[i]? := by
  induction writes generalizing xs with
  | nil => rfl
  | cons w writes ih =>
      rw [List.map_cons, List.mem_cons, not_or] at h
      rw [scatter_cons, ih h.2, List.getElem?_set_ne (Ne.symm h.1)]

/-- A place that is written to once holds what was written. -/
theorem getElem?_scatter_of_mem {writes : List (ℕ × α)} (hnodup : (writes.map Prod.fst).Nodup)
    {i : ℕ} {x : α} (h : (i, x) ∈ writes) {xs : List α} (hi : i < xs.length) :
    (scatter xs writes)[i]? = some x := by
  induction writes generalizing xs with
  | nil => cases h
  | cons w writes ih =>
      rw [List.map_cons, List.nodup_cons] at hnodup
      rw [scatter_cons]
      rcases List.mem_cons.mp h with rfl | h
      · rw [getElem?_scatter_of_notMem hnodup.1, List.getElem?_set_self hi]
      · refine ih hnodup.2 h ?_
        rwa [List.length_set]

/-- Every place written once with its own result. -/
theorem scatter_of_perm (xs : List α) {order : List ℕ}
    (hperm : order.Perm (List.range xs.length)) (result : ℕ → α) :
    scatter xs (order.map (fun i => (i, result i))) = (List.range xs.length).map result := by
  have hkeys : (order.map (fun i => (i, result i))).map Prod.fst = order := by
    rw [List.map_map]
    exact List.map_id order
  have hnodup : ((order.map (fun i => (i, result i))).map Prod.fst).Nodup := by
    rw [hkeys]
    exact hperm.nodup_iff.mpr List.nodup_range
  apply List.ext_getElem?
  intro i
  by_cases hi : i < xs.length
  · have hmem : i ∈ order := hperm.mem_iff.mpr (List.mem_range.mpr hi)
    rw [getElem?_scatter_of_mem hnodup (List.mem_map.mpr ⟨i, hmem, rfl⟩) hi]
    simp [hi]
  · rw [List.getElem?_eq_none (by simpa using hi), List.getElem?_eq_none (by simpa using hi)]

end Scatter
