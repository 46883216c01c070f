/-
# `RLCM.Lib.Reindex` — undoing a reordering

A computation that handles its items in the order `order` gets its results in
that order.  To bring them back, result `i` must be read at the place of `i` in
`order`.  The list of these places (`places`) is what sorting the indices of
`order` gives (`argsort_eq_places`), and also what the loop gives that writes
`i` to `order[i]` (`scatter_zipIdx`).
-/
import Mathlib.Data.List.Sort
import Mathlib.Data.List.GetD
import RLCM.Lib.Scatter

namespace Reindex

variable {α : Type*}

/-- The place of every index in `order`. -/
def places (order : List ℕ) : List ℕ := (List.range order.length).map order.idxOf

/-- The indices of a list, sorted by what stands there (equal entries in their
order). -/
def argsort (xs : List ℕ) : List ℕ :=
  (List.range xs.length).insertionSort (fun i j => xs.getD i 0 ≤ xs.getD j 0)

/-- `ys` are the results `xs`, one for every index of `order`, put back. -/
def Restores (order : List ℕ) (xs ys : List α) : Prop :=
  ys.length = order.length ∧ ∀ i x, (i, x) ∈ order.zip xs → ys[i]? = some x

variable {order : List ℕ}

theorem nodup_of_perm_range (h : order.Perm (List.range order.length)) : order.Nodup :=
  h.nodup_iff.mpr List.nodup_range

theorem lt_of_perm_range (h : order.Perm (List.range order.length)) {i : ℕ} (hi : i ∈ order) :
    i < order.length := List.mem_range.mp (h.mem_iff.mp hi)

/-! ## Sorting the indices -/

theorem argsort_pairwise (xs : List ℕ) :
    ((argsort xs).map (fun i => xs.getD i 0)).Pairwise (· ≤ ·) := by
  have : Std.Total (fun i j : ℕ => xs.getD i 0 ≤ xs.getD j 0) := ⟨fun i j => le_total _ _⟩
  have : IsTrans ℕ (fun i j => xs.getD i 0 ≤ xs.getD j 0) := ⟨fun _ _ _ => le_trans⟩
  exact List.pairwise_map.mpr (List.pairwise_insertionSort _ _)

theorem argsort_perm (xs : List ℕ) : (argsort xs).Perm (List.range xs.length) :=
  List.perm_insertionSort _ _

theorem map_argsort (h : order.Perm (List.range order.length)) :
    (argsort order).map (fun i => order.getD i 0) = List.range order.length := by
  have hread : (List.range order.length).map (fun i => order.getD i 0) = order := by
    refine List.ext_getElem (by simp) (fun i hi _ => ?_)
    have hlt : i < order.length := by simpa using hi
    rw [List.getElem_map, List.getElem_range, List.getD_eq_getElem _ _ hlt]
  have hperm : ((argsort order).map (fun i => order.getD i 0)).Perm
      (List.range order.length) := by
    have := (argsort_perm order).map (fun i => order.getD i 0)
    rw [hread] at this
    exact this.trans h
  exact hperm.eq_of_pairwise (fun _ _ _ _ hab hba => le_antisymm hab hba)
    (argsort_pairwise order) (List.pairwise_lt_range.imp le_of_lt)

/-- Sorting the indices of a permutation gives the places. -/
theorem argsort_eq_places (h : order.Perm (List.range order.length)) :
    argsort order = places order := by
  have hlen : (argsort order).length = order.length := by
    rw [(argsort_perm order).length_eq, List.length_range]
  refine List.ext_getElem (by simp [places, hlen]) (fun i hi _ => ?_)
  have hplace : (argsort order)[i] < order.length := by
    have hmem : (argsort order)[i] ∈ argsort order := List.getElem_mem hi
    exact List.mem_range.mp ((argsort_perm order).mem_iff.mp hmem)
  -- what stands at that place is `i`, and it stands nowhere else
  have hvalue : order[(argsort order)[i]] = i := by
    have := List.getElem_of_eq (map_argsort h) (by simpa using hi)
    rw [List.getElem_map, List.getElem_range, List.getD_eq_getElem _ _ hplace] at this
    exact this
  calc (argsort order)[i]
      = order.idxOf (order[(argsort order)[i]]) :=
        ((nodup_of_perm_range h).idxOf_getElem _ hplace).symm
    _ = order.idxOf i := by rw [hvalue]
    _ = (places order)[i] := by simp [places]

/-! ## Writing the places -/

theorem zipIdx_eq_map_idxOf (h : order.Nodup) :
    order.zipIdx = order.map (fun i => (i, order.idxOf i)) := by
  refine List.ext_getElem (by simp) (fun k hk _ => ?_)
  have hlt : k < order.length := by simpa using hk
  rw [List.getElem_zipIdx, List.getElem_map, h.idxOf_getElem k hlt, Nat.zero_add]

theorem scatter_zipIdx (h : order.Perm (List.range order.length)) :
    Scatter.scatter order order.zipIdx = places order := by
  rw [zipIdx_eq_map_idxOf (nodup_of_perm_range h)]
  exact Scatter.scatter_of_perm order h order.idxOf

/-! ## Reading at the places -/

theorem restores_places (h : order.Perm (List.range order.length)) {xs : List α}
    (hlen : xs.length = order.length) (default : α) :
    Restores order xs ((places order).map (fun i => xs.getD i default)) := by
  refine ⟨by simp [places], ?_⟩
  intro i x hmem
  obtain ⟨k, hk, hzip⟩ := List.getElem_of_mem hmem
  have hlt : k < order.length := by
    rw [List.length_zip, hlen, min_self] at hk
    exact hk
  rw [List.getElem_zip] at hzip
  obtain ⟨rfl, rfl⟩ := Prod.mk.inj hzip
  have hi : order[k] < order.length := lt_of_perm_range h (List.getElem_mem hlt)
  have hplace : order.idxOf order[k] = k := (nodup_of_perm_range h).idxOf_getElem k hlt
  rw [List.getElem?_map, places, List.getElem?_map, List.getElem?_range hi]
  show some (xs.getD (order.idxOf order[k]) default) = some xs[k]
  rw [hplace, List.getD_eq_getElem _ _ (hlen ▸ hlt)]

theorem restores_range {xs : List α} {n : ℕ} (hlen : xs.length = n) :
    Restores (List.range n) xs xs := by
  refine ⟨by rw [hlen, List.length_range], ?_⟩
  intro i x hmem
  obtain ⟨k, hk, hzip⟩ := List.getElem_of_mem hmem
  rw [List.getElem_zip, List.getElem_range] at hzip
  obtain ⟨rfl, rfl⟩ := Prod.mk.inj hzip
  exact List.getElem?_eq_getElem _

/-! ## Results that come block by block -/

theorem mem_zip_flatMap {ι : Type*} {rows : ι → List ℕ} {results : ι → List α} {blocks : List ι}
    (hlen : ∀ b ∈ blocks, (rows b).length = (results b).length) {b : ι} (hb : b ∈ blocks)
    {pair : ℕ × α} (hpair : pair ∈ (rows b).zip (results b)) :
    pair ∈ (blocks.flatMap rows).zip (blocks.flatMap results) := by
  induction blocks with
  | nil => cases hb
  | cons b' blocks ih =>
      rw [List.flatMap_cons, List.flatMap_cons, List.zip_append (hlen b' List.mem_cons_self)]
      rcases List.mem_cons.mp hb with rfl | hb
      · exact List.mem_append_left _ hpair
      · exact List.mem_append_right _ (ih (fun b h => hlen b (List.mem_cons_of_mem _ h)) hb)

end Reindex
