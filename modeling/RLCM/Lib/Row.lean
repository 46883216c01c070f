/-
# `RLCM.Lib.Row` — one row of a token-level tensor

A tensor of shape `(n, L)` is a list of `n` rows, each a function on `Fin L`.
The lemmas are about rows that are zero except at one position, the way
outcome rewards are stored, and about masks that are a run of ones followed by
zeros.
-/
import Mathlib.Algebra.BigOperators.Fin
import Mathlib.Data.List.FinRange
import Mathlib.Data.Rat.Floor

namespace Row

variable {L : ℕ}

/-- `row[pos] = x` on a row of zeros. -/
def single (pos : Fin L) (x : ℚ) : Fin L → ℚ := Function.update 0 pos x

/-- `row.nonzero()`, in ascending order. -/
def nonzero (mask : Fin L → ℕ) : List (Fin L) := (List.finRange L).filter (mask · ≠ 0)

def sum {α : Type*} [AddCommMonoid α] (row : Fin L → α) : α := ∑ t, row t

@[simp] theorem single_self (pos : Fin L) (x : ℚ) : single pos x pos = x := by
  simp [single]

theorem single_of_ne {pos t : Fin L} (h : t ≠ pos) (x : ℚ) : single pos x t = 0 := by
  simp [single, h]

@[simp] theorem single_zero (pos : Fin L) : single pos 0 = 0 := by
  funext t
  by_cases h : t = pos
  · subst h
    simp
  · simp [single_of_ne h]

@[simp] theorem sum_zero : sum (0 : Fin L → ℚ) = 0 := by
  simp [sum]

@[simp] theorem sum_single (pos : Fin L) (x : ℚ) : sum (single pos x) = x := by
  rw [sum, Finset.sum_eq_single pos (fun t _ ht => single_of_ne ht x) (by simp), single_self]

theorem mem_nonzero {mask : Fin L → ℕ} {t : Fin L} : t ∈ nonzero mask ↔ mask t ≠ 0 := by
  simp [nonzero]

theorem nonzero_eq_nil {mask : Fin L → ℕ} : nonzero mask = [] ↔ ∀ t, mask t = 0 := by
  simp [nonzero, List.filter_eq_nil_iff]

/-! ## Prefix masks -/

/-- The mask is `n` ones followed by zeros. -/
def IsPrefix (mask : Fin L → ℕ) (n : ℕ) : Prop :=
  n ≤ L ∧ ∀ t, mask t = if t.val < n then 1 else 0

theorem sum_of_isPrefix {mask : Fin L → ℕ} {n : ℕ} (h : IsPrefix mask n) : sum mask = n := by
  have hmask : mask = fun t : Fin L => if t.val < n then 1 else 0 := funext h.2
  rw [sum, hmask, Finset.sum_boole]
  have hcard : (Finset.univ.filter (fun t : Fin L => t.val < n)).card = n := by
    rw [Fin.card_filter_val_lt]
    exact min_eq_right h.1
  exact_mod_cast hcard

theorem getLast?_of_greatest {xs : List (Fin L)} (hasc : xs.Pairwise (· < ·)) {x : Fin L}
    (hmem : x ∈ xs) (hmax : ∀ y ∈ xs, y ≤ x) : xs.getLast? = some x := by
  obtain ⟨pre, post, rfl⟩ := List.append_of_mem hmem
  have hpost : post = [] := by
    cases post with
    | nil => rfl
    | cons y post =>
        have hlt : x < y := by
          have := (List.pairwise_append.mp hasc).2.1
          exact (List.pairwise_cons.mp this).1 y List.mem_cons_self
        exact absurd (hmax y (by simp)) (not_le.mpr hlt)
  subst hpost
  simp

theorem nonzero_pairwise (mask : Fin L → ℕ) : (nonzero mask).Pairwise (· < ·) :=
  List.Pairwise.filter _ (List.pairwise_lt_finRange L)

theorem getLast?_nonzero_of_isPrefix {mask : Fin L → ℕ} {n : ℕ} (h : IsPrefix mask n)
    (hn : 0 < n) (hL : n - 1 < L) : (nonzero mask).getLast? = some ⟨n - 1, hL⟩ := by
  refine getLast?_of_greatest (nonzero_pairwise mask) ?_ ?_
  · rw [mem_nonzero, h.2, if_pos (by simpa using by omega)]
    exact one_ne_zero
  · intro t ht
    rw [mem_nonzero, h.2] at ht
    have hlt : t.val < n := by
      by_contra hge
      exact ht (if_neg hge)
    exact Fin.le_def.mpr (by simpa using by omega)

end Row
