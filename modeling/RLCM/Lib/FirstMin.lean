/-
# `RLCM.Lib.FirstMin` — the first smallest value of a sequence, found on the way

A loop that keeps the best value so far and replaces it only by a strictly
smaller one holds, after `n` values, the first of the smallest among them
(`IsFirstMin`).  A value that replaces the best is one that is smaller than all
before it (`Improves`); a loop with a patience stops where the last few values
all failed to (`Stalled`).
-/
import Mathlib.Order.Basic
import Mathlib.Algebra.Order.Ring.Nat

namespace FirstMin

variable {L : Type*} [LinearOrder L] {f : ℕ → L} {n e i : ℕ}

/-- Among the first `n` values, the one at `e` is the smallest, and the first
such. -/
structure IsFirstMin (f : ℕ → L) (n e : ℕ) : Prop where
  lt : e < n
  le : ∀ i < n, f e ≤ f i
  first : ∀ i < e, f e < f i

/-- The value at `i` is smaller than all before it. -/
def Improves (f : ℕ → L) (i : ℕ) : Prop := ∀ j < i, f i < f j

/-- The last `patience` values up to the one at `k` did not improve. -/
def Stalled (f : ℕ → L) (patience k : ℕ) : Prop :=
  patience ≤ k + 1 ∧ ∀ i ≤ k, k < i + patience → ¬ Improves f i

theorem IsFirstMin.congr {g : ℕ → L} (h : IsFirstMin f n e) (hfg : ∀ i < n, f i = g i) :
    IsFirstMin g n e where
  lt := h.lt
  le := by
    intro i hi
    rw [← hfg e h.lt, ← hfg i hi]
    exact h.le i hi
  first := by
    intro i hi
    rw [← hfg e h.lt, ← hfg i (hi.trans h.lt)]
    exact h.first i hi

/-! ## The next value -/

theorem isFirstMin_one (f : ℕ → L) : IsFirstMin f 1 0 where
  lt := Nat.zero_lt_one
  le := fun i hi => by rw [Nat.lt_one_iff.mp hi]
  first := fun i hi => absurd hi (Nat.not_lt_zero i)

/-- A smaller value becomes the best. -/
theorem IsFirstMin.replace (h : IsFirstMin f n e) (hlt : f n < f e) :
    IsFirstMin f (n + 1) n where
  lt := Nat.lt_succ_self n
  le := by
    intro i hi
    rcases Nat.lt_succ_iff_lt_or_eq.mp hi with hi | rfl
    · exact (hlt.trans_le (h.le i hi)).le
    · exact le_rfl
  first := fun i hi => hlt.trans_le (h.le i hi)

/-- Any other value leaves the best where it is. -/
theorem IsFirstMin.keep (h : IsFirstMin f n e) (hle : ¬ f n < f e) :
    IsFirstMin f (n + 1) e where
  lt := Nat.lt_succ_of_lt h.lt
  le := by
    intro i hi
    rcases Nat.lt_succ_iff_lt_or_eq.mp hi with hi | rfl
    · exact h.le i hi
    · exact not_lt.mp hle
  first := h.first

/-! ## Improvements -/

theorem IsFirstMin.improves (h : IsFirstMin f n e) : Improves f e := h.first

theorem IsFirstMin.not_improves (h : IsFirstMin f n e) (hei : e < i) (hi : i < n) :
    ¬ Improves f i :=
  fun himproves => not_lt.mpr (h.le i hi) (himproves e hei)

theorem IsFirstMin.stalled_iff {patience k : ℕ} (h : IsFirstMin f (k + 1) e) :
    Stalled f patience k ↔ e + patience ≤ k := by
  have hek : e ≤ k := Nat.lt_succ_iff.mp h.lt
  constructor
  · rintro ⟨-, hnone⟩
    by_contra hlate
    exact hnone e hek (by omega) h.improves
  · intro hback
    refine ⟨by omega, fun i hik hlast => ?_⟩
    exact h.not_improves (by omega) (Nat.lt_succ_of_le hik)

theorem IsFirstMin.unique {e' : ℕ} (h : IsFirstMin f n e) (h' : IsFirstMin f n e') : e = e' := by
  rcases Nat.lt_trichotomy e e' with hlt | heq | hgt
  · exact absurd (h'.first e hlt) (not_lt.mpr (h.le e' h'.lt))
  · exact heq
  · exact absurd (h.first e' hgt) (not_lt.mpr (h'.le e h.lt))

end FirstMin
