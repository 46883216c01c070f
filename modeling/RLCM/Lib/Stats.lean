/-
# `RLCM.Lib.Stats` — means of finite lists of numbers

`mean` is `np.mean` of a non-empty list in exact arithmetic; on the empty list
it is `0`, and no modelled function takes the mean of an empty list without
asking first.  The functions exact numbers do not have (`exp`, `log`, square
root) are the fields of `Elementary`, a parameter wherever they are used.
-/
import Mathlib.Algebra.BigOperators.Group.List.Basic
import Mathlib.Algebra.Order.BigOperators.Group.List
import Mathlib.Data.Rat.Floor
import Mathlib.Tactic.Ring
import RLCM.Lib.Averaging

namespace Stats

open Averaging

variable {α : Type*}

/-- The functions of `torch` and `numpy` that exact numbers do not have. -/
structure Elementary where
  exp : ℚ → ℚ
  log : ℚ → ℚ
  sqrt : ℚ → ℚ

/-- `np.mean`. -/
def mean (xs : List ℚ) : ℚ := xs.sum / xs.length

@[simp] theorem mean_singleton (x : ℚ) : mean [x] = x := by simp [mean]

def squaredDeviations (xs : List ℚ) : ℚ := (xs.map (fun x => (x - mean xs) ^ 2)).sum

/-- `np.std`, the population standard deviation. -/
def populationStd (fns : Elementary) (xs : List ℚ) : ℚ :=
  fns.sqrt (squaredDeviations xs / xs.length)

/-- `torch.std`, the sample standard deviation. -/
def sampleStd (fns : Elementary) (xs : List ℚ) : ℚ :=
  fns.sqrt (squaredDeviations xs / (xs.length - 1))

/-- `x.clamp(lo, hi)`. -/
def clamp (lo hi x : ℚ) : ℚ := min (max x lo) hi

theorem sum_indicator (p : α → Bool) (xs : List α) :
    (xs.map (fun x => if p x then (1 : ℚ) else 0)).sum = xs.countP p := by
  induction xs with
  | nil => simp
  | cons x xs ih =>
      rw [List.map_cons, List.sum_cons, ih, List.countP_cons]
      by_cases h : p x = true
      · simp [h, add_comm]
      · simp [h]

theorem mean_indicator (p : α → Bool) (xs : List α) :
    mean (xs.map (fun x => if p x then (1 : ℚ) else 0)) = xs.countP p / xs.length := by
  rw [mean, sum_indicator, List.length_map]

/-- When one property implies another, they are counted equally often only if
they agree everywhere. -/
theorem countP_eq_countP_iff {p q : α → Bool} {xs : List α}
    (h : ∀ x ∈ xs, q x = true → p x = true) :
    xs.countP p = xs.countP q ↔ ∀ x ∈ xs, p x = q x := by
  constructor
  · induction xs with
    | nil => intro _ x hx; cases hx
    | cons y ys ih =>
        have hle : ys.countP q ≤ ys.countP p :=
          List.countP_mono_left (fun x hx => h x (List.mem_cons_of_mem _ hx))
        have hy := h y List.mem_cons_self
        intro hcount
        rw [List.countP_cons, List.countP_cons] at hcount
        have hhead : p y = q y := by
          cases hp : p y with
          | false =>
              cases hq : q y with
              | false => rfl
              | true => exact absurd (hy hq) (by simp [hp])
          | true =>
              cases hq : q y with
              | true => rfl
              | false =>
                  simp only [hp, hq] at hcount
                  exact absurd hcount (by simpa using by omega)
        rw [hhead] at hcount
        have htail := ih (fun x hx => h x (List.mem_cons_of_mem _ hx))
          (Nat.add_right_cancel hcount)
        intro x hx
        rcases List.mem_cons.mp hx with rfl | hx
        · exact hhead
        · exact htail x hx
  · intro hall
    exact List.countP_congr (fun x hx => by rw [hall x hx])

theorem eq_of_sum_eq {f g : α → ℕ} {xs : List α} (hle : ∀ x ∈ xs, f x ≤ g x)
    (h : (xs.map f).sum = (xs.map g).sum) : ∀ x ∈ xs, f x = g x := by
  intro x hx
  by_contra hne
  have hlt : (xs.map f).sum < (xs.map g).sum :=
    List.sum_lt_sum f g hle ⟨x, hx, lt_of_le_of_ne (hle x hx) hne⟩
  exact hlt.ne h

/-- The mean of an indicator is the fraction of another property, every case of
which is counted, exactly when the two properties agree on the list. -/
theorem mean_indicator_eq_iff {p q : α → Bool} {xs : List α} (hne : xs ≠ []) :
    (mean (xs.map (fun x => if p x then (1 : ℚ) else 0)) = xs.countP q / xs.length ∧
        ∀ x ∈ xs, q x = true → p x = true) ↔ ∀ x ∈ xs, p x = q x := by
  have hlen : (xs.length : ℚ) ≠ 0 := by simpa using hne
  rw [mean_indicator, div_left_inj' hlen, Nat.cast_inj]
  constructor
  · rintro ⟨hcount, himp⟩
    exact (countP_eq_countP_iff himp).mp hcount
  · intro hagree
    exact ⟨List.countP_congr (fun x hx => by rw [hagree x hx]),
      fun x hx hq => by rw [hagree x hx, hq]⟩

theorem length_mul_mean (xs : List ℚ) : xs.length * mean xs = xs.sum := by
  rcases eq_or_ne xs [] with rfl | hne
  · simp
  · have hlen : (xs.length : ℚ) ≠ 0 := by simpa using hne
    rw [mean, mul_div_cancel₀ _ hlen]

theorem mean_of_forall_eq {xs : List ℚ} {c : ℚ} (hne : xs ≠ []) (h : ∀ x ∈ xs, x = c) :
    mean xs = c := by
  rw [List.eq_replicate_of_mem h]
  exact isAverage_mean.const c (fun hzero => hne (List.length_eq_zero_iff.mp hzero))

theorem exists_pos_of_mean_pos {xs : List ℚ} (h : 0 < mean xs) : ∃ x ∈ xs, 0 < x := by
  by_contra hnone
  push Not at hnone
  have hsum : xs.sum ≤ 0 := by simpa using List.sum_le_card_nsmul xs 0 hnone
  have hmean : mean xs ≤ 0 := div_nonpos_of_nonpos_of_nonneg hsum (by positivity)
  exact absurd h (not_lt.mpr hmean)

/-! ## Deviations from the mean -/

theorem sum_map_sub (c : ℚ) (xs : List ℚ) :
    (xs.map (fun x => x - c)).sum = xs.sum - xs.length * c := by
  induction xs with
  | nil => simp
  | cons x xs ih =>
      rw [List.map_cons, List.sum_cons, List.sum_cons, List.length_cons, ih]
      push_cast
      ring

theorem sum_sub_mean (xs : List ℚ) : (xs.map (fun x => x - mean xs)).sum = 0 := by
  rw [sum_map_sub, length_mul_mean, sub_self]

/-- A list of numbers that are not negative has a positive mean exactly if it has a positive
entry. -/
theorem mean_pos_iff {xs : List ℚ} (h : ∀ x ∈ xs, 0 ≤ x) : 0 < mean xs ↔ ∃ x ∈ xs, 0 < x := by
  constructor
  · exact exists_pos_of_mean_pos
  · rintro ⟨x, hx, hpos⟩
    have hlen : 0 < xs.length := List.length_pos_of_mem hx
    have hsum : x ≤ xs.sum := List.single_le_sum h x hx
    exact div_pos (hpos.trans_le hsum) (Nat.cast_pos.mpr hlen)

theorem mean_mem {xs : List ℚ} {lo hi : ℚ} (hne : xs ≠ []) (h : ∀ x ∈ xs, lo ≤ x ∧ x ≤ hi) :
    lo ≤ mean xs ∧ mean xs ≤ hi := by
  exact ⟨isAverage_mean.lower hne (fun x hx => (h x hx).1),
    isAverage_mean.upper hne (fun x hx => (h x hx).2)⟩

theorem mean_map_sub_left {xs : List ℚ} (hne : xs ≠ []) (c : ℚ) :
    mean (xs.map (fun x => c - x)) = c - mean xs := by
  have hlen : (xs.length : ℚ) ≠ 0 := by simpa using hne
  have hneg : (xs.map (fun x => c - x)).sum = xs.length * c - xs.sum := by
    have hsub := sum_map_sub c xs
    have hflip : (xs.map (fun x => c - x)).sum = -(xs.map (fun x => x - c)).sum := by
      rw [List.sum_neg, List.map_map]
      congr 1
      exact List.map_congr_left (fun x _ => (neg_sub x c).symm)
    rw [hflip, hsub, neg_sub]
  rw [mean, mean, hneg, List.length_map, sub_div, mul_div_cancel_left₀ _ hlen]

/-- Two weightings of two numbers, in different proportions, have one mean
exactly when the numbers are the same. -/
theorem weightings_eq_iff {w₁ w₂ v₁ v₂ x y : ℚ} (hw : w₁ + w₂ ≠ 0) (hv : v₁ + v₂ ≠ 0)
    (hne : w₁ * v₂ ≠ v₁ * w₂) :
    (w₁ * x + w₂ * y) / (w₁ + w₂) = (v₁ * x + v₂ * y) / (v₁ + v₂) ↔ x = y := by
  have hdiff : (w₁ * x + w₂ * y) * (v₁ + v₂) - (v₁ * x + v₂ * y) * (w₁ + w₂) =
      (w₁ * v₂ - v₁ * w₂) * (x - y) := by
    ring
  rw [div_eq_div_iff hw hv, ← sub_eq_zero, hdiff,
    mul_eq_zero_iff_left (sub_ne_zero.mpr hne), sub_eq_zero]

theorem mean_append (xs ys : List ℚ) : mean (xs ++ ys) =
    (xs.length * mean xs + ys.length * mean ys) / (xs.length + ys.length) := by
  rw [length_mul_mean, length_mul_mean, mean, List.sum_append, List.length_append, Nat.cast_add]

theorem mean_append_eq_iff {xs ys : List ℚ} (hxs : xs ≠ []) :
    mean (xs ++ ys) = mean ys ↔ mean xs = mean ys := by
  have hx : (0 : ℚ) < xs.length := Nat.cast_pos.mpr (List.length_pos_iff.mpr hxs)
  have hweights : (xs.length * mean xs + ys.length * mean ys) / (xs.length + ys.length) =
      (0 * mean xs + 1 * mean ys) / (0 + 1) ↔ mean xs = mean ys := by
    refine weightings_eq_iff (by positivity) (by norm_num) ?_
    rw [mul_one, zero_mul]
    exact hx.ne'
  rwa [zero_mul, one_mul, zero_add, zero_add, div_one, ← mean_append] at hweights

theorem clamp_mem {lo hi : ℚ} (h : lo ≤ hi) (x : ℚ) : lo ≤ clamp lo hi x ∧ clamp lo hi x ≤ hi :=
  ⟨le_min (le_max_right x lo) h, min_le_right _ _⟩

theorem clamp_mono {lo hi x y : ℚ} (h : x ≤ y) : clamp lo hi x ≤ clamp lo hi y :=
  min_le_min_right hi (max_le_max_right lo h)

end Stats
