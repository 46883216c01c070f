/-
# `RLCM.Lib.Averaging` — averages of non-empty lists

An average of a non-empty list does not fall when entries rise, and of equal
entries it is that entry (`IsAverage`); hence it lies between any bounds of the
entries.  The mean, the maximum and a sum with fixed weights are averages, and
what holds of them holds of averages of scaled row averages of a table
(`nested_mono`, `nested_lower`, `nested_upper`).
-/
import Mathlib.Algebra.BigOperators.Group.List.Basic
import Mathlib.Algebra.Order.BigOperators.Group.List
import Mathlib.Algebra.Order.Field.Basic
import Mathlib.Data.List.Forall2

namespace Averaging

variable {K : Type*} [LinearOrder K]

/-- Monotone in every entry, and the entry itself where all are equal. -/
structure IsAverage (f : List K → K) : Prop where
  mono : ∀ {xs ys : List K}, List.Forall₂ (· ≤ ·) xs ys → xs ≠ [] → f xs ≤ f ys
  const : ∀ {n : ℕ} (c : K), n ≠ 0 → f (List.replicate n c) = c

/-- Raising one entry. -/
theorem forall₂_set {xs : List K} {i : ℕ} {x y : K} (hx : xs[i]? = some x) (hxy : x ≤ y) :
    List.Forall₂ (· ≤ ·) xs (xs.set i y) := by
  induction xs generalizing i with
  | nil => cases hx
  | cons a xs ih =>
      cases i with
      | zero =>
          obtain rfl := Option.some.inj hx
          exact .cons hxy (List.forall₂_same.mpr fun _ _ => le_refl _)
      | succ i => exact .cons (le_refl a) (ih hx)

theorem forall₂_set_row {xss : List (List K)} {j : ℕ} {xs ys : List K} (hxs : xss[j]? = some xs)
    (h : List.Forall₂ (· ≤ ·) xs ys) :
    List.Forall₂ (List.Forall₂ (· ≤ ·)) xss (xss.set j ys) := by
  have hsame : ∀ zss : List (List K), List.Forall₂ (List.Forall₂ (· ≤ ·)) zss zss := fun zss =>
    List.forall₂_same.mpr fun _ _ => List.forall₂_same.mpr fun _ _ => le_refl _
  induction xss generalizing j with
  | nil => cases hxs
  | cons a xss ih =>
      cases j with
      | zero =>
          obtain rfl := Option.some.inj hxs
          exact .cons h (hsame xss)
      | succ j => exact .cons (List.forall₂_same.mpr fun _ _ => le_refl _) (ih hxs)

theorem exists_le_of_mem {xs ys : List K} (h : List.Forall₂ (· ≤ ·) xs ys) {x : K} (hx : x ∈ xs) :
    ∃ y ∈ ys, x ≤ y := by
  induction h with
  | nil => cases hx
  | cons hab _ ih =>
      rcases List.mem_cons.mp hx with rfl | hx
      · exact ⟨_, List.mem_cons_self, hab⟩
      · obtain ⟨y, hy, hxy⟩ := ih hx
        exact ⟨y, List.mem_cons_of_mem _ hy, hxy⟩

omit [LinearOrder K] in
theorem ne_nil_of_forall₂ {α β : Type*} {R : α → β → Prop} {xs : List α} {ys : List β}
    (h : List.Forall₂ R xs ys) (hxs : xs ≠ []) : ys ≠ [] := by
  rw [← List.length_pos_iff, ← h.length_eq]
  exact List.length_pos_iff.mpr hxs

/-! ## Bounds -/

theorem forall₂_replicate_left {xs : List K} {lo : K} (h : ∀ x ∈ xs, lo ≤ x) :
    List.Forall₂ (· ≤ ·) (List.replicate xs.length lo) xs := by
  induction xs with
  | nil => exact .nil
  | cons x xs ih =>
      obtain ⟨hx, hxs⟩ := List.forall_mem_cons.mp h
      exact .cons hx (ih hxs)

theorem forall₂_replicate_right {xs : List K} {hi : K} (h : ∀ x ∈ xs, x ≤ hi) :
    List.Forall₂ (· ≤ ·) xs (List.replicate xs.length hi) := by
  induction xs with
  | nil => exact .nil
  | cons x xs ih =>
      obtain ⟨hx, hxs⟩ := List.forall_mem_cons.mp h
      exact .cons hx (ih hxs)

namespace IsAverage

variable {f : List K → K} (hf : IsAverage f) {xs : List K}
include hf

theorem lower {lo : K} (hne : xs ≠ []) (h : ∀ x ∈ xs, lo ≤ x) : lo ≤ f xs := by
  have hlen : xs.length ≠ 0 := fun hzero => hne (List.length_eq_zero_iff.mp hzero)
  rw [← hf.const lo hlen]
  refine hf.mono (forall₂_replicate_left h) fun hnil => hlen ?_
  exact (List.replicate_eq_nil_iff _).mp hnil

theorem upper {hi : K} (hne : xs ≠ []) (h : ∀ x ∈ xs, x ≤ hi) : f xs ≤ hi := by
  have hlen : xs.length ≠ 0 := fun hzero => hne (List.length_eq_zero_iff.mp hzero)
  rw [← hf.const hi hlen]
  exact hf.mono (forall₂_replicate_right h) hne

end IsAverage

/-! ## The mean and the maximum -/

/-- A function that gives the largest entry. -/
theorem isAverage_of_max {f : List K → K} (hf : ∀ xs, xs ≠ [] → xs.max? = some (f xs)) :
    IsAverage f where
  mono := by
    intro xs ys h hne
    obtain ⟨hmem, -⟩ := List.max?_eq_some_iff.mp (hf xs hne)
    obtain ⟨-, hle⟩ := List.max?_eq_some_iff.mp (hf ys (ne_nil_of_forall₂ h hne))
    obtain ⟨y, hy, hxy⟩ := exists_le_of_mem h hmem
    exact hxy.trans (hle y hy)
  const := by
    intro n c hn
    have hne : List.replicate n c ≠ [] := fun h => hn ((List.replicate_eq_nil_iff _).mp h)
    obtain ⟨hmem, -⟩ := List.max?_eq_some_iff.mp (hf _ hne)
    exact List.eq_of_mem_replicate hmem

variable [Field K] [IsStrictOrderedRing K]

theorem isAverage_mean : IsAverage (fun xs : List K => xs.sum / xs.length) where
  mono := by
    intro xs ys h _
    rw [h.length_eq]
    exact div_le_div_of_nonneg_right h.sum_le_sum (Nat.cast_nonneg _)
  const := by
    intro n c hn
    have hlen : (n : K) ≠ 0 := Nat.cast_ne_zero.mpr hn
    rw [List.sum_replicate, List.length_replicate, nsmul_eq_mul]
    exact mul_div_cancel_left₀ c hlen

/-! ## Weighted sums -/

def weightedSum (ws xs : List K) : K := (List.zipWith (· * ·) ws xs).sum

omit [LinearOrder K] [IsStrictOrderedRing K] in
theorem weightedSum_cons (w x : K) (ws xs : List K) :
    weightedSum (w :: ws) (x :: xs) = w * x + weightedSum ws xs := by
  unfold weightedSum
  rw [List.zipWith_cons_cons, List.sum_cons]

theorem weightedSum_mono {ws xs ys : List K} (hws : ∀ w ∈ ws, 0 ≤ w)
    (h : List.Forall₂ (· ≤ ·) xs ys) : weightedSum ws xs ≤ weightedSum ws ys := by
  induction h generalizing ws with
  | nil => exact le_refl _
  | cons hxy _ ih =>
      cases ws with
      | nil => exact le_refl _
      | cons w ws =>
          obtain ⟨hw, hws⟩ := List.forall_mem_cons.mp hws
          rw [weightedSum_cons, weightedSum_cons]
          exact add_le_add (mul_le_mul_of_nonneg_left hxy hw) (ih hws)

omit [LinearOrder K] [IsStrictOrderedRing K] in
theorem weightedSum_replicate (ws : List K) (c : K) :
    weightedSum ws (List.replicate ws.length c) = ws.sum * c := by
  induction ws with
  | nil => simp [weightedSum]
  | cons w ws ih =>
      rw [List.length_cons, List.replicate_succ, weightedSum_cons, ih, List.sum_cons, add_mul]

theorem isAverage_weightedSum {weights : ℕ → List K} (hlen : ∀ n, (weights n).length = n)
    (hnonneg : ∀ n, ∀ w ∈ weights n, 0 ≤ w) (hsum : ∀ n, n ≠ 0 → (weights n).sum = 1) :
    IsAverage (fun xs => weightedSum (weights xs.length) xs) where
  mono := by
    intro xs ys h _
    rw [h.length_eq]
    exact weightedSum_mono (hnonneg _) h
  const := by
    intro n c hn
    have hsame := weightedSum_replicate (weights n) c
    rw [hlen, hsum n hn, one_mul] at hsame
    rw [List.length_replicate]
    exact hsame

omit [LinearOrder K] [IsStrictOrderedRing K] in
/-- An amount added to one entry counts with the weight of that entry. -/
theorem weightedSum_modify {ws xs : List K} {i : ℕ} {w : K} (d : K) (hw : ws[i]? = some w)
    (hi : i < xs.length) :
    weightedSum ws (xs.modify i (· + d)) = weightedSum ws xs + w * d := by
  induction xs generalizing ws i with
  | nil => exact absurd hi (Nat.not_lt_zero i)
  | cons x xs ih =>
      cases ws with
      | nil => cases hw
      | cons v ws =>
          cases i with
          | zero =>
              obtain rfl := Option.some.inj hw
              rw [List.modify_zero_cons, weightedSum_cons, weightedSum_cons, mul_add]
              exact add_right_comm _ _ _
          | succ i =>
              have hw : ws[i]? = some w := hw
              rw [List.modify_succ_cons, weightedSum_cons, weightedSum_cons,
                ih hw (by simpa using hi), add_assoc]

/-! ## Averages of averages -/

section Nested

variable {f g : List K → K} (hf : IsAverage f) (hg : IsAverage g) {c : K} (hc : 0 ≤ c)
include hf hg hc

/-- Entries of a table that rise do not lower the average of its scaled row
averages. -/
theorem nested_mono {xss yss : List (List K)} (hne : xss ≠ []) (hrows : ∀ xs ∈ xss, xs ≠ [])
    (h : List.Forall₂ (List.Forall₂ (· ≤ ·)) xss yss) :
    f (xss.map (fun xs => g xs * c)) ≤ f (yss.map (fun ys => g ys * c)) := by
  refine hf.mono ?_ (fun hnil => hne (List.map_eq_nil_iff.mp hnil))
  rw [List.forall₂_map_left_iff, List.forall₂_map_right_iff]
  clear hne
  induction h with
  | nil => exact .nil
  | cons hxy _ ih =>
      obtain ⟨hrow, hrows⟩ := List.forall_mem_cons.mp hrows
      exact .cons (mul_le_mul_of_nonneg_right (hg.mono hxy hrow) hc) (ih hrows)

/-- The average of scaled row averages is at least the scaled lower bound of the
entries. -/
theorem nested_lower {xss : List (List K)} {lo : K} (hne : xss ≠ []) (hrows : ∀ xs ∈ xss, xs ≠ [])
    (h : ∀ xs ∈ xss, ∀ x ∈ xs, lo ≤ x) : lo * c ≤ f (xss.map (fun xs => g xs * c)) := by
  refine hf.lower (fun hnil => hne (List.map_eq_nil_iff.mp hnil)) fun r hr => ?_
  obtain ⟨xs, hxs, rfl⟩ := List.mem_map.mp hr
  exact mul_le_mul_of_nonneg_right (hg.lower (hrows xs hxs) (h xs hxs)) hc

/-- The average of scaled row averages is at most the scaled upper bound of the
entries. -/
theorem nested_upper {xss : List (List K)} {hi : K} (hne : xss ≠ []) (hrows : ∀ xs ∈ xss, xs ≠ [])
    (h : ∀ xs ∈ xss, ∀ x ∈ xs, x ≤ hi) : f (xss.map (fun xs => g xs * c)) ≤ hi * c := by
  refine hf.upper (fun hnil => hne (List.map_eq_nil_iff.mp hnil)) fun r hr => ?_
  obtain ⟨xs, hxs, rfl⟩ := List.mem_map.mp hr
  exact mul_le_mul_of_nonneg_right (hg.upper (hrows xs hxs) (h xs hxs)) hc

end Nested

end Averaging
