/-
# `RLCM.Lib.BatchMeans` — the mean of the batch means

Cut into batches of one size, with a shorter one at the end, a list has a mean
of its batch means.  It weighs the samples of the short batch more than the
others, so it is the mean of the list only if there is no short batch, or
nothing else, or both parts have the same mean: `meanOfMeans_eq_mean_iff`.
-/
import Mathlib.Algebra.BigOperators.Ring.List
import RLCM.Lib.Blocks
import RLCM.Lib.Stats

namespace BatchMeans

open Blocks Stats

def meanOfMeans (size : ℕ) (xs : List ℚ) : ℚ := mean ((pieces size xs).map mean)

def fullPart {α : Type*} (size : ℕ) (xs : List α) : List α := xs.take (xs.length / size * size)

def shortPart {α : Type*} (size : ℕ) (xs : List α) : List α := xs.drop (xs.length / size * size)

variable {size : ℕ} {xs : List ℚ}

theorem sum_fullPart_add (size : ℕ) (xs : List ℚ) :
    (fullPart size xs).sum + (shortPart size xs).sum = xs.sum := by
  rw [← List.sum_append, fullPart, shortPart, List.take_append_drop]

theorem length_fullPart (size : ℕ) (xs : List ℚ) :
    (fullPart size xs).length = xs.length / size * size := by
  rw [fullPart, List.length_take]
  exact min_eq_left (Nat.div_mul_le_self _ _)

theorem length_shortPart (size : ℕ) (xs : List ℚ) :
    (shortPart size xs).length = xs.length % size := by
  rw [shortPart, List.length_drop]
  have := Nat.div_add_mod' xs.length size
  omega

def fullBatches (size : ℕ) (xs : List ℚ) : List (List ℚ) :=
  (List.range (xs.length / size)).map (fun k => slice xs (k * size) (k * size + size))

theorem sum_means_fullBatches (size : ℕ) (xs : List ℚ) :
    ((fullBatches size xs).map mean).sum = (fullPart size xs).sum / size := by
  have hlen : ∀ batch ∈ fullBatches size xs, mean batch = batch.sum / size := by
    intro batch hbatch
    obtain ⟨k, hk, rfl⟩ := List.mem_map.mp hbatch
    have hle : k * size + size ≤ xs.length := by
      have := Nat.mul_le_mul_right size (Nat.succ_le_of_lt (List.mem_range.mp hk))
      rw [Nat.succ_mul] at this
      exact this.trans (Nat.div_mul_le_self _ _)
    have hsize : (slice xs (k * size) (k * size + size)).length = size := by
      rw [slice, List.length_take, List.length_drop]
      omega
    rw [mean, hsize]
  have hflat : (fullBatches size xs).flatten = fullPart size xs := flatten_pieces_take _ _ _
  rw [List.map_congr_left hlen, ← hflat, List.sum_flatten]
  simp only [div_eq_mul_inv]
  exact List.sum_map_mul_right (fullBatches size xs) List.sum (size : ℚ)⁻¹

/-- The batches are the full ones and the short one, if there is one. -/
theorem pieces_eq (hsize : 1 ≤ size) (xs : List ℚ) :
    pieces size xs = fullBatches size xs ++
      if xs.length % size = 0 then [] else [shortPart size xs] := by
  have hdiv := Nat.div_add_mod' xs.length size
  have hmod := Nat.mod_lt xs.length hsize
  have hcount : ∀ q, xs.length / size = q → (xs.length + size - 1) / size =
      if xs.length % size = 0 then q else q + 1 := by
    intro q hq
    rw [hq] at hdiv
    split_ifs with hzero
    · refine Nat.div_eq_of_lt_le ?_ ?_
      · omega
      · rw [Nat.succ_mul]
        omega
    · refine Nat.div_eq_of_lt_le ?_ ?_
      · rw [Nat.succ_mul]
        omega
      · rw [Nat.succ_mul, Nat.succ_mul]
        omega
  rw [pieces, hcount _ rfl]
  split_ifs with hzero
  · rw [List.append_nil]
    rfl
  · rw [List.range_succ, List.map_append]
    refine congrArg (fullBatches size xs ++ [·]) ?_
    have hlast : slice xs (xs.length / size * size) (xs.length / size * size + size) =
        shortPart size xs := by
      refine List.take_of_length_le ?_
      rw [← shortPart, length_shortPart, Nat.add_sub_cancel_left]
      exact hmod.le
    exact hlast

theorem meanOfMeans_of_dvd (hsize : 1 ≤ size) (h : xs.length % size = 0) :
    meanOfMeans size xs = mean xs := by
  have hsum := sum_fullPart_add size xs
  have hshort : shortPart size xs = [] := by
    rw [← List.length_eq_zero_iff, length_shortPart, h]
  have hlen := Nat.div_add_mod' xs.length size
  rw [h, Nat.add_zero] at hlen
  rw [hshort, List.sum_nil, add_zero] at hsum
  rw [meanOfMeans, pieces_eq hsize, if_pos h, List.append_nil, mean, sum_means_fullBatches, hsum,
    List.length_map, fullBatches, List.length_map, List.length_range, mean, div_div]
  congr 1
  have hcast : ((xs.length / size : ℕ) : ℚ) * size = xs.length := by exact_mod_cast hlen
  rw [mul_comm]
  exact hcast

theorem mean_eq_parts (size : ℕ) (xs : List ℚ) : mean xs =
    ((fullPart size xs).length * mean (fullPart size xs) +
        (shortPart size xs).length * mean (shortPart size xs)) /
      ((fullPart size xs).length + (shortPart size xs).length) := by
  rw [← mean_append, fullPart, shortPart, List.take_append_drop]

theorem meanOfMeans_eq_parts (hsize : 1 ≤ size) (h : xs.length % size ≠ 0) :
    meanOfMeans size xs =
      ((xs.length / size : ℕ) * mean (fullPart size xs) + 1 * mean (shortPart size xs)) /
        ((xs.length / size : ℕ) + 1) := by
  have hb : (size : ℚ) ≠ 0 := Nat.cast_ne_zero.mpr (Nat.one_le_iff_ne_zero.mp hsize)
  have hfull : (fullPart size xs).sum / size =
      (xs.length / size : ℕ) * mean (fullPart size xs) := by
    rw [← length_mul_mean, length_fullPart, Nat.cast_mul, mul_right_comm,
      mul_div_cancel_right₀ _ hb]
  rw [meanOfMeans, pieces_eq hsize, if_neg h, List.map_append, mean, List.sum_append,
    sum_means_fullBatches, hfull, List.map_singleton, List.sum_singleton, List.length_append,
    List.length_map, fullBatches, List.length_map, List.length_range, List.length_singleton,
    Nat.cast_add, Nat.cast_one, one_mul]

theorem meanOfMeans_of_short (hsize : 1 ≤ size) (h : xs.length % size ≠ 0)
    (hfull : size < xs.length) :
    meanOfMeans size xs = mean xs ↔ mean (shortPart size xs) = mean (fullPart size xs) := by
  have hq : 0 < xs.length / size := Nat.div_pos hfull.le hsize
  have hr := Nat.mod_lt xs.length hsize
  rw [meanOfMeans_eq_parts hsize h, mean_eq_parts size xs, length_fullPart, length_shortPart,
    eq_comm (a := mean (shortPart size xs))]
  refine weightings_eq_iff (by positivity) (by positivity) ?_
  -- a full batch has more samples than the short one
  rw [mul_one]
  norm_cast
  exact (Nat.mul_lt_mul_of_pos_left hr hq).ne

/-- The mean of the batch means is the mean exactly when the batches are even,
or there is only one, or the short batch has the mean of the rest. -/
theorem meanOfMeans_eq_mean_iff (hsize : 1 ≤ size) (xs : List ℚ) :
    meanOfMeans size xs = mean xs ↔ size ∣ xs.length ∨ xs.length ≤ size ∨
      mean (shortPart size xs) = mean (fullPart size xs) := by
  rcases Nat.eq_zero_or_pos (xs.length % size) with hzero | hshort
  · exact iff_of_true (meanOfMeans_of_dvd hsize hzero) (Or.inl (Nat.dvd_of_mod_eq_zero hzero))
  have hne : xs.length % size ≠ 0 := hshort.ne'
  have hdvd : ¬ size ∣ xs.length := fun h => hne (Nat.mod_eq_zero_of_dvd h)
  rcases Nat.lt_or_ge size xs.length with hfull | hone
  · rw [meanOfMeans_of_short hsize hne hfull]
    refine ⟨fun h => Or.inr (Or.inr h), ?_⟩
    rintro (h | h | h)
    · exact absurd h hdvd
    · exact absurd h (not_le.mpr hfull)
    · exact h
  · refine iff_of_true ?_ (Or.inr (Or.inl hone))
    have hlt : xs.length < size := lt_of_le_of_ne hone (fun h => hdvd (h ▸ dvd_rfl))
    have hsingle : pieces size xs = [xs] := by
      have hdiv : xs.length / size = 0 := Nat.div_eq_of_lt hlt
      rw [pieces_eq hsize, if_neg hne, fullBatches, shortPart, hdiv, Nat.zero_mul, List.drop_zero]
      rfl
    rw [meanOfMeans, hsingle, List.map_singleton, mean_singleton]

end BatchMeans
