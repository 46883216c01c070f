/-
# `RLCM.Lib.PartMeans` — weighted means of the parts of a list

A list is cut into parts, and the weighted mean of every part counts as often as
the part is long.  With equal weights this is the sum of the list, however it is
cut (`byLength_one`).  With other weights it is what the mean of the whole list
gives, for all values, exactly when every part has the same share of the weight
as of the length (`byLength_eq_iff`).
-/
import Mathlib.Algebra.BigOperators.Ring.List
import Mathlib.Algebra.Order.BigOperators.Group.List
import Mathlib.Algebra.Order.Field.Basic
import Mathlib.Data.List.Pairwise
import Mathlib.Data.List.Nodup
import Mathlib.Data.Nat.Cast.Order.Ring
import Mathlib.Tactic.FieldSimp
import Mathlib.Tactic.Ring

namespace PartMeans

variable {α K : Type*} [Field K]

/-- The sum of the values over the sum of the weights. -/
def partMean (weight value : α → K) (part : List α) : K :=
  (part.map value).sum / (part.map weight).sum

/-- Every part counts as often as it is long. -/
def byLength (weight value : α → K) (parts : List (List α)) : K :=
  (parts.map (fun part => partMean weight value part * part.length)).sum

theorem byLength_cons (weight value : α → K) (part : List α) (parts : List (List α)) :
    byLength weight value (part :: parts) =
      partMean weight value part * part.length + byLength weight value parts := by
  rw [byLength, List.map_cons, List.sum_cons]
  rfl

variable {parts : List (List α)} {whole : List α}

theorem sum_parts (hperm : parts.flatten.Perm whole) (value : α → K) :
    (parts.map (fun part => (part.map value).sum)).sum = (whole.map value).sum := by
  rw [← (hperm.map value).sum_eq, List.map_flatten, List.sum_flatten, List.map_map]
  rfl

variable {weight : α → K}

section Indicator

variable [DecidableEq α]

/-- The value is one at one entry. -/
def indicator (x : α) (y : α) : K := if y = x then 1 else 0

theorem sum_indicator_of_notMem {x : α} {part : List α} (h : x ∉ part) :
    (part.map (indicator x : α → K)).sum = 0 := by
  refine List.sum_eq_zero (fun y hy => ?_)
  obtain ⟨z, hz, rfl⟩ := List.mem_map.mp hy
  exact if_neg (fun heq : z = x => h (heq ▸ hz))

theorem sum_indicator_of_mem {x : α} {part : List α} (hnodup : part.Nodup) (h : x ∈ part) :
    (part.map (indicator x : α → K)).sum = 1 := by
  obtain ⟨pre, post, rfl⟩ := List.append_of_mem h
  obtain ⟨-, hpost, hdisj⟩ := List.nodup_append.mp hnodup
  have hpre : x ∉ pre := fun hx => hdisj x hx x List.mem_cons_self rfl
  rw [List.map_append, List.sum_append, sum_indicator_of_notMem hpre, List.map_cons,
    List.sum_cons, sum_indicator_of_notMem (List.nodup_cons.mp hpost).1]
  simp [indicator]

/-- An entry counts with the part it is in. -/
theorem byLength_indicator (hnodup : parts.flatten.Nodup) {part : List α} (hpart : part ∈ parts)
    {x : α} (hx : x ∈ part) :
    byLength weight (indicator x) parts = 1 / (part.map weight).sum * part.length := by
  obtain ⟨pre, post, rfl⟩ := List.append_of_mem hpart
  have hrest : ∀ q ∈ pre ++ post, x ∉ q := by
    intro q hq hxq
    rw [List.flatten_append, List.flatten_cons, List.nodup_append] at hnodup
    obtain ⟨-, hback, hdisj⟩ := hnodup
    rcases List.mem_append.mp hq with hq | hq
    · exact hdisj x (List.mem_flatten_of_mem hq hxq) x
        (List.mem_append_left _ hx) rfl
    · exact (List.nodup_append.mp hback).2.2 x hx x (List.mem_flatten_of_mem hq hxq) rfl
  have hzero : ∀ qs : List (List α), (∀ q ∈ qs, x ∉ q) →
      byLength weight (indicator x) qs = 0 := by
    intro qs hqs
    refine List.sum_eq_zero (fun y hy => ?_)
    obtain ⟨q, hq, rfl⟩ := List.mem_map.mp hy
    rw [partMean, sum_indicator_of_notMem (hqs q hq), zero_div, zero_mul]
  have hown : part.Nodup := (List.nodup_flatten.mp hnodup).1 part hpart
  have hsplit : byLength weight (indicator x) (pre ++ part :: post) =
      byLength weight (indicator x) pre + (partMean weight (indicator x) part * part.length +
        byLength weight (indicator x) post) := by
    rw [byLength, List.map_append, List.sum_append, List.map_cons, List.sum_cons]
    rfl
  rw [hsplit, hzero pre (fun q hq => hrest q (List.mem_append_left _ hq)),
    hzero post (fun q hq => hrest q (List.mem_append_right _ hq)), partMean,
    sum_indicator_of_mem hown hx, zero_add, add_zero]

end Indicator

variable [LinearOrder K] [IsStrictOrderedRing K]

theorem byLength_one (hperm : parts.flatten.Perm whole) (value : α → K) :
    byLength (fun _ => 1) value parts = (whole.map value).sum := by
  rw [← sum_parts hperm value, byLength]
  refine congrArg List.sum (List.map_congr_left (fun part _ => ?_))
  rcases eq_or_ne part [] with rfl | hne
  · simp
  · have hlen : (part.length : K) ≠ 0 := by simpa using hne
    rw [partMean, List.map_const', List.sum_replicate, nsmul_eq_mul, mul_one,
      div_mul_cancel₀ _ hlen]

theorem sum_weight_pos {part : List α} (hpos : ∀ x ∈ part, 0 < weight x) (hne : part ≠ []) :
    0 < (part.map weight).sum := by
  refine List.sum_pos _ (fun y hy => ?_) (by simpa using hne)
  obtain ⟨x, hx, rfl⟩ := List.mem_map.mp hy
  exact hpos x hx

/-- The parts add up to the mean of the whole, whatever the values, exactly when
every part has the same share of the weight as of the length. -/
theorem byLength_eq_iff (hperm : parts.flatten.Perm whole) (hnodup : whole.Nodup)
    (hpos : ∀ x ∈ whole, 0 < weight x) (hne : ∀ part ∈ parts, part ≠ []) :
    (∀ value, byLength weight value parts = partMean weight value whole * whole.length) ↔
      ∀ part ∈ parts,
        (part.map weight).sum * whole.length = (whole.map weight).sum * part.length := by
  classical
  have hsub : ∀ part ∈ parts, ∀ x ∈ part, x ∈ whole :=
    fun part hpart x hx => hperm.subset (List.mem_flatten_of_mem hpart hx)
  have hweight : ∀ part ∈ parts, (part.map weight).sum ≠ 0 := fun part hpart =>
    (sum_weight_pos (fun x hx => hpos x (hsub part hpart x hx)) (hne part hpart)).ne'
  constructor
  · intro hall part hpart
    obtain ⟨x, hx⟩ := List.exists_mem_of_ne_nil part (hne part hpart)
    have hmem : x ∈ whole := hsub part hpart x hx
    have hwhole : (whole.map weight).sum ≠ 0 :=
      (sum_weight_pos hpos (List.ne_nil_of_mem hmem)).ne'
    have hat := hall (indicator x)
    rw [byLength_indicator (hperm.nodup_iff.mpr hnodup) hpart hx, partMean,
      sum_indicator_of_mem hnodup hmem, one_div_mul_eq_div, one_div_mul_eq_div,
      div_eq_div_iff (hweight part hpart) hwhole] at hat
    rw [mul_comm _ (whole.length : K), mul_comm _ (part.length : K), hat]
  · intro hshare value
    have heach : ∀ part ∈ parts, partMean weight value part * part.length =
        (part.map value).sum * (whole.length / (whole.map weight).sum) := by
      intro part hpart
      obtain ⟨x, hx⟩ := List.exists_mem_of_ne_nil part (hne part hpart)
      have hwhole : (whole.map weight).sum ≠ 0 :=
        (sum_weight_pos hpos (List.ne_nil_of_mem (hsub part hpart x hx))).ne'
      rw [partMean, div_mul_eq_mul_div, mul_div_assoc]
      congr 1
      rw [div_eq_div_iff (hweight part hpart) hwhole, mul_comm, ← hshare part hpart, mul_comm]
    rw [byLength, List.map_congr_left heach, List.sum_map_mul_right, sum_parts hperm, partMean,
      div_mul_eq_mul_div, mul_div_assoc]

end PartMeans
