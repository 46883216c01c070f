/-
# `RLCM.Lib.Masking` — rows of which only some entries count

A mask keeps some entries of a row.  `picked` reads another row at the entries
that are kept.

A sweep goes through a row from its end, carries a state and records something
at every entry.  When the state passes over the entries that are not kept, the
sweep records at the others what it would record if these were the whole row:
`picked_sweep`.

The last section is about rows of discounted sums, which is what such sweeps
record in reinforcement learning.
-/
import Mathlib.Algebra.BigOperators.Fin
import Mathlib.Algebra.BigOperators.Ring.Finset
import Mathlib.Tactic.Ring

namespace Masking

variable {α β γ σ : Type*}

/-! ## The kept entries -/

section Picked

variable (keep : α → Bool)

/-- The entries of the second row that stand at a kept entry of the first. -/
def picked : List α → List β → List β
  | x :: xs, y :: ys => if keep x then y :: picked xs ys else picked xs ys
  | _, _ => []

@[simp] theorem picked_nil (ys : List β) : picked keep [] ys = [] := rfl

variable {keep}

theorem picked_cons_of_keep {x : α} (h : keep x = true) (xs : List α) (y : β) (ys : List β) :
    picked keep (x :: xs) (y :: ys) = y :: picked keep xs ys := by
  rw [picked, if_pos h]

theorem picked_cons_of_skip {x : α} (h : keep x = false) (xs : List α) (y : β) (ys : List β) :
    picked keep (x :: xs) (y :: ys) = picked keep xs ys := by
  rw [picked, if_neg (by simp [h])]

theorem picked_map (f : α → β) (xs : List α) :
    picked keep xs (xs.map f) = (xs.filter keep).map f := by
  induction xs with
  | nil => rfl
  | cons x xs ih =>
      cases hx : keep x with
      | true =>
          rw [List.map_cons, picked_cons_of_keep hx, ih, List.filter_cons_of_pos hx,
            List.map_cons]
      | false =>
          rw [List.map_cons, picked_cons_of_skip hx, ih, List.filter_cons_of_neg (by simp [hx])]

theorem map_picked (f : β → γ) (xs : List α) (ys : List β) :
    (picked keep xs ys).map f = picked keep xs (ys.map f) := by
  induction xs generalizing ys with
  | nil => rfl
  | cons x xs ih =>
      cases ys with
      | nil => rfl
      | cons y ys =>
          cases hx : keep x with
          | true =>
              rw [picked_cons_of_keep hx, List.map_cons, List.map_cons, picked_cons_of_keep hx, ih]
          | false => rw [picked_cons_of_skip hx, List.map_cons, picked_cons_of_skip hx, ih]

theorem picked_zipWith {δ : Type*} (f : β → γ → δ) (xs : List α) {ys : List β} {zs : List γ}
    (hys : ys.length = xs.length) (hzs : zs.length = xs.length) :
    picked keep xs (List.zipWith f ys zs) =
      List.zipWith f (picked keep xs ys) (picked keep xs zs) := by
  induction xs generalizing ys zs with
  | nil => rfl
  | cons x xs ih =>
      cases ys with
      | nil => cases hys
      | cons y ys =>
          cases zs with
          | nil => cases hzs
          | cons z zs =>
              have htail := ih (Nat.succ.inj hys) (Nat.succ.inj hzs)
              cases hx : keep x with
              | true =>
                  rw [List.zipWith_cons_cons, picked_cons_of_keep hx, picked_cons_of_keep hx,
                    picked_cons_of_keep hx, List.zipWith_cons_cons, htail]
              | false =>
                  rw [List.zipWith_cons_cons, picked_cons_of_skip hx, picked_cons_of_skip hx,
                    picked_cons_of_skip hx, htail]

theorem length_picked {xs : List α} {ys : List β} (h : ys.length = xs.length) :
    (picked keep xs ys).length = (xs.filter keep).length := by
  have hpicked : (picked keep xs ys).length = (picked keep xs (xs.map id)).length := by
    induction xs generalizing ys with
    | nil => rfl
    | cons x xs ih =>
        cases ys with
        | nil => cases h
        | cons y ys =>
            have htail := ih (Nat.succ.inj h)
            rw [List.map_cons]
            cases hx : keep x with
            | true =>
                rw [picked_cons_of_keep hx, picked_cons_of_keep hx, List.length_cons, htail]
                rfl
            | false => rw [picked_cons_of_skip hx, picked_cons_of_skip hx, htail]
  rw [hpicked, picked_map, List.map_id]

theorem picked_append {xs : List α} {ys : List β} (h : ys.length = xs.length) (xs' : List α)
    (ys' : List β) :
    picked keep (xs ++ xs') (ys ++ ys') = picked keep xs ys ++ picked keep xs' ys' := by
  induction xs generalizing ys with
  | nil =>
      cases ys with
      | nil => rfl
      | cons y ys => cases h
  | cons x xs ih =>
      cases ys with
      | nil => cases h
      | cons y ys =>
          have htail := ih (Nat.succ.inj h)
          rw [List.cons_append, List.cons_append]
          cases hx : keep x with
          | true => rw [picked_cons_of_keep hx, picked_cons_of_keep hx, htail, List.cons_append]
          | false => rw [picked_cons_of_skip hx, picked_cons_of_skip hx, htail]

theorem picked_flatten {f : List α → List β} (h : ∀ xs, (f xs).length = xs.length)
    (rows : List (List α)) : picked keep rows.flatten (rows.map f).flatten =
      rows.flatMap (fun xs => picked keep xs (f xs)) := by
  induction rows with
  | nil => rfl
  | cons row rows ih =>
      rw [List.flatten_cons, List.map_cons, List.flatten_cons, picked_append (h row), ih,
        List.flatMap_cons]

end Picked

/-! ## Sweeps from the end of a row -/

section Sweep

variable (step : α → σ → σ × β) (start : σ)

/-- The state a sweep has when it has gone through the row. -/
def after (xs : List α) : σ := xs.foldr (fun x s => (step x s).1) start

/-- What the sweep records, entry by entry. -/
def sweep : List α → List β
  | [] => []
  | x :: xs => (step x (after step start xs)).2 :: sweep xs

/-- A sweep written as a loop: it visits the entries from the last to the first,
appends what it records to a list, and turns the list round in the end. -/
def backward (xs : List α) : List β :=
  (xs.reverse.foldl (fun acc x => ((step x acc.1).1, acc.2 ++ [(step x acc.1).2]))
    (start, [])).2.reverse

theorem backward_eq_sweep (xs : List α) : backward step start xs = sweep step start xs := by
  have hloop : xs.reverse.foldl (fun acc x => ((step x acc.1).1, acc.2 ++ [(step x acc.1).2]))
      (start, []) = (after step start xs, (sweep step start xs).reverse) := by
    induction xs with
    | nil => rfl
    | cons x xs ih =>
        rw [List.reverse_cons, List.foldl_append, ih, sweep, List.reverse_cons]
        rfl
  rw [backward, hloop, List.reverse_reverse]

theorem length_sweep (xs : List α) : (sweep step start xs).length = xs.length := by
  induction xs with
  | nil => rfl
  | cons x xs ih => rw [sweep, List.length_cons, List.length_cons, ih]

theorem drop_sweep (n : ℕ) (xs : List α) :
    (sweep step start xs).drop n = sweep step start (xs.drop n) := by
  induction n generalizing xs with
  | zero => rfl
  | succ n ih =>
      cases xs with
      | nil => rfl
      | cons x xs => exact ih xs

variable {step start}

theorem getElem?_sweep {xs pre : List α} {x : α} {post : List α} (h : xs = pre ++ x :: post) :
    (sweep step start xs)[pre.length]? = some (step x (after step start post)).2 := by
  have hdrop : (sweep step start xs).drop pre.length = sweep step start (x :: post) := by
    rw [drop_sweep, h, List.drop_left]
  rw [← Nat.add_zero pre.length, ← List.getElem?_drop, hdrop]
  rfl

section Skip

variable {keep : α → Bool} (h : ∀ x s, keep x = false → (step x s).1 = s)

include h

/-- The state of a sweep that passes over an entry does not depend on it. -/
theorem after_filter (xs : List α) : after step start (xs.filter keep) = after step start xs := by
  induction xs with
  | nil => rfl
  | cons x xs ih =>
      cases hx : keep x with
      | true =>
          rw [List.filter_cons_of_pos hx]
          exact congrArg (fun s => (step x s).1) ih
      | false =>
          rw [List.filter_cons_of_neg (by simp [hx]), ih]
          exact (h x _ hx).symm

/-- At the entries it does not pass over, the sweep records what it would record if the others
were not there. -/
theorem picked_sweep (xs : List α) :
    picked keep xs (sweep step start xs) = sweep step start (xs.filter keep) := by
  induction xs with
  | nil => rfl
  | cons x xs ih =>
      cases hx : keep x with
      | true =>
          rw [sweep, picked_cons_of_keep hx, List.filter_cons_of_pos hx, sweep, ih,
            after_filter h]
      | false =>
          rw [sweep, picked_cons_of_skip hx, List.filter_cons_of_neg (by simp [hx]), ih]

end Skip

end Sweep

/-! ## Discounted sums -/

section Discounted

variable {K : Type*} [CommSemiring K]

/-- The sum of the row, each entry discounted once more than the one before. -/
def discounted (c : K) (xs : List K) : K := ∑ k : Fin xs.length, c ^ k.val * xs.get k

@[simp] theorem discounted_nil (c : K) : discounted c [] = 0 := by
  simp [discounted]

theorem discounted_cons (c x : K) (xs : List K) :
    discounted c (x :: xs) = x + c * discounted c xs := by
  have htail : ∑ k : Fin xs.length, c ^ k.succ.val * (x :: xs).get k.succ =
      c * discounted c xs := by
    rw [discounted, Finset.mul_sum]
    refine Finset.sum_congr rfl (fun k _ => ?_)
    rw [Fin.val_succ, pow_succ', mul_assoc]
    rfl
  calc discounted c (x :: xs)
      = c ^ 0 * x + ∑ k : Fin xs.length, c ^ k.succ.val * (x :: xs).get k.succ :=
        Fin.sum_univ_succ (n := xs.length) _
    _ = x + c * discounted c xs := by rw [htail, pow_zero, one_mul]

theorem discounted_one (xs : List K) : discounted 1 xs = xs.sum := by
  induction xs with
  | nil => rw [discounted_nil, List.sum_nil]
  | cons x xs ih => rw [discounted_cons, ih, one_mul, List.sum_cons]

def discountedRow (c : K) : List K → List K
  | [] => []
  | x :: xs => discounted c (x :: xs) :: discountedRow c xs

theorem getElem?_discountedRow (c : K) (pre : List K) (x : K) (post : List K) :
    (discountedRow c (pre ++ x :: post))[pre.length]? = some (discounted c (x :: post)) := by
  induction pre with
  | nil => rfl
  | cons y pre ih =>
      rw [List.cons_append, discountedRow, List.length_cons, List.getElem?_cons_succ, ih]

end Discounted

end Masking
