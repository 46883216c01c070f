/-
# `RLCM.Lib.Differencing` — balanced parts, and what keeps them balanced

Items are shared out among a fixed number of parts; the load of a part is the
sum of its items.  `Within d loads` says that no two loads are further apart
than `d`.

Two ways to build parts keep such a bound.  The differencing method joins two
partial solutions, the heaviest part of one with the lightest of the other:
`within_opposed`.  The greedy method gives the next item to a lightest part:
`Within.set_least`.  Either way the heaviest part exceeds the average by less
than `d`: `Within.length_nsmul_le`.

Joining opposite parts also fills the parts evenly, whatever the loads are:
`Filled`.  Loads live in any linearly ordered commutative monoid.
-/
import Mathlib.Algebra.Order.BigOperators.Group.List
import Mathlib.Algebra.Order.Ring.Nat
import Mathlib.Data.List.Zip

namespace Differencing

variable {α β γ : Type*}

/-- The first with the last, the second with the last but one, and so on. -/
def opposed (join : α → β → γ) (xs : List α) (ys : List β) : List γ :=
  List.zipWith join xs ys.reverse

theorem getElem_opposed {join : α → β → γ} {xs : List α} {ys : List β} {i : ℕ}
    (hi : i < (opposed join xs ys).length) :
    ∃ (hx : i < xs.length) (hy : ys.length - 1 - i < ys.length),
      (opposed join xs ys)[i] = join xs[i] ys[ys.length - 1 - i] := by
  have hlt : i < min xs.length ys.length := by simpa [opposed] using hi
  refine ⟨hlt.trans_le (min_le_left _ _), by omega, ?_⟩
  simp [opposed]

theorem map_opposed {α' β' γ' : Type*} {join : α → β → γ} {join' : α' → β' → γ'} {f : α → α'}
    {g : β → β'} {h : γ → γ'} (hjoin : ∀ x y, h (join x y) = join' (f x) (g y)) (xs : List α)
    (ys : List β) : (opposed join xs ys).map h = opposed join' (xs.map f) (ys.map g) := by
  rw [opposed, opposed, List.map_zipWith, ← List.map_reverse, List.zipWith_map]
  congr 1
  funext x y
  exact hjoin x y

/-- Joining by concatenation, place by place, keeps every entry. -/
theorem flatten_zipWith_perm {xs ys : List (List α)} (hlen : xs.length = ys.length) :
    (List.zipWith (· ++ ·) xs ys).flatten.Perm (xs.flatten ++ ys.flatten) := by
  induction xs generalizing ys with
  | nil =>
      rw [List.length_eq_zero_iff.mp hlen.symm]
      exact List.Perm.refl _
  | cons x xs ih =>
      cases ys with
      | nil => cases hlen
      | cons y ys =>
          have htail := ih (Nat.succ.inj hlen)
          simp only [List.zipWith_cons_cons, List.flatten_cons, List.append_assoc]
          refine List.Perm.append_left x ?_
          refine (htail.append_left y).trans ?_
          rw [← List.append_assoc, ← List.append_assoc]
          exact List.perm_append_comm.append_right _

theorem flatten_opposed_perm {xs ys : List (List α)} (hlen : xs.length = ys.length) :
    (opposed (· ++ ·) xs ys).flatten.Perm (xs.flatten ++ ys.flatten) := by
  refine (flatten_zipWith_perm (by simpa using hlen)).trans ?_
  exact (List.reverse_perm ys).flatten.append_left _

/-! ## Loads -/

section Loads

variable {M : Type*} [AddCommMonoid M] [LinearOrder M]

/-- No two loads differ by more than `d`. -/
def Within (d : M) (loads : List M) : Prop := ∀ x ∈ loads, ∀ y ∈ loads, x ≤ y + d

variable {d : M} {loads xs ys : List M}

theorem Within.perm (h : Within d xs) (hperm : xs.Perm ys) : Within d ys :=
  fun x hx y hy => h x (hperm.mem_iff.mpr hx) y (hperm.mem_iff.mpr hy)

variable [IsOrderedAddMonoid M]

theorem Within.mono (h : Within d loads) {d' : M} (hle : d ≤ d') : Within d' loads :=
  fun x hx y hy => (h x hx y hy).trans (add_le_add_right hle y)

/-- One part of the joined loads comes from a larger load of the one list and
from a smaller load of the other, so the differences do not add up. -/
theorem within_opposed (hlen : xs.length = ys.length) (hxs : xs.Pairwise (· ≥ ·))
    (hys : ys.Pairwise (· ≥ ·)) (hdx : Within d xs) (hdy : Within d ys) :
    Within d (opposed (· + ·) xs ys) := by
  intro x hx y hy
  obtain ⟨i, hi, rfl⟩ := List.mem_iff_getElem.mp hx
  obtain ⟨j, hj, rfl⟩ := List.mem_iff_getElem.mp hy
  obtain ⟨hxi, hyi, hsumi⟩ := getElem_opposed hi
  obtain ⟨hxj, hyj, hsumj⟩ := getElem_opposed hj
  rw [hsumi, hsumj]
  rcases Nat.lt_trichotomy i j with hij | rfl | hji
  · -- the load of `ys` at `i` is at most the one at `j`
    have hle : ys[ys.length - 1 - i] ≤ ys[ys.length - 1 - j] :=
      List.pairwise_iff_getElem.mp hys _ _ hyj hyi (by omega)
    calc xs[i] + ys[ys.length - 1 - i]
        ≤ (xs[j] + d) + ys[ys.length - 1 - j] :=
          add_le_add (hdx _ (List.getElem_mem hxi) _ (List.getElem_mem hxj)) hle
      _ = xs[j] + ys[ys.length - 1 - j] + d := by rw [add_right_comm]
  · calc xs[i] + ys[ys.length - 1 - i]
        ≤ (xs[i] + d) + ys[ys.length - 1 - i] :=
          add_le_add_left (hdx _ (List.getElem_mem hxi) _ (List.getElem_mem hxi)) _
      _ = xs[i] + ys[ys.length - 1 - i] + d := by rw [add_right_comm]
  · -- the load of `xs` at `i` is at most the one at `j`
    have hle : xs[i] ≤ xs[j] := List.pairwise_iff_getElem.mp hxs _ _ hxj hxi hji
    calc xs[i] + ys[ys.length - 1 - i]
        ≤ xs[j] + (ys[ys.length - 1 - j] + d) :=
          add_le_add hle (hdy _ (List.getElem_mem hyi) _ (List.getElem_mem hyj))
      _ = xs[j] + ys[ys.length - 1 - j] + d := by rw [add_assoc]

/-- An item no heavier than `d` may go to a lightest part. -/
theorem Within.set_least (h : Within d loads) {w : M} (hw : 0 ≤ w) (hwd : w ≤ d) {m : ℕ} {x : M}
    (hx : loads[m]? = some x) (hleast : ∀ y ∈ loads, x ≤ y) :
    Within d (loads.set m (x + w)) := by
  have hd : 0 ≤ d := hw.trans hwd
  have hxw : x ≤ x + w := le_add_of_nonneg_right hw
  intro a ha b hb
  rcases List.mem_or_eq_of_mem_set ha with ha | rfl
  · rcases List.mem_or_eq_of_mem_set hb with hb | rfl
    · exact h a ha b hb
    · exact (h a ha x (List.mem_of_getElem? hx)).trans (add_le_add_left hxw d)
  · rcases List.mem_or_eq_of_mem_set hb with hb | rfl
    · exact add_le_add (hleast b hb) hwd
    · exact le_add_of_nonneg_right hd

theorem Within.modify_least (h : Within d loads) {w : M} (hw : 0 ≤ w) (hwd : w ≤ d) {m : ℕ}
    (hm : m < loads.length) (hleast : ∀ y ∈ loads, loads[m] ≤ y) :
    Within d (loads.modify m (· + w)) := by
  have hset : loads.modify m (· + w) = loads.set m (loads[m] + w) := by
    refine List.ext_getElem (by simp) (fun i hi _ => ?_)
    rw [List.getElem_modify, List.getElem_set]
    split
    case isTrue him =>
      subst him
      rfl
    case isFalse => rfl
  rw [hset]
  exact h.set_least hw hwd (List.getElem?_eq_getElem hm) hleast

/-- Sizes that differ by one at most and share a multiple of their number are
equal. -/
theorem Within.eq_of_dvd {sizes : List ℕ} (h : Within 1 sizes) {c : ℕ}
    (hsum : sizes.sum = sizes.length * c) : ∀ x ∈ sizes, x = c := by
  have hle : ∀ x ∈ sizes, x ≤ c := by
    intro x hx
    by_contra hlt
    -- then all others are at least `c`, and the sum is too large
    have hall : ∀ y ∈ sizes, c ≤ y := by
      intro y hy
      have := h x hx y hy
      omega
    have hbig : (sizes.map (fun _ => c)).sum < (sizes.map id).sum :=
      List.sum_lt_sum _ _ hall ⟨x, hx, not_le.mp hlt⟩
    rw [List.map_const', List.sum_replicate_nat, List.map_id] at hbig
    omega
  intro x hx
  refine le_antisymm (hle x hx) ?_
  by_contra hlt
  have hsmall : (sizes.map id).sum < (sizes.map (fun _ => c)).sum :=
    List.sum_lt_sum _ _ hle ⟨x, hx, not_le.mp hlt⟩
  rw [List.map_const', List.sum_replicate_nat, List.map_id] at hsmall
  omega

/-- No part exceeds the average by more than the bound. -/
theorem Within.length_nsmul_le (h : Within d loads) {x : M} (hx : x ∈ loads) :
    loads.length • x ≤ loads.sum + (loads.length - 1) • d := by
  obtain ⟨pre, post, rfl⟩ := List.append_of_mem hx
  have hsum : ∀ ys : List M, (∀ y ∈ ys, x ≤ y + d) → ys.length • x ≤ ys.sum + ys.length • d := by
    intro ys
    induction ys with
    | nil => intro _; simp
    | cons y ys ih =>
        intro hall
        rw [List.length_cons, succ_nsmul, succ_nsmul, List.sum_cons]
        calc ys.length • x + x
            ≤ (ys.sum + ys.length • d) + (y + d) :=
              add_le_add (ih fun z hz => hall z (List.mem_cons_of_mem _ hz))
                (hall y List.mem_cons_self)
          _ = y + ys.sum + (ys.length • d + d) := by ac_rfl
  have hrest := hsum (pre ++ post) (fun y hy => h x hx y (by
    rcases List.mem_append.mp hy with hy | hy
    · exact List.mem_append_left _ hy
    · exact List.mem_append_right _ (List.mem_cons_of_mem _ hy)))
  have hlen : (pre ++ x :: post).length = (pre ++ post).length + 1 := by
    simp [Nat.add_assoc]
  have htotal : (pre ++ x :: post).sum = (pre ++ post).sum + x := by
    rw [List.sum_append, List.sum_cons, List.sum_append]
    ac_rfl
  rw [hlen, succ_nsmul, htotal, Nat.add_sub_cancel]
  calc (pre ++ post).length • x + x
      ≤ ((pre ++ post).sum + (pre ++ post).length • d) + x := add_le_add_left hrest x
    _ = (pre ++ post).sum + x + (pre ++ post).length • d := by ac_rfl

end Loads

/-! ## Filling the parts -/

section Filled

variable {parts xs ys : List (List α)}

/-- The empty parts come last. -/
def FilledFirst (parts : List (List α)) : Prop := parts.Pairwise (fun p q => p = [] → q = [])

/-- Either every part has an item, or none has two. -/
def Filled (parts : List (List α)) : Prop :=
  (∀ p ∈ parts, p ≠ []) ∨ ∀ p ∈ parts, p.length ≤ 1

theorem Filled.perm (h : Filled xs) (hperm : xs.Perm ys) : Filled ys :=
  h.imp (fun hall p hp => hall p (hperm.mem_iff.mpr hp))
    (fun hall p hp => hall p (hperm.mem_iff.mpr hp))

theorem FilledFirst.ne_nil (h : FilledFirst parts) {i j : ℕ} (hij : i ≤ j)
    (hj : j < parts.length) (hne : parts[j] ≠ []) : parts[i] ≠ [] := by
  rcases hij.eq_or_lt with rfl | hlt
  · exact hne
  · exact fun hnil => hne (List.pairwise_iff_getElem.mp h i j _ hj hlt hnil)

/-- Joining opposite parts fills them evenly: a part gets a second item only
when none is left without. -/
theorem filled_opposed (hlen : xs.length = ys.length) (hxs : FilledFirst xs)
    (hys : FilledFirst ys) (hfx : Filled xs) (hfy : Filled ys) :
    Filled (opposed (· ++ ·) xs ys) := by
  have hall_left : (∀ p ∈ xs, p ≠ []) → Filled (opposed (· ++ ·) xs ys) := by
    intro hall
    refine Or.inl (fun p hp => ?_)
    obtain ⟨i, hi, rfl⟩ := List.mem_iff_getElem.mp hp
    obtain ⟨hx, _, heq⟩ := getElem_opposed hi
    rw [heq]
    exact List.append_ne_nil_of_left_ne_nil (hall _ (List.getElem_mem hx)) _
  have hall_right : (∀ p ∈ ys, p ≠ []) → Filled (opposed (· ++ ·) xs ys) := by
    intro hall
    refine Or.inl (fun p hp => ?_)
    obtain ⟨i, hi, rfl⟩ := List.mem_iff_getElem.mp hp
    obtain ⟨_, hy, heq⟩ := getElem_opposed hi
    rw [heq]
    exact List.append_ne_nil_of_right_ne_nil _ (hall _ (List.getElem_mem hy))
  rcases hfx with hfx | hone_x
  · exact hall_left hfx
  rcases hfy with hfy | hone_y
  · exact hall_right hfy
  by_cases hmeet : ∃ (i : ℕ) (hx : i < xs.length) (hy : ys.length - 1 - i < ys.length),
      xs[i] ≠ [] ∧ ys[ys.length - 1 - i] ≠ []
  · -- where both have an item, every part before has one of `xs`, every part
    -- after one of `ys`
    obtain ⟨i, hx, hy, hxne, hyne⟩ := hmeet
    refine Or.inl (fun p hp => ?_)
    obtain ⟨j, hj, rfl⟩ := List.mem_iff_getElem.mp hp
    obtain ⟨hxj, hyj, heq⟩ := getElem_opposed hj
    rw [heq]
    rcases le_total j i with hji | hij
    · exact List.append_ne_nil_of_left_ne_nil (hxs.ne_nil hji hx hxne) _
    · exact List.append_ne_nil_of_right_ne_nil _ (hys.ne_nil (by omega) hy hyne)
  · refine Or.inr (fun p hp => ?_)
    obtain ⟨j, hj, rfl⟩ := List.mem_iff_getElem.mp hp
    obtain ⟨hxj, hyj, heq⟩ := getElem_opposed hj
    rw [heq, List.length_append]
    have hx1 := hone_x _ (List.getElem_mem hxj)
    have hy1 := hone_y _ (List.getElem_mem hyj)
    by_cases hnil : xs[j] = []
    · rw [hnil, List.length_nil, Nat.zero_add]
      exact hy1
    · have hynil : ys[ys.length - 1 - j] = [] := by
        by_contra hyne
        exact hmeet ⟨j, hxj, hyj, hnil, hyne⟩
      rw [hynil, List.length_nil, Nat.add_zero]
      exact hx1

theorem Filled.forall_ne_nil (h : Filled parts) (hitems : parts.length ≤ parts.flatten.length) :
    ∀ p ∈ parts, p ≠ [] := by
  rcases h with h | hone
  · exact h
  · intro p hp hnil
    have hlt : (parts.map List.length).sum < (parts.map (fun _ => 1)).sum :=
      List.sum_lt_sum _ _ hone ⟨p, hp, by simp [hnil]⟩
    rw [List.length_flatten] at hitems
    have hones : (parts.map (fun _ => 1)).sum = parts.length := by simp
    omega

end Filled

end Differencing
