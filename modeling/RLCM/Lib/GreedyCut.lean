/-
# `RLCM.Lib.GreedyCut` — cutting a list greedily under a quota

A batcher that never reorders goes through a list once and keeps one part open:
an item joins the open part while there is room, and otherwise closes it and
starts the next.  `IsGreedyCut` says what such a cut of a list is, without
saying how it was found.  The rules below are the three things the batcher can
do with the next item; each keeps the cut greedy.

Quotas are added up from the left with an operation `add` of which nothing is assumed, so
that it may round.
-/
import Mathlib.Algebra.Order.Ring.Nat
import Mathlib.Data.List.Chain

namespace GreedyCut

variable {ι Q : Type*} [Zero Q] [LinearOrder Q]

def total (add : Q → Q → Q) (quota : ι → Q) : List ι → Q
  | [] => 0
  | item :: part => part.foldl (fun sum next => add sum (quota next)) (quota item)

/-- There is no room for `item` in `part`: it would exceed one of the limits. -/
def Full (add : Q → Q → Q) (quota : ι → Q) (maxQuota : Q) (maxSize : ℕ) (part : List ι)
    (item : ι) : Prop :=
  maxQuota < add (total add quota part) (quota item) ∨ maxSize < part.length + 1

/-- `parts` is a greedy cut of `items`: nothing is lost or reordered, the limits
hold (one item alone may be over the quota), and no part could have taken the
first item of the next. -/
structure IsGreedyCut (add : Q → Q → Q) (quota : ι → Q) (maxQuota : Q) (maxSize : ℕ)
    (items : List ι) (parts : List (List ι)) : Prop where
  flatten_eq : parts.flatten = items
  ne_nil : ∀ part ∈ parts, part ≠ []
  length_le : ∀ part ∈ parts, part.length ≤ maxSize
  total_le : ∀ part ∈ parts, 1 < part.length → total add quota part ≤ maxQuota
  full : parts.IsChain (fun part next =>
    ∀ item ∈ next.head?, Full add quota maxQuota maxSize part item)

variable {add : Q → Q → Q} {quota : ι → Q} {maxQuota : Q} {maxSize : ℕ} {items : List ι}
  {parts : List (List ι)}
  {last : List ι} {item : ι}

omit [LinearOrder Q] in
theorem total_concat {part : List ι} (hne : part ≠ []) (item : ι) :
    total add quota (part ++ [item]) = add (total add quota part) (quota item) := by
  obtain ⟨first, rest, rfl⟩ := List.exists_cons_of_ne_nil hne
  rw [List.cons_append, total, total, List.foldl_append, List.foldl_cons, List.foldl_nil]

theorem isGreedyCut_nil : IsGreedyCut add quota maxQuota maxSize [] [] where
  flatten_eq := rfl
  ne_nil := fun _ h => by cases h
  length_le := fun _ h => by cases h
  total_le := fun _ h => by cases h
  full := List.IsChain.nil

theorem forall_mem_concat {p : List ι → Prop} (h : ∀ part ∈ parts, p part) (hlast : p last) :
    ∀ part ∈ parts ++ [last], p part := by
  intro part hpart
  rcases List.mem_append.mp hpart with hpart | hpart
  · exact h part hpart
  · rw [List.mem_singleton.mp hpart]
    exact hlast

theorem IsGreedyCut.start (h : IsGreedyCut add quota maxQuota maxSize items parts)
    (hsize : 1 ≤ maxSize)
    (hfull : ∀ part ∈ parts.getLast?, Full add quota maxQuota maxSize part item) :
    IsGreedyCut add quota maxQuota maxSize (items ++ [item]) (parts ++ [[item]]) where
  flatten_eq := by
    rw [List.flatten_append, List.flatten_singleton, h.flatten_eq]
  ne_nil := forall_mem_concat h.ne_nil (List.cons_ne_nil item [])
  length_le := forall_mem_concat h.length_le hsize
  total_le := forall_mem_concat h.total_le (fun hlt => absurd hlt (lt_irrefl 1))
  full := by
    refine List.isChain_append.mpr ⟨h.full, List.isChain_singleton _, ?_⟩
    intro part hpart next hnext first hfirst
    obtain rfl : [item] = next := Option.some.inj hnext
    obtain rfl : item = first := Option.some.inj hfirst
    exact hfull part hpart

/-- The last part may take an item for which there is room. -/
theorem IsGreedyCut.extend
    (h : IsGreedyCut add quota maxQuota maxSize items (parts ++ [last]))
    (hroom : ¬ Full add quota maxQuota maxSize last item) :
    IsGreedyCut add quota maxQuota maxSize (items ++ [item]) (parts ++ [last ++ [item]]) where
  flatten_eq := by
    have hflat := h.flatten_eq
    rw [List.flatten_append, List.flatten_singleton] at hflat ⊢
    rw [← List.append_assoc, hflat]
  ne_nil := by
    refine forall_mem_concat (fun part hpart => ?_) (List.append_ne_nil_of_right_ne_nil _ ?_)
    · exact h.ne_nil part (List.mem_append_left _ hpart)
    · exact List.cons_ne_nil item []
  length_le := by
    refine forall_mem_concat (fun part hpart => ?_) ?_
    · exact h.length_le part (List.mem_append_left _ hpart)
    · rw [List.length_append]
      exact not_lt.mp (fun hlt => hroom (Or.inr hlt))
  total_le := by
    refine forall_mem_concat (fun part hpart => ?_) (fun _ => ?_)
    · exact h.total_le part (List.mem_append_left _ hpart)
    · rw [total_concat (h.ne_nil last (List.mem_append_right _ (List.mem_singleton_self last)))]
      exact not_lt.mp (fun hlt => hroom (Or.inl hlt))
  full := by
    obtain ⟨hparts, _, hlink⟩ := List.isChain_append.mp h.full
    refine List.isChain_append.mpr ⟨hparts, List.isChain_singleton _, ?_⟩
    intro part hpart next hnext first hfirst
    obtain rfl : last ++ [item] = next := Option.some.inj hnext
    -- the first item of the part is the one it had before
    have hne : last ≠ [] := h.ne_nil last (List.mem_append_right _ (List.mem_singleton_self last))
    rw [List.head?_append_of_ne_nil _ hne] at hfirst
    exact hlink part hpart last rfl first hfirst

theorem IsGreedyCut.pairwise {r : ι → ι → Prop}
    (h : IsGreedyCut add quota maxQuota maxSize items parts) (hitems : items.Pairwise r) :
    ∀ part ∈ parts, part.Pairwise r := by
  rw [← h.flatten_eq, List.pairwise_flatten] at hitems
  exact hitems.1

end GreedyCut
