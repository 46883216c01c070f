/-
# `RLCM.ForcedOutput.Budget` — where a trace is cut

`forced_output_utils.py` resolves every configured budget against the length
of a trace, clamps, sorts and removes duplicates and non-positive lengths; the
agent loop may then add the full length.  The result every later stage relies
on is `truncationLengths_strictAsc`: the cut points of a trace are strictly
ascending, so they can serve as dictionary keys.

Fractions are resolved with exact arithmetic and round-half-to-even.
-/
import Mathlib.Data.List.Sort
import RLCM.Py.Num

namespace RLCM.ForcedOutput

open Py

/-- One configured budget: `int` or `float`. -/
inductive Budget where
  | int (n : ℤ)
  | float (x : ℚ)
deriving DecidableEq

/-- `resolve_budget_checkpoint`: a float in `(0, 1]` is a fraction of the
trace, everything else an absolute number of tokens. -/
def resolveBudgetCheckpoint (traceLength : ℕ) : Budget → ℤ
  | .float x =>
      if 0 < x ∧ x ≤ 1 then min (traceLength : ℤ) (roundHalfEven (traceLength * x))
      else min (traceLength : ℤ) (intOfFloat x)
  | .int n => min (traceLength : ℤ) n

/-- The body of the deduplication loop.  The source keeps the `seen` set next
to the list; both hold the same lengths. -/
def dedupStep (deduped : List ℕ) (length : ℤ) : List ℕ :=
  if 0 < length ∧ length.toNat ∉ deduped then deduped ++ [length.toNat] else deduped

def computeBudgetTruncationLengths (traceLength : ℕ) (budgetCheckpoints : List Budget) :
    List ℕ :=
  let clamped := budgetCheckpoints.map (resolveBudgetCheckpoint traceLength)
  (clamped.insertionSort (· ≤ ·)).foldl dedupStep []

/-- The list of cut points of `ForcedOutputAgentLoop.run`: the resolved
budgets and, if asked for and missing, the full trace. -/
def truncationLengths (budgetCheckpoints : List Budget) (includeFullTrace : Bool)
    (traceLength : ℕ) : List ℕ :=
  let lengths := computeBudgetTruncationLengths traceLength budgetCheckpoints
  if includeFullTrace ∧ traceLength ∉ lengths then
    (lengths ++ [traceLength]).insertionSort (· ≤ ·)
  else lengths

/-- Strictly ascending. -/
abbrev StrictAsc (xs : List ℕ) : Prop := xs.Pairwise (· < ·)

theorem StrictAsc.nodup {xs : List ℕ} (h : StrictAsc xs) : xs.Nodup :=
  h.imp (fun hlt => Nat.ne_of_lt hlt)

theorem resolveBudgetCheckpoint_le (traceLength : ℕ) (b : Budget) :
    resolveBudgetCheckpoint traceLength b ≤ traceLength := by
  cases b with
  | int n => exact min_le_left _ _
  | float x =>
      simp only [resolveBudgetCheckpoint]
      split_ifs
      · exact min_le_left _ _
      · exact min_le_left _ _

/-! ## The deduplication loop -/

theorem mem_dedupStep {deduped : List ℕ} {length : ℤ} {b : ℕ} :
    b ∈ dedupStep deduped length ↔ b ∈ deduped ∨ (0 < length ∧ (b : ℤ) = length) := by
  unfold dedupStep
  split_ifs with h
  · simp only [List.mem_append, List.mem_singleton]
    have : b = length.toNat ↔ (b : ℤ) = length := by omega
    rw [this]
    exact or_congr_right ⟨fun hb => ⟨h.1, hb⟩, And.right⟩
  · constructor
    · exact Or.inl
    · rintro (hb | ⟨hpos, hb⟩)
      · exact hb
      · by_contra hmem
        apply h
        have : length.toNat = b := by omega
        exact ⟨hpos, this ▸ hmem⟩

/-- Pushing a length that is not below anything collected keeps the list
strictly ascending. -/
theorem dedupStep_strictAsc {deduped : List ℕ} {length : ℤ} (h : StrictAsc deduped)
    (hle : ∀ a ∈ deduped, (a : ℤ) ≤ length) : StrictAsc (dedupStep deduped length) := by
  unfold dedupStep
  split_ifs with hnew
  · refine List.pairwise_append.mpr ⟨h, List.pairwise_singleton _ _, ?_⟩
    intro a ha b hb
    rw [List.mem_singleton] at hb
    subst hb
    have hale := hle a ha
    have hane : a ≠ length.toNat := fun hEq => hnew.2 (hEq ▸ ha)
    omega
  · exact h

theorem foldl_dedupStep {lengths : List ℤ} (hsort : lengths.Pairwise (· ≤ ·)) :
    ∀ {deduped : List ℕ}, StrictAsc deduped →
      (∀ a ∈ deduped, ∀ x ∈ lengths, (a : ℤ) ≤ x) →
      StrictAsc (lengths.foldl dedupStep deduped) ∧
        ∀ b, b ∈ lengths.foldl dedupStep deduped ↔
          b ∈ deduped ∨ (0 < b ∧ (b : ℤ) ∈ lengths) := by
  induction lengths with
  | nil =>
      intro deduped h _
      exact ⟨h, fun b => by simp⟩
  | cons x xs ih =>
      intro deduped h hle
      obtain ⟨hx, hxs⟩ := List.pairwise_cons.mp hsort
      have hstep : StrictAsc (dedupStep deduped x) :=
        dedupStep_strictAsc h (fun a ha => hle a ha x List.mem_cons_self)
      have hbelow : ∀ a ∈ dedupStep deduped x, ∀ y ∈ xs, (a : ℤ) ≤ y := by
        intro a ha y hy
        rcases mem_dedupStep.mp ha with ha | ⟨_, ha⟩
        · exact hle a ha y (List.mem_cons_of_mem _ hy)
        · exact ha ▸ hx y hy
      obtain ⟨hasc, hmem⟩ := ih hxs hstep hbelow
      refine ⟨hasc, fun b => ?_⟩
      rw [List.foldl_cons, hmem b, mem_dedupStep, List.mem_cons]
      constructor
      · rintro ((hb | ⟨hpos, hb⟩) | ⟨hpos, hb⟩)
        · exact Or.inl hb
        · exact Or.inr ⟨by omega, Or.inl hb⟩
        · exact Or.inr ⟨hpos, Or.inr hb⟩
      · rintro (hb | ⟨hpos, hb | hb⟩)
        · exact Or.inl (Or.inl hb)
        · exact Or.inl (Or.inr ⟨by omega, hb⟩)
        · exact Or.inr ⟨hpos, hb⟩

/-! ## The cut points -/

theorem computeBudgetTruncationLengths_strictAsc (traceLength : ℕ) (budgets : List Budget) :
    StrictAsc (computeBudgetTruncationLengths traceLength budgets) :=
  (foldl_dedupStep (List.pairwise_insertionSort _ _) List.Pairwise.nil (by simp)).1

theorem mem_computeBudgetTruncationLengths {traceLength : ℕ} {budgets : List Budget} {b : ℕ} :
    b ∈ computeBudgetTruncationLengths traceLength budgets ↔
      0 < b ∧ ∃ c ∈ budgets, resolveBudgetCheckpoint traceLength c = b := by
  have h := (foldl_dedupStep
    (List.pairwise_insertionSort (· ≤ ·) (budgets.map (resolveBudgetCheckpoint traceLength)))
    List.Pairwise.nil (by simp)).2 b
  simp only [computeBudgetTruncationLengths]
  rw [h]
  simp [List.mem_insertionSort]

theorem truncationLengths_strictAsc (budgets : List Budget) (includeFullTrace : Bool)
    (traceLength : ℕ) : StrictAsc (truncationLengths budgets includeFullTrace traceLength) := by
  have hasc := computeBudgetTruncationLengths_strictAsc traceLength budgets
  simp only [truncationLengths]
  split_ifs with h
  · have hnodup :
        (computeBudgetTruncationLengths traceLength budgets ++ [traceLength]).Nodup := by
      refine List.nodup_append.mpr ⟨hasc.nodup, List.nodup_singleton _, ?_⟩
      intro a ha b hb
      rw [List.mem_singleton] at hb
      subst hb
      exact fun hab => h.2 (hab ▸ ha)
    have hperm := List.perm_insertionSort (· ≤ ·)
      (computeBudgetTruncationLengths traceLength budgets ++ [traceLength])
    have hle := List.pairwise_insertionSort (· ≤ ·)
      (computeBudgetTruncationLengths traceLength budgets ++ [traceLength])
    exact (List.Pairwise.and hle (hperm.nodup_iff.mpr hnodup)).imp
      (fun hab => lt_of_le_of_ne hab.1 hab.2)
  · exact hasc

example : computeBudgetTruncationLengths 3 [.float (1 / 5), .float (17 / 50), .float (49 / 100),
    .float 1] = [1, 3] := by
  decide +kernel

end RLCM.ForcedOutput
