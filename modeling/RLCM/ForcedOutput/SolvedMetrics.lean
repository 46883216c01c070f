/-
# `RLCM.ForcedOutput.SolvedMetrics` — prompt groups solved by all or by none

`compute_solved_metrics` and the block of `fit` that does the same for the
natural traces run one loop over the prompt groups: a group whose samples are
all correct adds to `solved_all`, one without a correct sample to
`solved_none`.  `solvedCounts_eq` replaces the loop by two counts.

The two callers differ in where the correctness of a sample comes from.
`compute_solved_metrics` takes `forced_output_any_correct` if it is there with
the right length, and the sign of the sequence score otherwise.
-/
import RLCM.Lib.Row
import RLCM.ForcedOutput.CornerFilter

namespace RLCM.ForcedOutput

open Py

variable {Uid : Type} [DecidableEq Uid] {L : ℕ}

/-- The two counters of the loop. -/
structure SolvedCounts where
  solvedAll : ℕ
  solvedNone : ℕ
deriving DecidableEq

/-- The body of the loop over the groups; a group without samples is passed
over. -/
def solvedStep (uids : List Uid) (isCorrect : List Bool) (st : SolvedCounts) (g : Uid) :
    SolvedCounts :=
  if (uids.filter (· = g)).isEmpty then st
  else if (groupCorrect uids isCorrect g).all id then
    { st with solvedAll := st.solvedAll + 1 }
  else if !(groupCorrect uids isCorrect g).any id then
    { st with solvedNone := st.solvedNone + 1 }
  else st

/-- The loop over `np.unique(uids)`. -/
def solvedCounts (uids : List Uid) (isCorrect : List Bool) : SolvedCounts :=
  uids.dedup.foldl (solvedStep uids isCorrect) ⟨0, 0⟩

/-- `compute_solved_metrics`; the empty dictionary is `none`. -/
def computeSolvedMetrics (uids : Option (List Uid)) (forcedOutputAnyCorrect : Option (List Bool))
    (tokenLevelScores : Option (List (Fin L → ℚ))) (correctIfScoreGt : ℚ) :
    Option SolvedCounts :=
  uids.bind (fun uids =>
    match forcedOutputAnyCorrect.filter (fun flags => flags.length = uids.length) with
    | some isCorrect => some (solvedCounts uids isCorrect)
    | none => tokenLevelScores.map (fun scores =>
        solvedCounts uids (scores.map (fun row => decide (correctIfScoreGt < Row.sum row)))))

/-- `training/natural_trace_solved_all` and `training/natural_trace_solved_none`
of `fit`, if they are written. -/
def naturalTraceSolved (uids : Option (List Uid)) (naturalCorrect : Option (List Bool)) :
    Option SolvedCounts :=
  uids.bind (fun uids =>
    (naturalCorrect.filter (fun flags => flags.length = uids.length)).map (solvedCounts uids))

/-! ## What the loop counts -/

def allCorrect (uids : List Uid) (isCorrect : List Bool) (g : Uid) : Bool :=
  (groupCorrect uids isCorrect g).all id

/-- No sample of the group is correct, and the group is not one of the above. -/
def noneCorrect (uids : List Uid) (isCorrect : List Bool) (g : Uid) : Bool :=
  !allCorrect uids isCorrect g && !(groupCorrect uids isCorrect g).any id

/-- The loop counts the groups of either kind. -/
theorem foldl_solvedStep (uids : List Uid) (isCorrect : List Bool) (groups : List Uid)
    (hgroups : ∀ g ∈ groups, g ∈ uids) (st : SolvedCounts) :
    groups.foldl (solvedStep uids isCorrect) st =
      ⟨st.solvedAll + groups.countP (allCorrect uids isCorrect),
        st.solvedNone + groups.countP (noneCorrect uids isCorrect)⟩ := by
  induction groups generalizing st with
  | nil => rfl
  | cons g groups ih =>
      have hg : g ∈ uids := hgroups g List.mem_cons_self
      have hmem : (uids.filter (· = g)).isEmpty = false := by
        rw [List.isEmpty_eq_false_iff_exists_mem]
        exact ⟨g, List.mem_filter.mpr ⟨hg, by simp⟩⟩
      rw [List.foldl_cons, ih (fun g' hg' => hgroups g' (List.mem_cons_of_mem _ hg')),
        List.countP_cons, List.countP_cons]
      unfold solvedStep noneCorrect allCorrect
      rw [hmem]
      cases (groupCorrect uids isCorrect g).all id with
      | true => simp [add_assoc, add_comm]
      | false =>
          cases (groupCorrect uids isCorrect g).any id with
          | true => simp
          | false => simp [add_assoc, add_comm]

theorem solvedCounts_eq (uids : List Uid) (isCorrect : List Bool) :
    solvedCounts uids isCorrect =
      ⟨uids.dedup.countP (allCorrect uids isCorrect),
        uids.dedup.countP (noneCorrect uids isCorrect)⟩ := by
  have hloop := foldl_solvedStep uids isCorrect uids.dedup
    (fun g hg => List.mem_dedup.mp hg) ⟨0, 0⟩
  rw [solvedCounts, hloop, Nat.zero_add, Nat.zero_add]

theorem computeSolvedMetrics_of_flags {uids : List Uid} {flags : List Bool}
    (hlen : flags.length = uids.length) (scores : Option (List (Fin L → ℚ))) (threshold : ℚ) :
    computeSolvedMetrics (some uids) (some flags) scores threshold =
      some (solvedCounts uids flags) := by
  simp [computeSolvedMetrics, Option.filter, hlen]

theorem naturalTraceSolved_of_flags {uids : List Uid} {flags : List Bool}
    (hlen : flags.length = uids.length) :
    naturalTraceSolved (some uids) (some flags) = some (solvedCounts uids flags) := by
  simp [naturalTraceSolved, Option.filter, hlen]

end RLCM.ForcedOutput
