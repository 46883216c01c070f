/-
# `RLCM.ForcedOutput.BudgetFeatures` — features of padded sequences

`fit` gives `extract_budget_hidden_states` the hidden states of a padded row and
the width of the padded prompt.  The end of the window is then the response token
at the budget, but its start is clamped at position 0, not at the first real
token: with `avg_last_k` longer than the real tokens up to the budget, states of
left padding enter the mean (`budgetHiddenState_padded`).
-/
import RLCM.ForcedOutput.Probe

namespace RLCM.ForcedOutput

open Py Stats

variable {d : ℕ}

/-- The hidden states of one row of the batch: a left-padded prompt and a
right-padded response. -/
structure PaddedRow (d : ℕ) where
  leftPad : List (Features d)
  prompt : List (Features d)
  response : List (Features d)
  rightPad : List (Features d)

namespace PaddedRow

variable (row : PaddedRow d)

/-- The row as the model returns it. -/
def hiddenStates : List (Features d) :=
  row.leftPad ++ (row.prompt ++ (row.response ++ row.rightPad))

/-- `total_seq_len - response_len`. -/
def promptLenGlobal : ℕ := row.hiddenStates.length - (row.response ++ row.rightPad).length

/-- The sequence without its padding. -/
def unpadded : List (Features d) := row.prompt ++ row.response

/-- The real tokens up to response token `b`. -/
def tokensUpTo (b : ℕ) : List (Features d) := row.prompt ++ row.response.take b

/-- The mean over the last `avg_last_k` of them, or over all if they are fewer. -/
def realFeature (avgLastK b : ℕ) : Features d :=
  meanRows ((row.tokensUpTo b).drop
    ((row.tokensUpTo b).length - min avgLastK (row.prompt.length + b)))

/-- The padding that a window of `avg_last_k` positions takes in. -/
def padWindow (avgLastK b : ℕ) : List (Features d) :=
  row.leftPad.drop (row.leftPad.length + (row.prompt.length + b) - avgLastK)

/-! ## The window -/

theorem promptLenGlobal_eq : row.promptLenGlobal = row.leftPad.length + row.prompt.length := by
  unfold promptLenGlobal hiddenStates
  simp only [List.length_append]
  omega

theorem hiddenStates_eq (b : ℕ) : row.hiddenStates =
    (row.leftPad ++ row.tokensUpTo b) ++ (row.response.drop b ++ row.rightPad) := by
  unfold hiddenStates tokensUpTo
  conv_lhs => rw [← List.take_append_drop b row.response]
  simp only [List.append_assoc]

theorem unpadded_eq (b : ℕ) : row.unpadded = row.tokensUpTo b ++ row.response.drop b := by
  unfold unpadded tokensUpTo
  rw [List.append_assoc, List.take_append_drop]

end PaddedRow

/-- A budget that ends at the last of some states averages over the last
`avg_last_k` of these. -/
theorem budgetHiddenState_window {states rest : List (Features d)} {promptLength k b : ℕ}
    (hend : promptLength + b = states.length) (hstates : states ≠ []) (hk : 1 ≤ k) :
    budgetHiddenState (states ++ rest) promptLength k b =
      meanRows (states.drop (states.length - k)) := by
  have hpos := List.length_pos_iff.mpr hstates
  have hmin : min (promptLength + b) (states ++ rest).length = states.length := by
    rw [hend, List.length_append]
    exact Nat.min_eq_left (Nat.le_add_right _ _)
  unfold budgetHiddenState
  dsimp only
  rw [hmin, if_neg (by omega), Blocks.slice_window]

theorem meanRows_append_eq_iff {xs ys : List (Features d)} (hxs : xs ≠ []) :
    meanRows (xs ++ ys) = meanRows ys ↔ meanRows xs = meanRows ys := by
  unfold meanRows
  rw [funext_iff, funext_iff]
  refine forall_congr' fun k => ?_
  rw [List.map_append]
  exact mean_append_eq_iff (fun h => hxs (List.map_eq_nil_iff.mp h))

namespace PaddedRow

section Budget

variable {row : PaddedRow d} {k b : ℕ} (hk : 1 ≤ k) (hb : 1 ≤ b)
  (hvalid : b ≤ row.response.length)
include hvalid

theorem length_tokensUpTo : (row.tokensUpTo b).length = row.prompt.length + b := by
  rw [tokensUpTo, List.length_append, List.length_take_of_le hvalid]

include hb

theorem tokensUpTo_ne_nil : row.tokensUpTo b ≠ [] := by
  rw [← List.length_pos_iff, length_tokensUpTo hvalid]
  omega

include hk

theorem budgetHiddenState_unpadded :
    budgetHiddenState row.unpadded row.prompt.length k b = row.realFeature k b := by
  have hlength := length_tokensUpTo hvalid
  rw [unpadded_eq row b, budgetHiddenState_window hlength.symm (tokensUpTo_ne_nil hb hvalid) hk,
    realFeature, hlength]
  congr 2
  omega

theorem budgetHiddenState_padded :
    budgetHiddenState row.hiddenStates row.promptLenGlobal k b =
      meanRows (row.padWindow k b ++
        (row.tokensUpTo b).drop ((row.tokensUpTo b).length - k)) := by
  have hlength := length_tokensUpTo hvalid
  have hend : row.promptLenGlobal + b = (row.leftPad ++ row.tokensUpTo b).length := by
    rw [promptLenGlobal_eq, List.length_append, hlength, Nat.add_assoc]
  have hne : row.leftPad ++ row.tokensUpTo b ≠ [] :=
    List.append_ne_nil_of_right_ne_nil _ (tokensUpTo_ne_nil hb hvalid)
  rw [hiddenStates_eq row b, budgetHiddenState_window hend hne hk, List.drop_append, padWindow,
    List.length_append, hlength]
  congr 3
  omega

/-- The feature is that of the real tokens exactly when the window ends before
the padding, or there is none, or it changes nothing. -/
theorem budgetHiddenState_eq_realFeature_iff :
    budgetHiddenState row.hiddenStates row.promptLenGlobal k b = row.realFeature k b ↔
      k ≤ row.prompt.length + b ∨ row.leftPad = [] ∨
        meanRows (row.padWindow k b) = meanRows (row.tokensUpTo b) := by
  have hlength := length_tokensUpTo hvalid
  rw [← budgetHiddenState_unpadded hk hb hvalid, budgetHiddenState_padded hk hb hvalid,
    unpadded_eq row b, budgetHiddenState_window hlength.symm (tokensUpTo_ne_nil hb hvalid) hk]
  rcases Nat.lt_or_ge (row.prompt.length + b) k with hlong | hshort
  · rw [hlength, Nat.sub_eq_zero_of_le hlong.le, List.drop_zero]
    by_cases hpad : row.leftPad = []
    · rw [padWindow, hpad, List.drop_nil, List.nil_append]
      exact iff_of_true rfl (.inr (.inl rfl))
    · have hpos := List.length_pos_iff.mpr hpad
      have hwindow : row.padWindow k b ≠ [] := by
        rw [← List.length_pos_iff, padWindow, List.length_drop]
        omega
      rw [meanRows_append_eq_iff hwindow]
      constructor
      · intro h
        exact .inr (.inr h)
      · rintro (h | h | h)
        · omega
        · exact absurd h hpad
        · exact h
  · have hnil : row.padWindow k b = [] := by
      refine List.drop_eq_nil_of_le ?_
      omega
    rw [hnil, List.nil_append]
    exact iff_of_true rfl (.inl hshort)

end Budget

end PaddedRow

/-- The features of a padded row are those of its real tokens, as on the sequence
without padding, exactly when for every budget `avg_last_k` is at most the number
of real tokens, or there is no left padding, or the padding in the window has the
mean of the real tokens. -/
theorem budget_features_padding_free_iff (row : PaddedRow d) (budgets : List ℕ) (k : ℕ)
    (hk : 1 ≤ k) (hne : budgets ≠ [])
    (hbudgets : ∀ b ∈ budgets, 1 ≤ b ∧ b ≤ row.response.length) :
    (extractBudgetHiddenStates row.hiddenStates row.promptLenGlobal budgets k =
        .ok (budgets.map (row.realFeature k)) ∧
      extractBudgetHiddenStates row.hiddenStates row.promptLenGlobal budgets k =
        extractBudgetHiddenStates row.unpadded row.prompt.length budgets k) ↔
      ∀ b ∈ budgets, k ≤ row.prompt.length + b ∨ row.leftPad = [] ∨
        meanRows (row.padWindow k b) = meanRows (row.tokensUpTo b) := by
  have hunpadded : budgets.map (budgetHiddenState row.unpadded row.prompt.length k) =
      budgets.map (row.realFeature k) :=
    List.map_congr_left fun b hb =>
      PaddedRow.budgetHiddenState_unpadded hk (hbudgets b hb).1 (hbudgets b hb).2
  rw [extractBudgetHiddenStates_of_ne hne, extractBudgetHiddenStates_of_ne hne, hunpadded, and_self,
    Except.ok.injEq, List.map_inj_left]
  exact forall₂_congr fun b hb =>
    PaddedRow.budgetHiddenState_eq_realFeature_iff hk (hbudgets b hb).1 (hbudgets b hb).2

/-! ### A prompt of one token, padded to three -/

/-- The states are numbered from 1; the padding is negative. -/
def paddedPrompt : PaddedRow 1 where
  leftPad := [fun _ => -7, fun _ => -5]
  prompt := [fun _ => 1]
  response := [fun _ => 2, fun _ => 3]
  rightPad := [fun _ => -9]

/-- Two positions never reach the padding. -/
theorem budget_features_padding_free_paddedPrompt :
    extractBudgetHiddenStates paddedPrompt.hiddenStates paddedPrompt.promptLenGlobal [1, 2] 2 =
        .ok ([1, 2].map (paddedPrompt.realFeature 2)) ∧
      extractBudgetHiddenStates paddedPrompt.hiddenStates paddedPrompt.promptLenGlobal [1, 2] 2 =
        extractBudgetHiddenStates paddedPrompt.unpadded paddedPrompt.prompt.length [1, 2] 2 :=
  have hshort : ∀ b ∈ [1, 2], 2 ≤ paddedPrompt.prompt.length + b := by decide
  (budget_features_padding_free_iff paddedPrompt [1, 2] 2 (by decide) (by decide)
    (by decide)).mpr fun b hb => .inl (hshort b hb)

/-- Three positions at budget 1 take in the padding next to the prompt. -/
theorem budget_features_of_padding :
    ¬ ∀ (row : PaddedRow 1) (budgets : List ℕ) (k : ℕ), 1 ≤ k → budgets ≠ [] →
      (∀ b ∈ budgets, 1 ≤ b ∧ b ≤ row.response.length) →
      extractBudgetHiddenStates row.hiddenStates row.promptLenGlobal budgets k =
        .ok (budgets.map (row.realFeature k)) := by
  intro hclaim
  have h := hclaim paddedPrompt [1] 3 (by decide) (by decide) (by decide)
  have hfeature := (List.cons.inj (Except.ok.inj h)).1
  exact absurd (congrFun hfeature 0) (by decide +kernel)

end RLCM.ForcedOutput
