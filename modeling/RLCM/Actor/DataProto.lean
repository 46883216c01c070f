/-
# `RLCM.Actor.DataProto` — named columns with one row a sequence

The tensors of a `DataProto`: some of the known columns are present, and each
present column has one row for every sequence of the batch.  The number of
rows is an index of the type, so columns of different lengths cannot stand in
one batch.

`select` keeps the listed columns and raises when one is missing; `gather`
keeps the listed rows, in the order of the list, in every column.
-/
import RLCM.Py.Error
import RLCM.Lib.Blocks
import Mathlib.Data.List.FinRange
import Mathlib.Data.Rat.Defs

namespace RLCM.Actor

open Py

/-- The columns a training batch may carry. -/
inductive BatchKey where
  | responses
  | responseMask
  | inputIds
  | attentionMask
  | positionIds
  | prompts
  | oldLogProbs
  | refLogProb
  | rolloutIsWeights
  | rolloutLogProbs
  | advantages
  | tokenLevelRewards
  | oldSequenceConfidence
  | c2BinaryReward
deriving DecidableEq

/-- One row of a column, for responses of length `L`. -/
@[reducible] def BatchKey.Row (L : ℕ) : BatchKey → Type
  | .responses | .responseMask => Fin L → ℕ
  | .inputIds | .attentionMask | .positionIds | .prompts => List ℕ
  | .oldSequenceConfidence | .c2BinaryReward => ℚ
  | .oldLogProbs | .refLogProb | .rolloutIsWeights | .rolloutLogProbs | .advantages
  | .tokenLevelRewards => Fin L → ℚ

/-- A batch of `n` sequences. -/
structure TensorDict (L n : ℕ) where
  column : (k : BatchKey) → Option (Fin n → k.Row L)

namespace TensorDict

variable {L n : ℕ}

/-- `k in batch.keys()`. -/
def has (batch : TensorDict L n) (k : BatchKey) : Bool := (batch.column k).isSome

/-- `batch[k]`. -/
def getItem (batch : TensorDict L n) (k : BatchKey) : Except Error (Fin n → k.Row L) :=
  match batch.column k with
  | some col => .ok col
  | none => .error .keyError

/-- `batch.select(*keys)`. -/
def select (batch : TensorDict L n) (keys : List BatchKey) : Except Error (TensorDict L n) :=
  if keys.all batch.has then
    .ok { column := fun k => if k ∈ keys then batch.column k else none }
  else .error .keyError

/-- The rows at the listed indices, in every column. -/
def gather (batch : TensorDict L n) (rows : List (Fin n)) : TensorDict L rows.length where
  column k := (batch.column k).map (fun col j => col (rows.get j))

variable {batch : TensorDict L n} {keys : List BatchKey}

theorem getItem_eq_ok {k : BatchKey} {col : Fin n → k.Row L} :
    batch.getItem k = .ok col ↔ batch.column k = some col := by
  unfold getItem
  cases batch.column k with
  | none => simp
  | some col' => simp

theorem column_of_select {selected : TensorDict L n} (h : batch.select keys = .ok selected)
    (k : BatchKey) : selected.column k = if k ∈ keys then batch.column k else none := by
  unfold select at h
  split at h
  · cases h
    rfl
  · cases h

theorem select_returns :
    (∃ selected, batch.select keys = .ok selected) ↔ ∀ k ∈ keys, batch.column k ≠ none := by
  unfold select
  split
  case isTrue h =>
    rw [List.all_eq_true] at h
    refine ⟨fun _ k hk hnone => ?_, fun _ => ⟨_, rfl⟩⟩
    have := h k hk
    simp [has, hnone] at this
  case isFalse h =>
    refine ⟨?_, fun hall => ?_⟩
    · rintro ⟨_, h⟩
      cases h
    · refine absurd (List.all_eq_true.mpr fun k hk => ?_) h
      exact Option.isSome_iff_ne_none.mpr (hall k hk)

theorem column_of_select_of_not_mem {selected : TensorDict L n}
    (h : batch.select keys = .ok selected) {k : BatchKey} (hk : k ∉ keys) :
    selected.column k = none := by
  rw [column_of_select h, if_neg hk]

theorem column_of_select_of_mem {selected : TensorDict L n}
    (h : batch.select keys = .ok selected) {k : BatchKey} (hk : k ∈ keys) :
    selected.column k = batch.column k := by
  rw [column_of_select h, if_pos hk]

theorem has_of_select {selected : TensorDict L n} (h : batch.select keys = .ok selected)
    {k : BatchKey} (hk : k ∈ keys) : ∃ col, selected.column k = some col := by
  rw [column_of_select_of_mem h hk]
  exact Option.ne_none_iff_exists'.mp (select_returns.mp ⟨_, h⟩ k hk)

end TensorDict

end RLCM.Actor
