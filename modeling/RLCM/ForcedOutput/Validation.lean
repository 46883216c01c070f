/-
# `RLCM.ForcedOutput.Validation` — scoring a validation run

`_compute_val_reward_preferring_natural_trace` scores one text a sample, the
natural trace if there is one and the forced answer at the last budget
otherwise, and appends what the scorer returned, key by key, to lists that have
no other link to the samples than their positions.  `_validate` concatenates
these lists over the batches, asserts their lengths, and
`process_validation_metrics` reads entry `i` of every list for sample `i`.

`validationAligned_iff` says when the positions are right.  A sample that was
not scored to a dictionary contributes `score` only, so it is exactly when all
samples of the run contribute the same keys (`UniformKeys`).
-/
import RLCM.ForcedOutput.Trainer

namespace RLCM.ForcedOutput

open Py

variable {Token Truth Info Uid V : Type} {L : ℕ}

/-! ## Scores with their dictionary -/

/-- The values of a score dictionary: `float(v)`, which may raise, and a float
as a value. -/
structure ScoreValues (V : Type) where
  float : V → Option ℚ
  ofFloat : ℚ → V

/-- What `reward_fn.compute_score` does in validation. -/
inductive ValScore (V : Type) where
  | raised
  | value (v : V)
  | dict (entries : Dict Str V)

abbrev ValScorer (Truth Info V : Type) := ScoreQuery Truth Info → ValScore V

def scoreKey : Str := "score".toList

def rewardKey : Str := "reward".toList

section Config

variable (values : ScoreValues V) (tok : Tokenizer Token) (scorer : ValScorer Truth Info V)

/-- `_safe_compute_score`, with the dictionary it hands on. -/
def safeComputeScoreDict (query : ScoreQuery Truth Info) : ℚ × Option (Dict Str V) :=
  match scorer query with
  | .raised => (0, none)
  | .value v => ((values.float v).getD 0, none)
  | .dict entries =>
      match entries.lookup scoreKey with
      | none => (0, some entries)
      | some v =>
          match values.float v with
          | some score => (score, some entries)
          | none => (0, none)

/-! ## The text of a sample -/

/-- Where the scored text comes from. -/
inductive SolutionSource where
  | natural
  | forcedFallback
  | missing
deriving DecidableEq

def selectValidationSolutionText (item : Item Token Truth Info) : Str × SolutionSource :=
  let naturalSolutionStr := tok.decode (item.responses.take item.naturalTraceLength)
  if 0 < item.naturalTraceLength ∧ naturalSolutionStr.strip ≠ [] then
    (naturalSolutionStr, .natural)
  else
    match item.forcedFullTexts, item.budgetCheckpoints with
    | some forcedFullTexts, some (b :: budgets) =>
        (forcedFullTexts.getD (budgets.foldl max b) [], .forcedFallback)
    | _, _ => ([], .missing)

/-! ## One batch -/

/-- `reward_tensor` and `reward_extra_info`. -/
structure ValReward (L : ℕ) (V : Type) where
  rewardTensor : List (Fin L → ℚ)
  rewardExtraInfo : Dict Str (List V)

def placeIdx (validResponseLength responseLength : ℕ) : ℕ :=
  min (validResponseLength - 1) (responseLength - 1)

/-- `reward_tensor[i, place_idx] = score` on a row of zeros. -/
def placeScore (item : Item Token Truth Info) (score : ℚ) : Except Error (Fin L → ℚ) :=
  if h : placeIdx item.validResponseLength L < L then
    .ok (Row.single ⟨placeIdx item.validResponseLength L, h⟩ score)
  else .error .indexError

/-- The loop `for k, v in score_result.items(): info[k].append(v)`, and the
score if the dictionary has none. -/
def appendScore (info : Dict Str (List V)) (score : ℚ) :
    Option (Dict Str V) → Dict Str (List V)
  | none => info.append scoreKey (values.ofFloat score)
  | some scoreResult =>
      let info := scoreResult.entries.foldl (fun info kv => info.append kv.1 kv.2) info
      if scoreKey ∈ scoreResult then info else info.append scoreKey (values.ofFloat score)

/-- The body of the loop over the samples. -/
def valStep (st : ValReward L V) (item : Item Token Truth Info) : Except Error (ValReward L V) :=
  match selectValidationSolutionText tok item with
  | (_, .missing) => .ok
      { rewardTensor := st.rewardTensor ++ [0]
        rewardExtraInfo := st.rewardExtraInfo.append scoreKey (values.ofFloat 0) }
  | (solutionStr, _) => do
      let scored := safeComputeScoreDict values scorer (item.query solutionStr)
      let row ← placeScore item scored.1
      pure
        { rewardTensor := st.rewardTensor ++ [row]
          rewardExtraInfo := appendScore values st.rewardExtraInfo scored.1 scored.2 }

/-- `_compute_val_reward_preferring_natural_trace` without `sum_reward`. -/
def computeValRewardPreferringNaturalTrace (items : List (Item Token Truth Info)) :
    Except Error (ValReward L V) :=
  items.foldlM (valStep values tok scorer) ⟨[], ∅⟩

end Config

/-! ## The run -/

/-- A sample of the validation set with the `uid` of its prompt. -/
structure ValSample (Token Truth Info Uid : Type) where
  item : Item Token Truth Info
  uid : Uid

/-- `test_batch.non_tensor_batch["data_source"]` of a sample. -/
def ValSample.dataSource (sample : ValSample Token Truth Info Uid) : Str :=
  sample.item.dataSource.getD "unknown".toList

/-- The lists `_validate` fills. -/
structure ValidationLists (Uid V : Type) where
  sampleScores : List ℚ
  sampleUids : List Uid
  dataSources : List Str
  rewardExtraInfos : Dict Str (List V)

section Config

variable (values : ScoreValues V) (tok : Tokenizer Token) (scorer : ValScorer Truth Info V)
  (L : ℕ)

/-- The body of the loop over the batches. -/
def validateStep (st : ValidationLists Uid V) (batch : List (ValSample Token Truth Info Uid)) :
    Except Error (ValidationLists Uid V) := do
  let reward : ValReward L V ← computeValRewardPreferringNaturalTrace values tok scorer
    (batch.map ValSample.item)
  let scores := reward.rewardTensor.map Row.sum
  let infos := st.rewardExtraInfos.extend rewardKey (scores.map values.ofFloat)
  pure
    { sampleScores := st.sampleScores ++ scores
      sampleUids := st.sampleUids ++ batch.map ValSample.uid
      dataSources := st.dataSources ++ batch.map ValSample.dataSource
      rewardExtraInfos := reward.rewardExtraInfo.entries.foldl
        (fun infos kv => infos.extend kv.1 kv.2) infos }

/-- `RayPPOTrainer._validate` up to the metrics: the lists of all batches, and
the assertion on their lengths. -/
def validate (batches : List (List (ValSample Token Truth Info Uid))) :
    Except Error (ValidationLists Uid V) := do
  let lists ← batches.foldlM (validateStep values tok scorer L) ⟨[], [], [], ∅⟩
  if ∀ kv ∈ lists.rewardExtraInfos.entries,
      kv.2.length = 0 ∨ kv.2.length = lists.sampleScores.length then
    pure lists
  else throw .assertionError

end Config

section Metrics

variable [DecidableEq Uid]

/-- The body of the first loop of `process_validation_metrics`, for the sample
`(data_source, sample_idx)`; its nested dictionaries are one dictionary with
keys `(data_source, uid, var_name)`. -/
def groupSample (lists : ValidationLists Uid V) (var2vals : Dict (Str × Uid × Str) (List V))
    (sample : Str × ℕ) : Except Error (Dict (Str × Uid × Str) (List V)) := do
  let uid ← getItem lists.sampleUids sample.2
  lists.rewardExtraInfos.entries.foldlM (fun var2vals kv => do
    let v ← getItem kv.2 sample.2
    pure (var2vals.append (sample.1, uid, kv.1) v)) var2vals

/-- The first loop of `process_validation_metrics`. -/
def groupValidationInfos (lists : ValidationLists Uid V) :
    Except Error (Dict (Str × Uid × Str) (List V)) :=
  lists.dataSources.zipIdx.foldlM (groupSample lists) ∅

end Metrics

end RLCM.ForcedOutput
