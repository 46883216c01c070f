/-
# `RLCM.Eval.ProbeValLoss` — the validation loss and the batch size

`train_single_run` divides the sum of the batch losses by the number of
batches.  Every batch loss is a mean, so a short last batch weighs as much as a
full one: the validation loss is the mean over the samples only for the sizes
and losses that `EvenBatches` describes.  The scores beside it (`mae`, `brier`)
are taken over all samples at once.
-/
import Mathlib.Tactic.IntervalCases
import RLCM.Eval.ProbeSelection
import RLCM.Eval.ProbeSplit
import RLCM.Lib.BatchMeans

namespace RLCM.Eval

open Py Stats Blocks BatchMeans FirstMin

variable {G H M S : Type}

def meanSampleLoss (env : ProbeEnv G H M S) (valDs : List (ProbeSample H)) (model : M) : ℚ :=
  mean (valDs.map (sampleLoss env model))

/-- There are samples, and either no short batch, or one batch only, or a short
batch whose mean loss is that of the others. -/
def EvenBatches (env : ProbeEnv G H M S) (valDs : List (ProbeSample H)) (batchSize : ℕ)
    (model : M) : Prop :=
  valDs ≠ [] ∧ (batchSize ∣ valDs.length ∨ valDs.length ≤ batchSize ∨
    meanSampleLoss env (shortPart batchSize valDs) model =
      meanSampleLoss env (fullPart batchSize valDs) model)

theorem validationLoss_eq (env : ProbeEnv G H M S) {valDs : List (ProbeSample H)}
    (hval : valDs ≠ []) {batchSize : ℕ} (hbatch : 1 ≤ batchSize) (model : M) :
    validationLoss env valDs batchSize model =
      .ok (meanOfMeans batchSize (valDs.map (sampleLoss env model))) := by
  have hlen : (pieces batchSize valDs).length ≠ 0 :=
    fun hzero => pieces_ne_nil hval hbatch (List.length_eq_zero_iff.mp hzero)
  have hsum : (pieces batchSize valDs).foldl
      (fun valLoss batch => valLoss + mean (batch.map (sampleLoss env model))) 0 =
      ((pieces batchSize (valDs.map (sampleLoss env model))).map mean).sum := by
    rw [pieces_map, List.map_map, List.sum_eq_foldl, List.foldl_map]
    rfl
  rw [validationLoss, if_neg hlen, hsum, meanOfMeans, mean, List.length_map, pieces_map,
    List.length_map]

theorem validationLoss_nil (env : ProbeEnv G H M S) {batchSize : ℕ} (hbatch : 1 ≤ batchSize)
    (model : M) : validationLoss env [] batchSize model = .error .zeroDivisionError := by
  rw [validationLoss, pieces_nil hbatch]
  rfl

theorem probeSweep_setsUp {V : Type} {splitEnv : SplitEnv V} {groupKey : String}
    {metadata : List (ProbeMetadata V)} {split : List ℕ × List ℕ}
    (hsplit : ValidSplit splitEnv groupKey metadata split) (env : ProbeEnv G H M S)
    {dataset : List (ProbeSample H)} (hdataset : dataset.length = metadata.length)
    {base : ProbeBaseConfig} (hbatch : 1 ≤ base.batchSize) :
    SetsUp (probeSweep env dataset (some split)) base := by
  intro config generators hconfig
  obtain ⟨trainDs, valDs, htrain, hval, hne⟩ := hsplit.parts hdataset
  refine ⟨probeEpochs env trainDs valDs config, env.initModel config generators,
    fun model => meanOfMeans config.batchSize (valDs.map (sampleLoss env model)),
    probeScores env valDs, ?_, ⟨fun model => ?_⟩⟩
  · simp only [probeSweep, splitDataset, Option.getD_some, htrain, hval, ok_bind, pure_eq_ok]
  · have hsize : 1 ≤ config.batchSize := by
      rw [← hconfig] at hbatch
      exact hbatch
    simp only [probeEpochs, validationLoss_eq env hne hsize, ok_bind, pure_eq_ok]

theorem validationLoss_eq_mean_iff (env : ProbeEnv G H M S) (valDs : List (ProbeSample H))
    {batchSize : ℕ} (hbatch : 1 ≤ batchSize) (model : M) :
    validationLoss env valDs batchSize model = .ok (meanSampleLoss env valDs model) ↔
      EvenBatches env valDs batchSize model := by
  rcases eq_or_ne valDs [] with rfl | hval
  · rw [validationLoss_nil env hbatch]
    exact iff_of_false (fun h => by cases h) (fun h => h.1 rfl)
  · have hiff := meanOfMeans_eq_mean_iff hbatch (valDs.map (sampleLoss env model))
    rw [List.length_map, shortPart, fullPart, List.length_map, ← List.map_drop,
      ← List.map_take] at hiff
    rw [validationLoss_eq env hval hbatch, Except.ok.injEq, meanSampleLoss, hiff]
    exact (and_iff_right hval).symm

/-- `val_loss` is the mean over the validation samples exactly for even batches,
and two batch sizes whose batches are even for the models of all epochs select
the same epoch. -/
theorem validation_loss_even_batches (env : ProbeEnv G H M S) (valDs : List (ProbeSample H))
    (batchSize : ℕ) (hbatch : 1 ≤ batchSize) :
    (∀ model, validationLoss env valDs batchSize model = .ok (meanSampleLoss env valDs model) ↔
      EvenBatches env valDs batchSize model) ∧
    (∀ (batchSize' : ℕ) (models : ℕ → M) (losses losses' : ℕ → ℚ), 1 ≤ batchSize' →
      (∀ epoch, validationLoss env valDs batchSize (models epoch) = .ok (losses epoch)) →
      (∀ epoch, validationLoss env valDs batchSize' (models epoch) = .ok (losses' epoch)) →
      (∀ epoch, EvenBatches env valDs batchSize (models epoch)) →
      (∀ epoch, EvenBatches env valDs batchSize' (models epoch)) →
        ∀ epochs epoch, IsFirstMin losses epochs epoch ↔ IsFirstMin losses' epochs epoch) := by
  refine ⟨fun model => validationLoss_eq_mean_iff env valDs hbatch model, ?_⟩
  intro batchSize' models losses losses' hbatch' hlosses hlosses' heven heven' epochs epoch
  have hsame : losses = losses' := by
    funext e
    have h := (validationLoss_eq_mean_iff env valDs hbatch (models e)).mpr (heven e)
    have h' := (validationLoss_eq_mean_iff env valDs hbatch' (models e)).mpr (heven' e)
    rw [hlosses e] at h
    rw [hlosses' e] at h'
    exact (Except.ok.inj h).trans (Except.ok.inj h').symm
  rw [hsame]

/-! ## Three samples in batches of two -/

/-- Every label is one; the model says on which sample it is wrong. -/
def oneWrongEnv (fns : Elementary) : ProbeEnv Unit ℕ ℕ Unit where
  fns := fns
  corrcoef _ _ := 0
  randperm _ _ total := List.range total
  initModel _ _ := 0
  trainEpoch _ _ model := model
  logit model sample := if sample = model then -1 else 1
  schedulerStep model _ := model
  stateDict _ := ()
  generators _ := ()

def threeOnes : List (ProbeSample ℕ) := [(0, 1), (1, 1), (2, 1)]

theorem sampleLoss_oneWrong (fns : Elementary) (model sample : ℕ) :
    sampleLoss (oneWrongEnv fns) model (sample, 1) =
      fns.log (1 + fns.exp (-1)) + if sample = model then 1 else 0 := by
  have hround : ((roundHalfEven 1 : ℤ) : ℚ) = 1 := by
    exact_mod_cast roundHalfEven_intCast 1
  simp only [sampleLoss, bceWithLogits, oneWrongEnv, hround]
  split_ifs
  · norm_num
    ring
  · norm_num

theorem validationLoss_two (fns : Elementary) {model : ℕ} (hmodel : model < 3) :
    validationLoss (oneWrongEnv fns) threeOnes 2 model =
      .ok (fns.log (1 + fns.exp (-1)) + if model = 2 then 1 / 2 else 1 / 4) := by
  have hpieces : pieces 2 threeOnes = [[(0, 1), (1, 1)], [(2, 1)]] := rfl
  rw [validationLoss, hpieces]
  refine congrArg Except.ok ?_
  simp only [List.foldl_cons, List.foldl_nil, List.map_cons, List.map_nil, sampleLoss_oneWrong,
    mean, List.sum_cons, List.sum_nil, List.length_cons, List.length_nil]
  interval_cases model
  all_goals
    norm_num
    ring

theorem meanSampleLoss_three (fns : Elementary) {model : ℕ} (hmodel : model < 3) :
    meanSampleLoss (oneWrongEnv fns) threeOnes model = fns.log (1 + fns.exp (-1)) + 1 / 3 := by
  simp only [meanSampleLoss, threeOnes, List.map_cons, List.map_nil, sampleLoss_oneWrong,
    mean, List.sum_cons, List.sum_nil, List.length_cons, List.length_nil]
  interval_cases model
  all_goals
    norm_num
    ring

theorem validationLoss_three (fns : Elementary) {model : ℕ} (hmodel : model < 3) :
    validationLoss (oneWrongEnv fns) threeOnes 3 model =
      .ok (fns.log (1 + fns.exp (-1)) + 1 / 3) := by
  rw [← meanSampleLoss_three fns hmodel]
  refine (validationLoss_eq_mean_iff _ _ (by decide) model).mpr ⟨List.cons_ne_nil _ _, ?_⟩
  exact Or.inl (dvd_refl 3)

/-- The model of an epoch: wrong on the last sample, then on the first. -/
def wrongOn (epoch : ℕ) : ℕ := if epoch = 0 then 2 else 0

theorem wrongOn_lt (epoch : ℕ) : wrongOn epoch < 3 := by
  unfold wrongOn
  split_ifs
  · decide
  · decide

/-- Whatever `exp` and `log` are: in batches of two the loss is not the mean over
the three samples, and the second epoch is selected where one batch selects the
first. -/
theorem validation_loss_batches_of_two :
    (¬ ∃ fns : Elementary, ∀ (valDs : List (ProbeSample ℕ)) (batchSize model : ℕ),
      valDs ≠ [] → 1 ≤ batchSize → validationLoss (oneWrongEnv fns) valDs batchSize model =
        .ok (meanSampleLoss (oneWrongEnv fns) valDs model)) ∧
    (¬ ∃ fns : Elementary, ∀ (valDs : List (ProbeSample ℕ)) (batchSize batchSize' : ℕ)
        (models : ℕ → ℕ) (losses losses' : ℕ → ℚ), 1 ≤ batchSize → 1 ≤ batchSize' →
      (∀ epoch, validationLoss (oneWrongEnv fns) valDs batchSize (models epoch) =
        .ok (losses epoch)) →
      (∀ epoch, validationLoss (oneWrongEnv fns) valDs batchSize' (models epoch) =
        .ok (losses' epoch)) →
        ∀ epochs epoch, IsFirstMin losses epochs epoch ↔ IsFirstMin losses' epochs epoch) := by
  refine ⟨?_, ?_⟩
  · rintro ⟨fns, hclaim⟩
    have h := hclaim threeOnes 2 2 (List.cons_ne_nil _ _) (by decide)
    rw [validationLoss_two fns (by decide), meanSampleLoss_three fns (by decide), if_pos rfl] at h
    have hloss := add_left_cancel (Except.ok.inj h)
    norm_num at hloss
  · rintro ⟨fns, hclaim⟩
    have h := (hclaim threeOnes 2 3 wrongOn _ _ (by decide) (by decide)
      (fun epoch => validationLoss_two fns (wrongOn_lt epoch))
      (fun epoch => validationLoss_three fns (wrongOn_lt epoch)) 2 1).mp
      ⟨by decide, fun i hi => ?_, fun i hi => ?_⟩
    · exact lt_irrefl _ (h.first 0 (by decide))
    · refine add_le_add_right ?_ _
      unfold wrongOn
      split_ifs
      all_goals norm_num
    · obtain rfl : i = 0 := Nat.lt_one_iff.mp hi
      refine add_lt_add_right ?_ _
      unfold wrongOn
      norm_num

/-- Four samples in batches of two. -/
theorem validation_loss_even_batches_four :
    validationLoss (oneWrongEnv ⟨fun _ => 0, fun _ => 0, fun _ => 0⟩)
        [(0, 1), (1, 1), (2, 1), (3, 1)] 2 0 =
      .ok (meanSampleLoss (oneWrongEnv ⟨fun _ => 0, fun _ => 0, fun _ => 0⟩)
        [(0, 1), (1, 1), (2, 1), (3, 1)] 0) :=
  ((validation_loss_even_batches _ _ 2 (by decide)).1 0).mpr
    ⟨List.cons_ne_nil _ _, Or.inl (by decide)⟩

end RLCM.Eval
