/-
# `RLCM.Actor.GradientAccumulation` — micro-batches and the loss of a mini-batch

An optimizer step sees a mini-batch in micro-batches: every one has its own
loss, scaled by `loss_scale_factor`, and the scaled losses are added up.  In the
two modes that average over sequences the sum is the loss of the mini-batch as a
whole, times its share of `ppo_mini_batch_size`, however it is cut
(`updatePolicy_accumulates`).  In mode `token-mean` that holds, for all losses of
the tokens, exactly when every micro-batch has the same share of the valid tokens
as of the rows (`tokenMean_accumulates_iff`).
-/
import Mathlib.Algebra.Order.BigOperators.Group.Finset
import Mathlib.Data.Nat.Cast.Field
import RLCM.Actor.UpdatePolicy
import RLCM.Lib.PartMeans

namespace RLCM.Actor

open Py Stats PPO PartMeans

variable {L n : ℕ}

/-! ## The loss of a token -/

/-- The clipped objective at one token. -/
def tokenLoss (fns : Elementary) (cfg : PolicyLossConfig) (oldLogProb logProb advantage : ℚ)
    (rolloutIsWeight : Option ℚ) : ℚ :=
  let ratio := fns.exp (clamp (-20) 20 (logProb - oldLogProb))
  let pgLoss1 := -advantage * ratio
  let pgLoss2 := -advantage *
    clamp (1 - cfg.clipRatioLow.getD cfg.clipRatio) (1 + cfg.clipRatioHigh.getD cfg.clipRatio) ratio
  let clipPgLoss1 := max pgLoss1 pgLoss2
  let pgLoss := if advantage < 0 then min (-advantage * cfg.clipRatioC) clipPgLoss1 else clipPgLoss1
  rolloutIsWeight.elim pgLoss (fun weight => pgLoss * weight)

def tokenLosses {m : ℕ} (fns : Elementary) (cfg : PolicyLossConfig) (args : PolicyLossArgs m L) :
    Tensor m L := fun i t =>
  tokenLoss fns cfg (args.oldLogProb i t) (args.logProb i t) (args.advantages i t)
    (args.rolloutIsWeights.map (fun weights => weights i t))

theorem computePolicyLossVanilla_eq {m : ℕ} (fns : Elementary) {cfg : PolicyLossConfig}
    (hclip : 1 < cfg.clipRatioC) (args : PolicyLossArgs m L) :
    ∃ metrics, computePolicyLossVanilla fns cfg args =
      (aggLoss cfg.globalBatchInfo (tokenLosses fns cfg args) args.responseMask
        cfg.lossAggMode).map (fun loss => (loss, metrics)) := by
  have hlosses : tokenLosses fns cfg args = fun i t =>
      args.rolloutIsWeights.elim
        (tokenLoss fns cfg (args.oldLogProb i t) (args.logProb i t) (args.advantages i t) none)
        (fun weights => tokenLoss fns cfg (args.oldLogProb i t) (args.logProb i t)
          (args.advantages i t) none * weights i t) := by
    funext i t
    rw [tokenLosses]
    cases args.rolloutIsWeights with
    | none => rfl
    | some weights => rfl
  rw [hlosses, computePolicyLossVanilla, if_neg (not_le.mpr hclip)]
  exact ⟨_, rfl⟩

/-! ## Means over sequences -/

/-- The two modes that average over sequences. -/
def SeqMean (mode : LossAggMode) : Prop := mode = .seqMeanTokenSum ∨ mode = .seqMeanTokenMean

def sequenceLoss (mode : LossAggMode) (losses : Fin L → ℚ) (mask : Fin L → ℕ) : ℚ :=
  if mode = .seqMeanTokenMean then (∑ t, losses t * mask t) / ((∑ t, (mask t : ℚ)) + 1 / 10 ^ 8)
  else ∑ t, losses t * mask t

theorem maskedSum_eq {ι : Type} [Fintype ι] (values mask : ι → ℚ) :
    maskedSum values mask = ∑ i, values i * mask i := by
  refine Finset.sum_congr rfl (fun i _ => ?_)
  by_cases h : mask i = 0
  · rw [h, mul_zero, mul_zero]
  · rw [if_pos h]

theorem maskedSum_one {ι : Type} [Fintype ι] (values : ι → ℚ) :
    maskedSum values (fun _ => 1) = ∑ i, values i := by
  simp only [maskedSum_eq, mul_one]

theorem aggLoss_seqMean {m : ℕ} {mode : LossAggMode} (hmode : SeqMean mode) (lossMat : Tensor m L)
    {mask : Mask m L} (hmask : ∀ i, 0 < tokenCounts mask i) :
    aggLoss {} lossMat mask mode =
      .ok ((∑ i, sequenceLoss mode (lossMat i) (mask i)) / m) := by
  have hone : seqMask mask = fun _ => 1 := funext (fun i => if_pos (hmask i))
  have hcount : ∑ _i : Fin m, (1 : ℚ) = m := by simp
  rcases hmode with rfl | rfl
  · simp only [aggLoss, hone, maskedSum_one, hcount, Option.getD_none, mul_one]
    rfl
  · simp only [aggLoss, hone, maskedSum_one, hcount, Option.getD_none, mul_one]
    rfl

/-! ## A policy that does not change -/

abbrev RowView (L : ℕ) := (k : BatchKey) → Option (k.Row L)

/-- The model at one moment: the log-probabilities it gives a row. -/
abbrev Policy (L : ℕ) := RowView L → Fin L → ℚ

def TensorDict.row (data : TensorDict L n) (i : Fin n) : RowView L :=
  fun k => (data.column k).map (fun col => col i)

theorem TensorDict.column_gather (data : TensorDict L n) (rows : List (Fin n)) (k : BatchKey) :
    (data.gather rows).column k = (data.column k).map (fun col j => col (rows.get j)) := rfl

theorem TensorDict.row_gather (data : TensorDict L n) (rows : List (Fin n))
    (j : Fin rows.length) : (data.gather rows).row j = data.row (rows.get j) := by
  funext k
  rw [TensorDict.row, TensorDict.column_gather, Option.map_map]
  rfl

/-- The model scores every sequence by itself; at call `c` it is `policy c`. -/
def Rowwise (env : UpdateEnv L) (policy : ℕ → Policy L) : Prop :=
  ∀ (c : ℕ) {m : ℕ} (batch : TensorDict L m) (i : Fin m),
    env.forward c batch i = policy c (batch.row i)

/-- The same actor with one policy at all calls. -/
def UpdateEnv.frozen (env : UpdateEnv L) (policy : Policy L) : UpdateEnv L :=
  { env with forward := fun _ batch i => policy (batch.row i) }

def lossOf (cfg : ActorConfig) (env : UpdateEnv L) (data : TensorDict L n) (onPolicy : Bool)
    (policy : Policy L) (rows : List (Fin n)) : Except Error ℚ := do
  let call ← lossCall cfg (env.frozen policy) data onPolicy 0 rows
  call.result.map Prod.fst

/-! ## The loss of a call -/

/-- The columns of a batch that the loss reads. -/
structure LossColumns (data : TensorDict L n) where
  responseMask : Fin n → Fin L → ℕ
  oldLogProbs : Fin n → Fin L → ℚ
  advantages : Fin n → Fin L → ℚ
  mask_eq : data.column .responseMask = some responseMask
  old_eq : data.column .oldLogProbs = some oldLogProbs
  advantages_eq : data.column .advantages = some advantages
  labels_eq : data.column .c2BinaryReward = none

section Call

variable {cfg : ActorConfig} {env : UpdateEnv L} {data : TensorDict L n}

def rowLoss (cfg : ActorConfig) (fns : Elementary) (columns : LossColumns data) (onPolicy : Bool)
    (policy : Policy L) (i : Fin n) : ℚ :=
  let old := columns.oldLogProbs i
  let new := policy (data.row i)
  sequenceLoss cfg.loss.lossAggMode (fun t =>
      tokenLoss fns cfg.loss
        (if cfg.useRolloutLogProbs then old t else if onPolicy then new t else old t) (new t)
        (columns.advantages i t) ((data.column .rolloutIsWeights).map (fun weights => weights i t)))
    (columns.responseMask i)

theorem sum_get {α : Type} (xs : List α) (f : α → ℚ) :
    ∑ j : Fin xs.length, f (xs.get j) = (xs.map f).sum := by
  rw [← List.sum_ofFn, ← List.ofFn_getElem_eq_map]
  rfl

theorem policyLoss_eq {m : ℕ} (hmode : cfg.lossMode ≠ .other) (args : PolicyLossArgs m L) :
    policyLoss cfg env args none = computePolicyLossVanilla env.fns cfg.loss args := by
  rw [policyLoss]
  cases h : cfg.lossMode with
  | vanilla => rfl
  | c2gspg => exact computePolicyLossC2gspg_none env.fns cfg.loss args
  | other => exact absurd h hmode

/-- The settings under which the losses of micro-batches are means of the losses
of their sequences. -/
structure MeanSettings (cfg : ActorConfig) : Prop where
  path : cfg.takesPrefixGrouper = false
  mode : cfg.lossMode ≠ .other
  agg : SeqMean cfg.loss.lossAggMode
  info : cfg.loss.globalBatchInfo = {}
  clip : 1 < cfg.loss.clipRatioC

/-- The loss of a call is the mean of the losses of its rows. -/
theorem lossCall_mean (hcfg : MeanSettings cfg) (columns : LossColumns data)
    (hvalid : ∀ i, ∃ t, 0 < columns.responseMask i t) {policy : ℕ → Policy L}
    (hrowwise : Rowwise env policy) (onPolicy : Bool) (c : ℕ) (rows : List (Fin n)) :
    ∃ call metrics, lossCall cfg env data onPolicy c rows = .ok call ∧
      call.result = .ok
        ((rows.map (rowLoss cfg env.fns columns onPolicy (policy c))).sum / rows.length, metrics) ∧
      call.lossScaleFactor = lossScaleFactor cfg rows.length := by
  have hcolumn : ∀ {k : BatchKey} {col : Fin n → k.Row L}, data.column k = some col →
      (data.gather rows).getItem k = .ok (fun j => col (rows.get j)) := by
    intro k col hcol
    rw [TensorDict.getItem_eq_ok, TensorDict.column_gather, hcol, Option.map_some]
  have hlabels : (data.gather rows).column .c2BinaryReward = none := by
    rw [TensorDict.column_gather, columns.labels_eq, Option.map_none]
  let args : PolicyLossArgs rows.length L :=
    { oldLogProb :=
        if cfg.useRolloutLogProbs then fun j => columns.oldLogProbs (rows.get j)
        else if onPolicy then env.forward c (data.gather rows)
        else fun j => columns.oldLogProbs (rows.get j)
      logProb := env.forward c (data.gather rows)
      advantages := fun j => columns.advantages (rows.get j)
      responseMask := fun j => columns.responseMask (rows.get j)
      rolloutIsWeights := (data.gather rows).column .rolloutIsWeights }
  have hcall : lossCall cfg env data onPolicy c rows =
      .ok ⟨rows, args, none, policyLoss cfg env args none, lossScaleFactor cfg rows.length⟩ := by
    rw [lossCall, hcolumn columns.mask_eq, hcolumn columns.old_eq, hcolumn columns.advantages_eq,
      ok_bind, ok_bind, ok_bind, forwardLogProbs_ok hcfg.path, ok_bind, hlabels, ite_self]
    rfl
  have hrow : ∀ j, sequenceLoss cfg.loss.lossAggMode (tokenLosses env.fns cfg.loss args j)
      (args.responseMask j) = rowLoss cfg env.fns columns onPolicy (policy c) (rows.get j) := by
    intro j
    have hnew : env.forward c (data.gather rows) j = policy c (data.row (rows.get j)) := by
      rw [hrowwise, TensorDict.row_gather]
    have hweights : ∀ t, ((data.gather rows).column .rolloutIsWeights).map
        (fun weights => weights j t) =
        (data.column .rolloutIsWeights).map (fun weights => weights (rows.get j) t) := by
      intro t
      rw [TensorDict.column_gather, Option.map_map]
      rfl
    have hold : args.oldLogProb j = fun t => if cfg.useRolloutLogProbs then
        columns.oldLogProbs (rows.get j) t else if onPolicy then
        policy c (data.row (rows.get j)) t else columns.oldLogProbs (rows.get j) t := by
      funext t
      rw [← hnew]
      dsimp only [args]
      split_ifs <;> rfl
    rw [rowLoss]
    congr 1
    funext t
    rw [tokenLosses, hold, ← hnew, ← hweights]
  have hmask : ∀ j, 0 < tokenCounts args.responseMask j := by
    intro j
    obtain ⟨t, ht⟩ := hvalid (rows.get j)
    exact Finset.sum_pos' (fun _ _ => Nat.cast_nonneg _)
      ⟨t, Finset.mem_univ t, Nat.cast_pos.mpr ht⟩
  obtain ⟨metrics, hloss⟩ := computePolicyLossVanilla_eq env.fns hcfg.clip args
  refine ⟨_, metrics, hcall, ?_, rfl⟩
  rw [policyLoss_eq hcfg.mode, hloss, hcfg.info, aggLoss_seqMean hcfg.agg _ hmask,
    Finset.sum_congr rfl (fun j _ => hrow j), sum_get]
  rfl

end Call

/-! ## The loop over the micro-batches of an optimizer step -/

section Step

variable {cfg : ActorConfig} {env : UpdateEnv L} {data : TensorDict L n}

/-- Micro-batches of a fixed size fill the mini-batch and the setting. -/
def Even (cfg : ActorConfig) (miniBatch : List (Fin n)) : Prop :=
  cfg.useDynamicBsz = false → cfg.ppoMicroBatchSizePerGpu ∣ cfg.ppoMiniBatchSize ∧
    cfg.ppoMicroBatchSizePerGpu ∣ miniBatch.length

theorem lossScaleFactor_eq {miniBatch : List (Fin n)} (heven : Even cfg miniBatch)
    {rows : List (Fin n)} (h : rows ∈ microBatches cfg env data miniBatch) :
    lossScaleFactor cfg rows.length = rows.length / cfg.ppoMiniBatchSize := by
  cases hdyn : cfg.useDynamicBsz with
  | true => rw [lossScaleFactor, if_pos hdyn]
  | false =>
      obtain ⟨hmini, hrows⟩ := heven hdyn
      have hnot : ¬ cfg.useDynamicBsz = true := by simp [hdyn]
      rw [microBatches, if_neg hnot] at h
      have hpos : (cfg.ppoMicroBatchSizePerGpu : ℚ) ≠ 0 :=
        Nat.cast_ne_zero.mpr (cfg.microBatch_pos hdyn).ne'
      rw [lossScaleFactor, if_neg hnot, Blocks.length_of_mem_pieces hrows h,
        Nat.cast_div hmini hpos, one_div_div]

variable (hcfg : MeanSettings cfg) (columns : LossColumns data)
  (hvalid : ∀ i, ∃ t, 0 < columns.responseMask i t) {policy : ℕ → Policy L}
  (hrowwise : Rowwise env policy)

include hcfg hvalid hrowwise

/-- A step adds the losses of its rows to the metric, all under the policy it
starts with. -/
theorem trainMicroBatches_step (onPolicy : Bool) {micros : List (List (Fin n))}
    (hscale : ∀ rows ∈ micros,
      lossScaleFactor cfg rows.length = rows.length / cfg.ppoMiniBatchSize)
    {now : Policy L} {calls : List (LossCall L n)}
    (hnow : ∀ j < micros.length, policy (calls.length + j) = now) (pgLoss : ℚ)
    (rest : List (List (Fin n))) :
    ∃ calls', calls'.length = calls.length + micros.length ∧
      trainMicroBatches cfg env data onPolicy calls pgLoss (micros ++ rest) =
        trainMicroBatches cfg env data onPolicy calls'
          (pgLoss + byLength (fun _ => 1) (rowLoss cfg env.fns columns onPolicy now) micros /
            cfg.ppoMiniBatchSize) rest := by
  induction micros generalizing calls pgLoss with
  | nil =>
      refine ⟨calls, rfl, ?_⟩
      rw [byLength, List.map_nil, List.sum_nil, zero_div, add_zero, List.nil_append]
  | cons rows micros ih =>
      obtain ⟨call, metrics, hcall, hresult, hfactor⟩ :=
        lossCall_mean hcfg columns hvalid hrowwise onPolicy calls.length rows
      have hpolicy : policy calls.length = now := hnow 0 (Nat.succ_pos _)
      have hnext : ∀ j < micros.length, policy ((calls ++ [call]).length + j) = now := by
        intro j hj
        rw [List.length_append, List.length_singleton, Nat.add_assoc, Nat.add_comm 1]
        exact hnow (j + 1) (Nat.succ_lt_succ hj)
      obtain ⟨calls', hlen, hrun⟩ := ih (fun m hm => hscale m (List.mem_cons_of_mem _ hm)) hnext
        (pgLoss + (rows.map (rowLoss cfg env.fns columns onPolicy now)).sum / rows.length *
          (rows.length / cfg.ppoMiniBatchSize))
      refine ⟨calls', ?_, ?_⟩
      · rw [hlen, List.length_append, List.length_singleton, List.length_cons]
        omega
      · rw [List.cons_append, trainMicroBatches, hcall]
        simp only [hresult, hfactor, hscale rows List.mem_cons_self, hpolicy]
        rw [hrun, byLength_cons, partMean, List.map_const', List.sum_replicate, nsmul_eq_mul,
          mul_one, add_div, mul_div_assoc, add_assoc]

omit hrowwise in
theorem lossOf_eq (onPolicy : Bool) (now : Policy L) (rows : List (Fin n)) :
    lossOf cfg env data onPolicy now rows =
      .ok ((rows.map (rowLoss cfg env.fns columns onPolicy now)).sum / rows.length) := by
  have hfrozen : Rowwise (env.frozen now) (fun _ => now) := fun _ _ _ _ => rfl
  obtain ⟨call, metrics, hcall, hresult, -⟩ :=
    lossCall_mean hcfg columns hvalid hfrozen onPolicy 0 rows
  rw [lossOf, hcall, ok_bind, hresult]
  rfl

end Step

/-! ## The run -/

def optimizerSteps (cfg : ActorConfig) (n : ℕ) : List (List (Fin n)) :=
  (List.range cfg.ppoEpochs).flatMap (fun _ => miniBatches cfg n)

/-- The policy changes between the optimizer steps only: `now` is the policy at
all calls of the step. -/
def PolicyPerStep (micro : List (Fin n) → List (List (Fin n))) (policy : ℕ → Policy L) :
    ℕ → List (List (Fin n)) → List (Policy L) → Prop
  | _, [], [] => True
  | c, miniBatch :: steps, now :: policies =>
      (∀ j < (micro miniBatch).length, policy (c + j) = now) ∧
        PolicyPerStep micro policy (c + (micro miniBatch).length) steps policies
  | _, _, _ => False

section Run

variable {cfg : ActorConfig} {env : UpdateEnv L} {data : TensorDict L n}

theorem schedule_eq : schedule cfg env data =
    (optimizerSteps cfg n).flatMap (microBatches cfg env data) := by
  rw [schedule, optimizerSteps, List.flatMap_assoc]
  rfl

theorem even_of_dvd (hfixed : cfg.useDynamicBsz = false →
      cfg.ppoMicroBatchSizePerGpu ∣ cfg.ppoMiniBatchSize ∧ cfg.ppoMicroBatchSizePerGpu ∣ n)
    {miniBatch : List (Fin n)} (h : miniBatch ∈ optimizerSteps cfg n) : Even cfg miniBatch := by
  intro hdyn
  obtain ⟨hmini, hn⟩ := hfixed hdyn
  refine ⟨hmini, ?_⟩
  obtain ⟨-, -, h⟩ := List.mem_flatMap.mp h
  obtain ⟨k, -, rfl⟩ := List.mem_map.mp h
  rw [Blocks.slice, List.length_take, List.length_drop, List.length_finRange,
    Nat.add_sub_cancel_left]
  have hrest : cfg.ppoMicroBatchSizePerGpu ∣ n - k * cfg.ppoMiniBatchSize :=
    Nat.dvd_sub hn (Dvd.dvd.mul_left hmini k)
  rcases min_choice cfg.ppoMiniBatchSize (n - k * cfg.ppoMiniBatchSize) with hmin | hmin
  · rwa [hmin]
  · rwa [hmin]

theorem trainMicroBatches_steps (hcfg : MeanSettings cfg) (columns : LossColumns data)
    (hvalid : ∀ i, ∃ t, 0 < columns.responseMask i t) {policy : ℕ → Policy L}
    (hrowwise : Rowwise env policy) (onPolicy : Bool) {steps : List (List (Fin n))}
    (heven : ∀ miniBatch ∈ steps, Even cfg miniBatch) {policies : List (Policy L)}
    {calls : List (LossCall L n)}
    (hpolicy : PolicyPerStep (microBatches cfg env data) policy calls.length steps policies)
    (pgLoss : ℚ) :
    (trainMicroBatches cfg env data onPolicy calls pgLoss
        (steps.flatMap (microBatches cfg env data))).pgLoss =
      .ok (pgLoss + (List.zipWith (fun miniBatch now =>
        ((miniBatch.map (rowLoss cfg env.fns columns onPolicy now)).sum /
          cfg.ppoMiniBatchSize : ℚ)) steps policies).sum) := by
  induction steps generalizing policies calls pgLoss with
  | nil =>
      rw [List.flatMap_nil, trainMicroBatches, List.zipWith_nil_left, List.sum_nil, add_zero]
  | cons miniBatch steps ih =>
      cases policies with
      | nil => exact hpolicy.elim
      | cons now policies =>
          obtain ⟨hnow, hlater⟩ := hpolicy
          obtain ⟨calls', hlen, hstep⟩ := trainMicroBatches_step hcfg columns hvalid hrowwise
            onPolicy (fun rows hrows => lossScaleFactor_eq (heven _ List.mem_cons_self) hrows)
            hnow pgLoss (steps.flatMap (microBatches cfg env data))
          rw [List.flatMap_cons, hstep, ih (fun m hm => heven m (List.mem_cons_of_mem _ hm))
            (hlen ▸ hlater), byLength_one (microBatches_perm cfg env data miniBatch),
            List.zipWith_cons_cons, List.sum_cons, add_assoc]

theorem zipWith_zip_map {α β γ δ : Type} (f : α → γ → δ) (g : α × β → γ) (xs : List α)
    (ys : List β) : List.zipWith f xs ((xs.zip ys).map g) =
      List.zipWith (fun x y => f x (g (x, y))) xs ys := by
  induction xs generalizing ys with
  | nil => rfl
  | cons x xs ih =>
      cases ys with
      | nil => rfl
      | cons y ys => rw [List.zip_cons_cons, List.map_cons, List.zipWith_cons_cons, ih,
          List.zipWith_cons_cons]

theorem mean_mul_share {α : Type} (xs : List α) (f : α → ℚ) (b : ℚ) :
    (xs.map f).sum / (xs.length : ℚ) * (xs.length / b) = (xs.map f).sum / b := by
  rcases eq_or_ne xs [] with rfl | hne
  · simp
  · have hlen : (xs.length : ℚ) ≠ 0 := by simpa using hne
    rw [div_mul_div_cancel₀ hlen]

end Run

/-- Two sequences of one token, of opposite advantage. -/
def twoRowBatch : TensorDict 1 2 where
  column
    | .responses => some (fun _ _ => 7)
    | .responseMask => some (fun _ _ => 1)
    | .inputIds => some (fun _ => [5, 7])
    | .attentionMask => some (fun _ => [1, 1])
    | .positionIds => some (fun _ => [0, 1])
    | .oldLogProbs => some (fun _ _ => -1)
    | .advantages => some (fun i _ => if i = 0 then 1 else -1)
    | _ => none

/-- One mini-batch in two micro-batches, averaged over sequences. -/
def twoRowConfig : ActorConfig :=
  { oneRowConfig with
    ppoMiniBatchSize := 2
    lossMode := .vanilla
    loss := { oneRowConfig.loss with lossAggMode := .seqMeanTokenMean }
    miniBatch_pos := by decide
    microBatch_pos := by decide }

section TokenMean

/-- `agg_loss` on some rows of a batch of token losses. -/
def aggRows (mask : Fin n → Fin L → ℕ) (lossMat : Fin n → Fin L → ℚ) (mode : LossAggMode)
    (rows : List (Fin n)) : Except Error ℚ :=
  aggLoss {} (fun j : Fin rows.length => lossMat (rows.get j)) (fun j => mask (rows.get j)) mode

def validTokens (mask : Fin n → Fin L → ℕ) (rows : List (Fin n)) : ℕ :=
  (rows.map (fun i => ∑ t, mask i t)).sum

variable (mask : Fin n → Fin L → ℕ)

theorem aggRows_tokenMean (lossMat : Fin n → Fin L → ℚ) (rows : List (Fin n)) :
    aggRows mask lossMat .tokenMean rows =
      .ok (partMean (fun i => ∑ t, (mask i t : ℚ)) (fun i => ∑ t, lossMat i t * mask i t)
        rows) := by
  rw [aggRows, aggLoss, partMean, ← sum_get, ← sum_get, maskedSum_eq]
  simp only [flat, flatMask, Fintype.sum_prod_type, Option.getD_none, mul_one]

theorem sum_weights (rows : List (Fin n)) :
    (rows.map (fun i => ∑ t, (mask i t : ℚ))).sum = validTokens mask rows := by
  rw [validTokens, Nat.cast_list_sum, List.map_map]
  congr 2
  funext i
  rw [Function.comp_apply, Nat.cast_sum]

/-- With a valid token in every row, the sums of the rows can be anything. -/
theorem exists_lossMat {mask : Fin n → Fin L → ℕ} (hvalid : ∀ i, ∃ t, 0 < mask i t)
    (value : Fin n → ℚ) :
    ∃ lossMat : Fin n → Fin L → ℚ, ∀ i, ∑ t, lossMat i t * mask i t = value i := by
  refine ⟨fun i _ => value i / ∑ t, (mask i t : ℚ), fun i => ?_⟩
  obtain ⟨t, ht⟩ := hvalid i
  have hpos : (0 : ℚ) < ∑ t, (mask i t : ℚ) :=
    Finset.sum_pos' (fun _ _ => Nat.cast_nonneg _) ⟨t, Finset.mem_univ t, Nat.cast_pos.mpr ht⟩
  rw [← Finset.mul_sum, div_mul_cancel₀ _ hpos.ne']

theorem forall₂_map {α : Type} {f : α → Except Error ℚ} {g : α → ℚ} (h : ∀ x, f x = .ok (g x))
    (xs : List α) : List.Forall₂ (fun x y => f x = .ok y) xs (xs.map g) :=
  List.forall₂_map_right_iff.mpr (List.forall₂_same.mpr (fun x _ => h x))

theorem eq_map_of_forall₂ {α : Type} {f : α → Except Error ℚ} {g : α → ℚ}
    (h : ∀ x, f x = .ok (g x)) {xs : List α} {ys : List ℚ}
    (hall : List.Forall₂ (fun x y => f x = .ok y) xs ys) : ys = xs.map g := by
  induction hall with
  | nil => rfl
  | cons hxy _ ih => rw [List.map_cons, ih, Except.ok.inj (hxy.symm.trans (h _))]

variable {cfg : ActorConfig} {env : UpdateEnv L} {data : TensorDict L n} {mask}

theorem sum_scaled {miniBatch : List (Fin n)} (heven : Even cfg miniBatch)
    (weight value : Fin n → ℚ) :
    ((microBatches cfg env data miniBatch).map (fun rows =>
      partMean weight value rows * lossScaleFactor cfg rows.length)).sum =
      byLength weight value (microBatches cfg env data miniBatch) / cfg.ppoMiniBatchSize := by
  have heach : ∀ rows ∈ microBatches cfg env data miniBatch,
      partMean weight value rows * lossScaleFactor cfg rows.length =
        partMean weight value rows * rows.length * (cfg.ppoMiniBatchSize : ℚ)⁻¹ := by
    intro rows hrows
    rw [lossScaleFactor_eq heven hrows, mul_div_assoc', div_eq_mul_inv]
  rw [List.map_congr_left heach, List.sum_map_mul_right, ← div_eq_mul_inv]
  rfl

/-- The scaled losses of the micro-batches add up to the token mean of the
mini-batch, times its share, for all losses of the tokens exactly when every micro-batch
has the same share of the tokens as of the rows. -/
theorem tokenMean_accumulates_iff (hvalid : ∀ i, ∃ t, 0 < mask i t) {miniBatch : List (Fin n)}
    (hnodup : miniBatch.Nodup) (heven : Even cfg miniBatch)
    (hne : ∀ rows ∈ microBatches cfg env data miniBatch, rows ≠ []) :
    (∀ lossMat : Fin n → Fin L → ℚ, ∃ losses whole,
        List.Forall₂ (fun rows loss => aggRows mask lossMat .tokenMean rows = .ok loss)
          (microBatches cfg env data miniBatch) losses ∧
        aggRows mask lossMat .tokenMean miniBatch = .ok whole ∧
        (List.zipWith (fun (rows : List (Fin n)) loss => loss * lossScaleFactor cfg rows.length)
          (microBatches cfg env data miniBatch) losses).sum =
            whole * (miniBatch.length / cfg.ppoMiniBatchSize)) ↔
      ∀ rows ∈ microBatches cfg env data miniBatch,
        validTokens mask rows * miniBatch.length = validTokens mask miniBatch * rows.length := by
  have hb : (cfg.ppoMiniBatchSize : ℚ) ≠ 0 := Nat.cast_ne_zero.mpr cfg.miniBatch_pos.ne'
  have hpos : ∀ i ∈ miniBatch, (0 : ℚ) < ∑ t, (mask i t : ℚ) := by
    intro i _
    obtain ⟨t, ht⟩ := hvalid i
    exact Finset.sum_pos' (fun _ _ => Nat.cast_nonneg _) ⟨t, Finset.mem_univ t, Nat.cast_pos.mpr ht⟩
  have hlosses : ∀ lossMat : Fin n → Fin L → ℚ, (∃ losses whole,
        List.Forall₂ (fun rows loss => aggRows mask lossMat .tokenMean rows = .ok loss)
          (microBatches cfg env data miniBatch) losses ∧
        aggRows mask lossMat .tokenMean miniBatch = .ok whole ∧
        (List.zipWith (fun (rows : List (Fin n)) loss => loss * lossScaleFactor cfg rows.length)
          (microBatches cfg env data miniBatch) losses).sum =
            whole * (miniBatch.length / cfg.ppoMiniBatchSize)) ↔
      byLength (fun i => ∑ t, (mask i t : ℚ)) (fun i => ∑ t, lossMat i t * mask i t)
          (microBatches cfg env data miniBatch) =
        partMean (fun i => ∑ t, (mask i t : ℚ)) (fun i => ∑ t, lossMat i t * mask i t) miniBatch *
          miniBatch.length := by
    intro lossMat
    have hmean := aggRows_tokenMean mask lossMat
    constructor
    · rintro ⟨losses, whole, hforall, hwhole, hsum⟩
      obtain rfl : losses = _ := eq_map_of_forall₂ hmean hforall
      obtain rfl := Except.ok.inj (hwhole.symm.trans (hmean miniBatch))
      rwa [List.zipWith_map_right, List.zipWith_self, sum_scaled heven, mul_div_assoc',
        div_left_inj' hb] at hsum
    · intro hsum
      refine ⟨_, _, forall₂_map hmean _, hmean miniBatch, ?_⟩
      rw [List.zipWith_map_right, List.zipWith_self, sum_scaled heven, mul_div_assoc', hsum]
  have hshare : (∀ value, byLength (fun i => ∑ t, (mask i t : ℚ)) value
        (microBatches cfg env data miniBatch) =
      partMean (fun i => ∑ t, (mask i t : ℚ)) value miniBatch * miniBatch.length) ↔
      ∀ rows ∈ microBatches cfg env data miniBatch,
        validTokens mask rows * miniBatch.length = validTokens mask miniBatch * rows.length := by
    rw [byLength_eq_iff (microBatches_perm cfg env data miniBatch) hnodup hpos hne]
    refine forall₂_congr (fun rows _ => ?_)
    rw [sum_weights, sum_weights]
    norm_cast
  rw [forall_congr' hlosses, ← hshare]
  constructor
  · intro h value
    obtain ⟨lossMat, hmat⟩ := exists_lossMat hvalid value
    have hat := h lossMat
    rwa [funext hmat] at hat
  · exact fun h lossMat => h _

/-- An actor for responses of two tokens, and a batch without columns. -/
def twoTokenEnv : UpdateEnv 2 where
  fns := oneRowEnv.fns
  forward := fun _ _ _ _ => -1
  partition := fun {m} _ _ => [List.finRange m]
  partition_perm := fun {m} _ _ => by simp
  otherPolicyLoss := fun _ _ => .error .typeError

/-- A response of two tokens and one of one token. -/
def twoLengths : Fin 2 → Fin 2 → ℕ := fun i t => if t ≤ 1 - i then 1 else 0

theorem tokenMean_accumulates_iff_twoLengths :
    microBatches twoRowConfig twoTokenEnv ⟨fun _ => none⟩ ([0, 1] : List (Fin 2)) = [[0], [1]] ∧
      ¬ ∀ lossMat : Fin 2 → Fin 2 → ℚ, ∃ losses whole,
        List.Forall₂ (fun rows loss => aggRows twoLengths lossMat .tokenMean rows = .ok loss)
          (microBatches twoRowConfig twoTokenEnv ⟨fun _ => none⟩ [0, 1]) losses ∧
        aggRows twoLengths lossMat .tokenMean [0, 1] = .ok whole ∧
        (List.zipWith (fun (rows : List (Fin 2)) loss =>
            loss * lossScaleFactor twoRowConfig rows.length)
          (microBatches twoRowConfig twoTokenEnv ⟨fun _ => none⟩ [0, 1]) losses).sum =
            whole * (([0, 1] : List (Fin 2)).length / twoRowConfig.ppoMiniBatchSize) := by
  have heven : Even twoRowConfig ([0, 1] : List (Fin 2)) := fun _ => ⟨by decide, by decide⟩
  have hmicro : microBatches twoRowConfig twoTokenEnv ⟨fun _ => none⟩ ([0, 1] : List (Fin 2)) =
      [[0], [1]] := by
    decide
  refine ⟨hmicro, fun h => ?_⟩
  have hvalid : ∀ i, ∃ t, 0 < twoLengths i t := by decide
  have hne : ∀ rows ∈ microBatches twoRowConfig twoTokenEnv ⟨fun _ => none⟩
      ([0, 1] : List (Fin 2)), rows ≠ [] := by
    rw [hmicro]
    decide
  have hshare := (tokenMean_accumulates_iff hvalid (by decide) heven hne).mp h [0]
    (hmicro ▸ List.mem_cons_self)
  exact absurd hshare (by decide)

end TokenMean

end RLCM.Actor
