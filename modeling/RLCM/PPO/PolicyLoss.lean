/-
# `RLCM.PPO.PolicyLoss` — the clipped surrogate and its calibration term

`compute_policy_loss_vanilla` and `compute_policy_loss_c2gspg` on one
micro-batch.  A tensor of shape `(bsz, response_length)` is a function on
`Fin m` and `Fin L`, so the shapes of the arguments of one call agree by
construction.

The two losses share the dual-clip PPO objective.  The second adds a weighted
binary cross-entropy between the confidence of the new policy in the whole
sequence and a binary label, but only when the labels are there.
-/
import RLCM.Py.Error
import RLCM.Lib.Stats
import Mathlib.Algebra.BigOperators.Fin
import Mathlib.Data.Fintype.BigOperators

namespace RLCM.PPO

open Py Stats

variable {m L : ℕ}

/-- A tensor of shape `(bsz, response_length)`. -/
abbrev Tensor (m L : ℕ) := Fin m → Fin L → ℚ

/-- A 0/1 mask of shape `(bsz, response_length)`. -/
abbrev Mask (m L : ℕ) := Fin m → Fin L → ℕ

/-! ## Aggregation -/

section Masked

variable {ι : Type} [Fintype ι]

/-- `masked_sum`; the mask may be numeric. -/
def maskedSum (values mask : ι → ℚ) : ℚ := ∑ i, (if mask i ≠ 0 then values i else 0) * mask i

def maskedMean (values mask : ι → ℚ) : ℚ := maskedSum values mask / ((∑ i, mask i) + 1 / 10 ^ 8)

end Masked

/-- A tensor as a function on its positions. -/
def flat (mat : Tensor m L) : Fin m × Fin L → ℚ := fun p => mat p.1 p.2

def flatMask (mask : Mask m L) : Fin m × Fin L → ℚ := fun p => mask p.1 p.2

/-- The number of valid tokens of every sequence. -/
def tokenCounts (mask : Mask m L) : Fin m → ℚ := fun i => ∑ t, (mask i t : ℚ)

/-- `(torch.sum(loss_mask, dim=-1) > 0).float()`. -/
def seqMask (mask : Mask m L) : Fin m → ℚ := fun i => if 0 < tokenCounts mask i then 1 else 0

/-- `torch.sum(loss_mat * loss_mask, dim=-1)`. -/
def tokenSums (mat : Tensor m L) (mask : Mask m L) : Fin m → ℚ := fun i => ∑ t, mat i t * mask i t

/-- `loss_agg_mode`; an unknown mode keeps its name. -/
inductive LossAggMode where
  | tokenMean
  | seqMeanTokenSum
  | seqMeanTokenMean
  | seqMeanTokenSumNorm
  | unknown (name : String)
deriving DecidableEq

/-- `config.global_batch_info`, with the defaults of `agg_loss`. -/
structure GlobalBatchInfo where
  dpSize : ℚ := 1
  batchNumTokens : Option ℚ := none
  globalBatchSize : Option ℚ := none
  lossScaleFactor : Option ℚ := none

def aggLoss (info : GlobalBatchInfo) (lossMat : Tensor m L) (lossMask : Mask m L) :
    LossAggMode → Except Error ℚ
  | .tokenMean =>
      let batchNumTokens := info.batchNumTokens.getD (∑ p, flatMask lossMask p)
      .ok (maskedSum (flat lossMat) (flatMask lossMask) / batchNumTokens * info.dpSize)
  | .seqMeanTokenSum =>
      let globalBatchSize := info.globalBatchSize.getD (∑ i, seqMask lossMask i)
      .ok (maskedSum (tokenSums lossMat lossMask) (seqMask lossMask) / globalBatchSize *
        info.dpSize)
  | .seqMeanTokenMean =>
      let globalBatchSize := info.globalBatchSize.getD (∑ i, seqMask lossMask i)
      let seqLosses := fun i =>
        tokenSums lossMat lossMask i / (tokenCounts lossMask i + 1 / 10 ^ 8)
      .ok (maskedSum seqLosses (seqMask lossMask) / globalBatchSize * info.dpSize)
  | .seqMeanTokenSumNorm =>
      .ok ((∑ i, tokenSums lossMat lossMask i) / info.lossScaleFactor.getD L)
  | .unknown name => .error (.valueError ("Invalid loss_agg_mode: " ++ name))

/-! ## The clipped objective -/

/-- The entries of the actor configuration the losses read. -/
structure PolicyLossConfig where
  clipRatio : ℚ
  clipRatioLow : Option ℚ
  clipRatioHigh : Option ℚ
  clipRatioC : ℚ
  lossAggMode : LossAggMode
  globalBatchInfo : GlobalBatchInfo
  c2gspgBceBeta : ℚ

/-- The tensors every policy loss gets. -/
structure PolicyLossArgs (m L : ℕ) where
  oldLogProb : Tensor m L
  logProb : Tensor m L
  advantages : Tensor m L
  responseMask : Mask m L
  rolloutIsWeights : Option (Tensor m L)

/-- `pg_metrics`; the last two entries are written only with the calibration
term. -/
structure PgMetrics where
  pgClipfrac : ℚ
  ppoKl : ℚ
  pgClipfracLower : ℚ
  c2gspgBceLoss : Option ℚ := none
  c2gspgBceBeta : Option ℚ := none
deriving DecidableEq

/-- `negative_approx_kl`, clamped for stability. -/
def negativeApproxKl (args : PolicyLossArgs m L) : Tensor m L :=
  fun i t => clamp (-20) 20 (args.logProb i t - args.oldLogProb i t)

def computePolicyLossVanilla (fns : Elementary) (cfg : PolicyLossConfig)
    (args : PolicyLossArgs m L) : Except Error (ℚ × PgMetrics) :=
  if cfg.clipRatioC ≤ 1 then .error .assertionError
  else do
    let clipRatioLow := cfg.clipRatioLow.getD cfg.clipRatio
    let clipRatioHigh := cfg.clipRatioHigh.getD cfg.clipRatio
    let ratio : Tensor m L := fun i t => fns.exp (negativeApproxKl args i t)
    let pgLosses1 : Tensor m L := fun i t => -args.advantages i t * ratio i t
    let pgLosses2 : Tensor m L := fun i t =>
      -args.advantages i t * clamp (1 - clipRatioLow) (1 + clipRatioHigh) (ratio i t)
    let clipPgLosses1 : Tensor m L := fun i t => max (pgLosses1 i t) (pgLosses2 i t)
    let pgLosses3 : Tensor m L := fun i t => -args.advantages i t * cfg.clipRatioC
    let clipPgLosses2 : Tensor m L := fun i t => min (pgLosses3 i t) (clipPgLosses1 i t)
    let pgLosses : Tensor m L := fun i t =>
      if args.advantages i t < 0 then clipPgLosses2 i t else clipPgLosses1 i t
    let weighted : Tensor m L := fun i t =>
      args.rolloutIsWeights.elim (pgLosses i t) (fun weights => pgLosses i t * weights i t)
    let pgLoss ← aggLoss cfg.globalBatchInfo weighted args.responseMask cfg.lossAggMode
    let mask := flatMask args.responseMask
    pure (pgLoss,
      { pgClipfrac := maskedMean
          (flat (fun i t => if pgLosses1 i t < pgLosses2 i t then 1 else 0)) mask
        ppoKl := maskedMean (flat (fun i t => -negativeApproxKl args i t)) mask
        pgClipfracLower := maskedMean
          (flat (fun i t =>
            (if pgLosses3 i t < clipPgLosses1 i t then 1 else 0) *
              (if args.advantages i t < 0 then 1 else 0))) mask })

/-! ## The calibration term -/

/-- The bound that keeps the confidence away from 0 and 1. -/
def confEps : ℚ := 1 / 10 ^ 6

/-- `new_seq_conf`: the clamped exponential of the mean token log-probability. -/
def newSeqConf (fns : Elementary) (logProb : Tensor m L) (responseMask : Mask m L) :
    Fin m → ℚ := fun i =>
  let tokenCount := max (tokenCounts responseMask i) 1
  clamp confEps (1 - confEps) (fns.exp (tokenSums logProb responseMask i / tokenCount))

def bcePerSeq (fns : Elementary) (labels conf : Fin m → ℚ) : Fin m → ℚ := fun i =>
  -(labels i * fns.log (conf i) + (1 - labels i) * fns.log (1 - conf i))

/-- `bce_loss`: the cross-entropy of every sequence on its valid tokens,
aggregated. -/
def bceLoss (fns : Elementary) (cfg : PolicyLossConfig) (args : PolicyLossArgs m L)
    (labels : Fin m → ℚ) : Except Error ℚ :=
  let perSeq := bcePerSeq fns labels (newSeqConf fns args.logProb args.responseMask)
  aggLoss cfg.globalBatchInfo (fun i t => perSeq i * args.responseMask i t) args.responseMask
    cfg.lossAggMode

def computePolicyLossC2gspg (fns : Elementary) (cfg : PolicyLossConfig)
    (args : PolicyLossArgs m L) (c2BinaryReward : Option (Fin m → ℚ)) :
    Except Error (ℚ × PgMetrics) := do
  let (pgLoss, pgMetrics) ← computePolicyLossVanilla fns cfg args
  match c2BinaryReward with
  | some labels =>
      if 0 < cfg.c2gspgBceBeta then do
        let bce ← bceLoss fns cfg args labels
        pure (pgLoss + cfg.c2gspgBceBeta * bce,
          { pgMetrics with c2gspgBceLoss := some bce, c2gspgBceBeta := some cfg.c2gspgBceBeta })
      else pure (pgLoss, pgMetrics)
  | none => pure (pgLoss, pgMetrics)

/-- The loss the method prescribes: the clipped policy-gradient term plus the
weighted calibration term on the labels. -/
def calibratedLoss (fns : Elementary) (cfg : PolicyLossConfig) (args : PolicyLossArgs m L)
    (labels : Fin m → ℚ) : Except Error ℚ := do
  let (pgLoss, _) ← computePolicyLossVanilla fns cfg args
  let bce ← bceLoss fns cfg args labels
  pure (pgLoss + cfg.c2gspgBceBeta * bce)

/-! ## What the loss is -/

section

variable (fns : Elementary) (cfg : PolicyLossConfig) (args : PolicyLossArgs m L)

theorem computePolicyLossC2gspg_none :
    computePolicyLossC2gspg fns cfg args none = computePolicyLossVanilla fns cfg args := by
  unfold computePolicyLossC2gspg
  cases computePolicyLossVanilla fns cfg args with
  | error e => rfl
  | ok loss => rfl

theorem computePolicyLossC2gspg_some (hbeta : 0 < cfg.c2gspgBceBeta) (labels : Fin m → ℚ) :
    (computePolicyLossC2gspg fns cfg args (some labels)).map Prod.fst =
      calibratedLoss fns cfg args labels := by
  unfold computePolicyLossC2gspg calibratedLoss
  cases computePolicyLossVanilla fns cfg args with
  | error e => rfl
  | ok loss =>
      simp only [ok_bind, if_pos hbeta]
      cases bceLoss fns cfg args labels with
      | error e => rfl
      | ok bce => rfl

/-- With a weight that is not positive the labels change nothing. -/
theorem computePolicyLossC2gspg_of_nonpos (hbeta : cfg.c2gspgBceBeta ≤ 0)
    (c2BinaryReward : Option (Fin m → ℚ)) :
    computePolicyLossC2gspg fns cfg args c2BinaryReward =
      computePolicyLossVanilla fns cfg args := by
  cases c2BinaryReward with
  | none => exact computePolicyLossC2gspg_none fns cfg args
  | some labels =>
      unfold computePolicyLossC2gspg
      simp only [if_neg (not_lt.mpr hbeta)]
      cases computePolicyLossVanilla fns cfg args with
      | error e => rfl
      | ok loss => rfl

end

/-- The confidence of a sequence is never 0 or 1, so its logarithms are taken
at positive numbers. -/
theorem newSeqConf_mem (fns : Elementary) (logProb : Tensor m L) (responseMask : Mask m L)
    (i : Fin m) :
    0 < newSeqConf fns logProb responseMask i ∧ newSeqConf fns logProb responseMask i < 1 := by
  have hlo : confEps ≤ newSeqConf fns logProb responseMask i := by
    refine le_min (le_max_right _ _) ?_
    norm_num [confEps]
  have hhi : newSeqConf fns logProb responseMask i ≤ 1 - confEps := min_le_right _ _
  have heps : 0 < confEps := by norm_num [confEps]
  constructor
  · linarith
  · linarith

end RLCM.PPO
