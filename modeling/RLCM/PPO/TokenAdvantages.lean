/-
# `RLCM.PPO.TokenAdvantages` — advantages token by token

`compute_gae_advantage_return`, `compute_reinforce_plus_plus_outcome_advantage`
and `compute_remax_outcome_advantage`, with the whitening the first two end
with.  All of them go through a response from its last token; they differ in
what an observation token, one with mask `0`, does to what comes before it.

GAE passes over observation tokens (`computeGaeAdvantageReturn_spec`): the kept
tokens get what they would get if they were the whole response.  REINFORCE++
starts again at each of them, so a kept token sees the rewards of its own run
of kept tokens and no later ones; ReMax adds up all later kept rewards
(`reinforce_remax_returns`).
-/
import Mathlib.Data.List.TakeWhile
import RLCM.Lib.Masking
import RLCM.PPO.PolicyLoss

namespace RLCM.PPO

open Py Stats Masking

/-- One token of a response: its entries of `token_level_rewards` and
`response_mask`. -/
structure Token where
  reward : ℚ
  mask : ℕ
  mask01 : mask = 0 ∨ mask = 1

/-- The token is not an observation and not padding. -/
def Token.kept (x : Token) : Bool := x.mask ≠ 0

theorem Token.kept_iff (x : Token) : x.kept = true ↔ x.mask = 1 := by
  rw [Token.kept, decide_eq_true_eq]
  have := x.mask01
  omega

theorem Token.skipped_iff (x : Token) : x.kept = false ↔ x.mask = 0 := by
  rw [Token.kept, decide_eq_false_iff_not, not_not]

/-- A token with the estimate of the critic, its entry of `values`. -/
structure CriticToken extends Token where
  value : ℚ

def CriticToken.kept (x : CriticToken) : Bool := x.toToken.kept

/-! ## Whitening -/

section Whitening

variable (fns : Elementary)

/-- `torch.rsqrt`. -/
def rsqrt (x : ℚ) : ℚ := 1 / fns.sqrt x

/-- `masked_mean(values, mask)`, over all tokens of the batch. -/
def maskedMeanAll (values : List (List ℚ)) (mask : List (List ℕ)) : ℚ :=
  let cells := values.flatten.zip mask.flatten
  maskedMean (fun i : Fin cells.length => (cells.get i).1) (fun i => ((cells.get i).2 : ℚ))

def maskedVar (values : List (List ℚ)) (mask : List (List ℕ)) (unbiased : Bool) :
    Except Error ℚ :=
  let mean := maskedMeanAll values mask
  let centeredValues := values.map (·.map (fun v => v - mean))
  let variance := maskedMeanAll (centeredValues.map (·.map (fun v => v ^ 2))) mask
  if unbiased then
    let maskSum := mask.flatten.sum
    if maskSum = 0 then .error (.valueError "At least one element in the mask has to be 1.")
    else if maskSum = 1 then
      .error (.valueError "The sum of the mask is one, which can cause a division by zero.")
    else .ok (variance * (maskSum / (maskSum - 1)))
  else .ok variance

def maskedWhiten (values : List (List ℚ)) (mask : List (List ℕ)) (shiftMean : Bool) :
    Except Error (List (List ℚ)) := do
  let mean := maskedMeanAll values mask
  let var ← maskedVar values mask true
  let whitened := values.map (·.map (fun v => (v - mean) * rsqrt fns (var + 1 / 10 ^ 8)))
  .ok (if shiftMean then whitened else whitened.map (·.map (fun v => v + mean)))

end Whitening

/-! ## The three estimators -/

/-- `nextvalues` and `lastgaelam` in one row. -/
structure GaeState where
  nextvalues : ℚ
  lastgaelam : ℚ

/-- The body of the loop of GAE, with what it appends to `advantages_reversed`. -/
def gaeStep (gamma lam : ℚ) (x : CriticToken) (s : GaeState) : GaeState × ℚ :=
  let delta := x.reward + gamma * s.nextvalues - x.value
  let lastgaelam_ := delta + gamma * lam * s.lastgaelam
  let nextvalues := x.value * x.mask + (1 - x.mask) * s.nextvalues
  let lastgaelam := lastgaelam_ * x.mask + (1 - x.mask) * s.lastgaelam
  ({ nextvalues, lastgaelam }, lastgaelam)

def computeGaeAdvantageReturn (fns : Elementary) (gamma lam : ℚ)
    (rows : List (List CriticToken)) : Except Error (List (List ℚ) × List (List ℚ)) := do
  let advantages := rows.map (backward (gaeStep gamma lam) ⟨0, 0⟩)
  let returns := List.zipWith (List.zipWith (· + ·)) advantages
    (rows.map (·.map CriticToken.value))
  let advantages ← maskedWhiten fns advantages (rows.map (·.map (fun x => x.mask))) true
  .ok (advantages, returns)

/-- The body of the loop of REINFORCE++, with what it stores in `returns[:, t]`. -/
def reinforceStep (gamma : ℚ) (x : Token) (runningReturn : ℚ) : ℚ × ℚ :=
  let runningReturn := x.reward + gamma * runningReturn
  (runningReturn * x.mask, runningReturn)

def computeReinforcePlusPlusOutcomeAdvantage (fns : Elementary) (gamma : ℚ)
    (rows : List (List Token)) : Except Error (List (List ℚ) × List (List ℚ)) := do
  let returns := rows.map (backward (reinforceStep gamma) 0)
  let responseMask := rows.map (·.map Token.mask)
  let advantages ← maskedWhiten fns returns responseMask true
  .ok (List.zipWith (List.zipWith (fun a (m : ℕ) => a * (m : ℚ))) advantages responseMask, returns)

/-- `row.cumsum(dim=-1)`. -/
def cumsum (xs : List ℚ) : List ℚ := (xs.scanl (· + ·) 0).tail

def computeRemaxOutcomeAdvantage (rows : List (List Token)) (rewardBaselines : List ℚ) :
    List (List ℚ) × List (List ℚ) :=
  let returns := rows.map (fun row =>
    (cumsum (row.map (fun x => (x.reward * x.mask : ℚ))).reverse).reverse)
  let advantages := List.zipWith (fun returns (row, baseline) =>
    List.zipWith (fun r (x : Token) => r - baseline * x.mask) returns row)
    returns (rows.zip rewardBaselines)
  (advantages, returns)

/-! ## What whitening does to the kept tokens -/

section WhiteningSpec

variable (fns : Elementary)

/-- `masked_mean` of the kept values. -/
def dampedMean (xs : List ℚ) : ℚ := xs.sum / (xs.length + 1 / 10 ^ 8)

/-- `masked_var` of the kept values. -/
def dampedVar (xs : List ℚ) : ℚ :=
  dampedMean (xs.map (fun x => (x - dampedMean xs) ^ 2)) * (xs.length / (xs.length - 1))

def whiten (xs : List ℚ) (x : ℚ) : ℚ :=
  (x - dampedMean xs) * rsqrt fns (dampedVar xs + 1 / 10 ^ 8)

variable {α : Type} (maskOf : α → ℕ)

def Counts (x : α) : Bool := maskOf x ≠ 0

theorem picked_counts (xs : List α) (ys : List ℚ) :
    ((ys.zip (xs.map maskOf)).filter (fun c => c.2 ≠ 0)).map Prod.fst =
      picked (Counts maskOf) xs ys := by
  induction xs generalizing ys with
  | nil => simp
  | cons x xs ih =>
      cases ys with
      | nil => rfl
      | cons y ys =>
          rw [List.map_cons, List.zip_cons_cons]
          by_cases hx : maskOf x = 0
          · rw [picked_cons_of_skip (by simp [Counts, hx]), List.filter_cons_of_neg (by simp [hx]),
              ih]
          · rw [picked_cons_of_keep (by simp [Counts, hx]), List.filter_cons_of_pos (by simp [hx]),
              List.map_cons, ih]

theorem sum_cells {cells : List (ℚ × ℕ)} (h01 : ∀ c ∈ cells, c.2 = 0 ∨ c.2 = 1) :
    (cells.map (fun c => (if (c.2 : ℚ) ≠ 0 then c.1 else 0) * (c.2 : ℚ))).sum =
        ((cells.filter (fun c => c.2 ≠ 0)).map Prod.fst).sum ∧
      (cells.map (fun c => (c.2 : ℚ))).sum =
        ((cells.filter (fun c => c.2 ≠ 0)).map Prod.fst).length := by
  induction cells with
  | nil => simp
  | cons c cells ih =>
      obtain ⟨hvalues, hcount⟩ := ih (fun d hd => h01 d (List.mem_cons_of_mem _ hd))
      rw [List.map_cons, List.sum_cons, hvalues, List.map_cons, List.sum_cons, hcount]
      rcases h01 c List.mem_cons_self with hc | hc
      · rw [List.filter_cons_of_neg (by simp [hc])]
        simp [hc]
      · rw [List.filter_cons_of_pos (by simp [hc]), List.map_cons, List.sum_cons,
          List.length_cons]
        simp [hc, add_comm]

theorem maskedMean_cells {cells : List (ℚ × ℕ)} (h01 : ∀ c ∈ cells, c.2 = 0 ∨ c.2 = 1) :
    maskedMean (fun i : Fin cells.length => (cells.get i).1) (fun i => ((cells.get i).2 : ℚ)) =
      dampedMean ((cells.filter (fun c => c.2 ≠ 0)).map Prod.fst) := by
  have hsum : ∀ f : ℚ × ℕ → ℚ, ∑ i : Fin cells.length, f (cells.get i) = (cells.map f).sum := by
    intro f
    rw [← List.sum_ofFn, ← List.ofFn_getElem_eq_map]
    rfl
  obtain ⟨hvalues, hcount⟩ := sum_cells h01
  rw [dampedMean, ← hvalues, ← hcount, ← hsum, ← hsum]
  rfl

variable {maskOf} (h01 : ∀ x, maskOf x = 0 ∨ maskOf x = 1)

include h01

theorem maskedMeanAll_eq (rows : List (List α)) (values : List (List ℚ)) :
    maskedMeanAll values (rows.map (·.map maskOf)) =
      dampedMean (picked (Counts maskOf) rows.flatten values.flatten) := by
  have hcells : ∀ c ∈ values.flatten.zip (rows.flatten.map maskOf), c.2 = 0 ∨ c.2 = 1 := by
    intro c hc
    obtain ⟨x, -, hx⟩ := List.mem_map.mp (List.of_mem_zip hc).2
    exact hx ▸ h01 x
  rw [maskedMeanAll, ← List.map_flatten]
  exact (maskedMean_cells hcells).trans (by rw [picked_counts])

theorem sum_mask (rows : List (List α)) :
    (rows.map (·.map maskOf)).flatten.sum = (rows.flatten.filter (Counts maskOf)).length := by
  rw [← List.map_flatten]
  induction rows.flatten with
  | nil => rfl
  | cons x xs ih =>
      rw [List.map_cons, List.sum_cons, ih]
      rcases h01 x with hx | hx
      · rw [List.filter_cons_of_neg (by simp [Counts, hx]), hx, Nat.zero_add]
      · rw [List.filter_cons_of_pos (by simp [Counts, hx]), hx, List.length_cons, Nat.add_comm]

variable {rows : List (List α)} {values : List (List ℚ)}
  (hlen : values.flatten.length = rows.flatten.length)

include hlen

def twoKept : ℕ → Except Error Unit
  | 0 => .error (.valueError "At least one element in the mask has to be 1.")
  | 1 => .error (.valueError "The sum of the mask is one, which can cause a division by zero.")
  | _ => .ok ()

theorem maskedVar_eq : maskedVar values (rows.map (·.map maskOf)) true =
    (do
      twoKept (picked (Counts maskOf) rows.flatten values.flatten).length
      .ok (dampedVar (picked (Counts maskOf) rows.flatten values.flatten))) := by
  have hsquares : ∀ c : ℚ, maskedMeanAll ((values.map (·.map (fun v => v - c))).map
      (·.map (fun v => v ^ 2))) (rows.map (·.map maskOf)) =
      dampedMean ((picked (Counts maskOf) rows.flatten values.flatten).map
        (fun v => (v - c) ^ 2)) := by
    intro c
    rw [maskedMeanAll_eq h01, ← List.map_flatten, ← List.map_flatten, ← map_picked, ← map_picked,
      List.map_map]
    rfl
  have hcount : (rows.map (·.map maskOf)).flatten.sum =
      (picked (Counts maskOf) rows.flatten values.flatten).length := by
    rw [sum_mask h01, length_picked hlen]
  simp only [maskedVar, hsquares, hcount, maskedMeanAll_eq h01, if_true, dampedVar]
  match (picked (Counts maskOf) rows.flatten values.flatten).length with
  | 0 => rfl
  | 1 => rfl
  | n + 2 => rfl

theorem maskedWhiten_eq : maskedWhiten fns values (rows.map (·.map maskOf)) true =
    (do
      twoKept (picked (Counts maskOf) rows.flatten values.flatten).length
      .ok (values.map
        (·.map (whiten fns (picked (Counts maskOf) rows.flatten values.flatten))))) := by
  simp only [maskedWhiten, maskedVar_eq h01 hlen, maskedMeanAll_eq h01, if_true]
  match (picked (Counts maskOf) rows.flatten values.flatten).length with
  | 0 => rfl
  | 1 => rfl
  | n + 2 => rfl

end WhiteningSpec

/-! ## GAE on the kept tokens -/

/-- The estimate for the next token, `0` after the last one. -/
def nextValue : List CriticToken → ℚ
  | [] => 0
  | x :: _ => x.value

def tdErrors (gamma : ℚ) : List CriticToken → List ℚ
  | [] => []
  | x :: xs => (x.reward + gamma * nextValue xs - x.value) :: tdErrors gamma xs

/-- The advantages of a response without observation tokens: the TD errors
from each token on, discounted by `gamma * lam`. -/
def gae (gamma lam : ℚ) (row : List CriticToken) : List ℚ :=
  discountedRow (gamma * lam) (tdErrors gamma row)

variable (gamma lam : ℚ)

theorem gaeStep_of_kept {x : CriticToken} (h : x.kept = true) (s : GaeState) :
    gaeStep gamma lam x s =
      let lastgaelam := x.reward + gamma * s.nextvalues - x.value + gamma * lam * s.lastgaelam
      (⟨x.value, lastgaelam⟩, lastgaelam) := by
  have hmask : x.mask = 1 := x.toToken.kept_iff.mp h
  simp [gaeStep, hmask]

theorem gaeStep_of_skipped {x : CriticToken} (h : x.kept = false) (s : GaeState) :
    (gaeStep gamma lam x s).1 = s := by
  have hmask : x.mask = 0 := x.toToken.skipped_iff.mp h
  simp [gaeStep, hmask]

theorem after_gaeStep {row : List CriticToken} (h : ∀ x ∈ row, x.kept = true) :
    after (gaeStep gamma lam) ⟨0, 0⟩ row =
      ⟨nextValue row, discounted (gamma * lam) (tdErrors gamma row)⟩ := by
  induction row with
  | nil => simp [after, nextValue, tdErrors]
  | cons x xs ih =>
      have htail := ih (fun y hy => h y (List.mem_cons_of_mem _ hy))
      calc after (gaeStep gamma lam) ⟨0, 0⟩ (x :: xs)
          = (gaeStep gamma lam x (after (gaeStep gamma lam) ⟨0, 0⟩ xs)).1 := rfl
        _ = _ := by
          rw [gaeStep_of_kept gamma lam (h x List.mem_cons_self), htail, tdErrors,
            discounted_cons]
          rfl

theorem sweep_gaeStep {row : List CriticToken} (h : ∀ x ∈ row, x.kept = true) :
    sweep (gaeStep gamma lam) ⟨0, 0⟩ row = gae gamma lam row := by
  induction row with
  | nil => rfl
  | cons x xs ih =>
      have hxs : ∀ y ∈ xs, y.kept = true := fun y hy => h y (List.mem_cons_of_mem _ hy)
      rw [sweep, ih hxs, after_gaeStep gamma lam hxs,
        gaeStep_of_kept gamma lam (h x List.mem_cons_self), gae, gae, tdErrors, discountedRow,
        discounted_cons]

theorem picked_gaeLoop (row : List CriticToken) :
    picked CriticToken.kept row (backward (gaeStep gamma lam) ⟨0, 0⟩ row) =
      gae gamma lam (row.filter CriticToken.kept) := by
  have hskip : ∀ x s, CriticToken.kept x = false → (gaeStep gamma lam x s).1 = s :=
    fun x s hx => gaeStep_of_skipped gamma lam hx s
  rw [backward_eq_sweep, picked_sweep hskip, sweep_gaeStep]
  intro x hx
  exact (List.mem_filter.mp hx).2

theorem length_backward {α σ : Type} (step : α → σ → σ × ℚ) (start : σ) (row : List α) :
    (backward step start row).length = row.length := by
  rw [backward_eq_sweep, length_sweep]

theorem length_flatten_map {α : Type} {f : List α → List ℚ} (h : ∀ row, (f row).length = row.length)
    (rows : List (List α)) : (rows.map f).flatten.length = rows.flatten.length := by
  rw [List.length_flatten, List.length_flatten, List.map_map]
  exact congrArg List.sum (List.map_congr_left (fun row _ => h row))

def keptRows (rows : List (List CriticToken)) : List (List CriticToken) :=
  rows.map (·.filter CriticToken.kept)

theorem picked_gaeLoops (rows : List (List CriticToken)) :
    picked CriticToken.kept rows.flatten
      (rows.map (backward (gaeStep gamma lam) ⟨0, 0⟩)).flatten =
      (keptRows rows).flatMap (gae gamma lam) := by
  rw [picked_flatten (length_backward _ _), keptRows, List.flatMap_map]
  exact List.flatMap_congr (fun row _ => picked_gaeLoop gamma lam row)

theorem whiten_gaeLoops (fns : Elementary) (rows : List (List CriticToken)) :
    maskedWhiten fns (rows.map (backward (gaeStep gamma lam) ⟨0, 0⟩))
        (rows.map (·.map (fun x => x.mask))) true =
      (do
        twoKept (keptRows rows).flatten.length
        .ok ((rows.map (backward (gaeStep gamma lam) ⟨0, 0⟩)).map
          (·.map (whiten fns ((keptRows rows).flatMap (gae gamma lam)))))) := by
  have hlen := length_flatten_map (length_backward (gaeStep gamma lam) ⟨0, 0⟩) rows
  have hcount : ((keptRows rows).flatMap (gae gamma lam)).length =
      (keptRows rows).flatten.length := by
    rw [← picked_gaeLoops, length_picked hlen, keptRows, List.filter_flatten]
  have hwhiten := maskedWhiten_eq fns (fun x : CriticToken => x.mask01) hlen
  have hpicked : picked (Counts (fun x : CriticToken => x.mask)) rows.flatten
      (rows.map (backward (gaeStep gamma lam) ⟨0, 0⟩)).flatten =
      (keptRows rows).flatMap (gae gamma lam) := picked_gaeLoops gamma lam rows
  rw [hpicked, hcount] at hwhiten
  exact hwhiten

/-- The row of results has an entry for every token, and these at the kept ones. -/
def AtKept (row : List CriticToken) (results expected : List ℚ) : Prop :=
  results.length = row.length ∧ picked CriticToken.kept row results = expected

/-- What GAE gives the kept tokens does not depend on the others: the
advantages are those of the kept tokens alone, whitened over the kept tokens of
the batch, and the returns are what stands above the estimates.  Without two
kept tokens the call raises. -/
theorem computeGaeAdvantageReturn_spec (fns : Elementary) (rows : List (List CriticToken)) :
    ((keptRows rows).flatten.length < 2 ∧
        ∃ text, computeGaeAdvantageReturn fns gamma lam rows = .error (.valueError text)) ∨
      2 ≤ (keptRows rows).flatten.length ∧
        ∃ advantages returns,
          computeGaeAdvantageReturn fns gamma lam rows = .ok (advantages, returns) ∧
          List.Forall₂ (fun row advs => AtKept row advs
            ((gae gamma lam (row.filter CriticToken.kept)).map
              (whiten fns ((keptRows rows).flatMap (gae gamma lam))))) rows advantages ∧
          List.Forall₂ (fun row rets => AtKept row rets
            (List.zipWith (· + ·) (gae gamma lam (row.filter CriticToken.kept))
              ((row.filter CriticToken.kept).map CriticToken.value))) rows returns := by
  have hreturns : List.zipWith (List.zipWith (· + ·))
      (rows.map (backward (gaeStep gamma lam) ⟨0, 0⟩)) (rows.map (·.map CriticToken.value)) =
      rows.map (fun row => List.zipWith (· + ·) (backward (gaeStep gamma lam) ⟨0, 0⟩ row)
        (row.map CriticToken.value)) := by
    rw [List.zipWith_map, List.zipWith_self]
  rw [computeGaeAdvantageReturn, whiten_gaeLoops, hreturns]
  rcases hcount : (keptRows rows).flatten.length with - | - | n
  · exact Or.inl ⟨by omega, _, rfl⟩
  · exact Or.inl ⟨by omega, _, rfl⟩
  refine Or.inr ⟨by omega, _, _, rfl, ?_, ?_⟩
  · rw [List.map_map, List.forall₂_map_right_iff, List.forall₂_same]
    intro row _
    refine ⟨?_, ?_⟩
    · rw [Function.comp_apply, List.length_map, length_backward]
    · rw [Function.comp_apply, ← map_picked, picked_gaeLoop]
  · rw [List.forall₂_map_right_iff, List.forall₂_same]
    intro row _
    have hadv := length_backward (gaeStep gamma lam) ⟨0, 0⟩ row
    refine ⟨?_, ?_⟩
    · rw [List.length_zipWith, hadv, List.length_map, Nat.min_self]
    · rw [picked_zipWith _ row hadv (List.length_map _), picked_gaeLoop, picked_map]

/-! ## REINFORCE++ and ReMax -/

/-- Between two tokens the loop of REINFORCE++ carries the rewards of the run of
kept tokens that begins there. -/
theorem after_reinforceStep (row : List Token) : after (reinforceStep gamma) 0 row =
    discounted gamma ((row.takeWhile Token.kept).map Token.reward) := by
  induction row with
  | nil => exact (discounted_nil gamma).symm
  | cons x xs ih =>
      have hstep : after (reinforceStep gamma) 0 (x :: xs) =
          (x.reward + gamma * after (reinforceStep gamma) 0 xs) * x.mask := rfl
      rw [hstep, ih]
      cases hx : x.kept with
      | true =>
          rw [List.takeWhile_cons_of_pos hx, List.map_cons, discounted_cons, x.kept_iff.mp hx,
            Nat.cast_one, mul_one]
      | false =>
          rw [List.takeWhile_cons_of_neg (by simp [hx]), x.skipped_iff.mp hx, Nat.cast_zero,
            mul_zero, List.map_nil, discounted_nil]

theorem getElem?_reinforceLoop (pre : List Token) (x : Token) (post : List Token) :
    (backward (reinforceStep gamma) 0 (pre ++ x :: post))[pre.length]? =
      some (discounted gamma ((x :: post.takeWhile Token.kept).map Token.reward)) := by
  rw [backward_eq_sweep, getElem?_sweep rfl, after_reinforceStep, List.map_cons, discounted_cons]
  rfl

theorem cumsum_snoc (xs : List ℚ) (x : ℚ) : cumsum (xs ++ [x]) = cumsum xs ++ [xs.sum + x] := by
  rw [cumsum, List.scanl_append, List.scanl_singleton, List.tail_cons,
    List.tail_append_of_ne_nil List.scanl_ne_nil, List.sum_eq_foldl]
  rfl

theorem flip_cumsum_flip (xs : List ℚ) : (cumsum xs.reverse).reverse = discountedRow 1 xs := by
  induction xs with
  | nil => rfl
  | cons x xs ih =>
      rw [List.reverse_cons, cumsum_snoc, List.reverse_append, ih, List.reverse_singleton,
        List.singleton_append, discountedRow, discounted_one, List.sum_cons, List.sum_reverse,
        add_comm]

theorem kept_sum (row : List Token) : (row.map (fun x => (x.reward * x.mask : ℚ))).sum =
    ((row.filter Token.kept).map Token.reward).sum := by
  induction row with
  | nil => rfl
  | cons x xs ih =>
      rw [List.map_cons, List.sum_cons, ih]
      cases hx : x.kept with
      | true =>
          rw [List.filter_cons_of_pos hx, List.map_cons, List.sum_cons, x.kept_iff.mp hx,
            Nat.cast_one, mul_one]
      | false =>
          rw [List.filter_cons_of_neg (by simp [hx]), x.skipped_iff.mp hx, Nat.cast_zero,
            mul_zero, zero_add]

theorem getElem?_remaxReturns {rows : List (List Token)} (rewardBaselines : List ℚ) {i : ℕ}
    {pre : List Token} {x : Token} {post : List Token} (hrow : rows[i]? = some (pre ++ x :: post)) :
    ∃ returns, (computeRemaxOutcomeAdvantage rows rewardBaselines).2[i]? = some returns ∧
      returns[pre.length]? = some (((x :: post).filter Token.kept).map Token.reward).sum := by
  refine ⟨_, by rw [computeRemaxOutcomeAdvantage, List.getElem?_map, hrow]; rfl, ?_⟩
  have hat := getElem?_discountedRow 1 (pre.map (fun x => (x.reward * x.mask : ℚ)))
    (x.reward * x.mask) (post.map (fun x => (x.reward * x.mask : ℚ)))
  rw [List.length_map, ← List.map_cons (f := fun x : Token => (x.reward * x.mask : ℚ)),
    ← List.map_append, discounted_one, kept_sum, ← flip_cumsum_flip] at hat
  exact hat

theorem computeReinforcePlusPlus_ok (fns : Elementary) {rows : List (List Token)}
    (h : 2 ≤ (rows.flatten.filter Token.kept).length) :
    ∃ out, computeReinforcePlusPlusOutcomeAdvantage fns gamma rows = .ok out := by
  have hlen := length_flatten_map (length_backward (reinforceStep gamma) 0) rows
  obtain ⟨n, hn⟩ := Nat.exists_eq_add_of_le' h
  have hcount : (picked (Counts Token.mask) rows.flatten
      (rows.map (backward (reinforceStep gamma) 0)).flatten).length = n + 2 :=
    (length_picked hlen).trans hn
  rw [computeReinforcePlusPlusOutcomeAdvantage, maskedWhiten_eq fns Token.mask01 hlen, hcount]
  exact ⟨_, rfl⟩

theorem getElem?_reinforceReturns {fns : Elementary} {rows : List (List Token)}
    {advantages returns : List (List ℚ)}
    (h : computeReinforcePlusPlusOutcomeAdvantage fns gamma rows = .ok (advantages, returns))
    {i : ℕ} {pre : List Token} {x : Token} {post : List Token}
    (hrow : rows[i]? = some (pre ++ x :: post)) :
    ∃ row, returns[i]? = some row ∧ row[pre.length]? =
      some (discounted gamma ((x :: post.takeWhile Token.kept).map Token.reward)) := by
  obtain ⟨whitened, -, hout⟩ := bind_eq_ok.mp h
  obtain rfl := congrArg Prod.snd (Except.ok.inj hout)
  refine ⟨_, by rw [List.getElem?_map, hrow]; rfl, ?_⟩
  exact getElem?_reinforceLoop gamma pre x post

/-- At a token, the return of REINFORCE++ is its reward and the discounted
rewards of the kept tokens right behind it, up to the next observation; the
return of ReMax is the sum of all kept rewards from there on.  Undiscounted, they
are the same at a kept token exactly when the kept rewards behind that
observation cancel. -/
theorem reinforce_remax_returns {fns : Elementary} {rows : List (List Token)}
    {advantages returns : List (List ℚ)}
    (h : computeReinforcePlusPlusOutcomeAdvantage fns gamma rows = .ok (advantages, returns))
    (rewardBaselines : List ℚ) {i : ℕ} {pre : List Token} {x : Token} {post : List Token}
    (hrow : rows[i]? = some (pre ++ x :: post)) (hx : x.kept = true) :
    ∃ reinforce remax, (returns[i]?.bind (·[pre.length]?)) = some reinforce ∧
      ((computeRemaxOutcomeAdvantage rows rewardBaselines).2[i]?.bind (·[pre.length]?)) =
        some remax ∧
      reinforce = discounted gamma ((x :: post.takeWhile Token.kept).map Token.reward) ∧
      remax = (((x :: post).filter Token.kept).map Token.reward).sum ∧
      (gamma = 1 → (reinforce = remax ↔
        (((post.dropWhile Token.kept).filter Token.kept).map Token.reward).sum = 0)) := by
  obtain ⟨row, hreturns, hat⟩ := getElem?_reinforceReturns gamma h hrow
  obtain ⟨row', hreturns', hat'⟩ := getElem?_remaxReturns rewardBaselines hrow
  refine ⟨_, _, ?_, ?_, rfl, rfl, ?_⟩
  · rw [hreturns, Option.bind_some, hat]
  · rw [hreturns', Option.bind_some, hat']
  rintro rfl
  have hrun : (post.takeWhile Token.kept).filter Token.kept = post.takeWhile Token.kept :=
    List.filter_eq_self.mpr (fun y hy => List.mem_takeWhile_imp hy)
  have hsplit : post.filter Token.kept =
      post.takeWhile Token.kept ++ (post.dropWhile Token.kept).filter Token.kept := by
    conv_lhs => rw [← List.takeWhile_append_dropWhile (p := Token.kept) (l := post)]
    rw [List.filter_append, hrun]
  rw [discounted_one, List.filter_cons_of_pos hx, hsplit, List.map_cons, List.map_cons,
    List.map_append, List.sum_cons, List.sum_cons, List.sum_append, add_right_inj,
    left_eq_add]

/-- A turn without a reward, an observation, and a turn that is rewarded. -/
def twoTurns : List Token :=
  [⟨0, 1, Or.inr rfl⟩, ⟨0, 0, Or.inl rfl⟩, ⟨1, 1, Or.inr rfl⟩]

/-- The first turn never hears of the reward of the second. -/
theorem reinforce_remax_returns_twoTurns : ∃ advantages returns,
    computeReinforcePlusPlusOutcomeAdvantage { exp := id, log := id, sqrt := id } 1 [twoTurns] =
        .ok (advantages, returns) ∧
      ∃ reinforce remax, (returns[0]?.bind (·[0]?)) = some reinforce ∧
        ((computeRemaxOutcomeAdvantage [twoTurns] [0]).2[0]?.bind (·[0]?)) = some remax ∧
        reinforce = 0 ∧ remax = 1 := by
  have htwo : 2 ≤ ([twoTurns].flatten.filter Token.kept).length := by decide
  obtain ⟨out, hout⟩ :=
    computeReinforcePlusPlus_ok 1 { exp := id, log := id, sqrt := id } htwo
  obtain ⟨reinforce, remax, h, h', hreinforce, hremax, -⟩ :=
    @reinforce_remax_returns 1 _ [twoTurns] out.1 out.2 hout [0] 0 [] ⟨0, 1, Or.inr rfl⟩
      twoTurns.tail rfl rfl
  refine ⟨out.1, out.2, hout, reinforce, remax, h, h', ?_, ?_⟩
  · rw [hreinforce]
    decide +kernel
  · rw [hremax]
    decide +kernel

end RLCM.PPO
