/-
# `RLCM.PPO.C2gspgLaws` — signs, balance and bounds of the C2GSPG advantage

A batch is a list of samples with a 0/1 label, a prompt uid and the confidence of the old
policy, which may be any number; the parallel tensors of the code are its projections.

The advantage of a sample is its label less the mean label of its group, over a weight that
the clipped confidence determines (`scalarAdvantage`).  The weight is never zero, so the sign
is that of the numerator, and the numerators of a group cancel: `c2gspg_laws`.
-/
import RLCM.PPO.CoreAlgos

namespace RLCM.PPO

open Py Stats

/-- One sequence of a batch with binary labels. -/
structure C2Sample (Uid : Type) (L : ℕ) where
  uid : Uid
  correct : Bool
  oldSequenceConfidence : ℚ
  tokenLevelRewards : Fin L → ℚ
  responseMask : Fin L → ℕ
  mask01 : ∀ t, responseMask t = 0 ∨ responseMask t = 1

variable {Uid : Type} {L : ℕ}

def C2Sample.label (s : C2Sample Uid L) : ℚ := if s.correct then 1 else 0

def C2Sample.withConfidence (s : C2Sample Uid L) (c : ℚ) : C2Sample Uid L :=
  { s with oldSequenceConfidence := c }

variable [DecidableEq Uid]

/-- The samples of one prompt. -/
def groupOf (samples : List (C2Sample Uid L)) (g : Uid) : List (C2Sample Uid L) :=
  samples.filter (fun s => s.uid = g)

def groupLabelMean (samples : List (C2Sample Uid L)) (g : Uid) : ℚ :=
  mean ((groupOf samples g).map C2Sample.label)

/-- A prompt with a correct and an incorrect sample. -/
def MixedGroup (samples : List (C2Sample Uid L)) (g : Uid) : Prop :=
  (∃ s ∈ groupOf samples g, s.correct = true) ∧ ∃ s ∈ groupOf samples g, s.correct = false

section Settings

variable (clipEps denomEps : ℚ)

/-- The denominator of the advantage. -/
def confidenceWeight (c : ℚ) : ℚ := max (1 - clamp 0 (1 - clipEps) c) denomEps

def scalarAdvantage (samples : List (C2Sample Uid L)) (s : C2Sample Uid L) : ℚ :=
  (s.label - groupLabelMean samples s.uid) /
    confidenceWeight clipEps denomEps s.oldSequenceConfidence

/-- The advantages the code computes for a batch. -/
def c2gspgAdvantages (samples : List (C2Sample Uid L)) : List (Fin L → ℚ) :=
  computeC2gspgOutcomeAdvantage (samples.map C2Sample.tokenLevelRewards)
    (samples.map C2Sample.responseMask) (some (samples.map C2Sample.uid))
    (some (samples.map C2Sample.oldSequenceConfidence)) (some (samples.map C2Sample.label))
    clipEps denomEps

/-! ## The loops, sample by sample -/

theorem groupValues_map (samples : List (C2Sample Uid L)) (g : Uid) :
    groupValues (samples.map C2Sample.uid) (samples.map C2Sample.label) g =
      (groupOf samples g).map C2Sample.label := by
  rw [groupValues, Dict.valuesAt, List.zip_map', List.filter_map, List.map_map, groupOf]
  rfl

theorem c2gspgAdvantages_eq (samples : List (C2Sample Uid L)) :
    c2gspgAdvantages clipEps denomEps samples =
      samples.map
        (fun s => spread (scalarAdvantage clipEps denomEps samples s) s.responseMask) := by
  refine List.ext_getElem? (fun i => ?_)
  rw [List.getElem?_map]
  cases hs : samples[i]? with
  | none =>
      have hlen := List.getElem?_eq_none_iff.mp hs
      refine List.getElem?_eq_none ?_
      simp only [c2gspgAdvantages, computeC2gspgOutcomeAdvantage, List.length_zipWith,
        List.length_map]
      omega
  | some s =>
      have hfield : ∀ {β : Type} (f : C2Sample Uid L → β), (samples.map f)[i]? = some (f s) := by
        intro β f
        rw [List.getElem?_map, hs, Option.map_some]
      rw [c2gspgAdvantages, getElem?_c2gspgAdvantage clipEps denomEps (hfield _) (hfield _)
        (hfield _) (hfield _), groupValues_map]
      rfl

omit [DecidableEq Uid] in
theorem spread_mask01 (x : ℚ) (s : C2Sample Uid L) :
    spread x s.responseMask = fun t => if s.responseMask t = 1 then x else 0 := by
  funext t
  rw [spread]
  rcases s.mask01 t with h | h
  · rw [h, if_neg zero_ne_one, Nat.cast_zero, mul_zero]
  · rw [h, if_pos rfl, Nat.cast_one, mul_one]

end Settings

/-! ## Groups -/

omit [DecidableEq Uid] in
theorem label_mem (s : C2Sample Uid L) : 0 ≤ s.label ∧ s.label ≤ 1 := by
  rw [C2Sample.label]
  split
  case isTrue => exact ⟨zero_le_one, le_rfl⟩
  case isFalse => exact ⟨le_rfl, zero_le_one⟩

theorem mem_groupOf_self {samples : List (C2Sample Uid L)} {s : C2Sample Uid L}
    (hs : s ∈ samples) : s ∈ groupOf samples s.uid :=
  List.mem_filter.mpr ⟨hs, decide_eq_true rfl⟩

theorem groupLabelMean_pos_iff (samples : List (C2Sample Uid L)) (g : Uid) :
    0 < groupLabelMean samples g ↔ ∃ s ∈ groupOf samples g, s.correct = true := by
  have hnonneg : ∀ x ∈ (groupOf samples g).map C2Sample.label, 0 ≤ x := by
    intro x hx
    obtain ⟨s, -, rfl⟩ := List.mem_map.mp hx
    exact (label_mem s).1
  rw [groupLabelMean, mean_pos_iff hnonneg]
  constructor
  · rintro ⟨x, hx, hpos⟩
    obtain ⟨s, hs, rfl⟩ := List.mem_map.mp hx
    refine ⟨s, hs, ?_⟩
    rw [C2Sample.label] at hpos
    split at hpos
    case isTrue h => exact h
    case isFalse => exact absurd hpos (lt_irrefl 0)
  · rintro ⟨s, hs, hcorrect⟩
    refine ⟨s.label, List.mem_map_of_mem hs, ?_⟩
    rw [C2Sample.label, if_pos hcorrect]
    exact zero_lt_one

theorem groupLabelMean_lt_one_iff {samples : List (C2Sample Uid L)} {g : Uid}
    (hne : groupOf samples g ≠ []) :
    groupLabelMean samples g < 1 ↔ ∃ s ∈ groupOf samples g, s.correct = false := by
  have hflip : 1 - groupLabelMean samples g =
      mean (((groupOf samples g).map C2Sample.label).map (fun x => 1 - x)) :=
    (mean_map_sub_left (mt List.map_eq_nil_iff.mp hne) 1).symm
  have hnonneg : ∀ x ∈ ((groupOf samples g).map C2Sample.label).map (fun x => 1 - x), 0 ≤ x := by
    intro x hx
    rw [List.map_map] at hx
    obtain ⟨s, -, rfl⟩ := List.mem_map.mp hx
    exact sub_nonneg.mpr (label_mem s).2
  rw [← sub_pos, hflip, mean_pos_iff hnonneg, List.map_map]
  constructor
  · rintro ⟨x, hx, hpos⟩
    obtain ⟨s, hs, rfl⟩ := List.mem_map.mp hx
    refine ⟨s, hs, ?_⟩
    cases hcorrect : s.correct with
    | false => rfl
    | true =>
        rw [Function.comp_apply, C2Sample.label, if_pos hcorrect, sub_self] at hpos
        exact absurd hpos (lt_irrefl 0)
  · rintro ⟨s, hs, hcorrect⟩
    refine ⟨1 - s.label, List.mem_map.mpr ⟨s, hs, rfl⟩, ?_⟩
    rw [C2Sample.label, hcorrect]
    simp

theorem groupLabelMean_mem {samples : List (C2Sample Uid L)} {g : Uid}
    (hne : groupOf samples g ≠ []) :
    0 ≤ groupLabelMean samples g ∧ groupLabelMean samples g ≤ 1 := by
  have hmem : ∀ x ∈ (groupOf samples g).map C2Sample.label, 0 ≤ x ∧ x ≤ 1 := by
    intro x hx
    obtain ⟨s, -, rfl⟩ := List.mem_map.mp hx
    exact label_mem s
  exact mean_mem (mt List.map_eq_nil_iff.mp hne) hmem

/-! ## The weight -/

section Weight

variable {clipEps denomEps : ℚ}

theorem max_le_confidenceWeight (hclip : clipEps < 1) (c : ℚ) :
    max clipEps denomEps ≤ confidenceWeight clipEps denomEps c := by
  have hclamp := (clamp_mem (sub_nonneg.mpr hclip.le) c).2
  exact max_le_max_right denomEps (by linarith)

theorem confidenceWeight_pos (hdenom : 0 < denomEps) (c : ℚ) :
    0 < confidenceWeight clipEps denomEps c :=
  lt_max_of_lt_right hdenom

theorem confidenceWeight_anti {c c' : ℚ} (h : c ≤ c') :
    confidenceWeight clipEps denomEps c' ≤ confidenceWeight clipEps denomEps c :=
  max_le_max_right denomEps (sub_le_sub_left (clamp_mono h) 1)

end Weight

/-! ## The laws -/

section Laws

variable {clipEps denomEps : ℚ}

/-- The advantage of a correct sample is positive if its prompt has an incorrect one, and
zero if not; the other way round for an incorrect sample. -/
theorem scalarAdvantage_sign (hdenom : 0 < denomEps) {samples : List (C2Sample Uid L)}
    {s : C2Sample Uid L} (hs : s ∈ samples) :
    (0 < scalarAdvantage clipEps denomEps samples s ↔
        s.correct = true ∧ MixedGroup samples s.uid) ∧
      (scalarAdvantage clipEps denomEps samples s < 0 ↔
        s.correct = false ∧ MixedGroup samples s.uid) := by
  have hself := mem_groupOf_self hs
  have hne : groupOf samples s.uid ≠ [] := List.ne_nil_of_mem hself
  have hmean := groupLabelMean_mem hne
  have hpos := groupLabelMean_pos_iff samples s.uid
  have hlt := groupLabelMean_lt_one_iff hne
  have hweight : 0 < confidenceWeight clipEps denomEps s.oldSequenceConfidence :=
    confidenceWeight_pos hdenom _
  have hsign : (0 < scalarAdvantage clipEps denomEps samples s ↔
        0 < s.label - groupLabelMean samples s.uid) ∧
      (scalarAdvantage clipEps denomEps samples s < 0 ↔
        s.label - groupLabelMean samples s.uid < 0) :=
    ⟨div_pos_iff_of_pos_right hweight, by rw [scalarAdvantage, div_lt_iff₀ hweight, zero_mul]⟩
  rw [hsign.1, hsign.2, MixedGroup]
  cases hcorrect : s.correct with
  | true =>
      have hlabel : s.label = 1 := by rw [C2Sample.label, hcorrect, if_pos rfl]
      rw [hlabel, sub_pos, sub_neg, hlt]
      refine ⟨⟨fun h => ⟨rfl, ⟨s, hself, hcorrect⟩, h⟩, fun h => h.2.2⟩, fun h => ?_, fun h => ?_⟩
      · exact absurd h (not_lt.mpr hmean.2)
      · cases h.1
  | false =>
      have hlabel : s.label = 0 := by rw [C2Sample.label, hcorrect]; rfl
      rw [hlabel, sub_pos, sub_neg, hpos]
      refine ⟨⟨fun h => ?_, fun h => ?_⟩, fun h => ⟨rfl, h, ⟨s, hself, hcorrect⟩⟩, fun h => h.2.1⟩
      · exact absurd h (not_lt.mpr hmean.1)
      · cases h.1

theorem sum_weighted_advantages (hdenom : 0 < denomEps) (samples : List (C2Sample Uid L))
    (g : Uid) :
    ((groupOf samples g).map (fun s =>
      confidenceWeight clipEps denomEps s.oldSequenceConfidence *
        scalarAdvantage clipEps denomEps samples s)).sum = 0 := by
  have hterm : ∀ s ∈ groupOf samples g,
      confidenceWeight clipEps denomEps s.oldSequenceConfidence *
        scalarAdvantage clipEps denomEps samples s = s.label - groupLabelMean samples g := by
    intro s hs
    have huid : s.uid = g := of_decide_eq_true (List.mem_filter.mp hs).2
    have hweight : 0 < confidenceWeight clipEps denomEps s.oldSequenceConfidence :=
      confidenceWeight_pos hdenom _
    rw [scalarAdvantage, huid, mul_div_cancel₀ _ hweight.ne']
  have hcancel := sum_sub_mean ((groupOf samples g).map C2Sample.label)
  rw [List.map_map] at hcancel
  rw [List.map_congr_left hterm]
  exact hcancel

theorem abs_scalarAdvantage_le (hclip : 0 < clipEps ∧ clipEps < 1)
    (samples : List (C2Sample Uid L)) (s : C2Sample Uid L) :
    |scalarAdvantage clipEps denomEps samples s| ≤
      1 / max clipEps denomEps * |s.label - groupLabelMean samples s.uid| := by
  have hmax : 0 < max clipEps denomEps := lt_max_of_lt_left hclip.1
  have hle : max clipEps denomEps ≤ confidenceWeight clipEps denomEps s.oldSequenceConfidence :=
    max_le_confidenceWeight hclip.2 _
  rw [scalarAdvantage, abs_div, abs_of_pos (hmax.trans_le hle), one_div, mul_comm, ← div_eq_mul_inv]
  exact div_le_div_of_nonneg_left (abs_nonneg _) hmax hle

theorem groupLabelMean_withConfidence (before after : List (C2Sample Uid L))
    (s : C2Sample Uid L) (c : ℚ) (g : Uid) :
    groupLabelMean (before ++ s.withConfidence c :: after) g =
      groupLabelMean (before ++ s :: after) g := by
  have hlabels : ∀ samples : List (C2Sample Uid L),
      (groupOf samples g).map C2Sample.label =
        ((samples.map (fun s => (s.uid, s.label))).filter (fun ul => ul.1 = g)).map Prod.snd := by
    intro samples
    rw [List.filter_map, List.map_map]
    rfl
  have hsame : (before ++ s.withConfidence c :: after).map
        (fun s => (s.uid, s.label)) = (before ++ s :: after).map (fun s => (s.uid, s.label)) := by
    rw [List.map_append, List.map_append, List.map_cons, List.map_cons]
    rfl
  rw [groupLabelMean, groupLabelMean, hlabels, hlabels, hsame]

theorem abs_scalarAdvantage_mono (hdenom : 0 < denomEps) (before after : List (C2Sample Uid L))
    (s : C2Sample Uid L) {c c' : ℚ} (h : c ≤ c') :
    |scalarAdvantage clipEps denomEps (before ++ s.withConfidence c :: after)
        (s.withConfidence c)| ≤
      |scalarAdvantage clipEps denomEps (before ++ s.withConfidence c' :: after)
        (s.withConfidence c')| := by
  have hweight : ∀ c, 0 < confidenceWeight clipEps denomEps c := confidenceWeight_pos hdenom
  rw [scalarAdvantage, scalarAdvantage, groupLabelMean_withConfidence before after s c,
    groupLabelMean_withConfidence before after s c', abs_div, abs_div, abs_of_pos (hweight _),
    abs_of_pos (hweight _)]
  exact div_le_div_of_nonneg_left (abs_nonneg _) (hweight _) (confidenceWeight_anti h)

/-- The laws of the C2GSPG advantage, for any batch with 0/1 labels, any grouping, any
confidences and any constants between zero and one: nothing is divided by zero; the code
writes the scalar advantage on the response tokens and zero elsewhere; a sample has an
advantage other than zero exactly in a mixed group, positive if it is correct; the weighted
advantages of a group cancel; an advantage is bounded, and does not fall with the sample's own
confidence. -/
theorem c2gspg_laws (samples : List (C2Sample Uid L)) (hclip : 0 < clipEps ∧ clipEps < 1)
    (hdenom : 0 < denomEps ∧ denomEps < 1) :
    (∀ s ∈ samples, (groupOf samples s.uid).length ≠ 0 ∧
      confidenceWeight clipEps denomEps s.oldSequenceConfidence ≠ 0) ∧
    c2gspgAdvantages clipEps denomEps samples = samples.map (fun s t =>
      if s.responseMask t = 1 then scalarAdvantage clipEps denomEps samples s else 0) ∧
    (∀ s ∈ samples,
      (0 < scalarAdvantage clipEps denomEps samples s ↔
        s.correct = true ∧ MixedGroup samples s.uid) ∧
      (scalarAdvantage clipEps denomEps samples s < 0 ↔
        s.correct = false ∧ MixedGroup samples s.uid) ∧
      (¬ MixedGroup samples s.uid → scalarAdvantage clipEps denomEps samples s = 0)) ∧
    (∀ g, ((groupOf samples g).map (fun s =>
      max (1 - clamp 0 (1 - clipEps) s.oldSequenceConfidence) denomEps *
        scalarAdvantage clipEps denomEps samples s)).sum = 0) ∧
    (∀ s ∈ samples, |scalarAdvantage clipEps denomEps samples s| ≤
      1 / max clipEps denomEps * |s.label - groupLabelMean samples s.uid|) ∧
    (∀ before s after c c', samples = before ++ s :: after → c ≤ c' →
      |scalarAdvantage clipEps denomEps (before ++ s.withConfidence c :: after)
          (s.withConfidence c)| ≤
        |scalarAdvantage clipEps denomEps (before ++ s.withConfidence c' :: after)
          (s.withConfidence c')|) := by
  refine ⟨?_, ?_, ?_, sum_weighted_advantages hdenom.1 samples, ?_, ?_⟩
  · intro s hs
    have hgroup : groupOf samples s.uid ≠ [] := List.ne_nil_of_mem (mem_groupOf_self hs)
    exact ⟨mt List.length_eq_zero_iff.mp hgroup, (confidenceWeight_pos hdenom.1 _).ne'⟩
  · rw [c2gspgAdvantages_eq]
    exact List.map_congr_left (fun s _ => spread_mask01 _ s)
  · intro s hs
    have hsign : (0 < scalarAdvantage clipEps denomEps samples s ↔
          s.correct = true ∧ MixedGroup samples s.uid) ∧
        (scalarAdvantage clipEps denomEps samples s < 0 ↔
          s.correct = false ∧ MixedGroup samples s.uid) := scalarAdvantage_sign hdenom.1 hs
    obtain ⟨hpos, hneg⟩ := hsign
    refine ⟨hpos, hneg, ?_⟩
    intro hunanimous
    apply le_antisymm
    · refine not_lt.mp ?_
      intro h
      exact hunanimous (hpos.mp h).2
    · refine not_lt.mp ?_
      intro h
      exact hunanimous (hneg.mp h).2
  · intro s _
    exact abs_scalarAdvantage_le hclip samples s
  · intro before s after c c' _ h
    exact abs_scalarAdvantage_mono hdenom.1 before after s h

end Laws

/-- A correct and an incorrect sample of one prompt, with confidences outside `[0, 1]`. -/
def mixedPair : List (C2Sample ℕ 1) :=
  [⟨0, true, 2, 0, 1, fun _ => Or.inr rfl⟩, ⟨0, false, -1, 0, 1, fun _ => Or.inr rfl⟩]

/-- Their weighted advantages cancel. -/
theorem c2gspg_laws_mixedPair :
    ((groupOf mixedPair 0).map (fun s =>
      max (1 - clamp 0 (1 - 1 / 10) s.oldSequenceConfidence) (1 / 10) *
        scalarAdvantage (1 / 10) (1 / 10) mixedPair s)).sum = 0 :=
  (c2gspg_laws mixedPair ⟨by norm_num, by norm_num⟩ ⟨by norm_num, by norm_num⟩).2.2.2.1 0

end RLCM.PPO
