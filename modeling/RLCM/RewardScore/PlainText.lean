/-
# `RLCM.RewardScore.PlainText` — texts the normalisers leave alone

Every rewrite of the two normalisers looks for a letter or for a mark that no
blank text and no integer numeral has; on such a plain text only the removal of
spaces and the final `strip` are left (`normalizeFinalAnswer_of_plain`, for both
copies).  In particular a blank text normalises to nothing.
-/
import Mathlib.Data.List.TakeWhile
import RLCM.Eval.MathDapo

namespace RLCM.RewardScore

open Py Pattern

/-- White space, a digit, a minus sign or a point. -/
def plainChar (c : Char) : Bool :=
  Str.isSpace c || ('0' ≤ c && c ≤ '9') || c = '-' || c = '.'

/-- A text of such characters. -/
def Plain (s : Str) : Prop := ∀ c ∈ s, plainChar c = true

theorem Plain.notMem {s : Str} (hs : Plain s) {c : Char} (hc : plainChar c = false) : c ∉ s := by
  intro hmem
  rw [hs c hmem] at hc
  cases hc

/-! ## What a plain text escapes -/

/-- A row of items with a literal that is not plain. -/
def foreign (items : List (Item Char)) : Bool :=
  items.any (fun it =>
    match it with
    | .lit t => t.any (fun c => !plainChar c)
    | _ => false)

theorem sub_of_plain {items : List (Item Char)} (hitems : foreign items = true) {s : Str}
    (hs : Plain s) (repl : List Str → Str) : sub items repl s = s := by
  obtain ⟨it, hit, hforeign⟩ := List.any_eq_true.mp hitems
  cases it with
  | lit t =>
      obtain ⟨c, hc, hplain⟩ := List.any_eq_true.mp hforeign
      exact sub_eq_self hit hc (hs.notMem (Bool.not_eq_true' _ ▸ hplain)) repl
  | one p => cases hforeign
  | opt p => cases hforeign
  | greedy p => cases hforeign
  | lazy p => cases hforeign

theorem foldl_replace_of_plain {table : List (Str × Str)}
    (htable : table.all (fun ba => foreign [.lit ba.1]) = true) {s : Str} (hs : Plain s) :
    table.foldl (fun s ba => replace ba.1 ba.2 s) s = s := by
  induction table with
  | nil => rfl
  | cons ba table ih =>
      rw [List.all_cons, Bool.and_eq_true] at htable
      have hstep : replace ba.1 ba.2 s = s := sub_of_plain htable.1 hs _
      rw [List.foldl_cons, hstep]
      exact ih htable.2

/-- A row of removals none of which applies. -/
theorem foldl_remove_of_plain {exprs : List Str}
    (hexprs : exprs.all (fun expr => foreign [.lit expr]) = true) {s : Str} (hs : Plain s) :
    exprs.foldl (fun s expr => replace expr [] s) s = s := by
  have htable : (exprs.map (fun expr => (expr, ([] : Str)))).all
      (fun ba => foreign [.lit ba.1]) = true := by
    rw [List.all_map]
    exact hexprs
  have hfold := foldl_replace_of_plain htable hs
  rwa [List.foldl_map] at hfold

theorem afterLast_of_plain {s : Str} (hs : Plain s) : Str.afterLast '=' s = s := by
  have hall : s.reverse.takeWhile (fun c => decide (c ≠ '=')) = s.reverse := by
    refine List.takeWhile_eq_self_iff.mpr (fun c hc => decide_eq_true ?_)
    rintro rfl
    exact hs.notMem (by decide) (List.mem_reverse.mp hc)
  rw [Str.afterLast, hall, List.reverse_reverse]

/-! ## What is left of the normalisers -/

/-- The spaces of a text dropped; other white space stays. -/
def dropSpaces (s : Str) : Str := s.filter (· ≠ ' ')

theorem replace_space (s : Str) : replace [' '] [] s = dropSpaces s := by
  rw [replace_singleton, dropSpaces]
  induction s with
  | nil => rfl
  | cons c s ih =>
      rw [List.flatMap_cons, ih]
      by_cases hc : c = ' '
      · simp [hc]
      · simp [hc]

theorem Plain.dropSpaces {s : Str} (hs : Plain s) : Plain (dropSpaces s) :=
  fun c hc => hs c (List.mem_of_mem_filter hc)

theorem substitutions_of_plain {s : Str} (hs : Plain s) :
    substitutions.foldl (fun s ba => replace ba.1 ba.2 s) s = dropSpaces s := by
  have hsplit : substitutions = substitutions.take 5 ++ (([' '], []) :: substitutions.drop 6) := by
    decide
  rw [hsplit, List.foldl_append, List.foldl_cons, foldl_replace_of_plain (by decide) hs,
    replace_space, foldl_replace_of_plain (by decide) hs.dropSpaces]

theorem normalizeLatex_of_plain {s : Str} (hs : Plain s) : normalizeLatex s = dropSpaces s := by
  have hstep : ∀ items repl, foreign items = true →
      sub items repl (dropSpaces s) = dropSpaces s :=
    fun items repl hitems => sub_of_plain hitems hs.dropSpaces repl
  unfold normalizeLatex
  dsimp only
  rw [afterLast_of_plain hs, substitutions_of_plain hs,
    foldl_remove_of_plain (by decide) hs.dropSpaces]
  unfold unwrap replace
  rw [hstep, hstep, hstep, hstep, hstep, hstep, hstep, hstep]
  all_goals rfl

theorem normalizeNumber_of_plain {s : Str} (hs : Plain s) : normalizeNumber s = s := by
  have hcomma : replace [','] [] s = s := sub_of_plain (by decide) hs _
  unfold normalizeNumber
  rw [hcomma, ite_self]

theorem normalizeFinalAnswer_of_plain {s : Str} (hs : Plain s) :
    normalizeFinalAnswer s = Str.strip (dropSpaces s) := by
  rw [normalizeFinalAnswer, normalizeLatex_of_plain hs, normalizeNumber_of_plain hs.dropSpaces]

theorem evalNormalizeFinalAnswer_of_plain {s : Str} (hs : Plain s) :
    Eval.normalizeFinalAnswer s = Str.strip (dropSpaces s) := by
  have hstep : ∀ items repl, foreign items = true →
      sub items repl (dropSpaces s) = dropSpaces s :=
    fun items repl hitems => sub_of_plain hitems hs.dropSpaces repl
  unfold Eval.normalizeFinalAnswer
  dsimp only
  rw [normalizeLatex_of_plain hs, foldl_replace_of_plain (by decide) hs.dropSpaces]
  unfold Eval.unbrace
  rw [hstep, hstep, normalizeNumber_of_plain hs.dropSpaces]
  all_goals rfl

/-! ## Blank texts -/

/-- Nothing but white space. -/
def Blank (s : Str) : Prop := ∀ c ∈ s, Str.isSpace c = true

theorem Blank.plain {s : Str} (hs : Blank s) : Plain s := by
  intro c hc
  simp [plainChar, hs c hc]

theorem Blank.strip {s : Str} (hs : Blank s) : Str.strip s = [] := by
  have hdrop : s.dropWhile Str.isSpace = [] := List.dropWhile_eq_nil_iff.mpr hs
  rw [Str.strip, hdrop]
  rfl

theorem Blank.normalizeAnswer {s : Str} (hs : Blank s) : normalizeAnswer s = ['0'] := by
  unfold RewardScore.normalizeAnswer
  rw [hs.strip]
  rfl

theorem Blank.dropSpaces {s : Str} (hs : Blank s) : Blank (dropSpaces s) :=
  fun c hc => hs c (List.mem_of_mem_filter hc)

theorem Blank.normalizeFinalAnswer {s : Str} (hs : Blank s) :
    RewardScore.normalizeFinalAnswer s = [] := by
  rw [normalizeFinalAnswer_of_plain hs.plain, hs.dropSpaces.strip]

theorem Blank.normalizeStrictCandidate {s : Str} (hs : Blank s) :
    Eval.normalizeStrictCandidate s = ['0'] := by
  rw [Eval.normalizeStrictCandidate, evalNormalizeFinalAnswer_of_plain hs.plain,
    hs.dropSpaces.strip]
  rfl

end RLCM.RewardScore
