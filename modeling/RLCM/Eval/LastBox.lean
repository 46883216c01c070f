/-
# `RLCM.Eval.LastBox` — which box the graders read

A box is an opening `\boxed` brace, a content whose braces balance, and the
closing brace.  The graders look at the last opening only: `LastBoxHolds s c`
says that the last one of `s` is closed and holds `c`.  The scan finds exactly
that (`holds_iff`), and the assertions of `remove_boxed` never fail
on what it found (`extractedPred_of_holds`).
-/
import RLCM.RewardScore.MathDapo

namespace RLCM.Eval

open Py

/-- All braces of `s` close, with `d` open before it, and no others. -/
def balanced : ℕ → Str → Bool
  | d, [] => d == 0
  | d, c :: s =>
      if c = '\x7b' then balanced (d + 1) s
      else if c = '\x7d' then
        match d with
        | 0 => false
        | d + 1 => balanced d s
      else balanced d s

theorem balanced_cons (d : ℕ) (a : Char) (c : Str) :
    balanced d (a :: c) =
      if a = '\x7b' then balanced (d + 1) c
      else if a = '\x7d' then
        match d with
        | 0 => false
        | d + 1 => balanced d c
      else balanced d c := by
  rfl

/-- The closing brace is the first symbol, or comes later. -/
theorem exists_split_cons {a : Char} {s : Str} {d i right : ℕ} :
    (∃ c rest, a :: s = c ++ '\x7d' :: rest ∧ balanced d c = true ∧ right = i + c.length) ↔
      (a = '\x7d' ∧ d = 0 ∧ right = i) ∨
        ∃ c rest, s = c ++ '\x7d' :: rest ∧ balanced d (a :: c) = true ∧
          right = i + 1 + c.length := by
  constructor
  · rintro ⟨c, rest, hsplit, hbalanced, hright⟩
    cases c with
    | nil =>
        obtain ⟨rfl, rfl⟩ := List.cons.inj hsplit
        exact Or.inl ⟨rfl, by simpa [balanced] using hbalanced, hright⟩
    | cons a' c =>
        obtain ⟨rfl, rfl⟩ := List.cons.inj hsplit
        exact Or.inr ⟨c, rest, rfl, hbalanced, by rw [hright, List.length_cons]; omega⟩
  · rintro (⟨rfl, rfl, rfl⟩ | ⟨c, rest, rfl, hbalanced, hright⟩)
    · exact ⟨[], s, rfl, rfl, rfl⟩
    · exact ⟨a :: c, rest, rfl, hbalanced, by rw [hright, List.length_cons]; omega⟩

theorem closingBrace_iff {s : Str} {d i right : ℕ} :
    closingBrace s (d + 1) i = some right ↔
      ∃ c rest, s = c ++ '\x7d' :: rest ∧ balanced d c = true ∧ right = i + c.length := by
  induction s generalizing d i with
  | nil =>
      constructor
      · intro h
        cases h
      · rintro ⟨c, rest, h, -, -⟩
        simp at h
  | cons a s ih =>
      rw [exists_split_cons, closingBrace]
      by_cases hopen : a = '\x7b'
      · subst hopen
        have hih := ih (d := d + 1) (i := i + 1)
        simpa [balanced_cons] using hih
      by_cases hclose : a = '\x7d'
      · subst hclose
        cases d with
        | zero => simp [balanced_cons, eq_comm]
        | succ d =>
            have hih := ih (d := d) (i := i + 1)
            have hdepth : (d : ℤ) + 1 ≠ 0 := by omega
            simpa [balanced_cons, hdepth] using hih
      · have hih := ih (d := d) (i := i + 1)
        simpa [balanced_cons, hopen, hclose] using hih

/-! ## The last box -/

/-- The last opening of a box in `s` is closed, and the box holds `c`. -/
def LastBoxHolds (s c : Str) : Prop :=
  ∃ p rest, s = p ++ boxedOpen ++ c ++ '\x7d' :: rest ∧ balanced 0 c = true ∧
    ∀ p' r, s = p' ++ boxedOpen ++ r → p'.length ≤ p.length

theorem boxedOpen_ne_nil : boxedOpen ≠ [] := by decide

theorem closingBrace_boxedOpen {s : Str} {i right : ℕ} :
    closingBrace (boxedOpen ++ s) 0 i = some right ↔
      ∃ c rest, s = c ++ '\x7d' :: rest ∧ balanced 0 c = true ∧
        right = i + boxedOpen.length + c.length :=
  closingBrace_iff (d := 0) (i := i + 7)

theorem lastBoxedOnlyString_of_holds {s c : Str} (h : LastBoxHolds s c) :
    lastBoxedOnlyString s = some (boxedOpen ++ c ++ ['\x7d']) := by
  obtain ⟨p, rest, hs, hbalanced, hlast⟩ := h
  have hsplit : s = p ++ boxedOpen ++ (c ++ '\x7d' :: rest) := by
    rw [hs, List.append_assoc (p ++ boxedOpen)]
  have hfind : Str.rfind boxedOpen s = some p.length := by
    cases hfind : Str.rfind boxedOpen s with
    | none =>
        rw [hsplit] at hfind
        exact absurd hfind (Str.rfind_ne_none boxedOpen_ne_nil _ _)
    | some i =>
        obtain ⟨p', r', hs', rfl, hlast'⟩ := Str.rfind_eq_some boxedOpen_ne_nil hfind
        exact congrArg some (Nat.le_antisymm (hlast p' r' hs') (hlast' p _ hsplit))
  have hdrop : s.drop p.length = boxedOpen ++ (c ++ '\x7d' :: rest) := by
    rw [hsplit, List.append_assoc, List.drop_left]
  have hscan := closingBrace_boxedOpen (i := p.length).mpr ⟨c, rest, rfl, hbalanced, rfl⟩
  have hwidth : p.length + boxedOpen.length + c.length + 1 - p.length =
      (boxedOpen ++ c ++ ['\x7d']).length := by
    simp only [List.length_append, List.length_singleton]
    omega
  have hcut : boxedOpen ++ (c ++ '\x7d' :: rest) = (boxedOpen ++ c ++ ['\x7d']) ++ rest := by
    simp only [List.append_assoc, List.singleton_append]
  rw [lastBoxedOnlyString, hfind]
  dsimp only
  rw [hdrop, hscan, Option.map_some, hwidth, hcut, List.take_left]

theorem holds_of_lastBoxedOnlyString {s b : Str} (h : lastBoxedOnlyString s = some b) :
    ∃ c, LastBoxHolds s c := by
  rw [lastBoxedOnlyString] at h
  split at h
  case h_1 => cases h
  case h_2 idx hfind =>
    obtain ⟨right, hscan, -⟩ := Option.map_eq_some_iff.mp h
    obtain ⟨p, r, hs, rfl, hlast⟩ := Str.rfind_eq_some boxedOpen_ne_nil hfind
    rw [hs, List.append_assoc, List.drop_left] at hscan
    obtain ⟨c, rest, rfl, hbalanced, -⟩ := closingBrace_boxedOpen.mp hscan
    exact ⟨c, p, rest, by rw [hs, List.append_assoc (p ++ boxedOpen)], hbalanced, hlast⟩

theorem holds_iff {s c : Str} :
    LastBoxHolds s c ↔ lastBoxedOnlyString s = some (boxedOpen ++ c ++ ['\x7d']) := by
  constructor
  · exact lastBoxedOnlyString_of_holds
  · intro h
    obtain ⟨c', hc'⟩ := holds_of_lastBoxedOnlyString h
    have hcut := (lastBoxedOnlyString_of_holds hc').symm.trans h
    rw [Option.some.injEq, List.append_left_inj, List.append_right_inj] at hcut
    exact hcut ▸ hc'

theorem removeBoxed_box (c : Str) :
    RewardScore.removeBoxed (boxedOpen ++ c ++ ['\x7d']) = .ok c := by
  have hstart : (boxedOpen ++ c ++ ['\x7d']).take boxedOpen.length = boxedOpen := by
    rw [List.append_assoc, List.take_left]
  have hend : (boxedOpen ++ c ++ ['\x7d']).getLast? = some '\x7d' := List.getLast?_concat
  have hdrop : (boxedOpen ++ c ++ ['\x7d']).drop boxedOpen.length = c ++ ['\x7d'] := by
    rw [List.append_assoc, List.drop_left]
  rw [RewardScore.removeBoxed, hstart, hend, hdrop, if_neg (not_not_intro rfl),
    if_neg (not_not_intro rfl), List.dropLast_concat]

theorem extractedPred_of_holds {s c : Str} (h : LastBoxHolds s c) :
    RewardScore.extractedPred s = .ok (some c) := by
  rw [RewardScore.extractedPred, lastBoxedOnlyString_of_holds h]
  dsimp only
  rw [removeBoxed_box]
  rfl

theorem extractedPred_of_not {s : Str} (h : ∀ c, ¬ LastBoxHolds s c) :
    RewardScore.extractedPred s = .ok none := by
  cases hbox : lastBoxedOnlyString s with
  | none => rw [RewardScore.extractedPred, hbox]
  | some b =>
      obtain ⟨c, hc⟩ := holds_of_lastBoxedOnlyString hbox
      exact absurd hc (h c)

end RLCM.Eval
