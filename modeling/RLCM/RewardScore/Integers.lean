/-
# `RLCM.RewardScore.Integers` — the two strict-box graders on integers

On numerals training compares integers exactly.  The evaluation also accepts
values whose doubles are within a relative tolerance of one millionth, so it is
exact, and agrees with training, as long as the ground truth stays within a
million (`strictBox_on_integers`).
-/
import RLCM.Eval.LastBox
import RLCM.RewardScore.Numerals

namespace RLCM.RewardScore

open Py Pattern

/-- The doubles of two integers are within the tolerance of the evaluation. -/
def floatsClose (m n : ℤ) : Bool := Eval.valuesClose (floatOfInt m) (floatOfInt n)

/-! ## The tolerance between integers -/

theorem relTolerance_le : Eval.relTolerance ≤ 1 / 10 ^ 6 := by decide +kernel

theorem relTolerance_nonneg : 0 ≤ Eval.relTolerance := by decide +kernel

theorem tolerance_le_one {gtVal : ℚ} (h : |gtVal| ≤ 10 ^ 6) :
    roundDouble (Eval.relTolerance * max 1 |gtVal|) ≤ 1 := by
  have hmax : max 1 |gtVal| ≤ 10 ^ 6 := max_le (by norm_num) h
  have hmax0 : (0 : ℚ) ≤ max 1 |gtVal| := le_max_of_le_left zero_le_one
  refine roundDouble_le_one (mul_nonneg relTolerance_nonneg hmax0) ?_
  calc Eval.relTolerance * max 1 |gtVal| ≤ 1 / 10 ^ 6 * 10 ^ 6 :=
        mul_le_mul relTolerance_le hmax hmax0 (by norm_num)
    _ = 1 := by norm_num

/-- Doubles of different integers are at least one apart when one is up to a million. -/
theorem one_le_abs_sub {m n : ℤ} (hn : |n| ≤ 10 ^ 6) (hne : m ≠ n) {predVal : ℚ}
    (hm : floatOfInt m = some predVal) : 1 ≤ |predVal - n| := by
  by_cases hsmall : |m| < 2 ^ 53
  · rw [floatOfInt_of_lt hsmall, Option.some.injEq] at hm
    rw [← hm]
    exact_mod_cast Int.one_le_abs (sub_ne_zero.mpr hne)
  · have hbig := le_abs_of_floatOfInt (not_lt.mp hsmall) hm
    have hnq : |(n : ℚ)| ≤ 10 ^ 6 := by exact_mod_cast hn
    have htriangle := abs_sub_abs_le_abs_sub predVal (n : ℚ)
    have hgap : (1 : ℚ) ≤ 2 ^ 53 - 10 ^ 6 := by norm_num
    linarith

/-- Up to a million the tolerance tells integers apart. -/
theorem floatsClose_eq_false {m n : ℤ} (hn : |n| ≤ 10 ^ 6) (hne : m ≠ n) :
    floatsClose m n = false := by
  have hexact : floatOfInt n = some (n : ℚ) := floatOfInt_of_lt (lt_of_le_of_lt hn (by norm_num))
  have hnq : |(n : ℚ)| ≤ 10 ^ 6 := by exact_mod_cast hn
  cases hm : floatOfInt m with
  | none =>
      rw [floatsClose, hm, hexact]
      rfl
  | some predVal =>
      have hclose : floatsClose m n = Eval.withinTolerance predVal n := by
        rw [floatsClose, hm, hexact, Eval.valuesClose]
      have hapart : (2 : ℚ) ^ (0 : ℤ) ≤ |predVal - n| := by
        rw [zpow_zero]
        exact one_le_abs_sub hn hne hm
      have hge := le_roundDouble (by norm_num) hapart
      rw [zpow_zero] at hge
      exact hclose.trans (decide_eq_false (not_lt.mpr ((tolerance_le_one hnq).trans hge)))

/-! ## The two graders -/

/-- Training compares the integers. -/
theorem strictBox_of_numerals {response s t : Str} {m n : ℤ}
    (hbox : Eval.LastBoxHolds response s) (hs : Numeral s m) (ht : Numeral t n) :
    isCorrectStrictBox response t = .ok (if m = n then 1 else -1, some s) := by
  rw [isCorrectStrictBox, Eval.extractedPred_of_holds hbox, ok_bind, Option.map_some,
    hs.normalizeAnswer, ht.normalizeAnswer]
  simp only [Option.some.injEq, strOfInt_inj]
  rfl

theorem evalNorm_strOfInt (evalFloat : Str → Option ℚ) (n : ℤ) :
    Eval.evalNorm evalFloat (strOfInt n) = evalFloat (strOfInt n) := by
  have hbare := bareNumeral_strOfInt n
  have hne : strOfInt n ≠ [] := by
    obtain ⟨negative, pointed, digits, htext, hdigits, -⟩ := hbare
    rw [htext]
    simp [hdigits]
  have hcaret : replace ['^'] "**".toList (strOfInt n) = strOfInt n :=
    sub_of_plain (by decide) hbare.plain _
  rw [Eval.evalNorm, if_neg hne, hcaret]

theorem numericallyEqual_strOfInt {evalFloat : Str → Option ℚ}
    (heval : ∀ n, evalFloat (strOfInt n) = floatOfInt n) (m n : ℤ) :
    Eval.numericallyEqual evalFloat (strOfInt m) (strOfInt n) = floatsClose m n := by
  rw [Eval.numericallyEqual, evalNorm_strOfInt, evalNorm_strOfInt, heval, heval, floatsClose]

/-- The evaluation accepts equal integers and close doubles. -/
theorem evalStrictBox_of_numerals {sympy : Eval.Sympy} {evalFloat : Str → Option ℚ}
    (heval : ∀ n, evalFloat (strOfInt n) = floatOfInt n) {response s t : Str} {m n : ℤ}
    (hsympy : Eval.isSymbolicallyEqual sympy s t = .ok (decide (m = n)))
    (hbox : Eval.LastBoxHolds response s) (hs : Numeral s m) (ht : Numeral t n) :
    Eval.isCorrectStrictBox sympy evalFloat response t =
      .ok (if m = n ∨ floatsClose m n = true then 1 else -1, some s) := by
  rw [Eval.isCorrectStrictBox, Eval.extractedPred_of_holds hbox, ok_bind]
  dsimp only
  rw [hs.normalizeStrictCandidate, ht.normalizeStrictCandidate,
    numericallyEqual_strOfInt heval, hsympy]
  by_cases heq : m = n
  · rw [if_pos (strOfInt_inj.mpr heq), if_pos (Or.inl heq)]
    rfl
  rw [if_neg (fun htext => heq (strOfInt_inj.mp htext)), decide_eq_false heq]
  by_cases hclose : floatsClose m n = true
  · rw [if_pos hclose, if_pos (Or.inr hclose)]
    rfl
  · rw [if_neg hclose, if_neg (not_or.mpr ⟨heq, hclose⟩)]
    rfl

/-- On numerals of any size training is exact, the evaluation is exact up to its
tolerance, and for a ground truth up to a million there is no difference. -/
theorem strictBox_on_integers (sympy : Eval.Sympy) (evalFloat : Str → Option ℚ)
    (heval : ∀ n, evalFloat (strOfInt n) = floatOfInt n)
    (hsympy : ∀ s t m n, Numeral s m → Numeral t n →
      Eval.isSymbolicallyEqual sympy s t = .ok (decide (m = n)))
    (response s t : Str) (m n : ℤ)
    (hbox : Eval.LastBoxHolds response s) (hs : Numeral s m) (ht : Numeral t n) :
    isCorrectStrictBox response t = .ok (if m = n then 1 else -1, some s) ∧
    Eval.isCorrectStrictBox sympy evalFloat response t =
      .ok (if m = n ∨ floatsClose m n = true then 1 else -1, some s) ∧
    (|n| ≤ 10 ^ 6 →
      Eval.isCorrectStrictBox sympy evalFloat response t = isCorrectStrictBox response t) := by
  have htrain := strictBox_of_numerals hbox hs ht
  have heval' := evalStrictBox_of_numerals heval (hsympy s t m n hs ht) hbox hs ht
  refine ⟨htrain, heval', fun hn => ?_⟩
  rw [htrain, heval']
  by_cases heq : m = n
  · rw [if_pos (Or.inl heq), if_pos heq]
  · have hapart := floatsClose_eq_false hn heq
    rw [hapart, if_neg (not_or.mpr ⟨heq, Bool.false_ne_true⟩), if_neg heq]

/-! ## A pair of numerals the graders disagree on -/

/-- `int` of a decimal text. -/
def readNumeral (s : Str) : ℤ :=
  if s.head? = some '-' then signedValue true s.tail else signedValue false s

/-- An evaluation of decimal texts. -/
def evalInteger (s : Str) : Option ℚ := floatOfInt (readNumeral s)

/-- A computer algebra that reads numerals. -/
def numeralSympy : Eval.Sympy where
  Expr := Str
  parseLatex := fun _ => none
  sympify := fun s => .ok (normalizeAnswer s)
  differenceIsZero := fun a b => some (decide (a = b))

theorem evalInteger_strOfInt (n : ℤ) : evalInteger (strOfInt n) = floatOfInt n := by
  have hread : readNumeral (strOfInt n) = n := by
    by_cases hn : n < 0
    · rw [strOfInt, if_pos hn, readNumeral, if_pos List.head?_cons, signedValue, if_pos rfl,
        List.tail_cons, Nat.ofDigitChars_ten_toDigits]
      omega
    · have hhead : (Nat.toDigits 10 n.natAbs).head? ≠ some '-' := by
        intro h
        obtain ⟨digits, hdigits⟩ := List.head?_eq_some_iff.mp h
        exact cons_minus_ne_toDigits digits n.natAbs hdigits.symm
      rw [strOfInt, if_neg hn, readNumeral, if_neg hhead, signedValue,
        if_neg Bool.false_ne_true, Nat.ofDigitChars_ten_toDigits]
      omega
  rw [evalInteger, hread]

theorem stripDollars_numeral {s : Str} {n : ℤ} (h : Numeral s n) :
    BareNumeral (Eval.stripDollars s) n := by
  have hbare := h.strip
  have hdollar : ∀ c ∈ Str.strip s, c ≠ '$' := by
    rintro c hc rfl
    rcases hbare.chars '$' hc with hdigit | hminus | hpoint
    · cases hdigit
    · cases hminus
    · cases hpoint
  have hkeep : ∀ t : Str, (∀ c ∈ t, c ≠ '$') → t.dropWhile (fun c => decide (c = '$')) = t := by
    intro t ht
    refine List.dropWhile_eq_self_iff.mpr (fun hpos => ?_)
    simpa using ht _ (List.getElem_mem hpos)
  have hstrip : Str.stripChar '$' (Str.strip s) = Str.strip s := by
    have hreverse := hkeep _ (fun c hc => hdollar c (List.mem_reverse.mp hc))
    rw [Str.stripChar, Str.lstripChar, Str.lstripChar, hkeep _ hdollar, hreverse,
      List.reverse_reverse]
  rw [Eval.stripDollars, hstrip, Str.strip_of_notSpace hbare.notSpace]
  exact hbare

theorem numeralSympy_decides (s t : Str) (m n : ℤ) (hs : Numeral s m) (ht : Numeral t n) :
    Eval.isSymbolicallyEqual numeralSympy s t = .ok (decide (m = n)) := by
  have hparse : ∀ {s : Str} {n : ℤ}, Numeral s n →
      Eval.parse numeralSympy s = .ok (some (strOfInt n)) := by
    intro s n h
    have htext := (stripDollars_numeral h).normalizeAnswer
    simp [Eval.parse, numeralSympy, htext]
  rw [Eval.isSymbolicallyEqual, hparse hs, hparse ht]
  simp [numeralSympy, strOfInt_inj]

/-- Ten million and one against ten million. -/
theorem graders_disagree :
    isCorrectStrictBox "\\boxed\x7b10000001\x7d".toList "10000000".toList =
      .ok (-1, some "10000001".toList) ∧
    Eval.isCorrectStrictBox numeralSympy evalInteger
      "\\boxed\x7b10000001\x7d".toList "10000000".toList =
        .ok (1, some "10000001".toList) := by
  constructor
  · decide +kernel
  · decide +kernel

/-- Forty-two with a leading zero, a final `.0` and spaces, against forty-two. -/
theorem strictBox_on_fortyTwo :
    isCorrectStrictBox "\\boxed\x7b 042.0 \x7d".toList "42".toList =
      .ok (1, some " 042.0 ".toList) ∧
    Eval.isCorrectStrictBox numeralSympy evalInteger "\\boxed\x7b 042.0 \x7d".toList
      "42".toList = isCorrectStrictBox "\\boxed\x7b 042.0 \x7d".toList "42".toList := by
  have hbox : Eval.LastBoxHolds "\\boxed\x7b 042.0 \x7d".toList " 042.0 ".toList :=
    Eval.holds_iff.mpr (by decide)
  have hs : Numeral " 042.0 ".toList 42 :=
    ⟨" ".toList, "042.0".toList, " ".toList, by decide, by simp [Blank, Str.isSpace],
      by simp [Blank, Str.isSpace], false, true, "042".toList, by decide, by decide,
      List.all_eq_true.mp (by decide), by decide, by decide⟩
  have ht : Numeral "42".toList 42 :=
    ⟨[], "42".toList, [], by decide, by simp [Blank], by simp [Blank],
      bareNumeral_strOfInt 42⟩
  obtain ⟨htrain, -, hagree⟩ := strictBox_on_integers numeralSympy evalInteger
    evalInteger_strOfInt numeralSympy_decides _ _ _ 42 42 hbox hs ht
  exact ⟨htrain, hagree (by decide)⟩

end RLCM.RewardScore
