/-
# `RLCM.RewardScore.ConfidenceLiterals` — which confidences are read at their value

A confidence may be written as a decimal, in scientific notation or as a percentage
(`Literal`).  The code searches the tag for the first number without an exponent or a
percent sign, and takes a number above one for a percentage: of every literal it reads the
mantissa (`statedConfidence_literal`).

A literal is read at its value if the confidence is the double nearest to it.
`readsLiteral_iff` says which literals that is right for: decimals always, scientific
notation with exponent zero, or with exponent minus two on a mantissa that is a double above
one, and percentages that are one as doubles above one percent.  What is rounded to zero is
read right in every form.  Dividing by a hundred rounds once more, which may miss the nearest
double (`HundredthRounds`), but not of a mantissa that is a double itself.
-/
import Mathlib.Algebra.Order.Field.Power
import Mathlib.Tactic.FieldSimp
import RLCM.Py.Nearest
import RLCM.RewardScore.LastTags
import RLCM.RewardScore.PlainText

namespace RLCM.RewardScore

open Py Pattern Delimited

/-! ## Literals -/

/-- An optional sign. -/
inductive NumberSign where
  | none
  | plus
  | minus
deriving DecidableEq

def NumberSign.text : NumberSign → Str
  | .none => []
  | .plus => ['+']
  | .minus => ['-']

/-- What a sign makes of a magnitude. -/
def NumberSign.apply {K : Type} [Neg K] : NumberSign → K → K
  | .minus, x => -x
  | _, x => x

/-- A decimal: digits, perhaps a point, perhaps more digits, one digit at least. -/
structure Decimal where
  sign : NumberSign
  whole : Str
  fraction : Option Str
  digits : ∀ c ∈ whole ++ fraction.getD [], Str.isDecimal c = true
  nonempty : whole ++ fraction.getD [] ≠ []

/-- The point and what is behind it. -/
def Decimal.fractionText (m : Decimal) : Str := m.fraction.elim [] (fun digits => '.' :: digits)

def Decimal.text (m : Decimal) : Str := m.sign.text ++ m.whole ++ m.fractionText

/-- The number a decimal denotes without its sign. -/
def Decimal.magnitude (m : Decimal) : ℚ :=
  Str.digitsValue m.whole +
    Str.digitsValue (m.fraction.getD []) / 10 ^ (m.fraction.getD []).length

def Decimal.value (m : Decimal) : ℚ := m.sign.apply m.magnitude

/-- An exponent: the letter, perhaps a sign, digits. -/
structure Exponent where
  upper : Bool
  sign : NumberSign
  digits : Str
  isDecimal : ∀ c ∈ digits, Str.isDecimal c = true
  nonempty : digits ≠ []

def Exponent.text (e : Exponent) : Str :=
  (if e.upper then 'E' else 'e') :: (e.sign.text ++ e.digits)

def Exponent.value (e : Exponent) : ℤ := e.sign.apply (Str.digitsValue e.digits : ℤ)

/-- A confidence as it may be written in the tag. -/
inductive Literal where
  | plain (m : Decimal)
  | scientific (m : Decimal) (e : Exponent)
  | percent (m : Decimal) (gap : Str) (blank : Blank gap)

def Literal.mantissa : Literal → Decimal
  | .plain m => m
  | .scientific m _ => m
  | .percent m _ _ => m

/-- What is written behind it. -/
def Literal.tail : Literal → Str
  | .plain _ => []
  | .scientific _ e => e.text
  | .percent _ gap _ => gap ++ ['%']

def Literal.text (l : Literal) : Str := l.mantissa.text ++ l.tail

/-- The number a literal denotes. -/
def Literal.value : Literal → ℚ
  | .plain m => m.value
  | .scientific m e => m.value * 10 ^ e.value
  | .percent m _ _ => m.value / 100

/-! ## Digits, marks and white space -/

theorem isSpace_of_isDecimal {c : Char} (hc : Str.isDecimal c = true) :
    Str.isSpace c = false := by
  have hfree : Str.decimalZeros.all (fun z => (List.range 10).all
      (fun i => !Str.isSpace (Char.ofNat (z + i)))) = true := by decide +kernel
  obtain ⟨value, hvalue⟩ := Option.isSome_iff_exists.mp hc
  obtain ⟨z, hfind, -⟩ := Option.map_eq_some_iff.mp hvalue
  have hz := List.find?_some hfind
  simp only [Bool.and_eq_true, decide_eq_true_iff] at hz
  have hzero := List.all_eq_true.mp hfree z (List.mem_of_find?_eq_some hfind)
  have hdigit := List.all_eq_true.mp hzero (c.toNat - z) (List.mem_range.mpr (by omega))
  have hchar : Char.ofNat (z + (c.toNat - z)) = c := by
    rw [Nat.add_sub_cancel' hz.1, Char.ofNat_toNat]
  rw [hchar, Bool.not_eq_true'] at hdigit
  exact hdigit

theorem isDecimal_marks : Str.isDecimal '.' = false ∧ Str.isDecimal '+' = false ∧
    Str.isDecimal '-' = false ∧ Str.isDecimal 'e' = false ∧ Str.isDecimal 'E' = false ∧
    Str.isDecimal '%' = false := by decide +kernel

theorem isDecimal_of_isSpace {c : Char} (hc : Str.isSpace c = true) : Str.isDecimal c = false := by
  cases hdigit : Str.isDecimal c with
  | false => rfl
  | true =>
      rw [isSpace_of_isDecimal hdigit] at hc
      cases hc

theorem ne_of_isDecimal {c d : Char} (hc : Str.isDecimal c = true)
    (hd : Str.isDecimal d = false) : c ≠ d := by
  rintro rfl
  rw [hc] at hd
  cases hd

/-! ## The number that is found -/

/-- `b` begins neither with a digit nor with a point. -/
def NoNumberHead (b : Str) : Prop := ∀ c ∈ b.head?, Str.isDecimal c = false ∧ c ≠ '.'

/-- What the number pattern expects behind the whole digits. -/
def fractionPattern : List (Item Char) :=
  [.opt (fun c => c = '.'), .one Str.isDecimal, .greedy Str.isDecimal]

theorem NoNumberHead.isDecimal {b : Str} (h : NoNumberHead b) :
    ∀ c ∈ b.head?, Str.isDecimal c = false :=
  fun c hc => (h c hc).1

theorem matchAt_digits {digits tail : Str} (hdigits : ∀ c ∈ digits, Str.isDecimal c = true)
    (htail : NoNumberHead tail) :
    matchAt [.greedy Str.isDecimal] (digits ++ tail) = some ([digits], tail) := by
  have hrest : matchAt ([] : List (Item Char)) tail = some ([], tail) := rfl
  exact matchAt_greedy hdigits htail.isDecimal hrest

theorem matchAt_fraction {c : Char} {digits tail : Str} (hc : Str.isDecimal c = true)
    (hdigits : ∀ d ∈ digits, Str.isDecimal d = true) (htail : NoNumberHead tail) :
    matchAt fractionPattern ('.' :: c :: (digits ++ tail)) =
      some ([['.'], [c], digits], tail) := by
  have hone := matchAt_one hc (matchAt_digits hdigits htail)
  exact matchAt_opt (p := fun c => decide (c = '.')) (decide_eq_true rfl) hone

theorem matchAt_fraction_eq_none {tail : Str} (htail : NoNumberHead tail) :
    matchAt fractionPattern tail = none ∧ matchAt fractionPattern ('.' :: tail) = none := by
  constructor
  · have hpoint : ∀ c ∈ tail.head?, decide (c = '.') = false :=
      fun c hc => decide_eq_false (htail c hc).2
    rw [fractionPattern, matchAt_opt_of_stop hpoint, matchAt_one_of_stop htail.isDecimal]
    rfl
  · refine matchAt_opt_eq_none (matchAt_one_of_stop htail.isDecimal) (matchAt_one_of_stop ?_)
    intro c hc
    obtain rfl := Option.some.inj hc
    exact isDecimal_marks.1

theorem matchAt_lastDigit {c : Char} {rest : Str} (hc : Str.isDecimal c = true)
    (hrest : ∀ d ∈ rest.head?, Str.isDecimal d = false) :
    matchAt fractionPattern (c :: rest) = some ([[], [c], []], rest) := by
  have hpoint : ∀ d ∈ (c :: rest).head?, decide (d = '.') = false := by
    intro d hd
    obtain rfl := Option.some.inj hd
    exact decide_eq_false (ne_of_isDecimal hc isDecimal_marks.1)
  have hstop : matchAt [.greedy Str.isDecimal] rest = some ([[]], rest) := by
    have hnil : matchAt ([] : List (Item Char)) rest = some ([], rest) := rfl
    exact matchAt_greedy (a := []) (fun d hd => by cases hd) hrest hnil
  rw [fractionPattern, matchAt_opt_of_stop hpoint, matchAt_one hc hstop]
  rfl

/-- The magnitude that `float` reads off the groups behind the sign. -/
def groupsMagnitude (whole point first rest : Str) : ℚ :=
  if point = [] then Str.digitsValue (whole ++ (first ++ rest))
  else Str.digitsValue whole + Str.digitsValue (first ++ rest) / 10 ^ (first ++ rest).length

theorem numberOfGroups_eq (sign : NumberSign) (whole point first rest : Str) :
    numberOfGroups [sign.text, whole, point, first, rest] =
      sign.apply (groupsMagnitude whole point first rest) := by
  cases sign with
  | none => rfl
  | plus => rfl
  | minus => rfl

theorem Decimal.isDecimal_whole (m : Decimal) : ∀ c ∈ m.whole, Str.isDecimal c = true :=
  fun c hc => m.digits c (List.mem_append_left _ hc)

/-- Without digits behind a point, the last whole digit is given back for the digit that the
pattern ends with. -/
theorem matchAt_whole (m : Decimal) {tail : Str} (htail : NoNumberHead tail)
    (hfraction : m.fraction.getD [] = []) :
    ∃ w c, m.whole = w ++ [c] ∧
      matchAt (.greedy Str.isDecimal :: fractionPattern) (m.whole ++ (m.fractionText ++ tail)) =
        some ([w, [], [c], []], m.fractionText ++ tail) := by
  have hnonempty : m.whole ≠ [] := by
    have h := m.nonempty
    rwa [hfraction, List.append_nil] at h
  obtain ⟨w, c, hw⟩ : ∃ w c, m.whole = w ++ [c] :=
    ⟨_, _, (List.dropLast_append_getLast hnonempty).symm⟩
  have hc : Str.isDecimal c = true :=
    m.isDecimal_whole c (hw ▸ List.mem_append_right w List.mem_cons_self)
  have hstart : ∀ d ∈ w, Str.isDecimal d = true :=
    fun d hd => m.isDecimal_whole d (hw ▸ List.mem_append_left [c] hd)
  have hstop : (∀ d ∈ (m.fractionText ++ tail).head?, Str.isDecimal d = false) ∧
      matchAt fractionPattern (m.fractionText ++ tail) = none := by
    rw [Decimal.fractionText]
    cases hm : m.fraction with
    | none => exact ⟨htail.isDecimal, (matchAt_fraction_eq_none htail).1⟩
    | some digits =>
        obtain rfl : digits = [] := by rwa [hm] at hfraction
        refine ⟨fun d hd => ?_, (matchAt_fraction_eq_none htail).2⟩
        obtain rfl := Option.some.inj hd
        exact isDecimal_marks.1
  have hback := matchAt_greedy_back hstart hc hstop.1 hstop.2 (matchAt_lastDigit hc hstop.1)
  refine ⟨w, c, hw, ?_⟩
  rw [hw, List.append_assoc]
  exact hback

theorem matchAt_point (m : Decimal) {tail digits : Str} {c : Char} (htail : NoNumberHead tail)
    (hfraction : m.fraction = some (c :: digits)) :
    matchAt (.greedy Str.isDecimal :: fractionPattern) (m.whole ++ (m.fractionText ++ tail)) =
      some ([m.whole, ['.'], [c], digits], tail) := by
  have hdigits := m.digits
  rw [hfraction, Option.getD_some] at hdigits
  have hc := hdigits c (List.mem_append_right _ List.mem_cons_self)
  have hrest : ∀ d ∈ digits, Str.isDecimal d = true :=
    fun d hd => hdigits d (List.mem_append_right _ (List.mem_cons_of_mem c hd))
  have hpoint : ∀ d ∈ ('.' :: c :: (digits ++ tail)).head?, Str.isDecimal d = false := by
    intro d hd
    obtain rfl := Option.some.inj hd
    exact isDecimal_marks.1
  rw [Decimal.fractionText, hfraction]
  exact matchAt_greedy m.isDecimal_whole hpoint (matchAt_fraction hc hrest htail)

/-- Behind the sign, the pattern takes the digits of a decimal at their value. -/
theorem matchAt_magnitude (m : Decimal) {tail : Str} (htail : NoNumberHead tail) :
    ∃ whole point first rest left,
      matchAt (.greedy Str.isDecimal :: fractionPattern) (m.whole ++ (m.fractionText ++ tail)) =
        some ([whole, point, first, rest], left) ∧
      groupsMagnitude whole point first rest = m.magnitude := by
  cases hfraction : m.fraction.getD [] with
  | nil =>
      obtain ⟨w, c, hw, hmatch⟩ := matchAt_whole m htail hfraction
      refine ⟨w, [], [c], [], m.fractionText ++ tail, hmatch, ?_⟩
      rw [groupsMagnitude, if_pos rfl, List.append_nil, ← hw, Decimal.magnitude, hfraction]
      simp [Str.digitsValue]
  | cons c digits =>
      have hm : m.fraction = some (c :: digits) := by
        cases h : m.fraction with
        | none =>
            rw [h] at hfraction
            cases hfraction
        | some ds =>
            rw [h] at hfraction
            exact congrArg some hfraction
      refine ⟨m.whole, ['.'], [c], digits, tail, matchAt_point m htail hm, ?_⟩
      rw [groupsMagnitude, if_neg (List.cons_ne_nil _ _), Decimal.magnitude, hfraction]
      rfl

/-- The sign class of the number pattern. -/
def isSign (c : Char) : Bool := c = '-' || c = '+'

theorem numberPattern_eq :
    numberPattern = .opt isSign :: .greedy Str.isDecimal :: fractionPattern := by
  rfl

theorem isSign_of_isDecimal {c : Char} (hc : Str.isDecimal c = true) : isSign c = false := by
  obtain ⟨-, hplus, hminus, -⟩ := isDecimal_marks
  rw [isSign, decide_eq_false (ne_of_isDecimal hc hminus),
    decide_eq_false (ne_of_isDecimal hc hplus), Bool.or_self]

/-- Without a sign a decimal begins with a digit or a point. -/
theorem head_unsigned (m : Decimal) (tail : Str) :
    ∀ c ∈ (m.whole ++ (m.fractionText ++ tail)).head?, isSign c = false := by
  intro c hc
  cases hw : m.whole with
  | cons d whole =>
      rw [hw] at hc
      obtain rfl := Option.some.inj hc
      exact isSign_of_isDecimal (m.isDecimal_whole d (hw ▸ List.mem_cons_self))
  | nil =>
      have hnonempty := m.nonempty
      rw [hw, List.nil_append] at hnonempty
      cases hm : m.fraction with
      | none =>
          rw [hm] at hnonempty
          exact absurd rfl hnonempty
      | some digits =>
          rw [hw, Decimal.fractionText, hm] at hc
          obtain rfl := Option.some.inj hc
          rfl

theorem matchAt_decimal (m : Decimal) {tail : Str} (htail : NoNumberHead tail) :
    ∃ groups left, matchAt numberPattern (m.text ++ tail) = some (groups, left) ∧
      numberOfGroups groups = m.value := by
  obtain ⟨whole, point, first, rest, left, hmatch, hvalue⟩ := matchAt_magnitude m htail
  refine ⟨[m.sign.text, whole, point, first, rest], left, ?_, ?_⟩
  · rw [Decimal.text, List.append_assoc, List.append_assoc, numberPattern_eq]
    cases m.sign with
    | none =>
        exact (matchAt_opt_of_stop (head_unsigned m tail)).trans
          (congrArg (Option.map _) hmatch)
    | plus => exact matchAt_opt (p := isSign) rfl hmatch
    | minus => exact matchAt_opt (p := isSign) rfl hmatch
  · rw [numberOfGroups_eq, hvalue, Decimal.value]

/-! ## The confidence that is read -/

/-- What the code makes of a number: as it is up to one, a percentage up to a hundred. -/
def scaled (val : ℚ) : Option ℚ :=
  if 0 ≤ val ∧ val ≤ 100 then
    if val ≤ 1 then some val else some (roundDouble (val / 100))
  else none

/-- The second range test of the source never holds where the first does not. -/
theorem statedConfidence_of_match {s left : Str} {groups : List Str}
    (h : matchAt numberPattern s = some (groups, left)) :
    statedConfidence s = scaled (floatOfGroups groups) := by
  have hne : s ≠ [] := by
    rintro rfl
    have hnil : matchAt numberPattern [] = none := by decide
    rw [hnil] at h
    cases h
  rw [statedConfidence, head?_findAll hne h, scaled]
  dsimp only
  generalize floatOfGroups groups = val
  by_cases hrange : 0 ≤ val ∧ val ≤ 100
  · rw [if_pos hrange, if_pos hrange]
  · have hsmall : ¬ (0 ≤ val ∧ val ≤ 1) := fun h => hrange ⟨h.1, h.2.trans (by norm_num)⟩
    rw [if_neg hrange, if_neg hrange, if_neg hsmall]

theorem Literal.noNumberHead_tail (l : Literal) : NoNumberHead l.tail := by
  obtain ⟨-, -, -, he, hE, hpercent⟩ := isDecimal_marks
  intro c hc
  cases l with
  | plain m => cases hc
  | scientific m e =>
      obtain rfl := Option.some.inj hc
      cases e.upper with
      | false => exact ⟨he, by decide⟩
      | true => exact ⟨hE, by decide⟩
  | percent m gap blank =>
      cases gap with
      | nil =>
          obtain rfl := Option.some.inj hc
          exact ⟨hpercent, by decide⟩
      | cons d gap =>
          obtain rfl := Option.some.inj hc
          have hspace := blank d List.mem_cons_self
          refine ⟨isDecimal_of_isSpace hspace, ?_⟩
          rintro rfl
          exact absurd hspace (by decide)

theorem statedConfidence_literal (l : Literal) :
    statedConfidence l.text = scaled (roundDouble l.mantissa.value) := by
  obtain ⟨groups, left, hmatch, hvalue⟩ := matchAt_decimal l.mantissa l.noNumberHead_tail
  rw [Literal.text, statedConfidence_of_match hmatch, floatOfGroups, hvalue]

/-! ## Literals in a tag -/

/-- White space around a text that neither begins nor ends with white space is what `strip`
removes. -/
theorem strip_between {before core after : Str} (hbefore : Blank before) (hafter : Blank after)
    (hne : core ≠ []) (hhead : ∀ c ∈ core.head?, Str.isSpace c = false)
    (hlast : ∀ c ∈ core.getLast?, Str.isSpace c = false) :
    Str.strip (before ++ core ++ after) = core := by
  have hkeep : ∀ s rest : Str, s ≠ [] → (∀ c ∈ s.head?, Str.isSpace c = false) →
      (s ++ rest).dropWhile Str.isSpace = s ++ rest := by
    intro s rest hs hstart
    obtain ⟨c, s', rfl⟩ := List.exists_cons_of_ne_nil hs
    have hc : ¬ Str.isSpace c = true := by
      rw [hstart c rfl]
      exact Bool.false_ne_true
    exact List.dropWhile_cons_of_neg hc
  have hafter' : Blank after.reverse := fun c hc => hafter c (List.mem_reverse.mp hc)
  have hleft : (before ++ core ++ after).dropWhile Str.isSpace = core ++ after := by
    rw [List.append_assoc, List.dropWhile_append_of_pos hbefore, hkeep core after hne hhead]
  have hright : (after.reverse ++ core.reverse).dropWhile Str.isSpace = core.reverse := by
    rw [List.dropWhile_append_of_pos hafter']
    have hlast' : ∀ c ∈ core.reverse.head?, Str.isSpace c = false := by
      rw [List.head?_reverse]
      exact hlast
    have h := hkeep core.reverse [] (mt List.reverse_eq_nil_iff.mp hne) hlast'
    rwa [List.append_nil] at h
  rw [Str.strip, hleft, Str.rstrip, List.reverse_append, hright, List.reverse_reverse]

/-- The symbols of a literal, white space apart. -/
def literalChar (c : Char) : Bool := Str.isDecimal c || "+-.eE%".toList.contains c

theorem notSpace_of_literalChar {c : Char} (hc : literalChar c = true) :
    Str.isSpace c = false := by
  rcases Bool.or_eq_true_iff.mp hc with hc | hc
  · exact isSpace_of_isDecimal hc
  · have hmarks : "+-.eE%".toList.all (fun d => !Str.isSpace d) = true := by decide
    have hspace := List.all_eq_true.mp hmarks c (List.contains_iff_mem.mp hc)
    rwa [Bool.not_eq_true'] at hspace

theorem literalChar_of_isDecimal {c : Char} (hc : Str.isDecimal c = true) :
    literalChar c = true := by
  rw [literalChar, hc, Bool.true_or]

theorem NumberSign.chars (sign : NumberSign) : ∀ c ∈ sign.text, literalChar c = true := by
  intro c hc
  cases sign with
  | none => cases hc
  | plus =>
      obtain rfl := List.mem_singleton.mp hc
      rfl
  | minus =>
      obtain rfl := List.mem_singleton.mp hc
      rfl

theorem Decimal.chars (m : Decimal) : ∀ c ∈ m.text, literalChar c = true := by
  intro c hc
  rcases List.mem_append.mp hc with hc | hc
  · rcases List.mem_append.mp hc with hc | hc
    · exact m.sign.chars c hc
    · exact literalChar_of_isDecimal (m.isDecimal_whole c hc)
  · rw [Decimal.fractionText] at hc
    cases hm : m.fraction with
    | none =>
        rw [hm] at hc
        cases hc
    | some digits =>
        rw [hm] at hc
        rcases List.mem_cons.mp hc with rfl | hc
        · rfl
        · refine literalChar_of_isDecimal (m.digits c (List.mem_append_right _ ?_))
          rw [hm]
          exact hc

theorem Exponent.chars (e : Exponent) : ∀ c ∈ e.text, literalChar c = true := by
  intro c hc
  rcases List.mem_cons.mp hc with rfl | hc
  · cases e.upper with
    | false => rfl
    | true => rfl
  · rcases List.mem_append.mp hc with hc | hc
    · exact e.sign.chars c hc
    · exact literalChar_of_isDecimal (e.isDecimal c hc)

theorem Literal.chars (l : Literal) :
    ∀ c ∈ l.text, literalChar c = true ∨ Str.isSpace c = true := by
  intro c hc
  rcases List.mem_append.mp hc with hc | hc
  · exact Or.inl (l.mantissa.chars c hc)
  · cases l with
    | plain m => cases hc
    | scientific m e => exact Or.inl (e.chars c hc)
    | percent m gap blank =>
        rcases List.mem_append.mp hc with hc | hc
        · exact Or.inr (blank c hc)
        · obtain rfl := List.mem_singleton.mp hc
          exact Or.inl rfl

theorem Literal.getLast_chars (l : Literal) : ∀ c ∈ l.text.getLast?, literalChar c = true := by
  intro c hc
  cases l with
  | plain m =>
      rw [Literal.text, Literal.tail, List.append_nil] at hc
      exact m.chars c (List.mem_of_mem_getLast? hc)
  | scientific m e =>
      rcases List.mem_append.mp (List.mem_of_mem_getLast? hc) with hc | hc
      · exact m.chars c hc
      · exact e.chars c hc
  | percent m gap blank =>
      rw [Literal.text, Literal.tail, ← List.append_assoc, List.getLast?_concat] at hc
      obtain rfl := Option.some.inj hc
      rfl

theorem Decimal.text_ne_nil (m : Decimal) : m.text ≠ [] := by
  intro h
  have hnonempty := m.nonempty
  rw [Decimal.text, List.append_eq_nil_iff, List.append_eq_nil_iff] at h
  rw [h.1.2, List.nil_append] at hnonempty
  cases hm : m.fraction with
  | none =>
      rw [hm] at hnonempty
      exact hnonempty rfl
  | some digits =>
      rw [Decimal.fractionText, hm] at h
      exact absurd h.2 (List.cons_ne_nil _ _)

theorem Literal.strip_text (l : Literal) {before after : Str} (hbefore : Blank before)
    (hafter : Blank after) : Str.strip (before ++ l.text ++ after) = l.text := by
  have hne := l.mantissa.text_ne_nil
  refine strip_between hbefore hafter (fun h => hne (List.append_eq_nil_iff.mp h).1) ?_ ?_
  · intro c hc
    rw [Literal.text, List.head?_append_of_ne_nil _ hne] at hc
    exact notSpace_of_literalChar (l.mantissa.chars c (List.mem_of_mem_head? hc))
  · intro c hc
    exact notSpace_of_literalChar (l.getLast_chars c hc)

theorem Literal.tagFree (l : Literal) {before after : Str} (hbefore : Blank before)
    (hafter : Blank after) (tag : Tag) : TagFree tag (before ++ l.text ++ after) := by
  have hblank : ∀ s, Blank s → '<' ∉ s := fun s hs hc => absurd (hs '<' hc) (by decide)
  have hangle : '<' ∉ before ++ l.text ++ after := by
    intro hc
    rcases List.mem_append.mp hc with hc | hc
    · rcases List.mem_append.mp hc with hc | hc
      · exact hblank before hbefore hc
      · rcases l.chars '<' hc with hc | hc
        · exact absurd hc (by decide +kernel)
        · exact absurd hc (by decide)
    · exact hblank after hafter hc
  obtain ⟨o, c, hopening, hclosing, -⟩ := tag.marks
  rw [TagFree, hopening, hclosing]
  constructor
  · intro h
    exact hangle (h.subset List.mem_cons_self)
  · intro h
    exact hangle (h.subset List.mem_cons_self)

/-- A solution whose only confidence tag holds `l` with white space around it. -/
structure TaggedLiteral where
  before : Str
  left : Str
  literal : Literal
  right : Str
  after : Str
  before_free : TagFree .confidence before
  after_free : TagFree .confidence after
  left_blank : Blank left
  right_blank : Blank right

def TaggedLiteral.text (t : TaggedLiteral) : Str :=
  t.before ++ Tag.confidence.opening ++ (t.left ++ t.literal.text ++ t.right) ++
    Tag.confidence.closing ++ t.after

/-- The stated confidence and its validity. -/
def TaggedLiteral.parsed (t : TaggedLiteral) : ℚ × Bool := (extractAnswerAndConfidence t.text).2

theorem TaggedLiteral.parsed_eq (t : TaggedLiteral) :
    t.parsed = (scaled (roundDouble t.literal.mantissa.value)).elim (1 / 2, false)
      (fun c => (c, true)) := by
  have hclosed : ¬ LeftOpen Tag.confidence.opening Tag.confidence.closing t.before := by
    rintro ⟨x, y, h, -⟩
    exact t.before_free.1 ⟨x, y, h.symm⟩
  have hlast : confRaw t.text = some t.literal.text := by
    have h := (lastTag_iff .confidence t.before
      (t.literal.tagFree t.left_blank t.right_blank .confidence) t.after_free).mpr hclosed
    rwa [t.literal.strip_text t.left_blank t.right_blank] at h
  rw [TaggedLiteral.parsed, extractAnswerAndConfidence_snd, hlast, Option.bind_some,
    statedConfidence_literal]

/-! ## Which literals are read right -/

/-- Rounding a mantissa to a double does not change the double nearest to a hundredth of it. -/
def HundredthRounds (v : ℚ) : Prop := roundDouble (roundDouble v / 100) = roundDouble (v / 100)

def Literal.ReadRight : Literal → Prop
  | .plain _ => True
  | .scientific m e =>
      e.value = 0 ∨ (e.value = -2 ∧ 1 < roundDouble m.value ∧ HundredthRounds m.value) ∨
        (roundDouble m.value = 0 ∧ roundDouble (m.value * 10 ^ e.value) = 0)
  | .percent m _ _ =>
      roundDouble m.value = 0 ∨ (1 < roundDouble m.value ∧ HundredthRounds m.value)

theorem hundredthRounds_of_isDouble {v : ℚ} (hv : IsDouble v) : HundredthRounds v := by
  rw [HundredthRounds, hv.roundDouble_eq]

theorem scaled_of_le_one {v : ℚ} (h0 : 0 ≤ v) (h1 : v ≤ 1) : scaled v = some v := by
  rw [scaled, if_pos ⟨h0, h1.trans (by norm_num)⟩, if_pos h1]

theorem scaled_of_one_lt {v : ℚ} (h1 : 1 < v) (h100 : v ≤ 100) :
    scaled v = some (roundDouble (v / 100)) := by
  rw [scaled, if_pos ⟨(zero_lt_one.trans h1).le, h100⟩, if_neg (not_le.mpr h1)]

theorem scaled_of_lt {v : ℚ} (h100 : 100 < v) : scaled v = none := by
  rw [scaled, if_neg (fun h => absurd h.2 (not_le.mpr h100))]

theorem roundDouble_le_hundred {v : ℚ} (h : v ≤ 100) : roundDouble v ≤ 100 := by
  have hundred := isDouble_intCast (n := 100) (by decide)
  exact_mod_cast hundred.roundDouble_le (by exact_mod_cast h)

/-- Up to one, a mantissa is the double of another value only if both are rounded to zero. -/
theorem roundDouble_scientific_iff {v : ℚ} {e : ℤ} (h0 : 0 ≤ v) :
    roundDouble v = roundDouble (v * 10 ^ e) ↔
      e = 0 ∨ (roundDouble v = 0 ∧ roundDouble (v * 10 ^ e) = 0) := by
  constructor
  · intro heq
    rcases h0.eq_or_lt with rfl | hpos
    · rw [zero_mul, roundDouble_zero]
      exact Or.inr ⟨rfl, rfl⟩
    rcases lt_trichotomy e 0 with hneg | hzero | hup
    · have hten : (10 : ℚ) ^ e ≤ 10 ^ (-1 : ℤ) := zpow_le_zpow_right₀ (by norm_num) (by omega)
      have hsmall : 3 * (v * 10 ^ e) < v := by
        have := mul_le_mul_of_nonneg_left hten hpos.le
        norm_num at this
        linarith
      have hv := roundDouble_eq_zero (mul_nonneg h0 (zpow_nonneg (by norm_num) e)) hsmall heq.symm
      exact Or.inr ⟨hv, heq ▸ hv⟩
    · exact Or.inl hzero
    · have hten : (10 : ℚ) ^ (1 : ℤ) ≤ 10 ^ e := zpow_le_zpow_right₀ (by norm_num) (by omega)
      have hlarge : 3 * v < v * 10 ^ e := by
        have := mul_le_mul_of_nonneg_left hten hpos.le
        norm_num at this
        linarith
      have hv := roundDouble_eq_zero h0 hlarge heq
      exact Or.inr ⟨heq.trans hv, hv⟩
  · rintro (rfl | ⟨hv, hvalue⟩)
    · rw [zpow_zero, mul_one]
    · rw [hv, hvalue]

/-- Above one, a mantissa over a hundred is the double of a value only at exponent minus two. -/
theorem roundDouble_hundredth_iff {v : ℚ} {e : ℤ} (h0 : 0 ≤ v) (h1 : 1 < roundDouble v) :
    roundDouble (roundDouble v / 100) = roundDouble (v * 10 ^ e) ↔
      e = -2 ∧ HundredthRounds v := by
  obtain ⟨hup, hlow⟩ := roundDouble_bounds h0 (zero_lt_one.trans h1)
  have hhundred : v * 10 ^ (-2 : ℤ) = v / 100 := by
    rw [div_eq_mul_inv]
    norm_num
  have hpos : 0 < roundDouble (roundDouble v / 100) := by
    have hpow : (2 : ℚ) ^ (-7 : ℤ) ≤ roundDouble v / 100 := by
      norm_num
      linarith
    exact (zpow_pos two_pos _).trans_le (le_roundDouble (by norm_num) hpow)
  constructor
  · intro heq
    rcases lt_trichotomy e (-2) with hsmall | rfl | hlarge
    · have hten : (10 : ℚ) ^ e ≤ 10 ^ (-3 : ℤ) := zpow_le_zpow_right₀ (by norm_num) (by omega)
      have hfar : 3 * (v * 10 ^ e) < roundDouble v / 100 := by
        have := mul_le_mul_of_nonneg_left hten h0
        norm_num at this
        linarith
      exact absurd (roundDouble_eq_zero (mul_nonneg h0 (zpow_nonneg (by norm_num) e)) hfar heq.symm)
        hpos.ne'
    · exact ⟨rfl, by rw [HundredthRounds, heq, hhundred]⟩
    · have hten : (10 : ℚ) ^ (-1 : ℤ) ≤ 10 ^ e := zpow_le_zpow_right₀ (by norm_num) (by omega)
      have hfar : 3 * (roundDouble v / 100) < v * 10 ^ e := by
        have := mul_le_mul_of_nonneg_left hten h0
        norm_num at this
        linarith
      have hzero := roundDouble_eq_zero (by linarith) hfar heq
      rw [← heq] at hzero
      exact absurd hzero hpos.ne'
  · rintro ⟨rfl, hrounds⟩
    rw [hhundred]
    exact hrounds

/-- A number in scientific notation is taken for its mantissa. -/
theorem scaled_scientific_iff {v : ℚ} {e : ℤ} (h0 : 0 ≤ v) (hvalue : v * 10 ^ e ≤ 1) :
    scaled (roundDouble v) = some (roundDouble (v * 10 ^ e)) ↔
      e = 0 ∨ (e = -2 ∧ 1 < roundDouble v ∧ HundredthRounds v) ∨
        (roundDouble v = 0 ∧ roundDouble (v * 10 ^ e) = 0) := by
  have hnonneg := roundDouble_nonneg h0
  rcases le_or_gt (roundDouble v) 1 with h1 | h1
  · rw [scaled_of_le_one hnonneg h1, Option.some.injEq, roundDouble_scientific_iff h0]
    constructor
    · rintro (he | hzero)
      · exact Or.inl he
      · exact Or.inr (Or.inr hzero)
    · rintro (he | ⟨-, hlarge, -⟩ | hzero)
      · exact Or.inl he
      · exact absurd hlarge (not_lt.mpr h1)
      · exact Or.inr hzero
  -- a mantissa above one belongs to no value with exponent zero
  have hne : e ≠ 0 := by
    rintro rfl
    rw [zpow_zero, mul_one] at hvalue
    exact absurd (roundDouble_le_one h0 hvalue) (not_le.mpr h1)
  have hright : (e = 0 ∨ (e = -2 ∧ 1 < roundDouble v ∧ HundredthRounds v) ∨
      (roundDouble v = 0 ∧ roundDouble (v * 10 ^ e) = 0)) ↔ e = -2 ∧ HundredthRounds v := by
    constructor
    · rintro (he | ⟨he, -, hrounds⟩ | ⟨hzero, -⟩)
      · exact absurd he hne
      · exact ⟨he, hrounds⟩
      · rw [hzero] at h1
        exact absurd h1 (by norm_num)
    · rintro ⟨he, hrounds⟩
      exact Or.inr (Or.inl ⟨he, h1, hrounds⟩)
  rw [hright]
  rcases le_or_gt (roundDouble v) 100 with h100 | h100
  · rw [scaled_of_one_lt h1 h100, Option.some.injEq, roundDouble_hundredth_iff h0 h1]
  · rw [scaled_of_lt h100]
    refine iff_of_false (Option.some_ne_none _).symm ?_
    rintro ⟨rfl, -⟩
    refine absurd (roundDouble_le_hundred ?_) (not_le.mpr h100)
    norm_num at hvalue
    linarith

/-- A percentage is taken for a percentage above one percent only. -/
theorem scaled_percent_iff {v : ℚ} (h0 : 0 ≤ v) (h100 : v ≤ 100) :
    scaled (roundDouble v) = some (roundDouble (v / 100)) ↔
      roundDouble v = 0 ∨ (1 < roundDouble v ∧ HundredthRounds v) := by
  have hnonneg := roundDouble_nonneg h0
  rcases le_or_gt (roundDouble v) 1 with h1 | h1
  · rw [scaled_of_le_one hnonneg h1, Option.some.injEq]
    constructor
    · intro heq
      rcases h0.eq_or_lt with rfl | hpos
      · exact Or.inl roundDouble_zero
      · exact Or.inl (roundDouble_eq_zero (by linarith) (by linarith) heq.symm)
    · rintro (hzero | ⟨hlarge, -⟩)
      · have hle := roundDouble_mono (show v / 100 ≤ v by linarith)
        have hge := roundDouble_nonneg (show 0 ≤ v / 100 by linarith)
        linarith
      · exact absurd hlarge (not_lt.mpr h1)
  · rw [scaled_of_one_lt h1 (roundDouble_le_hundred h100), Option.some.injEq]
    constructor
    · intro hrounds
      exact Or.inr ⟨h1, hrounds⟩
    · rintro (hzero | ⟨-, hrounds⟩)
      · rw [hzero] at h1
        exact absurd h1 (by norm_num)
      · exact hrounds

theorem scaled_literal_iff {l : Literal} (h0 : 0 ≤ l.value) (h1 : l.value ≤ 1) :
    scaled (roundDouble l.mantissa.value) = some (roundDouble l.value) ↔ l.ReadRight := by
  cases l with
  | plain m =>
      exact iff_of_true (scaled_of_le_one (roundDouble_nonneg h0) (roundDouble_le_one h0 h1))
        trivial
  | scientific m e =>
      have hten : (0 : ℚ) < 10 ^ e.value := zpow_pos (by norm_num) _
      exact scaled_scientific_iff (nonneg_of_mul_nonneg_left h0 hten) h1
  | percent m gap blank =>
      rw [Literal.value, div_le_one (by norm_num)] at h1
      have hnonneg : 0 ≤ m.value := by
        rw [Literal.value] at h0
        linarith
      exact scaled_percent_iff hnonneg h1

theorem parsed_eq_iff {t : TaggedLiteral} (h0 : 0 ≤ t.literal.value)
    (h1 : t.literal.value ≤ 1) :
    t.parsed = (roundDouble t.literal.value, true) ↔ t.literal.ReadRight := by
  rw [← scaled_literal_iff h0 h1, t.parsed_eq]
  cases scaled (roundDouble t.literal.mantissa.value) with
  | none => simp
  | some c => simp

theorem digits_decimalOne : ∀ c ∈ ['1'] ++ (none : Option Str).getD [],
    Str.isDecimal c = true :=
  List.all_eq_true.mp (by decide +kernel)

def decimalOne : Decimal where
  sign := .none
  whole := ['1']
  fraction := none
  digits := digits_decimalOne
  nonempty := List.cons_ne_nil _ _

theorem digits_exponent : ∀ c ∈ "05".toList, Str.isDecimal c = true :=
  List.all_eq_true.mp (by decide +kernel)

/-- The exponent of `1e-05`, the way Python prints it. -/
def exponentMinusFive : Exponent where
  upper := false
  sign := .minus
  digits := "05".toList
  isDecimal := digits_exponent
  nonempty := List.cons_ne_nil _ _

theorem tagFree_answer : TagFree .confidence "<answer>4</answer> ".toList ∧
    TagFree .confidence [] := by
  simp only [TagFree]
  decide

/-- A response that states the confidence `1e-05`. -/
def smallFloat : TaggedLiteral where
  before := "<answer>4</answer> ".toList
  left := []
  literal := .scientific decimalOne exponentMinusFive
  right := []
  after := []
  before_free := tagFree_answer.1
  after_free := tagFree_answer.2
  left_blank := List.forall_mem_nil _
  right_blank := List.forall_mem_nil _

theorem smallFloat_mem : 0 ≤ smallFloat.literal.value ∧ smallFloat.literal.value ≤ 1 := by
  have hvalue : smallFloat.literal.value = 1 / 100000 := by decide +kernel
  rw [hvalue]
  norm_num

end RLCM.RewardScore
