/-
# `RLCM.RewardScore.Numerals` — integer numerals through the normalisers

A numeral is a row of digits with white space around it, perhaps a minus sign,
leading zeros and a final `.0` (`Numeral`).  Both graders bring it to the usual
decimal text of its integer (`Numeral.normalizeAnswer`,
`Numeral.normalizeStrictCandidate`), and different integers have different texts.
-/
import RLCM.Py.Int
import RLCM.RewardScore.PlainText

namespace RLCM.RewardScore

open Py Pattern

def sign (negative : Bool) : Str := if negative then ['-'] else []

/-- A final `.0`, or none. -/
def pointZero (pointed : Bool) : Str := if pointed then ['.', '0'] else []

def signedValue (negative : Bool) (digits : Str) : ℤ :=
  if negative then -(Nat.ofDigitChars 10 digits 0 : ℤ) else Nat.ofDigitChars 10 digits 0

/-- `core` is a numeral of `n` without white space around it. -/
def BareNumeral (core : Str) (n : ℤ) : Prop :=
  ∃ negative pointed digits, core = sign negative ++ digits ++ pointZero pointed ∧
    digits ≠ [] ∧ (∀ c ∈ digits, c.isDigit = true) ∧ n = signedValue negative digits ∧
    (negative = true → n ≠ 0)

/-- `s` is a numeral of `n`: white space, an optional minus sign on a nonzero
value, digits, and an optional `.0`. -/
def Numeral (s : Str) (n : ℤ) : Prop :=
  ∃ before core after, s = before ++ core ++ after ∧ Blank before ∧ Blank after ∧
    BareNumeral core n

/-! ## Digits -/

theorem toDigits_ofDigitChars {digits : Str} (h : ∀ c ∈ digits, c.isDigit = true) {n : ℕ}
    (hn : 0 < n) :
    Nat.toDigits 10 (Nat.ofDigitChars 10 digits n) = Nat.toDigits 10 n ++ digits := by
  induction digits generalizing n with
  | nil => simp
  | cons c digits ih =>
      have hc := h c List.mem_cons_self
      have hlt := (toNat_of_isDigit hc).2
      have hdigits := ih (fun d hd => h d (List.mem_cons_of_mem _ hd))
        (n := 10 * n + (c.toNat - 48)) (by omega)
      calc Nat.toDigits 10 (Nat.ofDigitChars 10 (c :: digits) n)
          = Nat.toDigits 10 (Nat.ofDigitChars 10 digits (10 * n + (c.toNat - 48))) := by
            rw [Nat.ofDigitChars_cons]
            rfl
        _ = Nat.toDigits 10 (10 * n + (c.toNat - 48)) ++ digits := hdigits
        _ = Nat.toDigits 10 n ++ c :: digits := by
            rw [← Nat.toDigits_append_toDigits (by decide) hn hlt, toDigits_of_isDigit hc,
              List.append_assoc, List.singleton_append]

/-- Without its leading zeros a row of digits is the text of its value. -/
theorem dropZeros_of_digits {digits : Str} (h : ∀ c ∈ digits, c.isDigit = true) :
    dropZeros digits = Nat.toDigits 10 (Nat.ofDigitChars 10 digits 0) := by
  induction digits with
  | nil => rfl
  | cons c digits ih =>
      have htail : ∀ d ∈ digits, d.isDigit = true := fun d hd => h d (List.mem_cons_of_mem _ hd)
      have hvalue : Nat.ofDigitChars 10 (c :: digits) 0 =
          Nat.ofDigitChars 10 digits (c.toNat - 48) := by
        rw [Nat.ofDigitChars_cons, Nat.mul_zero, Nat.zero_add]
        rfl
      rw [hvalue]
      by_cases hzero : c = '0'
      · subst hzero
        exact ih htail
      · have hc := h c List.mem_cons_self
        have hpos : 0 < c.toNat - 48 := by
          have hle := (toNat_of_isDigit hc).1
          have hne : c.toNat ≠ 48 := fun heq => hzero (Char.toNat_inj.mp heq)
          omega
        have hdrop : dropZeros (c :: digits) = c :: digits := by
          simp [dropZeros, Str.lstripChar, hzero]
        rw [hdrop, toDigits_ofDigitChars htail hpos, toDigits_of_isDigit hc]
        rfl

theorem natAbs_signedValue (negative : Bool) (digits : Str) :
    (signedValue negative digits).natAbs = Nat.ofDigitChars 10 digits 0 := by
  cases negative with
  | false => rfl
  | true => exact Int.natAbs_neg _

/-! ## Numerals are plain -/

/-- White space around a text without any is what `strip` removes. -/
theorem strip_around {before core after : Str} (hbefore : Blank before) (hafter : Blank after)
    (hcore : ∀ c ∈ core, Str.isSpace c = false) :
    Str.strip (before ++ core ++ after) = core := by
  have hdrop : ∀ xs ys : Str, Blank xs → (∀ c ∈ ys, Str.isSpace c = false) → ys ≠ [] →
      ∀ zs, (xs ++ ys ++ zs).dropWhile Str.isSpace = ys ++ zs := by
    intro xs ys hxs hys hne zs
    obtain ⟨c, ys', rfl⟩ := List.exists_cons_of_ne_nil hne
    have hc : ¬ Str.isSpace c = true := by
      rw [hys c List.mem_cons_self]
      exact Bool.false_ne_true
    rw [List.append_assoc, List.dropWhile_append_of_pos hxs, List.cons_append,
      List.dropWhile_cons_of_neg hc]
  rcases eq_or_ne core [] with rfl | hne
  · refine Blank.strip (fun c hc => ?_)
    rw [List.append_nil] at hc
    rcases List.mem_append.mp hc with hc | hc
    · exact hbefore c hc
    · exact hafter c hc
  · have hreverse := hdrop after.reverse core.reverse
      (fun c hc => hafter c (List.mem_reverse.mp hc))
      (fun c hc => hcore c (List.mem_reverse.mp hc)) (by simpa using hne) []
    rw [Str.strip, hdrop before core hbefore hcore hne, Str.rstrip, List.reverse_append]
    rw [List.append_nil, List.append_nil] at hreverse
    rw [hreverse, List.reverse_reverse]

theorem BareNumeral.chars {core : Str} {n : ℤ} (h : BareNumeral core n) :
    ∀ c ∈ core, c.isDigit = true ∨ c = '-' ∨ c = '.' := by
  obtain ⟨negative, pointed, digits, rfl, -, hdigits, -, -⟩ := h
  intro c hc
  rcases List.mem_append.mp hc with hc | hc
  · rcases List.mem_append.mp hc with hc | hc
    · cases negative with
      | false => cases hc
      | true => exact Or.inr (Or.inl (List.mem_singleton.mp hc))
    · exact Or.inl (hdigits c hc)
  · cases pointed with
    | false => cases hc
    | true =>
        rcases List.mem_cons.mp hc with rfl | hc
        · exact Or.inr (Or.inr rfl)
        · obtain rfl := List.mem_singleton.mp hc
          exact Or.inl rfl

theorem plainChar_of_isDigit {c : Char} (hc : c.isDigit = true) : plainChar c = true := by
  have hbounds : '0' ≤ c ∧ c ≤ '9' := by
    obtain ⟨h0, h9⟩ := Char.isDigit_iff_toNat.mp hc
    exact ⟨Char.le_def.mpr (UInt32.le_iff_toNat_le.mpr h0),
      Char.le_def.mpr (UInt32.le_iff_toNat_le.mpr h9)⟩
  simp [plainChar, hbounds]

theorem BareNumeral.notSpace {core : Str} {n : ℤ} (h : BareNumeral core n) :
    ∀ c ∈ core, Str.isSpace c = false := by
  intro c hc
  rcases h.chars c hc with hdigit | rfl | rfl
  · exact isSpace_of_isDigit hdigit
  · rfl
  · rfl

theorem BareNumeral.plain {core : Str} {n : ℤ} (h : BareNumeral core n) : Plain core := by
  intro c hc
  rcases h.chars c hc with hdigit | rfl | rfl
  · exact plainChar_of_isDigit hdigit
  · rfl
  · rfl

theorem Numeral.strip {s : Str} {n : ℤ} (h : Numeral s n) : BareNumeral (Str.strip s) n := by
  obtain ⟨before, core, after, rfl, hbefore, hafter, hcore⟩ := h
  rw [strip_around hbefore hafter hcore.notSpace]
  exact hcore

theorem Numeral.strip_dropSpaces {s : Str} {n : ℤ} (h : Numeral s n) :
    Str.strip (RewardScore.dropSpaces s) = Str.strip s := by
  obtain ⟨before, core, after, rfl, hbefore, hafter, hcore⟩ := h
  have hkeep : RewardScore.dropSpaces core = core := by
    refine List.filter_eq_self.mpr (fun c hc => decide_eq_true ?_)
    rintro rfl
    cases hcore.notSpace ' ' hc
  have hsplit : RewardScore.dropSpaces (before ++ core ++ after) =
      RewardScore.dropSpaces before ++ core ++ RewardScore.dropSpaces after := by
    rw [← hkeep]
    simp only [RewardScore.dropSpaces, List.filter_append, List.filter_filter, Bool.and_self]
  rw [hsplit, strip_around hbefore.dropSpaces hafter.dropSpaces hcore.notSpace,
    strip_around hbefore hafter hcore.notSpace]

theorem Numeral.plain {s : Str} {n : ℤ} (h : Numeral s n) : Plain s := by
  obtain ⟨before, core, after, rfl, hbefore, hafter, hcore⟩ := h
  intro c hc
  rcases List.mem_append.mp hc with hc | hc
  · rcases List.mem_append.mp hc with hc | hc
    · exact hbefore.plain c hc
    · exact hcore.plain c hc
  · exact hafter.plain c hc

/-! ## Both graders bring a numeral to the text of its integer -/

theorem dropPointZero (body : Str) (hbody : '.' ∉ body) (pointed : Bool) :
    dropPoint (body ++ pointZero pointed) = body := by
  unfold dropPoint
  cases pointed with
  | true =>
      have hend : Str.endsWith (body ++ ['.', '0']) ".0".toList = true :=
        Str.endsWith_iff.mpr ⟨body, rfl⟩
      simp only [pointZero, ↓reduceIte, hend, List.length_append, List.length_cons,
        List.length_nil, Nat.add_sub_cancel, List.take_left]
  | false =>
      have hend : ¬ Str.endsWith body ".0".toList = true := by
        intro h
        obtain ⟨t, ht⟩ := Str.endsWith_iff.mp h
        exact hbody (ht ▸ by simp)
      simp only [pointZero, Bool.false_eq_true, ↓reduceIte, List.append_nil, if_neg hend]

/-- A numeral that was stripped. -/
theorem BareNumeral.normalizeAnswer {core : Str} {n : ℤ} (h : BareNumeral core n) :
    normalizeAnswer core = strOfInt n := by
  have hstrip := Str.strip_of_notSpace h.notSpace
  obtain ⟨negative, pointed, digits, rfl, hne, hdigits, rfl, hsign⟩ := h
  have hpoint : '.' ∉ sign negative ++ digits := by
    intro hmem
    rcases List.mem_append.mp hmem with hmem | hmem
    · cases negative with
      | false => cases hmem
      | true => cases List.mem_singleton.mp hmem
    · cases hdigits '.' hmem
  have hbody := dropPointZero (sign negative ++ digits) hpoint pointed
  rw [← hstrip] at hbody
  cases negative with
  | true =>
      have hneg : signedValue true digits < 0 := by
        have hle : signedValue true digits ≤ 0 := by simp [signedValue]
        exact lt_of_le_of_ne hle (hsign rfl)
      rw [strOfInt, if_pos hneg, natAbs_signedValue, ← dropZeros_of_digits hdigits]
      exact normalizeAnswer_of_minus hbody
  | false =>
      have hnonneg : ¬ signedValue false digits < 0 := by simp [signedValue]
      obtain ⟨c, rest, rfl⟩ := List.exists_cons_of_ne_nil hne
      rw [strOfInt, if_neg hnonneg, natAbs_signedValue, ← dropZeros_of_digits hdigits]
      rw [normalizeAnswer_of_ne_minus, hbody]
      · rfl
      · intro rest' hrest
        rw [hbody] at hrest
        obtain ⟨rfl, -⟩ := List.cons.inj hrest
        cases hdigits '-' List.mem_cons_self

theorem Numeral.normalizeAnswer {s : Str} {n : ℤ} (h : Numeral s n) :
    normalizeAnswer s = strOfInt n := by
  have hagain := Str.strip_of_notSpace h.strip.notSpace
  rw [← h.strip.normalizeAnswer, RewardScore.normalizeAnswer, RewardScore.normalizeAnswer, hagain]

theorem Numeral.normalizeStrictCandidate {s : Str} {n : ℤ} (h : Numeral s n) :
    Eval.normalizeStrictCandidate s = strOfInt n := by
  rw [Eval.normalizeStrictCandidate, evalNormalizeFinalAnswer_of_plain h.plain,
    h.strip_dropSpaces, h.strip.normalizeAnswer]

theorem bareNumeral_strOfInt (n : ℤ) : BareNumeral (strOfInt n) n := by
  have hdigits : ∀ c ∈ Nat.toDigits 10 n.natAbs, c.isDigit = true :=
    fun c hc => Nat.isDigit_of_mem_toDigits (by decide) (by decide) hc
  refine ⟨decide (n < 0), false, Nat.toDigits 10 n.natAbs, ?_, Nat.toDigits_ne_nil, hdigits,
    ?_, ?_⟩
  · by_cases hn : n < 0
    · simp [strOfInt, sign, pointZero, hn]
    · simp [strOfInt, sign, pointZero, hn]
  · by_cases hn : n < 0
    · simp only [signedValue, hn, decide_true, ↓reduceIte, Nat.ofDigitChars_ten_toDigits]
      omega
    · simp only [signedValue, hn, decide_false, Bool.false_eq_true, ↓reduceIte,
        Nat.ofDigitChars_ten_toDigits]
      omega
  · intro hn
    exact (of_decide_eq_true hn).ne

end RLCM.RewardScore
