/-
# `RLCM.Py.Int` — integers as text

`str(n)` and `int(s)`: the first writes the usual digits, the second also reads
white space around them, a plus sign, leading zeros and single underscores.
Reading what was written gives the integer back.
-/
import Mathlib.Data.Int.Basic
import RLCM.Py.Str

namespace Py

def strOfInt (n : ℤ) : Str :=
  if n < 0 then '-' :: Nat.toDigits 10 n.natAbs else Nat.toDigits 10 n.natAbs

/-- Digits, with single underscores between them. -/
def digitRow : Str → Bool
  | [] => false
  | [c] => Str.isDecimal c
  | c :: '_' :: rest => Str.isDecimal c && digitRow rest
  | c :: rest => Str.isDecimal c && digitRow rest

/-- The value of such a row; `none` is the `ValueError`. -/
def natOfStr (s : Str) : Option ℕ :=
  if digitRow s then some (Str.digitsValue (s.filter (· ≠ '_'))) else none

/-- `int(s)`; `none` is the `ValueError`. -/
def intOfStr (s : Str) : Option ℤ :=
  match Str.strip s with
  | '-' :: digits => (natOfStr digits).map (fun n : ℕ => -(n : ℤ))
  | '+' :: digits => (natOfStr digits).map (fun n : ℕ => (n : ℤ))
  | digits => (natOfStr digits).map (fun n : ℕ => (n : ℤ))

/-! ## ASCII digits -/

theorem toNat_of_isDigit {c : Char} (hc : c.isDigit = true) :
    48 ≤ c.toNat ∧ c.toNat - 48 < 10 := by
  have hbounds : 48 ≤ c.toNat ∧ c.toNat ≤ 57 := Char.isDigit_iff_toNat.mp hc
  omega

theorem toDigits_of_isDigit {c : Char} (hc : c.isDigit = true) :
    Nat.toDigits 10 (c.toNat - 48) = [c] := by
  obtain ⟨hle, hlt⟩ := toNat_of_isDigit hc
  have hchar : (c.toNat - 48).digitChar.toNat = c.toNat := by
    rw [Nat.toNat_digitChar_of_lt_ten hlt]
    omega
  rw [Nat.toDigits_of_lt_base hlt, Char.toNat_inj.mp hchar]

theorem isSpace_of_isDigit {c : Char} (hc : c.isDigit = true) : Str.isSpace c = false := by
  obtain ⟨hle, hlt⟩ := toNat_of_isDigit hc
  simp only [Str.isSpace, Bool.or_eq_false_iff, Bool.and_eq_false_iff, decide_eq_false_iff_not,
    beq_eq_false_iff_ne]
  omega

theorem decimalValue_of_isDigit {c : Char} (hc : c.isDigit = true) :
    Str.decimalValue c = some (c.toNat - 48) := by
  obtain ⟨hle, hlt⟩ := toNat_of_isDigit hc
  have hzeros : Str.decimalZeros = 48 :: Str.decimalZeros.tail := rfl
  have hfirst : (decide (48 ≤ c.toNat) && decide (c.toNat ≤ 48 + 9)) = true := by
    rw [Bool.and_eq_true, decide_eq_true_iff, decide_eq_true_iff]
    omega
  have hfind : Str.decimalZeros.find? (fun z => decide (z ≤ c.toNat) && decide (c.toNat ≤ z + 9)) =
      some 48 := by
    rw [hzeros, List.find?_cons]
    simp only [hfirst]
  rw [Str.decimalValue, hfind]
  rfl

theorem isDecimal_of_isDigit {c : Char} (hc : c.isDigit = true) : Str.isDecimal c = true := by
  rw [Str.isDecimal, decimalValue_of_isDigit hc]
  rfl

theorem digitsValue_of_isDigit {s : Str} (h : ∀ c ∈ s, c.isDigit = true) :
    Str.digitsValue s = Nat.ofDigitChars 10 s 0 := by
  have hfold : ∀ n, s.foldl (fun n c => 10 * n + (Str.decimalValue c).getD 0) n =
      Nat.ofDigitChars 10 s n := by
    induction s with
    | nil =>
        intro n
        rfl
    | cons c s ih =>
        intro n
        rw [List.foldl_cons, decimalValue_of_isDigit (h c List.mem_cons_self),
          Nat.ofDigitChars_cons]
        exact ih (fun d hd => h d (List.mem_cons_of_mem _ hd)) _
  exact hfold 0

theorem digitRow_of_isDigit {s : Str} (hne : s ≠ []) (h : ∀ c ∈ s, c.isDigit = true) :
    digitRow s = true := by
  induction s using digitRow.induct with
  | case1 => exact absurd rfl hne
  | case2 c =>
      rw [digitRow]
      exact isDecimal_of_isDigit (h c List.mem_cons_self)
  | case3 c rest ih => cases h '_' (by simp)
  | case4 c rest hrest hunder ih =>
      have htail := ih hrest (fun d hd => h d (List.mem_cons_of_mem _ hd))
      rw [digitRow, isDecimal_of_isDigit (h c List.mem_cons_self), htail]
      · rfl
      · exact hrest
      · exact hunder

/-! ## Reading what was written -/

theorem isDigit_of_mem_toDigits {n : ℕ} {c : Char} (hc : c ∈ Nat.toDigits 10 n) :
    c.isDigit = true :=
  Nat.isDigit_of_mem_toDigits (by decide) (by decide) hc

theorem cons_minus_ne_toDigits (s : Str) (n : ℕ) : '-' :: s ≠ Nat.toDigits 10 n := by
  intro h
  have hdigit := isDigit_of_mem_toDigits (h ▸ List.mem_cons_self : '-' ∈ Nat.toDigits 10 n)
  cases hdigit

theorem strOfInt_chars {n : ℤ} {c : Char} (hc : c ∈ strOfInt n) : c.isDigit = true ∨ c = '-' := by
  unfold strOfInt at hc
  split at hc
  case isTrue =>
    rcases List.mem_cons.mp hc with rfl | hc
    · exact Or.inr rfl
    · exact Or.inl (isDigit_of_mem_toDigits hc)
  case isFalse => exact Or.inl (isDigit_of_mem_toDigits hc)

theorem natOfStr_toDigits (n : ℕ) : natOfStr (Nat.toDigits 10 n) = some n := by
  have hdigits : ∀ c ∈ Nat.toDigits 10 n, c.isDigit = true := fun c hc => isDigit_of_mem_toDigits hc
  have hkeep : (Nat.toDigits 10 n).filter (fun c => decide (c ≠ '_')) = Nat.toDigits 10 n := by
    refine List.filter_eq_self.mpr (fun c hc => decide_eq_true ?_)
    rintro rfl
    cases hdigits '_' hc
  rw [natOfStr, if_pos (digitRow_of_isDigit Nat.toDigits_ne_nil hdigits), hkeep,
    digitsValue_of_isDigit hdigits, Nat.ofDigitChars_ten_toDigits]

theorem intOfStr_strOfInt (n : ℤ) : intOfStr (strOfInt n) = some n := by
  have hstrip : Str.strip (strOfInt n) = strOfInt n := by
    refine Str.strip_of_notSpace (fun c hc => ?_)
    rcases strOfInt_chars hc with hdigit | rfl
    · exact isSpace_of_isDigit hdigit
    · rfl
  rw [intOfStr, hstrip]
  by_cases hn : n < 0
  · rw [strOfInt, if_pos hn]
    show (natOfStr _).map _ = _
    rw [natOfStr_toDigits, Option.map_some, Option.some.injEq]
    omega
  · rw [strOfInt, if_neg hn]
    split
    case h_1 digits heq => exact absurd heq.symm (cons_minus_ne_toDigits _ _)
    case h_2 digits heq =>
      have hdigit := isDigit_of_mem_toDigits
        (heq ▸ List.mem_cons_self : '+' ∈ Nat.toDigits 10 n.natAbs)
      cases hdigit
    case h_3 =>
      rw [natOfStr_toDigits, Option.map_some, Option.some.injEq]
      omega

theorem strOfInt_inj {m n : ℤ} : strOfInt m = strOfInt n ↔ m = n := by
  constructor
  · intro h
    have hread := congrArg intOfStr h
    rwa [intOfStr_strOfInt, intOfStr_strOfInt, Option.some.injEq] at hread
  · rintro rfl
    rfl

end Py
