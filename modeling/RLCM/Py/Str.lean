/-
# `RLCM.Py.Str` — the string operations the code uses

A Python `str` is the list of its code points.
-/
import Mathlib.Data.List.Basic
import Mathlib.Data.List.Infix

namespace Py

abbrev Str := List Char

namespace Str

/-- `str.isspace` for one code point. -/
def isSpace (c : Char) : Bool :=
  let n := c.toNat
  (9 ≤ n && n ≤ 13) || (28 ≤ n && n ≤ 32) || n == 133 || n == 160 || n == 5760 ||
    (8192 ≤ n && n ≤ 8202) || n == 8232 || n == 8233 || n == 8239 || n == 8287 || n == 12288

def rstrip (s : Str) : Str := (s.reverse.dropWhile isSpace).reverse

def strip (s : Str) : Str := rstrip (s.dropWhile isSpace)

/-- `s.endswith(t)`. -/
def endsWith (s t : Str) : Bool := t.isSuffixOf s

/-- `s.find(t)`; `none` stands for `-1`. -/
def find (t : Str) : Str → Option ℕ
  | [] => if t = [] then some 0 else none
  | c :: s => if t.isPrefixOf (c :: s) then some 0 else (find t s).map (· + 1)

/-- `s.rfind(t)`; `none` stands for `-1`. -/
def rfind (t : Str) : Str → Option ℕ
  | [] => if t = [] then some 0 else none
  | c :: s =>
      match rfind t s with
      | some i => some (i + 1)
      | none => if t.isPrefixOf (c :: s) then some 0 else none

/-- `s.lower()`, on the letters the code compares with. -/
def lower (s : Str) : Str := s.map Char.toLower

/-- The code points of the zeros of Unicode's decimal digits; the other nine
digits follow each of them. -/
def decimalZeros : List ℕ := [
  48, 1632, 1776, 1984, 2406, 2534, 2662, 2790, 2918, 3046, 3174, 3302, 3430, 3558, 3664, 3792,
  3872, 4160, 4240, 6112, 6160, 6470, 6608, 6784, 6800, 6992, 7088, 7232, 7248, 42528, 43216,
  43264, 43472, 43504, 43600, 44016, 65296, 66720, 68912, 69734, 69872, 69942, 70096, 70384,
  70736, 70864, 71248, 71360, 71472, 71904, 72016, 72784, 73040, 73120, 92768, 92864, 93008,
  120782, 120792, 120802, 120812, 120822, 123200, 123632, 125264, 130032]

/-- The value of a decimal digit (`\d`, and what `float` reads). -/
def decimalValue (c : Char) : Option ℕ :=
  (decimalZeros.find? (fun z => z ≤ c.toNat && c.toNat ≤ z + 9)).map (c.toNat - ·)

def digitsValue (s : Str) : ℕ := s.foldl (fun n c => 10 * n + (decimalValue c).getD 0) 0

/-- `str.isdecimal` for one code point. -/
def isDecimal (c : Char) : Bool := (decimalValue c).isSome

/-- The digits that are not decimal ones: superscripts, circled digits, and so
on, as ranges of code points. -/
def otherDigits : List (ℕ × ℕ) := [
  (178, 179), (185, 185), (4969, 4977), (6618, 6618), (8304, 8304), (8308, 8313), (8320, 8329),
  (9312, 9320), (9332, 9340), (9352, 9360), (9450, 9450), (9461, 9469), (9471, 9471),
  (10102, 10110), (10112, 10120), (10122, 10130), (68160, 68163), (69216, 69224), (69714, 69722),
  (127232, 127242)]

/-- `str.isdigit` for one code point. -/
def isDigitChar (c : Char) : Bool :=
  isDecimal c || otherDigits.any (fun r => r.1 ≤ c.toNat && c.toNat ≤ r.2)

/-- `s.isdigit()`. -/
def isDigit (s : Str) : Bool := !s.isEmpty && s.all isDigitChar

/-- `s.split(c)[-1]`. -/
def afterLast (c : Char) (s : Str) : Str := (s.reverse.takeWhile (· ≠ c)).reverse

def lstripChar (c : Char) (s : Str) : Str := s.dropWhile (· = c)

def stripChar (c : Char) (s : Str) : Str := (lstripChar c (lstripChar c s).reverse).reverse

@[simp] theorem endsWith_iff {s t : Str} : s.endsWith t = true ↔ t <:+ s := by
  simp [endsWith]

theorem strip_of_notSpace {s : Str} (h : ∀ c ∈ s, isSpace c = false) : strip s = s := by
  have hkeep : ∀ t : Str, (∀ c ∈ t, isSpace c = false) → t.dropWhile isSpace = t := by
    intro t ht
    cases t with
    | nil => rfl
    | cons c t =>
        refine List.dropWhile_cons_of_neg ?_
        rw [ht c List.mem_cons_self]
        exact Bool.false_ne_true
  have hreverse := hkeep s.reverse (fun c hc => h c (List.mem_reverse.mp hc))
  rw [strip, hkeep s h, rstrip, hreverse, List.reverse_reverse]

/-- An occurrence is found. -/
theorem rfind_ne_none {t : Str} (ht : t ≠ []) (p r : Str) : rfind t (p ++ t ++ r) ≠ none := by
  induction p with
  | nil =>
      obtain ⟨c, t', rfl⟩ := List.exists_cons_of_ne_nil ht
      intro h
      rw [List.nil_append, List.cons_append, rfind] at h
      split at h
      case h_1 => cases h
      case h_2 =>
        have hstart : (c :: t').isPrefixOf (c :: (t' ++ r)) = true :=
          List.isPrefixOf_iff_prefix.mpr ⟨r, rfl⟩
        rw [if_pos hstart] at h
        cases h
  | cons c p ih =>
      obtain ⟨i, hi⟩ := Option.ne_none_iff_exists'.mp ih
      intro h
      rw [List.cons_append, List.cons_append, rfind, hi] at h
      cases h

/-- `rfind` returns the start of the last occurrence. -/
theorem rfind_eq_some {t s : Str} {i : ℕ} (ht : t ≠ []) (h : rfind t s = some i) :
    ∃ p r, s = p ++ t ++ r ∧ p.length = i ∧ ∀ p' r', s = p' ++ t ++ r' → p'.length ≤ i := by
  induction s generalizing i with
  | nil =>
      rw [rfind, if_neg ht] at h
      cases h
  | cons c s ih =>
      rw [rfind] at h
      split at h
      case h_1 j hj =>
        obtain ⟨p, r, rfl, hp, hlast⟩ := ih hj
        have hi : j + 1 = i := Option.some.inj h
        refine ⟨c :: p, r, rfl, by rw [List.length_cons, hp, hi], fun p' r' hsplit => ?_⟩
        cases p' with
        | nil => exact Nat.zero_le i
        | cons d p' =>
            have hle := hlast p' r' (List.cons.inj hsplit).2
            rw [List.length_cons]
            omega
      case h_2 hnone =>
        split at h
        case isFalse => cases h
        case isTrue hstart =>
          obtain ⟨r, hr⟩ := List.isPrefixOf_iff_prefix.mp hstart
          have hi : 0 = i := Option.some.inj h
          refine ⟨[], r, hr.symm, hi, fun p' r' hsplit => ?_⟩
          cases p' with
          | nil => exact Nat.zero_le i
          | cons d p' =>
              have htail : s = p' ++ t ++ r' := (List.cons.inj hsplit).2
              exact absurd (htail ▸ hnone) (rfind_ne_none ht p' r')

/-- An occurrence whose first symbol does not come again is the last one. -/
theorem rfind_append {c : Char} {t r : Str} (h : c ∉ t ++ r) (p : Str) :
    rfind (c :: t) (p ++ (c :: t) ++ r) = some p.length := by
  obtain ⟨i, hi⟩ := Option.ne_none_iff_exists'.mp (rfind_ne_none (List.cons_ne_nil c t) p r)
  obtain ⟨p', r', hsplit, hlength, hlast⟩ := rfind_eq_some (List.cons_ne_nil c t) hi
  have hle : p.length ≤ p'.length := hlength ▸ hlast p r rfl
  have hstart : p <+: p' := by
    have hp : p <+: p ++ (c :: t) ++ r := ⟨(c :: t) ++ r, by rw [List.append_assoc]⟩
    have hp' : p' <+: p ++ (c :: t) ++ r := ⟨(c :: t) ++ r', by rw [hsplit, List.append_assoc]⟩
    exact List.prefix_of_prefix_length_le hp hp' hle
  obtain ⟨q, rfl⟩ := hstart
  rw [hi, ← hlength]
  cases q with
  | nil => rw [List.append_nil]
  | cons d q =>
      -- the later occurrence would start inside what has no such symbol
      rw [List.append_assoc, List.append_assoc, List.append_assoc, List.append_right_inj] at hsplit
      have htail : t ++ r = q ++ (c :: t ++ r') := (List.cons.inj hsplit).2
      refine absurd ?_ h
      rw [htail]
      simp

end Str

end Py
