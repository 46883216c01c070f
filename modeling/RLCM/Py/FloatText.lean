/-
# `RLCM.Py.FloatText` — `float(s)`, and the values it may return

`float` of a text drops the white space around a literal and reads a sign, digits with
underscores between them, a point and an exponent, or one of the words for infinity and for
not-a-number.  So a text may denote a float that is no number, and what rounds such a float
to an integer raises.

Arithmetic on finite floats is exact here; only the literal is rounded to a double.
-/
import RLCM.Py.Float
import RLCM.Py.Str

namespace Py

/-- A Python float. -/
inductive PyFloat where
  | finite (x : ℚ)
  | infinite (negative : Bool)
  | nan
deriving DecidableEq

namespace PyFloat

/-- `math.isfinite`. -/
def isFinite : PyFloat → Bool
  | finite _ => true
  | _ => false

/-- `-x`. -/
def neg : PyFloat → PyFloat
  | finite x => finite (-x)
  | infinite negative => infinite (!negative)
  | nan => nan

/-- `x + y`. -/
def add : PyFloat → PyFloat → PyFloat
  | finite x, finite y => finite (x + y)
  | infinite a, infinite b => if a = b then infinite a else nan
  | infinite a, finite _ => infinite a
  | finite _, infinite b => infinite b
  | _, _ => nan

/-- `x - y`. -/
def sub (x y : PyFloat) : PyFloat := add x (neg y)

/-- `c * x`, for a positive factor. -/
def scale (c : ℚ) : PyFloat → PyFloat
  | finite x => finite (c * x)
  | infinite negative => infinite negative
  | nan => nan

/-- `x < y`. -/
def lt : PyFloat → PyFloat → Bool
  | finite x, finite y => x < y
  | infinite a, infinite b => a && !b
  | infinite a, finite _ => a
  | finite _, infinite b => !b
  | _, _ => false

/-- `torch.maximum(x, y)`, which hands a nan on. -/
def maximum (x y : PyFloat) : PyFloat :=
  if x = nan ∨ y = nan then nan else if x.lt y then y else x

def sum (xs : List PyFloat) : PyFloat := xs.foldl add (finite 0)

/-- The nearest double, an infinity from `2 ^ 1024` on. -/
def ofRat (x : ℚ) : PyFloat :=
  let rounded := roundDouble x
  if |rounded| < 2 ^ 1024 then finite rounded else infinite (x < 0)

end PyFloat

/-! ## The literal -/

/-- A sign, and what follows it; whether it is a minus. -/
def takeSign : Str → Bool × Str
  | '-' :: s => (true, s)
  | '+' :: s => (false, s)
  | s => (false, s)

/-- `(["_"] digit)*`: the digits, and what follows them. -/
def takeMoreDigits : Str → Str × Str
  | [] => ([], [])
  | '_' :: c :: s =>
      if Str.isDecimal c then
        let (digits, rest) := takeMoreDigits s
        (c :: digits, rest)
      else ([], '_' :: c :: s)
  | c :: s =>
      if Str.isDecimal c then
        let (digits, rest) := takeMoreDigits s
        (c :: digits, rest)
      else ([], c :: s)

/-- `digit (["_"] digit)*`, or nothing. -/
def takeDigits : Str → Str × Str
  | [] => ([], [])
  | c :: s => if Str.isDecimal c then takeMoreDigits (c :: s) else ([], c :: s)

/-- The digits before and after the point, of which there are some, and what follows. -/
def takeNumber (s : Str) : Option (Str × Str × Str) :=
  match takeDigits s with
  | (whole, '.' :: s) =>
      match takeDigits s with
      | (fraction, rest) =>
          if whole = [] ∧ fraction = [] then none else some (whole, fraction, rest)
  | (whole, rest) => if whole = [] then none else some (whole, [], rest)

/-- The exponent that ends a literal, zero if there is none. -/
def exponentOf : Str → Option ℤ
  | [] => some 0
  | c :: s =>
      let (negative, s) := takeSign s
      match takeDigits s with
      | (digits, rest) =>
          if (c = 'e' ∨ c = 'E') ∧ digits ≠ [] ∧ rest = [] then
            some (if negative then -Str.digitsValue digits else Str.digitsValue digits)
          else none

/-- `float(s)`; `none` is the `ValueError`. -/
def floatOfStr (s : Str) : Option PyFloat :=
  let (negative, s) := takeSign (Str.strip s)
  if Str.lower s = "inf".toList ∨ Str.lower s = "infinity".toList then
    some (.infinite negative)
  else if Str.lower s = "nan".toList then some .nan
  else do
    let (whole, fraction, rest) ← takeNumber s
    let exponent ← exponentOf rest
    let magnitude : ℚ :=
      Str.digitsValue (whole ++ fraction) * 10 ^ (exponent - fraction.length)
    pure (PyFloat.ofRat (if negative then -magnitude else magnitude))

/-- The words, and what is no literal. -/
example : floatOfStr " +Infinity\n".toList = some (.infinite false) ∧
    (floatOfStr "-1_000.5e-1".toList).isSome = true ∧
    floatOfStr "1__0".toList = none ∧ floatOfStr ".".toList = none := by decide +kernel

end Py
