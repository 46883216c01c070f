/-
# `RLCM.Py.Num` — `int()` and `round()` on exact numbers

A finite Python float is the rational number it stands for.  `int(x)` drops
the fractional part, towards zero; `round(x)` goes to the nearest integer and
breaks ties towards the even neighbour.
-/
import Mathlib.Data.Rat.Floor

namespace Py

/-- `int(x)` of a float: truncation towards zero. -/
def intOfFloat (x : ℚ) : ℤ := if 0 ≤ x then ⌊x⌋ else ⌈x⌉

/-- `round(x)` of a float: nearest integer, ties to even. -/
def roundHalfEven (x : ℚ) : ℤ :=
  let below := ⌊x⌋
  let rest := x - below
  if rest < 1 / 2 then below
  else if 1 / 2 < rest then below + 1
  else if below % 2 = 0 then below
  else below + 1

end Py
