/-
# `RLCM.Eval.MathDapo` — the strict-box grader of the evaluation

The evaluation keeps its own copy of the grader.  It puts both sides through both
normalisers, and accepts in three rounds: equal text, equal value up to a relative
tolerance, equal expression for the computer algebra.

`eval` and the computer algebra are not code of this program; they are
parameters here.
-/
import RLCM.Py.Float
import RLCM.RewardScore.MathDapo

namespace RLCM.Eval

open Py Pattern

/-! ## `normalize_final_answer` of this copy -/

/-- `\^{([^{}])}` and `_{([^{}])}`: the braces around one character dropped. -/
def unbrace (mark : Char) (s : Str) : Str :=
  sub [.lit [mark, '\x7b'], .one (fun c => c ≠ '\x7b' && c ≠ '\x7d'), .lit ['\x7d']]
    (fun groups => [mark] ++ groups.getD 1 []) s

/-- The rewrites this copy adds before it normalises numbers. -/
def latexVariants : List (Str × Str) := [
  ("\\dfrac".toList, "\\frac".toList),
  ("\\tfrac".toList, "\\frac".toList),
  ("\\left(".toList, "(".toList),
  ("\\right)".toList, ")".toList),
  ("\\left[".toList, "[".toList),
  ("\\right]".toList, "]".toList),
  ("\\cdot".toList, "*".toList),
  ("\\times".toList, "*".toList)]

/-- `normalize_final_answer`, with the rewrites of this copy. -/
def normalizeFinalAnswer (finalAnswer : Str) : Str :=
  let s := RewardScore.normalizeLatex finalAnswer
  let s := latexVariants.foldl (fun s ba => replace ba.1 ba.2 s) s
  let s := unbrace '^' s
  let s := unbrace '_' s
  Str.strip (RewardScore.normalizeNumber s)

/-- `_normalize_strict_candidate` of a text. -/
def normalizeStrictCandidate (value : Str) : Str :=
  RewardScore.normalizeAnswer (normalizeFinalAnswer value)

/-! ## `is_symbolically_equal` -/

/-- What the grader calls of the computer algebra: the two parsers, and whether
the difference of two expressions simplifies to zero.  `none` is an exception that
the grader catches whatever it is; `sympify` may raise what it does not catch. -/
structure Sympy where
  Expr : Type
  parseLatex : Str → Option Expr
  sympify : Str → Except Error Expr
  differenceIsZero : Expr → Expr → Option Bool

def stripDollars (s : Str) : Str :=
  Str.strip (Str.stripChar '$' (Str.strip s))

/-- `_parse`: the formula parser first, then the expression parser. -/
def parse (sympy : Sympy) (s : Str) : Except Error (Option sympy.Expr) :=
  match sympy.parseLatex (stripDollars s) with
  | some e => .ok (some e)
  | none =>
      match sympy.sympify (stripDollars s) with
      | .ok e => .ok (some e)
      | .error (.valueError _) => .ok none
      | .error .typeError => .ok none
      | .error e => .error e

def isSymbolicallyEqual (sympy : Sympy) (expr1 expr2 : Str) : Except Error Bool := do
  let a ← parse sympy expr1
  let b ← parse sympy expr2
  match a, b with
  | some a, some b => pure ((sympy.differenceIsZero a b).getD false)
  | _, _ => pure false

/-! ## The grader -/

/-- `1e-6`. -/
def relTolerance : ℚ := roundDouble (1 / 10 ^ 6)

/-- `abs(pred_val - gt_val) < 1e-6 * max(1, abs(gt_val))`, in doubles. -/
def withinTolerance (predVal gtVal : ℚ) : Bool :=
  roundDouble |predVal - gtVal| < roundDouble (relTolerance * max 1 |gtVal|)

/-- `float(eval(norm.replace("^", "**"))) if norm else None`, where `none` is
also an exception, or a value that compares with nothing. -/
def evalNorm (evalFloat : Str → Option ℚ) (norm : Str) : Option ℚ :=
  if norm = [] then none else evalFloat (replace ['^'] "**".toList norm)

def valuesClose : Option ℚ → Option ℚ → Bool
  | some predVal, some gtVal => withinTolerance predVal gtVal
  | _, _ => false

/-- The second round: both sides evaluate, and the values are close. -/
def numericallyEqual (evalFloat : Str → Option ℚ) (extractedNorm gtNorm : Str) : Bool :=
  valuesClose (evalNorm evalFloat extractedNorm) (evalNorm evalFloat gtNorm)

/-- `is_correct_strict_box` of the evaluation. -/
def isCorrectStrictBox (sympy : Sympy) (evalFloat : Str → Option ℚ) (pred gt : Str) :
    Except Error (ℤ × Option Str) := do
  match ← RewardScore.extractedPred pred with
  | none => pure (-1, none)
  | some extracted =>
      let extractedNorm := normalizeStrictCandidate extracted
      let gtNorm := normalizeStrictCandidate gt
      -- 1. the exact match of the normalised texts
      if extractedNorm = gtNorm then pure (1, some extracted)
      -- 2. the numeric evaluation
      else if numericallyEqual evalFloat extractedNorm gtNorm then pure (1, some extracted)
      -- 3. the symbolic equivalence, on the texts as they were
      else if ← isSymbolicallyEqual sympy extracted gt then pure (1, some extracted)
      else pure (-1, some extracted)

end RLCM.Eval
