/-
# `RLCM.RewardScore.MathDapo` — the normalisers and the strict-box grader of training

`normalize_final_answer` takes an answer through two tables of textual rewrites,
a row of regular expressions and the removal of thousands separators;
`normalize_answer` strips a final `.0` and leading zeros.  The strict-box grader
of training compares the last box with the ground truth after the second only;
the one of the evaluation (`RLCM.Eval.MathDapo`) runs both.

A regular expression is the row of its items (`RLCM.Lib.Pattern`), a group of it
the segment its item took.
-/
import RLCM.Eval.Boxed
import RLCM.Lib.Pattern
import RLCM.Py.Error

namespace RLCM.RewardScore

open Py Pattern

def removeBoxed (s : Str) : Except Error Str :=
  let left := Eval.boxedOpen
  if s.take left.length ≠ left then .error .assertionError
  else if s.getLast? ≠ some '\x7d' then .error .assertionError
  else .ok ((s.drop left.length).dropLast)

/-! ## `normalize_final_answer` -/

def substitutions : List (Str × Str) := [
  ("an ".toList, []),
  ("a ".toList, []),
  (".$".toList, "$".toList),
  ("\\$".toList, []),
  ("\\ ".toList, []),
  (" ".toList, []),
  ("mbox".toList, "text".toList),
  (",\\text\x7band\x7d".toList, ",".toList),
  ("\\text\x7band\x7d".toList, ",".toList),
  ("\\text\x7bm\x7d".toList, "\\text\x7b\x7d".toList)]

def removedExpressions : List Str := [
  "square".toList,
  "ways".toList,
  "integers".toList,
  "dollars".toList,
  "mph".toList,
  "inches".toList,
  "hours".toList,
  "km".toList,
  "units".toList,
  "\\ldots".toList,
  "sue".toList,
  "points".toList,
  "feet".toList,
  "minutes".toList,
  "digits".toList,
  "cents".toList,
  "degrees".toList,
  "cm".toList,
  "gm".toList,
  "pounds".toList,
  "meters".toList,
  "meals".toList,
  "edges".toList,
  "students".toList,
  "childrentickets".toList,
  "multiples".toList,
  "\\text\x7bs\x7d".toList,
  "\\text\x7b.\x7d".toList,
  "\\text\x7b\ns\x7d".toList,
  "\\text\x7b\x7d^2".toList,
  "\\text\x7b\x7d^3".toList,
  "\\text\x7b\n\x7d".toList,
  "\\text\x7b\x7d".toList,
  "\\mathrm\x7bth\x7d".toList,
  "^\\circ".toList,
  "^\x7b\\circ\x7d".toList,
  "\\;".toList,
  ",\\!".toList,
  "\x7b,\x7d".toList,
  "\"".toList,
  "\\dots".toList]

/-- `.` of a regular expression. -/
def dot (c : Char) : Bool := c ≠ '\n'

/-- `[^{]`. -/
def notOpen (c : Char) : Bool := c ≠ '\x7b'

/-- `re.sub` of a command by the text between its braces: up to the first
closing one if `body` is lazy, up to the last one of the line if it is greedy. -/
def unwrap (command : String) (body : Item Char) (s : Str) : Str :=
  sub [.lit command.toList, body, .lit ['\x7d']] (fun groups => groups.getD 1 []) s

/-- `normalize_final_answer`, up to the dropped dollar signs. -/
def normalizeLatex (finalAnswer : Str) : Str :=
  let s := finalAnswer.afterLast '='
  -- Apply substitutions and removals
  let s := substitutions.foldl (fun s ba => replace ba.1 ba.2 s) s
  let s := removedExpressions.foldl (fun s expr => replace expr [] s) s
  -- Extract and normalize LaTeX math
  let s := sub [.lazy dot, .lit ['$'], .lazy dot, .lit ['$'], .greedy dot]
    (fun groups => ['$'] ++ groups.getD 2 [] ++ ['$']) s
  let s := unwrap "\\text\x7b" (.lazy dot) s
  let s := unwrap "\\textbf\x7b" (.lazy dot) s
  let s := unwrap "\\overline\x7b" (.lazy dot) s
  let s := unwrap "\\boxed\x7b" (.greedy dot) s
  -- Normalize shorthand TeX
  let s := sub [.lit "frac".toList, .one notOpen, .one dot]
    (fun groups => "frac\x7b".toList ++ groups.getD 1 [] ++ "\x7d\x7b".toList ++
      groups.getD 2 [] ++ "\x7d".toList) s
  let s := sub [.lit "sqrt".toList, .one notOpen]
    (fun groups => "sqrt\x7b".toList ++ groups.getD 1 [] ++ "\x7d".toList) s
  replace ['$'] [] s

/-- The thousands separators of a number dropped. -/
def normalizeNumber (s : Str) : Str :=
  if Str.isDigit (replace [','] [] s) then replace [','] [] s else s

def normalizeFinalAnswer (finalAnswer : Str) : Str :=
  Str.strip (normalizeNumber (normalizeLatex finalAnswer))

/-! ## `normalize_answer` and the grader -/

/-- What is left of a text without its leading zeros, or the one zero. -/
def dropZeros (s : Str) : Str :=
  let stripped := s.lstripChar '0'
  if stripped = [] then ['0'] else stripped

/-- `normalize_answer` of a text. -/
def normalizeAnswer (s : Str) : Str :=
  let s := s.strip
  let s := if s.endsWith ".0".toList then s.take (s.length - 2) else s
  match s with
  | '-' :: rest => '-' :: dropZeros rest
  | s => dropZeros s

/-- A text without its final `.0`. -/
def dropPoint (s : Str) : Str := if s.endsWith ".0".toList then s.take (s.length - 2) else s

theorem normalizeAnswer_of_minus {s rest : Str} (h : dropPoint s.strip = '-' :: rest) :
    normalizeAnswer s = '-' :: dropZeros rest := by
  unfold dropPoint at h
  unfold normalizeAnswer
  dsimp only
  rw [h]
  rfl

theorem normalizeAnswer_of_ne_minus {s : Str} (h : ∀ rest, dropPoint s.strip ≠ '-' :: rest) :
    normalizeAnswer s = dropZeros (dropPoint s.strip) := by
  unfold dropPoint at h ⊢
  unfold normalizeAnswer
  dsimp only
  split
  case h_1 rest hrest => exact absurd hrest (h rest)
  case h_2 => rfl

/-- `extracted_pred`: the content of the last box. -/
def extractedPred (pred : Str) : Except Error (Option Str) :=
  match Eval.lastBoxedOnlyString pred with
  | none => .ok none
  | some boxedPred => (removeBoxed boxedPred).map some

/-- `is_correct_strict_box` of training: the verdict and the extracted answer. -/
def isCorrectStrictBox (pred gt : Str) : Except Error (ℤ × Option Str) := do
  let extracted ← extractedPred pred
  let extractedNorm := extracted.map normalizeAnswer
  let gtNorm := normalizeAnswer gt
  pure (if extractedNorm = some gtNorm then 1 else -1, extracted)

/-- `verify_extracted_answer`: the comparison, and the normalised prediction. -/
def verifyExtractedAnswer (predStr gtStr : Str) : Bool × Str :=
  let predNorm := if predStr = [] then [] else normalizeFinalAnswer predStr
  let gtNorm := normalizeFinalAnswer gtStr
  (predNorm = gtNorm, predNorm)

/-- The cases of the unit tests of the normalisers. -/
example : normalizeFinalAnswer "5 degrees".toList = "5".toList ∧
    normalizeFinalAnswer "x = 5".toList = "5".toList ∧
    normalizeFinalAnswer "1,000".toList = "1000".toList ∧
    normalizeFinalAnswer "\\frac12".toList = "\\frac\x7b1\x7d\x7b2\x7d".toList ∧
    normalizeAnswer "073".toList = "73".toList ∧ normalizeAnswer "7.0".toList = "7".toList ∧
    normalizeAnswer "-007".toList = "-7".toList ∧ normalizeAnswer "000".toList = "0".toList := by
  decide +kernel

end RLCM.RewardScore
