/-
# `RLCM.RewardScore.Rlcr` — the score with a stated confidence

`extract_answer_and_confidence` reads the last `answer` tag and the first number
of the last `confidence` tag; `compute_score` takes the squared distance of the
confidence from the verdict off the verdict.  The confidence is a double; the score is
computed of it exactly.
-/
import RLCM.Py.Float
import RLCM.RewardScore.MathDapo

namespace RLCM.RewardScore

open Py Pattern

/-- Any character, newlines included (`re.DOTALL`). -/
def anyChar (_ : Char) : Bool := true

def tagPattern (tag : String) : List (Item Char) :=
  [.lit ("<" ++ tag ++ ">").toList, .lazy anyChar, .lit ("</" ++ tag ++ ">").toList]

def lastTag (tag : String) (s : Str) : Option Str :=
  (findAll (tagPattern tag) s).getLast?.map (fun groups => Str.strip (groups.getD 1 []))

/-- `[-+]?\d*\.?\d+`. -/
def numberPattern : List (Item Char) :=
  [.opt (fun c => c = '-' || c = '+'), .greedy Str.isDecimal, .opt (fun c => c = '.'),
    .one Str.isDecimal, .greedy Str.isDecimal]

/-- The number that the pattern matched. -/
def numberOfGroups (groups : List Str) : ℚ :=
  let whole := groups.getD 1 []
  let tail := groups.getD 3 [] ++ groups.getD 4 []
  let magnitude : ℚ :=
    if groups.getD 2 [] = [] then Str.digitsValue (whole ++ tail)
    else Str.digitsValue whole + Str.digitsValue tail / 10 ^ tail.length
  if groups.getD 0 [] = ['-'] then -magnitude else magnitude

/-- `float(num_match.group())`. -/
def floatOfGroups (groups : List Str) : ℚ := roundDouble (numberOfGroups groups)

/-- The confidence that a text states, if the code takes it for one. -/
def statedConfidence (confRaw : Str) : Option ℚ :=
  match (findAll numberPattern confRaw).head? with
  | none => none
  | some groups =>
      let val := floatOfGroups groups
      if 0 ≤ val ∧ val ≤ 100 then
        -- percentages are scaled down
        if val ≤ 1 then some val else some (roundDouble (val / 100))
      else if 0 ≤ val ∧ val ≤ 1 then some val
      else none

def extractAnswerAndConfidence (solutionStr : Str) : Option Str × ℚ × Bool :=
  let answerText := lastTag "answer" solutionStr
  match (lastTag "confidence" solutionStr).bind statedConfidence with
  | some confidence => (answerText, confidence, true)
  | none => (answerText, 1 / 2, false)

/-- What `compute_score` returns. -/
structure Score where
  score : ℚ
  acc : ℤ
  pred : Str
  confidence : ℚ
  confidenceValid : Bool
  answerValid : Bool
  brier : ℚ

def computeScore (solutionStr groundTruth : Str) : Score :=
  let (answerText, confidence, confidenceValid) := extractAnswerAndConfidence solutionStr
  let (correct, normPred) := verifyExtractedAnswer (answerText.getD []) groundTruth
  let acc : ℤ := if correct then 1 else 0
  let brier := (acc - confidence) ^ 2
  { score := acc - brier
    acc := acc
    pred := normPred
    confidence := confidence
    confidenceValid := confidenceValid
    answerValid := answerText.isSome
    brier := brier }

theorem computeScore_acc (solutionStr groundTruth : Str) :
    (computeScore solutionStr groundTruth).acc =
      if (verifyExtractedAnswer ((lastTag "answer" solutionStr).getD []) groundTruth).1
        then 1 else 0 := by
  have hanswer : (extractAnswerAndConfidence solutionStr).1 = lastTag "answer" solutionStr := by
    unfold extractAnswerAndConfidence
    split
    case h_1 => rfl
    case h_2 => rfl
  rw [← hanswer]
  rfl

/-- A percentage, and a text without a number. -/
example : statedConfidence "about 85%".toList = some (roundDouble (85 / 100)) ∧
    statedConfidence "high".toList = none := by decide +kernel

end RLCM.RewardScore
