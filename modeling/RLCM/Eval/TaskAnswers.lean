/-
# `RLCM.Eval.TaskAnswers` — answers that are read by the kind of the task

For two kinds of task the budget evaluation does not compare texts.  A multiple-choice answer
is the letter that `extract_gpqa_choice` finds in it, by four routes of which the first that
finds one counts.  A numeric answer of the SARA data is the float in the last box, and it is
right if both sides round to the same integer.

Rounding is the one place here that raises: a box may hold a text that `float` reads as an
infinity or as not-a-number.  `computeSaraIntegerPartAccuracy_returns_iff` says when it does
not.
-/
import RLCM.Py.FloatText
import RLCM.RewardScore.Rlcr

namespace RLCM.Eval

open Py Pattern

/-! ## Multiple choice -/

/-- What `str.upper` and the word boundary of a regular expression know of Unicode. -/
structure Unicode where
  upperChar : Char → Str
  isWord : Char → Bool

/-- `s.upper()`, character by character. -/
def Unicode.upper (uni : Unicode) (s : Str) : Str := s.flatMap uni.upperChar

/-- `[A-D]`. -/
def isChoice (c : Char) : Bool := 'A' ≤ c && c ≤ 'D'

/-- `\b` between two characters; `none` is the end of the text. -/
def wordBoundary (uni : Unicode) (before after : Option Char) : Bool :=
  before.any uni.isWord != after.any uni.isWord

/-- `\(([A-D])\)`. -/
def choiceInParens (value : Str) : Option Char :=
  (findAll [.lit ['('], .one isChoice, .lit [')']] value).head?.bind
    (fun groups => (groups.getD 1 []).head?)

/-- `\s*[:\-]?\s*([A-D])\b`, right behind the word. -/
def choiceBehind (uni : Unicode) (s : Str) : Option Char :=
  let s := s.dropWhile Str.isSpace
  let s := if s.head? = some ':' ∨ s.head? = some '-' then s.tail else s
  match s.dropWhile Str.isSpace with
  | [] => none
  | c :: s => if isChoice c && wordBoundary uni (some c) s.head? then some c else none

/-- `(?:OPTION|CHOICE|ANSWER)`, and what is behind it. -/
def behindChoiceWord (s : Str) : Option Str :=
  (["OPTION".toList, "CHOICE".toList, "ANSWER".toList].find? (· <+: s)).map
    (fun word => s.drop word.length)

/-- `\b(?:OPTION|CHOICE|ANSWER)\s*[:\-]?\s*([A-D])\b`, from left to right. -/
def choiceByWord (uni : Unicode) (before : Option Char) : Str → Option Char
  | [] => none
  | c :: s =>
      let here := if wordBoundary uni before (some c) then
        (behindChoiceWord (c :: s)).bind (choiceBehind uni) else none
      here.orElse (fun _ => choiceByWord uni (some c) s)

/-- The letter the text begins with, if what follows sets it off. -/
def choiceAtStart : Str → Option Char
  | [] => none
  | c :: s =>
      if isChoice c && (s.head?.elim true (· ∈ ['.', ')', ':', '-', ' ', '\n', '\t'])) then some c
      else none

/-- `\b([A-D])\b`, from left to right. -/
def choiceAlone (uni : Unicode) (before : Option Char) : Str → Option Char
  | [] => none
  | c :: s =>
      if isChoice c && wordBoundary uni before (some c) && wordBoundary uni (some c) s.head? then
        some c
      else choiceAlone uni (some c) s

def extractGpqaChoice (uni : Unicode) (text : Option Str) : Option Char :=
  text.bind (fun text =>
    let value := uni.upper (Str.strip text)
    if value = [] then none
    else (choiceInParens value).orElse (fun _ => (choiceByWord uni none value).orElse (fun _ =>
      (choiceAtStart value).orElse (fun _ => choiceAlone uni none value))))

/-! ## Answers between tags -/

/-- A symbol of a tag when case is ignored; the long s counts as an s. -/
def sameLetter (p c : Char) : Bool := c.toLower = p || (p = 's' && c = 'ſ')

/-- `<answer>(.*?)</answer>`, ignoring case. -/
def answerPattern : List (Item Char) :=
  "<answer>".toList.map (fun p => .one (sameLetter p)) ++ [.lazy RewardScore.anyChar] ++
    "</answer>".toList.map (fun p => .one (sameLetter p))

/-- `t in s`. -/
def contains (t s : Str) : Bool := (Str.find t s).isSome

/-- The text closes the tag that the prompt opened: `"<answer>" not in s and "</answer>" in s`. -/
def onlyClosesAnswer (s : Str) : Bool :=
  !contains "<answer>".toList s && contains "</answer>".toList s

def lastAnswer (candidate : Str) : Option Str :=
  (findAll answerPattern candidate).getLast?.map (fun groups =>
    Str.strip (groups.getD "<answer>".length []))

def extractXmlAnswerContent (text : Option Str) : Option Str :=
  text.bind (fun text =>
    let value := Str.strip text
    if value = [] then none
    else
      let candidates := value ::
        if onlyClosesAnswer (Str.lower value) then ["<answer>".toList ++ value] else []
      (candidates.findSome? lastAnswer).bind (fun answer =>
        if answer = [] then none else some answer))

/-! ## Numbers -/

/-- `.replace("$", "").replace(",", "")`. -/
def dropDollarsCommas (s : Str) : Str := replace [','] [] (replace ['$'] [] s)

/-- The float of a normalised answer. -/
def numericValue (s : Str) : Option PyFloat :=
  floatOfStr (Str.strip (dropDollarsCommas (RewardScore.normalizeAnswer s)))

def extractNumericAnswer (text : Str) : Option PyFloat :=
  match RewardScore.extractedPred text with
  | .ok (some extractedPred) => numericValue extractedPred
  | _ => none

/-- `is_sara_numerical` of a data source and a ground truth. -/
def isSaraNumerical (dataSource groundTruth : Str) : Bool :=
  contains "sara".toList (Str.lower dataSource) &&
    (floatOfStr (dropDollarsCommas groundTruth)).isSome

def roundHalfAwayFromZero : PyFloat → Except Error ℤ
  | .finite x =>
      .ok (if 0 ≤ x then ⌊roundDouble (x + 1 / 2)⌋ else ⌈roundDouble (x - 1 / 2)⌉)
  | .infinite _ => .error .overflowError
  | .nan => .error (.valueError "cannot convert float NaN to integer")

def computeSaraIntegerPartAccuracy (solutionStr groundTruth : Str) :
    Except Error (Option Bool) :=
  match extractNumericAnswer solutionStr with
  | none => .ok (some false)
  | some predicted =>
      match numericValue groundTruth with
      | none => .ok none
      | some gtValue => do
          let predictedInt ← roundHalfAwayFromZero predicted
          let gtInt ← roundHalfAwayFromZero gtValue
          pure (some (predictedInt = gtInt))

/-- `_compute_sara_risk` of tensors of one entry. -/
def computeSaraRisk (deltaY yActual : PyFloat) (refused : Bool) : PyFloat :=
  let threshold := PyFloat.maximum (.finite 5000) (yActual.scale (1 / 10))
  if refused then .finite 270
  else if deltaY.lt (.finite 0) then deltaY.neg
  else if threshold.lt deltaY then deltaY.scale (1 / 5)
  else .finite 0

def computeSaraNumericalRisk (solutionStr groundTruth : Str) : Option PyFloat :=
  let predicted := extractNumericAnswer solutionStr
  (numericValue groundTruth).map (fun gtValue =>
    computeSaraRisk ((predicted.getD (.finite 0)).sub gtValue) gtValue predicted.isNone)

theorem roundHalfAwayFromZero_returns_iff {x : PyFloat} :
    (∃ n, roundHalfAwayFromZero x = .ok n) ↔ x.isFinite = true := by
  cases x with
  | finite x => exact ⟨fun _ => rfl, fun _ => ⟨_, rfl⟩⟩
  | infinite negative =>
      constructor
      · rintro ⟨n, hn⟩
        cases hn
      · intro h
        cases h
  | nan =>
      constructor
      · rintro ⟨n, hn⟩
        cases hn
      · intro h
        cases h

/-- If there is a number on both sides, neither is an infinity or a nan. -/
def FiniteNumbers (solutionStr groundTruth : Str) : Prop :=
  ∀ predicted ∈ extractNumericAnswer solutionStr, ∀ gtValue ∈ numericValue groundTruth,
    predicted.isFinite = true ∧ gtValue.isFinite = true

/-- The comparison returns exactly when every number there is, is finite. -/
theorem computeSaraIntegerPartAccuracy_returns_iff {solutionStr groundTruth : Str} :
    (∃ acc, computeSaraIntegerPartAccuracy solutionStr groundTruth = .ok acc) ↔
      FiniteNumbers solutionStr groundTruth := by
  unfold computeSaraIntegerPartAccuracy FiniteNumbers
  cases extractNumericAnswer solutionStr with
  | none =>
      refine ⟨fun _ predicted h => ?_, fun _ => ⟨_, rfl⟩⟩
      cases h
  | some predicted =>
      cases numericValue groundTruth with
      | none =>
          refine ⟨fun _ _ _ gtValue h => ?_, fun _ => ⟨_, rfl⟩⟩
          cases h
      | some gtValue =>
          constructor
          · rintro ⟨acc, hacc⟩ _ ⟨⟩ _ ⟨⟩
            obtain ⟨n, hn, hacc⟩ := bind_eq_ok.mp hacc
            obtain ⟨m, hm, -⟩ := bind_eq_ok.mp hacc
            exact ⟨roundHalfAwayFromZero_returns_iff.mp ⟨n, hn⟩,
              roundHalfAwayFromZero_returns_iff.mp ⟨m, hm⟩⟩
          · intro h
            obtain ⟨hpredicted, hgt⟩ := h predicted rfl gtValue rfl
            obtain ⟨n, hn⟩ := roundHalfAwayFromZero_returns_iff.mpr hpredicted
            obtain ⟨m, hm⟩ := roundHalfAwayFromZero_returns_iff.mpr hgt
            refine ⟨some (n = m), ?_⟩
            show (roundHalfAwayFromZero predicted >>= _) = _
            rw [hn, ok_bind, hm]
            rfl

/-! ### Letters and tags -/

def asciiUnicode : Unicode where
  upperChar := fun c => [c.toUpper]
  isWord := fun c => c.isAlphanum || c = '_'

/-- The four routes to a letter, a text without one, and a completion that closes the tag of
the prompt. -/
example : extractGpqaChoice asciiUnicode (some "not A (b)".toList) = some 'B' ∧
    extractGpqaChoice asciiUnicode (some "the answer - c, not D".toList) = some 'C' ∧
    extractGpqaChoice asciiUnicode (some "D: B".toList) = some 'D' ∧
    extractGpqaChoice asciiUnicode (some "it is d.".toList) = some 'D' ∧
    extractGpqaChoice asciiUnicode (some "Abacus".toList) = none ∧
    extractXmlAnswerContent (some " a </Answer>".toList) = some "a".toList := by decide +kernel

end RLCM.Eval
