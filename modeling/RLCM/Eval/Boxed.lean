/-
# `RLCM.Eval.Boxed` — boxed answers and the end of the thinking

`last_boxed_only_string` of the grader, and `extract_thinking_content` of the
budget evaluation.
-/
import RLCM.Py.Str

namespace RLCM.Eval

open Py

def boxedOpen : Str := "\\boxed\x7b".toList

/-- The scan for the brace that closes the first one opened: its index, with
`depth` braces open and the scan at index `i`. -/
def closingBrace : Str → ℤ → ℕ → Option ℕ
  | [], _, _ => none
  | c :: s, depth, i =>
      let depth := if c = '\x7b' then depth + 1 else depth
      if c = '\x7d' then
        if depth - 1 = 0 then some i else closingBrace s (depth - 1) (i + 1)
      else closingBrace s depth (i + 1)

def lastBoxedOnlyString (s : Str) : Option Str :=
  match Str.rfind boxedOpen s with
  | none => none
  | some idx =>
      (closingBrace (s.drop idx) 0 idx).map (fun right => (s.drop idx).take (right + 1 - idx))

def thinkEndTag : Str := "</think>".toList

/-- `extract_thinking_content`: the output up to the first end tag. -/
def extractThinkingContent (output : Str) : Str :=
  match Str.find thinkEndTag output with
  | some thinkEndIdx => output.take thinkEndIdx
  | none => output

theorem extractThinkingContent_prefix (output : Str) :
    extractThinkingContent output <+: output := by
  unfold extractThinkingContent
  split
  case h_1 thinkEndIdx h => exact List.take_prefix _ _
  case h_2 h => exact List.prefix_refl _

/-- The last box, and a box that is never closed. -/
example : lastBoxedOnlyString "a \\boxed\x7b1\x7d \\boxed\x7b\x7b2\x7d\x7d.".toList =
    some "\\boxed\x7b\x7b2\x7d\x7d".toList ∧
    lastBoxedOnlyString "\\boxed\x7b\x7b2\x7d".toList = none := by decide

end RLCM.Eval
