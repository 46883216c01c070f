/-
# `RLCM.RewardScore.LastTags` — which tag is read as the last one

The scorer and the natural evaluation read the last pair of tags that a lazy pattern
finds.  The pattern pairs from the left: an opening tag that the reasoning before
mentions and does not close takes the closing tag of the answer, and the answer is read
with that much of the reasoning before it.

`readsLastTag_iff` says when the last pair of tags is read as it was written: exactly
when no opening tag before it is left open.
-/
import RLCM.Lib.Delimited
import RLCM.RewardScore.Rlcr

namespace RLCM.RewardScore

open Py Pattern Delimited

/-- The two tags of a response. -/
inductive Tag where
  | answer
  | confidence
deriving DecidableEq

/-- The word between the angle brackets. -/
def Tag.name : Tag → String
  | .answer => "answer"
  | .confidence => "confidence"

def Tag.opening (tag : Tag) : Str := ("<" ++ tag.name ++ ">").toList

def Tag.closing (tag : Tag) : Str := ("</" ++ tag.name ++ ">").toList

def confRaw (solutionStr : Str) : Option Str := lastTag "confidence" solutionStr

/-- `_extract_answer_tag` of `natural_eval.py`. -/
def extractAnswerTag (solutionStr : Str) : Option Str :=
  (findAll (tagPattern "answer") solutionStr).getLast?.map
    (fun groups => Str.strip (groups.getD 1 []))

theorem extractAnswerAndConfidence_fst (solutionStr : Str) :
    (extractAnswerAndConfidence solutionStr).1 = lastTag "answer" solutionStr := by
  unfold extractAnswerAndConfidence
  split
  case h_1 => rfl
  case h_2 => rfl

theorem extractAnswerAndConfidence_snd (solutionStr : Str) :
    (extractAnswerAndConfidence solutionStr).2 =
      ((confRaw solutionStr).bind statedConfidence).elim (1 / 2, false) (fun c => (c, true)) := by
  unfold extractAnswerAndConfidence
  rw [confRaw]
  split
  case h_1 c h => rw [h]; rfl
  case h_2 h => rw [h]; rfl

/-- Of a response that ends with a pair of tags around `a` and then `s`, the code reads the
text `a`, stripped. -/
def ReadsLastTag (tag : Tag) (p a s : Str) : Prop :=
  let solutionStr := p ++ tag.opening ++ a ++ tag.closing ++ s
  match tag with
  | .answer =>
      (extractAnswerAndConfidence solutionStr).1 = some (Str.strip a) ∧
        extractAnswerTag solutionStr = some (Str.strip a)
  | .confidence =>
      confRaw solutionStr = some (Str.strip a) ∧
        (extractAnswerAndConfidence solutionStr).2 =
          (statedConfidence (Str.strip a)).elim (1 / 2, false) (fun c => (c, true))

/-- Neither tag occurs in `s`. -/
def TagFree (tag : Tag) (s : Str) : Prop := ¬ tag.opening <:+: s ∧ ¬ tag.closing <:+: s

/-! ## Stripping keeps a tag -/

theorem rstrip_reverse (s : Str) :
    (Str.rstrip s).reverse = s.reverse.dropWhile Str.isSpace := by
  rw [Str.rstrip, List.reverse_reverse]

theorem strip_isInfix (s : Str) : Str.strip s <:+: s := by
  have hleft := List.dropWhile_suffix Str.isSpace (l := s)
  have hright := List.dropWhile_suffix Str.isSpace (l := (s.dropWhile Str.isSpace).reverse)
  have hstart : Str.strip s <+: s.dropWhile Str.isSpace := by
    rw [← List.reverse_suffix, Str.strip, rstrip_reverse]
    exact hright
  exact hstart.isInfix.trans hleft.isInfix

theorem infix_strip {d e : Char} {t t' s : Str} (hd : Str.isSpace d = false)
    (he : Str.isSpace e = false) (ht : (d :: t).reverse = e :: t') (h : d :: t <:+: s) :
    d :: t <:+: Str.strip s := by
  have hleft := infix_dropWhile hd h
  rw [← List.reverse_infix, ht] at hleft ⊢
  rw [Str.strip, rstrip_reverse]
  exact infix_dropWhile he hleft

/-! ## The last pair -/

theorem lastTag_eq (tag : Tag) (s : Str) :
    lastTag tag.name s = (findAll (pair tag.opening tag.closing anyChar) s).getLast?.map
      (fun groups => Str.strip (groups.getD 1 [])) := by
  rfl

theorem Tag.marks (tag : Tag) : ∃ o c, tag.opening = '<' :: o ∧ tag.closing = '<' :: c ∧
    '<' ∉ o ∧ '<' ∉ c ∧ ¬ o <+: c ∧ ¬ c <+: o ∧ ∃ t', ('<' :: o).reverse = '>' :: t' := by
  cases tag with
  | answer => exact ⟨"answer>".toList, "/answer>".toList, rfl, rfl, by decide, by decide,
      by decide, by decide, _, rfl⟩
  | confidence => exact ⟨"confidence>".toList, "/confidence>".toList, rfl, rfl, by decide,
      by decide, by decide, by decide, _, rfl⟩

/-- The last pair of tags is read as it was written exactly when no opening tag before it is
left open. -/
theorem lastTag_iff (tag : Tag) (p : Str) {a s : Str} (ha : TagFree tag a) (hs : TagFree tag s) :
    lastTag tag.name (p ++ tag.opening ++ a ++ tag.closing ++ s) = some (Str.strip a) ↔
      ¬ LeftOpen tag.opening tag.closing p := by
  obtain ⟨o, c, hopening, hclosing, ho, hc, hoc, hco, t', ht'⟩ := tag.marks
  rw [lastTag_eq]
  simp only [TagFree] at ha hs
  rw [hopening, hclosing] at ha hs ⊢
  have hspace : Str.isSpace '<' = false ∧ Str.isSpace '>' = false := by decide
  constructor
  · rintro hlast ⟨x, y, rfl, hy⟩
    -- the tag that is left open reaches up to the end, and keeps its opening in the text
    have hm := not_infix_append_opening ho hc hoc hco hy ha.2
    obtain ⟨q, hfound, hq⟩ := getLast?_findAll_pair (p := anyChar) (fun _ => rfl) ho hc hoc hco
      hm hs.1 x
    have hassoc : x ++ '<' :: o ++ (y ++ '<' :: o ++ a) ++ '<' :: c ++ s =
        x ++ '<' :: o ++ y ++ '<' :: o ++ a ++ '<' :: c ++ s := by simp only [List.append_assoc]
    have hin : '<' :: o <:+: q := by
      rcases hq with rfl | ⟨-, hin⟩
      · exact ⟨y, a, rfl⟩
      · exact hin
    rw [hassoc] at hfound
    rw [hfound] at hlast
    have hstrip : Str.strip q = Str.strip a := Option.some.inj hlast
    have hkept := infix_strip hspace.1 hspace.2 ht' hin
    rw [hstrip] at hkept
    exact ha.1 (hkept.trans (strip_isInfix a))
  · intro hclosed
    obtain ⟨q, hfound, hq⟩ := getLast?_findAll_pair (p := anyChar) (fun _ => rfl) ho hc hoc hco
      ha.2 hs.1 p
    obtain rfl : q = a := hq.resolve_right (fun h => hclosed h.1)
    rw [hfound]
    rfl

/-- The code reads the last pair of tags as it was written exactly when every opening tag
before it is closed before it. -/
theorem readsLastTag_iff (tag : Tag) (p a s : Str) (ha : TagFree tag a) (hs : TagFree tag s) :
    ReadsLastTag tag p a s ↔ ¬ LeftOpen tag.opening tag.closing p := by
  rw [← lastTag_iff tag p ha hs]
  cases tag with
  | answer =>
      simp only [ReadsLastTag, extractAnswerAndConfidence_fst]
      exact and_iff_left_of_imp id
  | confidence =>
      simp only [ReadsLastTag]
      refine and_iff_left_of_imp (fun h => ?_)
      rw [extractAnswerAndConfidence_snd, h, Option.bind_some]

/-- A closing tag alone does no harm. -/
theorem readsLastTag_of_closing :
    ReadsLastTag .answer "not yet </answer>, ".toList " 2 ".toList " (<confidence>)".toList := by
  have hclosed : ¬ LeftOpen Tag.answer.opening Tag.answer.closing
      "not yet </answer>, ".toList := by
    rintro ⟨x, y, h, -⟩
    have hin : Tag.answer.opening <:+: "not yet </answer>, ".toList := ⟨x, y, h.symm⟩
    exact absurd hin (by decide)
  exact (readsLastTag_iff .answer _ _ _ ⟨by decide, by decide⟩ ⟨by decide, by decide⟩).mpr hclosed

/-- The reasoning names the tag before the answer uses it. -/
theorem readsLastTag_leftOpen :
    ¬ ∀ (tag : Tag) (p a s : Str), TagFree tag a → TagFree tag s → ReadsLastTag tag p a s := by
  intro h
  have hread := h .answer "I end with <answer>.\n".toList "4".toList [] ⟨by decide, by decide⟩
    ⟨by decide, by decide⟩
  exact absurd hread.1 (by decide +kernel)

end RLCM.RewardScore
