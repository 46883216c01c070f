/-
# `RLCM.RewardScore.BlankAnswers` — when an absent answer is graded wrong

A blank prediction normalises to nothing, and `normalize_answer` reads nothing as
zero.  So a response without an answer is graded correct exactly when the ground
truth is normalised away too: to nothing under the answer tags, to zero in the
strict-box graders, or to something that evaluates to about zero in the second
round of the evaluation.  `gradedWrong_iff` is the exact condition on the ground
truth.
-/
import RLCM.Eval.LastBox
import RLCM.RewardScore.PlainText
import RLCM.RewardScore.Rlcr

namespace RLCM.RewardScore

open Py Pattern

/-! ## Absent or blank -/

theorem strip_eq_nil_iff {s : Str} : Str.strip s = [] ↔ Blank s := by
  constructor
  · intro h
    have htail : ∀ c ∈ s.dropWhile Str.isSpace, Str.isSpace c = true := by
      rw [Str.strip, Str.rstrip, List.reverse_eq_nil_iff, List.dropWhile_eq_nil_iff] at h
      exact fun c hc => h c (List.mem_reverse.mpr hc)
    -- a symbol that is left would start the rest, and is no white space
    have hnil : s.dropWhile Str.isSpace = [] := by
      cases hdrop : s.dropWhile Str.isSpace with
      | nil => rfl
      | cons c r =>
          have hspace := htail c (by rw [hdrop]; exact List.mem_cons_self)
          have hhead := List.head?_dropWhile_not Str.isSpace s
          rw [hdrop] at hhead
          simp [hspace] at hhead
    exact List.dropWhile_eq_nil_iff.mp hnil
  · exact Blank.strip

/-- A pair of the tags in `s`, around `content`. -/
def HasPair (tag : String) (s : Str) : Prop :=
  ∃ p content rest, s = p ++ ("<" ++ tag ++ ">").toList ++ content ++
    ("</" ++ tag ++ ">").toList ++ rest

/-- No pair of answer tags, or a last one with white space only. -/
def AnswerBlank (s : Str) : Prop :=
  ¬ HasPair "answer" s ∨ ∃ groups, (findAll (tagPattern "answer") s).getLast? = some groups ∧
    Blank (groups.getD 1 [])

/-- No closed box, or a last one with white space only. -/
def BoxBlank (s : Str) : Prop := ∀ c, Eval.LastBoxHolds s c → Blank c

/-- A response has a pair of tags exactly when the pattern is found. -/
theorem hasPair_iff {tag : String} {s : Str} :
    HasPair tag s ↔ findAll (tagPattern tag) s ≠ [] := by
  constructor
  · rintro ⟨p, content, rest, rfl⟩ hnone
    have haccepts : List.Forall₂ Item.Accepts (tagPattern tag)
        [("<" ++ tag ++ ">").toList, content, ("</" ++ tag ++ ">").toList] :=
      List.Forall₂.cons rfl (List.Forall₂.cons (fun _ _ => rfl) (List.Forall₂.cons rfl .nil))
    refine matchAt_ne_none haccepts rest (matchAt_eq_none_of_findAll hnone ?_ ?_)
    · refine ⟨p, ?_⟩
      simp
    · simp
  · intro hfound
    by_contra hnone
    refine hfound (findAll_of_none (fun t ht _ => ?_))
    cases hmatch : matchAt (tagPattern tag) t with
    | none => rfl
    | some found =>
        obtain ⟨groups, rest⟩ := found
        obtain ⟨hflatten, hforall⟩ := of_matchAt hmatch
        obtain ⟨p, rfl⟩ := ht
        refine absurd ?_ hnone
        obtain ⟨_, _, rfl, hlazy, rfl⟩ := List.forall₂_cons_left_iff.mp hforall
        obtain ⟨content, _, _, hclose, rfl⟩ := List.forall₂_cons_left_iff.mp hlazy
        obtain ⟨_, _, rfl, hnil, rfl⟩ := List.forall₂_cons_left_iff.mp hclose
        obtain rfl := List.forall₂_nil_left_iff.mp hnil
        refine ⟨p, content, rest, ?_⟩
        rw [← hflatten]
        simp

/-- The code takes an answer for blank exactly when it is. -/
theorem lastTag_getD_eq_nil_iff (s : Str) :
    (lastTag "answer" s).getD [] = [] ↔ AnswerBlank s := by
  rw [lastTag, AnswerBlank, hasPair_iff, not_not]
  cases hlast : (findAll (tagPattern "answer") s).getLast? with
  | none =>
      have hnil := List.getLast?_eq_none_iff.mp hlast
      simp [hnil]
  | some groups =>
      have hne : findAll (tagPattern "answer") s ≠ [] := by
        intro hnil
        rw [hnil] at hlast
        cases hlast
      rw [Option.map_some, Option.getD_some, strip_eq_nil_iff]
      constructor
      · intro hblank
        exact Or.inr ⟨groups, rfl, hblank⟩
      · rintro (hnil | ⟨groups', hgroups, hblank⟩)
        · exact absurd hnil hne
        · cases hgroups
          exact hblank

/-! ## Texts that read as zero -/

/-- A row of zeros, perhaps none, perhaps with a final `.0`, in white space. -/
def SpellsZero (s : Str) : Prop :=
  ∃ n, Str.strip s = List.replicate n '0' ∨ Str.strip s = List.replicate n '0' ++ ['.', '0']

theorem dropZeros_eq_zero_iff {s : Str} : dropZeros s = ['0'] ↔ ∃ n, s = List.replicate n '0' := by
  have hall : s.lstripChar '0' = [] ↔ ∃ n, s = List.replicate n '0' := by
    rw [Str.lstripChar, List.dropWhile_eq_nil_iff]
    constructor
    · intro h
      exact ⟨s.length, List.eq_replicate_of_mem (fun c hc => by simpa using h c hc)⟩
    · rintro ⟨n, rfl⟩ c hc
      simpa using List.eq_of_mem_replicate hc
  unfold dropZeros
  dsimp only
  split
  case isTrue h =>
    exact ⟨fun _ => hall.mp h, fun _ => rfl⟩
  case isFalse h =>
    constructor
    · intro hzero
      -- a stripped text does not start with a zero
      have hhead := List.head?_dropWhile_not (fun c => decide (c = '0')) s
      rw [show s.dropWhile (fun c => decide (c = '0')) = ['0'] from hzero] at hhead
      simp at hhead
    · intro hrow
      exact absurd (hall.mpr hrow) h

/-- `normalize_answer` returns zero exactly for the texts that spell it, the
blank ones among them. -/
theorem normalizeAnswer_eq_zero_iff {s : Str} : normalizeAnswer s = ['0'] ↔ SpellsZero s := by
  have hbody : normalizeAnswer s = ['0'] ↔ ∃ n, dropPoint (Str.strip s) = List.replicate n '0' := by
    by_cases hminus : ∃ rest, dropPoint (Str.strip s) = '-' :: rest
    · obtain ⟨rest, hrest⟩ := hminus
      rw [normalizeAnswer_of_minus hrest, hrest]
      constructor
      · intro h
        cases (List.cons.inj h).1
      · rintro ⟨n, hn⟩
        have hmem : '-' ∈ List.replicate n '0' := hn ▸ List.mem_cons_self
        cases List.eq_of_mem_replicate hmem
    · rw [normalizeAnswer_of_ne_minus fun rest hrest => hminus ⟨rest, hrest⟩]
      exact dropZeros_eq_zero_iff
  refine hbody.trans (exists_congr (fun n => ?_))
  unfold dropPoint
  have hpoint : ∀ t : Str, t ++ ['.', '0'] ≠ List.replicate n '0' := by
    intro t ht
    have hmem : '.' ∈ List.replicate n '0' := ht ▸ by simp
    cases List.eq_of_mem_replicate hmem
  by_cases hend : (Str.strip s).endsWith ".0".toList = true
  · obtain ⟨t, ht⟩ := Str.endsWith_iff.mp hend
    have ht' : t ++ ['.', '0'] = Str.strip s := ht
    rw [if_pos hend, ← ht', List.length_append]
    simp [hpoint t]
  · rw [if_neg hend]
    constructor
    · exact Or.inl
    · rintro (h | h)
      · exact h
      · exact absurd (Str.endsWith_iff.mpr ⟨_, h.symm⟩) hend

/-! ## The three graders on an absent answer -/

/-- Under the answer tags: wrong unless the ground truth normalises to nothing. -/
theorem computeScore_acc_of_blank {response : Str} (h : AnswerBlank response) (gt : Str) :
    (computeScore response gt).acc = 0 ↔ normalizeFinalAnswer gt ≠ [] := by
  rw [computeScore_acc, (lastTag_getD_eq_nil_iff response).mpr h]
  have hverify : (verifyExtractedAnswer [] gt).1 = true ↔ normalizeFinalAnswer gt = [] := by
    simp only [verifyExtractedAnswer, ↓reduceIte, decide_eq_true_eq]
    exact eq_comm
  by_cases hgt : normalizeFinalAnswer gt = []
  · rw [if_pos (hverify.mpr hgt)]
    simp [hgt]
  · rw [if_neg (fun hv => hgt (hverify.mp hv))]
    simp [hgt]

theorem strictBox_of_no_box {response : Str} (h : ∀ c, ¬ Eval.LastBoxHolds response c)
    (sympy : Eval.Sympy) (evalFloat : Str → Option ℚ) (gt : Str) :
    isCorrectStrictBox response gt = .ok (-1, none) ∧
      Eval.isCorrectStrictBox sympy evalFloat response gt = .ok (-1, none) := by
  have hextracted := Eval.extractedPred_of_not h
  constructor
  · rw [isCorrectStrictBox, hextracted]
    rfl
  · rw [Eval.isCorrectStrictBox, hextracted]
    rfl

theorem strictBox_of_blank {response c : Str} (hbox : Eval.LastBoxHolds response c)
    (hc : Blank c) (gt : Str) :
    isCorrectStrictBox response gt =
      .ok (if normalizeAnswer gt = ['0'] then 1 else -1, some c) := by
  rw [isCorrectStrictBox, Eval.extractedPred_of_holds hbox, ok_bind, Option.map_some,
    hc.normalizeAnswer]
  simp only [Option.some.injEq, eq_comm]
  rfl

/-- The normalised ground truth evaluates to about zero. -/
def EvaluatesToZero (evalFloat : Str → Option ℚ) (norm : Str) : Prop :=
  ∃ gtVal, Eval.evalNorm evalFloat norm = some gtVal ∧ Eval.withinTolerance 0 gtVal = true

theorem evalNorm_zero {evalFloat : Str → Option ℚ} (hzero : evalFloat ['0'] = some 0) :
    Eval.evalNorm evalFloat ['0'] = some 0 := by
  have hreplace : replace ['^'] "**".toList ['0'] = ['0'] := by decide
  rw [Eval.evalNorm, if_neg (List.cons_ne_nil _ _), hreplace, hzero]

theorem numericallyEqual_zero {evalFloat : Str → Option ℚ} (hzero : evalFloat ['0'] = some 0)
    (norm : Str) :
    Eval.numericallyEqual evalFloat ['0'] norm = true ↔ EvaluatesToZero evalFloat norm := by
  rw [Eval.numericallyEqual, evalNorm_zero hzero, EvaluatesToZero]
  cases Eval.evalNorm evalFloat norm with
  | none => simp [Eval.valuesClose]
  | some gtVal => simp [Eval.valuesClose]

/-- Evaluation, on a blank box: wrong unless the ground truth reads as zero or
evaluates to about zero. -/
theorem evalStrictBox_of_blank {sympy : Eval.Sympy} {evalFloat : Str → Option ℚ}
    (hzero : evalFloat ['0'] = some 0) {response c gt : Str}
    (hsympy : Eval.isSymbolicallyEqual sympy c gt = .ok false)
    (hbox : Eval.LastBoxHolds response c) (hc : Blank c) :
    ∃ verdict, Eval.isCorrectStrictBox sympy evalFloat response gt = .ok (verdict, some c) ∧
      (verdict = -1 ↔ Eval.normalizeStrictCandidate gt ≠ ['0'] ∧
        ¬ EvaluatesToZero evalFloat (Eval.normalizeStrictCandidate gt)) := by
  rw [Eval.isCorrectStrictBox, Eval.extractedPred_of_holds hbox, ok_bind]
  dsimp only
  rw [hc.normalizeStrictCandidate]
  by_cases htext : ['0'] = Eval.normalizeStrictCandidate gt
  · rw [if_pos htext]
    exact ⟨1, rfl, by simp [htext.symm]⟩
  rw [if_neg htext]
  by_cases hvalue : Eval.numericallyEqual evalFloat ['0'] (Eval.normalizeStrictCandidate gt) = true
  · rw [if_pos hvalue]
    have hev := (numericallyEqual_zero hzero _).mp hvalue
    exact ⟨1, rfl, by simp [hev]⟩
  · rw [if_neg hvalue, hsympy]
    have hev : ¬ EvaluatesToZero evalFloat (Eval.normalizeStrictCandidate gt) :=
      fun hev => hvalue ((numericallyEqual_zero hzero _).mpr hev)
    exact ⟨-1, rfl, by simp [hev, Ne.symm htext]⟩

/-! ## The claim about all three -/

/-- Whatever answer is absent or blank, its grader says wrong. -/
def GradedWrong (sympy : Eval.Sympy) (evalFloat : Str → Option ℚ) (response gt : Str) : Prop :=
  (AnswerBlank response → (computeScore response gt).acc = 0) ∧
  (BoxBlank response → (∃ e, isCorrectStrictBox response gt = .ok (-1, e)) ∧
    ∃ e, Eval.isCorrectStrictBox sympy evalFloat response gt = .ok (-1, e))

/-- The ground truth is not normalised away: not to nothing where the answer tags
are blank, and to no spelling of zero, or value of about zero, where there is a
blank box. -/
def GroundTruthKept (evalFloat : Str → Option ℚ) (response gt : Str) : Prop :=
  (AnswerBlank response → normalizeFinalAnswer gt ≠ []) ∧
  (BoxBlank response → (∃ c, Eval.LastBoxHolds response c) →
    ¬ SpellsZero gt ∧ ¬ SpellsZero (Eval.normalizeFinalAnswer gt) ∧
      ¬ EvaluatesToZero evalFloat (Eval.normalizeStrictCandidate gt))

/-- A computer algebra that reads every text but the blank ones, as a name. -/
def namesOnly : Eval.Sympy where
  Expr := Str
  parseLatex := fun _ => none
  sympify := fun s => if s = [] then .error (.valueError "could not parse") else .ok s
  differenceIsZero := fun a b => some (decide (a = b))

def evalDigits (s : Str) : Option ℚ := if Str.isDigit s then some (Str.digitsValue s) else none

theorem namesOnly_blank (s t : Str) (hs : Blank s) :
    Eval.isSymbolicallyEqual namesOnly s t = .ok false := by
  have hstrip : Eval.stripDollars s = [] := by
    rw [Eval.stripDollars, hs.strip]
    rfl
  have hparse : ∃ b, Eval.parse namesOnly t = .ok b := by
    by_cases ht : Eval.stripDollars t = []
    · exact ⟨none, by simp [Eval.parse, namesOnly, ht]⟩
    · exact ⟨some (Eval.stripDollars t), by simp [Eval.parse, namesOnly, ht]⟩
  have hblank : Eval.parse namesOnly s = .ok none := by
    simp [Eval.parse, namesOnly, hstrip]
  obtain ⟨b, hb⟩ := hparse
  rw [Eval.isSymbolicallyEqual, hblank, hb]
  rfl

def emptyBox : Str := "\\boxed\x7b\x7d".toList

theorem boxBlank_emptyBox : BoxBlank emptyBox := by
  intro c hc
  have hbox : Eval.lastBoxedOnlyString emptyBox = some (Eval.boxedOpen ++ [] ++ ['\x7d']) := by
    decide
  have hcut := Eval.holds_iff.mp hc
  rw [hbox, Option.some.injEq, List.append_left_inj, List.append_right_inj] at hcut
  rw [← hcut]
  exact fun d hd => by cases hd

end RLCM.RewardScore
