/-
# `RLCM.RewardScore.BoxedExact` — the two copies of the box scan, and what they cut out

Training and evaluation have a copy each of `last_boxed_only_string` and
`remove_boxed`.  The evaluation's scan is `Eval.lastBoxedOnlyString`, by recursion on
the text; the one of training is here, as the `while` loop over an index that it is
in the source.

What a scan has to find is said by counting braces: `EndsAtFirstBalance t b`, the
shortest start of `t` behind an opening box in which as many braces close as open.
-/
import RLCM.Eval.LastBox
import RLCM.Lib.Delimited

namespace RLCM.RewardScore

open Py Delimited

/-! ## The copy of training -/

/-- The variables of the loop of `last_boxed_only_string`. -/
structure BoxScan where
  i : ℕ
  rightBraceIdx : Option ℕ
  numLeftBracesOpen : ℤ

/-- The body of the loop at the symbol `c`; a set `rightBraceIdx` is the `break`. -/
def boxScanStep (c : Char) (st : BoxScan) : BoxScan :=
  let opened := if c = '\x7b' then st.numLeftBracesOpen + 1 else st.numLeftBracesOpen
  if c = '\x7d' then
    if opened - 1 = 0 then ⟨st.i, some st.i, opened - 1⟩
    else ⟨st.i + 1, none, opened - 1⟩
  else ⟨st.i + 1, none, opened⟩

/-- `while i < len(string)`, with `fuel` passes to go. -/
def boxScanLoop (string : Str) : ℕ → BoxScan → BoxScan
  | 0, st => st
  | fuel + 1, st =>
      match string[st.i]? with
      | none => st
      | some c =>
          let st' := boxScanStep c st
          if st'.rightBraceIdx.isSome then st' else boxScanLoop string fuel st'

/-- `last_boxed_only_string` of training. -/
def lastBoxedOnlyString (string : Str) : Option Str :=
  match Str.rfind Eval.boxedOpen string with
  | none => none
  | some idx =>
      (boxScanLoop string string.length ⟨idx, none, 0⟩).rightBraceIdx.map
        (fun right => (string.take (right + 1)).drop idx)

/-- The loop finds what the recursion finds. -/
theorem boxScanLoop_eq (string : Str) {fuel i : ℕ} (opened : ℤ)
    (hfuel : string.length ≤ i + fuel) :
    (boxScanLoop string fuel ⟨i, none, opened⟩).rightBraceIdx =
      Eval.closingBrace (string.drop i) opened i := by
  induction fuel generalizing i opened with
  | zero =>
      have hdrop : string.drop i = [] := List.drop_eq_nil_of_le hfuel
      rw [hdrop]
      rfl
  | succ fuel ih =>
      rw [boxScanLoop]
      cases hc : string[i]? with
      | none =>
          have hdrop : string.drop i = [] :=
            List.drop_eq_nil_of_le (List.getElem?_eq_none_iff.mp hc)
          rw [hdrop]
          rfl
      | some c =>
          obtain ⟨hi, hget⟩ := List.getElem?_eq_some_iff.mp hc
          have hdrop : string.drop i = c :: string.drop (i + 1) := by
            rw [← hget]
            exact List.drop_eq_getElem_cons hi
          have hnext : ∀ opened', (boxScanLoop string fuel ⟨i + 1, none, opened'⟩).rightBraceIdx =
              Eval.closingBrace (string.drop (i + 1)) opened' (i + 1) :=
            fun opened' => ih opened' (by omega)
          rw [hdrop, Eval.closingBrace]
          simp only [boxScanStep]
          generalize (if c = '\x7b' then opened + 1 else opened) = opened'
          by_cases hclose : c = '\x7d'
          · rw [if_pos hclose, if_pos hclose]
            by_cases hzero : opened' - 1 = 0
            · rw [if_pos hzero, if_pos hzero]
              rfl
            · rw [if_neg hzero, if_neg hzero]
              exact hnext _
          · rw [if_neg hclose, if_neg hclose]
            exact hnext _

theorem lastBoxedOnlyString_eq (string : Str) :
    lastBoxedOnlyString string = Eval.lastBoxedOnlyString string := by
  rw [lastBoxedOnlyString, Eval.lastBoxedOnlyString]
  cases Str.rfind Eval.boxedOpen string with
  | none => rfl
  | some idx =>
      dsimp only
      rw [boxScanLoop_eq string 0 (Nat.le_add_left _ _)]
      refine congrArg (Option.map · _) (funext (fun right => ?_))
      rw [List.drop_take]

/-- `remove_boxed` of the evaluation. -/
def removeBoxedEval (s : Str) : Except Error Str :=
  let left := Eval.boxedOpen
  if s.take left.length ≠ left then .error .assertionError
  else if s.getLast? ≠ some '\x7d' then .error .assertionError
  else .ok ((s.take (s.length - 1)).drop left.length)

theorem removeBoxedEval_eq (s : Str) : removeBoxedEval s = removeBoxed s := by
  rw [removeBoxedEval, removeBoxed, List.dropLast_eq_take, List.length_drop, List.drop_take,
    Nat.sub_right_comm]

/-! ## Counting braces -/

/-- How many braces `s` opens beyond those it closes. -/
def braceDepth (s : Str) : ℤ := (s.count '\x7b' : ℤ) - s.count '\x7d'

@[simp] theorem braceDepth_nil : braceDepth [] = 0 := rfl

theorem braceDepth_append (s t : Str) : braceDepth (s ++ t) = braceDepth s + braceDepth t := by
  simp only [braceDepth, List.count_append]
  omega

theorem braceDepth_open (s : Str) : braceDepth ('\x7b' :: s) = braceDepth s + 1 := by
  have hne : '\x7b' ≠ '\x7d' := by decide
  rw [braceDepth, braceDepth, List.count_cons_self, List.count_cons_of_ne hne]
  omega

theorem braceDepth_close (s : Str) : braceDepth ('\x7d' :: s) = braceDepth s - 1 := by
  have hne : '\x7d' ≠ '\x7b' := by decide
  rw [braceDepth, braceDepth, List.count_cons_self, List.count_cons_of_ne hne]
  omega

theorem braceDepth_other {a : Char} (hopen : a ≠ '\x7b') (hclose : a ≠ '\x7d') (s : Str) :
    braceDepth (a :: s) = braceDepth s := by
  rw [braceDepth, braceDepth, List.count_cons_of_ne hopen, List.count_cons_of_ne hclose]

theorem braceDepth_boxedOpen : braceDepth Eval.boxedOpen = 1 := by decide

/-- The braces of `c` are balanced: none closes what `c` did not open, and all that
were opened are closed. -/
def BraceBalanced (c : Str) : Prop :=
  braceDepth c = 0 ∧ ∀ t, t <+: c → 0 ≤ braceDepth t

/-- The start `b` of `t` begins with an opening box, and is the first at whose end the
braces balance. -/
def EndsAtFirstBalance (t b : Str) : Prop :=
  Eval.boxedOpen <+: b ∧ b <+: t ∧ braceDepth b = 0 ∧
    ∀ b', Eval.boxedOpen <+: b' → b' <+: b → braceDepth b' = 0 → b' = b

/-- `t` is what follows `p` in `s`, and begins with the last opening box of `s`. -/
def LastOpening (s p t : Str) : Prop :=
  s = p ++ t ∧ Eval.boxedOpen <+: t ∧
    ∀ p' t', s = p' ++ t' → Eval.boxedOpen <+: t' → p'.length ≤ p.length

/-- A claim about all starts of `a :: c` is one about the empty start and the longer ones. -/
theorem forall_prefix_cons {a : Char} {c : Str} {P : Str → Prop} :
    (∀ t, t <+: a :: c → P t) ↔ P [] ∧ ∀ t, t <+: c → P (a :: t) := by
  constructor
  · intro h
    exact ⟨h [] List.nil_prefix, fun t ht => h (a :: t) (List.cons_prefix_cons.mpr ⟨rfl, ht⟩)⟩
  · rintro ⟨hnil, hcons⟩ t ht
    cases t with
    | nil => exact hnil
    | cons b t =>
        obtain ⟨rfl, htail⟩ := List.cons_prefix_cons.mp ht
        exact hcons t htail

theorem balanced_open (d : ℕ) (c : Str) :
    Eval.balanced d ('\x7b' :: c) = Eval.balanced (d + 1) c := by
  rfl

theorem balanced_close_zero (c : Str) : Eval.balanced 0 ('\x7d' :: c) = false := by
  rfl

theorem balanced_close_succ (d : ℕ) (c : Str) :
    Eval.balanced (d + 1) ('\x7d' :: c) = Eval.balanced d c := by
  rfl

theorem balanced_other {a : Char} (hopen : a ≠ '\x7b') (hclose : a ≠ '\x7d') (d : ℕ) (c : Str) :
    Eval.balanced d (a :: c) = Eval.balanced d c := by
  rw [Eval.balanced_cons, if_neg hopen, if_neg hclose]

/-- The recursion on the depth is the count of the braces. -/
theorem balanced_iff {d : ℕ} {c : Str} :
    Eval.balanced d c = true ↔
      d + braceDepth c = 0 ∧ ∀ t, t <+: c → 0 ≤ d + braceDepth t := by
  induction c generalizing d with
  | nil =>
      simp only [Eval.balanced, beq_iff_eq, braceDepth_nil, List.prefix_nil]
      constructor
      · rintro rfl
        exact ⟨rfl, fun t ht => ht ▸ Int.le_refl 0⟩
      · rintro ⟨h, -⟩
        omega
  | cons a c ih =>
      have hnil : 0 ≤ (d : ℤ) + braceDepth [] := by rw [braceDepth_nil]; omega
      rw [forall_prefix_cons, and_iff_right hnil]
      by_cases hopen : a = '\x7b'
      · subst hopen
        have hshift : ∀ x : ℤ, (d : ℤ) + (x + 1) = ((d + 1 : ℕ) : ℤ) + x := fun x => by omega
        simp only [braceDepth_open, balanced_open, hshift]
        exact ih
      by_cases hclose : a = '\x7d'
      · subst hclose
        cases d with
        | zero =>
            refine iff_of_false Bool.false_ne_true ?_
            rintro ⟨-, h⟩
            exact absurd (h [] List.nil_prefix) (by decide)
        | succ d =>
            have hshift : ∀ x : ℤ, ((d + 1 : ℕ) : ℤ) + (x - 1) = d + x := fun x => by omega
            simp only [braceDepth_close, balanced_close_succ, hshift]
            exact ih
      · simp only [balanced_other hopen hclose, braceDepth_other hopen hclose]
        exact ih

theorem braceBalanced_iff {c : Str} : BraceBalanced c ↔ Eval.balanced 0 c = true := by
  have hshift : ∀ x : ℤ, ((0 : ℕ) : ℤ) + x = x := fun x => by omega
  rw [balanced_iff]
  simp only [BraceBalanced, hshift]

/-- The closing brace of a balanced content is the first symbol, or comes later. -/
theorem exists_closing_cons_iff {d : ℕ} {a : Char} {x : Str} :
    (∃ c, a :: x = c ++ ['\x7d'] ∧ Eval.balanced d c = true) ↔
      (a = '\x7d' ∧ x = [] ∧ d = 0) ∨
        ∃ c, x = c ++ ['\x7d'] ∧ Eval.balanced d (a :: c) = true := by
  constructor
  · rintro ⟨c, hc, hbalanced⟩
    cases c with
    | nil =>
        obtain ⟨rfl, rfl⟩ := List.cons.inj hc
        exact Or.inl ⟨rfl, rfl, by simpa [Eval.balanced] using hbalanced⟩
    | cons b c =>
        obtain ⟨rfl, rfl⟩ := List.cons.inj hc
        exact Or.inr ⟨c, rfl, hbalanced⟩
  · rintro (⟨rfl, rfl, rfl⟩ | ⟨c, rfl, hbalanced⟩)
    · exact ⟨[], rfl, rfl⟩
    · exact ⟨a :: c, rfl, hbalanced⟩

/-- With `d + 1` braces open, the braces balance first at the end of `x` exactly when `x`
closes the `d` others and then the one. -/
theorem firstBalance_iff {d : ℕ} {x : Str} :
    (d + 1 + braceDepth x = 0 ∧ ∀ t, t <+: x → (d : ℤ) + 1 + braceDepth t = 0 → t = x) ↔
      ∃ c, x = c ++ ['\x7d'] ∧ Eval.balanced d c = true := by
  induction x generalizing d with
  | nil =>
      refine iff_of_false ?_ ?_
      · rintro ⟨h, -⟩
        rw [braceDepth_nil] at h
        omega
      · rintro ⟨c, hc, -⟩
        exact List.append_ne_nil_of_right_ne_nil c (List.cons_ne_nil _ _) hc.symm
  | cons a x ih =>
      have hnil : (d : ℤ) + 1 + braceDepth [] = 0 → [] = a :: x := by
        intro h
        rw [braceDepth_nil] at h
        omega
      rw [exists_closing_cons_iff, forall_prefix_cons, and_iff_right hnil]
      simp only [List.cons.injEq, true_and]
      by_cases hopen : a = '\x7b'
      · subst hopen
        have hshift : ∀ y : ℤ, (d : ℤ) + 1 + (y + 1) = ((d + 1 : ℕ) : ℤ) + 1 + y :=
          fun y => by omega
        have hne : ¬ ('\x7b' = '\x7d' ∧ x = [] ∧ d = 0) := fun h => absurd h.1 (by decide)
        simp only [braceDepth_open, balanced_open, hshift, or_iff_right hne]
        exact ih
      by_cases hclose : a = '\x7d'
      · subst hclose
        cases d with
        | zero =>
            simp only [braceDepth_close, balanced_close_zero]
            constructor
            · rintro ⟨-, hfirst⟩
              exact Or.inl ⟨trivial, (hfirst [] List.nil_prefix (by decide)).symm, trivial⟩
            · rintro (⟨-, rfl, -⟩ | ⟨c, -, h⟩)
              · exact ⟨by decide, fun t ht _ => List.prefix_nil.mp ht⟩
              · cases h
        | succ d =>
            have hshift : ∀ y : ℤ, ((d + 1 : ℕ) : ℤ) + 1 + (y - 1) = d + 1 + y :=
              fun y => by omega
            have hne : ¬ ('\x7d' = '\x7d' ∧ x = [] ∧ d + 1 = 0) :=
              fun h => absurd h.2.2 (Nat.succ_ne_zero d)
            rw [or_iff_right hne]
            simp only [braceDepth_close, balanced_close_succ, hshift]
            exact ih
      · have hne : ¬ (a = '\x7d' ∧ x = [] ∧ d = 0) := fun h => hclose h.1
        simp only [balanced_other hopen hclose, braceDepth_other hopen hclose, or_iff_right hne]
        exact ih

theorem endsAtFirstBalance_iff {t b : Str} :
    EndsAtFirstBalance t b ↔ b <+: t ∧ ∃ c, b = Eval.boxedOpen ++ c ++ ['\x7d'] ∧
      Eval.balanced 0 c = true := by
  have hfirst : ∀ x : Str,
      (braceDepth (Eval.boxedOpen ++ x) = 0 ∧ ∀ b', Eval.boxedOpen <+: b' →
        b' <+: Eval.boxedOpen ++ x → braceDepth b' = 0 → b' = Eval.boxedOpen ++ x) ↔
      ∃ c, x = c ++ ['\x7d'] ∧ Eval.balanced 0 c = true := by
    intro x
    have hdepth : ∀ y, braceDepth (Eval.boxedOpen ++ y) = ((0 : ℕ) : ℤ) + 1 + braceDepth y := by
      intro y
      rw [braceDepth_append, braceDepth_boxedOpen]
      omega
    rw [← firstBalance_iff, hdepth]
    refine and_congr_right (fun _ => ⟨fun h y hy hzero => ?_, fun h b' hopen hb' hzero => ?_⟩)
    · exact List.append_cancel_left (h (Eval.boxedOpen ++ y) (List.prefix_append _ _)
        ((List.prefix_append_right_inj _).mpr hy) ((hdepth y).trans hzero))
    · obtain ⟨y, rfl⟩ := hopen
      rw [h y ((List.prefix_append_right_inj _).mp hb') ((hdepth y).symm.trans hzero)]
  constructor
  · rintro ⟨⟨x, rfl⟩, hstart, hzero, hb⟩
    obtain ⟨c, rfl, hbalanced⟩ := (hfirst x).mp ⟨hzero, hb⟩
    exact ⟨hstart, c, (List.append_assoc _ _ _).symm, hbalanced⟩
  · rintro ⟨hstart, c, rfl, hbalanced⟩
    rw [List.append_assoc] at hstart ⊢
    obtain ⟨hzero, hb⟩ := (hfirst _).mpr ⟨c, rfl, hbalanced⟩
    exact ⟨List.prefix_append _ _, hstart, hzero, hb⟩

/-- The last box of a text with a last opening box: the braces behind it balance, and
its content is between the two. -/
theorem lastBoxHolds_iff {s c : Str} :
    Eval.LastBoxHolds s c ↔ ∃ p t, LastOpening s p t ∧
      EndsAtFirstBalance t (Eval.boxedOpen ++ c ++ ['\x7d']) := by
  simp only [Eval.LastBoxHolds, endsAtFirstBalance_iff, LastOpening]
  constructor
  · rintro ⟨p, rest, hs, hbalanced, hlast⟩
    refine ⟨p, Eval.boxedOpen ++ c ++ ['\x7d'] ++ rest, ⟨?_, ?_, ?_⟩, List.prefix_append _ _, c,
      rfl, hbalanced⟩
    · rw [hs]
      simp only [List.append_assoc, List.singleton_append]
    · rw [List.append_assoc, List.append_assoc]
      exact List.prefix_append _ _
    · rintro p' t' hsplit ⟨r, rfl⟩
      exact hlast p' r (by rw [hsplit, List.append_assoc])
  · rintro ⟨p, t, ⟨hs, -, hlast⟩, ⟨rest, rfl⟩, c', hc, hbalanced⟩
    rw [List.append_left_inj, List.append_right_inj] at hc
    subst hc
    refine ⟨p, rest, ?_, hbalanced, fun p' r hsplit => ?_⟩
    · rw [hs]
      simp only [List.append_assoc, List.singleton_append]
    · exact hlast p' (Eval.boxedOpen ++ r) (by rw [hsplit, List.append_assoc])
        (List.prefix_append _ _)

/-! ## What the scan returns -/

theorem lastBoxedOnlyString_eq_some_iff {s b : Str} :
    lastBoxedOnlyString s = some b ↔
      ∃ p t, LastOpening s p t ∧ EndsAtFirstBalance t b := by
  rw [lastBoxedOnlyString_eq]
  constructor
  · intro h
    obtain ⟨c, hc⟩ := Eval.holds_of_lastBoxedOnlyString h
    obtain rfl := Option.some.inj ((Eval.lastBoxedOnlyString_of_holds hc).symm.trans h)
    exact lastBoxHolds_iff.mp hc
  · rintro ⟨p, t, hlast, hends⟩
    obtain ⟨-, c, rfl, -⟩ := endsAtFirstBalance_iff.mp hends
    exact Eval.lastBoxedOnlyString_of_holds (lastBoxHolds_iff.mpr ⟨p, t, hlast, hends⟩)

theorem exists_lastOpening {s : Str} (h : Eval.boxedOpen <:+: s) : ∃ p t, LastOpening s p t := by
  obtain ⟨u, v, rfl⟩ := h
  obtain ⟨i, hi⟩ := Option.ne_none_iff_exists'.mp (Str.rfind_ne_none Eval.boxedOpen_ne_nil u v)
  obtain ⟨p, r, hs, rfl, hlast⟩ := Str.rfind_eq_some Eval.boxedOpen_ne_nil hi
  refine ⟨p, Eval.boxedOpen ++ r, by rw [hs, List.append_assoc], List.prefix_append _ _, ?_⟩
  rintro p' t' hsplit ⟨r', rfl⟩
  exact hlast p' r' (by rw [hsplit, List.append_assoc])

theorem LastOpening.unique {s p t p' t' : Str} (h : LastOpening s p t)
    (h' : LastOpening s p' t') : t = t' := by
  have hlength : p.length = p'.length :=
    Nat.le_antisymm (h'.2.2 p t h.1 h.2.1) (h.2.2 p' t' h'.1 h'.2.1)
  exact (List.append_inj (h.1.symm.trans h'.1) hlength).2

theorem exists_firstBalance {t b : Str} (hopen : Eval.boxedOpen <+: b) (hb : b <+: t)
    (hzero : braceDepth b = 0) : ∃ b', EndsAtFirstBalance t b' := by
  induction hn : b.length using Nat.strong_induction_on generalizing b with
  | _ n ih =>
      subst hn
      by_cases hfirst : ∀ b', Eval.boxedOpen <+: b' → b' <+: b → braceDepth b' = 0 → b' = b
      · exact ⟨b, hopen, hb, hzero, hfirst⟩
      · push Not at hfirst
        obtain ⟨b', hopen', hb', hzero', hne⟩ := hfirst
        have hlt : b'.length < b.length :=
          Nat.lt_of_le_of_ne hb'.length_le (fun hlength => hne (hb'.eq_of_length hlength))
        exact ih b'.length hlt hopen' (hb'.trans hb) hzero' rfl

theorem lastBoxedOnlyString_eq_none_iff {s : Str} :
    lastBoxedOnlyString s = none ↔
      ¬ Eval.boxedOpen <:+: s ∨
        ∃ p t, LastOpening s p t ∧
          ∀ b, Eval.boxedOpen <+: b → b <+: t → braceDepth b ≠ 0 := by
  constructor
  · intro hnone
    by_cases hoccurs : Eval.boxedOpen <:+: s
    · obtain ⟨p, t, hlast⟩ := exists_lastOpening hoccurs
      refine Or.inr ⟨p, t, hlast, fun b hopen hb hzero => ?_⟩
      obtain ⟨b', hends⟩ := exists_firstBalance hopen hb hzero
      rw [lastBoxedOnlyString_eq_some_iff.mpr ⟨p, t, hlast, hends⟩] at hnone
      cases hnone
    · exact Or.inl hoccurs
  · intro h
    cases hbox : lastBoxedOnlyString s with
    | none => rfl
    | some b =>
        obtain ⟨p, t, hlast, hopen, hb, hzero, -⟩ := lastBoxedOnlyString_eq_some_iff.mp hbox
        rcases h with hoccurs | ⟨p', t', hlast', hnever⟩
        · refine absurd ?_ hoccurs
          rw [hlast.1]
          exact hlast.2.1.isInfix.trans (List.suffix_append p t).isInfix
        · obtain rfl := hlast.unique hlast'
          exact absurd hzero (hnever b hopen hb)

theorem removeBoxed_lastBoxedOnlyString {s b : Str} (h : lastBoxedOnlyString s = some b) :
    ∃ c, removeBoxed b = .ok c ∧ b = Eval.boxedOpen ++ c ++ ['\x7d'] := by
  obtain ⟨p, t, -, hends⟩ := lastBoxedOnlyString_eq_some_iff.mp h
  obtain ⟨-, c, rfl, -⟩ := endsAtFirstBalance_iff.mp hends
  exact ⟨c, Eval.removeBoxed_box c, rfl⟩

theorem lastBoxHolds_append (p : Str) {c r : Str} (hbalanced : BraceBalanced c)
    (hc : ¬ Eval.boxedOpen <:+: c) (hr : ¬ Eval.boxedOpen <:+: r) :
    Eval.LastBoxHolds (p ++ Eval.boxedOpen ++ c ++ '\x7d' :: r) c := by
  obtain ⟨name, hname⟩ : ∃ name, Eval.boxedOpen = '\\' :: name := ⟨_, rfl⟩
  have hbackslash : '\\' ∉ name := by
    obtain rfl := (List.cons.inj hname).2
    decide
  have hclose : '\x7d' ∉ name := by
    obtain rfl := (List.cons.inj hname).2
    decide
  refine ⟨p, r, rfl, braceBalanced_iff.mp hbalanced, fun p' r' hsplit => ?_⟩
  by_contra hlt
  -- a later box would begin behind the first symbol of this one
  have hstart : p <+: p' := by
    have hp : p <+: p ++ Eval.boxedOpen ++ c ++ '\x7d' :: r := by
      rw [List.append_assoc, List.append_assoc]
      exact List.prefix_append _ _
    have hp' : p' <+: p ++ Eval.boxedOpen ++ c ++ '\x7d' :: r := by
      rw [hsplit, List.append_assoc]
      exact List.prefix_append _ _
    exact List.prefix_of_prefix_length_le hp hp' (by omega)
  obtain ⟨q, rfl⟩ := hstart
  rw [hname] at hsplit hc hr
  cases q with
  | nil =>
      rw [List.append_nil] at hlt
      exact hlt (Nat.le_refl _)
  | cons a q =>
      simp only [List.append_assoc, List.append_cancel_left_eq, List.cons_append,
        List.cons.injEq] at hsplit
      have hlater : '\\' :: name <:+: name ++ (c ++ '\x7d' :: r) :=
        ⟨q, r', by rw [hsplit.2, List.append_assoc, List.cons_append]⟩
      rcases infix_append_cons hclose (infix_of_not_mem hbackslash hlater) with hin | hin
      · exact hc hin
      · have hbrace : '\\' ∉ ['\x7d'] := by decide
        exact hr (infix_of_not_mem hbrace hin)

/-- Boxed extraction is exact: nothing is returned exactly if there is no opening box or
the braces behind the last one never balance; what is returned starts at the last opening
box and ends where its braces first balance, and `remove_boxed` accepts it; the content of
a last box comes out as it was; and the two copies return the same. -/
theorem boxedExtraction_exact :
    (∀ s, lastBoxedOnlyString s = none ↔
      ¬ Eval.boxedOpen <:+: s ∨
        ∃ p t, LastOpening s p t ∧
          ∀ b, Eval.boxedOpen <+: b → b <+: t → braceDepth b ≠ 0) ∧
    (∀ s b, lastBoxedOnlyString s = some b ↔
      ∃ p t, LastOpening s p t ∧ EndsAtFirstBalance t b) ∧
    (∀ s b, lastBoxedOnlyString s = some b → ∃ c, removeBoxed b = .ok c) ∧
    (∀ p c r, BraceBalanced c → ¬ Eval.boxedOpen <:+: c → ¬ Eval.boxedOpen <:+: r →
      (lastBoxedOnlyString (p ++ Eval.boxedOpen ++ c ++ '\x7d' :: r)).map removeBoxed =
        some (.ok c)) ∧
    (∀ s, Eval.lastBoxedOnlyString s = lastBoxedOnlyString s ∧
      removeBoxedEval s = removeBoxed s) := by
  refine ⟨?_, ?_, ?_, ?_, ?_⟩
  · intro s
    exact lastBoxedOnlyString_eq_none_iff
  · intro s b
    exact lastBoxedOnlyString_eq_some_iff
  · intro s b h
    obtain ⟨c, hc, -⟩ := removeBoxed_lastBoxedOnlyString h
    exact ⟨c, hc⟩
  · intro p c r hbalanced hc hr
    have hholds := lastBoxHolds_append p hbalanced hc hr
    rw [lastBoxedOnlyString_eq, Eval.lastBoxedOnlyString_of_holds hholds, Option.map_some,
      Eval.removeBoxed_box]
  · intro s
    exact ⟨(lastBoxedOnlyString_eq s).symm, removeBoxedEval_eq s⟩

/-- A nested group, and a closing brace before the box. -/
example : lastBoxedOnlyString "\x7d \\boxed\x7b\\frac\x7b1\x7d\x7b2\x7d\x7d.".toList =
    some "\\boxed\x7b\\frac\x7b1\x7d\x7b2\x7d\x7d".toList := by decide

end RLCM.RewardScore
