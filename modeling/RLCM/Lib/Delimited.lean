/-
# `RLCM.Lib.Delimited` — texts between an opening and a closing mark

A mark is a text whose first symbol does not come again in it, like a tag or an
opening command.  Two occurrences of marks with one first symbol never overlap, so an
occurrence in a concatenation is one in a part of it (`infix_append_cons`,
`infix_of_not_mem`).

A lazy pattern pairs every opening mark it meets with the next closing one.  The last
pair it finds is the last one of the text if every opening mark before it is closed,
and begins too early otherwise (`getLast?_findAll_pair`).
-/
import RLCM.Lib.Pattern

namespace Delimited

open Pattern

variable {α : Type*}

/-! ## Occurrences -/

/-- A mark does not begin where its first symbol is not. -/
theorem infix_of_not_mem {d : α} {t x y : List α} (hx : d ∉ x) (h : d :: t <:+: x ++ y) :
    d :: t <:+: y := by
  induction x with
  | nil => exact h
  | cons a x ih =>
      rw [List.mem_cons, not_or] at hx
      rcases List.infix_cons_iff.mp h with hstart | hlater
      · exact absurd (List.cons_prefix_cons.mp hstart).1 hx.1
      · exact ih hx.2 hlater

/-- A mark does not reach over a symbol that it has not behind its first one. -/
theorem infix_append_cons {d e : α} {t x y : List α} (he : e ∉ t) (h : d :: t <:+: x ++ e :: y) :
    d :: t <:+: x ∨ d :: t <:+: e :: y := by
  rcases List.infix_append_iff_ne_nil.mp h with hx | hy | ⟨l, r, hl, hr, heq, -, hstart⟩
  · exact Or.inl hx
  · exact Or.inr hy
  · -- the second half of the mark would begin with `e`
    obtain ⟨a, l, rfl⟩ := List.exists_cons_of_ne_nil hl
    obtain ⟨b, r, rfl⟩ := List.exists_cons_of_ne_nil hr
    obtain ⟨rfl, -⟩ := List.cons_prefix_cons.mp hstart
    obtain ⟨-, rfl⟩ := List.cons.inj heq
    exact absurd (List.mem_append_right l List.mem_cons_self) he

/-- The same at a place inside the first part. -/
theorem prefix_of_append_cons {d e : α} {t x y : List α} (he : e ∉ t) (hx : x ≠ [])
    (h : d :: t <+: x ++ e :: y) : d :: t <+: x := by
  rcases List.prefix_or_prefix_of_prefix h (List.prefix_append x (e :: y)) with hle | ⟨r, hr⟩
  · exact hle
  · cases r with
    | nil =>
        rw [← hr, List.append_nil]
    | cons b r =>
        rw [← hr, List.prefix_append_right_inj] at h
        obtain ⟨rfl, -⟩ := List.cons_prefix_cons.mp h
        obtain ⟨a, x, rfl⟩ := List.exists_cons_of_ne_nil hx
        obtain ⟨-, rfl⟩ := List.cons.inj hr
        exact absurd (List.mem_append_right x List.mem_cons_self) he

/-- A text that contains `t` has a first occurrence of it: nothing before begins one. -/
theorem exists_first {t s : List α} (h : t <:+: s) :
    ∃ x y, s = x ++ t ++ y ∧ ∀ x', x' <:+ x → x' ≠ [] → ¬ t <+: x' ++ t ++ y := by
  induction s with
  | nil =>
      obtain rfl := List.infix_nil.mp h
      exact ⟨[], [], rfl, fun x' hx' hne => absurd (List.suffix_nil.mp hx') hne⟩
  | cons a s ih =>
      by_cases hstart : t <+: a :: s
      · obtain ⟨y, hy⟩ := hstart
        exact ⟨[], y, hy.symm, fun x' hx' hne => absurd (List.suffix_nil.mp hx') hne⟩
      · obtain ⟨x, y, rfl, hfirst⟩ := ih ((List.infix_cons_iff.mp h).resolve_left hstart)
        refine ⟨a :: x, y, rfl, fun x' hx' hne => ?_⟩
        rcases List.suffix_cons_iff.mp hx' with rfl | hx'
        · exact hstart
        · exact hfirst x' hx' hne

/-- A mark stays when symbols are dropped that it does not begin with. -/
theorem infix_dropWhile {p : α → Bool} {d : α} {t s : List α} (hd : p d = false)
    (h : d :: t <:+: s) : d :: t <:+: s.dropWhile p := by
  induction s with
  | nil => exact h
  | cons a s ih =>
      rw [List.dropWhile_cons]
      split
      case isTrue ha =>
        rcases List.infix_cons_iff.mp h with hstart | hlater
        · obtain ⟨rfl, -⟩ := List.cons_prefix_cons.mp hstart
          rw [hd] at ha
          cases ha
        · exact ih hlater
      case isFalse => exact h

/-! ## Scanning a concatenation -/

section Scan

variable [DecidableEq α]

/-- Every match takes at least one symbol. -/
def Consuming (items : List (Item α)) : Prop :=
  ∀ s found, matchAt items s = some found → found.2.length < s.length

theorem consuming_lit_cons (a : α) (t : List α) (items : List (Item α)) :
    Consuming (.lit (a :: t) :: items) := by
  rintro s ⟨groups, rest⟩ hmatch
  obtain ⟨hflatten, hforall⟩ := of_matchAt hmatch
  obtain ⟨_, groups', rfl, -, rfl⟩ := List.forall₂_cons_left_iff.mp hforall
  rw [← hflatten]
  simp only [List.flatten_cons, List.length_append, List.length_cons]
  omega

/-- More steps than symbols change nothing. -/
theorem scanFrom_eq_scan {items : List (Item α)} (hitems : Consuming items) {s : List α} :
    ∀ {fuel : ℕ}, s.length ≤ fuel → scanFrom items fuel s = scan items s := by
  induction hn : s.length using Nat.strong_induction_on generalizing s with
  | _ n ih =>
      subst hn
      intro fuel hfuel
      cases s with
      | nil =>
          cases fuel with
          | zero => rfl
          | succ fuel => rfl
      | cons c s =>
          obtain ⟨fuel, rfl⟩ := Nat.exists_eq_add_one_of_ne_zero
            (Nat.ne_of_gt (Nat.lt_of_lt_of_le (Nat.succ_pos s.length) hfuel))
          rw [scan, List.length_cons, scanFrom, scanFrom]
          cases hmatch : matchAt items (c :: s) with
          | none =>
              exact congrArg _
                (ih s.length (Nat.lt_succ_self _) rfl (Nat.le_of_succ_le_succ hfuel))
          | some found =>
              obtain ⟨groups, rest⟩ := found
              have hlt : rest.length < s.length + 1 := hitems _ _ hmatch
              have hleft := ih rest.length hlt rfl
                (Nat.le_of_succ_le_succ (Nat.le_trans hlt hfuel))
              have hright := ih rest.length hlt rfl (Nat.le_of_lt_succ hlt)
              exact congrArg _ (hleft.trans hright.symm)

theorem findAll_of_matchAt {items : List (Item α)} (hitems : Consuming items) {s rest : List α}
    {groups : List (List α)} (h : matchAt items s = some (groups, rest)) :
    findAll items s = groups :: findAll items rest := by
  have hlt : rest.length < s.length := hitems _ _ h
  cases s with
  | nil => cases hlt
  | cons c s =>
      have hrest := scanFrom_eq_scan hitems (s := rest) (Nat.le_of_lt_succ hlt)
      rw [findAll, scan, List.length_cons, scanFrom, h]
      dsimp only
      rw [hrest]
      rfl

theorem findAll_append {items : List (Item α)} {x y : List α}
    (h : ∀ x', x' <:+ x → x' ≠ [] → matchAt items (x' ++ y) = none) :
    findAll items (x ++ y) = findAll items y := by
  induction x with
  | nil => rfl
  | cons c x ih =>
      have hhead : matchAt items (c :: (x ++ y)) = none :=
        h (c :: x) List.suffix_rfl (List.cons_ne_nil c x)
      have htail := ih (fun x' hx' hne => h x' (hx'.trans (List.suffix_cons c x)) hne)
      rw [List.cons_append, findAll, scan, List.length_cons, scanFrom, hhead]
      exact htail

omit [DecidableEq α] in
/-- The first split that is of use is found. -/
theorem findSome?_prefixes {β : Type*} {p : α → Bool} (hp : ∀ a, p a = true) {x y : List α}
    {f : List α × List α → Option β} {b : β} (hfound : f (x, y) = some b)
    (hnone : ∀ u v, u ++ v = x → v ≠ [] → f (u, v ++ y) = none) :
    (prefixes p (x ++ y)).findSome? f = some b := by
  induction x generalizing f with
  | nil =>
      cases y with
      | nil => rw [List.nil_append, prefixes, List.findSome?_cons, hfound]
      | cons c y => rw [List.nil_append, prefixes, List.findSome?_cons, hfound]
  | cons c x ih =>
      have hhead : f ([], c :: (x ++ y)) = none := hnone [] (c :: x) rfl (List.cons_ne_nil c x)
      rw [List.cons_append, prefixes, if_pos (hp c), List.findSome?_cons, hhead,
        List.findSome?_map]
      refine ih hfound (fun u v huv hv => ?_)
      exact hnone (c :: u) v (congrArg (List.cons c) huv) hv

theorem matchAt_lit (t s : List α) :
    matchAt [.lit t] s = if t <+: s then some ([t], s.drop t.length) else none := by
  rw [matchAt, Item.splits]
  split
  case isTrue => rfl
  case isFalse => rfl

theorem matchAt_lazy_lit {p : α → Bool} (hp : ∀ a, p a = true) {t x y : List α}
    (h : ∀ x', x' <:+ x → x' ≠ [] → ¬ t <+: x' ++ t ++ y) :
    matchAt [.lazy p, .lit t] (x ++ t ++ y) = some ([x, t], y) := by
  rw [matchAt, Item.splits, List.append_assoc]
  refine findSome?_prefixes hp ?_ (fun u v huv hv => ?_)
  · rw [matchAt_lit, if_pos (List.prefix_append t y), List.drop_left]
    rfl
  · rw [matchAt_lit, if_neg, Option.map_none]
    rw [← List.append_assoc]
    exact h v ⟨u, huv⟩ hv

end Scan

/-! ## Pairs of marks -/

section Pair

variable [DecidableEq α] {d : α} {o c : List α} {p : α → Bool}

/-- An opening mark, anything, a closing mark. -/
def pair (opening closing : List α) (p : α → Bool) : List (Item α) :=
  [.lit opening, .lazy p, .lit closing]

/-- An opening mark of `s` with no closing mark behind it. -/
def LeftOpen (opening closing s : List α) : Prop :=
  ∃ x y, s = x ++ opening ++ y ∧ ¬ closing <:+: y

theorem matchAt_pair_eq_none {opening closing s : List α} (h : ¬ opening <+: s) :
    matchAt (pair opening closing p) s = none := by
  rw [pair, matchAt, Item.splits, if_neg h]
  rfl

theorem matchAt_pair (hp : ∀ a, p a = true) {opening closing x y : List α}
    (h : ∀ x', x' <:+ x → x' ≠ [] → ¬ closing <+: x' ++ closing ++ y) :
    matchAt (pair opening closing p) (opening ++ x ++ closing ++ y) =
      some ([opening, x, closing], y) := by
  have hstart : opening <+: opening ++ (x ++ closing ++ y) := List.prefix_append _ _
  rw [pair, List.append_assoc, List.append_assoc, ← List.append_assoc x, matchAt, Item.splits,
    if_pos hstart, List.drop_left, List.findSome?_cons, matchAt_lazy_lit hp h]
  rfl

theorem findAll_pair_of_not_infix {opening closing s : List α} (h : ¬ opening <:+: s) :
    findAll (pair opening closing p) s = [] := by
  refine findAll_of_none (fun t ht _ => matchAt_pair_eq_none (fun hstart => h ?_))
  exact hstart.isInfix.trans ht.isInfix

omit [DecidableEq α] in
/-- A closing mark is not in the first half of a text that goes on with an opening one, nor
behind that, so it is not in the text. -/
theorem not_infix_append_opening (ho : d ∉ o) (hc : d ∉ c) (hoc : ¬ o <+: c) (hco : ¬ c <+: o)
    {y m : List α} (hy : ¬ d :: c <:+: y) (hm : ¬ d :: c <:+: m) :
    ¬ d :: c <:+: y ++ (d :: o) ++ m := by
  intro h
  rw [List.append_assoc, List.cons_append] at h
  rcases infix_append_cons hc h with hleft | hright
  · exact hy hleft
  · rcases List.infix_cons_iff.mp hright with hstart | hlater
    · have hstart := (List.cons_prefix_cons.mp hstart).2
      rcases List.prefix_or_prefix_of_prefix hstart (List.prefix_append o m) with hle | hle
      · exact hco hle
      · exact hoc hle
    · exact hm (infix_of_not_mem ho hlater)

/-- The first pair found begins at the first opening mark and ends at the closing mark
that comes next. -/
theorem findAll_pair (hp : ∀ a, p a = true) (ho : d ∉ o) (hc : d ∉ c) {u x : List α}
    (hu : ∀ x', x' <:+ u → x' ≠ [] → ¬ d :: o <+: x')
    (hx : ∀ x', x' <:+ x → x' ≠ [] → ¬ d :: c <+: x') (y : List α) :
    findAll (pair (d :: o) (d :: c) p) (u ++ (d :: o) ++ x ++ (d :: c) ++ y) =
      [d :: o, x, d :: c] :: findAll (pair (d :: o) (d :: c) p) y := by
  have hassoc : u ++ (d :: o) ++ x ++ (d :: c) ++ y =
      u ++ ((d :: o) ++ x ++ (d :: c) ++ y) := by simp only [List.append_assoc]
  have hskip : findAll (pair (d :: o) (d :: c) p) (u ++ ((d :: o) ++ x ++ (d :: c) ++ y)) =
      findAll (pair (d :: o) (d :: c) p) ((d :: o) ++ x ++ (d :: c) ++ y) := by
    refine findAll_append (fun x' hx' hne => matchAt_pair_eq_none (fun hstart => ?_))
    exact hu x' hx' hne (prefix_of_append_cons ho hne hstart)
  rw [hassoc, hskip]
  refine findAll_of_matchAt (consuming_lit_cons d o _)
    (matchAt_pair hp (fun x' hx' hne hstart => ?_))
  rw [List.append_assoc] at hstart
  exact hx x' hx' hne (prefix_of_append_cons hc hne hstart)

omit [DecidableEq α] in
theorem not_isPrefix_of_not_isInfix {t x : List α} (h : ¬ t <:+: x) :
    ∀ x', x' <:+ x → x' ≠ [] → ¬ t <+: x' :=
  fun _ hx' _ hstart => h (hstart.isInfix.trans hx'.isInfix)

/-- Behind any text, the last pair found is the pair that was put there last, or one that
begins before it with a mark that was left open. -/
theorem getLast?_findAll_pair (hp : ∀ a, p a = true) (ho : d ∉ o) (hc : d ∉ c)
    (hoc : ¬ o <+: c) (hco : ¬ c <+: o) {m s : List α} (hm : ¬ d :: c <:+: m)
    (hs : ¬ d :: o <:+: s) (x : List α) :
    ∃ q, (findAll (pair (d :: o) (d :: c) p) (x ++ (d :: o) ++ m ++ (d :: c) ++ s)).getLast? =
        some [d :: o, q, d :: c] ∧
      (q = m ∨ LeftOpen (d :: o) (d :: c) x ∧ d :: o <:+: q) := by
  induction hn : x.length using Nat.strong_induction_on generalizing x with
  | _ n ih =>
      subst hn
      by_cases hx : d :: o <:+: x
      · obtain ⟨u, y, rfl, hfirst⟩ := exists_first hx
        have hu : ∀ x', x' <:+ u → x' ≠ [] → ¬ d :: o <+: x' := fun x' hx' hne hstart =>
          hfirst x' hx' hne (List.append_assoc x' _ _ ▸ hstart.trans (List.prefix_append _ _))
        by_cases hy : d :: c <:+: y
        · -- the first pair is closed before the end of `x`
          obtain ⟨z, w, rfl, hz⟩ := exists_first hy
          have hz' : ∀ x', x' <:+ z → x' ≠ [] → ¬ d :: c <+: x' := fun x' hx' hne hstart =>
            hz x' hx' hne (List.append_assoc x' _ _ ▸ hstart.trans (List.prefix_append _ _))
          obtain ⟨q, hlast, hq⟩ := ih w.length (by simp; omega) w rfl
          have hsplit : u ++ (d :: o) ++ (z ++ (d :: c) ++ w) ++ (d :: o) ++ m ++ (d :: c) ++ s =
              u ++ (d :: o) ++ z ++ (d :: c) ++ (w ++ (d :: o) ++ m ++ (d :: c) ++ s) := by
            simp only [List.append_assoc]
          refine ⟨q, ?_, hq.imp_right (fun h => ⟨?_, h.2⟩)⟩
          · rw [hsplit, findAll_pair hp ho hc hu hz', List.getLast?_cons, hlast]
            rfl
          · obtain ⟨x', y', rfl, hclosing⟩ := h.1
            exact ⟨u ++ (d :: o) ++ (z ++ (d :: c) ++ x'), y', by simp only [List.append_assoc],
              hclosing⟩
        · -- it is left open, and reaches up to the closing mark behind `m`
          have hclosing := not_infix_append_opening ho hc hoc hco hy hm
          have hsplit : u ++ (d :: o) ++ y ++ (d :: o) ++ m ++ (d :: c) ++ s =
              u ++ (d :: o) ++ (y ++ (d :: o) ++ m) ++ (d :: c) ++ s := by
            simp only [List.append_assoc]
          refine ⟨y ++ (d :: o) ++ m, ?_, Or.inr ⟨⟨u, y, rfl, hy⟩, y, m, rfl⟩⟩
          rw [hsplit, findAll_pair hp ho hc hu (not_isPrefix_of_not_isInfix hclosing),
            findAll_pair_of_not_infix hs]
          rfl
      · refine ⟨m, ?_, Or.inl rfl⟩
        rw [findAll_pair hp ho hc (not_isPrefix_of_not_isInfix hx) (not_isPrefix_of_not_isInfix hm),
          findAll_pair_of_not_infix hs]
        rfl

end Pair

end Delimited
