/-
# `RLCM.Lib.Pattern` — backtracking patterns, and the scan that applies them

A pattern is a row of items: a literal, one symbol of a class, an optional one,
a greedy or a lazy repetition of a class.  An item offers the ways to split what
is left of the input, in the order backtracking tries them (`Item.splits`); a
match takes the first split after which the rest of the pattern still matches
(`matchAt`).  The scan goes from left to right, takes a match where there is one
and resumes after it (`scan`); replacing and finding all are two readings of it.

A pattern with a literal that the input has no part of leaves the input alone
(`sub_eq_self`).

The scans are for patterns that consume something, as every pattern with a
literal does.
-/
import Mathlib.Data.List.Basic
import Mathlib.Data.List.Infix
import Mathlib.Data.List.Forall2

namespace Pattern

variable {α : Type*}

/-- One item of a pattern. -/
inductive Item (α : Type*) where
  | lit (t : List α)
  | one (p : α → Bool)
  | opt (p : α → Bool)
  | greedy (p : α → Bool)
  | lazy (p : α → Bool)

/-- The splits of the input after zero, one, two ... symbols of the class. -/
def prefixes (p : α → Bool) : List α → List (List α × List α)
  | [] => [([], [])]
  | c :: s => ([], c :: s) ::
      if p c then (prefixes p s).map (fun ab => (c :: ab.1, ab.2)) else []

theorem mem_prefixes {p : α → Bool} {s a b : List α} :
    (a, b) ∈ prefixes p s ↔ a ++ b = s ∧ ∀ c ∈ a, p c := by
  induction s generalizing a with
  | nil =>
      rw [prefixes, List.mem_singleton, Prod.mk.injEq, List.append_eq_nil_iff]
      constructor
      · rintro ⟨rfl, rfl⟩
        exact ⟨⟨rfl, rfl⟩, fun c hc => by cases hc⟩
      · intro h
        exact h.1
  | cons d s ih =>
      rw [prefixes, List.mem_cons, Prod.mk.injEq]
      cases a with
      | nil =>
          have hrest : ([], b) ∉ (if p d then (prefixes p s).map (fun ab => (d :: ab.1, ab.2))
              else []) := by
            split
            case isTrue => simp
            case isFalse => simp
          constructor
          · rintro (⟨-, rfl⟩ | h)
            · exact ⟨rfl, fun c hc => by cases hc⟩
            · exact absurd h hrest
          · intro h
            exact Or.inl ⟨rfl, h.1⟩
      | cons c a =>
          have hrest : (c :: a, b) ∈ (if p d then (prefixes p s).map (fun ab => (d :: ab.1, ab.2))
              else []) ↔ d = c ∧ p d ∧ (a, b) ∈ prefixes p s := by
            split
            case isTrue hp => simp [hp]; tauto
            case isFalse hp => simp [hp]
          rw [hrest, ih, List.cons_append, List.cons.injEq, List.forall_mem_cons]
          constructor
          · rintro (⟨h, -⟩ | ⟨rfl, hp, happend, hall⟩)
            · cases h
            · exact ⟨⟨rfl, happend⟩, hp, hall⟩
          · rintro ⟨⟨rfl, happend⟩, hp, hall⟩
            exact Or.inr ⟨rfl, hp, happend, hall⟩

/-- What an item may match. -/
def Item.Accepts : Item α → List α → Prop
  | .lit t, a => a = t
  | .one p, a => ∃ c, p c ∧ a = [c]
  | .opt p, a => a = [] ∨ ∃ c, p c ∧ a = [c]
  | .greedy p, a => ∀ c ∈ a, p c
  | .lazy p, a => ∀ c ∈ a, p c

theorem lit_mem_of_accepts {items : List (Item α)} {groups : List (List α)}
    (h : List.Forall₂ Item.Accepts items groups) {t : List α} (ht : Item.lit t ∈ items) :
    t ∈ groups := by
  induction h with
  | nil => cases ht
  | @cons it a items groups ha _ ih =>
      rcases List.mem_cons.mp ht with rfl | ht
      · exact List.mem_cons.mpr (Or.inl (Eq.symm ha))
      · exact List.mem_cons_of_mem _ (ih ht)

section Match

variable [DecidableEq α]

/-- The ways an item may split the input, in the order they are tried. -/
def Item.splits : Item α → List α → List (List α × List α)
  | .lit t, s => if t <+: s then [(t, s.drop t.length)] else []
  | .one _, [] => []
  | .one p, c :: s => if p c then [([c], s)] else []
  | .opt _, [] => [([], [])]
  | .opt p, c :: s => if p c then [([c], s), ([], c :: s)] else [([], c :: s)]
  | .greedy p, s => (prefixes p s).reverse
  | .lazy p, s => prefixes p s

/-- An item offers every split whose first half it accepts, and no other. -/
theorem Item.mem_splits {it : Item α} {s a b : List α} :
    (a, b) ∈ it.splits s ↔ a ++ b = s ∧ it.Accepts a := by
  cases it with
  | lit t =>
      rw [Item.splits]
      split
      case isTrue ht =>
        obtain ⟨r, rfl⟩ := ht
        simp only [List.drop_left, List.mem_singleton, Prod.mk.injEq, Item.Accepts]
        constructor
        · rintro ⟨rfl, rfl⟩
          exact ⟨rfl, rfl⟩
        · rintro ⟨h, rfl⟩
          exact ⟨rfl, List.append_cancel_left h⟩
      case isFalse ht =>
        constructor
        · intro h
          cases h
        · rintro ⟨rfl, rfl⟩
          exact absurd (List.prefix_append a b) ht
  | one p =>
      cases s with
      | nil =>
          simp only [Item.splits, List.not_mem_nil, false_iff, Item.Accepts]
          rintro ⟨h, c, -, rfl⟩
          cases h
      | cons d s =>
          by_cases hp : p d
          · simp only [Item.splits, if_pos hp, List.mem_singleton, Prod.mk.injEq, Item.Accepts]
            constructor
            · rintro ⟨rfl, rfl⟩
              exact ⟨rfl, d, hp, rfl⟩
            · rintro ⟨h, c, -, rfl⟩
              obtain ⟨rfl, rfl⟩ := List.cons.inj h
              exact ⟨rfl, rfl⟩
          · simp only [Item.splits, if_neg hp, List.not_mem_nil, false_iff, Item.Accepts]
            rintro ⟨h, c, hc, rfl⟩
            obtain ⟨rfl, rfl⟩ := List.cons.inj h
            exact hp hc
  | opt p =>
      cases s with
      | nil =>
          simp only [Item.splits, List.mem_singleton, Prod.mk.injEq, Item.Accepts,
            List.append_eq_nil_iff]
          grind
      | cons d s =>
          by_cases hp : p d
          · simp only [Item.splits, if_pos hp, List.mem_cons, Prod.mk.injEq, Item.Accepts]
            grind
          · simp only [Item.splits, if_neg hp, List.mem_singleton, Prod.mk.injEq, Item.Accepts]
            grind
  | greedy p => exact List.mem_reverse.trans mem_prefixes
  | lazy p => exact mem_prefixes

/-- The match at the start of the input: what each item took, and the rest. -/
def matchAt : List (Item α) → List α → Option (List (List α) × List α)
  | [], s => some ([], s)
  | it :: items, s => (it.splits s).findSome? (fun ab =>
      (matchAt items ab.2).map (fun found => (ab.1 :: found.1, found.2)))

theorem of_matchAt {items : List (Item α)} {s rest : List α} {groups : List (List α)}
    (h : matchAt items s = some (groups, rest)) :
    groups.flatten ++ rest = s ∧ List.Forall₂ Item.Accepts items groups := by
  induction items generalizing s groups with
  | nil =>
      obtain ⟨rfl, rfl⟩ := Prod.mk.inj (Option.some.inj h)
      exact ⟨rfl, List.Forall₂.nil⟩
  | cons it items ih =>
      obtain ⟨⟨a, b⟩, hab, hfound⟩ := List.exists_of_findSome?_eq_some h
      obtain ⟨⟨groups', rest'⟩, hmatch, heq⟩ := Option.map_eq_some_iff.mp hfound
      obtain ⟨rfl, rfl⟩ := Prod.mk.inj heq
      obtain ⟨happend, haccepts⟩ := Item.mem_splits.mp hab
      obtain ⟨hflatten, hforall⟩ := ih hmatch
      refine ⟨?_, List.Forall₂.cons haccepts hforall⟩
      rw [List.flatten_cons, List.append_assoc, hflatten, happend]

theorem matchAt_ne_none {items : List (Item α)} {groups : List (List α)}
    (h : List.Forall₂ Item.Accepts items groups) (rest : List α) :
    matchAt items (groups.flatten ++ rest) ≠ none := by
  induction h with
  | nil => exact Option.some_ne_none _
  | @cons it a items groups ha _ ih =>
      intro hnone
      rw [matchAt, List.findSome?_eq_none_iff] at hnone
      have hsplit : (a, groups.flatten ++ rest) ∈ it.splits ((a :: groups).flatten ++ rest) :=
        Item.mem_splits.mpr ⟨by rw [List.flatten_cons, List.append_assoc], ha⟩
      exact ih (Option.map_eq_none_iff.mp (hnone _ hsplit))

theorem subset_of_matchAt {items : List (Item α)} {s : List α} {found : List (List α) × List α}
    (h : matchAt items s = some found) {t : List α} (ht : Item.lit t ∈ items) : t ⊆ s := by
  obtain ⟨hflatten, hforall⟩ := of_matchAt h
  have hmem := lit_mem_of_accepts hforall ht
  intro c hc
  rw [← hflatten]
  exact List.mem_append_left _ (List.mem_flatten.mpr ⟨t, hmem, hc⟩)

/-! ## The scan -/

/-- The input cut into the symbols that are passed over and the matches, with
`fuel` steps to go. -/
def scanFrom (items : List (Item α)) : ℕ → List α → List (α ⊕ List (List α))
  | 0, s => s.map Sum.inl
  | _ + 1, [] => []
  | fuel + 1, c :: s =>
      match matchAt items (c :: s) with
      | some (groups, rest) => Sum.inr groups :: scanFrom items fuel rest
      | none => Sum.inl c :: scanFrom items fuel s

def scan (items : List (Item α)) (s : List α) : List (α ⊕ List (List α)) :=
  scanFrom items s.length s

/-- Every match replaced by what `repl` makes of its groups. -/
def sub (items : List (Item α)) (repl : List (List α) → List α) (s : List α) : List α :=
  (scan items s).flatMap (Sum.elim (fun c => [c]) repl)

/-- The groups of every match. -/
def findAll (items : List (Item α)) (s : List α) : List (List (List α)) :=
  (scan items s).filterMap Sum.getRight?

/-- Every occurrence of `before`, a nonempty text, replaced by `after`. -/
def replace (before after : List α) (s : List α) : List α :=
  sub [.lit before] (fun _ => after) s

theorem scanFrom_of_none {items : List (Item α)} (fuel : ℕ) {s : List α}
    (h : ∀ t, t <:+ s → t ≠ [] → matchAt items t = none) :
    scanFrom items fuel s = s.map Sum.inl := by
  induction fuel generalizing s with
  | zero => rfl
  | succ fuel ih =>
      cases s with
      | nil => rfl
      | cons c s =>
          have hhead := h (c :: s) List.suffix_rfl (List.cons_ne_nil c s)
          have htail := ih (fun t ht hne => h t (ht.trans (List.suffix_cons c s)) hne)
          rw [scanFrom, hhead, htail, List.map_cons]

theorem sub_of_none {items : List (Item α)} {s : List α}
    (h : ∀ t, t <:+ s → t ≠ [] → matchAt items t = none) (repl : List (List α) → List α) :
    sub items repl s = s := by
  rw [sub, scan, scanFrom_of_none _ h, List.flatMap_map]
  exact List.flatMap_singleton' s

theorem findAll_of_none {items : List (Item α)} {s : List α}
    (h : ∀ t, t <:+ s → t ≠ [] → matchAt items t = none) : findAll items s = [] := by
  rw [findAll, scan, scanFrom_of_none _ h, List.filterMap_map]
  exact List.filterMap_eq_nil_iff.mpr (fun _ _ => rfl)

/-- A pattern with a literal that has a symbol the input lacks changes nothing. -/
theorem sub_eq_self {items : List (Item α)} {t : List α} (ht : Item.lit t ∈ items) {c : α}
    (hc : c ∈ t) {s : List α} (hs : c ∉ s) (repl : List (List α) → List α) :
    sub items repl s = s := by
  refine sub_of_none (fun s' hsuffix _ => ?_) repl
  cases h : matchAt items s' with
  | none => rfl
  | some found => exact absurd (hsuffix.subset (subset_of_matchAt h ht hc)) hs

theorem replace_singleton (d : α) (after s : List α) :
    replace [d] after s = s.flatMap (fun c => if c = d then after else [c]) := by
  induction s with
  | nil => rfl
  | cons c s ih =>
      rw [replace, sub, scan, List.length_cons, scanFrom, List.flatMap_cons, ← ih]
      by_cases h : c = d
      · subst h
        simp [matchAt, Item.splits, replace, sub, scan]
      · have hstart : ¬ [d] <+: c :: s := by
          rw [List.cons_prefix_cons]
          exact fun hd => h hd.1.symm
        simp [matchAt, Item.splits, hstart, h, replace, sub, scan]

/-- Where nothing is found, there is no match at any place. -/
theorem matchAt_eq_none_of_findAll {items : List (Item α)} {s : List α}
    (h : findAll items s = []) {t : List α} (ht : t <:+ s) (hne : t ≠ []) :
    matchAt items t = none := by
  induction s with
  | nil => exact absurd (List.suffix_nil.mp ht) hne
  | cons c s ih =>
      rw [findAll, scan, List.length_cons, scanFrom] at h
      cases hhead : matchAt items (c :: s) with
      | some found =>
          rw [hhead] at h
          simp at h
      | none =>
          rw [hhead] at h
          have hrest : findAll items s = [] := h
          rcases List.suffix_cons_iff.mp ht with rfl | ht
          · exact hhead
          · exact ih hrest ht

theorem head?_findAll {items : List (Item α)} {s rest : List α} {groups : List (List α)}
    (hne : s ≠ []) (h : matchAt items s = some (groups, rest)) :
    (findAll items s).head? = some groups := by
  obtain ⟨c, s, rfl⟩ := List.exists_cons_of_ne_nil hne
  rw [findAll, scan, List.length_cons, scanFrom, h]
  rfl

/-! ## Single symbols -/

theorem matchAt_one {p : α → Bool} {items : List (Item α)} {c : α} {s : List α}
    {found : List (List α) × List α} (hc : p c = true) (h : matchAt items s = some found) :
    matchAt (.one p :: items) (c :: s) = some ([c] :: found.1, found.2) := by
  rw [matchAt, Item.splits, if_pos hc, List.findSome?_cons, h]
  rfl

theorem matchAt_one_of_stop {p : α → Bool} {items : List (Item α)} {s : List α}
    (h : ∀ c ∈ s.head?, p c = false) : matchAt (.one p :: items) s = none := by
  cases s with
  | nil => rfl
  | cons c s => rw [matchAt, Item.splits, h c rfl]; rfl

theorem matchAt_opt {p : α → Bool} {items : List (Item α)} {c : α} {s : List α}
    {found : List (List α) × List α} (hc : p c = true) (h : matchAt items s = some found) :
    matchAt (.opt p :: items) (c :: s) = some ([c] :: found.1, found.2) := by
  rw [matchAt, Item.splits, if_pos hc, List.findSome?_cons, h]
  rfl

theorem matchAt_opt_of_stop {p : α → Bool} {items : List (Item α)} {s : List α}
    (h : ∀ c ∈ s.head?, p c = false) :
    matchAt (.opt p :: items) s =
      (matchAt items s).map (fun found => ([] :: found.1, found.2)) := by
  have hsplits : (Item.opt p).splits s = [([], s)] := by
    cases s with
    | nil => rfl
    | cons c s => rw [Item.splits, h c rfl]; rfl
  rw [matchAt, hsplits, List.findSome?_cons]
  cases matchAt items s with
  | none => rfl
  | some found => rfl

theorem matchAt_opt_eq_none {p : α → Bool} {items : List (Item α)} {c : α} {s : List α}
    (hwith : matchAt items s = none) (hwithout : matchAt items (c :: s) = none) :
    matchAt (.opt p :: items) (c :: s) = none := by
  rw [matchAt, Item.splits]
  split
  case isTrue => simp [hwith, hwithout]
  case isFalse => simp [hwithout]

/-! ## Greedy items -/

omit [DecidableEq α] in
theorem prefixes_of_stop {p : α → Bool} {b : List α} (hb : ∀ c ∈ b.head?, p c = false) :
    prefixes p b = [([], b)] := by
  cases b with
  | nil => rfl
  | cons c b => rw [prefixes, hb c rfl]; rfl

omit [DecidableEq α] in
/-- The longest split is tried first, and then the one that leaves one symbol. -/
theorem reverse_prefixes {p : α → Bool} {a b : List α} (ha : ∀ c ∈ a, p c = true) :
    ∃ shorter, (prefixes p (a ++ b)).reverse =
      ((prefixes p b).reverse.map (fun ab => (a ++ ab.1, ab.2))) ++ shorter := by
  induction a with
  | nil =>
      refine ⟨[], ?_⟩
      rw [List.append_nil]
      exact (List.map_id' _).symm
  | cons c a ih =>
      obtain ⟨shorter, h⟩ := ih (fun d hd => ha d (List.mem_cons_of_mem c hd))
      refine ⟨shorter.map (fun ab => (c :: ab.1, ab.2)) ++ [([], c :: (a ++ b))], ?_⟩
      rw [List.cons_append, prefixes, if_pos (ha c List.mem_cons_self), List.reverse_cons,
        ← List.map_reverse, h, List.map_append, List.map_map, List.append_assoc]
      rfl

theorem matchAt_greedy {p : α → Bool} {items : List (Item α)} {a b : List α}
    {found : List (List α) × List α} (ha : ∀ c ∈ a, p c = true)
    (hb : ∀ c ∈ b.head?, p c = false) (h : matchAt items b = some found) :
    matchAt (.greedy p :: items) (a ++ b) = some (a :: found.1, found.2) := by
  obtain ⟨shorter, hsplits⟩ := reverse_prefixes (b := b) ha
  rw [matchAt, Item.splits, hsplits, prefixes_of_stop hb, List.findSome?_append]
  simp [h]

theorem matchAt_greedy_back {p : α → Bool} {items : List (Item α)} {a b : List α} {c : α}
    {found : List (List α) × List α} (ha : ∀ d ∈ a, p d = true) (hc : p c = true)
    (hb : ∀ d ∈ b.head?, p d = false) (hnone : matchAt items b = none)
    (h : matchAt items (c :: b) = some found) :
    matchAt (.greedy p :: items) (a ++ c :: b) = some (a :: found.1, found.2) := by
  obtain ⟨shorter, hsplits⟩ := reverse_prefixes (b := c :: b) ha
  have hone : prefixes p (c :: b) = [([], c :: b), ([c], b)] := by
    rw [prefixes, if_pos hc, prefixes_of_stop hb]
    rfl
  rw [matchAt, Item.splits, hsplits, hone, List.findSome?_append]
  simp [h, hnone]

end Match

end Pattern
