/-
# `RLCM.Py.Heapq` — the binary heaps of `heapq`

`heappush`, `heappop`, `heapreplace` and `heapify` on a list, with the two loops
they share: `_siftdown` lifts an item towards the root, `_siftup` moves smaller
children up until the hole is a leaf and then lifts the item from there.

The order is any Boolean `lt` of which `WeakOrder` is known: Python compares
with `__lt__` and never asks for more.  What a heap is for is said without its
positions: every operation keeps `IsHeap`, the multiset of the entries is what
it should be (`List.Perm`), and the entry at the root is before none of them.

Both loops carry a hole.  `Hole` says which pairs of parent and child are in
order while the hole is not filled; the lifting loop knows besides that no child
of the hole is before the item it lifts (`UpReady`).
-/
import RLCM.Py.Error
import Mathlib.Data.List.Perm.Basic
import Mathlib.Logic.Function.Iterate
import Mathlib.Data.List.GetD
import Mathlib.Order.Nat
import Mathlib.Order.Lattice

namespace Py.Heapq

variable {α : Type*}

/-! ## The operations -/

/-- `(pos - 1) >> 1`. -/
def parentpos (pos : ℕ) : ℕ := (pos - 1) / 2

section Operations

variable (lt : α → α → Bool)

/-- The loop of `_siftdown`: while the new item is before the parent of the
hole, the parent moves into the hole. -/
def siftdownLoop (startpos : ℕ) (newitem : α) : ℕ → List α → ℕ → List α × ℕ
  | 0, heap, pos => (heap, pos)
  | fuel + 1, heap, pos =>
      let parent := heap.getD (parentpos pos) newitem
      if startpos < pos && lt newitem parent then
        siftdownLoop startpos newitem fuel (heap.set pos parent) (parentpos pos)
      else (heap, pos)

/-- `_siftdown`, with the new item already taken from `heap[pos]`. -/
def siftdown (heap : List α) (startpos pos : ℕ) (newitem : α) : List α :=
  let st := siftdownLoop lt startpos newitem pos heap pos
  st.1.set st.2 newitem

/-- The child of the hole that moves up: the right one, if there is one and the
left one is not before it. -/
def childpos (heap : List α) (newitem : α) (pos : ℕ) : ℕ :=
  let left := 2 * pos + 1
  let right := left + 1
  if right < heap.length && !lt (heap.getD left newitem) (heap.getD right newitem) then right
  else left

/-- The loop of `_siftup`: children move up until the hole is a leaf. -/
def siftupLoop (newitem : α) : ℕ → List α → ℕ → List α × ℕ
  | 0, heap, pos => (heap, pos)
  | fuel + 1, heap, pos =>
      if 2 * pos + 1 < heap.length then
        let child := childpos lt heap newitem pos
        siftupLoop newitem fuel (heap.set pos (heap.getD child newitem)) child
      else (heap, pos)

/-- `_siftup`, with the new item already taken from `heap[pos]`. -/
def siftup (heap : List α) (pos : ℕ) (newitem : α) : List α :=
  let st := siftupLoop lt newitem heap.length heap pos
  siftdown lt (st.1.set st.2 newitem) pos st.2 newitem

/-- `heappush(heap, item)`. -/
def heappush (heap : List α) (item : α) : List α :=
  siftdown lt (heap ++ [item]) 0 heap.length item

/-- `heapreplace(heap, item)`: the old root, and the heap with `item` for it. -/
def heapreplace (heap : List α) (item : α) : Except Error (α × List α) :=
  match heap with
  | [] => .error .indexError
  | root :: _ => .ok (root, siftup lt (heap.set 0 item) 0 item)

/-- `heappop(heap)`: the root, and the heap without it. -/
def heappop (heap : List α) : Except Error (α × List α) :=
  match heap.getLast? with
  | none => .error .indexError
  | some last =>
      match heap.dropLast with
      | [] => .ok (last, [])
      | root :: rest => .ok (root, siftup lt (last :: rest) 0 last)

/-- `heapify(x)`: every position that has a child is sifted, the last first. -/
def heapify (xs : List α) : List α :=
  (List.range (xs.length / 2)).reverse.foldl
    (fun heap i => (heap[i]?).elim heap (siftup lt heap i)) xs

end Operations

/-! ## Order -/

/-- What `__lt__` must satisfy: of two items at most one is before the other,
and not being before is transitive. -/
structure WeakOrder (lt : α → α → Bool) : Prop where
  asymm : ∀ {a b}, lt a b = true → lt b a = false
  trans : ∀ {a b c}, lt a b = false → lt b c = false → lt a c = false

theorem WeakOrder.irrefl {lt : α → α → Bool} (h : WeakOrder lt) (a : α) : lt a a = false := by
  cases haa : lt a a with
  | false => rfl
  | true => exact (h.asymm haa).symm.trans haa |>.symm

/-- An item before another that is not after a third is not after the third. -/
theorem WeakOrder.not_lt_of_lt {lt : α → α → Bool} (h : WeakOrder lt) {a b c : α}
    (hab : lt a b = true) (hcb : lt c b = false) : lt c a = false := h.trans hcb (h.asymm hab)

theorem weakOrder_of_key {β : Type*} [LinearOrder β] (key : α → β) :
    WeakOrder (fun a b => decide (key a < key b)) where
  asymm h := by
    rw [decide_eq_true_eq] at h
    exact decide_eq_false h.asymm
  trans hab hbc := by
    rw [decide_eq_false_iff_not, not_lt] at hab hbc
    exact decide_eq_false (not_lt.mpr (hbc.trans hab))

/-- From position `startpos` on, no child is before its parent. -/
def OrderedFrom (lt : α → α → Bool) (startpos : ℕ) (heap : List α) : Prop :=
  ∀ i x p, heap[i]? = some x → heap[parentpos i]? = some p → 0 < i → startpos ≤ parentpos i →
    lt x p = false

/-- The heap invariant of the module `heapq`. -/
def IsHeap (lt : α → α → Bool) (heap : List α) : Prop := OrderedFrom lt 0 heap

variable {lt : α → α → Bool} {startpos pos : ℕ} {heap : List α} {newitem : α}

/-! ## Positions -/

theorem parentpos_lt (h : 0 < pos) : parentpos pos < pos := by
  unfold parentpos
  omega

theorem parentpos_le (pos : ℕ) : parentpos pos ≤ pos := by
  unfold parentpos
  omega

/-- `pos` is `startpos` or below it in the tree. -/
def Under (startpos pos : ℕ) : Prop := ∃ k, parentpos^[k] pos = startpos

theorem under_self (pos : ℕ) : Under pos pos := ⟨0, rfl⟩

/-- Every position is below the root. -/
theorem under_zero (pos : ℕ) : Under 0 pos := by
  have hiterate : ∀ k q, q ≤ k → parentpos^[k] q = 0 := by
    intro k
    induction k with
    | zero => exact fun q hq => Nat.le_zero.mp hq
    | succ k ih =>
        intro q hq
        rw [Function.iterate_succ_apply]
        refine ih _ ?_
        unfold parentpos
        omega
  exact ⟨pos, hiterate pos pos le_rfl⟩

theorem Under.le (h : Under startpos pos) : startpos ≤ pos := by
  obtain ⟨k, rfl⟩ := h
  induction k generalizing pos with
  | zero => exact le_rfl
  | succ k ih =>
      rw [Function.iterate_succ_apply]
      exact ih.trans (parentpos_le pos)

theorem Under.parent (h : Under startpos pos) (hne : startpos < pos) :
    Under startpos (parentpos pos) := by
  obtain ⟨k, hk⟩ := h
  cases k with
  | zero => exact absurd hk.symm hne.ne
  | succ k => exact ⟨k, hk⟩

theorem Under.child (h : Under startpos (parentpos pos)) : Under startpos pos := by
  obtain ⟨k, hk⟩ := h
  exact ⟨k + 1, hk⟩

/-! ## Filling a hole -/

/-- Moving an entry into the hole and filling the place it came from permutes
what filling the hole at once gives. -/
theorem set_move_perm {q : ℕ} {x : α} (hpos : pos < heap.length) (hx : heap[q]? = some x)
    (hne : pos ≠ q) : ((heap.set pos x).set q newitem).Perm (heap.set pos newitem) := by
  obtain ⟨hq, rfl⟩ := List.getElem?_eq_some_iff.mp hx
  have hpos' : pos < (heap.set pos newitem).length := by simpa using hpos
  have hq' : q < (heap.set pos newitem).length := by simpa using hq
  simpa [List.getElem_set_ne hne, List.set_set] using List.set_set_perm hpos' hq'

theorem getElem?_set_of_ne {i : ℕ} (x : α) (h : i ≠ pos) : (heap.set pos x)[i]? = heap[i]? :=
  List.getElem?_set_ne h.symm

/-- The heap around a hole at `pos`: the pairs off the hole are in order, and
so are the hole's children with its parent. -/
structure Hole (lt : α → α → Bool) (startpos : ℕ) (heap : List α) (pos : ℕ) : Prop where
  pos_lt : pos < heap.length
  under : Under startpos pos
  except : ∀ i x p, heap[i]? = some x → heap[parentpos i]? = some p → 0 < i →
    startpos ≤ parentpos i → i ≠ pos → parentpos i ≠ pos → lt x p = false
  grand : startpos < pos → ∀ i x p, heap[i]? = some x → heap[parentpos pos]? = some p → 0 < i →
    parentpos i = pos → lt x p = false

/-! ## Lifting an item -/

/-- While `newitem` is lifted through the hole, no child of the hole is before
it. -/
structure UpReady (lt : α → α → Bool) (startpos : ℕ) (heap : List α) (pos : ℕ)
    (newitem : α) : Prop extends Hole lt startpos heap pos where
  below : ∀ i x, heap[i]? = some x → 0 < i → parentpos i = pos → lt x newitem = false

namespace UpReady

/-- The parent moves into the hole. -/
theorem move (h : UpReady lt startpos heap pos newitem) (hlt : WeakOrder lt)
    (hstart : startpos < pos) {p : α} (hp : heap[parentpos pos]? = some p)
    (hbefore : lt newitem p = true) :
    UpReady lt startpos (heap.set pos p) (parentpos pos) newitem := by
  have hpos : 0 < pos := (Nat.zero_le _).trans_lt hstart
  have hq : parentpos pos < pos := parentpos_lt hpos
  have hunder : startpos ≤ parentpos pos := (h.under.parent hstart).le
  -- a child of the parent that is not the hole was in order with it
  have hsibling : ∀ i x, heap[i]? = some x → 0 < i → parentpos i = parentpos pos → i ≠ pos →
      lt x p = false := by
    intro i x hx hi hparent hne
    refine h.except i x p hx (hparent ▸ hp) hi (hparent ▸ hunder) hne ?_
    rw [hparent]
    exact hq.ne
  refine ⟨⟨?_, h.under.parent hstart, ?_, ?_⟩, ?_⟩
  · rw [List.length_set]
    exact hq.trans h.pos_lt
  · intro i x r hx hr hi hstart' hne hparent
    rcases eq_or_ne i pos with rfl | hipos
    · exact absurd rfl hparent
    · rw [getElem?_set_of_ne _ hipos] at hx
      rcases eq_or_ne (parentpos i) pos with heq | hneq
      · rw [heq, List.getElem?_set_self h.pos_lt] at hr
        obtain rfl := Option.some.inj hr
        exact h.grand hstart i x p hx hp hi heq
      · rw [getElem?_set_of_ne _ hneq] at hr
        exact h.except i x r hx hr hi hstart' hipos hneq
  · intro hstart' i x r hx hr hi hparent
    have hq0 : 0 < parentpos pos := (Nat.zero_le _).trans_lt hstart'
    have hqq : parentpos (parentpos pos) < parentpos pos := parentpos_lt hq0
    rw [getElem?_set_of_ne _ (hqq.trans hq).ne] at hr
    have hgrand : lt p r = false := h.except (parentpos pos) p r hp hr hq0
      ((h.under.parent hstart).parent hstart').le hq.ne (hqq.trans hq).ne
    rcases eq_or_ne i pos with rfl | hipos
    · rw [List.getElem?_set_self h.pos_lt] at hx
      obtain rfl := Option.some.inj hx
      exact hgrand
    · rw [getElem?_set_of_ne _ hipos] at hx
      exact hlt.trans (hsibling i x hx hi hparent hipos) hgrand
  · intro i x hx hi hparent
    rcases eq_or_ne i pos with rfl | hipos
    · rw [List.getElem?_set_self h.pos_lt] at hx
      obtain rfl := Option.some.inj hx
      exact hlt.asymm hbefore
    · rw [getElem?_set_of_ne _ hipos] at hx
      exact hlt.not_lt_of_lt hbefore (hsibling i x hx hi hparent hipos)

/-- The item stays where its parent is not after it. -/
theorem finish (h : UpReady lt startpos heap pos newitem)
    (hstop : startpos < pos → ∀ p, heap[parentpos pos]? = some p → lt newitem p = false) :
    OrderedFrom lt startpos (heap.set pos newitem) := by
  intro i x p hx hp hi hstart
  rcases eq_or_ne i pos with rfl | hipos
  · rw [List.getElem?_set_self h.pos_lt] at hx
    obtain rfl := Option.some.inj hx
    rw [getElem?_set_of_ne _ (parentpos_lt hi).ne] at hp
    exact hstop (hstart.trans_lt (parentpos_lt hi)) p hp
  · rw [getElem?_set_of_ne _ hipos] at hx
    rcases eq_or_ne (parentpos i) pos with heq | hneq
    · rw [heq, List.getElem?_set_self h.pos_lt] at hp
      obtain rfl := Option.some.inj hp
      exact h.below i x hx hi heq
    · rw [getElem?_set_of_ne _ hneq] at hp
      exact h.except i x p hx hp hi hstart hipos hneq

end UpReady

/-- The lifting loop, run to its end: the heap is in order again. -/
theorem siftdownLoop_spec (hlt : WeakOrder lt) (fuel : ℕ) (hfuel : pos ≤ fuel)
    (h : UpReady lt startpos heap pos newitem) :
    let st := siftdownLoop lt startpos newitem fuel heap pos
    OrderedFrom lt startpos (st.1.set st.2 newitem) ∧
      (st.1.set st.2 newitem).Perm (heap.set pos newitem) := by
  induction fuel generalizing heap pos with
  | zero =>
      refine ⟨h.finish (fun hstart => ?_), List.Perm.refl _⟩
      omega
  | succ fuel ih =>
      have hq : parentpos pos < heap.length := (parentpos_le pos).trans_lt h.pos_lt
      have hp : heap[parentpos pos]? = some (heap.getD (parentpos pos) newitem) := by
        rw [List.getD_eq_getElem _ _ hq]
        exact List.getElem?_eq_getElem hq
      simp only [siftdownLoop]
      split
      case isTrue hcond =>
        rw [Bool.and_eq_true, decide_eq_true_eq] at hcond
        have hpos : 0 < pos := (Nat.zero_le _).trans_lt hcond.1
        have hle : parentpos pos ≤ fuel := by
          have := parentpos_lt hpos
          omega
        obtain ⟨hordered, hperm⟩ := ih hle (h.move hlt hcond.1 hp hcond.2)
        exact ⟨hordered, hperm.trans (set_move_perm h.pos_lt hp (parentpos_lt hpos).ne')⟩
      case isFalse hcond =>
        refine ⟨h.finish (fun hstart p hp' => ?_), List.Perm.refl _⟩
        rw [hp] at hp'
        obtain rfl := Option.some.inj hp'
        rw [Bool.and_eq_true, decide_eq_true_eq, not_and] at hcond
        exact Bool.eq_false_iff.mpr (hcond hstart)

theorem siftdown_spec (hlt : WeakOrder lt) (h : UpReady lt startpos heap pos newitem) :
    OrderedFrom lt startpos (siftdown lt heap startpos pos newitem) ∧
      (siftdown lt heap startpos pos newitem).Perm (heap.set pos newitem) :=
  siftdownLoop_spec hlt pos le_rfl h

/-! ## Sinking a hole -/

/-- What the loop of `_siftup` moves up: a child of the hole that no child of
the hole is before. -/
theorem childpos_spec (hlt : WeakOrder lt) (newitem : α) (hleft : 2 * pos + 1 < heap.length) :
    parentpos (childpos lt heap newitem pos) = pos ∧ pos < childpos lt heap newitem pos ∧
      childpos lt heap newitem pos < heap.length ∧
      ∀ i x, heap[i]? = some x → 0 < i → parentpos i = pos →
        lt x (heap.getD (childpos lt heap newitem pos) newitem) = false := by
  have hchild : ∀ i, 0 < i → parentpos i = pos → i = 2 * pos + 1 ∨ i = 2 * pos + 1 + 1 := by
    intro i hi hparent
    unfold parentpos at hparent
    omega
  have hvalue : ∀ i x, heap[i]? = some x → heap.getD i newitem = x := by
    intro i x hx
    rw [List.getD_eq_getElem?_getD, hx, Option.getD_some]
  unfold childpos
  dsimp only
  split
  case isTrue hright =>
    rw [Bool.and_eq_true, decide_eq_true_eq, Bool.not_eq_true'] at hright
    refine ⟨by unfold parentpos; omega, by omega, hright.1, ?_⟩
    intro i x hx hi hparent
    rcases hchild i hi hparent with rfl | rfl
    · rw [← hvalue _ _ hx]
      exact hright.2
    · rw [hvalue _ _ hx]
      exact hlt.irrefl x
  case isFalse hright =>
    refine ⟨by unfold parentpos; omega, by omega, hleft, ?_⟩
    intro i x hx hi hparent
    rcases hchild i hi hparent with rfl | rfl
    · rw [hvalue _ _ hx]
      exact hlt.irrefl x
    · have hin := (List.getElem?_eq_some_iff.mp hx).1
      rw [Bool.and_eq_true, decide_eq_true_eq, not_and, Bool.not_eq_true', Bool.not_eq_false]
        at hright
      rw [← hvalue _ _ hx]
      exact hlt.asymm (hright hin)

theorem Hole.move (h : Hole lt startpos heap pos) {child : ℕ} {c : α}
    (hc : heap[child]? = some c) (hparent : parentpos child = pos) (hgt : pos < child)
    (hmin : ∀ i x, heap[i]? = some x → 0 < i → parentpos i = pos → lt x c = false) :
    Hole lt startpos (heap.set pos c) child := by
  have hchild0 : 0 < child := (Nat.zero_le _).trans_lt hgt
  have hin : child < heap.length := (List.getElem?_eq_some_iff.mp hc).1
  refine ⟨?_, (hparent ▸ h.under : Under startpos (parentpos child)).child, ?_, ?_⟩
  · rw [List.length_set]
    exact hin
  · intro i x p hx hp hi hstart hne hnep
    rcases eq_or_ne i pos with rfl | hipos
    · rw [List.getElem?_set_self h.pos_lt] at hx
      obtain rfl := Option.some.inj hx
      rw [getElem?_set_of_ne _ (parentpos_lt hi).ne] at hp
      exact h.grand (hstart.trans_lt (parentpos_lt hi)) child _ p hc hp hchild0 hparent
    · rw [getElem?_set_of_ne _ hipos] at hx
      rcases eq_or_ne (parentpos i) pos with heq | hneq
      · rw [heq, List.getElem?_set_self h.pos_lt] at hp
        obtain rfl := Option.some.inj hp
        exact hmin i x hx hi heq
      · rw [getElem?_set_of_ne _ hneq] at hp
        exact h.except i x p hx hp hi hstart hipos hneq
  · intro _ i x p hx hp hi hgrand
    rw [hparent, List.getElem?_set_self h.pos_lt] at hp
    obtain rfl := Option.some.inj hp
    have hichild : child < i := hgrand ▸ parentpos_lt hi
    rw [getElem?_set_of_ne _ (hgt.trans hichild).ne'] at hx
    refine h.except i x _ hx (hgrand ▸ hc) hi ?_ (hgt.trans hichild).ne' (hgrand ▸ hgt.ne')
    rw [hgrand]
    exact h.under.le.trans hgt.le

/-- The sinking loop, run to its end: the hole is a leaf. -/
theorem siftupLoop_spec (hlt : WeakOrder lt) (newitem : α) (fuel : ℕ)
    (hfuel : heap.length ≤ pos + fuel) (h : Hole lt startpos heap pos) :
    let st := siftupLoop lt newitem fuel heap pos
    Hole lt startpos st.1 st.2 ∧ st.1.length ≤ 2 * st.2 + 1 ∧
      (st.1.set st.2 newitem).Perm (heap.set pos newitem) := by
  induction fuel generalizing heap pos with
  | zero => exact absurd h.pos_lt (by omega)
  | succ fuel ih =>
      simp only [siftupLoop]
      split
      case isTrue hleft =>
        obtain ⟨hparent, hgt, hin, hmin⟩ := childpos_spec hlt newitem hleft
        have hc : heap[childpos lt heap newitem pos]? =
            some (heap.getD (childpos lt heap newitem pos) newitem) := by
          rw [List.getD_eq_getElem _ _ hin]
          exact List.getElem?_eq_getElem hin
        have hlen : (heap.set pos (heap.getD (childpos lt heap newitem pos) newitem)).length ≤
            childpos lt heap newitem pos + fuel := by
          rw [List.length_set]
          omega
        obtain ⟨hhole, hleaf, hperm⟩ := ih hlen (h.move hc hparent hgt hmin)
        exact ⟨hhole, hleaf, hperm.trans (set_move_perm h.pos_lt hc hgt.ne)⟩
      case isFalse hleft => exact ⟨h, not_lt.mp hleft, List.Perm.refl _⟩

/-- `_siftup` fills the hole and leaves the heap in order. -/
theorem siftup_spec (hlt : WeakOrder lt) (h : Hole lt startpos heap startpos) (newitem : α) :
    OrderedFrom lt startpos (siftup lt heap startpos newitem) ∧
      (siftup lt heap startpos newitem).Perm (heap.set startpos newitem) := by
  obtain ⟨hhole, hleaf, hperm⟩ :=
    siftupLoop_spec hlt newitem heap.length (Nat.le_add_left _ _) h
  unfold siftup
  dsimp only
  revert hhole hleaf hperm
  generalize siftupLoop lt newitem heap.length heap startpos = st
  intro hhole hleaf hperm
  have hnone : ∀ i x, st.1[i]? = some x → 0 < i → parentpos i ≠ st.2 := by
    intro i x hx hi hparent
    have hin := (List.getElem?_eq_some_iff.mp hx).1
    unfold parentpos at hparent
    omega
  -- the item is at the leaf already; the lifting loop reads the same pairs
  have hup : UpReady lt startpos (st.1.set st.2 newitem) st.2 newitem := by
    refine ⟨⟨?_, hhole.under, ?_, ?_⟩, ?_⟩
    · rw [List.length_set]
      exact hhole.pos_lt
    · intro i x p hx hp hi hstart hne hnep
      rw [getElem?_set_of_ne _ hne] at hx
      rw [getElem?_set_of_ne _ hnep] at hp
      exact hhole.except i x p hx hp hi hstart hne hnep
    · intro _ i x p hx _ hi hparent
      have hne : i ≠ st.2 := by
        rintro rfl
        exact (parentpos_lt hi).ne hparent
      rw [getElem?_set_of_ne _ hne] at hx
      exact absurd hparent (hnone i x hx hi)
    · intro i x hx hi hparent
      have hne : i ≠ st.2 := by
        rintro rfl
        exact (parentpos_lt hi).ne hparent
      rw [getElem?_set_of_ne _ hne] at hx
      exact absurd hparent (hnone i x hx hi)
  obtain ⟨hordered, hlift⟩ := siftdown_spec hlt hup
  rw [List.set_set] at hlift
  exact ⟨hordered, hlift.trans hperm⟩

/-! ## What the operations do -/

theorem IsHeap.root_first (h : IsHeap lt heap) (hlt : WeakOrder lt) {root : α}
    (hroot : heap[0]? = some root) {x : α} (hx : x ∈ heap) : lt x root = false := by
  obtain ⟨i, hi⟩ := List.mem_iff_getElem?.mp hx
  induction i using Nat.strongRecOn generalizing x with
  | _ i ih =>
      rcases Nat.eq_zero_or_pos i with rfl | hpos
      · rw [hi] at hroot
        obtain rfl := Option.some.inj hroot
        exact hlt.irrefl x
      · have hin : parentpos i < heap.length :=
          (parentpos_le i).trans_lt (List.getElem?_eq_some_iff.mp hi).1
        have hp := List.getElem?_eq_getElem hin
        exact hlt.trans (h i x _ hi hp hpos (Nat.zero_le _))
          (ih _ (parentpos_lt hpos) (List.getElem_mem hin) hp)

theorem IsHeap.hole_root {heap' : List α} (h : IsHeap lt heap) (hpos : 0 < heap'.length)
    (hsub : ∀ i x, 0 < i → heap'[i]? = some x → heap[i]? = some x) : Hole lt 0 heap' 0 := by
  refine ⟨hpos, under_self 0, ?_, fun hzero => absurd hzero (Nat.lt_irrefl 0)⟩
  intro i x p hx hp hi hstart hne hnep
  exact h i x p (hsub i x hi hx) (hsub _ p (Nat.pos_of_ne_zero hnep) hp) hi hstart

theorem isHeap_nil : IsHeap lt [] := by
  intro i x p hx
  simp at hx

theorem heappush_spec (hlt : WeakOrder lt) (h : IsHeap lt heap) (item : α) :
    IsHeap lt (heappush lt heap item) ∧ (heappush lt heap item).Perm (item :: heap) := by
  have hold : ∀ i x, (heap ++ [item])[i]? = some x → i ≠ heap.length → heap[i]? = some x := by
    intro i x hx hne
    have hin := (List.getElem?_eq_some_iff.mp hx).1
    rw [List.length_append, List.length_singleton] at hin
    rwa [List.getElem?_append_left (by omega)] at hx
  have hleaf : ∀ i x, (heap ++ [item])[i]? = some x → 0 < i → parentpos i ≠ heap.length := by
    intro i x hx hi hparent
    have hin := (List.getElem?_eq_some_iff.mp hx).1
    rw [List.length_append, List.length_singleton] at hin
    have := parentpos_lt hi
    omega
  have hup : UpReady lt 0 (heap ++ [item]) heap.length item := by
    refine ⟨⟨by simp, under_zero _, ?_, ?_⟩, ?_⟩
    · intro i x p hx hp hi hstart hne hnep
      exact h i x p (hold i x hx hne) (hold _ p hp hnep) hi hstart
    · intro _ i x p hx _ hi hparent
      exact absurd hparent (hleaf i x hx hi)
    · intro i x hx hi hparent
      exact absurd hparent (hleaf i x hx hi)
  obtain ⟨hordered, hperm⟩ := siftdown_spec hlt hup
  refine ⟨hordered, hperm.trans ?_⟩
  have hset : (heap ++ [item]).set heap.length item = heap ++ [item] := by simp
  rw [hset]
  exact List.perm_append_singleton item heap

theorem heapreplace_spec (hlt : WeakOrder lt) {root : α} {rest : List α}
    (h : IsHeap lt (root :: rest)) (item : α) :
    ∃ heap', heapreplace lt (root :: rest) item = .ok (root, heap') ∧ IsHeap lt heap' ∧
      heap'.Perm (item :: rest) := by
  have hhole : Hole lt 0 (item :: rest) 0 := by
    refine h.hole_root (Nat.succ_pos _) (fun i x hi hx => ?_)
    cases i with
    | zero => exact absurd hi (Nat.lt_irrefl 0)
    | succ i => exact hx
  obtain ⟨hordered, hperm⟩ := siftup_spec hlt hhole item
  exact ⟨_, rfl, hordered, hperm⟩

/-- `heappop` takes the root, which no entry is before. -/
theorem heappop_spec (hlt : WeakOrder lt) (h : IsHeap lt heap) (hne : heap ≠ []) :
    ∃ root rest, heappop lt heap = .ok (root, rest) ∧ IsHeap lt rest ∧
      heap.Perm (root :: rest) ∧ ∀ x ∈ heap, lt x root = false := by
  obtain ⟨front, last, rfl⟩ := (List.eq_nil_or_concat' heap).resolve_left hne
  cases front with
  | nil =>
      refine ⟨last, [], rfl, isHeap_nil, List.Perm.refl _, fun x hx => ?_⟩
      obtain rfl := List.mem_singleton.mp hx
      exact hlt.irrefl x
  | cons root rest =>
      have hhole : Hole lt 0 (last :: rest) 0 := by
        refine h.hole_root (Nat.succ_pos _) (fun i x hi hx => ?_)
        cases i with
        | zero => exact absurd hi (Nat.lt_irrefl 0)
        | succ i =>
            have hin := (List.getElem?_eq_some_iff.mp hx).1
            rw [List.length_cons] at hin
            rw [List.cons_append, List.getElem?_cons_succ,
              List.getElem?_append_left (Nat.lt_of_succ_lt_succ hin)]
            exact hx
      obtain ⟨hordered, hperm⟩ := siftup_spec hlt hhole last
      refine ⟨root, siftup lt (last :: rest) 0 last, ?_, hordered, ?_,
        fun x hx => h.root_first hlt rfl hx⟩
      · have hdrop : (root :: rest ++ [last]).dropLast = root :: rest := List.dropLast_concat
        rw [heappop, List.getLast?_concat, hdrop]
      · refine List.Perm.cons root ?_
        exact (List.perm_append_singleton last rest).trans hperm.symm

theorem heapify_spec (hlt : WeakOrder lt) (xs : List α) :
    IsHeap lt (heapify lt xs) ∧ (heapify lt xs).Perm xs := by
  have hrun : ∀ k (heap : List α), heap.length = xs.length → k ≤ xs.length / 2 →
      OrderedFrom lt k heap →
      let out := (List.range k).reverse.foldl
        (fun heap i => (heap[i]?).elim heap (siftup lt heap i)) heap
      IsHeap lt out ∧ out.Perm heap := by
    intro k
    induction k with
    | zero => exact fun heap _ _ h => ⟨h, List.Perm.refl _⟩
    | succ k ih =>
        intro heap hlen hk h
        have hin : k < heap.length := by omega
        have hhole : Hole lt k heap k := by
          refine ⟨hin, under_self k, ?_, fun hlt' => absurd hlt' (Nat.lt_irrefl k)⟩
          intro i x p hx hp hi hstart hne hnep
          exact h i x p hx hp hi (lt_of_le_of_ne hstart (Ne.symm hnep))
        obtain ⟨hordered, hperm⟩ := siftup_spec hlt hhole heap[k]
        rw [List.set_getElem_self] at hperm
        have hstep := ih (siftup lt heap k heap[k]) (hperm.length_eq.trans hlen) (by omega)
          hordered
        simp only [List.range_succ, List.reverse_append, List.reverse_singleton,
          List.singleton_append, List.foldl_cons, List.getElem?_eq_getElem hin, Option.elim_some]
        exact ⟨hstep.1, hstep.2.trans hperm⟩
  refine hrun (xs.length / 2) xs rfl le_rfl ?_
  -- no position in the second half has a child
  intro i x p hx hp hi hstart
  have hin := (List.getElem?_eq_some_iff.mp hx).1
  unfold parentpos at hstart
  omega

end Py.Heapq
