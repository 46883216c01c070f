/-
# `RLCM.Balancing.Partitions` — sharing out sequences by their lengths

The partitioning functions of `seqlen_balancing.py`: the Karmarkar-Karp
differencing method on a heap of states, the greedy method, and the function
that calls the first and checks what it gave.

A `State` of the differencing method is a partial solution: `k` sets in
decreasing order.  Both classes carry what the source keeps up by hand as a
field: the sum of a set is the sum of its values, and the sets of a state are in
decreasing order.
-/
import Mathlib.Data.Prod.Lex
import Mathlib.Data.List.Sort
import Mathlib.Data.List.Lex
import Mathlib.Algebra.Ring.Nat
import Mathlib.Data.Finset.Range
import RLCM.Py.Heapq
import RLCM.Lib.Blocks

namespace RLCM.Balancing

open Py Heapq

/-- `calculate_workload` of one length. -/
def calculateWorkload (seqlen : ℕ) : ℕ := 24576 * seqlen + seqlen ^ 2

/-! ## `Set` -/

/-- The class `Set` of `karmarkar_karp`: items `(idx, val)` with their sum. -/
structure ItemSet where
  items : List (ℕ × ℕ)
  sum : ℕ
  sum_eq : sum = (items.map Prod.snd).sum

namespace ItemSet

/-- `Set()`. -/
def empty : ItemSet where
  items := []
  sum := 0
  sum_eq := rfl

def add (s : ItemSet) (item : ℕ × ℕ) : ItemSet where
  items := s.items ++ [item]
  sum := s.sum + item.2
  sum_eq := by simp [s.sum_eq]

def merge (s other : ItemSet) : ItemSet := other.items.foldl add s

/-- `Set.__lt__`; items compare as tuples do. -/
def lt (s other : ItemSet) : Bool :=
  if s.sum ≠ other.sum then s.sum < other.sum
  else if s.items.length ≠ other.items.length then s.items.length < other.items.length
  else decide (s.items.map toLex < other.items.map toLex)

end ItemSet

/-- `sorted(sets, reverse=True)`. -/
def sortDecreasing (sets : List ItemSet) : List ItemSet :=
  sets.insertionSort (fun s other => s.lt other = false)

def ItemSet.key (s : ItemSet) : ℕ ×ₗ ℕ ×ₗ List (ℕ ×ₗ ℕ) :=
  toLex (s.sum, toLex (s.items.length, s.items.map toLex))

theorem ItemSet.key_lt_iff (s other : ItemSet) : s.key < other.key ↔
    s.sum < other.sum ∨ s.sum = other.sum ∧ (s.items.length < other.items.length ∨
      s.items.length = other.items.length ∧ s.items.map toLex < other.items.map toLex) := by
  simp only [ItemSet.key, Prod.Lex.toLex_lt_toLex]

theorem ItemSet.lt_eq (s other : ItemSet) : s.lt other = decide (s.key < other.key) := by
  rw [Bool.eq_iff_iff, decide_eq_true_iff, ItemSet.key_lt_iff, ItemSet.lt]
  split_ifs with hsum hlen
  · rw [decide_eq_true_iff]
    exact ⟨Or.inl, fun h => h.resolve_right (fun hr => hsum hr.1)⟩
  · have hsum' : s.sum = other.sum := not_not.mp hsum
    rw [decide_eq_true_iff]
    refine ⟨fun h => Or.inr ⟨hsum', Or.inl h⟩, fun h => ?_⟩
    rcases h with h | ⟨-, h | ⟨h, -⟩⟩
    · exact absurd hsum' h.ne
    · exact h
    · exact absurd h hlen
  · have hsum' : s.sum = other.sum := not_not.mp hsum
    have hlen' : s.items.length = other.items.length := not_not.mp hlen
    rw [decide_eq_true_iff]
    refine ⟨fun h => Or.inr ⟨hsum', Or.inr ⟨hlen', h⟩⟩, fun h => ?_⟩
    rcases h with h | ⟨-, h | ⟨-, h⟩⟩
    · exact absurd hsum' h.ne
    · exact absurd hlen' h.ne
    · exact h

theorem ItemSet.weakOrder : WeakOrder ItemSet.lt := by
  have h := weakOrder_of_key ItemSet.key
  have hlt : ItemSet.lt = fun s other => decide (s.key < other.key) := by
    funext s other
    exact ItemSet.lt_eq s other
  rw [hlt]
  exact h

theorem sortDecreasing_perm (sets : List ItemSet) : (sortDecreasing sets).Perm sets :=
  List.perm_insertionSort _ _

theorem sortDecreasing_pairwise (sets : List ItemSet) :
    (sortDecreasing sets).Pairwise (fun s other => s.lt other = false) := by
  have : Std.Total (fun s other : ItemSet => s.lt other = false) := by
    refine ⟨fun s other => ?_⟩
    cases h : s.lt other with
    | false => exact Or.inl rfl
    | true => exact Or.inr (ItemSet.weakOrder.asymm h)
  have : IsTrans ItemSet (fun s other => s.lt other = false) :=
    ⟨fun _ _ _ => ItemSet.weakOrder.trans⟩
  exact List.pairwise_insertionSort _ _

/-! ## `State` -/

/-- The class `State` of `karmarkar_karp`. -/
structure State (k : ℕ) where
  sets : List ItemSet
  length_eq : sets.length = k
  decreasing : sets.Pairwise (fun s other => s.lt other = false)

namespace State

variable {k : ℕ}

def ofSets (sets : List ItemSet) (h : sets.length = k) : State k where
  sets := sortDecreasing sets
  length_eq := (sortDecreasing_perm sets).length_eq.trans h
  decreasing := sortDecreasing_pairwise sets

/-- `State(items, k)`. -/
def new (k : ℕ) (items : List (ℕ × ℕ)) : Except Error (State k) :=
  if items.length = 1 ∨ items.length = k then
    if items.length ≤ k then
      .ok (ofSets ((List.range k).map (fun i => (items[i]?).elim .empty ItemSet.empty.add))
        (by simp))
    else .error .indexError
  else .error .assertionError

/-- `State.merge`: the largest set of the one with the smallest of the other. -/
def merge (state other : State k) : State k :=
  ofSets (List.zipWith ItemSet.merge state.sets other.sets.reverse)
    (by simp [state.length_eq, other.length_eq])

/-- `self.sets[0]`. -/
def largest (state : State k) : ItemSet := state.sets.headD .empty

def spread (state : State k) : ℕ := state.largest.sum - (state.sets.getLastD .empty).sum

/-- `State.__lt__`: the state with the larger spread is before the other, then
the one with the larger largest set. -/
def lt (state other : State k) : Bool :=
  if state.spread ≠ other.spread then other.spread < state.spread
  else other.largest.lt state.largest

def getPartitions (state : State k) : List (List ℕ) :=
  state.sets.map (fun s => s.items.map Prod.fst)

end State

/-! ## The differencing method -/

def sortedSeqlenList (seqlenList : List ℕ) : List (ℕ × ℕ) :=
  seqlenList.zipIdx.insertionSort (fun a b => toLex a ≤ toLex b)

/-- The items of the states the heap starts with. -/
def initialItems (seqlenList : List ℕ) (k : ℕ) (equalSize : Bool) :
    Except Error (List (List (ℕ × ℕ))) :=
  let items := (sortedSeqlenList seqlenList).map Prod.swap
  if equalSize then
    if k = 0 then .error .zeroDivisionError
    else if seqlenList.length % k = 0 then .ok (Blocks.pieces k items)
    else .error .assertionError
  else .ok (items.map (fun item => [item]))

/-- `while len(states_pq) > 1`, at most `fuel` times. -/
def mergeStates {k : ℕ} : ℕ → List (State k) → Except Error (List (State k))
  | 0, statesPq => .ok statesPq
  | fuel + 1, statesPq =>
      if 1 < statesPq.length then do
        let (state0, statesPq) ← heappop State.lt statesPq
        let (state1, statesPq) ← heappop State.lt statesPq
        mergeStates fuel (heappush State.lt statesPq (state0.merge state1))
      else .ok statesPq

def karmarkarKarp (seqlenList : List ℕ) (k : ℕ) (equalSize : Bool) :
    Except Error (List (List ℕ)) := do
  let groups ← initialItems seqlenList k equalSize
  let statesPq ← groups.foldlM (fun statesPq items => do
    let state ← State.new k items
    pure (heappush State.lt statesPq state)) []
  let statesPq ← mergeStates statesPq.length statesPq
  let finalState ← getItem statesPq 0
  let partitions := finalState.getPartitions
  if equalSize && !partitions.all (fun p => p.length * k == seqlenList.length) then
    .error .assertionError
  else .ok partitions

/-! ## The greedy method -/

/-- The loop that looks for the first part with the smallest sum. -/
def minIdx (partitionSums : List ℕ) (k : ℕ) : Option ℕ :=
  (List.range k).foldl (fun minIdx j =>
    match minIdx with
    | none => some j
    | some m => if partitionSums.getD j 0 < partitionSums.getD m 0 then some j else some m) none

/-- The body of the loop over the items, on the parts and their sums. -/
def greedyStep (k : ℕ) (st : List (List ℕ) × List ℕ) (item : ℕ × ℕ) :
    Except Error (List (List ℕ) × List ℕ) :=
  match minIdx st.2 k with
  | none => .error .typeError
  | some m => .ok (st.1.modify m (· ++ [item.2]), st.2.modify m (· + item.1))

def greedyPartition (seqlenList : List ℕ) (k : ℕ) (equalSize : Bool) :
    Except Error (List (List ℕ)) := do
  let bias := if equalSize then seqlenList.sum + 1 else 0
  let items := seqlenList.zipIdx.map (fun (seqlen, i) => (seqlen + bias, i))
  let (partitions, _) ← items.foldlM (greedyStep k) (List.replicate k [], List.replicate k 0)
  if equalSize && !partitions.all (fun p => p.length * k == seqlenList.length) then
    .error .assertionError
  else .ok partitions

/-! ## The function that is called -/

def checkAndSortPartitions (n k : ℕ) (partitions : List (List ℕ)) :
    Except Error (List (List ℕ)) := do
  if partitions.length ≠ k then .error .assertionError
  else
    let sortedPartitions ← partitions.mapM (fun partition =>
      if partition = [] then .error .assertionError
      else .ok (partition.insertionSort (· ≤ ·)))
    if partitions.flatten.toFinset = Finset.range n then .ok sortedPartitions
    else .error .assertionError

def getSeqlenBalancedPartitions (seqlenList : List ℕ) (k : ℕ) (equalSize : Bool) :
    Except Error (List (List ℕ)) :=
  if k ≤ seqlenList.length then do
    let partitions ← karmarkarKarp seqlenList k equalSize
    checkAndSortPartitions seqlenList.length k partitions
  else .error .assertionError

end RLCM.Balancing
