/-
# `RLCM.Lib.Lru` — a cache that forgets the least recently used entry

`touch` and `store` are what a hit and a miss do to the list of entries, the least
recently used first; `LruCache` bundles the operations of a cache with the laws
that say so.

A key that was used is still in the cache, with its value, as long as fewer than
`maxsize` other keys were used since: `Kept` is that statement for the entries, and
`Kept.touch` and `Kept.store` are its step lemmas.  An entry is dropped from the
front only, and before the key could get there, all entries behind it would have to
be of different keys used since.
-/
import Mathlib.Data.Finset.Card
import Mathlib.Data.List.Basic
import Mathlib.Data.List.Nodup

namespace Lru

variable {K V : Type} [DecidableEq K]

/-- An entry that is used becomes the most recent. -/
def touch (k : K) (v : V) (entries : List (K × V)) : List (K × V) :=
  entries.filter (fun e => e.1 ≠ k) ++ [(k, v)]

/-- A new entry is the most recent, and the oldest go where there is no room. -/
def store (maxsize : ℕ) (k : K) (v : V) (entries : List (K × V)) : List (K × V) :=
  entries.drop (entries.length + 1 - maxsize) ++ [(k, v)]

/-- A cache of at most `maxsize` entries. -/
structure LruCache (K V : Type) [DecidableEq K] where
  Cache : Type
  maxsize : ℕ
  new : Cache
  getItem : Cache → K → Option (V × Cache)
  setItem : Cache → K → V → Cache
  entries : Cache → List (K × V)
  entries_new : entries new = []
  getItem_eq_none : ∀ {c k}, getItem c k = none ↔ (entries c).lookup k = none
  entries_getItem : ∀ {c k v c'}, getItem c k = some (v, c') →
    (entries c).lookup k = some v ∧ entries c' = touch k v (entries c)
  entries_setItem : ∀ {c k v}, (entries c).lookup k = none →
    entries (setItem c k v) = store maxsize k v (entries c)

/-- The entries themselves, with the two operations on them. -/
def listCache (K V : Type) [DecidableEq K] (maxsize : ℕ) : LruCache K V where
  Cache := List (K × V)
  maxsize := maxsize
  new := []
  getItem c k := (c.lookup k).map (fun v => (v, touch k v c))
  setItem c k v := store maxsize k v c
  entries := id
  entries_new := rfl
  getItem_eq_none := Option.map_eq_none_iff
  entries_getItem h := by
    obtain ⟨v, hv, heq⟩ := Option.map_eq_some_iff.mp h
    cases heq
    exact ⟨hv, rfl⟩
  entries_setItem _ := rfl

/-! ## What stays in the cache -/

variable {k : K} {v : V} {recent : Finset K} {entries : List (K × V)} {maxsize : ℕ}

/-- Every key has one entry, that of `k` holds `v`, and the entries after it are of
keys in `recent`. -/
structure Kept (k : K) (v : V) (recent : Finset K) (entries : List (K × V)) : Prop where
  nodup : (entries.map Prod.fst).Nodup
  split : ∃ old newer, entries = old ++ (k, v) :: newer ∧ ∀ e ∈ newer, e.1 ∈ recent

theorem lookup_eq_none_iff {entries : List (K × V)} {x : K} :
    entries.lookup x = none ↔ x ∉ entries.map Prod.fst := by
  induction entries with
  | nil => simp
  | cons e entries ih =>
      obtain ⟨y, w⟩ := e
      rw [List.lookup_cons, List.map_cons, List.mem_cons, not_or]
      cases hxy : x == y with
      | true =>
          have heq : x = y := beq_iff_eq.mp hxy
          simp [heq]
      | false =>
          have hne : x ≠ y := beq_eq_false_iff_ne.mp hxy
          exact ih.trans ⟨fun h => ⟨hne, h⟩, fun h => h.2⟩

theorem Kept.lookup (h : Kept k v recent entries) : entries.lookup k = some v := by
  obtain ⟨old, newer, rfl, _⟩ := h.split
  have hnodup := h.nodup
  rw [List.map_append, List.map_cons] at hnodup
  have hold : old.lookup k = none := by
    refine lookup_eq_none_iff.mpr (fun hmem => ?_)
    exact List.disjoint_of_nodup_append hnodup hmem List.mem_cons_self
  rw [List.lookup_append, hold, List.lookup_cons_self]
  rfl

/-- The entry that is used. -/
theorem kept_touch (hnodup : (entries.map Prod.fst).Nodup) :
    Kept k v ∅ (touch k v entries) where
  nodup := by
    have hfilter : ((entries.filter (fun e => e.1 ≠ k)).map Prod.fst).Nodup :=
      hnodup.sublist (List.filter_sublist.map _)
    rw [touch, List.map_append, List.map_singleton]
    refine hfilter.append (List.nodup_singleton k) ?_
    intro x hx hxk
    rw [List.mem_singleton] at hxk
    subst hxk
    obtain ⟨e, he, rfl⟩ := List.mem_map.mp hx
    simp at he
  split := ⟨entries.filter (fun e => e.1 ≠ k), [], rfl, fun e he => absurd he List.not_mem_nil⟩

/-- The entry that is new. -/
theorem kept_store (hnodup : (entries.map Prod.fst).Nodup) (hnew : entries.lookup k = none)
    (maxsize : ℕ) : Kept k v ∅ (store maxsize k v entries) where
  nodup := by
    have hdrop : ((entries.drop (entries.length + 1 - maxsize)).map Prod.fst).Nodup :=
      hnodup.sublist ((List.drop_sublist _ _).map _)
    rw [store, List.map_append, List.map_singleton]
    refine hdrop.append (List.nodup_singleton k) ?_
    intro x hx hxk
    rw [List.mem_singleton] at hxk
    subst hxk
    refine lookup_eq_none_iff.mp hnew ?_
    obtain ⟨e, he, rfl⟩ := List.mem_map.mp hx
    exact List.mem_map.mpr ⟨e, List.mem_of_mem_drop he, rfl⟩
  split := ⟨_, [], rfl, fun e he => absurd he List.not_mem_nil⟩

omit [DecidableEq K] in
theorem Kept.mono {recent' : Finset K} (h : Kept k v recent entries) (hle : recent ⊆ recent') :
    Kept k v recent' entries where
  nodup := h.nodup
  split := by
    obtain ⟨old, newer, heq, hnewer⟩ := h.split
    exact ⟨old, newer, heq, fun e he => hle (hnewer e he)⟩

variable {x : K} {w : V}

/-- A hit on another key moves that key behind. -/
theorem Kept.touch (h : Kept k v recent entries) (hx : x ≠ k) :
    Kept k v (insert x recent) (touch x w entries) where
  nodup := (kept_touch h.nodup).nodup
  split := by
    obtain ⟨old, newer, rfl, hnewer⟩ := h.split
    refine ⟨old.filter (fun e => e.1 ≠ x), newer.filter (fun e => e.1 ≠ x) ++ [(x, w)], ?_, ?_⟩
    · have hk : decide ((k, v).1 ≠ x) = true := decide_eq_true hx.symm
      rw [Lru.touch, List.filter_append, List.filter_cons, if_pos hk, List.append_assoc]
      rfl
    · intro e he
      rcases List.mem_append.mp he with he | he
      · exact Finset.mem_insert_of_mem (hnewer e (List.mem_filter.mp he).1)
      · rw [List.mem_singleton.mp he]
        exact Finset.mem_insert_self x recent

/-- A miss on another key drops older entries only, as long as the keys used since
leave room. -/
theorem Kept.store (h : Kept k v recent entries) (hx : x ≠ k)
    (hnew : entries.lookup x = none) (hroom : (insert x recent).card < maxsize) :
    Kept k v (insert x recent) (store maxsize x w entries) where
  nodup := (kept_store h.nodup hnew maxsize).nodup
  split := by
    obtain ⟨old, newer, rfl, hnewer⟩ := h.split
    -- the entries behind `k` are of different keys used since, and `x` is one more
    have hcount : newer.length + 1 ≤ (insert x recent).card := by
      have hnodup := h.nodup
      rw [List.map_append, List.map_cons] at hnodup
      have hbehind : (x :: newer.map Prod.fst).Nodup := by
        refine List.nodup_cons.mpr ⟨fun hmem => ?_, hnodup.of_append_right.of_cons⟩
        refine lookup_eq_none_iff.mp hnew ?_
        rw [List.map_append, List.map_cons]
        exact List.mem_append_right _ (List.mem_cons_of_mem _ hmem)
      have hsubset : (x :: newer.map Prod.fst).toFinset ⊆ insert x recent := by
        intro y hy
        rw [List.mem_toFinset] at hy
        rcases List.mem_cons.mp hy with rfl | hy
        · exact Finset.mem_insert_self y recent
        · obtain ⟨e, he, rfl⟩ := List.mem_map.mp hy
          exact Finset.mem_insert_of_mem (hnewer e he)
      have hle := Finset.card_le_card hsubset
      rwa [List.toFinset_card_of_nodup hbehind, List.length_cons, List.length_map] at hle
    have hdrop : (old ++ (k, v) :: newer).length + 1 - maxsize ≤ old.length := by
      rw [List.length_append, List.length_cons]
      omega
    refine ⟨old.drop ((old ++ (k, v) :: newer).length + 1 - maxsize), newer ++ [(x, w)], ?_, ?_⟩
    · rw [Lru.store, List.drop_append_of_le_length hdrop, List.append_assoc]
      rfl
    · intro e he
      rcases List.mem_append.mp he with he | he
      · exact Finset.mem_insert_of_mem (hnewer e he)
      · rw [List.mem_singleton.mp he]
        exact Finset.mem_insert_self x recent

end Lru
