/-
# `RLCM.Py.Dict` — dictionaries built by a loop

A Python `dict` is Mathlib's association list `AList`: at most one value a
key, later assignments win.  Two loops over pairs occur again and again,

    for k, v in pairs: d[k] = v
    for k, v in pairs: d.setdefault(k, []).append(v)

(the second also as `defaultdict(list)`), and the lemmas say what a lookup
finds after each: the last value assigned to the key, and the values of the
key in the order in which they came.
-/
import Mathlib.Algebra.BigOperators.Group.List.Basic
import Mathlib.Data.List.AList
import Mathlib.Data.List.Induction

namespace Py

universe u v

variable {κ : Type u} {ν : Type v} [DecidableEq κ]

/-- A dictionary with keys `κ` and values `ν`. -/
abbrev Dict (κ : Type u) (ν : Type v) := AList (fun _ : κ => ν)

namespace Dict

def getD (d : Dict κ ν) (k : κ) (default : ν) : ν := (d.lookup k).getD default

/-- `d.setdefault(k, []).append(v)`. -/
def append (d : Dict κ (List ν)) (k : κ) (v : ν) : Dict κ (List ν) :=
  d.insert k (d.getD k [] ++ [v])

/-- `d.setdefault(k, []).extend(vs)`. -/
def extend (d : Dict κ (List ν)) (k : κ) (vs : List ν) : Dict κ (List ν) :=
  d.insert k (d.getD k [] ++ vs)

/-- The loop `for k, v in pairs: d[k] = v`. -/
def assign (d : Dict κ ν) (pairs : List (κ × ν)) : Dict κ ν :=
  pairs.foldl (fun d kv => d.insert kv.1 kv.2) d

/-- The loop `for k, v in pairs: d.setdefault(k, []).append(v)`, from the
empty dictionary. -/
def group (pairs : List (κ × ν)) : Dict κ (List ν) :=
  pairs.foldl (fun d kv => append d kv.1 kv.2) ∅

/-- The values that come with key `k`, in order. -/
def valuesAt (pairs : List (κ × ν)) (k : κ) : List ν :=
  (pairs.filter (fun kv => kv.1 = k)).map Prod.snd

theorem mem_iff_exists_lookup {d : Dict κ ν} {k : κ} : k ∈ d ↔ ∃ v, d.lookup k = some v := by
  rw [← AList.lookup_isSome, Option.isSome_iff_exists]

theorem getD_of_lookup {d : Dict κ ν} {k : κ} {v : ν} (h : d.lookup k = some v) (default : ν) :
    d.getD k default = v := by
  rw [getD, h, Option.getD_some]

theorem forall_entries_iff {d : Dict κ ν} {p : ν → Prop} (default : ν) :
    (∀ kv ∈ d.entries, p kv.2) ↔ ∀ k ∈ d, p (d.getD k default) := by
  constructor
  · intro h k hk
    obtain ⟨v, hv⟩ := mem_iff_exists_lookup.mp hk
    rw [getD_of_lookup hv]
    exact h ⟨k, v⟩ (AList.mem_lookup_iff.mp hv)
  · rintro h ⟨k, v⟩ hkv
    have hv : d.lookup k = some v := AList.mem_lookup_iff.mpr hkv
    have hk := h k (mem_iff_exists_lookup.mpr ⟨v, hv⟩)
    rwa [getD_of_lookup hv] at hk

/-! ## Grouping -/

@[simp] theorem valuesAt_nil (k : κ) : valuesAt ([] : List (κ × ν)) k = [] := rfl

theorem valuesAt_append (xs ys : List (κ × ν)) (k : κ) :
    valuesAt (xs ++ ys) k = valuesAt xs k ++ valuesAt ys k := by
  simp [valuesAt]

theorem valuesAt_snoc (xs : List (κ × ν)) (k' : κ) (v : ν) (k : κ) :
    valuesAt (xs ++ [(k', v)]) k = valuesAt xs k ++ if k' = k then [v] else [] := by
  rw [valuesAt_append]
  by_cases h : k' = k
  · simp [valuesAt, h]
  · simp [valuesAt, h]

theorem valuesAt_eq_nil {pairs : List (κ × ν)} {k : κ}
    (h : ∀ kv ∈ pairs, kv.1 ≠ k) : valuesAt pairs k = [] := by
  simp only [valuesAt, List.map_eq_nil_iff, List.filter_eq_nil_iff, decide_eq_true_eq]
  exact h

theorem valuesAt_eq_map {pairs : List (κ × ν)} {k : κ}
    (h : ∀ kv ∈ pairs, kv.1 = k) : valuesAt pairs k = pairs.map Prod.snd := by
  simp only [valuesAt]
  rw [List.filter_eq_self.mpr (fun kv hkv => by simpa using h kv hkv)]

theorem mem_valuesAt_zip {keys : List κ} {values : List ν} {k : κ} {v : ν} :
    v ∈ valuesAt (keys.zip values) k ↔ ∃ i : Nat, keys[i]? = some k ∧ values[i]? = some v := by
  simp only [valuesAt, List.mem_map, List.mem_filter, decide_eq_true_eq]
  constructor
  · rintro ⟨kv, ⟨hmem, hk⟩, hv⟩
    obtain ⟨i, hi⟩ := List.mem_iff_getElem?.mp hmem
    obtain ⟨hki, hvi⟩ := List.getElem?_zip_eq_some.mp hi
    exact ⟨i, by rw [hki, hk], by rw [hvi, hv]⟩
  · rintro ⟨i, hk, hv⟩
    have hi : (keys.zip values)[i]? = some (k, v) := List.getElem?_zip_eq_some.mpr ⟨hk, hv⟩
    exact ⟨(k, v), ⟨List.mem_of_getElem? hi, rfl⟩, rfl⟩

theorem valuesAt_zip_map {ν' : Type v} (keys : List κ) (values : List ν) (f : ν → ν') (k : κ) :
    valuesAt (keys.zip (values.map f)) k = (valuesAt (keys.zip values) k).map f := by
  induction keys generalizing values with
  | nil => rfl
  | cons key keys ih =>
      cases values with
      | nil => rfl
      | cons v values =>
          have htail := ih values
          simp only [valuesAt] at htail ⊢
          by_cases hkey : key = k
          · simp [hkey, htail]
          · simp [hkey, htail]

/-- Two lists of values that agree wherever the key is `k` hold the same for
`k`. -/
theorem valuesAt_zip_congr {keys : List κ} {values values' : List ν} {k : κ}
    (hlen : values.length = values'.length)
    (h : ∀ i : Nat, keys[i]? = some k → values[i]? = values'[i]?) :
    valuesAt (keys.zip values) k = valuesAt (keys.zip values') k := by
  induction keys generalizing values values' with
  | nil => rfl
  | cons key keys ih =>
      cases values with
      | nil =>
          have : values' = [] := List.length_eq_zero_iff.mp hlen.symm
          rw [this]
      | cons v values =>
          cases values' with
          | nil => cases hlen
          | cons v' values' =>
              have htail := ih (Nat.succ.inj hlen) (fun i hi => by
                have := h (i + 1) (by simpa using hi)
                simpa using this)
              simp only [List.zip_cons_cons]
              by_cases hkey : key = k
              · have hhead : v = v' := by
                  have := h 0 (by simp [hkey])
                  simpa using this
                simp only [valuesAt, hhead] at htail ⊢
                simp [hkey, htail]
              · simp only [valuesAt] at htail ⊢
                simp [hkey, htail]

theorem getD_append (d : Dict κ (List ν)) (k' : κ) (v : ν) (k : κ) :
    (append d k' v).getD k [] = d.getD k [] ++ if k' = k then [v] else [] := by
  by_cases h : k' = k
  · subst h
    simp [append, getD, AList.lookup_insert]
  · simp [append, getD, AList.lookup_insert_ne (Ne.symm h), h]

/-- After the whole loop, a key holds its own values in order of arrival. -/
theorem getD_group (pairs : List (κ × ν)) (k : κ) :
    (group pairs).getD k [] = valuesAt pairs k := by
  induction pairs using List.reverseRecOn with
  | nil => simp [group, getD, AList.lookup_empty]
  | append_singleton xs kv ih =>
      simp only [group, List.foldl_append, List.foldl_cons, List.foldl_nil]
      rw [getD_append, valuesAt_snoc]
      simp only [group] at ih
      rw [ih]

theorem lookup_group {pairs : List (κ × ν)} {k : κ} (h : valuesAt pairs k ≠ []) :
    (group pairs).lookup k = some (valuesAt pairs k) := by
  have hg := getD_group pairs k
  cases hl : (group pairs).lookup k with
  | none =>
      simp only [getD, hl, Option.getD_none] at hg
      exact absurd hg.symm h
  | some vs =>
      simp only [getD, hl, Option.getD_some] at hg
      rw [hg]

theorem mem_keys_group {pairs : List (κ × ν)} {k : κ} :
    k ∈ (group pairs).keys ↔ ∃ kv ∈ pairs, kv.1 = k := by
  rw [← AList.mem_keys]
  induction pairs using List.reverseRecOn with
  | nil =>
      refine ⟨fun h => absurd h (AList.notMem_empty k), ?_⟩
      rintro ⟨kv, hmem, -⟩
      cases hmem
  | append_singleton pairs kv ih =>
      rw [group, List.foldl_append, List.foldl_cons, List.foldl_nil, append, AList.mem_insert]
      rw [group] at ih
      simp only [ih, List.mem_append, List.mem_singleton, or_and_right, exists_or,
        exists_eq_left]
      rw [or_comm, eq_comm]

/-- With pairwise different keys, one pass that keeps a single key keeps one
entry. -/
theorem flatMap_key {α : Type u} {key : α → κ} {xs : List α} (hkeys : (xs.map key).Nodup)
    {x : α} (hx : x ∈ xs) (entries : α → List ν) :
    xs.flatMap (fun y => if key y = key x then entries y else []) = entries x := by
  induction xs with
  | nil => cases hx
  | cons y ys ih =>
      rw [List.map_cons, List.nodup_cons] at hkeys
      rw [List.flatMap_cons]
      rcases List.mem_cons.mp hx with rfl | hx
      · have hrest : ys.flatMap (fun y => if key y = key x then entries y else []) = [] := by
          rw [List.flatMap_eq_nil_iff]
          intro y hy
          refine if_neg (fun hEq => hkeys.1 ?_)
          rw [← hEq]
          exact List.mem_map_of_mem hy
        rw [if_pos rfl, hrest, List.append_nil]
      · have hne : ¬ key y = key x := by
          intro hEq
          refine hkeys.1 ?_
          rw [hEq]
          exact List.mem_map_of_mem hx
        rw [if_neg hne, List.nil_append]
        exact ih hkeys.2 hx

theorem flatMap_valuesAt_perm {keys : List κ} (hnodup : keys.Nodup) {pairs : List (κ × ν)}
    (hkeys : ∀ kv ∈ pairs, kv.1 ∈ keys) :
    (keys.flatMap (valuesAt pairs)).Perm (pairs.map Prod.snd) := by
  induction pairs with
  | nil => simp [valuesAt]
  | cons kv pairs ih =>
      have hone : keys.flatMap (fun k => if k = kv.1 then [kv.2] else []) = [kv.2] :=
        @flatMap_key κ ν _ κ id keys (by rwa [List.map_id]) kv.1 (hkeys kv List.mem_cons_self)
          (fun _ => [kv.2])
      have hsplit : valuesAt (kv :: pairs) =
          fun k => (if k = kv.1 then [kv.2] else []) ++ valuesAt pairs k := by
        funext k
        rw [← List.singleton_append, valuesAt_append]
        by_cases hk : kv.1 = k
        · simp [valuesAt, hk]
        · simp [valuesAt, hk, Ne.symm hk]
      rw [hsplit]
      refine (List.flatMap_append_perm keys _ _).symm.trans ?_
      rw [hone, List.map_cons]
      exact (ih (fun kv' h => hkeys kv' (List.mem_cons_of_mem _ h))).cons kv.2

/-! ## Extending by a dictionary -/

theorem getD_extend (d : Dict κ (List ν)) (k' : κ) (vs : List ν) (k : κ) :
    (extend d k' vs).getD k [] = d.getD k [] ++ if k' = k then vs else [] := by
  by_cases h : k' = k
  · subst h
    simp [extend, getD, AList.lookup_insert]
  · simp [extend, getD, AList.lookup_insert_ne (Ne.symm h), h]

/-- The loop `for k, v in e.items(): d[k].extend(f(v))`: every key is extended by
what `e` holds for it. -/
theorem getD_foldl_extend {ω : Type v} (f : ω → List ν) {entries : List (Sigma fun _ : κ => ω)}
    (hkeys : entries.NodupKeys) (d : Dict κ (List ν)) (k : κ) :
    (entries.foldl (fun d kv => extend d kv.1 (f kv.2)) d).getD k [] =
      d.getD k [] ++ ((entries.dlookup k).map f).getD [] := by
  induction entries generalizing d with
  | nil => simp
  | cons kv entries ih =>
      obtain ⟨hfresh, hkeys⟩ := List.nodupKeys_cons.mp hkeys
      rw [List.foldl_cons, ih hkeys, getD_extend]
      by_cases h : kv.1 = k
      · subst h
        have hnone : entries.dlookup kv.1 = none := List.dlookup_eq_none.mpr hfresh
        rw [hnone, List.dlookup_cons_eq]
        simp
      · rw [List.dlookup_cons_ne _ _ (Ne.symm h), if_neg h, List.append_nil]

theorem mem_foldl_extend {ω : Type v} (f : ω → List ν) (entries : List (Sigma fun _ : κ => ω))
    (d : Dict κ (List ν)) (k : κ) :
    k ∈ entries.foldl (fun d kv => extend d kv.1 (f kv.2)) d ↔ k ∈ d ∨ k ∈ entries.keys := by
  induction entries generalizing d with
  | nil => simp
  | cons kv entries ih =>
      rw [List.foldl_cons, ih, extend, AList.mem_insert, List.keys_cons, List.mem_cons]
      tauto

/-! ## Assigning -/

theorem lookup_assign_of_forall_ne {pairs : List (κ × ν)} {k : κ} (d : Dict κ ν)
    (h : ∀ kv ∈ pairs, kv.1 ≠ k) : (assign d pairs).lookup k = d.lookup k := by
  induction pairs generalizing d with
  | nil => rfl
  | cons kv pairs ih =>
      simp only [assign, List.foldl_cons]
      have hkv := h kv List.mem_cons_self
      rw [← assign, ih _ (fun p hp => h p (List.mem_cons_of_mem _ hp)),
        AList.lookup_insert_ne (Ne.symm hkv)]

/-- With pairwise different keys every pair can be looked up afterwards. -/
theorem lookup_assign {pairs : List (κ × ν)} {k : κ} {v : ν} (d : Dict κ ν)
    (hk : (pairs.map Prod.fst).Nodup) (h : (k, v) ∈ pairs) :
    (assign d pairs).lookup k = some v := by
  induction pairs generalizing d with
  | nil => cases h
  | cons kv pairs ih =>
      simp only [List.map_cons, List.nodup_cons] at hk
      simp only [assign, List.foldl_cons]
      rw [← assign]
      rcases List.mem_cons.mp h with h | h
      · subst h
        rw [lookup_assign_of_forall_ne, AList.lookup_insert]
        intro p hp hpk
        exact hk.1 (List.mem_map.mpr ⟨p, hp, hpk⟩)
      · exact ih _ hk.2 h

/-- `{k: f(v) for k, v in d.items()}`. -/
theorem lookup_assign_entries {ω : Type v} (d : Dict κ ν) (f : ν → ω) (k : κ) :
    (assign ∅ (d.entries.map (fun e => (e.1, f e.2)))).lookup k = (d.lookup k).map f := by
  cases hlook : d.lookup k with
  | some v =>
      refine lookup_assign ∅ ?_ ?_
      · rw [List.map_map]
        exact d.nodupKeys
      · exact List.mem_map.mpr ⟨⟨k, v⟩, AList.mem_lookup_iff.mp hlook, rfl⟩
  | none =>
      rw [lookup_assign_of_forall_ne]
      · rfl
      · intro kv hkv hk
        obtain ⟨e, he, rfl⟩ := List.mem_map.mp hkv
        subst hk
        rw [AList.mem_lookup_iff.mpr he] at hlook
        cases hlook

/-! ## Updating values in place -/

/-- `d[k] = f(d[k])`, for a key of the dictionary. -/
def modify (d : Dict κ ν) (k : κ) (f : ν → ν) : Dict κ ν :=
  match d.lookup k with
  | some v => d.insert k (f v)
  | none => d

theorem lookup_modify (d : Dict κ ν) (k' : κ) (f : ν → ν) (k : κ) :
    (modify d k' f).lookup k = if k' = k then (d.lookup k).map f else d.lookup k := by
  unfold modify
  by_cases h : k' = k
  · subst h
    rw [if_pos rfl]
    cases hlook : d.lookup k' with
    | none => exact hlook
    | some v => exact AList.lookup_insert d
  · rw [if_neg h]
    cases hlook : d.lookup k' with
    | none => rfl
    | some v => exact AList.lookup_insert_ne (Ne.symm h)

/-- The loop `for k, x in pairs: d[k] = upd(d[k], x)`. -/
def tally {β : Type*} (upd : ν → β → ν) (d : Dict κ ν) (pairs : List (κ × β)) : Dict κ ν :=
  pairs.foldl (fun d kx => modify d kx.1 (fun v => upd v kx.2)) d

/-- Under each key the loop over the pairs is the loop over that key's values. -/
theorem lookup_tally {β : Type*} (upd : ν → β → ν) (pairs : List (κ × β)) (d : Dict κ ν)
    (k : κ) :
    (tally upd d pairs).lookup k = (d.lookup k).map (fun v => (valuesAt pairs k).foldl upd v) := by
  induction pairs generalizing d with
  | nil => exact Option.map_id'.symm
  | cons kx pairs ih =>
      rw [tally, List.foldl_cons, ← tally, ih, lookup_modify]
      by_cases h : kx.1 = k
      · rw [if_pos h, Option.map_map, valuesAt, valuesAt,
          List.filter_cons_of_pos (by exact decide_eq_true h)]
        rfl
      · rw [if_neg h, valuesAt, valuesAt,
          List.filter_cons_of_neg (by simpa using h)]

theorem lookup_assign_const (d : Dict κ ν) (v : ν) (keys : List κ) (k : κ) :
    (assign d (keys.map (fun k => (k, v)))).lookup k =
      if k ∈ keys then some v else d.lookup k := by
  induction keys generalizing d with
  | nil => rfl
  | cons k' keys ih =>
      rw [List.map_cons, assign, List.foldl_cons, ← assign, ih]
      by_cases hmem : k ∈ keys
      · rw [if_pos hmem, if_pos (List.mem_cons_of_mem _ hmem)]
      · rw [if_neg hmem]
        by_cases h : k = k'
        · subst h
          rw [if_pos List.mem_cons_self]
          exact AList.lookup_insert d
        · rw [if_neg (by simp [h, hmem])]
          exact AList.lookup_insert_ne h

theorem foldl_add {σ β M : Type*} [AddCommMonoid M] (upd : σ → β → σ) (field : σ → M)
    (inc : β → M) {xs : List β} (h : ∀ s, ∀ x ∈ xs, field (upd s x) = field s + inc x) (s : σ) :
    field (xs.foldl upd s) = field s + (xs.map inc).sum := by
  induction xs generalizing s with
  | nil => simp
  | cons x xs ih =>
      rw [List.foldl_cons, ih (fun t y hy => h t y (List.mem_cons_of_mem _ hy)),
        h s x List.mem_cons_self, List.map_cons, List.sum_cons, add_assoc]

end Dict

/-! ## Numbered nested loops

A loop over keys around a loop over `range n`, whose bodies are numbered in
the order in which they run: the body of key `k` and inner index `i` has
number `idxOf k * n + i`. -/

section Nested

variable {n : Nat}

/-- The values a numbered nested loop leaves under each key. -/
def nested (keys : List κ) (n : Nat) (f : Nat → κ → Nat → ν) : List (κ × ν) :=
  (keys.flatMap (fun k => (List.range n).map (fun i => (k, i)))).mapIdx
    (fun j ki => (ki.1, f j ki.1 ki.2))

omit [DecidableEq κ] in
theorem nested_cons (k : κ) (keys : List κ) (f : Nat → κ → Nat → ν) :
    nested (k :: keys) n f =
      (List.range n).map (fun i => (k, f i k i)) ++
        nested keys n (fun j => f (j + n)) := by
  simp only [nested, List.flatMap_cons, List.mapIdx_append, List.length_map, List.length_range]
  congr 1
  apply List.ext_getElem
  · simp
  · intro i h₁ h₂
    simp

omit [DecidableEq κ] in
theorem fst_mem_of_mem_nested {keys : List κ} {f : Nat → κ → Nat → ν} {kv : κ × ν}
    (h : kv ∈ nested keys n f) : kv.1 ∈ keys := by
  simp only [nested, List.mem_mapIdx] at h
  obtain ⟨j, hj, rfl⟩ := h
  have hmem := List.getElem_mem hj
  simp only [List.mem_flatMap, List.mem_map] at hmem
  obtain ⟨k, hk, i, _, hki⟩ := hmem
  rw [← hki]
  exact hk

/-- Each key keeps exactly the `n` values of its own inner loop, in order. -/
theorem valuesAt_nested {keys : List κ} (hnodup : keys.Nodup) {k : κ} (hk : k ∈ keys)
    (f : Nat → κ → Nat → ν) :
    Dict.valuesAt (nested keys n f) k =
      (List.range n).map (fun i => f (keys.idxOf k * n + i) k i) := by
  induction keys generalizing f with
  | nil => cases hk
  | cons k' keys ih =>
      rw [List.nodup_cons] at hnodup
      rw [nested_cons, Dict.valuesAt_append]
      by_cases h : k' = k
      · subst h
        have hrest : Dict.valuesAt (nested keys n (fun j => f (j + n))) k' = [] :=
          Dict.valuesAt_eq_nil (fun kv hkv hEq => hnodup.1 (hEq ▸ fst_mem_of_mem_nested hkv))
        have hhead : Dict.valuesAt ((List.range n).map (fun i => (k', f i k' i))) k' =
            ((List.range n).map (fun i => (k', f i k' i))).map Prod.snd :=
          Dict.valuesAt_eq_map (by simp)
        rw [hrest, hhead, List.idxOf_cons_self]
        simp
      · have hmem : k ∈ keys := (List.mem_cons.mp hk).resolve_left (fun hEq => h hEq.symm)
        have hhead : Dict.valuesAt ((List.range n).map (fun i => (k', f i k' i))) k = [] :=
          Dict.valuesAt_eq_nil (by simpa using fun _ _ => h)
        rw [hhead, List.nil_append, ih hnodup.2 hmem, List.idxOf_cons_ne _ h]
        apply List.map_congr_left
        intro i _
        congr 1
        rw [Nat.succ_mul]
        exact Nat.add_right_comm _ _ _

end Nested

end Py
