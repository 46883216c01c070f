/-
# `RLCM.Py.Error` — exceptions, and loops that may raise

A Python function that may raise is a Lean function into `Except Py.Error`.
The lemmas here say when a loop written with `mapM` or `foldlM` runs to its
end: it is enough that no iteration raises.  Everything later that proves "the
code returns" goes through them, so no proof unfolds a monadic loop by hand.
-/
import Mathlib.Data.List.Basic
import Mathlib.Control.Basic
import Mathlib.Data.List.Forall2
import Mathlib.Data.List.Induction

namespace Py

/-- The exception classes the modelled code raises, with their message where
the source gives one. -/
inductive Error where
  | valueError (msg : String)
  | indexError
  | keyError
  | typeError
  | attributeError
  | overflowError
  | zeroDivisionError
  | unboundLocalError
  | assertionError
  | runtimeError (msg : String)
  | fileNotFoundError (msg : String)
deriving DecidableEq, Repr

universe u

variable {α β σ : Type u}

/-- `xs[i]`, raising `IndexError` past the end. -/
def getItem (xs : List α) (i : Nat) : Except Error α :=
  match xs[i]? with
  | some x => .ok x
  | none => .error .indexError

/-- `xs[i] = x`, raising `IndexError` past the end. -/
def setItem (xs : List α) (i : Nat) (x : α) : Except Error (List α) :=
  if i < xs.length then .ok (xs.set i x) else .error .indexError

/-- `max(xs)`, raising `ValueError` on nothing. -/
def maxItem : List Nat → Except Error Nat
  | [] => .error (.valueError "max() arg is an empty sequence")
  | x :: xs => .ok (xs.foldl max x)

/-- Indexing returns exactly the element that is there. -/
theorem getItem_eq_ok {xs : List α} {i : Nat} {x : α} :
    getItem xs i = .ok x ↔ xs[i]? = some x := by
  unfold getItem
  cases xs[i]? with
  | none => simp
  | some y => simp

theorem getItem_of_lt {xs : List α} {i : Nat} (h : i < xs.length) :
    getItem xs i = .ok xs[i] :=
  getItem_eq_ok.mpr (List.getElem?_eq_getElem h)

/-- The maximum of something bounds it. -/
theorem maxItem_ok {xs : List Nat} (h : xs ≠ []) :
    ∃ m, maxItem xs = .ok m ∧ ∀ x ∈ xs, x ≤ m := by
  cases xs with
  | nil => exact absurd rfl h
  | cons x xs =>
      have hmax : (x :: xs).max? = some (xs.foldl max x) := rfl
      exact ⟨_, rfl, (List.max?_eq_some_iff.mp hmax).2⟩

theorem mem_of_maxItem {xs : List Nat} {m : Nat} (h : maxItem xs = .ok m) : m ∈ xs := by
  cases xs with
  | nil => cases h
  | cons x xs =>
      cases h
      exact List.max?_mem (rfl : (x :: xs).max? = some (xs.foldl max x))

/-! ## One step -/

@[simp] theorem ok_bind (a : α) (f : α → Except Error β) :
    ((Except.ok a : Except Error α) >>= f) = f a := rfl

@[simp] theorem error_bind (e : Error) (f : α → Except Error β) :
    ((Except.error e : Except Error α) >>= f) = .error e := rfl

@[simp] theorem pure_eq_ok (a : α) : (pure a : Except Error α) = .ok a := rfl

/-- The result of a bind is a value exactly when both halves are. -/
theorem bind_eq_ok {x : Except Error α} {f : α → Except Error β} {b : β} :
    (x >>= f) = .ok b ↔ ∃ a, x = .ok a ∧ f a = .ok b := by
  cases x with
  | error e =>
      constructor
      · intro h
        cases h
      · rintro ⟨_, h, _⟩
        cases h
  | ok a =>
      constructor
      · intro h
        exact ⟨a, rfl, h⟩
      · rintro ⟨_, h, hf⟩
        cases h
        exact hf

/-! ## Loops -/

theorem mapM_eq_map {f : α → Except Error β} {g : α → β} {xs : List α}
    (h : ∀ x ∈ xs, f x = .ok (g x)) : xs.mapM f = .ok (xs.map g) := by
  induction xs with
  | nil => rfl
  | cons x xs ih =>
      have hx := h x List.mem_cons_self
      have hxs := ih (fun y hy => h y (List.mem_cons_of_mem _ hy))
      simp only [List.mapM_cons, hx, hxs, ok_bind, pure_eq_ok, List.map_cons]

/-- A loop whose body never raises is a plain fold. -/
theorem foldlM_eq_foldl {f : σ → α → Except Error σ} {g : σ → α → σ} {xs : List α}
    (h : ∀ s, ∀ x ∈ xs, f s x = .ok (g s x)) (s : σ) :
    xs.foldlM f s = .ok (xs.foldl g s) := by
  induction xs generalizing s with
  | nil => rfl
  | cons x xs ih =>
      have hx := h s x List.mem_cons_self
      have hxs := ih (fun t y hy => h t y (List.mem_cons_of_mem _ hy)) (g s x)
      simp only [List.foldlM_cons, hx, ok_bind, hxs, List.foldl_cons]

/-- Bodies that do the same on the items make the same loop. -/
theorem foldlM_congr {f g : σ → α → Except Error σ} {xs : List α}
    (h : ∀ s, ∀ x ∈ xs, f s x = g s x) (s : σ) : xs.foldlM f s = xs.foldlM g s := by
  induction xs generalizing s with
  | nil => rfl
  | cons x xs ih =>
      rw [List.foldlM_cons, List.foldlM_cons, h s x List.mem_cons_self]
      cases g s x with
      | error e => rfl
      | ok t => exact ih (fun t y hy => h t y (List.mem_cons_of_mem _ hy)) t

/-- A comprehension returns exactly when every body does. -/
theorem mapM_eq_ok {f : α → Except Error β} {xs : List α} {ys : List β} :
    xs.mapM f = .ok ys ↔ List.Forall₂ (fun x y => f x = .ok y) xs ys := by
  induction xs generalizing ys with
  | nil =>
      simp only [List.mapM_nil, pure_eq_ok, Except.ok.injEq, List.forall₂_nil_left_iff]
      exact eq_comm
  | cons x xs ih =>
      simp only [List.mapM_cons, bind_eq_ok, pure_eq_ok, Except.ok.injEq,
        List.forall₂_cons_left_iff, ih]
      constructor
      · rintro ⟨y, hy, ys', hys, rfl⟩
        exact ⟨y, ys', hy, hys, rfl⟩
      · rintro ⟨y, ys', hy, hys, rfl⟩
        exact ⟨y, hy, ys', hys, rfl⟩

/-- An entry of the result comes from the entry of the input. -/
theorem getElem?_of_mapM {f : α → Except Error β} {xs : List α} {ys : List β}
    (h : xs.mapM f = .ok ys) {i : Nat} {x : α} (hx : xs[i]? = some x) :
    ∃ y, ys[i]? = some y ∧ f x = .ok y := by
  have hforall := mapM_eq_ok.mp h
  obtain ⟨hi, hxi⟩ := List.getElem?_eq_some_iff.mp hx
  have hi' : i < ys.length := by
    rw [← hforall.length_eq]
    exact hi
  refine ⟨ys[i], List.getElem?_eq_getElem hi', ?_⟩
  rw [← hxi]
  exact hforall.get hi hi'

/-- Every item has its result, and every result its item. -/
theorem mem_of_mapM {f : α → Except Error β} {xs : List α} {ys : List β}
    (h : xs.mapM f = .ok ys) :
    (∀ x ∈ xs, ∃ y ∈ ys, f x = .ok y) ∧ ∀ y ∈ ys, ∃ x ∈ xs, f x = .ok y := by
  have hforall := mapM_eq_ok.mp h
  clear h
  induction hforall with
  | nil => exact ⟨fun x hx => absurd hx List.not_mem_nil, fun y hy => absurd hy List.not_mem_nil⟩
  | cons hxy _ ih =>
      constructor
      · intro x' hx'
        rcases List.mem_cons.mp hx' with rfl | hx'
        · exact ⟨_, List.mem_cons_self, hxy⟩
        · obtain ⟨y', hy', hxy'⟩ := ih.1 x' hx'
          exact ⟨y', List.mem_cons_of_mem _ hy', hxy'⟩
      · intro y' hy'
        rcases List.mem_cons.mp hy' with rfl | hy'
        · exact ⟨_, List.mem_cons_self, hxy⟩
        · obtain ⟨x', hx', hxy'⟩ := ih.2 y' hy'
          exact ⟨x', List.mem_cons_of_mem _ hx', hxy'⟩

theorem mapM_returns {f : α → Except Error β} {xs : List α}
    (h : ∀ x ∈ xs, ∃ y, f x = .ok y) : ∃ ys, xs.mapM f = .ok ys := by
  induction xs with
  | nil => exact ⟨[], rfl⟩
  | cons x xs ih =>
      obtain ⟨y, hy⟩ := h x List.mem_cons_self
      obtain ⟨ys, hys⟩ := ih (fun x' hx' => h x' (List.mem_cons_of_mem _ hx'))
      exact ⟨y :: ys, by simp [List.mapM_cons, hy, hys]⟩

theorem mapM_returns_iff {f : α → Except Error β} {xs : List α} :
    (∃ ys, xs.mapM f = .ok ys) ↔ ∀ x ∈ xs, ∃ y, f x = .ok y := by
  refine ⟨?_, mapM_returns⟩
  rintro ⟨ys, hys⟩ x hx
  obtain ⟨i, hi⟩ := List.mem_iff_getElem?.mp hx
  obtain ⟨y, -, hy⟩ := getElem?_of_mapM hys hi
  exact ⟨y, hy⟩

/-- What holds of the results, said of the items they come from. -/
theorem forall_mapM_iff {f : α → Except Error β} {P : β → Prop} {Q : α → Prop} {xs : List α}
    {ys : List β} (h : xs.mapM f = .ok ys) (hPQ : ∀ x ∈ xs, ∀ y, f x = .ok y → (P y ↔ Q x)) :
    (∀ y ∈ ys, P y) ↔ ∀ x ∈ xs, Q x := by
  have hforall := mapM_eq_ok.mp h
  induction hforall with
  | nil =>
      exact iff_of_true (List.forall_mem_nil P) (List.forall_mem_nil Q)
  | @cons x y xs ys hxy hrest ih =>
      have htail := ih (mapM_eq_ok.mpr hrest)
        (fun x' hx' => hPQ x' (List.mem_cons_of_mem _ hx'))
      rw [List.forall_mem_cons, List.forall_mem_cons]
      exact and_congr (hPQ x List.mem_cons_self y hxy) htail

/-- A loop that computes a value for every item and stores it without raising
is a comprehension followed by the storing. -/
theorem foldlM_store {f : α → Except Error β} {push : σ → α → β → σ} (xs : List α) (s : σ) :
    xs.foldlM (fun s x => do let y ← f x; pure (push s x y)) s =
      (do let ys ← xs.mapM f
          pure ((xs.zip ys).foldl (fun s xy => push s xy.1 xy.2) s)) := by
  induction xs generalizing s with
  | nil => rfl
  | cons x xs ih =>
      simp only [List.foldlM_cons, List.mapM_cons]
      cases f x with
      | error e => rfl
      | ok y =>
          simp only [ok_bind, pure_eq_ok] at ih ⊢
          rw [ih]
          cases xs.mapM f with
          | error e => rfl
          | ok ys => rfl

/-- A loop over the indices of a list whose body never raises is a fold over
the list. -/
theorem foldlM_range_eq_foldl (xs : List α) {f : σ → Nat → Except Error σ} {g : σ → α → σ}
    (h : ∀ s i x, xs[i]? = some x → f s i = .ok (g s x)) (s : σ) :
    (List.range xs.length).foldlM f s = .ok (xs.foldl g s) := by
  induction xs using List.reverseRecOn with
  | nil => rfl
  | append_singleton xs x ih =>
      have hxs := ih (fun t i y hy => h t i y (by
        rw [List.getElem?_append_left (List.getElem?_eq_some_iff.mp hy).1]
        exact hy))
      have hx := h (xs.foldl g s) xs.length x (by simp)
      rw [List.length_append, List.length_singleton, List.range_succ, List.foldlM_append, hxs]
      simp [hx]

/-- A loop whose every pass adds one to a count adds the number of its items. -/
theorem foldlM_count {f : σ → α → Except Error σ} {count : σ → Nat}
    (h : ∀ s x s', f s x = .ok s' → count s' = count s + 1) {xs : List α} {s s' : σ}
    (hrun : xs.foldlM f s = .ok s') : count s' = count s + xs.length := by
  induction xs generalizing s with
  | nil =>
      rw [List.foldlM_nil, pure_eq_ok] at hrun
      cases hrun
      rfl
  | cons x xs ih =>
      rw [List.foldlM_cons] at hrun
      obtain ⟨t, ht, hrest⟩ := bind_eq_ok.mp hrun
      rw [ih hrest, h s x t ht, List.length_cons]
      omega

theorem bind_returns_iff {x : Except Error α} {f : α → Except Error β} :
    (∃ b, (x >>= f) = .ok b) ↔ ∃ a, x = .ok a ∧ ∃ b, f a = .ok b := by
  constructor
  · rintro ⟨b, hb⟩
    obtain ⟨a, ha, hf⟩ := bind_eq_ok.mp hb
    exact ⟨a, ha, b, hf⟩
  · rintro ⟨a, ha, b, hf⟩
    exact ⟨b, bind_eq_ok.mpr ⟨a, ha, hf⟩⟩

/-! ## What a computation may raise -/

/-- Every exception the computation may raise satisfies `P`. -/
def OnlyRaises (P : Error → Prop) (x : Except Error α) : Prop := ∀ e, x = .error e → P e

section OnlyRaises

variable {P : Error → Prop}

theorem onlyRaises_ok (a : α) : OnlyRaises P (.ok a) := by
  intro e h
  cases h

theorem onlyRaises_error {e : Error} (he : P e) : OnlyRaises P (.error e : Except Error α) := by
  intro e' h
  cases h
  exact he

theorem OnlyRaises.bind {x : Except Error α} {f : α → Except Error β} (hx : OnlyRaises P x)
    (hf : ∀ a, x = .ok a → OnlyRaises P (f a)) : OnlyRaises P (x >>= f) := by
  cases h : x with
  | error e => exact onlyRaises_error (hx e h)
  | ok a => exact hf a h

theorem onlyRaises_mapM {f : α → Except Error β} {xs : List α}
    (h : ∀ x ∈ xs, OnlyRaises P (f x)) : OnlyRaises P (xs.mapM f) := by
  induction xs with
  | nil => exact onlyRaises_ok _
  | cons x xs ih =>
      rw [List.mapM_cons]
      exact (h x List.mem_cons_self).bind (fun y _ =>
        (ih (fun x' hx' => h x' (List.mem_cons_of_mem _ hx'))).bind (fun _ _ => onlyRaises_ok _))

theorem onlyRaises_foldlM {f : σ → α → Except Error σ} {xs : List α}
    (h : ∀ s, ∀ x ∈ xs, OnlyRaises P (f s x)) (s : σ) : OnlyRaises P (xs.foldlM f s) := by
  induction xs generalizing s with
  | nil => exact onlyRaises_ok _
  | cons x xs ih =>
      rw [List.foldlM_cons]
      exact (h s x List.mem_cons_self).bind (fun t _ =>
        ih (fun t' x' hx' => h t' x' (List.mem_cons_of_mem _ hx')) t)

theorem onlyRaises_getItem (hP : P .indexError) (xs : List α) (i : Nat) :
    OnlyRaises P (getItem xs i) := by
  unfold getItem
  split
  · exact onlyRaises_ok _
  · exact onlyRaises_error hP

end OnlyRaises

end Py
