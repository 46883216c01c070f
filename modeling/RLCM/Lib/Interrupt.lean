/-
# `RLCM.Lib.Interrupt` — programs that may stop at any point

A program over a state that outlives it: a script that writes files, and that
an exception or a kill may end half-way.  `Prog σ ε α` runs from a state to a
state, and either returns a value or stops with a reason.

`Triple P p Q C` says that from a state with `P` the program, if it returns,
ends in a state with `Q`, and if it stops, leaves a state with `C`.  The rules
below have one premise for every part of a program; a loop has an invariant
over the items already done.
-/
import Mathlib.Data.List.Basic

namespace Interrupt

/-- A program over states `σ` that returns an `α` or stops with an `ε`. -/
def Prog (σ ε α : Type) := σ → Except ε α × σ

variable {σ ε α β : Type}

namespace Prog

/-- The sequence of two programs; the second runs only after the first
returned. -/
def andThen (p : Prog σ ε α) (f : α → Prog σ ε β) : Prog σ ε β := fun s =>
  match p s with
  | (.ok a, s') => f a s'
  | (.error e, s') => (.error e, s')

instance : Monad (Prog σ ε) where
  pure a := fun s => (.ok a, s)
  bind := andThen

def stop (e : ε) : Prog σ ε α := fun s => (.error e, s)

/-- The current state. -/
def get : Prog σ ε σ := fun s => (.ok s, s)

/-- Change the state. -/
def modify (f : σ → σ) : Prog σ ε Unit := fun s => (.ok (), f s)

/-- Stop unless the condition holds. -/
def require (c : Bool) (e : ε) : Prog σ ε Unit := if c then pure () else stop e

/-- `for x in xs: body(x)`. -/
def forEach : List β → (β → Prog σ ε Unit) → Prog σ ε Unit
  | [], _ => pure ()
  | x :: xs, body => do body x; forEach xs body

@[simp] theorem forEach_nil (body : β → Prog σ ε Unit) : forEach [] body = pure () := rfl

@[simp] theorem forEach_cons (x : β) (xs : List β) (body : β → Prog σ ε Unit) :
    forEach (x :: xs) body = (body x >>= fun _ => forEach xs body) := rfl

/-- A program that returned is followed by the next one. -/
theorem bind_of_ok {p : Prog σ ε α} {f : α → Prog σ ε β} {s s' : σ} {a : α}
    (h : p s = (.ok a, s')) : (p >>= f) s = f a s' := by
  change andThen p f s = f a s'
  unfold andThen
  rw [h]

theorem bind_of_error {p : Prog σ ε α} {f : α → Prog σ ε β} {s s' : σ} {e : ε}
    (h : p s = (.error e, s')) : (p >>= f) s = (.error e, s') := by
  change andThen p f s = (.error e, s')
  unfold andThen
  rw [h]

@[simp] theorem bind_unit (p : Prog σ ε Unit) : (p >>= fun _ => pure ()) = p := by
  funext s
  change andThen p (fun _ => pure ()) s = p s
  unfold andThen
  cases p s with
  | mk r s' => cases r <;> rfl

/-! ### Loops -/

/-- A loop over two lists, one after the other. -/
theorem forEach_append (xs ys : List β) (body : β → Prog σ ε Unit) :
    forEach (xs ++ ys) body = (forEach xs body >>= fun _ => forEach ys body) := by
  induction xs with
  | nil => rfl
  | cons x xs ih =>
      funext s
      rw [List.cons_append, forEach_cons, forEach_cons, ih]
      cases hx : body x s with
      | mk r s' =>
          cases r with
          | ok _ =>
              rw [bind_of_ok hx]
              change _ = andThen (andThen (body x) _) _ s
              simp only [andThen, hx]
              rfl
          | error e =>
              rw [bind_of_error hx]
              change _ = andThen (andThen (body x) _) _ s
              simp only [andThen, hx]

theorem forEach_flatMap {γ : Type} (xs : List γ) (f : γ → List β) (body : β → Prog σ ε Unit) :
    forEach (xs.flatMap f) body = forEach xs (fun x => forEach (f x) body) := by
  induction xs with
  | nil => rfl
  | cons x xs ih => rw [List.flatMap_cons, forEach_append, ih, forEach_cons]

theorem forEach_map {γ : Type} (xs : List γ) (f : γ → β) (body : β → Prog σ ε Unit) :
    forEach (xs.map f) body = forEach xs (fun x => body (f x)) := by
  induction xs with
  | nil => rfl
  | cons x xs ih => rw [List.map_cons, forEach_cons, forEach_cons, ih]

/-- A loop whose body takes a step at some items, and stops without an effect at
the others, takes the steps up to the first of these. -/
theorem forEach_eq_foldl {body : β → Prog σ ε Unit} {goes : β → Bool} {reason : β → ε}
    {step : σ → β → σ} (hgoes : ∀ x s, goes x = true → body x s = (.ok (), step s x))
    (hstops : ∀ x s, goes x = false → body x s = (.error (reason x), s)) (xs : List β) (s : σ) :
    (forEach xs body s).2 = (xs.takeWhile goes).foldl step s := by
  induction xs generalizing s with
  | nil => rfl
  | cons x xs ih =>
      rw [forEach_cons]
      cases hx : goes x with
      | true =>
          rw [bind_of_ok (hgoes x s hx), List.takeWhile_cons_of_pos hx, List.foldl_cons]
          exact ih (step s x)
      | false =>
          rw [bind_of_error (hstops x s hx), List.takeWhile_cons_of_neg (by rw [hx]; decide)]
          rfl

end Prog

open Prog

/-- From `P`, the program ends with `Q` or stops with `C`. -/
def Triple (P : σ → Prop) (p : Prog σ ε α) (Q : α → σ → Prop) (C : σ → Prop) : Prop :=
  ∀ s, P s →
    match p s with
    | (.ok a, s') => Q a s'
    | (.error _, s') => C s'

namespace Triple

variable {P P' : σ → Prop} {Q Q' : α → σ → Prop} {C : σ → Prop}

theorem pure' {a : α} (h : ∀ s, P s → Q a s) : Triple P (pure a : Prog σ ε α) Q C :=
  fun s hs => h s hs

theorem bind {p : Prog σ ε α} {f : α → Prog σ ε β} {R : β → σ → Prop}
    (hp : Triple P p Q C) (hf : ∀ a, Triple (Q a) (f a) R C) : Triple P (p >>= f) R C := by
  intro s hs
  have h := hp s hs
  change match andThen p f s with | (.ok b, s') => R b s' | (.error _, s') => C s'
  unfold andThen
  cases hr : p s with
  | mk r s' =>
      rw [hr] at h
      cases r with
      | ok a => exact hf a s' h
      | error e => exact h

theorem stop {e : ε} (h : ∀ s, P s → C s) : Triple P (Prog.stop e : Prog σ ε α) Q C :=
  fun s hs => h s hs

theorem get {Q : σ → σ → Prop} (h : ∀ s, P s → Q s s) : Triple P (Prog.get : Prog σ ε σ) Q C :=
  fun s hs => h s hs

theorem modify {f : σ → σ} {Q : Unit → σ → Prop} (h : ∀ s, P s → Q () (f s)) :
    Triple P (Prog.modify f : Prog σ ε Unit) Q C :=
  fun s hs => h s hs

theorem ite {c : Prop} [Decidable c] {p q : Prog σ ε α} (hp : c → Triple P p Q C)
    (hq : ¬ c → Triple P q Q C) : Triple P (if c then p else q) Q C := by
  by_cases hc : c
  · rw [if_pos hc]
    exact hp hc
  · rw [if_neg hc]
    exact hq hc

theorem conseq {p : Prog σ ε α} (h : Triple P p Q C) (hP : ∀ s, P' s → P s)
    (hQ : ∀ a s, Q a s → Q' a s) : Triple P' p Q' C := by
  intro s hs
  have := h s (hP s hs)
  cases hr : p s with
  | mk r s' =>
      rw [hr] at this
      cases r with
      | ok a => exact hQ a s' this
      | error e => exact this

/-- A fact about the state before that does not depend on it. -/
theorem assume {F : Prop} {p : Prog σ ε α} (h : F → Triple P p Q C) :
    Triple (fun s => F ∧ P s) p Q C :=
  fun s hs => h hs.1 s hs.2

theorem from_state {p : Prog σ ε α} (h : ∀ s₀, P s₀ → Triple (fun s => s = s₀) p Q C) :
    Triple P p Q C :=
  fun s hs => h s hs s rfl

theorem require {c : Bool} {e : ε} {Q : Unit → σ → Prop} (hok : c = true → ∀ s, P s → Q () s)
    (hstop : c = false → ∀ s, P s → C s) :
    Triple P (Prog.require c e : Prog σ ε Unit) Q C := by
  unfold Prog.require
  cases c with
  | true => exact pure' (hok rfl)
  | false => exact stop (hstop rfl)

/-- A loop keeps an invariant over the items already done. -/
theorem forEach {J : List β → σ → Prop} {body : β → Prog σ ε Unit} (xs : List β)
    (h : ∀ done x rest, xs = done ++ x :: rest →
      Triple (J done) (body x) (fun _ => J (done ++ [x])) C) :
    Triple (J []) (Prog.forEach xs body) (fun _ => J xs) C := by
  have hloop : ∀ (rest done : List β), xs = done ++ rest →
      Triple (J done) (Prog.forEach rest body) (fun _ => J xs) C := by
    intro rest
    induction rest with
    | nil =>
        intro done hdone
        rw [List.append_nil] at hdone
        subst hdone
        exact pure' (fun _ hs => hs)
    | cons x rest ih =>
        intro done hdone
        refine (h done x rest hdone).bind (fun _ => ih (done ++ [x]) ?_)
        rw [hdone, List.append_assoc]
        rfl
  exact hloop xs [] rfl

end Triple

/-- What a program leaves, whether it returned or stopped. -/
theorem Triple.final {P : σ → Prop} {p : Prog σ ε α} {C : σ → Prop}
    (h : Triple P p (fun _ => C) C) {s : σ} (hs : P s) : C (p s).2 := by
  have := h s hs
  cases hr : p s with
  | mk r s' =>
      rw [hr] at this
      cases r with
      | ok a => exact this
      | error e => exact this

theorem Triple.returned {P : σ → Prop} {p : Prog σ ε α} {Q : α → σ → Prop} {C : σ → Prop}
    (h : Triple P p Q C) {s : σ} (hs : P s) {a : α} (hp : (p s).1 = .ok a) : Q a (p s).2 := by
  have := h s hs
  cases hr : p s with
  | mk r s' =>
      rw [hr] at this hp
      subst hp
      exact this

/-! ## Invariants -/

/-- The program keeps `I`, whether it returns or stops. -/
def Keeps (I : σ → Prop) (p : Prog σ ε α) : Prop := Triple I p (fun _ => I) I

namespace Keeps

variable {I : σ → Prop}

theorem pure' {a : α} : Keeps I (pure a : Prog σ ε α) := Triple.pure' fun _ hs => hs

theorem stop {e : ε} : Keeps I (Prog.stop e : Prog σ ε α) := Triple.stop fun _ hs => hs

theorem get : Keeps I (Prog.get : Prog σ ε σ) := Triple.get fun _ hs => hs

theorem modify {f : σ → σ} (h : ∀ s, I s → I (f s)) : Keeps I (Prog.modify f : Prog σ ε Unit) :=
  Triple.modify h

theorem require {c : Bool} {e : ε} : Keeps I (Prog.require c e : Prog σ ε Unit) :=
  Triple.require (fun _ _ hs => hs) (fun _ _ hs => hs)

theorem bind {p : Prog σ ε α} {f : α → Prog σ ε β} (hp : Keeps I p) (hf : ∀ a, Keeps I (f a)) :
    Keeps I (p >>= f) :=
  Triple.bind hp hf

theorem ite {c : Prop} [Decidable c] {p q : Prog σ ε α} (hp : Keeps I p) (hq : Keeps I q) :
    Keeps I (if c then p else q) :=
  Triple.ite (fun _ => hp) (fun _ => hq)

theorem forEach {body : β → Prog σ ε Unit} {xs : List β} (h : ∀ x, Keeps I (body x)) :
    Keeps I (Prog.forEach xs body) :=
  Triple.forEach (J := fun _ => I) xs (fun _ x _ _ => h x)

end Keeps

/-! ## Two runs -/

/-- From states that `R` relates the two programs give one result, and leave
states that `R` relates. -/
def SameRuns (R : σ → σ → Prop) (p q : Prog σ ε α) : Prop :=
  ∀ s t, R s t → (p s).1 = (q t).1 ∧ R (p s).2 (q t).2

namespace SameRuns

variable {R : σ → σ → Prop}

theorem pure' {a : α} : SameRuns R (pure a : Prog σ ε α) (pure a) := fun _ _ h => ⟨rfl, h⟩

theorem stop {e : ε} : SameRuns R (Prog.stop e : Prog σ ε α) (Prog.stop e) := fun _ _ h => ⟨rfl, h⟩

theorem modify {f g : σ → σ} (hfg : ∀ s t, R s t → R (f s) (g t)) :
    SameRuns R (Prog.modify f : Prog σ ε Unit) (Prog.modify g) :=
  fun s t h => ⟨rfl, hfg s t h⟩

theorem require {c : Bool} {e : ε} :
    SameRuns R (Prog.require c e : Prog σ ε Unit) (Prog.require c e) := by
  unfold Prog.require
  cases c with
  | true => exact pure'
  | false => exact stop

theorem get_bind {f g : σ → Prog σ ε α} (h : ∀ s t, R s t → SameRuns R (f s) (g t)) :
    SameRuns R (Prog.get >>= f) (Prog.get >>= g) :=
  fun s t hst => h s t hst s t hst

theorem bind {p q : Prog σ ε α} {f g : α → Prog σ ε β} (hpq : SameRuns R p q)
    (hfg : ∀ a, SameRuns R (f a) (g a)) : SameRuns R (p >>= f) (q >>= g) := by
  intro s t hst
  obtain ⟨hresult, hstate⟩ := hpq s t hst
  cases hp : p s with
  | mk r s' =>
      cases hq : q t with
      | mk r' t' =>
          rw [hp, hq] at hresult hstate
          cases hresult
          cases r with
          | ok a =>
              rw [bind_of_ok hp, bind_of_ok hq]
              exact hfg a s' t' hstate
          | error e =>
              rw [bind_of_error hp, bind_of_error hq]
              exact ⟨rfl, hstate⟩

theorem ite {c : Prop} [Decidable c] {p q p' q' : Prog σ ε α} (hp : SameRuns R p p')
    (hq : SameRuns R q q') : SameRuns R (if c then p else q) (if c then p' else q') := by
  split_ifs
  · exact hp
  · exact hq

theorem forEach {body : β → Prog σ ε Unit} {xs : List β} (h : ∀ x, SameRuns R (body x) (body x)) :
    SameRuns R (Prog.forEach xs body) (Prog.forEach xs body) := by
  induction xs with
  | nil => exact pure'
  | cons x xs ih => exact (h x).bind fun _ => ih

end SameRuns

end Interrupt
