/-
# `RLCM.Lib.Rebuild` — outputs rebuilt only when they are missing

A task makes one output from others.  A pass over a list of tasks skips those
whose output is there, or runs them all when it is forced; nothing compares an
output with what it was made from.

Every output carries a stamp: the number of its writing, the recipe that made
it and the numbers of what was read.  With stamps one can say that an output is
`Current` for a task, made by its recipe from what is in the store now, and the
question is when everything is current after a pass.  `Pass.current_iff`
answers it for any store and any list of tasks in which a task whose input is
made again is itself made again.
-/
import Mathlib.Data.List.Basic

namespace Rebuild

variable {ι κ : Type}

/-- Who wrote an output: the number of the writing, the recipe, and the numbers
of the writings it read. -/
structure Stamp (κ : Type) where
  number : ℕ
  recipe : κ
  reads : List ℕ

/-- The stamps of the outputs that are there, and the number of the next
writing. -/
@[ext]
structure Store (ι κ : Type) where
  stamp : ι → Option (Stamp κ)
  clock : ℕ

/-- Make `out` by the recipe; `needs` are the outputs it reads and `base` the
numbers of what else it reads. -/
structure Task (ι κ : Type) where
  out : ι
  base : List ℕ
  needs : List ι
  recipe : κ

namespace Store

variable (s : Store ι κ)

/-- The output is there. -/
def Present (i : ι) : Prop := (s.stamp i).isSome = true

def readsOf (t : Task ι κ) : List ℕ :=
  t.base ++ t.needs.flatMap (fun i => (s.stamp i).toList.map Stamp.number)

/-- The output of the task was made by its recipe from what is there now. -/
def Current (t : Task ι κ) : Prop :=
  ∃ a, s.stamp t.out = some a ∧ a.recipe = t.recipe ∧ a.reads = s.readsOf t

/-- Every number in the store is of a writing that took place. -/
def Numbered : Prop :=
  ∀ i a, s.stamp i = some a → a.number < s.clock ∧ ∀ n ∈ a.reads, n < s.clock

/-- Run the task. -/
def write [DecidableEq ι] (t : Task ι κ) : Store ι κ where
  stamp i := if i = t.out then some ⟨s.clock, t.recipe, s.readsOf t⟩ else s.stamp i
  clock := s.clock + 1

variable {s} {s' : Store ι κ} {t : Task ι κ}

theorem readsOf_congr (h : ∀ i ∈ t.needs, s'.stamp i = s.stamp i) : s'.readsOf t = s.readsOf t := by
  have hflat : t.needs.flatMap (fun i => (s'.stamp i).toList.map Stamp.number) =
      t.needs.flatMap (fun i => (s.stamp i).toList.map Stamp.number) :=
    List.flatMap_congr fun i hi => by rw [h i hi]
  unfold readsOf
  rw [hflat]

theorem Current.congr (h : s.Current t) (hout : s'.stamp t.out = s.stamp t.out)
    (hneeds : ∀ i ∈ t.needs, s'.stamp i = s.stamp i) : s'.Current t := by
  obtain ⟨a, ha, hrecipe, hreads⟩ := h
  refine ⟨a, ?_, hrecipe, ?_⟩
  · rw [hout, ha]
  · rw [readsOf_congr hneeds, hreads]

/-- The task itself does not matter, only what it makes, reads and follows. -/
theorem Current.of_alike {u : Task ι κ} (h : s.Current t) (hout : t.out = u.out)
    (hbase : t.base = u.base) (hneeds : t.needs = u.needs) (hrecipe : t.recipe = u.recipe) :
    s.Current u := by
  obtain ⟨a, ha, hr, hreads⟩ := h
  refine ⟨a, hout ▸ ha, hr.trans hrecipe, ?_⟩
  rw [hreads]
  unfold readsOf
  rw [hbase, hneeds]

variable [DecidableEq ι]

@[simp] theorem write_stamp_self :
    (s.write t).stamp t.out = some ⟨s.clock, t.recipe, s.readsOf t⟩ := by simp [write]

theorem write_stamp_of_ne {i : ι} (h : i ≠ t.out) : (s.write t).stamp i = s.stamp i := by
  simp [write, h]

theorem current_write (h : t.out ∉ t.needs) : (s.write t).Current t := by
  refine ⟨_, write_stamp_self, rfl, ?_⟩
  refine (readsOf_congr fun i hi => ?_).symm
  exact write_stamp_of_ne fun hEq => h (hEq ▸ hi)

end Store

open Store

/-! ## Lists of tasks -/

section Tasks

variable {t : Task ι κ} {ts us : List (Task ι κ)} {s : Store ι κ}

/-- Tasks with one output have one recipe. -/
def Agree (ts : List (Task ι κ)) : Prop := ∀ t ∈ ts, ∀ u ∈ ts, t.out = u.out → t.recipe = u.recipe

/-- Tasks with one output read the same. -/
def Alike (ts : List (Task ι κ)) : Prop :=
  ∀ t ∈ ts, ∀ u ∈ ts, t.out = u.out → t.base = u.base ∧ t.needs = u.needs

/-- What a pass that is not forced finds is current, with its inputs there. -/
def UpToDate (ts : List (Task ι κ)) (s : Store ι κ) : Prop :=
  ∀ t ∈ ts, s.Present t.out → s.Current t ∧ ∀ i ∈ t.needs, s.Present i

theorem agree_of_current (h : ∀ t ∈ ts, s.Current t) : Agree ts := by
  intro t ht u hu hout
  obtain ⟨a, ha, hrecipe, -⟩ := h t ht
  obtain ⟨b, hb, hrecipe', -⟩ := h u hu
  rw [hout, hb] at ha
  obtain rfl := Option.some.inj ha
  exact hrecipe.symm.trans hrecipe'

theorem Alike.current (halike : Alike ts) (hagree : Agree ts) (ht : t ∈ ts)
    (h : ∃ u ∈ ts, u.out = t.out ∧ s.Current u) : s.Current t := by
  obtain ⟨u, hu, hout, hcurrent⟩ := h
  obtain ⟨hbase, hneeds⟩ := halike u hu t ht hout
  exact hcurrent.of_alike hout hbase hneeds (hagree u hu t ht hout)

/-- No task reads its own output, and a task some of whose inputs are made later
is itself made later. -/
def Ordered : List (Task ι κ) → Prop
  | [] => True
  | t :: ts =>
      t.out ∉ t.needs ∧ ((∃ u ∈ ts, u.out ∈ t.needs) → ∃ v ∈ ts, v.out = t.out) ∧ Ordered ts

/-- Tasks each of which reads what was made before it, followed by ordered
tasks that make an output again whenever they make one of its inputs. -/
theorem Ordered.append (hself : ∀ t ∈ ts, t.out ∉ t.needs)
    (hchain : ts.Pairwise fun t u => u.out ∉ t.needs) (hus : Ordered us)
    (hagain : ∀ t ∈ ts, (∃ u ∈ us, u.out ∈ t.needs) → ∃ v ∈ us, v.out = t.out) :
    Ordered (ts ++ us) := by
  induction ts with
  | nil => exact hus
  | cons t ts ih =>
      obtain ⟨hlater, hchain⟩ := List.pairwise_cons.mp hchain
      refine ⟨hself t List.mem_cons_self, ?_, ih (fun t ht => hself t (List.mem_cons_of_mem _ ht))
        hchain (fun t ht => hagain t (List.mem_cons_of_mem _ ht))⟩
      rintro ⟨u, hu, hmem⟩
      rcases List.mem_append.mp hu with hu | hu
      · exact absurd hmem (hlater u hu)
      · obtain ⟨v, hv, hout⟩ := hagain t List.mem_cons_self ⟨u, hu, hmem⟩
        exact ⟨v, List.mem_append_right _ hv, hout⟩

end Tasks

/-! ## Steps and passes -/

/-- A task of a pass: skipped when its output is there and nothing forces it,
run otherwise; either way what it needs is there. -/
inductive Step [DecidableEq ι] (force : Bool) (t : Task ι κ) : Store ι κ → Store ι κ → Prop where
  | skip {s : Store ι κ} (unforced : force = false) (present : s.Present t.out)
      (needs : ∀ i ∈ t.needs, s.Present i) : Step force t s s
  | run {s : Store ι κ} (due : force = true ∨ ¬ s.Present t.out)
      (needs : ∀ i ∈ t.needs, s.Present i) : Step force t s (s.write t)

/-- The tasks in order. -/
inductive Pass [DecidableEq ι] (force : Bool) : List (Task ι κ) → Store ι κ → Store ι κ → Prop where
  | nil {s : Store ι κ} : Pass force [] s s
  | cons {t : Task ι κ} {ts : List (Task ι κ)} {s s' s'' : Store ι κ} (step : Step force t s s')
      (rest : Pass force ts s' s'') : Pass force (t :: ts) s s''

variable [DecidableEq ι] {force : Bool} {t : Task ι κ} {ts us : List (Task ι κ)}
  {s s' s'' : Store ι κ}

theorem Pass.append (h : Pass force ts s s') (h' : Pass force us s' s'') :
    Pass force (ts ++ us) s s'' := by
  induction h with
  | nil => exact h'
  | cons step _ ih => exact .cons step (ih h')

theorem Step.stamp_of_ne (h : Step force t s s') {i : ι} (hi : i ≠ t.out) :
    s'.stamp i = s.stamp i := by
  cases h with
  | skip => rfl
  | run => exact write_stamp_of_ne hi

theorem Step.present_out (h : Step force t s s') : s'.Present t.out := by
  cases h with
  | skip _ present => exact present
  | run => simp [Present]

theorem Step.present (h : Step force t s s') {i : ι} (hi : s.Present i) : s'.Present i := by
  by_cases hEq : i = t.out
  · rw [hEq]
    exact h.present_out
  · unfold Present
    rw [h.stamp_of_ne hEq]
    exact hi

theorem Step.clock_le (h : Step force t s s') : s.clock ≤ s'.clock := by
  cases h with
  | skip => exact Nat.le_refl _
  | run => exact Nat.le_succ _

theorem Step.old_or_new (h : Step force t s s') {i : ι} {a : Stamp κ} (ha : s'.stamp i = some a) :
    s.stamp i = some a ∨ s.clock ≤ a.number := by
  by_cases hEq : i = t.out
  · cases h with
    | skip => exact .inl ha
    | run =>
        rw [hEq, write_stamp_self] at ha
        obtain rfl := Option.some.inj ha
        exact .inr (Nat.le_refl _)
  · rw [h.stamp_of_ne hEq] at ha
    exact .inl ha

theorem Pass.stamp_of_notMem (h : Pass force ts s s') {i : ι} (hi : ∀ t ∈ ts, i ≠ t.out) :
    s'.stamp i = s.stamp i := by
  induction h with
  | nil => rfl
  | cons step _ ih =>
      rw [ih fun t ht => hi t (List.mem_cons_of_mem _ ht)]
      exact step.stamp_of_ne (hi _ List.mem_cons_self)

theorem Pass.present (h : Pass force ts s s') {i : ι} (hi : s.Present i) : s'.Present i := by
  induction h with
  | nil => exact hi
  | cons step _ ih => exact ih (step.present hi)

theorem Pass.present_out (h : Pass force ts s s') (ht : t ∈ ts) : s'.Present t.out := by
  induction h with
  | nil => cases ht
  | cons step rest ih =>
      rcases List.mem_cons.mp ht with rfl | ht
      · exact rest.present step.present_out
      · exact ih ht

theorem Pass.old_or_new (h : Pass force ts s s') {i : ι} {a : Stamp κ}
    (ha : s'.stamp i = some a) : s.stamp i = some a ∨ s.clock ≤ a.number := by
  induction h with
  | nil => exact .inl ha
  | cons step _ ih =>
      rcases ih ha with hold | hnew
      · exact step.old_or_new hold
      · exact .inr (Nat.le_trans step.clock_le hnew)

/-! ## Passes that are not forced -/

/-- What is there is left as it is. -/
theorem Pass.kept (h : Pass false ts s s') {i : ι} (hi : s.Present i) :
    s'.stamp i = s.stamp i := by
  induction h with
  | nil => rfl
  | cons step _ ih =>
      rw [ih (step.present hi)]
      cases step with
      | skip => rfl
      | run due =>
          have habsent := due.resolve_left Bool.false_ne_true
          exact write_stamp_of_ne fun hEq => habsent (hEq ▸ hi)

theorem Pass.needs_present (h : Pass force ts s s') (ht : t ∈ ts) :
    ∀ i ∈ t.needs, s'.Present i := by
  induction h with
  | nil => cases ht
  | cons step rest ih =>
      rcases List.mem_cons.mp ht with rfl | ht
      · intro i hi
        refine rest.present (step.present ?_)
        cases step with
        | skip _ _ needs => exact needs i hi
        | run _ needs => exact needs i hi
      · exact ih ht

/-- An output that was missing is current for the first task that makes it. -/
theorem Pass.current_of_absent (h : Pass false ts s s') (ht : t ∈ ts)
    (habsent : ¬ s.Present t.out) :
    ∃ u ∈ ts, u.out = t.out ∧ s'.Current u := by
  induction h with
  | nil => cases ht
  | @cons t₀ ts s s₁ s' step rest ih =>
      by_cases hEq : t.out = t₀.out
      · refine ⟨t₀, List.mem_cons_self, hEq.symm, ?_⟩
        cases step with
        | skip _ present => exact absurd (hEq ▸ present) habsent
        | run due needs =>
            have hout : t₀.out ∉ t₀.needs := fun hmem => habsent (hEq ▸ needs _ hmem)
            refine (current_write hout).congr (rest.kept ?_) (fun i hi => rest.kept ?_)
            · simp [Present]
            · have hne : i ≠ t₀.out := fun h => hout (h ▸ hi)
              unfold Present
              rw [write_stamp_of_ne hne]
              exact needs i hi
      · have hmem : t ∈ ts := (List.mem_cons.mp ht).resolve_left fun h => hEq (h ▸ rfl)
        have habsent₁ : ¬ s₁.Present t.out := by
          unfold Present
          rw [step.stamp_of_ne hEq]
          exact habsent
        obtain ⟨u, hu, hout, hcurrent⟩ := ih hmem habsent₁
        exact ⟨u, List.mem_cons_of_mem _ hu, hout, hcurrent⟩

/-! ## Forced passes -/

/-- A forced pass makes every output current for one of its tasks, the last one
that makes it. -/
theorem Pass.current_of_forced (h : Pass true ts s s') (hordered : Ordered ts) (ht : t ∈ ts) :
    ∃ u ∈ ts, u.out = t.out ∧ s'.Current u := by
  induction h generalizing t with
  | nil => cases ht
  | @cons t₀ ts s s₁ s' step rest ih =>
      obtain ⟨hself, hagain, hrest⟩ := hordered
      have hlater : ∀ {t}, t ∈ ts → ∃ u ∈ t₀ :: ts, u.out = t.out ∧ s'.Current u := by
        intro t ht
        obtain ⟨u, hu, hcurrent⟩ := ih hrest ht
        exact ⟨u, List.mem_cons_of_mem _ hu, hcurrent⟩
      rcases List.mem_cons.mp ht with rfl | ht
      · by_cases hmade : ∃ v ∈ ts, v.out = t.out
        · obtain ⟨v, hv, hout⟩ := hmade
          rw [← hout]
          exact hlater hv
        · -- nothing later touches this output or its inputs
          have hnew : s₁.Current t := by
            cases step with
            | skip unforced => cases unforced
            | run => exact current_write hself
          refine ⟨t, List.mem_cons_self, rfl, hnew.congr ?_ fun i hi => ?_⟩
          · exact rest.stamp_of_notMem fun u hu hEq => hmade ⟨u, hu, hEq.symm⟩
          · exact rest.stamp_of_notMem fun u hu hEq => hmade (hagain ⟨u, hu, hEq ▸ hi⟩)
      · exact hlater ht

/-! ## When everything is current -/

/-- If everything is current after a pass that was not forced, what it found was
current: an input made by this pass has a number no older output has read. -/
theorem Pass.upToDate_of_current (h : Pass false ts s s') (hs : s.Numbered)
    (hcurrent : ∀ t ∈ ts, s'.Current t) : UpToDate ts s := by
  intro t ht hpresent
  obtain ⟨a, ha, hrecipe, hreads⟩ := hcurrent t ht
  rw [h.kept hpresent] at ha
  have hneeds : ∀ i ∈ t.needs, s.Present i := by
    intro i hi
    obtain ⟨b, hb⟩ := Option.isSome_iff_exists.mp (h.needs_present ht i hi)
    rcases h.old_or_new hb with hold | hnew
    · exact Option.isSome_iff_exists.mpr ⟨b, hold⟩
    · have hread : b.number ∈ a.reads := by
        rw [hreads]
        refine List.mem_append_right _ (List.mem_flatMap.mpr ⟨i, hi, ?_⟩)
        simp [hb]
      exact absurd ((hs _ _ ha).2 _ hread) (Nat.not_lt.mpr hnew)
  refine ⟨⟨a, ha, hrecipe, ?_⟩, hneeds⟩
  rw [hreads]
  exact readsOf_congr fun i hi => h.kept (hneeds i hi)

/-- After a pass everything is current exactly when tasks with one output agree
on the recipe, and the pass was forced or what it found was current. -/
theorem Pass.current_iff (h : Pass force ts s s') (hs : s.Numbered) (halike : Alike ts)
    (hordered : Ordered ts) :
    (∀ t ∈ ts, s'.Current t) ↔ Agree ts ∧ (force = true ∨ UpToDate ts s) := by
  constructor
  · intro hcurrent
    refine ⟨agree_of_current hcurrent, ?_⟩
    cases force with
    | true => exact .inl rfl
    | false => exact .inr (h.upToDate_of_current hs hcurrent)
  · rintro ⟨hagree, hdone⟩ t ht
    cases force with
    | true => exact halike.current hagree ht (h.current_of_forced hordered ht)
    | false =>
        have hupToDate := hdone.resolve_left Bool.false_ne_true
        by_cases hpresent : s.Present t.out
        · obtain ⟨hcurrent, hneeds⟩ := hupToDate t ht hpresent
          exact hcurrent.congr (h.kept hpresent) fun i hi => h.kept (hneeds i hi)
        · exact halike.current hagree ht (h.current_of_absent ht hpresent)

end Rebuild
