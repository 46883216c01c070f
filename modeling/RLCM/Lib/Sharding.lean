/-
# `RLCM.Lib.Sharding` — answering a batch shard by shard

A batch is one list of rows for every argument, all of one length.  It is cut
into shards of one size, every shard is answered by someone, and the answers are
put together in the order of the shards.

`Answers R args out` is the abstract statement: `out` has one entry for every row,
and each stands in `R` to the row at its own place.  What answers a shard need not
be a function of the rows, and two shards may be answered by different means.
`answers_flatten` says that shards can be answered one by one, and
`Answers.take` that rows appended to the batch can be dropped again.
-/
import RLCM.Lib.Blocks

namespace Sharding

variable {ι α β : Type*} {R : List α → β → Prop}

/-- The `i`-th rows of the arguments. -/
def rowAt (args : List (List α)) (i : ℕ) : List α := args.filterMap (fun arg => arg[i]?)

/-- Every row of the arguments has its answer at its own place. -/
structure Answers (R : List α → β → Prop) (args : List (List α)) (out : List β) : Prop where
  length_eq : ∀ arg ∈ args, arg.length = out.length
  row : ∀ i y, out[i]? = some y → R (rowAt args i) y

def shard (k r : ℕ) (rows : List α) : List α :=
  Blocks.slice rows (r * (rows.length / k)) ((r + 1) * (rows.length / k))

theorem rowAt_congr {i j : ℕ} {f g : ι → List α} {args : List ι}
    (h : ∀ arg ∈ args, (f arg)[i]? = (g arg)[j]?) :
    rowAt (args.map f) i = rowAt (args.map g) j := by
  rw [rowAt, rowAt, List.filterMap_map, List.filterMap_map]
  exact List.filterMap_congr h

theorem answers_nil {args : List ι} {f : ι → List α} (h : ∀ arg ∈ args, f arg = []) :
    Answers R (args.map f) [] where
  length_eq arg harg := by
    obtain ⟨a, ha, rfl⟩ := List.mem_map.mp harg
    rw [h a ha, List.length_nil, List.length_nil]
  row i y hy := by
    rw [List.getElem?_nil] at hy
    cases hy

theorem Answers.append {args : List ι} {f g whole : ι → List α} {us vs : List β}
    (hu : Answers R (args.map f) us) (hv : Answers R (args.map g) vs)
    (h : ∀ arg ∈ args, whole arg = f arg ++ g arg) : Answers R (args.map whole) (us ++ vs) := by
  have hlenf : ∀ arg ∈ args, (f arg).length = us.length :=
    fun arg harg => hu.length_eq _ (List.mem_map_of_mem harg)
  have hleng : ∀ arg ∈ args, (g arg).length = vs.length :=
    fun arg harg => hv.length_eq _ (List.mem_map_of_mem harg)
  constructor
  · intro arg harg
    obtain ⟨a, ha, rfl⟩ := List.mem_map.mp harg
    rw [h a ha, List.length_append, List.length_append, hlenf a ha, hleng a ha]
  · intro i y hy
    rcases Nat.lt_or_ge i us.length with hi | hi
    · rw [List.getElem?_append_left hi] at hy
      have hrow : rowAt (args.map whole) i = rowAt (args.map f) i :=
        rowAt_congr (fun arg harg => by
          rw [h arg harg, List.getElem?_append_left ((hlenf arg harg).symm ▸ hi)])
      exact hrow ▸ hu.row i y hy
    · rw [List.getElem?_append_right hi] at hy
      have hrow : rowAt (args.map whole) i = rowAt (args.map g) (i - us.length) :=
        rowAt_congr (fun arg harg => by
          rw [h arg harg, List.getElem?_append_right ((hlenf arg harg).symm ▸ hi),
            hlenf arg harg])
      exact hrow ▸ hv.row _ y hy

theorem Answers.take {args : List (List α)} {out : List β} (h : Answers R args out) (n : ℕ) :
    Answers R (args.map (List.take n)) (out.take n) where
  length_eq arg harg := by
    obtain ⟨a, ha, rfl⟩ := List.mem_map.mp harg
    rw [List.length_take, List.length_take, h.length_eq a ha]
  row i y hy := by
    have hi : i < n := by
      have hlt := (List.getElem?_eq_some_iff.mp hy).1
      rw [List.length_take] at hlt
      exact Nat.lt_of_lt_of_le hlt (Nat.min_le_left _ _)
    rw [List.getElem?_take_of_lt hi] at hy
    have hrow : rowAt (args.map (List.take n)) i = rowAt (args.map id) i :=
      rowAt_congr (fun arg _ => List.getElem?_take_of_lt hi)
    rw [hrow, List.map_id]
    exact h.row i y hy

/-- The answers to all shards, one after another, answer the batch.  The induction
is on how many shards are answered: the rows up to there have their answers. -/
theorem answers_flatten {args : List (List α)} {k size : ℕ} {outs : List (List β)}
    (hlen : ∀ arg ∈ args, arg.length = k * size) (hcount : outs.length = k)
    (h : ∀ r out, outs[r]? = some out → Answers R (args.map (shard k r)) out) :
    Answers R args outs.flatten := by
  have hfirst : ∀ r ≤ k,
      Answers R (args.map (fun arg => arg.take (r * size))) (outs.take r).flatten := by
    intro r
    induction r with
    | zero =>
        intro _
        exact answers_nil (fun arg _ => by rw [Nat.zero_mul, List.take_zero])
    | succ r ih =>
        intro hr
        have hlt : r < outs.length := hcount.symm ▸ hr
        have hshard := h r outs[r] (List.getElem?_eq_getElem hlt)
        rw [List.take_succ_eq_append_getElem hlt, List.flatten_append, List.flatten_singleton]
        refine (ih (Nat.le_of_succ_le hr)).append hshard (fun arg harg => ?_)
        have hsize : arg.length / k = size := by
          rw [hlen arg harg, Nat.mul_div_cancel_left _ (Nat.zero_lt_of_lt hr)]
        rw [shard, hsize, Blocks.slice, Nat.succ_mul, Nat.add_sub_cancel_left, List.take_add]
  have hwhole : args.map (fun arg => arg.take (k * size)) = args := by
    conv_rhs => rw [← List.map_id args]
    exact List.map_congr_left
      (fun arg harg => List.take_of_length_le (Nat.le_of_eq (hlen arg harg)))
  have hall := hfirst k (Nat.le_refl k)
  rw [← hcount, List.take_length, hcount, hwhole] at hall
  exact hall

/-! ## Some of the answers -/

/-- The entries whose flag is set. -/
def collect (mask : List Bool) (xs : List α) : List α :=
  ((xs.zip mask).filter Prod.snd).map Prod.fst

theorem collect_cons (flag : Bool) (mask : List Bool) (x : α) (xs : List α) :
    collect (flag :: mask) (x :: xs) = if flag then x :: collect mask xs else collect mask xs := by
  cases flag with
  | true => rfl
  | false => rfl

theorem collect_map (f : α → β) (mask : List Bool) (xs : List α) :
    collect mask (xs.map f) = (collect mask xs).map f := by
  induction xs generalizing mask with
  | nil => rfl
  | cons x xs ih =>
      cases mask with
      | nil => rfl
      | cons flag mask =>
          rw [List.map_cons, collect_cons, collect_cons, ih]
          cases flag with
          | true => rfl
          | false => rfl

/-- What holds of the entries at the flagged places holds of what is collected. -/
theorem forall₂_collect {P : α → β → Prop} {mask : List Bool} {xs : List α} {ys : List β}
    (hlen : xs.length = ys.length)
    (h : ∀ (i : ℕ) x y, mask[i]? = some true → xs[i]? = some x → ys[i]? = some y → P x y) :
    List.Forall₂ P (collect mask xs) (collect mask ys) := by
  induction mask generalizing xs ys with
  | nil =>
      rw [collect, collect, List.zip_nil_right, List.zip_nil_right]
      exact .nil
  | cons flag mask ih =>
      cases xs with
      | nil =>
          obtain rfl := List.length_eq_zero_iff.mp hlen.symm
          exact .nil
      | cons x xs =>
          cases ys with
          | nil => cases hlen
          | cons y ys =>
              have htail := ih (Nat.succ.inj hlen) (fun i x y => h (i + 1) x y)
              rw [collect_cons, collect_cons]
              cases flag with
              | true => exact .cons (h 0 x y rfl rfl rfl) htail
              | false => exact htail

end Sharding
