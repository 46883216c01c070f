/-
# `RLCM.Lib.Blocks` — concatenate the blocks of all rows, process, cut back

A batched computation concatenates one block of items for every row, works on
the concatenation in one call and cuts the result back into rows by a running
offset.  `walk` is the cutting loop as such code writes it; `walk_flatMap` says
that on a concatenation of blocks of the announced lengths it hands every row
its own block, whatever the neighbours look like (empty blocks included).

`pieces` is the other way to cut, into runs of one size; put together again
the pieces are the list.
-/
import RLCM.Py.Error

namespace Blocks

open Py

universe u

variable {ι α β : Type u}

/-- `xs[i:j]`. -/
def slice (xs : List α) (i j : Nat) : List α := (xs.drop i).take (j - i)

theorem slice_append (pre block post : List α) :
    slice (pre ++ (block ++ post)) pre.length (pre.length + block.length) = block := by
  simp [slice]

theorem slice_window (xs rest : List α) (k : Nat) :
    slice (xs ++ rest) (xs.length - k) xs.length = xs.drop (xs.length - k) := by
  rw [slice, List.drop_append_of_le_length (Nat.sub_le _ _)]
  exact List.take_left' List.length_drop

/-- Of blocks of one size, one after another, each is where its place says. -/
theorem slice_flatten {blocks : List (List α)} {size : Nat}
    (h : ∀ block ∈ blocks, block.length = size) {i : Nat} (hi : i < blocks.length) :
    slice blocks.flatten (i * size) ((i + 1) * size) = blocks[i] := by
  induction blocks generalizing i with
  | nil => cases hi
  | cons block blocks ih =>
      have hblock := h block List.mem_cons_self
      rw [List.flatten_cons]
      cases i with
      | zero =>
          rw [Nat.zero_mul, Nat.zero_add, Nat.one_mul, slice, List.drop_zero, Nat.sub_zero,
            ← hblock, List.take_left]
          rfl
      | succ i =>
          have htail := ih (fun b hb => h b (List.mem_cons_of_mem _ hb))
            (Nat.lt_of_succ_lt_succ hi)
          have hwidth : ∀ j, (j + 1) * size - j * size = size := by
            intro j
            rw [Nat.succ_mul, Nat.add_sub_cancel_left]
          rw [slice, hwidth] at htail ⊢
          rw [Nat.succ_mul, Nat.add_comm, ← hblock, List.drop_length_add_append, hblock, htail]
          rfl

/-- One iteration: cut the row's block at the running offset, process it,
advance the offset. -/
def walkStep (count : ι → Nat) (f : ι → List α → Except Error β) (xs : List α)
    (st : Nat × List β) (r : ι) : Except Error (Nat × List β) := do
  let y ← f r (slice xs st.1 (st.1 + count r))
  pure (st.1 + count r, st.2 ++ [y])

/-- The cutting loop. -/
def walk (count : ι → Nat) (f : ι → List α → Except Error β) (xs : List α)
    (rows : List ι) : Except Error (List β) := do
  let st ← rows.foldlM (walkStep count f xs) (0, [])
  pure st.2

/-- The loop invariant: with `pre` already consumed, the rest of the loop
hands the remaining rows their own blocks. -/
theorem foldlM_walkStep {count : ι → Nat} {f : ι → List α → Except Error β}
    {block : ι → List α} (rows : List ι) (h : ∀ r ∈ rows, (block r).length = count r)
    (pre : List α) (out : List β) :
    (do let st ← rows.foldlM (walkStep count f (pre ++ rows.flatMap block)) (pre.length, out)
        pure st.2 : Except Error (List β)) =
      (do let ys ← rows.mapM (fun r => f r (block r))
          pure (out ++ ys)) := by
  induction rows generalizing pre out with
  | nil => simp
  | cons r rows ih =>
      have hr := h r List.mem_cons_self
      have hrows := fun q hq => h q (List.mem_cons_of_mem _ hq)
      simp only [List.foldlM_cons, List.flatMap_cons, List.mapM_cons, walkStep]
      rw [← hr, slice_append]
      cases hf : f r (block r) with
      | error e => simp
      | ok y =>
          have hlen : pre.length + (block r).length = (pre ++ block r).length := by simp
          simp only [ok_bind, pure_eq_ok] at ih ⊢
          rw [hlen, ← List.append_assoc, ih hrows (pre ++ block r) (out ++ [y])]
          cases rows.mapM (fun r => f r (block r)) with
          | error e => simp
          | ok ys => simp

theorem walk_flatMap {count : ι → Nat} {f : ι → List α → Except Error β}
    {block : ι → List α} {rows : List ι} (h : ∀ r ∈ rows, (block r).length = count r) :
    walk count f (rows.flatMap block) rows = rows.mapM (fun r => f r (block r)) := by
  have := foldlM_walkStep (f := f) rows h [] []
  simp only [List.nil_append, List.length_nil] at this
  rw [walk, this]
  cases rows.mapM (fun r => f r (block r)) with
  | error e => rfl
  | ok ys => rfl

theorem length_walk {count : ι → Nat} {f : ι → List α → Except Error β} {xs : List α}
    {rows : List ι} {ys : List β} (h : walk count f xs rows = .ok ys) :
    ys.length = rows.length := by
  obtain ⟨st, hst, h⟩ := bind_eq_ok.mp h
  cases h
  have hstep : ∀ st r st', walkStep count f xs st r = .ok st' →
      st'.2.length = st.2.length + 1 := by
    intro st r st' hpass
    obtain ⟨y, _, hpass⟩ := bind_eq_ok.mp hpass
    cases hpass
    simp
  have hcount := foldlM_count hstep hst
  rw [hcount]
  exact Nat.zero_add _

theorem walk_map {κ : Type u} {count : ι → Nat} {f : ι → List α → Except Error β} {xs : List α}
    (row : κ → ι) (rows : List κ) :
    walk count f xs (rows.map row) = walk (count ∘ row) (fun r => f (row r)) xs rows := by
  rw [walk, walk, List.foldlM_map]
  rfl

/-! ## Pieces of one size -/

/-- `[xs[i : i + size] for i in range(0, len(xs), size)]`. -/
def pieces (size : Nat) (xs : List α) : List (List α) :=
  (List.range ((xs.length + size - 1) / size)).map
    (fun k => slice xs (k * size) (k * size + size))

theorem flatten_pieces_take (size : Nat) (xs : List α) (n : Nat) :
    ((List.range n).map (fun k => slice xs (k * size) (k * size + size))).flatten =
      xs.take (n * size) := by
  induction n with
  | zero => simp
  | succ n ih =>
      rw [List.range_succ, List.map_append, List.flatten_append, ih]
      simp only [slice, List.map_cons, List.map_nil, List.flatten_cons, List.flatten_nil,
        List.append_nil, Nat.add_sub_cancel_left]
      rw [Nat.succ_mul, List.take_add]

/-- No entry is lost and none comes twice. -/
theorem flatten_pieces {size : Nat} (hsize : 0 < size) (xs : List α) :
    (pieces size xs).flatten = xs := by
  rw [pieces, flatten_pieces_take]
  apply List.take_of_length_le
  have hdiv := Nat.div_add_mod (xs.length + size - 1) size
  have hmod := Nat.mod_lt (xs.length + size - 1) hsize
  rw [Nat.mul_comm]
  omega

theorem pieces_ne_nil {xs : List α} (hxs : xs ≠ []) {size : Nat} (hsize : 0 < size) :
    pieces size xs ≠ [] := by
  intro hnil
  have hflat := flatten_pieces hsize xs
  rw [hnil] at hflat
  exact hxs hflat.symm

theorem pieces_nil {size : Nat} (hsize : 0 < size) : pieces size ([] : List α) = [] := by
  have hcount : ([] : List α).length + size - 1 < size := by
    rw [List.length_nil]
    omega
  rw [pieces, Nat.div_eq_of_lt hcount]
  rfl

theorem length_of_mem_pieces {size : Nat} {xs : List α} (hdvd : size ∣ xs.length)
    {piece : List α} (h : piece ∈ pieces size xs) : piece.length = size := by
  rw [pieces, List.mem_map] at h
  obtain ⟨k, hk, rfl⟩ := h
  obtain ⟨n, hn⟩ := hdvd
  rcases Nat.eq_zero_or_pos size with rfl | hsize
  · simp [slice]
  have hcount : (xs.length + size - 1) / size = n := by
    rw [hn]
    refine Nat.div_eq_of_lt_le ?_ ?_
    · rw [Nat.mul_comm]
      omega
    · rw [Nat.succ_mul, Nat.mul_comm n size]
      omega
  rw [hcount] at hk
  have hle : (k + 1) * size ≤ n * size := Nat.mul_le_mul_right _ (List.mem_range.mp hk)
  rw [Nat.succ_mul, Nat.mul_comm n size] at hle
  rw [slice, List.length_take, List.length_drop, hn]
  omega

theorem pieces_map (size : Nat) (xs : List α) (f : α → β) :
    pieces size (xs.map f) = (pieces size xs).map (List.map f) := by
  simp [pieces, slice, List.map_take, List.map_drop]

end Blocks
