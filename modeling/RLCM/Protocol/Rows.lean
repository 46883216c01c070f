/-
# `RLCM.Protocol.Rows` — cutting, padding and joining the rows of a `DataProto`

The operations of `DataProto` that move whole rows: `chunk`, `concat`, `repeat`,
`padding`, and the pair `pad_dataproto_to_divisor` / `unpad_dataproto`.  A batch is
the list of its rows; every tensor and every entry of `non_tensor_batch` is cut at
the same places, so a row is whatever the columns hold for one sequence.

`pad_dataproto_to_divisor` starts over from the first row until the length fits
(`getElem?_padded`), and `unpad_dataproto` drops exactly what was added.
-/
import RLCM.Lib.Sharding
import Mathlib.Algebra.Ring.Nat
import Mathlib.Algebra.BigOperators.Group.List.Basic

namespace RLCM.Protocol

open Py Sharding

variable {α β : Type}

/-! ## The operations -/

/-- `DataProto.chunk` of a batch that may not be padded.  `chunks` is positive where
it is not an error. -/
def chunk (chunks : ℕ) (rows : List α) : Except Error (List (List α)) :=
  if chunks = 0 then .error .zeroDivisionError
  else if rows.length % chunks ≠ 0 then .error .assertionError
  else .ok ((List.range chunks).map (fun i =>
    Blocks.slice rows (i * (rows.length / chunks)) ((i + 1) * (rows.length / chunks))))

/-- `DataProto.concat`, which looks at the first batch of the list. -/
def concat (data : List (List α)) : Except Error (List α) :=
  if data = [] then .error .indexError else .ok data.flatten

/-- `DataProto.repeat`. -/
def repeatRows (repeatTimes : ℕ) (interleave : Bool) (rows : List α) : List α :=
  if interleave then rows.flatMap (List.replicate repeatTimes)
  else (List.replicate repeatTimes rows).flatten

/-- `DataProto.padding`: copies of the first or of the last row. -/
def padding (paddingSize : ℕ) (paddingCandidate : String) (rows : List α) :
    Except Error (List α) :=
  if paddingSize = 0 then .ok rows
  else do
    let candidate ← getItem rows (if paddingCandidate = "first" then 0 else rows.length - 1)
    concat [rows, repeatRows paddingSize true [candidate]]

/-- The `while` loop of `pad_dataproto_to_divisor`.  A round takes a row at least, so
as many rounds as there are rows to add are enough. -/
def paddingProtos (data : List α) : (fuel remainingPad : ℕ) → List (List α)
  | 0, _ => []
  | fuel + 1, remainingPad =>
      if 0 < remainingPad then
        let takeSize := min remainingPad data.length
        data.take takeSize :: paddingProtos data fuel (remainingPad - takeSize)
      else []

def padDataprotoToDivisor (data : List α) (sizeDivisor : ℕ) : Except Error (List α × ℕ) :=
  if sizeDivisor = 0 then .error .zeroDivisionError
  else if data.length % sizeDivisor ≠ 0 then do
    let padSize := sizeDivisor - data.length % sizeDivisor
    let padded ← concat (data :: paddingProtos data padSize padSize)
    pure (padded, padSize)
  else pure (data, 0)

/-- `unpad_dataproto`: `data[:-pad_size]`. -/
def unpadDataproto (data : List α) (padSize : ℕ) : List α :=
  if padSize ≠ 0 then data.take (data.length - padSize) else data

/-! ## Chunks -/

theorem chunk_eq {k size : ℕ} {rows : List α} (hk : 0 < k) (hlen : rows.length = k * size) :
    chunk k rows = .ok ((List.range k).map (fun r => shard k r rows)) := by
  have hmod : rows.length % k = 0 := by
    rw [hlen]
    exact Nat.mul_mod_right k size
  rw [chunk, if_neg hk.ne', if_neg (not_not.mpr hmod)]
  rfl

/-- A batch is cut exactly when its length fits. -/
theorem chunk_returns {k : ℕ} {rows : List α} :
    (∃ parts, chunk k rows = .ok parts) ↔ 0 < k ∧ k ∣ rows.length := by
  unfold chunk
  constructor
  · rintro ⟨parts, h⟩
    split at h
    · cases h
    · rename_i hk
      split at h
      · cases h
      · rename_i hmod
        exact ⟨Nat.pos_of_ne_zero hk, Nat.dvd_of_mod_eq_zero (not_not.mp hmod)⟩
  · rintro ⟨hk, hdvd⟩
    rw [if_neg hk.ne', if_neg (not_not.mpr (Nat.mod_eq_zero_of_dvd hdvd))]
    exact ⟨_, rfl⟩

theorem concat_ok {data : List (List α)} (h : data ≠ []) : concat data = .ok data.flatten :=
  if_neg h

/-! ## Padding to a divisor -/

/-- What the loop adds goes round and round the batch.  The induction is on the
rounds; after one that was cut short nothing is left to add. -/
theorem getElem?_paddingProtos {data : List α} (hdata : data ≠ []) {fuel remainingPad : ℕ}
    (hfuel : remainingPad ≤ fuel) :
    (paddingProtos data fuel remainingPad).flatten.length = remainingPad ∧
      ∀ i < remainingPad,
        (paddingProtos data fuel remainingPad).flatten[i]? = data[i % data.length]? := by
  have hpos : 0 < data.length := List.length_pos_iff.mpr hdata
  induction fuel generalizing remainingPad with
  | zero =>
      obtain rfl := Nat.le_zero.mp hfuel
      exact ⟨rfl, fun i hi => absurd hi (Nat.not_lt_zero i)⟩
  | succ fuel ih =>
      rw [paddingProtos]
      split
      case isFalse hnone =>
        obtain rfl := Nat.eq_zero_of_not_pos hnone
        exact ⟨rfl, fun i hi => absurd hi (Nat.not_lt_zero i)⟩
      case isTrue hsome =>
        obtain ⟨takeSize, htake⟩ : ∃ takeSize, takeSize = min remainingPad data.length :=
          ⟨_, rfl⟩
        rw [← htake]
        have hlen : (data.take takeSize).length = takeSize := by
          rw [List.length_take]
          omega
        have hfuel' : remainingPad - takeSize ≤ fuel := by omega
        obtain ⟨hrest, hrows⟩ := ih hfuel'
        refine ⟨?_, fun i hi => ?_⟩
        · rw [List.flatten_cons, List.length_append, hrest, hlen]
          omega
        · rw [List.flatten_cons]
          rcases Nat.lt_or_ge i takeSize with hlt | hge
          · rw [List.getElem?_append_left (by omega), List.getElem?_take_of_lt hlt,
              Nat.mod_eq_of_lt (by omega)]
          · have hround : takeSize = data.length := by omega
            rw [List.getElem?_append_right (by omega), hlen, hrows _ (by omega), hround,
              ← Nat.mod_eq_sub_mod (by omega)]

/-- A padded batch. -/
structure Padded (data : List α) (sizeDivisor : ℕ) (padded : List α) (padSize : ℕ) : Prop where
  length_eq : padded.length = data.length + padSize
  dvd : sizeDivisor ∣ padded.length
  least : padSize < sizeDivisor
  take_eq : padded.take data.length = data
  row : ∀ i < padded.length, padded[i]? = data[i % data.length]?

/-- Every batch can be padded, and the rows come round and round. -/
theorem padDataprotoToDivisor_ok (data : List α) {sizeDivisor : ℕ} (hk : 0 < sizeDivisor) :
    ∃ padded padSize, padDataprotoToDivisor data sizeDivisor = .ok (padded, padSize) ∧
      Padded data sizeDivisor padded padSize := by
  rw [padDataprotoToDivisor, if_neg hk.ne']
  split
  case isFalse hfits =>
    have hmod := not_not.mp hfits
    refine ⟨data, 0, rfl, rfl, Nat.dvd_of_mod_eq_zero hmod, hk, List.take_length, ?_⟩
    intro i hi
    rw [Nat.mod_eq_of_lt hi]
  case isTrue hmod =>
    obtain ⟨padSize, hpad⟩ : ∃ padSize, padSize = sizeDivisor - data.length % sizeDivisor :=
      ⟨_, rfl⟩
    have hlt := Nat.mod_lt data.length hk
    have hne : data ≠ [] := by
      rintro rfl
      exact hmod (Nat.zero_mod _)
    obtain ⟨hlen, hrows⟩ := getElem?_paddingProtos hne (le_refl padSize)
    have hwhole : (data :: paddingProtos data padSize padSize).flatten.length =
        data.length + padSize := by
      rw [List.flatten_cons, List.length_append, hlen]
    refine ⟨(data :: paddingProtos data padSize padSize).flatten, padSize, ?_, hwhole, ?_, ?_,
      ?_, ?_⟩
    · rw [← hpad]
      show (concat (data :: paddingProtos data padSize padSize) >>= _) = _
      rw [concat_ok (List.cons_ne_nil _ _)]
      rfl
    · have hdiv := Nat.div_add_mod data.length sizeDivisor
      refine ⟨data.length / sizeDivisor + 1, ?_⟩
      rw [hwhole, Nat.mul_succ]
      omega
    · omega
    · rw [List.flatten_cons, List.take_left]
    · intro i hi
      rw [hwhole] at hi
      rw [List.flatten_cons]
      rcases Nat.lt_or_ge i data.length with hin | hout
      · rw [List.getElem?_append_left hin, Nat.mod_eq_of_lt hin]
      · rw [List.getElem?_append_right hout, hrows _ (by omega), ← Nat.mod_eq_sub_mod hout]

/-- Unpadding drops the rows that were added, whatever they were answered with. -/
theorem unpadDataproto_eq {out : List β} {n padSize : ℕ} (h : out.length = n + padSize) :
    unpadDataproto out padSize = out.take n := by
  unfold unpadDataproto
  split
  case isTrue => rw [h, Nat.add_sub_cancel]
  case isFalse hnone =>
    obtain rfl := not_not.mp hnone
    exact (List.take_of_length_le h.le).symm

end RLCM.Protocol
