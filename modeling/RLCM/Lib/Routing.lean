/-
# `RLCM.Lib.Routing` — items sent to queues, and the results handed back

Items wait in queues by their label.  Every queue is processed in one batch, which gives one
result for each item of the queue, in order; the results are written to the places of the
items, in a row of slots that were empty.

What comes back to the items of a queue, in their order, is the batch of that queue
(`slotsOf_writeBack`), and the items of the other queues keep what they have
(`slotsOf_writeBack_of_ne`): no result is lost, none is handed out twice, and none strays into
another queue.
-/
import RLCM.Lib.Scatter

namespace Routing

variable {α ω κ : Type*} [DecidableEq κ] (label : α → κ)

def places (xs : List α) (q : κ) : List ℕ :=
  (xs.zipIdx.filter (fun xi => label xi.1 = q)).map Prod.snd

/-- The loop `for result, i in zip(results, places): slots[i] = result`. -/
def writeBack (slots : List (Option ω)) (places : List ℕ) (results : List ω) :
    List (Option ω) :=
  Scatter.scatter slots ((results.zip places).map (fun ri => (ri.2, some ri.1)))

@[simp] theorem length_writeBack (slots : List (Option ω)) (places : List ℕ)
    (results : List ω) : (writeBack slots places results).length = slots.length :=
  Scatter.length_scatter _ _

def slotsOf (xs : List α) (slots : List (Option ω)) (q : κ) : List (Option ω) :=
  ((xs.zip slots).filter (fun xs => label xs.1 = q)).map Prod.snd

theorem nodup_places (xs : List α) (q : κ) : (places label xs q).Nodup := by
  have hsub : (places label xs q).Sublist (xs.zipIdx.map Prod.snd) :=
    List.filter_sublist.map _
  refine hsub.nodup ?_
  rw [List.zipIdx_map_snd]
  exact List.nodup_range'

variable {label}

theorem mem_places {xs : List α} {q : κ} {i : ℕ} :
    i ∈ places label xs q ↔ ∃ x, xs[i]? = some x ∧ label x = q := by
  rw [places, List.mem_map]
  constructor
  · rintro ⟨⟨x, j⟩, hmem, rfl⟩
    obtain ⟨hmem, hlabel⟩ := List.mem_filter.mp hmem
    exact ⟨x, List.mem_zipIdx_iff_getElem?.mp hmem, of_decide_eq_true hlabel⟩
  · rintro ⟨x, hx, hlabel⟩
    exact ⟨(x, i), List.mem_filter.mpr ⟨List.mem_zipIdx_iff_getElem?.mpr hx,
      decide_eq_true hlabel⟩, rfl⟩

theorem length_places (xs : List α) (q : κ) :
    (places label xs q).length = (xs.filter (fun x => label x = q)).length := by
  have hfst : (xs.zipIdx.filter (fun xi => label xi.1 = q)).map Prod.fst =
      xs.filter (fun x => label x = q) := by
    conv_rhs => rw [← List.zipIdx_map_fst 0 xs, List.filter_map]
    rfl
  rw [places, List.length_map, ← hfst, List.length_map]

theorem slotsOf_eq_map {xs : List α} {slots : List (Option ω)} (hlen : slots.length = xs.length)
    (q : κ) : slotsOf label xs slots q = (places label xs q).map (fun i => slots[i]?.join) := by
  have hzip : xs.zip slots = xs.zipIdx.map (fun xi => (xi.1, slots[xi.2]?.join)) := by
    apply List.ext_getElem
    · rw [List.length_zip, List.length_map, List.length_zipIdx, hlen, min_self]
    · intro i h₁ h₂
      have hi : i < slots.length := (Nat.lt_min.mp (by simpa using h₁)).2
      simp [hi]
  rw [slotsOf, hzip, List.filter_map, List.map_map, places, List.map_map]
  rfl

/-- The items of a queue get its results, in order. -/
theorem slotsOf_writeBack {xs : List α} {slots : List (Option ω)}
    (hlen : slots.length = xs.length) {q : κ} {results : List ω}
    (hresults : results.length = (xs.filter (fun x => label x = q)).length) :
    slotsOf label xs (writeBack slots (places label xs q) results) q = results.map some := by
  have hlen' : results.length = (places label xs q).length := by
    rw [hresults, length_places]
  rw [slotsOf_eq_map (by rw [length_writeBack, hlen])]
  have hkeys : ((results.zip (places label xs q)).map
      (fun ri => (ri.2, some ri.1))).map Prod.fst = places label xs q := by
    rw [List.map_map]
    exact List.map_snd_zip hlen'.ge
  apply List.ext_getElem
  · rw [List.length_map, List.length_map, hlen']
  · intro k h₁ h₂
    have hk : k < results.length := by simpa using h₂
    have hk' : k < (places label xs q).length := hlen' ▸ hk
    obtain ⟨x, hx, -⟩ := mem_places.mp (List.getElem_mem hk')
    -- the k-th write puts the k-th result to the k-th place
    have hwrite : ((places label xs q)[k], some results[k]) ∈
        (results.zip (places label xs q)).map (fun ri => (ri.2, some ri.1)) := by
      refine List.mem_map.mpr ⟨(results[k], (places label xs q)[k]), ?_, rfl⟩
      refine List.mem_iff_getElem.mpr ⟨k, ?_, List.getElem_zip⟩
      rw [List.length_zip]
      exact Nat.lt_min.mpr ⟨hk, hk'⟩
    have hslot := Scatter.getElem?_scatter_of_mem (by rw [hkeys]; exact nodup_places label xs q)
      hwrite (hlen ▸ (List.getElem?_eq_some_iff.mp hx).1 : _ < slots.length)
    rw [List.getElem_map, List.getElem_map]
    show (Scatter.scatter slots _)[(places label xs q)[k]]?.join = some results[k]
    rw [hslot]
    rfl

/-- The items of another queue keep what they have. -/
theorem slotsOf_writeBack_of_ne {xs : List α} {slots : List (Option ω)}
    (hlen : slots.length = xs.length) {q q' : κ} (hq : q' ≠ q) (results : List ω) :
    slotsOf label xs (writeBack slots (places label xs q) results) q' =
      slotsOf label xs slots q' := by
  rw [slotsOf_eq_map (by rw [length_writeBack, hlen]), slotsOf_eq_map hlen]
  apply List.map_congr_left
  intro i hi
  obtain ⟨x, hx, hlabel⟩ := mem_places.mp hi
  have hnot : i ∉ ((results.zip (places label xs q)).map
      (fun ri => (ri.2, some ri.1))).map Prod.fst := by
    rw [List.map_map]
    intro hmem
    obtain ⟨⟨r, j⟩, hrj, hj⟩ := List.mem_map.mp hmem
    obtain rfl : j = i := hj
    obtain ⟨y, hy, hlabel'⟩ := mem_places.mp (List.of_mem_zip hrj).2
    obtain rfl : x = y := Option.some.inj (hx.symm.trans hy)
    exact hq (hlabel.symm.trans hlabel')
  rw [writeBack, Scatter.getElem?_scatter_of_notMem hnot]

/-- Nothing is there before anything is written. -/
theorem slotsOf_replicate (xs : List α) (q : κ) :
    slotsOf label xs (List.replicate xs.length (none : Option ω)) q =
      List.replicate (xs.filter (fun x => label x = q)).length none := by
  rw [slotsOf_eq_map List.length_replicate, ← length_places]
  refine List.eq_replicate_iff.mpr ⟨List.length_map _, ?_⟩
  intro slot hslot
  obtain ⟨i, hi, rfl⟩ := List.mem_map.mp hslot
  obtain ⟨x, hx, -⟩ := mem_places.mp hi
  rw [List.getElem?_replicate_of_lt (List.getElem?_eq_some_iff.mp hx).1]
  rfl

end Routing
