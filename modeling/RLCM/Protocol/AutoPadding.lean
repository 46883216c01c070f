/-
# `RLCM.Protocol.AutoPadding` — calls on batches that do not divide

Two ways to call a worker group with a batch whose length is no multiple of the
number of workers.

`DP_COMPUTE_PROTO` pads by itself: `dispatch_dp_compute_data_proto` appends copies
of the last row to every argument that may be padded, and `func_generator` cuts the
output again (`dpComputeCall_spec`).  The padding is done in place, so the caller's
batch keeps the copies, and the next call with it answers them too.

Validation pads explicitly: `pad_dataproto_to_divisor`, then the generation on
the rollout workers or on the agent loop workers, then `unpad_dataproto`
(`generatePadded_answers`).
-/
import RLCM.Protocol.Dispatch

namespace RLCM.Protocol

open Py Sharding

variable {α β : Type}

/-! ## The calls -/

/-- The rows of a `DataProto`, and `is_padding_enabled`: whether its `meta_info`, the
configuration or the environment lets it be padded. -/
structure DataProto (α : Type) where
  rows : List α
  paddingEnabled : Bool
deriving DecidableEq

/-- `padding_size` for a batch of `n` rows. -/
def paddingSize (chunks n : ℕ) : ℕ := if 0 < n % chunks then chunks - n % chunks else 0

/-- `data_proto_len` and `padding_size`, which the first argument that may be padded
sets for the others. -/
def sharedPadding (chunks n : ℕ) : Option (ℕ × ℕ) → Except Error (ℕ × ℕ)
  | none => if chunks = 0 then .error .zeroDivisionError else .ok (n, paddingSize chunks n)
  | some (dataProtoLen, size) =>
      if dataProtoLen = n then .ok (dataProtoLen, size) else .error .assertionError

/-- `_padding_and_split_data`: the chunks, and the argument as it is afterwards. -/
def paddingAndSplitData (chunks : ℕ) (state : Option (ℕ × ℕ)) (obj : DataProto α) :
    Except Error (Option (ℕ × ℕ) × List (List α) × DataProto α) :=
  if obj.paddingEnabled then do
    let (dataProtoLen, size) ← sharedPadding chunks obj.rows.length state
    let rows ← padding size "" obj.rows
    let parts ← chunk chunks rows
    pure (some (dataProtoLen, size), parts, { obj with rows })
  else do
    let parts ← chunk chunks obj.rows
    pure (state, parts, obj)

/-- The loop over the arguments. -/
def splitStep (chunks : ℕ) (st : Option (ℕ × ℕ) × List (List (List α)) × List (DataProto α))
    (obj : DataProto α) :
    Except Error (Option (ℕ × ℕ) × List (List (List α)) × List (DataProto α)) := do
  let (state, parts, obj) ← paddingAndSplitData chunks st.1 obj
  pure (state, st.2.1 ++ [parts], st.2.2 ++ [obj])

/-- A blocking call under `DP_COMPUTE_PROTO`, positional arguments before keyword
arguments: the output, and the arguments as the caller has them afterwards. -/
def dpComputeCall (worldSize : ℕ) (worker : ℕ → List (List α) → Except Error (List β))
    (args : List (DataProto α)) : Except Error (List β × List (DataProto α)) := do
  let (state, parts, left) ← args.foldlM (splitStep worldSize) (none, [], [])
  let output ← executeAll worldSize worker parts
  let output ← concat output
  let paddingCount := (state.map Prod.snd).getD 0
  pure (if 0 < paddingCount then output.take (output.length - paddingCount) else output, left)

/-- `AgentLoopManager.generate_sequences`: every agent loop worker gets its chunk. -/
def generateSequences (numWorkers : ℕ) (worker : ℕ → List (List α) → Except Error (List β))
    (prompts : List α) : Except Error (List β) := do
  let chunks ← chunk numWorkers prompts
  let outputs ← executeAll numWorkers worker [chunks]
  concat outputs

/-- The generation in `_validate`. -/
def generatePadded (sizeDivisor : ℕ) (generate : List α → Except Error (List β))
    (testGenBatch : List α) : Except Error (List β) := do
  let (padded, padSize) ← padDataprotoToDivisor testGenBatch sizeDivisor
  let output ← generate padded
  pure (unpadDataproto output padSize)

/-! ## All workers -/

section Workers

variable {k size : ℕ} {R : List α → β → Prop}
  {worker : ℕ → List (List α) → Except Error (List β)}

/-- Workers that answer what they are sent. -/
def AnswersAll (R : List α → β → Prop) (worker : ℕ → List (List α) → Except Error (List β))
    (count : ℕ) : Prop :=
  ∀ i sliced m, sliced.length = count → (∀ arg ∈ sliced, arg.length = m) →
    ∃ out, worker i sliced = .ok out ∧ Answers R sliced out

theorem length_shard {rows : List α} {r : ℕ} (hlen : rows.length = k * size) (hr : r < k) :
    (shard k r rows).length = size := by
  have hsize : rows.length / k = size := by
    rw [hlen, Nat.mul_div_cancel_left _ (Nat.zero_lt_of_lt hr)]
  have hle : (r + 1) * size ≤ k * size := Nat.mul_le_mul_right _ hr
  rw [Nat.succ_mul] at hle
  rw [shard, hsize, Blocks.slice, List.length_take, List.length_drop, hlen, Nat.succ_mul]
  omega

theorem executeAll_shards {whole : List (List α)} (hk : 0 < k)
    (hlen : ∀ arg ∈ whole, arg.length = k * size) (h : AnswersAll R worker whole.length) :
    ∃ outs, executeAll k worker
        (whole.map (fun arg => (List.range k).map (shard k · arg))) = .ok outs ∧
      concat outs = .ok outs.flatten ∧ Answers R whole outs.flatten := by
  obtain ⟨outs, houts, hcount, hanswers⟩ := executeAll_ok worker
    (Q := fun i out => Answers R (whole.map (shard k i)) out)
    (fun arg _ i hi => by rw [List.getElem?_map, List.getElem?_range hi]; rfl)
    (fun i hi => h i (whole.map (shard k i)) size (List.length_map _) (fun arg harg => by
      obtain ⟨a, ha, rfl⟩ := List.mem_map.mp harg
      exact length_shard (hlen a ha) hi))
  exact ⟨outs, houts, concat_ok (List.length_pos_iff.mp (hcount.symm ▸ hk)),
    answers_flatten hlen hcount hanswers⟩

end Workers

/-! ## Padding in place -/

/-- `p` copies of the last row at the end. -/
def padLast (p : ℕ) (rows : List α) : List α :=
  rows ++ rows.getLast?.elim [] (List.replicate p)

/-- What an argument is after the call. -/
def DataProto.padded (p : ℕ) (obj : DataProto α) : DataProto α :=
  if obj.paddingEnabled then { obj with rows := padLast p obj.rows } else obj

theorem padLast_zero (rows : List α) : padLast 0 rows = rows := by
  unfold padLast
  cases rows.getLast? with
  | none => exact List.append_nil rows
  | some x => exact List.append_nil rows

theorem padLast_of_ne_nil (p : ℕ) {rows : List α} (h : rows ≠ []) :
    padLast p rows = rows ++ List.replicate p (rows.getLast h) := by
  rw [padLast, List.getLast?_eq_some_getLast h]
  rfl

theorem padding_ok (p : ℕ) {rows : List α} (h : rows ≠ []) :
    padding p "" rows = .ok (padLast p rows) := by
  unfold padding
  split
  case isTrue hp => rw [hp, padLast_zero]
  case isFalse =>
    have hlast : getItem rows (rows.length - 1) = .ok (rows.getLast h) := by
      rw [getItem_of_lt (Nat.sub_lt (List.length_pos_iff.mpr h) Nat.one_pos),
        List.getLast_eq_getElem]
    rw [if_neg (by decide), hlast, ok_bind, concat_ok (List.cons_ne_nil _ _),
      padLast_of_ne_nil p h, repeatRows, if_pos rfl]
    rw [List.flatten_cons, List.flatten_singleton, List.flatMap_singleton]

section Padding

variable {k n : ℕ} {obj : DataProto α} {args : List (DataProto α)}

theorem dvd_add_paddingSize (hk : 0 < k) (n : ℕ) : k ∣ n + paddingSize k n := by
  have hdiv := Nat.div_add_mod n k
  have hlt := Nat.mod_lt n hk
  unfold paddingSize
  split
  case isTrue =>
    refine ⟨n / k + 1, ?_⟩
    rw [Nat.mul_succ]
    omega
  case isFalse hnone =>
    rw [Nat.eq_zero_of_not_pos hnone, Nat.add_zero] at hdiv
    exact ⟨n / k, hdiv.symm⟩

theorem paddingSize_eq_zero_iff (hk : 0 < k) : paddingSize k n = 0 ↔ k ∣ n := by
  have hlt := Nat.mod_lt n hk
  rw [Nat.dvd_iff_mod_eq_zero]
  unfold paddingSize
  split
  case isTrue => omega
  case isFalse => omega

/-- An argument that the call can cut: it may be padded, or it divides as it is. -/
def Cuttable (k n : ℕ) (obj : DataProto α) : Prop :=
  obj.rows ≠ [] ∧ obj.rows.length = n ∧ (obj.paddingEnabled = true ∨ paddingSize k n = 0)

theorem Cuttable.length_padded (h : Cuttable k n obj) :
    (obj.padded (paddingSize k n)).rows.length = n + paddingSize k n := by
  obtain ⟨hne, hlen, hpad⟩ := h
  unfold DataProto.padded
  split
  case isTrue =>
    rw [padLast_of_ne_nil _ hne, List.length_append, List.length_replicate, hlen]
  case isFalse hdisabled =>
    rw [hpad.resolve_left hdisabled, hlen]
    rfl

theorem Cuttable.take_padded (h : Cuttable k n obj) :
    (obj.padded (paddingSize k n)).rows.take n = obj.rows := by
  obtain ⟨hne, rfl, _⟩ := h
  unfold DataProto.padded
  split
  case isTrue => rw [padLast_of_ne_nil _ hne, List.take_left]
  case isFalse => exact List.take_length

theorem paddingAndSplitData_ok (hk : 0 < k) (h : Cuttable k n obj)
    {state : Option (ℕ × ℕ)} (hstate : state = none ∨ state = some (n, paddingSize k n)) :
    paddingAndSplitData k state obj =
      .ok (if obj.paddingEnabled then some (n, paddingSize k n) else state,
        (List.range k).map (shard k · (obj.padded (paddingSize k n)).rows),
        obj.padded (paddingSize k n)) := by
  obtain ⟨size, hsize⟩ := dvd_add_paddingSize hk n
  have hchunk := chunk_eq hk (h.length_padded.trans hsize)
  obtain ⟨hne, hlen, hpad⟩ := h
  unfold paddingAndSplitData
  unfold DataProto.padded at hchunk ⊢
  split
  case isTrue henabled =>
    rw [if_pos henabled] at hchunk
    have hshared : sharedPadding k obj.rows.length state = .ok (n, paddingSize k n) := by
      rw [hlen]
      rcases hstate with rfl | rfl
      · exact if_neg hk.ne'
      · exact if_pos rfl
    rw [hshared, ok_bind]
    show (padding (paddingSize k n) "" obj.rows >>= _) = _
    rw [padding_ok _ hne, ok_bind, hchunk]
    rfl
  case isFalse hdisabled =>
    rw [if_neg hdisabled] at hchunk
    rw [hchunk]
    rfl

/-- All arguments.  The length and the number of copies are set by the first
argument that may be padded, and then stay. -/
theorem splitArgs_ok (hk : 0 < k) (h : ∀ obj ∈ args, Cuttable k n obj)
    {state : Option (ℕ × ℕ)} (hstate : state = none ∨ state = some (n, paddingSize k n))
    (parts : List (List (List α))) (left : List (DataProto α)) :
    ∃ state', args.foldlM (splitStep k) (state, parts, left) =
        .ok (state', parts ++ args.map (fun obj =>
            (List.range k).map (shard k · (obj.padded (paddingSize k n)).rows)),
          left ++ args.map (DataProto.padded (paddingSize k n))) ∧
      (state' = some (n, paddingSize k n) ∨
        state = none ∧ state' = none ∧ ∀ obj ∈ args, obj.paddingEnabled = false) := by
  induction args generalizing state parts left with
  | nil =>
      refine ⟨state, ?_, ?_⟩
      · rw [List.map_nil, List.map_nil, List.append_nil, List.append_nil]
        rfl
      · exact hstate.elim (fun hnone => Or.inr ⟨hnone, hnone, List.forall_mem_nil _⟩) Or.inl
  | cons obj args ih =>
      have hobj := paddingAndSplitData_ok hk (h obj List.mem_cons_self) hstate
      have hnext : (if obj.paddingEnabled then some (n, paddingSize k n) else state) = none ∨
          (if obj.paddingEnabled then some (n, paddingSize k n) else state) =
            some (n, paddingSize k n) := by
        split
        case isTrue => exact Or.inr rfl
        case isFalse => exact hstate
      obtain ⟨state', hrest, hlast⟩ := ih (fun o ho => h o (List.mem_cons_of_mem _ ho)) hnext
        (parts ++ [(List.range k).map (shard k · (obj.padded (paddingSize k n)).rows)])
        (left ++ [obj.padded (paddingSize k n)])
      refine ⟨state', ?_, ?_⟩
      · rw [List.foldlM_cons, splitStep, hobj, ok_bind]
        rw [List.append_assoc, List.append_assoc] at hrest
        exact hrest
      · rcases hlast with hsome | ⟨hbefore, hnone, hrestDisabled⟩
        · exact Or.inl hsome
        · cases hobjEnabled : obj.paddingEnabled with
          | true =>
              rw [if_pos hobjEnabled] at hbefore
              cases hbefore
          | false =>
              rw [if_neg (by rw [hobjEnabled]; exact Bool.false_ne_true)] at hbefore
              exact Or.inr ⟨hbefore, hnone,
                List.forall_mem_cons.mpr ⟨hobjEnabled, hrestDisabled⟩⟩

/-- An argument that may not be padded must divide as it is. -/
theorem dvd_of_splitArgs {st st' : Option (ℕ × ℕ) × List (List (List α)) × List (DataProto α)}
    (h : args.foldlM (splitStep k) st = .ok st') (hobj : obj ∈ args)
    (hdisabled : obj.paddingEnabled = false) : k ∣ obj.rows.length := by
  induction args generalizing st with
  | nil => cases hobj
  | cons first args ih =>
      rw [List.foldlM_cons] at h
      obtain ⟨next, hnext, hrest⟩ := bind_eq_ok.mp h
      rcases List.mem_cons.mp hobj with rfl | hobj
      · obtain ⟨cut, hcut, -⟩ := bind_eq_ok.mp hnext
        rw [paddingAndSplitData, if_neg (by rw [hdisabled]; exact Bool.false_ne_true)] at hcut
        obtain ⟨parts, hparts, -⟩ := bind_eq_ok.mp hcut
        exact (chunk_returns.mp ⟨parts, hparts⟩).2
      · exact ih hrest hobj

variable {R : List α → β → Prop} {worker : ℕ → List (List α) → Except Error (List β)}

/-- Arguments that can be cut are answered row by row, and padded. -/
theorem dpComputeCall_ok (hk : 0 < k) (hargs : args ≠ []) (h : ∀ obj ∈ args, Cuttable k n obj)
    (hworker : AnswersAll R worker args.length) :
    ∃ out, dpComputeCall k worker args =
        .ok (out, args.map (DataProto.padded (paddingSize k n))) ∧
      Answers R (args.map DataProto.rows) out := by
  obtain ⟨size, hsize⟩ := dvd_add_paddingSize hk n
  obtain ⟨state, hsplit, hstate⟩ := splitArgs_ok hk h (Or.inl rfl) [] []
  let whole : List (List α) := args.map (fun obj => (obj.padded (paddingSize k n)).rows)
  have hlen : ∀ arg ∈ whole, arg.length = k * size := by
    intro arg harg
    obtain ⟨obj, hobj, rfl⟩ := List.mem_map.mp harg
    exact (h obj hobj).length_padded.trans hsize
  have hcount : whole.length = args.length := List.length_map _
  obtain ⟨outs, houts, hconcat, hanswers⟩ := executeAll_shards hk hlen (hcount.symm ▸ hworker)
  have hparts : args.map (fun obj =>
      (List.range k).map (shard k · (obj.padded (paddingSize k n)).rows)) =
      whole.map (fun arg => (List.range k).map (shard k · arg)) := by
    rw [List.map_map]
    rfl
  have htotal : outs.flatten.length = n + paddingSize k n := by
    obtain ⟨obj, hobj⟩ := List.exists_mem_of_ne_nil args hargs
    rw [← hanswers.length_eq _ (List.mem_map.mpr ⟨obj, hobj, rfl⟩)]
    exact (h obj hobj).length_padded
  -- what is cut off again is what was padded
  have hpadding : (state.map Prod.snd).getD 0 = paddingSize k n := by
    rcases hstate with rfl | ⟨-, rfl, hdisabled⟩
    · rfl
    · obtain ⟨obj, hobj⟩ := List.exists_mem_of_ne_nil args hargs
      have hfits := (h obj hobj).2.2
      rw [hdisabled obj hobj] at hfits
      exact (hfits.resolve_left Bool.false_ne_true).symm
  have hcut : (if 0 < paddingSize k n then
      outs.flatten.take (outs.flatten.length - paddingSize k n) else outs.flatten) =
      outs.flatten.take n := by
    rw [htotal, Nat.add_sub_cancel]
    split
    case isTrue => rfl
    case isFalse hnone =>
      refine (List.take_of_length_le ?_).symm
      rw [htotal, Nat.eq_zero_of_not_pos hnone]
      exact le_rfl
  have hrows : whole.map (List.take n) = args.map DataProto.rows := by
    rw [List.map_map]
    exact List.map_congr_left (fun obj hobj => (h obj hobj).take_padded)
  refine ⟨outs.flatten.take n, ?_, hrows ▸ hanswers.take n⟩
  rw [dpComputeCall, hsplit, ok_bind]
  show (executeAll k worker ([] ++ args.map _) >>= _) = _
  rw [List.nil_append, hparts, houts, ok_bind, hconcat, ok_bind]
  show Except.ok (if 0 < (state.map Prod.snd).getD 0 then
    outs.flatten.take (outs.flatten.length - (state.map Prod.snd).getD 0) else outs.flatten,
    [] ++ args.map (DataProto.padded (paddingSize k n))) = _
  rw [hpadding, hcut, List.nil_append]

/-- The call returns exactly when its arguments divide or may all be padded.  The
caller gets one answer for every row it passed, but its arguments keep the copies
that were appended, and the same call once more answers those as well. -/
theorem dpComputeCall_spec (hk : 0 < k) (hargs : args ≠ [])
    (hlen : ∀ obj ∈ args, obj.rows ≠ [] ∧ obj.rows.length = n)
    (hworker : AnswersAll R worker args.length) :
    ((∃ result, dpComputeCall k worker args = .ok result) ↔
      k ∣ n ∨ ∀ obj ∈ args, obj.paddingEnabled = true) ∧
    ∀ out left, dpComputeCall k worker args = .ok (out, left) →
      Answers R (args.map DataProto.rows) out ∧
      left = args.map (DataProto.padded (paddingSize k n)) ∧
      ∃ again, dpComputeCall k worker left = .ok (again, left) ∧
        Answers R (left.map DataProto.rows) again := by
  have hcuttable : (k ∣ n ∨ ∀ obj ∈ args, obj.paddingEnabled = true) →
      ∀ obj ∈ args, Cuttable k n obj := by
    intro hfits obj hobj
    refine ⟨(hlen obj hobj).1, (hlen obj hobj).2, ?_⟩
    exact hfits.elim (fun hdvd => Or.inr ((paddingSize_eq_zero_iff hk).mpr hdvd))
      (fun henabled => Or.inl (henabled obj hobj))
  have hfits : ∀ result, dpComputeCall k worker args = .ok result →
      k ∣ n ∨ ∀ obj ∈ args, obj.paddingEnabled = true := by
    intro result hcall
    obtain ⟨st, hst, -⟩ := bind_eq_ok.mp hcall
    by_cases hall : ∀ obj ∈ args, obj.paddingEnabled = true
    · exact Or.inr hall
    · obtain ⟨obj, hobj, hdisabled⟩ : ∃ obj ∈ args, obj.paddingEnabled = false := by
        simpa using hall
      exact Or.inl ((hlen obj hobj).2 ▸ dvd_of_splitArgs hst hobj hdisabled)
  refine ⟨⟨fun ⟨result, hcall⟩ => hfits result hcall, fun hcond => ?_⟩, ?_⟩
  · obtain ⟨out, hcall, -⟩ := dpComputeCall_ok hk hargs (hcuttable hcond) hworker
    exact ⟨_, hcall⟩
  · intro out left hcall
    have hcut := hcuttable (hfits _ hcall)
    obtain ⟨out', hcall', hanswers⟩ := dpComputeCall_ok hk hargs hcut hworker
    rw [hcall] at hcall'
    cases hcall'
    refine ⟨hanswers, rfl, ?_⟩
    -- the padded arguments divide, so nothing is added and nothing cut off
    have hzero : paddingSize k (n + paddingSize k n) = 0 :=
      (paddingSize_eq_zero_iff hk).mpr (dvd_add_paddingSize hk n)
    have hagain : ∀ obj ∈ args.map (DataProto.padded (paddingSize k n)),
        Cuttable k (n + paddingSize k n) obj := by
      intro obj hobj
      obtain ⟨first, hfirst, rfl⟩ := List.mem_map.mp hobj
      refine ⟨?_, (hcut first hfirst).length_padded, Or.inr hzero⟩
      rw [← List.length_pos_iff, (hcut first hfirst).length_padded]
      have hpos := List.length_pos_iff.mpr (hlen first hfirst).1
      rw [(hlen first hfirst).2] at hpos
      omega
    have hsame : (args.map (DataProto.padded (paddingSize k n))).map (DataProto.padded 0) =
        args.map (DataProto.padded (paddingSize k n)) := by
      conv_rhs => rw [← List.map_id (args.map (DataProto.padded (paddingSize k n)))]
      refine List.map_congr_left (fun obj _ => ?_)
      unfold DataProto.padded
      rw [padLast_zero, ite_self]
      rfl
    obtain ⟨again, hcallAgain, hanswersAgain⟩ := dpComputeCall_ok hk
      (fun hnil => hargs (List.map_eq_nil_iff.mp hnil)) hagain
      (by rw [List.length_map]; exact hworker)
    rw [hzero, hsame] at hcallAgain
    exact ⟨again, hcallAgain, hanswersAgain⟩

end Padding

/-- A worker that returns what it is sent. -/
def echo (_rank : ℕ) (sliced : List (List α)) : Except Error (List α) := .ok sliced.flatten

theorem answersAll_echo : AnswersAll (fun (row : List α) y => row = [y]) echo 1 := by
  intro i sliced m hone _
  obtain ⟨rows, rfl⟩ := List.length_eq_one_iff.mp hone
  refine ⟨rows, ?_, answers_echo rows⟩
  exact congrArg Except.ok (List.flatten_singleton)

/-- Three rows on two workers: the first call answers three rows, the second four. -/
theorem dpComputeCall_spec_three :
    Answers (fun row y => row = [y]) [[5, 6, 7]] [5, 6, 7] ∧
      ∃ again, dpComputeCall 2 echo [⟨[5, 6, 7, 7], true⟩] = .ok (again, [⟨[5, 6, 7, 7], true⟩]) ∧
        Answers (fun row y => row = [y]) [[5, 6, 7, 7]] again := by
  have h := (@dpComputeCall_spec ℕ ℕ 2 3 [⟨[5, 6, 7], true⟩] _ echo Nat.two_pos
    (List.cons_ne_nil _ _) (by decide) answersAll_echo).2 [5, 6, 7] [⟨[5, 6, 7, 7], true⟩]
    (by decide)
  exact ⟨h.1, h.2.2⟩

/-! ## Validation -/

section Validation

variable {R : List α → β → Prop} {worker : ℕ → List (List α) → Except Error (List β)}

/-- A generation that answers every batch its workers can share answers every
batch once that is padded. -/
theorem generatePadded_ok {sizeDivisor : ℕ} (hk : 0 < sizeDivisor) (rows : List α)
    {generate : List α → Except Error (List β)}
    (h : ∀ padded, sizeDivisor ∣ padded.length →
      ∃ out, generate padded = .ok out ∧ Answers R [padded] out) :
    ∃ out, generatePadded sizeDivisor generate rows = .ok out ∧ Answers R [rows] out := by
  obtain ⟨padded, padSize, hpad, hpadded⟩ := padDataprotoToDivisor_ok rows hk
  obtain ⟨out, hout, hanswers⟩ := h padded hpadded.dvd
  have hlen : out.length = rows.length + padSize := by
    rw [← hanswers.length_eq padded List.mem_cons_self, hpadded.length_eq]
  have hfirst := hanswers.take rows.length
  rw [List.map_singleton, hpadded.take_eq] at hfirst
  refine ⟨out.take rows.length, ?_, hfirst⟩
  rw [generatePadded, hpad, ok_bind]
  show (generate padded >>= _) = _
  rw [hout, ok_bind, unpadDataproto_eq hlen]
  rfl

theorem generateSequences_answers {numWorkers : ℕ} (hk : 0 < numWorkers)
    (hworker : AnswersAll R worker 1) {padded : List α} (hdvd : numWorkers ∣ padded.length) :
    ∃ out, generateSequences numWorkers worker padded = .ok out ∧ Answers R [padded] out := by
  obtain ⟨size, hsize⟩ := hdvd
  have hlen : ∀ arg ∈ [padded], arg.length = numWorkers * size := by
    intro arg harg
    rw [List.mem_singleton.mp harg, hsize]
  obtain ⟨outs, houts, hconcat, hanswers⟩ := executeAll_shards hk hlen hworker
  refine ⟨outs.flatten, ?_, hanswers⟩
  rw [generateSequences, chunk_eq hk hsize, ok_bind]
  exact (congrArg (· >>= concat) houts).trans hconcat

/-- Validation generates for every batch, whatever its length: on the agent loop
workers, and on a mesh of the FSDP workers, of which only the collected ones have to
answer.  Every row of the batch itself is answered at its own place, and no answer
to a padded row is left. -/
theorem generatePadded_answers (R : List α → β → Prop)
    (worker : ℕ → List (List α) → Except Error (List β)) (first : α) (rest : List α) :
    (∀ numWorkers, 0 < numWorkers → AnswersAll R worker 1 →
      ∃ out, generatePadded numWorkers (generateSequences numWorkers worker) (first :: rest) =
          .ok out ∧ Answers R [first :: rest] out) ∧
    ∀ dp mesh, FsdpMesh dp mesh →
      (∀ i sliced, sliced.length = 1 → ∃ out, worker i sliced = .ok out ∧
        (mesh.collectMask[i]? = some true → Answers R sliced out)) →
      ∃ out, generatePadded mesh.worldSize (fun padded => ndCall mesh worker [padded] [])
          (first :: rest) = .ok out ∧ Answers R [first :: rest] out := by
  constructor
  · intro numWorkers hk hworker
    exact generatePadded_ok hk _ (fun padded => generateSequences_answers hk hworker)
  · intro dp mesh hmesh hworker
    obtain ⟨hdp, hcollected⟩ := hmesh.inOrder
    have hworld : 0 < mesh.worldSize := by
      refine List.length_pos_iff.mpr (fun hnil => ?_)
      rw [hnil] at hdp
      cases hdp
    refine generatePadded_ok hworld _ (fun padded hdvd => ?_)
    obtain ⟨size, hsize⟩ := hmesh.dvd_worldSize.trans hdvd
    have hlen : ∀ arg ∈ [padded] ++ [], arg.length = dp * size := by
      intro arg harg
      rw [List.append_nil, List.mem_singleton] at harg
      rw [harg, hsize]
    exact ndCall_answers hdp hcollected (List.cons_ne_nil _ _) hlen
      (fun i d _ => hworker i _ rfl)

/-- Three rows on two agent loop workers, and on a mesh of four workers. -/
theorem generatePadded_answers_three :
    (∃ out, generatePadded 2 (generateSequences 2 echo) [5, 6, 7] = .ok out ∧
      Answers (fun row y => row = [y]) [[5, 6, 7]] out) ∧
    ∃ out, generatePadded (trainingMesh 4 2).worldSize
        (fun padded => ndCall (trainingMesh 4 2) echo [padded] []) [5, 6, 7] = .ok out ∧
      Answers (fun row y => row = [y]) [[5, 6, 7]] out := by
  have h := @generatePadded_answers ℕ ℕ (fun row y => row = [y]) echo 5 [6, 7]
  refine ⟨h.1 2 Nat.two_pos answersAll_echo,
    h.2 2 _ (FsdpMesh.training 2 2 Nat.two_pos Nat.two_pos) (fun i sliced hone => ?_)⟩
  obtain ⟨rows, rfl⟩ := List.length_eq_one_iff.mp hone
  exact ⟨rows, congrArg Except.ok (List.flatten_singleton), fun _ => answers_echo rows⟩

end Validation

end RLCM.Protocol
