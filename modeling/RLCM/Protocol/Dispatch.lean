/-
# `RLCM.Protocol.Dispatch` — a call to a worker group

A call on the driver cuts its arguments along the batch, sends every worker the
part of its data-parallel rank, runs the method on all of them, collects some of
the outputs and concatenates those (`dispatch_nd_compute_dataproto`,
`collect_nd_compute_dataproto`, `func_generator`).  Workers of one data-parallel
rank get the same part; `collect_mask` says which of them answers.

Whether the driver gets the answers in the order of its rows depends on the mesh
alone: the collected workers, in the order of their global ranks, must have the
data-parallel ranks 0, 1, 2, … (`ndCall_answers_iff`).  The meshes the FSDP
workers register have them so.
-/
import RLCM.Protocol.Rows

namespace RLCM.Protocol

open Py Sharding

variable {α β : Type}

/-! ## The call -/

/-- What the workers of a group registered for a mesh, by global rank. -/
structure Mesh where
  dpRankMapping : List ℕ
  collectMask : List Bool
  length_eq : collectMask.length = dpRankMapping.length

namespace Mesh

def worldSize (mesh : Mesh) : ℕ := mesh.dpRankMapping.length

/-- The data-parallel ranks of the workers whose output is collected. -/
def collected (mesh : Mesh) : List ℕ := collect mesh.collectMask mesh.dpRankMapping

end Mesh

/-- `_get_dp_size`, and `dispatch_lazy_compute_data_proto`: `max(dp_rank_mapping) + 1`. -/
def getDpSize (dpRankMapping : List ℕ) : Except Error ℕ := do
  let last ← maxItem dpRankMapping
  pure (last + 1)

/-- `dispatch_nd_compute`: for every argument, what each worker is sent.  The
number of threads is read off the first positional argument. -/
def dispatchNdCompute (dpRankMapping : List ℕ) (dpSize : ℕ) (args kwargs : List (List (List α))) :
    Except Error (List (List (List α))) :=
  if args = [] then .error .indexError
  else (args ++ kwargs).mapM (fun arg =>
    if arg.length ≠ dpSize then .error .assertionError
    else dpRankMapping.mapM (getItem arg))

/-- `execute_all`: worker `i` is called with the `i`-th entry of every argument. -/
def executeAll (worldSize : ℕ) (worker : ℕ → List (List α) → Except Error (List β))
    (args : List (List (List α))) : Except Error (List (List β)) :=
  (List.range worldSize).mapM (fun i => do
    let slicedArgs ← args.mapM (getItem · i)
    worker i slicedArgs)

def collectNdCompute (collectMask : List Bool) (output : List (List β)) : List (List β) :=
  collect collectMask output

/-- A blocking call of a method that is registered for a mesh.  Keyword arguments
are their values; a worker gets them after the positional ones. -/
def ndCall (mesh : Mesh) (worker : ℕ → List (List α) → Except Error (List β))
    (args kwargs : List (List α)) : Except Error (List β) := do
  let dpSize ← getDpSize mesh.dpRankMapping
  let splittedArgs ← args.mapM (chunk dpSize)
  let splittedKwargs ← kwargs.mapM (chunk dpSize)
  let allArgs ← dispatchNdCompute mesh.dpRankMapping dpSize splittedArgs splittedKwargs
  let output ← executeAll mesh.worldSize worker allArgs
  concat (collectNdCompute mesh.collectMask output)

/-! ## What the workers are sent -/

theorem getDpSize_pos {mapping : List ℕ} {dpSize : ℕ} (h : getDpSize mapping = .ok dpSize) :
    0 < dpSize := by
  obtain ⟨last, _, h⟩ := bind_eq_ok.mp h
  cases h
  exact Nat.succ_pos last

theorem lt_of_getDpSize {mapping : List ℕ} {dpSize : ℕ} (h : getDpSize mapping = .ok dpSize)
    {d : ℕ} (hd : d ∈ mapping) : d < dpSize := by
  obtain ⟨last, hmax, h⟩ := bind_eq_ok.mp h
  cases h
  obtain ⟨top, hmax', htop⟩ := maxItem_ok (List.ne_nil_of_mem hd)
  rw [hmax] at hmax'
  cases hmax'
  exact Nat.lt_succ_of_le (htop d hd)

section Call

variable {mesh : Mesh} {dpSize size : ℕ} {args kwargs : List (List α)}
  {worker : ℕ → List (List α) → Except Error (List β)}

variable (worker) in
theorem executeAll_ok {worldSize : ℕ} {whole : List (List α)} {split : List α → List (List α)}
    {sent : ℕ → List α → List α} {Q : ℕ → List β → Prop}
    (hsplit : ∀ arg ∈ whole, ∀ i < worldSize, (split arg)[i]? = some (sent i arg))
    (h : ∀ i < worldSize, ∃ out, worker i (whole.map (sent i)) = .ok out ∧ Q i out) :
    ∃ outs, executeAll worldSize worker (whole.map split) = .ok outs ∧
      outs.length = worldSize ∧ ∀ i out, outs[i]? = some out → Q i out := by
  have hbody : ∀ i < worldSize, (do
      let slicedArgs ← (whole.map split).mapM (getItem · i)
      worker i slicedArgs) = worker i (whole.map (sent i)) := by
    intro i hi
    have hget : (whole.map split).mapM (getItem · i) = .ok (whole.map (sent i)) := by
      rw [List.mapM_map]
      exact mapM_eq_map (fun arg harg => getItem_eq_ok.mpr (hsplit arg harg i hi))
    rw [hget, ok_bind]
  obtain ⟨outs, houts⟩ := mapM_returns (fun i hi => by
    obtain ⟨out, hout, -⟩ := h i (List.mem_range.mp hi)
    exact ⟨out, (hbody i (List.mem_range.mp hi)).trans hout⟩)
  have hlen : outs.length = worldSize := by
    rw [← (mapM_eq_ok.mp houts).length_eq, List.length_range]
  refine ⟨outs, houts, hlen, fun i out hi => ?_⟩
  have hlt : i < worldSize := hlen ▸ (List.getElem?_eq_some_iff.mp hi).1
  obtain ⟨out', hi', hout'⟩ := getElem?_of_mapM houts (List.getElem?_range hlt)
  obtain ⟨answer, hanswer, hQ⟩ := h i hlt
  rw [hi] at hi'
  cases hi'
  rw [hbody i hlt, hanswer] at hout'
  cases hout'
  exact hQ

/-- A call whose workers return on their shards. -/
theorem ndCall_eq {P : ℕ → ℕ → List β → Prop}
    (hdp : getDpSize mesh.dpRankMapping = .ok dpSize) (hargs : args ≠ [])
    (hlen : ∀ arg ∈ args ++ kwargs, arg.length = dpSize * size)
    (h : ∀ i d, mesh.dpRankMapping[i]? = some d →
      ∃ out, worker i ((args ++ kwargs).map (shard dpSize d)) = .ok out ∧ P i d out) :
    ∃ outs, ndCall mesh worker args kwargs = concat (collect mesh.collectMask outs) ∧
      outs.length = mesh.dpRankMapping.length ∧
      ∀ i d out, mesh.dpRankMapping[i]? = some d → outs[i]? = some out → P i d out := by
  have hpos := getDpSize_pos hdp
  let chunks : List α → List (List α) := fun arg => (List.range dpSize).map (shard dpSize · arg)
  have hchunk : ∀ xs : List (List α), (∀ arg ∈ xs, arg ∈ args ++ kwargs) →
      xs.mapM (chunk dpSize) = .ok (xs.map chunks) :=
    fun xs hxs => mapM_eq_map (fun arg harg => chunk_eq hpos (hlen arg (hxs arg harg)))
  let split : List α → List (List α) := fun arg => mesh.dpRankMapping.map (shard dpSize · arg)
  have hdispatch : dispatchNdCompute mesh.dpRankMapping dpSize (args.map chunks)
      (kwargs.map chunks) = .ok ((args ++ kwargs).map split) := by
    have hne : args.map chunks ≠ [] := fun hnil => hargs (List.map_eq_nil_iff.mp hnil)
    rw [dispatchNdCompute, if_neg hne, ← List.map_append, List.mapM_map]
    refine mapM_eq_map (fun arg _ => ?_)
    have hcount : (chunks arg).length = dpSize := by
      rw [List.length_map, List.length_range]
    show (if (chunks arg).length ≠ dpSize then _ else mesh.dpRankMapping.mapM
      (getItem (chunks arg))) = _
    rw [if_neg (not_not.mpr hcount)]
    refine mapM_eq_map (fun d hd => getItem_eq_ok.mpr ?_)
    rw [List.getElem?_map, List.getElem?_range (lt_of_getDpSize hdp hd)]
    rfl
  have hsplit : ∀ arg ∈ args ++ kwargs, ∀ i < mesh.worldSize,
      (split arg)[i]? = some (shard dpSize (mesh.dpRankMapping.getD i 0) arg) := by
    intro arg _ i hi
    rw [List.getElem?_map, List.getD_eq_getElem?_getD, List.getElem?_eq_getElem hi]
    rfl
  obtain ⟨outs, houts, hcount, hQ⟩ := executeAll_ok worker
    (Q := fun i out => ∀ d, mesh.dpRankMapping[i]? = some d → P i d out) hsplit (fun i hi => by
      have hd : mesh.dpRankMapping[i]? = some (mesh.dpRankMapping.getD i 0) := by
        rw [List.getD_eq_getElem?_getD, List.getElem?_eq_getElem hi]
        rfl
      obtain ⟨out, hout, hP⟩ := h i _ hd
      refine ⟨out, hout, fun d hd' => ?_⟩
      rw [hd] at hd'
      cases hd'
      exact hP)
  refine ⟨outs, ?_, hcount, fun i d out hd hi => hQ i out hi d hd⟩
  rw [ndCall, hdp, ok_bind, hchunk args (fun arg => List.mem_append_left _), ok_bind,
    hchunk kwargs (fun arg => List.mem_append_right _), ok_bind, hdispatch, ok_bind, houts]
  rfl

/-- Workers that answer their shards answer the call if the collected ones are
those of the data-parallel ranks in order. -/
theorem ndCall_answers {R : List α → β → Prop}
    (hdp : getDpSize mesh.dpRankMapping = .ok dpSize)
    (hmesh : mesh.collected = List.range dpSize) (hargs : args ≠ [])
    (hlen : ∀ arg ∈ args ++ kwargs, arg.length = dpSize * size)
    (h : ∀ i d, mesh.dpRankMapping[i]? = some d →
      ∃ out, worker i ((args ++ kwargs).map (shard dpSize d)) = .ok out ∧
        (mesh.collectMask[i]? = some true →
          Answers R ((args ++ kwargs).map (shard dpSize d)) out)) :
    ∃ out, ndCall mesh worker args kwargs = .ok out ∧ Answers R (args ++ kwargs) out := by
  obtain ⟨outs, hcall, hcount, hP⟩ := ndCall_eq (P := fun i d out =>
    mesh.collectMask[i]? = some true → Answers R ((args ++ kwargs).map (shard dpSize d)) out)
    hdp hargs hlen h
  have hcollect := forall₂_collect hcount.symm
    (P := fun d out => Answers R ((args ++ kwargs).map (shard dpSize d)) out)
    (fun i d out hmask hd hout => hP i d out hd hout hmask)
  rw [show collect mesh.collectMask mesh.dpRankMapping = List.range dpSize from hmesh] at hcollect
  have hlength : (collect mesh.collectMask outs).length = dpSize := by
    rw [← hcollect.length_eq, List.length_range]
  have hne : collect mesh.collectMask outs ≠ [] :=
    List.length_pos_iff.mp (hlength.symm ▸ getDpSize_pos hdp)
  refine ⟨(collect mesh.collectMask outs).flatten, hcall.trans (concat_ok hne),
    answers_flatten hlen hlength (fun r out hr => ?_)⟩
  have hlt : r < dpSize := hlength ▸ (List.getElem?_eq_some_iff.mp hr).1
  have hget := hcollect.get (i := r) (by rwa [List.length_range])
    (List.getElem?_eq_some_iff.mp hr).1
  rwa [List.get_eq_getElem, List.get_eq_getElem, List.getElem_range,
    (List.getElem?_eq_some_iff.mp hr).2] at hget

end Call

theorem answers_echo (rows : List α) : Answers (fun row y => row = [y]) [rows] rows where
  length_eq arg harg := by rw [List.mem_singleton.mp harg]
  row i y hy := by rw [rowAt, List.filterMap_cons, hy, List.filterMap_nil]

/-- The driver gets every row answered at its own place, for all methods whose
workers answer their own shards, exactly when the collected workers are those of
the data-parallel ranks in order.  Only collected workers have to answer; the
others have to return. -/
theorem ndCall_answers_iff {mesh : Mesh} {dpSize : ℕ}
    (hdp : getDpSize mesh.dpRankMapping = .ok dpSize) :
    (∀ (α β : Type) (R : List α → β → Prop) (worker : ℕ → List (List α) → Except Error (List β))
        (args kwargs : List (List α)) (size : ℕ), args ≠ [] → 0 < size →
      (∀ arg ∈ args ++ kwargs, arg.length = dpSize * size) →
      (∀ i d, mesh.dpRankMapping[i]? = some d →
        ∃ out, worker i ((args ++ kwargs).map (shard dpSize d)) = .ok out ∧
          (mesh.collectMask[i]? = some true →
            Answers R ((args ++ kwargs).map (shard dpSize d)) out)) →
      ∃ out, ndCall mesh worker args kwargs = .ok out ∧ Answers R (args ++ kwargs) out) ↔
    mesh.collected = List.range dpSize := by
  constructor
  · intro h
    -- one row for every rank, returned as it is
    let worker : ℕ → List (List ℕ) → Except Error (List ℕ) := fun _ sliced => .ok sliced.flatten
    have hlen : ∀ arg ∈ [List.range dpSize] ++ [], arg.length = dpSize * 1 := by
      intro arg harg
      rw [List.append_nil, List.mem_singleton] at harg
      rw [harg, List.length_range, Nat.mul_one]
    have hshard : ∀ d < dpSize, shard dpSize d (List.range dpSize) = [d] := by
      intro d hd
      have hsize : (List.range dpSize).length / dpSize = 1 := by
        rw [List.length_range, Nat.div_self (Nat.zero_lt_of_lt hd)]
      rw [shard, hsize, Nat.mul_one, Nat.mul_one, Blocks.slice, Nat.add_sub_cancel_left,
        List.range_eq_range', List.drop_range', List.take_range'_of_length_ge (by omega)]
      rw [Nat.mul_one, Nat.zero_add]
      rfl
    have hworker : ∀ i d, mesh.dpRankMapping[i]? = some d →
        worker i (([List.range dpSize] ++ []).map (shard dpSize d)) = .ok [d] := by
      intro i d hd
      have hlt := lt_of_getDpSize hdp (List.mem_of_getElem? hd)
      show Except.ok ([shard dpSize d (List.range dpSize)].flatten) = _
      rw [hshard d hlt]
      rfl
    obtain ⟨out, hout, hanswers⟩ := h ℕ ℕ (fun row y => row = [y]) worker [List.range dpSize] [] 1
      (List.cons_ne_nil _ _) Nat.one_pos hlen (fun i d hd => by
        refine ⟨[d], hworker i d hd, fun _ => ?_⟩
        have hlt := lt_of_getDpSize hdp (List.mem_of_getElem? hd)
        rw [List.append_nil, List.map_singleton, hshard d hlt]
        exact answers_echo [d])
    obtain ⟨outs, hcall, hcount, hP⟩ := ndCall_eq (P := fun i d out => out = [d]) hdp
      (List.cons_ne_nil _ _) hlen (fun i d hd => ⟨[d], hworker i d hd, rfl⟩)
    have houts : outs = mesh.dpRankMapping.map (fun d => [d]) := by
      refine List.ext_getElem (by rw [hcount, List.length_map]) (fun i hi hi' => ?_)
      rw [List.length_map] at hi'
      rw [List.getElem_map]
      exact hP i _ _ (List.getElem?_eq_getElem hi') (List.getElem?_eq_getElem hi)
    have hflat : out = mesh.collected := by
      rw [hout, houts, collect_map] at hcall
      unfold concat at hcall
      split at hcall
      · cases hcall
      · rw [Except.ok.inj hcall, ← List.flatMap_def, List.flatMap_singleton']
        rfl
    have hlength := hanswers.length_eq _ List.mem_cons_self
    rw [← hflat]
    refine List.ext_getElem hlength.symm (fun i hi hi' => ?_)
    have hrow := hanswers.row i out[i] (List.getElem?_eq_getElem hi)
    rw [List.append_nil, rowAt, List.filterMap_cons, List.getElem?_eq_getElem hi'] at hrow
    exact (List.cons.inj hrow).1.symm
  · intro hmesh α β R worker args kwargs size hargs _ hlen h
    exact ndCall_answers hdp hmesh hargs hlen h

/-- Two data-parallel ranks of two workers each, the first of each collected. -/
def twoByTwo : Mesh where
  dpRankMapping := [0, 0, 1, 1]
  collectMask := [true, false, true, false]
  length_eq := rfl

theorem ndCall_answers_iff_twoByTwo :
    ∃ out, ndCall twoByTwo (fun _ sliced => .ok sliced.flatten) [[5, 6]] [] = .ok out ∧
      Answers (fun row y => row = [y]) [[5, 6]] out := by
  have hdp : getDpSize twoByTwo.dpRankMapping = .ok 2 := rfl
  refine (ndCall_answers_iff hdp).mpr rfl ℕ ℕ _ _ [[5, 6]] [] 1 (List.cons_ne_nil _ _)
    Nat.one_pos (by decide) (fun i d hd => ?_)
  have hd' : d = 0 ∨ d = 1 := by
    have hmem : d ∈ [0, 0, 1, 1] := List.mem_of_getElem? hd
    simpa using hmem
  rcases hd' with rfl | rfl
  · exact ⟨[5], rfl, fun _ => answers_echo [5]⟩
  · exact ⟨[6], rfl, fun _ => answers_echo [6]⟩

/-! ## The meshes of the FSDP workers -/

/-- Every rank registers its data-parallel rank and whether it is collected. -/
def Mesh.register (worldSize : ℕ) (dpRank : ℕ → ℕ) (isCollect : ℕ → Bool) : Mesh where
  dpRankMapping := (List.range worldSize).map dpRank
  collectMask := (List.range worldSize).map isCollect
  length_eq := by rw [List.length_map, List.length_map]

/-- The training mesh of actor, critic and reward model.  The device mesh
`(dp, sp)` numbers its ranks row by row. -/
def trainingMesh (worldSize ulyssesSequenceParallelSize : ℕ) : Mesh :=
  if 1 < ulyssesSequenceParallelSize then
    Mesh.register worldSize (· / ulyssesSequenceParallelSize)
      (fun rank => rank % ulyssesSequenceParallelSize == 0)
  else Mesh.register worldSize id (fun _ => true)

/-- The rollout mesh: `(dp, infer_tp, infer_pp)`, row by row. -/
def rolloutMesh (rolloutName : String) (worldSize inferTp inferPp : ℕ) : Except Error Mesh :=
  let inferWorldSize := inferTp * inferPp
  if inferWorldSize = 0 then .error .zeroDivisionError
  else if worldSize % inferWorldSize ≠ 0 then .error .assertionError
  else if rolloutName = "hf" then .ok (Mesh.register worldSize id (fun _ => true))
  else .ok (Mesh.register worldSize (· / inferWorldSize)
    (fun rank => rank / inferPp % inferTp == 0 && rank % inferPp == 0))

/-- Of `w` neighbouring ranks the first is collected. -/
theorem filter_range_mod (dp w : ℕ) (hw : 0 < w) :
    ((List.range (dp * w)).filter (fun rank => rank % w == 0)).map (· / w) = List.range dp := by
  induction dp with
  | zero => rw [Nat.zero_mul, List.range_zero, List.filter_nil, List.map_nil]
  | succ dp ih =>
      obtain ⟨v, rfl⟩ := Nat.exists_eq_succ_of_ne_zero hw.ne'
      have hfirst : ((List.range (v + 1)).map (dp * (v + 1) + ·)).filter
          (fun rank => rank % (v + 1) == 0) = [dp * (v + 1)] := by
        rw [List.filter_map, List.range_succ_eq_map, List.filter_cons_of_pos, List.map_cons,
          List.filter_eq_nil_iff.mpr, List.map_nil, Nat.add_zero]
        · intro i hi
          obtain ⟨j, hj, rfl⟩ := List.mem_map.mp hi
          rw [Function.comp_apply, beq_iff_eq, Nat.mul_add_mod_of_lt
            (Nat.succ_lt_succ (List.mem_range.mp hj))]
          exact Nat.succ_ne_zero j
        · rw [Function.comp_apply, beq_iff_eq, Nat.add_zero, Nat.mul_mod_left]
      rw [Nat.succ_mul, List.range_add, List.filter_append, List.map_append, ih, hfirst,
        List.map_singleton, Nat.mul_div_cancel _ hw, List.range_succ]

theorem collected_register (worldSize : ℕ) (dpRank : ℕ → ℕ) (isCollect : ℕ → Bool) :
    (Mesh.register worldSize dpRank isCollect).collected =
      ((List.range worldSize).filter isCollect).map dpRank := by
  show collect ((List.range worldSize).map isCollect) ((List.range worldSize).map dpRank) = _
  rw [collect_map]
  congr 1
  induction List.range worldSize with
  | nil => rfl
  | cons rank ranks ih =>
      rw [List.map_cons, collect_cons, List.filter_cons, ih]

/-- The data-parallel ranks are all there and the collected ones in order. -/
structure Mesh.InOrder (mesh : Mesh) (dpSize : ℕ) : Prop where
  dpSize_eq : getDpSize mesh.dpRankMapping = .ok dpSize
  collected_eq : mesh.collected = List.range dpSize

theorem inOrder_register {dp w : ℕ} (hdp : 0 < dp) (hw : 0 < w) {isCollect : ℕ → Bool}
    (h : ∀ rank, isCollect rank = (rank % w == 0)) :
    (Mesh.register (dp * w) (· / w) isCollect).InOrder dp where
  dpSize_eq := by
    have hlast : dp - 1 ∈ (List.range (dp * w)).map (· / w) := by
      refine List.mem_map.mpr ⟨(dp - 1) * w, List.mem_range.mpr ?_, Nat.mul_div_cancel _ hw⟩
      exact Nat.mul_lt_mul_of_pos_right (Nat.sub_lt hdp Nat.one_pos) hw
    obtain ⟨top, hmax, htop⟩ := maxItem_ok (List.ne_nil_of_mem hlast)
    obtain ⟨rank, hrank, heq⟩ := List.mem_map.mp (mem_of_maxItem hmax)
    have hlt : rank / w < dp := Nat.div_lt_of_lt_mul (Nat.mul_comm dp w ▸ List.mem_range.mp hrank)
    have hle := htop _ hlast
    show getDpSize ((List.range (dp * w)).map (· / w)) = _
    rw [getDpSize, hmax, ok_bind]
    exact congrArg Except.ok (by omega)
  collected_eq := by
    rw [collected_register, List.filter_congr (fun rank _ => h rank), filter_range_mod dp w hw]

/-- A mesh the FSDP workers register, with its data-parallel size. -/
inductive FsdpMesh : ℕ → Mesh → Prop
  | training (dp sp : ℕ) : 0 < dp → 0 < sp → FsdpMesh dp (trainingMesh (dp * sp) sp)
  | rollout {name : String} {worldSize tp pp : ℕ} {mesh : Mesh} : 0 < worldSize →
      rolloutMesh name worldSize tp pp = .ok mesh →
      FsdpMesh (if name = "hf" then worldSize else worldSize / (tp * pp)) mesh

theorem inOrder_register_id {worldSize : ℕ} (h : 0 < worldSize) :
    (Mesh.register worldSize id (fun _ => true)).InOrder worldSize := by
  have hone : (Mesh.register (worldSize * 1) (· / 1) (fun _ => true)).InOrder worldSize :=
    inOrder_register h Nat.one_pos (fun rank => by rw [Nat.mod_one]; rfl)
  rw [Nat.mul_one] at hone
  rwa [show (fun rank : ℕ => rank / 1) = id from funext Nat.div_one] at hone

theorem FsdpMesh.inOrder {dp : ℕ} {mesh : Mesh} (h : FsdpMesh dp mesh) : mesh.InOrder dp := by
  cases h with
  | training dp sp hdp hsp =>
      unfold trainingMesh
      split
      case isTrue => exact inOrder_register hdp hsp (fun _ => rfl)
      case isFalse hsp' =>
        obtain rfl : sp = 1 := by omega
        rw [Nat.mul_one]
        exact inOrder_register_id hdp
  | @rollout name worldSize tp pp mesh hpos hmesh =>
      unfold rolloutMesh at hmesh
      dsimp only at hmesh
      split at hmesh
      case isTrue => cases hmesh
      case isFalse hinfer =>
        split at hmesh
        case isTrue => cases hmesh
        case isFalse hmod =>
          split at hmesh
          case isTrue hhf =>
            cases hmesh
            rw [if_pos hhf]
            exact inOrder_register_id hpos
          case isFalse hhf =>
            cases hmesh
            rw [if_neg hhf]
            have hdvd := Nat.dvd_of_mod_eq_zero (not_not.mp hmod)
            have hmul : worldSize / (tp * pp) * (tp * pp) = worldSize :=
              Nat.div_mul_cancel hdvd
            have hw := Nat.pos_of_ne_zero hinfer
            have hdp : 0 < worldSize / (tp * pp) := Nat.div_pos (Nat.le_of_dvd hpos hdvd) hw
            have hcollect : ∀ rank, (rank / pp % tp == 0 && rank % pp == 0) =
                (rank % (tp * pp) == 0) := by
              intro rank
              have hpp : 0 < pp := Nat.pos_of_mul_pos_left hw
              rw [Nat.mul_comm tp pp, Nat.mod_mul, Bool.eq_iff_iff, Bool.and_eq_true,
                beq_iff_eq, beq_iff_eq, beq_iff_eq, Nat.add_eq_zero_iff, Nat.mul_eq_zero]
              omega
            have hall := inOrder_register hdp hw hcollect
            rwa [hmul] at hall

/-- The data-parallel ranks share the workers evenly. -/
theorem FsdpMesh.dvd_worldSize {dp : ℕ} {mesh : Mesh} (h : FsdpMesh dp mesh) :
    dp ∣ mesh.worldSize := by
  have hregister : ∀ worldSize dpRank isCollect,
      (Mesh.register worldSize dpRank isCollect).worldSize = worldSize := by
    intro worldSize dpRank isCollect
    show ((List.range worldSize).map dpRank).length = _
    rw [List.length_map, List.length_range]
  cases h with
  | training dp sp =>
      unfold trainingMesh
      split
      all_goals
        rw [hregister]
        exact Nat.dvd_mul_right dp sp
  | @rollout name worldSize tp pp mesh hpos hmesh =>
      unfold rolloutMesh at hmesh
      dsimp only at hmesh
      split at hmesh
      case isTrue => cases hmesh
      case isFalse =>
        split at hmesh
        case isTrue => cases hmesh
        case isFalse hmod =>
          split at hmesh
          case isTrue hhf =>
            cases hmesh
            rw [if_pos hhf, hregister]
          case isFalse hhf =>
            cases hmesh
            rw [if_neg hhf, hregister]
            exact Nat.div_dvd_of_dvd (Nat.dvd_of_mod_eq_zero (not_not.mp hmod))

/-- A call on a mesh of the FSDP workers returns exactly when the data-parallel
ranks share the rows evenly, and the driver gets every row answered at its own
place.  The workers beside the first of a data-parallel rank answer nothing. -/
theorem ndCall_fsdp {dp n : ℕ} {mesh : Mesh} (hmesh : FsdpMesh dp mesh) {R : List α → β → Prop}
    {worker : ℕ → List (List α) → Except Error (List β)} {args kwargs : List (List α)}
    (hargs : args ≠ []) (hlen : ∀ arg ∈ args ++ kwargs, arg ≠ [] ∧ arg.length = n)
    (h : ∀ i d, mesh.dpRankMapping[i]? = some d →
      ∃ out, worker i ((args ++ kwargs).map (shard dp d)) = .ok out ∧
        (mesh.collectMask[i]? = some true →
          Answers R ((args ++ kwargs).map (shard dp d)) out)) :
    ((∃ out, ndCall mesh worker args kwargs = .ok out) ↔ dp ∣ n) ∧
      ∀ out, ndCall mesh worker args kwargs = .ok out → Answers R (args ++ kwargs) out := by
  obtain ⟨hdp, hcollected⟩ := hmesh.inOrder
  have hdvd : ∀ out, ndCall mesh worker args kwargs = .ok out → dp ∣ n := by
    intro out hcall
    rw [ndCall, hdp, ok_bind] at hcall
    obtain ⟨splitted, hsplit, -⟩ := bind_eq_ok.mp hcall
    obtain ⟨arg, harg⟩ := List.exists_mem_of_ne_nil args hargs
    obtain ⟨parts, hparts⟩ := mapM_returns_iff.mp ⟨splitted, hsplit⟩ arg harg
    exact (hlen arg (List.mem_append_left _ harg)).2 ▸ (chunk_returns.mp ⟨parts, hparts⟩).2
  have hanswers : dp ∣ n → ∃ out, ndCall mesh worker args kwargs = .ok out ∧
      Answers R (args ++ kwargs) out := by
    rintro ⟨size, rfl⟩
    exact ndCall_answers hdp hcollected hargs (fun arg harg => (hlen arg harg).2) h
  refine ⟨⟨fun ⟨out, hcall⟩ => hdvd out hcall, fun hn => ?_⟩, fun out hcall => ?_⟩
  · obtain ⟨out, hcall, -⟩ := hanswers hn
    exact ⟨out, hcall⟩
  · obtain ⟨out', hcall', hrows⟩ := hanswers (hdvd out hcall)
    rw [hcall] at hcall'
    cases hcall'
    exact hrows

theorem ndCall_fsdp_fourWorkers :
    (∃ out, ndCall (trainingMesh 4 2) (fun _ sliced => .ok sliced.flatten) [[5, 6]] [] =
      .ok out) ∧ ∀ out,
      ndCall (trainingMesh 4 2) (fun _ sliced => .ok sliced.flatten) [[5, 6]] [] = .ok out →
        Answers (fun row y => row = [y]) [[5, 6]] out := by
  have h := @ndCall_fsdp ℕ ℕ 2 2 _ (FsdpMesh.training 2 2 Nat.two_pos Nat.two_pos)
    (fun row y => row = [y]) (fun _ sliced => .ok sliced.flatten) [[5, 6]] []
    (List.cons_ne_nil _ _) (by decide) (fun i d hd => by
      have hd' : d = 0 ∨ d = 1 := by
        have hmem : d ∈ [0, 0, 1, 1] := List.mem_of_getElem? hd
        simpa using hmem
      rcases hd' with rfl | rfl
      · exact ⟨[5], rfl, fun _ => answers_echo [5]⟩
      · exact ⟨[6], rfl, fun _ => answers_echo [6]⟩)
  exact ⟨h.1.mpr (dvd_refl 2), h.2⟩

end RLCM.Protocol
