/-
# `RLCM.ForcedOutput.CornerFilter` — dropping unanimous prompt groups

`compute_unanimous_group_keep_mask` keeps the samples of the prompt groups in
which some natural traces are correct and some are not.  The mask is computed
by a loop over the groups that clears the entries of every unanimous one;
`keepMask_eq` says which samples it keeps.

`np.unique` sorts the groups; the loop does the same in any order.
-/
import RLCM.Py.Error
import RLCM.Py.Dict
import Mathlib.Data.List.Dedup

namespace RLCM.ForcedOutput

open Py

variable {Uid : Type} [DecidableEq Uid]

/-- The statistics of the filter. -/
structure FilterStats where
  groupsTotal : ℕ
  groupsKeptMixed : ℕ
  groupsDroppedAllCorrect : ℕ
  groupsDroppedAllIncorrect : ℕ
  samplesDropped : ℕ
  samplesKept : ℕ

/-- The mask and the counters of the loop over the groups. -/
structure KeepLoop where
  keepMask : List Bool
  droppedAllCorrectGroups : ℕ
  droppedAllIncorrectGroups : ℕ
  keptMixedGroups : ℕ

/-- `keep_mask[inv == g] = False`. -/
def dropGroup (uids : List Uid) (keepMask : List Bool) (g : Uid) : List Bool :=
  List.zipWith (fun uid keep => if uid = g then false else keep) uids keepMask

/-- The natural correctness of the samples of a group. -/
def groupCorrect (uids : List Uid) (naturalCorrect : List Bool) (g : Uid) : List Bool :=
  Dict.valuesAt (uids.zip naturalCorrect) g

/-- The body of the loop over the groups. -/
def keepStep (uids : List Uid) (naturalCorrect : List Bool) (st : KeepLoop) (g : Uid) :
    KeepLoop :=
  if (groupCorrect uids naturalCorrect g).all id then
    { st with keepMask := dropGroup uids st.keepMask g
              droppedAllCorrectGroups := st.droppedAllCorrectGroups + 1 }
  else if !(groupCorrect uids naturalCorrect g).any id then
    { st with keepMask := dropGroup uids st.keepMask g
              droppedAllIncorrectGroups := st.droppedAllIncorrectGroups + 1 }
  else { st with keptMixedGroups := st.keptMixedGroups + 1 }

def computeUnanimousGroupKeepMask (uids : List Uid) (naturalCorrect : List Bool) :
    Except Error (List Bool × FilterStats) :=
  if uids.length ≠ naturalCorrect.length then
    .error (.valueError ("uids and natural_correct must have the same length, got " ++
      toString uids.length ++ " and " ++ toString naturalCorrect.length))
  else
    let loop := uids.dedup.foldl (keepStep uids naturalCorrect)
      ⟨List.replicate uids.length true, 0, 0, 0⟩
    .ok (loop.keepMask,
      { groupsTotal := uids.dedup.length
        groupsKeptMixed := loop.keptMixedGroups
        groupsDroppedAllCorrect := loop.droppedAllCorrectGroups
        groupsDroppedAllIncorrect := loop.droppedAllIncorrectGroups
        samplesDropped := loop.keepMask.countP (!·)
        samplesKept := loop.keepMask.countP id })

/-! ## Which samples are kept -/

/-- Some traces of the group are correct and some are not. -/
def Mixed (uids : List Uid) (naturalCorrect : List Bool) (g : Uid) : Prop :=
  true ∈ groupCorrect uids naturalCorrect g ∧ false ∈ groupCorrect uids naturalCorrect g

instance (uids : List Uid) (naturalCorrect : List Bool) (g : Uid) :
    Decidable (Mixed uids naturalCorrect g) :=
  inferInstanceAs (Decidable (_ ∧ _))

/-- One step clears the entries of its group unless the group is mixed. -/
theorem keepStep_keepMask (uids : List Uid) (naturalCorrect : List Bool) (st : KeepLoop)
    (g : Uid) :
    (keepStep uids naturalCorrect st g).keepMask =
      if Mixed uids naturalCorrect g then st.keepMask else dropGroup uids st.keepMask g := by
  have hall : (groupCorrect uids naturalCorrect g).all id = true ↔
      false ∉ groupCorrect uids naturalCorrect g := by
    rw [List.all_eq_true]
    constructor
    · intro h hmem
      exact absurd (h false hmem) (by simp)
    · intro h b hb
      cases b with
      | true => rfl
      | false => exact absurd hb h
  have hany : (groupCorrect uids naturalCorrect g).any id = true ↔
      true ∈ groupCorrect uids naturalCorrect g := by
    simp [List.any_eq_true]
  unfold keepStep Mixed
  by_cases hfalse : false ∈ groupCorrect uids naturalCorrect g
  · have hall' : (groupCorrect uids naturalCorrect g).all id = false := by
      rw [← Bool.not_eq_true, hall]
      exact fun h => h hfalse
    by_cases htrue : true ∈ groupCorrect uids naturalCorrect g
    · simp only [hall', hany.mpr htrue, htrue, hfalse]
      simp
    · have hany' : (groupCorrect uids naturalCorrect g).any id = false := by
        rw [← Bool.not_eq_true, hany]
        exact htrue
      simp only [hall', hany', htrue, hfalse]
      simp
  · simp only [hall.mpr hfalse, hfalse]
    simp

/-- After the loop over `groups` exactly the samples of the unanimous ones
among them are cleared. -/
theorem foldl_keepStep (uids : List Uid) (naturalCorrect : List Bool) (groups : List Uid)
    (st : KeepLoop) (hlen : st.keepMask.length = uids.length) :
    (groups.foldl (keepStep uids naturalCorrect) st).keepMask =
      List.zipWith (fun uid keep =>
        if uid ∈ groups ∧ ¬ Mixed uids naturalCorrect uid then false else keep)
        uids st.keepMask := by
  induction groups generalizing st with
  | nil =>
      simp only [List.foldl_nil, List.not_mem_nil, false_and, if_false]
      apply List.ext_getElem
      · simp [hlen]
      · intro i h₁ h₂
        simp
  | cons g groups ih =>
      have hlen' : (keepStep uids naturalCorrect st g).keepMask.length = uids.length := by
        rw [keepStep_keepMask]
        split_ifs
        · exact hlen
        · simp [dropGroup, hlen]
      rw [List.foldl_cons, ih _ hlen', keepStep_keepMask]
      apply List.ext_getElem
      · split_ifs <;> simp [dropGroup, hlen]
      · intro i h₁ h₂
        have hi : i < uids.length := by
          simp only [List.length_zipWith] at h₂
          omega
        by_cases hg : uids[i] = g
        · by_cases hmixed : Mixed uids naturalCorrect g
          · simp [hg, hmixed]
          · simp [hg, hmixed, dropGroup]
        · by_cases hmixed : Mixed uids naturalCorrect g
          · simp [hg, hmixed]
          · simp [hg, hmixed, dropGroup]

theorem keepMask_eq {uids : List Uid} {naturalCorrect : List Bool}
    (hlen : uids.length = naturalCorrect.length) :
    ∃ stats, computeUnanimousGroupKeepMask uids naturalCorrect =
      .ok (uids.map (fun uid => decide (Mixed uids naturalCorrect uid)), stats) := by
  unfold computeUnanimousGroupKeepMask
  rw [if_neg (by simpa using hlen)]
  refine ⟨_, congrArg Except.ok (Prod.ext ?_ rfl)⟩
  simp only
  rw [foldl_keepStep uids naturalCorrect uids.dedup _ (by simp)]
  apply List.ext_getElem
  · simp
  · intro i h₁ h₂
    have hi : i < uids.length := by simpa using h₂
    by_cases hmixed : Mixed uids naturalCorrect uids[i]
    · simp [hmixed]
    · simp [hmixed]

end RLCM.ForcedOutput
