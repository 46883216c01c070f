/-
# `RLCM.ForcedOutput.BudgetLists` — rewards booked under the configured budgets

The agent loop resolves the configured budgets against the length of a trace
and keeps a set of cut points; the trainer later resolves the same budgets a
second time, to book the reward of each cut point under the budgets it stands
for.  The two resolutions happen in different components, and the second one
finds a reward by a dictionary lookup that may also find nothing.

`CutPoints` says what the cut points of a trace are.
`getD_perBudgetRewardLists` says what is booked: under every configured budget one
entry a sample, the weighted reward of the point the budget resolves to, and no
entry when that point is not positive.
-/
import RLCM.ForcedOutput.ProbePairs

namespace RLCM.ForcedOutput

open Py Stats

variable {Token Truth Info : Type} {d L : ℕ}

/-! ## Cut points -/

/-- The cut points of a trace of length `traceLength`: the resolved budgets,
ascending, clamped to the trace, positive; with the full trace if asked for. -/
structure CutPoints (budgets : List Budget) (traceLength : ℕ) : Prop where
  ascending : StrictAsc (computeBudgetTruncationLengths traceLength budgets)
  within : ∀ p ∈ computeBudgetTruncationLengths traceLength budgets, 1 ≤ p ∧ p ≤ traceLength
  resolved : ∀ p : ℕ, p ∈ computeBudgetTruncationLengths traceLength budgets ↔
    0 < p ∧ ∃ b ∈ budgets, resolveBudgetCheckpoint traceLength b = p
  full_ascending : StrictAsc (truncationLengths budgets true traceLength)
  full_mem : traceLength ∈ truncationLengths budgets true traceLength

theorem mem_truncationLengths {budgets : List Budget} {includeFullTrace : Bool}
    {traceLength p : ℕ} : p ∈ truncationLengths budgets includeFullTrace traceLength ↔
      p ∈ computeBudgetTruncationLengths traceLength budgets ∨
        (includeFullTrace = true ∧ p = traceLength) := by
  unfold truncationLengths
  simp only
  split_ifs with h
  · rw [List.mem_insertionSort, List.mem_append, List.mem_singleton]
    simp [h.1]
  · refine ⟨Or.inl, fun hp => ?_⟩
    rcases hp with hp | ⟨hfull, rfl⟩
    · exact hp
    · by_contra hmem
      exact h ⟨hfull, hmem⟩

theorem cutPoints (budgets : List Budget) (traceLength : ℕ) : CutPoints budgets traceLength where
  ascending := computeBudgetTruncationLengths_strictAsc traceLength budgets
  within := by
    intro p hp
    obtain ⟨hpos, b, -, hb⟩ := mem_computeBudgetTruncationLengths.mp hp
    have hle := resolveBudgetCheckpoint_le traceLength b
    omega
  resolved := fun _ => mem_computeBudgetTruncationLengths
  full_ascending := truncationLengths_strictAsc budgets true traceLength
  full_mem := mem_truncationLengths.mpr (Or.inr ⟨rfl, rfl⟩)

/-- A budget that resolves to a positive length is one of the cut points, and
no cut point of a non-empty trace is zero. -/
theorem resolved_mem_truncationLengths {budgets : List Budget} {includeFullTrace : Bool}
    {traceLength : ℕ} (hT : 1 ≤ traceLength) {b : Budget} (hb : b ∈ budgets) {p : ℕ}
    (hp : resolveBudgetCheckpoint traceLength b = p) :
    p ∈ truncationLengths budgets includeFullTrace traceLength ↔ 0 < p := by
  rw [mem_truncationLengths, mem_computeBudgetTruncationLengths]
  constructor
  · rintro (⟨hpos, -⟩ | ⟨-, rfl⟩)
    · exact hpos
    · exact hT
  · intro hpos
    exact Or.inl ⟨hpos, b, hb, hp⟩

/-! ## What the agent loop hands over -/

def TraceSample.traceLength (sample : TraceSample Token Truth Info d) : ℕ :=
  sample.thinkingOutput.tokenIds.length

/-- The row of a trace of length `traceLength` that was cut at these
budgets. -/
def CutRow (budgets : List Budget) (includeFullTrace : Bool) (traceLength : ℕ)
    (item : Item Token Truth Info) : Prop :=
  item.traceLength = some traceLength ∧
    item.budgets = truncationLengths budgets includeFullTrace traceLength

section Loop

variable [DecidableEq Token] (tok : Tokenizer Token) (agentCfg : AgentLoopConfig)

/-- Whatever the number of answers: a run that returns stores the cut points
and the length of its trace. -/
theorem extraFields_of_run {promptIds : List Token} {thinkingOutput : ThinkingOutput Token}
    {generate : ℕ → List Token → List Token} {out : AgentLoopOutput Token}
    (h : run tok agentCfg promptIds thinkingOutput generate = .ok out) :
    out.extraFields.budgetCheckpoints = budgetsOf agentCfg thinkingOutput.tokenIds ∧
      out.extraFields.traceLength = thinkingOutput.tokenIds.length := by
  unfold run at h
  obtain ⟨texts, -, h⟩ := bind_eq_ok.mp h
  -- The two branches differ in the response only.
  dsimp only at h
  split_ifs at h
  · cases h
    exact ⟨rfl, rfl⟩
  · cases h
    exact ⟨rfl, rfl⟩

theorem cutRows_of_rollout {samples : List (TraceSample Token Truth Info d)}
    {items : List (Item Token Truth Info)} (h : rolloutItems tok agentCfg samples = .ok items) :
    List.Forall₂ (CutRow agentCfg.budgetCheckpoints agentCfg.includeFullTrace)
      (samples.map TraceSample.traceLength) items := by
  rw [List.forall₂_map_left_iff]
  refine (mapM_eq_ok.mp h).imp (fun sample item hitem => ?_)
  obtain ⟨out, hout, hitem⟩ := bind_eq_ok.mp hitem
  obtain ⟨hbudgets, hlength⟩ := extraFields_of_run tok agentCfg hout
  cases hitem
  refine ⟨congrArg some hlength, ?_⟩
  have hforced : (sample.item out).hasForcedOutputs = true := rfl
  rw [Item.budgets, if_pos hforced]
  exact hbudgets

end Loop

/-! ## Booking -/

section Config

variable (cfg : TrainerConfig) (tok : Tokenizer Token) (scorer : Scorer Truth Info)

def pointReward (item : Item Token Truth Info) (point : ℕ) : ℚ :=
  aggregatedScore cfg scorer item point * cfg.foBudgetRewardWeight

def budgetEntry (traceLength : ℕ) (item : Item Token Truth Info) (b : Budget) : List ℚ :=
  let resolvedBudget := resolveBudgetCheckpoint traceLength b
  if 0 < resolvedBudget then [pointReward cfg scorer item resolvedBudget.toNat] else []

def clampedRewards (item : Item Token Truth Info) : Dict ℕ ℚ :=
  Dict.assign ∅ (item.budgets.map (fun point => (point, pointReward cfg scorer item point)))

theorem lookup_clampedRewards {item : Item Token Truth Info} (hnodup : item.budgets.Nodup)
    (point : ℕ) : (clampedRewards cfg scorer item).lookup point =
      if point ∈ item.budgets then some (pointReward cfg scorer item point) else none := by
  split_ifs with hmem
  · refine Dict.lookup_assign ∅ ?_ (List.mem_map.mpr ⟨point, hmem, rfl⟩)
    rw [List.map_map]
    simpa [Function.comp_def] using hnodup
  · rw [clampedRewards, Dict.lookup_assign_of_forall_ne, AList.lookup_empty]
    rintro kv hkv rfl
    obtain ⟨q, hq, rfl⟩ := List.mem_map.mp hkv
    exact hmem hq

theorem clampedRewards_of_ok {item : Item Token Truth Info} {sample : SampleReward × Dict ℕ ℚ}
    (h : sampleReward cfg tok scorer item = .ok sample) :
    sample.2 = clampedRewards cfg scorer item := by
  rw [sampleReward_eq] at h
  obtain ⟨rs, hrs, h⟩ := bind_eq_ok.mp h
  cases h
  obtain rfl := rawBudgetRewards_of_ok cfg scorer hrs
  show Dict.assign ∅ _ = Dict.assign ∅ _
  rw [List.map_zip_eq_zipWith, List.zipWith_map_right, List.zipWith_self]
  rfl

/-- Booking one budget appends the entry of the sample under that budget. -/
theorem getD_attributeStep {includeFullTrace : Bool} {traceLength : ℕ} (hT : 1 ≤ traceLength)
    {item : Item Token Truth Info}
    (hrow : CutRow cfg.foBudgetCheckpoints includeFullTrace traceLength item)
    {b : Budget} (hb : b ∈ cfg.foBudgetCheckpoints) (lists : Dict ℚ (List ℚ)) (key : ℚ) :
    (attributeStep traceLength (clampedRewards cfg scorer item) lists b).getD key [] =
      lists.getD key [] ++
        if b.value = key then budgetEntry cfg scorer traceLength item b else [] := by
  obtain ⟨-, hbudgets⟩ := hrow
  have hnodup : item.budgets.Nodup := by
    rw [hbudgets]
    exact (truncationLengths_strictAsc _ _ _).nodup
  have hfound : ∀ p : ℕ, resolveBudgetCheckpoint traceLength b = p →
      (p ∈ item.budgets ↔ 0 < p) := by
    intro p hp
    rw [hbudgets]
    exact resolved_mem_truncationLengths hT hb hp
  simp only [attributeStep, budgetEntry]
  rcases lt_trichotomy (resolveBudgetCheckpoint traceLength b) 0 with hneg | hzero | hpos
  · rw [if_neg (not_le.mpr hneg), if_neg (not_lt.mpr hneg.le)]
    simp
  · have habsent : ¬ 0 ∈ item.budgets := fun hmem => lt_irrefl _ ((hfound 0 hzero).mp hmem)
    rw [if_pos hzero.ge, if_neg hzero.not_gt, hzero, lookup_clampedRewards cfg scorer hnodup]
    simp [habsent]
  · have hmem : (resolveBudgetCheckpoint traceLength b).toNat ∈ item.budgets := by
      refine (hfound _ ?_).mpr ?_
      · omega
      · omega
    rw [if_pos hpos.le, if_pos hpos, lookup_clampedRewards cfg scorer hnodup, if_pos hmem]
    exact Dict.getD_append lists b.value _ key

/-- The entries of a sample under a key: those of the budgets with that
value. -/
def keyEntries (traceLength : ℕ) (item : Item Token Truth Info) (key : ℚ) : List ℚ :=
  cfg.foBudgetCheckpoints.flatMap (fun b =>
    if b.value = key then budgetEntry cfg scorer traceLength item b else [])

theorem getD_bookSample {includeFullTrace : Bool} {traceLength : ℕ} (hT : 1 ≤ traceLength)
    {item : Item Token Truth Info}
    (hrow : CutRow cfg.foBudgetCheckpoints includeFullTrace traceLength item)
    {sample : SampleReward × Dict ℕ ℚ} (hsample : sampleReward cfg tok scorer item = .ok sample)
    (lists : Dict ℚ (List ℚ)) (key : ℚ) :
    (bookSample cfg lists item sample).getD key [] =
      lists.getD key [] ++ keyEntries cfg scorer traceLength item key := by
  rw [bookSample, hrow.1, Option.getD_some, clampedRewards_of_ok cfg tok scorer hsample,
    keyEntries]
  have hmem : ∀ b ∈ cfg.foBudgetCheckpoints, b ∈ cfg.foBudgetCheckpoints := fun _ hb => hb
  -- over the part of the budgets that was already booked
  suffices hpart : ∀ budgets : List Budget, (∀ b ∈ budgets, b ∈ cfg.foBudgetCheckpoints) →
      ∀ lists : Dict ℚ (List ℚ),
        (budgets.foldl (attributeStep traceLength (clampedRewards cfg scorer item)) lists).getD
            key [] = lists.getD key [] ++ budgets.flatMap (fun b =>
              if b.value = key then budgetEntry cfg scorer traceLength item b else []) from
    hpart _ hmem lists
  intro budgets hsub lists
  induction budgets generalizing lists with
  | nil => simp
  | cons b budgets ih =>
      have hb : b ∈ cfg.foBudgetCheckpoints := hsub b List.mem_cons_self
      rw [List.foldl_cons, ih (fun c hc => hsub c (List.mem_cons_of_mem _ hc)),
        getD_attributeStep cfg scorer hT hrow hb, List.flatMap_cons, List.append_assoc]

theorem keyEntries_value (hdistinct : (cfg.foBudgetCheckpoints.map Budget.value).Nodup)
    (traceLength : ℕ) (item : Item Token Truth Info) {b : Budget}
    (hb : b ∈ cfg.foBudgetCheckpoints) :
    keyEntries cfg scorer traceLength item b.value =
      budgetEntry cfg scorer traceLength item b :=
  Dict.flatMap_key hdistinct hb (budgetEntry cfg scorer traceLength item)

theorem keyEntries_eq_nil (traceLength : ℕ) (item : Item Token Truth Info) {key : ℚ}
    (hkey : ∀ b ∈ cfg.foBudgetCheckpoints, b.value ≠ key) :
    keyEntries cfg scorer traceLength item key = [] := by
  rw [keyEntries, List.flatMap_eq_nil_iff]
  intro b hb
  exact if_neg (hkey b hb)

theorem getD_foldl_bookSample {includeFullTrace : Bool} {lengths : List ℕ}
    {items : List (Item Token Truth Info)} {samples : List (SampleReward × Dict ℕ ℚ)}
    (hlengths : ∀ traceLength ∈ lengths, 1 ≤ traceLength)
    (hrows : List.Forall₂ (CutRow cfg.foBudgetCheckpoints includeFullTrace) lengths items)
    (hsamples : List.Forall₂ (fun item sample => sampleReward cfg tok scorer item = .ok sample)
      items samples) (lists : Dict ℚ (List ℚ)) (key : ℚ) :
    ((items.zip samples).foldl (fun lists p => bookSample cfg lists p.1 p.2) lists).getD key [] =
      lists.getD key [] ++
        (lengths.zip items).flatMap (fun row => keyEntries cfg scorer row.1 row.2 key) := by
  induction hrows generalizing samples lists with
  | nil =>
      cases hsamples
      simp
  | cons hrow _ ih =>
      cases hsamples with
      | cons hsample hsamples =>
          rw [List.zip_cons_cons, List.foldl_cons,
            ih (fun n hn => hlengths n (List.mem_cons_of_mem _ hn)) hsamples,
            getD_bookSample cfg tok scorer (hlengths _ List.mem_cons_self) hrow hsample,
            List.zip_cons_cons, List.flatMap_cons, List.append_assoc]

theorem getD_perBudgetRewardLists {batch : Batch Token Truth Info L}
    {out : ForcedOutputRewards L} (h : computeForcedOutputRewards cfg tok scorer batch = .ok out)
    {includeFullTrace : Bool} {lengths : List ℕ}
    (hlengths : ∀ traceLength ∈ lengths, 1 ≤ traceLength)
    (hrows : List.Forall₂ (CutRow cfg.foBudgetCheckpoints includeFullTrace) lengths batch.items)
    (key : ℚ) :
    out.perBudgetRewardLists.getD key [] =
      (lengths.zip batch.items).flatMap (fun row => keyEntries cfg scorer row.1 row.2 key) := by
  rw [computeForcedOutputRewards_eq] at h
  obtain ⟨samples, hsamples, h⟩ := bind_eq_ok.mp h
  obtain ⟨aggregated, -, h⟩ := bind_eq_ok.mp h
  obtain ⟨tensor, -, h⟩ := bind_eq_ok.mp h
  cases h
  exact getD_foldl_bookSample cfg tok scorer hlengths hrows (mapM_eq_ok.mp hsamples) ∅ key

end Config

/-! ## The two components together -/

/-- Every configured budget is booked once a sample, with the weighted reward of
the point it resolves to if that is positive, and not at all otherwise; nothing
is booked elsewhere. -/
def BookedAsResolved (cfg : TrainerConfig) (scorer : Scorer Truth Info) (lengths : List ℕ)
    (items : List (Item Token Truth Info)) (lists : Dict ℚ (List ℚ)) : Prop :=
  (∀ b ∈ cfg.foBudgetCheckpoints, lists.getD b.value [] =
    (lengths.zip items).flatMap (fun row => budgetEntry cfg scorer row.1 row.2 b)) ∧
  ∀ key, (∀ b ∈ cfg.foBudgetCheckpoints, b.value ≠ key) → lists.getD key [] = []

/-- Agent loop and trainer resolve the budgets to the same points. -/
theorem budgets_resolve_alike [DecidableEq Token] {tok : Tokenizer Token}
    {agentCfg : AgentLoopConfig} {cfg : TrainerConfig} {scorer : Scorer Truth Info}
    {samples : List (TraceSample Token Truth Info d)} {batch : Batch Token Truth Info L}
    {out : ForcedOutputRewards L} (hsame : cfg.foBudgetCheckpoints = agentCfg.budgetCheckpoints)
    (hdistinct : (cfg.foBudgetCheckpoints.map Budget.value).Nodup)
    (hlengths : ∀ sample ∈ samples, 1 ≤ sample.traceLength)
    (hrollout : rolloutItems tok agentCfg samples = .ok batch.items)
    (hout : computeForcedOutputRewards cfg tok scorer batch = .ok out) :
    (∀ traceLength, 1 ≤ traceLength → CutPoints cfg.foBudgetCheckpoints traceLength) ∧
      List.Forall₂ (CutRow cfg.foBudgetCheckpoints agentCfg.includeFullTrace)
        (samples.map TraceSample.traceLength) batch.items ∧
      BookedAsResolved cfg scorer (samples.map TraceSample.traceLength) batch.items
        out.perBudgetRewardLists := by
  have hrows : List.Forall₂ (CutRow cfg.foBudgetCheckpoints agentCfg.includeFullTrace)
      (samples.map TraceSample.traceLength) batch.items := by
    rw [hsame]
    exact cutRows_of_rollout tok agentCfg hrollout
  have hpos : ∀ n ∈ samples.map TraceSample.traceLength, 1 ≤ n := by
    intro n hn
    obtain ⟨sample, hsample, rfl⟩ := List.mem_map.mp hn
    exact hlengths sample hsample
  have hlists := getD_perBudgetRewardLists cfg tok scorer hout hpos hrows
  refine ⟨fun n _ => cutPoints _ n, hrows, fun b hb => ?_, fun key hkey => ?_⟩
  · rw [hlists]
    exact congrArg₂ List.flatMap
      (funext fun row => keyEntries_value cfg scorer hdistinct row.1 row.2 hb) rfl
  · rw [hlists, List.flatMap_eq_nil_iff]
    intro row _
    exact keyEntries_eq_nil cfg scorer row.1 row.2 hkey

/-- Budgets that clamp, repeat, vanish and round to zero on a trace of two
tokens. -/
def mixedAgentConfig : AgentLoopConfig :=
  ⟨[], [.int 5, .float 1, .float (1 / 10), .int (-1), .int 2], [], true, 2, false, 8⟩

/-- The trainer with the same budgets. -/
def mixedConfig : TrainerConfig :=
  ⟨.mean, 2, .mean, false, 1 / 2, mixedAgentConfig.budgetCheckpoints⟩

/-- An answer is correct if it ends in `1`. -/
def endsInOne : Scorer Unit Unit := fun query =>
  if query.solutionStr.getLast? = some '1' then .number 1 else .raised

theorem budgets_resolve_alike_mixed :
    ∃ (batch : Batch (Option Char) Unit Unit 2) (out : ForcedOutputRewards 2),
      rolloutItems charTokenizer mixedAgentConfig [twoTokenSample] = .ok batch.items ∧
        (∀ traceLength, 1 ≤ traceLength → CutPoints mixedConfig.foBudgetCheckpoints traceLength) ∧
        List.Forall₂ (CutRow mixedConfig.foBudgetCheckpoints true) [2] batch.items ∧
        BookedAsResolved mixedConfig endsInOne [2] batch.items out.perBudgetRewardLists := by
  obtain ⟨items, hitems, -⟩ := rolloutItems_ok charTokenizer mixedAgentConfig [twoTokenSample]
    (by decide)
  let batch : Batch (Option Char) Unit Unit 2 := ⟨items, none, by simp⟩
  obtain ⟨out, hout⟩ := computeForcedOutputRewards_returns mixedConfig charTokenizer endsInOne
    batch trivial trivial (Or.inr (by decide))
  refine ⟨batch, out, hitems, ?_⟩
  exact budgets_resolve_alike rfl (by decide +kernel) (by decide) hitems hout

end RLCM.ForcedOutput
