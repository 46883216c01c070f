/-
# `RLCM.ForcedOutput.ForcedPrompt` — the forced prompt against its description

The launch scripts and the README describe a forced prompt as the trace cut at
the budget, the closing stop string unless it is already there, and the suffix;
`specForcedPrompt` is that description over the whole encoding of the stop
string.  The code closes with a single token instead: the last token of the
stop string, or EOS for the empty string the training scripts pass.  And it
decides twice whether to close, once on tokens and once on text.

`forcedPromptsAsSpecified_iff` says for which stop strings and traces the code
sends and scores what is described.
-/
import RLCM.ForcedOutput.AgentLoop

namespace RLCM.ForcedOutput

open Py

/-- `decode` respects concatenation and undoes `encode`. -/
structure Tokenizer.Homomorphic {Token : Type} (tok : Tokenizer Token) : Prop where
  decode_append : ∀ xs ys, tok.decode (xs ++ ys) = tok.decode xs ++ tok.decode ys
  decode_encode : ∀ s, tok.decode (tok.encode s) = s

theorem Tokenizer.Homomorphic.decode_nil {Token : Type} {tok : Tokenizer Token}
    (h : tok.Homomorphic) : tok.decode [] = [] := by
  have happ := h.decode_append [] []
  rw [List.append_nil] at happ
  exact List.append_right_eq_self.mp happ.symm

variable {Token : Type} [DecidableEq Token] (tok : Tokenizer Token) (cfg : AgentLoopConfig)

/-! ## The description -/

/-- The response part of the described prompt: cut trace, whole stop string
unless already there, suffix. -/
def specForcedTokens (trace : List Token) (budget : ℕ) : List Token :=
  let cut := trace.take budget
  cut ++ (if stopTokenIds tok cfg <:+ cut then [] else stopTokenIds tok cfg) ++
    suffixTokenIds tok cfg

def specForcedPrompt (promptIds trace : List Token) (budget : ℕ) : List Token :=
  promptIds ++ specForcedTokens tok cfg trace budget

/-- Every request carries the described prompt, and every scored text is the
decoding of the response tokens its answer was generated after, followed by
the answer. -/
def ForcedPromptsAsSpecified (promptIds : List Token) (thinkingOutput : ThinkingOutput Token)
    (generate : ℕ → List Token → List Token) : Prop :=
  (∀ task ∈ forcedTasks tok cfg promptIds thinkingOutput.tokenIds,
    task.promptIds = specForcedPrompt tok cfg promptIds thinkingOutput.tokenIds task.budget) ∧
  (tok.Homomorphic → ∀ out, run tok cfg promptIds thinkingOutput generate = .ok out →
    ∀ task ∈ forcedTasks tok cfg promptIds thinkingOutput.tokenIds, ∀ texts,
      out.extraFields.forcedFullTextsMulti.lookup task.budget = some texts →
      texts[task.ansIdx]? = some (tok.decode (task.promptIds.drop promptIds.length) ++
        tok.decode (forcedAnswer tok cfg promptIds thinkingOutput.tokenIds generate task.budget
          task.ansIdx)))

/-! ## When the code meets it -/

/-- The token test of `build_forced_output_tokens`: the cut trace ends with the
closing token. -/
def EndsWithThinkEnd (trace : List Token) (budget : ℕ) : Prop :=
  (trace.take budget).getLast? = some (thinkEndTokenId tok cfg)

/-- The text test of the agent loop: the cut text ends with the stop string. -/
def TextEndsWithStop (trace : List Token) (budget : ℕ) : Prop :=
  (truncatedTraceText tok trace budget).rstrip.endsWith cfg.stopToken = true

/-- The stop string is one token; or it is empty and the cut trace ends with
EOS; or it is several tokens and the cut trace ends with all of them.  And for
a well-behaved tokenizer the token test and the text test agree. -/
def ClosesAsSpecified (trace : List Token) (budget : ℕ) : Prop :=
  ((stopTokenIds tok cfg).length = 1 ∨
    (stopTokenIds tok cfg = [] ∧ (trace.take budget).getLast? = some tok.eosTokenId) ∨
    (2 ≤ (stopTokenIds tok cfg).length ∧ stopTokenIds tok cfg <:+ trace.take budget)) ∧
  (tok.Homomorphic →
    cfg.stopToken = [] ∨ (EndsWithThinkEnd tok cfg trace budget ↔
      TextEndsWithStop tok cfg trace budget))

/-- What the code puts between the cut trace and the suffix. -/
def closingTokens (trace : List Token) (budget : ℕ) : List Token :=
  if (trace.take budget).getLast? = some (thinkEndTokenId tok cfg) then []
  else [thinkEndTokenId tok cfg]

theorem forcedPrompt_eq (promptIds trace : List Token) (budget : ℕ) :
    forcedPrompt tok cfg promptIds trace budget =
      promptIds ++ (trace.take budget ++ closingTokens tok cfg trace budget ++
        suffixTokenIds tok cfg) := by
  unfold forcedPrompt buildForcedOutputTokens closingTokens
  by_cases h : (trace.take budget).getLast? = some (thinkEndTokenId tok cfg)
  · simp only [if_pos h, List.append_nil]
  · simp only [if_neg h]

theorem forcedPrompt_eq_spec_iff (promptIds trace : List Token) (budget : ℕ) :
    forcedPrompt tok cfg promptIds trace budget =
        specForcedPrompt tok cfg promptIds trace budget ↔
      closingTokens tok cfg trace budget =
        if stopTokenIds tok cfg <:+ trace.take budget then [] else stopTokenIds tok cfg := by
  rw [forcedPrompt_eq, specForcedPrompt, specForcedTokens]
  simp

omit [DecidableEq Token] in
theorem getLast?_of_suffix {xs ys : List Token} {x : Token} (h : xs <:+ ys)
    (hx : xs.getLast? = some x) : ys.getLast? = some x := by
  obtain ⟨pre, rfl⟩ := h
  rw [List.getLast?_append, hx]
  rfl

/-- The closings agree in exactly three situations. -/
theorem closingTokens_eq_spec_iff (trace : List Token) (budget : ℕ) :
    (closingTokens tok cfg trace budget =
        if stopTokenIds tok cfg <:+ trace.take budget then [] else stopTokenIds tok cfg) ↔
      ((stopTokenIds tok cfg).length = 1 ∨
        (stopTokenIds tok cfg = [] ∧ (trace.take budget).getLast? = some tok.eosTokenId) ∨
        (2 ≤ (stopTokenIds tok cfg).length ∧ stopTokenIds tok cfg <:+ trace.take budget)) := by
  unfold closingTokens thinkEndTokenId
  generalize stopTokenIds tok cfg = stop
  generalize trace.take budget = cut
  match stop with
  | [] =>
      by_cases h : cut.getLast? = some tok.eosTokenId <;> simp [h]
  | [t] =>
      have hsuffix : [t] <:+ cut ↔ cut.getLast? = some t := by
        constructor
        · intro h
          exact getLast?_of_suffix h rfl
        · intro h
          obtain ⟨pre, rfl⟩ := List.getLast?_eq_some_iff.mp h
          exact List.suffix_append _ _
      by_cases h : cut.getLast? = some t
      · simp [h, hsuffix.mpr h]
      · simp [h, mt hsuffix.mp h]
  | t :: t' :: ts =>
      obtain ⟨last, hlast⟩ : ∃ last, (t :: t' :: ts).getLast? = some last :=
        Option.isSome_iff_exists.mp (by simp)
      by_cases hsuf : t :: t' :: ts <:+ cut
      · have := getLast?_of_suffix hsuf hlast
        simp [hsuf, hlast, this]
      · -- One token, or none, cannot be a stop string of at least two.
        have hne : ∀ P : Prop, [Decidable P] → (if P then [] else [last]) ≠ t :: t' :: ts := by
          intro P _
          split_ifs <;> simp
        simp [hsuf, hlast, hne]

theorem drop_forcedPrompt (promptIds trace : List Token) (budget : ℕ) :
    (forcedPrompt tok cfg promptIds trace budget).drop promptIds.length =
      trace.take budget ++ closingTokens tok cfg trace budget ++ suffixTokenIds tok cfg := by
  rw [forcedPrompt_eq, List.drop_left]

theorem fullText_eq_decode_iff (hom : tok.Homomorphic) (promptIds trace : List Token)
    (budget : ℕ) (answerText : Str) :
    fullText tok cfg trace budget answerText =
        tok.decode ((forcedPrompt tok cfg promptIds trace budget).drop promptIds.length) ++
          answerText ↔
      thinkEndText tok cfg trace budget = tok.decode (closingTokens tok cfg trace budget) := by
  rw [drop_forcedPrompt, hom.decode_append, hom.decode_append, suffixTokenIds,
    hom.decode_encode]
  simp only [fullText, truncatedTraceText, List.append_assoc, List.append_cancel_left_eq]
  constructor
  · intro h
    exact List.append_cancel_right h
  · intro h
    rw [h]

omit [DecidableEq Token] in
theorem stopToken_eq_nil_of_stopTokenIds (hom : tok.Homomorphic)
    (h : stopTokenIds tok cfg = []) : cfg.stopToken = [] := by
  rw [← hom.decode_encode cfg.stopToken]
  exact (congrArg tok.decode h).trans hom.decode_nil

theorem EndsWithThinkEnd.closingTokens_eq {trace : List Token} {budget : ℕ}
    (h : EndsWithThinkEnd tok cfg trace budget) : closingTokens tok cfg trace budget = [] :=
  if_pos h

omit [DecidableEq Token] in
theorem stopTokenIds_of_not_ends {trace : List Token} {budget : ℕ}
    (hspec : (stopTokenIds tok cfg).length = 1 ∨
      (stopTokenIds tok cfg = [] ∧ (trace.take budget).getLast? = some tok.eosTokenId) ∨
      (2 ≤ (stopTokenIds tok cfg).length ∧ stopTokenIds tok cfg <:+ trace.take budget))
    (hends : ¬ EndsWithThinkEnd tok cfg trace budget) : ∃ t, stopTokenIds tok cfg = [t] := by
  rcases hspec with hone | ⟨hnil, hlast⟩ | ⟨hlen, hsuf⟩
  · exact List.length_eq_one_iff.mp hone
  · refine absurd ?_ hends
    simpa [EndsWithThinkEnd, thinkEndTokenId, hnil] using hlast
  · refine absurd ?_ hends
    cases hlast : (stopTokenIds tok cfg).getLast? with
    | none =>
        rw [List.getLast?_eq_none_iff.mp hlast, List.length_nil] at hlen
        exact absurd hlen (by decide)
    | some last =>
        simpa [EndsWithThinkEnd, thinkEndTokenId, hlast] using getLast?_of_suffix hsuf hlast

/-- With the described closing tokens, the closing text is theirs exactly when
the two tests agree, or there is no stop string. -/
theorem thinkEndText_eq_decode_iff (hom : tok.Homomorphic) {trace : List Token} {budget : ℕ}
    (hspec : (stopTokenIds tok cfg).length = 1 ∨
      (stopTokenIds tok cfg = [] ∧ (trace.take budget).getLast? = some tok.eosTokenId) ∨
      (2 ≤ (stopTokenIds tok cfg).length ∧ stopTokenIds tok cfg <:+ trace.take budget)) :
    thinkEndText tok cfg trace budget = tok.decode (closingTokens tok cfg trace budget) ↔
      (cfg.stopToken = [] ∨
        (EndsWithThinkEnd tok cfg trace budget ↔ TextEndsWithStop tok cfg trace budget)) := by
  have htext : thinkEndText tok cfg trace budget = [] ↔
      cfg.stopToken = [] ∨ TextEndsWithStop tok cfg trace budget := by
    unfold thinkEndText TextEndsWithStop
    split_ifs with h
    · simp [h]
    · simp [h]
  by_cases hends : EndsWithThinkEnd tok cfg trace budget
  · rw [hends.closingTokens_eq, hom.decode_nil, htext]
    simp [hends]
  · obtain ⟨t, ht⟩ := stopTokenIds_of_not_ends tok cfg hspec hends
    have hclose : tok.decode (closingTokens tok cfg trace budget) = cfg.stopToken := by
      have : closingTokens tok cfg trace budget = stopTokenIds tok cfg := by
        rw [closingTokens]
        refine (if_neg hends).trans ?_
        rw [thinkEndTokenId, ht]
        rfl
      rw [this, stopTokenIds, hom.decode_encode]
    rw [hclose]
    unfold thinkEndText
    split_ifs with h
    · have : TextEndsWithStop tok cfg trace budget := h
      simp [hends, this, eq_comm]
    · have : ¬ TextEndsWithStop tok cfg trace budget := h
      simp [hends, this]

/-! ## The requests and the scored texts -/

theorem mem_forcedTasks {promptIds trace : List Token} {task : ForcedTask Token} :
    task ∈ forcedTasks tok cfg promptIds trace ↔
      task.budget ∈ budgetsOf cfg trace ∧ task.ansIdx < cfg.numForcedAnswers ∧
        task.promptIds = forcedPrompt tok cfg promptIds trace task.budget := by
  simp only [forcedTasks, List.mem_flatMap, List.mem_map, List.mem_range]
  constructor
  · rintro ⟨budget, hb, ansIdx, hi, rfl⟩
    exact ⟨hb, hi, rfl⟩
  · rintro ⟨hb, hi, hprompt⟩
    exact ⟨task.budget, hb, task.ansIdx, hi, by rw [← hprompt]⟩

theorem getElem?_forcedFullTextsAt {promptIds trace : List Token}
    {generate : ℕ → List Token → List Token} {budget ansIdx : ℕ}
    (hi : ansIdx < cfg.numForcedAnswers) :
    (forcedFullTextsAt tok cfg promptIds trace generate budget)[ansIdx]? =
      some (fullText tok cfg trace budget
        (tok.decode (forcedAnswer tok cfg promptIds trace generate budget ansIdx))) := by
  simp [forcedFullTextsAt, hi]

/-- The loop sends and scores what is described exactly when every budget's
closing is as described. -/
theorem forcedPromptsAsSpecified_iff (promptIds : List Token)
    (thinkingOutput : ThinkingOutput Token) (generate : ℕ → List Token → List Token) :
    ForcedPromptsAsSpecified tok cfg promptIds thinkingOutput generate ↔
      (cfg.numForcedAnswers = 0 ∨ ∀ budget ∈ budgetsOf cfg thinkingOutput.tokenIds,
        ClosesAsSpecified tok cfg thinkingOutput.tokenIds budget) := by
  rcases Nat.eq_zero_or_pos cfg.numForcedAnswers with hzero | hn
  · have hnone : forcedTasks tok cfg promptIds thinkingOutput.tokenIds = [] := by
      simp [forcedTasks, hzero]
    simp [ForcedPromptsAsSpecified, hnone, hzero]
  obtain ⟨out, hout, -, -, hdict⟩ := run_ok tok cfg promptIds generate thinkingOutput hn
  rw [or_iff_right (by omega)]
  constructor
  · rintro ⟨hprompts, htexts⟩ budget hb
    have htask : (⟨budget, 0, forcedPrompt tok cfg promptIds thinkingOutput.tokenIds budget⟩ :
        ForcedTask Token) ∈ forcedTasks tok cfg promptIds thinkingOutput.tokenIds :=
      (mem_forcedTasks tok cfg).mpr ⟨hb, hn, rfl⟩
    have hcases := (closingTokens_eq_spec_iff tok cfg _ _).mp
      ((forcedPrompt_eq_spec_iff tok cfg _ _ _).mp (hprompts _ htask))
    refine ⟨hcases, fun hom => ?_⟩
    have htext := htexts hom out hout _ htask _ (hdict budget hb).1
    rw [getElem?_forcedFullTextsAt tok cfg hn, Option.some.injEq,
      fullText_eq_decode_iff tok cfg hom] at htext
    exact (thinkEndText_eq_decode_iff tok cfg hom hcases).mp htext
  · intro hcloses
    refine ⟨fun task htask => ?_, fun hom out' hout' task htask texts hlook => ?_⟩
    · obtain ⟨hb, -, hprompt⟩ := (mem_forcedTasks tok cfg).mp htask
      rw [hprompt]
      exact (forcedPrompt_eq_spec_iff tok cfg _ _ _).mpr
        ((closingTokens_eq_spec_iff tok cfg _ _).mpr (hcloses _ hb).1)
    · obtain ⟨hb, hi, hprompt⟩ := (mem_forcedTasks tok cfg).mp htask
      obtain rfl : out = out' := Except.ok.inj (hout.symm.trans hout')
      obtain rfl := Option.some.inj ((hdict _ hb).1.symm.trans hlook)
      rw [getElem?_forcedFullTextsAt tok cfg hi, hprompt, Option.some.injEq,
        fullText_eq_decode_iff tok cfg hom]
      exact (thinkEndText_eq_decode_iff tok cfg hom (hcloses _ hb).1).mpr
        ((hcloses _ hb).2 hom)

/-! ## The training configuration -/

/-- One token a character, and an EOS token that decodes to nothing. -/
def charTokenizer : Tokenizer (Option Char) where
  encode := List.map some
  decode := List.filterMap id
  eosTokenId := none

def defaultSuffixPrompt : Str :=
  "\nIf I were to output the final answer now, it would be \\boxed\x7b".toList

/-- The forced-output flags of `scripts/train/rlcm.sh`. -/
def rlcmConfig (responseLength : ℕ) : AgentLoopConfig where
  stopToken := []
  budgetCheckpoints := [.float (1 / 4), .float (1 / 2), .float (3 / 4)]
  suffixPrompt := defaultSuffixPrompt
  includeFullTrace := false
  numForcedAnswers := 4
  trainOnForcedOutput := false
  responseLength := responseLength

/-- Under the flags of the training script EOS is put between trace and
suffix. -/
theorem rlcmConfig_inserts_eos :
    ¬ ForcedPromptsAsSpecified charTokenizer (rlcmConfig 8) [some 'q']
      ⟨[some 'x', some 'y'], none⟩ (fun _ _ => []) := by
  rintro ⟨hprompts, -⟩
  have hbudget : 2 ∈ budgetsOf (rlcmConfig 8) [some 'x', some 'y'] := by
    decide +kernel
  have htask := hprompts
    ⟨2, 0, forcedPrompt charTokenizer (rlcmConfig 8) [some 'q'] [some 'x', some 'y'] 2⟩
    ((mem_forcedTasks _ _).mpr ⟨hbudget, by decide, rfl⟩)
  exact absurd htask (by decide)

end RLCM.ForcedOutput
