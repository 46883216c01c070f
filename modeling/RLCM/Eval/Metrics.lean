/-
# `RLCM.Eval.Metrics` — the calibration error

`_compute_ece` of `metric_utils.py`, in exact arithmetic.
-/
import RLCM.Lib.Stats

namespace RLCM.Eval

open Stats

/-- The lower bound of bin `i` and its upper bound; the last bin is widened to
hold confidence 1. -/
def eceBin (bins i : ℕ) : ℚ × ℚ :=
  (i / bins, if i < bins - 1 then (i + 1) / bins else (i + 1) / bins + 1 / 10 ^ 6)

def inBin (bins i : ℕ) (samples : List (ℚ × ℚ)) : List (ℚ × ℚ) :=
  samples.filter (fun ca => (eceBin bins i).1 ≤ ca.1 ∧ ca.1 < (eceBin bins i).2)

/-- What one bin adds to the error. -/
def eceTerm (total : ℕ) (bin : List (ℚ × ℚ)) : ℚ :=
  if bin = [] then 0
  else bin.length / total * |mean (bin.map Prod.snd) - mean (bin.map Prod.fst)|

/-- `_compute_ece` of samples `(confidence, accuracy)`. -/
def computeEce (confidences accuracies : List ℚ) (mask : Option (List ℚ)) (bins : ℕ) :
    Option ℚ :=
  let samples := confidences.zip accuracies
  let valid := mask.elim samples (fun mask =>
    (samples.zip mask).filterMap (fun sm => if 0 < sm.2 then some sm.1 else none))
  if confidences = [] ∨ valid = [] then none
  else some (((List.range bins).map (fun i => eceTerm valid.length (inBin bins i valid))).sum)

end RLCM.Eval
