/-
# `RLCM.Lib.WhileLoop` — a `while` loop whose body may raise

`drive` runs a step function until the state is halted; the fuel bounds how often, and
`none` says that it ran out.  `emitted` is what the turns of a run give out, in order.
What a loop keeps of its state and of what it gave out is proved of one turn
(`drive_keeps`), and that it ends by a measure that every turn lowers (`drive_ends`).
-/
import RLCM.Py.Error

namespace WhileLoop

universe u

open Py

variable {σ ω : Type u}

/-- `while not halted(s): s = step(s)`, with at most `fuel` turns. -/
def drive (step : σ → Except Error σ) (halted : σ → Bool) : Nat → σ → Except Error (Option σ)
  | 0, s => .ok (if halted s then some s else none)
  | fuel + 1, s =>
      if halted s then .ok (some s)
      else do
        let s ← step s
        drive step halted fuel s

/-- What the turns of such a run emit. -/
def emitted (step : σ → Except Error σ) (halted : σ → Bool) (emit : σ → List ω) :
    Nat → σ → List ω
  | 0, _ => []
  | fuel + 1, s =>
      if halted s then []
      else
        emit s ++ match step s with
          | .ok s => emitted step halted emit fuel s
          | .error _ => []

variable {step : σ → Except Error σ} {halted : σ → Bool} {fuel : Nat} {s s' : σ}

theorem drive_of_halted (h : halted s = true) : drive step halted fuel s = .ok (some s) := by
  cases fuel with
  | zero => rw [drive, if_pos h]
  | succ fuel => rw [drive, if_pos h]

theorem drive_succ_of_not_halted (h : halted s = false) :
    drive step halted (fuel + 1) s = step s >>= drive step halted fuel := by
  rw [drive, h]
  rfl

theorem emitted_of_halted {emit : σ → List ω} (h : halted s = true) :
    emitted step halted emit fuel s = [] := by
  cases fuel with
  | zero => rfl
  | succ fuel => rw [emitted, if_pos h]

theorem emitted_succ {emit : σ → List ω} (h : halted s = false) (hstep : step s = .ok s') :
    emitted step halted emit (fuel + 1) s = emit s ++ emitted step halted emit fuel s' := by
  rw [emitted, h, hstep]
  rfl

/-- A loop that comes to its end keeps what every turn keeps, and ends halted. -/
theorem drive_keeps (emit : σ → List ω) (Keeps : σ → List ω → Prop)
    (hstep : ∀ s s' log, halted s = false → step s = .ok s' → Keeps s log →
      Keeps s' (log ++ emit s))
    (log : List ω) (hs : Keeps s log) (h : drive step halted fuel s = .ok (some s')) :
    Keeps s' (log ++ emitted step halted emit fuel s) ∧ halted s' = true := by
  induction fuel generalizing s log with
  | zero =>
      rw [drive] at h
      split at h
      case isTrue hhalted =>
        cases h
        rw [emitted, List.append_nil]
        exact ⟨hs, hhalted⟩
      case isFalse => cases h
  | succ fuel ih =>
      cases hhalted : halted s with
      | true =>
          rw [drive_of_halted hhalted] at h
          cases h
          rw [emitted_of_halted hhalted, List.append_nil]
          exact ⟨hs, hhalted⟩
      | false =>
          rw [drive_succ_of_not_halted hhalted] at h
          obtain ⟨mid, hmid, h⟩ := bind_eq_ok.mp h
          rw [emitted_succ hhalted hmid, ← List.append_assoc]
          exact ih _ (hstep s mid log hhalted hmid hs) h

/-- A loop whose turns lower a measure does not run out of that much fuel, and more
fuel gives nothing else. -/
theorem drive_ends (Keeps : σ → Prop) (measure : σ → Nat)
    (hstep : ∀ s s', halted s = false → step s = .ok s' → Keeps s →
      Keeps s' ∧ (halted s' = false → measure s' < measure s))
    {enough : Nat} (hs : Keeps s) (hmeasure : halted s = false → measure s < enough)
    (hfuel : enough ≤ fuel) :
    drive step halted fuel s = drive step halted enough s ∧
      drive step halted enough s ≠ .ok none := by
  induction enough generalizing s fuel with
  | zero =>
      cases hhalted : halted s with
      | true =>
          rw [drive_of_halted hhalted, drive_of_halted hhalted]
          exact ⟨rfl, by simp⟩
      | false => exact absurd (hmeasure hhalted) (Nat.not_lt_zero _)
  | succ enough ih =>
      cases hhalted : halted s with
      | true =>
          rw [drive_of_halted hhalted, drive_of_halted hhalted]
          exact ⟨rfl, by simp⟩
      | false =>
          obtain ⟨fuel, rfl⟩ : ∃ rest, fuel = rest + 1 := ⟨fuel - 1, by omega⟩
          rw [drive_succ_of_not_halted hhalted, drive_succ_of_not_halted hhalted]
          cases hmid : step s with
          | error e => exact ⟨rfl, by simp⟩
          | ok mid =>
              have hkept := hstep s mid hhalted hmid hs
              rw [ok_bind, ok_bind]
              refine ih hkept.1 (fun hrunning => ?_) (Nat.le_of_succ_le_succ hfuel)
              have hlower := hkept.2 hrunning
              have hbound := hmeasure hhalted
              omega

end WhileLoop
