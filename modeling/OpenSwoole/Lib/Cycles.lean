import Mathlib.Data.Fintype.Pigeonhole
import OpenSwoole.Lib.Machine

/-!
# Machines that come to a state twice
-/

namespace Machine

variable {σ ρ κ : Type} {step : σ → σ ⊕ ρ} {s t : σ}

/-- the state behind `n` steps -/
def after (step : σ → σ ⊕ ρ) : Nat → σ → Option σ
  | 0, s => some s
  | n + 1, s =>
    match step s with
    | .inl s' => after step n s'
    | .inr _ => none

end Machine
