import Mathlib.Algebra.Order.Field.Rat
import Mathlib.Algebra.Ring.Parity
import Mathlib.Tactic.Linarith
import LosslessHermes.Plugin.TokenGate

/-!
# What the threshold leaves free

A call that is let through may bring the count and the estimate up to 92% of the budget. The
rest of the smallest budget that is meant, `headroom`, is what its result may take on top of the
estimate, and each larger budget leaves at least as much.
-/

namespace LosslessHermes.TokenGate

/-! ## Budgets -/

def leastBudget (cap : Nat) : Nat :=
  (25 * (cap + 2000) + 1) / 2

/-- The largest number that passes the threshold. -/
def largestCount (budget : Nat) : Nat :=
  ((2 * 8286623314361713 + 1) * budget - 1) / 2 ^ 54

def headroom (cap : Nat) : Int :=
  leastBudget cap - largestCount (leastBudget cap)

example : leastBudget 10000 = 150000 ∧ headroom 10000 = 12000 := by decide

/-- What is left free in ordinary numbers. -/
theorem headroom_eq {cap : Nat} (h : cap < 2 ^ 40) : headroom cap = cap + 2000 + cap % 2 := by
  rcases Nat.even_or_odd' cap with ⟨half, rfl | rfl⟩
  · have hLeast : leastBudget (2 * half) = 25 * (half + 1000) := by
      unfold leastBudget
      omega
    have hLargest : largestCount (25 * (half + 1000)) = 23 * (half + 1000) := by
      unfold largestCount
      omega
    rw [headroom, hLeast, hLargest]
    omega
  · have hLeast : leastBudget (2 * half + 1) = 25 * (half + 1000) + 13 := by
      unfold leastBudget
      omega
    have hLargest : largestCount (25 * (half + 1000) + 13) = 23 * (half + 1000) + 11 := by
      unfold largestCount
      omega
    rw [headroom, hLeast, hLargest]
    omega

/-! ## A call that is let through -/

section Calls

variable {env : GateEnv} {toolName : String} {params : List (String × Json)}

section Session

variable {state : TokenState} {session : String} {count budget : Int}
  {inner : Except String String}

end Session

/-! ## Every budget with headroom -/

/-- The estimate and the headroom cover what is added. -/
def Covers (cap : Nat) (estimate : Except String Int) (added : Nat) : Prop :=
  match estimate with
  | .ok estimated => (added : Int) ≤ estimated + headroom cap
  | .error _ => added ≤ leastBudget cap + 1

end Calls

end LosslessHermes.TokenGate
