import LosslessHermes.Tools.Params
import Mathlib.Algebra.GroupWithZero.Nat
import Mathlib.Algebra.Group.Int.Defs

/-!
# The token gate

The middleware around a tool call: it refuses the call if the cached count of the session and
an estimate of the result would pass a share of the budget, and adds the size of what comes
back to the count. The estimate reads the arguments as they were sent.

The quotients are of doubles. `refusalText` is the JSON of a refusal, with its two ratios.
-/

namespace LosslessHermes.TokenGate

open Tools (Python Number)

/-! ## Quotients of integers -/

/-- The nearest number of 53 binary digits, the even one of two. -/
def roundTo53 (n : Nat) : Nat :=
  let unit := 2 ^ (n.log2 + 1 - 53)
  if unit < 2 * (n % unit) ∨ (2 * (n % unit) = unit ∧ n / unit % 2 = 1) then
    (n / unit + 1) * unit
  else n / unit * unit

/-- Half of the distance between the largest doubles, which end below `2 ^ 1024`. -/
def halfUnit : Nat := 2 ^ 970

def quotientTooLarge : String := "integer division result too large for a float"

/-- `math.ceil(chars / 4)`. -/
def ceilQuarter (chars : Int) : Except String Int :=
  let rounded := roundTo53 chars.natAbs
  if 2 ^ 56 * halfUnit ≤ rounded then .error quotientTooLarge
  else .ok (if chars < 0 then -((rounded / 4 : Nat) : Int) else ((rounded + 3) / 4 : Nat))

def capped (cap : Nat) (chars : Int) : Except String Int :=
  (ceilQuarter chars).map (min cap)

/-- Four characters for a token. -/
def addedTokens (chars : Nat) : Nat := (chars + 3) / 4

end LosslessHermes.TokenGate
