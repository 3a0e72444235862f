import LosslessHermes.Library.Text
import LosslessHermes.Tokens

/-!
# Target lengths and the deterministic fallback

`resolveTargetTokens` is the length asked of the model and `buildDeterministicFallback` the
text that stands in for its answer, the stripped source under a marker. The factors of the
targets are doubles: `scaledFloor` rounds the product as IEEE multiplication does before it
takes the floor, so that 180 tokens at 0.35 are 62 and not 63.
-/

namespace LosslessHermes.Summarize

/-! ## Factors -/

/-- The double nearest to a natural number, ties to even. -/
def roundToDouble (n : Nat) : Nat :=
  let unit := 2 ^ (n.log2 + 1 - 53)
  let low := n / unit
  let rest := n % unit
  (if 2 * rest < unit then low
    else if unit < 2 * rest then low + 1
    else low + low % 2) * unit

/-- `math.floor(n * x)` for the double `x = mantissa / 2 ^ scale`. -/
def scaledFloor (mantissa scale n : Nat) : Nat :=
  roundToDouble (mantissa * roundToDouble n) / 2 ^ scale

/-- `math.floor(n * 0.35)` -/
def floorTimes035 (n : Nat) : Nat := scaledFloor 3152519739159347 53 n

/-- `math.floor(n * 0.20)` -/
def floorTimes020 (n : Nat) : Nat := scaledFloor 3602879701896397 54 n

/-- `math.floor(n * 0.55)` -/
def floorTimes055 (n : Nat) : Nat := scaledFloor 2476979795053773 52 n

example : floorTimes035 180 = 62 := by decide

/-! ## Targets -/

inductive SummaryMode
  | normal
  | aggressive
  deriving DecidableEq, Repr

def DEFAULT_LEAF_TARGET_TOKENS : Nat := 4000

def DEFAULT_CONDENSED_TARGET_TOKENS : Nat := 2000

/-- A configured number, or the default if it is missing, no integer or not positive. -/
def positiveOr (configured : Option Int) (default : Nat) : Nat :=
  match configured with
  | some n => if 0 < n then n.toNat else default
  | none => default

def resolveTargetTokens (inputTokens : Nat) (mode : SummaryMode) (isCondensed : Bool)
    (leafTargetTokens condensedTargetTokens : Nat) : Nat :=
  if isCondensed then max 512 condensedTargetTokens
  else
    let leafFloor := max 192 leafTargetTokens
    match mode with
    | .aggressive =>
        let aggressiveCap := max 96 (min leafFloor (floorTimes055 leafFloor))
        max 96 (min aggressiveCap (floorTimes020 inputTokens))
    | .normal => max 192 (min leafFloor (floorTimes035 inputTokens))

/-! ## The fallback -/

def FALLBACK_MARKER : String :=
  "[LCM fallback summary — model unavailable; raw source preserved verbatim below]"

def FALLBACK_MARKER_TRUNC : String :=
  "[LCM fallback summary — model unavailable; raw source truncated for context management]"

def buildDeterministicFallback (text : String) (targetTokens : Nat) : String :=
  let trimmed := Text.strip text
  if trimmed = "" then ""
  else
    let maxChars := max 256 (targetTokens * 4)
    if trimmed.toList.length ≤ maxChars then FALLBACK_MARKER ++ "\n" ++ trimmed
    else FALLBACK_MARKER_TRUNC ++ "\n" ++ String.ofList (trimmed.toList.take maxChars)

theorem buildDeterministicFallback_not_blank {text : String} (h : Text.isBlank text = false)
    (targetTokens : Nat) :
    Text.isBlank (buildDeterministicFallback text targetTokens) = false := by
  have hMarker : Text.isBlank FALLBACK_MARKER = false := by decide
  have hTrunc : Text.isBlank FALLBACK_MARKER_TRUNC = false := by decide
  simp only [buildDeterministicFallback]
  rw [if_neg (Text.strip_ne_of_isBlank h)]
  split
  · rw [Text.isBlank_append, Text.isBlank_append, hMarker, Bool.false_and, Bool.false_and]
  · rw [Text.isBlank_append, Text.isBlank_append, hTrunc, Bool.false_and, Bool.false_and]

end LosslessHermes.Summarize
