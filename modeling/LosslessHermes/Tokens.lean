import Mathlib.Algebra.GroupWithZero.Nat

/-!
# Token estimates

`estimate_tokens` weighs each code point and rounds the sum up. All weights are
multiples of a quarter, which binary floating point adds exactly, so the sum is
kept in quarters here.
-/

namespace LosslessHermes

def isCjkCodePoint (cp : Nat) : Bool :=
  (0x4E00 ≤ cp && cp ≤ 0x9FFF) || (0x3400 ≤ cp && cp ≤ 0x4DBF) ||
  (0x20000 ≤ cp && cp ≤ 0x2A6DF) || (0x2A700 ≤ cp && cp ≤ 0x2B73F) ||
  (0x2B740 ≤ cp && cp ≤ 0x2B81F) || (0x2B820 ≤ cp && cp ≤ 0x2CEAF) ||
  (0x2CEB0 ≤ cp && cp ≤ 0x2EBEF) || (0x3000 ≤ cp && cp ≤ 0x303F) ||
  (0x3040 ≤ cp && cp ≤ 0x30FF) || (0xAC00 ≤ cp && cp ≤ 0xD7AF) ||
  (0xFF00 ≤ cp && cp ≤ 0xFFEF)

/-- `_estimate_code_point_tokens`, in quarters of a token. -/
def codePointQuarterTokens (cp : Nat) : Nat :=
  if isCjkCodePoint cp then 6 else if 0xFFFF < cp then 8 else 1

def estimateTokens (text : String) : Nat :=
  ((text.toList.map fun c => codePointQuarterTokens c.toNat).sum + 3) / 4

end LosslessHermes
