import LosslessHermes.Plugin.TokenHeadroom
import LosslessHermes.Tools.GrepRendering
import LosslessHermes.Tools.GrepScope

/-!
# A search inside the budget

The gate lets a search run by an estimate from the arguments as they were sent, and then the
count is charged with the text that comes back. The search reads its limit in another way, and
the cap of the text is before the escapes and without the details.
-/

namespace LosslessHermes.Tools

open HybridSearch (Exception HybridSearchResult SemanticSearchResult)
open TokenGate

variable {F : Type}

/-! ## The estimate of a search -/

/-- The lines and the details of a text in its JSON object. -/
def RenderedGrep.chars (rendered : RenderedGrep) : Nat :=
  25 + Json.linesSize rendered.lines + rendered.details.size

section Calls

variable [LinearOrder F] [Zero F] [One F] [Add F] [Div F] [NatCast F]

end Calls

/-! ## A negative limit -/

/-- Nothing is found in this context, and no service is asked. -/
def quietContext : GrepContext ℚ :=
  { engine :=
      { lower := id
        isWord := fun _ => true
        compile := fun _ => none
        messagesFts5Available := false
        summariesFts5Available := false
        messagesFts := ⟨fun _ => none, fun _ _ => 0, fun _ _ => "", fun rank _ => rank⟩
        summariesFts := ⟨fun _ => none, fun _ _ => 0, fun _ _ => "", fun rank _ => rank⟩
        summariesFtsCjk := ⟨fun _ => none, fun _ _ => 0, fun _ _ => "", fun rank _ => rank⟩ }
    search :=
      { vec0Loaded := false
        inTransaction := false
        distance := fun _ _ => 0
        place := fun _ _ => 0
        cosineFromL2 := id
        describe := fun _ => "" }
    voyage := none
    mentionsVoyageKey := fun _ => false }

def plainRenderer : GrepRenderer ℚ :=
  { fixed := fun _ _ => "0.0"
    repr := fun _ => ⟨"0.0", by decide⟩
    high := 65 / 100
    medium := 1 / 2
    low := 35 / 100
    formatBound := fun _ => "-" }

end LosslessHermes.Tools
