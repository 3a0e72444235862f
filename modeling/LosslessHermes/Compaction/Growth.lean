import LosslessHermes.Compaction.AuthFailure
import LosslessHermes.Summarize.Fallback

/-!
# Whether compaction makes the context larger

A pass puts a summary in the place of its chunk, and nothing compares the two: the context
grows by a pass exactly if the text of the summarizer is estimated at more tokens than the
chunk has in the store. The guard of a sweep only ends the loop behind such a pass.
-/

namespace LosslessHermes.Compaction

/-! ## What a pass puts in and takes out -/

/-- The tokens of a chunk, as the store counts them. -/
def chunkTokens (db : Db) (chunk : List ContextItemRecord) : Nat :=
  (chunk.map fun i => db.refTokenCount i.ref).sum

section Pass

variable {db : Db} {env : PassEnv} {c : ConversationId} {chunk : List ContextItemRecord}

end Pass

/-! ## Sweeps -/

section Sweep

variable (force : Bool) (threshold : Int) (env : SweepEnv) (c : ConversationId)

end Sweep

section Rounds

variable {force : Bool} {threshold : Int} {env : SweepEnv} {c : ConversationId}
  {hardTrigger : Bool}

variable {s : SweepState}

end Rounds

section Full

variable {env : SweepEnv} {db : Db} {calls : Nat} {c : ConversationId} {tokenBudget : Int}
  {force hardTrigger : Bool} {fuel : Nat}

end Full

end LosslessHermes.Compaction
