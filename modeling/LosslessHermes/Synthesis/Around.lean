import LosslessHermes.Operator.Cascade
import LosslessHermes.Operator.Cleaners
import LosslessHermes.Tokens

/-!
# The synthesis around a window

A call of `lcm_synthesize_around` from the selection of its leaves to the last leaf
reference. `SynthesisState` has the database and the calls that are under way;
purges and cleaners run between their steps. Which statements are refused is an
input, as are the output of the model, the prompt and the texts of the key.

The response to the caller is left out, apart from what decides whether a call goes
on.
-/

namespace LosslessHermes

def maxSourceTextTokens : Nat := 50000

structure SynthesizeRequest where
  sessionKey : String
  rangeStart : Timestamp
  rangeEnd : Timestamp
  conversationIds : List ConversationId
  excludeSummaryId : Option SummaryId
  tierLabel : String
  deriving DecidableEq, Repr

/-- How the bounds of a window and a set of leaves are written in the key of a row. -/
structure CacheTexts where
  iso : Timestamp → String
  fingerprintLeaves : List SummaryId → String

inductive DispatchOutcome
  | output (text promptId : String)
  | failed (reason : String)
  deriving DecidableEq, Repr

inductive CallPhase
  /-- The leaves are chosen, and the row is next. -/
  | chosen
  /-- The model is awaited. -/
  | building
  | recording (rest : List SummaryId)
  | ended
  deriving DecidableEq, Repr

structure SynthesisCall where
  cacheId : String
  key : CacheKey
  leafIds : List SummaryId
  phase : CallPhase
  deriving DecidableEq, Repr

namespace OperatorDb

/-! ## The choice of the leaves -/

def selectTimeWindowLeaves (db : OperatorDb) (request : SynthesizeRequest) :
    List SummaryRecord :=
  Table.select (fun s => request.rangeStart ≤ s.latestAt.getD s.createdAt ∧
      s.latestAt.getD s.createdAt < request.rangeEnd ∧ s.suppressedAt = none ∧ s.kind = .leaf ∧
      (request.conversationIds ≠ [] → s.conversationId ∈ request.conversationIds) ∧
      request.excludeSummaryId ≠ some s.summaryId)
    (·.createdAt) db.summaries

def sourceBlock (db : OperatorDb) (row : SummaryRecord) : String :=
  "### Leaf " ++ row.summaryId ++ " (" ++ db.createdAtText row.summaryId ++ ")\n\n" ++ row.content

/-- The blocks up to the cap, and the index of the row at which it is passed. -/
def buildSourceBlocks (db : OperatorDb) : Nat → Nat → List SummaryRecord → List String × Option Nat
  | _, _, [] => ([], none)
  | i, totalTokens, row :: rows =>
      let block := db.sourceBlock row
      let blockTokens := if row.tokenCount > 0 then row.tokenCount else estimateTokens block
      if totalTokens + blockTokens > maxSourceTextTokens then ([], some i)
      else
        let rest := db.buildSourceBlocks (i + 1) (totalTokens + blockTokens) rows
        (block :: rest.1, rest.2)

def buildSourceText (db : OperatorDb) (rows : List SummaryRecord) : String × Option Nat :=
  let (parts, truncatedAt) := db.buildSourceBlocks 0 0 rows
  (String.intercalate "\n\n---\n\n" parts, truncatedAt)

def chosenLeafIds (db : OperatorDb) (rows : List SummaryRecord) : List SummaryId :=
  match (db.buildSourceText rows).2 with
  | some truncatedAt => (rows.take truncatedAt).map (·.summaryId)
  | none => rows.map (·.summaryId)

end OperatorDb

/-- A call up to the row of the cache: without leaves or without a prompt it is over. -/
def startCall (texts : CacheTexts) (db : OperatorDb) (cacheId : String)
    (promptId : Option String) (request : SynthesizeRequest) : Option SynthesisCall :=
  match db.selectTimeWindowLeaves request, promptId with
  | [], _ => none
  | _ :: _, none => none
  | row :: rows, some promptId =>
      let leafIds := db.chosenLeafIds (row :: rows)
      some
        { cacheId := cacheId
          key :=
            { sessionKey := request.sessionKey
              rangeStart := texts.iso request.rangeStart
              rangeEnd := texts.iso request.rangeEnd
              leafFingerprint := texts.fingerprintLeaves leafIds
              grepFilter := none
              tierLabel := request.tierLabel
              promptId := promptId }
          leafIds := leafIds
          phase := .chosen }

/-! ## The steps -/

structure SynthesisState where
  db : OperatorDb
  calls : Nat → Option SynthesisCall

inductive SynthesisAction
  | choose (call : Nat) (cacheId : String) (promptId : Option String)
      (request : SynthesizeRequest)
  | insertRow (call : Nat) (now : Timestamp) (refused : Bool)
  | finish (call : Nat) (outcome : DispatchOutcome) (refused : Bool)
  | recordRef (call : Nat) (refused : Bool)
  | purge (request : PurgeRequest)
  | clean (archivedAt : ConversationId → Option Timestamp) (backupFailure : Option String)
      (filterIds : List String) (vacuum : Bool)

namespace SynthesisState

def setCall (state : SynthesisState) (call : Nat) (value : SynthesisCall) : SynthesisState :=
  { state with calls := fun i => if i = call then some value else state.calls i }

def setSynthesis (state : SynthesisState) (synthesis : SynthesisTables) : SynthesisState :=
  { state with db := { state.db with synthesis := synthesis } }

/-- The foreign keys of a leaf reference. -/
def allowsRef (db : OperatorDb) (cacheId : String) (leafId : SummaryId) : Bool :=
  (db.synthesis.cache.any fun row => row.cacheId = cacheId) &&
    db.summaries.any fun row => row.summaryId = leafId

def insertRow (state : SynthesisState) (call : Nat) (now : Timestamp) (refused : Bool)
    (value : SynthesisCall) : SynthesisState :=
  if refused then state.setCall call { value with phase := .ended }
  else
    let inserted :=
      state.db.synthesis.insertCacheRowSingleFlight now value.cacheId value.key value.leafIds
    (state.setSynthesis inserted.1).setCall call
      { value with phase := if inserted.2 then .building else .ended }

/-- A refused update leaves the row as it is, and the call goes on. -/
def finish (state : SynthesisState) (call : Nat) (outcome : DispatchOutcome) (refused : Bool)
    (value : SynthesisCall) : SynthesisState :=
  match outcome with
  | .failed reason =>
      (if refused then state
        else state.setSynthesis (state.db.synthesis.markCacheFailed value.cacheId reason)).setCall
          call { value with phase := .ended }
  | .output text promptId =>
      (if refused then state
        else state.setSynthesis (state.db.synthesis.setReady value.cacheId text
          (estimateTokens text) promptId)).setCall
            call { value with phase := .recording value.leafIds }

/-- The first reference that is refused ends the loop. -/
def recordRef (state : SynthesisState) (call : Nat) (refused : Bool) (value : SynthesisCall) :
    List SummaryId → SynthesisState
  | [] => state.setCall call { value with phase := .ended }
  | leafId :: rest =>
      if refused || !allowsRef state.db value.cacheId leafId then
        state.setCall call { value with phase := .ended }
      else
        (state.setSynthesis (state.db.synthesis.insertLeafRef value.cacheId leafId)).setCall call
          { value with phase := .recording rest }

def step (texts : CacheTexts) (state : SynthesisState) : SynthesisAction → SynthesisState
  | .choose call cacheId promptId request =>
      match state.calls call, startCall texts state.db cacheId promptId request with
      | none, some value => state.setCall call value
      | _, _ => state
  | .insertRow call now refused =>
      match state.calls call with
      | some value =>
          if value.phase = .chosen then state.insertRow call now refused value else state
      | none => state
  | .finish call outcome refused =>
      match state.calls call with
      | some value =>
          if value.phase = .building then state.finish call outcome refused value else state
      | none => state
  | .recordRef call refused =>
      match state.calls call with
      | some value =>
          match value.phase with
          | .recording rest => state.recordRef call refused value rest
          | _ => state
      | none => state
  | .purge request => { state with db := state.db.purge request }
  | .clean archivedAt backupFailure filterIds vacuum =>
      { state with
        db := (state.db.applyDoctorCleaners archivedAt backupFailure filterIds vacuum).1 }

end SynthesisState
end LosslessHermes
