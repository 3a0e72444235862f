import LosslessHermes.Doctor.Markers
import LosslessHermes.Summarize.Chain

/-!
# The repair of broken summaries

`applyScopedDoctorRepair` asks the summarizer once for every target of a conversation, the
leaves before the condensed summaries, and writes what it accepts in one transaction. What
was rewritten earlier in the pass is read from `Overrides`, the newest entry first, and
only then from the rows. No query looks at `suppressedAt`.

The instants are stored as such, so that a timestamp is always readable. The summarizer is
given the target as well: a target is asked for once, and its answer is any text or error.
-/

namespace LosslessHermes.Doctor

open Summarize (LcmSummarizeOptions)

structure SummaryFtsRow where
  summaryId : SummaryId
  content : String
  deriving DecidableEq, Repr

/-- The rows with the two full-text mirrors of the summaries; `none` is a missing table. -/
structure DoctorDb extends Db where
  summariesFts : Option (List SummaryFtsRow)
  summariesFtsCjk : Option (List SummaryFtsRow)

structure DoctorEnv where
  timezone : String
  /-- `_format_timestamp` of `compaction`. -/
  formatTimestamp : Timestamp → String → String

structure SummaryOverride where
  content : String
  tokenCount : Nat
  deriving DecidableEq, Repr

abbrev Overrides := List (SummaryId × SummaryOverride)

abbrev DoctorSummarizeFn :=
  SummaryId → String → Bool → LcmSummarizeOptions → Except String String

/-! ## The order of the targets -/

def isCondensedTarget (target : DoctorTargetRecord) : Bool :=
  !(target.depth == 0 || target.kind == .leaf)

/-- The dictionary of the broken leaves in the context, read at an id: the last row counts. -/
def loadDoctorLeafOrdinals (db : Db) (conversationId : ConversationId) (s : SummaryId) :
    Option Int :=
  match db.getSummary s true with
  | none => none
  | some row =>
      if row.depth = 0 ∧ (detectDoctorMarker row.content).isSome then
        ((db.getContextItems conversationId).reverse.find? fun i => i.ref = .summary s).map
          (·.ordinal)
      else none

/-- The rows by `_compare_doctor_targets_key`. -/
def sortTargets (targets : List DoctorTargetRecord) : List DoctorTargetRecord :=
  Table.select (fun _ => true)
    (fun t : DoctorTargetRecord => toLex (t.depth, toLex (t.createdAt, t.summaryId))) targets

def orderDoctorTargets (db : Db) (conversationId : ConversationId)
    (targets : List DoctorTargetRecord) : List DoctorTargetRecord :=
  let ordinal := fun t : DoctorTargetRecord =>
    loadDoctorLeafOrdinals db conversationId t.summaryId
  let leaves := targets.filter fun t => !isCondensedTarget t
  let activeLeaves := leaves.filterMap fun t => (ordinal t).map fun o => (o, t)
  (Table.select (fun _ => true) Prod.fst activeLeaves).map Prod.snd ++
    sortTargets (leaves.filter fun t => (ordinal t).isNone) ++
    sortTargets (targets.filter isCondensedTarget)

/-! ## The source text -/

def leafRows (db : Db) (s : SummaryId) : List MessageRecord :=
  (Table.select (fun l : SummaryMessageLink => l.summaryId = s) (·.ordinal)
    db.summaryMessages).filterMap fun l => db.getMessageById l.messageId true

def leafPart (env : DoctorEnv) (m : MessageRecord) : String :=
  "[" ++ env.formatTimestamp m.createdAt env.timezone ++ "]\n" ++ m.content

def buildLeafSourceText (env : DoctorEnv) (db : Db) (target : DoctorTargetRecord) :
    Except String String :=
  match leafRows db target.summaryId with
  | [] => .error "no messages linked to summary"
  | rows => .ok ("\n\n".intercalate (rows.map (leafPart env)))

def childRows (db : Db) (s : SummaryId) : List SummaryRecord :=
  (Table.select (fun l : SummaryParentLink => l.summaryId = s) (·.ordinal)
    db.summaryParents).filterMap fun l => db.getSummary l.parentSummaryId true

def childContent (overrides : Overrides) (s : SummaryRecord) : String :=
  match overrides.lookup s.summaryId with
  | some override => Text.strip override.content
  | none => Text.strip s.content

def formatSummaryTimeRange (env : DoctorEnv) (s : SummaryRecord) : String :=
  "[" ++ env.formatTimestamp (s.earliestAt.getD s.createdAt) env.timezone ++ " - " ++
    env.formatTimestamp (s.latestAt.getD s.createdAt) env.timezone ++ "]"

/-- A child without text is dropped. -/
def condensedPart (env : DoctorEnv) (overrides : Overrides) (s : SummaryRecord) : Option String :=
  if childContent overrides s = "" then none
  else some (formatSummaryTimeRange env s ++ "\n" ++ childContent overrides s)

def buildCondensedSourceText (env : DoctorEnv) (db : Db) (overrides : Overrides)
    (target : DoctorTargetRecord) : Except String String :=
  match childRows db target.summaryId with
  | [] => .error "no child summaries linked to summary"
  | rows =>
      match rows.filterMap (condensedPart env overrides) with
      | [] => .error "child summaries resolved empty"
      | parts => .ok ("\n\n".intercalate parts)

def buildSummarySourceText (env : DoctorEnv) (db : Db) (overrides : Overrides)
    (target : DoctorTargetRecord) : Except String String :=
  if isCondensedTarget target then buildCondensedSourceText env db overrides target
  else buildLeafSourceText env db target

/-! ## The previous context -/

def nonEmpty (s : String) : Option String :=
  if s = "" then none else some s

def storedContent (db : Db) (s : SummaryId) : String :=
  Text.strip (((db.getSummary s true).map (·.content)).getD "")

def resolveSummaryContent (db : Db) (overrides : Overrides) (s : SummaryId) : Option String :=
  if s = "" then none
  else
    match overrides.lookup s with
    | some override =>
        if Text.strip override.content = "" then nonEmpty (storedContent db s)
        else some (Text.strip override.content)
    | none => nonEmpty (storedContent db s)

/-- The nearest summary of the same depth before the target in the context. -/
def neighbourInContext (db : Db) (target : DoctorTargetRecord) : Option SummaryId :=
  let items := db.getContextItems target.conversationId
  (items.find? fun i => i.ref = .summary target.summaryId).bind fun item =>
    items.reverse.findSome? fun i =>
      match i.ref with
      | .message _ => none
      | .summary s =>
          if i.ordinal < item.ordinal ∧ (db.getSummary s true).any (·.depth = target.depth)
          then some s else none

/-- The child before the target below the first summary that was made from it. -/
def neighbourInParents (db : Db) (target : DoctorTargetRecord) : Option SummaryId :=
  (db.summaryParents.find? fun l => l.parentSummaryId = target.summaryId).bind fun link =>
    (Table.select
      (fun l : SummaryParentLink => l.summaryId = link.summaryId && l.ordinal < link.ordinal)
      (fun l => OrderDual.toDual l.ordinal) db.summaryParents).head?.map (·.parentSummaryId)

/-- The summary of the same conversation and depth written before the target. -/
def neighbourInTime (db : Db) (target : DoctorTargetRecord) : Option SummaryId :=
  (Table.select
    (fun s : SummaryRecord => s.conversationId = target.conversationId && s.depth = target.depth &&
      (s.createdAt < target.createdAt ||
        s.createdAt = target.createdAt && s.summaryId < target.summaryId))
    (fun s => OrderDual.toDual (toLex (s.createdAt, s.summaryId)))
    db.summaries).head?.map (·.summaryId)

def previousViaContextItems (db : Db) (overrides : Overrides) (target : DoctorTargetRecord) :
    Option String :=
  (neighbourInContext db target).bind (resolveSummaryContent db overrides)

def previousViaSummaryParents (db : Db) (overrides : Overrides) (target : DoctorTargetRecord) :
    Option String :=
  (neighbourInParents db target).bind (resolveSummaryContent db overrides)

def previousViaTimestamp (db : Db) (overrides : Overrides) (target : DoctorTargetRecord) :
    Option String :=
  (neighbourInTime db target).bind (resolveSummaryContent db overrides)

def resolvePreviousSummaryContext (db : Db) (overrides : Overrides) (target : DoctorTargetRecord) :
    Option String :=
  (previousViaContextItems db overrides target).or
    ((previousViaSummaryParents db overrides target).or
      (previousViaTimestamp db overrides target))

/-! ## One target -/

/-- What the summarizer is handed. -/
structure DoctorRequest where
  sourceText : String
  options : LcmSummarizeOptions

def requestFor (env : DoctorEnv) (db : Db) (overrides : Overrides) (target : DoctorTargetRecord) :
    Except String DoctorRequest :=
  match buildSummarySourceText env db overrides target with
  | .error reason => .error reason
  | .ok sourceText =>
      if Text.isBlank sourceText then .error "source text resolved empty"
      else .ok
        { sourceText := sourceText
          options :=
            { previousSummary := resolvePreviousSummaryContext db overrides target
              isCondensed := isCondensedTarget target
              depth := if isCondensedTarget target then some target.depth else none } }

inductive Rewrite
  | skipped (reason : String)
  | unchanged
  | accepted (override : SummaryOverride)
  deriving DecidableEq, Repr

/-- What an answer of the summarizer means for the target. -/
def judge (target : DoctorTargetRecord) : Except String String → Rewrite
  | .error message => .skipped (if message = "" then "unknown repair failure" else message)
  | .ok text =>
      let rewritten := Text.strip text
      if rewritten = "" then .skipped "summarizer returned empty output"
      else if (detectDoctorMarker rewritten).isSome then
        .skipped "rewritten content still contains a doctor marker"
      else if rewritten = Text.strip target.content then .unchanged
      else .accepted ⟨rewritten, estimateTokens rewritten⟩

/-- The locals of the loop, with the calls of the summarizer. -/
structure RepairState where
  overrides : Overrides
  skipped : List (SummaryId × String)
  repairedSummaryIds : List SummaryId
  unchanged : Nat
  calls : List (SummaryId × DoctorRequest)

def RepairState.start : RepairState := ⟨[], [], [], 0, []⟩

def RepairState.settle (state : RepairState) (target : DoctorTargetRecord) :
    Rewrite → RepairState
  | .skipped reason => { state with skipped := state.skipped ++ [(target.summaryId, reason)] }
  | .unchanged => { state with unchanged := state.unchanged + 1 }
  | .accepted override =>
      { state with
        overrides := (target.summaryId, override) :: state.overrides
        repairedSummaryIds := state.repairedSummaryIds ++ [target.summaryId] }

def answerTo (summarize : DoctorSummarizeFn) (target : DoctorTargetRecord)
    (request : DoctorRequest) : Rewrite :=
  judge target (summarize target.summaryId request.sourceText false request.options)

def repairTarget (env : DoctorEnv) (db : Db) (summarize : DoctorSummarizeFn)
    (state : RepairState) (target : DoctorTargetRecord) : RepairState :=
  match requestFor env db state.overrides target with
  | .error reason => state.settle target (.skipped reason)
  | .ok request =>
      { state with calls := state.calls ++ [(target.summaryId, request)] }.settle target
        (answerTo summarize target request)

/-! ## The pass -/

def orderedTargets (db : Db) (conversationId : ConversationId) : List DoctorTargetRecord :=
  orderDoctorTargets db conversationId (loadDoctorTargets db (some conversationId))

def repairPass (env : DoctorEnv) (db : Db) (summarize : DoctorSummarizeFn)
    (conversationId : ConversationId) : RepairState :=
  (orderedTargets db conversationId).foldl (repairTarget env db summarize) .start

def updateRow (s : SummaryId) (override : SummaryOverride) (row : SummaryRecord) :
    SummaryRecord :=
  if row.summaryId = s then
    { row with content := override.content, tokenCount := override.tokenCount }
  else row

def updateFtsRow (s : SummaryId) (content : String) (row : SummaryFtsRow) : SummaryFtsRow :=
  if row.summaryId = s then { row with content := content } else row

/-- `UPDATE summaries_fts`, or an `INSERT` if it changed no row. -/
def updateSummaryFts (s : SummaryId) (content : String) (rows : List SummaryFtsRow) :
    List SummaryFtsRow :=
  if rows.any fun row => row.summaryId = s then rows.map (updateFtsRow s content)
  else rows ++ [⟨s, content⟩]

def writeRepaired (overrides : Overrides) (db : DoctorDb) (s : SummaryId) : DoctorDb :=
  match overrides.lookup s with
  | none => db
  | some override =>
      { db with
        summaries := db.summaries.map (updateRow s override)
        summariesFts := db.summariesFts.map (updateSummaryFts s override.content) }

inductive DoctorApplyResult
  | applied (detected repaired unchanged : Nat) (skipped : List (SummaryId × String))
      (repairedSummaryIds : List SummaryId)
  | unavailable (reason : String)
  deriving DecidableEq, Repr

def UNAVAILABLE_REASON : String :=
  "Lossless Hermes could not resolve a summarizer for native " ++
    "doctor apply through the normal model/auth chain."

/-- `summarize` is what `_resolve_doctor_apply_summarize` found. -/
def applyScopedDoctorRepair (env : DoctorEnv) (db : DoctorDb)
    (summarize : Option DoctorSummarizeFn) (conversationId : ConversationId) :
    DoctorDb × DoctorApplyResult :=
  let targets := loadDoctorTargets db.toDb (some conversationId)
  if targets.isEmpty then (db, .applied 0 0 0 [] [])
  else
    match summarize with
    | none => (db, .unavailable UNAVAILABLE_REASON)
    | some summarize =>
        let state := repairPass env db.toDb summarize conversationId
        (state.repairedSummaryIds.foldl (writeRepaired state.overrides) db,
          .applied targets.length state.repairedSummaryIds.length state.unchanged state.skipped
            state.repairedSummaryIds)

end LosslessHermes.Doctor
