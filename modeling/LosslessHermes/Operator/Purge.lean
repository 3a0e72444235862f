import LosslessHermes.Library.Text
import LosslessHermes.Store.Summary
import LosslessHermes.Synthesis.Cache
import LosslessHermes.Embeddings.Store
import Mathlib.Logic.Relation

/-!
# The purge of an operator

`run_purge` resolves its criteria to the leaves that are not suppressed yet and
runs the six statements of the cascade on them, in one transaction. `OperatorDb`
adds to the conversation database the columns and tables that only the operator
surfaces use; a column of `summaries` is a function of the id.
-/

namespace LosslessHermes

structure OperatorDb extends Db where
  /-- `summaries.session_key`. -/
  sessionKey : SummaryId → String
  /-- `summaries.created_at`, as the text that is stored. -/
  createdAtText : SummaryId → String
  containsSuppressedLeaves : SummaryId → Bool
  suppressReason : SummaryId → Option String
  synthesis : SynthesisTables
  embeddings : EmbeddingTables

/-- The bounds are the texts that `_iso` writes. -/
structure PurgeCriteria where
  summaryIds : Option (List SummaryId)
  sessionKey : Option String
  since : Option String
  before : Option String
  minTokenCount : Option Int
  deriving DecidableEq, Repr

structure PurgeOptions where
  reason : String
  criteria : PurgeCriteria
  allowMainSession : Bool
  deriving DecidableEq, Repr

inductive PurgeErrorKind
  | noCriteria
  | mainSessionBlocked
  | missingReason
  deriving DecidableEq, Repr

structure PurgeError where
  kind : PurgeErrorKind
  message : String
  deriving DecidableEq, Repr

structure PurgeResult where
  affectedLeafIds : List SummaryId
  purgeSessionId : String
  deriving DecidableEq, Repr

namespace OperatorDb

/-! ## The statements -/

/-- The tables whose suppression trigger exists. -/
def triggersOn (db : OperatorDb) (table : String) : Bool :=
  db.embeddings.tables.any fun t => t.name = table ∧ t.triggers

/-- `UPDATE summaries SET suppressed_at = …`, with the trigger that copies a change
between `NULL` and not `NULL` to the vectors. -/
def setSuppressedAt (db : OperatorDb) (summaryIds : List SummaryId) (value : Option Timestamp) :
    OperatorDb :=
  let changed := (db.summaries.filter fun s =>
    s.summaryId ∈ summaryIds ∧ s.suppressedAt.isSome ≠ value.isSome).map (·.summaryId)
  { db with
    summaries := db.summaries.map fun s =>
      if s.summaryId ∈ summaryIds then { s with suppressedAt := value } else s
    embeddings := { db.embeddings with
      vectors := db.embeddings.vectors.map fun v =>
        if v.embeddedKind = .summary ∧ v.embeddedId ∈ changed ∧ db.triggersOn v.table then
          { v with suppressed := value.isSome }
        else v } }

def recordReason (db : OperatorDb) (leafIds : List SummaryId) (reason : String) : OperatorDb :=
  { db with suppressReason := fun s => if s ∈ leafIds then some reason else db.suppressReason s }

/-- A condensed summary of which one of the leaves is a source. -/
def isFlagged (db : OperatorDb) (leafIds : List SummaryId) (s : SummaryId) : Bool :=
  (db.summaries.any fun row => row.summaryId = s ∧ row.kind = .condensed) &&
    db.summaryParents.any fun l => l.summaryId = s ∧ l.parentSummaryId ∈ leafIds

def flagCondensed (db : OperatorDb) (leafIds : List SummaryId) : OperatorDb :=
  { db with containsSuppressedLeaves := fun s =>
      db.isFlagged leafIds s || db.containsSuppressedLeaves s }

/-- The messages that one of the leaves was made from. -/
def isLinkedTo (db : OperatorDb) (leafIds : List SummaryId) (m : MessageId) : Bool :=
  db.summaryMessages.any fun l => l.messageId = m ∧ l.summaryId ∈ leafIds

/-- The item is a pointer to one of the leaves. -/
def cutsSummary (leafIds : List SummaryId) : ContextItemRef → Bool
  | .summary s => s ∈ leafIds
  | .message _ => false

/-- The item is a pointer to a message of one of the leaves. -/
def cutsMessage (db : OperatorDb) (leafIds : List SummaryId) : ContextItemRef → Bool
  | .summary _ => false
  | .message m => db.isLinkedTo leafIds m

def cutSummaryItems (db : OperatorDb) (leafIds : List SummaryId) : OperatorDb :=
  { db with contextItems := db.contextItems.filter fun i => !cutsSummary leafIds i.ref }

def cutMessageItems (db : OperatorDb) (leafIds : List SummaryId) : OperatorDb :=
  { db with contextItems := db.contextItems.filter fun i => !db.cutsMessage leafIds i.ref }

/-- The subquery of `NOT EXISTS`: a summary outside of the leaves that refers to the
message and is not suppressed. -/
def isKeptBy (db : OperatorDb) (leafIds : List SummaryId) (m : MessageId) : Bool :=
  db.summaryMessages.any fun l => l.messageId = m ∧ l.summaryId ∉ leafIds ∧
    db.summaries.any fun s => s.summaryId = l.summaryId ∧ s.suppressedAt = none

def suppressMessages (db : OperatorDb) (leafIds : List SummaryId) (now : Timestamp) : OperatorDb :=
  { db with messages := db.messages.map fun m =>
      if db.isLinkedTo leafIds m.messageId && !db.isKeptBy leafIds m.messageId then
        { m with suppressedAt := some now }
      else m }

def invalidateCaches (db : OperatorDb) (leafIds : List SummaryId) : OperatorDb :=
  { db with synthesis := db.synthesis.invalidateCaches leafIds }

/-! ## The purge -/

/-- Without explicit ids, all criteria that are given must hold. -/
def resolveTargetLeafIds (db : OperatorDb) (criteria : PurgeCriteria) : List SummaryId :=
  match criteria.summaryIds with
  | some (id :: ids) =>
      (db.summaries.filter fun s => s.summaryId ∈ id :: ids ∧ s.kind = .leaf ∧
        s.suppressedAt = none).map (·.summaryId)
  | _ =>
      (db.summaries.filter fun s => s.kind = .leaf ∧ s.suppressedAt = none ∧
        (∀ key ∈ criteria.sessionKey, key ≠ "" → db.sessionKey s.summaryId = key) ∧
        (∀ since ∈ criteria.since, since ≤ db.createdAtText s.summaryId) ∧
        (∀ before ∈ criteria.before, db.createdAtText s.summaryId < before) ∧
        (∀ count ∈ criteria.minTokenCount, count ≤ (s.tokenCount : Int))).map (·.summaryId)

def runSoftPurgeBody (db : OperatorDb) (leafIds : List SummaryId) (reason : String)
    (now : Timestamp) : OperatorDb :=
  ((((((db.setSuppressedAt leafIds (some now)).recordReason leafIds reason).flagCondensed
    leafIds).cutSummaryItems leafIds).cutMessageItems leafIds).suppressMessages leafIds
      now).invalidateCaches leafIds

def hasCriteria (criteria : PurgeCriteria) : Bool :=
  (criteria.summaryIds.getD []).length > 0 || criteria.sessionKey.getD "" ≠ "" ||
    criteria.since.isSome || criteria.before.isSome || criteria.minTokenCount.isSome

def validatePurge (opts : PurgeOptions) : Except PurgeError Unit :=
  if Text.isBlank opts.reason then .error ⟨.missingReason, "[purge] reason is required"⟩
  else if !hasCriteria opts.criteria then
    .error ⟨.noCriteria, "[purge] at least one criterion required (summary_ids, " ++
      "session_key, since/before, or min_token_count)"⟩
  else if opts.criteria.sessionKey = some "agent:main:main" ∧ !opts.allowMainSession then
    .error ⟨.mainSessionBlocked,
      "[purge] refusing to purge agent:main:main without allow_main_session=True"⟩
  else .ok ()

def runPurge (db : OperatorDb) (opts : PurgeOptions) (purgeSessionId : String) (now : Timestamp) :
    Except PurgeError (OperatorDb × PurgeResult) :=
  match validatePurge opts with
  | .error error => .error error
  | .ok () =>
      let targetLeaves := db.resolveTargetLeafIds opts.criteria
      if targetLeaves.length = 0 then .ok (db, ⟨[], purgeSessionId⟩)
      else .ok (db.runSoftPurgeBody targetLeaves opts.reason now, ⟨targetLeaves, purgeSessionId⟩)

end OperatorDb
end LosslessHermes
