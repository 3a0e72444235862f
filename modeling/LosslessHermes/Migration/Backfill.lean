import LosslessHermes.Store.Summary

/-!
# The backfills of a migration

`_backfill_summary_depths` and `_backfill_summary_metadata` compute the columns of
all summaries from the links, one conversation after the other. The first one
resolves a summary when all of its sources are resolved; the second one walks the
summaries by depth. The dictionaries are association lists, the newest entry first.
-/

namespace LosslessHermes.Migration

/-- The order in which Python walks through a set of ids. -/
structure SetOrder where
  list : List SummaryId → List SummaryId
  perm : ∀ ids, (list ids).Perm ids

/-- `parents_by_summary_id.get(summary_id, [])`. -/
def parentsOf (edges : List SummaryParentLink) (s : SummaryId) : List SummaryId :=
  (edges.filter fun l => l.summaryId = s).map (·.parentSummaryId)

/-- `SELECT DISTINCT conversation_id` of the rows of a kind. -/
def conversationsOf (rows : List SummaryRecord) : List ConversationId :=
  (rows.map (·.conversationId)).dedup

/-! ## The depths -/

abbrev DepthMap := List (SummaryId × Nat)

/-- The greatest depth of the sources; `none` while one of them has none. -/
def maxParentDepth (depths : DepthMap) : Nat → List SummaryId → Option Nat
  | high, [] => some high
  | high, p :: rest =>
      match depths.lookup p with
      | none => none
      | some depth => maxParentDepth depths (max high depth) rest

def resolvedDepth (depths : DepthMap) (parentIds : List SummaryId) : Option Nat :=
  if parentIds = [] then some 1 else (maxParentDepth depths 0 parentIds).map (· + 1)

/-- One pass over the unresolved summaries, and those that are left. -/
def sweep (edges : List SummaryParentLink) :
    List SummaryId → DepthMap → DepthMap × List SummaryId
  | [], depths => (depths, [])
  | s :: rest, depths =>
      match resolvedDepth depths (parentsOf edges s) with
      | some depth => sweep edges rest ((s, depth) :: depths)
      | none => ((sweep edges rest depths).1, s :: (sweep edges rest depths).2)

/-- Passes until nothing is left; without progress the rest is given depth 1. -/
def resolveDepths (order : SetOrder) (edges : List SummaryParentLink)
    (unresolved : List SummaryId) (depths : DepthMap) : DepthMap :=
  if unresolved = [] then depths
  else
    let (depths, left) := sweep edges (order.list unresolved) depths
    if left.length < unresolved.length then resolveDepths order edges left depths
    else left.map (fun s => (s, 1)) ++ depths
termination_by unresolved.length

def condensedEdges (db : Db) (conversationId : ConversationId) : List SummaryParentLink :=
  db.summaryParents.filter fun l => db.summaries.any fun s =>
    s.summaryId = l.summaryId ∧ s.conversationId = conversationId ∧ s.kind = .condensed

def conversationDepths (order : SetOrder) (db : Db) (conversationId : ConversationId) : DepthMap :=
  let summaries := db.summaries.filter fun s => s.conversationId = conversationId
  resolveDepths order (condensedEdges db conversationId)
    ((summaries.filter fun s => s.kind = .condensed).map (·.summaryId))
    ((summaries.filter fun s => s.kind = .leaf).map fun s => (s.summaryId, 0))

def withDepth (conversationId : ConversationId) (depths : DepthMap) (s : SummaryRecord) :
    SummaryRecord :=
  if s.conversationId = conversationId then
    match depths.lookup s.summaryId with
    | some depth => { s with depth := depth }
    | none => s
  else s

def writeDepths (db : Db) (conversationId : ConversationId) (depths : DepthMap) : Db :=
  { db with summaries := db.summaries.map (withDepth conversationId depths) }

def withLeafDepth (s : SummaryRecord) : SummaryRecord :=
  if s.kind = .leaf then { s with depth := 0 } else s

def resetLeafDepths (db : Db) : Db :=
  { db with summaries := db.summaries.map withLeafDepth }

def backfillSummaryDepths (order : SetOrder) (db : Db) : Db :=
  let db := resetLeafDepths db
  (conversationsOf (db.summaries.filter fun s => s.kind = .condensed)).foldl
    (fun db c => writeDepths db c (conversationDepths order db c)) db

/-! ## The metadata -/

structure SummaryMetadata where
  earliestAt : Timestamp
  latestAt : Timestamp
  descendantCount : Nat
  descendantTokenCount : Nat
  sourceMessageTokenCount : Nat
  deriving DecidableEq, Repr

abbrev MetadataMap := List (SummaryId × SummaryMetadata)

/-- What the loop over the sources has added up. -/
structure Rollup where
  earliestAt : Option Timestamp
  latestAt : Option Timestamp
  descendantCount : Nat
  descendantTokenCount : Nat
  sourceMessageTokenCount : Nat
  deriving DecidableEq, Repr

/-- The messages that a leaf is joined with. -/
def joinedMessages (db : Db) (s : SummaryId) : List MessageRecord :=
  (db.summaryMessages.filter fun l => l.summaryId = s).filterMap fun l =>
    db.getMessageById l.messageId true

/-- A leaf without a message gets the time of its own row. -/
def leafMetadata (db : Db) (record : SummaryRecord) : SummaryMetadata :=
  let messages := joinedMessages db record.summaryId
  { earliestAt := (messages.map (·.createdAt)).min?.getD record.createdAt
    latestAt := (messages.map (·.createdAt)).max?.getD record.createdAt
    descendantCount := 0
    descendantTokenCount := 0
    sourceMessageTokenCount := (messages.map (·.tokenCount)).sum }

def earlier (current : Option Timestamp) (time : Timestamp) : Option Timestamp :=
  match current with
  | none => some time
  | some t => if time < t then some time else some t

def later (current : Option Timestamp) (time : Timestamp) : Option Timestamp :=
  match current with
  | none => some time
  | some t => if t < time then some time else some t

/-- One source in the loop; one without metadata is passed over. -/
def addSource (metadata : MetadataMap) (tokenCount : SummaryId → Nat) (rollup : Rollup)
    (p : SummaryId) : Rollup :=
  match metadata.lookup p with
  | none => rollup
  | some source =>
      { earliestAt := earlier rollup.earliestAt source.earliestAt
        latestAt := later rollup.latestAt source.latestAt
        descendantCount := rollup.descendantCount + (source.descendantCount + 1)
        descendantTokenCount :=
          rollup.descendantTokenCount + (tokenCount p + source.descendantTokenCount)
        sourceMessageTokenCount :=
          rollup.sourceMessageTokenCount + source.sourceMessageTokenCount }

def condensedMetadata (metadata : MetadataMap) (tokenCount : SummaryId → Nat)
    (parentIds : List SummaryId) (record : SummaryRecord) : SummaryMetadata :=
  let rollup := parentIds.foldl (addSource metadata tokenCount) ⟨none, none, 0, 0, 0⟩
  { earliestAt := rollup.earliestAt.getD record.createdAt
    latestAt := rollup.latestAt.getD record.createdAt
    descendantCount := rollup.descendantCount
    descendantTokenCount := rollup.descendantTokenCount
    sourceMessageTokenCount := rollup.sourceMessageTokenCount }

/-- `token_count_by_summary_id.get(summary_id, 0)`. -/
def tokenCountOf (summaries : List SummaryRecord) (s : SummaryId) : Nat :=
  ((summaries.find? fun r => r.summaryId = s).map (·.tokenCount)).getD 0

def addMetadata (db : Db) (summaries : List SummaryRecord) (edges : List SummaryParentLink)
    (metadata : MetadataMap) (record : SummaryRecord) : MetadataMap :=
  match record.kind with
  | .leaf => (record.summaryId, leafMetadata db record) :: metadata
  | .condensed => (record.summaryId, condensedMetadata metadata (tokenCountOf summaries)
      (parentsOf edges record.summaryId) record) :: metadata

def conversationMetadata (db : Db) (conversationId : ConversationId) : MetadataMap :=
  let summaries := Table.select (fun s => s.conversationId = conversationId)
    (fun s : SummaryRecord => toLex (s.depth, s.createdAt)) db.summaries
  let edges := db.summaryParents.filter fun l => db.summaries.any fun s =>
    s.summaryId = l.summaryId ∧ s.conversationId = conversationId
  summaries.foldl (addMetadata db summaries edges) []

def withMetadata (conversationId : ConversationId) (metadata : MetadataMap) (s : SummaryRecord) :
    SummaryRecord :=
  if s.conversationId = conversationId then
    match metadata.lookup s.summaryId with
    | some found =>
        { s with
          earliestAt := some found.earliestAt
          latestAt := some found.latestAt
          descendantCount := found.descendantCount
          descendantTokenCount := found.descendantTokenCount
          sourceMessageTokenCount := found.sourceMessageTokenCount }
    | none => s
  else s

def writeMetadata (db : Db) (conversationId : ConversationId) (metadata : MetadataMap) : Db :=
  { db with summaries := db.summaries.map (withMetadata conversationId metadata) }

def backfillSummaryMetadata (db : Db) : Db :=
  (conversationsOf db.summaries).foldl
    (fun db c => writeMetadata db c (conversationMetadata db c)) db

end LosslessHermes.Migration
