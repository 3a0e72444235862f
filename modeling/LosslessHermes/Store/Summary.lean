import LosslessHermes.Store.Conversation
import Mathlib.Algebra.GroupWithZero.Nat

/-!
# The summary store

Summaries, their two link tables and the context items of a conversation. The
replacement of a range of context items is the only statement that moves
ordinals: it deletes the range, inserts the summary at its first ordinal and
renumbers the rest in two passes through negative ordinals, so that the primary
key `(conversation_id, ordinal)` is respected after every single update.
-/

namespace LosslessHermes

structure CreateSummaryInput where
  summaryId : SummaryId
  conversationId : ConversationId
  kind : SummaryKind
  depth : Option Nat
  content : String
  tokenCount : Nat
  fileIds : List String
  earliestAt : Option Timestamp
  latestAt : Option Timestamp
  descendantCount : Nat
  descendantTokenCount : Nat
  sourceMessageTokenCount : Nat
  model : Option String

structure ReplaceContextRangeInput where
  conversationId : ConversationId
  startOrdinal : Int
  endOrdinal : Int
  summaryId : SummaryId

namespace Db

/-! ## Summaries and their sources -/

/-- Depth 0 for a leaf and 1 for a condensed summary, unless given. -/
def defaultDepth (kind : SummaryKind) (depth : Option Nat) : Nat :=
  match depth, kind with
  | some d, _ => d
  | none, .leaf => 0
  | none, .condensed => 1

/-- The row that a successful `insertSummary` stores. -/
def createdSummary (now : Timestamp) (input : CreateSummaryInput) : SummaryRecord :=
  { summaryId := input.summaryId, conversationId := input.conversationId,
    kind := input.kind, depth := defaultDepth input.kind input.depth,
    content := input.content, tokenCount := input.tokenCount, fileIds := input.fileIds,
    earliestAt := input.earliestAt, latestAt := input.latestAt,
    descendantCount := input.descendantCount,
    descendantTokenCount := input.descendantTokenCount,
    sourceMessageTokenCount := input.sourceMessageTokenCount,
    model := input.model.getD "unknown", createdAt := now, suppressedAt := none }

def insertSummary (db : Db) (now : Timestamp) (input : CreateSummaryInput) :
    Except SqlError Db :=
  let record := createdSummary now input
  if (db.getConversation input.conversationId).isNone then .error (.foreignKey "summaries")
  else match Table.insertRow (·.summaryId) record db.summaries with
    | none => .error (.uniqueConstraint "summaries")
    | some summaries => .ok { db with summaries := summaries }

def getSummary (db : Db) (summaryId : SummaryId) (includeSuppressed : Bool := false) :
    Option SummaryRecord :=
  db.summaries.find? fun s => s.summaryId = summaryId ∧ (includeSuppressed ∨ s.suppressedAt = none)

/-- One `INSERT … ON CONFLICT (summary_id, message_id) DO NOTHING` an id, its
`ordinal` the index in the list. -/
def linkSummaryToMessages (db : Db) (summaryId : SummaryId) (messageIds : List MessageId) :
    Except SqlError Db :=
  if messageIds.any fun m => (db.getMessageById m true).isNone then
    .error (.foreignKey "summary_messages")
  else .ok { db with
    summaryMessages := (messageIds.zipIdx.map fun (m, i) => ⟨summaryId, m, i⟩).foldl
      (fun links l =>
        Table.insertOrIgnore (fun l : SummaryMessageLink => (l.summaryId, l.messageId)) l links)
      db.summaryMessages }

def linkSummaryToParents (db : Db) (summaryId : SummaryId)
    (parentSummaryIds : List SummaryId) : Except SqlError Db :=
  if parentSummaryIds.any fun p => (db.getSummary p true).isNone then
    .error (.foreignKey "summary_parents")
  else .ok { db with
    summaryParents := (parentSummaryIds.zipIdx.map fun (p, i) => ⟨summaryId, p, i⟩).foldl
      (fun links l =>
        Table.insertOrIgnore (fun l : SummaryParentLink => (l.summaryId, l.parentSummaryId)) l
          links)
      db.summaryParents }

def getSummaryMessages (db : Db) (summaryId : SummaryId) : List MessageId :=
  (Table.select (fun l => l.summaryId = summaryId) (·.ordinal) db.summaryMessages).map (·.messageId)

/-- The source summaries compacted into `summaryId`, without suppressed ones. -/
def getSummaryParents (db : Db) (summaryId : SummaryId) : List SummaryRecord :=
  (Table.select (fun l => l.summaryId = summaryId) (·.ordinal) db.summaryParents).filterMap
    fun l => db.getSummary l.parentSummaryId

/-! ## Context items -/

def getContextItems (db : Db) (conversationId : ConversationId) : List ContextItemRecord :=
  Table.select (fun i => i.conversationId = conversationId) (·.ordinal) db.contextItems

/-- `SELECT DISTINCT depth … ORDER BY depth`, below an ordinal when one is given. -/
def getDistinctDepthsInContext (db : Db) (conversationId : ConversationId)
    (maxOrdinalExclusive : Option Int) : List Nat :=
  let depths := db.contextItems.filterMap fun i =>
    match i.ref with
    | .message _ => none
    | .summary s =>
        if i.conversationId = conversationId ∧ (∀ m ∈ maxOrdinalExclusive, i.ordinal < m) then
          (db.getSummary s true).map (·.depth)
        else none
  depths.dedup.insertionSort (· ≤ ·)

/-- The row a context item refers to exists. -/
def hasRef (db : Db) : ContextItemRef → Bool
  | .message m => (db.getMessageById m true).isSome
  | .summary s => (db.getSummary s true).isSome

/-- The `token_count` of the row that a context item is joined with. -/
def refTokenCount (db : Db) : ContextItemRef → Nat
  | .message m => ((db.getMessageById m true).map (·.tokenCount)).getD 0
  | .summary s => ((db.getSummary s true).map (·.tokenCount)).getD 0

def getContextTokenCount (db : Db) (conversationId : ConversationId) : Nat :=
  ((db.getContextItems conversationId).map fun i => db.refTokenCount i.ref).sum

/-- `INSERT INTO context_items`, under its primary key and foreign keys. -/
def insertContextItem (db : Db) (item : ContextItemRecord) : Except SqlError Db :=
  if (db.getConversation item.conversationId).isNone || !db.hasRef item.ref then
    .error (.foreignKey "context_items")
  else match Table.insertRow (fun i : ContextItemRecord => (i.conversationId, i.ordinal)) item
      db.contextItems with
    | none => .error (.uniqueConstraint "context_items")
    | some items => .ok { db with contextItems := items }

/-- `SELECT COALESCE(MAX(ordinal), -1)`. -/
def maxOrdinal (db : Db) (conversationId : ConversationId) : Int :=
  (((db.contextItems.filter fun i => i.conversationId = conversationId).map
    (·.ordinal)).max?).getD (-1)

def appendContextMessage (db : Db) (conversationId : ConversationId) (messageId : MessageId) :
    Except SqlError Db :=
  db.insertContextItem ⟨conversationId, db.maxOrdinal conversationId + 1, .message messageId⟩

/-- A single `UPDATE context_items SET ordinal = ?` of the renumbering passes. -/
def setOrdinals (db : Db) (conversationId : ConversationId) (updates : List (Int × Int)) :
    Except SqlError Db :=
  match Table.rekeyAll (fun i : ContextItemRecord => (i.conversationId, i.ordinal))
      (fun k i => { i with conversationId := k.1, ordinal := k.2 })
      (updates.map fun u => ((conversationId, u.1), (conversationId, u.2))) db.contextItems with
  | none => .error (.uniqueConstraint "context_items")
  | some items => .ok { db with contextItems := items }

/-- Step 3 of the replacement: contiguous ordinals, through `-(i + 1)`. -/
def resequence (db : Db) (conversationId : ConversationId) : Except SqlError Db :=
  let ordinals := (db.getContextItems conversationId).map (·.ordinal)
  if ordinals.zipIdx.any fun (o, i) => o ≠ (i : Int) then
    match db.setOrdinals conversationId
        (ordinals.zipIdx.map fun (o, i) => (o, -((i : Int) + 1))) with
    | .error e => .error e
    | .ok db =>
        db.setOrdinals conversationId
          (ordinals.zipIdx.map fun (_, i) => (-((i : Int) + 1), (i : Int)))
  else .ok db

def replaceContextRangeWithSummary (db : Db) (input : ReplaceContextRangeInput) :
    Except SqlError Db :=
  let deleted := { db with
    contextItems := db.contextItems.filter fun i =>
      ¬(i.conversationId = input.conversationId ∧
        input.startOrdinal ≤ i.ordinal ∧ i.ordinal ≤ input.endOrdinal) }
  match deleted.insertContextItem
      ⟨input.conversationId, input.startOrdinal, .summary input.summaryId⟩ with
  | .error e => .error e
  | .ok db => db.resequence input.conversationId

/-! ## What a successful write did -/

theorem insertSummary_eq_ok {db db' : Db} {now : Timestamp} {input : CreateSummaryInput}
    (h : db.insertSummary now input = .ok db') :
    (db.getConversation input.conversationId).isSome ∧
      input.summaryId ∉ db.summaries.map (·.summaryId) ∧
      db' = { db with summaries := db.summaries ++ [createdSummary now input] } := by
  simp only [insertSummary] at h
  split at h
  · cases h
  · rename_i hConversation
    split at h
    · cases h
    · rename_i summaries hInsert
      obtain ⟨hFresh, rfl⟩ := Table.insertRow_eq_some.mp hInsert
      exact ⟨by simpa [Option.isSome_iff_ne_none] using hConversation, hFresh,
        (Except.ok.inj h).symm⟩

/-- Links of a summary that has none yet are all written, in the given order. -/
theorem linkSummaryToMessages_eq_ok {db db' : Db} {s : SummaryId} {messageIds : List MessageId}
    (hFresh : ∀ l ∈ db.summaryMessages, l.summaryId ≠ s) (hNodup : messageIds.Nodup)
    (h : db.linkSummaryToMessages s messageIds = .ok db') :
    db' = { db with
      summaryMessages := db.summaryMessages ++ messageIds.zipIdx.map fun (m, i) => ⟨s, m, i⟩ } := by
  unfold linkSummaryToMessages at h
  split at h
  · cases h
  · rw [← Except.ok.inj h]
    refine congrArg (fun links => { db with summaryMessages := links }) ?_
    exact Table.foldl_insertOrIgnore_links (fun _ => rfl) (fun _ => rfl) hNodup hFresh

theorem linkSummaryToParents_eq_ok {db db' : Db} {s : SummaryId} {parentIds : List SummaryId}
    (hFresh : ∀ l ∈ db.summaryParents, l.summaryId ≠ s) (hNodup : parentIds.Nodup)
    (h : db.linkSummaryToParents s parentIds = .ok db') :
    db' = { db with
      summaryParents := db.summaryParents ++ parentIds.zipIdx.map fun (p, i) => ⟨s, p, i⟩ } := by
  unfold linkSummaryToParents at h
  split at h
  · cases h
  · rw [← Except.ok.inj h]
    refine congrArg (fun links => { db with summaryParents := links }) ?_
    exact Table.foldl_insertOrIgnore_links (fun _ => rfl) (fun _ => rfl) hNodup hFresh

end Db
end LosslessHermes
