import LosslessHermes.Operator.Purge

/-!
# The cleaners of the doctor

`apply_doctor_cleaners` deletes the conversations that the selected cleaners match,
in one transaction, with all that belongs to them. `summaries` and `messages` go by
the cascade from `conversations`; what refers to them with `ON DELETE RESTRICT` is
deleted before. The column `archived_at` of `conversations` is an argument.
-/

namespace LosslessHermes

structure CleanerDefinition where
  id : String
  predicate : (archivedAt : ConversationId → Option Timestamp) →
    (firstMessagePreview : Option String) → ConversationRecord → Bool

inductive DoctorCleanerApplyResult
  | unavailable (reason : String)
  | applied (filterIds : List String) (deletedConversations deletedMessages : Nat)
      (vacuumed : Bool)
  deriving DecidableEq, Repr

/-- `text LIKE 'pattern%'`, which does not distinguish the case of ASCII letters. -/
def likePrefix (pattern text : String) : Bool :=
  (text.toList.take pattern.toList.length).map Char.toLower = pattern.toList.map Char.toLower

def keyLike (pattern : String) (c : ConversationRecord) : Bool :=
  c.sessionKey.any (likePrefix pattern)

def archivedSubagents : CleanerDefinition where
  id := "archived_subagents"
  predicate _ _ c := !c.active && keyLike "agent:main:subagent:" c

def cronSessions : CleanerDefinition where
  id := "cron_sessions"
  predicate _ _ c := keyLike "agent:main:cron:" c

def nullSubagentContext : CleanerDefinition where
  id := "null_subagent_context"
  predicate archivedAt firstMessagePreview c :=
    c.sessionKey.isNone && !c.active && (archivedAt c.conversationId).isSome &&
      firstMessagePreview.any (likePrefix "[Subagent Context]")

def cleanerDefinitions : List CleanerDefinition :=
  [archivedSubagents, cronSessions, nullSubagentContext]

/-- No selection is all of them; ids that no cleaner has are ignored. -/
def getCleanerDefinitions (filterIds : List String) : List CleanerDefinition :=
  if filterIds = [] then cleanerDefinitions
  else cleanerDefinitions.filter fun definition => definition.id ∈ filterIds

def firstMessagePreviewLimit : Nat := 256

namespace OperatorDb

/-- The first message by `seq`, then `created_at`, then `message_id`. -/
def firstMessagePreview (db : OperatorDb) (c : ConversationId) : Option String :=
  let messages := (db.messages.filter fun m => m.conversationId = c).insertionSort fun a b =>
    a.seq < b.seq ∨ a.seq = b.seq ∧ (a.createdAt < b.createdAt ∨
      a.createdAt = b.createdAt ∧ a.messageId ≤ b.messageId)
  messages.head?.map fun m => String.ofList (m.content.toList.take firstMessagePreviewLimit)

/-! ## The staged sets -/

def cleanerConversationIds (db : OperatorDb) (archivedAt : ConversationId → Option Timestamp)
    (definitions : List CleanerDefinition) : List ConversationId :=
  (db.conversations.filter fun c => definitions.any fun definition =>
    definition.predicate archivedAt (db.firstMessagePreview c.conversationId) c).map
      (·.conversationId)

def cleanerSummaryIds (db : OperatorDb) (conversationIds : List ConversationId) :
    List SummaryId :=
  (db.summaries.filter fun s => s.conversationId ∈ conversationIds).map (·.summaryId)

def cleanerMessageIds (db : OperatorDb) (conversationIds : List ConversationId) :
    List MessageId :=
  (db.messages.filter fun m => m.conversationId ∈ conversationIds).map (·.messageId)

/-- The item belongs to one of the conversations, summaries or messages. -/
def isCleaned (conversationIds : List ConversationId) (summaryIds : List SummaryId)
    (messageIds : List MessageId) (i : ContextItemRecord) : Bool :=
  i.conversationId ∈ conversationIds ||
    match i.ref with
    | .message m => m ∈ messageIds
    | .summary s => s ∈ summaryIds

/-- The cascade, with the triggers that delete the vectors and the metadata of deleted
summaries. -/
def deleteCleanerCandidates (db : OperatorDb) (conversationIds : List ConversationId) :
    OperatorDb :=
  let summaryIds := db.cleanerSummaryIds conversationIds
  let messageIds := db.cleanerMessageIds conversationIds
  { db with
    summaryMessages := db.summaryMessages.filter fun l =>
      l.summaryId ∉ summaryIds ∧ l.messageId ∉ messageIds
    summaryParents := db.summaryParents.filter fun l =>
      l.summaryId ∉ summaryIds ∧ l.parentSummaryId ∉ summaryIds
    contextItems := db.contextItems.filter fun i =>
      !isCleaned conversationIds summaryIds messageIds i
    conversations := db.conversations.filter fun c => c.conversationId ∉ conversationIds
    messages := db.messages.filter fun m => m.conversationId ∉ conversationIds
    messageParts := db.messageParts.filter fun p => p.messageId ∉ messageIds
    summaries := db.summaries.filter fun s => s.conversationId ∉ conversationIds
    synthesis := db.synthesis.cascadeSummaries summaryIds
    embeddings := { db.embeddings with
      vectors := db.embeddings.vectors.filter fun v =>
        !(v.embeddedKind = .summary && v.embeddedId ∈ summaryIds && db.triggersOn v.table)
      metaRows := db.embeddings.metaRows.filter fun m =>
        !(m.embeddedKind = .summary && m.embeddedId ∈ summaryIds) } }

/-- `backupFailure` is the reason for which no backup can be written. An error of the
transaction leaves the database as it is. -/
def applyDoctorCleaners (db : OperatorDb) (archivedAt : ConversationId → Option Timestamp)
    (backupFailure : Option String) (filterIds : List String) (vacuum : Bool) :
    OperatorDb × DoctorCleanerApplyResult :=
  match getCleanerDefinitions filterIds with
  | [] => (db, .unavailable "No valid doctor cleaner filters were selected.")
  | definitions =>
      match backupFailure with
      | some reason => (db, .unavailable reason)
      | none =>
          let conversationIds := db.cleanerConversationIds archivedAt definitions
          let db' :=
            if conversationIds = [] then db else db.deleteCleanerCandidates conversationIds
          (db', .applied (definitions.map (·.id)) conversationIds.length
            (db.cleanerMessageIds conversationIds).length (vacuum && conversationIds ≠ []))

end OperatorDb
end LosslessHermes
