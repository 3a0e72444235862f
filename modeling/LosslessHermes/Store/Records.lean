import LosslessHermes.Library.Table

/-!
# Rows of the conversation database

The tables behind `ConversationStore` and `SummaryStore`, one structure a row
with the columns their code reads or writes. `Db` is the whole database file.
`message_id` and `conversation_id` are `AUTOINCREMENT` columns, so the two
counters of `sqlite_sequence` are part of the state and are rolled back with
it. The `CHECK` on `context_items` (exactly one of `message_id` and
`summary_id`, according to `item_type`) is the type `ContextItemRef`.

Full-text indexes, telemetry and the extraction queue are best-effort side
tables that none of the modelled functions reads; they are left out.
-/

namespace LosslessHermes

abbrev ConversationId := Nat
abbrev MessageId := Nat
abbrev SummaryId := String
abbrev SessionId := String
abbrev Timestamp := Nat

inductive MessageRole
  | system
  | user
  | assistant
  | tool
  deriving DecidableEq, Repr

inductive MessagePartType
  | text
  | reasoning
  | tool
  | patch
  | file
  | subtask
  | compaction
  | stepStart
  | stepFinish
  | snapshot
  | agent
  | retry
  deriving DecidableEq, Repr

inductive SummaryKind
  | leaf
  | condensed
  deriving DecidableEq, Repr

structure ConversationRecord where
  conversationId : ConversationId
  sessionId : SessionId
  sessionKey : Option String
  active : Bool
  createdAt : Timestamp
  deriving DecidableEq, Repr

structure MessageRecord where
  messageId : MessageId
  conversationId : ConversationId
  seq : Nat
  role : MessageRole
  content : String
  tokenCount : Nat
  createdAt : Timestamp
  suppressedAt : Option Timestamp
  deriving DecidableEq, Repr

/-- The input of `create_message_parts`: a row without its generated id and
its owning message. -/
structure CreateMessagePartInput where
  sessionId : SessionId
  partType : MessagePartType
  ordinal : Nat
  textContent : Option String
  toolCallId : Option String
  toolName : Option String
  toolInput : Option String
  toolOutput : Option String
  metadata : Option String
  deriving DecidableEq, Repr

structure MessagePartRecord extends CreateMessagePartInput where
  messageId : MessageId
  deriving DecidableEq, Repr

structure SummaryRecord where
  summaryId : SummaryId
  conversationId : ConversationId
  kind : SummaryKind
  depth : Nat
  content : String
  tokenCount : Nat
  fileIds : List String
  earliestAt : Option Timestamp
  latestAt : Option Timestamp
  descendantCount : Nat
  descendantTokenCount : Nat
  sourceMessageTokenCount : Nat
  model : String
  createdAt : Timestamp
  suppressedAt : Option Timestamp
  deriving DecidableEq, Repr

/-- A row of `summary_messages`. -/
structure SummaryMessageLink where
  summaryId : SummaryId
  messageId : MessageId
  ordinal : Nat
  deriving DecidableEq, Repr

/-- A row of `summary_parents`. -/
structure SummaryParentLink where
  summaryId : SummaryId
  parentSummaryId : SummaryId
  ordinal : Nat
  deriving DecidableEq, Repr

inductive ContextItemRef
  | message (messageId : MessageId)
  | summary (summaryId : SummaryId)
  deriving DecidableEq, Repr

def ContextItemRef.isSummary : ContextItemRef → Bool
  | .message _ => false
  | .summary _ => true

structure ContextItemRecord where
  conversationId : ConversationId
  ordinal : Int
  ref : ContextItemRef
  deriving DecidableEq, Repr

structure Db where
  conversations : List ConversationRecord
  messages : List MessageRecord
  messageParts : List MessagePartRecord
  summaries : List SummaryRecord
  summaryMessages : List SummaryMessageLink
  summaryParents : List SummaryParentLink
  contextItems : List ContextItemRecord
  /-- `sqlite_sequence` of `conversations`: the largest id handed out. -/
  conversationSequence : Nat
  /-- `sqlite_sequence` of `messages`. -/
  messageSequence : Nat
  deriving DecidableEq, Repr

/-- A freshly migrated database. -/
def Db.empty : Db := ⟨[], [], [], [], [], [], [], 0, 0⟩

/-- The constraint a rejected statement violates. -/
inductive SqlError
  | uniqueConstraint (table : String)
  | foreignKey (table : String)
  deriving DecidableEq, Repr

/-- A transaction that nothing else interleaves with: all of its effects, or
none of them and its error. -/
def withTransaction {σ ε α : Type} (db : σ) (operation : σ → Except ε (σ × α)) :
    σ × Except ε α :=
  match operation db with
  | .ok (db', value) => (db', .ok value)
  | .error e => (db, .error e)

/-- A transaction whose operation computes its result beforehand. -/
theorem withTransaction_map_elim {α : Type} {db : Db} {write : Db → Except SqlError Db} {value : α}
    {P : Db × Except SqlError α → Prop} (hError : ∀ e, write db = .error e → P (db, .error e))
    (hOk : ∀ db', write db = .ok db' → P (db', .ok value)) :
    P (withTransaction db fun db => (write db).map fun db => (db, value)) := by
  cases h : write db with
  | error e => simpa [withTransaction, h, Except.map] using hError e h
  | ok db' => simpa [withTransaction, h, Except.map] using hOk db' h

theorem withTransaction_map {α : Type} (db : Db) (write : Db → Except SqlError Db) (value : α) :
    (withTransaction db fun db => (write db).map fun db => (db, value)).1 = db ∨
      write db = .ok (withTransaction db fun db => (write db).map fun db => (db, value)).1 :=
  withTransaction_map_elim (P := fun run => run.1 = db ∨ write db = .ok run.1)
    (fun _ _ => Or.inl rfl) fun _ hWrite => Or.inr hWrite

theorem withTransaction_ok {σ ε α : Type} {db db' : σ} {value : α}
    {operation : σ → Except ε (σ × α)} (h : operation db = .ok (db', value)) :
    withTransaction db operation = (db', .ok value) := by
  simp only [withTransaction, h]

theorem withTransaction_error {σ ε α : Type} {db : σ} {e : ε}
    {operation : σ → Except ε (σ × α)} (h : operation db = .error e) :
    withTransaction db operation = (db, .error e) := by
  simp only [withTransaction, h]

end LosslessHermes
