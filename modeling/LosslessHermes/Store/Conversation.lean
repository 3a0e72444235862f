import Mathlib.Data.Prod.Lex
import LosslessHermes.Store.Records

/-!
# The conversation store

The statements of `ConversationStore` that the ingest, compaction and assembly
paths execute, as functions of the database. A write returns the constraint it
violates or the new database; a read is an ordered selection.

`MessagesWellFormed` is what the constraints and the two `AUTOINCREMENT`
counters guarantee about the stored messages; `createMessage_spec` is about a
message created one above the largest `seq`.
-/

namespace LosslessHermes

namespace Db

/-! ## Conversations -/

def getConversation (db : Db) (conversationId : ConversationId) : Option ConversationRecord :=
  db.conversations.find? (·.conversationId = conversationId)

/-- `ORDER BY active DESC, created_at DESC LIMIT 1`. -/
def getConversationBySessionId (db : Db) (sessionId : SessionId) : Option ConversationRecord :=
  (Table.select (fun c => c.sessionId = sessionId)
    (fun c => toLex (if c.active then 0 else 1, -(c.createdAt : Int)))
    db.conversations : List ConversationRecord).head?

/-- `create_conversation` for a row without a session key, so that the partial
unique index on active session keys does not apply. -/
def createConversation (db : Db) (now : Timestamp) (sessionId : SessionId) :
    Db × ConversationRecord :=
  let record : ConversationRecord :=
    { conversationId := db.conversationSequence + 1, sessionId := sessionId,
      sessionKey := none, active := true, createdAt := now }
  ({ db with
      conversations := db.conversations ++ [record]
      conversationSequence := db.conversationSequence + 1 }, record)

/-- `get_or_create_conversation` as the ingest path calls it, without a
session key. -/
def getOrCreateConversation (db : Db) (now : Timestamp) (sessionId : SessionId) :
    Db × ConversationRecord :=
  match db.getConversationBySessionId sessionId with
  | some existing => (db, existing)
  | none => db.createConversation now sessionId

/-! ## Messages -/

structure CreateMessageInput where
  conversationId : ConversationId
  seq : Nat
  role : MessageRole
  content : String
  tokenCount : Nat
  deriving DecidableEq, Repr

/-- The row that a successful `createMessage` stores. -/
def createdMessage (db : Db) (now : Timestamp) (input : CreateMessageInput) : MessageRecord :=
  { messageId := db.messageSequence + 1, conversationId := input.conversationId,
    seq := input.seq, role := input.role, content := input.content,
    tokenCount := input.tokenCount, createdAt := now, suppressedAt := none }

def createMessage (db : Db) (now : Timestamp) (input : CreateMessageInput) :
    Except SqlError (Db × MessageRecord) :=
  let record := db.createdMessage now input
  if (db.getConversation input.conversationId).isNone then
    .error (.foreignKey "messages")
  else
    match Table.insertRow (fun m : MessageRecord => (m.conversationId, m.seq)) record
        db.messages with
    | none => .error (.uniqueConstraint "messages")
    | some messages =>
        .ok ({ db with messages := messages, messageSequence := db.messageSequence + 1 }, record)

def getMessages (db : Db) (conversationId : ConversationId) : List MessageRecord :=
  Table.select (fun m => m.conversationId = conversationId) (·.seq) db.messages

def getMessageById (db : Db) (messageId : MessageId) (includeSuppressed : Bool := false) :
    Option MessageRecord :=
  db.messages.find? fun m => m.messageId = messageId ∧ (includeSuppressed ∨ m.suppressedAt = none)

/-- The rows of `parts` owned by a message. -/
def messagePartRows (messageId : MessageId) (parts : List CreateMessagePartInput) :
    List MessagePartRecord :=
  parts.map fun p => { p with messageId := messageId }

def createMessageParts (db : Db) (messageId : MessageId) (parts : List CreateMessagePartInput) :
    Except SqlError Db :=
  if parts = [] then .ok db
  else if (db.getMessageById messageId true).isNone then .error (.foreignKey "message_parts")
  else .ok { db with messageParts := db.messageParts ++ messagePartRows messageId parts }

def getMessageParts (db : Db) (messageId : MessageId) : List MessagePartRecord :=
  Table.select (fun p => p.messageId = messageId) (·.ordinal) db.messageParts

def getMessageCount (db : Db) (conversationId : ConversationId) : Nat :=
  db.messages.countP fun m => m.conversationId = conversationId

/-- `SELECT COALESCE(MAX(seq), 0)`. -/
def getMaxSeq (db : Db) (conversationId : ConversationId) : Nat :=
  (((db.messages.filter fun m => m.conversationId = conversationId).map (·.seq)).max?).getD 0

/-! ## Messages read back in the order they were created -/

structure MessagesWellFormed (db : Db) : Prop where
  idBound : ∀ m ∈ db.messages, m.messageId ≤ db.messageSequence
  idNodup : (db.messages.map (·.messageId)).Nodup
  seqNodup : (db.messages.map fun m => (m.conversationId, m.seq)).Nodup

theorem getMaxSeq_spec (db : Db) (c : ConversationId) {m : MessageRecord} (hm : m ∈ db.messages)
    (hc : m.conversationId = c) : m.seq ≤ db.getMaxSeq c := by
  have hMem : m.seq ∈ (db.messages.filter fun m => m.conversationId = c).map (·.seq) :=
    List.mem_map_of_mem (List.mem_filter.mpr ⟨hm, by simpa using hc⟩)
  unfold getMaxSeq
  cases hMax : ((db.messages.filter fun m => m.conversationId = c).map (·.seq)).max? with
  | none =>
    rw [List.max?_eq_none_iff.mp hMax] at hMem
    exact absurd hMem List.not_mem_nil
  | some n => exact (List.max?_eq_some_iff.mp hMax).2 _ hMem

theorem mem_getMessages {db : Db} {c : ConversationId} {m : MessageRecord} :
    m ∈ db.getMessages c ↔ m ∈ db.messages ∧ m.conversationId = c := by
  simp [getMessages, Table.mem_select]

theorem MessagesWellFormed.pairwise {db : Db} (h : MessagesWellFormed db) (c : ConversationId) :
    (db.getMessages c).Pairwise (fun a b => a.seq < b.seq) := by
  have hNodup : ((db.getMessages c).map (·.seq)).Nodup := by
    have hPerm : (db.getMessages c).Perm (db.messages.filter fun m => m.conversationId = c) :=
      Table.select_perm _
    refine (hPerm.map (·.seq)).nodup_iff.mpr ?_
    refine (List.nodup_map_iff_inj_on ((h.idNodup.of_map _).filter _)).mpr ?_
    intro a ha b hb hEq
    obtain ⟨ha, hac⟩ := List.mem_filter.mp ha
    obtain ⟨hb, hbc⟩ := List.mem_filter.mp hb
    refine List.inj_on_of_nodup_map h.seqNodup ha hb ?_
    simp only [decide_eq_true_eq] at hac hbc
    simp [hac, hbc, hEq]
  have hLe : (db.getMessages c).Pairwise (fun a b => a.seq ≤ b.seq) := Table.select_pairwise_le _
  exact (hLe.and (List.pairwise_map.mp hNodup)).imp fun ⟨hle, hne⟩ => lt_of_le_of_ne hle hne

theorem createMessage_spec {db : Db} (h : MessagesWellFormed db) (now : Timestamp)
    (input : CreateMessageInput) (hConversation : (db.getConversation input.conversationId).isSome)
    (hSeq : input.seq = db.getMaxSeq input.conversationId + 1) :
    ∃ db', db.createMessage now input = .ok (db', db.createdMessage now input) ∧
      db' = { db with
        messages := db.messages ++ [db.createdMessage now input]
        messageSequence := db.messageSequence + 1 } ∧
      MessagesWellFormed db' ∧
      db'.getMessages input.conversationId =
        db.getMessages input.conversationId ++ [db.createdMessage now input] ∧
      ∀ c, c ≠ input.conversationId → db'.getMessages c = db.getMessages c := by
  have hLt : ∀ m ∈ db.messages, m.conversationId = input.conversationId → m.seq < input.seq := by
    intro m hm hc
    have := getMaxSeq_spec db _ hm hc
    omega
  have hKey : (input.conversationId, input.seq) ∉
      db.messages.map fun m => (m.conversationId, m.seq) := by
    intro hMem
    obtain ⟨m, hm, hEq⟩ := List.mem_map.mp hMem
    simp only [Prod.mk.injEq] at hEq
    exact absurd hEq.2 (hLt m hm hEq.1).ne
  have hInsert : Table.insertRow (fun m : MessageRecord => (m.conversationId, m.seq))
      (db.createdMessage now input) db.messages =
      some (db.messages ++ [db.createdMessage now input]) := if_neg hKey
  have hFk : (db.getConversation input.conversationId).isNone = false := by
    simpa using hConversation
  refine ⟨_, ?_, rfl, ⟨?_, ?_, ?_⟩, ?_, ?_⟩
  · simp only [createMessage, hFk, hInsert]
    rfl
  · intro m hm
    rcases List.mem_append.mp hm with hm | hm
    · exact Nat.le_succ_of_le (h.idBound m hm)
    · rw [List.mem_singleton.mp hm]
      exact le_rfl
  · simp only [List.map_append, List.map_cons, List.map_nil]
    refine List.Nodup.append h.idNodup (List.nodup_singleton _) ?_
    rw [List.disjoint_singleton]
    intro hMem
    obtain ⟨m, hm, hEq⟩ := List.mem_map.mp hMem
    exact absurd hEq (Nat.ne_of_lt (Nat.lt_succ_of_le (h.idBound m hm)))
  · simp only [List.map_append, List.map_cons, List.map_nil]
    refine List.Nodup.append h.seqNodup (List.nodup_singleton _) ?_
    rw [List.disjoint_singleton]
    exact hKey
  · refine Table.select_append_of_lt (by simp [createdMessage]) (h.pairwise _) fun m hm => ?_
    obtain ⟨hm, hc⟩ := mem_getMessages.mp hm
    exact hLt m hm hc
  · intro c hc
    exact Table.select_append_of_not (by simpa [createdMessage] using hc.symm)

/-- Reads by id of older messages do not see a new row. -/
theorem getMessageById_append {db : Db} {m : MessageId} {new : List MessageRecord}
    {record : MessageRecord} {includeSuppressed : Bool}
    (h : db.getMessageById m includeSuppressed = some record) :
    Db.getMessageById { db with messages := db.messages ++ new } m includeSuppressed =
      some record := by
  unfold getMessageById at h ⊢
  rw [List.find?_append, h]
  rfl

theorem getMessageById_new {db : Db} (h : MessagesWellFormed db) {record : MessageRecord}
    (hId : record.messageId = db.messageSequence + 1) :
    Db.getMessageById { db with messages := db.messages ++ [record] }
      (db.messageSequence + 1) true = some record := by
  unfold getMessageById
  rw [List.find?_append, List.find?_eq_none.mpr, Option.none_or]
  · simp [hId]
  · intro m hm
    simp only [true_or, and_true, decide_eq_true_eq]
    exact Nat.ne_of_lt (Nat.lt_succ_of_le (h.idBound m hm))

end Db
end LosslessHermes
