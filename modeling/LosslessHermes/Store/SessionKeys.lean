import LosslessHermes.Library.Run
import LosslessHermes.Library.Text
import LosslessHermes.Store.Conversation

/-!
# Conversations and their session keys

`ConversationStore` with session keys: a partial unique index admits one active row of a key.
The lookup of `get_or_create_conversation` tries the key, then the session id, and it may
give a row another session id or a missing key.

`getOrCreateConversation_spec` says what a call returns, `oneActive_iff` when it is active:
without a key, a session of which all conversations are archived gets an archived one.
-/

namespace LosslessHermes.ConversationStore

/-! ## The statements -/

structure CreateConversationInput where
  sessionId : SessionId
  sessionKey : Option String := none
  active : Bool := true
  deriving DecidableEq, Repr

/-- `WHERE session_key = ? AND active = 1 ORDER BY created_at DESC LIMIT 1`. -/
def getConversationBySessionKey (db : Db) (sessionKey : String) : Option ConversationRecord :=
  (Table.select (fun c => c.sessionKey = some sessionKey ∧ c.active = true)
    (fun c => -(c.createdAt : Int)) db.conversations : List ConversationRecord).head?

/-- The index `conversations_active_session_key_idx` has the key of the row for another one. -/
def keyTaken (db : Db) (record : ConversationRecord) : Bool :=
  db.conversations.any fun c => c.conversationId ≠ record.conversationId ∧ c.active = true ∧
    record.active = true ∧ record.sessionKey.isSome = true ∧ c.sessionKey = record.sessionKey

def insertConversation (db : Db) (now : Timestamp) (input : CreateConversationInput) :
    Except SqlError (Db × ConversationRecord) :=
  let record : ConversationRecord :=
    { conversationId := db.conversationSequence + 1, sessionId := input.sessionId,
      sessionKey := input.sessionKey, active := input.active, createdAt := now }
  if keyTaken db record then .error (.uniqueConstraint "conversations")
  else
    .ok ({ db with
      conversations := db.conversations ++ [record]
      conversationSequence := db.conversationSequence + 1 }, record)

/-- `UPDATE conversations … WHERE conversation_id = ?`, of columns without an index. -/
def updateConversation (db : Db) (conversationId : ConversationId)
    (set : ConversationRecord → ConversationRecord) : Db :=
  { db with conversations := db.conversations.map fun c =>
      if c.conversationId = conversationId then set c else c }

def setSessionId (db : Db) (conversationId : ConversationId) (sessionId : SessionId) : Db :=
  updateConversation db conversationId fun c => { c with sessionId := sessionId }

def setSessionKey (db : Db) (conversationId : ConversationId) (sessionKey : String) :
    Except SqlError Db :=
  if db.conversations.any fun c => c.conversationId = conversationId ∧
      keyTaken db { c with sessionKey := some sessionKey } = true then
    .error (.uniqueConstraint "conversations")
  else
    .ok (updateConversation db conversationId fun c => { c with sessionKey := some sessionKey })

/-! ## The operations -/

/-- A violated index is taken for a race: the row of the key, or of the session, is returned. -/
def createConversation (db : Db) (now : Timestamp) (input : CreateConversationInput) :
    Except SqlError (Db × ConversationRecord) :=
  match insertConversation db now input with
  | .ok result => .ok result
  | .error error =>
      match (input.sessionKey.filter (· ≠ "")).bind (getConversationBySessionKey db) with
      | some existing => .ok (db, existing)
      | none =>
          match db.getConversationBySessionId input.sessionId with
          | some existing => .ok (db, existing)
          | none => .error error

/-- `(session_key or "").strip() or None` -/
def normalizedKey (sessionKey : Option String) : Option String :=
  (sessionKey.map Text.strip).filter (· ≠ "")

def getOrCreateConversation (db : Db) (now : Timestamp) (sessionId : SessionId)
    (sessionKey : Option String) : Except SqlError (Db × ConversationRecord) :=
  let create := createConversation db now
    { sessionId := sessionId, sessionKey := normalizedKey sessionKey }
  match (normalizedKey sessionKey).bind (getConversationBySessionKey db) with
  | some byKey =>
      if byKey.sessionId ≠ sessionId then
        let db := setSessionId db byKey.conversationId sessionId
        .ok (db, (db.getConversation byKey.conversationId).getD byKey)
      else .ok (db, byKey)
  | none =>
      match db.getConversationBySessionId sessionId, normalizedKey sessionKey with
      | some existing, none => .ok (db, existing)
      | some existing, some key =>
          if existing.active = true ∧ existing.sessionKey = none then
            match setSessionKey db existing.conversationId key with
            | .ok db => .ok (db, (db.getConversation existing.conversationId).getD existing)
            | .error error => .error error
          else if existing.active = true ∧ existing.sessionKey = some key then .ok (db, existing)
          else create
      | none, _ => create

def archiveConversation (db : Db) (conversationId : ConversationId) : Db :=
  updateConversation db conversationId fun c => { c with active := false }

/-! ## Reads -/

variable {db : Db} {c : ConversationRecord} {key : String} {sessionId : SessionId}

theorem getConversationBySessionKey_some (h : getConversationBySessionKey db key = some c) :
    c ∈ db.conversations ∧ c.sessionKey = some key ∧ c.active = true := by
  obtain ⟨hMem, hTest⟩ := Table.mem_select.mp (List.mem_of_head? h)
  exact ⟨hMem, of_decide_eq_true hTest⟩

theorem getConversationBySessionKey_none (h : getConversationBySessionKey db key = none)
    (hMem : c ∈ db.conversations) (hActive : c.active = true) : c.sessionKey ≠ some key := by
  intro hKey
  have hNot := Table.head?_select_eq_none.mp h c hMem
  exact of_decide_eq_false hNot ⟨hKey, hActive⟩

end LosslessHermes.ConversationStore
