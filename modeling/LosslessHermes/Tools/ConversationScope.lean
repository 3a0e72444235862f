import LosslessHermes.Store.SessionKeys
import LosslessHermes.Tools.Params

/-!
# The scope of a tool call

`resolve_lcm_conversation_scope` decides which conversations a call is about: an explicit
conversation, all of them, or the family of the conversation of the session.

`exists_ids_of_conversationId` says that a scope with a conversation has a list of ids that is not
empty, so that a filter by these ids is never left out.
-/

namespace LosslessHermes

namespace ConversationStore

/-- `ORDER BY active DESC, created_at DESC, conversation_id DESC`. -/
def familyOrder (c : ConversationRecord) : Nat ×ₗ (Int ×ₗ Int) :=
  toLex (if c.active then 0 else 1, toLex (-(c.createdAt : Int), -(c.conversationId : Int)))

def getConversationFamilyIds (db : Db) (conversationId : ConversationId) : List ConversationId :=
  match db.getConversation conversationId with
  | none => []
  | some base =>
      let normalizedKey := Text.strip (base.sessionKey.getD "")
      let family : List ConversationRecord :=
        if normalizedKey ≠ "" then
          Table.select (fun c => c.sessionKey = some normalizedKey) familyOrder db.conversations
        else Table.select (fun c => c.sessionId = base.sessionId) familyOrder db.conversations
      family.map ConversationRecord.conversationId

/-- The arguments are stripped; an empty one counts as absent. -/
def getConversationForSession (db : Db) (sessionId sessionKey : String) :
    Option ConversationRecord :=
  let byKey :=
    if sessionKey = "" then none else getConversationBySessionKey db sessionKey
  match byKey with
  | some record => some record
  | none => if sessionId = "" then none else db.getConversationBySessionId sessionId

end ConversationStore

namespace Tools

structure LcmConversationScope where
  conversationId : Option Int := none
  conversationIds : Option (List Int) := none
  allConversations : Bool := false
  deriving DecidableEq, Repr

def LcmConversationScope.ofConversation (conversationId : Int) : LcmConversationScope :=
  { conversationId := some conversationId, conversationIds := some [conversationId] }

/-- The family of a conversation, or the conversation alone. -/
def familyScope (db : Db) (conversationId : ConversationId) : LcmConversationScope :=
  let familyIds := ConversationStore.getConversationFamilyIds db conversationId
  { conversationId := some (conversationId : Int)
    conversationIds := some
      (if familyIds = [] then [(conversationId : Int)]
        else familyIds.map fun id : ConversationId => (id : Int)) }

/-- What `conversationId` says, where it is a finite number. -/
def explicitId (py : Python) (params : List (String × Json)) : Option Int :=
  match Json.get? params "conversationId" with
  | some (.int n) => some n
  | some (.float x) =>
      match py.float (.float x) with
      | .ok (.whole n) => some n
      | _ => none
  | _ => none

/-- `resolve` is the callback that maps a key to a session. -/
def normalizedSessionId (resolve : Option (String → Option String))
    (sessionId sessionKey : String) : String :=
  if sessionId = "" ∧ sessionKey ≠ "" then
    Text.strip ((resolve.bind fun f => f sessionKey).getD "")
  else sessionId

def sessionScope (db : Db) (sessionId sessionKey : String) : LcmConversationScope :=
  if sessionId = "" ∧ sessionKey = "" then {}
  else
    match ConversationStore.getConversationForSession db sessionId sessionKey with
    | none => {}
    | some record => familyScope db record.conversationId

def resolveLcmConversationScope (py : Python) (db : Db)
    (resolve : Option (String → Option String)) (params : List (String × Json))
    (sessionId sessionKey : Option String) : LcmConversationScope :=
  match explicitId py params with
  | some id => .ofConversation id
  | none =>
      match Json.get? params "allConversations" with
      | some (.bool true) => { allConversations := true }
      | _ =>
        let sessionKey := Text.strip (sessionKey.getD "")
        let byKey :=
          if sessionKey = "" then none
          else ConversationStore.getConversationBySessionKey db sessionKey
        match byKey with
        | some record => familyScope db record.conversationId
        | none =>
            sessionScope db (normalizedSessionId resolve (Text.strip (sessionId.getD "")) sessionKey)
              sessionKey

namespace LcmConversationScope

def ids (scope : LcmConversationScope) : List Int :=
  scope.conversationIds.getD []

/-- The conversation of a scope comes with a list of ids. -/
structure Listed (scope : LcmConversationScope) : Prop where
  ids : ∀ ids, scope.conversationIds = some ids → ids ≠ []
  listed : scope.conversationId.isSome → scope.conversationIds.isSome

theorem listed_empty (all : Bool) : Listed { allConversations := all } :=
  ⟨fun _ h => (by cases h), fun h => (by cases h)⟩

theorem listed_familyScope (db : Db) (conversationId : ConversationId) :
    Listed (familyScope db conversationId) := by
  refine ⟨fun ids hIds => ?_, fun _ => rfl⟩
  cases hIds
  split
  · exact List.cons_ne_nil _ _
  · rename_i hNe
    intro hNil
    exact hNe (List.map_eq_nil_iff.mp hNil)

theorem listed_sessionScope (db : Db) (sessionId sessionKey : String) :
    Listed (sessionScope db sessionId sessionKey) := by
  unfold sessionScope
  split
  · exact listed_empty false
  · split
    · exact listed_empty false
    · exact listed_familyScope db _

theorem listed_resolve (py : Python) (db : Db) (resolve : Option (String → Option String))
    (params : List (String × Json)) (sessionId sessionKey : Option String) :
    Listed (resolveLcmConversationScope py db resolve params sessionId sessionKey) := by
  unfold resolveLcmConversationScope
  split
  · rename_i id _
    refine ⟨fun ids hIds => ?_, fun _ => rfl⟩
    cases hIds
    exact List.cons_ne_nil _ _
  · split
    · exact listed_empty true
    · simp only
      split
      · exact listed_familyScope db _
      · exact listed_sessionScope db _ _

theorem Listed.exists_ids_of_conversationId {scope : LcmConversationScope} (h : Listed scope)
    (hSome : scope.conversationId ≠ none) :
    ∃ ids, scope.conversationIds = some ids ∧ ids ≠ [] := by
  obtain ⟨ids, hIds⟩ := Option.isSome_iff_exists.mp (h.listed (Option.isSome_iff_ne_none.mpr hSome))
  exact ⟨ids, hIds, h.ids ids hIds⟩

end LcmConversationScope

end Tools

end LosslessHermes
