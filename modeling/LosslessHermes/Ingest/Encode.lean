import LosslessHermes.Library.Json
import LosslessHermes.Store.Records

/-!
# The storage form of a message

How one entry of a conversation history becomes a role, a text and a list of
part rows. An entry is a JSON value; a message is an entry that is an object.
The role of a message is a string or another scalar: a list or an object
cannot be looked up in the set of roles.

`strOf` is the text of a list element that is neither a string nor an object;
it is a parameter.
-/

namespace LosslessHermes

open Json (get?)

/-- A message dictionary. -/
abbrev Message := List (String × Json)

def persistableRawRoles : List String := ["user", "assistant", "system", "tool", "toolResult"]

def toolRawTypes : List String :=
  ["tool_use", "toolUse", "tool-use", "toolCall", "tool_call", "functionCall", "function_call",
    "function_call_output", "tool_result", "toolResult", "tool_use_result"]

def toDbRole (role : Option Json) : MessageRole :=
  match role with
  | some (.str role) =>
      if role = "tool" ∨ role = "toolResult" then .tool
      else if role = "system" then .system
      else if role = "user" then .user
      else .assistant
  | _ => .assistant

def hasPersistableRole (message : Message) : Bool :=
  match get? message "role" with
  | some (.str role) => persistableRawRoles.contains role
  | _ => false

/-! ## The text fallback -/

/-- A block whose detail lives in the part columns only. -/
def isToolRaw (block : Json) : Bool :=
  match block with
  | .obj fields =>
      match get? fields "type" with
      | some (.str type) => toolRawTypes.contains type
      | _ => false
  | _ => false

def extractMessageContent (content : Option Json) : String :=
  match content with
  | none => ""
  | some .null => ""
  | some (.str text) => text
  | some (.arr []) => ""
  | some (.arr (block :: blocks)) =>
      if (block :: blocks).all isToolRaw then "" else Json.dumps (.arr (block :: blocks))
  | some content => Json.dumps content

/-! ## The part rows -/

/-- A string that is not empty. -/
def safeString (value : Option Json) : Option String :=
  match value with
  | some (.str text) => if text = "" then none else some text
  | _ => none

def safeBool (value : Option Json) : Option Bool :=
  match value with
  | some (.bool b) => some b
  | _ => none

/-- The first alias that holds a string. -/
def firstString (fields : Message) (aliases : List String) : Option String :=
  aliases.findSome? fun key => safeString (get? fields key)

/-- The entries that have a value. -/
def cleaned (record : List (String × Option Json)) : List (String × Json) :=
  record.filterMap fun entry => entry.2.map fun value => (entry.1, value)

def toJsonMetadata (record : List (String × Option Json)) : Option String :=
  if (cleaned record).isEmpty then none else some (Json.dumps (.obj (cleaned record)))

def toolCallIdAliases : List String :=
  ["toolCallId", "tool_call_id", "toolUseId", "tool_use_id", "call_id"]

def topLevelToolCallId (message : Message) : Option String :=
  firstString message (toolCallIdAliases ++ ["id"])

def topLevelToolName (message : Message) : Option String :=
  firstString message ["toolName", "tool_name"]

/-- `False or None` is `None`: an explicit `false` under `isError` gives way to
the other spelling. -/
def topLevelIsError (message : Message) : Option Bool :=
  match safeBool (get? message "isError") with
  | some true => some true
  | _ => safeBool (get? message "is_error")

def originalRole (message : Message) : String :=
  match get? message "role" with
  | some (.str role) => role
  | _ => "unknown"

/-- The one part of a message of unknown shape. -/
def agentPart (sessionId : SessionId) (message : Message) (fallbackContent source : String) :
    CreateMessagePartInput :=
  { sessionId := sessionId, partType := .agent, ordinal := 0
    textContent := if fallbackContent = "" then none else some fallbackContent
    toolCallId := none, toolName := none, toolInput := none, toolOutput := none
    metadata := toJsonMetadata
      [("originalRole", some (.str (originalRole message))), ("source", some (.str source))] }

def stringPart (sessionId : SessionId) (message : Message) (content : String) :
    CreateMessagePartInput :=
  { sessionId := sessionId, partType := .text, ordinal := 0, textContent := some content
    toolCallId := topLevelToolCallId message, toolName := topLevelToolName message
    toolInput := none, toolOutput := none
    metadata := toJsonMetadata
      [("originalRole", some (.str (originalRole message))),
        ("isError", (topLevelIsError message).map .bool)] }

/-- An element that is no object. -/
def nonDictPart (strOf : Json → String) (sessionId : SessionId) (message : Message)
    (ordinal : Nat) (block : Json) : CreateMessagePartInput :=
  { sessionId := sessionId, partType := .text, ordinal := ordinal
    textContent := match block with
      | .null => none
      | .str text => some text
      | block => some (strOf block)
    toolCallId := none, toolName := none, toolInput := none, toolOutput := none
    metadata := toJsonMetadata
      [("originalRole", some (.str (originalRole message))),
        ("source", some (.str "non-dict-block"))] }

def blockText (block : Message) : Option String :=
  match get? block "text" with
  | some (.str text) => some text
  | _ =>
      match get? block "content" with
      | some (.str text) => some text
      | _ => none

/-- The first alias that is present, serialized, or else a raw string. -/
def serializedField (block : Message) (aliases : List String) (rawAlias : String) :
    Option String :=
  match aliases.findSome? fun key => get? block key with
  | some value => some (Json.dumps value)
  | none =>
      match get? block rawAlias with
      | some (.str text) => some text
      | _ => none

def dictPart (sessionId : SessionId) (message : Message) (ordinal : Nat) (block : Message) :
    CreateMessagePartInput :=
  let isToolBlock := isToolRaw (.obj block)
  { sessionId := sessionId
    partType := if isToolBlock then .tool else .text
    ordinal := ordinal
    textContent := blockText block
    toolCallId :=
      (firstString block (toolCallIdAliases ++ if isToolBlock then ["id"] else [])).or
        (topLevelToolCallId message)
    toolName := (firstString block ["name", "toolName", "tool_name"]).or (topLevelToolName message)
    toolInput := serializedField block ["input", "arguments", "toolInput"] "tool_input"
    toolOutput := serializedField block ["output", "toolOutput"] "tool_output"
    metadata := toJsonMetadata
      [("originalRole", some (.str (originalRole message))),
        ("blockType", (safeString (get? block "type")).map .str),
        ("isError", (topLevelIsError message).map .bool)] }

def blockPart (strOf : Json → String) (sessionId : SessionId) (message : Message) (ordinal : Nat)
    (block : Json) : CreateMessagePartInput :=
  match block with
  | .obj fields => dictPart sessionId message ordinal fields
  | block => nonDictPart strOf sessionId message ordinal block

def buildMessageParts (strOf : Json → String) (sessionId : SessionId) (message : Message)
    (fallbackContent : String) : List CreateMessagePartInput :=
  match get? message "content" with
  | none => [agentPart sessionId message fallbackContent "unknown-message-shape"]
  | some (.str content) => [stringPart sessionId message content]
  | some (.arr blocks) => blocks.mapIdx (blockPart strOf sessionId message)
  | some _ => [agentPart sessionId message fallbackContent "non-array-content"]

/-! ## Messages that are never stored -/

/-- The value of `stopReason`, or of `stop_reason` where that one is falsy. -/
def stopReason (message : Message) : Option Json :=
  match get? message "stopReason" with
  | some reason => if reason.isTruthy then some reason else get? message "stop_reason"
  | none => get? message "stop_reason"

def hasNoContent (message : Message) : Bool :=
  match get? message "content" with
  | none => true
  | some .null => true
  | some (.str text) => text = ""
  | some (.arr blocks) => blocks.isEmpty
  | some _ => false

/-- An assistant message left behind by a failed call. -/
def isFailedEmptyAssistant (message : Message) : Bool :=
  match get? message "role", stopReason message with
  | some (.str role), some (.str reason) =>
      role = "assistant" && (reason = "error" || reason = "aborted") && hasNoContent message
  | _, _ => false

end LosslessHermes
