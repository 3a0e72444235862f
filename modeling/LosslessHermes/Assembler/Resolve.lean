import LosslessHermes.Assembler.Decode
import LosslessHermes.Store.Summary
import LosslessHermes.Tokens

/-!
# Resolving context items

A context item becomes the message that the model is shown: a stored message
decoded from its row and part rows, or a summary in its XML wrapper. Items whose
row is missing are dropped, and so is an assistant message without text and
parts.
-/

namespace LosslessHermes.Assembler

open Json (get?)

/-- The fields of `ResolvedItem` that the pipeline reads. -/
structure ResolvedItem where
  ordinal : Int
  message : Message
  tokens : Nat
  isMessage : Bool
  text : String

variable (environment : Environment) (db : Db)

def usageRecord (tokenCount : Nat) : Json :=
  .obj [("input", .int 0), ("output", .int tokenCount), ("cacheRead", .int 0),
    ("cacheWrite", .int 0), ("totalTokens", .int tokenCount),
    ("cost", .obj [("input", .int 0), ("output", .int 0), ("cacheRead", .int 0),
      ("cacheWrite", .int 0), ("total", .int 0)])]

def contentText (content : Json) : String :=
  match content with
  | .str text => text
  | content => Json.dumpsAscii content

/-- The role and the identity of a stored message at run time. A tool result
without an id is shown as an assistant message. -/
structure RuntimeIdentity where
  role : RuntimeRole
  toolCallId : Option String
  toolName : Option String
  isError : Option Bool

def runtimeIdentity (record : MessageRecord) (parts : List MessagePartRecord) :
    RuntimeIdentity :=
  match toRuntimeRole environment record.role parts with
  | .toolResult =>
      let toolCallId := pickToolCallId environment parts
      { role := if toolCallId.isNone then .assistant else .toolResult
        toolCallId := toolCallId
        toolName := some ((pickToolName environment parts).getD "unknown")
        isError := pickToolIsError environment parts }
  | role => { role := role, toolCallId := none, toolName := none, isError := none }

def runtimeMessage (identity : RuntimeIdentity) (content : Json) : Message :=
  match identity.role with
  | .assistant =>
      [("role", .str "assistant"), ("content", content),
        ("usage", usageRecord (estimateTokens (contentText content)))]
  | role =>
      [("role", .str role.text), ("content", content)] ++
        block [("toolCallId", optional identity.toolCallId),
          ("toolName", optional identity.toolName),
          ("isError", if role = .toolResult then
            (match identity.isError with
              | some b => .bool b
              | none => .null) else .null)]

def resolveMessageItem (ordinal : Int) (messageId : MessageId) : Option ResolvedItem :=
  match db.getMessageById messageId with
  | none => none
  | some record =>
      let parts := db.getMessageParts record.messageId
      if record.role = .assistant ∧ Text.isBlank record.content ∧ parts.isEmpty then none
      else
        let identity := runtimeIdentity environment record parts
        let content := contentFromParts environment parts identity.role record.content
        some {
          ordinal := ordinal
          message := runtimeMessage identity content
          tokens := estimateTokens (contentText content)
          isMessage := true
          text := contentText content }

def xmlAttribute (name value : String) : String :=
  name ++ "=\"" ++ value ++ "\""

def summaryKindText : SummaryKind → String
  | .leaf => "leaf"
  | .condensed => "condensed"

/-- The `<summary>` wrapper. -/
def formatSummaryContent (summary : SummaryRecord) : String :=
  let date (name : String) (at? : Option Timestamp) : List String :=
    (at?.map fun timestamp => xmlAttribute name (environment.formatDate timestamp)).toList
  let attributes := [xmlAttribute "id" summary.summaryId,
      xmlAttribute "kind" (summaryKindText summary.kind),
      xmlAttribute "depth" (toString summary.depth),
      xmlAttribute "descendant_count" (toString summary.descendantCount)] ++
    date "earliest_at" summary.earliestAt ++ date "latest_at" summary.latestAt
  let parents := if summary.kind = .condensed then db.getSummaryParents summary.summaryId else []
  let references :=
    if parents.isEmpty then []
    else
      ["  <parents>"] ++ (parents.map fun parent =>
        "    <summary_ref " ++ xmlAttribute "id" parent.summaryId ++ " />") ++ ["  </parents>"]
  "\n".intercalate (["<summary " ++ " ".intercalate attributes ++ ">"] ++ references ++
    ["  <content>", summary.content, "  </content>", "</summary>"])

def summaryMessage (content : String) : Message :=
  [("role", .str "user"), ("content", .str content)]

def resolveSummaryItem (ordinal : Int) (summaryId : SummaryId) : Option ResolvedItem :=
  match db.getSummary summaryId with
  | none => none
  | some summary =>
      let content := formatSummaryContent environment db summary
      some {
        ordinal := ordinal
        message := summaryMessage content
        tokens := estimateTokens content
        isMessage := false
        text := summary.content }

def resolveItem (item : ContextItemRecord) : Option ResolvedItem :=
  match item.ref with
  | .message messageId => resolveMessageItem environment db item.ordinal messageId
  | .summary summaryId => resolveSummaryItem environment db item.ordinal summaryId

def resolveItems (items : List ContextItemRecord) : List ResolvedItem :=
  items.filterMap (resolveItem environment db)

end LosslessHermes.Assembler
