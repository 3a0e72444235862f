import LosslessHermes.Ingest.Encode
import LosslessHermes.Library.Text

/-!
# From part rows back to content

How the assembler reads the part rows of a message: the metadata envelope, the
blocks that the rows stand for, the runtime role and the identity of a tool
result. A dictionary lookup that finds nothing gives `None`, which is
`Json.null` here.

The generated id of a part row and the form in which a float is read are
parameters.
-/

namespace LosslessHermes

open Json (get?)

namespace Assembler

/-- What the source leaves to its environment. -/
structure Environment where
  /-- The shortest text of the float that a JSON literal stands for. -/
  canonical : FloatText → FloatText
  /-- `part_id`, a generated UUID. -/
  partId : MessagePartRecord → String
  /-- `_format_date_for_attribute` in the configured time zone. -/
  formatDate : Timestamp → String

inductive RuntimeRole
  | user
  | assistant
  | toolResult
  deriving DecidableEq, Repr

def RuntimeRole.text : RuntimeRole → String
  | .user => "user"
  | .assistant => "assistant"
  | .toolResult => "toolResult"

/-- `dict.get`, `None` if there is no such key. -/
def field (fields : Message) (key : String) : Json :=
  (get? fields key).getD .null

/-- A string that is not empty. -/
def nonempty (text : Option String) : Option String :=
  text.filter (· ≠ "")

section Metadata

variable (environment : Environment)

/-- `parse_json`, which answers `None` for a text that is no JSON. -/
def parseJson (value : Option String) : Json :=
  match value with
  | none => .null
  | some text =>
      if Text.isBlank text then .null
      else (Json.loads environment.canonical text).getD .null

/-- The metadata of a part, if it is an object. -/
def decodedMetadata (part : MessagePartRecord) : Option Message :=
  match parseJson environment part.metadata with
  | .obj decoded => some decoded
  | _ => none

def getOriginalRole (parts : List MessagePartRecord) : Option String :=
  parts.findSome? fun part =>
    (decodedMetadata environment part).bind fun decoded => safeString (get? decoded "originalRole")

structure PartMetadata where
  originalRole : Option String
  rawType : Option String
  raw : Json

def getPartMetadata (part : MessagePartRecord) : PartMetadata :=
  match decodedMetadata environment part with
  | none => { originalRole := none, rawType := none, raw := .null }
  | some decoded =>
      { originalRole := safeString (get? decoded "originalRole")
        rawType := safeString (get? decoded "rawType")
        raw := field decoded "raw" }

/-- A stored column: its JSON value, or the text itself where that is none. -/
def parseStoredValue (value : Option String) : Json :=
  match nonempty value with
  | none => .null
  | some text =>
      match parseJson environment (some text) with
      | .null => .str text
      | parsed => parsed

end Metadata

/-! ## Blocks -/

def toolCallRawTypes : List String :=
  ["function_call", "functionCall", "tool_use", "tool-use", "toolUse", "toolCall"]

def toolResultRawTypes : List String :=
  ["function_call_output", "toolResult", "tool_result"]

/-- The fields that have a value, in order. -/
def block (fields : List (String × Json)) : Message :=
  fields.filter fun entry =>
    match entry.2 with
    | .null => false
    | _ => true

def optional (text : Option String) : Json :=
  match nonempty text with
  | some text => .str text
  | none => .null

def textBlock (text : String) : Message :=
  [("type", .str "text"), ("text", .str text)]

section Blocks

variable (environment : Environment)

def reasoningBlockFromPart (part : MessagePartRecord) (rawType : Option String) : Message :=
  let blockType := if rawType = some "thinking" then "thinking" else "reasoning"
  block [("type", .str blockType),
    (if blockType = "thinking" then "thinking" else "text", optional part.textContent)]

def tryRestoreOpenaiReasoning (raw : Message) : Option Message :=
  match get? raw "type", get? raw "thinkingSignature" with
  | some (.str type), some (.str signature) =>
      if type ≠ "thinking" ∨ signature.toList.head? ≠ some '\x7b' then none
      else
        match Json.loads environment.canonical signature with
        | some (.obj parsed) =>
            match get? parsed "type", get? parsed "id" with
            | some (.str parsedType), some (.str _) =>
                if parsedType = "reasoning" then some parsed else none
            | _, _ => none
        | _ => none
  | _, _ => none

def toolCallBlockFromPart (part : MessagePartRecord) (rawType : Option String) : Message :=
  let blockType := (rawType.filter (toolCallRawTypes.contains ·)).getD "toolCall"
  let inputValue := parseStoredValue environment part.toolInput
  if blockType = "function_call" then
    block [("type", .str blockType), ("call_id", optional part.toolCallId),
      ("name", optional part.toolName), ("arguments", inputValue)]
  else
    block [("type", .str blockType),
      ("id", .str ((nonempty part.toolCallId).getD ("toolu_lcm_" ++ environment.partId part))),
      ("name", optional part.toolName),
      (if blockType = "functionCall" ∨ blockType = "toolCall" then "arguments" else "input",
        inputValue)]

/-- Whether a tool result is a plain text block of the raw value, and its text. -/
def plainTextResult (part : MessagePartRecord) (raw : Message) : Option String :=
  match get? raw "text", field raw "output", field raw "content" with
  | some (.str text), .null, .null =>
      if nonempty part.toolOutput = none ∧ (part.textContent = none ∨ part.textContent = some text)
      then some text else none
  | _, _, _ => none

def toolResultBlockFromPart (part : MessagePartRecord) (rawType : Option String)
    (raw : Option Message) : Message :=
  match raw.bind (plainTextResult part) with
  | some text => textBlock text
  | none =>
      let raw := raw.getD []
      let blockType := (rawType.filter (toolResultRawTypes.contains ·)).getD "tool_result"
      let payload : String × Json :=
        match parseStoredValue environment part.toolOutput, part.textContent,
            field raw "output", field raw "content" with
        | .null, none, .null, .null => ("output", .str "")
        | .null, none, .null, content => ("content", content)
        | .null, none, output, _ => ("output", output)
        | .null, some text, _, _ => ("output", .str text)
        | output, _, _, _ => ("output", output)
      let isError : String × Json :=
        match get? raw "is_error", get? raw "isError" with
        | some (.bool b), _ => ("is_error", .bool b)
        | _, some (.bool b) => ("isError", .bool b)
        | _, _ => ("is_error", .null)
      block [("type", .str blockType), ("name", optional part.toolName), payload, isError,
        (if blockType = "function_call_output" then "call_id" else "tool_use_id",
          optional part.toolCallId)]

/-- A part whose empty tool columns are filled from the raw block. -/
def backfilled (part : MessagePartRecord) (raw : Message) : MessagePartRecord :=
  let rawArguments :=
    match field raw "arguments" with
    | .null => field raw "input"
    | value => value
  { part with
    toolCallId := (nonempty part.toolCallId).or
      (((safeString (get? raw "id")).or (safeString (get? raw "call_id"))).or part.toolCallId)
    toolName := (nonempty part.toolName).or ((safeString (get? raw "name")).or part.toolName)
    toolInput := (nonempty part.toolInput).or
      (match rawArguments with
        | .null => part.toolInput
        | .str text => some text
        | value => some (Json.dumpsAscii value)) }

/-- The block of a part by its columns and metadata. -/
def blockFromColumns (part : MessagePartRecord) (metadata : PartMetadata) : Message :=
  let raw : Option Message :=
    match metadata.raw with
    | .obj raw => some raw
    | _ => none
  let byRawType : Message :=
    match metadata.rawType with
    | some rawType =>
        if toolCallRawTypes.contains rawType then
          toolCallBlockFromPart environment part (some rawType)
        else if toolResultRawTypes.contains rawType then
          toolResultBlockFromPart environment part (some rawType) raw
        else textOfPart
    | none => textOfPart
  match part.partType with
  | .reasoning => reasoningBlockFromPart part metadata.rawType
  | .tool =>
      if metadata.originalRole = some "toolResult" ∨
          metadata.rawType = some "function_call_output" then
        toolResultBlockFromPart environment part metadata.rawType raw
      else toolCallBlockFromPart environment part metadata.rawType
  | _ => byRawType
where
  /-- The block of a part that is neither reasoning nor a tool block. -/
  textOfPart : Message :=
    match part.partType with
    | .text => textBlock (part.textContent.getD "")
    | _ =>
        match nonempty part.textContent with
        | some text => textBlock text
        | none =>
            match decodedMetadata environment part with
            | some decoded => textBlock (Json.dumpsAscii (.obj decoded))
            | none => textBlock ""

def blockFromPart (part : MessagePartRecord) : Message :=
  let metadata := getPartMetadata environment part
  match metadata.raw with
  | .obj raw =>
      match tryRestoreOpenaiReasoning environment raw with
      | some restored => restored
      | none =>
          match get? raw "type" with
          | some (.str rawType) =>
              if (toolCallRawTypes ++ toolResultRawTypes).contains rawType then
                blockFromColumns environment (backfilled part raw) metadata
              else raw
          | _ => raw
  | _ => blockFromColumns environment part metadata

def contentFromParts (parts : List MessagePartRecord) (role : RuntimeRole)
    (fallbackContent : String) : Json :=
  if parts.isEmpty then
    match role with
    | .assistant =>
        if fallbackContent = "" then .arr [] else .arr [.obj (textBlock fallbackContent)]
    | .toolResult => .arr [.obj (textBlock fallbackContent)]
    | .user => .str fallbackContent
  else
    let blocks := parts.map (blockFromPart environment)
    match role, blocks with
    | .user, [fields] =>
        match get? fields "type", get? fields "text" with
        | some (.str "text"), some (.str text) => .str text
        | _, _ => .arr [.obj fields]
    | _, _ => .arr (blocks.map .obj)

end Blocks

/-! ## Roles and tool results -/

section Roles

variable (environment : Environment)

def toRuntimeRole (dbRole : MessageRole) (parts : List MessagePartRecord) : RuntimeRole :=
  match getOriginalRole environment parts with
  | some "toolResult" => .toolResult
  | some "assistant" => .assistant
  | some "user" => .user
  | some "system" => .user
  | _ =>
      match dbRole with
      | .tool => .toolResult
      | .assistant => .assistant
      | _ => .user

/-- The identity of a tool result: the column of the first part that has one, or
what its metadata holds. -/
def pickToolString (column : MessagePartRecord → Option String) (key : String)
    (rawAliases : List String) (parts : List MessagePartRecord) : Option String :=
  parts.findSome? fun part =>
    (nonempty (column part)).or
      ((decodedMetadata environment part).bind fun decoded =>
        (safeString (get? decoded key)).or
          (match get? decoded "raw" with
            | some (.obj raw) => firstString raw rawAliases
            | _ => none))

def pickToolCallId (parts : List MessagePartRecord) : Option String :=
  pickToolString environment (·.toolCallId) "toolCallId" ["toolCallId", "tool_call_id"] parts

def pickToolName (parts : List MessagePartRecord) : Option String :=
  pickToolString environment (·.toolName) "toolName" ["name", "toolName"] parts

def pickToolIsError (parts : List MessagePartRecord) : Option Bool :=
  parts.findSome? fun part =>
    (decodedMetadata environment part).bind fun decoded => safeBool (get? decoded "isError")

end Roles

end Assembler
end LosslessHermes
