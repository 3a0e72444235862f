import LosslessHermes.Ingest.Encode
import LosslessHermes.Library.Text

/-!
# Pairing of tool calls and results

`sanitizeToolUseResultPairing` brings the results of an assistant message behind
it, drops results without a call and inserts an error result for a call without
one. It answers with the list it was given when its flag for a change is not set.
-/

namespace LosslessHermes.Assembler

open Json (get?)

def toolCallTypes : List String :=
  ["toolCall", "toolUse", "tool_use", "tool-use", "functionCall", "function_call"]

def openaiFunctionCallTypes : List String :=
  ["functionCall", "function_call"]

/-- The `type` of a block, if it is a string. -/
def blockType (block : Message) : Option String :=
  match get? block "type" with
  | some (.str type) => some type
  | _ => none

def roleOf (message : Message) : Option String :=
  match get? message "role" with
  | some (.str role) => some role
  | _ => none

def isToolCallBlock (block : Message) : Bool :=
  (blockType block).any (toolCallTypes.contains ·)

def isReasoningBlock (block : Message) : Bool :=
  blockType block = some "reasoning" || blockType block = some "thinking"

/-- `_extract_tool_call_id` and `extract_tool_call_id_from_block`. -/
def extractToolCallId (block : Message) : Option String :=
  firstString block ["id", "call_id"]

/-- `_extract_tool_result_id` and `extract_tool_result_id_from_message`. -/
def extractToolResultId (message : Message) : Option String :=
  firstString message ["toolCallId", "toolUseId"]

/-! ## Reasoning in front of a call -/

structure ReasoningScan where
  sawToolCall : Bool
  reasoningAfterToolCall : Bool
  functionCallCount : Nat

/-- The scan of the blocks, which gives up at any other kind of block. -/
def reasoningScan : ReasoningScan → List Json → Option ReasoningScan
  | scan, [] => some scan
  | scan, .obj block :: blocks =>
      if isReasoningBlock block then
        reasoningScan { scan with
          reasoningAfterToolCall := scan.reasoningAfterToolCall || scan.sawToolCall } blocks
      else if isToolCallBlock block then
        reasoningScan { scan with
          sawToolCall := true
          functionCallCount := scan.functionCallCount +
            if (blockType block).any (openaiFunctionCallTypes.contains ·) then 1 else 0 } blocks
      else none
  | _, _ :: _ => none

def blockSatisfies (p : Message → Bool) (block : Json) : Bool :=
  match block with
  | .obj fields => p fields
  | _ => false

/-- The message with its reasoning moved in front of its only function call, if
that changes it. -/
def normalizeAssistantReasoningBlocks (message : Message) : Option Message :=
  match get? message "content" with
  | some (.arr content) =>
      match reasoningScan ⟨false, false, 0⟩ content with
      | some scan =>
          if scan.reasoningAfterToolCall && scan.functionCallCount = 1 then
            some (Json.setField message "content"
              (.arr (content.filter (blockSatisfies isReasoningBlock) ++
                content.filter (blockSatisfies isToolCallBlock))))
          else none
      | none => none
  | _ => none

/-! ## Repair -/

structure ToolCall where
  id : String
  name : Option String
  deriving DecidableEq, Repr

def extractToolCallsFromAssistant (message : Message) : List ToolCall :=
  match get? message "content" with
  | some (.arr content) =>
      content.filterMap fun block =>
        match block with
        | .obj fields =>
            if isToolCallBlock fields then
              (extractToolCallId fields).map fun id =>
                { id := id
                  name := match get? fields "name" with
                    | some (.str name) => some name
                    | _ => none }
            else none
        | _ => none
  | _ => []

def missingToolResultText : String :=
  "[lossless-claw] missing tool result in session history; inserted synthetic error result for " ++
    "transcript repair."

def makeMissingToolResult (call : ToolCall) : Message :=
  [("role", .str "toolResult"), ("toolCallId", .str call.id),
    ("toolName", .str (call.name.getD "unknown")),
    ("content", .arr [.obj [("type", .str "text"), ("text", .str missingToolResultText)]]),
    ("isError", .bool true)]

structure Repair where
  out : List Json
  seenToolResultIds : List String
  changed : Bool

def Repair.push (repair : Repair) (entry : Json) : Repair :=
  { repair with out := repair.out ++ [entry] }

def Repair.change (repair : Repair) : Repair :=
  { repair with changed := true }

def Repair.pushToolResult (repair : Repair) (message : Message) : Repair :=
  match extractToolResultId message with
  | some id =>
      if repair.seenToolResultIds.contains id then repair.change
      else
        { repair.push (.obj message) with seenToolResultIds := id :: repair.seenToolResultIds }
  | none => repair.push (.obj message)

/-- What stands between an assistant message and the next one. -/
structure Span where
  results : List (String × Message)
  remainder : List Json
  /-- Whether a result was dropped that counts as a change. -/
  dropped : Bool
  rest : List Json

def collectSpan (callIds seen : List String) :
    List (String × Message) → List Json → Span
  | results, [] => { results := results, remainder := [], dropped := false, rest := [] }
  | results, .obj message :: entries =>
      if roleOf message = some "assistant" then
        { results := results, remainder := [], dropped := false, rest := .obj message :: entries }
      else if roleOf message = some "toolResult" then
        let dropIt :=
          let span := collectSpan callIds seen results entries
          { span with dropped := true }
        match extractToolResultId message with
        | some id =>
            if callIds.contains id then
              if seen.contains id then dropIt
              else if (results.lookup id).isSome then collectSpan callIds seen results entries
              else collectSpan callIds seen (results ++ [(id, message)]) entries
            else dropIt
        | none => dropIt
      else
        let span := collectSpan callIds seen results entries
        { span with remainder := .obj message :: span.remainder }
  | results, entry :: entries =>
      let span := collectSpan callIds seen results entries
      { span with remainder := entry :: span.remainder }

/-- The results of the calls, a synthetic one for each call without a result. -/
def Repair.pushResults (results : List (String × Message)) : Repair → List ToolCall → Repair
  | repair, [] => repair
  | repair, call :: calls =>
      match results.lookup call.id with
      | some message => Repair.pushResults results (repair.pushToolResult message) calls
      | none =>
          Repair.pushResults results
            (repair.change.pushToolResult (makeMissingToolResult call)) calls

/-- An assistant message that has calls, with the span behind it. -/
def Repair.pushCalls (repair : Repair) (message : Message) (calls : List ToolCall) (span : Span) :
    Repair :=
  let repair := if span.dropped then repair.change else repair
  let repair := repair.push (.obj message)
  let repair :=
    if !span.results.isEmpty && !span.remainder.isEmpty then repair.change else repair
  let repair := Repair.pushResults span.results repair calls
  { repair with out := repair.out ++ span.remainder }

def isFailedStop (message : Message) : Bool :=
  match get? message "stopReason" with
  | some (.str reason) => reason = "error" || reason = "aborted"
  | _ => false

/-- The loop over the messages; every turn takes at least one of them. -/
def sanitizeLoop : Nat → Repair → List Json → Repair
  | 0, repair, _ => repair
  | _ + 1, repair, [] => repair
  | fuel + 1, repair, .obj message :: entries =>
      if roleOf message = some "assistant" then
        let normalized := normalizeAssistantReasoningBlocks message
        let repair := if normalized.isSome then repair.change else repair
        let message := normalized.getD message
        let calls := extractToolCallsFromAssistant message
        if isFailedStop message || calls.isEmpty then
          sanitizeLoop fuel (repair.push (.obj message)) entries
        else
          let span := collectSpan (calls.map (·.id)) repair.seenToolResultIds [] entries
          sanitizeLoop fuel (repair.pushCalls message calls span) span.rest
      else if roleOf message = some "toolResult" then sanitizeLoop fuel repair.change entries
      else sanitizeLoop fuel (repair.push (.obj message)) entries
  | fuel + 1, repair, entry :: entries => sanitizeLoop fuel (repair.push entry) entries

def sanitizeToolUseResultPairing (messages : List Json) : List Json :=
  let repair := sanitizeLoop messages.length ⟨[], [], false⟩ messages
  if repair.changed then repair.out else messages

/-! ## Where the messages come from -/

section Forall

variable {P : Json → Prop}

end Forall

end LosslessHermes.Assembler
