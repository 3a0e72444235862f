import LosslessHermes.Assembler.Budget
import LosslessHermes.Assembler.Pairing

/-!
# The assembly pipeline

`assemble` resolves the context items of a conversation, selects those that fit,
strips tool calls whose result was not selected, cleans assistant content and
repairs the pairing of calls and results. The result only depends on the stored
context and the input, not on a live message list.
-/

namespace LosslessHermes.Assembler

open Json (get?)

structure AssembleInput where
  conversationId : ConversationId
  tokenBudget : Nat
  freshTailCount : Nat
  freshTailMaxTokens : Option Int
  prompt : Option String
  promptAwareEviction : Bool
  orphanStrippingOrdinal : Option Int

structure AssembleStats where
  rawMessageCount : Nat
  summaryCount : Nat
  totalContextItems : Nat
  deriving DecidableEq, Repr

structure AssembleResult where
  messages : List Json
  estimatedTokens : Nat
  stats : AssembleStats

/-! ## Tool calls without a selected result -/

/-- The ordinals of the results for a call. -/
def resultOrdinals (items : List ResolvedItem) (callId : String) : List Int :=
  (items.filter fun item => extractToolResultId item.message = some callId).map (·.ordinal)

/-- Whether a block of an assistant message is kept. -/
def keepsBlock (selected resolved : List ResolvedItem) (orphanStrippingOrdinal ordinal : Int)
    (block : Json) : Bool :=
  match block with
  | .obj fields =>
      if !isToolCallBlock fields then true
      else
        match extractToolCallId fields with
        | none => true
        | some callId =>
            if (resultOrdinals selected callId).any (ordinal < ·) then true
            else if ordinal < orphanStrippingOrdinal then false
            else (resultOrdinals resolved callId).isEmpty
  | _ => true

/-- The message of an item without the blocks that are not kept, or nothing if no
block is left. -/
def filterAssistantBlocks (selected resolved : List ResolvedItem) (orphanStrippingOrdinal : Int)
    (item : ResolvedItem) : Option Message :=
  if roleOf item.message ≠ some "assistant" then some item.message
  else
    match get? item.message "content" with
    | some (.arr content) =>
        let kept :=
          content.filter (keepsBlock selected resolved orphanStrippingOrdinal item.ordinal)
        if kept.isEmpty then none
        else if kept.length = content.length then some item.message
        else some (Json.setField item.message "content" (.arr kept))
    | _ => some item.message

def filterNonFreshAssistantToolCalls (selected resolved : List ResolvedItem)
    (orphanStrippingOrdinal : Int) : List Message :=
  selected.filterMap (filterAssistantBlocks selected resolved orphanStrippingOrdinal)

/-! ## Assistant content -/

def thinkingLikeTypes : List String := ["thinking", "redacted_thinking", "reasoning"]

def isBlankTextBlock (block : Json) : Bool :=
  match block with
  | .obj fields =>
      match get? fields "type", get? fields "text" with
      | some (.str type), some (.str text) => type = "text" && Text.isBlank text
      | _, _ => false
  | _ => false

def normalizeAssistantContent (message : Message) : Message :=
  if roleOf message ≠ some "assistant" then message
  else
    match get? message "content" with
    | some (.str text) =>
        Json.setField message "content" (.arr [.obj [("type", .str "text"), ("text", .str text)]])
    | some (.arr content) =>
        let kept := content.filter fun block => !isBlankTextBlock block
        if kept.length ≠ content.length then Json.setField message "content" (.arr kept)
        else message
    | _ => message

def isEmptyAssistant (message : Message) : Bool :=
  roleOf message = some "assistant" &&
    match get? message "content" with
    | some (.arr content) =>
        content.all (blockSatisfies fun fields =>
            (blockType fields).any (thinkingLikeTypes.contains ·)) ||
          content.all isBlankTextBlock
    | some (.str text) => Text.isBlank text
    | _ => true

/-- `_normalize_and_clean_assistant_content`. -/
def cleanAssistantContent (messages : List Message) : List Message :=
  (messages.map normalizeAssistantContent).filter fun message => !isEmptyAssistant message

/-! ## The pipeline -/

variable (environment : Environment) (db : Db)

def assemble (input : AssembleInput) : AssembleResult :=
  let contextItems := db.getContextItems input.conversationId
  let resolved := resolveItems environment db contextItems
  let freshTailOrdinal :=
    resolveFreshTailOrdinal resolved input.freshTailCount input.freshTailMaxTokens
  let orphanStrippingOrdinal :=
    (input.orphanStrippingOrdinal.filter (0 ≤ ·)).getD freshTailOrdinal
  let evictable := resolved.filter (·.ordinal < freshTailOrdinal)
  let freshTail := resolved.filter fun item => !(item.ordinal < freshTailOrdinal)
  let kept := (budgetWalk evictable freshTail input.tokenBudget input.prompt
    input.promptAwareEviction).1
  let selected := kept ++ freshTail
  let cleaned := cleanAssistantContent
    (filterNonFreshAssistantToolCalls selected resolved orphanStrippingOrdinal)
  { messages := sanitizeToolUseResultPairing (cleaned.map .obj)
    estimatedTokens := totalTokens kept + totalTokens freshTail
    stats := {
      rawMessageCount := resolved.countP (·.isMessage)
      summaryCount := resolved.countP fun item => !item.isMessage
      totalContextItems := resolved.length } }

/-! ## The form of an assembled message -/

end LosslessHermes.Assembler
