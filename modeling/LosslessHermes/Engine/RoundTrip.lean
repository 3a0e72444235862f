import LosslessHermes.Assembler.Kept
import LosslessHermes.Ingest.Context
import LosslessHermes.Ingest.Cursor

/-!
# From ingest to assembly

A history is ingested into a session without a context and assembled with a budget
for all of it. `faithful_iff` says when every tool call and every tool result of the
history comes out, paired.
-/

namespace LosslessHermes

open Json (get?)
open Assembler

/-! ## The calls and results of a history -/

structure HistoryResult where
  id : String
  content : Json

/-- The call that an entry of `tool_calls` is. -/
def topLevelCall (entry : Json) : Option HistoryCall :=
  match entry with
  | .obj fields =>
      match get? fields "function" with
      | some (.obj function) =>
          (safeString (get? fields "id")).bind fun id =>
            (safeString (get? function "name")).bind fun name =>
              (get? function "arguments").map fun arguments =>
                { id := id, name := name, arguments := arguments }
      | _ => none
  | _ => none

def topLevelCalls (message : Message) : List HistoryCall :=
  match get? message "tool_calls" with
  | some (.arr entries) => entries.filterMap topLevelCall
  | _ => []

/-- The tool result that a block of a history is. -/
def blockResult (block : Json) : Option HistoryResult :=
  match block with
  | .obj fields =>
      if (blockType fields).any (resultBlockTypes.contains ·) then
        (firstString fields (toolCallIdAliases ++ ["id"])).map fun id =>
          { id := id
            content := (["content", "output", "toolOutput"].findSome? fun key =>
              get? fields key).getD .null }
      else none
  | _ => none

def blockResults (message : Message) : List HistoryResult :=
  match get? message "content" with
  | some (.arr items) => items.filterMap blockResult
  | _ => []

def IsTool (message : Message) : Prop :=
  roleOf message = some "tool" ∨ roleOf message = some "toolResult"

instance (message : Message) : Decidable (IsTool message) :=
  inferInstanceAs (Decidable (_ ∨ _))

/-- The calls in the blocks of an assistant message. -/
def assistantCalls (message : Message) : List HistoryCall :=
  if roleOf message = some "assistant" then blockCalls message else []

/-- The calls beside the content of an assistant message. -/
def assistantToolCalls (message : Message) : List HistoryCall :=
  if roleOf message = some "assistant" then topLevelCalls message else []

/-- The results in the blocks of a user message. -/
def userResults (message : Message) : List HistoryResult :=
  if roleOf message = some "user" then blockResults message else []

/-- The result that a tool message is. -/
def toolResults (message : Message) : List HistoryResult :=
  if IsTool message then
    (topLevelToolCallId message).toList.map fun id =>
      { id := id, content := (get? message "content").getD .null }
  else []

/-- What the messages of a history have of something. -/
def collectFrom {α : Type} (f : Message → List α) (history : List Json) : List α :=
  history.flatMap fun entry =>
    match entry with
    | .obj message => f message
    | _ => []

def callsOf (history : List Json) : List HistoryCall :=
  collectFrom (fun message => assistantCalls message ++ assistantToolCalls message) history

def resultsOf (history : List Json) : List HistoryResult :=
  collectFrom (fun message => userResults message ++ toolResults message) history

/-- A history whose messages are well formed. Its calls have different ids; behind every
assistant message, up to the next one, stand the results of its calls and no others. -/
structure WellFormedHistory (canonical : FloatText → FloatText) (history : List Json) : Prop where
  messages : ∀ entry ∈ history, ∃ message, entry = .obj message ∧
    WellFormedMessage canonical message
  distinct : ((callsOf history).map (·.id)).Nodup
  unprompted : resultsOf (leading history) = []
  answered : ∀ turn ∈ turns history,
    ((resultsOf turn.span).map (·.id)).Perm ((callsOf [.obj turn.message]).map (·.id))

/-! ## What is to come out -/

/-- A text counts as one text block. -/
def asBlocks (content : Json) : List Json :=
  match content with
  | .str text => [.obj (textBlock text)]
  | .arr items => items
  | content => [content]

def SamePayload (integer : FloatText → Option Int) (content content' : Json) : Prop :=
  Json.sameItems integer (asBlocks content) (asBlocks content') = true

/-- Every call of the history is shown by an assistant message, and every result stands
with its payload in the block of results behind the message with its call. -/
structure Faithful (integer : FloatText → Option Int) (history out : List Json) : Prop where
  calls : ∀ call ∈ callsOf history, ∃ turn ∈ turns out, call ∈ shownCalls turn.message
  results : ∀ result ∈ resultsOf history, ∃ turn ∈ turns out, result.id ∈ turnIds turn.message ∧
    ∃ message, .obj message ∈ turn.block ∧ resultId (.obj message) = some result.id ∧
      (∀ call, message ≠ makeMissingToolResult call) ∧
      SamePayload integer ((get? message "content").getD .null) result.content

/-- A payload that is a text or a list of plain text blocks. -/
def PlainText (integer : FloatText → Option Int) (content : Json) : Prop :=
  match content with
  | .str _ => True
  | .arr items => items ≠ [] ∧
      ∀ item ∈ items, ∃ text, Json.same integer (.obj (textBlock text)) item = true
  | _ => False

/-- Calls stand in blocks and have arguments, results are tool messages of plain text. -/
structure Restorable (integer : FloatText → Option Int) (history : List Json) : Prop where
  noToolCalls : collectFrom assistantToolCalls history = []
  noUserResults : collectFrom userResults history = []
  arguments : ∀ call ∈ callsOf history, call.arguments ≠ .null
  payloads : ∀ result ∈ resultsOf history, PlainText integer result.content

/-! ## Collecting -/

section Collect

variable {α : Type} {f g : Message → List α}

theorem collectFrom_cons (message : Message) (history : List Json) :
    collectFrom f (.obj message :: history) = f message ++ collectFrom f history := rfl

theorem collectFrom_append (history history' : List Json) :
    collectFrom f (history ++ history') = collectFrom f history ++ collectFrom f history' :=
  List.flatMap_append

variable {history : List Json}

theorem mem_collectFrom {x : α} :
    x ∈ collectFrom f history ↔ ∃ message, .obj message ∈ history ∧ x ∈ f message := by
  constructor
  · intro h
    obtain ⟨entry, hEntry, hx⟩ := List.mem_flatMap.mp h
    cases entry with
    | obj message => exact ⟨message, hEntry, hx⟩
    | _ => cases hx
  · rintro ⟨message, hEntry, hx⟩
    exact List.mem_flatMap.mpr ⟨_, hEntry, hx⟩

theorem collectFrom_perm (history : List Json) :
    (collectFrom (fun message => f message ++ g message) history).Perm
      (collectFrom f history ++ collectFrom g history) := by
  induction history with
  | nil => exact List.Perm.refl _
  | cons entry history ih =>
    cases entry with
    | obj message =>
      rw [collectFrom_cons, collectFrom_cons, collectFrom_cons, List.append_assoc,
        List.append_assoc]
      refine (ih.append_left _).append_left _ |>.trans ?_
      refine List.Perm.append_left _ ?_
      rw [← List.append_assoc, ← List.append_assoc]
      exact List.perm_append_comm.append_right _
    | _ => exact ih

/-- What the turns of a history have, where nothing but their messages has it. -/
theorem collectFrom_turns (hOther : ∀ message, roleOf message ≠ some "assistant" → f message = []) :
    collectFrom f history = (turns history).flatMap fun turn => f turn.message := by
  induction history with
  | nil => rfl
  | cons entry history ih =>
    cases entry with
    | obj message =>
      rw [collectFrom_cons, ih]
      by_cases hRole : roleOf message = some "assistant"
      · have hAssistant : isAssistant (.obj message) = true := by
          simpa [isAssistant, blockSatisfies] using hRole
        rw [turns_cons hAssistant, List.flatMap_cons]
      · have hAssistant : isAssistant (.obj message) = false := by
          simpa [isAssistant, blockSatisfies] using hRole
        rw [turns_cons_of_not hAssistant, hOther message hRole, List.nil_append]
    | _ => exact ih

/-- What the spans of a history have, where its turns and what is in front of them do
not have it. -/
theorem collectFrom_spans
    (hAssistant : ∀ message, roleOf message = some "assistant" → f message = [])
    (hLeading : collectFrom f (leading history) = []) :
    collectFrom f history = (turns history).flatMap fun turn => collectFrom f turn.span := by
  conv_lhs => rw [← turns_flatten history]
  rw [collectFrom_append, hLeading, List.nil_append, collectFrom, List.flatMap_assoc]
  refine List.flatMap_congr fun turn hTurn => ?_
  have hRole : roleOf turn.message = some "assistant" := by
    simpa [isAssistant, blockSatisfies] using (isAssistant_of_mem_turns hTurn).1
  show collectFrom f (.obj turn.message :: turn.span) = collectFrom f turn.span
  rw [collectFrom_cons, hAssistant _ hRole, List.nil_append]

end Collect

/-! ## Histories as they are stored -/

section Stored

variable {environment : Environment} {strOf : Json → String} {sessionId : SessionId} {db : Db}

/-- An entry as the payload guard hands it on. -/
def handedOn (entry : Json × Attempt) : Json :=
  match entry.1 with
  | .obj message => .obj (applyIngestPayloadGuard entry.2 message)
  | value => value

/-- The message that is resolved from the context for a message of the history. -/
inductive Decoded (message : Message) : Option ResolvedItem → Prop
  | user {item : ResolvedItem} (hRole : roleOf message = some "user")
      (hShown : roleOf item.message = some "user") : Decoded message (some item)
  | dropped (hRole : roleOf message = some "assistant") (hCalls : blockCalls message = []) :
      Decoded message none
  | assistant {item : ResolvedItem} (hRole : roleOf message = some "assistant")
      (hShown : RestoredAssistant (blockCalls message) item.message) : Decoded message (some item)
  | empty {item : ResolvedItem} {id : String} (hTool : IsTool message)
      (hId : topLevelToolCallId message = some id)
      (hPayload : payloadBlocks ((get? message "content").getD .null) = [])
      (hShown : RestoredAssistant [] item.message) : Decoded message (some item)
  | result {item : ResolvedItem} {id : String} (hTool : IsTool message)
      (hId : topLevelToolCallId message = some id)
      (hPayload : payloadBlocks ((get? message "content").getD .null) ≠ [])
      (hShown : RestoredResult id (payloadBlocks ((get? message "content").getD .null))
        item.message) : Decoded message (some item)

variable {message : Message}

theorem blockCalls_eq_nil (h : ∀ items, get? message "content" = some (.arr items) → items = []) :
    blockCalls message = [] := by
  unfold blockCalls
  split
  · rename_i items hItems
    rw [h items hItems]
    rfl
  · rfl

/-- What is never stored has no calls in blocks. -/
theorem blockCalls_of_hasNoContent (h : hasNoContent message = true)
    (attempt : Attempt) : blockCalls (applyIngestPayloadGuard attempt message) = [] := by
  have hItems : ∀ items, get? message "content" = some (.arr items) → items = [] := by
    intro items hItems
    rw [hasNoContent, hItems] at h
    exact List.isEmpty_iff.mp h
  unfold applyIngestPayloadGuard
  split
  · exact blockCalls_eq_nil hItems
  · refine blockCalls_eq_nil fun items hGuarded => ?_
    unfold protectMessageForIngest at hGuarded
    dsimp only at hGuarded
    rw [get?_protectToolCalls _ _ _ _ (by decide)] at hGuarded
    unfold protectContent at hGuarded
    cases hContent : get? message "content" with
    | none =>
      simp only [hContent] at hGuarded
      cases hGuarded
    | some content =>
      cases content with
      | arr found =>
        obtain rfl := hItems found hContent
        simp only [hContent, Json.get?_setField_self, protectValue, protectItems] at hGuarded
        cases hGuarded
        rfl
      | _ =>
        simp only [hContent, Json.get?_setField_self, protectValue] at hGuarded
        cases hGuarded

theorem resolveItem_message {item : ContextItemRecord} {messageId : MessageId}
    (h : item.ref = .message messageId) : resolveItem environment db item =
      resolveMessageItem environment db item.ordinal messageId := by
  unfold resolveItem
  rw [h]

/-- A stored message is resolved to what is shown for it. -/
theorem decoded_of_stored {row : MessageRecord} {item : ContextItemRecord}
    (hItem : item.ref = .message row.messageId) (hStores : Stores strOf sessionId db message row)
    (hMessage : WellFormedMessage environment.canonical message) :
    Decoded message (resolveItem environment db item) := by
  obtain ⟨role, hRole, hName⟩ := hMessage.role
  have hTool : role = "tool" ∨ role = "toolResult" →
      Decoded message (resolveItem environment db item) := by
    intro hTool
    have hIsTool : IsTool message := by
      unfold IsTool
      rw [hName, Option.some.injEq, Option.some.injEq]
      exact hTool
    obtain ⟨id, hId, -⟩ := hMessage.identified hIsTool
    obtain ⟨found, hFound, ⟨hEmpty, hShown⟩ | ⟨hPayload, hShown⟩⟩ :=
      resolve_tool hStores hMessage hName hTool hId item.ordinal
    · rw [resolveItem_message hItem, hFound]
      exact .empty hIsTool hId hEmpty hShown
    · rw [resolveItem_message hItem, hFound]
      exact .result hIsTool hId hPayload hShown
  simp only [List.mem_cons, List.not_mem_nil, or_false] at hRole
  rcases hRole with rfl | rfl | rfl | rfl
  · obtain ⟨found, hFound, hShown⟩ := resolve_user hStores hMessage hName item.ordinal
    rw [resolveItem_message hItem, hFound]
    exact .user hName hShown
  · rw [resolveItem_message hItem]
    rcases resolve_assistant hStores hMessage hName item.ordinal with ⟨hNone, hCalls⟩ |
      ⟨found, hFound, hShown⟩
    · rw [hNone]
      exact .dropped hName hCalls
    · rw [hFound]
      exact .assistant hName hShown
  · exact hTool (Or.inl rfl)
  · exact hTool (Or.inr rfl)

theorem decoded_of_left {entry : Json × Attempt} {left : Option ContextItemRecord}
    (hLeft : LeftInContext strOf sessionId db entry left) (hEntry : handedOn entry = .obj message)
    (hMessage : WellFormedMessage environment.canonical message) :
    Decoded message (left.bind (resolveItem environment db)) := by
  obtain ⟨value, attempt⟩ := entry
  obtain ⟨raw, rfl, rfl⟩ : ∃ raw, value = .obj raw ∧
      applyIngestPayloadGuard attempt raw = message := by
    cases value with
    | obj raw => exact ⟨raw, rfl, Json.obj.inj hEntry⟩
    | _ => cases hEntry
  cases hLeft with
  | skipped hSkipped =>
    -- only what a failed call leaves behind is skipped
    obtain ⟨role, hRole, hName⟩ := hMessage.role
    have hRawRole : get? raw "role" = some (.str role) :=
      (guarded_role attempt raw).symm.trans (get?_of_roleOf hName)
    have hPersistable : hasPersistableRole raw = true := by
      rw [hasPersistableRole, hRawRole]
      simp only [List.mem_cons, List.not_mem_nil, or_false] at hRole
      rcases hRole with rfl | rfl | rfl | rfl <;> rfl
    have hFailed : isFailedEmptyAssistant raw = true := by
      cases hFailed : isFailedEmptyAssistant raw with
      | true => rfl
      | false => simp [persistable, hPersistable, hFailed] at hSkipped
    obtain ⟨hAssistant, hEmpty⟩ : role = "assistant" ∧ hasNoContent raw = true := by
      unfold isFailedEmptyAssistant at hFailed
      rw [hRawRole] at hFailed
      split at hFailed
      · rename_i found _ hFound _
        obtain rfl : role = found := by simpa using hFound
        simp only [Bool.and_eq_true, decide_eq_true_eq] at hFailed
        exact ⟨hFailed.1.1, hFailed.2⟩
      · cases hFailed
    exact .dropped (hAssistant ▸ hName) (blockCalls_of_hasNoContent hEmpty attempt)
  | stored hStoredMessage hItem hFound hStored =>
    obtain rfl : raw = _ := by
      unfold persistable at hStoredMessage
      dsimp only at hStoredMessage
      split at hStoredMessage
      · exact Option.some.inj hStoredMessage
      · cases hStoredMessage
    refine decoded_of_stored hItem ⟨hFound, ?_, hStored.content, hStored.parts⟩ hMessage
    rw [hStored.role, guarded_role]

end Stored

/-! ## Payloads -/

variable {integer : FloatText → Option Int}

theorem sameItems_map (f : Json → Json) (items : List Json) :
    Json.sameItems integer (items.map f) items = true ↔
      ∀ item ∈ items, Json.same integer (f item) item = true := by
  induction items with
  | nil => simp [Json.sameItems]
  | cons item items ih =>
    rw [List.map_cons, Json.sameItems, Bool.and_eq_true, ih, List.forall_mem_cons]

theorem same_textBlock (integer : FloatText → Option Int) (text : String) :
    Json.same integer (.obj (textBlock text)) (.obj (textBlock text)) = true := by
  have hString : ∀ s : String, Json.same integer (.str s) (.str s) = true := fun s => by
    simp [Json.same, Json.sameScalar, Json.numeric]
  have hType : get? (textBlock text) "type" = some (.str "text") := rfl
  have hText : get? (textBlock text) "text" = some (.str text) := rfl
  have hFields : Json.sameFields integer [("type", .str "text"), ("text", .str text)]
      (textBlock text) = true := by
    rw [Json.sameFields, hType, Json.sameFields, hText, Json.sameFields]
    simp only [hString, Bool.and_true]
  rw [Json.same, decide_eq_true rfl, Bool.true_and]
  exact hFields

/-- A block that is equal to a plain text block is restored as that block. -/
theorem restoredBlock_of_same {item : Json} {text : String} (hCall : callOf item = none)
    (hSame : Json.same integer (.obj (textBlock text)) item = true) :
    restoredBlock item = textBlock text := by
  cases item with
  | obj fields =>
    obtain ⟨value, hGet, hValue⟩ := Json.get?_of_same hSame
      (by simp [textBlock] : ("text", Json.str text) ∈ textBlock text)
    have hText := Json.eq_str_of_same hValue
    have hNone : blockCall fields = none := hCall
    have hBlockText : blockText fields = some text := by
      rw [blockText, hGet, hText]
    rw [restoredBlock, hNone]
    dsimp only
    rw [hBlockText]
    rfl
  | _ => simp [Json.same, Json.sameScalar, Json.numeric] at hSame

theorem restoredBlock_text {item : Json} (hCall : callOf item = none) :
    ∃ text, restoredBlock item = textBlock text := by
  cases item with
  | obj fields =>
    have hNone : blockCall fields = none := hCall
    rw [restoredBlock, hNone]
    exact ⟨_, rfl⟩
  | _ => exact ⟨"", rfl⟩

/-- The content of a tool message: a text or a list of blocks without calls. -/
def IsPayload (content : Json) : Prop :=
  (∃ text, content = .str text) ∨
    ∃ items, content = .arr items ∧ ∀ item ∈ items, callOf item = none

/-- The payloads that come back as they were are those of plain text. -/
theorem samePayload_iff {content : Json} (h : IsPayload content) :
    payloadBlocks content ≠ [] ∧
        SamePayload integer (.arr ((payloadBlocks content).map .obj)) content ↔
      PlainText integer content := by
  rcases h with ⟨text, rfl⟩ | ⟨items, rfl, hCalls⟩
  · refine ⟨fun _ => trivial, fun _ => ⟨List.cons_ne_nil _ _, ?_⟩⟩
    show Json.sameItems integer [.obj (textBlock text)] [.obj (textBlock text)] = true
    rw [Json.sameItems, same_textBlock]
    rfl
  · have hBlocks : payloadBlocks (.arr items) = items.map restoredBlock := rfl
    rw [hBlocks, SamePayload, asBlocks, asBlocks, List.map_map, sameItems_map]
    constructor
    · rintro ⟨hNe, hSame⟩
      refine ⟨fun hNil => hNe (by rw [hNil]; rfl), fun item hItem => ?_⟩
      obtain ⟨text, hText⟩ := restoredBlock_text (hCalls item hItem)
      exact ⟨text, hText ▸ hSame item hItem⟩
    · rintro ⟨hNe, hPlain⟩
      refine ⟨fun hNil => hNe (List.map_eq_nil_iff.mp hNil), fun item hItem => ?_⟩
      obtain ⟨text, hSame⟩ := hPlain item hItem
      rw [Function.comp_apply, restoredBlock_of_same (hCalls item hItem) hSame]
      exact hSame

variable {message : Message}

theorem isPayload_of_tool {canonical : FloatText → FloatText}
    (h : WellFormedMessage canonical message) (hTool : IsTool message) :
    IsPayload ((get? message "content").getD .null) := by
  have hNot : ∀ role, roleOf message = some role → role ≠ "assistant" := by
    rintro role hRole rfl
    rcases hTool with hTool | hTool <;> simp [hRole] at hTool
  rcases h.content (fun hRole => hNot _ hRole rfl) with ⟨text, hText⟩ | ⟨items, hItems⟩
  · exact Or.inl ⟨text, by rw [hText]; rfl⟩
  · refine Or.inr ⟨items, by rw [hItems]; rfl, fun item hItem => ?_⟩
    obtain ⟨role, -, hRole⟩ := h.role
    obtain ⟨fields, rfl, hBlock⟩ := h.blocks role items hRole hItems item hItem
    exact hBlock.blockCall_eq_none (hNot role hRole)

theorem mem_toolResults {result : HistoryResult}
    (h : result ∈ toolResults message) : IsTool message ∧
      topLevelToolCallId message = some result.id ∧
      result.content = (get? message "content").getD .null := by
  unfold toolResults at h
  split at h
  · rename_i hTool
    obtain ⟨id, hId, rfl⟩ := List.mem_map.mp h
    exact ⟨hTool, Option.mem_toList.mp hId, rfl⟩
  · cases h

/-! ## What is left of a history in front of the repair -/

section Remaining

variable {selected resolved : List ResolvedItem} {orphanStrippingOrdinal : Int}

/-- The message that the passes in front of the repair leave of one of the history. -/
def remaining (selected resolved : List ResolvedItem) (orphanStrippingOrdinal : Int)
    (entry : Message × Option ResolvedItem) : Option Json :=
  (entry.2.bind (cleanItem selected resolved orphanStrippingOrdinal)).map .obj

variable {entry : Message × Option ResolvedItem} {shown : Message}

theorem remaining_eq_some
    (h : remaining selected resolved orphanStrippingOrdinal entry = some (.obj shown)) :
    ∃ item, entry.2 = some item ∧
      cleanItem selected resolved orphanStrippingOrdinal item = some shown := by
  obtain ⟨found, hFound, hEq⟩ := Option.map_eq_some_iff.mp h
  obtain rfl := Json.obj.inj hEq
  exact Option.bind_eq_some_iff.mp hFound

theorem cleanItem_eq_self {item : ResolvedItem} {role : String}
    (hRole : roleOf item.message = some role) (hNe : role ≠ "assistant")
    (h : cleanItem selected resolved orphanStrippingOrdinal item = some shown) :
    shown = item.message := by
  rw [cleanItem_of_not_assistant (by rw [hRole]; simpa using hNe)] at h
  exact (Option.some.inj h).symm

/-- The calls that are left are calls of the blocks. -/
theorem calls_of_remaining (hDecoded : Decoded entry.1 entry.2)
    (h : remaining selected resolved orphanStrippingOrdinal entry = some (.obj shown))
    (hAssistant : roleOf shown = some "assistant") :
    (shownCalls shown).Sublist ((assistantCalls entry.1).map HistoryCall.restored) ∧
      turnIds shown = (shownCalls shown).map (·.id) := by
  obtain ⟨message, decoded⟩ := entry
  obtain ⟨item, rfl, hClean⟩ := remaining_eq_some h
  cases hDecoded with
  | user hRole hShown =>
    rw [cleanItem_eq_self hShown (by decide) hClean, hShown] at hAssistant
    simp at hAssistant
  | assistant hRole hShown =>
    obtain ⟨-, hCalls, hIds⟩ := cleanItem_calls hShown hClean
    rw [assistantCalls, if_pos hRole]
    exact ⟨hCalls, hIds⟩
  | empty hTool hId hPayload hShown =>
    obtain ⟨-, hCalls, hIds⟩ := cleanItem_calls hShown hClean
    exact ⟨hCalls.trans (List.nil_sublist _), hIds⟩
  | result hTool hId hPayload hShown =>
    rw [cleanItem_eq_self hShown.role (by decide) hClean, hShown.role] at hAssistant
    simp at hAssistant

/-- The results that are left are tool messages. -/
theorem result_of_remaining (hDecoded : Decoded entry.1 entry.2)
    (h : remaining selected resolved orphanStrippingOrdinal entry = some (.obj shown))
    (hResult : roleOf shown = some "toolResult") :
    ∃ result ∈ toolResults entry.1, payloadBlocks result.content ≠ [] ∧
      RestoredResult result.id (payloadBlocks result.content) shown := by
  obtain ⟨message, decoded⟩ := entry
  obtain ⟨item, rfl, hClean⟩ := remaining_eq_some h
  cases hDecoded with
  | user hRole hShown =>
    rw [cleanItem_eq_self hShown (by decide) hClean, hShown] at hResult
    simp at hResult
  | assistant hRole hShown =>
    rw [(cleanItem_calls hShown hClean).1] at hResult
    simp at hResult
  | empty hTool hId hPayload hShown =>
    rw [(cleanItem_calls hShown hClean).1] at hResult
    simp at hResult
  | @result item id hTool hId hPayload hShown =>
    obtain rfl := cleanItem_eq_self hShown.role (by decide) hClean
    refine ⟨⟨id, (get? message "content").getD .null⟩, ?_, hPayload, hShown⟩
    rw [toolResults, if_pos hTool, hId]
    exact List.mem_singleton_self _

/-- The call ids in front of the repair are among those of the blocks of the history. -/
theorem callIds_remaining (left : List (Message × Option ResolvedItem))
    (hDecoded : ∀ p ∈ left, Decoded p.1 p.2) :
    (callIds (left.filterMap (remaining selected resolved orphanStrippingOrdinal))).Sublist
      ((collectFrom assistantCalls (left.map fun p => .obj p.1)).map (·.id)) := by
  induction left with
  | nil => exact List.Sublist.refl _
  | cons p left ih =>
    obtain ⟨hHead, hRest⟩ := List.forall_mem_cons.mp hDecoded
    have hTail := ih hRest
    rw [List.map_cons, collectFrom_cons, List.map_append, List.filterMap_cons]
    cases hLeft : remaining selected resolved orphanStrippingOrdinal p with
    | none => exact hTail.trans (List.sublist_append_right _ _)
    | some entry =>
      obtain ⟨shown, -, rfl⟩ := Option.map_eq_some_iff.mp hLeft
      cases hAssistant : isAssistant (.obj shown) with
      | true =>
        have hRole : roleOf shown = some "assistant" := by
          simpa [isAssistant, blockSatisfies] using hAssistant
        obtain ⟨hCalls, hIds⟩ := calls_of_remaining hHead hLeft hRole
        have hSame : ((assistantCalls p.1).map HistoryCall.restored).map (·.id) =
            (assistantCalls p.1).map (·.id) := List.map_map
        rw [callIds_cons hAssistant, hIds, ← hSame]
        exact (hCalls.map _).append hTail
      | false =>
        rw [callIds_cons_of_not hAssistant]
        exact hTail.trans (List.sublist_append_right _ _)

theorem payloadBlocks_ne_nil {integer : FloatText → Option Int} {content : Json}
    (h : PlainText integer content) : payloadBlocks content ≠ [] := by
  intro hNil
  cases content with
  | str text => cases hNil
  | arr items => exact h.1 (List.map_eq_nil_iff.mp hNil)
  | _ => exact h

/-- A message behind a call is left as it is resolved. -/
theorem remaining_of_span {integer : FloatText → Option Int}
    {entry : Message × Option ResolvedItem} (hDecoded : Decoded entry.1 entry.2)
    (hRole : roleOf entry.1 ≠ some "assistant")
    (hPlain : ∀ result ∈ toolResults entry.1, PlainText integer result.content) :
    ∃ item, entry.2 = some item ∧ roleOf item.message ≠ some "assistant" ∧
      remaining selected resolved orphanStrippingOrdinal entry = some (.obj item.message) ∧
      ∀ result ∈ toolResults entry.1,
        RestoredResult result.id (payloadBlocks result.content) item.message := by
  obtain ⟨message, decoded⟩ := entry
  have hResult : ∀ {id}, IsTool message → topLevelToolCallId message = some id →
      (⟨id, (get? message "content").getD .null⟩ : HistoryResult) ∈ toolResults message := by
    intro id hTool hId
    rw [toolResults, if_pos hTool, hId]
    exact List.mem_singleton_self _
  have hLeft : ∀ {item : ResolvedItem}, roleOf item.message ≠ some "assistant" →
      remaining selected resolved orphanStrippingOrdinal (message, some item) =
        some (.obj item.message) := by
    intro item hItem
    rw [remaining, Option.bind_some, cleanItem_of_not_assistant hItem, Option.map_some]
  cases hDecoded with
  | @user item hUser hShown =>
    have hNot : roleOf item.message ≠ some "assistant" := by rw [hShown]; simp
    refine ⟨item, rfl, hNot, hLeft hNot, fun result hIn => ?_⟩
    rcases (mem_toolResults hIn).1 with hTool | hTool <;> rw [hUser] at hTool <;> simp at hTool
  | dropped hAssistant hCalls => exact absurd hAssistant hRole
  | assistant hAssistant hShown => exact absurd hAssistant hRole
  | empty hTool hId hPayload hShown =>
    exact absurd hPayload (payloadBlocks_ne_nil (hPlain _ (hResult hTool hId)))
  | @result item id hTool hId hPayload hShown =>
    have hNot : roleOf item.message ≠ some "assistant" := by rw [hShown.role]; simp
    refine ⟨item, rfl, hNot, hLeft hNot, fun result hIn => ?_⟩
    obtain ⟨-, hFound, hContent⟩ := mem_toolResults hIn
    obtain rfl : id = result.id := Option.some.inj (hId.symm.trans hFound)
    rw [hContent]
    exact hShown

end Remaining

/-! ## Turns of the history and turns in front of the repair -/

section Turns

variable {integer : FloatText → Option Int} {canonical : FloatText → FloatText}
  {left : List (Message × Option ResolvedItem)} {orphanStrippingOrdinal : Int}

variable {turn : Turn}

/-- Where a call of the history stands: its message, what is resolved for it, and the
messages up to the next assistant message. -/
theorem split_left (hTurn : turn ∈ turns (left.map fun p => .obj p.1)) :
    ∃ before entry span after, left = before ++ entry :: (span ++ after) ∧
      entry.1 = turn.message ∧ span.map (fun p => Json.obj p.1) = turn.span := by
  obtain ⟨before, after, hSplit⟩ := split_of_turn hTurn
  obtain ⟨before', rest, rfl, -, hRest⟩ := List.map_eq_append_iff.mp hSplit
  obtain ⟨entry, rest', rfl, hEntry, hRest'⟩ := List.map_eq_cons_iff.mp hRest
  obtain ⟨span, after', rfl, hSpan, -⟩ := List.map_eq_append_iff.mp hRest'
  exact ⟨before', entry, span, after', rfl, Json.obj.inj hEntry, hSpan⟩

variable {message : Message}

theorem mem_of_span {span : List (Message × Option ResolvedItem)}
    (hSpan : span.map (fun p => Json.obj p.1) = turn.span)
    (h : .obj message ∈ turn.span) : ∃ p ∈ span, p.1 = message := by
  rw [← hSpan] at h
  obtain ⟨p, hp, hEq⟩ := List.mem_map.mp h
  exact ⟨p, hp, Json.obj.inj hEq⟩

variable {call : HistoryCall}

/-- The result that answers a call is a tool message behind it. -/
theorem answer_of_call (hHistory : WellFormedHistory canonical (left.map fun p => .obj p.1))
    (hUser : collectFrom userResults (left.map fun p => .obj p.1) = [])
    (hTurn : turn ∈ turns (left.map fun p => .obj p.1))
    (hCall : call ∈ callsOf [.obj turn.message]) :
    ∃ message, .obj message ∈ turn.span ∧ ∃ result ∈ toolResults message, result.id = call.id := by
  have hId : call.id ∈ (resultsOf turn.span).map (·.id) :=
    (hHistory.answered turn hTurn).mem_iff.mpr (List.mem_map_of_mem hCall)
  obtain ⟨result, hResult, hEq⟩ := List.mem_map.mp hId
  obtain ⟨message, hMessage, hIn⟩ := mem_collectFrom.mp hResult
  rcases List.mem_append.mp hIn with hIn | hIn
  · obtain ⟨before, after, hSplit⟩ := split_of_turn hTurn
    have hFound : result ∈ collectFrom userResults (left.map fun p => .obj p.1) := by
      refine mem_collectFrom.mpr ⟨message, ?_, hIn⟩
      rw [hSplit]
      exact List.mem_append_right _ (List.mem_cons_of_mem _ (List.mem_append_left _ hMessage))
    rw [hUser] at hFound
    exact absurd hFound List.not_mem_nil
  · exact ⟨message, hMessage, result, hIn, hEq⟩

/-- An assistant message with calls in its blocks is stored, and shows them. -/
theorem restored_of_assistant {found : Option ResolvedItem}
    (h : Decoded message found) (hRole : roleOf message = some "assistant")
    (hCalls : assistantCalls message ≠ []) :
    ∃ item, found = some item ∧ RestoredAssistant (assistantCalls message) item.message := by
  rw [assistantCalls, if_pos hRole] at hCalls ⊢
  cases h with
  | user hUser => rw [hUser] at hRole; simp at hRole
  | dropped _ hNone => exact absurd hNone hCalls
  | assistant _ hShown => exact ⟨_, rfl, hShown⟩
  | empty hTool => rcases hTool with hTool | hTool <;> rw [hTool] at hRole <;> simp at hRole
  | result hTool => rcases hTool with hTool | hTool <;> rw [hTool] at hRole <;> simp at hRole

variable {history : List Json}

theorem assistantCalls_restored (h : Restorable integer history) (hMem : .obj message ∈ history) :
    (assistantCalls message).map HistoryCall.restored = assistantCalls message := by
  refine (List.map_congr_left fun call hCall => ?_).trans (List.map_id _)
  exact HistoryCall.restored_eq_self.mpr (h.arguments call
    (mem_collectFrom.mpr ⟨message, hMem, List.mem_append_left _ hCall⟩))

/-- **A turn with calls is left with all of its calls and with the results behind it.** -/
theorem turn_of_history (hDecoded : ∀ p ∈ left, Decoded p.1 p.2)
    (hAscending : (left.filterMap (·.2)).Pairwise fun a b => a.ordinal < b.ordinal)
    (hHistory : WellFormedHistory canonical (left.map fun p => .obj p.1))
    (hRestorable : Restorable integer (left.map fun p => .obj p.1))
    (hTurn : turn ∈ turns (left.map fun p => .obj p.1))
    (hCalls : assistantCalls turn.message ≠ []) :
    ∃ found ∈ turns (left.filterMap (remaining (left.filterMap (·.2)) (left.filterMap (·.2))
        orphanStrippingOrdinal)),
      shownCalls found.message = assistantCalls turn.message ∧
      turnIds found.message = (assistantCalls turn.message).map (·.id) ∧
      ∀ message, .obj message ∈ turn.span → ∀ result ∈ toolResults message,
        ∃ shown, .obj shown ∈ found.span ∧
          RestoredResult result.id (payloadBlocks result.content) shown := by
  obtain ⟨before, entry, span, after, hLeft, hEntry, hSpan⟩ := split_left hTurn
  have hEntryMem : entry ∈ left := by
    rw [hLeft]
    exact List.mem_append_right _ List.mem_cons_self
  have hSpanMem : ∀ p ∈ span, p ∈ left := fun p hp => by
    rw [hLeft]
    exact List.mem_append_right _ (List.mem_cons_of_mem _ (List.mem_append_left _ hp))
  obtain ⟨hTurnRole, hSpanRole⟩ := isAssistant_of_mem_turns hTurn
  have hRole : roleOf entry.1 = some "assistant" := by
    rw [hEntry]
    simpa [isAssistant, blockSatisfies] using hTurnRole
  obtain ⟨item, hItem, hShown⟩ : ∃ item, entry.2 = some item ∧
      RestoredAssistant (assistantCalls turn.message) item.message := by
    rw [← hEntry] at hCalls ⊢
    exact restored_of_assistant (hDecoded entry hEntryMem) hRole hCalls
  -- the messages of the span are left as they are
  have hSpanLeft := fun p hp => @remaining_of_span (left.filterMap (·.2)) (left.filterMap (·.2))
    orphanStrippingOrdinal integer p (hDecoded p (hSpanMem p hp))
    (by
      have hNot := hSpanRole (.obj p.1) (hSpan ▸ List.mem_map_of_mem hp)
      simpa [isAssistant, blockSatisfies] using hNot)
    (fun result hResult => hRestorable.payloads result (mem_collectFrom.mpr
      ⟨p.1, List.mem_map_of_mem (hSpanMem p hp), List.mem_append_right _ hResult⟩))
  -- every call has its result further on
  have hLater : ∀ found ∈ (span ++ after).filterMap (·.2), item.ordinal < found.ordinal := by
    rw [hLeft, List.filterMap_append, List.filterMap_cons, hItem] at hAscending
    exact (List.pairwise_cons.mp (List.pairwise_append.mp hAscending).2.1).1
  have hAnswered : ∀ call ∈ assistantCalls turn.message,
      (resultOrdinals (left.filterMap (·.2)) call.id).any (item.ordinal < ·) = true := by
    intro call hCall
    have hIn : call ∈ callsOf [.obj turn.message] := mem_collectFrom.mpr
      ⟨turn.message, List.mem_singleton_self _, List.mem_append_left _ hCall⟩
    obtain ⟨message, hMessage, result, hResult, hId⟩ := answer_of_call hHistory
      hRestorable.noUserResults hTurn hIn
    obtain ⟨p, hp, rfl⟩ := mem_of_span hSpan hMessage
    obtain ⟨found, hFound, -, -, hRestored⟩ := hSpanLeft p hp
    refine List.any_eq_true.mpr ⟨found.ordinal, ?_, ?_⟩
    · refine List.mem_map_of_mem (List.mem_filter.mpr
        ⟨List.mem_filterMap.mpr ⟨p, hSpanMem p hp, hFound⟩, ?_⟩)
      rw [(hRestored result hResult).id, hId]
      exact decide_eq_true rfl
    · exact decide_eq_true (hLater found (List.mem_filterMap.mpr
        ⟨p, List.mem_append_left _ hp, hFound⟩))
  obtain ⟨shown, hClean, hShownCalls⟩ := @cleanItem_keeps (left.filterMap (·.2))
    (left.filterMap (·.2)) orphanStrippingOrdinal item _ hShown hCalls hAnswered
  obtain ⟨hShownRole, -, hIds⟩ := cleanItem_calls hShown hClean
  have hSame : (assistantCalls turn.message).map HistoryCall.restored =
      assistantCalls turn.message :=
    hEntry ▸ assistantCalls_restored hRestorable (List.mem_map_of_mem hEntryMem)
  rw [hSame] at hShownCalls
  -- so the message stands in front of the repair, and its span behind it
  let keep := remaining (left.filterMap (·.2)) (left.filterMap (·.2)) orphanStrippingOrdinal
  have hKeep : keep entry = some (.obj shown) := by
    show Option.map Json.obj (entry.2.bind _) = _
    rw [hItem, Option.bind_some, hClean, Option.map_some]
  have hList : left.filterMap keep =
      before.filterMap keep ++ .obj shown :: (span.filterMap keep ++ after.filterMap keep) := by
    conv_lhs => rw [hLeft]
    rw [List.filterMap_append, List.filterMap_cons, hKeep, List.filterMap_append]
  have hSpanOther : ∀ found ∈ span.filterMap keep, isAssistant found = false := by
    intro found hFound
    obtain ⟨p, hp, hEq⟩ := List.mem_filterMap.mp hFound
    obtain ⟨other, -, hNot, hOther, -⟩ := hSpanLeft p hp
    obtain rfl := Option.some.inj (hEq.symm.trans hOther)
    simpa [isAssistant, blockSatisfies] using hNot
  have hAssistant : isAssistant (.obj shown) = true := by
    simpa [isAssistant, blockSatisfies] using hShownRole
  refine ⟨⟨shown, leading (span.filterMap keep ++ after.filterMap keep)⟩, ?_, hShownCalls, ?_, ?_⟩
  · show _ ∈ turns (left.filterMap keep)
    rw [hList]
    exact turn_of_split hAssistant _ _
  · rw [hIds, hShownCalls]
  · intro message hMessage result hResult
    obtain ⟨p, hp, rfl⟩ := mem_of_span hSpan hMessage
    obtain ⟨other, -, -, hOther, hRestored⟩ := hSpanLeft p hp
    refine ⟨other.message, ?_, hRestored result hResult⟩
    rw [leading_append_of_not hSpanOther]
    exact List.mem_append_left _ (List.mem_filterMap.mpr ⟨p, hp, hOther⟩)

/-! ## Ids belong to one call and to one result -/

theorem assistantCalls_distinct (h : WellFormedHistory canonical history) :
    ((collectFrom assistantCalls history).map (·.id)).Nodup ∧
      ((collectFrom assistantCalls history).map (·.id)).Disjoint
        ((collectFrom assistantToolCalls history).map (·.id)) := by
  have hPerm := (collectFrom_perm (f := assistantCalls) (g := assistantToolCalls) history).map
    (·.id)
  have hNodup := hPerm.nodup_iff.mp h.distinct
  rw [List.map_append] at hNodup
  exact ⟨(List.nodup_append'.mp hNodup).1, (List.nodup_append'.mp hNodup).2.2⟩

theorem resultsOf_distinct (h : WellFormedHistory canonical history) :
    ((resultsOf history).map (·.id)).Nodup := by
  have hResults : resultsOf history = (turns history).flatMap fun turn => resultsOf turn.span := by
    refine collectFrom_spans (fun message hRole => ?_) h.unprompted
    have hTool : ¬ IsTool message := by
      rintro (hTool | hTool) <;> rw [hRole] at hTool <;> simp at hTool
    rw [userResults, toolResults, if_neg hTool, if_neg (by rw [hRole]; simp)]
    rfl
  have hCalls : callsOf history =
      (turns history).flatMap fun turn => callsOf [.obj turn.message] := by
    refine (collectFrom_turns fun message hRole => ?_).trans
      (List.flatMap_congr fun turn _ => (List.append_nil _).symm)
    rw [assistantCalls, assistantToolCalls, if_neg hRole, if_neg hRole]
    rfl
  have hPerm : ((resultsOf history).map (·.id)).Perm ((callsOf history).map (·.id)) := by
    rw [hResults, hCalls, List.map_flatMap, List.map_flatMap]
    exact List.Perm.flatMap_left _ fun turn hTurn => h.answered turn hTurn
  exact hPerm.nodup_iff.mpr h.distinct

variable {result : HistoryResult}

/-- Results of the history are told apart by their ids. -/
theorem result_unique (h : WellFormedHistory canonical history)
    {result' : HistoryResult} (hResult : result ∈ resultsOf history)
    (hResult' : result' ∈ resultsOf history) (hId : result.id = result'.id) : result = result' :=
  List.inj_on_of_nodup_map (resultsOf_distinct h) hResult hResult' hId

theorem mem_resultsOf :
    result ∈ resultsOf history ↔
      result ∈ collectFrom userResults history ∨ result ∈ collectFrom toolResults history := by
  rw [resultsOf, (collectFrom_perm history).mem_iff, List.mem_append]

theorem mem_callsOf :
    call ∈ callsOf history ↔
      call ∈ collectFrom assistantCalls history ∨
        call ∈ collectFrom assistantToolCalls history := by
  rw [callsOf, (collectFrom_perm history).mem_iff, List.mem_append]

/-! ## What comes out -/

section Out

variable {selected resolved : List ResolvedItem} {out : List Json}

theorem mem_remaining {shown : Message}
    (h : .obj shown ∈ left.filterMap (remaining selected resolved orphanStrippingOrdinal)) :
    ∃ p ∈ left, remaining selected resolved orphanStrippingOrdinal p = some (.obj shown) :=
  List.mem_filterMap.mp h

/-- A call that is shown is one of the blocks of the history. -/
theorem call_source (hDecoded : ∀ p ∈ left, Decoded p.1 p.2)
    (hPaired : Paired (left.filterMap (remaining selected resolved orphanStrippingOrdinal)) out)
    {turn : Turn} (hTurn : turn ∈ turns out) {call : HistoryCall}
    (hCall : call ∈ shownCalls turn.message) :
    ∃ found ∈ collectFrom assistantCalls (left.map fun p => .obj p.1), call = found.restored := by
  have hMem : turn.message ∈ (turns out).map (·.message) := List.mem_map_of_mem hTurn
  rw [hPaired.sameTurns] at hMem
  obtain ⟨source, hSource, hEq⟩ := List.mem_map.mp hMem
  rw [← hEq, shownCalls_normalized] at hCall
  obtain ⟨before, after, hSplit⟩ := split_of_turn hSource
  obtain ⟨p, hp, hLeft⟩ := mem_remaining (hSplit ▸ List.mem_append_right _ List.mem_cons_self :
    Json.obj source.message ∈ left.filterMap (remaining selected resolved orphanStrippingOrdinal))
  have hRole : roleOf source.message = some "assistant" := by
    simpa [isAssistant, blockSatisfies] using (isAssistant_of_mem_turns hSource).1
  obtain ⟨hCalls, -⟩ := calls_of_remaining (hDecoded p hp) hLeft hRole
  obtain ⟨found, hFound, rfl⟩ := List.mem_map.mp (hCalls.subset hCall)
  exact ⟨found, mem_collectFrom.mpr ⟨p.1, List.mem_map_of_mem hp, hFound⟩, rfl⟩

/-- A real result is a tool message of the history. -/
theorem result_source (hDecoded : ∀ p ∈ left, Decoded p.1 p.2) {id : String} {shown : Message}
    (hReal : RealResult (left.filterMap (remaining selected resolved orphanStrippingOrdinal)) id
      (.obj shown)) :
    ∃ result ∈ collectFrom toolResults (left.map fun p => .obj p.1), result.id = id ∧
      payloadBlocks result.content ≠ [] ∧
      RestoredResult result.id (payloadBlocks result.content) shown := by
  obtain ⟨turn, hTurn, -, hSpan, hId⟩ := hReal
  obtain ⟨before, after, hSplit⟩ := split_of_turn hTurn
  obtain ⟨p, hp, hLeft⟩ := mem_remaining (hSplit ▸ List.mem_append_right _
      (List.mem_cons_of_mem _ (List.mem_append_left _ hSpan)) :
    Json.obj shown ∈ left.filterMap (remaining selected resolved orphanStrippingOrdinal))
  have hRole : roleOf shown = some "toolResult" := by
    simpa [isToolResult, blockSatisfies] using isToolResult_of_resultId hId
  obtain ⟨result, hResult, hPayload, hRestored⟩ := result_of_remaining (hDecoded p hp) hLeft hRole
  refine ⟨result, mem_collectFrom.mpr ⟨p.1, List.mem_map_of_mem hp, hResult⟩, ?_, hPayload,
    hRestored⟩
  have hExtract := extractToolResultId_of_resultId hId
  rw [hRestored.id] at hExtract
  exact Option.some.inj hExtract

theorem restoredArguments_ne_null (value : Json) : restoredArguments value ≠ .null := by
  cases value <;> simp [restoredArguments]

/-- What comes out faithfully was restorable. -/
theorem restorable_of_faithful (hDecoded : ∀ p ∈ left, Decoded p.1 p.2)
    (hHistory : WellFormedHistory canonical (left.map fun p => .obj p.1))
    (hPaired : Paired (left.filterMap (remaining selected resolved orphanStrippingOrdinal)) out)
    (h : Faithful integer (left.map fun p => .obj p.1) out) :
    Restorable integer (left.map fun p => .obj p.1) := by
  -- a result that comes out is the tool message with its id
  have hResult : ∀ result ∈ resultsOf (left.map fun p => .obj p.1),
      result ∈ collectFrom toolResults (left.map fun p => .obj p.1) ∧
        payloadBlocks result.content ≠ [] ∧
        SamePayload integer (.arr ((payloadBlocks result.content).map .obj)) result.content := by
    intro result hIn
    obtain ⟨turn, hTurn, hTurnId, shown, hBlock, hId, hReal, hPayload⟩ := h.results result hIn
    obtain ⟨call, hCall, hCallId⟩ := List.mem_map.mp hTurnId
    rcases hPaired.real turn hTurn call hCall _ hBlock (by rw [hCallId]; exact hId) with hFound |
      ⟨-, hMade⟩
    · rw [hCallId] at hFound
      obtain ⟨source, hSource, hSame, hNonempty, hRestored⟩ := result_source hDecoded hFound
      obtain rfl := result_unique hHistory (mem_resultsOf.mpr (Or.inr hSource)) hIn hSame
      rw [hRestored.content] at hPayload
      exact ⟨hSource, hNonempty, hPayload⟩
    · exact absurd (Json.obj.inj hMade) (hReal call)
  have hDistinct := (collectFrom_perm (f := userResults) (g := toolResults)
    (left.map fun p => Json.obj p.1)).map (·.id)
  have hApart := hDistinct.nodup_iff.mp (resultsOf_distinct hHistory)
  rw [List.map_append] at hApart
  refine ⟨?_, ?_, fun call hCall => ?_, fun result hIn => ?_⟩
  · refine List.eq_nil_iff_forall_not_mem.mpr fun call hCall => ?_
    obtain ⟨turn, hTurn, hShown⟩ := h.calls call (mem_callsOf.mpr (Or.inr hCall))
    obtain ⟨found, hFound, rfl⟩ := call_source hDecoded hPaired hTurn hShown
    exact (assistantCalls_distinct hHistory).2 (List.mem_map_of_mem hFound)
      (List.mem_map.mpr ⟨found.restored, hCall, rfl⟩)
  · refine List.eq_nil_iff_forall_not_mem.mpr fun result hIn => ?_
    obtain ⟨hTool, -⟩ := hResult result (mem_resultsOf.mpr (Or.inl hIn))
    exact (List.nodup_append'.mp hApart).2.2 (List.mem_map_of_mem hIn) (List.mem_map_of_mem hTool)
  · obtain ⟨turn, hTurn, hShown⟩ := h.calls call hCall
    obtain ⟨found, -, rfl⟩ := call_source hDecoded hPaired hTurn hShown
    exact restoredArguments_ne_null _
  · obtain ⟨hTool, hNonempty, hPayload⟩ := hResult result hIn
    obtain ⟨message, hMessage, hTool⟩ := mem_collectFrom.mp hTool
    obtain ⟨hIsTool, -, hContent⟩ := mem_toolResults hTool
    obtain ⟨found, hFound, hWell⟩ := hHistory.messages _ hMessage
    obtain rfl := Json.obj.inj hFound
    have hShape := isPayload_of_tool hWell hIsTool
    rw [← hContent] at hShape
    exact (samePayload_iff hShape).mp ⟨hNonempty, hPayload⟩

end Out

/-- The turn of the history that an assistant message opens. -/
theorem turn_of_assistant (h : .obj message ∈ history) (hRole : roleOf message = some "assistant") :
    ∃ turn ∈ turns history, turn.message = message := by
  have hAssistant : isAssistant (.obj message) = true := by
    simpa [isAssistant, blockSatisfies] using hRole
  have hNot : isAssistant (.obj message) ≠ false := by rw [hAssistant]; simp
  rcases mem_turns_cases h with hLeading | ⟨turn, hTurn, hEq | hSpan⟩
  · exact absurd (leading_not hLeading) hNot
  · exact ⟨turn, hTurn, (Json.obj.inj hEq).symm⟩
  · exact absurd ((isAssistant_of_mem_turns hTurn).2 _ hSpan) hNot

theorem mem_assistantCalls
    (h : call ∈ assistantCalls message) : roleOf message = some "assistant" := by
  unfold assistantCalls at h
  split at h
  · assumption
  · cases h

/-- The turn behind which a tool message stands. -/
theorem turn_of_tool (hUnprompted : resultsOf (leading history) = []) (h : .obj message ∈ history)
    (hResult : result ∈ toolResults message) :
    ∃ turn ∈ turns history, .obj message ∈ turn.span := by
  have hTool := (mem_toolResults hResult).1
  rcases mem_turns_cases h with hLeading | ⟨turn, hTurn, hEq | hSpan⟩
  · have hIn : result ∈ resultsOf (leading history) :=
      mem_collectFrom.mpr ⟨message, hLeading, List.mem_append_right _ hResult⟩
    rw [hUnprompted] at hIn
    exact absurd hIn List.not_mem_nil
  · have hRole : roleOf message = some "assistant" := by
      have hAssistant := (isAssistant_of_mem_turns hTurn).1
      rw [← hEq] at hAssistant
      simpa [isAssistant, blockSatisfies] using hAssistant
    rcases hTool with hTool | hTool <;> rw [hRole] at hTool <;> simp at hTool
  · exact ⟨turn, hTurn, hSpan⟩

/-- Where no call stands beside the blocks, a result answers a call of a block. -/
theorem blockCall_of_result (hHistory : WellFormedHistory canonical history)
    (hNone : collectFrom assistantToolCalls history = [])
    (hTurn : turn ∈ turns history) (hResult : result ∈ resultsOf turn.span) :
    ∃ call ∈ assistantCalls turn.message, call.id = result.id := by
  obtain ⟨call, hCall, hCallId⟩ := List.mem_map.mp ((hHistory.answered turn hTurn).mem_iff.mp
    (List.mem_map_of_mem hResult))
  refine ⟨call, ?_, hCallId⟩
  obtain ⟨source, hSourceMem, hIn⟩ := mem_collectFrom.mp hCall
  obtain rfl := Json.obj.inj (List.mem_singleton.mp hSourceMem)
  refine (List.mem_append.mp hIn).resolve_right fun hToolCall => ?_
  obtain ⟨before, after, hSplit⟩ := split_of_turn hTurn
  have hFound : call ∈ collectFrom assistantToolCalls history :=
    mem_collectFrom.mpr ⟨turn.message, hSplit ▸ List.mem_append_right _ List.mem_cons_self,
      hToolCall⟩
  rw [hNone] at hFound
  exact absurd hFound List.not_mem_nil

/-- What is restorable comes out faithfully. -/
theorem faithful_of_restorable {out : List Json} (hDecoded : ∀ p ∈ left, Decoded p.1 p.2)
    (hAscending : (left.filterMap (·.2)).Pairwise fun a b => a.ordinal < b.ordinal)
    (hHistory : WellFormedHistory canonical (left.map fun p => .obj p.1))
    (hPaired : Paired (left.filterMap (remaining (left.filterMap (·.2)) (left.filterMap (·.2))
      orphanStrippingOrdinal)) out)
    (h : Restorable integer (left.map fun p => .obj p.1)) :
    Faithful integer (left.map fun p => .obj p.1) out := by
  have hTurns : ∀ turn ∈ turns (left.map fun p => Json.obj p.1),
      assistantCalls turn.message ≠ [] → ∃ found ∈ turns (left.filterMap (remaining
        (left.filterMap (·.2)) (left.filterMap (·.2)) orphanStrippingOrdinal)), ∃ shown ∈ turns out,
      shown.message = normalized found.message ∧
      shownCalls found.message = assistantCalls turn.message ∧
      turnIds found.message = (assistantCalls turn.message).map (·.id) ∧
      ∀ message, .obj message ∈ turn.span → ∀ result ∈ toolResults message,
        ∃ restored, .obj restored ∈ found.span ∧
          RestoredResult result.id (payloadBlocks result.content) restored := by
    intro turn hTurn hCalls
    obtain ⟨found, hFound, hShown, hIds, hSpan⟩ :=
      turn_of_history hDecoded hAscending hHistory h hTurn hCalls
    have hMem : normalized found.message ∈ (turns out).map (·.message) := by
      rw [hPaired.sameTurns]
      exact List.mem_map.mpr ⟨found, hFound, rfl⟩
    obtain ⟨shown, hShownTurn, hEq⟩ := List.mem_map.mp hMem
    exact ⟨found, hFound, shown, hShownTurn, hEq, hShown, hIds, hSpan⟩
  constructor
  · intro call hCall
    rw [mem_callsOf, h.noToolCalls] at hCall
    obtain ⟨message, hMessage, hIn⟩ :=
      mem_collectFrom.mp (hCall.resolve_right List.not_mem_nil)
    obtain ⟨turn, hTurn, rfl⟩ := turn_of_assistant hMessage (mem_assistantCalls hIn)
    obtain ⟨found, -, shown, hShownTurn, hEq, hShown, -, -⟩ :=
      hTurns turn hTurn (List.ne_nil_of_mem hIn)
    refine ⟨shown, hShownTurn, ?_⟩
    rw [hEq, shownCalls_normalized, hShown]
    exact hIn
  · intro result hResult
    have hSource := hResult
    rw [mem_resultsOf, h.noUserResults] at hSource
    obtain ⟨message, hMessage, hIn⟩ :=
      mem_collectFrom.mp (hSource.resolve_left List.not_mem_nil)
    obtain ⟨turn, hTurn, hSpan⟩ := turn_of_tool hHistory.unprompted hMessage hIn
    -- the call that it answers stands in a block
    obtain ⟨call, hBlockCall, hCallId⟩ := blockCall_of_result hHistory h.noToolCalls hTurn
      (mem_collectFrom.mpr ⟨message, hSpan, List.mem_append_right _ hIn⟩)
    obtain ⟨found, hFound, shown, hShownTurn, hEq, -, hIds, hResults⟩ :=
      hTurns turn hTurn (List.ne_nil_of_mem hBlockCall)
    have hFoundId : result.id ∈ turnIds found.message := by
      rw [hIds, ← hCallId]
      exact List.mem_map_of_mem hBlockCall
    have hShownId : result.id ∈ turnIds shown.message := by
      rw [hEq, turnIds, turnCalls_normalized]
      exact hFoundId
    -- so a result stands behind it, and it is the one that was stored
    obtain ⟨entry, hEntry, hEntryId⟩ :=
      List.mem_map.mp ((hPaired.ids shown hShownTurn result.id).mpr hShownId)
    obtain ⟨answer, rfl⟩ : ∃ answer, entry = .obj answer := by
      cases entry with
      | obj answer => exact ⟨answer, rfl⟩
      | _ => cases hEntryId
    obtain ⟨shownCall, hShownCall, hShownCallId⟩ := List.mem_map.mp hShownId
    rcases hPaired.real shown hShownTurn shownCall hShownCall _ hEntry
      (by rw [hShownCallId]; exact hEntryId) with hReal | ⟨hNone, -⟩
    · rw [hShownCallId] at hReal
      obtain ⟨source, hSource, hSame, -, hRestored⟩ := result_source hDecoded hReal
      obtain rfl := result_unique hHistory (mem_resultsOf.mpr (Or.inr hSource)) hResult hSame
      refine ⟨shown, hShownTurn, hShownId, answer, hEntry, hEntryId, hRestored.real, ?_⟩
      obtain ⟨hIsTool, -, hContent⟩ := mem_toolResults hIn
      obtain ⟨_, hMessageEq, hWell⟩ := hHistory.messages _ hMessage
      obtain rfl := Json.obj.inj hMessageEq
      have hShape := isPayload_of_tool hWell hIsTool
      rw [← hContent] at hShape
      rw [hRestored.content]
      exact ((samePayload_iff hShape).mpr (h.payloads source hResult)).2
    · obtain ⟨restored, hRestoredSpan, hRestored⟩ := hResults message hSpan result hIn
      have hTool : isToolResult (.obj restored) = true := by
        simpa [isToolResult, blockSatisfies] using hRestored.role
      rw [hShownCallId] at hNone
      exact absurd ⟨_, found, hFound, hFoundId, hRestoredSpan,
        (if_pos hTool).trans hRestored.id⟩ hNone

end Turns

/-! ## A history that is ingested and assembled -/

theorem filter_at_ordinal {items : List ResolvedItem}
    (hAscending : items.Pairwise fun a b => a.ordinal < b.ordinal) (boundary : Int) :
    (items.filter fun item => decide (item.ordinal < boundary)) ++
      (items.filter fun item => !decide (item.ordinal < boundary)) = items := by
  induction items with
  | nil => rfl
  | cons item items ih =>
    obtain ⟨hHead, hRest⟩ := List.pairwise_cons.mp hAscending
    by_cases hBefore : item.ordinal < boundary
    · rw [List.filter_cons_of_pos (by simpa using hBefore),
        List.filter_cons_of_neg (by simpa using hBefore), List.cons_append, ih hRest]
    · have hNone : items.filter (fun item => decide (item.ordinal < boundary)) = [] := by
        rw [List.filter_eq_nil_iff]
        intro other hOther
        have hLater := hHead other hOther
        simp only [decide_eq_true_eq]
        omega
      have hAll : items.filter (fun item => !decide (item.ordinal < boundary)) = items := by
        rw [List.filter_eq_self]
        intro other hOther
        have hLater := hHead other hOther
        simp only [Bool.not_eq_true', decide_eq_false_iff_not]
        omega
      rw [List.filter_cons_of_neg (by simpa using hBefore),
        List.filter_cons_of_pos (by simpa using hBefore), hNone, hAll, List.nil_append]

/-- With a budget for everything, everything is selected. -/
theorem selected_eq_self {resolved : List ResolvedItem}
    (hAscending : resolved.Pairwise fun a b => a.ordinal < b.ordinal) {input : AssembleInput}
    (hBudget : totalTokens resolved ≤ input.tokenBudget) :
    (select resolved input).selected = resolved := by
  let boundary := resolveFreshTailOrdinal resolved input.freshTailCount input.freshTailMaxTokens
  have hSplit := filter_at_ordinal hAscending boundary
  have hFits : totalTokens (resolved.filter fun item => decide (item.ordinal < boundary)) ≤
      remainingBudget (resolved.filter fun item => !decide (item.ordinal < boundary))
        input.tokenBudget := by
    rw [remainingBudget_natCast]
    have hTotal := congrArg totalTokens hSplit
    rw [totalTokens, List.map_append, List.sum_append] at hTotal
    change totalTokens _ + totalTokens _ = _ at hTotal
    omega
  have hKept : (select resolved input).kept =
      resolved.filter fun item => decide (item.ordinal < boundary) :=
    congrArg Prod.fst (if_pos hFits)
  rw [Selection.selected, hKept]
  exact hSplit

/-- A well-formed history, as the payload guard hands it on, that is ingested into a session
without a context, and an assembly of it with a budget for everything. -/
structure IngestedAfresh (environment : Environment) (strOf : Json → String)
    (sessionId : SessionId) (db : Db) (window : List (Json × Attempt)) (input : AssembleInput) :
    Prop where
  wellFormed : db.WellFormed
  bound : db.ContextBound
  fresh : db.sessionContext sessionId = []
  noFault : ∀ entry ∈ window, entry.2.fault = none
  history : WellFormedHistory environment.canonical (window.map handedOn)
  conversation : ∃ conversation, conversation.conversationId = input.conversationId ∧
    (ingestBatch strOf sessionId db window).1.getConversationBySessionId sessionId =
      some conversation
  budget : totalTokens (resolvedItems environment (ingestBatch strOf sessionId db window).1 input) ≤
    input.tokenBudget

variable {environment : Environment} {strOf : Json → String} {sessionId : SessionId} {db : Db}
  {window : List (Json × Attempt)} {input : AssembleInput}

/-- What is resolved for the messages of the history, and what is left of them. -/
theorem IngestedAfresh.resolved (h : IngestedAfresh environment strOf sessionId db window input) :
    ∃ (left : List (Message × Option ResolvedItem)) (orphanStrippingOrdinal : Int),
      window.map handedOn = left.map (fun p => .obj p.1) ∧ (∀ p ∈ left, Decoded p.1 p.2) ∧
      (left.filterMap (·.2)).Pairwise (fun a b => a.ordinal < b.ordinal) ∧
      (assemble environment (ingestBatch strOf sessionId db window).1 input).messages =
        sanitizeToolUseResultPairing (left.filterMap (remaining (left.filterMap (·.2))
          (left.filterMap (·.2)) orphanStrippingOrdinal)) := by
  obtain ⟨stored, hWindow, hContext, hStored, hWell, -, -⟩ :=
    ingestBatch_context strOf sessionId h.wellFormed h.bound h.noFault
  obtain ⟨conversation, hId, hConversation⟩ := h.conversation
  have hBudget := h.budget
  generalize (ingestBatch strOf sessionId db window).1 = db' at *
  let messageOf : Json → Message := fun entry =>
    match entry with
    | .obj message => message
    | _ => []
  let left := stored.map fun p =>
    (messageOf (handedOn p.1), p.2.bind (resolveItem environment db'))
  have hMessage : ∀ p ∈ stored, ∃ message, handedOn p.1 = .obj message ∧
      WellFormedMessage environment.canonical message := by
    intro p hp
    refine h.history.messages (handedOn p.1) (List.mem_map_of_mem ?_)
    rw [← hWindow]
    exact List.mem_map_of_mem hp
  have hItems : left.filterMap (·.2) = resolvedItems environment db' input := by
    rw [h.fresh, List.nil_append, Db.sessionContext_of_conversation hConversation, hId] at hContext
    rw [resolvedItems, resolveItems, hContext, List.filterMap_filterMap, List.filterMap_map]
    rfl
  have hAscending : (left.filterMap (·.2)).Pairwise fun a b => a.ordinal < b.ordinal := by
    rw [hItems]
    refine resolvedItems_ascending environment db' ?_
    exact (List.pairwise_map.mpr (hWell.contiguous _).pairwise).imp ne_of_lt
  refine ⟨left, (input.orphanStrippingOrdinal.filter (0 ≤ ·)).getD (resolveFreshTailOrdinal
    (resolvedItems environment db' input) input.freshTailCount input.freshTailMaxTokens), ?_, ?_,
    hAscending, ?_⟩
  · rw [← hWindow, List.map_map, List.map_map]
    refine List.map_congr_left fun p hp => ?_
    obtain ⟨message, hEq, -⟩ := hMessage p hp
    simp only [Function.comp_apply, hEq, messageOf]
  · intro p hp
    obtain ⟨source, hSource, rfl⟩ := List.mem_map.mp hp
    obtain ⟨message, hEq, hMessageWell⟩ := hMessage source hSource
    dsimp only
    rw [hEq]
    exact decoded_of_left (hStored source hSource) hEq hMessageWell
  · rw [assemble_messages, cleanedMessages, cleaned_eq_filterMap,
      selected_eq_self (hItems ▸ hAscending) hBudget, ← hItems]
    congr 1
    rw [List.map_filterMap, List.filterMap_filterMap]
    refine List.filterMap_congr fun p _ => ?_
    rw [remaining, Option.map_bind]
    rfl

/-- **Every call and every result of a well-formed history comes back exactly if its calls
stand in blocks and have arguments, and its results are tool messages of plain text.** -/
theorem faithful_iff (h : IngestedAfresh environment strOf sessionId db window input)
    (integer : FloatText → Option Int) :
    Faithful integer (window.map handedOn)
        (assemble environment (ingestBatch strOf sessionId db window).1 input).messages ↔
      Restorable integer (window.map handedOn) := by
  obtain ⟨left, orphanStrippingOrdinal, hHistory, hDecoded, hAscending, hOut⟩ := h.resolved
  have hWell := h.history
  rw [hHistory] at hWell ⊢
  have hPaired := pairing_complete ((assistantCalls_distinct hWell).1.sublist
    (@callIds_remaining (left.filterMap (·.2)) (left.filterMap (·.2)) orphanStrippingOrdinal left
      hDecoded))
  rw [← hOut] at hPaired
  exact ⟨restorable_of_faithful hDecoded hWell hPaired,
    faithful_of_restorable hDecoded hAscending hWell hPaired⟩

/-! ## A call beside the content -/

theorem wellFormedMessage_text {canonical : FloatText → FloatText}
    (hValue : Json.WellFormed canonical (.obj message))
    (hRole : ∃ role ∈ ["user", "assistant", "tool", "toolResult"], roleOf message = some role)
    {text : String} (hText : get? message "content" = some (.str text))
    (hId : IsTool message → ∃ id, topLevelToolCallId message = some id) :
    WellFormedMessage canonical message := by
  have hNoItems : ∀ items, get? message "content" ≠ some (.arr items) := by
    intro items hItems
    rw [hText] at hItems
    cases hItems
  refine ⟨hValue, hRole, fun _ items _ hItems => absurd hItems (hNoItems items),
    fun _ => Or.inl ⟨text, hText⟩, fun hTool => ?_⟩
  obtain ⟨id, hSome⟩ := hId hTool
  exact ⟨id, hSome, fun items _ _ hItems => absurd hItems (hNoItems items)⟩

/-- A question, a call in the `tool_calls` of the answer, and its result. -/
def openaiMessages : List Json :=
  [userMessage "hi",
    .obj [("role", .str "assistant"), ("content", .str ""),
      ("tool_calls", .arr [.obj [("id", .str "call_1"), ("type", .str "function"),
        ("function", .obj [("name", .str "read"), ("arguments", .str "a")])]])],
    .obj [("role", .str "tool"), ("tool_call_id", .str "call_1"), ("content", .str "data")]]

def openaiHistory : List (Json × Attempt) :=
  openaiMessages.map fun message => (message, quietAttempt)

theorem protectText_short : ∀ role ∈ ["user", "assistant", "tool"],
    ∀ text ∈ ["hi", "", "call_1", "function", "read", "a", "data"],
      protectText (fun _ => none) role text 0 = (text, 0) := by
  decide +kernel

theorem handedOn_openaiHistory : openaiHistory.map handedOn = openaiMessages := by
  have hShort := protectText_short
  simp only [List.forall_mem_cons, List.not_mem_nil, false_implies, implies_true,
    and_true] at hShort
  simp [openaiHistory, openaiMessages, userMessage, handedOn, applyIngestPayloadGuard,
    protectMessageForIngest, protectContent, protectToolCalls, protectValue, protectItems,
    protectFields, guardRole, get?, List.lookup_cons, List.lookup_nil, Json.setField, Json.isTruthy, hShort, quietAttempt]

theorem ingestedAfresh_openaiHistory :
    IngestedAfresh bareEnvironment (fun _ => "") "s" Db.empty openaiHistory largeBudget := by
  refine ⟨Db.wellFormed_empty, fun i hi => absurd hi List.not_mem_nil, rfl, by decide, ?_, ?_,
    by decide +kernel⟩
  · rw [handedOn_openaiHistory]
    refine ⟨?_, by decide, List.length_eq_zero_iff.mp (by decide +kernel), fun turn hTurn => ?_⟩
    · intro entry hEntry
      simp only [openaiMessages, userMessage, List.mem_cons, List.not_mem_nil, or_false] at hEntry
      rcases hEntry with rfl | rfl | rfl
      · refine ⟨_, rfl, wellFormedMessage_text ?_ ⟨"user", by simp, rfl⟩ rfl fun hTool => ?_⟩
        · simp [Json.WellFormed, Json.WellFormedFields]
        · exact absurd hTool (by decide)
      · refine ⟨_, rfl, wellFormedMessage_text ?_ ⟨"assistant", by simp, rfl⟩ rfl fun hTool => ?_⟩
        · simp [Json.WellFormed, Json.WellFormedFields, Json.WellFormedItems]
        · exact absurd hTool (by decide)
      · refine ⟨_, rfl, wellFormedMessage_text ?_ ⟨"tool", by simp, rfl⟩ rfl
          fun _ => ⟨"call_1", rfl⟩⟩
        simp [Json.WellFormed, Json.WellFormedFields]
    · have hSame : ∀ turn ∈ turns openaiMessages, (resultsOf turn.span).map (·.id) =
          (callsOf [.obj turn.message]).map (·.id) := by decide +kernel
      rw [hSame turn hTurn]
  · have hFound : ((ingestBatch (fun _ => "") "s" Db.empty openaiHistory).1
        |>.getConversationBySessionId "s").map (·.conversationId) = some 1 := by decide +kernel
    obtain ⟨conversation, hConversation, hId⟩ := Option.map_eq_some_iff.mp hFound
    exact ⟨conversation, hId, hConversation⟩

/-- The assembled list has no assistant message at all. -/
theorem openaiHistory_loses_call :
    IngestedAfresh bareEnvironment (fun _ => "") "s" Db.empty openaiHistory largeBudget ∧
      ¬ Faithful (fun _ => none) (openaiHistory.map handedOn)
        (assemble bareEnvironment (ingestBatch (fun _ => "") "s" Db.empty openaiHistory).1
          largeBudget).messages := by
  refine ⟨ingestedAfresh_openaiHistory, fun hFaithful => ?_⟩
  have hCalls : (callsOf (openaiHistory.map handedOn)).length = 1 := by
    rw [handedOn_openaiHistory]
    decide
  have hTurns : (turns (assemble bareEnvironment
      (ingestBatch (fun _ => "") "s" Db.empty openaiHistory).1 largeBudget).messages).length =
        0 := by
    decide +kernel
  obtain ⟨call, hCall⟩ := List.exists_mem_of_length_pos (by rw [hCalls]; exact Nat.one_pos)
  obtain ⟨turn, hTurn, -⟩ := hFaithful.calls call hCall
  rw [List.length_eq_zero_iff.mp hTurns] at hTurn
  cases hTurn

theorem faithful_iff_openaiHistory :
    Faithful (fun _ => none) (openaiHistory.map handedOn)
        (assemble bareEnvironment (ingestBatch (fun _ => "") "s" Db.empty openaiHistory).1
          largeBudget).messages ↔
      Restorable (fun _ => none) (openaiHistory.map handedOn) :=
  faithful_iff ingestedAfresh_openaiHistory _

end LosslessHermes
