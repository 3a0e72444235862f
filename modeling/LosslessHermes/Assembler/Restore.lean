import LosslessHermes.Assembler.Resolve
import LosslessHermes.Assembler.Turns

/-!
# Reading a stored block back

The part rows of a message hold no raw block, so a block is restored from its
columns. `restored_call` says that a tool call of an assistant message comes back
with its id, name and arguments, except that explicit null arguments come back as a
text; `restored_text` says that every other block comes back as a text block.
-/

namespace LosslessHermes.Assembler

open Json (get?)

/-! ## The calls of a block -/

structure HistoryCall where
  id : String
  name : String
  arguments : Json

def callBlockTypes : List String :=
  ["tool_use", "toolUse", "tool-use", "toolCall", "tool_call", "functionCall", "function_call"]

def resultBlockTypes : List String :=
  ["function_call_output", "tool_result", "toolResult", "tool_use_result"]

/-- The tool call that a block of a history is. -/
def blockCall (block : Message) : Option HistoryCall :=
  if (blockType block).any (callBlockTypes.contains ·) then
    (firstString block (toolCallIdAliases ++ ["id"])).bind fun id =>
      (firstString block ["name", "toolName", "tool_name"]).bind fun name =>
        (["input", "arguments", "toolInput"].findSome? fun key => get? block key).map
          fun arguments => { id := id, name := name, arguments := arguments }
  else none

/-- The tool call that a block of an assembled message is. -/
def shownCall (block : Message) : Option HistoryCall :=
  if isToolCallBlock block then
    (extractToolCallId block).bind fun id =>
      (safeString (get? block "name")).bind fun name =>
        ((get? block "arguments").or (get? block "input")).map fun arguments =>
          { id := id, name := name, arguments := arguments }
  else none

/-- A stored null is read back as its text. -/
def restoredArguments : Json → Json
  | .null => .str "null"
  | value => value

def HistoryCall.restored (call : HistoryCall) : HistoryCall :=
  { call with arguments := restoredArguments call.arguments }

theorem HistoryCall.restored_eq_self {call : HistoryCall} :
    call.restored = call ↔ call.arguments ≠ .null := by
  obtain ⟨id, name, arguments⟩ := call
  cases arguments <;> simp [restored, restoredArguments]

theorem safeString_eq_some {value : Option Json} {text : String}
    (h : safeString value = some text) : value = some (.str text) ∧ text ≠ "" := by
  unfold safeString at h
  split at h
  · split at h
    · cases h
    · rename_i hNe
      cases h
      exact ⟨rfl, hNe⟩
  · cases h

theorem firstString_ne_empty {fields : Message} {aliases : List String} {text : String}
    (h : firstString fields aliases = some text) : text ≠ "" := by
  obtain ⟨key, -, hKey⟩ := List.exists_of_findSome?_eq_some h
  exact (safeString_eq_some hKey).2

theorem nonempty_of_ne {text : String} (h : text ≠ "") : nonempty (some text) = some text := by
  simp [nonempty, h]

/-! ## Written values are read back -/

section Stored

variable (environment : Environment)

theorem not_isSpace_of_isDigit {c : Char} (h : c.isDigit = true) : Text.isSpace c = false := by
  have hRange : 48 ≤ c.toNat ∧ c.toNat ≤ 57 := by
    simp only [Char.isDigit, Bool.and_eq_true, decide_eq_true_eq, ge_iff_le,
      UInt32.le_iff_toNat_le] at h
    exact h
  unfold Text.isSpace
  simp only [Bool.or_eq_false_iff, Bool.and_eq_false_iff, decide_eq_false_iff_not,
    beq_eq_false_iff_ne]
  omega

theorem dumps_not_blank (value : Json) : Text.isBlank (Json.dumps value) = false := by
  have hHead : ∃ c s, Json.dumpsChars value = c :: s ∧ Text.isSpace c = false := by
    have hNumber : ∀ c : Char, (c = '-' ∨ c = 'N' ∨ c = 'I' ∨ c.isDigit = true) →
        Text.isSpace c = false := by
      rintro c (rfl | rfl | rfl | hDigit)
      · decide
      · decide
      · decide
      · exact not_isSpace_of_isDigit hDigit
    cases value with
    | null => exact ⟨'n', _, rfl, by decide⟩
    | bool b => cases b <;> exact ⟨_, _, rfl, by decide⟩
    | int n =>
      obtain ⟨c, s, hText, hc⟩ := Json.intText_head n
      exact ⟨c, s, hText, hNumber c hc⟩
    | float x =>
      obtain ⟨c, s, hText, hc⟩ := Json.floatText_head x
      exact ⟨c, s, hText, hNumber c hc⟩
    | str s => exact ⟨'"', _, rfl, by decide⟩
    | arr items => exact ⟨'[', _, rfl, by decide⟩
    | obj fields => exact ⟨'\x7b', _, rfl, by decide⟩
  obtain ⟨c, s, hText, hSpace⟩ := hHead
  have hList : (Json.dumps value).toList = Json.dumpsChars value := String.toList_ofList
  rw [Text.isBlank, hList, hText, List.all_cons, hSpace, Bool.false_and]

theorem dumps_ne_empty (value : Json) : Json.dumps value ≠ "" := by
  intro hEmpty
  have hBlank := dumps_not_blank value
  rw [hEmpty] at hBlank
  cases hBlank

theorem parseJson_dumps {value : Json} (h : Json.WellFormed environment.canonical value) :
    parseJson environment (some (Json.dumps value)) = value := by
  simp only [parseJson, dumps_not_blank, Bool.false_eq_true, if_false, Json.loads_dumps h,
    Option.getD_some]

theorem parseStoredValue_dumps {value : Json}
    (h : Json.WellFormed environment.canonical value) :
    parseStoredValue environment (some (Json.dumps value)) = restoredArguments value := by
  rw [parseStoredValue, nonempty_of_ne (dumps_ne_empty value)]
  dsimp only
  rw [parseJson_dumps environment h]
  cases value <;> rfl

/-! ## The metadata of a stored part -/

/-- The record that a part keeps as its metadata: the role of its message, and under
other keys that no raw block has, texts and flags. -/
structure MetadataRecord (role : String) (record : List (String × Option Json)) : Prop where
  role : ∃ rest, record = ("originalRole", some (.str role)) :: rest
  keys : (record.map (·.1)).Nodup
  noRaw : ∀ key ∈ record.map (·.1), key ∉ ["rawType", "raw", "toolCallId"]
  values : ∀ entry ∈ record, ∀ value, entry.2 = some value →
    (∃ text, value = .str text) ∨ ∃ b, value = .bool b

theorem metadataRecord_of_keys {role : String} {record : List (String × Option Json)}
    {keys : List String} (hNodup : keys.Nodup)
    (hRaw : ∀ key ∈ keys, key ∉ ["rawType", "raw", "toolCallId"])
    (hKeys : record.map (·.1) = keys)
    (hRole : ∃ rest, record = ("originalRole", some (.str role)) :: rest)
    (hValues : ∀ entry ∈ record, ∀ value, entry.2 = some value →
      (∃ text, value = .str text) ∨ ∃ b, value = .bool b) : MetadataRecord role record :=
  ⟨hRole, hKeys ▸ hNodup, hKeys ▸ hRaw, hValues⟩

theorem keys_cleaned (record : List (String × Option Json)) :
    ((cleaned record).map (·.1)).Sublist (record.map (·.1)) := by
  induction record with
  | nil => exact List.Sublist.refl _
  | cons entry record ih =>
    obtain ⟨key, value⟩ := entry
    cases value with
    | none => exact ih.trans (List.sublist_cons_self _ _)
    | some value => exact ih.cons_cons key

theorem get?_eq_none {fields : Message} {key : String} (h : key ∉ fields.map (·.1)) :
    get? fields key = none := by
  refine List.lookup_eq_none_iff.mpr fun entry hEntry => bne_iff_ne.mpr ?_
  rintro rfl
  exact h (List.mem_map_of_mem hEntry)

theorem MetadataRecord.get?_none {role : String} {record : List (String × Option Json)}
    (h : MetadataRecord role record) {key : String}
    (hKey : key ∈ ["rawType", "raw", "toolCallId"]) :
    get? (cleaned record) key = none :=
  get?_eq_none fun hMem => h.noRaw key ((keys_cleaned record).subset hMem) hKey

theorem MetadataRecord.get?_role {role : String} {record : List (String × Option Json)}
    (h : MetadataRecord role record) :
    get? (cleaned record) "originalRole" = some (.str role) := by
  obtain ⟨rest, rfl⟩ := h.role
  rfl

theorem MetadataRecord.wellFormed {role : String} {record : List (String × Option Json)}
    (h : MetadataRecord role record) (canonical : FloatText → FloatText) :
    Json.WellFormed canonical (.obj (cleaned record)) := by
  refine ⟨h.keys.sublist (keys_cleaned record),
    Json.wellFormedFields_iff.mpr fun entry hEntry => ?_⟩
  obtain ⟨source, hSource, hValue⟩ := List.mem_filterMap.mp hEntry
  obtain ⟨value, hSome, rfl⟩ := Option.map_eq_some_iff.mp hValue
  rcases h.values source hSource value hSome with ⟨text, rfl⟩ | ⟨b, rfl⟩
  · exact trivial
  · exact trivial

theorem decodedMetadata_record {role : String} {record : List (String × Option Json)}
    (h : MetadataRecord role record) {part : MessagePartRecord}
    (hPart : part.metadata = toJsonMetadata record) :
    decodedMetadata environment part = some (cleaned record) := by
  have hSome : toJsonMetadata record = some (Json.dumps (.obj (cleaned record))) := by
    obtain ⟨rest, rfl⟩ := h.role
    rfl
  rw [decodedMetadata, hPart, hSome, parseJson_dumps environment (h.wellFormed _)]

/-- A part row that ingest has written for a message of this role. -/
def StoredPart (role : String) (part : MessagePartRecord) : Prop :=
  ∃ record, MetadataRecord role record ∧ part.metadata = toJsonMetadata record

theorem optionalFlag {flag : Option Bool} {value : Json} (h : flag.map Json.bool = some value) :
    (∃ text, value = .str text) ∨ ∃ b, value = .bool b := by
  obtain ⟨b, -, rfl⟩ := Option.map_eq_some_iff.mp h
  exact Or.inr ⟨b, rfl⟩

variable (sessionId : SessionId) (message : Message) (messageId : MessageId)

theorem storedPart_agent (fallbackContent source : String) :
    StoredPart (originalRole message)
      { agentPart sessionId message fallbackContent source with messageId := messageId } := by
  refine ⟨_, metadataRecord_of_keys (by decide : ["originalRole", "source"].Nodup) (by decide) rfl
    ⟨_, rfl⟩ fun entry hEntry value hValue => ?_, rfl⟩
  simp only [List.mem_cons, List.not_mem_nil, or_false] at hEntry
  rcases hEntry with rfl | rfl <;> exact Or.inl ⟨_, (Option.some.inj hValue).symm⟩

theorem storedPart_string (content : String) :
    StoredPart (originalRole message)
      { stringPart sessionId message content with messageId := messageId } := by
  refine ⟨_, metadataRecord_of_keys (by decide : ["originalRole", "isError"].Nodup) (by decide) rfl
    ⟨_, rfl⟩ fun entry hEntry value hValue => ?_, rfl⟩
  simp only [List.mem_cons, List.not_mem_nil, or_false] at hEntry
  rcases hEntry with rfl | rfl
  · exact Or.inl ⟨_, (Option.some.inj hValue).symm⟩
  · exact optionalFlag hValue

theorem storedPart_dict (ordinal : Nat) (fields : Message) :
    StoredPart (originalRole message)
      { dictPart sessionId message ordinal fields with messageId := messageId } := by
  refine ⟨_, metadataRecord_of_keys (by decide : ["originalRole", "blockType", "isError"].Nodup)
    (by decide) rfl ⟨_, rfl⟩ fun entry hEntry value hValue => ?_, rfl⟩
  simp only [List.mem_cons, List.not_mem_nil, or_false] at hEntry
  rcases hEntry with rfl | rfl | rfl
  · exact Or.inl ⟨_, (Option.some.inj hValue).symm⟩
  · obtain ⟨text, -, rfl⟩ := Option.map_eq_some_iff.mp hValue
    exact Or.inl ⟨text, rfl⟩
  · exact optionalFlag hValue

theorem StoredPart.metadata {role : String} (hRole : role ≠ "") {part : MessagePartRecord}
    (h : StoredPart role part) :
    getPartMetadata environment part =
      { originalRole := some role, rawType := none, raw := .null } := by
  obtain ⟨record, hRecord, hPart⟩ := h
  have hText : safeString (some (.str role)) = some role := if_neg hRole
  simp only [getPartMetadata, decodedMetadata_record environment hRecord hPart, hRecord.get?_role,
    hText, hRecord.get?_none (by decide : "rawType" ∈ ["rawType", "raw", "toolCallId"]), field,
    hRecord.get?_none (by decide : "raw" ∈ ["rawType", "raw", "toolCallId"]), Option.getD_none]
  rfl

theorem StoredPart.block {role : String} (hRole : role ≠ "") {part : MessagePartRecord}
    (h : StoredPart role part) :
    blockFromPart environment part = blockFromColumns environment part
      { originalRole := some role, rawType := none, raw := .null } := by
  rw [blockFromPart, h.metadata environment hRole]

theorem getOriginalRole_stored {role : String} (hRole : role ≠ "") {part : MessagePartRecord}
    (h : StoredPart role part) (parts : List MessagePartRecord) :
    getOriginalRole environment (part :: parts) = some role := by
  obtain ⟨record, hRecord, hPart⟩ := h
  have hText : safeString (some (.str role)) = some role := if_neg hRole
  rw [getOriginalRole, List.findSome?_cons, decodedMetadata_record environment hRecord hPart,
    Option.bind_some, hRecord.get?_role, hText]

/-! ## The blocks of stored parts -/

theorem StoredPart.text {role : String} (hRole : role ≠ "") {part : MessagePartRecord}
    (h : StoredPart role part) (hType : part.partType = .text) :
    blockFromPart environment part = textBlock (part.textContent.getD "") := by
  rw [h.block environment hRole]
  simp only [blockFromColumns, hType, blockFromColumns.textOfPart]

theorem StoredPart.agent {role : String} (hRole : role ≠ "") {part : MessagePartRecord}
    (h : StoredPart role part) (hType : part.partType = .agent) :
    ∃ text, blockFromPart environment part = textBlock text := by
  rw [h.block environment hRole]
  simp only [blockFromColumns, hType, blockFromColumns.textOfPart]
  split
  · exact ⟨_, rfl⟩
  · split
    · exact ⟨_, rfl⟩
    · exact ⟨_, rfl⟩

/-- The block in which a call of the columns is shown. -/
def callBlock (call : HistoryCall) : Message :=
  [("type", .str "toolCall"), ("id", .str call.id), ("name", .str call.name),
    ("arguments", call.arguments)]

theorem StoredPart.call {role : String} (hRole : role ≠ "") (hNot : role ≠ "toolResult")
    {part : MessagePartRecord} (h : StoredPart role part) (hType : part.partType = .tool)
    {call : HistoryCall} (hId : part.toolCallId = some call.id) (hIdText : call.id ≠ "")
    (hName : part.toolName = some call.name) (hNameText : call.name ≠ "")
    (hInput : part.toolInput = some (Json.dumps call.arguments))
    (hWell : Json.WellFormed environment.canonical call.arguments) :
    blockFromPart environment part = callBlock call.restored := by
  rw [h.block environment hRole]
  simp only [blockFromColumns, hType, Option.some.injEq, hNot, reduceCtorEq, or_self, if_false]
  unfold toolCallBlockFromPart
  simp only [hInput, parseStoredValue_dumps environment hWell, hId, hName,
    nonempty_of_ne hIdText, optional, nonempty_of_ne hNameText]
  obtain ⟨id, name, arguments⟩ := call
  cases arguments <;> rfl

end Stored

/-! ## The blocks of a message -/

def callOf (block : Json) : Option HistoryCall :=
  match block with
  | .obj fields => blockCall fields
  | _ => none

/-- The block that stands for a block of an assistant message or a tool result. -/
def restoredBlock (block : Json) : Message :=
  match block with
  | .obj fields =>
      match blockCall fields with
      | some call => callBlock call.restored
      | none => textBlock ((blockText fields).getD "")
  | _ => textBlock ""

/-- A typed block of a message: the calls stand in assistant messages and have an id, a
name and arguments, the results of blocks stand in user messages and have an id. -/
structure WellFormedBlock (role : String) (fields : Message) : Prop where
  typed : (blockType fields).isSome
  call : (blockType fields).any (callBlockTypes.contains ·) →
    role = "assistant" ∧ (blockCall fields).isSome
  result : (blockType fields).any (resultBlockTypes.contains ·) →
    role = "user" ∧ (firstString fields (toolCallIdAliases ++ ["id"])).isSome

theorem isToolRaw_eq (fields : Message) : isToolRaw (.obj fields) =
    ((blockType fields).any (callBlockTypes.contains ·) ||
      (blockType fields).any (resultBlockTypes.contains ·)) := by
  have hTypes : toolRawTypes = callBlockTypes ++ resultBlockTypes := rfl
  unfold isToolRaw blockType
  dsimp only
  cases hType : get? fields "type" with
  | none => rfl
  | some value =>
    cases value with
    | str type =>
      dsimp only
      rw [hTypes, List.contains_append]
      rfl
    | _ => rfl

theorem blockCall_spec {fields : Message} {call : HistoryCall} (h : blockCall fields = some call) :
    (blockType fields).any (callBlockTypes.contains ·) = true ∧
      firstString fields (toolCallIdAliases ++ ["id"]) = some call.id ∧
      firstString fields ["name", "toolName", "tool_name"] = some call.name ∧
      (["input", "arguments", "toolInput"].findSome? fun key => get? fields key) =
        some call.arguments := by
  unfold blockCall at h
  split at h
  · rename_i hType
    obtain ⟨id, hId, h⟩ := Option.bind_eq_some_iff.mp h
    obtain ⟨name, hName, h⟩ := Option.bind_eq_some_iff.mp h
    obtain ⟨arguments, hArguments, rfl⟩ := Option.map_eq_some_iff.mp h
    exact ⟨hType, hId, hName, hArguments⟩
  · cases h

theorem WellFormedBlock.blockCall_eq_none {role : String} {fields : Message}
    (h : WellFormedBlock role fields) (hRole : role ≠ "assistant") : blockCall fields = none := by
  cases hCall : blockCall fields with
  | none => rfl
  | some call => exact absurd (h.call (blockCall_spec hCall).1).1 hRole

theorem WellFormedBlock.isToolRaw_eq_false {role : String} {fields : Message}
    (h : WellFormedBlock role fields) (hCall : blockCall fields = none) (hRole : role ≠ "user") :
    isToolRaw (.obj fields) = false := by
  have hNoCall : (blockType fields).any (callBlockTypes.contains ·) = false := by
    refine Bool.eq_false_iff.mpr fun hType => ?_
    have hSome := (h.call hType).2
    rw [hCall] at hSome
    cases hSome
  have hNoResult : (blockType fields).any (resultBlockTypes.contains ·) = false :=
    Bool.eq_false_iff.mpr fun hType => hRole (h.result hType).1
  rw [isToolRaw_eq, hNoCall, hNoResult, Bool.false_or]

theorem wellFormed_get? {canonical : FloatText → FloatText} {fields : Message}
    (h : Json.WellFormed canonical (.obj fields)) {key : String} {value : Json}
    (hGet : get? fields key = some value) : Json.WellFormed canonical value :=
  Json.wellFormedFields_iff.mp h.2 _ (Json.mem_of_get? hGet)

/-- The tool calls of an assembled message. -/
def shownCalls (message : Message) : List HistoryCall :=
  match get? message "content" with
  | some (.arr items) => items.filterMap fun item =>
      match item with
      | .obj fields => shownCall fields
      | _ => none
  | _ => []

theorem shownCall_callBlock {call : HistoryCall} (hId : call.id ≠ "") (hName : call.name ≠ "") :
    shownCall (callBlock call) = some call := by
  have hBlock : isToolCallBlock (callBlock call) = true := rfl
  have hShownId : extractToolCallId (callBlock call) = some call.id := by
    have hText : safeString (some (.str call.id)) = some call.id := if_neg hId
    have hGet : get? (callBlock call) "id" = some (.str call.id) := rfl
    rw [extractToolCallId, firstString, List.findSome?_cons, hGet, hText]
  have hShownName : safeString (get? (callBlock call) "name") = some call.name := if_neg hName
  rw [shownCall, if_pos hBlock, hShownId, Option.bind_some, hShownName]
  rfl

/-- A message in one of the shapes that a history has. Assistant messages may be without
content; a tool message names its call, and its blocks name no other one. -/
structure WellFormedMessage (canonical : FloatText → FloatText) (message : Message) : Prop where
  value : Json.WellFormed canonical (.obj message)
  role : ∃ role ∈ ["user", "assistant", "tool", "toolResult"], roleOf message = some role
  blocks : ∀ role items, roleOf message = some role → get? message "content" = some (.arr items) →
    ∀ item ∈ items, ∃ fields, item = .obj fields ∧ WellFormedBlock role fields
  content : roleOf message ≠ some "assistant" →
    (∃ text, get? message "content" = some (.str text)) ∨
      ∃ items, get? message "content" = some (.arr items)
  identified : roleOf message = some "tool" ∨ roleOf message = some "toolResult" →
    ∃ id, topLevelToolCallId message = some id ∧
      ∀ items fields own, get? message "content" = some (.arr items) → .obj fields ∈ items →
        firstString fields toolCallIdAliases = some own → own = id

theorem originalRole_of_roleOf {message : Message} {role : String}
    (h : roleOf message = some role) : originalRole message = role := by
  unfold roleOf at h
  split at h
  · rename_i hRole
    cases h
    unfold originalRole
    rw [hRole]
  · cases h

section Rows

variable {environment : Environment} {strOf : Json → String} {sessionId : SessionId}
  {messageId : MessageId} {message : Message} {role : String}

/-- The row of a block reads back as the block that stands for it. -/
theorem blockFromPart_dictPart {fields : Message} (ordinal : Nat)
    (hName : originalRole message = role) (hRole : role ∈ ["assistant", "tool", "toolResult"])
    (hBlock : WellFormedBlock role fields)
    (hWell : Json.WellFormed environment.canonical (.obj fields)) :
    blockFromPart environment
        { dictPart sessionId message ordinal fields with messageId := messageId } =
      restoredBlock (.obj fields) := by
  have hStored := storedPart_dict sessionId message messageId ordinal fields
  rw [hName] at hStored
  have hNonempty : role ≠ "" := by
    rintro rfl
    exact absurd hRole (by decide)
  cases hCall : blockCall fields with
  | some call =>
    obtain ⟨hType, hId, hCallName, hArguments⟩ := blockCall_spec hCall
    obtain ⟨rfl, -⟩ := hBlock.call hType
    have hTool : isToolRaw (.obj fields) = true := by rw [isToolRaw_eq, hType, Bool.true_or]
    obtain ⟨key, -, hGet⟩ := List.exists_of_findSome?_eq_some hArguments
    rw [restoredBlock, hCall]
    refine hStored.call environment hNonempty (by decide) (if_pos hTool) ?_
      (firstString_ne_empty hId) ?_ (firstString_ne_empty hCallName) ?_
      (wellFormed_get? hWell hGet)
    · dsimp only [dictPart]
      rw [if_pos hTool, hId, Option.some_or]
    · dsimp only [dictPart]
      rw [hCallName, Option.some_or]
    · dsimp only [dictPart, serializedField]
      rw [hArguments]
  | none =>
    have hTool := hBlock.isToolRaw_eq_false hCall (by
      rintro rfl
      exact absurd hRole (by decide))
    rw [hStored.text environment hNonempty (if_neg (by rw [hTool]; simp)), restoredBlock, hCall]
    rfl

theorem map_mapIdx_of_pointwise {α β γ : Type} {f : Nat → α → β} {g : β → γ} {h : α → γ}
    {xs : List α} (hEach : ∀ i, ∀ x ∈ xs, g (f i x) = h x) : (xs.mapIdx f).map g = xs.map h := by
  induction xs generalizing f with
  | nil => rfl
  | cons x xs ih =>
    obtain hHead := hEach 0 x List.mem_cons_self
    rw [List.mapIdx_cons, List.map_cons, List.map_cons, hHead,
      ih fun i y hy => hEach (i + 1) y (List.mem_cons_of_mem _ hy)]

/-- The part rows of a message as they are stored. -/
def storedRows (strOf : Json → String) (sessionId : SessionId) (messageId : MessageId)
    (message : Message) (fallbackContent : String) : List MessagePartRecord :=
  Db.messagePartRows messageId (buildMessageParts strOf sessionId message fallbackContent)

theorem restored_list {items : List Json} {fallbackContent : String}
    (hMessage : WellFormedMessage environment.canonical message)
    (hName : roleOf message = some role) (hRole : role ∈ ["assistant", "tool", "toolResult"])
    (hItems : get? message "content" = some (.arr items)) :
    (storedRows strOf sessionId messageId message fallbackContent).map
      (blockFromPart environment) = items.map restoredBlock := by
  have hWell : ∀ item ∈ items, Json.WellFormed environment.canonical item :=
    Json.wellFormedItems_iff.mp (wellFormed_get? hMessage.value hItems)
  have hParts : buildMessageParts strOf sessionId message fallbackContent =
      items.mapIdx (blockPart strOf sessionId message) := by
    rw [buildMessageParts, hItems]
  rw [storedRows, hParts, Db.messagePartRows, List.map_map]
  refine map_mapIdx_of_pointwise fun i item hItem => ?_
  obtain ⟨fields, rfl, hBlock⟩ := hMessage.blocks role items hName hItems item hItem
  rw [Function.comp_apply, blockPart]
  exact blockFromPart_dictPart i (originalRole_of_roleOf hName) hRole hBlock (hWell _ hItem)

theorem restored_string {text fallbackContent : String} (hName : roleOf message = some role)
    (hNonempty : role ≠ "") (hText : get? message "content" = some (.str text)) :
    (storedRows strOf sessionId messageId message fallbackContent).map
      (blockFromPart environment) = [textBlock text] := by
  have hStored := storedPart_string sessionId message messageId text
  rw [originalRole_of_roleOf hName] at hStored
  rw [storedRows, buildMessageParts, hText]
  dsimp only [Db.messagePartRows]
  rw [List.map_cons, List.map_nil, List.map_cons, List.map_nil,
    hStored.text environment hNonempty rfl]
  rfl

theorem restored_other {fallbackContent : String} (hName : roleOf message = some role)
    (hNonempty : role ≠ "") (hText : ∀ text, get? message "content" ≠ some (.str text))
    (hItems : ∀ items, get? message "content" ≠ some (.arr items)) :
    ∃ text, (storedRows strOf sessionId messageId message fallbackContent).map
      (blockFromPart environment) = [textBlock text] := by
  have hParts : ∃ source, buildMessageParts strOf sessionId message fallbackContent =
      [agentPart sessionId message fallbackContent source] := by
    unfold buildMessageParts
    split
    · exact ⟨_, rfl⟩
    · rename_i hContent
      exact absurd hContent (hText _)
    · rename_i hContent
      exact absurd hContent (hItems _)
    · exact ⟨_, rfl⟩
  obtain ⟨source, hParts⟩ := hParts
  have hStored := storedPart_agent sessionId message messageId fallbackContent source
  rw [originalRole_of_roleOf hName] at hStored
  obtain ⟨text, hBlock⟩ := hStored.agent environment hNonempty rfl
  refine ⟨text, ?_⟩
  rw [storedRows, hParts]
  dsimp only [Db.messagePartRows]
  rw [List.map_cons, List.map_nil, List.map_cons, List.map_nil, hBlock]

/-! ## The calls of a restored message -/

def blockCalls (message : Message) : List HistoryCall :=
  match get? message "content" with
  | some (.arr items) => items.filterMap callOf
  | _ => []

/-- The blocks show these calls, and every call among them is complete. -/
structure RestoredCalls (calls : List HistoryCall) (blocks : List Message) : Prop where
  shown : blocks.filterMap shownCall = calls.map HistoryCall.restored
  complete : ∀ block ∈ blocks, isToolCallBlock block = true → (shownCall block).isSome = true

theorem shownCall_restoredBlock (item : Json) :
    shownCall (restoredBlock item) = (callOf item).map HistoryCall.restored ∧
      (isToolCallBlock (restoredBlock item) = true → (callOf item).isSome = true) := by
  unfold restoredBlock callOf
  cases item with
  | obj fields =>
    dsimp only
    cases hCall : blockCall fields with
    | none => exact ⟨rfl, fun hBlock => absurd hBlock (by simp [isToolCallBlock, blockType,
        textBlock, get?, toolCallTypes])⟩
    | some call =>
      obtain ⟨-, hId, hName, -⟩ := blockCall_spec hCall
      exact ⟨@shownCall_callBlock call.restored (firstString_ne_empty hId)
        (firstString_ne_empty hName), fun _ => rfl⟩
  | _ => exact ⟨rfl, fun hBlock => absurd hBlock (by simp [isToolCallBlock, blockType, textBlock,
      get?, toolCallTypes])⟩

theorem restoredCalls_list (items : List Json) :
    RestoredCalls (items.filterMap callOf) (items.map restoredBlock) := by
  constructor
  · rw [List.filterMap_map, List.map_filterMap]
    exact List.filterMap_congr fun item _ => (shownCall_restoredBlock item).1
  · intro block hBlock hCall
    obtain ⟨item, -, rfl⟩ := List.mem_map.mp hBlock
    obtain ⟨hShown, hSome⟩ := shownCall_restoredBlock item
    rw [hShown, Option.isSome_map]
    exact hSome hCall

theorem restoredCalls_text (text : String) : RestoredCalls [] [textBlock text] := by
  refine ⟨rfl, fun block hBlock hCall => ?_⟩
  rw [List.mem_singleton.mp hBlock] at hCall
  simp [isToolCallBlock, blockType, textBlock, get?, toolCallTypes] at hCall

/-- The blocks of an assistant message show its calls. -/
theorem restored_call {fallbackContent : String}
    (hMessage : WellFormedMessage environment.canonical message)
    (hName : roleOf message = some "assistant") :
    RestoredCalls (blockCalls message)
      ((storedRows strOf sessionId messageId message fallbackContent).map
        (blockFromPart environment)) := by
  unfold blockCalls
  split
  · rename_i items hItems
    rw [restored_list hMessage hName (by decide) hItems]
    exact restoredCalls_list items
  · rename_i hItems
    by_cases hText : ∃ text, get? message "content" = some (.str text)
    · obtain ⟨text, hText⟩ := hText
      rw [restored_string hName (by decide) hText]
      exact restoredCalls_text text
    · obtain ⟨text, hBlocks⟩ := @restored_other environment strOf sessionId messageId message
        "assistant" fallbackContent hName (by decide)
        (fun text hContent => hText ⟨text, hContent⟩) hItems
      rw [hBlocks]
      exact restoredCalls_text text

/-! ## Roles and identities -/

/-- The first row of a message, if there is one, knows its role. -/
theorem storedRows_cases {canonical : FloatText → FloatText} (fallbackContent : String)
    (hMessage : WellFormedMessage canonical message) (hName : roleOf message = some role) :
    storedRows strOf sessionId messageId message fallbackContent = [] ∧
        get? message "content" = some (.arr []) ∨
      ∃ part rest, storedRows strOf sessionId messageId message fallbackContent = part :: rest ∧
        StoredPart role part ∧
        (role = "tool" ∨ role = "toolResult" → part.toolCallId = topLevelToolCallId message) := by
  have hOriginal := originalRole_of_roleOf hName
  unfold storedRows buildMessageParts
  split
  · rename_i hContent
    refine Or.inr ⟨_, _, rfl, hOriginal ▸ storedPart_agent sessionId message messageId _ _, ?_⟩
    intro hTool
    rcases hMessage.content (by rw [hName]; rintro ⟨⟩; simp at hTool) with ⟨text, hSome⟩ |
      ⟨items, hSome⟩
    · rw [hContent] at hSome
      cases hSome
    · rw [hContent] at hSome
      cases hSome
  · rename_i text hContent
    exact Or.inr ⟨_, _, rfl, hOriginal ▸ storedPart_string sessionId message messageId _,
      fun _ => rfl⟩
  · rename_i items hContent
    cases items with
    | nil => exact Or.inl ⟨rfl, hContent⟩
    | cons item items =>
      obtain ⟨fields, rfl, hBlock⟩ := hMessage.blocks role _ hName hContent item
        List.mem_cons_self
      refine Or.inr ⟨_, _, by rw [List.mapIdx_cons]; rfl, hOriginal ▸ storedPart_dict sessionId
        message messageId 0 fields, fun hTool => ?_⟩
      have hCall := hBlock.blockCall_eq_none (by rintro rfl; simp at hTool)
      have hRaw := hBlock.isToolRaw_eq_false hCall (by rintro rfl; simp at hTool)
      obtain ⟨id, hId, hOwn⟩ := hMessage.identified (by rw [hName]; simpa using hTool)
      show (firstString fields (toolCallIdAliases ++
        if isToolRaw (.obj fields) = true then ["id"] else [])).or _ = _
      rw [hRaw, if_neg (by simp), List.append_nil]
      cases hAlias : firstString fields toolCallIdAliases with
      | none => rfl
      | some own =>
        rw [hOwn _ fields own hContent List.mem_cons_self hAlias, hId]
        rfl
  · rename_i hString hArray hContent
    refine Or.inr ⟨_, _, rfl, hOriginal ▸ storedPart_agent sessionId message messageId _ _, ?_⟩
    intro hTool
    rcases hMessage.content (by rw [hName]; rintro ⟨⟩; simp at hTool) with ⟨text, hSome⟩ |
      ⟨items, hSome⟩
    · rw [hContent] at hSome
      exact absurd (Option.some.inj hSome) (hString text)
    · rw [hContent] at hSome
      exact absurd (Option.some.inj hSome) (hArray items)

/-- The role at run time of a message whose parts know its role. -/
def restoredRole (role : String) : RuntimeRole :=
  if role = "assistant" then .assistant else if role = "user" then .user else .toolResult

theorem toRuntimeRole_stored {parts : List MessagePartRecord}
    (hRole : role ∈ ["user", "assistant", "tool", "toolResult"])
    (hParts : parts = [] ∨ ∃ part rest, parts = part :: rest ∧ StoredPart role part) :
    toRuntimeRole environment (toDbRole (some (.str role))) parts = restoredRole role := by
  have hNonempty : role ≠ "" := by
    rintro rfl
    exact absurd hRole (by decide)
  rcases hParts with rfl | ⟨part, rest, rfl, hStored⟩
  · have hNone : getOriginalRole environment [] = none := rfl
    unfold toRuntimeRole
    rw [hNone]
    simp only [List.mem_cons, List.not_mem_nil, or_false] at hRole
    rcases hRole with rfl | rfl | rfl | rfl <;> rfl
  · unfold toRuntimeRole
    rw [getOriginalRole_stored environment hNonempty hStored]
    simp only [List.mem_cons, List.not_mem_nil, or_false] at hRole
    rcases hRole with rfl | rfl | rfl | rfl <;> rfl

theorem pickToolCallId_cons {part : MessagePartRecord} {id : String}
    (hId : part.toolCallId = some id) (hText : id ≠ "") (rest : List MessagePartRecord) :
    pickToolCallId environment (part :: rest) = some id := by
  rw [pickToolCallId, pickToolString, List.findSome?_cons, hId, nonempty_of_ne hText,
    Option.some_or]

theorem contentFromParts_of_ne_user {parts : List MessagePartRecord} (hParts : parts ≠ [])
    {runtimeRole : RuntimeRole} (hUser : runtimeRole ≠ .user) (fallbackContent : String) :
    contentFromParts environment parts runtimeRole fallbackContent =
      .arr ((parts.map (blockFromPart environment)).map .obj) := by
  unfold contentFromParts
  rw [if_neg (by simpa using hParts)]
  cases runtimeRole with
  | user => exact absurd rfl hUser
  | assistant => rfl
  | toolResult => rfl

/-! ## Messages from the store -/

/-- A row and its parts are what ingest writes for a message. -/
structure Stores (strOf : Json → String) (sessionId : SessionId) (db : Db) (message : Message)
    (record : MessageRecord) : Prop where
  found : db.getMessageById record.messageId = some record
  role : record.role = toDbRole (get? message "role")
  content : record.content = extractMessageContent (get? message "content")
  parts : db.getMessageParts record.messageId =
    storedRows strOf sessionId record.messageId message record.content

/-- An assembled assistant message with these calls. -/
structure RestoredAssistant (calls : List HistoryCall) (shown : Message) : Prop where
  role : roleOf shown = some "assistant"
  completed : isFailedStop shown = false
  content : ∃ blocks, get? shown "content" = some (.arr (blocks.map .obj)) ∧
    RestoredCalls calls blocks

/-- An assembled tool result that comes from the store. -/
structure RestoredResult (id : String) (blocks : List Message) (shown : Message) : Prop where
  role : roleOf shown = some "toolResult"
  id : extractToolResultId shown = some id
  content : get? shown "content" = some (.arr (blocks.map .obj))
  real : ∀ call, shown ≠ makeMissingToolResult call

/-- The blocks in which the content of a tool message is shown. -/
def payloadBlocks (content : Json) : List Message :=
  match content with
  | .str text => [textBlock text]
  | .arr items => items.map restoredBlock
  | _ => []

variable {db : Db} {record : MessageRecord}

theorem get?_of_roleOf (hName : roleOf message = some role) :
    get? message "role" = some (.str role) := by
  unfold roleOf at hName
  split at hName
  · cases hName
    assumption
  · cases hName

theorem Stores.runtimeRole (h : Stores strOf sessionId db message record)
    (hMessage : WellFormedMessage environment.canonical message)
    (hName : roleOf message = some role) :
    toRuntimeRole environment record.role (db.getMessageParts record.messageId) =
      restoredRole role := by
  obtain ⟨found, hRole, hFound⟩ := hMessage.role
  rw [hName, Option.some.injEq] at hFound
  subst hFound
  rw [h.role, get?_of_roleOf hName, h.parts]
  refine toRuntimeRole_stored hRole ?_
  rcases @storedRows_cases strOf sessionId record.messageId message _
    environment.canonical record.content hMessage hName with ⟨hNil, -⟩ |
    ⟨part, rest, hRows, hStored, -⟩
  · exact Or.inl hNil
  · exact Or.inr ⟨part, rest, hRows, hStored⟩

theorem resolve_user (h : Stores strOf sessionId db message record)
    (hMessage : WellFormedMessage environment.canonical message)
    (hName : roleOf message = some "user") (ordinal : Int) :
    ∃ item, resolveMessageItem environment db ordinal record.messageId = some item ∧
      roleOf item.message = some "user" := by
  have hRole := h.runtimeRole hMessage hName
  have hDb : record.role = .user := by rw [h.role, get?_of_roleOf hName]; rfl
  rw [resolveMessageItem, h.found]
  dsimp only
  rw [if_neg (by rw [hDb]; simp)]
  refine ⟨_, rfl, ?_⟩
  dsimp only [runtimeIdentity]
  rw [hRole]
  rfl

theorem runtimeMessage_assistant (identity : RuntimeIdentity) (hRole : identity.role = .assistant)
    {calls : List HistoryCall} {blocks : List Message} (hCalls : RestoredCalls calls blocks) :
    RestoredAssistant calls (runtimeMessage identity (.arr (blocks.map .obj))) := by
  unfold runtimeMessage
  rw [hRole]
  exact ⟨rfl, rfl, blocks, rfl, hCalls⟩

/-- An assistant message comes back with the calls of its blocks. One without content
may be dropped. -/
theorem resolve_assistant (h : Stores strOf sessionId db message record)
    (hMessage : WellFormedMessage environment.canonical message)
    (hName : roleOf message = some "assistant") (ordinal : Int) :
    resolveMessageItem environment db ordinal record.messageId = none ∧ blockCalls message = [] ∨
      ∃ item, resolveMessageItem environment db ordinal record.messageId = some item ∧
        RestoredAssistant (blockCalls message) item.message := by
  have hRole := h.runtimeRole hMessage hName
  have hIdentity : runtimeIdentity environment record (db.getMessageParts record.messageId) =
      { role := .assistant, toolCallId := none, toolName := none, isError := none } := by
    unfold runtimeIdentity
    rw [hRole]
    rfl
  have hBlocks := @restored_call environment strOf sessionId record.messageId message
    record.content hMessage hName
  rw [resolveMessageItem, h.found]
  dsimp only
  rw [hIdentity, h.parts]
  rcases @storedRows_cases strOf sessionId record.messageId message _
    environment.canonical record.content hMessage hName with ⟨hNil, hContent⟩ |
    ⟨part, rest, hRows, -, -⟩
  · have hText : record.content = "" := by rw [h.content, hContent]; rfl
    have hDb : record.role = .assistant := by rw [h.role, get?_of_roleOf hName]; rfl
    rw [hNil, if_pos ⟨hDb, by rw [hText]; rfl, rfl⟩]
    exact Or.inl ⟨rfl, by rw [blockCalls, hContent]; rfl⟩
  · have hNe : storedRows strOf sessionId record.messageId message record.content ≠ [] := by
      rw [hRows]
      exact List.cons_ne_nil _ _
    rw [if_neg (by rw [List.isEmpty_iff]; exact fun hEmpty => hNe hEmpty.2.2),
      contentFromParts_of_ne_user hNe (by simp)]
    refine Or.inr ⟨_, rfl, ?_⟩
    dsimp only
    exact runtimeMessage_assistant _ rfl hBlocks

theorem payloadBlocks_eq (hMessage : WellFormedMessage environment.canonical message)
    (hName : roleOf message = some role) (hTool : role = "tool" ∨ role = "toolResult")
    (fallbackContent : String) :
    (storedRows strOf sessionId messageId message fallbackContent).map
      (blockFromPart environment) = payloadBlocks ((get? message "content").getD .null) := by
  have hRole : role ∈ ["assistant", "tool", "toolResult"] := by
    rcases hTool with rfl | rfl <;> decide
  have hNotAssistant : roleOf message ≠ some "assistant" := by
    rw [hName]
    rcases hTool with rfl | rfl <;> simp
  rcases hMessage.content hNotAssistant with ⟨text, hText⟩ | ⟨items, hItems⟩
  · rw [restored_string hName (by rcases hTool with rfl | rfl <;> simp) hText, hText]
    rfl
  · rw [restored_list hMessage hName hRole hItems, hItems]
    rfl

theorem runtimeMessage_result {identity : RuntimeIdentity} (hRole : identity.role = .toolResult)
    {id : String} (hId : identity.toolCallId = some id) (hText : id ≠ "") (blocks : List Message) :
    RestoredResult id blocks (runtimeMessage identity (.arr (blocks.map .obj))) := by
  have hOptional : optional identity.toolCallId = .str id := by
    rw [optional, hId, nonempty_of_ne hText]
  obtain ⟨hContent, hShownRole⟩ :
      get? (runtimeMessage identity (.arr (blocks.map .obj))) "content" =
      some (.arr (blocks.map .obj)) ∧
      roleOf (runtimeMessage identity (.arr (blocks.map .obj))) = some "toolResult" := by
    unfold runtimeMessage
    rw [hRole]
    exact ⟨rfl, rfl⟩
  refine ⟨hShownRole, ?_, hContent, fun call hSame => ?_⟩
  · have hGet : get? (runtimeMessage identity (.arr (blocks.map .obj))) "toolCallId" =
        some (.str id) := by
      unfold runtimeMessage
      rw [hRole, hOptional]
      rfl
    rw [extractToolResultId, firstString, List.findSome?_cons, hGet, safeString, if_neg hText]
  · unfold runtimeMessage makeMissingToolResult at hSame
    rw [hRole] at hSame
    simp at hSame

/-- A tool message comes back as the result with its id, unless it has an empty list as
its content. -/
theorem resolve_tool (h : Stores strOf sessionId db message record)
    (hMessage : WellFormedMessage environment.canonical message)
    (hName : roleOf message = some role) (hTool : role = "tool" ∨ role = "toolResult")
    {id : String} (hId : topLevelToolCallId message = some id) (ordinal : Int) :
    ∃ item, resolveMessageItem environment db ordinal record.messageId = some item ∧
      (payloadBlocks ((get? message "content").getD .null) = [] ∧
          RestoredAssistant [] item.message ∨
        payloadBlocks ((get? message "content").getD .null) ≠ [] ∧
          RestoredResult id (payloadBlocks ((get? message "content").getD .null))
            item.message) := by
  have hRole : toRuntimeRole environment record.role (db.getMessageParts record.messageId) =
      .toolResult := by
    rw [h.runtimeRole hMessage hName]
    rcases hTool with rfl | rfl <;> rfl
  have hDb : record.role = .tool := by
    rw [h.role, get?_of_roleOf hName]
    rcases hTool with rfl | rfl <;> rfl
  have hPayload := @payloadBlocks_eq environment strOf sessionId record.messageId message role
    hMessage hName hTool record.content
  have hIdText : id ≠ "" := firstString_ne_empty hId
  rw [resolveMessageItem, h.found]
  dsimp only
  rw [if_neg (by rw [hDb]; simp), runtimeIdentity, hRole]
  dsimp only
  rw [h.parts]
  refine ⟨_, rfl, ?_⟩
  dsimp only
  rcases @storedRows_cases strOf sessionId record.messageId message _
    environment.canonical record.content hMessage hName with ⟨hNil, hContent⟩ |
    ⟨part, rest, hRows, -, hOwn⟩
  · have hEmpty : payloadBlocks ((get? message "content").getD .null) = [] := by
      rw [← hPayload, hNil]
      rfl
    have hText : record.content = "" := by rw [h.content, hContent]; rfl
    have hNone : pickToolCallId environment [] = none := rfl
    have hArr : contentFromParts environment [] .assistant "" = .arr [] := rfl
    rw [hNil, hNone, hText, if_pos Option.isNone_none, hArr]
    refine Or.inl ⟨hEmpty, @runtimeMessage_assistant _ rfl [] [] ⟨rfl, ?_⟩⟩
    exact fun _ hBlock => absurd hBlock List.not_mem_nil
  · have hNe : storedRows strOf sessionId record.messageId message record.content ≠ [] := by
      rw [hRows]
      exact List.cons_ne_nil _ _
    have hPick : pickToolCallId environment
        (storedRows strOf sessionId record.messageId message record.content) = some id := by
      rw [hRows]
      exact pickToolCallId_cons ((hOwn hTool).trans hId) hIdText rest
    rw [hPick, contentFromParts_of_ne_user hNe (by simp), hPayload]
    refine Or.inr ⟨fun hEmpty => ?_, runtimeMessage_result rfl rfl hIdText _⟩
    rw [← hPayload] at hEmpty
    exact hNe (List.map_eq_nil_iff.mp hEmpty)

end Rows

end LosslessHermes.Assembler
