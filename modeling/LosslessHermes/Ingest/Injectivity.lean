import Mathlib.Algebra.Order.BigOperators.Group.List
import Mathlib.Algebra.Order.Group.Nat
import LosslessHermes.Ingest.Encode
import Mathlib.Algebra.GroupWithZero.Nat

/-!
# What the stored rows say about the content

The rows of a message are its text fallback and its parts. The text fallback
of a list is the whole list in JSON unless the list holds tool blocks only;
there it is blank, and the part columns record a fixed set of fields of each
block (`storedRows_determine_content_iff`).
-/

namespace LosslessHermes

open Json (get?)

/-- What is stored of a message, generated ids and timestamps aside. -/
structure StoredRows where
  role : MessageRole
  content : String
  parts : List CreateMessagePartInput
  deriving DecidableEq, Repr

def storedRows (strOf : Json → String) (sessionId : SessionId) (message : Message) : StoredRows :=
  let fallbackContent := extractMessageContent (get? message "content")
  { role := toDbRole (get? message "role")
    content := fallbackContent
    parts := buildMessageParts strOf sessionId message fallbackContent }

/-- The contents under consideration: a string or a list, built of dictionaries
with distinct keys. -/
def IsContent (content : Json) : Prop :=
  ((∃ text, content = .str text) ∨ ∃ blocks, content = .arr blocks) ∧ content.WellFormed id

/-- A non-empty list of tool blocks. -/
def isToolOnly (content : Json) : Bool :=
  match content with
  | .arr blocks => !blocks.isEmpty && blocks.all isToolRaw
  | _ => false

/-! ## A field that no column records -/

/-- A key longer than every key of a dictionary and every key the columns are
read from. -/
def freshKey (fields : Message) : String :=
  String.ofList (List.replicate (20 + (fields.map fun f => f.1.length).sum) 'x')

theorem freshKey_length (fields : Message) :
    (freshKey fields).length = 20 + (fields.map fun f => f.1.length).sum := by
  simp [freshKey]

variable {fields : Message} {key : String}

theorem ne_freshKey (h : key.length < 20) :
    key ≠ freshKey fields := by
  intro hEq
  have := freshKey_length fields
  rw [← hEq] at this
  omega

theorem freshKey_notMem (fields : Message) : freshKey fields ∉ fields.map (·.1) := by
  intro hMem
  obtain ⟨f, hf, hEq⟩ := List.mem_map.mp hMem
  have hLe : f.1.length ≤ (fields.map fun f => f.1.length).sum :=
    List.single_le_sum (fun _ _ => Nat.zero_le _) _ (List.mem_map.mpr ⟨f, hf, rfl⟩)
  have := freshKey_length fields
  rw [← hEq] at this
  omega

/-- A dictionary with one more entry, under a key nobody reads. -/
def withFreshField (fields : Message) : Message :=
  fields ++ [(freshKey fields, .null)]

theorem get?_withFreshField (fields : Message) (h : key.length < 20) :
    get? (withFreshField fields) key = get? fields key := by
  have hNe : (key == freshKey fields) = false := beq_false_of_ne (ne_freshKey h)
  simp [get?, withFreshField, List.lookup_append, List.lookup_cons, hNe]

theorem firstString_withFreshField (fields : Message) {aliases : List String}
    (h : ∀ key ∈ aliases, key.length < 20) :
    firstString (withFreshField fields) aliases = firstString fields aliases := by
  unfold firstString
  induction aliases with
  | nil => rfl
  | cons key aliases ih =>
    rw [List.findSome?_cons, List.findSome?_cons,
      get?_withFreshField fields (h key List.mem_cons_self),
      ih fun k hk => h k (List.mem_cons_of_mem _ hk)]

theorem serializedField_withFreshField (fields : Message) {aliases : List String}
    {rawAlias : String} (h : ∀ key ∈ aliases, key.length < 20) (hRaw : rawAlias.length < 20) :
    serializedField (withFreshField fields) aliases rawAlias =
      serializedField fields aliases rawAlias := by
  unfold serializedField
  rw [get?_withFreshField fields hRaw]
  congr 1
  induction aliases with
  | nil => rfl
  | cons key aliases ih =>
    rw [List.findSome?_cons, List.findSome?_cons,
      get?_withFreshField fields (h key List.mem_cons_self),
      ih fun k hk => h k (List.mem_cons_of_mem _ hk)]

theorem isToolRaw_withFreshField (fields : Message) :
    isToolRaw (.obj (withFreshField fields)) = isToolRaw (.obj fields) := by
  simp only [isToolRaw, get?_withFreshField fields (by decide : "type".length < 20)]

theorem dictPart_withFreshField (sessionId : SessionId) (message : Message) (ordinal : Nat)
    (fields : Message) :
    dictPart sessionId message ordinal (withFreshField fields) =
      dictPart sessionId message ordinal fields := by
  have hId : ∀ b : Bool, ∀ key ∈ toolCallIdAliases ++ (if b then ["id"] else []),
      key.length < 20 := by decide
  have hName : ∀ key ∈ ["name", "toolName", "tool_name"], key.length < 20 := by decide
  have hInput : ∀ key ∈ ["input", "arguments", "toolInput"], key.length < 20 := by decide
  have hOutput : ∀ key ∈ ["output", "toolOutput"], key.length < 20 := by decide
  simp only [dictPart, isToolRaw_withFreshField, firstString_withFreshField fields (hId _),
    firstString_withFreshField fields hName,
    serializedField_withFreshField fields hInput (by decide : "tool_input".length < 20),
    serializedField_withFreshField fields hOutput (by decide : "tool_output".length < 20),
    blockText, get?_withFreshField fields (by decide : "text".length < 20),
    get?_withFreshField fields (by decide : "content".length < 20),
    get?_withFreshField fields (by decide : "type".length < 20)]

/-! ## The text fallback of a list is longer than any text in it -/

variable {text : String}

theorem length_text_le (h : get? fields key = some (.str text)) :
    text.length < (Json.dumps (.arr [.obj fields])).length := by
  have hMem : (key, Json.str text) ∈ fields := Json.mem_of_get? h
  have hField := Json.length_le_dumpsFields hMem
  have hText := Json.length_add_two_le_quote text
  rw [Json.length_dumps]
  simp only [Json.dumpsChars, Json.dumpsItems, Json.separator, List.length_append,
    List.length_cons] at hField ⊢
  omega

theorem blockText_length (h : blockText fields = some text) :
    text.length < (Json.dumps (.arr [.obj fields])).length := by
  unfold blockText at h
  split at h
  · rename_i hText
    cases h
    exact length_text_le hText
  · split at h
    · rename_i hText
      cases h
      exact length_text_le hText
    · cases h

/-! ## A string and a list have different parts -/

theorem toJsonMetadata_injective {record record' : List (String × Option Json)}
    (h : toJsonMetadata record = toJsonMetadata record')
    (hWell : (Json.obj (cleaned record)).WellFormed id)
    (hWell' : (Json.obj (cleaned record')).WellFormed id) : cleaned record = cleaned record' := by
  unfold toJsonMetadata at h
  split at h <;> split at h
  · rename_i hNil hNil'
    rw [List.isEmpty_iff.mp hNil, List.isEmpty_iff.mp hNil']
  · cases h
  · cases h
  · exact Json.obj.inj (Json.dumps_injective hWell hWell' (Option.some.inj h))

/-- The metadata of a string part never names a source. -/
theorem stringPart_ne_nonDictPart (strOf : Json → String) (sessionId : SessionId)
    (message message' : Message) (content : String) (ordinal : Nat) (block : Json) :
    stringPart sessionId message content ≠
      nonDictPart strOf sessionId message' ordinal block := by
  intro h
  have hMetadata : toJsonMetadata
      [("originalRole", some (.str (originalRole message))),
        ("isError", (topLevelIsError message).map .bool)] =
      toJsonMetadata [("originalRole", some (.str (originalRole message'))),
        ("source", some (.str "non-dict-block"))] :=
    congrArg CreateMessagePartInput.metadata h
  cases hError : topLevelIsError message <;>
  · rw [hError] at hMetadata
    have hEq := toJsonMetadata_injective hMetadata
      (by simp [cleaned, Json.WellFormed, Json.WellFormedFields])
      (by simp [cleaned, Json.WellFormed, Json.WellFormedFields])
    simp [cleaned] at hEq

theorem extractMessageContent_arr (blocks : List Json) :
    extractMessageContent (some (.arr blocks)) =
      if blocks.all isToolRaw then "" else Json.dumps (.arr blocks) := by
  cases blocks <;> rfl

variable {message : Message} {blocks : List Json}

theorem buildMessageParts_arr
    (h : get? message "content" = some (.arr blocks)) (strOf : Json → String)
    (sessionId : SessionId) (fallbackContent : String) :
    buildMessageParts strOf sessionId message fallbackContent =
      blocks.mapIdx (blockPart strOf sessionId message) := by
  simp only [buildMessageParts, h]

theorem buildMessageParts_str {content : String}
    (h : get? message "content" = some (.str content)) (strOf : Json → String)
    (sessionId : SessionId) (fallbackContent : String) :
    buildMessageParts strOf sessionId message fallbackContent =
      [stringPart sessionId message content] := by
  simp only [buildMessageParts, h]

variable {strOf : Json → String} {sessionId : SessionId}

theorem blockPart_of_not_obj {block : Json} (h : ∀ fields, block ≠ .obj fields) {ordinal : Nat} :
    blockPart strOf sessionId message ordinal block =
      nonDictPart strOf sessionId message ordinal block := by
  cases block with
  | obj fields => exact absurd rfl (h fields)
  | _ => rfl

theorem blockPart_partType (strOf : Json → String) (sessionId : SessionId) (message : Message)
    (ordinal : Nat) (block : Json) :
    (blockPart strOf sessionId message ordinal block).partType = .tool ↔
      isToolRaw block = true := by
  cases block with
  | obj fields => cases h : isToolRaw (.obj fields) <;> simp [blockPart, dictPart, h]
  | _ => simp [blockPart, nonDictPart, isToolRaw]

theorem all_partType (strOf : Json → String) (sessionId : SessionId) (message : Message)
    (blocks : List Json) :
    (∀ p ∈ blocks.mapIdx (blockPart strOf sessionId message), p.partType = .tool) ↔
      blocks.all isToolRaw = true := by
  rw [List.all_eq_true]
  constructor
  · intro h block hBlock
    obtain ⟨i, hi, rfl⟩ := List.mem_iff_getElem.mp hBlock
    exact (blockPart_partType strOf sessionId message i _).mp
      (h _ (List.mem_mapIdx.mpr ⟨i, hi, rfl⟩))
  · intro h p hp
    obtain ⟨i, hi, rfl⟩ := List.mem_mapIdx.mp hp
    exact (blockPart_partType strOf sessionId message i _).mpr (h _ (List.getElem_mem hi))

theorem string_list_parts_ne {message' : Message}
    (hText : text = extractMessageContent (some (.arr blocks)))
    (hParts : [stringPart sessionId message text] =
      blocks.mapIdx (blockPart strOf sessionId message')) : False := by
  have hLength := congrArg List.length hParts
  simp only [List.length_singleton, List.length_mapIdx] at hLength
  obtain ⟨block, rfl⟩ := List.length_eq_one_iff.mp hLength.symm
  have hPart : stringPart sessionId message text = blockPart strOf sessionId message' 0 block :=
    (List.cons.inj hParts).1
  cases block with
  | obj fields =>
    have hType := congrArg CreateMessagePartInput.partType hPart
    cases hTool : isToolRaw (.obj fields) with
    | true => simp [stringPart, blockPart, dictPart, hTool] at hType
    | false =>
      have hBlockText : blockText fields = some text :=
        (congrArg CreateMessagePartInput.textContent hPart).symm
      have hLt := blockText_length hBlockText
      rw [extractMessageContent_arr, if_neg (by simp [hTool])] at hText
      rw [← hText] at hLt
      exact absurd hLt (lt_irrefl _)
  | _ =>
    rw [blockPart_of_not_obj (by simp)] at hPart
    exact stringPart_ne_nonDictPart _ _ _ _ _ _ _ hPart

/-! ## The rows determine the content -/

theorem content_eq_of_storedRows {message' : Message} {content content' : Json}
    (hMessage : get? message "content" = some content)
    (hMessage' : get? message' "content" = some content')
    (hContent : IsContent content) (hContent' : IsContent content')
    (hTool : isToolOnly content = false)
    (hRows : storedRows strOf sessionId message = storedRows strOf sessionId message') :
    content' = content := by
  have hText : extractMessageContent (some content) = extractMessageContent (some content') := by
    simpa only [storedRows, hMessage, hMessage'] using congrArg StoredRows.content hRows
  have hParts := congrArg StoredRows.parts hRows
  simp only [storedRows] at hParts
  rcases hContent.1 with ⟨text, rfl⟩ | ⟨blocks, rfl⟩ <;>
    rcases hContent'.1 with ⟨text', rfl⟩ | ⟨blocks', rfl⟩
  · exact congrArg Json.str hText.symm
  · rw [buildMessageParts_str hMessage, buildMessageParts_arr hMessage'] at hParts
    exact (string_list_parts_ne hText hParts).elim
  · rw [buildMessageParts_arr hMessage, buildMessageParts_str hMessage'] at hParts
    exact (string_list_parts_ne hText.symm hParts.symm).elim
  · rw [buildMessageParts_arr hMessage, buildMessageParts_arr hMessage'] at hParts
    have hAll := all_partType strOf sessionId message blocks
    rw [hParts, all_partType strOf sessionId message' blocks'] at hAll
    rw [extractMessageContent_arr, extractMessageContent_arr] at hText
    cases hBlocks : blocks.all isToolRaw with
    | false =>
      have hBlocks' : blocks'.all isToolRaw = false := by
        rw [Bool.eq_false_iff] at hBlocks ⊢
        exact fun h => hBlocks (hAll.mp h)
      rw [hBlocks, hBlocks'] at hText
      exact (Json.dumps_injective hContent.2 hContent'.2 hText).symm
    | true =>
      have hNil : blocks = [] := by
        simpa [isToolOnly, hBlocks] using hTool
      subst hNil
      have hLength := congrArg List.length hParts
      simp only [List.length_mapIdx, List.length_nil] at hLength
      rw [List.eq_nil_of_length_eq_zero hLength.symm]

theorem isContent_withFreshField (h : IsContent (.arr (.obj fields :: blocks))) :
    IsContent (.arr (.obj (withFreshField fields) :: blocks)) := by
  obtain ⟨-, hWell⟩ := h
  refine ⟨Or.inr ⟨_, rfl⟩, ?_⟩
  rw [Json.WellFormed, Json.wellFormedItems_iff] at hWell ⊢
  intro v hv
  rcases List.mem_cons.mp hv with rfl | hv
  · obtain ⟨hNodup, hFields⟩ := hWell _ List.mem_cons_self
    refine ⟨?_, ?_⟩
    · simp only [withFreshField, List.map_append, List.map_cons, List.map_nil]
      refine List.Nodup.append hNodup (List.nodup_singleton _) ?_
      rw [List.disjoint_singleton]
      exact freshKey_notMem fields
    · rw [Json.wellFormedFields_iff] at hFields ⊢
      intro f hf
      rcases List.mem_append.mp hf with hf | hf
      · exact hFields f hf
      · rw [List.mem_singleton.mp hf]
        trivial
  · exact hWell v (List.mem_cons_of_mem _ hv)

/-- Two messages with the same role store the same rows and still differ in
content, for every role and every non-empty list of tool blocks. -/
theorem exists_storedRows_eq (strOf : Json → String) (sessionId : SessionId) (role : Json)
    {content : Json} (hContent : IsContent content) (hTool : isToolOnly content = true) :
    ∃ content', content' ≠ content ∧ IsContent content' ∧
      storedRows strOf sessionId [("role", role), ("content", content)] =
        storedRows strOf sessionId [("role", role), ("content", content')] := by
  cases content with
  | arr blocks =>
    simp only [isToolOnly, Bool.and_eq_true, Bool.not_eq_true', List.isEmpty_eq_false_iff]
      at hTool
    obtain ⟨hNe, hAll⟩ := hTool
    obtain ⟨block, blocks, rfl⟩ := List.exists_cons_of_ne_nil hNe
    obtain ⟨hBlock, hBlocks⟩ : isToolRaw block = true ∧ blocks.all isToolRaw = true := by
      simpa using hAll
    cases block with
    | obj fields =>
      refine ⟨.arr (.obj (withFreshField fields) :: blocks), ?_,
        isContent_withFreshField hContent, ?_⟩
      · intro hEq
        have hFields : withFreshField fields = fields :=
          Json.obj.inj (List.cons.inj (Json.arr.inj hEq)).1
        have := congrArg List.length hFields
        simp [withFreshField] at this
      · have hAll' : (Json.obj (withFreshField fields) :: blocks).all isToolRaw = true := by
          rw [List.all_cons, isToolRaw_withFreshField, hBlock, hBlocks]
          rfl
        have hGet : ∀ c, get? [("role", role), ("content", c)] "content" = some c :=
          fun _ => rfl
        -- no column of a part is read from the content as a whole
        have hPart : ∀ c c' : Json,
            blockPart strOf sessionId [("role", role), ("content", c)] =
              blockPart strOf sessionId [("role", role), ("content", c')] :=
          fun _ _ => rfl
        simp only [storedRows, hGet, extractMessageContent_arr, hAll, hAll', if_true,
          buildMessageParts_arr (hGet _)]
        rw [hPart _ .null, hPart (.arr (.obj (withFreshField fields) :: blocks)) .null]
        simp only [List.mapIdx_cons, blockPart, dictPart_withFreshField]
        rfl
    | _ => simp [isToolRaw] at hBlock
  | _ => simp [isToolOnly] at hTool

/-- **The stored rows determine exactly the contents that are not a non-empty
list of tool blocks.** -/
theorem storedRows_determine_content_iff (strOf : Json → String) (sessionId : SessionId)
    (role : Json) {content : Json} (hContent : IsContent content) :
    (∀ message message' : Message, ∀ content' : Json,
      get? message "role" = some role → get? message' "role" = some role →
      get? message "content" = some content → get? message' "content" = some content' →
      IsContent content' →
      storedRows strOf sessionId message = storedRows strOf sessionId message' →
      content' = content) ↔ isToolOnly content = false := by
  constructor
  · intro h
    rw [Bool.eq_false_iff]
    intro hTool
    obtain ⟨content', hNe, hContent', hRows⟩ :=
      exists_storedRows_eq strOf sessionId role hContent hTool
    exact hNe (h _ _ content' rfl rfl rfl rfl hContent' hRows)
  · intro hTool message message' content' _ _ hMessage hMessage' hContent' hRows
    exact content_eq_of_storedRows hMessage hMessage' hContent hContent' hTool hRows

/-- A tool result whose payload is a list of text blocks. -/
def toolResultContent (payload : String) : Json :=
  .arr [.obj [("type", .str "tool_result"), ("tool_use_id", .str "call_1"),
    ("content", .arr [.obj [("type", .str "text"), ("text", .str payload)]])]]

theorem isContent_toolResultContent (payload : String) :
    IsContent (toolResultContent payload) := by
  refine ⟨Or.inr ⟨_, rfl⟩, ?_⟩
  simp [toolResultContent, Json.WellFormed, Json.WellFormedItems, Json.WellFormedFields]

theorem storedRows_determine_content_iff_toolResult :
    IsContent (toolResultContent "42") ∧
      ¬ ∀ message message' : Message, ∀ content' : Json,
        get? message "role" = some (.str "user") → get? message' "role" = some (.str "user") →
        get? message "content" = some (toolResultContent "42") →
        get? message' "content" = some content' → IsContent content' →
        storedRows (fun _ => "") "s" message = storedRows (fun _ => "") "s" message' →
        content' = toolResultContent "42" := by
  refine ⟨isContent_toolResultContent _, fun h => ?_⟩
  have hTool := (storedRows_determine_content_iff (fun _ => "") "s" (.str "user")
    (isContent_toolResultContent "42")).mp h
  exact absurd hTool (by decide)

/-- The payload of a tool result that is a list is in no row. -/
theorem storedRows_lose_nested_payload :
    ¬ ∀ message message' : Message, ∀ content content' : Json,
      get? message "role" = get? message' "role" →
      get? message "content" = some content → get? message' "content" = some content' →
      IsContent content → IsContent content' →
      storedRows (fun _ => "") "s" message = storedRows (fun _ => "") "s" message' →
      content = content' := by
  intro h
  have hEq := h [("role", .str "user"), ("content", toolResultContent "42")]
    [("role", .str "user"), ("content", toolResultContent "43")] _ _ rfl rfl rfl
    (isContent_toolResultContent _) (isContent_toolResultContent _) (by decide)
  simp [toolResultContent] at hEq

end LosslessHermes
