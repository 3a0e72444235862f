import LosslessHermes.Assembler.Resolve
import LosslessHermes.Library.JsonSize
import LosslessHermes.Tools.Entities
import LosslessHermes.Tools.Grep

/-!
# The text of a search

Each mode renders its hits into lines below a header. A row that would make the text longer than
`MAX_RESULT_CHARS` is replaced by a notice, and the loop ends. The text is returned in a JSON
object, next to details that list the hits once more.
-/

namespace LosslessHermes.Tools

open HybridSearch (Exception HybridHit HybridSearchResult SemanticHit SemanticSearchResult)

variable {F : Type}

/-- What the rendering takes from Python. -/
structure GrepRenderer (F : Type) where
  /-- A number with this many decimals. -/
  fixed : Nat → F → String
  repr : F → FloatText
  /-- The bounds 0.65, 0.5 and 0.35 of the bands. -/
  high : F
  medium : F
  low : F
  /-- A bound of the call in the timezone of the context. -/
  formatBound : DateTime → String

def CHARS_PER_TOKEN : Nat := 4

def PER_HIT_CONTENT_CHAR_CAP : Nat := 5000

/-- `MAX_RESULT_CHARS`, where `cap` is `MAX_RESULT_TOKENS`. -/
def maxResultChars (cap : Nat) : Nat :=
  cap * CHARS_PER_TOKEN

def truncationNotice (cap : Nat) (reason : String) : String :=
  "*(truncated at ~" ++ toString cap ++ " tokens to protect agent context — " ++ reason ++
    "; raise LCM_TOOL_RESULT_TOKEN_BUDGET env or LcmConfig.toolResultTokenBudget " ++
    "to increase the cap)*"

def narrowTimeRange : String :=
  "narrow time range, lower limit, or wait for next-turn compaction"

/-! ## The loop over the rows -/

structure RenderedRows where
  lines : List String
  /-- `current_chars` after the loop. -/
  current : Nat
  kept : Nat
  truncated : Bool
  deriving DecidableEq, Repr

def renderRows (maxChars : Nat) (notice : String) : Nat → List String → RenderedRows
  | current, [] => { lines := [], current := current, kept := 0, truncated := false }
  | current, row :: rows =>
      if maxChars < current + row.length then
        { lines := [notice], current := current, kept := 0, truncated := true }
      else
        let rest := renderRows maxChars notice (current + row.length + 1) rows
        { rest with lines := row :: rest.lines, kept := rest.kept + 1 }

/-- `sum(len(line) for line in lines) + len(lines) - 1` -/
def joinedLength (lines : List String) : Nat :=
  (lines.map String.length).sum + lines.length - 1

/-- What a row adds keeps the count in the cap. -/
theorem renderRows_current_le (maxChars : Nat) (notice : String) (current : Nat)
    (rows : List String) :
    (renderRows maxChars notice current rows).current ≤ max current (maxChars + 1) := by
  induction rows generalizing current with
  | nil => exact Nat.le_max_left _ _
  | cons row rows ih =>
    unfold renderRows
    split
    · exact Nat.le_max_left _ _
    · have hRest := ih (current + row.length + 1)
      simp only
      omega

/-- The count of the loop is the length of the text so far, without the notice. -/
theorem sum_length_renderRows (maxChars : Nat) (notice : String) (current : Nat)
    (rows : List String) :
    current + ((renderRows maxChars notice current rows).lines.map fun l => l.length + 1).sum =
      (renderRows maxChars notice current rows).current +
        if (renderRows maxChars notice current rows).truncated then notice.length + 1 else 0 := by
  induction rows generalizing current with
  | nil => simp [renderRows]
  | cons row rows ih =>
    unfold renderRows
    split
    · simp
    · have hRest := ih (current + row.length + 1)
      simp only [List.map_cons, List.sum_cons] at hRest ⊢
      omega

theorem joinedLength_append {header : List String} (hHeader : header ≠ []) (lines : List String) :
    joinedLength (header ++ lines) =
      joinedLength header + (lines.map fun line => line.length + 1).sum := by
  have hPos : 0 < header.length := List.length_pos_iff.mpr hHeader
  have hSum : (lines.map fun line => line.length + 1).sum =
      (lines.map String.length).sum + lines.length := by
    simp [List.sum_map_add]
  simp only [joinedLength, List.map_append, List.sum_append, List.length_append]
  omega

/-- A text whose header fits ends by the cap, but for the notice. -/
theorem joinedLength_renderRows (maxChars : Nat) (notice : String) {header : List String}
    (hHeader : header ≠ []) (rows : List String) :
    joinedLength (header ++ (renderRows maxChars notice (joinedLength header) rows).lines) ≤
      max (joinedLength header) (maxChars + 1) + (notice.length + 1) := by
  have hCurrent := renderRows_current_le maxChars notice (joinedLength header) rows
  rw [joinedLength_append hHeader, sum_length_renderRows]
  split <;> omega

theorem joinedLength_renderRows_two :
    joinedLength (["# Hits"] ++ (renderRows 9 "(cut)" (joinedLength ["# Hits"])
      ["a", "long row"]).lines) ≤ max (joinedLength ["# Hits"]) (9 + 1) + ("(cut)".length + 1) :=
  joinedLength_renderRows 9 "(cut)" (List.cons_ne_nil _ _) ["a", "long row"]

structure RenderedGrep where
  lines : List String
  details : Json

/-! ## The parts that the modes share -/

def intString (n : Int) : String :=
  String.ofList (JsonText.intText n)

def messageRoleText : MessageRole → String
  | .system => "system"
  | .user => "user"
  | .assistant => "assistant"
  | .tool => "tool"

/-- The family is told in the modes that count its segments. -/
def conversationLines (families : Bool) (scope : LcmConversationScope) : List String :=
  if scope.allConversations then ["**Conversation scope:** all conversations"]
  else
    match scope.conversationId with
    | none => []
    | some id =>
        if families ∧ 1 < scope.ids.length then
          ["**Conversation scope:** session family rooted at " ++ intString id ++ " (" ++
            toString scope.ids.length ++ " segments)"]
        else ["**Conversation scope:** " ++ intString id]

def timeLines (renderer : GrepRenderer F) (request : GrepRequest) : List String :=
  if request.since = none ∧ request.before = none then []
  else
    let since :=
      match request.since with
      | some time => "since " ++ renderer.formatBound time
      | none => "since -∞"
    let before :=
      match request.before with
      | some time => "before " ++ renderer.formatBound time
      | none => "before +∞"
    ["**Time filter:** " ++ since ++ " | " ++ before]

def headerLines (renderer : GrepRenderer F) (families : Bool) (request : GrepRequest)
    (scope : LcmConversationScope) (modeLine : String) (totalMatches : Nat) : List String :=
  ["## LCM Grep Results", "**Pattern:** `" ++ request.pattern ++ "`", modeLine] ++
    conversationLines families scope ++ timeLines renderer request ++
    ["**Total matches:** " ++ toString totalMatches]

section Bands

variable [LinearOrder F] (renderer : GrepRenderer F)

end Bands

section Modes

variable (py : GrepPython) (renderer : GrepRenderer F) (cap : Nat) (request : GrepRequest)
  (scope : LcmConversationScope)

/-! ## `regex` and `full_text` -/

/-- The row with its full content. -/
def verbatimBlock (hit : VerbatimHit) : String :=
  "### [msg#" ++ toString hit.messageId ++ "] " ++ messageRoleText hit.role ++ " — " ++
    displayTime py.toPython hit.createdAt ++ " (" ++ toString hit.tokenCount ++ " tokens)" ++
    "\n\n" ++ hit.content ++ "\n"

def cappedContent (content : String) : String :=
  if PER_HIT_CONTENT_CHAR_CAP < content.length then
    String.ofList (content.toList.take PER_HIT_CONTENT_CHAR_CAP) ++
      "…[truncated; full body via lcm_describe]"
  else content

def verbatimHitDetails (hit : VerbatimHit) : Json :=
  .obj [("messageId", .int hit.messageId), ("conversationId", .int hit.conversationId),
    ("role", .str (messageRoleText hit.role)), ("content", .str (cappedContent hit.content)),
    ("contentTruncated", .bool (PER_HIT_CONTENT_CHAR_CAP < hit.content.length)),
    ("fullContentLength", .int hit.content.length), ("tokenCount", .int hit.tokenCount),
    ("createdAt", .str (py.timestampText hit.createdAt))]

def verbatimMode : String :=
  let role :=
    match request.role with
    | some role => " (role=" ++ role ++ ")"
    | none => ""
  "**Mode:** verbatim | **Scope:** messages" ++ role ++ " | **Cap:** " ++
    toString request.limit ++ " (full message rows; hard limit 20)"

def renderVerbatim (rows : List VerbatimHit) : RenderedGrep :=
  let header := headerLines renderer false request scope (verbatimMode request) rows.length ++
    [""]
  let shown := renderRows (maxResultChars cap) (truncationNotice cap narrowTimeRange)
    (joinedLength header) (rows.map (verbatimBlock py))
  { lines := header ++
      (if rows = [] then
        ["_No verbatim matches in raw messages. " ++
          "Try mode='regex' or mode='full_text' for broader search._"]
      else shown.lines)
    details := .obj
      [("mode", .str "verbatim"), ("pattern", .str request.pattern),
        ("totalMatches", .int rows.length), ("truncated", .bool shown.truncated),
        ("hits", .arr ((rows.take shown.kept).map (verbatimHitDetails py)))] }

/-! ## What a call returns -/

def RenderedGrep.payload (rendered : RenderedGrep) : Json :=
  .obj [("text", .str ("\n".intercalate rendered.lines)), ("details", rendered.details)]

end Modes

section Handler

variable [LinearOrder F] [Zero F] [One F] [Add F] [Div F] [NatCast F]

end Handler

end LosslessHermes.Tools
