import LosslessHermes.Store.Walk
import LosslessHermes.Tools.GrepRendering

/-!
# The description of an item

`lcm_describe` shows a summary or a stored file: its content, the manifest of the summaries below
it, and where the call asks for it the contents of its children and of its source messages. In a
delegated session a grant limits the tokens.

The text is cut at `MAX_RESULT_CHARS`. The payload lists the inlined children and messages apart
from the text, and the manifest with the times of its nodes, which `json.dumps` does not take.
-/

namespace LosslessHermes.Tools

/-! ## The arguments -/

def readRequiredStringParam (params : List (String × Json)) (key : String) :
    Except String String :=
  match readStringParam params key with
  | .ok (some value) => .ok value
  | .ok none => .error ("`" ++ key ++ "` is required.")
  | .error message => .error message

def trueStrings : List String := ["true", "1", "yes", "on"]

def falseStrings : List String := ["false", "0", "no", "off"]

def readBoolParam (py : Python) (params : List (String × Json)) (key : String) :
    Except String Bool :=
  let failure := Except.error ("`" ++ key ++ "` must be a boolean.")
  match Json.get? params key with
  | none | some .null => .ok false
  | some (.bool b) => .ok b
  | some (.int n) => if n = 1 then .ok true else if n = 0 then .ok false else failure
  | some (.str s) =>
      let normalized := py.lower (Text.strip s)
      if normalized ∈ trueStrings then .ok true
      else if normalized ∈ falseStrings then .ok false
      else failure
  | some _ => failure

/-- `int(value)`, of a finite number. -/
def finiteInt (py : Python) : Option Json → Option Int
  | some (.int n) => some n
  | some (.float x) =>
      match py.float (.float x) with
      | .ok (.whole n) => some n
      | _ => none
  | _ => none

def normalizeRequestedTokenCap (py : Python) (value : Option Json) : Option Int :=
  (finiteInt py value).map fun n => max 1 n

def clampInt (py : Python) (value : Option Json) (default minimum maximum : Nat) : Nat :=
  match finiteInt py value with
  | none => default
  | some n => if n < minimum then minimum else if maximum < n then maximum else n.toNat

def DEFAULT_EXPAND_CHILDREN_LIMIT : Nat := 20

def MAX_EXPAND_CHILDREN_LIMIT : Nat := 50

def DEFAULT_EXPAND_MESSAGES_LIMIT : Nat := 20

def MAX_EXPAND_MESSAGES_LIMIT : Nat := 50

def EXPAND_MESSAGES_OFFSET_HARD_CAP : Nat := 100000

/-- A call: its arguments, its session, and what says whether a grant limits it. -/
structure DescribeCall where
  args : List (String × Json)
  sessionId : Option String
  sessionKey : Option String
  resolveSessionIdFromSessionKey : Option (String → Option String)
  isSubagentSession : Option (String → Bool)
  grantIdResolver : Option (String → Option String)

structure DescribeContext where
  /-- `MAX_RESULT_CHARS`, as it was when the module was imported. -/
  maxChars : Nat
  /-- `MAX_RESULT_TOKENS`, which the notice names. -/
  cap : Nat
  maxExpandTokens : Int

/-- The columns of `large_files` that are shown. -/
structure LargeFileRow where
  fileId : String
  conversationId : ConversationId
  fileName : Option String
  mimeType : Option String
  byteSize : Option Nat
  explorationSummary : Option String
  createdAt : Timestamp
  deriving DecidableEq, Repr

structure DescribeDb extends Db where
  largeFiles : List LargeFileRow

/-! ## The grant -/

inductive BudgetSource
  | request
  | delegatedGrantRemaining
  | configDefault
  deriving DecidableEq, Repr

/-- `sessionKey ?? sessionId` -/
def DescribeCall.effectiveKey (call : DescribeCall) : String :=
  let key := Text.strip (call.sessionKey.getD "")
  if key ≠ "" then key else Text.strip (call.sessionId.getD "")

/-- The empty text where no grant limits the call. -/
def DescribeCall.delegatedGrantId (call : DescribeCall) : String :=
  if call.effectiveKey ≠ "" ∧ (call.isSubagentSession.any fun f => f call.effectiveKey) = true then
    (call.grantIdResolver.bind fun f => f call.effectiveKey).getD ""
  else ""

structure TokenBudget where
  grantId : String
  remaining : Option Int
  tokenCap : Int
  source : BudgetSource
  deriving DecidableEq, Repr

/-- `lookup` is the grant's remaining budget. -/
def resolveTokenBudget (py : Python) (ctx : DescribeContext) (lookup : String → Option Int)
    (call : DescribeCall) : TokenBudget :=
  let requested := normalizeRequestedTokenCap py (Json.get? call.args "tokenCap")
  let grantId := call.delegatedGrantId
  let remaining := if grantId = "" then none else lookup grantId
  let base := requested.getD (remaining.getD (max 1 ctx.maxExpandTokens))
  { grantId
    remaining
    tokenCap :=
      match remaining with
      | some tokens => max 0 (min base tokens)
      | none => max 1 base
    source :=
      if requested.isSome then .request
      else if remaining.isSome then .delegatedGrantRemaining
      else .configDefault }

def TokenBudget.exhausted (budget : TokenBudget) : Bool :=
  budget.tokenCap = 0 ∧ budget.remaining.isSome

/-- The base content is more than what remains. -/
def TokenBudget.redacts (budget : TokenBudget) (baseTokens : Nat) : Bool :=
  budget.grantId ≠ "" ∧ budget.remaining.any fun tokens : Int => tokens < baseTokens

/-! ## The lines -/

/-- A line of the text. `content` is that of the content of the item itself, with its
`token_count`, which a file does not have. -/
inductive DescribeLine
  | note (text : String)
  | content (text : String) (tokenCount : Option Nat)
  deriving DecidableEq, Repr

def DescribeLine.text : DescribeLine → String
  | .note text | .content text _ => text

/-- The lines that are kept, and the notice that stands for the others. -/
structure TrimmedText where
  kept : List DescribeLine
  notice : Option String
  deriving DecidableEq, Repr

def TrimmedText.text (trimmed : TrimmedText) : String :=
  String.intercalate "\n" (trimmed.kept.map DescribeLine.text ++
    match trimmed.notice with
    | none => []
    | some notice => ["", notice])

/-- The loop over the lines; `total` is the length so far, where there is a line. -/
def keepLines (maxChars : Nat) : Option Nat → List DescribeLine → List DescribeLine
  | _, [] => []
  | total, line :: lines =>
      let nextTotal := (total.map (· + 1)).getD 0 + line.text.length
      if maxChars < nextTotal then [] else line :: keepLines maxChars (some nextTotal) lines

def truncateLinesToCap (ctx : DescribeContext) (reasonHint : String) (lines : List DescribeLine) :
    TrimmedText :=
  let kept := keepLines ctx.maxChars none lines
  { kept
    notice :=
      if kept.length < lines.length then some (truncationNotice ctx.cap reasonHint) else none }

def summaryKindText : SummaryKind → String
  | .leaf => "leaf"
  | .condensed => "condensed"

/-- How the times of the store and those of a row are shown. -/
structure DescribePython extends Python where
  displayTime : Timestamp → String

def formatDisplayTime (py : DescribePython) : Option Timestamp → String
  | none => "-"
  | some time => py.displayTime time

/-- The raw text of a row, in the timezone of the context. -/
def formatRowTime (py : DescribePython) (time : Timestamp) : String :=
  py.formatDisplayTime (py.timestampText time)

/-! ## The manifest -/

structure ManifestNode where
  summaryId : SummaryId
  parentSummaryId : Option SummaryId
  depthFromRoot : Nat
  depth : Nat
  kind : SummaryKind
  tokenCount : Nat
  descendantCount : Nat
  descendantTokenCount : Nat
  sourceMessageTokenCount : Nat
  childCount : Nat
  earliestAt : Option Timestamp
  latestAt : Option Timestamp
  path : String
  deriving DecidableEq, Repr

def ManifestNode.summariesOnly (node : ManifestNode) : Nat :=
  node.tokenCount + node.descendantTokenCount

def ManifestNode.withMessages (node : ManifestNode) : Nat :=
  node.summariesOnly + node.sourceMessageTokenCount

def manifestNode (node : SummarySubtreeNodeRecord) : ManifestNode :=
  { node with }

def budgetFitText (tokenCap : Int) (cost : Nat) : String :=
  if cost ≤ tokenCap then "in" else "over"

def manifestLine (py : DescribePython) (tokenCap : Int) (node : ManifestNode) : String :=
  "d" ++ toString node.depthFromRoot ++ " " ++ node.summaryId ++
    " k=" ++ summaryKindText node.kind ++ " tok=" ++ toString node.tokenCount ++
    " descTok=" ++ toString node.descendantTokenCount ++
    " srcTok=" ++ toString node.sourceMessageTokenCount ++
    " desc=" ++ toString node.descendantCount ++ " child=" ++ toString node.childCount ++
    " range=" ++ formatDisplayTime py node.earliestAt ++ ".." ++
    formatDisplayTime py node.latestAt ++
    " cost[s=" ++ toString node.summariesOnly ++ ",m=" ++ toString node.withMessages ++
    "] budget[s=" ++ budgetFitText tokenCap node.summariesOnly ++
    ",m=" ++ budgetFitText tokenCap node.withMessages ++ "]"

/-- `SummaryRecord` has no session key. -/
def metaLine (py : DescribePython) (tokenCap : Int) (s : SummaryRecord) : String :=
  "meta conv=" ++ toString s.conversationId ++ " sessionKey=- kind=" ++ summaryKindText s.kind ++
    " depth=" ++ toString s.depth ++ " tok=" ++ toString s.tokenCount ++
    " descTok=" ++ toString s.descendantTokenCount ++
    " srcTok=" ++ toString s.sourceMessageTokenCount ++
    " desc=" ++ toString s.descendantCount ++
    " range=" ++ formatDisplayTime py s.earliestAt ++ ".." ++ formatDisplayTime py s.latestAt ++
    " created=" ++ py.displayTime s.createdAt ++ " budgetCap=" ++ intString tokenCap

def grantExhausted : String :=
  "budget exhausted: delegated grant has 0 tokens remaining; " ++
    "expansion is blocked. Re-issue the grant via lcm_expand_query " ++
    "with a higher remainingTokens before drilling further."

def countRawChildren (db : Db) (summaryId : SummaryId) : Nat :=
  (db.summaryParents.filter fun l => l.parentSummaryId = summaryId).length

/-- The visible children; a row without an id is left out. -/
def visibleChildIds (db : Db) (summaryId : SummaryId) : List SummaryId :=
  ((db.getSummaryChildren summaryId).map (·.summaryId)).filter (· ≠ "")

def visibleParentIds (db : Db) (summaryId : SummaryId) : List SummaryId :=
  ((db.getSummaryParents summaryId).map (·.summaryId)).filter (· ≠ "")

def childrenSignal (childCount rawChildCount : Nat) : String :=
  if rawChildCount = 0 then "expansion (children): 0 — terminal node, nothing to drill into"
  else if childCount = 0 then
    "expansion (children): 0 of " ++ toString rawChildCount ++ " raw — " ++
      "ALL children suppressed; details below"
  else
    let suppressed := rawChildCount - childCount
    "expansion (children): " ++ toString childCount ++ " of " ++ toString rawChildCount ++ " raw" ++
      (if 0 < suppressed then " (" ++ toString suppressed ++ " suppressed and filtered)" else "") ++
      "; details below"

/-! ## The expansions -/

inductive ExpansionStatus
  | budgetExhausted
  | noChildren
  | notLeaf
  | noMessages
  | offsetPastEnd
  | allSuppressed
  | capped
  | ok
  deriving DecidableEq, Repr

structure ExpandedChild where
  summaryId : SummaryId
  kind : SummaryKind
  tokenCount : Nat
  createdAt : Timestamp
  content : String
  deriving DecidableEq, Repr

structure ExpandedMessage where
  messageId : MessageId
  role : MessageRole
  tokenCount : Nat
  createdAt : Timestamp
  content : String
  deriving DecidableEq, Repr

/-- The rows that an expansion inlines, and what it adds to the text. -/
structure Expansion (ρ : Type) where
  rows : List ρ
  status : Option ExpansionStatus
  lines : List String
  deriving DecidableEq, Repr

def fetchChildrenRows (db : Db) (ids : List SummaryId) : List ExpandedChild :=
  (Table.select (fun s : SummaryRecord => s.summaryId ∈ ids ∧ s.suppressedAt = none) (·.createdAt)
    db.summaries).map fun s =>
      { summaryId := s.summaryId
        kind := s.kind
        tokenCount := s.tokenCount
        createdAt := s.createdAt
        content := s.content }

/-- The visible source messages of a leaf. -/
def sourceMessages (db : Db) (summaryId : SummaryId) : List MessageRecord :=
  (db.summaryMessages.filter fun l => l.summaryId = summaryId).filterMap fun l =>
    db.getMessageById l.messageId

def countSourceMessages (db : Db) (summaryId : SummaryId) : Nat :=
  (sourceMessages db summaryId).length

def fetchSourceMessages (db : Db) (summaryId : SummaryId) (limit offset : Nat) :
    List ExpandedMessage :=
  (((Table.select (fun _ => true) (fun m : MessageRecord => m.createdAt)
    (sourceMessages db summaryId)).drop offset).take limit).map fun m =>
      { messageId := m.messageId
        role := m.role
        tokenCount := m.tokenCount
        createdAt := m.createdAt
        content := m.content }

def childrenLimit (py : Python) (args : List (String × Json)) : Nat :=
  clampInt py (Json.get? args "expandChildrenLimit") DEFAULT_EXPAND_CHILDREN_LIMIT 1
    MAX_EXPAND_CHILDREN_LIMIT

def messagesLimit (py : Python) (args : List (String × Json)) : Nat :=
  clampInt py (Json.get? args "expandMessagesLimit") DEFAULT_EXPAND_MESSAGES_LIMIT 1
    MAX_EXPAND_MESSAGES_LIMIT

def messagesOffset (py : Python) (args : List (String × Json)) : Nat :=
  clampInt py (Json.get? args "expandMessagesOffset") 0 0 EXPAND_MESSAGES_OFFSET_HARD_CAP

/-- A blank line, a heading, another blank line and the content. -/
def detailLines (heading content : String) : List String :=
  ["", heading, "", content]

def childHeading (py : DescribePython) (child : ExpandedChild) : String :=
  "### child " ++ child.summaryId ++ " (" ++ summaryKindText child.kind ++ ", " ++
    toString child.tokenCount ++ " tokens, " ++ formatRowTime py child.createdAt ++ ")"

def messageHeading (py : DescribePython) (message : ExpandedMessage) : String :=
  "### msg#" ++ toString message.messageId ++ " (" ++ messageRoleText message.role ++ ", " ++
    toString message.tokenCount ++ " tokens, " ++ formatRowTime py message.createdAt ++ ")"

/-- What the grant does not let through. -/
def skippedExpansion {ρ : Type} (what : String) : Expansion ρ :=
  { rows := []
    status := some .budgetExhausted
    lines := ["", what ++ ": SKIPPED — delegated grant has 0 tokens " ++
      "remaining; expansion blocked. Re-issue the grant via " ++
      "lcm_expand_query with a higher remainingTokens to unblock."] }

def noExpansion {ρ : Type} : Expansion ρ :=
  { rows := [], status := none, lines := [] }

def inlineChildren (py : DescribePython) (db : Db) (args : List (String × Json))
    (summaryId : SummaryId) : Expansion ExpandedChild :=
  let childIds := visibleChildIds db summaryId
  let raw := countRawChildren db summaryId
  if childIds = [] then
    if raw = 0 then
      { rows := []
        status := some .noChildren
        lines := ["", "expanded children: 0 (this node has no children — " ++
          "it is a terminal in the DAG; nothing to drill into)"] }
    else
      { rows := []
        status := some .allSuppressed
        lines := ["", "expanded children: 0/" ++ toString raw ++ " (this node has " ++
          toString raw ++ " children but ALL are suppressed — " ++
          "they exist in the DAG but have been removed from the agent surface)"] }
  else
    let limit := childrenLimit py.toPython args
    let ids := childIds.take limit
    let rows := fetchChildrenRows db ids
    let total := toString childIds.length
    if rows = [] then
      { rows
        status := some .allSuppressed
        lines := ["", "expanded children: 0/" ++ total ++ " (all children " ++
          "are suppressed — none returned; the node has children " ++
          "but they have been removed from the agent surface)"] }
    else
      let capped := limit < childIds.length
      let capNote :=
        if capped then
          " (capped at limit=" ++ toString limit ++ "; raise expandChildrenLimit up to " ++
            toString MAX_EXPAND_CHILDREN_LIMIT ++ " for more)"
        else ""
      let suffix :=
        if rows.length < ids.length then
          " (" ++ toString (ids.length - rows.length) ++ " children suppressed and filtered out)"
        else ""
      { rows
        status := some (if capped then .capped else .ok)
        lines := ["", "expanded children: " ++ toString rows.length ++ "/" ++ total ++ capNote ++
          suffix] ++ rows.flatMap fun child => detailLines (childHeading py child) child.content }

def expandChildren (py : DescribePython) (db : Db) (budget : TokenBudget)
    (args : List (String × Json)) (summaryId : SummaryId) (requested : Bool) :
    Expansion ExpandedChild :=
  if requested then
    if budget.exhausted then skippedExpansion "expanded children"
    else inlineChildren py db args summaryId
  else noExpansion

def inlineMessages (py : DescribePython) (db : Db) (args : List (String × Json))
    (s : SummaryRecord) (summaryId : SummaryId) : Expansion ExpandedMessage :=
  if s.kind ≠ .leaf then
    { rows := []
      status := some .notLeaf
      lines := ["", "expanded source messages: 0 (target is a " ++ summaryKindText s.kind ++
        " summary, not a leaf — condensed summaries don't have direct messages; " ++
        "expand its children first to find leaves)"] }
  else
    let offset := messagesOffset py.toPython args
    let total := countSourceMessages db summaryId
    let rows := fetchSourceMessages db summaryId (messagesLimit py.toPython args) offset
    if total = 0 then
      { rows
        status := some .noMessages
        lines := ["", "expanded source messages: 0 (this leaf has no " ++
          "associated messages — likely a synthetic / migrated " ++
          "leaf without source-message lineage)"] }
    else if rows = [] then
      if total ≤ offset then
        { rows
          status := some .offsetPastEnd
          lines := ["", "expanded source messages: 0/" ++ toString total ++ " (offset=" ++
            toString offset ++ " is past the end; reduce offset to see content)"] }
      else
        { rows
          status := some .allSuppressed
          lines := ["", "expanded source messages: 0/" ++ toString total ++
            " (all messages in this offset window were suppressed and filtered out)"] }
    else
      let last := offset + rows.length
      let hint :=
        if last < total then
          " — " ++ toString (total - last) ++ " more after this window; paginate with " ++
            "expandMessagesOffset=" ++ toString last
        else ""
      { rows
        status := some (if last < total then .capped else .ok)
        lines := ["", "expanded source messages: " ++ toString rows.length ++ "/" ++
          toString total ++ " [" ++ toString (offset + 1) ++ ".." ++ toString last ++ "]" ++
            hint] ++
            rows.flatMap fun message => detailLines (messageHeading py message) message.content }

def expandMessages (py : DescribePython) (db : Db) (budget : TokenBudget)
    (args : List (String × Json)) (s : SummaryRecord) (summaryId : SummaryId)
    (requested : Bool) : Expansion ExpandedMessage :=
  if requested then
    if budget.exhausted then skippedExpansion "expanded source messages"
    else inlineMessages py db args s summaryId
  else noExpansion

/-! ## A summary -/

structure SummaryPayload where
  text : TrimmedText
  tokenCap : Int
  budgetSource : BudgetSource
  nodes : List ManifestNode
  children : List ExpandedChild
  childrenStatus : Option ExpansionStatus
  messages : List ExpandedMessage
  messagesStatus : Option ExpansionStatus
  deriving DecidableEq, Repr

inductive DescribeAnswer
  | raised (error : String)
  | refused (error : String) (hint : Option String)
  | summary (payload : SummaryPayload)
  | file (text : TrimmedText)
  deriving DecidableEq, Repr

/-- What a call returns, and the call of `_grant_budget_consumer` that it makes. -/
structure DescribeResult where
  answer : DescribeAnswer
  consumed : Option (String × Nat)
  deriving DecidableEq, Repr

/-- The lines before the content. -/
def headLines (py : DescribePython) (db : Db) (budget : TokenBudget) (itemId : String)
    (s : SummaryRecord) (nodes : List ManifestNode) (childrenAsked messagesAsked : Bool) :
    List String :=
  let parentIds := visibleParentIds db itemId
  let childIds := visibleChildIds db itemId
  ["LCM_SUMMARY " ++ itemId, metaLine py budget.tokenCap s] ++
    (if budget.exhausted then [grantExhausted] else []) ++
    (if parentIds = [] then [] else ["parents " ++ String.intercalate " " parentIds]) ++
    (if childIds = [] then [] else ["children " ++ String.intercalate " " childIds]) ++
    ["manifest"] ++ nodes.map (manifestLine py budget.tokenCap) ++
    (if childrenAsked then [childrenSignal childIds.length (countRawChildren db itemId)] else []) ++
    (if messagesAsked ∧ s.kind ≠ .leaf then ["expansion (messages): n/a — target is not a leaf"]
      else []) ++
    ["content"]

def redactedContent (baseTokens : Nat) (remaining : Int) : String :=
  "[REDACTED — base summary content is " ++ toString baseTokens ++ " tokens " ++
    "but the delegated grant has only " ++ intString remaining ++ " " ++
    "tokens remaining. Re-issue the grant with a larger " ++
    "remainingTokens via lcm_expand_query, or call from a non-delegated session.]"

def contentLine (budget : TokenBudget) (s : SummaryRecord) : DescribeLine :=
  if budget.redacts s.tokenCount then
    .note (redactedContent s.tokenCount (budget.remaining.getD 0))
  else .content s.content (some s.tokenCount)

def lowerLimits : String :=
  "lower expandChildrenLimit / expandMessagesLimit, or request a narrower id"

/-- `json.dumps` takes no time, and the nodes have the times of the store. -/
def ManifestNode.hasTime (node : ManifestNode) : Bool :=
  node.earliestAt.isSome || node.latestAt.isSome

def notSerializable : String := "Object of type datetime is not JSON serializable"

/-- The grant is charged before the text is cut and the payload encoded. -/
def renderSummary (py : DescribePython) (ctx : DescribeContext) (db : Db) (budget : TokenBudget)
    (args : List (String × Json)) (itemId : String) (s : SummaryRecord)
    (nodes : List ManifestNode) (childrenAsked messagesAsked : Bool) : DescribeResult :=
  let children := expandChildren py db budget args itemId childrenAsked
  let messages := expandMessages py db budget args s itemId messagesAsked
  let lines := (headLines py db budget itemId s nodes childrenAsked messagesAsked).map .note ++
    contentLine budget s :: (children.lines ++ messages.lines).map .note
  let baseTokens := if budget.redacts s.tokenCount then 0 else s.tokenCount
  let consumed := baseTokens + (children.rows.map (·.tokenCount)).sum +
    (messages.rows.map (·.tokenCount)).sum
  { answer :=
      if nodes.any ManifestNode.hasTime then .raised notSerializable
      else
        .summary
          { text := truncateLinesToCap ctx lowerLimits lines
            tokenCap := budget.tokenCap
            budgetSource := budget.source
            nodes
            children := children.rows
            childrenStatus := children.status
            messages := messages.rows
            messagesStatus := messages.status }
    consumed :=
      if budget.grantId ≠ "" ∧ 0 < consumed then some (budget.grantId, consumed) else none }

/-- The two flags, in the order in which they are read. -/
def readExpandFlags (py : Python) (args : List (String × Json)) : Except String (Bool × Bool) :=
  match readBoolParam py args "expandChildren" with
  | .error message => .error message
  | .ok childrenAsked =>
      match readBoolParam py args "expandMessages" with
      | .error message => .error message
      | .ok messagesAsked => .ok (childrenAsked, messagesAsked)

def emitSummary (py : DescribePython) (ctx : DescribeContext) (lookup : String → Option Int)
    (db : Db) (call : DescribeCall) (itemId : String) (s : SummaryRecord)
    (subtree : List SummarySubtreeNodeRecord) : DescribeResult :=
  match readExpandFlags py.toPython call.args with
  | .error message => { answer := .raised message, consumed := none }
  | .ok (childrenAsked, messagesAsked) =>
      renderSummary py ctx db (resolveTokenBudget py.toPython ctx lookup call) call.args itemId s
        (subtree.map manifestNode) childrenAsked messagesAsked

/-! ## A file -/

/-- From the last digit on, a comma after each three. -/
def insertCommas : List Char → List Char
  | a :: b :: c :: d :: digits => a :: b :: c :: ',' :: insertCommas (d :: digits)
  | digits => digits

/-- `format(n, ",")` -/
def groupedDigits (n : Nat) : String :=
  String.ofList (insertCommas (Nat.repr n).toList.reverse).reverse

def textOr (value : Option String) (default : String) : String :=
  match value with
  | some text => if text = "" then default else text
  | none => default

def fileHeadLines (py : DescribePython) (itemId : String) (file : LargeFileRow) : List String :=
  ["## LCM File: " ++ itemId, "", "**Conversation:** " ++ toString file.conversationId,
    "**Name:** " ++ textOr file.fileName "(no name)",
    "**Type:** " ++ textOr file.mimeType "unknown"] ++
    (match file.byteSize with
      | some bytes => ["**Size:** " ++ groupedDigits bytes ++ " bytes"]
      | none => []) ++
    ["**Created:** " ++ py.displayTime file.createdAt]

def largeSummary : String :=
  "the file's exploration summary is large; trim externally if needed"

/-- The exploration summary, where there is one. -/
def LargeFileRow.exploration (file : LargeFileRow) : Option String :=
  file.explorationSummary.filter (· ≠ "")

def emitFile (py : DescribePython) (ctx : DescribeContext) (itemId : String)
    (file : LargeFileRow) : TrimmedText :=
  truncateLinesToCap ctx largeSummary ((fileHeadLines py itemId file).map .note ++
    match file.exploration with
    | some exploration =>
        [.note "", .note "## Exploration Summary", .note "", .content exploration none]
    | none => [.note "", .note "*No exploration summary available.*"])

/-! ## The handler -/

inductive DescribeTarget
  | summary (s : SummaryRecord)
  | file (row : LargeFileRow)

def DescribeTarget.conversationId : DescribeTarget → ConversationId
  | .summary s => s.conversationId
  | .file row => row.conversationId

/-- `_resolve_target` -/
def resolveTarget (db : DescribeDb) (itemId : String) : Option DescribeTarget :=
  match db.getSummary itemId with
  | some s => some (.summary s)
  | none => (db.largeFiles.find? fun file => file.fileId = itemId).map .file

def DescribeCall.resolvedScope (call : DescribeCall) (py : Python) (db : Db) :
    LcmConversationScope :=
  resolveLcmConversationScope py db call.resolveSessionIdFromSessionKey call.args call.sessionId
    call.sessionKey

/-- A resolved conversation lets no item of another one through. -/
def outOfScope (scope : LcmConversationScope) (target : DescribeTarget) : Bool :=
  match scope.conversationId with
  | none => false
  | some id =>
      let allowed := if scope.ids = [] then [id] else scope.ids
      (target.conversationId : Int) ∉ allowed

/-- The item of a call, or the answer without one. -/
def findItem (py : DescribePython) (db : DescribeDb) (call : DescribeCall) :
    Except DescribeAnswer (String × DescribeTarget) :=
  match readRequiredStringParam call.args "id" with
  | .error message => .error (.raised message)
  | .ok itemId =>
      let scope := call.resolvedScope py.toPython db.toDb
      if scope.allConversations = false ∧ scope.conversationId = none then
        .error (.refused noConversation none)
      else
        match resolveTarget db itemId with
        | none =>
            .error (.refused ("Not found: " ++ itemId)
              (some "Check the ID format (sum_xxx for summaries, file_xxx for files)."))
        | some target =>
            if outOfScope scope target then
              .error (.refused ("Not found in this session scope: " ++ itemId)
                (some "Use allConversations=true for cross-conversation lookup."))
            else .ok (itemId, target)

/-- There is no result where the query for the manifest has no end. -/
def handleLcmDescribe (py : DescribePython) (ctx : DescribeContext) (lookup : String → Option Int)
    (fuel : Nat) (db : DescribeDb) (call : DescribeCall) : Option DescribeResult :=
  match findItem py db call with
  | .error answer => some { answer, consumed := none }
  | .ok (itemId, .file row) =>
      some { answer := .file (emitFile py ctx itemId row), consumed := none }
  | .ok (itemId, .summary s) =>
      (db.getSummarySubtree subtreeHardCap fuel itemId).map fun subtree =>
        emitSummary py ctx lookup db.toDb call itemId s subtree

end LosslessHermes.Tools
