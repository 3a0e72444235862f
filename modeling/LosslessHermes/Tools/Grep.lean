import LosslessHermes.Embeddings.SemanticSearch
import LosslessHermes.Tools.ConversationScope

/-!
# `lcm_grep`

The handler reads its arguments, resolves the conversations, and searches in one of five modes.
Each mode passes the conversations on in its own way: `regex`, `full_text` and `verbatim` in the
clauses of their statements, `hybrid` to its two arms, and `semantic` as the session keys that
the conversations have. The hits of a response are the rows that are rendered into its text.
-/

namespace LosslessHermes.Tools

open HybridSearch (Exception FtsHit HybridSearchResult SemanticSearchResult)
open SemanticSearch (VectorSearch VoyageClient)

variable {F : Type}

/-! ## The arguments -/

structure GrepPython extends Python where
  /-- `datetime.fromisoformat`, and whether the time has a zone. -/
  fromisoformat : String → Option (DateTime × Bool)

inductive GrepMode
  | regex
  | fullText
  | hybrid
  | semantic
  | verbatim
  deriving DecidableEq, Repr

inductive GrepTarget
  | messages
  | summaries
  | both
  deriving DecidableEq, Repr

structure GrepRequest where
  pattern : String
  mode : GrepMode
  scope : GrepTarget
  limit : Nat
  requestedSort : SearchSort
  since : Option DateTime
  before : Option DateTime
  summaryKinds : Option (List SummaryKind)
  role : Option String
  deriving DecidableEq, Repr

inductive GrepFailure
  | refusal (message : String)
  | raised (error : Exception)
  deriving DecidableEq, Repr

def DEFAULT_LIMIT : Nat := 50

def VERBATIM_HARD_CAP : Nat := 20

def MAX_LIMIT : Nat := 200

def stringArg (args : List (String × Json)) (key : String) : Option String :=
  match Json.get? args key with
  | some (.str s) => some s
  | _ => none

def grepMode (args : List (String × Json)) : GrepMode :=
  match stringArg args "mode" with
  | some "full_text" => .fullText
  | some "hybrid" => .hybrid
  | some "semantic" => .semantic
  | some "verbatim" => .verbatim
  | _ => .regex

def grepTarget (args : List (String × Json)) : GrepTarget :=
  match stringArg args "scope" with
  | some "messages" => .messages
  | some "summaries" => .summaries
  | _ => .both

def clampLimit (n : Int) : Nat :=
  if n < 1 then 1 else if MAX_LIMIT < n then MAX_LIMIT else n.toNat

def requestedLimit (py : Python) (args : List (String × Json)) : Nat :=
  match Json.get? args "limit" with
  | some (.int n) => clampLimit n
  | some (.float x) =>
      match py.float (.float x) with
      | .ok (.whole n) => clampLimit n
      | _ => DEFAULT_LIMIT
  | _ => DEFAULT_LIMIT

def requestedSort (args : List (String × Json)) : SearchSort :=
  match stringArg args "sort" with
  | some "relevance" => .relevance
  | some "hybrid" => .hybrid
  | _ => .recency

def parseIsoTimestampParam (py : GrepPython) (args : List (String × Json)) (key : String) :
    Except GrepFailure (Option (DateTime × Bool)) :=
  match (stringArg args key).map Text.strip with
  | none | some "" => .ok none
  | some value =>
      match py.fromisoformat value with
      | some time => .ok (some time)
      | none => .error (.refusal (key ++ " must be a valid ISO timestamp."))

/-- Times with and without a zone do not compare. -/
def checkTimes : Option (DateTime × Bool) → Option (DateTime × Bool) → Except GrepFailure Unit
  | some (since, zoned), some (before, zoned') =>
      if zoned ≠ zoned' then
        .error (.raised (.other "can't compare offset-naive and offset-aware datetimes"))
      else if before.seconds < since.seconds ∨
          before.seconds = since.seconds ∧ before.microseconds ≤ since.microseconds then
        .error (.refusal "`since` must be earlier than `before`.")
      else .ok ()
  | _, _ => .ok ()

def summaryKindOf : Json → Option SummaryKind
  | .str "leaf" => some .leaf
  | .str "condensed" => some .condensed
  | _ => none

def summaryKindsArg (args : List (String × Json)) : Option (List SummaryKind) :=
  match Json.get? args "summaryKinds" with
  | some (.arr items) =>
      let cleaned := items.filterMap summaryKindOf
      if cleaned = [] then none else some cleaned
  | _ => none

def roleArg (args : List (String × Json)) : Option String :=
  ((stringArg args "role").map Text.strip).filter fun role => role ≠ "" ∧ role ≠ "all"

def readRequest (py : GrepPython) (args : List (String × Json)) :
    Except GrepFailure GrepRequest :=
  let pattern := Text.strip ((stringArg args "pattern").getD "")
  if pattern = "" then
    .error (.refusal "`pattern` is required and must be a non-empty string.")
  else
    match parseIsoTimestampParam py args "since" with
    | .error failure => .error failure
    | .ok since =>
        match parseIsoTimestampParam py args "before" with
        | .error failure => .error failure
        | .ok before =>
            match checkTimes since before with
            | .error failure => .error failure
            | .ok () =>
                let limit := requestedLimit py.toPython args
                .ok
                  { pattern := pattern
                    mode := grepMode args
                    scope := grepTarget args
                    limit :=
                      if grepMode args = .verbatim then min limit VERBATIM_HARD_CAP else limit
                    requestedSort := requestedSort args
                    since := since.map Prod.fst
                    before := before.map Prod.fst
                    summaryKinds := summaryKindsArg args
                    role := roleArg args }

def GrepRequest.effectiveSort (request : GrepRequest) : SearchSort :=
  if request.mode = .fullText then request.requestedSort else .recency

structure VerbatimHit where
  messageId : MessageId
  conversationId : ConversationId
  role : MessageRole
  content : String
  tokenCount : Nat
  createdAt : Timestamp
  deriving DecidableEq, Repr

def verbatimHit (m : MessageRecord) : VerbatimHit :=
  { messageId := m.messageId
    conversationId := m.conversationId
    role := m.role
    content := m.content
    tokenCount := m.tokenCount
    createdAt := m.createdAt }

inductive GrepResponse (F : Type)
  | error (message : String) (detail : Option String)
  | snippets (messages : List (MessageSearchResult F)) (summaries : List (SummarySearchResult F))
  | hybrid (result : HybridSearchResult F)
  | semantic (result : SemanticSearchResult F)
  | verbatim (rows : List VerbatimHit)

structure GrepContext (F : Type) where
  engine : SearchEngine F
  search : VectorSearch F
  voyage : Option (VoyageClient F)
  /-- `re.search(r"VOYAGE_API_KEY", msg, re.IGNORECASE)` -/
  mentionsVoyageKey : String → Bool

section Modes

variable (ctx : GrepContext F) (db : SearchDb) (request : GrepRequest)
  (scope : LcmConversationScope)

/-! ## The modes that search the stores -/

def searchInput (mode : StoreSearchMode) : SearchInput :=
  { query := request.pattern
    mode := mode
    conversationId := if scope.allConversations then none else scope.conversationId
    conversationIds := if scope.allConversations then none else scope.conversationIds
    since := request.since
    before := request.before
    limit := request.limit
    sort := request.effectiveSort }

def runRegexOrFullTextGrep [LinearOrder F] [Zero F] (mode : StoreSearchMode) : GrepResponse F :=
  let input := searchInput request scope mode
  .snippets
    (if request.scope = .summaries then [] else Search.searchMessages ctx.engine input db.messages)
    (if request.scope = .messages then [] else Search.searchSummaries ctx.engine input db.summaries)

def roleOf : String → Option MessageRole
  | "user" => some .user
  | "assistant" => some .assistant
  | "tool" => some .tool
  | "system" => some .system
  | _ => none

def verbatimScope (m : MessageRecord) : Bool :=
  scope.allConversations ||
    match scope.conversationIds with
    | some (first :: rest) => (m.conversationId : Int) ∈ first :: rest
    | _ => scope.conversationId.all ((m.conversationId : Int) = ·)

/-- The statement, with the clause that finds the pattern. -/
def verbatimRows (found : MessageRecord → Bool) : List MessageRecord :=
  let tests : List (MessageRecord → Bool) :=
    [fun m => m.suppressedAt.isNone, found,
      fun m => (request.role.bind roleOf).all (m.role = ·), verbatimScope scope] ++
      Search.timeTests MessageRecord.createdAt request.since request.before
  (Table.select (fun m => tests.all fun test => test m) (Search.newest Search.messageColumns)
    db.messages).take request.limit

def verbatimLike (m : MessageRecord) : Bool :=
  FullText.like none ("%" ++ request.pattern ++ "%") m.content

/-- Where FTS5 raises, the clause is replaced by `LIKE`. -/
def runVerbatimLcmGrep : GrepResponse F :=
  let found :=
    if FullText.containsCjk request.pattern then verbatimLike request
    else
      (ctx.engine.messagesFts.search
        (FullText.sanitizeFts5Pattern ctx.engine.isWord request.pattern)).getD (verbatimLike request)
  .verbatim ((verbatimRows db request scope found).map verbatimHit)

/-! ## Hybrid mode -/

def embeddingsDisabled (mode : String) : String :=
  mode ++ " mode is disabled. Semantic retrieval (hybrid / semantic) " ++
    "is opt-in and off by default (ADR-033) — an operator enables it " ++
    "by setting `embeddings_enabled` in the `lossless_hermes:` config " ++
    "and provisioning a Voyage API key. Use mode='full_text' for " ++
    "keyword search, then lcm_describe / lcm_expand_query to drill down."

def voyageMissing : String :=
  "Voyage API key is missing or invalid (set VOYAGE_API_KEY) — " ++
    "hybrid mode requires it. Use mode='full_text' for keyword-only search."

def voyageMissingSemantic : String :=
  "Voyage API key is missing or invalid (set VOYAGE_API_KEY) - " ++
    "semantic mode requires it. Use mode='regex' or mode='full_text' instead."

def conversationIdsForFilter : Option (List Int) :=
  if scope.allConversations then none
  else
    match scope.conversationIds, scope.conversationId with
    | some (first :: rest), _ => some (first :: rest)
    | _, some id => some [id]
    | _, none => none

def ftsHitOf (s : SummaryRecord) (rank : Nat) : FtsHit :=
  { summaryId := s.summaryId
    conversationId := s.conversationId
    sessionKey := db.sessionKey s.summaryId
    kind := s.kind
    content := s.content
    tokenCount := s.tokenCount
    createdAt := s.createdAt
    rank := rank }

/-- The adapter `fts_search`: the rows of the store, with what the table has under their ids. -/
def ftsSearch [LinearOrder F] [Zero F] (query : String) (limit : Int) : List FtsHit :=
  let overFetch :=
    if request.summaryKinds.any (· ≠ []) then max limit (max (limit * 5) 100) else limit
  let rows := Search.searchSummaries ctx.engine
    { query := query
      mode := .fullText
      conversationId := none
      conversationIds := conversationIdsForFilter scope
      since := request.since
      before := request.before
      limit := overFetch.toNat
      sort := .relevance } db.summaries
  (rows.zipIdx.filterMap fun row =>
    ((db.summaries.find? fun s => s.summaryId = row.1.summaryId ∧ s.suppressedAt = none).filter
      fun s => SemanticSearch.memberTest request.summaryKinds s.kind).map fun s =>
        ftsHitOf db s row.2).take limit.toNat

def kArm (limit : Nat) : Nat :=
  min 500 (max 50 (limit * 3))

/-- What the vector arm is asked for. -/
def hybridSemanticArgs (query : String) (k : Int) : SemanticSearch.Args :=
  { query := query
    k := k.toNat
    since := request.since
    before := request.before
    conversationIds := conversationIdsForFilter scope
    summaryKinds := request.summaryKinds }

def hybridSearch [LinearOrder F] [Zero F] : HybridSearch.Search F :=
  { query := request.pattern
    ftsSearch := fun query limit => .ok (ftsSearch ctx db request scope query limit)
    runSemanticSearch := fun query k =>
      SemanticSearch.runSemanticSearch ctx.search ctx.voyage db
        (hybridSemanticArgs request scope query k)
    voyage := ctx.voyage.map VoyageClient.reranker
    kFts := kArm request.limit
    kSemantic := kArm request.limit
    topN := request.limit }

def exceptionText : Exception → String
  | .valueError message => message
  | .semanticSearchUnavailable message => message
  | .voyageError _ message => message
  | .other message => message

def hybridFailure (error : Exception) : GrepResponse F :=
  let message := exceptionText error
  match error with
  | .voyageError .auth _ => .error voyageMissing (some message)
  | .voyageError _ _ => .error ("Hybrid search failed: " ++ message) none
  | _ =>
      if ctx.mentionsVoyageKey message then .error voyageMissing (some message)
      else .error ("Hybrid search failed: " ++ message) none

def runHybridLcmGrep [LinearOrder F] [Zero F] [One F] [Add F] [Div F] [NatCast F] :
    GrepResponse F :=
  if ctx.voyage.isNone then .error voyageMissing (some "ctx.voyage is None")
  else
    match HybridSearch.runHybridSearch (hybridSearch ctx db request scope) with
    | .ok result => .hybrid result
    | .error error => hybridFailure ctx error

/-! ## Semantic mode -/

def deriveSessionKeysFromConversationIds (db : Db) (conversationIds : List Int) : List String :=
  (((db.conversations.filter fun c => (c.conversationId : Int) ∈ conversationIds).filterMap
    ConversationRecord.sessionKey).eraseDups).filter (· ≠ "")

/-- No keys, and no filter, where there is no conversation to ask for them. -/
def scopeSessionKeys : List String :=
  match conversationIdsForFilter scope with
  | some ids => deriveSessionKeysFromConversationIds db.toDb ids
  | none => []

def semanticArgs : SemanticSearch.Args :=
  let sessionKeys := scopeSessionKeys db scope
  { query := request.pattern
    k := request.limit
    since := request.since
    before := request.before
    sessionKeys := if sessionKeys = [] then none else some sessionKeys
    summaryKinds := request.summaryKinds }

def voyageKindText : VoyageErrorKind → String
  | .auth => "auth"
  | .badRequest => "bad_request"
  | .rateLimit => "rate_limit"
  | .serverError => "server_error"
  | .network => "network"
  | .unexpected => "unexpected"

def runSemanticLcmGrep [LinearOrder F] : Except Exception (GrepResponse F) :=
  if ctx.voyage.isNone then .ok (.error voyageMissingSemantic (some "ctx.voyage is None"))
  else
    match SemanticSearch.runSemanticSearch ctx.search ctx.voyage db
        (semanticArgs db request scope) with
    | .ok result => .ok (.semantic result)
    | .error (.semanticSearchUnavailable _) =>
        .ok (.error
          ("Semantic search unavailable: vec0 extension not loaded " ++
            "or no embedding profile registered. " ++
            "Use mode='regex' or mode='full_text' instead.") none)
    | .error (.voyageError kind message) =>
        if kind = .auth then .ok (.error voyageMissingSemantic (some message))
        else
          .ok (.error
            ("Voyage embed call failed (" ++ voyageKindText kind ++
              "). Try mode='full_text' or wait and retry.") (some message))
    | .error error => .error error

/-! ## The handler -/

def dispatch [LinearOrder F] [Zero F] [One F] [Add F] [Div F] [NatCast F]
    (embeddingsEnabled : Bool) : Except Exception (GrepResponse F) :=
  match request.mode with
  | .hybrid =>
      if embeddingsEnabled then .ok (runHybridLcmGrep ctx db request scope)
      else .ok (.error (embeddingsDisabled "hybrid") none)
  | .semantic =>
      if embeddingsEnabled then runSemanticLcmGrep ctx db request scope
      else .ok (.error (embeddingsDisabled "semantic") none)
  | .verbatim => .ok (runVerbatimLcmGrep ctx db request scope)
  | .regex => .ok (runRegexOrFullTextGrep ctx db request scope .regex)
  | .fullText => .ok (runRegexOrFullTextGrep ctx db request scope .fullText)

end Modes

/-- A call: its arguments, the session it comes from, and what the engine is configured for. -/
structure GrepCall where
  args : List (String × Json)
  sessionId : Option String
  sessionKey : Option String
  resolveSessionIdFromSessionKey : Option (String → Option String)
  embeddingsEnabled : Bool

def GrepCall.resolvedScope (call : GrepCall) (py : GrepPython) (db : SearchDb) :
    LcmConversationScope :=
  resolveLcmConversationScope py.toPython db.toDb call.resolveSessionIdFromSessionKey call.args
    call.sessionId call.sessionKey

def noConversation : String :=
  "No LCM conversation found for this session. " ++
    "Provide conversationId or set allConversations=true."

def handleLcmGrep [LinearOrder F] [Zero F] [One F] [Add F] [Div F] [NatCast F] (py : GrepPython)
    (ctx : GrepContext F) (db : SearchDb) (call : GrepCall) :
    Except Exception (GrepResponse F) :=
  match readRequest py call.args with
  | .error (.refusal message) => .ok (.error message none)
  | .error (.raised error) => .error error
  | .ok request =>
      let scope := call.resolvedScope py db
      if scope.allConversations = false ∧ scope.conversationId = none then
        .ok (.error noConversation none)
      else dispatch ctx db request scope call.embeddingsEnabled

end LosslessHermes.Tools
