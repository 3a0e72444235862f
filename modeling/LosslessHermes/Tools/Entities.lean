import LosslessHermes.Extraction.Coreference
import LosslessHermes.Tools.Params

/-!
# The entity tools

`lcm_get_entity` looks up an entity by its name, and `lcm_search_entities` browses the catalogue.
Both recompute the counts, the times and the surfaces of an entity from its mentions in summaries
that are not suppressed, in a common table expression that they share. When a search finds
nothing, it asks whether the catalogue has entries at all.
-/

namespace LosslessHermes

/-- With the column `lcm_entities.metadata`, a function of the id. -/
structure EntityDb extends ExtractionDb where
  metadata : String → Option String

namespace Tools

/-! ## The common table expression -/

structure EntityAgg where
  occCount : Nat
  firstAt : Timestamp
  lastAt : Timestamp
  firstIn : SummaryId
  visibleSurfaces : List String
  deriving DecidableEq, Repr

/-- A row of `lcm_entities` joined with its aggregates. -/
structure EntityLookup where
  entityId : String
  sessionKey : String
  canonicalText : String
  entityType : String
  firstSeenAt : Timestamp
  lastSeenAt : Timestamp
  firstSeenInSummaryId : SummaryId
  occurrenceCount : Nat
  alternateSurfaces : List String
  metadata : Option String
  deriving DecidableEq, Repr

section Queries

variable (db : EntityDb)

def isVisible (m : EntityMentionRow) : Bool :=
  db.summaries.any fun s => s.summaryId = m.summaryId ∧ s.suppressedAt = none

def visibleMentions : List EntityMentionRow :=
  db.mentions.filter (isVisible db)

def mentionsOf (entityId : String) : List EntityMentionRow :=
  (visibleMentions db).filter fun m => m.entityId = entityId

/-- An entity without a visible mention has no row. -/
def entityAgg (entityId : String) : Option EntityAgg :=
  let earliest := (mentionsOf db entityId).insertionSort fun a b =>
    a.mentionedAt < b.mentionedAt ∨ a.mentionedAt = b.mentionedAt ∧ a.summaryId ≤ b.summaryId
  earliest.head?.map fun first =>
    { occCount := (mentionsOf db entityId).length
      firstAt := first.mentionedAt
      lastAt := ((mentionsOf db entityId).map (·.mentionedAt)).foldl max 0
      firstIn := first.summaryId
      visibleSurfaces := ((mentionsOf db entityId).map (·.surfaceForm)).eraseDups }

def joined (e : EntityRow) : Option EntityLookup :=
  (entityAgg db e.entityId).map fun agg =>
    { entityId := e.entityId
      sessionKey := e.sessionKey
      canonicalText := e.canonicalText
      entityType := e.entityType
      firstSeenAt := agg.firstAt
      lastSeenAt := agg.lastAt
      firstSeenInSummaryId := agg.firstIn
      occurrenceCount := agg.occCount
      alternateSurfaces := agg.visibleSurfaces
      metadata := db.metadata e.entityId }

/-- `lcm_entities e JOIN entity_agg ea`. -/
def catalogue : List EntityLookup :=
  db.entities.filterMap (joined db)

def lookupEntity (sessionKey name : String) (entityType : Option String) : Option EntityLookup :=
  (catalogue db).find? fun e => e.sessionKey = sessionKey ∧ nocase e.canonicalText = nocase name ∧
    entityType.all (e.entityType = ·)

def mentionList (entityId : String) (limit : Nat) : List EntityMentionRow :=
  ((mentionsOf db entityId).insertionSort fun a b => b.mentionedAt ≤ a.mentionedAt).take limit

end Queries

/-! ## `lcm_get_entity` -/

def minMentionLimit : Int := 1

def maxMentionLimit : Int := 100

def defaultMentionLimit : Int := 20

def errorResult (message : String) : String :=
  toolResult (.obj [("error", .str message)])

def noSessionKey : String :=
  "No session_key resolved. Pass `sessionKey` explicitly or call from an active LCM session."

def optionalText : Option String → Json
  | some text => .str text
  | none => .null

def optionalInt : Option Int → Json
  | some n => .int n
  | none => .null

/-- The first of the words that hyphens, underscores and blanks separate. -/
def firstToken (py : Python) (name : String) : String :=
  let spaced := (py.lower name).toList.map fun c => if c = '-' ∨ c = '_' then ' ' else c
  let token := (spaced.dropWhile Text.isSpace).takeWhile fun c => !Text.isSpace c
  if token = [] then name else String.ofList token

def notFound (py : Python) (name key : String) (entityType : Option String) : Json :=
  let typeNote := match entityType with
    | some kind => " of type '" ++ kind ++ "'"
    | none => ""
  .obj [("found", .bool false), ("name", .str name), ("sessionKey", .str key),
    ("entityType", optionalText entityType),
    ("message", .str ("No entity matching '" ++ name ++ "'" ++ typeNote ++ " in session_key='" ++
      key ++ "'. The entity coreference worker may not have run yet, or the name " ++
      "doesn't appear in any leaf summary.")),
    ("fallback_suggestions", .arr
      [.str ("lcm_search_entities query='" ++ firstToken py name ++ "' mode='prefix' — browse " ++
          "entities by canonical-name prefix (handles 'Smarter-Claw' vs 'smarter claw' " ++
          "canonicalization mismatches)"),
        .str ("lcm_grep mode='hybrid' pattern='" ++ name ++ "' — paraphrastic search across all " ++
          "summary content (works without an entity catalog entry, surfaces mentions even if " ++
          "coreference hasn't run)"),
        .str ("lcm_grep mode='verbatim' pattern='" ++ name ++ "' — exact-text search of source " ++
          "messages (for citation / quote-back use cases)")])]

/-- The surfaces other than the canonical form. -/
def alternateSurfaces (py : Python) (e : EntityLookup) : List String :=
  e.alternateSurfaces.filter fun s => py.casefold s ≠ py.casefold e.canonicalText

def parseDict (py : Python) (text : Option String) : Json :=
  match text with
  | none | some "" => .obj []
  | some text =>
      match Json.loads py.canonical text with
      | some (.obj fields) => .obj fields
      | _ => .obj []

def displayTime (py : Python) (at' : Timestamp) : String :=
  py.formatDisplayTime (py.timestampText at')

def entityLines (py : Python) (e : EntityLookup) (mentions : List EntityMentionRow) :
    List String :=
  let surfaces := alternateSurfaces py e
  ["## Entity: " ++ e.canonicalText, "", "- **Type**: " ++ e.entityType,
    "- **Entity ID**: `" ++ e.entityId ++ "`", "- **Session key**: `" ++ e.sessionKey ++ "`",
    "- **First seen**: " ++ displayTime py e.firstSeenAt,
    "- **Last seen**: " ++ displayTime py e.lastSeenAt,
    "- **Total occurrences**: " ++ toString e.occurrenceCount] ++
  (if surfaces = [] then [] else ["- **Alternate surfaces**: " ++ ", ".intercalate surfaces]) ++
  (if e.firstSeenInSummaryId = "" then []
    else ["- **First seen in**: `" ++ e.firstSeenInSummaryId ++ "`"]) ++ [""] ++
  if mentions.length = 0 then ["_No agent-visible mentions (all may be in suppressed leaves)._"]
  else
    (if mentions.length < e.occurrenceCount then
        "### Mentions (" ++ toString mentions.length ++ " of " ++ toString e.occurrenceCount ++ ")"
      else "### Mentions (" ++ toString mentions.length ++ ")") :: "" ::
      mentions.map fun m => "- [" ++ displayTime py m.mentionedAt ++ "] in `" ++ m.summaryId ++
        "` — surface: \"" ++ m.surfaceForm ++ "\""

def mentionPayload (py : Python) (m : EntityMentionRow) : Json :=
  .obj [("mentionId", .str m.mentionId), ("summaryId", .str m.summaryId),
    ("surfaceForm", .str m.surfaceForm), ("spanStart", optionalInt m.spanStart),
    ("spanEnd", optionalInt m.spanEnd), ("mentionedAt", .str (py.timestampText m.mentionedAt))]

def foundPayload (py : Python) (e : EntityLookup) (mentions : List EntityMentionRow)
    (limit : Nat) : Json :=
  .obj [("text", .str ("\n".intercalate (entityLines py e mentions))),
    ("details", .obj [("found", .bool true), ("entityId", .str e.entityId),
      ("name", .str e.canonicalText), ("entityType", .str e.entityType),
      ("sessionKey", .str e.sessionKey), ("firstSeenAt", .str (py.timestampText e.firstSeenAt)),
      ("lastSeenAt", .str (py.timestampText e.lastSeenAt)),
      ("totalOccurrences", .int e.occurrenceCount),
      ("alternateSurfaces", .arr ((alternateSurfaces py e).map .str)),
      ("firstSeenInSummaryId", .str e.firstSeenInSummaryId),
      ("metadata", parseDict py e.metadata), ("mentions", .arr (mentions.map (mentionPayload py))),
      ("mentionsTruncated", .bool (mentions.length = limit))])]

def handleLcmGetEntity (py : Python) (db : EntityDb) (args : List (String × Json))
    (sessionKey : Option String) : Except String String :=
  match readStringParam args "name" with
  | .error _ | .ok none => .ok (errorResult "`name` is required.")
  | .ok (some name) => do
      match ← effectiveSessionKey args sessionKey with
      | none => .ok (errorResult noSessionKey)
      | some key =>
          let entityType := (← readStringParam args "entityType").map py.lower
          let limit ← intOf (← readNumberParam py args "mentionLimit" minMentionLimit
            maxMentionLimit defaultMentionLimit)
          match lookupEntity db key name entityType with
          | none => .ok (toolResult (notFound py name key entityType))
          | some e =>
              .ok (toolResult (foundPayload py e (mentionList db e.entityId limit) limit))

/-! ## `lcm_search_entities` -/

def minLimit : Int := 1

def maxLimit : Int := 100

def defaultLimit : Int := 20

def escapeLike (value : List Char) : List Char :=
  value.flatMap fun c => if c = '\\' ∨ c = '%' ∨ c = '_' then ['\\', c] else [c]

/-- `text LIKE pattern ESCAPE '\'`, which does not distinguish the case of ASCII letters. -/
def likeMatches : List Char → List Char → Bool
  | [], text => text.isEmpty
  | '%' :: pattern, text => text.tails.any (likeMatches pattern)
  | '_' :: pattern, text =>
      match text with
      | [] => false
      | _ :: rest => likeMatches pattern rest
  | ['\\'], _ => false
  | '\\' :: c :: pattern, text =>
      match text with
      | [] => false
      | d :: rest => c.toLower = d.toLower && likeMatches pattern rest
  | c :: pattern, text =>
      match text with
      | [] => false
      | d :: rest => c.toLower = d.toLower && likeMatches pattern rest

def normalizeMode (value : Option Json) : String :=
  match value with
  | some (.str "prefix") => "prefix"
  | some (.str "exact") => "exact"
  | _ => "like"

/-- The predicate on `canonical_text`; an empty query is none. -/
def matchesQuery (query mode canonicalText : String) : Bool :=
  if query = "" then true
  else if mode = "prefix" then
    likeMatches (escapeLike query.toList ++ ['%']) canonicalText.toList
  else if mode = "exact" then nocase canonicalText = nocase query
  else likeMatches ('%' :: escapeLike query.toList ++ ['%']) canonicalText.toList

/-- The guard of the visible mention is stated beside the join. -/
def searchRows (db : EntityDb) (key query mode : String) (entityType : Option String)
    (limit : Nat) : List EntityLookup :=
  (((catalogue db).filter fun e => e.sessionKey = key ∧ mentionsOf db e.entityId ≠ [] ∧
    matchesQuery query mode e.canonicalText ∧ entityType.all (e.entityType = ·)).insertionSort
      fun a b => b.occurrenceCount < a.occurrenceCount ∨
        a.occurrenceCount = b.occurrenceCount ∧ b.lastSeenAt ≤ a.lastSeenAt).take limit

/-- The probes read `lcm_entities` itself. -/
def catalogStatus (db : EntityDb) (key : String) : String :=
  if db.entities.any (·.sessionKey = key) then "active"
  else if db.entities = [] then "empty-globally"
  else "empty-for-session"

def emptyNote (key status : String) : String :=
  if status = "empty-globally" then
    "_No entities indexed in this DB at all. The entity-coreference worker has not run on this " ++
      "DB. This is a coverage gap, NOT a negative answer to your query — the entity may exist " ++
      "in the corpus but has not been extracted yet. Fall back to lcm_grep --mode hybrid for " ++
      "now._"
  else if status = "empty-for-session" then
    "_No entities indexed for session_key `" ++ key ++ "` (other sessions DO have entities — the " ++
      "worker has run on the corpus but not on this session yet, or no extractable entities " ++
      "have appeared in its leaves). Try sessionKey='agent:main:main' if you intended the main " ++
      "thread, or fall back to lcm_grep._"
  else
    "_No entities matched this query (the catalog has entries for this session, but none match " ++
      "— try a wider query, mode='like', or drop the entityType filter)._"

def rowPayload (py : Python) (e : EntityLookup) : Json :=
  .obj [("entityId", .str e.entityId), ("canonicalText", .str e.canonicalText),
    ("entityType", .str e.entityType), ("firstSeenAt", .str (py.timestampText e.firstSeenAt)),
    ("lastSeenAt", .str (py.timestampText e.lastSeenAt)),
    ("occurrenceCount", .int e.occurrenceCount),
    ("alternateSurfaces", .arr ((alternateSurfaces py e).map .str))]

def searchLines (py : Python) (key query mode : String) (entityType : Option String)
    (limit : Nat) (rows : List EntityLookup) (status : String) : List String :=
  ["## LCM Entity Search", "", "- **Query**: `" ++ query ++ "` (mode: " ++ mode ++ ")",
    "- **Session key**: `" ++ key ++ "`"] ++
  (match entityType with
    | some kind => ["- **Type filter**: " ++ kind]
    | none => []) ++
  ["- **Matches**: " ++ toString rows.length ++
      (if rows.length = limit then " (limit " ++ toString limit ++
        " reached — narrow with mode='prefix' or entityType)" else ""), ""] ++
  if rows.length = 0 then [emptyNote key status]
  else
    ["| Entity | Type | Occurrences | Last seen |", "|---|---|---|---|"] ++
    (rows.map fun e => "| **" ++ e.canonicalText ++ "** | " ++ e.entityType ++ " | " ++
      toString e.occurrenceCount ++ " | " ++ displayTime py e.lastSeenAt ++ " |") ++
    ["", "Use `lcm_get_entity(\x7b name: '<canonical>' \x7d)` for the full mention list of any " ++
      "entry above."]

def searchPayload (py : Python) (key query mode : String) (entityType : Option String)
    (limit : Nat) (rows : List EntityLookup) (status : String) : Json :=
  .obj [("text", .str ("\n".intercalate
      (searchLines py key query mode entityType limit rows status))),
    ("query", .str query), ("mode", .str mode), ("sessionKey", .str key),
    ("entityType", optionalText entityType), ("totalMatches", .int rows.length),
    ("limitReached", .bool (rows.length = limit)), ("catalogStatus", .str status),
    ("entities", .arr (rows.map (rowPayload py)))]

def queryRequired : String :=
  "`query` is required (non-empty), unless you provide `entityType` to browse all entities of " ++
    "a type (e.g. entityType='pr_number' lists all known PRs)."

/-- A search whose arguments were read. -/
structure SearchRequest where
  key : String
  query : String
  mode : String
  entityType : Option String
  limit : Nat
  deriving DecidableEq, Repr

/-- The request, or the result that answers the call at once. -/
def readSearch (py : Python) (args : List (String × Json)) (sessionKey : Option String) :
    Except String (SearchRequest ⊕ String) := do
  let query := (← readStringParam args "query").getD ""
  let entityType := (← readStringParam args "entityType").map py.lower
  if query = "" ∧ entityType = none then
    return .inr (errorResult queryRequired)
  let mode := normalizeMode (Json.get? args "mode")
  match ← effectiveSessionKey args sessionKey with
  | none => return .inr (errorResult noSessionKey)
  | some key =>
      let limit ← intOf (← readNumberParam py args "limit" minLimit maxLimit defaultLimit)
      return .inl ⟨key, query, mode, entityType, limit⟩

def searchEntities (py : Python) (db : EntityDb) (request : SearchRequest) : String :=
  let rows := searchRows db request.key request.query request.mode request.entityType request.limit
  let status := if rows.length = 0 then catalogStatus db request.key else "active"
  toolResult (searchPayload py request.key request.query request.mode request.entityType
    request.limit rows status)

def handleLcmSearchEntities (py : Python) (db : EntityDb) (args : List (String × Json))
    (sessionKey : Option String) : Except String String :=
  (readSearch py args sessionKey).map fun
    | .inl request => searchEntities py db request
    | .inr answer => answer

end Tools
end LosslessHermes
