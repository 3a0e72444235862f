import Mathlib.Data.Prod.Lex
import LosslessHermes.Store.Conversation
import LosslessHermes.Store.FullText

/-!
# The searches of the two stores

`search_messages` and `search_summaries`, with the backends between which they choose: FTS5, a
trigram index for CJK text, `LIKE`, and a scan with a regular expression. What FTS5 and `re`
find is given by a `SearchEngine`. Every statement excludes suppressed rows, and
`append_conversation_scope_constraint` adds the conversations.
-/

namespace LosslessHermes

/-- An index of FTS5 on rows of a table. `search` is `MATCH`, which may raise. -/
structure FullTextIndex (ρ F : Type) where
  search : String → Option (ρ → Bool)
  rank : String → ρ → F
  snippet : String → ρ → String
  /-- The rank with the penalty for the age. -/
  aged : F → Timestamp → F

structure SearchEngine (F : Type) where
  lower : String → String
  isWord : Char → Bool
  /-- `re.compile`, and the `group(0)` of `search`. -/
  compile : String → Option (String → Option String)
  messagesFts5Available : Bool
  summariesFts5Available : Bool
  messagesFts : FullTextIndex MessageRecord F
  summariesFts : FullTextIndex SummaryRecord F
  summariesFtsCjk : FullTextIndex SummaryRecord F

inductive SearchSort
  | recency
  | relevance
  | hybrid
  deriving DecidableEq, Repr

inductive StoreSearchMode
  | regex
  | fullText
  deriving DecidableEq, Repr

/-- A parsed time, in seconds with a fraction. -/
structure DateTime where
  seconds : Timestamp
  microseconds : Nat
  deriving DecidableEq, Repr

def DateTime.notAfter (d : DateTime) (t : Timestamp) : Bool :=
  d.seconds < t || (d.seconds = t && d.microseconds = 0)

/-- `MessageSearchInput` and `SummarySearchInput`. -/
structure SearchInput where
  query : String
  mode : StoreSearchMode
  conversationId : Option Int
  conversationIds : Option (List Int)
  since : Option DateTime
  before : Option DateTime
  limit : Nat
  sort : SearchSort
  deriving DecidableEq, Repr

structure MessageSearchResult (F : Type) where
  messageId : MessageId
  conversationId : ConversationId
  role : MessageRole
  snippet : String
  createdAt : Timestamp
  rank : F
  deriving DecidableEq, Repr

structure SummarySearchResult (F : Type) where
  summaryId : SummaryId
  conversationId : ConversationId
  kind : SummaryKind
  snippet : String
  createdAt : Timestamp
  rank : F
  deriving DecidableEq, Repr

/-! ## The clauses of a statement -/

namespace Search

/-- The columns that the clauses of a search read. -/
structure Columns (ρ : Type) where
  conversation : ρ → ConversationId
  suppressedAt : ρ → Option Timestamp
  time : ρ → Timestamp

def messageColumns : Columns MessageRecord :=
  ⟨MessageRecord.conversationId, MessageRecord.suppressedAt, MessageRecord.createdAt⟩

/-- The time of a summary is `COALESCE(latest_at, created_at)`. -/
def summaryColumns : Columns SummaryRecord :=
  ⟨SummaryRecord.conversationId, SummaryRecord.suppressedAt,
    fun s => s.latestAt.getD s.createdAt⟩

variable {ρ F : Type}

def appendConversationScopeConstraint (tests : List (ρ → Bool)) (column : ρ → ConversationId)
    (conversationId : Option Int) (conversationIds : Option (List Int)) : List (ρ → Bool) :=
  match (conversationIds.getD []).eraseDups with
  | [single] => tests ++ [fun r => decide ((column r : Int) = single)]
  | first :: second :: rest =>
      tests ++ [fun r => decide ((column r : Int) ∈ first :: second :: rest)]
  | [] =>
      match conversationId with
      | some id => tests ++ [fun r => decide ((column r : Int) = id)]
      | none => tests

def timeTests (time : ρ → Timestamp) (since before : Option DateTime) : List (ρ → Bool) :=
  [fun r => since.all fun d => d.notAfter (time r),
    fun r => before.all fun d => !d.notAfter (time r)]

/-- The `WHERE` of a search, after the clauses of its backend. -/
def clauses (columns : Columns ρ) (input : SearchInput) (tests : List (ρ → Bool)) :
    List (ρ → Bool) :=
  appendConversationScopeConstraint (tests ++ [fun r => (columns.suppressedAt r).isNone])
    columns.conversation input.conversationId input.conversationIds ++
    timeTests columns.time input.since input.before

/-- `SELECT … WHERE … ORDER BY … LIMIT`. -/
def selectRows {κ : Type} [LinearOrder κ] (columns : Columns ρ) (input : SearchInput)
    (tests : List (ρ → Bool)) (key : ρ → κ) (limit : Nat) (rows : List ρ) : List ρ :=
  (Table.select (fun r => (clauses columns input tests).all fun test => test r) key rows).take limit

/-- `ORDER BY created_at DESC`. -/
def newest (columns : Columns ρ) (r : ρ) : Int :=
  -(columns.time r : Int)

/-- `build_fts_order_by`. -/
def buildFtsOrderBy [Zero F] (columns : Columns ρ) (index : FullTextIndex ρ F) (expression : String)
    (sort : SearchSort) (r : ρ) : F ×ₗ Int :=
  match sort with
  | .recency => toLex (0, newest columns r)
  | .relevance => toLex (index.rank expression r, newest columns r)
  | .hybrid => toLex (index.aged (index.rank expression r) (columns.time r), newest columns r)

/-- The rows that an index finds; `none` where the statement raises. -/
def ftsRows [LinearOrder F] [Zero F] (columns : Columns ρ) (index : FullTextIndex ρ F)
    (expression : String) (tests : List (ρ → Bool)) (input : SearchInput) (rows : List ρ) :
    Option (List ρ) :=
  (index.search expression).map fun found =>
    selectRows columns input (found :: tests) (buildFtsOrderBy columns index expression input.sort)
      input.limit rows

def SQL_SCAN_BOUND : Nat := 10000

/-- The rows of a scan, each with what the pattern has found in it. -/
def regexRows (columns : Columns ρ) (redos : Regex) (content : ρ → String)
    (compile : String → Option (String → Option String)) (input : SearchInput) (rows : List ρ) :
    List (ρ × String) :=
  if FullText.refusesPattern redos input.query then []
  else
    match compile input.query with
    | none => []
    | some search =>
        ((selectRows columns input [] (newest columns) SQL_SCAN_BOUND rows).filterMap fun r =>
          (search (content r)).map fun found => (r, found)).take input.limit

/-! ## Messages -/

section

variable (engine : SearchEngine F)

def messageResult (m : MessageRecord) (snippet : String) (rank : F) : MessageSearchResult F :=
  { messageId := m.messageId
    conversationId := m.conversationId
    role := m.role
    snippet := snippet
    createdAt := m.createdAt
    rank := rank }

def summaryResult (s : SummaryRecord) (snippet : String) (rank : F) : SummarySearchResult F :=
  { summaryId := s.summaryId
    conversationId := s.conversationId
    kind := s.kind
    snippet := snippet
    createdAt := summaryColumns.time s
    rank := rank }

/-- The content as the index has it. -/
def indexedContent (content : String) : String :=
  (FullText.normalizeMessageContentForFullTextIndex content).getD content

variable [Zero F]

def messagesLike (input : SearchInput) (rows : List MessageRecord) :
    List (MessageSearchResult F) :=
  let terms := FullText.likeTerms engine.lower input.query
  if terms = [] then []
  else
    let found := selectRows messageColumns input
      (terms.map fun term m => FullText.likeTerm m.content term) (newest messageColumns) input.limit
      rows
    (found.filter fun m =>
      terms.all fun term =>
        (Text.find (engine.lower (indexedContent m.content)) term).isSome).map fun m =>
      messageResult m
        (FullText.createFallbackSnippet engine.lower (indexedContent m.content) terms) 0

def messagesRegex (input : SearchInput) (rows : List MessageRecord) :
    List (MessageSearchResult F) :=
  (regexRows messageColumns FullText.MESSAGE_REDOS_RE MessageRecord.content engine.compile input
    rows).map fun found => messageResult found.1 found.2 0

variable [LinearOrder F]

def messagesFullText (input : SearchInput) (rows : List MessageRecord) :
    Option (List (MessageSearchResult F)) :=
  let expression := FullText.sanitizeFts5Query input.query
  (ftsRows messageColumns engine.messagesFts expression [] input rows).map fun found =>
    found.map fun m =>
      messageResult m (engine.messagesFts.snippet expression m)
        (engine.messagesFts.rank expression m)

def searchMessages (input : SearchInput) (rows : List MessageRecord) :
    List (MessageSearchResult F) :=
  match input.mode with
  | .fullText =>
      if FullText.containsCjk input.query then messagesLike engine input rows
      else if engine.messagesFts5Available then
        (messagesFullText engine input rows).getD (messagesLike engine input rows)
      else messagesLike engine input rows
  | .regex => messagesRegex engine input rows

end

/-! ## Summaries -/

section

variable (engine : SearchEngine F) [Zero F]

def likeResults (input : SearchInput) (tests : List (SummaryRecord → Bool)) (terms : List String)
    (rows : List SummaryRecord) : List (SummarySearchResult F) :=
  (selectRows summaryColumns input tests (newest summaryColumns) input.limit rows).map fun s =>
    summaryResult s (FullText.createFallbackSnippet engine.lower s.content terms) 0

def summariesLike (input : SearchInput) (rows : List SummaryRecord) :
    List (SummarySearchResult F) :=
  let terms := FullText.likeTerms engine.lower input.query
  if terms = [] then []
  else
    likeResults engine input (terms.map fun term s => FullText.likeTerm s.content term) terms rows

def summariesLikeCjk (input : SearchInput) (rows : List SummaryRecord) :
    List (SummarySearchResult F) :=
  let groups := (FullText.extractCjkSegments input.query).map FullText.cjkLikeTerms
  let latin := FullText.extractLatinTokens engine.lower engine.isWord input.query
  if groups = [] ∧ latin = [] then []
  else
    let tests := (groups.map fun terms (s : SummaryRecord) =>
      terms.any fun term => FullText.likeTerm s.content (engine.lower term)) ++
      latin.map fun token s => FullText.likeTerm s.content token
    likeResults engine input tests (groups.flatten ++ latin).eraseDups rows

def summariesRegex (input : SearchInput) (rows : List SummaryRecord) :
    List (SummarySearchResult F) :=
  (regexRows summaryColumns FullText.REGEX_REDOS_PATTERN SummaryRecord.content engine.compile input
    rows).map fun found => summaryResult found.1 found.2 0

variable [LinearOrder F]

def ftsResults (index : FullTextIndex SummaryRecord F) (expression : String)
    (tests : List (SummaryRecord → Bool)) (input : SearchInput) (rows : List SummaryRecord) :
    Option (List (SummarySearchResult F)) :=
  (ftsRows summaryColumns index expression tests input rows).map fun found =>
    found.map fun s => summaryResult s (index.snippet expression s) (index.rank expression s)

def summariesFullText (input : SearchInput) (rows : List SummaryRecord) :
    Option (List (SummarySearchResult F)) :=
  ftsResults engine.summariesFts (FullText.sanitizeFts5Query input.query) [] input rows

def summariesCjkTrigram (input : SearchInput) (rows : List SummaryRecord) :
    Option (List (SummarySearchResult F)) :=
  let segments := (FullText.extractCjkSegments input.query).filter fun s => 3 ≤ s.length
  if segments = [] then some []
  else
    let latin := FullText.extractLatinTokens engine.lower engine.isWord input.query
    ftsResults engine.summariesFtsCjk (FullText.cjkTrigramExpression segments)
      (latin.map fun token s => FullText.likeTerm s.content token) input rows

def searchSummaries (input : SearchInput) (rows : List SummaryRecord) :
    List (SummarySearchResult F) :=
  match input.mode with
  | .fullText =>
      if FullText.containsCjk input.query then
        let trigram :=
          if FullText.hasShortCjkSegment input.query then []
          else (summariesCjkTrigram engine input rows).getD []
        if trigram = [] then summariesLikeCjk engine input rows else trigram
      else if engine.summariesFts5Available then
        (summariesFullText engine input rows).getD (summariesLike engine input rows)
      else summariesLike engine input rows
  | .regex => summariesRegex engine input rows

end

/-! ## What a search may return for a row -/

section

variable (engine : SearchEngine F) [Zero F] (query : String)

def messageHits (m : MessageRecord) : List (MessageSearchResult F) :=
  let expression := FullText.sanitizeFts5Query query
  let terms := FullText.likeTerms engine.lower query
  [messageResult m (engine.messagesFts.snippet expression m) (engine.messagesFts.rank expression m),
    messageResult m (FullText.createFallbackSnippet engine.lower (indexedContent m.content) terms)
      0] ++
    ((engine.compile query).bind fun search => search m.content).toList.map fun found =>
      messageResult m found 0

def summaryHits (s : SummaryRecord) : List (SummarySearchResult F) :=
  let expression := FullText.sanitizeFts5Query query
  let segments := FullText.extractCjkSegments query
  let trigram := FullText.cjkTrigramExpression (segments.filter fun s => 3 ≤ s.length)
  let latin := FullText.extractLatinTokens engine.lower engine.isWord query
  let fallback (terms : List String) : SummarySearchResult F :=
    summaryResult s (FullText.createFallbackSnippet engine.lower s.content terms) 0
  [summaryResult s (engine.summariesFts.snippet expression s)
      (engine.summariesFts.rank expression s),
    summaryResult s (engine.summariesFtsCjk.snippet trigram s)
      (engine.summariesFtsCjk.rank trigram s),
    fallback (FullText.likeTerms engine.lower query),
    fallback (((segments.map FullText.cjkLikeTerms).flatten ++ latin).eraseDups)] ++
    ((engine.compile query).bind fun search => search s.content).toList.map fun found =>
      summaryResult s found 0

variable {engine query} in
theorem summaryId_of_mem_summaryHits {s : SummaryRecord} {hit : SummarySearchResult F}
    (h : hit ∈ summaryHits engine query s) : hit.summaryId = s.summaryId := by
  unfold summaryHits at h
  rcases List.mem_append.mp h with hFixed | hRegex
  · simp only [List.mem_cons, List.not_mem_nil, or_false] at hFixed
    rcases hFixed with rfl | rfl | rfl | rfl <;> rfl
  · obtain ⟨found, -, rfl⟩ := List.mem_map.mp hRegex
    rfl

end

/-! ## A search stays inside its conversations -/

def Inside (columns : Columns ρ) (ids : List Int) (r : ρ) : Prop :=
  columns.suppressedAt r = none ∧ (columns.conversation r : Int) ∈ ids

section

variable {columns : Columns ρ} {input : SearchInput} {ids : List Int} {tests : List (ρ → Bool)}
  {rows : List ρ} {r : ρ}

theorem appendConversationScopeConstraint_some (tests : List (ρ → Bool))
    (column : ρ → ConversationId) (conversationId : Option Int) (hNe : ids ≠ []) (r : ρ) :
    ((appendConversationScopeConstraint tests column conversationId (some ids)).all
      fun test => test r) = true ↔
      (tests.all fun test => test r) = true ∧ (column r : Int) ∈ ids := by
  have hMem : ∀ id : Int, id ∈ ids.eraseDups ↔ id ∈ ids := fun id => List.mem_eraseDups
  unfold appendConversationScopeConstraint
  rw [Option.getD_some, ← hMem]
  split
  · rename_i single hDups
    rw [hDups, List.all_append, List.mem_singleton]
    simp
  · rename_i first second rest hDups
    rw [hDups, List.all_append]
    simp
  · rename_i hDups
    exfalso
    obtain ⟨id, rest, rfl⟩ := List.exists_cons_of_ne_nil hNe
    have hId := (hMem id).mpr List.mem_cons_self
    rw [hDups] at hId
    cases hId

theorem inside_of_selectRows {κ : Type} [LinearOrder κ] {key : ρ → κ} {limit : Nat}
    (hIds : input.conversationIds = some ids) (hNe : ids ≠ [])
    (h : r ∈ selectRows columns input tests key limit rows) : r ∈ rows ∧ Inside columns ids r := by
  obtain ⟨hMem, hClauses⟩ := Table.mem_select.mp (List.mem_of_mem_take h)
  unfold clauses at hClauses
  rw [List.all_append, Bool.and_eq_true, hIds,
    appendConversationScopeConstraint_some _ _ _ hNe, List.all_append, Bool.and_eq_true] at hClauses
  obtain ⟨⟨⟨-, hVisible⟩, hScope⟩, -⟩ := hClauses
  rw [List.all_cons, List.all_nil, Bool.and_true, Option.isNone_iff_eq_none] at hVisible
  exact ⟨hMem, hVisible, hScope⟩

theorem inside_of_ftsRows [LinearOrder F] [Zero F] {index : FullTextIndex ρ F}
    {expression : String} {found : List ρ} (hIds : input.conversationIds = some ids)
    (hNe : ids ≠ []) (hRows : ftsRows columns index expression tests input rows = some found)
    (h : r ∈ found) : r ∈ rows ∧ Inside columns ids r := by
  obtain ⟨test, -, rfl⟩ := Option.map_eq_some_iff.mp hRows
  exact inside_of_selectRows hIds hNe h

theorem inside_of_regexRows {redos : Regex} {content : ρ → String}
    {compile : String → Option (String → Option String)} {found : String}
    (hIds : input.conversationIds = some ids) (hNe : ids ≠ [])
    (h : (r, found) ∈ regexRows columns redos content compile input rows) :
    r ∈ rows ∧ Inside columns ids r ∧
      (compile input.query).bind (fun search => search (content r)) = some found := by
  unfold regexRows at h
  split at h
  · cases h
  · split at h
    · cases h
    · rename_i search hSearch
      obtain ⟨r', hMem, hFound⟩ := List.mem_filterMap.mp (List.mem_of_mem_take h)
      obtain ⟨text, hText, hEq⟩ := Option.map_eq_some_iff.mp hFound
      cases hEq
      obtain ⟨hRow, hInside⟩ := inside_of_selectRows hIds hNe hMem
      refine ⟨hRow, hInside, ?_⟩
      rw [hSearch, Option.bind_some, hText]

end

section

variable {engine : SearchEngine F} [Zero F] {input : SearchInput} {ids : List Int}
  {rows : List MessageRecord} {hit : MessageSearchResult F}

theorem messagesLike_inside (hIds : input.conversationIds = some ids) (hNe : ids ≠ [])
    (h : hit ∈ messagesLike engine input rows) :
    ∃ m ∈ rows, Inside messageColumns ids m ∧ hit ∈ messageHits engine input.query m := by
  unfold messagesLike at h
  simp only at h
  split at h
  · cases h
  · obtain ⟨m, hMem, rfl⟩ := List.mem_map.mp h
    obtain ⟨hRow, hInside⟩ := inside_of_selectRows hIds hNe (List.mem_filter.mp hMem).1
    refine ⟨m, hRow, hInside, List.mem_append_left _ ?_⟩
    exact List.mem_cons_of_mem _ List.mem_cons_self

theorem messagesRegex_inside (hIds : input.conversationIds = some ids) (hNe : ids ≠ [])
    (h : hit ∈ messagesRegex engine input rows) :
    ∃ m ∈ rows, Inside messageColumns ids m ∧ hit ∈ messageHits engine input.query m := by
  obtain ⟨⟨m, found⟩, hMem, rfl⟩ := List.mem_map.mp h
  obtain ⟨hRow, hInside, hFound⟩ := inside_of_regexRows hIds hNe hMem
  refine ⟨m, hRow, hInside, List.mem_append_right _ ?_⟩
  rw [hFound]
  exact List.mem_singleton_self _

variable [LinearOrder F]

theorem searchMessages_inside (hIds : input.conversationIds = some ids) (hNe : ids ≠ [])
    (h : hit ∈ searchMessages engine input rows) :
    ∃ m ∈ rows, Inside messageColumns ids m ∧ hit ∈ messageHits engine input.query m := by
  unfold searchMessages at h
  split at h
  · split at h
    · exact messagesLike_inside hIds hNe h
    · split at h
      · cases hFound : messagesFullText engine input rows with
        | none =>
          rw [hFound, Option.getD_none] at h
          exact messagesLike_inside hIds hNe h
        | some results =>
          rw [hFound, Option.getD_some] at h
          obtain ⟨found, hRows, rfl⟩ := Option.map_eq_some_iff.mp hFound
          obtain ⟨m, hMem, rfl⟩ := List.mem_map.mp h
          obtain ⟨hRow, hInside⟩ := inside_of_ftsRows hIds hNe hRows hMem
          exact ⟨m, hRow, hInside, List.mem_append_left _ List.mem_cons_self⟩
      · exact messagesLike_inside hIds hNe h
  · exact messagesRegex_inside hIds hNe h

end

section

variable {engine : SearchEngine F} [Zero F] {input : SearchInput} {ids : List Int}
  {rows : List SummaryRecord} {hit : SummarySearchResult F}

theorem likeResults_inside {tests : List (SummaryRecord → Bool)} {terms : List String}
    (hIds : input.conversationIds = some ids) (hNe : ids ≠ [])
    (h : hit ∈ likeResults engine input tests terms rows) :
    ∃ s ∈ rows, Inside summaryColumns ids s ∧
      hit = summaryResult s (FullText.createFallbackSnippet engine.lower s.content terms) 0 := by
  obtain ⟨s, hMem, rfl⟩ := List.mem_map.mp h
  obtain ⟨hRow, hInside⟩ := inside_of_selectRows hIds hNe hMem
  exact ⟨s, hRow, hInside, rfl⟩

theorem summariesLike_inside (hIds : input.conversationIds = some ids) (hNe : ids ≠ [])
    (h : hit ∈ summariesLike engine input rows) :
    ∃ s ∈ rows, Inside summaryColumns ids s ∧ hit ∈ summaryHits engine input.query s := by
  unfold summariesLike at h
  simp only at h
  split at h
  · cases h
  · obtain ⟨s, hRow, hInside, rfl⟩ := likeResults_inside hIds hNe h
    refine ⟨s, hRow, hInside, List.mem_append_left _ ?_⟩
    exact List.mem_cons_of_mem _ (List.mem_cons_of_mem _ List.mem_cons_self)

theorem summariesLikeCjk_inside (hIds : input.conversationIds = some ids) (hNe : ids ≠ [])
    (h : hit ∈ summariesLikeCjk engine input rows) :
    ∃ s ∈ rows, Inside summaryColumns ids s ∧ hit ∈ summaryHits engine input.query s := by
  unfold summariesLikeCjk at h
  simp only at h
  split at h
  · cases h
  · obtain ⟨s, hRow, hInside, rfl⟩ := likeResults_inside hIds hNe h
    refine ⟨s, hRow, hInside, List.mem_append_left _ ?_⟩
    exact List.mem_cons_of_mem _ (List.mem_cons_of_mem _ (List.mem_cons_of_mem _
      List.mem_cons_self))

theorem summariesRegex_inside (hIds : input.conversationIds = some ids) (hNe : ids ≠ [])
    (h : hit ∈ summariesRegex engine input rows) :
    ∃ s ∈ rows, Inside summaryColumns ids s ∧ hit ∈ summaryHits engine input.query s := by
  obtain ⟨⟨s, found⟩, hMem, rfl⟩ := List.mem_map.mp h
  obtain ⟨hRow, hInside, hFound⟩ := inside_of_regexRows hIds hNe hMem
  refine ⟨s, hRow, hInside, List.mem_append_right _ ?_⟩
  rw [hFound]
  exact List.mem_singleton_self _

variable [LinearOrder F]

theorem ftsResults_inside {index : FullTextIndex SummaryRecord F} {expression : String}
    {tests : List (SummaryRecord → Bool)} {results : List (SummarySearchResult F)}
    (hIds : input.conversationIds = some ids) (hNe : ids ≠ [])
    (hResults : ftsResults index expression tests input rows = some results) (h : hit ∈ results) :
    ∃ s ∈ rows, Inside summaryColumns ids s ∧
      hit = summaryResult s (index.snippet expression s) (index.rank expression s) := by
  obtain ⟨found, hRows, rfl⟩ := Option.map_eq_some_iff.mp hResults
  obtain ⟨s, hMem, rfl⟩ := List.mem_map.mp h
  obtain ⟨hRow, hInside⟩ := inside_of_ftsRows hIds hNe hRows hMem
  exact ⟨s, hRow, hInside, rfl⟩

theorem summariesCjkTrigram_inside {results : List (SummarySearchResult F)}
    (hIds : input.conversationIds = some ids) (hNe : ids ≠ [])
    (hResults : summariesCjkTrigram engine input rows = some results) (h : hit ∈ results) :
    ∃ s ∈ rows, Inside summaryColumns ids s ∧ hit ∈ summaryHits engine input.query s := by
  unfold summariesCjkTrigram at hResults
  simp only at hResults
  split at hResults
  · cases hResults
    cases h
  · obtain ⟨s, hRow, hInside, rfl⟩ := ftsResults_inside hIds hNe hResults h
    refine ⟨s, hRow, hInside, List.mem_append_left _ ?_⟩
    exact List.mem_cons_of_mem _ List.mem_cons_self

theorem searchSummaries_inside (hIds : input.conversationIds = some ids) (hNe : ids ≠ [])
    (h : hit ∈ searchSummaries engine input rows) :
    ∃ s ∈ rows, Inside summaryColumns ids s ∧ hit ∈ summaryHits engine input.query s := by
  unfold searchSummaries at h
  simp only at h
  split at h
  · split at h
    · by_cases hNone : (if FullText.hasShortCjkSegment input.query = true then []
          else (summariesCjkTrigram engine input rows).getD []) = []
      · rw [if_pos hNone] at h
        exact summariesLikeCjk_inside hIds hNe h
      · rw [if_neg hNone] at h
        by_cases hShort : FullText.hasShortCjkSegment input.query = true
        · exact absurd (if_pos hShort) hNone
        · rw [if_neg hShort] at h
          cases hFound : summariesCjkTrigram engine input rows with
          | none =>
            rw [hFound, Option.getD_none] at h
            cases h
          | some results =>
            rw [hFound, Option.getD_some] at h
            exact summariesCjkTrigram_inside hIds hNe hFound h
    · split at h
      · cases hFound : summariesFullText engine input rows with
        | none =>
          rw [hFound, Option.getD_none] at h
          exact summariesLike_inside hIds hNe h
        | some results =>
          rw [hFound, Option.getD_some] at h
          obtain ⟨s, hRow, hInside, rfl⟩ := ftsResults_inside hIds hNe hFound h
          exact ⟨s, hRow, hInside, List.mem_append_left _ List.mem_cons_self⟩
      · exact summariesLike_inside hIds hNe h
  · exact summariesRegex_inside hIds hNe h

end

end Search

end LosslessHermes
