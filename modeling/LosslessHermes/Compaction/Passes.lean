import LosslessHermes.Compaction.Selection
import LosslessHermes.Library.Text

/-!
# The leaf pass and the condensed pass

`leafPass` is the body of `_leaf_pass`, `runCondensedPass` that of
`_run_condensed_pass` with `condensedPass` for `_condensed_pass`. Each selects
its chunk, asks the summarizer, and persists the summary, its links and the
swap of the context range in one transaction.

What a pass reads besides the database is collected in `PassEnv`. The functions
that turn stored rows into the summarizer's source text are arbitrary: they reach
nothing but that text, the file ids and the timestamps of the new row.
-/

namespace LosslessHermes.Compaction

structure SummarizeOptions where
  previousSummary : Option String
  isCondensed : Bool
  /-- Set by the leaf pass only. -/
  targetTokens : Option Int
  /-- Set by the condensed pass only. -/
  depth : Option Nat
  summaryModel : Option String

/-- What a call of the summarizer ends with. -/
inductive SummarizeReply
  | text (content : String)
  | notText
  | providerAuthError

abbrev SummarizeFn := String → Bool → SummarizeOptions → SummarizeReply

/-- The conversions from stored rows to the summarizer's source text. -/
structure SourceText where
  /-- `_annotate_media_content`, from the parts and the content of a message. -/
  annotateMediaContent : List MessagePartRecord → String → String
  /-- `_extract_meaningful_message_text`. -/
  extractMeaningfulMessageText : String → String
  /-- `_format_timestamp` in the configured timezone. -/
  formatTimestamp : Timestamp → String → String
  /-- `extract_file_ids_from_content`. -/
  extractFileIdsFromContent : String → List String

structure PassEnv where
  config : CompactionConfig
  sourceText : SourceText
  summarize : SummarizeFn
  summaryModel : Option String
  now : Timestamp
  /-- `_generate_summary_id` at the time of the pass. -/
  generateSummaryId : String → SummaryId

inductive CompactionLevel
  | normal
  | aggressive
  | fallback
  | capped
  deriving DecidableEq, Repr

structure LeafPassResult where
  summaryId : SummaryId
  level : CompactionLevel
  content : String
  removedTokens : Nat
  addedTokens : Nat
  deriving DecidableEq, Repr

structure LeafPassOutcome where
  summary : Option LeafPassResult
  authFailure : Bool
  deriving DecidableEq, Repr

/-- `_summarize_with_escalation` and its condensed variant: a blank source or a
blank reply is a voluntary skip. -/
def summarizeWithEscalation (env : PassEnv) (sourceText : String) (options : SummarizeOptions) :
    Except Unit (Option (String × CompactionLevel)) :=
  if Text.isBlank sourceText then .ok none
  else match env.summarize sourceText false options with
    | .providerAuthError => .error ()
    | .notText => .ok none
    | .text content => if Text.isBlank content then .ok none else .ok (some (content, .normal))

/-- The first-seen order without repetitions. -/
def dedupeOrderedIds (ids : List String) : List String :=
  ids.foldl (fun ordered value => if value ∈ ordered then ordered else ordered ++ [value]) []

/-- The stripped contents of the readable summaries among `items`. -/
def summaryContents (db : Db) (items : List ContextItemRecord) (keep : SummaryRecord → Bool) :
    List String :=
  items.filterMap fun i =>
    match i.ref with
    | .message _ => none
    | .summary s =>
        ((db.getSummary s).filter keep).bind fun summary =>
          let content := Text.strip summary.content
          if content = "" then none else some content

/-- The last `count` summary items below the chunk. -/
def priorSummaryItems (db : Db) (conversationId : ConversationId)
    (items : List ContextItemRecord) (count : Nat) : List ContextItemRecord :=
  match (items.map (·.ordinal)).min? with
  | none => []
  | some startOrdinal =>
      let prior := (db.getContextItems conversationId).filter fun i =>
        i.ordinal < startOrdinal && i.ref.isSummary
      prior.drop (prior.length - count)

def joinedOrNone (contents : List String) : Option String :=
  if contents = [] then none else some ("\n\n".intercalate contents)

def resolvePriorLeafSummaryContext (db : Db) (conversationId : ConversationId)
    (messageItems : List ContextItemRecord) : Option String :=
  joinedOrNone (summaryContents db (priorSummaryItems db conversationId messageItems 2)
    fun _ => true)

def resolvePriorSummaryContextAtDepth (db : Db) (conversationId : ConversationId)
    (summaryItems : List ContextItemRecord) (targetDepth : Nat) : Option String :=
  let contents := summaryContents db (priorSummaryItems db conversationId summaryItems 4)
    fun s => s.depth = targetDepth
  joinedOrNone (contents.drop (contents.length - 2))

/-- The transaction of both passes: insert the summary, link its sources, swap
the range it replaces. -/
def persistPass (db : Db) (now : Timestamp) (create : CreateSummaryInput)
    (link : Db → Except SqlError Db) (startOrdinal endOrdinal : Int) : Except SqlError Db :=
  match db.insertSummary now create with
  | .error e => .error e
  | .ok db =>
      match link db with
      | .error e => .error e
      | .ok db =>
          db.replaceContextRangeWithSummary
            ⟨create.conversationId, startOrdinal, endOrdinal, create.summaryId⟩

/-! ## The leaf pass -/

def leafMessages (db : Db) (messageItems : List ContextItemRecord) : List MessageRecord :=
  messageItems.filterMap fun i =>
    match i.ref with
    | .message m => db.getMessageById m true
    | .summary _ => none

def leafSourceText (env : PassEnv) (entries : List (MessageRecord × String)) : String :=
  "\n\n".intercalate (entries.filterMap fun (message, content) =>
    let text := env.sourceText.extractMeaningfulMessageText content
    if text = "" then none
    else
      let timestamp := env.sourceText.formatTimestamp message.createdAt env.config.timezone
      some ("[" ++ timestamp ++ "]\n" ++ text))

def leafPass (db : Db) (env : PassEnv) (conversationId : ConversationId)
    (previousSummaryContent : Option String) : Db × Except SqlError LeafPassOutcome :=
  let messageItems := (selectOldestLeafChunk db env.config conversationId).items
  match (messageItems.map (·.ordinal)).min?, (messageItems.map (·.ordinal)).max? with
  | some startOrdinal, some endOrdinal =>
      let previousSummary :=
        match previousSummaryContent.filter fun c => !Text.isBlank c with
        | some content => some content
        | none => resolvePriorLeafSummaryContext db conversationId messageItems
      let messages := leafMessages db messageItems
      let entries := messages.map fun m =>
        (m, env.sourceText.annotateMediaContent (db.getMessageParts m.messageId) m.content)
      let fileIds := dedupeOrderedIds
        (entries.flatMap fun e => env.sourceText.extractFileIdsFromContent e.2)
      match summarizeWithEscalation env (leafSourceText env entries)
          { previousSummary := previousSummary, isCondensed := false,
            targetTokens := some env.config.leafTargetTokens, depth := none,
            summaryModel := env.summaryModel } with
      | .error () => (db, .ok ⟨none, true⟩)
      | .ok none => (db, .ok ⟨none, false⟩)
      | .ok (some (content, level)) =>
          let removedTokens := (messages.map resolveMessageTokenCount).sum
          let create : CreateSummaryInput :=
            { summaryId := env.generateSummaryId content, conversationId := conversationId,
              kind := .leaf, depth := some 0, content := content,
              tokenCount := estimateTokens content, fileIds := fileIds,
              earliestAt := (messages.map (·.createdAt)).min?,
              latestAt := (messages.map (·.createdAt)).max?,
              descendantCount := 0, descendantTokenCount := 0,
              sourceMessageTokenCount := removedTokens, model := env.summaryModel }
          withTransaction db fun db =>
            (persistPass db env.now create
              (fun db => db.linkSummaryToMessages create.summaryId (messages.map (·.messageId)))
              startOrdinal endOrdinal).map fun db =>
                (db, ⟨some ⟨create.summaryId, level, content, removedTokens,
                  create.tokenCount⟩, false⟩)
  | _, _ =>
      -- No compactable message: a clean termination, not a failure.
      (db, .ok ⟨none, false⟩)

/-- The row of a leaf pass, from its messages. -/
structure LeafCreate (messages : List MessageRecord) (create : CreateSummaryInput) : Prop where
  kind : create.kind = .leaf
  depth : create.depth = some 0
  earliestAt : create.earliestAt = (messages.map (·.createdAt)).min?
  latestAt : create.latestAt = (messages.map (·.createdAt)).max?
  descendantCount : create.descendantCount = 0
  descendantTokenCount : create.descendantTokenCount = 0
  sourceMessageTokenCount :
    create.sourceMessageTokenCount = (messages.map resolveMessageTokenCount).sum

/-- The same row, with the file ids of the messages. -/
structure LeafRow (db : Db) (sourceText : SourceText) (messages : List MessageRecord)
    (create : CreateSummaryInput) : Prop extends LeafCreate messages create where
  fileIds : create.fileIds = dedupeOrderedIds ((messages.map fun m =>
    (m, sourceText.annotateMediaContent (db.getMessageParts m.messageId) m.content)).flatMap
      fun e => sourceText.extractFileIdsFromContent e.2)

/-- All that a leaf pass can do to the database. -/
theorem leafPass_cases (db : Db) (env : PassEnv) (c : ConversationId)
    (previousSummaryContent : Option String) :
    (leafPass db env c previousSummaryContent).1 = db ∨
    ∃ create startOrdinal endOrdinal, create.conversationId = c ∧
      LeafRow db env.sourceText (leafMessages db (selectOldestLeafChunk db env.config c).items)
        create ∧
      ((selectOldestLeafChunk db env.config c).items.map (·.ordinal)).min? = some startOrdinal ∧
      ((selectOldestLeafChunk db env.config c).items.map (·.ordinal)).max? = some endOrdinal ∧
      persistPass db env.now create
        (fun db' => db'.linkSummaryToMessages create.summaryId
          ((leafMessages db (selectOldestLeafChunk db env.config c).items).map (·.messageId)))
        startOrdinal endOrdinal = .ok (leafPass db env c previousSummaryContent).1 := by
  unfold leafPass
  dsimp only
  split
  · rename_i startOrdinal endOrdinal hStart hEnd
    split
    · exact Or.inl rfl
    · exact Or.inl rfl
    · refine (withTransaction_map _ _ _).imp id fun hPersist => ?_
      exact ⟨_, startOrdinal, endOrdinal, rfl, ⟨⟨rfl, rfl, rfl, rfl, rfl, rfl, rfl⟩, rfl⟩, hStart,
        hEnd, hPersist⟩
  · exact Or.inl rfl

/-! ## The condensed pass -/

def condensedRecords (db : Db) (summaryItems : List ContextItemRecord) : List SummaryRecord :=
  summaryItems.filterMap fun i =>
    match i.ref with
    | .message _ => none
    | .summary s => db.getSummary s

def condensedSourceText (env : PassEnv) (records : List SummaryRecord) : String :=
  "\n\n".intercalate (records.map fun s =>
    "[" ++ env.sourceText.formatTimestamp (s.earliestAt.getD s.createdAt) env.config.timezone ++
      " - " ++ env.sourceText.formatTimestamp (s.latestAt.getD s.createdAt) env.config.timezone ++
      "]\n" ++ s.content)

/-- The authentication failure that `_condensed_pass` raises is returned as the
outcome its only caller turns it into. -/
def condensedPass (db : Db) (env : PassEnv) (conversationId : ConversationId)
    (summaryItems : List ContextItemRecord) (targetDepth : Nat) :
    Db × Except SqlError LeafPassOutcome :=
  let records := condensedRecords db summaryItems
  let fileIds := dedupeOrderedIds
    (records.flatMap fun s => s.fileIds ++ env.sourceText.extractFileIdsFromContent s.content)
  let previousSummary :=
    if targetDepth = 0 then
      resolvePriorSummaryContextAtDepth db conversationId summaryItems targetDepth
    else none
  match summarizeWithEscalation env (condensedSourceText env records)
      { previousSummary := previousSummary, isCondensed := true, targetTokens := none,
        depth := some (targetDepth + 1), summaryModel := env.summaryModel } with
  | .error () => (db, .ok ⟨none, true⟩)
  | .ok none => (db, .ok ⟨none, false⟩)
  | .ok (some (content, level)) =>
      match (summaryItems.map (·.ordinal)).min?, (summaryItems.map (·.ordinal)).max? with
      | some startOrdinal, some endOrdinal =>
          let create : CreateSummaryInput :=
            { summaryId := env.generateSummaryId content, conversationId := conversationId,
              kind := .condensed, depth := some (targetDepth + 1), content := content,
              tokenCount := estimateTokens content, fileIds := fileIds,
              earliestAt := (records.map fun s => s.earliestAt.getD s.createdAt).min?,
              latestAt := (records.map fun s => s.latestAt.getD s.createdAt).max?,
              descendantCount := (records.map fun s => s.descendantCount + 1).sum,
              descendantTokenCount :=
                (records.map fun s => s.descendantTokenCount + s.tokenCount).sum,
              sourceMessageTokenCount := (records.map (·.sourceMessageTokenCount)).sum,
              model := env.summaryModel }
          withTransaction db fun db =>
            (persistPass db env.now create
              (fun db => db.linkSummaryToParents create.summaryId (records.map (·.summaryId)))
              startOrdinal endOrdinal).map fun db =>
                (db, ⟨some ⟨create.summaryId, level, content,
                  (records.map (·.tokenCount)).sum, create.tokenCount⟩, false⟩)
      | _, _ =>
          -- An empty chunk; the only caller passes a nonempty one.
          (db, .ok ⟨none, false⟩)

def runCondensedPass (db : Db) (env : PassEnv) (conversationId : ConversationId)
    (hardTrigger : Bool) : Db × Except SqlError LeafPassOutcome :=
  match selectShallowestCondensationCandidate db env.config conversationId hardTrigger with
  | none => (db, .ok ⟨none, false⟩)
  | some candidate =>
      condensedPass db env conversationId candidate.chunk.items candidate.targetDepth

/-- The row of a condensed pass, from its source summaries. -/
structure CondensedCreate (records : List SummaryRecord) (targetDepth : Nat)
    (create : CreateSummaryInput) : Prop where
  kind : create.kind = .condensed
  depth : create.depth = some (targetDepth + 1)
  earliestAt : create.earliestAt = (records.map fun s => s.earliestAt.getD s.createdAt).min?
  latestAt : create.latestAt = (records.map fun s => s.latestAt.getD s.createdAt).max?
  descendantCount : create.descendantCount = (records.map fun s => s.descendantCount + 1).sum
  descendantTokenCount : create.descendantTokenCount =
    (records.map fun s => s.descendantTokenCount + s.tokenCount).sum
  sourceMessageTokenCount :
    create.sourceMessageTokenCount = (records.map (·.sourceMessageTokenCount)).sum

/-- The same row, with the file ids of the sources and of their texts. -/
structure CondensedRow (sourceText : SourceText) (records : List SummaryRecord)
    (targetDepth : Nat) (create : CreateSummaryInput) : Prop
    extends CondensedCreate records targetDepth create where
  fileIds : create.fileIds = dedupeOrderedIds (records.flatMap fun s =>
    s.fileIds ++ sourceText.extractFileIdsFromContent s.content)

/-- All that a condensed pass can do to the database. -/
theorem runCondensedPass_cases (db : Db) (env : PassEnv) (c : ConversationId)
    (hardTrigger : Bool) :
    (runCondensedPass db env c hardTrigger).1 = db ∨
    ∃ candidate create startOrdinal endOrdinal,
      selectShallowestCondensationCandidate db env.config c hardTrigger = some candidate ∧
      create.conversationId = c ∧
      CondensedRow env.sourceText (condensedRecords db candidate.chunk.items)
        candidate.targetDepth create ∧
      (candidate.chunk.items.map (·.ordinal)).min? = some startOrdinal ∧
      (candidate.chunk.items.map (·.ordinal)).max? = some endOrdinal ∧
      persistPass db env.now create
        (fun db' => db'.linkSummaryToParents create.summaryId
          ((condensedRecords db candidate.chunk.items).map (·.summaryId)))
        startOrdinal endOrdinal = .ok (runCondensedPass db env c hardTrigger).1 := by
  unfold runCondensedPass
  split
  · exact Or.inl rfl
  · rename_i candidate hCandidate
    unfold condensedPass
    dsimp only
    split
    · exact Or.inl rfl
    · exact Or.inl rfl
    · split
      · rename_i startOrdinal endOrdinal hStart hEnd
        refine (withTransaction_map _ _ _).imp id fun hPersist => ?_
        exact ⟨candidate, _, startOrdinal, endOrdinal, hCandidate, rfl,
          ⟨⟨rfl, rfl, rfl, rfl, rfl, rfl, rfl⟩, rfl⟩, hStart, hEnd, hPersist⟩
      · exact Or.inl rfl

end LosslessHermes.Compaction
