import LosslessHermes.Library.Groups
import LosslessHermes.Operator.Cleaners

/-!
# The dry run of the cleaners

`scan_doctor_cleaners` stages the candidates of the selected cleaners, the number of messages
and the first message of each candidate, and the pairs of a cleaner and a conversation that it
matches; counts and examples are read from the staged tables.
-/

namespace LosslessHermes

/-- The candidates are the conversations of a broader predicate that no message decides. -/
structure ScannedCleaner extends CleanerDefinition where
  label : String
  description : String
  candidatePredicate : (archivedAt : ConversationId → Option Timestamp) →
    ConversationRecord → Bool
  needsFirstMessage : Bool
  candidate : ∀ {archivedAt firstMessagePreview c},
    predicate archivedAt firstMessagePreview c = true → candidatePredicate archivedAt c = true
  unread : needsFirstMessage = false → ∀ archivedAt firstMessagePreview c,
    predicate archivedAt firstMessagePreview c = predicate archivedAt none c

def scannedArchivedSubagents : ScannedCleaner where
  toCleanerDefinition := archivedSubagents
  label := "Archived subagents"
  description := "Archived subagent conversations keyed as agent:main:subagent:*."
  candidatePredicate _ c := !c.active && keyLike "agent:main:subagent:" c
  needsFirstMessage := false
  candidate hMatch := hMatch
  unread _ _ _ _ := rfl

def scannedCronSessions : ScannedCleaner where
  toCleanerDefinition := cronSessions
  label := "Cron sessions"
  description := "Background cron conversations keyed as agent:main:cron:*."
  candidatePredicate _ c := keyLike "agent:main:cron:" c
  needsFirstMessage := false
  candidate hMatch := hMatch
  unread _ _ _ _ := rfl

def scannedNullSubagentContext : ScannedCleaner where
  toCleanerDefinition := nullSubagentContext
  label := "NULL-key subagent context"
  description := "Archived conversations with NULL session_key whose first stored " ++
    "message begins with [Subagent Context]."
  candidatePredicate archivedAt c :=
    c.sessionKey.isNone && !c.active && (archivedAt c.conversationId).isSome
  needsFirstMessage := true
  candidate hMatch := (Bool.and_eq_true_iff.mp hMatch).1
  unread hNeeds := nomatch hNeeds

def scannedCleaners : List ScannedCleaner :=
  [scannedArchivedSubagents, scannedCronSessions, scannedNullSubagentContext]

/-- The selection of `getCleanerDefinitions`. -/
def getScannedCleaners (filterIds : List String) : List ScannedCleaner :=
  if filterIds = [] then scannedCleaners
  else scannedCleaners.filter fun definition => definition.id ∈ filterIds

/-! ## What a scan reports -/

structure DoctorCleanerExample where
  conversationId : ConversationId
  sessionKey : Option String
  messageCount : Nat
  firstMessagePreview : Option String
  deriving DecidableEq, Repr

structure DoctorCleanerFilterStat where
  id : String
  label : String
  description : String
  conversationCount : Nat
  messageCount : Nat
  examples : List DoctorCleanerExample
  deriving DecidableEq, Repr

structure DoctorCleanerScan where
  filters : List DoctorCleanerFilterStat
  totalDistinctConversations : Nat
  totalDistinctMessages : Nat
  deriving DecidableEq, Repr

def firstMessagePreviewTrim : Nat := 120

/-- Runs of white space become one space. -/
def normalizeFirstMessagePreview (value : Option String) : Option String :=
  value.bind fun value =>
    let words := (value.toList.splitOnP Text.isSpace).filter (· ≠ [])
    let normalized := List.intercalate [' '] words
    if normalized = [] then none
    else if normalized.length ≤ firstMessagePreviewTrim then some (String.ofList normalized)
    else some (String.ofList (normalized.take (firstMessagePreviewTrim - 3)) ++ "...")

/-! ## The staged tables -/

/-- A row of `doctor_cleaner_scan_message_stats`. -/
structure CleanerMessageStats where
  conversationId : ConversationId
  firstMessagePreview : Option String
  messageCount : Nat
  deriving DecidableEq, Repr

/-- The counts of one filter, with the totals that each row repeats. -/
structure CleanerCountRow where
  filterId : String
  conversationCount : Nat
  messageCount : Nat
  totalConversationCount : Nat
  totalMessageCount : Nat
  deriving DecidableEq, Repr

/-- The content of the row that a window over the messages of one conversation ranks first. -/
def earliestPreview (messages : List MessageRecord) : Option String :=
  let messages := messages.insertionSort fun a b =>
    a.seq < b.seq ∨ a.seq = b.seq ∧ (a.createdAt < b.createdAt ∨
      a.createdAt = b.createdAt ∧ a.messageId ≤ b.messageId)
  messages.head?.map fun m => String.ofList (m.content.toList.take firstMessagePreviewLimit)

namespace OperatorDb

/-- `_build_candidate_conversations_sql`, a `UNION`. -/
def candidateConversations (db : OperatorDb) (archivedAt : ConversationId → Option Timestamp)
    (definitions : List ScannedCleaner) : List ConversationId :=
  (definitions.flatMap fun definition =>
    (db.conversations.filter (definition.candidatePredicate archivedAt)).map
      (·.conversationId)).dedup

/-- `_build_matched_conversations_sql`, a `UNION ALL`. Only the arm of a cleaner that needs the
first message joins the table with `preview`. -/
def matchedConversations (db : OperatorDb) (archivedAt : ConversationId → Option Timestamp)
    (definitions : List ScannedCleaner) (preview : ConversationId → Option String) :
    List (String × ConversationId) :=
  definitions.flatMap fun definition =>
    (db.conversations.filter fun c => definition.predicate archivedAt
      (if definition.needsFirstMessage then preview c.conversationId else none) c).map
        fun c => (definition.id, c.conversationId)

def scanMessageStats (db : OperatorDb) (archivedAt : ConversationId → Option Timestamp)
    (definitions : List ScannedCleaner) : List CleanerMessageStats :=
  let candidates := db.candidateConversations archivedAt definitions
  Groups.groupBy (·.conversationId)
    (fun c messages =>
      { conversationId := c
        firstMessagePreview :=
          if definitions.any (·.needsFirstMessage) then earliestPreview messages else none
        messageCount := messages.length })
    (db.messages.filter fun m => m.conversationId ∈ candidates)

def scanMatches (db : OperatorDb) (archivedAt : ConversationId → Option Timestamp)
    (definitions : List ScannedCleaner) : List (String × ConversationId) :=
  let stats := db.scanMessageStats archivedAt definitions
  db.matchedConversations archivedAt definitions fun c =>
    (Groups.joined (·.conversationId) stats c).bind (·.firstMessagePreview)

/-! ## The two queries -/

/-- `COALESCE(stats.message_count, 0)`. -/
def scannedMessageCount (stats : List CleanerMessageStats) (c : ConversationId) : Nat :=
  ((Groups.joined (·.conversationId) stats c).map (·.messageCount)).getD 0

def scanCounts (stats : List CleanerMessageStats) (found : List (String × ConversationId)) :
    List CleanerCountRow :=
  let distinct := (found.map Prod.snd).dedup
  Groups.groupBy Prod.fst
    (fun filterId rows =>
      { filterId := filterId
        conversationCount := rows.length
        messageCount := (rows.map fun row => scannedMessageCount stats row.2).sum
        totalConversationCount := distinct.length
        totalMessageCount := (distinct.map (scannedMessageCount stats)).sum })
    found

/-- The three conversations of a filter with the most messages, the latest first among equals. -/
def scanExamples (db : OperatorDb) (stats : List CleanerMessageStats)
    (found : List (String × ConversationId)) (filterId : String) : List DoctorCleanerExample :=
  let rows := (Groups.group Prod.fst found filterId).flatMap fun row =>
    db.conversations.filter fun c => c.conversationId = row.2
  let count := fun c : ConversationRecord => scannedMessageCount stats c.conversationId
  let ranked := rows.insertionSort fun a b =>
    count b < count a ∨ count a = count b ∧ (b.createdAt < a.createdAt ∨
      a.createdAt = b.createdAt ∧ b.conversationId ≤ a.conversationId)
  (ranked.take 3).map fun c =>
    { conversationId := c.conversationId
      sessionKey := c.sessionKey
      messageCount := count c
      firstMessagePreview := normalizeFirstMessagePreview
        ((Groups.joined (·.conversationId) stats c.conversationId).bind
          (·.firstMessagePreview)) }

def scanDoctorCleaners (db : OperatorDb) (archivedAt : ConversationId → Option Timestamp)
    (filterIds : List String) : DoctorCleanerScan :=
  match getScannedCleaners filterIds with
  | [] => { filters := [], totalDistinctConversations := 0, totalDistinctMessages := 0 }
  | definitions =>
      let stats := db.scanMessageStats archivedAt definitions
      let found := db.scanMatches archivedAt definitions
      let counts := scanCounts stats found
      { filters := definitions.map fun definition =>
          let row := Groups.joined (·.filterId) counts definition.id
          { id := definition.id
            label := definition.label
            description := definition.description
            conversationCount := (row.map (·.conversationCount)).getD 0
            messageCount := (row.map (·.messageCount)).getD 0
            examples := db.scanExamples stats found definition.id }
        totalDistinctConversations := (counts.head?.map (·.totalConversationCount)).getD 0
        totalDistinctMessages := (counts.head?.map (·.totalMessageCount)).getD 0 }

/-! ## The staged tables are those of the messages -/

variable {db : OperatorDb} {archivedAt : ConversationId → Option Timestamp}
  {definitions : List ScannedCleaner}

theorem mem_candidateConversations {definition : ScannedCleaner} {c : ConversationRecord}
    (hDefinition : definition ∈ definitions) (hRow : c ∈ db.conversations)
    (hCandidate : definition.candidatePredicate archivedAt c = true) :
    c.conversationId ∈ db.candidateConversations archivedAt definitions :=
  List.mem_dedup.mpr (List.mem_flatMap.mpr ⟨definition, hDefinition,
    List.mem_map.mpr ⟨c, List.mem_filter.mpr ⟨hRow, hCandidate⟩, rfl⟩⟩)

/-- A candidate without messages has no row. -/
theorem scannedMessageCount_scanMessageStats {c : ConversationId}
    (hCandidate : c ∈ db.candidateConversations archivedAt definitions) :
    scannedMessageCount (db.scanMessageStats archivedAt definitions) c =
      (Groups.group (·.conversationId) db.messages c).length := by
  unfold scannedMessageCount scanMessageStats
  rw [Groups.getD_joined_groupBy (fun _ _ => rfl) (fun _ => rfl),
    Groups.group_filter_mem hCandidate]

theorem preview_scanMessageStats {c : ConversationId}
    (hNeeds : definitions.any (·.needsFirstMessage) = true)
    (hCandidate : c ∈ db.candidateConversations archivedAt definitions) :
    (Groups.joined (·.conversationId) (db.scanMessageStats archivedAt definitions) c).bind
      (·.firstMessagePreview) = db.firstMessagePreview c := by
  have hBind : ∀ row : Option CleanerMessageStats, row.bind (·.firstMessagePreview) =
      (row.map (·.firstMessagePreview)).getD none := by
    intro row
    cases row <;> rfl
  unfold scanMessageStats
  rw [hBind, Groups.getD_joined_groupBy (fun _ _ => rfl), if_pos hNeeds,
    Groups.group_filter_mem hCandidate]
  · rfl
  · intro c
    exact ite_self none

/-! ## What the cleaners match -/

/-- The staged previews agree with the messages wherever a predicate reads them. -/
theorem matchedConversations_eq {preview : ConversationId → Option String}
    (hPreview : ∀ definition ∈ definitions, definition.needsFirstMessage = true →
      ∀ c ∈ db.conversations, definition.candidatePredicate archivedAt c = true →
        preview c.conversationId = db.firstMessagePreview c.conversationId) :
    db.matchedConversations archivedAt definitions preview =
      definitions.flatMap fun definition =>
        (db.cleanerConversationIds archivedAt [definition.toCleanerDefinition]).map
          fun c => (definition.id, c) := by
  unfold matchedConversations cleanerConversationIds
  refine List.flatMap_congr fun definition hDefinition => ?_
  rw [List.map_map]
  refine congrArg (List.map _) (List.filter_congr fun c hRow => ?_)
  rw [List.any_cons, List.any_nil, Bool.or_false]
  cases hNeeds : definition.needsFirstMessage with
  | false => exact (definition.unread hNeeds archivedAt _ c).symm
  | true =>
    rw [if_pos rfl]
    cases hCandidate : definition.candidatePredicate archivedAt c with
    | true => rw [hPreview definition hDefinition hNeeds c hRow hCandidate]
    | false =>
      -- No preview makes the predicate hold outside of the candidates.
      have hNone : ∀ p, definition.predicate archivedAt p c = false := fun p =>
        Bool.eq_false_iff.mpr fun hMatch =>
          Bool.false_ne_true (hCandidate.symm.trans (definition.candidate hMatch))
      rw [hNone, hNone]

theorem scanMatches_eq :
    db.scanMatches archivedAt definitions = definitions.flatMap fun definition =>
      (db.cleanerConversationIds archivedAt [definition.toCleanerDefinition]).map
        fun c => (definition.id, c) := by
  unfold scanMatches
  refine matchedConversations_eq fun definition hDefinition hNeeds c hRow hCandidate => ?_
  exact preview_scanMessageStats (List.any_eq_true.mpr ⟨definition, hDefinition, hNeeds⟩)
    (mem_candidateConversations hDefinition hRow hCandidate)

/-- What several cleaners match together is what one of them matches alone. -/
theorem mem_cleanerConversationIds {definitions : List CleanerDefinition} {c : ConversationId} :
    c ∈ db.cleanerConversationIds archivedAt definitions ↔
      ∃ definition ∈ definitions, c ∈ db.cleanerConversationIds archivedAt [definition] := by
  unfold cleanerConversationIds
  simp only [List.mem_map, List.mem_filter, List.any_eq_true, List.mem_singleton]
  constructor
  · rintro ⟨row, ⟨hRow, definition, hDefinition, hMatch⟩, rfl⟩
    exact ⟨definition, hDefinition, row, ⟨hRow, definition, rfl, hMatch⟩, rfl⟩
  · rintro ⟨definition, hDefinition, row, ⟨hRow, _, rfl, hMatch⟩, rfl⟩
    exact ⟨row, ⟨hRow, _, hDefinition, hMatch⟩, rfl⟩

/-- The union of the selected cleaners, without a cleaner's name. -/
theorem mem_snd_flatMap {c : ConversationId} :
    (c ∈ (definitions.flatMap fun definition =>
      (db.cleanerConversationIds archivedAt [definition.toCleanerDefinition]).map
        fun c => (definition.id, c)).map Prod.snd) ↔
      c ∈ db.cleanerConversationIds archivedAt (definitions.map (·.toCleanerDefinition)) := by
  rw [mem_cleanerConversationIds, List.map_flatMap, List.mem_flatMap]
  simp only [List.map_map, Function.comp_def, List.map_id', List.mem_map, exists_exists_and_eq_and]

/-! ## The counts -/

theorem map_getScannedCleaners (filterIds : List String) :
    (getScannedCleaners filterIds).map (·.toCleanerDefinition) =
      getCleanerDefinitions filterIds := by
  unfold getScannedCleaners getCleanerDefinitions
  split
  · rfl
  · have hAll : scannedCleaners.map (·.toCleanerDefinition) = cleanerDefinitions := rfl
    rw [← hAll, List.filter_map]
    rfl

theorem nodup_getScannedCleaners (filterIds : List String) :
    ((getScannedCleaners filterIds).map (·.id)).Nodup := by
  have hAll : (scannedCleaners.map (·.id)).Nodup := by decide
  unfold getScannedCleaners
  split
  · exact hAll
  · exact hAll.sublist (List.filter_sublist.map _)

theorem nodup_cleanerConversationIds (hKeys : (db.conversations.map (·.conversationId)).Nodup)
    (definitions : List CleanerDefinition) :
    (db.cleanerConversationIds archivedAt definitions).Nodup :=
  hKeys.sublist (List.filter_sublist.map _)

theorem candidate_of_mem_cleanerConversationIds {c : ConversationId}
    (hMem : c ∈ db.cleanerConversationIds archivedAt (definitions.map (·.toCleanerDefinition))) :
    c ∈ db.candidateConversations archivedAt definitions := by
  obtain ⟨row, hRow, rfl⟩ := List.mem_map.mp hMem
  obtain ⟨hRow, hMatch⟩ := List.mem_filter.mp hRow
  rw [List.any_map] at hMatch
  obtain ⟨definition, hDefinition, hMatch⟩ := List.any_eq_true.mp hMatch
  exact mem_candidateConversations hDefinition hRow (definition.candidate hMatch)

/-- The counts of candidates add up to the number of their messages. -/
theorem sum_scannedMessageCount {ids : List ConversationId} (hNodup : ids.Nodup)
    (hCandidates : ∀ c ∈ ids, c ∈ db.candidateConversations archivedAt definitions) :
    (ids.map (scannedMessageCount (db.scanMessageStats archivedAt definitions))).sum =
      (db.cleanerMessageIds ids).length := by
  unfold cleanerMessageIds
  rw [List.length_map, ← Groups.sum_length_group hNodup]
  exact congrArg List.sum (List.map_congr_left fun c hMem =>
    scannedMessageCount_scanMessageStats (hCandidates c hMem))

/-- Without rows there is nothing to count. -/
theorem totals_scanCounts (stats : List CleanerMessageStats)
    (found : List (String × ConversationId)) :
    ((scanCounts stats found).head?.map (·.totalConversationCount)).getD 0 =
        ((found.map Prod.snd).dedup).length ∧
      ((scanCounts stats found).head?.map (·.totalMessageCount)).getD 0 =
        (((found.map Prod.snd).dedup).map (scannedMessageCount stats)).sum := by
  unfold scanCounts
  constructor
  · refine Groups.getD_head?_groupBy (fun _ _ => rfl) fun hNone => ?_
    rw [hNone]
    rfl
  · refine Groups.getD_head?_groupBy (fun _ _ => rfl) fun hNone => ?_
    rw [hNone]
    rfl

/-- What one filter reports is the number of the conversations it matches alone, and of their
messages. -/
theorem filters_scanDoctorCleaners (hKeys : (db.conversations.map (·.conversationId)).Nodup)
    (filterIds : List String) :
    List.Forall₂
      (fun (stat : DoctorCleanerFilterStat) definition => stat.id = definition.id ∧
        stat.conversationCount = (db.cleanerConversationIds archivedAt [definition]).length ∧
        stat.messageCount = (db.cleanerMessageIds
          (db.cleanerConversationIds archivedAt [definition])).length)
      (db.scanDoctorCleaners archivedAt filterIds).filters (getCleanerDefinitions filterIds) := by
  rw [← map_getScannedCleaners, List.forall₂_map_right_iff]
  have hNames := nodup_getScannedCleaners filterIds
  unfold scanDoctorCleaners
  generalize getScannedCleaners filterIds = definitions at hNames ⊢
  cases definitions with
  | nil => exact .nil
  | cons first rest =>
    dsimp only
    rw [List.forall₂_map_left_iff, List.forall₂_same]
    intro definition hDefinition
    have hGroup := Groups.group_flatMap hNames hDefinition fun definition =>
      db.cleanerConversationIds archivedAt [definition.toCleanerDefinition]
    have hCandidates : ∀ c ∈ db.cleanerConversationIds archivedAt
        [definition.toCleanerDefinition],
        c ∈ db.candidateConversations archivedAt (first :: rest) := by
      intro c hMem
      have hUnion := mem_snd_flatMap.mp (List.mem_map_of_mem (f := Prod.snd)
        (List.mem_flatMap.mpr ⟨definition, hDefinition, List.mem_map_of_mem hMem⟩))
      exact candidate_of_mem_cleanerConversationIds hUnion
    unfold scanCounts
    rw [Groups.getD_joined_groupBy (fun _ _ => rfl) (fun _ => rfl),
      Groups.getD_joined_groupBy (fun _ _ => rfl) (fun _ => rfl), scanMatches_eq, hGroup]
    refine ⟨rfl, List.length_map .., ?_⟩
    rw [List.map_map]
    exact sum_scannedMessageCount (nodup_cleanerConversationIds hKeys _) hCandidates

/-- The distinct totals are the numbers of the conversations that the selected cleaners match
together, and of their messages. -/
theorem totals_scanDoctorCleaners (hKeys : (db.conversations.map (·.conversationId)).Nodup)
    (filterIds : List String) :
    (db.scanDoctorCleaners archivedAt filterIds).totalDistinctConversations =
        (db.cleanerConversationIds archivedAt (getCleanerDefinitions filterIds)).length ∧
      (db.scanDoctorCleaners archivedAt filterIds).totalDistinctMessages =
        (db.cleanerMessageIds
          (db.cleanerConversationIds archivedAt (getCleanerDefinitions filterIds))).length := by
  rw [← map_getScannedCleaners]
  unfold scanDoctorCleaners
  generalize getScannedCleaners filterIds = definitions
  have hNodup := @nodup_cleanerConversationIds db archivedAt hKeys
    (definitions.map (·.toCleanerDefinition))
  have hPerm : (((db.scanMatches archivedAt definitions).map Prod.snd).dedup).Perm
      (db.cleanerConversationIds archivedAt (definitions.map (·.toCleanerDefinition))) := by
    refine (List.perm_ext_iff_of_nodup (List.nodup_dedup _) hNodup).mpr fun c => ?_
    rw [List.mem_dedup, scanMatches_eq]
    exact mem_snd_flatMap
  cases definitions with
  | nil => simp [cleanerConversationIds, cleanerMessageIds]
  | cons first rest =>
    obtain ⟨hConversations, hMessages⟩ := totals_scanCounts
      (db.scanMessageStats archivedAt (first :: rest)) (db.scanMatches archivedAt (first :: rest))
    dsimp only
    rw [hConversations, hMessages, hPerm.length_eq, (hPerm.map _).sum_eq]
    exact ⟨rfl, sum_scannedMessageCount hNodup fun c hMem =>
      candidate_of_mem_cleanerConversationIds hMem⟩

end OperatorDb
end LosslessHermes
