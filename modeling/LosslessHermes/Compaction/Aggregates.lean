import LosslessHermes.Compaction.Metadata

/-!
# One level of the summary DAG

`Metadata` gives the columns of a summary by everything below it. Here they are
given by the rows one level down: `OfMessages` for a leaf and `OfSummaries` for a
condensed summary. `rooted_run` has them in every reachable state, whatever token
counts the messages were ingested with.
-/

namespace LosslessHermes.Compaction

/-- The columns of a leaf, by the messages that it was made from. -/
structure OfMessages (db : Db) (record : SummaryRecord) (messages : List MessageRecord) :
    Prop where
  kind : record.kind = .leaf
  depth : record.depth = 0
  parents : db.getSummaryParents record.summaryId = []
  ids : db.getSummaryMessages record.summaryId = messages.map (·.messageId)
  stored : ∀ m ∈ messages, db.getMessageById m.messageId true = some m
  ne : messages ≠ []
  earliestAt : record.earliestAt = (messages.map (·.createdAt)).min?
  latestAt : record.latestAt = (messages.map (·.createdAt)).max?
  descendantCount : record.descendantCount = 0
  descendantTokenCount : record.descendantTokenCount = 0
  sourceMessageTokenCount :
    record.sourceMessageTokenCount = (messages.map resolveMessageTokenCount).sum

/-- The columns of a condensed summary, by the summaries that it was made from. -/
structure OfSummaries (db : Db) (record : SummaryRecord) (sources : List SummaryRecord)
    (level : Nat) : Prop where
  kind : record.kind = .condensed
  depth : record.depth = level + 1
  parents : db.getSummaryParents record.summaryId = sources
  ids : db.getSummaryMessages record.summaryId = []
  ne : sources ≠ []
  level : ∀ p ∈ sources, p.depth = level
  home : ∀ p ∈ sources, p.conversationId = record.conversationId
  earliestAt : record.earliestAt = (sources.map fun p => p.earliestAt.getD p.createdAt).min?
  latestAt : record.latestAt = (sources.map fun p => p.latestAt.getD p.createdAt).max?
  descendantCount : record.descendantCount = (sources.map fun p => p.descendantCount + 1).sum
  descendantTokenCount : record.descendantTokenCount =
    (sources.map fun p => p.descendantTokenCount + p.tokenCount).sum
  sourceMessageTokenCount :
    record.sourceMessageTokenCount = (sources.map (·.sourceMessageTokenCount)).sum

inductive Aggregated (db : Db) (record : SummaryRecord) : Prop
  | leaf (messages : List MessageRecord) (h : OfMessages db record messages)
  | condensed (sources : List SummaryRecord) (level : Nat) (h : OfSummaries db record sources level)

/-- A summary that nothing was suppressed of, with its sources in its own conversation. -/
structure Rooted (db : Db) : Prop where
  visible : ∀ r ∈ db.summaries, r.suppressedAt = none
  unique : (db.summaries.map (·.summaryId)).Nodup
  home : ∀ c s, .summary s ∈ (db.getContextItems c).map (·.ref) →
    ∀ record, db.getSummary s = some record → record.conversationId = c
  rows : ∀ s record, db.getSummary s = some record → Aggregated db record

theorem rooted_start (conversations : List ConversationRecord) :
    Rooted (RunState.start conversations).db := by
  refine ⟨?_, ?_, ?_, ?_⟩ <;>
    simp [RunState.start, Db.empty, Db.getSummary, Db.getContextItems, Table.select]

variable {db db' : Db} {ingested : ConversationId → List MessageId}

/-! ## Ingestion -/

/-- What is written behind a summary and its messages does not change its columns. -/
theorem Aggregated.older {record : SummaryRecord} (h : Aggregated db record)
    (hRecord : db.getSummary record.summaryId = some record) (hOlder : Db.Extends db db')
    (hMessages : ∀ m found, db.getMessageById m true = some found →
      db'.getMessageById m true = some found) : Aggregated db' record := by
  have hParents := hOlder.parents _ _ hRecord
  have hIds := hOlder.messages _ _ hRecord
  cases h with
  | leaf messages h =>
    exact .leaf messages { h with
      parents := hParents.trans h.parents
      ids := hIds.trans h.ids
      stored := fun m hm => hMessages _ _ (h.stored m hm) }
  | condensed sources level h =>
    exact .condensed sources level { h with
      parents := hParents.trans h.parents
      ids := hIds.trans h.ids }

theorem rooted_persist (h : Rooted db) {c : ConversationId} {message : MessageRecord}
    (hPersisted : MessagePersisted db db' c message) : Rooted db' := by
  have hSummaries := hPersisted.summaries
  refine ⟨hSummaries ▸ h.visible, hSummaries ▸ h.unique, ?_, ?_⟩
  · intro c' s hRef record hRecord
    rw [hPersisted.getSummary] at hRecord
    by_cases hc : c' = c
    · subst hc
      rw [hPersisted.refs, List.mem_append] at hRef
      rcases hRef with hRef | hRef
      · exact h.home c' s hRef record hRecord
      · cases List.mem_singleton.mp hRef
    · rw [hPersisted.otherItems c' hc] at hRef
      exact h.home c' s hRef record hRecord
  · intro s record hRecord
    rw [hPersisted.getSummary] at hRecord
    have hId := (Db.mem_of_getSummary hRecord).2
    exact (h.rows s record hRecord).older (hId ▸ hRecord) hPersisted.older
      fun _ _ => hPersisted.getMessageById

/-! ## The two passes -/

section Replace

variable {c : ConversationId} {record : SummaryRecord} {messageIds : List MessageId}
  {parentIds : List SummaryId} {before chunk after : List ContextItemRecord}

theorem rooted_replace (hLossless : Lossless db ingested) (h : Rooted db)
    (hReplaced : ChunkReplaced db db' c record messageIds parentIds before chunk after)
    (hHome : record.conversationId = c) (hNew : Aggregated db' record) : Rooted db' := by
  have hOlder := hReplaced.older hLossless
  refine ⟨hReplaced.visible h.visible, hReplaced.unique h.unique, ?_, ?_⟩
  · intro c' s hRef found hFound
    have hOld : ∀ {c'}, .summary s ∈ (db.getContextItems c').map (·.ref) →
        found.conversationId = c' := by
      intro c' hRef
      rcases hReplaced.getSummary_cases hFound with hFound | ⟨rfl, -⟩
      · exact h.home c' s hRef found hFound
      · -- no context refers to the id of a summary that does not exist yet
        obtain ⟨old, hOld⟩ := hLossless.getSummary_of_mem hRef
        exact absurd (List.mem_map.mpr ⟨old, Db.mem_of_getSummary hOld⟩) hReplaced.summary.fresh
    by_cases hc : c' = c
    · subst hc
      rw [hReplaced.refs] at hRef
      rcases List.mem_append.mp hRef with hRef | hRef
      · rcases List.mem_append.mp hRef with hRef | hRef
        · refine hOld ?_
          rw [hReplaced.oldRefs]
          exact List.mem_append_left _ (List.mem_append_left _ hRef)
        · obtain rfl := ContextItemRef.summary.inj (List.mem_singleton.mp hRef)
          rw [hReplaced.getSummary_self] at hFound
          rw [← Option.some.inj hFound]
          exact hHome
      · refine hOld ?_
        rw [hReplaced.oldRefs]
        exact List.mem_append_right _ hRef
    · rw [hReplaced.other c' hc] at hRef
      exact hOld hRef
  · intro s found hFound
    rcases hReplaced.getSummary_cases hFound with hOld | ⟨-, rfl⟩
    · exact (h.rows s found hOld).older ((Db.mem_of_getSummary hOld).2 ▸ hOld) hOlder
        fun m old hOld => (hReplaced.getMessageById_eq m).trans hOld
    · exact hNew

end Replace

theorem rooted_leafPass (hLossless : Lossless db ingested) (h : Rooted db) (env : PassEnv)
    (c : ConversationId) (previousSummaryContent : Option String) :
    Rooted (leafPass db env c previousSummaryContent).1 := by
  rcases leafPass_replaced hLossless env c previousSummaryContent with hSame |
    ⟨create, before, chunk, after, hCreate, hReplaced, hNe, hRefs, hHome⟩
  · rw [hSame]
    exact h
  refine rooted_replace hLossless h hReplaced hHome (.leaf (leafMessages db chunk) ?_)
  refine ⟨hCreate.kind, ?_, List.map_eq_nil_iff.mp (hReplaced.getSummaryParents_self hLossless),
    hReplaced.getSummaryMessages_self hLossless, fun m hm => ?_, fun hNil => ?_,
    hCreate.earliestAt, hCreate.latestAt, hCreate.descendantCount,
    hCreate.descendantTokenCount, hCreate.sourceMessageTokenCount⟩
  · show Db.defaultDepth create.kind create.depth = 0
    rw [hCreate.depth]
    rfl
  · rw [hReplaced.getMessageById_eq]
    exact leafMessages_found hm
  · rw [hNil] at hRefs
    exact hNe (List.map_eq_nil_iff.mp hRefs)

/-- Summaries are known by their ids. -/
theorem eq_of_map_summaryId {records sources : List SummaryRecord}
    (hIds : records.map (·.summaryId) = sources.map (·.summaryId))
    (hRecords : ∀ r ∈ records, db.getSummary r.summaryId = some r)
    (hSources : ∀ r ∈ sources, db.getSummary r.summaryId = some r) : records = sources := by
  apply List.map_injective_iff.mpr (Option.some_injective SummaryRecord)
  rw [← List.map_congr_left hRecords, ← List.map_congr_left hSources]
  show records.map (db.getSummary ∘ (·.summaryId)) = sources.map (db.getSummary ∘ (·.summaryId))
  rw [← List.map_map, hIds, List.map_map]

theorem rooted_runCondensedPass (hLossless : Lossless db ingested) (h : Rooted db) (env : PassEnv)
    (c : ConversationId) (hardTrigger : Bool) :
    Rooted (runCondensedPass db env c hardTrigger).1 := by
  rcases runCondensedPass_replaced hLossless env c hardTrigger with hSame |
    ⟨targetDepth, create, before, chunk, after, hCreate, hReplaced, hNe, hDepths, hHome⟩
  · rw [hSame]
    exact h
  obtain ⟨hRefs, hRecords⟩ := condensedRecords_spec hDepths
  have hOlder := hReplaced.older hLossless
  have hParents : (runCondensedPass db env c hardTrigger).1.getSummaryParents create.summaryId =
      condensedRecords db chunk := by
    refine eq_of_map_summaryId (hReplaced.getSummaryParents_self hLossless)
      (fun r hr => getSummary_of_mem_parents hr) fun r hr => ?_
    exact hOlder.summary _ _ (hRecords r hr).1
  have hConversation : ∀ r ∈ condensedRecords db chunk, r.conversationId = c := by
    intro r hr
    refine h.home c r.summaryId ?_ r (hRecords r hr).1
    rw [hReplaced.oldRefs, hRefs]
    refine List.mem_append_left _ (List.mem_append_right _ ?_)
    exact List.mem_map_of_mem (List.mem_map_of_mem hr)
  refine rooted_replace hLossless h hReplaced hHome
    (.condensed (condensedRecords db chunk) targetDepth ?_)
  refine ⟨hCreate.kind, ?_, hParents, hReplaced.getSummaryMessages_self hLossless,
    fun hNil => ?_, fun r hr => (hRecords r hr).2, fun r hr => ?_, hCreate.earliestAt,
    hCreate.latestAt, hCreate.descendantCount, hCreate.descendantTokenCount,
    hCreate.sourceMessageTokenCount⟩
  · show Db.defaultDepth create.kind create.depth = targetDepth + 1
    rw [hCreate.depth]
    rfl
  · rw [hNil] at hRefs
    exact hNe (List.map_eq_nil_iff.mp hRefs)
  · exact (hConversation r hr).trans hHome.symm

/-! ## Every run -/

theorem rooted_step {s : RunState} (hLossless : Lossless s.db s.ingested) (h : Rooted s.db)
    (event : Event) : Rooted (s.step event).db := by
  cases event with
  | append c now role content tokenCount parts =>
    rcases step_append hLossless c now role content tokenCount parts with hSame |
      ⟨db', hPersisted, hStep⟩
    · rw [hSame]
      exact h
    · rw [hStep]
      exact rooted_persist h hPersisted
  | leafPass c env previousSummaryContent =>
    exact rooted_leafPass hLossless h env c previousSummaryContent
  | condensedPass c env hardTrigger => exact rooted_runCondensedPass hLossless h env c hardTrigger

theorem rooted_run {s : RunState} (hLossless : Lossless s.db s.ingested) (h : Rooted s.db)
    (events : List Event) : Rooted (s.run events).db := by
  have hAll := @Run.final_invariant _ _ RunState.step
    (fun s => Lossless s.db s.ingested ∧ Rooted s.db) s events
    (fun _ event _ h => ⟨lossless_step h.1 event, rooted_step h.1 h.2 event⟩) ⟨hLossless, h⟩
  exact hAll.2

theorem rooted_reachable (conversations : List ConversationRecord) (events : List Event) :
    Rooted ((RunState.start conversations).run events).db :=
  rooted_run (lossless_start conversations) (rooted_start conversations) events

/-! ## The rows of the links -/

theorem Rooted.getSummary_of_mem (h : Rooted db) {r : SummaryRecord} (hr : r ∈ db.summaries) :
    db.getSummary r.summaryId = some r :=
  Db.getSummary_of_unique h.visible h.unique hr

end LosslessHermes.Compaction
