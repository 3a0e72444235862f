import Mathlib.Algebra.Order.BigOperators.Group.List
import Mathlib.Algebra.Order.Group.Nat
import LosslessHermes.Compaction.Expansion
import LosslessHermes.Compaction.PassEffect
import LosslessHermes.Ingest.Persist
import LosslessHermes.Library.Run

/-!
# Compaction loses nothing

A `Run` of a store interleaves, over any number of conversations, the
ingestion of messages with leaf and condensed passes; the summarizer, the
configuration and the generated ids are chosen anew for every pass. Beside the
store it keeps the log of ingested message ids of each conversation.

`Lossless` is the invariant: in every conversation the context expands to the
log, ordinals are contiguous and no item is repeated, and the summary DAG is
well formed. Each event preserves it, whatever its outcome.
-/

namespace LosslessHermes.Compaction

open Collect

/-! ## Runs -/

inductive Event
  | append (conversationId : ConversationId) (now : Timestamp) (role : MessageRole)
      (content : String) (tokenCount : Nat) (parts : List CreateMessagePartInput)
  | leafPass (conversationId : ConversationId) (env : PassEnv)
      (previousSummaryContent : Option String)
  | condensedPass (conversationId : ConversationId) (env : PassEnv) (hardTrigger : Bool)

structure RunState where
  db : Db
  /-- The ids of the ingested messages of each conversation, oldest first. -/
  ingested : ConversationId → List MessageId

def RunState.step (s : RunState) : Event → RunState
  | .append c now role content tokenCount parts =>
      match withTransaction s.db fun db => persist db now c role content tokenCount parts with
      | (db, .ok true) =>
          { db := db
            ingested := fun c' =>
              if c' = c then s.ingested c ++ [db.messageSequence] else s.ingested c' }
      | (db, _) => { s with db := db }
  | .leafPass c env previousSummaryContent =>
      { s with db := (leafPass s.db env c previousSummaryContent).1 }
  | .condensedPass c env hardTrigger =>
      { s with db := (runCondensedPass s.db env c hardTrigger).1 }

def RunState.run (s : RunState) (events : List Event) : RunState :=
  events.foldl RunState.step s

/-- Conversations without a message, a summary or a context item. -/
def RunState.start (conversations : List ConversationRecord) : RunState :=
  { db := { Db.empty with
      conversations := conversations
      conversationSequence := conversations.length }
    ingested := fun _ => [] }

/-! ## The invariant -/

structure Lossless (db : Db) (ingested : ConversationId → List MessageId) : Prop where
  messages : db.MessagesWellFormed
  summaries : db.SummariesWellFormed
  contiguous : ∀ c, Contiguous (db.getContextItems c)
  refsNodup : ∀ c, ((db.getContextItems c).map (·.ref)).Nodup
  messageRefs : ∀ c m, .message m ∈ (db.getContextItems c).map (·.ref) →
    ∃ record, db.getMessageById m true = some record
  logged : ∀ c, (db.getMessages c).map (·.messageId) = ingested c
  expands : ∀ c fuel, (∀ s ∈ db.summaries, s.depth < fuel) →
    db.expandContext fuel c = some (ingested c)

theorem lossless_start (conversations : List ConversationRecord) :
    Lossless (RunState.start conversations).db (RunState.start conversations).ingested := by
  refine ⟨⟨?_, ?_, ?_⟩, ⟨?_, ?_, ?_⟩, ?_, ?_, ?_, ?_, ?_⟩ <;>
    simp [RunState.start, Db.empty, Db.getSummary, Db.getContextItems, Db.getMessages,
      Table.select, Contiguous, Db.expandContext, collect]

/-! ## Ingestion -/

variable {db db' : Db}

theorem extends_of_eq (hSummaries : db'.summaries = db.summaries)
    (hMessages : db'.summaryMessages = db.summaryMessages)
    (hParents : db'.summaryParents = db.summaryParents) : Db.Extends db db' :=
  ⟨fun s record h => by simpa [Db.getSummary, hSummaries] using h,
    fun s record _ => by simp [Db.getSummaryMessages, hMessages],
    fun s record _ => by simp [Db.getSummaryParents, Db.getSummary, hSummaries, hParents]⟩

theorem summariesWellFormed_of_eq (h : db.SummariesWellFormed)
    (hSummaries : db'.summaries = db.summaries)
    (hMessages : db'.summaryMessages = db.summaryMessages)
    (hParents : db'.summaryParents = db.summaryParents) : db'.SummariesWellFormed := by
  have hExtends := extends_of_eq hSummaries hMessages hParents
  refine ⟨?_, ?_, ?_⟩
  · rw [hMessages, hSummaries]
    exact h.messageLinks
  · rw [hParents, hSummaries]
    intro l hl
    obtain ⟨hOwner, record, hRecord⟩ := h.parentLinks l hl
    exact ⟨hOwner, record, hExtends.summary _ _ hRecord⟩
  · intro s record hRecord
    have hOld : db.getSummary s = some record := by simpa [Db.getSummary, hSummaries] using hRecord
    obtain ⟨ids, hIds⟩ := h.expandable s record hOld
    exact ⟨ids, hExtends.expandSummary hIds⟩

variable {ingested : ConversationId → List MessageId}

/-- No context refers to the id of a message that is yet to be created. -/
theorem Lossless.fresh_messageId (h : Lossless db ingested) (c : ConversationId) :
    .message (db.messageSequence + 1) ∉ (db.getContextItems c).map (·.ref) := by
  intro hMem
  obtain ⟨record, hRecord⟩ := h.messageRefs c _ hMem
  have hId := List.find?_some hRecord
  simp only [true_or, and_true, decide_eq_true_eq] at hId
  have hBound := h.messages.idBound record (List.mem_of_find?_eq_some hRecord)
  rw [hId] at hBound
  exact absurd hBound (Nat.not_succ_le_self _)

theorem exists_fuel (db : Db) : ∃ fuel, ∀ s ∈ db.summaries, s.depth < fuel := by
  refine ⟨(db.summaries.map (·.depth)).sum + 1, fun s hs => Nat.lt_succ_of_le ?_⟩
  exact List.le_sum_of_mem (List.mem_map_of_mem hs)

/-- Every summary in a context can be read, since the context expands. -/
theorem Lossless.getSummary_of_mem (h : Lossless db ingested) {c : ConversationId} {s : SummaryId}
    (hMem : .summary s ∈ (db.getContextItems c).map (·.ref)) :
    ∃ record, db.getSummary s = some record := by
  obtain ⟨fuel, hFuel⟩ := exists_fuel db
  obtain ⟨ids, hIds⟩ := exists_of_mem_collect (h.expands c fuel hFuel) hMem
  cases fuel with
  | zero => cases hIds
  | succ fuel =>
    cases hSummary : db.getSummary s with
    | none => simp [Db.expandRef, Db.expandSummary, hSummary] at hIds
    | some record => exact ⟨record, rfl⟩

/-- `db'` is `db` with a message, which stands at the end of the context. -/
structure MessagePersisted (db db' : Db) (c : ConversationId) (message : MessageRecord) : Prop where
  frame : db' = { db with
    messages := db.messages ++ [message]
    messageParts := db'.messageParts
    contextItems := db'.contextItems
    messageSequence := db.messageSequence + 1 }
  wellFormed : db'.MessagesWellFormed
  messages : db'.getMessages c = db.getMessages c ++ [message]
  otherMessages : ∀ c', c' ≠ c → db'.getMessages c' = db.getMessages c'
  items : db'.getContextItems c = db.getContextItems c ++
    [⟨c, (db.getContextItems c).length, .message (db.messageSequence + 1)⟩]
  otherItems : ∀ c', c' ≠ c → db'.getContextItems c' = db.getContextItems c'

section MessagePersisted

variable {c : ConversationId} {message : MessageRecord}
  (hPersisted : MessagePersisted db db' c message)

include hPersisted

theorem MessagePersisted.summaries : db'.summaries = db.summaries := by
  rw [hPersisted.frame]

theorem MessagePersisted.older : Db.Extends db db' :=
  extends_of_eq hPersisted.summaries (by rw [hPersisted.frame]) (by rw [hPersisted.frame])

theorem MessagePersisted.getSummary (s : SummaryId) : db'.getSummary s = db.getSummary s := by
  simp only [Db.getSummary, hPersisted.summaries]

theorem MessagePersisted.getMessageById {m : MessageId} {record : MessageRecord}
    (hRecord : db.getMessageById m true = some record) :
    db'.getMessageById m true = some record := by
  rw [hPersisted.frame]
  exact Db.getMessageById_append hRecord

theorem MessagePersisted.getMessageById_new (h : db.MessagesWellFormed)
    (hId : message.messageId = db.messageSequence + 1) :
    db'.getMessageById (db.messageSequence + 1) true = some message := by
  rw [hPersisted.frame]
  exact Db.getMessageById_new h hId

theorem MessagePersisted.refs : (db'.getContextItems c).map (·.ref) =
    (db.getContextItems c).map (·.ref) ++ [.message (db.messageSequence + 1)] := by
  rw [hPersisted.items, List.map_append, List.map_singleton]

theorem lossless_persist (h : Lossless db ingested)
    (hId : message.messageId = db.messageSequence + 1) :
    Lossless db' fun c' =>
      if c' = c then ingested c ++ [db'.messageSequence] else ingested c' := by
  have hSequence : db'.messageSequence = db.messageSequence + 1 := by rw [hPersisted.frame]
  refine ⟨hPersisted.wellFormed, summariesWellFormed_of_eq h.summaries hPersisted.summaries
    (by rw [hPersisted.frame]) (by rw [hPersisted.frame]), ?_, ?_, ?_, ?_, ?_⟩
  · intro c'
    by_cases hc : c' = c
    · subst hc
      rw [hPersisted.items]
      exact (h.contiguous _).append rfl
    · rw [hPersisted.otherItems c' hc]
      exact h.contiguous c'
  · intro c'
    by_cases hc : c' = c
    · subst hc
      rw [hPersisted.refs]
      refine List.Nodup.append (h.refsNodup _) (List.nodup_singleton _) ?_
      rw [List.disjoint_singleton]
      exact h.fresh_messageId _
    · rw [hPersisted.otherItems c' hc]
      exact h.refsNodup c'
  · intro c' m hm
    have hOld : .message m ∈ (db.getContextItems c').map (·.ref) →
        ∃ record, db'.getMessageById m true = some record := by
      intro hMem
      obtain ⟨record, hRecord⟩ := h.messageRefs c' m hMem
      exact ⟨record, hPersisted.getMessageById hRecord⟩
    by_cases hc : c' = c
    · subst hc
      rw [hPersisted.refs, List.mem_append] at hm
      rcases hm with hm | hm
      · exact hOld hm
      · obtain rfl : m = db.messageSequence + 1 := by simpa using hm
        exact ⟨message, hPersisted.getMessageById_new h.messages hId⟩
    · rw [hPersisted.otherItems c' hc] at hm
      exact hOld hm
  · intro c'
    by_cases hc : c' = c
    · subst hc
      rw [hPersisted.messages, List.map_append, h.logged, if_pos rfl, hSequence, ← hId]
      rfl
    · rw [hPersisted.otherMessages c' hc, h.logged, if_neg hc]
  · intro c' fuel hFuel
    have hOld := h.expands c' fuel (hPersisted.summaries ▸ hFuel)
    have hKeep : collect (db'.expandRef fuel) ((db.getContextItems c').map (·.ref)) =
        some (ingested c') :=
      collect_congr (fun ref _ ids hIds => hPersisted.older.expandRef hIds) hOld
    unfold Db.expandContext
    by_cases hc : c' = c
    · subst hc
      rw [hPersisted.refs, if_pos rfl, hSequence, collect_append_eq_some]
      exact ⟨_, _, hKeep, collect_singleton _, rfl⟩
    · rw [hPersisted.otherItems c' hc, if_neg hc]
      exact hKeep

end MessagePersisted

/-! ## Replacing a chunk by a summary of it -/

/-- `record`, with the given links, is a new summary of exactly the items of
`chunk`. -/
structure SummaryOfChunk (db : Db) (record : SummaryRecord) (messageIds : List MessageId)
    (parentIds : List SummaryId) (chunk : List ContextItemRecord) : Prop where
  fresh : record.summaryId ∉ db.summaries.map (·.summaryId)
  visible : record.suppressedAt = none
  parents : ∀ p ∈ parentIds, ∃ old, db.getSummary p = some old
  expands : ∀ fuel, (∀ s ∈ db.summaries, s.depth < fuel) → record.depth < fuel →
    ∀ ids, collect (db.expandRef fuel) (chunk.map (·.ref)) = some ids →
      (db.addSummary record messageIds parentIds).expandSummary fuel record.summaryId = some ids
  expandable : ∃ ids, (db.addSummary record messageIds parentIds).expandSummary
    (record.depth + 1) record.summaryId = some ids

/-- `db'` is `db` with a summary of `chunk`, which stands in the place of `chunk`. -/
structure ChunkReplaced (db db' : Db) (c : ConversationId) (record : SummaryRecord)
    (messageIds : List MessageId) (parentIds : List SummaryId)
    (before chunk after : List ContextItemRecord) : Prop where
  items : db.getContextItems c = before ++ chunk ++ after
  summary : SummaryOfChunk db record messageIds parentIds chunk
  frame : db' = { db.addSummary record messageIds parentIds with contextItems := db'.contextItems }
  refs : (db'.getContextItems c).map (·.ref) =
    before.map (·.ref) ++ [.summary record.summaryId] ++ after.map (·.ref)
  contiguous : Contiguous (db'.getContextItems c)
  other : ∀ c', c' ≠ c → db'.getContextItems c' = db.getContextItems c'

section ChunkReplaced

variable {c : ConversationId} {record : SummaryRecord} {messageIds : List MessageId}
  {parentIds : List SummaryId} {before chunk after : List ContextItemRecord}
  (hReplaced : ChunkReplaced db db' c record messageIds parentIds before chunk after)

include hReplaced

theorem ChunkReplaced.added : Db.Extends (db.addSummary record messageIds parentIds) db' :=
  extends_of_eq (by rw [hReplaced.frame]) (by rw [hReplaced.frame]) (by rw [hReplaced.frame])

theorem ChunkReplaced.oldRefs : (db.getContextItems c).map (·.ref) =
    before.map (·.ref) ++ chunk.map (·.ref) ++ after.map (·.ref) := by
  rw [hReplaced.items, List.map_append, List.map_append]

theorem ChunkReplaced.older (hLossless : Lossless db ingested) : Db.Extends db db' := by
  have hAdd := Db.addSummary_extends hLossless.summaries messageIds parentIds
    hReplaced.summary.fresh
  have hSame := hReplaced.added
  refine ⟨fun s old hOld => hSame.summary s old (hAdd.summary s old hOld), fun s old hOld => ?_,
    fun s old hOld => ?_⟩
  · rw [hSame.messages s old (hAdd.summary s old hOld), hAdd.messages s old hOld]
  · rw [hSame.parents s old (hAdd.summary s old hOld), hAdd.parents s old hOld]

theorem ChunkReplaced.getSummary_self : db'.getSummary record.summaryId = some record :=
  hReplaced.added.summary _ _
    (Db.getSummary_addSummary_self hReplaced.summary.fresh hReplaced.summary.visible)

theorem ChunkReplaced.summaries_eq : db'.summaries = db.summaries ++ [record] := by
  rw [hReplaced.frame]
  rfl

theorem ChunkReplaced.messages_eq : db'.messages = db.messages := by
  rw [hReplaced.frame]
  rfl

theorem ChunkReplaced.visible (h : ∀ r ∈ db.summaries, r.suppressedAt = none) :
    ∀ r ∈ db'.summaries, r.suppressedAt = none := by
  rw [hReplaced.summaries_eq]
  intro r hr
  rcases List.mem_append.mp hr with hr | hr
  · exact h r hr
  · rw [List.mem_singleton.mp hr]
    exact hReplaced.summary.visible

theorem ChunkReplaced.unique (h : (db.summaries.map (·.summaryId)).Nodup) :
    (db'.summaries.map (·.summaryId)).Nodup := by
  rw [hReplaced.summaries_eq, List.map_append]
  refine h.append (List.nodup_singleton _) ?_
  rw [List.map_singleton, List.disjoint_singleton]
  exact hReplaced.summary.fresh

theorem ChunkReplaced.getSummary_cases {s : SummaryId} {found : SummaryRecord}
    (hFound : db'.getSummary s = some found) :
    db.getSummary s = some found ∨ s = record.summaryId ∧ found = record := by
  unfold Db.getSummary at hFound ⊢
  rw [hReplaced.summaries_eq, List.find?_append] at hFound
  rcases Option.or_eq_some_iff.mp hFound with hOld | ⟨-, hNew⟩
  · exact Or.inl hOld
  · have hMatch := List.find?_some hNew
    simp only [decide_eq_true_eq] at hMatch
    have hSame := List.mem_singleton.mp (List.mem_of_find?_eq_some hNew)
    exact Or.inr ⟨hSame ▸ hMatch.1.symm, hSame⟩

theorem ChunkReplaced.getSummaryMessages_self (hLossless : Lossless db ingested) :
    db'.getSummaryMessages record.summaryId = messageIds := by
  rw [hReplaced.added.messages _ _
    (Db.getSummary_addSummary_self hReplaced.summary.fresh hReplaced.summary.visible)]
  exact Db.getSummaryMessages_addSummary_self hLossless.summaries hReplaced.summary.fresh

theorem ChunkReplaced.getSummaryParents_self (hLossless : Lossless db ingested) :
    (db'.getSummaryParents record.summaryId).map (·.summaryId) = parentIds := by
  rw [hReplaced.added.parents _ _
    (Db.getSummary_addSummary_self hReplaced.summary.fresh hReplaced.summary.visible)]
  exact Db.getSummaryParents_addSummary_self hLossless.summaries hReplaced.summary.fresh
    hReplaced.summary.parents

theorem ChunkReplaced.getMessageById_eq (m : MessageId) :
    db'.getMessageById m true = db.getMessageById m true := by
  simp only [Db.getMessageById, hReplaced.messages_eq]

/-- The DAG gains a summary that expands to what its chunk expanded to, and the
context has it in the place of the chunk. -/
theorem lossless_replace (h : Lossless db ingested) : Lossless db' ingested := by
  have hAdded := hReplaced.added
  have hOldRefs := hReplaced.oldRefs
  have hSummaries := hReplaced.summaries_eq
  obtain ⟨hItems, hSummary, hFrame, hRefs, hContiguous, hOther⟩ := hReplaced
  have hExtends := Db.addSummary_extends h.summaries messageIds parentIds hSummary.fresh
  refine ⟨?_, ?_, ?_, ?_, ?_, ?_, ?_⟩
  · rw [hFrame]
    exact ⟨h.messages.idBound, h.messages.idNodup, h.messages.seqNodup⟩
  · exact summariesWellFormed_of_eq (Db.addSummary_wellFormed h.summaries hSummary.fresh
      hSummary.visible hSummary.parents hSummary.expandable) (by rw [hFrame]) (by rw [hFrame])
      (by rw [hFrame])
  · intro c'
    by_cases hc : c' = c
    · rw [hc]
      exact hContiguous
    · rw [hOther c' hc]
      exact h.contiguous c'
  · intro c'
    by_cases hc : c' = c
    · subst hc
      have hNodup := h.refsNodup c'
      rw [hOldRefs] at hNodup
      have hRest : (before.map (·.ref) ++ after.map (·.ref)).Nodup :=
        hNodup.sublist ((List.sublist_append_left _ _).append_right _)
      have hNotMem : .summary record.summaryId ∉ before.map (·.ref) ++ after.map (·.ref) := by
        intro hMem
        obtain ⟨found, hFound⟩ := h.getSummary_of_mem (c := c') (s := record.summaryId) (by
          rw [hOldRefs]
          simp only [List.mem_append] at hMem ⊢
          tauto)
        obtain ⟨hFoundMem, hId⟩ := Db.mem_of_getSummary hFound
        exact hSummary.fresh (hId ▸ List.mem_map_of_mem hFoundMem)
      rw [hRefs]
      refine List.Perm.nodup (List.Perm.symm ?_) (List.nodup_cons.mpr ⟨hNotMem, hRest⟩)
      rw [List.append_assoc]
      exact List.perm_middle
    · rw [hOther c' hc]
      exact h.refsNodup c'
  · intro c' m hm
    have hOld : .message m ∈ (db.getContextItems c').map (·.ref) := by
      by_cases hc : c' = c
      · subst hc
        rw [hRefs] at hm
        rw [hOldRefs]
        simp only [List.mem_append, List.mem_singleton, reduceCtorEq, or_false] at hm ⊢
        tauto
      · rwa [hOther c' hc] at hm
    obtain ⟨found, hFound⟩ := h.messageRefs c' m hOld
    refine ⟨found, ?_⟩
    rw [hFrame]
    exact hFound
  · intro c'
    rw [hFrame]
    exact h.logged c'
  · intro c' fuel hFuel
    rw [hSummaries] at hFuel
    have hFuelOld : ∀ s ∈ db.summaries, s.depth < fuel := fun s hs =>
      hFuel s (List.mem_append_left _ hs)
    have hOld := h.expands c' fuel hFuelOld
    have hKeep : ∀ refs ids, collect (db.expandRef fuel) refs = some ids →
        collect (db'.expandRef fuel) refs = some ids := fun refs ids =>
      collect_congr fun ref _ ids hIds => hAdded.expandRef (hExtends.expandRef hIds)
    unfold Db.expandContext at hOld ⊢
    by_cases hc : c' = c
    · subst hc
      rw [hOldRefs, collect_append_eq_some] at hOld
      obtain ⟨left, right, hLeft, hRight, hAll⟩ := hOld
      obtain ⟨first, middle, hFirst, hMiddle, rfl⟩ := collect_append_eq_some.mp hLeft
      rw [hRefs, collect_append_eq_some]
      refine ⟨first ++ middle, right, ?_, hKeep _ _ hRight, hAll⟩
      refine collect_append_eq_some.mpr ⟨first, middle, hKeep _ _ hFirst, ?_, rfl⟩
      rw [collect_singleton]
      exact hAdded.expandSummary (hSummary.expands fuel hFuelOld (hFuel record (by simp)) _
        hMiddle)
    · rw [hOther c' hc]
      exact hKeep _ _ hOld

end ChunkReplaced

variable {chunk : List ContextItemRecord}

/-- What both passes share: once the link step is the one of `addSummary`, and
the summary is one of its chunk, persisting it replaces the chunk. -/
theorem chunkReplaced_persistPass
    (h : Lossless db ingested) {now : Timestamp} {create : CreateSummaryInput}
    {link : Db → Except SqlError Db} {startOrdinal endOrdinal : Int}
    (messageIds : List MessageId) (parentIds : List SummaryId)
    {before after : List ContextItemRecord}
    (hItems : db.getContextItems create.conversationId = before ++ chunk ++ after)
    (hStart : (chunk.map (·.ordinal)).min? = some startOrdinal)
    (hEnd : (chunk.map (·.ordinal)).max? = some endOrdinal)
    (hLink : create.summaryId ∉ db.summaries.map (·.summaryId) → ∀ linked,
      link { db with summaries := db.summaries ++ [Db.createdSummary now create] } = .ok linked →
      linked = db.addSummary (Db.createdSummary now create) messageIds parentIds)
    (hSummary : create.summaryId ∉ db.summaries.map (·.summaryId) →
      SummaryOfChunk db (Db.createdSummary now create) messageIds parentIds chunk)
    (hPersist : persistPass db now create link startOrdinal endOrdinal = .ok db') :
    ChunkReplaced db db' create.conversationId (Db.createdSummary now create) messageIds parentIds
      before chunk after := by
  obtain ⟨hConversation, hFresh, linked, hLinked, hReplace⟩ := persistPass_eq_ok hPersist
  obtain rfl := hLink hFresh linked hLinked
  have hFound : ((db.addSummary (Db.createdSummary now create) messageIds parentIds).getSummary
      create.summaryId true).isSome := by
    rw [Db.getSummary, List.find?_isSome]
    exact ⟨Db.createdSummary now create, by simp [Db.addSummary], by simp [Db.createdSummary]⟩
  obtain ⟨db₁, hOk, hFrame, hItems', hOther⟩ := Db.replaceContextRangeWithSummary_spec
    (c := create.conversationId) (s := create.summaryId)
    (show Db.getContextItems (db.addSummary (Db.createdSummary now create) messageIds parentIds)
      create.conversationId = before ++ chunk ++ after from hItems)
    (h.contiguous create.conversationId).ordered hConversation hFound hStart hEnd
  obtain rfl : db₁ = db' := by
    rw [hReplace] at hOk
    exact (Except.ok.inj hOk).symm
  refine ⟨hItems, hSummary hFresh, hFrame, ?_, ?_, hOther⟩
  · rw [hItems', renumber_map_ref, List.map_append, List.map_append, List.map_singleton]
    rfl
  · rw [hItems']
    exact contiguous_renumber _

theorem summaryOfChunk_leaf (h : db.SummariesWellFormed) {record : SummaryRecord}
    {messageIds : List MessageId} (hFresh : record.summaryId ∉ db.summaries.map (·.summaryId))
    (hVisible : record.suppressedAt = none) (hKind : record.kind = .leaf)
    (hRefs : chunk.map (·.ref) = messageIds.map .message) :
    SummaryOfChunk db record messageIds [] chunk := by
  have hExpand : ∀ fuel, (db.addSummary record messageIds []).expandSummary (fuel + 1)
      record.summaryId = some messageIds := by
    intro fuel
    simp only [Db.expandSummary, Db.getSummary_addSummary_self hFresh hVisible, hKind,
      Db.getSummaryMessages_addSummary_self h hFresh]
  refine ⟨hFresh, hVisible, by simp, ?_, ⟨_, hExpand _⟩⟩
  intro fuel _ hLt ids hIds
  obtain ⟨fuel, rfl⟩ := Nat.exists_eq_succ_of_ne_zero (Nat.ne_zero_of_lt hLt)
  rw [hRefs, collect_map] at hIds
  exact (hExpand fuel).trans ((collect_self messageIds).symm.trans hIds)

theorem summaryOfChunk_condensed (h : db.SummariesWellFormed) {record : SummaryRecord}
    {parentIds : List SummaryId} (hFresh : record.summaryId ∉ db.summaries.map (·.summaryId))
    (hVisible : record.suppressedAt = none) (hKind : record.kind = .condensed)
    (hRefs : chunk.map (·.ref) = parentIds.map .summary)
    (hParents : ∀ p ∈ parentIds, ∃ old, db.getSummary p = some old ∧ record.depth = old.depth + 1) :
    SummaryOfChunk db record [] parentIds chunk := by
  have hFound : ∀ p ∈ parentIds, ∃ old, db.getSummary p = some old := fun p hp =>
    let ⟨old, hOld, _⟩ := hParents p hp
    ⟨old, hOld⟩
  have hExtends := Db.addSummary_extends h [] parentIds hFresh
  have hUnfold : ∀ fuel, (db.addSummary record [] parentIds).expandSummary (fuel + 1)
      record.summaryId =
      collect ((db.addSummary record [] parentIds).expandSummary fuel) parentIds := by
    intro fuel
    simp only [Db.expandSummary, Db.getSummary_addSummary_self hFresh hVisible, hKind,
      Db.getSummaryParents_addSummary_self h hFresh hFound]
  refine ⟨hFresh, hVisible, hFound, ?_, ?_⟩
  · -- The sources lie one level down, so one unit of fuel less expands them alike.
    intro fuel hFuel hLt ids hIds
    obtain ⟨fuel, rfl⟩ := Nat.exists_eq_succ_of_ne_zero (Nat.ne_zero_of_lt hLt)
    rw [hRefs, collect_map] at hIds
    rw [hUnfold]
    refine collect_congr (fun p hp pIds hExpand => hExtends.expandSummary ?_) hIds
    obtain ⟨old, hOld, hDepth⟩ := hParents p hp
    exact h.expand_of_lt hOld (hFuel old (Db.mem_of_getSummary hOld).1) (by omega) hExpand
  · rw [hUnfold]
    refine exists_collect fun p hp => ?_
    obtain ⟨old, hOld, hDepth⟩ := hParents p hp
    obtain ⟨ids, hIds⟩ := h.expandable p old hOld
    exact ⟨ids, hDepth ▸ hExtends.expandSummary hIds⟩

/-! ## The leaf pass -/

theorem leafMessages_spec
    (h : ∀ i ∈ chunk, ∃ m record, i.ref = .message m ∧ db.getMessageById m true = some record) :
    chunk.map (·.ref) = ((leafMessages db chunk).map (·.messageId)).map .message := by
  induction chunk with
  | nil => rfl
  | cons item rest ih =>
    obtain ⟨m, record, hRef, hRecord⟩ := h item List.mem_cons_self
    have hRest := ih fun i hi => h i (List.mem_cons_of_mem _ hi)
    have hId : record.messageId = m := by
      have hHolds := List.find?_some hRecord
      simpa using hHolds
    have hCons : leafMessages db (item :: rest) = record :: leafMessages db rest := by
      unfold leafMessages
      simp only [List.filterMap_cons, hRef, hRecord]
    rw [hCons, List.map_cons, List.map_cons, List.map_cons, hRef, hId, hRest]

theorem leafPass_replaced (h : Lossless db ingested) (env : PassEnv) (c : ConversationId)
    (previousSummaryContent : Option String) :
    (leafPass db env c previousSummaryContent).1 = db ∨ ∃ create before chunk after,
      LeafRow db env.sourceText (leafMessages db chunk) create ∧
      ChunkReplaced db (leafPass db env c previousSummaryContent).1 c
        (Db.createdSummary env.now create) ((leafMessages db chunk).map (·.messageId)) []
        before chunk after ∧ chunk ≠ [] ∧
      chunk.map (·.ref) = ((leafMessages db chunk).map (·.messageId)).map .message ∧
      create.conversationId = c := by
  obtain ⟨before, after, hItems, -, hMessages⟩ := selectOldestLeafChunk_spec db env.config c
  let chunk := (selectOldestLeafChunk db env.config c).items
  have hRecords : ∀ i ∈ chunk, ∃ m record,
      i.ref = .message m ∧ db.getMessageById m true = some record := by
    intro i hi
    obtain ⟨⟨m, hRef⟩, -⟩ := hMessages i hi
    have hMem : i ∈ db.getContextItems c := by
      rw [hItems]
      exact List.mem_append_left _ (List.mem_append_right _ hi)
    obtain ⟨record, hRecord⟩ := h.messageRefs c m (hRef ▸ List.mem_map_of_mem hMem)
    exact ⟨m, record, hRef, hRecord⟩
  have hRefs := leafMessages_spec hRecords
  have hNodup : ((leafMessages db chunk).map (·.messageId)).Nodup := by
    have hAll := h.refsNodup c
    rw [hItems, List.map_append, List.map_append] at hAll
    have hChunk := (List.nodup_append.mp (List.nodup_append.mp hAll).1).2.1
    rw [show (selectOldestLeafChunk db env.config c).items = chunk from rfl, hRefs] at hChunk
    exact hChunk.of_map
  rcases leafPass_cases db env c previousSummaryContent with hSame |
    ⟨create, startOrdinal, endOrdinal, rfl, hCreate, hStart, hEnd, hPersist⟩
  · exact Or.inl hSame
  refine Or.inr ⟨create, before, chunk, after, hCreate, ?_, ?_, hRefs, rfl⟩
  · refine chunkReplaced_persistPass h ((leafMessages db chunk).map (·.messageId)) [] hItems hStart
      hEnd (fun hFresh linked hLinked => ?_)
      (fun hFresh => summaryOfChunk_leaf h.summaries hFresh rfl hCreate.kind hRefs) hPersist
    refine (Db.linkSummaryToMessages_eq_ok (fun l hl hEq => ?_) hNodup hLinked).trans ?_
    · exact hFresh (hEq ▸ h.summaries.messageLinks l hl)
    · simp [Db.addSummary, Db.createdSummary, chunk]
  · intro hEmpty
    rw [show (selectOldestLeafChunk db env.config create.conversationId).items = chunk from rfl,
      hEmpty] at hStart
    cases hStart

theorem lossless_leafPass (h : Lossless db ingested) (env : PassEnv) (c : ConversationId)
    (previousSummaryContent : Option String) :
    Lossless (leafPass db env c previousSummaryContent).1 ingested := by
  rcases leafPass_replaced h env c previousSummaryContent with hSame |
    ⟨create, before, chunk, after, -, hReplaced, -⟩
  · rw [hSame]
    exact h
  · exact lossless_replace hReplaced h

/-! ## The condensed pass -/

theorem condensedRecords_spec {targetDepth : Nat} (h : ∀ i ∈ chunk, AtDepth db targetDepth i) :
    chunk.map (·.ref) = ((condensedRecords db chunk).map (·.summaryId)).map .summary ∧
      ∀ r ∈ condensedRecords db chunk, db.getSummary r.summaryId = some r ∧
        r.depth = targetDepth := by
  induction chunk with
  | nil => exact ⟨rfl, by simp [condensedRecords]⟩
  | cons item rest ih =>
    obtain ⟨s, record, hRef, hRecord, hDepth⟩ := h item List.mem_cons_self
    obtain ⟨hRest, hAll⟩ := ih fun i hi => h i (List.mem_cons_of_mem _ hi)
    have hId : record.summaryId = s := (Db.mem_of_getSummary hRecord).2
    have hCons : condensedRecords db (item :: rest) = record :: condensedRecords db rest := by
      unfold condensedRecords
      simp only [List.filterMap_cons, hRef, hRecord]
    rw [hCons]
    refine ⟨by rw [List.map_cons, List.map_cons, List.map_cons, hRef, hId, hRest], ?_⟩
    intro r hr
    rcases List.mem_cons.mp hr with rfl | hr
    · exact ⟨hId ▸ hRecord, hDepth⟩
    · exact hAll r hr

theorem runCondensedPass_replaced
    (h : Lossless db ingested) (env : PassEnv) (c : ConversationId) (hardTrigger : Bool) :
    (runCondensedPass db env c hardTrigger).1 = db ∨ ∃ targetDepth create before chunk after,
      CondensedRow env.sourceText (condensedRecords db chunk) targetDepth create ∧
      ChunkReplaced db (runCondensedPass db env c hardTrigger).1 c
        (Db.createdSummary env.now create) [] ((condensedRecords db chunk).map (·.summaryId))
        before chunk after ∧ chunk ≠ [] ∧ (∀ i ∈ chunk, AtDepth db targetDepth i) ∧
      create.conversationId = c := by
  rcases runCondensedPass_cases db env c hardTrigger with hSame |
    ⟨candidate, create, startOrdinal, endOrdinal, hCandidate, rfl, hCreate, hStart, hEnd,
      hPersist⟩
  · exact Or.inl hSame
  obtain ⟨hNonempty, ⟨before, after, hItems⟩, hAll⟩ :=
    selectShallowestCondensationCandidate_spec hCandidate
  obtain ⟨hRefs, hRecords⟩ := condensedRecords_spec fun i hi => (hAll i hi).1
  have hNodup : ((condensedRecords db candidate.chunk.items).map (·.summaryId)).Nodup := by
    have hItemsNodup := h.refsNodup create.conversationId
    rw [hItems, List.map_append, List.map_append] at hItemsNodup
    have hChunk := (List.nodup_append.mp (List.nodup_append.mp hItemsNodup).1).2.1
    rw [hRefs] at hChunk
    exact hChunk.of_map
  refine Or.inr ⟨candidate.targetDepth, create, before, candidate.chunk.items, after, hCreate, ?_,
    hNonempty, fun i hi => (hAll i hi).1, rfl⟩
  refine chunkReplaced_persistPass h []
    ((condensedRecords db candidate.chunk.items).map (·.summaryId))
    hItems hStart hEnd (fun hFresh linked hLinked => ?_) (fun hFresh => ?_) hPersist
  · refine (Db.linkSummaryToParents_eq_ok (fun l hl hEq => ?_) hNodup hLinked).trans ?_
    · exact hFresh (hEq ▸ (h.summaries.parentLinks l hl).1)
    · simp [Db.addSummary, Db.createdSummary]
  · refine summaryOfChunk_condensed h.summaries hFresh rfl hCreate.kind hRefs fun p hp => ?_
    obtain ⟨r, hr, rfl⟩ := List.mem_map.mp hp
    obtain ⟨hFound, hAt⟩ := hRecords r hr
    exact ⟨r, hFound, by simp [Db.createdSummary, hCreate.depth, Db.defaultDepth, hAt]⟩

theorem lossless_runCondensedPass
    (h : Lossless db ingested) (env : PassEnv) (c : ConversationId) (hardTrigger : Bool) :
    Lossless (runCondensedPass db env c hardTrigger).1 ingested := by
  rcases runCondensedPass_replaced h env c hardTrigger with hSame |
    ⟨targetDepth, create, before, chunk, after, -, hReplaced, -⟩
  · rw [hSame]
    exact h
  · exact lossless_replace hReplaced h

/-! ## Every run -/

variable {s : RunState}

/-- A message is stored and logged, or an unknown conversation rolls it back. -/
theorem step_append (h : Lossless s.db s.ingested) (c : ConversationId)
    (now : Timestamp) (role : MessageRole) (content : String) (tokenCount : Nat)
    (parts : List CreateMessagePartInput) :
    s.step (.append c now role content tokenCount parts) = s ∨ ∃ db',
      MessagePersisted s.db db' c (persistedMessage s.db now c role content tokenCount) ∧
      s.step (.append c now role content tokenCount parts) =
        ⟨db', fun c' =>
          if c' = c then s.ingested c ++ [db'.messageSequence] else s.ingested c'⟩ := by
  obtain ⟨db, ingested⟩ := s
  cases hConversation : db.getConversation c with
  | none =>
    refine Or.inl ?_
    have hRolledBack :
        (withTransaction db fun db => persist db now c role content tokenCount parts) =
          (db, .error (.foreignKey "messages")) := by
      apply withTransaction_error
      simp only [persist, Db.createMessage, hConversation]
      rfl
    simp only [RunState.step, hRolledBack]
  | some record =>
    have hSome : (db.getConversation c).isSome := by rw [hConversation]; rfl
    obtain ⟨db', hOk, hFrame, hWell, hMessages, hOtherMessages, hItems, hOtherItems⟩ :=
      persist_spec h.messages hSome (h.contiguous c) now role content tokenCount parts
    have hCommitted :
        (withTransaction db fun db => persist db now c role content tokenCount parts) =
          (db', .ok true) := withTransaction_ok hOk
    refine Or.inr ⟨db', ⟨?_, hWell, hMessages, hOtherMessages, hItems, hOtherItems⟩,
      by simp only [RunState.step, hCommitted]⟩
    rw [hFrame]

theorem lossless_step (h : Lossless s.db s.ingested) (event : Event) :
    Lossless (s.step event).db (s.step event).ingested := by
  cases event with
  | append c now role content tokenCount parts =>
    rcases step_append h c now role content tokenCount parts with hSame |
      ⟨db', hPersisted, hStep⟩
    · rw [hSame]
      exact h
    · rw [hStep]
      exact lossless_persist hPersisted h rfl
  | leafPass c env previousSummaryContent => exact lossless_leafPass h env c previousSummaryContent
  | condensedPass c env hardTrigger => exact lossless_runCondensedPass h env c hardTrigger

theorem lossless_run (h : Lossless s.db s.ingested) (events : List Event) :
    Lossless (s.run events).db (s.run events).ingested :=
  @Run.final_invariant _ _ RunState.step (fun s => Lossless s.db s.ingested) _ events
    (fun _ event _ h => lossless_step h event) h

/-- In every reachable state the context of each conversation has ordinals
`0 … n - 1` and expands, with any fuel above the depth of the DAG, to exactly
the ingested messages: each of them once, in the order they were ingested. -/
theorem context_expands_to_ingested (conversations : List ConversationRecord)
    (events : List Event) (c : ConversationId) :
    let s := (RunState.start conversations).run events
    (∀ fuel, (∀ r ∈ s.db.summaries, r.depth < fuel) →
      s.db.expandContext fuel c = some (s.ingested c)) ∧
    s.ingested c = (s.db.getMessages c).map (·.messageId) ∧
    (s.ingested c).Nodup ∧
    Contiguous (s.db.getContextItems c) := by
  have h := lossless_run (lossless_start conversations) events
  refine ⟨h.expands c, (h.logged c).symm, ?_, h.contiguous c⟩
  rw [← h.logged c]
  refine ((Table.select_perm _).map _).nodup_iff.mpr ?_
  exact h.messages.idNodup.sublist (List.filter_sublist.map _)

/-- A conversation of three messages whose two oldest are summarized. -/
def threeMessages : List Event :=
  let env : PassEnv :=
    { config := { freshTailCount := 1 }
      sourceText := ⟨fun _ content => content, id, fun _ _ => "", fun _ => []⟩
      summarize := fun _ _ _ => .text "two messages"
      summaryModel := none
      now := 4
      generateSummaryId := fun _ => "sum_1" }
  [.append 1 1 .user "a" 1 [], .append 1 2 .assistant "b" 1 [], .append 1 3 .user "c" 1 [],
    .leafPass 1 env none]

theorem context_expands_to_ingested_threeMessages :
    let s := (RunState.start [⟨1, "session", none, true, 0⟩]).run threeMessages
    (s.db.getContextItems 1).map (·.ref) = [.summary "sum_1", .message 3] ∧
      s.ingested 1 = [1, 2, 3] ∧ s.db.expandContext 1 1 = some (s.ingested 1) :=
  ⟨by decide, by decide, (context_expands_to_ingested _ threeMessages 1).1 1 (by decide)⟩

end LosslessHermes.Compaction
