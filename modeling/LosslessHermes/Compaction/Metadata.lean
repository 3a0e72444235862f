import LosslessHermes.Compaction.Lossless
import LosslessHermes.Compaction.Subtree

/-!
# Summary metadata describes the subtree

The passes compute the counts, token sums and dates of a summary from its sources
alone. That they are those of everything below it needs that the subtrees of one
chunk are disjoint: no context stands for the same summary or message twice
(`NodupContexts`).
-/

namespace LosslessHermes.Compaction

open Collect
open Relation (ReflTransGen TransGen)

/-! ## What contexts stand for -/

/-- What a message and what a summary by itself stand for. -/
structure Reading (α : Type) where
  raw : MessageId → List α
  own : SummaryId → List α

/-- A summary stands for its row. -/
def Reading.nodes (db : Db) : Reading SummaryRecord :=
  { raw := fun _ => []
    own := fun s => (db.getSummary s).toList }

/-- A summary stands for the messages that it was made from. -/
def Reading.messages (db : Db) : Reading MessageRecord :=
  { raw := fun m => (db.getMessageById m true).toList
    own := fun s => (db.getSummaryMessages s).filterMap fun m => db.getMessageById m true }

section Reading

variable {α : Type}

def gatherRefs (db : Db) (reading : Reading α) (fuel : Nat) (refs : List ContextItemRef) :
    Option (List α) :=
  collect (db.gatherRef reading.raw reading.own fuel) refs

/-- No context stands for anything twice. -/
def NodupContexts (db : Db) (reading : Reading α) : Prop :=
  ∀ c fuel, (∀ s ∈ db.summaries, s.depth < fuel) → ∃ items,
    gatherRefs db reading fuel ((db.getContextItems c).map (·.ref)) = some items ∧ items.Nodup

/-- `db'` reads what `db` has as `db` does. -/
structure Persists (db db' : Db) (reading reading' : Reading α) : Prop where
  older : Db.Extends db db'
  own : ∀ s record, db.getSummary s = some record → reading'.own s = reading.own s
  raw : ∀ m record, db.getMessageById m true = some record → reading'.raw m = reading.raw m

variable {db db' : Db} {reading reading' : Reading α}
  {ingested : ConversationId → List MessageId} {c : ConversationId}

theorem Persists.gatherRefs (h : Persists db db' reading reading') {fuel : Nat}
    {refs : List ContextItemRef}
    (hRefs : ∀ m, .message m ∈ refs → ∃ record, db.getMessageById m true = some record)
    {items : List α} (hItems : gatherRefs db reading fuel refs = some items) :
    gatherRefs db' reading' fuel refs = some items := by
  refine collect_congr (fun ref hRef items hItems => ?_) hItems
  cases ref with
  | message m =>
    obtain ⟨record, hRecord⟩ := hRefs m hRef
    show some (reading'.raw m) = some items
    rw [h.raw m record hRecord]
    exact hItems
  | summary s => exact h.older.gather h.own hItems

theorem nodupContexts_append (hLossless : Lossless db ingested)
    (h : Persists db db' reading reading') {message : MessageRecord}
    (hPersisted : MessagePersisted db db' c message)
    (hNodup : (reading'.raw (db.messageSequence + 1)).Nodup)
    (hNew : ∀ fuel refs items, gatherRefs db reading fuel refs = some items →
      ∀ a ∈ reading'.raw (db.messageSequence + 1), a ∉ items)
    (hContexts : NodupContexts db reading) : NodupContexts db' reading' := by
  intro c' fuel hFuel
  obtain ⟨items, hItems, hItemsNodup⟩ := hContexts c' fuel (hPersisted.summaries ▸ hFuel)
  have hKeep := h.gatherRefs (hLossless.messageRefs c') hItems
  by_cases hc : c' = c
  · subst hc
    rw [hPersisted.refs]
    refine ⟨items ++ reading'.raw (db.messageSequence + 1),
      collect_append_eq_some.mpr ⟨items, _, hKeep, collect_singleton _, rfl⟩, ?_⟩
    exact hItemsNodup.append hNodup fun a ha hNewMem => hNew fuel _ items hItems a hNewMem ha
  · rw [hPersisted.otherItems c' hc]
    exact ⟨items, hKeep, hItemsNodup⟩

/-- A chunk gives way to a summary that stands for the same and for something new. -/
theorem nodupContexts_replace (hLossless : Lossless db ingested)
    (h : Persists db db' reading reading') {record : SummaryRecord} {messageIds : List MessageId} {parentIds : List SummaryId}
    {before chunk after : List ContextItemRecord}
    (hReplaced : ChunkReplaced db db' c record messageIds parentIds before chunk after)
    {fresh : List α} (hFreshNodup : fresh.Nodup)
    (hNew : ∀ fuel refs items, gatherRefs db reading fuel refs = some items →
      ∀ a ∈ fresh, a ∉ items)
    (hChunk : ∀ fuel items, record.depth < fuel →
      gatherRefs db reading fuel (chunk.map (·.ref)) = some items →
      db'.gather reading'.own fuel record.summaryId = some (fresh ++ items))
    (hContexts : NodupContexts db reading) : NodupContexts db' reading' := by
  intro c' fuel hFuel
  rw [hReplaced.summaries_eq] at hFuel
  obtain ⟨items, hItems, hNodup⟩ := hContexts c' fuel fun s hs =>
    hFuel s (List.mem_append_left _ hs)
  by_cases hc : c' = c
  · subst hc
    have hAll := hItems
    rw [hReplaced.oldRefs] at hAll
    obtain ⟨left, last, hLeft, hLast, rfl⟩ := collect_append_eq_some.mp hAll
    obtain ⟨first, middle, hFirst, hMiddle, rfl⟩ := collect_append_eq_some.mp hLeft
    have hFound : ∀ refs : List ContextItemRef,
        (∀ ref ∈ refs, ref ∈ (db.getContextItems c').map (·.ref)) →
        ∀ m, ContextItemRef.message m ∈ refs → ∃ record, db.getMessageById m true = some record :=
      fun refs hSub m hm => hLossless.messageRefs c' m (hSub _ hm)
    have hFirst' : gatherRefs db' reading' fuel (before.map (·.ref)) = some first := by
      refine h.gatherRefs (hFound _ fun ref hRef => ?_) hFirst
      rw [hReplaced.oldRefs]
      exact List.mem_append_left _ (List.mem_append_left _ hRef)
    have hLast' : gatherRefs db' reading' fuel (after.map (·.ref)) = some last := by
      refine h.gatherRefs (hFound _ fun ref hRef => ?_) hLast
      rw [hReplaced.oldRefs]
      exact List.mem_append_right _ hRef
    refine ⟨first ++ (fresh ++ middle) ++ last, ?_, ?_⟩
    · rw [hReplaced.refs]
      refine collect_append_eq_some.mpr ⟨_, last, ?_, hLast', rfl⟩
      refine collect_append_eq_some.mpr ⟨first, _, hFirst', ?_, rfl⟩
      exact (collect_singleton _).trans (hChunk fuel middle (hFuel record (by simp)) hMiddle)
    · have hPerm : (first ++ (fresh ++ middle) ++ last).Perm
          (fresh ++ (first ++ middle ++ last)) := by
        simp only [List.append_assoc]
        exact List.perm_append_comm_assoc first fresh (middle ++ last)
      refine hPerm.nodup_iff.mpr (hFreshNodup.append hNodup fun a ha hOld => ?_)
      exact hNew fuel _ _ hItems a ha hOld
  · rw [hReplaced.other c' hc]
    exact ⟨items, h.gatherRefs (hLossless.messageRefs c') hItems, hNodup⟩

end Reading

/-! ## One summary and what is below it -/

/-- The columns of `record`, by the rows `nodes` of its subtree and the messages `covered`. -/
structure Describes (record : SummaryRecord) (nodes : List SummaryRecord)
    (covered : List MessageRecord) : Prop where
  nodesNodup : nodes.Nodup
  coveredNodup : covered.Nodup
  descendantCount : record.descendantCount + 1 = nodes.length
  descendantTokenCount :
    record.descendantTokenCount + record.tokenCount = (nodes.map (·.tokenCount)).sum
  sourceMessageTokenCount : record.sourceMessageTokenCount = (covered.map (·.tokenCount)).sum
  coveredNe : covered ≠ []
  earliestAt : record.earliestAt = (covered.map (·.createdAt)).min?
  latestAt : record.latestAt = (covered.map (·.createdAt)).max?

/-- A summary that covers a message has its dates, so that no fallback is read. -/
theorem Describes.earliestAt_eq {record : SummaryRecord} {nodes : List SummaryRecord}
    {covered : List MessageRecord} (h : Describes record nodes covered) :
    record.earliestAt = some (record.earliestAt.getD record.createdAt) := by
  have hSome := List.isSome_min?_of_ne_nil
    ((List.map_eq_nil_iff (f := fun m : MessageRecord => m.createdAt)).not.mpr h.coveredNe)
  rw [← h.earliestAt] at hSome
  obtain ⟨e, he⟩ := Option.isSome_iff_exists.mp hSome
  rw [he]
  rfl

theorem Describes.latestAt_eq {record : SummaryRecord} {nodes : List SummaryRecord}
    {covered : List MessageRecord} (h : Describes record nodes covered) :
    record.latestAt = some (record.latestAt.getD record.createdAt) := by
  have hSome := List.isSome_max?_of_ne_nil
    ((List.map_eq_nil_iff (f := fun m : MessageRecord => m.createdAt)).not.mpr h.coveredNe)
  rw [← h.latestAt] at hSome
  obtain ⟨e, he⟩ := Option.isSome_iff_exists.mp hSome
  rw [he]
  rfl

/-- A readable summary is described by its subtree. -/
def Described (db : Db) (record : SummaryRecord) : Prop :=
  ∃ nodes covered,
    db.gather (Reading.nodes db).own (record.depth + 1) record.summaryId = some nodes ∧
    db.gather (Reading.messages db).own (record.depth + 1) record.summaryId = some covered ∧
    Describes record nodes covered

/-- A leaf has no source summary, and the sources of a condensed summary are one level down. -/
def Layered (db : Db) (record : SummaryRecord) : Prop :=
  (record.kind = .leaf ∧ record.depth = 0 ∧ db.getSummaryParents record.summaryId = []) ∨
    record.kind = .condensed ∧ ∃ d, record.depth = d + 1 ∧
      ∀ p ∈ db.getSummaryParents record.summaryId, p.depth = d

structure Measured (db : Db) : Prop where
  visible : ∀ r ∈ db.summaries, r.suppressedAt = none
  unique : (db.summaries.map (·.summaryId)).Nodup
  linked : ∀ l ∈ db.summaryMessages, ∃ record, db.getMessageById l.messageId true = some record
  estimated : ∀ m ∈ db.messages, m.tokenCount = estimateTokens m.content
  layered : ∀ s record, db.getSummary s = some record → Layered db record
  described : ∀ s record, db.getSummary s = some record → Described db record
  nodesNodup : NodupContexts db (.nodes db)
  messagesNodup : NodupContexts db (.messages db)

theorem measured_start (conversations : List ConversationRecord) :
    Measured (RunState.start conversations).db := by
  refine ⟨?_, ?_, ?_, ?_, ?_, ?_, ?_, ?_⟩ <;>
    simp [RunState.start, Db.empty, Db.getSummary, Db.getContextItems, Table.select,
      NodupContexts, gatherRefs, collect]

section Measured

variable {db db' : Db} {ingested : ConversationId → List MessageId}

/-- Messages that links lead to are read alike wherever no message changes. -/
theorem Measured.persists_messages (h : Measured db) (hOlder : Db.Extends db db')
    (hMessages : ∀ m record, db.getMessageById m true = some record →
      db'.getMessageById m true = some record) :
    Persists db db' (.messages db) (.messages db') := by
  refine ⟨hOlder, fun s record hRecord => ?_, fun m record hRecord => ?_⟩
  · show (db'.getSummaryMessages s).filterMap _ = (db.getSummaryMessages s).filterMap _
    rw [hOlder.messages s record hRecord]
    refine List.filterMap_congr fun m hm => ?_
    obtain ⟨l, hl, rfl⟩ := List.mem_map.mp hm
    obtain ⟨found, hFound⟩ := h.linked l (Table.mem_select.mp hl).1
    rw [hFound, hMessages _ _ hFound]
  · show (db'.getMessageById m true).toList = (db.getMessageById m true).toList
    rw [hRecord, hMessages m record hRecord]

theorem persists_nodes (hOlder : Db.Extends db db') :
    Persists db db' (.nodes db) (.nodes db') := by
  refine ⟨hOlder, fun s record hRecord => ?_, fun _ _ _ => rfl⟩
  show (db'.getSummary s).toList = (db.getSummary s).toList
  rw [hRecord, hOlder.summary s record hRecord]

theorem getSummary_of_mem_parents {s : SummaryId} {p : SummaryRecord}
    (hp : p ∈ db.getSummaryParents s) : db.getSummary p.summaryId = some p := by
  obtain ⟨l, -, hFound⟩ := List.mem_filterMap.mp hp
  rw [(Db.mem_of_getSummary hFound).2]
  exact hFound

theorem Layered.older {record : SummaryRecord} (h : Layered db record)
    (hRecord : db.getSummary record.summaryId = some record) (hOlder : Db.Extends db db') :
    Layered db' record := by
  unfold Layered
  rw [hOlder.parents _ record hRecord]
  exact h

theorem Described.older {record : SummaryRecord} (h : Described db record)
    (hNodes : Persists db db' (.nodes db) (.nodes db'))
    (hMessages : Persists db db' (.messages db) (.messages db')) : Described db' record := by
  obtain ⟨nodes, covered, hGather, hCovered, hDescribes⟩ := h
  exact ⟨nodes, covered, hNodes.older.gather hNodes.own hGather,
    hMessages.older.gather hMessages.own hCovered, hDescribes⟩

/-- Every node that a context or a summary stands for is a stored row. -/
theorem mem_summaries_of_gather {fuel : Nat} {s : SummaryId} {nodes : List SummaryRecord}
    (h : db.gather (Reading.nodes db).own fuel s = some nodes) {r : SummaryRecord}
    (hr : r ∈ nodes) : r ∈ db.summaries := by
  obtain ⟨t, -, hOwn⟩ := (Db.mem_gather h).mp hr
  exact (Db.mem_of_getSummary (Option.mem_toList.mp hOwn)).1

theorem mem_summaries_of_gatherRefs {fuel : Nat} {refs : List ContextItemRef}
    {nodes : List SummaryRecord} (h : gatherRefs db (.nodes db) fuel refs = some nodes)
    {r : SummaryRecord} (hr : r ∈ nodes) : r ∈ db.summaries := by
  obtain ⟨ref, -, items, hItems, hMem⟩ := (mem_collect h).mp hr
  cases ref with
  | message m =>
    obtain rfl : [] = items := Option.some.inj hItems
    cases hMem
  | summary s => exact mem_summaries_of_gather hItems hMem

/-- Every message that a context stands for is stored. -/
theorem mem_messages_of_gatherRefs {fuel : Nat} {refs : List ContextItemRef}
    {covered : List MessageRecord} (h : gatherRefs db (.messages db) fuel refs = some covered)
    {m : MessageRecord} (hm : m ∈ covered) : m ∈ db.messages := by
  obtain ⟨ref, -, items, hItems, hMem⟩ := (mem_collect h).mp hm
  cases ref with
  | message id =>
    obtain rfl : (db.getMessageById id true).toList = items := Option.some.inj hItems
    exact List.mem_of_find?_eq_some (Option.mem_toList.mp hMem)
  | summary s =>
    obtain ⟨t, -, hOwn⟩ := (Db.mem_gather hItems).mp hMem
    obtain ⟨id, -, hFound⟩ := List.mem_filterMap.mp hOwn
    exact List.mem_of_find?_eq_some hFound

/-! ## Ingestion -/

theorem measured_persist (hLossless : Lossless db ingested) (h : Measured db) {c : ConversationId}
    {message : MessageRecord} (hPersisted : MessagePersisted db db' c message)
    (hId : message.messageId = db.messageSequence + 1)
    (hTokens : message.tokenCount = estimateTokens message.content) : Measured db' := by
  have hSummaries := hPersisted.summaries
  have hNodes := persists_nodes hPersisted.older
  have hCovered := h.persists_messages hPersisted.older fun _ _ => hPersisted.getMessageById
  refine ⟨hSummaries ▸ h.visible, hSummaries ▸ h.unique, ?_, ?_, ?_, ?_, ?_, ?_⟩
  · intro l hl
    rw [hPersisted.frame] at hl
    obtain ⟨record, hRecord⟩ := h.linked l hl
    exact ⟨record, hPersisted.getMessageById hRecord⟩
  · intro m hm
    rw [hPersisted.frame] at hm
    rcases List.mem_append.mp hm with hm | hm
    · exact h.estimated m hm
    · rw [List.mem_singleton.mp hm]
      exact hTokens
  · intro s record hRecord
    rw [hPersisted.getSummary] at hRecord
    have hId := (Db.mem_of_getSummary hRecord).2
    exact (h.layered s record hRecord).older (hId ▸ hRecord) hPersisted.older
  · intro s record hRecord
    rw [hPersisted.getSummary] at hRecord
    exact (h.described s record hRecord).older hNodes hCovered
  · exact nodupContexts_append hLossless hNodes hPersisted List.nodup_nil
      (fun _ _ _ _ a ha => nomatch ha) h.nodesNodup
  · have hRaw : (Reading.messages db').raw (db.messageSequence + 1) = [message] := by
      show (db'.getMessageById (db.messageSequence + 1) true).toList = [message]
      rw [hPersisted.getMessageById_new hLossless.messages hId]
      rfl
    refine nodupContexts_append hLossless hCovered hPersisted ?_ ?_ h.messagesNodup
    · rw [hRaw]
      exact List.nodup_singleton _
    · intro fuel refs items hGather a ha hMem
      rw [hRaw] at ha
      have hBound := hLossless.messages.idBound a (mem_messages_of_gatherRefs hGather hMem)
      rw [List.mem_singleton.mp ha, hId] at hBound
      exact absurd hBound (Nat.not_succ_le_self _)

/-! ## A new summary -/

section Replace

variable {α : Type} {reading reading' : Reading α} {c : ConversationId} {record : SummaryRecord}
  {messageIds : List MessageId} {parentIds : List SummaryId}
  {before chunk after : List ContextItemRecord} {fuel fuel' : Nat}

/-- Fuel for the depth of a summary is enough to gather what it stands for. -/
def Reading.Gathers (reading : Reading α) (db : Db) : Prop :=
  ∀ s record, db.getSummary s = some record →
    ∃ items, db.gather reading.own (record.depth + 1) s = some items

/-- The sources of a summary are stored one level below it. -/
def OneLevelDown (db : Db) (record : SummaryRecord) (parentIds : List SummaryId) : Prop :=
  ∀ p ∈ parentIds, ∃ old, db.getSummary p = some old ∧ record.depth = old.depth + 1

theorem Measured.gathers_nodes (h : Measured db) : (Reading.nodes db).Gathers db := by
  intro s r hr
  obtain ⟨nodes, _, hGather, -⟩ := h.described s r hr
  exact ⟨nodes, (Db.mem_of_getSummary hr).2 ▸ hGather⟩

theorem Measured.gathers_messages (h : Measured db) : (Reading.messages db).Gathers db := by
  intro s r hr
  obtain ⟨_, covered, -, hGather, -⟩ := h.described s r hr
  exact ⟨covered, (Db.mem_of_getSummary hr).2 ▸ hGather⟩

/-- Sources one level down gather the same with any fuel from their level on. -/
theorem collect_sources (hGathers : reading.Gathers db)
    (hParents : OneLevelDown db record parentIds) (hFuel : record.depth ≤ fuel)
    (hFuel' : record.depth ≤ fuel') {below : List α}
    (hBelow : collect (db.gather reading.own fuel) parentIds = some below) :
    collect (db.gather reading.own fuel') parentIds = some below := by
  refine collect_congr (fun p hp items hItems => ?_) hBelow
  obtain ⟨old, hOld, hDepth⟩ := hParents p hp
  obtain ⟨items', hItems'⟩ := hGathers p old hOld
  have hSame : db.gather reading.own fuel p = some items' := Db.gather_mono hItems' (by omega)
  rw [hItems] at hSame
  obtain rfl := Option.some.inj hSame
  exact Db.gather_mono hItems' (by omega)

theorem gatherRefs_chunk
    (hRefs : chunk.map (·.ref) = messageIds.map .message ++ parentIds.map .summary)
    {items : List α} : gatherRefs db reading fuel (chunk.map (·.ref)) = some items ↔
      ∃ below, collect (db.gather reading.own fuel) parentIds = some below ∧
        items = messageIds.flatMap reading.raw ++ below := by
  have hRaw : collect (db.gatherRef reading.raw reading.own fuel)
      (messageIds.map ContextItemRef.message) = some (messageIds.flatMap reading.raw) := by
    rw [collect_map]
    exact collect_total reading.raw messageIds
  have hOwn : collect (db.gatherRef reading.raw reading.own fuel)
      (parentIds.map ContextItemRef.summary) = collect (db.gather reading.own fuel) parentIds :=
    collect_map _ _
  rw [gatherRefs, hRefs, collect_append_eq_some]
  constructor
  · rintro ⟨left, below, hLeft, hBelow, rfl⟩
    obtain rfl : messageIds.flatMap reading.raw = left := Option.some.inj (hRaw.symm.trans hLeft)
    exact ⟨below, hOwn ▸ hBelow, rfl⟩
  · rintro ⟨below, hBelow, rfl⟩
    exact ⟨_, below, hRaw, hOwn.trans hBelow, rfl⟩

variable (hReplaced : ChunkReplaced db db' c record messageIds parentIds before chunk after)

include hReplaced

/-- What a new summary gathers: what it owns, and what its sources gather. -/
theorem gather_new (hLossless : Lossless db ingested)
    (hPersists : Persists db db' reading reading') (hGathers : reading.Gathers db)
    (hParents : OneLevelDown db record parentIds) (hFuel : record.depth < fuel) {below : List α}
    (hBelow : collect (db.gather reading.own fuel) parentIds = some below) :
    db'.gather reading'.own fuel record.summaryId =
      some (reading'.own record.summaryId ++ below) := by
  obtain ⟨fuel, rfl⟩ := Nat.exists_eq_succ_of_ne_zero (Nat.ne_zero_of_lt hFuel)
  have hLess := collect_sources hGathers hParents (Nat.le_of_lt hFuel) (Nat.le_of_lt_succ hFuel)
    hBelow
  obtain ⟨hFresh, hVisible, hFound, -, -⟩ := hReplaced.summary
  exact hReplaced.added.gather (fun _ _ _ => rfl)
    (Db.gather_addSummary hLossless.summaries hFresh hVisible hFound hPersists.own hLess)

theorem ChunkReplaced.own_nodes : (Reading.nodes db').own record.summaryId = [record] := by
  show (db'.getSummary record.summaryId).toList = [record]
  rw [hReplaced.getSummary_self]
  rfl

theorem ChunkReplaced.own_messages (hLossless : Lossless db ingested) :
    (Reading.messages db').own record.summaryId =
      messageIds.flatMap (Reading.messages db).raw := by
  show (db'.getSummaryMessages record.summaryId).filterMap _ = messageIds.flatMap fun m =>
    (db.getMessageById m true).toList
  rw [hReplaced.getSummaryMessages_self hLossless, List.filterMap_eq_flatMap_toList]
  simp only [hReplaced.getMessageById_eq]

/-- Every link of `db'` leads to a message, if those of the new summary do. -/
theorem ChunkReplaced.linked
    (h : ∀ l ∈ db.summaryMessages, ∃ found, db.getMessageById l.messageId true = some found)
    (hLinked : ∀ m ∈ messageIds, ∃ found, db.getMessageById m true = some found) :
    ∀ l ∈ db'.summaryMessages, ∃ found, db'.getMessageById l.messageId true = some found := by
  intro l hl
  have hLinks : db'.summaryMessages = db.summaryMessages ++
      messageIds.zipIdx.map fun place => ⟨record.summaryId, place.1, place.2⟩ := by
    rw [hReplaced.frame]
    rfl
  rw [hLinks] at hl
  rw [hReplaced.getMessageById_eq]
  rcases List.mem_append.mp hl with hl | hl
  · exact h l hl
  · obtain ⟨⟨m, i⟩, hm, rfl⟩ := List.mem_map.mp hl
    exact hLinked m (List.fst_mem_of_mem_zipIdx hm)

/-- The chunk stands for nothing twice. -/
theorem chunk_nodup (hContexts : NodupContexts db reading)
    (hFuel : ∀ s ∈ db.summaries, s.depth < fuel) :
    ∃ items, gatherRefs db reading fuel (chunk.map (·.ref)) = some items ∧ items.Nodup := by
  obtain ⟨items, hItems, hNodup⟩ := hContexts c fuel hFuel
  rw [hReplaced.oldRefs] at hItems
  obtain ⟨left, last, hLeft, -, rfl⟩ := collect_append_eq_some.mp hItems
  obtain ⟨first, middle, -, hMiddle, rfl⟩ := collect_append_eq_some.mp hLeft
  exact ⟨middle, hMiddle, (List.nodup_append.mp (List.nodup_append.mp hNodup).1).2.1⟩

/-- A summary with the right columns keeps the invariant. -/
theorem measured_replace (hLossless : Lossless db ingested) (h : Measured db)
    (hRefs : chunk.map (·.ref) = messageIds.map .message ++ parentIds.map .summary)
    (hParents : OneLevelDown db record parentIds)
    (hLinked : ∀ m ∈ messageIds, ∃ found, db.getMessageById m true = some found)
    (hLayered : Layered db' record)
    (hColumns : ∀ fuel below covered, record.depth < fuel →
      collect (db.gather (Reading.nodes db).own fuel) parentIds = some below →
      collect (db.gather (Reading.messages db).own fuel) parentIds = some covered →
      (record :: below).Nodup → (messageIds.flatMap (Reading.messages db).raw ++ covered).Nodup →
      Describes record (record :: below)
        (messageIds.flatMap (Reading.messages db).raw ++ covered)) : Measured db' := by
  have hOlder := hReplaced.older hLossless
  have hNodes := persists_nodes hOlder
  have hCovered := h.persists_messages hOlder fun m found hFound =>
    (hReplaced.getMessageById_eq m).trans hFound
  have hNewNodes : ∀ {fuel below}, record.depth < fuel →
      collect (db.gather (Reading.nodes db).own fuel) parentIds = some below →
      db'.gather (Reading.nodes db').own fuel record.summaryId = some (record :: below) := by
    intro fuel below hFuel hBelow
    rw [gather_new hReplaced hLossless hNodes h.gathers_nodes hParents hFuel hBelow,
      hReplaced.own_nodes]
    rfl
  have hNewMessages : ∀ {fuel below}, record.depth < fuel →
      collect (db.gather (Reading.messages db).own fuel) parentIds = some below →
      db'.gather (Reading.messages db').own fuel record.summaryId =
        some (messageIds.flatMap (Reading.messages db).raw ++ below) := by
    intro fuel below hFuel hBelow
    rw [gather_new hReplaced hLossless hCovered h.gathers_messages hParents hFuel hBelow,
      hReplaced.own_messages hLossless]
  have hNotNode : ∀ {fuel refs items}, gatherRefs db (.nodes db) fuel refs = some items →
      record ∉ items := fun hItems hMem =>
    hReplaced.summary.fresh (List.mem_map_of_mem (mem_summaries_of_gatherRefs hItems hMem))
  have hNoRaw : messageIds.flatMap (Reading.nodes db).raw = [] := List.flatMap_eq_nil_iff.mpr
    fun _ _ => rfl
  refine ⟨hReplaced.visible h.visible, hReplaced.unique h.unique, hReplaced.linked h.linked hLinked,
    hReplaced.messages_eq ▸ h.estimated, ?_, ?_, ?_, ?_⟩
  · intro s found hFound
    rcases hReplaced.getSummary_cases hFound with hOld | ⟨-, rfl⟩
    · exact (h.layered s found hOld).older ((Db.mem_of_getSummary hOld).2 ▸ hOld) hOlder
    · exact hLayered
  · intro s found hFound
    rcases hReplaced.getSummary_cases hFound with hOld | ⟨-, rfl⟩
    · exact (h.described s found hOld).older hNodes hCovered
    · obtain ⟨fuel, hFuel⟩ := exists_fuel db'
      rw [hReplaced.summaries_eq] at hFuel
      have hFuelOld : ∀ s ∈ db.summaries, s.depth < fuel := fun s hs =>
        hFuel s (List.mem_append_left _ hs)
      have hDepth := hFuel found (by simp)
      obtain ⟨nodes, hNodesChunk, hNodesNodup⟩ := chunk_nodup hReplaced h.nodesNodup hFuelOld
      obtain ⟨covered, hCoveredChunk, hCoveredNodup⟩ :=
        chunk_nodup hReplaced h.messagesNodup hFuelOld
      have hFresh := hNotNode hNodesChunk
      obtain ⟨below, hBelow, rfl⟩ := (gatherRefs_chunk hRefs).mp hNodesChunk
      obtain ⟨coveredBelow, hCoveredBelow, rfl⟩ := (gatherRefs_chunk hRefs).mp hCoveredChunk
      rw [hNoRaw, List.nil_append] at hNodesNodup hFresh
      refine ⟨found :: below, _, hNewNodes (Nat.lt_succ_self _) ?_,
        hNewMessages (Nat.lt_succ_self _) ?_, hColumns fuel below coveredBelow hDepth hBelow
          hCoveredBelow (List.nodup_cons.mpr ⟨hFresh, hNodesNodup⟩) hCoveredNodup⟩
      · exact collect_sources h.gathers_nodes hParents (Nat.le_of_lt hDepth) (Nat.le_succ _) hBelow
      · exact collect_sources h.gathers_messages hParents (Nat.le_of_lt hDepth) (Nat.le_succ _)
          hCoveredBelow
  · refine nodupContexts_replace hLossless hNodes hReplaced (List.nodup_singleton record)
      (fun fuel refs items hItems a ha => List.mem_singleton.mp ha ▸ hNotNode hItems)
      (fun fuel items hFuel hItems => ?_) h.nodesNodup
    obtain ⟨below, hBelow, rfl⟩ := (gatherRefs_chunk hRefs).mp hItems
    rw [hNewNodes hFuel hBelow, hNoRaw]
    rfl
  · refine nodupContexts_replace hLossless hCovered hReplaced List.nodup_nil
      (fun fuel refs items hItems a ha => nomatch ha) (fun fuel items hFuel hItems => ?_)
      h.messagesNodup
    obtain ⟨below, hBelow, rfl⟩ := (gatherRefs_chunk hRefs).mp hItems
    exact hNewMessages hFuel hBelow

end Replace

/-! ## The two passes -/

theorem leafMessages_found {chunk : List ContextItemRecord} {m : MessageRecord}
    (hm : m ∈ leafMessages db chunk) : db.getMessageById m.messageId true = some m := by
  obtain ⟨item, -, hItem⟩ := List.mem_filterMap.mp hm
  cases hRef : item.ref with
  | summary s => simp [hRef] at hItem
  | message id =>
    simp only [hRef] at hItem
    have hId := List.find?_some hItem
    simp only [true_or, and_true, decide_eq_true_eq] at hId
    rw [hId]
    exact hItem

theorem describes_leaf (h : Measured db) {chunk : List ContextItemRecord} {now : Timestamp}
    {create : CreateSummaryInput} (hCreate : LeafCreate (leafMessages db chunk) create)
    (hNe : leafMessages db chunk ≠ []) (hNodup : (leafMessages db chunk).Nodup) :
    Describes (Db.createdSummary now create) [Db.createdSummary now create]
      (leafMessages db chunk) := by
  have hTokens : ∀ m ∈ leafMessages db chunk, resolveMessageTokenCount m = m.tokenCount := by
    intro m hm
    have hEstimate := h.estimated m (List.mem_of_find?_eq_some (leafMessages_found hm))
    unfold resolveMessageTokenCount
    split <;> omega
  refine ⟨List.nodup_singleton _, hNodup, ?_, ?_, ?_, hNe, hCreate.earliestAt, hCreate.latestAt⟩
  · show create.descendantCount + 1 = 1
    rw [hCreate.descendantCount]
  · show create.descendantTokenCount + create.tokenCount = create.tokenCount + 0
    rw [hCreate.descendantTokenCount]
    omega
  · show create.sourceMessageTokenCount = _
    rw [hCreate.sourceMessageTokenCount, List.map_congr_left hTokens]

theorem measured_leafPass (hLossless : Lossless db ingested) (h : Measured db) (env : PassEnv)
    (c : ConversationId) (previousSummaryContent : Option String) :
    Measured (leafPass db env c previousSummaryContent).1 := by
  rcases leafPass_replaced hLossless env c previousSummaryContent with hSame |
    ⟨create, before, chunk, after, hCreate, hReplaced, hNe, hRefs, -⟩
  · rw [hSame]
    exact h
  have hMessagesNe : leafMessages db chunk ≠ [] := by
    intro hNil
    rw [hNil] at hRefs
    exact hNe (List.map_eq_nil_iff.mp hRefs)
  have hOwn : ((leafMessages db chunk).map (·.messageId)).flatMap (Reading.messages db).raw =
      leafMessages db chunk := by
    rw [List.flatMap_map]
    have hEach : (leafMessages db chunk).flatMap (fun m => (Reading.messages db).raw m.messageId) =
        (leafMessages db chunk).flatMap fun m => [m] := by
      refine List.flatMap_congr fun m hm => ?_
      show (db.getMessageById m.messageId true).toList = [m]
      rw [leafMessages_found hm]
      rfl
    rw [hEach, List.flatMap_singleton']
  refine measured_replace hReplaced hLossless h (by rw [hRefs, List.map_nil, List.append_nil])
    (fun p hp => nomatch hp) ?_ ?_ ?_
  · intro id hId
    obtain ⟨m, hm, rfl⟩ := List.mem_map.mp hId
    exact ⟨m, leafMessages_found hm⟩
  · refine Or.inl ⟨hCreate.kind, ?_, ?_⟩
    · show Db.defaultDepth create.kind create.depth = 0
      rw [hCreate.depth]
      rfl
    · exact List.map_eq_nil_iff.mp (hReplaced.getSummaryParents_self hLossless)
  · intro fuel below covered _ hBelow hCovered _ hNodup
    obtain rfl : [] = below := Option.some.inj hBelow
    obtain rfl : [] = covered := Option.some.inj hCovered
    rw [List.append_nil, hOwn] at hNodup ⊢
    exact describes_leaf h hCreate.toLeafCreate hMessagesNe hNodup

/-- The columns of a condensed summary are the totals of its sources. -/
theorem describes_condensed (h : Measured db) {records : List SummaryRecord} {targetDepth : Nat}
    {now : Timestamp} {create : CreateSummaryInput}
    (hCreate : CondensedCreate records targetDepth create) (hNe : records ≠ [])
    (hRecords : ∀ r ∈ records, db.getSummary r.summaryId = some r ∧ r.depth = targetDepth)
    {fuel : Nat} (hFuel : targetDepth + 1 < fuel) {below : List SummaryRecord}
    {covered : List MessageRecord}
    (hBelow : collect (db.gather (Reading.nodes db).own fuel) (records.map (·.summaryId)) =
      some below)
    (hCovered : collect (db.gather (Reading.messages db).own fuel) (records.map (·.summaryId)) =
      some covered)
    (hBelowNodup : (Db.createdSummary now create :: below).Nodup) (hCoveredNodup : covered.Nodup) :
    Describes (Db.createdSummary now create) (Db.createdSummary now create :: below) covered := by
  rw [collect_map] at hBelow hCovered
  have hChild : ∀ r ∈ records, ∃ nodes messages,
      db.gather (Reading.nodes db).own fuel r.summaryId = some nodes ∧
      db.gather (Reading.messages db).own fuel r.summaryId = some messages ∧
      Describes r nodes messages := by
    intro r hr
    obtain ⟨hFound, hDepth⟩ := hRecords r hr
    obtain ⟨nodes, messages, hNodes, hMessages, hDescribes⟩ := h.described _ r hFound
    exact ⟨nodes, messages, Db.gather_mono hNodes (by omega), Db.gather_mono hMessages (by omega),
      hDescribes⟩
  have hNodes : ∀ r ∈ records, ∀ ys, db.gather (Reading.nodes db).own fuel r.summaryId = some ys →
      ∃ messages, Describes r ys messages := by
    intro r hr ys hys
    obtain ⟨nodes, messages, hNodes, -, hDescribes⟩ := hChild r hr
    obtain rfl := Option.some.inj (hNodes.symm.trans hys)
    exact ⟨messages, hDescribes⟩
  have hMessages : ∀ r ∈ records, ∀ ys,
      db.gather (Reading.messages db).own fuel r.summaryId = some ys →
      ∃ nodes, Describes r nodes ys := by
    intro r hr ys hys
    obtain ⟨nodes, messages, -, hMessages, hDescribes⟩ := hChild r hr
    obtain rfl := Option.some.inj (hMessages.symm.trans hys)
    exact ⟨nodes, hDescribes⟩
  have hCount := collect_sum hBelow (fun _ => 1) (fun r => r.descendantCount + 1)
    fun r hr ys hys => by
      obtain ⟨messages, hDescribes⟩ := hNodes r hr ys hys
      rw [hDescribes.descendantCount]
      simp
  have hTokens := collect_sum hBelow (·.tokenCount)
    (fun r => r.descendantTokenCount + r.tokenCount) fun r hr ys hys => by
      obtain ⟨messages, hDescribes⟩ := hNodes r hr ys hys
      exact hDescribes.descendantTokenCount.symm
  have hSources := collect_sum hCovered (·.tokenCount) (·.sourceMessageTokenCount)
    fun r hr ys hys => by
      obtain ⟨nodes, hDescribes⟩ := hMessages r hr ys hys
      exact hDescribes.sourceMessageTokenCount.symm
  rw [List.map_const', List.sum_replicate_nat, Nat.mul_one] at hCount
  have hEarliest := collect_least hCovered hNe (·.createdAt)
    (fun r => r.earliestAt.getD r.createdAt) fun r hr ys hys => by
      obtain ⟨nodes, hDescribes⟩ := hMessages r hr ys hys
      exact hDescribes.earliestAt.symm.trans hDescribes.earliestAt_eq
  have hLatest := collect_greatest hCovered hNe (·.createdAt)
    (fun r => r.latestAt.getD r.createdAt) fun r hr ys hys => by
      obtain ⟨nodes, hDescribes⟩ := hMessages r hr ys hys
      exact hDescribes.latestAt.symm.trans hDescribes.latestAt_eq
  refine ⟨hBelowNodup, hCoveredNodup, ?_, ?_, ?_, ?_, ?_, ?_⟩
  · show create.descendantCount + 1 = below.length + 1
    rw [hCreate.descendantCount, hCount]
  · show create.descendantTokenCount + create.tokenCount =
      create.tokenCount + (below.map (·.tokenCount)).sum
    rw [hCreate.descendantTokenCount, hTokens]
    omega
  · show create.sourceMessageTokenCount = _
    rw [hCreate.sourceMessageTokenCount, hSources]
  · obtain ⟨r, hr⟩ := List.exists_mem_of_ne_nil _ hNe
    obtain ⟨nodes, messages, -, hList, hDescribes⟩ := hChild r hr
    obtain ⟨m, hm⟩ := List.exists_mem_of_ne_nil _ hDescribes.coveredNe
    exact List.ne_nil_of_mem ((mem_collect hCovered).mpr ⟨r, hr, messages, hList, hm⟩)
  · exact hCreate.earliestAt.trans hEarliest.symm
  · exact hCreate.latestAt.trans hLatest.symm

theorem measured_runCondensedPass (hLossless : Lossless db ingested) (h : Measured db)
    (env : PassEnv) (c : ConversationId) (hardTrigger : Bool) :
    Measured (runCondensedPass db env c hardTrigger).1 := by
  rcases runCondensedPass_replaced hLossless env c hardTrigger with hSame |
    ⟨targetDepth, create, before, chunk, after, hCreate, hReplaced, hNe, hDepths, -⟩
  · rw [hSame]
    exact h
  obtain ⟨hRefs, hRecords⟩ := condensedRecords_spec hDepths
  have hRecordsNe : condensedRecords db chunk ≠ [] := by
    intro hNil
    rw [hNil] at hRefs
    exact hNe (List.map_eq_nil_iff.mp hRefs)
  have hDepth : (Db.createdSummary env.now create).depth = targetDepth + 1 := by
    show Db.defaultDepth create.kind create.depth = targetDepth + 1
    rw [hCreate.depth]
    rfl
  have hParents : OneLevelDown db (Db.createdSummary env.now create)
      ((condensedRecords db chunk).map (·.summaryId)) := by
    intro p hp
    obtain ⟨r, hr, rfl⟩ := List.mem_map.mp hp
    obtain ⟨hFound, hLevel⟩ := hRecords r hr
    exact ⟨r, hFound, by rw [hDepth, hLevel]⟩
  refine measured_replace hReplaced hLossless h (by rw [hRefs, List.map_nil, List.nil_append])
    hParents (fun m hm => nomatch hm) ?_ ?_
  · refine Or.inr ⟨hCreate.kind, targetDepth, hDepth, fun p hp => ?_⟩
    have hSource := List.mem_map_of_mem (f := (·.summaryId)) hp
    rw [hReplaced.getSummaryParents_self hLossless] at hSource
    obtain ⟨old, hOld, hLevel⟩ := hParents _ hSource
    have hSame := (hReplaced.older hLossless).summary _ old hOld
    rw [getSummary_of_mem_parents hp] at hSame
    rw [Option.some.inj hSame]
    omega
  · intro fuel below covered hFuel hBelow hCovered hBelowNodup hCoveredNodup
    rw [hDepth] at hFuel
    rw [List.flatMap_nil, List.nil_append] at hCoveredNodup ⊢
    exact describes_condensed h hCreate.toCondensedCreate hRecordsNe hRecords hFuel hBelow hCovered
      hBelowNodup
      hCoveredNodup

end Measured

/-! ## Every run -/

/-- The token count of an ingested message is the estimate for its content, as
`_ingest_single` computes it. -/
def Event.Estimated : Event → Prop
  | .append _ _ _ content tokenCount _ => tokenCount = estimateTokens content
  | .leafPass _ _ _ => True
  | .condensedPass _ _ _ => True

instance : DecidablePred Event.Estimated
  | .append _ _ _ content tokenCount _ =>
      inferInstanceAs (Decidable (tokenCount = estimateTokens content))
  | .leafPass _ _ _ => .isTrue trivial
  | .condensedPass _ _ _ => .isTrue trivial

theorem measured_step {s : RunState} (hLossless : Lossless s.db s.ingested) (h : Measured s.db)
    {event : Event} (hEvent : event.Estimated) : Measured (s.step event).db := by
  cases event with
  | append c now role content tokenCount parts =>
    obtain rfl : tokenCount = estimateTokens content := hEvent
    rcases step_append hLossless c now role content (estimateTokens content) parts with hSame |
      ⟨db', hPersisted, hStep⟩
    · rw [hSame]
      exact h
    · rw [hStep]
      exact measured_persist hLossless h hPersisted rfl rfl
  | leafPass c env previousSummaryContent =>
    exact measured_leafPass hLossless h env c previousSummaryContent
  | condensedPass c env hardTrigger =>
    exact measured_runCondensedPass hLossless h env c hardTrigger

theorem measured_run {s : RunState} (hLossless : Lossless s.db s.ingested) (h : Measured s.db)
    {events : List Event} (hEvents : ∀ event ∈ events, event.Estimated) :
    Measured (s.run events).db := by
  have hAll := @Run.final_invariant _ _ RunState.step
    (fun s => Lossless s.db s.ingested ∧ Measured s.db) s events
    (fun _ event hMem h => ⟨lossless_step h.1 event, measured_step h.1 h.2 (hEvents event hMem)⟩)
    ⟨hLossless, h⟩
  exact hAll.2

/-! ## The rows of a measured store -/

section Measured

variable {db : Db} {ingested : ConversationId → List MessageId}

theorem Measured.getSummary_of_mem (h : Measured db) {r : SummaryRecord} (hr : r ∈ db.summaries) :
    db.getSummary r.summaryId = some r :=
  Db.getSummary_of_unique h.visible h.unique hr

theorem Lossless.getMessageById_of_mem (h : Lossless db ingested) {m : MessageRecord}
    (hm : m ∈ db.messages) : db.getMessageById m.messageId true = some m := by
  refine Table.find_of_unique hm (by simp) fun m' hm' hTest => ?_
  simp only [true_or, and_true, decide_eq_true_eq] at hTest
  exact List.inj_on_of_nodup_map h.messages.idNodup hm' hm hTest

/-- Depths decrease on the way down, so that no summary is below itself. -/
theorem Measured.depth_lt_of_below (h : Measured db) {t s : SummaryId} (hBelow : db.Below t s)
    {record : SummaryRecord} (hRecord : db.getSummary s = some record) :
    ∃ old, db.getSummary t = some old ∧ old.depth < record.depth := by
  have hStep : ∀ {p s record}, db.IsSource p s → db.getSummary s = some record →
      ∃ old, db.getSummary p = some old ∧ old.depth < record.depth := by
    intro p s record hSource hRecord
    obtain ⟨old, hOld, rfl⟩ := List.mem_map.mp hSource
    refine ⟨old, getSummary_of_mem_parents hOld, ?_⟩
    have hId := (Db.mem_of_getSummary hRecord).2
    rcases h.layered s record hRecord with ⟨-, -, hNone⟩ | ⟨-, d, hDepth, hParents⟩
    · rw [hId] at hNone
      rw [hNone] at hOld
      cases hOld
    · have hOldDepth := hParents old (hId ▸ hOld)
      omega
  induction hBelow generalizing record with
  | single hSource => exact hStep hSource hRecord
  | tail _ hSource ih =>
    obtain ⟨middle, hMiddle, hLt⟩ := hStep hSource hRecord
    obtain ⟨old, hOld, hLess⟩ := ih hMiddle
    exact ⟨old, hOld, hLess.trans hLt⟩

theorem Measured.not_below_self (h : Measured db) {r : SummaryRecord} (hr : r ∈ db.summaries) :
    ¬ db.Below r.summaryId r.summaryId := by
  intro hBelow
  have hRecord := h.getSummary_of_mem hr
  obtain ⟨old, hOld, hLt⟩ := h.depth_lt_of_below hBelow hRecord
  rw [hRecord] at hOld
  rw [Option.some.inj hOld] at hLt
  exact Nat.lt_irrefl _ hLt

/-- The nodes of a summary: itself, and the rows below it. -/
theorem Measured.nodes_spec (h : Measured db) {r : SummaryRecord} (hr : r ∈ db.summaries)
    {fuel : Nat} {nodes : List SummaryRecord}
    (hNodes : db.gather (Reading.nodes db).own fuel r.summaryId = some nodes)
    (hNodup : nodes.Nodup) :
    ∃ below, nodes = r :: below ∧
      ∀ t, t ∈ below ↔ t ∈ db.summaries ∧ db.Below t.summaryId r.summaryId := by
  have hOwn : (Reading.nodes db).own r.summaryId = [r] := by
    show (db.getSummary r.summaryId).toList = [r]
    rw [h.getSummary_of_mem hr]
    rfl
  cases fuel with
  | zero => cases hNodes
  | succ fuel =>
    obtain ⟨-, below, -, hEq⟩ := Db.gather_eq_some.mp hNodes
    rw [hOwn, List.singleton_append] at hEq
    subst hEq
    refine ⟨below, rfl, fun t => ?_⟩
    have hMem : t ∈ r :: below ↔
        t ∈ db.summaries ∧ ReflTransGen db.IsSource t.summaryId r.summaryId := by
      rw [Db.mem_gather hNodes]
      constructor
      · rintro ⟨id, hPath, hFound⟩
        obtain ⟨hStored, rfl⟩ := Db.mem_of_getSummary (Option.mem_toList.mp hFound)
        exact ⟨hStored, hPath⟩
      · rintro ⟨hStored, hPath⟩
        exact ⟨_, hPath, Option.mem_toList.mpr (h.getSummary_of_mem hStored)⟩
    constructor
    · intro ht
      obtain ⟨hStored, hPath⟩ := hMem.mp (List.mem_cons_of_mem _ ht)
      rcases Relation.reflTransGen_iff_eq_or_transGen.mp hPath with hEq | hBelow
      · obtain rfl := List.inj_on_of_nodup_map h.unique hStored hr hEq.symm
        exact absurd ht (List.nodup_cons.mp hNodup).1
      · exact ⟨hStored, hBelow⟩
    · rintro ⟨hStored, hBelow⟩
      rcases List.mem_cons.mp (hMem.mpr ⟨hStored, hBelow.to_reflTransGen⟩) with rfl | ht
      · exact absurd hBelow (h.not_below_self hr)
      · exact ht

theorem Lossless.covered_spec (h : Lossless db ingested) {s : SummaryId} {fuel : Nat}
    {covered : List MessageRecord}
    (hCovered : db.gather (Reading.messages db).own fuel s = some covered) (m : MessageRecord) :
    m ∈ covered ↔ m ∈ db.messages ∧ db.Covers s m.messageId := by
  rw [Db.mem_gather hCovered]
  constructor
  · rintro ⟨t, hPath, hOwn⟩
    obtain ⟨id, hId, hFound⟩ := List.mem_filterMap.mp hOwn
    have hTest := List.find?_some hFound
    simp only [true_or, and_true, decide_eq_true_eq] at hTest
    exact ⟨List.mem_of_find?_eq_some hFound, t, hPath, hTest ▸ hId⟩
  · rintro ⟨hStored, t, hPath, hId⟩
    exact ⟨t, hPath, List.mem_filterMap.mpr ⟨m.messageId, hId, h.getMessageById_of_mem hStored⟩⟩

end Measured

/-- In every reachable state a leaf has depth 0, the sources of a condensed summary
lie one level down, no summary is below itself, and the columns of a summary are
those of the summaries below it and of the messages it covers, each counted once. -/
theorem metadata_describes_subtree (conversations : List ConversationRecord) (events : List Event)
    (hEvents : ∀ event ∈ events, event.Estimated) :
    let db := ((RunState.start conversations).run events).db
    ∀ r ∈ db.summaries,
      (r.kind = .leaf → r.depth = 0) ∧
      (r.kind = .condensed → ∃ d, r.depth = d + 1 ∧
        ∀ p ∈ db.getSummaryParents r.summaryId, p.depth = d) ∧
      ¬ db.Below r.summaryId r.summaryId ∧
      (∃ below : List SummaryRecord, below.Nodup ∧
        (∀ t, t ∈ below ↔ t ∈ db.summaries ∧ db.Below t.summaryId r.summaryId) ∧
        r.descendantCount = below.length ∧
        r.descendantTokenCount = (below.map (·.tokenCount)).sum) ∧
      ∃ covered : List MessageRecord, covered.Nodup ∧ covered ≠ [] ∧
        (∀ m, m ∈ covered ↔ m ∈ db.messages ∧ db.Covers r.summaryId m.messageId) ∧
        r.sourceMessageTokenCount = (covered.map (·.tokenCount)).sum ∧
        r.earliestAt = (covered.map (·.createdAt)).min? ∧
        r.latestAt = (covered.map (·.createdAt)).max? := by
  intro db r hr
  have hLossless : Lossless db _ := lossless_run (lossless_start conversations) events
  have h : Measured db :=
    measured_run (lossless_start conversations) (measured_start conversations) hEvents
  have hRecord := h.getSummary_of_mem hr
  obtain ⟨nodes, covered, hNodes, hCovered, hDescribes⟩ := h.described _ r hRecord
  obtain ⟨below, rfl, hBelow⟩ := h.nodes_spec hr hNodes hDescribes.nodesNodup
  have hCount := hDescribes.descendantCount
  have hTokens := hDescribes.descendantTokenCount
  rw [List.length_cons] at hCount
  rw [List.map_cons, List.sum_cons] at hTokens
  refine ⟨?_, ?_, h.not_below_self hr, ⟨below, (List.nodup_cons.mp hDescribes.nodesNodup).2, hBelow,
    by omega, by omega⟩, covered, hDescribes.coveredNodup, hDescribes.coveredNe,
    hLossless.covered_spec hCovered, hDescribes.sourceMessageTokenCount, hDescribes.earliestAt,
    hDescribes.latestAt⟩
  · intro hLeaf
    rcases h.layered _ r hRecord with ⟨-, hDepth, -⟩ | ⟨hCondensed, -⟩
    · exact hDepth
    · rw [hLeaf] at hCondensed
      cases hCondensed
  · intro hCondensed
    rcases h.layered _ r hRecord with ⟨hLeaf, -⟩ | ⟨-, hSources⟩
    · rw [hLeaf] at hCondensed
      cases hCondensed
    · exact hSources

theorem metadata_describes_subtree_threeMessages :
    let db := ((RunState.start [⟨1, "session", none, true, 0⟩]).run threeMessages).db
    (db.summaries.map fun r => (r.summaryId, r.sourceMessageTokenCount, r.earliestAt, r.latestAt)) =
      [("sum_1", 2, some 1, some 2)] ∧
    ∀ r ∈ db.summaries, ¬ db.Below r.summaryId r.summaryId :=
  ⟨by decide, fun r hr => (metadata_describes_subtree _ threeMessages (by decide) r hr).2.2.1⟩

end LosslessHermes.Compaction
