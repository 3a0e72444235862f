import LosslessHermes.Compaction.Drill

/-!
# The file ids of a summary

A leaf pass lists the file ids of its messages, a condensed pass those that its sources list and
those of their texts. `Listed` is the invariant, one level at a time. From it `mem_fileIds_iff`
gives the file ids of a summary by everything below it, by induction on the depth.
-/

namespace LosslessHermes.Compaction

open Relation (ReflTransGen)

theorem dedupeOrderedIds_spec (ids : List String) :
    (∀ id, id ∈ dedupeOrderedIds ids ↔ id ∈ ids) ∧ (dedupeOrderedIds ids).Nodup := by
  induction ids using List.reverseRecOn with
  | nil => exact ⟨fun _ => Iff.rfl, List.nodup_nil⟩
  | append_singleton ids value ih =>
    have hStep : dedupeOrderedIds (ids ++ [value]) = if value ∈ dedupeOrderedIds ids
        then dedupeOrderedIds ids else dedupeOrderedIds ids ++ [value] := by
      unfold dedupeOrderedIds
      rw [List.foldl_append]
      rfl
    rw [hStep]
    split
    · rename_i hSeen
      refine ⟨fun id => ?_, ih.2⟩
      rw [List.mem_append, List.mem_singleton, ih.1]
      exact ⟨Or.inl, fun h => h.elim (·) fun hValue => hValue ▸ (ih.1 value).mp hSeen⟩
    · rename_i hNew
      refine ⟨fun id => ?_, ih.2.append (List.nodup_singleton _) (List.disjoint_singleton.mpr hNew)⟩
      rw [List.mem_append, List.mem_append, ih.1]

section Listed

variable (sourceText : SourceText) (db : Db)

/-- The file ids that a leaf pass finds in a message. -/
def messageFileIds (m : MessageId) : List String :=
  match db.getMessageById m true with
  | some message => sourceText.extractFileIdsFromContent
      (sourceText.annotateMediaContent (db.getMessageParts m) message.content)
  | none => []

/-- The file ids one level below a summary. -/
def fileIdsBelow (s : SummaryId) : List String :=
  (db.getSummaryMessages s).flatMap (messageFileIds sourceText db) ++
    (db.getSummaryParents s).flatMap fun p =>
      p.fileIds ++ sourceText.extractFileIdsFromContent p.content

def Listed : Prop :=
  ∀ s record, db.getSummary s = some record →
    record.fileIds = dedupeOrderedIds (fileIdsBelow sourceText db s)

/-- A message, or the text of a source, of this very summary shows the file id. -/
def ShowsFileId (s : SummaryId) (id : String) : Prop :=
  (∃ m ∈ db.getSummaryMessages s, id ∈ messageFileIds sourceText db m) ∨
    ∃ p ∈ db.getSummaryParents s, id ∈ sourceText.extractFileIdsFromContent p.content

/-- The passes of the run read their sources alike. -/
def Event.Reads : Event → Prop
  | .append .. => True
  | .leafPass _ env _ => env.sourceText = sourceText
  | .condensedPass _ env _ => env.sourceText = sourceText

end Listed

variable {sourceText : SourceText} {db db' : Db} {ingested : ConversationId → List MessageId}

/-! ## One event -/

theorem messageFileIds_of_stored {m : MessageId} {message : MessageRecord}
    (h : db.getMessageById m true = some message) : messageFileIds sourceText db m =
      sourceText.extractFileIdsFromContent
        (sourceText.annotateMediaContent (db.getMessageParts m) message.content) := by
  unfold messageFileIds
  rw [h]

theorem Rooted.linked (h : Rooted db) {r : SummaryRecord}
    (hr : db.getSummary r.summaryId = some r) {m : MessageId}
    (hm : m ∈ db.getSummaryMessages r.summaryId) :
    ∃ message, db.getMessageById m true = some message := by
  cases h.rows _ _ hr with
  | leaf messages hRow =>
    rw [hRow.ids] at hm
    obtain ⟨message, hMessage, rfl⟩ := List.mem_map.mp hm
    exact ⟨message, hRow.stored message hMessage⟩
  | condensed sources level hRow =>
    rw [hRow.ids] at hm
    cases hm

/-- What is written behind a summary and its messages does not change what they show. -/
theorem Listed.kept (h : Listed sourceText db) (hRooted : Rooted db) (hOlder : Db.Extends db db')
    (hKept : ∀ m message, db.getMessageById m true = some message →
      messageFileIds sourceText db' m = messageFileIds sourceText db m)
    {s : SummaryId} {record : SummaryRecord} (hRecord : db.getSummary s = some record) :
    record.fileIds = dedupeOrderedIds (fileIdsBelow sourceText db' s) := by
  obtain rfl := (Db.mem_of_getSummary hRecord).2
  rw [h _ _ hRecord]
  unfold fileIdsBelow
  rw [hOlder.messages _ _ hRecord, hOlder.parents _ _ hRecord]
  refine congrArg (fun ids => dedupeOrderedIds (ids ++ _)) (List.flatMap_congr fun m hm => ?_)
  obtain ⟨message, hMessage⟩ := hRooted.linked hRecord hm
  exact (hKept m message hMessage).symm

theorem listed_replace {c : ConversationId} {record : SummaryRecord} {messageIds : List MessageId}
    {parentIds : List SummaryId} {before chunk after : List ContextItemRecord}
    (hLossless : Lossless db ingested) (hRooted : Rooted db) (h : Listed sourceText db)
    (hReplaced : ChunkReplaced db db' c record messageIds parentIds before chunk after)
    (hNew : messageFileIds sourceText db' = messageFileIds sourceText db →
      record.fileIds = dedupeOrderedIds (fileIdsBelow sourceText db' record.summaryId)) :
    Listed sourceText db' := by
  have hSame : messageFileIds sourceText db' = messageFileIds sourceText db := by
    rw [hReplaced.frame]
    rfl
  intro s found hFound
  rcases hReplaced.getSummary_cases hFound with hOld | ⟨rfl, rfl⟩
  · exact h.kept hRooted (hReplaced.older hLossless) (fun m _ _ => congrFun hSame m) hOld
  · exact hNew hSame

theorem listed_leafPass (hLossless : Lossless db ingested) (hRooted : Rooted db) {env : PassEnv}
    (h : Listed env.sourceText db) (c : ConversationId) (previousSummaryContent : Option String) :
    Listed env.sourceText (leafPass db env c previousSummaryContent).1 := by
  rcases leafPass_replaced hLossless env c previousSummaryContent with hSame |
    ⟨create, before, chunk, after, hRow, hReplaced, -⟩
  · rw [hSame]
    exact h
  refine listed_replace hLossless hRooted h hReplaced fun hSame => ?_
  have hMessages := hReplaced.getSummaryMessages_self hLossless
  have hParents := List.map_eq_nil_iff.mp (hReplaced.getSummaryParents_self hLossless)
  unfold fileIdsBelow
  rw [hMessages, hParents, hSame, List.flatMap_nil, List.append_nil, List.flatMap_map]
  refine hRow.fileIds.trans (congrArg dedupeOrderedIds ?_)
  rw [List.flatMap_map]
  exact List.flatMap_congr fun m hm => (messageFileIds_of_stored (leafMessages_found hm)).symm

theorem listed_runCondensedPass (hLossless : Lossless db ingested) (hRooted : Rooted db)
    {env : PassEnv} (h : Listed env.sourceText db) (c : ConversationId) (hardTrigger : Bool) :
    Listed env.sourceText (runCondensedPass db env c hardTrigger).1 := by
  rcases runCondensedPass_replaced hLossless env c hardTrigger with hSame |
    ⟨targetDepth, create, before, chunk, after, hRow, hReplaced, -, hDepths, -⟩
  · rw [hSame]
    exact h
  refine listed_replace hLossless hRooted h hReplaced fun _ => ?_
  have hMessages := hReplaced.getSummaryMessages_self hLossless
  have hParents : (runCondensedPass db env c hardTrigger).1.getSummaryParents create.summaryId =
      condensedRecords db chunk :=
    eq_of_map_summaryId (hReplaced.getSummaryParents_self hLossless)
      (fun r hr => getSummary_of_mem_parents hr) fun r hr =>
        (hReplaced.older hLossless).summary _ _ ((condensedRecords_spec hDepths).2 r hr).1
  unfold fileIdsBelow
  rw [hMessages]
  exact hRow.fileIds.trans (congrArg _ (congrArg _ hParents.symm))

/-- The parts of a new message are no other message's. -/
theorem step_append_parts {s : RunState} (h : Lossless s.db s.ingested) (c : ConversationId)
    (now : Timestamp) (role : MessageRole) (content : String) (tokenCount : Nat)
    (parts : List CreateMessagePartInput) {m : MessageId} (hm : m ≤ s.db.messageSequence) :
    (s.step (.append c now role content tokenCount parts)).db.getMessageParts m =
      s.db.getMessageParts m := by
  obtain ⟨db, ingested⟩ := s
  cases hConversation : db.getConversation c with
  | none =>
    have hRolledBack :
        (withTransaction db fun db => persist db now c role content tokenCount parts) =
          (db, .error (.foreignKey "messages")) := by
      apply withTransaction_error
      simp only [persist, Db.createMessage, hConversation]
      rfl
    simp only [RunState.step, hRolledBack]
  | some record =>
    obtain ⟨db', hOk, hFrame, -⟩ := persist_spec h.messages (by rw [hConversation]; rfl)
      (h.contiguous c) now role content tokenCount parts
    have hCommitted :
        (withTransaction db fun db => persist db now c role content tokenCount parts) =
          (db', .ok true) := withTransaction_ok hOk
    simp only [RunState.step, hCommitted]
    unfold Db.getMessageParts
    rw [hFrame]
    refine Table.select_append_of_not fun p hp => ?_
    obtain ⟨q, -, rfl⟩ := List.mem_map.mp hp
    exact decide_eq_false (Nat.ne_of_gt (Nat.lt_succ_of_le hm))

theorem listed_step {s : RunState} (hLossless : Lossless s.db s.ingested) (hRooted : Rooted s.db)
    (h : Listed sourceText s.db) {event : Event} (hEvent : event.Reads sourceText) :
    Listed sourceText (s.step event).db := by
  cases event with
  | append c now role content tokenCount parts =>
    have hParts := @step_append_parts s hLossless c now role content tokenCount parts
    rcases step_append hLossless c now role content tokenCount parts with hSame |
      ⟨db', hPersisted, hStep⟩
    · rw [hSame]
      exact h
    · rw [hStep] at hParts ⊢
      intro r record hRecord
      rw [hPersisted.getSummary] at hRecord
      refine h.kept hRooted hPersisted.older (fun m message hMessage => ?_) hRecord
      have hId := List.find?_some hMessage
      simp only [true_or, and_true, decide_eq_true_eq] at hId
      rw [messageFileIds_of_stored hMessage,
        messageFileIds_of_stored (hPersisted.getMessageById hMessage), hParts]
      exact hId ▸ hLossless.messages.idBound message (List.mem_of_find?_eq_some hMessage)
  | leafPass c env previousSummaryContent =>
    cases hEvent
    exact listed_leafPass hLossless hRooted h c previousSummaryContent
  | condensedPass c env hardTrigger =>
    cases hEvent
    exact listed_runCondensedPass hLossless hRooted h c hardTrigger

/-! ## Everything below a summary -/

theorem Rooted.depth_lt (h : Rooted db) {r p : SummaryRecord}
    (hr : db.getSummary r.summaryId = some r) (hp : p ∈ db.getSummaryParents r.summaryId) :
    p.depth < r.depth := by
  cases h.rows _ _ hr with
  | leaf messages hRow =>
    rw [hRow.parents] at hp
    cases hp
  | condensed sources level hRow =>
    rw [hRow.parents] at hp
    rw [hRow.level p hp, hRow.depth]
    exact Nat.lt_succ_self _

theorem mem_fileIds_iff (hRooted : Rooted db) (h : Listed sourceText db) {r : SummaryRecord}
    (hr : db.getSummary r.summaryId = some r) {id : String} :
    id ∈ r.fileIds ↔ ∃ t, ReflTransGen db.IsSource t r.summaryId ∧
      ShowsFileId sourceText db t id := by
  induction hDepth : r.depth using Nat.strongRecOn generalizing r with
  | ind depth ih =>
    have hParent : ∀ p ∈ db.getSummaryParents r.summaryId, (id ∈ p.fileIds ↔
        ∃ t, ReflTransGen db.IsSource t p.summaryId ∧ ShowsFileId sourceText db t id) :=
      fun p hp => ih _ (hDepth ▸ hRooted.depth_lt hr hp) (getSummary_of_mem_parents hp) rfl
    rw [h _ _ hr, (dedupeOrderedIds_spec _).1]
    simp only [fileIdsBelow, List.mem_append, List.mem_flatMap]
    constructor
    · rintro (hMessage | ⟨p, hp, hListed | hText⟩)
      · exact ⟨_, .refl, Or.inl hMessage⟩
      · obtain ⟨t, hPath, hShown⟩ := (hParent p hp).mp hListed
        exact ⟨t, hPath.tail (List.mem_map_of_mem hp), hShown⟩
      · exact ⟨_, .refl, Or.inr ⟨p, hp, hText⟩⟩
    · rintro ⟨t, hPath, hShown⟩
      rcases ReflTransGen.cases_tail hPath with rfl | ⟨u, hPath, hSource⟩
      · exact hShown.imp_right fun ⟨p, hp, hText⟩ => ⟨p, hp, Or.inr hText⟩
      · obtain ⟨p, hp, rfl⟩ := List.mem_map.mp hSource
        exact Or.inr ⟨p, hp, Or.inl ((hParent p hp).mpr ⟨t, hPath, hShown⟩)⟩

/-- In every reachable state a summary lists, each of them once, exactly the file ids that are
shown by the messages and the source texts of the summaries below it and its own. -/
theorem fileIds_describe_subtree (sourceText : SourceText) (conversations : List ConversationRecord)
    (events : List Event) (hEvents : ∀ event ∈ events, event.Reads sourceText) :
    let db := ((RunState.start conversations).run events).db
    ∀ r ∈ db.summaries, r.fileIds.Nodup ∧ ∀ id, id ∈ r.fileIds ↔
      ∃ t, ReflTransGen db.IsSource t r.summaryId ∧ ShowsFileId sourceText db t id := by
  intro db r hr
  obtain ⟨-, hRooted, hListed⟩ := @Run.final_invariant _ _ RunState.step
    (fun s => Lossless s.db s.ingested ∧ Rooted s.db ∧ Listed sourceText s.db) _ events
    (fun _ event hMem h => ⟨lossless_step h.1 event, rooted_step h.1 h.2.1 event,
      listed_step h.1 h.2.1 h.2.2 (hEvents event hMem)⟩)
    ⟨lossless_start conversations, rooted_start conversations, fun _ _ hRecord => nomatch hRecord⟩
  have hRow := hRooted.getSummary_of_mem hr
  exact ⟨hListed _ _ hRow ▸ (dedupeOrderedIds_spec _).2,
    fun id => mem_fileIds_iff hRooted hListed hRow⟩

/-- Every content is a file id. -/
def verbatim : SourceText := ⟨fun _ content => content, id, fun _ _ => "", fun content => [content]⟩

/-- The file id of the message is listed by the leaf, and through it by the upper summary. -/
theorem fileIds_describe_subtree_verbatim :
    let db := ((RunState.start [⟨1, "session", none, true, 0⟩]).run
      [.append 1 1 .user "a" 1 [],
        .leafPass 1 { passEnv "lower" "a message" with sourceText := verbatim } none,
        .condensedPass 1 { passEnv "upper" "a summary" with sourceText := verbatim } false]).db
    ∃ r ∈ db.summaries, r.fileIds = ["a", "a message"] ∧
      ∃ t, ReflTransGen db.IsSource t r.summaryId ∧ ShowsFileId verbatim db t "a" := by
  intro db
  have hUpper : ∃ r ∈ db.summaries, r.fileIds = ["a", "a message"] := by decide +kernel
  obtain ⟨r, hr, hIds⟩ := hUpper
  obtain ⟨-, hShown⟩ := fileIds_describe_subtree verbatim _ _ (by simp [Event.Reads]) r hr
  exact ⟨r, hr, hIds, (hShown "a").mp (hIds ▸ List.mem_cons_self)⟩

end LosslessHermes.Compaction
