import LosslessHermes.Compaction.FreshTail
import LosslessHermes.Store.Transcript

/-!
# What a pass does to the store

A pass that stores no summary leaves the database as it was. One that does has
replaced a chunk of the context in front of the fresh tail by that summary:
`leafPass_effect` and `runCondensedPass_effect` say which chunk, and what the
reported token counts are.
-/

namespace LosslessHermes.Compaction

/-! ## The transaction of a pass -/

/-- The constraints of the tables, for one conversation: ordinals are a key, and
every context item refers to a row. -/
structure ContextState (db : Db) (c : ConversationId) : Prop where
  bounds : WithinBounds (db.getContextItems c)
  refs : ∀ i ∈ db.getContextItems c, db.hasRef i.ref = true

/-- `db'` is `db` with `record` added and `chunk` replaced by it. -/
structure Replaced (db db' : Db) (c : ConversationId) (record : SummaryRecord)
    (before chunk after : List ContextItemRecord) : Prop where
  items : db.getContextItems c = before ++ chunk ++ after
  chunk_ne : chunk ≠ []
  refs : (db'.getContextItems c).map (·.ref) =
    before.map (·.ref) ++ [.summary record.summaryId] ++ after.map (·.ref)
  contiguous : Contiguous (db'.getContextItems c)
  fresh : record.summaryId ∉ db.summaries.map (·.summaryId)
  visible : record.suppressedAt = none
  summaries : db'.summaries = db.summaries ++ [record]
  messages : db'.messages = db.messages
  conversations : db'.conversations = db.conversations

/-- A statement that only writes links. -/
def OnlyLinks (link : Db → Except SqlError Db) : Prop :=
  ∀ db db', link db = .ok db' →
    db' = { db with summaryMessages := db'.summaryMessages, summaryParents := db'.summaryParents }

theorem onlyLinks_linkSummaryToMessages (s : SummaryId) (ids : List MessageId) :
    OnlyLinks fun db => db.linkSummaryToMessages s ids := by
  intro db db' h
  dsimp only [Db.linkSummaryToMessages] at h
  split at h
  · cases h
  · cases h
    rfl

/-- Messages that were read can be linked. -/
theorem linkSummaryToMessages_leafMessages (db : Db) (summaries : List SummaryRecord)
    (s : SummaryId) (items : List ContextItemRecord) :
    ∃ linked, Db.linkSummaryToMessages { db with summaries := summaries } s
      ((leafMessages db items).map (·.messageId)) = .ok linked := by
  refine ⟨_, if_neg ?_⟩
  rw [Bool.not_eq_true, List.any_eq_false]
  intro m hm
  obtain ⟨found, hFound, rfl⟩ := List.mem_map.mp hm
  obtain ⟨item, -, hItem⟩ := List.mem_filterMap.mp hFound
  cases hRef : item.ref with
  | summary s => simp [hRef] at hItem
  | message m =>
    simp only [hRef] at hItem
    have hId := List.find?_some hItem
    simp only [true_or, and_true, decide_eq_true_eq] at hId
    have hSame : Db.getMessageById { db with summaries := summaries } found.messageId true =
        some found := by
      rw [hId]
      exact hItem
    simp [hSame]

theorem onlyLinks_linkSummaryToParents (s : SummaryId) (ids : List SummaryId) :
    OnlyLinks fun db => db.linkSummaryToParents s ids := by
  intro db db' h
  dsimp only [Db.linkSummaryToParents] at h
  split at h
  · cases h
  · cases h
    rfl

theorem linkSummaryToParents_condensedRecords (db : Db) (record : SummaryRecord) (s : SummaryId)
    (items : List ContextItemRecord) :
    ∃ linked, Db.linkSummaryToParents { db with summaries := db.summaries ++ [record] } s
      ((condensedRecords db items).map (·.summaryId)) = .ok linked := by
  refine ⟨_, if_neg ?_⟩
  rw [Bool.not_eq_true, List.any_eq_false]
  intro p hp
  obtain ⟨found, hFound, rfl⟩ := List.mem_map.mp hp
  obtain ⟨item, -, hItem⟩ := List.mem_filterMap.mp hFound
  cases hRef : item.ref with
  | message m => simp [hRef] at hItem
  | summary s =>
    simp only [hRef] at hItem
    have hMem := List.mem_of_find?_eq_some hItem
    have hSome : (Db.getSummary { db with summaries := db.summaries ++ [record] }
        found.summaryId true).isSome := by
      rw [Db.getSummary, List.find?_isSome]
      exact ⟨found, List.mem_append_left _ hMem, by simp⟩
    simp [Option.isSome_iff_ne_none.mp hSome]

variable {db db' : Db} {now : Timestamp} {create : CreateSummaryInput}
  {link : Db → Except SqlError Db} {startOrdinal endOrdinal : Int}

/-- A successful persist of a pass is the addition of the summary followed by
the swap of its range. -/
theorem persistPass_eq_ok (h : persistPass db now create link startOrdinal endOrdinal = .ok db') :
    (db.getConversation create.conversationId).isSome ∧
      create.summaryId ∉ db.summaries.map (·.summaryId) ∧
      ∃ linked, link { db with summaries := db.summaries ++ [Db.createdSummary now create] } =
          .ok linked ∧
        linked.replaceContextRangeWithSummary
          ⟨create.conversationId, startOrdinal, endOrdinal, create.summaryId⟩ = .ok db' := by
  unfold persistPass at h
  split at h
  · cases h
  · rename_i inserted hInsert
    obtain ⟨hConversation, hFresh, rfl⟩ := Db.insertSummary_eq_ok hInsert
    split at h
    · cases h
    · rename_i linked hLink
      exact ⟨hConversation, hFresh, linked, hLink, h⟩

section Pass

variable {before chunk after : List ContextItemRecord} (hLink : OnlyLinks link)
  (hOrdered : Ordered (db.getContextItems create.conversationId))
  (hItems : db.getContextItems create.conversationId = before ++ chunk ++ after)
  (hStart : (chunk.map (·.ordinal)).min? = some startOrdinal)
  (hEnd : (chunk.map (·.ordinal)).max? = some endOrdinal)

include hLink hOrdered hItems hStart hEnd

/-- A persist with a new id, sources that can be linked and a range of the context succeeds. -/
theorem persistPass_ne_error {e : SqlError}
    (h : persistPass db now create link startOrdinal endOrdinal = .error e)
    (hConversation : (db.getConversation create.conversationId).isSome)
    (hFresh : create.summaryId ∉ db.summaries.map (·.summaryId)) (hLinked : ∃ linked, link { db with
      summaries := db.summaries ++ [Db.createdSummary now create] } = .ok linked) : False := by
  obtain ⟨linked, hLinked⟩ := hLinked
  have hFrame := hLink _ _ hLinked
  have hInsert : db.insertSummary now create = .ok
      { db with summaries := db.summaries ++ [Db.createdSummary now create] } := by
    have hRow : Table.insertRow (·.summaryId) (Db.createdSummary now create) db.summaries =
        some (db.summaries ++ [Db.createdSummary now create]) :=
      Table.insertRow_eq_some.mpr ⟨hFresh, rfl⟩
    unfold Db.insertSummary
    dsimp only
    rw [if_neg (by simp [Option.isSome_iff_ne_none.mp hConversation]), hRow]
  have hContext : linked.getContextItems create.conversationId =
      db.getContextItems create.conversationId := by
    rw [hFrame]
    rfl
  have hFound : (linked.getSummary create.summaryId true).isSome := by
    rw [Db.getSummary, List.find?_isSome, hFrame]
    exact ⟨Db.createdSummary now create, by simp, by simp [Db.createdSummary]⟩
  obtain ⟨db', hOk, -⟩ := Db.replaceContextRangeWithSummary_spec
    (hContext.trans hItems) (hContext ▸ hOrdered) (by rw [hFrame]; exact hConversation) hFound
    hStart hEnd
  unfold persistPass at h
  rw [hInsert] at h
  dsimp only at h
  rw [hLinked] at h
  cases hOk.symm.trans h

/-- A pass adds a summary with its links and puts it in the place of the chunk. -/
theorem persistPass_spec
    (hPersist : persistPass db now create link startOrdinal endOrdinal = .ok db') :
    create.summaryId ∉ db.summaries.map (·.summaryId) ∧
      db' = { db with
        summaries := db.summaries ++ [Db.createdSummary now create]
        summaryMessages := db'.summaryMessages
        summaryParents := db'.summaryParents
        contextItems := db'.contextItems } ∧
      db'.getContextItems create.conversationId = renumber (before ++
        [⟨create.conversationId, startOrdinal, .summary create.summaryId⟩] ++ after) ∧
      ∀ c', c' ≠ create.conversationId → db'.getContextItems c' = db.getContextItems c' := by
  obtain ⟨hConversation, hFresh, linked, hLinked, hReplace⟩ := persistPass_eq_ok hPersist
  have hFrame := hLink _ _ hLinked
  have hSummaries : linked.summaries = db.summaries ++ [Db.createdSummary now create] := by
    rw [hFrame]
  have hContext : ∀ c, linked.getContextItems c = db.getContextItems c := by
    intro c
    rw [hFrame]
    rfl
  have hFound : (linked.getSummary create.summaryId true).isSome := by
    rw [Db.getSummary, List.find?_isSome, hSummaries]
    exact ⟨Db.createdSummary now create, by simp, by simp [Db.createdSummary]⟩
  obtain ⟨db₁, hOk, hFrame₁, hItems', hOther⟩ := Db.replaceContextRangeWithSummary_spec
    ((hContext _).trans hItems) (hContext _ ▸ hOrdered)
    (by rw [hFrame]; exact hConversation) hFound hStart hEnd
  obtain rfl : db₁ = db' := by
    rw [hReplace] at hOk
    exact (Except.ok.inj hOk).symm
  refine ⟨hFresh, ?_, hItems', fun c' hc' => (hOther c' hc').trans (hContext c')⟩
  conv_lhs => rw [hFrame₁, hFrame]
  rw [hFrame₁]

theorem replaced_persistPass
    (hPersist : persistPass db now create link startOrdinal endOrdinal = .ok db') :
    Replaced db db' create.conversationId (Db.createdSummary now create) before chunk after := by
  obtain ⟨hFresh, hFrame, hItems', -⟩ :=
    persistPass_spec hLink hOrdered hItems hStart hEnd hPersist
  refine ⟨hItems, ?_, ?_, ?_, hFresh, rfl, ?_, ?_, ?_⟩
  · rintro rfl
    cases hStart
  · rw [hItems', renumber_map_ref]
    simp [Db.createdSummary]
  · rw [hItems']
    exact contiguous_renumber _
  · rw [hFrame]
  · rw [hFrame]
  · rw [hFrame]

end Pass

variable {before chunk after : List ContextItemRecord}

/-- A pass writes to no transcript. -/
theorem transcriptsKept_persistPass (h : db.WellFormed) (hLink : OnlyLinks link)
    (hItems : db.getContextItems create.conversationId = before ++ chunk ++ after)
    (hStart : (chunk.map (·.ordinal)).min? = some startOrdinal)
    (hEnd : (chunk.map (·.ordinal)).max? = some endOrdinal)
    (hPersist : persistPass db now create link startOrdinal endOrdinal = .ok db') :
    Db.TranscriptsKept db db' := by
  obtain ⟨-, hFrame, hItems', hOther⟩ :=
    persistPass_spec hLink (h.contiguous _).ordered hItems hStart hEnd hPersist
  have hContiguous : ∀ c, Contiguous (db'.getContextItems c) := by
    intro c
    by_cases hc : c = create.conversationId
    · subst hc
      rw [hItems']
      exact contiguous_renumber _
    · rw [hOther c hc]
      exact h.contiguous c
  refine ⟨⟨?_, hContiguous, ?_, ?_, ?_, ?_⟩, ?_, ?_, ?_, ?_⟩
  · rw [hFrame]
    exact ⟨h.messages.idBound, h.messages.idNodup, h.messages.seqNodup⟩
  · rw [hFrame]
    exact h.conversationBound
  · rw [hFrame]
    exact h.conversationNodup
  · rw [hFrame]
    exact h.messageBound
  · rw [hFrame]
    exact h.partBound
  all_goals rw [hFrame]

theorem leafPass_transcripts (h : db.WellFormed) (env : PassEnv) (c : ConversationId)
    (previousSummaryContent : Option String) :
    Db.TranscriptsKept db (leafPass db env c previousSummaryContent).1 := by
  rcases leafPass_cases db env c previousSummaryContent with hSame |
    ⟨create, startOrdinal, endOrdinal, rfl, -, hStart, hEnd, hPersist⟩
  · rw [hSame]
    exact .refl h
  · obtain ⟨before, after, hItems, -⟩ :=
      selectOldestLeafChunk_spec db env.config create.conversationId
    exact transcriptsKept_persistPass h (onlyLinks_linkSummaryToMessages _ _) hItems hStart hEnd
      hPersist

theorem runCondensedPass_transcripts (h : db.WellFormed) (env : PassEnv)
    (c : ConversationId) (hardTrigger : Bool) :
    Db.TranscriptsKept db (runCondensedPass db env c hardTrigger).1 := by
  rcases runCondensedPass_cases db env c hardTrigger with hSame |
    ⟨candidate, create, startOrdinal, endOrdinal, hCandidate, rfl, -, hStart, hEnd, hPersist⟩
  · rw [hSame]
    exact .refl h
  · obtain ⟨-, ⟨before, after, hItems⟩, -⟩ :=
      selectShallowestCondensationCandidate_spec hCandidate
    exact transcriptsKept_persistPass h (onlyLinks_linkSummaryToParents _ _) hItems hStart hEnd
      hPersist

/-! ## What a replacement keeps -/

section Replaced

variable {db db' : Db} {c : ConversationId} {record : SummaryRecord}
  {before chunk after : List ContextItemRecord}

theorem Replaced.getMessageById (h : Replaced db db' c record before chunk after)
    (m : MessageId) (includeSuppressed : Bool) :
    db'.getMessageById m includeSuppressed = db.getMessageById m includeSuppressed := by
  unfold Db.getMessageById
  rw [h.messages]

theorem Replaced.getSummary_old (h : Replaced db db' c record before chunk after) {s : SummaryId}
    {found : SummaryRecord} {includeSuppressed : Bool}
    (hFound : db.getSummary s includeSuppressed = some found) :
    db'.getSummary s includeSuppressed = some found := by
  unfold Db.getSummary at hFound ⊢
  rw [h.summaries, List.find?_append, hFound]
  rfl

theorem Replaced.getSummary_new (h : Replaced db db' c record before chunk after)
    (includeSuppressed : Bool) :
    db'.getSummary record.summaryId includeSuppressed = some record := by
  have hNone : db.summaries.find? (fun s => s.summaryId = record.summaryId ∧
      (includeSuppressed ∨ s.suppressedAt = none)) = none := by
    rw [List.find?_eq_none]
    intro s hs hMatch
    simp only [decide_eq_true_eq] at hMatch
    exact h.fresh (hMatch.1 ▸ List.mem_map_of_mem hs)
  unfold Db.getSummary
  rw [h.summaries, List.find?_append, hNone]
  simp [h.visible]

theorem Replaced.getSummary_of_hasRef (h : Replaced db db' c record before chunk after)
    {s : SummaryId} (hRef : db.hasRef (.summary s) = true) (includeSuppressed : Bool) :
    db'.getSummary s includeSuppressed = db.getSummary s includeSuppressed := by
  obtain ⟨found, hFound⟩ := Option.isSome_iff_exists.mp hRef
  have hMatch := List.find?_some hFound
  simp only [true_or, and_true, decide_eq_true_eq] at hMatch
  have hOther : record.summaryId ≠ s := by
    rintro rfl
    exact h.fresh (hMatch ▸ List.mem_map_of_mem (List.mem_of_find?_eq_some hFound))
  unfold Db.getSummary
  rw [h.summaries, List.find?_append, List.find?_cons_of_neg (by simp [hOther])]
  simp

theorem Replaced.hasRef (h : Replaced db db' c record before chunk after) {ref : ContextItemRef}
    (hRef : db.hasRef ref = true) : db'.hasRef ref = true := by
  cases ref with
  | message m =>
    rw [Db.hasRef, h.getMessageById]
    exact hRef
  | summary s =>
    obtain ⟨found, hFound⟩ := Option.isSome_iff_exists.mp hRef
    rw [Db.hasRef, h.getSummary_old hFound]
    rfl

theorem ContextState.replaced (hState : ContextState db c)
    (h : Replaced db db' c record before chunk after) : ContextState db' c := by
  have hOld : ((db.getContextItems c).length : Int) ≤ emptyFreshTailOrdinal := by
    rcases Nat.eq_zero_or_pos (db.getContextItems c).length with hZero | hPos
    · rw [hZero]
      decide
    · have hLast : (db.getContextItems c).length - 1 < (db.getContextItems c).length := by omega
      have hIndex := hState.bounds.toOrdered.index_le hLast
      have hBound := hState.bounds.bound _ (List.getElem_mem hLast)
      omega
  have hLength : (db'.getContextItems c).length ≤ (db.getContextItems c).length := by
    have hRefs := congrArg List.length h.refs
    have hChunk := List.length_pos_of_ne_nil h.chunk_ne
    rw [h.items]
    simp only [List.length_map, List.length_append, List.length_singleton] at hRefs ⊢
    omega
  refine ⟨⟨h.contiguous.ordered, fun i hi => ?_⟩, fun i hi => ?_⟩
  · obtain ⟨n, hn, rfl⟩ := List.mem_iff_getElem.mp hi
    rw [h.contiguous.getElem hn]
    omega
  · have hMem : i.ref ∈ (db'.getContextItems c).map (·.ref) := List.mem_map_of_mem hi
    rw [h.refs] at hMem
    have hKept : ∀ i ∈ before ++ after, db'.hasRef i.ref = true := by
      intro i hi
      refine h.hasRef (hState.refs i ?_)
      rw [h.items]
      rcases List.mem_append.mp hi with hi | hi
      · exact List.mem_append_left _ (List.mem_append_left _ hi)
      · exact List.mem_append_right _ hi
    rcases List.mem_append.mp hMem with hMem | hMem
    · rcases List.mem_append.mp hMem with hMem | hMem
      · obtain ⟨i', hi', hEq⟩ := List.mem_map.mp hMem
        exact hEq ▸ hKept i' (List.mem_append_left _ hi')
      · rw [List.mem_singleton.mp hMem, Db.hasRef, h.getSummary_new]
        rfl
    · obtain ⟨i', hi', hEq⟩ := List.mem_map.mp hMem
      exact hEq ▸ hKept i' (List.mem_append_right _ hi')

/-- A total over the context changes by what the chunk and the summary weigh. -/
theorem Replaced.sum_refs (h : Replaced db db' c record before chunk after)
    {weight weight' : ContextItemRef → Nat}
    (hSame : ∀ i ∈ db.getContextItems c, weight' i.ref = weight i.ref) :
    ((db'.getContextItems c).map fun i => weight' i.ref).sum +
        (chunk.map fun i => weight i.ref).sum =
      ((db.getContextItems c).map fun i => weight i.ref).sum +
        weight' (.summary record.summaryId) := by
  have hRefs := congrArg (fun refs => (refs.map weight').sum) h.refs
  simp only [List.map_append, List.map_map, List.sum_append, List.map_cons, List.map_nil,
    List.sum_cons, List.sum_nil] at hRefs
  have hKept : ∀ items : List ContextItemRecord, (∀ i ∈ items, i ∈ db.getContextItems c) →
      items.map (weight' ∘ fun i => i.ref) = items.map fun i => weight i.ref :=
    fun items hItems => List.map_congr_left fun i hi => hSame i (hItems i hi)
  rw [hKept before fun i hi => by rw [h.items]; simp [hi],
    hKept after fun i hi => by rw [h.items]; simp [hi]] at hRefs
  have hNew : ((db'.getContextItems c).map fun i => weight' i.ref).sum = _ := hRefs
  rw [hNew, h.items]
  simp only [List.map_append, List.sum_append]
  omega

/-- What stands behind a chunk in front of the boundary ends with the fresh tail. -/
theorem freshTail_after {config : CompactionConfig} {items : List ContextItemRecord}
    (hBounds : WithinBounds items) (hItems : items = before ++ chunk ++ after) (hChunk : chunk ≠ [])
    (hBelow : ∀ i ∈ chunk, i.ordinal < resolveFreshTailOrdinal db config items) :
    ∃ between : List ContextItemRef,
      after.map (·.ref) = between ++ freshTail db config (items.map (·.ref)) := by
  have hFilter := @filter_freshTail db config items hBounds
  generalize resolveFreshTailOrdinal db config items = boundary at hFilter hBelow
  subst hItems
  have hSorted := hBounds.sorted
  obtain ⟨hLeft, hAfter, -⟩ := List.pairwise_append.mp hSorted
  obtain ⟨-, -, hBefore⟩ := List.pairwise_append.mp hLeft
  obtain ⟨first, hFirst⟩ := List.exists_mem_of_ne_nil _ hChunk
  have hFront : (before ++ chunk).filter (fun i => boundary ≤ i.ordinal) = [] := by
    rw [List.filter_eq_nil_iff]
    intro i hi
    have hLt : i.ordinal < boundary := by
      rcases List.mem_append.mp hi with hi | hi
      · exact (hBefore i hi first hFirst).trans (hBelow first hFirst)
      · exact hBelow i hi
    simp only [decide_eq_true_eq]
    omega
  rw [List.filter_append, hFront, List.nil_append] at hFilter
  rw [← hFilter]
  clear hFilter hFront hLeft hSorted hBounds
  induction after with
  | nil => exact ⟨[], rfl⟩
  | cons item after ih =>
    by_cases hItem : boundary ≤ item.ordinal
    · refine ⟨[], ?_⟩
      rw [List.nil_append, List.filter_eq_self.mpr]
      intro i hi
      rcases List.mem_cons.mp hi with rfl | hi
      · simpa using hItem
      · have hLt := List.rel_of_pairwise_cons hAfter hi
        simp only [decide_eq_true_eq]
        omega
    · obtain ⟨between, hBetween⟩ := ih (List.pairwise_cons.mp hAfter).2
      refine ⟨item.ref :: between, ?_⟩
      rw [List.filter_cons_of_neg (by simpa using hItem), List.map_cons, hBetween,
        List.cons_append]

/-- The fresh tail behind a replaced chunk. -/
theorem Replaced.freshTail {config : CompactionConfig}
    (h : Replaced db db' c record before chunk after) (hState : ContextState db c)
    (hBelow : ∀ i ∈ chunk, i.ordinal < resolveFreshTailOrdinal db config (db.getContextItems c))
    (hRaw : rawIds (before.map (·.ref)) = [] ∨ rawIds (chunk.map (·.ref)) = []) :
    freshTail db' config ((db'.getContextItems c).map (·.ref)) =
      freshTail db config ((db.getContextItems c).map (·.ref)) := by
  obtain ⟨between, hAfter⟩ := freshTail_after hState.bounds h.items h.chunk_ne hBelow
  have hRefs : (db.getContextItems c).map (·.ref) = before.map (·.ref) ++ chunk.map (·.ref) ++
      between ++ Compaction.freshTail db config ((db.getContextItems c).map (·.ref)) := by
    conv_lhs => rw [h.items, List.map_append, List.map_append, hAfter]
    simp
  have hCost : ∀ m, getMessageTokenCount db' m = getMessageTokenCount db m := fun m => by
    rw [getMessageTokenCount, getMessageTokenCount, h.getMessageById]
  have hSame := freshTail_replace hCost hRefs hRaw record.summaryId
  rw [h.refs, hAfter]
  simpa using hSame

end Replaced

/-! ## The two passes -/

/-- What a pass leaves: the database as it was and no summary, or the effect of the
summary that it reports. -/
def PassOutcome (db : Db) (Effect : Db → LeafPassResult → Prop)
    (outcome : Db × Except SqlError LeafPassOutcome) : Prop :=
  (outcome.1 = db ∧ ∀ result auth, outcome.2 ≠ .ok ⟨some result, auth⟩) ∨
    ∃ result, outcome.2 = .ok ⟨some result, false⟩ ∧ Effect outcome.1 result

theorem PassOutcome.unchanged {Effect : Db → LeafPassResult → Prop}
    {answer : Except SqlError LeafPassOutcome}
    (h : ∀ result auth, answer ≠ .ok ⟨some result, auth⟩) :
    PassOutcome db Effect (db, answer) :=
  Or.inl ⟨rfl, h⟩

/-- A leaf pass that stored a summary. -/
structure LeafEffect (db : Db) (env : PassEnv) (c : ConversationId) (db' : Db)
    (result : LeafPassResult) : Prop where
  effect : ∃ before after record,
    Replaced db db' c record before (selectOldestLeafChunk db env.config c).items after ∧
      (∀ i ∈ before, ∃ s, i.ref = .summary s) ∧ record.summaryId = result.summaryId ∧
      record.tokenCount = result.addedTokens
  removed : result.removedTokens =
    ((leafMessages db (selectOldestLeafChunk db env.config c).items).map
      resolveMessageTokenCount).sum
  added : result.addedTokens = estimateTokens result.content
  generated : result.summaryId = env.generateSummaryId result.content

theorem leafPass_effect {db : Db} {env : PassEnv} {c : ConversationId}
    (hOrdered : Ordered (db.getContextItems c)) (previousSummaryContent : Option String) :
    PassOutcome db (LeafEffect db env c) (leafPass db env c previousSummaryContent) := by
  obtain ⟨before, after, hItems, hBefore, -⟩ := selectOldestLeafChunk_spec db env.config c
  unfold leafPass
  dsimp only
  split
  · rename_i startOrdinal endOrdinal hStart hEnd
    split
    · exact .unchanged fun _ _ h => by cases h
    · exact .unchanged fun _ _ h => by cases h
    · refine withTransaction_map_elim (P := PassOutcome db (LeafEffect db env c))
        (fun _ _ => .unchanged fun _ _ h => by cases h) fun db' hPersist => Or.inr ⟨_, rfl, ?_⟩
      have hReplaced := replaced_persistPass (onlyLinks_linkSummaryToMessages _ _) hOrdered hItems
        hStart hEnd hPersist
      exact ⟨⟨before, after, _, hReplaced, hBefore, rfl, rfl⟩, rfl, rfl, rfl⟩
  · exact .unchanged fun _ _ h => by cases h

/-- A condensed pass that stored a summary. -/
structure CondensedEffect (db : Db) (env : PassEnv) (c : ConversationId) (hardTrigger : Bool)
    (db' : Db) (result : LeafPassResult) : Prop where
  effect : ∃ candidate before after record,
    selectShallowestCondensationCandidate db env.config c hardTrigger = some candidate ∧
      Replaced db db' c record before candidate.chunk.items after ∧
      record.summaryId = result.summaryId ∧ record.tokenCount = result.addedTokens ∧
      result.removedTokens =
        ((condensedRecords db candidate.chunk.items).map (·.tokenCount)).sum
  added : result.addedTokens = estimateTokens result.content
  generated : result.summaryId = env.generateSummaryId result.content

variable {env : PassEnv} {c : ConversationId}

theorem runCondensedPass_effect (hOrdered : Ordered (db.getContextItems c)) (hardTrigger : Bool) :
    PassOutcome db (CondensedEffect db env c hardTrigger)
      (runCondensedPass db env c hardTrigger) := by
  unfold runCondensedPass
  split
  · exact .unchanged fun _ _ h => by cases h
  · rename_i candidate hCandidate
    obtain ⟨-, ⟨before, after, hItems⟩, -⟩ :=
      selectShallowestCondensationCandidate_spec hCandidate
    unfold condensedPass
    dsimp only
    split
    · exact .unchanged fun _ _ h => by cases h
    · exact .unchanged fun _ _ h => by cases h
    · split
      · rename_i startOrdinal endOrdinal hStart hEnd
        refine withTransaction_map_elim
          (P := PassOutcome db (CondensedEffect db env c hardTrigger))
          (fun _ _ => .unchanged fun _ _ h => by cases h) fun db' hPersist => Or.inr ⟨_, rfl, ?_⟩
        have hReplaced := replaced_persistPass (onlyLinks_linkSummaryToParents _ _) hOrdered hItems
          hStart hEnd hPersist
        exact ⟨⟨candidate, before, after, _, hCandidate, hReplaced, rfl, rfl, rfl⟩, rfl, rfl⟩
      · exact .unchanged fun _ _ h => by cases h

/-! ## The fresh tail behind a pass -/

theorem LeafEffect.chunk_raw
    {result : LeafPassResult} (h : LeafEffect db env c db' result) (hState : ContextState db c) :
    ContextState db' c ∧
      freshTail db' env.config ((db'.getContextItems c).map (·.ref)) =
        freshTail db env.config ((db.getContextItems c).map (·.ref)) ∧
      (rawIds ((db'.getContextItems c).map (·.ref))).length <
        (rawIds ((db.getContextItems c).map (·.ref))).length := by
  obtain ⟨before, after, record, hReplaced, hBefore, -⟩ := h.effect
  obtain ⟨-, -, -, -, hChunk⟩ := selectOldestLeafChunk_spec db env.config c
  have hRawBefore : rawIds (before.map (·.ref)) = [] := by
    unfold rawIds
    rw [List.filterMap_map, List.filterMap_eq_nil_iff]
    intro i hi
    obtain ⟨s, hRef⟩ := hBefore i hi
    simp [hRef]
  refine ⟨hState.replaced hReplaced,
    hReplaced.freshTail hState (fun i hi => (hChunk i hi).2) (Or.inl hRawBefore), ?_⟩
  obtain ⟨item, hItem⟩ := List.exists_mem_of_ne_nil _ hReplaced.chunk_ne
  obtain ⟨⟨m, hRef⟩, -⟩ := hChunk item hItem
  have hPos : 0 < (rawIds ((selectOldestLeafChunk db env.config c).items.map (·.ref))).length := by
    refine List.length_pos_of_mem (a := m) ?_
    unfold rawIds
    rw [List.filterMap_map, List.mem_filterMap]
    exact ⟨item, hItem, by simp [hRef]⟩
  rw [hReplaced.refs, hReplaced.items]
  simp only [List.map_append, rawIds_append, rawIds_summary, List.length_append]
  have hNil : rawIds [] = [] := rfl
  rw [hNil, List.length_nil]
  omega

theorem CondensedEffect.chunk_summaries {hardTrigger : Bool} {result : LeafPassResult}
    (h : CondensedEffect db env c hardTrigger db' result) (hState : ContextState db c) :
    ContextState db' c ∧
      freshTail db' env.config ((db'.getContextItems c).map (·.ref)) =
        freshTail db env.config ((db.getContextItems c).map (·.ref)) ∧
      rawIds ((db'.getContextItems c).map (·.ref)) =
        rawIds ((db.getContextItems c).map (·.ref)) := by
  obtain ⟨candidate, before, after, record, hCandidate, hReplaced, -⟩ := h.effect
  obtain ⟨-, -, hChunk⟩ := selectShallowestCondensationCandidate_spec hCandidate
  have hRaw : rawIds (candidate.chunk.items.map (·.ref)) = [] := by
    unfold rawIds
    rw [List.filterMap_map, List.filterMap_eq_nil_iff]
    intro i hi
    obtain ⟨⟨s, record, hRef, -⟩, -⟩ := hChunk i hi
    simp [hRef]
  refine ⟨hState.replaced hReplaced,
    hReplaced.freshTail hState (fun i hi => (hChunk i hi).2) (Or.inr hRaw), ?_⟩
  rw [hReplaced.refs, hReplaced.items]
  simp only [List.map_append, rawIds_append, rawIds_summary, hRaw]
  rfl

end LosslessHermes.Compaction
