import LosslessHermes.Embeddings.BackfillTick
import Mathlib.Data.String.Basic

/-!
# What a tick of the backfill selects and writes

A selection takes the greatest ids of the pending leaves: `selectPendingDocs_closed` says that it
takes with each of them every pending leaf of a greater id. The batches are the selected documents
in their order; `writeBatch_spec` counts each document once, as written or as an error.
-/

namespace LosslessHermes

/-! ## The selection -/

/-- The leaf may be embedded, whatever was embedded so far. -/
def isEmbeddable (options : BackfillOptions) (s : SummaryRecord) : Bool :=
  s.suppressedAt = none ∧ options.minTokenCount ≤ s.tokenCount ∧
    s.tokenCount ≤ options.maxTokenCount ∧ s.kind = .leaf

/-- The document has a row of metadata that is not archived. -/
def EmbeddingTables.isLive (db : EmbeddingTables) (options : BackfillOptions)
    (id : SummaryId) : Bool :=
  db.metaRows.any fun m =>
    EmbeddingTables.isMetaOf options.modelName id options.embeddedKind m && !m.archived

def isPendingLeaf (db : EmbeddingTables) (options : BackfillOptions) (excludeIds : List SummaryId)
    (s : SummaryRecord) : Bool :=
  isEmbeddable options s && s.summaryId ∉ excludeIds && !db.isLive options s.summaryId

/-- The pending leaves, by descending id. -/
def pendingLeaves (db : OperatorDb) (options : BackfillOptions) (excludeIds : List SummaryId) :
    List SummaryRecord :=
  (db.summaries.filter (isPendingLeaf db.embeddings options excludeIds)).insertionSort
    fun a b => b.summaryId ≤ a.summaryId

variable {db : OperatorDb} {options : BackfillOptions} {limit : Nat} {excludeIds : List SummaryId}

theorem selectPendingDocs_eq :
    selectPendingDocs db options limit excludeIds =
      ((pendingLeaves db options excludeIds).take limit).map fun s =>
        ⟨s.summaryId, s.content, s.tokenCount⟩ := by
  have hSame : ∀ s : SummaryRecord, decide (s.suppressedAt = none ∧
      options.minTokenCount ≤ s.tokenCount ∧ s.tokenCount ≤ options.maxTokenCount ∧
        s.kind = .leaf ∧ s.summaryId ∉ excludeIds ∧ ¬ db.embeddings.metaRows.any fun m =>
          EmbeddingTables.isMetaOf options.modelName s.summaryId options.embeddedKind m &&
            !m.archived) = isPendingLeaf db.embeddings options excludeIds s := by
    intro s
    rw [Bool.eq_iff_iff]
    simp only [isPendingLeaf, isEmbeddable, EmbeddingTables.isLive, Bool.and_eq_true,
      decide_eq_true_eq, Bool.not_eq_true', Bool.not_eq_true]
    tauto
  unfold selectPendingDocs pendingLeaves
  simp only [hSame]

theorem selectPendingDocs_ids :
    (selectPendingDocs db options limit excludeIds).map (·.summaryId) =
      ((pendingLeaves db options excludeIds).take limit).map (·.summaryId) := by
  rw [selectPendingDocs_eq, List.map_map]
  rfl

theorem mem_pendingLeaves {s : SummaryRecord} : s ∈ pendingLeaves db options excludeIds ↔
    s ∈ db.summaries ∧ isPendingLeaf db.embeddings options excludeIds s = true := by
  unfold pendingLeaves
  rw [(List.perm_insertionSort _ _).mem_iff, List.mem_filter]

theorem nodup_pendingLeaves (h : (db.summaries.map (·.summaryId)).Nodup) :
    ((pendingLeaves db options excludeIds).map (·.summaryId)).Nodup := by
  unfold pendingLeaves
  rw [((List.perm_insertionSort _ _).map _).nodup_iff]
  exact h.sublist (List.filter_sublist.map _)

theorem sorted_pendingLeaves : (pendingLeaves db options excludeIds).Pairwise
    fun a b => b.summaryId ≤ a.summaryId :=
  @List.pairwise_insertionSort _ (fun a b : SummaryRecord => b.summaryId ≤ a.summaryId) _
    ⟨fun a b => le_total b.summaryId a.summaryId⟩ ⟨fun _ _ _ hab hbc => le_trans hbc hab⟩ _

theorem nodup_selectPendingDocs (h : (db.summaries.map (·.summaryId)).Nodup) :
    ((selectPendingDocs db options limit excludeIds).map (·.summaryId)).Nodup := by
  rw [selectPendingDocs_ids]
  exact (nodup_pendingLeaves h).sublist ((List.take_sublist _ _).map _)

theorem length_selectPendingDocs_le :
    (selectPendingDocs db options limit excludeIds).length ≤ limit := by
  rw [selectPendingDocs_eq, List.length_map]
  exact List.length_take_le _ _

/-- A selected document is that of a pending leaf. -/
theorem exists_of_mem_selectPendingDocs {doc : PendingDoc}
    (h : doc ∈ selectPendingDocs db options limit excludeIds) :
    ∃ s ∈ db.summaries, isPendingLeaf db.embeddings options excludeIds s = true ∧
      doc = ⟨s.summaryId, s.content, s.tokenCount⟩ := by
  rw [selectPendingDocs_eq] at h
  obtain ⟨s, hs, rfl⟩ := List.mem_map.mp h
  obtain ⟨hRow, hPending⟩ := mem_pendingLeaves.mp (List.mem_of_mem_take hs)
  exact ⟨s, hRow, hPending, rfl⟩

/-- With a document every pending leaf of a greater id is selected. -/
theorem selectPendingDocs_closed {id : SummaryId}
    (hId : id ∈ (selectPendingDocs db options limit excludeIds).map (·.summaryId))
    {s : SummaryRecord} (hRow : s ∈ db.summaries)
    (hPending : isPendingLeaf db.embeddings options excludeIds s = true) (hLe : id ≤ s.summaryId) :
    s.summaryId ∈ (selectPendingDocs db options limit excludeIds).map (·.summaryId) := by
  rw [selectPendingDocs_ids] at hId ⊢
  obtain ⟨r, hr, rfl⟩ := List.mem_map.mp hId
  have hMem := mem_pendingLeaves.mpr ⟨hRow, hPending⟩
  have hSplit := List.take_append_drop limit (pendingLeaves db options excludeIds)
  rw [← hSplit] at hMem
  rcases List.mem_append.mp hMem with hTaken | hLeft
  · exact List.mem_map_of_mem hTaken
  · -- what is left has no greater id
    have hSorted := @sorted_pendingLeaves db options excludeIds
    rw [← hSplit] at hSorted
    have hGe := (List.pairwise_append.mp hSorted).2.2 r hr s hLeft
    rw [le_antisymm hGe hLe]
    exact List.mem_map_of_mem hr

/-- Where a leaf is pending, the first document of a selection has no smaller id. -/
theorem exists_selectPendingDocs_cons (hLimit : 0 < limit) {s : SummaryRecord}
    (hRow : s ∈ db.summaries)
    (hPending : isPendingLeaf db.embeddings options excludeIds s = true) :
    ∃ doc docs, selectPendingDocs db options limit excludeIds = doc :: docs ∧
      s.summaryId ≤ doc.summaryId := by
  have hMem := mem_pendingLeaves.mpr ⟨hRow, hPending⟩
  have hSorted := @sorted_pendingLeaves db options excludeIds
  rw [selectPendingDocs_eq]
  cases hLeaves : pendingLeaves db options excludeIds with
  | nil =>
    rw [hLeaves] at hMem
    cases hMem
  | cons first rest =>
    rw [hLeaves] at hMem hSorted
    obtain ⟨limit, rfl⟩ : ∃ n, limit = n + 1 := ⟨limit - 1, by omega⟩
    refine ⟨_, _, rfl, ?_⟩
    rcases List.mem_cons.mp hMem with rfl | hRest
    · exact le_refl _
    · exact (List.pairwise_cons.mp hSorted).1 s hRest

/-! ## The batches -/

theorem packFrom_flatten (maxBatchTokens : Int) (current : List PendingDoc) (tokens : Nat)
    (docs : List PendingDoc) :
    (packFrom maxBatchTokens current tokens docs).flatten = current ++ docs := by
  induction docs generalizing current tokens with
  | nil =>
    unfold packFrom
    split
    · rename_i hEmpty
      rw [hEmpty]
      rfl
    · simp
  | cons doc docs ih =>
    unfold packFrom
    split
    · rw [List.flatten_cons, ih]
      rfl
    · rw [ih, List.append_assoc]
      rfl

theorem packFrom_ne_nil (maxBatchTokens : Int) (current : List PendingDoc) (tokens : Nat)
    (docs : List PendingDoc) : ∀ batch ∈ packFrom maxBatchTokens current tokens docs,
      batch ≠ [] := by
  induction docs generalizing current tokens with
  | nil =>
    unfold packFrom
    split
    · exact fun _ h => nomatch h
    · rename_i hCurrent
      exact fun batch h => List.mem_singleton.mp h ▸ hCurrent
  | cons doc docs ih =>
    unfold packFrom
    split
    · rename_i hFull
      exact List.forall_mem_cons.mpr ⟨hFull.1, ih [doc] doc.tokenCount⟩
    · exact ih _ _

theorem packBatches_flatten (docs : List PendingDoc) (maxBatchTokens : Int) :
    (packBatches docs maxBatchTokens).flatten = docs :=
  packFrom_flatten maxBatchTokens [] 0 docs

theorem packBatches_ne_nil (docs : List PendingDoc) (maxBatchTokens : Int) :
    ∀ batch ∈ packBatches docs maxBatchTokens, batch ≠ [] :=
  packFrom_ne_nil maxBatchTokens [] 0 docs

/-! ## The write of a batch -/

namespace EmbeddingTables

variable {db db' : EmbeddingTables} {now : Timestamp} {str : EmbeddingError → String}

theorem isLive_iff {id : SummaryId} : db.isLive options id = true ↔ ∃ m ∈ db.metaRows,
    isMetaOf options.modelName id options.embeddedKind m = true ∧ m.archived = false := by
  unfold isLive
  simp only [List.any_eq_true, Bool.and_eq_true, Bool.not_eq_true']

/-- The recorded document is live, and no other is touched. -/
theorem isLive_recorded {table : String} {doc : PendingDoc} {vector : List UInt32}
    {payload : List UInt8} {id : SummaryId} :
    (db.recorded now options.modelName table (recordArgs options doc vector) payload).isLive
        options id = true ↔ db.isLive options id = true ∨ id = doc.summaryId := by
  rw [isLive_iff, isLive_iff]
  constructor
  · rintro ⟨m, hm, hOf, hLive⟩
    rcases List.mem_append.mp hm with hOld | hNew
    · exact .inl ⟨m, (List.mem_filter.mp hOld).1, hOf, hLive⟩
    · rw [List.mem_singleton.mp hNew] at hOf
      exact .inr (of_decide_eq_true hOf).1.symm
  · intro h
    by_cases hSame : id = doc.summaryId
    · refine ⟨_, List.mem_append_right _ (List.mem_singleton.mpr rfl), ?_, rfl⟩
      exact decide_eq_true ⟨hSame.symm, rfl, rfl⟩
    · obtain ⟨m, hm, hOf, hLive⟩ := h.resolve_right hSame
      refine ⟨m, List.mem_append_left _ (List.mem_filter.mpr ⟨hm, ?_⟩), hOf, hLive⟩
      rw [Bool.not_eq_true', Bool.eq_false_iff]
      intro hDoc
      exact hSame ((of_decide_eq_true hOf).1.symm.trans (of_decide_eq_true hDoc).1)

/-- A row is written or leaves everything as it was. -/
theorem writeRow_live (refusals : RowRefusals) (doc : PendingDoc) (vector : List UInt32)
    (db : EmbeddingTables) :
    (∃ error, writeRow refusals now options doc vector db = (db, .error error)) ∨
      ∃ db', writeRow refusals now options doc vector db = (db', .ok ()) ∧
        ∀ id, db'.isLive options id = true ↔
          db.isLive options id = true ∨ id = doc.summaryId := by
  cases hName : embeddingsTableName options.modelName with
  | error error =>
    exact .inl ⟨error, withTransaction_error (by simp only [recordEmbedding, hName])⟩
  | ok table =>
    rcases recordEmbedding_cases hName refusals.statements now (recordArgs options doc vector) db
      with ⟨-, error, hError⟩ | ⟨-, payload, -, hOk⟩
    · exact .inl ⟨error, withTransaction_error (by simp only [hError])⟩
    · by_cases hRelease : refusals.release = true
      · exact .inl ⟨.statement, withTransaction_error (by simp only [hOk, hRelease, if_true])⟩
      · rw [Bool.not_eq_true] at hRelease
        refine .inr ⟨db.recorded now options.modelName table (recordArgs options doc vector)
          payload, withTransaction_ok ?_, fun id => isLive_recorded⟩
        simp only [hOk, hRelease, Bool.false_eq_true, if_false]

/-- What the documents of a batch come to: the errors are of some of them, and the others are
written and live. -/
structure Written (options : BackfillOptions) (batch : List PendingDoc) (db db' : EmbeddingTables)
    (report : WriteReport) : Prop where
  count : report.succeeded + report.errors.length = batch.length
  errors : (report.errors.map (·.summaryId)).Sublist (batch.map (·.summaryId))
  live : (batch.map (·.summaryId)).Nodup → ∀ id, db'.isLive options id = true ↔
    db.isLive options id = true ∨
      id ∈ batch.map (·.summaryId) ∧ id ∉ report.errors.map (·.summaryId)

/-- The rows of a batch, on top of what was reported before. -/
theorem writeRows_written {refusals : Nat → RowRefusals} {batch : List PendingDoc}
    {vectors : List (List UInt32)} {report report' : WriteReport}
    (h : writeRows str now options refusals batch vectors db report = .ok (db', report')) :
    ∃ rows : WriteReport, report'.succeeded = report.succeeded + rows.succeeded ∧
      report'.errors = report.errors ++ rows.errors ∧ Written options batch db db' rows := by
  induction batch generalizing refusals vectors db report with
  | nil =>
    cases h
    exact ⟨⟨0, []⟩, rfl, (List.append_nil _).symm, rfl, List.Sublist.refl _, by simp⟩
  | cons doc batch ih =>
    cases vectors with
    | nil => cases h
    | cons vector vectors =>
      unfold writeRows at h
      split at h
      · cases h
      · rcases @writeRow_live options now (refusals 0) doc vector db with
          ⟨error, hError⟩ | ⟨dbRow, hOk, hLive⟩
        · rw [hError] at h
          obtain ⟨rows, hSucceeded, hErrors, hRows⟩ := ih h
          refine ⟨⟨rows.succeeded,
            ⟨doc.summaryId, .voyageOther, some (str error)⟩ :: rows.errors⟩, hSucceeded, ?_,
            ?_, ?_, fun hNodup id => ?_⟩
          · rw [hErrors, List.append_assoc]
            rfl
          · have hCount := hRows.count
            simp only [List.length_cons]
            omega
          · exact hRows.errors.cons_cons doc.summaryId
          · rw [List.map_cons, List.nodup_cons] at hNodup
            rw [hRows.live hNodup.2 id]
            simp only [List.map_cons, List.mem_cons, not_or]
            constructor
            · rintro (hOld | ⟨hMem, hNot⟩)
              · exact .inl hOld
              · exact .inr ⟨.inr hMem, fun hSame => hNodup.1 (hSame ▸ hMem), hNot⟩
            · rintro (hOld | ⟨hMem, hOther, hNot⟩)
              · exact .inl hOld
              · exact .inr ⟨hMem.resolve_left hOther, hNot⟩
        · rw [hOk] at h
          obtain ⟨rows, hSucceeded, hErrors, hRows⟩ := ih h
          refine ⟨⟨rows.succeeded + 1, rows.errors⟩, ?_, hErrors, ?_, ?_, fun hNodup id => ?_⟩
          · rw [hSucceeded]
            simp only
            omega
          · have hCount := hRows.count
            simp only [List.length_cons]
            omega
          · exact hRows.errors.cons doc.summaryId
          · rw [List.map_cons, List.nodup_cons] at hNodup
            rw [hRows.live hNodup.2 id, hLive id]
            simp only [List.map_cons, List.mem_cons]
            constructor
            · rintro ((hOld | rfl) | ⟨hMem, hNot⟩)
              · exact .inl hOld
              · exact .inr ⟨.inl rfl, fun hError => hNodup.1 (hRows.errors.subset hError)⟩
              · exact .inr ⟨.inr hMem, hNot⟩
            · rintro (hOld | ⟨rfl | hMem, hNot⟩)
              · exact .inl (.inl hOld)
              · exact .inl (.inr rfl)
              · exact .inr ⟨hMem, hNot⟩

/-- A batch that is rolled back has an error for each of its documents. -/
theorem written_rolledBack (batch : List PendingDoc) (detail : String) (db : EmbeddingTables) :
    Written options batch db db
      ⟨0, batch.map fun doc => ⟨doc.summaryId, .voyageOther, some detail⟩⟩ := by
  have hIds : (batch.map fun doc => (⟨doc.summaryId, .voyageOther, some detail⟩ :
      BackfillSkippedDoc)).map (·.summaryId) = batch.map (·.summaryId) := by
    rw [List.map_map]
    rfl
  refine ⟨by simp, by rw [hIds], fun _ id => ?_⟩
  rw [hIds]
  simp

theorem writeBatch_spec (refusals : BatchRefusals) (batch : List PendingDoc)
    (vectors : List (List UInt32)) (db : EmbeddingTables) :
    Written options batch db (db.writeBatch str refusals now options batch vectors).1
      (db.writeBatch str refusals now options batch vectors).2 := by
  unfold writeBatch
  cases hRows : writeRows str now options refusals.rows batch vectors db ⟨0, []⟩ with
  | error error =>
    rw [@withTransaction_error _ _ _ db error _ (by simp only [hRows])]
    exact written_rolledBack batch _ db
  | ok written =>
    obtain ⟨db', report⟩ := written
    by_cases hCommit : refusals.commit = true
    · rw [@withTransaction_error _ _ _ db (str .statement) _
        (by simp only [hRows, hCommit, if_true])]
      exact written_rolledBack batch _ db
    · have hKept : refusals.commit = false := by simpa using hCommit
      rw [@withTransaction_ok _ _ _ db db' report _
        (by simp only [hRows, hKept, Bool.false_eq_true, if_false])]
      obtain ⟨rows, hSucceeded, hErrors, hWritten⟩ := writeRows_written hRows
      obtain ⟨succeeded, errors⟩ := report
      obtain ⟨succeeded', errors'⟩ := rows
      obtain rfl : succeeded = succeeded' := hSucceeded.trans (Nat.zero_add _)
      obtain rfl : errors = errors' := hErrors
      exact hWritten

end EmbeddingTables
end LosslessHermes
