import LosslessHermes.Embeddings.BackfillTick
import LosslessHermes.Operator.Ancestors

/-!
# The suppression flag of the vectors

A vector has a copy of whether its summary is suppressed. A trigger on `summaries` keeps
the copy; the backfill inserts its vectors with the flag off. `IndexState` has the
database and the ticks that are under way, with purges and un-suppressions between their
steps.
-/

namespace LosslessHermes

structure IndexState where
  db : OperatorDb
  ticks : Nat → Option Tick

inductive IndexAction
  | start (tick : Nat) (options : BackfillOptions) (acquired : Bool)
  | select (tick : Nat)
  | send (tick : Nat) (stillOurs : Bool)
  | answer (tick : Nat) (now : Timestamp) (reply : EmbedReply)
  | purge (request : PurgeRequest)
  | setSuppressedAt (summaryIds : List SummaryId) (value : Option Timestamp)

namespace IndexState

def setTick (state : IndexState) (tick : Nat) (value : Tick) : IndexState :=
  { state with ticks := fun i => if i = tick then some value else state.ticks i }

def step (str : EmbeddingError → String) (state : IndexState) : IndexAction → IndexState
  | .start tick options acquired =>
      if state.db.embeddings.embeddingsTableExists options.modelName then
        state.setTick tick (Tick.start options acquired)
      else state
  | .select tick =>
      match state.ticks tick with
      | some value => state.setTick tick (value.select state.db)
      | none => state
  | .send tick stillOurs =>
      match state.ticks tick with
      | some value => state.setTick tick (value.send stillOurs)
      | none => state
  | .answer tick now reply =>
      match state.ticks tick with
      | some value =>
          let (embeddings, value) := value.answer str now state.db.embeddings reply
          { state with db := { state.db with embeddings := embeddings } }.setTick tick value
      | none => state
  | .purge request => { state with db := state.db.purge request }
  | .setSuppressedAt summaryIds value =>
      { state with db := state.db.setSuppressedAt summaryIds value }

end IndexState

namespace OperatorDb

/-- A vector of a summary has the flag exactly if the summary is suppressed. -/
def FlagsAgree (db : OperatorDb) : Prop :=
  ∀ v ∈ db.embeddings.vectors, v.embeddedKind = .summary → ∀ row ∈ db.summaries,
    row.summaryId = v.embeddedId → (v.suppressed ↔ row.suppressedAt ≠ none)

/-- The tables have the triggers with which they are created, and the vectors stand
in them. -/
structure Indexed (db : OperatorDb) : Prop where
  triggers : ∀ t ∈ db.embeddings.tables, t.triggers
  tables : ∀ v ∈ db.embeddings.vectors, db.embeddings.hasTable v.table

end OperatorDb

/-! ## What a write records -/

namespace EmbeddingTables

/-- The row is not refused. -/
def RowAccepts (db : EmbeddingTables) (options : BackfillOptions) (refusals : RowRefusals)
    (doc : PendingDoc) (vector : List UInt32) : Prop :=
  refusals.release = false ∧ ∃ table, embeddingsTableName options.modelName = .ok table ∧
    Accepts refusals.statements options.modelName table (recordArgs options doc vector) db

/-- A row of the batch is not refused, and its document is the summary. -/
def RowRecords (db : EmbeddingTables) (options : BackfillOptions) (refusals : Nat → RowRefusals)
    (batch : List PendingDoc) (vectors : List (List UInt32)) (s : SummaryId) : Prop :=
  ∃ i doc vector, batch[i]? = some doc ∧ vectors[i]? = some vector ∧ doc.summaryId = s ∧
    db.RowAccepts options (refusals i) doc vector

/-- No statement outside of a row is refused, and each document has a vector. -/
def Commits (refusals : BatchRefusals) (batch : List PendingDoc) (vectors : List (List UInt32)) :
    Prop :=
  refusals.commit = false ∧ batch.length ≤ vectors.length ∧
    ∀ i < batch.length, (refusals.rows i).savepoint = false

/-- The document has a vector without the flag. -/
def HasUnflagged (db : EmbeddingTables) (embeddedKind : EmbeddedKind) (s : SummaryId) : Prop :=
  ∃ v ∈ db.vectors, v.embeddedId = s ∧ v.embeddedKind = embeddedKind ∧ v.suppressed = false

/-- The second state has, over the first, vectors of the recorded documents without
the flag. -/
structure Filled (records : SummaryId → Prop) (embeddedKind : EmbeddedKind)
    (db db' : EmbeddingTables) : Prop where
  tables : db'.tables = db.tables
  profiles : db'.profiles = db.profiles
  vectors : ∀ v ∈ db'.vectors, v ∈ db.vectors ∨ v.suppressed = false ∧
    v.embeddedKind = embeddedKind ∧ records v.embeddedId ∧ db.hasTable v.table
  filled : ∀ s, db.HasUnflagged embeddedKind s ∨ records s → db'.HasUnflagged embeddedKind s

variable {db db' : EmbeddingTables} {modelName table : String} {options : BackfillOptions}
  {now : Timestamp} {str : EmbeddingError → String}

theorem accepts_congr (hTables : db'.tables = db.tables) (hProfiles : db'.profiles = db.profiles)
    {refuses : RecordStatement → Bool} {args : RecordArgs} :
    Accepts refuses modelName table args db' ↔ Accepts refuses modelName table args db := by
  unfold Accepts takes
  rw [hTables, hProfiles]

theorem Filled.refl (embeddedKind : EmbeddedKind) (db : EmbeddingTables) :
    Filled (fun _ => False) embeddedKind db db :=
  ⟨rfl, rfl, fun _ hv => Or.inl hv, fun _ h => h.resolve_right id⟩

theorem Filled.trans {records records' : SummaryId → Prop} {embeddedKind : EmbeddedKind}
    {db'' : EmbeddingTables} (h : Filled records embeddedKind db db')
    (h' : Filled records' embeddedKind db' db'') :
    Filled (fun s => records s ∨ records' s) embeddedKind db db'' := by
  refine ⟨h'.tables.trans h.tables, h'.profiles.trans h.profiles, fun v hv => ?_, fun s hs => ?_⟩
  · rcases h'.vectors v hv with hMiddle | ⟨hFlag, hKind, hRecords, hTable⟩
    · rcases h.vectors v hMiddle with hOld | ⟨hFlag, hKind, hRecords, hTable⟩
      · exact Or.inl hOld
      · exact Or.inr ⟨hFlag, hKind, Or.inl hRecords, hTable⟩
    · unfold hasTable at hTable
      rw [h.tables] at hTable
      exact Or.inr ⟨hFlag, hKind, Or.inr hRecords, hTable⟩
  · apply h'.filled s
    rcases hs with hOld | hRecords | hRecords
    · exact Or.inl (h.filled s (Or.inl hOld))
    · exact Or.inl (h.filled s (Or.inr hRecords))
    · exact Or.inr hRecords

theorem filled_recorded (args : RecordArgs) {payload : List UInt8}
    (hTakes : db.takes table payload) (hFlag : args.suppressed = false) :
    Filled (fun s => s = args.embeddedId) args.embeddedKind db
      (db.recorded now modelName table args payload) := by
  refine ⟨rfl, rfl, fun v hv => ?_, fun s hs => ?_⟩
  · rcases List.mem_append.mp hv with hOld | hNew
    · exact Or.inl (List.mem_filter.mp hOld).1
    · rw [List.mem_singleton.mp hNew]
      exact Or.inr ⟨hFlag, rfl, rfl, hasTable_of_takes hTakes⟩
  · by_cases hSame : s = args.embeddedId
    · exact ⟨_, List.mem_append_right _ (List.mem_singleton.mpr rfl), hSame.symm, rfl, hFlag⟩
    · obtain ⟨v, hv, hId, hKind, hOff⟩ := hs.resolve_right hSame
      refine ⟨v, List.mem_append_left _ (List.mem_filter.mpr ⟨hv, ?_⟩), hId, hKind, hOff⟩
      rw [Bool.not_eq_true', Bool.eq_false_iff]
      intro hOf
      exact hSame (hId.symm.trans (isVectorOf_iff.mp hOf).2.1)

theorem writeRow_cases (refusals : RowRefusals) (doc : PendingDoc) (vector : List UInt32)
    (db : EmbeddingTables) :
    (¬ RowAccepts db options refusals doc vector ∧
        ∃ error, writeRow refusals now options doc vector db = (db, .error error)) ∨
      (RowAccepts db options refusals doc vector ∧
        ∃ db', writeRow refusals now options doc vector db = (db', .ok ()) ∧
          Filled (fun s => s = doc.summaryId) options.embeddedKind db db') := by
  cases hName : embeddingsTableName options.modelName with
  | error error =>
    refine Or.inl ⟨?_, error, withTransaction_error ?_⟩
    · rintro ⟨-, table, hTable, -⟩
      rw [hName] at hTable
      cases hTable
    · simp only [recordEmbedding, hName]
  | ok table =>
    rcases recordEmbedding_cases hName refusals.statements now (recordArgs options doc vector) db
      with ⟨hNot, error, hError⟩ | ⟨hAccepts, payload, hTakes, hOk⟩
    · refine Or.inl ⟨?_, error, withTransaction_error (by simp only [hError])⟩
      rintro ⟨-, table', hTable, hAccepts⟩
      rw [hName] at hTable
      cases hTable
      exact hNot hAccepts
    · by_cases hRelease : refusals.release = true
      · refine Or.inl ⟨fun hRow => ?_, .statement, withTransaction_error ?_⟩
        · rw [hRow.1] at hRelease
          cases hRelease
        · simp only [hOk, hRelease, if_true]
      · rw [Bool.not_eq_true] at hRelease
        have hFilled := @filled_recorded db options.modelName table now
          (recordArgs options doc vector) payload hTakes rfl
        refine Or.inr ⟨⟨hRelease, table, hName, hAccepts⟩, _, withTransaction_ok ?_, hFilled⟩
        simp only [hOk, hRelease, Bool.false_eq_true, if_false]

variable {refusals : Nat → RowRefusals} {doc : PendingDoc} {batch : List PendingDoc}
  {vector : List UInt32} {vectors : List (List UInt32)}

theorem rowRecords_cons {s : SummaryId} :
    db.RowRecords options refusals (doc :: batch) (vector :: vectors) s ↔
      (s = doc.summaryId ∧ db.RowAccepts options (refusals 0) doc vector) ∨
        db.RowRecords options (fun i => refusals (i + 1)) batch vectors s := by
  constructor
  · rintro ⟨i, doc', vector', hDoc, hVector, hId, hAccepts⟩
    cases i with
    | zero =>
      cases hDoc
      cases hVector
      exact Or.inl ⟨hId.symm, hAccepts⟩
    | succ i => exact Or.inr ⟨i, doc', vector', hDoc, hVector, hId, hAccepts⟩
  · rintro (⟨hId, hAccepts⟩ | ⟨i, doc', vector', hDoc, hVector, hId, hAccepts⟩)
    · exact ⟨0, doc, vector, rfl, rfl, hId.symm, hAccepts⟩
    · exact ⟨i + 1, doc', vector', hDoc, hVector, hId, hAccepts⟩

theorem rowAccepts_congr (hTables : db'.tables = db.tables) (hProfiles : db'.profiles = db.profiles)
    {refusals : RowRefusals} :
    db'.RowAccepts options refusals doc vector ↔ db.RowAccepts options refusals doc vector :=
  and_congr_right fun _ => exists_congr fun _ => and_congr_right fun _ =>
    accepts_congr hTables hProfiles

theorem rowRecords_congr (hTables : db'.tables = db.tables) (hProfiles : db'.profiles = db.profiles)
    {s : SummaryId} : db'.RowRecords options refusals batch vectors s ↔
      db.RowRecords options refusals batch vectors s :=
  exists_congr fun _ => exists_congr fun _ => exists_congr fun _ => and_congr_right fun _ =>
    and_congr_right fun _ => and_congr_right fun _ => rowAccepts_congr hTables hProfiles

theorem Filled.congr {records records' : SummaryId → Prop} {embeddedKind : EmbeddedKind}
    (h : Filled records embeddedKind db db') (hRecords : ∀ s, records s ↔ records' s) :
    Filled records' embeddedKind db db' := by
  rwa [← funext fun s => propext (hRecords s)]

theorem writeRows_of_ok
    {db db' : EmbeddingTables} {report : WriteReport} (hSavepoint : (refusals 0).savepoint = false)
    (hRow : writeRow (refusals 0) now options doc vector db = (db', .ok ())) :
    writeRows str now options refusals (doc :: batch) (vector :: vectors) db report =
      writeRows str now options (fun i => refusals (i + 1)) batch vectors db'
        { report with succeeded := report.succeeded + 1 } := by
  refine (if_neg (ne_true_of_eq_false hSavepoint)).trans ?_
  rw [hRow]

theorem writeRows_of_error
    {db db' : EmbeddingTables} {report : WriteReport} {error : EmbeddingError}
    (hSavepoint : (refusals 0).savepoint = false)
    (hRow : writeRow (refusals 0) now options doc vector db = (db', .error error)) :
    writeRows str now options refusals (doc :: batch) (vector :: vectors) db report =
      writeRows str now options (fun i => refusals (i + 1)) batch vectors db'
        { report with
          errors := report.errors ++ [⟨doc.summaryId, .voyageOther, some (str error)⟩] } := by
  refine (if_neg (ne_true_of_eq_false hSavepoint)).trans ?_
  rw [hRow]

/-- The loop over the rows ends exactly if each document has a vector and a savepoint,
and then it has filled in the rows that are not refused. -/
theorem writeRows_cases (refusals : Nat → RowRefusals) (batch : List PendingDoc)
    (vectors : List (List UInt32)) (db : EmbeddingTables) (report : WriteReport) :
    (¬ (batch.length ≤ vectors.length ∧ ∀ i < batch.length, (refusals i).savepoint = false) ∧
        ∃ error, writeRows str now options refusals batch vectors db report = .error error) ∨
      ((batch.length ≤ vectors.length ∧ ∀ i < batch.length, (refusals i).savepoint = false) ∧
        ∃ db' report', writeRows str now options refusals batch vectors db report =
            .ok (db', report') ∧
          Filled (db.RowRecords options refusals batch vectors) options.embeddedKind db db') := by
  induction batch generalizing refusals vectors db report with
  | nil =>
    refine Or.inr ⟨⟨Nat.zero_le _, fun i hi => absurd hi (Nat.not_lt_zero i)⟩, db, report, rfl,
      ?_⟩
    refine (Filled.refl _ db).congr fun s => iff_of_false id ?_
    rintro ⟨i, doc, vector, hDoc, -⟩
    cases hDoc
  | cons doc batch ih =>
    cases vectors with
    | nil => exact Or.inl ⟨fun h => absurd h.1 (by simp), _, rfl⟩
    | cons vector vectors =>
      by_cases hSavepoint : (refusals 0).savepoint = true
      · refine Or.inl ⟨fun h => ?_, str .statement, ?_⟩
        · rw [h.2 0 (by simp)] at hSavepoint
          cases hSavepoint
        · exact if_pos hSavepoint
      · have hHead : (refusals 0).savepoint = false := by simpa using hSavepoint
        have hRest : ((doc :: batch).length ≤ (vector :: vectors).length ∧
            ∀ i < (doc :: batch).length, (refusals i).savepoint = false) ↔
              batch.length ≤ vectors.length ∧
                ∀ i < batch.length, (refusals (i + 1)).savepoint = false := by
          refine and_congr (by simp) ⟨fun h i hi => h (i + 1) (by simpa using hi), ?_⟩
          intro h i hi
          cases i with
          | zero => exact hHead
          | succ i => exact h i (by simpa using hi)
        rw [hRest]
        rcases writeRow_cases (refusals 0) doc vector db with
          ⟨hNot, error, hError⟩ | ⟨hAccepts, dbRow, hOk, hRow⟩
        · rw [writeRows_of_error hHead hError]
          refine (ih (fun i => refusals (i + 1)) vectors db _).imp id ?_
          rintro ⟨hCommits, db', report', hRows, hFilled⟩
          refine ⟨hCommits, db', report', hRows, hFilled.congr fun s => ?_⟩
          rw [rowRecords_cons, or_iff_right fun h => hNot h.2]
        · rw [writeRows_of_ok hHead hOk]
          refine (ih (fun i => refusals (i + 1)) vectors dbRow _).imp id ?_
          rintro ⟨hCommits, db', report', hRows, hFilled⟩
          refine ⟨hCommits, db', report', hRows, (hRow.trans hFilled).congr fun s => ?_⟩
          rw [rowRecords_cons, rowRecords_congr hRow.tables hRow.profiles,
            and_iff_left hAccepts]

theorem writeBatch_cases (refusals : BatchRefusals) (batch : List PendingDoc)
    (vectors : List (List UInt32)) (db : EmbeddingTables) :
    (¬ Commits refusals batch vectors ∧
        (db.writeBatch str refusals now options batch vectors).1 = db) ∨
      (Commits refusals batch vectors ∧
        Filled (db.RowRecords options refusals.rows batch vectors) options.embeddedKind db
          (db.writeBatch str refusals now options batch vectors).1) := by
  unfold writeBatch
  rcases @writeRows_cases options now str refusals.rows batch vectors db ⟨0, []⟩ with
    ⟨hNot, error, hError⟩ | ⟨hRows, db', report', hOk, hFilled⟩
  · refine Or.inl ⟨fun h => hNot h.2, ?_⟩
    rw [@withTransaction_error _ _ _ db error _ (by simp only [hError])]
  · by_cases hCommit : refusals.commit = true
    · refine Or.inl ⟨fun h => ?_, ?_⟩
      · rw [h.1] at hCommit
        cases hCommit
      · rw [@withTransaction_error _ _ _ db (str .statement) _
          (by simp only [hOk, hCommit, if_true])]
    · have hKept : refusals.commit = false := by simpa using hCommit
      refine Or.inr ⟨⟨hKept, hRows⟩, ?_⟩
      rw [@withTransaction_ok _ _ _ db db' report' _
        (by simp only [hOk, hKept, Bool.false_eq_true, if_false])]
      exact hFilled

end EmbeddingTables

/-- The step writes a vector of the summary. -/
def IndexState.Records (state : IndexState) : IndexAction → SummaryId → Prop
  | .answer tick _ (.embedded vectors _ stillOurs refusals), s =>
      ∃ value batch batches, state.ticks tick = some value ∧
        value.phase = .awaiting batch batches ∧ value.options.embeddedKind = .summary ∧
          stillOurs = true ∧ refusals.beginImmediate = false ∧
            EmbeddingTables.Commits refusals batch vectors ∧
              state.db.embeddings.RowRecords value.options refusals.rows batch vectors s
  | _, _ => False

/-- No summary that the step records is suppressed. -/
def IndexState.RecordsLive (state : IndexState) (action : IndexAction) : Prop :=
  ∀ s, state.Records action s → ¬ state.db.isSuppressed s

/-! ## The trigger -/

namespace OperatorDb

variable {db : OperatorDb}

theorem Indexed.triggersOn (h : db.Indexed) {v : VectorRow} (hv : v ∈ db.embeddings.vectors) :
    db.triggersOn v.table := by
  obtain ⟨t, ht, hName⟩ := List.any_eq_true.mp (h.tables v hv)
  refine List.any_eq_true.mpr ⟨t, ht, decide_eq_true ⟨of_decide_eq_true hName, ?_⟩⟩
  exact h.triggers t ht

/-- The rows of which the suppression changes between `NULL` and not `NULL`. -/
def changedBy (db : OperatorDb) (summaryIds : List SummaryId) (value : Option Timestamp) :
    List SummaryId :=
  (db.summaries.filter fun s =>
    s.summaryId ∈ summaryIds ∧ s.suppressedAt.isSome ≠ value.isSome).map (·.summaryId)

theorem mem_changedBy {summaryIds : List SummaryId} {value : Option Timestamp} {s : SummaryId} :
    s ∈ db.changedBy summaryIds value ↔ ∃ row ∈ db.summaries, row.summaryId = s ∧
      s ∈ summaryIds ∧ row.suppressedAt.isSome ≠ value.isSome := by
  unfold changedBy
  rw [List.mem_map]
  refine exists_congr fun row => ?_
  rw [List.mem_filter, decide_eq_true_eq]
  constructor
  · rintro ⟨⟨hRow, hIn, hFlip⟩, rfl⟩
    exact ⟨hRow, rfl, hIn, hFlip⟩
  · rintro ⟨hRow, rfl, hIn, hFlip⟩
    exact ⟨⟨hRow, hIn, hFlip⟩, rfl⟩

/-- The trigger follows every change. -/
theorem FlagsAgree.setSuppressedAt (h : db.FlagsAgree) (hIndexed : db.Indexed)
    (summaryIds : List SummaryId) (value : Option Timestamp) :
    (db.setSuppressedAt summaryIds value).FlagsAgree := by
  intro v hv hKind row hRow hId
  obtain ⟨w, hw, hNew⟩ := List.mem_map.mp hv
  obtain ⟨old, hOld, hUpdated⟩ := List.mem_map.mp hRow
  have hTrigger := hIndexed.triggersOn hw
  have hSameKind : w.embeddedKind = .summary := by
    rw [← hNew] at hKind
    split at hKind <;> exact hKind
  have hSameId : old.summaryId = w.embeddedId := by
    rw [← hNew, ← hUpdated] at hId
    split at hId <;> split at hId <;> exact hId
  by_cases hChanged : w.embeddedId ∈ db.changedBy summaryIds value
  · obtain ⟨-, -, -, hIn, -⟩ := mem_changedBy.mp hChanged
    rw [if_pos ⟨hSameKind, hChanged, hTrigger⟩] at hNew
    rw [if_pos (hSameId ▸ hIn)] at hUpdated
    rw [← hNew, ← hUpdated]
    exact Option.isSome_iff_ne_none
  · rw [if_neg fun hAll => hChanged hAll.2.1] at hNew
    rw [← hNew, h w hw hSameKind old hOld hSameId, ← hUpdated]
    split
    · rename_i hIn
      have hStays : old.suppressedAt.isSome = value.isSome := by
        by_contra hFlip
        exact hChanged (mem_changedBy.mpr ⟨old, hOld, hSameId, hSameId ▸ hIn, hFlip⟩)
      rw [← Option.isSome_iff_ne_none, ← Option.isSome_iff_ne_none, hStays]
    · rfl

theorem Indexed.setSuppressedAt (h : db.Indexed) (summaryIds : List SummaryId)
    (value : Option Timestamp) : (db.setSuppressedAt summaryIds value).Indexed := by
  refine ⟨h.triggers, fun v hv => ?_⟩
  obtain ⟨w, hw, rfl⟩ := List.mem_map.mp hv
  have hTable := h.tables w hw
  split
  · exact hTable
  · exact hTable

theorem purge_embeddings (db : OperatorDb) (request : PurgeRequest) :
    (db.purge request).embeddings =
      (db.setSuppressedAt (db.targets request) (some request.now)).embeddings := by
  rw [purge_eq]
  rfl

theorem flagsAgree_congr {db' : OperatorDb} (hEmbeddings : db'.embeddings = db.embeddings)
    (hSummaries : db'.summaries = db.summaries) : db'.FlagsAgree ↔ db.FlagsAgree := by
  unfold FlagsAgree
  rw [hEmbeddings, hSummaries]

theorem FlagsAgree.purge (h : db.FlagsAgree) (hIndexed : db.Indexed) (request : PurgeRequest) :
    (db.purge request).FlagsAgree := by
  have hStep := h.setSuppressedAt hIndexed (db.targets request) (some request.now)
  exact (flagsAgree_congr (purge_embeddings db request) (purge_summaries db request)).mpr hStep

theorem Indexed.purge (h : db.Indexed) (request : PurgeRequest) : (db.purge request).Indexed := by
  have hStep := h.setSuppressedAt (db.targets request) (some request.now)
  constructor
  · rw [purge_embeddings]
    exact hStep.triggers
  · rw [purge_embeddings]
    exact hStep.tables

end OperatorDb

/-! ## A step -/

namespace IndexState

open EmbeddingTables

variable {state : IndexState} {str : EmbeddingError → String}

/-- The tables after the answer. -/
def Answered (state state' : IndexState) (action : IndexAction) : Prop :=
  state'.db = { state.db with embeddings := state'.db.embeddings } ∧
    ∃ embeddedKind records, Filled records embeddedKind state.db.embeddings state'.db.embeddings ∧
      ∀ s, state.Records action s ↔ embeddedKind = .summary ∧ records s

variable {state' : IndexState} {action : IndexAction}

theorem answered_of_none (hNone : ∀ s, ¬ state.Records action s) (hDb : state'.db = state.db) :
    state.Answered state' action := by
  refine ⟨by rw [hDb], .summary, fun _ => False, ?_, fun s => ?_⟩
  · rw [hDb]
    exact Filled.refl _ _
  · exact iff_of_false (hNone s) fun h => h.2

theorem records_embedded_iff {tick : Nat} {now : Timestamp} {value : Tick}
    (hTick : state.ticks tick = some value) {vectors : List (List UInt32)} {totalTokens : Nat}
    {stillOurs : Bool} {refusals : BatchRefusals} {s : SummaryId} :
    state.Records (.answer tick now (.embedded vectors totalTokens stillOurs refusals)) s ↔
      ∃ batch batches, value.phase = .awaiting batch batches ∧
        value.options.embeddedKind = .summary ∧ stillOurs = true ∧
          refusals.beginImmediate = false ∧ Commits refusals batch vectors ∧
            state.db.embeddings.RowRecords value.options refusals.rows batch vectors s := by
  constructor
  · rintro ⟨value', batch, batches, hValue, hRest⟩
    rw [hTick] at hValue
    cases hValue
    exact ⟨batch, batches, hRest⟩
  · rintro ⟨batch, batches, hRest⟩
    exact ⟨value, batch, batches, hTick, hRest⟩

theorem step_answer_db {tick : Nat} {value : Tick} (hTick : state.ticks tick = some value)
    (now : Timestamp) (reply : EmbedReply) :
    (state.step str (.answer tick now reply)).db =
      { state.db with embeddings := (value.answer str now state.db.embeddings reply).1 } := by
  simp only [step, hTick]
  rfl

variable {value : Tick} {now : Timestamp}

theorem step_answer_kept {tick : Nat} (hTick : state.ticks tick = some value) {reply : EmbedReply}
    (hKept : (value.answer str now state.db.embeddings reply).1 = state.db.embeddings) :
    (state.step str (.answer tick now reply)).db = state.db := by
  rw [step_answer_db hTick, hKept]

/-- Unless the lock is still held and the write transaction opened, the reply is dropped. -/
theorem answer_embedded_dropped {vectors : List (List UInt32)}
    {totalTokens : Nat} {stillOurs : Bool} {refusals : BatchRefusals} {db : EmbeddingTables}
    (hNot : ¬ (stillOurs = true ∧ refusals.beginImmediate = false)) :
    (value.answer str now db (.embedded vectors totalTokens stillOurs refusals)).1 = db := by
  unfold Tick.answer
  split
  · dsimp only
    split
    · rfl
    · rename_i hOurs
      split
      · rfl
      · rename_i hBegin
        exact absurd ⟨by simpa using hOurs, by simpa using hBegin⟩ hNot
  · rfl

theorem answered_embedded {tick : Nat}
    (hTick : state.ticks tick = some value) (vectors : List (List UInt32)) (totalTokens : Nat)
    (stillOurs : Bool) (refusals : BatchRefusals) :
    state.Answered
      (state.step str (.answer tick now (.embedded vectors totalTokens stillOurs refusals)))
      (.answer tick now (.embedded vectors totalTokens stillOurs refusals)) := by
  have hRecords := fun s => @records_embedded_iff state tick now value hTick vectors totalTokens
    stillOurs refusals s
  by_cases hWrites : stillOurs = true ∧ refusals.beginImmediate = false
  · obtain ⟨rfl, hBegin⟩ := hWrites
    cases hPhase : value.phase with
    | awaiting batch batches =>
      have hWritten : (value.answer str now state.db.embeddings
          (.embedded vectors totalTokens true refusals)).1 =
            (state.db.embeddings.writeBatch str refusals now value.options batch vectors).1 := by
        simp only [Tick.answer, hPhase, hBegin, Bool.not_true, Bool.false_eq_true, if_false]
      rcases @writeBatch_cases value.options now str refusals batch vectors
          state.db.embeddings with ⟨hNot, hKept⟩ | ⟨hCommits, hFilled⟩
      · refine answered_of_none (fun s hRecorded => ?_)
          (step_answer_kept hTick (hWritten.trans hKept))
        obtain ⟨batch', batches', hPhase', -, -, -, hCommits, -⟩ := (hRecords s).mp hRecorded
        rw [hPhase] at hPhase'
        cases hPhase'
        exact hNot hCommits
      · rw [← hWritten] at hFilled
        have hDb := @step_answer_db state str tick value hTick now
          (.embedded vectors totalTokens true refusals)
        refine ⟨by rw [hDb], value.options.embeddedKind, _, by rwa [hDb], fun s => ?_⟩
        constructor
        · intro hRecorded
          obtain ⟨batch', batches', hPhase', hKind, -, -, -, hRows⟩ := (hRecords s).mp hRecorded
          rw [hPhase] at hPhase'
          cases hPhase'
          exact ⟨hKind, hRows⟩
        · rintro ⟨hKind, hRows⟩
          exact (hRecords s).mpr ⟨batch, batches, hPhase, hKind, rfl, hBegin, hCommits, hRows⟩
    | selecting | sending | ended =>
      refine answered_of_none (fun s hRecorded => ?_) (step_answer_kept hTick ?_)
      · obtain ⟨batch, batches, hAwaiting, -⟩ := (hRecords s).mp hRecorded
        rw [hPhase] at hAwaiting
        cases hAwaiting
      · simp only [Tick.answer, hPhase]
  · refine answered_of_none (fun s hRecorded => ?_)
      (step_answer_kept hTick (answer_embedded_dropped hWrites))
    obtain ⟨-, -, -, -, hOurs, hBegin, -⟩ := (hRecords s).mp hRecorded
    exact hWrites ⟨hOurs, hBegin⟩

theorem answered (tick : Nat) (now : Timestamp) (reply : EmbedReply) :
    state.Answered (state.step str (.answer tick now reply)) (.answer tick now reply) := by
  cases hTick : state.ticks tick with
  | none =>
    apply answered_of_none
    · intro s hRecords
      cases reply with
      | embedded vectors totalTokens stillOurs refusals =>
        obtain ⟨value, batch, batches, hSome, -⟩ := hRecords
        rw [hTick] at hSome
        cases hSome
      | raised => exact hRecords
      | voyageError kind detail => exact hRecords
    · simp only [step, hTick]
  | some value =>
    cases reply with
    | raised =>
      refine answered_of_none (fun _ hRecords => hRecords) (step_answer_kept hTick ?_)
      unfold Tick.answer
      split <;> rfl
    | voyageError kind detail =>
      refine answered_of_none (fun _ hRecords => hRecords) (step_answer_kept hTick ?_)
      unfold Tick.answer
      split
      · dsimp only
        split <;> rfl
      · rfl
    | embedded vectors totalTokens stillOurs refusals =>
      exact answered_embedded hTick vectors totalTokens stillOurs refusals

/-- A step that records something keeps the flags exactly if no suppressed summary is
recorded. -/
theorem flagsAgree_answered (h : state.Answered state' action) (hAgree : state.db.FlagsAgree) :
    state'.db.FlagsAgree ↔ state.RecordsLive action := by
  obtain ⟨hDb, embeddedKind, records, hFilled, hRecords⟩ := h
  have hSummaries : state'.db.summaries = state.db.summaries := by
    rw [hDb]
  constructor
  · intro hAfter s hRecorded hSuppressed
    obtain ⟨rfl, hs⟩ := (hRecords s).mp hRecorded
    obtain ⟨v, hv, hId, hKind, hFlag⟩ := hFilled.filled s (Or.inr hs)
    obtain ⟨row, hRow, hRowId, hSome⟩ := OperatorDb.isSuppressed_iff.mp hSuppressed
    have hOn : v.suppressed = true := (hAfter v hv hKind row (by rwa [hSummaries])
      (hRowId.trans hId.symm)).mpr hSome
    rw [hFlag] at hOn
    cases hOn
  · intro hLive v hv hKind row hRow hId
    rw [hSummaries] at hRow
    rcases hFilled.vectors v hv with hOld | ⟨hFlag, hOwn, hs, -⟩
    · exact hAgree v hOld hKind row hRow hId
    · have hNot := hLive v.embeddedId ((hRecords _).mpr ⟨hOwn ▸ hKind, hs⟩)
      rw [hFlag]
      refine iff_of_false Bool.false_ne_true fun hSome => hNot ?_
      exact OperatorDb.isSuppressed_iff.mpr ⟨row, hRow, hId, hSome⟩

theorem indexed_answered
    (h : state.Answered state' action) (hIndexed : state.db.Indexed) : state'.db.Indexed := by
  obtain ⟨-, embeddedKind, records, hFilled, -⟩ := h
  constructor
  · rw [hFilled.tables]
    exact hIndexed.triggers
  · intro v hv
    have hOld : state.db.embeddings.hasTable v.table := by
      rcases hFilled.vectors v hv with hMem | ⟨-, -, -, hTable⟩
      · exact hIndexed.tables v hMem
      · exact hTable
    unfold hasTable
    rw [hFilled.tables]
    exact hOld

/-- A step of a tick other than the answer leaves the database alone. -/
theorem answered_tick (h : ∀ tick now reply, action ≠ .answer tick now reply)
    (hDb : (state.step str action).db = state.db) :
    state.Answered (state.step str action) action := by
  refine answered_of_none (fun s hRecords => ?_) hDb
  cases action with
  | answer tick now reply => exact h tick now reply rfl
  | start | select | send | purge | setSuppressedAt => exact hRecords

theorem step_cases (str : EmbeddingError → String) (state : IndexState) (action : IndexAction) :
    state.Answered (state.step str action) action ∨
      (∀ s, ¬ state.Records action s) ∧
        ((∃ request, (state.step str action).db = state.db.purge request) ∨
          ∃ summaryIds value, (state.step str action).db =
            state.db.setSuppressedAt summaryIds value) := by
  cases action with
  | start tick options acquired =>
    refine Or.inl (answered_tick (fun _ _ _ h => by cases h) ?_)
    simp only [step]
    split <;> rfl
  | select tick =>
    refine Or.inl (answered_tick (fun _ _ _ h => by cases h) ?_)
    simp only [step]
    split <;> rfl
  | send tick stillOurs =>
    refine Or.inl (answered_tick (fun _ _ _ h => by cases h) ?_)
    simp only [step]
    split <;> rfl
  | answer tick now reply => exact Or.inl (answered tick now reply)
  | purge request => exact Or.inr ⟨fun _ h => h, Or.inl ⟨request, rfl⟩⟩
  | setSuppressedAt summaryIds value =>
    exact Or.inr ⟨fun _ h => h, Or.inr ⟨summaryIds, value, rfl⟩⟩

theorem flagsAgree_step_iff (hIndexed : state.db.Indexed) (h : state.db.FlagsAgree)
    (action : IndexAction) :
    (state.step str action).db.FlagsAgree ↔ state.RecordsLive action := by
  rcases step_cases str state action with hAnswered | ⟨hNone, hStep⟩
  · exact flagsAgree_answered hAnswered h
  · refine iff_of_true ?_ fun s hRecords => absurd hRecords (hNone s)
    obtain ⟨request, hDb⟩ | ⟨summaryIds, value, hDb⟩ := hStep
    · rw [hDb]
      exact h.purge hIndexed request
    · rw [hDb]
      exact h.setSuppressedAt hIndexed summaryIds value

theorem indexed_step (hIndexed : state.db.Indexed) (action : IndexAction) :
    (state.step str action).db.Indexed := by
  rcases step_cases str state action with hAnswered | ⟨-, ⟨request, hDb⟩ | ⟨summaryIds, value, hDb⟩⟩
  · exact indexed_answered hAnswered hIndexed
  · rw [hDb]
    exact hIndexed.purge request
  · rw [hDb]
    exact hIndexed.setSuppressedAt summaryIds value

/-- **The flags agree with the summaries in every state of a run exactly if no tick
records a summary that is suppressed at the time of the write.** -/
theorem flagsAgree_iff (hIndexed : state.db.Indexed) (h : state.db.FlagsAgree)
    (actions : List IndexAction) :
    Run.Along (step str) (fun state action => (state.step str action).db.FlagsAgree) state
        actions ↔
      Run.Along (step str) RecordsLive state actions := by
  have hIff : ∀ (state : IndexState) action, state.db.Indexed ∧ state.db.FlagsAgree →
      ((state.step str action).db.FlagsAgree ↔ state.RecordsLive action) :=
    fun _ action hInv => flagsAgree_step_iff hInv.1 hInv.2 action
  refine Run.along_iff_of_invariant hIff (fun state action hInv hAfter => ?_) ⟨hIndexed, h⟩
  exact ⟨indexed_step hInv.1 action, hAfter⟩

/-! ## A purge while the call is awaited -/

/-- A leaf and the empty table of a model. -/
def oneLeaf : IndexState where
  db :=
    { OperatorDb.ofDb { Db.empty with
        summaries := [⟨"leaf", 1, .leaf, 0, "", 1, [], none, none, 0, 0, 1, "m", 0, none⟩] } with
      embeddings :=
        { tables := [⟨"lcm_embeddings_m", 1, true⟩]
          profiles := [⟨"m", 1⟩]
          vectors := []
          metaRows := [] } }
  ticks := fun _ => none

def noRefusals : BatchRefusals := ⟨false, fun _ => ⟨false, fun _ => false, false⟩, false⟩

/-- A tick that selects the leaf, and a purge of it before the reply arrives. -/
def purgeInFlight : List IndexAction :=
  [.start 0 ⟨"m", .summary, 80000, 200, 1, 27000⟩ true, .select 0, .send 0 true,
    .purge (OperatorDb.purgeIds ["leaf"]), .answer 0 4 (.embedded [[0]] 1 true noRefusals)]

theorem indexed_oneLeaf : oneLeaf.db.Indexed :=
  ⟨by decide, fun _ hv => absurd hv List.not_mem_nil⟩

theorem flagsAgree_oneLeaf : oneLeaf.db.FlagsAgree :=
  fun _ hv => absurd hv List.not_mem_nil

/-- The vector of the purged leaf is in the index without the flag. -/
theorem not_flagsAgree : oneLeaf.db.Indexed ∧ oneLeaf.db.FlagsAgree ∧
    ¬ Run.Along (step fun _ => "")
      (fun state action => (state.step (fun _ => "") action).db.FlagsAgree) oneLeaf
        purgeInFlight := by
  refine ⟨indexed_oneLeaf, flagsAgree_oneLeaf, ?_⟩
  rintro ⟨-, -, -, -, hAgree, -⟩
  have hFlag := hAgree ⟨"lcm_embeddings_m", [0, 0, 0, 0], "leaf", .summary, false⟩
    (by decide +kernel) rfl
    ⟨"leaf", 1, .leaf, 0, "", 1, [], none, none, 0, 0, 1, "m", 0, some 3⟩ (by decide +kernel) rfl
  exact Bool.false_ne_true (hFlag.mpr (Option.some_ne_none 3))

theorem flagsAgree_iff_purgeInFlight :
    Run.Along (step fun _ => "")
        (fun state action => (state.step (fun _ => "") action).db.FlagsAgree) oneLeaf
          purgeInFlight ↔
      Run.Along (step fun _ => "") RecordsLive oneLeaf purgeInFlight :=
  flagsAgree_iff indexed_oneLeaf flagsAgree_oneLeaf purgeInFlight

end IndexState
end LosslessHermes
