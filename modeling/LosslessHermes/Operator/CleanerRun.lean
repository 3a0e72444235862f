import LosslessHermes.Library.Savepoint
import LosslessHermes.Operator.CleanerScan
import LosslessHermes.Operator.DerivedRows

/-!
# The run of the cleaners, statement by statement

`apply_doctor_cleaners` on a connection without an open transaction: the statements of the
backup, the transaction that stages ids and deletes by them, the removal of the temporary
tables, and the compaction after a deletion. Each statement may raise.
-/

namespace LosslessHermes

/-! ## Statements -/

inductive CleanerTempTable
  | firstMessages
  | messageIds
  | summaryIds
  | conversationIds
  deriving DecidableEq, Repr

inductive CleanerMirror
  | messagesFts
  | summariesFts
  | summariesFtsCjk
  deriving DecidableEq, Repr

/-- `clear` and `drop` are the `DROP TABLE` before the staging and the one at the end. -/
inductive CleanerStatement
  | backupRollback
  | backupVacuumInto
  | beginImmediate
  | clear (table : CleanerTempTable)
  | create (table : CleanerTempTable)
  | fill (table : CleanerTempTable)
  | readDeleteCounts
  | hasTable (mirror : CleanerMirror)
  | summaryMessagesBySummary
  | summaryMessagesByMessage
  | summaryParentsBySummary
  | summaryParentsByParent
  | contextItemsByMessage
  | contextItemsBySummary
  | contextItemsByConversation
  | deleteMirror (mirror : CleanerMirror)
  | deleteConversations
  | commit
  | rollback
  | drop (table : CleanerTempTable)
  | vacuum
  | walCheckpoint
  deriving DecidableEq, Repr

/-- The statements up to `COMMIT`. -/
def CleanerStatement.uncommitted : CleanerStatement → Bool
  | .rollback | .drop _ | .vacuum | .walCheckpoint => false
  | _ => true

/-- The persistent tables, the temporary ones (a missing table is empty) and the counts that
the call has read. -/
structure CleanerTables where
  db : DerivedDb
  firstMessages : List (ConversationId × Option String)
  conversationIds : List ConversationId
  summaryIds : List SummaryId
  messageIds : List MessageId
  conversationCount : Nat
  deletedMessages : Nat
  deletedConversations : Nat

/-- A call of the scan or of the run. `archivedAt` is the column of the conversations. -/
structure CleanerCall where
  archivedAt : ConversationId → Option Timestamp
  filterIds : List String
  backupFailure : Option String
  vacuum : Bool
  raises : CleanerStatement → Bool

namespace CleanerTables

def ofDb (db : DerivedDb) : CleanerTables :=
  { db := db, firstMessages := [], conversationIds := [], summaryIds := [], messageIds := []
    conversationCount := 0, deletedMessages := 0, deletedConversations := 0 }

def clear (t : CleanerTables) : CleanerTempTable → CleanerTables
  | .firstMessages => { t with firstMessages := [] }
  | .messageIds => { t with messageIds := [] }
  | .summaryIds => { t with summaryIds := [] }
  | .conversationIds => { t with conversationIds := [] }

/-- The first messages are those of all conversations. -/
def fill (t : CleanerTables) (call : CleanerCall) : CleanerTempTable → CleanerTables
  | .firstMessages => { t with
      firstMessages := Groups.groupBy (·.conversationId)
        (fun c messages => (c, earliestPreview messages)) t.db.messages }
  | .conversationIds => { t with
      conversationIds := ((t.db.matchedConversations call.archivedAt
        (getScannedCleaners call.filterIds) fun c =>
          (Groups.joined Prod.fst t.firstMessages c).bind Prod.snd).map Prod.snd).dedup }
  | .summaryIds => { t with summaryIds := t.db.cleanerSummaryIds t.conversationIds }
  | .messageIds => { t with messageIds := t.db.cleanerMessageIds t.conversationIds }

def deleteMirror (t : CleanerTables) : CleanerMirror → DerivedDb
  | .messagesFts => { t.db with
      messagesFts := t.db.messagesFts.map fun rows => rows.filter fun row =>
        row.1 ∉ t.messageIds }
  | .summariesFts => { t.db with
      summariesFts := t.db.summariesFts.map fun rows => rows.filter fun row =>
        row.1 ∉ t.summaryIds }
  | .summariesFtsCjk => { t.db with
      summariesFtsCjk := t.db.summariesFtsCjk.map fun rows => rows.filter fun row =>
        row.1 ∉ t.summaryIds }

/-- The last deletion, with its cascades and triggers. -/
def deleteConversations (t : CleanerTables) : DerivedDb :=
  let summaryIds := t.db.cleanerSummaryIds t.conversationIds
  let messageIds := t.db.cleanerMessageIds t.conversationIds
  { t.db with
    conversations := t.db.conversations.filter fun c => c.conversationId ∉ t.conversationIds
    messages := t.db.messages.filter fun m => m.conversationId ∉ t.conversationIds
    messageParts := t.db.messageParts.filter fun p => p.messageId ∉ messageIds
    summaries := t.db.summaries.filter fun s => s.conversationId ∉ t.conversationIds
    synthesis := t.db.synthesis.cascadeSummaries summaryIds
    embeddings := { t.db.embeddings with
      vectors := t.db.embeddings.vectors.filter fun v =>
        !(v.embeddedKind = .summary && v.embeddedId ∈ summaryIds && t.db.triggersOn v.table)
      metaRows := t.db.embeddings.metaRows.filter fun m =>
        !(m.embeddedKind = .summary && m.embeddedId ∈ summaryIds) }
    queue := t.db.queue.filter fun q => q.leafId ∉ summaryIds
    entities := t.db.entities.map fun e =>
      if e.firstSeenInSummaryId.any (· ∈ summaryIds) then { e with firstSeenInSummaryId := none }
      else e
    mentions := t.db.mentions.filter fun m => m.summaryId ∉ summaryIds }

end CleanerTables

/-- What a statement that does not raise does to the tables. -/
def CleanerStatement.update (call : CleanerCall) (statement : CleanerStatement)
    (t : CleanerTables) : CleanerTables :=
  match statement with
  | .clear table | .create table | .drop table => t.clear table
  | .fill table => t.fill call table
  | .readDeleteCounts => { t with
      conversationCount := t.conversationIds.length, deletedMessages := t.messageIds.length }
  | .summaryMessagesBySummary => { t with db := { t.db with
      summaryMessages := t.db.summaryMessages.filter fun l => l.summaryId ∉ t.summaryIds } }
  | .summaryMessagesByMessage => { t with db := { t.db with
      summaryMessages := t.db.summaryMessages.filter fun l => l.messageId ∉ t.messageIds } }
  | .summaryParentsBySummary => { t with db := { t.db with
      summaryParents := t.db.summaryParents.filter fun l => l.summaryId ∉ t.summaryIds } }
  | .summaryParentsByParent => { t with db := { t.db with
      summaryParents := t.db.summaryParents.filter fun l => l.parentSummaryId ∉ t.summaryIds } }
  | .contextItemsByMessage => { t with db := { t.db with
      contextItems := t.db.contextItems.filter fun i => i.ref ∉ t.messageIds.map .message } }
  | .contextItemsBySummary => { t with db := { t.db with
      contextItems := t.db.contextItems.filter fun i => i.ref ∉ t.summaryIds.map .summary } }
  | .contextItemsByConversation => { t with db := { t.db with
      contextItems := t.db.contextItems.filter fun i =>
        i.conversationId ∉ t.conversationIds } }
  | .deleteMirror mirror => { t with db := t.deleteMirror mirror }
  | .deleteConversations => { t with
      db := t.deleteConversations
      deletedConversations := (t.db.conversations.filter fun c =>
        c.conversationId ∈ t.conversationIds).length }
  | .backupRollback | .backupVacuumInto | .beginImmediate | .hasTable _ | .commit | .rollback
  | .vacuum | .walCheckpoint => t

/-- `_drop_temp_cleaner_tables`. -/
def cleanerTempTables : List CleanerTempTable :=
  [.firstMessages, .messageIds, .summaryIds, .conversationIds]

/-- `_stage_cleaner_conversation_ids` and the query of the counts. -/
def stagingStatements (definitions : List ScannedCleaner) : List CleanerStatement :=
  cleanerTempTables.map .clear ++
    [.create .conversationIds, .create .summaryIds, .create .messageIds] ++
    (if definitions.any (·.needsFirstMessage) then
      [.create .firstMessages, .fill .firstMessages] else []) ++
    [.fill .conversationIds, .fill .summaryIds, .fill .messageIds, .readDeleteCounts]

def DerivedDb.hasMirror (db : DerivedDb) : CleanerMirror → Bool
  | .messagesFts => db.messagesFts.isSome
  | .summariesFts => db.summariesFts.isSome
  | .summariesFtsCjk => db.summariesFtsCjk.isSome

def cleanerMirrors : List CleanerMirror :=
  [.messagesFts, .summariesFts, .summariesFtsCjk]

/-- `_delete_temp_cleaner_candidates`. -/
def deletionStatements (db : DerivedDb) : List CleanerStatement :=
  cleanerMirrors.map .hasTable ++
    [.summaryMessagesBySummary, .summaryMessagesByMessage, .summaryParentsBySummary,
      .summaryParentsByParent, .contextItemsByMessage, .contextItemsBySummary,
      .contextItemsByConversation] ++
    (cleanerMirrors.filter db.hasMirror).map .deleteMirror ++ [.deleteConversations]

/-- Nothing is deleted where no conversation matched. -/
def CleanerTables.deletion (t : CleanerTables) : List CleanerStatement :=
  if t.conversationCount > 0 then deletionStatements t.db else []

/-! ## The call -/

open Savepoint

namespace CleanerCall

variable (call : CleanerCall)

def cleaners : List ScannedCleaner :=
  getScannedCleaners call.filterIds

def sql : CleanerStatement → Statement CleanerTables
  | .beginImmediate => .beginTransaction
  | .commit => .commit
  | .rollback => .rollback
  | statement => .write (statement.update call)

def execute (statements : List CleanerStatement) (connection : Connection CleanerTables) :
    Connection CleanerTables × Option CleanerStatement :=
  script call.raises call.sql statements connection

/-- The body of the `try`. -/
def transaction (connection : Connection CleanerTables) :
    Connection CleanerTables × Option CleanerStatement :=
  let staged := call.execute (.beginImmediate :: stagingStatements call.cleaners) connection
  match staged.2 with
  | some _ => staged
  | none => call.execute (staged.1.content.deletion ++ [.commit]) staged.1

/-- The `except` with the exceptions so far. `ROLLBACK` raises only where the database has
rolled back by itself. -/
def undo (connection : Connection CleanerTables) (raised : Option CleanerStatement) :
    Connection CleanerTables × List CleanerStatement :=
  match raised with
  | none => (connection, [])
  | some statement =>
      match Savepoint.execute connection .rollback with
      | .error _ => (connection, [statement])
      | .ok connection =>
          (connection, statement :: if call.raises .rollback then [.rollback] else [])

/-- The transaction with its `except` and `finally`. -/
def attempt (connection : Connection CleanerTables) :
    Connection CleanerTables × List CleanerStatement :=
  let body := call.transaction connection
  let ended := call.undo body.1 body.2
  let dropped := call.execute (cleanerTempTables.map .drop) ended.1
  (dropped.1, ended.2 ++ dropped.2.toList)

/-- The compaction after a deletion, and the result. -/
def compact (connection : Connection CleanerTables) :
    DerivedDb × Except (List CleanerStatement) DoctorCleanerApplyResult :=
  let vacuumed := call.vacuum && connection.content.deletedConversations > 0
  let last := call.execute (if vacuumed then [.vacuum, .walCheckpoint] else []) connection
  match last.2 with
  | some statement => (last.1.content.db, .error [statement])
  | none => (last.1.content.db, .ok (.applied (call.cleaners.map (·.id))
      connection.content.deletedConversations connection.content.deletedMessages vacuumed))

/-- `apply_doctor_cleaners`. An error is the chain of the statements that raised, of which the
last one is raised to the caller. -/
def run (db : DerivedDb) :
    DerivedDb × Except (List CleanerStatement) DoctorCleanerApplyResult :=
  if call.cleaners = [] then
    (db, .ok (.unavailable "No valid doctor cleaner filters were selected."))
  else
    match call.backupFailure with
    | some reason => (db, .ok (.unavailable reason))
    | none =>
        let backup := call.execute [.backupRollback, .backupVacuumInto] (settled (.ofDb db))
        match backup.2 with
        | some statement => (backup.1.content.db, .error [statement])
        | none =>
            let ended := call.attempt backup.1
            match ended.2 with
            | first :: others => (ended.1.content.db, .error (first :: others))
            | [] => call.compact ended.1

/-- The run of the same call without statements that raise. -/
def whole (db : DerivedDb) : DerivedDb × DoctorCleanerApplyResult :=
  db.applyDoctorCleaners call.archivedAt call.backupFailure call.filterIds call.vacuum

/-- The conversations that one filter matches. -/
def matched (db : DerivedDb) (definition : CleanerDefinition) : List ConversationId :=
  db.cleanerConversationIds call.archivedAt [definition]

def cleanedIds (db : DerivedDb) : List ConversationId :=
  db.cleanerConversationIds call.archivedAt (getCleanerDefinitions call.filterIds)

/-! ## What the statements do together -/

/-- The tables after statements of which none raised. -/
def after (statements : List CleanerStatement) (t : CleanerTables) : CleanerTables :=
  statements.foldl (fun t statement => statement.update call t) t

/-- The ids that the staging selects, each once. -/
def stagedIds (db : DerivedDb) : List ConversationId :=
  ((call.cleaners.flatMap fun definition =>
    (call.matched db definition.toCleanerDefinition).map fun c => (definition.id, c)).map
      Prod.snd).dedup

/-- The content once the ids are staged and counted. -/
def staged (db : DerivedDb) (firstMessages : List (ConversationId × Option String)) :
    CleanerTables :=
  let ids := call.stagedIds db
  { db := db
    firstMessages := firstMessages
    conversationIds := ids
    summaryIds := db.cleanerSummaryIds ids
    messageIds := db.cleanerMessageIds ids
    conversationCount := ids.length
    deletedMessages := (db.cleanerMessageIds ids).length
    deletedConversations := 0 }

variable {call} {db : DerivedDb}

theorem after_append (first second : List CleanerStatement) (t : CleanerTables) :
    call.after (first ++ second) t = call.after second (call.after first t) :=
  List.foldl_append

theorem joined_firstMessages (c : ConversationId) :
    (Groups.joined Prod.fst (Groups.groupBy (fun m : MessageRecord => m.conversationId)
      (fun c messages => (c, earliestPreview messages)) db.messages) c).bind Prod.snd =
        db.firstMessagePreview c := by
  rw [Groups.joined_groupBy fun _ _ => rfl]
  split
  · rfl
  · rename_i hNone
    have hEmpty : db.firstMessagePreview c = earliestPreview [] :=
      congrArg earliestPreview (Groups.group_eq_nil_iff.mpr hNone)
    rw [hEmpty]
    rfl

theorem stagedIds_eq {preview : ConversationId → Option String}
    (hPreview : call.cleaners.any (·.needsFirstMessage) = true →
      ∀ c, preview c = db.firstMessagePreview c) :
    ((db.matchedConversations call.archivedAt call.cleaners preview).map Prod.snd).dedup =
      call.stagedIds db := by
  rw [OperatorDb.matchedConversations_eq fun definition hMem hNeeds c _ _ =>
    hPreview (List.any_eq_true.mpr ⟨definition, hMem, hNeeds⟩) c.conversationId]
  rfl

theorem after_stagingStatements :
    ∃ firstMessages, call.after (stagingStatements call.cleaners) (.ofDb db) =
      call.staged db firstMessages := by
  unfold stagingStatements staged
  cases hNeeds : call.cleaners.any (·.needsFirstMessage) with
  | true =>
    rw [← stagedIds_eq fun _ c => joined_firstMessages c]
    exact ⟨_, rfl⟩
  | false =>
    rw [← @stagedIds_eq call db
      (fun c => (Groups.joined Prod.fst ([] : List (ConversationId × Option String)) c).bind
        Prod.snd)
      fun hAny => absurd (hNeeds.symm.trans hAny) Bool.false_ne_true]
    exact ⟨_, rfl⟩

theorem filter_and {ρ : Type} (rows : List ρ) (p q : ρ → Prop) [DecidablePred p]
    [DecidablePred q] : (rows.filter fun r => p r ∧ q r) = (rows.filter p).filter q := by
  rw [List.filter_filter]
  exact List.filter_congr fun r _ => by rw [Bool.decide_and, Bool.and_comm]

/-- Each kind of reference loses the rows of either end. -/
def deleteReferences (t : CleanerTables) : CleanerTables :=
  { t with db := { t.db with
    summaryMessages := t.db.summaryMessages.filter fun l =>
      l.summaryId ∉ t.summaryIds ∧ l.messageId ∉ t.messageIds
    summaryParents := t.db.summaryParents.filter fun l =>
      l.summaryId ∉ t.summaryIds ∧ l.parentSummaryId ∉ t.summaryIds
    contextItems := t.db.contextItems.filter fun i =>
      !OperatorDb.isCleaned t.conversationIds t.summaryIds t.messageIds i } }

def deleteMirrors (t : CleanerTables) : CleanerTables :=
  { t with db := { t.db with
    messagesFts := t.db.messagesFts.map fun rows => rows.filter fun row => row.1 ∉ t.messageIds
    summariesFts := t.db.summariesFts.map fun rows => rows.filter fun row => row.1 ∉ t.summaryIds
    summariesFtsCjk := t.db.summariesFtsCjk.map fun rows =>
      rows.filter fun row => row.1 ∉ t.summaryIds } }

theorem after_referenceStatements (t : CleanerTables) :
    call.after [.summaryMessagesBySummary, .summaryMessagesByMessage, .summaryParentsBySummary,
      .summaryParentsByParent, .contextItemsByMessage, .contextItemsBySummary,
      .contextItemsByConversation] t = deleteReferences t := by
  have hItems : (t.db.contextItems.filter fun i =>
      !OperatorDb.isCleaned t.conversationIds t.summaryIds t.messageIds i) =
      ((t.db.contextItems.filter fun i => i.ref ∉ t.messageIds.map .message).filter
        fun i => i.ref ∉ t.summaryIds.map .summary).filter
          fun i => i.conversationId ∉ t.conversationIds := by
    rw [List.filter_filter, List.filter_filter]
    refine List.filter_congr fun i _ => ?_
    unfold OperatorDb.isCleaned
    cases i.ref <;> simp
  unfold deleteReferences
  rw [filter_and, filter_and, hItems]
  dsimp only [after, List.foldl_cons, List.foldl_nil, CleanerStatement.update]

theorem after_mirrorStatements (t : CleanerTables) :
    call.after ((cleanerMirrors.filter t.db.hasMirror).map .deleteMirror) t = deleteMirrors t := by
  obtain ⟨⟨rest, fts, summaries, cjk⟩, _, _, _, _, _, _, _⟩ := t
  cases fts <;> cases summaries <;> cases cjk <;> rfl

/-- The deletions in turn are one deletion. -/
theorem after_deletionStatements (firstMessages : List (ConversationId × Option String)) :
    call.after (deletionStatements db) (call.staged db firstMessages) =
      { call.staged db firstMessages with
        db := db.deleteCleanerCandidates (call.stagedIds db)
        deletedConversations := (db.conversations.filter fun c =>
          c.conversationId ∈ call.stagedIds db).length } := by
  have hProbes : call.after (cleanerMirrors.map .hasTable) (call.staged db firstMessages) =
      call.staged db firstMessages := rfl
  have hMirrors : db.hasMirror =
      (deleteReferences (call.staged db firstMessages)).db.hasMirror := by
    funext mirror
    cases mirror <;> rfl
  unfold deletionStatements
  rw [after_append, after_append, after_append, hProbes, after_referenceStatements, hMirrors,
    after_mirrorStatements]
  rfl

/-! ## The ids -/

/-- A deletion by ids asks which they are, not how they are listed. -/
theorem deleteCleanerCandidates_congr {ids ids' : List ConversationId}
    (hSame : ∀ c, c ∈ ids ↔ c ∈ ids') :
    db.deleteCleanerCandidates ids = db.deleteCleanerCandidates ids' := by
  simp only [DerivedDb.deleteCleanerCandidates, OperatorDb.deleteCleanerCandidates,
    OperatorDb.cleanerSummaryIds, OperatorDb.cleanerMessageIds, OperatorDb.isCleaned, hSame]
  rfl

theorem cleanerMessageIds_congr {ids ids' : List ConversationId}
    (hSame : ∀ c, c ∈ ids ↔ c ∈ ids') :
    db.cleanerMessageIds ids = db.cleanerMessageIds ids' := by
  simp only [OperatorDb.cleanerMessageIds, hSame]

/-- Each id that a cleaner selects is that of one row. -/
theorem length_filter_cleanedIds (hKeys : (db.conversations.map (·.conversationId)).Nodup) :
    (db.conversations.filter fun c => c.conversationId ∈ call.cleanedIds db).length =
      (call.cleanedIds db).length := by
  have hRows : (db.conversations.filter fun c => c.conversationId ∈ call.cleanedIds db) =
      db.conversations.filter fun c =>
        (getCleanerDefinitions call.filterIds).any fun definition => definition.predicate
          call.archivedAt (db.firstMessagePreview c.conversationId) c := by
    refine List.filter_congr fun c hRow => Bool.eq_iff_iff.mpr ?_
    rw [decide_eq_true_eq]
    constructor
    · intro hMem
      obtain ⟨row, hMatch, hId⟩ := List.mem_map.mp hMem
      obtain ⟨hOther, hMatch⟩ := List.mem_filter.mp hMatch
      rwa [List.inj_on_of_nodup_map hKeys hOther hRow hId] at hMatch
    · intro hMatch
      exact List.mem_map.mpr ⟨c, List.mem_filter.mpr ⟨hRow, hMatch⟩, rfl⟩
  rw [hRows, cleanedIds, OperatorDb.cleanerConversationIds, List.length_map]

/-! ## The transaction -/

/-- What the end of the call reads: the rows, and the numbers of deleted conversations and
messages. -/
def report (t : CleanerTables) : DerivedDb × Nat × Nat :=
  (t.db, t.deletedConversations, t.deletedMessages)

/-- The report where no statement raises. -/
def cleaned (call : CleanerCall) (db : DerivedDb) : DerivedDb × Nat × Nat :=
  let ids := call.cleanedIds db
  (if ids = [] then db else db.deleteCleanerCandidates ids, ids.length,
    (db.cleanerMessageIds ids).length)

/-- The deletion, if any, does what the report says. -/
theorem report_deletion (hKeys : (db.conversations.map (·.conversationId)).Nodup)
    {firstMessages : List (ConversationId × Option String)} {t : CleanerTables}
    (hStaged : t = call.staged db firstMessages) :
    report (call.after t.deletion t) = call.cleaned db := by
  subst hStaged
  have hSame : ∀ c, c ∈ call.stagedIds db ↔ c ∈ call.cleanedIds db := by
    intro c
    rw [cleanedIds, ← OperatorDb.map_getScannedCleaners]
    exact List.mem_dedup.trans OperatorDb.mem_snd_flatMap
  unfold cleaned CleanerTables.deletion
  by_cases hNone : call.stagedIds db = []
  · have hCleaned : call.cleanedIds db = [] := by
      refine List.eq_nil_iff_forall_not_mem.mpr fun c hMem => ?_
      exact List.eq_nil_iff_forall_not_mem.mp hNone c ((hSame c).mpr hMem)
    have hCount : ¬ (call.staged db firstMessages).conversationCount > 0 := by
      show ¬ (call.stagedIds db).length > 0
      rw [hNone]
      exact lt_irrefl 0
    rw [if_neg hCount]
    simp [after, report, staged, hNone, hCleaned]
  · have hCleaned : call.cleanedIds db ≠ [] := by
      obtain ⟨c, hMem⟩ := List.exists_mem_of_ne_nil _ hNone
      exact List.ne_nil_of_mem ((hSame c).mp hMem)
    have hCount : (call.staged db firstMessages).conversationCount > 0 :=
      List.length_pos_of_ne_nil hNone
    dsimp only
    rw [if_pos hCount, if_neg hCleaned, ← deleteCleanerCandidates_congr hSame,
      ← cleanerMessageIds_congr hSame, ← length_filter_cleanedIds hKeys]
    simp only [← hSame]
    exact congrArg report (after_deletionStatements firstMessages)

/-- The statement neither opens nor closes a transaction. -/
def isWrite : CleanerStatement → Bool
  | .beginImmediate | .commit | .rollback => false
  | _ => true

theorem sql_of_isWrite {s : CleanerStatement} (h : isWrite s = true) :
    call.sql s = .write (s.update call) := by
  cases s <;> first | rfl | cases h

theorem isWrite_stagingStatements {definitions : List ScannedCleaner} :
    ∀ s ∈ stagingStatements definitions, isWrite s = true ∧ s.uncommitted = true := by
  unfold stagingStatements
  cases definitions.any (·.needsFirstMessage) <;> decide

theorem isWrite_deletion {t : CleanerTables} :
    ∀ s ∈ t.deletion, isWrite s = true ∧ s.uncommitted = true := by
  have hMirrors : ∀ s ∈ cleanerMirrors.map .hasTable ++ ([.summaryMessagesBySummary,
      .summaryMessagesByMessage, .summaryParentsBySummary, .summaryParentsByParent,
      .contextItemsByMessage, .contextItemsBySummary, .contextItemsByConversation] :
        List CleanerStatement), isWrite s = true ∧ s.uncommitted = true := by
    decide
  intro s hMem
  unfold CleanerTables.deletion deletionStatements at hMem
  split at hMem
  · rw [List.mem_append, List.mem_append] at hMem
    rcases hMem with (hMem | hMem) | hMem
    · exact hMirrors s hMem
    · obtain ⟨mirror, -, rfl⟩ := List.mem_map.mp hMem
      exact ⟨rfl, rfl⟩
    · obtain rfl := List.mem_singleton.mp hMem
      exact ⟨rfl, rfl⟩
  · cases hMem

/-- The writes of the transaction either all go through, or one of them raises and the
transaction is open. -/
theorem execute_opened {statements : List CleanerStatement}
    (hWrites : ∀ s ∈ statements, isWrite s = true ∧ s.uncommitted = true)
    (before t : CleanerTables) :
    call.execute statements (opened before t) = (opened before (call.after statements t), none) ∨
      ∃ content s, s.uncommitted = true ∧ call.raises s = true ∧
        call.execute statements (opened before t) = (opened before content, some s) := by
  rcases @script_opened _ _ call.raises call.sql (CleanerStatement.update call) statements
    (fun s hMem => sql_of_isWrite (hWrites s hMem).1) before t with
    hAll | ⟨content, s, hMem, hRaises, hRun⟩
  · exact Or.inl hAll
  · exact Or.inr ⟨content, s, (hWrites s hMem).2, hRaises, hRun⟩

theorem execute_begin (statements : List CleanerStatement) (t : CleanerTables) :
    call.execute (.beginImmediate :: statements) (settled t) =
      if call.raises .beginImmediate then (settled t, some .beginImmediate)
      else call.execute statements (opened t t) := rfl

theorem execute_commit (before t : CleanerTables) :
    call.execute [.commit] (opened before t) =
      if call.raises .commit then (opened before t, some .commit) else (settled t, none) := rfl

/-- The transaction commits what the report says, or it ends with a statement that raised and
with what `BEGIN` saw to go back to. -/
theorem transaction_spec (hKeys : (db.conversations.map (·.conversationId)).Nodup) :
    (∃ t, report t = call.cleaned db ∧
        call.transaction (settled (.ofDb db)) = (settled t, none)) ∨
      ∃ s connection, s.uncommitted = true ∧ call.raises s = true ∧
        (connection = settled (.ofDb db) ∨ ∃ content, connection = opened (.ofDb db) content) ∧
        call.transaction (settled (.ofDb db)) = (connection, some s) := by
  unfold transaction
  rw [execute_begin]
  split
  · rename_i hBegin
    exact Or.inr ⟨_, _, rfl, hBegin, Or.inl rfl, rfl⟩
  · rcases execute_opened isWrite_stagingStatements (.ofDb db) (.ofDb db) with
      hStaged | ⟨content, s, hEarly, hRaises, hStaged⟩
    · obtain ⟨firstMessages, hAfter⟩ := @after_stagingStatements call db
      have hReport := report_deletion hKeys hAfter
      rw [hStaged]
      generalize call.after (stagingStatements call.cleaners) (.ofDb db) = t at hReport ⊢
      show (∃ t', _ ∧ call.execute (t.deletion ++ [.commit]) (opened (.ofDb db) t) = _) ∨
        ∃ s connection, _ ∧ _ ∧ _ ∧
          call.execute (t.deletion ++ [.commit]) (opened (.ofDb db) t) = _
      rw [execute, script_append, ← execute]
      rcases execute_opened (@isWrite_deletion t) (.ofDb db) t with
        hDeleted | ⟨content, s, hEarly, hRaises, hDeleted⟩
      · rw [hDeleted]
        dsimp only
        rw [← execute, execute_commit]
        split
        · rename_i hCommit
          exact Or.inr ⟨_, _, rfl, hCommit, Or.inr ⟨_, rfl⟩, rfl⟩
        · exact Or.inl ⟨_, hReport, rfl⟩
      · rw [hDeleted]
        exact Or.inr ⟨s, _, hEarly, hRaises, Or.inr ⟨content, rfl⟩, rfl⟩
    · rw [hStaged]
      exact Or.inr ⟨s, _, hEarly, hRaises, Or.inr ⟨content, rfl⟩, rfl⟩

/-! ## After the transaction -/

/-- The statements after the transaction leave the rows and the counts. -/
theorem report_update {s : CleanerStatement} (h : s.uncommitted = false) (t : CleanerTables) :
    report (s.update call t) = report t := by
  cases s with
  | drop table => cases table <;> rfl
  | rollback | vacuum | walCheckpoint => rfl
  | _ => cases h

theorem execute_late {statements : List CleanerStatement}
    (hLate : ∀ s ∈ statements, isWrite s = true ∧ s.uncommitted = false)
    (connection : Connection CleanerTables) :
    report (call.execute statements connection).1.content = report connection.content ∧
      ∀ s ∈ (call.execute statements connection).2,
        s.uncommitted = false ∧ call.raises s = true := by
  obtain ⟨hReport, -, hRaised⟩ := @script_view _ _ call.raises call.sql
    (CleanerStatement.update call) statements _ report
    (fun s hMem => sql_of_isWrite (hLate s hMem).1)
    (fun s hMem => report_update (hLate s hMem).2) connection
  exact ⟨hReport, fun s hMem => ⟨(hLate s (hRaised s hMem).1).2, (hRaised s hMem).2⟩⟩

/-- The statements of the backup leave the connection as it is. -/
theorem execute_backup (connection : Connection CleanerTables) :
    (call.execute [.backupRollback, .backupVacuumInto] connection).1 = connection ∧
      ∀ s ∈ (call.execute [.backupRollback, .backupVacuumInto] connection).2,
        s.uncommitted = true ∧ call.raises s = true := by
  have hEarly : ∀ s ∈ [CleanerStatement.backupRollback, .backupVacuumInto],
      isWrite s = true ∧ s.uncommitted = true := by decide
  obtain ⟨hContent, hTransaction, hRaised⟩ := @script_view _ _ call.raises call.sql
    (CleanerStatement.update call) [.backupRollback, .backupVacuumInto] _ id
    (fun s hMem => sql_of_isWrite (hEarly s hMem).1)
    (fun s hMem t => by rcases List.mem_pair.mp hMem with rfl | rfl <;> rfl) connection
  refine ⟨?_, fun s hMem => ⟨(hEarly s (hRaised s hMem).1).2, (hRaised s hMem).2⟩⟩
  unfold execute
  generalize script call.raises call.sql _ connection = run at hContent hTransaction ⊢
  obtain ⟨⟨content, transaction⟩, raised⟩ := run
  obtain rfl : content = connection.content := hContent
  obtain rfl : transaction = connection.transaction := hTransaction
  rfl

/-- The report is that of the whole run, and what raised came after `COMMIT`; or the rows are
those before the call. -/
theorem attempt_spec (hKeys : (db.conversations.map (·.conversationId)).Nodup) :
    (report (call.attempt (settled (.ofDb db))).1.content = call.cleaned db ∧
      ∀ s ∈ (call.attempt (settled (.ofDb db))).2, s.uncommitted = false ∧ call.raises s = true) ∨
    ((call.attempt (settled (.ofDb db))).1.content.db = db ∧
      ∃ s ∈ (call.attempt (settled (.ofDb db))).2, s.uncommitted = true ∧ call.raises s = true) := by
  have hDrops := @execute_late call (cleanerTempTables.map .drop) (by decide)
  unfold attempt
  rcases @transaction_spec call db hKeys with
    ⟨t, hReport, hRun⟩ | ⟨s, connection, hEarly, hRaises, hConnection, hRun⟩
  · rw [hRun]
    obtain ⟨hKept, hRaised⟩ := hDrops (settled t)
    exact Or.inl ⟨hKept.trans hReport, fun s hMem => hRaised s (Option.mem_toList.mp hMem)⟩
  · have hUndone : (call.undo connection (some s)).1 = settled (.ofDb db) ∧
        s ∈ (call.undo connection (some s)).2 := by
      rcases hConnection with rfl | ⟨content, rfl⟩
      · exact ⟨rfl, List.mem_cons_self⟩
      · exact ⟨rfl, List.mem_cons_self⟩
    rw [hRun]
    dsimp only
    obtain ⟨hKept, -⟩ := hDrops (call.undo connection (some s)).1
    rw [hUndone.1] at hKept ⊢
    exact Or.inr ⟨congrArg Prod.fst hKept, s, List.mem_append_left _ hUndone.2, hEarly, hRaises⟩

theorem compact_spec (connection : Connection CleanerTables) :
    call.compact connection = (connection.content.db, .ok (.applied (call.cleaners.map (·.id))
        connection.content.deletedConversations connection.content.deletedMessages
        (call.vacuum && connection.content.deletedConversations > 0))) ∨
      ∃ s, s.uncommitted = false ∧ call.raises s = true ∧
        call.compact connection = (connection.content.db, .error [s]) := by
  have hLate : ∀ s ∈ (if (call.vacuum && decide (connection.content.deletedConversations > 0)) =
      true then [CleanerStatement.vacuum, .walCheckpoint] else []),
      isWrite s = true ∧ s.uncommitted = false := by
    split
    · decide
    · exact fun s hMem => nomatch hMem
  obtain ⟨hReport, hRaised⟩ := @execute_late call _ hLate connection
  unfold compact
  dsimp only
  generalize call.execute _ connection = last at hReport hRaised ⊢
  obtain ⟨after, raised⟩ := last
  have hRows : after.content.db = connection.content.db := congrArg Prod.fst hReport
  dsimp only
  rw [hRows]
  cases raised with
  | none => exact Or.inl rfl
  | some s =>
    obtain ⟨hUncommitted, hRaises⟩ := hRaised s rfl
    exact Or.inr ⟨s, hUncommitted, hRaises, rfl⟩

/-! ## The call as a whole -/

theorem whole_eq (hCleaners : call.cleaners ≠ []) (hBackup : call.backupFailure = none) :
    call.whole db = ((call.cleaned db).1, .applied (call.cleaners.map (·.id))
      (call.cleaned db).2.1 (call.cleaned db).2.2
      (call.vacuum && (call.cleaned db).2.1 > 0)) := by
  have hDefinitions := OperatorDb.map_getScannedCleaners call.filterIds
  have hNames : call.cleaners.map (·.id) = (getCleanerDefinitions call.filterIds).map (·.id) := by
    rw [← hDefinitions, List.map_map]
    rfl
  unfold whole DerivedDb.applyDoctorCleaners cleaned cleanedIds
  rw [hBackup, hNames]
  cases hSome : getCleanerDefinitions call.filterIds with
  | nil =>
    rw [hSome, List.map_eq_nil_iff] at hDefinitions
    exact absurd hDefinitions hCleaners
  | cons definition definitions => simp only [gt_iff_lt, List.length_pos_iff]

/-- A call does what a call in which no statement raises does; or it ends with an error, and
before `COMMIT` the rows are those before the call. -/
theorem run_spec (hKeys : (db.conversations.map (·.conversationId)).Nodup) :
    call.run db = ((call.whole db).1, .ok (call.whole db).2) ∨
      ∃ s chain, s ∈ chain ∧ call.raises s = true ∧
        (call.run db = (db, .error chain) ∧ s.uncommitted = true ∨
          call.run db = ((call.whole db).1, .error chain) ∧ call.backupFailure = none ∧
            ∀ s ∈ chain, s.uncommitted = false) := by
  unfold run
  split
  · rename_i hNone
    have hSome : getCleanerDefinitions call.filterIds = [] := by
      rw [← OperatorDb.map_getScannedCleaners, List.map_eq_nil_iff]
      exact hNone
    unfold whole DerivedDb.applyDoctorCleaners
    rw [hSome]
    exact Or.inl rfl
  · rename_i hCleaners
    cases hBackup : call.backupFailure with
    | some reason =>
      have hSome : getCleanerDefinitions call.filterIds ≠ [] := by
        rw [← OperatorDb.map_getScannedCleaners, Ne, List.map_eq_nil_iff]
        exact hCleaners
      unfold whole DerivedDb.applyDoctorCleaners
      rw [hBackup]
      cases hDefinitions : getCleanerDefinitions call.filterIds with
      | nil => exact absurd hDefinitions hSome
      | cons definition definitions => exact Or.inl rfl
    | none =>
      obtain ⟨hSame, hBackupRaised⟩ := @execute_backup call (settled (.ofDb db))
      dsimp only
      rw [hSame, whole_eq hCleaners hBackup]
      cases hRaised : (call.execute [.backupRollback, .backupVacuumInto]
        (settled (.ofDb db))).2 with
      | some s =>
        obtain ⟨hEarly, hRaises⟩ := hBackupRaised s hRaised
        exact Or.inr ⟨s, [s], List.mem_cons_self, hRaises, Or.inl ⟨rfl, hEarly⟩⟩
      | none =>
        dsimp only
        have hSpec := @attempt_spec call db hKeys
        generalize call.attempt (settled (.ofDb db)) = ended at hSpec ⊢
        obtain ⟨connection, chain⟩ := ended
        rcases hSpec with ⟨hReport, hLate⟩ | ⟨hRows, s, hMem, hEarly, hRaises⟩
        · rw [← hReport]
          cases chain with
          | cons first others =>
            exact Or.inr ⟨first, _, List.mem_cons_self, (hLate first List.mem_cons_self).2,
              Or.inr ⟨rfl, rfl, fun s hMem => (hLate s hMem).1⟩⟩
          | nil =>
            rcases compact_spec connection with hRun | ⟨s, hUncommitted, hRaises, hRun⟩
            · exact Or.inl hRun
            · refine Or.inr ⟨s, [s], List.mem_cons_self, hRaises, Or.inr ⟨hRun, rfl, ?_⟩⟩
              rintro other hMem
              rw [List.mem_singleton.mp hMem, hUncommitted]
        · cases chain with
          | nil => cases hMem
          | cons first others =>
            have hRows : connection.content.db = db := hRows
            dsimp only
            rw [hRows]
            exact Or.inr ⟨s, _, hMem, hRaises, Or.inl ⟨rfl, hEarly⟩⟩

end CleanerCall
end LosslessHermes
