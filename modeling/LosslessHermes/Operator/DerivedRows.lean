import LosslessHermes.Extraction.Coreference
import LosslessHermes.Synthesis.Staleness

/-!
# Derived rows after a deletion

The tables that are derived from summaries and messages: vectors and their metadata, the
full-text mirrors, the extraction queue, the entities with their mentions, and the leaf
references of the caches. `apply_doctor_cleaners` deletes their rows by statements of its own,
by cascades or by triggers.

`consistent_applyDoctorCleaners_iff` says when the remaining rows still refer to what exists and
count their mentions: a cascade takes mentions, and no statement lowers a count.
-/

namespace LosslessHermes

/-- A full-text mirror is missing where FTS5 is. -/
structure DerivedDb extends ExtractionDb where
  messagesFts : Option (List (MessageId × String))
  summariesFts : Option (List (SummaryId × String))
  summariesFtsCjk : Option (List (SummaryId × String))

namespace DerivedDb

/-! ## The deletion -/

/-- `first_seen_in_summary_id` is set to `NULL` where mentions and queue rows go. -/
def deleteCleanerCandidates (db : DerivedDb) (conversationIds : List ConversationId) :
    DerivedDb :=
  let summaryIds := db.cleanerSummaryIds conversationIds
  let messageIds := db.cleanerMessageIds conversationIds
  { db with
    toOperatorDb := db.toOperatorDb.deleteCleanerCandidates conversationIds
    queue := db.queue.filter fun q => q.leafId ∉ summaryIds
    entities := db.entities.map fun e =>
      if e.firstSeenInSummaryId.any (· ∈ summaryIds) then { e with firstSeenInSummaryId := none }
      else e
    mentions := db.mentions.filter fun m => m.summaryId ∉ summaryIds
    messagesFts := db.messagesFts.map fun rows => rows.filter fun row => row.1 ∉ messageIds
    summariesFts := db.summariesFts.map fun rows => rows.filter fun row => row.1 ∉ summaryIds
    summariesFtsCjk := db.summariesFtsCjk.map fun rows =>
      rows.filter fun row => row.1 ∉ summaryIds }

def applyDoctorCleaners (db : DerivedDb) (archivedAt : ConversationId → Option Timestamp)
    (backupFailure : Option String) (filterIds : List String) (vacuum : Bool) :
    DerivedDb × DoctorCleanerApplyResult :=
  match getCleanerDefinitions filterIds with
  | [] => (db, .unavailable "No valid doctor cleaner filters were selected.")
  | definitions =>
      match backupFailure with
      | some reason => (db, .unavailable reason)
      | none =>
          let conversationIds := db.cleanerConversationIds archivedAt definitions
          let db' :=
            if conversationIds = [] then db else db.deleteCleanerCandidates conversationIds
          (db', .applied (definitions.map (·.id)) conversationIds.length
            (db.cleanerMessageIds conversationIds).length (vacuum && conversationIds ≠ []))

/-- The same call, as the operator's tables show it. -/
theorem toOperatorDb_applyDoctorCleaners (db : DerivedDb)
    (archivedAt : ConversationId → Option Timestamp) (backupFailure : Option String)
    (filterIds : List String) (vacuum : Bool) :
    ((db.applyDoctorCleaners archivedAt backupFailure filterIds vacuum).1.toOperatorDb,
        (db.applyDoctorCleaners archivedAt backupFailure filterIds vacuum).2) =
      db.toOperatorDb.applyDoctorCleaners archivedAt backupFailure filterIds vacuum := by
  unfold applyDoctorCleaners OperatorDb.applyDoctorCleaners
  cases getCleanerDefinitions filterIds with
  | nil => rfl
  | cons definition definitions =>
    cases backupFailure with
    | some reason => rfl
    | none =>
      dsimp only
      refine Prod.ext ?_ rfl
      dsimp only
      split <;> rfl

/-! ## Consistency -/

def HasSummary (db : DerivedDb) (id : SummaryId) : Prop :=
  ∃ s ∈ db.summaries, s.summaryId = id

def HasMessage (db : DerivedDb) (id : MessageId) : Prop :=
  ∃ m ∈ db.messages, m.messageId = id

/-- Vectors and metadata of other kinds refer to no summary. -/
structure Consistent (db : DerivedDb) : Prop where
  counts : ∀ e ∈ db.entities, e.occurrenceCount =
    (db.mentions.filter fun m => m.entityId = e.entityId).length
  vectors : ∀ v ∈ db.embeddings.vectors, v.embeddedKind = .summary → db.HasSummary v.embeddedId
  metaRows : ∀ m ∈ db.embeddings.metaRows, m.embeddedKind = .summary →
    db.HasSummary m.embeddedId
  messagesFts : ∀ rows, db.messagesFts = some rows → ∀ row ∈ rows, db.HasMessage row.1
  summariesFts : ∀ rows, db.summariesFts = some rows → ∀ row ∈ rows, db.HasSummary row.1
  summariesFtsCjk : ∀ rows, db.summariesFtsCjk = some rows → ∀ row ∈ rows, db.HasSummary row.1
  queue : ∀ q ∈ db.queue, db.HasSummary q.leafId
  mentions : ∀ m ∈ db.mentions, db.HasSummary m.summaryId
  leafRefs : ∀ ref ∈ db.synthesis.leafRefs, db.HasSummary ref.leafSummaryId

/-- No entity has a mention in the summaries, and no vector of theirs is in a table whose
triggers were dropped. -/
structure Spared (db : DerivedDb) (summaryIds : List SummaryId) : Prop where
  mentions : ∀ e ∈ db.entities, ∀ m ∈ db.mentions, m.entityId = e.entityId →
    m.summaryId ∉ summaryIds
  vectors : ∀ v ∈ db.embeddings.vectors, v.embeddedKind = .summary →
    v.embeddedId ∈ summaryIds → db.triggersOn v.table = true

variable {db : DerivedDb} {conversationIds : List ConversationId}

/-! ## What remains -/

theorem hasSummary_deleteCleanerCandidates {id : SummaryId} (h : db.HasSummary id)
    (hOut : id ∉ db.cleanerSummaryIds conversationIds) :
    (db.deleteCleanerCandidates conversationIds).HasSummary id := by
  obtain ⟨s, hMem, hId⟩ := h
  refine ⟨s, List.mem_filter.mpr ⟨hMem, decide_eq_true fun hIn => hOut ?_⟩, hId⟩
  exact OperatorDb.mem_cleanerSummaryIds.mpr ⟨s, hMem, hId, hIn⟩

theorem hasMessage_deleteCleanerCandidates {id : MessageId} (h : db.HasMessage id)
    (hOut : id ∉ db.cleanerMessageIds conversationIds) :
    (db.deleteCleanerCandidates conversationIds).HasMessage id := by
  obtain ⟨m, hMem, hId⟩ := h
  refine ⟨m, List.mem_filter.mpr ⟨hMem, decide_eq_true fun hIn => hOut ?_⟩, hId⟩
  exact List.mem_map.mpr ⟨m, List.mem_filter.mpr ⟨hMem, decide_eq_true hIn⟩, hId⟩

/-- A summary of which the id was staged is gone. -/
theorem not_hasSummary_deleteCleanerCandidates (hKeyed : db.toOperatorDb.Keyed) {id : SummaryId}
    (hIn : id ∈ db.cleanerSummaryIds conversationIds) :
    ¬ (db.deleteCleanerCandidates conversationIds).HasSummary id := by
  rintro ⟨s, hMem, hId⟩
  obtain ⟨hOld, hKept⟩ := List.mem_filter.mp hMem
  obtain ⟨row, hRow, hRowId, hConversation⟩ := OperatorDb.mem_cleanerSummaryIds.mp hIn
  have hSame : s = row :=
    List.inj_on_of_nodup_map hKeyed.summaries hOld hRow (hId.trans hRowId.symm)
  exact of_decide_eq_true hKept (hSame ▸ hConversation)

/-- A cascade that touches an entity keeps its id and its count. -/
theorem forall_entities_deleteCleanerCandidates {P : String → Nat → Prop} :
    (∀ e ∈ (db.deleteCleanerCandidates conversationIds).entities,
      P e.entityId e.occurrenceCount) ↔
      ∀ e ∈ db.entities, P e.entityId e.occurrenceCount := by
  refine List.forall_mem_map.trans (forall₂_congr fun e _ => ?_)
  split
  · exact Iff.rfl
  · exact Iff.rfl

/-- The mentions of an entity that are left. -/
theorem filter_mentions_deleteCleanerCandidates (entityId : String) :
    ((db.deleteCleanerCandidates conversationIds).mentions.filter fun m =>
      m.entityId = entityId) =
      (db.mentions.filter fun m => m.entityId = entityId).filter fun m =>
        m.summaryId ∉ db.cleanerSummaryIds conversationIds := by
  show (db.mentions.filter _).filter _ = _
  rw [List.filter_filter, List.filter_filter]
  exact List.filter_congr fun m _ => Bool.and_comm _ _

/-- A count stays right exactly if no mention of the entity goes. -/
theorem counts_deleteCleanerCandidates_iff
    (h : ∀ e ∈ db.entities, e.occurrenceCount =
      (db.mentions.filter fun m => m.entityId = e.entityId).length) :
    (∀ e ∈ (db.deleteCleanerCandidates conversationIds).entities, e.occurrenceCount =
      ((db.deleteCleanerCandidates conversationIds).mentions.filter fun m =>
        m.entityId = e.entityId).length) ↔
      ∀ e ∈ db.entities, ∀ m ∈ db.mentions, m.entityId = e.entityId →
        m.summaryId ∉ db.cleanerSummaryIds conversationIds := by
  rw [forall_entities_deleteCleanerCandidates (P := fun entityId count => count =
    ((db.deleteCleanerCandidates conversationIds).mentions.filter fun m =>
      m.entityId = entityId).length)]
  refine forall₂_congr fun e hEntity => ?_
  rw [filter_mentions_deleteCleanerCandidates, h e hEntity, eq_comm,
    List.length_filter_eq_length_iff]
  constructor
  · intro hKept m hMention hOf
    exact of_decide_eq_true (hKept m (List.mem_filter.mpr ⟨hMention, decide_eq_true hOf⟩))
  · intro hKept m hMention
    obtain ⟨hMention, hOf⟩ := List.mem_filter.mp hMention
    exact decide_eq_true (hKept m hMention (of_decide_eq_true hOf))

/-- A vector of a staged summary stays exactly if its table has no trigger. -/
theorem vectors_deleteCleanerCandidates_iff (hKeyed : db.toOperatorDb.Keyed)
    (h : ∀ v ∈ db.embeddings.vectors, v.embeddedKind = .summary → db.HasSummary v.embeddedId) :
    (∀ v ∈ (db.deleteCleanerCandidates conversationIds).embeddings.vectors,
      v.embeddedKind = .summary →
        (db.deleteCleanerCandidates conversationIds).HasSummary v.embeddedId) ↔
      ∀ v ∈ db.embeddings.vectors, v.embeddedKind = .summary →
        v.embeddedId ∈ db.cleanerSummaryIds conversationIds → db.triggersOn v.table = true := by
  constructor
  · intro hAfter v hVector hKind hStaged
    by_contra hOff
    refine not_hasSummary_deleteCleanerCandidates hKeyed hStaged
      (hAfter v (List.mem_filter.mpr ⟨hVector, ?_⟩) hKind)
    rw [Bool.eq_false_iff.mpr hOff, Bool.and_false, Bool.not_false]
  · intro hOn v hVector hKind
    obtain ⟨hOld, hKept⟩ := List.mem_filter.mp hVector
    refine hasSummary_deleteCleanerCandidates (h v hOld hKind) fun hStaged => ?_
    rw [hKind, decide_eq_true rfl, decide_eq_true hStaged, hOn v hOld hKind hStaged] at hKept
    cases hKept

/-- The rows of a full-text mirror of summaries. -/
theorem hasSummary_of_mirror {rows : Option (List (SummaryId × String))}
    (h : ∀ old, rows = some old → ∀ row ∈ old, db.HasSummary row.1) :
    ∀ new, (rows.map fun old => old.filter fun row =>
        row.1 ∉ db.cleanerSummaryIds conversationIds) = some new →
      ∀ row ∈ new, (db.deleteCleanerCandidates conversationIds).HasSummary row.1 := by
  intro new hNew row hRow
  obtain ⟨old, hOld, rfl⟩ := Option.map_eq_some_iff.mp hNew
  obtain ⟨hMem, hOut⟩ := List.mem_filter.mp hRow
  exact hasSummary_deleteCleanerCandidates (h old hOld row hMem) (of_decide_eq_true hOut)

/-! ## The deletion keeps the rest -/

theorem consistent_deleteCleanerCandidates_iff (h : db.Consistent)
    (hKeyed : db.toOperatorDb.Keyed) :
    (db.deleteCleanerCandidates conversationIds).Consistent ↔
      db.Spared (db.cleanerSummaryIds conversationIds) := by
  constructor
  · intro hAfter
    exact ⟨(counts_deleteCleanerCandidates_iff h.counts).mp hAfter.counts,
      (vectors_deleteCleanerCandidates_iff hKeyed h.vectors).mp hAfter.vectors⟩
  · intro hSpared
    refine ⟨(counts_deleteCleanerCandidates_iff h.counts).mpr hSpared.mentions,
      (vectors_deleteCleanerCandidates_iff hKeyed h.vectors).mpr hSpared.vectors,
      ?_, ?_, hasSummary_of_mirror h.summariesFts, hasSummary_of_mirror h.summariesFtsCjk,
      ?_, ?_, ?_⟩
    · intro m hMem hKind
      obtain ⟨hOld, hKept⟩ := List.mem_filter.mp hMem
      refine hasSummary_deleteCleanerCandidates (h.metaRows m hOld hKind) fun hStaged => ?_
      rw [hKind, decide_eq_true rfl, decide_eq_true hStaged] at hKept
      cases hKept
    · intro new hNew row hRow
      obtain ⟨old, hOld, rfl⟩ := Option.map_eq_some_iff.mp hNew
      obtain ⟨hMem, hOut⟩ := List.mem_filter.mp hRow
      exact hasMessage_deleteCleanerCandidates (h.messagesFts old hOld row hMem)
        (of_decide_eq_true hOut)
    · intro q hMem
      obtain ⟨hOld, hOut⟩ := List.mem_filter.mp hMem
      exact hasSummary_deleteCleanerCandidates (h.queue q hOld) (of_decide_eq_true hOut)
    · intro m hMem
      obtain ⟨hOld, hOut⟩ := List.mem_filter.mp hMem
      exact hasSummary_deleteCleanerCandidates (h.mentions m hOld) (of_decide_eq_true hOut)
    · intro ref hMem
      obtain ⟨hOld, hOut⟩ := List.mem_filter.mp hMem
      exact hasSummary_deleteCleanerCandidates (h.leafRefs ref hOld) (of_decide_eq_true hOut)

theorem spared_nil : db.Spared [] :=
  ⟨fun _ _ _ _ _ => List.not_mem_nil, fun _ _ _ hStaged => absurd hStaged List.not_mem_nil⟩

/-- After a call of the cleaners the derived rows are consistent exactly if the deleted
summaries have no mention, and no vector that outlives them. -/
theorem consistent_applyDoctorCleaners_iff (h : db.Consistent) (hKeyed : db.toOperatorDb.Keyed)
    (archivedAt : ConversationId → Option Timestamp) (backupFailure : Option String)
    (filterIds : List String) (vacuum : Bool) :
    (db.applyDoctorCleaners archivedAt backupFailure filterIds vacuum).1.Consistent ↔
      (backupFailure = none → db.Spared (db.cleanedSummaryIds archivedAt filterIds)) := by
  unfold applyDoctorCleaners OperatorDb.cleanedSummaryIds
  cases hDefinitions : getCleanerDefinitions filterIds with
  | nil =>
    have hNone : db.cleanerSummaryIds (db.cleanerConversationIds archivedAt []) = [] := by
      simp [OperatorDb.cleanerConversationIds, OperatorDb.cleanerSummaryIds]
    rw [hNone]
    exact iff_of_true h fun _ => spared_nil
  | cons definition definitions =>
    cases backupFailure with
    | some reason => exact iff_of_true h fun hBackup => absurd hBackup (Option.some_ne_none _)
    | none =>
      rw [forall_prop_of_true rfl]
      dsimp only
      split
      · rename_i hNone
        rw [hNone]
        refine iff_of_true h ?_
        have hStaged : db.cleanerSummaryIds [] = [] := by
          simp [OperatorDb.cleanerSummaryIds]
        rw [hStaged]
        exact spared_nil
      · exact consistent_deleteCleanerCandidates_iff h hKeyed

/-! ## An entity of two conversations -/

/-- An entity with a mention in a scheduled session and one in the main session. -/
def sharedEntity : DerivedDb :=
  { OperatorDb.ofDb { Db.empty with
      conversations := [⟨1, "s1", some "agent:main:cron:nightly", true, 0⟩,
        ⟨2, "s2", some "agent:main:main", true, 0⟩]
      summaries := [⟨"cron", 1, .leaf, 0, "", 1, [], none, none, 0, 0, 1, "m", 0, none⟩,
        ⟨"main", 2, .leaf, 0, "", 1, [], none, none, 0, 0, 1, "m", 0, none⟩] } with
    queue := []
    entities := [⟨"ent_1", "agent:main:main", "PR 7", "pr_number", 0, 1, some "cron", 2⟩]
    mentions := [⟨"men_1", "ent_1", "cron", "PR 7", none, none, 0⟩,
      ⟨"men_2", "ent_1", "main", "PR 7", none, none, 1⟩]
    entityTypes := []
    messagesFts := some []
    summariesFts := some [("cron", ""), ("main", "")]
    summariesFtsCjk := none }

theorem consistent_sharedEntity : sharedEntity.Consistent := by
  have hMain : sharedEntity.HasSummary "main" := ⟨_, .tail _ (.head _), rfl⟩
  have hCron : sharedEntity.HasSummary "cron" := ⟨_, .head _, rfl⟩
  constructor
  · decide
  · exact fun _ hMem => nomatch hMem
  · exact fun _ hMem => nomatch hMem
  · rintro rows ⟨⟩ row hRow
    cases hRow
  · rintro rows ⟨⟩ row hRow
    rcases List.mem_pair.mp hRow with rfl | rfl
    · exact hCron
    · exact hMain
  · exact fun _ hRows => nomatch hRows
  · exact fun _ hMem => nomatch hMem
  · intro m hMem
    rcases List.mem_pair.mp hMem with rfl | rfl
    · exact hCron
    · exact hMain
  · exact fun _ hMem => nomatch hMem

theorem keyed_sharedEntity : sharedEntity.toOperatorDb.Keyed :=
  ⟨by decide, by decide⟩

/-- After the cleaner the entity counts two mentions and has one. -/
theorem count_of_deleted_mention :
    sharedEntity.Consistent ∧
      (sharedEntity.applyDoctorCleaners (fun _ => none) none ["cron_sessions"] false).2 =
        .applied ["cron_sessions"] 1 0 false ∧
      ((sharedEntity.applyDoctorCleaners (fun _ => none) none ["cron_sessions"]
        false).1.entities.map (·.occurrenceCount)) = [2] ∧
      ((sharedEntity.applyDoctorCleaners (fun _ => none) none ["cron_sessions"]
        false).1.mentions.map (·.mentionId)) = ["men_2"] ∧
      ¬ (sharedEntity.applyDoctorCleaners (fun _ => none) none ["cron_sessions"]
        false).1.Consistent := by
  refine ⟨consistent_sharedEntity, by decide +kernel, by decide +kernel, by decide +kernel,
    fun hAfter => ?_⟩
  exact absurd hAfter.counts (by decide +kernel)

theorem consistent_applyDoctorCleaners_sharedEntity :
    (sharedEntity.applyDoctorCleaners (fun _ => none) none ["archived_subagents"]
        true).1.Consistent ↔
      ((none : Option String) = none → sharedEntity.Spared
        (sharedEntity.cleanedSummaryIds (fun _ => none) ["archived_subagents"])) :=
  consistent_applyDoctorCleaners_iff consistent_sharedEntity keyed_sharedEntity (fun _ => none)
    none ["archived_subagents"] true

end DerivedDb
end LosslessHermes
