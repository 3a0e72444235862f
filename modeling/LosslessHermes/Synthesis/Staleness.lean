import LosslessHermes.Synthesis.Around
import LosslessHermes.Operator.Ancestors

/-!
# Cached syntheses and their leaves

A purge finds the rows of the cache that it has to delete through their leaf
references, which a call records only after its row is ready; a cleaner deletes the
references of its summaries and no row. `noneStale_iff` says in which runs of calls,
purges and cleaners no ready row outlives one of its source leaves.
-/

namespace LosslessHermes

namespace OperatorDb

/-- The summary exists and is not suppressed. -/
def IsLive (db : OperatorDb) (s : SummaryId) : Prop :=
  (∃ row ∈ db.summaries, row.summaryId = s) ∧ ¬ db.isSuppressed s

/-- The source leaves of a ready row are live. -/
def NoneStale (db : OperatorDb) : Prop :=
  ∀ row ∈ db.synthesis.cache, row.status = .ready → ∀ s ∈ row.sourceLeafIds, db.IsLive s

/-- The summaries that the cleaners delete. -/
def cleanedSummaryIds (db : OperatorDb) (archivedAt : ConversationId → Option Timestamp)
    (filterIds : List String) : List SummaryId :=
  db.cleanerSummaryIds (db.cleanerConversationIds archivedAt (getCleanerDefinitions filterIds))

end OperatorDb

/-- The update of `setReady` would take the key of another row. -/
def SynthesisTables.takesKey (db : SynthesisTables) (cacheId promptId : String) : Bool :=
  db.cache.any fun row => row.cacheId = cacheId ∧ db.cache.any fun other =>
    other.cacheId ≠ cacheId ∧ other.key.indexed = { row.key with promptId := promptId }.indexed

/-- The row that a call sets ready has live sources; a purge has a reference from
every ready row with a source among its leaves to one of them; the cleaners delete no
source of a ready row. -/
def SynthesisState.Careful (state : SynthesisState) : SynthesisAction → Prop
  | .finish call (.output _ promptId) refused =>
      refused = false → ∀ value, state.calls call = some value → value.phase = .building →
        state.db.synthesis.takesKey value.cacheId promptId = false →
          ∀ row ∈ state.db.synthesis.cache, row.cacheId = value.cacheId →
            ∀ s ∈ row.sourceLeafIds, state.db.IsLive s
  | .purge request =>
      ∀ row ∈ state.db.synthesis.cache, row.status = .ready →
        (∃ s ∈ row.sourceLeafIds, s ∈ state.db.targets request) →
          state.db.synthesis.refersTo (state.db.targets request) row.cacheId
  | .clean archivedAt backupFailure filterIds _ =>
      backupFailure = none → ∀ row ∈ state.db.synthesis.cache, row.status = .ready →
        ∀ s ∈ row.sourceLeafIds, s ∉ state.db.cleanedSummaryIds archivedAt filterIds
  | _ => True

/-- A row is inserted as one that is being built. -/
theorem SynthesisTables.ready_insertCacheRow (db : SynthesisTables) {now : Timestamp}
    {cacheId : String} {key : CacheKey} {leafIds : List SummaryId} {row : CacheRow}
    (hRow : row ∈ (db.insertCacheRowSingleFlight now cacheId key leafIds).1.cache)
    (hReady : row.status = .ready) : row ∈ db.cache := by
  unfold insertCacheRowSingleFlight at hRow
  split at hRow
  · exact hRow
  · rcases List.mem_append.mp hRow with hOld | hNew
    · exact hOld
    · rw [List.mem_singleton.mp hNew] at hReady
      cases hReady

theorem SynthesisTables.cache_insertLeafRef (db : SynthesisTables) (cacheId : String)
    (leafId : SummaryId) : (db.insertLeafRef cacheId leafId).cache = db.cache := by
  unfold insertLeafRef
  split <;> rfl

/-! ## Live summaries -/

namespace OperatorDb

variable {db db' : OperatorDb} {s : SummaryId}

theorem isLive_congr (h : db'.summaries = db.summaries) : db'.IsLive s ↔ db.IsLive s := by
  unfold IsLive isSuppressed
  rw [h]

theorem isLive_purge (request : PurgeRequest) :
    (db.purge request).IsLive s ↔ db.IsLive s ∧ s ∉ db.targets request := by
  unfold IsLive
  rw [isSuppressed_iff, isSuppressed_iff, purge_summaries]
  constructor
  · rintro ⟨⟨row, hRow, hId⟩, hNot⟩
    obtain ⟨old, hOld, rfl⟩ := List.mem_map.mp hRow
    rw [suppress_id] at hId
    have hNone : ∀ old ∈ db.summaries, old.summaryId = s →
        s ∉ db.targets request ∧ old.suppressedAt = none := by
      intro old hOld hId
      by_contra hSome
      refine hNot ⟨_, List.mem_map_of_mem hOld, (suppress_id _ _ _).trans hId, fun hNone => ?_⟩
      rw [suppress_isNone, hId] at hNone
      exact hSome hNone
    refine ⟨⟨⟨old, hOld, hId⟩, ?_⟩, (hNone old hOld hId).1⟩
    rintro ⟨row, hRow, hRowId, hSome⟩
    exact hSome (hNone row hRow hRowId).2
  · rintro ⟨⟨⟨row, hRow, hId⟩, hNot⟩, hOut⟩
    refine ⟨⟨_, List.mem_map_of_mem hRow, (suppress_id _ _ _).trans hId⟩, ?_⟩
    rintro ⟨new, hNew, hNewId, hSome⟩
    obtain ⟨old, hOld, rfl⟩ := List.mem_map.mp hNew
    rw [suppress_id] at hNewId
    refine hNot ⟨old, hOld, hNewId, fun hNone => hSome ?_⟩
    exact suppress_isNone.mpr ⟨hNewId ▸ hOut, hNone⟩

theorem mem_cleanerSummaryIds {conversationIds : List ConversationId} :
    s ∈ db.cleanerSummaryIds conversationIds ↔
      ∃ row ∈ db.summaries, row.summaryId = s ∧ row.conversationId ∈ conversationIds := by
  unfold cleanerSummaryIds
  rw [List.mem_map]
  refine exists_congr fun row => ?_
  rw [List.mem_filter, decide_eq_true_eq]
  exact ⟨fun ⟨⟨hRow, hIn⟩, hId⟩ => ⟨hRow, hId, hIn⟩, fun ⟨hRow, hId, hIn⟩ => ⟨⟨hRow, hIn⟩, hId⟩⟩

theorem isLive_deleteCleanerCandidates (h : db.Keyed) (conversationIds : List ConversationId) :
    (db.deleteCleanerCandidates conversationIds).IsLive s ↔
      db.IsLive s ∧ s ∉ db.cleanerSummaryIds conversationIds := by
  have hMem : ∀ row, row ∈ (db.deleteCleanerCandidates conversationIds).summaries ↔
      row ∈ db.summaries ∧ row.conversationId ∉ conversationIds := by
    intro row
    rw [deleteCleanerCandidates]
    exact List.mem_filter.trans (and_congr_right fun _ => decide_eq_true_iff)
  have hUnique : ∀ row ∈ db.summaries, ∀ row' ∈ db.summaries, row.summaryId = s →
      row'.summaryId = s → row = row' := by
    intro row hRow row' hRow' hId hId'
    exact List.inj_on_of_nodup_map h.summaries hRow hRow' (hId.trans hId'.symm)
  unfold IsLive
  rw [isSuppressed_iff, isSuppressed_iff, mem_cleanerSummaryIds]
  constructor
  · rintro ⟨⟨row, hRow, hId⟩, hNot⟩
    obtain ⟨hOld, hOut⟩ := (hMem row).mp hRow
    refine ⟨⟨⟨row, hOld, hId⟩, ?_⟩, ?_⟩
    · rintro ⟨row', hRow', hId', hSome⟩
      rw [hUnique row' hRow' row hOld hId' hId] at hSome
      exact hNot ⟨row, hRow, hId, hSome⟩
    · rintro ⟨row', hRow', hId', hIn⟩
      rw [hUnique row' hRow' row hOld hId' hId] at hIn
      exact hOut hIn
  · rintro ⟨⟨⟨row, hRow, hId⟩, hNot⟩, hOut⟩
    refine ⟨⟨row, (hMem row).mpr ⟨hRow, fun hIn => hOut ⟨row, hRow, hId, hIn⟩⟩, hId⟩, ?_⟩
    rintro ⟨row', hRow', hId', hSome⟩
    exact hNot ⟨row', ((hMem row').mp hRow').1, hId', hSome⟩

/-! ## The writes -/

/-- A step that makes no row ready and leaves the summaries alone. -/
theorem NoneStale.of_ready_mem (h : db.NoneStale) (hSummaries : db'.summaries = db.summaries)
    (hReady : ∀ row ∈ db'.synthesis.cache, row.status = .ready → row ∈ db.synthesis.cache) :
    db'.NoneStale := by
  intro row hRow hStatus s hs
  rw [isLive_congr hSummaries]
  exact h row (hReady row hRow hStatus) hStatus s hs

theorem noneStale_setReady (h : db.NoneStale) {cacheId text promptId : String} {tokens : Nat}
    (hKey : db.synthesis.takesKey cacheId promptId = false) :
    OperatorDb.NoneStale { db with
        synthesis := db.synthesis.setReady cacheId text tokens promptId } ↔
      ∀ row ∈ db.synthesis.cache, row.cacheId = cacheId → ∀ s ∈ row.sourceLeafIds,
        db.IsLive s := by
  have hCache : (db.synthesis.setReady cacheId text tokens promptId).cache =
      db.synthesis.cache.map fun row =>
        if row.cacheId = cacheId then
          { row with
            status := .ready, content := some text, outputTokenCount := tokens,
            key := { row.key with promptId := promptId }, buildingStartedAt := none }
        else row := by
    unfold SynthesisTables.takesKey at hKey
    unfold SynthesisTables.setReady
    rw [hKey]
    rfl
  unfold NoneStale
  rw [hCache]
  constructor
  · intro hAfter row hRow hId s hs
    have hNew := hAfter _ (List.mem_map_of_mem hRow)
    rw [if_pos hId] at hNew
    exact hNew rfl s hs
  · intro hSources new hNew hStatus s hs
    obtain ⟨row, hRow, rfl⟩ := List.mem_map.mp hNew
    by_cases hId : row.cacheId = cacheId
    · rw [if_pos hId] at hs
      exact hSources row hRow hId s hs
    · rw [if_neg hId] at hStatus hs
      exact h row hRow hStatus s hs

theorem purge_synthesis (db : OperatorDb) (request : PurgeRequest) :
    (db.purge request).synthesis = db.synthesis.invalidateCaches (db.targets request) := by
  rw [purge_eq]
  rfl

theorem noneStale_purge (h : db.NoneStale) (request : PurgeRequest) :
    (db.purge request).NoneStale ↔ ∀ row ∈ db.synthesis.cache, row.status = .ready →
      (∃ s ∈ row.sourceLeafIds, s ∈ db.targets request) →
        db.synthesis.refersTo (db.targets request) row.cacheId := by
  have hMem : ∀ row, row ∈ (db.purge request).synthesis.cache ↔ row ∈ db.synthesis.cache ∧
      ¬ db.synthesis.refersTo (db.targets request) row.cacheId := by
    intro row
    rw [purge_synthesis]
    refine List.mem_filter.trans (and_congr_right fun _ => ?_)
    rw [Bool.not_eq_true', Bool.not_eq_true]
  constructor
  · rintro hAfter row hRow hStatus ⟨s, hs, hTarget⟩
    by_contra hNot
    exact ((isLive_purge request).mp (hAfter row ((hMem row).mpr ⟨hRow, hNot⟩) hStatus s hs)).2
      hTarget
  · intro hRefs row hRow hStatus s hs
    obtain ⟨hOld, hNot⟩ := (hMem row).mp hRow
    refine (isLive_purge request).mpr ⟨h row hOld hStatus s hs, fun hTarget => hNot ?_⟩
    exact hRefs row hOld hStatus ⟨s, hs, hTarget⟩

theorem noneStale_deleteCleanerCandidates (hKeyed : db.Keyed) (h : db.NoneStale)
    (conversationIds : List ConversationId) :
    (db.deleteCleanerCandidates conversationIds).NoneStale ↔
      ∀ row ∈ db.synthesis.cache, row.status = .ready → ∀ s ∈ row.sourceLeafIds,
        s ∉ db.cleanerSummaryIds conversationIds := by
  refine forall_congr' fun row => forall_congr' fun hRow => forall_congr' fun hStatus =>
    forall_congr' fun s => forall_congr' fun hs => ?_
  rw [isLive_deleteCleanerCandidates hKeyed, and_iff_right (h row hRow hStatus s hs)]

theorem Keyed.deleteCleanerCandidates (h : db.Keyed) (conversationIds : List ConversationId) :
    (db.deleteCleanerCandidates conversationIds).Keyed :=
  ⟨h.summaries.sublist (List.filter_sublist.map _), h.messages.sublist (List.filter_sublist.map _)⟩

/-- The transaction of the cleaners, if it runs at all. -/
theorem applyDoctorCleaners_cases (db : OperatorDb)
    (archivedAt : ConversationId → Option Timestamp) (backupFailure : Option String)
    (filterIds : List String) (vacuum : Bool) :
    (backupFailure ≠ none ∧
        (db.applyDoctorCleaners archivedAt backupFailure filterIds vacuum).1 = db) ∨
      (backupFailure = none ∧ db.cleanerConversationIds archivedAt
          (getCleanerDefinitions filterIds) = [] ∧
        (db.applyDoctorCleaners archivedAt backupFailure filterIds vacuum).1 = db) ∨
      (backupFailure = none ∧
        (db.applyDoctorCleaners archivedAt backupFailure filterIds vacuum).1 =
          db.deleteCleanerCandidates (db.cleanerConversationIds archivedAt
            (getCleanerDefinitions filterIds))) := by
  unfold applyDoctorCleaners
  cases backupFailure with
  | some reason =>
    refine Or.inl ⟨Option.some_ne_none reason, ?_⟩
    split <;> rfl
  | none =>
    right
    cases hDefinitions : getCleanerDefinitions filterIds with
    | nil =>
      refine Or.inl ⟨rfl, ?_, rfl⟩
      simp [cleanerConversationIds]
    | cons definition definitions =>
      by_cases hNone : db.cleanerConversationIds archivedAt (definition :: definitions) = []
      · refine Or.inl ⟨rfl, hNone, ?_⟩
        dsimp only
        rw [if_pos hNone]
      · refine Or.inr ⟨rfl, ?_⟩
        dsimp only
        rw [if_neg hNone]

theorem noneStale_clean (hKeyed : db.Keyed) (h : db.NoneStale)
    (archivedAt : ConversationId → Option Timestamp) (backupFailure : Option String)
    (filterIds : List String) (vacuum : Bool) :
    (db.applyDoctorCleaners archivedAt backupFailure filterIds vacuum).1.NoneStale ↔
      (backupFailure = none → ∀ row ∈ db.synthesis.cache, row.status = .ready →
        ∀ s ∈ row.sourceLeafIds, s ∉ db.cleanedSummaryIds archivedAt filterIds) := by
  rcases applyDoctorCleaners_cases db archivedAt backupFailure filterIds vacuum with
    ⟨hFailure, hDb⟩ | ⟨-, hNone, hDb⟩ | ⟨hBacked, hDb⟩
  · rw [hDb]
    exact iff_of_true h fun hBacked => absurd hBacked hFailure
  · rw [hDb]
    refine iff_of_true h fun _ row _ _ s _ hs => ?_
    rw [cleanedSummaryIds, hNone, mem_cleanerSummaryIds] at hs
    obtain ⟨_, _, _, hIn⟩ := hs
    cases hIn
  · rw [hDb, noneStale_deleteCleanerCandidates hKeyed h]
    exact ⟨fun hAll _ => hAll, fun hAll => hAll hBacked⟩

theorem Keyed.clean (h : db.Keyed) (archivedAt : ConversationId → Option Timestamp)
    (backupFailure : Option String) (filterIds : List String) (vacuum : Bool) :
    (db.applyDoctorCleaners archivedAt backupFailure filterIds vacuum).1.Keyed := by
  rcases applyDoctorCleaners_cases db archivedAt backupFailure filterIds vacuum with
    ⟨-, hDb⟩ | ⟨-, -, hDb⟩ | ⟨-, hDb⟩
  · rwa [hDb]
  · rwa [hDb]
  · rw [hDb]
    exact h.deleteCleanerCandidates _

end OperatorDb

/-! ## A step -/

namespace SynthesisState

open OperatorDb

variable {state : SynthesisState} {texts : CacheTexts}

/-- The step makes no row ready and writes to no other table. -/
def Quiet (db db' : OperatorDb) : Prop :=
  db' = { db with synthesis := db'.synthesis } ∧
    ∀ row ∈ db'.synthesis.cache, row.status = .ready → row ∈ db.synthesis.cache

theorem quiet_refl (db : OperatorDb) : Quiet db db :=
  ⟨rfl, fun _ hRow _ => hRow⟩

theorem quiet_insertRow (call : Nat) (now : Timestamp) (refused : Bool) (value : SynthesisCall) :
    Quiet state.db (state.insertRow call now refused value).db := by
  unfold insertRow
  split
  · exact quiet_refl state.db
  · exact ⟨rfl, fun row hRow hReady => state.db.synthesis.ready_insertCacheRow hRow hReady⟩

theorem quiet_markCacheFailed (cacheId reason : String) :
    Quiet state.db (state.setSynthesis (state.db.synthesis.markCacheFailed cacheId reason)).db := by
  refine ⟨rfl, fun new hNew hReady => ?_⟩
  obtain ⟨row, hRow, rfl⟩ := List.mem_map.mp hNew
  by_cases hId : row.cacheId = cacheId
  · rw [if_pos hId] at hReady
    cases hReady
  · rwa [if_neg hId]

theorem quiet_recordRef (call : Nat) (refused : Bool) (value : SynthesisCall)
    (rest : List SummaryId) : Quiet state.db (state.recordRef call refused value rest).db := by
  cases rest with
  | nil => exact quiet_refl state.db
  | cons leafId rest =>
    by_cases hRefused : (refused || !allowsRef state.db value.cacheId leafId) = true
    · rw [recordRef, if_pos hRefused]
      exact quiet_refl state.db
    · rw [recordRef, if_neg hRefused]
      refine ⟨rfl, fun row hRow _ => ?_⟩
      rwa [← state.db.synthesis.cache_insertLeafRef value.cacheId leafId]

theorem noneStale_of_quiet {db db' : OperatorDb} (h : db.NoneStale) (hQuiet : Quiet db db') :
    db'.NoneStale :=
  h.of_ready_mem (by rw [hQuiet.1]) hQuiet.2

theorem keyed_of_quiet {db db' : OperatorDb} (h : db.Keyed) (hQuiet : Quiet db db') :
    db'.Keyed := by
  rw [hQuiet.1]
  exact ⟨h.summaries, h.messages⟩

theorem quiet_setReady {cacheId text promptId : String} {tokens : Nat}
    (hKey : state.db.synthesis.takesKey cacheId promptId = true) :
    Quiet state.db
      (state.setSynthesis (state.db.synthesis.setReady cacheId text tokens promptId)).db := by
  have hSame : state.db.synthesis.setReady cacheId text tokens promptId = state.db.synthesis := by
    unfold SynthesisTables.takesKey at hKey
    rw [SynthesisTables.setReady, if_pos hKey]
  rw [hSame]
  exact quiet_refl state.db

/-- The step updates a row to `ready`, with its condition. -/
def SetsReady (state : SynthesisState) (action : SynthesisAction) (db : OperatorDb) : Prop :=
  ∃ cacheId text tokens promptId, state.db.synthesis.takesKey cacheId promptId = false ∧
    db = { state.db with
      synthesis := state.db.synthesis.setReady cacheId text tokens promptId } ∧
    (state.Careful action ↔ ∀ row ∈ state.db.synthesis.cache, row.cacheId = cacheId →
      ∀ s ∈ row.sourceLeafIds, state.db.IsLive s)

theorem finish_cases {call : Nat} {value : SynthesisCall} (hCall : state.calls call = some value)
    (hPhase : value.phase = .building) (outcome : DispatchOutcome) (refused : Bool) :
    (Quiet state.db (state.finish call outcome refused value).db ∧
        state.Careful (.finish call outcome refused)) ∨
      state.SetsReady (.finish call outcome refused)
        (state.finish call outcome refused value).db := by
  cases outcome with
  | failed reason =>
    refine Or.inl ⟨?_, trivial⟩
    unfold finish
    cases refused with
    | true => exact quiet_refl state.db
    | false => exact quiet_markCacheFailed value.cacheId reason
  | output text promptId =>
    cases refused with
    | true =>
      exact Or.inl ⟨quiet_refl state.db, fun hRefused => by cases hRefused⟩
    | false =>
      cases hKey : state.db.synthesis.takesKey value.cacheId promptId with
      | true =>
        refine Or.inl ⟨quiet_setReady hKey, fun _ value' hCall' _ hFree => ?_⟩
        rw [hCall] at hCall'
        cases hCall'
        rw [hKey] at hFree
        cases hFree
      | false =>
        refine Or.inr ⟨value.cacheId, text, estimateTokens text, promptId, hKey, rfl, ?_⟩
        constructor
        · intro hCareful
          exact hCareful rfl value hCall hPhase hKey
        · intro hSources _ value' hCall' _ _
          rw [hCall] at hCall'
          cases hCall'
          exact hSources

/-- A call that awaits no model sets no row ready. -/
theorem careful_finish_of_idle {call : Nat} (outcome : DispatchOutcome) (refused : Bool)
    (h : ∀ value, state.calls call = some value → value.phase ≠ .building) :
    state.Careful (.finish call outcome refused) := by
  cases outcome with
  | failed reason => trivial
  | output text promptId => exact fun _ value hCall hPhase => absurd hPhase (h value hCall)

theorem step_cases (texts : CacheTexts) (state : SynthesisState) (action : SynthesisAction) :
    (Quiet state.db (state.step texts action).db ∧ state.Careful action) ∨
      state.SetsReady action (state.step texts action).db ∨
      (∃ request, action = .purge request) ∨
      ∃ archivedAt backupFailure filterIds vacuum,
        action = .clean archivedAt backupFailure filterIds vacuum := by
  cases action with
  | choose call cacheId promptId request =>
    refine Or.inl ⟨?_, trivial⟩
    unfold step
    dsimp only
    split
    · exact quiet_refl state.db
    · exact quiet_refl state.db
  | insertRow call now refused =>
    refine Or.inl ⟨?_, trivial⟩
    unfold step
    dsimp only
    split
    · split
      · exact quiet_insertRow call now refused _
      · exact quiet_refl state.db
    · exact quiet_refl state.db
  | finish call outcome refused =>
    cases hCall : state.calls call with
    | none =>
      refine Or.inl ⟨?_, careful_finish_of_idle outcome refused fun _ hSome => ?_⟩
      · simp only [step, hCall]
        exact quiet_refl state.db
      · rw [hCall] at hSome
        cases hSome
    | some value =>
      by_cases hPhase : value.phase = .building
      · simp only [step, hCall, hPhase, if_true]
        exact (finish_cases hCall hPhase outcome refused).imp id Or.inl
      · refine Or.inl ⟨?_, careful_finish_of_idle outcome refused fun _ hSome => ?_⟩
        · simp only [step, hCall, hPhase, if_false]
          exact quiet_refl state.db
        · rw [hCall] at hSome
          cases hSome
          exact hPhase
  | recordRef call refused =>
    refine Or.inl ⟨?_, trivial⟩
    unfold step
    dsimp only
    split
    · split
      · exact quiet_recordRef call refused _ _
      · exact quiet_refl state.db
    · exact quiet_refl state.db
  | purge request => exact Or.inr (Or.inr (Or.inl ⟨request, rfl⟩))
  | clean archivedAt backupFailure filterIds vacuum =>
    exact Or.inr (Or.inr (Or.inr ⟨archivedAt, backupFailure, filterIds, vacuum, rfl⟩))

theorem keyed_step (h : state.db.Keyed) (action : SynthesisAction) :
    (state.step texts action).db.Keyed := by
  rcases step_cases texts state action with ⟨hQuiet, -⟩ | ⟨_, _, _, _, -, hDb, -⟩ |
    ⟨request, rfl⟩ | ⟨archivedAt, backupFailure, filterIds, vacuum, rfl⟩
  · exact keyed_of_quiet h hQuiet
  · rw [hDb]
    exact ⟨h.summaries, h.messages⟩
  · exact h.purge request
  · exact h.clean archivedAt backupFailure filterIds vacuum

theorem noneStale_step_iff (hKeyed : state.db.Keyed) (h : state.db.NoneStale)
    (action : SynthesisAction) :
    (state.step texts action).db.NoneStale ↔ state.Careful action := by
  rcases step_cases texts state action with ⟨hQuiet, hCareful⟩ |
    ⟨cacheId, text, tokens, promptId, hKey, hDb, hCareful⟩ | ⟨request, rfl⟩ |
    ⟨archivedAt, backupFailure, filterIds, vacuum, rfl⟩
  · exact iff_of_true (noneStale_of_quiet h hQuiet) hCareful
  · rw [hDb, hCareful]
    exact noneStale_setReady h hKey
  · exact noneStale_purge h request
  · exact noneStale_clean hKeyed h archivedAt backupFailure filterIds vacuum

/-- **No ready row outlives a source leaf in a run exactly if each of its steps is
careful.** -/
theorem noneStale_iff (hKeyed : state.db.Keyed) (h : state.db.NoneStale)
    (actions : List SynthesisAction) :
    Run.Along (step texts) (fun state action => (state.step texts action).db.NoneStale) state
        actions ↔
      Run.Along (step texts) Careful state actions := by
  have hIff : ∀ (state : SynthesisState) action, state.db.Keyed ∧ state.db.NoneStale →
      ((state.step texts action).db.NoneStale ↔ state.Careful action) :=
    fun _ action hInv => noneStale_step_iff hInv.1 hInv.2 action
  refine Run.along_iff_of_invariant hIff (fun state action hInv hAfter => ?_) ⟨hKeyed, h⟩
  exact ⟨keyed_step hInv.1 action, hAfter⟩

/-! ## A purge while the model is awaited -/

/-- A leaf, and no row of the cache. -/
def oneSource : SynthesisState where
  db := OperatorDb.ofDb { Db.empty with
    summaries := [⟨"leaf", 1, .leaf, 0, "", 1, [], none, none, 0, 0, 1, "m", 0, none⟩] }
  calls := fun _ => none

def noTexts : CacheTexts := ⟨fun _ => "", fun _ => ""⟩

/-- A call chooses the leaf, which is purged before the model answers. -/
def purgeWhileBuilding : List SynthesisAction :=
  [.choose 0 "cache" (some "prompt") ⟨"key", 0, 1, [], none, "custom"⟩, .insertRow 0 1 false,
    .purge (OperatorDb.purgeIds ["leaf"]), .finish 0 (.output "text" "prompt") false]

theorem keyed_oneSource : oneSource.db.Keyed :=
  ⟨by decide, List.nodup_nil⟩

theorem noneStale_oneSource : oneSource.db.NoneStale :=
  fun _ hRow => absurd hRow List.not_mem_nil

/-- The row of the purged leaf is ready. -/
theorem not_noneStale : oneSource.db.Keyed ∧ oneSource.db.NoneStale ∧
    ¬ Run.Along (step noTexts) (fun state action => (state.step noTexts action).db.NoneStale)
      oneSource purgeWhileBuilding := by
  refine ⟨keyed_oneSource, noneStale_oneSource, ?_⟩
  rintro ⟨-, -, -, hNone, -⟩
  have hLive := hNone
    ⟨"cache", ⟨"key", "", "", "", none, "custom", "prompt"⟩, some "text", ["leaf"], 1, .ready,
      none, none⟩ (by decide +kernel) rfl "leaf" (by decide)
  exact hLive.2 (by decide +kernel)

theorem noneStale_iff_purgeWhileBuilding :
    Run.Along (step noTexts) (fun state action => (state.step noTexts action).db.NoneStale)
        oneSource purgeWhileBuilding ↔
      Run.Along (step noTexts) Careful oneSource purgeWhileBuilding :=
  noneStale_iff keyed_oneSource noneStale_oneSource purgeWhileBuilding

end SynthesisState
end LosslessHermes
