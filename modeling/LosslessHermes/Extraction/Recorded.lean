import LosslessHermes.Extraction.Catalogue

/-!
# Recorded extractions

An extraction is recorded when each of its entities has its rows for the leaf. Then
processing it again writes nothing, whatever fails (`processItem_recorded`). An item
of which every row is released is recorded after it (`recorded_processItem`), and an
extraction that is recorded stays so (`Extends`).
-/

namespace LosslessHermes
namespace ExtractionDb

/-- Every entity of the extraction has its rows for the leaf. -/
def Recorded (db : ExtractionDb) (sessionKey : String) (leafId : SummaryId)
    (extracted : List ExtractedEntity) : Prop :=
  ∀ ent ∈ extracted, ent.canonical ≠ "" → ∃ e ∈ db.entities,
    isNamed sessionKey ent.canonical e ∧ db.hasMention (mentionId e.entityId leafId ent.surface)

def SameCatalogue (db db' : ExtractionDb) : Prop :=
  db'.entities = db.entities ∧ db'.mentions = db.mentions ∧ db'.entityTypes = db.entityTypes

variable {db db' : ExtractionDb} {task : RowTask} {now : Timestamp} {sessionKey : String}
  {leafId : SummaryId}

/-! ## Recorded extractions -/

/-- The lookup of a name finds the only entity that has it. -/
theorem findEntity_of_named (h : db.Catalogued) {canonical : String} {e : EntityRow}
    (he : e ∈ db.entities) (hNamed : isNamed sessionKey canonical e) :
    db.findEntity sessionKey canonical = some e := by
  cases hFind : db.findEntity sessionKey canonical with
  | none => exact absurd hNamed (List.find?_eq_none.mp hFind e he)
  | some e' =>
    have hNamed' : isNamed sessionKey canonical e' := List.find?_some hFind
    obtain ⟨hKey, hText⟩ := of_decide_eq_true hNamed
    obtain ⟨hKey', hText'⟩ := of_decide_eq_true hNamed'
    have hSame : (e'.sessionKey, nocase e'.canonicalText) =
        (e.sessionKey, nocase e.canonicalText) := by
      rw [hKey, hKey', hText, hText']
    rw [List.inj_on_of_nodup_map h.names (List.mem_of_find?_eq_some hFind) he hSame]

/-- A row of a recorded entity writes nothing, whether or not it fails. -/
theorem processRow_recorded (h : db.Catalogued)
    (hRecorded : ∃ e ∈ db.entities, isNamed sessionKey task.ent.canonical e ∧
      db.hasMention (mentionId e.entityId leafId task.ent.surface)) :
    (∃ fault, (processRow task now sessionKey leafId db).2 = .error fault) ∨
      (processRow task now sessionKey leafId db).2 = .ok db := by
  obtain ⟨e, he, hNamed, hMention⟩ := hRecorded
  have hFind := findEntity_of_named h he hNamed
  unfold processRow
  dsimp only
  cases task.fails .selectEntity with
  | some fault => exact Or.inl ⟨fault, rfl⟩
  | none =>
    dsimp only
    rw [hFind]
    unfold recordMention releaseRow
    dsimp only
    cases task.fails .insertMention with
    | some fault => exact Or.inl ⟨fault, rfl⟩
    | none =>
      dsimp only
      rw [if_pos hMention]
      cases task.fails .release with
      | some fault => exact Or.inl ⟨fault, rfl⟩
      | none => exact Or.inr rfl

theorem processRows_recorded {i : Nat} {tasks : List RowTask} {progress progress' : ItemProgress}
    (h : db.Catalogued) (hRecorded : db.Recorded sessionKey leafId (tasks.map (·.ent)))
    (hOk : processRows now sessionKey leafId i tasks db progress = .ok (db', progress')) :
    db' = db := by
  induction tasks generalizing i progress with
  | nil =>
    cases hOk
    rfl
  | cons task tasks ih =>
    have hRest : db.Recorded sessionKey leafId (tasks.map (·.ent)) :=
      fun ent hEnt => hRecorded ent (List.mem_cons_of_mem _ hEnt)
    rw [processRows] at hOk
    split at hOk
    · exact ih hRest hOk
    · rename_i hCanonical
      have hRow := @processRow_recorded db task now sessionKey leafId h
        (hRecorded task.ent List.mem_cons_self hCanonical)
      split at hOk
      · cases hOk
      · split at hOk
        · rename_i counts dbRow hRun
          rw [hRun] at hRow
          rcases hRow with ⟨fault, hError⟩ | hSame
          · cases hError
          · cases hSame
            exact ih hRest hOk
        · cases hOk
        · split at hOk
          · cases hOk
          · exact ih hRest hOk

theorem processItem_recorded (h : db.Catalogued) {queueId : String} {tasks : List RowTask}
    {ends : Option String} (hRecorded : db.Recorded sessionKey leafId (tasks.map (·.ent))) :
    db.SameCatalogue (processItem now queueId sessionKey leafId tasks ends db).1 := by
  unfold processItem
  cases hRows : processRows now sessionKey leafId 0 tasks db ⟨⟨0, 0⟩, none⟩ with
  | error message =>
    rw [@withTransaction_error _ _ _ db message _ (by simp only [hRows])]
    exact ⟨rfl, rfl, rfl⟩
  | ok written =>
    obtain ⟨db', progress⟩ := written
    cases ends with
    | some message =>
      rw [@withTransaction_error _ _ _ db message _ (by simp only [hRows])]
      exact ⟨rfl, rfl, rfl⟩
    | none =>
      rw [@withTransaction_ok _ _ _ db (db'.completeQueueRow now queueId) progress _
        (by simp only [hRows]), processRows_recorded h hRecorded hRows]
      exact ⟨rfl, rfl, rfl⟩

/-! ## What stays -/

/-- The entities keep their names, and the mentions stay. -/
structure Extends (db db' : ExtractionDb) : Prop where
  entities : ∀ e ∈ db.entities, ∃ e' ∈ db'.entities, e'.entityId = e.entityId ∧
    e'.sessionKey = e.sessionKey ∧ e'.canonicalText = e.canonicalText
  mentions : ∀ m ∈ db.mentions, m ∈ db'.mentions

theorem Extends.refl (db : ExtractionDb) : Extends db db :=
  ⟨fun e he => ⟨e, he, rfl, rfl, rfl⟩, fun _ hm => hm⟩

theorem Extends.trans {db'' : ExtractionDb} (h : Extends db db') (h' : Extends db' db'') :
    Extends db db'' := by
  refine ⟨fun e he => ?_, fun m hm => h'.mentions m (h.mentions m hm)⟩
  obtain ⟨e', he', hId, hKey, hText⟩ := h.entities e he
  obtain ⟨e'', he'', hId', hKey', hText'⟩ := h'.entities e' he'
  exact ⟨e'', he'', hId'.trans hId, hKey'.trans hKey, hText'.trans hText⟩

theorem Extends.of_sameCatalogue (h : db.SameCatalogue db') : Extends db db' := by
  obtain ⟨hEntities, hMentions, -⟩ := h
  constructor
  · rw [hEntities]
    exact (Extends.refl db).entities
  · rw [hMentions]
    exact fun _ hm => hm

theorem Extends.hasMention (h : Extends db db') {id : String} (hMention : db.hasMention id) :
    db'.hasMention id := by
  obtain ⟨m, hm, hId⟩ := List.any_eq_true.mp hMention
  exact List.any_eq_true.mpr ⟨m, h.mentions m hm, hId⟩

theorem Extends.recorded (h : Extends db db') {extracted : List ExtractedEntity}
    (hRecorded : db.Recorded sessionKey leafId extracted) :
    db'.Recorded sessionKey leafId extracted := by
  intro ent hEnt hCanonical
  obtain ⟨e, he, hNamed, hMention⟩ := hRecorded ent hEnt hCanonical
  obtain ⟨e', he', hId, hKey, hText⟩ := h.entities e he
  refine ⟨e', he', ?_, ?_⟩
  · unfold isNamed
    rw [hKey, hText]
    exact hNamed
  · rw [hId]
    exact h.hasMention hMention

theorem extends_insertEntity (entityId canonical entityType : String) :
    Extends db (db.insertEntity now entityId sessionKey canonical entityType leafId) :=
  ⟨fun e he => ⟨e, List.mem_append_left _ he, rfl, rfl, rfl⟩, fun _ hm => hm⟩

theorem extends_withMention (entityId : String) (ent : ExtractedEntity) :
    Extends db (db.withMention now entityId leafId ent) := by
  refine ⟨fun e he => ⟨_, mem_withMention.mpr ⟨e, he, rfl⟩, ?_⟩, fun _ hm => ?_⟩
  · split
    · exact ⟨rfl, rfl, rfl⟩
    · exact ⟨rfl, rfl, rfl⟩
  · exact List.mem_append_left _ hm

theorem hasMention_withMention (entityId : String) (ent : ExtractedEntity) :
    (db.withMention now entityId leafId ent).hasMention
      (mentionId entityId leafId ent.surface) := by
  have hMem : (⟨mentionId entityId leafId ent.surface, entityId, leafId, ent.surface,
      ent.spanStart, ent.spanEnd, now⟩ : EntityMentionRow) ∈
        (db.withMention now entityId leafId ent).mentions :=
    List.mem_append_right _ (List.mem_singleton.mpr rfl)
  exact List.any_eq_true.mpr ⟨_, hMem, decide_eq_true rfl⟩

theorem named_insertEntity (entityId canonical entityType : String) :
    ∃ e ∈ (db.insertEntity now entityId sessionKey canonical entityType leafId).entities,
      e.entityId = entityId ∧ isNamed sessionKey canonical e := by
  refine ⟨⟨entityId, sessionKey, canonical, entityType, now, now, some leafId, 0⟩, ?_, rfl, ?_⟩
  · exact List.mem_append_right _ (List.mem_singleton.mpr rfl)
  · exact decide_eq_true ⟨rfl, rfl⟩

/-- A row that is released from its mention on. -/
theorem recordMention_ok {entityId : String} {counts counts' : RowCounts}
    (h : recordMention task now leafId entityId counts db = (counts', .ok db')) :
    Extends db db' ∧ db'.hasMention (mentionId entityId leafId task.ent.surface) := by
  rcases recordMention_cases task now leafId entityId counts db with
    ⟨-, -, ⟨hMention, hOk⟩ | ⟨-, hOk⟩⟩ | ⟨fault, -, ⟨-, hError⟩ | ⟨-, hError⟩⟩
  · rw [hOk] at h
    cases h
    exact ⟨Extends.refl db, hMention⟩
  · rw [hOk] at h
    cases h
    exact ⟨extends_withMention entityId task.ent, hasMention_withMention entityId task.ent⟩
  · rw [hError] at h
    cases h
  · rw [hError] at h
    cases h

/-- The suffix of a new entity is not taken. -/
def FreshSuffix (sessionKey : String) (db : ExtractionDb) (task : RowTask) : Prop :=
  db.findEntity sessionKey task.ent.canonical = none → ¬ db.hasEntity task.newEntityId

/-- A row that is released has its entity and its mention, if its suffix is fresh. -/
theorem processRow_ok {counts : RowCounts}
    (h : processRow task now sessionKey leafId db = (counts, .ok db')) :
    Extends db db' ∧ (FreshSuffix sessionKey db task →
      db'.Recorded sessionKey leafId [task.ent]) := by
  have hRecorded : ∀ {dbRow : ExtractionDb} {e : EntityRow}, e ∈ dbRow.entities →
      isNamed sessionKey task.ent.canonical e → Extends dbRow db' →
        db'.hasMention (mentionId e.entityId leafId task.ent.surface) →
          db'.Recorded sessionKey leafId [task.ent] := by
    intro dbRow e he hNamed hExtends hMention ent hEnt _
    rw [List.mem_singleton.mp hEnt]
    obtain ⟨e', he', hId, hKey, hText⟩ := hExtends.entities e he
    refine ⟨e', he', ?_, by rwa [hId]⟩
    unfold isNamed
    rw [hKey, hText]
    exact hNamed
  unfold processRow at h
  dsimp only at h
  split at h
  · cases h
  split at h
  · rename_i e hFind
    obtain ⟨hExtends, hMention⟩ := recordMention_ok h
    exact ⟨hExtends, fun _ => hRecorded (List.mem_of_find?_eq_some hFind) (List.find?_some hFind)
      hExtends hMention⟩
  · rename_i hNone
    split at h
    · cases h
    split at h
    · rename_i hTaken
      split at h
      · cases h
      · exact ⟨(recordMention_ok h).1, fun hFresh => absurd hTaken (hFresh hNone)⟩
    · split at h
      · cases h
      split at h
      · cases h
      · obtain ⟨hExtends, hMention⟩ := recordMention_ok h
        have hInserted : Extends db ((db.insertEntity now task.newEntityId sessionKey
            task.ent.canonical task.ent.entityType leafId).upsertType now task.ent.entityType) :=
          (extends_insertEntity task.newEntityId task.ent.canonical task.ent.entityType).trans
            ⟨fun e he => ⟨e, he, rfl, rfl, rfl⟩, fun _ hm => hm⟩
        obtain ⟨e, he, hId, hNamed⟩ := @named_insertEntity db now sessionKey leafId
          task.newEntityId task.ent.canonical task.ent.entityType
        refine ⟨hInserted.trans hExtends, fun _ => hRecorded ?_ hNamed hExtends ?_⟩
        · exact he
        · rwa [hId]

/-! ## An item -/

/-- The row is released. -/
def RowReleased (now : Timestamp) (sessionKey : String) (leafId : SummaryId) (db : ExtractionDb)
    (task : RowTask) : Prop :=
  task.ent.canonical ≠ "" → ∃ counts db',
    processRow task now sessionKey leafId db = (counts, .ok db')

theorem processRows_extends {i : Nat} {tasks : List RowTask} {progress progress' : ItemProgress}
    (hOk : processRows now sessionKey leafId i tasks db progress = .ok (db', progress')) :
    Extends db db' ∧
      (Run.Along (rowStep now sessionKey leafId) (fun db task =>
          RowReleased now sessionKey leafId db task ∧ FreshSuffix sessionKey db task) db tasks →
        db'.Recorded sessionKey leafId (tasks.map (·.ent))) := by
  induction tasks generalizing i db progress with
  | nil =>
    cases hOk
    exact ⟨Extends.refl _, fun _ _ hEnt => absurd hEnt List.not_mem_nil⟩
  | cons task tasks ih =>
    have hAll : ∀ {dbRow : ExtractionDb}, dbRow.Recorded sessionKey leafId [task.ent] →
        Extends dbRow db' → db'.Recorded sessionKey leafId (tasks.map (·.ent)) →
          db'.Recorded sessionKey leafId ((task :: tasks).map (·.ent)) := by
      intro dbRow hRow hExtends hRest ent hEnt
      rcases List.mem_cons.mp hEnt with hHead | hTail
      · exact hExtends.recorded hRow ent (List.mem_singleton.mpr hHead)
      · exact hRest ent hTail
    rw [processRows] at hOk
    split at hOk
    · rename_i hBlank
      obtain ⟨hExtends, hRest⟩ := ih hOk
      refine ⟨hExtends, fun hAlong => hAll ?_ hExtends (hRest ?_)⟩
      · intro ent hEnt hCanonical
        rw [List.mem_singleton.mp hEnt] at hCanonical
        exact absurd hBlank hCanonical
      · have hTail := hAlong.2
        rwa [rowStep, if_pos hBlank] at hTail
    · rename_i hCanonical
      split at hOk
      · cases hOk
      · split at hOk
        · rename_i counts dbRow hRun
          obtain ⟨hExtends, hRest⟩ := ih hOk
          obtain ⟨hRow, hRecorded⟩ := processRow_ok hRun
          refine ⟨hRow.trans hExtends, fun hAlong => hAll (hRecorded hAlong.1.2) hExtends
            (hRest ?_)⟩
          have hTail := hAlong.2
          simpa only [rowStep, if_neg hCanonical, hRun] using hTail
        · cases hOk
        · rename_i counts message hRun
          split at hOk
          · cases hOk
          · obtain ⟨hExtends, -⟩ := ih hOk
            refine ⟨hExtends, fun hAlong => ?_⟩
            obtain ⟨counts', dbRow, hReleased⟩ := hAlong.1.1 hCanonical
            rw [hRun] at hReleased
            cases hReleased

/-- An item keeps what is recorded, and records its extraction if it commits with every
row released. -/
theorem processItem_extends (queueId : String) (tasks : List RowTask) (ends : Option String) :
    Extends db (processItem now queueId sessionKey leafId tasks ends db).1 ∧
      (Commits now sessionKey leafId tasks ends db →
        Run.Along (rowStep now sessionKey leafId) (fun db task =>
          RowReleased now sessionKey leafId db task ∧ FreshSuffix sessionKey db task) db tasks →
            (processItem now queueId sessionKey leafId tasks ends db).1.Recorded sessionKey leafId
              (tasks.map (·.ent))) := by
  unfold processItem
  cases hRows : processRows now sessionKey leafId 0 tasks db ⟨⟨0, 0⟩, none⟩ with
  | error message =>
    rw [@withTransaction_error _ _ _ db message _ (by simp only [hRows])]
    refine ⟨Extends.refl db, fun hCommits => ?_⟩
    rcases rowsEnd now sessionKey leafId 0 tasks db ⟨⟨0, 0⟩, none⟩ with
      ⟨hAborts, -⟩ | ⟨-, _, _, _, hOk, -⟩
    · exact absurd hCommits.1 hAborts
    · rw [hRows] at hOk
      cases hOk
  | ok written =>
    obtain ⟨db', progress⟩ := written
    obtain ⟨hExtends, hRecorded⟩ := processRows_extends hRows
    cases ends with
    | some message =>
      rw [@withTransaction_error _ _ _ db message _ (by simp only [hRows])]
      exact ⟨Extends.refl db, fun hCommits => by cases hCommits.2⟩
    | none =>
      rw [@withTransaction_ok _ _ _ db (db'.completeQueueRow now queueId) progress _
        (by simp only [hRows])]
      have hQueue : Extends db' (db'.completeQueueRow now queueId) :=
        Extends.of_sameCatalogue ⟨rfl, rfl, rfl⟩
      exact ⟨hExtends.trans hQueue, fun _ hAlong => hQueue.recorded (hRecorded hAlong)⟩

end ExtractionDb
end LosslessHermes
