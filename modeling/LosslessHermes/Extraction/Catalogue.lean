import LosslessHermes.Extraction.Coreference
import Mathlib.Data.List.Nodup

/-!
# The entity catalogue

What every row of an item keeps (`Catalogued`), and what the counters of a row say
about the rows that it adds. The counters agree with the rows except in a
`LateFailure`: the row has counted an insertion when a statement fails, and the
savepoint takes the insertion back, but not the count.
-/

namespace LosslessHermes
namespace ExtractionDb

/-- The keys, and the counters of the entities. -/
structure Catalogued (db : ExtractionDb) : Prop where
  ids : (db.entities.map (·.entityId)).Nodup
  names : (db.entities.map fun e => (e.sessionKey, nocase e.canonicalText)).Nodup
  references : ∀ m ∈ db.mentions, db.hasEntity m.entityId
  counts : ∀ e ∈ db.entities, e.occurrenceCount =
    (db.mentions.filter fun m => m.entityId = e.entityId).length

/-! ## Late failures -/

/-- A statement fails after the row has its entity. -/
def MentionFails (db : ExtractionDb) (task : RowTask) (leafId : SummaryId) (entityId : String) :
    Prop :=
  task.fails .insertMention ≠ none ∨
    ¬ db.hasMention (mentionId entityId leafId task.ent.surface) ∧ task.fails .bumpEntity ≠ none ∨
      task.fails .release ≠ none

/-- A statement fails after a mention is inserted. -/
def MentionLate (db : ExtractionDb) (task : RowTask) (leafId : SummaryId) (entityId : String) :
    Prop :=
  task.fails .insertMention = none ∧
    ¬ db.hasMention (mentionId entityId leafId task.ent.surface) ∧ db.hasEntity entityId ∧
      db.hasLeaf leafId ∧ (task.fails .bumpEntity ≠ none ∨ task.fails .release ≠ none)

/-- The row inserts an entity. -/
def InsertsEntity (db : ExtractionDb) (task : RowTask) (sessionKey : String)
    (leafId : SummaryId) : Prop :=
  task.fails .selectEntity = none ∧ db.findEntity sessionKey task.ent.canonical = none ∧
    task.fails .insertEntity = none ∧ ¬ db.hasEntity task.newEntityId ∧ db.hasLeaf leafId

/-- The row goes on to its mention with an entity that it has not inserted. -/
def FindsEntity (db : ExtractionDb) (task : RowTask) (sessionKey entityId : String) : Prop :=
  task.fails .selectEntity = none ∧
    ((∃ e, db.findEntity sessionKey task.ent.canonical = some e ∧ e.entityId = entityId) ∨
      db.findEntity sessionKey task.ent.canonical = none ∧ task.fails .insertEntity = none ∧
        db.hasEntity task.newEntityId ∧ task.fails .selectWinner = none ∧
          task.newEntityId = entityId)

/-- A statement fails after the row has inserted an entity or a mention. -/
def LateFailure (db : ExtractionDb) (task : RowTask) (sessionKey : String) (leafId : SummaryId) :
    Prop :=
  db.InsertsEntity task sessionKey leafId ∧
      (task.fails .upsertType ≠ none ∨ db.MentionFails task leafId task.newEntityId) ∨
    ∃ entityId, db.FindsEntity task sessionKey entityId ∧ db.MentionLate task leafId entityId

variable {db db' : ExtractionDb} {task : RowTask} {now : Timestamp} {sessionKey entityId : String}
  {leafId : SummaryId}

/-! ## What the inserts keep -/

theorem hasEntity_iff : db.hasEntity entityId ↔ ∃ e ∈ db.entities, e.entityId = entityId := by
  simp [hasEntity]

theorem findEntity_eq_none {canonical : String} :
    db.findEntity sessionKey canonical = none ↔
      (sessionKey, nocase canonical) ∉
        db.entities.map fun e => (e.sessionKey, nocase e.canonicalText) := by
  unfold findEntity isNamed
  rw [List.find?_eq_none, List.mem_map]
  simp only [decide_eq_true_eq, Prod.mk.injEq, not_exists, not_and]

theorem Catalogued.insertEntity (h : db.Catalogued) {canonical : String}
    (hNew : db.findEntity sessionKey canonical = none) (hId : ¬ db.hasEntity entityId)
    (entityType : String) :
    (db.insertEntity now entityId sessionKey canonical entityType leafId).Catalogued := by
  have hNoMention : (db.mentions.filter fun m => m.entityId = entityId) = [] := by
    rw [List.filter_eq_nil_iff]
    intro m hm hSame
    exact hId (of_decide_eq_true hSame ▸ h.references m hm)
  constructor
  · have hFresh : entityId ∉ db.entities.map (·.entityId) := fun hMem =>
      hId (hasEntity_iff.mpr (List.mem_map.mp hMem))
    simp only [ExtractionDb.insertEntity, List.map_append, List.map_cons, List.map_nil]
    exact List.nodup_append.mpr ⟨h.ids, List.nodup_singleton _, fun x hx y hy hEq =>
      hFresh (List.mem_singleton.mp hy ▸ hEq ▸ hx)⟩
  · have hFresh := findEntity_eq_none.mp hNew
    simp only [ExtractionDb.insertEntity, List.map_append, List.map_cons, List.map_nil]
    exact List.nodup_append.mpr ⟨h.names, List.nodup_singleton _, fun x hx y hy hEq =>
      hFresh (List.mem_singleton.mp hy ▸ hEq ▸ hx)⟩
  · intro m hm
    obtain ⟨e, he, hSame⟩ := hasEntity_iff.mp (h.references m hm)
    exact hasEntity_iff.mpr ⟨e, List.mem_append_left _ he, hSame⟩
  · intro e he
    rcases List.mem_append.mp he with hOld | hAdded
    · exact h.counts e hOld
    · rw [List.mem_singleton.mp hAdded]
      dsimp only [ExtractionDb.insertEntity]
      rw [hNoMention]
      rfl

theorem Catalogued.upsertType (h : db.Catalogued) (typeName : String) :
    (db.upsertType now typeName).Catalogued :=
  ⟨h.ids, h.names, h.references, h.counts⟩

/-- The statements of a new mention. -/
def withMention (db : ExtractionDb) (now : Timestamp) (entityId : String) (leafId : SummaryId)
    (ent : ExtractedEntity) : ExtractionDb :=
  (db.insertMention now entityId leafId ent).bumpEntity now entityId

/-- A bump leaves the other columns of an entity alone. -/
theorem mem_withMention {ent : ExtractedEntity} {e' : EntityRow} :
    e' ∈ (db.withMention now entityId leafId ent).entities ↔ ∃ e ∈ db.entities,
      (if e.entityId = entityId then
        { e with occurrenceCount := e.occurrenceCount + 1, lastSeenAt := now } else e) = e' :=
  List.mem_map

theorem Catalogued.withMention (h : db.Catalogued) (hEntity : db.hasEntity entityId)
    (ent : ExtractedEntity) : (db.withMention now entityId leafId ent).Catalogued := by
  have hIds : (db.withMention now entityId leafId ent).entities.map (·.entityId) =
      db.entities.map (·.entityId) := by
    unfold ExtractionDb.withMention bumpEntity insertMention
    rw [List.map_map]
    refine List.map_congr_left fun e _ => ?_
    dsimp only [Function.comp_apply]
    split <;> rfl
  have hNames : ((db.withMention now entityId leafId ent).entities.map fun e =>
      (e.sessionKey, nocase e.canonicalText)) =
        db.entities.map fun e => (e.sessionKey, nocase e.canonicalText) := by
    unfold ExtractionDb.withMention bumpEntity insertMention
    rw [List.map_map]
    refine List.map_congr_left fun e _ => ?_
    dsimp only [Function.comp_apply]
    split <;> rfl
  have hKept : ∀ id, db.hasEntity id → (db.withMention now entityId leafId ent).hasEntity id := by
    intro id hId
    rw [hasEntity_iff, ← List.mem_map, hIds, List.mem_map]
    exact hasEntity_iff.mp hId
  constructor
  · rw [hIds]
    exact h.ids
  · rw [hNames]
    exact h.names
  · intro m hm
    rcases List.mem_append.mp hm with hOld | hNew
    · exact hKept _ (h.references m hOld)
    · rw [List.mem_singleton.mp hNew]
      exact hKept _ hEntity
  · intro e' he'
    obtain ⟨e, he, rfl⟩ := mem_withMention.mp he'
    have hCount := h.counts e he
    have hMentions : (db.withMention now entityId leafId ent).mentions = db.mentions ++
        [⟨mentionId entityId leafId ent.surface, entityId, leafId, ent.surface, ent.spanStart,
          ent.spanEnd, now⟩] := rfl
    rw [hMentions, List.filter_append, List.length_append]
    by_cases hSame : e.entityId = entityId
    · rw [if_pos hSame]
      dsimp only
      rw [hCount, List.filter_cons_of_pos (by simp [hSame])]
      rfl
    · rw [if_neg hSame, hCount, List.filter_cons_of_neg (by simpa using Ne.symm hSame)]
      rfl

/-! ## A row -/

/-- What a row that is released has written, with its counts. -/
structure Wrote (counts : RowCounts) (db db' : ExtractionDb) : Prop where
  catalogued : db.Catalogued → db'.Catalogued
  entities : db'.entities.length = db.entities.length + counts.entities
  mentions : db'.mentions.length = db.mentions.length + counts.mentions

theorem Wrote.refl (db : ExtractionDb) : Wrote ⟨0, 0⟩ db db :=
  ⟨id, rfl, rfl⟩

theorem Wrote.trans {counts counts' : RowCounts} {db'' : ExtractionDb} (h : Wrote counts db db')
    (h' : Wrote counts' db' db'') :
    Wrote ⟨counts.entities + counts'.entities, counts.mentions + counts'.mentions⟩ db db'' :=
  ⟨fun hDb => h'.catalogued (h.catalogued hDb), by rw [h'.entities, h.entities, Nat.add_assoc],
    by rw [h'.mentions, h.mentions, Nat.add_assoc]⟩

theorem length_withMention (ent : ExtractedEntity) :
    (db.withMention now entityId leafId ent).entities.length = db.entities.length ∧
      (db.withMention now entityId leafId ent).mentions.length = db.mentions.length + 1 := by
  constructor
  · simp [ExtractionDb.withMention, bumpEntity, insertMention]
  · simp [ExtractionDb.withMention, bumpEntity, insertMention]

/-- From its mention on, a row is released, or it fails before or after it counted a
mention. -/
theorem recordMention_cases (task : RowTask) (now : Timestamp) (leafId : SummaryId)
    (entityId : String) (counts : RowCounts) (db : ExtractionDb) :
    (¬ db.MentionFails task leafId entityId ∧ ¬ db.MentionLate task leafId entityId ∧
        ((db.hasMention (mentionId entityId leafId task.ent.surface) ∧
            recordMention task now leafId entityId counts db = (counts, .ok db)) ∨
          (db.hasEntity entityId ∧
            recordMention task now leafId entityId counts db =
              (⟨counts.entities, counts.mentions + 1⟩,
                .ok (db.withMention now entityId leafId task.ent))))) ∨
      ∃ fault, (db.hasEntity entityId → db.hasLeaf leafId → db.MentionFails task leafId entityId) ∧
        ((¬ db.MentionLate task leafId entityId ∧
            recordMention task now leafId entityId counts db = (counts, .error fault)) ∨
          (db.MentionLate task leafId entityId ∧
            recordMention task now leafId entityId counts db =
              (⟨counts.entities, counts.mentions + 1⟩, .error fault))) := by
  unfold recordMention releaseRow
  cases hInsert : task.fails .insertMention with
  | some fault =>
    refine Or.inr ⟨fault, fun _ _ => Or.inl (by simp [hInsert]), Or.inl ⟨fun hLate => ?_, rfl⟩⟩
    rw [hLate.1] at hInsert
    cases hInsert
  | none =>
    dsimp only
    by_cases hKnown : db.hasMention (mentionId entityId leafId task.ent.surface) = true
    · have hEarly : ¬ db.MentionLate task leafId entityId := fun hLate => hLate.2.1 hKnown
      rw [if_pos hKnown]
      cases hRelease : task.fails .release with
      | some fault =>
        exact Or.inr ⟨fault, fun _ _ => Or.inr (Or.inr (by simp [hRelease])),
          Or.inl ⟨hEarly, rfl⟩⟩
      | none =>
        refine Or.inl ⟨?_, hEarly, Or.inl ⟨hKnown, rfl⟩⟩
        rintro (hFails | ⟨hNew, -⟩ | hFails)
        · exact hFails hInsert
        · exact hNew hKnown
        · exact hFails hRelease
    · rw [if_neg hKnown]
      by_cases hKeys : (db.hasEntity entityId && db.hasLeaf leafId) = true
      · obtain ⟨hEntity, hLeaf⟩ := Bool.and_eq_true_iff.mp hKeys
        rw [hKeys, Bool.not_true, if_neg Bool.false_ne_true]
        cases hBump : task.fails .bumpEntity with
        | some fault =>
          refine Or.inr ⟨fault, fun _ _ => Or.inr (Or.inl ⟨hKnown, by simp [hBump]⟩),
            Or.inr ⟨⟨hInsert, hKnown, hEntity, hLeaf, Or.inl (by simp [hBump])⟩, rfl⟩⟩
        | none =>
          cases hRelease : task.fails .release with
          | some fault =>
            refine Or.inr ⟨fault, fun _ _ => Or.inr (Or.inr (by simp [hRelease])),
              Or.inr ⟨⟨hInsert, hKnown, hEntity, hLeaf, Or.inr (by simp [hRelease])⟩, rfl⟩⟩
          | none =>
            refine Or.inl ⟨?_, ?_, Or.inr ⟨hEntity, rfl⟩⟩
            · rintro (hFails | ⟨-, hFails⟩ | hFails)
              · exact hFails hInsert
              · exact hFails hBump
              · exact hFails hRelease
            · rintro ⟨-, -, -, -, hFails | hFails⟩
              · exact hFails hBump
              · exact hFails hRelease
      · have hEarly : ¬ db.MentionLate task leafId entityId := fun hLate =>
          hKeys (Bool.and_eq_true_iff.mpr ⟨hLate.2.2.1, hLate.2.2.2.1⟩)
        rw [Bool.not_eq_true] at hKeys
        rw [hKeys]
        refine Or.inr ⟨foreignKeyFault, fun hEntity hLeaf => ?_, Or.inl ⟨hEarly, rfl⟩⟩
        rw [hEntity, hLeaf] at hKeys
        cases hKeys

/-- A row is released with counts of what it wrote, or it fails without a count, or it
fails late. -/
def RowEnds (db : ExtractionDb) (task : RowTask) (now : Timestamp) (sessionKey : String)
    (leafId : SummaryId) : Prop :=
  (¬ db.LateFailure task sessionKey leafId ∧ ∃ counts db',
      processRow task now sessionKey leafId db = (counts, .ok db') ∧ Wrote counts db db') ∨
    (¬ db.LateFailure task sessionKey leafId ∧ ∃ fault,
      processRow task now sessionKey leafId db = (⟨0, 0⟩, .error fault)) ∨
    (db.LateFailure task sessionKey leafId ∧ ∃ counts fault,
      processRow task now sessionKey leafId db = (counts, .error fault) ∧
        0 < counts.entities + counts.mentions)

theorem wrote_withMention (hEntity : db.hasEntity entityId) (ent : ExtractedEntity) :
    Wrote ⟨0, 1⟩ db (db.withMention now entityId leafId ent) :=
  ⟨fun h => h.withMention hEntity ent, (length_withMention ent).1, (length_withMention ent).2⟩

/-- A row that finds its entity. -/
theorem rowEnds_of_finds (hFinds : db.FindsEntity task sessionKey entityId)
    (hOnly : db.LateFailure task sessionKey leafId → db.MentionLate task leafId entityId)
    (hRow : processRow task now sessionKey leafId db =
      recordMention task now leafId entityId ⟨0, 0⟩ db) :
    db.RowEnds task now sessionKey leafId := by
  unfold RowEnds
  rw [hRow]
  rcases recordMention_cases task now leafId entityId ⟨0, 0⟩ db with
    ⟨-, hEarly, ⟨-, hOk⟩ | ⟨hEntity, hOk⟩⟩ | ⟨fault, -, ⟨hEarly, hError⟩ | ⟨hLate, hError⟩⟩
  · exact Or.inl ⟨fun hLate => hEarly (hOnly hLate), _, _, hOk, Wrote.refl db⟩
  · exact Or.inl ⟨fun hLate => hEarly (hOnly hLate), _, _, hOk, wrote_withMention hEntity _⟩
  · exact Or.inr (Or.inl ⟨fun hLate => hEarly (hOnly hLate), fault, hError⟩)
  · exact Or.inr (Or.inr ⟨Or.inr ⟨entityId, hFinds, hLate⟩, _, fault, hError, Nat.one_pos⟩)

theorem hasEntity_insertEntity (canonical entityType : String) :
    (db.insertEntity now entityId sessionKey canonical entityType leafId).hasEntity entityId :=
  hasEntity_iff.mpr ⟨_, List.mem_append_right _ (List.mem_singleton.mpr rfl), rfl⟩

/-- A row that inserts its entity. -/
theorem rowEnds_of_inserts (hInserts : db.InsertsEntity task sessionKey leafId) :
    db.RowEnds task now sessionKey leafId := by
  have hNoFind : ∀ entityId, ¬ db.FindsEntity task sessionKey entityId := by
    rintro entityId ⟨-, ⟨e, hSome, -⟩ | ⟨-, -, hTaken, -⟩⟩
    · rw [hInserts.2.1] at hSome
      cases hSome
    · exact hInserts.2.2.2.1 hTaken
  have hLateIff : db.LateFailure task sessionKey leafId ↔
      task.fails .upsertType ≠ none ∨ db.MentionFails task leafId task.newEntityId := by
    refine ⟨fun hLate => ?_, fun hFails => Or.inl ⟨hInserts, hFails⟩⟩
    rcases hLate with ⟨-, hFails⟩ | ⟨entityId, hFinds, -⟩
    · exact hFails
    · exact absurd hFinds (hNoFind entityId)
  obtain ⟨hSelect, hNew, hInsert, hFree, hLeaf⟩ := hInserts
  rw [Bool.not_eq_true] at hFree
  unfold RowEnds
  rw [hLateIff]
  simp only [processRow, hSelect, hNew, hInsert, hFree, hLeaf, Bool.false_eq_true, if_false,
    Bool.not_true]
  cases hType : task.fails .upsertType with
  | some fault =>
    exact Or.inr (Or.inr ⟨Or.inl (Option.some_ne_none fault), _, fault, rfl, Nat.one_pos⟩)
  | none =>
    dsimp only
    have hEntity := @hasEntity_insertEntity db now sessionKey task.newEntityId leafId
      task.ent.canonical task.ent.entityType
    have hInserted : Wrote ⟨1, 0⟩ db ((db.insertEntity now task.newEntityId sessionKey
        task.ent.canonical task.ent.entityType leafId).upsertType now task.ent.entityType) := by
      refine ⟨fun h => (h.insertEntity hNew ?_ _).upsertType _, List.length_append, rfl⟩
      rw [hFree]
      exact Bool.false_ne_true
    have hMention : ∀ db', Wrote ⟨1, 0⟩ db db' → db'.hasEntity task.newEntityId →
        Wrote ⟨1, 1⟩ db (db'.withMention now task.newEntityId leafId task.ent) :=
      fun db' hWrote hNew => hWrote.trans (wrote_withMention hNew task.ent)
    rcases recordMention_cases task now leafId task.newEntityId ⟨1, 0⟩
        ((db.insertEntity now task.newEntityId sessionKey task.ent.canonical task.ent.entityType
          leafId).upsertType now task.ent.entityType) with
      ⟨hPasses, -, ⟨-, hOk⟩ | ⟨-, hOk⟩⟩ | ⟨fault, hFails, hEnds⟩
    · refine Or.inl ⟨?_, _, _, hOk, hInserted⟩
      rintro (hNone | hFails)
      · exact hNone rfl
      · exact hPasses hFails
    · refine Or.inl ⟨?_, _, _, hOk, hMention _ hInserted hEntity⟩
      rintro (hNone | hFails)
      · exact hNone rfl
      · exact hPasses hFails
    · refine Or.inr (Or.inr ⟨Or.inr (hFails hEntity hLeaf), ?_⟩)
      rcases hEnds with ⟨-, hError⟩ | ⟨-, hError⟩
      · exact ⟨_, fault, hError, Nat.one_pos⟩
      · exact ⟨_, fault, hError, Nat.two_pos⟩

theorem rowEnds (task : RowTask) (now : Timestamp) (sessionKey : String) (leafId : SummaryId)
    (db : ExtractionDb) : db.RowEnds task now sessionKey leafId := by
  by_cases hInserts : db.InsertsEntity task sessionKey leafId
  · exact rowEnds_of_inserts hInserts
  · have hOnly : ∀ entityId, (∀ id, db.FindsEntity task sessionKey id → id = entityId) →
        db.LateFailure task sessionKey leafId → db.MentionLate task leafId entityId := by
      rintro entityId hUnique (⟨hIns, -⟩ | ⟨id, hFinds, hLate⟩)
      · exact absurd hIns hInserts
      · rwa [← hUnique id hFinds]
    have hFails : (∀ id, ¬ db.FindsEntity task sessionKey id) →
        ¬ db.LateFailure task sessionKey leafId := by
      rintro hNone (⟨hIns, -⟩ | ⟨id, hFinds, -⟩)
      · exact hInserts hIns
      · exact hNone id hFinds
    cases hSelect : task.fails .selectEntity with
    | some fault =>
      refine Or.inr (Or.inl ⟨hFails fun id hFinds => ?_, fault, ?_⟩)
      · rw [hFinds.1] at hSelect
        cases hSelect
      · simp only [processRow, hSelect]
    | none =>
      cases hFind : db.findEntity sessionKey task.ent.canonical with
      | some e =>
        have hUnique : ∀ id, db.FindsEntity task sessionKey id → id = e.entityId := by
          rintro id ⟨-, ⟨e', hSome, rfl⟩ | ⟨hNone, -⟩⟩
          · rw [hFind] at hSome
            cases hSome
            rfl
          · rw [hFind] at hNone
            cases hNone
        refine rowEnds_of_finds ⟨hSelect, Or.inl ⟨e, hFind, rfl⟩⟩ (hOnly _ hUnique) ?_
        simp only [processRow, hSelect, hFind]
      | none =>
        have hTaken : ∀ id, db.FindsEntity task sessionKey id →
            task.fails .insertEntity = none ∧ db.hasEntity task.newEntityId ∧
              task.fails .selectWinner = none ∧ task.newEntityId = id := by
          rintro id ⟨-, ⟨e', hSome, -⟩ | ⟨-, hRest⟩⟩
          · rw [hFind] at hSome
            cases hSome
          · exact hRest
        cases hInsert : task.fails .insertEntity with
        | some fault =>
          refine Or.inr (Or.inl ⟨hFails fun id hFinds => ?_, fault, ?_⟩)
          · rw [(hTaken id hFinds).1] at hInsert
            cases hInsert
          · simp only [processRow, hSelect, hFind, hInsert]
        | none =>
          cases hEntity : db.hasEntity task.newEntityId with
          | false =>
            cases hLeaf : db.hasLeaf leafId with
            | true =>
              refine absurd ⟨hSelect, hFind, hInsert, ?_, hLeaf⟩ hInserts
              rw [hEntity]
              exact Bool.false_ne_true
            | false =>
              refine Or.inr (Or.inl ⟨hFails fun id hFinds => ?_, foreignKeyFault, ?_⟩)
              · rw [(hTaken id hFinds).2.1] at hEntity
                cases hEntity
              · simp only [processRow, hSelect, hFind, hInsert, hEntity, hLeaf,
                  Bool.false_eq_true, if_false, Bool.not_false, if_true]
          | true =>
            cases hWinner : task.fails .selectWinner with
            | some fault =>
              refine Or.inr (Or.inl ⟨hFails fun id hFinds => ?_, fault, ?_⟩)
              · rw [(hTaken id hFinds).2.2.1] at hWinner
                cases hWinner
              · simp only [processRow, hSelect, hFind, hInsert, hEntity, hWinner,
                  if_true]
            | none =>
              refine rowEnds_of_finds
                ⟨hSelect, Or.inr ⟨hFind, hInsert, hEntity, hWinner, rfl⟩⟩
                (hOnly _ fun id hFinds => (hTaken id hFinds).2.2.2.symm) ?_
              simp only [processRow, hSelect, hFind, hInsert, hEntity, hWinner, if_true]

/-! ## An item -/

/-- The state after the savepoint of a row. -/
def rowStep (now : Timestamp) (sessionKey : String) (leafId : SummaryId) (db : ExtractionDb)
    (task : RowTask) : ExtractionDb :=
  if task.ent.canonical = "" then db
  else
    match (processRow task now sessionKey leafId db).2 with
    | .ok db' => db'
    | .error _ => db

/-- The row leaves the transaction of its item open. -/
def RowCompletes (now : Timestamp) (sessionKey : String) (leafId : SummaryId) (db : ExtractionDb)
    (task : RowTask) : Prop :=
  task.ent.canonical ≠ "" → task.savepointFails = none ∧
    ∀ counts fault, processRow task now sessionKey leafId db = (counts, .error fault) →
      (∃ message, fault = .database message) ∧ task.rollbackFails = false

/-- The row does not fail late. -/
def RowInTime (sessionKey : String) (leafId : SummaryId) (db : ExtractionDb) (task : RowTask) :
    Prop :=
  task.ent.canonical ≠ "" → ¬ db.LateFailure task sessionKey leafId

/-- What the loop over the rows has done: `late` is what it counted and took back. -/
structure RowsDone (db : ExtractionDb) (counts : RowCounts) (db' : ExtractionDb)
    (counts' late : RowCounts) : Prop where
  catalogued : db.Catalogued → db'.Catalogued
  entities : counts'.entities + db.entities.length =
    counts.entities + db'.entities.length + late.entities
  mentions : counts'.mentions + db.mentions.length =
    counts.mentions + db'.mentions.length + late.mentions
  grows : db.entities.length ≤ db'.entities.length ∧ db.mentions.length ≤ db'.mentions.length

theorem rowsDone_refl (db : ExtractionDb) (counts : RowCounts) :
    RowsDone db counts db counts ⟨0, 0⟩ :=
  ⟨id, rfl, rfl, Nat.le_refl _, Nat.le_refl _⟩

/-- A row in front of the loop: it adds rows or takes them back. -/
theorem RowsDone.cons {db'' : ExtractionDb} {counts counts' added back late : RowCounts}
    (h : RowsDone db' ⟨counts.entities + added.entities, counts.mentions + added.mentions⟩ db''
      counts' late)
    (hCatalogued : db.Catalogued → db'.Catalogued)
    (hEntities : db'.entities.length + back.entities = db.entities.length + added.entities)
    (hMentions : db'.mentions.length + back.mentions = db.mentions.length + added.mentions)
    (hBack : back.entities ≤ added.entities ∧ back.mentions ≤ added.mentions) :
    RowsDone db counts db'' counts'
      ⟨back.entities + late.entities, back.mentions + late.mentions⟩ := by
  have hE := h.entities
  have hM := h.mentions
  have hGrows := h.grows
  dsimp only at hE hM
  refine ⟨fun hDb => h.catalogued (hCatalogued hDb), ?_, ?_, ?_⟩
  · dsimp only
    omega
  · dsimp only
    omega
  · omega

/-- The loop over the rows ends exactly if each row leaves the transaction open, and then
the counters are those of the rows and of the late failures. -/
def RowsEnd (now : Timestamp) (sessionKey : String) (leafId : SummaryId) (i : Nat)
    (tasks : List RowTask) (db : ExtractionDb) (progress : ItemProgress) : Prop :=
  (¬ Run.Along (rowStep now sessionKey leafId) (RowCompletes now sessionKey leafId) db tasks ∧
      ∃ message, processRows now sessionKey leafId i tasks db progress = .error message) ∨
    (Run.Along (rowStep now sessionKey leafId) (RowCompletes now sessionKey leafId) db tasks ∧
      ∃ db' progress' late, processRows now sessionKey leafId i tasks db progress =
          .ok (db', progress') ∧
        RowsDone db progress.counts db' progress'.counts late ∧
        (late.entities + late.mentions = 0 ↔
          Run.Along (rowStep now sessionKey leafId) (RowInTime sessionKey leafId) db tasks))

variable {i : Nat} {tasks : List RowTask} {progress : ItemProgress}

theorem rowsEnd_of_abort {message : String}
    (hRow : ¬ RowCompletes now sessionKey leafId db task)
    (hError : processRows now sessionKey leafId i (task :: tasks) db progress = .error message) :
    RowsEnd now sessionKey leafId i (task :: tasks) db progress :=
  Or.inl ⟨fun hAlong => hRow hAlong.1, message, hError⟩

/-- The row is over, and the loop goes on. -/
theorem RowsEnd.cons {dbRow : ExtractionDb} {progressRow : ItemProgress} {added back : RowCounts}
    (h : RowsEnd now sessionKey leafId (i + 1) tasks dbRow progressRow)
    (hStep : rowStep now sessionKey leafId db task = dbRow)
    (hLoop : processRows now sessionKey leafId i (task :: tasks) db progress =
      processRows now sessionKey leafId (i + 1) tasks dbRow progressRow)
    (hCounts : progressRow.counts = ⟨progress.counts.entities + added.entities,
      progress.counts.mentions + added.mentions⟩)
    (hCompletes : RowCompletes now sessionKey leafId db task)
    (hCatalogued : db.Catalogued → dbRow.Catalogued)
    (hEntities : dbRow.entities.length + back.entities = db.entities.length + added.entities)
    (hMentions : dbRow.mentions.length + back.mentions = db.mentions.length + added.mentions)
    (hLess : back.entities ≤ added.entities ∧ back.mentions ≤ added.mentions)
    (hBack : back.entities + back.mentions = 0 ↔ RowInTime sessionKey leafId db task) :
    RowsEnd now sessionKey leafId i (task :: tasks) db progress := by
  unfold RowsEnd
  rw [Run.Along, Run.Along, hStep, hLoop]
  refine Or.imp (fun h => ⟨fun hAll => h.1 hAll.2, h.2⟩) ?_ h
  rintro ⟨hAlong, db', progress', late, hOk, hDone, hLate⟩
  rw [hCounts] at hDone
  refine ⟨⟨hCompletes, hAlong⟩, db', progress', _, hOk,
    hDone.cons hCatalogued hEntities hMentions hLess, ?_⟩
  rw [← hBack, ← hLate]
  dsimp only
  omega

theorem rowsEnd (now : Timestamp) (sessionKey : String) (leafId : SummaryId) (i : Nat)
    (tasks : List RowTask) (db : ExtractionDb) (progress : ItemProgress) :
    RowsEnd now sessionKey leafId i tasks db progress := by
  induction tasks generalizing i db progress with
  | nil =>
    refine Or.inr ⟨trivial, db, progress, ⟨0, 0⟩, rfl, rowsDone_refl db _, ?_⟩
    exact iff_of_true rfl trivial
  | cons task tasks ih =>
    by_cases hBlank : task.ent.canonical = ""
    · have hSkip : ∀ P : Prop, task.ent.canonical ≠ "" → P := fun _ hNot => absurd hBlank hNot
      refine @RowsEnd.cons db task now sessionKey leafId i tasks progress db progress ⟨0, 0⟩
        ⟨0, 0⟩ (ih (i + 1) db progress) ?_ ?_ rfl (hSkip _) id rfl rfl
        ⟨Nat.le_refl _, Nat.le_refl _⟩
        (iff_of_true rfl (hSkip _))
      · rw [rowStep, if_pos hBlank]
      · rw [processRows, if_pos hBlank]
    · cases hSavepoint : task.savepointFails with
      | some message =>
        refine @rowsEnd_of_abort db task now sessionKey leafId i tasks progress message
          (fun hCompletes => ?_) ?_
        · rw [(hCompletes hBlank).1] at hSavepoint
          cases hSavepoint
        · simp only [processRows, if_neg hBlank, hSavepoint]
      | none =>
        rcases rowEnds task now sessionKey leafId db with
          ⟨hInTime, counts, dbRow, hRow, hWrote⟩ | hFailed
        · refine @RowsEnd.cons db task now sessionKey leafId i tasks progress dbRow
            (progress.add counts) counts ⟨0, 0⟩ (ih (i + 1) dbRow _) ?_ ?_ rfl
            (fun _ => ⟨hSavepoint, fun counts' fault hError => ?_⟩) hWrote.catalogued
            hWrote.entities hWrote.mentions ⟨Nat.zero_le _, Nat.zero_le _⟩
            (iff_of_true rfl fun _ => hInTime)
          · simp only [rowStep, if_neg hBlank, hRow]
          · simp only [processRows, if_neg hBlank, hSavepoint, hRow]
          · rw [hRow] at hError
            cases hError
        · obtain ⟨counts, fault, hRow, hCounts⟩ : ∃ counts fault,
              processRow task now sessionKey leafId db = (counts, .error fault) ∧
                (counts.entities + counts.mentions = 0 ↔
                  ¬ db.LateFailure task sessionKey leafId) := by
            rcases hFailed with ⟨hInTime, fault, hRow⟩ | ⟨hLate, counts, fault, hRow, hSome⟩
            · exact ⟨_, fault, hRow, iff_of_true rfl hInTime⟩
            · exact ⟨counts, fault, hRow,
                iff_of_false (Nat.ne_of_gt hSome) fun hInTime => hInTime hLate⟩
          cases fault with
          | other message =>
            refine @rowsEnd_of_abort db task now sessionKey leafId i tasks progress message
              (fun hCompletes => ?_) ?_
            · obtain ⟨⟨message', hDatabase⟩, -⟩ := (hCompletes hBlank).2 counts _ hRow
              cases hDatabase
            · simp only [processRows, if_neg hBlank, hSavepoint, hRow]
          | database message =>
            cases hRollback : task.rollbackFails with
            | true =>
              refine @rowsEnd_of_abort db task now sessionKey leafId i tasks progress
                message (fun hCompletes => ?_) ?_
              · rw [((hCompletes hBlank).2 counts _ hRow).2] at hRollback
                cases hRollback
              · simp only [processRows, if_neg hBlank, hSavepoint, hRow, hRollback, if_true]
            | false =>
              refine @RowsEnd.cons db task now sessionKey leafId i tasks progress db
                { progress.add counts with
                  error := some (perRowError progress.error i message) }
                counts counts (ih (i + 1) db _) ?_ ?_ rfl
                (fun _ => ⟨hSavepoint, fun counts' fault' hError => ?_⟩) id rfl rfl
                ⟨Nat.le_refl _, Nat.le_refl _⟩
                (hCounts.trans ⟨fun hInTime _ => hInTime, fun hInTime => hInTime hBlank⟩)
              · simp only [rowStep, if_neg hBlank, hRow]
              · simp only [processRows, if_neg hBlank, hSavepoint, hRow, hRollback,
                  Bool.false_eq_true, if_false]
              · rw [hRow] at hError
                cases hError
                exact ⟨⟨message, rfl⟩, hRollback⟩

/-- The item commits. -/
def Commits (now : Timestamp) (sessionKey : String) (leafId : SummaryId) (tasks : List RowTask)
    (ends : Option String) (db : ExtractionDb) : Prop :=
  Run.Along (rowStep now sessionKey leafId) (RowCompletes now sessionKey leafId) db tasks ∧
    ends = none

theorem catalogued_congr (hEntities : db'.entities = db.entities)
    (hMentions : db'.mentions = db.mentions) (h : db.Catalogued) : db'.Catalogued := by
  refine ⟨?_, ?_, ?_, ?_⟩
  · rw [hEntities]
    exact h.ids
  · rw [hEntities]
    exact h.names
  · unfold hasEntity
    rw [hEntities, hMentions]
    exact h.references
  · rw [hEntities, hMentions]
    exact h.counts

/-- An item is rolled back, or its counters are those of its rows and of its late
failures. -/
theorem processItem_cases (now : Timestamp) (queueId sessionKey : String) (leafId : SummaryId)
    (tasks : List RowTask) (ends : Option String) (db : ExtractionDb) :
    (¬ Commits now sessionKey leafId tasks ends db ∧
        ∃ message, processItem now queueId sessionKey leafId tasks ends db = (db, .error message)) ∨
      (Commits now sessionKey leafId tasks ends db ∧ ∃ db' progress late,
        processItem now queueId sessionKey leafId tasks ends db = (db', .ok progress) ∧
          RowsDone db ⟨0, 0⟩ db' progress.counts late ∧
          (late.entities + late.mentions = 0 ↔
            Run.Along (rowStep now sessionKey leafId) (RowInTime sessionKey leafId) db tasks)) := by
  unfold processItem Commits
  rcases rowsEnd now sessionKey leafId 0 tasks db ⟨⟨0, 0⟩, none⟩ with
    ⟨hAborts, message, hError⟩ | ⟨hAll, db', progress, late, hOk, hDone, hLate⟩
  · exact Or.inl ⟨fun h => hAborts h.1, message, withTransaction_error (by simp only [hError])⟩
  · cases ends with
    | some message =>
      refine Or.inl ⟨fun h => ?_, message, withTransaction_error (by simp only [hOk])⟩
      cases h.2
    | none =>
      refine Or.inr ⟨⟨hAll, rfl⟩, db'.completeQueueRow now queueId, progress, late,
        withTransaction_ok (by simp only [hOk]), ⟨fun h => ?_, hDone.entities, hDone.mentions,
          hDone.grows⟩, hLate⟩
      exact @catalogued_congr db' _ rfl rfl (hDone.catalogued h)

end ExtractionDb
end LosslessHermes
