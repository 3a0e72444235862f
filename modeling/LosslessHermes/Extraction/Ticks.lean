import LosslessHermes.Extraction.Recorded
import LosslessHermes.Operator.Ancestors

/-!
# Runs of extraction ticks

Any number of ticks work on one database; a step of the run starts a tick, takes its
next leaf or brings the reply of the extractor.
-/

namespace LosslessHermes
/-! ## The runs -/

/-- `added` counts the rows that the items of a tick have added. -/
structure CoreferenceState where
  db : ExtractionDb
  ticks : Nat → Option CoreferenceTick
  added : Nat → RowCounts

inductive CoreferenceAction
  | start (tick : Nat) (perTickLimit : Nat)
  | next (tick : Nat) (stillHeld : Bool)
  | answer (tick : Nat) (now : Timestamp) (reply : ExtractorReply)

namespace CoreferenceState

def setTick (state : CoreferenceState) (tick : Nat) (value : CoreferenceTick)
    (added : RowCounts) : CoreferenceState :=
  { state with
    ticks := fun i => if i = tick then some value else state.ticks i
    added := fun i => if i = tick then added else state.added i }

def emptyResult : CoreferenceTickResult := ⟨0, 0, 0, 0, false, []⟩

def step (state : CoreferenceState) : CoreferenceAction → CoreferenceState
  | .start tick perTickLimit =>
      match state.ticks tick with
      | some _ => state
      | none =>
          state.setTick tick ⟨state.db.pendingExtractions perTickLimit, none, emptyResult⟩ ⟨0, 0⟩
  | .next tick stillHeld =>
      match state.ticks tick with
      | some value => state.setTick tick (value.next stillHeld) (state.added tick)
      | none => state
  | .answer tick now reply =>
      match state.ticks tick with
      | some value =>
          match value.awaited with
          | some row =>
              let answered := value.answer now reply row state.db
              { state with db := answered.1 }.setTick tick answered.2
                ⟨(state.added tick).entities +
                    (answered.1.entities.length - state.db.entities.length),
                  (state.added tick).mentions +
                    (answered.1.mentions.length - state.db.mentions.length)⟩
          | none => state
      | none => state

/-- The totals of every tick are the numbers of the rows that it has added. -/
def TotalsExact (state : CoreferenceState) : Prop :=
  ∀ tick value, state.ticks tick = some value →
    value.result.newEntities = (state.added tick).entities ∧
      value.result.newMentions = (state.added tick).mentions

/-- The reply brings an extraction that is recorded already. -/
def RepliesRecorded (state : CoreferenceState) : CoreferenceAction → Prop
  | .answer tick _ (.extracted tasks _ _) =>
      ∃ value row, state.ticks tick = some value ∧ value.awaited = some row ∧
        state.db.Recorded row.sessionKey row.leafId (tasks.map (·.ent))
  | _ => False

/-- After the step the catalogue is right, and an extraction that was recorded has
changed nothing. -/
structure Keeps (state : CoreferenceState) (action : CoreferenceAction) : Prop where
  catalogued : (state.step action).db.Catalogued
  unchanged : state.RepliesRecorded action → state.db.SameCatalogue (state.step action).db

/-- After the step the catalogue and the totals are right. -/
structure Sound (state : CoreferenceState) (action : CoreferenceAction) : Prop
    extends state.Keeps action where
  totals : (state.step action).TotalsExact

/-- In an item that commits no row fails after it has inserted an entity or a mention. -/
def InTime (state : CoreferenceState) : CoreferenceAction → Prop
  | .answer tick now (.extracted tasks beginFails ends) =>
      ∀ value row, state.ticks tick = some value → value.awaited = some row →
        beginFails = false →
          ExtractionDb.Commits now row.sessionKey row.leafId tasks ends state.db →
            Run.Along (ExtractionDb.rowStep now row.sessionKey row.leafId)
              (ExtractionDb.RowInTime row.sessionKey row.leafId) state.db tasks
  | _ => True

variable {state : CoreferenceState}

/-! ## The catalogue -/

theorem sameCatalogue_refl (db : ExtractionDb) : db.SameCatalogue db := ⟨rfl, rfl, rfl⟩

theorem sameCatalogue_recordFailure (db : ExtractionDb) (queueId message : String)
    (updateFails : Option String) (fallbackFails : Bool) :
    db.SameCatalogue (db.recordFailure queueId message updateFails fallbackFails).1 := by
  cases updateFails with
  | none => exact ⟨rfl, rfl, rfl⟩
  | some updateMessage =>
    cases fallbackFails with
    | true => exact ⟨rfl, rfl, rfl⟩
    | false => exact ⟨rfl, rfl, rfl⟩

theorem answer_item (value : CoreferenceTick) (now : Timestamp) (tasks : List RowTask)
    (ends : Option String) (row : DrawnRow) (db : ExtractionDb) :
    (value.answer now (.extracted tasks false ends) row db).1 =
      (db.processItem now row.queueId row.sessionKey row.leafId tasks ends).1 := by
  simp only [CoreferenceTick.answer, Bool.false_eq_true, if_false]
  split
  · rename_i db' message hError
    rw [hError]
  · rename_i db' progress hOk
    rw [hOk]

/-- What a reply makes of the database: nothing of the catalogue, or an item. -/
theorem answer_db (value : CoreferenceTick) (now : Timestamp) (reply : ExtractorReply)
    (row : DrawnRow) (db : ExtractionDb) :
    db.SameCatalogue (value.answer now reply row db).1 ∨
      ∃ tasks ends, reply = .extracted tasks false ends ∧ (value.answer now reply row db).1 =
        (db.processItem now row.queueId row.sessionKey row.leafId tasks ends).1 := by
  cases reply with
  | raised message updateFails fallbackFails =>
    exact Or.inl (sameCatalogue_recordFailure db _ _ _ _)
  | extracted tasks beginFails ends =>
    cases beginFails with
    | true => exact Or.inl (sameCatalogue_refl db)
    | false => exact Or.inr ⟨tasks, ends, rfl, answer_item value now tasks ends row db⟩

/-- The rows that the reply has added, in the counts of its tick. -/
def addedBy (state : CoreferenceState) (tick : Nat) (db : ExtractionDb) : RowCounts :=
  ⟨(state.added tick).entities + (db.entities.length - state.db.entities.length),
    (state.added tick).mentions + (db.mentions.length - state.db.mentions.length)⟩

/-- A reply to a tick that waits for none changes nothing. -/
theorem step_answer (state : CoreferenceState) (tick : Nat) (now : Timestamp)
    (reply : ExtractorReply) :
    (∃ value row, state.ticks tick = some value ∧ value.awaited = some row ∧
        state.step (.answer tick now reply) =
          ({ state with db := (value.answer now reply row state.db).1 } :
            CoreferenceState).setTick tick (value.answer now reply row state.db).2
              (state.addedBy tick (value.answer now reply row state.db).1)) ∨
      ((∀ value, state.ticks tick = some value → value.awaited = none) ∧
        state.step (.answer tick now reply) = state) := by
  cases hTick : state.ticks tick with
  | none => exact Or.inr ⟨fun _ h => (by cases h), by simp only [step, hTick]⟩
  | some value =>
    cases hAwaited : value.awaited with
    | none =>
      refine Or.inr ⟨fun value' hValue => ?_, by simp only [step, hTick, hAwaited]⟩
      cases hValue
      exact hAwaited
    | some row =>
      refine Or.inl ⟨value, row, rfl, hAwaited, ?_⟩
      simp only [step, hTick, hAwaited]
      rfl

/-- **Every step keeps the catalogue, and a recorded extraction changes nothing.** -/
theorem keeps_step (h : state.db.Catalogued) (action : CoreferenceAction) :
    state.Keeps action := by
  have hSame : ∀ {action : CoreferenceAction}, (state.step action).db = state.db →
      state.Keeps action := by
    intro action hDb
    constructor
    · rwa [hDb]
    · intro _
      rw [hDb]
      exact sameCatalogue_refl state.db
  cases action with
  | start tick perTickLimit =>
    apply hSame
    simp only [step]
    split <;> rfl
  | next tick stillHeld =>
    apply hSame
    simp only [step]
    split <;> rfl
  | answer tick now reply =>
    rcases step_answer state tick now reply with
      ⟨value, row, hTick, hAwaited, hStep⟩ | ⟨-, hStill⟩
    · have hDb : (state.step (.answer tick now reply)).db =
          (value.answer now reply row state.db).1 := by
        rw [hStep]
        rfl
      rcases answer_db value now reply row state.db with hQuiet | ⟨tasks, ends, rfl, hItem⟩
      · constructor
        · rw [hDb]
          exact ExtractionDb.catalogued_congr hQuiet.1 hQuiet.2.1 h
        · intro _
          rwa [hDb]
      · constructor
        · rw [hDb, hItem]
          rcases ExtractionDb.processItem_cases now row.queueId row.sessionKey row.leafId tasks
              ends state.db with ⟨-, message, hError⟩ | ⟨-, db, progress, late, hOk, hDone, -⟩
          · rwa [hError]
          · rw [hOk]
            exact hDone.catalogued h
        · rintro ⟨value', row', hValue, hRow, hRecorded⟩
          rw [hTick] at hValue
          cases hValue
          rw [hAwaited] at hRow
          cases hRow
          rw [hDb, hItem]
          exact ExtractionDb.processItem_recorded h hRecorded
    · exact hSame (by rw [hStill])

/-! ## The totals -/

variable {db : ExtractionDb}

/-- A tick is replaced, by one with these totals. -/
theorem totalsExact_setTick (h : state.TotalsExact) (tick : Nat)
    (value : CoreferenceTick) (added : RowCounts) :
    (({ state with db := db } : CoreferenceState).setTick tick value added).TotalsExact ↔
      value.result.newEntities = added.entities ∧ value.result.newMentions = added.mentions := by
  constructor
  · intro hAfter
    have hTick := hAfter tick value
    simp only [setTick, if_true] at hTick
    exact hTick trivial
  · intro hTick i value' hValue
    by_cases hSame : i = tick
    · simp only [setTick, hSame, if_true] at hValue ⊢
      cases hValue
      exact hTick
    · simp only [setTick, hSame, if_false] at hValue ⊢
      exact h i value' hValue

variable {tick : Nat}

theorem addedBy_of_same (h : state.db.SameCatalogue db) :
    state.addedBy tick db = state.added tick := by
  unfold addedBy
  rw [h.1, h.2.1, Nat.sub_self, Nat.sub_self]
  rfl

variable {value : CoreferenceTick}

/-- The totals stay, and no row is added. -/
theorem totalsExact_of_quiet (h : state.TotalsExact) {value' : CoreferenceTick}
    {added : RowCounts} (hTick : state.ticks tick = some value) (hAdded : added = state.added tick)
    (hResult : value'.result.newEntities = value.result.newEntities ∧
      value'.result.newMentions = value.result.newMentions) :
    (({ state with db := db } : CoreferenceState).setTick tick value' added).TotalsExact := by
  rw [totalsExact_setTick h, hResult.1, hResult.2, hAdded]
  exact h tick value hTick

variable {row : DrawnRow}

/-- The totals of a reply whose item commits. -/
theorem totalsExact_committed (h : state.TotalsExact)
    {progress : ExtractionDb.ItemProgress} {late : RowCounts}
    (hTick : state.ticks tick = some value)
    (hDone : ExtractionDb.RowsDone state.db ⟨0, 0⟩ db progress.counts late) :
    (({ state with db := db } : CoreferenceState).setTick tick (value.succeeded row progress)
        (state.addedBy tick db)).TotalsExact ↔ late.entities + late.mentions = 0 := by
  obtain ⟨hOldEntities, hOldMentions⟩ := h tick value hTick
  have hEntities := hDone.entities
  have hMentions := hDone.mentions
  have hGrows := hDone.grows
  rw [totalsExact_setTick h]
  dsimp only [CoreferenceTick.succeeded, addedBy]
  dsimp only at hEntities hMentions
  omega

/-- A reply to a waiting tick. -/
theorem totalsExact_answer (h : state.TotalsExact) {now : Timestamp} {reply : ExtractorReply}
    (hTick : state.ticks tick = some value) (hAwaited : value.awaited = some row) :
    (({ state with db := (value.answer now reply row state.db).1 } : CoreferenceState).setTick tick
        (value.answer now reply row state.db).2
          (state.addedBy tick (value.answer now reply row state.db).1)).TotalsExact ↔
      state.InTime (.answer tick now reply) := by
  have hUnique : ∀ value' row', state.ticks tick = some value' → value'.awaited = some row' →
      row' = row := by
    intro value' row' hValue hRow
    rw [hTick] at hValue
    cases hValue
    rw [hAwaited] at hRow
    exact (Option.some.inj hRow).symm
  cases reply with
  | raised message updateFails fallbackFails =>
    refine iff_of_true ?_ trivial
    have hSame := sameCatalogue_recordFailure state.db row.queueId message updateFails
      fallbackFails
    exact totalsExact_of_quiet h hTick (addedBy_of_same hSame) ⟨rfl, rfl⟩
  | extracted tasks beginFails ends =>
    cases beginFails with
    | true =>
      refine iff_of_true ?_ fun _ _ _ _ hBegins => by cases hBegins
      exact totalsExact_of_quiet h hTick (addedBy_of_same (sameCatalogue_refl _)) ⟨rfl, rfl⟩
    | false =>
      rcases ExtractionDb.processItem_cases now row.queueId row.sessionKey row.leafId tasks ends
          state.db with
        ⟨hNot, message, hError⟩ | ⟨hCommits, db, progress, late, hItem, hDone, hLate⟩
      · have hAnswer : value.answer now (.extracted tasks false ends) row state.db =
            (state.db, value.failed row ("tx-rollback: " ++ truncate message 500)) := by
          simp only [CoreferenceTick.answer, Bool.false_eq_true, if_false, hError]
        rw [hAnswer]
        refine iff_of_true ?_ fun value' row' hValue hRow _ hCommits => ?_
        · exact totalsExact_of_quiet h hTick (addedBy_of_same (sameCatalogue_refl _))
            ⟨rfl, rfl⟩
        · rw [hUnique value' row' hValue hRow] at hCommits
          exact absurd hCommits hNot
      · have hAnswer : value.answer now (.extracted tasks false ends) row state.db =
            (db, value.succeeded row progress) := by
          simp only [CoreferenceTick.answer, Bool.false_eq_true, if_false, hItem]
        rw [hAnswer, totalsExact_committed h hTick hDone, hLate]
        constructor
        · intro hInTime value' row' hValue hRow _ _
          rwa [hUnique value' row' hValue hRow]
        · intro hInTime
          exact hInTime value row hTick hAwaited rfl hCommits

theorem totalsExact_step_iff (h : state.TotalsExact) (action : CoreferenceAction) :
    (state.step action).TotalsExact ↔ state.InTime action := by
  cases action with
  | start tick perTickLimit =>
    refine iff_of_true ?_ trivial
    simp only [step]
    split
    · exact h
    · exact (totalsExact_setTick h tick _ _).mpr ⟨rfl, rfl⟩
  | next tick stillHeld =>
    refine iff_of_true ?_ trivial
    simp only [step]
    split
    · rename_i value hTick
      refine totalsExact_of_quiet h hTick rfl ?_
      unfold CoreferenceTick.next
      split
      · split
        · exact ⟨rfl, rfl⟩
        · exact ⟨rfl, rfl⟩
      · exact ⟨rfl, rfl⟩
    · exact h
  | answer tick now reply =>
    rcases step_answer state tick now reply with
      ⟨value, row, hTick, hAwaited, hStep⟩ | ⟨hNone, hStill⟩
    · rw [hStep]
      exact totalsExact_answer h hTick hAwaited
    · rw [hStill]
      refine iff_of_true h ?_
      cases reply with
      | raised message updateFails fallbackFails => trivial
      | extracted tasks beginFails ends =>
        intro value row hTick hAwaited
        rw [hNone value hTick] at hAwaited
        cases hAwaited

/-- **The catalogue and the totals are right in a run exactly if no row of it fails late
in an item that commits.** -/
theorem sound_iff (h : state.db.Catalogued) (hTotals : state.TotalsExact)
    (actions : List CoreferenceAction) :
    Run.Along step Sound state actions ↔ Run.Along step InTime state actions := by
  have hIff : ∀ (state : CoreferenceState) action, state.db.Catalogued ∧ state.TotalsExact →
      (state.Sound action ↔ state.InTime action) := by
    intro state action hInv
    rw [← totalsExact_step_iff hInv.2 action]
    exact ⟨fun hSound => hSound.totals, fun hAfter => ⟨keeps_step hInv.1 action, hAfter⟩⟩
  refine Run.along_iff_of_invariant hIff (fun state action hInv hSound => ?_) ⟨h, hTotals⟩
  exact ⟨hSound.catalogued, hSound.totals⟩

/-! ## Reprocessing -/

theorem extends_step (action : CoreferenceAction) :
    ExtractionDb.Extends state.db (state.step action).db := by
  cases action with
  | start tick perTickLimit =>
    simp only [step]
    split <;> exact ExtractionDb.Extends.refl _
  | next tick stillHeld =>
    simp only [step]
    split <;> exact ExtractionDb.Extends.refl _
  | answer tick now reply =>
    rcases step_answer state tick now reply with ⟨value, row, -, -, hStep⟩ | ⟨-, hStill⟩
    · rw [hStep]
      rcases answer_db value now reply row state.db with hSame | ⟨tasks, ends, -, hItem⟩
      · exact ExtractionDb.Extends.of_sameCatalogue hSame
      · dsimp only [setTick]
        rw [hItem]
        exact (ExtractionDb.processItem_extends row.queueId tasks ends).1
    · rw [hStill]
      exact ExtractionDb.Extends.refl _

/-- What is recorded stays recorded in a run. -/
theorem recorded_run {sessionKey : String} {leafId : SummaryId} {extracted : List ExtractedEntity}
    (h : state.db.Recorded sessionKey leafId extracted) (actions : List CoreferenceAction) :
    (Run.final step state actions).db.Recorded sessionKey leafId extracted :=
  @Run.final_invariant _ _ step
    (fun (state : CoreferenceState) => state.db.Recorded sessionKey leafId extracted) state actions
    (fun _ action _ hState => (extends_step action).recorded hState) h

/-- Every run keeps the catalogue. -/
theorem catalogued_run (h : state.db.Catalogued) (actions : List CoreferenceAction) :
    (Run.final step state actions).db.Catalogued :=
  @Run.final_invariant _ _ step (fun (state : CoreferenceState) => state.db.Catalogued) state
    actions (fun _ action _ hState => (keeps_step hState action).catalogued) h

/-- A reply whose item committed with every row released is recorded from then on. -/
theorem recorded_of_committed {now : Timestamp} {tasks : List RowTask} {ends : Option String}
    (hTick : state.ticks tick = some value) (hAwaited : value.awaited = some row)
    (hCommits : ExtractionDb.Commits now row.sessionKey row.leafId tasks ends state.db)
    (hReleased : Run.Along (ExtractionDb.rowStep now row.sessionKey row.leafId) (fun db task =>
      ExtractionDb.RowReleased now row.sessionKey row.leafId db task ∧
        ExtractionDb.FreshSuffix row.sessionKey db task) state.db tasks)
    (actions : List CoreferenceAction) :
    (Run.final step state (.answer tick now (.extracted tasks false ends) :: actions)).db.Recorded
      row.sessionKey row.leafId (tasks.map (·.ent)) := by
  refine @recorded_run (state.step (.answer tick now (.extracted tasks false ends))) _ _ _ ?_
    actions
  rcases step_answer state tick now (.extracted tasks false ends) with
    ⟨value', row', hValue, hRow, hStep⟩ | ⟨hNone, -⟩
  · rw [hTick] at hValue
    cases hValue
    rw [hAwaited] at hRow
    cases hRow
    rw [hStep]
    dsimp only [setTick]
    rw [answer_item]
    exact (ExtractionDb.processItem_extends row.queueId tasks ends).2 hCommits hReleased
  · rw [hNone value hTick] at hAwaited
    cases hAwaited

/-! ## A row that fails after its insertions -/

def oneLeafQueued : CoreferenceState where
  db :=
    { OperatorDb.ofDb { Db.empty with
        summaries := [⟨"leaf", 1, .leaf, 0, "", 1, [], none, none, 0, 0, 1, "m", 0, none⟩] } with
      queue := [⟨"q", "leaf", .entity, 0, none, 0, none⟩]
      entities := []
      mentions := []
      entityTypes := [] }
  ticks := fun _ => none
  added := fun _ => ⟨0, 0⟩

/-- One entity, whose counter cannot be bumped. -/
def fullDisk : RowTask where
  ent := ⟨"PR 7", "pr_number", none, none, none⟩
  suffix := "0"
  savepointFails := none
  fails statement :=
    if statement = .bumpEntity then some (.database "database or disk is full") else none
  rollbackFails := false

def failingTick : List CoreferenceAction :=
  [.start 0 50, .next 0 true, .answer 0 1 (.extracted [fullDisk] false none)]

theorem catalogued_oneLeafQueued : oneLeafQueued.db.Catalogued :=
  ⟨List.nodup_nil, List.nodup_nil, fun _ hm => absurd hm List.not_mem_nil,
    fun _ he => absurd he List.not_mem_nil⟩

theorem totalsExact_oneLeafQueued : oneLeafQueued.TotalsExact :=
  fun _ _ hTick => nomatch hTick

/-- The tick reports an entity and a mention, and the catalogue is empty. -/
theorem not_sound : oneLeafQueued.db.Catalogued ∧ oneLeafQueued.TotalsExact ∧
    ¬ Run.Along step Sound oneLeafQueued failingTick := by
  refine ⟨catalogued_oneLeafQueued, totalsExact_oneLeafQueued, ?_⟩
  rintro ⟨-, -, hSound, -⟩
  have hReported := hSound.totals 0
    ⟨[], none, ⟨1, 1, 1, 0, false, [⟨"q", "leaf", true, some 1, some 1,
      some " | per-row-failed[0]: database or disk is full"⟩]⟩⟩ (by decide +kernel)
  exact absurd hReported.1 (by decide +kernel)

theorem sound_iff_failingTick : Run.Along step Sound oneLeafQueued failingTick ↔
    Run.Along step InTime oneLeafQueued failingTick :=
  sound_iff catalogued_oneLeafQueued totalsExact_oneLeafQueued failingTick

theorem catalogued_run_failingTick : (Run.final step oneLeafQueued failingTick).db.Catalogued :=
  catalogued_run catalogued_oneLeafQueued failingTick

/-! ## A row that is released -/

def released : RowTask := { fullDisk with fails := fun _ => none }

/-- The entity is still recorded when another tick has begun. -/
theorem recorded_of_committed_released :
    (Run.final step oneLeafQueued [.start 0 50, .next 0 true,
      .answer 0 1 (.extracted [released] false none), .start 1 50]).db.Recorded "" "leaf"
        [released.ent] := by
  have hReleased : ∃ counts db', ExtractionDb.processRow released 1 "" "leaf" oneLeafQueued.db =
      (counts, .ok db') := ⟨_, _, rfl⟩
  refine @recorded_of_committed (Run.final step oneLeafQueued [.start 0 50, .next 0 true]) 0 _
    ⟨"q", "leaf", "", ""⟩ 1 [released] none rfl (by decide +kernel)
    ⟨⟨fun _ => ⟨rfl, fun counts fault hRow => ?_⟩, trivial⟩, rfl⟩
    ⟨⟨fun _ => hReleased, fun _ => by decide +kernel⟩, trivial⟩ [.start 1 50]
  obtain ⟨_, _, hOk⟩ := hReleased
  exact nomatch hOk.symm.trans hRow

end CoreferenceState
end LosslessHermes
