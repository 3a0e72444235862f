import LosslessHermes.Extraction.Ticks

/-!
# Attempts on a queued leaf

A leaf is handed to the extractor as long as its row counts fewer than `maxAttempts` attempts.
What a row has used is its attempts and the one that is under way. `handOuts_le` bounds the number
of times that a row is handed out, in every run in which each reply settles its row: a failure is
counted, or the row is completed. An item that is rolled back does neither. A row must also be
fresh when it is handed out.
-/

namespace LosslessHermes

namespace ExtractionDb

/-! ## The queue -/

variable {db db' : ExtractionDb}

variable {now : Timestamp} {leafId : SummaryId}

theorem recordMention_queue {task : RowTask} {entityId : String} {counts counts' : RowCounts}
    (h : recordMention task now leafId entityId counts db = (counts', .ok db')) :
    db'.queue = db.queue := by
  unfold recordMention releaseRow at h
  split at h
  · cases h
  · split at h
    · split at h <;> cases h
      rfl
    · split at h
      · cases h
      · dsimp only at h
        split at h
        · cases h
        · split at h <;> cases h
          rfl

variable {sessionKey : String}

theorem processRow_queue {task : RowTask} {counts : RowCounts}
    (h : processRow task now sessionKey leafId db = (counts, .ok db')) :
    db'.queue = db.queue := by
  unfold processRow at h
  dsimp only at h
  split at h
  · cases h
  · split at h
    · exact recordMention_queue h
    · split at h
      · cases h
      · split at h
        · split at h
          · cases h
          · exact recordMention_queue h
        · split at h
          · cases h
          · split at h
            · cases h
            · have hQueue := recordMention_queue h
              exact hQueue

theorem processRows_queue {i : Nat} {tasks : List RowTask} {progress progress' : ItemProgress}
    (h : processRows now sessionKey leafId i tasks db progress = .ok (db', progress')) :
    db'.queue = db.queue := by
  induction tasks generalizing i db progress with
  | nil =>
    cases h
    rfl
  | cons task tasks ih =>
    unfold processRows at h
    split at h
    · exact ih h
    · split at h
      · cases h
      · split at h
        · rename_i hRow
          exact (ih h).trans (processRow_queue hRow)
        · cases h
        · split at h
          · cases h
          · exact ih h

/-- An item that commits completes its row. -/
theorem processItem_queue {queueId : String} {tasks : List RowTask} {ends : Option String}
    (h : Commits now sessionKey leafId tasks ends db) :
    (processItem now queueId sessionKey leafId tasks ends db).1.queue =
      (db.completeQueueRow now queueId).queue := by
  obtain ⟨hAll, rfl⟩ := h
  rcases rowsEnd now sessionKey leafId 0 tasks db ⟨⟨0, 0⟩, none⟩ with
    ⟨hAborts, -⟩ | ⟨-, db', progress, late, hOk, -⟩
  · exact absurd hAll hAborts
  · have hItem : processItem now queueId sessionKey leafId tasks none db =
        (db'.completeQueueRow now queueId, .ok progress) :=
      withTransaction_ok (by simp only [hOk])
    rw [hItem]
    dsimp only [completeQueueRow]
    rw [processRows_queue hOk]

/-- The row of an id. -/
def queueRow (db : ExtractionDb) (queueId : String) : Option ExtractionQueueRow :=
  db.queue.find? fun q => q.queueId = queueId

theorem queueRow_map {f : ExtractionQueueRow → ExtractionQueueRow}
    (hId : ∀ q, (f q).queueId = q.queueId) (hQueue : db'.queue = db.queue.map f)
    (queueId : String) : db'.queueRow queueId = (db.queueRow queueId).map f := by
  unfold queueRow
  rw [hQueue, List.find?_map]
  simp only [Function.comp_def, hId]

end ExtractionDb

namespace CoreferenceState

variable {state : CoreferenceState}

/-! ## What is counted -/

/-- The action hands the row to the extractor. -/
def handsOut (queueId : String) (state : CoreferenceState) : CoreferenceAction → Bool
  | .next tick true =>
      match state.ticks tick with
      | some ⟨row :: _, none, _⟩ => row.queueId = queueId
      | _ => false
  | _ => false

/-- How often a run hands the row to the extractor. -/
def handOuts (queueId : String) (state : CoreferenceState) (actions : List CoreferenceAction) :
    Nat :=
  Run.count step (handsOut queueId) state actions

/-- A tick waits for the extractor's reply on the row. -/
def Awaits (state : CoreferenceState) (queueId : String) : Prop :=
  ∃ tick value row, state.ticks tick = some value ∧ value.awaited = some row ∧
    row.queueId = queueId

/-- The row waits for an attempt. -/
def IsPending (state : CoreferenceState) (queueId : String) : Prop :=
  ∃ q, state.db.queueRow queueId = some q ∧ q.completedAt = none ∧ q.attempts < maxAttempts

/-- A row that is handed out is pending still, and in no other hands. -/
def Fresh (state : CoreferenceState) (action : CoreferenceAction) : Prop :=
  ∀ queueId, handsOut queueId state action = true →
    state.IsPending queueId ∧ ¬ state.Awaits queueId

/-- A reply settles its row: an error is counted by one of the two statements, and an extraction
is committed. -/
def Settles (state : CoreferenceState) : CoreferenceAction → Prop
  | .answer tick now reply =>
      ∀ value row, state.ticks tick = some value → value.awaited = some row →
        match reply with
        | .raised _ updateFails fallbackFails => updateFails = none ∨ fallbackFails = false
        | .extracted tasks beginFails ends =>
            beginFails = false ∧
              ExtractionDb.Commits now row.sessionKey row.leafId tasks ends state.db
  | _ => True

open Classical in
/-- What the row has used of its attempts. A row that is completed has used them up. -/
noncomputable def used (queueId : String) (state : CoreferenceState) : Nat :=
  match state.db.queueRow queueId with
  | none => maxAttempts
  | some q =>
      if q.completedAt = none then q.attempts + (if state.Awaits queueId then 1 else 0)
      else maxAttempts + q.attempts + 1

/-! ## What a row has used -/

variable {queueId : String}

theorem used_of_none (h : state.db.queueRow queueId = none) :
    used queueId state = maxAttempts := by
  simp only [used, h]

variable {q : ExtractionQueueRow}

theorem used_of_completed (h : state.db.queueRow queueId = some q) (hDone : q.completedAt ≠ none) :
    used queueId state = maxAttempts + q.attempts + 1 := by
  simp only [used, h, hDone, if_false]

theorem used_of_pending (h : state.db.queueRow queueId = some q) (hPending : q.completedAt = none) :
    used queueId state ≤ q.attempts + 1 ∧ q.attempts ≤ used queueId state := by
  simp only [used, h, hPending, if_true]
  split <;> omega

theorem used_of_awaited (h : state.db.queueRow queueId = some q) (hPending : q.completedAt = none)
    (hAwaits : state.Awaits queueId) : used queueId state = q.attempts + 1 := by
  simp only [used, h, hPending, hAwaits, if_true]

theorem used_of_idle (h : state.db.queueRow queueId = some q) (hPending : q.completedAt = none)
    (hIdle : ¬ state.Awaits queueId) : used queueId state = q.attempts := by
  simp only [used, h, hPending, hIdle, if_true, if_false, Nat.add_zero]

/-- A state with the same row and no fewer ticks that wait has used no less. -/
theorem used_le_of_same {state' : CoreferenceState}
    (hRow : state'.db.queueRow queueId = state.db.queueRow queueId)
    (hAwaits : state.Awaits queueId → state'.Awaits queueId) :
    used queueId state ≤ used queueId state' := by
  cases h : state.db.queueRow queueId with
  | none => rw [used_of_none h, used_of_none (hRow.trans h)]
  | some q =>
    by_cases hPending : q.completedAt = none
    · by_cases hBefore : state.Awaits queueId
      · rw [used_of_awaited h hPending hBefore,
          used_of_awaited (hRow.trans h) hPending (hAwaits hBefore)]
      · rw [used_of_idle h hPending hBefore]
        exact (used_of_pending (hRow.trans h) hPending).2
    · rw [used_of_completed h hPending, used_of_completed (hRow.trans h) hPending]

/-- A row that is settled has used no less than while it was awaited. -/
theorem used_le_of_settled {state' : CoreferenceState} {f : ExtractionQueueRow → ExtractionQueueRow}
    (hRow : state'.db.queueRow queueId = (state.db.queueRow queueId).map f)
    (hSettled : ∀ q, state.db.queueRow queueId = some q → q.attempts ≤ (f q).attempts ∧
      (q.completedAt ≠ none → (f q).completedAt ≠ none) ∧
        ((f q).completedAt ≠ none ∨ q.attempts + 1 ≤ (f q).attempts)) :
    used queueId state ≤ used queueId state' := by
  cases h : state.db.queueRow queueId with
  | none =>
    rw [h, Option.map_none] at hRow
    rw [used_of_none h, used_of_none hRow]
  | some q =>
    obtain ⟨hAttempts, hStays, hEnds⟩ := hSettled q h
    rw [h, Option.map_some] at hRow
    by_cases hDone : (f q).completedAt = none
    · have hPending : q.completedAt = none := by
        by_contra hNot
        exact hStays hNot hDone
      have hCounted : q.attempts + 1 ≤ (f q).attempts :=
        hEnds.resolve_left fun hNot => hNot hDone
      have hBefore := (used_of_pending h hPending).1
      have hAfter := (used_of_pending hRow hDone).2
      omega
    · rw [used_of_completed hRow hDone]
      by_cases hPending : q.completedAt = none
      · have hBefore := (used_of_pending h hPending).1
        omega
      · rw [used_of_completed h hPending]
        omega

/-! ## The steps -/

theorem awaits_setTick {db : ExtractionDb} {tick : Nat} {value : CoreferenceTick}
    {added : RowCounts} {queueId : String} :
    (({ state with db := db } : CoreferenceState).setTick tick value added).Awaits queueId ↔
      (∃ row, value.awaited = some row ∧ row.queueId = queueId) ∨
        ∃ i value' row, i ≠ tick ∧ state.ticks i = some value' ∧ value'.awaited = some row ∧
          row.queueId = queueId := by
  constructor
  · rintro ⟨i, value', row, hTick, hAwaited, hId⟩
    by_cases hSame : i = tick
    · simp only [setTick, hSame, if_true] at hTick
      cases hTick
      exact .inl ⟨row, hAwaited, hId⟩
    · simp only [setTick, hSame, if_false] at hTick
      exact .inr ⟨i, value', row, hSame, hTick, hAwaited, hId⟩
  · rintro (⟨row, hAwaited, hId⟩ | ⟨i, value', row, hOther, hTick, hAwaited, hId⟩)
    · exact ⟨tick, value, row, by simp only [setTick, if_true], hAwaited, hId⟩
    · exact ⟨i, value', row, by simpa only [setTick, hOther, if_false] using hTick, hAwaited, hId⟩

variable {tick : Nat} {value : CoreferenceTick}

/-- A tick that waits for nothing may be replaced by any other. -/
theorem awaits_setTick_of_idle {added : RowCounts}
    (hIdle : ∀ value', state.ticks tick = some value' → value'.awaited = none)
    (h : state.Awaits queueId) : (state.setTick tick value added).Awaits queueId := by
  obtain ⟨i, value', row, hTick, hAwaited, hId⟩ := h
  refine (@awaits_setTick state state.db tick value added queueId).mpr
    (.inr ⟨i, value', row, fun hSame => ?_, hTick, hAwaited, hId⟩)
  rw [hIdle value' (hSame ▸ hTick)] at hAwaited
  cases hAwaited

/-- The head of an item: a row is taken, or the tick waits for the same row as before. -/
theorem next_cases (stillHeld : Bool) (value : CoreferenceTick) :
    (∃ row rows, value = ⟨row :: rows, none, value.result⟩ ∧
        value.next stillHeld = ⟨rows, some row, value.result⟩) ∨
      (value.next stillHeld).awaited = value.awaited ∧
        (value.next stillHeld).drawn.Sublist value.drawn := by
  obtain ⟨drawn, awaited, result⟩ := value
  cases awaited with
  | some row => exact .inr ⟨rfl, List.Sublist.refl _⟩
  | none =>
    cases drawn with
    | nil => exact .inr ⟨rfl, List.Sublist.refl _⟩
    | cons row rows =>
      cases stillHeld with
      | true => exact .inl ⟨row, rows, rfl, rfl⟩
      | false => exact .inr ⟨rfl, List.nil_sublist _⟩

/-- After a reply the tick waits for nothing. -/
theorem answer_tick (value : CoreferenceTick) (now : Timestamp) (reply : ExtractorReply)
    (row : DrawnRow) (db : ExtractionDb) :
    (value.answer now reply row db).2.awaited = none ∧
      (value.answer now reply row db).2.drawn.Sublist value.drawn := by
  unfold CoreferenceTick.answer
  split
  · exact ⟨rfl, List.Sublist.refl _⟩
  · split
    · exact ⟨rfl, List.nil_sublist _⟩
    · split <;> exact ⟨rfl, List.Sublist.refl _⟩

theorem step_start_used (queueId : String) (tick perTickLimit : Nat) :
    used queueId state ≤ used queueId (state.step (.start tick perTickLimit)) := by
  simp only [step]
  split
  · exact Nat.le_refl _
  · rename_i hNone
    refine used_le_of_same rfl (awaits_setTick_of_idle fun value' hTick => ?_)
    rw [hNone] at hTick
    cases hTick

theorem step_next_used (queueId : String) (tick : Nat) (stillHeld : Bool) :
    used queueId state ≤ used queueId (state.step (.next tick stillHeld)) := by
  simp only [step]
  split
  · rename_i value hTick
    rcases next_cases stillHeld value with ⟨row, rows, hValue, -⟩ | ⟨hAwaited, -⟩
    · refine used_le_of_same rfl (awaits_setTick_of_idle fun value' hTick' => ?_)
      rw [hTick] at hTick'
      cases hTick'
      rw [hValue]
    · refine used_le_of_same rfl ?_
      rintro ⟨i, value', row, hTick', hRow, hId⟩
      refine (@awaits_setTick state state.db tick _ _ queueId).mpr ?_
      by_cases hSame : i = tick
      · rw [hSame, hTick] at hTick'
        cases hTick'
        exact .inl ⟨row, hAwaited.trans hRow, hId⟩
      · exact .inr ⟨i, value', row, hSame, hTick', hRow, hId⟩
  · exact Nat.le_refl _

/-- A row that is handed out has used one attempt more. -/
theorem used_of_handsOut {action : CoreferenceAction}
    (hFresh : state.Fresh action) (h : handsOut queueId state action = true) :
    used queueId state < maxAttempts ∧
      used queueId state + 1 ≤ used queueId (state.step action) := by
  obtain ⟨⟨q, hRow, hPending, hAttempts⟩, hIdle⟩ := hFresh queueId h
  rw [used_of_idle hRow hPending hIdle]
  refine ⟨hAttempts, ?_⟩
  unfold handsOut at h
  split at h
  case h_2 => cases h
  case h_1 tick =>
      split at h
      case h_2 => cases h
      case h_1 row rows result hTick =>
          have hStep : state.step (.next tick true) =
              state.setTick tick ⟨rows, some row, result⟩ (state.added tick) := by
            simp only [step, hTick]
            rfl
          have hAwaits : (state.step (.next tick true)).Awaits queueId := by
            rw [hStep]
            exact (@awaits_setTick state state.db tick _ _ queueId).mpr
              (.inl ⟨row, rfl, of_decide_eq_true h⟩)
          have hRow' : (state.step (.next tick true)).db.queueRow queueId = some q := by
            rw [hStep]
            exact hRow
          rw [used_of_awaited hRow' hPending hAwaits]

variable {now : Timestamp} {reply : ExtractorReply}

/-- What a reply that settles its row makes of the queue: the row is completed or its failure is
counted, and the others stay. -/
theorem exists_settled {row : DrawnRow} (hTick : state.ticks tick = some value)
    (hAwaited : value.awaited = some row) (h : state.Settles (.answer tick now reply)) :
    ∃ f : ExtractionQueueRow → ExtractionQueueRow,
      (value.answer now reply row state.db).1.queue = state.db.queue.map f ∧
        (∀ q, (f q).queueId = q.queueId) ∧ (∀ q, q.queueId ≠ row.queueId → f q = q) ∧
          ∀ q, q.queueId = row.queueId → q.attempts ≤ (f q).attempts ∧
            (q.completedAt ≠ none → (f q).completedAt ≠ none) ∧
              ((f q).completedAt ≠ none ∨ q.attempts + 1 ≤ (f q).attempts) := by
  have hReply := h value row hTick hAwaited
  have hBump : ∀ lastError : Option String, ∃ f : ExtractionQueueRow → ExtractionQueueRow,
      (state.db.bumpAttempts row.queueId lastError).queue = state.db.queue.map f ∧
        (∀ q, (f q).queueId = q.queueId) ∧ (∀ q, q.queueId ≠ row.queueId → f q = q) ∧
          ∀ q, q.queueId = row.queueId → q.attempts ≤ (f q).attempts ∧
            (q.completedAt ≠ none → (f q).completedAt ≠ none) ∧
              ((f q).completedAt ≠ none ∨ q.attempts + 1 ≤ (f q).attempts) := by
    intro lastError
    refine ⟨_, rfl, fun q => ?_, fun q hOther => if_neg hOther, fun q hSame => ?_⟩
    · split <;> rfl
    · simp only [hSame, if_true]
      exact ⟨Nat.le_succ _, id, .inr (Nat.le_refl _)⟩
  cases reply with
  | raised message updateFails fallbackFails =>
    cases updateFails with
    | none => exact hBump (some (truncate message 500))
    | some updateMessage =>
      have hFallback : fallbackFails = false := by
        rcases hReply with hNone | hFallback
        · cases hNone
        · exact hFallback
      rw [hFallback]
      exact hBump none
  | extracted tasks beginFails ends =>
    obtain ⟨rfl, hCommits⟩ := hReply
    rw [answer_item, ExtractionDb.processItem_queue hCommits]
    refine ⟨_, rfl, fun q => ?_, fun q hOther => if_neg hOther, fun q hSame => ?_⟩
    · split <;> rfl
    · simp only [hSame, if_true]
      exact ⟨Nat.le_refl _, fun _ => Option.some_ne_none now, .inl (Option.some_ne_none now)⟩

theorem step_answer_used (queueId : String) (h : state.Settles (.answer tick now reply)) :
    used queueId state ≤ used queueId (state.step (.answer tick now reply)) := by
  rcases step_answer state tick now reply with
    ⟨value, row, hTick, hAwaited, hStep⟩ | ⟨-, hStill⟩
  · obtain ⟨f, hQueue, hId, hOthers, hSettled⟩ := exists_settled hTick hAwaited h
    have hRow := ExtractionDb.queueRow_map hId hQueue queueId
    have hFound : ∀ q, state.db.queueRow queueId = some q → q.queueId = queueId := by
      intro q hq
      simpa using List.find?_some hq
    rw [hStep]
    by_cases hSame : row.queueId = queueId
    · exact used_le_of_settled hRow fun q hq => hSettled q ((hFound q hq).trans hSame.symm)
    · refine used_le_of_same ?_ ?_
      · have hKept : (state.db.queueRow queueId).map f = state.db.queueRow queueId := by
          cases hq : state.db.queueRow queueId with
          | none => rfl
          | some q =>
            rw [Option.map_some, hOthers q (by rw [hFound q hq]; exact Ne.symm hSame)]
        exact hRow.trans hKept
      · rintro ⟨i, value', row', hTick', hAwaited', hId'⟩
        refine awaits_setTick.mpr (.inr ⟨i, value', row', fun hi => ?_, hTick', hAwaited', hId'⟩)
        rw [hi, hTick] at hTick'
        cases hTick'
        rw [hAwaited] at hAwaited'
        cases hAwaited'
        exact hSame hId'
  · rw [hStill]

theorem step_used (queueId : String) {action : CoreferenceAction} (h : state.Settles action) :
    used queueId state ≤ used queueId (state.step action) := by
  cases action with
  | start tick perTickLimit => exact step_start_used queueId tick perTickLimit
  | next tick stillHeld => exact step_next_used queueId tick stillHeld
  | answer tick now reply => exact step_answer_used queueId h

/-- A row is handed out at most `maxAttempts` times in a run whose hand-outs are fresh and whose
replies settle their rows. -/
theorem handOuts_le {actions : List CoreferenceAction}
    (h : Run.Along step (fun state action => state.Fresh action ∧ state.Settles action) state
      actions) (queueId : String) : handOuts queueId state actions ≤ maxAttempts := by
  have hCount : Run.count step (handsOut queueId) state actions + used queueId state ≤
      max maxAttempts (used queueId state) :=
    h.count_le (fun _ _ hCond hDraws => used_of_handsOut hCond.1 hDraws)
      fun _ _ hCond => step_used queueId hCond.2
  unfold handOuts
  omega

/-! ## Ticks that do not overlap -/

def Idle (value : CoreferenceTick) : Prop :=
  value.awaited = none ∧ value.drawn = []

/-- A tick begins when no other is under way. -/
def OneAtATime (state : CoreferenceState) : CoreferenceAction → Prop
  | .start _ _ => ∀ tick value, state.ticks tick = some value → Idle value
  | _ => True

/-- The ids that a tick has drawn, the awaited one first. -/
def inHand (value : CoreferenceTick) : List String :=
  (value.awaited.toList ++ value.drawn).map (·.queueId)

/-- At most one tick is under way, and the rows that it has still to take are pending and
distinct. -/
structure Sequential (state : CoreferenceState) : Prop where
  ids : (state.db.queue.map (·.queueId)).Nodup
  one : ∀ i j value value', state.ticks i = some value → state.ticks j = some value' →
    ¬ Idle value → ¬ Idle value' → i = j
  distinct : ∀ tick value, state.ticks tick = some value → (inHand value).Nodup
  pending : ∀ tick value, state.ticks tick = some value → ∀ row ∈ value.drawn,
    state.IsPending row.queueId

theorem Sequential.fresh (h : state.Sequential) (action : CoreferenceAction) :
    state.Fresh action := by
  intro queueId hHands
  unfold handsOut at hHands
  split at hHands
  case h_2 => cases hHands
  case h_1 tick =>
      split at hHands
      case h_2 => cases hHands
      case h_1 row rows result hTick =>
          have hId : row.queueId = queueId := of_decide_eq_true hHands
          refine ⟨hId ▸ h.pending tick _ hTick row List.mem_cons_self, ?_⟩
          rintro ⟨i, value, row', hTick', hAwaited, -⟩
          have hBusy : ¬ Idle value := fun hIdle => by
            rw [hIdle.1] at hAwaited
            cases hAwaited
          obtain rfl := h.one i tick value _ hTick' hTick hBusy fun hIdle => nomatch hIdle.2
          rw [hTick] at hTick'
          cases hTick'
          cases hAwaited

/-- The rows that a tick draws are pending and distinct. -/
theorem pendingExtractions_spec {db : ExtractionDb} (h : (db.queue.map (·.queueId)).Nodup)
    (perTickLimit : Nat) :
    ((db.pendingExtractions perTickLimit).map (·.queueId)).Nodup ∧
      ∀ row ∈ db.pendingExtractions perTickLimit, ∃ q, db.queueRow row.queueId = some q ∧
        q.completedAt = none ∧ q.attempts < maxAttempts := by
  have hSame : ∀ (q : ExtractionQueueRow) (row : DrawnRow),
      ((db.summaries.find? fun s => s.summaryId = q.leafId).map fun s =>
        (⟨q.queueId, q.leafId, s.content, db.sessionKey q.leafId⟩ : DrawnRow)) = some row →
        row.queueId = q.queueId := by
    intro q row hRow
    obtain ⟨s, -, rfl⟩ := Option.map_eq_some_iff.mp hRow
    rfl
  constructor
  · refine List.Nodup.sublist (Table.map_filterMap_sublist hSame _) ?_
    refine List.Nodup.sublist ((List.take_sublist _ _).map _) ?_
    refine ((List.perm_insertionSort _ _).map _).nodup_iff.mpr ?_
    exact h.sublist (List.filter_sublist.map _)
  · intro row hRow
    obtain ⟨q, hq, hDrawn⟩ := List.mem_filterMap.mp hRow
    have hMem := (List.perm_insertionSort _ _).mem_iff.mp (List.mem_of_mem_take hq)
    obtain ⟨hQueue, hPending⟩ := List.mem_filter.mp hMem
    obtain ⟨-, hDone, hAttempts, -⟩ := of_decide_eq_true hPending
    refine ⟨q, ?_, hDone, hAttempts⟩
    rw [hSame q row hDrawn]
    refine Table.find_of_unique hQueue (decide_eq_true rfl) fun r hr hId => ?_
    exact List.inj_on_of_nodup_map h hr hQueue (of_decide_eq_true hId)

theorem Sequential.start (h : state.Sequential) {perTickLimit : Nat}
    (hAlone : state.OneAtATime (.start tick perTickLimit)) :
    (state.step (.start tick perTickLimit)).Sequential := by
  simp only [step]
  split
  · exact h
  · obtain ⟨hDistinct, hPending⟩ := pendingExtractions_spec h.ids perTickLimit
    refine ⟨h.ids, fun i j value value' hi hj hBusy hBusy' => ?_, fun i value hi => ?_,
      fun i value hi row hRow => ?_⟩
    · have hNew : ∀ k value, (state.setTick tick ⟨state.db.pendingExtractions perTickLimit, none,
          emptyResult⟩ ⟨0, 0⟩).ticks k = some value → ¬ Idle value → k = tick := by
        intro k value hk hBusy
        by_contra hOther
        simp only [setTick, hOther, if_false] at hk
        exact hBusy (hAlone k value hk)
      rw [hNew i value hi hBusy, hNew j value' hj hBusy']
    · by_cases hSame : i = tick
      · simp only [setTick, hSame, if_true] at hi
        cases hi
        exact hDistinct
      · simp only [setTick, hSame, if_false] at hi
        exact h.distinct i value hi
    · by_cases hSame : i = tick
      · simp only [setTick, hSame, if_true] at hi
        cases hi
        exact hPending row hRow
      · simp only [setTick, hSame, if_false] at hi
        exact h.pending i value hi row hRow

/-- A tick that has no more in hand may replace one. -/
theorem Sequential.setTick (h : state.Sequential) {db : ExtractionDb}
    {value' : CoreferenceTick} {added : RowCounts} (hTick : state.ticks tick = some value)
    (hIds : (db.queue.map (·.queueId)).Nodup) (hHand : (inHand value').Sublist (inHand value))
    (hPending : ∀ row ∈ value'.drawn, ∃ q, db.queueRow row.queueId = some q ∧
      q.completedAt = none ∧ q.attempts < maxAttempts)
    (hOthers : ∀ i other, i ≠ tick → state.ticks i = some other → ∀ row ∈ other.drawn,
      ∃ q, db.queueRow row.queueId = some q ∧ q.completedAt = none ∧ q.attempts < maxAttempts) :
    (({ state with db := db } : CoreferenceState).setTick tick value' added).Sequential := by
  have hBusy : ¬ Idle value' → ¬ Idle value := by
    intro hBusy' hIdle
    have hNone : inHand value = [] := by simp only [inHand, hIdle.1, hIdle.2]; rfl
    rw [hNone, List.sublist_nil, inHand, List.map_eq_nil_iff, List.append_eq_nil_iff,
      Option.toList_eq_nil_iff] at hHand
    exact hBusy' hHand
  have hOld : ∀ i other, (({ state with db := db } : CoreferenceState).setTick tick value'
      added).ticks i = some other → ¬ Idle other →
        ∃ before, state.ticks i = some before ∧ ¬ Idle before := by
    intro i other hi hOther
    by_cases hSame : i = tick
    · simp only [CoreferenceState.setTick, hSame, if_true] at hi
      cases hi
      exact ⟨value, hSame ▸ hTick, hBusy hOther⟩
    · simp only [CoreferenceState.setTick, hSame, if_false] at hi
      exact ⟨other, hi, hOther⟩
  refine ⟨hIds, fun i j left right hi hj hLeft hRight => ?_, fun i other hi => ?_,
    fun i other hi row hRow => ?_⟩
  · obtain ⟨left', hi', hLeft'⟩ := hOld i left hi hLeft
    obtain ⟨right', hj', hRight'⟩ := hOld j right hj hRight
    exact h.one i j left' right' hi' hj' hLeft' hRight'
  · by_cases hSame : i = tick
    · simp only [CoreferenceState.setTick, hSame, if_true] at hi
      cases hi
      exact (h.distinct tick value hTick).sublist hHand
    · simp only [CoreferenceState.setTick, hSame, if_false] at hi
      exact h.distinct i other hi
  · by_cases hSame : i = tick
    · simp only [CoreferenceState.setTick, hSame, if_true] at hi
      cases hi
      exact hPending row hRow
    · simp only [CoreferenceState.setTick, hSame, if_false] at hi
      exact hOthers i other hSame hi row hRow

theorem Sequential.next (h : state.Sequential) (tick : Nat) (stillHeld : Bool) :
    (state.step (.next tick stillHeld)).Sequential := by
  simp only [step]
  split
  · rename_i value hTick
    have hHand : (inHand (value.next stillHeld)).Sublist (inHand value) ∧
        ∀ row ∈ (value.next stillHeld).drawn, row ∈ value.drawn := by
      rcases next_cases stillHeld value with ⟨row, rows, hValue, hNext⟩ | ⟨hAwaited, hDrawn⟩
      · rw [hNext, hValue]
        exact ⟨List.Sublist.refl _, fun _ h => List.mem_cons_of_mem row h⟩
      · refine ⟨?_, fun row hRow => hDrawn.subset hRow⟩
        unfold inHand
        rw [hAwaited]
        exact ((List.Sublist.refl _).append hDrawn).map _
    exact h.setTick hTick h.ids hHand.1
      (fun row hRow => h.pending tick value hTick row (hHand.2 row hRow))
      fun i other _ hi row hRow => h.pending i other hi row hRow
  · exact h

theorem Sequential.answer (h : state.Sequential)
    (hSettles : state.Settles (.answer tick now reply)) :
    (state.step (.answer tick now reply)).Sequential := by
  rcases step_answer state tick now reply with
    ⟨value, row, hTick, hAwaited, hStep⟩ | ⟨-, hStill⟩
  · obtain ⟨f, hQueue, hId, hOthers, -⟩ := exists_settled hTick hAwaited hSettles
    obtain ⟨hNone, hDrawn⟩ := answer_tick value now reply row state.db
    -- the rows that are still to be taken are others than the one that is settled
    have hKept : ∀ i other, state.ticks i = some other → ∀ r ∈ other.drawn,
        r.queueId ≠ row.queueId → ∃ q,
          (value.answer now reply row state.db).1.queueRow r.queueId = some q ∧
            q.completedAt = none ∧ q.attempts < maxAttempts := by
      intro i other hi r hr hOther
      obtain ⟨q, hq, hPending, hAttempts⟩ := h.pending i other hi r hr
      have hFound : q.queueId = r.queueId := by simpa using List.find?_some hq
      refine ⟨q, ?_, hPending, hAttempts⟩
      rw [ExtractionDb.queueRow_map hId hQueue, hq, Option.map_some,
        hOthers q (by rwa [hFound])]
    have hDistinct : ∀ r ∈ value.drawn, r.queueId ≠ row.queueId := by
      have hNodup := h.distinct tick value hTick
      rw [inHand, hAwaited, Option.toList_some, List.singleton_append, List.map_cons,
        List.nodup_cons] at hNodup
      intro r hr hSame
      exact hNodup.1 (hSame ▸ List.mem_map_of_mem hr)
    have hBusy : ¬ Idle value := fun hIdle => by
      rw [hIdle.1] at hAwaited
      cases hAwaited
    rw [hStep]
    refine h.setTick hTick ?_ ?_ (fun r hr => ?_) fun i other hi hOther r hr => ?_
    · rw [hQueue, List.map_map]
      have hIds : (fun q => q.queueId) ∘ f = fun q : ExtractionQueueRow => q.queueId :=
        funext hId
      rw [hIds]
      exact h.ids
    · unfold inHand
      rw [hNone, hAwaited]
      exact ((List.nil_sublist _).append hDrawn).map _
    · have hr' := hDrawn.subset hr
      exact hKept tick value hTick r hr' (hDistinct r hr')
    · have hOtherBusy : ¬ Idle other := fun hIdle => by
        rw [hIdle.2] at hr
        cases hr
      exact absurd (h.one i tick other value hOther hTick hOtherBusy hBusy) hi
  · rwa [hStill]

/-- One tick after the other, each reply settling its row: a row is handed out at most
`maxAttempts` times. -/
theorem handOuts_le_of_sequential {actions : List CoreferenceAction} (h : state.Sequential)
    (hRun : Run.Along step (fun state action => state.OneAtATime action ∧ state.Settles action)
      state actions) (queueId : String) : handOuts queueId state actions ≤ maxAttempts := by
  refine handOuts_le (hRun.of_invariant ?_ (fun s a _ hs hc => ⟨hs.fresh a, hc.2⟩) h) queueId
  intro s a _ hs hc
  cases a with
  | start tick perTickLimit => exact hs.start hc.1
  | next tick stillHeld => exact hs.next tick stillHeld
  | answer tick now reply => exact hs.answer hc.2

/-- In every run in which each reply settles its row, a row is handed out at most `maxAttempts`
times, provided that what is handed out is fresh, or that the ticks do not overlap. -/
theorem handOuts_bounded (state : CoreferenceState) (actions : List CoreferenceAction) :
    (Run.Along step (fun state action => state.Fresh action ∧ state.Settles action) state actions →
      ∀ queueId, handOuts queueId state actions ≤ maxAttempts) ∧
    (state.Sequential →
      Run.Along step (fun state action => state.OneAtATime action ∧ state.Settles action) state
        actions → ∀ queueId, handOuts queueId state actions ≤ maxAttempts) :=
  ⟨handOuts_le, handOuts_le_of_sequential⟩

theorem sequential_oneLeafQueued : oneLeafQueued.Sequential :=
  ⟨List.nodup_singleton _, fun _ _ _ _ h => (by cases h), fun _ _ h => (by cases h),
    fun _ _ h => (by cases h)⟩

/-- A tick whose extractor raises, and the failure is counted. -/
def raisingTick : List CoreferenceAction :=
  [.start 0 50, .next 0 true, .answer 0 1 (.raised "timeout" none false)]

theorem handOuts_bounded_raisingTick : handOuts "q" oneLeafQueued raisingTick ≤ maxAttempts := by
  refine (handOuts_bounded oneLeafQueued raisingTick).2 sequential_oneLeafQueued
    ⟨⟨?_, trivial⟩, ⟨trivial, trivial⟩, ⟨trivial, ?_⟩, trivial⟩ "q"
  · intro tick value hTick
    cases hTick
  · intro value row _ _
    exact .inl rfl

/-! ## A row that is never settled -/

/-- A surface that the database cannot store: its error is none of the database. -/
def loneSurrogate : RowTask where
  ent := ⟨"PR 7", "pr_number", none, none, none⟩
  suffix := "0"
  savepointFails := none
  fails statement :=
    if statement = .selectEntity then some (.other "surrogates not allowed") else none
  rollbackFails := false

def unsettledTick (tick : Nat) : List CoreferenceAction :=
  [.start tick 50, .next tick true, .answer tick 1 (.extracted [loneSurrogate] false none)]

/-- Six ticks, one after the other, hand the row out six times. -/
theorem not_handOuts_bounded :
    ¬ ∀ state actions queueId, handOuts queueId state actions ≤ maxAttempts := by
  intro h
  exact absurd (h oneLeafQueued ((List.range 6).flatMap unsettledTick) "q") (by decide +kernel)

end CoreferenceState
end LosslessHermes
