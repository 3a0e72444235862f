import LosslessHermes.Ingest.Cursor

/-!
# Firings that interleave

The firings of the two hooks on one session as threads that take their steps in
any order. The reconciliation of the cursor is three steps in front of the
session lock: the look at the cursor, the read of the store and the write of the
cursor; the ingest itself is under the lock.
-/

namespace LosslessHermes

namespace Interleaving

open Run (Leads)

abbrev ThreadId := Nat

/-- Where a firing stands, named by the step it takes next. -/
inductive Point
  | entered
  | unreconciled
  | reading
  | replayed (cursor : Nat)
  | marking
  | comparing
  | queued
  | rereading
  | ingesting (index ingested : Nat)
  | advancing
  | unlocking
  | finished
  deriving DecidableEq, Repr

structure State where
  engine : Engine
  /-- The thread that holds the lock of the session. -/
  lock : Option ThreadId
  point : ThreadId → Point
  /-- The indices of the entries that have been stored, in order. -/
  commits : List Nat

def State.start (db : Db) : State :=
  { engine := Engine.started db, lock := none, point := fun _ => .entered, commits := [] }

def State.goto (state : State) (t : ThreadId) (point : Point) : State :=
  { state with point := Function.update state.point t point }

section Step

variable (config : EngineConfig) (sessionId : SessionId) (firings : ThreadId → Firing)

/-- The next step of a thread: one atomic part of `_do_ingest_history_diff` or of
`_reconcile_ingest_cursor`. A thread that waits for the lock stays where it is. -/
def step (state : State) (t : ThreadId) : State :=
  let firing := firings t
  match state.point t with
  | .entered =>
      if !accepts config state.engine sessionId then state.goto t .finished
      else if firing.history.isEmpty || state.engine.ingestCursorReconciled sessionId then
        state.goto t .comparing
      else state.goto t .unreconciled
  | .unreconciled =>
      if (state.engine.lastSeenMessageIdx sessionId).isSome then state.goto t .marking
      else state.goto t .reading
  | .reading =>
      match provenReplay state.engine.db sessionId firing.history with
      | none => state.goto t .marking
      | some cursor => state.goto t (.replayed cursor)
  | .replayed cursor =>
      { state with engine := state.engine.setCursor sessionId cursor }.goto t .marking
  | .marking =>
      { state with engine := { state.engine with
          ingestCursorReconciled :=
            Function.update state.engine.ingestCursorReconciled sessionId true } }.goto t .comparing
  | .comparing =>
      if firing.history.length ≤ state.engine.cursor sessionId then state.goto t .finished
      else state.goto t .queued
  | .queued =>
      if state.lock.isSome then state else { state with lock := some t }.goto t .rereading
  | .rereading =>
      if firing.history.length ≤ state.engine.cursor sessionId then state.goto t .unlocking
      else state.goto t (.ingesting (state.engine.cursor sessionId) 0)
  | .ingesting index ingested =>
      match firing.history[index]? with
      | none => if 0 < ingested then state.goto t .advancing else state.goto t .unlocking
      | some message =>
          let single := ingestSingle config.strOf sessionId (firing.attempts index)
            state.engine.db message
          let stored := { state with engine := { state.engine with db := single.1 } }
          match single.2 with
          | .ok true =>
              { stored with commits := state.commits ++ [index] }.goto t
                (.ingesting (index + 1) (ingested + 1))
          | _ => stored.goto t (.ingesting (index + 1) ingested)
  | .advancing =>
      { state with engine := state.engine.setCursor sessionId firing.history.length }.goto t
        .unlocking
  | .unlocking => { state with lock := none }.goto t .finished
  | .finished => state

/-- A reconciliation writes the cursor while the session has none and no firing
holds the lock. -/
def ReconcilesAlone (state : State) (t : ThreadId) : Prop :=
  match state.point t with
  | .replayed _ => state.engine.lastSeenMessageIdx sessionId = none ∧ state.lock = none
  | _ => True

instance (state : State) (t : ThreadId) : Decidable (ReconcilesAlone sessionId state t) := by
  unfold ReconcilesAlone
  split <;> infer_instance

/-- A row written for the message at an index of the history. -/
def RowOf (history : List Json) (db : Db) (index : Nat) (row : MessageRecord) : Prop :=
  ∃ entry message attempt, history[index]? = some entry ∧ persistable entry = some message ∧
    StoredAs config.strOf sessionId db message attempt row

/-- The transcript starts as that of the first entries of the history. -/
def Carries (db : Db) (history : List Json) (count : Nat) : Prop :=
  (db.storedMessages sessionId).map (fun m => (m.role, m.content)) =
    ((history.take count).filterMap persistable).map identity

/-- Each persistable message has been stored at most once: the rows of the run
belong to different entries, none of which an earlier process had stored. -/
structure StoredOnce (start : Db) (history : List Json) (state : State) : Prop where
  rows : ∃ created,
    state.engine.db.storedMessages sessionId = start.storedMessages sessionId ++ created ∧
    List.Forall₂ (RowOf config sessionId history state.engine.db) state.commits created
  once : state.commits.Nodup
  earlier : ∀ count, Carries sessionId start history count →
    (∀ t, count ≤ (firings t).history.length) → ∀ i ∈ state.commits, count ≤ i

/-- The step does not lower the cursor. -/
def CursorKept (state : State) (t : ThreadId) : Prop :=
  state.engine.cursor sessionId ≤
    (step config sessionId firings state t).engine.cursor sessionId

instance (state : State) (t : ThreadId) :
    Decidable (CursorKept config sessionId firings state t) :=
  inferInstanceAs (Decidable (_ ≤ _))

end Step

@[simp] theorem State.goto_engine (state : State) (t : ThreadId) (point : Point) :
    (state.goto t point).engine = state.engine := rfl

@[simp] theorem State.goto_lock (state : State) (t : ThreadId) (point : Point) :
    (state.goto t point).lock = state.lock := rfl

@[simp] theorem State.goto_commits (state : State) (t : ThreadId) (point : Point) :
    (state.goto t point).commits = state.commits := rfl

@[simp] theorem State.goto_point_self (state : State) (t : ThreadId) (point : Point) :
    (state.goto t point).point t = point :=
  Function.update_self ..

theorem State.goto_point_other (state : State) {t t' : ThreadId} (h : t' ≠ t) (point : Point) :
    (state.goto t point).point t' = state.point t' :=
  Function.update_of_ne h ..

@[simp] theorem cursor_setCursor (engine : Engine) (sessionId : SessionId) (n : Nat) :
    (engine.setCursor sessionId n).cursor sessionId = n := by
  simp [Engine.cursor, Engine.setCursor]

/-! ## What the lock protects -/

section Sound

variable {config : EngineConfig} {sessionId : SessionId} {firings : ThreadId → Firing}
  {start : Db} {history : List Json} {state : State}

/-- The steps between the acquisition of the lock and its release. -/
def Point.critical : Point → Bool
  | .rereading | .ingesting .. | .advancing | .unlocking => true
  | _ => false

/-- What holds of the thread under the lock: the entries stored so far are
behind it. -/
def Holding (sessionId : SessionId) (state : State) (firing : Firing) : Point → Prop
  | .rereading | .unlocking => ∀ i ∈ state.commits, i < state.engine.cursor sessionId
  | .ingesting index ingested =>
      state.engine.cursor sessionId ≤ index ∧ index ≤ firing.history.length ∧
        (∀ i ∈ state.commits, i < index) ∧
        (ingested = 0 → ∀ i ∈ state.commits, i < state.engine.cursor sessionId)
  | .advancing =>
      state.engine.cursor sessionId ≤ firing.history.length ∧
        ∀ i ∈ state.commits, i < firing.history.length
  | _ => False

structure Sound (config : EngineConfig) (sessionId : SessionId) (firings : ThreadId → Firing)
    (start : Db) (history : List Json) (state : State) : Prop where
  wellFormed : state.engine.db.WellFormed
  rows : ∃ created,
    state.engine.db.storedMessages sessionId = start.storedMessages sessionId ++ created ∧
    List.Forall₂ (RowOf config sessionId history state.engine.db) state.commits created
  sorted : state.commits.Pairwise (· < ·)
  critical : ∀ t, (state.point t).critical = true → state.lock = some t
  free : state.lock = none → ∀ i ∈ state.commits, i < state.engine.cursor sessionId
  holder : ∀ t, state.lock = some t → Holding sessionId state (firings t) (state.point t)

variable {point : Point}

theorem Holding.critical {firing : Firing}
    (h : Holding sessionId state firing point) : point.critical = true := by
  cases point <;> first | rfl | exact absurd h id

theorem Holding.congr {state' : State} {firing : Firing} (h : Holding sessionId state firing point)
    (hCursor : state'.engine.cursor sessionId = state.engine.cursor sessionId)
    (hCommits : state'.commits = state.commits) : Holding sessionId state' firing point := by
  unfold Holding
  rw [hCursor, hCommits]
  exact h

variable {db : Db} {index : Nat}

theorem RowOf.mono {db' : Db} {row : MessageRecord}
    (h : RowOf config sessionId history db index row)
    (hFrame : Db.TranscriptFrame sessionId db db') :
    RowOf config sessionId history db' index row := by
  obtain ⟨entry, message, attempt, hEntry, hMessage, hStored⟩ := h
  exact ⟨entry, message, attempt, hEntry, hMessage, hStored.mono hFrame⟩

variable {t : ThreadId}

/-- A step outside the lock that writes no row. -/
theorem Sound.outside (h : Sound config sessionId firings start history state)
    (hPoint : (state.point t).critical = false) (hNext : point.critical = false)
    {engine : Engine} (hDb : engine.db = state.engine.db)
    (hCursor : engine.cursor sessionId = state.engine.cursor sessionId ∨
      state.lock = none ∧ state.engine.cursor sessionId ≤ engine.cursor sessionId) :
    Sound config sessionId firings start history
      ({ state with engine := engine }.goto t point) where
  wellFormed := by
    rw [State.goto_engine, hDb]
    exact h.wellFormed
  rows := by
    simp only [State.goto_engine, State.goto_commits, hDb]
    exact h.rows
  sorted := h.sorted
  critical := by
    intro t' hCritical
    by_cases ht : t' = t
    · rw [ht, State.goto_point_self, hNext] at hCritical
      cases hCritical
    · rw [State.goto_point_other _ ht] at hCritical
      exact h.critical t' hCritical
  free := by
    intro hLock i hi
    have hFree := h.free hLock i hi
    rcases hCursor with hCursor | ⟨-, hCursor⟩
    · rw [State.goto_engine, hCursor]
      exact hFree
    · exact Nat.lt_of_lt_of_le hFree hCursor
  holder := by
    intro t' hLock
    have hHolding := h.holder t' hLock
    have ht : t' ≠ t := by
      rintro rfl
      rw [hHolding.critical] at hPoint
      cases hPoint
    rw [State.goto_point_other _ ht]
    rcases hCursor with hCursor | ⟨hNone, -⟩
    · exact hHolding.congr hCursor rfl
    · rw [State.goto_lock] at hLock
      rw [hNone] at hLock
      cases hLock

/-- No other thread is between acquisition and release. -/
def Alone (state : State) (t : ThreadId) : Prop :=
  ∀ t', t' ≠ t → (state.point t').critical = false

theorem Sound.alone (h : Sound config sessionId firings start history state)
    (hLock : state.lock = none ∨ state.lock = some t) : Alone state t := by
  intro t' ht
  cases hCritical : (state.point t').critical with
  | false => rfl
  | true =>
    have hOther := h.critical t' hCritical
    rcases hLock with hLock | hLock
    · rw [hLock] at hOther
      cases hOther
    · rw [hLock] at hOther
      exact absurd (Option.some.inj hOther).symm ht

/-- A thread between the acquisition of the lock and its release has it, and no other is there. -/
theorem Sound.held (h : Sound config sessionId firings start history state)
    (hPoint : state.point t = point) (hCritical : point.critical = true) :
    state.lock = some t ∧ Alone state t ∧ Holding sessionId state (firings t) point := by
  have hLock := h.critical t (hPoint ▸ hCritical)
  exact ⟨hLock, h.alone (Or.inr hLock), hPoint ▸ h.holder t hLock⟩

/-- A step that acquires the lock or keeps it. -/
theorem Sound.inside (hAlone : Alone state t) (hWell : state.engine.db.WellFormed)
    (hRows : ∃ created,
      state.engine.db.storedMessages sessionId = start.storedMessages sessionId ++ created ∧
      List.Forall₂ (RowOf config sessionId history state.engine.db) state.commits created)
    (hSorted : state.commits.Pairwise (· < ·)) (hLock : state.lock = some t)
    (hHolding : Holding sessionId state (firings t) point) :
    Sound config sessionId firings start history (state.goto t point) where
  wellFormed := hWell
  rows := hRows
  sorted := hSorted
  critical := by
    intro t' hCritical
    by_cases ht : t' = t
    · rw [ht]
      exact hLock
    · rw [State.goto_point_other _ ht, hAlone t' ht] at hCritical
      cases hCritical
  free := by
    intro hNone
    rw [State.goto_lock, hLock] at hNone
    cases hNone
  holder := by
    intro t' hHolder
    rw [State.goto_lock, hLock] at hHolder
    obtain rfl := Option.some.inj hHolder
    rw [State.goto_point_self]
    exact hHolding.congr rfl rfl

theorem sound_start (config : EngineConfig) (sessionId : SessionId)
    (firings : ThreadId → Firing) (history : List Json) (hWell : db.WellFormed) :
    Sound config sessionId firings db history (State.start db) where
  wellFormed := hWell
  rows := ⟨[], (List.append_nil _).symm, List.Forall₂.nil⟩
  sorted := List.Pairwise.nil
  critical := fun _ h => by cases h
  free := fun _ _ h => by cases h
  holder := fun _ h => by cases h

/-- The store of one entry under the lock. -/
theorem sound_ingesting (hPrefix : ∀ t, (firings t).history <+: history)
    (h : Sound config sessionId firings start history state) {ingested : Nat}
    (hPoint : state.point t = .ingesting index ingested) :
    Sound config sessionId firings start history (step config sessionId firings state t) := by
  obtain ⟨hLock, hAlone, hLow, hBound, hBehind, hNone⟩ := h.held hPoint rfl
  simp only [step, hPoint]
  cases hEntry : (firings t).history[index]? with
  | none =>
    have hEnd : index = (firings t).history.length :=
      Nat.le_antisymm hBound (List.getElem?_eq_none_iff.mp hEntry)
    dsimp only
    split
    · have hHolding : Holding sessionId state (firings t) .advancing :=
        ⟨hEnd ▸ hLow, hEnd ▸ hBehind⟩
      exact Sound.inside hAlone h.wellFormed h.rows h.sorted hLock hHolding
    · have hHolding : Holding sessionId state (firings t) .unlocking := hNone (by omega)
      exact Sound.inside hAlone h.wellFormed h.rows h.sorted hLock hHolding
  | some entry =>
    obtain ⟨hIndex, hGet⟩ := List.getElem?_eq_some_iff.mp hEntry
    have hInHistory : history[index]? = some entry :=
      hGet ▸ List.prefix_iff_getElem?.mp (hPrefix t) index hIndex
    obtain ⟨created, hStored, hRows⟩ := h.rows
    obtain ⟨hWell, hFrame, hCases⟩ := ingestSingle_cases config.strOf sessionId h.wellFormed
      ((firings t).attempts index) entry
    dsimp only
    generalize ingestSingle config.strOf sessionId ((firings t).attempts index)
      state.engine.db entry = single at hWell hFrame hCases
    have hRows' := hRows.imp fun i row hRow => hRow.mono hFrame
    split
    · rename_i hOk
      rcases hCases with ⟨fields, row, -, hMessage, hRow, hNew⟩ | ⟨hNot, -⟩
      · apply Sound.inside
        · exact hAlone
        · exact hWell
        · refine ⟨created ++ [row], ?_, ?_⟩
          · dsimp only
            rw [hRow, hStored, List.append_assoc]
          · exact List.rel_append hRows' (List.Forall₂.cons
              ⟨entry, fields, _, hInHistory, hMessage, hNew⟩
              List.Forall₂.nil)
        · exact List.pairwise_append.mpr ⟨h.sorted, List.pairwise_singleton _ _,
            fun i hi j hj => List.mem_singleton.mp hj ▸ hBehind i hi⟩
        · exact hLock
        · refine ⟨Nat.le_succ_of_le hLow, hIndex, ?_, fun hZero => by omega⟩
          intro i hi
          rcases List.mem_append.mp hi with hi | hi
          · exact Nat.lt_succ_of_lt (hBehind i hi)
          · exact List.mem_singleton.mp hi ▸ Nat.lt_succ_self index
      · exact absurd hOk hNot
    · rename_i hNot
      rcases hCases with ⟨fields, row, hOk, -⟩ | ⟨-, hSame⟩
      · exact absurd hOk hNot
      · apply Sound.inside
        · exact hAlone
        · exact hWell
        · exact ⟨created, hSame.trans hStored, hRows'⟩
        · exact h.sorted
        · exact hLock
        · exact ⟨Nat.le_succ_of_le hLow, hIndex, fun i hi => Nat.lt_succ_of_lt (hBehind i hi),
            hNone⟩

/-- Reconciliation writes where there is neither a cursor nor a holder. -/
theorem ReconcilesAlone.cursor_eq_zero {cursor : Nat} (h : ReconcilesAlone sessionId state t)
    (hPoint : state.point t = .replayed cursor) :
    state.engine.cursor sessionId = 0 ∧ state.lock = none := by
  simp only [ReconcilesAlone, hPoint] at h
  refine ⟨?_, h.2⟩
  rw [Engine.cursor, h.1]
  rfl

/-- Every step keeps the invariant if reconciliation writes as under the lock. -/
theorem sound_step (hPrefix : ∀ t, (firings t).history <+: history)
    (h : Sound config sessionId firings start history state)
    (hCondition : ReconcilesAlone sessionId state t) :
    Sound config sessionId firings start history (step config sessionId firings state t) := by
  -- a step outside the lock that leaves the engine alone
  have hOutside : ∀ point, (state.point t).critical = false → point.critical = false →
      Sound config sessionId firings start history (state.goto t point) :=
    fun _ hPoint hNext => h.outside hPoint hNext rfl (Or.inl rfl)
  cases hPoint : state.point t with
  | entered =>
    simp only [step, hPoint]
    split
    · exact hOutside _ (hPoint ▸ rfl) rfl
    · split <;> exact hOutside _ (hPoint ▸ rfl) rfl
  | unreconciled | reading | comparing =>
    simp only [step, hPoint]
    split <;> exact hOutside _ (hPoint ▸ rfl) rfl
  | replayed cursor =>
    obtain ⟨hZero, hFree⟩ := hCondition.cursor_eq_zero hPoint
    simp only [step, hPoint]
    exact h.outside (hPoint ▸ rfl) rfl rfl (Or.inr ⟨hFree, by omega⟩)
  | marking =>
    simp only [step, hPoint]
    exact h.outside (hPoint ▸ rfl) rfl rfl (Or.inl rfl)
  | queued =>
    simp only [step, hPoint]
    cases hLock : state.lock with
    | some t' => exact h
    | none =>
      have hAlone : Alone state t := h.alone (Or.inl hLock)
      apply Sound.inside
      · exact hAlone
      · exact h.wellFormed
      · exact h.rows
      · exact h.sorted
      · rfl
      · exact h.free hLock
  | rereading =>
    obtain ⟨hLock, hAlone, hBehind⟩ := h.held hPoint rfl
    simp only [step, hPoint]
    split
    · have hHolding : Holding sessionId state (firings t) .unlocking := hBehind
      exact Sound.inside hAlone h.wellFormed h.rows h.sorted hLock hHolding
    · have hHolding : Holding sessionId state (firings t)
          (.ingesting (state.engine.cursor sessionId) 0) :=
        ⟨Nat.le_refl _, by omega, hBehind, fun _ => hBehind⟩
      exact Sound.inside hAlone h.wellFormed h.rows h.sorted hLock hHolding
  | ingesting index ingested => exact sound_ingesting hPrefix h hPoint
  | advancing =>
    obtain ⟨hLock, hAlone, -, hBehind⟩ := h.held hPoint rfl
    simp only [step, hPoint]
    apply Sound.inside
    · exact hAlone
    · exact h.wellFormed
    · exact h.rows
    · exact h.sorted
    · exact hLock
    · intro i hi
      rw [cursor_setCursor]
      exact hBehind i hi
  | unlocking =>
    obtain ⟨-, hAlone, hBehind⟩ := h.held hPoint rfl
    simp only [step, hPoint]
    refine ⟨h.wellFormed, h.rows, h.sorted, ?_, fun _ => hBehind, fun _ hSome => by cases hSome⟩
    intro t' hCritical
    by_cases ht : t' = t
    · rw [ht, State.goto_point_self] at hCritical
      cases hCritical
    · rw [State.goto_point_other _ ht] at hCritical
      exact absurd ((hAlone t' ht).symm.trans hCritical) (by decide)
  | finished =>
    simp only [step, hPoint]
    exact h

/-- No step lowers the cursor if reconciliation writes as under the lock. -/
theorem cursor_step (h : Sound config sessionId firings start history state)
    (hCondition : ReconcilesAlone sessionId state t) :
    CursorKept config sessionId firings state t := by
  unfold CursorKept
  cases hPoint : state.point t with
  | replayed cursor =>
    obtain ⟨hZero, -⟩ := hCondition.cursor_eq_zero hPoint
    omega
  | advancing =>
    obtain ⟨-, -, hLow, -⟩ := h.held hPoint rfl
    simp only [step, hPoint, State.goto_engine, cursor_setCursor]
    exact hLow
  | marking | unlocking | finished =>
    simp only [step, hPoint]
    exact Nat.le_refl _
  | ingesting index ingested =>
    simp only [step, hPoint]
    split
    · split <;> exact Nat.le_refl _
    · split <;> exact Nat.le_refl _
  | entered =>
    simp only [step, hPoint]
    split
    · exact Nat.le_refl _
    · split <;> exact Nat.le_refl _
  | _ =>
    simp only [step, hPoint]
    split <;> exact Nat.le_refl _

/-! ## A transcript from an earlier process -/

/-- No persistable message stands between an index and the end of the first
entries. -/
def Covered (history : List Json) (count cursor : Nat) : Prop :=
  ((history.take count).drop cursor).filterMap persistable = []

variable {count : Nat}

theorem Covered.mono {cursor cursor' : Nat} (h : Covered history count cursor)
    (hLe : cursor ≤ cursor') : Covered history count cursor' := by
  obtain ⟨d, rfl⟩ := Nat.exists_eq_add_of_le hLe
  unfold Covered
  rw [← List.drop_drop]
  exact List.sublist_nil.mp (h ▸ (List.drop_sublist _ _).filterMap _)

theorem covered_of_le {cursor : Nat} (hLe : count ≤ cursor) :
    Covered history count cursor := by
  unfold Covered
  rw [List.drop_eq_nil_of_le ((List.length_take_le _ _).trans hLe)]
  rfl

theorem Covered.le_of_persistable (h : Covered history count index)
    {entry : Json} {message : Message} (hEntry : history[index]? = some entry)
    (hMessage : persistable entry = some message) : count ≤ index := by
  by_contra hLt
  have hMem : entry ∈ (history.take count).drop index := by
    refine List.mem_of_getElem? (i := 0) ?_
    rw [List.getElem?_drop, List.getElem?_take_of_lt (by omega)]
    exact hEntry
  exact absurd (List.mem_filterMap.mpr ⟨entry, hMem, hMessage⟩) (by rw [h]; simp)

/-- Reconciliation with the transcript of an earlier process passes all of it. -/
theorem provenReplay_of_carries (h : Carries sessionId db history count)
    {snapshot : List Json} (hPrefix : snapshot <+: history) (hLength : count ≤ snapshot.length) :
    Covered history count ((provenReplay db sessionId snapshot).getD 0) := by
  have hTake : history.take count = snapshot.take count := by
    obtain ⟨rest, rfl⟩ := hPrefix
    exact List.take_append_of_le_length hLength
  obtain ⟨k, hWalk, hDone⟩ := replayWalk_complete (snapshot.take count) (snapshot.drop count) 0 0
  rw [List.take_append_drop] at hWalk
  unfold Covered
  rw [provenReplay_eq, h, hTake, hWalk]
  dsimp only
  split
  · rename_i hZero
    rw [Nat.zero_add] at hZero
    rw [Option.getD_none, List.drop_zero]
    exact List.eq_nil_of_length_eq_zero hZero
  · rw [Option.getD_some, Nat.zero_add]
    exact hDone

/-- What holds of a thread that may still store messages. -/
def Resuming (sessionId : SessionId) (history : List Json) (count : Nat) (state : State) :
    Point → Prop
  | .entered | .unreconciled | .reading | .finished => True
  | .replayed cursor => state.commits = [] → Covered history count cursor
  | .ingesting index _ =>
      Covered history count (state.engine.cursor sessionId) ∧ Covered history count index
  | _ => Covered history count (state.engine.cursor sessionId)

structure Resumed (sessionId : SessionId) (history : List Json) (count : Nat) (state : State) :
    Prop where
  reconciled : state.engine.ingestCursorReconciled sessionId = true →
    Covered history count (state.engine.cursor sessionId)
  seen : state.engine.lastSeenMessageIdx sessionId ≠ none →
    Covered history count (state.engine.cursor sessionId)
  stored : state.commits ≠ [] → Covered history count (state.engine.cursor sessionId)
  points : ∀ t, Resuming sessionId history count state (state.point t)
  behind : ∀ i ∈ state.commits, count ≤ i

theorem Resuming.mono {next : State} (h : Resuming sessionId history count state point)
    (hCursor : state.engine.cursor sessionId ≤ next.engine.cursor sessionId)
    (hNil : next.commits = [] → state.commits = []) :
    Resuming sessionId history count next point := by
  cases point with
  | entered | unreconciled | reading | finished => trivial
  | replayed cursor => exact fun hNext => h (hNil hNext)
  | ingesting index ingested => exact ⟨h.1.mono hCursor, h.2⟩
  | _ => exact Covered.mono h hCursor

/-- A step that leaves what is known of the session, or finds it covered. -/
theorem Resumed.next (h : Resumed sessionId history count state)
    {next : State} (hPoint : next.point = state.point)
    (hCursor : state.engine.cursor sessionId ≤ next.engine.cursor sessionId)
    (hNil : next.commits = [] → state.commits = [])
    (hKnown : Covered history count (next.engine.cursor sessionId) ∨
      next.engine.ingestCursorReconciled = state.engine.ingestCursorReconciled ∧
        next.engine.lastSeenMessageIdx = state.engine.lastSeenMessageIdx ∧
        next.commits = state.commits) (hResuming : Resuming sessionId history count next point)
    (hBehind : ∀ i ∈ next.commits, count ≤ i) :
    Resumed sessionId history count (next.goto t point) := by
  have hPoints : ∀ t', Resuming sessionId history count (next.goto t point)
      ((next.goto t point).point t') := by
    intro t'
    by_cases ht : t' = t
    · rw [ht, State.goto_point_self]
      exact hResuming.mono (Nat.le_refl _) id
    · rw [State.goto_point_other _ ht, hPoint]
      exact (h.points t').mono hCursor hNil
  rcases hKnown with hCovered | ⟨hReconciled, hSeen, hCommits⟩
  · exact ⟨fun _ => hCovered, fun _ => hCovered, fun _ => hCovered, hPoints, hBehind⟩
  · refine ⟨fun hTrue => ?_, fun hTrue => ?_, fun hTrue => ?_, hPoints, hBehind⟩
    · rw [State.goto_engine, hReconciled] at hTrue
      exact (h.reconciled hTrue).mono hCursor
    · rw [State.goto_engine, hSeen] at hTrue
      exact (h.seen hTrue).mono hCursor
    · rw [State.goto_commits, hCommits] at hTrue
      exact (h.stored hTrue).mono hCursor

theorem Resumed.goto (h : Resumed sessionId history count state)
    (hResuming : Resuming sessionId history count state point) :
    Resumed sessionId history count (state.goto t point) :=
  h.next rfl (Nat.le_refl _) id (Or.inr ⟨rfl, rfl, rfl⟩) hResuming h.behind

theorem Sound.carries (h : Sound config sessionId firings start history state)
    (hCarries : Carries sessionId start history count) (hNil : state.commits = []) :
    Carries sessionId state.engine.db history count := by
  obtain ⟨created, hStored, hRows⟩ := h.rows
  rw [hNil, List.forall₂_nil_left_iff] at hRows
  unfold Carries
  rw [hStored, hRows, List.append_nil]
  exact hCarries

theorem resumed_start (sessionId : SessionId) (history : List Json) (count : Nat) (db : Db) :
    Resumed sessionId history count (State.start db) where
  reconciled := fun h => by cases h
  seen := fun h => absurd rfl h
  stored := fun h => absurd rfl h
  points := fun _ => trivial
  behind := fun _ h => by cases h

/-- Behind reconciliation the cursor has passed what an earlier process stored. -/
theorem resumed_step (hPrefix : ∀ t, (firings t).history <+: history)
    (hLength : ∀ t, count ≤ (firings t).history.length)
    (hCarries : Carries sessionId start history count)
    (hSound : Sound config sessionId firings start history state)
    (h : Resumed sessionId history count state) (hCondition : ReconcilesAlone sessionId state t) :
    Resumed sessionId history count (step config sessionId firings state t) := by
  have hHere := h.points t
  cases hPoint : state.point t with
  | entered =>
    simp only [step, hPoint]
    split
    · exact h.goto trivial
    · split
      · rename_i hSkip
        refine h.goto ?_
        rcases Bool.or_eq_true _ _ ▸ hSkip with hEmpty | hReconciled
        · have hNone := List.isEmpty_iff.mp hEmpty
          have hZero := hLength t
          rw [hNone, List.length_nil] at hZero
          exact covered_of_le (Nat.le_trans hZero (Nat.zero_le _))
        · exact h.reconciled hReconciled
      · exact h.goto trivial
  | unreconciled =>
    simp only [step, hPoint]
    split
    · rename_i hSeen
      refine h.goto (h.seen ?_)
      rw [← Option.isSome_iff_ne_none]
      exact hSeen
    · exact h.goto trivial
  | reading =>
    have hFresh : state.commits = [] → Covered history count
        ((provenReplay state.engine.db sessionId (firings t).history).getD 0) := fun hNil =>
      provenReplay_of_carries (hSound.carries hCarries hNil) (hPrefix t) (hLength t)
    simp only [step, hPoint]
    cases hRead : provenReplay state.engine.db sessionId (firings t).history with
    | none =>
      refine h.goto ?_
      by_cases hNil : state.commits = []
      · have hCovered := hFresh hNil
        rw [hRead] at hCovered
        exact hCovered.mono (Nat.zero_le _)
      · exact h.stored hNil
    | some cursor =>
      refine h.goto fun hNil => ?_
      have hCovered := hFresh hNil
      rw [hRead] at hCovered
      exact hCovered
  | replayed cursor =>
    obtain ⟨hZero, hFree⟩ := hCondition.cursor_eq_zero hPoint
    -- nothing can have been stored while there is neither a cursor nor a holder
    have hNil : state.commits = [] := by
      refine List.eq_nil_iff_forall_not_mem.mpr fun i hi => ?_
      have hLt := hSound.free hFree i hi
      omega
    have hCovered : Covered history count cursor := by
      rw [hPoint] at hHere
      exact hHere hNil
    simp only [step, hPoint]
    apply Resumed.next h
    · rfl
    · rw [cursor_setCursor]
      omega
    · exact id
    · rw [cursor_setCursor]
      exact Or.inl hCovered
    · show Covered history count _
      rw [cursor_setCursor]
      exact hCovered
    · exact h.behind
  | marking =>
    have hCovered : Covered history count (state.engine.cursor sessionId) := by
      rw [hPoint] at hHere
      exact hHere
    simp only [step, hPoint]
    exact h.next rfl (Nat.le_refl _) id (Or.inl hCovered) hCovered h.behind
  | comparing =>
    rw [hPoint] at hHere
    simp only [step, hPoint]
    split
    · exact h.goto trivial
    · exact h.goto hHere
  | queued =>
    rw [hPoint] at hHere
    simp only [step, hPoint]
    split
    · exact h
    · exact h.next rfl (Nat.le_refl _) id (Or.inl hHere) hHere h.behind
  | rereading =>
    rw [hPoint] at hHere
    simp only [step, hPoint]
    split
    · exact h.goto hHere
    · exact h.goto ⟨hHere, hHere⟩
  | ingesting index ingested =>
    rw [hPoint] at hHere
    obtain ⟨hCursor, hIndex⟩ := hHere
    simp only [step, hPoint]
    cases hEntry : (firings t).history[index]? with
    | none =>
      dsimp only
      split
      · exact h.goto hCursor
      · exact h.goto hCursor
    | some entry =>
      obtain ⟨hBound, hGet⟩ := List.getElem?_eq_some_iff.mp hEntry
      have hInHistory : history[index]? = some entry :=
        hGet ▸ List.prefix_iff_getElem?.mp (hPrefix t) index hBound
      obtain ⟨-, -, hCases⟩ := ingestSingle_cases config.strOf sessionId hSound.wellFormed
        ((firings t).attempts index) entry
      dsimp only
      split
      · rename_i hOk
        rcases hCases with ⟨fields, -, -, hMessage, -⟩ | ⟨hNot, -⟩
        · refine h.next rfl (Nat.le_refl _) (fun hNil => absurd hNil (by simp))
            (Or.inl hCursor) ⟨hCursor, hIndex.mono (Nat.le_succ _)⟩ fun i hi => ?_
          rcases List.mem_append.mp hi with hi | hi
          · exact h.behind i hi
          · rw [List.mem_singleton.mp hi]
            exact hIndex.le_of_persistable hInHistory hMessage
        · exact absurd hOk hNot
      · exact h.next rfl (Nat.le_refl _) id (Or.inr ⟨rfl, rfl, rfl⟩)
          ⟨hCursor, hIndex.mono (Nat.le_succ _)⟩ h.behind
  | advancing =>
    obtain ⟨-, -, hLow, -⟩ := hSound.held hPoint rfl
    have hCovered : Covered history count (firings t).history.length := covered_of_le (hLength t)
    simp only [step, hPoint]
    apply Resumed.next h
    · rfl
    · rw [cursor_setCursor]
      exact hLow
    · exact id
    · rw [cursor_setCursor]
      exact Or.inl hCovered
    · show Covered history count _
      rw [cursor_setCursor]
      exact hCovered
    · exact h.behind
  | unlocking =>
    simp only [step, hPoint]
    exact h.next rfl (Nat.le_refl _) id (Or.inr ⟨rfl, rfl, rfl⟩) trivial h.behind
  | finished =>
    simp only [step, hPoint]
    exact h

end Sound

/-! ## Exactly-once -/

/-- **Each message is stored at most once, and the cursor never falls, in every
run whose reconciliations write the cursor while the session has none and no
firing holds the lock.** -/
theorem exactly_once_run (config : EngineConfig) {db : Db} (hWell : db.WellFormed)
    (sessionId : SessionId) (history : List Json) {firings : ThreadId → Firing}
    (hPrefix : ∀ t, (firings t).history <+: history) {schedule : List ThreadId}
    (hAlong : Run.Along (step config sessionId firings) (ReconcilesAlone sessionId)
      (State.start db) schedule) :
    StoredOnce config sessionId firings db history
        (Run.final (step config sessionId firings) (State.start db) schedule) ∧
      Run.Along (step config sessionId firings) (CursorKept config sessionId firings)
        (State.start db) schedule := by
  have hStart := sound_start config sessionId firings history hWell
  have hStep : ∀ state, ∀ t ∈ schedule, Sound config sessionId firings db history state →
      ReconcilesAlone sessionId state t →
      Sound config sessionId firings db history (step config sessionId firings state t) :=
    fun _ _ _ h hAlone => sound_step hPrefix h hAlone
  have hFinal := hAlong.invariant hStep hStart
  refine ⟨⟨hFinal.rows, hFinal.sorted.imp Nat.ne_of_lt, ?_⟩, ?_⟩
  · intro count hCarries hLength
    have hBoth := @Run.Along.invariant _ _ _ _ (fun state =>
      Sound config sessionId firings db history state ∧ Resumed sessionId history count state)
      _ _ (fun _ _ _ h hAlone => ⟨sound_step hPrefix h.1 hAlone,
        resumed_step hPrefix hLength hCarries h.1 h.2 hAlone⟩) hAlong
      ⟨hStart, resumed_start sessionId history count db⟩
    exact hBoth.2.behind
  · exact hAlong.of_invariant hStep (fun _ _ _ h hAlone => cursor_step h hAlone) hStart

/-! ## A firing that nobody interferes with -/

section Alone

variable {config : EngineConfig} {sessionId : SessionId} {firings : ThreadId → Firing}
  {state state' state'' : State} {t : ThreadId}

@[simp] theorem State.goto_goto (state : State) (t : ThreadId) (point point' : Point) :
    (state.goto t point).goto t point' = state.goto t point' := by
  simp [State.goto]

theorem Firing.window_cons {firing : Firing} {index : Nat} (h : index < firing.history.length) :
    firing.window index =
      (firing.history[index], firing.attempts index) :: firing.window (index + 1) := by
  unfold Firing.window
  rw [List.drop_eq_getElem_cons (by simpa using h), List.getElem_mapIdx]

/-- The entries of the window, one after the other. -/
theorem leads_batch (index ingested : Nat) (hIndex : index ≤ (firings t).history.length) :
    ∃ commits, Leads (step config sessionId firings) t (state.goto t (.ingesting index ingested))
      ({ state with
          engine := { state.engine with
            db := (ingestBatch config.strOf sessionId state.engine.db
              ((firings t).window index)).1 }
          commits := commits }.goto t (.ingesting (firings t).history.length
        (ingested + (ingestBatch config.strOf sessionId state.engine.db
          ((firings t).window index)).2))) := by
  obtain ⟨d, hd⟩ := Nat.exists_eq_add_of_le hIndex
  induction d generalizing index ingested state with
  | zero =>
    rw [Nat.add_zero] at hd
    rw [Firing.window_eq_nil (Nat.le_of_eq hd), ← hd]
    exact ⟨state.commits, Leads.refl _ _⟩
  | succ d ih =>
    have hLt : index < (firings t).history.length := by omega
    rw [Firing.window_cons hLt]
    generalize hSingle : ingestSingle config.strOf sessionId ((firings t).attempts index)
      state.engine.db (firings t).history[index] = single
    have hStep : ∀ commits ingested', (single.2 = .ok true → commits = state.commits ++ [index] ∧
          ingested' = ingested + 1) →
        (single.2 ≠ .ok true → commits = state.commits ∧ ingested' = ingested) →
        step config sessionId firings (state.goto t (.ingesting index ingested)) t =
          { state with engine := { state.engine with db := single.1 }, commits := commits }.goto t
            (.ingesting (index + 1) ingested') := by
      intro commits ingested' hOk hNot
      simp only [step, State.goto_point_self, List.getElem?_eq_getElem hLt, State.goto_engine,
        hSingle]
      split
      · rename_i hTrue
        obtain ⟨rfl, rfl⟩ := hOk hTrue
        simp [State.goto]
      · rename_i hTrue
        obtain ⟨rfl, rfl⟩ := hNot hTrue
        simp [State.goto]
    by_cases hTrue : single.2 = .ok true
    · obtain ⟨commits, hRest⟩ := @ih { state with
        engine := { state.engine with db := single.1 }, commits := state.commits ++ [index] }
        (index + 1) (ingested + 1) (by omega) (by omega)
      refine ⟨commits, Leads.head ?_ (hStep _ _ (fun _ => ⟨rfl, rfl⟩)
        fun hNot => absurd hTrue hNot)⟩
      simp only [ingestBatch, hSingle, hTrue]
      rw [Nat.add_right_comm] at hRest
      exact hRest
    · obtain ⟨commits, hRest⟩ := @ih { state with
        engine := { state.engine with db := single.1 } } (index + 1) ingested (by omega) (by omega)
      refine ⟨commits, Leads.head ?_ (hStep _ _ (fun hOk => absurd hOk hTrue)
        fun _ => ⟨rfl, rfl⟩)⟩
      rw [ingestBatch_skipped (by rw [hSingle]; exact hTrue), hSingle]
      exact hRest

theorem leads_unlocking (state : State) :
    Leads (step config sessionId firings) t (state.goto t .unlocking)
      ({ state with lock := none }.goto t .finished) := by
  refine Leads.head (Leads.refl _ _) ?_
  simp [step, State.goto]

/-- The steps under the lock are the locked part of the diff. -/
theorem leads_locked :
    ∃ commits,
      Leads (step config sessionId firings) t ({ state with lock := some t }.goto t .rereading)
      ({ state with
          engine := ingestLocked config state.engine sessionId (firings t)
          lock := none
          commits := commits }.goto t .finished) := by
  unfold ingestLocked
  dsimp only
  by_cases hSeen : (firings t).history.length ≤ state.engine.cursor sessionId
  · rw [if_pos hSeen]
    refine ⟨state.commits, Leads.head (leads_unlocking { state with lock := some t }) ?_⟩
    simp [step, hSeen]
  · rw [if_neg hSeen]
    obtain ⟨commits, hBatch⟩ := @leads_batch config sessionId firings { state with lock := some t } t
      (state.engine.cursor sessionId) 0 (by omega)
    rw [Nat.zero_add] at hBatch
    generalize ingestBatch config.strOf sessionId state.engine.db
      ((firings t).window (state.engine.cursor sessionId)) = batch at hBatch ⊢
    have hReread : step config sessionId firings
        ({ state with lock := some t }.goto t .rereading) t =
          { state with lock := some t }.goto t
            (.ingesting (state.engine.cursor sessionId) 0) := by
      simp [step, hSeen]
    refine ⟨commits, Leads.head (hBatch.trans ?_) hReread⟩
    let done : State :=
      { state with engine := { state.engine with db := batch.1 }, lock := some t,
                   commits := commits }
    by_cases hStored : 0 < batch.2
    · rw [if_pos hStored]
      let advanced : State :=
        { done with engine := done.engine.setCursor sessionId (firings t).history.length }
      have hAdvance : step config sessionId firings (done.goto t .advancing) t =
          advanced.goto t .unlocking := by
        simp [step, State.goto, advanced]
      refine Leads.head (Leads.head (leads_unlocking advanced) hAdvance) ?_
      simp [step, hStored, done]
    · rw [if_neg hStored]
      refine Leads.head (leads_unlocking done) ?_
      simp [step, hStored, done]

/-- The steps behind reconciliation. -/
theorem leads_comparing (hLock : state.lock = none) :
    ∃ commits, Leads (step config sessionId firings) t (state.goto t .comparing)
      ({ state with
          engine := ingestLocked config state.engine sessionId (firings t)
          commits := commits }.goto t .finished) := by
  by_cases hSeen : (firings t).history.length ≤ state.engine.cursor sessionId
  · have hNothing : ingestLocked config state.engine sessionId (firings t) = state.engine := by
      unfold ingestLocked
      rw [if_pos hSeen]
    rw [hNothing]
    refine ⟨state.commits, Leads.head (Leads.refl _ _) ?_⟩
    simp [step, hSeen]
  · obtain ⟨commits, hLocked⟩ := @leads_locked config sessionId firings state t
    have hQueue : step config sessionId firings (state.goto t .comparing) t =
        state.goto t .queued := by
      simp [step, hSeen]
    have hAcquire : step config sessionId firings (state.goto t .queued) t =
        { state with lock := some t }.goto t .rereading := by
      simp [step, hLock, State.goto]
    rw [← hLock] at hLocked
    exact ⟨commits, (hLocked.head hAcquire).head hQueue⟩

/-- The steps in front of the lock reconcile the cursor. -/
theorem leads_reconciled (hSnapshot : (firings t).history ≠ [])
    (hFirst : state.engine.ingestCursorReconciled sessionId = false) :
    Leads (step config sessionId firings) t (state.goto t .unreconciled)
      ({ state with engine := reconcileOnce state.engine sessionId (firings t).history }.goto t
        .comparing) := by
  have hOnce : ((firings t).history.isEmpty ||
      state.engine.ingestCursorReconciled sessionId) = false := by
    rw [hFirst, Bool.or_false, List.isEmpty_eq_false_iff]
    exact hSnapshot
  have hNonempty : (firings t).history.isEmpty = false := (Bool.or_eq_false_iff.mp hOnce).1
  have hMark : ∀ engine : Engine, Leads (step config sessionId firings) t
      ({ state with engine := engine }.goto t .marking)
      ({ state with engine := { engine with
          ingestCursorReconciled :=
            Function.update engine.ingestCursorReconciled sessionId true } }.goto t .comparing) :=
    fun engine => Leads.head (Leads.refl _ _) (by simp [step, State.goto])
  unfold reconcileOnce reconcileIngestCursor
  rw [if_neg (by simp [hOnce])]
  cases hSeen : (state.engine.lastSeenMessageIdx sessionId).isSome with
  | true =>
    exact (hMark state.engine).head (by simp [step, hSeen])
  | false =>
    have hRead : step config sessionId firings (state.goto t .unreconciled) t =
        state.goto t .reading := by
      simp [step, hSeen]
    simp only [hNonempty, Bool.false_eq_true, if_false]
    cases hProven : provenReplay state.engine.db sessionId (firings t).history with
    | none =>
      refine Leads.head (Leads.head (hMark state.engine) ?_) hRead
      simp [step, hProven]
    | some cursor =>
      have hWrite : step config sessionId firings (state.goto t (.replayed cursor)) t =
          { state with engine := state.engine.setCursor sessionId cursor }.goto t
            .marking := by
        simp [step, State.goto]
      refine Leads.head (Leads.head ((hMark _).head hWrite) ?_) hRead
      simp [step, hProven]

/-- **A firing whose steps nobody interrupts is `fire`.** -/
theorem fire_alone (config : EngineConfig) (sessionId : SessionId)
    (firings : ThreadId → Firing) {state : State} {t : ThreadId} (hLock : state.lock = none)
    (hPoint : state.point t = .entered) :
    ∃ n commits, Run.final (step config sessionId firings) state (List.replicate n t) =
      { state with
        engine := fire config state.engine sessionId (firings t)
        commits := commits }.goto t .finished := by
  rw [exists_comm]
  cases hAccepts : accepts config state.engine sessionId with
  | false =>
    rw [fire_of_not_accepts hAccepts]
    refine ⟨state.commits, Leads.head (Leads.refl _ _) ?_⟩
    simp [step, hPoint, hAccepts]
  | true =>
    rw [fire_of_accepts hAccepts]
    cases hOnce : (firings t).history.isEmpty ||
        state.engine.ingestCursorReconciled sessionId with
    | true =>
      have hSame : reconcileOnce state.engine sessionId (firings t).history = state.engine := by
        unfold reconcileOnce
        rw [if_pos hOnce]
      obtain ⟨commits, hRest⟩ := @leads_comparing config sessionId firings state t hLock
      rw [hSame]
      exact ⟨commits, hRest.head (by simp [step, hPoint, hAccepts, hOnce])⟩
    | false =>
      obtain ⟨hNonempty, hFirst⟩ := Bool.or_eq_false_iff.mp hOnce
      have hReconciled := @leads_reconciled config sessionId firings state t
        (List.isEmpty_eq_false_iff.mp hNonempty) hFirst
      obtain ⟨commits, hRest⟩ := @leads_comparing config sessionId firings
        { state with engine := reconcileOnce state.engine sessionId (firings t).history } t hLock
      exact ⟨commits, (hReconciled.trans hRest).head (by simp [step, hPoint, hAccepts, hOnce])⟩

end Alone

/-! ## Two firings -/

/-- Two firings of one turn; every other thread has nothing to do. -/
def twoFirings (history : List Json) : ThreadId → Firing
  | 0 | 1 => ⟨history, fun _ => quietAttempt⟩
  | _ => ⟨[], fun _ => quietAttempt⟩

theorem fire_alone_twoFirings :
    ∃ n commits, Run.final (step plainConfig "s" (twoFirings [userMessage "a"]))
      (State.start Db.empty) (List.replicate n 0) =
        { State.start Db.empty with
          engine := fire plainConfig (State.start Db.empty).engine "s"
            (twoFirings [userMessage "a"] 0)
          commits := commits }.goto 0 .finished :=
  fire_alone plainConfig "s" _ rfl rfl

theorem twoFirings_snapshots (history : List Json) (t : ThreadId) :
    (twoFirings history t).history <+: history := by
  unfold twoFirings
  split
  · exact List.prefix_rfl
  · exact List.prefix_rfl
  · exact List.nil_prefix

/-- The second firing enters first, reads the store early and waits for the lock. -/
theorem exactly_once_run_waiting :
    StoredOnce plainConfig "s" (twoFirings [userMessage "a", userMessage "b"]) Db.empty
        [userMessage "a", userMessage "b"]
        (Run.final (step plainConfig "s" (twoFirings [userMessage "a", userMessage "b"]))
          (State.start Db.empty)
          ([1, 1, 1] ++ List.replicate 8 0 ++ [1, 1, 1, 1] ++ List.replicate 4 0 ++ [1, 1, 1])) ∧
      Run.Along (step plainConfig "s" (twoFirings [userMessage "a", userMessage "b"]))
        (CursorKept plainConfig "s" (twoFirings [userMessage "a", userMessage "b"]))
        (State.start Db.empty)
        ([1, 1, 1] ++ List.replicate 8 0 ++ [1, 1, 1, 1] ++ List.replicate 4 0 ++ [1, 1, 1]) :=
  exactly_once_run plainConfig Db.wellFormed_empty "s" [userMessage "a", userMessage "b"]
    (twoFirings_snapshots _) (by decide)

/-- The second firing finds no cursor, reads the store when half of the batch of
the first one is in it, and writes what it read after the first one is done. -/
theorem stale_reconciliation_stores_twice :
    ¬ StoredOnce plainConfig "s" (twoFirings [userMessage "a", userMessage "b"]) Db.empty
        [userMessage "a", userMessage "b"]
        (Run.final (step plainConfig "s" (twoFirings [userMessage "a", userMessage "b"]))
          (State.start Db.empty)
          ([1, 1] ++ List.replicate 8 0 ++ [1] ++ List.replicate 4 0 ++ List.replicate 9 1)) ∧
      ¬ Run.Along (step plainConfig "s" (twoFirings [userMessage "a", userMessage "b"]))
        (CursorKept plainConfig "s" (twoFirings [userMessage "a", userMessage "b"]))
        (State.start Db.empty)
        ([1, 1] ++ List.replicate 8 0 ++ [1] ++ List.replicate 4 0 ++ List.replicate 9 1) := by
  constructor
  · intro h
    exact absurd h.once (by decide)
  · decide

end Interleaving
end LosslessHermes
