import LosslessHermes.Engine.Lifecycle
import LosslessHermes.Ingest.Restart

/-!
# Resets

A reset forgets the cursors of all sessions and leaves their transcripts where
they are. The next firing of a session then matches its snapshot against the
transcript, whether the snapshot replays it or starts afresh.
`reset_loses_nothing_iff` says when both kinds of session come out right.
-/

namespace LosslessHermes

open Json (get?)

/-- `on_session_reset`, its token counters left out. -/
def onSessionReset (engine : Engine) : Engine :=
  { engine with
    lastSeenMessageIdx := fun _ => none
    ingestCursorReconciled := fun _ => false }

/-- The firings of several sessions, in the order in which they come. -/
def fireEvents (config : EngineConfig) : Engine → List (SessionId × Firing) → Engine :=
  Run.final fun engine event => fire config engine event.1 event.2

/-- The snapshot that the reconciliation of a session sees. -/
def firstSnapshot (events : List (SessionId × Firing)) (t : SessionId) : List Json :=
  (((events.filter (·.1 = t)).map (·.2.history)).find? (!·.isEmpty)).getD []

/-- The calls of a firing raise all or not at all. -/
def Firing.Uniform (firing : Firing) : Prop :=
  firing.NoFault ∨ ∀ i, (firing.attempts i).fault ≠ none

variable {firing : Firing}

theorem Firing.Uniform.offers (h : firing.Uniform) (cursor : Nat) :
    (∀ offer ∈ firing.offers cursor, offer.2.fault = none) ∨
      ∀ offer ∈ firing.offers cursor, offer.2.fault ≠ none := by
  refine h.imp (fun hNone => Firing.NoFault.offers hNone cursor) fun hSome => ?_
  intro offer hOffer
  obtain ⟨entry, hEntry, hOffer⟩ := List.mem_filterMap.mp hOffer
  obtain ⟨message, -, rfl⟩ := Option.map_eq_some_iff.mp hOffer
  obtain ⟨i, hi, rfl⟩ := List.mem_mapIdx.mp (List.mem_of_mem_drop hEntry)
  exact hSome i

/-! ## Firings of other sessions -/

theorem reconcileOnce_other {engine : Engine} {u t : SessionId} (hNe : t ≠ u)
    (history : List Json) :
    (reconcileOnce engine u history).lastSeenMessageIdx t = engine.lastSeenMessageIdx t ∧
      (reconcileOnce engine u history).ingestCursorReconciled t =
        engine.ingestCursorReconciled t := by
  constructor
  · obtain ⟨-, -, -, hSame | ⟨cursor, -, hUpdate⟩⟩ := reconcileOnce_cases engine u history
    · rw [hSame]
    · rw [hUpdate, Function.update_of_ne hNe]
  · unfold reconcileOnce
    split
    · rfl
    · exact Function.update_of_ne hNe _ _

/-- What a firing of one session leaves alone. -/
theorem fire_other {config : EngineConfig} {engine : Engine} (h : engine.db.WellFormed)
    {u t : SessionId} (hNe : t ≠ u) (firing : Firing) :
    (fire config engine u firing).lastSeenMessageIdx t = engine.lastSeenMessageIdx t ∧
      (fire config engine u firing).ingestCursorReconciled t = engine.ingestCursorReconciled t ∧
      Db.TranscriptFrame u engine.db (fire config engine u firing).db := by
  cases hAccepts : accepts config engine u with
  | false =>
    rw [fire_of_not_accepts hAccepts]
    exact ⟨rfl, rfl, Db.TranscriptFrame.refl u _⟩
  | true =>
    obtain ⟨hSeen, hReconciled⟩ := @reconcileOnce_other engine u t hNe firing.history
    obtain ⟨db', created, hEq, -, -, -, hFrame⟩ := ingestLocked_spec config
      (reconcileOnce_wellFormed h u firing.history) u firing
    rw [(reconcileOnce_cases engine u firing.history).1] at hFrame
    rw [fire_of_accepts hAccepts, hEq]
    split
    · exact ⟨hSeen, hReconciled, hFrame⟩
    · refine ⟨?_, hReconciled, hFrame⟩
      exact (Function.update_of_ne hNe _ _).trans hSeen

/-! ## The session before and after its reconciliation -/

/-- The session has not been reconciled since the reset. -/
structure Forgotten (start : Db) (t : SessionId) (engine : Engine) : Prop where
  wellFormed : engine.db.WellFormed
  isOpen : engine.isOpen = true
  unset : engine.lastSeenMessageIdx t = none
  first : engine.ingestCursorReconciled t = false
  rows : engine.db.storedMessages t = start.storedMessages t

/-- Reconciliation has taken `n` messages for replayed; what else lies before the
cursor has been stored behind the old transcript. -/
structure Resumed (config : EngineConfig) (start : Db) (t : SessionId) (history : List Json)
    (n : Nat) (engine : Engine) : Prop where
  wellFormed : engine.db.WellFormed
  isOpen : engine.isOpen = true
  reconciled : engine.ingestCursorReconciled t = true
  bound : engine.cursor t ≤ history.length
  recognised : n ≤ ((history.take (engine.cursor t)).filterMap persistable).length
  rows : ∃ created, engine.db.storedMessages t = start.storedMessages t ++ created ∧
    List.Forall₂ (fun message row => ∃ attempt,
      StoredAs config.strOf t engine.db message attempt row)
      (((history.take (engine.cursor t)).filterMap persistable).drop n) created

/-- The cursor leaves no persistable message of the history to a later firing. -/
def Engine.IsDone (engine : Engine) (t : SessionId) (history : List Json) : Prop :=
  (history.drop (engine.cursor t)).filterMap persistable = []

variable {config : EngineConfig} {start : Db} {t u : SessionId} {engine : Engine}

theorem forgotten_other (h : Forgotten start t engine) (hNe : t ≠ u) (firing : Firing) :
    Forgotten start t (fire config engine u firing) := by
  obtain ⟨hSeen, hReconciled, hFrame⟩ :=
    @fire_other config engine h.wellFormed u t hNe firing
  obtain ⟨hWell, hOpen⟩ := @fire_wellFormed config engine h.wellFormed u firing
  exact ⟨hWell, hOpen.trans h.isOpen, hSeen.trans h.unset, hReconciled.trans h.first,
    (hFrame.messages t hNe).trans h.rows⟩

variable {history : List Json} {n : Nat}

theorem resumed_other
    (h : Resumed config start t history n engine) (hNe : t ≠ u) (firing : Firing) :
    Resumed config start t history n (fire config engine u firing) ∧
      (fire config engine u firing).cursor t = engine.cursor t := by
  obtain ⟨hSeen, hReconciled, hFrame⟩ :=
    @fire_other config engine h.wellFormed u t hNe firing
  obtain ⟨hWell, hOpen⟩ := @fire_wellFormed config engine h.wellFormed u firing
  have hCursor : (fire config engine u firing).cursor t = engine.cursor t := by
    unfold Engine.cursor
    rw [hSeen]
  obtain ⟨created, hRows, hAll⟩ := h.rows
  refine ⟨⟨hWell, hOpen.trans h.isOpen, hReconciled.trans h.reconciled, ?_, ?_, created, ?_, ?_⟩,
    hCursor⟩
  · rw [hCursor]
    exact h.bound
  · rw [hCursor]
    exact h.recognised
  · exact (hFrame.messages t hNe).trans hRows
  · rw [hCursor]
    exact hAll.imp fun _ _ ⟨attempt, hStored⟩ => ⟨attempt, hStored.mono hFrame⟩

/-- An empty snapshot leaves the session unreconciled. -/
theorem fire_of_nil (hNil : firing.history = []) : fire config engine t firing = engine := by
  cases hAccepts : accepts config engine t with
  | false => exact fire_of_not_accepts hAccepts firing
  | true =>
    rw [fire_of_accepts hAccepts]
    simp [reconcileOnce, ingestLocked, hNil]

/-- The first reconciliation after the reset. -/
theorem resumed_reconcileOnce {config : EngineConfig} {start : Db} {t : SessionId}
    {engine : Engine} (h : Forgotten start t engine) {snapshot history : List Json}
    (hNonempty : snapshot.isEmpty = false) (hPrefix : snapshot <+: history) :
    Resumed config start t history (replayedRows start t snapshot)
      (reconcileOnce engine t snapshot) := by
  have hCursor := reconcileOnce_cursor_first h.unset h.first hNonempty
  obtain ⟨hDb, hOpen, hReconciled, -⟩ := reconcileOnce_cases engine t snapshot
  obtain ⟨k, hWalk, hk, -, -, hLength, -⟩ := replayedRows_spec start t snapshot
  rw [h.rows, hWalk] at hCursor
  have hTake : ∀ c, (reconcileOnce engine t snapshot).cursor t = c →
      c ≤ snapshot.length → ((history.take c).filterMap persistable).length =
        replayedRows start t snapshot →
      Resumed config start t history (replayedRows start t snapshot)
        (reconcileOnce engine t snapshot) := by
    intro c hc hLe hCount
    refine ⟨reconcileOnce_wellFormed h.wellFormed t snapshot, hOpen.trans h.isOpen,
      hReconciled ?_, ?_, ?_, [], ?_, ?_⟩
    · rintro rfl
      exact absurd hNonempty (by decide)
    · rw [hc]
      exact hLe.trans hPrefix.length_le
    · rw [hc, hCount]
    · rw [hDb, h.rows, List.append_nil]
    · rw [hc, ← hCount, List.drop_length]
      exact List.Forall₂.nil
  by_cases hZero : replayedRows start t snapshot = 0
  · refine hTake 0 (by simpa [hZero] using hCursor) (Nat.zero_le _) ?_
    rw [hZero]
    rfl
  · refine hTake k (by simpa [hZero] using hCursor) hk ?_
    rw [take_eq_of_isPrefix hPrefix hk, hLength]

/-- What is ingested under the lock after reconciliation. -/
theorem resumed_ingestLocked (h : Resumed config start t history n engine)
    (hPrefix : firing.history <+: history) (hUniform : firing.Uniform) :
    Resumed config start t history n (ingestLocked config engine t firing) ∧
      (engine.IsDone t history ∨ (firing.history = history ∧ firing.NoFault) →
        (ingestLocked config engine t firing).IsDone t history) := by
  obtain ⟨engine', messages, created', hEq, hWell, hBound, hOpen, hReconciled, hStored, hCovers,
    hNew, hFrame⟩ := ingestLocked_covers config h.wellFormed h.bound hPrefix
      (hUniform.offers (engine.cursor t))
  obtain ⟨created, hRows, hAll⟩ := h.rows
  constructor
  · rw [hEq]
    refine ⟨hWell, hOpen.trans h.isOpen, (congrFun hReconciled t).trans h.reconciled, hBound, ?_,
      created ++ created', ?_, ?_⟩
    · rw [hCovers, List.length_append]
      exact h.recognised.trans (Nat.le_add_right _ _)
    · rw [hStored, hRows, List.append_assoc]
    · rw [hCovers, List.drop_append_of_le_length h.recognised]
      exact List.rel_append
        (hAll.imp fun _ _ ⟨attempt, hStoredAs⟩ => ⟨attempt, hStoredAs.mono hFrame⟩) hNew
  · rintro (hDone | ⟨rfl, hNoFault⟩)
    · rw [hEq]
      -- the whole history was before the cursor, so nothing can be behind it now
      have hBefore : (history.take (engine.cursor t)).filterMap persistable =
          history.filterMap persistable := by
        conv_rhs => rw [← List.take_append_drop (engine.cursor t) history,
          List.filterMap_append, hDone, List.append_nil]
      have hSplit : (history.take (engine'.cursor t)).filterMap persistable ++
          (history.drop (engine'.cursor t)).filterMap persistable =
          history.filterMap persistable := by
        rw [← List.filterMap_append, List.take_append_drop]
      have hLength := congrArg List.length hSplit
      rw [hCovers, hBefore, List.length_append, List.length_append] at hLength
      exact List.eq_nil_of_length_eq_zero (by omega)
    · exact ingestLocked_done config h.wellFormed hNoFault

/-! ## Runs after the reset -/

/-- What the firings of one session are: none mixes calls that raise with others,
and all carry a prefix of one history. -/
def FiresOn (t : SessionId) (history : List Json) (events : List (SessionId × Firing)) : Prop :=
  ∀ event ∈ events, event.1 = t → event.2.history <+: history ∧ event.2.Uniform

variable {events : List (SessionId × Firing)}

theorem FiresOn.tail {event : SessionId × Firing} (h : FiresOn t history (event :: events)) :
    FiresOn t history events :=
  fun e he => h e (List.mem_cons_of_mem _ he)

theorem resumed_run
    (hIngests : ingestsSession config t = true) (h : Resumed config start t history n engine)
    (hEvents : FiresOn t history events) :
    Resumed config start t history n (fireEvents config engine events) ∧
      (engine.IsDone t history ∨ (∃ event ∈ events, event.1 = t ∧ event.2.history = history ∧
          event.2.NoFault) →
        (fireEvents config engine events).IsDone t history) := by
  induction events generalizing engine with
  | nil =>
    refine ⟨h, ?_⟩
    rintro (hDone | ⟨event, hEvent, -⟩)
    · exact hDone
    · exact absurd hEvent List.not_mem_nil
  | cons event events ih =>
    obtain ⟨u, firing⟩ := event
    have hStep : Resumed config start t history n (fire config engine u firing) ∧
        (engine.IsDone t history ∨ (u = t ∧ firing.history = history ∧ firing.NoFault) →
          (fire config engine u firing).IsDone t history) := by
      by_cases hSame : u = t
      · subst hSame
        obtain ⟨hPrefix, hUniform⟩ := hEvents _ List.mem_cons_self rfl
        rw [fire_of_accepts (accepts_of_isOpen hIngests h.isOpen),
          reconcileOnce_of_reconciled h.reconciled]
        obtain ⟨hResumed, hDone⟩ := resumed_ingestLocked h hPrefix hUniform
        exact ⟨hResumed, fun hCase => hDone (hCase.imp_right And.right)⟩
      · obtain ⟨hResumed, hCursor⟩ := resumed_other h (Ne.symm hSame) firing
        refine ⟨hResumed, ?_⟩
        rintro (hDone | ⟨hEq, -⟩)
        · unfold Engine.IsDone
          rw [hCursor]
          exact hDone
        · exact absurd hEq hSame
    obtain ⟨hFinal, hDone⟩ := ih hStep.1 hEvents.tail
    refine ⟨hFinal, fun hCase => hDone ?_⟩
    rcases hCase with hDone | ⟨event, hEvent, hComplete⟩
    · exact Or.inl (hStep.2 (Or.inl hDone))
    · rcases List.mem_cons.mp hEvent with rfl | hEvent
      · exact Or.inl (hStep.2 (Or.inr hComplete))
      · exact Or.inr ⟨event, hEvent, hComplete⟩

theorem firstSnapshot_cons_other (hNe : u ≠ t) (firing : Firing)
    (events : List (SessionId × Firing)) :
    firstSnapshot ((u, firing) :: events) t = firstSnapshot events t := by
  simp [firstSnapshot, hNe]

theorem firstSnapshot_cons_of_nil (h : firing.history = []) (events : List (SessionId × Firing)) :
    firstSnapshot ((t, firing) :: events) t = firstSnapshot events t := by
  simp [firstSnapshot, h]

theorem firstSnapshot_cons_self (h : firing.history ≠ []) (events : List (SessionId × Firing)) :
    firstSnapshot ((t, firing) :: events) t = firing.history := by
  simp [firstSnapshot, h]

/-- A session whose history is empty stays forgotten. -/
theorem forgotten_nil {config : EngineConfig} {start : Db} {t : SessionId}
    {events : List (SessionId × Firing)} {engine : Engine} (h : Forgotten start t engine)
    (hEvents : FiresOn t [] events) : Forgotten start t (fireEvents config engine events) := by
  refine Run.final_invariant (fun engine event hEvent h => ?_) h
  by_cases hSame : event.1 = t
  · have hNil := List.prefix_nil.mp (hEvents event hEvent hSame).1
    show Forgotten start t (fire config engine event.1 event.2)
    rw [fire_of_nil hNil]
    exact h
  · exact forgotten_other h (Ne.symm hSame) event.2

/-- The first snapshot of a session is matched; the rest of the history is
stored behind the transcript. -/
theorem forgotten_run (hIngests : ingestsSession config t = true) (h : Forgotten start t engine)
    (hEvents : FiresOn t history events) (hComplete : ∃ event ∈ events, event.1 = t ∧
      event.2.history = history ∧ event.2.NoFault) (hNe : history ≠ []) :
    ∃ created, (fireEvents config engine events).db.storedMessages t =
        start.storedMessages t ++ created ∧
      List.Forall₂ (fun message row => ∃ attempt,
        StoredAs config.strOf t (fireEvents config engine events).db message attempt row)
        ((history.filterMap persistable).drop (replayedRows start t (firstSnapshot events t)))
        created := by
  induction events generalizing engine with
  | nil =>
    obtain ⟨event, hEvent, -⟩ := hComplete
    exact absurd hEvent List.not_mem_nil
  | cons event events ih =>
    obtain ⟨u, firing⟩ := event
    -- a firing that leaves the session forgotten is not the complete one
    have hLater : u ≠ t ∨ firing.history = [] → ∃ event ∈ events, event.1 = t ∧
        event.2.history = history ∧ event.2.NoFault := by
      intro hSkips
      obtain ⟨event, hEvent, hT, hHistory, hNoFault⟩ := hComplete
      rcases List.mem_cons.mp hEvent with rfl | hEvent
      · rcases hSkips with hOther | hNil
        · exact absurd hT hOther
        · exact absurd (hHistory.symm.trans hNil) hNe
      · exact ⟨event, hEvent, hT, hHistory, hNoFault⟩
    by_cases hSame : u = t
    · subst hSame
      by_cases hNil : firing.history = []
      · have hQuiet : fireEvents config engine ((u, firing) :: events) =
            fireEvents config engine events :=
          congrArg (fireEvents config · events) (fire_of_nil hNil)
        rw [firstSnapshot_cons_of_nil hNil, hQuiet]
        exact ih h hEvents.tail (hLater (Or.inr hNil))
      · obtain ⟨hPrefix, hUniform⟩ := hEvents _ List.mem_cons_self rfl
        rw [firstSnapshot_cons_self hNil]
        have hReconciled := @resumed_reconcileOnce config start u engine h firing.history history
          (List.isEmpty_eq_false_iff.mpr hNil) hPrefix
        obtain ⟨hResumed, hDone⟩ := resumed_ingestLocked hReconciled hPrefix hUniform
        rw [← fire_of_accepts (accepts_of_isOpen hIngests h.isOpen)] at hResumed hDone
        obtain ⟨hFinal, hAll⟩ := resumed_run hIngests hResumed hEvents.tail
        have hEnd : (fireEvents config engine ((u, firing) :: events)).IsDone u history := by
          refine hAll ?_
          obtain ⟨event, hEvent, hT, hFull⟩ := hComplete
          rcases List.mem_cons.mp hEvent with rfl | hEvent
          · exact Or.inl (hDone (Or.inr hFull))
          · exact Or.inr ⟨event, hEvent, hT, hFull⟩
        have hTake : (history.take ((fireEvents config engine ((u, firing) :: events)).cursor
            u)).filterMap persistable = history.filterMap persistable := by
          conv_rhs => rw [← List.take_append_drop ((fireEvents config engine
            ((u, firing) :: events)).cursor u) history, List.filterMap_append, hEnd,
            List.append_nil]
        rw [← hTake]
        exact hFinal.rows
    · rw [firstSnapshot_cons_other hSame]
      exact ih (forgotten_other h (Ne.symm hSame) firing) hEvents.tail (hLater (Or.inl hSame))

theorem firstSnapshot_spec (events : List (SessionId × Firing)) (t : SessionId) :
    (∃ event ∈ events, event.1 = t ∧ firstSnapshot events t = event.2.history) ∨
      (firstSnapshot events t = [] ∧ ∀ event ∈ events, event.1 = t → event.2.history = []) := by
  unfold firstSnapshot
  cases hFound : ((events.filter (·.1 = t)).map (·.2.history)).find? (!·.isEmpty) with
  | some snapshot =>
    obtain ⟨event, hEvent, hHistory⟩ := List.mem_map.mp (List.mem_of_find?_eq_some hFound)
    obtain ⟨hMem, hT⟩ := List.mem_filter.mp hEvent
    exact Or.inl ⟨event, hMem, of_decide_eq_true hT, hHistory.symm⟩
  | none =>
    refine Or.inr ⟨rfl, fun event hEvent hT => ?_⟩
    have hNone := List.find?_eq_none.mp hFound event.2.history
      (List.mem_map_of_mem (List.mem_filter.mpr ⟨hEvent, decide_eq_true hT⟩))
    simpa using hNone

/-! ## What the reset loses -/

/-- The firings after a reset: the history of `s` starts afresh, the stored
histories `old` of the others go on. -/
structure Resumption (config : EngineConfig) (engine : Engine) (s : SessionId)
    (old new : SessionId → List Json) (events : List (SessionId × Firing)) : Prop where
  wellFormed : engine.db.WellFormed
  isOpen : engine.isOpen = true
  ingests : ∀ t ∈ events.map (·.1), ingestsSession config t = true
  fresh : old s = []
  stored : ∀ t ∈ events.map (·.1), t ≠ s → List.Forall₂ (fun message row => ∃ attempt,
    StoredAs config.strOf t engine.db message attempt row)
    ((old t).filterMap persistable) (engine.db.storedMessages t)
  snapshots : ∀ event ∈ events, ∃ shown, shown <+: new event.1 ∧
    event.2.history = old event.1 ++ shown
  uniform : ∀ event ∈ events, event.2.Uniform
  complete : ∀ t ∈ events.map (·.1), ∃ event ∈ events, event.1 = t ∧
    event.2.history = old t ++ new t ∧ event.2.NoFault

/-- Each new message of the session has been stored once, and nothing else. -/
def StoresNew (config : EngineConfig) (start finish : Db) (t : SessionId) (new : List Json) :
    Prop :=
  ∃ created, finish.storedMessages t = start.storedMessages t ++ created ∧
    List.Forall₂ (fun message row => ∃ attempt,
      StoredAs config.strOf t finish message attempt row) (new.filterMap persistable) created

theorem forgotten_reset (hWell : engine.db.WellFormed)
    (hOpen : engine.isOpen = true) (t : SessionId) :
    Forgotten engine.db t (onSessionReset engine) :=
  ⟨hWell, hOpen, rfl, rfl, rfl⟩

section

variable {config : EngineConfig} {engine : Engine} {s : SessionId}
  {old new : SessionId → List Json} {events : List (SessionId × Firing)}

theorem Resumption.firesOn (h : Resumption config engine s old new events) (t : SessionId) :
    FiresOn t (old t ++ new t) events := by
  rintro event hEvent rfl
  obtain ⟨shown, hShown, hHistory⟩ := h.snapshots event hEvent
  refine ⟨?_, h.uniform event hEvent⟩
  rw [hHistory]
  exact (List.prefix_append_right_inj _).mpr hShown

variable {t : SessionId}

/-- The first snapshot of a session shows its old history. -/
theorem Resumption.shown (h : Resumption config engine s old new events)
    (hFired : t ∈ events.map (·.1)) :
    ∃ shown, shown <+: new t ∧ firstSnapshot events t = old t ++ shown := by
  rcases firstSnapshot_spec events t with ⟨event, hEvent, rfl, hFirst⟩ | ⟨hFirst, hNil⟩
  · rw [hFirst]
    exact h.snapshots event hEvent
  · obtain ⟨event, hEvent, rfl⟩ := List.mem_map.mp hFired
    obtain ⟨shown, -, hHistory⟩ := h.snapshots event hEvent
    obtain ⟨hOld, -⟩ := List.append_eq_nil_iff.mp (hHistory.symm.trans (hNil event hEvent rfl))
    exact ⟨[], List.nil_prefix, by rw [hFirst, hOld]; rfl⟩

theorem replayedRows_le (db : Db) (t : SessionId) (history : List Json) :
    replayedRows db t history ≤ (history.filterMap persistable).length := by
  obtain ⟨k, -, -, -, -, hLength, -⟩ := replayedRows_spec db t history
  rw [← hLength]
  exact ((List.take_sublist k history).filterMap persistable).length_le

/-- What the run stores for a session. -/
theorem Resumption.stores (h : Resumption config engine s old new events)
    (hFired : t ∈ events.map (·.1)) :
    ∃ created, (fireEvents config (onSessionReset engine) events).db.storedMessages t =
        engine.db.storedMessages t ++ created ∧
      List.Forall₂ (fun message row => ∃ attempt, StoredAs config.strOf t
        (fireEvents config (onSessionReset engine) events).db message attempt row)
        (((old t ++ new t).filterMap persistable).drop
          (replayedRows engine.db t (firstSnapshot events t))) created := by
  have hForgotten := forgotten_reset h.wellFormed h.isOpen t
  by_cases hNil : old t ++ new t = []
  · have hQuiet := @forgotten_nil config engine.db t events _ hForgotten
      (by rw [← hNil]; exact h.firesOn t)
    rw [hNil]
    exact ⟨[], by rw [hQuiet.rows, List.append_nil], by simp⟩
  · exact forgotten_run (h.ingests t hFired) hForgotten (h.firesOn t) (h.complete t hFired) hNil

/-- A session comes out right when its old messages are recognised, and no others. -/
theorem Resumption.storesNew_iff (h : Resumption config engine s old new events)
    (hFired : t ∈ events.map (·.1)) :
    StoresNew config engine.db (fireEvents config (onSessionReset engine) events).db t (new t) ↔
      replayedRows engine.db t (firstSnapshot events t) =
        ((old t).filterMap persistable).length := by
  obtain ⟨created, hStored, hAll⟩ := h.stores hFired
  constructor
  · rintro ⟨created', hStored', hAll'⟩
    obtain rfl := List.append_cancel_left (hStored.symm.trans hStored')
    obtain ⟨shown, hShown, hFirst⟩ := h.shown hFired
    have hLe : replayedRows engine.db t (firstSnapshot events t) ≤
        ((old t).filterMap persistable).length + ((new t).filterMap persistable).length := by
      refine (replayedRows_le engine.db t _).trans ?_
      rw [hFirst, List.filterMap_append, List.length_append]
      exact Nat.add_le_add_left (hShown.sublist.filterMap persistable).length_le _
    have hLength := hAll.length_eq.trans hAll'.length_eq.symm
    rw [List.length_drop, List.filterMap_append, List.length_append] at hLength
    omega
  · intro hCount
    rw [hCount, List.filterMap_append, List.drop_left] at hAll
    exact ⟨created, hStored, hAll⟩

/-- A fresh history is recognised as soon as its first message looks like the
first stored one. -/
theorem replayedRows_eq_zero_iff (db : Db) (t : SessionId) (history : List Json) :
    replayedRows db t history = 0 ↔ ∀ message row,
      (history.filterMap persistable).head? = some message →
      (db.storedMessages t).head? = some row → identity message ≠ (row.role, row.content) := by
  obtain ⟨k, -, -, hn, hTake, hLength, hStop⟩ := replayedRows_spec db t history
  have hSplit : (history.take k).filterMap persistable ++
      (history.drop k).filterMap persistable = history.filterMap persistable := by
    rw [← List.filterMap_append, List.take_append_drop]
  constructor
  · intro hZero message row hMessage hRow hSame
    rw [hZero] at hLength hStop
    rw [← hSplit, List.eq_nil_of_length_eq_zero hLength, List.nil_append] at hMessage
    obtain ⟨rest, hRows⟩ := List.head?_eq_some_iff.mp hRow
    refine hStop (by rw [hRows]; exact Nat.succ_pos _) message hMessage ?_
    rw [hRows, hSame]
    rfl
  · intro hDiffers
    by_contra hNonzero
    cases hMessages : (history.take k).filterMap persistable with
    | nil =>
      rw [hMessages] at hLength
      exact hNonzero hLength.symm
    | cons message messages =>
      cases hRows : db.storedMessages t with
      | nil =>
        rw [hRows, List.length_nil] at hn
        omega
      | cons row rows =>
        obtain ⟨n, hSucc⟩ := Nat.exists_eq_succ_of_ne_zero hNonzero
        rw [hMessages, hRows, hSucc] at hTake
        refine hDiffers message row ?_ (by rw [hRows]; rfl) (List.cons.inj hTake).1
        rw [← hSplit, hMessages]
        rfl

/-- **After a reset every session stores its new messages once exactly when the
fresh history does not begin like the transcript that the reset left behind and
the transcripts of the others hold the texts that their histories give.** -/
theorem reset_loses_nothing_iff (h : Resumption config engine s old new events) :
    (∀ t ∈ events.map (·.1), StoresNew config engine.db
        (fireEvents config (onSessionReset engine) events).db t (new t)) ↔
      (∀ message row,
        ((firstSnapshot events s).filterMap persistable).head? = some message →
        (engine.db.storedMessages s).head? = some row →
        identity message ≠ (row.role, row.content)) ∧
      ∀ t ∈ events.map (·.1), t ≠ s → TextsUnchanged t (old t) engine.db := by
  rw [← replayedRows_eq_zero_iff]
  have hFresh : s ∈ events.map (·.1) →
      (StoresNew config engine.db (fireEvents config (onSessionReset engine) events).db s (new s) ↔
        replayedRows engine.db s (firstSnapshot events s) = 0) := by
    intro hFired
    rw [h.storesNew_iff hFired, h.fresh]
    rfl
  have hOther : ∀ t ∈ events.map (·.1), t ≠ s →
      (StoresNew config engine.db (fireEvents config (onSessionReset engine) events).db t (new t) ↔
        TextsUnchanged t (old t) engine.db) := by
    intro t hFired hNe
    have hRows := h.stored t hFired hNe
    obtain ⟨shown, -, hFirst⟩ := h.shown hFired
    rw [h.storesNew_iff hFired, hFirst, hRows.length_eq,
      replayedRows_eq_length_iff hRows.length_eq, textsUnchanged_iff hRows]
  constructor
  · intro hAll
    refine ⟨?_, fun t hFired hNe => (hOther t hFired hNe).mp (hAll t hFired)⟩
    by_cases hFired : s ∈ events.map (·.1)
    · exact (hFresh hFired).mp (hAll s hFired)
    · rcases firstSnapshot_spec events s with ⟨event, hEvent, hEq, -⟩ | ⟨hNil, -⟩
      · exact absurd (List.mem_map.mpr ⟨event, hEvent, hEq⟩) hFired
      · rw [hNil]
        exact Nat.le_zero.mp (replayedRows_le engine.db s [])
  · rintro ⟨hZero, hTexts⟩ t hFired
    by_cases hEq : t = s
    · subst hEq
      exact (hFresh hFired).mpr hZero
    · exact (hOther t hFired hEq).mpr (hTexts t hFired hEq)

end

/-! ## Runs on fixed inputs -/

def quietFiring (history : List Json) : Firing :=
  { history := history, attempts := fun _ => quietAttempt }

/-- A session goes on while another one begins. -/
def besideFresh : List (SessionId × Firing) :=
  [("s", quietFiring [userMessage "a", userMessage "b"]), ("r", quietFiring [userMessage "a"])]

theorem resumption_besideFresh :
    Resumption plainConfig (onePass (userMessage "a")) "r"
      (fun t => if t = "s" then [userMessage "a"] else [])
      (fun t => if t = "s" then [userMessage "b"] else [userMessage "a"]) besideFresh where
  wellFormed := (onePass_completely _).wellFormed
  isOpen := (onePass_completely _).isOpen
  ingests := by decide
  fresh := rfl
  stored := by
    intro t hFired hNe
    obtain rfl : t = "s" := by
      simpa [besideFresh, hNe] using hFired
    exact (onePass_completely (userMessage "a")).rows
  snapshots := by
    intro event hEvent
    rcases List.mem_cons.mp hEvent with rfl | hEvent
    · exact ⟨_, List.prefix_rfl, rfl⟩
    · obtain rfl := List.mem_singleton.mp hEvent
      exact ⟨_, List.prefix_rfl, rfl⟩
  uniform := by
    intro event hEvent
    rcases List.mem_cons.mp hEvent with rfl | hEvent
    · exact Or.inl fun _ => rfl
    · obtain rfl := List.mem_singleton.mp hEvent
      exact Or.inl fun _ => rfl
  complete := by
    intro t hFired
    obtain ⟨event, hEvent, rfl⟩ := List.mem_map.mp hFired
    refine ⟨event, hEvent, rfl, ?_⟩
    rcases List.mem_cons.mp hEvent with rfl | hEvent
    · exact ⟨rfl, fun _ => rfl⟩
    · obtain rfl := List.mem_singleton.mp hEvent
      exact ⟨rfl, fun _ => rfl⟩

theorem reset_loses_nothing_iff_besideFresh :
    (∀ t ∈ besideFresh.map (·.1), StoresNew plainConfig (onePass (userMessage "a")).db
        (fireEvents plainConfig (onSessionReset (onePass (userMessage "a"))) besideFresh).db t
        (if t = "s" then [userMessage "b"] else [userMessage "a"])) ↔
      (∀ message row,
        ((firstSnapshot besideFresh "r").filterMap persistable).head? = some message →
        ((onePass (userMessage "a")).db.storedMessages "r").head? = some row →
        identity message ≠ (row.role, row.content)) ∧
      ∀ t ∈ besideFresh.map (·.1), t ≠ "r" → TextsUnchanged t
        (if t = "s" then [userMessage "a"] else []) (onePass (userMessage "a")).db :=
  reset_loses_nothing_iff resumption_besideFresh

/-- A conversation that opens with the same greeting as the one before the reset. -/
def sameGreeting : List (SessionId × Firing) :=
  [("s", quietFiring [userMessage "hello", userMessage "news"])]

theorem resumption_sameGreeting :
    Resumption plainConfig (onePass (userMessage "hello")) "s" (fun _ => [])
      (fun _ => [userMessage "hello", userMessage "news"]) sameGreeting where
  wellFormed := (onePass_completely _).wellFormed
  isOpen := (onePass_completely _).isOpen
  ingests := by decide
  fresh := rfl
  stored := by
    intro t hFired hNe
    exact absurd (by simpa [sameGreeting] using hFired) hNe
  snapshots := by
    intro event hEvent
    obtain rfl := List.mem_singleton.mp hEvent
    exact ⟨_, List.prefix_rfl, rfl⟩
  uniform := by
    intro event hEvent
    obtain rfl := List.mem_singleton.mp hEvent
    exact Or.inl fun _ => rfl
  complete := by
    intro t hFired
    obtain ⟨event, hEvent, rfl⟩ := List.mem_map.mp hFired
    obtain rfl := List.mem_singleton.mp hEvent
    exact ⟨_, hEvent, rfl, rfl, fun _ => rfl⟩

/-- The greeting is taken for the one that the transcript starts with, and is
not stored again. -/
theorem reset_loses_greeting :
    Resumption plainConfig (onePass (userMessage "hello")) "s" (fun _ => [])
        (fun _ => [userMessage "hello", userMessage "news"]) sameGreeting ∧
      ¬ StoresNew plainConfig (onePass (userMessage "hello")).db
        (fireEvents plainConfig (onSessionReset (onePass (userMessage "hello"))) sameGreeting).db
        "s" [userMessage "hello", userMessage "news"] := by
  refine ⟨resumption_sameGreeting, fun hStores => ?_⟩
  have hCount := (resumption_sameGreeting.storesNew_iff List.mem_cons_self).mp hStores
  have hOne : replayedRows (onePass (userMessage "hello")).db "s"
      (firstSnapshot sameGreeting "s") = 1 := by decide
  rw [hOne] at hCount
  exact absurd hCount (by decide)

end LosslessHermes
