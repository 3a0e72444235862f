import LosslessHermes.Ingest.Cursor

/-!
# Restarts

A new process has no cursor for a session whose transcript is stored. Its first
firing compares the history with the transcript, message by message, by the
text that the history would give now; the transcript holds the texts that the
guard left behind.
-/

namespace LosslessHermes

open Json (get?)

/-- Every persistable message of the history has been stored, in order, and
nothing else; the cursor leaves no such message to a later firing. -/
structure IngestedCompletely (config : EngineConfig) (sessionId : SessionId)
    (history : List Json) (engine : Engine) : Prop where
  wellFormed : engine.db.WellFormed
  isOpen : engine.isOpen = true
  bound : engine.cursor sessionId ≤ history.length
  done : (history.drop (engine.cursor sessionId)).filterMap persistable = []
  /-- The one-shot reconciliation is behind, or finds nothing. -/
  tracked : engine.ingestCursorReconciled sessionId = true ∨
    engine.db.storedMessages sessionId = []
  rows : List.Forall₂ (fun message row => ∃ attempt,
    StoredAs config.strOf sessionId engine.db message attempt row)
    (history.filterMap persistable) (engine.db.storedMessages sessionId)

/-- Each row holds the text that its message gives without the guard. -/
def TextsUnchanged (sessionId : SessionId) (history : List Json) (db : Db) : Prop :=
  (db.storedMessages sessionId).map (·.content) =
    (history.filterMap persistable).map fun message =>
      extractMessageContent (get? message "content")

/-- No call of the firing raises. -/
def Firing.NoFault (firing : Firing) : Prop :=
  ∀ i, (firing.attempts i).fault = none

variable {firing : Firing}

theorem Firing.NoFault.offers (h : firing.NoFault) (cursor : Nat) :
    ∀ offer ∈ firing.offers cursor, offer.2.fault = none := by
  intro offer hOffer
  obtain ⟨entry, hEntry, hOffer⟩ := List.mem_filterMap.mp hOffer
  obtain ⟨message, -, rfl⟩ := Option.map_eq_some_iff.mp hOffer
  obtain ⟨i, hi, rfl⟩ := List.mem_mapIdx.mp (List.mem_of_mem_drop hEntry)
  exact h i

/-! ## A process that ingests a history completely -/

/-- What holds while a process without failures ingests a new session. -/
structure Tracking (config : EngineConfig) (sessionId : SessionId) (history : List Json)
    (engine : Engine) : Prop where
  wellFormed : engine.db.WellFormed
  isOpen : engine.isOpen = true
  bound : engine.cursor sessionId ≤ history.length
  first : engine.ingestCursorReconciled sessionId = false →
    engine.db.storedMessages sessionId = []
  rows : List.Forall₂ (fun message row => ∃ attempt,
    StoredAs config.strOf sessionId engine.db message attempt row)
    ((history.take (engine.cursor sessionId)).filterMap persistable)
    (engine.db.storedMessages sessionId)

variable {db : Db} {sessionId : SessionId}

theorem tracking_started (config : EngineConfig) (h : db.WellFormed)
    (hEmpty : db.storedMessages sessionId = []) (history : List Json) :
    Tracking config sessionId history (Engine.started db) := by
  refine ⟨h, rfl, Nat.zero_le _, fun _ => hEmpty, ?_⟩
  have hRows : (Engine.started db).db.storedMessages sessionId = [] := hEmpty
  rw [hRows]
  exact List.Forall₂.nil

variable {engine : Engine}

/-- Reconciliation with an empty transcript leaves the cursor alone. -/
theorem reconcileOnce_of_nil (h : engine.db.storedMessages sessionId = []) (snapshot : List Json) :
    (reconcileOnce engine sessionId snapshot).cursor sessionId = engine.cursor sessionId := by
  obtain ⟨-, -, -, hSame | ⟨cursor, hReplayed, -⟩⟩ :=
    reconcileOnce_cases engine sessionId snapshot
  · unfold Engine.cursor
    rw [hSame]
  · obtain ⟨n, hPos, hLe, -⟩ := hReplayed.replay
    rw [h, List.length_nil] at hLe
    omega

theorem reconcileOnce_of_reconciled
    (h : engine.ingestCursorReconciled sessionId = true) (snapshot : List Json) :
    reconcileOnce engine sessionId snapshot = engine := by
  simp [reconcileOnce, h]

variable {config : EngineConfig} {history : List Json}

theorem Tracking.reconcile_cursor (h : Tracking config sessionId history engine)
    (snapshot : List Json) :
    (reconcileOnce engine sessionId snapshot).cursor sessionId = engine.cursor sessionId := by
  cases hReconciled : engine.ingestCursorReconciled sessionId with
  | true => rw [reconcileOnce_of_reconciled hReconciled]
  | false => exact reconcileOnce_of_nil (h.first hReconciled) snapshot

theorem tracking_fire (h : Tracking config sessionId history engine)
    (hPrefix : firing.history <+: history) (hNoFault : firing.NoFault) :
    Tracking config sessionId history (fire config engine sessionId firing) := by
  cases hAccepts : accepts config engine sessionId with
  | false =>
    rw [fire_of_not_accepts hAccepts]
    exact h
  | true =>
    rw [fire_of_accepts hAccepts]
    have hCursor := h.reconcile_cursor firing.history
    obtain ⟨hDb, hOpen, -⟩ := reconcileOnce_cases engine sessionId firing.history
    obtain ⟨engine', messages, created, hEq, hWell, hBound', hOpen', hReconciled, hStored, hCovers,
      hNew, hFrame⟩ := ingestLocked_covers config (by rw [hDb]; exact h.wellFormed)
        (by rw [hCursor]; exact h.bound) hPrefix (Or.inl (hNoFault.offers _))
    rw [hDb] at hStored hFrame
    rw [hEq]
    refine ⟨hWell, hOpen'.trans (hOpen.trans h.isOpen), hBound', fun hUnseen => ?_, ?_⟩
    · have hSame := eq_of_unreconciled hEq hReconciled hUnseen
      rw [hSame] at hUnseen ⊢
      exact h.first hUnseen
    · rw [hCovers, hCursor, hStored]
      exact List.rel_append
        (h.rows.imp fun _ _ hRow => hRow.imp fun _ hStoredAs => hStoredAs.mono hFrame) hNew

/-- A firing without failures leaves nothing of its snapshot behind. -/
theorem ingestLocked_done (config : EngineConfig)
    (hWell : engine.db.WellFormed) (hNoFault : firing.NoFault) :
    (firing.history.drop ((ingestLocked config engine sessionId firing).cursor
      sessionId)).filterMap persistable = [] := by
  obtain ⟨db', created, hEq, -, -, hAll, -⟩ := ingestLocked_spec config hWell sessionId firing
  by_cases hNil : created = []
  · rw [List.filter_eq_self.mpr fun offer hOffer => by simp [hNoFault.offers _ offer hOffer], hNil,
      List.forall₂_nil_right_iff] at hAll
    rw [hEq, if_pos hNil]
    change (firing.history.drop (engine.cursor sessionId)).filterMap persistable = []
    rw [← Firing.offers_messages, hAll]
    rfl
  · rw [hEq, if_neg hNil]
    simp [Engine.cursor, Engine.setCursor]

theorem ingestedCompletely_fire {last : Firing} (hIngests : ingestsSession config sessionId = true)
    (h : Tracking config sessionId last.history engine) (hNoFault : last.NoFault) :
    IngestedCompletely config sessionId last.history (fire config engine sessionId last) := by
  have hTracking := tracking_fire h List.prefix_rfl hNoFault
  have hDone : (last.history.drop ((fire config engine sessionId last).cursor
      sessionId)).filterMap persistable = [] := by
    obtain ⟨hDb, -⟩ := reconcileOnce_cases engine sessionId last.history
    rw [fire_of_accepts (accepts_of_isOpen hIngests h.isOpen)]
    exact ingestLocked_done config (by rw [hDb]; exact h.wellFormed) hNoFault
  refine ⟨hTracking.wellFormed, hTracking.isOpen, hTracking.bound, hDone, ?_, ?_⟩
  · cases hReconciled : (fire config engine sessionId last).ingestCursorReconciled sessionId with
    | true => exact Or.inl rfl
    | false => exact Or.inr (hTracking.first hReconciled)
  · have hSplit : last.history.filterMap persistable =
        (last.history.take ((fire config engine sessionId last).cursor sessionId)).filterMap
          persistable := by
      conv_lhs => rw [← List.take_append_drop ((fire config engine sessionId last).cursor
        sessionId) last.history, List.filterMap_append, hDone, List.append_nil]
    rw [hSplit]
    exact hTracking.rows

/-- A new session whose firings never fail and whose last one carries the whole
history is ingested completely. -/
theorem ingestedCompletely_run {config : EngineConfig} {db : Db} (hWell : db.WellFormed)
    {sessionId : SessionId} (hEmpty : db.storedMessages sessionId = [])
    (hIngests : ingestsSession config sessionId = true) {firings : List Firing} {last : Firing}
    (hPrefix : ∀ firing ∈ firings, firing.history <+: last.history)
    (hNoFault : ∀ firing ∈ firings, firing.NoFault) (hLast : last.NoFault) :
    IngestedCompletely config sessionId last.history
      (fireAll config sessionId (Engine.started db) (firings ++ [last])) := by
  have hTracking : Tracking config sessionId last.history
      (fireAll config sessionId (Engine.started db) firings) :=
    Run.final_invariant
      (fun _ firing hFiring h => tracking_fire h (hPrefix firing hFiring) (hNoFault firing hFiring))
      (tracking_started config hWell hEmpty last.history)
  rw [fireAll, Run.final_append]
  exact ingestedCompletely_fire hIngests hTracking hLast

/-! ## The first firing of the next process -/

/-- What the text comparison of a row with its message comes down to. -/
theorem textsUnchanged_iff (hRows : List.Forall₂ (fun message row => ∃ attempt,
      StoredAs config.strOf sessionId db message attempt row)
      (history.filterMap persistable) (db.storedMessages sessionId)) :
    TextsUnchanged sessionId history db ↔
      (history.filterMap persistable).map identity =
        (db.storedMessages sessionId).map fun m => (m.role, m.content) := by
  unfold TextsUnchanged
  generalize history.filterMap persistable = messages at hRows ⊢
  generalize db.storedMessages sessionId = rows at hRows ⊢
  induction hRows with
  | nil => simp
  | cons hRow _ ih =>
    obtain ⟨attempt, hStored⟩ := hRow
    simp only [List.map_cons, List.cons.injEq, ih, identity, Prod.mk.injEq, hStored.role,
      true_and]
    exact and_congr_left' eq_comm

theorem IngestedCompletely.reconcile_cursor (h : IngestedCompletely config sessionId history engine)
    (snapshot : List Json) :
    (reconcileOnce engine sessionId snapshot).cursor sessionId = engine.cursor sessionId := by
  rcases h.tracked with hReconciled | hEmpty
  · rw [reconcileOnce_of_reconciled hReconciled]
  · exact reconcileOnce_of_nil hEmpty snapshot

/-- The process that goes on offers the new messages. -/
theorem IngestedCompletely.offers {new : List Json}
    (h : IngestedCompletely config sessionId history engine)
    (hHistory : firing.history = history ++ new) :
    offersOf engine sessionId firing =
      (firing.offers 0).drop (engine.db.storedMessages sessionId).length := by
  have hLength : ((firing.history.take (engine.cursor sessionId)).filterMap persistable).length =
      (engine.db.storedMessages sessionId).length := by
    rw [hHistory, List.take_append_of_le_length h.bound, ← h.rows.length_eq]
    conv_rhs => rw [← List.take_append_drop (engine.cursor sessionId) history,
      List.filterMap_append, h.done, List.append_nil]
  rw [offersOf, h.reconcile_cursor, Firing.offers_eq_drop, hLength]

/-- The cursor that the first reconciliation of a session leaves. -/
theorem reconcileOnce_cursor_first {engine : Engine} {sessionId : SessionId}
    (hUnset : engine.lastSeenMessageIdx sessionId = none)
    (hFirst : engine.ingestCursorReconciled sessionId = false) {history : List Json}
    (hHistory : history.isEmpty = false) :
    (reconcileOnce engine sessionId history).cursor sessionId =
      let walk := replayWalk ((engine.db.storedMessages sessionId).map fun m => (m.role, m.content))
        0 0 history
      if walk.1 = 0 then 0 else walk.2 := by
  have hOnce : (history.isEmpty || engine.ingestCursorReconciled sessionId) = false := by
    rw [hHistory, hFirst]
    rfl
  simp only [reconcileOnce, hOnce, reconcileIngestCursor_eq, hUnset]
  by_cases hZero : (replayWalk ((engine.db.storedMessages sessionId).map fun m =>
      (m.role, m.content)) 0 0 history).1 = 0
  · simp [hZero, Engine.cursor, hUnset]
  · simp [hZero, Engine.cursor, Engine.setCursor]

/-- The rows that reconciliation takes for replayed. -/
def replayedRows (db : Db) (sessionId : SessionId) (history : List Json) : Nat :=
  (replayWalk ((db.storedMessages sessionId).map fun m => (m.role, m.content)) 0 0 history).1

theorem replayedRows_spec (db : Db) (sessionId : SessionId) (history : List Json) :
    ∃ k, replayWalk ((db.storedMessages sessionId).map fun m => (m.role, m.content)) 0 0 history =
        (replayedRows db sessionId history, k) ∧
      k ≤ history.length ∧
      replayedRows db sessionId history ≤ (db.storedMessages sessionId).length ∧
      (((history.take k).filterMap persistable).map identity =
        ((db.storedMessages sessionId).map fun m => (m.role, m.content)).take
          (replayedRows db sessionId history)) ∧
      ((history.take k).filterMap persistable).length = replayedRows db sessionId history ∧
      (replayedRows db sessionId history < (db.storedMessages sessionId).length → ∀ message,
        ((history.drop k).filterMap persistable).head? = some message →
        some (identity message) ≠ ((db.storedMessages sessionId).map fun m =>
          (m.role, m.content))[replayedRows db sessionId history]?) := by
  obtain ⟨n, k, hWalk, hk, hn, hTake, hStop⟩ := replayWalk_spec history
    ((db.storedMessages sessionId).map fun m => (m.role, m.content)) 0 0
  have hRows : replayedRows db sessionId history = n := by
    rw [replayedRows, hWalk, Nat.zero_add]
  rw [List.length_map] at hn hStop
  have hLength : ((history.take k).filterMap persistable).length = n := by
    have hEq := congrArg List.length hTake
    rwa [List.length_map, List.length_take, List.length_map, Nat.min_eq_left hn] at hEq
  rw [hRows]
  exact ⟨k, by simpa using hWalk, hk, hn, hTake, hLength, hStop⟩

/-- The whole transcript is recognised exactly when it holds what the history gives. -/
theorem replayedRows_eq_length_iff
    (hRows : (history.filterMap persistable).length = (db.storedMessages sessionId).length)
    (new : List Json) :
    replayedRows db sessionId (history ++ new) = (db.storedMessages sessionId).length ↔
      (history.filterMap persistable).map identity =
        (db.storedMessages sessionId).map fun m => (m.role, m.content) := by
  constructor
  · intro hAll
    obtain ⟨k, -, -, -, hTake, hLength, -⟩ := replayedRows_spec db sessionId (history ++ new)
    have hSplit : ((history ++ new).take k).filterMap persistable ++
        ((history ++ new).drop k).filterMap persistable =
        history.filterMap persistable ++ new.filterMap persistable := by
      rw [← List.filterMap_append, List.take_append_drop, List.filterMap_append]
    have hSame := (List.append_inj hSplit (by rw [hLength, hAll, hRows])).1
    rw [← hSame, hTake, List.take_of_length_le]
    rw [List.length_map, hAll]
  · intro hTexts
    obtain ⟨k, hWalk, -⟩ := replayWalk_complete history new 0 0
    rw [replayedRows, ← hTexts, hWalk, Nat.zero_add, hRows]

/-- The process that starts anew offers the messages behind those it recognises
in the transcript. -/
theorem started_offers (db : Db) (sessionId : SessionId) (firing : Firing) :
    offersOf (Engine.started db) sessionId firing =
      (firing.offers 0).drop (replayedRows db sessionId firing.history) := by
  obtain ⟨k, hWalk, -, -, -, hLength, -⟩ := replayedRows_spec db sessionId firing.history
  unfold offersOf
  cases hHistory : firing.history.isEmpty with
  | true =>
    have hNil : ∀ c, firing.offers c = [] := fun c => by
      unfold Firing.offers
      rw [Firing.window_eq_nil (by simp [List.isEmpty_iff.mp hHistory])]
      rfl
    rw [hNil, hNil, List.drop_nil]
  | false =>
    have hReconcile := @reconcileOnce_cursor_first (Engine.started db) sessionId rfl rfl
      firing.history hHistory
    have hDb : (Engine.started db).db = db := rfl
    simp only [hDb, hWalk] at hReconcile
    rw [hReconcile]
    by_cases hZero : replayedRows db sessionId firing.history = 0
    · rw [if_pos hZero, hZero, List.drop_zero]
    · rw [if_neg hZero, Firing.offers_eq_drop, hLength]

/-- The new process recognises the whole transcript exactly when it holds the
texts that the history gives. -/
theorem started_offers_iff {new : List Json}
    (h : IngestedCompletely config sessionId history engine)
    (hHistory : firing.history = history ++ new) :
    ∃ n, n ≤ (engine.db.storedMessages sessionId).length ∧
      offersOf (Engine.started engine.db) sessionId firing = (firing.offers 0).drop n ∧
      (n = (engine.db.storedMessages sessionId).length ↔
        TextsUnchanged sessionId history engine.db) := by
  obtain ⟨-, -, -, hn, -⟩ := replayedRows_spec engine.db sessionId firing.history
  refine ⟨_, hn, started_offers engine.db sessionId firing, ?_⟩
  rw [textsUnchanged_iff h.rows, hHistory, replayedRows_eq_length_iff h.rows.length_eq]

/-- The database after a firing that never fails. -/
theorem fire_noFault {config : EngineConfig} {engine : Engine} {sessionId : SessionId}
    (hIngests : ingestsSession config sessionId = true) (hOpen : engine.isOpen = true)
    (hWell : engine.db.WellFormed) {firing : Firing} (hNoFault : firing.NoFault) :
    (fire config engine sessionId firing).db =
        (ingestOffered config.strOf sessionId engine.db (offersOf engine sessionId firing)).1 ∧
      ∃ created, (fire config engine sessionId firing).db.storedMessages sessionId =
          engine.db.storedMessages sessionId ++ created ∧
        List.Forall₂ (fun message row => ∃ attempt, StoredAs config.strOf sessionId
          (fire config engine sessionId firing).db message attempt row)
          ((offersOf engine sessionId firing).map (·.1)) created := by
  obtain ⟨hDb, -⟩ := reconcileOnce_cases engine sessionId firing.history
  have hEq : (fire config engine sessionId firing).db =
      (ingestOffered config.strOf sessionId engine.db (offersOf engine sessionId firing)).1 := by
    rw [fire_of_accepts (accepts_of_isOpen hIngests hOpen), ingestLocked_eq, ← hDb]
    dsimp only
    split <;> rfl
  refine ⟨hEq, ?_⟩
  obtain ⟨db', created, hBatch, -, hStored, hAll, -⟩ :=
    ingestOffered_spec config.strOf sessionId hWell (offersOf engine sessionId firing)
  rw [List.filter_eq_self.mpr fun offer hOffer => by simp [hNoFault.offers _ offer hOffer]] at hAll
  rw [hEq, hBatch]
  refine ⟨created, hStored, ?_⟩
  rw [List.forall₂_map_left_iff]
  exact hAll.imp fun offer _ h => ⟨offer.2, h⟩

/-- The rows that each process has after the firing. -/
theorem restart_stored_length {config : EngineConfig} {sessionId : SessionId}
    {history new : List Json} {engine : Engine} (hIngests : ingestsSession config sessionId = true)
    (h : IngestedCompletely config sessionId history engine) {firing : Firing}
    (hHistory : firing.history = history ++ new) (hNoFault : firing.NoFault) :
    TextsUnchanged sessionId history engine.db ↔
      ((fire config (Engine.started engine.db) sessionId firing).db.storedMessages
          sessionId).length =
        ((fire config engine sessionId firing).db.storedMessages sessionId).length := by
  obtain ⟨n, hn, hOffers, hIff⟩ := started_offers_iff h hHistory
  have hGoesOn := h.offers hHistory
  obtain ⟨-, created, hStored, hAll⟩ := @fire_noFault config (Engine.started engine.db)
    sessionId hIngests rfl h.wellFormed firing hNoFault
  obtain ⟨-, created', hStored', hAll'⟩ := fire_noFault hIngests h.isOpen h.wellFormed hNoFault
  have hTotal : (engine.db.storedMessages sessionId).length ≤ (firing.offers 0).length := by
    have hMessages := congrArg List.length (Firing.offers_messages firing 0)
    rw [List.length_map, List.drop_zero, hHistory, List.filterMap_append, List.length_append,
      h.rows.length_eq] at hMessages
    omega
  have hCreated := hAll.length_eq
  have hCreated' := hAll'.length_eq
  rw [List.length_map, hOffers, List.length_drop] at hCreated
  rw [List.length_map, hGoesOn, List.length_drop] at hCreated'
  have hDb : (Engine.started engine.db).db = engine.db := rfl
  rw [← hIff, hStored, hStored', hDb, List.length_append, List.length_append]
  omega

/-- **A restart is invisible to the stored transcript exactly when every row
holds the text that its message gives without the guard.** -/
theorem restart_invisible_iff {config : EngineConfig} {sessionId : SessionId}
    {history : List Json} {engine : Engine} (hIngests : ingestsSession config sessionId = true)
    (h : IngestedCompletely config sessionId history engine) (new : List Json) {firing : Firing}
    (hHistory : firing.history = history ++ new) (hNoFault : firing.NoFault) :
    ((fire config (Engine.started engine.db) sessionId firing).db.storedMessages sessionId =
        (fire config engine sessionId firing).db.storedMessages sessionId ∧
      ∃ created,
        (fire config (Engine.started engine.db) sessionId firing).db.storedMessages sessionId =
          engine.db.storedMessages sessionId ++ created ∧
        List.Forall₂ (fun message row => ∃ attempt, StoredAs config.strOf sessionId
          (fire config (Engine.started engine.db) sessionId firing).db message attempt row)
          (new.filterMap persistable) created) ↔
      TextsUnchanged sessionId history engine.db := by
  constructor
  · rintro ⟨hSame, -⟩
    rw [restart_stored_length hIngests h hHistory hNoFault, hSame]
  · intro hTexts
    obtain ⟨n, -, hOffers, hIff⟩ := started_offers_iff h hHistory
    have hSame : offersOf (Engine.started engine.db) sessionId firing =
        offersOf engine sessionId firing := by
      rw [hOffers, h.offers hHistory, hIff.mpr hTexts]
    have hNew : (offersOf engine sessionId firing).map (·.1) = new.filterMap persistable := by
      rw [offersOf, h.reconcile_cursor, Firing.offers_messages, hHistory,
        List.drop_append_of_le_length h.bound, List.filterMap_append, h.done, List.nil_append]
    obtain ⟨hDb, created, hStored, hAll⟩ := @fire_noFault config (Engine.started engine.db)
      sessionId hIngests rfl h.wellFormed firing hNoFault
    obtain ⟨hDb', -⟩ := fire_noFault hIngests h.isOpen h.wellFormed hNoFault
    rw [hSame, hNew] at hAll
    refine ⟨congrArg (fun db => Db.storedMessages db sessionId) ?_, created, hStored, hAll⟩
    rw [hDb, hDb', hSame]
    rfl

/-! ## Runs on fixed inputs -/

/-- A first firing with one message, its large-file writes succeeding. -/
def oneFiring (message : Json) : Firing :=
  { history := [message]
    attempts := fun _ => { quietAttempt with externalize := fun _ => some "file_1" } }

def onePass (message : Json) : Engine :=
  fireAll plainConfig "s" (Engine.started Db.empty) [oneFiring message]

theorem onePass_completely (message : Json) :
    IngestedCompletely plainConfig "s" [message] (onePass message) :=
  @ingestedCompletely_run plainConfig Db.empty Db.wellFormed_empty "s" rfl (by decide) []
    (oneFiring message) (fun _ h => absurd h List.not_mem_nil)
    (fun _ h => absurd h List.not_mem_nil) fun _ => rfl

theorem restart_invisible_iff_oneMessage :
    (((fire plainConfig (Engine.started (onePass (userMessage "a")).db) "s"
          ⟨[userMessage "a", userMessage "b"], fun _ => quietAttempt⟩).db.storedMessages "s" =
        (fire plainConfig (onePass (userMessage "a")) "s"
          ⟨[userMessage "a", userMessage "b"], fun _ => quietAttempt⟩).db.storedMessages "s") ∧
      ∃ created,
        (fire plainConfig (Engine.started (onePass (userMessage "a")).db) "s"
            ⟨[userMessage "a", userMessage "b"], fun _ => quietAttempt⟩).db.storedMessages "s" =
          (onePass (userMessage "a")).db.storedMessages "s" ++ created ∧
        List.Forall₂ (fun message row => ∃ attempt, StoredAs plainConfig.strOf "s"
          (fire plainConfig (Engine.started (onePass (userMessage "a")).db) "s"
            ⟨[userMessage "a", userMessage "b"], fun _ => quietAttempt⟩).db message attempt row)
          ([userMessage "b"].filterMap persistable) created) ↔
      TextsUnchanged "s" [userMessage "a"] (onePass (userMessage "a")).db :=
  restart_invisible_iff (by decide) (onePass_completely _) [userMessage "b"] rfl fun _ => rfl

/-- A data URI that is long enough to be moved to a large file. -/
def dataUri : List Char :=
  "data:;base64,".toList ++ List.replicate 256 'A'

theorem split_dataUri : dataUriBase64Re.split dataUri = [.hit dataUri] := by
  decide +kernel

theorem textsChanged_dataUri :
    ¬ TextsUnchanged "s" [userMessage (String.ofList dataUri)]
      (onePass (userMessage (String.ofList dataUri))).db := by
  let firing := oneFiring (userMessage (String.ofList dataUri))
  let fields : Message := [("role", .str "user"), ("content", .str (String.ofList dataUri))]
  obtain ⟨-, -, -, hn, -⟩ := replayedRows_spec Db.empty "s" firing.history
  have hZero : replayedRows Db.empty "s" firing.history = 0 := Nat.le_zero.mp hn
  have hOffered : offersOf (Engine.started Db.empty) "s" firing =
      [(fields, firing.attempts 0)] := by
    rw [started_offers, hZero]
    rfl
  obtain ⟨hDb, -⟩ := @fire_noFault plainConfig (Engine.started Db.empty) "s" (by decide) rfl
    Db.wellFormed_empty firing fun _ => rfl
  obtain ⟨db', created, hBatch, -, hStored, hAll, -⟩ :=
    ingestOffered_spec plainConfig.strOf "s" Db.wellFormed_empty [(fields, firing.attempts 0)]
  have hRows : (onePass (userMessage (String.ofList dataUri))).db.storedMessages "s" =
      created := by
    change (fire plainConfig (Engine.started Db.empty) "s" firing).db.storedMessages "s" = created
    rw [hDb, hOffered]
    exact (congrArg (fun result => Db.storedMessages result.1 "s") hBatch).trans hStored
  intro hTexts
  unfold TextsUnchanged at hTexts
  rw [hRows] at hTexts
  cases hAll with
  | cons hRow hRest =>
    obtain ⟨rest, hPlaceholder⟩ := @protectText_dataUri (fun _ => some "file_1")
      (guardRole fields) "file_1" dataUri 0 rfl split_dataUri
    have hContent := hRow.content
    rw [applyIngestPayloadGuard, if_neg (by decide),
      protectMessageForIngest_text (rfl : get? fields "content" = _)] at hContent
    have hRaw := hContent.symm.trans (List.cons.inj hTexts).1
    have hChars : '[' :: rest = dataUri :=
      String.ofList_injective (hPlaceholder.symm.trans hRaw)
    exact absurd (List.cons.inj hChars).1 (by decide)

/-- The restarted process stores a message with a large payload once more. -/
theorem restart_repeats_dataUri :
    ¬ ((fire plainConfig (Engine.started (onePass (userMessage (String.ofList dataUri))).db) "s"
          ⟨[userMessage (String.ofList dataUri)], fun _ => quietAttempt⟩).db.storedMessages "s" =
        (fire plainConfig (onePass (userMessage (String.ofList dataUri))) "s"
          ⟨[userMessage (String.ofList dataUri)], fun _ => quietAttempt⟩).db.storedMessages
            "s") := by
  intro hSame
  refine textsChanged_dataUri ((@restart_stored_length plainConfig "s"
    [userMessage (String.ofList dataUri)] [] _ (by decide) (onePass_completely _)
    ⟨[userMessage (String.ofList dataUri)], fun _ => quietAttempt⟩ rfl fun _ => rfl).mpr ?_)
  rw [hSame]

end LosslessHermes
