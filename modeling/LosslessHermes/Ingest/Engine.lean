import LosslessHermes.Ingest.Single
import Mathlib.Logic.Function.Basic

/-!
# The engine and its ingest cursor

The in-memory state that the ingest hooks share, the reconciliation of the
cursor with the stored transcript, and one firing of a hook from its guards to
the advance of the cursor. Two firings of one session exclude each other here;
what their steps do when they interleave is the subject of another module.
-/

namespace LosslessHermes

open Json (get?)

structure EngineConfig where
  /-- The text of a list element that is neither a string nor an object. -/
  strOf : Json → String
  /-- `ignore_session_patterns`, each as its `search`. -/
  ignoreSessionPatterns : List (String → Bool)

/-- The shell class. The four stores share the connection, so they are there
exactly while it is open; the database file outlives them. -/
structure Engine where
  db : Db
  isOpen : Bool
  currentSessionId : Option SessionId
  lastSeenMessageIdx : SessionId → Option Nat
  ingestCursorReconciled : SessionId → Bool

/-- A process that has just started, on a database file. -/
def Engine.fresh (db : Db) : Engine :=
  { db := db, isOpen := false, currentSessionId := none
    lastSeenMessageIdx := fun _ => none, ingestCursorReconciled := fun _ => false }

/-- The index the next firing ingests from. -/
def Engine.cursor (engine : Engine) (sessionId : SessionId) : Nat :=
  (engine.lastSeenMessageIdx sessionId).getD 0

def Engine.setCursor (engine : Engine) (sessionId : SessionId) (cursor : Nat) : Engine :=
  { engine with
    lastSeenMessageIdx := Function.update engine.lastSeenMessageIdx sessionId (some cursor) }

/-- `_should_ignore_session` for a hook, which has no session key. -/
def shouldIgnoreSession (config : EngineConfig) (sessionId : SessionId) : Bool :=
  let candidate := Text.strip sessionId
  if candidate = "" then false else config.ignoreSessionPatterns.any fun search => search candidate

/-! ## Reconciliation -/

/-- What reconciliation compares a message with a stored row by. -/
def identity (message : Message) : MessageRole × String :=
  (toDbRole (get? message "role"), extractMessageContent (get? message "content"))

/-- The walk over a history: how many of the stored rows are proven to be
replayed, and the index behind the last entry that is. -/
def replayWalk : List (MessageRole × String) → Nat → Nat → List Json → Nat × Nat
  | _, matched, cursor, [] => (matched, cursor)
  | stored, matched, cursor, message :: history =>
      match stored with
      | [] => (matched, cursor)
      | row :: rows =>
          match persistable message with
          | none => replayWalk (row :: rows) matched (cursor + 1) history
          | some message =>
              if identity message = row then replayWalk rows (matched + 1) (cursor + 1) history
              else (matched, cursor)

/-- The store read of reconciliation and its walk: the cursor it will set, if the
history replays a part of the stored transcript. -/
def provenReplay (db : Db) (sessionId : SessionId) (history : List Json) : Option Nat :=
  match db.getConversationBySessionId sessionId with
  | none => none
  | some conversation =>
      if db.getMessageCount conversation.conversationId = 0 then none
      else
        let stored := (db.getMessages conversation.conversationId).map fun m =>
          (m.role, m.content)
        let walk := replayWalk stored 0 0 history
        if walk.1 = 0 then none else some walk.2

def reconcileIngestCursor (engine : Engine) (sessionId : SessionId) (history : List Json) :
    Engine :=
  if (engine.lastSeenMessageIdx sessionId).isSome then engine
  else if history.isEmpty then engine
  else
    match provenReplay engine.db sessionId history with
    | none => engine
    | some cursor => engine.setCursor sessionId cursor

/-- The one-shot gate in front of `_reconcile_ingest_cursor`. -/
def reconcileOnce (engine : Engine) (sessionId : SessionId) (history : List Json) : Engine :=
  if history.isEmpty || engine.ingestCursorReconciled sessionId then engine
  else
    { reconcileIngestCursor engine sessionId history with
      ingestCursorReconciled := Function.update engine.ingestCursorReconciled sessionId true }

/-! ## One firing -/

/-- A hook call: the snapshot it carries, and what the environment contributes
to the ingest of each entry. -/
structure Firing where
  history : List Json
  attempts : Nat → Attempt

/-- The entries from an index on. -/
def Firing.window (firing : Firing) (cursor : Nat) : List (Json × Attempt) :=
  (firing.history.mapIdx fun i message => (message, firing.attempts i)).drop cursor

/-- The part of a firing under the session lock. -/
def ingestLocked (config : EngineConfig) (engine : Engine) (sessionId : SessionId)
    (firing : Firing) : Engine :=
  let currentIdx := engine.cursor sessionId
  if firing.history.length ≤ currentIdx then engine
  else
    let batch := ingestBatch config.strOf sessionId engine.db (firing.window currentIdx)
    if 0 < batch.2 then
      { engine with db := batch.1 }.setCursor sessionId firing.history.length
    else { engine with db := batch.1 }

/-- `_do_ingest_history_diff`, which both hooks call. -/
def fire (config : EngineConfig) (engine : Engine) (sessionId : SessionId) (firing : Firing) :
    Engine :=
  if sessionId = "" then engine
  else if !engine.isOpen then engine
  else if shouldIgnoreSession config sessionId then engine
  else
    let engine := reconcileOnce engine sessionId firing.history
    if firing.history.length ≤ engine.cursor sessionId then engine
    else ingestLocked config engine sessionId firing

/-! ## What reconciliation concludes -/

theorem replayWalk_spec (history : List Json) (stored : List (MessageRole × String))
    (matched cursor : Nat) :
    ∃ n k, replayWalk stored matched cursor history = (matched + n, cursor + k) ∧
      k ≤ history.length ∧ n ≤ stored.length ∧
      ((history.take k).filterMap persistable).map identity = stored.take n ∧
      (n < stored.length → ∀ message, ((history.drop k).filterMap persistable).head? =
        some message → some (identity message) ≠ stored[n]?) := by
  induction history generalizing stored matched cursor with
  | nil => exact ⟨0, 0, rfl, Nat.le_refl _, Nat.zero_le _, rfl, fun _ _ h => by simp at h⟩
  | cons entry history ih =>
    cases stored with
    | nil => exact ⟨0, 0, rfl, Nat.zero_le _, Nat.le_refl _, rfl, fun h => absurd h (by simp)⟩
    | cons row rows =>
      cases hEntry : persistable entry with
      | none =>
        obtain ⟨n, k, hWalk, hk, hn, hTake, hStop⟩ := ih (row :: rows) matched (cursor + 1)
        refine ⟨n, k + 1, ?_, Nat.succ_le_succ hk, hn, ?_, ?_⟩
        · simp only [replayWalk, hEntry, hWalk, Prod.mk.injEq, true_and]
          omega
        · simpa [hEntry] using hTake
        · simpa using hStop
      | some message =>
        by_cases hSame : identity message = row
        · obtain ⟨n, k, hWalk, hk, hn, hTake, hStop⟩ := ih rows (matched + 1) (cursor + 1)
          refine ⟨n + 1, k + 1, ?_, Nat.succ_le_succ hk, Nat.succ_le_succ hn, ?_, ?_⟩
          · simp only [replayWalk, hEntry, hSame, if_true, hWalk, Prod.mk.injEq]
            omega
          · simpa [hEntry, hSame] using hTake
          · simpa using hStop
        · refine ⟨0, 0, ?_, Nat.zero_le _, Nat.zero_le _, rfl, ?_⟩
          · simp [replayWalk, hEntry, hSame]
          · intro _ found hFound
            simp only [List.drop_zero, List.filterMap_cons, hEntry, List.head?_cons,
              Option.some.injEq] at hFound
            subst hFound
            simpa using hSame

/-- A history that starts with what is stored is recognised as far as that goes. -/
theorem replayWalk_complete (history new : List Json) (matched cursor : Nat) :
    ∃ k, replayWalk ((history.filterMap persistable).map identity) matched cursor
        (history ++ new) = (matched + (history.filterMap persistable).length, cursor + k) ∧
      (history.drop k).filterMap persistable = [] := by
  induction history generalizing matched cursor with
  | nil => exact ⟨0, by cases new <;> rfl, rfl⟩
  | cons entry history ih =>
    cases hEntry : persistable entry with
    | none =>
      obtain ⟨k, hWalk, hDone⟩ := ih matched (cursor + 1)
      simp only [List.filterMap_cons, hEntry]
      cases hStored : (history.filterMap persistable).map identity with
      | nil =>
        have hNil : history.filterMap persistable = [] := List.map_eq_nil_iff.mp hStored
        exact ⟨0, by rw [hNil]; rfl, by simp [hEntry, hNil]⟩
      | cons row rows =>
        rw [hStored] at hWalk
        refine ⟨k + 1, ?_, hDone⟩
        simp only [List.cons_append, replayWalk, hEntry, hWalk, Prod.mk.injEq, true_and]
        omega
    | some message =>
      obtain ⟨k, hWalk, hDone⟩ := ih (matched + 1) (cursor + 1)
      refine ⟨k + 1, ?_, hDone⟩
      simp only [List.cons_append, List.filterMap_cons, hEntry, List.map_cons, replayWalk,
        if_true, hWalk, List.length_cons, Prod.mk.injEq]
      omega

theorem getMessageCount_eq (db : Db) (c : ConversationId) :
    db.getMessageCount c = (db.getMessages c).length := by
  unfold Db.getMessageCount Db.getMessages
  rw [(Table.select_perm _).length_eq, List.countP_eq_length_filter]

/-- Reconciliation compares the history with the transcript of the session. -/
theorem provenReplay_eq (db : Db) (sessionId : SessionId) (history : List Json) :
    provenReplay db sessionId history =
      let walk := replayWalk ((db.storedMessages sessionId).map fun m => (m.role, m.content))
        0 0 history
      if walk.1 = 0 then none else some walk.2 := by
  have hNil : replayWalk [] 0 0 history = (0, 0) := by
    cases history <;> rfl
  unfold provenReplay
  cases hFound : db.getConversationBySessionId sessionId with
  | none => simp [Db.storedMessages, hFound, hNil]
  | some conversation =>
    rw [Db.storedMessages_of_conversation hFound]
    dsimp only
    rw [getMessageCount_eq]
    by_cases hCount : (db.getMessages conversation.conversationId).length = 0
    · rw [if_pos hCount, List.eq_nil_of_length_eq_zero hCount]
      simp [hNil]
    · rw [if_neg hCount]

theorem reconcileIngestCursor_eq (engine : Engine) (sessionId : SessionId) (history : List Json) :
    reconcileIngestCursor engine sessionId history =
      if (engine.lastSeenMessageIdx sessionId).isSome then engine
      else
        let walk := replayWalk ((engine.db.storedMessages sessionId).map fun m =>
          (m.role, m.content)) 0 0 history
        if walk.1 = 0 then engine else engine.setCursor sessionId walk.2 := by
  unfold reconcileIngestCursor
  split
  · rfl
  · cases history with
    | nil => rfl
    | cons entry history =>
      rw [if_neg (by simp), provenReplay_eq]
      dsimp only
      by_cases hZero : (replayWalk ((engine.db.storedMessages sessionId).map fun m =>
          (m.role, m.content)) 0 0 (entry :: history)).1 = 0
      · rw [if_pos hZero, if_pos hZero]
      · rw [if_neg hZero, if_neg hZero]

/-- The cursor that reconciliation sets: it stands behind messages that the
transcript starts with. -/
structure Replayed (engine : Engine) (sessionId : SessionId) (history : List Json)
    (cursor : Nat) : Prop where
  unset : engine.lastSeenMessageIdx sessionId = none
  first : engine.ingestCursorReconciled sessionId = false
  bound : cursor ≤ history.length
  replay : ∃ n, 0 < n ∧ n ≤ (engine.db.storedMessages sessionId).length ∧
    ((history.take cursor).filterMap persistable).map identity =
      ((engine.db.storedMessages sessionId).take n).map fun m => (m.role, m.content)

theorem reconcileOnce_cases (engine : Engine) (sessionId : SessionId) (history : List Json) :
    (reconcileOnce engine sessionId history).db = engine.db ∧
      (reconcileOnce engine sessionId history).isOpen = engine.isOpen ∧
      (history ≠ [] →
        (reconcileOnce engine sessionId history).ingestCursorReconciled sessionId = true) ∧
      ((reconcileOnce engine sessionId history).lastSeenMessageIdx = engine.lastSeenMessageIdx ∨
        ∃ cursor, Replayed engine sessionId history cursor ∧
          (reconcileOnce engine sessionId history).lastSeenMessageIdx =
            Function.update engine.lastSeenMessageIdx sessionId (some cursor)) := by
  unfold reconcileOnce
  cases hOnce : history.isEmpty || engine.ingestCursorReconciled sessionId with
  | true =>
    refine ⟨rfl, rfl, fun hNe => ?_, Or.inl rfl⟩
    rcases Bool.or_eq_true _ _ ▸ hOnce with h | h
    · exact absurd (List.isEmpty_iff.mp h) hNe
    · exact h
  | false =>
    obtain ⟨hEmpty, hFirst⟩ := Bool.or_eq_false_iff.mp hOnce
    rw [reconcileIngestCursor_eq]
    cases hSeen : engine.lastSeenMessageIdx sessionId with
    | some n => exact ⟨rfl, rfl, fun _ => Function.update_self .., Or.inl rfl⟩
    | none =>
      obtain ⟨n, k, hWalk, hk, hn, hTake, -⟩ := replayWalk_spec history
        ((engine.db.storedMessages sessionId).map fun m => (m.role, m.content)) 0 0
      simp only [hWalk, Nat.zero_add]
      by_cases hZero : n = 0
      · simp only [hZero, if_true]
        exact ⟨rfl, rfl, fun _ => Function.update_self .., Or.inl rfl⟩
      · simp only [hZero, if_false]
        refine ⟨rfl, rfl, fun _ => Function.update_self .., Or.inr ⟨k, ?_, rfl⟩⟩
        rw [List.length_map] at hn
        exact ⟨hSeen, hFirst, hk, n, Nat.pos_of_ne_zero hZero, hn, by rw [hTake, List.map_take]⟩

/-! ## What a firing does -/

theorem Firing.window_eq_nil {firing : Firing} {cursor : Nat}
    (h : firing.history.length ≤ cursor) : firing.window cursor = [] := by
  unfold window
  rw [List.drop_eq_nil_iff, List.length_mapIdx]
  exact h

/-- The persistable messages that a firing hands to the store. -/
def Firing.offers (firing : Firing) (cursor : Nat) : List (Message × Attempt) :=
  offered (firing.window cursor)

theorem offered_messages (window : List (Json × Attempt)) :
    (offered window).map (·.1) = (window.map (·.1)).filterMap persistable := by
  unfold offered
  induction window with
  | nil => rfl
  | cons entry window ih => cases h : persistable entry.1 <;> simp [h, ih]

theorem Firing.window_messages (firing : Firing) (cursor : Nat) :
    (firing.window cursor).map (·.1) = firing.history.drop cursor := by
  unfold window
  rw [List.map_drop]
  congr 1
  exact List.ext_getElem (by simp) fun i _ _ => by simp

theorem Firing.offers_messages (firing : Firing) (cursor : Nat) :
    (firing.offers cursor).map (·.1) = (firing.history.drop cursor).filterMap persistable := by
  rw [offers, offered_messages, window_messages]

/-- A cursor leaves out the offers for the persistable messages before it. -/
theorem Firing.offers_eq_drop (firing : Firing) (cursor : Nat) :
    firing.offers cursor =
      (firing.offers 0).drop ((firing.history.take cursor).filterMap persistable).length := by
  have hSplit : firing.offers 0 =
      offered ((firing.window 0).take cursor) ++ firing.offers cursor := by
    have hDrop : firing.window cursor = (firing.window 0).drop cursor := by
      unfold window
      rw [List.drop_drop, Nat.zero_add]
    unfold offers offered
    rw [hDrop, ← List.filterMap_append, List.take_append_drop]
  have hLength : (offered ((firing.window 0).take cursor)).length =
      ((firing.history.take cursor).filterMap persistable).length := by
    rw [← List.length_map (·.1), offered_messages, List.map_take, window_messages,
      List.drop_zero]
  rw [hSplit, List.drop_left' hLength]

theorem ingestLocked_eq (config : EngineConfig) (engine : Engine) (sessionId : SessionId)
    (firing : Firing) :
    ingestLocked config engine sessionId firing =
      let batch := ingestOffered config.strOf sessionId engine.db
        (firing.offers (engine.cursor sessionId))
      if 0 < batch.2 then
        { engine with db := batch.1 }.setCursor sessionId firing.history.length
      else { engine with db := batch.1 } := by
  unfold ingestLocked Firing.offers
  dsimp only
  split
  · rename_i h
    rw [Firing.window_eq_nil h]
    rfl
  · rw [ingestBatch_eq_ingestOffered]

theorem fire_eq {config : EngineConfig} {engine : Engine} {sessionId : SessionId}
    (hSession : sessionId ≠ "") (hOpen : engine.isOpen = true)
    (hIgnore : shouldIgnoreSession config sessionId = false) (firing : Firing) :
    fire config engine sessionId firing =
      ingestLocked config (reconcileOnce engine sessionId firing.history) sessionId firing := by
  unfold fire
  simp only [hSession, hOpen, hIgnore, if_false, Bool.not_true, Bool.false_eq_true]
  split
  · rename_i h
    unfold ingestLocked
    rw [if_pos h]
  · rfl

/-- A firing appends one row for each offered message whose call did not raise,
and moves the cursor to the end of the snapshot if there is such a message. -/
theorem ingestLocked_spec (config : EngineConfig) {engine : Engine} (h : engine.db.WellFormed)
    (sessionId : SessionId) (firing : Firing) :
    ∃ db' created,
      ingestLocked config engine sessionId firing =
        (if created = [] then { engine with db := db' }
          else { engine with db := db' }.setCursor sessionId firing.history.length) ∧
      db'.WellFormed ∧
      db'.storedMessages sessionId = engine.db.storedMessages sessionId ++ created ∧
      List.Forall₂ (fun offer row => StoredAs config.strOf sessionId db' offer.1 offer.2 row)
        ((firing.offers (engine.cursor sessionId)).filter fun offer => offer.2.fault.isNone)
        created ∧
      Db.TranscriptFrame sessionId engine.db db' := by
  obtain ⟨db', created, hBatch, hWell, hStored, hAll, hFrame⟩ :=
    ingestOffered_spec config.strOf sessionId h (firing.offers (engine.cursor sessionId))
  refine ⟨db', created, ?_, hWell, hStored, hAll, hFrame⟩
  rw [ingestLocked_eq, hBatch]
  cases created with
  | nil => rfl
  | cons row created => rfl

end LosslessHermes
