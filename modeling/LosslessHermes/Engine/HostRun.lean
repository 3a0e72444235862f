import LosslessHermes.Compaction.PassEffect
import LosslessHermes.Engine.Reset
import LosslessHermes.Engine.Substitution

/-!
# Runs of a host

A host keeps one live list for each session: it appends messages, hands the list
to the hooks, and puts what a substitution answers with in its place. The lists
outlive a restart of the engine, the ingest cursors do not.

Each entry of a list remembers where it comes from, and beside the store a run
keeps the origins of the rows that its firings wrote.
-/

namespace LosslessHermes

open Json (get?)

/-! ## The host and its runs -/

/-- Where an entry of a live list comes from. -/
inductive Origin
  | host (index : Nat)
  | rendered
  deriving DecidableEq

structure LiveEntry where
  message : Json
  origin : Origin

structure Host where
  engine : Engine
  live : SessionId → List LiveEntry
  /-- The number of messages appended for a session. -/
  appended : SessionId → Nat
  /-- The messages that were stored for a session, oldest first. -/
  log : SessionId → List (Origin × Message)

def Host.start (db : Db) : Host :=
  { engine := Engine.started db, live := fun _ => [], appended := fun _ => 0, log := fun _ => [] }

def Host.messages (host : Host) (s : SessionId) : List Json :=
  (host.live s).map (·.message)

def Host.firing (host : Host) (s : SessionId) (attempts : Nat → Attempt) : Firing :=
  { history := host.messages s, attempts := attempts }

/-- The entries that a firing stores: those behind the cursor that are
persistable and whose call does not raise. -/
def Host.storedEntries (config : EngineConfig) (host : Host) (s : SessionId)
    (attempts : Nat → Attempt) : List (Origin × Message) :=
  if accepts config host.engine s then
    let cursor := (reconcileOnce host.engine s (host.messages s)).cursor s
    let window := ((host.live s).mapIdx fun i entry => (entry, attempts i)).drop cursor
    (window.filter (·.2.fault.isNone)).filterMap fun offer =>
      (persistable offer.1.message).map fun message => (offer.1.origin, message)
  else []

inductive HostEvent
  | append (s : SessionId) (message : Json)
  | fire (s : SessionId) (attempts : Nat → Attempt)
  | leafPass (c : ConversationId) (env : Compaction.PassEnv)
      (previousSummaryContent : Option String)
  | condensedPass (c : ConversationId) (env : Compaction.PassEnv) (hardTrigger : Bool)
  | substitute (s : SessionId) (seam : Seam) (raises : Bool)
  | restart

/-- One event. An answer that is equal to the live list leaves it as it is. -/
def Host.step (config : AssemblyConfig) (host : Host) : HostEvent → Host
  | .append s message =>
      { host with
        live := Function.update host.live s
          (host.live s ++ [⟨message, .host (host.appended s)⟩])
        appended := Function.update host.appended s (host.appended s + 1) }
  | .fire s attempts =>
      { host with
        engine := LosslessHermes.fire config.toEngineConfig host.engine s (host.firing s attempts)
        log := Function.update host.log s
          (host.log s ++ host.storedEntries config.toEngineConfig s attempts) }
  | .leafPass c env previousSummaryContent =>
      { host with engine := { host.engine with
          db := (Compaction.leafPass host.engine.db env c previousSummaryContent).1 } }
  | .condensedPass c env hardTrigger =>
      { host with engine := { host.engine with
          db := (Compaction.runCondensedPass host.engine.db env c hardTrigger).1 } }
  | .substitute s seam raises =>
      let answer := LosslessHermes.substitute config seam host.engine (host.messages s) raises
      { host with
        engine := answer.engine
        live :=
          if answer.didSubstitute &&
              !Json.sameItems config.integer answer.messages (host.messages s) then
            Function.update host.live s (answer.messages.map fun message => ⟨message, .rendered⟩)
          else host.live }
  | .restart => { host with engine := Engine.started host.engine.db }

/-! ## What is required of a run -/

/-- The host appended the entry, and no row was written for it. -/
def Host.Unstored (host : Host) (s : SessionId) (entry : LiveEntry) : Prop :=
  ∃ index, entry.origin = .host index ∧ entry.origin ∉ (host.log s).map (·.1)

/-- The live list begins with messages that the transcript begins with, in role
and text, and goes on with messages of the host that are not stored. -/
def Host.Replays (host : Host) (s : SessionId) : Prop :=
  ∃ n, (((host.messages s).take n).filterMap persistable).map identity <+:
      (host.engine.db.storedMessages s).map (fun m => (m.role, m.content)) ∧
    ∀ entry ∈ (host.live s).drop n, host.Unstored s entry

/-- A session that has no cursor and was not reconciled yet fires on a list that
replays its transcript, and a substitution is one for the session of its list. -/
def StartsFromReplay (config : AssemblyConfig) (host : Host) : HostEvent → Prop
  | .fire s _ => accepts config.toEngineConfig host.engine s = true →
      host.engine.lastSeenMessageIdx s = none →
      host.engine.ingestCursorReconciled s = false → host.Replays s
  | .substitute s seam raises =>
      passesGuards config seam host.engine (host.messages s) raises = true →
        inferSessionId (host.messages s) = s
  | _ => True

/-- The rows written in the run, in the order of the transcript, are those of
different messages of the host. -/
structure StoredOnce (config : EngineConfig) (start : Db) (host : Host) (s : SessionId) :
    Prop where
  rows : ∃ rows, host.engine.db.storedMessages s = start.storedMessages s ++ rows ∧
    List.Forall₂ (fun entry row => ∃ attempt,
      StoredAs config.strOf s host.engine.db entry.2 attempt row) (host.log s) rows
  once : ((host.log s).map (·.1)).Nodup
  appended : ∀ entry ∈ host.log s, ∃ index < host.appended s, entry.1 = .host index

/-! ## What every event keeps -/

structure HostInvariant (config : EngineConfig) (start : Db) (host : Host) (s : SessionId) :
    Prop extends StoredOnce config start host s where
  ascending : (host.live s).Pairwise fun a b =>
    ∀ i j, a.origin = .host i → b.origin = .host j → i < j
  bound : ∀ entry ∈ host.live s, ∀ index, entry.origin = .host index → index < host.appended s
  /-- With the cursor in place, no stored message stands behind it. -/
  pending : ((host.engine.lastSeenMessageIdx s).isSome ∨
      host.engine.ingestCursorReconciled s = true) →
    ∀ entry ∈ (host.live s).drop (host.engine.cursor s),
      (persistable entry.message).isSome = true → host.Unstored s entry

theorem StoredOnce.congr {config : EngineConfig} {start : Db} {host host' : Host} {s : SessionId}
    (h : StoredOnce config start host s) (hLog : host'.log s = host.log s)
    (hAppended : host.appended s ≤ host'.appended s)
    (hStored : host'.engine.db.storedMessages s = host.engine.db.storedMessages s)
    {writer : SessionId} (hFrame : Db.TranscriptFrame writer host.engine.db host'.engine.db) :
    StoredOnce config start host' s := by
  obtain ⟨rows, hRows, hAll⟩ := h.rows
  refine ⟨⟨rows, hStored.trans hRows, ?_⟩, ?_, ?_⟩
  · rw [hLog]
    exact hAll.imp fun _ _ ⟨attempt, hRow⟩ => ⟨attempt, hRow.mono hFrame⟩
  · rw [hLog]
    exact h.once
  · intro entry hEntry
    rw [hLog] at hEntry
    obtain ⟨index, hIndex, hOrigin⟩ := h.appended entry hEntry
    exact ⟨index, hIndex.trans_le hAppended, hOrigin⟩

/-- An event that concerns other sessions. -/
theorem HostInvariant.congr {config : EngineConfig} {start : Db} {host host' : Host}
    {s : SessionId} (h : HostInvariant config start host s) (hLive : host'.live s = host.live s)
    (hAppended : host'.appended s = host.appended s) (hLog : host'.log s = host.log s)
    (hSeen : host'.engine.lastSeenMessageIdx s = host.engine.lastSeenMessageIdx s)
    (hReconciled : host'.engine.ingestCursorReconciled s = host.engine.ingestCursorReconciled s)
    (hStored : host'.engine.db.storedMessages s = host.engine.db.storedMessages s)
    {writer : SessionId} (hFrame : Db.TranscriptFrame writer host.engine.db host'.engine.db) :
    HostInvariant config start host' s := by
  refine ⟨h.toStoredOnce.congr hLog (Nat.le_of_eq hAppended.symm) hStored hFrame, ?_, ?_, ?_⟩
  · rw [hLive]
    exact h.ascending
  · rw [hLive, hAppended]
    exact h.bound
  · unfold Engine.cursor Host.Unstored
    rw [hSeen, hReconciled, hLive, hLog]
    exact h.pending

/-! ## Firings -/

/-- Reconciliation steps over every message of a replay. -/
theorem reconcileOnce_passes {engine : Engine} {t : SessionId}
    (hUnset : engine.lastSeenMessageIdx t = none)
    (hFirst : engine.ingestCursorReconciled t = false) {history : List Json}
    (hHistory : history.isEmpty = false) {n : Nat}
    (hReplay : ((history.take n).filterMap persistable).map identity <+:
      (engine.db.storedMessages t).map fun m => (m.role, m.content)) :
    ((history.take n).drop ((reconcileOnce engine t history).cursor t)).filterMap persistable =
      [] := by
  obtain ⟨k, hWalk, -, -, -, hLength, hStop⟩ := replayedRows_spec engine.db t history
  have hCursor := reconcileOnce_cursor_first hUnset hFirst hHistory
  rw [hWalk] at hCursor
  dsimp only at hCursor
  generalize replayedRows engine.db t history = matched at hLength hStop hCursor
  -- the walk does not stop at a message of the replay
  have hCount : ((history.take n).filterMap persistable).length ≤ matched := by
    by_contra hMore
    have hLt : matched < ((history.take n).filterMap persistable).length := by omega
    obtain ⟨message, hMessage⟩ : ∃ message,
        ((history.take n).filterMap persistable)[matched]? = some message :=
      ⟨_, List.getElem?_eq_getElem hLt⟩
    obtain ⟨rest, hRest⟩ := hReplay
    have hRow := congrArg (fun rows => rows[matched]?) hRest
    rw [List.getElem?_append_left (by rw [List.length_map]; exact hLt), List.getElem?_map,
      hMessage, Option.map_some] at hRow
    have hRows := congrArg List.length hRest
    rw [List.length_append, List.length_map, List.length_map] at hRows
    have hSame : (history.filterMap persistable)[matched]? = some message := by
      rw [← List.take_append_drop n history, List.filterMap_append,
        List.getElem?_append_left hLt, hMessage]
    rw [← List.take_append_drop k history, List.filterMap_append,
      List.getElem?_append_right (Nat.le_of_eq hLength), hLength, Nat.sub_self,
      ← List.head?_eq_getElem?] at hSame
    exact hStop (by omega) message hSame hRow
  have hBefore : ((history.take ((reconcileOnce engine t history).cursor t)).filterMap
      persistable).length = matched := by
    rw [hCursor]
    split
    · rename_i hZero
      rw [hZero]
      rfl
    · exact hLength
  generalize (reconcileOnce engine t history).cursor t = cursor at hBefore
  rcases Nat.le_total n cursor with hLe | hLe
  · rw [List.drop_eq_nil_of_le ((List.length_take_le n history).trans hLe)]
    rfl
  · have hSplit : (history.take cursor).filterMap persistable ++
        ((history.take n).drop cursor).filterMap persistable =
        (history.take n).filterMap persistable := by
      rw [← List.filterMap_append, ← Nat.min_eq_left hLe, ← List.take_take, Nat.min_eq_left hLe,
        List.take_append_drop]
    have hLengths := congrArg List.length hSplit
    rw [List.length_append, hBefore] at hLengths
    exact List.eq_nil_of_length_eq_zero (by omega)

/-- Once the session has a cursor or was reconciled, reconciliation is over. -/
theorem reconcileOnce_settled {engine : Engine} {t : SessionId}
    (h : (engine.lastSeenMessageIdx t).isSome ∨ engine.ingestCursorReconciled t = true)
    (history : List Json) : (reconcileOnce engine t history).cursor t = engine.cursor t := by
  obtain ⟨-, -, -, hSame | ⟨cursor, hReplayed, -⟩⟩ := reconcileOnce_cases engine t history
  · unfold Engine.cursor
    rw [hSame]
  · rcases h with hSeen | hReconciled
    · rw [hReplayed.unset] at hSeen
      cases hSeen
    · rw [hReplayed.first] at hReconciled
      cases hReconciled

section Firing

variable {config : EngineConfig} {start : Db} {host : Host} {s : SessionId}

/-- What a firing offers has not been stored. -/
theorem HostInvariant.offers_unstored (h : HostInvariant config start host s)
    (hReplays : host.engine.lastSeenMessageIdx s = none →
      host.engine.ingestCursorReconciled s = false → host.Replays s) :
    ∀ entry ∈ (host.live s).drop ((reconcileOnce host.engine s (host.messages s)).cursor s),
      (persistable entry.message).isSome = true → host.Unstored s entry := by
  intro entry hEntry hPersistable
  by_cases hSettled : (host.engine.lastSeenMessageIdx s).isSome ∨
      host.engine.ingestCursorReconciled s = true
  · rw [reconcileOnce_settled hSettled] at hEntry
    exact h.pending hSettled entry hEntry hPersistable
  · obtain ⟨hUnset, hFirst⟩ := not_or.mp hSettled
    rw [Option.not_isSome_iff_eq_none] at hUnset
    rw [Bool.not_eq_true] at hFirst
    have hHistory : (host.messages s).isEmpty = false := by
      rw [List.isEmpty_eq_false_iff]
      intro hNil
      rw [List.map_eq_nil_iff.mp hNil] at hEntry
      simp at hEntry
    obtain ⟨n, hReplay, hRest⟩ := hReplays hUnset hFirst
    have hPassed := reconcileOnce_passes hUnset hFirst hHistory hReplay
    generalize (reconcileOnce host.engine s (host.messages s)).cursor s = cursor at hEntry hPassed
    rw [← List.take_append_drop n (host.live s), List.drop_append] at hEntry
    rcases List.mem_append.mp hEntry with hEntry | hEntry
    · -- an entry of the replay behind the cursor is not persistable
      have hMem : entry.message ∈ ((host.messages s).take n).drop cursor := by
        unfold Host.messages
        rw [← List.map_take, ← List.map_drop]
        exact List.mem_map_of_mem hEntry
      rw [List.filterMap_eq_nil_iff.mp hPassed _ hMem] at hPersistable
      cases hPersistable
    · exact hRest entry (List.mem_of_mem_drop hEntry)

/-- The window of a firing, with the origins of its entries. -/
theorem Host.firing_window (attempts : Nat → Attempt) (cursor : Nat) :
    (host.firing s attempts).window cursor =
      (((host.live s).mapIdx fun i entry => (entry, attempts i)).drop cursor).map fun offer =>
        (offer.1.message, offer.2) := by
  unfold Firing.window Host.firing Host.messages
  rw [List.map_drop]
  congr 1
  exact List.ext_getElem (by simp) fun i _ _ => by simp

theorem filterMap_stored (window : List (LiveEntry × Attempt)) :
    ((window.filter (·.2.fault.isNone)).filterMap fun offer =>
        (persistable offer.1.message).map fun message => (offer.1.origin, message)).map (·.2) =
      ((offered (window.map fun offer => (offer.1.message, offer.2))).filter
        (·.2.fault.isNone)).map (·.1) ∧
    (((window.filter (·.2.fault.isNone)).filterMap fun offer =>
        (persistable offer.1.message).map fun message => (offer.1.origin, message)).map
          (·.1)).Sublist
      (window.map (·.1.origin)) := by
  induction window with
  | nil => exact ⟨rfl, List.Sublist.slnil⟩
  | cons offer window ih =>
    obtain ⟨hMessages, hOrigins⟩ := ih
    unfold offered at hMessages ⊢
    cases hFault : offer.2.fault with
    | some fault =>
      cases hMessage : persistable offer.1.message with
      | none => exact ⟨by simpa [hFault, hMessage] using hMessages,
          by simpa [hFault] using hOrigins.cons _⟩
      | some message => exact ⟨by simpa [hFault, hMessage] using hMessages,
          by simpa [hFault] using hOrigins.cons _⟩
    | none =>
      cases hMessage : persistable offer.1.message with
      | none => exact ⟨by simpa [hFault, hMessage] using hMessages,
          by simpa [hFault, hMessage] using hOrigins.cons _⟩
      | some message => exact ⟨by simpa [hFault, hMessage] using hMessages,
          by simpa [hFault, hMessage] using hOrigins⟩

theorem Host.storedEntries_spec {attempts : Nat → Attempt}
    (hAccepts : accepts config host.engine s = true) :
    (host.storedEntries config s attempts).map (·.2) =
        ((offersOf host.engine s (host.firing s attempts)).filter (·.2.fault.isNone)).map (·.1) ∧
      ((host.storedEntries config s attempts).map (·.1)).Sublist
        (((host.live s).drop ((reconcileOnce host.engine s (host.messages s)).cursor s)).map
          (·.origin)) ∧
      ∀ entry ∈ host.storedEntries config s attempts, ∃ source ∈
        (host.live s).drop ((reconcileOnce host.engine s (host.messages s)).cursor s),
        (persistable source.message).isSome = true ∧ entry.1 = source.origin := by
  let cursor := (reconcileOnce host.engine s (host.messages s)).cursor s
  let window := ((host.live s).mapIdx fun i entry => (entry, attempts i)).drop cursor
  have hWindow : window.map (·.1) = (host.live s).drop cursor := by
    rw [List.map_drop]
    congr 1
    exact List.ext_getElem (by simp) fun i _ _ => by simp
  have hStored : host.storedEntries config s attempts =
      (window.filter (·.2.fault.isNone)).filterMap fun offer =>
        (persistable offer.1.message).map fun message => (offer.1.origin, message) := by
    unfold Host.storedEntries
    rw [if_pos hAccepts]
  obtain ⟨hMessages, hOrigins⟩ := filterMap_stored window
  rw [← hStored] at hMessages hOrigins
  refine ⟨?_, ?_, ?_⟩
  · rw [hMessages, ← Host.firing_window]
    rfl
  · rw [← hWindow, List.map_map]
    exact hOrigins
  · intro entry hEntry
    rw [hStored] at hEntry
    obtain ⟨offer, hOffer, hEntry⟩ := List.mem_filterMap.mp hEntry
    obtain ⟨message, hMessage, rfl⟩ := Option.map_eq_some_iff.mp hEntry
    refine ⟨offer.1, ?_, by rw [hMessage]; rfl, rfl⟩
    rw [← hWindow]
    exact List.mem_map_of_mem (List.mem_of_mem_filter hOffer)

/-- Ascending origins of the host are different. -/
theorem nodup_of_ascending {origins : List Origin}
    (h : origins.Pairwise fun a b => ∀ i j, a = .host i → b = .host j → i < j)
    (hHost : ∀ origin ∈ origins, ∃ index, origin = .host index) : origins.Nodup := by
  refine List.Pairwise.imp_of_mem ?_ h
  rintro a b hA - hLt rfl
  obtain ⟨index, rfl⟩ := hHost a hA
  exact absurd (hLt index index rfl rfl) (Nat.lt_irrefl index)

theorem hostInvariant_fire (h : HostInvariant config start host s)
    (hWell : host.engine.db.WellFormed) (attempts : Nat → Attempt)
    (hReplays : accepts config host.engine s = true → host.engine.lastSeenMessageIdx s = none →
      host.engine.ingestCursorReconciled s = false → host.Replays s) :
    HostInvariant config start { host with
      engine := fire config host.engine s (host.firing s attempts)
      log := Function.update host.log s (host.log s ++ host.storedEntries config s attempts) }
      s := by
  cases hAccepts : accepts config host.engine s with
  | false =>
    have hNone : host.storedEntries config s attempts = [] := by
      unfold Host.storedEntries
      rw [hAccepts]
      rfl
    rw [fire_of_not_accepts hAccepts, hNone, List.append_nil, Function.update_eq_self]
    exact h
  | true =>
    have hUnstored := h.offers_unstored (hReplays hAccepts)
    obtain ⟨hMessages, hOrigins, hSource⟩ := @Host.storedEntries_spec config host s attempts
      hAccepts
    obtain ⟨hDb, -⟩ := reconcileOnce_cases host.engine s (host.messages s)
    obtain ⟨db', created, hEq, -, hStored, hAll, hFrame⟩ := ingestLocked_spec config
      (reconcileOnce_wellFormed hWell s (host.messages s)) s (host.firing s attempts)
    rw [hDb] at hStored hFrame
    have hFire : (fire config host.engine s (host.firing s attempts)).db = db' := by
      rw [fire_of_accepts hAccepts]
      change (ingestLocked config (reconcileOnce host.engine s (host.messages s)) s
        (host.firing s attempts)).db = db'
      rw [hEq]
      split <;> rfl
    have hNew : List.Forall₂ (fun entry row => ∃ attempt,
        StoredAs config.strOf s db' entry.2 attempt row)
        (host.storedEntries config s attempts) created := by
      have hPlain : List.Forall₂ (fun message row => ∃ attempt,
          StoredAs config.strOf s db' message attempt row)
          ((host.storedEntries config s attempts).map (·.2)) created := by
        rw [hMessages, List.forall₂_map_left_iff]
        exact hAll.imp fun offer _ hRow => ⟨offer.2, hRow⟩
      exact List.forall₂_map_left_iff.mp hPlain
    have hHost : ∀ entry ∈ host.storedEntries config s attempts,
        ∃ index < host.appended s, entry.1 = .host index ∧
          entry.1 ∉ (host.log s).map (·.1) := by
      intro entry hEntry
      obtain ⟨source, hMem, hPersistable, hOrigin⟩ := hSource entry hEntry
      obtain ⟨index, hIndex, hNotMem⟩ := hUnstored source hMem hPersistable
      rw [hOrigin]
      exact ⟨index, h.bound source (List.mem_of_mem_drop hMem) index hIndex, hIndex, hNotMem⟩
    have hNodup : ((host.storedEntries config s attempts).map (·.1)).Nodup := by
      refine nodup_of_ascending (List.Pairwise.sublist hOrigins ?_) fun origin hOrigin => ?_
      · exact List.pairwise_map.mpr (h.ascending.sublist (List.drop_sublist _ _))
      · obtain ⟨entry, hEntry, rfl⟩ := List.mem_map.mp hOrigin
        obtain ⟨index, -, hIndex, -⟩ := hHost entry hEntry
        exact ⟨index, hIndex⟩
    obtain ⟨rows, hRows, hOld⟩ := h.rows
    refine ⟨⟨⟨rows ++ created, ?_, ?_⟩, ?_, ?_⟩, h.ascending, h.bound, ?_⟩
    · dsimp only
      rw [hFire, hStored, hRows, List.append_assoc]
    · dsimp only
      rw [hFire, Function.update_self]
      exact List.rel_append
        (hOld.imp fun _ _ ⟨attempt, hRow⟩ => ⟨attempt, hRow.mono hFrame⟩) hNew
    · dsimp only
      rw [Function.update_self, List.map_append]
      refine List.Nodup.append h.once hNodup ?_
      intro origin hLog hOrigin
      obtain ⟨entry, hEntry, rfl⟩ := List.mem_map.mp hOrigin
      obtain ⟨-, -, -, hNotMem⟩ := hHost entry hEntry
      exact hNotMem hLog
    · intro entry hEntry
      dsimp only at hEntry
      rw [Function.update_self] at hEntry
      rcases List.mem_append.mp hEntry with hEntry | hEntry
      · exact h.appended entry hEntry
      · obtain ⟨index, hIndex, hOrigin, -⟩ := hHost entry hEntry
        exact ⟨index, hIndex, hOrigin⟩
    · intro _ entry hEntry hPersistable
      have hCursor : (fire config host.engine s (host.firing s attempts)).cursor s =
          if created = [] then (reconcileOnce host.engine s (host.messages s)).cursor s
          else (host.messages s).length := by
        rw [fire_of_accepts hAccepts]
        change (ingestLocked config (reconcileOnce host.engine s (host.messages s)) s
          (host.firing s attempts)).cursor s = _
        rw [hEq]
        split
        · rfl
        · simp [Engine.cursor, Engine.setCursor, Host.firing]
      dsimp only at hEntry
      rw [hCursor] at hEntry
      by_cases hNil : created = []
      · rw [hNil, List.forall₂_nil_right_iff] at hNew
        rw [if_pos hNil] at hEntry
        unfold Host.Unstored
        dsimp only
        rw [Function.update_self, hNew, List.append_nil]
        exact hUnstored entry hEntry hPersistable
      · rw [if_neg hNil, Host.messages, List.length_map, List.drop_length] at hEntry
        cases hEntry

end Firing

/-! ## Substitutions -/

theorem substituteWith_cases (config : AssemblyConfig) (engine : Engine) {s : SessionId}
    (hSession : s ≠ "") (messages : List Json) (tokenBudget : Nat) (prompt : Option String)
    (raises : Bool) :
    let answer := substituteWith config engine s messages tokenBudget prompt raises
    (answer.engine = engine ∧ (answer.didSubstitute &&
        !Json.sameItems config.integer answer.messages messages) = false) ∨
      (answer.didSubstitute = true ∧
        Json.sameItems config.integer answer.messages messages = false ∧
        answer.engine = engine.setCursor s answer.messages.length) := by
  unfold substituteWith
  cases assembleWithSignal config engine s messages tokenBudget prompt raises with
  | none => exact Or.inl ⟨rfl, rfl⟩
  | some answer =>
    obtain ⟨result, didSubstitute⟩ := answer
    dsimp only
    unfold resetIngestCursorAfterCompaction
    rw [if_neg hSession]
    cases didSubstitute with
    | false => exact Or.inl ⟨rfl, rfl⟩
    | true =>
      cases hSame : Json.sameItems config.integer result messages with
      | true => exact Or.inl ⟨rfl, rfl⟩
      | false => exact Or.inr ⟨rfl, rfl, rfl⟩

/-- A substitution by a different list sets the cursor of the inferred session;
everything else leaves the engine alone. -/
theorem substitute_cases (config : AssemblyConfig) (seam : Seam) (engine : Engine)
    (messages : List Json) (raises : Bool) :
    let answer := substitute config seam engine messages raises
    (answer.engine = engine ∧ (answer.didSubstitute &&
        !Json.sameItems config.integer answer.messages messages) = false) ∨
      (answer.didSubstitute = true ∧
        Json.sameItems config.integer answer.messages messages = false ∧
        answer.engine = engine.setCursor (inferSessionId messages) answer.messages.length) := by
  cases seam with
  | preassemble budgetTokens =>
    dsimp only [substitute, preassemble]
    split
    · exact Or.inl ⟨rfl, rfl⟩
    · rename_i hSession
      exact substituteWith_cases config engine hSession messages _ none raises
  | compress currentTokens lastPromptTokens focusTopic =>
    dsimp only [substitute, compress]
    split
    · split
      · exact Or.inl ⟨rfl, rfl⟩
      · rename_i hSession
        exact substituteWith_cases config engine hSession messages _ focusTopic raises
    · exact Or.inl ⟨rfl, rfl⟩

/-! ## Every run -/

section Run

variable {config : AssemblyConfig} {start : Db} {host : Host}

theorem hostInvariant_append {s : SessionId}
    (h : HostInvariant config.toEngineConfig start host s) (message : Json) :
    HostInvariant config.toEngineConfig start (host.step config (.append s message)) s := by
  have hLive : (host.step config (.append s message)).live s =
      host.live s ++ [⟨message, .host (host.appended s)⟩] := Function.update_self ..
  have hAppended : (host.step config (.append s message)).appended s = host.appended s + 1 :=
    Function.update_self ..
  refine ⟨h.toStoredOnce.congr rfl (by omega) rfl (Db.TranscriptFrame.refl s _), ?_, ?_, ?_⟩
  · rw [hLive, List.pairwise_append]
    refine ⟨h.ascending, List.pairwise_singleton _ _, ?_⟩
    intro a hA b hB i j hI hJ
    rw [List.mem_singleton] at hB
    subst hB
    obtain rfl := Origin.host.inj hJ
    exact h.bound a hA i hI
  · intro entry hEntry index hIndex
    rw [hLive] at hEntry
    rw [hAppended]
    rcases List.mem_append.mp hEntry with hEntry | hEntry
    · exact (h.bound entry hEntry index hIndex).trans (Nat.lt_succ_self _)
    · rw [List.mem_singleton] at hEntry
      subst hEntry
      obtain rfl := Origin.host.inj hIndex
      exact Nat.lt_succ_self _
  · intro hSettled entry hEntry hPersistable
    rw [hLive] at hEntry
    rcases List.mem_append.mp (List.drop_append ▸ hEntry) with hEntry | hEntry
    · exact h.pending hSettled entry hEntry hPersistable
    · obtain rfl := List.mem_singleton.mp (List.mem_of_mem_drop hEntry)
      refine ⟨host.appended s, rfl, fun hLogged => ?_⟩
      obtain ⟨logged, hMem, hOrigin⟩ := List.mem_map.mp hLogged
      obtain ⟨index, hIndex, hHost⟩ := h.appended logged hMem
      obtain rfl := Origin.host.inj (hHost.symm.trans hOrigin)
      exact Nat.lt_irrefl _ hIndex

/-- After a substitution the whole list lies before the cursor. -/
theorem hostInvariant_substituted {s : SessionId}
    (h : HostInvariant config.toEngineConfig start host s) (messages : List Json) :
    HostInvariant config.toEngineConfig start { host with
      engine := host.engine.setCursor s messages.length
      live := Function.update host.live s (messages.map fun message => ⟨message, .rendered⟩) }
      s := by
  refine ⟨h.toStoredOnce.congr rfl (Nat.le_refl _) rfl (Db.TranscriptFrame.refl s _), ?_, ?_, ?_⟩
  · dsimp only
    rw [Function.update_self, List.pairwise_map]
    exact List.pairwise_of_forall fun a b i j hI => by cases hI
  · intro entry hEntry index hIndex
    dsimp only at hEntry
    rw [Function.update_self] at hEntry
    obtain ⟨message, -, rfl⟩ := List.mem_map.mp hEntry
    cases hIndex
  · intro _ entry hEntry
    have hCursor : (host.engine.setCursor s messages.length).cursor s = messages.length := by
      simp [Engine.cursor, Engine.setCursor]
    dsimp only at hEntry
    rw [Function.update_self, hCursor, List.drop_eq_nil_of_le (by rw [List.length_map])] at hEntry
    cases hEntry

theorem hostInvariant_restart {s : SessionId}
    (h : HostInvariant config.toEngineConfig start host s) :
    HostInvariant config.toEngineConfig start (host.step config .restart) s := by
  refine ⟨h.toStoredOnce.congr rfl (Nat.le_refl _) rfl (Db.TranscriptFrame.refl s _), h.ascending,
    h.bound, ?_⟩
  rintro (hSeen | hReconciled)
  · cases hSeen
  · cases hReconciled

theorem hostInvariant_step (hWell : host.engine.db.WellFormed)
    (h : ∀ s, HostInvariant config.toEngineConfig start host s) {event : HostEvent}
    (hCondition : StartsFromReplay config host event) :
    (host.step config event).engine.db.WellFormed ∧
      ∀ s, HostInvariant config.toEngineConfig start (host.step config event) s := by
  cases event with
  | append u message =>
    refine ⟨hWell, fun s => ?_⟩
    by_cases hSame : s = u
    · subst hSame
      exact hostInvariant_append (h s) message
    · exact (h s).congr (Function.update_of_ne hSame ..) (Function.update_of_ne hSame ..) rfl rfl
        rfl rfl (Db.TranscriptFrame.refl s _)
  | fire u attempts =>
    refine ⟨(fire_wellFormed hWell u (host.firing u attempts)).1, fun s => ?_⟩
    by_cases hSame : s = u
    · subst hSame
      exact hostInvariant_fire (h s) hWell attempts hCondition
    · obtain ⟨hSeen, hReconciled, hFrame⟩ := @fire_other config.toEngineConfig host.engine hWell
        u s hSame (host.firing u attempts)
      exact (h s).congr rfl rfl (Function.update_of_ne hSame ..) hSeen hReconciled
        (hFrame.messages s hSame) hFrame
  | leafPass c env previousSummaryContent =>
    have hKept := Compaction.leafPass_transcripts hWell env c previousSummaryContent
    exact ⟨hKept.wellFormed, fun s =>
      (h s).congr rfl rfl rfl rfl rfl (hKept.stored s) (hKept.frame s)⟩
  | condensedPass c env hardTrigger =>
    have hKept := Compaction.runCondensedPass_transcripts hWell env c hardTrigger
    exact ⟨hKept.wellFormed, fun s =>
      (h s).congr rfl rfl rfl rfl rfl (hKept.stored s) (hKept.frame s)⟩
  | substitute u seam raises =>
    rcases substitute_cases config seam host.engine (host.messages u) raises with
      ⟨hEngine, hKeep⟩ | ⟨hDid, hDiffers, hEngine⟩
    · have hStep : host.step config (.substitute u seam raises) = host := by
        simp [Host.step, hEngine, hKeep]
      rw [hStep]
      exact ⟨hWell, h⟩
    · have hSession := hCondition (substitute_didSubstitute hDid).1
      rw [hSession] at hEngine
      have hStep : host.step config (.substitute u seam raises) = { host with
          engine := host.engine.setCursor u
            (substitute config seam host.engine (host.messages u) raises).messages.length
          live := Function.update host.live u
            ((substitute config seam host.engine (host.messages u) raises).messages.map
              fun message => ⟨message, .rendered⟩) } := by
        simp [Host.step, hEngine, hDid, hDiffers]
      rw [hStep]
      refine ⟨hWell, fun s => ?_⟩
      by_cases hSame : s = u
      · subst hSame
        exact hostInvariant_substituted (h s) _
      · exact (h s).congr (Function.update_of_ne hSame ..) rfl rfl
          (Function.update_of_ne hSame ..) rfl rfl (Db.TranscriptFrame.refl s _)
  | restart => exact ⟨hWell, fun s => hostInvariant_restart (h s)⟩

/-- **No message of the host is stored twice, and nothing that the engine rendered
is stored, in every run in which a session that is new to its process fires on a
list that replays its transcript.** -/
theorem stored_once_run (config : AssemblyConfig) {db : Db} (hWell : db.WellFormed)
    {events : List HostEvent}
    (hAlong : Run.Along (Host.step config) (StartsFromReplay config) (Host.start db) events)
    (s : SessionId) :
    StoredOnce config.toEngineConfig db
      (Run.final (Host.step config) (Host.start db) events) s := by
  have hStart : (Host.start db).engine.db.WellFormed ∧
      ∀ s, HostInvariant config.toEngineConfig db (Host.start db) s := by
    refine ⟨hWell, fun s => ⟨⟨⟨[], (List.append_nil _).symm, List.Forall₂.nil⟩, List.nodup_nil,
      fun _ hEntry => ?_⟩, List.Pairwise.nil, fun _ hEntry => ?_, fun _ _ hEntry => ?_⟩⟩
    · cases hEntry
    · cases hEntry
    · cases List.mem_of_mem_drop hEntry
  have hStep : ∀ host, ∀ event ∈ events, (host.engine.db.WellFormed ∧
      ∀ s, HostInvariant config.toEngineConfig db host s) → StartsFromReplay config host event →
      (host.step config event).engine.db.WellFormed ∧
        ∀ s, HostInvariant config.toEngineConfig db (host.step config event) s :=
    fun _ _ _ h hCondition => hostInvariant_step h.1 h.2 hCondition
  exact ((hAlong.invariant hStep hStart).2 s).toStoredOnce

end Run

/-! ## Runs on fixed inputs -/

/-- Passes whose summary has a fixed text, without a fresh tail. -/
def oneSummary : Compaction.PassEnv :=
  { config := { freshTailCount := 0 }
    sourceText := ⟨fun _ content => content, id, fun _ _ => "", fun _ => []⟩
    summarize := fun _ _ _ => .text "what was said"
    summaryModel := none
    now := 4
    generateSummaryId := fun _ => "sum_1" }

def quietly : Nat → Attempt := fun _ => quietAttempt

/-- A restart before the substitution. -/
def restartFirst : List HostEvent :=
  [.append "s" (sessionMessage "old"), .fire "s" quietly, .restart,
    .append "s" (sessionMessage "new"), .fire "s" quietly, .leafPass 1 oneSummary none,
    .substitute "s" (.preassemble none) false, .append "s" (sessionMessage "more"),
    .fire "s" quietly]

theorem stored_once_run_restartFirst :
    StoredOnce plainAssemblyConfig.toEngineConfig Db.empty
      (Run.final (Host.step plainAssemblyConfig) (Host.start Db.empty) restartFirst) "s" := by
  refine @stored_once_run plainAssemblyConfig Db.empty Db.wellFormed_empty restartFirst ?_ "s"
  show _ ∧ _ ∧ _ ∧ _ ∧ _ ∧ _ ∧ _ ∧ _ ∧ _ ∧ True
  refine ⟨trivial, ?_, trivial, trivial, ?_, trivial, ?_, trivial, ?_, trivial⟩
  · intro _ _ _
    refine ⟨0, List.nil_prefix, fun entry hEntry => ?_⟩
    obtain rfl := List.mem_singleton.mp hEntry
    exact ⟨0, rfl, List.not_mem_nil⟩
  · intro _ _ _
    refine ⟨1, by decide +kernel, fun entry hEntry => ?_⟩
    obtain rfl := List.mem_singleton.mp hEntry
    exact ⟨1, rfl, by decide +kernel⟩
  · exact fun _ => by decide +kernel
  · intro _ hUnset _
    exact absurd hUnset (by decide +kernel)

/-- A restart after it. -/
def restartLast : List HostEvent :=
  [.append "s" (sessionMessage "old"), .fire "s" quietly, .leafPass 1 oneSummary none,
    .substitute "s" (.preassemble none) false, .restart, .fire "s" quietly]

/-- The new process does not find the summary in the transcript and stores it. -/
theorem restart_stores_summary :
    ¬ StoredOnce plainAssemblyConfig.toEngineConfig Db.empty
      (Run.final (Host.step plainAssemblyConfig) (Host.start Db.empty) restartLast) "s" := by
  intro h
  have hLog : ((Run.final (Host.step plainAssemblyConfig) (Host.start Db.empty)
      restartLast).log "s").map (·.1) = [.host 0, .rendered] := by decide +kernel
  obtain ⟨entry, hEntry, hOrigin⟩ := List.mem_map.mp
    (show Origin.rendered ∈ ((Run.final (Host.step plainAssemblyConfig) (Host.start Db.empty)
      restartLast).log "s").map (·.1) by rw [hLog]; decide)
  obtain ⟨index, -, hHost⟩ := h.appended entry hEntry
  cases hOrigin.symm.trans hHost

end LosslessHermes
