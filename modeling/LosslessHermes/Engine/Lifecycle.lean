import LosslessHermes.Ingest.Cursor

/-!
# Sessions on one engine

The connection and the four stores belong to the engine; starting a session
opens them if they are closed, ending a session closes them whatever other
sessions there are. `able_to_ingest_run` says that a started session can ingest
in every run in which a session only ends when no other one is live.
-/

namespace LosslessHermes

/-! ## The two hooks -/

def onSessionStart (engine : Engine) (sessionId : SessionId) : Engine :=
  let engine := { engine with
    currentSessionId := if sessionId = "" then none else some sessionId }
  if engine.isOpen then engine else { engine with isOpen := true }

/-- `on_session_end` closes the connection and drops the stores; the session it
is called for does not matter. -/
def onSessionEnd (engine : Engine) (_sessionId : SessionId) : Engine :=
  if !engine.isOpen then engine
  else { engine with isOpen := false, currentSessionId := none }

/-! ## Runs of several sessions -/

inductive SessionEvent
  | start (sessionId : SessionId)
  | finish (sessionId : SessionId)
  | fire (sessionId : SessionId) (firing : Firing)

/-- An engine and the sessions started after their last end. -/
structure Sessions where
  engine : Engine
  live : List SessionId

def Sessions.step (config : EngineConfig) (sessions : Sessions) : SessionEvent → Sessions
  | .start sessionId =>
      { engine := onSessionStart sessions.engine sessionId
        live := sessionId :: sessions.live.filter (· ≠ sessionId) }
  | .finish sessionId =>
      { engine := onSessionEnd sessions.engine sessionId
        live := sessions.live.filter (· ≠ sessionId) }
  | .fire sessionId firing =>
      { sessions with engine := LosslessHermes.fire config sessions.engine sessionId firing }

def Sessions.fresh (db : Db) : Sessions :=
  { engine := Engine.fresh db, live := [] }

/-- A firing for a live session finds the stores open and stores its new
persistable messages, those aside whose call raises. -/
def AbleToIngest (config : EngineConfig) (sessions : Sessions) : Prop :=
  ∀ sessionId ∈ sessions.live, sessions.engine.isOpen = true ∧
    (ingestsSession config sessionId = true → ∀ firing : Firing, ∃ created,
      (fire config sessions.engine sessionId firing).db.storedMessages sessionId =
        sessions.engine.db.storedMessages sessionId ++ created ∧
      List.Forall₂ (fun offer row => StoredAs config.strOf sessionId
        (fire config sessions.engine sessionId firing).db offer.1 offer.2 row)
        ((offersOf sessions.engine sessionId firing).filter fun offer => offer.2.fault.isNone)
        created)

/-- A session ends when no other session is live. -/
def EndsAlone (sessions : Sessions) : SessionEvent → Prop
  | .finish sessionId => ∀ other ∈ sessions.live, other = sessionId
  | _ => True

instance : ∀ sessions event, Decidable (EndsAlone sessions event)
  | sessions, .finish sessionId =>
      inferInstanceAs (Decidable (∀ other ∈ sessions.live, other = sessionId))
  | _, .start _ => isTrue trivial
  | _, .fire _ _ => isTrue trivial

/-! ## What every run keeps -/

structure SessionsInvariant (sessions : Sessions) : Prop where
  wellFormed : sessions.engine.db.WellFormed
  isOpen : sessions.live ≠ [] → sessions.engine.isOpen = true

theorem reconcileOnce_wellFormed {engine : Engine} (h : engine.db.WellFormed)
    (sessionId : SessionId) (history : List Json) :
    (reconcileOnce engine sessionId history).db.WellFormed := by
  rw [(reconcileOnce_cases engine sessionId history).1]
  exact h

theorem fire_wellFormed {config : EngineConfig} {engine : Engine} (h : engine.db.WellFormed)
    (sessionId : SessionId) (firing : Firing) :
    (fire config engine sessionId firing).db.WellFormed ∧
      (fire config engine sessionId firing).isOpen = engine.isOpen := by
  cases hAccepts : accepts config engine sessionId with
  | false =>
    rw [fire_of_not_accepts hAccepts]
    exact ⟨h, rfl⟩
  | true =>
    obtain ⟨-, hOpen, -⟩ := reconcileOnce_cases engine sessionId firing.history
    obtain ⟨db', created, hEq, hWell, -⟩ := ingestLocked_spec config
      (reconcileOnce_wellFormed h sessionId firing.history) sessionId firing
    rw [fire_of_accepts hAccepts, hEq]
    split <;> exact ⟨hWell, hOpen⟩

theorem sessionsInvariant_step (config : EngineConfig) {sessions : Sessions}
    (h : SessionsInvariant sessions) {event : SessionEvent} (hAlone : EndsAlone sessions event) :
    SessionsInvariant (sessions.step config event) := by
  cases event with
  | start sessionId =>
    cases hOpen : sessions.engine.isOpen <;>
      exact ⟨by simpa [Sessions.step, onSessionStart, hOpen] using h.wellFormed,
        fun _ => by simp [Sessions.step, onSessionStart, hOpen]⟩
  | finish sessionId =>
    have hNone : sessions.live.filter (· ≠ sessionId) = [] :=
      List.filter_eq_nil_iff.mpr fun other hOther => by simp [hAlone other hOther]
    refine ⟨?_, fun hLive => absurd hNone hLive⟩
    cases hOpen : sessions.engine.isOpen <;>
      simpa [Sessions.step, onSessionEnd, hOpen] using h.wellFormed
  | fire sessionId firing =>
    obtain ⟨hWell, hOpen⟩ := @fire_wellFormed config _ h.wellFormed sessionId firing
    exact ⟨hWell, fun hLive => hOpen.trans (h.isOpen hLive)⟩

theorem SessionsInvariant.ableToIngest {config : EngineConfig} {sessions : Sessions}
    (h : SessionsInvariant sessions) : AbleToIngest config sessions := by
  intro sessionId hLive
  have hOpen := h.isOpen (List.ne_nil_of_mem hLive)
  refine ⟨hOpen, fun hIngests firing => ?_⟩
  have hDb := (reconcileOnce_cases sessions.engine sessionId firing.history).1
  obtain ⟨db', created, hEq, -, hStored, hAll, -⟩ := ingestLocked_spec config
    (reconcileOnce_wellFormed h.wellFormed sessionId firing.history) sessionId firing
  have hFire : (fire config sessions.engine sessionId firing).db = db' := by
    rw [fire_of_accepts (accepts_of_isOpen hIngests hOpen), hEq]
    split <;> rfl
  rw [hFire]
  exact ⟨created, by rw [hStored, hDb], hAll⟩

/-- **A started session stays able to ingest in every run in which a session
ends only when no other session is live.** -/
theorem able_to_ingest_run (config : EngineConfig) {db : Db} (hWell : db.WellFormed)
    {events : List SessionEvent}
    (hAlong : Run.Along (Sessions.step config) EndsAlone (Sessions.fresh db) events) :
    AbleToIngest config (Run.final (Sessions.step config) (Sessions.fresh db) events) := by
  have hStart : SessionsInvariant (Sessions.fresh db) := ⟨hWell, fun h => absurd rfl h⟩
  have hFinal := hAlong.invariant
    (fun _ _ _ h hAlone => sessionsInvariant_step config h hAlone) hStart
  exact hFinal.ableToIngest

theorem able_to_ingest_run_overlapping :
    AbleToIngest plainConfig (Run.final (Sessions.step plainConfig) (Sessions.fresh Db.empty)
      [.start "a", .finish "a", .start "b", .start "a", .fire "b" ⟨[userMessage "x"],
        fun _ => quietAttempt⟩]) :=
  able_to_ingest_run plainConfig Db.wellFormed_empty (by decide)

/-- The end of one session closes the stores under another one. -/
theorem ended_session_stops_other :
    ¬ AbleToIngest plainConfig (Run.final (Sessions.step plainConfig) (Sessions.fresh Db.empty)
      [.start "a", .start "b", .finish "a"]) := by
  intro h
  have hOpen := (h "b" (by decide)).1
  exact absurd hOpen (by decide)

end LosslessHermes
