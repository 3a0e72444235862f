import LosslessHermes.Library.Run
import LosslessHermes.Ingest.Engine

/-!
# Messages below the cursor

A firing moves the cursor to the end of its snapshot as soon as one message of
the window is stored, also where the call for another one raised.
By `nothing_skipped_run` this is the only way to lose a message.
-/

namespace LosslessHermes

open Json (get?)

/-- The session is one whose messages are ingested. -/
def ingestsSession (config : EngineConfig) (sessionId : SessionId) : Bool :=
  sessionId ≠ "" && !shouldIgnoreSession config sessionId

/-- The firing passes the guards in front of the diff. -/
def accepts (config : EngineConfig) (engine : Engine) (sessionId : SessionId) : Bool :=
  ingestsSession config sessionId && engine.isOpen

variable {config : EngineConfig} {engine : Engine} {sessionId : SessionId}

theorem fire_of_not_accepts (h : accepts config engine sessionId = false) (firing : Firing) :
    fire config engine sessionId firing = engine := by
  unfold fire
  by_cases hSession : sessionId = ""
  · rw [if_pos hSession]
  · cases hOpen : engine.isOpen with
    | false => simp [hSession]
    | true =>
      have hIgnore : shouldIgnoreSession config sessionId = true := by
        simpa [accepts, ingestsSession, hSession, hOpen] using h
      simp [hSession, hIgnore]

theorem fire_of_accepts (h : accepts config engine sessionId = true) (firing : Firing) :
    fire config engine sessionId firing =
      ingestLocked config (reconcileOnce engine sessionId firing.history) sessionId firing := by
  simp only [accepts, ingestsSession, Bool.and_eq_true, decide_eq_true_eq, Bool.not_eq_true'] at h
  exact fire_eq h.1.1 h.2 h.1.2 firing

theorem accepts_of_isOpen
    (hIngests : ingestsSession config sessionId = true) (hOpen : engine.isOpen = true) :
    accepts config engine sessionId = true := by
  rw [accepts, hIngests, hOpen]
  rfl

/-- A row holds a message: the row was written for it, or it was there at the
start and reconciliation took the message for its replay. -/
def Held (config : EngineConfig) (start : Db) (sessionId : SessionId) (db : Db)
    (message : Message) (row : MessageRecord) : Prop :=
  (∃ attempt, StoredAs config.strOf sessionId db message attempt row) ∨
    (row ∈ start.storedMessages sessionId ∧ identity message = (row.role, row.content))

variable {start : Db}

theorem Held.mono {db db' : Db}
    {message : Message} {row : MessageRecord} (h : Held config start sessionId db message row)
    (hFrame : Db.TranscriptFrame sessionId db db') :
    Held config start sessionId db' message row := by
  rcases h with ⟨attempt, h⟩ | h
  · exact Or.inl ⟨attempt, h.mono hFrame⟩
  · exact Or.inr h

/-- Every persistable message below the cursor has a stored row of its own, in
the order of the history. -/
def NothingSkipped (config : EngineConfig) (start : Db) (sessionId : SessionId)
    (history : List Json) (engine : Engine) : Prop :=
  ∃ rows, rows.Sublist (engine.db.storedMessages sessionId) ∧
    List.Forall₂ (Held config start sessionId engine.db)
      ((history.take (engine.cursor sessionId)).filterMap persistable) rows

/-- The messages a firing hands to the store. -/
def offersOf (engine : Engine) (sessionId : SessionId) (firing : Firing) :
    List (Message × Attempt) :=
  firing.offers ((reconcileOnce engine sessionId firing.history).cursor sessionId)

/-- The calls of a firing raise for none of its messages or for all of them. -/
def NoMixedFailure (config : EngineConfig) (sessionId : SessionId) (engine : Engine)
    (firing : Firing) : Prop :=
  accepts config engine sessionId = true →
    (∀ offer ∈ offersOf engine sessionId firing, offer.2.fault = none) ∨
      ∀ offer ∈ offersOf engine sessionId firing, offer.2.fault ≠ none

instance (config : EngineConfig) (sessionId : SessionId) (engine : Engine) (firing : Firing) :
    Decidable (NoMixedFailure config sessionId engine firing) := by
  unfold NoMixedFailure
  infer_instance

/-! ## Firings on prefixes of one history -/

structure CursorInvariant (config : EngineConfig) (start : Db) (sessionId : SessionId)
    (history : List Json) (engine : Engine) : Prop where
  wellFormed : engine.db.WellFormed
  bound : engine.cursor sessionId ≤ history.length
  /-- Until the first firing nothing is stored and no cursor is set. -/
  first : engine.ingestCursorReconciled sessionId = false → engine.db = start
  skipped : NothingSkipped config start sessionId history engine

theorem forall₂_of_map_eq {α β γ : Type*} {f : α → γ} {g : β → γ} {xs : List α} {ys zs : List β}
    (h : xs.map f = ys.map g) (hMem : ∀ y ∈ ys, y ∈ zs) :
    List.Forall₂ (fun x y => y ∈ zs ∧ f x = g y) xs ys := by
  induction xs generalizing ys with
  | nil =>
    cases ys with
    | nil => exact List.Forall₂.nil
    | cons y ys => cases h
  | cons x xs ih =>
    cases ys with
    | nil => cases h
    | cons y ys =>
      simp only [List.map_cons, List.cons.injEq] at h
      exact List.Forall₂.cons ⟨hMem y List.mem_cons_self, h.1⟩
        (ih h.2 fun z hz => hMem z (List.mem_cons_of_mem _ hz))

theorem take_eq_of_isPrefix {α : Type*} {xs ys : List α} (h : xs <+: ys) {n : Nat}
    (hn : n ≤ xs.length) : ys.take n = xs.take n := by
  obtain ⟨zs, rfl⟩ := h
  exact List.take_append_of_le_length hn

variable {history : List Json}

/-- Reconciliation only steps over messages that the transcript holds. -/
theorem nothingSkipped_reconcileOnce {snapshot : List Json}
    (h : CursorInvariant config start sessionId history engine) (hPrefix : snapshot <+: history) :
    (reconcileOnce engine sessionId snapshot).cursor sessionId ≤ history.length ∧
      NothingSkipped config start sessionId history (reconcileOnce engine sessionId snapshot) := by
  obtain ⟨hDb, -, -, hSame | ⟨cursor, hReplayed, hUpdate⟩⟩ :=
    reconcileOnce_cases engine sessionId snapshot
  · have hCursor : (reconcileOnce engine sessionId snapshot).cursor sessionId =
        engine.cursor sessionId := by
      unfold Engine.cursor
      rw [hSame]
    refine ⟨hCursor ▸ h.bound, ?_⟩
    unfold NothingSkipped
    rw [hDb, hCursor]
    exact h.skipped
  · have hCursor : (reconcileOnce engine sessionId snapshot).cursor sessionId = cursor := by
      unfold Engine.cursor
      rw [hUpdate, Function.update_self]
      rfl
    obtain ⟨n, -, -, hReplay⟩ := hReplayed.replay
    have hStart := h.first hReplayed.first
    refine ⟨hCursor ▸ hReplayed.bound.trans hPrefix.length_le,
      (engine.db.storedMessages sessionId).take n, ?_, ?_⟩
    · rw [hDb]
      exact List.take_sublist _ _
    · rw [hCursor, take_eq_of_isPrefix hPrefix hReplayed.bound, hDb, hStart]
      rw [hStart] at hReplay
      exact (forall₂_of_map_eq hReplay fun _ => List.mem_of_mem_take).imp fun _ _ h => Or.inr h

/-- Without a mixed failure, the messages that the cursor passes under the lock
are those whose rows are appended. -/
theorem ingestLocked_covers (config : EngineConfig) (hWell : engine.db.WellFormed)
    (hBound : engine.cursor sessionId ≤ history.length) {firing : Firing}
    (hPrefix : firing.history <+: history)
    (hFailure : (∀ offer ∈ firing.offers (engine.cursor sessionId), offer.2.fault = none) ∨
      ∀ offer ∈ firing.offers (engine.cursor sessionId), offer.2.fault ≠ none) :
    ∃ engine' messages created, ingestLocked config engine sessionId firing = engine' ∧
      engine'.db.WellFormed ∧ engine'.cursor sessionId ≤ history.length ∧
      engine'.isOpen = engine.isOpen ∧
      engine'.ingestCursorReconciled = engine.ingestCursorReconciled ∧
      engine'.db.storedMessages sessionId = engine.db.storedMessages sessionId ++ created ∧
      ((history.take (engine'.cursor sessionId)).filterMap persistable =
        (history.take (engine.cursor sessionId)).filterMap persistable ++ messages) ∧
      List.Forall₂ (fun message row => ∃ attempt,
        StoredAs config.strOf sessionId engine'.db message attempt row) messages created ∧
      Db.TranscriptFrame sessionId engine.db engine'.db := by
  obtain ⟨db', created, hEq, hWell', hStored, hAll, hFrame⟩ :=
    ingestLocked_spec config hWell sessionId firing
  by_cases hNil : created = []
  · subst hNil
    refine ⟨{ engine with db := db' }, [], [], hEq, hWell', hBound, rfl, rfl, hStored, ?_,
      List.Forall₂.nil, hFrame⟩
    rw [List.append_nil]
    rfl
  · rw [if_neg hNil] at hEq
    -- a row was created, so no call of this firing raised
    have hNone : ∀ offer ∈ firing.offers (engine.cursor sessionId), offer.2.fault = none := by
      rcases hFailure with hNone | hSome
      · exact hNone
      · refine absurd ?_ hNil
        rw [List.filter_eq_nil_iff.mpr fun offer hOffer => by simpa using hSome offer hOffer]
          at hAll
        exact List.forall₂_nil_left_iff.mp hAll
    rw [List.filter_eq_self.mpr fun offer hOffer => by simp [hNone offer hOffer]] at hAll
    have hLe : engine.cursor sessionId ≤ firing.history.length := by
      by_contra hGe
      have hWindow : firing.offers (engine.cursor sessionId) = [] := by
        unfold Firing.offers
        rw [Firing.window_eq_nil (by omega)]
        rfl
      rw [hWindow] at hAll
      exact hNil (List.forall₂_nil_left_iff.mp hAll)
    have hCursor : (Engine.setCursor { engine with db := db' } sessionId
        firing.history.length).cursor sessionId = firing.history.length := by
      simp [Engine.cursor, Engine.setCursor]
    refine ⟨_, (firing.history.drop (engine.cursor sessionId)).filterMap persistable, created, hEq,
      hWell', ?_, rfl, rfl, hStored, ?_, ?_, hFrame⟩
    · rw [hCursor]
      exact hPrefix.length_le
    · rw [hCursor, take_eq_of_isPrefix hPrefix (Nat.le_refl _), List.take_length,
        take_eq_of_isPrefix hPrefix hLe, ← List.filterMap_append, List.take_append_drop]
    · rw [← Firing.offers_messages, List.forall₂_map_left_iff]
      exact hAll.imp fun offer _ h => ⟨offer.2, h⟩

/-- Only a firing without a history leaves a session unreconciled, and it changes nothing. -/
theorem eq_of_unreconciled {engine' : Engine} {firing : Firing}
    (hEq : ingestLocked config (reconcileOnce engine sessionId firing.history) sessionId firing =
      engine')
    (hReconciled : engine'.ingestCursorReconciled =
      (reconcileOnce engine sessionId firing.history).ingestCursorReconciled)
    (hUnseen : engine'.ingestCursorReconciled sessionId = false) : engine' = engine := by
  obtain ⟨-, -, hFirst, -⟩ := reconcileOnce_cases engine sessionId firing.history
  by_cases hNil : firing.history = []
  · have hReconcile : reconcileOnce engine sessionId firing.history = engine := by
      simp [reconcileOnce, hNil]
    rw [← hEq, hReconcile]
    simp [ingestLocked, hNil]
  · rw [hReconciled, hFirst hNil] at hUnseen
    cases hUnseen

theorem cursorInvariant_fire
    (h : CursorInvariant config start sessionId history engine) {firing : Firing}
    (hPrefix : firing.history <+: history)
    (hFailure : NoMixedFailure config sessionId engine firing) :
    CursorInvariant config start sessionId history (fire config engine sessionId firing) := by
  cases hAccepts : accepts config engine sessionId with
  | false =>
    rw [fire_of_not_accepts hAccepts]
    exact h
  | true =>
    rw [fire_of_accepts hAccepts]
    obtain ⟨hBound, hSkipped⟩ := nothingSkipped_reconcileOnce h hPrefix
    obtain ⟨hDb, -⟩ := reconcileOnce_cases engine sessionId firing.history
    obtain ⟨engine', messages, created, hEq, hWell, hBound', -, hReconciled, hStored, hCovers,
      hNew, hFrame⟩ := ingestLocked_covers config (by rw [hDb]; exact h.wellFormed) hBound hPrefix
        (hFailure hAccepts)
    obtain ⟨rows, hRows, hHeld⟩ := hSkipped
    rw [hEq]
    refine ⟨hWell, hBound', fun hUnseen => ?_, rows ++ created, ?_, ?_⟩
    · have hSame := eq_of_unreconciled hEq hReconciled hUnseen
      rw [hSame] at hUnseen ⊢
      exact h.first hUnseen
    · rw [hStored]
      exact hRows.append (List.Sublist.refl _)
    · rw [hCovers]
      exact List.rel_append (hHeld.imp fun _ _ h => h.mono hFrame)
        (hNew.imp fun _ _ h => Or.inl h)

/-- A process that has just opened its stores. -/
def Engine.started (db : Db) : Engine :=
  { Engine.fresh db with isOpen := true }

theorem cursorInvariant_started (config : EngineConfig) {db : Db} (h : db.WellFormed)
    (sessionId : SessionId) (history : List Json) :
    CursorInvariant config db sessionId history (Engine.started db) :=
  ⟨h, Nat.zero_le _, fun _ => rfl, [], List.nil_sublist _, by
    simp [Engine.cursor, Engine.started, Engine.fresh]⟩

/-- The firings of a hook on prefixes of a history. -/
def fireAll (config : EngineConfig) (sessionId : SessionId) : Engine → List Firing → Engine :=
  Run.final fun engine firing => fire config engine sessionId firing

/-- **No message is skipped by the cursor in a run without mixed failures.** -/
theorem nothing_skipped_run (config : EngineConfig) {db : Db} (hWell : db.WellFormed)
    (sessionId : SessionId) (history : List Json) {firings : List Firing}
    (hPrefix : ∀ firing ∈ firings, firing.history <+: history)
    (hAlong : Run.Along (fun engine firing => fire config engine sessionId firing)
      (NoMixedFailure config sessionId) (Engine.started db) firings) :
    NothingSkipped config db sessionId history
      (fireAll config sessionId (Engine.started db) firings) := by
  have hInvariant := hAlong.invariant
    (fun _ firing hFiring h hFailure => cursorInvariant_fire h (hPrefix firing hFiring) hFailure)
    (cursorInvariant_started config hWell sessionId history)
  exact hInvariant.skipped

/-! ## Runs on fixed inputs -/

/-- No patterns, and no list elements without a text. -/
def plainConfig : EngineConfig :=
  { strOf := fun _ => "", ignoreSessionPatterns := [] }

def quietAttempt : Attempt :=
  { now := 1, externalize := fun _ => none, guardRaises := false, fault := none }

/-- Calls for the listed entries raise inside the transaction. -/
def faultyAttempts (raises : List Nat) (i : Nat) : Attempt :=
  { quietAttempt with fault := if raises.contains i then some .transaction else none }

def userMessage (text : String) : Json :=
  .obj [("role", .str "user"), ("content", .str text)]

theorem nothing_skipped_run_retry :
    NothingSkipped plainConfig Db.empty "s" [userMessage "a", userMessage "b"]
      (fireAll plainConfig "s" (Engine.started Db.empty)
        [⟨[userMessage "a"], faultyAttempts [0]⟩,
          ⟨[userMessage "a", userMessage "b"], faultyAttempts []⟩]) := by
  refine nothing_skipped_run plainConfig Db.wellFormed_empty "s" _ ?_ (by decide)
  intro firing hFiring
  rcases List.mem_cons.mp hFiring with rfl | hFiring
  · exact ⟨[userMessage "b"], rfl⟩
  · obtain rfl := List.mem_singleton.mp hFiring
    exact List.prefix_rfl

/-- The call for the first of two messages raises; the cursor passes it. -/
theorem failed_message_skipped :
    ¬ NothingSkipped plainConfig Db.empty "s" [userMessage "a", userMessage "b"]
      (fireAll plainConfig "s" (Engine.started Db.empty)
        [⟨[userMessage "a", userMessage "b"], faultyAttempts [0]⟩]) := by
  rintro ⟨rows, hSublist, hHeld⟩
  have hCount : ((fireAll plainConfig "s" (Engine.started Db.empty)
      [⟨[userMessage "a", userMessage "b"], faultyAttempts [0]⟩]).db.storedMessages "s").length =
        1 := by decide
  have hBelow : (([userMessage "a", userMessage "b"].take
      ((fireAll plainConfig "s" (Engine.started Db.empty)
        [⟨[userMessage "a", userMessage "b"], faultyAttempts [0]⟩]).cursor "s")).filterMap
          persistable).length = 2 := by decide
  have hLe := hSublist.length_le
  rw [← hHeld.length_eq, hBelow, hCount] at hLe
  omega

end LosslessHermes
