import LosslessHermes.Embeddings.BackfillTick
import LosslessHermes.Library.Streak

/-!
# The autostart of the backfill

A background loop runs one tick of the backfill after the other and keeps two counters of strikes:
failing ticks, and ticks that found nothing left to embed. Three strikes in a row, or an
authentication error, stop it.

A tick that raises leaves the idle counter as it is, and two kinds of failing ticks reset the other
one. The messages to the log are left out.
-/

namespace LosslessHermes

open Streak

def IDLE_STRIKE_THRESHOLD : Nat := 3

def VOYAGE_FAILURE_STRIKE_THRESHOLD : Nat := 3

/-- The handle, less its worker loop. -/
structure AutostartHandle where
  tickCount : Nat
  idleStrikes : Nat
  voyageFailureStrikes : Nat
  stopped : Bool
  deriving DecidableEq, Repr

/-- How the awaited tick ends, and how many documents the count after it finds; `none` where the
count raises. -/
inductive TickEnd
  | voyageError (kind : VoyageErrorKind)
  | raised
  | returned (result : BackfillResult) (pendingDocs : Option Nat)
  deriving DecidableEq, Repr

/-- The handle after a tick, whether the backfill was run and whether the stop of the loop was
scheduled, and what the tick returns; `none` where it raises. -/
structure Ticked where
  handle : AutostartHandle
  ran : Bool
  scheduledStop : Bool
  returned : Option (Option BackfillResult)
  deriving DecidableEq, Repr

namespace AutostartHandle

def start : AutostartHandle := ⟨0, 0, 0, false⟩

/-- One more strike, and whether it is the last one. -/
def failureStrike (handle : AutostartHandle) : AutostartHandle × Bool :=
  let strikes := handle.voyageFailureStrikes + 1
  let last := decide (VOYAGE_FAILURE_STRIKE_THRESHOLD ≤ strikes)
  ({ handle with voyageFailureStrikes := strikes, stopped := handle.stopped || last }, last)

def countsAsFailure : SkipReason → Bool
  | .voyage400 | .voyageOther | .lockStolenMidEmbed => true
  | .overCap => false

def hadVoyageSkips (result : BackfillResult) : Bool :=
  result.embeddedCount == 0 && result.skipped.any fun s => countsAsFailure s.reason

/-- The count of pending documents is only reached where nothing was embedded and nothing
skipped. -/
def isIdle (result : BackfillResult) (pendingDocs : Option Nat) : Option Bool :=
  if result.embeddedCount = 0 ∧ result.skipped.length = 0 then pendingDocs.map (· == 0)
  else some false

/-- The strikes after a tick that returned. -/
def afterResult (handle : AutostartHandle) (result : BackfillResult) (pendingDocs : Option Nat) :
    Ticked :=
  let handle := { handle with tickCount := handle.tickCount + 1 }
  if result.lockNotAcquired then ⟨handle, true, false, some (some result)⟩
  else if hadVoyageSkips result then
    let struck := handle.failureStrike
    ⟨{ struck.1 with idleStrikes := 0 }, true, struck.2, some (some result)⟩
  else
    let handle := { handle with voyageFailureStrikes := 0 }
    match isIdle result pendingDocs with
    | none => ⟨handle, true, false, none⟩
    | some true =>
        let strikes := handle.idleStrikes + 1
        let last := decide (IDLE_STRIKE_THRESHOLD ≤ strikes)
        ⟨{ handle with idleStrikes := strikes, stopped := handle.stopped || last }, true, last,
          some (some result)⟩
    | some false => ⟨{ handle with idleStrikes := 0 }, true, false, some (some result)⟩

/-- `_run_one_tick` -/
def runOneTick (handle : AutostartHandle) (tick : TickEnd) : Ticked :=
  if handle.stopped then ⟨handle, false, false, some none⟩
  else match tick with
    | .voyageError .auth => ⟨{ handle with stopped := true }, true, true, some none⟩
    | .voyageError _ | .raised =>
        ⟨handle.failureStrike.1, true, handle.failureStrike.2, some none⟩
    | .returned result pendingDocs => handle.afterResult result pendingDocs

end AutostartHandle

/-! ## What a tick was -/

/-- `countRaised`: the tick embedded and skipped nothing, and the count of pending documents
raised. `progress`: documents were embedded, or are still pending. -/
inductive TickOutcome
  | authError
  | exception
  | countRaised
  | skipsOnly (counted : Bool)
  | idle
  | progress
  deriving DecidableEq, Repr

namespace TickOutcome

def failing : TickOutcome → Bool
  | exception | countRaised | skipsOnly _ => true
  | authError | idle | progress => false

def raising : TickOutcome → Bool
  | exception | countRaised => true
  | _ => false

/-- The failing ticks that are a strike. -/
def counted : TickOutcome → Bool
  | exception | skipsOnly true => true
  | _ => false

def isIdle : TickOutcome → Bool
  | idle => true
  | _ => false

/-- `none` for a tick that did not get the lock. -/
def ofTick : TickEnd → Option TickOutcome
  | .voyageError .auth => some authError
  | .voyageError _ | .raised => some exception
  | .returned result pendingDocs =>
      if result.lockNotAcquired then none
      else if result.embeddedCount ≠ 0 then some progress
      else if result.skipped ≠ [] then
        some (skipsOnly (result.skipped.any fun s => AutostartHandle.countsAsFailure s.reason))
      else match pendingDocs with
        | none => some countRaised
        | some 0 => some idle
        | some (_ + 1) => some progress

/-- The newest of the past ticks is one to stop at. -/
def StopsAt (past : List TickOutcome) : Prop :=
  past.head? = some authError ∨ InARow VOYAGE_FAILURE_STRIKE_THRESHOLD failing past ∨
    InARow IDLE_STRIKE_THRESHOLD isIdle past

/-- One of the past ticks was the one to stop at. -/
def ShouldStop (past : List TickOutcome) : Prop :=
  ∃ earlier, earlier <:+ past ∧ StopsAt earlier

end TickOutcome

/-! ## Runs -/

/-- The handle, and the ticks so far that got the lock, the newest first. -/
structure Autostart where
  handle : AutostartHandle
  past : List TickOutcome
  deriving DecidableEq, Repr

namespace Autostart

open TickOutcome

def start : Autostart := ⟨.start, []⟩

def ticked (state : Autostart) (tick : TickEnd) : Ticked :=
  state.handle.runOneTick tick

def step (state : Autostart) (tick : TickEnd) : Autostart :=
  { handle := (state.ticked tick).handle
    past := (ofTick tick).toList ++ state.past }

/-- The loop is stopped once it should stop and not before, at the tick that says so, and a stopped
loop does not run the backfill. -/
structure StopsInTime (state : Autostart) (tick : TickEnd) : Prop where
  stopped : (state.step tick).handle.stopped = true ↔ ShouldStop (state.step tick).past
  scheduled : (state.ticked tick).scheduledStop = true ↔
    ¬ ShouldStop state.past ∧ ShouldStop (state.step tick).past
  ran : (state.ticked tick).ran = true ↔ ¬ ShouldStop state.past

/-- A third idle tick, with raising ticks left out, is one in a row, and a third failing tick in a
row completes three that are strikes. -/
structure Unbroken (state : Autostart) (tick : TickEnd) : Prop where
  idle : ¬ ShouldStop state.past → ofTick tick = some .idle →
    IDLE_STRIKE_THRESHOLD ≤ streak isIdle (state.past.filter (! raising ·)) + 1 →
      IDLE_STRIKE_THRESHOLD ≤ streak isIdle state.past + 1
  failing : ¬ ShouldStop state.past → ∀ o, ofTick tick = some o → failing o = true →
    VOYAGE_FAILURE_STRIKE_THRESHOLD ≤ streak failing state.past + 1 →
      counted o = true ∧ VOYAGE_FAILURE_STRIKE_THRESHOLD ≤ streak counted state.past + 1

/-- What the handle knows of the history. -/
structure Tracks (state : Autostart) : Prop where
  stopped : state.handle.stopped = true ↔ ShouldStop state.past
  idle : ¬ ShouldStop state.past →
    state.handle.idleStrikes = streak isIdle (state.past.filter (! raising ·))
  failing : ¬ ShouldStop state.past →
    state.handle.voyageFailureStrikes = streak counted state.past

/-! ## One tick -/

/-- What a tick that got the lock does to a running handle. -/
structure Advances (handle : AutostartHandle) (o : TickOutcome) (ticked : Ticked) : Prop where
  ran : ticked.ran = true
  scheduled : ticked.scheduledStop = ticked.handle.stopped
  stopped : ticked.handle.stopped = true ↔ o = .authError ∨
    counted o = true ∧ VOYAGE_FAILURE_STRIKE_THRESHOLD ≤ handle.voyageFailureStrikes + 1 ∨
      isIdle o = true ∧ IDLE_STRIKE_THRESHOLD ≤ handle.idleStrikes + 1
  failures : o ≠ .authError → ticked.handle.voyageFailureStrikes =
    if counted o then handle.voyageFailureStrikes + 1 else 0
  idles : o ≠ .authError → ticked.handle.idleStrikes =
    if isIdle o then handle.idleStrikes + 1 else if raising o then handle.idleStrikes else 0

variable {handle : AutostartHandle} {tick : TickEnd} {o : TickOutcome} {state : Autostart}

theorem runOneTick_of_stopped (h : handle.stopped = true) :
    handle.runOneTick tick = ⟨handle, false, false, some none⟩ := by
  unfold AutostartHandle.runOneTick
  rw [if_pos h]

theorem runOneTick_of_running (h : handle.stopped = false) : handle.runOneTick tick =
    match tick with
    | .voyageError .auth => ⟨{ handle with stopped := true }, true, true, some none⟩
    | .voyageError _ | .raised =>
        ⟨handle.failureStrike.1, true, handle.failureStrike.2, some none⟩
    | .returned result pendingDocs => handle.afterResult result pendingDocs := by
  unfold AutostartHandle.runOneTick
  rw [if_neg (by rw [h]; exact Bool.false_ne_true)]

theorem advances_failureStrike (h : handle.stopped = false) (hCounted : counted o = true)
    (hRaising : raising o = true) :
    Advances handle o ⟨handle.failureStrike.1, true, handle.failureStrike.2, some none⟩ := by
  have hIdle : isIdle o = false := by
    cases o <;> first | rfl | cases hRaising
  have hAuth : o ≠ .authError := fun hEq => nomatch hEq ▸ hRaising
  refine ⟨rfl, ?_, ?_, fun _ => ?_, fun _ => ?_⟩
  · simp [AutostartHandle.failureStrike, h]
  · simp [AutostartHandle.failureStrike, h, hAuth, hCounted, hIdle]
  · rw [if_pos hCounted]
    rfl
  · rw [hIdle, if_neg Bool.false_ne_true, if_pos hRaising]
    rfl

theorem advances_afterResult (h : handle.stopped = false) {result : BackfillResult}
    {pendingDocs : Option Nat} (ho : ofTick (.returned result pendingDocs) = some o) :
    Advances handle o (handle.afterResult result pendingDocs) := by
  unfold ofTick at ho
  unfold AutostartHandle.afterResult AutostartHandle.hadVoyageSkips AutostartHandle.isIdle
  dsimp only at ho ⊢
  by_cases hLock : result.lockNotAcquired = true
  · rw [if_pos hLock] at ho
    cases ho
  · rw [if_neg hLock] at ho ⊢
    by_cases hEmbedded : result.embeddedCount = 0
    · rw [if_neg (not_not.mpr hEmbedded)] at ho
      by_cases hSkipped : result.skipped = []
      · rw [if_neg (not_not.mpr hSkipped)] at ho
        rw [if_neg (by simp [hSkipped]), if_pos ⟨hEmbedded, by rw [hSkipped]; rfl⟩]
        cases pendingDocs with
        | none =>
          cases ho
          exact ⟨rfl, h.symm, by simp [h, counted, isIdle], fun _ => rfl, fun _ => rfl⟩
        | some pending =>
          cases pending with
          | zero =>
            cases ho
            exact ⟨rfl, by simp [h], by simp [h, counted, isIdle], fun _ => rfl, fun _ => rfl⟩
          | succ pending =>
            cases ho
            exact ⟨rfl, h.symm, by simp [h, counted, isIdle], fun _ => rfl, fun _ => rfl⟩
      · rw [if_pos hSkipped, Option.some.injEq] at ho
        subst ho
        rw [hEmbedded, beq_self_eq_true, Bool.true_and]
        cases hAny : result.skipped.any fun s => AutostartHandle.countsAsFailure s.reason with
        | true =>
          rw [if_pos rfl]
          refine ⟨rfl, ?_, ?_, fun _ => rfl, fun _ => rfl⟩
          · simp [AutostartHandle.failureStrike, h]
          · simp [AutostartHandle.failureStrike, h, counted, isIdle]
        | false =>
          rw [if_neg Bool.false_ne_true, if_neg (by simp [hSkipped])]
          exact ⟨rfl, h.symm, by simp [h, counted, isIdle], fun _ => rfl, fun _ => rfl⟩
    · rw [if_pos hEmbedded] at ho
      cases ho
      rw [if_neg (by simp [hEmbedded]), if_neg fun hBoth => hEmbedded hBoth.1]
      exact ⟨rfl, h.symm, by simp [h, counted, isIdle], fun _ => rfl, fun _ => rfl⟩

theorem advances (h : handle.stopped = false) (ho : ofTick tick = some o) :
    Advances handle o (handle.runOneTick tick) := by
  rw [runOneTick_of_running h]
  cases tick with
  | voyageError kind =>
    cases kind with
    | auth =>
      cases ho
      exact ⟨rfl, rfl, iff_of_true rfl (.inl rfl), fun hNe => absurd rfl hNe,
        fun hNe => absurd rfl hNe⟩
    | _ =>
      cases ho
      exact advances_failureStrike h rfl rfl
  | raised =>
    cases ho
    exact advances_failureStrike h rfl rfl
  | returned result pendingDocs => exact advances_afterResult h ho

/-- A tick that did not get the lock only counts. -/
theorem runOneTick_of_locked (h : handle.stopped = false) (hLocked : ofTick tick = none) :
    ∃ returned, handle.runOneTick tick =
      ⟨{ handle with tickCount := handle.tickCount + 1 }, true, false, returned⟩ := by
  rw [runOneTick_of_running h]
  cases tick with
  | voyageError kind => cases kind <;> cases hLocked
  | raised => cases hLocked
  | returned result pendingDocs =>
    unfold ofTick at hLocked
    unfold AutostartHandle.afterResult
    dsimp only at hLocked ⊢
    split at hLocked
    · rename_i hLock
      rw [if_pos hLock]
      exact ⟨_, rfl⟩
    · split at hLocked
      · cases hLocked
      · split at hLocked
        · cases hLocked
        · split at hLocked
          · cases hLocked
          · cases hLocked
          · cases hLocked

/-! ## The history -/

theorem shouldStop_cons {past : List TickOutcome} :
    ShouldStop (o :: past) ↔ StopsAt (o :: past) ∨ ShouldStop past := by
  unfold ShouldStop
  constructor
  · rintro ⟨earlier, hSuffix, hStops⟩
    rcases List.suffix_cons_iff.mp hSuffix with rfl | hSuffix
    · exact .inl hStops
    · exact .inr ⟨earlier, hSuffix, hStops⟩
  · rintro (hStops | ⟨earlier, hSuffix, hStops⟩)
    · exact ⟨o :: past, List.suffix_refl _, hStops⟩
    · exact ⟨earlier, hSuffix.trans (List.suffix_cons o past), hStops⟩

theorem not_shouldStop_nil : ¬ ShouldStop [] := by
  rintro ⟨earlier, hSuffix, hStops⟩
  rw [List.suffix_nil.mp hSuffix] at hStops
  rcases hStops with hHead | hRow | hRow
  · cases hHead
  · exact absurd (inARow_iff.mp hRow) (by decide)
  · exact absurd (inARow_iff.mp hRow) (by decide)

instance decidableStopsAt : DecidablePred StopsAt := fun past =>
  inferInstanceAs (Decidable (past.head? = some authError ∨
    InARow VOYAGE_FAILURE_STRIKE_THRESHOLD failing past ∨
      InARow IDLE_STRIKE_THRESHOLD isIdle past))

instance decidableShouldStop : DecidablePred ShouldStop
  | [] => isFalse not_shouldStop_nil
  | o :: past =>
      have := decidableShouldStop past
      decidable_of_iff (StopsAt (o :: past) ∨ ShouldStop past) shouldStop_cons.symm

theorem stopsAt_cons {past : List TickOutcome} : StopsAt (o :: past) ↔ o = .authError ∨
    failing o = true ∧ VOYAGE_FAILURE_STRIKE_THRESHOLD ≤ streak failing past + 1 ∨
      isIdle o = true ∧ IDLE_STRIKE_THRESHOLD ≤ streak isIdle past + 1 := by
  have hRow : ∀ (n : Nat) (p : TickOutcome → Bool), 0 < n →
      (InARow n p (o :: past) ↔ p o = true ∧ n ≤ streak p past + 1) := by
    intro n p hPositive
    rw [inARow_iff, streak_cons]
    by_cases hp : p o = true
    · rw [if_pos hp, and_iff_right hp]
    · rw [if_neg hp]
      exact iff_of_false (by omega) fun hBoth => hp hBoth.1
  unfold StopsAt
  rw [hRow _ _ (by decide), hRow _ _ (by decide), List.head?_cons, Option.some.injEq]

theorem failing_of_counted : ∀ o, counted o = true → failing o = true := by
  intro o h
  cases o with
  | exception => rfl
  | skipsOnly struck => rfl
  | _ => cases h

theorem eq_idle (h : isIdle o = true) : o = .idle := by
  cases o with
  | idle => rfl
  | _ => cases h

theorem not_raising_of_idle : ∀ o, isIdle o = true → (! raising o) = true := by
  intro o h
  rw [eq_idle h]
  rfl

theorem tracks_start : Tracks start where
  stopped := iff_of_false Bool.false_ne_true not_shouldStop_nil
  idle := fun _ => rfl
  failing := fun _ => rfl

theorem step_of_some (ho : ofTick tick = some o) :
    state.step tick = ⟨(state.handle.runOneTick tick).handle, o :: state.past⟩ := by
  unfold step ticked
  rw [ho]
  rfl

theorem past_step_of_done (hDone : ShouldStop state.past) (tick : TickEnd) :
    ShouldStop (state.step tick).past := by
  unfold step
  cases ofTick tick with
  | none => exact hDone
  | some o => exact shouldStop_cons.mpr (.inr hDone)

theorem stopsInTime_of_done (h : Tracks state) (hDone : ShouldStop state.past) :
    StopsInTime state tick := by
  have hTicked := @runOneTick_of_stopped _ tick (h.stopped.mpr hDone)
  refine ⟨?_, ?_, ?_⟩
  · unfold step ticked
    rw [hTicked]
    exact iff_of_true (h.stopped.mpr hDone) (past_step_of_done hDone tick)
  · unfold ticked
    rw [hTicked]
    exact iff_of_false Bool.false_ne_true fun hBoth => hBoth.1 hDone
  · unfold ticked
    rw [hTicked]
    exact iff_of_false Bool.false_ne_true fun hNot => hNot hDone

theorem step_of_locked (hRunning : state.handle.stopped = false) (ho : ofTick tick = none) :
    state.step tick =
      ⟨{ state.handle with tickCount := state.handle.tickCount + 1 }, state.past⟩ := by
  obtain ⟨returned, hTicked⟩ := runOneTick_of_locked hRunning ho
  unfold step ticked
  rw [ho, hTicked]
  rfl

theorem stopsInTime_of_locked (h : Tracks state) (hDone : ¬ ShouldStop state.past)
    (hRunning : state.handle.stopped = false) (ho : ofTick tick = none) :
    StopsInTime state tick := by
  obtain ⟨returned, hTicked⟩ := runOneTick_of_locked hRunning ho
  have hStep := step_of_locked hRunning ho
  refine ⟨?_, ?_, ?_⟩
  · rw [hStep]
    exact h.stopped
  · rw [hStep]
    unfold ticked
    rw [hTicked]
    exact iff_of_false Bool.false_ne_true fun hBoth => hBoth.1 hBoth.2
  · unfold ticked
    rw [hTicked]
    exact iff_of_true rfl hDone

/-- Of the ticks that got the lock, only one on which the counters and the history differ can tell
them apart. -/
theorem stopped_iff_shouldStop_iff (h : Tracks state) (hDone : ¬ ShouldStop state.past)
    (hRunning : state.handle.stopped = false) (ho : ofTick tick = some o) :
    ((state.handle.runOneTick tick).handle.stopped = true ↔ ShouldStop (o :: state.past)) ↔
      Unbroken state tick := by
  have hStopped := (advances hRunning ho).stopped
  rw [h.failing hDone, h.idle hDone] at hStopped
  rw [hStopped, shouldStop_cons, or_iff_left hDone, stopsAt_cons]
  constructor
  · intro hIff
    refine ⟨fun _ hIdle hReached => ?_, fun _ o' hSome hFailing hReached => ?_⟩
    · rw [ho, Option.some.injEq] at hIdle
      subst hIdle
      rcases hIff.mp (.inr (.inr ⟨rfl, hReached⟩)) with hAuth | hFail | hIdle
      · cases hAuth
      · cases hFail.1
      · exact hIdle.2
    · rw [ho, Option.some.injEq] at hSome
      subst hSome
      rcases hIff.mpr (.inr (.inl ⟨hFailing, hReached⟩)) with hAuth | hFail | hIdle
      · rw [hAuth] at hFailing
        cases hFailing
      · exact hFail
      · rw [eq_idle hIdle.1] at hFailing
        cases hFailing
  · intro hUnbroken
    have hFailures : streak _ state.past ≤ _ := streak_mono failing_of_counted
    have hIdles : streak _ state.past ≤ _ := streak_le_filter not_raising_of_idle
    refine or_congr_right (or_congr ?_ ?_)
    · constructor
      · rintro ⟨hCounted, hReached⟩
        exact ⟨failing_of_counted o hCounted, by omega⟩
      · rintro ⟨hFailing, hReached⟩
        exact hUnbroken.failing hDone o ho hFailing hReached
    · refine and_congr_right fun hIdle => ⟨fun hReached => ?_, fun hReached => by omega⟩
      exact hUnbroken.idle hDone (eq_idle hIdle ▸ ho) hReached

/-- The loop stops in time at a tick if and only if the tick breaks no streak unnoticed. -/
theorem stopsInTime_iff (h : Tracks state) :
    StopsInTime state tick ↔ Unbroken state tick := by
  by_cases hDone : ShouldStop state.past
  · exact iff_of_true (stopsInTime_of_done h hDone)
      ⟨fun hNot => absurd hDone hNot, fun hNot => absurd hDone hNot⟩
  · have hRunning : state.handle.stopped = false :=
      Bool.eq_false_iff.mpr fun hStopped => hDone (h.stopped.mp hStopped)
    cases ho : ofTick tick with
    | none =>
      refine iff_of_true (stopsInTime_of_locked h hDone hRunning ho)
        ⟨fun _ hIdle => ?_, fun _ o hSome => ?_⟩
      · rw [ho] at hIdle
        cases hIdle
      · rw [ho] at hSome
        cases hSome
    | some o =>
      have hAdvances := advances hRunning ho
      have hStep : state.step tick = _ := step_of_some ho
      rw [← stopped_iff_shouldStop_iff h hDone hRunning ho]
      constructor
      · intro hStops
        have hIff := hStops.stopped
        rw [hStep] at hIff
        exact hIff
      · intro hIff
        refine ⟨?_, ?_, ?_⟩
        · rw [hStep]
          exact hIff
        · rw [hStep, and_iff_right hDone, ← hIff]
          unfold ticked
          rw [hAdvances.scheduled]
        · exact iff_of_true hAdvances.ran hDone

theorem Tracks.step (h : Tracks state) (hStops : StopsInTime state tick) :
    Tracks (state.step tick) := by
  have hStopped := hStops.stopped
  by_cases hDone : ShouldStop state.past
  · have hStill := past_step_of_done hDone tick
    exact ⟨hStopped, fun hNot => absurd hStill hNot, fun hNot => absurd hStill hNot⟩
  · have hRunning : state.handle.stopped = false :=
      Bool.eq_false_iff.mpr fun hSome => hDone (h.stopped.mp hSome)
    cases ho : ofTick tick with
    | none =>
      rw [step_of_locked hRunning ho]
      exact ⟨h.stopped, h.idle, h.failing⟩
    | some o =>
      have hAdvances := advances hRunning ho
      rw [step_of_some ho] at hStopped ⊢
      refine ⟨hStopped, fun hNot => ?_, fun hNot => ?_⟩
      all_goals
        have hAuth : o ≠ .authError := by
          rintro rfl
          exact hNot (shouldStop_cons.mpr (.inl (.inl rfl)))
      · have hKept := hAdvances.idles hAuth
        dsimp only
        rw [hKept, h.idle hDone]
        cases hRaising : raising o with
        | true =>
          have hIdle : isIdle o = false := by
            cases o <;> first | rfl | cases hRaising
          rw [hIdle, if_neg Bool.false_ne_true, if_pos rfl,
            List.filter_cons_of_neg (by simp [hRaising])]
        | false =>
          rw [if_neg Bool.false_ne_true, List.filter_cons_of_pos (by simp [hRaising]),
            streak_cons]
      · have hKept := hAdvances.failures hAuth
        dsimp only
        rw [hKept, h.failing hDone, streak_cons]

/-! ## Every run -/

/-- **The loop stops exactly when it should, if and only if no third idle tick follows on a raising
one and every three failing ticks in a row are strikes.** -/
theorem stopsInTime_run_iff (ticks : List TickEnd) :
    Run.Along step StopsInTime start ticks ↔ Run.Along step Unbroken start ticks :=
  Run.along_iff_of_invariant (fun _ _ (hTracks : Tracks _) => stopsInTime_iff hTracks)
    (fun _ _ hTracks hStops => hTracks.step hStops) tracks_start

/-- A tick that finds nothing to embed. -/
def idleTick : TickEnd :=
  .returned { embeddedCount := 0, skippedOverCap := 0, skipped := [], perTickLimitReached := false,
              lockNotAcquired := false, voyageTokensConsumed := 0 } (some 0)

/-- The last tick is the first idle one after a tick that raised. -/
theorem not_stopsInTime_run :
    ¬ Run.Along step StopsInTime start [idleTick, idleTick, .raised, idleTick] := by
  rintro ⟨-, -, -, hLast, -⟩
  have hShould := hLast.stopped.mp (by decide)
  revert hShould
  decide

end Autostart

end LosslessHermes
