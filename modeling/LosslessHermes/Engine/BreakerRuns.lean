import LosslessHermes.Engine.CircuitBreaker
import LosslessHermes.Library.Run

/-!
# Runs of compaction attempts

Attempts of any conversations follow each other, and the log has what those that were let
through came to. By the log a key is blocked once its last `threshold` outcomes without a
success between them were authentication failures, until the cooldown is over.

An attempt that leaves the provider alone is taken for a success: `failures_lost` shows that
it is always followed by attempts after which a blocked one is let through.
-/

namespace LosslessHermes.Breaker

open Compaction (CompactionResult noAction)

/-! ## The log -/

structure LogEntry where
  key : String
  finishedAt : Nat
  outcome : Outcome
  deriving DecidableEq, Repr

/-- An engine with the outcomes so far, the newest first. -/
structure BreakerRun where
  engine : BreakerEngine
  log : List LogEntry

def BreakerRun.start (config : BreakerConfig) : BreakerRun := ⟨⟨config, []⟩, []⟩

def BreakerRun.step (run : BreakerRun) (attempt : Attempt) : BreakerRun :=
  let compacted := compact run.engine attempt
  { engine := compacted.engine
    log :=
      if compacted.ran then
        ⟨attempt.key, attempt.finishedAt, attempt.core.classify⟩ :: run.log
      else run.log }

/-- When the provider refused the key since it last answered it, the newest first. -/
def failuresSince (key : String) : List LogEntry → List Nat
  | [] => []
  | entry :: rest =>
      if entry.key = key then
        match entry.outcome with
        | .providerSuccess => []
        | .providerAuthFailure => entry.finishedAt :: failuresSince key rest
        | .noProviderCall => failuresSince key rest
        | .crashed => failuresSince key rest
      else failuresSince key rest

/-- Enough failures in a row, and the cooldown is not over. -/
def Blocked (config : BreakerConfig) (failures : List Nat) (now : Nat) : Prop :=
  config.circuitBreakerThreshold ≤ failures.length ∧
    ∃ last, failures.head? = some last ∧ now - last < config.circuitBreakerCooldownMs

/-- The gate lets an attempt through if and only if its key is not blocked. -/
def GateRight (run : BreakerRun) (attempt : Attempt) : Prop :=
  (compact run.engine attempt).ran = false ↔
    Blocked run.engine.config (failuresSince attempt.key run.log) attempt.startedAt

/-- The attempt asks the provider, or finds the breaker open, or finds no failure counted. A
single failure that is enough to open the breaker is never lost. -/
def LosesNothing (run : BreakerRun) (attempt : Attempt) : Prop :=
  (gate run.engine attempt).2 = false → attempt.core.classify = .noProviderCall →
    failuresSince attempt.key run.log = [] ∨ run.engine.config.circuitBreakerThreshold ≤ 1

/-- The clock goes on: an attempt starts after the one before it has finished. -/
def Clocked : Nat → List Attempt → Prop
  | _, [] => True
  | now, attempt :: rest =>
      now ≤ attempt.startedAt ∧ attempt.startedAt ≤ attempt.finishedAt ∧
        Clocked attempt.finishedAt rest

variable {run : BreakerRun} {attempt : Attempt} {attempts : List Attempt} {key : String}
  {now : Nat}

/-! ## A breaker and its failures -/

/-- What a breaker knows of the failures of its key. -/
inductive Knows (config : BreakerConfig) (now : Nat) (breaker : CircuitBreaker)
    (failures : List Nat) : Prop
  | counting (hState : breaker.state = .closed) (hCount : breaker.failures = failures.length)
      (hBelow : failures = [] ∨ failures.length < config.circuitBreakerThreshold)
  /-- A single failure is enough, and the cooldown of the last one is over. -/
  | forgot (hState : breaker.state = .closed) (hCount : breaker.failures = 0)
      (hThreshold : config.circuitBreakerThreshold ≤ 1)
      (hOver : ∀ last, failures.head? = some last →
        config.circuitBreakerCooldownMs ≤ now - last)
  | opened (last : Nat) (hState : breaker.state = .opened) (hSince : breaker.openSince = some last)
      (hLast : failures.head? = some last)
      (hEnough : config.circuitBreakerThreshold ≤ failures.length)
  | probing (hState : breaker.state = .halfOpen)
      (hEnough : config.circuitBreakerThreshold ≤ failures.length)
      (hOver : ∀ last, failures.head? = some last →
        config.circuitBreakerCooldownMs ≤ now - last)

structure KnowsAll (run : BreakerRun) (now : Nat) : Prop where
  knows : ∀ key, Knows run.engine.config now (run.engine.getOrCreateCircuitBreaker key)
    (failuresSince key run.log)
  threshold : ∀ key, (run.engine.getOrCreateCircuitBreaker key).threshold =
    run.engine.config.circuitBreakerThreshold
  cooldown : ∀ key, (run.engine.getOrCreateCircuitBreaker key).cooldownMs =
    run.engine.config.circuitBreakerCooldownMs

section Breaker

variable {config : BreakerConfig} {breaker : CircuitBreaker} {failures : List Nat}

theorem Knows.later {now' : Nat} (h : Knows config now breaker failures) (hNow : now ≤ now') :
    Knows config now' breaker failures := by
  cases h with
  | counting hState hCount hBelow => exact .counting hState hCount hBelow
  | forgot hState hCount hThreshold hOver =>
    refine .forgot hState hCount hThreshold fun last hLast => ?_
    have := hOver last hLast
    omega
  | opened last hState hSince hLast hEnough => exact .opened last hState hSince hLast hEnough
  | probing hState hEnough hOver =>
    refine .probing hState hEnough fun last hLast => ?_
    have := hOver last hLast
    omega

/-- The gate rejects if and only if the failures block the key. -/
theorem Knows.isOpen_iff (h : Knows config now breaker failures)
    (hCooldown : breaker.cooldownMs = config.circuitBreakerCooldownMs) :
    (breaker.isOpen now).2 = true ↔ Blocked config failures now := by
  unfold CircuitBreaker.isOpen Blocked
  cases h with
  | counting hState hCount hBelow =>
    rw [hState]
    refine iff_of_false Bool.false_ne_true ?_
    rintro ⟨hEnough, last, hLast, -⟩
    rcases hBelow with rfl | hBelow
    · cases hLast
    · omega
  | forgot hState hCount hThreshold hOver =>
    rw [hState]
    refine iff_of_false Bool.false_ne_true ?_
    rintro ⟨-, last, hLast, hIn⟩
    have := hOver last hLast
    omega
  | opened last hState hSince hLast hEnough =>
    rw [hState, hSince, hLast, hCooldown]
    simp only [Option.some.injEq, exists_eq_left']
    by_cases hOver : config.circuitBreakerCooldownMs ≤ now - last
    · rw [if_pos hOver]
      refine iff_of_false Bool.false_ne_true ?_
      rintro ⟨-, hIn⟩
      omega
    · rw [if_neg hOver]
      exact iff_of_true rfl ⟨hEnough, Nat.lt_of_not_le hOver⟩
  | probing hState hEnough hOver =>
    rw [hState]
    refine iff_of_false Bool.false_ne_true ?_
    rintro ⟨-, last, hLast, hIn⟩
    have := hOver last hLast
    omega

theorem isOpen_frame (breaker : CircuitBreaker) (now : Nat) :
    (breaker.isOpen now).1.threshold = breaker.threshold ∧
      (breaker.isOpen now).1.cooldownMs = breaker.cooldownMs := by
  unfold CircuitBreaker.isOpen
  split
  · split <;> exact ⟨rfl, rfl⟩
  · exact ⟨rfl, rfl⟩

/-- A breaker that has been passed is closed or half open. -/
theorem Knows.passed (h : Knows config now breaker failures)
    (hCooldown : breaker.cooldownMs = config.circuitBreakerCooldownMs)
    (hPasses : (breaker.isOpen now).2 = false) :
    Knows config now (breaker.isOpen now).1 failures ∧ (breaker.isOpen now).1.state ≠ .opened := by
  unfold CircuitBreaker.isOpen at hPasses ⊢
  cases h with
  | counting hState hCount hBelow =>
    rw [hState] at hPasses ⊢
    exact ⟨.counting hState hCount hBelow, by rw [hState]; nofun⟩
  | forgot hState hCount hThreshold hOver =>
    rw [hState] at hPasses ⊢
    exact ⟨.forgot hState hCount hThreshold hOver, by rw [hState]; nofun⟩
  | opened last hState hSince hLast hEnough =>
    rw [hState, hSince] at hPasses ⊢
    simp only at hPasses ⊢
    by_cases hOver : breaker.cooldownMs ≤ now - last
    · rw [if_pos hOver]
      refine ⟨.probing rfl hEnough ?_, nofun⟩
      intro found hFound
      rw [hLast] at hFound
      obtain rfl := Option.some.inj hFound
      rwa [← hCooldown]
    · rw [if_neg hOver] at hPasses
      cases hPasses
  | probing hState hEnough hOver =>
    rw [hState] at hPasses ⊢
    exact ⟨.probing hState hEnough hOver, by rw [hState]; nofun⟩

/-- A rejected attempt leaves the breaker as it is. -/
theorem isOpen_of_rejects (hRejects : (breaker.isOpen now).2 = true) :
    (breaker.isOpen now).1 = breaker := by
  unfold CircuitBreaker.isOpen at hRejects ⊢
  split
  · rename_i since hState hSince
    rw [hState, hSince] at hRejects
    simp only at hRejects
    split
    · rename_i hOver
      rw [if_pos hOver] at hRejects
      cases hRejects
    · rfl
  · rfl

theorem informed_frame (breaker : CircuitBreaker) (now : Nat) (outcome : Outcome) :
    (breaker.informed now outcome).threshold = breaker.threshold ∧
      (breaker.informed now outcome).cooldownMs = breaker.cooldownMs := by
  cases outcome with
  | providerAuthFailure =>
    unfold CircuitBreaker.informed CircuitBreaker.recordFailure
    cases breaker.state with
    | closed =>
      simp only
      split <;> exact ⟨rfl, rfl⟩
    | opened => exact ⟨rfl, rfl⟩
    | halfOpen => exact ⟨rfl, rfl⟩
  | providerSuccess => exact ⟨rfl, rfl⟩
  | noProviderCall => exact ⟨rfl, rfl⟩
  | crashed => exact ⟨rfl, rfl⟩

/-- A failure is counted, and opens the breaker if it is enough. -/
theorem Knows.failure (h : Knows config now breaker failures)
    (hThreshold : breaker.threshold = config.circuitBreakerThreshold)
    (hState : breaker.state ≠ .opened) :
    Knows config now (breaker.recordFailure now) (now :: failures) := by
  unfold CircuitBreaker.recordFailure
  cases h with
  | counting hClosed hCount hBelow =>
    simp only [hClosed]
    split
    · rename_i hEnough
      rw [hThreshold, hCount] at hEnough
      exact .opened now rfl rfl rfl hEnough
    · rename_i hFew
      rw [hThreshold, hCount] at hFew
      refine .counting rfl ?_ (Or.inr (Nat.lt_of_not_le hFew))
      show breaker.failures + 1 = _
      rw [hCount]
      rfl
  | forgot hClosed hCount hOne hOver =>
    simp only [hClosed]
    have hEnough : breaker.threshold ≤ breaker.failures + 1 := by omega
    rw [if_pos hEnough]
    refine .opened now rfl rfl rfl ?_
    rw [List.length_cons]
    omega
  | opened last hOpened => exact absurd hOpened hState
  | probing hHalf hEnough hOver =>
    simp only [hHalf]
    refine .opened now rfl rfl rfl ?_
    rw [List.length_cons]
    omega

/-- A success that is none does no harm if nothing is counted, or one failure is enough. -/
theorem Knows.noCall (h : Knows config now breaker failures) (hState : breaker.state ≠ .opened)
    (hNothing : failures = [] ∨ config.circuitBreakerThreshold ≤ 1) :
    Knows config now breaker.recordSuccess failures := by
  have hEmpty : failures = [] → Knows config now breaker.recordSuccess failures := by
    rintro rfl
    exact .counting rfl rfl (Or.inl rfl)
  rcases hNothing with hNothing | hOne
  · exact hEmpty hNothing
  · cases h with
    | counting hClosed hCount hBelow =>
      apply hEmpty
      rcases hBelow with hBelow | hBelow
      · exact hBelow
      · exact List.length_eq_zero_iff.mp (by omega)
    | forgot hClosed hCount _ hOver => exact .forgot rfl rfl hOne hOver
    | opened last hOpened => exact absurd hOpened hState
    | probing hHalf hEnough hOver => exact .forgot rfl rfl hOne hOver

end Breaker

/-! ## Every run -/

theorem knowsAll_start (config : BreakerConfig) : KnowsAll (.start config) 0 :=
  ⟨fun _ => .counting rfl rfl (Or.inl rfl), fun _ => rfl, fun _ => rfl⟩

theorem gateRight_of_knowsAll (h : KnowsAll run now) (hNow : now ≤ attempt.startedAt) :
    GateRight run attempt := by
  have hOpen := ((h.knows attempt.key).later hNow).isOpen_iff (h.cooldown attempt.key)
  unfold GateRight
  rw [(compact_spec run.engine attempt).1, Bool.not_eq_false', ← hOpen]
  rfl

theorem failuresSince_step (run : BreakerRun) (attempt : Attempt) (key : String) :
    failuresSince key (run.step attempt).log =
      if (compact run.engine attempt).ran = true ∧ key = attempt.key then
        match attempt.core.classify with
        | .providerSuccess => []
        | .providerAuthFailure => attempt.finishedAt :: failuresSince key run.log
        | .noProviderCall => failuresSince key run.log
        | .crashed => failuresSince key run.log
      else failuresSince key run.log := by
  unfold BreakerRun.step
  by_cases hRan : (compact run.engine attempt).ran = true
  · simp only [hRan, if_true, true_and, failuresSince, eq_comm]
  · simp only [hRan, Bool.false_eq_true, false_and, if_false]

theorem knowsAll_step (h : KnowsAll run now) (hStart : now ≤ attempt.startedAt)
    (hFinish : attempt.startedAt ≤ attempt.finishedAt) (hLoses : LosesNothing run attempt) :
    KnowsAll (run.step attempt) attempt.finishedAt := by
  obtain ⟨hRan, hConfig, hBreaker⟩ := compact_spec run.engine attempt
  have hStepConfig : (run.step attempt).engine.config = run.engine.config := hConfig
  have hGateFrame := isOpen_frame (run.engine.getOrCreateCircuitBreaker attempt.key)
    attempt.startedAt
  have hFrame : ∀ key,
      ((run.step attempt).engine.getOrCreateCircuitBreaker key).threshold =
          (run.engine.getOrCreateCircuitBreaker key).threshold ∧
        ((run.step attempt).engine.getOrCreateCircuitBreaker key).cooldownMs =
          (run.engine.getOrCreateCircuitBreaker key).cooldownMs := by
    intro key
    show ((compact run.engine attempt).engine.getOrCreateCircuitBreaker key).threshold = _ ∧ _
    rw [show (run.step attempt).engine = (compact run.engine attempt).engine from rfl,
      hBreaker key]
    split
    · rename_i hKey
      rw [hKey]
      split
      · exact hGateFrame
      · obtain ⟨hThreshold, hCooldown⟩ := informed_frame (gate run.engine attempt).1
          attempt.finishedAt attempt.core.classify
        exact ⟨hThreshold.trans hGateFrame.1, hCooldown.trans hGateFrame.2⟩
    · exact ⟨rfl, rfl⟩
  refine ⟨fun key => ?_, fun key => ?_, fun key => ?_⟩
  · rw [hStepConfig, failuresSince_step]
    rw [show (run.step attempt).engine = (compact run.engine attempt).engine from rfl,
      hBreaker key]
    by_cases hKey : key = attempt.key
    · subst hKey
      have hKnows := (h.knows attempt.key).later hStart
      rw [if_pos rfl]
      cases hRejects : (gate run.engine attempt).2 with
      | true =>
        rw [hRejects] at hRan
        rw [if_pos rfl, if_neg (fun hBoth => by rw [hRan] at hBoth; cases hBoth.1)]
        have hSame := isOpen_of_rejects hRejects
        rw [show (gate run.engine attempt).1 = _ from hSame]
        exact hKnows.later hFinish
      | false =>
        rw [hRejects] at hRan
        rw [if_neg Bool.false_ne_true, if_pos ⟨hRan, rfl⟩]
        obtain ⟨hPassed, hNotOpen⟩ := hKnows.passed (h.cooldown attempt.key) hRejects
        have hPassed := hPassed.later hFinish
        cases hOutcome : attempt.core.classify with
        | providerSuccess => exact .counting rfl rfl (Or.inl rfl)
        | providerAuthFailure =>
          exact hPassed.failure (hGateFrame.1.trans (h.threshold attempt.key)) hNotOpen
        | noProviderCall => exact hPassed.noCall hNotOpen (hLoses hRejects hOutcome)
        | crashed => exact hPassed
    · rw [if_neg hKey, if_neg fun hBoth => hKey hBoth.2]
      exact (h.knows key).later (hStart.trans hFinish)
  · rw [hStepConfig, (hFrame key).1]
    exact h.threshold key
  · rw [hStepConfig, (hFrame key).2]
    exact h.cooldown key

theorem gateRight_along (h : KnowsAll run now) (hClocked : Clocked now attempts)
    (hLoses : Run.Along BreakerRun.step LosesNothing run attempts) :
    Run.Along BreakerRun.step GateRight run attempts := by
  induction attempts generalizing run now with
  | nil => trivial
  | cons attempt rest ih =>
    obtain ⟨hStart, hFinish, hClocked⟩ := hClocked
    exact ⟨gateRight_of_knowsAll h hStart,
      ih (knowsAll_step h hStart hFinish hLoses.1) hClocked hLoses.2⟩

/-- In a run that loses no failure to an attempt without a call, the gate is right at every
attempt: it rejects from the last failure of `threshold` in a row on, and until a success or
the end of the cooldown. -/
theorem breaker_run (config : BreakerConfig) {attempts : List Attempt}
    (hClocked : Clocked 0 attempts)
    (hLoses : Run.Along BreakerRun.step LosesNothing (.start config) attempts) :
    Run.Along BreakerRun.step GateRight (.start config) attempts :=
  gateRight_along (knowsAll_start config) hClocked hLoses

/-! ## What an attempt without a call loses -/

/-- An attempt of the key at a time, which the provider refuses. -/
def refusedAt (attempt : Attempt) (time : Nat) : Attempt :=
  { attempt with
    startedAt := time, finishedAt := time
    core := { calledProvider := true, outcome := .error (.providerAuth "") } }

section Behind

variable {breaker : CircuitBreaker} {time : Nat}

/-- A failure that does not open a closed breaker is only counted. -/
theorem recordFailure_of_few (time : Nat) (hState : breaker.state = .closed)
    (hFew : breaker.failures + 1 < breaker.threshold) :
    breaker.recordFailure time = { breaker with failures := breaker.failures + 1 } := by
  obtain ⟨state, failures, openSince, threshold, cooldownMs⟩ := breaker
  obtain rfl : state = .closed := hState
  exact if_neg (Nat.not_le_of_lt hFew)

theorem gate_refusedAt (time : Nat)
    (hOwn : run.engine.getOrCreateCircuitBreaker attempt.key = breaker)
    (hState : breaker.state = .closed) :
    gate run.engine (refusedAt attempt time) = (breaker, false) := by
  show (run.engine.getOrCreateCircuitBreaker attempt.key).isOpen time = _
  unfold CircuitBreaker.isOpen
  rw [hOwn, hState]

/-- A closed breaker that has counted less than there was: refusals at one time reach the
threshold of the log before its own. -/
theorem not_gateRight_of_behind (n : Nat)
    (hOwn : run.engine.getOrCreateCircuitBreaker attempt.key = breaker)
    (hCooldown : 0 < run.engine.config.circuitBreakerCooldownMs)
    (hThreshold : breaker.threshold = run.engine.config.circuitBreakerThreshold)
    (hState : breaker.state = .closed)
    (hLeft : breaker.failures + (n + 1) = run.engine.config.circuitBreakerThreshold)
    (hBehind : breaker.failures < (failuresSince attempt.key run.log).length)
    (hLast : n = 0 → (failuresSince attempt.key run.log).head? = some time) :
    ¬ Run.Along BreakerRun.step GateRight run
      (List.replicate (n + 1) (refusedAt attempt time)) := by
  induction n generalizing run breaker with
  | zero =>
    rintro ⟨hRight, -⟩
    have hLong : run.engine.config.circuitBreakerThreshold ≤
        (failuresSince attempt.key run.log).length := by omega
    have hBlocked : Blocked run.engine.config
        (failuresSince (refusedAt attempt time).key run.log) time := by
      refine ⟨hLong, time, hLast rfl, ?_⟩
      rwa [Nat.sub_self]
    have hRejected := hRight.mpr hBlocked
    rw [(compact_spec run.engine (refusedAt attempt time)).1,
      gate_refusedAt time hOwn hState] at hRejected
    cases hRejected
  | succ n ih =>
    rintro ⟨-, hRest⟩
    obtain ⟨hRan, hConfig, hBreaker⟩ := compact_spec run.engine (refusedAt attempt time)
    have hGate := gate_refusedAt time hOwn hState
    rw [hGate] at hRan
    have hCounted := recordFailure_of_few time hState (by omega)
    have hOwn' : (run.step (refusedAt attempt time)).engine.getOrCreateCircuitBreaker
        attempt.key = { breaker with failures := breaker.failures + 1 } := by
      rw [← hCounted]
      refine (hBreaker attempt.key).trans ?_
      rw [hGate]
      exact if_pos rfl
    have hFailures : failuresSince attempt.key (run.step (refusedAt attempt time)).log =
        time :: failuresSince attempt.key run.log := by
      rw [failuresSince_step, if_pos ⟨hRan, rfl⟩]
      rfl
    have hStepConfig : (run.step (refusedAt attempt time)).engine.config =
        run.engine.config := hConfig
    refine ih hOwn' ?_ ?_ hState ?_ ?_ ?_ hRest
    · rw [hStepConfig]
      exact hCooldown
    · rw [hStepConfig]
      exact hThreshold
    · rw [hStepConfig]
      show _ + 1 + (n + 1) = _
      omega
    · rw [hFailures]
      exact Nat.succ_lt_succ hBehind
    · intro _
      rw [hFailures]
      rfl

end Behind

/-- Whenever an attempt without a call is let through while failures are counted, refusals
can follow it after which the gate is wrong. -/
theorem failures_lost (hThreshold : 2 ≤ run.engine.config.circuitBreakerThreshold)
    (hCooldown : 0 < run.engine.config.circuitBreakerCooldownMs)
    (hKnown : (run.engine.getOrCreateCircuitBreaker attempt.key).threshold =
      run.engine.config.circuitBreakerThreshold)
    (hLost : ¬ LosesNothing run attempt) :
    ¬ Run.Along BreakerRun.step GateRight (run.step attempt)
      (List.replicate run.engine.config.circuitBreakerThreshold
        (refusedAt attempt attempt.finishedAt)) := by
  unfold LosesNothing at hLost
  simp only [not_forall, not_or] at hLost
  obtain ⟨hRan, hNoCall, hFailures, -⟩ := hLost
  obtain ⟨-, hConfig, hBreaker⟩ := compact_spec run.engine attempt
  have hStepConfig : (run.step attempt).engine.config = run.engine.config := hConfig
  have hOwn : (run.step attempt).engine.getOrCreateCircuitBreaker attempt.key =
      (gate run.engine attempt).1.recordSuccess := by
    refine (hBreaker attempt.key).trans ?_
    rw [if_pos rfl, hRan, if_neg Bool.false_ne_true, hNoCall]
    rfl
  have hLog : failuresSince attempt.key (run.step attempt).log =
      failuresSince attempt.key run.log := by
    rw [failuresSince_step, hNoCall]
    split <;> rfl
  obtain ⟨n, hn⟩ := Nat.exists_eq_add_of_le hThreshold
  rw [show run.engine.config.circuitBreakerThreshold = (n + 1) + 1 by omega]
  refine not_gateRight_of_behind (n + 1) hOwn ?_ ?_ rfl ?_ ?_ ?_
  · rw [hStepConfig]
    exact hCooldown
  · rw [hStepConfig]
    exact (isOpen_frame _ _).1.trans hKnown
  · rw [hStepConfig]
    show 0 + (n + 1 + 1) = _
    omega
  · rw [hLog]
    exact List.length_pos_iff.mpr hFailures
  · intro hZero
    cases hZero

/-! ## One run -/

section OneRun

def twoFailures : BreakerConfig := ⟨2, 1000⟩

/-- An attempt of a conversation that takes no time. -/
def attemptOf (conversationId : ConversationId) (time : Nat) (core : CoreRun) : Attempt :=
  { conversationId := conversationId, tokenBudget := 1000, currentTokens := 900,
    provider := some "anthropic", model := some "claude", startedAt := time,
    finishedAt := time, core := core }

def refused : CoreRun := ⟨true, .error (.providerAuth "401")⟩

def nothingToDo : CoreRun := ⟨false, .ok (noAction 10 "already under target")⟩

theorem not_blocked_afterNoCall :
    Blocked twoFailures (failuresSince "anthropic::claude"
      (Run.final BreakerRun.step (.start twoFailures)
        [attemptOf 1 0 refused, attemptOf 2 1 nothingToDo, attemptOf 1 2 refused]).log) 3 ∧
    (compact (Run.final BreakerRun.step (.start twoFailures)
      [attemptOf 1 0 refused, attemptOf 2 1 nothingToDo, attemptOf 1 2 refused]).engine
      (attemptOf 1 3 refused)).ran = true ∧
    ¬ Run.Along BreakerRun.step GateRight (.start twoFailures)
      [attemptOf 1 0 refused, attemptOf 2 1 nothingToDo, attemptOf 1 2 refused,
        attemptOf 1 3 refused] := by
  have hBlocked : Blocked twoFailures (failuresSince "anthropic::claude"
      (Run.final BreakerRun.step (.start twoFailures)
        [attemptOf 1 0 refused, attemptOf 2 1 nothingToDo, attemptOf 1 2 refused]).log) 3 :=
    ⟨by decide, 2, by decide, by decide⟩
  refine ⟨hBlocked, by decide, ?_⟩
  rintro ⟨-, -, -, hRight, -⟩
  have hRejected := hRight.mpr hBlocked
  revert hRejected
  decide

theorem failures_lost_noCall :
    ¬ Run.Along BreakerRun.step GateRight
      (((BreakerRun.start twoFailures).step (attemptOf 1 0 refused)).step
        (attemptOf 2 1 nothingToDo))
      (List.replicate 2 (refusedAt (attemptOf 2 1 nothingToDo) 1)) := by
  refine @failures_lost ((BreakerRun.start twoFailures).step (attemptOf 1 0 refused))
    (attemptOf 2 1 nothingToDo) (by decide) (by decide) (by decide) fun hLoses => ?_
  have hNothing := hLoses (by decide) rfl
  revert hNothing
  decide

theorem breaker_run_twoRefusals : Run.Along BreakerRun.step GateRight (.start twoFailures)
    [attemptOf 1 0 refused, attemptOf 2 1 refused, attemptOf 1 2 refused] := by
  refine breaker_run twoFailures ?_ ⟨?_, ?_, ?_, trivial⟩
  · exact ⟨by decide, by decide, by decide, by decide, by decide, by decide, trivial⟩
  · exact fun _ hNoCall => nomatch hNoCall
  · exact fun _ hNoCall => nomatch hNoCall
  · exact fun _ hNoCall => nomatch hNoCall

end OneRun

end LosslessHermes.Breaker
