import LosslessHermes.Compaction.Sweep

/-!
# The circuit breaker of compaction

`CircuitBreaker` is the state machine that `compact` asks before a sweep and informs after
it. The breakers of an engine are kept by provider and model, so that conversations share
them. The sweep itself is the hook `_execute_compaction_core`: what it does on a call is
given (`CoreRun`), and so are the readings of the monotonic clock, in milliseconds.

`compact` records a success for every result without the flag, whether the provider was
asked or not.
-/

namespace LosslessHermes.Breaker

open Compaction (CompactionResult noAction)

/-! ## The state machine -/

inductive CircuitBreakerStateName
  | closed
  | opened
  | halfOpen
  deriving DecidableEq, Repr

structure CircuitBreaker where
  state : CircuitBreakerStateName := .closed
  failures : Nat := 0
  openSince : Option Nat := none
  threshold : Nat
  cooldownMs : Nat
  deriving DecidableEq, Repr

namespace CircuitBreaker

def recordFailure (breaker : CircuitBreaker) (now : Nat) : CircuitBreaker :=
  let breaker := { breaker with failures := breaker.failures + 1 }
  match breaker.state with
  | .halfOpen => { breaker with state := .opened, openSince := some now }
  | .closed =>
      if breaker.threshold ≤ breaker.failures then
        { breaker with state := .opened, openSince := some now }
      else breaker
  | .opened => breaker

def recordSuccess (breaker : CircuitBreaker) : CircuitBreaker :=
  { breaker with state := .closed, failures := 0, openSince := none }

/-- Whether calls are rejected; after the cooldown the breaker is half open. -/
def isOpen (breaker : CircuitBreaker) (now : Nat) : CircuitBreaker × Bool :=
  match breaker.state, breaker.openSince with
  | .opened, some since =>
      if breaker.cooldownMs ≤ now - since then ({ breaker with state := .halfOpen }, false)
      else (breaker, true)
  | _, _ => (breaker, false)

end CircuitBreaker

/-! ## The breakers of an engine -/

structure BreakerConfig where
  circuitBreakerThreshold : Nat
  circuitBreakerCooldownMs : Nat
  deriving DecidableEq, Repr

/-- What an engine has for its breakers; the newest entry of a key counts. -/
structure BreakerEngine where
  config : BreakerConfig
  circuitBreakers : List (String × CircuitBreaker)

def BreakerEngine.getOrCreateCircuitBreaker (engine : BreakerEngine) (key : String) :
    CircuitBreaker :=
  (engine.circuitBreakers.lookup key).getD
    { threshold := engine.config.circuitBreakerThreshold
      cooldownMs := engine.config.circuitBreakerCooldownMs }

def BreakerEngine.setBreaker (engine : BreakerEngine) (key : String) (breaker : CircuitBreaker) :
    BreakerEngine :=
  { engine with circuitBreakers := (key, breaker) :: engine.circuitBreakers }

/-- `leg or 'unknown'`. -/
def keyLeg (leg : Option String) : String :=
  match leg with
  | none => "unknown"
  | some name => if name = "" then "unknown" else name

def resolveBreakerKey (provider model : Option String) : String :=
  keyLeg provider ++ "::" ++ keyLeg model

def BreakerEngine.recordCompactionAuthFailure (engine : BreakerEngine) (key : String)
    (now : Nat) : BreakerEngine :=
  engine.setBreaker key ((engine.getOrCreateCircuitBreaker key).recordFailure now)

def BreakerEngine.recordCompactionSuccess (engine : BreakerEngine) (key : String) :
    BreakerEngine :=
  engine.setBreaker key (engine.getOrCreateCircuitBreaker key).recordSuccess

/-! ## The entry point -/

inductive CoreError
  | providerAuth (message : String)
  | other (message : String)
  deriving DecidableEq, Repr

/-- A call of `_execute_compaction_core`, with whether it asked the provider. -/
structure CoreRun where
  calledProvider : Bool
  outcome : Except CoreError CompactionResult

structure Attempt where
  conversationId : ConversationId
  tokenBudget : Int
  currentTokens : Int
  provider : Option String
  model : Option String
  /-- The clock at the gate, and when the core has returned. -/
  startedAt : Nat
  finishedAt : Nat
  /-- What the core does if it is called. -/
  core : CoreRun

def Attempt.key (attempt : Attempt) : String :=
  resolveBreakerKey attempt.provider attempt.model

structure Compacted where
  engine : BreakerEngine
  answer : Except CoreError CompactionResult
  /-- The core was called. -/
  ran : Bool

def compact (engine : BreakerEngine) (attempt : Attempt) : Compacted :=
  let (breaker, rejects) :=
    (engine.getOrCreateCircuitBreaker attempt.key).isOpen attempt.startedAt
  let engine := engine.setBreaker attempt.key breaker
  if rejects then
    { engine := engine, ran := false
      answer := .ok (noAction attempt.currentTokens "circuit breaker open") }
  else
    match attempt.core.outcome with
    | .error (.providerAuth _) =>
        { engine := engine.recordCompactionAuthFailure attempt.key attempt.finishedAt
          ran := true
          answer := .ok
            { noAction attempt.currentTokens "provider auth failure" with authFailure := true } }
    | .error (.other message) =>
        { engine := engine, answer := .error (.other message), ran := true }
    | .ok result =>
        if result.authFailure then
          { engine := engine.recordCompactionAuthFailure attempt.key attempt.finishedAt
            ran := true
            answer := .ok
              { result with
                reason := some (match result.reason with
                  | none => "provider auth failure"
                  | some reason => if reason = "" then "provider auth failure" else reason)
                phaseResults := [] } }
        else
          { engine := engine.recordCompactionSuccess attempt.key, answer := .ok result
            ran := true }

/-! ## What an attempt meant -/

inductive Outcome
  | providerSuccess
  | providerAuthFailure
  /-- Already under the threshold, or nothing to compact. -/
  | noProviderCall
  | crashed
  deriving DecidableEq, Repr

def CoreRun.classify (core : CoreRun) : Outcome :=
  match core.outcome with
  | .error (.providerAuth _) => .providerAuthFailure
  | .error (.other _) => .crashed
  | .ok result =>
      if result.authFailure then .providerAuthFailure
      else if core.calledProvider then .providerSuccess
      else .noProviderCall

/-- The breaker after the core has returned, by what the attempt meant. -/
def CircuitBreaker.informed (breaker : CircuitBreaker) (now : Nat) : Outcome → CircuitBreaker
  | .providerAuthFailure => breaker.recordFailure now
  | .providerSuccess => breaker.recordSuccess
  | .noProviderCall => breaker.recordSuccess
  | .crashed => breaker

/-! ## One attempt -/

variable {engine : BreakerEngine} {attempt : Attempt} {key : String}

theorem getOrCreate_setBreaker (engine : BreakerEngine) (key other : String)
    (breaker : CircuitBreaker) :
    (engine.setBreaker key breaker).getOrCreateCircuitBreaker other =
      if other = key then breaker else engine.getOrCreateCircuitBreaker other := by
  unfold BreakerEngine.getOrCreateCircuitBreaker BreakerEngine.setBreaker
  by_cases hKey : other = key
  · rw [hKey, List.lookup_cons, beq_self_eq_true, if_pos rfl]
    rfl
  · rw [List.lookup_cons, beq_eq_false_iff_ne.mpr hKey, if_neg hKey]

/-- The gate of an attempt. -/
def gate (engine : BreakerEngine) (attempt : Attempt) : CircuitBreaker × Bool :=
  (engine.getOrCreateCircuitBreaker attempt.key).isOpen attempt.startedAt

/-- An attempt moves the breaker of its key past the gate and, if it runs, by its outcome. -/
theorem compact_spec (engine : BreakerEngine) (attempt : Attempt) :
    (compact engine attempt).ran = !(gate engine attempt).2 ∧
      (compact engine attempt).engine.config = engine.config ∧
      ∀ key, (compact engine attempt).engine.getOrCreateCircuitBreaker key =
        if key = attempt.key then
          if (gate engine attempt).2 then (gate engine attempt).1
          else (gate engine attempt).1.informed attempt.finishedAt attempt.core.classify
        else engine.getOrCreateCircuitBreaker key := by
  have hTwice : ∀ first second key,
      ((engine.setBreaker attempt.key first).setBreaker attempt.key
        second).getOrCreateCircuitBreaker key =
          if key = attempt.key then second else engine.getOrCreateCircuitBreaker key := by
    intro first second key
    rw [getOrCreate_setBreaker, getOrCreate_setBreaker]
    split <;> rfl
  have hOwn : ∀ breaker, (engine.setBreaker attempt.key breaker).getOrCreateCircuitBreaker
      attempt.key = breaker := by
    intro breaker
    rw [getOrCreate_setBreaker, if_pos rfl]
  unfold gate compact CoreRun.classify
  cases hRejects : ((engine.getOrCreateCircuitBreaker attempt.key).isOpen attempt.startedAt).2 with
  | true =>
    simp only [hRejects, if_true]
    exact ⟨rfl, rfl, fun key => getOrCreate_setBreaker engine attempt.key key _⟩
  | false =>
    simp only [hRejects, Bool.false_eq_true, if_false]
    cases attempt.core.outcome with
    | error e =>
      cases e with
      | providerAuth message =>
        refine ⟨rfl, rfl, fun key => ?_⟩
        simp only [BreakerEngine.recordCompactionAuthFailure, hTwice, hOwn]
        rfl
      | other message =>
        exact ⟨rfl, rfl, fun key => getOrCreate_setBreaker engine attempt.key key _⟩
    | ok result =>
      simp only
      cases result.authFailure with
      | true =>
        refine ⟨rfl, rfl, fun key => ?_⟩
        simp only [BreakerEngine.recordCompactionAuthFailure, hTwice, hOwn, if_true]
        rfl
      | false =>
        refine ⟨rfl, rfl, fun key => ?_⟩
        simp only [BreakerEngine.recordCompactionSuccess, hTwice, hOwn, Bool.false_eq_true,
          if_false]
        cases attempt.core.calledProvider <;> rfl

end LosslessHermes.Breaker
