import LosslessHermes.Compaction.PassEffect
import LosslessHermes.Library.Loop

/-!
# The full sweep

`compactFullSweep` is `compact_full_sweep`: leaf passes until the first one without
progress, then condensed passes likewise. `compactUntilUnder` repeats forced sweeps.
The two loops of a sweep have one body, `sweepRound`; what they run without is the
telemetry, which reads the result of a pass and writes nothing the engine reads.

The summarizer, the clock and the generated id may differ from call to call, so they
are given for every pass by its number.
-/

namespace LosslessHermes.Compaction

structure SweepEnv where
  config : CompactionConfig
  /-- `int(config.context_threshold * token_budget)`. -/
  contextThreshold : Int → Int
  maxRounds : Int := 10
  sourceText : SourceText
  summarize : Nat → SummarizeFn
  summaryModel : Option String
  now : Nat → Timestamp
  generateSummaryId : Nat → String → SummaryId

/-- What the pass with the given number reads. -/
def SweepEnv.passEnv (env : SweepEnv) (calls : Nat) : PassEnv :=
  { config := env.config, sourceText := env.sourceText, summarize := env.summarize calls,
    summaryModel := env.summaryModel, now := env.now calls,
    generateSummaryId := env.generateSummaryId calls }

/-- The `CompactionResult` of a single pass, which took action by itself. -/
structure PhaseResult where
  tokensBefore : Int
  tokensAfter : Int
  createdSummaryId : SummaryId
  condensed : Bool
  level : CompactionLevel
  deriving DecidableEq, Repr

structure CompactionResult where
  actionTaken : Bool
  tokensBefore : Int
  tokensAfter : Int
  createdSummaryId : Option SummaryId
  condensed : Bool
  level : Option CompactionLevel
  passesCompleted : Nat
  authFailure : Bool := false
  reason : Option String := none
  phaseResults : List PhaseResult := []
  deriving DecidableEq, Repr

structure LeafTriggerResult where
  shouldCompact : Bool
  reason : String
  rawTokensOutsideTail : Nat
  threshold : Int
  deriving DecidableEq, Repr

def countRawTokensOutsideFreshTail (db : Db) (config : CompactionConfig)
    (conversationId : ConversationId) : Nat :=
  let contextItems := db.getContextItems conversationId
  rawTokensOutsideTail db (resolveFreshTailOrdinal db config contextItems) contextItems

def evaluateLeafTrigger (db : Db) (config : CompactionConfig) (conversationId : ConversationId)
    (leafChunkTokensOverride : Option Int := none) : LeafTriggerResult :=
  let rawTokensOutsideTail := countRawTokensOutsideFreshTail db config conversationId
  let threshold := resolveLeafChunkTokens config leafChunkTokensOverride
  if threshold ≤ rawTokensOutsideTail then ⟨true, "leaf-trigger", rawTokensOutsideTail, threshold⟩
  else ⟨false, "below-leaf-trigger", rawTokensOutsideTail, threshold⟩

/-! ## One round of a loop -/

/-- The database and the variables of the sweep. -/
structure SweepState where
  db : Db
  /-- How many passes were run so far. -/
  calls : Nat
  actionTaken : Bool
  condensed : Bool
  createdSummaryId : Option SummaryId
  level : Option CompactionLevel
  previousSummaryContent : Option String
  previousTokens : Int
  hadAuthFailure : Bool
  passesCompleted : Nat
  phaseResults : List PhaseResult
  runningTokens : Int

def SweepState.start (db : Db) (calls : Nat) (tokensBefore : Int) : SweepState :=
  { db := db, calls := calls, actionTaken := false, condensed := false, createdSummaryId := none,
    level := none, previousSummaryContent := none, previousTokens := tokensBefore,
    hadAuthFailure := false, passesCompleted := 0, phaseResults := [],
    runningTokens := tokensBefore }

/-- The bookkeeping behind a pass that stored a summary. Only a leaf pass hands its text
to the next one. -/
def SweepState.record (s : SweepState) (condensed : Bool) (result : LeafPassResult) :
    SweepState :=
  let passTokensAfter := s.runningTokens - result.removedTokens + result.addedTokens
  { s with
    actionTaken := true
    condensed := s.condensed || condensed
    createdSummaryId := some result.summaryId
    level := some result.level
    previousSummaryContent :=
      if condensed then s.previousSummaryContent else some result.content
    passesCompleted := s.passesCompleted + 1
    phaseResults := s.phaseResults ++
      [⟨s.runningTokens, passTokensAfter, result.summaryId, condensed, result.level⟩]
    runningTokens := passTokensAfter }

/-- How a loop is left. -/
inductive LoopEnd
  | finished
  | raised (e : SqlError)
  deriving DecidableEq, Repr

section Round

variable (force : Bool) (threshold : Int)

/-- The body of both loops, behind the pass: `outcome` is what the pass returned. -/
def sweepRound (condensed : Bool) (s : SweepState)
    (outcome : Db × Except SqlError LeafPassOutcome) : SweepState × Option LoopEnd :=
  let passTokensBefore := s.runningTokens
  let s := { s with db := outcome.1, calls := s.calls + 1 }
  match outcome.2 with
  | .error e => (s, some (.raised e))
  | .ok ⟨summary, authFailure⟩ =>
      if authFailure then ({ s with hadAuthFailure := true }, some .finished)
      else match summary with
        | none => (s, some .finished)
        | some result =>
            let s' := s.record condensed result
            if !force && s'.runningTokens ≤ threshold then
              ({ s' with previousTokens := s'.runningTokens }, some .finished)
            else if passTokensBefore ≤ s'.runningTokens ∨ s.previousTokens ≤ s'.runningTokens then
              (s', some .finished)
            else ({ s' with previousTokens := s'.runningTokens }, none)

theorem sweepRound_db (condensed : Bool) (s : SweepState)
    (outcome : Db × Except SqlError LeafPassOutcome) :
    (sweepRound force threshold condensed s outcome).1.db = outcome.1 := by
  unfold sweepRound
  dsimp only
  split
  · rfl
  · split
    · rfl
    · split
      · rfl
      · split_ifs <;> rfl

variable (env : SweepEnv) (conversationId : ConversationId)

/-- One round of `while True`. -/
def leafRound (s : SweepState) : SweepState × Option LoopEnd :=
  sweepRound force threshold false s
    (leafPass s.db (env.passEnv s.calls) conversationId s.previousSummaryContent)

/-- One round of `while force or previous_tokens > threshold`. -/
def condensedRound (hardTrigger : Bool) (s : SweepState) : SweepState × Option LoopEnd :=
  if !force && s.previousTokens ≤ threshold then (s, some .finished)
  else
    sweepRound force threshold true s
      (runCondensedPass s.db (env.passEnv s.calls) conversationId hardTrigger)

/-- The leaf loop and, unless it raised, the condensed loop; `fuel` rounds for each. -/
def sweepPhases (hardTrigger : Bool) (fuel : Nat) (s : SweepState) :
    SweepState × Option LoopEnd :=
  match loop (leafRound force threshold env conversationId) fuel s with
  | (s, some .finished) =>
      loop (condensedRound force threshold env conversationId hardTrigger) fuel s
  | stopped => stopped

end Round

/-! ## The sweep -/

/-- A sweep: where it is, and what it returns or raises, unless the fuel has run out. -/
structure SweepRun where
  state : SweepState
  answer : Option (Except SqlError CompactionResult)

def SweepState.result (s : SweepState) (tokensBefore : Int) : CompactionResult :=
  { actionTaken := s.actionTaken, tokensBefore := tokensBefore, tokensAfter := s.runningTokens,
    createdSummaryId := s.createdSummaryId, condensed := s.condensed, level := s.level,
    passesCompleted := s.passesCompleted, authFailure := s.hadAuthFailure,
    phaseResults := s.phaseResults }

/-- A result without any pass. -/
def noAction (tokens : Int) (reason : String) : CompactionResult :=
  { actionTaken := false, tokensBefore := tokens, tokensAfter := tokens, createdSummaryId := none,
    condensed := false, level := none, passesCompleted := 0, reason := some reason }

/-- `compact_full_sweep`, with `calls` passes run before and `fuel` rounds for each loop. -/
def compactFullSweep (env : SweepEnv) (db : Db) (calls : Nat) (conversationId : ConversationId)
    (tokenBudget : Int) (force hardTrigger : Bool) (fuel : Nat) : SweepRun :=
  let tokensBefore : Int := db.getContextTokenCount conversationId
  let threshold := env.contextThreshold tokenBudget
  let start := SweepState.start db calls tokensBefore
  if !force && tokensBefore ≤ threshold &&
      !(evaluateLeafTrigger db env.config conversationId).shouldCompact then
    ⟨start, some (.ok (noAction tokensBefore "under threshold"))⟩
  else if db.getContextItems conversationId = [] then
    ⟨start, some (.ok (noAction tokensBefore "no eligible chunk"))⟩
  else
    match sweepPhases force threshold env conversationId hardTrigger fuel start with
    | (s, none) => ⟨s, none⟩
    | (s, some (.raised e)) => ⟨s, some (.error e)⟩
    | (s, some .finished) => ⟨s, some (.ok (s.result tokensBefore))⟩

/-! ## Repeated sweeps -/

structure CompactUntilUnderResult where
  success : Bool
  rounds : Int
  finalTokens : Int
  authFailure : Bool := false
  deriving DecidableEq, Repr

/-- The variables of `compact_until_under` between two rounds. -/
structure UntilUnderState where
  db : Db
  calls : Nat
  /-- How many sweeps were run so far; `round_index` of the next one is larger by one. -/
  sweeps : Nat
  lastTokens : Int

/-- How the rounds end: an answer, an exception, or a sweep that is still running. -/
inductive UntilUnderEnd
  | returned (result : CompactUntilUnderResult)
  | raised (e : SqlError)
  | outOfFuel
  deriving DecidableEq, Repr

def untilUnderRound (env : SweepEnv) (conversationId : ConversationId) (tokenBudget : Int)
    (effectiveTarget : Int) (fuel : Nat) (s : UntilUnderState) :
    UntilUnderState × Option UntilUnderEnd :=
  let run := compactFullSweep env s.db s.calls conversationId tokenBudget true false fuel
  let roundIndex := s.sweeps + 1
  let s' : UntilUnderState :=
    { s with db := run.state.db, calls := run.state.calls, sweeps := roundIndex }
  match run.answer with
  | none => (s', some .outOfFuel)
  | some (.error e) => (s', some (.raised e))
  | some (.ok result) =>
      if result.authFailure then
        (s', some (.returned ⟨false, roundIndex, result.tokensAfter, true⟩))
      else if result.tokensAfter ≤ effectiveTarget then
        (s', some (.returned ⟨true, roundIndex, result.tokensAfter, false⟩))
      else if !result.actionTaken || s.lastTokens ≤ result.tokensAfter then
        (s', some (.returned ⟨false, roundIndex, result.tokensAfter, false⟩))
      else ({ s' with lastTokens := result.tokensAfter }, none)

def compactUntilUnder (env : SweepEnv) (db : Db) (calls : Nat) (conversationId : ConversationId)
    (tokenBudget : Int) (targetTokens currentTokens : Option Int) (fuel : Nat) :
    UntilUnderState × UntilUnderEnd :=
  let effectiveTarget := (targetTokens.filter (0 < ·)).getD tokenBudget
  let storedTokens : Int := db.getContextTokenCount conversationId
  let liveTokens := (currentTokens.filter (0 < ·)).getD 0
  let lastTokens := max storedTokens liveTokens
  let start : UntilUnderState := ⟨db, calls, 0, lastTokens⟩
  if lastTokens < effectiveTarget then (start, .returned ⟨true, 0, lastTokens, false⟩)
  else
    match loop (untilUnderRound env conversationId tokenBudget effectiveTarget fuel)
        env.maxRounds.toNat start with
    | (s, some answer) => (s, answer)
    | (s, none) =>
        -- `max_rounds` sweeps, the last of which still made progress
        (s, .returned ⟨s.lastTokens ≤ effectiveTarget, env.maxRounds, s.lastTokens, false⟩)

end LosslessHermes.Compaction
