import LosslessHermes.Compaction.Termination
import LosslessHermes.Library.Interrupt

/-!
# Provider authentication failures

Two classes are called `LcmProviderAuthError`. The `except` clauses of `compaction.py` name
its own, `LcmSummarizer` raises that of `summarize.py`, and neither derives from the other.
Here the summarizer answers with a text or raises, and an exception without a clause leaves the
pass, the loop and the sweep.

By `sweep_of_raises` the exception of a call is the end of the sweep, so that sweeps end
cleanly only where no call raises (`endsCleanly_iff`).
-/

namespace LosslessHermes.Compaction

/-! ## The exception classes -/

inductive ExceptionClass
  | runtimeError
  /-- `lossless_hermes.compaction.LcmProviderAuthError` -/
  | compactionAuthError
  /-- `lossless_hermes.summarize.LcmProviderAuthError` -/
  | summarizeAuthError
  deriving DecidableEq, Repr

def ExceptionClass.base : ExceptionClass → Option ExceptionClass
  | .runtimeError => none
  | .compactionAuthError => some .runtimeError
  | .summarizeAuthError => some .runtimeError

/-- Whether a clause `except handler` catches the exception; no class here is two below another. -/
def ExceptionClass.caughtBy (raised handler : ExceptionClass) : Bool :=
  raised = handler || raised.base = some handler

/-! ## The calls of the summarizer -/

/-- The arguments of a call; `aggressive` is false in all of them. -/
structure SummarizeRequest where
  sourceText : String
  options : SummarizeOptions

inductive LcmReply
  | text (content : String)
  /-- `raise last_auth_error` -/
  | raises
  deriving DecidableEq, Repr

/-- A summarizer of the shape of `LcmSummarizer.summarize`; like the clock it may answer
differently in every pass. -/
abbrev LcmSummarizer := Nat → SummarizeRequest → LcmReply

/-- The exception that leaves `_leaf_pass` and `_run_condensed_pass`, whose clauses are
`except LcmProviderAuthError`. -/
def LcmReply.escapes : LcmReply → Option ExceptionClass
  | .text _ => none
  | .raises =>
      if ExceptionClass.summarizeAuthError.caughtBy .compactionAuthError then none
      else some .summarizeAuthError

/-- What a pass sees of a reply whose exception, if it is one, its clause catches. -/
def LcmReply.seen : LcmReply → SummarizeReply
  | .text content => .text content
  | .raises => .providerAuthError

def SweepEnv.asking (env : SweepEnv) (summarizer : LcmSummarizer) : SweepEnv :=
  { env with summarize := fun pass sourceText _ options =>
      (summarizer pass ⟨sourceText, options⟩).seen }

/-- The call of a leaf pass, if it selects a chunk and the chunk has a text. -/
def leafRequest (db : Db) (env : PassEnv) (conversationId : ConversationId)
    (previousSummaryContent : Option String) : Option SummarizeRequest :=
  let messageItems := (selectOldestLeafChunk db env.config conversationId).items
  let previousSummary :=
    match previousSummaryContent.filter fun c => !Text.isBlank c with
    | some content => some content
    | none => resolvePriorLeafSummaryContext db conversationId messageItems
  let entries := (leafMessages db messageItems).map fun m =>
    (m, env.sourceText.annotateMediaContent (db.getMessageParts m.messageId) m.content)
  let sourceText := leafSourceText env entries
  if messageItems = [] ∨ Text.isBlank sourceText then none
  else
    some ⟨sourceText,
      { previousSummary := previousSummary, isCondensed := false,
        targetTokens := some env.config.leafTargetTokens, depth := none,
        summaryModel := env.summaryModel }⟩

/-- The call of a condensed pass, likewise. -/
def condensedRequest (db : Db) (env : PassEnv) (conversationId : ConversationId)
    (hardTrigger : Bool) : Option SummarizeRequest :=
  match selectShallowestCondensationCandidate db env.config conversationId hardTrigger with
  | none => none
  | some candidate =>
      let summaryItems := candidate.chunk.items
      let sourceText := condensedSourceText env (condensedRecords db summaryItems)
      if Text.isBlank sourceText then none
      else
        some ⟨sourceText,
          { previousSummary :=
              if candidate.targetDepth = 0 then
                resolvePriorSummaryContextAtDepth db conversationId summaryItems
                  candidate.targetDepth
              else none
            isCondensed := true, targetTokens := none,
            depth := some (candidate.targetDepth + 1), summaryModel := env.summaryModel }⟩

/-- A summarizer that gives this one text. -/
def PassEnv.replying (env : PassEnv) (content : String) : PassEnv :=
  { env with summarize := fun _ _ _ => .text content }

theorem summarizeWithEscalation_of_blank {env : PassEnv} {sourceText : String}
    (hBlank : Text.isBlank sourceText) (options : SummarizeOptions) :
    summarizeWithEscalation env sourceText options = .ok none :=
  if_pos hBlank

theorem summarizeWithEscalation_of_text {env : PassEnv} {sourceText content : String}
    {options : SummarizeOptions} (hText : env.summarize sourceText false options = .text content) :
    summarizeWithEscalation env sourceText options =
      summarizeWithEscalation (env.replying content) sourceText options := by
  unfold summarizeWithEscalation
  rw [hText]
  rfl

theorem runCondensedPass_eq (db : Db) (env : PassEnv) (c : ConversationId) (hardTrigger : Bool) :
    runCondensedPass db env c hardTrigger =
      match condensedRequest db env c hardTrigger with
      | none => (db, .ok ⟨none, false⟩)
      | some request =>
          match env.summarize request.sourceText false request.options with
          | .providerAuthError => (db, .ok ⟨none, true⟩)
          | .notText => (db, .ok ⟨none, false⟩)
          | .text content => runCondensedPass db (env.replying content) c hardTrigger := by
  unfold condensedRequest runCondensedPass
  dsimp only [PassEnv.replying]
  cases selectShallowestCondensationCandidate db env.config c hardTrigger with
  | none => rfl
  | some candidate =>
    dsimp only
    by_cases hBlank : Text.isBlank (condensedSourceText env
        (condensedRecords db candidate.chunk.items))
    · rw [if_pos hBlank]
      unfold condensedPass
      dsimp only
      rw [summarizeWithEscalation_of_blank hBlank]
    · rw [if_neg hBlank]
      dsimp only
      unfold condensedPass
      dsimp only
      cases hReply : env.summarize _ false _ with
      | providerAuthError =>
        dsimp only
        unfold summarizeWithEscalation
        rw [if_neg hBlank, hReply]
      | notText =>
        dsimp only
        unfold summarizeWithEscalation
        rw [if_neg hBlank, hReply]
      | text content =>
        dsimp only
        rw [summarizeWithEscalation_of_text hReply]
        rfl

/-! ## Sweeps with such a summarizer -/

/-- A call of the summarizer: the store in which the pass with this number made it. -/
structure SummarizerCall where
  db : Db
  pass : Nat
  request : SummarizeRequest

section Asking

variable (env : SweepEnv) (summarizer : LcmSummarizer)

def SummarizerCall.reply (call : SummarizerCall) : LcmReply :=
  summarizer call.pass call.request

/-- The exception with which the call leaves its pass. -/
def SummarizerCall.escapes (call : SummarizerCall) : Option ExceptionClass :=
  (call.reply summarizer).escapes

/-- A run of the sweep's loops with its calls. -/
abbrev AskedSweep : Type :=
  Asked SweepState SummarizerCall (Except SqlError CompactionResult) ExceptionClass

variable (force : Bool) (threshold : Int) (conversationId : ConversationId)

def leafCall (s : SweepState) : Option SummarizerCall :=
  (leafRequest s.db (env.passEnv s.calls) conversationId s.previousSummaryContent).map
    fun request => ⟨s.db, s.calls, request⟩

/-- There is none where the condition of the loop fails. -/
def condensedCall (hardTrigger : Bool) (s : SweepState) : Option SummarizerCall :=
  if !force && s.previousTokens ≤ threshold then none
  else
    (condensedRequest s.db (env.passEnv s.calls) conversationId hardTrigger).map
      fun request => ⟨s.db, s.calls, request⟩

/-- `leafRound`, unless the exception of its call leaves the pass. -/
def askedLeafRound :
    SweepState × List SummarizerCall → Asked SweepState SummarizerCall LoopEnd ExceptionClass :=
  interruptible (leafRound force threshold (env.asking summarizer) conversationId)
    (leafCall (env.asking summarizer) conversationId) (·.escapes summarizer)

def askedCondensedRound (hardTrigger : Bool) :
    SweepState × List SummarizerCall → Asked SweepState SummarizerCall LoopEnd ExceptionClass :=
  interruptible (condensedRound force threshold (env.asking summarizer) conversationId hardTrigger)
    (condensedCall (env.asking summarizer) force threshold conversationId hardTrigger)
    (·.escapes summarizer)

def askedPhases (hardTrigger : Bool) (fuel : Nat) (s : SweepState) :
    Asked SweepState SummarizerCall LoopEnd ExceptionClass :=
  match loop (askedLeafRound env summarizer force threshold conversationId) fuel (s, []) with
  | (t, some (.inl .finished)) =>
      loop (askedCondensedRound env summarizer force threshold conversationId hardTrigger) fuel t
  | stopped => stopped

/-- `compact_full_sweep`: it has no clause of its own, so what leaves a pass leaves the sweep. -/
def askedFullSweep (db : Db) (calls : Nat) (tokenBudget : Int) (hardTrigger : Bool)
    (fuel : Nat) : AskedSweep :=
  let tokensBefore : Int := db.getContextTokenCount conversationId
  let threshold := env.contextThreshold tokenBudget
  let start := SweepState.start db calls tokensBefore
  if !force && tokensBefore ≤ threshold &&
      !(evaluateLeafTrigger db env.config conversationId).shouldCompact then
    ((start, []), some (.inl (.ok (noAction tokensBefore "under threshold"))))
  else if db.getContextItems conversationId = [] then
    ((start, []), some (.inl (.ok (noAction tokensBefore "no eligible chunk"))))
  else
    match askedPhases env summarizer force threshold conversationId hardTrigger fuel start with
    | (t, none) => (t, none)
    | (t, some (.inr e)) => (t, some (.inr e))
    | (t, some (.inl (.raised e))) => (t, some (.inl (.error e)))
    | (t, some (.inl .finished)) => (t, some (.inl (.ok (t.1.result tokensBefore))))

/-- The variables of `compact_until_under`, and the calls of its sweeps. -/
abbrev AskedRounds : Type :=
  Asked UntilUnderState (List SummarizerCall) UntilUnderEnd ExceptionClass

def askedUntilUnderRound (tokenBudget effectiveTarget : Int) (fuel : Nat)
    (u : UntilUnderState × List (List SummarizerCall)) : AskedRounds :=
  let run := askedFullSweep env summarizer true conversationId u.1.db u.1.calls tokenBudget false
    fuel
  let roundIndex := u.1.sweeps + 1
  let s' : UntilUnderState :=
    { u.1 with db := run.1.1.db, calls := run.1.1.calls, sweeps := roundIndex }
  let rounds := u.2 ++ [run.1.2]
  match run.2 with
  | none => ((s', rounds), some (.inl .outOfFuel))
  | some (.inr e) => ((s', rounds), some (.inr e))
  | some (.inl (.error e)) => ((s', rounds), some (.inl (.raised e)))
  | some (.inl (.ok result)) =>
      if result.authFailure then
        ((s', rounds), some (.inl (.returned ⟨false, roundIndex, result.tokensAfter, true⟩)))
      else if result.tokensAfter ≤ effectiveTarget then
        ((s', rounds), some (.inl (.returned ⟨true, roundIndex, result.tokensAfter, false⟩)))
      else if !result.actionTaken || u.1.lastTokens ≤ result.tokensAfter then
        ((s', rounds), some (.inl (.returned ⟨false, roundIndex, result.tokensAfter, false⟩)))
      else (({ s' with lastTokens := result.tokensAfter }, rounds), none)

def askedUntilUnder (db : Db) (calls : Nat) (tokenBudget : Int)
    (targetTokens currentTokens : Option Int) (fuel : Nat) : AskedRounds :=
  let effectiveTarget := (targetTokens.filter (0 < ·)).getD tokenBudget
  let storedTokens : Int := db.getContextTokenCount conversationId
  let liveTokens := (currentTokens.filter (0 < ·)).getD 0
  let lastTokens := max storedTokens liveTokens
  let start : UntilUnderState := ⟨db, calls, 0, lastTokens⟩
  if lastTokens < effectiveTarget then
    ((start, []), some (.inl (.returned ⟨true, 0, lastTokens, false⟩)))
  else
    match loop (askedUntilUnderRound env summarizer conversationId tokenBudget effectiveTarget fuel)
        env.maxRounds.toNat (start, []) with
    | (u, some answer) => (u, some answer)
    | (u, none) =>
        (u, some (.inl (.returned
          ⟨u.1.lastTokens ≤ effectiveTarget, env.maxRounds, u.1.lastTokens, false⟩)))

/-! ## Clean ends -/

/-- The sweep comes to an end of its own and, if a call raised, it reports the failure and
leaves the store in which that call was made. -/
structure SweepEndsCleanly (run : AskedSweep) : Prop where
  ends : ∃ answer, run.2 = some (.inl answer)
  failed : ∀ call ∈ run.1.2, call.reply summarizer = .raises →
    ∃ result, run.2 = some (.inl (.ok result)) ∧ result.authFailure = true ∧
      run.1.1.db = call.db

/-- The rounds come to an end of their own and, if a call raised, its round was the last,
the failure is reported and the store is the one in which that call was made. -/
structure RoundsEndCleanly (run : AskedRounds) : Prop where
  ends : ∃ answer, run.2 = some (.inl answer) ∧ answer ≠ .outOfFuel
  failed : ∀ before round after, run.1.2 = before ++ round :: after →
    ∀ call ∈ round, call.reply summarizer = .raises → after = [] ∧
      ∃ result, run.2 = some (.inl (.returned result)) ∧ result.authFailure = true ∧
        run.1.1.db = call.db

end Asking

/-! ## Runs with and without exceptions -/

theorem escapes_eq_some {reply : LcmReply} {e : ExceptionClass} :
    reply.escapes = some e ↔ reply = .raises ∧ e = .summarizeAuthError := by
  cases reply with
  | text content => exact ⟨fun h => (nomatch h), fun h => (nomatch h.1)⟩
  | raises =>
    show some ExceptionClass.summarizeAuthError = some e ↔ _
    exact ⟨fun h => ⟨rfl, (Option.some.inj h).symm⟩, fun h => congrArg some h.2.symm⟩

theorem escapes_eq_none {reply : LcmReply} : reply.escapes = none ↔ reply ≠ .raises := by
  rw [Option.eq_none_iff_forall_ne_some]
  constructor
  · rintro h rfl
    exact h .summarizeAuthError rfl
  · intro h e hSome
    exact h (escapes_eq_some.mp hSome).1

section Compare

variable {env : SweepEnv} {summarizer : LcmSummarizer} {c : ConversationId}

/-- The store that an exception leaves is the one in which the call was made. -/
abbrev SweepInterrupted (summarizer : LcmSummarizer) {ε : Type} (plain : SweepState × Option ε)
    (log : List SummarizerCall) (run : Asked SweepState SummarizerCall ε ExceptionClass) : Prop :=
  Interrupted (fun call => call.escapes summarizer) (fun s call => s.db = call.db) plain log run

theorem interrupted_leafRound (force : Bool) (threshold : Int) (s : SweepState)
    (log : List SummarizerCall) :
    SweepInterrupted summarizer (leafRound force threshold (env.asking summarizer) c s) log
      (askedLeafRound env summarizer force threshold c (s, log)) := by
  refine interrupted_interruptible (fun s call hCall => ?_) s log
  obtain ⟨request, -, rfl⟩ := Option.map_eq_some_iff.mp hCall
  rfl

theorem interrupted_condensedRound (force : Bool) (threshold : Int) (hardTrigger : Bool)
    (s : SweepState) (log : List SummarizerCall) :
    SweepInterrupted summarizer
      (condensedRound force threshold (env.asking summarizer) c hardTrigger s) log
      (askedCondensedRound env summarizer force threshold c hardTrigger (s, log)) := by
  refine interrupted_interruptible (fun s call hCall => ?_) s log
  unfold condensedCall at hCall
  split at hCall
  · cases hCall
  · obtain ⟨request, -, rfl⟩ := Option.map_eq_some_iff.mp hCall
    rfl

theorem interrupted_phases (force : Bool) (threshold : Int) (hardTrigger : Bool) (fuel : Nat)
    (s : SweepState) :
    SweepInterrupted summarizer
      (sweepPhases force threshold (env.asking summarizer) c hardTrigger fuel s) []
      (askedPhases env summarizer force threshold c hardTrigger fuel s) := by
  have hLeaf := interrupted_loop
    (@interrupted_leafRound env summarizer c force threshold) fuel s []
  unfold askedPhases sweepPhases
  generalize loop (leafRound force threshold (env.asking summarizer) c) fuel s = plain at *
  generalize loop (askedLeafRound env summarizer force threshold c) fuel (s, []) = run at *
  obtain ⟨mid, stop⟩ := plain
  cases hLeaf with
  | raised hAsked hRaises hAsks => exact .raised hAsked hRaises hAsks
  | @quiet asked hAsked =>
    cases stop with
    | none => exact .goesOn hAsked
    | some stop =>
      cases stop with
      | raised e => exact .ended hAsked
      | finished =>
        exact (interrupted_loop
          (@interrupted_condensedRound env summarizer c force threshold hardTrigger) fuel mid
          ([] ++ asked)).shift hAsked

theorem interrupted_sweep (db : Db) (calls : Nat) (tokenBudget : Int) (force hardTrigger : Bool)
    (fuel : Nat) :
    let plain :=
      compactFullSweep (env.asking summarizer) db calls c tokenBudget force hardTrigger fuel
    SweepInterrupted summarizer (plain.state, plain.answer) []
      (askedFullSweep env summarizer force c db calls tokenBudget hardTrigger fuel) := by
  have hPhases := @interrupted_phases env summarizer c force
    ((env.asking summarizer).contextThreshold tokenBudget) hardTrigger fuel
    (.start db calls (db.getContextTokenCount c))
  have hNone : ∀ call ∈ ([] : List SummarizerCall), call.escapes summarizer = none :=
    fun call hCall => nomatch hCall
  have hConfig : env.config = (env.asking summarizer).config := rfl
  have hThreshold : env.contextThreshold = (env.asking summarizer).contextThreshold := rfl
  unfold compactFullSweep askedFullSweep
  dsimp only
  rw [hConfig, hThreshold]
  split
  · exact .ended hNone
  · split
    · exact .ended hNone
    · generalize sweepPhases force _ (env.asking summarizer) c hardTrigger fuel _ = plain at *
      generalize askedPhases env summarizer force _ c hardTrigger fuel _ = run at *
      obtain ⟨s, stop⟩ := plain
      cases hPhases with
      | raised hAsked hRaises hAsks => exact .raised hAsked hRaises hAsks
      | @quiet asked hAsked =>
        cases stop with
        | none => exact .goesOn hAsked
        | some stop =>
          cases stop with
          | raised e => exact .ended hAsked
          | finished => exact .ended hAsked

/-- The last call of a round ended it, and with it the rounds. -/
def RoundLeft (summarizer : LcmSummarizer) (u : UntilUnderState) (round : List SummarizerCall) :
    Prop :=
  ∃ front call, round = front ++ [call] ∧
    (∀ earlier ∈ front, earlier.escapes summarizer = none) ∧ u.db = call.db

/-- The same for the rounds of `compact_until_under`, whose log is one of rounds. -/
abbrev RoundsInterrupted (summarizer : LcmSummarizer)
    (plain : UntilUnderState × Option UntilUnderEnd)
    (log : List (List SummarizerCall)) (run : AskedRounds) : Prop :=
  Interrupted
    (fun round : List SummarizerCall => round.findSome? fun call => call.escapes summarizer)
    (RoundLeft summarizer) plain log run

theorem interrupted_untilUnderRound (tokenBudget effectiveTarget : Int) (fuel : Nat)
    (u : UntilUnderState) (log : List (List SummarizerCall)) :
    RoundsInterrupted summarizer
      (untilUnderRound (env.asking summarizer) c tokenBudget effectiveTarget fuel u) log
      (askedUntilUnderRound env summarizer c tokenBudget effectiveTarget fuel (u, log)) := by
  have hSweep := @interrupted_sweep env summarizer c u.db u.calls tokenBudget true false fuel
  unfold untilUnderRound askedUntilUnderRound
  dsimp only at hSweep ⊢
  generalize compactFullSweep (env.asking summarizer) u.db u.calls c tokenBudget true false fuel =
    plain at *
  generalize askedFullSweep env summarizer true c u.db u.calls tokenBudget false fuel = run at *
  obtain ⟨s, answer⟩ := plain
  cases hSweep with
  | @raised s' asked call e hAsked hRaises hAsks =>
    refine .atOnce ?_ ⟨asked, call, rfl, hAsked, hAsks⟩
    show (asked ++ [call]).findSome? _ = some e
    rw [List.findSome?_append, List.findSome?_eq_none_iff.mpr hAsked, Option.none_or,
      List.findSome?_cons, hRaises]
  | @quiet asked hAsked =>
    have hRound : ∀ round ∈ [asked],
        (round.findSome? fun call => call.escapes summarizer) = none := by
      intro round hMem
      rw [List.mem_singleton.mp hMem]
      exact List.findSome?_eq_none_iff.mpr hAsked
    cases answer with
    | none => exact .ended hRound
    | some answer =>
      cases answer with
      | error e => exact .ended hRound
      | ok result =>
        dsimp only [Option.map_some]
        split
        · exact .ended hRound
        · split
          · exact .ended hRound
          · split
            · exact .ended hRound
            · exact .goesOn hRound

theorem interrupted_untilUnder (db : Db) (calls : Nat) (tokenBudget : Int)
    (targetTokens currentTokens : Option Int) (fuel : Nat) :
    let plain := compactUntilUnder (env.asking summarizer) db calls c tokenBudget targetTokens
      currentTokens fuel
    RoundsInterrupted summarizer (plain.1, some plain.2) []
      (askedUntilUnder env summarizer c db calls tokenBudget targetTokens currentTokens fuel) := by
  have hRounds := fun target start => interrupted_loop
    (@interrupted_untilUnderRound env summarizer c tokenBudget target fuel) env.maxRounds.toNat
    start []
  have hMaxRounds : env.maxRounds = (env.asking summarizer).maxRounds := rfl
  unfold compactUntilUnder askedUntilUnder
  dsimp only
  rw [← hMaxRounds]
  split
  · exact @Interrupted.ended _ _ _ _ _ _ _ _ [] [] fun round hRound => nomatch hRound
  · have hLoop := hRounds ((targetTokens.filter (0 < ·)).getD tokenBudget)
      ⟨db, calls, 0, max (db.getContextTokenCount c : Int)
        ((currentTokens.filter (0 < ·)).getD 0)⟩
    generalize loop (untilUnderRound _ c tokenBudget _ fuel) env.maxRounds.toNat _ = plain at *
    generalize loop (askedUntilUnderRound env summarizer c tokenBudget _ fuel)
      env.maxRounds.toNat _ = run at *
    obtain ⟨u, stop⟩ := plain
    cases hLoop with
    | raised hAsked hRaises hAsks => exact .raised hAsked hRaises hAsks
    | @quiet asked hAsked =>
      cases stop with
      | none => exact .ended hAsked
      | some stop => exact .ended hAsked

/-- What happens to a failure: its exception is the end of the sweep. The passes before it are
the only ones that have changed the store. -/
theorem sweep_of_raises {ε : Type} {plain : SweepState × Option ε}
    {run : Asked SweepState SummarizerCall ε ExceptionClass}
    (h : SweepInterrupted summarizer plain [] run) {call : SummarizerCall} (hCall : call ∈ run.1.2)
    (hRaises : call.reply summarizer = .raises) :
    run.2 = some (.inr .summarizeAuthError) ∧ run.1.1.db = call.db ∧
      ∃ earlier, run.1.2 = earlier ++ [call] := by
  obtain ⟨hEnd, hDb, earlier, hLog, -⟩ := h.of_raises hCall (escapes_eq_some.mpr ⟨hRaises, rfl⟩)
  exact ⟨hEnd, hDb, earlier, hLog⟩

theorem rounds_of_raises {plain : UntilUnderState × Option UntilUnderEnd} {run : AskedRounds}
    (h : RoundsInterrupted summarizer plain [] run) {round : List SummarizerCall}
    (hRound : round ∈ run.1.2) {call : SummarizerCall} (hCall : call ∈ round)
    (hRaises : call.reply summarizer = .raises) :
    run.2 = some (.inr .summarizeAuthError) ∧ run.1.1.db = call.db ∧
      ∃ earlier, run.1.2 = earlier ++ [round] := by
  obtain ⟨e, hFound⟩ : ∃ e, (round.findSome? fun call => call.escapes summarizer) = some e := by
    refine Option.isSome_iff_exists.mp (List.findSome?_isSome_iff.mpr ⟨call, hCall, ?_⟩)
    rw [SummarizerCall.escapes, escapes_eq_some.mpr ⟨hRaises, rfl⟩]
    rfl
  obtain ⟨source, -, hEscapes⟩ := List.exists_of_findSome?_eq_some hFound
  obtain ⟨-, rfl⟩ := escapes_eq_some.mp hEscapes
  obtain ⟨hEnd, ⟨front, last, rfl, hFront, hDb⟩, earlier, hLog, -⟩ := h.of_raises hRound hFound
  refine ⟨hEnd, ?_, earlier, hLog⟩
  rcases List.mem_append.mp hCall with hEarlier | hIs
  · exact absurd hRaises (escapes_eq_none.mp (hFront call hEarlier))
  · rw [List.mem_singleton.mp hIs]
    exact hDb

theorem sweepEndsCleanly_iff {plain : SweepState × Option (Except SqlError CompactionResult)}
    {run : AskedSweep} (h : SweepInterrupted summarizer plain [] run) (hEnd : plain.2.isSome) :
    SweepEndsCleanly summarizer run ↔ ∀ call ∈ run.1.2, call.reply summarizer ≠ .raises := by
  constructor
  · intro hClean call hCall hRaises
    obtain ⟨answer, hAnswer⟩ := hClean.ends
    rw [(sweep_of_raises h hCall hRaises).1] at hAnswer
    cases hAnswer
  · intro hNever
    refine ⟨?_, fun call hCall hRaises => absurd hRaises (hNever call hCall)⟩
    obtain ⟨stop, hStop⟩ := Option.isSome_iff_exists.mp (h.isSome hEnd)
    cases stop with
    | inl answer => exact ⟨answer, hStop⟩
    | inr e =>
      obtain ⟨call, hCall, hNe⟩ := h.escaped_iff.mp ⟨e, hStop⟩
      exact absurd (escapes_eq_none.mpr (hNever call hCall)) hNe

theorem roundsEndCleanly_iff {plain : UntilUnderState × UntilUnderEnd} {run : AskedRounds}
    (h : RoundsInterrupted summarizer (plain.1, some plain.2) [] run)
    (hEnd : plain.2 ≠ .outOfFuel) :
    RoundsEndCleanly summarizer run ↔
      ∀ round ∈ run.1.2, ∀ call ∈ round, call.reply summarizer ≠ .raises := by
  constructor
  · intro hClean round hRound call hCall hRaises
    obtain ⟨answer, hAnswer, -⟩ := hClean.ends
    rw [(rounds_of_raises h hRound hCall hRaises).1] at hAnswer
    cases hAnswer
  · intro hNever
    refine ⟨?_, fun before round after hRounds call hCall hRaises => ?_⟩
    · cases h with
      | quiet => exact ⟨plain.2, rfl, hEnd⟩
      | @raised u asked round e hAsked hRaises hAsks =>
        obtain ⟨call, hCall, hEscapes⟩ := List.exists_of_findSome?_eq_some hRaises
        exact absurd (escapes_eq_some.mp hEscapes).1
          (hNever round (List.mem_append_right _ (List.mem_singleton_self _)) call hCall)
    · have hRound : round ∈ run.1.2 := by
        rw [hRounds]
        exact List.mem_append_right _ List.mem_cons_self
      exact absurd hRaises (hNever round hRound call hCall)

end Compare

/-- **A provider failure ends a sweep cleanly** when there is none: from some fuel on, the sweep
and the rounds of `compact_until_under` meet the contract just when no call they make raises. -/
theorem endsCleanly_iff {db : Db} {c : ConversationId} (hState : ContextState db c)
    (env : SweepEnv) (summarizer : LcmSummarizer) (calls : Nat) (tokenBudget : Int)
    (force hardTrigger : Bool) (targetTokens currentTokens : Option Int) :
    ∃ bound, ∀ fuel, bound ≤ fuel →
      let sweep := askedFullSweep env summarizer force c db calls tokenBudget hardTrigger fuel
      let rounds :=
        askedUntilUnder env summarizer c db calls tokenBudget targetTokens currentTokens fuel
      (SweepEndsCleanly summarizer sweep ↔
        ∀ call ∈ sweep.1.2, call.reply summarizer ≠ .raises) ∧
      (RoundsEndCleanly summarizer rounds ↔
        ∀ round ∈ rounds.1.2, ∀ call ∈ round, call.reply summarizer ≠ .raises) := by
  obtain ⟨sweepBound, hAnswers, hSame⟩ := @compactFullSweep_answers (env.asking summarizer) c db
    hState calls tokenBudget force hardTrigger
  obtain ⟨roundsBound, hRounds⟩ := @compactUntilUnder_ends (env.asking summarizer) c db hState
    calls tokenBudget targetTokens currentTokens
  refine ⟨max sweepBound roundsBound, fun fuel hFuel => ⟨?_, ?_⟩⟩
  · refine sweepEndsCleanly_iff (interrupted_sweep db calls tokenBudget force hardTrigger fuel) ?_
    dsimp only
    rw [hSame fuel ((le_max_left _ _).trans hFuel)]
    exact hAnswers
  · exact roundsEndCleanly_iff
      (interrupted_untilUnder db calls tokenBudget targetTokens currentTokens fuel)
      (hRounds fuel ((le_max_right _ _).trans hFuel))

/-- Every candidate of the chain is refused. -/
def refused : LcmSummarizer := fun _ _ => .raises

theorem endsCleanly_iff_refused :
    ∃ bound, ∀ fuel, bound ≤ fuel →
      let sweep := askedFullSweep oneWordEnv refused true 1 threeTurns 0 100 false fuel
      let rounds := askedUntilUnder oneWordEnv refused 1 threeTurns 0 100 (some 4) none fuel
      (SweepEndsCleanly refused sweep ↔ ∀ call ∈ sweep.1.2, call.reply refused ≠ .raises) ∧
      (RoundsEndCleanly refused rounds ↔
        ∀ round ∈ rounds.1.2, ∀ call ∈ round, call.reply refused ≠ .raises) :=
  endsCleanly_iff contextState_threeTurns oneWordEnv refused 0 100 true false (some 4) none

/-- The first call raises, and its exception leaves the sweep and the rounds. -/
theorem summarizer_error_escapes :
    let sweep := askedFullSweep oneWordEnv refused true 1 threeTurns 0 100 false 5
    let rounds := askedUntilUnder oneWordEnv refused 1 threeTurns 0 100 (some 4) none 5
    ContextState threeTurns 1 ∧
      sweep.2 = some (.inr .summarizeAuthError) ∧ ¬ SweepEndsCleanly refused sweep ∧
      rounds.2 = some (.inr .summarizeAuthError) ∧ ¬ RoundsEndCleanly refused rounds := by
  have hSweep : (askedFullSweep oneWordEnv refused true 1 threeTurns 0 100 false 5).2 =
      some (.inr .summarizeAuthError) := by decide +kernel
  have hRounds : (askedUntilUnder oneWordEnv refused 1 threeTurns 0 100 (some 4) none 5).2 =
      some (.inr .summarizeAuthError) := by decide +kernel
  refine ⟨contextState_threeTurns, hSweep, fun h => ?_, hRounds, fun h => ?_⟩
  · obtain ⟨answer, hAnswer⟩ := h.ends
    rw [hSweep] at hAnswer
    cases hAnswer
  · obtain ⟨answer, hAnswer, -⟩ := h.ends
    rw [hRounds] at hAnswer
    cases hAnswer

end LosslessHermes.Compaction
