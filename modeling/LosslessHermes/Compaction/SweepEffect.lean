import LosslessHermes.Compaction.Sweep

/-!
# What a sweep does

A round of either loop leaves the database as it was and ends the loop, or it
stores the summary of its pass and records it: `leafRound_effect` and
`condensedRound_effect`. `compactFullSweep_invariant` is the rule for the whole
sweep, whatever the fuel.
-/

namespace LosslessHermes.Compaction

/-! ## Rounds -/

/-- A round that stored nothing. -/
structure Idle (s s' : SweepState) : Prop where
  db : s'.db = s.db
  phaseResults : s'.phaseResults = s.phaseResults
  actionTaken : s'.actionTaken = s.actionTaken
  runningTokens : s'.runningTokens = s.runningTokens
  calls : s.calls ≤ s'.calls

/-- A round that recorded the summary of its pass. -/
structure Recorded (s s' : SweepState) (condensed : Bool) (result : LeafPassResult) : Prop where
  phaseResults : s'.phaseResults = s.phaseResults ++
    [⟨s.runningTokens, s'.runningTokens, result.summaryId, condensed, result.level⟩]
  actionTaken : s'.actionTaken = true
  runningTokens : s'.runningTokens = s.runningTokens - result.removedTokens + result.addedTokens
  calls : s'.calls = s.calls + 1

section Round

variable {force : Bool} {threshold : Int} {condensed : Bool} {s : SweepState}

theorem sweepRound_idle {outcome : Db × Except SqlError LeafPassOutcome}
    (hDb : outcome.1 = s.db) (hAnswer : ∀ result auth, outcome.2 ≠ .ok ⟨some result, auth⟩) :
    Idle s (sweepRound force threshold condensed s outcome).1 ∧
      (sweepRound force threshold condensed s outcome).2.isSome := by
  obtain ⟨db', answer⟩ := outcome
  obtain rfl : db' = s.db := hDb
  unfold sweepRound
  cases answer with
  | error e => exact ⟨⟨rfl, rfl, rfl, rfl, Nat.le_succ _⟩, rfl⟩
  | ok outcome =>
    obtain ⟨summary, authFailure⟩ := outcome
    cases authFailure with
    | true => exact ⟨⟨rfl, rfl, rfl, rfl, Nat.le_succ _⟩, rfl⟩
    | false =>
      cases summary with
      | none => exact ⟨⟨rfl, rfl, rfl, rfl, Nat.le_succ _⟩, rfl⟩
      | some result => exact absurd rfl (hAnswer result false)

theorem sweepRound_recorded {db' : Db} {result : LeafPassResult} :
    (sweepRound force threshold condensed s (db', .ok ⟨some result, false⟩)).1.db = db' ∧
      Recorded s (sweepRound force threshold condensed s (db', .ok ⟨some result, false⟩)).1
        condensed result ∧
      ((sweepRound force threshold condensed s (db', .ok ⟨some result, false⟩)).2 = none →
        (sweepRound force threshold condensed s
          (db', .ok ⟨some result, false⟩)).1.runningTokens < s.runningTokens) := by
  unfold sweepRound
  simp only [Bool.false_eq_true, if_false]
  split
  · exact ⟨rfl, ⟨rfl, rfl, rfl, rfl⟩, fun hNone => nomatch hNone⟩
  · split
    · exact ⟨rfl, ⟨rfl, rfl, rfl, rfl⟩, fun hNone => nomatch hNone⟩
    · rename_i hProgress
      refine ⟨rfl, ⟨rfl, rfl, rfl, rfl⟩, fun _ => ?_⟩
      show (s.record condensed result).runningTokens < s.runningTokens
      have hLess : ¬s.runningTokens ≤ (s.record condensed result).runningTokens :=
        fun hLe => hProgress (Or.inl hLe)
      omega

theorem sweepRound_effect {Effect : Db → LeafPassResult → Prop}
    {outcome : Db × Except SqlError LeafPassOutcome} (h : PassOutcome s.db Effect outcome) :
    (Idle s (sweepRound force threshold condensed s outcome).1 ∧
        (sweepRound force threshold condensed s outcome).2.isSome) ∨
      ∃ result, Effect (sweepRound force threshold condensed s outcome).1.db result ∧
        Recorded s (sweepRound force threshold condensed s outcome).1 condensed result ∧
        ((sweepRound force threshold condensed s outcome).2 = none →
          (sweepRound force threshold condensed s outcome).1.runningTokens < s.runningTokens) := by
  rcases h with ⟨hDb, hAnswer⟩ | ⟨result, hAnswer, hEffect⟩
  · exact Or.inl (sweepRound_idle hDb hAnswer)
  · obtain ⟨db', answer⟩ := outcome
    obtain rfl : answer = .ok ⟨some result, false⟩ := hAnswer
    obtain ⟨hDb, hRecorded⟩ := @sweepRound_recorded force threshold condensed s db' result
    refine Or.inr ⟨result, ?_, hRecorded⟩
    rw [hDb]
    exact hEffect

/-- A round raises only what its pass raises. -/
theorem sweepRound_ne_raised {db' : Db} {outcome : LeafPassOutcome} (e : SqlError) :
    (sweepRound force threshold condensed s (db', .ok outcome)).2 ≠ some (.raised e) := by
  unfold sweepRound
  dsimp only
  split
  · rintro ⟨⟩
  · split
    · rintro ⟨⟩
    · split_ifs <;> rintro ⟨⟩

variable {env : SweepEnv} {c : ConversationId}

theorem leafRound_effect (hOrdered : Ordered (s.db.getContextItems c)) :
    (Idle s (leafRound force threshold env c s).1 ∧
        (leafRound force threshold env c s).2.isSome) ∨
      ∃ result, LeafEffect s.db (env.passEnv s.calls) c (leafRound force threshold env c s).1.db
          result ∧
        Recorded s (leafRound force threshold env c s).1 false result ∧
        ((leafRound force threshold env c s).2 = none →
          (leafRound force threshold env c s).1.runningTokens < s.runningTokens) :=
  sweepRound_effect (leafPass_effect hOrdered s.previousSummaryContent)

theorem condensedRound_effect (hOrdered : Ordered (s.db.getContextItems c)) (hardTrigger : Bool) :
    (Idle s (condensedRound force threshold env c hardTrigger s).1 ∧
        (condensedRound force threshold env c hardTrigger s).2.isSome) ∨
      ∃ result, CondensedEffect s.db (env.passEnv s.calls) c hardTrigger
          (condensedRound force threshold env c hardTrigger s).1.db result ∧
        Recorded s (condensedRound force threshold env c hardTrigger s).1 true result ∧
        ((condensedRound force threshold env c hardTrigger s).2 = none →
          (condensedRound force threshold env c hardTrigger s).1.runningTokens <
            s.runningTokens) := by
  unfold condensedRound
  split
  · exact Or.inl ⟨⟨rfl, rfl, rfl, rfl, Nat.le_refl _⟩, rfl⟩
  · exact sweepRound_effect (runCondensedPass_effect hOrdered hardTrigger)

end Round

/-! ## The rule for a sweep -/

/-- What the passes of a sweep preserve, in the states between them. -/
structure SweepInvariant (env : SweepEnv) (c : ConversationId) (hardTrigger : Bool)
    (Inv : SweepState → Prop) : Prop where
  ordered : ∀ s, Inv s → Ordered (s.db.getContextItems c)
  idle : ∀ s s', Idle s s' → Inv s → Inv s'
  leaf : ∀ s s' result, LeafEffect s.db (env.passEnv s.calls) c s'.db result →
    Recorded s s' false result → Inv s → Inv s'
  condensed : ∀ s s' result,
    CondensedEffect s.db (env.passEnv s.calls) c hardTrigger s'.db result →
    Recorded s s' true result → Inv s → Inv s'

section Rule

variable {env : SweepEnv} {c : ConversationId} {hardTrigger : Bool} {Inv : SweepState → Prop}
  (h : SweepInvariant env c hardTrigger Inv)

include h

theorem SweepInvariant.leafRound (force : Bool) (threshold : Int) (s : SweepState)
    (hInv : Inv s) : Inv (leafRound force threshold env c s).1 := by
  rcases @leafRound_effect force threshold s env c (h.ordered s hInv) with
    ⟨hIdle, -⟩ | ⟨result, hEffect, hRecorded, -⟩
  · exact h.idle s _ hIdle hInv
  · exact h.leaf s _ result hEffect hRecorded hInv

theorem SweepInvariant.condensedRound (force : Bool) (threshold : Int) (s : SweepState)
    (hInv : Inv s) : Inv (condensedRound force threshold env c hardTrigger s).1 := by
  rcases @condensedRound_effect force threshold s env c (h.ordered s hInv) hardTrigger with
    ⟨hIdle, -⟩ | ⟨result, hEffect, hRecorded, -⟩
  · exact h.idle s _ hIdle hInv
  · exact h.condensed s _ result hEffect hRecorded hInv

theorem SweepInvariant.sweepPhases (force : Bool) (threshold : Int) (fuel : Nat)
    (s : SweepState) (hInv : Inv s) :
    Inv (sweepPhases force threshold env c hardTrigger fuel s).1 := by
  have hLeaf := loop_invariant (h.leafRound force threshold) hInv fuel
  unfold Compaction.sweepPhases
  split
  · rename_i hLoop
    rw [hLoop] at hLeaf
    exact loop_invariant (h.condensedRound force threshold) hLeaf fuel
  · exact hLeaf

/-- An invariant of the passes holds at every point of a sweep. -/
theorem compactFullSweep_invariant {db : Db} {calls : Nat}
    (hStart : Inv (.start db calls (db.getContextTokenCount c))) (tokenBudget : Int)
    (force : Bool) (fuel : Nat) :
    Inv (compactFullSweep env db calls c tokenBudget force hardTrigger fuel).state := by
  have hPhases := h.sweepPhases force (env.contextThreshold tokenBudget) fuel _ hStart
  unfold compactFullSweep
  dsimp only
  split
  · exact hStart
  · split
    · exact hStart
    · split
      all_goals
        rename_i hRun
        rw [hRun] at hPhases
        exact hPhases

end Rule

/-! ## The fresh tail -/

/-- The items behind the boundary are the same at every point of a sweep. -/
theorem freshTail_compactFullSweep {env : SweepEnv} {db : Db} {c : ConversationId}
    (hState : ContextState db c) (calls : Nat) (tokenBudget : Int) (force hardTrigger : Bool)
    (fuel : Nat) :
    let db' := (compactFullSweep env db calls c tokenBudget force hardTrigger fuel).state.db
    ContextState db' c ∧ freshTail db' env.config ((db'.getContextItems c).map (·.ref)) =
      freshTail db env.config ((db.getContextItems c).map (·.ref)) := by
  let Inv : SweepState → Prop := fun s => ContextState s.db c ∧
    freshTail s.db env.config ((s.db.getContextItems c).map (·.ref)) =
      freshTail db env.config ((db.getContextItems c).map (·.ref))
  have hRule : SweepInvariant env c hardTrigger Inv := by
    refine ⟨fun s hInv => hInv.1.bounds.toOrdered, fun s s' hIdle hInv => ?_,
      fun s s' result hEffect _ hInv => ?_, fun s s' result hEffect _ hInv => ?_⟩
    · show ContextState s'.db c ∧ _
      rw [hIdle.db]
      exact hInv
    · obtain ⟨hState', hTail, -⟩ := hEffect.chunk_raw hInv.1
      exact ⟨hState', hTail.trans hInv.2⟩
    · obtain ⟨hState', hTail, -⟩ := hEffect.chunk_summaries hInv.1
      exact ⟨hState', hTail.trans hInv.2⟩
  exact compactFullSweep_invariant hRule ⟨hState, rfl⟩ tokenBudget force fuel

/-- The items at and behind the boundary of the fresh tail. -/
def protectedItems (db : Db) (config : CompactionConfig) (c : ConversationId) :
    List ContextItemRecord :=
  let items := db.getContextItems c
  items.filter fun i => resolveFreshTailOrdinal db config items ≤ i.ordinal

/-- **A sweep never touches the fresh tail**: the items protected at its start still end the
context, at every point of the sweep, and they are the ones protected then. -/
theorem fresh_tail_untouched {env : SweepEnv} {db : Db} {c : ConversationId}
    (hState : ContextState db c) (calls : Nat) (tokenBudget : Int) (force hardTrigger : Bool)
    (fuel : Nat) :
    let db' := (compactFullSweep env db calls c tokenBudget force hardTrigger fuel).state.db
    (∃ front, (db'.getContextItems c).map (·.ref) =
        front ++ (protectedItems db env.config c).map (·.ref)) ∧
      (protectedItems db' env.config c).map (·.ref) =
        (protectedItems db env.config c).map (·.ref) := by
  obtain ⟨hState', hTail⟩ := @freshTail_compactFullSweep env db c hState calls tokenBudget force
    hardTrigger fuel
  dsimp only [protectedItems]
  rw [filter_freshTail hState.bounds, filter_freshTail hState'.bounds, ← hTail]
  exact ⟨freshTail_suffix _, rfl⟩

/-- Three messages of two tokens each. -/
def threeTurns : Db :=
  { Db.empty with
    conversations := [⟨1, "s", none, true, 1⟩]
    messages := [⟨1, 1, 1, .user, "question", 2, 1, none⟩,
      ⟨2, 1, 2, .assistant, "answer", 2, 2, none⟩,
      ⟨3, 1, 3, .user, "thanks", 2, 3, none⟩]
    contextItems := [⟨1, 0, .message 1⟩, ⟨1, 1, .message 2⟩, ⟨1, 2, .message 3⟩]
    conversationSequence := 1
    messageSequence := 3 }

/-- One protected message, and a summarizer with a single word. -/
def oneWordEnv : SweepEnv :=
  { config := { freshTailCount := 1 }
    contextThreshold := id
    sourceText := ⟨fun _ content => content, id, fun _ _ => "", fun _ => []⟩
    summarize := fun _ _ _ _ => .text "both"
    summaryModel := none
    now := fun _ => 4
    generateSummaryId := fun _ _ => "sum_1" }

theorem contextState_threeTurns : ContextState threeTurns 1 :=
  ⟨⟨⟨by decide, by decide⟩, by decide⟩, by decide⟩

theorem fresh_tail_untouched_threeTurns :
    let db' := (compactFullSweep oneWordEnv threeTurns 0 1 100 true false 5).state.db
    (∃ front, (db'.getContextItems 1).map (·.ref) =
        front ++ (protectedItems threeTurns oneWordEnv.config 1).map (·.ref)) ∧
      (protectedItems db' oneWordEnv.config 1).map (·.ref) =
        (protectedItems threeTurns oneWordEnv.config 1).map (·.ref) :=
  fresh_tail_untouched contextState_threeTurns 0 100 true false 5

/-! ## The running token count -/

/-- The reported counts of consecutive passes, from one total to another. -/
def Chained : Int → List PhaseResult → Int → Prop
  | tokens, [], last => tokens = last
  | tokens, result :: rest, last =>
      result.tokensBefore = tokens ∧ Chained result.tokensAfter rest last

theorem Chained.snoc {first last : Int} {results : List PhaseResult}
    (h : Chained first results last) (result : PhaseResult) (hBefore : result.tokensBefore = last) :
    Chained first (results ++ [result]) result.tokensAfter := by
  induction results generalizing first with
  | nil =>
    have hSame : first = last := h
    exact ⟨hBefore.trans hSame.symm, rfl⟩
  | cons head results ih => exact ⟨h.1, ih h.2⟩

/-- What the ingest path and the primary key give: the messages of the context carry their
estimate, and a summary id names one row. -/
structure Counted (db : Db) (c : ConversationId) : Prop where
  messages : ∀ i ∈ db.getContextItems c, ∀ m found, i.ref = .message m →
    db.getMessageById m true = some found → found.tokenCount = estimateTokens found.content
  summaries : (db.summaries.map (·.summaryId)).Nodup

variable {db : Db} {c : ConversationId} {chunk : List ContextItemRecord}

theorem sum_leafMessages (hCounted : Counted db c) (hState : ContextState db c)
    (hChunk : ∀ i ∈ chunk, ∃ m, i.ref = .message m) (hMem : ∀ i ∈ chunk, i ∈ db.getContextItems c) :
    ((leafMessages db chunk).map resolveMessageTokenCount).sum =
      (chunk.map fun i => db.refTokenCount i.ref).sum := by
  induction chunk with
  | nil => rfl
  | cons item chunk ih =>
    obtain ⟨m, hRef⟩ := hChunk item List.mem_cons_self
    have hItem := hMem item List.mem_cons_self
    have hFound := hState.refs item hItem
    rw [hRef] at hFound
    obtain ⟨found, hFound⟩ := Option.isSome_iff_exists.mp hFound
    have hTokens : resolveMessageTokenCount found = found.tokenCount := by
      have hEstimate := hCounted.messages item hItem m found hRef hFound
      unfold resolveMessageTokenCount
      split <;> omega
    have hCons : leafMessages db (item :: chunk) = found :: leafMessages db chunk := by
      simp only [leafMessages, List.filterMap_cons, hRef, hFound]
    rw [hCons, List.map_cons, List.sum_cons, List.map_cons, List.sum_cons, hTokens,
      ih (fun i hi => hChunk i (List.mem_cons_of_mem _ hi))
        fun i hi => hMem i (List.mem_cons_of_mem _ hi)]
    simp only [hRef, Db.refTokenCount, hFound, Option.map_some, Option.getD_some]

theorem sum_condensedRecords {weight : ContextItemRef → Nat}
    (hWeight : ∀ s found, db.getSummary s = some found → weight (.summary s) = found.tokenCount)
    {depth : Nat} (hChunk : ∀ i ∈ chunk, AtDepth db depth i) :
    ((condensedRecords db chunk).map (·.tokenCount)).sum =
      (chunk.map fun i => weight i.ref).sum := by
  induction chunk with
  | nil => rfl
  | cons item chunk ih =>
    obtain ⟨s, found, hRef, hFound, -⟩ := hChunk item List.mem_cons_self
    have hCons : condensedRecords db (item :: chunk) = found :: condensedRecords db chunk := by
      simp only [condensedRecords, List.filterMap_cons, hRef, hFound]
    rw [hCons, List.map_cons, List.sum_cons, List.map_cons, List.sum_cons, hRef,
      hWeight s found hFound, ih fun i hi => hChunk i (List.mem_cons_of_mem _ hi)]

theorem Counted.refTokenCount (hCounted : Counted db c) {s : SummaryId}
    {found : SummaryRecord} (hFound : db.getSummary s = some found) :
    db.refTokenCount (.summary s) = found.tokenCount := by
  have hMem := List.mem_of_find?_eq_some hFound
  have hMatch := List.find?_some hFound
  simp only [decide_eq_true_eq] at hMatch
  have hSame : db.getSummary s true = some found := by
    cases hAny : db.getSummary s true with
    | none =>
      have hNone := List.find?_eq_none.mp hAny found hMem
      simp [hMatch.1] at hNone
    | some other =>
      have hOther := List.find?_some hAny
      simp only [true_or, and_true, decide_eq_true_eq] at hOther
      rw [List.inj_on_of_nodup_map hCounted.summaries (List.mem_of_find?_eq_some hAny) hMem
        (hOther.trans hMatch.1.symm)]
  simp only [Db.refTokenCount, hSame, Option.map_some, Option.getD_some]

section Replaced

variable {db db' : Db} {c : ConversationId} {record : SummaryRecord}
  {before chunk after : List ContextItemRecord}

theorem Counted.replaced (hCounted : Counted db c)
    (h : Replaced db db' c record before chunk after) : Counted db' c := by
  refine ⟨fun i hi m found hRef hFound => ?_, ?_⟩
  · rw [h.getMessageById] at hFound
    have hOld : .message m ∈ (db.getContextItems c).map (·.ref) := by
      have hNew : .message m ∈ (db'.getContextItems c).map (·.ref) :=
        hRef ▸ List.mem_map_of_mem hi
      rw [h.refs] at hNew
      rw [h.items]
      simp only [List.map_append, List.mem_append, List.mem_singleton, reduceCtorEq,
        or_false] at hNew ⊢
      exact hNew.imp Or.inl id
    obtain ⟨i', hi', hRef'⟩ := List.mem_map.mp hOld
    exact hCounted.messages i' hi' m found hRef' hFound
  · rw [h.summaries, List.map_append, List.nodup_append]
    refine ⟨hCounted.summaries, List.nodup_singleton _, ?_⟩
    rintro s hs s' hs' rfl
    have hId : s = record.summaryId := List.mem_singleton.mp hs'
    exact h.fresh (hId ▸ hs)

/-- The count of the store follows the delta of the pass. -/
theorem Replaced.getContextTokenCount (h : Replaced db db' c record before chunk after)
    (hState : ContextState db c) :
    db'.getContextTokenCount c + (chunk.map fun i => db.refTokenCount i.ref).sum =
      db.getContextTokenCount c + record.tokenCount := by
  have hSum := @Replaced.sum_refs db db' c record before chunk after h db.refTokenCount
    db'.refTokenCount fun i hi => by
      have hRef := hState.refs i hi
      cases hKind : i.ref with
      | message m => simp only [Db.refTokenCount, h.getMessageById]
      | summary s =>
        rw [hKind] at hRef
        simp only [Db.refTokenCount, h.getSummary_of_hasRef hRef]
  have hNew : db'.refTokenCount (.summary record.summaryId) = record.tokenCount := by
    simp only [Db.refTokenCount, h.getSummary_new, Option.map_some, Option.getD_some]
  rw [hNew] at hSum
  exact hSum

end Replaced

/-- The store holds the running count, and the reported counts lead up to it. -/
structure CountInvariant (c : ConversationId) (tokensBefore : Int) (s : SweepState) : Prop where
  state : ContextState s.db c
  counted : Counted s.db c
  running : s.runningTokens = s.db.getContextTokenCount c
  chained : Chained tokensBefore s.phaseResults s.runningTokens

theorem CountInvariant.recorded {tokensBefore : Int} {s s' : SweepState}
    {condensed : Bool} {result : LeafPassResult} {record : SummaryRecord}
    {before after : List ContextItemRecord} (hInv : CountInvariant c tokensBefore s)
    (hReplaced : Replaced s.db s'.db c record before chunk after)
    (hAdded : record.tokenCount = result.addedTokens)
    (hRemoved : result.removedTokens = (chunk.map fun i => s.db.refTokenCount i.ref).sum)
    (hRecorded : Recorded s s' condensed result) : CountInvariant c tokensBefore s' := by
  have hCount := hReplaced.getContextTokenCount hInv.state
  have hRunning := hRecorded.runningTokens
  rw [hInv.running] at hRunning
  refine ⟨hInv.state.replaced hReplaced, hInv.counted.replaced hReplaced, by omega, ?_⟩
  rw [hRecorded.phaseResults]
  exact hInv.chained.snoc _ rfl

theorem countInvariant (env : SweepEnv) (c : ConversationId) (hardTrigger : Bool)
    (tokensBefore : Int) : SweepInvariant env c hardTrigger (CountInvariant c tokensBefore) := by
  refine ⟨fun s hInv => hInv.state.bounds.toOrdered, fun s s' hIdle hInv => ?_,
    fun s s' result hEffect hRecorded hInv => ?_, fun s s' result hEffect hRecorded hInv => ?_⟩
  · obtain ⟨hState, hCounted, hRunning, hChained⟩ := hInv
    refine ⟨?_, ?_, ?_, ?_⟩
    · rwa [hIdle.db]
    · rwa [hIdle.db]
    · rwa [hIdle.db, hIdle.runningTokens]
    · rwa [hIdle.phaseResults, hIdle.runningTokens]
  · obtain ⟨before, after, record, hReplaced, -, -, hTokens⟩ := hEffect.effect
    obtain ⟨-, -, -, -, hChunk⟩ := selectOldestLeafChunk_spec s.db env.config c
    refine hInv.recorded hReplaced hTokens (hEffect.removed.trans ?_) hRecorded
    refine sum_leafMessages hInv.counted hInv.state (fun i hi => (hChunk i hi).1) fun i hi => ?_
    rw [hReplaced.items]
    exact List.mem_append_left _ (List.mem_append_right _ hi)
  · obtain ⟨candidate, before, after, record, hCandidate, hReplaced, -, hTokens, hRemoved⟩ :=
      hEffect.effect
    obtain ⟨-, -, hChunk⟩ := selectShallowestCondensationCandidate_spec hCandidate
    refine hInv.recorded hReplaced hTokens (hRemoved.trans ?_) hRecorded
    exact sum_condensedRecords (fun _ _ hFound => hInv.counted.refTokenCount hFound)
      fun i hi => (hChunk i hi).1

/-- What a sweep returns is what its last state says. -/
theorem answer_of_state {env : SweepEnv} {calls : Nat}
    {tokenBudget : Int} {force hardTrigger : Bool} {fuel : Nat} {result : CompactionResult}
    (h : (compactFullSweep env db calls c tokenBudget force hardTrigger fuel).answer =
      some (.ok result)) :
    let s := (compactFullSweep env db calls c tokenBudget force hardTrigger fuel).state
    result.tokensBefore = db.getContextTokenCount c ∧ result.tokensAfter = s.runningTokens ∧
      result.phaseResults = s.phaseResults ∧ result.actionTaken = s.actionTaken := by
  revert h
  unfold compactFullSweep
  dsimp only
  split
  · rintro ⟨⟩
    exact ⟨rfl, rfl, rfl, rfl⟩
  · split
    · rintro ⟨⟩
      exact ⟨rfl, rfl, rfl, rfl⟩
    · split
      · rintro ⟨⟩
      · rintro ⟨⟩
      · rintro ⟨⟩
        exact ⟨rfl, rfl, rfl, rfl⟩

/-- **The running token count of a sweep is the real one**: what it returns is the count
read from the store afterwards, and the counts of its passes chain. -/
theorem tokensAfter_eq {env : SweepEnv} {db : Db} {c : ConversationId}
    (hState : ContextState db c) (hCounted : Counted db c) (calls : Nat) (tokenBudget : Int)
    (force hardTrigger : Bool) (fuel : Nat) {result : CompactionResult}
    (hAnswer : (compactFullSweep env db calls c tokenBudget force hardTrigger fuel).answer =
      some (.ok result)) :
    let db' := (compactFullSweep env db calls c tokenBudget force hardTrigger fuel).state.db
    result.tokensBefore = db.getContextTokenCount c ∧
      result.tokensAfter = db'.getContextTokenCount c ∧
      Chained result.tokensBefore result.phaseResults result.tokensAfter := by
  have hInv := @compactFullSweep_invariant env c hardTrigger _
    (countInvariant env c hardTrigger _) db calls ⟨hState, hCounted, rfl, rfl⟩ tokenBudget
    force fuel
  obtain ⟨hBefore, hAfter, hResults, -⟩ := answer_of_state hAnswer
  dsimp only
  rw [hBefore, hAfter, hResults]
  exact ⟨rfl, hInv.running, hInv.chained⟩

theorem counted_threeTurns : Counted threeTurns 1 := by
  refine ⟨fun i _ m found _ hFound => ?_, by decide⟩
  have hAll : ∀ found ∈ threeTurns.messages, found.tokenCount = estimateTokens found.content := by
    decide
  exact hAll found (List.mem_of_find?_eq_some hFound)

/-- Four tokens in front of the fresh tail become one. -/
def threeTurnsResult : CompactionResult :=
  { actionTaken := true, tokensBefore := 6, tokensAfter := 3, createdSummaryId := some "sum_1"
    condensed := false, level := some .normal, passesCompleted := 1
    phaseResults := [⟨6, 3, "sum_1", false, .normal⟩] }

theorem tokensAfter_threeTurns :
    let db' := (compactFullSweep oneWordEnv threeTurns 0 1 100 true false 5).state.db
    threeTurnsResult.tokensBefore = threeTurns.getContextTokenCount 1 ∧
      threeTurnsResult.tokensAfter = db'.getContextTokenCount 1 ∧
      Chained threeTurnsResult.tokensBefore threeTurnsResult.phaseResults
        threeTurnsResult.tokensAfter :=
  tokensAfter_eq contextState_threeTurns counted_threeTurns 0 100 true false 5 (by decide +kernel)

end LosslessHermes.Compaction
