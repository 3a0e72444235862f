import LosslessHermes.Compaction.Sanitize
import LosslessHermes.Compaction.Termination

/-!
# When a forced sweep gets anywhere

The oldest chunk is chosen by stored token counts, and what the summarizer gets is
what the sanitiser leaves of it. A summarizer that always answers makes the sweep
replace that chunk exactly if something is left: `forced_sweep_progress_iff`.
-/

namespace LosslessHermes.Compaction

/-! ## The source text of a leaf pass -/

/-- What the sanitiser leaves of a message. -/
def sanitizedText (sourceText : SourceText) (db : Db) (message : MessageRecord) : String :=
  sourceText.extractMeaningfulMessageText
    (sourceText.annotateMediaContent (db.getMessageParts message.messageId) message.content)

/-- Some message of the oldest chunk has text for the summarizer. -/
def ChunkHasText (sourceText : SourceText) (db : Db) (config : CompactionConfig)
    (c : ConversationId) : Prop :=
  ∃ message ∈ leafMessages db (selectOldestLeafChunk db config c).items,
    sanitizedText sourceText db message ≠ ""

theorem two_le_length {α : Type} {a b : α} (hNe : a ≠ b) {items : List α} (ha : a ∈ items)
    (hb : b ∈ items) : 2 ≤ items.length := by
  rcases items with _ | ⟨x, _ | ⟨y, rest⟩⟩
  · cases ha
  · exact absurd ((List.mem_singleton.mp ha).trans (List.mem_singleton.mp hb).symm) hNe
  · simp

/-- The source text is blank exactly if no message has text, as each text has a header. -/
theorem leafSourceText_spec (env : PassEnv) (entries : List (MessageRecord × String)) :
    (Text.isBlank (leafSourceText env entries) = true ∧
        ∀ e ∈ entries, env.sourceText.extractMeaningfulMessageText e.2 = "") ∨
      (Text.isBlank (leafSourceText env entries) = false ∧ 2 ≤ (leafSourceText env entries).length ∧
        ∃ e ∈ entries, env.sourceText.extractMeaningfulMessageText e.2 ≠ "") := by
  by_cases hNone : ∀ e ∈ entries, env.sourceText.extractMeaningfulMessageText e.2 = ""
  · refine Or.inl ⟨?_, hNone⟩
    have hEmpty : leafSourceText env entries = "" := by
      unfold leafSourceText
      rw [List.filterMap_eq_nil_iff.mpr fun e he => if_pos (hNone e he), String.intercalate_nil]
    rw [hEmpty]
    rfl
  · simp only [not_forall] at hNone
    obtain ⟨e, he, hText⟩ := hNone
    have hHeader : ∀ ch, ch = '[' ∨ ch = ']' → ch ∈ (leafSourceText env entries).toList := by
      intro ch hCh
      unfold leafSourceText
      refine (Text.infix_intercalate (List.mem_filterMap.mpr ⟨e, he, if_neg hText⟩)).subset ?_
      rcases hCh with rfl | rfl <;> simp
    refine Or.inr ⟨?_, ?_, e, he, hText⟩
    · rw [Text.isBlank, List.all_eq_false]
      exact ⟨'[', hHeader _ (Or.inl rfl), by decide⟩
    · rw [← String.length_toList]
      exact two_le_length (by decide) (hHeader '[' (Or.inl rfl)) (hHeader ']' (Or.inr rfl))

/-! ## Passes that cannot fail -/

/-- The summarizer never fails, and answers every text that can be shortened at all with a
shorter one that is not blank. -/
def AlwaysShortens (summarize : Nat → SummarizeFn) : Prop :=
  ∀ n text aggressive options, 2 ≤ text.length → ∃ reply,
    summarize n text aggressive options = .text reply ∧ Text.isBlank reply = false ∧
      reply.length < text.length

/-- The ids of the next summaries are new. -/
structure FreshIds (env : SweepEnv) (db : Db) (calls : Nat) : Prop where
  unused : ∀ n content, calls ≤ n →
    env.generateSummaryId n content ∉ db.summaries.map (·.summaryId)
  distinct : ∀ n n' content content', calls ≤ n → n < n' →
    env.generateSummaryId n content ≠ env.generateSummaryId n' content'

theorem summarizeWithEscalation_answers {env : PassEnv} {n : Nat}
    {summarize : Nat → SummarizeFn} (hReplies : AlwaysShortens summarize)
    (hEnv : env.summarize = summarize n) {source : String} {options : SummarizeOptions}
    {answer : Except Unit (Option (String × CompactionLevel))}
    (h : summarizeWithEscalation env source options = answer) :
    (Text.isBlank source = true ∧ answer = .ok none) ∨
      (Text.isBlank source = false ∧
        (2 ≤ source.length → ∃ reply, answer = .ok (some (reply, .normal)))) := by
  subst h
  cases hBlank : Text.isBlank source with
  | true => exact Or.inl ⟨rfl, by simp [summarizeWithEscalation, hBlank]⟩
  | false =>
    refine Or.inr ⟨rfl, fun hLength => ?_⟩
    obtain ⟨reply, hReply, hText, -⟩ := hReplies n source false options hLength
    exact ⟨reply, by simp [summarizeWithEscalation, hBlank, hEnv, hReply, hText]⟩

section Passes

variable {db : Db} {env : SweepEnv} {c : ConversationId} {calls : Nat}
  (hState : ContextState db c) (hConversation : (db.getConversation c).isSome)
  (hFresh : FreshIds env db calls)

include hState hConversation hFresh

/-- A leaf pass stores a summary exactly if its chunk has text. -/
theorem leafPass_answers (hReplies : AlwaysShortens env.summarize)
    (previousSummaryContent : Option String) :
    ∃ summary, (leafPass db (env.passEnv calls) c previousSummaryContent).2 =
        .ok ⟨summary, false⟩ ∧
      (summary.isSome ↔ ChunkHasText env.sourceText db env.config c) := by
  obtain ⟨before, after, hItems, -, -⟩ := selectOldestLeafChunk_spec db env.config c
  have hSpec := leafSourceText_spec (env.passEnv calls)
    ((leafMessages db (selectOldestLeafChunk db env.config c).items).map fun m =>
      (m, env.sourceText.annotateMediaContent (db.getMessageParts m.messageId) m.content))
  simp only [List.forall_mem_map] at hSpec
  unfold leafPass
  dsimp only
  split
  · rename_i startOrdinal endOrdinal hStart hEnd
    split
    · rename_i hAnswer
      rcases summarizeWithEscalation_answers hReplies rfl hAnswer with ⟨-, hNone⟩ | ⟨hText, hSome⟩
      · cases hNone
      · rcases hSpec with ⟨hBlank, -⟩ | ⟨-, hLength, -⟩
        · exact absurd (hText.symm.trans hBlank) Bool.false_ne_true
        · obtain ⟨reply, hReply⟩ := hSome hLength
          cases hReply
    · rename_i hAnswer
      refine ⟨none, rfl, iff_of_false Bool.false_ne_true ?_⟩
      rintro ⟨message, hMem, hText⟩
      rcases hSpec with ⟨-, hAll⟩ | ⟨hBlank, hLength, -⟩
      · exact hText (hAll message hMem)
      · rcases summarizeWithEscalation_answers hReplies rfl hAnswer with ⟨hText, -⟩ | ⟨-, hSome⟩
        · exact absurd (hBlank.symm.trans hText) Bool.false_ne_true
        · obtain ⟨reply, hReply⟩ := hSome hLength
          cases hReply
    · rename_i content level hAnswer
      have hText : ChunkHasText env.sourceText db env.config c := by
        rcases hSpec with ⟨hBlank, -⟩ | ⟨-, -, hExists⟩
        · rcases summarizeWithEscalation_answers hReplies rfl hAnswer with ⟨-, hNone⟩ | ⟨hText, -⟩
          · cases hNone
          · exact absurd (hText.symm.trans hBlank) Bool.false_ne_true
        · obtain ⟨e, he, hText⟩ := hExists
          obtain ⟨message, hMem, rfl⟩ := List.mem_map.mp he
          exact ⟨message, hMem, hText⟩
      refine withTransaction_map_elim (P := fun run : Db × Except SqlError LeafPassOutcome =>
          ∃ summary, run.2 = .ok ⟨summary, false⟩ ∧
            (summary.isSome ↔ ChunkHasText env.sourceText db env.config c))
        (fun e hError => ?_) fun db' _ => ⟨_, rfl, iff_of_true rfl hText⟩
      exact (persistPass_ne_error (onlyLinks_linkSummaryToMessages _ _)
        hState.bounds.toOrdered hItems hStart hEnd hError hConversation
        (hFresh.unused calls content le_rfl)
        (linkSummaryToMessages_leafMessages db _ _ _)).elim
  · rename_i hEmpty
    refine ⟨none, rfl, iff_of_false Bool.false_ne_true ?_⟩
    rintro ⟨message, hMem, -⟩
    obtain ⟨item, hItem, -⟩ := List.mem_filterMap.mp hMem
    have hOrdinal := List.mem_map_of_mem (f := (·.ordinal)) hItem
    obtain ⟨startOrdinal, hStart⟩ := Option.isSome_iff_exists.mp (List.isSome_min?_of_mem hOrdinal)
    obtain ⟨endOrdinal, hEnd⟩ := Option.isSome_iff_exists.mp (List.isSome_max?_of_mem hOrdinal)
    exact hEmpty _ _ hStart hEnd

theorem runCondensedPass_answers (hardTrigger : Bool) :
    ∃ outcome, (runCondensedPass db (env.passEnv calls) c hardTrigger).2 = .ok outcome := by
  unfold runCondensedPass
  split
  · exact ⟨_, rfl⟩
  · rename_i candidate hCandidate
    obtain ⟨-, ⟨before, after, hItems⟩, -⟩ :=
      selectShallowestCondensationCandidate_spec hCandidate
    unfold condensedPass
    dsimp only
    split
    · exact ⟨_, rfl⟩
    · exact ⟨_, rfl⟩
    · rename_i content level hAnswer
      split
      · rename_i startOrdinal endOrdinal hStart hEnd
        refine withTransaction_map_elim
          (P := fun run : Db × Except SqlError LeafPassOutcome => ∃ outcome, run.2 = .ok outcome)
          (fun e hError => ?_) fun db' _ => ⟨_, rfl⟩
        exact (persistPass_ne_error (onlyLinks_linkSummaryToParents _ _)
          hState.bounds.toOrdered hItems hStart hEnd hError hConversation
          (hFresh.unused calls content le_rfl)
          (linkSummaryToParents_condensedRecords db _ _ _)).elim
      · exact ⟨_, rfl⟩

end Passes

/-! ## Sweeps that cannot fail -/

/-- What a sweep needs for its next passes. -/
structure Ready (env : SweepEnv) (c : ConversationId) (s : SweepState) : Prop where
  state : ContextState s.db c
  conversation : (s.db.getConversation c).isSome
  fresh : FreshIds env s.db s.calls

section Sweep

variable {env : SweepEnv} {c : ConversationId}

theorem FreshIds.mono {db : Db} {calls calls' : Nat} (h : FreshIds env db calls)
    (hLe : calls ≤ calls') : FreshIds env db calls' :=
  ⟨fun n content hn => h.unused n content (hLe.trans hn),
    fun n n' content content' hn => h.distinct n n' content content' (hLe.trans hn)⟩

theorem Ready.recorded {s s' : SweepState} {condensed : Bool} {result : LeafPassResult}
    {record : SummaryRecord} {before chunk after : List ContextItemRecord} (hReady : Ready env c s)
    (hReplaced : Replaced s.db s'.db c record before chunk after)
    (hId : record.summaryId = result.summaryId)
    (hGenerated : result.summaryId = env.generateSummaryId s.calls result.content)
    (hRecorded : Recorded s s' condensed result) : Ready env c s' := by
  refine ⟨hReady.state.replaced hReplaced, ?_, ?_⟩
  · unfold Db.getConversation
    rw [hReplaced.conversations]
    exact hReady.conversation
  · rw [hRecorded.calls]
    refine ⟨fun n content hn hMem => ?_,
      (hReady.fresh.mono (Nat.le_succ _)).distinct⟩
    rw [hReplaced.summaries, List.map_append, List.mem_append] at hMem
    rcases hMem with hMem | hMem
    · exact hReady.fresh.unused n content (Nat.le_of_succ_le hn) hMem
    · have hSame := (List.mem_singleton.mp hMem).trans (hId.trans hGenerated)
      exact hReady.fresh.distinct s.calls n result.content content le_rfl hn hSame.symm

theorem ready_rule (hardTrigger : Bool) : SweepInvariant env c hardTrigger (Ready env c) := by
  refine ⟨fun s hReady => hReady.state.bounds.toOrdered, fun s s' hIdle hReady => ?_,
    fun s s' result hEffect hRecorded hReady => ?_, fun s s' result hEffect hRecorded hReady => ?_⟩
  · refine ⟨?_, ?_, ?_⟩
    · rw [hIdle.db]
      exact hReady.state
    · rw [hIdle.db]
      exact hReady.conversation
    · rw [hIdle.db]
      exact hReady.fresh.mono hIdle.calls
  · obtain ⟨before, after, record, hReplaced, -, hId, -⟩ := hEffect.effect
    exact hReady.recorded hReplaced hId hEffect.generated hRecorded
  · obtain ⟨candidate, before, after, record, -, hReplaced, hId, -⟩ := hEffect.effect
    exact hReady.recorded hReplaced hId hEffect.generated hRecorded

theorem leafRound_ne_raised (hReplies : AlwaysShortens env.summarize) (force : Bool)
    (threshold : Int) {s : SweepState} (hReady : Ready env c s) (e : SqlError) :
    (leafRound force threshold env c s).2 ≠ some (.raised e) := by
  obtain ⟨summary, hAnswer, -⟩ := leafPass_answers hReady.state hReady.conversation hReady.fresh
    hReplies s.previousSummaryContent
  unfold leafRound
  generalize leafPass s.db (env.passEnv s.calls) c s.previousSummaryContent = outcome at hAnswer
  obtain ⟨db', answer⟩ := outcome
  obtain rfl : answer = _ := hAnswer
  exact sweepRound_ne_raised e

theorem condensedRound_ne_raised (force : Bool) (threshold : Int) (hardTrigger : Bool)
    {s : SweepState} (hReady : Ready env c s) (e : SqlError) :
    (condensedRound force threshold env c hardTrigger s).2 ≠ some (.raised e) := by
  obtain ⟨outcome, hAnswer⟩ := runCondensedPass_answers hReady.state hReady.conversation
    hReady.fresh hardTrigger
  unfold condensedRound
  split
  · rintro ⟨⟩
  · generalize runCondensedPass s.db (env.passEnv s.calls) c hardTrigger = run at hAnswer
    obtain ⟨db', answer⟩ := run
    obtain rfl : answer = _ := hAnswer
    exact sweepRound_ne_raised e

theorem sweepPhases_ne_raised (hReplies : AlwaysShortens env.summarize) (force : Bool)
    (threshold : Int) (hardTrigger : Bool) (fuel : Nat) {s : SweepState} (hReady : Ready env c s)
    (e : SqlError) : (sweepPhases force threshold env c hardTrigger fuel s).2 ≠
      some (.raised e) := by
  have hRule := @ready_rule env c hardTrigger
  have hMid := loop_invariant (hRule.leafRound force threshold) hReady fuel
  unfold sweepPhases
  split
  · rename_i mid hLoop
    rw [hLoop] at hMid
    intro hRaised
    exact loop_answer (Q := fun stop => stop ≠ .raised e) (hRule.condensedRound force threshold)
      (fun s hReady stop hStop hSame =>
        condensedRound_ne_raised force threshold hardTrigger hReady e (hSame ▸ hStop))
      hMid fuel hRaised rfl
  · intro hRaised
    exact loop_answer (Q := fun stop => stop ≠ .raised e) (hRule.leafRound force threshold)
      (fun s hReady stop hStop hSame =>
        leafRound_ne_raised hReplies force threshold hReady e (hSame ▸ hStop))
      hReady fuel hRaised rfl

/-! ## The oldest chunk -/

/-- How many raw messages the context has. -/
def rawCount (db : Db) (c : ConversationId) : Nat :=
  (rawIds ((db.getContextItems c).map (·.ref))).length

/-- The first leaf pass decides by the text of the oldest chunk. -/
theorem leafRound_first (hReplies : AlwaysShortens env.summarize) (force : Bool) (threshold : Int)
    {s : SweepState} (hReady : Ready env c s) :
    (ChunkHasText env.sourceText s.db env.config c ∧
        (leafRound force threshold env c s).1.actionTaken = true ∧
        ContextState (leafRound force threshold env c s).1.db c ∧
        rawCount (leafRound force threshold env c s).1.db c < rawCount s.db c) ∨
      (¬ChunkHasText env.sourceText s.db env.config c ∧
        Idle s (leafRound force threshold env c s).1 ∧
        (leafRound force threshold env c s).2 = some .finished) := by
  obtain ⟨summary, hAnswer, hIff⟩ := leafPass_answers hReady.state hReady.conversation
    hReady.fresh hReplies s.previousSummaryContent
  have hNeRaised := fun e => @leafRound_ne_raised env c hReplies force threshold s hReady e
  have hEffect := @leafPass_effect s.db (env.passEnv s.calls) c hReady.state.bounds.toOrdered
    s.previousSummaryContent
  unfold leafRound at hNeRaised ⊢
  generalize leafPass s.db (env.passEnv s.calls) c s.previousSummaryContent = outcome
    at hAnswer hEffect hNeRaised
  obtain ⟨db', answer⟩ := outcome
  obtain rfl : answer = _ := hAnswer
  rcases hEffect with ⟨hDb, hNone⟩ | ⟨result, hSome, hEffect⟩
  · obtain rfl : summary = none := by
      cases summary with
      | none => rfl
      | some result => exact absurd rfl (hNone result false)
    obtain ⟨hIdle, hEnd⟩ := @sweepRound_idle force threshold false s (db', .ok ⟨none, false⟩)
      hDb hNone
    refine Or.inr ⟨fun hText => Bool.false_ne_true (hIff.mpr hText), hIdle, ?_⟩
    obtain ⟨stop, hStop⟩ := Option.isSome_iff_exists.mp hEnd
    cases stop with
    | finished => exact hStop
    | raised e => exact absurd hStop (hNeRaised e)
  · obtain ⟨rfl⟩ : summary = some result := by simpa using hSome
    obtain ⟨hDb, hRecorded, -⟩ := @sweepRound_recorded force threshold false s db' result
    obtain ⟨hState, -, hLess⟩ := hEffect.chunk_raw hReady.state
    refine Or.inl ⟨hIff.mp rfl, hRecorded.actionTaken, ?_, ?_⟩
    · rw [hDb]
      exact hState
    · rw [hDb]
      exact hLess

theorem progress_rule (hardTrigger : Bool) (k : Nat) : SweepInvariant env c hardTrigger fun s =>
    ContextState s.db c ∧ s.actionTaken = true ∧ rawCount s.db c < k := by
  refine ⟨fun s hInv => hInv.1.bounds.toOrdered, fun s s' hIdle hInv => ?_,
    fun s s' result hEffect hRecorded hInv => ?_, fun s s' result hEffect hRecorded hInv => ?_⟩
  · rw [hIdle.db, hIdle.actionTaken]
    exact hInv
  · obtain ⟨hState, -, hLess⟩ := hEffect.chunk_raw hInv.1
    exact ⟨hState, hRecorded.actionTaken, hLess.trans hInv.2.2⟩
  · obtain ⟨hState, -, hSame⟩ := hEffect.chunk_summaries hInv.1
    refine ⟨hState, hRecorded.actionTaken, ?_⟩
    rw [rawCount, hSame]
    exact hInv.2.2

theorem condensedRound_rawCount (force : Bool) (threshold : Int) (hardTrigger : Bool) (k : Nat)
    (s : SweepState) (hInv : ContextState s.db c ∧ rawCount s.db c = k) :
    ContextState (condensedRound force threshold env c hardTrigger s).1.db c ∧
      rawCount (condensedRound force threshold env c hardTrigger s).1.db c = k := by
  rcases @condensedRound_effect force threshold s env c hInv.1.bounds.toOrdered hardTrigger with
    ⟨hIdle, -⟩ | ⟨result, hEffect, -, -⟩
  · rw [hIdle.db]
    exact hInv
  · obtain ⟨hState, -, hSame⟩ := hEffect.chunk_summaries hInv.1
    refine ⟨hState, ?_⟩
    rw [rawCount, hSame]
    exact hInv.2

theorem sweepPhases_progress (hReplies : AlwaysShortens env.summarize) (force : Bool)
    (threshold : Int) (hardTrigger : Bool) (fuel : Nat) {s : SweepState} (hReady : Ready env c s) :
    (rawCount (sweepPhases force threshold env c hardTrigger (fuel + 1) s).1.db c <
        rawCount s.db c ↔ ChunkHasText env.sourceText s.db env.config c) ∧
      (ChunkHasText env.sourceText s.db env.config c →
        (sweepPhases force threshold env c hardTrigger (fuel + 1) s).1.actionTaken = true) := by
  rcases leafRound_first hReplies force threshold hReady with
    ⟨hText, hAction, hState, hLess⟩ | ⟨hText, hIdle, hEnd⟩
  · have hRule := @progress_rule env c hardTrigger (rawCount s.db c)
    have hMid := loop_invariant_of_first (hRule.leafRound force threshold)
      ⟨hState, hAction, hLess⟩ fuel
    have hLast : ContextState (sweepPhases force threshold env c hardTrigger (fuel + 1) s).1.db c ∧
        (sweepPhases force threshold env c hardTrigger (fuel + 1) s).1.actionTaken = true ∧
        rawCount (sweepPhases force threshold env c hardTrigger (fuel + 1) s).1.db c <
          rawCount s.db c := by
      unfold sweepPhases
      split
      · rename_i mid hLoop
        rw [hLoop] at hMid
        exact loop_invariant (hRule.condensedRound force threshold) hMid (fuel + 1)
      · exact hMid
    exact ⟨iff_of_true hLast.2.2 hText, fun _ => hLast.2.1⟩
  · have hStart : ContextState (leafRound force threshold env c s).1.db c ∧
        rawCount (leafRound force threshold env c s).1.db c = rawCount s.db c := by
      rw [hIdle.db]
      exact ⟨hReady.state, rfl⟩
    have hLast := loop_invariant (@condensedRound_rawCount env c force threshold hardTrigger
      (rawCount s.db c)) hStart (fuel + 1)
    have hPhases : sweepPhases force threshold env c hardTrigger (fuel + 1) s =
        loop (condensedRound force threshold env c hardTrigger) (fuel + 1)
          (leafRound force threshold env c s).1 := by
      unfold sweepPhases
      rw [loop_succ_of_some hEnd]
    rw [hPhases]
    exact ⟨iff_of_false (Nat.not_lt.mpr hLast.2.ge) hText, fun h => absurd h hText⟩

end Sweep

/-- **When a forced sweep gets anywhere**: with a summarizer that always answers and new ids it
returns a result, and it takes a raw message out of the context exactly if the sanitiser leaves
some text of the oldest chunk. It then reports an action. -/
theorem forced_sweep_progress_iff {env : SweepEnv} {db : Db} {c : ConversationId} {calls : Nat}
    (hState : ContextState db c) (hConversation : (db.getConversation c).isSome)
    (hFresh : FreshIds env db calls) (hReplies : AlwaysShortens env.summarize)
    (tokenBudget : Int) (hardTrigger : Bool) :
    ∃ bound, ∀ fuel, bound ≤ fuel → ∃ result,
      let run := compactFullSweep env db calls c tokenBudget true hardTrigger fuel
      run.answer = some (.ok result) ∧
        (rawCount run.state.db c < rawCount db c ↔
          ChunkHasText env.sourceText db env.config c) ∧
        (ChunkHasText env.sourceText db env.config c → result.actionTaken = true) := by
  obtain ⟨bound, hAnswer, hSame⟩ :=
    @compactFullSweep_answers env c db hState calls tokenBudget true hardTrigger
  refine ⟨bound + 1, fun fuel hFuel => ?_⟩
  obtain ⟨fuel, rfl⟩ : ∃ n, fuel = n + 1 := ⟨fuel - 1, by omega⟩
  rw [← hSame (fuel + 1) (by omega)] at hAnswer
  have hReady : Ready env c (.start db calls (db.getContextTokenCount c)) :=
    ⟨hState, hConversation, hFresh⟩
  have hProgress := sweepPhases_progress hReplies true (env.contextThreshold tokenBudget)
    hardTrigger fuel hReady
  have hNeRaised := sweepPhases_ne_raised hReplies true (env.contextThreshold tokenBudget)
    hardTrigger (fuel + 1) hReady
  revert hAnswer
  unfold compactFullSweep
  simp only [Bool.not_true, Bool.false_and, Bool.false_eq_true, if_false]
  intro hAnswer
  split
  · rename_i hEmpty
    have hNone : ¬ChunkHasText env.sourceText db env.config c := by
      rintro ⟨message, hMem, -⟩
      obtain ⟨before, after, hItems, -⟩ := selectOldestLeafChunk_spec db env.config c
      rw [hEmpty] at hItems
      have hChunk : (selectOldestLeafChunk db env.config c).items = [] := by
        have hBoth := List.append_eq_nil_iff.mp hItems.symm
        exact (List.append_eq_nil_iff.mp hBoth.1).2
      rw [hChunk] at hMem
      cases hMem
    exact ⟨_, rfl, iff_of_false (Nat.lt_irrefl _) hNone, fun h => absurd h hNone⟩
  · rename_i hItems
    rw [if_neg hItems] at hAnswer
    generalize sweepPhases true (env.contextThreshold tokenBudget) env c hardTrigger (fuel + 1)
      (.start db calls (db.getContextTokenCount c)) = run at *
    obtain ⟨s, stop⟩ := run
    cases stop with
    | none => cases hAnswer
    | some stop =>
      cases stop with
      | raised e => exact absurd rfl (hNeRaised e)
      | finished => exact ⟨_, rfl, hProgress⟩

/-- The sanitiser at work, and a summarizer with a single letter. -/
def oneLetterEnv : SweepEnv :=
  { config := { freshTailCount := 1 }
    contextThreshold := id
    sourceText := sanitizer id (fun _ _ => "now") fun _ => []
    summarize := fun _ _ _ _ => .text "x"
    summaryModel := none
    now := fun _ => 4
    generateSummaryId := fun n _ => String.ofList (List.replicate n 'a') }

theorem alwaysShortens_oneLetter : AlwaysShortens oneLetterEnv.summarize :=
  fun _ _ _ _ hLength => ⟨"x", rfl, by decide, Nat.lt_of_lt_of_le (by decide) hLength⟩

theorem freshIds_oneLetter {db : Db} (hNone : db.summaries = []) : FreshIds oneLetterEnv db 0 := by
  refine ⟨fun n content _ => ?_, fun n n' _ _ _ hLess hSame => ?_⟩
  · rw [hNone]
    exact List.not_mem_nil
  · have hLength := congrArg List.length (String.ofList_injective hSame)
    rw [List.length_replicate, List.length_replicate] at hLength
    omega

theorem forced_sweep_progress_threeTurns :
    ∃ bound, ∀ fuel, bound ≤ fuel → ∃ result,
      let run := compactFullSweep oneLetterEnv threeTurns 0 1 100 true false fuel
      run.answer = some (.ok result) ∧
        (rawCount run.state.db 1 < rawCount threeTurns 1 ↔
          ChunkHasText oneLetterEnv.sourceText threeTurns oneLetterEnv.config 1) ∧
        (ChunkHasText oneLetterEnv.sourceText threeTurns oneLetterEnv.config 1 →
          result.actionTaken = true) :=
  forced_sweep_progress_iff contextState_threeTurns (by decide) (freshIds_oneLetter rfl)
    alwaysShortens_oneLetter 100 false

/-- A tool result without prose, and a protected message. -/
def statusReply : Db :=
  { Db.empty with
    conversations := [⟨1, "s", none, true, 1⟩]
    messages := [⟨1, 1, 1, .tool, "\x7b\"ok\": true\x7d", 3, 1, none⟩,
      ⟨2, 1, 2, .user, "thanks", 2, 2, none⟩]
    contextItems := [⟨1, 0, .message 1⟩, ⟨1, 1, .message 2⟩]
    conversationSequence := 1
    messageSequence := 2 }

/-- The tool result stands in front of the fresh tail, and the sweep leaves it there. -/
theorem status_reply_stays :
    ContextState statusReply 1 ∧ (statusReply.getConversation 1).isSome ∧
      FreshIds oneLetterEnv statusReply 0 ∧ AlwaysShortens oneLetterEnv.summarize ∧
      0 < rawBeforeTail statusReply oneLetterEnv.config 1 ∧
      let run := compactFullSweep oneLetterEnv statusReply 0 1 100 true false 5
      run.answer = some (.ok { actionTaken := false, tokensBefore := 5, tokensAfter := 5
                               createdSummaryId := none, condensed := false, level := none
                               passesCompleted := 0 }) ∧
        run.state.db = statusReply := by
  refine ⟨⟨⟨⟨by decide, by decide⟩, by decide⟩, by decide⟩, by decide, freshIds_oneLetter rfl,
    alwaysShortens_oneLetter, by decide, ?_, ?_⟩
  · decide +kernel
  · decide +kernel

end LosslessHermes.Compaction
