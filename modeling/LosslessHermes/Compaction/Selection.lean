import LosslessHermes.Store.Summary
import LosslessHermes.Tokens
import Mathlib.Algebra.Group.Int.Defs

/-!
# Choosing what to compact

The chunk selectors of `CompactionEngine`. Both walk the context items by
ordinal below the protected fresh tail: `selectOldestLeafChunk` collects raw
messages, `selectOldestChunkAtDepth` summaries of one depth.

A selected chunk is a contiguous segment of the walked items, all of one kind; the
passes delete the range between its first and last ordinal.
-/

namespace LosslessHermes

namespace Compaction

/-- The part of `CompactionConfig` the two passes read. -/
structure CompactionConfig where
  leafChunkTokens : Option Int := some 20000
  freshTailCount : Int := 8
  freshTailMaxTokens : Option Int := none
  leafMinFanout : Int := 8
  condensedMinFanout : Int := 4
  condensedMinFanoutHard : Int := 2
  leafTargetTokens : Int := 600
  condensedTargetTokens : Int := 900
  timezone : String := "UTC"
  deriving DecidableEq, Repr

def defaultLeafChunkTokens : Int := 20000

/-- `sys.maxsize`: no item is in the fresh tail. -/
def emptyFreshTailOrdinal : Int := 2 ^ 63 - 1

def resolveLeafChunkTokens (config : CompactionConfig)
    (leafChunkTokensOverride : Option Int) : Int :=
  match leafChunkTokensOverride.filter (0 < ·), config.leafChunkTokens.filter (0 < ·) with
  | some n, _ => n
  | none, some n => n
  | none, none => defaultLeafChunkTokens

def resolveFreshTailCount (config : CompactionConfig) : Int :=
  if 0 < config.freshTailCount then config.freshTailCount else 0

def resolveFreshTailMaxTokens (config : CompactionConfig) : Option Int :=
  match config.freshTailMaxTokens with
  | some n => if 0 ≤ n then some n else none
  | none => none

def resolveLeafMinFanout (config : CompactionConfig) : Int :=
  if 0 < config.leafMinFanout then config.leafMinFanout else 8

def resolveCondensedMinFanout (config : CompactionConfig) : Int :=
  if 0 < config.condensedMinFanout then config.condensedMinFanout else 4

def resolveCondensedMinFanoutHard (config : CompactionConfig) : Int :=
  if 0 < config.condensedMinFanoutHard then config.condensedMinFanoutHard else 2

def resolveFanoutForDepth (config : CompactionConfig) (targetDepth : Nat)
    (hardTrigger : Bool) : Int :=
  if hardTrigger then resolveCondensedMinFanoutHard config
  else if targetDepth = 0 then resolveLeafMinFanout config
  else resolveCondensedMinFanout config

/-- `int(leaf_chunk_tokens * 0.1)` is the quotient by ten on every size below
`2 ^ 49`, where the product is rounded to the nearest double. -/
def resolveCondensedMinChunkTokens (config : CompactionConfig) : Int :=
  max config.condensedTargetTokens (resolveLeafChunkTokens config none / 10)

/-! ## Token counts -/

/-- `_resolve_message_token_count`. -/
def resolveMessageTokenCount (message : MessageRecord) : Nat :=
  if 0 < message.tokenCount then message.tokenCount else estimateTokens message.content

def getMessageTokenCount (db : Db) (messageId : MessageId) : Nat :=
  match db.getMessageById messageId true with
  | none => 0
  | some message => resolveMessageTokenCount message

def resolveSummaryTokenCount (summary : SummaryRecord) : Nat :=
  if 0 < summary.tokenCount then summary.tokenCount else estimateTokens summary.content

/-! ## The fresh tail -/

/-- The newest-to-oldest walk over raw messages given as `(ordinal, id)`. -/
def freshTailWalk (db : Db) (count : Int) (maxTokens : Option Int) :
    List (Int × MessageId) → Nat → Nat → Int → Int
  | [], _, _, tailStart => tailStart
  | (ordinal, messageId) :: rest, protectedCount, protectedTokens, tailStart =>
      if count ≤ protectedCount then tailStart
      else
        let messageTokens := getMessageTokenCount db messageId
        -- The newest message is protected whatever it costs.
        if 0 < protectedCount ∧ ∃ cap ∈ maxTokens, cap < protectedTokens + messageTokens then
          tailStart
        else
          freshTailWalk db count maxTokens rest (protectedCount + 1)
            (protectedTokens + messageTokens) ordinal

def resolveFreshTailOrdinal (db : Db) (config : CompactionConfig)
    (contextItems : List ContextItemRecord) : Int :=
  let count := resolveFreshTailCount config
  if count ≤ 0 then emptyFreshTailOrdinal
  else
    let rawMessageItems := contextItems.filterMap fun i =>
      match i.ref with
      | .message m => some (i.ordinal, m)
      | .summary _ => none
    freshTailWalk db count (resolveFreshTailMaxTokens config) rawMessageItems.reverse 0 0
      emptyFreshTailOrdinal

/-! ## The leaf chunk -/

structure LeafChunkSelection where
  items : List ContextItemRecord
  rawTokensOutsideTail : Nat
  threshold : Int

def rawTokensOutsideTail (db : Db) (freshTailOrdinal : Int) : List ContextItemRecord → Nat
  | [] => 0
  | item :: rest =>
      if freshTailOrdinal ≤ item.ordinal then 0
      else match item.ref with
        | .summary _ => rawTokensOutsideTail db freshTailOrdinal rest
        | .message m => getMessageTokenCount db m + rawTokensOutsideTail db freshTailOrdinal rest

def leafWalk (db : Db) (freshTailOrdinal threshold : Int) :
    List ContextItemRecord → Bool → List ContextItemRecord → Nat → List ContextItemRecord
  | [], _, chunk, _ => chunk
  | item :: rest, started, chunk, chunkTokens =>
      if freshTailOrdinal ≤ item.ordinal then chunk
      else match item.ref with
        | .summary _ =>
            if started then chunk
            else leafWalk db freshTailOrdinal threshold rest started chunk chunkTokens
        | .message m =>
            let messageTokens := getMessageTokenCount db m
            if chunk ≠ [] ∧ threshold < chunkTokens + messageTokens then chunk
            else if threshold ≤ chunkTokens + messageTokens then chunk ++ [item]
            else
              leafWalk db freshTailOrdinal threshold rest true (chunk ++ [item])
                (chunkTokens + messageTokens)

def selectOldestLeafChunk (db : Db) (config : CompactionConfig)
    (conversationId : ConversationId) (leafChunkTokensOverride : Option Int := none) :
    LeafChunkSelection :=
  let contextItems := db.getContextItems conversationId
  let freshTailOrdinal := resolveFreshTailOrdinal db config contextItems
  let threshold := resolveLeafChunkTokens config leafChunkTokensOverride
  { items := leafWalk db freshTailOrdinal threshold contextItems false [] 0
    rawTokensOutsideTail := rawTokensOutsideTail db freshTailOrdinal contextItems
    threshold := threshold }

/-! ## The chunk of one depth -/

structure CondensedChunkSelection where
  items : List ContextItemRecord
  summaryTokens : Nat

structure CondensedPhaseCandidate where
  targetDepth : Nat
  chunk : CondensedChunkSelection

def chunkWalk (db : Db) (targetDepth : Nat) (freshTailOrdinal budget : Int) :
    List ContextItemRecord → List ContextItemRecord → Nat → CondensedChunkSelection
  | [], chunk, tokens => ⟨chunk, tokens⟩
  | item :: rest, chunk, tokens =>
      if freshTailOrdinal ≤ item.ordinal then ⟨chunk, tokens⟩
      else
        let found := match item.ref with
          | .message _ => none
          | .summary s => (db.getSummary s).filter fun r => r.depth = targetDepth
        match found with
        | none =>
            -- A message, a missing row or another depth: skipped before the
            -- chunk has started, its end afterwards.
            if chunk ≠ [] then ⟨chunk, tokens⟩
            else chunkWalk db targetDepth freshTailOrdinal budget rest chunk tokens
        | some summary =>
            let tokenCount := resolveSummaryTokenCount summary
            if chunk ≠ [] ∧ budget < tokens + tokenCount then ⟨chunk, tokens⟩
            else if budget ≤ tokens + tokenCount then ⟨chunk ++ [item], tokens + tokenCount⟩
            else
              chunkWalk db targetDepth freshTailOrdinal budget rest (chunk ++ [item])
                (tokens + tokenCount)

def selectOldestChunkAtDepth (db : Db) (config : CompactionConfig)
    (conversationId : ConversationId) (targetDepth : Nat)
    (freshTailOverride : Option Int := none) : CondensedChunkSelection :=
  let contextItems := db.getContextItems conversationId
  let freshTailOrdinal :=
    freshTailOverride.getD (resolveFreshTailOrdinal db config contextItems)
  chunkWalk db targetDepth freshTailOrdinal (resolveLeafChunkTokens config none) contextItems [] 0

def selectShallowestCondensationCandidate (db : Db) (config : CompactionConfig)
    (conversationId : ConversationId) (hardTrigger : Bool := false) :
    Option CondensedPhaseCandidate :=
  let freshTailOrdinal :=
    resolveFreshTailOrdinal db config (db.getContextItems conversationId)
  let minChunkTokens := resolveCondensedMinChunkTokens config
  let depthLevels := db.getDistinctDepthsInContext conversationId
    (if freshTailOrdinal ≠ emptyFreshTailOrdinal then some freshTailOrdinal else none)
  depthLevels.findSome? fun targetDepth =>
    let chunk := selectOldestChunkAtDepth db config conversationId targetDepth freshTailOrdinal
    if (chunk.items.length : Int) < resolveFanoutForDepth config targetDepth hardTrigger then none
    else if (chunk.summaryTokens : Int) < minChunkTokens then none
    else some ⟨targetDepth, chunk⟩

/-! ## Chunks are contiguous segments -/

theorem leafWalk_spec (db : Db) (freshTailOrdinal threshold : Int)
    (items : List ContextItemRecord) (started : Bool) (chunk : List ContextItemRecord)
    (chunkTokens : Nat) :
    ∃ before segment after, items = before ++ segment ++ after ∧
      leafWalk db freshTailOrdinal threshold items started chunk chunkTokens =
        chunk ++ segment ∧
      (started = true → before = []) ∧ (∀ i ∈ before, ∃ s, i.ref = .summary s) ∧
      ∀ i ∈ segment, (∃ m, i.ref = .message m) ∧ i.ordinal < freshTailOrdinal := by
  induction items generalizing started chunk chunkTokens with
  | nil => exact ⟨[], [], [], rfl, by simp [leafWalk], fun _ => rfl, by simp, by simp⟩
  | cons item rest ih =>
    have hStop : ∃ before segment after, item :: rest = before ++ segment ++ after ∧
        chunk = chunk ++ segment ∧ (started = true → before = []) ∧
        (∀ i ∈ before, ∃ s, i.ref = .summary s) ∧
        ∀ i ∈ segment, (∃ m, i.ref = .message m) ∧ i.ordinal < freshTailOrdinal :=
      ⟨[], [], item :: rest, rfl, by simp, fun _ => rfl, by simp, by simp⟩
    unfold leafWalk
    split
    · exact hStop
    · rename_i hOutside
      have hBelow : item.ordinal < freshTailOrdinal := by omega
      split
      · rename_i s hRef
        split
        · exact hStop
        · rename_i hStarted
          obtain ⟨before, segment, after, hItems, hWalk, -, hBefore, hAll⟩ :=
            ih started chunk chunkTokens
          refine ⟨item :: before, segment, after, by simp [hItems], hWalk,
            fun h => absurd h hStarted, ?_, hAll⟩
          intro i hi
          rcases List.mem_cons.mp hi with rfl | hi
          · exact ⟨s, hRef⟩
          · exact hBefore i hi
      · rename_i m hRef
        dsimp only
        split
        · exact hStop
        · split
          · refine ⟨[], [item], rest, rfl, rfl, fun _ => rfl, by simp, ?_⟩
            intro i hi
            rw [List.mem_singleton.mp hi]
            exact ⟨⟨m, hRef⟩, hBelow⟩
          · obtain ⟨before, segment, after, hItems, hWalk, hBefore, -, hAll⟩ :=
              ih true (chunk ++ [item]) (chunkTokens + getMessageTokenCount db m)
            refine ⟨[], item :: segment, after, ?_, by simp [hWalk], fun _ => rfl, by simp, ?_⟩
            · simp [hItems, hBefore rfl]
            · intro i hi
              rcases List.mem_cons.mp hi with rfl | hi
              · exact ⟨⟨m, hRef⟩, hBelow⟩
              · exact hAll i hi

/-- The items of a chunk at one depth: summaries of that depth, each readable. -/
def AtDepth (db : Db) (depth : Nat) (item : ContextItemRecord) : Prop :=
  ∃ s record, item.ref = .summary s ∧ db.getSummary s = some record ∧ record.depth = depth

theorem chunkWalk_spec (db : Db) (targetDepth : Nat) (freshTailOrdinal budget : Int)
    (items chunk : List ContextItemRecord) (tokens : Nat) :
    ∃ before segment after, items = before ++ segment ++ after ∧
      (chunkWalk db targetDepth freshTailOrdinal budget items chunk tokens).items =
        chunk ++ segment ∧
      (chunk ≠ [] → before = []) ∧
      ∀ i ∈ segment, AtDepth db targetDepth i ∧ i.ordinal < freshTailOrdinal := by
  induction items generalizing chunk tokens with
  | nil => exact ⟨[], [], [], rfl, by simp [chunkWalk], fun _ => rfl, by simp⟩
  | cons item rest ih =>
    have hStop : ∃ before segment after, item :: rest = before ++ segment ++ after ∧
        chunk = chunk ++ segment ∧ (chunk ≠ [] → before = []) ∧
        ∀ i ∈ segment, AtDepth db targetDepth i ∧ i.ordinal < freshTailOrdinal :=
      ⟨[], [], item :: rest, rfl, by simp, fun _ => rfl, by simp⟩
    unfold chunkWalk
    split
    · exact hStop
    · rename_i hOutside
      dsimp only
      split
      · split
        · exact hStop
        · rename_i hEmpty
          obtain ⟨before, segment, after, hItems, hWalk, -, hAll⟩ := ih chunk tokens
          exact ⟨item :: before, segment, after, by simp [hItems], hWalk,
            fun h => absurd h hEmpty, hAll⟩
      · rename_i summary hFound
        have hItem : AtDepth db targetDepth item ∧ item.ordinal < freshTailOrdinal := by
          refine ⟨?_, by omega⟩
          cases hRef : item.ref with
          | message m => simp [hRef] at hFound
          | summary s =>
            simp only [hRef, Option.filter_eq_some_iff, decide_eq_true_eq] at hFound
            exact ⟨s, summary, hRef, hFound⟩
        split
        · exact hStop
        · split
          · refine ⟨[], [item], rest, rfl, rfl, fun _ => rfl, ?_⟩
            intro i hi
            exact List.mem_singleton.mp hi ▸ hItem
          · obtain ⟨before, segment, after, hItems, hWalk, hBefore, hAll⟩ :=
              ih (chunk ++ [item]) (tokens + resolveSummaryTokenCount summary)
            refine ⟨[], item :: segment, after, ?_, by simp [hWalk], fun _ => rfl, ?_⟩
            · simp [hItems, hBefore (by simp)]
            · intro i hi
              rcases List.mem_cons.mp hi with rfl | hi
              · exact hItem
              · exact hAll i hi

/-- The oldest leaf chunk: messages in front of the fresh tail, with nothing but
summaries before them. -/
theorem selectOldestLeafChunk_spec (db : Db) (config : CompactionConfig)
    (conversationId : ConversationId) :
    ∃ before after, db.getContextItems conversationId =
        before ++ (selectOldestLeafChunk db config conversationId).items ++ after ∧
      (∀ i ∈ before, ∃ s, i.ref = .summary s) ∧
      ∀ i ∈ (selectOldestLeafChunk db config conversationId).items, (∃ m, i.ref = .message m) ∧
        i.ordinal < resolveFreshTailOrdinal db config (db.getContextItems conversationId) := by
  obtain ⟨before, segment, after, hItems, hWalk, -, hBefore, hAll⟩ := leafWalk_spec db
    (resolveFreshTailOrdinal db config (db.getContextItems conversationId))
    (resolveLeafChunkTokens config none) (db.getContextItems conversationId) false [] 0
  have hChunk : (selectOldestLeafChunk db config conversationId).items = segment := hWalk
  exact ⟨before, after, hChunk ▸ hItems, hBefore, hChunk ▸ hAll⟩

theorem one_le_resolveFanoutForDepth (config : CompactionConfig) (targetDepth : Nat)
    (hardTrigger : Bool) : 1 ≤ resolveFanoutForDepth config targetDepth hardTrigger := by
  simp only [resolveFanoutForDepth, resolveCondensedMinFanoutHard, resolveLeafMinFanout,
    resolveCondensedMinFanout]
  split_ifs <;> omega

/-- A candidate is a nonempty contiguous chunk of one depth. -/
theorem selectShallowestCondensationCandidate_spec {db : Db} {config : CompactionConfig}
    {conversationId : ConversationId} {hardTrigger : Bool}
    {candidate : CondensedPhaseCandidate}
    (h : selectShallowestCondensationCandidate db config conversationId hardTrigger =
      some candidate) :
    candidate.chunk.items ≠ [] ∧
    (∃ before after, db.getContextItems conversationId =
      before ++ candidate.chunk.items ++ after) ∧
    ∀ i ∈ candidate.chunk.items, AtDepth db candidate.targetDepth i ∧
      i.ordinal < resolveFreshTailOrdinal db config (db.getContextItems conversationId) := by
  simp only [selectShallowestCondensationCandidate] at h
  obtain ⟨targetDepth, -, hSome⟩ := List.exists_of_findSome?_eq_some h
  split_ifs at hSome with hFanout hTokens
  obtain rfl := Option.some.inj hSome
  have hOne := one_le_resolveFanoutForDepth config targetDepth hardTrigger
  obtain ⟨before, segment, after, hItems, hWalk, -, hAll⟩ := chunkWalk_spec db targetDepth
    (resolveFreshTailOrdinal db config (db.getContextItems conversationId))
    (resolveLeafChunkTokens config none) (db.getContextItems conversationId) [] 0
  have hChunk : (selectOldestChunkAtDepth db config conversationId targetDepth
      (resolveFreshTailOrdinal db config (db.getContextItems conversationId))).items =
      segment := hWalk
  refine ⟨?_, ⟨before, after, hChunk ▸ hItems⟩, hChunk ▸ hAll⟩
  intro hEmpty
  dsimp only at hEmpty
  rw [hEmpty] at hFanout
  simp only [List.length_nil] at hFanout
  omega

end Compaction
end LosslessHermes
