import LosslessHermes.Compaction.Aggregates
import LosslessHermes.Migration.Backfill

/-!
# The backfills agree with the passes

A pass writes the columns of a summary when it inserts it, a backfill computes them
again from the links. In a state that only ingestion and the passes have built the
two agree.
-/

namespace LosslessHermes.Migration

open Compaction

variable {db : Db} {ingested : ConversationId → List MessageId} {c : ConversationId}

/-! ## The sources of a summary -/

/-- The links of a summary lead to the sources that the store reads. -/
theorem exists_parents (hLossless : Lossless db ingested) (s : SummaryId) :
    ∃ sources : List SummaryRecord, sources.Perm (db.getSummaryParents s) ∧
      parentsOf db.summaryParents s = sources.map (·.summaryId) := by
  refine ⟨_, ((Table.select_perm _).filterMap _).symm, ?_⟩
  have hFound : ∀ l ∈ db.summaryParents.filter fun l => l.summaryId = s,
      (db.getSummary l.parentSummaryId).map (·.summaryId) = some l.parentSummaryId := by
    intro l hl
    obtain ⟨-, record, hRecord⟩ := hLossless.summaries.parentLinks l (List.mem_filter.mp hl).1
    rw [hRecord, Option.map_some, (Db.mem_of_getSummary hRecord).2]
  rw [List.map_filterMap, List.filterMap_congr hFound, parentsOf, List.filterMap_eq_map']

/-- The edges that are selected for a summary are all of its edges. -/
theorem parentsOf_filter {p : SummaryParentLink → Bool} {s : SummaryId}
    (h : ∀ l ∈ db.summaryParents, l.summaryId = s → p l) :
    parentsOf (db.summaryParents.filter p) s = parentsOf db.summaryParents s := by
  unfold parentsOf
  rw [List.filter_filter]
  congr 1
  refine List.filter_congr fun l hl => ?_
  by_cases hId : l.summaryId = s
  · simp [hId, h l hl hId]
  · simp [hId]

theorem foldl_fixed {σ α : Type} {f : σ → α → σ} {s : σ} {actions : List α}
    (h : ∀ a ∈ actions, f s a = s) : actions.foldl f s = s := by
  induction actions with
  | nil => rfl
  | cons a rest ih =>
    rw [List.foldl_cons, h a List.mem_cons_self]
    exact ih fun b hb => h b (List.mem_cons_of_mem _ hb)

theorem rows_fixed {f : SummaryRecord → SummaryRecord} (h : ∀ r ∈ db.summaries, f r = r) :
    { db with summaries := db.summaries.map f } = db := by
  have hSame : db.summaries.map f = db.summaries :=
    (List.map_congr_left h).trans (List.map_id' db.summaries)
  rw [hSame]

theorem mem_of_lookup {α : Type} {entries : List (SummaryId × α)} {s : SummaryId} {a : α}
    (h : entries.lookup s = some a) : (s, a) ∈ entries := by
  obtain ⟨before, after, rfl, -⟩ := List.lookup_eq_some_iff.mp h
  exact List.mem_append_right _ List.mem_cons_self

/-! ## The depths -/

/-- What the map has is what the rows have. -/
def Right (db : Db) (depths : DepthMap) : Prop :=
  ∀ s d, depths.lookup s = some d → ∃ r, db.getSummary s = some r ∧ r.depth = d

/-- A condensed summary of the conversation. -/
def IsCondensed (db : Db) (c : ConversationId) (s : SummaryId) : Prop :=
  ∃ r ∈ db.summaries, r.summaryId = s ∧ r.conversationId = c ∧ r.kind = .condensed

theorem Right.cons {depths : DepthMap} (h : Right db depths) {s : SummaryId} {d : Nat}
    (hNew : ∃ r, db.getSummary s = some r ∧ r.depth = d) : Right db ((s, d) :: depths) := by
  intro t e hLookup
  rw [List.lookup_cons] at hLookup
  split at hLookup
  · rename_i hSame
    obtain rfl := Option.some.inj hLookup
    rw [eq_of_beq hSame]
    exact hNew
  · exact h t e hLookup

theorem exists_maxParentDepth {depths : DepthMap} {ids : List SummaryId} (high : Nat)
    (h : ∀ p ∈ ids, (depths.lookup p).isSome) : ∃ d, maxParentDepth depths high ids = some d := by
  induction ids generalizing high with
  | nil => exact ⟨high, rfl⟩
  | cons p rest ih =>
    obtain ⟨d, hd⟩ := Option.isSome_iff_exists.mp (h p List.mem_cons_self)
    rw [maxParentDepth, hd]
    exact ih (max high d) fun q hq => h q (List.mem_cons_of_mem _ hq)

/-- Sources of one level have that level as their greatest depth. -/
theorem maxParentDepth_level {depths : DepthMap} {ids : List SummaryId} {high level d : Nat}
    (hNe : ids ≠ []) (hHigh : high ≤ level)
    (hLevel : ∀ p ∈ ids, ∀ e, depths.lookup p = some e → e = level)
    (h : maxParentDepth depths high ids = some d) : d = level := by
  induction ids generalizing high with
  | nil => exact absurd rfl hNe
  | cons p rest ih =>
    rw [maxParentDepth] at h
    split at h
    · cases h
    · rename_i e hFound
      obtain rfl := hLevel p List.mem_cons_self e hFound
      rw [Nat.max_eq_right hHigh] at h
      cases rest with
      | nil => exact (Option.some.inj h).symm
      | cons q rest =>
        exact ih (List.cons_ne_nil _ _) (Nat.le_refl _)
          (fun p hp => hLevel p (List.mem_cons_of_mem _ hp)) h

section Depths

variable (hLossless : Lossless db ingested) (hRooted : Rooted db)
include hLossless hRooted

variable {s : SummaryId}

/-- The rows behind a condensed summary and its edges. -/
theorem exists_sources (hs : IsCondensed db c s) :
    ∃ r sources level, db.getSummary s = some r ∧ OfSummaries db r sources level ∧
      (parentsOf (condensedEdges db c) s).Perm (sources.map (·.summaryId)) ∧
      ∀ p ∈ sources, db.getSummary p.summaryId = some p ∧ p.conversationId = c := by
  obtain ⟨r, hr, rfl, rfl, hKind⟩ := hs
  have hFound := hRooted.getSummary_of_mem hr
  cases hRooted.rows _ r hFound with
  | leaf messages h =>
    rw [h.kind] at hKind
    cases hKind
  | condensed sources level h =>
    refine ⟨r, sources, level, hFound, h, ?_, fun p hp => ⟨?_, h.home p hp⟩⟩
    · have hEdges : parentsOf (condensedEdges db r.conversationId) r.summaryId =
          parentsOf db.summaryParents r.summaryId := by
        apply parentsOf_filter
        intro l _ hId
        exact List.any_eq_true.mpr ⟨r, hr, by simp [hId, hKind]⟩
      obtain ⟨ordered, hPerm, hIds⟩ := exists_parents hLossless r.summaryId
      rw [hEdges, hIds, ← h.parents]
      exact hPerm.map _
    · exact getSummary_of_mem_parents (h.parents ▸ hp)

variable {depths : DepthMap}

/-- A summary that is resolved is given the depth of its row. -/
theorem resolvedDepth_right (hRight : Right db depths) (hs : IsCondensed db c s) {d : Nat}
    (h : resolvedDepth depths (parentsOf (condensedEdges db c) s) = some d) :
    ∃ r, db.getSummary s = some r ∧ r.depth = d := by
  obtain ⟨r, sources, level, hFound, hOf, hPerm, hSources⟩ := exists_sources hLossless hRooted hs
  refine ⟨r, hFound, hOf.depth.trans ?_⟩
  have hNe : parentsOf (condensedEdges db c) s ≠ [] := by
    intro hNil
    rw [hNil] at hPerm
    exact hOf.ne (List.map_eq_nil_iff.mp hPerm.symm.eq_nil)
  rw [resolvedDepth, if_neg hNe] at h
  obtain ⟨e, hMax, rfl⟩ := Option.map_eq_some_iff.mp h
  congr 1
  refine (maxParentDepth_level hNe (Nat.zero_le level) (fun p hp e he => ?_) hMax).symm
  obtain ⟨source, hSource, rfl⟩ := List.mem_map.mp (hPerm.mem_iff.mp hp)
  obtain ⟨found, hSame, rfl⟩ := hRight _ e he
  rw [(hSources source hSource).1] at hSame
  rw [← Option.some.inj hSame]
  exact hOf.level source hSource

theorem sweep_spec {todo : List SummaryId} (hTodo : ∀ s ∈ todo, IsCondensed db c s)
    (hRight : Right db depths) :
    Right db (sweep (condensedEdges db c) todo depths).1 ∧
      (∀ s, (depths.lookup s).isSome →
        ((sweep (condensedEdges db c) todo depths).1.lookup s).isSome) ∧
      (∀ s ∈ todo, s ∈ (sweep (condensedEdges db c) todo depths).2 ∨
        ((sweep (condensedEdges db c) todo depths).1.lookup s).isSome) ∧
      (sweep (condensedEdges db c) todo depths).2.Sublist todo := by
  induction todo generalizing depths with
  | nil => exact ⟨hRight, fun s hs => hs, (fun s hs => nomatch hs), .slnil⟩
  | cons first rest ih =>
    have hRest := fun s hs => hTodo s (List.mem_cons_of_mem _ hs)
    rw [sweep]
    split
    · rename_i depth hResolved
      have hStep := hRight.cons (resolvedDepth_right hLossless hRooted hRight
        (hTodo first List.mem_cons_self) hResolved)
      obtain ⟨hAfter, hKept, hDone, hLeft⟩ := ih hRest hStep
      have hNew : ∀ s, (depths.lookup s).isSome ∨ s = first →
          (((first, depth) :: depths).lookup s).isSome := by
        intro s hs
        rw [List.lookup_cons]
        split
        · rfl
        · rename_i hOther
          rcases hs with hs | rfl
          · exact hs
          · simp at hOther
      refine ⟨hAfter, fun s hs => hKept s (hNew s (Or.inl hs)), fun s hs => ?_, hLeft.cons _⟩
      rcases List.mem_cons.mp hs with rfl | hs
      · exact Or.inr (hKept s (hNew s (Or.inr rfl)))
      · exact hDone s hs
    · obtain ⟨hAfter, hKept, hDone, hLeft⟩ := ih hRest hRight
      refine ⟨hAfter, hKept, fun s hs => ?_, hLeft.cons_cons _⟩
      rcases List.mem_cons.mp hs with rfl | hs
      · exact Or.inl List.mem_cons_self
      · exact (hDone s hs).imp (List.mem_cons_of_mem _) id

/-- A summary whose sources all have a depth does not stay unresolved. -/
theorem sweep_progress {todo : List SummaryId} (hTodo : ∀ s ∈ todo, IsCondensed db c s)
    (hRight : Right db depths) (hs : s ∈ todo)
    (hReady : ∀ p ∈ parentsOf (condensedEdges db c) s, (depths.lookup p).isSome) :
    (sweep (condensedEdges db c) todo depths).2.length < todo.length := by
  induction todo with
  | nil => cases hs
  | cons first rest ih =>
    have hRest := fun s hs => hTodo s (List.mem_cons_of_mem _ hs)
    rw [sweep]
    split
    · rename_i depth hResolved
      have hStep := hRight.cons (resolvedDepth_right hLossless hRooted hRight
        (hTodo first List.mem_cons_self) hResolved)
      have hLeft := (sweep_spec hLossless hRooted hRest hStep).2.2.2.length_le
      exact Nat.lt_succ_of_le hLeft
    · rename_i hStuck
      rcases List.mem_cons.mp hs with rfl | hs
      · obtain ⟨d, hd⟩ := exists_maxParentDepth 0 hReady
        unfold resolvedDepth at hStuck
        split at hStuck
        · cases hStuck
        · rw [hd] at hStuck
          cases hStuck
      · exact Nat.succ_lt_succ (ih hRest hs)

/-- While something is unresolved, a summary of least depth has resolved sources. -/
theorem exists_ready {unresolved : List SummaryId} (hTodo : ∀ s ∈ unresolved, IsCondensed db c s)
    (hCover : ∀ r ∈ db.summaries, r.conversationId = c →
      (depths.lookup r.summaryId).isSome ∨ r.summaryId ∈ unresolved)
    (hNe : unresolved ≠ []) : ∃ s ∈ unresolved,
      ∀ p ∈ parentsOf (condensedEdges db c) s, (depths.lookup p).isSome := by
  obtain ⟨s, hs⟩ := List.exists_mem_of_ne_nil _ hNe
  obtain ⟨depth, hDepth⟩ : ∃ depth, (db.getSummary s).map (·.depth) = depth := ⟨_, rfl⟩
  obtain ⟨r, hr, hId, -⟩ := hTodo s hs
  rw [← hId, hRooted.getSummary_of_mem hr] at hDepth
  clear hDepth
  -- from an unresolved source to its own sources, the depth decreases
  induction hLevel : r.depth using Nat.strongRecOn generalizing r s with
  | _ level ih =>
    by_cases hReady : ∀ p ∈ parentsOf (condensedEdges db c) s, (depths.lookup p).isSome
    · exact ⟨s, hs, hReady⟩
    obtain ⟨p, hp, hMissing⟩ : ∃ p ∈ parentsOf (condensedEdges db c) s,
        ¬ (depths.lookup p).isSome := by
      by_contra hNone
      exact hReady fun p hp => by_contra fun hMissing => hNone ⟨p, hp, hMissing⟩
    obtain ⟨found, sources, below, hFound, hOf, hPerm, hSources⟩ :=
      exists_sources hLossless hRooted (hTodo s hs)
    obtain ⟨source, hSource, rfl⟩ := List.mem_map.mp (hPerm.mem_iff.mp hp)
    obtain ⟨hStored, hHome⟩ := hSources source hSource
    have hMem := (Db.mem_of_getSummary hStored).1
    rw [← hId, hRooted.getSummary_of_mem hr] at hFound
    obtain rfl := Option.some.inj hFound
    refine ih source.depth ?_ source.summaryId ?_ source hMem rfl rfl
    · rw [hOf.level source hSource, ← hLevel, hOf.depth]
      exact Nat.lt_succ_self _
    · exact (hCover source hMem hHome).resolve_left hMissing

theorem right_resolveDepths (order : SetOrder) {unresolved : List SummaryId}
    (hTodo : ∀ s ∈ unresolved, IsCondensed db c s)
    (hCover : ∀ r ∈ db.summaries, r.conversationId = c →
      (depths.lookup r.summaryId).isSome ∨ r.summaryId ∈ unresolved) (hRight : Right db depths) :
    Right db (resolveDepths order (condensedEdges db c) unresolved depths) := by
  induction hLength : unresolved.length using Nat.strongRecOn generalizing unresolved depths with
  | _ length ih =>
    rw [resolveDepths]
    split
    · exact hRight
    · rename_i hNe
      have hOrder := order.perm unresolved
      have hTodo' : ∀ s ∈ order.list unresolved, IsCondensed db c s :=
        fun s hs => hTodo s (hOrder.mem_iff.mp hs)
      obtain ⟨hAfter, hKept, hDone, hLeft⟩ := sweep_spec hLossless hRooted hTodo' hRight
      obtain ⟨s, hs, hReady⟩ := exists_ready hLossless hRooted hTodo hCover hNe
      have hShorter := sweep_progress hLossless hRooted hTodo' hRight (hOrder.mem_iff.mpr hs)
        hReady
      rw [hOrder.length_eq] at hShorter
      dsimp only
      rw [if_pos hShorter]
      refine ih _ (hLength ▸ hShorter) (fun s hs => hTodo' s (hLeft.subset hs)) ?_ hAfter rfl
      intro r hr hc
      rcases hCover r hr hc with hKnown | hOpen
      · exact Or.inl (hKept _ hKnown)
      · exact (hDone _ (hOrder.mem_iff.mpr hOpen)).symm

omit hLossless in
theorem resetLeafDepths_eq : resetLeafDepths db = db := by
  refine rows_fixed fun r hr => ?_
  unfold withLeafDepth
  split
  · rename_i hKind
    cases hRooted.rows _ r (hRooted.getSummary_of_mem hr) with
    | leaf messages h => rw [← h.depth]
    | condensed sources level h =>
      rw [h.kind] at hKind
      cases hKind
  · rfl

theorem right_conversationDepths (order : SetOrder) (c : ConversationId) :
    Right db (conversationDepths order db c) := by
  unfold conversationDepths
  apply right_resolveDepths hLossless hRooted order
  · intro s hs
    obtain ⟨r, hr, rfl⟩ := List.mem_map.mp hs
    simp only [List.mem_filter, decide_eq_true_eq] at hr
    exact ⟨r, hr.1.1, rfl, hr.1.2, hr.2⟩
  · intro r hr hc
    cases hKind : r.kind with
    | leaf =>
      refine Or.inl (List.lookup_isSome_iff.mpr ⟨(r.summaryId, 0), ?_, beq_self_eq_true _⟩)
      exact List.mem_map.mpr ⟨r, by simp [hr, hc, hKind], rfl⟩
    | condensed => exact Or.inr (List.mem_map.mpr ⟨r, by simp [hr, hc, hKind], rfl⟩)
  · intro s d hLookup
    obtain ⟨r, hr, hPair⟩ := List.mem_map.mp (mem_of_lookup hLookup)
    obtain ⟨rfl, rfl⟩ := Prod.mk.inj hPair
    simp only [List.mem_filter, decide_eq_true_eq] at hr
    have hFound := hRooted.getSummary_of_mem hr.1.1
    refine ⟨r, hFound, ?_⟩
    cases hRooted.rows _ r hFound with
    | leaf messages h => exact h.depth
    | condensed sources level h =>
      rw [h.kind] at hr
      cases hr.2

/-- The first backfill finds every depth as it is. -/
theorem backfillSummaryDepths_eq (order : SetOrder) : backfillSummaryDepths order db = db := by
  unfold backfillSummaryDepths
  dsimp only
  rw [resetLeafDepths_eq hRooted]
  refine foldl_fixed fun c _ => rows_fixed fun r hr => ?_
  unfold withDepth
  split
  · split
    · rename_i depth hLookup
      obtain ⟨found, hFound, rfl⟩ :=
        right_conversationDepths hLossless hRooted order c _ _ hLookup
      rw [hRooted.getSummary_of_mem hr] at hFound
      rw [← Option.some.inj hFound]
    · rfl
  · rfl

end Depths

/-! ## The metadata -/

/-- The columns of a row. -/
def metadataOf (r : SummaryRecord) : SummaryMetadata :=
  ⟨r.earliestAt.getD r.createdAt, r.latestAt.getD r.createdAt, r.descendantCount,
    r.descendantTokenCount, r.sourceMessageTokenCount⟩

def RightMetadata (db : Db) (metadata : MetadataMap) : Prop :=
  ∀ s m, metadata.lookup s = some m → ∃ r, db.getSummary s = some r ∧ m = metadataOf r

theorem min?_perm {xs ys : List Nat} (h : xs.Perm ys) : xs.min? = ys.min? := by
  ext a
  rw [List.min?_eq_some_iff, List.min?_eq_some_iff]
  simp only [h.mem_iff]

theorem max?_perm {xs ys : List Nat} (h : xs.Perm ys) : xs.max? = ys.max? := by
  ext a
  rw [List.max?_eq_some_iff, List.max?_eq_some_iff]
  simp only [h.mem_iff]

/-- A loop that keeps the better one of the best time so far and the next. -/
theorem foldl_best {keep : Option Timestamp → Timestamp → Option Timestamp}
    {better : Timestamp → Timestamp → Timestamp} (hFirst : ∀ time, keep none time = some time)
    (hNext : ∀ t time, keep (some t) time = some (better t time)) (time : Timestamp)
    (rest : List Timestamp) : (time :: rest).foldl keep none = some (rest.foldl better time) := by
  rw [List.foldl_cons, hFirst]
  induction rest generalizing time with
  | nil => rfl
  | cons next rest ih => rw [List.foldl_cons, List.foldl_cons, hNext, ih]

theorem earlier_some (t time : Timestamp) : earlier (some t) time = some (min t time) := by
  unfold earlier
  dsimp only
  split
  · rename_i hLess
    rw [Nat.min_eq_right (Nat.le_of_lt hLess)]
  · rename_i hLess
    rw [Nat.min_eq_left (Nat.le_of_not_lt hLess)]

theorem later_some (t time : Timestamp) : later (some t) time = some (max t time) := by
  unfold later
  dsimp only
  split
  · rename_i hLess
    rw [Nat.max_eq_right (Nat.le_of_lt hLess)]
  · rename_i hLess
    rw [Nat.max_eq_left (Nat.le_of_not_lt hLess)]

theorem foldl_earlier (times : List Timestamp) : times.foldl earlier none = times.min? := by
  cases times with
  | nil => rfl
  | cons time rest =>
    exact (foldl_best (fun _ => rfl) earlier_some time rest).trans List.min?_cons'.symm

theorem foldl_later (times : List Timestamp) : times.foldl later none = times.max? := by
  cases times with
  | nil => rfl
  | cons time rest =>
    exact (foldl_best (fun _ => rfl) later_some time rest).trans List.max?_cons'.symm

/-- The loop over sources whose metadata is known. -/
theorem foldl_addSource {metadata : MetadataMap} {tokenCount : SummaryId → Nat}
    {sources : List SummaryRecord}
    (hKnown : ∀ p ∈ sources, metadata.lookup p.summaryId = some (metadataOf p))
    (hTokens : ∀ p ∈ sources, tokenCount p.summaryId = p.tokenCount) (rollup : Rollup) :
    (sources.map (·.summaryId)).foldl (addSource metadata tokenCount) rollup =
      { earliestAt := (sources.map fun p => p.earliestAt.getD p.createdAt).foldl earlier
          rollup.earliestAt
        latestAt := (sources.map fun p => p.latestAt.getD p.createdAt).foldl later rollup.latestAt
        descendantCount :=
          rollup.descendantCount + (sources.map fun p => p.descendantCount + 1).sum
        descendantTokenCount := rollup.descendantTokenCount +
          (sources.map fun p => p.descendantTokenCount + p.tokenCount).sum
        sourceMessageTokenCount := rollup.sourceMessageTokenCount +
          (sources.map (·.sourceMessageTokenCount)).sum } := by
  induction sources generalizing rollup with
  | nil => rfl
  | cons p rest ih =>
    have hStep : addSource metadata tokenCount rollup p.summaryId =
        { earliestAt := earlier rollup.earliestAt (p.earliestAt.getD p.createdAt)
          latestAt := later rollup.latestAt (p.latestAt.getD p.createdAt)
          descendantCount := rollup.descendantCount + (p.descendantCount + 1)
          descendantTokenCount :=
            rollup.descendantTokenCount + (p.tokenCount + p.descendantTokenCount)
          sourceMessageTokenCount :=
            rollup.sourceMessageTokenCount + p.sourceMessageTokenCount } := by
      rw [addSource, hKnown p List.mem_cons_self, hTokens p List.mem_cons_self]
      rfl
    rw [List.map_cons, List.foldl_cons, hStep, ih
      (fun q hq => hKnown q (List.mem_cons_of_mem _ hq))
      fun q hq => hTokens q (List.mem_cons_of_mem _ hq)]
    simp only [List.map_cons, List.foldl_cons, List.sum_cons, Rollup.mk.injEq, true_and]
    refine ⟨?_, ?_, ?_⟩ <;> omega

variable {r : SummaryRecord}

/-- The messages of a leaf, in the order of the join. -/
theorem joinedMessages_perm {messages : List MessageRecord}
    (h : OfMessages db r messages) : (joinedMessages db r.summaryId).Perm messages := by
  have hSelected : messages =
      (Table.select (fun l : SummaryMessageLink => l.summaryId = r.summaryId)
      (·.ordinal) db.summaryMessages).filterMap fun l => db.getMessageById l.messageId true := by
    have hIds : (messages.map (·.messageId)).filterMap (fun m => db.getMessageById m true) =
        messages := by
      rw [List.filterMap_map]
      refine (List.filterMap_congr fun m hm => ?_).trans List.filterMap_some
      exact h.stored m hm
    rw [← h.ids, Db.getSummaryMessages, List.filterMap_map] at hIds
    exact hIds.symm
  rw [hSelected]
  exact ((Table.select_perm _).filterMap _).symm

theorem leafMetadata_eq {messages : List MessageRecord}
    (hEstimated : ∀ m ∈ db.messages, m.tokenCount = estimateTokens m.content)
    (h : OfMessages db r messages) : leafMetadata db r = metadataOf r := by
  have hPerm := joinedMessages_perm h
  have hTokens : ∀ m ∈ messages, resolveMessageTokenCount m = m.tokenCount := by
    intro m hm
    have hEstimate := hEstimated m (List.mem_of_find?_eq_some (h.stored m hm))
    unfold resolveMessageTokenCount
    split <;> omega
  unfold leafMetadata metadataOf
  dsimp only
  rw [min?_perm (hPerm.map _), max?_perm (hPerm.map _), (hPerm.map _).sum_eq, h.earliestAt,
    h.latestAt, h.descendantCount, h.descendantTokenCount, h.sourceMessageTokenCount,
    List.map_congr_left hTokens]

theorem condensedMetadata_eq {metadata : MetadataMap} {tokenCount : SummaryId → Nat}
    {sources ordered : List SummaryRecord} {level : Nat}
    (h : OfSummaries db r sources level) (hPerm : ordered.Perm sources)
    (hKnown : ∀ p ∈ sources, metadata.lookup p.summaryId = some (metadataOf p))
    (hTokens : ∀ p ∈ sources, tokenCount p.summaryId = p.tokenCount) :
    condensedMetadata metadata tokenCount (ordered.map (·.summaryId)) r = metadataOf r := by
  unfold condensedMetadata metadataOf
  rw [foldl_addSource (fun p hp => hKnown p (hPerm.mem_iff.mp hp))
    fun p hp => hTokens p (hPerm.mem_iff.mp hp)]
  dsimp only
  rw [foldl_earlier, foldl_later, min?_perm (hPerm.map _), max?_perm (hPerm.map _),
    (hPerm.map _).sum_eq, (hPerm.map _).sum_eq, (hPerm.map _).sum_eq, Nat.zero_add, Nat.zero_add,
    Nat.zero_add, h.earliestAt, h.latestAt, h.descendantCount, h.descendantTokenCount,
    h.sourceMessageTokenCount]

/-- The dates of a summary are never missing. -/
theorem Rooted.dates (hRooted : Rooted db) (hr : r ∈ db.summaries) :
    some (r.earliestAt.getD r.createdAt) = r.earliestAt ∧
      some (r.latestAt.getD r.createdAt) = r.latestAt := by
  have hSome : ∀ {value : Option Timestamp} {times : List Timestamp}, value = times.min? ∨
      value = times.max? → times ≠ [] → some (value.getD r.createdAt) = value := by
    intro value times hValue hNe
    have hIsSome : value.isSome := by
      rcases hValue with rfl | rfl
      · exact List.isSome_min?_of_ne_nil hNe
      · exact List.isSome_max?_of_ne_nil hNe
    obtain ⟨t, rfl⟩ := Option.isSome_iff_exists.mp hIsSome
    rfl
  cases hRooted.rows _ r (hRooted.getSummary_of_mem hr) with
  | leaf messages h =>
    have hNe : messages.map (·.createdAt) ≠ [] := List.map_eq_nil_iff.not.mpr h.ne
    exact ⟨hSome (Or.inl h.earliestAt) hNe, hSome (Or.inr h.latestAt) hNe⟩
  | condensed sources level h =>
    exact ⟨hSome (Or.inl h.earliestAt) (List.map_eq_nil_iff.not.mpr h.ne),
      hSome (Or.inr h.latestAt) (List.map_eq_nil_iff.not.mpr h.ne)⟩

section Metadata

variable (hLossless : Lossless db ingested) (hRooted : Rooted db)
  (hEstimated : ∀ m ∈ db.messages, m.tokenCount = estimateTokens m.content)
include hLossless hRooted hEstimated

/-- The walk by depth meets a summary after all of its sources, so its row is computed again. -/
theorem addMetadata_eq {summaries visited rest : List SummaryRecord} {r : SummaryRecord}
    (hMem : ∀ r, r ∈ summaries ↔ r ∈ db.summaries ∧ r.conversationId = c)
    (hSorted : summaries.Pairwise fun a b => a.depth ≤ b.depth)
    (hAll : summaries = visited ++ r :: rest) {edges : List SummaryParentLink}
    (hEdges : parentsOf edges r.summaryId = parentsOf db.summaryParents r.summaryId)
    {metadata : MetadataMap} (hRight : RightMetadata db metadata)
    (hVisited : ∀ r ∈ visited, (metadata.lookup r.summaryId).isSome) :
    addMetadata db summaries edges metadata r = (r.summaryId, metadataOf r) :: metadata := by
  have hr : r ∈ summaries := hAll ▸ List.mem_append_right _ List.mem_cons_self
  unfold addMetadata
  cases hRooted.rows _ r (hRooted.getSummary_of_mem ((hMem r).mp hr).1) with
  | leaf messages h => rw [h.kind, leafMetadata_eq hEstimated h]
  | condensed sources level h =>
    obtain ⟨ordered, hPerm, hIds⟩ := exists_parents hLossless r.summaryId
    rw [h.parents] at hPerm
    have hStored : ∀ p ∈ sources, db.getSummary p.summaryId = some p := fun p hp =>
      getSummary_of_mem_parents (h.parents ▸ hp)
    have hListed : ∀ p ∈ sources, p ∈ summaries := fun p hp => (hMem p).mpr
      ⟨(Db.mem_of_getSummary (hStored p hp)).1, (h.home p hp).trans ((hMem r).mp hr).2⟩
    have hBefore : ∀ p ∈ sources, p ∈ visited := by
      intro p hp
      have hIn := hListed p hp
      rw [hAll] at hIn hSorted
      refine (List.mem_append.mp hIn).resolve_right fun hLater => ?_
      have hLess : p.depth < r.depth := by
        rw [h.level p hp, h.depth]
        exact Nat.lt_succ_self _
      rcases List.mem_cons.mp hLater with rfl | hLater
      · exact Nat.lt_irrefl _ hLess
      · have hLe := (List.pairwise_cons.mp (List.pairwise_append.mp hSorted).2.1).1 p hLater
        omega
    have hKnown : ∀ p ∈ sources, metadata.lookup p.summaryId = some (metadataOf p) := by
      intro p hp
      obtain ⟨m, hm⟩ := Option.isSome_iff_exists.mp (hVisited p (hBefore p hp))
      obtain ⟨found, hSame, rfl⟩ := hRight _ m hm
      rw [hStored p hp] at hSame
      rw [hm, Option.some.inj hSame]
    have hTokens : ∀ p ∈ sources, tokenCountOf summaries p.summaryId = p.tokenCount := by
      intro p hp
      have hFind : summaries.find? (fun r => r.summaryId = p.summaryId) = some p := by
        refine Table.find_of_unique (hListed p hp) (decide_eq_true rfl) fun q hq hTest => ?_
        exact List.inj_on_of_nodup_map hRooted.unique ((hMem q).mp hq).1
          ((hMem p).mp (hListed p hp)).1 (of_decide_eq_true hTest)
      rw [tokenCountOf, hFind]
      rfl
    rw [h.kind, hEdges, hIds]
    dsimp only
    rw [condensedMetadata_eq h hPerm hKnown hTokens]

theorem rightMetadata_foldl {summaries : List SummaryRecord}
    (hMem : ∀ r, r ∈ summaries ↔ r ∈ db.summaries ∧ r.conversationId = c)
    (hSorted : summaries.Pairwise fun a b => a.depth ≤ b.depth) {edges : List SummaryParentLink}
    (hEdges : ∀ r ∈ summaries,
      parentsOf edges r.summaryId = parentsOf db.summaryParents r.summaryId)
    (visited rest : List SummaryRecord) (hAll : summaries = visited ++ rest)
    {metadata : MetadataMap} (hRight : RightMetadata db metadata)
    (hVisited : ∀ r ∈ visited, (metadata.lookup r.summaryId).isSome) :
    RightMetadata db (rest.foldl (addMetadata db summaries edges) metadata) := by
  induction rest generalizing visited metadata with
  | nil => exact hRight
  | cons r rest ih =>
    have hr : r ∈ summaries := hAll ▸ List.mem_append_right _ List.mem_cons_self
    rw [List.foldl_cons, addMetadata_eq hLossless hRooted hEstimated hMem hSorted hAll
      (hEdges r hr) hRight hVisited]
    refine ih (visited ++ [r]) (by rw [hAll, List.append_assoc]; rfl) ?_ ?_
    · intro s m hLookup
      rw [List.lookup_cons] at hLookup
      split at hLookup
      · rename_i hSame
        rw [eq_of_beq hSame]
        exact ⟨r, hRooted.getSummary_of_mem ((hMem r).mp hr).1, (Option.some.inj hLookup).symm⟩
      · exact hRight s m hLookup
    · intro q hq
      rw [List.lookup_cons]
      split
      · rfl
      · rename_i hOther
        rcases List.mem_append.mp hq with hq | hq
        · exact hVisited q hq
        · rw [List.mem_singleton.mp hq] at hOther
          simp at hOther

theorem rightMetadata_conversation (c : ConversationId) :
    RightMetadata db (conversationMetadata db c) := by
  unfold conversationMetadata
  dsimp only
  generalize hAll : Table.select (fun s => s.conversationId = c)
    (fun s : SummaryRecord => toLex (s.depth, s.createdAt)) db.summaries = summaries
  refine rightMetadata_foldl (c := c) hLossless hRooted hEstimated (fun r => ?_) ?_ (fun r hr => ?_)
    [] _ rfl (fun s m hm => nomatch hm) fun r hr => nomatch hr
  all_goals subst hAll
  · rw [List.nil_append, Table.mem_select, decide_eq_true_eq]
  · refine (Table.select_pairwise_le _).imp fun hLe => ?_
    rcases Prod.Lex.toLex_le_toLex.mp hLe with hLt | ⟨hEq, -⟩
    · exact le_of_lt hLt
    · exact le_of_eq hEq
  · obtain ⟨hStored, hHome⟩ := Table.mem_select.mp hr
    apply parentsOf_filter
    intro l _ hId
    exact List.any_eq_true.mpr ⟨r, hStored, by simp [hId, of_decide_eq_true hHome]⟩

/-- The second backfill finds every column as it is. -/
theorem backfillSummaryMetadata_eq : backfillSummaryMetadata db = db := by
  unfold backfillSummaryMetadata
  refine foldl_fixed fun c _ => rows_fixed fun r hr => ?_
  unfold withMetadata
  split
  · split
    · rename_i found hLookup
      obtain ⟨stored, hStored, rfl⟩ :=
        rightMetadata_conversation hLossless hRooted hEstimated c _ _ hLookup
      rw [hRooted.getSummary_of_mem hr] at hStored
      obtain rfl := Option.some.inj hStored
      obtain ⟨hEarliest, hLatest⟩ := Rooted.dates hRooted hr
      unfold metadataOf
      dsimp only
      rw [hEarliest, hLatest]
    · rfl
  · rfl

end Metadata

/-- In every reachable state the two backfills change nothing, nor do they when they are
run again, in whatever order Python walks through its sets. -/
theorem backfills_change_nothing (conversations : List ConversationRecord) (events : List Event)
    (hEvents : ∀ event ∈ events, event.Estimated) (order order' : SetOrder) :
    let db := ((RunState.start conversations).run events).db
    backfillSummaryMetadata (backfillSummaryDepths order db) = db ∧
      backfillSummaryMetadata (backfillSummaryDepths order'
        (backfillSummaryMetadata (backfillSummaryDepths order db))) =
          backfillSummaryMetadata (backfillSummaryDepths order db) := by
  intro db
  have hLossless : Lossless db _ := lossless_run (lossless_start conversations) events
  have hRooted : Rooted db := rooted_reachable conversations events
  have hMeasured : Measured db :=
    measured_run (lossless_start conversations) (measured_start conversations) hEvents
  have hOnce : ∀ order, backfillSummaryMetadata (backfillSummaryDepths order db) = db := by
    intro order
    rw [backfillSummaryDepths_eq hLossless hRooted order]
    exact backfillSummaryMetadata_eq hLossless hRooted hMeasured.estimated
  rw [hOnce order]
  exact ⟨rfl, hOnce order'⟩

theorem backfills_change_nothing_threeMessages :
    let db := ((RunState.start [⟨1, "session", none, true, 0⟩]).run threeMessages).db
    backfillSummaryMetadata (backfillSummaryDepths ⟨id, fun _ => .refl _⟩ db) = db :=
  (backfills_change_nothing _ threeMessages (by decide) ⟨id, fun _ => .refl _⟩
    ⟨id, fun _ => .refl _⟩).1

end LosslessHermes.Migration
