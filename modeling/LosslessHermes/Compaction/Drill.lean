import LosslessHermes.Compaction.Aggregates
import LosslessHermes.Store.Walk

/-!
# Drilling down

The condensed pass writes a link from the new summary to each of its sources, and
the queries behind `lcm_describe` follow a link the other way. So what they list
below a summary are the summaries that it was condensed into
(`subtree_lists_above`), and `never_drillsDown` says that for a condensed summary
this is never what lies below it.
-/

namespace LosslessHermes.Compaction

open Relation (ReflTransGen TransGen)

/-- The edges downwards, from a summary to its sources. -/
def Down (db : Db) (a b : SummaryId) : Prop := db.IsSource b a

/-- The nodes below the root are the summaries condensed into it, each once and at its
distance. -/
def ListsSubtree (db : Db) (s : SummaryId) (nodes : List SummarySubtreeNodeRecord) : Prop :=
  ∃ root below, nodes = root :: below ∧ root.summaryId = s ∧
    (below.map (·.summaryId)).Nodup ∧
    (∀ t, t ∈ below.map (·.summaryId) ↔ db.Below t s) ∧
    ∀ node ∈ below, IsDistance (Down db) node.depthFromRoot s node.summaryId

/-- The children are the summaries that it was directly condensed from. -/
def ListsSources (db : Db) (s : SummaryId) : Prop :=
  ∀ p, p ∈ (db.getSummaryChildren s).map (·.summaryId) ↔ db.IsSource p s

/-- The children of a summary, their children and so on. -/
def Expands (db : Db) : SummaryId → SummaryId → Prop :=
  ReflTransGen fun a b => b ∈ (db.getSummaryChildren a).map (·.summaryId)

/-- Repeated expansion arrives at every message that the summary covers. -/
def ReachesMessages (db : Db) (s : SummaryId) : Prop :=
  ∀ m, db.Covers s m → ∃ t, Expands db s t ∧ m ∈ db.getSummaryMessages t

variable {db : Db} {ingested : ConversationId → List MessageId}

/-! ## The direction of a link -/

variable {a b : SummaryId}

theorem isSource_iff : db.IsSource a b ↔ ∃ l ∈ db.summaryParents,
    l.summaryId = b ∧ l.parentSummaryId = a ∧ (db.getSummary a).isSome := by
  unfold Db.IsSource Db.getSummaryParents
  simp only [List.mem_map, List.mem_filterMap, Table.mem_select, decide_eq_true_eq]
  constructor
  · rintro ⟨r, ⟨l, ⟨hl, hOwner⟩, hFound⟩, rfl⟩
    have hId := (Db.mem_of_getSummary hFound).2
    exact ⟨l, hl, hOwner, hId.symm, by rw [hId, hFound]; rfl⟩
  · rintro ⟨l, hl, hOwner, rfl, hFound⟩
    obtain ⟨r, hr⟩ := Option.isSome_iff_exists.mp hFound
    exact ⟨r, ⟨l, ⟨hl, hOwner⟩, hr⟩, (Db.mem_of_getSummary hr).2⟩

theorem feeds_iff (hLossless : Lossless db ingested) :
    db.Feeds a b ↔ db.IsSource a b := by
  rw [isSource_iff]
  constructor
  · rintro ⟨l, hl, rfl, rfl⟩
    obtain ⟨-, record, hRecord⟩ := hLossless.summaries.parentLinks l hl
    exact ⟨l, hl, rfl, rfl, Option.isSome_iff_exists.mpr ⟨record, hRecord⟩⟩
  · rintro ⟨l, hl, hOwner, hParent, -⟩
    exact ⟨l, hl, hParent, hOwner⟩

theorem Rooted.exists_of_feeds (hLossless : Lossless db ingested) (h : Rooted db)
    (hFeeds : db.Feeds a b) : ∃ low high, db.getSummary a = some low ∧
      db.getSummary b = some high ∧ high.kind = .condensed ∧ high.depth = low.depth + 1 := by
  obtain ⟨low, hLow, rfl⟩ := List.mem_map.mp ((feeds_iff hLossless).mp hFeeds)
  obtain ⟨l, hl, -, rfl⟩ := hFeeds
  obtain ⟨hOwner, -⟩ := hLossless.summaries.parentLinks l hl
  obtain ⟨high, hHigh, hId⟩ := List.mem_map.mp hOwner
  have hFound := h.getSummary_of_mem hHigh
  rw [hId] at hFound
  refine ⟨low, high, getSummary_of_mem_parents hLow, hFound, ?_⟩
  cases h.rows _ high hFound with
  | leaf messages hLeaf =>
    rw [← hId, hLeaf.parents] at hLow
    cases hLow
  | condensed sources level hCondensed =>
    rw [← hId, hCondensed.parents] at hLow
    exact ⟨hCondensed.kind, hCondensed.depth.trans (by rw [hCondensed.level low hLow])⟩

/-- Nothing is below itself. -/
theorem Rooted.not_below_self (hLossless : Lossless db ingested) (h : Rooted db)
    (s : SummaryId) : ¬ db.Below s s := by
  have hDeeper : ∀ {a b}, db.Below a b → ∃ low high, db.getSummary a = some low ∧
      db.getSummary b = some high ∧ low.depth < high.depth := by
    intro a b hBelow
    induction hBelow with
    | single hSource =>
      obtain ⟨low, high, hLow, hHigh, -, hDepth⟩ :=
        h.exists_of_feeds hLossless ((feeds_iff hLossless).mpr hSource)
      exact ⟨low, high, hLow, hHigh, by omega⟩
    | tail _ hSource ih =>
      obtain ⟨low, middle, hLow, hMiddle, hLess⟩ := ih
      obtain ⟨middle', high, hMiddle', hHigh, -, hDepth⟩ :=
        h.exists_of_feeds hLossless ((feeds_iff hLossless).mpr hSource)
      obtain rfl := Option.some.inj (hMiddle.symm.trans hMiddle')
      exact ⟨low, high, hLow, hHigh, by omega⟩
  intro hBelow
  obtain ⟨low, high, hLow, hHigh, hLess⟩ := hDeeper hBelow
  obtain rfl := Option.some.inj (hLow.symm.trans hHigh)
  exact Nat.lt_irrefl _ hLess

/-! ## What the queries list -/

theorem reflTransGen_feeds (hLossless : Lossless db ingested) :
    ReflTransGen db.Feeds a b ↔ ReflTransGen db.IsSource a b := by
  have hEdges : db.Feeds = db.IsSource := by
    ext a b
    exact feeds_iff hLossless
  rw [hEdges]

/-- The call returns, once its walk may take as many steps as the DAG has levels. -/
theorem Rooted.exists_rows (hLossless : Lossless db ingested) (h : Rooted db) {fuel : Nat}
    (hFuel : ∀ r ∈ db.summaries, r.depth < fuel) {r : SummaryRecord} (hr : r ∈ db.summaries) :
    ∃ rows, db.subtreeRows fuel [⟨r.summaryId, none, 0, ""⟩] = some rows := by
  have hRank : ∀ {s record}, db.getSummary s = some record →
      ((db.getSummary s).map (·.depth)).getD 0 = record.depth := by
    intro s record hRecord
    rw [hRecord]
    rfl
  apply @Db.exists_subtreeRows db (fun s => ((db.getSummary s).map (·.depth)).getD 0) fuel fuel 0
  · intro a b hFeeds
    obtain ⟨low, high, hLow, hHigh, -, hDepth⟩ := h.exists_of_feeds hLossless hFeeds
    rw [hRank hLow, hRank hHigh]
    have hBound := hFuel high (Db.mem_of_getSummary hHigh).1
    omega
  · omega
  · intro row hRow
    obtain rfl := List.mem_singleton.mp hRow
    refine ⟨Nat.zero_le _, ?_⟩
    rw [hRank (h.getSummary_of_mem hr)]
    exact hFuel r hr

/-- The listing has the summaries that the root was condensed into. -/
theorem Rooted.subtree_lists_above (hLossless : Lossless db ingested) (h : Rooted db)
    {fuel : Nat} (hFuel : ∀ r ∈ db.summaries, r.depth < fuel) {r : SummaryRecord}
    (hr : r ∈ db.summaries) : ∃ cap, ∀ limit, cap ≤ limit → ∃ nodes,
      db.getSummarySubtree limit fuel r.summaryId = some nodes ∧
      (nodes.map (·.summaryId)).Nodup ∧
      (∀ t, t ∈ nodes.map (·.summaryId) ↔ ReflTransGen db.IsSource r.summaryId t) ∧
      ∀ node ∈ nodes, IsDistance db.Feeds node.depthFromRoot r.summaryId node.summaryId := by
  obtain ⟨rows, hRows⟩ := h.exists_rows hLossless hFuel hr
  refine ⟨rows.length, fun limit hLimit => ?_⟩
  obtain ⟨nodes, hNodes, hNodup, hMem, hDistance⟩ := Db.mem_getSummarySubtree hRows hLimit
  refine ⟨nodes, hNodes, hNodup, fun t => ?_, hDistance⟩
  rw [hMem, reflTransGen_feeds hLossless]
  refine ⟨And.right, fun hPath => ⟨?_, hPath⟩⟩
  rcases ReflTransGen.cases_tail hPath with rfl | ⟨p, -, hSource⟩
  · rw [h.getSummary_of_mem hr]
    rfl
  · obtain ⟨low, high, -, hHigh, -⟩ :=
      h.exists_of_feeds hLossless ((feeds_iff hLossless).mpr hSource)
    rw [hHigh]
    rfl

theorem mem_children_iff (hLossless : Lossless db ingested) (h : Rooted db) :
    b ∈ (db.getSummaryChildren a).map (·.summaryId) ↔ db.IsSource a b := by
  rw [← feeds_iff hLossless]
  unfold Db.getSummaryChildren Db.Feeds
  simp only [List.mem_map, List.mem_filterMap, Table.mem_select, decide_eq_true_eq]
  constructor
  · rintro ⟨r, ⟨l, ⟨hl, hParent⟩, hFound⟩, rfl⟩
    exact ⟨l, hl, hParent, (Db.mem_of_getSummary hFound).2.symm⟩
  · rintro ⟨l, hl, rfl, rfl⟩
    obtain ⟨-, high, -, hHigh, -⟩ := h.exists_of_feeds hLossless ⟨l, hl, rfl, rfl⟩
    exact ⟨high, ⟨l, ⟨hl, rfl⟩, hHigh⟩, (Db.mem_of_getSummary hHigh).2⟩

/-! ## Why it is never what lies below -/

section Condensed

variable {r : SummaryRecord}

theorem Rooted.exists_source (h : Rooted db) (hr : r ∈ db.summaries) (hKind : r.kind = .condensed) :
    ∃ p, db.IsSource p r.summaryId := by
  cases h.rows _ r (h.getSummary_of_mem hr) with
  | leaf messages hLeaf =>
    rw [hLeaf.kind] at hKind
    cases hKind
  | condensed sources level hCondensed =>
    obtain ⟨p, hp⟩ := List.exists_mem_of_ne_nil _ hCondensed.ne
    exact ⟨p.summaryId, List.mem_map_of_mem (hCondensed.parents ▸ hp)⟩

/-- Below every summary there is a leaf, and a leaf has a message. -/
theorem Rooted.exists_covered (h : Rooted db) (hr : r ∈ db.summaries) :
    ∃ m, db.Covers r.summaryId m := by
  obtain ⟨depth, hDepth⟩ : ∃ depth, r.depth = depth := ⟨_, rfl⟩
  induction depth using Nat.strongRecOn generalizing r with
  | _ depth ih =>
    cases h.rows _ r (h.getSummary_of_mem hr) with
    | leaf messages hLeaf =>
      obtain ⟨m, hm⟩ := List.exists_mem_of_ne_nil _ hLeaf.ne
      exact ⟨m.messageId, r.summaryId, .refl, hLeaf.ids ▸ List.mem_map_of_mem hm⟩
    | condensed sources level hCondensed =>
      obtain ⟨p, hp⟩ := List.exists_mem_of_ne_nil _ hCondensed.ne
      have hParent : p ∈ db.getSummaryParents r.summaryId := hCondensed.parents ▸ hp
      have hStored := (Db.mem_of_getSummary (getSummary_of_mem_parents hParent)).1
      have hLess : p.depth < depth := by
        rw [hCondensed.level p hp, ← hDepth, hCondensed.depth]
        exact Nat.lt_succ_self _
      obtain ⟨m, t, hPath, hm⟩ := ih p.depth hLess hStored rfl
      exact ⟨m, t, hPath.tail (List.mem_map_of_mem hParent), hm⟩

/-- What is expanded from a condensed summary is condensed and has no messages. -/
theorem Rooted.no_messages_above (hLossless : Lossless db ingested) (h : Rooted db)
    (hr : r ∈ db.summaries) (hKind : r.kind = .condensed) {t : SummaryId}
    (hPath : Expands db r.summaryId t) : db.getSummaryMessages t = [] := by
  obtain ⟨record, hRecord, hCondensed⟩ : ∃ record, db.getSummary t = some record ∧
      record.kind = .condensed := by
    rcases ReflTransGen.cases_tail hPath with rfl | ⟨p, -, hChild⟩
    · exact ⟨r, h.getSummary_of_mem hr, hKind⟩
    · obtain ⟨-, high, -, hHigh, hCondensed, -⟩ := h.exists_of_feeds hLossless
        ((feeds_iff hLossless).mpr ((mem_children_iff hLossless h).mp hChild))
      exact ⟨high, hHigh, hCondensed⟩
  cases h.rows t record hRecord with
  | leaf messages hLeaf =>
    rw [hLeaf.kind] at hCondensed
    cases hCondensed
  | condensed sources level hOf => exact (Db.mem_of_getSummary hRecord).2 ▸ hOf.ids

theorem Rooted.not_listsSubtree (hLossless : Lossless db ingested) (h : Rooted db)
    (hr : r ∈ db.summaries) (hKind : r.kind = .condensed) {limit fuel : Nat}
    {nodes : List SummarySubtreeNodeRecord}
    (hNodes : db.getSummarySubtree limit fuel r.summaryId = some nodes) :
    ¬ ListsSubtree db r.summaryId nodes := by
  rintro ⟨root, below, rfl, -, -, hBelow, -⟩
  obtain ⟨p, hp⟩ := h.exists_source hr hKind
  obtain ⟨node, hNode, rfl⟩ := List.mem_map.mp ((hBelow p).mpr (.single hp))
  have hSteps := Db.steps_of_mem_getSummarySubtree hNodes (List.mem_cons_of_mem _ hNode)
  have hAbove := (reflTransGen_feeds hLossless).mp hSteps.reflTransGen
  exact h.not_below_self hLossless r.summaryId (.tail' hAbove hp)

theorem Rooted.not_listsSources (hLossless : Lossless db ingested) (h : Rooted db)
    (hr : r ∈ db.summaries) (hKind : r.kind = .condensed) : ¬ ListsSources db r.summaryId := by
  intro hLists
  obtain ⟨p, hp⟩ := h.exists_source hr hKind
  have hUp := (mem_children_iff hLossless h).mp ((hLists p).mpr hp)
  exact h.not_below_self hLossless r.summaryId (.tail (.single hUp) hp)

theorem Rooted.not_reachesMessages (hLossless : Lossless db ingested) (h : Rooted db)
    (hr : r ∈ db.summaries) (hKind : r.kind = .condensed) :
    ¬ ReachesMessages db r.summaryId := by
  intro hReaches
  obtain ⟨m, hm⟩ := h.exists_covered hr
  obtain ⟨t, hPath, hOwn⟩ := hReaches m hm
  rw [h.no_messages_above hLossless hr hKind hPath] at hOwn
  cases hOwn

end Condensed

/-- In every reachable state and for every condensed summary the listing returns, but it
is not the subtree, the children are not the sources, and expanding them again and again
does not reach the messages. -/
theorem never_drillsDown (conversations : List ConversationRecord) (events : List Event) :
    let db := ((RunState.start conversations).run events).db
    ∀ r ∈ db.summaries, r.kind = .condensed →
      (∃ fuel, ∀ limit, ∃ nodes, db.getSummarySubtree limit fuel r.summaryId = some nodes) ∧
      (∀ limit fuel nodes, db.getSummarySubtree limit fuel r.summaryId = some nodes →
        ¬ ListsSubtree db r.summaryId nodes) ∧
      ¬ ListsSources db r.summaryId ∧ ¬ ReachesMessages db r.summaryId := by
  intro db r hr hKind
  have hLossless : Lossless db _ := lossless_run (lossless_start conversations) events
  have h : Rooted db := rooted_reachable conversations events
  refine ⟨?_, fun limit fuel nodes => h.not_listsSubtree hLossless hr hKind,
    h.not_listsSources hLossless hr hKind, h.not_reachesMessages hLossless hr hKind⟩
  obtain ⟨fuel, hFuel⟩ := exists_fuel db
  obtain ⟨rows, hRows⟩ := h.exists_rows hLossless hFuel hr
  exact ⟨fuel, fun limit => ⟨_, by rw [Db.getSummarySubtree, hRows]; rfl⟩⟩

/-! ## A leaf and a summary of it -/

def passEnv (summaryId content : String) : PassEnv :=
  { config := { freshTailCount := 0, leafChunkTokens := some 1, leafMinFanout := 1,
                condensedTargetTokens := 1 }
    sourceText := ⟨fun _ content => content, id, fun _ _ => "", fun _ => []⟩
    summarize := fun _ _ _ => .text content
    summaryModel := none
    now := 4
    generateSummaryId := fun _ => summaryId }

def twoLevels : List Event :=
  [.append 1 1 .user "a" 1 [], .leafPass 1 (passEnv "lower" "a message") none,
    .condensedPass 1 (passEnv "upper" "a summary") false]

/-- The upper summary has the lower one as a source and no child, and its listing is the
root alone, while from the lower one it goes up. -/
theorem twoLevels_not_drilledDown :
    let db := ((RunState.start [⟨1, "session", none, true, 0⟩]).run twoLevels).db
    db.IsSource "lower" "upper" ∧ (db.getSummaryChildren "upper").map (·.summaryId) = [] ∧
      ((db.getSummarySubtree subtreeHardCap 2 "upper").map fun nodes =>
        nodes.map (·.summaryId)) = some ["upper"] ∧
      ((db.getSummarySubtree subtreeHardCap 2 "lower").map fun nodes =>
        nodes.map (·.summaryId)) = some ["lower", "upper"] ∧
      ¬ ListsSources db "upper" := by
  intro db
  have hSource : db.IsSource "lower" "upper" := by
    show "lower" ∈ (db.getSummaryParents "upper").map (·.summaryId)
    decide +kernel
  have hNone : (db.getSummaryChildren "upper").map (·.summaryId) = [] := by decide +kernel
  refine ⟨hSource, hNone, by decide +kernel, by decide +kernel, fun hLists => ?_⟩
  have hChild := (hLists "lower").mpr hSource
  rw [hNone] at hChild
  cases hChild

theorem subtree_lists_above_twoLevels :
    let db := ((RunState.start [⟨1, "session", none, true, 0⟩]).run twoLevels).db
    ∃ r ∈ db.summaries, r.summaryId = "lower" ∧ ∃ limit nodes,
      db.getSummarySubtree limit 2 r.summaryId = some nodes ∧
      ∀ t, t ∈ nodes.map (·.summaryId) ↔ ReflTransGen db.IsSource r.summaryId t := by
  intro db
  have hLower : ∃ r ∈ db.summaries, r.summaryId = "lower" := by decide +kernel
  have hFuel : ∀ r ∈ db.summaries, r.depth < 2 := by decide +kernel
  obtain ⟨r, hr, hId⟩ := hLower
  obtain ⟨cap, hCap⟩ := Rooted.subtree_lists_above
    (lossless_run (lossless_start _) twoLevels) (rooted_reachable _ twoLevels) hFuel hr
  obtain ⟨nodes, hNodes, -, hMem, -⟩ := hCap cap le_rfl
  exact ⟨r, hr, hId, cap, nodes, hNodes, hMem⟩

theorem never_drillsDown_twoLevels :
    let db := ((RunState.start [⟨1, "session", none, true, 0⟩]).run twoLevels).db
    ∃ r ∈ db.summaries, r.summaryId = "upper" ∧ ¬ ReachesMessages db r.summaryId := by
  intro db
  have hUpper : ∃ r ∈ db.summaries, r.summaryId = "upper" ∧ r.kind = .condensed := by
    decide +kernel
  obtain ⟨r, hr, hId, hKind⟩ := hUpper
  exact ⟨r, hr, hId, (never_drillsDown _ twoLevels r hr hKind).2.2.2⟩

end LosslessHermes.Compaction
