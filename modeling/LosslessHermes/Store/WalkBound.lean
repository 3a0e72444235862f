import LosslessHermes.Store.Walk
import Mathlib.Algebra.Order.BigOperators.Group.List
import Mathlib.Algebra.Order.Group.Nat
import Mathlib.Data.List.Perm.Subperm

/-!
# When the recursive table ends

The recursive member keeps the path to a row and not the rows that it has seen, and
the limit, which counts walks and not summaries, stands behind the sort of the whole
table (`listsReachable_iff`).
-/

namespace LosslessHermes

open Relation (ReflTransGen TransGen)

/-! ## Long walks -/

section Walks

variable {α : Type} {edge : α → α → Prop}

variable {n : Nat} {a b : α}

/-- A walk comes back to one of its nodes or passes as many different ones as it has
edges. -/
theorem Steps.cycle_or_nodup (h : Steps edge n a b) :
    (∃ c, ReflTransGen edge a c ∧ TransGen edge c c) ∨
      ∃ passed : List α, passed.Nodup ∧ passed.length = n ∧ ∀ c ∈ passed, TransGen edge a c := by
  induction n generalizing a with
  | zero => exact Or.inr ⟨[], List.nodup_nil, rfl, fun c hc => by cases hc⟩
  | succ n ih =>
    obtain ⟨c, hEdge, hRest⟩ := h
    rcases ih hRest with ⟨d, hPath, hCycle⟩ | ⟨passed, hNodup, hLength, hPassed⟩
    · exact Or.inl ⟨d, .head hEdge hPath, hCycle⟩
    · by_cases hBack : c ∈ passed
      · exact Or.inl ⟨c, .single hEdge, hPassed c hBack⟩
      · refine Or.inr ⟨c :: passed, List.nodup_cons.mpr ⟨hBack, hNodup⟩, ?_, ?_⟩
        · rw [List.length_cons, hLength]
        · intro d hd
          rcases List.mem_cons.mp hd with rfl | hd
          · exact .single hEdge
          · exact .head hEdge (hPassed d hd)

/-- A walk with more edges than there are targets comes back to one of its nodes. -/
theorem Steps.cycle_of_long {targets : List α} (hTargets : ∀ a b, edge a b → b ∈ targets)
    (h : Steps edge n a b) (hLong : targets.length < n) :
    ∃ c, ReflTransGen edge a c ∧ TransGen edge c c := by
  rcases h.cycle_or_nodup with hCycle | ⟨passed, hNodup, hLength, hPassed⟩
  · exact hCycle
  · have hSubset : passed ⊆ targets := by
      intro c hc
      obtain ⟨d, -, hLast⟩ := TransGen.tail'_iff.mp (hPassed c hc)
      exact hTargets d c hLast
    have hLe := (hNodup.subperm hSubset).length_le
    omega

theorem Steps.trans {m : Nat} {c : α} (h : Steps edge n a b) (h' : Steps edge m b c) :
    Steps edge (n + m) a c := by
  induction n generalizing a with
  | zero =>
    obtain rfl : a = b := h
    rwa [Nat.zero_add]
  | succ n ih =>
    obtain ⟨d, hEdge, hRest⟩ := h
    rw [Nat.succ_add]
    exact ⟨d, hEdge, ih hRest⟩

theorem exists_steps_pos (h : TransGen edge a b) : ∃ n, Steps edge (n + 1) a b := by
  obtain ⟨c, hEdge, hPath⟩ := TransGen.head'_iff.mp h
  obtain ⟨n, hn⟩ := exists_steps hPath
  exact ⟨n, c, hEdge, hn⟩

/-- Behind a cycle there are walks of any length. -/
theorem exists_long_of_cycle {c : α} (hPath : ReflTransGen edge a c)
    (hCycle : TransGen edge c c) (bound : Nat) : ∃ n, bound ≤ n ∧ Steps edge n a c := by
  induction bound with
  | zero =>
    obtain ⟨n, hn⟩ := exists_steps hPath
    exact ⟨n, Nat.zero_le n, hn⟩
  | succ bound ih =>
    obtain ⟨n, hLe, hn⟩ := ih
    obtain ⟨m, hm⟩ := exists_steps_pos hCycle
    exact ⟨n + (m + 1), by omega, hn.trans hm⟩

end Walks

namespace Db

variable {db : Db}

/-! ## The table by levels -/

/-- The rows that lie `n` edges behind the given ones. -/
def level (db : Db) : Nat → List SubtreeRow → List SubtreeRow
  | 0, rows => rows
  | n + 1, rows => level db n (rows.flatMap db.nextRows)

theorem level_nil (n : Nat) : db.level n [] = [] := by
  induction n with
  | zero => rfl
  | succ n ih => exact ih

variable {n : Nat} {rows : List SubtreeRow}

theorem steps_of_mem_level {row : SubtreeRow} (h : row ∈ db.level n rows) :
    ∃ start ∈ rows, Steps db.Feeds n start.summaryId row.summaryId := by
  induction n generalizing rows with
  | zero => exact ⟨row, h, rfl⟩
  | succ n ih =>
    obtain ⟨next, hNext, hSteps⟩ := ih h
    obtain ⟨start, hStart, hFrom⟩ := List.mem_flatMap.mp hNext
    exact ⟨start, hStart, _, (mem_nextRows hFrom).1, hSteps⟩

variable {fuel : Nat}

/-- Once a level is empty the table is all of the levels before. -/
theorem subtreeRows_eq_levels (hEmpty : db.level n rows = []) (hFuel : n ≤ fuel) :
    db.subtreeRows fuel rows = some ((List.range n).flatMap fun k => db.level k rows) := by
  induction n generalizing fuel rows with
  | zero =>
    obtain rfl : rows = [] := hEmpty
    cases fuel <;> rfl
  | succ n ih =>
    obtain ⟨fuel, rfl⟩ : ∃ fuel', fuel = fuel' + 1 := ⟨fuel - 1, by omega⟩
    cases rows with
    | nil =>
      have hNone : ((List.range (n + 1)).flatMap fun k => db.level k []) = [] :=
        List.flatMap_eq_nil_iff.mpr fun k _ => level_nil k
      rw [hNone]
      rfl
    | cons row rest =>
      have hLevels : ((List.range (n + 1)).flatMap fun k => db.level k (row :: rest)) =
          row :: rest ++ (List.range n).flatMap fun k =>
            db.level k ((row :: rest).flatMap db.nextRows) := by
        rw [List.range_succ_eq_map, List.flatMap_cons, List.flatMap_map]
        rfl
      rw [subtreeRows, ih hEmpty (Nat.le_of_succ_le_succ hFuel), hLevels]
      rfl

/-- The rows of all walks from `root` that have no more edges than there are links. -/
def walks (db : Db) (root : SummaryId) : List SubtreeRow :=
  (List.range (db.summaryParents.length + 1)).flatMap fun n => db.level n [⟨root, none, 0, ""⟩]

/-- No cycle can be reached from `root`. -/
def AcyclicFrom (db : Db) (root : SummaryId) : Prop :=
  ∀ t, ReflTransGen db.Feeds root t → ¬ TransGen db.Feeds t t

variable {root : SummaryId}

theorem AcyclicFrom.subtreeRows_eq (h : db.AcyclicFrom root)
    (hFuel : db.summaryParents.length + 1 ≤ fuel) :
    db.subtreeRows fuel [⟨root, none, 0, ""⟩] = some (db.walks root) := by
  apply subtreeRows_eq_levels ?_ hFuel
  apply List.eq_nil_iff_forall_not_mem.mpr
  intro row hRow
  obtain ⟨start, hStart, hSteps⟩ := steps_of_mem_level hRow
  obtain rfl := List.mem_singleton.mp hStart
  have hTargets : ∀ a b, db.Feeds a b → b ∈ db.summaryParents.map (·.summaryId) := by
    rintro a b ⟨link, hLink, -, rfl⟩
    exact List.mem_map_of_mem hLink
  obtain ⟨c, hPath, hCycle⟩ := hSteps.cycle_of_long hTargets (by
    rw [List.length_map]
    exact Nat.lt_succ_self _)
  exact h c hPath hCycle

/-- A table that ends has a greatest depth, so that no cycle can be reached. -/
theorem acyclicFrom_of_subtreeRows
    (h : db.subtreeRows fuel [⟨root, none, 0, ""⟩] = some rows) : db.AcyclicFrom root := by
  intro t hPath hCycle
  obtain ⟨n, hLong, hSteps⟩ :=
    exists_long_of_cycle hPath hCycle ((rows.map (·.depthFromRoot)).sum + 1)
  obtain ⟨row, hRow, -, hDepth⟩ := exists_row_of_steps h (List.mem_singleton_self _) hSteps
  have hIn : row.depthFromRoot ∈ rows.map (·.depthFromRoot) := List.mem_map.mpr ⟨row, hRow, rfl⟩
  have hLe := List.single_le_sum (fun _ _ => Nat.zero_le _) row.depthFromRoot hIn
  dsimp only at hDepth
  omega

/-! ## The listing under its cap -/

/-- The nodes of the walks to summaries that can be read, shorter walks first and those
of one length by path and creation, as far as the cap lets them through. -/
def cappedWalks (db : Db) (root : SummaryId) : List SummarySubtreeNodeRecord :=
  (Table.select (fun _ => true)
    (fun node : SummarySubtreeNodeRecord =>
      toLex (node.depthFromRoot, toLex (node.path, node.createdAt)))
    ((db.walks root).filterMap db.subtreeNode)).take subtreeHardCap

/-- The cap lets a walk to each summary through that can be read and reached. -/
def WithinCap (db : Db) (root : SummaryId) : Prop :=
  ∀ t, (db.getSummary t).isSome → ReflTransGen db.Feeds root t →
    t ∈ (db.cappedWalks root).map (·.summaryId)

/-- The query ends, and its listing has every summary that can be read and reached from
the root, once and at its distance. -/
def ListsReachable (db : Db) (root : SummaryId) : Prop :=
  ∃ nodes enough,
    (∀ fuel, enough ≤ fuel → db.getSummarySubtree subtreeHardCap fuel root = some nodes) ∧
    (nodes.map (·.summaryId)).Nodup ∧
    (∀ t, t ∈ nodes.map (·.summaryId) ↔
      (db.getSummary t).isSome ∧ ReflTransGen db.Feeds root t) ∧
    ∀ node ∈ nodes, IsDistance db.Feeds node.depthFromRoot root node.summaryId

theorem AcyclicFrom.listing_eq (h : db.AcyclicFrom root)
    (hFuel : db.summaryParents.length + 1 ≤ fuel) :
    db.getSummarySubtree subtreeHardCap fuel root = some (keepFirst [] (db.cappedWalks root)) := by
  rw [getSummarySubtree, h.subtreeRows_eq hFuel]
  rfl

/-- Every walk to a summary that can be read is let through or not shorter than those
that are. -/
theorem walk_in_cap_or_longer (h : db.AcyclicFrom root) {t : SummaryId}
    (hFound : (db.getSummary t).isSome) (hSteps : Steps db.Feeds n root t) :
    (∃ node ∈ db.cappedWalks root, node.summaryId = t ∧ node.depthFromRoot = n) ∨
      ∀ node ∈ db.cappedWalks root, node.depthFromRoot ≤ n := by
  obtain ⟨row, hRow, rfl, hDepth⟩ := exists_row_of_steps (h.subtreeRows_eq (Nat.le_refl _))
    (List.mem_singleton_self _) hSteps
  obtain ⟨node, hNode⟩ := exists_subtreeNode hFound
  obtain ⟨-, hId, hLevel⟩ := subtreeNode_eq_some hNode
  let sorted := Table.select (fun _ => true)
    (fun node : SummarySubtreeNodeRecord =>
      toLex (node.depthFromRoot, toLex (node.path, node.createdAt)))
    ((db.walks root).filterMap db.subtreeNode)
  have hSorted : sorted.Pairwise fun a b => a.depthFromRoot ≤ b.depthFromRoot :=
    listing_pairwise _
  have hMem : node ∈ sorted :=
    Table.mem_select.mpr ⟨List.mem_filterMap.mpr ⟨row, hRow, hNode⟩, rfl⟩
  have hDepthEq : node.depthFromRoot = n := hLevel.trans (hDepth.trans (Nat.zero_add n))
  rw [← List.take_append_drop subtreeHardCap sorted] at hMem hSorted
  rcases List.mem_append.mp hMem with hTaken | hCut
  · exact Or.inl ⟨node, hTaken, hId, hDepthEq⟩
  · refine Or.inr fun taken hTaken => ?_
    rw [← hDepthEq]
    exact (List.pairwise_append.mp hSorted).2.2 taken hTaken node hCut

theorem cappedWalks_sorted (db : Db) (root : SummaryId) :
    (db.cappedWalks root).Pairwise fun a b => a.depthFromRoot ≤ b.depthFromRoot :=
  (listing_pairwise _).sublist (List.take_sublist _ _)

theorem AcyclicFrom.listsReachable (h : db.AcyclicFrom root)
    (hCap : db.WithinCap root) : db.ListsReachable root := by
  have hRun := fun fuel (hFuel : db.summaryParents.length + 1 ≤ fuel) => h.listing_eq hFuel
  have hSteps := fun node (hNode : node ∈ keepFirst [] (db.cappedWalks root)) =>
    steps_of_mem_getSummarySubtree (hRun _ (Nat.le_refl _)) hNode
  have hReadable : ∀ node ∈ keepFirst [] (db.cappedWalks root),
      (db.getSummary node.summaryId).isSome := by
    intro node hNode
    have hListed := List.mem_of_mem_take ((keepFirst_sublist _ _).subset hNode)
    obtain ⟨row, -, hFound⟩ := List.mem_filterMap.mp (Table.mem_select.mp hListed).1
    exact (subtreeNode_eq_some hFound).1
  refine ⟨_, _, hRun, (keepFirst_ids _ _).1, fun t => ⟨?_, ?_⟩, fun node hNode =>
    ⟨hSteps node hNode, fun k hk => ?_⟩⟩
  · intro ht
    obtain ⟨node, hNode, rfl⟩ := List.mem_map.mp ht
    exact ⟨hReadable node hNode, (hSteps node hNode).reflTransGen⟩
  · rintro ⟨hFound, hPath⟩
    exact ((keepFirst_ids [] _).2 t).mpr ⟨hCap t hFound hPath, List.not_mem_nil⟩
  · rcases walk_in_cap_or_longer h (hReadable node hNode) hk with
      ⟨other, hOther, hId, rfl⟩ | hLonger
    · exact keepFirst_least (cappedWalks_sorted db root) hNode hOther hId
    · exact hLonger node ((keepFirst_sublist _ _).subset hNode)

theorem ListsReachable.acyclicFrom (h : db.ListsReachable root) :
    db.AcyclicFrom root := by
  obtain ⟨nodes, enough, hRun, -⟩ := h
  obtain ⟨rows, hRows, -⟩ := Option.map_eq_some_iff.mp (hRun enough (Nat.le_refl _))
  exact acyclicFrom_of_subtreeRows hRows

theorem ListsReachable.withinCap (h : db.ListsReachable root) :
    db.WithinCap root := by
  have hAcyclic := h.acyclicFrom
  obtain ⟨nodes, enough, hRun, -, hMem, -⟩ := h
  have hSame := (hRun (max enough (db.summaryParents.length + 1)) (le_max_left _ _)).symm.trans
    (hAcyclic.listing_eq (le_max_right _ _))
  obtain rfl := Option.some.inj hSame
  intro t hFound hPath
  exact (((keepFirst_ids [] _).2 t).mp ((hMem t).mpr ⟨hFound, hPath⟩)).1

/-- The listing is that of the reachable summaries exactly when no cycle can be reached
and the cap on the walks spares one to each of them. -/
theorem listsReachable_iff (db : Db) (root : SummaryId) :
    db.ListsReachable root ↔ db.AcyclicFrom root ∧ db.WithinCap root :=
  ⟨fun h => ⟨h.acyclicFrom, h.withinCap⟩, fun h => h.1.listsReachable h.2⟩

def condensedRecord (summaryId : SummaryId) : SummaryRecord :=
  { summaryId := summaryId, conversationId := 1, kind := .condensed, depth := 1, content := "",
    tokenCount := 0, fileIds := [], earliestAt := none, latestAt := none, descendantCount := 1,
    descendantTokenCount := 0, sourceMessageTokenCount := 0, model := "", createdAt := 0,
    suppressedAt := none }

/-- Two summaries of a conversation that are linked to each other. -/
def mutualSummaries : Db :=
  { Db.empty with
    conversations := [⟨1, "s", none, true, 0⟩]
    summaries := [condensedRecord "sum_a", condensedRecord "sum_b"]
    summaryParents := [⟨"sum_a", "sum_b", 0⟩, ⟨"sum_b", "sum_a", 0⟩] }

/-- On a cycle the query does not end. -/
theorem not_listsReachable_mutual : ¬ mutualSummaries.ListsReachable "sum_a" := by
  intro h
  have hDown : mutualSummaries.Feeds "sum_a" "sum_b" :=
    ⟨⟨"sum_b", "sum_a", 0⟩, List.mem_cons_of_mem _ List.mem_cons_self, rfl, rfl⟩
  have hUp : mutualSummaries.Feeds "sum_b" "sum_a" :=
    ⟨⟨"sum_a", "sum_b", 0⟩, List.mem_cons_self, rfl, rfl⟩
  exact h.acyclicFrom "sum_a" .refl (.tail (.single hDown) hUp)

end Db
end LosslessHermes
