import Mathlib.Data.String.Basic
import LosslessHermes.Store.Summary

/-!
# Walks over the summary links

`getSummaryChildren` and the recursive table of `getSummarySubtree` follow a row of
`summary_parents` from its `parent_summary_id` to its `summary_id`. `Steps` counts
the edges of a walk, and `mem_getSummarySubtree` says which summaries are listed and
at which depth.
-/

namespace LosslessHermes

/-- `b` is `n` edges away from `a`. -/
def Steps {α : Type} (edge : α → α → Prop) : Nat → α → α → Prop
  | 0, a, b => a = b
  | n + 1, a, b => ∃ c, edge a c ∧ Steps edge n c b

/-- `n` is the least number of edges from `a` to `b`. -/
def IsDistance {α : Type} (edge : α → α → Prop) (n : Nat) (a b : α) : Prop :=
  Steps edge n a b ∧ ∀ k, Steps edge k a b → n ≤ k

theorem Steps.reflTransGen {α : Type} {edge : α → α → Prop} {n : Nat} {a b : α}
    (h : Steps edge n a b) : Relation.ReflTransGen edge a b := by
  induction n generalizing a with
  | zero =>
    obtain rfl : a = b := h
    exact .refl
  | succ n ih =>
    obtain ⟨c, hEdge, hRest⟩ := h
    exact .head hEdge (ih hRest)

theorem exists_steps {α : Type} {edge : α → α → Prop} {a b : α}
    (h : Relation.ReflTransGen edge a b) : ∃ n, Steps edge n a b := by
  induction h using Relation.ReflTransGen.head_induction_on with
  | refl => exact ⟨0, rfl⟩
  | head hEdge _ ih =>
    obtain ⟨n, hn⟩ := ih
    exact ⟨n + 1, _, hEdge, hn⟩

/-- A row of the recursive table. -/
structure SubtreeRow where
  summaryId : SummaryId
  parentSummaryId : Option SummaryId
  depthFromRoot : Nat
  path : String
  deriving DecidableEq, Repr

structure SummarySubtreeNodeRecord extends SummaryRecord where
  depthFromRoot : Nat
  parentSummaryId : Option SummaryId
  path : String
  childCount : Nat
  deriving DecidableEq, Repr

def subtreeHardCap : Nat := 10000

/-- `printf('%04d', ordinal)`. -/
def paddedOrdinal (ordinal : Nat) : String :=
  let digits := Nat.repr ordinal
  "".pushn '0' (4 - digits.length) ++ digits

/-- The first node of each summary. -/
def keepFirst (seen : List SummaryId) :
    List SummarySubtreeNodeRecord → List SummarySubtreeNodeRecord
  | [] => []
  | node :: nodes =>
      if node.summaryId ∈ seen then keepFirst seen nodes
      else node :: keepFirst (node.summaryId :: seen) nodes

namespace Db

def getSummaryChildren (db : Db) (parentSummaryId : SummaryId)
    (includeSuppressed : Bool := false) : List SummaryRecord :=
  (Table.select (fun l => l.parentSummaryId = parentSummaryId) (·.ordinal)
    db.summaryParents).filterMap fun l => db.getSummary l.summaryId includeSuppressed

/-- The rows that the recursive member adds for one row of the table. -/
def nextRows (db : Db) (row : SubtreeRow) : List SubtreeRow :=
  (db.summaryParents.filter fun sp => sp.parentSummaryId = row.summaryId).map fun sp =>
    { summaryId := sp.summaryId
      parentSummaryId := some sp.parentSummaryId
      depthFromRoot := row.depthFromRoot + 1
      path := if row.path = "" then paddedOrdinal sp.ordinal
        else row.path ++ "." ++ paddedOrdinal sp.ordinal }

/-- The recursive table, level by level. On a cycle it has no end. -/
def subtreeRows (db : Db) : Nat → List SubtreeRow → Option (List SubtreeRow)
  | _, [] => some []
  | 0, _ :: _ => none
  | fuel + 1, row :: rows =>
      (subtreeRows db fuel ((row :: rows).flatMap (nextRows db))).map (row :: rows ++ ·)

/-- The join of a row with its summary. -/
def subtreeNode (db : Db) (row : SubtreeRow) : Option SummarySubtreeNodeRecord :=
  (db.getSummary row.summaryId).map fun s =>
    { s with
      depthFromRoot := row.depthFromRoot
      parentSummaryId := row.parentSummaryId
      path := row.path
      childCount := (db.summaryParents.filter fun sp => sp.parentSummaryId = s.summaryId).length }

/-- The listing for a cap on its rows. -/
def getSummarySubtree (db : Db) (limit fuel : Nat) (summaryId : SummaryId) :
    Option (List SummarySubtreeNodeRecord) :=
  (db.subtreeRows fuel [⟨summaryId, none, 0, ""⟩]).map fun rows =>
    keepFirst [] ((Table.select (fun _ => true)
      (fun node : SummarySubtreeNodeRecord =>
        toLex (node.depthFromRoot, toLex (node.path, node.createdAt)))
      (rows.filterMap db.subtreeNode)).take limit)

/-- The edges that both queries follow. -/
def Feeds (db : Db) (a b : SummaryId) : Prop :=
  ∃ l ∈ db.summaryParents, l.parentSummaryId = a ∧ l.summaryId = b

variable {db : Db}

/-! ## The recursive table -/

variable {row : SubtreeRow}

theorem mem_nextRows {next : SubtreeRow} (h : next ∈ db.nextRows row) :
    db.Feeds row.summaryId next.summaryId ∧ next.depthFromRoot = row.depthFromRoot + 1 := by
  obtain ⟨l, hl, rfl⟩ := List.mem_map.mp h
  obtain ⟨hMem, hParent⟩ := List.mem_filter.mp hl
  exact ⟨⟨l, hMem, of_decide_eq_true hParent, rfl⟩, rfl⟩

theorem exists_nextRow {t : SummaryId} (h : db.Feeds row.summaryId t) :
    ∃ next ∈ db.nextRows row, next.summaryId = t ∧
      next.depthFromRoot = row.depthFromRoot + 1 := by
  obtain ⟨l, hl, hParent, rfl⟩ := h
  exact ⟨_, List.mem_map_of_mem (List.mem_filter.mpr ⟨hl, decide_eq_true hParent⟩), rfl, rfl⟩

variable {fuel : Nat} {rows all : List SubtreeRow}

theorem subtreeRows_cons
    (h : db.subtreeRows fuel (row :: rows) = some all) : ∃ fuel' rest, fuel = fuel' + 1 ∧
      db.subtreeRows fuel' ((row :: rows).flatMap db.nextRows) = some rest ∧
        all = row :: rows ++ rest := by
  cases fuel with
  | zero => cases h
  | succ fuel =>
    obtain ⟨rest, hRest, hAll⟩ := Option.map_eq_some_iff.mp h
    exact ⟨fuel, rest, rfl, hRest, hAll.symm⟩

/-- A row of the table is as deep as its walk from the first level is long. -/
theorem steps_of_mem_subtreeRows (h : db.subtreeRows fuel rows = some all) (hRow : row ∈ all) :
    ∃ start ∈ rows, ∃ n, Steps db.Feeds n start.summaryId row.summaryId ∧
      row.depthFromRoot = start.depthFromRoot + n := by
  induction fuel generalizing rows all with
  | zero =>
    cases rows with
    | nil =>
      obtain rfl := Option.some.inj h
      cases hRow
    | cons first rest => cases h
  | succ fuel ih =>
    cases rows with
    | nil =>
      obtain rfl := Option.some.inj h
      cases hRow
    | cons first rest =>
      obtain ⟨fuel', below, hFuel, hBelow, rfl⟩ := subtreeRows_cons h
      obtain rfl := Nat.succ.inj hFuel
      rcases List.mem_append.mp hRow with hFirst | hRow
      · exact ⟨row, hFirst, 0, rfl, rfl⟩
      · obtain ⟨next, hNext, n, hSteps, hDepth⟩ := ih hBelow hRow
        obtain ⟨start, hStart, hFrom⟩ := List.mem_flatMap.mp hNext
        obtain ⟨hFeeds, hLevel⟩ := mem_nextRows hFrom
        exact ⟨start, hStart, n + 1, ⟨_, hFeeds, hSteps⟩, by omega⟩

theorem exists_row_of_steps {n : Nat}
    (h : db.subtreeRows fuel rows = some all) {start : SubtreeRow} (hStart : start ∈ rows)
    {t : SummaryId} (hSteps : Steps db.Feeds n start.summaryId t) :
    ∃ row ∈ all, row.summaryId = t ∧ row.depthFromRoot = start.depthFromRoot + n := by
  induction n generalizing fuel rows all start with
  | zero =>
    obtain rfl : start.summaryId = t := hSteps
    cases rows with
    | nil => cases hStart
    | cons first rest =>
      obtain ⟨fuel', below, -, -, rfl⟩ := subtreeRows_cons h
      exact ⟨start, List.mem_append_left _ hStart, rfl, rfl⟩
  | succ n ih =>
    obtain ⟨c, hFeeds, hRest⟩ := hSteps
    cases rows with
    | nil => cases hStart
    | cons first rest =>
      obtain ⟨fuel', below, -, hBelow, rfl⟩ := subtreeRows_cons h
      obtain ⟨next, hNext, rfl, hLevel⟩ := exists_nextRow hFeeds
      obtain ⟨row, hRow, hId, hDepth⟩ :=
        ih hBelow (List.mem_flatMap.mpr ⟨start, hStart, hNext⟩) hRest
      exact ⟨row, List.mem_append_right _ hRow, hId, by omega⟩

/-- Where every edge leads to a greater rank below a bound, the table ends. -/
theorem exists_subtreeRows {rank : SummaryId → Nat} {bound fuel low : Nat}
    (hEdge : ∀ a b, db.Feeds a b → rank a < rank b ∧ rank b < bound) (hFuel : bound ≤ low + fuel)
    {rows : List SubtreeRow}
    (hRows : ∀ row ∈ rows, low ≤ rank row.summaryId ∧ rank row.summaryId < bound) :
    ∃ all, db.subtreeRows fuel rows = some all := by
  induction fuel generalizing low rows with
  | zero =>
    cases rows with
    | nil => exact ⟨[], rfl⟩
    | cons row rest =>
      have hRow := hRows row List.mem_cons_self
      omega
  | succ fuel ih =>
    cases rows with
    | nil => exact ⟨[], rfl⟩
    | cons row rest =>
      obtain ⟨below, hBelow⟩ : ∃ below,
          db.subtreeRows fuel ((row :: rest).flatMap db.nextRows) = some below := by
        apply @ih (low + 1) (by omega)
        intro next hNext
        obtain ⟨start, hStart, hFrom⟩ := List.mem_flatMap.mp hNext
        have hRank := hEdge _ _ (mem_nextRows hFrom).1
        have hLow := hRows start hStart
        omega
      exact ⟨row :: rest ++ below, by rw [subtreeRows, hBelow]; rfl⟩

/-! ## The listing -/

theorem keepFirst_ids (seen : List SummaryId) (nodes : List SummarySubtreeNodeRecord) :
    ((keepFirst seen nodes).map (·.summaryId)).Nodup ∧
      ∀ t, t ∈ (keepFirst seen nodes).map (·.summaryId) ↔
        t ∈ nodes.map (·.summaryId) ∧ t ∉ seen := by
  induction nodes generalizing seen with
  | nil => simp [keepFirst]
  | cons node nodes ih =>
    rw [keepFirst]
    by_cases hSeen : node.summaryId ∈ seen
    · rw [if_pos hSeen]
      obtain ⟨hNodup, hMem⟩ := ih seen
      refine ⟨hNodup, fun t => ?_⟩
      rw [hMem, List.map_cons, List.mem_cons]
      constructor
      · rintro ⟨ht, hOut⟩
        exact ⟨Or.inr ht, hOut⟩
      · rintro ⟨rfl | ht, hOut⟩
        · exact absurd hSeen hOut
        · exact ⟨ht, hOut⟩
    · rw [if_neg hSeen]
      obtain ⟨hNodup, hMem⟩ := ih (node.summaryId :: seen)
      refine ⟨?_, fun t => ?_⟩
      · rw [List.map_cons, List.nodup_cons, hMem]
        exact ⟨fun h => h.2 List.mem_cons_self, hNodup⟩
      · rw [List.map_cons, List.map_cons, List.mem_cons, List.mem_cons, hMem, List.mem_cons]
        by_cases ht : t = node.summaryId
        · subst ht
          exact ⟨fun _ => ⟨Or.inl rfl, hSeen⟩, fun _ => Or.inl rfl⟩
        · simp only [ht, false_or]

theorem keepFirst_sublist (seen : List SummaryId) (nodes : List SummarySubtreeNodeRecord) :
    (keepFirst seen nodes).Sublist nodes := by
  induction nodes generalizing seen with
  | nil => exact .slnil
  | cons node nodes ih =>
    rw [keepFirst]
    split
    · exact (ih seen).cons node
    · exact (ih _).cons_cons node

variable {node : SummarySubtreeNodeRecord}

/-- In a list sorted by depth, the first node of a summary is its shallowest. -/
theorem keepFirst_least {seen : List SummaryId} {nodes : List SummarySubtreeNodeRecord}
    (hSorted : nodes.Pairwise fun a b => a.depthFromRoot ≤ b.depthFromRoot)
    {other : SummarySubtreeNodeRecord} (hNode : node ∈ keepFirst seen nodes)
    (hOther : other ∈ nodes) (hId : other.summaryId = node.summaryId) :
    node.depthFromRoot ≤ other.depthFromRoot := by
  induction nodes generalizing seen with
  | nil => cases hOther
  | cons first rest ih =>
    obtain ⟨hFirst, hRest⟩ := List.pairwise_cons.mp hSorted
    have hOut : node.summaryId ∉ seen :=
      (((keepFirst_ids seen (first :: rest)).2 _).mp (List.mem_map_of_mem hNode)).2
    rw [keepFirst] at hNode
    split at hNode
    · rename_i hSeen
      rcases List.mem_cons.mp hOther with rfl | hOther
      · exact absurd (hId ▸ hSeen) hOut
      · exact ih hRest hNode hOther
    · rcases List.mem_cons.mp hNode with rfl | hNode
      · rcases List.mem_cons.mp hOther with rfl | hOther
        · exact Nat.le_refl _
        · exact hFirst other hOther
      · rcases List.mem_cons.mp hOther with rfl | hOther
        · have hNew := (((keepFirst_ids _ rest).2 _).mp (List.mem_map_of_mem hNode)).2
          exact absurd (hId ▸ List.mem_cons_self) hNew
        · exact ih hRest hNode hOther

theorem subtreeNode_eq_some
    (h : db.subtreeNode row = some node) : (db.getSummary node.summaryId).isSome ∧
      node.summaryId = row.summaryId ∧ node.depthFromRoot = row.depthFromRoot := by
  obtain ⟨s, hFound, rfl⟩ := Option.map_eq_some_iff.mp h
  have hId := List.find?_some hFound
  simp only [decide_eq_true_eq] at hId
  refine ⟨?_, hId.1, rfl⟩
  show (db.getSummary s.summaryId).isSome
  rw [hId.1, hFound]
  rfl

theorem exists_subtreeNode (h : (db.getSummary row.summaryId).isSome) :
    ∃ node, db.subtreeNode row = some node := by
  obtain ⟨s, hFound⟩ := Option.isSome_iff_exists.mp h
  exact ⟨_, Option.map_eq_some_iff.mpr ⟨s, hFound, rfl⟩⟩

/-- Whatever the cap is, a listed node is reached along the edges in as many steps as
its depth says. -/
theorem steps_of_mem_getSummarySubtree {limit : Nat} {root : SummaryId}
    {nodes : List SummarySubtreeNodeRecord} (h : db.getSummarySubtree limit fuel root = some nodes)
    (hNode : node ∈ nodes) : Steps db.Feeds node.depthFromRoot root node.summaryId := by
  obtain ⟨rows, hRows, rfl⟩ := Option.map_eq_some_iff.mp h
  have hMem := List.mem_of_mem_take ((keepFirst_sublist _ _).subset hNode)
  obtain ⟨row, hRow, hNode⟩ := List.mem_filterMap.mp (Table.mem_select.mp hMem).1
  obtain ⟨-, hId, hDepth⟩ := subtreeNode_eq_some hNode
  obtain ⟨start, hStart, n, hSteps, hSum⟩ := steps_of_mem_subtreeRows hRows hRow
  obtain rfl := List.mem_singleton.mp hStart
  have hLength : n = node.depthFromRoot := by
    rw [hDepth, hSum]
    exact (Nat.zero_add n).symm
  rw [hId, ← hLength]
  exact hSteps

/-- The order of the listing goes by the depth first. -/
theorem listing_pairwise (nodes : List SummarySubtreeNodeRecord) :
    (Table.select (fun _ => true) (fun node : SummarySubtreeNodeRecord =>
      toLex (node.depthFromRoot, toLex (node.path, node.createdAt))) nodes).Pairwise
        fun a b => a.depthFromRoot ≤ b.depthFromRoot := by
  refine (Table.select_pairwise_le _).imp fun hLe => ?_
  rcases Prod.Lex.toLex_le_toLex.mp hLe with hLt | ⟨hEq, -⟩
  · exact le_of_lt hLt
  · exact le_of_eq hEq

/-- Without the cap the listing has every summary that can be read and reached along the
edges, once, and at its distance. -/
theorem mem_getSummarySubtree {limit : Nat} {root : SummaryId}
    (hRows : db.subtreeRows fuel [⟨root, none, 0, ""⟩] = some rows) (hLimit : rows.length ≤ limit) :
    ∃ nodes, db.getSummarySubtree limit fuel root = some nodes ∧
      (nodes.map (·.summaryId)).Nodup ∧
      (∀ t, t ∈ nodes.map (·.summaryId) ↔
        (db.getSummary t).isSome ∧ Relation.ReflTransGen db.Feeds root t) ∧
      ∀ node ∈ nodes, IsDistance db.Feeds node.depthFromRoot root node.summaryId := by
  let sorted := Table.select (fun _ => true)
    (fun node : SummarySubtreeNodeRecord =>
      toLex (node.depthFromRoot, toLex (node.path, node.createdAt)))
    (rows.filterMap db.subtreeNode)
  have hAll : sorted.take limit = sorted := by
    refine List.take_of_length_le (le_trans ?_ hLimit)
    rw [(Table.select_perm _).length_eq]
    exact (List.length_filter_le _ _).trans (List.length_filterMap_le _ _)
  have hRun : db.getSummarySubtree limit fuel root = some (keepFirst [] sorted) := by
    rw [getSummarySubtree, hRows]
    exact congrArg (fun nodes => some (keepFirst [] nodes)) hAll
  have hReached : ∀ {t n}, (db.getSummary t).isSome → Steps db.Feeds n root t →
      ∃ node ∈ sorted, node.summaryId = t ∧ node.depthFromRoot = n := by
    intro t n hFound hSteps
    obtain ⟨row, hRow, rfl, hDepth⟩ :=
      exists_row_of_steps hRows (List.mem_singleton_self _) hSteps
    obtain ⟨node, hNode⟩ := exists_subtreeNode hFound
    obtain ⟨-, hId, hLevel⟩ := subtreeNode_eq_some hNode
    exact ⟨node, Table.mem_select.mpr ⟨List.mem_filterMap.mpr ⟨row, hRow, hNode⟩, rfl⟩, hId,
      hLevel.trans (hDepth.trans (Nat.zero_add n))⟩
  have hSorted : sorted.Pairwise fun a b => a.depthFromRoot ≤ b.depthFromRoot :=
    listing_pairwise _
  refine ⟨keepFirst [] sorted, hRun, (keepFirst_ids [] sorted).1, fun t => ?_, fun node hNode =>
    ⟨steps_of_mem_getSummarySubtree hRun hNode, fun k hk => ?_⟩⟩
  · rw [(keepFirst_ids [] sorted).2]
    constructor
    · rintro ⟨ht, -⟩
      obtain ⟨node, hNode, rfl⟩ := List.mem_map.mp ht
      obtain ⟨row, hRow, hNode⟩ := List.mem_filterMap.mp (Table.mem_select.mp hNode).1
      obtain ⟨hFound, hId, -⟩ := subtreeNode_eq_some hNode
      obtain ⟨start, hStart, n, hSteps, -⟩ := steps_of_mem_subtreeRows hRows hRow
      obtain rfl := List.mem_singleton.mp hStart
      exact ⟨hFound, hId ▸ hSteps.reflTransGen⟩
    · rintro ⟨hFound, hPath⟩
      obtain ⟨n, hSteps⟩ := exists_steps hPath
      obtain ⟨node, hNode, hId, -⟩ := hReached hFound hSteps
      exact ⟨List.mem_map.mpr ⟨node, hNode, hId⟩, List.not_mem_nil⟩
  · have hListed := (keepFirst_sublist [] sorted).subset hNode
    obtain ⟨row, hRow, hFound⟩ := List.mem_filterMap.mp (Table.mem_select.mp hListed).1
    obtain ⟨hSome, -, -⟩ := subtreeNode_eq_some hFound
    obtain ⟨other, hOther, hSame, hDepth⟩ := hReached hSome hk
    rw [← hDepth]
    exact keepFirst_least hSorted hNode hOther hSame

end Db
end LosslessHermes
