import LosslessHermes.Library.Dict
import LosslessHermes.Compaction.Aggregates

/-!
# The integrity scan

`IntegrityChecker.scan` restates, in eight checks of one conversation, what ingestion and
compaction maintain. Six of the checks collect findings and pass if there are none:
`checkFindings` is their common end.
-/

namespace LosslessHermes

inductive CheckStatus
  | pass
  | fail
  | warn
  deriving DecidableEq, Repr

structure Gap where
  expected : Nat
  actual : Int
  deriving DecidableEq, Repr

structure DanglingRef where
  ordinal : Int
  ref : ContextItemRef
  deriving DecidableEq, Repr

structure MissingLineage where
  summaryId : SummaryId
  kind : SummaryKind
  issue : String
  deriving DecidableEq, Repr

structure SeenRef where
  ref : ContextItemRef
  ordinals : List Int
  deriving DecidableEq, Repr

inductive CheckDetails
  | gaps (gaps : List Gap)
  | danglingRefs (refs : List DanglingRef)
  | missingLineage (missing : List MissingLineage)
  | orphanedSummaryIds (ids : List SummaryId)
  | tokens (manualSum aggregateTotal difference : Int)
  | duplicates (duplicates : List SeenRef)
  deriving DecidableEq, Repr

structure IntegrityCheck where
  name : String
  status : CheckStatus
  message : String
  details : Option CheckDetails := none
  deriving DecidableEq, Repr

structure IntegrityReport where
  conversationId : ConversationId
  checks : List IntegrityCheck
  passCount : Nat
  failCount : Nat
  warnCount : Nat
  scannedAt : Timestamp
  deriving DecidableEq, Repr

namespace Integrity

/-! ## The checks -/

variable {α : Type}

/-- A check passes without findings; otherwise it lists them. -/
def checkFindings (name : String) (status : CheckStatus) (findings : List α)
    (passed found : String) (details : List α → CheckDetails) : IntegrityCheck :=
  if findings.length = 0 then { name := name, status := .pass, message := passed }
  else { name := name, status := status, message := found, details := some (details findings) }

/-- The places whose number is not the place. -/
def gapsOf (numbers : List Int) : List Gap :=
  numbers.zipIdx.filterMap fun (n, i) => if n ≠ (i : Int) then some ⟨i, n⟩ else none

def checkConversationExists (db : Db) (c : ConversationId) : IntegrityCheck :=
  if (db.getConversation c).isSome then
    { name := "conversation_exists", status := .pass
      message := "Conversation " ++ toString c ++ " exists" }
  else
    { name := "conversation_exists", status := .fail
      message := "Conversation " ++ toString c ++ " not found" }

/-- `ordinal` and `seq` are checked alike. -/
def checkNumbers (name noRows : String) (passed found : Nat → String) (numbers : List Int) :
    IntegrityCheck :=
  if numbers.length = 0 then { name := name, status := .pass, message := noRows }
  else
    let gaps := gapsOf numbers
    checkFindings name .fail gaps (passed numbers.length) (found gaps.length) .gaps

def checkContextItemsContiguous (db : Db) (c : ConversationId) : IntegrityCheck :=
  checkNumbers "context_items_contiguous" "No context items to check"
    (fun n => "All " ++ toString n ++ " context items have contiguous ordinals")
    (fun n => "Found " ++ toString n ++ " ordinal gap(s) in context items")
    ((db.getContextItems c).map (·.ordinal))

def checkContextItemsValidRefs (db : Db) (c : ConversationId) : IntegrityCheck :=
  let dangling := (db.getContextItems c).filterMap fun i =>
    if db.hasRef i.ref then none else some (⟨i.ordinal, i.ref⟩ : DanglingRef)
  checkFindings "context_items_valid_refs" .fail dangling
    "All context item references are valid"
    ("Found " ++ toString dangling.length ++ " dangling reference(s) in context items")
    .danglingRefs

def summariesOf (db : Db) (c : ConversationId) : List SummaryRecord :=
  db.summaries.filter fun s => s.conversationId = c

/-- A leaf without messages, or a condensed summary without sources. -/
def lineageIssue (db : Db) (s : SummaryRecord) : Option MissingLineage :=
  match s.kind with
  | .leaf =>
      if db.summaryMessages.any fun l => l.summaryId = s.summaryId then none
      else some ⟨s.summaryId, .leaf, "no linked messages in summary_messages"⟩
  | .condensed =>
      if db.summaryParents.any fun l => l.summaryId = s.summaryId then none
      else some ⟨s.summaryId, .condensed, "no linked parents in summary_parents"⟩

def checkSummariesHaveLineage (db : Db) (c : ConversationId) : IntegrityCheck :=
  let rows := summariesOf db c
  let missing := rows.filterMap (lineageIssue db)
  checkFindings "summaries_have_lineage" .fail missing
    ("All " ++ toString rows.length ++ " summaries have proper lineage")
    ("Found " ++ toString missing.length ++ " summary/summaries missing lineage")
    .missingLineage

/-- Neither in the context of the conversation nor a source of another summary. -/
def isOrphan (db : Db) (c : ConversationId) (s : SummaryId) : Bool :=
  !(db.contextItems.any fun i => i.conversationId = c ∧ i.ref = .summary s) &&
    !(db.summaryParents.any fun l => l.parentSummaryId = s ∧
      (summariesOf db c).any fun row => row.summaryId = l.parentSummaryId)

/-- The one check that warns. -/
def checkNoOrphanSummaries (db : Db) (c : ConversationId) : IntegrityCheck :=
  let orphans := ((summariesOf db c).map (·.summaryId)).filter (isOrphan db c)
  checkFindings "no_orphan_summaries" .warn orphans "No orphaned summaries found"
    ("Found " ++ toString orphans.length ++
      " orphaned summary/summaries disconnected from the DAG")
    .orphanedSummaryIds

/-- The rows that an item is joined with. -/
def joinedTokenCounts (db : Db) (i : ContextItemRecord) : List Nat :=
  match i.ref with
  | .message m => (db.messages.filter fun row => row.messageId = m).map (·.tokenCount)
  | .summary s => (db.summaries.filter fun row => row.summaryId = s).map (·.tokenCount)

def isMessageItem (i : ContextItemRecord) : Bool :=
  match i.ref with
  | .message _ => true
  | .summary _ => false

/-- Two joins, one for each type of item. -/
def manualSum (db : Db) (c : ConversationId) : Nat :=
  let items := db.contextItems.filter fun i => i.conversationId = c
  ((items.filter isMessageItem).flatMap (joinedTokenCounts db)).sum +
    ((items.filter fun i => !isMessageItem i).flatMap (joinedTokenCounts db)).sum

/-- One subquery for each item. -/
def aggregateTotal (db : Db) (c : ConversationId) : Nat :=
  ((db.contextItems.filter fun i => i.conversationId = c).map fun i => db.refTokenCount i.ref).sum

def checkContextTokenConsistency (db : Db) (c : ConversationId) : IntegrityCheck :=
  let manualSum := manualSum db c
  let aggregateTotal := aggregateTotal db c
  if manualSum = aggregateTotal then
    { name := "context_token_consistency", status := .pass
      message := "Context token count is consistent (" ++ toString aggregateTotal ++ " tokens)" }
  else
    { name := "context_token_consistency", status := .fail
      message := "Token count mismatch: item-level sum = " ++ toString manualSum ++
        ", aggregate query = " ++ toString aggregateTotal
      details := some (.tokens manualSum aggregateTotal (manualSum - aggregateTotal)) }

def checkMessageSeqContiguous (db : Db) (c : ConversationId) : IntegrityCheck :=
  checkNumbers "message_seq_contiguous" "No messages to check"
    (fun n => "All " ++ toString n ++ " messages have contiguous seq values")
    (fun n => "Found " ++ toString n ++ " seq gap(s) in messages")
    ((db.getMessages c).map fun m => (m.seq : Int))

/-- `seen.setdefault(ref, []).append(ordinal)` for each item. -/
def seenRefs (items : List ContextItemRecord) : List SeenRef :=
  Dict.setAll (·.ref)
    (fun seen i => ⟨i.ref, ((Dict.get (·.ref) i.ref seen).map (·.ordinals)).getD [] ++ [i.ordinal]⟩)
    items []

def checkNoDuplicateContextRefs (db : Db) (c : ConversationId) : IntegrityCheck :=
  let items := db.getContextItems c
  let seenMessages := seenRefs (items.filter isMessageItem)
  let seenSummaries := seenRefs (items.filter fun i => !isMessageItem i)
  let duplicates := (seenMessages ++ seenSummaries).filter fun seen => 1 < seen.ordinals.length
  checkFindings "no_duplicate_context_refs" .fail duplicates
    "No duplicate references in context items"
    ("Found " ++ toString duplicates.length ++ " duplicate reference(s) in context items")
    .duplicates

def scan (db : Db) (c : ConversationId) (now : Timestamp) : IntegrityReport :=
  let checks := [checkConversationExists db c, checkContextItemsContiguous db c,
    checkContextItemsValidRefs db c, checkSummariesHaveLineage db c, checkNoOrphanSummaries db c,
    checkContextTokenConsistency db c, checkMessageSeqContiguous db c,
    checkNoDuplicateContextRefs db c]
  { conversationId := c, checks := checks
    passCount := checks.countP fun check => check.status = .pass
    failCount := checks.countP fun check => check.status = .fail
    warnCount := checks.countP fun check => check.status = .warn
    scannedAt := now }

/-! ## When a check passes -/

variable {db : Db} {c : ConversationId} {numbers : List Int}

theorem checkFindings_pass {name : String} {status : CheckStatus} {findings : List α}
    {passed found : String} {details : List α → CheckDetails} (hStatus : status ≠ .pass) :
    (checkFindings name status findings passed found details).status = .pass ↔ findings = [] := by
  unfold checkFindings
  split
  · rename_i hNone
    exact iff_of_true rfl (List.length_eq_zero_iff.mp hNone)
  · rename_i hSome
    exact iff_of_false hStatus fun hNil => hSome (List.length_eq_zero_iff.mpr hNil)

theorem gapsOf_eq_nil : gapsOf numbers = [] ↔
    numbers = (List.range numbers.length).map fun n : Nat => (n : Int) := by
  unfold gapsOf
  rw [List.filterMap_eq_nil_iff]
  constructor
  · intro hNone
    apply List.ext_getElem
    · simp
    · intro n h₁ h₂
      have hPlace := hNone (numbers[n], n) (by simp [List.mem_zipIdx_iff_getElem?, h₁])
      simpa using hPlace
  · intro hNumbers entry hMem
    obtain ⟨n, i⟩ := entry
    have hPlace := List.mem_zipIdx_iff_getElem?.mp hMem
    dsimp only at hPlace
    rw [hNumbers, List.getElem?_map, List.getElem?_range] at hPlace
    · simpa using hPlace.symm
    · have hSome := (List.getElem?_eq_some_iff.mp (List.mem_zipIdx_iff_getElem?.mp hMem)).1
      exact hSome

theorem checkNumbers_pass {name noRows : String} {passed found : Nat → String} :
    (checkNumbers name noRows passed found numbers).status = .pass ↔
      numbers = (List.range numbers.length).map fun n : Nat => (n : Int) := by
  unfold checkNumbers
  split
  · rename_i hNone
    rw [List.length_eq_zero_iff.mp hNone]
    exact iff_of_true rfl rfl
  · dsimp only
    rw [checkFindings_pass (by decide), gapsOf_eq_nil]

theorem checkContextItemsContiguous_pass (h : Contiguous (db.getContextItems c)) :
    (checkContextItemsContiguous db c).status = .pass := by
  unfold checkContextItemsContiguous
  rw [checkNumbers_pass, List.length_map]
  exact h

/-- The numbers that ingestion gives are those from `1` on, and the check wants those from
`0` on. -/
theorem checkMessageSeqContiguous_iff {n : Nat}
    (h : (db.getMessages c).map (·.seq) = List.range' 1 n) :
    (checkMessageSeqContiguous db c).status = .pass ↔ db.getMessages c = [] := by
  have hLength : (db.getMessages c).length = n := by
    rw [← List.length_map (f := fun m : MessageRecord => m.seq), h, List.length_range']
  unfold checkMessageSeqContiguous
  rw [checkNumbers_pass, List.length_map]
  constructor
  · intro hNumbers
    by_contra hSome
    have hFirst := congrArg (fun numbers : List Int => numbers[0]?) hNumbers
    have hPos := List.length_pos_of_ne_nil hSome
    have hSeq := congrArg (fun numbers : List Nat => numbers[0]?) h
    simp [hPos, hLength ▸ hPos] at hFirst hSeq
    omega
  · intro hNone
    rw [hNone]
    rfl

theorem checkContextItemsValidRefs_pass
    (h : ∀ i ∈ db.getContextItems c, db.hasRef i.ref = true) :
    (checkContextItemsValidRefs db c).status = .pass := by
  unfold checkContextItemsValidRefs
  dsimp only
  rw [checkFindings_pass (by decide), List.filterMap_eq_nil_iff]
  intro i hMem
  rw [if_pos (h i hMem)]

/-- A summary that is made from something has rows of its sources. -/
theorem lineageIssue_of_aggregated {record : SummaryRecord}
    (h : Compaction.Aggregated db record) : lineageIssue db record = none := by
  unfold lineageIssue
  cases h with
  | leaf messages h =>
    rw [h.kind]
    dsimp only
    refine if_pos (List.any_eq_true.mpr ?_)
    obtain ⟨m, hMem⟩ := List.exists_mem_of_ne_nil _ h.ne
    have hLinked : m.messageId ∈ db.getSummaryMessages record.summaryId := by
      rw [h.ids]
      exact List.mem_map_of_mem hMem
    obtain ⟨l, hLink, -⟩ := List.mem_map.mp hLinked
    exact ⟨l, Table.mem_select.mp hLink⟩
  | condensed sources level h =>
    rw [h.kind]
    dsimp only
    refine if_pos (List.any_eq_true.mpr ?_)
    obtain ⟨p, hMem⟩ := List.exists_mem_of_ne_nil _ h.ne
    rw [← h.parents] at hMem
    obtain ⟨l, hLink, -⟩ := List.mem_filterMap.mp hMem
    exact ⟨l, Table.mem_select.mp hLink⟩

theorem checkSummariesHaveLineage_pass (h : Compaction.Rooted db) :
    (checkSummariesHaveLineage db c).status = .pass := by
  unfold checkSummariesHaveLineage
  dsimp only
  rw [checkFindings_pass (by decide), List.filterMap_eq_nil_iff]
  intro s hMem
  have hRow := h.getSummary_of_mem (List.mem_filter.mp hMem).1
  exact lineageIssue_of_aggregated (h.rows _ _ hRow)

/-- Every summary is in the context of its conversation or a source of another one. -/
def Reachable (db : Db) : Prop :=
  ∀ s ∈ db.summaries,
    .summary s.summaryId ∈ (db.getContextItems s.conversationId).map (·.ref) ∨
      ∃ l ∈ db.summaryParents, l.parentSummaryId = s.summaryId

theorem checkNoOrphanSummaries_pass (h : Reachable db) :
    (checkNoOrphanSummaries db c).status = .pass := by
  unfold checkNoOrphanSummaries
  dsimp only
  rw [checkFindings_pass (by decide), List.filter_eq_nil_iff]
  intro id hId hOrphan
  obtain ⟨s, hMem, rfl⟩ := List.mem_map.mp hId
  have hOwn := of_decide_eq_true (List.mem_filter.mp hMem).2
  unfold isOrphan at hOrphan
  rw [Bool.and_eq_true, Bool.not_eq_true', Bool.not_eq_true', List.any_eq_false,
    List.any_eq_false] at hOrphan
  rcases h s (List.mem_filter.mp hMem).1 with hItem | ⟨l, hLink, hSource⟩
  · obtain ⟨i, hItem, hRef⟩ := List.mem_map.mp hItem
    obtain ⟨hRow, hHere⟩ := Table.mem_select.mp hItem
    exact hOrphan.1 i hRow (decide_eq_true ⟨(of_decide_eq_true hHere).trans hOwn, hRef⟩)
  · refine hOrphan.2 l hLink (decide_eq_true ⟨hSource, List.any_eq_true.mpr ⟨s, hMem, ?_⟩⟩)
    exact decide_eq_true hSource.symm

/-- A row that is joined by a key is the one that the subquery finds. -/
theorem sum_joined {ρ κ : Type} [DecidableEq κ] (key : ρ → κ) (weight : ρ → Nat) (k : κ)
    {rows : List ρ} (h : (rows.map key).Nodup) :
    ((rows.filter fun row => key row = k).map weight).sum =
      ((rows.find? fun row => key row = k).map weight).getD 0 := by
  induction rows with
  | nil => rfl
  | cons row rows ih =>
    rw [List.map_cons, List.nodup_cons] at h
    by_cases hKey : key row = k
    · have hNone : rows.filter (fun row => key row = k) = [] := by
        rw [List.filter_eq_nil_iff]
        intro other hOther hSame
        exact h.1 (List.mem_map.mpr ⟨other, hOther, (of_decide_eq_true hSame).trans hKey.symm⟩)
      simp [hNone, hKey]
    · simpa [hKey] using ih h.2

theorem sum_joinedTokenCounts (hMessages : (db.messages.map (·.messageId)).Nodup)
    (hSummaries : (db.summaries.map (·.summaryId)).Nodup) (i : ContextItemRecord) :
    (joinedTokenCounts db i).sum = db.refTokenCount i.ref := by
  unfold joinedTokenCounts Db.refTokenCount Db.getMessageById Db.getSummary
  cases i.ref with
  | message m => simpa using sum_joined MessageRecord.messageId (·.tokenCount) m hMessages
  | summary s => simpa using sum_joined SummaryRecord.summaryId (·.tokenCount) s hSummaries

theorem checkContextTokenConsistency_pass (hMessages : (db.messages.map (·.messageId)).Nodup)
    (hSummaries : (db.summaries.map (·.summaryId)).Nodup) :
    (checkContextTokenConsistency db c).status = .pass := by
  have hSame : manualSum db c = aggregateTotal db c := by
    unfold manualSum aggregateTotal
    dsimp only
    induction db.contextItems.filter fun i => i.conversationId = c with
    | nil => rfl
    | cons i items ih =>
      have hItem := sum_joinedTokenCounts hMessages hSummaries i
      rw [List.map_cons, List.sum_cons, ← ih, ← hItem]
      cases hType : isMessageItem i with
      | true =>
        rw [List.filter_cons_of_pos hType, List.filter_cons_of_neg (by simp [hType]),
          List.flatMap_cons, List.sum_append]
        omega
      | false =>
        rw [List.filter_cons_of_neg (by simp [hType]), List.filter_cons_of_pos
          (by simp [hType]), List.flatMap_cons, List.sum_append]
        omega
  unfold checkContextTokenConsistency
  dsimp only
  rw [if_pos hSame]

/-- Items of distinct references are each seen once. -/
theorem seenRefs_of_nodup {items : List ContextItemRecord} (h : (items.map (·.ref)).Nodup) :
    seenRefs items = items.map fun i => ⟨i.ref, [i.ordinal]⟩ := by
  unfold seenRefs
  suffices hRest : ∀ seen : List SeenRef, ((seen.map (·.ref)) ++ items.map (·.ref)).Nodup →
      Dict.setAll (·.ref) (fun seen (i : ContextItemRecord) => ⟨i.ref,
        ((Dict.get (·.ref) i.ref seen).map (·.ordinals)).getD [] ++ [i.ordinal]⟩) items seen =
        seen ++ items.map fun i => ⟨i.ref, [i.ordinal]⟩ from hRest [] h
  clear h
  induction items with
  | nil =>
    intro seen _
    exact (List.append_nil _).symm
  | cons i items ih =>
    intro seen hNodup
    rw [List.map_cons] at hNodup
    have hNew : i.ref ∉ seen.map (·.ref) := fun hMem =>
      (List.nodup_append.mp hNodup).2.2 _ hMem _ List.mem_cons_self rfl
    unfold Dict.setAll
    rw [Dict.get_eq_none.mpr hNew, Dict.set_of_new hNew, ih]
    · rw [List.append_assoc]
      rfl
    · rw [List.map_append, List.append_assoc]
      exact hNodup

theorem checkNoDuplicateContextRefs_pass (h : ((db.getContextItems c).map (·.ref)).Nodup) :
    (checkNoDuplicateContextRefs db c).status = .pass := by
  unfold checkNoDuplicateContextRefs
  dsimp only
  rw [checkFindings_pass (by decide), List.filter_eq_nil_iff,
    seenRefs_of_nodup (h.sublist (List.filter_sublist.map _)),
    seenRefs_of_nodup (h.sublist (List.filter_sublist.map _))]
  intro seen hMem
  rw [List.mem_append, List.mem_map, List.mem_map] at hMem
  rcases hMem with ⟨i, -, rfl⟩ | ⟨i, -, rfl⟩
  · simp
  · simp

end Integrity

end LosslessHermes
