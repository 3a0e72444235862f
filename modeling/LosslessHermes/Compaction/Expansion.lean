import LosslessHermes.Library.Collect
import LosslessHermes.Store.ContextRange

/-!
# Expanding a context through the summary DAG

`expandContext` walks the context items of a conversation by ordinal and
replaces each by the message ids it stands for: a message by itself, a leaf by
`get_summary_messages`, a condensed summary by its `get_summary_parents`,
recursively. The recursion is on fuel; one more than the largest depth is
always enough (`SummariesWellFormed.expand_of_lt`).
-/

namespace LosslessHermes

open Collect

namespace Db

def expandSummary (db : Db) : Nat → SummaryId → Option (List MessageId)
  | 0, _ => none
  | fuel + 1, s =>
      match db.getSummary s with
      | none => none
      | some record =>
          match record.kind with
          | .leaf => some (db.getSummaryMessages s)
          | .condensed =>
              collect (expandSummary db fuel) ((db.getSummaryParents s).map (·.summaryId))

def expandRef (db : Db) (fuel : Nat) : ContextItemRef → Option (List MessageId)
  | .message m => some [m]
  | .summary s => db.expandSummary fuel s

def expandContext (db : Db) (fuel : Nat) (conversationId : ConversationId) :
    Option (List MessageId) :=
  collect (db.expandRef fuel) ((db.getContextItems conversationId).map (·.ref))

variable {db : Db} {fuel : Nat} {s : SummaryId} {ids : List MessageId}

theorem expandSummary_succ
    (h : db.expandSummary fuel s = some ids) : db.expandSummary (fuel + 1) s = some ids := by
  induction fuel generalizing s ids with
  | zero => cases h
  | succ fuel ih =>
    rw [expandSummary] at h ⊢
    cases hSummary : db.getSummary s with
    | none => simp [hSummary] at h
    | some record =>
      simp only [hSummary] at h ⊢
      cases hKind : record.kind with
      | leaf => simpa [hKind] using h
      | condensed =>
        simp only [hKind] at h ⊢
        exact collect_congr (fun p _ _ hp => ih hp) h

theorem expandSummary_mono {fuel' : Nat}
    (h : db.expandSummary fuel s = some ids) (hLe : fuel ≤ fuel') :
    db.expandSummary fuel' s = some ids := by
  induction hLe with
  | refl => exact h
  | step _ ih => exact expandSummary_succ ih

/-- `db'` reads every summary of `db`, and the sources of it, as `db` does. -/
structure Extends (db db' : Db) : Prop where
  summary : ∀ s record, db.getSummary s = some record → db'.getSummary s = some record
  messages : ∀ s record, db.getSummary s = some record →
    db'.getSummaryMessages s = db.getSummaryMessages s
  parents : ∀ s record, db.getSummary s = some record →
    db'.getSummaryParents s = db.getSummaryParents s

theorem Extends.expandSummary {db' : Db} (h : Extends db db')
    (hExpand : db.expandSummary fuel s = some ids) :
    db'.expandSummary fuel s = some ids := by
  induction fuel generalizing s ids with
  | zero => cases hExpand
  | succ fuel ih =>
    rw [Db.expandSummary] at hExpand ⊢
    cases hSummary : db.getSummary s with
    | none => simp [hSummary] at hExpand
    | some record =>
      simp only [hSummary, h.summary s record hSummary] at hExpand ⊢
      cases hKind : record.kind with
      | leaf => simpa [hKind, h.messages s record hSummary] using hExpand
      | condensed =>
        simp only [hKind, h.parents s record hSummary] at hExpand ⊢
        exact collect_congr (fun p _ _ hp => ih hp) hExpand

theorem Extends.expandRef {db' : Db} (h : Extends db db')
    {ref : ContextItemRef} (hExpand : db.expandRef fuel ref = some ids) :
    db'.expandRef fuel ref = some ids := by
  cases ref with
  | message m => exact hExpand
  | summary s => exact h.expandSummary hExpand

/-! ## Summaries whose sources exist -/

structure SummariesWellFormed (db : Db) : Prop where
  /-- Links are owned by existing summaries and lead to existing ones. -/
  messageLinks : ∀ l ∈ db.summaryMessages, l.summaryId ∈ db.summaries.map (·.summaryId)
  parentLinks : ∀ l ∈ db.summaryParents, l.summaryId ∈ db.summaries.map (·.summaryId) ∧
    ∃ record, db.getSummary l.parentSummaryId = some record
  expandable : ∀ s record, db.getSummary s = some record →
    ∃ ids, db.expandSummary (record.depth + 1) s = some ids

theorem mem_of_getSummary {record : SummaryRecord}
    (h : db.getSummary s = some record) : record ∈ db.summaries ∧ record.summaryId = s := by
  have hSome := List.find?_some h
  simp only [decide_eq_true_eq] at hSome
  exact ⟨List.mem_of_find?_eq_some h, hSome.1⟩

/-- Where no id is used twice and nothing is hidden, each row is the one its id finds. -/
theorem getSummary_of_unique (hVisible : ∀ r ∈ db.summaries, r.suppressedAt = none)
    (hUnique : (db.summaries.map (·.summaryId)).Nodup) {r : SummaryRecord}
    (hr : r ∈ db.summaries) : db.getSummary r.summaryId = some r := by
  refine Table.find_of_unique hr (by simp [hVisible r hr]) fun r' hr' hTest => ?_
  simp only [decide_eq_true_eq] at hTest
  exact List.inj_on_of_nodup_map hUnique hr' hr hTest.1

/-- Any fuel above the depth gives the same expansion. -/
theorem SummariesWellFormed.expand_of_lt (h : SummariesWellFormed db)
    {record : SummaryRecord} (hSummary : db.getSummary s = some record) {fuel' : Nat}
    (hLt : record.depth < fuel) (hLt' : record.depth < fuel')
    (hExpand : db.expandSummary fuel s = some ids) : db.expandSummary fuel' s = some ids := by
  obtain ⟨ids', hIds⟩ := h.expandable s record hSummary
  have hEq := expandSummary_mono hIds hLt
  rw [hExpand] at hEq
  obtain rfl := Option.some.inj hEq
  exact expandSummary_mono hIds hLt'

/-! ## Adding a summary -/

def addSummary (db : Db) (record : SummaryRecord) (messageIds : List MessageId)
    (parentIds : List SummaryId) : Db :=
  { db with
    summaries := db.summaries ++ [record]
    summaryMessages := db.summaryMessages ++
      (messageIds.zipIdx.map fun (m, i) => ⟨record.summaryId, m, i⟩)
    summaryParents := db.summaryParents ++
      (parentIds.zipIdx.map fun (p, i) => ⟨record.summaryId, p, i⟩) }

section AddSummary

variable {db : Db} {record : SummaryRecord} {messageIds : List MessageId}
  {parentIds : List SummaryId}

variable {s : SummaryId}

theorem getSummary_addSummary {old : SummaryRecord} (h : db.getSummary s = some old) :
    (db.addSummary record messageIds parentIds).getSummary s = some old := by
  unfold getSummary at h ⊢
  unfold addSummary
  rw [List.find?_append, h]
  rfl

theorem getSummary_addSummary_self (hFresh : record.summaryId ∉ db.summaries.map (·.summaryId))
    (hVisible : record.suppressedAt = none) :
    (db.addSummary record messageIds parentIds).getSummary record.summaryId = some record := by
  unfold getSummary addSummary
  rw [List.find?_append, List.find?_eq_none.mpr, Option.none_or]
  · simp [hVisible]
  · intro s hs
    simp only [decide_eq_true_eq, not_and]
    intro hEq
    exact absurd (hEq ▸ List.mem_map_of_mem hs) hFresh

theorem getSummaryMessages_addSummary (hne : s ≠ record.summaryId) :
    (db.addSummary record messageIds parentIds).getSummaryMessages s =
      db.getSummaryMessages s := by
  unfold getSummaryMessages
  refine congrArg _ (Table.select_append_of_not fun l hl => ?_)
  obtain ⟨m, -, rfl⟩ := List.mem_map.mp hl
  simpa using hne.symm

theorem getSummaryMessages_addSummary_self (h : SummariesWellFormed db)
    (hFresh : record.summaryId ∉ db.summaries.map (·.summaryId)) :
    (db.addSummary record messageIds parentIds).getSummaryMessages record.summaryId =
      messageIds := by
  unfold getSummaryMessages addSummary
  rw [Table.select_append_of_new]
  · rw [List.map_map]
    exact List.zipIdx_map_fst 0 messageIds
  · intro l hl
    simp only [decide_eq_false_iff_not]
    intro hEq
    exact hFresh (hEq ▸ h.messageLinks l hl)
  · intro l hl
    obtain ⟨m, -, rfl⟩ := List.mem_map.mp hl
    simp
  · rw [List.pairwise_map]
    exact List.pairwise_map.mp (by rw [List.zipIdx_map_snd]; exact List.pairwise_lt_range')

theorem getSummaryParents_addSummary (h : SummariesWellFormed db) (hne : s ≠ record.summaryId) :
    (db.addSummary record messageIds parentIds).getSummaryParents s = db.getSummaryParents s := by
  have hSelect : Table.select (fun l : SummaryParentLink => decide (l.summaryId = s)) (·.ordinal)
      (db.addSummary record messageIds parentIds).summaryParents =
      Table.select (fun l => decide (l.summaryId = s)) (·.ordinal) db.summaryParents := by
    refine Table.select_append_of_not fun l hl => ?_
    obtain ⟨p, -, rfl⟩ := List.mem_map.mp hl
    simpa using hne.symm
  unfold getSummaryParents
  rw [hSelect]
  apply List.filterMap_congr
  intro l hl
  obtain ⟨old, hOld⟩ := (h.parentLinks l (Table.mem_select.mp hl).1).2
  rw [hOld, getSummary_addSummary hOld]

theorem getSummaryParents_addSummary_self (h : SummariesWellFormed db)
    (hFresh : record.summaryId ∉ db.summaries.map (·.summaryId))
    (hParents : ∀ p ∈ parentIds, ∃ old, db.getSummary p = some old) :
    ((db.addSummary record messageIds parentIds).getSummaryParents record.summaryId).map
      (·.summaryId) = parentIds := by
  have hSelect : Table.select (fun l : SummaryParentLink => decide (l.summaryId = record.summaryId))
      (·.ordinal) (db.addSummary record messageIds parentIds).summaryParents =
      parentIds.zipIdx.map fun (p, i) => ⟨record.summaryId, p, i⟩ := by
    refine Table.select_append_of_new ?_ ?_ ?_
    · intro l hl
      simp only [decide_eq_false_iff_not]
      intro hEq
      exact hFresh (hEq ▸ (h.parentLinks l hl).1)
    · intro l hl
      obtain ⟨p, -, rfl⟩ := List.mem_map.mp hl
      simp
    · rw [List.pairwise_map]
      exact List.pairwise_map.mp (by rw [List.zipIdx_map_snd]; exact List.pairwise_lt_range')
  unfold getSummaryParents
  rw [hSelect, List.map_filterMap]
  have hEach : ∀ l ∈ parentIds.zipIdx.map fun (p, i) =>
      (⟨record.summaryId, p, i⟩ : SummaryParentLink),
      ((db.addSummary record messageIds parentIds).getSummary l.parentSummaryId).map
        (·.summaryId) = some l.parentSummaryId := by
    intro l hl
    obtain ⟨⟨p, i⟩, hp, rfl⟩ := List.mem_map.mp hl
    obtain ⟨old, hOld⟩ := hParents p (List.fst_mem_of_mem_zipIdx hp)
    rw [getSummary_addSummary hOld, Option.map_some, (mem_of_getSummary hOld).2]
  rw [List.filterMap_congr hEach, List.filterMap_eq_map', List.map_map]
  exact List.zipIdx_map_fst 0 parentIds

theorem addSummary_extends (h : SummariesWellFormed db) (messageIds : List MessageId)
    (parentIds : List SummaryId)
    (hFresh : record.summaryId ∉ db.summaries.map (·.summaryId)) :
    Extends db (db.addSummary record messageIds parentIds) := by
  have hne : ∀ s old, db.getSummary s = some old → s ≠ record.summaryId := by
    intro s old hOld hEq
    obtain ⟨hMem, hId⟩ := mem_of_getSummary hOld
    exact hFresh (hEq ▸ hId ▸ List.mem_map_of_mem hMem)
  exact ⟨fun s old hOld => getSummary_addSummary hOld,
    fun s old hOld => getSummaryMessages_addSummary (hne s old hOld),
    fun s old hOld => getSummaryParents_addSummary h (hne s old hOld)⟩

theorem addSummary_wellFormed (h : SummariesWellFormed db)
    (hFresh : record.summaryId ∉ db.summaries.map (·.summaryId))
    (hVisible : record.suppressedAt = none)
    (hParents : ∀ p ∈ parentIds, ∃ old, db.getSummary p = some old)
    (hExpand : ∃ ids, (db.addSummary record messageIds parentIds).expandSummary
      (record.depth + 1) record.summaryId = some ids) :
    SummariesWellFormed (db.addSummary record messageIds parentIds) := by
  have hExtends := addSummary_extends h messageIds parentIds hFresh
  have hIds : ∀ s, s ∈ db.summaries.map (·.summaryId) ∨ s = record.summaryId →
      s ∈ (db.addSummary record messageIds parentIds).summaries.map (·.summaryId) := by
    intro s hs
    simpa [addSummary, eq_comm] using hs
  refine ⟨?_, ?_, ?_⟩
  · intro l hl
    rcases List.mem_append.mp hl with hl | hl
    · exact hIds _ (Or.inl (h.messageLinks l hl))
    · obtain ⟨m, -, rfl⟩ := List.mem_map.mp hl
      exact hIds _ (Or.inr rfl)
  · intro l hl
    rcases List.mem_append.mp hl with hl | hl
    · obtain ⟨hOwner, old, hOld⟩ := h.parentLinks l hl
      exact ⟨hIds _ (Or.inl hOwner), old, getSummary_addSummary hOld⟩
    · obtain ⟨⟨p, i⟩, hp, rfl⟩ := List.mem_map.mp hl
      obtain ⟨old, hOld⟩ := hParents p (List.fst_mem_of_mem_zipIdx hp)
      exact ⟨hIds _ (Or.inr rfl), old, getSummary_addSummary hOld⟩
  · intro s found hFound
    by_cases hs : s = record.summaryId
    · subst hs
      rw [getSummary_addSummary_self hFresh hVisible] at hFound
      obtain rfl := Option.some.inj hFound
      exact hExpand
    · have hOld : db.getSummary s = some found := by
        unfold getSummary at hFound ⊢
        unfold addSummary at hFound
        rw [List.find?_append] at hFound
        rcases Option.or_eq_some_iff.mp hFound with hOld | ⟨-, hNew⟩
        · exact hOld
        · have hHolds := List.find?_some hNew
          simp only [decide_eq_true_eq] at hHolds
          have hMem := List.mem_singleton.mp (List.mem_of_find?_eq_some hNew)
          exact absurd (hMem ▸ hHolds.1.symm) hs
      obtain ⟨ids, hIds⟩ := h.expandable s found hOld
      exact ⟨ids, hExtends.expandSummary hIds⟩

end AddSummary

end Db
end LosslessHermes
