import Mathlib.Logic.Relation
import LosslessHermes.Doctor.Apply

/-!
# What is derived from the summaries

A summary has the tokens of everything below it in a column, and its content in two
full-text mirrors. A repair writes the content, the tokens of the row itself and one of the
mirrors: `mirrored_fts_repair` keeps that one, `tokenSums_repair_iff` says when the columns
above are still right, and `consistent_repair_iff` when all of it is.
-/

namespace LosslessHermes.Doctor

open Relation (TransGen)

/-- `p` is linked as a source of `s`. -/
def IsEdge (db : Db) (p s : SummaryId) : Prop :=
  ∃ l ∈ db.summaryParents, l.summaryId = s ∧ l.parentSummaryId = p

/-- `t` is strictly below `s`. -/
def IsDescendant (db : Db) : SummaryId → SummaryId → Prop := TransGen (IsEdge db)

open Classical in
noncomputable def strictDescendants (db : Db) (s : SummaryId) : List SummaryRecord :=
  db.summaries.filter fun row => IsDescendant db row.summaryId s

/-- Every `descendant_token_count` is the sum of the tokens below. -/
def TokenSums (db : Db) : Prop :=
  ∀ s ∈ db.summaries,
    s.descendantTokenCount = ((strictDescendants db s.summaryId).map (·.tokenCount)).sum

/-- The mirror exists and has the content of every summary, and no other content of it. -/
def Mirrored (mirror : Option (List SummaryFtsRow)) (summaries : List SummaryRecord) : Prop :=
  ∃ rows, mirror = some rows ∧ ∀ s ∈ summaries,
    ⟨s.summaryId, s.content⟩ ∈ rows ∧ ∀ row ∈ rows, row.summaryId = s.summaryId →
      row.content = s.content

structure Consistent (db : DoctorDb) : Prop where
  tokenSums : TokenSums db.toDb
  fts : Mirrored db.summariesFts db.summaries
  ftsCjk : Mirrored db.summariesFtsCjk db.summaries

/-- What is rebuilt from the rows alone for the target gets no answer that is accepted. -/
def Rejects (env : DoctorEnv) (db : Db) (summarize : DoctorSummarizeFn)
    (target : DoctorTargetRecord) : Prop :=
  ∀ request, requestFor env db [] target = .ok request →
    ∀ override, answerTo summarize target request ≠ .accepted override

variable {env : DoctorEnv} {db : Db} {summarize : DoctorSummarizeFn}
  {state : RepairState} {target : DoctorTargetRecord} {targets : List DoctorTargetRecord}

/-! ## The pass -/

theorem judge_eq_accepted {answer : Except String String} {override : SummaryOverride}
    (h : judge target answer = .accepted override) :
    override.content ≠ target.content ∧ Text.strip override.content = override.content ∧
      override.content ≠ "" := by
  cases answer with
  | error message => simp [judge] at h
  | ok text =>
    simp only [judge] at h
    split at h
    · cases h
    · rename_i hNe
      split at h
      · cases h
      · split at h
        · cases h
        · rename_i hOther
          obtain rfl := Rewrite.accepted.inj h
          refine ⟨fun hSame => hOther ?_, Text.strip_strip text, hNe⟩
          rw [← hSame]
          exact (Text.strip_strip text).symm

/-- What settling a target does to the calls and to the other summaries. -/
theorem settle_frame (state : RepairState) (target : DoctorTargetRecord) (rewrite : Rewrite) :
    (state.settle target rewrite).calls = state.calls ∧
      ∀ s ≠ target.summaryId,
        (state.settle target rewrite).overrides.lookup s = state.overrides.lookup s := by
  cases rewrite with
  | skipped reason => exact ⟨rfl, fun s _ => rfl⟩
  | unchanged => exact ⟨rfl, fun s _ => rfl⟩
  | accepted override =>
    refine ⟨rfl, fun s hNe => ?_⟩
    show List.lookup s ((target.summaryId, override) :: state.overrides) = _
    rw [List.lookup_cons, beq_eq_false_iff_ne.mpr hNe]

/-- What one target does to the overrides and to the list of the repaired. -/
theorem repairTarget_cases (env : DoctorEnv) (db : Db) (summarize : DoctorSummarizeFn)
    (state : RepairState) (target : DoctorTargetRecord) :
    ((repairTarget env db summarize state target).overrides = state.overrides ∧
      (repairTarget env db summarize state target).repairedSummaryIds =
        state.repairedSummaryIds ∧
      ∀ request, requestFor env db state.overrides target = .ok request →
        ∀ override, answerTo summarize target request ≠ .accepted override) ∨
    ∃ request override, requestFor env db state.overrides target = .ok request ∧
      answerTo summarize target request = .accepted override ∧
      (repairTarget env db summarize state target).overrides =
        (target.summaryId, override) :: state.overrides ∧
      (repairTarget env db summarize state target).repairedSummaryIds =
        state.repairedSummaryIds ++ [target.summaryId] := by
  unfold repairTarget
  cases hRequest : requestFor env db state.overrides target with
  | error reason => exact Or.inl ⟨rfl, rfl, fun request h => nomatch h⟩
  | ok request =>
    cases hAnswer : answerTo summarize target request with
    | accepted override =>
      refine Or.inr ⟨request, override, rfl, hAnswer, ?_⟩
      simp only [hAnswer]
      exact ⟨rfl, rfl⟩
    | skipped reason =>
      refine Or.inl ?_
      simp only [hAnswer]
      refine ⟨rfl, rfl, ?_⟩
      rintro request' h override hAccepted
      obtain rfl := Except.ok.inj h
      rw [hAnswer] at hAccepted
      cases hAccepted
    | unchanged =>
      refine Or.inl ?_
      simp only [hAnswer]
      refine ⟨rfl, rfl, ?_⟩
      rintro request' h override hAccepted
      obtain rfl := Except.ok.inj h
      rw [hAnswer] at hAccepted
      cases hAccepted

/-- The repaired are those with an override, which is a new text for a target. -/
structure Recorded (targets : List DoctorTargetRecord) (state : RepairState) : Prop where
  repaired : ∀ s, s ∈ state.repairedSummaryIds ↔ (state.overrides.lookup s).isSome
  fresh : ∀ s override, state.overrides.lookup s = some override →
    ∃ target ∈ targets, target.summaryId = s ∧ override.content ≠ target.content

/-- What is not repaired has no override. -/
theorem Recorded.not_repaired_iff {targets : List DoctorTargetRecord} {state : RepairState}
    (h : Recorded targets state) {s : SummaryId} :
    s ∉ state.repairedSummaryIds ↔ state.overrides.lookup s = none := by
  rw [h.repaired, Bool.not_eq_true, Option.isSome_eq_false_iff, Option.isNone_iff_eq_none]

theorem recorded_start (targets : List DoctorTargetRecord) : Recorded targets .start :=
  ⟨fun s => by simp [RepairState.start], fun s override h => nomatch h⟩

theorem recorded_repairTarget (h : Recorded targets state) (hTarget : target ∈ targets) :
    Recorded targets (repairTarget env db summarize state target) := by
  rcases repairTarget_cases env db summarize state target with
    ⟨hOverrides, hIds, -⟩ | ⟨request, override, -, hAnswer, hOverrides, hIds⟩
  · constructor
    · rw [hOverrides, hIds]
      exact h.repaired
    · rw [hOverrides]
      exact h.fresh
  · constructor
    · intro s
      rw [hOverrides, hIds, List.mem_append, List.mem_singleton, h.repaired, List.lookup_cons]
      by_cases hId : s = target.summaryId
      · simp [hId]
      · simp [hId, beq_eq_false_iff_ne.mpr hId]
    · intro s found hFound
      rw [hOverrides, List.lookup_cons] at hFound
      by_cases hId : s = target.summaryId
      · rw [hId, beq_self_eq_true] at hFound
        obtain rfl := Option.some.inj hFound
        exact ⟨target, hTarget, hId.symm, (judge_eq_accepted hAnswer).1⟩
      · rw [beq_eq_false_iff_ne.mpr hId] at hFound
        exact h.fresh s found hFound

theorem recorded_foldl (h : Recorded targets state) {rest : List DoctorTargetRecord}
    (hRest : ∀ t ∈ rest, t ∈ targets) :
    Recorded targets (rest.foldl (repairTarget env db summarize) state) := by
  induction rest generalizing state with
  | nil => exact h
  | cons target rest ih =>
    exact ih (recorded_repairTarget h (hRest target List.mem_cons_self)) fun t ht =>
      hRest t (List.mem_cons_of_mem _ ht)

/-- What is repaired stays repaired. -/
theorem repaired_foldl {s : SummaryId} (h : s ∈ state.repairedSummaryIds)
    (rest : List DoctorTargetRecord) :
    s ∈ (rest.foldl (repairTarget env db summarize) state).repairedSummaryIds := by
  induction rest generalizing state with
  | nil => exact h
  | cons target rest ih =>
    apply ih
    rcases repairTarget_cases env db summarize state target with
      ⟨-, hIds, -⟩ | ⟨-, -, -, -, -, hIds⟩
    · rw [hIds]
      exact h
    · rw [hIds]
      exact List.mem_append_left _ h

/-- Nothing is repaired if and only if every target is rejected as the rows stand. -/
theorem repaired_eq_nil_iff (hOverrides : state.overrides = [])
    (hNone : state.repairedSummaryIds = []) :
    (targets.foldl (repairTarget env db summarize) state).repairedSummaryIds = [] ↔
      ∀ target ∈ targets, Rejects env db summarize target := by
  induction targets generalizing state with
  | nil => simp [hNone]
  | cons target rest ih =>
    rw [List.foldl_cons, List.forall_mem_cons]
    rcases repairTarget_cases env db summarize state target with
      ⟨hSame, hIds, hRejects⟩ | ⟨request, override, hRequest, hAnswer, -, hIds⟩
    · rw [ih (hSame.trans hOverrides) (hIds.trans hNone)]
      rw [hOverrides] at hRejects
      exact (and_iff_right hRejects).symm
    · -- the first accepted rewrite is a repair
      have hRepaired : target.summaryId ∈
          (repairTarget env db summarize state target).repairedSummaryIds := by
        rw [hIds]
        exact List.mem_append_right _ List.mem_cons_self
      constructor
      · intro hNil
        have hMem : target.summaryId ∈ (rest.foldl (repairTarget env db summarize)
            (repairTarget env db summarize state target)).repairedSummaryIds :=
          repaired_foldl hRepaired rest
        rw [hNil] at hMem
        cases hMem
      · rintro ⟨hRejects, -⟩
        rw [hOverrides] at hRequest
        exact absurd hAnswer (hRejects request hRequest override)

theorem mem_sortTargets {t : DoctorTargetRecord} : t ∈ sortTargets targets ↔ t ∈ targets := by
  rw [sortTargets, Table.mem_select]
  exact and_iff_left rfl

/-- Ordering the targets loses none and adds none. -/
theorem mem_orderDoctorTargets {c : ConversationId} {t : DoctorTargetRecord} :
    t ∈ orderDoctorTargets db c targets ↔ t ∈ targets := by
  simp only [orderDoctorTargets, List.mem_append, mem_sortTargets, List.mem_map, List.mem_filter,
    Table.mem_select, List.mem_filterMap]
  constructor
  · rintro ((⟨pair, ⟨⟨leaf, ⟨hLeaf, -⟩, hPair⟩, -⟩, rfl⟩ | ⟨⟨hMem, -⟩, -⟩) | ⟨hMem, -⟩)
    · obtain ⟨o, -, rfl⟩ := Option.map_eq_some_iff.mp hPair
      exact hLeaf
    · exact hMem
    · exact hMem
  · intro hMem
    cases hCondensed : isCondensedTarget t with
    | true => exact Or.inr ⟨hMem, rfl⟩
    | false =>
      refine Or.inl ?_
      cases hOrdinal : loadDoctorLeafOrdinals db c t.summaryId with
      | none => exact Or.inr ⟨⟨hMem, rfl⟩, rfl⟩
      | some o =>
        refine Or.inl ⟨(o, t), ⟨⟨t, ⟨hMem, ?_⟩, ?_⟩, trivial⟩, rfl⟩
        · rw [hCondensed]
          rfl
        · rw [hOrdinal]
          rfl

theorem mem_orderedTargets {c : ConversationId} :
    target ∈ orderedTargets db c ↔ target ∈ loadDoctorTargets db (some c) :=
  mem_orderDoctorTargets

theorem recorded_repairPass (env : DoctorEnv) (db : Db) (summarize : DoctorSummarizeFn)
    (c : ConversationId) :
    Recorded (loadDoctorTargets db (some c)) (repairPass env db summarize c) :=
  recorded_foldl (recorded_start _) fun _ ht => mem_orderedTargets.mp ht

theorem getSummary_of_mem (hKeys : (db.summaries.map (·.summaryId)).Nodup) {row : SummaryRecord}
    (hRow : row ∈ db.summaries) : db.getSummary row.summaryId true = some row := by
  refine Table.find_of_unique hRow (by simp) fun other hOther hTest => ?_
  simp only [true_or, and_true, decide_eq_true_eq] at hTest
  exact List.inj_on_of_nodup_map hKeys hOther hRow hTest

/-! ## The writes -/

/-- A row after a repair with these overrides. -/
def rewrittenRow (overrides : Overrides) (row : SummaryRecord) : SummaryRecord :=
  match overrides.lookup row.summaryId with
  | none => row
  | some override =>
      { row with content := override.content, tokenCount := override.tokenCount }

section Writes

variable {overrides : Overrides} {ids : List SummaryId} {before : DoctorDb}

theorem rewrittenRow_id (row : SummaryRecord) :
    (rewrittenRow overrides row).summaryId = row.summaryId := by
  unfold rewrittenRow
  cases overrides.lookup row.summaryId <;> rfl

theorem rewrittenRow_descendantTokenCount (row : SummaryRecord) :
    (rewrittenRow overrides row).descendantTokenCount = row.descendantTokenCount := by
  unfold rewrittenRow
  cases overrides.lookup row.summaryId <;> rfl

theorem rewrittenRow_of_lookup {row : SummaryRecord} {override : SummaryOverride}
    (h : overrides.lookup row.summaryId = some override) : rewrittenRow overrides row =
      { row with content := override.content, tokenCount := override.tokenCount } := by
  unfold rewrittenRow
  rw [h]

theorem rewrittenRow_of_none {row : SummaryRecord} (h : overrides.lookup row.summaryId = none) :
    rewrittenRow overrides row = row := by
  unfold rewrittenRow
  rw [h]

/-- The write of one summary, as its rewrite. -/
theorem writeRepaired_summaries (s : SummaryId) :
    (writeRepaired overrides before s).summaries =
      before.summaries.map fun row =>
        if row.summaryId = s then rewrittenRow overrides row else row := by
  unfold writeRepaired
  cases hLookup : overrides.lookup s with
  | none =>
    refine (List.map_id'' ?_ _).symm
    intro row
    split
    · rename_i hId
      exact rewrittenRow_of_none (hId ▸ hLookup)
    · rfl
  | some override =>
    refine List.map_congr_left fun row _ => ?_
    unfold updateRow
    by_cases hId : row.summaryId = s
    · rw [if_pos hId, if_pos hId, rewrittenRow_of_lookup (hId ▸ hLookup)]
    · rw [if_neg hId, if_neg hId]

theorem rewrittenRow_twice (row : SummaryRecord) :
    rewrittenRow overrides (rewrittenRow overrides row) = rewrittenRow overrides row := by
  cases hLookup : overrides.lookup row.summaryId with
  | none => rw [rewrittenRow_of_none hLookup, rewrittenRow_of_none hLookup]
  | some override =>
    rw [rewrittenRow_of_lookup hLookup]
    exact rewrittenRow_of_lookup hLookup

theorem writes_summaries : (ids.foldl (writeRepaired overrides) before).summaries =
    before.summaries.map fun row =>
      if row.summaryId ∈ ids then rewrittenRow overrides row else row := by
  induction ids generalizing before with
  | nil => simp
  | cons s rest ih =>
    rw [List.foldl_cons, ih, writeRepaired_summaries, List.map_map]
    refine List.map_congr_left fun row _ => ?_
    simp only [Function.comp_apply, List.mem_cons]
    by_cases hId : row.summaryId = s
    · rw [if_pos hId, if_pos (Or.inl hId), rewrittenRow_id, rewrittenRow_twice, ite_self]
    · rw [if_neg hId]
      simp only [hId, false_or]

/-- The other mirror and the links are not written. -/
theorem writeRepaired_frame (overrides : Overrides) (before : DoctorDb) (s : SummaryId) :
    (writeRepaired overrides before s).summariesFtsCjk = before.summariesFtsCjk ∧
      (writeRepaired overrides before s).summaryParents = before.summaryParents := by
  unfold writeRepaired
  cases overrides.lookup s <;> exact ⟨rfl, rfl⟩

theorem writes_frame :
    (ids.foldl (writeRepaired overrides) before).summariesFtsCjk = before.summariesFtsCjk ∧
      (ids.foldl (writeRepaired overrides) before).summaryParents = before.summaryParents := by
  induction ids generalizing before with
  | nil => exact ⟨rfl, rfl⟩
  | cons s rest ih =>
    obtain ⟨hCjk, hParents⟩ := writeRepaired_frame overrides before s
    exact ⟨ih.1.trans hCjk, ih.2.trans hParents⟩

/-- `_update_summary_fts` leaves the mirror with the new content and with no other of it. -/
theorem mem_updateSummaryFts {s : SummaryId} {content : String} {rows : List SummaryFtsRow} :
    ⟨s, content⟩ ∈ updateSummaryFts s content rows ∧
      ∀ row ∈ updateSummaryFts s content rows, row.summaryId = s → row.content = content := by
  unfold updateSummaryFts
  split
  · rename_i hAny
    obtain ⟨found, hFound, hId⟩ := List.any_eq_true.mp hAny
    have hId := of_decide_eq_true hId
    constructor
    · refine List.mem_map.mpr ⟨found, hFound, ?_⟩
      rw [updateFtsRow, if_pos hId, ← hId]
    · intro row hRow hRowId
      obtain ⟨old, -, rfl⟩ := List.mem_map.mp hRow
      unfold updateFtsRow at hRowId ⊢
      by_cases hOld : old.summaryId = s
      · rw [if_pos hOld]
      · rw [if_neg hOld] at hRowId
        exact absurd hRowId hOld
  · rename_i hNone
    refine ⟨List.mem_append_right _ List.mem_cons_self, ?_⟩
    intro row hRow hRowId
    rcases List.mem_append.mp hRow with hRow | hRow
    · exact absurd (List.any_eq_true.mpr ⟨row, hRow, decide_eq_true hRowId⟩) hNone
    · rw [List.mem_singleton.mp hRow]

/-- It does not touch the rows of the others. -/
theorem mem_updateSummaryFts_of_ne {s : SummaryId} {content : String} {rows : List SummaryFtsRow}
    {row : SummaryFtsRow} (hId : row.summaryId ≠ s) :
    row ∈ updateSummaryFts s content rows ↔ row ∈ rows := by
  unfold updateSummaryFts
  split
  · constructor
    · intro hRow
      obtain ⟨old, hOld, rfl⟩ := List.mem_map.mp hRow
      unfold updateFtsRow at hId ⊢
      by_cases hSame : old.summaryId = s
      · rw [if_pos hSame] at hId
        exact absurd hSame hId
      · rwa [if_neg hSame]
    · intro hRow
      exact List.mem_map.mpr ⟨row, hRow, if_neg hId⟩
  · rw [List.mem_append, List.mem_singleton]
    refine or_iff_left fun hNew => hId ?_
    rw [hNew]

theorem mirrored_writeRepaired (h : Mirrored before.summariesFts before.summaries)
    (s : SummaryId) : Mirrored (writeRepaired overrides before s).summariesFts
      (writeRepaired overrides before s).summaries := by
  obtain ⟨rows, hRows, hMirrored⟩ := h
  unfold writeRepaired
  cases overrides.lookup s with
  | none => exact ⟨rows, hRows, hMirrored⟩
  | some override =>
    refine ⟨updateSummaryFts s override.content rows, by rw [hRows]; rfl, ?_⟩
    intro found hFound
    obtain ⟨row, hRow, rfl⟩ := List.mem_map.mp hFound
    unfold updateRow
    by_cases hId : row.summaryId = s
    · rw [if_pos hId]
      simp only [hId]
      exact mem_updateSummaryFts
    · rw [if_neg hId]
      obtain ⟨hMem, hOnly⟩ := hMirrored row hRow
      refine ⟨(mem_updateSummaryFts_of_ne hId).mpr hMem, ?_⟩
      intro other hOther hSame
      exact hOnly other ((mem_updateSummaryFts_of_ne (hSame ▸ hId)).mp hOther) hSame

theorem mirrored_writes (h : Mirrored before.summariesFts before.summaries) :
    Mirrored (ids.foldl (writeRepaired overrides) before).summariesFts
      (ids.foldl (writeRepaired overrides) before).summaries := by
  induction ids generalizing before with
  | nil => exact h
  | cons s rest ih => exact ih (mirrored_writeRepaired h s)

end Writes

/-! ## The repair -/

section Repair

variable {before : DoctorDb} {c : ConversationId}

/-- The overrides of a repair; none without a summarizer. -/
def repairOverrides (env : DoctorEnv) (db : Db) (summarize : Option DoctorSummarizeFn)
    (c : ConversationId) : Overrides :=
  match summarize with
  | none => []
  | some summarize => (repairPass env db summarize c).overrides

theorem repair_none (c : ConversationId) :
    (applyScopedDoctorRepair env before none c).1 = before := by
  rw [applyScopedDoctorRepair]
  split <;> rfl

/-- Without a target the pass has nothing to write. -/
theorem repair_some (summarize : DoctorSummarizeFn) (c : ConversationId) :
    (applyScopedDoctorRepair env before (some summarize) c).1 =
      (repairPass env before.toDb summarize c).repairedSummaryIds.foldl
        (writeRepaired (repairPass env before.toDb summarize c).overrides) before := by
  rw [applyScopedDoctorRepair]
  split
  · rename_i hEmpty
    have hTargets : orderedTargets before.toDb c = [] :=
      List.eq_nil_iff_forall_not_mem.mpr fun target hMem => by
        have hLoaded := mem_orderedTargets.mp hMem
        rw [List.isEmpty_iff.mp hEmpty] at hLoaded
        cases hLoaded
    rw [repairPass, hTargets]
    rfl
  · rfl

/-- A repair rewrites the rows of the overrides and leaves one mirror and the links. -/
theorem repair_spec (env : DoctorEnv) (before : DoctorDb) (summarize : Option DoctorSummarizeFn)
    (c : ConversationId) :
    (applyScopedDoctorRepair env before summarize c).1.summaries =
        before.summaries.map (rewrittenRow (repairOverrides env before.toDb summarize c)) ∧
      (applyScopedDoctorRepair env before summarize c).1.summariesFtsCjk =
        before.summariesFtsCjk ∧
      (applyScopedDoctorRepair env before summarize c).1.summaryParents =
        before.summaryParents := by
  cases summarize with
  | none =>
    rw [repair_none, repairOverrides, List.map_id'' (fun row => rewrittenRow_of_none rfl)]
    exact ⟨rfl, rfl, rfl⟩
  | some summarize =>
    have hRecorded := recorded_repairPass env before.toDb summarize c
    rw [repair_some]
    refine ⟨?_, writes_frame⟩
    rw [writes_summaries]
    refine List.map_congr_left fun row _ => ?_
    by_cases hMem : row.summaryId ∈
        (repairPass env before.toDb summarize c).repairedSummaryIds
    · rw [if_pos hMem]
      rfl
    · rw [if_neg hMem]
      exact (rewrittenRow_of_none (hRecorded.not_repaired_iff.mp hMem)).symm

/-- The mirror that is written stays right. -/
theorem mirrored_fts_repair (h : Mirrored before.summariesFts before.summaries)
    (summarize : Option DoctorSummarizeFn) (c : ConversationId) :
    Mirrored (applyScopedDoctorRepair env before summarize c).1.summariesFts
      (applyScopedDoctorRepair env before summarize c).1.summaries := by
  cases summarize with
  | none =>
    rw [repair_none]
    exact h
  | some summarize =>
    rw [repair_some]
    exact mirrored_writes h

/-- The columns above stay right if and only if the rewrites below every summary have in
total the tokens of what they replace. -/
theorem tokenSums_repair_iff (h : TokenSums before.toDb) (summarize : Option DoctorSummarizeFn)
    (c : ConversationId) :
    TokenSums (applyScopedDoctorRepair env before summarize c).1.toDb ↔
      ∀ s ∈ before.summaries,
        ((strictDescendants before.toDb s.summaryId).map fun row =>
          (rewrittenRow (repairOverrides env before.toDb summarize c) row).tokenCount).sum =
        ((strictDescendants before.toDb s.summaryId).map (·.tokenCount)).sum := by
  obtain ⟨hSummaries, -, hParents⟩ := repair_spec env before summarize c
  have hDescendant : IsDescendant (applyScopedDoctorRepair env before summarize c).1.toDb =
      IsDescendant before.toDb := by
    have hEdge : IsEdge (applyScopedDoctorRepair env before summarize c).1.toDb =
        IsEdge before.toDb := by
      funext p s
      unfold IsEdge
      rw [hParents]
    unfold IsDescendant
    rw [hEdge]
  have hBelow : ∀ s, strictDescendants (applyScopedDoctorRepair env before summarize c).1.toDb s =
      (strictDescendants before.toDb s).map
        (rewrittenRow (repairOverrides env before.toDb summarize c)) := by
    intro s
    unfold strictDescendants
    rw [hSummaries, hDescendant, List.filter_map]
    refine congrArg _ (List.filter_congr fun row _ => ?_)
    rw [Function.comp_apply, rewrittenRow_id]
  unfold TokenSums
  rw [hSummaries, List.forall_mem_map]
  refine forall₂_congr fun s hs => ?_
  rw [rewrittenRow_descendantTokenCount, rewrittenRow_id, hBelow, List.map_map, h s hs]
  exact eq_comm

theorem mirrored_cjk_repair_iff (h : Mirrored before.summariesFtsCjk before.summaries)
    (summarize : Option DoctorSummarizeFn) (c : ConversationId) :
    Mirrored (applyScopedDoctorRepair env before summarize c).1.summariesFtsCjk
        (applyScopedDoctorRepair env before summarize c).1.summaries ↔
      repairOverrides env before.toDb summarize c = [] := by
  obtain ⟨hSummaries, hCjk, -⟩ := repair_spec env before summarize c
  rw [hSummaries, hCjk]
  constructor
  · intro hAfter
    cases hAll : repairOverrides env before.toDb summarize c with
    | nil => rfl
    | cons entry rest =>
      obtain ⟨s, override⟩ := entry
      cases summarize with
      | none => cases hAll
      | some summarize =>
        -- the row of the rewritten target has two contents now
        have hLookup : (repairPass env before.toDb summarize c).overrides.lookup s =
            some override := by
          rw [show (repairPass env before.toDb summarize c).overrides = _ from hAll,
            List.lookup_cons, beq_self_eq_true]
        obtain ⟨target, hTarget, rfl, hFresh⟩ :=
          (recorded_repairPass _ _ _ c).fresh s override hLookup
        obtain ⟨row, hRow, hTargetOf⟩ := exists_row_of_target hTarget
        obtain ⟨hId, hContent, -⟩ := targetOf_eq_some hTargetOf
        obtain ⟨rows, hRows, hMirrored⟩ := h
        obtain ⟨rows', hRows', hMirrored'⟩ := hAfter
        obtain rfl := Option.some.inj (hRows.symm.trans hRows')
        obtain ⟨hNew, -⟩ := hMirrored' _ (List.mem_map_of_mem hRow)
        rw [hId] at hLookup
        have hRewritten : rewrittenRow
            (repairOverrides env before.toDb (some summarize) c) row = _ :=
          rewrittenRow_of_lookup hLookup
        rw [hRewritten] at hNew
        have hSame := (hMirrored row hRow).2 _ hNew rfl
        exact absurd (hSame.trans hContent.symm) hFresh
  · intro hNone
    rw [hNone, List.map_id'' (fun row => rewrittenRow_of_none rfl)]
    exact h

theorem repairOverrides_eq_nil_iff (summarize : Option DoctorSummarizeFn) :
    repairOverrides env db summarize c = [] ↔ ∀ f, summarize = some f →
      ∀ target ∈ loadDoctorTargets db (some c), Rejects env db f target := by
  cases summarize with
  | none => exact ⟨fun _ => by nofun, fun _ => rfl⟩
  | some f =>
    have hRecorded := recorded_repairPass env db f c
    have hNone : (repairPass env db f c).repairedSummaryIds = [] ↔
        ∀ target ∈ orderedTargets db c, Rejects env db f target := repaired_eq_nil_iff rfl rfl
    simp only [mem_orderedTargets] at hNone
    simp only [Option.some.injEq, forall_eq']
    rw [← hNone]
    show (repairPass env db f c).overrides = [] ↔
      (repairPass env db f c).repairedSummaryIds = []
    constructor
    · intro hOverrides
      refine List.eq_nil_iff_forall_not_mem.mpr fun s hs => ?_
      have hSome := (hRecorded.repaired s).mp hs
      rw [hOverrides] at hSome
      cases hSome
    · intro hIds
      cases hAll : (repairPass env db f c).overrides with
      | nil => rfl
      | cons entry rest =>
        have hMem := (hRecorded.repaired entry.1).mpr (by
          rw [hAll, List.lookup_cons, beq_self_eq_true]
          rfl)
        rw [hIds] at hMem
        cases hMem

/-- After a repair everything derived is right if and only if the summarizer had no rewrite
to offer for what the rows say. -/
theorem consistent_repair_iff (h : Consistent before) (env : DoctorEnv)
    (summarize : Option DoctorSummarizeFn) (c : ConversationId) :
    Consistent (applyScopedDoctorRepair env before summarize c).1 ↔
      ∀ f, summarize = some f → ∀ target ∈ loadDoctorTargets before.toDb (some c),
        Rejects env before.toDb f target := by
  rw [← repairOverrides_eq_nil_iff, ← mirrored_cjk_repair_iff h.ftsCjk]
  constructor
  · exact fun hAfter => hAfter.ftsCjk
  · intro hCjk
    refine ⟨?_, mirrored_fts_repair h.fts summarize c, hCjk⟩
    have hNone := (mirrored_cjk_repair_iff h.ftsCjk summarize c).mp hCjk
    refine (tokenSums_repair_iff h.tokenSums summarize c).mpr fun s _ => ?_
    rw [hNone]
    rfl

end Repair

/-! ## A leaf below a condensed summary -/

section LeafBelowRoot

def utcEnv : DoctorEnv := ⟨"UTC", fun _ _ => "1970-01-01 00:00 UTC"⟩

def brokenLeaf : SummaryRecord :=
  { summaryId := "leaf", conversationId := 1, kind := .leaf, depth := 0,
    content := "[Truncated from 9]", tokenCount := 5, fileIds := [], earliestAt := some 0,
    latestAt := some 0, descendantCount := 0, descendantTokenCount := 0,
    sourceMessageTokenCount := 1, model := "unknown", createdAt := 1, suppressedAt := none }

def rootAbove : SummaryRecord :=
  { summaryId := "root", conversationId := 1, kind := .condensed, depth := 1,
    content := "all of it", tokenCount := 3, fileIds := [], earliestAt := some 0,
    latestAt := some 0, descendantCount := 1, descendantTokenCount := 5,
    sourceMessageTokenCount := 1, model := "unknown", createdAt := 2, suppressedAt := none }

def leafBelowRoot : DoctorDb :=
  { Db.empty with
    conversations := [⟨1, "s", none, true, 0⟩]
    messages := [⟨1, 1, 0, .user, "hi", 1, 0, none⟩]
    summaries := [brokenLeaf, rootAbove]
    summaryMessages := [⟨"leaf", 1, 0⟩]
    summaryParents := [⟨"root", "leaf", 0⟩]
    contextItems := [⟨1, 0, .summary "root"⟩]
    summariesFts := some [⟨"leaf", "[Truncated from 9]"⟩, ⟨"root", "all of it"⟩]
    summariesFtsCjk := some [⟨"leaf", "[Truncated from 9]"⟩, ⟨"root", "all of it"⟩] }

def answering (text : String) : DoctorSummarizeFn := fun _ _ _ _ => .ok text

theorem isDescendant_iff_of_single {p s : SummaryId} {ordinal : Nat} (hNe : p ≠ s)
    (h : db.summaryParents = [⟨s, p, ordinal⟩]) {t u : SummaryId} :
    IsDescendant db t u ↔ t = p ∧ u = s := by
  have hEdge : ∀ {t u}, IsEdge db t u ↔ t = p ∧ u = s := by
    intro t u
    unfold IsEdge
    rw [h]
    simp only [List.mem_singleton, exists_eq_left]
    exact ⟨fun ⟨hs, hp⟩ => ⟨hp.symm, hs.symm⟩, fun ⟨hp, hs⟩ => ⟨hs.symm, hp.symm⟩⟩
  constructor
  · intro hBelow
    induction hBelow with
    | single edge => exact hEdge.mp edge
    | tail _ edge ih => exact absurd ((hEdge.mp edge).1.symm.trans ih.2) hNe
  · exact fun hPair => .single (hEdge.mpr hPair)

theorem tokenSums_leafBelowRoot_iff {db : Db} {content : String} (tokens : Nat)
    (hSummaries : db.summaries =
      [{ brokenLeaf with content := content, tokenCount := tokens }, rootAbove])
    (hParents : db.summaryParents = [⟨"root", "leaf", 0⟩]) :
    TokenSums db ↔ tokens = 5 := by
  have hBelow : ∀ {t u}, IsDescendant db t u ↔ t = "leaf" ∧ u = "root" :=
    isDescendant_iff_of_single (by decide) hParents
  unfold TokenSums strictDescendants
  simp only [hBelow, hSummaries]
  simp [brokenLeaf, rootAbove, eq_comm]

theorem consistent_leafBelowRoot : Consistent leafBelowRoot := by
  refine ⟨(tokenSums_leafBelowRoot_iff 5 rfl rfl).mpr rfl, ⟨_, rfl, ?_⟩, _, rfl, ?_⟩
  · decide
  · decide

theorem not_consistent_leafBelowRoot : Consistent leafBelowRoot ∧
    (applyScopedDoctorRepair utcEnv leafBelowRoot (some (answering "short")) 1).2 =
      .applied 1 1 0 [] ["leaf"] ∧
    ¬ TokenSums
      (applyScopedDoctorRepair utcEnv leafBelowRoot (some (answering "short")) 1).1.toDb ∧
    ¬ Consistent
      (applyScopedDoctorRepair utcEnv leafBelowRoot (some (answering "short")) 1).1 := by
  have hSummaries : (applyScopedDoctorRepair utcEnv leafBelowRoot
      (some (answering "short")) 1).1.summaries =
      [{ brokenLeaf with content := "short", tokenCount := 2 }, rootAbove] := by decide +kernel
  have hSums : ¬ TokenSums (applyScopedDoctorRepair utcEnv leafBelowRoot
      (some (answering "short")) 1).1.toDb := by
    rw [tokenSums_leafBelowRoot_iff 2 hSummaries (repair_spec utcEnv leafBelowRoot _ 1).2.2]
    decide
  exact ⟨consistent_leafBelowRoot, by decide +kernel, hSums, fun h => hSums h.tokenSums⟩

theorem consistent_repair_leafBelowRoot : Consistent (applyScopedDoctorRepair utcEnv leafBelowRoot
    (some fun _ _ _ _ => .error "timed out") 1).1 := by
  refine (consistent_repair_iff consistent_leafBelowRoot utcEnv _ 1).mpr ?_
  intro f hf target _ request _ override hAccepted
  obtain rfl := Option.some.inj hf
  cases hAccepted

end LeafBelowRoot

end LosslessHermes.Doctor
