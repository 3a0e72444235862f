import LosslessHermes.Doctor.Consistency

/-!
# The contents that a repair replaces

A repair replaces a content that has a marker by one that has none, and no other content
(`rewrites_repair`). So it never replaces the content of a summary a second time.
-/

namespace LosslessHermes.Doctor

def contentOf (db : Db) (s : SummaryId) : Option String :=
  (db.getSummary s true).map (·.content)

def DoctorApplyResult.repairedIds : DoctorApplyResult → List SummaryId
  | .applied _ _ _ _ repairedSummaryIds => repairedSummaryIds
  | .unavailable _ => []

/-- From one database to the other the contents of these summaries are rewritten. -/
structure Rewrites (before after : Db) (ids : List SummaryId) : Prop where
  keys : after.summaries.map (·.summaryId) = before.summaries.map (·.summaryId)
  kept : ∀ s ∉ ids, contentOf after s = contentOf before s
  replaced : ∀ s ∈ ids, ∃ old new, contentOf before s = some old ∧
    contentOf after s = some new ∧ (detectDoctorMarker old).isSome ∧ detectDoctorMarker new = none

/-! ## The overrides have no marker -/

section Pass

variable {env : DoctorEnv} {db : Db} {summarize : DoctorSummarizeFn}

def Unmarked (overrides : Overrides) : Prop :=
  ∀ s override, overrides.lookup s = some override → detectDoctorMarker override.content = none

theorem unmarked_of_accepted {target : DoctorTargetRecord} {answer : Except String String}
    {override : SummaryOverride} (h : judge target answer = .accepted override) :
    detectDoctorMarker override.content = none := by
  cases answer with
  | error message => simp [judge] at h
  | ok text =>
    simp only [judge] at h
    split at h
    · cases h
    · split at h
      · cases h
      · rename_i hMarker
        split at h
        · cases h
        · cases h
          rwa [Bool.not_eq_true, Option.isSome_eq_false_iff, Option.isNone_iff_eq_none]
            at hMarker

theorem unmarked_repairTarget {state : RepairState} (h : Unmarked state.overrides)
    (target : DoctorTargetRecord) :
    Unmarked (repairTarget env db summarize state target).overrides := by
  rcases repairTarget_cases env db summarize state target with
    ⟨hOverrides, -, -⟩ | ⟨request, override, -, hAnswer, hOverrides, -⟩
  · rw [hOverrides]
    exact h
  · rw [hOverrides]
    intro s found hFound
    rw [List.lookup_cons] at hFound
    split at hFound
    · obtain rfl := Option.some.inj hFound
      exact unmarked_of_accepted hAnswer
    · exact h s found hFound

theorem unmarked_repairPass (c : ConversationId) :
    Unmarked (repairPass env db summarize c).overrides := by
  refine List.foldlRecOn (orderedTargets db c) (repairTarget env db summarize)
    (motive := fun state => Unmarked state.overrides) ?_ ?_
  · intro s override hFound
    cases hFound
  · intro state h target _
    exact unmarked_repairTarget h target

end Pass

/-! ## The repair -/

section Repair

variable {env : DoctorEnv} {before : DoctorDb} {c : ConversationId}

theorem mem_repairedIds (summarize : Option DoctorSummarizeFn) {s : SummaryId} :
    s ∈ (applyScopedDoctorRepair env before summarize c).2.repairedIds ↔
      ((repairOverrides env before.toDb summarize c).lookup s).isSome := by
  cases summarize with
  | none =>
    unfold applyScopedDoctorRepair
    dsimp only
    split
    · exact iff_of_false List.not_mem_nil nofun
    · exact iff_of_false List.not_mem_nil nofun
  | some f =>
    have hRecorded := recorded_repairPass env before.toDb f c
    show _ ↔ ((repairPass env before.toDb f c).overrides.lookup s).isSome
    unfold applyScopedDoctorRepair
    dsimp only
    split
    · rename_i hEmpty
      refine iff_of_false List.not_mem_nil fun hSome => ?_
      obtain ⟨override, hOverride⟩ := Option.isSome_iff_exists.mp hSome
      obtain ⟨target, hTarget, -⟩ := hRecorded.fresh s override hOverride
      rw [List.isEmpty_iff.mp hEmpty] at hTarget
      cases hTarget
    · exact hRecorded.repaired s

/-- An override is for a row whose content has a marker, and has none itself. -/
theorem marked_of_override {summarize : Option DoctorSummarizeFn} {s : SummaryId}
    {override : SummaryOverride}
    (h : (repairOverrides env before.toDb summarize c).lookup s = some override) :
    (∃ row ∈ before.summaries, row.summaryId = s ∧ (detectDoctorMarker row.content).isSome) ∧
      detectDoctorMarker override.content = none := by
  cases summarize with
  | none => cases h
  | some f =>
    refine ⟨?_, unmarked_repairPass c s override h⟩
    obtain ⟨target, hTarget, hId, -⟩ :=
      (recorded_repairPass env before.toDb f c).fresh s override h
    obtain ⟨row, hRow, hOf⟩ := exists_row_of_target hTarget
    obtain ⟨hRowId, -, hMarker⟩ := targetOf_eq_some hOf
    exact ⟨row, hRow, hRowId.symm.trans hId, hMarker⟩

theorem contentOf_rewritten {db db' : Db} {overrides : Overrides}
    (h : db'.summaries = db.summaries.map (rewrittenRow overrides)) (s : SummaryId) :
    contentOf db' s =
      (db.getSummary s true).map fun row => (rewrittenRow overrides row).content := by
  rw [contentOf, Db.getSummary, h, List.find?_map, Option.map_map]
  have hTest : ((fun row : SummaryRecord => decide (row.summaryId = s ∧
      (true = true ∨ row.suppressedAt = none))) ∘ rewrittenRow overrides) =
      fun row => decide (row.summaryId = s ∧ (true = true ∨ row.suppressedAt = none)) := by
    funext row
    simp only [Function.comp_apply, rewrittenRow_id, true_or, and_true]
  rw [hTest]
  rfl

theorem rewrites_repair (hKeys : (before.summaries.map (·.summaryId)).Nodup)
    (summarize : Option DoctorSummarizeFn) :
    Rewrites before.toDb (applyScopedDoctorRepair env before summarize c).1.toDb
      (applyScopedDoctorRepair env before summarize c).2.repairedIds := by
  have hSummaries := (repair_spec env before summarize c).1
  refine ⟨?_, fun s hs => ?_, fun s hs => ?_⟩
  · rw [hSummaries, List.map_map]
    exact List.map_congr_left fun row _ => rewrittenRow_id row
  · rw [mem_repairedIds, Bool.not_eq_true, Option.isSome_eq_false_iff,
      Option.isNone_iff_eq_none] at hs
    rw [contentOf_rewritten hSummaries, contentOf]
    refine Option.map_congr fun row hRow => ?_
    have hTest := List.find?_some hRow
    rw [rewrittenRow_of_none]
    rw [(of_decide_eq_true hTest).1]
    exact hs
  · obtain ⟨override, hOverride⟩ :=
      Option.isSome_iff_exists.mp ((mem_repairedIds summarize).mp hs)
    obtain ⟨⟨row, hRow, rfl, hMarker⟩, hUnmarked⟩ := marked_of_override hOverride
    have hGet := getSummary_of_mem hKeys hRow
    refine ⟨row.content, override.content, ?_, ?_, hMarker, hUnmarked⟩
    · rw [contentOf, hGet, Option.map_some]
    · rw [contentOf_rewritten hSummaries, hGet, Option.map_some,
        rewrittenRow_of_lookup hOverride]

end Repair

end LosslessHermes.Doctor
