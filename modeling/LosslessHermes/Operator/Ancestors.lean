import LosslessHermes.Operator.Cascade

/-!
# The flag of the ancestors

A purge flags the condensed summaries that have one of its leaves as a direct
source. `ancestorsFlagged_iff` says which graphs and purges this is enough for, and
`not_ancestorsFlagged` is a chain of three summaries where it is not.
-/

namespace LosslessHermes

open Relation (TransGen)

namespace OperatorDb

def hasKind (db : OperatorDb) (kind : SummaryKind) (s : SummaryId) : Bool :=
  db.summaries.any fun row => row.summaryId = s ∧ row.kind = kind

/-- The row that a condensed pass writes when it makes `s` from `p`. -/
def IsEdge (db : OperatorDb) (p s : SummaryId) : Prop :=
  ∃ l ∈ db.summaryParents, l.summaryId = s ∧ l.parentSummaryId = p

/-- `p` is reached from `s` through the condensation edges. -/
def IsUnder (db : OperatorDb) : SummaryId → SummaryId → Prop := TransGen db.IsEdge

/-- A suppressed leaf is reached from the summary. -/
def HoldsSuppressed (db : OperatorDb) (s : SummaryId) : Prop :=
  ∃ leaf, db.hasKind .leaf leaf ∧ db.isSuppressed leaf ∧ db.IsUnder leaf s

/-- After every purge the live ancestors of the suppressed leaves have the flag, and it
gave the flag to no other summary. -/
structure AncestorsFlagged (db : OperatorDb) (requests : List PurgeRequest) : Prop where
  flagged : ∀ done request, done ++ [request] <+: requests → ∀ s,
    (db.purges (done ++ [request])).hasKind .condensed s →
    ¬ (db.purges (done ++ [request])).isSuppressed s →
    (db.purges (done ++ [request])).HoldsSuppressed s →
      (db.purges (done ++ [request])).containsSuppressedLeaves s
  only : ∀ done request, done ++ [request] <+: requests → ∀ s,
    (db.purges (done ++ [request])).containsSuppressedLeaves s →
    ¬ (db.purges done).containsSuppressedLeaves s →
      (db.purges (done ++ [request])).HoldsSuppressed s

/-- Every live condensed summary above a leaf that is suppressed from the start or by
one of the purges has the flag from the start, or a leaf of these purges as a direct
source. -/
def DirectEnough (db : OperatorDb) (requests : List PurgeRequest) : Prop :=
  ∀ s leaf, db.hasKind .condensed s → ¬ db.isSuppressed s → db.hasKind .leaf leaf →
    db.isSuppressed leaf ∨ db.isPurged requests leaf → db.IsUnder leaf s →
      db.isMarked requests s ∨ db.containsSuppressedLeaves s

variable {db : OperatorDb} {request : PurgeRequest} {requests : List PurgeRequest} {s : SummaryId}

/-! ## What the purges do not change -/

theorem hasKind_run (kind : SummaryKind) (requests : List PurgeRequest) :
    (db.purges requests).hasKind kind s = db.hasKind kind s := by
  induction requests generalizing db with
  | nil => rfl
  | cons head rest ih =>
    have hRest : ((db.purge head).purges rest).hasKind kind s =
        (db.purge head).hasKind kind s := ih
    refine hRest.trans ?_
    unfold hasKind
    rw [purge_summaries, List.any_map]
    simp only [Function.comp_def, suppress_id, suppress_kind]

theorem purges_summaryParents (requests : List PurgeRequest) :
    (db.purges requests).summaryParents = db.summaryParents := by
  induction requests generalizing db with
  | nil => rfl
  | cons head rest ih => exact ih.trans (purge_summaryParents db head)

theorem isUnder_run (requests : List PurgeRequest) :
    (db.purges requests).IsUnder = db.IsUnder := by
  have hEdge : (db.purges requests).IsEdge = db.IsEdge := by
    funext p s
    unfold IsEdge
    rw [purges_summaryParents]
  unfold IsUnder
  rw [hEdge]

theorem hasKind_iff {kind : SummaryKind} : db.hasKind kind s ↔
    ∃ row ∈ db.summaries, row.summaryId = s ∧ row.kind = kind := by
  simp [hasKind]

/-- Only leaves are purged. -/
theorem isLeaf_of_isPurged (h : db.isPurged requests s) : db.hasKind .leaf s := by
  obtain ⟨-, request, -, hTarget⟩ := isPurged_iff.mp h
  obtain ⟨-, row, hRow, hId, hFits⟩ := isTarget_iff.mp hTarget
  exact hasKind_iff.mpr ⟨row, hRow, hId, kind_of_fits hFits⟩

theorem Keyed.not_leaf (h : db.Keyed) (hCondensed : db.hasKind .condensed s) :
    ¬ db.hasKind .leaf s := by
  intro hLeaf
  obtain ⟨row, hRow, hId, hKind⟩ := hasKind_iff.mp hCondensed
  obtain ⟨row', hRow', hId', hKind'⟩ := hasKind_iff.mp hLeaf
  rw [List.inj_on_of_nodup_map h.summaries hRow hRow' (hId.trans hId'.symm), hKind'] at hKind
  cases hKind

/-- The suppression of a condensed summary is not touched. -/
theorem isSuppressed_run_of_condensed (h : db.Keyed) (hCondensed : db.hasKind .condensed s)
    (requests : List PurgeRequest) :
    (db.purges requests).isSuppressed s ↔ db.isSuppressed s := by
  rw [isSuppressed_run h]
  refine or_iff_left fun hPurged => ?_
  exact h.not_leaf hCondensed (isLeaf_of_isPurged hPurged)

theorem holdsSuppressed_run (h : db.Keyed) (requests : List PurgeRequest) :
    (db.purges requests).HoldsSuppressed s ↔ ∃ leaf, db.hasKind .leaf leaf ∧
      (db.isSuppressed leaf ∨ db.isPurged requests leaf) ∧ db.IsUnder leaf s := by
  unfold HoldsSuppressed
  simp only [hasKind_run, isSuppressed_run h, isUnder_run]

theorem isMarked_iff : db.isMarked requests s ↔ db.hasKind .condensed s ∧
    ∃ p, db.IsEdge p s ∧ db.isPurged requests p := by
  unfold isMarked hasKind IsEdge
  simp only [Bool.and_eq_true, List.any_eq_true, decide_eq_true_eq]
  refine and_congr_right fun _ => ?_
  constructor
  · rintro ⟨l, hl, hId, hPurged⟩
    exact ⟨l.parentSummaryId, ⟨l, hl, hId, rfl⟩, hPurged⟩
  · rintro ⟨p, ⟨l, hl, hId, rfl⟩, hPurged⟩
    exact ⟨l, hl, hId, hPurged⟩

/-! ## When the flag of the direct sources is enough -/

/-- The flags that a run of purges gives are right. -/
theorem holdsSuppressed_of_flag (h : db.Keyed) {done rest : List PurgeRequest}
    (hAfter : (db.purges (done ++ rest)).containsSuppressedLeaves s)
    (hBefore : ¬ (db.purges done).containsSuppressedLeaves s) :
    (db.purges (done ++ rest)).HoldsSuppressed s := by
  rw [flag_run h] at hAfter hBefore
  obtain hMarked | hOld := hAfter
  · obtain ⟨-, p, hEdge, hPurged⟩ := isMarked_iff.mp hMarked
    exact (holdsSuppressed_run h _).mpr
      ⟨p, isLeaf_of_isPurged hPurged, Or.inr hPurged, .single hEdge⟩
  · exact absurd (Or.inr hOld) hBefore

/-- The flag is right after every purge if and only if after none of them a live summary
lies above a suppressed leaf and was neither flagged before nor made directly from a
leaf that they purged. -/
theorem ancestorsFlagged_iff (h : db.Keyed) : db.AncestorsFlagged requests ↔
    ∀ done request, done ++ [request] <+: requests → db.DirectEnough (done ++ [request]) := by
  constructor
  · intro hFlagged done request hPrefix s leaf hCondensed hLive hLeaf hGone hUnder
    have hKind : (db.purges (done ++ [request])).hasKind .condensed s := by
      rw [hasKind_run]
      exact hCondensed
    have hFlag := hFlagged.flagged done request hPrefix s hKind
      (fun hGone => hLive ((isSuppressed_run_of_condensed h hCondensed _).mp hGone))
      ((holdsSuppressed_run h _).mpr ⟨leaf, hLeaf, hGone, hUnder⟩)
    exact (flag_run h _).mp hFlag
  · intro hDirect
    constructor
    · intro done request hPrefix s hKind hLive hHolds
      have hCondensed : db.hasKind .condensed s := by
        rw [← hasKind_run]
        exact hKind
      rw [isSuppressed_run_of_condensed h hCondensed] at hLive
      obtain ⟨leaf, hLeaf, hGone, hUnder⟩ := (holdsSuppressed_run h _).mp hHolds
      exact (flag_run h _).mpr
        (hDirect done request hPrefix s leaf hCondensed hLive hLeaf hGone hUnder)
    · intro done request _ s hAfter hBefore
      exact holdsSuppressed_of_flag h hAfter hBefore

/-! ## A chain of three summaries -/

/-- A conversation database before any operator command. -/
def ofDb (db : Db) : OperatorDb where
  toDb := db
  sessionKey := fun _ => ""
  createdAtText := fun _ => ""
  containsSuppressedLeaves := fun _ => false
  suppressReason := fun _ => none
  synthesis := SynthesisTables.empty
  embeddings := EmbeddingTables.empty

/-- A leaf, a summary of it, and a summary of that. -/
def chain : OperatorDb := ofDb { Db.empty with
  summaries :=
    [⟨"leaf", 1, .leaf, 0, "", 1, [], none, none, 0, 0, 1, "m", 0, none⟩,
      ⟨"lower", 1, .condensed, 1, "", 1, [], none, none, 1, 1, 1, "m", 1, none⟩,
      ⟨"upper", 1, .condensed, 2, "", 1, [], none, none, 2, 2, 1, "m", 2, none⟩]
  summaryParents := [⟨"lower", "leaf", 0⟩, ⟨"upper", "lower", 0⟩] }

def purgeIds (summaryIds : List SummaryId) : PurgeRequest :=
  ⟨⟨"test", ⟨some summaryIds, none, none, none, none⟩, false⟩, "p", 3⟩

theorem keyed_chain : chain.Keyed :=
  ⟨by decide, List.nodup_nil⟩

/-- A summary whose sources all have a smaller number is not under itself. -/
theorem not_isUnder_self {number : SummaryId → Nat}
    (h : ∀ l ∈ db.summaryParents, number l.parentSummaryId < number l.summaryId) :
    ¬ db.IsUnder s s := by
  have hLess : ∀ t, db.IsUnder s t → number s < number t := by
    intro t hUnder
    induction hUnder with
    | single hEdge =>
      obtain ⟨l, hl, rfl, rfl⟩ := hEdge
      exact h l hl
    | tail _ hEdge ih =>
      obtain ⟨l, hl, rfl, rfl⟩ := hEdge
      exact ih.trans (h l hl)
  exact fun hUnder => Nat.lt_irrefl _ (hLess s hUnder)

/-- The purge of the leaf leaves the upper summary without the flag. -/
theorem not_ancestorsFlagged : chain.Keyed ∧ (∀ s, ¬ chain.IsUnder s s) ∧
    ¬ chain.AncestorsFlagged [purgeIds ["leaf"]] := by
  refine ⟨keyed_chain, fun s => ?_, fun hFlagged => ?_⟩
  · apply @not_isUnder_self _ _ fun t => if t = "leaf" then 0 else if t = "lower" then 1 else 2
    decide
  · have hUnder : chain.IsUnder "leaf" "upper" :=
      .tail (.single ⟨⟨"lower", "leaf", 0⟩, by decide, rfl, rfl⟩)
        ⟨⟨"upper", "lower", 0⟩, by decide, rfl, rfl⟩
    have hPurged : chain.isPurged [purgeIds ["leaf"]] "leaf" := by decide +kernel
    have hHolds : (chain.purges [purgeIds ["leaf"]]).HoldsSuppressed "upper" :=
      (holdsSuppressed_run keyed_chain _).mpr
        ⟨"leaf", isLeaf_of_isPurged hPurged, Or.inr hPurged, hUnder⟩
    have hFlag := hFlagged.flagged [] (purgeIds ["leaf"]) (List.prefix_refl _) "upper"
      (by decide +kernel) (by decide +kernel) hHolds
    revert hFlag
    decide +kernel

theorem ancestorsFlagged_iff_chain : chain.AncestorsFlagged [purgeIds ["leaf"]] ↔
    ∀ done request, done ++ [request] <+: [purgeIds ["leaf"]] →
      chain.DirectEnough (done ++ [request]) :=
  ancestorsFlagged_iff keyed_chain

end OperatorDb
end LosslessHermes
