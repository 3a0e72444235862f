import LosslessHermes.Operator.Ancestors

/-!
# What purges hide

A message is suppressed with the last of the summaries made from it, but its context
items are cut with the first. `hidesExactly_iff` names the purges for which the two
agree: those that leave no message in the context which another live summary keeps.
-/

namespace LosslessHermes
namespace OperatorDb

/-- The message belongs to a leaf that is suppressed. -/
def hasSuppressedLeaf (db : OperatorDb) (m : MessageId) : Bool :=
  db.summaryMessages.any fun l => l.messageId = m &&
    (db.hasKind .leaf l.summaryId && db.isSuppressed l.summaryId)

/-- The item is a pointer to something suppressed. -/
def pointsToHidden (db : OperatorDb) : ContextItemRef → Bool
  | .summary s => db.isSuppressed s
  | .message m => db.isHidden m

/-- What the earlier purges have left: a message is suppressed if and only if one of its
leaves is and none of its summaries is live, and no context item points to anything
suppressed. -/
structure Settled (db : OperatorDb) : Prop where
  messages : ∀ m ∈ db.messages.map (·.messageId),
    (db.isHidden m ↔ db.hasSuppressedLeaf m ∧ ¬ db.hasLive m)
  items : ∀ i ∈ db.contextItems, ¬ db.pointsToHidden i.ref

/-- The purges hide what is gone, and nothing else, in whatever order they come. -/
structure HidesExactly (db : OperatorDb) (requests : List PurgeRequest) : Prop where
  settled : (db.purges requests).Settled
  kept : ∀ m ∈ db.messages.map (·.messageId), ¬ (db.purges requests).isHidden m →
    ∀ i ∈ db.contextItems, i.ref = .message m → i ∈ (db.purges requests).contextItems
  order : ∀ requests', (∀ request, request ∈ requests' ↔ request ∈ requests) →
    (db.purges requests').isHidden = (db.purges requests).isHidden ∧
      (db.purges requests').isSuppressed = (db.purges requests).isSuppressed ∧
        (db.purges requests').contextItems = (db.purges requests).contextItems

/-- No message that is in the context and belongs to a purged leaf also belongs to a
summary that is neither suppressed nor purged. -/
def NoneShared (db : OperatorDb) (requests : List PurgeRequest) : Prop :=
  ∀ m ∈ db.messages.map (·.messageId), (∃ i ∈ db.contextItems, i.ref = .message m) →
    db.hasPurged requests m → ∀ l ∈ db.summaryMessages, l.messageId = m →
      ∀ row ∈ db.summaries, row.summaryId = l.summaryId →
        row.suppressedAt ≠ none ∨ db.isPurged requests l.summaryId

variable {db : OperatorDb} {requests requests' : List PurgeRequest} {m : MessageId}

/-! ## The order of the requests -/

theorem isPurged_congr (h : ∀ request, request ∈ requests' ↔ request ∈ requests) :
    db.isPurged requests' = db.isPurged requests := by
  ext s
  rw [Bool.eq_iff_iff, isPurged_iff, isPurged_iff]
  simp only [h]

theorem hasPurged_congr (h : ∀ request, request ∈ requests' ↔ request ∈ requests) :
    db.hasPurged requests' = db.hasPurged requests := by
  unfold hasPurged
  rw [isPurged_congr h]

theorem isCut_congr (h : ∀ request, request ∈ requests' ↔ request ∈ requests) :
    db.isCut requests' = db.isCut requests := by
  ext ref
  cases ref with
  | summary s => simp only [isCut, isPurged_congr h]
  | message m => simp only [isCut, hasPurged_congr h]

section Order

variable (hKeyed : db.Keyed) (hSame : ∀ request, request ∈ requests' ↔ request ∈ requests)
include hKeyed hSame

theorem isSuppressed_order :
    (db.purges requests').isSuppressed = (db.purges requests).isSuppressed := by
  ext s
  rw [Bool.eq_iff_iff, isSuppressed_run hKeyed, isSuppressed_run hKeyed, isPurged_congr hSame]

theorem contextItems_order :
    (db.purges requests').contextItems = (db.purges requests).contextItems := by
  rw [contextItems_run hKeyed, contextItems_run hKeyed, isCut_congr hSame]

theorem isHidden_order : (db.purges requests').isHidden = (db.purges requests).isHidden := by
  have hLive : ∀ m, (db.purges requests').hasLive m ↔ (db.purges requests).hasLive m := by
    intro m
    rw [hasLive_run hKeyed, hasLive_run hKeyed, isPurged_congr hSame]
  ext m
  rw [Bool.eq_iff_iff, isHidden_run hKeyed, isHidden_run hKeyed, hasPurged_congr hSame, hLive]

end Order

/-! ## The messages -/

theorem mem_messages_run (requests : List PurgeRequest) :
    (db.purges requests).messages.map (·.messageId) = db.messages.map (·.messageId) := by
  induction requests generalizing db with
  | nil => rfl
  | cons head rest ih =>
    have hRest : ((db.purge head).purges rest).messages.map (·.messageId) =
        (db.purge head).messages.map (·.messageId) := ih
    refine hRest.trans ?_
    rw [purge_messages, List.map_map]
    simp only [Function.comp_def, hide_id]

/-- A live summary at the end was live at the start. -/
theorem hasLive_of_run (h : db.Keyed) (hLive : (db.purges requests).hasLive m) :
    db.hasLive m := by
  obtain ⟨l, hl, hId, row, hRow, hOf, hNone, -⟩ := (hasLive_run h requests).mp hLive
  exact hasLive_iff.mpr ⟨l, hl, hId, row, hRow, hOf, hNone⟩

theorem hasPurged_iff : db.hasPurged requests m ↔
    ∃ l ∈ db.summaryMessages, l.messageId = m ∧ db.isPurged requests l.summaryId := by
  simp [hasPurged]

/-- A live summary is lost only if it is purged. -/
theorem hasPurged_of_lost (h : db.Keyed) (hLive : db.hasLive m)
    (hLost : ¬ (db.purges requests).hasLive m) : db.hasPurged requests m := by
  obtain ⟨l, hl, hId, row, hRow, hOf, hNone⟩ := hasLive_iff.mp hLive
  by_contra hNot
  refine hLost ((hasLive_run h requests).mpr ⟨l, hl, hId, row, hRow, hOf, hNone, ?_⟩)
  exact fun hPurged => hNot (hasPurged_iff.mpr ⟨l, hl, hId, hPurged⟩)

theorem hasSuppressedLeaf_iff : db.hasSuppressedLeaf m ↔ ∃ l ∈ db.summaryMessages,
    l.messageId = m ∧ db.hasKind .leaf l.summaryId ∧ db.isSuppressed l.summaryId := by
  simp [hasSuppressedLeaf]

theorem hasSuppressedLeaf_run (h : db.Keyed) (requests : List PurgeRequest) :
    (db.purges requests).hasSuppressedLeaf m ↔
      db.hasSuppressedLeaf m ∨ db.hasPurged requests m := by
  rw [hasSuppressedLeaf_iff, hasSuppressedLeaf_iff, hasPurged_iff, purges_summaryMessages]
  simp only [hasKind_run, isSuppressed_run h]
  constructor
  · rintro ⟨l, hl, hId, hLeaf, hOld | hPurged⟩
    · exact Or.inl ⟨l, hl, hId, hLeaf, hOld⟩
    · exact Or.inr ⟨l, hl, hId, hPurged⟩
  · rintro (⟨l, hl, hId, hLeaf, hOld⟩ | ⟨l, hl, hId, hPurged⟩)
    · exact ⟨l, hl, hId, hLeaf, Or.inl hOld⟩
    · exact ⟨l, hl, hId, isLeaf_of_isPurged hPurged, Or.inr hPurged⟩

/-- Purges keep what the earlier ones have left. -/
theorem Settled.run (hKeyed : db.Keyed) (h : db.Settled) (requests : List PurgeRequest) :
    (db.purges requests).Settled := by
  constructor
  · intro m hm
    rw [mem_messages_run] at hm
    rw [isHidden_run hKeyed, h.messages m hm, hasSuppressedLeaf_run hKeyed]
    constructor
    · rintro (⟨hLeaf, hGone⟩ | ⟨-, hPurged, hGone⟩)
      · exact ⟨Or.inl hLeaf, fun hLive => hGone (hasLive_of_run hKeyed hLive)⟩
      · exact ⟨Or.inr hPurged, hGone⟩
    · rintro ⟨hLeaf | hPurged, hGone⟩
      · by_cases hLive : db.hasLive m
        · exact Or.inr ⟨hm, hasPurged_of_lost hKeyed hLive hGone, hGone⟩
        · exact Or.inl ⟨hLeaf, hLive⟩
      · exact Or.inr ⟨hm, hPurged, hGone⟩
  · intro i hi
    rw [contextItems_run hKeyed] at hi
    obtain ⟨hi, hUncut⟩ := List.mem_filter.mp hi
    have hOld := h.items i hi
    revert hUncut hOld
    cases i.ref with
    | summary s =>
      simp only [pointsToHidden, isCut, isSuppressed_run hKeyed, Bool.not_eq_true']
      intro hUncut hOld hGone
      rcases hGone with hGone | hPurged
      · exact hOld hGone
      · exact absurd hPurged (Bool.eq_false_iff.mp hUncut)
    | message m =>
      simp only [pointsToHidden, isCut, isHidden_run hKeyed, Bool.not_eq_true']
      intro hUncut hOld hGone
      rcases hGone with hGone | ⟨-, hPurged, -⟩
      · exact hOld hGone
      · exact absurd hPurged (Bool.eq_false_iff.mp hUncut)

/-! ## The context items -/

/-- A message keeps its items if and only if none of its leaves is purged. -/
theorem mem_contextItems_run (h : db.Keyed) {i : ContextItemRecord} (hi : i ∈ db.contextItems)
    (hRef : i.ref = .message m) :
    i ∈ (db.purges requests).contextItems ↔ ¬ db.hasPurged requests m := by
  rw [contextItems_run h, List.mem_filter]
  simp only [hi, true_and, hRef, isCut, Bool.not_eq_true', Bool.not_eq_true]

/-- The purges hide exactly what is gone if and only if no message of the context is one
of a purged leaf and of a live summary. -/
theorem hidesExactly_iff (hKeyed : db.Keyed) (hSettled : db.Settled) :
    db.HidesExactly requests ↔ db.NoneShared requests := by
  constructor
  · intro h m hm hItem hPurged l hl hId row hRow hOf
    obtain ⟨i, hi, hRef⟩ := hItem
    by_contra hLive
    rw [not_or, not_not] at hLive
    refine (mem_contextItems_run hKeyed hi hRef).mp (h.kept m hm ?_ i hi hRef) hPurged
    intro hHidden
    have hSeen : (db.purges requests).hasLive m :=
      (hasLive_run hKeyed requests).mpr ⟨l, hl, hId, row, hRow, hOf, hLive.1, hLive.2⟩
    rw [← mem_messages_run requests] at hm
    exact ((h.settled.messages m hm).mp hHidden).2 hSeen
  · intro h
    refine ⟨hSettled.run hKeyed requests, fun m hm hShown i hi hRef => ?_, fun requests' hSame =>
      ⟨isHidden_order hKeyed hSame, isSuppressed_order hKeyed hSame,
        contextItems_order hKeyed hSame⟩⟩
    refine (mem_contextItems_run hKeyed hi hRef).mpr fun hPurged => hShown ?_
    refine (isHidden_run hKeyed requests).mpr (Or.inr ⟨hm, hPurged, fun hLive => ?_⟩)
    obtain ⟨l, hl, hId, row, hRow, hOf, hNone, hKept⟩ := (hasLive_run hKeyed requests).mp hLive
    rcases h m hm ⟨i, hi, hRef⟩ hPurged l hl hId row hRow hOf with hGone | hGone
    · exact hGone hNone
    · exact hKept hGone

/-! ## A message of two leaves -/

/-- Two leaves that share the first message, which is still in the context. -/
def sharing : OperatorDb := ofDb { Db.empty with
  messages := [⟨1, 1, 1, .user, "hi", 1, 0, none⟩]
  summaries :=
    [⟨"a", 1, .leaf, 0, "", 1, [], none, none, 0, 0, 1, "m", 0, none⟩,
      ⟨"b", 1, .leaf, 0, "", 1, [], none, none, 0, 0, 1, "m", 1, none⟩]
  summaryMessages := [⟨"a", 1, 0⟩, ⟨"b", 1, 0⟩]
  contextItems := [⟨1, 0, .message 1⟩] }

theorem keyed_sharing : sharing.Keyed :=
  ⟨by decide, by decide⟩

theorem settled_sharing : sharing.Settled :=
  ⟨by decide, by decide⟩

/-- After the purge of one leaf the message is live, and out of the context. -/
theorem not_hidesExactly :
    sharing.Keyed ∧ sharing.Settled ∧ ¬ sharing.HidesExactly [purgeIds ["a"]] := by
  refine ⟨keyed_sharing, settled_sharing, fun h => ?_⟩
  have hItem := h.kept 1 (by decide) (by decide +kernel) ⟨1, 0, .message 1⟩ (by decide) rfl
  revert hItem
  decide +kernel

theorem hidesExactly_iff_sharing :
    sharing.HidesExactly [purgeIds ["a"]] ↔ sharing.NoneShared [purgeIds ["a"]] :=
  hidesExactly_iff keyed_sharing settled_sharing

end OperatorDb
end LosslessHermes
