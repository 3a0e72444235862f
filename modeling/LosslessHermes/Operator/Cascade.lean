import LosslessHermes.Operator.Purge
import Mathlib.Data.List.Perm.Basic

/-!
# What purges leave behind

A purge reads the suppression of summaries only to skip the leaves that are
suppressed already, so what a sequence of purges does is known from the start:
`isPurged` are the leaves that one of its requests matches.
-/

namespace LosslessHermes

structure PurgeRequest where
  opts : PurgeOptions
  purgeSessionId : String
  now : Timestamp
  deriving DecidableEq, Repr

namespace OperatorDb

/-- The state after the call; an error leaves the database as it is. -/
def purge (db : OperatorDb) (request : PurgeRequest) : OperatorDb :=
  match db.runPurge request.opts request.purgeSessionId request.now with
  | .error _ => db
  | .ok (db, _) => db

def purges (db : OperatorDb) (requests : List PurgeRequest) : OperatorDb :=
  Run.final purge db requests

/-! ## What a request matches -/

/-- The row has the columns that the criteria ask for, apart from its suppression. -/
def fits (db : OperatorDb) (criteria : PurgeCriteria) (s : SummaryRecord) : Bool :=
  match criteria.summaryIds with
  | some (id :: ids) => s.summaryId ∈ id :: ids ∧ s.kind = .leaf
  | _ => s.kind = .leaf ∧
      (∀ key ∈ criteria.sessionKey, key ≠ "" → db.sessionKey s.summaryId = key) ∧
      (∀ since ∈ criteria.since, since ≤ db.createdAtText s.summaryId) ∧
      (∀ before ∈ criteria.before, db.createdAtText s.summaryId < before) ∧
      (∀ count ∈ criteria.minTokenCount, count ≤ (s.tokenCount : Int))

/-- The request is accepted and the summary is one of its leaves. -/
def isTarget (db : OperatorDb) (request : PurgeRequest) (s : SummaryId) : Bool :=
  (validatePurge request.opts matches .ok ()) &&
    db.summaries.any fun row => row.summaryId = s && db.fits request.opts.criteria row

def isSuppressed (db : OperatorDb) (s : SummaryId) : Bool :=
  db.summaries.any fun row => row.summaryId = s && row.suppressedAt.isSome

def isHidden (db : OperatorDb) (m : MessageId) : Bool :=
  db.messages.any fun row => row.messageId = m && row.suppressedAt.isSome

/-- A leaf that one of the requests suppresses. -/
def isPurged (db : OperatorDb) (requests : List PurgeRequest) (s : SummaryId) : Bool :=
  !db.isSuppressed s && requests.any fun request => db.isTarget request s

/-- A summary that refers to the message and is not suppressed. -/
def hasLive (db : OperatorDb) (m : MessageId) : Bool :=
  db.summaryMessages.any fun l => l.messageId = m &&
    db.summaries.any fun row => row.summaryId = l.summaryId && row.suppressedAt.isNone

/-- The primary keys. -/
structure Keyed (db : OperatorDb) : Prop where
  summaries : (db.summaries.map (·.summaryId)).Nodup
  messages : (db.messages.map (·.messageId)).Nodup

/-! ## One purge -/

/-- The leaves that the call resolves. -/
def targets (db : OperatorDb) (request : PurgeRequest) : List SummaryId :=
  match validatePurge request.opts with
  | .error _ => []
  | .ok () => db.resolveTargetLeafIds request.opts.criteria

theorem mem_resolveTargetLeafIds {db : OperatorDb} {criteria : PurgeCriteria} {s : SummaryId} :
    s ∈ db.resolveTargetLeafIds criteria ↔ ∃ row ∈ db.summaries, row.summaryId = s ∧
      db.fits criteria row ∧ row.suppressedAt = none := by
  have hRow : ∀ p : SummaryRecord → Bool, (∀ row, p row ↔ db.fits criteria row ∧
      row.suppressedAt = none) → (s ∈ (db.summaries.filter p).map (·.summaryId) ↔
        ∃ row ∈ db.summaries, row.summaryId = s ∧ db.fits criteria row ∧
          row.suppressedAt = none) := by
    intro p hp
    simp only [List.mem_map, List.mem_filter, hp]
    exact exists_congr fun row =>
      ⟨fun ⟨⟨hMem, hFits⟩, hId⟩ => ⟨hMem, hId, hFits⟩,
        fun ⟨hMem, hId, hFits⟩ => ⟨⟨hMem, hFits⟩, hId⟩⟩
  unfold resolveTargetLeafIds
  split
  · rename_i id ids hIds
    apply hRow
    intro row
    unfold fits
    rw [hIds]
    simp only [decide_eq_true_eq, and_assoc]
  · rename_i hIds
    apply hRow
    intro row
    unfold fits
    split
    · rename_i id ids hSome
      exact absurd hSome (hIds id ids)
    · simp only [decide_eq_true_eq]
      tauto

variable {db : OperatorDb} {request : PurgeRequest} {requests : List PurgeRequest} {s : SummaryId}
  {m : MessageId}

theorem isSuppressed_iff : db.isSuppressed s ↔
    ∃ row ∈ db.summaries, row.summaryId = s ∧ row.suppressedAt ≠ none := by
  simp [isSuppressed, Option.isSome_iff_ne_none]

theorem isTarget_iff : db.isTarget request s ↔ validatePurge request.opts = .ok () ∧
    ∃ row ∈ db.summaries, row.summaryId = s ∧ db.fits request.opts.criteria row := by
  unfold isTarget
  cases validatePurge request.opts <;> simp

theorem mem_targets (h : db.Keyed) :
    s ∈ db.targets request ↔ db.isTarget request s ∧ ¬ db.isSuppressed s := by
  have hResolve : s ∈ db.resolveTargetLeafIds request.opts.criteria ↔
      (∃ row ∈ db.summaries, row.summaryId = s ∧ db.fits request.opts.criteria row) ∧
        ¬ db.isSuppressed s := by
    rw [mem_resolveTargetLeafIds, isSuppressed_iff]
    constructor
    · rintro ⟨row, hRow, rfl, hFits, hNone⟩
      refine ⟨⟨row, hRow, rfl, hFits⟩, ?_⟩
      rintro ⟨row', hRow', hId, hSome⟩
      rw [List.inj_on_of_nodup_map h.summaries hRow' hRow hId] at hSome
      exact hSome hNone
    · rintro ⟨⟨row, hRow, hId, hFits⟩, hLive⟩
      refine ⟨row, hRow, hId, hFits, ?_⟩
      by_contra hSome
      exact hLive ⟨row, hRow, hId, hSome⟩
  rw [isTarget_iff, targets]
  cases validatePurge request.opts with
  | error error => simp
  | ok _ => simpa using hResolve

theorem kind_of_fits {criteria : PurgeCriteria} {row : SummaryRecord}
    (h : db.fits criteria row) : row.kind = .leaf := by
  unfold fits at h
  split at h
  · exact (of_decide_eq_true h).2
  · exact (of_decide_eq_true h).1

/-- Only leaves that are summaries are resolved. -/
theorem exists_row_of_mem_targets (h : s ∈ db.targets request) :
    ∃ row ∈ db.summaries, row.summaryId = s ∧ row.kind = .leaf ∧ row.suppressedAt = none := by
  unfold targets at h
  split at h
  · cases h
  · obtain ⟨row, hRow, hId, hFits, hNone⟩ := mem_resolveTargetLeafIds.mp h
    exact ⟨row, hRow, hId, kind_of_fits hFits, hNone⟩

/-! A purge without targets is the cascade on no leaves, and its statements change nothing. -/

section NoLeaves

variable (db : OperatorDb)

theorem setSuppressedAt_nil (value : Option Timestamp) : db.setSuppressedAt [] value = db := by
  simp [setSuppressedAt]

theorem recordReason_nil (reason : String) : db.recordReason [] reason = db := by
  simp [recordReason]

theorem isLinkedTo_nil (m : MessageId) : db.isLinkedTo [] m = false := by
  simp [isLinkedTo]

theorem flagCondensed_nil : db.flagCondensed [] = db := by
  have hNone : ∀ s, db.isFlagged [] s = false := by simp [isFlagged]
  simp only [flagCondensed, hNone, Bool.false_or]

theorem cutSummaryItems_nil : db.cutSummaryItems [] = db := by
  have hNone : ∀ ref, cutsSummary [] ref = false := by
    intro ref
    cases ref <;> simp [cutsSummary]
  simp only [cutSummaryItems, hNone, Bool.not_false, List.filter_true]

theorem cutMessageItems_nil : db.cutMessageItems [] = db := by
  have hNone : ∀ ref, db.cutsMessage [] ref = false := by
    intro ref
    cases ref <;> simp [cutsMessage, isLinkedTo_nil]
  simp only [cutMessageItems, hNone, Bool.not_false, List.filter_true]

theorem suppressMessages_nil (now : Timestamp) : db.suppressMessages [] now = db := by
  simp only [suppressMessages, isLinkedTo_nil, Bool.false_and, Bool.false_eq_true, if_false,
    List.map_id']

theorem invalidateCaches_nil : db.invalidateCaches [] = db := by
  have hNone : ∀ cacheId, db.synthesis.refersTo [] cacheId = false := by
    simp [SynthesisTables.refersTo]
  simp only [invalidateCaches, SynthesisTables.invalidateCaches, hNone, Bool.not_false,
    List.filter_true]

theorem runSoftPurgeBody_nil (reason : String) (now : Timestamp) :
    db.runSoftPurgeBody [] reason now = db := by
  simp only [runSoftPurgeBody, setSuppressedAt_nil, recordReason_nil, flagCondensed_nil,
    cutSummaryItems_nil, cutMessageItems_nil, suppressMessages_nil, invalidateCaches_nil]

end NoLeaves

theorem purge_eq (db : OperatorDb) (request : PurgeRequest) :
    db.purge request =
      db.runSoftPurgeBody (db.targets request) request.opts.reason request.now := by
  unfold purge runPurge targets
  cases validatePurge request.opts with
  | error error => exact (runSoftPurgeBody_nil db _ _).symm
  | ok _ =>
    dsimp only
    split
    · rename_i db' result hRun
      split at hRun
      · cases hRun
      · cases hRun
    · rename_i db' result hRun
      split at hRun
      · rename_i hNone
        rw [List.length_eq_zero_iff.mp hNone, runSoftPurgeBody_nil]
        exact ((Prod.mk.inj (Except.ok.inj hRun)).1).symm
      · exact ((Prod.mk.inj (Except.ok.inj hRun)).1).symm

/-- What step 1 makes of a row. -/
def suppress (leafIds : List SummaryId) (now : Timestamp) (row : SummaryRecord) : SummaryRecord :=
  if row.summaryId ∈ leafIds then { row with suppressedAt := some now } else row

theorem suppress_id (leafIds : List SummaryId) (now : Timestamp) (row : SummaryRecord) :
    (suppress leafIds now row).summaryId = row.summaryId := by
  unfold suppress
  split <;> rfl

theorem suppress_kind (leafIds : List SummaryId) (now : Timestamp) (row : SummaryRecord) :
    (suppress leafIds now row).kind = row.kind := by
  unfold suppress
  split <;> rfl

theorem suppress_tokenCount (leafIds : List SummaryId) (now : Timestamp) (row : SummaryRecord) :
    (suppress leafIds now row).tokenCount = row.tokenCount := by
  unfold suppress
  split <;> rfl

theorem suppress_isNone {leafIds : List SummaryId} {now : Timestamp} {row : SummaryRecord} :
    (suppress leafIds now row).suppressedAt = none ↔
      row.summaryId ∉ leafIds ∧ row.suppressedAt = none := by
  unfold suppress
  split
  · rename_i hMem
    simp [hMem]
  · rename_i hMem
    simp [hMem]

/-- What step 5 makes of a row, if its gate is open. -/
def hide (gate : Bool) (now : Timestamp) (row : MessageRecord) : MessageRecord :=
  if gate then { row with suppressedAt := some now } else row

theorem hide_id (gate : Bool) (now : Timestamp) (row : MessageRecord) :
    (hide gate now row).messageId = row.messageId := by
  unfold hide
  split <;> rfl

theorem hide_isNone {gate : Bool} {now : Timestamp} {row : MessageRecord} :
    (hide gate now row).suppressedAt = none ↔ gate = false ∧ row.suppressedAt = none := by
  cases gate <;> simp [hide]

section Purge

variable (db request)

theorem purge_summaries : (db.purge request).summaries =
    db.summaries.map (suppress (db.targets request) request.now) := by
  rw [purge_eq]
  rfl

theorem purge_summaryMessages : (db.purge request).summaryMessages = db.summaryMessages := by
  rw [purge_eq]
  rfl

theorem purge_summaryParents : (db.purge request).summaryParents = db.summaryParents := by
  rw [purge_eq]
  rfl

theorem purge_sessionKey : (db.purge request).sessionKey = db.sessionKey := by
  rw [purge_eq]
  rfl

theorem purge_createdAtText : (db.purge request).createdAtText = db.createdAtText := by
  rw [purge_eq]
  rfl

theorem purge_contextItems : (db.purge request).contextItems = db.contextItems.filter fun i =>
    !(cutsSummary (db.targets request) i.ref || db.cutsMessage (db.targets request) i.ref) := by
  rw [purge_eq]
  simp only [runSoftPurgeBody, invalidateCaches, suppressMessages, cutMessageItems,
    cutSummaryItems, List.filter_filter, Bool.not_or]
  refine List.filter_congr fun i _ => ?_
  rw [Bool.and_comm]
  rfl

/-- The rows of the keys, without what a purge changes. -/
theorem isCondensed_purge : ((db.purge request).summaries.any fun row =>
      row.summaryId = s ∧ row.kind = .condensed) =
    db.summaries.any fun row => row.summaryId = s ∧ row.kind = .condensed := by
  rw [purge_summaries, List.any_map]
  simp only [Function.comp_def, suppress_id, suppress_kind]

theorem purge_flag : (db.purge request).containsSuppressedLeaves s =
    (db.isFlagged (db.targets request) s || db.containsSuppressedLeaves s) := by
  have hCondensed := isCondensed_purge db request (s := s)
  rw [purge_summaries] at hCondensed
  rw [purge_eq]
  simp only [runSoftPurgeBody, invalidateCaches, suppressMessages, cutMessageItems,
    cutSummaryItems, flagCondensed, isFlagged, recordReason, setSuppressedAt]
  rw [← hCondensed]
  rfl

theorem isKeptBy_suppressed (leafIds : List SummaryId) (value : Option Timestamp) :
    (db.setSuppressedAt leafIds value).isKeptBy leafIds m = db.isKeptBy leafIds m := by
  rw [Bool.eq_iff_iff]
  simp only [isKeptBy, setSuppressedAt, List.any_eq_true, decide_eq_true_eq, List.mem_map,
    exists_exists_and_eq_and]
  refine exists_congr fun l => and_congr_right fun _ => and_congr_right fun _ =>
    and_congr_right fun hOut => exists_congr fun row => and_congr_right fun _ => ?_
  split
  · rename_i hIn
    constructor
    · rintro ⟨hId, -⟩
      exact absurd (hId ▸ hIn) hOut
    · rintro ⟨hId, -⟩
      exact absurd (hId ▸ hIn) hOut
  · rfl

theorem purge_messages : (db.purge request).messages = db.messages.map fun row =>
    hide (db.isLinkedTo (db.targets request) row.messageId &&
      !db.isKeptBy (db.targets request) row.messageId) request.now row := by
  rw [purge_eq]
  refine List.map_congr_left fun row _ => ?_
  rw [← isKeptBy_suppressed db (db.targets request) (some request.now)]
  rfl

end Purge

theorem Keyed.purge (h : db.Keyed) (request : PurgeRequest) : (db.purge request).Keyed := by
  constructor
  · rw [purge_summaries, List.map_map]
    simp only [Function.comp_def, suppress_id]
    exact h.summaries
  · rw [purge_messages, List.map_map]
    simp only [Function.comp_def, hide_id]
    exact h.messages

/-- The criteria do not read what a purge writes. -/
theorem isTarget_purge (request request' : PurgeRequest) :
    (db.purge request).isTarget request' s = db.isTarget request' s := by
  have hFits : ∀ row, (db.purge request).fits request'.opts.criteria
      (suppress (db.targets request) request.now row) = db.fits request'.opts.criteria row := by
    intro row
    simp only [fits, suppress_id, suppress_kind, suppress_tokenCount, purge_sessionKey,
      purge_createdAtText]
  unfold isTarget
  rw [purge_summaries, List.any_map]
  simp only [Function.comp_def, suppress_id]
  simp only [hFits]

theorem isSuppressed_purge (h : db.Keyed) (request : PurgeRequest) :
    (db.purge request).isSuppressed s ↔ db.isSuppressed s ∨ db.isTarget request s := by
  have hStep : (db.purge request).isSuppressed s ↔
      db.isSuppressed s ∨ s ∈ db.targets request := by
    rw [isSuppressed_iff, isSuppressed_iff, purge_summaries]
    simp only [List.mem_map, exists_exists_and_eq_and, suppress_id, ne_eq, suppress_isNone]
    constructor
    · rintro ⟨row, hRow, rfl, hSome⟩
      by_cases hIn : row.summaryId ∈ db.targets request
      · exact Or.inr hIn
      · exact Or.inl ⟨row, hRow, rfl, fun hNone => hSome ⟨hIn, hNone⟩⟩
    · rintro (⟨row, hRow, hId, hSome⟩ | hIn)
      · exact ⟨row, hRow, hId, fun hNone => hSome hNone.2⟩
      · obtain ⟨row, hRow, rfl, -, -⟩ := exists_row_of_mem_targets hIn
        exact ⟨row, hRow, rfl, fun hNone => hNone.1 hIn⟩
  rw [hStep, mem_targets h]
  tauto

/-! ## A sequence of purges -/

theorem Keyed.run (h : db.Keyed) (requests : List PurgeRequest) : (db.purges requests).Keyed :=
  Run.final_invariant (fun _ request _ hInv => hInv.purge request) h

theorem purges_summaryMessages (requests : List PurgeRequest) :
    (db.purges requests).summaryMessages = db.summaryMessages := by
  induction requests generalizing db with
  | nil => rfl
  | cons head rest ih => exact ih.trans (purge_summaryMessages db head)

theorem isPurged_iff : db.isPurged requests s ↔
    ¬ db.isSuppressed s ∧ ∃ request ∈ requests, db.isTarget request s := by
  simp [isPurged]

theorem isSuppressed_run (h : db.Keyed) (requests : List PurgeRequest) :
    (db.purges requests).isSuppressed s ↔ db.isSuppressed s ∨ db.isPurged requests s := by
  have hAll : (db.purges requests).isSuppressed s ↔
      db.isSuppressed s ∨ ∃ request ∈ requests, db.isTarget request s := by
    induction requests generalizing db with
    | nil => simp [purges, Run.final]
    | cons head rest ih =>
      refine (ih (h.purge head)).trans ?_
      simp only [isSuppressed_purge h, isTarget_purge, List.mem_cons, exists_eq_or_imp]
      tauto
  rw [hAll, isPurged_iff]
  tauto

/-- The leaves of the first purge, and those that the others find still there. -/
theorem isPurged_cons (h : db.Keyed) (head : PurgeRequest) (rest : List PurgeRequest) :
    db.isPurged (head :: rest) s ↔
      s ∈ db.targets head ∨ (db.purge head).isPurged rest s := by
  simp only [isPurged_iff, mem_targets h, isSuppressed_purge h, isTarget_purge,
    List.mem_cons, exists_eq_or_imp]
  tauto

/-- A condensed summary of which one of the purged leaves is a source. -/
def isMarked (db : OperatorDb) (requests : List PurgeRequest) (s : SummaryId) : Bool :=
  (db.summaries.any fun row => row.summaryId = s ∧ row.kind = .condensed) &&
    db.summaryParents.any fun l => l.summaryId = s && db.isPurged requests l.parentSummaryId

theorem flag_run (h : db.Keyed) (requests : List PurgeRequest) :
    (db.purges requests).containsSuppressedLeaves s ↔
      db.isMarked requests s ∨ db.containsSuppressedLeaves s := by
  induction requests generalizing db with
  | nil => simp [purges, Run.final, isMarked, isPurged]
  | cons head rest ih =>
    have hMarked : db.isMarked (head :: rest) s ↔
        db.isFlagged (db.targets head) s ∨ (db.purge head).isMarked rest s := by
      unfold isMarked isFlagged
      rw [isCondensed_purge, purge_summaryParents]
      simp only [Bool.and_eq_true, List.any_eq_true, decide_eq_true_eq, isPurged_cons h]
      constructor
      · rintro ⟨hCondensed, l, hl, hId, hTarget | hLater⟩
        · exact Or.inl ⟨hCondensed, l, hl, hId, hTarget⟩
        · exact Or.inr ⟨hCondensed, l, hl, hId, hLater⟩
      · rintro (⟨hCondensed, l, hl, hId, hTarget⟩ | ⟨hCondensed, l, hl, hId, hLater⟩)
        · exact ⟨hCondensed, l, hl, hId, Or.inl hTarget⟩
        · exact ⟨hCondensed, l, hl, hId, Or.inr hLater⟩
    refine (ih (h.purge head)).trans ?_
    rw [purge_flag, hMarked, Bool.or_eq_true]
    tauto

/-- The message is one of a purged leaf. -/
def hasPurged (db : OperatorDb) (requests : List PurgeRequest) (m : MessageId) : Bool :=
  db.summaryMessages.any fun l => l.messageId = m && db.isPurged requests l.summaryId

theorem hasPurged_cons (h : db.Keyed) (head : PurgeRequest) (rest : List PurgeRequest) :
    db.hasPurged (head :: rest) m ↔
      db.isLinkedTo (db.targets head) m ∨ (db.purge head).hasPurged rest m := by
  unfold hasPurged isLinkedTo
  rw [purge_summaryMessages]
  simp only [List.any_eq_true, Bool.and_eq_true, decide_eq_true_eq, isPurged_cons h]
  constructor
  · rintro ⟨l, hl, hId, hTarget | hLater⟩
    · exact Or.inl ⟨l, hl, hId, hTarget⟩
    · exact Or.inr ⟨l, hl, hId, hLater⟩
  · rintro (⟨l, hl, hId, hTarget⟩ | ⟨l, hl, hId, hLater⟩)
    · exact ⟨l, hl, hId, Or.inl hTarget⟩
    · exact ⟨l, hl, hId, Or.inr hLater⟩

/-- The item is a pointer to a purged leaf or to one of its messages. -/
def isCut (db : OperatorDb) (requests : List PurgeRequest) : ContextItemRef → Bool
  | .summary s => db.isPurged requests s
  | .message m => db.hasPurged requests m

theorem contextItems_run (h : db.Keyed) (requests : List PurgeRequest) :
    (db.purges requests).contextItems =
      db.contextItems.filter fun i => !db.isCut requests i.ref := by
  induction requests generalizing db with
  | nil =>
    have hNone : ∀ ref, db.isCut [] ref = false := by
      intro ref
      cases ref <;> simp [isCut, isPurged, hasPurged]
    simp only [hNone, Bool.not_false, List.filter_true]
    rfl
  | cons head rest ih =>
    refine (ih (h.purge head)).trans ?_
    rw [purge_contextItems, List.filter_filter]
    refine List.filter_congr fun i _ => ?_
    rw [← Bool.not_or]
    congr 1
    rw [Bool.eq_iff_iff, Bool.or_eq_true, Bool.or_eq_true]
    cases i.ref with
    | summary s =>
      simp only [isCut, cutsSummary, cutsMessage, isPurged_cons h, decide_eq_true_eq,
        Bool.false_eq_true, or_false]
      tauto
    | message m =>
      simp only [isCut, cutsSummary, cutsMessage, hasPurged_cons h,
        Bool.false_eq_true, false_or]
      tauto

theorem isHidden_iff : db.isHidden m ↔
    ∃ row ∈ db.messages, row.messageId = m ∧ row.suppressedAt ≠ none := by
  simp [isHidden, Option.isSome_iff_ne_none]

theorem hasLive_iff : db.hasLive m ↔ ∃ l ∈ db.summaryMessages, l.messageId = m ∧
    ∃ row ∈ db.summaries, row.summaryId = l.summaryId ∧ row.suppressedAt = none := by
  simp [hasLive]

theorem hasLive_purge (request : PurgeRequest) :
    (db.purge request).hasLive m ↔ db.isKeptBy (db.targets request) m := by
  rw [hasLive_iff, purge_summaryMessages, purge_summaries]
  simp only [isKeptBy, List.any_eq_true, decide_eq_true_eq, List.mem_map,
    exists_exists_and_eq_and, suppress_id, suppress_isNone]
  refine exists_congr fun l => and_congr_right fun _ => and_congr_right fun _ => ?_
  constructor
  · rintro ⟨row, hRow, hId, hOut, hNone⟩
    exact ⟨hId ▸ hOut, row, hRow, hId, hNone⟩
  · rintro ⟨hOut, row, hRow, hId, hNone⟩
    exact ⟨row, hRow, hId, hId ▸ hOut, hNone⟩

theorem mem_messages_purge (request : PurgeRequest) :
    m ∈ (db.purge request).messages.map (·.messageId) ↔ m ∈ db.messages.map (·.messageId) := by
  rw [purge_messages, List.map_map]
  simp only [Function.comp_def, hide_id]

theorem isHidden_purge (request : PurgeRequest) : (db.purge request).isHidden m ↔
    db.isHidden m ∨ m ∈ db.messages.map (·.messageId) ∧
      db.isLinkedTo (db.targets request) m ∧ ¬ (db.purge request).hasLive m := by
  rw [hasLive_purge, isHidden_iff, isHidden_iff, purge_messages]
  simp only [List.mem_map, exists_exists_and_eq_and, hide_id, ne_eq, hide_isNone, not_and_or,
    Bool.not_eq_false, Bool.and_eq_true, Bool.not_eq_true']
  constructor
  · rintro ⟨row, hMem, rfl, ⟨hLinked, hKept⟩ | hSome⟩
    · exact Or.inr ⟨⟨row, hMem, rfl⟩, hLinked, by rw [hKept]; exact Bool.false_ne_true⟩
    · exact Or.inl ⟨row, hMem, rfl, hSome⟩
  · rintro (⟨row, hMem, hId, hSome⟩ | ⟨⟨row, hMem, rfl⟩, hLinked, hKept⟩)
    · exact ⟨row, hMem, hId, Or.inr hSome⟩
    · exact ⟨row, hMem, rfl, Or.inl ⟨hLinked, Bool.eq_false_iff.mpr hKept⟩⟩

theorem hasLive_run (h : db.Keyed) (requests : List PurgeRequest) :
    (db.purges requests).hasLive m ↔ ∃ l ∈ db.summaryMessages, l.messageId = m ∧
      ∃ row ∈ db.summaries, row.summaryId = l.summaryId ∧ row.suppressedAt = none ∧
        ¬ db.isPurged requests l.summaryId := by
  induction requests generalizing db with
  | nil => simp [purges, Run.final, hasLive_iff, isPurged]
  | cons head rest ih =>
    refine (ih (h.purge head)).trans ?_
    rw [purge_summaryMessages, purge_summaries]
    simp only [List.mem_map, exists_exists_and_eq_and, suppress_id, suppress_isNone,
      isPurged_cons h]
    refine exists_congr fun l => and_congr_right fun _ => and_congr_right fun _ =>
      exists_congr fun row => and_congr_right fun _ => and_congr_right fun hId => ?_
    rw [hId]
    tauto

/-- A message is suppressed when a leaf of it is purged and no live summary is left. -/
theorem isHidden_run (h : db.Keyed) (requests : List PurgeRequest) :
    (db.purges requests).isHidden m ↔ db.isHidden m ∨ m ∈ db.messages.map (·.messageId) ∧
      db.hasPurged requests m ∧ ¬ (db.purges requests).hasLive m := by
  induction requests generalizing db with
  | nil => simp [purges, Run.final, hasPurged, isPurged]
  | cons head rest ih =>
    have hRun := ih (h.purge head)
    have hEnd : (db.purge head).purges rest = db.purges (head :: rest) := rfl
    rw [hEnd, mem_messages_purge, isHidden_purge] at hRun
    rw [hRun, hasPurged_cons h]
    -- a live summary that the first purge left behind is gone only if a later one took it
    have hLater : ¬ (db.purges (head :: rest)).hasLive m → (db.purge head).hasLive m →
        (db.purge head).hasPurged rest m := by
      intro hGone hLive
      obtain ⟨l, hl, hId, row, hRow, hOf, hNone⟩ := hasLive_iff.mp hLive
      by_contra hNot
      refine hGone ((hasLive_run (h.purge head) rest).mpr ⟨l, hl, hId, row, hRow, hOf, hNone, ?_⟩)
      intro hPurged
      exact hNot (List.any_eq_true.mpr ⟨l, hl, by simp [hId, hPurged]⟩)
    have hStill : ¬ (db.purge head).hasLive m → ¬ (db.purges (head :: rest)).hasLive m := by
      intro hGone hLive
      obtain ⟨l, hl, hId, row, hRow, hOf, hNone, -⟩ := (hasLive_run (h.purge head) rest).mp hLive
      exact hGone (hasLive_iff.mpr ⟨l, hl, hId, row, hRow, hOf, hNone⟩)
    constructor
    · rintro ((hOld | ⟨hMem, hLinked, hGone⟩) | ⟨hMem, hPurged, hGone⟩)
      · exact Or.inl hOld
      · exact Or.inr ⟨hMem, Or.inl hLinked, hStill hGone⟩
      · exact Or.inr ⟨hMem, Or.inr hPurged, hGone⟩
    · rintro (hOld | ⟨hMem, hLinked | hPurged, hGone⟩)
      · exact Or.inl (Or.inl hOld)
      · by_cases hLive : (db.purge head).hasLive m
        · exact Or.inr ⟨hMem, hLater hGone hLive, hGone⟩
        · exact Or.inl (Or.inr ⟨hMem, hLinked, hLive⟩)
      · exact Or.inr ⟨hMem, hPurged, hGone⟩

end OperatorDb
end LosslessHermes
