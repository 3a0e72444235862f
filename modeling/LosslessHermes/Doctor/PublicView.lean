import Mathlib.Data.List.ReduceOption
import LosslessHermes.Doctor.Consistency

/-!
# What the public view of a database shows

Two databases look the same when they differ in the contents of suppressed rows only
(`publicView`). `Recontent` relates two such databases: the live targets are the same, and
so is the request for a target that reads nothing suppressed.
-/

namespace LosslessHermes.Doctor

/-! ## Databases that look the same -/

def hideMessage (m : MessageRecord) : MessageRecord :=
  if m.suppressedAt.isSome then { m with content := "" } else m

def hideSummary (s : SummaryRecord) : SummaryRecord :=
  if s.suppressedAt.isSome then { s with content := "" } else s

/-- The database without the contents of its suppressed rows. -/
def publicView (db : Db) : Db :=
  { db with
    messages := db.messages.map hideMessage
    summaries := db.summaries.map hideSummary }

def isSuppressed (db : Db) (s : SummaryId) : Bool :=
  (db.getSummary s true).any (·.suppressedAt.isSome)

/-! ## What a target reads -/

def sourceSuppressed (db : Db) (target : DoctorTargetRecord) : Bool :=
  if isCondensedTarget target then
    (childRows db target.summaryId).any (·.suppressedAt.isSome)
  else (leafRows db target.summaryId).any (·.suppressedAt.isSome)

/-- A source text can be rebuilt. -/
def hasSource (db : Db) (target : DoctorTargetRecord) : Bool :=
  if isCondensedTarget target then
    (childRows db target.summaryId).any fun s => Text.strip s.content != ""
  else !(leafRows db target.summaryId).isEmpty

/-- The three neighbours, in the order in which they are tried. -/
def neighbours (db : Db) (target : DoctorTargetRecord) : List SummaryId :=
  [neighbourInContext db target, neighbourInParents db target,
    neighbourInTime db target].reduceOption.filter (· ≠ "")

/-- Those that are looked at: up to the first with a content. -/
def consulted (db : Db) : List SummaryId → List SummaryId
  | [] => []
  | s :: rest => if storedContent db s = "" then s :: consulted db rest else [s]

/-- The target reads nothing that is suppressed. -/
def ReadsLive (db : Db) (target : DoctorTargetRecord) : Prop :=
  sourceSuppressed db target = false ∧ (hasSource db target = true →
    ∀ s ∈ consulted db (neighbours db target), isSuppressed db s = false)

variable {env : DoctorEnv} {db : Db} {target : DoctorTargetRecord} {s : SummaryId}

/-! ## Queries on changed contents -/

/-- `db'` has the rows of `db`, with other contents. -/
structure Recontent (db db' : Db) (changeMessage : MessageRecord → MessageRecord)
    (changeSummary : SummaryRecord → SummaryRecord) : Prop where
  messages : db'.messages = db.messages.map changeMessage
  summaries : db'.summaries = db.summaries.map changeSummary
  summaryMessages : db'.summaryMessages = db.summaryMessages
  summaryParents : db'.summaryParents = db.summaryParents
  contextItems : db'.contextItems = db.contextItems
  message : ∀ m, ∃ content, changeMessage m = { m with content := content }
  summary : ∀ s, ∃ content, changeSummary s = { s with content := content }
  liveMessage : ∀ m, m.suppressedAt.isSome = false → changeMessage m = m
  liveSummary : ∀ s, s.suppressedAt.isSome = false → changeSummary s = s

theorem recontent_publicView (db : Db) :
    Recontent db (publicView db) hideMessage hideSummary := by
  refine ⟨rfl, rfl, rfl, rfl, rfl, ?_, ?_, ?_, ?_⟩
  · intro m
    unfold hideMessage
    split
    · exact ⟨_, rfl⟩
    · exact ⟨_, rfl⟩
  · intro s
    unfold hideSummary
    split
    · exact ⟨_, rfl⟩
    · exact ⟨_, rfl⟩
  · intro m hLive
    rw [hideMessage, hLive]
    rfl
  · intro s hLive
    rw [hideSummary, hLive]
    rfl

section Recontent

variable {db' : Db} {changeMessage : MessageRecord → MessageRecord}
  {changeSummary : SummaryRecord → SummaryRecord}

namespace Recontent

variable (h : Recontent db db' changeMessage changeSummary)

include h

theorem summary_id (row : SummaryRecord) : (changeSummary row).summaryId = row.summaryId := by
  obtain ⟨content, hRow⟩ := h.summary row
  rw [hRow]

theorem message_suppressedAt (m : MessageRecord) :
    (changeMessage m).suppressedAt = m.suppressedAt := by
  obtain ⟨content, hRow⟩ := h.message m
  rw [hRow]

theorem summary_suppressedAt (row : SummaryRecord) :
    (changeSummary row).suppressedAt = row.suppressedAt := by
  obtain ⟨content, hRow⟩ := h.summary row
  rw [hRow]

theorem getMessageById (m : MessageId) :
    db'.getMessageById m true = (db.getMessageById m true).map changeMessage := by
  unfold Db.getMessageById
  rw [h.messages, List.find?_map]
  refine congrArg _ (congrArg (db.messages.find? ·) (funext fun row => ?_))
  obtain ⟨content, hRow⟩ := h.message row
  rw [Function.comp_apply, hRow]

theorem getSummary (s : SummaryId) :
    db'.getSummary s true = (db.getSummary s true).map changeSummary := by
  unfold Db.getSummary
  rw [h.summaries, List.find?_map]
  refine congrArg _ (congrArg (db.summaries.find? ·) (funext fun row => ?_))
  obtain ⟨content, hRow⟩ := h.summary row
  rw [Function.comp_apply, hRow]

theorem isSuppressed_eq (s : SummaryId) : isSuppressed db' s = isSuppressed db s := by
  unfold isSuppressed
  rw [h.getSummary, Option.any_map]
  refine congrArg (Option.any · _) (funext fun row => ?_)
  show (changeSummary row).suppressedAt.isSome = row.suppressedAt.isSome
  rw [h.summary_suppressedAt]

theorem getContextItems (c : ConversationId) : db'.getContextItems c = db.getContextItems c := by
  unfold Db.getContextItems
  rw [h.contextItems]

theorem leafRows_eq (s : SummaryId) : leafRows db' s = (leafRows db s).map changeMessage := by
  unfold leafRows
  rw [h.summaryMessages, List.map_filterMap]
  exact List.filterMap_congr fun l _ => h.getMessageById l.messageId

theorem childRows_eq (s : SummaryId) : childRows db' s = (childRows db s).map changeSummary := by
  unfold childRows
  rw [h.summaryParents, List.map_filterMap]
  exact List.filterMap_congr fun l _ => h.getSummary l.parentSummaryId

theorem leafRows_of_live (hLive : ∀ m ∈ leafRows db s, m.suppressedAt.isSome = false) :
    leafRows db' s = leafRows db s := by
  rw [h.leafRows_eq]
  conv_rhs => rw [← List.map_id (leafRows db s)]
  exact List.map_congr_left fun m hm => h.liveMessage m (hLive m hm)

theorem childRows_of_live (hLive : ∀ row ∈ childRows db s, row.suppressedAt.isSome = false) :
    childRows db' s = childRows db s := by
  rw [h.childRows_eq]
  conv_rhs => rw [← List.map_id (childRows db s)]
  exact List.map_congr_left fun row hRow => h.liveSummary row (hLive row hRow)

theorem neighbours_eq (target : DoctorTargetRecord) : neighbours db' target = neighbours db target := by
  have hContext : neighbourInContext db' target = neighbourInContext db target := by
    have hDepth : ∀ s, (db'.getSummary s true).any (·.depth = target.depth) =
        (db.getSummary s true).any (·.depth = target.depth) := by
      intro s
      rw [h.getSummary, Option.any_map]
      refine congrArg (Option.any · _) (funext fun row => ?_)
      obtain ⟨content, hRow⟩ := h.summary row
      show decide ((changeSummary row).depth = target.depth) = decide (row.depth = target.depth)
      rw [hRow]
    unfold neighbourInContext
    simp only [h.getContextItems, hDepth]
  have hParents : neighbourInParents db' target = neighbourInParents db target := by
    unfold neighbourInParents
    rw [h.summaryParents]
  have hTime : neighbourInTime db' target = neighbourInTime db target := by
    unfold neighbourInTime
    rw [h.summaries, Table.select_map, List.head?_map, Option.map_map]
    · refine congrArg (Option.map · _) (funext h.summary_id)
    · intro row
      obtain ⟨content, hRow⟩ := h.summary row
      rw [hRow]
    · intro row
      obtain ⟨content, hRow⟩ := h.summary row
      rw [hRow]
  unfold neighbours
  rw [hContext, hParents, hTime]

/-! ### Live rows -/

theorem getSummary_of_live (hLive : isSuppressed db s = false) :
    db'.getSummary s true = db.getSummary s true := by
  rw [h.getSummary]
  unfold isSuppressed at hLive
  cases hRow : db.getSummary s true with
  | none => rfl
  | some row =>
    rw [hRow] at hLive
    rw [Option.map_some, h.liveSummary row hLive]

theorem storedContent_of_live (hLive : isSuppressed db s = false) :
    storedContent db' s = storedContent db s := by
  unfold storedContent
  rw [h.getSummary_of_live hLive]

theorem liveRows_eq : db'.summaries.filter (·.suppressedAt.isNone) =
    db.summaries.filter (·.suppressedAt.isNone) := by
  have hComp : (fun row : SummaryRecord => row.suppressedAt.isNone) ∘ changeSummary =
      fun row => row.suppressedAt.isNone :=
    funext fun row => congrArg Option.isNone (h.summary_suppressedAt row)
  rw [h.summaries, List.filter_map, hComp]
  conv_rhs => rw [← List.map_id (db.summaries.filter _)]
  refine List.map_congr_left fun row hRow => h.liveSummary row ?_
  have hNone := (List.mem_filter.mp hRow).2
  rwa [Option.isSome_eq_false_iff]

theorem ids_eq : db'.summaries.map (·.summaryId) = db.summaries.map (·.summaryId) := by
  have hIds : (fun row : SummaryRecord => row.summaryId) ∘ changeSummary = (·.summaryId) :=
    funext h.summary_id
  rw [h.summaries, List.map_map, hIds]

theorem targetOf_eq : targetOf db' = targetOf db := by
  funext row
  unfold targetOf
  rw [h.summaryParents]

theorem ordinals_of_live (c : ConversationId) (hLive : isSuppressed db s = false) :
    loadDoctorLeafOrdinals db' c s = loadDoctorLeafOrdinals db c s := by
  unfold loadDoctorLeafOrdinals
  rw [h.getSummary_of_live hLive, h.getContextItems]

end Recontent

end Recontent

/-! ## The live targets -/

def isLive (db : Db) (target : DoctorTargetRecord) : Bool :=
  !isSuppressed db target.summaryId

theorem isLive_iff : isLive db target = true ↔ isSuppressed db target.summaryId = false := by
  rw [isLive, Bool.not_eq_true']

theorem isSuppressed_of_mem (hKeys : (db.summaries.map (·.summaryId)).Nodup)
    {row : SummaryRecord} (hRow : row ∈ db.summaries) :
    isSuppressed db row.summaryId = row.suppressedAt.isSome := by
  rw [isSuppressed, getSummary_of_mem hKeys hRow]
  rfl

/-- The live targets are the targets among the live rows. -/
theorem filter_loadDoctorTargets (hKeys : (db.summaries.map (·.summaryId)).Nodup)
    (c : Option ConversationId) : (loadDoctorTargets db c).filter (isLive db) =
      (Table.select
        (fun s : SummaryRecord => c.all (· = s.conversationId) && mentionsMarker s.content)
        (fun s => toLex (s.conversationId, toLex (s.depth, toLex (s.createdAt, s.summaryId))))
        (db.summaries.filter (·.suppressedAt.isNone))).filterMap (targetOf db) := by
  rw [loadDoctorTargets, List.filter_filterMap, ← Table.filter_select, List.filterMap_filter]
  refine List.filterMap_congr fun row hRow => ?_
  have hSuppressed := isSuppressed_of_mem hKeys (Table.mem_select.mp hRow).1
  cases hTarget : targetOf db row with
  | none => simp
  | some target =>
    rw [Option.filter_some, isLive, (targetOf_eq_some hTarget).1, hSuppressed,
      Option.not_isSome]

theorem filter_orderDoctorTargets (c : ConversationId) (q : DoctorTargetRecord → Bool)
    (targets : List DoctorTargetRecord) :
    (orderDoctorTargets db c targets).filter q =
      orderDoctorTargets db c (targets.filter q) := by
  have hSort : ∀ ts, (sortTargets ts).filter q = sortTargets (ts.filter q) :=
    fun ts => Table.filter_select
  have hComm : ∀ (p : DoctorTargetRecord → Bool) ts,
      (List.filter p ts).filter q = (ts.filter q).filter p := by
    intro p ts
    rw [List.filter_filter, List.filter_filter]
    exact List.filter_congr fun t _ => Bool.and_comm _ _
  have hActive : ∀ (ordinal : DoctorTargetRecord → Option Int) ts,
      (List.filterMap (fun t => (ordinal t).map fun o => (o, t)) ts).filter (q ∘ Prod.snd) =
        (ts.filter q).filterMap fun t => (ordinal t).map fun o => (o, t) := by
    intro ordinal ts
    rw [List.filter_filterMap, List.filterMap_filter]
    refine List.filterMap_congr fun t _ => ?_
    cases ordinal t with
    | none => simp
    | some o => simp [Option.filter]
  simp only [orderDoctorTargets, List.filter_append, hSort, List.filter_map, Table.filter_select,
    hActive, hComm]

theorem orderDoctorTargets_congr {db' : Db} {c : ConversationId}
    {targets : List DoctorTargetRecord} (h : ∀ t ∈ targets,
      loadDoctorLeafOrdinals db' c t.summaryId = loadDoctorLeafOrdinals db c t.summaryId) :
    orderDoctorTargets db' c targets = orderDoctorTargets db c targets := by
  have hLeaves : ∀ t ∈ targets.filter fun t => !isCondensedTarget t,
      loadDoctorLeafOrdinals db' c t.summaryId = loadDoctorLeafOrdinals db c t.summaryId :=
    fun t ht => h t (List.mem_filter.mp ht).1
  unfold orderDoctorTargets
  refine congrArg₂ _ (congrArg₂ _ ?_ ?_) rfl
  · refine congrArg (fun pairs => (Table.select _ Prod.fst pairs).map Prod.snd) ?_
    exact List.filterMap_congr fun t ht => congrArg (Option.map fun o => (o, t)) (hLeaves t ht)
  · exact congrArg sortTargets
      (List.filter_congr fun t ht => congrArg Option.isNone (hLeaves t ht))

theorem Recontent.isLive_eq {db' : Db} {changeMessage changeSummary}
    (h : Recontent db db' changeMessage changeSummary) : isLive db' = isLive db := by
  funext target
  rw [isLive, isLive, h.isSuppressed_eq]

theorem Recontent.filter_targets {db' : Db} {changeMessage changeSummary}
    (h : Recontent db db' changeMessage changeSummary)
    (hKeys : (db.summaries.map (·.summaryId)).Nodup) (c : Option ConversationId) :
    (loadDoctorTargets db' c).filter (isLive db) =
      (loadDoctorTargets db c).filter (isLive db) := by
  have hKeys' : (db'.summaries.map (·.summaryId)).Nodup := h.ids_eq ▸ hKeys
  rw [filter_loadDoctorTargets hKeys, ← h.isLive_eq, filter_loadDoctorTargets hKeys',
    h.liveRows_eq, h.targetOf_eq]

/-- The live targets come in an order that the public view knows. -/
theorem Recontent.filter_orderedTargets {db' : Db} {changeMessage changeSummary}
    (h : Recontent db db' changeMessage changeSummary)
    (hKeys : (db.summaries.map (·.summaryId)).Nodup) (c : ConversationId) :
    (orderedTargets db' c).filter (isLive db) = (orderedTargets db c).filter (isLive db) := by
  unfold orderedTargets
  rw [filter_orderDoctorTargets, filter_orderDoctorTargets, h.filter_targets hKeys]
  refine orderDoctorTargets_congr fun t ht => ?_
  exact h.ordinals_of_live c (isLive_iff.mp (List.mem_filter.mp ht).2)

/-! ## One request -/

/-- The context is the content of the first neighbour that has one. -/
theorem resolvePreviousSummaryContext_eq (overrides : Overrides) :
    resolvePreviousSummaryContext db overrides target =
      (neighbours db target).findSome? (resolveSummaryContent db overrides) := by
  have hEmpty : resolveSummaryContent db overrides "" = none := if_pos rfl
  have hFirst : ∀ (found : Option SummaryId) rest,
      (List.filter (fun s => decide (s ≠ "")) (List.reduceOption (found :: rest))).findSome?
          (resolveSummaryContent db overrides) =
        (found.bind (resolveSummaryContent db overrides)).or
          ((List.filter (fun s => decide (s ≠ "")) (List.reduceOption rest)).findSome?
            (resolveSummaryContent db overrides)) := by
    intro found rest
    cases found with
    | none => rfl
    | some s =>
      rw [List.reduceOption_cons_of_some, List.filter_cons, Option.bind_some]
      by_cases hs : s = ""
      · rw [if_neg (by simp [hs]), hs, hEmpty, Option.none_or]
      · rw [if_pos (by simp [hs]), List.findSome?_cons]
        cases resolveSummaryContent db overrides s <;> rfl
  unfold resolvePreviousSummaryContext neighbours
  rw [hFirst, hFirst, hFirst]
  show _ = Option.or _ (Option.or _ (Option.or _ none))
  rw [Option.or_none]
  rfl

theorem ne_empty_of_mem_neighbours (h : s ∈ neighbours db target) : s ≠ "" := by
  have hTest := (List.mem_filter.mp h).2
  exact of_decide_eq_true hTest

theorem mem_childRows {row : SummaryRecord} (h : row ∈ childRows db s) :
    db.getSummary row.summaryId true = some row := by
  obtain ⟨l, -, hRow⟩ := List.mem_filterMap.mp h
  have hId := List.find?_some hRow
  simp only [true_or, and_true, decide_eq_true_eq] at hId
  rw [hId]
  exact hRow

/-- What agrees on the live summaries, and is not blank where the rows are not. -/
structure AgreeOnLive (db : Db) (overrides overrides' : Overrides) : Prop where
  lookup : ∀ s, isSuppressed db s = false → overrides'.lookup s = overrides.lookup s
  marked : ∀ s, isSuppressed db s = false → (overrides.lookup s).isSome →
    storedContent db s ≠ ""

section Request

variable {overrides overrides' : Overrides}

theorem live_of_mem_childRows {row : SummaryRecord} (hRow : row ∈ childRows db s)
    (hLive : row.suppressedAt.isSome = false) : isSuppressed db row.summaryId = false := by
  rw [isSuppressed, mem_childRows hRow]
  exact hLive

theorem storedContent_of_mem_childRows {row : SummaryRecord} (hRow : row ∈ childRows db s) :
    storedContent db row.summaryId = Text.strip row.content := by
  rw [storedContent, mem_childRows hRow]
  rfl

/-- A text was rebuilt only where the rows themselves have one. -/
theorem hasSource_of_ok (hAgree : AgreeOnLive db overrides overrides')
    (hSource : sourceSuppressed db target = false) {text : String}
    (hText : buildSummarySourceText env db overrides target = .ok text) :
    hasSource db target = true := by
  unfold buildSummarySourceText at hText
  unfold sourceSuppressed at hSource
  unfold hasSource
  split at hText
  · rename_i hCondensed
    rw [if_pos hCondensed] at hSource ⊢
    rw [List.any_eq_false] at hSource
    rw [List.any_eq_true]
    unfold buildCondensedSourceText at hText
    cases hRows : childRows db target.summaryId with
    | nil =>
      rw [hRows] at hText
      cases hText
    | cons first rest =>
      rw [← hRows]
      rw [hRows] at hText
      simp only at hText
      rw [← hRows] at hText
      cases hParts : (childRows db target.summaryId).filterMap (condensedPart env overrides) with
      | nil =>
        rw [hParts] at hText
        cases hText
      | cons part parts =>
        have hPart : part ∈ (childRows db target.summaryId).filterMap
            (condensedPart env overrides) := by
          rw [hParts]
          exact List.mem_cons_self
        obtain ⟨row, hRow, hSome⟩ := List.mem_filterMap.mp hPart
        refine ⟨row, hRow, ?_⟩
        have hLive := live_of_mem_childRows hRow (Bool.eq_false_iff.mpr (hSource row hRow))
        have hStored := storedContent_of_mem_childRows hRow
        unfold condensedPart at hSome
        split at hSome
        · cases hSome
        · rename_i hNe
          unfold childContent at hNe
          cases hLookup : overrides.lookup row.summaryId with
          | none =>
            rw [hLookup] at hNe
            exact bne_iff_ne.mpr hNe
          | some override =>
            have hMarked := hAgree.marked _ hLive (by rw [hLookup]; rfl)
            rw [hStored] at hMarked
            exact bne_iff_ne.mpr hMarked
  · rename_i hLeaf
    rw [if_neg hLeaf]
    unfold buildLeafSourceText at hText
    cases hRows : leafRows db target.summaryId with
    | nil =>
      rw [hRows] at hText
      cases hText
    | cons first rest => rfl

variable {db' : Db} {changeMessage : MessageRecord → MessageRecord}
  {changeSummary : SummaryRecord → SummaryRecord}

theorem Recontent.source_eq (h : Recontent db db' changeMessage changeSummary)
    (hAgree : AgreeOnLive db overrides overrides')
    (hSource : sourceSuppressed db target = false) :
    buildSummarySourceText env db' overrides' target =
      buildSummarySourceText env db overrides target := by
  unfold sourceSuppressed at hSource
  unfold buildSummarySourceText
  by_cases hCondensed : isCondensedTarget target = true
  · rw [if_pos hCondensed, List.any_eq_false] at hSource
    rw [if_pos hCondensed, if_pos hCondensed]
    have hRows : childRows db' target.summaryId = childRows db target.summaryId :=
      h.childRows_of_live fun row hRow => Bool.eq_false_iff.mpr (hSource row hRow)
    have hParts : (childRows db target.summaryId).filterMap (condensedPart env overrides') =
        (childRows db target.summaryId).filterMap (condensedPart env overrides) := by
      refine List.filterMap_congr fun row hRow => ?_
      have hLive := live_of_mem_childRows hRow (Bool.eq_false_iff.mpr (hSource row hRow))
      unfold condensedPart childContent
      rw [hAgree.lookup _ hLive]
    unfold buildCondensedSourceText
    rw [hRows]
    cases hChildren : childRows db target.summaryId with
    | nil => rfl
    | cons first rest =>
      simp only
      rw [← hChildren, hParts]
  · rw [if_neg hCondensed, List.any_eq_false] at hSource
    rw [if_neg hCondensed, if_neg hCondensed]
    have hRows : leafRows db' target.summaryId = leafRows db target.summaryId :=
      h.leafRows_of_live fun m hm => Bool.eq_false_iff.mpr (hSource m hm)
    unfold buildLeafSourceText
    rw [hRows]

theorem nonEmpty_of_ne {content : String} (h : content ≠ "") : nonEmpty content = some content :=
  if_neg h

/-- A summary with a content resolves to some text, from the pass or from its row. -/
theorem resolve_ne_none (overrides : Overrides) (hs : s ≠ "") (hStored : storedContent db s ≠ "") :
    resolveSummaryContent db overrides s ≠ none := by
  unfold resolveSummaryContent
  rw [if_neg hs]
  cases overrides.lookup s with
  | none =>
    rw [nonEmpty_of_ne hStored]
    exact Option.some_ne_none _
  | some override =>
    simp only
    split
    · rw [nonEmpty_of_ne hStored]
      exact Option.some_ne_none _
    · exact Option.some_ne_none _

theorem Recontent.resolve_eq (h : Recontent db db' changeMessage changeSummary)
    (hAgree : AgreeOnLive db overrides overrides') (hLive : isSuppressed db s = false) :
    resolveSummaryContent db' overrides' s = resolveSummaryContent db overrides s := by
  unfold resolveSummaryContent
  rw [h.storedContent_of_live hLive, hAgree.lookup s hLive]

/-- The walk over the neighbours stops at the same text. -/
theorem Recontent.findSome_eq (h : Recontent db db' changeMessage changeSummary)
    (hAgree : AgreeOnLive db overrides overrides') {ids : List SummaryId}
    (hNe : ∀ s ∈ ids, s ≠ "") (hLive : ∀ s ∈ consulted db ids, isSuppressed db s = false) :
    ids.findSome? (resolveSummaryContent db' overrides') =
      ids.findSome? (resolveSummaryContent db overrides) := by
  induction ids with
  | nil => rfl
  | cons s rest ih =>
    unfold consulted at hLive
    rw [List.findSome?_cons, List.findSome?_cons]
    by_cases hStored : storedContent db s = ""
    · rw [if_pos hStored] at hLive
      rw [h.resolve_eq hAgree (hLive s List.mem_cons_self),
        ih (fun t ht => hNe t (List.mem_cons_of_mem _ ht))
          fun t ht => hLive t (List.mem_cons_of_mem _ ht)]
    · rw [if_neg hStored] at hLive
      rw [h.resolve_eq hAgree (hLive s List.mem_cons_self)]
      have hSome := resolve_ne_none overrides (hNe s List.mem_cons_self) hStored
      cases hResolved : resolveSummaryContent db overrides s with
      | none => exact absurd hResolved hSome
      | some text => rfl

theorem Recontent.requestFor_eq (h : Recontent db db' changeMessage changeSummary)
    (hAgree : AgreeOnLive db overrides overrides') (hReads : ReadsLive db target) :
    requestFor env db' overrides' target = requestFor env db overrides target := by
  unfold requestFor
  rw [h.source_eq hAgree hReads.1]
  cases hText : buildSummarySourceText env db overrides target with
  | error reason => rfl
  | ok text =>
    have hWalk := hReads.2 (hasSource_of_ok hAgree hReads.1 hText)
    rw [resolvePreviousSummaryContext_eq, resolvePreviousSummaryContext_eq, h.neighbours_eq,
      h.findSome_eq hAgree (fun s hs => ne_empty_of_mem_neighbours hs) hWalk]

end Request

/-! ## What the targets read is public -/

section Public

variable {db' : Db} {changeMessage : MessageRecord → MessageRecord}
  {changeSummary : SummaryRecord → SummaryRecord}

theorem Recontent.sourceSuppressed_eq (h : Recontent db db' changeMessage changeSummary)
    (target : DoctorTargetRecord) : sourceSuppressed db' target = sourceSuppressed db target := by
  have hMessage : (fun m : MessageRecord => m.suppressedAt.isSome) ∘ changeMessage =
      fun m => m.suppressedAt.isSome :=
    funext fun m => congrArg Option.isSome (h.message_suppressedAt m)
  have hSummary : (fun row : SummaryRecord => row.suppressedAt.isSome) ∘ changeSummary =
      fun row => row.suppressedAt.isSome :=
    funext fun row => congrArg Option.isSome (h.summary_suppressedAt row)
  unfold sourceSuppressed
  rw [h.childRows_eq, h.leafRows_eq, List.any_map, List.any_map, hMessage, hSummary]

theorem Recontent.hasSource_eq (h : Recontent db db' changeMessage changeSummary)
    (hSource : sourceSuppressed db target = false) : hasSource db' target = hasSource db target := by
  unfold sourceSuppressed at hSource
  unfold hasSource
  by_cases hCondensed : isCondensedTarget target = true
  · rw [if_pos hCondensed, List.any_eq_false] at hSource
    rw [if_pos hCondensed, if_pos hCondensed,
      h.childRows_of_live fun row hRow => Bool.eq_false_iff.mpr (hSource row hRow)]
  · rw [if_neg hCondensed, if_neg hCondensed, h.leafRows_eq, List.isEmpty_map]

/-- Up to the first suppressed summary the walk looks at the same ones. -/
theorem Recontent.consulted_live_iff (h : Recontent db db' changeMessage changeSummary)
    (ids : List SummaryId) : (∀ s ∈ consulted db' ids, isSuppressed db s = false) ↔
      ∀ s ∈ consulted db ids, isSuppressed db s = false := by
  induction ids with
  | nil => rfl
  | cons s rest ih =>
    have hHead : ∀ db, s ∈ consulted db (s :: rest) := by
      intro db
      unfold consulted
      split
      · exact List.mem_cons_self
      · exact List.mem_cons_self
    by_cases hLive : isSuppressed db s = false
    · unfold consulted
      rw [h.storedContent_of_live hLive]
      split
      · rw [List.forall_mem_cons, List.forall_mem_cons, ih]
      · rfl
    · exact ⟨fun hAll => absurd (hAll s (hHead db')) hLive,
        fun hAll => absurd (hAll s (hHead db)) hLive⟩

theorem Recontent.readsLive_iff (h : Recontent db db' changeMessage changeSummary) :
    ReadsLive db' target ↔ ReadsLive db target := by
  unfold ReadsLive
  rw [h.sourceSuppressed_eq, h.neighbours_eq]
  refine and_congr_right fun hSource => ?_
  rw [h.hasSource_eq hSource]
  simp only [h.isSuppressed_eq]
  rw [h.consulted_live_iff]

end Public

end LosslessHermes.Doctor
