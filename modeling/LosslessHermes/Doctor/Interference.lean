import LosslessHermes.Doctor.PublicView

/-!
# What the repair tells about suppressed rows

`confined_iff` says of which databases the repair asks and writes the same as of all that
look the same: no live target has a suppressed row in its source, or meets one on the way
to its previous context. One direction compares a run with the run on the public view
(`samePass_public`); the other one lengthens the suppressed contents (`stained`) until a
request shows it.
-/

namespace LosslessHermes.Doctor

open Summarize (LcmSummarizeOptions)

/-- A summarizer that sees the text and the options, and answers them the same way always. -/
def deterministic (f : String → Bool → LcmSummarizeOptions → Except String String) :
    DoctorSummarizeFn :=
  fun _ => f

/-- The requests made for a summary. -/
def callsFor (env : DoctorEnv) (db : Db) (summarize : DoctorSummarizeFn) (c : ConversationId)
    (s : SummaryId) : List DoctorRequest :=
  ((repairPass env db summarize c).calls.filter fun call => call.1 = s).map (·.2)

def liveContents (db : Db) : List (SummaryId × String) :=
  (db.summaries.filter (·.suppressedAt.isNone)).map fun row => (row.summaryId, row.content)

/-- The repair of `before'` asks for every live target of `before` what its own repair asks,
and leaves the live summaries with the same contents. -/
structure SameForLive (env : DoctorEnv) (before before' : DoctorDb)
    (summarize : DoctorSummarizeFn) (c : ConversationId) : Prop where
  requests : ∀ s, isSuppressed before.toDb s = false →
    callsFor env before.toDb summarize c s = callsFor env before'.toDb summarize c s
  contents :
    liveContents (applyScopedDoctorRepair env before (some summarize) c).1.toDb =
      liveContents (applyScopedDoctorRepair env before' (some summarize) c).1.toDb

/-- No suppressed content has an effect on the live summaries. -/
def Confined (env : DoctorEnv) (before : DoctorDb) (c : ConversationId) : Prop :=
  ∀ before' : DoctorDb, publicView before'.toDb = publicView before.toDb →
    ∀ f, SameForLive env before before' (deterministic f) c

variable {env : DoctorEnv} {db : Db} {target : DoctorTargetRecord} {s : SummaryId}

/-! ## Two passes -/

/-- A pass over `db` and one over its public view, as far as live summaries go. -/
structure SamePass (db : Db) (c : ConversationId) (state state' : RepairState) : Prop where
  recorded : Recorded (loadDoctorTargets db (some c)) state
  lookup : ∀ s, isSuppressed db s = false → state'.overrides.lookup s = state.overrides.lookup s
  calls : state'.calls.filter (fun call => !isSuppressed db call.1) =
    state.calls.filter fun call => !isSuppressed db call.1

section Passes

variable {c : ConversationId} {state state' : RepairState}
  {f : String → Bool → LcmSummarizeOptions → Except String String}

theorem SamePass.agree (h : SamePass db c state state')
    (hKeys : (db.summaries.map (·.summaryId)).Nodup) :
    AgreeOnLive db state.overrides state'.overrides := by
  refine ⟨h.lookup, fun s _ hSome => ?_⟩
  obtain ⟨override, hLookup⟩ := Option.isSome_iff_exists.mp hSome
  obtain ⟨target, hTarget, rfl, -⟩ := h.recorded.fresh s override hLookup
  obtain ⟨row, hRow, hTargetOf⟩ := exists_row_of_target hTarget
  obtain ⟨hId, -, hMarker⟩ := targetOf_eq_some hTargetOf
  rw [storedContent, hId, getSummary_of_mem hKeys hRow]
  exact Text.strip_ne_of_isBlank (not_blank_of_marker hMarker)

/-- A suppressed target is not seen. -/
theorem SamePass.suppressed (h : SamePass db c state state')
    (hTarget : target ∈ loadDoctorTargets db (some c)) (hLive : isLive db target = false) :
    SamePass db c (repairTarget env db (deterministic f) state target) state' := by
  have hSuppressed : isSuppressed db target.summaryId = true := by
    rwa [isLive, Bool.not_eq_false'] at hLive
  have hNe : ∀ s, isSuppressed db s = false → s ≠ target.summaryId := by
    rintro s hs rfl
    rw [hSuppressed] at hs
    cases hs
  refine ⟨recorded_repairTarget h.recorded hTarget, ?_, ?_⟩
  · intro s hs
    rw [h.lookup s hs]
    unfold repairTarget
    cases requestFor env db state.overrides target with
    | error reason => exact ((settle_frame state target _).2 s (hNe s hs)).symm
    | ok request =>
      simp only
      rw [(settle_frame _ target _).2 s (hNe s hs)]
  · rw [h.calls]
    unfold repairTarget
    cases requestFor env db state.overrides target with
    | error reason => rw [(settle_frame state target _).1]
    | ok request =>
      simp only [(settle_frame _ target _).1, List.filter_append]
      rw [List.filter_singleton, hSuppressed]
      exact (List.append_nil _).symm

/-- A live target is asked for and settled in the same way. -/
theorem SamePass.live (h : SamePass db c state state')
    (hKeys : (db.summaries.map (·.summaryId)).Nodup)
    (hTarget : target ∈ loadDoctorTargets db (some c)) (hReads : ReadsLive db target) :
    SamePass db c (repairTarget env db (deterministic f) state target)
      (repairTarget env (publicView db) (deterministic f) state' target) := by
  have hRequest : requestFor env (publicView db) state'.overrides target =
      requestFor env db state.overrides target :=
    (recontent_publicView db).requestFor_eq (h.agree hKeys) hReads
  have hSettle : ∀ (first second : RepairState) (rewrite : Rewrite),
      (∀ s, isSuppressed db s = false →
        second.overrides.lookup s = first.overrides.lookup s) →
      ∀ s, isSuppressed db s = false →
        (second.settle target rewrite).overrides.lookup s =
          (first.settle target rewrite).overrides.lookup s := by
    intro first second rewrite hSame s hs
    cases rewrite with
    | skipped reason => exact hSame s hs
    | unchanged => exact hSame s hs
    | accepted override =>
      show List.lookup s ((target.summaryId, override) :: second.overrides) =
        List.lookup s ((target.summaryId, override) :: first.overrides)
      rw [List.lookup_cons, List.lookup_cons, hSame s hs]
  refine ⟨recorded_repairTarget h.recorded hTarget, ?_, ?_⟩
  · unfold repairTarget
    rw [hRequest]
    cases requestFor env db state.overrides target with
    | error reason => exact hSettle state state' _ h.lookup
    | ok request => exact hSettle _ _ _ h.lookup
  · unfold repairTarget
    rw [hRequest]
    cases requestFor env db state.overrides target with
    | error reason =>
      simp only [(settle_frame _ target _).1]
      exact h.calls
    | ok request =>
      simp only [(settle_frame _ target _).1, List.filter_append, h.calls]

/-- The pass over the targets, beside the one over the live targets on the public view. -/
theorem samePass_foldl (hKeys : (db.summaries.map (·.summaryId)).Nodup)
    (h : SamePass db c state state') {targets : List DoctorTargetRecord}
    (hTargets : ∀ t ∈ targets, t ∈ loadDoctorTargets db (some c) ∧
      (isLive db t = true → ReadsLive db t)) :
    SamePass db c (targets.foldl (repairTarget env db (deterministic f)) state)
      ((targets.filter (isLive db)).foldl
        (repairTarget env (publicView db) (deterministic f)) state') := by
  induction targets generalizing state state' with
  | nil => exact h
  | cons target rest ih =>
    obtain ⟨⟨hTarget, hReads⟩, hRest⟩ := List.forall_mem_cons.mp hTargets
    rw [List.foldl_cons, List.filter_cons]
    cases hLive : isLive db target with
    | false => exact ih (h.suppressed hTarget hLive) hRest
    | true => exact ih (h.live hKeys hTarget (hReads hLive)) hRest

/-- The pass on the public view, over the live targets. -/
def publicPass (env : DoctorEnv) (db : Db)
    (f : String → Bool → LcmSummarizeOptions → Except String String) (c : ConversationId) :
    RepairState :=
  ((orderedTargets (publicView db) c).filter (isLive (publicView db))).foldl
    (repairTarget env (publicView db) (deterministic f)) .start

/-- Where live targets read live rows, a pass is the pass on the public view. -/
theorem samePass_public (env : DoctorEnv)
    (f : String → Bool → LcmSummarizeOptions → Except String String)
    (hKeys : (db.summaries.map (·.summaryId)).Nodup)
    (hReads : ∀ t ∈ loadDoctorTargets db (some c), isLive db t = true → ReadsLive db t) :
    SamePass db c (repairPass env db (deterministic f) c) (publicPass env db f c) := by
  have hView := recontent_publicView db
  unfold publicPass repairPass
  rw [hView.isLive_eq, hView.filter_orderedTargets hKeys]
  refine samePass_foldl hKeys ⟨recorded_start _, fun s _ => rfl, rfl⟩ fun t ht => ?_
  have hTarget := mem_orderedTargets.mp ht
  exact ⟨hTarget, hReads t hTarget⟩

end Passes

/-! ## Confinement -/

section Confinement

variable {before before' : DoctorDb} {c : ConversationId}
  {f : String → Bool → LcmSummarizeOptions → Except String String}

/-- What a pass leaves of the live rows. -/
theorem liveContents_repair (env : DoctorEnv) (before : DoctorDb) (summarize : DoctorSummarizeFn)
    (c : ConversationId) :
    liveContents (applyScopedDoctorRepair env before (some summarize) c).1.toDb =
      (before.summaries.filter (·.suppressedAt.isNone)).map fun row =>
        (row.summaryId,
          (rewrittenRow (repairPass env before.toDb summarize c).overrides row).content) := by
  have hSuppressed : ∀ overrides,
      (fun row : SummaryRecord => row.suppressedAt.isNone) ∘ rewrittenRow overrides =
        fun row => row.suppressedAt.isNone := by
    intro overrides
    funext row
    show (rewrittenRow overrides row).suppressedAt.isNone = row.suppressedAt.isNone
    unfold rewrittenRow
    cases overrides.lookup row.summaryId <;> rfl
  unfold liveContents
  rw [(repair_spec env before (some summarize) c).1, List.filter_map, hSuppressed, List.map_map]
  refine List.map_congr_left fun row _ => ?_
  rw [Function.comp_apply, rewrittenRow_id]
  rfl

theorem calls_of_samePass {state state' : RepairState} (h : SamePass before.toDb c state state')
    {s : SummaryId} (hs : isSuppressed before.toDb s = false) :
    state'.calls.filter (fun call => call.1 = s) =
      state.calls.filter fun call => call.1 = s := by
  have hKept : ∀ calls : List (SummaryId × DoctorRequest),
      calls.filter (fun call => call.1 = s) =
        (calls.filter fun call => !isSuppressed before.toDb call.1).filter
          fun call => call.1 = s := by
    intro calls
    rw [List.filter_filter]
    refine List.filter_congr fun call _ => ?_
    by_cases hId : call.1 = s
    · simp [hId, hs]
    · simp [hId]
  rw [hKept state'.calls, hKept state.calls, h.calls]

/-- Where live targets read live rows only, nothing suppressed is passed on. -/
theorem confined_of_readsLive (hKeys : (before.summaries.map (·.summaryId)).Nodup)
    (hReads : ∀ target ∈ loadDoctorTargets before.toDb (some c),
      isSuppressed before.toDb target.summaryId = false → ReadsLive before.toDb target) :
    Confined env before c := by
  intro before' hView f
  have hOwn := recontent_publicView before.toDb
  have hOther := recontent_publicView before'.toDb
  rw [hView] at hOther
  have hKeys' : (before'.summaries.map (·.summaryId)).Nodup := by
    rw [← hOther.ids_eq, hOwn.ids_eq]
    exact hKeys
  have hLive : isLive before'.toDb = isLive before.toDb :=
    hOther.isLive_eq.symm.trans hOwn.isLive_eq
  have hReads' : ∀ t ∈ loadDoctorTargets before'.toDb (some c), isLive before'.toDb t = true →
      ReadsLive before'.toDb t := by
    intro t ht hLiveTarget
    have hMem : t ∈ (loadDoctorTargets before.toDb (some c)).filter (isLive before.toDb) := by
      rw [← hOwn.filter_targets hKeys, ← hLive, hOther.filter_targets hKeys']
      exact List.mem_filter.mpr ⟨ht, hLiveTarget⟩
    obtain ⟨hTarget, hLiveTarget⟩ := List.mem_filter.mp hMem
    rw [← hOther.readsLive_iff, hOwn.readsLive_iff]
    exact hReads t hTarget (isLive_iff.mp hLiveTarget)
  have hPass := samePass_public env f hKeys
    fun t ht hLiveTarget => hReads t ht (isLive_iff.mp hLiveTarget)
  have hPass' := samePass_public env f hKeys' hReads'
  have hPublic : publicPass env before'.toDb f c = publicPass env before.toDb f c := by
    unfold publicPass
    rw [hView]
  rw [hPublic] at hPass'
  have hSuppressed : ∀ s, isSuppressed before'.toDb s = isSuppressed before.toDb s :=
    fun s => (hOther.isSuppressed_eq s).symm.trans (hOwn.isSuppressed_eq s)
  constructor
  · intro s hs
    unfold callsFor
    rw [← calls_of_samePass hPass hs, ← calls_of_samePass hPass' ((hSuppressed s).trans hs)]
  · rw [liveContents_repair, liveContents_repair, ← hOther.liveRows_eq, ← hOwn.liveRows_eq]
    refine List.map_congr_left fun row hRow => ?_
    rw [hOwn.liveRows_eq] at hRow
    obtain ⟨hMem, hNone⟩ := List.mem_filter.mp hRow
    have hs : isSuppressed before.toDb row.summaryId = false := by
      rw [isSuppressed_of_mem hKeys hMem]
      rwa [Option.isSome_eq_false_iff]
    unfold rewrittenRow
    rw [← hPass.lookup _ hs, ← hPass'.lookup _ ((hSuppressed _).trans hs)]

end Confinement

/-! ## Stains -/

/-- A text without a space, of a length. -/
def stain (n : Nat) : String := String.ofList (List.replicate n 'x')

def stainMessage (n : Nat) (m : MessageRecord) : MessageRecord :=
  if m.suppressedAt.isSome then { m with content := m.content ++ stain n } else m

def stainSummary (n : Nat) (s : SummaryRecord) : SummaryRecord :=
  if s.suppressedAt.isSome then { s with content := s.content ++ stain n } else s

/-- Every suppressed content is made longer. -/
def stained (n : Nat) (before : DoctorDb) : DoctorDb :=
  { before with
    messages := before.messages.map (stainMessage n)
    summaries := before.summaries.map (stainSummary n) }

section Stain

variable {n : Nat} {before : DoctorDb} {c : ConversationId}

theorem stain_toList (n : Nat) : (stain n).toList = List.replicate n 'x' :=
  String.toList_ofList

theorem isBlank_stain (hn : 0 < n) : Text.isBlank (stain n) = false := by
  rw [Text.isBlank, List.all_eq_false, stain_toList]
  exact ⟨'x', List.mem_replicate.mpr ⟨hn.ne', rfl⟩, by decide⟩

theorem le_length_of_stain {text : String} (h : (stain n).toList <:+: text.toList) :
    n ≤ text.toList.length := by
  have hLength := h.length_le
  rwa [stain_toList, List.length_replicate] at hLength

theorem suffix_strip_stain (hn : 0 < n) (content : String) :
    (stain n).toList <:+ (Text.strip (content ++ stain n)).toList := by
  rw [Text.strip, String.toList_ofList, String.toList_append]
  refine Text.suffix_stripChars ?_ ?_
  · rw [stain_toList]
    exact fun hNil => hn.ne' ((List.replicate_eq_nil_iff _).mp hNil)
  · intro ch hCh
    rw [stain_toList] at hCh
    rw [(List.mem_replicate.mp hCh).2]
    decide

theorem ne_empty_of_stain (hn : 0 < n) {text : String} (h : (stain n).toList <:+: text.toList) :
    text ≠ "" := by
  rintro rfl
  have hLe := le_length_of_stain h
  exact absurd (hn.trans_le hLe) (by decide)

theorem recontent_stained (n : Nat) (before : DoctorDb) :
    Recontent before.toDb (stained n before).toDb (stainMessage n) (stainSummary n) := by
  refine ⟨rfl, rfl, rfl, rfl, rfl, ?_, ?_, ?_, ?_⟩
  · intro m
    unfold stainMessage
    split
    · exact ⟨_, rfl⟩
    · exact ⟨_, rfl⟩
  · intro s
    unfold stainSummary
    split
    · exact ⟨_, rfl⟩
    · exact ⟨_, rfl⟩
  · intro m hLive
    rw [stainMessage, hLive]
    rfl
  · intro s hLive
    rw [stainSummary, hLive]
    rfl

theorem publicView_stained (n : Nat) (before : DoctorDb) :
    publicView (stained n before).toDb = publicView before.toDb := by
  have hMessage : hideMessage ∘ stainMessage n = hideMessage := by
    funext m
    unfold Function.comp hideMessage stainMessage
    cases hSome : m.suppressedAt.isSome <;> simp [hSome]
  have hSummary : hideSummary ∘ stainSummary n = hideSummary := by
    funext s
    unfold Function.comp hideSummary stainSummary
    cases hSome : s.suppressedAt.isSome <;> simp [hSome]
  simp only [publicView, stained, List.map_map, hMessage, hSummary]

/-! ### What a stain gets into -/

theorem exists_leafText (env : DoctorEnv) {m : MessageRecord} (h : m ∈ leafRows db target.summaryId) :
    ∃ text, buildLeafSourceText env db target = .ok text ∧
      (leafPart env m).toList <:+: text.toList := by
  unfold buildLeafSourceText
  cases hRows : leafRows db target.summaryId with
  | nil =>
    rw [hRows] at h
    cases h
  | cons first rest =>
    rw [hRows] at h
    exact ⟨_, rfl, Text.infix_intercalate (List.mem_map_of_mem h)⟩

theorem exists_condensedText (env : DoctorEnv) {overrides : Overrides} {row : SummaryRecord}
    (h : row ∈ childRows db target.summaryId) (hNe : childContent overrides row ≠ "") :
    ∃ text, buildCondensedSourceText env db overrides target = .ok text ∧
      (formatSummaryTimeRange env row ++ "\n" ++ childContent overrides row).toList <:+:
        text.toList := by
  have hPart : formatSummaryTimeRange env row ++ "\n" ++ childContent overrides row ∈
      (childRows db target.summaryId).filterMap (condensedPart env overrides) :=
    List.mem_filterMap.mpr ⟨row, h, if_neg hNe⟩
  unfold buildCondensedSourceText
  cases hRows : childRows db target.summaryId with
  | nil =>
    rw [hRows] at h
    cases h
  | cons first rest =>
    simp only
    rw [← hRows]
    cases hParts : (childRows db target.summaryId).filterMap (condensedPart env overrides) with
    | nil =>
      rw [hParts] at hPart
      cases hPart
    | cons part parts =>
      rw [hParts] at hPart
      exact ⟨_, rfl, Text.infix_intercalate hPart⟩

/-- Every part starts with a bracket. -/
theorem not_blank_of_bracket {part text : String} (hPart : "[".toList <+: part.toList)
    (h : part.toList <:+: text.toList) : Text.isBlank text = false := by
  by_contra hBlank
  rw [Bool.not_eq_false] at hBlank
  have hOwn := Text.isBlank_of_infix (hPart.isInfix.trans h) hBlank
  revert hOwn
  decide

theorem exists_source_of_hasSource (env : DoctorEnv) (hSource : hasSource db target = true) :
    ∃ text, buildSummarySourceText env db [] target = .ok text ∧ Text.isBlank text = false := by
  unfold hasSource at hSource
  unfold buildSummarySourceText
  by_cases hCondensed : isCondensedTarget target = true
  · rw [if_pos hCondensed] at hSource ⊢
    obtain ⟨row, hRow, hNe⟩ := List.any_eq_true.mp hSource
    obtain ⟨text, hText, hInfix⟩ :=
      @exists_condensedText _ _ env [] _ hRow (bne_iff_ne.mp hNe)
    refine ⟨text, hText, not_blank_of_bracket ?_ hInfix⟩
    simp only [formatSummaryTimeRange, String.append_assoc]
    rw [String.toList_append]
    exact List.prefix_append _ _
  · rw [if_neg hCondensed] at hSource ⊢
    cases hRows : leafRows db target.summaryId with
    | nil =>
      rw [hRows] at hSource
      cases hSource
    | cons first rest =>
      have hMem : first ∈ leafRows db target.summaryId := by
        rw [hRows]
        exact List.mem_cons_self
      obtain ⟨text, hText, hInfix⟩ := exists_leafText env hMem
      refine ⟨text, hText, not_blank_of_bracket ?_ hInfix⟩
      simp only [leafPart, String.append_assoc]
      rw [String.toList_append]
      exact List.prefix_append _ _

/-- A suppressed row of the source stains the source text. -/
theorem stained_source (env : DoctorEnv) (hn : 0 < n)
    (hSource : sourceSuppressed before.toDb target = true) :
    ∃ text, buildSummarySourceText env (stained n before).toDb [] target = .ok text ∧
      (stain n).toList <:+: text.toList := by
  have hStained := recontent_stained n before
  unfold sourceSuppressed at hSource
  unfold buildSummarySourceText
  by_cases hCondensed : isCondensedTarget target = true
  · rw [if_pos hCondensed] at hSource ⊢
    obtain ⟨row, hRow, hSome⟩ := List.any_eq_true.mp hSource
    have hRow' : stainSummary n row ∈ childRows (stained n before).toDb target.summaryId := by
      rw [hStained.childRows_eq]
      exact List.mem_map_of_mem hRow
    have hContent : (stain n).toList <:+:
        (childContent [] (stainSummary n row)).toList := by
      rw [stainSummary, if_pos hSome]
      exact (suffix_strip_stain hn row.content).isInfix
    obtain ⟨text, hText, hInfix⟩ := exists_condensedText env hRow'
      (ne_empty_of_stain hn hContent)
    refine ⟨text, hText, hContent.trans (List.IsInfix.trans ?_ hInfix)⟩
    rw [String.toList_append]
    exact (List.suffix_append _ _).isInfix
  · rw [if_neg hCondensed] at hSource ⊢
    obtain ⟨m, hm, hSome⟩ := List.any_eq_true.mp hSource
    have hm' : stainMessage n m ∈ leafRows (stained n before).toDb target.summaryId := by
      rw [hStained.leafRows_eq]
      exact List.mem_map_of_mem hm
    obtain ⟨text, hText, hInfix⟩ := exists_leafText env hm'
    refine ⟨text, hText, List.IsInfix.trans ?_ hInfix⟩
    have hContent : (stain n).toList <:+ (m.content ++ stain n).toList := by
      rw [String.toList_append]
      exact List.suffix_append _ _
    rw [stainMessage, if_pos hSome, leafPart, String.toList_append]
    exact (hContent.trans (List.suffix_append _ _)).isInfix

/-- A suppressed summary on the way stains the previous context. -/
theorem stained_walk (hn : 0 < n) {ids : List SummaryId} (hNe : ∀ s ∈ ids, s ≠ "")
    (hBad : ∃ s ∈ consulted before.toDb ids, isSuppressed before.toDb s = true) :
    ∃ text, ids.findSome? (resolveSummaryContent (stained n before).toDb []) = some text ∧
      (stain n).toList <:+: text.toList := by
  have hStained := recontent_stained n before
  induction ids with
  | nil =>
    obtain ⟨s, hs, -⟩ := hBad
    cases hs
  | cons s rest ih =>
    rw [List.findSome?_cons]
    have hs := hNe s List.mem_cons_self
    by_cases hSuppressed : isSuppressed before.toDb s = true
    · -- the row of `s` is there, and is stained
      unfold isSuppressed at hSuppressed
      obtain ⟨row, hRow, hSome⟩ := (Option.any_eq_true _ _).mp hSuppressed
      have hStored : storedContent (stained n before).toDb s =
          Text.strip (row.content ++ stain n) := by
        rw [storedContent, hStained.getSummary, hRow, Option.map_some, stainSummary,
          if_pos hSome]
        rfl
      have hInfix := (suffix_strip_stain hn row.content).isInfix
      refine ⟨Text.strip (row.content ++ stain n), ?_, hInfix⟩
      rw [resolveSummaryContent, if_neg hs, hStored]
      simp only [List.lookup_nil]
      rw [nonEmpty_of_ne (ne_empty_of_stain hn hInfix)]
    · have hLive := Bool.eq_false_iff.mpr hSuppressed
      have hStored := hStained.storedContent_of_live hLive
      obtain ⟨bad, hBad, hBadSuppressed⟩ := hBad
      unfold consulted at hBad
      split at hBad
      · rename_i hBlank
        rw [resolveSummaryContent, if_neg hs, hStored, hBlank]
        refine ih (fun t ht => hNe t (List.mem_cons_of_mem _ ht)) ⟨bad, ?_, hBadSuppressed⟩
        rcases List.mem_cons.mp hBad with rfl | hBad
        · exact absurd hBadSuppressed hSuppressed
        · exact hBad
      · rw [List.mem_singleton.mp hBad] at hBadSuppressed
        exact absurd hBadSuppressed hSuppressed

/-- How much text a request has. -/
def DoctorRequest.size (request : DoctorRequest) : Nat :=
  request.sourceText.toList.length + (request.options.previousSummary.getD "").toList.length

/-- A target that reads a suppressed row is asked for with the whole stain. -/
theorem stained_request (env : DoctorEnv) (hn : 0 < n) (hReads : ¬ ReadsLive before.toDb target) :
    ∃ request, requestFor env (stained n before).toDb [] target = .ok request ∧
      n ≤ request.size := by
  have hStained := recontent_stained n before
  unfold requestFor
  cases hSource : sourceSuppressed before.toDb target with
  | true =>
    obtain ⟨text, hText, hInfix⟩ := stained_source env hn hSource
    have hBlank : ¬ Text.isBlank text = true := by
      intro hBlank
      have hOwn := Text.isBlank_of_infix hInfix hBlank
      rw [isBlank_stain hn] at hOwn
      cases hOwn
    rw [hText]
    simp only [hBlank]
    refine ⟨_, rfl, ?_⟩
    exact (le_length_of_stain hInfix).trans (Nat.le_add_right _ _)
  | false =>
    rw [ReadsLive, not_and_or, hSource] at hReads
    rcases hReads with hReads | hReads
    · exact absurd rfl hReads
    · simp only [not_forall] at hReads
      obtain ⟨hHas, s, hs, hSuppressed⟩ := hReads
      obtain ⟨text, hText, hBlank⟩ := exists_source_of_hasSource env hHas
      obtain ⟨previous, hPrevious, hInfix⟩ := stained_walk hn
        (fun s hs => ne_empty_of_mem_neighbours hs)
        ⟨s, hs, Bool.not_eq_false _ ▸ hSuppressed⟩
      have hNothing : AgreeOnLive before.toDb [] [] :=
        ⟨fun _ _ => rfl, fun _ _ hSome => by cases hSome⟩
      rw [hStained.source_eq hNothing hSource, hText]
      simp only [hBlank]
      refine ⟨_, rfl, ?_⟩
      have hContext : resolvePreviousSummaryContext (stained n before).toDb [] target =
          some previous := by
        rw [resolvePreviousSummaryContext_eq, hStained.neighbours_eq]
        exact hPrevious
      unfold DoctorRequest.size
      simp only [hContext, Option.getD_some]
      exact (le_length_of_stain hInfix).trans (Nat.le_add_left _ _)

end Stain

/-! ## When the repair is confined -/

section Silent

variable {before : DoctorDb} {c : ConversationId}

/-- A summarizer that answers nothing. -/
def silent : String → Bool → LcmSummarizeOptions → Except String String :=
  fun _ _ _ => .error ""

/-- The request of a target, as the rows stand. -/
def askedFor (env : DoctorEnv) (db : Db) (target : DoctorTargetRecord) :
    Option (SummaryId × DoctorRequest) :=
  match requestFor env db [] target with
  | .error _ => none
  | .ok request => some (target.summaryId, request)

/-- Without an answer every target is asked for as the rows stand. -/
theorem calls_silent {state : RepairState} (hNone : state.overrides = [])
    (targets : List DoctorTargetRecord) :
    (targets.foldl (repairTarget env db (deterministic silent)) state).calls =
      state.calls ++ targets.filterMap (askedFor env db) := by
  induction targets generalizing state with
  | nil => exact (List.append_nil _).symm
  | cons target rest ih =>
    have hStep : (repairTarget env db (deterministic silent) state target).overrides = [] ∧
        (repairTarget env db (deterministic silent) state target).calls =
          state.calls ++ (askedFor env db target).toList := by
      unfold repairTarget askedFor
      rw [hNone]
      cases requestFor env db [] target with
      | error reason => exact ⟨hNone, (List.append_nil _).symm⟩
      | ok request => exact ⟨rfl, rfl⟩
    rw [List.foldl_cons, ih hStep.1, hStep.2, List.append_assoc, List.filterMap_cons]
    cases askedFor env db target <;> rfl

theorem target_eq_of_id (hKeys : (db.summaries.map (·.summaryId)).Nodup)
    {t t' : DoctorTargetRecord} {c : Option ConversationId} (ht : t ∈ loadDoctorTargets db c)
    (ht' : t' ∈ loadDoctorTargets db c) (hId : t'.summaryId = t.summaryId) : t' = t := by
  obtain ⟨row, hRow, hTarget⟩ := exists_row_of_target ht
  obtain ⟨row', hRow', hTarget'⟩ := exists_row_of_target ht'
  have hRows : row' = row := by
    refine List.inj_on_of_nodup_map hKeys hRow' hRow ?_
    rw [← (targetOf_eq_some hTarget').1, hId, (targetOf_eq_some hTarget).1]
  rw [hRows, hTarget] at hTarget'
  exact (Option.some.inj hTarget').symm

theorem mem_callsFor_silent (hKeys : (db.summaries.map (·.summaryId)).Nodup)
    (hTarget : target ∈ loadDoctorTargets db (some c)) (request : DoctorRequest) :
    request ∈ callsFor env db (deterministic silent) c target.summaryId ↔
      requestFor env db [] target = .ok request := by
  have hCalls : (repairPass env db (deterministic silent) c).calls =
      (orderedTargets db c).filterMap (askedFor env db) :=
    (calls_silent rfl _).trans (List.nil_append _)
  have hAsked : ∀ (t : DoctorTargetRecord) call, askedFor env db t = some call ↔
      t.summaryId = call.1 ∧ requestFor env db [] t = .ok call.2 := by
    intro t call
    unfold askedFor
    cases requestFor env db [] t with
    | error reason => simp
    | ok found => simp [Prod.ext_iff]
  unfold callsFor
  rw [hCalls, List.mem_map]
  constructor
  · rintro ⟨call, hCall, rfl⟩
    obtain ⟨hCall, hId⟩ := List.mem_filter.mp hCall
    obtain ⟨t, ht, hSome⟩ := List.mem_filterMap.mp hCall
    obtain ⟨hOwn, hRequest⟩ := (hAsked t call).mp hSome
    have hSame := target_eq_of_id hKeys hTarget (mem_orderedTargets.mp ht)
      (hOwn.trans (of_decide_eq_true hId))
    rwa [hSame] at hRequest
  · intro hRequest
    refine ⟨(target.summaryId, request), List.mem_filter.mpr ⟨?_, decide_eq_true rfl⟩, rfl⟩
    exact List.mem_filterMap.mpr ⟨target, mem_orderedTargets.mpr hTarget,
      (hAsked target _).mpr ⟨rfl, hRequest⟩⟩

/-- A repair in which a live target reads a suppressed row passes its content on. -/
theorem readsLive_of_confined (hKeys : (before.summaries.map (·.summaryId)).Nodup)
    (h : Confined env before c) (hTarget : target ∈ loadDoctorTargets before.toDb (some c))
    (hLive : isSuppressed before.toDb target.summaryId = false) :
    ReadsLive before.toDb target := by
  by_contra hReads
  -- a stain longer than what the summarizer is handed now
  let size := match requestFor env before.toDb [] target with
    | .error _ => 0
    | .ok request => request.size
  have hStained := recontent_stained (size + 1) before
  obtain ⟨request, hRequest, hSize⟩ := stained_request env (Nat.succ_pos size) hReads
  have hKeys' : ((stained (size + 1) before).summaries.map (·.summaryId)).Nodup := by
    rw [hStained.ids_eq]
    exact hKeys
  have hTarget' : target ∈ loadDoctorTargets (stained (size + 1) before).toDb (some c) := by
    have hMem := List.mem_filter.mpr ⟨hTarget, isLive_iff.mpr hLive⟩
    rw [← hStained.filter_targets hKeys] at hMem
    exact (List.mem_filter.mp hMem).1
  have hSame := (h (stained (size + 1) before) (publicView_stained _ before) silent).requests
    target.summaryId hLive
  have hMem := (mem_callsFor_silent hKeys' hTarget' request).mpr hRequest
  rw [← hSame, mem_callsFor_silent hKeys hTarget] at hMem
  have hOld : size = request.size := by
    simp only [size, hMem]
  omega

end Silent

/-- The repair passes nothing suppressed on if and only if no live target has a suppressed
row in its source, or meets one on the way to its previous context. -/
theorem confined_iff {before : DoctorDb} (hKeys : (before.summaries.map (·.summaryId)).Nodup)
    (env : DoctorEnv) (c : ConversationId) :
    Confined env before c ↔ ∀ target ∈ loadDoctorTargets before.toDb (some c),
      isSuppressed before.toDb target.summaryId = false → ReadsLive before.toDb target :=
  ⟨fun h _ hTarget hLive => readsLive_of_confined hKeys h hTarget hLive,
    confined_of_readsLive hKeys⟩

/-! ## A purged message below a live leaf -/

/-- `leafBelowRoot` with its message suppressed and another one beside it. -/
def purgedMessage (content : String) : DoctorDb :=
  { leafBelowRoot with
    messages := [⟨1, 1, 0, .user, content, 1, 0, some 5⟩, ⟨2, 1, 1, .user, "hi", 1, 0, none⟩] }

/-- A purged message that no summary was made from. -/
def purgedAside : DoctorDb :=
  { leafBelowRoot with
    messages := [⟨1, 1, 0, .user, "hi", 1, 0, none⟩, ⟨2, 1, 1, .user, "key", 1, 0, some 5⟩] }

/-- A summarizer that returns its source. -/
def echo : String → Bool → LcmSummarizeOptions → Except String String :=
  fun text _ _ => .ok text

theorem not_confined_purgedMessage :
    publicView (purgedMessage "milk").toDb = publicView (purgedMessage "bank").toDb ∧
    isSuppressed (purgedMessage "bank").toDb "leaf" = false ∧
    liveContents (applyScopedDoctorRepair utcEnv (purgedMessage "bank")
        (some (deterministic echo)) 1).1.toDb =
      [("leaf", "[1970-01-01 00:00 UTC]\nbank"), ("root", "all of it")] ∧
    liveContents (applyScopedDoctorRepair utcEnv (purgedMessage "milk")
        (some (deterministic echo)) 1).1.toDb =
      [("leaf", "[1970-01-01 00:00 UTC]\nmilk"), ("root", "all of it")] ∧
    ¬ Confined utcEnv (purgedMessage "bank") 1 := by
  have hBank : liveContents (applyScopedDoctorRepair utcEnv (purgedMessage "bank")
      (some (deterministic echo)) 1).1.toDb =
      [("leaf", "[1970-01-01 00:00 UTC]\nbank"), ("root", "all of it")] := by decide +kernel
  have hMilk : liveContents (applyScopedDoctorRepair utcEnv (purgedMessage "milk")
      (some (deterministic echo)) 1).1.toDb =
      [("leaf", "[1970-01-01 00:00 UTC]\nmilk"), ("root", "all of it")] := by decide +kernel
  refine ⟨rfl, by decide, hBank, hMilk, fun hConfined => ?_⟩
  have hSame := (hConfined (purgedMessage "milk") rfl echo).contents
  rw [hBank, hMilk] at hSame
  revert hSame
  decide

theorem confined_purgedAside : Confined utcEnv purgedAside 1 := by
  refine (confined_iff (by decide) utcEnv 1).mpr ?_
  intro target hTarget _
  have hTargets : ∀ t ∈ loadDoctorTargets purgedAside.toDb (some 1),
      sourceSuppressed purgedAside.toDb t = false ∧
        neighbours purgedAside.toDb t = [] := by decide +kernel
  obtain ⟨hSource, hNone⟩ := hTargets target hTarget
  refine ⟨hSource, fun _ s hs => ?_⟩
  rw [hNone] at hs
  cases hs

end LosslessHermes.Doctor
