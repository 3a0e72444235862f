import LosslessHermes.Embeddings.HybridHits
import LosslessHermes.Tools.Grep
import Mathlib.Algebra.Field.Rat

/-!
# A search stays inside its scope

Each hit of `lcm_grep` should belong to a conversation of the scope and be visible, so that a
change of other conversations does not put content of theirs into a response.

The semantic mode asks for session keys in place of the conversations: without a key nothing is
filtered, and a key may be shared with other conversations. By `searchStaysInside_iff` that is all
that goes wrong.
-/

namespace LosslessHermes.Tools

open HybridSearch (Exception FtsHit HybridHit HybridSearchResult SemanticHit SemanticSearchResult)
open SemanticSearch (VectorSearch VoyageClient hasVector)
open Search (Inside messageColumns summaryColumns messageHits summaryHits)

variable {F : Type}

/-! ## What a response shows -/

/-- A hit has what it shows from the row. -/
structure ShowsSummary (db : SearchDb) (s : SummaryRecord) (hit : HybridHit F) : Prop where
  summaryId : hit.summaryId = s.summaryId
  conversationId : hit.conversationId = s.conversationId
  sessionKey : hit.sessionKey = db.sessionKey s.summaryId
  kind : hit.kind = s.kind
  content : hit.content = s.content
  tokenCount : hit.tokenCount = s.tokenCount
  createdAt : hit.createdAt = s.createdAt

/-- The hits are made of visible rows of these conversations. -/
def GrepResponse.StaysInside [Zero F] (ctx : GrepContext F) (query : String) (db : SearchDb)
    (ids : List Int) : GrepResponse F → Prop
  | .error _ _ => True
  | .snippets messages summaries =>
      (∀ hit ∈ messages, ∃ m ∈ db.messages, Inside messageColumns ids m ∧
        hit ∈ messageHits ctx.engine query m) ∧
      ∀ hit ∈ summaries, ∃ s ∈ db.summaries, Inside summaryColumns ids s ∧
        hit ∈ summaryHits ctx.engine query s
  | .hybrid result =>
      ∀ hit ∈ result.hits, ∃ s ∈ db.summaries, Inside summaryColumns ids s ∧ ShowsSummary db s hit
  | .semantic result =>
      ∀ hit ∈ result.hits, ∃ s ∈ db.summaries, Inside summaryColumns ids s ∧
        hit = SemanticSearch.semanticHit ctx.search db s hit.distance
  | .verbatim rows =>
      ∀ hit ∈ rows, ∃ m ∈ db.messages, Inside messageColumns ids m ∧ hit = verbatimHit m

/-- The databases differ in other conversations and in rows that are suppressed. -/
structure AgreeInside (ids : List Int) (db db' : SearchDb) : Prop where
  messages : ∀ m, Inside messageColumns ids m → (m ∈ db.messages ↔ m ∈ db'.messages)
  summaries : ∀ s, Inside summaryColumns ids s → (s ∈ db.summaries ↔ s ∈ db'.summaries)
  sessionKeys : ∀ s ∈ db.summaries, Inside summaryColumns ids s →
    db.sessionKey s.summaryId = db'.sessionKey s.summaryId

theorem AgreeInside.refl (ids : List Int) (db : SearchDb) : AgreeInside ids db db :=
  ⟨fun _ _ => Iff.rfl, fun _ _ => Iff.rfl, fun _ _ _ => rfl⟩

/-- What is inside one of two such databases is inside the other. -/
theorem GrepResponse.StaysInside.congr [Zero F] {ctx : GrepContext F} {query : String}
    {db db' : SearchDb} {ids : List Int} {response : GrepResponse F}
    (h : response.StaysInside ctx query db ids) (hAgree : AgreeInside ids db db') :
    response.StaysInside ctx query db' ids := by
  cases response with
  | error message detail => exact h
  | snippets messages summaries =>
    refine ⟨fun hit hHit => ?_, fun hit hHit => ?_⟩
    · obtain ⟨m, hMem, hInside, hShows⟩ := h.1 hit hHit
      exact ⟨m, (hAgree.messages m hInside).mp hMem, hInside, hShows⟩
    · obtain ⟨s, hMem, hInside, hShows⟩ := h.2 hit hHit
      exact ⟨s, (hAgree.summaries s hInside).mp hMem, hInside, hShows⟩
  | hybrid result =>
    intro hit hHit
    obtain ⟨s, hMem, hInside, hShows⟩ := h hit hHit
    refine ⟨s, (hAgree.summaries s hInside).mp hMem, hInside, ?_⟩
    exact { hShows with sessionKey := hShows.sessionKey.trans (hAgree.sessionKeys s hMem hInside) }
  | semantic result =>
    intro hit hHit
    obtain ⟨s, hMem, hInside, hShows⟩ := h hit hHit
    refine ⟨s, (hAgree.summaries s hInside).mp hMem, hInside, hShows.trans ?_⟩
    unfold SemanticSearch.semanticHit
    rw [hAgree.sessionKeys s hMem hInside]
  | verbatim rows =>
    intro hit hHit
    obtain ⟨m, hMem, hInside, hShows⟩ := h hit hHit
    exact ⟨m, (hAgree.messages m hInside).mp hMem, hInside, hShows⟩

def GrepCall.pattern (call : GrepCall) : String :=
  Text.strip ((stringArg call.args "pattern").getD "")

/-- Whatever the services answer, a response shows rows of the scope only, and they are those of
each database that has the same ones there. -/
def SearchStaysInside (F : Type) [LinearOrder F] [Zero F] [One F] [Add F] [Div F] [NatCast F]
    (py : GrepPython) (db : SearchDb) (call : GrepCall) : Prop :=
  ∀ (ctx : GrepContext F) (response : GrepResponse F),
    handleLcmGrep py ctx db call = .ok response →
    ∀ db', AgreeInside (call.resolvedScope py db).ids db db' →
      response.StaysInside ctx call.pattern db' (call.resolvedScope py db).ids

/-- Each summary that the filters of the semantic mode let pass belongs to the scope. -/
def KeysCoverScope (py : GrepPython) (db : SearchDb) (call : GrepCall) : Prop :=
  ∀ request, readRequest py call.args = .ok request → request.mode = .semantic →
    call.embeddingsEnabled = true → (call.resolvedScope py db).conversationId ≠ none →
    ∀ s ∈ db.summaries, hasVector db s.summaryId = true →
      (semanticArgs db request (call.resolvedScope py db)).passes db s = true →
      (s.conversationId : Int) ∈ (call.resolvedScope py db).ids

/-! ## The modes -/

section Modes

variable {ctx : GrepContext F} {db : SearchDb} {request : GrepRequest}
  {scope : LcmConversationScope} {ids : List Int}

theorem runRegexOrFullTextGrep_staysInside [LinearOrder F] [Zero F] {mode : StoreSearchMode}
    (hAll : scope.allConversations = false) (hIds : scope.conversationIds = some ids)
    (hNe : ids ≠ []) :
    (runRegexOrFullTextGrep ctx db request scope mode).StaysInside ctx request.pattern db ids := by
  have hInput : (searchInput request scope mode).conversationIds = some ids := by
    unfold searchInput
    rw [hAll]
    exact hIds
  have hMessages : ∀ hit ∈ (if request.scope = .summaries then [] else
      Search.searchMessages ctx.engine (searchInput request scope mode) db.messages),
      ∃ m ∈ db.messages, Inside messageColumns ids m ∧
        hit ∈ messageHits ctx.engine request.pattern m := by
    intro hit hHit
    split at hHit
    · exact absurd hHit List.not_mem_nil
    · have hShown := Search.searchMessages_inside hInput hNe hHit
      exact hShown
  have hSummaries : ∀ hit ∈ (if request.scope = .messages then [] else
      Search.searchSummaries ctx.engine (searchInput request scope mode) db.summaries),
      ∃ s ∈ db.summaries, Inside summaryColumns ids s ∧
        hit ∈ summaryHits ctx.engine request.pattern s := by
    intro hit hHit
    split at hHit
    · exact absurd hHit List.not_mem_nil
    · have hShown := Search.searchSummaries_inside hInput hNe hHit
      exact hShown
  exact ⟨hMessages, hSummaries⟩

theorem runVerbatimLcmGrep_staysInside [Zero F] (hAll : scope.allConversations = false)
    (hIds : scope.conversationIds = some ids) (hNe : ids ≠ []) :
    (runVerbatimLcmGrep ctx db request scope).StaysInside ctx request.pattern db ids := by
  intro hit hHit
  obtain ⟨m, hMem, rfl⟩ := List.mem_map.mp hHit
  obtain ⟨hRow, hTests⟩ := Table.mem_select.mp (List.mem_of_mem_take hMem)
  rw [List.all_append, Bool.and_eq_true] at hTests
  have hTests := List.all_eq_true.mp hTests.1
  have hVisible : m.suppressedAt.isNone = true := hTests _ List.mem_cons_self
  have hScope : verbatimScope scope m = true :=
    hTests _ (List.mem_cons_of_mem _ (List.mem_cons_of_mem _ (List.mem_cons_of_mem _
      List.mem_cons_self)))
  refine ⟨m, hRow, ⟨Option.isNone_iff_eq_none.mp hVisible, ?_⟩, rfl⟩
  obtain ⟨first, rest, rfl⟩ := List.exists_cons_of_ne_nil hNe
  unfold verbatimScope at hScope
  rw [hAll, hIds, Bool.false_or] at hScope
  exact of_decide_eq_true hScope

theorem conversationIdsForFilter_eq (hAll : scope.allConversations = false)
    (hIds : scope.conversationIds = some ids) (hNe : ids ≠ []) :
    conversationIdsForFilter scope = some ids := by
  obtain ⟨first, rest, rfl⟩ := List.exists_cons_of_ne_nil hNe
  unfold conversationIdsForFilter
  rw [hAll, hIds]
  rfl

/-- A row that passes is visible, and in the conversations that are asked for. -/
theorem inside_of_passes {args : SemanticSearch.Args} {s : SummaryRecord}
    (hIds : args.conversationIds = some ids) (hNe : ids ≠ []) (h : args.passes db s = true) :
    Inside summaryColumns ids s := by
  obtain ⟨first, rest, rfl⟩ := List.exists_cons_of_ne_nil hNe
  unfold SemanticSearch.Args.passes at h
  simp only [Bool.and_eq_true] at h
  obtain ⟨⟨⟨⟨⟨hVisible, -⟩, hScope⟩, -⟩, -⟩, -⟩ := h
  rw [hIds] at hScope
  exact ⟨Option.isNone_iff_eq_none.mp hVisible, of_decide_eq_true hScope⟩

theorem suppressedAt_of_passes {args : SemanticSearch.Args} {s : SummaryRecord}
    (h : args.passes db s = true) : s.suppressedAt = none := by
  unfold SemanticSearch.Args.passes at h
  simp only [Bool.and_eq_true] at h
  exact Option.isNone_iff_eq_none.mp h.1.1.1.1.1

theorem ftsSearch_inside [LinearOrder F] [Zero F] (hAll : scope.allConversations = false)
    (hIds : scope.conversationIds = some ids) (hNe : ids ≠ []) {query : String} {limit : Int}
    {f : FtsHit} (h : f ∈ ftsSearch ctx db request scope query limit) :
    ∃ s ∈ db.summaries, Inside summaryColumns ids s ∧ ∃ rank, f = ftsHitOf db s rank := by
  unfold ftsSearch at h
  obtain ⟨⟨row, rank⟩, hRow, hFound⟩ := List.mem_filterMap.mp (List.mem_of_mem_take h)
  obtain ⟨s, hS, rfl⟩ := Option.map_eq_some_iff.mp hFound
  have hFind := (Option.filter_eq_some_iff.mp hS).1
  obtain ⟨hId, hVisible⟩ := of_decide_eq_true (List.find?_some hFind :)
  have hMem := List.mem_of_find?_eq_some hFind
  obtain ⟨s', hMem', hInside, hHit⟩ := Search.searchSummaries_inside
    (conversationIdsForFilter_eq hAll hIds hNe) hNe (List.fst_mem_of_mem_zipIdx hRow)
  -- The row that the store has found is the one under its id.
  have hSame : row.summaryId = s'.summaryId := Search.summaryId_of_mem_summaryHits hHit
  obtain rfl := List.inj_on_of_nodup_map db.summaryIds hMem' hMem (hSame.symm.trans hId.symm)
  exact ⟨s', hMem', hInside, rank, rfl⟩

section Hybrid

variable [LinearOrder F] [Zero F]

theorem mem_ftsHits {f : FtsHit} (h : f ∈ (hybridSearch ctx db request scope).ftsHits) :
    f ∈ ftsSearch ctx db request scope (Text.strip request.pattern) (kArm request.limit) := h

theorem mem_semHits {hit : SemanticHit F}
    (h : hit ∈ (hybridSearch ctx db request scope).semHits) :
    ∃ result, SemanticSearch.runSemanticSearch ctx.search ctx.voyage db
        (hybridSemanticArgs request scope (Text.strip request.pattern) (kArm request.limit)) =
        .ok result ∧ hit ∈ result.hits := by
  obtain ⟨result, hRun, hHit⟩ := HybridSearch.exists_result_of_mem_semHits h
  dsimp only [hybridSearch] at hRun
  exact ⟨result, hRun, hHit⟩

theorem semanticCandidate_inside (hAll : scope.allConversations = false)
    (hIds : scope.conversationIds = some ids) (hNe : ids ≠ []) {merged : List (HybridHit F)}
    (hMerged : ∀ c ∈ merged, ∃ s ∈ db.summaries, Inside summaryColumns ids s ∧ ShowsSummary db s c)
    {hit : SemanticHit F} (h : hit ∈ (hybridSearch ctx db request scope).semHits) :
    ∃ s ∈ db.summaries, Inside summaryColumns ids s ∧
      ShowsSummary db s (HybridSearch.semanticCandidate merged hit) := by
  unfold HybridSearch.semanticCandidate
  split
  · rename_i existing hGet
    obtain ⟨s, hMem, hInside, hShows⟩ := hMerged existing (Dict.mem_of_get hGet)
    exact ⟨s, hMem, hInside, ⟨hShows.1, hShows.2, hShows.3, hShows.4, hShows.5, hShows.6,
      hShows.7⟩⟩
  · obtain ⟨result, hRun, hResult⟩ := mem_semHits h
    obtain ⟨s, hMem, hPasses, -, distance, hEq⟩ :=
      SemanticSearch.mem_runSemanticSearch hRun hResult
    have hFilter : (hybridSemanticArgs request scope (Text.strip request.pattern)
        (kArm request.limit)).conversationIds = some ids :=
      conversationIdsForFilter_eq hAll hIds hNe
    refine ⟨s, hMem, inside_of_passes hFilter hNe hPasses, ?_⟩
    rw [hEq]
    exact ⟨rfl, rfl, rfl, rfl, rfl, rfl, rfl⟩

/-- The candidates of a hybrid search are rows of the scope. -/
theorem candidates_inside (hAll : scope.allConversations = false)
    (hIds : scope.conversationIds = some ids) (hNe : ids ≠ []) :
    ∀ c ∈ (hybridSearch ctx db request scope).candidates,
      ∃ s ∈ db.summaries, Inside summaryColumns ids s ∧ ShowsSummary db s c := by
  apply HybridSearch.forall_candidates
  · intro f hF i
    obtain ⟨s, hMem, hInside, rank, rfl⟩ := ftsSearch_inside hAll hIds hNe (mem_ftsHits hF)
    exact ⟨s, hMem, hInside, ⟨rfl, rfl, rfl, rfl, rfl, rfl, rfl⟩⟩
  · intro merged hMerged hit hHit
    exact semanticCandidate_inside hAll hIds hNe hMerged hHit

end Hybrid

variable [LinearOrder F] [Zero F] [One F] [Add F] [Div F] [NatCast F]

theorem runHybridLcmGrep_staysInside (hAll : scope.allConversations = false)
    (hIds : scope.conversationIds = some ids) (hNe : ids ≠ []) :
    (runHybridLcmGrep ctx db request scope).StaysInside ctx request.pattern db ids := by
  unfold runHybridLcmGrep
  split
  · trivial
  · split
    · rename_i result hRun
      intro hit hHit
      obtain ⟨c, hC, hEq⟩ := HybridSearch.exists_candidate_of_hit hRun hHit
      obtain ⟨s, hMem, hInside, hShows⟩ := candidates_inside hAll hIds hNe c hC
      refine ⟨s, hMem, hInside, ?_⟩
      rw [hEq]
      exact { hShows with }
    · unfold hybridFailure
      simp only
      split
      · trivial
      · trivial
      · split <;> trivial

omit [One F] [Add F] [Div F] [NatCast F] in
/-- The hits of the semantic mode are the rows that its filters let pass. -/
theorem runSemanticLcmGrep_staysInside {response : GrepResponse F}
    (hCover : ∀ s ∈ db.summaries, hasVector db s.summaryId = true →
      (semanticArgs db request scope).passes db s = true → (s.conversationId : Int) ∈ ids)
    (h : runSemanticLcmGrep ctx db request scope = .ok response) :
    response.StaysInside ctx request.pattern db ids := by
  unfold runSemanticLcmGrep at h
  split at h
  · cases h
    trivial
  · split at h
    · rename_i result hRun
      cases h
      intro hit hHit
      obtain ⟨s, hMem, hPasses, hVector, distance, rfl⟩ :=
        SemanticSearch.mem_runSemanticSearch hRun hHit
      exact ⟨s, hMem, ⟨suppressedAt_of_passes hPasses, hCover s hMem hVector hPasses⟩, rfl⟩
    · cases h
      trivial
    · split at h <;> (cases h; trivial)
    · cases h

theorem dispatch_staysInside {embeddingsEnabled : Bool} {response : GrepResponse F}
    (hAll : scope.allConversations = false) (hIds : scope.conversationIds = some ids)
    (hNe : ids ≠ [])
    (hCover : request.mode = .semantic → embeddingsEnabled = true →
      ∀ s ∈ db.summaries, hasVector db s.summaryId = true →
        (semanticArgs db request scope).passes db s = true → (s.conversationId : Int) ∈ ids)
    (h : dispatch ctx db request scope embeddingsEnabled = .ok response) :
    response.StaysInside ctx request.pattern db ids := by
  unfold dispatch at h
  split at h
  · split at h
    · cases h
      exact runHybridLcmGrep_staysInside hAll hIds hNe
    · cases h
      trivial
  · rename_i hMode
    split at h
    · rename_i hEnabled
      exact runSemanticLcmGrep_staysInside (hCover hMode hEnabled) h
    · cases h
      trivial
  · cases h
    exact runVerbatimLcmGrep_staysInside hAll hIds hNe
  · cases h
    exact runRegexOrFullTextGrep_staysInside hAll hIds hNe
  · cases h
    exact runRegexOrFullTextGrep_staysInside hAll hIds hNe

end Modes

/-! ## The handler -/

section Handler

variable {py : GrepPython} {db : SearchDb} {call : GrepCall} {request : GrepRequest}

theorem pattern_of_readRequest (h : readRequest py call.args = .ok request) :
    request.pattern = call.pattern ∧ call.pattern ≠ "" ∧ 1 ≤ request.limit ∧
      request.limit ≤ MAX_LIMIT := by
  have hClamp : ∀ n, 1 ≤ clampLimit n ∧ clampLimit n ≤ MAX_LIMIT := by
    intro n
    unfold clampLimit MAX_LIMIT
    split
    · omega
    · split <;> omega
  have hLimit : 1 ≤ requestedLimit py.toPython call.args ∧
      requestedLimit py.toPython call.args ≤ MAX_LIMIT := by
    unfold requestedLimit
    split
    · exact hClamp _
    · split
      · exact hClamp _
      · exact ⟨by decide, by decide⟩
    · exact ⟨by decide, by decide⟩
  unfold readRequest at h
  simp only at h
  split at h
  · cases h
  rename_i hPattern
  split at h
  · cases h
  split at h
  · cases h
  split at h
  · cases h
  cases h
  refine ⟨rfl, hPattern, ?_⟩
  simp only [VERBATIM_HARD_CAP]
  unfold MAX_LIMIT at *
  split <;> omega

theorem strip_pattern (call : GrepCall) : Text.strip call.pattern = call.pattern :=
  Text.strip_strip _

variable [LinearOrder F] [Zero F] [One F] [Add F] [Div F] [NatCast F]

theorem searchStaysInside_of_covers
    (hAll : (call.resolvedScope py db).allConversations = false)
    (hCover : KeysCoverScope py db call) : SearchStaysInside F py db call := by
  intro ctx response h db' hAgree
  refine GrepResponse.StaysInside.congr ?_ hAgree
  unfold handleLcmGrep at h
  split at h
  · cases h
    trivial
  · cases h
  · rename_i request hRequest
    simp only at h
    split at h
    · cases h
      trivial
    · rename_i hSome
      have hId : (call.resolvedScope py db).conversationId ≠ none :=
        fun hNone => hSome ⟨hAll, hNone⟩
      obtain ⟨ids, hIds, hNe⟩ :=
        (LcmConversationScope.listed_resolve _ _ _ _ _ _).exists_ids_of_conversationId hId
      have hEq : (call.resolvedScope py db).ids = ids := by
        unfold LcmConversationScope.ids GrepCall.resolvedScope
        rw [hIds, Option.getD_some]
      rw [hEq, ← (pattern_of_readRequest hRequest).1]
      refine dispatch_staysInside hAll hIds hNe (fun hMode hEnabled => ?_) h
      rw [← hEq]
      exact hCover request hRequest hMode hEnabled hId

theorem covers_of_searchStaysInside (h : SearchStaysInside F py db call) :
    KeysCoverScope py db call := by
  intro request hRequest hMode hEnabled hId s hMem hVector hPasses
  obtain ⟨hPattern, hNe, hLimit, hMax⟩ := pattern_of_readRequest hRequest
  have hQuery : Text.strip (semanticArgs db request (call.resolvedScope py db)).query ≠ "" := by
    show Text.strip request.pattern ≠ ""
    rw [hPattern, strip_pattern]
    exact hNe
  obtain ⟨search, voyage, result, hRun, hHit⟩ := SemanticSearch.exists_services_hit (F := F)
    hQuery hLimit (hMax.trans (by decide)) hMem hPasses hVector
  let engine : SearchEngine F :=
    { lower := id
      isWord := fun _ => true
      compile := fun _ => none
      messagesFts5Available := false
      summariesFts5Available := false
      messagesFts := ⟨fun _ => none, fun _ _ => 0, fun _ _ => "", fun rank _ => rank⟩
      summariesFts := ⟨fun _ => none, fun _ _ => 0, fun _ _ => "", fun rank _ => rank⟩
      summariesFtsCjk := ⟨fun _ => none, fun _ _ => 0, fun _ _ => "", fun rank _ => rank⟩ }
  have hHandle : handleLcmGrep py ⟨engine, search, some voyage, fun _ => false⟩ db call =
      .ok (.semantic result) := by
    unfold handleLcmGrep
    rw [hRequest]
    simp only
    rw [if_neg fun hNone => hId hNone.2]
    unfold dispatch
    rw [hMode, hEnabled]
    simp only
    unfold runSemanticLcmGrep
    rw [hRun]
    rfl
  obtain ⟨s', hMem', hInside, hShows⟩ := h _ _ hHandle db (AgreeInside.refl _ db) _ hHit
  have hConversation : s.conversationId = s'.conversationId :=
    congrArg SemanticHit.conversationId hShows
  rw [hConversation]
  exact hInside.2

/-- A call stays inside its conversations if and only if the session keys of these, where the
semantic mode goes by them, let no summary of another conversation pass. -/
theorem searchStaysInside_iff (hAll : (call.resolvedScope py db).allConversations = false) :
    SearchStaysInside F py db call ↔ KeysCoverScope py db call :=
  ⟨covers_of_searchStaysInside, searchStaysInside_of_covers hAll⟩

end Handler

/-! ## A conversation without a key -/

/-- The conversation of the session has no key; the one embedded summary is of another. -/
def unkeyedDb : SearchDb :=
  { Db.empty with
    conversations :=
      [{ conversationId := 1, sessionId := "mine", sessionKey := none, active := true,
         createdAt := 0 },
        { conversationId := 2, sessionId := "other", sessionKey := some "agent:other",
          active := true, createdAt := 0 }]
    summaries :=
      [{ summaryId := "sum_2", conversationId := 2, kind := .leaf, depth := 0,
         content := "a foreign secret", tokenCount := 4, fileIds := [], earliestAt := none,
         latestAt := none, descendantCount := 0, descendantTokenCount := 0,
         sourceMessageTokenCount := 4, model := "m", createdAt := 0, suppressedAt := none }]
    sessionKey := fun _ => "agent:other"
    embeddings :=
      { tables := [{ name := "lcm_embeddings_v", dim := 1, triggers := true }]
        profiles := [{ modelName := "v", dim := 1 }]
        vectors :=
          [{ table := "lcm_embeddings_v", embedding := [0, 0, 0, 0], embeddedId := "sum_2",
             embeddedKind := .summary, suppressed := false }]
        metaRows := [] }
    profileActive := fun _ => true
    profileArchived := fun _ => false
    profileRegisteredAt := fun _ => 0
    summaryIds := List.nodup_singleton _ }

def unkeyedCall : GrepCall :=
  { args := [("pattern", .str "secret"), ("mode", .str "semantic")]
    sessionId := some "mine"
    sessionKey := none
    resolveSessionIdFromSessionKey := none
    embeddingsEnabled := true }

/-- As far as the calls here need it. -/
def plainPython : GrepPython :=
  { lower := id
    casefold := id
    float := fun _ => .ok .nan
    canonical := id
    timestampText := fun _ => ""
    formatDisplayTime := id
    fromisoformat := fun _ => none }

theorem not_searchStaysInside_unkeyed :
    (unkeyedCall.resolvedScope plainPython unkeyedDb).allConversations = false ∧
      ¬ SearchStaysInside ℚ plainPython unkeyedDb unkeyedCall := by
  refine ⟨by decide +kernel, fun h => ?_⟩
  have hCovers := covers_of_searchStaysInside h
  obtain ⟨request, hRequest⟩ : ∃ request, readRequest plainPython unkeyedCall.args = .ok request :=
    ⟨_, rfl⟩
  cases hRequest
  have hInside := hCovers _ rfl (by decide +kernel) rfl (by decide +kernel) _ List.mem_cons_self
    (by decide +kernel) (by decide +kernel)
  exact absurd hInside (by decide +kernel)

theorem searchStaysInside_iff_unkeyed :
    (unkeyedCall.resolvedScope plainPython unkeyedDb).allConversations = false ∧
      (SearchStaysInside ℚ plainPython unkeyedDb unkeyedCall ↔
        KeysCoverScope plainPython unkeyedDb unkeyedCall) :=
  ⟨by decide +kernel, searchStaysInside_iff (by decide +kernel)⟩

end LosslessHermes.Tools
