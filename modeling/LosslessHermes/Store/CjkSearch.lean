import LosslessHermes.Store.LikeSearch

/-!
# The CJK searches of summaries

A query with CJK characters is searched for in the trigram index, unless one of its runs of CJK
characters is shorter than three, and by `LIKE` where that finds nothing. The two cut the runs
into different windows. `honoursQuery_iff` says when both honour the whole query: when a summary
keeps what it has of the query under `str.lower`, as far as `LIKE` can tell. SQLite folds the
case of ASCII letters only.
-/

namespace LosslessHermes.Search

open FullText (containsAscii)

variable {F : Type}

/-! ## What a search should find -/

/-- The rows that the clauses of every search let through. -/
structure InScope (input : SearchInput) (s : SummaryRecord) : Prop where
  visible : s.suppressedAt = none
  conversation : match input.conversationIds.getD [], input.conversationId with
    | [], none => True
    | [], some id => (s.conversationId : Int) = id
    | ids, _ => (s.conversationId : Int) ∈ ids
  since : ∀ d, input.since = some d → d.notAfter (summaryColumns.time s) = true
  before : ∀ d, input.before = some d → d.notAfter (summaryColumns.time s) = false

/-- The Latin tokens of a query, as they are written. -/
def latinTokens (isWord : Char → Bool) (query : String) : List (List Char) :=
  Regex.hits (FullText.LATIN_QUERY_TOKEN_RE isWord) query

/-- The terms of a segment in the expression for the index. -/
def cjkTrigramTerms (segment : List Char) : List (List Char) :=
  if segment.length ≤ 4 then [segment] else FullText.splitCjkChunks 4 segment

section

variable (engine : SearchEngine F) (input : SearchInput) (s : SummaryRecord)

/-- The summary has all runs and tokens of the query as they are written. -/
structure HasLiterally : Prop where
  runs : ∀ segment ∈ FullText.extractCjkSegments input.query, segment <:+: s.content.toList
  tokens : ∀ token ∈ latinTokens engine.isWord input.query, token <:+: s.content.toList

/-- The clauses of the Latin tokens hold. -/
def HasTokens : Prop :=
  ∀ token ∈ latinTokens engine.isWord input.query,
    containsAscii s.content (engine.lower (String.ofList token)) = true

/-- `LIKE` finds one of the terms of each segment. -/
def HasPairs : Prop :=
  ∀ segment ∈ FullText.extractCjkSegments input.query,
    ∃ term ∈ FullText.cjkLikeTerms segment, containsAscii s.content (engine.lower term) = true

/-- Each segment has a term in the content. -/
def HasWindows : Prop :=
  ∀ segment ∈ FullText.extractCjkSegments input.query,
    ∃ term ∈ cjkTrigramTerms segment, term <:+: s.content.toList

/-- The expression that the index is asked for. -/
def trigramExpression : String :=
  FullText.cjkTrigramExpression ((FullText.extractCjkSegments input.query).filter fun segment =>
    3 ≤ segment.length)

/-- A `MATCH` of the index, which may raise, is containment in the contents. -/
def MatchesContents : Prop :=
  FullText.hasShortCjkSegment input.query = false →
    ∀ found, engine.summariesFtsCjk.search (trigramExpression input) = some found →
      ∀ s, found s = true ↔ HasWindows input s

/-- The index is asked for the query, and answers. -/
def TrigramAnswers : Prop :=
  FullText.hasShortCjkSegment input.query = false ∧
    (engine.summariesFtsCjk.search (trigramExpression input)).isSome = true

end

section

variable [LinearOrder F] [Zero F] (engine : SearchEngine F) (input : SearchInput)
  (rows : List SummaryRecord)

/-- The hits of the trigram path. -/
def trigramHits : List (SummarySearchResult F) :=
  if FullText.hasShortCjkSegment input.query then []
  else (summariesCjkTrigram engine input rows).getD []

/-- The windows of a run for which the chosen path searches. -/
def searchedWindows (segment : List Char) : List String :=
  if trigramHits engine input rows = [] then
    (FullText.cjkLikeTerms segment).map engine.lower
  else (cjkTrigramTerms segment).map String.ofList

structure HonoursQuery : Prop where
  sound : ∀ hit ∈ searchSummaries engine input rows, ∃ s ∈ rows, s.summaryId = hit.summaryId ∧
    InScope input s ∧ HasTokens engine input s ∧
      ∀ segment ∈ FullText.extractCjkSegments input.query,
        ∃ window ∈ searchedWindows engine input rows segment, containsAscii s.content window = true
  complete : ∀ s ∈ rows, InScope input s → HasLiterally engine input s →
    s.summaryId ∈ (searchSummaries engine input rows).map (·.summaryId)
  refines : (trigramHits engine input rows).map (·.summaryId) ⊆
    (summariesLikeCjk engine input rows).map (·.summaryId)

omit [LinearOrder F] [Zero F] in
/-- What is found as it is written, or by the index, is found in lower case by `LIKE`. -/
structure CaseSafe : Prop where
  tokens : ∀ s ∈ rows, InScope input s → HasLiterally engine input s → HasTokens engine input s
  literal : ∀ s ∈ rows, InScope input s → HasLiterally engine input s → HasPairs engine input s
  windows : TrigramAnswers engine input → ∀ s ∈ rows, InScope input s → HasWindows input s →
    HasTokens engine input s → HasPairs engine input s

end

/-! ## The rows of the two paths -/

section

variable {engine : SearchEngine F} {input : SearchInput} {rows : List SummaryRecord}
  {s : SummaryRecord}

theorem inScope_iff :
    ((clauses summaryColumns input []).all fun test => test s) = true ↔ InScope input s := by
  have hTimes : ((timeTests summaryColumns.time input.since input.before).all
      fun test => test s) = true ↔
      (∀ d, input.since = some d → d.notAfter (summaryColumns.time s) = true) ∧
        ∀ d, input.before = some d → d.notAfter (summaryColumns.time s) = false := by
    unfold timeTests
    cases input.since <;> cases input.before <;> simp
  have hConversation : ((appendConversationScopeConstraint
      [fun r : SummaryRecord => (summaryColumns.suppressedAt r).isNone]
      summaryColumns.conversation input.conversationId input.conversationIds).all
        fun test => test s) = true ↔ s.suppressedAt = none ∧
          match input.conversationIds.getD [], input.conversationId with
          | [], none => True
          | [], some id => (s.conversationId : Int) = id
          | ids, _ => (s.conversationId : Int) ∈ ids := by
    cases hIds : input.conversationIds.getD [] with
    | nil =>
      unfold appendConversationScopeConstraint
      rw [hIds, List.eraseDups_nil]
      cases input.conversationId with
      | none => simp [summaryColumns]
      | some id =>
        simp only [List.cons_append, List.nil_append, List.all_cons, List.all_nil,
          Bool.and_true, Bool.and_eq_true, Option.isNone_iff_eq_none, summaryColumns]
        exact and_congr_right fun _ => decide_eq_true_iff
    | cons first rest =>
      cases hSome : input.conversationIds with
      | none =>
        rw [hSome] at hIds
        cases hIds
      | some ids =>
        rw [hSome, Option.getD_some] at hIds
        rw [hIds, appendConversationScopeConstraint_some _ _ _ (List.cons_ne_nil first rest)]
        simp [summaryColumns]
  unfold clauses
  rw [List.all_append, Bool.and_eq_true, List.nil_append, hConversation, hTimes]
  exact ⟨fun h => ⟨h.1.1, h.1.2, h.2.1, h.2.2⟩,
    fun h => ⟨⟨h.visible, h.conversation⟩, h.since, h.before⟩⟩

theorem mem_selectRows {κ : Type} [LinearOrder κ] {tests : List (SummaryRecord → Bool)}
    {key : SummaryRecord → κ} (hLimit : rows.length ≤ input.limit) :
    s ∈ selectRows summaryColumns input tests key input.limit rows ↔
      s ∈ rows ∧ InScope input s ∧ ∀ test ∈ tests, test s = true := by
  unfold selectRows
  rw [List.take_of_length_le ?_, Table.mem_select, all_clauses, Bool.and_eq_true, inScope_iff,
    List.all_eq_true]
  rw [(Table.select_perm rows).length_eq]
  exact Nat.le_trans (List.length_filter_le _ _) hLimit

theorem hasTokens_iff : HasTokens engine input s ↔
    ∀ token ∈ FullText.extractLatinTokens engine.lower engine.isWord input.query,
      containsAscii s.content token = true := by
  unfold HasTokens latinTokens FullText.extractLatinTokens
  simp only [List.mem_eraseDups, List.forall_mem_map]

theorem isCjkSegment_of_isCjk {c : Char} (h : FullText.isCjk c = true) :
    FullText.isCjkSegment c = true := by
  simp only [FullText.isCjk, FullText.isCjkSegment, FullText.inRanges, List.any_cons, List.any_nil,
    Bool.or_eq_true, Bool.and_eq_true, decide_eq_true_eq, Bool.false_eq_true, or_false] at h ⊢
  omega

variable [Zero F]

theorem extractCjkSegments_ne_nil (hCjk : FullText.containsCjk input.query = true) :
    FullText.extractCjkSegments input.query ≠ [] := by
  obtain ⟨c, hc, hIsCjk⟩ := List.any_eq_true.mp hCjk
  exact Regex.hits_ne_nil_of_char hc (isCjkSegment_of_isCjk hIsCjk)

theorem mem_summariesLikeCjk (hCjk : FullText.containsCjk input.query = true)
    (hLimit : rows.length ≤ input.limit) {id : SummaryId} :
    id ∈ (summariesLikeCjk engine input rows).map (·.summaryId) ↔
      ∃ s ∈ rows, InScope input s ∧ HasPairs engine input s ∧ HasTokens engine input s ∧
        s.summaryId = id := by
  unfold summariesLikeCjk
  dsimp only
  rw [if_neg fun h => extractCjkSegments_ne_nil hCjk (List.map_eq_nil_iff.mp h.1)]
  unfold likeResults
  rw [List.map_map, List.mem_map]
  refine exists_congr fun s => ?_
  rw [mem_selectRows hLimit]
  simp only [List.forall_mem_append, List.map_map, List.forall_mem_map, Function.comp_def,
    List.any_eq_true, FullText.likeTerm_iff, ← hasTokens_iff]
  exact ⟨fun ⟨⟨hMem, hScope, hPairs, hTokens⟩, hId⟩ => ⟨hMem, hScope, hPairs, hTokens, hId⟩,
    fun ⟨hMem, hScope, hPairs, hTokens, hId⟩ => ⟨⟨hMem, hScope, hPairs, hTokens⟩, hId⟩⟩

variable [LinearOrder F]

theorem filter_extractCjkSegments (hLong : FullText.hasShortCjkSegment input.query = false) :
    (FullText.extractCjkSegments input.query).filter (fun segment => 3 ≤ segment.length) =
      FullText.extractCjkSegments input.query := by
  refine List.filter_eq_self.mpr fun segment hSegment => decide_eq_true ?_
  have hNot := List.any_eq_false.mp hLong segment hSegment
  exact Nat.le_of_not_lt fun hShort => hNot (decide_eq_true hShort)

theorem mem_trigramHits (hIndex : MatchesContents engine input)
    (hCjk : FullText.containsCjk input.query = true) (hLimit : rows.length ≤ input.limit)
    {id : SummaryId} :
    id ∈ (trigramHits engine input rows).map (·.summaryId) ↔
      TrigramAnswers engine input ∧ ∃ s ∈ rows, InScope input s ∧ HasWindows input s ∧
        HasTokens engine input s ∧ s.summaryId = id := by
  unfold trigramHits TrigramAnswers
  cases hShort : FullText.hasShortCjkSegment input.query with
  | true => simp
  | false =>
    have hSegments : ¬ (FullText.extractCjkSegments input.query).filter
        (fun segment => 3 ≤ segment.length) = [] := by
      rw [filter_extractCjkSegments hShort]
      exact extractCjkSegments_ne_nil hCjk
    have hFind : summariesCjkTrigram engine input rows =
        ftsResults engine.summariesFtsCjk (trigramExpression input)
          ((FullText.extractLatinTokens engine.lower engine.isWord input.query).map
            fun token s => FullText.likeTerm s.content token) input rows := if_neg hSegments
    rw [if_neg Bool.false_ne_true, hFind]
    unfold ftsResults ftsRows
    cases hSearch : engine.summariesFtsCjk.search (trigramExpression input) with
    | none => simp
    | some found =>
      rw [Option.map_some, Option.map_some, Option.getD_some, Option.isSome_some,
        and_iff_right ⟨rfl, rfl⟩, List.map_map, List.mem_map]
      refine exists_congr fun s => ?_
      rw [mem_selectRows hLimit]
      simp only [List.forall_mem_cons, List.forall_mem_map, FullText.likeTerm_iff,
        ← hasTokens_iff, hIndex hShort found hSearch s]
      exact ⟨fun ⟨⟨hMem, hScope, hWindows, hTokens⟩, hId⟩ =>
          ⟨hMem, hScope, hWindows, hTokens, hId⟩,
        fun ⟨hMem, hScope, hWindows, hTokens, hId⟩ => ⟨⟨hMem, hScope, hWindows, hTokens⟩, hId⟩⟩

theorem searchSummaries_eq (hMode : input.mode = .fullText)
    (hCjk : FullText.containsCjk input.query = true) :
    searchSummaries engine input rows =
      if trigramHits engine input rows = [] then summariesLikeCjk engine input rows
      else trigramHits engine input rows := by
  unfold searchSummaries
  rw [hMode]
  exact if_pos hCjk

end

/-! ## Windows of a run -/

section

variable {segment window : List Char} {size : Nat}

theorem mem_splitCjkChunks : window ∈ FullText.splitCjkChunks size segment ↔
    ∃ i, i + size ≤ segment.length ∧ (segment.drop i).take size = window := by
  unfold FullText.splitCjkChunks
  rw [List.mem_eraseDups, List.mem_map]
  refine exists_congr fun i => and_congr_left fun _ => ?_
  rw [List.mem_range]
  omega

theorem infix_of_mem_splitCjkChunks (h : window ∈ FullText.splitCjkChunks size segment) :
    window <:+: segment := by
  obtain ⟨i, -, rfl⟩ := mem_splitCjkChunks.mp h
  exact (List.take_prefix _ _).isInfix.trans (List.drop_suffix _ _).isInfix

/-- A run has a window, and its windows lie in it. -/
theorem exists_mem_cjkTrigramTerms (segment : List Char) :
    ∃ term ∈ cjkTrigramTerms segment, term <:+: segment := by
  unfold cjkTrigramTerms
  split
  · exact ⟨segment, List.mem_singleton_self _, List.infix_refl _⟩
  · have hMem : segment.take 4 ∈ FullText.splitCjkChunks 4 segment :=
      mem_splitCjkChunks.mpr ⟨0, by omega, rfl⟩
    exact ⟨_, hMem, infix_of_mem_splitCjkChunks hMem⟩

theorem exists_mem_cjkLikeTerms (segment : List Char) :
    ∃ term ∈ FullText.cjkLikeTerms segment, term.toList <:+: segment := by
  unfold FullText.cjkLikeTerms
  split
  · refine ⟨String.ofList segment, List.mem_singleton_self _, ?_⟩
    rw [String.toList_ofList]
  · have hMem : segment.take 2 ∈ FullText.splitCjkChunks 2 segment :=
      mem_splitCjkChunks.mpr ⟨0, by omega, rfl⟩
    refine ⟨_, List.mem_map_of_mem hMem, ?_⟩
    rw [String.toList_ofList]
    exact infix_of_mem_splitCjkChunks hMem

/-- A window of the index has a term of `LIKE` in it. -/
theorem exists_cjkLikeTerm_of_window (hLong : 3 ≤ segment.length)
    (h : window ∈ cjkTrigramTerms segment) :
    ∃ term ∈ FullText.cjkLikeTerms segment, term.toList <:+: window := by
  have hTerms : FullText.cjkLikeTerms segment =
      (FullText.splitCjkChunks 2 segment).map String.ofList :=
    congrArg (List.map String.ofList) (if_neg (by omega))
  suffices hChunk : ∃ pair ∈ FullText.splitCjkChunks 2 segment, pair <:+: window by
    obtain ⟨pair, hPair, hInside⟩ := hChunk
    refine ⟨String.ofList pair, hTerms ▸ List.mem_map_of_mem hPair, ?_⟩
    rwa [String.toList_ofList]
  unfold cjkTrigramTerms at h
  split at h
  · rw [List.mem_singleton.mp h]
    exact ⟨segment.take 2, mem_splitCjkChunks.mpr ⟨0, by omega, rfl⟩,
      (List.take_prefix _ _).isInfix⟩
  · obtain ⟨i, hi, rfl⟩ := mem_splitCjkChunks.mp h
    refine ⟨(segment.drop i).take 2, mem_splitCjkChunks.mpr ⟨i, by omega, rfl⟩, ?_⟩
    have hTake : (segment.drop i).take 2 = ((segment.drop i).take 4).take 2 := by
      rw [List.take_take, Nat.min_eq_left (by decide)]
    rw [hTake]
    exact (List.take_prefix _ _).isInfix

end

/-! ## When the query is honoured -/

section

variable {engine : SearchEngine F} {input : SearchInput} {rows : List SummaryRecord}
  {s : SummaryRecord}

theorem containsAscii_of_infix {text part : String} (h : part.toList <:+: text.toList) :
    containsAscii text part = true :=
  decide_eq_true (h.map Char.toLower)

theorem hasWindows_of_literally (h : HasLiterally engine input s) : HasWindows input s := by
  intro segment hSegment
  obtain ⟨term, hTerm, hInside⟩ := exists_mem_cjkTrigramTerms segment
  exact ⟨term, hTerm, hInside.trans (h.runs segment hSegment)⟩

/-- The parts of the query have no letters beyond ASCII that `str.lower` changes. -/
structure LowersOnlyAscii (engine : SearchEngine F) (input : SearchInput) : Prop where
  tokens : ∀ token ∈ latinTokens engine.isWord input.query,
    FullText.foldAscii (engine.lower (String.ofList token)) = token.map Char.toLower
  terms : ∀ segment ∈ FullText.extractCjkSegments input.query,
    ∀ term ∈ FullText.cjkLikeTerms segment,
      FullText.foldAscii (engine.lower term) = FullText.foldAscii term

theorem caseSafe_of_lowersOnlyAscii (h : LowersOnlyAscii engine input) :
    CaseSafe engine input rows where
  tokens := fun s _ _ hLiteral token hToken => by
    unfold containsAscii
    rw [decide_eq_true_eq, h.tokens token hToken]
    exact (hLiteral.tokens token hToken).map Char.toLower
  literal := fun s _ _ hLiteral segment hSegment => by
    obtain ⟨term, hTerm, hInside⟩ := exists_mem_cjkLikeTerms segment
    refine ⟨term, hTerm, ?_⟩
    unfold containsAscii
    rw [h.terms segment hSegment term hTerm]
    exact containsAscii_of_infix (hInside.trans (hLiteral.runs segment hSegment))
  windows := fun hAnswers s _ _ hWindows _ segment hSegment => by
    have hShort := List.any_eq_false.mp hAnswers.1 segment hSegment
    have hLong : 3 ≤ segment.length := Nat.le_of_not_lt fun hLt => hShort (decide_eq_true hLt)
    obtain ⟨window, hWindow, hContent⟩ := hWindows segment hSegment
    obtain ⟨term, hTerm, hInside⟩ := exists_cjkLikeTerm_of_window hLong hWindow
    refine ⟨term, hTerm, ?_⟩
    unfold containsAscii
    rw [h.terms segment hSegment term hTerm]
    exact containsAscii_of_infix (hInside.trans hContent)

variable [LinearOrder F] [Zero F]

theorem sound_searchSummaries (hIndex : MatchesContents engine input)
    (hMode : input.mode = .fullText) (hCjk : FullText.containsCjk input.query = true)
    (hLimit : rows.length ≤ input.limit) :
    ∀ hit ∈ searchSummaries engine input rows, ∃ s ∈ rows, s.summaryId = hit.summaryId ∧
      InScope input s ∧ HasTokens engine input s ∧
        ∀ segment ∈ FullText.extractCjkSegments input.query,
          ∃ window ∈ searchedWindows engine input rows segment,
            containsAscii s.content window = true := by
  intro hit hHit
  rw [searchSummaries_eq hMode hCjk] at hHit
  unfold searchedWindows
  by_cases hNone : trigramHits engine input rows = []
  · rw [if_pos hNone] at hHit
    obtain ⟨s, hMem, hScope, hPairs, hTokens, hId⟩ :=
      (mem_summariesLikeCjk hCjk hLimit).mp (List.mem_map_of_mem hHit)
    refine ⟨s, hMem, hId, hScope, hTokens, fun segment hSegment => ?_⟩
    obtain ⟨term, hTerm, hContent⟩ := hPairs segment hSegment
    rw [if_pos hNone]
    exact ⟨engine.lower term, List.mem_map_of_mem hTerm, hContent⟩
  · rw [if_neg hNone] at hHit
    obtain ⟨-, s, hMem, hScope, hWindows, hTokens, hId⟩ :=
      (mem_trigramHits hIndex hCjk hLimit).mp (List.mem_map_of_mem hHit)
    refine ⟨s, hMem, hId, hScope, hTokens, fun segment hSegment => ?_⟩
    obtain ⟨term, hTerm, hContent⟩ := hWindows segment hSegment
    rw [if_neg hNone]
    refine ⟨String.ofList term, List.mem_map_of_mem hTerm, containsAscii_of_infix ?_⟩
    rwa [String.toList_ofList]

theorem caseSafe_of_honoursQuery (hIds : (rows.map (·.summaryId)).Nodup)
    (hIndex : MatchesContents engine input) (hMode : input.mode = .fullText)
    (hCjk : FullText.containsCjk input.query = true) (hLimit : rows.length ≤ input.limit)
    (hHonours : HonoursQuery engine input rows) : CaseSafe engine input rows := by
  have hOwn : ∀ {s s' : SummaryRecord}, s ∈ rows → s' ∈ rows → s'.summaryId = s.summaryId →
      s' = s := fun hMem hMem' hId => List.inj_on_of_nodup_map hIds hMem' hMem hId
  have hWindows : TrigramAnswers engine input → ∀ s ∈ rows, InScope input s →
      HasWindows input s → HasTokens engine input s → HasPairs engine input s := by
    intro hAnswers s hMem hScope hFound hTokens
    have hTrigram := (mem_trigramHits hIndex hCjk hLimit).mpr
      ⟨hAnswers, s, hMem, hScope, hFound, hTokens, rfl⟩
    obtain ⟨s', hMem', -, hPairs, -, hId⟩ :=
      (mem_summariesLikeCjk hCjk hLimit).mp (hHonours.refines hTrigram)
    exact hOwn hMem hMem' hId ▸ hPairs
  have hTokens : ∀ s ∈ rows, InScope input s → HasLiterally engine input s →
      HasTokens engine input s := by
    intro s hMem hScope hLiteral
    obtain ⟨hit, hHit, hSame⟩ := List.mem_map.mp (hHonours.complete s hMem hScope hLiteral)
    obtain ⟨s', hMem', hId, -, hTokens, -⟩ := hHonours.sound hit hHit
    exact hOwn hMem hMem' (hId.trans hSame) ▸ hTokens
  refine ⟨hTokens, fun s hMem hScope hLiteral => ?_, hWindows⟩
  have hFound := hHonours.complete s hMem hScope hLiteral
  rw [searchSummaries_eq hMode hCjk] at hFound
  split at hFound
  · obtain ⟨s', hMem', -, hPairs, -, hId⟩ := (mem_summariesLikeCjk hCjk hLimit).mp hFound
    exact hOwn hMem hMem' hId ▸ hPairs
  · exact hWindows ((mem_trigramHits hIndex hCjk hLimit).mp hFound).1 s hMem hScope
      (hasWindows_of_literally hLiteral) (hTokens s hMem hScope hLiteral)

theorem honoursQuery_of_caseSafe (hIndex : MatchesContents engine input)
    (hMode : input.mode = .fullText) (hCjk : FullText.containsCjk input.query = true)
    (hLimit : rows.length ≤ input.limit) (hSafe : CaseSafe engine input rows) :
    HonoursQuery engine input rows where
  sound := sound_searchSummaries hIndex hMode hCjk hLimit
  complete := by
    intro s hMem hScope hLiteral
    have hTokens := hSafe.tokens s hMem hScope hLiteral
    rw [searchSummaries_eq hMode hCjk]
    split
    · exact (mem_summariesLikeCjk hCjk hLimit).mpr
        ⟨s, hMem, hScope, hSafe.literal s hMem hScope hLiteral, hTokens, rfl⟩
    · rename_i hSome
      -- the index has answered, since it has found something
      obtain ⟨hit, hHit⟩ := List.exists_mem_of_ne_nil _ hSome
      have hAnswers := ((mem_trigramHits hIndex hCjk hLimit).mp (List.mem_map_of_mem hHit)).1
      exact (mem_trigramHits hIndex hCjk hLimit).mpr
        ⟨hAnswers, s, hMem, hScope, hasWindows_of_literally hLiteral, hTokens, rfl⟩
  refines := by
    intro id hId
    obtain ⟨hAnswers, s, hMem, hScope, hWindows, hTokens, hSame⟩ :=
      (mem_trigramHits hIndex hCjk hLimit).mp hId
    exact (mem_summariesLikeCjk hCjk hLimit).mpr
      ⟨s, hMem, hScope, hSafe.windows hAnswers s hMem hScope hWindows hTokens, hTokens, hSame⟩

/-- `summary_id` is the primary key, and the limit is set aside. -/
theorem honoursQuery_iff (engine : SearchEngine F) (input : SearchInput)
    (rows : List SummaryRecord) (hIds : (rows.map (·.summaryId)).Nodup)
    (hIndex : MatchesContents engine input) (hMode : input.mode = .fullText)
    (hCjk : FullText.containsCjk input.query = true) (hLimit : rows.length ≤ input.limit) :
    (HonoursQuery engine input rows ↔ CaseSafe engine input rows) ∧
      (LowersOnlyAscii engine input → HonoursQuery engine input rows) :=
  ⟨⟨caseSafe_of_honoursQuery hIds hIndex hMode hCjk hLimit,
      honoursQuery_of_caseSafe hIndex hMode hCjk hLimit⟩,
    fun h => honoursQuery_of_caseSafe hIndex hMode hCjk hLimit (caseSafe_of_lowersOnlyAscii h)⟩

end

/-! ## A capital with an accent -/

/-- `str.lower`, as far as the query needs it. -/
def lowerAccent (text : String) : String :=
  String.ofList (text.toList.map fun c => if c = 'É' then 'é' else c.toLower)

/-- The index knows the one expression that it is asked for. -/
def accentEngine : SearchEngine Nat :=
  { asciiEngine with
    lower := lowerAccent
    isWord := fun c => c.isAlphanum || 128 ≤ c.toNat
    summariesFtsCjk :=
      { search := fun expression =>
          if expression = "(\"测试组\")" then
            some fun s => decide ("测试组".toList <:+: s.content.toList)
          else none
        rank := fun _ _ => 0
        snippet := fun _ _ => ""
        aged := fun rank _ => rank } }

def accentInput : SearchInput :=
  { query := "测试组 CAFÉ", mode := .fullText, conversationId := none, conversationIds := none,
    since := none, before := none, limit := 50, sort := .recency }

/-- A summary with the very text of the query. -/
def accentSummary : SummaryRecord :=
  { summaryId := "sum_1", conversationId := 1, kind := .leaf, depth := 0, content := "测试组 CAFÉ",
    tokenCount := 3, fileIds := [], earliestAt := none, latestAt := none, descendantCount := 0,
    descendantTokenCount := 0, sourceMessageTokenCount := 0, model := "m", createdAt := 0,
    suppressedAt := none }

theorem matchesContents_accent : MatchesContents accentEngine accentInput := by
  intro _ found hFound s
  have hExpression : trigramExpression accentInput = "(\"测试组\")" := by decide +kernel
  have hSegments : FullText.extractCjkSegments accentInput.query = ["测试组".toList] := by
    decide +kernel
  have hTerms : cjkTrigramTerms "测试组".toList = ["测试组".toList] := by decide +kernel
  rw [hExpression] at hFound
  obtain rfl := Option.some.inj hFound
  unfold HasWindows
  rw [hSegments, List.forall_mem_singleton, hTerms, decide_eq_true_eq]
  exact ⟨fun h => ⟨_, List.mem_singleton_self _, h⟩,
    fun ⟨_, hTerm, h⟩ => List.mem_singleton.mp hTerm ▸ h⟩

theorem honoursQuery_iff_accent :
    (HonoursQuery accentEngine accentInput [accentSummary] ↔
      CaseSafe accentEngine accentInput [accentSummary]) ∧
      (LowersOnlyAscii accentEngine accentInput →
        HonoursQuery accentEngine accentInput [accentSummary]) :=
  honoursQuery_iff accentEngine accentInput [accentSummary] (by decide)
    matchesContents_accent rfl (by decide +kernel) (by decide)

theorem not_honoursQuery_accent : ¬ HonoursQuery accentEngine accentInput [accentSummary] := by
  intro hHonours
  have hNone : searchSummaries accentEngine accentInput [accentSummary] = [] := by decide +kernel
  have hScope : InScope accentInput accentSummary := inScope_iff.mp (by decide +kernel)
  have hLiteral : HasLiterally accentEngine accentInput accentSummary :=
    { runs := by decide +kernel
      tokens := by decide +kernel }
  have hFound := hHonours.complete accentSummary List.mem_cons_self hScope hLiteral
  rw [hNone] at hFound
  cases hFound

end LosslessHermes.Search
