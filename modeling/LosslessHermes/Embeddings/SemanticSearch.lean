import LosslessHermes.Embeddings.HybridSearch
import LosslessHermes.Store.Search

/-!
# Semantic search

`run_semantic_search` embeds a query, asks the table of vectors of the active model for the
nearest ones, joins the answer with the summaries under the filters of the caller, and cuts it at
`k`. The embedding of a text is Voyage's and the order of the vectors that of `sqlite-vec`. It is
the search over summaries, the only kind of document that the callers ask for.
-/

namespace LosslessHermes

/-- With the column `summaries.session_key` and those of `lcm_embedding_profile`, as functions of
the keys of their tables. -/
structure SearchDb extends Db where
  sessionKey : SummaryId → String
  embeddings : EmbeddingTables
  profileActive : String → Bool
  profileArchived : String → Bool
  profileRegisteredAt : String → Timestamp
  /-- The primary key of `summaries`. -/
  summaryIds : (toDb.summaries.map SummaryRecord.summaryId).Nodup

namespace SemanticSearch

open HybridSearch (Exception SemanticHit SemanticSearchResult)

variable {F : Type}

structure EmbedResult where
  vectors : List (List UInt32)
  totalTokens : Nat
  deriving DecidableEq, Repr

/-- `VoyageClient`: `embed` takes the texts, the model and the dimension. -/
structure VoyageClient (F : Type) where
  embed : List String → String → Nat → Except Exception EmbedResult
  reranker : HybridSearch.VoyageClient F

/-- The connection and `sqlite-vec`. Of two vectors at one distance, `place` says which is first. -/
structure VectorSearch (F : Type) where
  vec0Loaded : Bool
  inTransaction : Bool
  distance : List UInt8 → VectorRow → F
  place : List UInt8 → VectorRow → Nat
  cosineFromL2 : F → F
  /-- The text of the `ValueError` for a name or a vector. -/
  describe : EmbeddingError → String

structure Args where
  query : String
  k : Nat
  since : Option DateTime := none
  before : Option DateTime := none
  conversationIds : Option (List Int) := none
  sessionKeys : Option (List String) := none
  summaryKinds : Option (List SummaryKind) := none
  deriving DecidableEq, Repr

def MIN_K : Nat := 1

def MAX_K : Nat := 1000

def VEC0_OVERFETCH_MULT : Nat := 10

def VEC0_OVERFETCH_MAX : Nat := 500

/-! ## The nearest vectors -/

def getActiveEmbeddingModel (db : SearchDb) : Option EmbeddingProfile :=
  let active : List EmbeddingProfile :=
    Table.select (fun p => db.profileActive p.modelName ∧ !db.profileArchived p.modelName)
      (fun p => -(db.profileRegisteredAt p.modelName : Int)) db.embeddings.profiles
  active.head?.filter fun p => p.modelName ≠ ""

/-- The vector as it is bound, checked where the model has a profile. -/
def queryBytes (db : SearchDb) (modelName : String) (vector : List UInt32) :
    Except EmbeddingError (List UInt8) :=
  match db.embeddings.profiles.find? fun p => p.modelName = modelName with
  | none => .ok (vector.flatMap floatBytes)
  | some profile => serializeVector (.floats vector) profile.dim

/-- The vectors that a search may find. -/
def isSearched (table : String) (v : VectorRow) : Bool :=
  v.table = table ∧ v.embeddedKind = EmbeddedKind.summary ∧ !v.suppressed

/-- `ORDER BY distance` -/
def nearness (search : VectorSearch F) (bytes : List UInt8) (v : VectorRow) : F ×ₗ Nat :=
  toLex (search.distance bytes v, search.place bytes v)

def searchSimilar [LinearOrder F] (search : VectorSearch F) (db : SearchDb) (modelName : String)
    (vector : List UInt32) (k : Nat) : Except Exception (List (VectorRow × F)) :=
  if k < MIN_K ∨ MAX_K < k then
    .error (.valueError ("[embeddings.store] invalid k=" ++ toString k ++ " (must be 1-1000)"))
  else
    match embeddingsTableName modelName, queryBytes db modelName vector with
    | .error error, _ => .error (.valueError (search.describe error))
    | _, .error error => .error (.valueError (search.describe error))
    | .ok table, .ok bytes =>
        let nearest :=
          Table.select (isSearched table) (nearness search bytes) db.embeddings.vectors
        .ok ((nearest.take k).map fun v => (v, search.distance bytes v))

/-! ## The search -/

def Args.isFiltered (args : Args) : Bool :=
  args.since.isSome || args.before.isSome || args.conversationIds.any (· ≠ []) ||
    args.sessionKeys.any (· ≠ []) || args.summaryKinds.any (· ≠ [])

def Args.kRequest (args : Args) : Nat :=
  if args.isFiltered then
    min VEC0_OVERFETCH_MAX (max args.k (args.k * VEC0_OVERFETCH_MULT))
  else args.k

/-- A filter that is empty is left out. -/
def memberTest {α : Type} [DecidableEq α] (values : Option (List α)) (value : α) : Bool :=
  match values with
  | none | some [] => true
  | some (first :: rest) => value ∈ first :: rest

/-- The `WHERE` of the join; `_iso_z` drops the fraction of a second. -/
def Args.passes (args : Args) (db : SearchDb) (s : SummaryRecord) : Bool :=
  s.suppressedAt.isNone && memberTest args.sessionKeys (db.sessionKey s.summaryId) &&
    memberTest args.conversationIds (s.conversationId : Int) &&
    (args.since.all fun d => d.seconds ≤ s.latestAt.getD s.createdAt) &&
    (args.before.all fun d => s.latestAt.getD s.createdAt < d.seconds) &&
    memberTest args.summaryKinds s.kind

/-- The row of a candidate, if it passes the filters. -/
def joinedRow (args : Args) (db : SearchDb) (summaryId : SummaryId) : Option SummaryRecord :=
  db.summaries.find? fun s => s.summaryId = summaryId ∧ args.passes db s

def semanticHit (search : VectorSearch F) (db : SearchDb) (s : SummaryRecord) (distance : F) :
    SemanticHit F :=
  { summaryId := s.summaryId
    distance := distance
    cosineSimilarity := search.cosineFromL2 distance
    conversationId := s.conversationId
    sessionKey := db.sessionKey s.summaryId
    kind := s.kind
    content := s.content
    tokenCount := s.tokenCount
    createdAt := s.createdAt }

def joinedHits (search : VectorSearch F) (db : SearchDb) (args : Args)
    (candidates : List (VectorRow × F)) : List (SemanticHit F) :=
  (candidates.filterMap fun candidate =>
    (joinedRow args db candidate.1.embeddedId).map fun s =>
      semanticHit search db s candidate.2).take args.k

/-- The vector of the query and the tokens it has cost. -/
def embedQuery (search : VectorSearch F) (voyage : Option (VoyageClient F))
    (active : EmbeddingProfile) (query : String) : Except Exception (List UInt32 × Nat) :=
  let stripped := Text.strip query
  if stripped = "" then
    .error (.valueError "[semantic-search] query is required (or pass query_vector)")
  else
    match voyage with
    | none =>
        .error (.semanticSearchUnavailable
          "[semantic-search] no VoyageClient supplied and no query_vector — cannot embed query")
    | some client =>
        if search.inTransaction then .error (.other "a write transaction is open")
        else
          match client.embed [stripped] active.modelName active.dim with
          | .error error => .error error
          | .ok result =>
              match result.vectors with
              | [vector] => .ok (vector, result.totalTokens)
              | vectors =>
                  .error (.semanticSearchUnavailable
                    ("[semantic-search] Voyage returned " ++ toString vectors.length ++
                      " vectors (expected 1)"))

/-- The model and its table, or why there is no search. -/
def activeModel (search : VectorSearch F) (db : SearchDb) : Except Exception EmbeddingProfile :=
  if !search.vec0Loaded then
    .error (.semanticSearchUnavailable
      "[semantic-search] sqlite-vec is not loaded — semantic retrieval unavailable")
  else
    match getActiveEmbeddingModel db with
    | none =>
        .error (.semanticSearchUnavailable
          "[semantic-search] no active embedding model registered in lcm_embedding_profile")
    | some active =>
        match embeddingsTableName active.modelName with
        | .error error => .error (.valueError (search.describe error))
        | .ok table =>
            if db.embeddings.hasTable table then .ok active
            else
              .error (.semanticSearchUnavailable
                ("[semantic-search] vec0 table for '" ++ active.modelName ++
                  "' doesn't exist — call ensure_embeddings_table() during setup"))

def runSemanticSearch [LinearOrder F] (search : VectorSearch F) (voyage : Option (VoyageClient F))
    (db : SearchDb) (args : Args) : Except Exception (SemanticSearchResult F) :=
  match activeModel search db with
  | .error error => .error error
  | .ok active =>
      match embedQuery search voyage active args.query with
      | .error error => .error error
      | .ok (vector, tokens) =>
          match searchSimilar search db active.modelName vector args.kRequest with
          | .error error => .error error
          | .ok candidates =>
              .ok
                { hits := joinedHits search db args candidates
                  voyageTokensConsumed := tokens
                  modelName := active.modelName }

/-! ## What a hit is -/

/-- The document has a vector of the active model. -/
def hasVector (db : SearchDb) (summaryId : SummaryId) : Bool :=
  match getActiveEmbeddingModel db with
  | none => false
  | some active =>
      match embeddingsTableName active.modelName with
      | .error _ => false
      | .ok table =>
          db.embeddings.hasTable table &&
            db.embeddings.vectors.any fun v => isSearched table v && v.embeddedId = summaryId

section

variable {search : VectorSearch F} {voyage : Option (VoyageClient F)} {db : SearchDb} {args : Args}
  {active : EmbeddingProfile} {table : String} {summaryId : SummaryId}

theorem activeModel_ok (h : activeModel search db = .ok active) :
    ∃ table, getActiveEmbeddingModel db = some active ∧
      embeddingsTableName active.modelName = .ok table ∧ db.embeddings.hasTable table = true := by
  unfold activeModel at h
  split at h
  · cases h
  · split at h
    · cases h
    · rename_i model hModel
      split at h
      · cases h
      · rename_i table hTable
        split at h
        · rename_i hHas
          cases h
          exact ⟨table, hModel, hTable, hHas⟩
        · cases h

theorem activeModel_of (hLoaded : search.vec0Loaded = true)
    (hActive : getActiveEmbeddingModel db = some active)
    (hTable : embeddingsTableName active.modelName = .ok table)
    (hHas : db.embeddings.hasTable table = true) : activeModel search db = .ok active := by
  unfold activeModel
  rw [hLoaded, hActive]
  simp only [hTable, hHas]
  rfl

theorem mem_joinedRow {s : SummaryRecord} (h : joinedRow args db summaryId = some s) :
    s ∈ db.summaries ∧ s.summaryId = summaryId ∧ args.passes db s = true := by
  have hTest := List.find?_some h
  obtain ⟨hId, hPasses⟩ := of_decide_eq_true hTest
  exact ⟨List.mem_of_find?_eq_some h, hId, hPasses⟩

/-- The primary key leaves one row under an id. -/
theorem joinedRow_of_mem {s : SummaryRecord} (hMem : s ∈ db.summaries)
    (hPasses : args.passes db s = true) : joinedRow args db s.summaryId = some s := by
  cases hRow : joinedRow args db s.summaryId with
  | none =>
    have hNot := List.find?_eq_none.mp hRow s hMem
    exact absurd (decide_eq_true ⟨rfl, hPasses⟩) hNot
  | some s' =>
    obtain ⟨hMem', hId, -⟩ := mem_joinedRow hRow
    rw [List.inj_on_of_nodup_map db.summaryIds hMem' hMem hId]

variable [LinearOrder F]

theorem searchSimilar_ok {vector : List UInt32} {k : Nat} {candidates : List (VectorRow × F)}
    (h : searchSimilar search db active.modelName vector k = .ok candidates)
    (hTable : embeddingsTableName active.modelName = .ok table) {candidate : VectorRow × F}
    (hMem : candidate ∈ candidates) :
    candidate.1 ∈ db.embeddings.vectors ∧ isSearched table candidate.1 = true := by
  unfold searchSimilar at h
  split at h
  · cases h
  · rw [hTable] at h
    split at h
    · rename_i hName
      cases hName
    · cases h
    · rename_i bytes hName _
      cases hName
      cases h
      obtain ⟨v, hV, rfl⟩ := List.mem_map.mp hMem
      exact Table.mem_select.mp (List.mem_of_mem_take hV)

theorem mem_runSemanticSearch {result : SemanticSearchResult F}
    (h : runSemanticSearch search voyage db args = .ok result) {hit : SemanticHit F}
    (hHit : hit ∈ result.hits) :
    ∃ s ∈ db.summaries, args.passes db s = true ∧ hasVector db s.summaryId = true ∧
      ∃ distance, hit = semanticHit search db s distance := by
  unfold runSemanticSearch at h
  split at h
  · cases h
  · rename_i active hActive
    obtain ⟨table, hModel, hTable, hHas⟩ := activeModel_ok hActive
    split at h
    · cases h
    · split at h
      · cases h
      · rename_i candidates hCandidates
        cases h
        obtain ⟨candidate, hMem, hRow⟩ := List.mem_filterMap.mp (List.mem_of_mem_take hHit)
        obtain ⟨s, hJoined, rfl⟩ := Option.map_eq_some_iff.mp hRow
        obtain ⟨hSummary, hId, hPasses⟩ := mem_joinedRow hJoined
        obtain ⟨hVector, hSearched⟩ := searchSimilar_ok hCandidates hTable hMem
        refine ⟨s, hSummary, hPasses, ?_, candidate.2, rfl⟩
        unfold hasVector
        simp only [hModel, hTable, hHas, Bool.true_and]
        refine List.any_eq_true.mpr ⟨candidate.1, hVector, ?_⟩
        rw [hSearched, Bool.true_and, hId]
        exact decide_eq_true rfl

end

/-! ## Each row that passes may be a hit -/

section

variable {db : SearchDb} {args : Args} {s : SummaryRecord} [LinearOrder F] [Zero F]

/-- All vectors are at one distance, and the given one is the first. -/
def favouring (v : VectorRow) : VectorSearch F :=
  { vec0Loaded := true
    inTransaction := false
    distance := fun _ _ => 0
    place := fun _ w => if w = v then 0 else 1
    cosineFromL2 := fun distance => distance
    describe := fun _ => "" }

/-- A client that embeds any text as the zero vector of the dimension. -/
def zeroClient (dim : Nat) : VoyageClient F :=
  { embed := fun _ _ _ => .ok { vectors := [List.replicate dim 0], totalTokens := 1 }
    reranker := { rerank := fun _ _ _ _ => .ok { results := [], totalTokens := 0 } } }

/-- The dimension that the vector of a query is checked against. -/
def queryDim (db : SearchDb) (modelName : String) : Nat :=
  ((db.embeddings.profiles.find? fun p => p.modelName = modelName).map EmbeddingProfile.dim).getD 0

theorem exists_queryBytes (db : SearchDb) (modelName : String) :
    ∃ bytes, queryBytes db modelName (List.replicate (queryDim db modelName) 0) = .ok bytes := by
  unfold queryBytes queryDim
  cases db.embeddings.profiles.find? fun p => p.modelName = modelName with
  | none => exact ⟨_, rfl⟩
  | some profile =>
    refine ⟨(List.replicate profile.dim 0).flatMap floatBytes, ?_⟩
    simp only [Option.map_some, Option.getD_some]
    exact if_neg (by rw [List.length_replicate]; exact not_not_intro rfl)

theorem exists_searchSimilar_favouring {modelName table : String} {v : VectorRow} {k : Nat}
    (hK : MIN_K ≤ k) (hMax : k ≤ MAX_K) (hTable : embeddingsTableName modelName = .ok table)
    (hMem : v ∈ db.embeddings.vectors) (hSearched : isSearched table v = true) :
    ∃ candidates : List (VectorRow × F),
      searchSimilar (favouring v) db modelName
        (List.replicate (queryDim db modelName) 0) k = .ok ((v, 0) :: candidates) := by
  obtain ⟨bytes, hBytes⟩ := exists_queryBytes db modelName
  unfold searchSimilar
  rw [if_neg (by omega)]
  simp only [hTable, hBytes]
  have hSelected : v ∈ Table.select (isSearched table) (nearness (favouring (F := F) v) bytes)
      db.embeddings.vectors := Table.mem_select.mpr ⟨hMem, hSearched⟩
  cases hNearest : Table.select (isSearched table) (nearness (favouring (F := F) v) bytes)
      db.embeddings.vectors with
  | nil =>
    rw [hNearest] at hSelected
    cases hSelected
  | cons first rest =>
    have hFirstHead : (Table.select (isSearched table) (nearness (favouring (F := F) v) bytes)
        db.embeddings.vectors).head? = some first := by rw [hNearest, List.head?_cons]
    have hHead := Table.le_of_head?_select hFirstHead hMem hSearched
    have hFirst : first = v := by
      by_contra hNe
      have hPlace : nearness (favouring (F := F) v) bytes first = toLex (0, 1) := by
        show toLex (0, if first = v then 0 else 1) = _
        rw [if_neg hNe]
      have hSelf : nearness (favouring (F := F) v) bytes v = toLex (0, 0) := by
        show toLex (0, if v = v then 0 else 1) = _
        rw [if_pos rfl]
      rw [hPlace, hSelf, Prod.Lex.toLex_le_toLex] at hHead
      rcases hHead with hLt | ⟨-, hLe⟩
      · exact absurd hLt (lt_irrefl _)
      · have hOne : (1 : Nat) ≤ 0 := hLe
        omega
    obtain ⟨j, rfl⟩ : ∃ j, k = j + 1 := ⟨k - 1, by unfold MIN_K at hK; omega⟩
    refine ⟨(rest.take j).map fun w => (w, 0), ?_⟩
    rw [List.take_succ_cons, List.map_cons, hFirst]
    rfl

/-- Some services return a row that passes the filters. -/
theorem exists_services_hit (hQuery : Text.strip args.query ≠ "") (hK : 1 ≤ args.k)
    (hMax : args.k ≤ MAX_K) (hMem : s ∈ db.summaries) (hPasses : args.passes db s = true)
    (hVector : hasVector db s.summaryId = true) :
    ∃ (search : VectorSearch F) (voyage : VoyageClient F) (result : SemanticSearchResult F),
      runSemanticSearch search (some voyage) db args = .ok result ∧
        semanticHit search db s 0 ∈ result.hits := by
  unfold hasVector at hVector
  split at hVector
  · cases hVector
  rename_i active hActive
  split at hVector
  · cases hVector
  rename_i table hTable
  obtain ⟨hHas, hAny⟩ := Bool.and_eq_true_iff.mp hVector
  obtain ⟨v, hV, hFound⟩ := List.any_eq_true.mp hAny
  obtain ⟨hSearched, hId⟩ := Bool.and_eq_true_iff.mp hFound
  have hRequest : MIN_K ≤ args.kRequest ∧ args.kRequest ≤ MAX_K := by
    unfold Args.kRequest VEC0_OVERFETCH_MULT VEC0_OVERFETCH_MAX
    unfold MIN_K MAX_K at *
    split <;> omega
  obtain ⟨candidates, hSimilar⟩ :=
    exists_searchSimilar_favouring (F := F) hRequest.1 hRequest.2 hTable hV hSearched
  refine ⟨favouring v, zeroClient (queryDim db active.modelName),
    ⟨joinedHits (favouring v) db args ((v, 0) :: candidates), 1, active.modelName⟩, ?_, ?_⟩
  · unfold runSemanticSearch
    rw [activeModel_of rfl hActive hTable hHas]
    have hEmbed : embedQuery (favouring v)
        (some (zeroClient (F := F) (queryDim db active.modelName))) active args.query =
        .ok (List.replicate (queryDim db active.modelName) 0, 1) := if_neg hQuery
    simp only [hEmbed, hSimilar]
  · unfold joinedHits
    rw [List.filterMap_cons, of_decide_eq_true hId, joinedRow_of_mem hMem hPasses, Option.map_some]
    obtain ⟨j, hJ⟩ : ∃ j, args.k = j + 1 := ⟨args.k - 1, by omega⟩
    rw [hJ, List.take_succ_cons]
    exact List.mem_cons_self

end

end SemanticSearch

end LosslessHermes
