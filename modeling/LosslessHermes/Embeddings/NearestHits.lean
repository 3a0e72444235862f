import Mathlib.Algebra.Order.Ring.Rat
import LosslessHermes.Embeddings.SemanticSearch
import LosslessHermes.Library.Limit

/-!
# The nearest hits

The filters of a semantic search are applied to what the table of vectors has answered, and the
answer has a limit of its own: ten times `k` and at most `VEC0_OVERFETCH_MAX` vectors.

`nearest_runSemanticSearch_iff` says when the hits are the nearest that pass.
-/

namespace LosslessHermes.SemanticSearch

open HybridSearch (Exception SemanticHit SemanticSearchResult)

variable {F : Type}

/-! ## What a search should find -/

section

variable (search : VectorSearch F) (db : SearchDb) (args : Args) (table : String)
  (bytes : List UInt8)

/-- The vector is one of a summary; it may be out of date that it is suppressed. -/
def isEmbedded (v : VectorRow) : Bool :=
  v.table = table ∧ v.embeddedKind = EmbeddedKind.summary

/-- The summary of the vector passes the filters. -/
def isMatch (v : VectorRow) : Bool :=
  (joinedRow args db v.embeddedId).isSome

def hitOf (v : VectorRow) : Option (SemanticHit F) :=
  (joinedRow args db v.embeddedId).map fun s => semanticHit search db s (search.distance bytes v)

/-- The unsuppressed summaries that satisfy all filters and have a vector. -/
def matchingHits : List (SemanticHit F) :=
  (db.embeddings.vectors.filter (isEmbedded table)).filterMap (hitOf search db args bytes)

variable [LinearOrder F]

/-- The answer of the table: the nearest `n` vectors that its metadata let through. -/
def fetched (n : Nat) : List VectorRow :=
  (Table.select (isSearched table) (nearness search bytes) db.embeddings.vectors).take n

/-- No summary that passes is crowded out of the answer, unless by `k` that pass as well. -/
def NotCrowded : Prop :=
  ∀ v ∈ db.embeddings.vectors, isEmbedded table v = true → isMatch db args v = true →
    v ∈ fetched search db table bytes args.kRequest ∨
      args.k ≤ (fetched search db table bytes args.kRequest).countP fun w =>
        isMatch db args w ∧ search.distance bytes w ≤ search.distance bytes v

end

section

variable {search : VectorSearch F} {voyage : Option (VoyageClient F)} {db : SearchDb} {args : Args}
  {active : EmbeddingProfile} {table : String} {bytes : List UInt8} {v w : VectorRow}

theorem hitOf_eq_some {hit : SemanticHit F} (h : hitOf search db args bytes v = some hit) :
    hit.summaryId = v.embeddedId ∧ hit.distance = search.distance bytes v := by
  obtain ⟨s, hRow, rfl⟩ := Option.map_eq_some_iff.mp h
  exact ⟨(mem_joinedRow hRow).2.1, rfl⟩

theorem isSome_hitOf : (hitOf search db args bytes v).isSome = isMatch db args v :=
  Option.isSome_map

/-- The hits of vectors with different ids differ. -/
theorem nodup_filterMap_hitOf {vectors : List VectorRow}
    (hSingle : (vectors.map VectorRow.embeddedId).Nodup) :
    (vectors.filterMap (hitOf search db args bytes)).Nodup := by
  refine List.Nodup.of_map SemanticHit.summaryId ?_
  refine hSingle.sublist (Table.map_filterMap_sublist ?_ vectors)
  intro v hit h
  exact (hitOf_eq_some h).1

/-- What `record_embedding` keeps: a table has one vector of a document. -/
theorem nodup_embeddedId_of_single
    (hSingle : ((db.embeddings.vectors.filter fun v => v.table = table).map
      fun v => (v.embeddedId, v.embeddedKind)).Nodup) :
    ((db.embeddings.vectors.filter (isEmbedded table)).map VectorRow.embeddedId).Nodup := by
  have hSublist : (db.embeddings.vectors.filter (isEmbedded table)).Sublist
      (db.embeddings.vectors.filter fun v => v.table = table) :=
    List.monotone_filter_right _ fun v hv => decide_eq_true (of_decide_eq_true hv).1
  refine List.Nodup.of_map (fun id => (id, EmbeddedKind.summary)) ?_
  rw [List.map_map]
  have hPairs := hSingle.sublist (hSublist.map _)
  rwa [List.map_congr_left] at hPairs
  intro v hv
  have hKind := (of_decide_eq_true (List.mem_filter.mp hv).2).2
  exact congrArg (Prod.mk v.embeddedId) hKind

variable [LinearOrder F]

theorem isEmbedded_of_mem_fetched {n : Nat} (h : v ∈ fetched search db table bytes n) :
    v ∈ db.embeddings.vectors ∧ isEmbedded table v = true := by
  obtain ⟨hMem, hSearched⟩ := Table.mem_select.mp (List.mem_of_mem_take h)
  obtain ⟨hTable, hKind, -⟩ := of_decide_eq_true hSearched
  exact ⟨hMem, decide_eq_true ⟨hTable, hKind⟩⟩

theorem pairwise_distance_fetched (n : Nat) :
    (fetched search db table bytes n).Pairwise
      fun v w => search.distance bytes v ≤ search.distance bytes w := by
  refine (Table.select_pairwise_le _).sublist (List.take_sublist n _) |>.imp fun {v w} hLe => ?_
  rcases (Prod.Lex.toLex_le_toLex.mp hLe) with hLt | ⟨hEq, -⟩
  · exact le_of_lt hLt
  · exact le_of_eq hEq

theorem nodup_embeddedId_fetched
    (hIds : ((db.embeddings.vectors.filter (isEmbedded table)).map VectorRow.embeddedId).Nodup)
    (n : Nat) : ((fetched search db table bytes n).map VectorRow.embeddedId).Nodup := by
  have hSublist : (db.embeddings.vectors.filter (isSearched table)).Sublist
      (db.embeddings.vectors.filter (isEmbedded table)) := by
    refine List.monotone_filter_right _ fun v hv => ?_
    obtain ⟨hTable, hKind, -⟩ := of_decide_eq_true hv
    exact decide_eq_true ⟨hTable, hKind⟩
  have hSearched := hIds.sublist (hSublist.map VectorRow.embeddedId)
  have hPerm : (Table.select (isSearched table) (nearness search bytes)
      db.embeddings.vectors).Perm (db.embeddings.vectors.filter (isSearched table)) :=
    Table.select_perm _
  have hAnswer := (hPerm.map VectorRow.embeddedId).nodup_iff.mpr hSearched
  exact hAnswer.sublist ((List.take_sublist n _).map _)

theorem countP_filterMap_hitOf (vectors : List VectorRow) (limit : F) :
    (vectors.filterMap (hitOf search db args bytes)).countP (fun hit => hit.distance ≤ limit) =
      vectors.countP fun w => isMatch db args w ∧ search.distance bytes w ≤ limit := by
  rw [List.countP_filterMap]
  refine List.countP_congr fun w _ => ?_
  unfold hitOf isMatch
  cases joinedRow args db w.embeddedId with
  | none => simp
  | some s => simp [semanticHit]

/-- The hit of a vector is among those of the answer when the vector is in it. -/
theorem mem_filterMap_fetched_iff
    (hIds : ((db.embeddings.vectors.filter (isEmbedded table)).map VectorRow.embeddedId).Nodup)
    {n : Nat} {hit : SemanticHit F} (hMem : v ∈ db.embeddings.vectors)
    (hEmbedded : isEmbedded table v = true) (hHit : hitOf search db args bytes v = some hit) :
    hit ∈ (fetched search db table bytes n).filterMap (hitOf search db args bytes) ↔
      v ∈ fetched search db table bytes n := by
  constructor
  · intro hFound
    obtain ⟨w, hw, hSame⟩ := List.mem_filterMap.mp hFound
    have hId := (hitOf_eq_some hSame).1.symm.trans (hitOf_eq_some hHit).1
    have hOne := List.inj_on_of_nodup_map hIds (List.mem_filter.mpr (isEmbedded_of_mem_fetched hw))
      (List.mem_filter.mpr ⟨hMem, hEmbedded⟩) hId
    exact hOne ▸ hw
  · intro hFetched
    exact List.mem_filterMap.mpr ⟨v, hFetched, hHit⟩

theorem notCrowded_iff
    (hIds : ((db.embeddings.vectors.filter (isEmbedded table)).map VectorRow.embeddedId).Nodup) :
    NotCrowded search db args table bytes ↔
      ∀ hit ∈ matchingHits search db args table bytes,
        hit ∈ (fetched search db table bytes args.kRequest).filterMap (hitOf search db args bytes) ∨
          args.k ≤ ((fetched search db table bytes args.kRequest).filterMap
            (hitOf search db args bytes)).countP fun other => other.distance ≤ hit.distance := by
  constructor
  · intro hFree hit hMatch
    obtain ⟨v, hv, hHit⟩ := List.mem_filterMap.mp hMatch
    obtain ⟨hMem, hEmbedded⟩ := List.mem_filter.mp hv
    have hIsMatch : isMatch db args v = true := by
      rw [← isSome_hitOf, hHit, Option.isSome_some]
    rw [mem_filterMap_fetched_iff hIds hMem hEmbedded hHit, countP_filterMap_hitOf,
      (hitOf_eq_some hHit).2]
    exact hFree v hMem hEmbedded hIsMatch
  · intro hAll v hMem hEmbedded hIsMatch
    have hSome : (hitOf search db args bytes v).isSome = true := isSome_hitOf.trans hIsMatch
    obtain ⟨hit, hHit⟩ := Option.isSome_iff_exists.mp hSome
    have hMatch := List.mem_filterMap.mpr ⟨v, List.mem_filter.mpr ⟨hMem, hEmbedded⟩, hHit⟩
    have hEither := hAll hit hMatch
    rwa [mem_filterMap_fetched_iff hIds hMem hEmbedded hHit, countP_filterMap_hitOf,
      (hitOf_eq_some hHit).2] at hEither

/-! ## When a search finds them -/

/-- Each request that has a model, a vector and a `k` is answered. -/
theorem runSemanticSearch_eq {vector : List UInt32} {tokens : Nat}
    (hActive : activeModel search db = .ok active)
    (hTable : embeddingsTableName active.modelName = .ok table)
    (hEmbed : embedQuery search voyage active args.query = .ok (vector, tokens))
    (hBytes : queryBytes db active.modelName vector = .ok bytes) (hK : 1 ≤ args.k)
    (hMax : args.k ≤ MAX_K) :
    runSemanticSearch search voyage db args =
      .ok ⟨((fetched search db table bytes args.kRequest).filterMap
        (hitOf search db args bytes)).take args.k, tokens, active.modelName⟩ := by
  have hRequest : ¬ (args.kRequest < MIN_K ∨ MAX_K < args.kRequest) := by
    unfold Args.kRequest VEC0_OVERFETCH_MULT VEC0_OVERFETCH_MAX
    unfold MIN_K MAX_K at *
    split <;> omega
  unfold runSemanticSearch searchSimilar
  rw [hActive]
  simp only [hEmbed, if_neg hRequest, hTable, hBytes]
  unfold joinedHits
  rw [List.filterMap_map]
  rfl

/-- A search finds the nearest of the summaries that pass unless they are crowded out. -/
theorem nearest_runSemanticSearch_iff {vector : List UInt32} {tokens : Nat}
    (hActive : activeModel search db = .ok active)
    (hTable : embeddingsTableName active.modelName = .ok table)
    (hEmbed : embedQuery search voyage active args.query = .ok (vector, tokens))
    (hBytes : queryBytes db active.modelName vector = .ok bytes) (hK : 1 ≤ args.k)
    (hMax : args.k ≤ MAX_K)
    (hSingle : ((db.embeddings.vectors.filter fun v => v.table = table).map
      fun v => (v.embeddedId, v.embeddedKind)).Nodup) :
    ∃ result, runSemanticSearch search voyage db args = .ok result ∧
      (Limit.Nearest SemanticHit.distance args.k (matchingHits search db args table bytes)
        result.hits ↔ NotCrowded search db args table bytes) := by
  have hIds := nodup_embeddedId_of_single hSingle
  refine ⟨_, runSemanticSearch_eq hActive hTable hEmbed hBytes hK hMax, ?_⟩
  rw [notCrowded_iff hIds]
  refine Limit.nearest_take_iff (nodup_filterMap_hitOf (nodup_embeddedId_fetched hIds _)) ?_
    (nodup_filterMap_hitOf hIds) ?_
  · intro hit hHit
    obtain ⟨v, hv, hSame⟩ := List.mem_filterMap.mp hHit
    exact List.mem_filterMap.mpr ⟨v, List.mem_filter.mpr (isEmbedded_of_mem_fetched hv), hSame⟩
  · refine List.Pairwise.filterMap _ ?_ (pairwise_distance_fetched args.kRequest)
    intro v w hLe first hFirst second hSecond
    rw [(hitOf_eq_some hFirst).2, (hitOf_eq_some hSecond).2]
    exact hLe

end

/-! ## Ten nearer summaries of another conversation -/

def crowdedSummary (summaryId : SummaryId) (conversationId : ConversationId) : SummaryRecord :=
  { summaryId := summaryId, conversationId := conversationId, kind := .leaf, depth := 0,
    content := "", tokenCount := 0, fileIds := [], earliestAt := none, latestAt := none,
    descendantCount := 0, descendantTokenCount := 0, sourceMessageTokenCount := 0, model := "m",
    createdAt := 0, suppressedAt := none }

/-- The number 1 as a vector of one dimension. -/
def oneBytes : List UInt8 := [0, 0, 128, 63]

/-- The number 2 as a vector of one dimension. -/
def twoBytes : List UInt8 := [0, 0, 0, 64]

def crowdedVector (summaryId : SummaryId) (embedding : List UInt8) : VectorRow :=
  { table := "lcm_embeddings_v", embedding := embedding, embeddedId := summaryId,
    embeddedKind := .summary, suppressed := false }

def otherIds : List SummaryId := ["b", "c", "d", "e", "f", "g", "h", "i", "j", "k"]

/-- Summary `a` is the only one of its conversation, and all others are nearer to the query. -/
def crowdedDb : SearchDb :=
  { Db.empty with
    summaries := crowdedSummary "a" 1 :: otherIds.map fun id => crowdedSummary id 2
    sessionKey := fun _ => ""
    embeddings :=
      { tables := [{ name := "lcm_embeddings_v", dim := 1, triggers := true }]
        profiles := [{ modelName := "v", dim := 1 }]
        vectors := crowdedVector "a" twoBytes :: otherIds.map fun id => crowdedVector id oneBytes
        metaRows := [] }
    profileActive := fun _ => true
    profileArchived := fun _ => false
    profileRegisteredAt := fun _ => 0
    summaryIds := by decide +kernel }

/-- The distances from the vector 0. -/
def fromZero : VectorSearch ℚ :=
  { vec0Loaded := true
    inTransaction := false
    distance := fun _ v => if v.embedding = oneBytes then 1 else 2
    place := fun _ _ => 0
    cosineFromL2 := fun distance => max (-1) (min 1 (1 - distance * distance / 2))
    describe := fun _ => "" }

def crowdedArgs : Args := { query := "q", k := 1, conversationIds := some [1] }

theorem nearest_runSemanticSearch_iff_crowdedDb :
    ∃ result, runSemanticSearch fromZero (some (zeroClient 1)) crowdedDb crowdedArgs = .ok result ∧
      (Limit.Nearest SemanticHit.distance crowdedArgs.k
        (matchingHits fromZero crowdedDb crowdedArgs "lcm_embeddings_v" [0, 0, 0, 0]) result.hits ↔
          NotCrowded fromZero crowdedDb crowdedArgs "lcm_embeddings_v" [0, 0, 0, 0]) :=
  nearest_runSemanticSearch_iff
    (show activeModel fromZero crowdedDb = .ok { modelName := "v", dim := 1 } by decide +kernel)
    (by decide +kernel)
    (show embedQuery fromZero (some (zeroClient 1)) _ crowdedArgs.query = .ok ([0], 1) by
      decide +kernel)
    (by decide +kernel) (by decide) (by decide) (by decide +kernel)

theorem not_nearest_crowdedDb :
    ∃ result, runSemanticSearch fromZero (some (zeroClient 1)) crowdedDb crowdedArgs = .ok result ∧
      ¬ Limit.Nearest SemanticHit.distance crowdedArgs.k
        (matchingHits fromZero crowdedDb crowdedArgs "lcm_embeddings_v" [0, 0, 0, 0])
        result.hits := by
  refine ⟨⟨[], 1, "v"⟩, by decide +kernel, fun hNearest => ?_⟩
  have hLength : (0 : Nat) = min crowdedArgs.k _ := hNearest.length
  have hOne : (matchingHits fromZero crowdedDb crowdedArgs "lcm_embeddings_v"
      [0, 0, 0, 0]).length = 1 := by decide +kernel
  rw [hOne] at hLength
  exact absurd hLength (by decide)

end LosslessHermes.SemanticSearch
