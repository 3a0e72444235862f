import Mathlib.Algebra.Order.Ring.Rat
import LosslessHermes.Embeddings.HybridSearch
import Mathlib.Algebra.GroupWithZero.Nat
import Mathlib.Algebra.Field.Rat

/-!
# The hits of a hybrid search

A search should rank the union of its two arms and cut the ranking at `top_n`.
`keepsCandidates_iff` says when a search that returns does so. The ranking by fusion always
does; the hits of an answered request are those of the answer alone.
-/

namespace LosslessHermes.HybridSearch

variable {F : Type}

/-! ## What a search has to rank -/

namespace Search

variable [Zero F]

def ftsHits (q : Search F) : List FtsHit :=
  match q.ftsSearch (Text.strip q.query) q.kFts with
  | .ok hits => hits
  | .error _ => []

/-- The hits of the vector arm; none if it failed and the search goes on without it. -/
def semHits (q : Search F) : List (SemanticHit F) :=
  match semanticWithDegrade (q.runSemanticSearch (Text.strip q.query) q.kSemantic) with
  | .ok (some result) => result.hits
  | .ok none => []
  | .error _ => []

/-- The ids that an arm has found. -/
def union (q : Search F) : Finset SummaryId :=
  (q.ftsHits.map FtsHit.summaryId).toFinset ∪ (q.semHits.map SemanticHit.summaryId).toFinset

def candidates (q : Search F) : List (HybridHit F) :=
  mergeCandidates q.ftsHits q.semHits

/-- The candidates of the rerank request. -/
def requested (q : Search F) : List (HybridHit F) :=
  (packed q q.candidates).1

/-- The candidates that are not too large for a request on their own. -/
def small (q : Search F) : List (HybridHit F) :=
  q.candidates.filter fun c => c.candTokens ≤ rerankBudget

/-- The first of them, so many, are there and fit into one request. -/
def Fits (q : Search F) (n : Nat) : Prop :=
  n ≤ q.small.length ∧ (n = 0 ∨
    estimate (Text.strip q.query) + ((q.small.take n).map HybridHit.candTokens).sum ≤
      rerankBudget)

/-- The answer to the rerank request, if there is one. -/
def answer (q : Search F) : Option (RerankResult F) :=
  match callRerank q q.requested with
  | some (.ok resp) => some resp
  | _ => none

end Search

/-- A reranker returns distinct documents of the request, the best first. -/
structure RerankResult.Ranks [LinearOrder F] (resp : RerankResult F)
    (requested : List (HybridHit F)) : Prop where
  distinct : (resp.results.map RerankItem.id).Nodup
  input : ∀ r ∈ resp.results, r.id ∈ requested.map HybridHit.summaryId
  sorted : resp.results.Pairwise fun a b => b.score ≤ a.score

/-- The hits are the union of the arms, ranked and cut at `top_n`. -/
structure KeepsCandidates [LinearOrder F] [Zero F] (q : Search F)
    (hits : List (HybridHit F)) : Prop where
  distinct : (hits.map HybridHit.summaryId).Nodup
  found : ∀ h ∈ hits, h.summaryId ∈ q.union
  sorted : hits.Pairwise fun a b => b.score ≤ a.score
  count : (hits.length : Int) = min q.topN q.union.card
  /-- What was too large for an answered request comes after what the reranker ranked. -/
  behind : q.answer.isSome → hits.Pairwise fun a b =>
    a.summaryId ∉ q.requested.map HybridHit.summaryId →
      b.summaryId ∉ q.requested.map HybridHit.summaryId
  /-- Only `top_n` makes a candidate disappear. -/
  remains : ∀ id ∈ q.union, id ∉ hits.map HybridHit.summaryId → (hits.length : Int) = q.topN

/-! ## The candidates -/

section Candidates

variable [Zero F] {q : Search F}

theorem summaryId_ftsCandidate (f : FtsHit) (i : Nat) :
    (ftsCandidate f i : HybridHit F).summaryId = f.summaryId := rfl

theorem summaryId_semanticCandidate (merged : List (HybridHit F)) (s : SemanticHit F) :
    (semanticCandidate merged s).summaryId = s.summaryId := by
  unfold semanticCandidate
  split
  · rename_i existing hGet
    show existing.summaryId = _
    exact Dict.key_of_get hGet
  · rfl

theorem nodup_candidates (q : Search F) : (q.candidates.map HybridHit.summaryId).Nodup := by
  unfold Search.candidates mergeCandidates
  apply Dict.nodup_keys_setAll
  apply Dict.nodup_keys_setAll
  exact List.nodup_nil

theorem toFinset_candidates (q : Search F) :
    (q.candidates.map HybridHit.summaryId).toFinset = q.union := by
  unfold Search.candidates mergeCandidates Search.union
  rw [Dict.toFinset_keys_setAll summaryId_semanticCandidate,
    Dict.toFinset_keys_setAll fun (_ : List (HybridHit F)) f => summaryId_ftsCandidate f.1 f.2]
  have hIds : q.ftsHits.zipIdx.map (fun f => f.1.summaryId) = q.ftsHits.map FtsHit.summaryId := by
    rw [show (fun f : FtsHit × Nat => f.1.summaryId) = FtsHit.summaryId ∘ Prod.fst from rfl,
      ← List.map_map, List.zipIdx_map_fst]
  rw [hIds, List.map_nil, List.toFinset_nil, Finset.empty_union]

theorem length_candidates (q : Search F) : q.candidates.length = q.union.card := by
  rw [← toFinset_candidates, List.toFinset_card_of_nodup (nodup_candidates q), List.length_map]

theorem mem_union_of_mem {id : SummaryId} (h : id ∈ q.candidates.map HybridHit.summaryId) :
    id ∈ q.union := by
  rw [← toFinset_candidates]
  exact List.mem_toFinset.mpr h

/-- What the hits of the arms have, the candidates have. -/
theorem forall_candidates {P : HybridHit F → Prop} (q : Search F)
    (hFts : ∀ f ∈ q.ftsHits, ∀ i, P (ftsCandidate f i))
    (hSemantic : ∀ merged : List (HybridHit F), (∀ c ∈ merged, P c) →
      ∀ s ∈ q.semHits, P (semanticCandidate merged s)) : ∀ c ∈ q.candidates, P c := by
  unfold Search.candidates mergeCandidates
  apply Dict.forall_setAll hSemantic
  apply Dict.forall_setAll
  · intro _ _ f hF
    exact hFts f.1 (List.fst_mem_of_mem_zipIdx hF) f.2
  · intro c hC
    cases hC

end Candidates

variable {q : Search F}

/-- A hit of the vector arm comes from a search that has returned. -/
theorem exists_result_of_mem_semHits {hit : SemanticHit F} (h : hit ∈ q.semHits) :
    ∃ result, q.runSemanticSearch (Text.strip q.query) q.kSemantic = .ok result ∧
      hit ∈ result.hits := by
  unfold Search.semHits at h
  cases hRun : q.runSemanticSearch (Text.strip q.query) q.kSemantic with
  | ok result =>
    rw [hRun] at h
    exact ⟨result, rfl, h⟩
  | error error =>
    rw [hRun] at h
    cases error with
    | valueError message => cases h
    | semanticSearchUnavailable message => cases h
    | voyageError kind message =>
      cases kind <;> cases h
    | other message => cases h

/-! ## The request -/

theorem packRerank_sublist (budget cumulative : Nat) (candidates : List (HybridHit F)) :
    (packRerank budget cumulative candidates).1.Sublist candidates := by
  induction candidates generalizing cumulative with
  | nil => exact List.Sublist.refl _
  | cons c candidates ih =>
    unfold packRerank
    split
    · exact (ih cumulative).cons c
    · split
      · exact List.nil_sublist _
      · exact (ih _).cons_cons c

theorem requested_sublist [Zero F] (q : Search F) : q.requested.Sublist q.candidates := by
  unfold Search.requested packed
  split
  · exact packRerank_sublist _ _ _
  · exact List.Sublist.refl _

/-- The loop packs the first candidates that are small enough, as many as fit. -/
theorem le_length_packRerank {budget cumulative n : Nat} {candidates : List (HybridHit F)} :
    n ≤ (packRerank budget cumulative candidates).1.length ↔
      n ≤ (candidates.filter fun c => c.candTokens ≤ budget).length ∧ (n = 0 ∨
        cumulative + (((candidates.filter fun c => c.candTokens ≤ budget).take n).map
          HybridHit.candTokens).sum ≤ budget) := by
  induction candidates generalizing cumulative n with
  | nil =>
    rw [packRerank, List.filter_nil, List.length_nil]
    omega
  | cons c candidates ih =>
    unfold packRerank
    by_cases hLarge : budget < c.candTokens
    · rw [if_pos hLarge, List.filter_cons_of_neg (by simpa using hLarge)]
      exact ih
    rw [if_neg hLarge, List.filter_cons_of_pos (by simpa using hLarge)]
    cases n with
    | zero => simp
    | succ n =>
      rw [List.take_succ_cons, List.map_cons, List.sum_cons, List.length_cons]
      by_cases hFull : budget < cumulative + c.candTokens
      · rw [if_pos hFull, List.length_nil]
        omega
      · rw [if_neg hFull, List.length_cons, Nat.add_le_add_iff_right, ih,
          Nat.add_le_add_iff_right, Nat.add_assoc]
        refine and_congr_right fun _ => ?_
        constructor
        · rintro (rfl | hSum)
          · exact Or.inr (by simpa using hFull)
          · exact Or.inr hSum
        · rintro (hZero | hSum)
          · omega
          · exact Or.inr hSum

theorem length_requested_le [Zero F] (q : Search F) : q.requested.length ≤ q.union.card := by
  rw [← length_candidates]
  exact (requested_sublist q).length_le

variable {resp : RerankResult F}

/-- A request that is answered has so many candidates if and only if they fit. -/
theorem le_length_requested_iff [Zero F] (hAnswer : q.answer = some resp) {n : Nat} :
    n ≤ q.requested.length ↔ q.Fits n := by
  have hRerank : q.rerank = true := by
    by_contra hOff
    unfold Search.answer callRerank at hAnswer
    rw [if_neg fun hBoth => hOff hBoth.1] at hAnswer
    cases hAnswer
  unfold Search.requested packed Search.Fits Search.small
  rw [if_pos hRerank]
  exact le_length_packRerank

variable {requested : List (HybridHit F)}

/-- The hits of an answer have its ids and its scores, in its order. -/
theorem rerankHits_eq (hInput : ∀ r ∈ resp.results, r.id ∈ requested.map HybridHit.summaryId) :
    (rerankHits requested resp).map (fun c => (c.summaryId, c.score)) =
      resp.results.map fun r => (r.id, r.score) := by
  unfold rerankHits
  generalize resp.results = results at hInput
  induction results with
  | nil => rfl
  | cons r results ih =>
    obtain ⟨c, hGet⟩ := Dict.exists_get (hInput r List.mem_cons_self)
    have hKey : c.summaryId = r.id := Dict.key_of_get hGet
    rw [List.filterMap_cons, hGet, Option.map_some, List.map_cons, List.map_cons,
      ih fun r' hr' => hInput r' (List.mem_cons_of_mem _ hr'), hKey]

theorem length_rerankHits (hInput : ∀ r ∈ resp.results, r.id ∈ requested.map HybridHit.summaryId) :
    (rerankHits requested resp).length = resp.results.length := by
  have := congrArg List.length (rerankHits_eq hInput)
  rwa [List.length_map, List.length_map] at this

/-! ## The hits of the two rankings -/

theorem sublist_sliceTo {α : Type} (topN : Int) (l : List α) : (sliceTo topN l).Sublist l := by
  unfold sliceTo
  split <;> exact List.take_sublist _ _

theorem length_sliceTo {α : Type} {topN : Int} (h : 0 ≤ topN) (l : List α) :
    ((sliceTo topN l).length : Int) = min topN l.length := by
  unfold sliceTo
  rw [if_pos h, List.length_take]
  omega

/-- What is missing of the union is counted. -/
theorem remains_of_count {hits : List (HybridHit F)}
    (hDistinct : (hits.map HybridHit.summaryId).Nodup) (hFound : ∀ h ∈ hits, h.summaryId ∈ q.union)
    (hCount : (hits.length : Int) = min q.topN q.union.card) {id : SummaryId}
    (hId : id ∈ q.union) (hMissing : id ∉ hits.map HybridHit.summaryId) :
    (hits.length : Int) = q.topN := by
  have hSubset : (hits.map HybridHit.summaryId).toFinset ⊆ q.union.erase id := by
    intro other hOther
    have hMem := List.mem_toFinset.mp hOther
    obtain ⟨h, hHit, rfl⟩ := List.mem_map.mp hMem
    refine Finset.mem_erase.mpr ⟨?_, hFound h hHit⟩
    rintro rfl
    exact hMissing hMem
  have hCard := Finset.card_le_card hSubset
  rw [List.toFinset_card_of_nodup hDistinct, List.length_map, Finset.card_erase_of_mem hId] at hCard
  have hPos := Finset.card_pos.mpr ⟨id, hId⟩
  omega

variable [LinearOrder F]

theorem pairwise_insertionSort_score (candidates : List (HybridHit F)) :
    (candidates.insertionSort fun a b => b.score ≤ a.score).Pairwise
      fun a b => b.score ≤ a.score := by
  have : Std.Total fun a b : HybridHit F => b.score ≤ a.score :=
    ⟨fun a b => le_total b.score a.score⟩
  have : IsTrans (HybridHit F) fun a b => b.score ≤ a.score :=
    ⟨fun _ _ _ hab hbc => hbc.trans hab⟩
  exact List.pairwise_insertionSort _ _

theorem RerankResult.Ranks.length_le
    (h : resp.Ranks requested) : resp.results.length ≤ requested.length := by
  have hSub : resp.results.map RerankItem.id ⊆ requested.map HybridHit.summaryId := by
    intro id hId
    obtain ⟨r, hr, rfl⟩ := List.mem_map.mp hId
    exact h.input r hr
  have hLength := (h.distinct.subperm hSub).length_le
  rwa [List.length_map, List.length_map] at hLength

variable [Zero F] {q : Search F}

/-- The hits of an answer keep every candidate if they are as many as there should be. -/
theorem keepsCandidates_rerankHits (hRanks : resp.Ranks q.requested)
    (hCount : (resp.results.length : Int) = min q.topN q.union.card) :
    KeepsCandidates q (rerankHits q.requested resp) := by
  have hEq := rerankHits_eq hRanks.input
  have hIds : (rerankHits q.requested resp).map HybridHit.summaryId =
      resp.results.map RerankItem.id := by
    have := congrArg (List.map Prod.fst) hEq
    rwa [List.map_map, List.map_map] at this
  have hScores : (rerankHits q.requested resp).map HybridHit.score =
      resp.results.map RerankItem.score := by
    have := congrArg (List.map Prod.snd) hEq
    rwa [List.map_map, List.map_map] at this
  have hRequested : ∀ h ∈ rerankHits q.requested resp,
      h.summaryId ∈ q.requested.map HybridHit.summaryId := by
    intro h hHit
    have hMem : h.summaryId ∈ resp.results.map RerankItem.id :=
      hIds ▸ List.mem_map_of_mem hHit
    obtain ⟨r, hr, hId⟩ := List.mem_map.mp hMem
    exact hId ▸ hRanks.input r hr
  have hDistinct : ((rerankHits q.requested resp).map HybridHit.summaryId).Nodup :=
    hIds ▸ hRanks.distinct
  have hFound : ∀ h ∈ rerankHits q.requested resp, h.summaryId ∈ q.union := fun h hHit =>
    mem_union_of_mem (((requested_sublist q).map _).mem (hRequested h hHit))
  rw [← length_rerankHits hRanks.input] at hCount
  refine ⟨hDistinct, hFound, ?_, hCount, fun _ => ?_, fun id hId hMissing =>
    remains_of_count hDistinct hFound hCount hId hMissing⟩
  · refine List.pairwise_map.mp (?_ : (List.map HybridHit.score _).Pairwise fun a b => b ≤ a)
    rw [hScores]
    exact List.pairwise_map.mpr hRanks.sorted
  · refine List.pairwise_of_forall_mem_list ?_
    intro a ha b _ hOut
    exact absurd (hRequested a ha) hOut

variable [One F] [Add F] [Div F] [NatCast F] {result : HybridSearchResult F}

/-- The fusion ranks the candidates, whatever their scores are. -/
theorem rrfHits_spec (topN : Int) (semHits : List (SemanticHit F))
    (candidates : List (HybridHit F)) :
    (∃ ranked : List (HybridHit F), rrfHits topN semHits candidates = sliceTo topN ranked ∧
      (ranked.map HybridHit.summaryId).Perm (candidates.map HybridHit.summaryId)) ∧
    (rrfHits topN semHits candidates).Pairwise fun a b => b.score ≤ a.score := by
  refine ⟨⟨_, rfl, ?_⟩, (pairwise_insertionSort_score _).sublist (sublist_sliceTo _ _)⟩
  refine ((List.perm_insertionSort _ _).map HybridHit.summaryId).trans ?_
  rw [List.map_map]
  exact List.Perm.refl _

/-- A search that returns has ranked the hits of its arms. -/
theorem exists_rankCandidates (h : runHybridSearch q = .ok result) :
    ∃ semResult : Option (SemanticSearchResult F),
      q.semHits = (semResult.map SemanticSearchResult.hits).getD [] ∧
        rankCandidates q q.ftsHits semResult = .ok result := by
  unfold runHybridSearch at h
  simp only at h
  split at h
  · cases h
  split at h
  · cases h
  rename_i ftsHits hFts
  split at h
  · cases h
  rename_i semResult hSem
  refine ⟨semResult, ?_, ?_⟩
  · unfold Search.semHits
    rw [hSem]
    cases semResult <;> rfl
  · unfold Search.ftsHits
    rw [hFts]
    exact h

/-- It has the hits of the answer, or of the fusion if there is none. -/
theorem hits_cases (h : runHybridSearch q = .ok result) :
    (∃ resp, q.answer = some resp ∧ result.hits = rerankHits q.requested resp) ∨
      q.answer = none ∧ result.hits = rrfHits q.topN q.semHits q.candidates := by
  obtain ⟨semResult, hSem, h⟩ := exists_rankCandidates h
  unfold rankCandidates at h
  simp only [← hSem] at h
  rw [show mergeCandidates q.ftsHits q.semHits = q.candidates from rfl,
    show (packed q q.candidates).1 = q.requested from rfl] at h
  unfold Search.answer
  split at h
  · rename_i hEmpty
    have hNil : q.candidates = [] := List.length_eq_zero_iff.mp hEmpty
    have hRequested : q.requested = [] :=
      List.sublist_nil.mp (hNil ▸ requested_sublist q)
    have hAnswer : callRerank q q.requested = none := by
      unfold callRerank
      rw [hRequested, if_neg fun hBoth => hBoth.2 rfl]
    have hSlice : rrfHits q.topN q.semHits q.candidates = [] := by
      rw [hNil]
      exact List.sublist_nil.mp (sublist_sliceTo q.topN [])
    rw [hAnswer, hSlice]
    obtain rfl := Except.ok.inj h
    exact Or.inr ⟨rfl, rfl⟩
  · cases hCall : callRerank q q.requested with
    | none =>
      rw [hCall] at h
      obtain rfl := Except.ok.inj h
      exact Or.inr ⟨rfl, rfl⟩
    | some reply =>
      rw [hCall] at h
      cases reply with
      | ok resp =>
        obtain rfl := Except.ok.inj h
        exact Or.inl ⟨resp, rfl, rfl⟩
      | error error =>
        refine Or.inr ⟨rfl, ?_⟩
        cases error with
        | voyageError kind message =>
          simp only at h
          split at h
          · cases h
          · obtain rfl := Except.ok.inj h
            rfl
        | valueError message => cases h
        | semanticSearchUnavailable message => cases h
        | other message => cases h

/-- A hit is a candidate with another score. -/
theorem exists_candidate_of_hit (h : runHybridSearch q = .ok result) {hit : HybridHit F}
    (hHit : hit ∈ result.hits) : ∃ c ∈ q.candidates, hit = { c with score := hit.score } := by
  rcases hits_cases h with ⟨resp, -, hHits⟩ | ⟨-, hHits⟩
  · rw [hHits] at hHit
    obtain ⟨r, -, hGet⟩ := List.mem_filterMap.mp hHit
    obtain ⟨c, hC, rfl⟩ := Option.map_eq_some_iff.mp hGet
    exact ⟨c, (requested_sublist q).mem (Dict.mem_of_get hC), rfl⟩
  · rw [hHits] at hHit
    have hSorted := (sublist_sliceTo _ _).mem hHit
    obtain ⟨c, hC, rfl⟩ := List.mem_map.mp ((List.perm_insertionSort _ _).mem_iff.mp hSorted)
    exact ⟨c, hC, rfl⟩

/-! ## When no candidate is lost -/

/-- There is no answer to a rerank request, or it has the number of documents that was asked
for, and what the search should return fits into one request. -/
def Answered (q : Search F) : Prop :=
  0 ≤ q.topN ∧ ∀ resp, q.answer = some resp →
    (resp.results.length : Int) = min q.topN q.requested.length ∧
      q.Fits (min q.topN.toNat q.union.card)

/-- The fusion keeps every candidate. -/
theorem keepsCandidates_rrfHits (hTopN : 0 ≤ q.topN) (hAnswer : q.answer = none) :
    KeepsCandidates q (rrfHits q.topN q.semHits q.candidates) := by
  obtain ⟨⟨ranked, hRanked, hPerm⟩, hSorted⟩ :=
    rrfHits_spec q.topN q.semHits q.candidates
  have hSub : ((rrfHits q.topN q.semHits q.candidates).map HybridHit.summaryId).Sublist
      (ranked.map HybridHit.summaryId) := by
    rw [hRanked]
    exact (sublist_sliceTo _ _).map _
  have hDistinct := hSub.nodup (hPerm.nodup_iff.mpr (nodup_candidates q))
  have hFound : ∀ h ∈ rrfHits q.topN q.semHits q.candidates, h.summaryId ∈ q.union :=
    fun h hHit => mem_union_of_mem (hPerm.mem_iff.mp (hSub.mem (List.mem_map_of_mem hHit)))
  have hCount : ((rrfHits q.topN q.semHits q.candidates).length : Int) =
      min q.topN q.union.card := by
    have hLength := hPerm.length_eq
    rw [List.length_map, List.length_map, length_candidates] at hLength
    rw [hRanked, length_sliceTo hTopN, hLength]
  refine ⟨hDistinct, hFound, hSorted, hCount, ?_, fun id hId hMissing =>
    remains_of_count hDistinct hFound hCount hId hMissing⟩
  intro hSome
  rw [hAnswer] at hSome
  cases hSome

/-- A search that returns keeps its candidates if and only if an answer to the rerank request,
if there is one, has all it should. -/
theorem keepsCandidates_iff (h : runHybridSearch q = .ok result)
    (hReranker : ∀ resp, q.answer = some resp → resp.Ranks q.requested) :
    KeepsCandidates q result.hits ↔ Answered q := by
  rcases hits_cases h with ⟨resp, hAnswer, hHits⟩ | ⟨hAnswer, hHits⟩
  · have hRanks := hReranker resp hAnswer
    have hAtMost := hRanks.length_le
    have hRequested := length_requested_le q
    rw [hHits]
    constructor
    · intro hKeeps
      have hCount := hKeeps.count
      rw [length_rerankHits hRanks.input] at hCount
      refine ⟨by omega, ?_⟩
      intro other hOther
      rw [hAnswer] at hOther
      obtain rfl := Option.some.inj hOther
      rw [← le_length_requested_iff hAnswer]
      omega
    · rintro ⟨hTopN, hAnswered⟩
      obtain ⟨hCount, hFits⟩ := hAnswered resp hAnswer
      rw [← le_length_requested_iff hAnswer] at hFits
      apply keepsCandidates_rerankHits hRanks
      omega
  · rw [hHits]
    constructor
    · intro hKeeps
      have hCount := hKeeps.count
      refine ⟨by omega, ?_⟩
      intro resp hResp
      rw [hAnswer] at hResp
      cases hResp
    · rintro ⟨hTopN, -⟩
      exact keepsCandidates_rrfHits hTopN hAnswer

/-! ## Two large documents -/

section TwoLarge

def largeHit (id : SummaryId) (rank : Nat) : FtsHit :=
  { summaryId := id, conversationId := 1, sessionKey := "sk1", kind := .leaf, content := id
    tokenCount := 300000, createdAt := 0, rank := rank }

/-- A reranker that gives every document the same score, and returns `top_k` of them. -/
def evenReranker : VoyageClient ℚ where
  rerank := fun _ documents _ topK =>
    .ok ⟨(documents.take topK.toNat).map fun d => ⟨d.1, (9 / 10 : ℚ)⟩, 12⟩

/-- The vector arm is not available. -/
def twoLarge (topN : Int) : Search ℚ :=
  { query := "x"
    ftsSearch := fun _ _ => .ok [largeHit "leaf_0" 0, largeHit "leaf_1" 1]
    runSemanticSearch := fun _ _ => .error (.semanticSearchUnavailable "vec0 is not loaded")
    voyage := some evenReranker
    topN := topN }

theorem not_keepsCandidates_large :
    ∃ result : HybridSearchResult ℚ, runHybridSearch (twoLarge 20) = .ok result ∧
      (∀ resp, (twoLarge 20).answer = some resp → resp.Ranks (twoLarge 20).requested) ∧
      result.hits.map HybridHit.summaryId = ["leaf_0"] ∧
      (twoLarge 20).union = {"leaf_0", "leaf_1"} ∧
      ¬ KeepsCandidates (twoLarge 20) result.hits := by
  refine ⟨_, rfl, ?_, rfl, by decide, ?_⟩
  · rintro resp ⟨⟩
    exact ⟨by decide, by decide, by decide⟩
  · intro hKeeps
    have hCount := hKeeps.count
    revert hCount
    decide

theorem keepsCandidates_iff_one :
    ∃ result : HybridSearchResult ℚ, runHybridSearch (twoLarge 1) = .ok result ∧
      (KeepsCandidates (twoLarge 1) result.hits ↔ Answered (twoLarge 1)) := by
  refine ⟨_, rfl, keepsCandidates_iff rfl ?_⟩
  rintro resp ⟨⟩
  exact ⟨by decide, by decide, by decide⟩

end TwoLarge

end LosslessHermes.HybridSearch
