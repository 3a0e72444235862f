import LosslessHermes.Embeddings.BackfillTick
import LosslessHermes.Library.Dict

/-!
# Hybrid search

`run_hybrid_search` merges the hits of the full-text arm and of the vector arm, packs the
candidates that fit into one rerank request, and ranks by the reranker, or by reciprocal
rank fusion where there is no answer from it. The two arms and the client of the reranker
are parameters; the filters are forwarded to the arms as they are and left out.
-/

namespace LosslessHermes.HybridSearch

def MAX_TOKENS_PER_RERANK_CALL : Nat := 600000

def DEFAULT_K_FTS : Int := 50

def DEFAULT_K_SEMANTIC : Int := 50

def DEFAULT_TOP_N : Int := 20

def RRF_K : Nat := 60

variable {F : Type}

/-! ## The arms and the reranker -/

inductive Exception
  | valueError (message : String)
  | semanticSearchUnavailable (message : String)
  | voyageError (kind : VoyageErrorKind) (message : String)
  | other (message : String)
  deriving DecidableEq, Repr

structure FtsHit where
  summaryId : SummaryId
  conversationId : ConversationId
  sessionKey : String
  kind : SummaryKind
  content : String
  tokenCount : Nat
  createdAt : Timestamp
  rank : Nat
  deriving DecidableEq, Repr

structure SemanticHit (F : Type) where
  summaryId : SummaryId
  distance : F
  cosineSimilarity : F
  conversationId : ConversationId
  sessionKey : String
  kind : SummaryKind
  content : String
  tokenCount : Nat
  createdAt : Timestamp
  deriving DecidableEq, Repr

structure SemanticSearchResult (F : Type) where
  hits : List (SemanticHit F)
  voyageTokensConsumed : Nat
  modelName : String
  deriving DecidableEq, Repr

structure RerankItem (F : Type) where
  id : SummaryId
  score : F
  deriving DecidableEq, Repr

structure RerankResult (F : Type) where
  results : List (RerankItem F)
  totalTokens : Nat
  deriving DecidableEq, Repr

/-- `VoyageClient.rerank`: the query, pairs of an id and a text, the model and `top_k`. -/
structure VoyageClient (F : Type) where
  rerank : String → List (SummaryId × String) → String → Int →
    Except Exception (RerankResult F)

structure HybridHit (F : Type) where
  summaryId : SummaryId
  conversationId : ConversationId
  sessionKey : String
  kind : SummaryKind
  content : String
  tokenCount : Nat
  createdAt : Timestamp
  score : F
  fromFts : Bool
  fromSemantic : Bool
  semanticDistance : Option F
  cosineSimilarity : Option F
  ftsRank : Option Nat
  deriving DecidableEq, Repr

structure HybridSearchResult (F : Type) where
  hits : List (HybridHit F)
  candidateCount : Nat
  voyageTokensConsumed : Nat
  degradedToFtsOnly : Bool
  degradedSkippedRerank : Bool
  rerankPackTruncated : Bool
  rerankPackedCount : Nat
  model : String
  rerankerModel : Option String
  deriving DecidableEq, Repr

/-- The arguments of `run_hybrid_search`; the filters are part of the two arms. -/
structure Search (F : Type) where
  query : String
  ftsSearch : String → Int → Except Exception (List FtsHit)
  runSemanticSearch : String → Int → Except Exception (SemanticSearchResult F)
  voyage : Option (VoyageClient F)
  kFts : Int := DEFAULT_K_FTS
  kSemantic : Int := DEFAULT_K_SEMANTIC
  topN : Int := DEFAULT_TOP_N
  rerank : Bool := true
  rerankerModel : String := "rerank-2.5"

/-- Anything but a refused key leaves the search to the full-text arm. -/
def semanticWithDegrade :
    Except Exception (SemanticSearchResult F) → Except Exception (Option (SemanticSearchResult F))
  | .ok result => .ok (some result)
  | .error (.semanticSearchUnavailable _) => .ok none
  | .error (.voyageError kind message) =>
      if kind = .auth then .error (.voyageError kind message) else .ok none
  | .error error => .error error

/-! ## The candidates -/

section Candidates

variable [Zero F]

def ftsCandidate (f : FtsHit) (i : Nat) : HybridHit F :=
  { summaryId := f.summaryId
    conversationId := f.conversationId
    sessionKey := f.sessionKey
    kind := f.kind
    content := f.content
    tokenCount := f.tokenCount
    createdAt := f.createdAt
    score := 0
    fromFts := true
    fromSemantic := false
    semanticDistance := none
    cosineSimilarity := none
    ftsRank := some i }

/-- The candidate of a hit of the vector arm, which may already be there. -/
def semanticCandidate (merged : List (HybridHit F)) (s : SemanticHit F) : HybridHit F :=
  match Dict.get HybridHit.summaryId s.summaryId merged with
  | some existing =>
      { existing with
        fromSemantic := true
        semanticDistance := some s.distance
        cosineSimilarity := some s.cosineSimilarity }
  | none =>
      { summaryId := s.summaryId
        conversationId := s.conversationId
        sessionKey := s.sessionKey
        kind := s.kind
        content := s.content
        tokenCount := s.tokenCount
        createdAt := s.createdAt
        score := 0
        fromFts := false
        fromSemantic := true
        semanticDistance := some s.distance
        cosineSimilarity := some s.cosineSimilarity
        ftsRank := none }

def mergeCandidates (ftsHits : List FtsHit) (semHits : List (SemanticHit F)) :
    List (HybridHit F) :=
  Dict.setAll HybridHit.summaryId semanticCandidate semHits
    (Dict.setAll HybridHit.summaryId (fun _ f => ftsCandidate f.1 f.2) ftsHits.zipIdx [])

end Candidates

/-! ## The rerank request -/

/-- `math.ceil(len(text) / 4)` -/
def estimate (text : String) : Nat :=
  (text.length + 3) / 4

/-- `math.floor(MAX_TOKENS_PER_RERANK_CALL * 0.85)` -/
def rerankBudget : Nat :=
  MAX_TOKENS_PER_RERANK_CALL * 85 / 100

def HybridHit.candTokens (c : HybridHit F) : Nat :=
  if c.tokenCount = 0 then estimate c.content else c.tokenCount

/-- The loop over the candidates: those that are packed, and whether any was left out. -/
def packRerank (budget : Nat) : Nat → List (HybridHit F) → List (HybridHit F) × Bool
  | _, [] => ([], false)
  | cumulative, c :: candidates =>
      if budget < c.candTokens then
        ((packRerank budget cumulative candidates).1, true)
      else if budget < cumulative + c.candTokens then ([], true)
      else
        let rest := packRerank budget (cumulative + c.candTokens) candidates
        (c :: rest.1, rest.2)

/-- The answer by the ids of the request; an id that was not in it is skipped. -/
def rerankHits (packed : List (HybridHit F)) (resp : RerankResult F) : List (HybridHit F) :=
  resp.results.filterMap fun r =>
    (Dict.get HybridHit.summaryId r.id packed).map fun c => { c with score := r.score }

/-! ## Reciprocal rank fusion -/

section Fusion

variable [LinearOrder F] [Zero F] [One F] [Add F] [Div F] [NatCast F]

/-- The last place at which the vector arm has the id. -/
def semIdx (semHits : List (SemanticHit F)) (id : SummaryId) : Option Nat :=
  (semHits.zipIdx.reverse.find? fun h => h.1.summaryId = id).map Prod.snd

def rrfScore (semHits : List (SemanticHit F)) (c : HybridHit F) : F :=
  let score : F := 0
  let score :=
    match c.ftsRank with
    | some rank => score + 1 / ((RRF_K + rank : Nat) : F)
    | none => score
  if c.fromSemantic then
    match semIdx semHits c.summaryId with
    | some i => score + 1 / ((RRF_K + i : Nat) : F)
    | none => score
  else score

/-- `candidates[:top_n]` -/
def sliceTo {α : Type} (topN : Int) (l : List α) : List α :=
  if 0 ≤ topN then l.take topN.toNat else l.take (l.length + topN).toNat

def rrfHits (topN : Int) (semHits : List (SemanticHit F)) (candidates : List (HybridHit F)) :
    List (HybridHit F) :=
  sliceTo topN ((candidates.map fun c => { c with score := rrfScore semHits c }).insertionSort
    fun a b => b.score ≤ a.score)

end Fusion

/-! ## The search -/

section Run

variable [LinearOrder F] [Zero F] [One F] [Add F] [Div F] [NatCast F]

/-- What is packed of the candidates, and whether any was left out. -/
def packed (q : Search F) (candidates : List (HybridHit F)) : List (HybridHit F) × Bool :=
  if q.rerank then packRerank rerankBudget (estimate (Text.strip q.query)) candidates
  else (candidates, false)

/-- The answer to the rerank request, if one is sent. -/
def callRerank (q : Search F) (packed : List (HybridHit F)) :
    Option (Except Exception (RerankResult F)) :=
  if q.rerank = true ∧ packed ≠ [] then
    q.voyage.map fun client =>
      client.rerank (Text.strip q.query) (packed.map fun c => (c.summaryId, c.content))
        q.rerankerModel (min q.topN packed.length)
  else none

/-- The search after the two arms. -/
def rankCandidates (q : Search F) (ftsHits : List FtsHit)
    (semResult : Option (SemanticSearchResult F)) :
    Except Exception (HybridSearchResult F) :=
  let semHits := (semResult.map SemanticSearchResult.hits).getD []
  let tokens := (semResult.map SemanticSearchResult.voyageTokensConsumed).getD 0
  let model := (semResult.map SemanticSearchResult.modelName).getD ""
  let candidates := mergeCandidates ftsHits semHits
  if candidates.length = 0 then
    .ok
      { hits := []
        candidateCount := 0
        voyageTokensConsumed := tokens
        degradedToFtsOnly := semResult.isNone
        degradedSkippedRerank := false
        rerankPackTruncated := false
        rerankPackedCount := 0
        model := model
        rerankerModel := none }
  else
    let (rerankPacked, truncated) := packed q candidates
    let fallback (skipped : Bool) : HybridSearchResult F :=
      { hits := rrfHits q.topN semHits candidates
        candidateCount := candidates.length
        voyageTokensConsumed := tokens
        degradedToFtsOnly := semResult.isNone
        degradedSkippedRerank := skipped
        rerankPackTruncated := truncated
        rerankPackedCount := 0
        model := model
        rerankerModel := none }
    match callRerank q rerankPacked with
    | some (.ok resp) =>
        .ok
          { hits := rerankHits rerankPacked resp
            candidateCount := candidates.length
            voyageTokensConsumed := tokens + resp.totalTokens
            degradedToFtsOnly := semResult.isNone
            degradedSkippedRerank := false
            rerankPackTruncated := truncated
            rerankPackedCount := rerankPacked.length
            model := model
            rerankerModel := some q.rerankerModel }
    | some (.error (.voyageError kind message)) =>
        if kind = .auth then .error (.voyageError kind message) else .ok (fallback true)
    | some (.error error) => .error error
    -- nothing was packed, there is no client, or no reranking was asked for
    | none => .ok (fallback q.rerank)

def runHybridSearch (q : Search F) : Except Exception (HybridSearchResult F) :=
  let query := Text.strip q.query
  if query = "" then .error (.valueError "[hybrid-search] query is required")
  else
    match q.ftsSearch query q.kFts with
    | .error error => .error error
    | .ok ftsHits =>
        match semanticWithDegrade (q.runSemanticSearch query q.kSemantic) with
        | .error error => .error error
        | .ok semResult => rankCandidates q ftsHits semResult

end Run

end LosslessHermes.HybridSearch
