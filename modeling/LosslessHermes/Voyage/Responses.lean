import LosslessHermes.Library.Scatter
import LosslessHermes.Voyage.Retry

/-!
# Answers of the embedding service

The parsers walk the JSON value of an answer with a success status and raise a `VoyageError` where
a check fails. What the code takes from Python's conversions to `float` is a parameter; the order
of the numbers is that of doubles.

`responsesValidated_iff` says when an answer is handled as it should be.
-/

namespace LosslessHermes.Voyage

open Scatter

/-! ## Numbers -/

/-- Conversions of the standard library: of a float literal, and of a text, which is none on a
`ValueError`. `repr` is the text of a value in a message. -/
structure PyReading where
  ofLiteral : FloatText → ParsedFloat
  ofText : String → Option ParsedFloat
  repr : Json → String

/-- The errors of a parser. -/
inductive ParseFailure
  | voyage (error : VoyageError)
  | attributeError (message : String)
  | typeError (message : String)
  | valueError (message : String)
  | overflowError (message : String)
  deriving DecidableEq, Repr

def ParseFailure.isVoyage : ParseFailure → Bool
  | .voyage _ => true
  | _ => false

/-- `type(v).__name__` -/
def typeName : Json → String
  | .null => "NoneType"
  | .bool _ => "bool"
  | .int _ => "int"
  | .float _ => "float"
  | .str _ => "str"
  | .arr _ => "list"
  | .obj _ => "dict"

/-- The double nearest to an integer, if it is not beyond the greatest one. -/
def floatOfInt (n : Int) : Option ParsedFloat :=
  let size := Assembler.nearestDouble n.natAbs
  if size < 2 ^ (1024 : Nat) then some (.finite (if n < 0 then -size else size)) else none

/-- `float(v)` -/
def toFloat (py : PyReading) : Json → Except ParseFailure ParsedFloat
  | .bool b => .ok (.finite (if b then 1 else 0))
  | .int n =>
      match floatOfInt n with
      | some x => .ok x
      | none => .error (.overflowError "int too large to convert to float")
  | .float x => .ok (py.ofLiteral x)
  | .str s =>
      match py.ofText s with
      | some x => .ok x
      | none => .error (.valueError ("could not convert string to float: " ++ py.repr (.str s)))
  | v =>
      .error (.typeError
        ("float() argument must be a string or a real number, not '" ++ typeName v ++ "'"))

/-- `isinstance(v, (int, float)) and not isinstance(v, bool)` -/
def isNumber : Json → Bool
  | .int _ => true
  | .float _ => true
  | _ => false

/-- `x < y` -/
def ParsedFloat.lt : ParsedFloat → ParsedFloat → Bool
  | .finite x, .finite y => x < y
  | .finite _, .infinite negative => !negative
  | .infinite negative, .finite _ => negative
  | .infinite negative, .infinite negative' => negative && !negative'
  | _, _ => false

/-! ## The parsers -/

def unexpected (status : Nat) (message : String) : ParseFailure :=
  .voyage ⟨.unexpected, "voyage_unexpected: " ++ message, some status, none, none⟩

/-- `payload.get`, for a payload that may not be an object. -/
def getFields : Json → Except ParseFailure (List (String × Json))
  | .obj fields => .ok fields
  | v => .error (.attributeError ("'" ++ typeName v ++ "' object has no attribute 'get'"))

def totalTokens (fields : List (String × Json)) : Int :=
  match Json.get? fields "usage" with
  | some (.obj usage) =>
      match Json.get? usage "total_tokens" with
      | some (.int n) => n
      | some (.bool b) => if b then 1 else 0
      | _ => 0
  | _ => 0

def modelOr (fields : List (String × Json)) (modelHint : String) : String :=
  match Json.get? fields "model" with
  | some (.str model) => model
  | _ => modelHint

structure EmbedResult where
  vectors : List (List ParsedFloat)
  totalTokens : Int
  model : String
  deriving DecidableEq, Repr

/-- The length of the first embedding, 0 when there is none. -/
def firstDims (data : List Json) : Nat :=
  match data with
  | .obj fields :: _ =>
      match Json.get? fields "embedding" with
      | some (.arr emb) => emb.length
      | _ => 0
  | _ => 0

def badIndex (py : PyReading) (status expected : Nat) (idx : Option Json) : ParseFailure :=
  unexpected status ("bad index " ++ py.repr (idx.getD .null) ++ " (batch size " ++
    toString expected ++ ")")

def dimensionMismatch (status dims : Nat) (got : String) : ParseFailure :=
  unexpected status ("dimension mismatch in batch (expected " ++ toString dims ++ ", got " ++
    got ++ ")")

def embedItem (py : PyReading) (status expected dims : Nat) :
    Json → Except ParseFailure (Nat × List ParsedFloat)
  | .obj fields =>
      match Json.get? fields "embedding" with
      | some (.arr emb) =>
          if emb.length ≠ dims then
            .error (dimensionMismatch status dims ("length " ++ toString emb.length))
          else
            match Json.get? fields "index" with
            | some (.int idx) =>
                if idx < 0 ∨ (expected : Int) ≤ idx then
                  .error (badIndex py status expected (some (.int idx)))
                else (checkAll (toFloat py) emb).map fun vector => (idx.toNat, vector)
            | idx => .error (badIndex py status expected idx)
      | _ => .error (dimensionMismatch status dims "non-array")
  | v => .error (unexpected status ("embedding item is not an object (got " ++ typeName v ++ ")"))

def embedItems (py : PyReading) (status expected dims : Nat) :
    List Json → List (Option (List ParsedFloat)) →
      Except ParseFailure (List (Option (List ParsedFloat)))
  | [], vectors => .ok vectors
  | item :: rest, vectors =>
      match embedItem py status expected dims item with
      | .error e => .error e
      | .ok (idx, vector) =>
          embedItems py status expected dims rest (vectors.set idx (some vector))

/-- The body is an error when it is no JSON. -/
def parseEmbedResponse (py : PyReading) (status : Nat) (body : Except String Json)
    (expected : Nat) (modelHint : String) : Except ParseFailure EmbedResult :=
  match body with
  | .error e =>
      .error (unexpected status ("embeddings response was not valid JSON (" ++ e ++ ")"))
  | .ok payload =>
      match getFields payload with
      | .error e => .error e
      | .ok fields =>
          let shape (got : String) : ParseFailure :=
            unexpected status ("embeddings response shape — expected data[" ++
              toString expected ++ "], got " ++ got)
          match Json.get? fields "data" with
          | some (.arr data) =>
              if data.length ≠ expected then
                .error (shape ("data[" ++ toString data.length ++ "]"))
              else
                match embedItems py status expected (firstDims data) data
                    (List.replicate expected none) with
                | .error e => .error e
                | .ok vectors =>
                    match vectors.findIdx? (·.isNone) with
                    | some i =>
                        .error (unexpected status ("missing embedding for index " ++ toString i))
                    | none =>
                        .ok ⟨vectors.map (·.getD []), totalTokens fields,
                          modelOr fields modelHint⟩
          | _ => .error (shape "no data array")

structure RerankItem where
  id : String
  index : Nat
  score : ParsedFloat
  deriving DecidableEq, Repr

structure RerankResult where
  results : List RerankItem
  totalTokens : Int
  model : String
  deriving DecidableEq, Repr

def badRerankItem (py : PyReading) (status : Nat) (idx score : Option Json) : ParseFailure :=
  unexpected status ("bad rerank item (index=" ++ py.repr (idx.getD .null) ++ ", score=" ++
    py.repr (score.getD .null) ++ ")")

def rerankItem (py : PyReading) (status : Nat) (candidates : List (String × String)) :
    Json → Except ParseFailure RerankItem
  | .obj fields =>
      let idx := Json.get? fields "index"
      let score := Json.get? fields "relevance_score"
      match idx, score with
      | some (.int i), some s =>
          if i < 0 ∨ (candidates.length : Int) ≤ i ∨ isNumber s = false then
            .error (badRerankItem py status idx score)
          else
            (toFloat py s).map fun x => ⟨(candidates.getD i.toNat ("", "")).1, i.toNat, x⟩
      | _, _ => .error (badRerankItem py status idx score)
  | _ => .error (unexpected status "rerank item is not an object")

def parseRerankResponse (py : PyReading) (status : Nat) (body : Except String Json)
    (candidates : List (String × String)) (modelHint : String) :
    Except ParseFailure RerankResult :=
  match body with
  | .error e => .error (unexpected status ("rerank response was not valid JSON (" ++ e ++ ")"))
  | .ok payload =>
      match getFields payload with
      | .error e => .error e
      | .ok fields =>
          match Json.get? fields "data" with
          | some (.arr data) =>
              match checkAll (rerankItem py status candidates) data with
              | .error e => .error e
              | .ok items =>
                  .ok ⟨items.mergeSort fun a b => !a.score.lt b.score, totalTokens fields,
                    modelOr fields modelHint⟩
          | _ => .error (unexpected status "rerank response missing data array")

/-! ## What a valid answer is -/

/-- The items of a body. -/
def dataOf : Except String Json → Option (List Json)
  | .ok (.obj fields) =>
      match Json.get? fields "data" with
      | some (.arr data) => some data
      | _ => none
  | _ => none

def fieldOf (key : String) : Json → Option Json
  | .obj fields => Json.get? fields key
  | _ => none

def indexOf (item : Json) : Option Nat :=
  match fieldOf "index" item with
  | some (.int i) => if i < 0 then none else some i.toNat
  | _ => none

def embeddingOf (item : Json) : Option (List Json) :=
  match fieldOf "embedding" item with
  | some (.arr emb) => some emb
  | _ => none

def isObject : Json → Bool
  | .obj _ => true
  | _ => false

/-- The indices of `n` items are a permutation of `0 .. n - 1`, and their vectors are numeric and
of one dimension. -/
structure EmbedData (n : Nat) (data : List Json) : Prop where
  indices : (data.map indexOf).Perm ((List.range n).map some)
  vectors : ∃ dims, ∀ item ∈ data, ∃ emb, embeddingOf item = some emb ∧ emb.length = dims ∧
    ∀ x ∈ emb, isNumber x = true

def EmbedBody (n : Nat) (body : Except String Json) : Prop :=
  ∃ data, dataOf body = some data ∧ EmbedData n data

/-- Vector `i` of a result is that of the item with index `i`. -/
def Delivers (py : PyReading) (n : Nat) (body : Except String Json) (result : EmbedResult) :
    Prop :=
  result.vectors.length = n ∧ ∀ data, dataOf body = some data → ∀ item ∈ data,
    ∃ i emb vector, indexOf item = some i ∧ embeddingOf item = some emb ∧
      checkAll (toFloat py) emb = .ok vector ∧ result.vectors[i]? = some vector

section Answers

variable (py : PyReading) (status : Nat) (modelHint : String)

/-- A valid body is delivered; any other raises a `VoyageError`. -/
structure EmbedValidated (n : Nat) (body : Except String Json) : Prop where
  delivered : EmbedBody n body →
    ∃ result, parseEmbedResponse py status body n modelHint = .ok result ∧
      Delivers py n body result
  refused : ¬ EmbedBody n body →
    ∃ error, parseEmbedResponse py status body n modelHint = .error (.voyage error)

/-- Only a `VoyageError` is raised, and the indices of a result are distinct, in range and sorted
by descending score. -/
structure RerankValidated (candidates : List (String × String)) (body : Except String Json) :
    Prop where
  raised : ∀ e, parseRerankResponse py status body candidates modelHint = .error e →
    e.isVoyage = true
  distinct : ∀ result, parseRerankResponse py status body candidates modelHint = .ok result →
    (result.results.map (·.index)).Nodup
  inRange : ∀ result, parseRerankResponse py status body candidates modelHint = .ok result →
    ∀ item ∈ result.results, item.index < candidates.length
  sorted : ∀ result, parseRerankResponse py status body candidates modelHint = .ok result →
    result.results.Pairwise fun a b => a.score.lt b.score = false

end Answers

/-! ## When answers are handled so -/

/-- `float(v)` does not raise. -/
def reads (py : PyReading) (v : Json) : Bool :=
  (toFloat py v).isOk

/-- The item passes the checks that come before the conversion of its entries. -/
def embedChecked (n dims : Nat) (item : Json) : Bool :=
  match embeddingOf item, indexOf item with
  | some emb, some i => emb.length = dims && i < n
  | _, _ => false

def rerankChecked (n : Nat) (item : Json) : Bool :=
  match indexOf item, fieldOf "relevance_score" item with
  | some i, some score => i < n && isNumber score
  | _, _ => false

/-- A body that is JSON is an object. The items are converted up to the first that fails its
checks, and their entries can be read; where all items are distinct and pass, every entry is a
number. -/
structure EmbedReadable (py : PyReading) (n : Nat) (body : Except String Json) : Prop where
  object : ∀ payload, body = .ok payload → isObject payload = true
  entries : ∀ data, dataOf body = some data → data.length = n →
    ∀ item ∈ data.takeWhile (embedChecked n (firstDims data)), ∀ emb,
      embeddingOf item = some emb → ∀ x ∈ emb, reads py x = true
  numeric : ∀ data, dataOf body = some data → data.length = n →
    (∀ item ∈ data, embedChecked n (firstDims data) item = true) → (data.map indexOf).Nodup →
      ∀ item ∈ data, ∀ emb, embeddingOf item = some emb → ∀ x ∈ emb, isNumber x = true

/-- A body that is JSON is an object. The scores are converted up to the first item that fails its
checks, and can be read; where all items pass, their indices are distinct. -/
structure RerankReadable (py : PyReading) (n : Nat) (body : Except String Json) : Prop where
  object : ∀ payload, body = .ok payload → isObject payload = true
  scores : ∀ data, dataOf body = some data →
    ∀ item ∈ data.takeWhile (rerankChecked n), ∀ score,
      fieldOf "relevance_score" item = some score → reads py score = true
  distinct : ∀ data, dataOf body = some data →
    (∀ item ∈ data, rerankChecked n item = true) → (data.map indexOf).Nodup

/-- No score is NaN, which JSON does not have and the parser of the standard library reads. -/
def NoNan (py : PyReading) (body : Except String Json) : Prop :=
  ∀ data, dataOf body = some data → ∀ item ∈ data, ∀ x,
    fieldOf "relevance_score" item = some (.float x) → py.ofLiteral x ≠ .nan

end LosslessHermes.Voyage
