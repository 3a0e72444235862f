import LosslessHermes.Store.Records

/-!
# The synthesis cache

The rows of `lcm_synthesis_cache` and the table `lcm_cache_leaf_refs` that says
which leaves a row was made from. The unique index over the key of a row is the
latch of the single flight: of the callers that insert one key, one wins.
-/

namespace LosslessHermes

structure CacheKey where
  sessionKey : String
  rangeStart : String
  rangeEnd : String
  leafFingerprint : String
  grepFilter : Option String
  tierLabel : String
  promptId : String
  deriving DecidableEq, Repr

/-- The key as the unique index has it, with `COALESCE(grep_filter, '')`. -/
def CacheKey.indexed (key : CacheKey) : CacheKey :=
  { key with grepFilter := some (key.grepFilter.getD "") }

inductive CacheStatus
  | building
  | ready
  | failed
  deriving DecidableEq, Repr

structure CacheRow where
  cacheId : String
  key : CacheKey
  content : Option String
  sourceLeafIds : List SummaryId
  outputTokenCount : Nat
  status : CacheStatus
  buildingStartedAt : Option Timestamp
  failureReason : Option String
  deriving DecidableEq, Repr

structure CacheLeafRef where
  cacheId : String
  leafSummaryId : SummaryId
  deriving DecidableEq, Repr

structure SynthesisTables where
  cache : List CacheRow
  leafRefs : List CacheLeafRef
  deriving DecidableEq, Repr

namespace SynthesisTables

def empty : SynthesisTables := ⟨[], []⟩

/-- `INSERT OR IGNORE` of a row that is being built, and whether it was inserted. -/
def insertCacheRowSingleFlight (db : SynthesisTables) (now : Timestamp) (cacheId : String)
    (key : CacheKey) (leafIds : List SummaryId) : SynthesisTables × Bool :=
  if db.cache.any fun row => row.cacheId = cacheId ∨ row.key.indexed = key.indexed then (db, false)
  else
    ({ db with cache := db.cache ++
        [{ cacheId := cacheId, key := key, content := none, sourceLeafIds := leafIds,
           outputTokenCount := 0, status := .building, buildingStartedAt := some now,
           failureReason := none }] }, true)

/-- The update to `ready`; it is refused if the new prompt takes the key of another row. -/
def setReady (db : SynthesisTables) (cacheId text : String) (tokens : Nat) (promptId : String) :
    SynthesisTables :=
  if db.cache.any fun row => row.cacheId = cacheId ∧ db.cache.any fun other =>
      other.cacheId ≠ cacheId ∧ other.key.indexed = { row.key with promptId := promptId }.indexed
  then db
  else { db with cache := db.cache.map fun row =>
    if row.cacheId = cacheId then
      { row with
        status := .ready, content := some text, outputTokenCount := tokens,
        key := { row.key with promptId := promptId }, buildingStartedAt := none }
    else row }

def markCacheFailed (db : SynthesisTables) (cacheId reason : String) : SynthesisTables :=
  { db with cache := db.cache.map fun row =>
    if row.cacheId = cacheId then
      { row with
        status := .failed, failureReason := some (String.ofList (reason.toList.take 800)) }
    else row }

/-- `INSERT OR IGNORE` of a leaf reference, whose foreign keys hold. -/
def insertLeafRef (db : SynthesisTables) (cacheId : String) (leafId : SummaryId) :
    SynthesisTables :=
  if ⟨cacheId, leafId⟩ ∈ db.leafRefs then db
  else { db with leafRefs := db.leafRefs ++ [⟨cacheId, leafId⟩] }

/-- A row that has a reference to one of the leaves. -/
def refersTo (db : SynthesisTables) (leafIds : List SummaryId) (cacheId : String) : Bool :=
  db.leafRefs.any fun ref => ref.cacheId = cacheId ∧ ref.leafSummaryId ∈ leafIds

/-- The rows that refer to one of the leaves, and with them all of their references. -/
def invalidateCaches (db : SynthesisTables) (leafIds : List SummaryId) : SynthesisTables where
  cache := db.cache.filter fun row => !db.refersTo leafIds row.cacheId
  leafRefs := db.leafRefs.filter fun ref => !db.refersTo leafIds ref.cacheId

/-- The `ON DELETE CASCADE` of deleted summaries: it takes references, not rows. -/
def cascadeSummaries (db : SynthesisTables) (summaryIds : List SummaryId) : SynthesisTables :=
  { db with leafRefs := db.leafRefs.filter fun ref => ref.leafSummaryId ∉ summaryIds }

end SynthesisTables
end LosslessHermes
