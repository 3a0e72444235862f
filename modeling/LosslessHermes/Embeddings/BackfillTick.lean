import LosslessHermes.Operator.Purge
import Mathlib.Data.List.Sort

/-!
# The backfill of embeddings

A tick of the cron selects leaves that have no vector yet, packs them into batches,
and for each batch awaits the embedding service and writes the vectors in one
transaction with a savepoint for each row. `Tick` is where a tick stands between
two of its steps; other work runs while it waits. The replies of the service, of
the worker lock and of the statements are inputs.
-/

namespace LosslessHermes

structure BackfillOptions where
  modelName : String
  embeddedKind : EmbeddedKind
  maxBatchTokens : Int
  perTickLimit : Int
  minTokenCount : Int
  maxTokenCount : Int
  deriving DecidableEq, Repr

structure PendingDoc where
  summaryId : SummaryId
  content : String
  tokenCount : Nat
  deriving DecidableEq, Repr

inductive SkipReason
  | overCap
  | voyage400
  | voyageOther
  | lockStolenMidEmbed
  deriving DecidableEq, Repr

structure BackfillSkippedDoc where
  summaryId : SummaryId
  reason : SkipReason
  detail : Option String
  deriving DecidableEq, Repr

structure BackfillResult where
  embeddedCount : Nat
  skippedOverCap : Nat
  skipped : List BackfillSkippedDoc
  perTickLimitReached : Bool
  lockNotAcquired : Bool
  voyageTokensConsumed : Nat
  deriving DecidableEq, Repr

inductive VoyageErrorKind
  | auth
  | badRequest
  | rateLimit
  | serverError
  | network
  | unexpected
  deriving DecidableEq, Repr

structure WriteReport where
  succeeded : Nat
  errors : List BackfillSkippedDoc
  deriving DecidableEq, Repr

/-! ## The selection -/

def selectBatchCap : Nat := 64

def selectPendingDocs (db : OperatorDb) (options : BackfillOptions) (limit : Nat)
    (excludeIds : List SummaryId) : List PendingDoc :=
  let pending := db.summaries.filter fun s =>
    s.suppressedAt = none ∧ options.minTokenCount ≤ s.tokenCount ∧
      s.tokenCount ≤ options.maxTokenCount ∧ s.kind = .leaf ∧ s.summaryId ∉ excludeIds ∧
        ¬ db.embeddings.metaRows.any fun m =>
          EmbeddingTables.isMetaOf options.modelName s.summaryId options.embeddedKind m &&
            !m.archived
  ((pending.insertionSort fun a b => b.summaryId ≤ a.summaryId).take limit).map fun s =>
    ⟨s.summaryId, s.content, s.tokenCount⟩

/-- The batches of the rest of the documents, of which the first is open. -/
def packFrom (maxBatchTokens : Int) : List PendingDoc → Nat → List PendingDoc →
    List (List PendingDoc)
  | current, _, [] => if current = [] then [] else [current]
  | current, currentTokens, doc :: docs =>
      if current ≠ [] ∧ maxBatchTokens < currentTokens + doc.tokenCount then
        current :: packFrom maxBatchTokens [doc] doc.tokenCount docs
      else packFrom maxBatchTokens (current ++ [doc]) (currentTokens + doc.tokenCount) docs

def packBatches (docs : List PendingDoc) (maxBatchTokens : Int) : List (List PendingDoc) :=
  packFrom maxBatchTokens [] 0 docs

/-! ## The write of a batch -/

structure RowRefusals where
  savepoint : Bool
  statements : RecordStatement → Bool
  release : Bool

structure BatchRefusals where
  beginImmediate : Bool
  rows : Nat → RowRefusals
  commit : Bool

/-- The call passes nothing for `suppressed`. -/
def recordArgs (options : BackfillOptions) (doc : PendingDoc) (vector : List UInt32) :
    RecordArgs where
  embeddedId := doc.summaryId
  embeddedKind := options.embeddedKind
  vector := .floats vector
  sourceTokenCount := doc.tokenCount
  suppressed := false

namespace EmbeddingTables

def writeRow (refusals : RowRefusals) (now : Timestamp) (options : BackfillOptions)
    (doc : PendingDoc) (vector : List UInt32) (db : EmbeddingTables) :
    EmbeddingTables × Except EmbeddingError Unit :=
  withTransaction db fun db =>
    match recordEmbedding refusals.statements now options.modelName
      (recordArgs options doc vector) db with
    | (_, .error error) => .error error
    | (db, .ok ()) => if refusals.release then .error .statement else .ok (db, ())

/-- The loop over the batch. `str` is the text of an error. -/
def writeRows (str : EmbeddingError → String) (now : Timestamp) (options : BackfillOptions) :
    (Nat → RowRefusals) → List PendingDoc → List (List UInt32) → EmbeddingTables → WriteReport →
      Except String (EmbeddingTables × WriteReport)
  | _, [], _, db, report => .ok (db, report)
  | _, _ :: _, [], _, _ => .error "list index out of range"
  | refusals, doc :: batch, vector :: vectors, db, report =>
      if (refusals 0).savepoint then .error (str .statement)
      else
        match writeRow (refusals 0) now options doc vector db with
        | (db, .ok ()) =>
            writeRows str now options (fun i => refusals (i + 1)) batch vectors db
              { report with succeeded := report.succeeded + 1 }
        | (db, .error error) =>
            writeRows str now options (fun i => refusals (i + 1)) batch vectors db
              { report with
                errors := report.errors ++ [⟨doc.summaryId, .voyageOther, some (str error)⟩] }

/-- The part of `_write_batch` after its `BEGIN IMMEDIATE`. -/
def writeBatch (str : EmbeddingError → String) (refusals : BatchRefusals) (now : Timestamp)
    (options : BackfillOptions) (batch : List PendingDoc) (vectors : List (List UInt32))
    (db : EmbeddingTables) : EmbeddingTables × WriteReport :=
  let written := withTransaction db fun db =>
    match writeRows str now options refusals.rows batch vectors db ⟨0, []⟩ with
    | .error error => .error error
    | .ok written => if refusals.commit then .error (str .statement) else .ok written
  match written with
  | (db, .ok report) => (db, report)
  | (db, .error error) =>
      (db, ⟨0, batch.map fun doc =>
        ⟨doc.summaryId, .voyageOther, some ("tx-rollback: " ++ error)⟩⟩)

def embeddingsTableExists (db : EmbeddingTables) (modelName : String) : Bool :=
  match embeddingsTableName modelName with
  | .error _ => false
  | .ok table => db.hasTable table

end EmbeddingTables

/-! ## The steps of a tick -/

inductive TickPhase
  | selecting
  /-- A batch is next, after the pacing. -/
  | sending (batch : List PendingDoc) (batches : List (List PendingDoc))
  | awaiting (batch : List PendingDoc) (batches : List (List PendingDoc))
  | ended
  deriving DecidableEq, Repr

structure Tick where
  options : BackfillOptions
  processed : Nat
  failedThisTick : List SummaryId
  phase : TickPhase
  result : BackfillResult
  deriving DecidableEq, Repr

/-- How the awaited call ends, and for vectors what the heartbeat after it says and
what the write meets. -/
inductive EmbedReply
  | voyageError (kind : VoyageErrorKind) (detail : String)
  | raised
  | embedded (vectors : List (List UInt32)) (totalTokens : Nat) (stillOurs : Bool)
      (refusals : BatchRefusals)

namespace Tick

/-- The tick after its lock was acquired, or not. -/
def start (options : BackfillOptions) (acquired : Bool) : Tick where
  options := options
  processed := 0
  failedThisTick := []
  phase := if acquired then .selecting else .ended
  result := ⟨0, 0, [], false, !acquired, 0⟩

/-- What follows a batch. -/
def following : List (List PendingDoc) → TickPhase
  | [] => .selecting
  | batch :: batches => .sending batch batches

/-- The head of the loop, up to the first batch. -/
def select (db : OperatorDb) (tick : Tick) : Tick :=
  if tick.phase ≠ .selecting then tick
  else if tick.options.perTickLimit ≤ tick.processed then
    { tick with phase := .ended, result := { tick.result with perTickLimitReached := true } }
  else
    let batchSize := min (tick.options.perTickLimit - tick.processed).toNat selectBatchCap
    match selectPendingDocs db tick.options batchSize tick.failedThisTick with
    | [] => { tick with phase := .ended }
    | candidates =>
        let overCap := candidates.filter fun doc => tick.options.maxTokenCount < doc.tokenCount
        let queryable := candidates.filter fun doc => doc.tokenCount ≤ tick.options.maxTokenCount
        let result := { tick.result with
          skippedOverCap := tick.result.skippedOverCap + overCap.length
          skipped := tick.result.skipped ++
            overCap.map fun doc => ⟨doc.summaryId, .overCap, none⟩ }
        if queryable = [] then
          { tick with processed := tick.processed + candidates.length, result := result }
        else
          { tick with
            phase := following (packBatches queryable tick.options.maxBatchTokens)
            result := result }

/-- The heartbeat before the call. -/
def send (stillOurs : Bool) (tick : Tick) : Tick :=
  match tick.phase with
  | .sending batch batches =>
      if stillOurs then { tick with phase := .awaiting batch batches }
      else { tick with phase := .ended, result := { tick.result with lockNotAcquired := true } }
  | _ => tick

/-- The batch is not written, for one reason for all of its documents. -/
def skip (batch : List PendingDoc) (reason : SkipReason) (detail : String) (tick : Tick) : Tick :=
  { tick with
    failedThisTick := tick.failedThisTick ++ batch.map (·.summaryId)
    result := { tick.result with
      skipped := tick.result.skipped ++
        batch.map fun doc => ⟨doc.summaryId, reason, some detail⟩ } }

def lockStolenDetail : String :=
  "Worker lock expired during Voyage call " ++
    "(likely Retry-After exceeded TTL); " ++ "writes aborted."

/-- The rest of an iteration over the batches, from the reply on. -/
def answer (str : EmbeddingError → String) (now : Timestamp) (db : EmbeddingTables)
    (reply : EmbedReply) (tick : Tick) : EmbeddingTables × Tick :=
  match tick.phase with
  | .awaiting batch batches =>
      match reply with
      | .raised => (db, { tick with phase := .ended })
      | .voyageError kind detail =>
          if kind = .auth then (db, { tick with phase := .ended })
          else
            let skipped := tick.skip batch
              (if kind = .badRequest then .voyage400 else .voyageOther) detail
            (db, { skipped with
              processed := tick.processed + batch.length, phase := following batches })
      | .embedded vectors totalTokens stillOurs refusals =>
          if !stillOurs then
            let skipped := tick.skip batch .lockStolenMidEmbed lockStolenDetail
            (db, { skipped with
              phase := .ended, result := { skipped.result with lockNotAcquired := true } })
          else if refusals.beginImmediate then (db, { tick with phase := .ended })
          else
            let (written, report) :=
              db.writeBatch str refusals now tick.options batch vectors
            (written, { tick with
              processed := tick.processed + batch.length
              phase := following batches
              result := { tick.result with
                embeddedCount := tick.result.embeddedCount + report.succeeded
                voyageTokensConsumed := tick.result.voyageTokensConsumed + totalTokens
                skipped := tick.result.skipped ++ report.errors } })
  | _ => (db, tick)

end Tick
end LosslessHermes
