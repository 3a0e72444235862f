import LosslessHermes.Operator.Purge
import Mathlib.Data.List.Sort
import Mathlib.Algebra.GroupWithZero.Nat

/-!
# The extraction of entities

A tick of `run_coreference_tick` draws queued leaves, and for each of them awaits the
extractor and writes what it found in one transaction, with a savepoint for each
entity. The counters of new rows are Python variables: a rollback does not undo
them. What the extractor returns, the random suffixes and the statements that fail
are inputs; ticks of several workers interleave between the items.
-/

namespace LosslessHermes

structure EntityRow where
  entityId : String
  sessionKey : String
  canonicalText : String
  entityType : String
  firstSeenAt : Timestamp
  lastSeenAt : Timestamp
  firstSeenInSummaryId : Option SummaryId
  occurrenceCount : Nat
  deriving DecidableEq, Repr

structure EntityMentionRow where
  mentionId : String
  entityId : String
  summaryId : SummaryId
  surfaceForm : String
  spanStart : Option Int
  spanEnd : Option Int
  mentionedAt : Timestamp
  deriving DecidableEq, Repr

structure EntityTypeRow where
  typeName : String
  firstSeenAt : Timestamp
  occurrenceCount : Nat
  deriving DecidableEq, Repr

inductive ExtractionKind
  | entity
  | procedureRecheck
  deriving DecidableEq, Repr

structure ExtractionQueueRow where
  queueId : String
  leafId : SummaryId
  kind : ExtractionKind
  queuedAt : Timestamp
  completedAt : Option Timestamp
  attempts : Nat
  lastError : Option String
  deriving DecidableEq, Repr

structure ExtractionDb extends OperatorDb where
  queue : List ExtractionQueueRow
  entities : List EntityRow
  mentions : List EntityMentionRow
  entityTypes : List EntityTypeRow

structure ExtractedEntity where
  surface : String
  entityType : String
  spanStart : Option Int
  spanEnd : Option Int
  canonicalText : Option String
  deriving DecidableEq, Repr

structure PerItemDetail where
  queueId : String
  leafId : SummaryId
  success : Bool
  entityCount : Option Nat
  mentionCount : Option Nat
  error : Option String
  deriving DecidableEq, Repr

structure CoreferenceTickResult where
  processedCount : Nat
  newEntities : Nat
  newMentions : Nat
  extractorFailures : Nat
  lockLostMidTick : Bool
  perItem : List PerItemDetail
  deriving DecidableEq, Repr

def maxAttempts : Nat := 5

/-! ## Ids and texts -/

/-- FNV-1a over the code points, in 32 bits. -/
def fnv1a (surface : List Char) : Nat :=
  surface.foldl (fun hash c => (hash ^^^ c.toNat) * 0x01000193 % 2 ^ 32) 0x811C9DC5

def surfaceHashForId (surface : String) (maxBytes : Nat) : String :=
  let hexPart := (Nat.toDigits 16 (fnv1a surface.toList)).leftpad 8 '0'
  let sanitized := surface.toList.map fun c => if c.isAlphanum then c else '_'
  let prefixChars := sanitized.take (maxBytes - hexPart.length - 1)
  String.ofList (if prefixChars = [] then hexPart else prefixChars ++ '_' :: hexPart)

def mentionId (entityId : String) (leafId : SummaryId) (surface : String) : String :=
  "men_" ++ entityId ++ "_" ++ leafId ++ "_" ++ surfaceHashForId surface 16

/-- `COLLATE NOCASE`, which folds ASCII letters. -/
def nocase (text : String) : List Char :=
  text.toList.map Char.toLower

def ExtractedEntity.canonical (ent : ExtractedEntity) : String :=
  Text.strip (ent.canonicalText.getD ent.surface)

def truncate (s : String) (maxLen : Nat) : String :=
  String.ofList (s.toList.take maxLen)

/-! ## The statements -/

inductive RowStatement
  | selectEntity
  | insertEntity
  | selectWinner
  | upsertType
  | insertMention
  | bumpEntity
  | release
  deriving DecidableEq, Repr

/-- An error of the database is caught at the row, any other at the item. -/
inductive RowFault
  | database (message : String)
  | other (message : String)
  deriving DecidableEq, Repr

structure RowCounts where
  entities : Nat
  mentions : Nat
  deriving DecidableEq, Repr

/-- An entity with its random suffix and the statements that fail on it. -/
structure RowTask where
  ent : ExtractedEntity
  suffix : String
  savepointFails : Option String
  fails : RowStatement → Option RowFault
  rollbackFails : Bool

def RowTask.newEntityId (task : RowTask) : String := "ent_" ++ task.suffix

namespace ExtractionDb

/-- The unique index over the session key and the canonical text. -/
def isNamed (sessionKey canonical : String) (e : EntityRow) : Bool :=
  e.sessionKey = sessionKey ∧ nocase e.canonicalText = nocase canonical

def findEntity (db : ExtractionDb) (sessionKey canonical : String) : Option EntityRow :=
  db.entities.find? (isNamed sessionKey canonical)

def hasEntity (db : ExtractionDb) (entityId : String) : Bool :=
  db.entities.any fun e => e.entityId = entityId

def hasMention (db : ExtractionDb) (mentionId : String) : Bool :=
  db.mentions.any fun m => m.mentionId = mentionId

def hasLeaf (db : ExtractionDb) (leafId : SummaryId) : Bool :=
  db.summaries.any fun s => s.summaryId = leafId

def insertEntity (db : ExtractionDb) (now : Timestamp) (entityId sessionKey canonical : String)
    (entityType : String) (leafId : SummaryId) : ExtractionDb :=
  { db with entities := db.entities ++
      [⟨entityId, sessionKey, canonical, entityType, now, now, some leafId, 0⟩] }

def upsertType (db : ExtractionDb) (now : Timestamp) (typeName : String) : ExtractionDb :=
  { db with entityTypes :=
      if db.entityTypes.any fun t => t.typeName = typeName then
        db.entityTypes.map fun t =>
          if t.typeName = typeName then { t with occurrenceCount := t.occurrenceCount + 1 } else t
      else db.entityTypes ++ [⟨typeName, now, 1⟩] }

def insertMention (db : ExtractionDb) (now : Timestamp) (entityId : String) (leafId : SummaryId)
    (ent : ExtractedEntity) : ExtractionDb :=
  { db with mentions := db.mentions ++
      [⟨mentionId entityId leafId ent.surface, entityId, leafId, ent.surface, ent.spanStart,
        ent.spanEnd, now⟩] }

def bumpEntity (db : ExtractionDb) (now : Timestamp) (entityId : String) : ExtractionDb :=
  { db with entities := db.entities.map fun e =>
      if e.entityId = entityId then
        { e with occurrenceCount := e.occurrenceCount + 1, lastSeenAt := now }
      else e }

/-! ## A row -/

def foreignKeyFault : RowFault := .database "FOREIGN KEY constraint failed"

def releaseRow (task : RowTask) (db : ExtractionDb) : Except RowFault ExtractionDb :=
  match task.fails .release with
  | some fault => .error fault
  | none => .ok db

/-- From the mention on. The counts are those of the row so far. -/
def recordMention (task : RowTask) (now : Timestamp) (leafId : SummaryId) (entityId : String)
    (counts : RowCounts) (db : ExtractionDb) : RowCounts × Except RowFault ExtractionDb :=
  match task.fails .insertMention with
  | some fault => (counts, .error fault)
  | none =>
      if db.hasMention (mentionId entityId leafId task.ent.surface) then
        (counts, releaseRow task db)
      else if !(db.hasEntity entityId && db.hasLeaf leafId) then (counts, .error foreignKeyFault)
      else
        let counts := { counts with mentions := counts.mentions + 1 }
        match task.fails .bumpEntity with
        | some fault => (counts, .error fault)
        | none =>
            (counts, releaseRow task
              ((db.insertMention now entityId leafId task.ent).bumpEntity now entityId))

/-- The body of a row, with what it counted whether or not it fails. -/
def processRow (task : RowTask) (now : Timestamp) (sessionKey : String) (leafId : SummaryId)
    (db : ExtractionDb) : RowCounts × Except RowFault ExtractionDb :=
  let canonical := task.ent.canonical
  match task.fails .selectEntity with
  | some fault => (⟨0, 0⟩, .error fault)
  | none =>
      match db.findEntity sessionKey canonical with
      | some existing => recordMention task now leafId existing.entityId ⟨0, 0⟩ db
      | none =>
          match task.fails .insertEntity with
          | some fault => (⟨0, 0⟩, .error fault)
          | none =>
              -- The insert is ignored: no entity has the name, so the id is taken.
              if db.hasEntity task.newEntityId then
                match task.fails .selectWinner with
                | some fault => (⟨0, 0⟩, .error fault)
                | none => recordMention task now leafId task.newEntityId ⟨0, 0⟩ db
              else if !db.hasLeaf leafId then (⟨0, 0⟩, .error foreignKeyFault)
              else
                match task.fails .upsertType with
                | some fault => (⟨1, 0⟩, .error fault)
                | none =>
                    recordMention task now leafId task.newEntityId ⟨1, 0⟩
                      ((db.insertEntity now task.newEntityId sessionKey canonical
                        task.ent.entityType leafId).upsertType now task.ent.entityType)

/-! ## An item -/

/-- The counters and the error text that an item has collected. -/
structure ItemProgress where
  counts : RowCounts
  error : Option String
  deriving DecidableEq, Repr

def ItemProgress.add (progress : ItemProgress) (counts : RowCounts) : ItemProgress :=
  { progress with counts := ⟨progress.counts.entities + counts.entities,
      progress.counts.mentions + counts.mentions⟩ }

def perRowError (error : Option String) (i : Nat) (message : String) : String :=
  error.getD "" ++ " | per-row-failed[" ++ toString i ++ "]: " ++ truncate message 200

/-- The loop over the entities from index `i` on; an error ends the item. -/
def processRows (now : Timestamp) (sessionKey : String) (leafId : SummaryId) :
    Nat → List RowTask → ExtractionDb → ItemProgress → Except String (ExtractionDb × ItemProgress)
  | _, [], db, progress => .ok (db, progress)
  | i, task :: tasks, db, progress =>
      if task.ent.canonical = "" then processRows now sessionKey leafId (i + 1) tasks db progress
      else
        match task.savepointFails with
        | some message => .error message
        | none =>
            match processRow task now sessionKey leafId db with
            | (counts, .ok db) =>
                processRows now sessionKey leafId (i + 1) tasks db (progress.add counts)
            | (_, .error (.other message)) => .error message
            | (counts, .error (.database message)) =>
                if task.rollbackFails then .error message
                else
                  processRows now sessionKey leafId (i + 1) tasks db
                    { progress.add counts with
                      error := some (perRowError progress.error i message) }

def completeQueueRow (db : ExtractionDb) (now : Timestamp) (queueId : String) : ExtractionDb :=
  { db with queue := db.queue.map fun q =>
      if q.queueId = queueId then { q with completedAt := some now } else q }

/-- The transaction of an item after its `BEGIN IMMEDIATE`; `ends` is an error of the
last two statements. -/
def processItem (now : Timestamp) (queueId sessionKey : String) (leafId : SummaryId)
    (tasks : List RowTask) (ends : Option String) (db : ExtractionDb) :
    ExtractionDb × Except String ItemProgress :=
  withTransaction db fun db =>
    match processRows now sessionKey leafId 0 tasks db ⟨⟨0, 0⟩, none⟩ with
    | .error message => .error message
    | .ok (db, progress) =>
        match ends with
        | some message => .error message
        | none => .ok (db.completeQueueRow now queueId, progress)

end ExtractionDb

/-! ## A tick -/

/-- A row that the tick drew, with the columns of its leaf. -/
structure DrawnRow where
  queueId : String
  leafId : SummaryId
  content : String
  sessionKey : String
  deriving DecidableEq, Repr

/-- The rows that the tick drew and has not taken yet, the one whose extractor is
awaited, and the result so far. -/
structure CoreferenceTick where
  drawn : List DrawnRow
  awaited : Option DrawnRow
  result : CoreferenceTickResult
  deriving DecidableEq, Repr

inductive ExtractorReply
  /-- The two statements of the dead-letter update may fail. -/
  | raised (message : String) (updateFails : Option String) (fallbackFails : Bool)
  /-- The begin of the transaction may fail, and so may its end. -/
  | extracted (tasks : List RowTask) (beginFails : Bool) (ends : Option String)

namespace ExtractionDb

def pendingExtractions (db : ExtractionDb) (perTickLimit : Nat) : List DrawnRow :=
  let pending := db.queue.filter fun q =>
    q.kind = .entity ∧ q.completedAt = none ∧ q.attempts < maxAttempts ∧
      db.summaries.any fun s => s.summaryId = q.leafId ∧ s.suppressedAt = none
  ((pending.insertionSort fun a b => a.queuedAt ≤ b.queuedAt).take perTickLimit).filterMap
    fun q => (db.summaries.find? fun s => s.summaryId = q.leafId).map fun s =>
      ⟨q.queueId, q.leafId, s.content, db.sessionKey q.leafId⟩

def bumpAttempts (db : ExtractionDb) (queueId : String) (lastError : Option String) :
    ExtractionDb :=
  { db with queue := db.queue.map fun q =>
      if q.queueId = queueId then
        { q with attempts := q.attempts + 1, lastError := lastError.orElse fun _ => q.lastError }
      else q }

/-- The dead-letter update after a failure of the extractor, and the error it leaves. -/
def recordFailure (db : ExtractionDb) (queueId message : String) (updateFails : Option String)
    (fallbackFails : Bool) : ExtractionDb × String :=
  match updateFails with
  | none => (db.bumpAttempts queueId (some (truncate message 500)), truncate message 500)
  | some updateMessage =>
      (if fallbackFails then db else db.bumpAttempts queueId none,
        truncate message 500 ++ " | dead-letter-update-failed: " ++ truncate updateMessage 500)

end ExtractionDb

namespace CoreferenceTick

/-- The head of an item: the heartbeat, and the call of the extractor. -/
def next (stillHeld : Bool) (tick : CoreferenceTick) : CoreferenceTick :=
  match tick.awaited, tick.drawn with
  | none, row :: rows =>
      if stillHeld then { tick with drawn := rows, awaited := some row }
      else { tick with drawn := [], result := { tick.result with lockLostMidTick := true } }
  | _, _ => tick

def failed (row : DrawnRow) (message : String) (tick : CoreferenceTick) : CoreferenceTick :=
  { tick with
    awaited := none
    result := { tick.result with
      extractorFailures := tick.result.extractorFailures + 1
      perItem := tick.result.perItem ++
        [⟨row.queueId, row.leafId, false, none, none, some message⟩] } }

def succeeded (row : DrawnRow) (progress : ExtractionDb.ItemProgress) (tick : CoreferenceTick) :
    CoreferenceTick :=
  { tick with
    awaited := none
    result := { tick.result with
      processedCount := tick.result.processedCount + 1
      newEntities := tick.result.newEntities + progress.counts.entities
      newMentions := tick.result.newMentions + progress.counts.mentions
      perItem := tick.result.perItem ++
        [⟨row.queueId, row.leafId, true, some progress.counts.entities,
          some progress.counts.mentions, progress.error⟩] } }

/-- The rest of an item. An error of `BEGIN IMMEDIATE` ends the tick. -/
def answer (now : Timestamp) (reply : ExtractorReply) (row : DrawnRow) (db : ExtractionDb)
    (tick : CoreferenceTick) : ExtractionDb × CoreferenceTick :=
  match reply with
  | .raised message updateFails fallbackFails =>
      let recorded := db.recordFailure row.queueId message updateFails fallbackFails
      (recorded.1, tick.failed row recorded.2)
  | .extracted tasks beginFails ends =>
      if beginFails then (db, { tick with drawn := [], awaited := none })
      else
        match db.processItem now row.queueId row.sessionKey row.leafId tasks ends with
        | (db, .error message) => (db, tick.failed row ("tx-rollback: " ++ truncate message 500))
        | (db, .ok progress) => (db, tick.succeeded row progress)

end CoreferenceTick
end LosslessHermes
