import LosslessHermes.Library.Run
import LosslessHermes.Store.Records
import Mathlib.Data.List.Nodup

/-!
# The embeddings store

The virtual tables of the vectors, one for each model, and the sidecar
`lcm_embedding_meta`. A virtual table has no key and takes no constraint, so
each operation keeps the two in step by its own statements. Any statement may be
refused; `refuses` says which are. The `SAVEPOINT` of `record_embedding` is
`withTransaction`.
-/

namespace LosslessHermes

inductive EmbeddedKind
  | summary
  | entity
  | theme
  deriving DecidableEq, Repr

/-- A row of the virtual table `table`. -/
structure VectorRow where
  table : String
  embedding : List UInt8
  embeddedId : String
  embeddedKind : EmbeddedKind
  suppressed : Bool
  deriving DecidableEq, Repr

structure EmbeddingMetaRow where
  embeddedId : String
  embeddedKind : EmbeddedKind
  embeddingModel : String
  embeddedAt : Timestamp
  sourceTokenCount : Nat
  archived : Bool
  deriving DecidableEq, Repr

structure EmbeddingProfile where
  modelName : String
  dim : Nat
  deriving DecidableEq, Repr

/-- A virtual table, and whether its triggers on `summaries` exist. -/
structure EmbeddingTable where
  name : String
  dim : Nat
  triggers : Bool
  deriving DecidableEq, Repr

structure EmbeddingTables where
  tables : List EmbeddingTable
  profiles : List EmbeddingProfile
  vectors : List VectorRow
  metaRows : List EmbeddingMetaRow
  deriving DecidableEq, Repr

def EmbeddingTables.empty : EmbeddingTables := ⟨[], [], [], []⟩

inductive EmbeddingError
  | invalidModelName (modelName : String)
  | emptySlug (modelName : String)
  | noProfile (modelName : String)
  | byteLength (actual expected : Nat)
  | dimMismatch (actual dim : Nat)
  | statement
  deriving DecidableEq, Repr

/-! ## Names and vectors -/

/-- `[A-Za-z0-9._-]{1,64}`. -/
def isModelName (chars : List Char) : Bool :=
  chars ≠ [] && chars.length ≤ 64 &&
    chars.all fun c => c.isAlphanum || c = '.' || c = '_' || c = '-'

/-- `MODEL_NAME_PATTERN.match`; its `$` also stands before a final line feed. -/
def matchesModelName (chars : List Char) : Bool :=
  isModelName chars || (chars.getLast? = some '\n' && isModelName chars.dropLast)

def slugFor (modelName : String) : String :=
  String.ofList ((modelName.toList.map Char.toLower).filter Char.isAlphanum)

def embeddingsTableName (modelName : String) : Except EmbeddingError String :=
  if !matchesModelName modelName.toList then .error (.invalidModelName modelName)
  else if slugFor modelName = "" then .error (.emptySlug modelName)
  else .ok ("lcm_embeddings_" ++ slugFor modelName)

/-- A vector as it is passed: already serialized, or as 32-bit patterns of its
numbers. -/
inductive VectorInput
  | bytes (payload : List UInt8)
  | floats (values : List UInt32)
  deriving DecidableEq, Repr

/-- `struct.pack("<f", …)`. -/
def floatBytes (value : UInt32) : List UInt8 :=
  [value.toUInt8, (value >>> 8).toUInt8, (value >>> 16).toUInt8, (value >>> 24).toUInt8]

def serializeVector (vector : VectorInput) (dim : Nat) : Except EmbeddingError (List UInt8) :=
  match vector with
  | .bytes payload =>
      if payload.length ≠ 4 * dim then .error (.byteLength payload.length (4 * dim))
      else .ok payload
  | .floats values =>
      if values.length ≠ dim then .error (.dimMismatch values.length dim)
      else .ok (values.flatMap floatBytes)

/-! ## The operations -/

structure RecordArgs where
  embeddedId : String
  embeddedKind : EmbeddedKind
  vector : VectorInput
  sourceTokenCount : Nat
  suppressed : Bool
  deriving DecidableEq, Repr

inductive RecordStatement
  | selectProfile
  | savepoint
  | deleteVector
  | insertVector
  | insertMeta
  | release
  deriving DecidableEq, Repr

namespace EmbeddingTables

def hasTable (db : EmbeddingTables) (table : String) : Bool :=
  db.tables.any fun t => t.name = table

/-- The row has the document and stands in the table. -/
def isVectorOf (table embeddedId : String) (embeddedKind : EmbeddedKind) (v : VectorRow) : Bool :=
  v.table = table ∧ v.embeddedId = embeddedId ∧ v.embeddedKind = embeddedKind

/-- The row has this primary key. -/
def isMetaOf (modelName embeddedId : String) (embeddedKind : EmbeddedKind)
    (m : EmbeddingMetaRow) : Bool :=
  m.embeddedId = embeddedId ∧ m.embeddedKind = embeddedKind ∧ m.embeddingModel = modelName

def deleteVectors (db : EmbeddingTables) (table embeddedId : String)
    (embeddedKind : EmbeddedKind) : EmbeddingTables :=
  { db with vectors := db.vectors.filter fun v => !isVectorOf table embeddedId embeddedKind v }

def deleteMeta (db : EmbeddingTables) (modelName embeddedId : String)
    (embeddedKind : EmbeddedKind) : EmbeddingTables :=
  { db with metaRows := db.metaRows.filter fun m => !isMetaOf modelName embeddedId embeddedKind m }

/-- The table takes vectors of this many bytes. -/
def takes (db : EmbeddingTables) (table : String) (payload : List UInt8) : Bool :=
  db.tables.any fun t => t.name = table ∧ payload.length = 4 * t.dim

/-- What the statements inside the savepoint write. -/
def recorded (db : EmbeddingTables) (now : Timestamp) (modelName table : String)
    (args : RecordArgs) (payload : List UInt8) : EmbeddingTables :=
  let deleted := (db.deleteVectors table args.embeddedId args.embeddedKind).deleteMeta
    modelName args.embeddedId args.embeddedKind
  { deleted with
    vectors := deleted.vectors ++
      [⟨table, payload, args.embeddedId, args.embeddedKind, args.suppressed⟩]
    metaRows := deleted.metaRows ++
      [⟨args.embeddedId, args.embeddedKind, modelName, now, args.sourceTokenCount, false⟩] }

def recordRows (refuses : RecordStatement → Bool) (now : Timestamp) (modelName table : String)
    (args : RecordArgs) (payload : List UInt8) (db : EmbeddingTables) :
    Except EmbeddingError (EmbeddingTables × Unit) :=
  if refuses .deleteVector || !db.hasTable table then .error .statement
  else if refuses .insertVector || !db.takes table payload then .error .statement
  else if refuses .insertMeta then .error .statement
  else if refuses .release then .error .statement
  else .ok (db.recorded now modelName table args payload, ())

def recordEmbedding (refuses : RecordStatement → Bool) (now : Timestamp) (modelName : String)
    (args : RecordArgs) (db : EmbeddingTables) : EmbeddingTables × Except EmbeddingError Unit :=
  match embeddingsTableName modelName with
  | .error error => (db, .error error)
  | .ok table =>
      if refuses .selectProfile then (db, .error .statement)
      else
        match db.profiles.find? fun p => p.modelName = modelName with
        | none => (db, .error (.noProfile modelName))
        | some profile =>
            match serializeVector args.vector profile.dim with
            | .error error => (db, .error error)
            | .ok payload =>
                if refuses .savepoint then (db, .error .statement)
                else withTransaction db (recordRows refuses now modelName table args payload)

/-- A `DELETE` of its own, then `record_embedding`. -/
def replaceEmbedding (refusesDelete : Bool) (refuses : RecordStatement → Bool) (now : Timestamp)
    (modelName : String) (args : RecordArgs) (db : EmbeddingTables) :
    EmbeddingTables × Except EmbeddingError Unit :=
  match embeddingsTableName modelName with
  | .error error => (db, .error error)
  | .ok table =>
      if refusesDelete || !db.hasTable table then (db, .error .statement)
      else recordEmbedding refuses now modelName args
        (db.deleteVectors table args.embeddedId args.embeddedKind)

def deleteEmbedding (refusesVectors refusesMeta : Bool) (modelName embeddedId : String)
    (embeddedKind : EmbeddedKind) (db : EmbeddingTables) :
    EmbeddingTables × Except EmbeddingError Unit :=
  match embeddingsTableName modelName with
  | .error error => (db, .error error)
  | .ok table =>
      if refusesVectors || !db.hasTable table then (db, .error .statement)
      else if refusesMeta then
        (db.deleteVectors table embeddedId embeddedKind, .error .statement)
      else
        ((db.deleteVectors table embeddedId embeddedKind).deleteMeta modelName embeddedId
          embeddedKind, .ok ())

def markEmbeddingSuppressed (refuses : Bool) (modelName embeddedId : String)
    (embeddedKind : EmbeddedKind) (suppressed : Bool) (db : EmbeddingTables) :
    EmbeddingTables × Except EmbeddingError Unit :=
  match embeddingsTableName modelName with
  | .error error => (db, .error error)
  | .ok table =>
      if refuses || !db.hasTable table then (db, .error .statement)
      else
        ({ db with vectors := db.vectors.map fun v =>
            if isVectorOf table embeddedId embeddedKind v then { v with suppressed := suppressed }
            else v }, .ok ())

/-- The archival of a model. Its metadata rows stay as they are. -/
def dropEmbeddingsTriggers (refusesTriggers refusesTable dropTable : Bool) (modelName : String)
    (db : EmbeddingTables) : EmbeddingTables × Except EmbeddingError Unit :=
  match embeddingsTableName modelName with
  | .error error => (db, .error error)
  | .ok table =>
      if refusesTriggers then (db, .error .statement)
      else
        let dropped := { db with tables := db.tables.map fun t =>
          if t.name = table then { t with triggers := false } else t }
        if !dropTable then (dropped, .ok ())
        else if refusesTable then (dropped, .error .statement)
        else
          ({ dropped with
            tables := dropped.tables.filter fun t => t.name ≠ table
            vectors := dropped.vectors.filter fun v => v.table ≠ table }, .ok ())

/-! ## Vectors and metadata in step -/

def HasVector (db : EmbeddingTables) (table embeddedId : String) (embeddedKind : EmbeddedKind) :
    Prop :=
  ∃ v ∈ db.vectors, isVectorOf table embeddedId embeddedKind v

def HasMeta (db : EmbeddingTables) (modelName embeddedId : String) (embeddedKind : EmbeddedKind) :
    Prop :=
  ∃ m ∈ db.metaRows, isMetaOf modelName embeddedId embeddedKind m ∧ m.archived = false

/-- The documents with a vector are those with an active metadata row, and no
document has two vectors. -/
structure InStep (db : EmbeddingTables) (modelName table : String) : Prop where
  same : ∀ embeddedId embeddedKind,
    db.HasVector table embeddedId embeddedKind ↔ db.HasMeta modelName embeddedId embeddedKind
  single : ((db.vectors.filter fun v => v.table = table).map
    fun v => (v.embeddedId, v.embeddedKind)).Nodup

/-- Neither table is changed. -/
def Intact (db db' : EmbeddingTables) : Prop :=
  db'.vectors = db.vectors ∧ db'.metaRows = db.metaRows

variable {db db' : EmbeddingTables} {modelName table embeddedId : String}
  {embeddedKind : EmbeddedKind}

theorem isVectorOf_iff {v : VectorRow} : isVectorOf table embeddedId embeddedKind v ↔
    v.table = table ∧ v.embeddedId = embeddedId ∧ v.embeddedKind = embeddedKind := by
  simp [isVectorOf]

theorem isMetaOf_iff {m : EmbeddingMetaRow} : isMetaOf modelName embeddedId embeddedKind m ↔
    m.embeddedId = embeddedId ∧ m.embeddedKind = embeddedKind ∧ m.embeddingModel = modelName := by
  simp [isMetaOf]

theorem InStep.of_intact (h : db.InStep modelName table) (hIntact : Intact db db') :
    db'.InStep modelName table := by
  obtain ⟨hVectors, hMeta⟩ := hIntact
  constructor
  · intro embeddedId embeddedKind
    unfold HasVector HasMeta
    rw [hVectors, hMeta]
    exact h.same embeddedId embeddedKind
  · rw [hVectors]
    exact h.single

theorem hasVector_deleteVectors {embeddedId' : String} {embeddedKind' : EmbeddedKind} :
    (db.deleteVectors table embeddedId embeddedKind).HasVector table embeddedId' embeddedKind' ↔
      db.HasVector table embeddedId' embeddedKind' ∧
        (embeddedId', embeddedKind') ≠ (embeddedId, embeddedKind) := by
  constructor
  · rintro ⟨v, hv, hOf⟩
    obtain ⟨hMem, hNot⟩ := List.mem_filter.mp hv
    refine ⟨⟨v, hMem, hOf⟩, fun hEq => ?_⟩
    obtain ⟨rfl, rfl⟩ := Prod.mk.inj hEq
    rw [hOf] at hNot
    cases hNot
  · rintro ⟨⟨v, hMem, hOf⟩, hOther⟩
    refine ⟨v, List.mem_filter.mpr ⟨hMem, ?_⟩, hOf⟩
    rw [Bool.not_eq_true', Bool.eq_false_iff]
    intro hBoth
    obtain ⟨-, hId, hKind⟩ := isVectorOf_iff.mp hOf
    obtain ⟨-, hId', hKind'⟩ := isVectorOf_iff.mp hBoth
    exact hOther (by rw [← hId, ← hKind, hId', hKind'])

theorem hasMeta_deleteMeta {embeddedId' : String} {embeddedKind' : EmbeddedKind} :
    (db.deleteMeta modelName embeddedId embeddedKind).HasMeta modelName embeddedId' embeddedKind' ↔
      db.HasMeta modelName embeddedId' embeddedKind' ∧
        (embeddedId', embeddedKind') ≠ (embeddedId, embeddedKind) := by
  constructor
  · rintro ⟨m, hm, hOf, hActive⟩
    obtain ⟨hMem, hNot⟩ := List.mem_filter.mp hm
    refine ⟨⟨m, hMem, hOf, hActive⟩, fun hEq => ?_⟩
    obtain ⟨rfl, rfl⟩ := Prod.mk.inj hEq
    rw [hOf] at hNot
    cases hNot
  · rintro ⟨⟨m, hMem, hOf, hActive⟩, hOther⟩
    refine ⟨m, List.mem_filter.mpr ⟨hMem, ?_⟩, hOf, hActive⟩
    rw [Bool.not_eq_true', Bool.eq_false_iff]
    intro hBoth
    obtain ⟨hId, hKind, -⟩ := isMetaOf_iff.mp hOf
    obtain ⟨hId', hKind', -⟩ := isMetaOf_iff.mp hBoth
    exact hOther (by rw [← hId, ← hKind, hId', hKind'])

/-- A document without a vector loses none. -/
theorem deleteVectors_of_not_hasVector (h : ¬ db.HasVector table embeddedId embeddedKind) :
    db.deleteVectors table embeddedId embeddedKind = db := by
  have hAll : (db.vectors.filter fun v => !isVectorOf table embeddedId embeddedKind v) =
      db.vectors := by
    apply List.filter_eq_self.mpr
    intro v hv
    rw [Bool.not_eq_true', Bool.eq_false_iff]
    exact fun hOf => h ⟨v, hv, hOf⟩
  unfold deleteVectors
  rw [hAll]

theorem deleteVectors_single (h : db.InStep modelName table) :
    (((db.deleteVectors table embeddedId embeddedKind).vectors.filter fun v => v.table = table).map
      fun v => (v.embeddedId, v.embeddedKind)).Nodup :=
  h.single.sublist ((List.filter_sublist.filter _).map _)

theorem InStep.deleteBoth (h : db.InStep modelName table) :
    ((db.deleteVectors table embeddedId embeddedKind).deleteMeta modelName embeddedId
      embeddedKind).InStep modelName table := by
  constructor
  · intro embeddedId' embeddedKind'
    rw [hasMeta_deleteMeta]
    refine hasVector_deleteVectors.trans (and_congr_left fun _ => ?_)
    exact h.same embeddedId' embeddedKind'
  · exact deleteVectors_single h

theorem InStep.recorded (h : db.InStep modelName table) (now : Timestamp) (args : RecordArgs)
    (payload : List UInt8) :
    (db.recorded now modelName table args payload).InStep modelName table := by
  have hDeleted := @deleteBoth _ _ _ args.embeddedId args.embeddedKind h
  constructor
  · intro embeddedId embeddedKind
    have hSame := hDeleted.same embeddedId embeddedKind
    constructor
    · rintro ⟨v, hv, hOf⟩
      rcases List.mem_append.mp hv with hOld | hNew
      · obtain ⟨m, hm, hMeta⟩ := hSame.mp ⟨v, hOld, hOf⟩
        exact ⟨m, List.mem_append_left _ hm, hMeta⟩
      · rw [List.mem_singleton.mp hNew] at hOf
        obtain ⟨-, rfl, rfl⟩ := isVectorOf_iff.mp hOf
        refine ⟨_, List.mem_append_right _ (List.mem_singleton.mpr rfl), ?_, rfl⟩
        exact isMetaOf_iff.mpr ⟨rfl, rfl, rfl⟩
    · rintro ⟨m, hm, hOf, hActive⟩
      rcases List.mem_append.mp hm with hOld | hNew
      · obtain ⟨v, hv, hVector⟩ := hSame.mpr ⟨m, hOld, hOf, hActive⟩
        exact ⟨v, List.mem_append_left _ hv, hVector⟩
      · rw [List.mem_singleton.mp hNew] at hOf
        obtain ⟨rfl, rfl, -⟩ := isMetaOf_iff.mp hOf
        refine ⟨_, List.mem_append_right _ (List.mem_singleton.mpr rfl), ?_⟩
        exact isVectorOf_iff.mpr ⟨rfl, rfl, rfl⟩
  · have hNew : ([(⟨table, payload, args.embeddedId, args.embeddedKind, args.suppressed⟩ :
        VectorRow)].filter fun v => v.table = table) =
          [⟨table, payload, args.embeddedId, args.embeddedKind, args.suppressed⟩] := by
      simp
    rw [EmbeddingTables.recorded, List.filter_append, hNew, List.map_append, List.nodup_append]
    refine ⟨hDeleted.single, List.nodup_singleton _, fun doc hOld doc' hNew => ?_⟩
    rw [List.map_singleton, List.mem_singleton] at hNew
    rintro rfl
    obtain ⟨v, hv, rfl⟩ := List.mem_map.mp hOld
    obtain ⟨hMem, hTable⟩ := List.mem_filter.mp hv
    obtain ⟨hId, hKind⟩ := Prod.mk.inj hNew
    have hLeft : ((db.deleteVectors table args.embeddedId args.embeddedKind).HasVector table
        args.embeddedId args.embeddedKind) :=
      ⟨v, hMem, isVectorOf_iff.mpr ⟨of_decide_eq_true hTable, hId, hKind⟩⟩
    exact (hasVector_deleteVectors.mp hLeft).2 rfl

/-! ## What an operation does -/

/-- `record_embedding` meets no error. -/
def Accepts (refuses : RecordStatement → Bool) (modelName table : String) (args : RecordArgs)
    (db : EmbeddingTables) : Prop :=
  (∀ statement, refuses statement = false) ∧
    ∃ profile payload, (db.profiles.find? fun p => p.modelName = modelName) = some profile ∧
      serializeVector args.vector profile.dim = .ok payload ∧ db.takes table payload

theorem hasTable_of_takes {payload : List UInt8} (h : db.takes table payload) :
    db.hasTable table := by
  obtain ⟨t, ht, hTakes⟩ := List.any_eq_true.mp h
  refine List.any_eq_true.mpr ⟨t, ht, ?_⟩
  simp only [Bool.decide_and, Bool.and_eq_true] at hTakes
  exact hTakes.1

/-- The statements behind the savepoint are refused for a statement or for the table. -/
theorem recordRows_cases (refuses : RecordStatement → Bool) (now : Timestamp)
    (modelName table : String) (args : RecordArgs) (payload : List UInt8) (db : EmbeddingTables)
    (hSelect : refuses .selectProfile = false) (hSavepoint : refuses .savepoint = false) :
    (¬ ((∀ statement, refuses statement = false) ∧ db.takes table payload) ∧
        recordRows refuses now modelName table args payload db = .error .statement) ∨
      ((∀ statement, refuses statement = false) ∧ db.takes table payload) ∧
        recordRows refuses now modelName table args payload db =
          .ok (db.recorded now modelName table args payload, ()) := by
  have hRefused : ∀ statement, refuses statement = true →
      ¬ ((∀ statement, refuses statement = false) ∧ db.takes table payload) := by
    rintro statement hRefuses ⟨hAll, -⟩
    rw [hAll statement] at hRefuses
    cases hRefuses
  unfold recordRows
  split
  · rename_i hDelete
    refine Or.inl ⟨fun h => ?_, rfl⟩
    rcases Bool.or_eq_true_iff.mp hDelete with hRefuses | hTable
    · exact hRefused _ hRefuses h
    · rw [hasTable_of_takes h.2] at hTable
      cases hTable
  rename_i hDelete
  split
  · rename_i hInsert
    refine Or.inl ⟨fun h => ?_, rfl⟩
    rcases Bool.or_eq_true_iff.mp hInsert with hRefuses | hTakes
    · exact hRefused _ hRefuses h
    · rw [h.2] at hTakes
      cases hTakes
  rename_i hInsert
  split
  · rename_i hInsertMeta
    exact Or.inl ⟨hRefused _ hInsertMeta, rfl⟩
  rename_i hInsertMeta
  split
  · rename_i hRelease
    exact Or.inl ⟨hRefused _ hRelease, rfl⟩
  rename_i hRelease
  refine Or.inr ⟨⟨fun statement => ?_, ?_⟩, rfl⟩
  · cases statement <;> simp_all
  · simp only [Bool.or_eq_true, Bool.not_eq_true', not_or, Bool.not_eq_false] at hInsert
    exact hInsert.2

/-- All of it, or nothing. -/
theorem recordEmbedding_cases (hName : embeddingsTableName modelName = .ok table)
    (refuses : RecordStatement → Bool) (now : Timestamp) (args : RecordArgs)
    (db : EmbeddingTables) :
    (¬ Accepts refuses modelName table args db ∧
        ∃ error, recordEmbedding refuses now modelName args db = (db, .error error)) ∨
      (Accepts refuses modelName table args db ∧ ∃ payload, db.takes table payload ∧
        recordEmbedding refuses now modelName args db =
          (db.recorded now modelName table args payload, .ok ())) := by
  have hRefused : ∀ statement, refuses statement = true →
      ¬ Accepts refuses modelName table args db := by
    intro statement hRefuses hAccepts
    rw [hAccepts.1 statement] at hRefuses
    cases hRefuses
  unfold recordEmbedding
  rw [hName]
  dsimp only
  split
  · rename_i hRefuses
    exact Or.inl ⟨hRefused _ hRefuses, _, rfl⟩
  rename_i hSelect
  split
  · rename_i hProfile
    refine Or.inl ⟨?_, _, rfl⟩
    rintro ⟨-, profile, payload, hFound, -⟩
    rw [hProfile] at hFound
    cases hFound
  rename_i profile hProfile
  split
  · rename_i error hVector
    refine Or.inl ⟨?_, _, rfl⟩
    rintro ⟨-, profile', payload, hFound, hPayload, -⟩
    rw [hProfile] at hFound
    cases hFound
    rw [hVector] at hPayload
    cases hPayload
  rename_i payload hVector
  split
  · rename_i hRefuses
    exact Or.inl ⟨hRefused _ hRefuses, _, rfl⟩
  rename_i hSavepoint
  rcases recordRows_cases refuses now modelName table args payload db
    (Bool.eq_false_iff.mpr hSelect) (Bool.eq_false_iff.mpr hSavepoint) with
    ⟨hNot, hError⟩ | ⟨⟨hAll, hTakes⟩, hOk⟩
  · refine Or.inl ⟨?_, .statement, withTransaction_error hError⟩
    rintro ⟨hAll, profile', payload', hFound, hPayload, hTakes⟩
    rw [hProfile] at hFound
    cases hFound
    rw [hVector] at hPayload
    cases hPayload
    exact hNot ⟨hAll, hTakes⟩
  · exact Or.inr ⟨⟨hAll, profile, payload, hProfile, hVector, hTakes⟩, payload, hTakes,
      withTransaction_ok hOk⟩

inductive EmbeddingOperation
  | record (refuses : RecordStatement → Bool) (now : Timestamp) (args : RecordArgs)
  | replace (refusesDelete : Bool) (refuses : RecordStatement → Bool) (now : Timestamp)
      (args : RecordArgs)
  | delete (refusesVectors refusesMeta : Bool) (embeddedId : String) (embeddedKind : EmbeddedKind)
  | mark (refuses : Bool) (embeddedId : String) (embeddedKind : EmbeddedKind) (suppressed : Bool)
  | archive (refusesTriggers refusesTable dropTable : Bool)

def perform (modelName : String) (db : EmbeddingTables) :
    EmbeddingOperation → EmbeddingTables × Except EmbeddingError Unit
  | .record refuses now args => recordEmbedding refuses now modelName args db
  | .replace refusesDelete refuses now args =>
      replaceEmbedding refusesDelete refuses now modelName args db
  | .delete refusesVectors refusesMeta embeddedId embeddedKind =>
      deleteEmbedding refusesVectors refusesMeta modelName embeddedId embeddedKind db
  | .mark refuses embeddedId embeddedKind suppressed =>
      markEmbeddingSuppressed refuses modelName embeddedId embeddedKind suppressed db
  | .archive refusesTriggers refusesTable dropTable =>
      dropEmbeddingsTriggers refusesTriggers refusesTable dropTable modelName db

def after (modelName : String) (db : EmbeddingTables) (operation : EmbeddingOperation) :
    EmbeddingTables :=
  (perform modelName db operation).1

/-- After the operation the two tables are in step, and an error left no trace. -/
def Keeps (modelName table : String) (db : EmbeddingTables) (operation : EmbeddingOperation) :
    Prop :=
  (after modelName db operation).InStep modelName table ∧
    ∀ error, (perform modelName db operation).2 = .error error →
      Intact db (after modelName db operation)

/-- No statement fails after a vector went outside of a savepoint, and no table is
dropped with its vectors. -/
def Sound (modelName table : String) (db : EmbeddingTables) : EmbeddingOperation → Prop
  | .record _ _ _ => True
  | .replace refusesDelete refuses _ args =>
      db.HasVector table args.embeddedId args.embeddedKind → refusesDelete = false →
        db.hasTable table → Accepts refuses modelName table args db
  | .delete refusesVectors refusesMeta embeddedId embeddedKind =>
      db.HasVector table embeddedId embeddedKind → refusesVectors = false → db.hasTable table →
        refusesMeta = false
  | .mark _ _ _ _ => True
  | .archive refusesTriggers refusesTable dropTable =>
      dropTable = true → refusesTriggers = false → refusesTable = false →
        ∀ v ∈ db.vectors, v.table ≠ table

theorem intact_refl (db : EmbeddingTables) : Intact db db := ⟨rfl, rfl⟩

theorem keeps_record (hName : embeddingsTableName modelName = .ok table)
    (h : db.InStep modelName table) (refuses : RecordStatement → Bool) (now : Timestamp)
    (args : RecordArgs) : Keeps modelName table db (.record refuses now args) := by
  unfold Keeps after perform
  rcases recordEmbedding_cases hName refuses now args db with
    ⟨-, error, hError⟩ | ⟨-, payload, -, hOk⟩
  · dsimp only
    rw [hError]
    exact ⟨h, fun _ _ => intact_refl db⟩
  · dsimp only
    rw [hOk]
    exact ⟨h.recorded now args payload, fun _ hError => by cases hError⟩

/-- Without the vector, the document is out of step as long as it has metadata. -/
theorem not_inStep_deleteVectors (h : db.InStep modelName table)
    (hVector : db.HasVector table embeddedId embeddedKind) :
    ¬ (db.deleteVectors table embeddedId embeddedKind).InStep modelName table := by
  intro hAfter
  have hMeta : (db.deleteVectors table embeddedId embeddedKind).HasMeta modelName embeddedId
      embeddedKind := (h.same embeddedId embeddedKind).mp hVector
  exact (hasVector_deleteVectors.mp ((hAfter.same embeddedId embeddedKind).mpr hMeta)).2 rfl

/-- A second deletion of the same document finds nothing. -/
theorem recorded_deleteVectors (now : Timestamp) (args : RecordArgs) (payload : List UInt8) :
    (db.deleteVectors table args.embeddedId args.embeddedKind).recorded now modelName table args
      payload = db.recorded now modelName table args payload := by
  have hNone : ¬ (db.deleteVectors table args.embeddedId args.embeddedKind).HasVector table
      args.embeddedId args.embeddedKind := fun h => (hasVector_deleteVectors.mp h).2 rfl
  unfold EmbeddingTables.recorded
  rw [deleteVectors_of_not_hasVector hNone]

theorem keeps_replace_iff (hName : embeddingsTableName modelName = .ok table)
    (h : db.InStep modelName table) (refusesDelete : Bool) (refuses : RecordStatement → Bool)
    (now : Timestamp) (args : RecordArgs) :
    Keeps modelName table db (.replace refusesDelete refuses now args) ↔
      Sound modelName table db (.replace refusesDelete refuses now args) := by
  unfold Keeps after perform Sound replaceEmbedding
  rw [hName]
  dsimp only
  split
  · rename_i hRefused
    refine iff_of_true ⟨h, fun _ _ => intact_refl db⟩ fun _ hDelete hTable => ?_
    simp [hDelete, hTable] at hRefused
  · rename_i hAllowed
    obtain ⟨hDelete, hTable⟩ : refusesDelete = false ∧ db.hasTable table = true := by
      simpa using hAllowed
    rcases recordEmbedding_cases hName refuses now args
        (db.deleteVectors table args.embeddedId args.embeddedKind) with
      ⟨hNot, error, hError⟩ | ⟨hAccepts, payload, -, hOk⟩
    · rw [hError]
      by_cases hVector : db.HasVector table args.embeddedId args.embeddedKind
      · refine iff_of_false (fun hKeeps => ?_) fun hSound => hNot (hSound hVector hDelete hTable)
        exact not_inStep_deleteVectors h hVector hKeeps.1
      · rw [deleteVectors_of_not_hasVector hVector]
        exact iff_of_true ⟨h, fun _ _ => intact_refl db⟩ fun hHas => absurd hHas hVector
    · rw [hOk, recorded_deleteVectors]
      exact iff_of_true ⟨h.recorded now args payload, fun _ hError => by cases hError⟩
        fun _ _ _ => hAccepts

theorem keeps_delete_iff (hName : embeddingsTableName modelName = .ok table)
    (h : db.InStep modelName table) (refusesVectors refusesMeta : Bool) :
    Keeps modelName table db (.delete refusesVectors refusesMeta embeddedId embeddedKind) ↔
      Sound modelName table db (.delete refusesVectors refusesMeta embeddedId embeddedKind) := by
  unfold Keeps after perform Sound deleteEmbedding
  rw [hName]
  dsimp only
  split
  · rename_i hRefused
    refine iff_of_true ⟨h, fun _ _ => intact_refl db⟩ fun _ hVectors hTable => ?_
    simp [hVectors, hTable] at hRefused
  · rename_i hAllowed
    obtain ⟨hVectors, hTable⟩ : refusesVectors = false ∧ db.hasTable table = true := by
      simpa using hAllowed
    cases refusesMeta with
    | false =>
      refine iff_of_true ⟨h.deleteBoth, fun _ hError => ?_⟩ fun _ _ _ => rfl
      cases hError
    | true =>
      by_cases hVector : db.HasVector table embeddedId embeddedKind
      · refine iff_of_false (fun hKeeps => not_inStep_deleteVectors h hVector hKeeps.1) ?_
        intro hSound
        cases hSound hVector hVectors hTable
      · rw [if_pos rfl, deleteVectors_of_not_hasVector hVector]
        exact iff_of_true ⟨h, fun _ _ => intact_refl db⟩ fun hHas => absurd hHas hVector

theorem keeps_mark (hName : embeddingsTableName modelName = .ok table)
    (h : db.InStep modelName table) (refuses suppressed : Bool) :
    Keeps modelName table db (.mark refuses embeddedId embeddedKind suppressed) := by
  unfold Keeps after perform markEmbeddingSuppressed
  rw [hName]
  dsimp only
  split
  · exact ⟨h, fun _ _ => intact_refl db⟩
  · refine ⟨⟨fun embeddedId' embeddedKind' => ?_, ?_⟩, fun _ hError => by cases hError⟩
    · refine Iff.trans ?_ (h.same embeddedId' embeddedKind')
      unfold HasVector
      simp only [List.mem_map, exists_exists_and_eq_and]
      refine exists_congr fun v => and_congr_right fun _ => ?_
      split <;> rfl
    · have hKeys : ((db.vectors.map fun v =>
          if isVectorOf table embeddedId embeddedKind v then { v with suppressed := suppressed }
          else v).filter fun v => v.table = table).map (fun v => (v.embeddedId, v.embeddedKind)) =
            (db.vectors.filter fun v => v.table = table).map
              fun v => (v.embeddedId, v.embeddedKind) := by
        rw [List.filter_map, List.map_map]
        have hTest : ((fun v : VectorRow => decide (v.table = table)) ∘ fun v =>
            if isVectorOf table embeddedId embeddedKind v then { v with suppressed := suppressed }
            else v) = fun v => decide (v.table = table) := by
          funext v
          dsimp only [Function.comp_apply]
          split <;> rfl
        rw [hTest]
        apply List.map_congr_left
        intro v _
        dsimp only [Function.comp_apply]
        split <;> rfl
      rw [hKeys]
      exact h.single

theorem keeps_archive_iff (hName : embeddingsTableName modelName = .ok table)
    (h : db.InStep modelName table) (refusesTriggers refusesTable dropTable : Bool) :
    Keeps modelName table db (.archive refusesTriggers refusesTable dropTable) ↔
      Sound modelName table db (.archive refusesTriggers refusesTable dropTable) := by
  unfold Keeps after perform Sound dropEmbeddingsTriggers
  rw [hName]
  dsimp only
  split
  · rename_i hRefused
    refine iff_of_true ⟨h, fun _ _ => intact_refl db⟩ fun _ hTriggers => ?_
    simp [hTriggers] at hRefused
  · rename_i hTriggers
    split
    · rename_i hKeep
      refine iff_of_true ⟨h.of_intact ⟨rfl, rfl⟩, fun _ hError => by cases hError⟩ fun hDrop => ?_
      simp [hDrop] at hKeep
    · rename_i hDrop
      split
      · rename_i hRefused
        refine iff_of_true ⟨h.of_intact ⟨rfl, rfl⟩, fun _ _ => ⟨rfl, rfl⟩⟩ fun _ _ hTable => ?_
        simp [hTable] at hRefused
      · rename_i hTable
        constructor
        · rintro ⟨hAfter, -⟩ - - - v hv hIn
          have hMeta := (h.same v.embeddedId v.embeddedKind).mp
            ⟨v, hv, isVectorOf_iff.mpr ⟨hIn, rfl, rfl⟩⟩
          obtain ⟨w, hw, hOf⟩ := (hAfter.same v.embeddedId v.embeddedKind).mpr hMeta
          have hOut := (List.mem_filter.mp hw).2
          simp [(isVectorOf_iff.mp hOf).1] at hOut
        · intro hNone
          have hAll : (db.vectors.filter fun v => v.table ≠ table) = db.vectors := by
            apply List.filter_eq_self.mpr
            intro v hv
            exact decide_eq_true (hNone (by simpa using hDrop) (by simpa using hTriggers)
              (by simpa using hTable) v hv)
          refine ⟨h.of_intact ⟨hAll, rfl⟩, fun _ hError => by cases hError⟩

theorem keeps_iff_sound (hName : embeddingsTableName modelName = .ok table)
    (h : db.InStep modelName table) (operation : EmbeddingOperation) :
    Keeps modelName table db operation ↔ Sound modelName table db operation := by
  cases operation with
  | record refuses now args => exact iff_of_true (keeps_record hName h refuses now args) trivial
  | replace refusesDelete refuses now args =>
    exact keeps_replace_iff hName h refusesDelete refuses now args
  | delete refusesVectors refusesMeta embeddedId embeddedKind =>
    exact keeps_delete_iff hName h refusesVectors refusesMeta
  | mark refuses embeddedId embeddedKind suppressed =>
    exact iff_of_true (keeps_mark hName h refuses suppressed) trivial
  | archive refusesTriggers refusesTable dropTable =>
    exact keeps_archive_iff hName h refusesTriggers refusesTable dropTable

/-- **The vectors of a model and its metadata stay in step, and no error leaves a trace,
exactly in the runs without a failure behind an unprotected deletion.** -/
theorem keptInStep_iff (hName : embeddingsTableName modelName = .ok table)
    (h : db.InStep modelName table) (operations : List EmbeddingOperation) :
    Run.Along (after modelName) (Keeps modelName table) db operations ↔
      Run.Along (after modelName) (Sound modelName table) db operations := by
  have hStep : ∀ db operation, db.InStep modelName table → Keeps modelName table db operation →
      (after modelName db operation).InStep modelName table := fun _ _ _ hKeeps => hKeeps.1
  exact Run.along_iff_of_invariant (fun _ operation hInv => keeps_iff_sound hName hInv operation)
    hStep h

/-! ## A vector of the wrong dimension -/

def voyageProfile : EmbeddingTables :=
  { tables := [⟨"lcm_embeddings_voyage4large", 1, true⟩]
    profiles := [⟨"voyage-4-large", 1⟩]
    vectors := []
    metaRows := [] }

def shortVector (values : List UInt32) : RecordArgs := ⟨"sum_1", .summary, .floats values, 3, false⟩

/-- A document is recorded, and then replaced by a vector of two numbers. -/
def replaceWrongDim : List EmbeddingOperation :=
  [.record (fun _ => false) 0 (shortVector [0]),
    .replace false (fun _ => false) 1 (shortVector [0, 0])]

theorem inStep_voyageProfile :
    voyageProfile.InStep "voyage-4-large" "lcm_embeddings_voyage4large" :=
  ⟨fun _ _ => ⟨fun ⟨_, hv, _⟩ => absurd hv List.not_mem_nil,
    fun ⟨_, hm, _⟩ => absurd hm List.not_mem_nil⟩, List.nodup_nil⟩

/-- The replacement raises, and the vector is gone while its metadata row stays. -/
theorem replaceWrongDim_not_kept :
    embeddingsTableName "voyage-4-large" = .ok "lcm_embeddings_voyage4large" ∧
      voyageProfile.InStep "voyage-4-large" "lcm_embeddings_voyage4large" ∧
        ¬ Run.Along (after "voyage-4-large")
          (Keeps "voyage-4-large" "lcm_embeddings_voyage4large") voyageProfile replaceWrongDim := by
  refine ⟨by decide +kernel, inStep_voyageProfile, ?_⟩
  rintro ⟨-, ⟨hAfter, -⟩, -⟩
  have hMeta : HasMeta (after "voyage-4-large" (after "voyage-4-large" voyageProfile
      (.record (fun _ => false) 0 (shortVector [0])))
        (.replace false (fun _ => false) 1 (shortVector [0, 0]))) "voyage-4-large" "sum_1"
          .summary := by
    refine ⟨⟨"sum_1", .summary, "voyage-4-large", 0, 3, false⟩, ?_, by decide, rfl⟩
    decide +kernel
  obtain ⟨v, hv, -⟩ := (hAfter.same _ _).mpr hMeta
  have hNone : (after "voyage-4-large" (after "voyage-4-large" voyageProfile
      (.record (fun _ => false) 0 (shortVector [0])))
        (.replace false (fun _ => false) 1 (shortVector [0, 0]))).vectors = [] := by
    decide +kernel
  rw [hNone] at hv
  cases hv

theorem keptInStep_iff_replaceWrongDim :
    Run.Along (after "voyage-4-large") (Keeps "voyage-4-large" "lcm_embeddings_voyage4large")
        voyageProfile replaceWrongDim ↔
      Run.Along (after "voyage-4-large") (Sound "voyage-4-large" "lcm_embeddings_voyage4large")
        voyageProfile replaceWrongDim :=
  keptInStep_iff (by decide +kernel) inStep_voyageProfile replaceWrongDim

end EmbeddingTables
end LosslessHermes
