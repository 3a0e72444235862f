import LosslessHermes.Library.Run
import LosslessHermes.Synthesis.PromptRegistry

/-!
# Histories of the prompt registry

A registration reads the greatest version of its triple, deactivates the rows of the triple and
inserts a new one, in one transaction that is rolled back when a statement fails or the new row
breaks a constraint. The seeding inserts a first version for the default prompts whose triple has
no row.
-/

namespace LosslessHermes.PromptVersions

open Dispatch (MemoryType PassKind)
open PromptRegistry (PromptRow RegisterPromptOptions normalizedTier)

/-! ## The rows -/

structure RegistryRow extends PromptRow where
  bundleVersion : Int
  notes : Option String

structure RegisterOptions extends RegisterPromptOptions where
  bundleVersion : Int
  notes : Option String

/-- A triple, whose tier is normalized. -/
structure PromptKey where
  memoryType : MemoryType
  tierLabel : Option String
  passKind : PassKind
  deriving DecidableEq, Repr

def promptKey (memoryType : MemoryType) (tierLabel : Option String) (passKind : PassKind) :
    PromptKey :=
  ⟨memoryType, normalizedTier tierLabel, passKind⟩

def RegistryRow.key (row : RegistryRow) : PromptKey :=
  ⟨row.memoryType, row.tierLabel, row.passKind⟩

def rowsOf (key : PromptKey) (rows : List RegistryRow) : List RegistryRow :=
  rows.filter fun row => row.key = key

/-- The primary key, `UNIQUE(memory_type, tier_label, pass_kind, version)`, to which missing tiers
are distinct, and the index `lcm_prompt_registry_uniq_lookup`, to which they are empty. -/
def RegistryRow.conflicts (old new : RegistryRow) : Bool :=
  old.promptId = new.promptId ||
    (old.tierLabel.isSome && old.key = new.key && old.version = new.version) ||
    (old.memoryType = new.memoryType && old.tierLabel.getD "" = new.tierLabel.getD "" &&
      old.passKind = new.passKind && old.version = new.version)

def insertRow (row : RegistryRow) (rows : List RegistryRow) : Option (List RegistryRow) :=
  if rows.any fun old => old.conflicts row then none else some (rows ++ [row])

inductive RegistryError
  | collision
  | database
  deriving DecidableEq, Repr

/-! ## The registration -/

inductive RegisterStatement
  | begin
  | selectMax
  | update
  | insert
  | commit
  deriving DecidableEq, Repr

def RegisterOptions.key (opts : RegisterOptions) : PromptKey :=
  promptKey opts.memoryType opts.tierLabel opts.passKind

/-- `COALESCE(MAX(version), 0)` -/
def maxVersion (key : PromptKey) (rows : List RegistryRow) : Nat :=
  ((rowsOf key rows).map (·.version)).foldl max 0

def deactivate (key : PromptKey) (row : RegistryRow) : RegistryRow :=
  if row.key = key ∧ row.active = true then
    { row with toPromptRow := { row.toPromptRow with active := false } }
  else row

def newRow (opts : RegisterOptions) (promptId : String) (version : Nat) : RegistryRow where
  promptId
  template := opts.template
  modelRecommendation := opts.modelRecommendation
  memoryType := opts.memoryType
  tierLabel := normalizedTier opts.tierLabel
  passKind := opts.passKind
  version
  active := true
  bundleVersion := opts.bundleVersion
  notes := opts.notes

/-- The statements of the transaction, up to the first that fails. -/
def registerStatements (rows : List RegistryRow) (opts : RegisterOptions) (generatedId : String)
    (fails : RegisterStatement → Bool) : Except RegistryError (List RegistryRow × String) :=
  if fails .begin || fails .selectMax then .error .database
  else
    let newVersion := maxVersion opts.key rows + 1
    if fails .update then .error .database
    else
      let updated := rows.map (deactivate opts.key)
      let promptId := opts.promptIdOverride.getD generatedId
      if fails .insert then .error .database
      else
        match insertRow (newRow opts promptId newVersion) updated with
        | none => .error .collision
        | some inserted => if fails .commit then .error .database else .ok (inserted, promptId)

/-- Each failure after `BEGIN` is rolled back. -/
def registerPrompt (rows : List RegistryRow) (opts : RegisterOptions) (generatedId : String)
    (fails : RegisterStatement → Bool) : List RegistryRow × Except RegistryError String :=
  match registerStatements rows opts generatedId fails with
  | .error error => (rows, .error error)
  | .ok (registered, promptId) => (registered, .ok promptId)

/-! ## The default prompts -/

/-- A default prompt is for a tier with a name, or for none. -/
structure SeedPromptDef where
  memoryType : MemoryType
  tierLabel : Option String
  passKind : PassKind
  template : String
  modelRecommendation : Option String
  notes : Option String
  named : tierLabel ≠ some ""

def defaultPrompt (template : PromptKey → String) (memoryType : MemoryType)
    (tierLabel : Option String) (passKind : PassKind) (notes : String)
    (named : tierLabel ≠ some "" := by decide) : SeedPromptDef where
  memoryType
  tierLabel
  passKind
  template := template ⟨memoryType, tierLabel, passKind⟩
  modelRecommendation := none
  notes := some notes
  named

/-- The default prompts; `template` has their texts. -/
def DEFAULT_PROMPTS (template : PromptKey → String) : List SeedPromptDef :=
  [ defaultPrompt template .episodicLeaf none .single
      ("v4.1 §12 default — episodic leaf summarizer. " ++
        "Override with operator runtime if customized."),
    defaultPrompt template .episodicCondensed (some "daily") .single
      "v4.1 §12 default — daily condensed.",
    defaultPrompt template .episodicCondensed (some "weekly") .single
      "v4.1 §12 default — weekly condensed.",
    defaultPrompt template .episodicCondensed (some "monthly") .single
      "v4.1 §12 default — monthly condensed (followed by verify_fidelity pass).",
    defaultPrompt template .episodicCondensed (some "monthly") .verifyFidelity
      ("v4.1 §12 default — monthly verify_fidelity " ++
        "(catches hallucinations only, NOT a critique-revise)."),
    defaultPrompt template .episodicYearly (some "yearly") .single
      "v4.1 §12 default — yearly single-candidate (one of 3 in best_of_n).",
    defaultPrompt template .episodicYearly (some "yearly") .bestOfNJudge
      ("v4.1 §12 default — yearly best_of_n judge. Output format: " ++
        "'Winner: N\\nReasoning: ...\\nConcerns: ...'"),
    defaultPrompt template .episodicCondensed (some "custom") .single
      ("v4.1 §12 default — custom tier, used by lcm_synthesize_around " ++
        "for both time and semantic windows."),
    defaultPrompt template .episodicCondensed (some "filtered") .single
      "v4.1 §12 default — filtered tier, used when source set came from grep filter.",
    defaultPrompt template .proceduralExtract none .single
      "v4.1 §12 default — procedural extraction. Output strict JSON.",
    defaultPrompt template .entityExtract none .single
      "v4.1 §12 default — entity extraction. Output strict JSON array." ]

structure SeedResult where
  seeded : Nat
  skipped : Nat
  deriving DecidableEq, Repr

def SeedPromptDef.key (definition : SeedPromptDef) : PromptKey :=
  ⟨definition.memoryType, definition.tierLabel, definition.passKind⟩

/-- Each default prompt has a triple of its own. -/
theorem nodup_key_defaultPrompts (template : PromptKey → String) :
    ((DEFAULT_PROMPTS template).map SeedPromptDef.key).Nodup := by
  have hKeys : (DEFAULT_PROMPTS template).map SeedPromptDef.key =
      (DEFAULT_PROMPTS fun _ => "").map SeedPromptDef.key := rfl
  rw [hKeys]
  decide

def seedRow (definition : SeedPromptDef) (promptId : String) : RegistryRow where
  promptId
  template := definition.template
  modelRecommendation := definition.modelRecommendation
  memoryType := definition.memoryType
  tierLabel := definition.tierLabel
  passKind := definition.passKind
  version := 1
  active := true
  bundleVersion := 1
  notes := some (definition.notes.getD "v4.1 §12 default seed")

/-- What a default prompt meets: the id that is drawn for it, and whether its query or its insert
fails. -/
structure SeedDraw where
  promptId : String
  fails : Bool

/-- The loop over the default prompts; a failure leaves what was inserted so far. -/
def seedDefaultPrompts (rows : List RegistryRow) (result : SeedResult) :
    List (SeedPromptDef × SeedDraw) → List RegistryRow × Except RegistryError SeedResult
  | [] => (rows, .ok result)
  | (definition, draw) :: rest =>
      if draw.fails then (rows, .error .database)
      else if rowsOf definition.key rows ≠ [] then
        seedDefaultPrompts rows { result with skipped := result.skipped + 1 } rest
      else
        match insertRow (seedRow definition draw.promptId) rows with
        | none => (rows, .error .collision)
        | some inserted =>
            seedDefaultPrompts inserted { result with seeded := result.seeded + 1 } rest

/-! ## Histories -/

/-- A seeding inside an outer transaction is undone with it when it raises. -/
inductive RegistryCall
  | register (opts : RegisterOptions) (generatedId : String) (fails : RegisterStatement → Bool)
  | seed (definitions : List (SeedPromptDef × SeedDraw)) (outerTransaction : Bool)

/-- The rows after a call, and whether it raised. -/
def RegistryCall.run (rows : List RegistryRow) : RegistryCall → List RegistryRow × Bool
  | .register opts generatedId fails =>
      let result := registerPrompt rows opts generatedId fails
      (result.1, !result.2.isOk)
  | .seed definitions outerTransaction =>
      let result := seedDefaultPrompts rows ⟨0, 0⟩ definitions
      (if outerTransaction && !result.2.isOk then rows else result.1, !result.2.isOk)

/-- The table, and the triples and ids that were registered, in order. -/
structure Registry where
  rows : List RegistryRow
  registered : List (PromptKey × String)

namespace Registry

def start : Registry := ⟨[], []⟩

/-- What a call adds to the record. -/
def added (rows : List RegistryRow) : RegistryCall → List (PromptKey × String)
  | .register opts generatedId fails =>
      match (registerPrompt rows opts generatedId fails).2 with
      | .ok promptId => [(opts.key, promptId)]
      | .error _ => []
  | .seed definitions outerTransaction =>
      let seeded := (RegistryCall.seed definitions outerTransaction).run rows
      (seeded.1.drop rows.length).map fun row => (row.key, row.promptId)

def step (registry : Registry) (call : RegistryCall) : Registry :=
  { rows := (call.run registry.rows).1
    registered := registry.registered ++ added registry.rows call }

/-- The ids of a triple, in the order of their registration. -/
def idsOf (registry : Registry) (key : PromptKey) : List String :=
  (registry.registered.filter fun entry => entry.1 = key).map (·.2)

/-- The newest row of each triple alone is active, and the versions are those of the
registrations. -/
structure Kept (registry : Registry) : Prop where
  normalized : ∀ row ∈ registry.rows, row.tierLabel ≠ some ""
  versions : ∀ key, (rowsOf key registry.rows).map (fun row => (row.promptId, row.version)) =
    (registry.idsOf key).zipIdx 1
  active : ∀ key, rowsOf key registry.rows ≠ [] → ∃ row,
    (rowsOf key registry.rows).filter (·.active) = [row] ∧
      ∀ other ∈ rowsOf key registry.rows, other.version ≤ row.version

/-- What a call leaves as it was. -/
structure Leaves (registry : Registry) (call : RegistryCall) : Prop where
  raising : ∀ opts generatedId fails, call = .register opts generatedId fails →
    (call.run registry.rows).2 = true → (registry.step call).rows = registry.rows
  seeded : ∀ definitions outer, call = .seed definitions outer → ∀ key,
    rowsOf key registry.rows ≠ [] →
      rowsOf key (registry.step call).rows = rowsOf key registry.rows

/-! ## The rows of one triple -/

/-- Versions from one on, and the last row alone active. -/
structure Series (rows : List RegistryRow) : Prop where
  versions : rows.map (·.version) = List.range' 1 rows.length
  old : ∀ row ∈ rows.dropLast, row.active = false
  newest : ∀ row ∈ rows.getLast?, row.active = true

variable {rows new : List RegistryRow} {row : RegistryRow} {key key' : PromptKey}

theorem series_nil : Series [] where
  versions := rfl
  old := fun _ h => nomatch h
  newest := fun _ h => nomatch h

theorem Series.le_length (h : Series rows) (hRow : row ∈ rows) : row.version ≤ rows.length := by
  have hMem : row.version ∈ List.range' 1 rows.length :=
    h.versions ▸ List.mem_map_of_mem hRow
  obtain ⟨-, hLt⟩ := List.mem_range'_1.mp hMem
  omega

theorem foldl_max_range' (n : Nat) : (List.range' 1 n).foldl max 0 = n := by
  induction n with
  | zero => rfl
  | succ n ih =>
    rw [List.range'_1_concat, List.foldl_concat, ih]
    omega

theorem Series.maxVersion_eq (h : Series (rowsOf key rows)) :
    maxVersion key rows = (rowsOf key rows).length := by
  unfold maxVersion
  rw [h.versions, foldl_max_range']

/-- A new version on top of deactivated ones. -/
theorem Series.push (h : Series rows) (hOff : ∀ old ∈ new, old.active = false)
    (hVersions : new.map (·.version) = rows.map (·.version))
    (hVersion : row.version = rows.length + 1) (hActive : row.active = true) :
    Series (new ++ [row]) := by
  have hLength : new.length = rows.length := by
    have hSame := congrArg List.length hVersions
    rw [List.length_map, List.length_map] at hSame
    exact hSame
  refine ⟨?_, fun old hOld => ?_, fun last hLast => ?_⟩
  · rw [List.map_append, hVersions, h.versions, List.length_append, hLength, List.map_singleton,
      hVersion, List.length_singleton, List.range'_1_concat, Nat.add_comm 1]
  · rw [List.dropLast_concat] at hOld
    exact hOff old hOld
  · rw [List.getLast?_concat] at hLast
    cases hLast
    exact hActive

/-- The last row is the only active one, and no version is greater. -/
theorem Series.exists_active (h : Series rows) (hSome : rows ≠ []) :
    ∃ row, rows.filter (·.active) = [row] ∧ ∀ other ∈ rows, other.version ≤ row.version := by
  obtain ⟨older, last, rfl⟩ : ∃ older last, rows = older ++ [last] :=
    ⟨_, _, (List.dropLast_append_getLast hSome).symm⟩
  have hOld := h.old
  have hVersions := h.versions
  rw [List.dropLast_concat] at hOld
  rw [List.map_append, List.length_append, List.length_singleton,
    List.range'_1_concat] at hVersions
  obtain ⟨-, hLast⟩ := List.append_inj' hVersions rfl
  have hNone : older.filter (·.active) = [] :=
    List.filter_eq_nil_iff.mpr fun row hRow => by rw [hOld row hRow]; exact Bool.false_ne_true
  refine ⟨last, ?_, fun other hOther => ?_⟩
  · have hActive := h.newest last List.getLast?_concat
    rw [List.filter_append, hNone, List.nil_append]
    exact List.filter_cons_of_pos (p := fun row : RegistryRow => row.active) hActive
  · have hLe := h.le_length hOther
    rw [List.length_append, List.length_singleton] at hLe
    rw [List.map_singleton] at hLast
    rw [(List.cons.inj hLast).1]
    omega

/-! ## The rows of every triple -/

theorem key_deactivate (row : RegistryRow) : (deactivate key row).key = row.key := by
  unfold deactivate
  split
  · rfl
  · rfl

theorem deactivate_of_ne (hKey : row.key ≠ key) : deactivate key row = row :=
  if_neg fun hBoth => hKey hBoth.1

theorem active_deactivate (hKey : row.key = key) : (deactivate key row).active = false := by
  unfold deactivate
  split
  · rfl
  · rename_i hNot
    exact Bool.eq_false_iff.mpr fun hActive => hNot ⟨hKey, hActive⟩

/-- What deactivation keeps of a row. -/
theorem deactivate_kept (row : RegistryRow) : (deactivate key row).promptId = row.promptId ∧
    (deactivate key row).version = row.version ∧
      (deactivate key row).tierLabel = row.tierLabel := by
  unfold deactivate
  split
  · exact ⟨rfl, rfl, rfl⟩
  · exact ⟨rfl, rfl, rfl⟩

theorem rowsOf_map_deactivate : rowsOf key' (rows.map (deactivate key)) =
    (rowsOf key' rows).map (deactivate key) := by
  unfold rowsOf
  rw [List.filter_map]
  refine congrArg _ (List.filter_congr fun row _ => ?_)
  rw [Function.comp_apply, key_deactivate]

theorem rowsOf_push (row : RegistryRow) : rowsOf key (rows ++ [row]) =
    rowsOf key rows ++ if row.key = key then [row] else [] := by
  unfold rowsOf
  rw [List.filter_append]
  by_cases hKey : row.key = key
  · rw [if_pos hKey, List.filter_cons_of_pos (by simpa using hKey), List.filter_nil]
  · rw [if_neg hKey, List.filter_cons_of_neg (by simpa using hKey), List.filter_nil]

/-- What each call keeps of the table and the record. -/
structure Tracked (registry : Registry) : Prop where
  normalized : ∀ row ∈ registry.rows, row.tierLabel ≠ some ""
  ids : ∀ key, (rowsOf key registry.rows).map (·.promptId) = registry.idsOf key
  series : ∀ key, Series (rowsOf key registry.rows)

variable {registered : List (PromptKey × String)} {registry : Registry}

theorem tracked_start : Tracked start where
  normalized := fun _ h => nomatch h
  ids := fun _ => rfl
  series := fun _ => series_nil

theorem idsOf_push (entry : PromptKey × String) :
    idsOf ⟨rows, registered ++ [entry]⟩ key =
      idsOf ⟨new, registered⟩ key ++ if entry.1 = key then [entry.2] else [] := by
  unfold idsOf
  rw [List.filter_append, List.map_append]
  by_cases hKey : entry.1 = key
  · rw [if_pos hKey, List.filter_cons_of_pos (by simpa using hKey)]
    rfl
  · rw [if_neg hKey, List.filter_cons_of_neg (by simpa using hKey)]
    rfl

/-- A new version of a triple, whose other rows are deactivated. -/
theorem Tracked.push (h : Tracked ⟨rows, registered⟩) (hTier : row.tierLabel ≠ some "")
    (hVersion : row.version = (rowsOf row.key rows).length + 1) (hActive : row.active = true) :
    Tracked ⟨rows.map (deactivate row.key) ++ [row], registered ++ [(row.key, row.promptId)]⟩ := by
  refine ⟨fun other hOther => ?_, fun key => ?_, fun key => ?_⟩
  · rcases List.mem_append.mp hOther with hOld | hNew
    · obtain ⟨old, hMem, rfl⟩ := List.mem_map.mp hOld
      rw [(deactivate_kept old).2.2]
      exact h.normalized old hMem
    · rw [List.mem_singleton.mp hNew]
      exact hTier
  · dsimp only
    rw [rowsOf_push, rowsOf_map_deactivate, @idsOf_push _ rows key registered, List.map_append,
      List.map_map, ← h.ids key]
    refine congrArg₂ _ (List.map_congr_left fun old _ => (deactivate_kept old).1) ?_
    split
    · rfl
    · rfl
  · dsimp only
    rw [rowsOf_push, rowsOf_map_deactivate]
    by_cases hKey : row.key = key
    · subst hKey
      rw [if_pos rfl]
      refine (h.series row.key).push (fun old hOld => ?_) ?_ hVersion hActive
      · obtain ⟨before, hBefore, rfl⟩ := List.mem_map.mp hOld
        exact active_deactivate (of_decide_eq_true (List.mem_filter.mp hBefore).2)
      · rw [List.map_map]
        exact List.map_congr_left fun old _ => (deactivate_kept old).2.1
    · rw [if_neg hKey, List.append_nil]
      have hSame : (rowsOf key rows).map (deactivate row.key) = rowsOf key rows := by
        refine (List.map_congr_left fun old hOld => ?_).trans (List.map_id _)
        refine deactivate_of_ne fun hOther => hKey ?_
        rw [← hOther]
        exact of_decide_eq_true (List.mem_filter.mp hOld).2
      rw [hSame]
      exact h.series key

theorem Tracked.kept (h : Tracked registry) : Kept registry where
  normalized := h.normalized
  versions := fun key => by
    have hIds := h.ids key
    have hLength := congrArg List.length hIds
    rw [List.length_map] at hLength
    rw [List.zipIdx_eq_zip_range', ← hIds, List.length_map, ← (h.series key).versions,
      List.zip_map']
  active := fun key hSome => (h.series key).exists_active hSome

/-! ## The calls -/

theorem insertRow_eq_some (h : insertRow row rows = some new) : new = rows ++ [row] := by
  unfold insertRow at h
  split at h
  · cases h
  · exact (Option.some.inj h).symm

/-- A registration adds a version, or raises and leaves the table. -/
theorem registerPrompt_cases (rows : List RegistryRow) (opts : RegisterOptions)
    (generatedId : String) (fails : RegisterStatement → Bool) :
    (∃ error, registerPrompt rows opts generatedId fails = (rows, .error error)) ∨
      ∃ promptId, registerPrompt rows opts generatedId fails =
        (rows.map (deactivate opts.key) ++ [newRow opts promptId (maxVersion opts.key rows + 1)],
          .ok promptId) := by
  unfold registerPrompt registerStatements
  dsimp only
  split
  · rename_i hError
    exact .inl ⟨_, rfl⟩
  · rename_i registered promptId hOk
    refine .inr ⟨promptId, ?_⟩
    split at hOk
    · cases hOk
    · split at hOk
      · cases hOk
      · split at hOk
        · cases hOk
        · split at hOk
          · cases hOk
          · rename_i inserted hInsert
            split at hOk
            · cases hOk
            · cases hOk
              rw [insertRow_eq_some hInsert]

theorem normalizedTier_ne (tierLabel : Option String) : normalizedTier tierLabel ≠ some "" := by
  unfold normalizedTier
  split
  · exact fun h => nomatch h
  · assumption

theorem Tracked.register (h : Tracked registry) (opts : RegisterOptions) (generatedId : String)
    (fails : RegisterStatement → Bool) :
    Tracked (registry.step (.register opts generatedId fails)) := by
  rcases registerPrompt_cases registry.rows opts generatedId fails with
    ⟨error, hResult⟩ | ⟨promptId, hResult⟩
  · unfold step RegistryCall.run added
    dsimp only
    rw [hResult]
    dsimp only
    rw [List.append_nil]
    exact h
  · have hVersion : (newRow opts promptId (maxVersion opts.key registry.rows + 1)).version =
        (rowsOf opts.key registry.rows).length + 1 :=
      congrArg (· + 1) (h.series opts.key).maxVersion_eq
    have hPushed := h.push (normalizedTier_ne opts.tierLabel) hVersion rfl
    unfold step RegistryCall.run added
    dsimp only
    rw [hResult]
    exact hPushed

/-- First versions of triples that have no row. -/
inductive SeedsFrom : List RegistryRow → List RegistryRow → Prop
  | nil (rows : List RegistryRow) : SeedsFrom rows []
  | cons {rows new : List RegistryRow} {row : RegistryRow} (hNone : rowsOf row.key rows = [])
      (hTier : row.tierLabel ≠ some "") (hVersion : row.version = 1) (hActive : row.active = true)
      (hRest : SeedsFrom (rows ++ [row]) new) : SeedsFrom rows (row :: new)

theorem seedDefaultPrompts_seedsFrom (definitions : List (SeedPromptDef × SeedDraw))
    (rows : List RegistryRow) (result : SeedResult) :
    ∃ new, (seedDefaultPrompts rows result definitions).1 = rows ++ new ∧ SeedsFrom rows new := by
  induction definitions generalizing rows result with
  | nil => exact ⟨[], (List.append_nil rows).symm, .nil rows⟩
  | cons entry definitions ih =>
    obtain ⟨definition, draw⟩ := entry
    rw [seedDefaultPrompts]
    split
    · exact ⟨[], (List.append_nil rows).symm, .nil rows⟩
    · split
      · exact ih rows _
      · rename_i hNone
        split
        · exact ⟨[], (List.append_nil rows).symm, .nil rows⟩
        · rename_i inserted hInsert
          obtain rfl := insertRow_eq_some hInsert
          obtain ⟨new, hNew, hSeeds⟩ := ih _ { result with seeded := result.seeded + 1 }
          have hFirst : rowsOf (seedRow definition draw.promptId).key rows = [] :=
            not_not.mp hNone
          refine ⟨_ :: new, ?_, .cons hFirst definition.named rfl rfl hSeeds⟩
          rw [hNew, List.append_assoc, List.singleton_append]

theorem map_deactivate_of_none (hNone : rowsOf key rows = []) :
    rows.map (deactivate key) = rows := by
  refine (List.map_congr_left fun row hRow => ?_).trans (List.map_id _)
  refine deactivate_of_ne fun hKey => ?_
  exact List.filter_eq_nil_iff.mp hNone row hRow (by simpa using hKey)

theorem Tracked.seeds (h : Tracked ⟨rows, registered⟩) (hSeeds : SeedsFrom rows new) :
    Tracked ⟨rows ++ new, registered ++ new.map fun row => (row.key, row.promptId)⟩ := by
  induction hSeeds generalizing registered with
  | nil rows =>
    rw [List.append_nil, List.map_nil, List.append_nil]
    exact h
  | @cons rows new row hNone hTier hVersion hActive hRest ih =>
    have hPushed := h.push hTier (by rw [hNone, hVersion]; rfl) hActive
    rw [map_deactivate_of_none hNone] at hPushed
    have hAll := ih hPushed
    rw [List.append_assoc, List.append_assoc] at hAll
    exact hAll

/-- The rows of a triple that has one stay as they are. -/
theorem SeedsFrom.rowsOf_eq (hSeeds : SeedsFrom rows new) (hSome : rowsOf key rows ≠ []) :
    rowsOf key (rows ++ new) = rowsOf key rows := by
  induction hSeeds with
  | nil rows => rw [List.append_nil]
  | @cons rows new row hNone hTier hVersion hActive hRest ih =>
    have hKey : row.key ≠ key := fun hSame => hSome (hSame ▸ hNone)
    have hPush : rowsOf key (rows ++ [row]) = rowsOf key rows := by
      rw [rowsOf_push, if_neg hKey, List.append_nil]
    have hAll := ih (hPush.symm ▸ hSome)
    rw [List.append_assoc, List.singleton_append, hPush] at hAll
    exact hAll

/-- A seeding appends first versions, or is undone. -/
theorem run_seed (rows : List RegistryRow) (definitions : List (SeedPromptDef × SeedDraw))
    (outerTransaction : Bool) : ∃ new,
      ((RegistryCall.seed definitions outerTransaction).run rows).1 = rows ++ new ∧
        SeedsFrom rows new := by
  unfold RegistryCall.run
  dsimp only
  split
  · exact ⟨[], (List.append_nil rows).symm, .nil rows⟩
  · exact seedDefaultPrompts_seedsFrom definitions rows ⟨0, 0⟩

theorem Tracked.step (h : Tracked registry) (call : RegistryCall) :
    Tracked (registry.step call) := by
  cases call with
  | register opts generatedId fails => exact h.register opts generatedId fails
  | seed definitions outerTransaction =>
    obtain ⟨new, hNew, hSeeds⟩ := run_seed registry.rows definitions outerTransaction
    unfold Registry.step added
    dsimp only
    rw [hNew, List.drop_left]
    exact h.seeds hSeeds

theorem leaves (registry : Registry) (call : RegistryCall) : Leaves registry call := by
  constructor
  · rintro opts generatedId fails rfl hRaised
    unfold step
    dsimp only
    unfold RegistryCall.run at hRaised ⊢
    dsimp only at hRaised ⊢
    rcases registerPrompt_cases registry.rows opts generatedId fails with
      ⟨error, hResult⟩ | ⟨promptId, hResult⟩
    · rw [hResult]
    · rw [hResult] at hRaised
      cases hRaised
  · rintro definitions outerTransaction rfl key hSome
    obtain ⟨new, hNew, hSeeds⟩ := run_seed registry.rows definitions outerTransaction
    unfold step
    dsimp only
    rw [hNew]
    exact hSeeds.rowsOf_eq hSome

/-! ## The constraints -/

theorem key_eq_of_folded (hRow : row.tierLabel ≠ some "") (hOther : key.tierLabel ≠ some "")
    (hType : row.memoryType = key.memoryType)
    (hTier : row.tierLabel.getD "" = key.tierLabel.getD "") (hPass : row.passKind = key.passKind) :
    row.key = key := by
  have hSame : row.tierLabel = key.tierLabel := by
    cases hLeft : row.tierLabel with
    | none =>
      cases hRight : key.tierLabel with
      | none => rfl
      | some tier =>
        rw [hLeft, hRight] at hTier
        exact absurd (hRight.trans (congrArg some hTier.symm)) hOther
    | some tier =>
      cases hRight : key.tierLabel with
      | none =>
        rw [hLeft, hRight] at hTier
        exact absurd (hLeft.trans (congrArg some hTier)) hRow
      | some tier' =>
        rw [hLeft, hRight] at hTier
        exact congrArg some hTier
  unfold RegistryRow.key
  rw [hType, hSame, hPass]

/-- Of the constraints only the primary key can object to a new version. -/
theorem Tracked.conflicts_iff (h : Tracked registry) (opts : RegisterOptions) (promptId : String)
    (hRow : row ∈ registry.rows.map (deactivate opts.key)) :
    row.conflicts (newRow opts promptId (maxVersion opts.key registry.rows + 1)) = true ↔
      row.promptId = promptId := by
  obtain ⟨old, hOld, rfl⟩ := List.mem_map.mp hRow
  have hTier : (deactivate opts.key old).tierLabel ≠ some "" := by
    rw [(deactivate_kept old).2.2]
    exact h.normalized old hOld
  have hVersion : (deactivate opts.key old).key = opts.key →
      (deactivate opts.key old).version ≠ maxVersion opts.key registry.rows + 1 := by
    intro hKey
    rw [key_deactivate] at hKey
    have hLe := (h.series opts.key).le_length
      (List.mem_filter.mpr ⟨hOld, decide_eq_true hKey⟩)
    rw [(deactivate_kept old).2.1, (h.series opts.key).maxVersion_eq]
    omega
  unfold RegistryRow.conflicts
  simp only [Bool.or_eq_true, Bool.and_eq_true, decide_eq_true_eq]
  constructor
  · rintro ((hId | ⟨⟨-, hKey⟩, hSame⟩) | ⟨⟨⟨hType, hFolded⟩, hPass⟩, hSame⟩)
    · exact hId
    · exact absurd hSame (hVersion hKey)
    · exact absurd hSame (hVersion (key_eq_of_folded hTier (normalizedTier_ne opts.tierLabel)
        hType hFolded hPass))
  · exact fun hId => .inl (.inl hId)

theorem isOf_eq (row : RegistryRow) (opts : RegisterOptions) :
    row.toPromptRow.isOf opts.memoryType (normalizedTier opts.tierLabel) opts.passKind =
      decide (row.key = opts.key) := by
  unfold PromptRow.isOf RegistryRow.key RegisterOptions.key promptKey
  rw [← Bool.decide_and, ← Bool.decide_and]
  simp only [PromptKey.mk.injEq, and_assoc]

theorem toPromptRow_deactivate (row : RegistryRow) (opts : RegisterOptions) :
    (deactivate opts.key row).toPromptRow =
      row.toPromptRow.deactivated opts.toRegisterPromptOptions := by
  unfold PromptRow.deactivated deactivate
  rw [isOf_eq]
  by_cases hKey : row.key = opts.key
  · rw [if_pos (decide_eq_true hKey)]
    by_cases hActive : row.active = true
    · rw [if_pos ⟨hKey, hActive⟩]
    · rw [if_neg fun hBoth => hActive hBoth.2, ← Bool.eq_false_iff.mpr hActive]
  · rw [if_neg fun hBoth => hKey hBoth.1, if_neg (by simpa using hKey)]

theorem maxVersion_toPromptRow (rows : List RegistryRow) (opts : RegisterOptions) :
    PromptRegistry.maxVersion (rows.map (·.toPromptRow)) opts.toRegisterPromptOptions =
      maxVersion opts.key rows := by
  unfold PromptRegistry.maxVersion maxVersion rowsOf
  rw [List.filter_map, List.map_map]
  refine congrArg (List.foldl max 0 ·) (congrArg _ (List.filter_congr fun row _ => ?_))
  exact isOf_eq row opts

/-- Where no statement fails, the transaction is the registration that looks at the ids only. -/
theorem Tracked.registerPrompt_toPromptRow (h : Tracked registry) (opts : RegisterOptions)
    (generatedId : String) :
    let result := registerPrompt registry.rows opts generatedId fun _ => false
    let simple := PromptRegistry.registerPrompt (registry.rows.map (·.toPromptRow))
      opts.toRegisterPromptOptions generatedId
    result.1.map (·.toPromptRow) = simple.1 ∧ result.2.toOption = simple.2.toOption := by
  let promptId := opts.promptIdOverride.getD generatedId
  let row := newRow opts promptId (maxVersion opts.key registry.rows + 1)
  have hRow : PromptRegistry.registeredRow (registry.rows.map (·.toPromptRow))
      opts.toRegisterPromptOptions generatedId = row.toPromptRow := by
    unfold PromptRegistry.registeredRow
    rw [maxVersion_toPromptRow]
    rfl
  have hTaken : ((registry.rows.map (deactivate opts.key)).any fun old => old.conflicts row) =
      (registry.rows.map (·.toPromptRow)).any fun old => old.promptId = row.promptId := by
    rw [Bool.eq_iff_iff, List.any_eq_true, List.any_eq_true]
    constructor
    · rintro ⟨old, hOld, hConflict⟩
      have hId := (h.conflicts_iff opts promptId hOld).mp hConflict
      obtain ⟨before, hBefore, rfl⟩ := List.mem_map.mp hOld
      rw [(deactivate_kept before).1] at hId
      exact ⟨before.toPromptRow, List.mem_map_of_mem hBefore, decide_eq_true hId⟩
    · rintro ⟨old, hOld, hId⟩
      obtain ⟨before, hBefore, rfl⟩ := List.mem_map.mp hOld
      refine ⟨deactivate opts.key before, List.mem_map_of_mem hBefore, ?_⟩
      refine (h.conflicts_iff opts promptId (List.mem_map_of_mem hBefore)).mpr ?_
      rw [(deactivate_kept before).1]
      exact of_decide_eq_true hId
  have hSame : (registry.rows.map (deactivate opts.key)).map (·.toPromptRow) =
      (registry.rows.map (·.toPromptRow)).map (·.deactivated opts.toRegisterPromptOptions) := by
    rw [List.map_map, List.map_map]
    exact List.map_congr_left fun row _ => toPromptRow_deactivate row opts
  unfold registerPrompt registerStatements PromptRegistry.registerPrompt insertRow
  dsimp only
  rw [hRow]
  simp only [Bool.or_false, Bool.false_eq_true, if_false]
  rw [hTaken]
  by_cases hFree : ((registry.rows.map (·.toPromptRow)).any fun old =>
      old.promptId = row.promptId) = true
  · rw [if_pos hFree, if_pos hFree]
    exact ⟨rfl, rfl⟩
  · rw [if_neg hFree, if_neg hFree]
    dsimp only
    refine ⟨?_, rfl⟩
    rw [List.map_append, hSame]
    rfl

theorem registerPrompt_toPromptRow_start :
    let opts : RegisterOptions := ⟨⟨.episodicLeaf, .single, "t", some "", none, none⟩, 1, none⟩
    let result := registerPrompt [] opts "p" fun _ => false
    let simple := PromptRegistry.registerPrompt [] opts.toRegisterPromptOptions "p"
    result.1.map (·.toPromptRow) = simple.1 ∧ result.2.toOption = simple.2.toOption :=
  tracked_start.registerPrompt_toPromptRow _ "p"

/-- **After every sequence of registrations and seedings each triple has versions `1..n` in the
order of registration and its newest row alone is active; a registration that raises leaves the
table, and a seeding the triples that have a row.** -/
theorem kept_run (calls : List RegistryCall) :
    Kept (Run.final step start calls) ∧ ∀ call, Leaves (Run.final step start calls) call :=
  ⟨(Run.final_invariant (fun _ call _ hTracked => hTracked.step call) tracked_start).kept,
    leaves _⟩

end Registry

end LosslessHermes.PromptVersions
