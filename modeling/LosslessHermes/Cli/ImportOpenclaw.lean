import LosslessHermes.Library.WriteAhead
import LosslessHermes.Store.LargeFiles

/-!
# The import of an OpenClaw directory

`import_openclaw` copies the file `lcm.db`, the tree of large files and a key to another
directory, opens the copy and migrates it. The database of either side is a main file with a
write-ahead log, of which the copy takes the main file only.

`carries_iff` says when an import carries over what was committed, and leaves both sides
alone if it refuses. What SQLite, the migrations and the disk answer is the environment's.
-/

namespace LosslessHermes.ImportOpenclaw

open WriteAhead

/-- The entries below a directory; a directory has no bytes. -/
abbrev Tree := List (String × Option Bytes)

inductive RootKind
  | missing
  | file
  | directory
  deriving DecidableEq, Repr

/-- One side. Its large files are in `lcm-files/` or in `large-files/`. -/
structure Root (κ π : Type) where
  kind : RootKind
  db : Database κ π
  largeFiles : Option Tree
  voyageApiKey : Option Bytes

/-- A row may be missing, or hold `NULL`. -/
inductive IntegrityAnswer
  | cannotOpen (error : String)
  | raised (error : String)
  | row (row : Option (Option String))
  deriving DecidableEq, Repr

/-- Read-only connections see the content of a database and change nothing. -/
structure Env (κ π : Type) where
  sourceDir : String
  destDir : String
  integrityCheck : (κ → Option π) → IntegrityAnswer
  existingDataSummary : (κ → Option π) → String
  /-- The entries of the destination's large files cannot be listed. -/
  unreadable : Bool
  /-- The space on the disk was measured, and is too small. -/
  diskWarning : Option String
  migrate : (κ → Option π) → Except String (κ → Option π)
  sampleIdentityHashes : (κ → Option π) → Nat → Nat × Nat × Nat
  writeImportedAt : (κ → Option π) → κ → Option π

structure Options where
  force : Bool := false
  validateRows : Nat := 100
  dryRun : Bool := false
  diskCheckYes : Bool := false
  deriving DecidableEq, Repr

structure ImportResult where
  ok : Bool
  dryRun : Bool
  report : String
  error : String := ""
  validated : Nat := 0
  matched : Nat := 0
  mismatched : Nat := 0
  deriving DecidableEq, Repr

/-- What a call leaves, and the destination as the migrations find it. -/
structure Outcome (κ π : Type) where
  source : Root κ π
  dest : Root κ π
  beforeMigrations : Option (Root κ π)
  result : Except String ImportResult

variable {κ π : Type} [DecidableEq κ]

/-! ## The checks -/

def verifySource (env : Env κ π) (source : Root κ π) : Option String :=
  let sourceDb := env.sourceDir ++ "/lcm.db"
  match source.kind with
  | .missing => some ("source path " ++ env.sourceDir ++ " does not exist")
  | .file => some ("source path " ++ env.sourceDir ++ " is not a directory")
  | .directory =>
      match source.db.content with
      | none => some ("source path " ++ env.sourceDir ++ " does not contain lcm.db")
      | some content =>
          match env.integrityCheck content with
          | .cannotOpen error =>
              some ("source " ++ sourceDb ++ " is not a valid SQLite file: " ++ error)
          | .raised error => some ("source " ++ sourceDb ++ " failed integrity_check: " ++ error)
          | .row none => some ("source " ++ sourceDb ++ " failed integrity_check: no result")
          | .row (some text) =>
              if Text.lower (text.getD "").toList = "ok".toList then none
              else some ("source " ++ sourceDb ++ " failed integrity_check: " ++
                text.getD "None")

def checkDestinationState (env : Env κ π) (dest : Root κ π) (force : Bool) : Bool × String :=
  let database := match dest.db.content with
    | some content => [env.existingDataSummary content]
    | none => []
  let largeFiles := match dest.largeFiles with
    | some tree =>
        if env.unreadable then [env.destDir ++ "/large-files/ exists (unreadable)"]
        else if 0 < tree.length then
          [env.destDir ++ "/large-files/ holds " ++ toString tree.length ++ " entries"]
        else []
    | none => []
  let summaries := database ++ largeFiles
  let summary := "; ".intercalate summaries
  if summaries.length = 0 then (true, "")
  else if force then
    (true, "--force given; overwriting destination. " ++ summary ++
      "; --force will discard them.")
  else
    (false, "destination " ++ env.destDir ++ " holds existing data: " ++ summary ++
      ". Refusing without --force. Re-run with --force to overwrite " ++
      "(acknowledges discarding existing rows + large-files).")

/-- The report so far, or with it the error of a refusal. -/
def preflight (env : Env κ π) (source dest : Root κ π) (opts : Options) :
    Except (List String × String) (List String) :=
  let report := ["source:      " ++ env.sourceDir, "destination: " ++ env.destDir]
  match verifySource env source with
  | some error => .error (report, error)
  | none =>
      let (destOk, destMsg) := checkDestinationState env dest opts.force
      let report := report ++ ["source: OK (integrity_check passed)"] ++
        if destMsg = "" then [] else [destMsg]
      if destOk = false then .error (report, destMsg)
      else
        match env.diskWarning with
        | none => .ok report
        | some warning =>
            if opts.force || opts.diskCheckYes then .ok (report ++ [warning])
            else .error (report ++ [warning], warning ++ " (re-run with --force to bypass)")

/-! ## The copy -/

/-- Steps 3 to 5: existing large files are removed only if the source has some. -/
def copyInto (source dest : Root κ π) : Root κ π :=
  { kind := .directory
    db := match source.db.main with
      | some main => dest.db.overwrite main
      | none => dest.db
    largeFiles := source.largeFiles.or dest.largeFiles
    voyageApiKey := source.voyageApiKey.or dest.voyageApiKey }

def copyReport (env : Env κ π) (source : Root κ π) : List String :=
  ["copied lcm.db → " ++ env.destDir ++ "/lcm.db",
    match source.largeFiles with
    | some tree =>
        "copied lcm-files/ → large-files/ (" ++ toString tree.length ++ " entries)"
    | none => "source has no lcm-files/ directory; skipping large-files copy",
    match source.voyageApiKey with
    | some _ => "copied credentials/voyage-api-key (mode 0o600, dir 0o700)"
    | none => "source has no credentials/voyage-api-key; skipping credentials copy"]

def isSchemaNewerError (error : String) : Bool :=
  ["no such column", "unknown column", "no column named"].any fun marker =>
    (Text.lower error.toList).tails.any marker.toList.isPrefixOf

def sampleReport : Nat × Nat × Nat → String
  | (0, _, _) => "identity_hash: no rows with non-null identity_hash to validate"
  | (validated, matched, mismatched) =>
      "validated=" ++ toString validated ++ ", matched=" ++ toString matched ++
        ", mismatched=" ++ toString mismatched ++
        if 0 < mismatched then " (likely pre-existing back-fill drift; not fatal)" else ""

def operatorNextSteps : String :=
  "Import complete. Next steps:\n" ++
    "  1. Enable lossless-hermes in plugins.enabled in ~/.hermes/config.yaml\n" ++
    "  2. Set context.engine: lcm in ~/.hermes/config.yaml\n" ++
    "  3. Start Hermes - your conversations are immediately available."

/-- Steps 3 to 9. The migrations are one transaction. -/
def runImport (env : Env κ π) (source dest : Root κ π) (opts : Options) (report : List String) :
    Outcome κ π :=
  let before := copyInto source dest
  let report := report ++ copyReport env source
  match env.migrate (before.db.content.getD fun _ => none) with
  | .error error =>
      { source := source, dest := before, beforeMigrations := some before
        result :=
          if isSchemaNewerError error then
            .ok
              { ok := false, dryRun := false, report := "\n".intercalate report
                error := "source DB schema is newer than this port supports (" ++ error ++
                  "); upgrade lossless-hermes first" }
          else .error error }
  | .ok migrated =>
      let sample := env.sampleIdentityHashes migrated opts.validateRows
      { source := source
        dest := { before with db := ⟨some (env.writeImportedAt migrated), none⟩ }
        beforeMigrations := some before
        result := .ok
          { ok := true, dryRun := false
            report := "\n".intercalate (report ++
              ["ran migrations on destination DB (idempotent)", sampleReport sample,
                "recorded state_meta.lcm_db_imported_at + lcm_db_imported_from", "",
                operatorNextSteps])
            validated := sample.1, matched := sample.2.1, mismatched := sample.2.2 } }

def importOpenclaw (env : Env κ π) (source dest : Root κ π) (opts : Options) : Outcome κ π :=
  match preflight env source dest opts with
  | .error (report, error) =>
      { source := source, dest := dest, beforeMigrations := none
        result := .ok
          { ok := false, dryRun := opts.dryRun, report := "\n".intercalate report
            error := error } }
  | .ok report =>
      if opts.dryRun then
        { source := source, dest := dest, beforeMigrations := none
          result := .ok
            { ok := true, dryRun := true
              report := "\n".intercalate (report ++
                ["[dry-run] would copy lcm.db, lcm-files/, credentials/, " ++
                    "run migrations, validate.",
                  "[dry-run] no files have been touched."]) } }
      else runImport env source dest opts report

/-! ## What an import owes -/

/-- The files below the directory, of which a missing one has none. -/
def Root.tree (root : Root κ π) : Tree :=
  root.largeFiles.getD []

structure Carries (env : Env κ π) (source dest : Root κ π) (opts : Options) : Prop where
  /-- A real run that returns ok. -/
  carried : ∀ result, (importOpenclaw env source dest opts).result = .ok result →
    result.ok = true → opts.dryRun = false →
      ∃ before, (importOpenclaw env source dest opts).beforeMigrations = some before ∧
        before.db.content = source.db.content ∧ before.tree = source.tree
  /-- A refusal, or a dry run. -/
  untouched : ∀ result, (importOpenclaw env source dest opts).result = .ok result →
    result.ok = false ∨ opts.dryRun = true → (importOpenclaw env source dest opts).dest = dest
  source : (importOpenclaw env source dest opts).source = source

/-- The source's main file has all that was committed, and no large files stay behind at the
destination; and if the schema is found too new, the copy was there already. -/
def Portable (env : Env κ π) (source dest : Root κ π) (opts : Options) : Prop :=
  ∀ report, preflight env source dest opts = .ok report → opts.dryRun = false →
    ∀ main, source.db.main = some main →
      (∀ migrated, env.migrate main = .ok migrated →
        source.db.Idle ∧ (source.largeFiles = none → dest.tree = [])) ∧
      ∀ error, env.migrate main = .error error → isSchemaNewerError error = true →
        copyInto source dest = dest

variable {env : Env κ π} {source dest : Root κ π} {opts : Options}

/-- A source that passes has a main file. -/
theorem exists_main_of_preflight {report : List String}
    (h : preflight env source dest opts = .ok report) : ∃ main, source.db.main = some main := by
  cases hMain : source.db.main with
  | some main => exact ⟨main, rfl⟩
  | none =>
    have hContent : source.db.content = none := by
      unfold Database.content
      rw [hMain]
      rfl
    have hError : ∃ error, verifySource env source = some error := by
      unfold verifySource
      rw [hContent]
      dsimp only
      cases source.kind with
      | missing => exact ⟨_, rfl⟩
      | file => exact ⟨_, rfl⟩
      | directory => exact ⟨_, rfl⟩
    obtain ⟨error, hError⟩ := hError
    unfold preflight at h
    rw [hError] at h
    cases h

theorem content_copyInto {main : κ → Option π} (hMain : source.db.main = some main) :
    (copyInto source dest).db.content = some main := by
  unfold copyInto
  rw [hMain]
  exact content_overwrite main

omit [DecidableEq κ] in
/-- Large files of the destination stay if the source has none. -/
theorem tree_copyInto_iff : (copyInto source dest).tree = source.tree ↔
    (source.largeFiles = none → dest.tree = []) := by
  unfold Root.tree copyInto
  cases source.largeFiles with
  | none => exact ⟨fun h _ => h, fun h => h rfl⟩
  | some tree => exact iff_of_true rfl fun h => nomatch h

theorem importOpenclaw_of_ok {report : List String}
    (hChecks : preflight env source dest opts = .ok report) (hReal : opts.dryRun = false) :
    importOpenclaw env source dest opts = runImport env source dest opts report := by
  unfold importOpenclaw
  rw [hChecks]
  dsimp only
  rw [hReal, if_neg Bool.false_ne_true]

variable (source dest opts) in
/-- What is left after a copy that is migrated, or not. -/
theorem runImport_of_ok {main migrated : κ → Option π} (hMain : source.db.main = some main)
    (hMigrated : env.migrate main = .ok migrated) (report : List String) :
    (∃ result, (runImport env source dest opts report).result = .ok result ∧
      result.ok = true) ∧
      (runImport env source dest opts report).beforeMigrations = some (copyInto source dest) := by
  unfold runImport
  dsimp only
  rw [content_copyInto hMain, Option.getD_some, hMigrated]
  exact ⟨⟨_, rfl, rfl⟩, rfl⟩

variable (source dest opts) in
theorem runImport_of_error {main : κ → Option π} {error : String}
    (hMain : source.db.main = some main) (hError : env.migrate main = .error error)
    (report : List String) :
    (runImport env source dest opts report).dest = copyInto source dest ∧
      if isSchemaNewerError error then
        ∃ result, (runImport env source dest opts report).result = .ok result ∧ result.ok = false
      else (runImport env source dest opts report).result = .error error := by
  unfold runImport
  dsimp only
  rw [content_copyInto hMain, Option.getD_some, hError]
  refine ⟨rfl, ?_⟩
  split
  · rename_i hNewer
    dsimp only
    rw [if_pos hNewer]
    exact ⟨_, rfl, rfl⟩
  · rename_i hOther
    dsimp only
    rw [if_neg hOther]

theorem source_importOpenclaw : (importOpenclaw env source dest opts).source = source := by
  unfold importOpenclaw
  split
  · rfl
  · split
    · rfl
    · unfold runImport
      dsimp only
      split <;> rfl

/-- A call that does not reach the copy leaves the destination alone. -/
theorem carries_of_untouched
    (h : ∀ report, preflight env source dest opts = .ok report → opts.dryRun = true) :
    Carries env source dest opts := by
  refine ⟨fun result hResult hOk hReal => ?_, fun _ _ _ => ?_, source_importOpenclaw⟩
  · unfold importOpenclaw at hResult
    split at hResult
    · cases hResult
      cases hOk
    · rename_i report hChecks
      rw [h report hChecks] at hReal
      cases hReal
  · unfold importOpenclaw
    split
    · rfl
    · rename_i report hChecks
      rw [if_pos (h report hChecks)]

/-- An import carries over the committed source, or touches nothing, exactly if the source is
portable. -/
theorem carries_iff (env : Env κ π) (source dest : Root κ π) (opts : Options) :
    Carries env source dest opts ↔ Portable env source dest opts := by
  by_cases hReached : ∃ report, preflight env source dest opts = .ok report ∧ opts.dryRun = false
  · obtain ⟨report, hChecks, hReal⟩ := hReached
    obtain ⟨main, hMain⟩ := exists_main_of_preflight hChecks
    have hPortable : Portable env source dest opts ↔
        (∀ migrated, env.migrate main = .ok migrated →
          source.db.Idle ∧ (source.largeFiles = none → dest.tree = [])) ∧
        ∀ error, env.migrate main = .error error → isSchemaNewerError error = true →
          copyInto source dest = dest := by
      constructor
      · exact fun h => h report hChecks hReal main hMain
      · intro h _ _ _ main' hMain'
        rw [hMain] at hMain'
        cases hMain'
        exact h
    rw [hPortable]
    have hRun := importOpenclaw_of_ok hChecks hReal
    cases hMigrate : env.migrate main with
    | ok migrated =>
      obtain ⟨⟨result, hResult, hOk⟩, hBefore⟩ :=
        runImport_of_ok source dest opts hMain hMigrate report
      rw [← hRun] at hResult hBefore
      have hContent : (copyInto source dest).db.content = source.db.content ↔
          source.db.Idle := by
        rw [content_copyInto hMain, ← hMain, eq_comm]
        exact content_eq_main_iff
      rw [← hContent, ← tree_copyInto_iff]
      constructor
      · intro hCarries
        obtain ⟨before, hSome, hSame⟩ := hCarries.carried result hResult hOk hReal
        cases hBefore.symm.trans hSome
        exact ⟨fun _ _ => hSame, fun _ h => nomatch h⟩
      · intro hSame
        refine ⟨fun _ _ _ _ => ⟨_, hBefore, hSame.1 migrated rfl⟩,
          fun result' hResult' hNot => ?_, source_importOpenclaw⟩
        cases hResult.symm.trans hResult'
        rcases hNot with hNot | hDry
        · cases hOk.symm.trans hNot
        · cases hReal.symm.trans hDry
    | error error =>
      obtain ⟨hDest, hResult⟩ :=
        runImport_of_error source dest opts hMain hMigrate report
      rw [← hRun] at hDest hResult
      by_cases hNewer : isSchemaNewerError error = true
      · rw [if_pos hNewer] at hResult
        obtain ⟨result, hResult, hNot⟩ := hResult
        constructor
        · intro hCarries
          refine ⟨fun _ h => (nomatch h), fun _ _ _ => ?_⟩
          rw [← hDest]
          exact hCarries.untouched result hResult (Or.inl hNot)
        · rintro ⟨-, hSame⟩
          refine ⟨fun result' hResult' hOk _ => ?_, fun _ _ _ => ?_, source_importOpenclaw⟩
          · cases hResult.symm.trans hResult'
            cases hNot.symm.trans hOk
          · rw [hDest]
            exact hSame error rfl hNewer
      · rw [if_neg hNewer] at hResult
        refine iff_of_true ⟨fun result' hResult' => ?_, fun result' hResult' => ?_,
          source_importOpenclaw⟩ ⟨fun _ h => (nomatch h), fun error' hSame h => ?_⟩
        · cases hResult.symm.trans hResult'
        · cases hResult.symm.trans hResult'
        · cases hSame
          exact absurd h hNewer
  · refine iff_of_true (carries_of_untouched fun report hChecks => ?_) ?_
    · by_contra hReal
      exact hReached ⟨report, hChecks, Bool.eq_false_iff.mpr hReal⟩
    · exact fun report hChecks hReal => absurd ⟨report, hChecks, hReal⟩ hReached

/-! ## What is lost -/

/-- A sound source, and nothing that the migrations add. -/
def plainEnv : Env Nat Nat :=
  { sourceDir := "/s"
    destDir := "/d"
    integrityCheck := fun _ => .row (some "ok")
    existingDataSummary := fun _ => "rows"
    unreadable := false
    diskWarning := none
    migrate := .ok
    sampleIdentityHashes := fun _ _ => (0, 0, 0)
    writeImportedAt := id }

/-- The second page was committed and not yet checkpointed. -/
def walSource : Root Nat Nat :=
  { kind := .directory
    db := Database.commit ⟨some (Function.update (fun _ => none) 1 (some 5)), none⟩ [(2, 7)]
    largeFiles := none
    voyageApiKey := none }

def missingDest : Root Nat Nat :=
  { kind := .missing, db := ⟨none, none⟩, largeFiles := none, voyageApiKey := none }

/-- A first import returns ok, and a committed page of the source is not in the copy. -/
theorem committed_page_lost :
    (∃ result, (importOpenclaw plainEnv walSource missingDest {}).result = .ok result ∧
      result.ok = true ∧ result.dryRun = false) ∧
      (walSource.db.content.getD fun _ => none) 2 = some 7 ∧
      ((importOpenclaw plainEnv walSource missingDest {}).beforeMigrations.map fun before =>
        (before.db.content.getD fun _ => none) 2) = some none ∧
      ¬ Carries plainEnv walSource missingDest {} := by
  have hChecks : ∃ report, preflight plainEnv walSource missingDest {} = .ok report :=
    ⟨_, rfl⟩
  obtain ⟨report, hChecks⟩ := hChecks
  have hRun : importOpenclaw plainEnv walSource missingDest {} =
      runImport plainEnv walSource missingDest {} report := importOpenclaw_of_ok hChecks rfl
  have hLost : (copyInto walSource missingDest).db.content ≠ walSource.db.content := by
    intro hSame
    have hPage := congrArg (fun content => (content.getD fun _ => none) 2) hSame
    exact absurd hPage (by decide)
  refine ⟨⟨_, congrArg Outcome.result hRun, rfl, rfl⟩, rfl, ?_, fun hCarries => ?_⟩
  · rw [hRun]
    rfl
  · obtain ⟨before, hBefore, hSame, -⟩ :=
      hCarries.carried _ (congrArg Outcome.result hRun) rfl rfl
    rw [hRun] at hBefore
    cases hBefore
    exact hLost hSame

end LosslessHermes.ImportOpenclaw
