import LosslessHermes.Library.Run
import LosslessHermes.Library.Text
import LosslessHermes.Store.Records
import Mathlib.Logic.Function.Basic

/-!
# Large files and their rows

`LargeFileManager` keeps a blob on disk for each row of `large_files`. A file is written
beside its place and moved there, then the row is inserted; if that fails, the file is
unlinked again. What may fail at any of these points is part of an operation.

Where a path leads is left open (`Paths`), so two names may lead to one file. `paired_run_iff`
says for every run when rows and blobs stay paired.
-/

namespace LosslessHermes

abbrev Bytes := List UInt8

/-- `files_dir / str(conversation_id) / name`. -/
structure BlobPath where
  conversationId : ConversationId
  name : String
  deriving DecidableEq, Repr

structure LargeFileRecord where
  fileId : String
  conversationId : ConversationId
  fileName : Option String
  mimeType : Option String
  byteSize : Nat
  storageUri : BlobPath
  explorationSummary : Option String
  createdAt : Timestamp
  deriving DecidableEq, Repr

namespace LargeFiles

/-! ## The name of a blob -/

/-- The file name's last segment has a dot that is neither its first nor its last character,
and up to ten ASCII letters and digits behind it. -/
def collectFilenameExtension (fileName : String) : Option (List Char) :=
  let base := ((Text.stripChars fileName.toList).reverse.takeWhile
    fun c => c ≠ '/' ∧ c ≠ '\\').reverse
  let suffix := (base.reverse.takeWhile (· ≠ '.')).reverse
  if suffix.length + 1 < base.length ∧ 0 < suffix.length ∧ suffix.length ≤ 10 then
    suffix.mapM Text.lowerAscii
  else none

def mimeExtensionMap : List (String × String) :=
  [("application/json", "json"), ("application/xml", "xml"), ("application/yaml", "yaml"),
    ("application/x-yaml", "yaml"), ("application/x-ndjson", "json"), ("application/csv", "csv"),
    ("application/javascript", "js"), ("application/typescript", "ts"),
    ("application/x-python-code", "py"), ("application/x-rust", "rs"), ("application/x-sh", "sh"),
    ("text/csv", "csv"), ("text/markdown", "md"), ("text/plain", "txt"),
    ("text/tab-separated-values", "tsv"), ("text/x-c", "c"), ("text/x-c++", "cpp"),
    ("text/x-go", "go"), ("text/x-java", "java"), ("text/x-python", "py"), ("text/x-rust", "rs"),
    ("text/x-script.python", "py"), ("text/x-shellscript", "sh"), ("text/x-typescript", "ts"),
    ("text/xml", "xml")]

def guessMimeExtension (mimeType : String) : Option String :=
  mimeExtensionMap.lookup (String.ofList (Text.lower (Text.stripChars mimeType.toList)))

def extensionFromNameOrMime (fileName mimeType : Option String) : String :=
  match fileName.bind collectFilenameExtension with
  | some extension => String.ofList extension
  | none => (mimeType.bind guessMimeExtension).getD "txt"

/-! ## The two stores -/

/-- Where the paths lead: the place of a blob, and of the hidden file beside it that is
written first, `.{name}.tmp.{token}`. -/
structure Paths (ν : Type) where
  target : BlobPath → ν
  temporary : BlobPath → String → ν

structure Store (ν : Type) where
  rows : List LargeFileRecord
  conversations : List ConversationId
  files : ν → Option Bytes
  /-- What was externalized under each id. -/
  externalized : String → Option Bytes

inductive WriteFault
  | mkdir
  | create
  | write (written : Nat)
  | replace
  deriving DecidableEq, Repr

/-- What fails during a call. -/
structure Faults where
  write : Option WriteFault := none
  /-- The unlink of the temporary file. -/
  cleanup : Bool := false
  /-- The insert of the row, or its commit. -/
  insert : Bool := false
  /-- The unlink of the blob. -/
  unlink : Bool := false
  deriving DecidableEq, Repr

structure ExternalizeInput where
  conversationId : ConversationId
  content : Bytes
  fileName : Option String := none
  mimeType : Option String := none
  explorationSummary : Option String := none
  /-- The id of the caller, or a generated one. -/
  fileId : String
  deriving DecidableEq, Repr

def ExternalizeInput.path (input : ExternalizeInput) : BlobPath :=
  ⟨input.conversationId,
    input.fileId ++ "." ++ extensionFromNameOrMime input.fileName input.mimeType⟩

inductive FileError
  | os
  | integrity
  deriving DecidableEq, Repr

inductive Op
  | externalize (input : ExternalizeInput) (token : String) (now : Timestamp) (faults : Faults)
  | delete (fileId : String) (faults : Faults)
  deriving DecidableEq, Repr

variable {ν : Type} [DecidableEq ν]

/-- `path.unlink()`, which may fail. -/
def unlink (files : ν → Option Bytes) (node : ν) (fails : Bool) : ν → Option Bytes :=
  if fails then files else Function.update files node none

/-- `_write_atomic`, and whether it returned. The temporary file is created with `O_EXCL`,
and unlinked if anything but the creation of the directory raises. -/
def writeAtomic (paths : Paths ν) (files : ν → Option Bytes) (target : BlobPath) (data : Bytes)
    (token : String) (faults : Faults) : (ν → Option Bytes) × Bool :=
  let tmp := paths.temporary target token
  if faults.write = some .mkdir then (files, false)
  else if (files tmp).isSome ∨ faults.write = some .create then
    (unlink files tmp faults.cleanup, false)
  else
    match faults.write with
    | some (.write written) =>
        (unlink (Function.update files tmp (some (data.take written))) tmp faults.cleanup, false)
    | some _ => (unlink (Function.update files tmp (some data)) tmp faults.cleanup, false)
    | none =>
        (Function.update (Function.update files tmp none) (paths.target target) (some data), true)

/-- A key or the foreign key is violated, or the statement fails. -/
def insertFails (s : Store ν) (input : ExternalizeInput) (faults : Faults) : Bool :=
  faults.insert || s.rows.any (fun row => row.fileId = input.fileId) ||
    !s.conversations.contains input.conversationId

def createdRow (input : ExternalizeInput) (now : Timestamp) : LargeFileRecord :=
  { fileId := input.fileId, conversationId := input.conversationId, fileName := input.fileName,
    mimeType := input.mimeType, byteSize := input.content.length, storageUri := input.path,
    explorationSummary := input.explorationSummary, createdAt := now }

def externalizeBlock (paths : Paths ν) (s : Store ν) (input : ExternalizeInput) (token : String)
    (now : Timestamp) (faults : Faults) : Store ν × Except FileError LargeFileRecord :=
  match writeAtomic paths s.files input.path input.content token faults with
  | (files, false) => ({ s with files := files }, .error .os)
  | (files, true) =>
      if insertFails s input faults then
        ({ s with files := unlink files (paths.target input.path) faults.unlink },
          .error .integrity)
      else
        ({ s with
          rows := s.rows ++ [createdRow input now]
          files := files
          externalized := Function.update s.externalized input.fileId (some input.content) },
          .ok (createdRow input now))

/-- The row is deleted first. -/
def delete (paths : Paths ν) (s : Store ν) (fileId : String) (faults : Faults) :
    Store ν × Except FileError Bool :=
  match s.rows.find? fun row => row.fileId = fileId with
  | none => (s, .ok false)
  | some record =>
      ({ s with
        rows := s.rows.filter fun row => row.fileId ≠ fileId
        files := unlink s.files (paths.target record.storageUri) faults.unlink },
        if faults.unlink then .error .os else .ok true)

def step (paths : Paths ν) (s : Store ν) : Op → Store ν
  | .externalize input token now faults => (externalizeBlock paths s input token now faults).1
  | .delete fileId faults => (delete paths s fileId faults).1

/-! ## What is owed -/

/-- Every row has a blob of its own, with the size and the content of its id. -/
structure Paired (paths : Paths ν) (s : Store ν) : Prop where
  ids : (s.rows.map (·.fileId)).Nodup
  blob : ∀ row ∈ s.rows, ∃ content, s.files (paths.target row.storageUri) = some content ∧
    row.byteSize = content.length ∧ s.externalized row.fileId = some content
  apart : (s.rows.map fun row => paths.target row.storageUri).Nodup

/-- The files are still there as they were. -/
def Kept (files files' : ν → Option Bytes) : Prop :=
  ∀ node content, files node = some content → files' node = some content

def Unharmed (s s' : Store ν) : Prop :=
  s'.rows = s.rows ∧ Kept s.files s'.files

/-- The operation keeps the pairs, and an `externalize_block` that raises harms nothing. -/
def Keeps (paths : Paths ν) (s : Store ν) (op : Op) : Prop :=
  Paired paths (step paths s op) ∧
    ∀ input token now faults error, op = .externalize input token now faults →
      (externalizeBlock paths s input token now faults).2 = .error error →
        Unharmed s (step paths s op)

/-- The temporary name is new, and the blob goes to a place where no row has one. If its row
is not inserted, the place must have been empty, or else nothing is taken back and the file
is the same. -/
def Harmless (paths : Paths ν) (s : Store ν) : Op → Prop
  | .externalize input token _ faults =>
      (faults.write ≠ some .mkdir → faults.cleanup = false →
        s.files (paths.temporary input.path token) = none) ∧
      (faults.write = none → s.files (paths.temporary input.path token) = none →
        if insertFails s input faults then
          s.files (paths.target input.path) = none ∨
            (faults.unlink = true ∧ s.files (paths.target input.path) = some input.content)
        else ∀ row ∈ s.rows, paths.target row.storageUri ≠ paths.target input.path)
  | .delete _ _ => True

/-! ## Files -/

variable {paths : Paths ν} {s s' : Store ν} {files files' : ν → Option Bytes} {node : ν}
  {data : Bytes} {token : String} {faults : Faults} {target : BlobPath}

omit [DecidableEq ν] in
theorem Kept.refl (files : ν → Option Bytes) : Kept files files :=
  fun _ _ h => h

theorem kept_update_of_none (h : files node = none) (value : Option Bytes) :
    Kept files (Function.update files node value) := by
  intro other content hFile
  rw [Function.update_of_ne]
  · exact hFile
  · rintro rfl
    rw [h] at hFile
    cases hFile

/-- An unlink that does not fail harms nothing only where there is no file. -/
theorem kept_unlink_iff {fails : Bool} :
    Kept files (unlink files node fails) ↔ (fails = false → files node = none) := by
  unfold unlink
  cases fails with
  | true => exact iff_of_true (Kept.refl _) fun h => nomatch h
  | false =>
    constructor
    · intro hKept _
      cases hFile : files node with
      | none => rfl
      | some content =>
        have hAfter := hKept node content hFile
        rw [if_neg Bool.false_ne_true, Function.update_self] at hAfter
        cases hAfter
    · exact fun hNone => kept_update_of_none (hNone rfl) none

/-- A file that is made in an empty place, and perhaps unlinked again. -/
theorem kept_unlink_update (h : files node = none) (value : Option Bytes) (fails : Bool) :
    Kept files (unlink (Function.update files node value) node fails) := by
  unfold unlink
  split
  · exact kept_update_of_none h value
  · rw [Function.update_idem]
    exact kept_update_of_none h none

/-- A write that raises harms nothing unless it removes a file of the temporary name. -/
theorem writeAtomic_raises (data : Bytes)
    (h : faults.write ≠ none ∨ files (paths.temporary target token) ≠ none) :
    ∃ files', writeAtomic paths files target data token faults = (files', false) ∧
      (Kept files files' ↔ (faults.write ≠ some .mkdir → faults.cleanup = false →
        files (paths.temporary target token) = none)) := by
  unfold writeAtomic
  dsimp only
  by_cases hDir : faults.write = some .mkdir
  · rw [if_pos hDir]
    exact ⟨files, rfl, iff_of_true (Kept.refl _) fun hNot => absurd hDir hNot⟩
  · rw [if_neg hDir]
    have hClean : Kept files (unlink files (paths.temporary target token) faults.cleanup) ↔
        (faults.write ≠ some .mkdir → faults.cleanup = false →
          files (paths.temporary target token) = none) := by
      rw [kept_unlink_iff]
      exact ⟨fun hNone _ => hNone, fun hNone => hNone hDir⟩
    by_cases hOpen : (files (paths.temporary target token)).isSome ∨ faults.write = some .create
    · rw [if_pos hOpen]
      exact ⟨_, rfl, hClean⟩
    · rw [if_neg hOpen]
      obtain ⟨hTmp, hCreate⟩ := not_or.mp hOpen
      rw [Option.not_isSome_iff_eq_none] at hTmp
      have hEmpty : faults.write ≠ some .mkdir → faults.cleanup = false →
          files (paths.temporary target token) = none := fun _ _ => hTmp
      cases hWrite : faults.write with
      | none =>
        rcases h with hSome | hSome
        · exact absurd hWrite hSome
        · exact absurd hTmp hSome
      | some fault =>
        rw [hWrite] at hEmpty
        cases fault with
        | mkdir => exact absurd hWrite hDir
        | create => exact absurd hWrite hCreate
        | write written => exact ⟨_, rfl, iff_of_true (kept_unlink_update hTmp _ _) hEmpty⟩
        | replace => exact ⟨_, rfl, iff_of_true (kept_unlink_update hTmp _ _) hEmpty⟩

theorem writeAtomic_returns (hWrite : faults.write = none)
    (hTmp : files (paths.temporary target token) = none) :
    writeAtomic paths files target data token faults =
      (Function.update files (paths.target target) (some data), true) := by
  have hNoTmp : Function.update files (paths.temporary target token) none = files := by
    rw [← hTmp, Function.update_eq_self]
  unfold writeAtomic
  rw [hWrite]
  dsimp only
  rw [hTmp, if_neg (fun h => nomatch h), if_neg (by simp), hNoTmp]

/-! ## Operations -/

omit [DecidableEq ν] in
theorem Paired.unharmed (h : Paired paths s) (hUnharmed : Unharmed s s')
    (hSame : s'.externalized = s.externalized) : Paired paths s' := by
  obtain ⟨hRows, hKept⟩ := hUnharmed
  refine ⟨?_, fun row hMem => ?_, ?_⟩
  · rw [hRows]
    exact h.ids
  · rw [hRows] at hMem
    obtain ⟨content, hFile, hSize, hLogged⟩ := h.blob row hMem
    exact ⟨content, hKept _ _ hFile, hSize, by rw [hSame, hLogged]⟩
  · rw [hRows]
    exact h.apart

/-- A deletion takes a row with its own blob. -/
theorem Paired.delete (h : Paired paths s) (fileId : String) (faults : Faults) :
    Paired paths (delete paths s fileId faults).1 := by
  unfold LargeFiles.delete
  split
  · exact h
  · rename_i record hFound
    have hRecord := List.mem_of_find?_eq_some hFound
    have hId : record.fileId = fileId := of_decide_eq_true (List.find?_some hFound :)
    refine ⟨h.ids.sublist (List.filter_sublist.map _), fun row hMem => ?_,
      h.apart.sublist (List.filter_sublist.map _)⟩
    obtain ⟨hRow, hOther⟩ := List.mem_filter.mp hMem
    obtain ⟨content, hFile, hRest⟩ := h.blob row hRow
    refine ⟨content, ?_, hRest⟩
    show unlink s.files (paths.target record.storageUri) faults.unlink _ = some content
    unfold unlink
    split
    · exact hFile
    · rw [Function.update_of_ne]
      · exact hFile
      · intro hSame
        have hEq := List.inj_on_of_nodup_map h.apart hRow hRecord hSame
        exact of_decide_eq_true hOther (hEq ▸ hId)

section Externalize

variable {input : ExternalizeInput} {now : Timestamp}

theorem externalize_of_raise
    (h : writeAtomic paths s.files input.path input.content token faults = (files, false)) :
    externalizeBlock paths s input token now faults =
      ({ s with files := files }, .error .os) := by
  unfold externalizeBlock
  rw [h]

theorem externalize_of_return (now : Timestamp) (hWrite : faults.write = none)
    (hTmp : s.files (paths.temporary input.path token) = none) :
    externalizeBlock paths s input token now faults =
      if insertFails s input faults then
        ({ s with files := unlink (Function.update s.files (paths.target input.path)
            (some input.content)) (paths.target input.path) faults.unlink }, .error .integrity)
      else
        ({ s with
          rows := s.rows ++ [createdRow input now]
          files := Function.update s.files (paths.target input.path) (some input.content)
          externalized := Function.update s.externalized input.fileId (some input.content) },
          .ok (createdRow input now)) := by
  unfold externalizeBlock
  rw [writeAtomic_returns hWrite hTmp]

/-- An overwritten file that is unlinked, unless that fails. -/
theorem kept_overwrite_iff {fails : Bool} :
    Kept files (unlink (Function.update files node (some data)) node fails) ↔
      files node = none ∨ (fails = true ∧ files node = some data) := by
  constructor
  · intro hKept
    cases hFile : files node with
    | none => exact Or.inl rfl
    | some content =>
      have hAfter := hKept node content hFile
      unfold unlink at hAfter
      split at hAfter
      · rename_i hFails
        rw [Function.update_self] at hAfter
        exact Or.inr ⟨hFails, hAfter.symm⟩
      · rw [Function.update_self] at hAfter
        cases hAfter
  · rintro (hNone | ⟨rfl, hSame⟩)
    · exact kept_unlink_update hNone _ _
    · unfold unlink
      rw [if_pos rfl, ← hSame, Function.update_eq_self]
      exact Kept.refl _

/-- A new row has the blob that was just moved to its place. -/
theorem paired_insert_iff (now : Timestamp) (h : Paired paths s)
    (hInsert : insertFails s input faults = false) :
    Paired paths { s with
        rows := s.rows ++ [createdRow input now]
        files := Function.update s.files (paths.target input.path) (some input.content)
        externalized := Function.update s.externalized input.fileId (some input.content) } ↔
      ∀ row ∈ s.rows, paths.target row.storageUri ≠ paths.target input.path := by
  have hNew : ∀ row ∈ s.rows, row.fileId ≠ input.fileId := by
    unfold insertFails at hInsert
    rw [Bool.or_eq_false_iff, Bool.or_eq_false_iff, List.any_eq_false] at hInsert
    exact fun row hMem hId => hInsert.1.2 row hMem (decide_eq_true hId)
  constructor
  · intro hPaired row hMem hSame
    have hApart := hPaired.apart
    rw [List.map_append, List.map_singleton] at hApart
    exact (List.nodup_append.mp hApart).2.2 _ (List.mem_map_of_mem hMem) _
      (List.mem_singleton_self _) hSame
  · intro hFree
    refine ⟨?_, fun row hMem => ?_, ?_⟩
    · rw [List.map_append, List.map_singleton]
      refine List.Nodup.append h.ids (List.nodup_singleton _) ?_
      rw [List.disjoint_singleton]
      intro hMem
      obtain ⟨row, hRow, hId⟩ := List.mem_map.mp hMem
      exact hNew row hRow hId
    · rcases List.mem_append.mp hMem with hOld | hLast
      · obtain ⟨content, hFile, hSize, hLogged⟩ := h.blob row hOld
        refine ⟨content, ?_, hSize, ?_⟩
        · show Function.update s.files _ _ _ = _
          rw [Function.update_of_ne (hFree row hOld)]
          exact hFile
        · show Function.update s.externalized _ _ _ = _
          rw [Function.update_of_ne (hNew row hOld)]
          exact hLogged
      · rw [List.mem_singleton.mp hLast]
        exact ⟨input.content, Function.update_self .., rfl, Function.update_self ..⟩
    · rw [List.map_append, List.map_singleton]
      refine List.Nodup.append h.apart (List.nodup_singleton _) ?_
      rw [List.disjoint_singleton]
      intro hMem
      obtain ⟨row, hRow, hSame⟩ := List.mem_map.mp hMem
      exact hFree row hRow hSame

/-- A call that raises keeps the pairs if it harms nothing. -/
theorem keeps_of_error (h : Paired paths s) {error : FileError}
    (hError : externalizeBlock paths s input token now faults =
      ({ s with files := files }, .error error)) :
    Keeps paths s (.externalize input token now faults) ↔ Kept s.files files := by
  have hStep : step paths s (.externalize input token now faults) = { s with files := files } := by
    show (externalizeBlock paths s input token now faults).1 = _
    rw [hError]
  unfold Keeps
  rw [hStep]
  constructor
  · intro hKeeps
    exact (hKeeps.2 input token now faults error rfl (by rw [hError])).2
  · intro hKept
    have hUnharmed : Unharmed s { s with files := files } := ⟨rfl, hKept⟩
    exact ⟨h.unharmed hUnharmed rfl, fun _ _ _ _ _ _ _ => hUnharmed⟩

theorem keeps_externalize_iff (h : Paired paths s) :
    Keeps paths s (.externalize input token now faults) ↔
      Harmless paths s (.externalize input token now faults) := by
  unfold Harmless
  dsimp only
  by_cases hReach : faults.write = none ∧ s.files (paths.temporary input.path token) = none
  · obtain ⟨hWrite, hTmp⟩ := hReach
    have hReturn := externalize_of_return now hWrite hTmp
    rw [and_iff_right fun _ _ => hTmp, forall_prop_of_true hWrite, forall_prop_of_true hTmp]
    cases hInsert : insertFails s input faults with
    | true =>
      rw [hInsert, if_pos rfl] at hReturn
      rw [if_pos rfl, keeps_of_error h hReturn, kept_overwrite_iff]
    | false =>
      rw [hInsert, if_neg Bool.false_ne_true] at hReturn
      have hStep : step paths s (.externalize input token now faults) = _ :=
        congrArg Prod.fst hReturn
      rw [if_neg Bool.false_ne_true, ← paired_insert_iff now h hInsert]
      unfold Keeps
      rw [hStep]
      refine and_iff_left ?_
      intro input' token' now' faults' error hOp hError
      cases hOp
      rw [hReturn] at hError
      cases hError
  · have hRaise : faults.write ≠ none ∨ s.files (paths.temporary input.path token) ≠ none := by
      rw [← not_and_or]
      exact hReach
    obtain ⟨files, hFiles, hKept⟩ := writeAtomic_raises input.content hRaise
    rw [keeps_of_error h (externalize_of_raise hFiles), hKept]
    refine (and_iff_left ?_).symm
    exact fun hWrite hTmp => absurd ⟨hWrite, hTmp⟩ hReach

end Externalize

theorem keeps_iff (h : Paired paths s) (op : Op) : Keeps paths s op ↔ Harmless paths s op := by
  cases op with
  | externalize input token now faults => exact keeps_externalize_iff h
  | delete fileId faults =>
    refine iff_of_true ⟨h.delete fileId faults, ?_⟩ trivial
    intro _ _ _ _ _ hOp
    cases hOp

/-- In every run rows and blobs stay paired, and calls that raise harm nothing, as long as
each operation is harmless where it is done. -/
theorem paired_run_iff (h : Paired paths s) (ops : List Op) :
    Run.Along (step paths) (Keeps paths) s ops ↔ Run.Along (step paths) (Harmless paths) s ops :=
  Run.along_iff_of_invariant (fun _ op hPaired => keeps_iff hPaired op)
    (fun _ _ _ hKeeps => hKeeps.1) h

/-! ## An id that is used again -/

/-- Paths of ordinary names. -/
def plainPaths : Paths (ConversationId × String) where
  target path := (path.conversationId, path.name)
  temporary path token := (path.conversationId, "." ++ path.name ++ ".tmp." ++ token)

def emptyStore : Store (ConversationId × String) where
  rows := []
  conversations := [1]
  files _ := none
  externalized _ := none

def externalizeOnce (content : Bytes) : Op :=
  .externalize { conversationId := 1, content := content, fileId := "file_a" } "0" 1 {}

theorem paired_empty : Paired plainPaths emptyStore :=
  ⟨List.nodup_nil, fun _ h => (List.not_mem_nil h).elim, List.nodup_nil⟩

theorem paired_run_once : Run.Along (step plainPaths) (Keeps plainPaths) emptyStore
    [externalizeOnce [1, 2], .delete "file_a" {}] := by
  refine (paired_run_iff paired_empty _).mpr ⟨⟨fun _ _ => rfl, fun _ _ => ?_⟩, trivial, trivial⟩
  rw [if_neg (by decide)]
  exact fun _ h => (List.not_mem_nil h).elim

/-- The second call fails on the key, and unlinks the blob of the first one's row. -/
theorem blob_of_older_row_lost :
    let s := step plainPaths emptyStore (externalizeOnce [1, 2])
    let s' := step plainPaths s (externalizeOnce [3])
    Paired plainPaths s ∧ s'.rows = s.rows ∧ s.rows.map (·.fileId) = ["file_a"] ∧
      s.files (1, "file_a.txt") = some [1, 2] ∧ s'.files (1, "file_a.txt") = none ∧
      ¬Keeps plainPaths s (externalizeOnce [3]) := by
  intro s s'
  have hPaired : Paired plainPaths s := by
    have hKeeps := (keeps_iff paired_empty (externalizeOnce [1, 2])).mpr
      ⟨fun _ _ => rfl, fun _ _ => by
        rw [if_neg (by decide)]
        exact fun _ h => (List.not_mem_nil h).elim⟩
    exact hKeeps.1
  have hPath : plainPaths.target (ExternalizeInput.path
      { conversationId := 1, content := [1, 2], fileId := "file_a" }) = (1, "file_a.txt") := by
    decide +kernel
  have hLost : s'.files (1, "file_a.txt") = none := by decide +kernel
  refine ⟨hPaired, rfl, rfl, by decide +kernel, hLost, fun hKeeps => ?_⟩
  obtain ⟨content, hFile, -⟩ := hKeeps.1.blob _ (List.mem_singleton_self _)
  rw [← hPath] at hLost
  cases hLost.symm.trans hFile

end LargeFiles

end LosslessHermes
