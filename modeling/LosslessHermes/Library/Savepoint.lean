/-!
# Transactions and savepoints of one connection

A connection to a database in autocommit mode and the statements that open and
close transactions and savepoints on it. The savepoints of a transaction form a
stack; a name refers to the innermost one that has it. A savepoint outside of a
transaction opens one, and its release commits.

The state of the database is a parameter. Each statement has a lemma for the
case in which a writer meets it when nobody else uses the connection.
-/

namespace LosslessHermes.Savepoint

universe u

inductive Refusal
  | insideTransaction
  | noTransaction
  | noSavepoint (name : String)
  deriving DecidableEq, Repr

structure Transaction (σ : Type u) where
  /-- What a rollback goes back to. -/
  before : σ
  /-- Whether a savepoint opened the transaction. -/
  bySavepoint : Bool
  /-- The savepoints with the content at each, the innermost one first. -/
  savepoints : List (String × σ)

/-- The content is what the connection reads, its own open writes included. -/
structure Connection (σ : Type u) where
  content : σ
  transaction : Option (Transaction σ)

def Connection.inTransaction {σ : Type u} (connection : Connection σ) : Bool :=
  connection.transaction.isSome

inductive Statement (σ : Type u)
  | beginTransaction
  | commit
  | rollback
  | savepoint (name : String)
  | release (name : String)
  | rollbackTo (name : String)
  | write (update : σ → σ)

variable {σ : Type u}

/-- The savepoint that a name refers to, and those around it. -/
def Transaction.find (transaction : Transaction σ) (name : String) : List (String × σ) :=
  transaction.savepoints.dropWhile fun savepoint => savepoint.1 ≠ name

def execute (connection : Connection σ) : Statement σ → Except Refusal (Connection σ)
  | .beginTransaction =>
      match connection.transaction with
      | some _ => .error .insideTransaction
      | none => .ok { connection with
          transaction := some { before := connection.content, bySavepoint := false,
                                savepoints := [] } }
  | .commit =>
      match connection.transaction with
      | none => .error .noTransaction
      | some _ => .ok { connection with transaction := none }
  | .rollback =>
      match connection.transaction with
      | none => .error .noTransaction
      | some transaction => .ok { content := transaction.before, transaction := none }
  | .savepoint name =>
      match connection.transaction with
      | none => .ok { connection with
          transaction := some { before := connection.content, bySavepoint := true,
                                savepoints := [(name, connection.content)] } }
      | some transaction => .ok { connection with
          transaction := some { transaction with
            savepoints := (name, connection.content) :: transaction.savepoints } }
  | .release name =>
      match connection.transaction with
      | none => .error (.noSavepoint name)
      | some transaction =>
          match transaction.find name with
          | [] => .error (.noSavepoint name)
          | _ :: outer =>
              if outer.isEmpty && transaction.bySavepoint then
                .ok { connection with transaction := none }
              else .ok { connection with
                transaction := some { transaction with savepoints := outer } }
  | .rollbackTo name =>
      match connection.transaction with
      | none => .error (.noSavepoint name)
      | some transaction =>
          match transaction.find name with
          | [] => .error (.noSavepoint name)
          | savepoint :: outer => .ok {
              content := savepoint.2
              transaction := some { transaction with savepoints := savepoint :: outer } }
  | .write update => .ok { connection with content := update connection.content }

/-! ## A connection with one writer -/

/-- No transaction is open. -/
def settled (content : σ) : Connection σ :=
  { content := content, transaction := none }

/-- A transaction that BEGIN opened, without savepoints. -/
def opened (before content : σ) : Connection σ :=
  { content := content
    transaction := some { before := before, bySavepoint := false, savepoints := [] } }

theorem execute_begin (content : σ) :
    execute (settled content) .beginTransaction = .ok (opened content content) := rfl

theorem execute_write (before content : σ) (update : σ → σ) :
    execute (opened before content) (.write update) = .ok (opened before (update content)) := rfl

theorem execute_commit (before content : σ) :
    execute (opened before content) .commit = .ok (settled content) := rfl

theorem execute_rollback (before content : σ) :
    execute (opened before content) .rollback = .ok (settled before) := rfl

/-! ## Inside a transaction -/

def inside (content : σ) (transaction : Transaction σ) : Connection σ :=
  { content := content, transaction := some transaction }

/-- The transaction with one more savepoint, at a content. -/
def Transaction.entered (transaction : Transaction σ) (name : String) (content : σ) :
    Transaction σ :=
  { transaction with savepoints := (name, content) :: transaction.savepoints }

theorem execute_savepoint (content : σ) (transaction : Transaction σ) (name : String) :
    execute (inside content transaction) (.savepoint name) =
      .ok (inside content (transaction.entered name content)) := rfl

theorem find_entered (transaction : Transaction σ) (name : String) (content : σ) :
    (transaction.entered name content).find name = (name, content) :: transaction.savepoints := by
  unfold Transaction.find Transaction.entered
  rw [List.dropWhile_cons_of_neg (by simp)]

/-- Of a transaction that BEGIN opened, the release leaves the effects and the other savepoints. -/
theorem execute_release {transaction : Transaction σ} (hBegun : transaction.bySavepoint = false)
    (content before : σ) (name : String) :
    execute (inside content (transaction.entered name before)) (.release name) =
      .ok (inside content transaction) := by
  have hFlag : (transaction.entered name before).bySavepoint = false := hBegun
  unfold execute inside
  dsimp only
  rw [find_entered]
  dsimp only
  rw [hFlag, Bool.and_false, if_neg Bool.false_ne_true, ← hBegun]
  rfl

theorem execute_rollbackTo (content before : σ) (transaction : Transaction σ) (name : String) :
    execute (inside content (transaction.entered name before)) (.rollbackTo name) =
      .ok (inside before (transaction.entered name before)) := by
  unfold execute inside
  dsimp only
  rw [find_entered]
  rfl

/-! ## Statements that may raise -/

section Script

variable {κ : Type} (raises : κ → Bool) (sql : κ → Statement σ)

/-- The statements in turn, up to the first that raises. -/
def script : List κ → Connection σ → Connection σ × Option κ
  | [], connection => (connection, none)
  | statement :: rest, connection =>
      if raises statement then (connection, some statement)
      else
        match execute connection (sql statement) with
        | .error _ => (connection, some statement)
        | .ok connection => script rest connection

variable {raises} {sql} {update : κ → σ → σ} {statements : List κ}

theorem script_append (first second : List κ) (connection : Connection σ) :
    script raises sql (first ++ second) connection =
      match (script raises sql first connection).2 with
      | some _ => script raises sql first connection
      | none => script raises sql second (script raises sql first connection).1 := by
  induction first generalizing connection with
  | nil => rfl
  | cons statement rest ih =>
    rw [List.cons_append, script, script]
    split
    · rfl
    · split
      · rfl
      · exact ih _

theorem script_cons_write {statement : κ} (h : sql statement = .write (update statement))
    (rest : List κ) (connection : Connection σ) :
    script raises sql (statement :: rest) connection =
      if raises statement then (connection, some statement)
      else script raises sql rest
        { connection with content := update statement connection.content } := by
  rw [script, h]
  rfl

/-- What all the writes leave alone, their script does, wherever it ends. -/
theorem script_view {β : Type} (view : σ → β)
    (hWrites : ∀ s ∈ statements, sql s = .write (update s))
    (hView : ∀ s ∈ statements, ∀ content, view (update s content) = view content)
    (connection : Connection σ) :
    view (script raises sql statements connection).1.content = view connection.content ∧
      (script raises sql statements connection).1.transaction = connection.transaction ∧
      ∀ s ∈ (script raises sql statements connection).2, s ∈ statements ∧ raises s = true := by
  induction statements generalizing connection with
  | nil => exact ⟨rfl, rfl, fun s hRaised => nomatch hRaised⟩
  | cons statement rest ih =>
    rw [script_cons_write (hWrites statement List.mem_cons_self)]
    split
    · rename_i hRaises
      refine ⟨rfl, rfl, fun s hRaised => ?_⟩
      obtain rfl := Option.mem_some_iff.mp hRaised
      exact ⟨List.mem_cons_self, hRaises⟩
    · obtain ⟨hKept, hTransaction, hRaised⟩ :=
        ih (fun s hMem => hWrites s (List.mem_cons_of_mem _ hMem))
          (fun s hMem => hView s (List.mem_cons_of_mem _ hMem))
          { connection with content := update statement connection.content }
      exact ⟨hKept.trans (hView statement List.mem_cons_self _), hTransaction,
        fun s hMem => ⟨List.mem_cons_of_mem _ (hRaised s hMem).1, (hRaised s hMem).2⟩⟩

/-- In a transaction the writes leave what a rollback goes back to. -/
theorem script_opened (hWrites : ∀ s ∈ statements, sql s = .write (update s))
    (before content : σ) :
    script raises sql statements (opened before content) =
        (opened before (statements.foldl (fun c s => update s c) content), none) ∨
      ∃ content', ∃ s ∈ statements, raises s = true ∧
        script raises sql statements (opened before content) = (opened before content', some s) := by
  induction statements generalizing content with
  | nil => exact Or.inl rfl
  | cons statement rest ih =>
    rw [script_cons_write (hWrites statement List.mem_cons_self)]
    split
    · rename_i hRaises
      exact Or.inr ⟨content, statement, List.mem_cons_self, hRaises, rfl⟩
    · rcases ih (fun s hMem => hWrites s (List.mem_cons_of_mem _ hMem))
        (update statement content) with hAll | ⟨content', s, hMem, hRaises, hRun⟩
      · exact Or.inl hAll
      · exact Or.inr ⟨content', s, List.mem_cons_of_mem _ hMem, hRaises, hRun⟩

end Script

end LosslessHermes.Savepoint
