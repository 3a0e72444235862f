import LosslessHermes.Library.Savepoint
import LosslessHermes.Library.Scopes
import Mathlib.Tactic.ByContra

/-!
# Nested transactions on one thread

`with_database_transaction` begins a transaction where the thread holds none on the connection, and
sets a savepoint where it does. The number of scopes that are held is counted outside of SQLite.

By `run_inside` an operation in a held transaction has the effect that its scopes should have;
`keepsScopes_iff` is about the outermost level.
-/

namespace LosslessHermes.TransactionMutex

open Savepoint Scopes

universe u v w

variable {σ : Type u} {ε : Type v} {ρ : Type w}

/-- The connection, the depth that the thread holds on it, and the last savepoint's number. -/
structure Session (σ : Type u) where
  connection : Connection σ
  depth : Nat
  savepointCounter : Nat

/-- The statements of the outermost scope that another connection can make fail. -/
inductive RootStatement
  | commitForeign
  | begin
  | commit
  deriving DecidableEq, Repr

/-- The errors of SQLite as exceptions, and the root statements that it refuses. -/
structure Sqlite (ε : Type v) where
  operationalError : Refusal → ε
  busy : ε
  refuses : RootStatement → Bool

def savepointName (n : Nat) : String :=
  "lcm_txn_" ++ toString n

namespace Session

/-- `finally`: one scope less is held. -/
def leave (session : Session σ) : Session σ :=
  { session with depth := session.depth - 1 }

/-- `ROLLBACK TO` and `RELEASE`, and the exception again. -/
def undoSavepoint (sqlite : Sqlite ε) (session : Session σ) (name : String) (error : ε) :
    Session σ × Except ε ρ :=
  match execute session.connection (.rollbackTo name) with
  | .error refusal => (session.leave, .error (sqlite.operationalError refusal))
  | .ok undone =>
      match execute undone (.release name) with
      | .error refusal =>
          ({ session with connection := undone }.leave, .error (sqlite.operationalError refusal))
      | .ok released => ({ session with connection := released }.leave, .error error)

/-- The reentrant branch. -/
def nestedScope (sqlite : Sqlite ε) (operation : Session σ → Session σ × Except ε ρ)
    (session : Session σ) : Session σ × Except ε ρ :=
  let counter := session.savepointCounter + 1
  let name := savepointName counter
  match execute session.connection (.savepoint name) with
  | .error refusal =>
      ({ session with savepointCounter := counter }, .error (sqlite.operationalError refusal))
  | .ok entered =>
      let after := operation { connection := entered, depth := session.depth + 1,
                               savepointCounter := counter }
      match after.2 with
      | .error error => undoSavepoint sqlite after.1 name error
      | .ok result =>
          match execute after.1.connection (.release name) with
          | .error refusal => undoSavepoint sqlite after.1 name (sqlite.operationalError refusal)
          | .ok released => ({ after.1 with connection := released }.leave, .ok result)

/-- The commit of a transaction that is open when the outermost scope begins; a failure is
ignored. -/
def commitForeign (sqlite : Sqlite ε) (connection : Connection σ) : Connection σ :=
  if connection.inTransaction && !sqlite.refuses .commitForeign then
    match execute connection .commit with
    | .ok committed => committed
    | .error _ => connection
  else connection

/-- `ROLLBACK`, a failure of which is ignored. -/
def undoTransaction (session : Session σ) (error : ε) : Session σ × Except ε ρ :=
  match execute session.connection .rollback with
  | .ok rolledBack => ({ session with connection := rolledBack, depth := 0 }, .error error)
  | .error _ => ({ session with depth := 0 }, .error error)

/-- The outermost scope. The depth is set first, and dropped only once BEGIN has run. -/
def outermostScope (sqlite : Sqlite ε) (operation : Session σ → Session σ × Except ε ρ)
    (session : Session σ) : Session σ × Except ε ρ :=
  let held := { session with depth := 1, connection := commitForeign sqlite session.connection }
  if sqlite.refuses .begin then (held, .error sqlite.busy)
  else
    match execute held.connection .beginTransaction with
    | .error refusal => (held, .error (sqlite.operationalError refusal))
    | .ok begun =>
        let after := operation { held with connection := begun }
        match after.2 with
        | .error error => undoTransaction after.1 error
        | .ok result =>
            if sqlite.refuses .commit then undoTransaction after.1 sqlite.busy
            else
              match execute after.1.connection .commit with
              | .error refusal => undoTransaction after.1 (sqlite.operationalError refusal)
              | .ok committed => ({ after.1 with connection := committed, depth := 0 }, .ok result)

def withDatabaseTransaction (sqlite : Sqlite ε) (operation : Session σ → Session σ × Except ε ρ)
    (session : Session σ) : Session σ × Except ε ρ :=
  if 0 < session.depth then nestedScope sqlite operation session
  else outermostScope sqlite operation session

/-- An operation, each scope of which is a call of the helper. -/
def run (sqlite : Sqlite ε) : Operation σ ε ρ → Session σ → Session σ × Except ε ρ
  | .return result, session => (session, .ok result)
  | .raise error, session => (session, .error error)
  | .write update rest, session =>
      match execute session.connection (.write update) with
      | .error refusal => (session, .error (sqlite.operationalError refusal))
      | .ok written => run sqlite rest { session with connection := written }
  | .read rest, session => run sqlite (rest session.connection.content) session
  | .scope body rest, session =>
      let inner := withDatabaseTransaction sqlite (run sqlite body) session
      run sqlite (rest inner.2) inner.1

/-- The outermost call of a thread that holds nothing. -/
def rootCall (sqlite : Sqlite ε) (operation : Operation σ ε ρ) (connection : Connection σ)
    (counter : Nat) : Session σ × Except ε ρ :=
  withDatabaseTransaction sqlite (run sqlite operation)
    { connection, depth := 0, savepointCounter := counter }

/-- What the outermost scope should do: a BEGIN or a COMMIT that is refused is an exception of
it. -/
def rootEffect (sqlite : Sqlite ε) (operation : Operation σ ε ρ) (state : σ) :
    σ × Except ε ρ :=
  let after := operation.effect state
  if sqlite.refuses .begin then (state, .error sqlite.busy)
  else if sqlite.refuses .commit then
    allOrNothing state (after.1, after.2.bind fun _ => .error sqlite.busy)
  else allOrNothing state after

/-- A call with nothing open has the effect of its scopes, and neither holds nor leaves anything
open; a call inside of somebody else's transaction raises and leaves it. -/
structure KeepsScopes (sqlite : Sqlite ε) (operation : Operation σ ε ρ)
    (connection : Connection σ) (counter : Nat) : Prop where
  effect : connection.transaction = none →
    (rootCall sqlite operation connection counter).1.connection =
        settled (rootEffect sqlite operation connection.content).1 ∧
      (rootCall sqlite operation connection counter).2 =
        (rootEffect sqlite operation connection.content).2 ∧
      (rootCall sqlite operation connection counter).1.depth = 0
  foreign : connection.transaction ≠ none →
    (∃ error, (rootCall sqlite operation connection counter).2 = .error error) ∧
      (rootCall sqlite operation connection counter).1.connection = connection

/-! ## Inside a held transaction -/

variable {sqlite : Sqlite ε} {transaction : Transaction σ} {content before : σ}
  {depth counter : Nat}

theorem undoSavepoint_entered (hBegun : transaction.bySavepoint = false) (name : String)
    (error : ε) :
    (undoSavepoint sqlite ⟨inside content (transaction.entered name before), depth + 1, counter⟩
      name error : Session σ × Except ε ρ) =
        (⟨inside before transaction, depth, counter⟩, .error error) := by
  unfold undoSavepoint
  dsimp only
  rw [execute_rollbackTo]
  dsimp only
  rw [execute_release hBegun]
  rfl

/-- A nested scope around an operation that leaves the stack and the depth as they are. -/
theorem nestedScope_inside (hBegun : transaction.bySavepoint = false)
    {operation : Session σ → Session σ × Except ε ρ} {after : σ × Except ε ρ} {counter' : Nat}
    (hOperation : operation
      ⟨inside content (transaction.entered (savepointName (counter + 1)) content), depth + 1,
        counter + 1⟩ =
        (⟨inside after.1 (transaction.entered (savepointName (counter + 1)) content), depth + 1,
          counter'⟩, after.2)) :
    nestedScope sqlite operation ⟨inside content transaction, depth, counter⟩ =
      (⟨inside (allOrNothing content after).1 transaction, depth, counter'⟩,
        (allOrNothing content after).2) := by
  unfold nestedScope
  dsimp only
  rw [execute_savepoint]
  dsimp only
  rw [hOperation]
  unfold allOrNothing
  dsimp only
  cases hOutcome : after.2 with
  | error error =>
    dsimp only
    rw [undoSavepoint_entered hBegun]
  | ok result =>
    dsimp only
    rw [execute_release hBegun, hOutcome]
    rfl

/-- In a held transaction an operation has the effect of its scopes and nothing else. -/
theorem run_inside (hBegun : transaction.bySavepoint = false) (hDepth : 0 < depth)
    (operation : Operation σ ε ρ) : ∃ counter',
      run sqlite operation ⟨inside content transaction, depth, counter⟩ =
        (⟨inside (operation.effect content).1 transaction, depth, counter'⟩,
          (operation.effect content).2) := by
  induction operation generalizing content transaction depth counter with
  | «return» result => exact ⟨counter, rfl⟩
  | raise error => exact ⟨counter, rfl⟩
  | write update rest ih => exact ih hBegun hDepth
  | read rest ih => exact ih content hBegun hDepth
  | scope body rest ihBody ihRest =>
    obtain ⟨counter', hBody⟩ := @ihBody
      (transaction.entered (savepointName (counter + 1)) content) content (depth + 1)
      (counter + 1) hBegun (Nat.succ_pos depth)
    unfold run withDatabaseTransaction
    dsimp only
    rw [if_pos hDepth, nestedScope_inside hBegun hBody]
    exact ihRest _ hBegun hDepth

/-! ## The outermost scope -/

theorem undoTransaction_opened (error : ε) :
    (undoTransaction ⟨opened before content, depth, counter⟩ error : Session σ × Except ε ρ) =
      (⟨settled before, 0, counter⟩, .error error) := by
  unfold undoTransaction
  dsimp only
  rw [execute_rollback]

theorem commitForeign_settled : commitForeign sqlite (settled content) = settled content :=
  rfl

/-- A refused BEGIN raises after the depth was set. -/
theorem rootCall_of_refused (hRefused : sqlite.refuses .begin = true) (operation : Operation σ ε ρ)
    (connection : Connection σ) (counter : Nat) : rootCall sqlite operation connection counter =
      (⟨commitForeign sqlite connection, 1, counter⟩, .error sqlite.busy) := by
  unfold rootCall withDatabaseTransaction outermostScope
  dsimp only
  rw [if_neg (Nat.lt_irrefl 0), if_pos hRefused]

/-- With nothing open and BEGIN not refused, the scopes have their effect. -/
theorem rootCall_settled (hBegin : sqlite.refuses .begin = false) (operation : Operation σ ε ρ)
    (content : σ) (counter : Nat) : ∃ counter',
      rootCall sqlite operation (settled content) counter =
        (⟨settled (rootEffect sqlite operation content).1, 0, counter'⟩,
          (rootEffect sqlite operation content).2) := by
  obtain ⟨counter', hRun⟩ := @run_inside σ ε ρ sqlite
    { before := content, bySavepoint := false, savepoints := [] } content 1 counter rfl
    Nat.one_pos operation
  refine ⟨counter', ?_⟩
  unfold rootCall withDatabaseTransaction outermostScope rootEffect
  dsimp only
  rw [if_neg (Nat.lt_irrefl 0), hBegin, if_neg Bool.false_ne_true, if_neg Bool.false_ne_true,
    commitForeign_settled, execute_begin]
  dsimp only
  have hRun' : run sqlite operation ⟨opened content content, 1, counter⟩ =
      (⟨opened content (operation.effect content).1, 1, counter'⟩,
        (operation.effect content).2) := hRun
  rw [hRun']
  dsimp only
  unfold allOrNothing
  cases hOutcome : (operation.effect content).2 with
  | error error =>
    dsimp only [Except.bind]
    rw [undoTransaction_opened, ite_self]
  | ok result =>
    dsimp only [Except.bind]
    cases sqlite.refuses .commit with
    | true =>
      rw [if_pos rfl, if_pos rfl, undoTransaction_opened]
    | false =>
      rw [if_neg Bool.false_ne_true, if_neg Bool.false_ne_true, execute_commit, hOutcome]

/-- The open transaction of somebody else is committed, unless SQLite refuses that. -/
theorem rootCall_of_foreign {connection : Connection σ} {foreign : Transaction σ}
    (hOpen : connection.transaction = some foreign) (operation : Operation σ ε ρ)
    (counter : Nat) : rootCall sqlite operation connection counter =
      if sqlite.refuses .commitForeign then
        (⟨connection, 1, counter⟩, .error
          (if sqlite.refuses .begin then sqlite.busy
            else sqlite.operationalError .insideTransaction))
      else rootCall sqlite operation (settled connection.content) counter := by
  have hInside : connection.inTransaction = true := by
    unfold Connection.inTransaction
    rw [hOpen]
    rfl
  cases hCommit : sqlite.refuses .commitForeign with
  | true =>
    have hKept : commitForeign sqlite connection = connection := by
      unfold commitForeign
      rw [hInside, hCommit]
      rfl
    rw [if_pos rfl]
    unfold rootCall withDatabaseTransaction outermostScope
    dsimp only
    rw [if_neg (Nat.lt_irrefl 0), hKept]
    cases sqlite.refuses .begin with
    | true => rfl
    | false =>
      rw [if_neg Bool.false_ne_true, if_neg Bool.false_ne_true]
      unfold execute
      rw [hOpen]
  | false =>
    have hCommitted : commitForeign sqlite connection = settled connection.content := by
      unfold commitForeign execute
      rw [hInside, hCommit, hOpen]
      rfl
    rw [if_neg Bool.false_ne_true]
    unfold rootCall withDatabaseTransaction outermostScope
    dsimp only
    rw [hCommitted, commitForeign_settled, if_neg (Nat.lt_irrefl 0),
      if_neg (Nat.lt_irrefl 0)]

/-- **A call on a thread that holds nothing does what it should if and only if nothing is open and
BEGIN is not refused, or something is open and its commit is refused.** -/
theorem keepsScopes_iff (sqlite : Sqlite ε) (operation : Operation σ ε ρ)
    (connection : Connection σ) (counter : Nat) :
    KeepsScopes sqlite operation connection counter ↔
      connection.transaction = none ∧ sqlite.refuses .begin = false ∨
        connection.transaction ≠ none ∧ sqlite.refuses .commitForeign = true := by
  obtain ⟨content, open'⟩ := connection
  cases open' with
  | none =>
    rw [or_iff_left fun hBoth => hBoth.1 rfl, and_iff_right rfl]
    constructor
    · intro h
      obtain ⟨-, -, hDepth⟩ := h.effect rfl
      by_contra hRefused
      rw [rootCall_of_refused (Bool.not_eq_false _ ▸ hRefused)] at hDepth
      exact Nat.one_ne_zero hDepth
    · intro hBegin
      obtain ⟨counter', hCall⟩ := rootCall_settled hBegin operation content counter
      refine ⟨fun _ => ?_, fun hNot => absurd rfl hNot⟩
      have hSame : rootCall sqlite operation ⟨content, none⟩ counter = _ := hCall
      rw [hSame]
      exact ⟨rfl, rfl, rfl⟩
  | some foreign =>
    have hSome : (⟨content, some foreign⟩ : Connection σ).transaction ≠ none :=
      Option.some_ne_none foreign
    rw [or_iff_right fun hBoth => hSome hBoth.1, and_iff_right hSome]
    have hCall := @rootCall_of_foreign σ ε ρ sqlite ⟨content, some foreign⟩ foreign rfl
      operation counter
    constructor
    · intro h
      obtain ⟨-, hKept⟩ := h.foreign hSome
      by_contra hCommit
      rw [hCall, if_neg hCommit] at hKept
      have hOpen := congrArg Connection.transaction hKept
      cases hBegin : sqlite.refuses .begin with
      | true =>
        rw [rootCall_of_refused hBegin] at hOpen
        cases hOpen
      | false =>
        obtain ⟨counter', hRoot⟩ := rootCall_settled hBegin operation content counter
        rw [hRoot] at hOpen
        cases hOpen
    · intro hCommit
      rw [if_pos hCommit] at hCall
      refine ⟨fun hNone => absurd hNone hSome, fun _ => ?_⟩
      rw [hCall]
      exact ⟨⟨_, rfl⟩, rfl⟩

/-- A call inside of a transaction with an open write: it returns, and the write is committed. -/
theorem not_keepsScopes_foreign :
    ¬ KeepsScopes (⟨fun _ => (), (), fun _ => false⟩ : Sqlite Unit)
      (.return () : Operation Nat Unit Unit) (opened 0 1) 0 := by
  intro h
  obtain ⟨-, hKept⟩ := h.foreign fun hNone => nomatch hNone
  cases congrArg Connection.transaction hKept

end Session

end LosslessHermes.TransactionMutex
