import LosslessHermes.Store.Records
import Mathlib.Logic.Function.Basic

/-!
# The maintenance store of compaction

`conversation_compaction_maintenance` has one row for each conversation, under its primary
key: the debt that is pending, whether a worker has claimed it, and how the last run ended.
The three statements that change a row are atomic.
-/

namespace LosslessHermes

structure CompactionMaintenanceRow where
  pending : Bool
  requestedAt : Option Timestamp
  reason : Option String
  running : Bool
  lastStartedAt : Option Timestamp
  lastFinishedAt : Option Timestamp
  lastFailureSummary : Option String
  tokenBudget : Option Int
  currentTokenCount : Option Int
  updatedAt : Timestamp
  deriving DecidableEq, Repr

structure RequestDebtArgs where
  conversationId : ConversationId
  reason : String
  tokenBudget : Option Int := none
  currentTokenCount : Option Int := none
  requestedAt : Option Timestamp := none
  deriving DecidableEq, Repr

inductive MaintenanceError
  | foreignKeyConstraint
  deriving DecidableEq, Repr

structure CompactionMaintenanceStore where
  /-- The keys of `conversations`. -/
  conversations : ConversationId → Bool
  rows : ConversationId → Option CompactionMaintenanceRow

namespace CompactionMaintenanceStore

variable (store : CompactionMaintenanceStore)

def getConversationCompactionMaintenance (conversationId : ConversationId) :
    Option CompactionMaintenanceRow :=
  store.rows conversationId

def setRow (conversationId : ConversationId) (row : CompactionMaintenanceRow) :
    CompactionMaintenanceStore :=
  { store with rows := Function.update store.rows conversationId (some row) }

/-- `UPDATE … WHERE conversation_id = ? AND p`, with its `rowcount`. -/
def updateRow (conversationId : ConversationId) (p : CompactionMaintenanceRow → Bool)
    (set : CompactionMaintenanceRow → CompactionMaintenanceRow) :
    CompactionMaintenanceStore × Nat :=
  match store.rows conversationId with
  | some row => if p row then (store.setRow conversationId (set row), 1) else (store, 0)
  | none => (store, 0)

/-- The row that `_REQUEST_DEBT_SQL` inserts. -/
def requestedRow (now : Timestamp) (args : RequestDebtArgs) : CompactionMaintenanceRow :=
  { pending := true, requestedAt := some (args.requestedAt.getD now), reason := some args.reason,
    running := false, lastStartedAt := none, lastFinishedAt := none, lastFailureSummary := none,
    tokenBudget := args.tokenBudget, currentTokenCount := args.currentTokenCount,
    updatedAt := now }

/-- What `_REQUEST_DEBT_SQL` makes of a row that is there. -/
def requestedAgain (row : CompactionMaintenanceRow) (now : Timestamp) (args : RequestDebtArgs) :
    CompactionMaintenanceRow :=
  { row with
    pending := true
    requestedAt := some (args.requestedAt.getD now)
    reason := some args.reason
    running := false
    tokenBudget := args.tokenBudget.or row.tokenBudget
    currentTokenCount := args.currentTokenCount.or row.currentTokenCount
    updatedAt := now }

def requestProactiveCompactionDebt (now : Timestamp) (args : RequestDebtArgs) :
    Except MaintenanceError CompactionMaintenanceStore :=
  match store.rows args.conversationId with
  | some row => .ok (store.setRow args.conversationId (requestedAgain row now args))
  | none =>
      if store.conversations args.conversationId then
        .ok (store.setRow args.conversationId (requestedRow now args))
      else .error .foreignKeyConstraint

def markProactiveCompactionRunning (now : Timestamp) (conversationId : ConversationId) :
    CompactionMaintenanceStore × Bool :=
  let (store, rowcount) := store.updateRow conversationId
    (fun row => row.running = false ∧ row.pending = true)
    fun row => { row with running := true, lastStartedAt := some now, updatedAt := now }
  (store, rowcount = 1)

def markProactiveCompactionFinished (now : Timestamp) (conversationId : ConversationId)
    (failureSummary : Option String) : CompactionMaintenanceStore :=
  match failureSummary with
  | none =>
      (store.updateRow conversationId (fun _ => true) fun row =>
        { row with
          pending := false
          running := false
          lastFinishedAt := some now
          lastFailureSummary := none
          updatedAt := now }).1
  | some summary =>
      (store.updateRow conversationId (fun _ => true) fun row =>
        { row with
          running := false
          lastFinishedAt := some now
          lastFailureSummary := some summary
          updatedAt := now }).1

/-! ## The two flags -/

def pending (conversationId : ConversationId) : Bool :=
  (store.rows conversationId).any (·.pending)

def running (conversationId : ConversationId) : Bool :=
  (store.rows conversationId).any (·.running)

variable {store} {store' : CompactionMaintenanceStore} {conversationId : ConversationId}

theorem rows_setRow (row : CompactionMaintenanceRow) :
    (store.setRow conversationId row).rows conversationId = some row :=
  Function.update_self _ _ _

theorem rows_setRow_of_ne (row : CompactionMaintenanceRow) {other : ConversationId}
    (h : other ≠ conversationId) :
    (store.setRow conversationId row).rows other = store.rows other :=
  Function.update_of_ne h _ _

/-- A request leaves debt, and no run. -/
theorem request_spec {now : Timestamp} {args : RequestDebtArgs}
    (h : store.requestProactiveCompactionDebt now args = .ok store') :
    store'.pending args.conversationId = true ∧ store'.running args.conversationId = false ∧
      ∀ other, other ≠ args.conversationId → store'.rows other = store.rows other := by
  unfold requestProactiveCompactionDebt at h
  split at h
  · cases h
    unfold pending running
    rw [rows_setRow]
    exact ⟨rfl, rfl, fun _ hOther => rows_setRow_of_ne _ hOther⟩
  · split at h
    · cases h
      unfold pending running
      rw [rows_setRow]
      exact ⟨rfl, rfl, fun _ hOther => rows_setRow_of_ne _ hOther⟩
    · cases h

/-- A claim is won where debt is pending and no run is marked. -/
theorem markRunning_won (hPending : store.pending conversationId = true)
    (hIdle : store.running conversationId = false) (now : Timestamp) :
    (store.markProactiveCompactionRunning now conversationId).2 = true := by
  unfold pending at hPending
  unfold running at hIdle
  cases hRow : store.rows conversationId with
  | none =>
    rw [hRow] at hPending
    cases hPending
  | some row =>
    rw [hRow] at hPending hIdle
    have hClaim : row.running = false ∧ row.pending = true := ⟨hIdle, hPending⟩
    unfold markProactiveCompactionRunning updateRow
    rw [hRow]
    dsimp only
    rw [if_pos (decide_eq_true hClaim)]
    rfl

/-- A claim that is won marks a run on the debt, and one that is not changes nothing. -/
theorem markRunning_spec (store : CompactionMaintenanceStore) (now : Timestamp)
    (conversationId : ConversationId) :
    let result := store.markProactiveCompactionRunning now conversationId
    (result.2 = true ∧ store.running conversationId = false ∧
      result.1.pending conversationId = true ∧ result.1.running conversationId = true ∧
        ∀ other, other ≠ conversationId → result.1.rows other = store.rows other) ∨
      result = (store, false) := by
  unfold markProactiveCompactionRunning updateRow
  dsimp only
  split
  · rename_i row hRow
    split
    · rename_i hClaim
      rw [decide_eq_true_eq] at hClaim
      left
      unfold pending running
      rw [rows_setRow, hRow]
      exact ⟨rfl, hClaim.1, hClaim.2, rfl, fun _ hOther => rows_setRow_of_ne _ hOther⟩
    · exact .inr rfl
  · exact .inr rfl

theorem updateRow_fst (set : CompactionMaintenanceRow → CompactionMaintenanceRow) :
    (store.updateRow conversationId (fun _ => true) set).1.rows =
      Function.update store.rows conversationId ((store.rows conversationId).map set) := by
  unfold updateRow
  split
  · rename_i row hRow
    rw [hRow]
    rfl
  · rename_i hRow
    rw [hRow]
    exact (Function.update_eq_self_iff.mpr hRow.symm).symm

/-- The end of a run clears its mark, and only a failure leaves the debt. -/
theorem markFinished_spec (store : CompactionMaintenanceStore) (now : Timestamp)
    (conversationId : ConversationId) (failureSummary : Option String) :
    let result := store.markProactiveCompactionFinished now conversationId failureSummary
    result.running conversationId = false ∧
      result.pending conversationId =
        (failureSummary.isSome && store.pending conversationId) ∧
      ∀ other, other ≠ conversationId → result.rows other = store.rows other := by
  unfold markProactiveCompactionFinished pending running
  cases failureSummary with
  | none =>
    dsimp only
    rw [updateRow_fst, Function.update_self]
    refine ⟨?_, ?_, fun _ hOther => Function.update_of_ne hOther _ _⟩
    · cases store.rows conversationId <;> rfl
    · cases store.rows conversationId <;> rfl
  | some summary =>
    dsimp only
    rw [updateRow_fst, Function.update_self]
    refine ⟨?_, ?_, fun _ hOther => Function.update_of_ne hOther _ _⟩
    · cases store.rows conversationId <;> rfl
    · cases store.rows conversationId <;> rfl

end CompactionMaintenanceStore

end LosslessHermes
