import LosslessHermes.Library.Run
import LosslessHermes.Library.Text
import Mathlib.Data.Rat.Floor
import Mathlib.Data.List.Nodup

/-!
# The worker lock

The table `lcm_worker_lock` and the calls of its workers. The connections are in
autocommit mode, so the two statements of `acquire_lock` are two steps, and other
calls may come between them. Time is the clock of the database, of which
`datetime('now')` keeps the whole seconds.

`leasesExclusive_run` states what the calls of any number of workers keep, in any
order of their statements. The window of a lock lasts whole seconds, and a later
heartbeat of its holder may shorten it (`ttl_not_kept`).
-/

namespace LosslessHermes

abbrev WorkerId := String
abbrev WorkerJobKind := String

/-! ## Times -/

/-- `datetime('now')`, as seconds of the epoch. -/
def datetimeNow (clock : ℚ) : Int :=
  ⌊clock⌋

/-- 9999-12-31 23:59:59, the last second that `datetime` writes. -/
def lastDatetime : Int := 253402300799

/-- `datetime('now', '+' || seconds || ' seconds')`, or `NULL`. -/
def datetimeAfter (clock : ℚ) (seconds : Int) : Option Int :=
  if datetimeNow clock + seconds ≤ lastDatetime then some (datetimeNow clock + seconds) else none

/-- `round`, which takes the even neighbour of a half. -/
def roundHalfEven (x : ℚ) : Int :=
  if x - ⌊x⌋ < 1 / 2 then ⌊x⌋
  else if 1 / 2 < x - ⌊x⌋ then ⌊x⌋ + 1
  else if ⌊x⌋ % 2 = 0 then ⌊x⌋
  else ⌊x⌋ + 1

/-- `max(0, round(ttl_s))`. -/
def ttlSeconds (ttlS : ℚ) : Int :=
  max 0 (roundHalfEven ttlS)

theorem datetimeNow_mono {a b : ℚ} (h : a ≤ b) : datetimeNow a ≤ datetimeNow b :=
  Int.floor_le_floor h

theorem datetimeAfter_eq_some {clock : ℚ} {seconds time : Int}
    (h : datetimeAfter clock seconds = some time) : time = datetimeNow clock + seconds := by
  unfold datetimeAfter at h
  split at h
  · exact (Option.some.inj h).symm
  · cases h

/-! ## The table -/

structure LockRow where
  jobKind : WorkerJobKind
  workerId : WorkerId
  acquiredAt : Int
  expiresAt : Int
  lastHeartbeatAt : Int
  jobSessionKey : Option String
  jobMetadata : Option String
  deriving DecidableEq, Repr

/-- The rows of `lcm_worker_lock`, under its primary key. -/
structure LockTable where
  rows : List LockRow
  primaryKey : (rows.map (·.jobKind)).Nodup

structure AcquireArgs where
  jobKind : WorkerJobKind
  workerId : WorkerId
  ttlS : ℚ
  jobSessionKey : Option String
  jobMetadata : Option String
  deriving DecidableEq

inductive LockError
  | blankWorkerId
  | notNullConstraint
  deriving DecidableEq, Repr

namespace LockTable

def empty : LockTable := ⟨[], List.nodup_nil⟩

def deleteWhere (table : LockTable) (p : LockRow → Bool) : LockTable where
  rows := table.rows.filter fun row => !p row
  primaryKey := table.primaryKey.sublist (List.filter_sublist.map _)

/-- The first statement of `acquire_lock`. -/
def collectStale (table : LockTable) (clock : ℚ) (jobKind : WorkerJobKind) : LockTable :=
  table.deleteWhere fun row => row.jobKind = jobKind ∧ row.expiresAt ≤ datetimeNow clock

def newRow (clock : ℚ) (expiresAt : Int) (args : AcquireArgs) : LockRow :=
  { jobKind := args.jobKind, workerId := args.workerId, acquiredAt := datetimeNow clock,
    expiresAt := expiresAt, lastHeartbeatAt := datetimeNow clock,
    jobSessionKey := args.jobSessionKey, jobMetadata := args.jobMetadata }

/-- The second statement, `INSERT OR IGNORE`. It also ignores a row whose
`expires_at` is `NULL`. -/
def insertOrIgnore (table : LockTable) (clock : ℚ) (args : AcquireArgs) : LockTable × Bool :=
  match datetimeAfter clock (ttlSeconds args.ttlS) with
  | none => (table, false)
  | some expiresAt =>
      if h : args.jobKind ∈ table.rows.map (·.jobKind) then (table, false)
      else
        ({ rows := table.rows ++ [newRow clock expiresAt args]
           primaryKey := by
             rw [List.map_append, List.nodup_append]
             refine ⟨table.primaryKey, List.nodup_singleton _, fun kind hKind kind' hKind' => ?_⟩
             rw [List.map_singleton, List.mem_singleton] at hKind'
             rintro rfl
             have hSame : kind = args.jobKind := hKind'
             exact h (hSame ▸ hKind) }, true)

/-- A call that nothing comes between; each statement reads the clock anew. -/
def acquireLock (table : LockTable) (collected inserted : ℚ) (args : AcquireArgs) :
    Except LockError (LockTable × Bool) :=
  if Text.isBlank args.workerId then .error .blankWorkerId
  else .ok ((table.collectStale collected args.jobKind).insertOrIgnore inserted args)

def releaseLock (table : LockTable) (jobKind : WorkerJobKind) (workerId : WorkerId) :
    LockTable × Bool :=
  (table.deleteWhere fun row => row.jobKind = jobKind ∧ row.workerId = workerId,
    table.rows.any fun row => row.jobKind = jobKind ∧ row.workerId = workerId)

/-- The `WHERE` of `heartbeat_lock`. -/
def isHeld (clock : ℚ) (jobKind : WorkerJobKind) (workerId : WorkerId) (row : LockRow) : Bool :=
  row.jobKind = jobKind ∧ row.workerId = workerId ∧ datetimeNow clock < row.expiresAt

def extend (clock : ℚ) (expiresAt : Int) (row : LockRow) : LockRow :=
  { row with lastHeartbeatAt := datetimeNow clock, expiresAt := expiresAt }

def heartbeatLock (table : LockTable) (clock : ℚ) (jobKind : WorkerJobKind) (workerId : WorkerId)
    (ttlS : ℚ) : Except LockError (LockTable × Bool) :=
  if table.rows.any (isHeld clock jobKind workerId) then
    match datetimeAfter clock (ttlSeconds ttlS) with
    | none => .error .notNullConstraint
    | some expiresAt =>
        .ok
          ({ rows := table.rows.map fun row =>
               if isHeld clock jobKind workerId row then extend clock expiresAt row else row
             primaryKey := by
               rw [List.map_map]
               have hKind : (LockRow.jobKind ∘ fun row =>
                   if isHeld clock jobKind workerId row then extend clock expiresAt row else row) =
                     LockRow.jobKind := by
                 funext row
                 dsimp only [Function.comp_apply]
                 split <;> rfl
               rw [hKind]
               exact table.primaryKey }, true)
  else .ok (table, false)

/-- The worker has an unexpired lock of the kind. -/
def Holds (table : LockTable) (clock : ℚ) (jobKind : WorkerJobKind) (workerId : WorkerId) : Prop :=
  ∃ row ∈ table.rows, row.jobKind = jobKind ∧ row.workerId = workerId ∧
    datetimeNow clock < row.expiresAt

/-- The lock of the kind is the worker's, at least until `deadline`. -/
def HeldUntil (table : LockTable) (jobKind : WorkerJobKind) (workerId : WorkerId)
    (deadline : Int) : Prop :=
  ∃ row ∈ table.rows, row.jobKind = jobKind ∧ row.workerId = workerId ∧ deadline ≤ row.expiresAt

/-! ## What one statement does to a lock -/

variable {table : LockTable} {clock : ℚ} {jobKind jobKind' : WorkerJobKind}
  {workerId workerId' : WorkerId} {deadline : Int}

/-- The primary key leaves one row for a kind. -/
theorem row_unique {row row' : LockRow} (hRow : row ∈ table.rows) (hRow' : row' ∈ table.rows)
    (hKind : row.jobKind = row'.jobKind) : row = row' :=
  List.inj_on_of_nodup_map table.primaryKey hRow hRow' hKind

theorem Holds.unique (h : table.Holds clock jobKind workerId)
    (h' : table.Holds clock jobKind workerId') : workerId = workerId' := by
  obtain ⟨row, hRow, hKind, rfl, -⟩ := h
  obtain ⟨row', hRow', hKind', rfl, -⟩ := h'
  rw [row_unique hRow hRow' (hKind.trans hKind'.symm)]

theorem HeldUntil.deleteWhere (h : table.HeldUntil jobKind workerId deadline)
    {p : LockRow → Bool} (hKeeps : ∀ row ∈ table.rows, row.jobKind = jobKind →
      row.workerId = workerId → deadline ≤ row.expiresAt → p row = false) :
    (table.deleteWhere p).HeldUntil jobKind workerId deadline := by
  obtain ⟨row, hRow, hKind, hWorker, hDeadline⟩ := h
  refine ⟨row, List.mem_filter.mpr ⟨hRow, ?_⟩, hKind, hWorker, hDeadline⟩
  rw [hKeeps row hRow hKind hWorker hDeadline]
  rfl

/-- The collection of stale locks spares a lock whose deadline has not come. -/
theorem HeldUntil.collectStale (h : table.HeldUntil jobKind workerId deadline)
    (hEarly : datetimeNow clock < deadline) :
    (table.collectStale clock jobKind').HeldUntil jobKind workerId deadline := by
  apply h.deleteWhere
  intro row _ _ _ hDeadline
  have hFresh : ¬ row.expiresAt ≤ datetimeNow clock := by omega
  simp [hFresh]

theorem HeldUntil.insertOrIgnore (h : table.HeldUntil jobKind workerId deadline)
    (args : AcquireArgs) :
    (table.insertOrIgnore clock args).1.HeldUntil jobKind workerId deadline := by
  obtain ⟨row, hRow, hHeld⟩ := h
  refine ⟨row, ?_, hHeld⟩
  unfold LockTable.insertOrIgnore
  split
  · exact hRow
  · split
    · exact hRow
    · exact List.mem_append_left _ hRow

/-- What a successful insertion stored. -/
theorem insertOrIgnore_eq_true {args : AcquireArgs}
    (h : (table.insertOrIgnore clock args).2 = true) :
    args.jobKind ∉ table.rows.map (·.jobKind) ∧
      (table.insertOrIgnore clock args).1.HeldUntil args.jobKind args.workerId
        (datetimeNow clock + ttlSeconds args.ttlS) := by
  unfold LockTable.insertOrIgnore at h ⊢
  split at h
  · cases h
  · rename_i expiresAt hExpires
    split at h
    · cases h
    · rename_i hKind
      refine ⟨hKind, ?_⟩
      rw [dif_neg hKind]
      refine ⟨newRow clock expiresAt args, ?_, rfl, rfl, ?_⟩
      · exact List.mem_append_right _ (List.mem_singleton.mpr rfl)
      · exact (datetimeAfter_eq_some hExpires).ge

/-- A successful heartbeat sets the deadline of the worker's own lock. -/
theorem heartbeatLock_eq_true {table' : LockTable} {ttlS : ℚ}
    (h : table.heartbeatLock clock jobKind workerId ttlS = .ok (table', true)) :
    table'.HeldUntil jobKind workerId (datetimeNow clock + ttlSeconds ttlS) := by
  unfold heartbeatLock at h
  split at h
  · rename_i hAny
    split at h
    · cases h
    · rename_i expiresAt hExpires
      obtain ⟨rfl, -⟩ := Prod.mk.inj (Except.ok.inj h)
      obtain ⟨row, hRow, hHeld⟩ := List.any_eq_true.mp hAny
      have hWorker := hHeld
      simp only [isHeld, Bool.decide_and, Bool.and_eq_true, decide_eq_true_eq] at hWorker
      refine ⟨extend clock expiresAt row, List.mem_map.mpr ⟨row, hRow, if_pos hHeld⟩,
        hWorker.1, hWorker.2.1, ?_⟩
      exact (datetimeAfter_eq_some hExpires).ge
  · cases (Prod.mk.inj (Except.ok.inj h)).2

/-- A heartbeat of another worker does not touch the lock. -/
theorem HeldUntil.heartbeatLock (h : table.HeldUntil jobKind workerId deadline)
    {table' : LockTable} {ttlS : ℚ} {reply : Bool}
    (hBeat : table.heartbeatLock clock jobKind' workerId' ttlS = .ok (table', reply))
    (hOther : jobKind' ≠ jobKind ∨ workerId' ≠ workerId) :
    table'.HeldUntil jobKind workerId deadline := by
  obtain ⟨row, hRow, hKind, hWorker, hDeadline⟩ := h
  have hNot : isHeld clock jobKind' workerId' row = false := by
    subst hKind hWorker
    rcases hOther with hOther | hOther <;> simp [isHeld, hOther.symm]
  unfold LockTable.heartbeatLock at hBeat
  split at hBeat
  · split at hBeat
    · cases hBeat
    · obtain ⟨rfl, -⟩ := Prod.mk.inj (Except.ok.inj hBeat)
      refine ⟨row, List.mem_map.mpr ⟨row, hRow, ?_⟩, hKind, hWorker, hDeadline⟩
      rw [hNot]
      rfl
  · obtain ⟨rfl, -⟩ := Prod.mk.inj (Except.ok.inj hBeat)
    exact ⟨row, hRow, hKind, hWorker, hDeadline⟩

theorem HeldUntil.releaseLock (h : table.HeldUntil jobKind workerId deadline)
    (hOther : jobKind' ≠ jobKind ∨ workerId' ≠ workerId) :
    (table.releaseLock jobKind' workerId').1.HeldUntil jobKind workerId deadline := by
  apply h.deleteWhere
  rintro row - rfl rfl -
  rcases hOther with hOther | hOther <;> simp [hOther.symm]

/-- The row of the kind is not the worker's: its release finds nothing. -/
theorem releaseLock_of_other {row : LockRow} (hRow : row ∈ table.rows)
    (hKind : row.jobKind = jobKind) (hOther : row.workerId ≠ workerId) :
    table.releaseLock jobKind workerId = (table, false) := by
  have hNone : ∀ r ∈ table.rows, ¬(r.jobKind = jobKind ∧ r.workerId = workerId) := by
    rintro r hr ⟨hrKind, hrWorker⟩
    exact hOther (row_unique hRow hr (hKind.trans hrKind.symm) ▸ hrWorker)
  have hRows : (table.rows.filter fun r => !decide (r.jobKind = jobKind ∧ r.workerId = workerId)) =
      table.rows := by
    apply List.filter_eq_self.mpr
    intro r hr
    simp only [hNone r hr, decide_false, Bool.not_false]
  have hAny : (table.rows.any fun r => r.jobKind = jobKind ∧ r.workerId = workerId) = false := by
    apply List.any_eq_false.mpr
    intro r hr
    simp only [hNone r hr, decide_false, Bool.false_eq_true, not_false_eq_true]
  unfold releaseLock deleteWhere
  rw [hAny]
  simp only [hRows]

theorem heartbeatLock_of_other {row : LockRow} (hRow : row ∈ table.rows)
    (hKind : row.jobKind = jobKind) (hOther : row.workerId ≠ workerId) (ttlS : ℚ) :
    table.heartbeatLock clock jobKind workerId ttlS = .ok (table, false) := by
  have hAny : table.rows.any (isHeld clock jobKind workerId) = false := by
    apply List.any_eq_false.mpr
    intro r hr hHeld
    simp only [isHeld, Bool.decide_and, Bool.and_eq_true, decide_eq_true_eq] at hHeld
    exact hOther (row_unique hRow hr (hKind.trans hHeld.1.symm) ▸ hHeld.2.1)
  unfold heartbeatLock
  rw [hAny]
  rfl

end LockTable

/-! ## Calls of several workers -/

inductive LockAction
  /-- The check of the worker id and the first statement of `acquire_lock`. -/
  | acquireBegin (args : AcquireArgs)
  /-- The second statement of a call that has begun. -/
  | acquireInsert (args : AcquireArgs)
  | heartbeat (jobKind : WorkerJobKind) (workerId : WorkerId) (ttlS : ℚ)
  | release (jobKind : WorkerJobKind) (workerId : WorkerId)
  deriving DecidableEq

structure LockEvent where
  time : ℚ
  action : LockAction

structure LockState where
  table : LockTable
  /-- The calls of `acquire_lock` between their two statements. -/
  acquiring : List AcquireArgs

inductive LockReply
  | running
  | returned (success : Bool)
  | raised (error : LockError)
  deriving DecidableEq, Repr

namespace LockState

def start (table : LockTable) : LockState := ⟨table, []⟩

def reply (state : LockState) (event : LockEvent) : LockState × LockReply :=
  match event.action with
  | .acquireBegin args =>
      if Text.isBlank args.workerId then (state, .raised .blankWorkerId)
      else (⟨state.table.collectStale event.time args.jobKind, args :: state.acquiring⟩, .running)
  | .acquireInsert args =>
      if args ∈ state.acquiring then
        (⟨(state.table.insertOrIgnore event.time args).1, state.acquiring.erase args⟩,
          .returned (state.table.insertOrIgnore event.time args).2)
      else (state, .running)
  | .heartbeat jobKind workerId ttlS =>
      match state.table.heartbeatLock event.time jobKind workerId ttlS with
      | .error error => (state, .raised error)
      | .ok (table, success) => ({ state with table := table }, .returned success)
  | .release jobKind workerId =>
      ({ state with table := (state.table.releaseLock jobKind workerId).1 },
        .returned (state.table.releaseLock jobKind workerId).2)

def step (state : LockState) (event : LockEvent) : LockState :=
  (state.reply event).1

def after (state : LockState) (events : List LockEvent) : LockState :=
  Run.final step state events

/-- A call whose two statements nothing comes between is `acquire_lock`. -/
theorem acquireLock_uninterrupted (state : LockState) (args : AcquireArgs) (collected inserted : ℚ)
    (hNamed : Text.isBlank args.workerId = false) :
    ∃ success,
      ((state.step ⟨collected, .acquireBegin args⟩).reply ⟨inserted, .acquireInsert args⟩).2 =
          .returned success ∧
        state.table.acquireLock collected inserted args =
          .ok ((state.after [⟨collected, .acquireBegin args⟩,
            ⟨inserted, .acquireInsert args⟩]).table, success) := by
  have hBegin : state.step ⟨collected, .acquireBegin args⟩ =
      ⟨state.table.collectStale collected args.jobKind, args :: state.acquiring⟩ := by
    simp only [step, reply, hNamed, Bool.false_eq_true, if_false]
  simp only [after, Run.final, List.foldl_cons, List.foldl_nil, hBegin, LockTable.acquireLock,
    hNamed, Bool.false_eq_true, if_false]
  simp only [step, reply, List.mem_cons_self, if_true]
  exact ⟨_, rfl, rfl⟩

end LockState

/-- An acquisition of the lock by the worker that succeeds. -/
def Acquires (state : LockState) (event : LockEvent) (jobKind : WorkerJobKind)
    (workerId : WorkerId) (ttlS : ℚ) : Prop :=
  (state.reply event).2 = .returned true ∧ ∃ args, event.action = .acquireInsert args ∧
    args.jobKind = jobKind ∧ args.workerId = workerId ∧ args.ttlS = ttlS

def Heartbeats (state : LockState) (event : LockEvent) (jobKind : WorkerJobKind)
    (workerId : WorkerId) (ttlS : ℚ) : Prop :=
  (state.reply event).2 = .returned true ∧ event.action = .heartbeat jobKind workerId ttlS

def Releases (state : LockState) (event : LockEvent) (jobKind : WorkerJobKind)
    (workerId : WorkerId) : Prop :=
  (state.reply event).2 = .returned true ∧ event.action = .release jobKind workerId

/-- The end of the window that a call asks for, in the seconds of `datetime`. -/
def deadlineOf (event : LockEvent) (ttlS : ℚ) : Int :=
  datetimeNow event.time + ttlSeconds ttlS

/-- The worker gives the lock up, or moves its deadline before `deadline`. -/
def GivesUp (state : LockState) (event : LockEvent) (jobKind : WorkerJobKind)
    (workerId : WorkerId) (deadline : Int) : Prop :=
  Releases state event jobKind workerId ∨
    ∃ ttlS, Heartbeats state event jobKind workerId ttlS ∧ deadlineOf event ttlS < deadline

section Run

variable {state : LockState} {event : LockEvent} {jobKind : WorkerJobKind}
  {workerId workerId' : WorkerId} {deadline : Int} {ttlS : ℚ}

/-- An acquisition or a heartbeat that succeeds sets a deadline. -/
theorem heldUntil_of_granted (h : Acquires state event jobKind workerId ttlS ∨
    Heartbeats state event jobKind workerId ttlS) :
    (state.step event).table.HeldUntil jobKind workerId (deadlineOf event ttlS) := by
  obtain ⟨time, action⟩ := event
  rcases h with ⟨hReply, args, rfl, rfl, rfl, rfl⟩ | ⟨hReply, rfl⟩
  · by_cases hCall : args ∈ state.acquiring
    · simp only [LockState.reply, hCall, if_true, LockReply.returned.injEq] at hReply
      simp only [LockState.step, LockState.reply, hCall, if_true]
      exact (LockTable.insertOrIgnore_eq_true hReply).2
    · simp only [LockState.reply, hCall, if_false, reduceCtorEq] at hReply
  · simp only [LockState.step, LockState.reply] at hReply ⊢
    split at hReply
    · cases hReply
    · rename_i table success hBeat
      rw [LockReply.returned.injEq] at hReply
      exact LockTable.heartbeatLock_eq_true (hReply ▸ hBeat)

/-- No acquisition succeeds while the lock is held. -/
theorem not_acquires_of_heldUntil (h : state.table.HeldUntil jobKind workerId deadline) :
    ¬ Acquires state event jobKind workerId' ttlS := by
  obtain ⟨time, action⟩ := event
  rintro ⟨hReply, args, rfl, rfl, rfl, rfl⟩
  by_cases hCall : args ∈ state.acquiring
  · simp only [LockState.reply, hCall, if_true, LockReply.returned.injEq] at hReply
    obtain ⟨row, hRow, hKind, -⟩ := h
    exact (LockTable.insertOrIgnore_eq_true hReply).1 (hKind ▸ List.mem_map_of_mem hRow)
  · simp only [LockState.reply, hCall, if_false, reduceCtorEq] at hReply

/-- A lock that its holder does not give up lasts until its deadline. -/
theorem heldUntil_step (h : state.table.HeldUntil jobKind workerId deadline)
    (hKept : ¬ GivesUp state event jobKind workerId deadline) :
    (state.step event).table.HeldUntil jobKind workerId deadline ∨
      deadline ≤ datetimeNow event.time := by
  obtain ⟨time, action⟩ := event
  rw [or_iff_not_imp_right]
  intro hEarly
  dsimp only at hEarly
  simp only [LockState.step, LockState.reply]
  cases action with
  | acquireBegin args =>
    dsimp only
    split
    · exact h
    · exact h.collectStale (by omega)
  | acquireInsert args =>
    dsimp only
    split
    · exact h.insertOrIgnore args
    · exact h
  | heartbeat jobKind' workerId' ttlS' =>
    dsimp only
    split
    · exact h
    · rename_i table' success hBeat
      by_cases hOther : jobKind' ≠ jobKind ∨ workerId' ≠ workerId
      · exact h.heartbeatLock hBeat hOther
      · rw [not_or, not_not, not_not] at hOther
        obtain ⟨rfl, rfl⟩ := hOther
        cases success with
        | false =>
          unfold LockTable.heartbeatLock at hBeat
          split at hBeat
          · split at hBeat
            · cases hBeat
            · cases (Prod.mk.inj (Except.ok.inj hBeat)).2
          · obtain ⟨rfl, -⟩ := Prod.mk.inj (Except.ok.inj hBeat)
            exact h
        | true =>
          obtain ⟨row, hRow, hKind, hWorker, hDeadline⟩ :=
            LockTable.heartbeatLock_eq_true hBeat
          refine ⟨row, hRow, hKind, hWorker, le_trans ?_ hDeadline⟩
          by_contra hShort
          refine hKept (Or.inr ⟨ttlS', ⟨?_, rfl⟩, not_le.mp hShort⟩)
          simp only [LockState.reply, hBeat]
  | release jobKind' workerId' =>
    dsimp only
    by_cases hOther : jobKind' ≠ jobKind ∨ workerId' ≠ workerId
    · exact h.releaseLock hOther
    · rw [not_or, not_not, not_not] at hOther
      obtain ⟨rfl, rfl⟩ := hOther
      refine absurd (Or.inl ⟨?_, rfl⟩) hKept
      obtain ⟨row, hRow, hKind, hWorker, -⟩ := h
      simp only [LockState.reply, LockReply.returned.injEq]
      exact List.any_eq_true.mpr ⟨row, hRow, by simp [hKind, hWorker]⟩

theorem heldUntil_run {events : List LockEvent}
    (h : state.table.HeldUntil jobKind workerId deadline)
    (hKept : ∀ before event after, events = before ++ event :: after →
      ¬ GivesUp (state.after before) event jobKind workerId deadline) :
    (state.after events).table.HeldUntil jobKind workerId deadline ∨
      ∃ event ∈ events, deadline ≤ datetimeNow event.time := by
  induction events generalizing state with
  | nil => exact Or.inl h
  | cons event events ih =>
    rcases heldUntil_step h (hKept [] event events rfl) with hStep | hLate
    · have hRest := ih hStep fun before event' after hEq =>
        hKept (event :: before) event' after (by rw [hEq, List.cons_append])
      rcases hRest with hHeld | ⟨event', hMem, hLate⟩
      · exact Or.inl hHeld
      · exact Or.inr ⟨event', List.mem_cons_of_mem _ hMem, hLate⟩
    · exact Or.inr ⟨event, List.mem_cons_self, hLate⟩

end Run

/-! ## What every run keeps -/

/-- The lock of a kind has at most one holder, whatever the time. -/
def MutuallyExclusive (state : LockState) : Prop :=
  ∀ clock jobKind workerId workerId', state.table.Holds clock jobKind workerId →
    state.table.Holds clock jobKind workerId' → workerId = workerId'

/-- A call by a worker that is not the owner of the lock changes nothing and fails. -/
def RefusesStrangers (state : LockState) (event : LockEvent) : Prop :=
  ∀ jobKind workerId, ∀ row ∈ state.table.rows, row.jobKind = jobKind → row.workerId ≠ workerId →
    (event.action = .release jobKind workerId ∨
      ∃ ttlS, event.action = .heartbeat jobKind workerId ttlS) →
    state.reply event = (state, .returned false)

/-- Once a worker is granted the lock, no other worker acquires it `within` the window
unless the holder `gives` it up in between. -/
def KeepsWindow (within : LockEvent → ℚ → LockEvent → Prop)
    (gives : LockState → LockEvent → WorkerJobKind → WorkerId → Int → Prop)
    (state : LockState) (events : List LockEvent) : Prop :=
  ∀ before granted between taken after jobKind workerId workerId' ttlS ttlS',
    events = before ++ granted :: (between ++ taken :: after) →
    Acquires (state.after before) granted jobKind workerId ttlS ∨
      Heartbeats (state.after before) granted jobKind workerId ttlS →
    Acquires (state.after (before ++ granted :: between)) taken jobKind workerId' ttlS' →
    workerId' ≠ workerId → within granted ttlS taken →
    ∃ between₁ given between₂, between = between₁ ++ given :: between₂ ∧
      gives (state.after (before ++ granted :: between₁)) given jobKind workerId
        (deadlineOf granted ttlS)

/-- The window as it was asked for. -/
def InTtl (granted : LockEvent) (ttlS : ℚ) (taken : LockEvent) : Prop :=
  taken.time < granted.time + ttlS

/-- The window in the whole seconds of the table. -/
def BeforeDeadline (granted : LockEvent) (ttlS : ℚ) (taken : LockEvent) : Prop :=
  datetimeNow taken.time < deadlineOf granted ttlS

structure LocksSafe (within : LockEvent → ℚ → LockEvent → Prop)
    (gives : LockState → LockEvent → WorkerJobKind → WorkerId → Int → Prop)
    (state : LockState) (events : List LockEvent) : Prop where
  exclusive : ∀ before after, events = before ++ after → MutuallyExclusive (state.after before)
  window : KeepsWindow within gives state events
  strangers : ∀ before event after, events = before ++ event :: after →
    RefusesStrangers (state.after before) event

theorem mutuallyExclusive (state : LockState) : MutuallyExclusive state :=
  fun _ _ _ _ h h' => h.unique h'

theorem refusesStrangers (state : LockState) (event : LockEvent) :
    RefusesStrangers state event := by
  intro jobKind workerId row hRow hKind hOther hAction
  obtain ⟨time, action⟩ := event
  rcases hAction with rfl | ⟨ttlS, rfl⟩
  · simp only [LockState.reply, LockTable.releaseLock_of_other hRow hKind hOther]
  · simp only [LockState.reply, LockTable.heartbeatLock_of_other hRow hKind hOther]

theorem LockState.after_append (state : LockState) (events events' : List LockEvent) :
    state.after (events ++ events') = (state.after events).after events' :=
  Run.final_append state events events'

/-- A window that the holder does not cut short keeps every other worker out. -/
theorem keepsWindow (state : LockState) {events : List LockEvent}
    (hClock : events.Pairwise fun a b => a.time ≤ b.time) :
    KeepsWindow BeforeDeadline GivesUp state events := by
  intro before granted between taken after jobKind workerId workerId' ttlS ttlS' hEvents
    hGranted hTaken _ hWithin
  by_contra hKept
  push Not at hKept
  rw [LockState.after_append] at hTaken
  have hHeld := heldUntil_of_granted hGranted
  have hNever : ∀ before' event after', between = before' ++ event :: after' →
      ¬ GivesUp (((state.after before).step granted).after before') event jobKind workerId
        (deadlineOf granted ttlS) := by
    intro before' event after' hEq hGives
    apply hKept before' event after' hEq
    rw [LockState.after_append]
    exact hGives
  have hRun := heldUntil_run hHeld hNever
  rcases hRun with hStill | ⟨event, hMem, hLate⟩
  · exact not_acquires_of_heldUntil hStill hTaken
  · have hOrder : event.time ≤ taken.time := by
      rw [hEvents, List.pairwise_append] at hClock
      have hTail := (List.pairwise_cons.mp hClock.2.1).2
      exact (List.pairwise_append.mp hTail).2.2 event hMem taken List.mem_cons_self
    have hSeconds := datetimeNow_mono hOrder
    unfold BeforeDeadline at hWithin
    omega

/-- **Locks exclude each other, in any order of the statements of any workers**: for the
window of whole seconds that the table stores, unless the holder cuts it short. -/
theorem locksSafe (table : LockTable) {events : List LockEvent}
    (hClock : events.Pairwise fun a b => a.time ≤ b.time) :
    LocksSafe BeforeDeadline GivesUp (LockState.start table) events where
  exclusive := fun before _ _ => mutuallyExclusive ((LockState.start table).after before)
  window := keepsWindow (LockState.start table) hClock
  strangers := fun before event _ _ =>
    refusesStrangers ((LockState.start table).after before) event

/-! ## The window that was asked for -/

def backfillArgs (workerId : WorkerId) (ttlS : ℚ) : AcquireArgs :=
  ⟨"embedding-backfill", workerId, ttlS, none, none⟩

/-- A call of `acquire_lock`, at one time. -/
def acquireAt (time : ℚ) (workerId : WorkerId) (ttlS : ℚ) : List LockEvent :=
  [⟨time, .acquireBegin (backfillArgs workerId ttlS)⟩,
    ⟨time, .acquireInsert (backfillArgs workerId ttlS)⟩]

/-- Half a second is rounded to none. -/
def halfSecond : List LockEvent :=
  acquireAt 0 "a" (1 / 2) ++ acquireAt 0 "b" (1 / 2)

/-- The ninety seconds of a lock taken late in a second end early. -/
def lateInSecond : List LockEvent :=
  acquireAt (9 / 10) "a" 90 ++ acquireAt 90 "b" 90

/-- A heartbeat of the holder shortens the window of its acquisition. -/
def shortened : List LockEvent :=
  acquireAt 0 "a" 90 ++ ⟨1, .heartbeat "embedding-backfill" "a" 1⟩ :: acquireAt 2 "b" 90

theorem locksSafe_shortened :
    LocksSafe BeforeDeadline GivesUp (LockState.start LockTable.empty) shortened :=
  locksSafe LockTable.empty (by decide +kernel)

/-- Without a release in between, a second holder within the time asked for refutes it. -/
theorem not_locksSafe_of_taken {state : LockState} {before between : List LockEvent}
    {granted taken : LockEvent} {jobKind : WorkerJobKind} {workerId workerId' : WorkerId}
    {ttlS ttlS' : ℚ} (hGranted : Acquires (state.after before) granted jobKind workerId ttlS)
    (hTaken : Acquires (state.after (before ++ granted :: between)) taken jobKind workerId' ttlS')
    (hOther : workerId' ≠ workerId) (hWithin : InTtl granted ttlS taken)
    (hNoRelease : ∀ event ∈ between, ∀ jobKind workerId, event.action ≠ .release jobKind workerId) :
    ¬ LocksSafe InTtl (fun state event jobKind workerId _ => Releases state event jobKind workerId)
        state (before ++ granted :: (between ++ [taken])) := by
  intro hSafe
  obtain ⟨between₁, given, between₂, rfl, hReleases⟩ := hSafe.window before granted between taken []
    jobKind workerId workerId' ttlS ttlS' rfl (Or.inl hGranted) hTaken hOther hWithin
  exact hNoRelease given (List.mem_append_right _ List.mem_cons_self) _ _ hReleases.2

/-- The clock never decreases and nothing is released, and still a window that was asked for
is not kept. -/
def LosesWindow (events : List LockEvent) : Prop :=
  events.Pairwise (fun a b => a.time ≤ b.time) ∧
    ¬ LocksSafe InTtl (fun state event jobKind workerId _ => Releases state event jobKind workerId)
      (LockState.start LockTable.empty) events

theorem ttl_not_kept :
    LosesWindow halfSecond ∧ LosesWindow lateInSecond ∧ LosesWindow shortened := by
  refine ⟨⟨by decide +kernel, ?_⟩, ⟨by decide +kernel, ?_⟩, ⟨by decide +kernel, ?_⟩⟩
  · apply @not_locksSafe_of_taken _ [_] [_]
    · exact ⟨by decide +kernel, _, rfl, rfl, rfl, rfl⟩
    · exact ⟨by decide +kernel, _, rfl, rfl, rfl, rfl⟩
    · decide
    · show (0 : ℚ) < 0 + 1 / 2
      norm_num
    · simp
  · apply @not_locksSafe_of_taken _ [_] [_]
    · exact ⟨by decide +kernel, _, rfl, rfl, rfl, rfl⟩
    · exact ⟨by decide +kernel, _, rfl, rfl, rfl, rfl⟩
    · decide
    · show (90 : ℚ) < 9 / 10 + 90
      norm_num
    · simp
  · apply @not_locksSafe_of_taken _ [_] [_, _]
    · exact ⟨by decide +kernel, _, rfl, rfl, rfl, rfl⟩
    · exact ⟨by decide +kernel, _, rfl, rfl, rfl, rfl⟩
    · decide
    · show (2 : ℚ) < 0 + 90
      norm_num
    · simp

end LosslessHermes
