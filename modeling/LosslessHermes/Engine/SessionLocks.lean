import LosslessHermes.Library.Dict
import LosslessHermes.Library.Run
import LosslessHermes.Store.Records

/-!
# The locks of the sessions

`Registry` is the synchronous half of `SessionLockRegistry`: a dictionary from sessions to
records, each a lock with a count of the calls that need it. A record is an object, which
a call may hold on to when the dictionary has forgotten it, so that objects have numbers.

A call of `acquire_sync` goes through the phases of `Call`. Each step of a call, and each
pruning, is atomic: the dictionary is only touched under its own lock.
-/

namespace LosslessHermes.SessionLocks

/-! ## The registry -/

abbrev ObjectId := Nat

structure SyncSessionLockRecord where
  /-- Whether the `threading.Lock` is taken. -/
  locked : Bool := false
  refcount : Int := 0
  deriving DecidableEq, Repr

structure Registry where
  highWaterMark : Int
  /-- How many records were created; their objects have the numbers below. -/
  created : ObjectId
  objects : ObjectId → SyncSessionLockRecord
  syncRecords : List (SessionId × ObjectId)

namespace Registry

def empty (highWaterMark : Int) : Registry := ⟨highWaterMark, 0, fun _ => {}, []⟩

def get (r : Registry) (sessionId : SessionId) : Option (SessionId × ObjectId) :=
  Dict.get Prod.fst sessionId r.syncRecords

/-- The object has changed. -/
def setObject (r : Registry) (object : ObjectId) (record : SyncSessionLockRecord) : Registry :=
  { r with objects := fun other => if other = object then record else r.objects other }

/-- `record.refcount += n` -/
def count (r : Registry) (object : ObjectId) (n : Int) : Registry :=
  r.setObject object
    { r.objects object with refcount := (r.objects object).refcount + n }

def setLocked (r : Registry) (object : ObjectId) (locked : Bool) : Registry :=
  r.setObject object { r.objects object with locked := locked }

def create (r : Registry) (sessionId : SessionId) : Registry :=
  { r.setObject r.created {} with
    created := r.created + 1
    syncRecords := Dict.set Prod.fst (sessionId, r.created) r.syncRecords }

def acquireSyncRecord (r : Registry) (sessionId : SessionId) : Registry × ObjectId :=
  match r.get sessionId with
  | some record => (r.count record.2 1, record.2)
  | none => ((r.create sessionId).count r.created 1, r.created)

/-- The registry without its idle records, and how many they were. -/
def pruneSyncLocked (r : Registry) : Registry × Nat :=
  let keysToRemove :=
    (r.syncRecords.filter fun record => (r.objects record.2).refcount = 0).map Prod.fst
  let syncRecords := keysToRemove.foldl
    (Dict.eraseIf Prod.fst fun record => (r.objects record.2).refcount = 0) r.syncRecords
  ({ r with syncRecords := syncRecords }, keysToRemove.length)

def pruneSync (r : Registry) : Registry × Nat :=
  r.pruneSyncLocked

/-- The first half of `_release_sync_record`. -/
def countDown (r : Registry) (sessionId : SessionId) : Registry :=
  match r.get sessionId with
  | some record => r.count record.2 (-1)
  | none => r

def releaseSyncRecord (r : Registry) (sessionId : SessionId) : Registry :=
  let r := r.countDown sessionId
  if r.highWaterMark < r.syncRecords.length then r.pruneSyncLocked.1 else r

end Registry

/-! ## Calls -/

/-- How a call leaves its body. -/
inductive Exit
  | returned
  | raised
  deriving DecidableEq, Repr

inductive Phase
  /-- Counted, and waiting for the lock. -/
  | waiting
  /-- In the body, with the lock. -/
  | inside
  /-- Without the lock, and still counted. -/
  | leaving (exit : Exit)
  | left (exit : Exit)
  deriving DecidableEq, Repr

/-- A call of `acquire_sync`, by any thread; a body may make further calls. -/
structure Call where
  sessionId : SessionId
  record : ObjectId
  phase : Phase
  deriving DecidableEq, Repr

structure State where
  registry : Registry
  calls : List Call

def State.start (highWaterMark : Int) : State := ⟨.empty highWaterMark, []⟩

inductive Action
  /-- A new call: `_acquire_sync_record`. -/
  | acquireRecord (sessionId : SessionId)
  /-- A waiting call gets the lock, if it is free. -/
  | takeLock (call : Nat)
  /-- An exception ends the wait for the lock. -/
  | interrupt (call : Nat)
  /-- The body ends, and the lock is released. -/
  | endBody (call : Nat) (exit : Exit)
  /-- `_release_sync_record` -/
  | releaseRecord (call : Nat)
  /-- `prune_sync` -/
  | prune
  deriving DecidableEq, Repr

namespace State

/-- The call has come to the phase, and the registry has changed. -/
def move (s : State) (i : Nat) (call : Call) (phase : Phase) (registry : Registry) : State :=
  ⟨registry, s.calls.set i { call with phase := phase }⟩

/-- A step that is not possible does not happen. -/
def step (s : State) : Action → State
  | .acquireRecord sessionId =>
      let (registry, record) := s.registry.acquireSyncRecord sessionId
      ⟨registry, s.calls ++ [⟨sessionId, record, .waiting⟩]⟩
  | .takeLock i =>
      match s.calls[i]? with
      | some call =>
          if call.phase = .waiting ∧ (s.registry.objects call.record).locked = false then
            s.move i call .inside (s.registry.setLocked call.record true)
          else s
      | none => s
  | .interrupt i =>
      match s.calls[i]? with
      | some call =>
          if call.phase = .waiting then s.move i call (.leaving .raised) s.registry else s
      | none => s
  | .endBody i exit =>
      match s.calls[i]? with
      | some call =>
          if call.phase = .inside then
            s.move i call (.leaving exit) (s.registry.setLocked call.record false)
          else s
      | none => s
  | .releaseRecord i =>
      match s.calls[i]? with
      | some call =>
          match call.phase with
          | .leaving exit =>
              s.move i call (.left exit) (s.registry.releaseSyncRecord call.sessionId)
          | _ => s
      | none => s
  | .prune => { s with registry := s.registry.pruneSync.1 }

end State

/-! ## What the operations of the registry do -/

namespace Registry

variable {r : Registry}

/-- Pruning keeps the records that are counted, and nothing else changes. -/
theorem pruneSyncLocked_spec (h : (r.syncRecords.map Prod.fst).Nodup) :
    r.pruneSyncLocked.1 = { r with
      syncRecords := r.syncRecords.filter fun record => (r.objects record.2).refcount ≠ 0 } := by
  refine congrArg (fun records => { r with syncRecords := records })
    ((Dict.foldl_eraseIf _ _ h).trans ?_)
  refine List.filter_congr fun record hMem => ?_
  have hKey : (r.objects record.2).refcount = 0 → record.1 ∈
      (r.syncRecords.filter fun record => (r.objects record.2).refcount = 0).map Prod.fst :=
    fun hIdle => List.mem_map_of_mem (List.mem_filter.mpr ⟨hMem, decide_eq_true hIdle⟩)
  by_cases hIdle : (r.objects record.2).refcount = 0
  · simp [hIdle, hKey hIdle]
  · simp [hIdle]

theorem objects_count (object other : ObjectId) (n : Int) :
    ((r.count object n).objects other).locked = (r.objects other).locked ∧
      ((r.count object n).objects other).refcount =
        (r.objects other).refcount + if other = object then n else 0 := by
  unfold count setObject
  dsimp only
  split
  · rename_i hSame
    rw [hSame]
    exact ⟨rfl, rfl⟩
  · exact ⟨rfl, (Int.add_zero _).symm⟩

theorem objects_setLocked (object other : ObjectId) (locked : Bool) :
    ((r.setLocked object locked).objects other).refcount = (r.objects other).refcount ∧
      ((r.setLocked object locked).objects other).locked =
        if other = object then locked else (r.objects other).locked := by
  unfold setLocked setObject
  dsimp only
  split
  · rename_i hSame
    rw [hSame]
    exact ⟨rfl, rfl⟩
  · exact ⟨rfl, rfl⟩

end Registry

end LosslessHermes.SessionLocks
