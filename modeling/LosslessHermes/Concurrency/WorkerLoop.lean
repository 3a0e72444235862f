import LosslessHermes.Concurrency.WorkerLock
import LosslessHermes.Library.SingleFlight

/-!
# The worker loop

`WorkerLoop` runs one asyncio task for each kind of job, which sleeps and creates a task for the
tick of its job. `stop` cancels these tasks and waits for the ticks, which it does not cancel, and
`run_once` creates a tick of its own and awaits it.

An event is what a task of the event loop does between two of its `await`s, or a call: the runs
are all interleavings. A cancelled `run_once` cancels its tick and goes on when that has ended.

`wellScheduled_run` is what all runs keep: one tick of a kind at a time, no tick from a task of an
earlier generation or, but for `run_once`, of a stopped loop, and while it is running a task that
goes on for each kind.
-/

namespace LosslessHermes

/-- `α` are the results of jobs, `ε` the exceptions. The time that the tick took is left out. -/
structure JobCompleteInfo (α ε : Type) where
  kind : WorkerJobKind
  result : Option α := none
  error : Option ε := none

/-- The task of a tick, as the event loop has it; `returned` is what `_run_capturing` returned. -/
inductive TickState (α ε : Type)
  | created
  | running
  | returned (outcome : Option α × Option ε)
  | raised (error : ε)
  | cancelled

structure TickTask (α ε : Type) where
  kind : WorkerJobKind
  state : TickState α ε
  /-- It was cancelled before its first step. -/
  cancelling : Bool

inductive LoopState
  | created
  | sleeping
  | ended
  deriving DecidableEq, Repr

/-- A task that runs `_run_job`. -/
structure LoopTask where
  kind : WorkerJobKind
  myGen : Nat
  state : LoopState
  cancelling : Bool
  deriving DecidableEq, Repr

/-- The end of a call of `run_once`. -/
inductive RunOnceAnswer (α ε : Type)
  | returned (result : Option α)
  | raised (error : ε)
  | cancelled

/-- A call of `run_once` at its `await`. -/
structure RunOnceCall (α ε : Type) where
  kind : WorkerJobKind
  tickTask : Nat
  answer : Option (RunOnceAnswer α ε)

/-- A call of `stop`, with the ticks that it waits for. -/
structure StopCall where
  waiting : List Nat
  answer : Option Bool
  deriving DecidableEq, Repr

/-- The object, the tasks that it has created and the calls that are at an `await`. A task is given
by its place in the list. -/
structure WorkerLoop (α ε : Type) where
  jobs : List WorkerJobKind
  running : Bool
  generation : Nat
  tasks : List Nat
  inFlight : WorkerJobKind → Option Nat
  loopTasks : List LoopTask
  tickTasks : List (TickTask α ε)
  runOnceCalls : List (RunOnceCall α ε)
  stopCalls : List StopCall

inductive RunOnceError
  | valueError (message : String)
  | runtimeError (message : String)
  deriving DecidableEq, Repr

variable {α ε : Type}

/-- `not task.done()` -/
def TickTask.live (task : TickTask α ε) : Bool :=
  match task.state with
  | .created | .running => true
  | .returned _ | .raised _ | .cancelled => false

/-- It has not ended, and will not at its next step because of `stop`. -/
def LoopTask.live (task : LoopTask) : Bool :=
  task.state ≠ .ended && !task.cancelling

/-! ## A tick -/

/-- `hook` is what a call of `on_job_complete` does; what it raises is logged. -/
def dispatchComplete (hook : Option (JobCompleteInfo α ε → Except ε Unit))
    (info : JobCompleteInfo α ε) : Except ε Unit :=
  match hook with
  | none => .ok ()
  | some onJobComplete =>
      match onJobComplete info with
      | .ok () => .ok ()
      | .error _ => .ok ()

/-- `run` is what the awaited job does. -/
def runCapturing (hook : Option (JobCompleteInfo α ε → Except ε Unit)) (kind : WorkerJobKind)
    (run : Except ε α) : Except ε (Option α × Option ε) :=
  let tried : Except ε (Option α × Option ε) :=
    match run with
    | .error exc => .error exc
    | .ok result =>
        match dispatchComplete hook { kind := kind, result := some result } with
        | .error exc => .error exc
        | .ok () => .ok (some result, none)
  match tried with
  | .ok outcome => .ok outcome
  | .error exc =>
      match dispatchComplete hook { kind := kind, error := some exc } with
      | .error exc' => .error exc'
      | .ok () => .ok (none, some exc)

/-- The first step of the task. -/
def TickTask.begin (task : TickTask α ε) : TickTask α ε :=
  match task.state with
  | .created => { task with state := if task.cancelling then .cancelled else .running }
  | _ => task

/-- The last step of the task, in which it may be cancelled once more. -/
def TickTask.finish (hook : Option (JobCompleteInfo α ε → Except ε Unit)) (run : Except ε α)
    (cancelled : Bool) (task : TickTask α ε) : TickTask α ε :=
  match task.state with
  | .running =>
      match runCapturing hook task.kind run with
      | .ok outcome => { task with state := if cancelled then .cancelled else .returned outcome }
      | .error exc => { task with state := .raised exc }
  | _ => task

/-- `task.cancel()`; a job that runs gets a `CancelledError`, and may do with it what it likes. -/
def TickTask.cancel (task : TickTask α ε) : TickTask α ε :=
  match task.state with
  | .created => { task with cancelling := true }
  | _ => task

def LoopTask.cancel (task : LoopTask) : LoopTask :=
  if task.state = .ended then task else { task with cancelling := true }

namespace WorkerLoop

def init (jobs : List WorkerJobKind) : WorkerLoop α ε :=
  { jobs := jobs, running := false, generation := 0, tasks := [], inFlight := fun _ => none,
    loopTasks := [], tickTasks := [], runOnceCalls := [], stopCalls := [] }

/-- `existing is not None and not existing.done()` -/
def isInFlight (s : WorkerLoop α ε) (kind : WorkerJobKind) : Bool :=
  SingleFlight.occupied TickTask.live s.tickTasks s.inFlight kind

/-- `create_task` for a tick, and its entry in the map. -/
def createTick (s : WorkerLoop α ε) (kind : WorkerJobKind) : WorkerLoop α ε :=
  { s with
    tickTasks := s.tickTasks ++ [⟨kind, .created, false⟩]
    inFlight := Function.update s.inFlight kind (some s.tickTasks.length) }

/-! ## The calls -/

def start (s : WorkerLoop α ε) : WorkerLoop α ε × Bool :=
  if s.running then (s, false)
  else
    ({ s with
        running := true
        generation := s.generation + 1
        loopTasks := s.loopTasks ++
          s.jobs.map fun kind => ⟨kind, s.generation + 1, .created, false⟩
        tasks := s.tasks ++ List.range' s.loopTasks.length s.jobs.length }, true)

/-- Up to the `await`, or to the end. -/
def stop (s : WorkerLoop α ε) : WorkerLoop α ε :=
  if s.running = false then { s with stopCalls := s.stopCalls ++ [⟨[], some true⟩] }
  else
    let waiting := (s.jobs.filter s.isInFlight).filterMap s.inFlight
    { s with
      running := false
      loopTasks := s.loopTasks.mapIdx fun i task => if i ∈ s.tasks then task.cancel else task
      tasks := []
      stopCalls := s.stopCalls ++ [⟨waiting, if waiting = [] then some true else none⟩] }

/-- `asyncio.wait` returns, after its ticks or at its timeout. -/
def stopReturns (s : WorkerLoop α ε) (i : Nat) (timedOut : Bool) : WorkerLoop α ε :=
  match s.stopCalls[i]? with
  | some ⟨waiting, none⟩ =>
      let pending := waiting.filter fun t => s.tickTasks[t]?.any TickTask.live
      if timedOut ∨ pending = [] then
        { s with stopCalls := s.stopCalls.set i ⟨waiting, some (pending = [])⟩ }
      else s
  | _ => s

/-- Up to the `await`. -/
def runOnce (s : WorkerLoop α ε) (kind : WorkerJobKind) : Except RunOnceError (WorkerLoop α ε) :=
  if kind ∉ s.jobs then .error (.valueError ("[worker-loop] no job kind: " ++ kind))
  else if s.isInFlight kind then
    .error (.runtimeError ("[worker-loop] job " ++ kind ++ " is already in flight"))
  else
    .ok
      { s.createTick kind with
        runOnceCalls := s.runOnceCalls ++ [⟨kind, s.tickTasks.length, none⟩] }

/-- The task that awaits the call is cancelled, and hands that on to the tick. -/
def cancelCall (s : WorkerLoop α ε) (i : Nat) : WorkerLoop α ε :=
  match s.runOnceCalls[i]? with
  | some ⟨_, tickTask, none⟩ => { s with tickTasks := s.tickTasks.modify tickTask TickTask.cancel }
  | _ => s

/-- What the call of `run_once` makes of the awaited task, unless it is cancelled as well. -/
def answerOf (cancelled : Bool) : TickState α ε → RunOnceAnswer α ε
  | .returned (result, none) => if cancelled then .cancelled else .returned result
  | .returned (_, some error) => if cancelled then .cancelled else .raised error
  | .raised error => if cancelled then .cancelled else .raised error
  | .created | .running | .cancelled => .cancelled

/-- The tick has ended: the entry is taken out of the map, and the call returns or raises. -/
def callReturns (s : WorkerLoop α ε) (i : Nat) (cancelled : Bool) : WorkerLoop α ε :=
  match s.runOnceCalls[i]? with
  | some ⟨kind, tickTask, none⟩ =>
      match s.tickTasks[tickTask]? with
      | some task =>
          if task.live then s
          else
            { s with
              inFlight :=
                if s.inFlight kind = some tickTask then Function.update s.inFlight kind none
                else s.inFlight
              runOnceCalls := s.runOnceCalls.set i
                ⟨kind, tickTask, some (answerOf cancelled task.state)⟩ }
      | none => s
  | _ => s

/-! ## The tasks of the kinds -/

def setLoopState (s : WorkerLoop α ε) (i : Nat) (state : LoopState) : WorkerLoop α ε :=
  { s with loopTasks := s.loopTasks.modify i fun task => { task with state := state } }

/-- One step of `_run_job`: up to the first `sleep`, or from one `sleep` to the next. A task that
was cancelled ends. -/
def runJob (s : WorkerLoop α ε) (i : Nat) : WorkerLoop α ε :=
  match s.loopTasks[i]? with
  | none => s
  | some task =>
      if task.cancelling then s.setLoopState i .ended
      else
        match task.state with
        | .ended => s
        | .created =>
            if s.running ∧ s.generation = task.myGen then s.setLoopState i .sleeping
            else s.setLoopState i .ended
        | .sleeping =>
            if s.running = false ∨ s.generation ≠ task.myGen then s.setLoopState i .ended
            else if s.isInFlight task.kind then s
            else s.createTick task.kind

/-! ## Runs -/

end WorkerLoop

inductive WorkerEvent (α ε : Type)
  | start
  | stop
  | stopReturns (i : Nat) (timedOut : Bool)
  | runOnce (kind : WorkerJobKind)
  | cancelCall (i : Nat)
  | callReturns (i : Nat) (cancelled : Bool)
  | runJob (i : Nat)
  | beginTick (i : Nat)
  | finishTick (i : Nat) (run : Except ε α) (cancelled : Bool)
      (hook : Option (JobCompleteInfo α ε → Except ε Unit))

namespace WorkerLoop

def step (s : WorkerLoop α ε) : WorkerEvent α ε → WorkerLoop α ε
  | .start => s.start.1
  | .stop => s.stop
  | .stopReturns i timedOut => s.stopReturns i timedOut
  | .runOnce kind =>
      match s.runOnce kind with
      | .ok s' => s'
      | .error _ => s
  | .cancelCall i => s.cancelCall i
  | .callReturns i cancelled => s.callReturns i cancelled
  | .runJob i => s.runJob i
  | .beginTick i => { s with tickTasks := s.tickTasks.modify i TickTask.begin }
  | .finishTick i run cancelled hook =>
      { s with tickTasks := s.tickTasks.modify i (TickTask.finish hook run cancelled) }

/-! ## What a run should keep -/

/-- How many ticks of the kind have not ended. -/
def liveTicks (s : WorkerLoop α ε) (kind : WorkerJobKind) : Nat :=
  s.tickTasks.countP fun task => task.kind = kind && task.live

def Spawns (s : WorkerLoop α ε) (event : WorkerEvent α ε) : Prop :=
  s.tickTasks.length < (s.step event).tickTasks.length

/-- A task of the kind goes on: its next step leads to a `sleep`, and after each `sleep` a tick is
in flight. -/
def Scheduled (s : WorkerLoop α ε) (kind : WorkerJobKind) : Prop :=
  ∃ i task, s.loopTasks[i]? = some task ∧ task.kind = kind ∧ task.myGen = s.generation ∧
    task.live = true ∧ (s.runJob i).loopTasks[i]? = some { task with state := .sleeping } ∧
      (task.state = .sleeping → (s.runJob i).isInFlight kind = true)

/-- `mayTick` says which events may create a tick. -/
structure WellScheduled (mayTick : WorkerLoop α ε → WorkerEvent α ε → Prop)
    (s : WorkerLoop α ε) : Prop where
  oneTick : ∀ kind, s.liveTicks kind ≤ 1
  spawns : ∀ event, s.Spawns event → mayTick s event
  captured : ∀ task ∈ s.tickTasks, ∀ error, task.state ≠ .raised error
  scheduled : s.running = true → ∀ kind ∈ s.jobs, s.Scheduled kind

/-- The loop is running, and the event is no step of a task of another generation. -/
def WhileRunning (s : WorkerLoop α ε) (event : WorkerEvent α ε) : Prop :=
  s.running = true ∧
    ∀ i, event = .runJob i → ∃ task, s.loopTasks[i]? = some task ∧ task.myGen = s.generation

/-- The same, but for `run_once`. -/
def InTurn (s : WorkerLoop α ε) (event : WorkerEvent α ε) : Prop :=
  (∃ kind, event = .runOnce kind) ∨ s.WhileRunning event

/-! ## What one step can do -/

variable {s : WorkerLoop α ε}

/-- A task of a kind ends, goes to sleep, or has slept in its turn. -/
theorem runJob_cases (s : WorkerLoop α ε) (i : Nat) :
    (∃ state, s.runJob i = s.setLoopState i state) ∨ s.runJob i = s ∨
      ∃ task, s.loopTasks[i]? = some task ∧ s.running = true ∧ task.myGen = s.generation ∧
        s.isInFlight task.kind = false ∧ s.runJob i = s.createTick task.kind := by
  unfold runJob
  split
  · exact Or.inr (Or.inl rfl)
  · rename_i task hTask
    split
    · exact Or.inl ⟨.ended, rfl⟩
    · split
      · exact Or.inr (Or.inl rfl)
      · split
        · exact Or.inl ⟨.sleeping, rfl⟩
        · exact Or.inl ⟨.ended, rfl⟩
      · split
        · exact Or.inl ⟨.ended, rfl⟩
        · rename_i hTurn
          rw [not_or, Bool.not_eq_false, not_not] at hTurn
          split
          · exact Or.inr (Or.inl rfl)
          · rename_i hFree
            exact Or.inr (Or.inr ⟨task, hTask, hTurn.1, hTurn.2.symm, Bool.eq_false_of_not_eq_true
              hFree, rfl⟩)

theorem runOnce_cases {s' : WorkerLoop α ε} {kind : WorkerJobKind} (h : s.runOnce kind = .ok s') :
    s.isInFlight kind = false ∧ s' =
      { s.createTick kind with
        runOnceCalls := s.runOnceCalls ++ [⟨kind, s.tickTasks.length, none⟩] } := by
  unfold runOnce at h
  split at h
  · cases h
  · split at h
    · cases h
    · rename_i hFree
      exact ⟨Bool.eq_false_of_not_eq_true hFree, (Except.ok.inj h).symm⟩

theorem callReturns_cases (s : WorkerLoop α ε) (i : Nat) (cancelled : Bool) :
    s.callReturns i cancelled = s ∨
      ∃ kind tickTask calls, s.tickTasks[tickTask]?.any TickTask.live = false ∧
        s.callReturns i cancelled =
          { s with
            inFlight :=
              if s.inFlight kind = some tickTask then Function.update s.inFlight kind none
              else s.inFlight
            runOnceCalls := calls } := by
  unfold callReturns
  split
  · rename_i kind tickTask hCall
    split
    · rename_i task hTask
      split
      · exact Or.inl rfl
      · rename_i hDone
        refine Or.inr ⟨kind, tickTask, _, ?_, rfl⟩
        rw [hTask, Option.any_some]
        exact Bool.eq_false_of_not_eq_true hDone
    · exact Or.inl rfl
  · exact Or.inl rfl

theorem cancelCall_cases (s : WorkerLoop α ε) (i : Nat) :
    s.cancelCall i = s ∨
      ∃ j, s.cancelCall i = { s with tickTasks := s.tickTasks.modify j TickTask.cancel } := by
  unfold cancelCall
  split
  · exact Or.inr ⟨_, rfl⟩
  · exact Or.inl rfl

theorem stopReturns_cases (s : WorkerLoop α ε) (i : Nat) (timedOut : Bool) :
    ∃ calls, s.stopReturns i timedOut = { s with stopCalls := calls } := by
  unfold stopReturns
  split
  · dsimp only
    split
    · exact ⟨_, rfl⟩
    · exact ⟨s.stopCalls, rfl⟩
  · exact ⟨s.stopCalls, rfl⟩

/-! ## Ticks raise nothing -/

theorem dispatchComplete_eq (hook : Option (JobCompleteInfo α ε → Except ε Unit))
    (info : JobCompleteInfo α ε) : dispatchComplete hook info = .ok () := by
  unfold dispatchComplete
  split
  · rfl
  · split
    · rfl
    · rfl

/-- The outcome of a tick is what its job did, whatever the hook does. -/
theorem runCapturing_eq (hook : Option (JobCompleteInfo α ε → Except ε Unit))
    (kind : WorkerJobKind) (run : Except ε α) :
    runCapturing hook kind run =
      .ok (match run with
        | .ok result => (some result, none)
        | .error exc => (none, some exc)) := by
  unfold runCapturing
  cases run with
  | ok result => simp only [dispatchComplete_eq]
  | error exc => simp only [dispatchComplete_eq]

end WorkerLoop

namespace TickTask

/-- The task may go on or end, and does not raise. -/
structure Follows (task task' : TickTask α ε) : Prop where
  kind : task'.kind = task.kind
  live : task'.live = true → task.live = true
  raised : ∀ error, task'.state = .raised error → task.state = .raised error

theorem Follows.refl (task : TickTask α ε) : task.Follows task :=
  ⟨rfl, id, fun _ => id⟩

theorem follows_begin (task : TickTask α ε) : task.Follows task.begin := by
  unfold begin
  split
  · rename_i hState
    refine ⟨rfl, fun _ => by rw [live, hState], fun error hRaised => ?_⟩
    cases hCancelling : task.cancelling with
    | true =>
      rw [hCancelling] at hRaised
      cases hRaised
    | false =>
      rw [hCancelling] at hRaised
      cases hRaised
  · exact Follows.refl task

theorem follows_cancel (task : TickTask α ε) : task.Follows task.cancel := by
  unfold cancel
  split
  · exact ⟨rfl, id, fun _ => id⟩
  · exact Follows.refl task

/-- The job may raise, and the hook as well. -/
theorem follows_finish (hook : Option (JobCompleteInfo α ε → Except ε Unit)) (run : Except ε α)
    (cancelled : Bool) (task : TickTask α ε) :
    task.Follows (task.finish hook run cancelled) := by
  unfold finish
  split
  · rename_i hState
    rw [WorkerLoop.runCapturing_eq]
    refine ⟨rfl, fun _ => by rw [live, hState], fun error hRaised => ?_⟩
    cases cancelled with
    | true => cases hRaised
    | false => cases hRaised
  · exact Follows.refl task

end TickTask

namespace WorkerLoop

variable {s : WorkerLoop α ε}

/-! ## The invariant -/

/-- Each live tick is in its slot of the map, no tick has raised, and in a running loop a task of
the current generation goes on for each kind. -/
structure Disciplined (s : WorkerLoop α ε) : Prop where
  tracked : SingleFlight.Tracked TickTask.kind TickTask.live s.tickTasks s.inFlight
  captured : ∀ task ∈ s.tickTasks, ∀ error, task.state ≠ .raised error
  goesOn : s.running = true → ∀ kind ∈ s.jobs, ∃ (i : Nat) (task : LoopTask),
    s.loopTasks[i]? = some task ∧ task.kind = kind ∧ task.myGen = s.generation ∧ task.live = true

theorem disciplined_init (jobs : List WorkerJobKind) :
    (init jobs : WorkerLoop α ε).Disciplined where
  tracked := SingleFlight.Tracked.nil _
  captured := fun _ hTask => nomatch hTask
  goesOn := fun hRunning => nomatch hRunning

theorem Disciplined.modifyTick (h : s.Disciplined) (i : Nat)
    {f : TickTask α ε → TickTask α ε} (hStep : ∀ task : TickTask α ε, task.Follows (f task)) :
    Disciplined { s with tickTasks := s.tickTasks.modify i f } where
  tracked := h.tracked.modify i (fun task => (hStep task).kind) fun task => (hStep task).live
  captured := by
    intro task hTask error hRaised
    obtain ⟨j, hj⟩ := List.mem_iff_getElem?.mp hTask
    rw [List.getElem?_modify] at hj
    obtain ⟨before, hBefore, rfl⟩ := Option.map_eq_some_iff.mp hj
    have hMem := List.mem_of_getElem? hBefore
    split at hRaised
    · exact h.captured before hMem error ((hStep before).raised error hRaised)
    · exact h.captured before hMem error hRaised
  goesOn := h.goesOn

theorem Disciplined.createTick (h : s.Disciplined) {kind : WorkerJobKind}
    (hFree : s.isInFlight kind = false) : (s.createTick kind).Disciplined where
  tracked := h.tracked.append ⟨kind, .created, false⟩ hFree
  captured := by
    intro task hTask error
    rcases List.mem_append.mp hTask with hOld | hNew
    · exact h.captured task hOld error
    · rw [List.mem_singleton.mp hNew]
      exact fun hRaised => nomatch hRaised
  goesOn := h.goesOn

theorem Disciplined.start (h : s.Disciplined) : s.start.1.Disciplined := by
  unfold WorkerLoop.start
  split
  · exact h
  · refine ⟨h.tracked, h.captured, fun _ kind hKind => ?_⟩
    obtain ⟨j, hj⟩ := List.mem_iff_getElem?.mp hKind
    refine ⟨s.loopTasks.length + j, ⟨kind, s.generation + 1, .created, false⟩, ?_, rfl, rfl, rfl⟩
    dsimp only
    rw [List.getElem?_append_right (Nat.le_add_right _ _), Nat.add_sub_cancel_left,
      List.getElem?_map, hj]
    rfl

theorem Disciplined.stop (h : s.Disciplined) : s.stop.Disciplined := by
  unfold WorkerLoop.stop
  split
  · exact ⟨h.tracked, h.captured, h.goesOn⟩
  · exact ⟨h.tracked, h.captured, fun hRunning => nomatch hRunning⟩

/-- The step of a current task of a running loop. -/
theorem runJob_of_current {i : Nat} {task : LoopTask} (hTask : s.loopTasks[i]? = some task)
    (hLive : task.live = true) (hRunning : s.running = true) (hGen : task.myGen = s.generation) :
    (task.state = .created ∧ s.runJob i = s.setLoopState i .sleeping) ∨
      (task.state = .sleeping ∧ s.runJob i =
        if s.isInFlight task.kind then s else s.createTick task.kind) := by
  obtain ⟨hState, hKept⟩ := Bool.and_eq_true_iff.mp hLive
  rw [Bool.not_eq_true'] at hKept
  unfold runJob
  rw [hTask]
  simp only [hKept, hRunning, hGen]
  cases hNow : task.state with
  | created => exact Or.inl ⟨rfl, rfl⟩
  | sleeping =>
    refine Or.inr ⟨rfl, (if_neg Bool.false_ne_true).trans (if_neg ?_)⟩
    rintro (hStopped | hOther)
    · cases hStopped
    · exact hOther rfl
  | ended => exact absurd hNow (of_decide_eq_true hState)

theorem getElem?_setLoopState (s : WorkerLoop α ε) (i j : Nat) (state : LoopState) :
    (s.setLoopState i state).loopTasks[j]? =
      s.loopTasks[j]?.map fun task => if i = j then { task with state := state } else task :=
  List.getElem?_modify _ i s.loopTasks j

theorem Disciplined.runJob (h : s.Disciplined) (i : Nat) : (s.runJob i).Disciplined := by
  -- the ticks, and what does not depend on the step
  have hTicks : SingleFlight.Tracked TickTask.kind TickTask.live (s.runJob i).tickTasks
      (s.runJob i).inFlight ∧ (∀ task ∈ (s.runJob i).tickTasks, ∀ error,
        task.state ≠ .raised error) ∧ (s.runJob i).running = s.running ∧
          (s.runJob i).jobs = s.jobs ∧ (s.runJob i).generation = s.generation := by
    rcases runJob_cases s i with ⟨state, hEq⟩ | hEq | ⟨task, -, -, -, hFree, hEq⟩
    · rw [hEq]
      exact ⟨h.tracked, h.captured, rfl, rfl, rfl⟩
    · rw [hEq]
      exact ⟨h.tracked, h.captured, rfl, rfl, rfl⟩
    · rw [hEq]
      exact ⟨(h.createTick hFree).tracked, (h.createTick hFree).captured, rfl, rfl, rfl⟩
  obtain ⟨hTracked, hCaptured, hRunning, hJobs, hGeneration⟩ := hTicks
  refine ⟨hTracked, hCaptured, ?_⟩
  rw [hRunning, hJobs, hGeneration]
  intro hNow kind hKind
  obtain ⟨j, task, hTask, hSame, hGen, hLive⟩ := h.goesOn hNow kind hKind
  by_cases hOwn : i = j
  · subst hOwn
    rcases runJob_of_current hTask hLive hNow hGen with ⟨-, hEq⟩ | ⟨-, hEq⟩
    · refine ⟨i, { task with state := .sleeping }, ?_, hSame, hGen, ?_⟩
      · rw [hEq, getElem?_setLoopState, hTask, Option.map_some, if_pos rfl]
      · exact (Bool.and_eq_true_iff.mp hLive).2
    · refine ⟨i, task, ?_, hSame, hGen, hLive⟩
      rw [hEq]
      split
      · exact hTask
      · exact hTask
  · refine ⟨j, task, ?_, hSame, hGen, hLive⟩
    rcases runJob_cases s i with ⟨state, hEq⟩ | hEq | ⟨other, -, -, -, -, hEq⟩
    · rw [hEq, getElem?_setLoopState, hTask, Option.map_some, if_neg hOwn]
    · rw [hEq]
      exact hTask
    · rw [hEq]
      exact hTask

theorem Disciplined.callReturns (h : s.Disciplined) (i : Nat) (cancelled : Bool) :
    (s.callReturns i cancelled).Disciplined := by
  rcases callReturns_cases s i cancelled with hEq | ⟨kind, tickTask, calls, hDone, hEq⟩
  · rw [hEq]
    exact h
  · rw [hEq]
    refine ⟨?_, h.captured, h.goesOn⟩
    dsimp only
    split
    · rename_i hSlot
      exact h.tracked.clear hSlot hDone
    · exact h.tracked

/-- What each event keeps. -/
theorem Disciplined.step (h : s.Disciplined) (event : WorkerEvent α ε) :
    (s.step event).Disciplined := by
  cases event with
  | start => exact h.start
  | stop => exact h.stop
  | stopReturns i timedOut =>
    obtain ⟨calls, hEq⟩ := stopReturns_cases s i timedOut
    rw [WorkerLoop.step, hEq]
    exact ⟨h.tracked, h.captured, h.goesOn⟩
  | runOnce kind =>
    rw [WorkerLoop.step]
    split
    · rename_i s' hOk
      obtain ⟨hFree, rfl⟩ := runOnce_cases hOk
      have hCreated := h.createTick hFree
      exact ⟨hCreated.tracked, hCreated.captured, hCreated.goesOn⟩
    · exact h
  | cancelCall i =>
    rcases cancelCall_cases s i with hEq | ⟨j, hEq⟩
    · rw [WorkerLoop.step, hEq]
      exact h
    · rw [WorkerLoop.step, hEq]
      exact h.modifyTick j TickTask.follows_cancel
  | callReturns i cancelled => exact h.callReturns i cancelled
  | runJob i => exact h.runJob i
  | beginTick i => exact h.modifyTick i TickTask.follows_begin
  | finishTick i run cancelled hook =>
    exact h.modifyTick i (TickTask.follows_finish hook run cancelled)

/-! ## All runs -/

/-- A tick is created by `run_once`, or by a current task of the running loop. -/
theorem inTurn_of_spawns {event : WorkerEvent α ε} (h : s.Spawns event) : s.InTurn event := by
  have hNot : ∀ {s' : WorkerLoop α ε}, s'.tickTasks.length = s.tickTasks.length →
      ¬ s.tickTasks.length < s'.tickTasks.length := fun hSame hLess => by omega
  unfold Spawns at h
  cases event with
  | start =>
    refine absurd h (hNot ?_)
    rw [step, start]
    split <;> rfl
  | stop =>
    refine absurd h (hNot ?_)
    rw [step, stop]
    split <;> rfl
  | stopReturns i timedOut =>
    obtain ⟨calls, hEq⟩ := stopReturns_cases s i timedOut
    exact absurd h (hNot (by rw [step, hEq]))
  | runOnce kind => exact Or.inl ⟨kind, rfl⟩
  | cancelCall i =>
    refine absurd h (hNot ?_)
    rcases cancelCall_cases s i with hEq | ⟨j, hEq⟩
    · rw [step, hEq]
    · rw [step, hEq, List.length_modify]
  | callReturns i cancelled =>
    refine absurd h (hNot ?_)
    rcases callReturns_cases s i cancelled with hEq | ⟨kind, tickTask, calls, -, hEq⟩
    · rw [step, hEq]
    · rw [step, hEq]
  | runJob i =>
    rcases runJob_cases s i with ⟨state, hEq⟩ | hEq | ⟨task, hTask, hRunning, hGen, -, -⟩
    · exact absurd h (hNot (by rw [step, hEq, setLoopState]))
    · exact absurd h (hNot (by rw [step, hEq]))
    · refine Or.inr ⟨hRunning, fun j hj => ?_⟩
      obtain rfl : i = j := by injection hj
      exact ⟨task, hTask, hGen⟩
  | beginTick i => exact absurd h (hNot (by rw [step, List.length_modify]))
  | finishTick i run cancelled hook => exact absurd h (hNot (by rw [step, List.length_modify]))

theorem isInFlight_createTick (s : WorkerLoop α ε) (kind : WorkerJobKind) :
    (s.createTick kind).isInFlight kind = true := by
  unfold isInFlight SingleFlight.occupied createTick
  dsimp only
  rw [Function.update_self, Option.any_some, List.getElem?_append_right (Nat.le_refl _),
    Nat.sub_self]
  rfl

theorem Disciplined.scheduled (h : s.Disciplined) (hRunning : s.running = true)
    {kind : WorkerJobKind} (hKind : kind ∈ s.jobs) : s.Scheduled kind := by
  obtain ⟨i, task, hTask, hSame, hGen, hLive⟩ := h.goesOn hRunning kind hKind
  refine ⟨i, task, hTask, hSame, hGen, hLive, ?_⟩
  rcases runJob_of_current hTask hLive hRunning hGen with ⟨hState, hEq⟩ | ⟨hState, hEq⟩
  · refine ⟨?_, fun hSleeping => absurd (hState.symm.trans hSleeping) (by decide)⟩
    rw [hEq, getElem?_setLoopState, hTask, Option.map_some, if_pos rfl]
  · have hKept : { task with state := .sleeping } = task := by rw [← hState]
    rw [hEq, hKept, hSame]
    split
    · rename_i hBusy
      exact ⟨hTask, fun _ => hBusy⟩
    · exact ⟨hTask, fun _ => isInFlight_createTick s kind⟩

theorem Disciplined.wellScheduled (h : s.Disciplined) : s.WellScheduled InTurn where
  oneTick := h.tracked.countP_le_one
  spawns := fun _ => inTurn_of_spawns
  captured := h.captured
  scheduled := fun hRunning _ hKind => h.scheduled hRunning hKind

/-- Every interleaving of calls, timers and the ends of ticks. -/
theorem wellScheduled_run (jobs : List WorkerJobKind) (events : List (WorkerEvent α ε)) :
    (Run.final step (init jobs) events).WellScheduled InTurn :=
  (Run.final_invariant (fun _ event _ h => h.step event) (disciplined_init jobs)).wellScheduled

/-- `run_once` does not ask whether the loop is running. -/
theorem not_wellScheduled_runOnce :
    ¬ ∀ (jobs : List WorkerJobKind) (events : List (WorkerEvent Nat String)),
      (Run.final step (init jobs) events).WellScheduled WhileRunning := by
  intro hAll
  have hSpawns : (init ["extraction"] : WorkerLoop Nat String).Spawns (.runOnce "extraction") := by
    unfold Spawns
    decide +kernel
  have hStopped := ((hAll ["extraction"] []).spawns _ hSpawns).1
  cases hStopped

end WorkerLoop

end LosslessHermes
