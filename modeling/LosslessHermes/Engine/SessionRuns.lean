import LosslessHermes.Engine.SessionLocks

/-!
# Runs of calls on the session locks

`Inv` is what every step of a call and every pruning keeps: a record with a call that has not
left is in the dictionary, its count is the number of those calls, and its lock is taken
exactly while one of them is in its body.
-/

namespace LosslessHermes.SessionLocks

/-! ## Counting calls -/

/-- The call has been counted and not yet counted down. -/
def Phase.counted : Phase → Bool
  | .waiting => true
  | .inside => true
  | .leaving _ => true
  | .left _ => false

def Phase.isLeaving : Phase → Bool
  | .leaving _ => true
  | _ => false

namespace State

/-- The calls of a record in the phases of a kind. -/
def number (s : State) (kind : Phase → Bool) (record : ObjectId) : Nat :=
  s.calls.countP fun call => kind call.phase && decide (call.record = record)

/-- The calls in the body with the lock of the record. -/
def holders (s : State) (record : ObjectId) : Nat :=
  s.number (fun phase => phase = .inside) record

def waiters (s : State) (record : ObjectId) : Nat :=
  s.number (fun phase => phase = .waiting) record

/-- The calls that have released the lock and are not counted down. -/
def leavers (s : State) (record : ObjectId) : Nat :=
  s.number Phase.isLeaving record

/-- The calls in the critical section of a session. -/
def insiders (s : State) (sessionId : SessionId) : Nat :=
  s.calls.countP fun call => decide (call.phase = .inside) && decide (call.sessionId = sessionId)

end State

/-- The dictionary and the calls agree. -/
structure Inv (s : State) : Prop where
  keys : (s.registry.syncRecords.map Prod.fst).Nodup
  created : ∀ record ∈ s.registry.syncRecords, record.2 < s.registry.created
  kept : ∀ call ∈ s.calls, call.phase.counted = true →
    (call.sessionId, call.record) ∈ s.registry.syncRecords
  refcount : ∀ object, (s.registry.objects object).refcount = s.number Phase.counted object
  locked : ∀ object, s.holders object = if (s.registry.objects object).locked then 1 else 0

variable {s : State} {i : Nat} {call : Call} {phase : Phase} {registry : Registry}

theorem number_append (kind : Phase → Bool) (object : ObjectId) (sessionId : SessionId)
    (record : ObjectId) :
    State.number ⟨registry, s.calls ++ [⟨sessionId, record, phase⟩]⟩ kind object =
      s.number kind object + if kind phase && decide (record = object) then 1 else 0 := by
  unfold State.number
  rw [List.countP_append, List.countP_singleton]

/-- A call that comes to another phase is counted there. -/
theorem number_move (hCall : s.calls[i]? = some call) (phase : Phase) (registry : Registry)
    (kind : Phase → Bool) (object : ObjectId) :
    (s.move i call phase registry).number kind object +
        (if kind call.phase && decide (call.record = object) then 1 else 0) =
      s.number kind object + if kind phase && decide (call.record = object) then 1 else 0 :=
  Table.countP_set_add hCall (fun call => kind call.phase && decide (call.record = object))
    { call with phase := phase }

theorem number_move_of_eq (hCall : s.calls[i]? = some call) {kind : Phase → Bool}
    (hKind : kind phase = kind call.phase) {object : ObjectId} :
    (s.move i call phase registry).number kind object = s.number kind object := by
  have hNumber := number_move hCall phase registry kind object
  rw [hKind] at hNumber
  exact Nat.add_right_cancel hNumber

/-- A counted call is a waiter, the holder or a leaver. -/
theorem number_counted (s : State) (object : ObjectId) :
    s.number Phase.counted object = s.holders object + s.waiters object + s.leavers object := by
  unfold State.holders State.waiters State.leavers State.number
  induction s.calls with
  | nil => rfl
  | cons call calls ih =>
    simp only [List.countP_cons, ih]
    cases call.phase <;> simp [Phase.counted, Phase.isLeaving] <;> omega

theorem holders_le (s : State) (object : ObjectId) :
    s.holders object ≤ s.number Phase.counted object := by
  rw [number_counted]
  omega

theorem number_pos {kind : Phase → Bool} (hMem : call ∈ s.calls)
    (hKind : kind call.phase = true) : 0 < s.number kind call.record :=
  List.countP_pos_iff.mpr
    ⟨call, hMem, Bool.and_eq_true_iff.mpr ⟨hKind, decide_eq_true rfl⟩⟩

theorem mem_move {other : Call} (h : other ∈ (s.move i call phase registry).calls) :
    other ∈ s.calls ∨ other = { call with phase := phase } :=
  List.mem_or_eq_of_mem_set h

/-! ## What a step can do -/

inductive Effect (s : State) : State → Prop
  | none : Effect s s
  | acquireRecord (sessionId : SessionId) : Effect s (s.step (.acquireRecord sessionId))
  | takeLock {i : Nat} {call : Call} (hCall : s.calls[i]? = some call)
      (hPhase : call.phase = .waiting)
      (hFree : (s.registry.objects call.record).locked = false) :
      Effect s (s.move i call .inside (s.registry.setLocked call.record true))
  | interrupt {i : Nat} {call : Call} (hCall : s.calls[i]? = some call)
      (hPhase : call.phase = .waiting) : Effect s (s.move i call (.leaving .raised) s.registry)
  | endBody {i : Nat} {call : Call} {exit : Exit} (hCall : s.calls[i]? = some call)
      (hPhase : call.phase = .inside) :
      Effect s (s.move i call (.leaving exit) (s.registry.setLocked call.record false))
  | releaseRecord {i : Nat} {call : Call} {exit : Exit} (hCall : s.calls[i]? = some call)
      (hPhase : call.phase = .leaving exit) :
      Effect s (s.move i call (.left exit) (s.registry.releaseSyncRecord call.sessionId))
  | prune : Effect s ⟨s.registry.pruneSyncLocked.1, s.calls⟩

theorem effect_step (s : State) (action : Action) : Effect s (s.step action) := by
  cases action with
  | acquireRecord sessionId => exact .acquireRecord sessionId
  | takeLock i =>
    unfold State.step
    dsimp only
    split
    · split
      · rename_i call hCall hReady
        exact .takeLock hCall hReady.1 hReady.2
      · exact .none
    · exact .none
  | interrupt i =>
    unfold State.step
    dsimp only
    split
    · split
      · rename_i call hCall hWaiting
        exact .interrupt hCall hWaiting
      · exact .none
    · exact .none
  | endBody i exit =>
    unfold State.step
    dsimp only
    split
    · split
      · rename_i call hCall hInside
        exact .endBody hCall hInside
      · exact .none
    · exact .none
  | releaseRecord i =>
    unfold State.step
    dsimp only
    split
    · split
      · rename_i call hCall _ exit hLeaving
        exact .releaseRecord hCall hLeaving
      · exact .none
    · exact .none
  | prune => exact .prune

/-! ## What the steps keep -/

theorem inv_start (highWaterMark : Int) : Inv (.start highWaterMark) :=
  ⟨List.nodup_nil, fun _ h => (List.not_mem_nil h).elim, fun _ h => (List.not_mem_nil h).elim,
    fun _ => rfl, fun _ => rfl⟩

/-- A call moves between phases that are counted, and the dictionary stays as it is. -/
theorem Inv.move (h : Inv s) (hCall : s.calls[i]? = some call)
    (hFrom : call.phase.counted = true) (hTo : phase.counted = true)
    (hRecords : registry.syncRecords = s.registry.syncRecords)
    (hCreated : registry.created = s.registry.created)
    (hCount : ∀ object, (registry.objects object).refcount =
      (s.registry.objects object).refcount)
    (hLocked : ∀ object, (s.move i call phase registry).holders object =
      if (registry.objects object).locked then 1 else 0) :
    Inv (s.move i call phase registry) := by
  refine ⟨?_, ?_, ?_, ?_, hLocked⟩
  · show (registry.syncRecords.map Prod.fst).Nodup
    rw [hRecords]
    exact h.keys
  · show ∀ record ∈ registry.syncRecords, record.2 < registry.created
    rw [hRecords, hCreated]
    exact h.created
  · intro other hMem hCounted
    show (other.sessionId, other.record) ∈ registry.syncRecords
    rw [hRecords]
    rcases mem_move hMem with hOld | rfl
    · exact h.kept other hOld hCounted
    · exact h.kept call (List.mem_of_getElem? hCall) hFrom
  · intro object
    show (registry.objects object).refcount = _
    rw [hCount, h.refcount, number_move_of_eq hCall (hTo.trans hFrom.symm)]

/-- A call that is counted needs its record. -/
theorem Inv.number_eq_zero (h : Inv s) {object : ObjectId}
    (hAbsent : ∀ record ∈ s.registry.syncRecords, record.2 ≠ object) :
    s.number Phase.counted object = 0 := by
  refine List.countP_eq_zero.mpr fun call hMem hCall => ?_
  rw [Bool.and_eq_true, decide_eq_true_eq] at hCall
  exact hAbsent _ (h.kept call hMem hCall.1) hCall.2

/-- The session has a record, and one more call for it. -/
theorem Inv.acquireOld (h : Inv s) {record : SessionId × ObjectId}
    (hMem : record ∈ s.registry.syncRecords) :
    Inv ⟨s.registry.count record.2 1, s.calls ++ [⟨record.1, record.2, .waiting⟩]⟩ := by
  refine ⟨h.keys, h.created, ?_, ?_, ?_⟩
  · intro call hCall hCounted
    rcases List.mem_append.mp hCall with hOld | hNew
    · exact h.kept call hOld hCounted
    · rw [List.mem_singleton.mp hNew]
      exact hMem
  · intro object
    show ((s.registry.count record.2 1).objects object).refcount = _
    rw [(Registry.objects_count _ _ _).2, number_append, h.refcount]
    by_cases hSame : object = record.2
    · simp [hSame, Phase.counted]
    · simp [hSame, Ne.symm hSame]
  · intro object
    show _ = if ((s.registry.count record.2 1).objects object).locked then 1 else 0
    rw [(Registry.objects_count _ _ _).1, ← h.locked object]
    exact (number_append _ _ _ _).trans (by simp [State.holders])

/-- The session gets a record, which no call had before. -/
theorem Inv.acquireNew (h : Inv s) {sessionId : SessionId}
    (hNew : sessionId ∉ s.registry.syncRecords.map Prod.fst) :
    Inv ⟨(s.registry.create sessionId).count s.registry.created 1,
      s.calls ++ [⟨sessionId, s.registry.created, .waiting⟩]⟩ := by
  have hRecords : (s.registry.create sessionId).syncRecords =
      s.registry.syncRecords ++ [(sessionId, s.registry.created)] := Dict.set_of_new hNew
  have hObjects : ∀ object, (s.registry.create sessionId).objects object =
      if object = s.registry.created then {} else s.registry.objects object := fun _ => rfl
  have hFresh : s.number Phase.counted s.registry.created = 0 :=
    h.number_eq_zero fun record hMem => Nat.ne_of_lt (h.created record hMem)
  refine ⟨Dict.nodup_keys_set h.keys _, ?_, ?_, ?_, ?_⟩
  · show ∀ record ∈ (s.registry.create sessionId).syncRecords, _ < s.registry.created + 1
    rw [hRecords]
    intro record hMem
    rcases List.mem_append.mp hMem with hOld | hLast
    · exact Nat.lt_succ_of_lt (h.created record hOld)
    · rw [List.mem_singleton.mp hLast]
      exact Nat.lt_succ_self _
  · show ∀ call ∈ s.calls ++ _, _ → _ ∈ (s.registry.create sessionId).syncRecords
    rw [hRecords]
    intro call hCall hCounted
    rcases List.mem_append.mp hCall with hOld | hLast
    · exact List.mem_append_left _ (h.kept call hOld hCounted)
    · rw [List.mem_singleton.mp hLast]
      exact List.mem_append_right _ (List.mem_singleton_self _)
  · intro object
    show (((s.registry.create sessionId).count s.registry.created 1).objects object).refcount = _
    rw [(Registry.objects_count _ _ _).2, number_append, hObjects]
    by_cases hSame : object = s.registry.created
    · simp [hSame, hFresh, Phase.counted]
    · simp [hSame, Ne.symm hSame, h.refcount]
  · intro object
    show _ = if (((s.registry.create sessionId).count s.registry.created 1).objects
      object).locked then 1 else 0
    rw [(Registry.objects_count _ _ _).1, hObjects]
    refine (number_append _ _ _ _).trans ?_
    have hHolders := h.locked object
    unfold State.holders at hHolders
    by_cases hSame : object = s.registry.created
    · have hZero := holders_le s object
      unfold State.holders at hZero
      rw [hSame, hFresh] at hZero
      simp [hSame]
      omega
    · simp [hSame, hHolders]

/-- A record is there for a new call of its session. -/
theorem Inv.acquireRecord (h : Inv s) (sessionId : SessionId) :
    Inv (s.step (.acquireRecord sessionId)) := by
  unfold State.step Registry.acquireSyncRecord
  dsimp only
  split
  · rename_i record hGet
    have hKey : record.1 = sessionId := Dict.key_of_get hGet
    exact hKey ▸ h.acquireOld (Dict.mem_of_get hGet)
  · rename_i hGet
    exact h.acquireNew (Dict.get_eq_none.mp hGet)

theorem Inv.takeLock (h : Inv s) (hCall : s.calls[i]? = some call)
    (hPhase : call.phase = .waiting) (hFree : (s.registry.objects call.record).locked = false) :
    Inv (s.move i call .inside (s.registry.setLocked call.record true)) := by
  refine h.move hCall (by rw [hPhase]; rfl) rfl rfl rfl
    (fun object => (Registry.objects_setLocked _ _ _).1) fun object => ?_
  rw [(Registry.objects_setLocked _ _ _).2]
  have hNumber := number_move hCall .inside (s.registry.setLocked call.record true)
    (fun phase => phase = .inside) object
  have hHolders := h.locked object
  unfold State.holders at hHolders ⊢
  rw [hPhase] at hNumber
  by_cases hSame : object = call.record
  · subst hSame
    rw [hFree] at hHolders
    simp at hNumber hHolders ⊢
    omega
  · rw [if_neg hSame]
    simp [Ne.symm hSame] at hNumber
    omega

/-- The wait for the lock is over without it. -/
theorem Inv.interrupt (h : Inv s) (hCall : s.calls[i]? = some call)
    (hPhase : call.phase = .waiting) (exit : Exit) :
    Inv (s.move i call (.leaving exit) s.registry) := by
  refine h.move hCall (by rw [hPhase]; rfl) rfl rfl rfl (fun _ => rfl) fun object => ?_
  rw [← h.locked object]
  exact number_move_of_eq hCall (by rw [hPhase]; rfl)

/-- The holder gives the lock back. -/
theorem Inv.endBody (h : Inv s) (hCall : s.calls[i]? = some call)
    (hPhase : call.phase = .inside) (exit : Exit) :
    Inv (s.move i call (.leaving exit) (s.registry.setLocked call.record false)) := by
  refine h.move hCall (by rw [hPhase]; rfl) rfl rfl rfl
    (fun object => (Registry.objects_setLocked _ _ _).1) fun object => ?_
  rw [(Registry.objects_setLocked _ _ _).2]
  have hNumber := number_move hCall (.leaving exit) (s.registry.setLocked call.record false)
    (fun phase => phase = .inside) object
  have hHolders := h.locked object
  unfold State.holders at hHolders ⊢
  rw [hPhase] at hNumber
  by_cases hSame : object = call.record
  · subst hSame
    simp at hNumber hHolders ⊢
    split at hHolders <;> omega
  · rw [if_neg hSame]
    simp [Ne.symm hSame] at hNumber
    omega

/-- A leaving call is counted down, and needs its record no longer. -/
theorem Inv.countDown (h : Inv s) (hCall : s.calls[i]? = some call) {exit : Exit}
    (hPhase : call.phase = .leaving exit) :
    Inv (s.move i call (.left exit) (s.registry.countDown call.sessionId)) := by
  have hKept := h.kept call (List.mem_of_getElem? hCall) (by rw [hPhase]; rfl)
  have hGet : s.registry.get call.sessionId = some (call.sessionId, call.record) :=
    Dict.get_of_mem h.keys hKept
  unfold Registry.countDown
  rw [hGet]
  dsimp only
  refine ⟨h.keys, h.created, ?_, ?_, ?_⟩
  · intro other hMem hCounted
    rcases mem_move hMem with hOld | rfl
    · exact h.kept other hOld hCounted
    · cases hCounted
  · intro object
    show ((s.registry.count call.record (-1)).objects object).refcount = _
    rw [(Registry.objects_count _ _ _).2, h.refcount]
    have hNumber := number_move hCall (.left exit) (s.registry.count call.record (-1))
      Phase.counted object
    rw [hPhase] at hNumber
    by_cases hSame : object = call.record
    · simp [Phase.counted, hSame] at hNumber ⊢
      omega
    · simp [Phase.counted, hSame, Ne.symm hSame] at hNumber ⊢
      omega
  · intro object
    show _ = if ((s.registry.count call.record (-1)).objects object).locked then 1 else 0
    rw [(Registry.objects_count _ _ _).1, ← h.locked object]
    exact number_move_of_eq hCall (by rw [hPhase]; rfl)

/-- Pruning takes away no record that a call needs. -/
theorem Inv.prune (h : Inv s) : Inv ⟨s.registry.pruneSyncLocked.1, s.calls⟩ := by
  rw [Registry.pruneSyncLocked_spec h.keys]
  refine ⟨h.keys.sublist (List.filter_sublist.map _),
    fun record hMem => h.created record (List.mem_filter.mp hMem).1, ?_, h.refcount, h.locked⟩
  intro call hMem hCounted
  have hKept := h.kept call hMem hCounted
  refine List.mem_filter.mpr ⟨hKept, decide_eq_true ?_⟩
  rw [h.refcount]
  have hPos : 0 < s.number Phase.counted call.record := number_pos hMem hCounted
  show (s.number Phase.counted call.record : Int) ≠ 0
  omega

theorem Inv.releaseRecord (h : Inv s) (hCall : s.calls[i]? = some call) {exit : Exit}
    (hPhase : call.phase = .leaving exit) :
    Inv (s.move i call (.left exit) (s.registry.releaseSyncRecord call.sessionId)) := by
  unfold Registry.releaseSyncRecord
  dsimp only
  split
  · exact (h.countDown hCall hPhase).prune
  · exact h.countDown hCall hPhase

theorem Inv.effect (h : Inv s) {s' : State} (hEffect : Effect s s') : Inv s' := by
  cases hEffect with
  | none => exact h
  | acquireRecord sessionId => exact h.acquireRecord sessionId
  | takeLock hCall hPhase hFree => exact h.takeLock hCall hPhase hFree
  | interrupt hCall hPhase => exact h.interrupt hCall hPhase .raised
  | endBody hCall hPhase => exact h.endBody hCall hPhase _
  | releaseRecord hCall hPhase => exact h.releaseRecord hCall hPhase
  | prune => exact h.prune

theorem inv_run (highWaterMark : Int) (actions : List Action) :
    Inv (Run.final State.step (.start highWaterMark) actions) :=
  Run.final_invariant (fun s action _ h => h.effect (effect_step s action))
    (inv_start highWaterMark)

/-! ## What follows for the calls -/

/-- The calls in the critical section of a session hold the lock of one record. -/
theorem Inv.insiders_le (h : Inv s) (sessionId : SessionId) : s.insiders sessionId ≤ 1 := by
  by_cases hNone : s.insiders sessionId = 0
  · omega
  · obtain ⟨call, hMem, hCall⟩ := List.countP_pos_iff.mp (Nat.pos_of_ne_zero hNone)
    simp only [Bool.and_eq_true, decide_eq_true_eq] at hCall
    have hHolders : s.insiders sessionId ≤ s.holders call.record := by
      refine List.countP_mono_left fun other hOther hInside => ?_
      simp only [Bool.and_eq_true, decide_eq_true_eq] at hInside ⊢
      have hKept := h.kept other hOther (by rw [hInside.1]; rfl)
      have hPair := List.inj_on_of_nodup_map h.keys hKept
        (h.kept call hMem (by rw [hCall.1]; rfl)) (hInside.2.trans hCall.2.symm)
      exact ⟨hInside.1, congrArg Prod.snd hPair⟩
    have hOne := h.locked call.record
    split at hOne <;> omega

/-- Pruning removes a record that no call needs. -/
theorem Inv.idle_of_pruned (h : Inv s) {record : SessionId × ObjectId}
    (hMem : record ∈ s.registry.syncRecords)
    (hGone : record ∉ s.registry.pruneSyncLocked.1.syncRecords) :
    s.holders record.2 = 0 ∧ s.waiters record.2 = 0 := by
  rw [Registry.pruneSyncLocked_spec h.keys] at hGone
  have hIdle : (s.registry.objects record.2).refcount = 0 := by
    by_contra hNeeded
    exact hGone (List.mem_filter.mpr ⟨hMem, decide_eq_true hNeeded⟩)
  rw [h.refcount, number_counted] at hIdle
  omega

theorem mem_acquireSyncRecord {record : SessionId × ObjectId} (sessionId : SessionId)
    (hMem : record ∈ registry.syncRecords) :
    record ∈ (registry.acquireSyncRecord sessionId).1.syncRecords := by
  unfold Registry.acquireSyncRecord
  split
  · exact hMem
  · rename_i hGet
    have hRecords : (registry.create sessionId).syncRecords =
        registry.syncRecords ++ [(sessionId, registry.created)] :=
      Dict.set_of_new (Dict.get_eq_none.mp hGet)
    show record ∈ (registry.create sessionId).syncRecords
    rw [hRecords]
    exact List.mem_append_left _ hMem

theorem syncRecords_countDown (registry : Registry) (sessionId : SessionId) :
    (registry.countDown sessionId).syncRecords = registry.syncRecords := by
  unfold Registry.countDown
  split <;> rfl

/-- A step removes a record only if it has neither a holder nor a waiter. -/
theorem Inv.idle_of_removed (h : Inv s) {s' : State} (hEffect : Effect s s')
    {record : SessionId × ObjectId} (hMem : record ∈ s.registry.syncRecords)
    (hGone : record ∉ s'.registry.syncRecords) :
    s.holders record.2 = 0 ∧ s.waiters record.2 = 0 := by
  cases hEffect with
  | none => exact absurd hMem hGone
  | acquireRecord sessionId => exact absurd (mem_acquireSyncRecord sessionId hMem) hGone
  | takeLock hCall hPhase hFree => exact absurd hMem hGone
  | interrupt hCall hPhase => exact absurd hMem hGone
  | endBody hCall hPhase => exact absurd hMem hGone
  | releaseRecord hCall hPhase =>
    rename_i i call exit
    have hCountedDown : record ∈ (s.registry.countDown call.sessionId).syncRecords := by
      rw [syncRecords_countDown]
      exact hMem
    have hPruned : record ∉
        (s.registry.countDown call.sessionId).pruneSyncLocked.1.syncRecords := by
      refine fun hKept => hGone ?_
      show record ∈ (s.registry.releaseSyncRecord call.sessionId).syncRecords
      unfold Registry.releaseSyncRecord
      dsimp only
      split
      · exact hKept
      · exact hCountedDown
    -- The call that is counted down neither held the lock nor waited for it.
    have hIdle := (h.countDown hCall hPhase).idle_of_pruned hCountedDown hPruned
    constructor
    · rw [← hIdle.1]
      exact (number_move_of_eq hCall (by rw [hPhase]; rfl)).symm
    · rw [← hIdle.2]
      exact (number_move_of_eq hCall (by rw [hPhase]; rfl)).symm
  | prune => exact h.idle_of_pruned hMem hGone

/-! ## Runs -/

theorem sessionLocks_run (highWaterMark : Int) (actions : List Action) :
    let s := Run.final State.step (.start highWaterMark) actions
    (∀ sessionId, s.insiders sessionId ≤ 1) ∧
      (∀ record, (s.registry.objects record).refcount =
        s.holders record + s.waiters record + s.leavers record) ∧
      (∀ action, ∀ record ∈ s.registry.syncRecords,
        record ∉ (s.step action).registry.syncRecords →
          s.holders record.2 = 0 ∧ s.waiters record.2 = 0) ∧
      ((∀ call ∈ s.calls, ∃ exit, call.phase = .left exit) →
        ∀ record, (s.registry.objects record).refcount = 0) := by
  intro s
  have h : Inv s := inv_run highWaterMark actions
  refine ⟨h.insiders_le, fun record => ?_,
    fun action _ hMem hGone => h.idle_of_removed (effect_step s action) hMem hGone,
    fun hLeft record => ?_⟩
  · rw [h.refcount, number_counted]
    rfl
  · rw [h.refcount]
    have hNone : s.number Phase.counted record = 0 := by
      refine List.countP_eq_zero.mpr fun call hMem hCall => ?_
      obtain ⟨exit, hExit⟩ := hLeft call hMem
      rw [hExit] at hCall
      cases hCall
    exact congrArg Nat.cast hNone

/-- The body has ended and its lock is free, and the call is still counted. -/
theorem refcount_leaving :
    let s := Run.final State.step (.start 50)
      [.acquireRecord "s", .takeLock 0, .endBody 0 .returned]
    ("s", 0) ∈ s.registry.syncRecords ∧ (s.registry.objects 0).refcount = 1 ∧
      s.holders 0 + s.waiters 0 = 0 := by
  decide

end LosslessHermes.SessionLocks
