import Mathlib.Data.Fintype.EquivFin
import LosslessHermes.Synthesis.Staleness

/-!
# The single flight of a synthesis

The row that a call inserts is the latch of its key. `LatchAction` adds to the steps of the
calls that a process stops.

At most one call builds a key (`building_unique`). But nothing ever takes a latch back: a
build that fails leaves its row as `failed`, one that stops, or whose last update is refused,
leaves it as `building`, and each later call of the key is sent away.
-/

namespace LosslessHermes

/-! ## The answer of a call without the latch -/

/-- The row of a key; the unique index leaves at most one. -/
def SynthesisTables.lookupCacheRow (db : SynthesisTables) (key : CacheKey) : Option CacheRow :=
  db.cache.find? fun row => row.key.indexed = key.indexed

/-- Ten minutes after the start of the build, in milliseconds. -/
def CacheRow.retryAfterMs (row : CacheRow) (now : Timestamp) : Option Nat :=
  row.buildingStartedAt.map fun startedAt => startedAt + 10 * 60 * 1000 - now

inductive LatchAnswer
  /-- The latch is taken, and the call goes on to dispatch the synthesis. -/
  | builds (cacheId : String)
  | cached (cacheId text : String) (outputTokenCount : Nat)
  | buildingElsewhere (cacheId : String) (buildingStartedAt : Option Timestamp)
      (retryAfterMs : Option Nat)
  | recentFailure (cacheId : String) (buildingStartedAt : Option Timestamp)
      (failureReason : String) (retryAfterMs : Option Nat)
  deriving DecidableEq, Repr

def emitLoserPathResponse (existing : Option CacheRow) (now : Timestamp) : LatchAnswer :=
  match existing with
  | none => .buildingElsewhere "(unknown)" none none
  | some row =>
      match row.status, row.content with
      | .ready, some text => .cached row.cacheId text row.outputTokenCount
      | .failed, _ =>
          .recentFailure row.cacheId row.buildingStartedAt (row.failureReason.getD "")
            (row.retryAfterMs now)
      | _, _ => .buildingElsewhere row.cacheId row.buildingStartedAt (row.retryAfterMs now)

/-- A call of the key at a time, up to the dispatch or to its answer. -/
def SynthesisTables.latchAnswer (db : SynthesisTables) (now : Timestamp) (cacheId : String)
    (key : CacheKey) (leafIds : List SummaryId) : LatchAnswer :=
  if (db.insertCacheRowSingleFlight now cacheId key leafIds).2 then .builds cacheId
  else emitLoserPathResponse (db.lookupCacheRow key) now

/-- The two answers that let the caller go. -/
def LatchAnswer.IsServed : LatchAnswer → Prop
  | .builds _ => True
  | .cached _ _ _ => True
  | .buildingElsewhere _ _ _ => False
  | .recentFailure _ _ _ _ => False

/-! ## The steps -/

inductive LatchAction
  | choose (call : Nat) (cacheId : String) (promptId : Option String)
      (request : SynthesizeRequest)
  | insertRow (call : Nat) (now : Timestamp) (refused : Bool)
  | finish (call : Nat) (outcome : DispatchOutcome) (refused : Bool)
  | recordRef (call : Nat) (refused : Bool)
  /-- The process of the call stops. -/
  | stop (call : Nat)

namespace SynthesisState

/-- No call, and an empty cache. -/
def idle (db : OperatorDb) : SynthesisState where
  db := { db with synthesis := .empty }
  calls := fun _ => none

def stop (state : SynthesisState) (call : Nat) : SynthesisState :=
  match state.calls call with
  | some value => state.setCall call { value with phase := .ended }
  | none => state

def latchStep (texts : CacheTexts) (state : SynthesisState) : LatchAction → SynthesisState
  | .choose call cacheId promptId request =>
      state.step texts (.choose call cacheId promptId request)
  | .insertRow call now refused => state.step texts (.insertRow call now refused)
  | .finish call outcome refused => state.step texts (.finish call outcome refused)
  | .recordRef call refused => state.step texts (.recordRef call refused)
  | .stop call => state.stop call

/-- The call holds the latch of its key and waits for the model. -/
def Building (state : SynthesisState) (call : Nat) (value : SynthesisCall) : Prop :=
  state.calls call = some value ∧ value.phase = .building

/-- If no call builds the key and the wait that its row advertises is over, the next call
builds it, unless it has been built. -/
def Retriable (state : SynthesisState) (now : Timestamp) (key : CacheKey) : Prop :=
  (∀ call value, state.Building call value → value.key.indexed ≠ key.indexed) →
  (∀ row ms, state.db.synthesis.lookupCacheRow key = some row → row.status ≠ .ready →
    row.retryAfterMs now = some ms → ms = 0) →
  ∀ cacheId leafIds, (∀ row ∈ state.db.synthesis.cache, row.cacheId ≠ cacheId) →
    (state.db.synthesis.latchAnswer now cacheId key leafIds).IsServed

/-- A build that ends does so with an output, and its row is set ready; no process stops
while it builds. -/
def Completes (state : SynthesisState) : LatchAction → Prop
  | .finish call outcome refused =>
      ∀ value, state.Building call value → refused = false ∧
        ∃ text promptId, outcome = .output text promptId ∧
          state.db.synthesis.takesKey value.cacheId promptId = false
  | .stop call => ∀ value, ¬ state.Building call value
  | _ => True

/-! ## What a step does to the latches -/

/-- Neither the cache nor the set of builds changes. -/
structure LatchesKept (state state' : SynthesisState) : Prop where
  cache : state'.db.synthesis.cache = state.db.synthesis.cache
  building : ∀ call value, state'.Building call value ↔ state.Building call value

/-- A call inserts its row. -/
structure LatchTaken (state state' : SynthesisState) (call : Nat) (value : SynthesisCall)
    (row : CacheRow) : Prop where
  waiting : ∀ v, ¬ state.Building call v
  free : ∀ other ∈ state.db.synthesis.cache,
    other.cacheId ≠ row.cacheId ∧ other.key.indexed ≠ row.key.indexed
  cache : state'.db.synthesis.cache = state.db.synthesis.cache ++ [row]
  cacheId : row.cacheId = value.cacheId
  key : row.key = value.key
  status : row.status = .building
  building : ∀ i v, state'.Building i v ↔ i = call ∧ v = value ∨ i ≠ call ∧ state.Building i v

/-- A build ends, with the given cache. -/
structure BuildEnded (state state' : SynthesisState) (call : Nat) (value : SynthesisCall)
    (tables : SynthesisTables) : Prop where
  was : state.Building call value
  cache : state'.db.synthesis = tables
  building : ∀ i v, state'.Building i v ↔ i ≠ call ∧ state.Building i v

theorem building_setCall (state : SynthesisState) (call : Nat) (value : SynthesisCall)
    (i : Nat) (v : SynthesisCall) :
    (state.setCall call value).Building i v ↔
      i = call ∧ v = value ∧ value.phase = .building ∨ i ≠ call ∧ state.Building i v := by
  unfold Building setCall
  dsimp only
  by_cases hEq : i = call
  · subst hEq
    rw [if_pos rfl, Option.some.injEq]
    constructor
    · rintro ⟨rfl, hPhase⟩
      exact Or.inl ⟨rfl, rfl, hPhase⟩
    · rintro (⟨-, rfl, hPhase⟩ | ⟨hNe, -⟩)
      · exact ⟨rfl, hPhase⟩
      · exact absurd rfl hNe
  · rw [if_neg hEq]
    constructor
    · exact fun h => Or.inr ⟨hEq, h⟩
    · rintro (⟨hSame, -⟩ | ⟨-, h⟩)
      · exact absurd hSame hEq
      · exact h

theorem building_setSynthesis (state : SynthesisState) (tables : SynthesisTables) (i : Nat)
    (v : SynthesisCall) : (state.setSynthesis tables).Building i v ↔ state.Building i v :=
  Iff.rfl

theorem latchesKept_refl (state : SynthesisState) : LatchesKept state state :=
  ⟨rfl, fun _ _ => Iff.rfl⟩

/-- A call that does not build goes on to something other than a build. -/
theorem latchesKept_setCall {state : SynthesisState} {call : Nat} {value : SynthesisCall}
    (hBefore : ∀ v, ¬ state.Building call v) (hAfter : value.phase ≠ .building) :
    LatchesKept state (state.setCall call value) := by
  refine ⟨rfl, fun i v => ?_⟩
  rw [building_setCall]
  constructor
  · rintro (⟨-, -, hPhase⟩ | ⟨-, h⟩)
    · exact absurd hPhase hAfter
    · exact h
  · intro h
    refine Or.inr ⟨?_, h⟩
    rintro rfl
    exact hBefore v h

variable {state : SynthesisState} {call : Nat} {value : SynthesisCall}

theorem not_building_of_phase
    (hCall : state.calls call = some value) (hPhase : value.phase ≠ .building)
    (v : SynthesisCall) : ¬ state.Building call v := by
  rintro ⟨hSome, hBuilding⟩
  rw [hCall] at hSome
  cases hSome
  exact hPhase hBuilding

theorem not_building_of_none
    (hCall : state.calls call = none) (v : SynthesisCall) : ¬ state.Building call v := by
  rintro ⟨hSome, -⟩
  rw [hCall] at hSome
  cases hSome

/-- How a build ends: its row is set ready, or it is left as it is or as failed. -/
inductive BuildEnd (db : SynthesisTables) (cacheId : String) : SynthesisTables → Bool → Prop
  | ready (text : String) (tokens : Nat) (promptId : String)
      (free : db.takesKey cacheId promptId = false) :
      BuildEnd db cacheId (db.setReady cacheId text tokens promptId) true
  | left : BuildEnd db cacheId db false
  | failed (reason : String) : BuildEnd db cacheId (db.markCacheFailed cacheId reason) false

/-- An update of the rows with one id. -/
structure RowUpdate (db tables : SynthesisTables) (cacheId : String)
    (update : CacheRow → CacheRow) : Prop where
  cache : tables.cache = db.cache.map update
  id : ∀ row, (update row).cacheId = row.cacheId
  other : ∀ row, row.cacheId ≠ cacheId → update row = row

variable {db : SynthesisTables} {cacheId : String}

theorem BuildEnd.rowUpdate {tables : SynthesisTables} {completes : Bool}
    (h : BuildEnd db cacheId tables completes) :
    ∃ update, RowUpdate db tables cacheId update ∧
      (completes = true → ∀ row, row.cacheId = cacheId →
        (update row).status = .ready ∧ (update row).content.isSome = true) ∧
      (completes = false → ∀ row, row.status = .building → (update row).status ≠ .ready) := by
  cases h with
  | ready text tokens promptId free =>
    refine ⟨_, ⟨congrArg SynthesisTables.cache (if_neg (Bool.eq_false_iff.mp free)), ?_, ?_⟩,
      ?_, nofun⟩
    · intro row
      dsimp only
      split <;> rfl
    · intro row hNe
      exact if_neg hNe
    · intro _ row hEq
      dsimp only
      rw [if_pos hEq]
      exact ⟨rfl, rfl⟩
  | left =>
    refine ⟨id, ⟨(List.map_id _).symm, fun _ => rfl, fun _ _ => rfl⟩, nofun, ?_⟩
    intro _ row hBuilding
    rw [id, hBuilding]
    exact nofun
  | failed reason =>
    refine ⟨_, ⟨rfl, ?_, ?_⟩, nofun, ?_⟩
    · intro row
      split <;> rfl
    · intro row hNe
      exact if_neg hNe
    · intro _ row hBuilding
      split
      · exact nofun
      · rw [hBuilding]
        exact nofun

/-- The update to `ready` is refused where it would take the key of another row. -/
theorem BuildEnd.keys {tables : SynthesisTables} {completes : Bool}
    (h : BuildEnd db cacheId tables completes) (hIds : (db.cache.map (·.cacheId)).Nodup)
    (hKeys : (db.cache.map (·.key.indexed)).Nodup) :
    (tables.cache.map (·.key.indexed)).Nodup := by
  cases h with
  | ready text tokens promptId free =>
    have hCache := congrArg SynthesisTables.cache
      (show db.setReady cacheId text tokens promptId = _ from
        if_neg (Bool.eq_false_iff.mp free))
    rw [hCache, List.map_map, List.nodup_map_iff_inj_on (List.Nodup.of_map _ hIds)]
    have hFree : ∀ row ∈ db.cache, row.cacheId = cacheId → ∀ other ∈ db.cache,
        other.cacheId ≠ cacheId →
          other.key.indexed ≠ { row.key with promptId := promptId }.indexed := by
      intro row hRow hId other hOther hNe hClash
      rw [SynthesisTables.takesKey, List.any_eq_false] at free
      apply free row hRow
      rw [decide_eq_true_eq]
      exact ⟨hId, List.any_eq_true.mpr ⟨other, hOther, decide_eq_true ⟨hNe, hClash⟩⟩⟩
    intro row hRow other hOther hEq
    simp only [Function.comp_apply] at hEq
    by_cases hId : row.cacheId = cacheId
    · by_cases hOtherId : other.cacheId = cacheId
      · exact List.inj_on_of_nodup_map hIds hRow hOther (hId.trans hOtherId.symm)
      · rw [if_pos hId, if_neg hOtherId] at hEq
        exact absurd hEq.symm (hFree row hRow hId other hOther hOtherId)
    · by_cases hOtherId : other.cacheId = cacheId
      · rw [if_neg hId, if_pos hOtherId] at hEq
        exact absurd hEq (hFree other hOther hOtherId row hRow hId)
      · rw [if_neg hId, if_neg hOtherId] at hEq
        exact List.inj_on_of_nodup_map hKeys hRow hOther hEq
  | left => exact hKeys
  | failed reason =>
    rw [SynthesisTables.markCacheFailed, List.map_map]
    convert hKeys using 2
    funext row
    rw [Function.comp_apply]
    split <;> rfl

theorem buildEnded_setCall {next : SynthesisCall}
    (hWas : state.Building call value) (hNext : next.phase ≠ .building) (tables : SynthesisTables) :
    BuildEnded state ((state.setSynthesis tables).setCall call next) call value tables := by
  refine ⟨hWas, rfl, fun i v => ?_⟩
  rw [building_setCall, building_setSynthesis]
  constructor
  · rintro (⟨-, -, hPhase⟩ | h)
    · exact absurd hPhase hNext
    · exact h
  · exact Or.inr

theorem buildEnded_finish
    (hWas : state.Building call value) (outcome : DispatchOutcome) (refused : Bool) :
    ∃ tables completes,
      BuildEnded state (state.finish call outcome refused value) call value tables ∧
      BuildEnd state.db.synthesis value.cacheId tables completes ∧
      ((refused = false ∧ ∃ text promptId, outcome = .output text promptId ∧
        state.db.synthesis.takesKey value.cacheId promptId = false) ↔ completes = true) := by
  unfold finish
  cases refused with
  | true =>
    refine ⟨state.db.synthesis, false, ?_, .left, ?_⟩
    · cases outcome with
      | failed reason => exact buildEnded_setCall hWas CallPhase.noConfusion _
      | output text promptId => exact buildEnded_setCall hWas CallPhase.noConfusion _
    · exact iff_of_false (fun h => absurd h.1.symm Bool.false_ne_true) Bool.false_ne_true
  | false =>
    cases outcome with
    | failed reason =>
      refine ⟨_, false, buildEnded_setCall hWas CallPhase.noConfusion _, .failed reason, ?_⟩
      refine iff_of_false ?_ Bool.false_ne_true
      rintro ⟨-, _, _, hEq, -⟩
      cases hEq
    | output text promptId =>
      cases hTakes : state.db.synthesis.takesKey value.cacheId promptId with
      | true =>
        have hKept : state.db.synthesis.setReady value.cacheId text (estimateTokens text)
            promptId = state.db.synthesis := if_pos hTakes
        refine ⟨state.db.synthesis, false, ?_, .left, ?_⟩
        · dsimp only
          rw [if_neg Bool.false_ne_true, hKept]
          exact buildEnded_setCall hWas CallPhase.noConfusion _
        · refine iff_of_false ?_ Bool.false_ne_true
          rintro ⟨-, _, _, hEq, hFree⟩
          cases hEq
          rw [hTakes] at hFree
          cases hFree
      | false =>
        refine ⟨_, true, buildEnded_setCall hWas CallPhase.noConfusion _, .ready text _ promptId hTakes, ?_⟩
        exact iff_of_true ⟨rfl, text, promptId, rfl, hTakes⟩ rfl

/-- Every step keeps the latches, takes one, or ends a build; it completes the build exactly
if it leaves a ready row. -/
theorem latchStep_cases (texts : CacheTexts) (state : SynthesisState) (action : LatchAction) :
    LatchesKept state (state.latchStep texts action) ∧ state.Completes action ∨
    (∃ call value row, LatchTaken state (state.latchStep texts action) call value row ∧
      state.Completes action) ∨
    ∃ call value tables completes,
      BuildEnded state (state.latchStep texts action) call value tables ∧
      BuildEnd state.db.synthesis value.cacheId tables completes ∧
      (state.Completes action ↔ completes = true) := by
  cases action with
  | choose call cacheId promptId request =>
    refine Or.inl ⟨?_, trivial⟩
    unfold latchStep step
    dsimp only
    split
    · rename_i value hCall hStart
      refine latchesKept_setCall (not_building_of_none hCall) ?_
      unfold startCall at hStart
      split at hStart
      · cases hStart
      · cases hStart
      · cases hStart
        intro hPhase
        cases hPhase
    · exact latchesKept_refl state
  | insertRow call now refused =>
    unfold latchStep step
    dsimp only
    cases hCall : state.calls call with
    | none => exact Or.inl ⟨latchesKept_refl state, trivial⟩
    | some value =>
      dsimp only
      by_cases hPhase : value.phase = .chosen
      · have hIdle : ∀ v, ¬ state.Building call v :=
          not_building_of_phase hCall (by rw [hPhase]; exact nofun)
        rw [if_pos hPhase]
        unfold insertRow SynthesisTables.insertCacheRowSingleFlight
        cases refused with
        | true => exact Or.inl ⟨latchesKept_setCall hIdle nofun, trivial⟩
        | false =>
          dsimp only
          rw [if_neg Bool.false_ne_true]
          split
          · exact Or.inl ⟨latchesKept_setCall hIdle nofun, trivial⟩
          · rename_i hFree
            refine Or.inr (Or.inl ⟨call, { value with phase := .building },
              ⟨value.cacheId, value.key, none, value.leafIds, 0, .building, some now, none⟩,
              ⟨hIdle, ?_, rfl, rfl, rfl, rfl, ?_⟩, trivial⟩)
            · intro other hOther
              have hNot : ¬ (other.cacheId = value.cacheId ∨
                  other.key.indexed = value.key.indexed) := by
                intro hClash
                exact hFree (List.any_eq_true.mpr ⟨other, hOther, decide_eq_true hClash⟩)
              exact not_or.mp hNot
            · intro i v
              rw [building_setCall, building_setSynthesis]
              simp only [if_true, and_true]
      · rw [if_neg hPhase]
        exact Or.inl ⟨latchesKept_refl state, trivial⟩
  | finish call outcome refused =>
    unfold latchStep step
    dsimp only
    cases hCall : state.calls call with
    | none =>
      refine Or.inl ⟨latchesKept_refl state, fun value hValue => ?_⟩
      exact absurd hValue (not_building_of_none hCall value)
    | some value =>
      dsimp only
      by_cases hPhase : value.phase = .building
      · rw [if_pos hPhase]
        have hWas : state.Building call value := ⟨hCall, hPhase⟩
        obtain ⟨tables, completes, hEnded, hEnd, hIff⟩ :=
          buildEnded_finish hWas outcome refused
        refine Or.inr (Or.inr ⟨call, value, tables, completes, hEnded, hEnd, ?_⟩)
        rw [← hIff]
        constructor
        · exact fun h => h value hWas
        · rintro h v ⟨hSome, -⟩
          rw [hCall] at hSome
          cases hSome
          exact h
      · rw [if_neg hPhase]
        refine Or.inl ⟨latchesKept_refl state, fun v hValue => ?_⟩
        exact absurd hValue (not_building_of_phase hCall hPhase v)
  | recordRef call refused =>
    refine Or.inl ⟨?_, trivial⟩
    unfold latchStep step
    dsimp only
    split
    · rename_i value hCall
      split
      · rename_i rest hPhase
        have hIdle : ∀ v, ¬ state.Building call v :=
          not_building_of_phase hCall (by rw [hPhase]; exact nofun)
        unfold recordRef
        cases rest with
        | nil => exact latchesKept_setCall hIdle nofun
        | cons leafId rest =>
          dsimp only
          split
          · exact latchesKept_setCall hIdle nofun
          · refine ⟨SynthesisTables.cache_insertLeafRef .., ?_⟩
            exact (@latchesKept_setCall state call { value with phase := .recording rest }
              hIdle nofun).building
      · exact latchesKept_refl state
    · exact latchesKept_refl state
  | stop call =>
    unfold latchStep stop
    dsimp only
    cases hCall : state.calls call with
    | none => exact Or.inl ⟨latchesKept_refl state, not_building_of_none hCall⟩
    | some value =>
      dsimp only
      by_cases hPhase : value.phase = .building
      · refine Or.inr (Or.inr ⟨call, value, state.db.synthesis, false,
          ⟨⟨hCall, hPhase⟩, rfl, fun i v => ?_⟩, .left, ?_⟩)
        · rw [building_setCall]
          simp only [reduceCtorEq, and_false, false_or]
        · exact iff_of_false (fun h => h value ⟨hCall, hPhase⟩) Bool.false_ne_true
      · have hIdle := not_building_of_phase hCall hPhase
        exact Or.inl ⟨latchesKept_setCall hIdle nofun, hIdle⟩

/-! ## One build for a key -/

/-- A build holds a row of its key under its own id. -/
structure Latched (state : SynthesisState) : Prop where
  ids : (state.db.synthesis.cache.map (·.cacheId)).Nodup
  keys : (state.db.synthesis.cache.map (·.key.indexed)).Nodup
  held : ∀ call value, state.Building call value → ∃ row ∈ state.db.synthesis.cache,
    row.cacheId = value.cacheId ∧ row.key.indexed = value.key.indexed ∧ row.status = .building
  own : ∀ call call' value value', state.Building call value → state.Building call' value' →
    value.cacheId = value'.cacheId → call = call'

/-- Every row has a text, or is being built. -/
def Settled (state : SynthesisState) : Prop :=
  ∀ row ∈ state.db.synthesis.cache, (row.status = .ready ∧ row.content.isSome = true) ∨
    ∃ call value, state.Building call value ∧ value.cacheId = row.cacheId

theorem latched_idle (db : OperatorDb) : (idle db).Latched where
  ids := List.nodup_nil
  keys := List.nodup_nil
  held _ _ h := nomatch h.1
  own _ _ _ _ h := nomatch h.1

theorem building_unique (h : state.Latched) {call' : Nat}
    {value' : SynthesisCall} (hCall : state.Building call value)
    (hCall' : state.Building call' value') (hKey : value.key.indexed = value'.key.indexed) :
    call = call' := by
  obtain ⟨row, hRow, hId, hRowKey, -⟩ := h.held call value hCall
  obtain ⟨row', hRow', hId', hRowKey', -⟩ := h.held call' value' hCall'
  have hSame : row = row' := by
    apply List.inj_on_of_nodup_map h.keys hRow hRow'
    rw [hRowKey, hRowKey', hKey]
  apply h.own call call' value value' hCall hCall'
  rw [← hId, ← hId', hSame]

section Steps

variable {state state' : SynthesisState}

theorem latched_of_kept (h : state.Latched) (hKept : LatchesKept state state') :
    state'.Latched where
  ids := by
    rw [hKept.cache]
    exact h.ids
  keys := by
    rw [hKept.cache]
    exact h.keys
  held call value hBuild := by
    rw [hKept.cache]
    exact h.held call value ((hKept.building call value).mp hBuild)
  own call call' value value' hBuild hBuild' :=
    h.own call call' value value' ((hKept.building call value).mp hBuild)
      ((hKept.building call' value').mp hBuild')

theorem settled_of_kept (h : state.Settled) (hKept : LatchesKept state state') :
    state'.Settled := by
  intro row hRow
  rw [hKept.cache] at hRow
  refine (h row hRow).imp_right ?_
  rintro ⟨call, value, hBuild, hId⟩
  exact ⟨call, value, (hKept.building call value).mpr hBuild, hId⟩

variable {call : Nat} {value : SynthesisCall} {row : CacheRow}

theorem latched_of_taken (h : state.Latched) (hTaken : LatchTaken state state' call value row) :
    state'.Latched where
  ids := by
    rw [hTaken.cache, List.map_append, List.map_singleton, List.nodup_append]
    refine ⟨h.ids, List.nodup_singleton _, ?_⟩
    intro id hId new hNew
    obtain ⟨other, hOther, rfl⟩ := List.mem_map.mp hId
    rw [List.mem_singleton.mp hNew]
    exact (hTaken.free other hOther).1
  keys := by
    rw [hTaken.cache, List.map_append, List.map_singleton, List.nodup_append]
    refine ⟨h.keys, List.nodup_singleton _, ?_⟩
    intro key hKey new hNew
    obtain ⟨other, hOther, rfl⟩ := List.mem_map.mp hKey
    rw [List.mem_singleton.mp hNew]
    exact (hTaken.free other hOther).2
  held i v hBuild := by
    rw [hTaken.cache]
    rcases (hTaken.building i v).mp hBuild with ⟨-, rfl⟩ | ⟨-, hOld⟩
    · refine ⟨row, List.mem_append_right _ (List.mem_singleton_self row), hTaken.cacheId, ?_,
        hTaken.status⟩
      rw [hTaken.key]
    · obtain ⟨other, hOther, hHeld⟩ := h.held i v hOld
      exact ⟨other, List.mem_append_left _ hOther, hHeld⟩
  own i j v w hBuild hBuild' hId := by
    have hNew : ∀ k u, state.Building k u → u.cacheId ≠ value.cacheId := by
      intro k u hOld
      obtain ⟨other, hOther, hOtherId, -⟩ := h.held k u hOld
      rw [← hOtherId, ← hTaken.cacheId]
      exact (hTaken.free other hOther).1
    rcases (hTaken.building i v).mp hBuild with ⟨rfl, rfl⟩ | ⟨-, hOld⟩
    · rcases (hTaken.building j w).mp hBuild' with ⟨rfl, -⟩ | ⟨-, hOld'⟩
      · rfl
      · exact absurd hId.symm (hNew j w hOld')
    · rcases (hTaken.building j w).mp hBuild' with ⟨rfl, rfl⟩ | ⟨-, hOld'⟩
      · exact absurd hId (hNew i v hOld)
      · exact h.own i j v w hOld hOld' hId

theorem settled_of_taken (h : state.Settled)
    (hTaken : LatchTaken state state' call value row) : state'.Settled := by
  intro other hOther
  rw [hTaken.cache] at hOther
  rcases List.mem_append.mp hOther with hOld | hNew
  · refine (h other hOld).imp_right ?_
    rintro ⟨i, v, hBuild, hId⟩
    refine ⟨i, v, (hTaken.building i v).mpr (Or.inr ⟨?_, hBuild⟩), hId⟩
    rintro rfl
    exact hTaken.waiting v hBuild
  · rw [List.mem_singleton.mp hNew]
    exact Or.inr ⟨call, value, (hTaken.building call value).mpr (Or.inl ⟨rfl, rfl⟩),
      hTaken.cacheId.symm⟩

variable {tables : SynthesisTables} {completes : Bool}

theorem latched_of_ended (h : state.Latched)
    (hEnded : BuildEnded state state' call value tables)
    (hEnd : BuildEnd state.db.synthesis value.cacheId tables completes) : state'.Latched := by
  obtain ⟨update, hUpdate, -, -⟩ := hEnd.rowUpdate
  refine ⟨?_, ?_, ?_, ?_⟩
  · rw [hEnded.cache, hUpdate.cache, List.map_map]
    convert h.ids using 2
    funext row
    exact hUpdate.id row
  · rw [hEnded.cache]
    exact hEnd.keys h.ids h.keys
  · intro i v hBuild
    obtain ⟨hNe, hOld⟩ := (hEnded.building i v).mp hBuild
    obtain ⟨row, hRow, hId, hHeld⟩ := h.held i v hOld
    have hOther : row.cacheId ≠ value.cacheId := by
      rw [hId]
      exact fun hSame => hNe (h.own i call v value hOld hEnded.was hSame)
    rw [hEnded.cache, hUpdate.cache]
    refine ⟨update row, List.mem_map_of_mem hRow, ?_⟩
    rw [hUpdate.other row hOther]
    exact ⟨hId, hHeld⟩
  · intro i j v w hBuild hBuild'
    exact h.own i j v w ((hEnded.building i v).mp hBuild).2 ((hEnded.building j w).mp hBuild').2

/-- Only a build that completes leaves the rows settled. -/
theorem settled_of_ended (hLatched : state.Latched) (h : state.Settled)
    (hEnded : BuildEnded state state' call value tables)
    (hEnd : BuildEnd state.db.synthesis value.cacheId tables completes) :
    state'.Settled ↔ completes = true := by
  obtain ⟨update, hUpdate, hReady, hDead⟩ := hEnd.rowUpdate
  constructor
  · intro hSettled
    by_contra hNot
    obtain ⟨row, hRow, hId, -, hBuilding⟩ := hLatched.held call value hEnded.was
    have hMem : update row ∈ state'.db.synthesis.cache := by
      rw [hEnded.cache, hUpdate.cache]
      exact List.mem_map_of_mem hRow
    rcases hSettled _ hMem with ⟨hStatus, -⟩ | ⟨i, v, hBuild, hSame⟩
    · exact hDead (Bool.eq_false_iff.mpr hNot) row hBuilding hStatus
    · obtain ⟨hNe, hOld⟩ := (hEnded.building i v).mp hBuild
      rw [hUpdate.id, hId] at hSame
      exact hNe (hLatched.own i call v value hOld hEnded.was hSame)
  · intro hCompletes other hOther
    rw [hEnded.cache, hUpdate.cache] at hOther
    obtain ⟨row, hRow, rfl⟩ := List.mem_map.mp hOther
    by_cases hId : row.cacheId = value.cacheId
    · exact Or.inl (hReady hCompletes row hId)
    · rw [hUpdate.other row hId]
      refine (h row hRow).imp_right ?_
      rintro ⟨i, v, hBuild, hSame⟩
      refine ⟨i, v, (hEnded.building i v).mpr ⟨?_, hBuild⟩, hSame⟩
      rintro rfl
      have hValue : v = value := Option.some.inj (hBuild.1.symm.trans hEnded.was.1)
      exact hId (hValue ▸ hSame.symm)

end Steps

/-! ## Calls that can be retried -/

theorem exists_fresh_id (db : SynthesisTables) :
    ∃ cacheId, ∀ row ∈ db.cache, row.cacheId ≠ cacheId := by
  have hInjective : Function.Injective fun n => String.ofList (List.replicate n 'x') := by
    intro n m hEq
    have hLists := congrArg String.toList hEq
    simp only [String.toList_ofList] at hLists
    simpa using congrArg List.length hLists
  have : Infinite String := Infinite.of_injective _ hInjective
  obtain ⟨cacheId, hFresh⟩ :=
    Infinite.exists_notMem_finset (db.cache.map (·.cacheId)).toFinset
  refine ⟨cacheId, fun row hRow hEq => hFresh ?_⟩
  rw [List.mem_toFinset, ← hEq]
  exact List.mem_map_of_mem hRow

variable {row : CacheRow}

theorem lookupCacheRow_eq {key : CacheKey} (h : db.lookupCacheRow key = some row) :
    row ∈ db.cache ∧ row.key.indexed = key.indexed :=
  ⟨List.mem_of_find?_eq_some h, by simpa using List.find?_some h⟩

theorem lookupCacheRow_self (hKeys : (db.cache.map (·.key.indexed)).Nodup) (hRow : row ∈ db.cache) :
    db.lookupCacheRow row.key = some row := by
  cases hLookup : db.lookupCacheRow row.key with
  | none =>
    have hNot := List.find?_eq_none.mp hLookup row hRow
    exact absurd (decide_eq_true rfl) hNot
  | some found =>
    obtain ⟨hFound, hKey⟩ := lookupCacheRow_eq hLookup
    rw [List.inj_on_of_nodup_map hKeys hFound hRow hKey]

/-- A call under a new id finds the latch free exactly if the key has no row. -/
theorem latchAnswer_eq
    (hFresh : ∀ row ∈ db.cache, row.cacheId ≠ cacheId) (now : Timestamp) (key : CacheKey)
    (leafIds : List SummaryId) :
    db.latchAnswer now cacheId key leafIds =
      match db.lookupCacheRow key with
      | none => .builds cacheId
      | some row => emitLoserPathResponse (some row) now := by
  unfold SynthesisTables.latchAnswer SynthesisTables.insertCacheRowSingleFlight
  cases hLookup : db.lookupCacheRow key with
  | none =>
    have hFree : (db.cache.any fun row =>
        row.cacheId = cacheId ∨ row.key.indexed = key.indexed) = false := by
      rw [List.any_eq_false]
      intro row hRow hClash
      rcases decide_eq_true_eq.mp hClash with hId | hKey
      · exact hFresh row hRow hId
      · exact List.find?_eq_none.mp hLookup row hRow (decide_eq_true hKey)
    rw [if_neg (Bool.eq_false_iff.mp hFree), if_pos rfl]
  | some row =>
    obtain ⟨hRow, hKey⟩ := lookupCacheRow_eq hLookup
    have hClash : (db.cache.any fun row =>
        row.cacheId = cacheId ∨ row.key.indexed = key.indexed) = true :=
      List.any_eq_true.mpr ⟨row, hRow, decide_eq_true (Or.inr hKey)⟩
    rw [if_pos hClash, if_neg Bool.false_ne_true]

theorem isServed_emit {now : Timestamp} :
    (emitLoserPathResponse (some row) now).IsServed ↔
      row.status = .ready ∧ row.content.isSome = true := by
  obtain ⟨cacheId, key, content, leafIds, tokens, status, startedAt, reason⟩ := row
  cases status with
  | building => exact iff_of_false id nofun
  | failed => exact iff_of_false id nofun
  | ready =>
    cases content with
    | none => exact iff_of_false id nofun
    | some text => exact iff_of_true trivial ⟨rfl, rfl⟩

section Retries

variable {state : SynthesisState}

theorem retriable_of_settled (hLatched : state.Latched) (h : state.Settled) (now : Timestamp)
    (key : CacheKey) : state.Retriable now key := by
  intro hIdle _ cacheId leafIds hFresh
  rw [latchAnswer_eq hFresh]
  cases hLookup : state.db.synthesis.lookupCacheRow key with
  | none => trivial
  | some row =>
    obtain ⟨hRow, hKey⟩ := lookupCacheRow_eq hLookup
    refine isServed_emit.mpr ((h row hRow).resolve_right ?_)
    rintro ⟨call, value, hBuild, hId⟩
    obtain ⟨held, hHeld, hHeldId, hHeldKey, -⟩ := hLatched.held call value hBuild
    have hSame : held = row :=
      List.inj_on_of_nodup_map hLatched.ids hHeld hRow (hHeldId.trans hId)
    rw [hSame] at hHeldKey
    exact hIdle call value hBuild (hHeldKey.symm.trans hKey)

/-- A row without a text that no call builds sends its callers away for good. -/
theorem settled_of_retriable (hLatched : state.Latched)
    (h : ∀ now key, state.Retriable now key) : state.Settled := by
  intro row hRow
  by_contra hDead
  obtain ⟨hText, hBuilder⟩ := not_or.mp hDead
  obtain ⟨cacheId, hFresh⟩ := exists_fresh_id state.db.synthesis
  have hLookup := lookupCacheRow_self hLatched.keys hRow
  have hServed := h (row.buildingStartedAt.getD 0 + 10 * 60 * 1000) row.key ?_ ?_ cacheId []
    hFresh
  · rw [latchAnswer_eq hFresh, hLookup] at hServed
    exact hText (isServed_emit.mp hServed)
  · intro call value hBuild hKey
    obtain ⟨held, hHeld, hHeldId, hHeldKey, -⟩ := hLatched.held call value hBuild
    have hSame : held = row :=
      List.inj_on_of_nodup_map hLatched.keys hHeld hRow (hHeldKey.trans hKey)
    exact hBuilder ⟨call, value, hBuild, hSame ▸ hHeldId.symm⟩
  · intro found ms hFound _ hWait
    rw [hLookup] at hFound
    cases hFound
    unfold CacheRow.retryAfterMs at hWait
    cases hStart : row.buildingStartedAt with
    | none =>
      rw [hStart] at hWait
      cases hWait
    | some startedAt =>
      rw [hStart, Option.map_some, Option.some.injEq, Option.getD_some] at hWait
      omega

variable (texts : CacheTexts)

theorem latched_step (h : state.Latched) (action : LatchAction) :
    (state.latchStep texts action).Latched := by
  rcases latchStep_cases texts state action with ⟨hKept, -⟩ | ⟨_, _, _, hTaken, -⟩ |
    ⟨_, _, _, _, hEnded, hEnd, -⟩
  · exact latched_of_kept h hKept
  · exact latched_of_taken h hTaken
  · exact latched_of_ended h hEnded hEnd

theorem settled_step_iff (hLatched : state.Latched) (h : state.Settled) (action : LatchAction) :
    (state.latchStep texts action).Settled ↔ state.Completes action := by
  rcases latchStep_cases texts state action with ⟨hKept, hCompletes⟩ |
    ⟨_, _, _, hTaken, hCompletes⟩ | ⟨_, _, _, _, hEnded, hEnd, hIff⟩
  · exact iff_of_true (settled_of_kept h hKept) hCompletes
  · exact iff_of_true (settled_of_taken h hTaken) hCompletes
  · exact (settled_of_ended hLatched h hEnded hEnd).trans hIff.symm

/-- **At most one call builds a key; and in every state of a run the next call of each key
is served, once nobody builds it and the advertised wait is over, exactly if each build of
the run completes.** -/
theorem latch_run (db : OperatorDb) (actions : List LatchAction) :
    (∀ call call' value value',
      (Run.final (latchStep texts) (idle db) actions).Building call value →
      (Run.final (latchStep texts) (idle db) actions).Building call' value' →
      value.key.indexed = value'.key.indexed → call = call') ∧
    (Run.Along (latchStep texts)
        (fun state action => ∀ now key, (state.latchStep texts action).Retriable now key)
        (idle db) actions ↔
      Run.Along (latchStep texts) Completes (idle db) actions) := by
  have hLatched : (Run.final (latchStep texts) (idle db) actions).Latched :=
    Run.final_invariant (fun _ action _ h => latched_step texts h action) (latched_idle db)
  refine ⟨fun _ _ _ _ => building_unique hLatched, ?_⟩
  have hSettled : (idle db).Settled := fun _ hRow => nomatch hRow
  have hIff : ∀ (state : SynthesisState) action, state.Latched ∧ state.Settled →
      ((∀ now key, (state.latchStep texts action).Retriable now key) ↔
        state.Completes action) := by
    intro state action hInv
    rw [← settled_step_iff texts hInv.1 hInv.2 action]
    constructor
    · exact settled_of_retriable (latched_step texts hInv.1 action)
    · exact retriable_of_settled (latched_step texts hInv.1 action)
  refine Run.along_iff_of_invariant hIff (fun state action hInv hAfter => ?_)
    ⟨latched_idle db, hSettled⟩
  refine ⟨latched_step texts hInv.1 action, ?_⟩
  exact (settled_step_iff texts hInv.1 hInv.2 action).mpr ((hIff state action hInv).mp hAfter)

end Retries

/-! ## A build that fails once -/

/-- The model fails on the first call of a window. -/
def failedBuild : List LatchAction :=
  [.choose 0 "cache" (some "prompt") ⟨"key", 0, 1, [], none, "custom"⟩, .insertRow 0 1000 false,
    .finish 0 (.failed "timeout") false]

def failedKey : CacheKey := ⟨"key", "", "", "", none, "custom", "prompt"⟩

def afterFailedBuild : SynthesisState :=
  Run.final (latchStep noTexts) (idle oneSource.db) failedBuild

theorem cache_afterFailedBuild : afterFailedBuild.db.synthesis.cache =
    [⟨"cache", failedKey, none, ["leaf"], 0, .failed, some 1000, some "timeout"⟩] := by
  decide +kernel

/-- An hour later a second call of the window is told of the failure, with nothing left to
wait for. -/
theorem recentFailure_after_hour :
    afterFailedBuild.db.synthesis.latchAnswer 3600000 "next" failedKey ["leaf"] =
        .recentFailure "cache" (some 1000) "timeout" (some 0) ∧
      ¬ afterFailedBuild.Retriable 3600000 failedKey := by
  have hAnswer : afterFailedBuild.db.synthesis.latchAnswer 3600000 "next" failedKey ["leaf"] =
      .recentFailure "cache" (some 1000) "timeout" (some 0) := by
    decide +kernel
  have hLatched : afterFailedBuild.Latched :=
    Run.final_invariant (fun _ action _ h => latched_step noTexts h action) (latched_idle _)
  refine ⟨hAnswer, fun hRetriable => ?_⟩
  have hServed := hRetriable ?_ ?_ "next" ["leaf"] ?_
  · rw [hAnswer] at hServed
    exact hServed
  · intro call value hBuild
    obtain ⟨row, hRow, -, -, hStatus⟩ := hLatched.held call value hBuild
    rw [cache_afterFailedBuild, List.mem_singleton] at hRow
    rw [hRow] at hStatus
    cases hStatus
  · intro row ms hLookup _ hWait
    have hRow := (lookupCacheRow_eq hLookup).1
    rw [cache_afterFailedBuild, List.mem_singleton] at hRow
    rw [hRow] at hWait
    exact (Option.some.inj hWait).symm
  · intro row hRow
    rw [cache_afterFailedBuild, List.mem_singleton] at hRow
    rw [hRow]
    decide

end SynthesisState
end LosslessHermes
