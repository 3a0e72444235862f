import LosslessHermes.Library.Run
import LosslessHermes.Library.Text

/-!
# The slots of delegated expansions

Each origin session has one slot, which a delegated expansion holds while it is in flight. The
calls hold a lock while they read and write the map, so each of them is one step.

`admitted` keeps the requests that were let in and have not released since. The map should hold
exactly these; but a call without a key takes the slot of `main`, and its release is ignored.
-/

namespace LosslessHermes.ExpansionGuard

/-- The id of the request that holds the slot of an origin. -/
abbrev Slots := String → Option String

inductive ConcurrencyDecision
  | allowed (requestId originSessionKey : String)
  | blocked (code reason message requestId originSessionKey : String)
  deriving DecidableEq, Repr

def EXPANSION_CONCURRENCY_ERROR_CODE : String := "EXPANSION_CONCURRENCY_BLOCKED"

def normalizeSessionKey (sessionKey : Option String) : String :=
  Text.strip (sessionKey.getD "")

def concurrencyRecoveryGuidance (originSessionKey : String) : String :=
  "Recovery: Wait for the active expansion to finish before retrying. " ++
    "If you need an immediate fallback, stay in the origin session " ++
    "(" ++ originSessionKey ++ ") and use `lcm_grep` or `lcm_describe` instead."

/-- `_normalize_session_key(origin_session_key) or "main"` -/
def acquiredOrigin (originSessionKey : Option String) : String :=
  if normalizeSessionKey originSessionKey = "" then "main"
  else normalizeSessionKey originSessionKey

/-- An empty id counts as none. -/
def activeRequestId (slots : Slots) (origin : String) : Option String :=
  (slots origin).filter (· ≠ "")

def setSlot (slots : Slots) (origin : String) (value : Option String) : Slots :=
  fun key => if key = origin then value else slots key

def acquireExpansionConcurrencySlot (slots : Slots) (originSessionKey : Option String)
    (requestId : String) : Slots × ConcurrencyDecision :=
  let origin := acquiredOrigin originSessionKey
  let trimmed := Text.strip requestId
  match activeRequestId slots origin with
  | none => (setSlot slots origin (some trimmed), .allowed trimmed origin)
  | some active =>
      if active ≠ trimmed then
        (slots, .blocked EXPANSION_CONCURRENCY_ERROR_CODE "origin_session_in_flight"
          (EXPANSION_CONCURRENCY_ERROR_CODE ++ ": Another lcm_expand_query " ++
            "delegation is already in flight for origin session " ++
            "(" ++ origin ++ "; activeRequestId=" ++ active ++ "). " ++
            concurrencyRecoveryGuidance origin) trimmed origin)
      else (slots, .allowed trimmed origin)

/-- Without an id the slot is released whoever holds it. -/
def releaseExpansionConcurrencySlot (slots : Slots) (originSessionKey requestId : Option String) :
    Slots :=
  let origin := normalizeSessionKey originSessionKey
  if origin = "" then slots
  else
    match activeRequestId slots origin with
    | none => slots
    | some active =>
        let trimmed := (requestId.map Text.strip).getD ""
        if trimmed ≠ "" ∧ active ≠ trimmed then slots
        else setSlot slots origin none

/-! ## Runs -/

/-- An id that is not blank. -/
structure RequestId where
  text : String
  nonBlank : Text.strip text ≠ ""

def RequestId.trimmed (id : RequestId) : String := Text.strip id.text

inductive SlotAction
  | acquire (originSessionKey : Option String) (id : RequestId)
  | release (originSessionKey : Option String) (id : RequestId)

structure SlotState where
  slots : Slots
  /-- The origins and ids that were let in and have not released. -/
  admitted : List (String × String)

namespace SlotState

def start : SlotState := ⟨fun _ => none, []⟩

def step (state : SlotState) : SlotAction → SlotState
  | .acquire originSessionKey id =>
      let acquired := acquireExpansionConcurrencySlot state.slots originSessionKey id.text
      match acquired.2 with
      | .allowed requestId origin => ⟨acquired.1, (origin, requestId) :: state.admitted⟩
      | .blocked _ _ _ _ _ => ⟨acquired.1, state.admitted⟩
  | .release originSessionKey id =>
      ⟨releaseExpansionConcurrencySlot state.slots originSessionKey (some id.text),
        state.admitted.filter (· ≠ (acquiredOrigin originSessionKey, id.trimmed))⟩

/-- At most one request is in for an origin, and it holds the slot; a slot that is held is held
by a request that is in. No id is empty. -/
structure Exclusive (state : SlotState) : Prop where
  one : ∀ origin id id', (origin, id) ∈ state.admitted → (origin, id') ∈ state.admitted → id = id'
  held : ∀ origin id, (origin, id) ∈ state.admitted → state.slots origin = some id
  freed : ∀ origin id, state.slots origin = some id → (origin, id) ∈ state.admitted
  nonEmpty : ∀ origin, state.slots origin ≠ some ""

/-- A release without a key is not one of the request that holds the slot of `main`. -/
def KeyedRelease (state : SlotState) : SlotAction → Prop
  | .acquire _ _ => True
  | .release originSessionKey id =>
      normalizeSessionKey originSessionKey = "" → state.slots "main" ≠ some id.trimmed

variable {state : SlotState}

theorem exclusive_start : start.Exclusive :=
  ⟨fun _ _ _ h => absurd h List.not_mem_nil, fun _ _ h => absurd h List.not_mem_nil,
    fun _ _ h => (by cases h), fun _ h => (by cases h)⟩

/-- The requests that are in are those that hold a slot. -/
theorem exclusive_iff :
    state.Exclusive ↔ (∀ origin id, (origin, id) ∈ state.admitted ↔
      state.slots origin = some id) ∧ ∀ origin, state.slots origin ≠ some "" := by
  constructor
  · intro h
    exact ⟨fun origin id => ⟨h.held origin id, h.freed origin id⟩, h.nonEmpty⟩
  · rintro ⟨h, hNonEmpty⟩
    refine ⟨fun origin id id' hId hId' => ?_, fun origin id => (h origin id).mp,
      fun origin id => (h origin id).mpr, hNonEmpty⟩
    exact Option.some.inj (((h origin id).mp hId).symm.trans ((h origin id').mp hId'))

theorem Exclusive.activeRequestId (h : state.Exclusive) (origin : String) :
    activeRequestId state.slots origin = state.slots origin := by
  unfold ExpansionGuard.activeRequestId
  cases hSlot : state.slots origin with
  | none => rfl
  | some active =>
    have hNe : active ≠ "" := fun hEmpty => h.nonEmpty origin (by rw [hSlot, hEmpty])
    simp [hNe]

theorem setSlot_self (slots : Slots) (origin : String) (value : Option String) :
    setSlot slots origin value origin = value := if_pos rfl

theorem setSlot_of_ne (slots : Slots) {origin key : String} (h : key ≠ origin)
    (value : Option String) : setSlot slots origin value key = slots key := if_neg h

theorem exclusive_acquire (h : state.Exclusive) (originSessionKey : Option String)
    (id : RequestId) : (state.step (.acquire originSessionKey id)).Exclusive := by
  obtain ⟨hIff, hNonEmpty⟩ := exclusive_iff.mp h
  unfold step acquireExpansionConcurrencySlot
  simp only [h.activeRequestId]
  generalize acquiredOrigin originSessionKey = origin
  cases hSlot : state.slots origin with
  | none =>
    dsimp only
    refine exclusive_iff.mpr ⟨fun key other => ?_, fun key => ?_⟩
    · by_cases hKey : key = origin
      · subst hKey
        have hNot : (key, other) ∉ state.admitted := fun hMem => by
          rw [(hIff key other).mp hMem] at hSlot
          cases hSlot
        simp only [setSlot_self, List.mem_cons, Prod.mk.injEq, true_and, hNot, or_false,
          Option.some.injEq]
        exact eq_comm
      · simp only [setSlot_of_ne _ hKey, List.mem_cons, Prod.mk.injEq, hKey, false_and, false_or]
        exact hIff key other
    · dsimp only
      by_cases hKey : key = origin
      · subst hKey
        rw [setSlot_self]
        exact fun hEmpty => id.nonBlank (Option.some.inj hEmpty)
      · rw [setSlot_of_ne _ hKey]
        exact hNonEmpty key
  | some active =>
    by_cases hSame : active = Text.strip id.text
    · subst hSame
      simp only [ne_eq, not_true_eq_false, if_false]
      refine exclusive_iff.mpr ⟨fun key other => ?_, hNonEmpty⟩
      rw [List.mem_cons, hIff key other]
      constructor
      · rintro (hNew | hOld)
        · obtain ⟨rfl, rfl⟩ := Prod.mk.inj hNew
          exact hSlot
        · exact hOld
      · exact Or.inr
    · simp only [ne_eq, hSame, not_false_eq_true, if_true]
      exact h

/-- A release of a key frees its slot if the request holds it. -/
theorem slots_release (h : state.Exclusive) {originSessionKey : Option String} {id : RequestId}
    (hKey : normalizeSessionKey originSessionKey ≠ "") (key : String) :
    releaseExpansionConcurrencySlot state.slots originSessionKey (some id.text) key =
      if key = acquiredOrigin originSessionKey ∧ state.slots key = some id.trimmed then none
      else state.slots key := by
  have hOrigin : acquiredOrigin originSessionKey = normalizeSessionKey originSessionKey :=
    if_neg hKey
  have hTrimmed : ((some id.text).map Text.strip).getD "" = id.trimmed := rfl
  unfold releaseExpansionConcurrencySlot
  simp only [h.activeRequestId, hOrigin, hKey, if_false, hTrimmed]
  generalize normalizeSessionKey originSessionKey = origin
  cases hSlot : state.slots origin with
  | none =>
    split
    · rename_i hBoth
      rw [hBoth.1, hSlot] at hBoth
      cases hBoth.2
    · rfl
  | some active =>
    simp only [show id.trimmed ≠ "" from id.nonBlank, ne_eq, not_false_eq_true, true_and]
    by_cases hSame : active = id.trimmed
    · rw [if_neg (not_not_intro hSame)]
      by_cases hAt : key = origin
      · subst hAt
        rw [setSlot_self, if_pos ⟨rfl, by rw [hSlot, hSame]⟩]
      · rw [setSlot_of_ne _ hAt, if_neg fun hBoth => hAt hBoth.1]
    · rw [if_pos hSame, if_neg]
      rintro ⟨rfl, hHeld⟩
      exact hSame (Option.some.inj (hSlot.symm.trans hHeld))

/-- A request is out and the slot free where it was its own. -/
theorem exclusive_removed (h : state.Exclusive) {slots : Slots} {origin id : String}
    (hSlots : ∀ key, slots key =
      if key = origin ∧ state.slots key = some id then none else state.slots key) :
    Exclusive ⟨slots, state.admitted.filter (· ≠ (origin, id))⟩ := by
  obtain ⟨hIff, hNonEmpty⟩ := exclusive_iff.mp h
  refine exclusive_iff.mpr ⟨fun key other => ?_, fun key => ?_⟩
  · dsimp only
    rw [hSlots, List.mem_filter, decide_eq_true_iff, hIff key other, ne_eq, Prod.mk.injEq]
    split
    · rename_i hBoth
      refine iff_of_false ?_ (by simp)
      rintro ⟨hHeld, hNot⟩
      exact hNot ⟨hBoth.1, Option.some.inj (hHeld.symm.trans hBoth.2)⟩
    · rename_i hNot
      constructor
      · exact And.left
      · intro hHeld
        refine ⟨hHeld, ?_⟩
        rintro ⟨rfl, rfl⟩
        exact hNot ⟨rfl, hHeld⟩
  · dsimp only
    rw [hSlots]
    split
    · simp
    · exact hNonEmpty key

/-- With the slots unchanged, the request that goes must not hold one. -/
theorem exclusive_unchanged_iff (h : state.Exclusive) (origin id : String) :
    Exclusive ⟨state.slots, state.admitted.filter (· ≠ (origin, id))⟩ ↔
      state.slots origin ≠ some id := by
  constructor
  · intro hAfter hHeld
    have hMem := hAfter.freed origin id hHeld
    simp [List.mem_filter] at hMem
  · intro hNot
    refine exclusive_removed h fun key => ?_
    rw [if_neg]
    rintro ⟨rfl, hHeld⟩
    exact hNot hHeld

theorem exclusive_release_iff (h : state.Exclusive) (originSessionKey : Option String)
    (id : RequestId) :
    (state.step (.release originSessionKey id)).Exclusive ↔
      state.KeyedRelease (.release originSessionKey id) := by
  unfold step KeyedRelease
  by_cases hKey : normalizeSessionKey originSessionKey = ""
  · have hOrigin : acquiredOrigin originSessionKey = "main" := if_pos hKey
    have hSlots : releaseExpansionConcurrencySlot state.slots originSessionKey (some id.text) =
        state.slots := if_pos hKey
    simp only [hSlots, hOrigin, hKey, forall_const]
    exact exclusive_unchanged_iff h "main" id.trimmed
  · simp only [hKey, false_implies, iff_true]
    exact exclusive_removed h (slots_release h hKey)

theorem exclusive_step_iff (h : state.Exclusive) (action : SlotAction) :
    (state.step action).Exclusive ↔ state.KeyedRelease action := by
  cases action with
  | acquire originSessionKey id =>
    exact iff_of_true (exclusive_acquire h originSessionKey id) trivial
  | release originSessionKey id => exact exclusive_release_iff h originSessionKey id

/-- **After each step the slots are held by the requests that are in, if and only if no request
that holds the slot of `main` is released without a key.** -/
theorem exclusive_run_iff (actions : List SlotAction) :
    Run.Along step (fun state action => (state.step action).Exclusive) start actions ↔
      Run.Along step KeyedRelease start actions :=
  Run.along_iff_of_invariant (fun _ action h => exclusive_step_iff h action) (fun _ _ _ h => h)
    exclusive_start

def firstRequest : RequestId := ⟨"rid-1", by decide⟩

/-- A request without a key is let in and released with the same arguments. -/
theorem not_exclusive_run :
    ¬ Run.Along step (fun state action => (state.step action).Exclusive) start
      [.acquire none firstRequest, .release none firstRequest] := by
  rintro ⟨-, h, -⟩
  have hMem := h.freed "main" "rid-1" (by decide)
  exact absurd hMem (by decide)

end SlotState

end LosslessHermes.ExpansionGuard
