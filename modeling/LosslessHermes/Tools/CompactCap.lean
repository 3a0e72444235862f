import LosslessHermes.Library.Run
import LosslessHermes.Library.Sliding

/-!
# The cap on compaction calls

`lcm_compact` counts the calls of a session in a window of five minutes, which begins with a call
and is renewed by the first one after its end. Each call holds a lock while it reads and writes the
counter, so it is one step.

The tool promises refusal once the cap was reached in the last five minutes. A renewed window
forgets the calls of the one before it: `keepsCap_run_iff` says which runs keep the promise.
-/

namespace LosslessHermes.CompactCap

def COMPACTION_WINDOW_MS : Int := 5 * 60 * 1000

def DEFAULT_CAP_PER_WINDOW : Int := 2

structure CounterEntry where
  count : Nat
  firstAtMs : Int
  deriving DecidableEq, Repr

structure CounterDecision where
  allowed : Bool
  count : Nat
  resetAtMs : Int
  deriving DecidableEq, Repr

/-- `_compaction_calls_by_session` -/
abbrev Counters := String → Option CounterEntry

def setEntry (counters : Counters) (sessionKey : String) (entry : CounterEntry) : Counters :=
  fun key => if key = sessionKey then some entry else counters key

/-- A new window, with this call. -/
def renew (counters : Counters) (sessionKey : String) (now : Int) : Counters × CounterDecision :=
  (setEntry counters sessionKey { count := 1, firstAtMs := now },
    { allowed := true, count := 1, resetAtMs := now + COMPACTION_WINDOW_MS })

def checkAndIncrementCounter (counters : Counters) (sessionKey : String) (capPerWindow now : Int) :
    Counters × CounterDecision :=
  match counters sessionKey with
  | none => renew counters sessionKey now
  | some existing =>
      let resetAtMs := existing.firstAtMs + COMPACTION_WINDOW_MS
      if COMPACTION_WINDOW_MS < now - existing.firstAtMs then renew counters sessionKey now
      else if capPerWindow ≤ existing.count then
        (counters, { allowed := false, count := existing.count, resetAtMs })
      else
        (setEntry counters sessionKey { existing with count := existing.count + 1 },
          { allowed := true, count := existing.count + 1, resetAtMs })

/-! ## Runs -/

structure CompactCall where
  sessionKey : String
  now : Int
  deriving DecidableEq, Repr

/-- The counters, and the calls that were allowed, the newest first. -/
structure CapState where
  counters : Counters
  allowed : List CompactCall

namespace CapState

def start : CapState := ⟨fun _ => none, []⟩

/-- The counters after a call, and the decision on it. -/
def decided (cap : Nat) (state : CapState) (call : CompactCall) : Counters × CounterDecision :=
  checkAndIncrementCounter state.counters call.sessionKey cap call.now

def step (cap : Nat) (state : CapState) (call : CompactCall) : CapState :=
  let decided := state.decided cap call
  { counters := decided.1
    allowed := if decided.2.allowed then call :: state.allowed else state.allowed }

/-- When the calls of a session were allowed. -/
def times (state : CapState) (key : String) : List Int :=
  (state.allowed.filter fun call => call.sessionKey = key).map (·.now)

/-- How many calls of the session were allowed in the window that ends now. -/
def recent (state : CapState) (key : String) (now : Int) : Nat :=
  Sliding.between (state.times key) (now - COMPACTION_WINDOW_MS) now

/-- What a call of a session should do: no interval has more than `cap` calls, a refused call
changes nothing, and a call is allowed where there is room. -/
structure KeepsCap (cap : Nat) (key : String) (state : CapState) (call : CompactCall) : Prop where
  capped : Sliding.Capped COMPACTION_WINDOW_MS cap ((state.step cap call).times key)
  refused : (state.decided cap call).2.allowed = false → state.step cap call = state
  admitted : call.sessionKey = key → state.recent key call.now < cap →
    (state.decided cap call).2.allowed = true

/-- The cap is positive, and a call that finds room in a running window comes late enough after
the call `cap` places back. -/
structure Spaced (cap : Nat) (key : String) (state : CapState) (call : CompactCall) : Prop where
  positive : call.sessionKey = key → 0 < cap
  late : ∀ entry, call.sessionKey = key → state.counters key = some entry →
    call.now - entry.firstAtMs ≤ COMPACTION_WINDOW_MS → entry.count < cap →
      ∀ t, (state.times key)[cap - 1]? = some t → COMPACTION_WINDOW_MS < call.now - t

/-- The counter of a session is that of the last calls that were allowed, from the first one of
the window on. -/
structure Counted (cap : Nat) (key : String) (state : CapState) : Prop where
  sorted : (state.times key).Pairwise (· ≥ ·)
  unknown : state.counters key = none → state.times key = []
  window : ∀ entry, state.counters key = some entry → entry.count ≤ max cap 1 ∧
    ∃ later earlier, state.times key = later ++ entry.firstAtMs :: earlier ∧
      later.length + 1 = entry.count

variable {cap : Nat} {key : String} {state : CapState} {call : CompactCall}

/-! ## The forms of a step -/

theorem times_allowed (hKey : call.sessionKey = key) (counters : Counters) :
    times ⟨counters, call :: state.allowed⟩ key = call.now :: state.times key := by
  unfold times
  rw [List.filter_cons_of_pos (by simpa using hKey)]
  rfl

theorem step_of_other (hKey : call.sessionKey ≠ key) :
    (state.step cap call).counters key = state.counters key ∧
      (state.step cap call).times key = state.times key := by
  have hSet : ∀ entry, setEntry state.counters call.sessionKey entry key = state.counters key :=
    fun entry => if_neg fun hEq => hKey hEq.symm
  constructor
  · unfold step decided checkAndIncrementCounter renew
    dsimp only
    split
    · exact hSet _
    · split
      · exact hSet _
      · split
        · rfl
        · exact hSet _
  · unfold step times
    dsimp only
    split
    · rw [List.filter_cons_of_neg (by simpa using hKey)]
    · rfl

theorem step_of_refused (h : (state.decided cap call).2.allowed = false) :
    state.step cap call = state := by
  have hCounters : (state.decided cap call).1 = state.counters := by
    unfold decided checkAndIncrementCounter renew at h ⊢
    split at h
    · cases h
    · dsimp only at h ⊢
      split at h
      · cases h
      · rename_i hRunning
        split at h
        · rename_i hFull
          rw [if_neg hRunning, if_pos hFull]
        · cases h
  unfold step
  dsimp only
  rw [hCounters, h]
  rfl

/-- A call of the session begins a window, is refused, or joins the window. -/
theorem step_cases (state : CapState) (cap : Nat) (call : CompactCall)
    (hKey : call.sessionKey = key) :
    ((state.decided cap call).2.allowed = true ∧
      (state.step cap call).counters key = some { count := 1, firstAtMs := call.now } ∧
      (state.counters key = none ∨ ∃ entry, state.counters key = some entry ∧
        COMPACTION_WINDOW_MS < call.now - entry.firstAtMs)) ∨
    ∃ entry, state.counters key = some entry ∧
      call.now - entry.firstAtMs ≤ COMPACTION_WINDOW_MS ∧
        ((state.decided cap call).2.allowed = false ∧ cap ≤ entry.count ∨
          (state.decided cap call).2.allowed = true ∧ entry.count < cap ∧
            (state.step cap call).counters key =
              some { entry with count := entry.count + 1 }) := by
  subst hKey
  have hSet : ∀ entry, setEntry state.counters call.sessionKey entry call.sessionKey = some entry :=
    fun entry => if_pos rfl
  unfold step decided checkAndIncrementCounter renew
  cases hEntry : state.counters call.sessionKey with
  | none => exact .inl ⟨rfl, hSet _, .inl rfl⟩
  | some entry =>
    dsimp only
    by_cases hExpired : COMPACTION_WINDOW_MS < call.now - entry.firstAtMs
    · rw [if_pos hExpired]
      exact .inl ⟨rfl, hSet _, .inr ⟨entry, rfl, hExpired⟩⟩
    · rw [if_neg hExpired]
      refine .inr ⟨entry, rfl, not_lt.mp hExpired, ?_⟩
      by_cases hFull : (cap : Int) ≤ entry.count
      · rw [if_pos hFull]
        exact .inl ⟨rfl, Int.ofNat_le.mp hFull⟩
      · rw [if_neg hFull]
        exact .inr ⟨rfl, by omega, hSet _⟩

theorem times_step_of_allowed (hKey : call.sessionKey = key)
    (h : (state.decided cap call).2.allowed = true) :
    (state.step cap call).times key = call.now :: state.times key := by
  have hStep : state.step cap call = ⟨(state.decided cap call).1, call :: state.allowed⟩ := by
    unfold step
    dsimp only
    rw [if_pos h]
  rw [hStep, times_allowed hKey]

/-! ## One step -/

theorem counted_start (cap : Nat) (key : String) : Counted cap key start where
  sorted := .nil
  unknown := fun _ => rfl
  window := fun _ h => nomatch h

theorem Counted.step (h : Counted cap key state)
    (hNow : call.sessionKey = key → ∀ t ∈ state.times key, t ≤ call.now) :
    Counted cap key (state.step cap call) := by
  by_cases hKey : call.sessionKey = key
  · have hSorted : (call.now :: state.times key).Pairwise (· ≥ ·) :=
      List.pairwise_cons.mpr ⟨hNow hKey, h.sorted⟩
    rcases step_cases state cap call hKey with
      ⟨hAllowed, hEntry, -⟩ | ⟨entry, hOld, -, ⟨hRefused, -⟩ | ⟨hAllowed, hRoom, hEntry⟩⟩
    · have hTimes := times_step_of_allowed hKey hAllowed
      refine ⟨hTimes ▸ hSorted, fun hNone => ?_, fun entry hSome => ?_⟩
      · rw [hEntry] at hNone
        cases hNone
      · rw [hEntry] at hSome
        cases hSome
        exact ⟨Nat.le_max_right cap 1, [], state.times key, hTimes, rfl⟩
    · rw [step_of_refused hRefused]
      exact h
    · have hTimes := times_step_of_allowed hKey hAllowed
      obtain ⟨-, later, earlier, hSplit, hLength⟩ := h.window entry hOld
      refine ⟨hTimes ▸ hSorted, fun hNone => ?_, fun entry' hSome => ?_⟩
      · rw [hEntry] at hNone
        cases hNone
      · rw [hEntry] at hSome
        cases hSome
        refine ⟨(Nat.succ_le_of_lt hRoom).trans (Nat.le_max_left cap 1), call.now :: later, earlier,
          ?_, ?_⟩
        · rw [hTimes, hSplit]
          rfl
        · rw [List.length_cons, hLength]
  · obtain ⟨hCounters, hTimes⟩ := @step_of_other cap key state call hKey
    refine ⟨hTimes ▸ h.sorted, fun hNone => ?_, fun entry hSome => ?_⟩
    · rw [hTimes, h.unknown (hCounters ▸ hNone)]
    · rw [hTimes]
      exact h.window entry (hCounters ▸ hSome)

/-- The first call of a window that has ended is out of reach, and so is the one `cap` back. -/
theorem Counted.late_of_expired (h : Counted cap key state) (hPositive : 0 < cap)
    {entry : CounterEntry} (hEntry : state.counters key = some entry)
    (hExpired : COMPACTION_WINDOW_MS < call.now - entry.firstAtMs) :
    ∀ t, (state.times key)[cap - 1]? = some t → COMPACTION_WINDOW_MS < call.now - t := by
  obtain ⟨hCount, later, earlier, hSplit, hLength⟩ := h.window entry hEntry
  intro t hAt
  have hSorted := h.sorted
  rw [hSplit] at hAt hSorted
  have hOlder : t ≤ entry.firstAtMs := by
    rw [List.getElem?_append_right (by omega)] at hAt
    rcases List.mem_cons.mp (List.mem_of_getElem? hAt) with rfl | hMem
    · exact le_refl _
    · exact (List.pairwise_cons.mp (List.pairwise_append.mp hSorted).2.1).1 t hMem
  omega

/-- A running window that is full has as many recent calls as the cap. -/
theorem Counted.recent_of_full (h : Counted cap key state) {entry : CounterEntry}
    (hEntry : state.counters key = some entry)
    (hNow : ∀ t ∈ state.times key, t ≤ call.now)
    (hRunning : call.now - entry.firstAtMs ≤ COMPACTION_WINDOW_MS) :
    entry.count ≤ state.recent key call.now := by
  obtain ⟨-, later, earlier, hSplit, hLength⟩ := h.window entry hEntry
  have hSorted := h.sorted
  unfold recent Sliding.between
  rw [hSplit] at hSorted hNow ⊢
  have hLater := (List.pairwise_append.mp hSorted).2.2
  have hAll : ∀ t ∈ later ++ [entry.firstAtMs],
      decide (call.now - COMPACTION_WINDOW_MS ≤ t ∧ t ≤ call.now) = true := by
    intro t ht
    rw [decide_eq_true_eq]
    rcases List.mem_append.mp ht with hMem | hMem
    · have hFirst := hLater t hMem entry.firstAtMs List.mem_cons_self
      exact ⟨by omega, hNow t (List.mem_append_left _ hMem)⟩
    · rw [List.mem_singleton.mp hMem]
      exact ⟨by omega, hNow _ (List.mem_append_right _ List.mem_cons_self)⟩
  have hCount := List.countP_eq_length.mpr hAll
  rw [List.append_cons, List.countP_append, hCount, List.length_append, List.length_singleton,
    hLength]
  exact Nat.le_add_right _ _

theorem keepsCap_iff (h : Counted cap key state)
    (hCapped : Sliding.Capped COMPACTION_WINDOW_MS cap (state.times key))
    (hNow : call.sessionKey = key → ∀ t ∈ state.times key, t ≤ call.now) :
    KeepsCap cap key state call ↔ Spaced cap key state call := by
  by_cases hKey : call.sessionKey = key
  · have hNewest := hNow hKey
    -- an allowed call keeps the cap if and only if it comes late after the one `cap` back
    have hAllowedIff : (state.decided cap call).2.allowed = true →
        (KeepsCap cap key state call ↔ 0 < cap ∧
          ∀ t, (state.times key)[cap - 1]? = some t → COMPACTION_WINDOW_MS < call.now - t) := by
      intro hAllowed
      have hKeeps : KeepsCap cap key state call ↔ state.recent key call.now < cap := by
        have hIff := @Sliding.capped_cons_iff _ cap _ _ (by decide : 0 ≤ COMPACTION_WINDOW_MS) hNewest
        rw [← times_step_of_allowed hKey hAllowed] at hIff
        constructor
        · intro hKeeps
          exact Int.ofNat_lt.mp (hIff.mp hKeeps.capped).2
        · intro hRoom
          refine ⟨hIff.mpr ⟨hCapped, Int.ofNat_lt.mpr hRoom⟩, fun hRefused => ?_,
            fun _ _ => hAllowed⟩
          rw [hAllowed] at hRefused
          cases hRefused
      rw [hKeeps]
      cases cap with
      | zero => exact iff_of_false (Nat.not_lt_zero _) fun hBoth => Nat.lt_irrefl 0 hBoth.1
      | succ n =>
        rw [and_iff_right (Nat.succ_pos n)]
        exact Sliding.between_lt_iff h.sorted hNewest n
    rcases step_cases state cap call hKey with
      ⟨hAllowed, -, hNew⟩ | ⟨entry, hEntry, hRunning, ⟨hRefused, hFull⟩ | ⟨hAllowed, hRoom, -⟩⟩
    · rw [hAllowedIff hAllowed]
      constructor
      · rintro ⟨hPositive, hLate⟩
        exact ⟨fun _ => hPositive, fun entry _ _ _ _ => hLate⟩
      · intro hSpaced
        have hPositive := hSpaced.positive hKey
        refine ⟨hPositive, ?_⟩
        rcases hNew with hNone | ⟨entry, hEntry, hExpired⟩
        · rw [h.unknown hNone]
          exact fun t hAt => nomatch hAt
        · exact h.late_of_expired hPositive hEntry hExpired
    · have hRecent := h.recent_of_full hEntry hNewest hRunning
      have hSome := (h.window entry hEntry).2
      have hPositive : 0 < cap := by
        have hAll := hCapped (call.now - COMPACTION_WINDOW_MS) call.now (by omega)
        have hCount : 1 ≤ entry.count := by
          obtain ⟨later, earlier, -, hLength⟩ := hSome
          omega
        have hLe : state.recent key call.now ≤ cap := Int.ofNat_le.mp hAll
        omega
      refine iff_of_true ⟨?_, fun _ => step_of_refused hRefused, fun _ hRoom => ?_⟩
        ⟨fun _ => hPositive, fun entry' _ hEntry' _ hRoom => ?_⟩
      · rw [step_of_refused hRefused]
        exact hCapped
      · omega
      · rw [hEntry] at hEntry'
        cases hEntry'
        omega
    · rw [hAllowedIff hAllowed]
      constructor
      · rintro ⟨hPositive, hLate⟩
        exact ⟨fun _ => hPositive, fun entry _ _ _ _ => hLate⟩
      · intro hSpaced
        exact ⟨hSpaced.positive hKey, hSpaced.late entry hKey hEntry hRunning hRoom⟩
  · obtain ⟨-, hTimes⟩ := @step_of_other cap key state call hKey
    refine iff_of_true ⟨hTimes.symm ▸ hCapped, step_of_refused, fun hSame => absurd hSame hKey⟩
      ⟨fun hSame => absurd hSame hKey, fun entry hSame => absurd hSame hKey⟩

/-! ## Every run -/

/-- **The cap holds in every interval of the window's length, no refusal uses it up and no call
with room is refused, if and only if each call is spaced.** -/
theorem keepsCap_run_iff (cap : Nat) (key : String) {calls : List CompactCall}
    (hTimes : calls.Pairwise fun a b => a.now ≤ b.now) :
    Run.Along (step cap) (KeepsCap cap key) start calls ↔
      Run.Along (step cap) (Spaced cap key) start calls := by
  suffices hAll : ∀ state, Counted cap key state →
      Sliding.Capped COMPACTION_WINDOW_MS cap (state.times key) →
        (∀ call ∈ calls, ∀ t ∈ state.times key, t ≤ call.now) →
          (Run.Along (step cap) (KeepsCap cap key) state calls ↔
            Run.Along (step cap) (Spaced cap key) state calls) by
    refine hAll start (counted_start cap key) (fun first last _ => ?_) fun _ _ t ht => nomatch ht
    exact Int.natCast_nonneg cap
  induction calls with
  | nil => exact fun _ _ _ _ => Iff.rfl
  | cons call calls ih =>
    obtain ⟨hLater, hRest⟩ := List.pairwise_cons.mp hTimes
    intro state hCounted hCapped hNow
    have hFirst : ∀ t ∈ state.times key, t ≤ call.now := hNow call List.mem_cons_self
    have hIff := keepsCap_iff hCounted hCapped fun _ => hFirst
    rw [Run.Along, Run.Along, ← hIff]
    refine and_congr_right fun hKeeps => ?_
    refine ih hRest _ (hCounted.step fun _ => hFirst) hKeeps.capped fun later hMem t ht => ?_
    have hOld : t = call.now ∨ t ∈ state.times key := by
      unfold times step at ht
      dsimp only at ht
      split at ht
      · obtain ⟨c, hc, rfl⟩ := List.mem_map.mp ht
        rcases List.mem_cons.mp (List.mem_filter.mp hc).1 with rfl | hMem
        · exact .inl rfl
        · exact .inr (List.mem_map.mpr ⟨c, List.mem_filter.mpr ⟨hMem,
            (List.mem_filter.mp hc).2⟩, rfl⟩)
      · exact .inr ht
    rcases hOld with rfl | hOld
    · exact hLater later hMem
    · exact hNow later (List.mem_cons_of_mem _ hMem) t hOld

theorem keepsCap_run_iff_spread :
    Run.Along (step 2) (KeepsCap 2 "a") start [⟨"a", 0⟩, ⟨"b", 1000⟩, ⟨"a", 2000⟩, ⟨"a", 400000⟩] ↔
      Run.Along (step 2) (Spaced 2 "a") start [⟨"a", 0⟩, ⟨"b", 1000⟩, ⟨"a", 2000⟩, ⟨"a", 400000⟩] :=
  keepsCap_run_iff 2 "a" (by decide)

/-- Calls on both sides of a renewal: three within two seconds. -/
theorem not_keepsCap_run : ¬ Run.Along (step 2) (KeepsCap 2 "a") start
    [⟨"a", 0⟩, ⟨"a", 299000⟩, ⟨"a", 300001⟩, ⟨"a", 300002⟩] := by
  rintro ⟨-, -, -, hLast, -⟩
  have hBurst := hLast.capped 299000 300002 (by decide)
  revert hBurst
  decide +kernel

end CapState

end LosslessHermes.CompactCap
