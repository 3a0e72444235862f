import LosslessHermes.Engine.Substitution

/-!
# The anti-thrashing gate

`should_compress` backs off after two compressions that saved nothing. No branch of `compress`
measures what it saved, and a reset keeps the history, so that the gate never opens again
(`shouldCompress_run`).
-/

namespace LosslessHermes

/-- The counters of the usage of a response, where `None` is `0`. -/
structure Usage where
  promptTokens : Option Int
  inputTokens : Option Int
  completionTokens : Option Int
  outputTokens : Option Int
  totalTokens : Option Int
  cacheReadTokens : Option Int
  cacheWriteTokens : Option Int
  cacheReadInputTokens : Option Int
  cacheCreationInputTokens : Option Int
  /-- In `prompt_tokens_details`. -/
  cachedTokens : Option Int

structure EngineTokenState where
  lastPromptTokens : Int
  lastCompletionTokens : Int
  lastTotalTokens : Int
  lastCacheReadTokens : Int
  lastCacheWriteTokens : Int
  cacheAware : Bool
  thresholdTokens : Int
  contextLength : Int
  compressionCount : Nat
  /-- The tokens before and after each compression, the newest last. -/
  compressionHistory : List (Int × Int)

/-- The `maxlen` of the history. -/
def historyLength : Nat := 16

def ineffectiveRunLength : Nat := 2

/-- The quotient of doubles is below `0.10` as the fraction is, for counts below `2 ^ 53`. -/
def isIneffective (before after : Int) : Bool :=
  if before ≤ 0 then true
  else if before ≤ after then true
  else 10 * (before - after) < before

/-- The calls of a host. A turn asks `should_compress` before it compresses. -/
inductive HostCall
  | updateFromResponse (usage : Usage)
  | updateModel (contextLength : Int)
  | onSessionReset
  | compress (currentTokens : Option Int) (raises : Bool)
  | turn (promptTokens currentTokens : Option Int) (raises : Bool)

namespace EngineTokenState

def start : EngineTokenState := ⟨0, 0, 0, 0, 0, false, 0, 0, 0, []⟩

def updateFromResponse (s : EngineTokenState) (usage : Usage) : EngineTokenState :=
  let prompt := (usage.promptTokens.or usage.inputTokens).getD 0
  let completion := (usage.completionTokens.or usage.outputTokens).getD 0
  let total := usage.totalTokens.getD 0
  let cacheRead := (usage.cacheReadTokens.or usage.cacheReadInputTokens).or usage.cachedTokens
  let cacheWrite := usage.cacheWriteTokens.or usage.cacheCreationInputTokens
  { s with
    lastPromptTokens := prompt
    lastCompletionTokens := completion
    lastTotalTokens := if total = 0 then prompt + completion else total
    lastCacheReadTokens := cacheRead.getD 0
    lastCacheWriteTokens := cacheWrite.getD 0
    cacheAware := cacheRead.isSome || cacheWrite.isSome }

def onSessionReset (s : EngineTokenState) : EngineTokenState :=
  { s with lastPromptTokens := 0, lastCompletionTokens := 0, lastTotalTokens := 0,
           compressionCount := 0 }

/-- The explicit count, or that of the last response. -/
def observed (s : EngineTokenState) (promptTokens : Option Int) : Int :=
  promptTokens.getD s.lastPromptTokens

section Config

-- `thresholdOf` is `int(context_length * threshold_percent)`.
variable (config : AssemblyConfig) (thresholdOf : Int → Int)

/-- `compress` substitutes on every turn. -/
def forced : Bool := config.experimentalAlwaysOnViaCompress && !config.hasPreassemble

def shouldCompress (s : EngineTokenState) (promptTokens : Option Int) : Bool :=
  if forced config then true
  else if s.thresholdTokens ≤ 0 then false
  else if s.observed promptTokens < s.thresholdTokens then false
  else if ineffectiveRunLength ≤ s.compressionHistory.length then
    let recent := s.compressionHistory.drop (s.compressionHistory.length - ineffectiveRunLength)
    !(recent.all fun entry => isIneffective entry.1 entry.2)
  else true

/-- What `compress` records, which is nothing where the substitution raises. -/
def compress (s : EngineTokenState) (currentTokens : Option Int) (raises : Bool) :
    EngineTokenState :=
  if forced config && raises then s
  else
    let before := s.observed currentTokens
    let grown := s.compressionHistory ++ [(before, before)]
    { s with compressionHistory := grown.drop (grown.length - historyLength)
             compressionCount := s.compressionCount + 1 }

def compresses (s : EngineTokenState) : HostCall → Bool
  | .compress .. => true
  | .turn promptTokens _ _ => s.shouldCompress config promptTokens
  | _ => false

def step (s : EngineTokenState) : HostCall → EngineTokenState
  | .updateFromResponse usage => s.updateFromResponse usage
  | .updateModel contextLength =>
      { s with contextLength := contextLength, thresholdTokens := thresholdOf contextLength }
  | .onSessionReset => s.onSessionReset
  | .compress currentTokens raises => s.compress config currentTokens raises
  | .turn promptTokens currentTokens raises =>
      if s.shouldCompress config promptTokens then s.compress config currentTokens raises else s

/-! ## Every compression is ineffective -/

/-- The history after `calls` compressions. -/
def Unmeasured (calls : Nat) (s : EngineTokenState) : Prop :=
  s.compressionHistory.length = min historyLength calls ∧
    ∀ entry ∈ s.compressionHistory, entry.1 = entry.2

variable {config thresholdOf} {s : EngineTokenState} {calls : Nat}

theorem Unmeasured.shouldCompress_iff (h : Unmeasured calls s) (promptTokens : Option Int) :
    s.shouldCompress config promptTokens = true ↔ forced config = true ∨
      0 < s.thresholdTokens ∧ s.thresholdTokens ≤ s.observed promptTokens ∧
        calls < ineffectiveRunLength := by
  have hIneffective : ∀ entry ∈ s.compressionHistory, isIneffective entry.1 entry.2 = true := by
    intro entry hEntry
    rw [isIneffective, h.2 entry hEntry, if_pos le_rfl, ite_self]
  have hLength : ineffectiveRunLength ≤ s.compressionHistory.length ↔
      ¬ calls < ineffectiveRunLength := by
    rw [h.1, historyLength, ineffectiveRunLength]
    omega
  have hAll : (s.compressionHistory.drop (s.compressionHistory.length - ineffectiveRunLength)).all
      (fun entry => isIneffective entry.1 entry.2) = true :=
    List.all_eq_true.mpr fun entry hEntry => hIneffective entry (List.mem_of_mem_drop hEntry)
  simp only [shouldCompress, hAll, hLength]
  grind

theorem Unmeasured.step (hProduction : forced config = false) (h : Unmeasured calls s)
    (call : HostCall) : Unmeasured (calls + if s.compresses config call then 1 else 0)
      (s.step config thresholdOf call) := by
  have hCompress : ∀ currentTokens raises,
      Unmeasured (calls + 1) (s.compress config currentTokens raises) := by
    intro currentTokens raises
    rw [compress, hProduction, Bool.false_and, if_neg Bool.false_ne_true]
    constructor
    · rw [List.length_drop, List.length_append, h.1]
      simp only [List.length_singleton]
      omega
    · intro entry hEntry
      rcases List.mem_append.mp (List.mem_of_mem_drop hEntry) with hOld | hNew
      · exact h.2 entry hOld
      · rw [List.mem_singleton.mp hNew]
  cases call with
  | updateFromResponse usage => exact h
  | updateModel contextLength => exact h
  | onSessionReset => exact h
  | compress currentTokens raises => exact hCompress currentTokens raises
  | turn promptTokens currentTokens raises =>
    rw [compresses, EngineTokenState.step]
    by_cases hAsked : s.shouldCompress config promptTokens = true
    · rw [if_pos hAsked, if_pos hAsked]
      exact hCompress currentTokens raises
    · rw [if_neg hAsked, if_neg hAsked]
      exact h

theorem Unmeasured.run (hProduction : forced config = false) (h : Unmeasured calls s)
    (events : List HostCall) : Unmeasured
      (calls + Run.count (EngineTokenState.step config thresholdOf) (compresses config) s events)
      (Run.final (EngineTokenState.step config thresholdOf) s events) := by
  induction events generalizing s calls with
  | nil => exact h
  | cons call events ih =>
    rw [Run.count, ← Nat.add_assoc]
    exact ih (h.step hProduction call)

/-- **After every run `should_compress` is true exactly if the engine substitutes on every turn, or
the prompt reaches the threshold and `compress` ran less than twice since the engine was made.** -/
theorem shouldCompress_run (events : List HostCall) (promptTokens : Option Int) :
    let s := Run.final (step config thresholdOf) start events
    s.shouldCompress config promptTokens = true ↔ forced config = true ∨
      0 < s.thresholdTokens ∧ s.thresholdTokens ≤ s.observed promptTokens ∧
        Run.count (step config thresholdOf) (compresses config) start events <
          ineffectiveRunLength := by
  intro s
  cases hForced : forced config with
  | true =>
    rw [shouldCompress, if_pos hForced]
    exact iff_of_true rfl (Or.inl rfl)
  | false =>
    have hStart : Unmeasured 0 start := ⟨rfl, fun _ hEntry => nomatch hEntry⟩
    have hRun := @Unmeasured.run config thresholdOf _ _ hForced hStart events
    rw [Nat.zero_add] at hRun
    rw [hRun.shouldCompress_iff, hForced]

end Config

end EngineTokenState

end LosslessHermes
