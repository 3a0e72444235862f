import LosslessHermes.Doctor.Contents
import LosslessHermes.Library.Terminated
import LosslessHermes.Synthesis.Latch
import LosslessHermes.Synthesis.PromptRegistry

/-!
# What a cached synthesis was made from

Calls, registrations of prompts and repairs in any order, down to the steps of a call, which
looks its prompt up again for the dispatch and sets its row ready under what it then found.
`History` records on the side what a source text and the content of a row were made from.

The key has the ids of the leaves and not their contents, so that a repair of a leaf leaves the
old row in use (`answers_run`).
-/

namespace LosslessHermes

open Doctor PromptRegistry
open Dispatch (MemoryType)

/-! ## The fingerprint -/

def hasNul (leafId : SummaryId) : Bool :=
  leafId.toList.contains '\x00'

/-- `hash` is of the UTF-8 bytes of a text, cut to its first 24 digits. -/
def leafFingerprint (hash : List Char → String) (leafIds : List SummaryId) : String :=
  hash (terminated '\x00' (leafIds.map String.toList))

theorem leafFingerprint_inj {hash : List Char → String} (hHash : Function.Injective hash)
    {leafIds leafIds' : List SummaryId} (h : leafIds.any hasNul = false)
    (h' : leafIds'.any hasNul = false)
    (hEq : leafFingerprint hash leafIds = leafFingerprint hash leafIds') : leafIds = leafIds' := by
  have hFree : ∀ {ids : List SummaryId}, ids.any hasNul = false →
      ∀ word ∈ ids.map String.toList, '\x00' ∉ word := by
    intro ids hIds word hWord hMark
    obtain ⟨leafId, hId, rfl⟩ := List.mem_map.mp hWord
    exact List.any_eq_false.mp hIds leafId hId (List.contains_iff_mem.mpr hMark)
  have hWords := terminated_inj (hFree h) (hFree h') (hHash hEq)
  exact List.map_injective_iff.mpr (fun _ _ => String.toList_inj.mp) hWords

/-! ## The state -/

structure CacheEnv where
  iso : Timestamp → String
  hash : List Char → String
  doctor : DoctorEnv

def CacheEnv.texts (env : CacheEnv) : CacheTexts :=
  ⟨env.iso, leafFingerprint env.hash⟩

/-- The leaves of a source text, and how many rewrites there had been when they were read. -/
structure SourceRead where
  leaves : List (SummaryId × String)
  readAt : Nat
  deriving DecidableEq

/-- What a content was made from. -/
structure TextOrigin where
  text : String
  sessionKey : String
  tierLabel : String
  promptId : String
  source : SourceRead
  deriving DecidableEq

structure History where
  /-- Every summary that a repair has rewritten, in order. -/
  rewritten : List SummaryId
  reads : Nat → Option SourceRead
  /-- By the id of the row. -/
  origins : String → Option TextOrigin

structure CacheState where
  synthesis : SynthesisState
  prompts : List PromptRow
  summariesFts : Option (List SummaryFtsRow)
  summariesFtsCjk : Option (List SummaryFtsRow)
  /-- The prompt that the dispatch of a call found. -/
  dispatched : Nat → Option String
  history : History

inductive CacheAction
  | choose (call : Nat) (cacheId : String) (request : SynthesizeRequest)
  | insertRow (call : Nat) (now : Timestamp) (refused : Bool)
  /-- Up to the model call; `refused` is for the update of a call that finds no prompt. -/
  | dispatch (call : Nat) (refused : Bool)
  | finish (call : Nat) (answer : Except String String) (refused : Bool)
  | recordRef (call : Nat) (refused : Bool)
  | register (opts : RegisterPromptOptions) (generatedId : String)
  | repair (conversationId : ConversationId) (summarize : Option DoctorSummarizeFn)

/-- The rows whose blocks are in the source text. -/
def OperatorDb.chosenRows (db : OperatorDb) (rows : List SummaryRecord) : List SummaryRecord :=
  match (db.buildSourceText rows).2 with
  | some truncatedAt => rows.take truncatedAt
  | none => rows

namespace CacheState

/-- No call, and an empty cache. -/
def start (db : OperatorDb) (prompts : List PromptRow)
    (summariesFts summariesFtsCjk : Option (List SummaryFtsRow)) : CacheState where
  synthesis := .idle db
  prompts := prompts
  summariesFts := summariesFts
  summariesFtsCjk := summariesFtsCjk
  dispatched := fun _ => none
  history := ⟨[], fun _ => none, fun _ => none⟩

def db (state : CacheState) : OperatorDb := state.synthesis.db

def doctorDb (state : CacheState) : DoctorDb where
  toDb := state.db.toDb
  summariesFts := state.summariesFts
  summariesFtsCjk := state.summariesFtsCjk

/-- Both queries of the active prompt, for a tier of the tool. -/
def activePromptId (state : CacheState) (tier : String) : Option String :=
  (getActivePrompt state.prompts .episodicCondensed (some tier) .single).map (·.promptId)

def missingPromptText (tier : String) : String :=
  "[synthesis.dispatch] no active prompt for (memory_type=" ++
    MemoryType.episodicCondensed.text ++ ", tier=" ++ tier ++ ", pass_kind=single)"

def outcomeOf (promptId : String) : Except String String → DispatchOutcome
  | .ok text => .output text promptId
  | .error reason => .failed reason

/-- The database takes the update of a row to `ready`. -/
def SetsRow (state : CacheState) (value : SynthesisCall) (promptId : String) (refused : Bool) :
    Bool :=
  !refused && !state.db.synthesis.takesKey value.cacheId promptId

/-! ## The steps -/

def readSource (state : CacheState) (request : SynthesizeRequest) : SourceRead where
  leaves := (state.db.chosenRows (state.db.selectTimeWindowLeaves request)).map
    fun row => (row.summaryId, row.content)
  readAt := state.history.rewritten.length

def recordRead (history : History) (call : Nat) (source : SourceRead) : History :=
  { history with reads := fun i => if i = call then some source else history.reads i }

/-- A row whose content was set has its origin from the call. -/
def recordOrigin (state : CacheState) (call : Nat) (value : SynthesisCall) (promptId : String)
    (answer : Except String String) (refused : Bool) : History :=
  match answer, state.SetsRow value promptId refused with
  | .ok text, true =>
      { state.history with
        origins := fun cacheId =>
          if cacheId = value.cacheId then
            (state.history.reads call).map fun source =>
              ⟨text, value.key.sessionKey, value.key.tierLabel, promptId, source⟩
          else state.history.origins cacheId }
  | _, _ => state.history

/-- The fingerprint of an id with a NUL raises, and the call is over. -/
def choose (env : CacheEnv) (state : CacheState) (call : Nat) (cacheId : String)
    (request : SynthesizeRequest) : CacheState :=
  let promptId := state.activePromptId request.tierLabel
  match state.synthesis.calls call, startCall env.texts state.db cacheId promptId request with
  | none, some value =>
      if value.leafIds.any hasNul then state
      else
        { state with
          synthesis := state.synthesis.setCall call value
          history := recordRead state.history call (state.readSource request) }
  | _, _ => state

def dispatch (env : CacheEnv) (state : CacheState) (call : Nat) (refused : Bool)
    (value : SynthesisCall) : CacheState :=
  match state.activePromptId value.key.tierLabel with
  | some promptId =>
      { state with
        dispatched := fun i => if i = call then some promptId else state.dispatched i }
  | none =>
      { state with
        synthesis := state.synthesis.step env.texts
          (.finish call (.failed (missingPromptText value.key.tierLabel)) refused) }

def finish (env : CacheEnv) (state : CacheState) (call : Nat) (answer : Except String String)
    (refused : Bool) (value : SynthesisCall) (promptId : String) : CacheState :=
  { state with
    synthesis := state.synthesis.step env.texts (.finish call (outcomeOf promptId answer) refused)
    history := state.recordOrigin call value promptId answer refused }

def repair (env : CacheEnv) (state : CacheState) (conversationId : ConversationId)
    (summarize : Option DoctorSummarizeFn) : CacheState :=
  let repaired := applyScopedDoctorRepair env.doctor state.doctorDb summarize conversationId
  { state with
    synthesis := { state.synthesis with db := { state.db with toDb := repaired.1.toDb } }
    summariesFts := repaired.1.summariesFts
    summariesFtsCjk := repaired.1.summariesFtsCjk
    history := { state.history with
      rewritten := state.history.rewritten ++ repaired.2.repairedIds } }

def step (env : CacheEnv) (state : CacheState) : CacheAction → CacheState
  | .choose call cacheId request => state.choose env call cacheId request
  | .insertRow call now refused =>
      { state with synthesis := state.synthesis.step env.texts (.insertRow call now refused) }
  | .dispatch call refused =>
      match state.synthesis.calls call, state.dispatched call with
      | some value, none =>
          if value.phase = .building then state.dispatch env call refused value else state
      | _, _ => state
  | .finish call answer refused =>
      match state.synthesis.calls call, state.dispatched call with
      | some value, some promptId =>
          if value.phase = .building then state.finish env call answer refused value promptId
          else state
      | _, _ => state
  | .recordRef call refused =>
      { state with synthesis := state.synthesis.step env.texts (.recordRef call refused) }
  | .register opts generatedId =>
      { state with prompts := (registerPrompt state.prompts opts generatedId).1 }
  | .repair conversationId summarize => state.repair env conversationId summarize

/-! ## The answers -/

/-- The content was made from the leaves of the call with their contents of now, under its
session key, its tier and the prompt that it found. -/
structure MadeFor (state : CacheState) (value : SynthesisCall) (cacheId text : String)
    (origin : TextOrigin) : Prop where
  recorded : state.history.origins cacheId = some origin
  text : origin.text = text
  sessionKey : origin.sessionKey = value.key.sessionKey
  tierLabel : origin.tierLabel = value.key.tierLabel
  promptId : origin.promptId = value.key.promptId
  leaves : origin.source.leaves.map (fun leaf => (leaf.1, some leaf.2)) =
    value.leafIds.map fun s => (s, contentOf state.db.toDb s)

/-- The call inserts its row now. -/
def Inserting (state : CacheState) (call : Nat) (value : SynthesisCall) : Prop :=
  state.synthesis.calls call = some value ∧ value.phase = .chosen

/-- A call that is answered from the cache gets what it asks for, and a build that succeeds
leaves its row ready. -/
def AnswersRequests (env : CacheEnv) (state : CacheState) : CacheAction → Prop
  | .insertRow call now false => ∀ value, state.Inserting call value →
      ∀ cacheId text tokens, state.db.synthesis.latchAnswer now value.cacheId value.key
        value.leafIds = .cached cacheId text tokens →
        ∃ origin, state.MadeFor value cacheId text origin
  | .finish call (.ok text) refused => ∀ value, state.synthesis.Building call value →
      ∀ promptId, state.dispatched call = some promptId →
        ∃ row ∈ (state.step env (.finish call (.ok text) refused)).db.synthesis.cache,
          row.cacheId = value.cacheId ∧ row.status = .ready ∧ row.content = some text
  | _ => True

/-- No leaf of a call that finds a ready row was rewritten since the build of the row read
it; the key that a build needs for its row is free, and the update is not refused. -/
def Undisturbed (state : CacheState) : CacheAction → Prop
  | .insertRow call _ false => ∀ value, state.Inserting call value →
      ∀ row ∈ state.db.synthesis.cache, row.status = .ready →
        row.key.indexed = value.key.indexed →
          ∀ origin, state.history.origins row.cacheId = some origin →
            ∀ s ∈ value.leafIds, s ∉ state.history.rewritten.drop origin.source.readAt
  | .finish call (.ok _) refused => ∀ value, state.synthesis.Building call value →
      ∀ promptId, state.dispatched call = some promptId →
        refused = false ∧ state.db.synthesis.takesKey value.cacheId promptId = false
  | _ => True

end CacheState

/-! ## The calls of a step -/

namespace SynthesisState

variable {state state' : SynthesisState} {texts : CacheTexts}

/-- No call is added, and none changes its key or its leaves. -/
def SameCalls (state state' : SynthesisState) : Prop :=
  ∀ call value', state'.calls call = some value' → ∃ value, state.calls call = some value ∧
    value'.key = value.key ∧ value'.leafIds = value.leafIds

theorem sameCalls_refl (state : SynthesisState) : SameCalls state state :=
  fun _ value' h => ⟨value', h, rfl, rfl⟩

variable {call : Nat} {value : SynthesisCall}

theorem sameCalls_setPhase (phase : CallPhase) (hCall : state.calls call = some value)
    (h : state'.calls = (state.setCall call { value with phase := phase }).calls) :
    SameCalls state state' := by
  intro i value' hValue
  rw [h, setCall] at hValue
  dsimp only at hValue
  split at hValue
  · rename_i hSame
    obtain rfl := Option.some.inj hValue
    exact ⟨value, hSame ▸ hCall, rfl, rfl⟩
  · exact ⟨value', hValue, rfl, rfl⟩

theorem insertRow_quiet (call : Nat) (now : Timestamp) (refused : Bool) :
    Quiet state.db (state.step texts (.insertRow call now refused)).db ∧
      SameCalls state (state.step texts (.insertRow call now refused)) := by
  unfold step
  dsimp only
  cases hCall : state.calls call with
  | none => exact ⟨quiet_refl state.db, sameCalls_refl state⟩
  | some value =>
    dsimp only
    split
    · refine ⟨quiet_insertRow call now refused value, ?_⟩
      unfold insertRow
      split
      · exact sameCalls_setPhase _ hCall rfl
      · exact sameCalls_setPhase _ hCall rfl
    · exact ⟨quiet_refl state.db, sameCalls_refl state⟩

theorem recordRef_quiet (call : Nat) (refused : Bool) :
    Quiet state.db (state.step texts (.recordRef call refused)).db ∧
      SameCalls state (state.step texts (.recordRef call refused)) := by
  unfold step
  dsimp only
  cases hCall : state.calls call with
  | none => exact ⟨quiet_refl state.db, sameCalls_refl state⟩
  | some value =>
    dsimp only
    split
    · rename_i rest _
      refine ⟨quiet_recordRef call refused value rest, ?_⟩
      cases rest with
      | nil => exact sameCalls_setPhase _ hCall rfl
      | cons leafId rest =>
        unfold recordRef
        dsimp only
        split
        · exact sameCalls_setPhase _ hCall rfl
        · exact sameCalls_setPhase _ hCall rfl
    · exact ⟨quiet_refl state.db, sameCalls_refl state⟩

theorem finish_sameCalls
    (hCall : state.calls call = some value) (outcome : DispatchOutcome) (refused : Bool) :
    SameCalls state (state.finish call outcome refused value) := by
  unfold finish
  cases outcome with
  | failed reason => cases refused <;> exact sameCalls_setPhase _ hCall rfl
  | output text promptId => cases refused <;> exact sameCalls_setPhase _ hCall rfl

theorem step_finish {call : Nat} {value : SynthesisCall} (h : state.Building call value)
    (outcome : DispatchOutcome) (refused : Bool) :
    state.step texts (.finish call outcome refused) = state.finish call outcome refused value := by
  simp only [step, h.1, h.2, if_true]

theorem finish_failed_quiet (call : Nat) (value : SynthesisCall) (reason : String)
    (refused : Bool) : Quiet state.db (state.finish call (.failed reason) refused value).db := by
  cases refused with
  | true => exact quiet_refl state.db
  | false => exact quiet_markCacheFailed value.cacheId reason

/-- The update to `ready` that the database does not take. -/
theorem finish_kept {text promptId : String} {refused : Bool}
    (h : (!refused && !state.db.synthesis.takesKey value.cacheId promptId) = false) :
    (state.finish call (.output text promptId) refused value).db.synthesis =
      state.db.synthesis := by
  cases refused with
  | true => rfl
  | false =>
    have hTakes : state.db.synthesis.takesKey value.cacheId promptId = true := by
      simpa using h
    exact if_pos hTakes

theorem finish_set {text promptId : String} {refused : Bool}
    (h : (!refused && !state.db.synthesis.takesKey value.cacheId promptId) = true) :
    (state.finish call (.output text promptId) refused value).db.synthesis.cache =
      state.db.synthesis.cache.map fun row =>
        if row.cacheId = value.cacheId then
          { row with
            status := .ready, content := some text, outputTokenCount := estimateTokens text,
            key := { row.key with promptId := promptId }, buildingStartedAt := none }
        else row := by
  obtain ⟨hRefused, hFree⟩ := Bool.and_eq_true_iff.mp h
  rw [Bool.not_eq_true'] at hRefused hFree
  subst hRefused
  exact congrArg SynthesisTables.cache (if_neg (Bool.eq_false_iff.mp hFree))

end SynthesisState

/-! ## What is known of the texts -/

namespace CacheState

variable {env : CacheEnv} {state state' : CacheState}

/-- The contents of the leaves are those that were read, up to the rewrites since; and a leaf
that was rewritten had a marker, which it has no more. -/
structure Tracks (state : CacheState) (source : SourceRead) : Prop where
  le : source.readAt ≤ state.history.rewritten.length
  current : ∀ leaf ∈ source.leaves,
    leaf.1 ∉ state.history.rewritten.drop source.readAt →
      contentOf state.db.toDb leaf.1 = some leaf.2
  replaced : ∀ leaf ∈ source.leaves,
    leaf.1 ∈ state.history.rewritten.drop source.readAt →
      (detectDoctorMarker leaf.2).isSome ∧
        ∃ new, contentOf state.db.toDb leaf.1 = some new ∧ detectDoctorMarker new = none

structure ReadFor (env : CacheEnv) (state : CacheState) (value : SynthesisCall)
    (source : SourceRead) : Prop where
  fingerprint : value.key.leafFingerprint = leafFingerprint env.hash value.leafIds
  noNul : value.leafIds.any hasNul = false
  leaves : source.leaves.map Prod.fst = value.leafIds
  tracks : state.Tracks source

structure MadeRow (env : CacheEnv) (state : CacheState) (row : CacheRow) (origin : TextOrigin) :
    Prop where
  recorded : state.history.origins row.cacheId = some origin
  content : row.content = some origin.text
  sessionKey : origin.sessionKey = row.key.sessionKey
  tierLabel : origin.tierLabel = row.key.tierLabel
  promptId : origin.promptId = row.key.promptId
  fingerprint : row.key.leafFingerprint =
    leafFingerprint env.hash (origin.source.leaves.map Prod.fst)
  noNul : (origin.source.leaves.map Prod.fst).any hasNul = false
  tracks : state.Tracks origin.source

structure Sound (env : CacheEnv) (state : CacheState) : Prop where
  keys : (state.db.summaries.map (·.summaryId)).Nodup
  latched : state.synthesis.Latched
  reads : ∀ call value, state.synthesis.calls call = some value →
    ∃ source, state.history.reads call = some source ∧ ReadFor env state value source
  made : ∀ row ∈ state.db.synthesis.cache, row.status = .ready →
    ∃ origin, MadeRow env state row origin

theorem sound_start (env : CacheEnv) {db : OperatorDb}
    (hKeys : (db.summaries.map (·.summaryId)).Nodup) (prompts : List PromptRow)
    (summariesFts summariesFtsCjk : Option (List SummaryFtsRow)) :
    Sound env (start db prompts summariesFts summariesFtsCjk) where
  keys := hKeys
  latched := SynthesisState.latched_idle db
  reads _ _ h := nomatch h
  made _ hRow := nomatch hRow

/-! ## Steps that rewrite no content -/

variable {source : SourceRead}

theorem Tracks.congr (h : state.Tracks source)
    (hSummaries : state'.db.summaries = state.db.summaries)
    (hRewritten : state'.history.rewritten = state.history.rewritten) : state'.Tracks source := by
  have hContent : ∀ s, contentOf state'.db.toDb s = contentOf state.db.toDb s := by
    intro s
    rw [contentOf, contentOf, Db.getSummary, Db.getSummary, hSummaries]
  constructor
  · rw [hRewritten]
    exact h.le
  · intro leaf hLeaf
    rw [hRewritten, hContent]
    exact h.current leaf hLeaf
  · intro leaf hLeaf
    rw [hRewritten, hContent]
    exact h.replaced leaf hLeaf

variable {value : SynthesisCall}

theorem ReadFor.of_tracks {value' : SynthesisCall}
    (h : ReadFor env state value source) (hKey : value'.key = value.key)
    (hLeaves : value'.leafIds = value.leafIds) (hTracks : state'.Tracks source) :
    ReadFor env state' value' source where
  fingerprint := by
    rw [hKey, hLeaves]
    exact h.fingerprint
  noNul := by
    rw [hLeaves]
    exact h.noNul
  leaves := h.leaves.trans hLeaves.symm
  tracks := hTracks

variable {row : CacheRow}

theorem MadeRow.of_tracks {origin : TextOrigin} (h : MadeRow env state row origin)
    (hRecorded : state'.history.origins row.cacheId = state.history.origins row.cacheId)
    (hTracks : state'.Tracks origin.source) : MadeRow env state' row origin where
  recorded := hRecorded.trans h.recorded
  content := h.content
  sessionKey := h.sessionKey
  tierLabel := h.tierLabel
  promptId := h.promptId
  fingerprint := h.fingerprint
  noNul := h.noNul
  tracks := hTracks

/-- A step of the calls that sets no row ready. -/
theorem Sound.of_quiet (h : Sound env state) (hLatched : state'.synthesis.Latched)
    (hQuiet : SynthesisState.Quiet state.db state'.db)
    (hCalls : SynthesisState.SameCalls state.synthesis state'.synthesis)
    (hHistory : state'.history = state.history) : Sound env state' := by
  have hSummaries : state'.db.summaries = state.db.summaries := by rw [hQuiet.1]
  have hTracks : ∀ {source}, state.Tracks source → state'.Tracks source :=
    fun hSource => hSource.congr hSummaries (by rw [hHistory])
  refine ⟨?_, hLatched, fun call value' hValue => ?_, fun row hRow hReady => ?_⟩
  · rw [hSummaries]
    exact h.keys
  · obtain ⟨value, hCall, hKey, hLeaves⟩ := hCalls call value' hValue
    obtain ⟨source, hSource, hRead⟩ := h.reads call value hCall
    rw [hHistory]
    exact ⟨source, hSource, hRead.of_tracks hKey hLeaves (hTracks hRead.tracks)⟩
  · obtain ⟨origin, hMade⟩ := h.made row (hQuiet.2 row hRow hReady) hReady
    exact ⟨origin, hMade.of_tracks (by rw [hHistory]) (hTracks hMade.tracks)⟩

theorem chosenLeafIds_eq_map (db : OperatorDb) (rows : List SummaryRecord) :
    db.chosenLeafIds rows = (db.chosenRows rows).map (·.summaryId) := by
  unfold OperatorDb.chosenLeafIds OperatorDb.chosenRows
  cases (db.buildSourceText rows).2 <;> rfl

/-- The call that a request starts, and the leaves that it read. -/
theorem startCall_spec {texts : CacheTexts} {db : OperatorDb} {cacheId : String}
    {promptId : Option String} {request : SynthesizeRequest}
    (h : startCall texts db cacheId promptId request = some value) :
    value.phase = .chosen ∧
      value.leafIds = db.chosenLeafIds (db.selectTimeWindowLeaves request) ∧
      value.key.leafFingerprint = texts.fingerprintLeaves value.leafIds ∧
      value.key.sessionKey = request.sessionKey ∧ value.key.tierLabel = request.tierLabel ∧
      promptId = some value.key.promptId := by
  unfold startCall at h
  split at h
  · cases h
  · cases h
  · rename_i hSelect
    cases h
    rw [hSelect]
    exact ⟨rfl, rfl, rfl, rfl, rfl, rfl⟩

theorem chosenRows_subset (db : OperatorDb) (request : SynthesizeRequest) :
    ∀ row ∈ db.chosenRows (db.selectTimeWindowLeaves request), row ∈ db.summaries := by
  intro row hRow
  suffices hSelected : row ∈ db.selectTimeWindowLeaves request from
    (Table.mem_select.mp hSelected).1
  unfold OperatorDb.chosenRows at hRow
  split at hRow
  · exact List.mem_of_mem_take hRow
  · exact hRow

/-- What is read now is tracked. -/
theorem tracks_readSource (hKeys : (state.db.summaries.map (·.summaryId)).Nodup)
    (request : SynthesizeRequest) : state.Tracks (state.readSource request) := by
  have hNone : ∀ s, s ∉ state.history.rewritten.drop (state.readSource request).readAt := by
    intro s hs
    rw [readSource, List.drop_length] at hs
    exact List.not_mem_nil hs
  refine ⟨Nat.le_refl _, fun leaf hLeaf _ => ?_, fun leaf _ hs => absurd hs (hNone leaf.1)⟩
  obtain ⟨row, hRow, rfl⟩ := List.mem_map.mp hLeaf
  rw [contentOf, getSummary_of_mem hKeys (chosenRows_subset state.db request row hRow)]
  rfl

theorem sound_choose (h : Sound env state) (call : Nat) (cacheId : String)
    (request : SynthesizeRequest) : Sound env (state.choose env call cacheId request) := by
  unfold choose
  dsimp only
  cases hCall : state.synthesis.calls call with
  | some value => exact h
  | none =>
    cases hStart : startCall env.texts state.db cacheId
        (state.activePromptId request.tierLabel) request with
    | none => exact h
    | some value =>
      dsimp only
      split
      · exact h
      · rename_i hNul
        obtain ⟨hPhase, hLeaves, hFingerprint, -⟩ := startCall_spec hStart
        have hTracks : ∀ {source : SourceRead}, state.Tracks source → Tracks
            { state with
              synthesis := state.synthesis.setCall call value
              history := recordRead state.history call (state.readSource request) }
            source := fun hSource => hSource.congr rfl rfl
        refine ⟨h.keys, ?_, fun i value' hValue => ?_, fun row hRow hReady => ?_⟩
        · refine SynthesisState.latched_of_kept h.latched
            (SynthesisState.latchesKept_setCall
              (SynthesisState.not_building_of_none hCall) ?_)
          rw [hPhase]
          exact nofun
        · dsimp only [SynthesisState.setCall, recordRead] at hValue ⊢
          split at hValue
          · rename_i hSame
            obtain rfl := Option.some.inj hValue
            rw [if_pos hSame]
            refine ⟨_, rfl, hFingerprint, Bool.not_eq_true _ ▸ hNul, ?_,
              hTracks (tracks_readSource h.keys request)⟩
            rw [hLeaves, chosenLeafIds_eq_map, readSource, List.map_map]
            rfl
          · rename_i hOther
            rw [if_neg hOther]
            obtain ⟨source, hSource, hRead⟩ := h.reads i value' hValue
            exact ⟨source, hSource, hRead.of_tracks rfl rfl (hTracks hRead.tracks)⟩
        · obtain ⟨origin, hMade⟩ := h.made row hRow hReady
          exact ⟨origin, hMade.of_tracks rfl (hTracks hMade.tracks)⟩

theorem sound_insertRow (h : Sound env state) (call : Nat) (now : Timestamp) (refused : Bool) :
    Sound env (state.step env (.insertRow call now refused)) := by
  obtain ⟨hQuiet, hCalls⟩ := @SynthesisState.insertRow_quiet state.synthesis env.texts call now
    refused
  exact h.of_quiet (SynthesisState.latched_step env.texts h.latched (.insertRow call now refused))
    hQuiet hCalls rfl

theorem sound_recordRef (h : Sound env state) (call : Nat) (refused : Bool) :
    Sound env (state.step env (.recordRef call refused)) := by
  obtain ⟨hQuiet, hCalls⟩ := @SynthesisState.recordRef_quiet state.synthesis env.texts call refused
  exact h.of_quiet (SynthesisState.latched_step env.texts h.latched (.recordRef call refused))
    hQuiet hCalls rfl

variable {call : Nat}

/-- A build that ends without an output. -/
theorem sound_failed (h : Sound env state)
    (hBuild : state.synthesis.Building call value) (reason : String) (refused : Bool) :
    Sound env { state with
      synthesis := state.synthesis.step env.texts (.finish call (.failed reason) refused) } := by
  refine h.of_quiet
    (SynthesisState.latched_step env.texts h.latched (.finish call (.failed reason) refused))
    ?_ ?_ rfl
  · show SynthesisState.Quiet state.synthesis.db (state.synthesis.step env.texts _).db
    rw [SynthesisState.step_finish hBuild]
    exact SynthesisState.finish_failed_quiet call value reason refused
  · show SynthesisState.SameCalls state.synthesis (state.synthesis.step env.texts _)
    rw [SynthesisState.step_finish hBuild]
    exact SynthesisState.finish_sameCalls hBuild.1 _ refused

theorem sound_dispatch (h : Sound env state) (call : Nat) (refused : Bool) :
    Sound env (state.step env (.dispatch call refused)) := by
  unfold step
  dsimp only
  split
  · rename_i value hCall _
    split
    · rename_i hPhase
      unfold dispatch
      split
      · exact h.of_quiet h.latched (SynthesisState.quiet_refl _)
          (SynthesisState.sameCalls_refl _) rfl
      · exact sound_failed h ⟨hCall, hPhase⟩ _ refused
    · exact h
  · exact h

/-! ## A build that sets its row -/

theorem Sound.row_of_build (h : Sound env state) (hBuild : state.synthesis.Building call value)
    (hRow : row ∈ state.db.synthesis.cache) (hId : row.cacheId = value.cacheId) :
    row.key.indexed = value.key.indexed ∧ row.status = .building := by
  obtain ⟨held, hHeld, hHeldId, hKey, hStatus⟩ := h.latched.held call value hBuild
  obtain rfl := List.inj_on_of_nodup_map h.latched.ids hHeld hRow (hHeldId.trans hId.symm)
  exact ⟨hKey, hStatus⟩

theorem sound_output (h : Sound env state)
    (hBuild : state.synthesis.Building call value) (text promptId : String) (refused : Bool) :
    Sound env (state.finish env call (.ok text) refused value promptId) := by
  have hLatched := SynthesisState.latched_step env.texts h.latched
    (.finish call (.output text promptId) refused)
  have hStep : (state.finish env call (.ok text) refused value promptId).synthesis =
      state.synthesis.finish call (.output text promptId) refused value :=
    @SynthesisState.step_finish state.synthesis env.texts call value hBuild _ refused
  have hCalls : SynthesisState.SameCalls state.synthesis
      (state.finish env call (.ok text) refused value promptId).synthesis := by
    rw [hStep]
    exact SynthesisState.finish_sameCalls hBuild.1 _ refused
  have hOther : (state.finish env call (.ok text) refused value promptId).db =
      { state.db with synthesis :=
        (state.finish env call (.ok text) refused value promptId).db.synthesis } := by
    unfold db
    rw [hStep]
    cases refused <;> rfl
  cases hSets : state.SetsRow value promptId refused with
  | false =>
    have hHistory : (state.finish env call (.ok text) refused value promptId).history =
        state.history := by
      simp only [finish, recordOrigin, hSets]
    refine h.of_quiet hLatched ⟨hOther, fun row hRow _ => ?_⟩ hCalls hHistory
    rw [db, hStep, SynthesisState.finish_kept hSets] at hRow
    exact hRow
  | true =>
    obtain ⟨source, hSource, hRead⟩ := h.reads call value hBuild.1
    have hHistory : (state.finish env call (.ok text) refused value promptId).history =
        { state.history with
          origins := fun cacheId =>
            if cacheId = value.cacheId then
              some ⟨text, value.key.sessionKey, value.key.tierLabel, promptId, source⟩
            else state.history.origins cacheId } := by
      simp only [finish, recordOrigin, hSets, hSource, Option.map_some]
    have hTracks : ∀ {source : SourceRead}, state.Tracks source →
        (state.finish env call (.ok text) refused value promptId).Tracks source := by
      intro source hTracked
      exact hTracked.congr (by rw [hOther]) (by rw [hHistory])
    refine ⟨?_, hLatched, fun i value' hValue => ?_, fun new hNew hReady => ?_⟩
    · rw [hOther]
      exact h.keys
    · obtain ⟨old, hOld, hKey, hLeaves⟩ := hCalls i value' hValue
      obtain ⟨source', hSource', hRead'⟩ := h.reads i old hOld
      rw [hHistory]
      exact ⟨source', hSource', hRead'.of_tracks hKey hLeaves (hTracks hRead'.tracks)⟩
    · rw [db, hStep, SynthesisState.finish_set hSets] at hNew
      obtain ⟨row, hRow, rfl⟩ := List.mem_map.mp hNew
      by_cases hId : row.cacheId = value.cacheId
      · rw [if_pos hId]
        have hKey := (h.row_of_build hBuild hRow hId).1
        have hFields : value.key.sessionKey = row.key.sessionKey ∧
            value.key.tierLabel = row.key.tierLabel ∧
            row.key.leafFingerprint = value.key.leafFingerprint :=
          ⟨(congrArg CacheKey.sessionKey hKey).symm, (congrArg CacheKey.tierLabel hKey).symm,
            (congrArg CacheKey.leafFingerprint hKey :)⟩
        refine ⟨⟨text, value.key.sessionKey, value.key.tierLabel, promptId, source⟩,
          ?_, rfl, hFields.1, hFields.2.1, rfl, ?_, ?_, hTracks hRead.tracks⟩
        · rw [hHistory]
          exact if_pos hId
        · rw [hRead.leaves, ← hRead.fingerprint]
          exact hFields.2.2
        · rw [hRead.leaves]
          exact hRead.noNul
      · rw [if_neg hId] at hReady ⊢
        obtain ⟨origin, hMade⟩ := h.made row hRow hReady
        refine ⟨origin, hMade.of_tracks ?_ (hTracks hMade.tracks)⟩
        rw [hHistory]
        exact if_neg hId

theorem sound_finish (h : Sound env state) (call : Nat) (answer : Except String String)
    (refused : Bool) : Sound env (state.step env (.finish call answer refused)) := by
  unfold step
  dsimp only
  split
  · rename_i value promptId hCall _
    split
    · rename_i hPhase
      cases answer with
      | error reason => exact sound_failed h ⟨hCall, hPhase⟩ reason refused
      | ok text => exact sound_output h ⟨hCall, hPhase⟩ text promptId refused
    · exact h
  · exact h

/-! ## A repair -/

theorem Tracks.repair (h : state.Tracks source) {after : Db}
    {ids : List SummaryId} (hRewrites : Doctor.Rewrites state.db.toDb after ids)
    (hAfter : state'.db.toDb = after)
    (hRewritten : state'.history.rewritten = state.history.rewritten ++ ids) :
    state'.Tracks source := by
  have hDrop : state'.history.rewritten.drop source.readAt =
      state.history.rewritten.drop source.readAt ++ ids := by
    rw [hRewritten, List.drop_append_of_le_length h.le]
  subst hAfter
  refine ⟨?_, fun leaf hLeaf hNot => ?_, fun leaf hLeaf hMem => ?_⟩
  · rw [hRewritten, List.length_append]
    exact h.le.trans (Nat.le_add_right _ _)
  · rw [hDrop, List.mem_append, not_or] at hNot
    rw [hRewrites.kept leaf.1 hNot.2]
    exact h.current leaf hLeaf hNot.1
  · rw [hDrop, List.mem_append] at hMem
    by_cases hNow : leaf.1 ∈ ids
    · obtain ⟨old, new, hOld, hNew, hMarked, hUnmarked⟩ := hRewrites.replaced leaf.1 hNow
      refine ⟨?_, new, hNew, hUnmarked⟩
      by_cases hBefore : leaf.1 ∈ state.history.rewritten.drop source.readAt
      · exact (h.replaced leaf hLeaf hBefore).1
      · rw [h.current leaf hLeaf hBefore] at hOld
        obtain rfl := Option.some.inj hOld
        exact hMarked
    · rw [hRewrites.kept leaf.1 hNow]
      exact h.replaced leaf hLeaf (hMem.resolve_right hNow)

theorem sound_repair (h : Sound env state) (c : ConversationId)
    (summarize : Option DoctorSummarizeFn) : Sound env (state.repair env c summarize) := by
  have hRewrites : Doctor.Rewrites state.db.toDb _ _ :=
    @rewrites_repair env.doctor state.doctorDb c h.keys summarize
  have hTracks : ∀ {source : SourceRead}, state.Tracks source →
      (state.repair env c summarize).Tracks source :=
    fun hSource => hSource.repair hRewrites rfl rfl
  refine ⟨?_, ⟨h.latched.ids, h.latched.keys, h.latched.held, h.latched.own⟩,
    fun i value hValue => ?_, fun row hRow hReady => ?_⟩
  · show ((applyScopedDoctorRepair env.doctor state.doctorDb summarize c).1.toDb.summaries.map
      (·.summaryId)).Nodup
    rw [hRewrites.keys]
    exact h.keys
  · obtain ⟨source, hSource, hRead⟩ := h.reads i value hValue
    exact ⟨source, hSource, hRead.of_tracks rfl rfl (hTracks hRead.tracks)⟩
  · obtain ⟨origin, hMade⟩ := h.made row hRow hReady
    exact ⟨origin, hMade.of_tracks rfl (hTracks hMade.tracks)⟩

theorem sound_step (h : Sound env state) (action : CacheAction) :
    Sound env (state.step env action) := by
  cases action with
  | choose call cacheId request => exact sound_choose h call cacheId request
  | insertRow call now refused => exact sound_insertRow h call now refused
  | dispatch call refused => exact sound_dispatch h call refused
  | finish call answer refused => exact sound_finish h call answer refused
  | recordRef call refused => exact sound_recordRef h call refused
  | register opts generatedId =>
    exact h.of_quiet h.latched (SynthesisState.quiet_refl _)
      (SynthesisState.sameCalls_refl _) rfl
  | repair c summarize => exact sound_repair h c summarize

/-! ## The answers of a step -/

theorem lookupCacheRow_congr {db : SynthesisTables} {key key' : CacheKey}
    (h : key.indexed = key'.indexed) : db.lookupCacheRow key = db.lookupCacheRow key' := by
  unfold SynthesisTables.lookupCacheRow
  rw [h]

/-- A call is answered from the cache exactly with a ready row of its key. -/
theorem latchAnswer_cached_iff (h : state.synthesis.Latched) {now : Timestamp}
    {cacheId text : String} :
    (∃ tokens, state.db.synthesis.latchAnswer now value.cacheId value.key value.leafIds =
        .cached cacheId text tokens) ↔
      ∃ row ∈ state.db.synthesis.cache, row.status = .ready ∧
        row.key.indexed = value.key.indexed ∧ row.cacheId = cacheId ∧ row.content = some text := by
  have hTaken : ∀ row ∈ state.db.synthesis.cache, row.key.indexed = value.key.indexed →
      state.db.synthesis.latchAnswer now value.cacheId value.key value.leafIds =
        emitLoserPathResponse (some row) now := by
    intro row hRow hKey
    have hClash : (state.db.synthesis.cache.any fun row =>
        row.cacheId = value.cacheId ∨ row.key.indexed = value.key.indexed) = true :=
      List.any_eq_true.mpr ⟨row, hRow, decide_eq_true (Or.inr hKey)⟩
    rw [SynthesisTables.latchAnswer, SynthesisTables.insertCacheRowSingleFlight, if_pos hClash,
      if_neg Bool.false_ne_true, ← lookupCacheRow_congr hKey]
    exact congrArg (emitLoserPathResponse · now) (SynthesisState.lookupCacheRow_self h.keys hRow)
  constructor
  · rintro ⟨tokens, hAnswer⟩
    cases hLookup : state.db.synthesis.lookupCacheRow value.key with
    | none =>
      rw [SynthesisTables.latchAnswer, hLookup] at hAnswer
      split at hAnswer
      · cases hAnswer
      · cases hAnswer
    | some row =>
      obtain ⟨hRow, hKey⟩ := SynthesisState.lookupCacheRow_eq hLookup
      rw [hTaken row hRow hKey, emitLoserPathResponse] at hAnswer
      split at hAnswer
      · rename_i hStatus hText
        cases hAnswer
        exact ⟨row, hRow, hStatus, hKey, rfl, hText⟩
      · cases hAnswer
      · cases hAnswer
  · rintro ⟨row, hRow, hStatus, hKey, rfl, hText⟩
    refine ⟨row.outputTokenCount, ?_⟩
    rw [hTaken row hRow hKey, emitLoserPathResponse, hStatus, hText]

/-- The row of a key was made for a call if and only if none of its leaves was rewritten since
they were read. -/
theorem madeFor_iff (hHash : Function.Injective env.hash) (h : Sound env state)
    (hCall : state.synthesis.calls call = some value)
    {origin : TextOrigin} (hMade : MadeRow env state row origin)
    (hKey : row.key.indexed = value.key.indexed) :
    state.MadeFor value row.cacheId origin.text origin ↔
      ∀ s ∈ value.leafIds, s ∉ state.history.rewritten.drop origin.source.readAt := by
  obtain ⟨source, -, hRead⟩ := h.reads call value hCall
  have hLeaves : origin.source.leaves.map Prod.fst = value.leafIds := by
    refine leafFingerprint_inj hHash hMade.noNul hRead.noNul ?_
    rw [← hMade.fingerprint, ← hRead.fingerprint]
    exact (congrArg CacheKey.leafFingerprint hKey :)
  have hNow : origin.source.leaves.map (fun leaf => (leaf.1, some leaf.2)) =
      (value.leafIds.map fun s => (s, contentOf state.db.toDb s)) ↔
        ∀ leaf ∈ origin.source.leaves, contentOf state.db.toDb leaf.1 = some leaf.2 := by
    rw [← hLeaves, List.map_map]
    refine List.map_inj_left.trans (forall₂_congr fun leaf _ => ?_)
    rw [Function.comp_apply, Prod.mk.injEq, and_iff_right rfl, eq_comm]
  constructor
  · intro hFor s hs hRewritten
    rw [← hLeaves] at hs
    obtain ⟨leaf, hLeaf, rfl⟩ := List.mem_map.mp hs
    obtain ⟨hMarked, new, hNew, hUnmarked⟩ := hMade.tracks.replaced leaf hLeaf hRewritten
    rw [hNow.mp hFor.leaves leaf hLeaf] at hNew
    obtain rfl := Option.some.inj hNew
    rw [hUnmarked] at hMarked
    cases hMarked
  · intro hKept
    refine ⟨hMade.recorded, rfl, hMade.sessionKey.trans ?_, hMade.tierLabel.trans ?_,
      hMade.promptId.trans ?_, hNow.mpr fun leaf hLeaf => ?_⟩
    · exact (congrArg CacheKey.sessionKey hKey :)
    · exact (congrArg CacheKey.tierLabel hKey :)
    · exact (congrArg CacheKey.promptId hKey :)
    · refine hMade.tracks.current leaf hLeaf (hKept leaf.1 ?_)
      rw [← hLeaves]
      exact List.mem_map_of_mem hLeaf

theorem insertRow_iff (hHash : Function.Injective env.hash) (h : Sound env state) (call : Nat)
    (now : Timestamp) (refused : Bool) :
    state.AnswersRequests env (.insertRow call now refused) ↔
      state.Undisturbed (.insertRow call now refused) := by
  cases refused with
  | true => exact Iff.rfl
  | false =>
    refine forall₂_congr fun value hInserting => ?_
    constructor
    · intro hAnswers row hRow hReady hKey origin hOrigin
      obtain ⟨made, hMade⟩ := h.made row hRow hReady
      obtain rfl := Option.some.inj (hOrigin.symm.trans hMade.recorded)
      obtain ⟨tokens, hAnswer⟩ := (latchAnswer_cached_iff h.latched).mpr
        ⟨row, hRow, hReady, hKey, rfl, hMade.content⟩
      obtain ⟨found, hFor⟩ := hAnswers row.cacheId origin.text tokens hAnswer
      obtain rfl := Option.some.inj (hFor.recorded.symm.trans hMade.recorded)
      exact (madeFor_iff hHash h hInserting.1 hMade hKey).mp hFor
    · intro hKept cacheId text tokens hAnswer
      obtain ⟨row, hRow, hReady, hKey, rfl, hText⟩ :=
        (latchAnswer_cached_iff h.latched).mp ⟨tokens, hAnswer⟩
      obtain ⟨origin, hMade⟩ := h.made row hRow hReady
      obtain rfl := Option.some.inj (hText.symm.trans hMade.content)
      exact ⟨origin, (madeFor_iff hHash h hInserting.1 hMade hKey).mpr
        (hKept row hRow hReady hKey origin hMade.recorded)⟩

theorem finish_iff (h : Sound env state) (call : Nat) (answer : Except String String)
    (refused : Bool) : state.AnswersRequests env (.finish call answer refused) ↔
      state.Undisturbed (.finish call answer refused) := by
  cases answer with
  | error reason => exact Iff.rfl
  | ok text =>
    refine forall₂_congr fun value hBuild => forall₂_congr fun promptId hDispatched => ?_
    have hStep : (state.step env (.finish call (.ok text) refused)).db.synthesis =
        (state.synthesis.finish call (.output text promptId) refused value).db.synthesis := by
      have hCall := hBuild.1
      simp only [step, hCall, hDispatched, hBuild.2, if_true]
      exact congrArg (fun s => s.db.synthesis)
        (@SynthesisState.step_finish state.synthesis env.texts call value hBuild _ refused)
    have hSets : refused = false ∧ state.db.synthesis.takesKey value.cacheId promptId = false ↔
        state.SetsRow value promptId refused = true := by
      rw [SetsRow, Bool.and_eq_true, Bool.not_eq_true', Bool.not_eq_true']
    rw [hStep, hSets]
    constructor
    · rintro ⟨row, hRow, hId, hReady, -⟩
      by_contra hNot
      rw [SynthesisState.finish_kept (Bool.eq_false_iff.mpr hNot)] at hRow
      rw [(h.row_of_build hBuild hRow hId).2] at hReady
      cases hReady
    · intro hSet
      obtain ⟨row, hRow, hId, -⟩ := h.latched.held call value hBuild
      rw [SynthesisState.finish_set hSet]
      refine ⟨_, List.mem_map_of_mem hRow, ?_⟩
      rw [if_pos hId]
      exact ⟨hId, rfl, rfl⟩

theorem answersRequests_iff (hHash : Function.Injective env.hash) (h : Sound env state)
    (action : CacheAction) : state.AnswersRequests env action ↔ state.Undisturbed action := by
  cases action with
  | insertRow call now refused => exact insertRow_iff hHash h call now refused
  | finish call answer refused => exact finish_iff h call answer refused
  | choose call cacheId request => exact Iff.rfl
  | dispatch call refused => exact Iff.rfl
  | recordRef call refused => exact Iff.rfl
  | register opts generatedId => exact Iff.rfl
  | repair c summarize => exact Iff.rfl

/-- **Along a run every cached answer answers its request and every build that succeeds leaves
its row ready, exactly if the steps of the run are undisturbed.** -/
theorem answers_run (hHash : Function.Injective env.hash) {db : OperatorDb}
    (hKeys : (db.summaries.map (·.summaryId)).Nodup) (prompts : List PromptRow)
    (summariesFts summariesFtsCjk : Option (List SummaryFtsRow)) (actions : List CacheAction) :
    Run.Along (step env) (AnswersRequests env)
        (start db prompts summariesFts summariesFtsCjk) actions ↔
      Run.Along (step env) Undisturbed
        (start db prompts summariesFts summariesFtsCjk) actions :=
  Run.along_iff_of_invariant (fun _ action h => answersRequests_iff hHash h action)
    (fun _ action h _ => sound_step h action)
    (sound_start env hKeys prompts summariesFts summariesFtsCjk)

/-! ## A repair after a build, and a key that is taken -/

def plainEnv : CacheEnv := ⟨fun _ => "", String.ofList, utcEnv⟩

/-- A leaf that was truncated, with its message. -/
def truncatedLeaf : OperatorDb :=
  OperatorDb.ofDb { leafBelowRoot.toDb with
    summaries := [brokenLeaf], summaryParents := [], contextItems := [] }

def custom (promptId : String) : RegisterPromptOptions :=
  ⟨.episodicCondensed, .single, "\x7b\x7bsource_text\x7d\x7d", some "custom", none, some promptId⟩

def firstInstant : SynthesizeRequest := ⟨"key", 0, 1, [], none, "custom"⟩

/-- The leaf is synthesized, then repaired, then asked for again. -/
def repairedAfterBuild : List CacheAction :=
  [.register (custom "first") "", .choose 0 "cache" firstInstant, .insertRow 0 1 false,
    .dispatch 0 false, .finish 0 (.ok "old") false, .repair 1 (some (answering "short")),
    .choose 1 "next" firstInstant, .insertRow 1 2 false]

/-- A second call builds under a prompt that is registered before the dispatch of the first. -/
def takenWhileBuilding : List CacheAction :=
  [.register (custom "first") "", .choose 0 "cache" firstInstant, .insertRow 0 1 false,
    .register (custom "second") "", .choose 1 "next" firstInstant, .insertRow 1 2 false,
    .dispatch 0 false, .finish 0 (.ok "text") false]

def secondCall : SynthesisCall :=
  ⟨"next", ⟨"key", "", "", "leaf\x00", none, "custom", "first"⟩, ["leaf"], .chosen⟩

theorem injective_plainEnv : Function.Injective plainEnv.hash :=
  fun _ _ h => String.ofList_inj.mp h

theorem keys_truncatedLeaf : (truncatedLeaf.summaries.map (·.summaryId)).Nodup := by
  decide

theorem not_answers_run : Function.Injective plainEnv.hash ∧
    (truncatedLeaf.summaries.map (·.summaryId)).Nodup ∧
    ¬ Run.Along (step plainEnv) (AnswersRequests plainEnv)
      (start truncatedLeaf [] (some []) (some [])) repairedAfterBuild ∧
    ¬ Run.Along (step plainEnv) (AnswersRequests plainEnv)
      (start truncatedLeaf [] (some []) (some [])) takenWhileBuilding := by
  refine ⟨injective_plainEnv, keys_truncatedLeaf, ?_, ?_⟩
  · rintro ⟨-, -, -, -, -, -, -, hAnswers, -⟩
    obtain ⟨origin, hFor⟩ := hAnswers secondCall ⟨by decide +kernel, rfl⟩ "cache" "old" 1
      (by decide +kernel)
    have hOrigin : origin = ⟨"old", "key", "custom", "first", [("leaf", "[Truncated from 9]")], 0⟩ :=
      Option.some.inj (hFor.recorded.symm.trans (by decide +kernel))
    have hLeaves := hFor.leaves
    rw [hOrigin] at hLeaves
    revert hLeaves
    decide +kernel
  · rintro ⟨-, -, -, -, -, -, -, hAnswers, -⟩
    obtain ⟨row, hRow, hId, hReady, -⟩ := hAnswers
      ⟨"cache", ⟨"key", "", "", "leaf\x00", none, "custom", "first"⟩, ["leaf"], .building⟩
      ⟨by decide +kernel, rfl⟩ "second" (by decide +kernel)
    have hNone : ∀ row ∈ (Run.final (step plainEnv) (start truncatedLeaf [] (some []) (some []))
        takenWhileBuilding).db.synthesis.cache, row.status = .building := by
      decide +kernel
    rw [hNone row hRow] at hReady
    cases hReady

theorem answers_run_repairedAfterBuild :
    Run.Along (step plainEnv) (AnswersRequests plainEnv)
        (start truncatedLeaf [] (some []) (some [])) repairedAfterBuild ↔
      Run.Along (step plainEnv) Undisturbed
        (start truncatedLeaf [] (some []) (some [])) repairedAfterBuild :=
  answers_run injective_plainEnv keys_truncatedLeaf [] (some []) (some []) repairedAfterBuild

end CacheState
end LosslessHermes
