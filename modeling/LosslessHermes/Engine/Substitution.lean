import LosslessHermes.Assembler.Assemble
import LosslessHermes.Ingest.Cursor

/-!
# Substitution of the live message list

`preassemble` and the experimental branch of `compress` answer with the assembled
context instead of the live list, and set the ingest cursor to its length; a
fallback answers with the live list, less the assistant messages at its end, and
leaves the cursor.

The assembled context comes from the store alone, so a message that is still to be
ingested is not in it. `substitution_carries` says when none of them gets lost.
-/

namespace LosslessHermes

open Json (get?)

structure AssemblyConfig extends EngineConfig where
  environment : Assembler.Environment
  /-- The integer that a float is equal to, if there is one. -/
  integer : FloatText → Option Int
  freshTailCount : Nat
  freshTailMaxTokens : Option Int
  promptAwareEviction : Bool
  maxAssemblyTokenBudget : Option Nat
  contextLength : Nat
  hasPreassemble : Bool
  experimentalAlwaysOnViaCompress : Bool

def sessionKeys : List String := ["session_id", "_session_id", "sender_id"]

/-- `_infer_session_id`: the id on the last message that has one. -/
def inferSessionId (messages : List Json) : SessionId :=
  (messages.reverse.findSome? fun message =>
    match message with
    | .obj fields => firstString fields sessionKeys
    | _ => none).getD ""

/-- `_safe_fallback`, which raises at an entry at the end that is no message. -/
def safeFallback (messages : List Json) : Option (List Json) :=
  dropTrailing messages.reverse
where
  dropTrailing : List Json → Option (List Json)
    | [] => some []
    | .obj fields :: older =>
        if Assembler.roleOf fields = some "assistant" then dropTrailing older
        else some (.obj fields :: older).reverse
    | _ :: _ => none

def defaultTokenBudget : Nat := 128000

section Assemble

variable (config : AssemblyConfig)

def applyAssemblyBudgetCap (budget : Nat) : Nat :=
  match config.maxAssemblyTokenBudget with
  | some cap => if 0 < cap then min budget cap else budget
  | none => budget

def assembleInput (conversationId : ConversationId) (tokenBudget : Nat)
    (prompt : Option String) : Assembler.AssembleInput :=
  { conversationId := conversationId
    tokenBudget := applyAssemblyBudgetCap config tokenBudget
    freshTailCount := config.freshTailCount
    freshTailMaxTokens := config.freshTailMaxTokens
    prompt := prompt
    promptAwareEviction := config.promptAwareEviction
    orphanStrippingOrdinal := none }

/-- The guards on the store in front of the assembly: the conversation to
assemble, if they let the call pass. -/
def assemblyGuards (db : Db) (sessionId : SessionId) (messages : List Json) :
    Option ConversationId :=
  match db.getConversationBySessionId sessionId with
  | none => none
  | some conversation =>
      let contextItems := db.getContextItems conversation.conversationId
      if contextItems.isEmpty then none
      else if !(contextItems.any fun item => item.ref.isSummary) &&
          contextItems.length < messages.length then none
      else some conversation.conversationId

/-- Whether a message is a user turn. -/
def isUserTurn (message : Json) : Bool :=
  match message with
  | .obj fields => Assembler.roleOf fields = some "user"
  | _ => false

/-- `_assemble_locked`: the assembled context, unless it answers with the fallback. -/
def assembleLocked (db : Db) (sessionId : SessionId) (messages : List Json) (tokenBudget : Nat)
    (prompt : Option String) : Option (List Json) :=
  match assemblyGuards db sessionId messages with
  | none => none
  | some conversationId =>
      let assembled := (Assembler.assemble config.environment db
        (assembleInput config conversationId tokenBudget prompt)).messages
      if assembled.isEmpty && !messages.isEmpty then none
      else if !(assembled.any isUserTurn) && !messages.isEmpty then none
      else some assembled

/-- `_assemble_with_signal`: the list and whether it is a substitution; an
exception inside of it is a fallback. -/
def assembleWithSignal (engine : Engine) (sessionId : SessionId) (messages : List Json)
    (tokenBudget : Nat) (prompt : Option String) (raises : Bool) : Option (List Json × Bool) :=
  let fallback := (safeFallback messages).map fun messages => (messages, false)
  if config.ignoreSessionPatterns.any fun search => search sessionId then fallback
  else if !engine.isOpen || raises then fallback
  else
    match assembleLocked config engine.db sessionId messages tokenBudget prompt with
    | none => fallback
    | some assembled => some (assembled, true)

/-- `_reset_ingest_cursor_after_compaction`. -/
def resetIngestCursorAfterCompaction (engine : Engine) (original result : List Json)
    (sessionId : SessionId) (compactionOccurred : Bool) : Engine :=
  if sessionId = "" then engine
  else if !compactionOccurred then engine
  else if Json.sameItems config.integer result original then engine
  else engine.setCursor sessionId result.length

/-- What a call answers with. -/
structure Substitution where
  engine : Engine
  messages : List Json
  didSubstitute : Bool

/-- The assembly behind both entry points and the reset of the cursor. Where it
raises, the live list comes back. -/
def substituteWith (engine : Engine) (sessionId : SessionId) (messages : List Json)
    (tokenBudget : Nat) (prompt : Option String) (raises : Bool) : Substitution :=
  match assembleWithSignal config engine sessionId messages tokenBudget prompt raises with
  | none => { engine := engine, messages := messages, didSubstitute := false }
  | some (result, didSubstitute) =>
      { engine := resetIngestCursorAfterCompaction config engine messages result sessionId
          didSubstitute
        messages := result
        didSubstitute := didSubstitute }

def preassemble (engine : Engine) (messages : List Json) (budgetTokens : Option Nat)
    (raises : Bool) : Substitution :=
  let sessionId := inferSessionId messages
  if sessionId = "" then { engine := engine, messages := messages, didSubstitute := false }
  else
    let effectiveBudget :=
      match budgetTokens with
      | some (budget + 1) => budget + 1
      | _ => if 0 < config.contextLength then config.contextLength else defaultTokenBudget
    substituteWith config engine sessionId messages effectiveBudget none raises

/-- `compress`, whose other branch passes the live list on. -/
def compress (engine : Engine) (messages : List Json) (currentTokens lastPromptTokens : Nat)
    (focusTopic : Option String) (raises : Bool) : Substitution :=
  if config.experimentalAlwaysOnViaCompress && !config.hasPreassemble then
    let sessionId := inferSessionId messages
    if sessionId = "" then { engine := engine, messages := messages, didSubstitute := false }
    else
      let effectiveBudget :=
        if 0 < config.contextLength then config.contextLength
        else if 0 < currentTokens then currentTokens
        else if 0 < lastPromptTokens then lastPromptTokens
        else defaultTokenBudget
      substituteWith config engine sessionId messages effectiveBudget focusTopic raises
  else { engine := engine, messages := messages, didSubstitute := false }

/-- The two entry points with their arguments. -/
inductive Seam
  | preassemble (budgetTokens : Option Nat)
  | compress (currentTokens lastPromptTokens : Nat) (focusTopic : Option String)

def substitute (seam : Seam) (engine : Engine) (messages : List Json) (raises : Bool) :
    Substitution :=
  match seam with
  | .preassemble budgetTokens => preassemble config engine messages budgetTokens raises
  | .compress currentTokens lastPromptTokens focusTopic =>
      compress config engine messages currentTokens lastPromptTokens focusTopic raises

/-! ## What a substitution keeps -/

/-- The entry point assembles at all. -/
def Seam.enabled (seam : Seam) : Bool :=
  match seam with
  | .preassemble _ => true
  | .compress .. => config.experimentalAlwaysOnViaCompress && !config.hasPreassemble

/-- The guards in front of the assembly let the call pass. -/
def passesGuards (seam : Seam) (engine : Engine) (messages : List Json) (raises : Bool) : Bool :=
  seam.enabled config && inferSessionId messages ≠ "" &&
    !(config.ignoreSessionPatterns.any fun search => search (inferSessionId messages)) &&
    engine.isOpen && !raises &&
    (assemblyGuards engine.db (inferSessionId messages) messages).isSome

/-- The messages of the live list that are still to be ingested. -/
def pending (engine : Engine) (messages : List Json) : List Json :=
  (messages.drop (engine.cursor (inferSessionId messages))).filter fun entry =>
    (persistable entry).isSome

variable {config}

theorem assembleLocked_eq_some {db : Db} {sessionId : SessionId} {messages assembled : List Json}
    {tokenBudget : Nat} {prompt : Option String}
    (h : assembleLocked config db sessionId messages tokenBudget prompt = some assembled) :
    (assemblyGuards db sessionId messages).isSome = true ∧
      ∃ input, assembled = (Assembler.assemble config.environment db input).messages := by
  unfold assembleLocked at h
  split at h
  · cases h
  · rename_i conversationId hGuards
    refine ⟨by rw [hGuards]; rfl, assembleInput config conversationId tokenBudget prompt, ?_⟩
    dsimp only at h
    split at h
    · cases h
    · split at h
      · cases h
      · exact (Option.some.inj h).symm

theorem substituteWith_didSubstitute {engine : Engine} {sessionId : SessionId}
    {messages : List Json} {tokenBudget : Nat} {prompt : Option String} {raises : Bool}
    (h : (substituteWith config engine sessionId messages tokenBudget prompt
      raises).didSubstitute = true) :
    config.ignoreSessionPatterns.any (fun search => search sessionId) = false ∧
      engine.isOpen = true ∧ raises = false ∧
      (assemblyGuards engine.db sessionId messages).isSome = true ∧
      ∃ input, (substituteWith config engine sessionId messages tokenBudget prompt
        raises).messages = (Assembler.assemble config.environment engine.db input).messages := by
  unfold substituteWith at h ⊢
  cases hSignal : assembleWithSignal config engine sessionId messages tokenBudget prompt raises with
  | none =>
    rw [hSignal] at h
    cases h
  | some answer =>
    obtain ⟨result, didSubstitute⟩ := answer
    rw [hSignal] at h
    obtain rfl : didSubstitute = true := h
    have hFallback : ∀ {P : Prop}, (safeFallback messages).map (fun messages => (messages, false))
        = some (result, true) → P := by
      intro P hEq
      obtain ⟨_, -, hPair⟩ := Option.map_eq_some_iff.mp hEq
      cases hPair
    unfold assembleWithSignal at hSignal
    dsimp only at hSignal ⊢
    split at hSignal
    · exact hFallback hSignal
    · rename_i hIgnored
      split at hSignal
      · exact hFallback hSignal
      · rename_i hStores
        cases hLocked : assembleLocked config engine.db sessionId messages tokenBudget prompt with
        | none =>
          rw [hLocked] at hSignal
          exact hFallback hSignal
        | some assembled =>
          rw [hLocked] at hSignal
          cases hSignal
          obtain ⟨hGuards, hAssembled⟩ := assembleLocked_eq_some hLocked
          simp only [Bool.or_eq_true, Bool.not_eq_true', not_or, Bool.not_eq_false,
            Bool.not_eq_true] at hStores
          exact ⟨by simpa using hIgnored, hStores.1, hStores.2, hGuards, hAssembled⟩

/-- A substitution passed the guards, and its list is the assembled context. -/
theorem substitute_didSubstitute {seam : Seam} {engine : Engine} {messages : List Json}
    {raises : Bool} (h : (substitute config seam engine messages raises).didSubstitute = true) :
    passesGuards config seam engine messages raises = true ∧
      ∃ input, (substitute config seam engine messages raises).messages =
        (Assembler.assemble config.environment engine.db input).messages := by
  have hPasses : ∀ {tokenBudget : Nat} {prompt : Option String}, seam.enabled config = true →
      inferSessionId messages ≠ "" →
      (substituteWith config engine (inferSessionId messages) messages tokenBudget prompt
        raises).didSubstitute = true →
      passesGuards config seam engine messages raises = true ∧
        ∃ input, (substituteWith config engine (inferSessionId messages) messages tokenBudget
          prompt raises).messages =
            (Assembler.assemble config.environment engine.db input).messages := by
    intro tokenBudget prompt hEnabled hSession hDid
    obtain ⟨hIgnored, hOpen, hRaises, hGuards, hMessages⟩ := substituteWith_didSubstitute hDid
    refine ⟨?_, hMessages⟩
    simp [passesGuards, hEnabled, hSession, hIgnored, hOpen, hRaises, hGuards]
  cases seam with
  | preassemble budgetTokens =>
    dsimp only [substitute, preassemble] at h ⊢
    split
    · rename_i hSession
      rw [if_pos hSession] at h
      cases h
    · rename_i hSession
      rw [if_neg hSession] at h
      exact hPasses rfl hSession h
  | compress currentTokens lastPromptTokens focusTopic =>
    dsimp only [substitute, compress] at h ⊢
    split
    · rename_i hEnabled
      rw [if_pos hEnabled] at h
      split
      · rename_i hSession
        rw [if_pos hSession] at h
        cases h
      · rename_i hSession
        rw [if_neg hSession] at h
        exact hPasses hEnabled hSession h
    · rename_i hEnabled
      rw [if_neg hEnabled] at h
      cases h

variable (config)

end Assemble

/-! ## A call on a fixed input -/

def plainEnvironment : Assembler.Environment :=
  { canonical := id, partId := fun _ => "", formatDate := fun _ => "" }

def plainAssemblyConfig : AssemblyConfig :=
  { plainConfig with
    environment := plainEnvironment
    integer := fun _ => none
    freshTailCount := 64
    freshTailMaxTokens := none
    promptAwareEviction := false
    maxAssemblyTokenBudget := none
    contextLength := 0
    hasPreassemble := true
    experimentalAlwaysOnViaCompress := false }

/-- A message as the host hands it over, with the session that it belongs to. -/
def sessionMessage (text : String) : Json :=
  .obj [("role", .str "user"), ("content", .str text), ("session_id", .str "s")]

end LosslessHermes
