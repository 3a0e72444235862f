import LosslessHermes.Tools.Describe
import LosslessHermes.Tools.GrepScope

/-!
# Descriptions under a grant

The calls of a delegated session take their tokens from one grant. A call reads what remains,
inlines what it asks for unless nothing remains, and charges the grant with what it put together.
Then the text is cut and the payload encoded.

`withinGrant_iff`: a sequence of calls charges what it returns, and never more than remains, if
and only if each of its calls is payable.
-/

namespace LosslessHermes.Tools

variable {L : Type}

/-- The manager of the grants: what remains of one, and the ledger after a charge. -/
structure GrantManager (L : Type) where
  remaining : L → String → Option Int
  consume : L → String → Nat → L

/-- A charge is taken off what remains. The ledger may stop at zero. -/
structure GrantManager.Decrements (manager : GrantManager L) : Prop where
  consume : ∀ ledger grantId (tokens : Nat) r, manager.remaining ledger grantId = some r →
    ∃ r', manager.remaining (manager.consume ledger grantId tokens) grantId = some r' ∧
      max r' 0 = max (r - tokens) 0

/-- A call with the ledger before it and its result. The query for the manifest ends within
`fuel` levels. -/
structure Exchange (L : Type) where
  before : L
  ctx : DescribeContext
  db : DescribeDb
  call : DescribeCall
  fuel : Nat
  result : DescribeResult

namespace Exchange

def charged (e : Exchange L) : Nat :=
  (e.result.consumed.map Prod.snd).getD 0

def after (e : Exchange L) (manager : GrantManager L) : L :=
  match e.result.consumed with
  | none => e.before
  | some (grantId, tokens) => manager.consume e.before grantId tokens

/-- The result is that of the handler. -/
def Answered (py : DescribePython) (manager : GrantManager L) (e : Exchange L) : Prop :=
  handleLcmDescribe py e.ctx (manager.remaining e.before) e.fuel e.db e.call = some e.result

end Exchange

/-- A sequence of calls, each with the ledger that the one before it left. -/
def IsDescribeRun (py : DescribePython) (manager : GrantManager L) : L → List (Exchange L) → Prop
  | _, [] => True
  | ledger, e :: rest =>
      e.before = ledger ∧ e.Answered py manager ∧ IsDescribeRun py manager (e.after manager) rest

/-! ## The tokens of an answer -/

/-- `fileTokens` counts a text that has no count of its own. -/
def DescribeLine.tokens (fileTokens : String → Nat) : DescribeLine → Nat
  | .note _ => 0
  | .content text tokenCount => tokenCount.getD (fileTokens text)

def TrimmedText.tokens (fileTokens : String → Nat) (text : TrimmedText) : Nat :=
  (text.kept.map (DescribeLine.tokens fileTokens)).sum

/-- The content of the item, where the text shows it, and the rows of the payload. -/
def DescribeAnswer.tokens (fileTokens : String → Nat) : DescribeAnswer → Nat
  | .raised _ | .refused _ _ => 0
  | .summary payload =>
      payload.text.tokens fileTokens + (payload.children.map (·.tokenCount)).sum +
        (payload.messages.map (·.tokenCount)).sum
  | .file text => text.tokens fileTokens

/-- A call charges what it returns, and that is covered by what remained. -/
structure Exchange.Fair (fileTokens : String → Nat) (remaining : Int) (e : Exchange L) :
    Prop where
  exact : e.charged = e.result.answer.tokens fileTokens
  covered : (e.result.answer.tokens fileTokens : Int) ≤ max remaining 0

structure WithinGrant (fileTokens : String → Nat) (manager : GrantManager L) (grantId : String)
    (granted : Int) (history : List (Exchange L)) : Prop where
  fair : ∀ e ∈ history, ∀ remaining, manager.remaining e.before grantId = some remaining →
    e.Fair fileTokens remaining
  total : ((history.map Exchange.charged).sum : Int) ≤ max granted 0

/-! ## What a call costs -/

/-- The tokens of the children that a call asks for. -/
def requestedChildTokens (py : DescribePython) (db : Db) (args : List (String × Json))
    (itemId : String) (asked : Bool) : Nat :=
  if asked then
    ((fetchChildrenRows db ((visibleChildIds db itemId).take
      (childrenLimit py.toPython args))).map (·.tokenCount)).sum
  else 0

/-- The tokens of the source messages that a call asks for. -/
def requestedMessageTokens (py : DescribePython) (db : Db) (args : List (String × Json))
    (itemId : String) (s : SummaryRecord) (asked : Bool) : Nat :=
  if asked ∧ s.kind = .leaf then
    ((fetchSourceMessages db itemId (messagesLimit py.toPython args)
      (messagesOffset py.toPython args)).map (·.tokenCount)).sum
  else 0

/-- The tokens of the summary itself, where they are within what remains. -/
def baseCost (s : SummaryRecord) (remaining : Int) : Nat :=
  if remaining < s.tokenCount then 0 else s.tokenCount

/-- The tokens of the rows, where something remains. -/
def expansionCost (py : DescribePython) (db : Db) (args : List (String × Json)) (itemId : String)
    (s : SummaryRecord) (remaining : Int) (childrenAsked messagesAsked : Bool) : Nat :=
  if remaining ≤ 0 then 0
  else requestedChildTokens py db args itemId childrenAsked +
    requestedMessageTokens py db args itemId s messagesAsked

/-- The text has room for the content below these lines. -/
def HasRoom (ctx : DescribeContext) (head : List String) (content : String) : Prop :=
  joinedLength (head ++ [content]) ≤ ctx.maxChars

instance (ctx : DescribeContext) (head : List String) (content : String) :
    Decidable (HasRoom ctx head content) :=
  inferInstanceAs (Decidable (_ ≤ _))

/-- The answer for a summary costs nothing, or what it costs remains and is returned. -/
def PayableSummary (py : DescribePython) (ctx : DescribeContext) (db : Db) (budget : TokenBudget)
    (args : List (String × Json)) (itemId : String) (s : SummaryRecord)
    (nodes : List ManifestNode) (remaining : Int) (childrenAsked messagesAsked : Bool) : Prop :=
  let base := baseCost s remaining
  let expansions := expansionCost py db args itemId s remaining childrenAsked messagesAsked
  base + expansions = 0 ∨
    ((base + expansions : Nat) : Int) ≤ remaining ∧ (∀ node ∈ nodes, node.hasTime = false) ∧
      (base = 0 ∨
        HasRoom ctx (headLines py db budget itemId s nodes childrenAsked messagesAsked) s.content)

/-- The exploration summary of a file has no tokens, or is cut from the text. -/
def PayableFile (fileTokens : String → Nat) (py : DescribePython) (ctx : DescribeContext)
    (itemId : String) (row : LargeFileRow) : Prop :=
  ∀ text ∈ row.exploration, fileTokens text = 0 ∨
    ¬ HasRoom ctx (fileHeadLines py itemId row ++ ["", "## Exploration Summary", ""]) text

/-- The condition on a call, by what it is about. -/
def Exchange.Payable (fileTokens : String → Nat) (py : DescribePython)
    (manager : GrantManager L) (remaining : Int) (e : Exchange L) : Prop :=
  match findItem py e.db e.call with
  | .error _ => True
  | .ok (itemId, .file row) => PayableFile fileTokens py e.ctx itemId row
  | .ok (itemId, .summary s) =>
      ∀ childrenAsked messagesAsked subtree,
        readExpandFlags py.toPython e.call.args = .ok (childrenAsked, messagesAsked) →
          e.db.getSummarySubtree subtreeHardCap e.fuel itemId = some subtree →
            PayableSummary py e.ctx e.db.toDb
              (resolveTokenBudget py.toPython e.ctx (manager.remaining e.before) e.call)
              e.call.args itemId s (subtree.map manifestNode) remaining childrenAsked
              messagesAsked

variable {fileTokens : String → Nat} {py : DescribePython} {ctx : DescribeContext} {db : Db}

/-! ## The text -/

/-- The length of lines that go below `total` characters. -/
def lengthBelow (total : Option Nat) (lines : List String) : Nat :=
  (total.map (· + 1)).getD 0 + joinedLength lines

theorem joinedLength_cons_append (line : String) (lines : List String) (last : String) :
    joinedLength (line :: (lines ++ [last])) =
      line.length + 1 + joinedLength (lines ++ [last]) := by
  unfold joinedLength
  simp only [List.map_cons, List.sum_cons, List.length_cons, List.length_append]
  omega

/-- Notes around one line: the text shows its tokens if it has room for it. -/
theorem sum_tokens_keepLines (maxChars : Nat) (total : Option Nat) (before after : List String)
    (line : DescribeLine) :
    ((keepLines maxChars total (before.map .note ++ line :: after.map .note)).map
        (DescribeLine.tokens fileTokens)).sum =
      if lengthBelow total (before ++ [line.text]) ≤ maxChars then line.tokens fileTokens
      else 0 := by
  have hNotes : ∀ (total : Option Nat) (notes : List String),
      ((keepLines maxChars total (notes.map .note)).map
        (DescribeLine.tokens fileTokens)).sum = 0 := by
    intro total notes
    induction notes generalizing total with
    | nil => rfl
    | cons note notes ih =>
      rw [List.map_cons, keepLines]
      split
      · rfl
      · rw [List.map_cons, List.sum_cons, ih]
        rfl
  induction before generalizing total with
  | nil =>
    have hLength : lengthBelow total [line.text] =
        (total.map (· + 1)).getD 0 + line.text.length := by
      simp [lengthBelow, joinedLength]
    rw [List.map_nil, List.nil_append, List.nil_append, keepLines, hLength]
    split
    · rename_i hLarge
      rw [if_neg (Nat.not_le.mpr hLarge)]
      rfl
    · rename_i hFits
      rw [if_pos (Nat.not_lt.mp hFits), List.map_cons, List.sum_cons, hNotes, Nat.add_zero]
  | cons note before ih =>
    have hLength : lengthBelow total (note :: before ++ [line.text]) =
        lengthBelow (some ((total.map (· + 1)).getD 0 + note.length))
          (before ++ [line.text]) := by
      unfold lengthBelow
      rw [List.cons_append, joinedLength_cons_append, Option.map_some, Option.getD_some]
      omega
    have hText : (DescribeLine.note note).text = note := rfl
    rw [List.map_cons, List.cons_append, keepLines, hLength, hText]
    by_cases hLarge : maxChars < (total.map (· + 1)).getD 0 + note.length
    · have hLonger : maxChars < lengthBelow
          (some ((total.map (· + 1)).getD 0 + note.length)) (before ++ [line.text]) := by
        unfold lengthBelow
        rw [Option.map_some, Option.getD_some]
        omega
      rw [if_pos hLarge, if_neg (Nat.not_le.mpr hLonger)]
      rfl
    · rw [if_neg hLarge, List.map_cons, List.sum_cons, ih]
      exact Nat.zero_add _

theorem tokens_truncateLinesToCap (reasonHint : String) (before after : List String)
    (line : DescribeLine) :
    (truncateLinesToCap ctx reasonHint (before.map .note ++ line :: after.map .note)).tokens
        fileTokens =
      if joinedLength (before ++ [line.text]) ≤ ctx.maxChars then line.tokens fileTokens
      else 0 := by
  have hSum := @sum_tokens_keepLines fileTokens ctx.maxChars none before after line
  rw [lengthBelow, Option.map_none, Option.getD_none, Nat.zero_add] at hSum
  exact hSum

/-! ## The budget of a call under a grant -/

section Budget

variable {lookup : String → Option Int} {call : DescribeCall} {remaining : Int}

/-- What the budget of a call under a grant says. -/
structure Granted (budget : TokenBudget) (remaining : Int) : Prop where
  named : budget.grantId ≠ ""
  left : budget.remaining = some remaining
  exhausted : budget.exhausted = true ↔ remaining ≤ 0

/-- A requested cap is at least one, so nothing but the grant brings the cap down to zero. -/
theorem tokenCap_eq_zero_iff (requested : Option Int) :
    max 0 (min ((requested.map fun n => max 1 n).getD remaining) remaining) = 0 ↔
      remaining ≤ 0 := by
  cases requested with
  | none =>
    rw [Option.map_none, Option.getD_none]
    omega
  | some n =>
    rw [Option.map_some, Option.getD_some]
    omega

theorem grantId_resolveTokenBudget :
    (resolveTokenBudget py.toPython ctx lookup call).grantId = call.delegatedGrantId := by
  unfold resolveTokenBudget
  dsimp only

theorem granted_resolveTokenBudget (hNamed : call.delegatedGrantId ≠ "")
    (hLookup : lookup call.delegatedGrantId = some remaining) :
    Granted (resolveTokenBudget py.toPython ctx lookup call) remaining := by
  unfold resolveTokenBudget normalizeRequestedTokenCap
  generalize finiteInt py.toPython (Json.get? call.args "tokenCap") = requested
  generalize call.delegatedGrantId = grantId at *
  dsimp only
  rw [if_neg hNamed, hLookup]
  refine ⟨hNamed, rfl, ?_⟩
  unfold TokenBudget.exhausted
  dsimp only
  rw [decide_eq_true_eq, Option.isSome_some, Option.getD_some, tokenCap_eq_zero_iff]
  exact and_iff_left rfl

theorem Granted.redacts_iff {budget : TokenBudget} (h : Granted budget remaining) (tokens : Nat) :
    budget.redacts tokens = true ↔ remaining < tokens := by
  unfold TokenBudget.redacts
  rw [h.left, Option.any_some, decide_eq_true_eq, decide_eq_true_eq]
  exact and_iff_right h.named

end Budget

/-! ## The rows of a call -/

section Rows

variable {budget : TokenBudget} {remaining : Int} {args : List (String × Json)} {itemId : String}
  {s : SummaryRecord}

theorem rows_inlineChildren : (inlineChildren py db args itemId).rows =
    fetchChildrenRows db ((visibleChildIds db itemId).take (childrenLimit py.toPython args)) := by
  unfold inlineChildren
  dsimp only
  split
  · rename_i hNil
    have hNone : fetchChildrenRows db [] = [] := by
      simp [fetchChildrenRows, Table.select]
    rw [hNil, List.take_nil, hNone]
    split <;> rfl
  · split <;> rfl

theorem rows_inlineMessages : (inlineMessages py db args s itemId).rows =
    if s.kind = .leaf then
      fetchSourceMessages db itemId (messagesLimit py.toPython args)
        (messagesOffset py.toPython args)
    else [] := by
  unfold inlineMessages
  dsimp only
  by_cases hLeaf : s.kind = .leaf
  · rw [if_neg (not_not_intro hLeaf), if_pos hLeaf]
    split
    · rfl
    · split
      · split <;> rfl
      · rfl
  · rw [if_pos hLeaf, if_neg hLeaf]

/-- The rows that are charged are those of `expansionCost`. -/
theorem sum_expansions (h : Granted budget remaining) (childrenAsked messagesAsked : Bool) :
    ((expandChildren py db budget args itemId childrenAsked).rows.map (·.tokenCount)).sum +
        ((expandMessages py db budget args s itemId messagesAsked).rows.map (·.tokenCount)).sum =
      expansionCost py db args itemId s remaining childrenAsked messagesAsked := by
  unfold expandChildren expandMessages expansionCost requestedChildTokens requestedMessageTokens
  by_cases hLeft : remaining ≤ 0
  · rw [if_pos hLeft, if_pos (h.exhausted.mpr hLeft), if_pos (h.exhausted.mpr hLeft)]
    cases childrenAsked <;> cases messagesAsked <;> rfl
  · have hBudget : ¬ budget.exhausted = true := fun hExhausted => hLeft (h.exhausted.mp hExhausted)
    rw [if_neg hLeft, if_neg hBudget, if_neg hBudget]
    congr 1
    · cases childrenAsked with
      | false => rfl
      | true => rw [if_pos rfl, if_pos rfl, rows_inlineChildren]
    · cases messagesAsked with
      | false => rfl
      | true =>
        rw [if_pos rfl, rows_inlineMessages]
        by_cases hLeaf : s.kind = .leaf
        · rw [if_pos hLeaf, if_pos ⟨rfl, hLeaf⟩]
        · rw [if_neg hLeaf, if_neg fun hBoth => hLeaf hBoth.2]
          rfl

/-! ## One call -/

variable {nodes : List ManifestNode} {childrenAsked messagesAsked : Bool}

theorem Granted.baseTokens_eq (h : Granted budget remaining) :
    (if budget.redacts s.tokenCount then 0 else s.tokenCount) = baseCost s remaining := by
  unfold baseCost
  by_cases hLess : remaining < s.tokenCount
  · rw [if_pos hLess, if_pos ((h.redacts_iff _).mpr hLess)]
  · rw [if_neg hLess, if_neg fun hRedacts => hLess ((h.redacts_iff _).mp hRedacts)]

/-- A call charges its cost. -/
theorem consumed_renderSummary (h : Granted budget remaining) :
    ((renderSummary py ctx db budget args itemId s nodes childrenAsked messagesAsked).consumed.map
        Prod.snd).getD 0 =
      baseCost s remaining +
        expansionCost py db args itemId s remaining childrenAsked messagesAsked := by
  unfold renderSummary
  dsimp only
  rw [h.baseTokens_eq, Nat.add_assoc, sum_expansions h]
  generalize baseCost s remaining + _ = cost
  by_cases hPos : 0 < cost
  · rw [if_pos ⟨h.named, hPos⟩]
    rfl
  · rw [if_neg fun hBoth => hPos hBoth.2]
    exact (Nat.eq_zero_of_not_pos hPos).symm

/-- The content line carries the cost of the base where there is room for it. -/
theorem tokens_summaryText (h : Granted budget remaining) (head after : List String) :
    (truncateLinesToCap ctx lowerLimits
        (head.map .note ++ contentLine budget s :: after.map .note)).tokens fileTokens =
      if baseCost s remaining = 0 ∨ HasRoom ctx head s.content then baseCost s remaining
      else 0 := by
  rw [tokens_truncateLinesToCap]
  unfold contentLine baseCost HasRoom
  by_cases hLess : remaining < s.tokenCount
  · rw [if_pos ((h.redacts_iff _).mpr hLess), if_pos hLess]
    exact (ite_self 0).trans (ite_self 0).symm
  · rw [if_neg fun hRedacts => hLess ((h.redacts_iff _).mp hRedacts), if_neg hLess]
    show (if joinedLength (head ++ [s.content]) ≤ ctx.maxChars then s.tokenCount else 0) = _
    by_cases hZero : s.tokenCount = 0
    · rw [hZero, ite_self, ite_self]
    · simp only [hZero, false_or]

theorem tokens_renderSummary (h : Granted budget remaining) :
    (renderSummary py ctx db budget args itemId s nodes childrenAsked
        messagesAsked).answer.tokens fileTokens =
      if nodes.any ManifestNode.hasTime then 0
      else
        (if baseCost s remaining = 0 ∨ HasRoom ctx
            (headLines py db budget itemId s nodes childrenAsked messagesAsked) s.content
          then baseCost s remaining else 0) +
          expansionCost py db args itemId s remaining childrenAsked messagesAsked := by
  unfold renderSummary
  dsimp only
  by_cases hTime : nodes.any ManifestNode.hasTime = true
  · rw [if_pos hTime, if_pos hTime]
    rfl
  · rw [if_neg hTime, if_neg hTime, ← @tokens_summaryText fileTokens ctx budget remaining s h _
      ((expandChildren py db budget args itemId childrenAsked).lines ++
        (expandMessages py db budget args s itemId messagesAsked).lines), ← sum_expansions h]
    exact Nat.add_assoc _ _ _

/-- An expansion costs nothing where nothing remains, and neither does the base. -/
theorem cost_eq_zero (hLeft : remaining ≤ 0) :
    baseCost s remaining +
      expansionCost py db args itemId s remaining childrenAsked messagesAsked = 0 := by
  unfold baseCost expansionCost
  rw [if_pos hLeft]
  split <;> omega

theorem fair_renderSummary_iff (h : Granted budget remaining) (e : Exchange L)
    (hResult : e.result =
      renderSummary py ctx db budget args itemId s nodes childrenAsked messagesAsked) :
    e.Fair fileTokens remaining ↔
      PayableSummary py ctx db budget args itemId s nodes remaining childrenAsked
        messagesAsked := by
  have hCharged : e.charged = baseCost s remaining +
      expansionCost py db args itemId s remaining childrenAsked messagesAsked := by
    unfold Exchange.charged
    rw [hResult, consumed_renderSummary h]
  have hTokens := @tokens_renderSummary fileTokens py ctx db budget remaining args itemId s nodes
    childrenAsked messagesAsked h
  rw [← hResult] at hTokens
  have hNothing := @cost_eq_zero py db remaining args itemId s childrenAsked messagesAsked
  unfold PayableSummary
  dsimp only
  have hNodes : (∀ node ∈ nodes, node.hasTime = false) ↔
      ¬ nodes.any ManifestNode.hasTime = true := by
    simp
  rw [hNodes]
  generalize baseCost s remaining = base at *
  generalize expansionCost py db args itemId s remaining childrenAsked messagesAsked =
    expansions at *
  generalize nodes.any ManifestNode.hasTime = dated at *
  constructor
  · rintro ⟨hExact, hCovered⟩
    rw [hCharged] at hExact
    rw [← hExact] at hCovered
    by_cases hZero : base + expansions = 0
    · exact .inl hZero
    · have hPos : 0 < remaining := Int.not_le.mp fun hLeft => hZero (hNothing hLeft)
      rw [hTokens] at hExact
      refine .inr ⟨by omega, fun hDated => ?_, ?_⟩
      · rw [if_pos hDated] at hExact
        exact hZero hExact
      · by_contra hNoRoom
        rw [if_neg hNoRoom] at hExact
        split at hExact <;> omega
  · rintro (hZero | ⟨hLe, hUndated, hRoom⟩)
    · have hNone : e.result.answer.tokens fileTokens = 0 := by
        rw [hTokens]
        split
        · rfl
        · split <;> omega
      exact ⟨by omega, by omega⟩
    · rw [if_neg hUndated, if_pos hRoom] at hTokens
      exact ⟨by omega, by omega⟩

end Rows

theorem fair_file_iff {itemId : String} {row : LargeFileRow} {remaining : Int} (e : Exchange L)
    (hResult : e.result = { answer := .file (emitFile py ctx itemId row), consumed := none }) :
    e.Fair fileTokens remaining ↔ PayableFile fileTokens py ctx itemId row := by
  have hCharged : e.charged = 0 := by
    unfold Exchange.charged
    rw [hResult]
    rfl
  have hFair : e.Fair fileTokens remaining ↔
      (emitFile py ctx itemId row).tokens fileTokens = 0 := by
    have hTokens : e.result.answer.tokens fileTokens =
        (emitFile py ctx itemId row).tokens fileTokens := by
      rw [hResult]
      rfl
    constructor
    · rintro ⟨hExact, -⟩
      omega
    · intro hZero
      exact ⟨by omega, by omega⟩
  rw [hFair]
  unfold PayableFile emitFile
  cases row.exploration with
  | none =>
    refine iff_of_true ?_ fun text hText => nomatch hText
    have hNote := @tokens_truncateLinesToCap fileTokens ctx largeSummary
      (fileHeadLines py itemId row) ["*No exploration summary available.*"] (.note "")
    exact hNote.trans (ite_self 0)
  | some exploration =>
    have hShown := @tokens_truncateLinesToCap fileTokens ctx largeSummary
      (fileHeadLines py itemId row ++ ["", "## Exploration Summary", ""]) []
      (.content exploration none)
    rw [List.map_append, List.append_assoc] at hShown
    refine (Eq.congr_left hShown).trans ?_
    show (if HasRoom ctx _ exploration then fileTokens exploration else 0) = 0 ↔ _
    simp only [Option.mem_def, Option.some.injEq, forall_eq', ite_eq_right_iff]
    constructor
    · intro hZero
      by_contra hNot
      rw [not_or, not_not] at hNot
      exact hNot.1 (hZero hNot.2)
    · rintro (hNone | hCut) hRoom
      · exact hNone
      · exact absurd hRoom hCut

theorem tokens_of_findItem_error {db : DescribeDb} {call : DescribeCall} {answer : DescribeAnswer}
    (h : findItem py db call = .error answer) : answer.tokens fileTokens = 0 := by
  unfold findItem at h
  split at h
  · cases h
    rfl
  · dsimp only at h
    split at h
    · cases h
      rfl
    · split at h
      · cases h
        rfl
      · split at h
        · cases h
          rfl
        · cases h

theorem grantId_of_consumed_renderSummary {budget : TokenBudget} {args : List (String × Json)}
    {itemId : String} {s : SummaryRecord} {nodes : List ManifestNode}
    {childrenAsked messagesAsked : Bool} {grantId : String} {tokens : Nat}
    (h : (renderSummary py ctx db budget args itemId s nodes childrenAsked
      messagesAsked).consumed = some (grantId, tokens)) : grantId = budget.grantId := by
  unfold renderSummary at h
  obtain ⟨-, hSome⟩ := Option.ite_none_right_eq_some.mp h
  exact (congrArg Prod.fst (Option.some.inj hSome)).symm

namespace Exchange

variable {manager : GrantManager L} {grantId : String} {remaining : Int} {e : Exchange L}

/-- The forms of an exchange. -/
theorem Answered.cases (h : e.Answered py manager) :
    (∃ answer, findItem py e.db e.call = .error answer ∧
      e.result = { answer, consumed := none }) ∨
    (∃ itemId row, findItem py e.db e.call = .ok (itemId, .file row) ∧
      e.result = { answer := .file (emitFile py e.ctx itemId row), consumed := none }) ∨
    ∃ itemId s subtree, findItem py e.db e.call = .ok (itemId, .summary s) ∧
      e.db.getSummarySubtree subtreeHardCap e.fuel itemId = some subtree ∧
        e.result = emitSummary py e.ctx (manager.remaining e.before) e.db.toDb e.call itemId s
          subtree := by
  unfold Answered handleLcmDescribe at h
  split at h
  · rename_i answer hFind
    exact .inl ⟨answer, hFind, (Option.some.inj h).symm⟩
  · rename_i itemId row hFind
    exact .inr (.inl ⟨itemId, row, hFind, (Option.some.inj h).symm⟩)
  · rename_i itemId s hFind
    obtain ⟨subtree, hSubtree, hResult⟩ := Option.map_eq_some_iff.mp h
    exact .inr (.inr ⟨itemId, s, subtree, hFind, hSubtree, hResult.symm⟩)

theorem fair_of_nothing (hNone : e.result.consumed = none)
    (hTokens : e.result.answer.tokens fileTokens = 0) : e.Fair fileTokens remaining := by
  have hCharged : e.charged = 0 := by
    unfold charged
    rw [hNone]
    rfl
  exact ⟨by omega, by omega⟩

/-- A call is fair if and only if it is payable. -/
theorem fair_iff (h : e.Answered py manager) (hNamed : e.call.delegatedGrantId ≠ "")
    (hLeft : manager.remaining e.before e.call.delegatedGrantId = some remaining) :
    e.Fair fileTokens remaining ↔ e.Payable fileTokens py manager remaining := by
  unfold Payable
  obtain ⟨answer, hFind, hResult⟩ | ⟨itemId, row, hFind, hResult⟩ |
    ⟨itemId, s, subtree, hFind, hSubtree, hResult⟩ := h.cases
  · rw [hFind]
    refine iff_of_true (fair_of_nothing ?_ ?_) trivial
    · rw [hResult]
    · rw [hResult]
      exact tokens_of_findItem_error hFind
  · rw [hFind]
    exact fair_file_iff e hResult
  · rw [hFind]
    dsimp only
    unfold emitSummary at hResult
    split at hResult
    · rename_i message hFlags
      refine iff_of_true (fair_of_nothing ?_ ?_) fun _ _ _ hFlags' => ?_
      · rw [hResult]
      · rw [hResult]
        rfl
      · rw [hFlags] at hFlags'
        cases hFlags'
    · rename_i childrenAsked messagesAsked hFlags
      have hGranted := @granted_resolveTokenBudget py e.ctx (manager.remaining e.before) e.call
        remaining hNamed hLeft
      rw [fair_renderSummary_iff hGranted e hResult]
      constructor
      · intro hPayable childrenAsked' messagesAsked' subtree' hFlags' hSubtree'
        rw [hFlags, Except.ok.injEq, Prod.mk.injEq] at hFlags'
        obtain ⟨rfl, rfl⟩ := hFlags'
        rw [hSubtree] at hSubtree'
        cases hSubtree'
        exact hPayable
      · exact fun hPayable => hPayable childrenAsked messagesAsked subtree hFlags hSubtree

theorem grantId_of_consumed (h : e.Answered py manager) {tokens : Nat}
    (hConsumed : e.result.consumed = some (grantId, tokens)) :
    grantId = e.call.delegatedGrantId := by
  obtain ⟨_, _, hResult⟩ | ⟨_, _, _, hResult⟩ | ⟨itemId, s, subtree, _, _, hResult⟩ := h.cases
  · rw [hResult] at hConsumed
    cases hConsumed
  · rw [hResult] at hConsumed
    cases hConsumed
  · rw [hResult] at hConsumed
    unfold emitSummary at hConsumed
    split at hConsumed
    · cases hConsumed
    · exact (grantId_of_consumed_renderSummary hConsumed).trans grantId_resolveTokenBudget

/-- What a call leaves of its grant. -/
theorem remaining_after (hManager : manager.Decrements) (h : e.Answered py manager)
    (hLeft : manager.remaining e.before e.call.delegatedGrantId = some remaining) :
    ∃ r, manager.remaining (e.after manager) e.call.delegatedGrantId = some r ∧
      max r 0 = max (remaining - e.charged) 0 := by
  unfold after charged
  cases hConsumed : e.result.consumed with
  | none => exact ⟨remaining, hLeft, by rw [Option.map_none, Option.getD_none]; omega⟩
  | some consumed =>
    obtain ⟨grantId, tokens⟩ := consumed
    rw [grantId_of_consumed h hConsumed]
    exact hManager.consume e.before _ tokens remaining hLeft

end Exchange

/-! ## A sequence of calls -/

section Runs

variable {manager : GrantManager L} {grantId : String} {history : List (Exchange L)}

theorem answered_of_run {ledger : L} (h : IsDescribeRun py manager ledger history) :
    ∀ e ∈ history, e.Answered py manager := by
  induction history generalizing ledger with
  | nil => exact fun e he => nomatch he
  | cons first rest ih =>
    obtain ⟨-, hFirst, hRest⟩ := h
    exact List.forall_mem_cons.mpr ⟨hFirst, ih hRest⟩

/-- The grant has a remaining budget before each call. -/
theorem exists_remaining_of_run (hManager : manager.Decrements) {ledger : L} {granted : Int}
    (h : IsDescribeRun py manager ledger history)
    (hGrant : ∀ e ∈ history, e.call.delegatedGrantId = grantId)
    (hGranted : manager.remaining ledger grantId = some granted) :
    ∀ e ∈ history, ∃ r, manager.remaining e.before grantId = some r := by
  induction history generalizing ledger granted with
  | nil => exact fun e he => nomatch he
  | cons first rest ih =>
    obtain ⟨rfl, hFirst, hRest⟩ := h
    obtain ⟨hId, hIds⟩ := List.forall_mem_cons.mp hGrant
    subst hId
    obtain ⟨r, hAfter, -⟩ := Exchange.remaining_after hManager hFirst hGranted
    exact List.forall_mem_cons.mpr ⟨⟨granted, hGranted⟩, ih hRest hIds hAfter⟩

/-- Charges that what remains covers, each in its turn, are together covered by the grant. -/
theorem sum_charged_le (hManager : manager.Decrements) {ledger : L} {granted : Int}
    (h : IsDescribeRun py manager ledger history)
    (hGrant : ∀ e ∈ history, e.call.delegatedGrantId = grantId)
    (hGranted : manager.remaining ledger grantId = some granted)
    (hCovered : ∀ e ∈ history, ∀ r, manager.remaining e.before grantId = some r →
      (e.charged : Int) ≤ max r 0) :
    ((history.map Exchange.charged).sum : Int) ≤ max granted 0 := by
  induction history generalizing ledger granted with
  | nil => exact le_max_right granted 0
  | cons first rest ih =>
    obtain ⟨rfl, hFirst, hRest⟩ := h
    obtain ⟨hId, hIds⟩ := List.forall_mem_cons.mp hGrant
    obtain ⟨hPaid, hPaids⟩ := List.forall_mem_cons.mp hCovered
    subst hId
    obtain ⟨r, hAfter, hMax⟩ := Exchange.remaining_after hManager hFirst hGranted
    have hNow := hPaid granted hGranted
    have hLater := ih hRest hIds hAfter hPaids
    rw [List.map_cons, List.sum_cons]
    push_cast at hLater ⊢
    omega

/-- The grant has a remaining budget before each call, and the sequence stays within the grant if
and only if each call is payable. -/
theorem withinGrant_iff (hManager : manager.Decrements) (hNamed : grantId ≠ "") {ledger : L}
    {granted : Int} (hGranted : manager.remaining ledger grantId = some granted)
    (hRun : IsDescribeRun py manager ledger history)
    (hGrant : ∀ e ∈ history, e.call.delegatedGrantId = grantId) :
    (∀ e ∈ history, ∃ remaining, manager.remaining e.before grantId = some remaining) ∧
      (WithinGrant fileTokens manager grantId granted history ↔
        ∀ e ∈ history, ∀ remaining, manager.remaining e.before grantId = some remaining →
          e.Payable fileTokens py manager remaining) := by
  have hFair : ∀ e ∈ history, ∀ remaining, manager.remaining e.before grantId = some remaining →
      (e.Fair fileTokens remaining ↔ e.Payable fileTokens py manager remaining) := by
    intro e he remaining hLeft
    obtain rfl := hGrant e he
    exact Exchange.fair_iff (answered_of_run hRun e he) hNamed hLeft
  refine ⟨exists_remaining_of_run hManager hRun hGrant hGranted, ?_⟩
  constructor
  · intro hWithin e he remaining hLeft
    exact (hFair e he remaining hLeft).mp (hWithin.fair e he remaining hLeft)
  · intro hPayable
    have hEach : ∀ e ∈ history, ∀ remaining,
        manager.remaining e.before grantId = some remaining → e.Fair fileTokens remaining :=
      fun e he remaining hLeft => (hFair e he remaining hLeft).mpr (hPayable e he remaining hLeft)
    refine ⟨hEach, sum_charged_le hManager hRun hGrant hGranted fun e he r hLeft => ?_⟩
    obtain ⟨hExact, hCovered⟩ := hEach e he r hLeft
    rw [hExact]
    exact hCovered

end Runs

/-! ## A large child -/

/-- A ledger of one grant. -/
def oneGrant : GrantManager Int where
  remaining := fun ledger _ => some ledger
  consume := fun ledger _ tokens => ledger - tokens

theorem decrements_oneGrant : oneGrant.Decrements where
  consume := fun ledger _ tokens r h => ⟨r - tokens, by cases h; rfl, rfl⟩

def overview : SummaryRecord :=
  { summaryId := "sum_p", conversationId := 1, kind := .condensed, depth := 1,
    content := "what was decided", tokenCount := 5, fileIds := [], earliestAt := none,
    latestAt := none, descendantCount := 1, descendantTokenCount := 100,
    sourceMessageTokenCount := 0, model := "m", createdAt := 0, suppressedAt := none }

def largeChild : SummaryRecord :=
  { overview with
    summaryId := "sum_c", kind := .leaf, depth := 0, content := "all of it", tokenCount := 100,
    descendantCount := 0, descendantTokenCount := 0 }

def overviewDb (summaries : List SummaryRecord) : DescribeDb :=
  { Db.empty with
    summaries
    summaryParents := [{ summaryId := "sum_c", parentSummaryId := "sum_p", ordinal := 0 }]
    largeFiles := [] }

def delegatedCall (args : List (String × Json)) : DescribeCall :=
  { args := [("id", .str "sum_p"), ("conversationId", .int 1)] ++ args
    sessionId := none
    sessionKey := some "agent:subagent:a"
    resolveSessionIdFromSessionKey := none
    isSubagentSession := some fun _ => true
    grantIdResolver := some fun _ => some "grant" }

def describePython : DescribePython :=
  { plainPython.toPython with displayTime := fun _ => "" }

def describeContext : DescribeContext :=
  { maxChars := 40000, cap := 10000, maxExpandTokens := 4000 }

/-- The exchange of a call, by what the handler returns. -/
def overviewExchange (summaries : List SummaryRecord) (before : Int)
    (args : List (String × Json)) : Exchange Int :=
  { before
    ctx := describeContext
    db := overviewDb summaries
    call := delegatedCall args
    fuel := 3
    result := (handleLcmDescribe describePython describeContext (oneGrant.remaining before) 3
      (overviewDb summaries) (delegatedCall args)).getD
        { answer := .raised "", consumed := none } }

theorem answered_overviewExchange {summaries : List SummaryRecord} {before : Int}
    {args : List (String × Json)}
    (h : (handleLcmDescribe describePython describeContext (oneGrant.remaining before) 3
      (overviewDb summaries) (delegatedCall args)).isSome = true) :
    (overviewExchange summaries before args).Answered describePython oneGrant := by
  obtain ⟨result, hResult⟩ := Option.isSome_iff_exists.mp h
  unfold Exchange.Answered overviewExchange
  dsimp only
  rw [hResult, Option.getD_some]

def modestHistory : List (Exchange Int) :=
  [overviewExchange [overview] 10 []]

/-- The summary alone has five tokens. -/
theorem withinGrant_modest :
    WithinGrant (fun _ => 0) oneGrant "grant" 10 modestHistory ∧
      ∀ e ∈ modestHistory, ∀ remaining, oneGrant.remaining e.before "grant" = some remaining →
        e.Payable (fun _ => 0) describePython oneGrant remaining := by
  have hCharged : (overviewExchange [overview] 10 []).charged = 5 := by decide +kernel
  have hTokens : (overviewExchange [overview] 10 []).result.answer.tokens (fun _ => 0) = 5 := by
    decide +kernel
  have hWithin : WithinGrant (fun _ => 0) oneGrant "grant" 10 modestHistory := by
    refine ⟨?_, ?_⟩
    · rintro e he remaining ⟨⟩
      obtain rfl := List.mem_singleton.mp he
      refine ⟨hCharged.trans hTokens.symm, ?_⟩
      rw [hTokens]
      decide
    · rw [modestHistory, List.map_singleton, hCharged]
      decide
  have hRun : IsDescribeRun describePython oneGrant 10 modestHistory :=
    ⟨rfl, answered_overviewExchange (by decide +kernel), trivial⟩
  exact ⟨hWithin, (withinGrant_iff decrements_oneGrant (by decide) rfl hRun
    (by decide +kernel)).2.mp hWithin⟩

def overdrawnHistory : List (Exchange Int) :=
  [overviewExchange [overview, largeChild] 10 [("expandChildren", .bool true)]]

/-- Ten tokens remain; the child has a hundred. -/
theorem not_withinGrant_overdrawn :
    IsDescribeRun describePython oneGrant 10 overdrawnHistory ∧
      overdrawnHistory.map Exchange.charged = [105] ∧
      ¬ WithinGrant (fun _ => 0) oneGrant "grant" 10 overdrawnHistory := by
  have hCharged : overdrawnHistory.map Exchange.charged = [105] := by decide +kernel
  refine ⟨⟨rfl, answered_overviewExchange (by decide +kernel), trivial⟩, hCharged,
    fun hWithin => ?_⟩
  have hTotal := hWithin.total
  rw [hCharged] at hTotal
  exact absurd hTotal (by decide)

end LosslessHermes.Tools
