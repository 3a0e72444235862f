import LosslessHermes.Library.Pages
import LosslessHermes.Tools.DescribeGrant

/-!
# The source messages of a summary, page by page

An answer of `lcm_describe` shows one page of the source messages of a leaf, and a line of its text
gives the offset of the next page. The query sorts by the time of creation, so the rows with equal
times may come in another order at each call; here the links of the leaf do.
-/

namespace LosslessHermes.Tools

open Pages

/-! ## The line with the offset -/

/-- The line of an answer that says which messages it shows, and where the next ones begin. -/
def rangeLine (offset shown total : Nat) : String :=
  let last := offset + shown
  let hint :=
    if last < total then
      " — " ++ toString (total - last) ++ " more after this window; paginate with " ++
        "expandMessagesOffset=" ++ toString last
    else ""
  "expanded source messages: " ++ toString shown ++ "/" ++ toString total ++ " [" ++
    toString (offset + 1) ++ ".." ++ toString last ++ "]" ++ hint

/-- What a description asks for, but for the offset. -/
structure MessagesQuery where
  py : DescribePython
  ctx : DescribeContext
  db : Db
  args : List (String × Json)
  itemId : SummaryId
  s : SummaryRecord
  nodes : List ManifestNode
  childrenAsked : Bool

/-- What a call meets: the links in some order, and the budget. -/
structure MessagesCall where
  links : List SummaryMessageLink
  budget : TokenBudget

namespace MessagesQuery

def answer (q : MessagesQuery) (call : MessagesCall) (offset : Nat) : DescribeAnswer :=
  (renderSummary q.py q.ctx { q.db with summaryMessages := call.links } call.budget
    (("expandMessagesOffset", .int offset) :: q.args) q.itemId q.s q.nodes q.childrenAsked
    true).answer

def messages (q : MessagesQuery) (call : MessagesCall) (offset : Nat) : List ExpandedMessage :=
  match q.answer call offset with
  | .summary payload => payload.messages
  | _ => []

/-- The lines above the messages. -/
def linesAbove (q : MessagesQuery) (budget : TokenBudget) : List String :=
  headLines q.py q.db budget q.itemId q.s q.nodes q.childrenAsked true ++
    (contentLine budget q.s).text ::
      (expandChildren q.py q.db budget q.args q.itemId q.childrenAsked).lines

/-- The offset that an answer gives for the next page, where its text keeps the line. -/
def offsetHint (q : MessagesQuery) (call : MessagesCall) (offset : Nat) : Option Nat :=
  match q.answer call offset with
  | .summary payload =>
      if payload.messagesStatus = some .capped ∧
          (q.linesAbove call.budget).length + 1 < payload.text.kept.length then
        some (min offset EXPAND_MESSAGES_OFFSET_HARD_CAP + payload.messages.length)
      else none
  | _ => none

/-- The messages that the answers show from a call on, until one gives no offset. -/
inductive Visits (q : MessagesQuery) (calls : Nat → MessagesCall) :
    Nat → Nat → List ExpandedMessage → Prop
  | last {k offset : Nat} (hLast : q.offsetHint (calls k) offset = none) :
      Visits q calls k offset (q.messages (calls k) offset)
  | more {k offset offset' : Nat} {rest : List ExpandedMessage}
      (hNext : q.offsetHint (calls k) offset = some offset')
      (hRest : Visits q calls (k + 1) offset' rest) :
      Visits q calls k offset (q.messages (calls k) offset ++ rest)

def expanded (m : MessageRecord) : ExpandedMessage :=
  { messageId := m.messageId
    role := m.role
    tokenCount := m.tokenCount
    createdAt := m.createdAt
    content := m.content }

/-- The visible source messages, in the order of the links. -/
def expected (q : MessagesQuery) : List ExpandedMessage :=
  ((q.db.getSummaryMessages q.itemId).filterMap fun id => q.db.getMessageById id).map expanded

/-- However the links are arranged at each call, all visible messages are shown once, in order. -/
def Complete (q : MessagesQuery) (budgets : Nat → TokenBudget) : Prop :=
  ∀ links : Nat → List SummaryMessageLink, (∀ k, (links k).Perm q.db.summaryMessages) →
    q.Visits (fun k => ⟨links k, budgets k⟩) 0 0 q.expected

def limit (q : MessagesQuery) : Nat :=
  messagesLimit q.py.toPython q.args

/-- The item is a leaf, no time is in the manifest, the messages have strictly increasing times,
and the calls that are needed have tokens left, room for the line with the offset, and an offset
within the cap. -/
structure Pageable (q : MessagesQuery) (budgets : Nat → TokenBudget) : Prop where
  leaf : q.s.kind = .leaf
  encoded : ∀ node ∈ q.nodes, node.hasTime = false
  ordered : q.expected.Pairwise fun a b => a.createdAt < b.createdAt
  granted : ∀ k, k * q.limit < q.expected.length → (budgets k).exhausted = false
  told : ∀ k, (k + 1) * q.limit < q.expected.length →
    HasRoom q.ctx (q.linesAbove (budgets k) ++ [""])
      (rangeLine (k * q.limit) q.limit q.expected.length)
  within : ∀ k, k * q.limit < q.expected.length → k * q.limit ≤ EXPAND_MESSAGES_OFFSET_HARD_CAP

end MessagesQuery

/-! ## The text -/

theorem lengthBelow_cons (total : Option Nat) (line : String) (lines : List String) :
    lengthBelow total (line :: lines) =
      if lines = [] then (total.map (· + 1)).getD 0 + line.length
      else lengthBelow (some ((total.map (· + 1)).getD 0 + line.length)) lines := by
  unfold lengthBelow joinedLength
  split
  · rename_i hNil
    rw [hNil]
    simp
  · rename_i hSome
    have hPos := List.length_pos_iff.mpr hSome
    rw [List.map_cons, List.sum_cons, List.length_cons, Option.map_some, Option.getD_some]
    omega

theorem keepLines_isInitial (maxChars : Nat) (total : Option Nat) (lines : List DescribeLine) :
    keepLines maxChars total lines <+: lines := by
  induction lines generalizing total with
  | nil => exact List.prefix_refl []
  | cons line lines ih =>
    rw [keepLines]
    split
    · exact List.nil_prefix
    · exact List.cons_prefix_cons.mpr ⟨rfl, ih _⟩

/-- A line is kept if and only if there is room for the text that ends with it. -/
theorem lt_length_keepLines_iff (maxChars : Nat) (total : Option Nat)
    (before after : List DescribeLine) (line : DescribeLine) :
    before.length < (keepLines maxChars total (before ++ line :: after)).length ↔
      lengthBelow total (before.map DescribeLine.text ++ [line.text]) ≤ maxChars := by
  induction before generalizing total with
  | nil =>
    rw [List.map_nil, List.nil_append, List.nil_append, lengthBelow_cons, if_pos rfl, keepLines]
    split
    · rename_i hLarge
      exact iff_of_false (Nat.lt_irrefl 0) (Nat.not_le.mpr hLarge)
    · rename_i hFits
      exact iff_of_true (Nat.succ_pos _) (Nat.not_lt.mp hFits)
  | cons first before ih =>
    rw [List.cons_append, List.map_cons, List.cons_append, lengthBelow_cons,
      if_neg (by simp), keepLines, ← ih]
    split
    · rename_i hLarge
      have hLonger : maxChars < lengthBelow (some ((total.map (· + 1)).getD 0 +
          first.text.length)) (before.map DescribeLine.text ++ [line.text]) := by
        unfold lengthBelow
        rw [Option.map_some, Option.getD_some]
        omega
      rw [ih]
      exact iff_of_false (Nat.not_lt_zero _) (Nat.not_le.mpr hLonger)
    · rw [List.length_cons, List.length_cons, Nat.succ_lt_succ_iff]

/-! ## One call -/

namespace MessagesQuery

section Call

variable {q : MessagesQuery} {links : List SummaryMessageLink} {budget : TokenBudget}
  {budgets : Nat → TokenBudget}

/-- The arguments of a call. -/
def argsAt (q : MessagesQuery) (offset : Nat) : List (String × Json) :=
  ("expandMessagesOffset", .int offset) :: q.args

theorem get?_argsAt {key : String} (hKey : key ≠ "expandMessagesOffset") (offset : Nat) :
    Json.get? (q.argsAt offset) key = Json.get? q.args key := by
  unfold Json.get? argsAt
  rw [List.lookup_cons, beq_eq_false_iff_ne.mpr hKey]

theorem messagesLimit_argsAt (offset : Nat) :
    messagesLimit q.py.toPython (q.argsAt offset) = q.limit := by
  unfold messagesLimit limit messagesLimit
  rw [get?_argsAt (by decide)]

theorem messagesOffset_argsAt (offset : Nat) :
    messagesOffset q.py.toPython (q.argsAt offset) =
      min offset EXPAND_MESSAGES_OFFSET_HARD_CAP := by
  have hGet : Json.get? (q.argsAt offset) "expandMessagesOffset" = some (.int offset) := by
    unfold Json.get? argsAt
    rw [List.lookup_cons, beq_self_eq_true]
  unfold messagesOffset
  rw [hGet]
  unfold clampInt finiteInt
  dsimp only
  rw [if_neg (by omega)]
  split
  · omega
  · omega

theorem limit_pos : 0 < q.limit := by
  unfold limit messagesLimit clampInt
  split
  · decide
  · split
    · decide
    · split
      · decide
      · omega

theorem expandChildren_argsAt (offset : Nat) :
    expandChildren q.py { q.db with summaryMessages := links } budget (q.argsAt offset) q.itemId
      q.childrenAsked = expandChildren q.py q.db budget q.args q.itemId q.childrenAsked := by
  have hLimit : childrenLimit q.py.toPython (q.argsAt offset) =
      childrenLimit q.py.toPython q.args := by
    unfold childrenLimit
    rw [get?_argsAt (by decide)]
  unfold expandChildren inlineChildren
  rw [hLimit]
  rfl

/-- The visible source messages as a call reads them. -/
def rowsAt (q : MessagesQuery) (links : List SummaryMessageLink) : List ExpandedMessage :=
  (Table.select (fun _ => true) (fun m : MessageRecord => m.createdAt)
    (sourceMessages { q.db with summaryMessages := links } q.itemId)).map expanded

/-- The calls as those of a reader by pages. -/
def reader (q : MessagesQuery) (budgets : Nat → TokenBudget) : Reader where
  limit := q.limit
  cap := EXPAND_MESSAGES_OFFSET_HARD_CAP
  shows k := q.s.kind = .leaf ∧ (∀ node ∈ q.nodes, node.hasTime = false) ∧
    (budgets k).exhausted = false
  tells k offset :=
    let first := min offset EXPAND_MESSAGES_OFFSET_HARD_CAP
    HasRoom q.ctx (q.linesAbove (budgets k) ++ [""])
      (rangeLine first (min q.limit (q.expected.length - first)) q.expected.length)

theorem fetchSourceMessages_eq (limit offset : Nat) :
    fetchSourceMessages { q.db with summaryMessages := links } q.itemId limit offset =
      ((q.rowsAt links).drop offset).take limit := by
  unfold rowsAt
  rw [← List.map_drop, ← List.map_take]
  rfl

theorem length_rowsAt : (q.rowsAt links).length =
    countSourceMessages { q.db with summaryMessages := links } q.itemId := by
  unfold rowsAt countSourceMessages
  rw [List.length_map, (Table.select_perm _).length_eq, List.filter_eq_self.mpr fun _ _ => rfl]

/-- The messages of a call that shows its page. -/
def inlined (q : MessagesQuery) (links : List SummaryMessageLink) (offset : Nat) :
    Expansion ExpandedMessage :=
  inlineMessages q.py { q.db with summaryMessages := links } (q.argsAt offset) q.s q.itemId

theorem rows_inlined (hLeaf : q.s.kind = .leaf) (offset : Nat) :
    (q.inlined links offset).rows =
      ((q.rowsAt links).drop (min offset EXPAND_MESSAGES_OFFSET_HARD_CAP)).take q.limit := by
  unfold inlined
  rw [rows_inlineMessages, if_pos hLeaf, messagesLimit_argsAt, messagesOffset_argsAt,
    fetchSourceMessages_eq]

theorem inlined_of_shown (hLeaf : q.s.kind = .leaf) {offset : Nat}
    (hRows : (q.inlined links offset).rows ≠ []) :
    let first := min offset EXPAND_MESSAGES_OFFSET_HARD_CAP
    let shown := (q.inlined links offset).rows.length
    let total := (q.rowsAt links).length
    (q.inlined links offset).status =
        some (if first + shown < total then .capped else .ok) ∧
      ∃ details, (q.inlined links offset).lines =
        "" :: rangeLine first shown total :: details := by
  have hRowsEq := @rows_inlined q links hLeaf offset
  rw [hRowsEq] at hRows ⊢
  have hTotal : ¬ countSourceMessages { q.db with summaryMessages := links } q.itemId = 0 := by
    intro hZero
    rw [← length_rowsAt, List.length_eq_zero_iff] at hZero
    rw [hZero, List.drop_nil, List.take_nil] at hRows
    exact hRows rfl
  unfold inlined inlineMessages
  dsimp only
  rw [if_neg (not_not_intro hLeaf), if_neg hTotal, messagesLimit_argsAt, messagesOffset_argsAt,
    fetchSourceMessages_eq, if_neg hRows, length_rowsAt]
  exact ⟨rfl, _, rfl⟩

theorem status_of_empty {offset : Nat} (hRows : (q.inlined links offset).rows = []) :
    (q.inlined links offset).status ≠ some .capped := by
  unfold inlined inlineMessages at hRows ⊢
  dsimp only at hRows ⊢
  split at hRows
  · rename_i hLeaf
    rw [if_pos hLeaf]
    exact fun h => nomatch h
  · rename_i hLeaf
    rw [if_neg hLeaf]
    split at hRows
    · rename_i hTotal
      rw [if_pos hTotal]
      exact fun h => nomatch h
    · rename_i hTotal
      rw [if_neg hTotal]
      split at hRows
      · rename_i hNone
        rw [if_pos hNone]
        split
        · exact fun h => nomatch h
        · exact fun h => nomatch h
      · rename_i hSome
        exact absurd hRows hSome

/-- The lines of an answer, with those of the messages below the others. -/
def allLines (q : MessagesQuery) (budget : TokenBudget) (messageLines : List String) :
    List DescribeLine :=
  (headLines q.py q.db budget q.itemId q.s q.nodes q.childrenAsked true).map .note ++
    contentLine budget q.s ::
      ((expandChildren q.py q.db budget q.args q.itemId q.childrenAsked).lines ++
        messageLines).map .note

/-- What a call puts together for the messages. -/
def expansionAt (q : MessagesQuery) (call : MessagesCall) (offset : Nat) :
    Expansion ExpandedMessage :=
  expandMessages q.py { q.db with summaryMessages := call.links } call.budget (q.argsAt offset)
    q.s q.itemId true

theorem expansionAt_of_granted (hGranted : budget.exhausted = false) (offset : Nat) :
    q.expansionAt ⟨links, budget⟩ offset = q.inlined links offset := by
  unfold expansionAt expandMessages
  rw [if_pos rfl, hGranted, if_neg Bool.false_ne_true]
  rfl

theorem expansionAt_of_exhausted (hExhausted : budget.exhausted = true) (offset : Nat) :
    q.expansionAt ⟨links, budget⟩ offset = skippedExpansion "expanded source messages" := by
  unfold expansionAt expandMessages
  rw [if_pos rfl, if_pos hExhausted]

theorem answer_of_time {node : ManifestNode} (hNode : node ∈ q.nodes) (hTime : node.hasTime = true)
    (call : MessagesCall) (offset : Nat) : q.answer call offset = .raised notSerializable := by
  unfold answer renderSummary
  dsimp only
  rw [if_pos (List.any_eq_true.mpr ⟨node, hNode, hTime⟩)]

theorem answer_of_encoded (hEncoded : ∀ node ∈ q.nodes, node.hasTime = false) (offset : Nat) :
    ∃ payload, q.answer ⟨links, budget⟩ offset = .summary payload ∧
      payload.messages = (q.expansionAt ⟨links, budget⟩ offset).rows ∧
        payload.messagesStatus = (q.expansionAt ⟨links, budget⟩ offset).status ∧
          payload.text.kept = keepLines q.ctx.maxChars none
            (q.allLines budget (q.expansionAt ⟨links, budget⟩ offset).lines) := by
  have hNone : q.nodes.any ManifestNode.hasTime = false :=
    List.any_eq_false.mpr fun node hNode => by rw [hEncoded node hNode]; exact Bool.false_ne_true
  have hChildren := @expandChildren_argsAt q links budget offset
  unfold answer renderSummary
  dsimp only
  rw [hNone, if_neg Bool.false_ne_true]
  refine ⟨_, rfl, rfl, rfl, ?_⟩
  change keepLines _ _ _ = _
  unfold allLines
  rw [← hChildren]
  rfl

theorem allLines_cons (range : String) (details : List String) :
    q.allLines budget ("" :: range :: details) =
      q.allLines budget [""] ++ .note range :: details.map .note := by
  unfold allLines
  simp

theorem texts_allLines :
    (q.allLines budget [""]).map DescribeLine.text = q.linesAbove budget ++ [""] := by
  unfold allLines linesAbove
  simp [DescribeLine.text, Function.comp_def]

theorem length_allLines :
    (q.allLines budget [""]).length = (q.linesAbove budget).length + 1 := by
  have hLength := congrArg List.length (@texts_allLines q budget)
  rw [List.length_map, List.length_append, List.length_singleton] at hLength
  exact hLength

theorem kept_rangeLine_iff (range : String) (details : List String) :
    (q.linesAbove budget).length + 1 <
        (keepLines q.ctx.maxChars none (q.allLines budget ("" :: range :: details))).length ↔
      HasRoom q.ctx (q.linesAbove budget ++ [""]) range := by
  rw [allLines_cons, ← length_allLines, lt_length_keepLines_iff, texts_allLines]
  unfold HasRoom lengthBelow
  rw [Option.map_none, Option.getD_none, Nat.zero_add]
  rfl

theorem messages_of_encoded (hEncoded : ∀ node ∈ q.nodes, node.hasTime = false) (offset : Nat) :
    q.messages ⟨links, budget⟩ offset = (q.expansionAt ⟨links, budget⟩ offset).rows := by
  obtain ⟨payload, hAnswer, hMessages, -⟩ :=
    @answer_of_encoded q links budget hEncoded offset
  unfold messages
  rw [hAnswer]
  exact hMessages

theorem offsetHint_of_encoded (hEncoded : ∀ node ∈ q.nodes, node.hasTime = false) (offset : Nat) :
    let expansion := q.expansionAt ⟨links, budget⟩ offset
    q.offsetHint ⟨links, budget⟩ offset =
      if expansion.status = some .capped ∧ (q.linesAbove budget).length + 1 <
          (keepLines q.ctx.maxChars none (q.allLines budget expansion.lines)).length then
        some (min offset EXPAND_MESSAGES_OFFSET_HARD_CAP + expansion.rows.length)
      else none := by
  obtain ⟨payload, hAnswer, hMessages, hStatus, hKept⟩ :=
    @answer_of_encoded q links budget hEncoded offset
  unfold offsetHint
  rw [hAnswer]
  dsimp only
  rw [hMessages, hStatus, hKept]

/-- A call that is not to show its page shows no message and gives no offset. -/
theorem nothing_of_hidden {k : Nat} (hHidden : (q.reader budgets).shows k = false) (offset : Nat) :
    q.messages ⟨links, budgets k⟩ offset = [] ∧
      q.offsetHint ⟨links, budgets k⟩ offset = none := by
  by_cases hEncoded : ∀ node ∈ q.nodes, node.hasTime = false
  · have hNone : (q.expansionAt ⟨links, budgets k⟩ offset).rows = [] ∧
        (q.expansionAt ⟨links, budgets k⟩ offset).status ≠ some .capped := by
      cases hBudget : (budgets k).exhausted with
      | true =>
        rw [expansionAt_of_exhausted hBudget]
        exact ⟨rfl, fun h => nomatch h⟩
      | false =>
        have hLeaf : q.s.kind ≠ .leaf := fun hLeaf =>
          of_decide_eq_false hHidden ⟨hLeaf, hEncoded, hBudget⟩
        have hRows : (q.inlined links offset).rows = [] := by
          unfold inlined
          rw [rows_inlineMessages, if_neg hLeaf]
        rw [expansionAt_of_granted hBudget]
        exact ⟨hRows, status_of_empty hRows⟩
    constructor
    · rw [messages_of_encoded hEncoded, hNone.1]
    · rw [offsetHint_of_encoded hEncoded, if_neg fun hBoth => hNone.2 hBoth.1]
  · obtain ⟨node, hNotEncoded⟩ := not_forall.mp hEncoded
    obtain ⟨hNode, hTime⟩ := Classical.not_imp.mp hNotEncoded
    have hRaised := answer_of_time hNode (Bool.not_eq_false _ ▸ hTime) ⟨links, budgets k⟩ offset
    constructor
    · unfold messages
      rw [hRaised]
    · unfold offsetHint
      rw [hRaised]

theorem messages_eq_page (k offset : Nat) : q.messages ⟨links, budgets k⟩ offset =
    (q.reader budgets).page (q.rowsAt links) k offset := by
  cases hShows : (q.reader budgets).shows k with
  | false => rw [(nothing_of_hidden hShows offset).1, Reader.page_of_hidden hShows]
  | true =>
    obtain ⟨hLeaf, hEncoded, hGranted⟩ := of_decide_eq_true hShows
    rw [messages_of_encoded hEncoded, expansionAt_of_granted hGranted, rows_inlined hLeaf]
    unfold Reader.page
    rw [if_pos hShows]
    rfl

theorem offsetHint_eq_next (hLinks : (q.rowsAt links).length = q.expected.length)
    (k offset : Nat) : q.offsetHint ⟨links, budgets k⟩ offset =
      (q.reader budgets).next (q.rowsAt links) k offset := by
  cases hShows : (q.reader budgets).shows k with
  | false => rw [(nothing_of_hidden hShows offset).2, Reader.next_of_hidden hShows]
  | true =>
    obtain ⟨hLeaf, hEncoded, hGranted⟩ := of_decide_eq_true hShows
    have hRows : (q.inlined links offset).rows =
        (q.reader budgets).page (q.rowsAt links) k offset := by
      rw [← messages_eq_page, messages_of_encoded hEncoded, expansionAt_of_granted hGranted]
    rw [offsetHint_of_encoded hEncoded, expansionAt_of_granted hGranted]
    unfold Reader.next
    dsimp only
    by_cases hEmpty : (q.inlined links offset).rows = []
    · rw [if_neg fun hBoth => status_of_empty hEmpty hBoth.1,
        if_neg fun hBoth => hBoth.1 (hRows ▸ hEmpty)]
    · obtain ⟨hStatus, details, hLines⟩ := inlined_of_shown hLeaf hEmpty
      have hShown : (q.inlined links offset).rows.length = min q.limit
          (q.expected.length - min offset EXPAND_MESSAGES_OFFSET_HARD_CAP) := by
        rw [rows_inlined hLeaf, List.length_take, List.length_drop, hLinks]
      have hCap : (q.reader budgets).cap = EXPAND_MESSAGES_OFFSET_HARD_CAP := rfl
      rw [← hRows, hCap]
      refine if_congr ?_ rfl rfl
      rw [hStatus, hLines, kept_rangeLine_iff, hLinks, hShown, and_iff_right hEmpty]
      unfold reader
      dsimp only
      rw [decide_eq_true_eq]
      refine and_congr_left' ?_
      rw [Option.some.injEq]
      split
      · rename_i hMore
        exact iff_of_true rfl hMore
      · rename_i hMore
        exact iff_of_false (fun h => nomatch h) hMore

theorem rangeLine_of_more {first shown total : Nat} (hMore : first + shown < total) :
    ∃ start, rangeLine first shown total =
      start ++ ("expandMessagesOffset=" ++ toString (first + shown)) := by
  unfold rangeLine
  dsimp only
  rw [if_pos hMore]
  exact ⟨_, by simp only [← String.append_assoc]; rfl⟩

/-- The text of the answer names the offset that it gives. -/
theorem kept_of_offsetHint {offset n : Nat} (h : q.offsetHint ⟨links, budget⟩ offset = some n) :
    ∃ payload start, q.answer ⟨links, budget⟩ offset = .summary payload ∧
      payload.text.kept[(q.linesAbove budget).length + 1]? =
        some (.note (start ++ ("expandMessagesOffset=" ++ toString n))) := by
  by_cases hEncoded : ∀ node ∈ q.nodes, node.hasTime = false
  · rw [offsetHint_of_encoded hEncoded] at h
    obtain ⟨payload, hAnswer, -, -, hKept⟩ := @answer_of_encoded q links budget hEncoded offset
    split at h
    · rename_i hBoth
      obtain ⟨hCapped, hIn⟩ := hBoth
      cases hBudget : budget.exhausted with
      | true =>
        rw [expansionAt_of_exhausted hBudget] at hCapped
        cases hCapped
      | false =>
        rw [expansionAt_of_granted hBudget] at hCapped hIn h hKept
        have hSome : (q.inlined links offset).rows ≠ [] :=
          fun hEmpty => status_of_empty hEmpty hCapped
        have hLeaf : q.s.kind = .leaf := by
          by_contra hLeaf
          refine hSome ?_
          unfold inlined
          rw [rows_inlineMessages, if_neg hLeaf]
        obtain ⟨hStatus, details, hLines⟩ := inlined_of_shown hLeaf hSome
        have hStatusEq := hStatus.symm.trans hCapped
        split at hStatusEq
        · rename_i hMore
          obtain ⟨start, hRange⟩ := rangeLine_of_more hMore
          rw [hLines] at hIn hKept
          have hAt := (keepLines_isInitial q.ctx.maxChars none
            (q.allLines budget ("" :: _ :: details))).getElem hIn
          refine ⟨payload, start, hAnswer, ?_⟩
          rw [hKept, List.getElem?_eq_getElem hIn, hAt, ← Option.some.inj h, ← hRange]
          refine congrArg some (Option.some.inj ?_)
          rw [← List.getElem?_eq_getElem, allLines_cons, ← length_allLines,
            List.getElem?_append_right (Nat.le_refl _), Nat.sub_self, List.getElem?_cons_zero]
        · cases hStatusEq
    · cases h
  · obtain ⟨node, hNotEncoded⟩ := not_forall.mp hEncoded
    obtain ⟨hNode, hTime⟩ := Classical.not_imp.mp hNotEncoded
    unfold offsetHint at h
    rw [answer_of_time hNode (Bool.not_eq_false _ ▸ hTime)] at h
    cases h

end Call

/-! ## Every arrangement of the links -/

section Arranged

variable {q : MessagesQuery} {links : List SummaryMessageLink} {budgets : Nat → TokenBudget}
  {k offset : Nat} {visited : List ExpandedMessage}

/-- The message that a link contributes. -/
def linked (q : MessagesQuery) (l : SummaryMessageLink) : Option ExpandedMessage :=
  if l.summaryId = q.itemId then (q.db.getMessageById l.messageId).map expanded else none

theorem map_sourceMessages :
    (sourceMessages { q.db with summaryMessages := links } q.itemId).map expanded =
      links.filterMap q.linked := by
  unfold sourceMessages
  rw [List.map_filterMap, List.filterMap_filter]
  refine List.filterMap_congr fun l _ => ?_
  unfold linked
  simp only [decide_eq_true_eq]
  rfl

theorem expected_perm : q.expected.Perm (q.db.summaryMessages.filterMap q.linked) := by
  rw [← map_sourceMessages]
  refine List.Perm.map _ ?_
  unfold Db.getSummaryMessages sourceMessages
  rw [List.filterMap_map]
  exact (Table.select_perm _).filterMap _

theorem arranges_rowsAt (hPerm : links.Perm q.db.summaryMessages) :
    Reader.Arranges (·.createdAt) q.expected (q.rowsAt links) := by
  constructor
  · refine List.Perm.trans (List.Perm.map _ (Table.select_perm _)) ?_
    rw [List.filter_eq_self.mpr fun _ _ => rfl, map_sourceMessages]
    exact (hPerm.filterMap _).trans expected_perm.symm
  · exact List.pairwise_map.mpr (Table.select_pairwise_le _)

/-- Every order that the query allows comes from some arrangement of the links. -/
theorem exists_links {rows : List ExpandedMessage}
    (h : Reader.Arranges (·.createdAt) q.expected rows) :
    ∃ links, links.Perm q.db.summaryMessages ∧ q.rowsAt links = rows := by
  obtain ⟨links, hPerm, hRows⟩ := Reader.exists_perm_filterMap (h.1.trans expected_perm)
  refine ⟨links, hPerm, ?_⟩
  rw [← map_sourceMessages] at hRows
  unfold rowsAt Table.select
  rw [List.filter_eq_self.mpr fun _ _ => rfl, List.Pairwise.insertionSort_eq, hRows]
  have hSorted := h.2
  rw [← hRows, List.pairwise_map] at hSorted
  exact hSorted

theorem expected_nodup
    (hKeys : (q.db.summaryMessages.map fun l => (l.summaryId, l.messageId)).Nodup) :
    q.expected.Nodup := by
  rw [expected_perm.nodup_iff, ← map_sourceMessages]
  refine List.Nodup.of_map (fun m : ExpandedMessage => m.messageId) ?_
  rw [List.map_map]
  have hIds : ((q.db.summaryMessages.filter fun l => l.summaryId = q.itemId).map
      (·.messageId)).Nodup := by
    refine List.Nodup.of_map (fun id => (q.itemId, id)) ?_
    rw [List.map_map]
    have hSame : (q.db.summaryMessages.filter fun l => l.summaryId = q.itemId).map
        (fun l => (q.itemId, l.messageId)) =
          (q.db.summaryMessages.filter fun l => l.summaryId = q.itemId).map
            fun l => (l.summaryId, l.messageId) := by
      refine List.map_congr_left fun l hl => ?_
      rw [of_decide_eq_true (List.mem_filter.mp hl).2]
    have hSublist := (q.db.summaryMessages.filter_sublist
      (p := fun l => l.summaryId = q.itemId)).map fun l => (l.summaryId, l.messageId)
    exact hSame ▸ hKeys.sublist hSublist
  refine hIds.sublist (Table.map_filterMap_sublist (fun l m hMessage => ?_) _)
  have hFound := List.find?_some hMessage
  rw [decide_eq_true_eq] at hFound
  exact hFound.1

theorem reads_of_visits {links : Nat → List SummaryMessageLink}
    (hLinks : ∀ k, (links k).Perm q.db.summaryMessages)
    (h : q.Visits (fun k => ⟨links k, budgets k⟩) k offset visited) :
    (q.reader budgets).Reads (fun k => q.rowsAt (links k)) k offset visited := by
  induction h with
  | @last k offset hLast =>
    rw [offsetHint_eq_next (arranges_rowsAt (hLinks k)).1.length_eq] at hLast
    rw [messages_eq_page]
    exact .last hLast
  | @more k offset offset' rest hNext hRest ih =>
    rw [offsetHint_eq_next (arranges_rowsAt (hLinks k)).1.length_eq] at hNext
    rw [messages_eq_page]
    exact .more hNext ih

theorem visits_of_reads {links : Nat → List SummaryMessageLink}
    (hLinks : ∀ k, (links k).Perm q.db.summaryMessages)
    (h : (q.reader budgets).Reads (fun k => q.rowsAt (links k)) k offset visited) :
    q.Visits (fun k => ⟨links k, budgets k⟩) k offset visited := by
  induction h with
  | @last k offset hLast =>
    rw [← messages_eq_page]
    exact .last ((offsetHint_eq_next (arranges_rowsAt (hLinks k)).1.length_eq k offset).trans
      hLast)
  | @more k offset offset' rest hNext hRest ih =>
    rw [← messages_eq_page]
    exact .more ((offsetHint_eq_next (arranges_rowsAt (hLinks k)).1.length_eq k offset).trans
      hNext) ih

theorem complete_iff_reads : q.Complete budgets ↔ ∀ rows : Nat → List ExpandedMessage,
    (∀ k, Reader.Arranges (·.createdAt) q.expected (rows k)) →
      (q.reader budgets).Reads rows 0 0 q.expected := by
  constructor
  · intro h rows hRows
    choose links hPerm hSame using fun k => exists_links (hRows k)
    obtain rfl : (fun k => q.rowsAt (links k)) = rows := funext hSame
    exact reads_of_visits hPerm (h links hPerm)
  · intro h links hPerm
    exact visits_of_reads hPerm (h _ fun k => arranges_rowsAt (hPerm k))

theorem limit_reader_pos : 0 < (q.reader budgets).limit :=
  limit_pos

/-- A call that another one follows tells its offset if and only if the line has room. -/
theorem tells_reader_iff (hMore : (k + 1) * q.limit < q.expected.length)
    (hCap : k * q.limit ≤ EXPAND_MESSAGES_OFFSET_HARD_CAP) :
    (q.reader budgets).tells k (k * q.limit) = true ↔
      HasRoom q.ctx (q.linesAbove (budgets k) ++ [""])
        (rangeLine (k * q.limit) q.limit q.expected.length) := by
  have hStep : (k + 1) * q.limit = k * q.limit + q.limit := Nat.succ_mul k q.limit
  have hFull : min q.limit (q.expected.length - k * q.limit) = q.limit :=
    Nat.min_eq_left (by omega)
  unfold reader
  dsimp only
  rw [decide_eq_true_eq, Nat.min_eq_left hCap, hFull]

/-- **Following the offsets shows every visible message once and in the order of the links, if and
only if there is none or the messages are pageable.** -/
theorem complete_iff (q : MessagesQuery) (budgets : Nat → TokenBudget)
    (hKeys : (q.db.summaryMessages.map fun l => (l.summaryId, l.messageId)).Nodup) :
    q.Complete budgets ↔ q.expected = [] ∨ q.Pageable budgets := by
  rw [complete_iff_reads, Reader.forall_reads_iff limit_reader_pos (expected_nodup hKeys)]
  have hEarlier : ∀ k, (k + 1) * q.limit < q.expected.length →
      k * q.limit < q.expected.length :=
    fun k hMore => (Nat.mul_le_mul_right q.limit (Nat.le_succ k)).trans_lt hMore
  refine or_congr_right' fun hSome => ?_
  have hTotal : 0 * q.limit < q.expected.length := by
    rw [Nat.zero_mul]
    exact List.length_pos_iff.mpr hSome
  constructor
  · rintro ⟨hOrdered, hReaches⟩
    have hShown := fun k hCall => of_decide_eq_true (hReaches.shown k hCall)
    obtain ⟨hLeaf, hEncoded, -⟩ := hShown 0 hTotal
    exact {
      leaf := hLeaf
      encoded := hEncoded
      ordered := hOrdered
      granted := fun k hCall => (hShown k hCall).2.2
      told := fun k hMore => (tells_reader_iff hMore (hReaches.within k (hEarlier k hMore))).mp
        (hReaches.told k hMore)
      within := hReaches.within }
  · intro h
    refine ⟨h.ordered, ?_⟩
    exact {
      shown := fun k hCall => decide_eq_true ⟨h.leaf, h.encoded, h.granted k hCall⟩
      told := fun k hMore => (tells_reader_iff hMore (h.within k (hEarlier k hMore))).mpr
        (h.told k hMore)
      within := h.within }

end Arranged

def leafMessage (id : MessageId) (createdAt : Timestamp) : MessageRecord :=
  { messageId := id, conversationId := 1, seq := id, role := .user, content := "m",
    tokenCount := 1, createdAt, suppressedAt := none }

/-- A leaf with these messages, read one at a time. -/
def leafQuery (messages : List MessageRecord) : MessagesQuery :=
  { py := describePython
    ctx := describeContext
    db := { Db.empty with
            messages
            summaryMessages := messages.zipIdx.map fun m =>
              { summaryId := "sum_c", messageId := m.1.messageId, ordinal := m.2 } }
    args := [("expandMessagesLimit", .int 1)]
    itemId := "sum_c"
    s := largeChild
    nodes := []
    childrenAsked := false }

def openBudget : TokenBudget :=
  { grantId := "", remaining := none, tokenCap := 4000, source := .configDefault }

theorem complete_leafQuery :
    (leafQuery [leafMessage 1 0, leafMessage 2 1]).Complete fun _ => openBudget := by
  have hLimit : (leafQuery [leafMessage 1 0, leafMessage 2 1]).limit = 1 := by decide +kernel
  have hLength : (leafQuery [leafMessage 1 0, leafMessage 2 1]).expected.length = 2 := by
    decide +kernel
  refine (complete_iff _ _ (by decide +kernel)).mpr (.inr ?_)
  refine ⟨by decide, by decide, by decide +kernel, fun _ _ => by decide, ?_, ?_⟩
  · intro k hMore
    rw [hLimit, hLength] at hMore ⊢
    obtain rfl : k = 0 := by omega
    decide +kernel
  · intro k hCall
    rw [hLimit, hLength] at hCall
    rw [hLimit]
    unfold EXPAND_MESSAGES_OFFSET_HARD_CAP
    omega

theorem kept_of_offsetHint_leafQuery :
    let q := leafQuery [leafMessage 1 0, leafMessage 2 1]
    ∃ payload start, q.answer ⟨q.db.summaryMessages, openBudget⟩ 0 = .summary payload ∧
      payload.text.kept[(q.linesAbove openBudget).length + 1]? =
        some (.note (start ++ ("expandMessagesOffset=" ++ toString 1))) :=
  kept_of_offsetHint (by decide +kernel)

/-- Two messages of the same second: the second call may show the first one again. -/
theorem not_complete_leafQuery :
    ¬ (leafQuery [leafMessage 1 0, leafMessage 2 0]).Complete fun _ => openBudget := by
  intro hComplete
  have hReads := complete_iff_reads.mp hComplete
  rcases (Reader.forall_reads_iff limit_reader_pos (expected_nodup (by decide +kernel))).mp
    hReads with hNil | ⟨hOrdered, -⟩
  · revert hNil
    decide +kernel
  · revert hOrdered
    decide +kernel

end MessagesQuery

/-- A call for the messages of a summary is a call of the query. -/
theorem handleLcmDescribe_eq_renderSummary {py : DescribePython} {ctx : DescribeContext}
    {lookup : String → Option Int} {fuel : Nat} {db : DescribeDb} {call : DescribeCall}
    {itemId : String} {s : SummaryRecord} {subtree : List SummarySubtreeNodeRecord}
    {childrenAsked : Bool} (hFind : findItem py db call = .ok (itemId, .summary s))
    (hFlags : readExpandFlags py.toPython call.args = .ok (childrenAsked, true))
    (hSubtree : db.getSummarySubtree subtreeHardCap fuel itemId = some subtree) :
    handleLcmDescribe py ctx lookup fuel db call =
      some (renderSummary py ctx db.toDb (resolveTokenBudget py.toPython ctx lookup call) call.args
        itemId s (subtree.map manifestNode) childrenAsked true) := by
  unfold handleLcmDescribe
  rw [hFind]
  dsimp only
  rw [hSubtree, Option.map_some]
  unfold emitSummary
  rw [hFlags]

end LosslessHermes.Tools
