import LosslessHermes.Library.Limit
import LosslessHermes.Store.LikeMatches
import LosslessHermes.Tools.GrepBudget

/-!
# A verbatim search without FTS5

For a pattern with CJK characters, and where FTS5 raises, the statement of the verbatim mode has
the clause `content LIKE '%pattern%'`. Its pattern is not escaped, so `%` and `_` in it stand for
other characters. The answer shows the rows up to a cap, and an only or first row beyond the cap
not at all.
-/

namespace LosslessHermes.Tools

open Limit (Among)

variable {F : Type}

section

variable (db : SearchDb) (request : GrepRequest) (scope : LcmConversationScope)

/-- The messages that the other clauses leave, newest first. -/
def verbatimScopeRows : List MessageRecord :=
  let timeTests := Search.timeTests MessageRecord.createdAt request.since request.before
  Table.select (fun m => m.suppressedAt.isNone && (request.role.bind roleOf).all (m.role = ·) &&
      verbatimScope scope m && timeTests.all fun test => test m)
    (Search.newest Search.messageColumns) db.messages

/-- The content contains the pattern, up to the case of ASCII letters. -/
def containsPattern (m : MessageRecord) : Bool :=
  FullText.containsAscii m.content request.pattern

def literalMatches : List MessageRecord :=
  ((verbatimScopeRows db request scope).filter (containsPattern request)).take request.limit

/-- The pattern is looked for with `LIKE`. -/
def TakesLikePath (engine : SearchEngine F) : Prop :=
  FullText.containsCjk request.pattern = true ∨
    engine.messagesFts.search
      (FullText.sanitizeFts5Pattern engine.isWord request.pattern) = none

/-- The hits are the newest messages that contain the pattern, and the answer shows one. -/
structure VerbatimExact (py : GrepPython) (renderer : GrepRenderer F) (cap : Nat)
    (ctx : GrepContext F) : Prop where
  hits : runVerbatimLcmGrep ctx db request scope =
    .verbatim ((literalMatches db request scope).map verbatimHit)
  shown : ∀ rows, runVerbatimLcmGrep ctx db request scope = .verbatim rows →
    literalMatches db request scope ≠ [] →
      ∃ hit ∈ rows, verbatimBlock py hit ∈ (renderVerbatim py renderer cap request scope rows).lines

/-- The length of the header of an answer. -/
def verbatimHeaderLength (renderer : GrepRenderer F) (totalMatches : Nat) : Nat :=
  joinedLength (headerLines renderer false request scope (verbatimMode request) totalMatches ++
    [""])

/-- What the wildcards find among the newest contains the pattern, and the newest fits. -/
structure LiteralAndFits (py : GrepPython) (renderer : GrepRenderer F) (cap : Nat) : Prop where
  literal : ∀ m, Among (verbatimLike request) request.limit (verbatimScopeRows db request scope) m →
    containsPattern request m = true
  fits : ∀ m ∈ (literalMatches db request scope).head?,
    verbatimHeaderLength request scope renderer (literalMatches db request scope).length +
      (verbatimBlock py (verbatimHit m)).length ≤ maxResultChars cap

end

variable {db : SearchDb} {request : GrepRequest} {scope : LcmConversationScope} {py : GrepPython}
  {renderer : GrepRenderer F} {cap : Nat} {ctx : GrepContext F}

/-! ## The rows -/

theorem verbatimRows_eq (found : MessageRecord → Bool) : verbatimRows db request scope found =
    ((verbatimScopeRows db request scope).filter found).take request.limit := by
  unfold verbatimRows verbatimScopeRows
  rw [Table.filter_select_eq]
  dsimp only
  refine congrArg (List.take request.limit) (congrArg (Table.select · _ _) (funext fun m => ?_))
  rw [List.all_append]
  simp only [List.all_cons, List.all_nil, Bool.and_true]
  ac_rfl

theorem runVerbatimLcmGrep_eq (h : TakesLikePath request ctx.engine) :
    runVerbatimLcmGrep ctx db request scope =
      .verbatim ((((verbatimScopeRows db request scope).filter (verbatimLike request)).take
        request.limit).map verbatimHit) := by
  rw [← verbatimRows_eq]
  unfold runVerbatimLcmGrep
  by_cases hCjk : FullText.containsCjk request.pattern = true
  · rw [if_pos hCjk]
  · rw [if_neg hCjk, h.resolve_left hCjk]
    rfl

/-- The hits are exact if and only if what the wildcards find is. -/
theorem hits_iff (h : TakesLikePath request ctx.engine) :
    runVerbatimLcmGrep ctx db request scope =
        .verbatim ((literalMatches db request scope).map verbatimHit) ↔
      ∀ m, Among (verbatimLike request) request.limit (verbatimScopeRows db request scope) m →
        containsPattern request m = true := by
  rw [runVerbatimLcmGrep_eq h, GrepResponse.verbatim.injEq]
  refine Limit.map_take_filter_eq_iff (fun m hm => FullText.like_of_contains hm) ?_ request.limit
  intro m m' hSame
  have hContent : m.content = m'.content := congrArg VerbatimHit.content hSame
  rw [hContent]

/-! ## The answer -/

/-- The mark of a heading of a row. -/
def isHeading (line : String) : Bool :=
  ['#', '#', '#'].isPrefixOf line.toList

theorem isHeading_append {start : String} {c d e : Char} {rest : List Char}
    (h : start.toList = c :: d :: e :: rest) (line : String) :
    isHeading (start ++ line) = ('#' == c && ('#' == d && '#' == e)) := by
  unfold isHeading
  rw [String.toList_append, h]
  simp [List.isPrefixOf]

theorem isHeading_verbatimBlock (hit : VerbatimHit) : isHeading (verbatimBlock py hit) = true := by
  unfold verbatimBlock
  simp only [String.append_assoc]
  rw [@isHeading_append "### [msg#" '#' '#' '#' [' ', '[', 'm', 's', 'g', '#'] rfl]
  rfl

/-- A line that begins in bold is not a heading. -/
theorem isHeading_bold {start : String} {c : Char} {rest : List Char}
    (h : start.toList = '*' :: '*' :: c :: rest) (line : String) :
    isHeading (start ++ line) = false := by
  rw [isHeading_append h]
  rfl

theorem isHeading_conversationLines (families : Bool) :
    ∀ line ∈ conversationLines families scope, isHeading line = false := by
  intro line hLine
  unfold conversationLines at hLine
  split at hLine
  · rw [List.mem_singleton.mp hLine]
    rfl
  · split at hLine
    · cases hLine
    · split at hLine
      · rw [List.mem_singleton.mp hLine]
        simp only [String.append_assoc]
        exact isHeading_bold rfl _
      · rw [List.mem_singleton.mp hLine]
        exact isHeading_bold rfl _

theorem isHeading_timeLines : ∀ line ∈ timeLines renderer request, isHeading line = false := by
  intro line hLine
  unfold timeLines at hLine
  split at hLine
  · cases hLine
  · dsimp only at hLine
    rw [List.mem_singleton.mp hLine]
    simp only [String.append_assoc]
    exact isHeading_bold rfl _

theorem isHeading_header (n : Nat) :
    ∀ line ∈ headerLines renderer false request scope (verbatimMode request) n ++ [""],
      isHeading line = false := by
  intro line hLine
  simp only [headerLines, List.mem_append, List.mem_cons, List.not_mem_nil, or_false] at hLine
  rcases hLine with ((((rfl | rfl | rfl) | hLine) | hLine) | rfl) | rfl
  · rfl
  · simp only [String.append_assoc]
    exact isHeading_bold rfl _
  · unfold verbatimMode
    simp only [String.append_assoc]
    exact isHeading_bold rfl _
  · exact isHeading_conversationLines false line hLine
  · exact isHeading_timeLines line hLine
  · exact isHeading_bold rfl _
  · rfl

theorem isHeading_truncationNotice (reason : String) :
    isHeading (truncationNotice cap reason) = false := by
  unfold truncationNotice
  simp only [String.append_assoc]
  rw [@isHeading_append "*(truncated at ~" '*' '(' 't' "runcated at ~".toList rfl]
  rfl

/-- An answer shows a hit if and only if the first one fits below the header. -/
theorem exists_block_iff (first : VerbatimHit) (rest : List VerbatimHit) :
    (∃ hit ∈ first :: rest, verbatimBlock py hit ∈
        (renderVerbatim py renderer cap request scope (first :: rest)).lines) ↔
      verbatimHeaderLength request scope renderer (first :: rest).length +
        (verbatimBlock py first).length ≤ maxResultChars cap := by
  unfold renderVerbatim verbatimHeaderLength
  dsimp only
  rw [if_neg (List.cons_ne_nil first rest), List.map_cons, renderRows]
  split
  · rename_i hLarge
    refine iff_of_false ?_ (Nat.not_le.mpr hLarge)
    rintro ⟨hit, -, hMem⟩
    have hHeading := @isHeading_verbatimBlock py hit
    rcases List.mem_append.mp hMem with hHeader | hNotice
    · rw [isHeading_header _ _ hHeader] at hHeading
      cases hHeading
    · rw [List.mem_singleton.mp hNotice, isHeading_truncationNotice] at hHeading
      cases hHeading
  · rename_i hFits
    refine iff_of_true ⟨first, List.mem_cons_self, ?_⟩ (Nat.not_lt.mp hFits)
    exact List.mem_append_right _ List.mem_cons_self

/-- The hits are exact and one is shown, if and only if no message that only the wildcards find is
among the newest that `LIKE` finds, and the block of the newest match fits below the header. The
first holds of a pattern without `%` and `_`. -/
theorem verbatimExact_iff (h : TakesLikePath request ctx.engine) :
    (VerbatimExact db request scope py renderer cap ctx ↔
        LiteralAndFits db request scope py renderer cap) ∧
      ((∀ c ∈ request.pattern.toList, c ≠ '%' ∧ c ≠ '_') →
        ∀ m, Among (verbatimLike request) request.limit (verbatimScopeRows db request scope) m →
          containsPattern request m = true) := by
  have hShown : (∀ rows,
      GrepResponse.verbatim (F := F) ((literalMatches db request scope).map verbatimHit) =
        .verbatim rows → literalMatches db request scope ≠ [] → ∃ hit ∈ rows,
          verbatimBlock py hit ∈ (renderVerbatim py renderer cap request scope rows).lines) ↔
      ∀ m ∈ (literalMatches db request scope).head?,
        verbatimHeaderLength request scope renderer (literalMatches db request scope).length +
          (verbatimBlock py (verbatimHit m)).length ≤ maxResultChars cap := by
    cases literalMatches db request scope with
    | nil => exact iff_of_true (fun _ _ hNe => absurd rfl hNe) (fun m hm => nomatch hm)
    | cons m rest =>
      have hFirst := @exists_block_iff F request scope py renderer cap (verbatimHit m)
        (rest.map verbatimHit)
      rw [List.length_cons, List.length_map, ← List.length_cons (a := m)] at hFirst
      constructor
      · rintro hRows m' ⟨⟩
        exact hFirst.mp (hRows _ rfl (List.cons_ne_nil m rest))
      · rintro hFits rows hRows -
        cases hRows
        exact hFirst.mpr (hFits m rfl)
  refine ⟨⟨fun hExact => ?_, fun hBoth => ?_⟩, fun hPlain m hAmong => ?_⟩
  · refine ⟨(hits_iff h).mp hExact.hits, hShown.mp ?_⟩
    rw [← hExact.hits]
    exact hExact.shown
  · have hHits : runVerbatimLcmGrep ctx db request scope =
        .verbatim ((literalMatches db request scope).map verbatimHit) :=
      (hits_iff h).mpr hBoth.literal
    refine ⟨hHits, ?_⟩
    rw [hHits]
    exact hShown.mpr hBoth.fits
  · obtain ⟨-, -, -, hLike, -⟩ := hAmong
    exact (FullText.like_iff_of_plain hPlain).mp hLike

/-! ## A percent sign -/

def discountRequest (limit : Nat) : GrepRequest :=
  { pattern := "50%", mode := .verbatim, scope := .messages, limit, requestedSort := .recency,
    since := none, before := none, summaryKinds := none, role := none }

def discount : MessageRecord :=
  { messageId := 1, conversationId := 1, seq := 1, role := .user, content := "50% off",
    tokenCount := 2, createdAt := 1, suppressedAt := none }

def cats : MessageRecord :=
  { discount with messageId := 2, seq := 2, content := "505 cats", createdAt := 2 }

def discountDb (messages : List MessageRecord) : SearchDb :=
  { unkeyedDb with messages }

def anyConversation : LcmConversationScope :=
  { allConversations := true }

theorem verbatimExact_discount :
    VerbatimExact (discountDb [discount]) (discountRequest 1) anyConversation plainPython
      plainRenderer 10000 quietContext := by
  refine (verbatimExact_iff (.inr rfl)).1.mpr ⟨fun m hAmong => ?_, by decide +kernel⟩
  have hRows : verbatimScopeRows (discountDb [discount]) (discountRequest 1) anyConversation =
      [discount] := by
    decide +kernel
  rw [hRows] at hAmong
  obtain rfl : m = discount :=
    List.mem_singleton.mp (List.mem_of_mem_filter (List.mem_of_mem_take
      (Limit.mem_take_filter_iff.mpr hAmong)))
  decide +kernel

/-- The only hit is a newer message without a percent sign. -/
theorem not_verbatimExact :
    runVerbatimLcmGrep quietContext (discountDb [discount, cats]) (discountRequest 1)
        anyConversation = .verbatim [verbatimHit cats] ∧
      literalMatches (discountDb [discount, cats]) (discountRequest 1) anyConversation =
        [discount] ∧
      ¬ VerbatimExact (discountDb [discount, cats]) (discountRequest 1) anyConversation
        plainPython plainRenderer 10000 quietContext := by
  have hFound : runVerbatimLcmGrep quietContext (discountDb [discount, cats]) (discountRequest 1)
      anyConversation = .verbatim [verbatimHit cats] := by
    have hRows : ((verbatimScopeRows (discountDb [discount, cats]) (discountRequest 1)
        anyConversation).filter (verbatimLike (discountRequest 1))).take (discountRequest 1).limit =
          [cats] := by
      decide +kernel
    rw [runVerbatimLcmGrep_eq (.inr rfl), hRows]
    rfl
  have hLiteral : literalMatches (discountDb [discount, cats]) (discountRequest 1)
      anyConversation = [discount] := by
    decide +kernel
  refine ⟨hFound, hLiteral, fun hExact => ?_⟩
  have hHits := hExact.hits
  rw [hFound, hLiteral] at hHits
  cases hHits

end LosslessHermes.Tools
