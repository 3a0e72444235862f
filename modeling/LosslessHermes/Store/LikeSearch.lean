import LosslessHermes.Library.Limit
import LosslessHermes.Store.LikeMatches
import LosslessHermes.Store.Search

/-!
# The exactness of the `LIKE` search

`_search_like` asks SQLite for the newest rows whose raw content has every term, as far as the
case of ASCII letters goes, and keeps those of them whose normalised content has every term, in
any case. The limit stands between the two.
-/

namespace LosslessHermes.Search

open Limit (Among)

variable {F : Type}

/-- The messages in scope, newest first. -/
def scopeRows (input : SearchInput) (rows : List MessageRecord) : List MessageRecord :=
  Table.select (fun m => (clauses messageColumns input []).all fun test => test m)
    (newest messageColumns) rows

/-- What the clauses of the terms find. -/
def sqlFinds (terms : List String) (m : MessageRecord) : Bool :=
  terms.all fun term => FullText.likeTerm m.content term

/-- The normalised content contains every term, in any case. -/
def containsTerms (lower : String → String) (terms : List String) (m : MessageRecord) : Bool :=
  terms.all fun term =>
    decide (term.toList <:+: (lower (indexedContent m.content)).toList)

/-- What the search should find. -/
def newestMatches (engine : SearchEngine F) (input : SearchInput) (rows : List MessageRecord) :
    List MessageRecord :=
  ((scopeRows input rows).filter
    (containsTerms engine.lower (FullText.likeTerms engine.lower input.query))).take input.limit

/-- The search finds the newest matches, in their order. -/
def LikeExact [Zero F] (engine : SearchEngine F) (input : SearchInput)
    (rows : List MessageRecord) : Prop :=
  (messagesLike engine input rows).map (·.messageId) =
    (newestMatches engine input rows).map (·.messageId)

/-! ## The statement and the test after it -/

variable {engine : SearchEngine F} {input : SearchInput} {rows : List MessageRecord}

theorem all_appendConversationScopeConstraint {ρ : Type} (tests : List (ρ → Bool))
    (column : ρ → ConversationId) (conversationId : Option Int)
    (conversationIds : Option (List Int)) (r : ρ) :
    ((appendConversationScopeConstraint tests column conversationId conversationIds).all
        fun test => test r) =
      ((tests.all fun test => test r) &&
        (appendConversationScopeConstraint [] column conversationId conversationIds).all
          fun test => test r) := by
  unfold appendConversationScopeConstraint
  split
  · rw [List.all_append, List.nil_append]
  · rw [List.all_append, List.nil_append]
  · split
    · rw [List.all_append, List.nil_append]
    · rw [List.all_nil, Bool.and_true]

/-- The clauses of a backend come on top of the others. -/
theorem all_clauses {ρ : Type} (columns : Columns ρ) (tests : List (ρ → Bool)) (r : ρ) :
    ((clauses columns input tests).all fun test => test r) =
      (((clauses columns input []).all fun test => test r) && tests.all fun test => test r) := by
  unfold clauses
  rw [List.all_append, List.all_append, all_appendConversationScopeConstraint,
    all_appendConversationScopeConstraint ([] ++ _), List.all_append, List.all_append]
  simp only [List.all_nil, Bool.true_and]
  ac_rfl

theorem selectRows_eq {ρ κ : Type} [LinearOrder κ] (columns : Columns ρ)
    (tests : List (ρ → Bool)) (key : ρ → κ) (limit : Nat) (rows : List ρ) :
    selectRows columns input tests key limit rows =
      ((Table.select (fun r => (clauses columns input []).all fun test => test r) key
        rows).filter fun r => tests.all fun test => test r).take limit := by
  unfold selectRows
  rw [Table.filter_select_eq]
  simp only [all_clauses columns tests]

theorem find_isSome_iff (s part : String) :
    (Text.find s part).isSome = true ↔ part.toList <:+: s.toList := by
  unfold Text.find
  rw [List.findIdx?_isSome, List.any_eq_true]
  simp only [List.mem_tails, List.isPrefixOf_iff_prefix]
  exact (exists_congr fun _ => and_comm).trans List.infix_iff_prefix_suffix.symm

/-- The search, by the rows in scope. -/
theorem messagesLike_ids [Zero F] {terms : List String}
    (hTerms : FullText.likeTerms engine.lower input.query = terms) :
    (messagesLike engine input rows).map (·.messageId) =
      if terms = [] then []
      else ((((scopeRows input rows).filter (sqlFinds terms)).take input.limit).filter
        (containsTerms engine.lower terms)).map (·.messageId) := by
  unfold messagesLike
  rw [hTerms]
  dsimp only
  by_cases hNil : terms = []
  · rw [if_pos hNil, if_pos hNil]
    rfl
  · have hSql : (fun m : MessageRecord =>
        (terms.map fun term m => FullText.likeTerm m.content term).all fun test => test m) =
        sqlFinds terms := by
      funext m
      simp only [sqlFinds, List.all_map, Function.comp_def]
    have hContains : (fun m : MessageRecord => terms.all fun term =>
        (Text.find (engine.lower (indexedContent m.content)) term).isSome) =
        containsTerms engine.lower terms := by
      funext m
      refine congrArg _ (funext fun term => ?_)
      rw [Bool.eq_iff_iff, find_isSome_iff, decide_eq_true_eq]
    rw [if_neg hNil, if_neg hNil, List.map_map, selectRows_eq, hSql, hContains]
    rfl

/-- Rows with distinct ids are told apart by them. -/
theorem eq_of_map_messageId (hIds : (rows.map (·.messageId)).Nodup)
    {found wanted : List MessageRecord} (hFound : found ⊆ rows) (hWanted : wanted ⊆ rows)
    (h : found.map (·.messageId) = wanted.map (·.messageId)) : found = wanted := by
  induction found generalizing wanted with
  | nil => exact (List.map_eq_nil_iff.mp h.symm).symm
  | cons m found ih =>
    cases wanted with
    | nil => cases h
    | cons m' wanted =>
      rw [List.map_cons, List.map_cons, List.cons.injEq] at h
      rw [List.cons_subset] at hFound hWanted
      have hSame := List.inj_on_of_nodup_map hIds hFound.1 hWanted.1 h.1
      rw [hSame, ih hFound.2 hWanted.2 h.2]

theorem scopeRows_subset (input : SearchInput) (rows : List MessageRecord) :
    scopeRows input rows ⊆ rows := fun _ h => (Table.mem_select.mp h).1

theorem nodup_scopeRows (hIds : (rows.map (·.messageId)).Nodup) : (scopeRows input rows).Nodup :=
  (Table.select_perm rows).nodup_iff.mpr ((List.Nodup.of_map _ hIds).filter _)

/-- What the search needs: a query with a term, or nothing to find, and no match among the newest
that SQLite does not have among its newest. -/
structure NewestFound (engine : SearchEngine F) (input : SearchInput)
    (rows : List MessageRecord) : Prop where
  terms : FullText.likeTerms engine.lower input.query = [] →
    input.limit = 0 ∨ scopeRows input rows = []
  found : ∀ m,
    Among (containsTerms engine.lower (FullText.likeTerms engine.lower input.query)) input.limit
      (scopeRows input rows) m →
    Among (sqlFinds (FullText.likeTerms engine.lower input.query)) input.limit
      (scopeRows input rows) m

theorem exact_iff_found [Zero F] (hIds : (rows.map (·.messageId)).Nodup) :
    LikeExact engine input rows ↔ NewestFound engine input rows := by
  obtain ⟨terms, hTerms⟩ : ∃ terms, FullText.likeTerms engine.lower input.query = terms :=
    ⟨_, rfl⟩
  have hFound : NewestFound engine input rows ↔
      (terms = [] → input.limit = 0 ∨ scopeRows input rows = []) ∧
        ∀ m, Among (containsTerms engine.lower terms) input.limit (scopeRows input rows) m →
          Among (sqlFinds terms) input.limit (scopeRows input rows) m := by
    subst hTerms
    exact ⟨fun h => ⟨h.terms, h.found⟩, fun h => ⟨h.1, h.2⟩⟩
  unfold LikeExact newestMatches
  rw [messagesLike_ids hTerms, hFound, hTerms]
  by_cases hNil : terms = []
  · have hSql : sqlFinds [] = fun _ => true := rfl
    have hContains : containsTerms engine.lower [] = fun _ => true := rfl
    rw [if_pos hNil, hNil, hSql, hContains, List.filter_true, eq_comm, List.map_eq_nil_iff,
      List.take_eq_nil_iff]
    exact ⟨fun h => ⟨fun _ => h, fun _ hMem => hMem⟩, fun h => h.1 rfl⟩
  · rw [if_neg hNil, ← Limit.filter_take_filter_eq_iff (nodup_scopeRows hIds)]
    refine ⟨fun h => ⟨fun h' => absurd h' hNil, ?_⟩, fun h => congrArg _ h.2⟩
    refine eq_of_map_messageId hIds (fun m hm => ?_) (fun m hm => ?_) h
    · exact scopeRows_subset input rows
        (List.mem_of_mem_filter (List.mem_of_mem_take (List.mem_of_mem_filter hm)))
    · exact scopeRows_subset input rows (List.mem_of_mem_filter (List.mem_of_mem_take hm))

/-! ## Plain contents -/

/-- What `str.lower` does to ASCII letters. -/
structure LowersAscii (lower : String → String) : Prop where
  ascii : ∀ s : String, (∀ c ∈ s.toList, c.toNat < 128) →
    (lower s).toList = s.toList.map Char.toLower
  lowered : ∀ s, ∀ c ∈ (lower s).toList, c.toLower = c

/-- The content is ASCII, and the index has it as it is. -/
structure Plain (m : MessageRecord) : Prop where
  ascii : ∀ c ∈ m.content.toList, c.toNat < 128
  indexed : indexedContent m.content = m.content

theorem likeTerms_lowered {lower : String → String} (hLower : LowersAscii lower) (query : String) :
    ∀ term ∈ FullText.likeTerms lower query, ∀ c ∈ term.toList, c.toLower = c := by
  have hTerm : ∀ raw, ∀ c ∈ (FullText.normalizeFallbackTerm lower raw).toList, c.toLower = c :=
    fun raw => hLower.lowered _
  intro term hMem
  unfold FullText.likeTerms at hMem
  dsimp only at hMem
  split at hMem
  · rw [List.mem_singleton.mp (List.mem_of_mem_filter hMem)]
    exact hTerm query
  · obtain ⟨raw, -, rfl⟩ := List.mem_map.mp
      (List.mem_of_mem_filter (List.mem_eraseDups.mp hMem))
    exact hTerm _

/-- On plain contents the two tests agree. -/
theorem sqlFinds_eq_containsTerms {lower : String → String} (hLower : LowersAscii lower)
    (query : String) {m : MessageRecord} (h : Plain m) :
    sqlFinds (FullText.likeTerms lower query) m =
      containsTerms lower (FullText.likeTerms lower query) m := by
  unfold sqlFinds containsTerms
  rw [h.indexed, hLower.ascii _ h.ascii, Bool.eq_iff_iff, List.all_eq_true, List.all_eq_true]
  refine forall_congr' fun term => forall_congr' fun hTerm => ?_
  rw [FullText.likeTerm_iff, FullText.containsAscii, FullText.foldAscii,
    List.map_congr_left (likeTerms_lowered hLower query term hTerm), List.map_id']
  rfl

theorem likeExact_of_plain [Zero F] (hIds : (rows.map (·.messageId)).Nodup)
    (hLower : LowersAscii engine.lower)
    (hTerms : FullText.likeTerms engine.lower input.query ≠ [])
    (hPlain : ∀ m ∈ scopeRows input rows, Plain m) : LikeExact engine input rows := by
  refine (exact_iff_found hIds).mpr ⟨fun h => absurd h hTerms, fun m hMem => ?_⟩
  rw [← Limit.mem_take_filter_iff] at hMem ⊢
  have hSame : (scopeRows input rows).filter
      (sqlFinds (FullText.likeTerms engine.lower input.query)) = (scopeRows input rows).filter
        (containsTerms engine.lower (FullText.likeTerms engine.lower input.query)) :=
    List.filter_congr fun m hm => sqlFinds_eq_containsTerms hLower _ (hPlain m hm)
  rw [hSame]
  exact hMem

/-- Without FTS5 the text search is this one. -/
theorem searchMessages_eq_messagesLike [LinearOrder F] [Zero F] (hMode : input.mode = .fullText)
    (hFts : engine.messagesFts5Available = false) :
    searchMessages engine input rows = messagesLike engine input rows := by
  unfold searchMessages
  rw [hMode, hFts]
  dsimp only
  split
  · rfl
  · rfl

/-- The ids of `messages` are its primary key. -/
theorem likeExact_iff [Zero F] (engine : SearchEngine F) (input : SearchInput)
    (rows : List MessageRecord) (hIds : (rows.map (·.messageId)).Nodup) :
    (LikeExact engine input rows ↔ NewestFound engine input rows) ∧
      (LowersAscii engine.lower → FullText.likeTerms engine.lower input.query ≠ [] →
        (∀ m ∈ scopeRows input rows, Plain m) → LikeExact engine input rows) :=
  ⟨exact_iff_found hIds, likeExact_of_plain hIds⟩

/-! ## A reference to a stored output -/

def lowerAscii (s : String) : String :=
  String.ofList (s.toList.map Char.toLower)

/-- Without FTS5, and with the lower case of ASCII letters. -/
def asciiEngine : SearchEngine Nat where
  lower := lowerAscii
  isWord := Char.isAlphanum
  compile := fun _ => none
  messagesFts5Available := false
  summariesFts5Available := false
  messagesFts := ⟨fun _ => none, fun _ _ => 0, fun _ _ => "", fun x _ => x⟩
  summariesFts := ⟨fun _ => none, fun _ _ => 0, fun _ _ => "", fun x _ => x⟩
  summariesFtsCjk := ⟨fun _ => none, fun _ _ => 0, fun _ _ => "", fun x _ => x⟩

def inspectOne : SearchInput := ⟨"inspect", .fullText, none, none, none, none, 1, .recency⟩

def wanted : MessageRecord := ⟨1, 1, 0, .user, "inspect it", 3, 10, none⟩

/-- The hint of the reference has the word, its indexed content does not. -/
def reference : MessageRecord :=
  ⟨2, 1, 1, .tool, "[LCM File: f]\nUse lcm_describe to inspect", 8, 20, none⟩

theorem toLower_toLower (c : Char) : c.toLower.toLower = c.toLower := by
  by_cases hUpper : c.val ≥ 'A'.val ∧ c.val ≤ 'Z'.val
  · -- a small letter is not a capital
    have hSmall : ¬ (c.toLower.val ≥ 'A'.val ∧ c.toLower.val ≤ 'Z'.val) := by
      have hVal : c.toLower.val = c.val + ('a'.val - 'A'.val) := by
        rw [Char.toLower.eq_def, dif_pos hUpper]
      have hShift : ('a'.val - 'A'.val).toNat = 32 := rfl
      have hA : ('A'.val).toNat = 65 := rfl
      have hZ : ('Z'.val).toNat = 90 := rfl
      rw [hVal]
      simp only [ge_iff_le, UInt32.le_iff_toNat_le, UInt32.toNat_add, hShift, hA, hZ] at hUpper ⊢
      omega
    rw [Char.toLower.eq_def c.toLower, dif_neg hSmall]
  · rw [Char.toLower.eq_def c, dif_neg hUpper, Char.toLower.eq_def c, dif_neg hUpper]

theorem lowersAscii_lowerAscii : LowersAscii lowerAscii where
  ascii := fun s _ => String.toList_ofList
  lowered := fun s c hc => by
    rw [lowerAscii, String.toList_ofList] at hc
    obtain ⟨d, -, rfl⟩ := List.mem_map.mp hc
    exact toLower_toLower d

theorem plain_wanted : Plain wanted where
  ascii := by simp [wanted]
  indexed := by decide +kernel

theorem likeExact_wanted : LikeExact asciiEngine inspectOne [wanted] :=
  (likeExact_iff asciiEngine inspectOne [wanted] (by decide)).2 lowersAscii_lowerAscii
    (by decide +kernel) fun m hm => by
      obtain rfl : m = wanted := List.mem_singleton.mp (scopeRows_subset inspectOne [wanted] hm)
      exact plain_wanted

/-- The newer reference takes the only place, and is dropped. -/
theorem not_likeExact : messagesLike asciiEngine inspectOne [wanted, reference] = [] ∧
    newestMatches asciiEngine inspectOne [wanted, reference] = [wanted] ∧
      ¬ LikeExact asciiEngine inspectOne [wanted, reference] := by
  have hFound : messagesLike asciiEngine inspectOne [wanted, reference] = [] := by decide +kernel
  have hWanted : newestMatches asciiEngine inspectOne [wanted, reference] = [wanted] := by
    decide +kernel
  refine ⟨hFound, hWanted, ?_⟩
  unfold LikeExact
  rw [hFound, hWanted]
  exact fun h => nomatch h

end LosslessHermes.Search
