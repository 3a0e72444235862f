import LosslessHermes.Store.FullText

/-!
# What `LIKE` finds

A pattern between two `%` finds a text that contains it, but for the case of ASCII letters. With
its metacharacters escaped this is all it finds (`likeTerm_iff`). Without, `%` and `_` also stand
for other characters: `like_of_contains` and, for a pattern that has none of them,
`like_iff_of_plain`.
-/

namespace LosslessHermes.FullText

/-- The characters, up to the case of ASCII letters. -/
def foldAscii (s : String) : List Char :=
  s.toList.map Char.toLower

def containsAscii (text part : String) : Bool :=
  decide (foldAscii part <:+: foldAscii text)

theorem likeMatches_any_iff {tokens : List LikeToken} {text : List Char} :
    likeMatches (.any :: tokens) text = true ↔
      ∃ tail, tail <:+ text ∧ likeMatches tokens tail = true := by
  rw [likeMatches, List.any_eq_true]
  simp only [List.mem_tails]

theorem likeMatches_letters_iff {term : List Char} {tokens : List LikeToken} {text : List Char} :
    likeMatches (term.map .letter ++ tokens) text = true ↔ ∃ part tail, text = part ++ tail ∧
      part.map Char.toLower = term.map Char.toLower ∧ likeMatches tokens tail = true := by
  induction term generalizing text with
  | nil =>
    constructor
    · exact fun h => ⟨[], text, rfl, rfl, h⟩
    · rintro ⟨part, tail, rfl, hPart, h⟩
      rw [List.map_nil, List.map_eq_nil_iff] at hPart
      subst hPart
      exact h
  | cons c term ih =>
    cases text with
    | nil =>
      refine iff_of_false (fun h => nomatch h) ?_
      rintro ⟨part, tail, hEq, hPart, -⟩
      obtain ⟨rfl, -⟩ := List.append_eq_nil_iff.mp hEq.symm
      cases hPart
    | cons d text =>
      rw [List.map_cons, List.cons_append, likeMatches, Bool.and_eq_true, decide_eq_true_eq, ih]
      constructor
      · rintro ⟨hSame, part, tail, rfl, hPart, h⟩
        exact ⟨d :: part, tail, rfl, by rw [List.map_cons, List.map_cons, hSame, hPart], h⟩
      · rintro ⟨part, tail, hEq, hPart, h⟩
        cases part with
        | nil => cases hPart
        | cons e part =>
          rw [List.cons_append, List.cons.injEq] at hEq
          obtain ⟨rfl, rfl⟩ := hEq
          rw [List.map_cons, List.map_cons, List.cons.injEq] at hPart
          exact ⟨hPart.1.symm, part, tail, rfl, hPart.2, h⟩

theorem likeMatches_any (text : List Char) : likeMatches [.any] text = true :=
  likeMatches_any_iff.mpr ⟨[], List.nil_suffix, rfl⟩

/-- Letters between two `%` find the texts that contain them. -/
theorem likeMatches_between_iff {term text : List Char} :
    likeMatches (.any :: (term.map .letter ++ [.any])) text = true ↔
      term.map Char.toLower <:+: text.map Char.toLower := by
  rw [likeMatches_any_iff]
  constructor
  · rintro ⟨tail, hTail, h⟩
    obtain ⟨part, rest, rfl, hPart, -⟩ := likeMatches_letters_iff.mp h
    rw [← hPart]
    exact ((List.prefix_append part rest).isInfix.trans hTail.isInfix).map Char.toLower
  · rintro ⟨before, after, hEq⟩
    -- the text is cut where its folded form is
    obtain ⟨front, last, rfl, hFront, hLast⟩ := List.map_eq_append_iff.mp hEq.symm
    obtain ⟨first, part, rfl, hFirst, hPart⟩ := List.map_eq_append_iff.mp hFront
    refine ⟨part ++ last, ⟨first, (List.append_assoc _ _ _).symm⟩, ?_⟩
    exact likeMatches_letters_iff.mpr ⟨part, last, rfl, hPart, likeMatches_any last⟩

/-! ## Escaped terms -/

theorem likeTokens_any (escape : Option Char) (pattern : List Char) :
    likeTokens escape ('%' :: pattern) = .any :: likeTokens escape pattern := by
  rw [likeTokens.eq_def]
  exact if_pos rfl

theorem likeTokens_other {escape : Option Char} {c : Char} (hAny : c ≠ '%')
    (hEscape : some c ≠ escape) (pattern : List Char) :
    likeTokens escape (c :: pattern) =
      (if c = '_' then .one else .letter c) :: likeTokens escape pattern := by
  rw [likeTokens.eq_def]
  exact (if_neg hAny).trans (if_neg hEscape)

theorem likeTokens_escape (c : Char) (pattern : List Char) :
    likeTokens (some '\\') ('\\' :: c :: pattern) =
      .letter c :: likeTokens (some '\\') pattern := by
  rw [likeTokens.eq_def]
  exact (if_neg (by decide)).trans (if_pos rfl)

theorem likeTokens_escaped (term rest : List Char) :
    likeTokens (some '\\') ((term.flatMap fun c =>
      if c = '\\' ∨ c = '%' ∨ c = '_' then ['\\', c] else [c]) ++ rest) =
        term.map .letter ++ likeTokens (some '\\') rest := by
  induction term with
  | nil => rfl
  | cons c term ih =>
    rw [List.flatMap_cons, List.append_assoc]
    by_cases hMeta : c = '\\' ∨ c = '%' ∨ c = '_'
    · rw [if_pos hMeta, List.cons_append, List.cons_append, List.nil_append, likeTokens_escape,
        ih]
      rfl
    · simp only [not_or] at hMeta
      rw [if_neg (by simp [hMeta]), List.cons_append, List.nil_append,
        likeTokens_other hMeta.2.1 (fun h => hMeta.1 (Option.some.inj h)), if_neg hMeta.2.2, ih]
      rfl

/-- An escaped term finds what contains it. -/
theorem likeTerm_iff {content term : String} :
    likeTerm content term = true ↔ containsAscii content term = true := by
  have hTokens : likeTokens (some '\\') ("%" ++ escapeLike term ++ "%").toList =
      .any :: (term.toList.map .letter ++ [.any]) := by
    have hEnds : ("%" ++ escapeLike term ++ "%").toList =
        '%' :: ((escapeLike term).toList ++ ['%']) := by
      rw [String.toList_append, String.toList_append]
      rfl
    rw [hEnds, escapeLike, String.toList_ofList, likeTokens_any, likeTokens_escaped]
    rfl
  unfold likeTerm like containsAscii
  rw [hTokens, likeMatches_between_iff, decide_eq_true_eq]
  rfl

/-! ## Patterns that are not escaped -/

/-- A character of a pattern without an escape character. -/
def likeToken (c : Char) : LikeToken :=
  if c = '%' then .any else if c = '_' then .one else .letter c

theorem likeTokens_none (pattern : List Char) :
    likeTokens none pattern = pattern.map likeToken := by
  induction pattern with
  | nil => rfl
  | cons c pattern ih =>
    rw [List.map_cons, likeToken]
    by_cases hAny : c = '%'
    · rw [if_pos hAny, hAny, likeTokens_any, ih]
    · rw [if_neg hAny, likeTokens_other hAny (Option.some_ne_none c), ih]

theorem likeTokens_between (pattern : String) :
    likeTokens none ("%" ++ pattern ++ "%").toList =
      .any :: (pattern.toList.map likeToken ++ [.any]) := by
  rw [likeTokens_none, String.toList_append, String.toList_append, List.map_append,
    List.map_append]
  rfl

/-- The characters of a pattern match themselves. -/
theorem likeMatches_self {pattern : List Char} {tokens : List LikeToken} {part tail : List Char}
    (hPart : part.map Char.toLower = pattern.map Char.toLower)
    (h : likeMatches tokens tail = true) :
    likeMatches (pattern.map likeToken ++ tokens) (part ++ tail) = true := by
  induction pattern generalizing part with
  | nil =>
    rw [List.map_nil, List.map_eq_nil_iff] at hPart
    subst hPart
    exact h
  | cons c pattern ih =>
    cases part with
    | nil => cases hPart
    | cons d part =>
      rw [List.map_cons, List.map_cons, List.cons.injEq] at hPart
      have hRest := ih hPart.2
      rw [List.map_cons, List.cons_append, List.cons_append]
      unfold likeToken
      split
      · exact likeMatches_any_iff.mpr ⟨part ++ tail, List.suffix_cons d _, hRest⟩
      · split
        · exact hRest
        · rw [likeMatches, Bool.and_eq_true, decide_eq_true_eq]
          exact ⟨hPart.1.symm, hRest⟩

/-- What contains the pattern is found. -/
theorem like_of_contains {content pattern : String}
    (h : containsAscii content pattern = true) :
    like none ("%" ++ pattern ++ "%") content = true := by
  obtain ⟨before, after, hEq⟩ := of_decide_eq_true h
  obtain ⟨front, last, hText, hFront, -⟩ := List.map_eq_append_iff.mp hEq.symm
  obtain ⟨first, part, rfl, -, hPart⟩ := List.map_eq_append_iff.mp hFront
  unfold like
  rw [likeTokens_between, likeMatches_any_iff]
  refine ⟨part ++ last, ⟨first, ?_⟩, likeMatches_self hPart (likeMatches_any last)⟩
  rw [hText, List.append_assoc]

/-- A pattern without `%` and `_` finds nothing else. -/
theorem like_iff_of_plain {content pattern : String}
    (hPlain : ∀ c ∈ pattern.toList, c ≠ '%' ∧ c ≠ '_') :
    like none ("%" ++ pattern ++ "%") content = true ↔ containsAscii content pattern = true := by
  have hLetters : pattern.toList.map likeToken = pattern.toList.map .letter := by
    refine List.map_congr_left fun c hc => ?_
    rw [likeToken, if_neg (hPlain c hc).1, if_neg (hPlain c hc).2]
  unfold like containsAscii
  rw [likeTokens_between, hLetters, likeMatches_between_iff, decide_eq_true_eq]
  rfl

end LosslessHermes.FullText
