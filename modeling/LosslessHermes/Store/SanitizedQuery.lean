import LosslessHermes.Library.Repetition
import LosslessHermes.Library.Terminated
import LosslessHermes.Store.FullText
import Mathlib.Data.List.Flatten

/-!
# The terms of a sanitized query

What a query asks for is read off its quotes: `stretches` takes its segments, each behind a
quote, and tells the quoted phrases from the text around them. `terms` are the contents of the
phrases and the tokens of that text; they have all its letters (`letters_terms`).
The tokens of quotes alone are what the expression for FTS5 gets wrong (`emitsTerms_iff`).
-/

namespace LosslessHermes.FullText

/-! ## The terms of a query -/

/-- A part of a query: text around the quoted phrases, or what such a phrase has inside. -/
inductive Stretch
  | outside (text : List Char)
  | phrase (text : List Char)
  deriving DecidableEq

/-- A quote opens a phrase if another one follows, but not at once. `gap` is the text behind the
last phrase, and a quote stands before each segment. -/
def stretches (gap : List Char) : List (List Char) → List Stretch
  | [] => [.outside gap]
  | [segment] => [.outside (gap ++ quote :: segment)]
  | segment :: next :: segments =>
      if segment = [] then stretches (gap ++ [quote]) (next :: segments)
      else .outside gap :: .phrase segment :: stretches next segments

def queryStretches (raw : String) : List Stretch :=
  let segments := raw.toList.splitOn quote
  stretches (segments.headD []) segments.tail

/-- The tokens outside the phrases. -/
def Stretch.tokens : Stretch → List (List Char)
  | .outside text => (text.splitOnP Text.isSpace).filter (· ≠ [])
  | .phrase _ => []

def unquote (token : List Char) : List Char :=
  token.filter (· ≠ quote)

def Stretch.contents : Stretch → List (List Char)
  | .outside text => (Stretch.outside text).tokens.map unquote
  | .phrase text => [Text.stripChars text]

/-- The phrases and the tokens without their quotes; the empty ones are dropped. -/
def terms (raw : String) : List (List Char) :=
  ((queryStretches raw).flatMap Stretch.contents).filter (· ≠ [])

/-! ## Expressions that are made of strings -/

/-- What stands outside the strings of an expression, if its quotes balance. -/
def bare (inside : Bool) : List Char → Option (List Char)
  | [] => if inside then none else some []
  | c :: rest =>
      if c = quote then bare (!inside) rest
      else if inside then bare inside rest
      else (bare inside rest).map (c :: ·)

/-- The expression is the sequence of these strings: what stands outside them are the spaces
between two, so that FTS5 finds no operator and no column there. -/
structure Strings (phrases : List (List Char)) (expression : String) : Prop where
  someString : phrases ≠ []
  joined : expression = " ".intercalate (phrases.map quoted)
  noQuote : ∀ p ∈ phrases, quote ∉ p
  inert : bare false expression.toList = some (List.replicate (phrases.length - 1) ' ')

/-- A single empty string where there is none. -/
def orEmpty (phrases : List (List Char)) : List (List Char) :=
  if phrases = [] then [[]] else phrases

/-- The expression consists of the terms of the query. -/
def EmitsTerms (raw : String) : Prop :=
  Strings (orEmpty (terms raw)) (sanitizeFts5Query raw)

def looseTokens (raw : String) : List (List Char) :=
  (queryStretches raw).flatMap Stretch.tokens

/-- Each token outside the phrases has a character that is not a quote, or there is one such
token only and no phrase has a content. -/
def NoStrayQuotes (raw : String) : Prop :=
  (∀ t ∈ looseTokens raw, ∃ c ∈ t, c ≠ quote) ∨
    (looseTokens raw).length = 1 ∧
      ∀ text, .phrase text ∈ queryStretches raw → ∀ c ∈ text, Text.isSpace c = true

/-! ## No letter is lost -/

theorem exists_segments (raw : String) :
    ∃ gap segments, quote ∉ gap ∧ (∀ s ∈ segments, quote ∉ s) ∧
      raw.toList = gap ++ segments.flatMap (quote :: ·) ∧
      queryStretches raw = stretches gap segments := by
  obtain ⟨gap, segments, hSplit⟩ :=
    List.exists_cons_of_ne_nil (List.splitOn_ne_nil quote raw.toList)
  have hSolid : ∀ s ∈ gap :: segments, quote ∉ s := fun s hs => splitOn_solid (hSplit ▸ hs)
  obtain ⟨hGap, hSegments⟩ := List.forall_mem_cons.mp hSolid
  refine ⟨gap, segments, hGap, hSegments, ?_, ?_⟩
  · rw [← intercalate_mark, ← hSplit, List.intercalate_splitOn]
  · rw [queryStretches, hSplit]
    rfl

theorem mem_of_phrase {gap text : List Char} {segments : List (List Char)}
    (hMem : .phrase text ∈ stretches gap segments) : text ∈ segments := by
  induction gap, segments using stretches.induct with
  | case1 gap => simp [stretches] at hMem
  | case2 gap last => simp [stretches] at hMem
  | case3 gap next segments ih =>
    rw [stretches, if_pos rfl] at hMem
    exact List.mem_cons_of_mem _ (ih hMem)
  | case4 gap segment next segments hNe ih =>
    simp only [stretches, if_neg hNe, List.mem_cons, reduceCtorEq, false_or,
      Stretch.phrase.injEq] at hMem
    rcases hMem with rfl | hMem
    · exact List.mem_cons_self
    · exact List.mem_cons_of_mem _ (List.mem_cons_of_mem _ (ih hMem))

def letters (s : List Char) : List Char :=
  s.filter fun c => !Text.isSpace c && c ≠ quote

def Stretch.text : Stretch → List Char
  | .outside text => text
  | .phrase text => text

theorem letters_stretches (gap : List Char) (segments : List (List Char)) :
    letters ((stretches gap segments).flatMap Stretch.text) =
      letters (gap ++ segments.flatMap (quote :: ·)) := by
  have hQuote : ∀ s, letters (quote :: s) = letters s := fun s => by simp [letters]
  have hAppend : ∀ s t, letters (s ++ t) = letters s ++ letters t := fun s t =>
    List.filter_append ..
  induction gap, segments using stretches.induct with
  | case1 gap => simp [stretches, Stretch.text]
  | case2 gap last => simp [stretches, Stretch.text, hAppend, hQuote]
  | case3 gap next segments ih =>
    rw [stretches, if_pos rfl, ih]
    simp
  | case4 gap segment next segments hNe ih =>
    rw [hAppend] at ih
    simp [stretches, hNe, Stretch.text, hAppend, hQuote, ih]

theorem letters_contents {stretch : Stretch}
    (h : ∀ text, stretch = .phrase text → quote ∉ text) :
    (stretch.contents.flatten.filter fun c => !Text.isSpace c) = letters stretch.text := by
  cases stretch with
  | outside text =>
    have hTokens : (Stretch.outside text).contents.flatten =
        unquote (text.filter fun c => !Text.isSpace c) := by
      rw [← flatten_splitOnP, ← List.flatten_filter_ne_nil (L := text.splitOnP Text.isSpace)]
      exact List.filter_flatten.symm
    rw [hTokens, unquote, List.filter_filter, List.filter_filter]
    refine List.filter_congr fun c _ => ?_
    cases Text.isSpace c with
    | true => rfl
    | false => simp
  | phrase text =>
    rw [Stretch.contents, List.flatten_singleton, Text.filter_stripChars]
    refine List.filter_congr fun c hc => ?_
    simp [ne_of_mem_of_not_mem hc (h text rfl)]

/-- The terms have the letters of the query, in order. -/
theorem letters_terms (raw : String) :
    ((terms raw).flatten.filter fun c => !Text.isSpace c) = letters raw.toList := by
  obtain ⟨gap, segments, -, hSolid, hRaw, hStretches⟩ := exists_segments raw
  rw [terms, List.flatten_filter_ne_nil, hStretches, hRaw, ← letters_stretches, letters,
    List.filter_flatMap, ← List.flatMap_id (L := List.flatMap _ _), List.flatMap_assoc,
    List.filter_flatMap]
  refine List.flatMap_congr fun stretch hStretch => ?_
  rw [List.flatMap_id]
  exact letters_contents fun text hText => hSolid text (mem_of_phrase (hText ▸ hStretch))

/-! ## The strings of an expression -/

variable {p s : List Char} {phrases : List (List Char)}

theorem bare_inside (h : quote ∉ p) (rest : List Char) :
    bare true (p ++ quote :: rest) = bare false rest := by
  induction p with
  | nil => rfl
  | cons c p ih =>
    rw [List.mem_cons, not_or] at h
    rw [List.cons_append, bare, if_neg (Ne.symm h.1), if_pos rfl, ih h.2]

theorem bare_intercalate (hNe : phrases ≠ []) (h : ∀ p ∈ phrases, quote ∉ p) :
    bare false (" ".intercalate (phrases.map quoted)).toList =
      some (List.replicate (phrases.length - 1) ' ') := by
  have hFirst : ∀ p rest, quote ∉ p →
      bare false ((quoted p).toList ++ rest) = bare false rest := fun p rest hp => by
    rw [quoted, String.toList_ofList, List.append_assoc, List.append_assoc, List.singleton_append,
      List.singleton_append, bare, if_pos rfl]
    exact bare_inside hp rest
  rw [String.toList_intercalate]
  induction phrases with
  | nil => exact absurd rfl hNe
  | cons p phrases ih =>
    obtain ⟨hp, hRest⟩ := List.forall_mem_cons.mp h
    cases phrases with
    | nil =>
      rw [List.map_singleton, List.map_singleton, List.intercalate_singleton,
        ← List.append_nil (quoted p).toList, hFirst p [] hp]
      rfl
    | cons next phrases =>
      rw [List.map_cons, List.map_cons, List.map_cons, List.map_cons, List.intercalate_cons_cons,
        List.append_assoc, hFirst p _ hp]
      exact congrArg (Option.map (' ' :: ·)) (ih (List.cons_ne_nil _ _) hRest)

theorem strings_intercalate (hNe : phrases ≠ []) (h : ∀ p ∈ phrases, quote ∉ p) :
    Strings phrases (" ".intercalate (phrases.map quoted)) :=
  ⟨hNe, rfl, h, bare_intercalate hNe h⟩

/-- The spaces outside the strings tell how many there are. -/
theorem Strings.length_eq {phrases' : List (List Char)} {expression : String}
    (h : Strings phrases expression) (h' : Strings phrases' expression) :
    phrases.length = phrases'.length := by
  have hSpaces := Option.some.inj (h.inert.symm.trans h'.inert)
  have hCount := congrArg List.length hSpaces
  rw [List.length_replicate, List.length_replicate] at hCount
  have hPos := List.length_pos_iff.mpr h.someString
  have hPos' := List.length_pos_iff.mpr h'.someString
  omega

/-! ## The scan for phrases -/

theorem matchAt_phrase_of_ne {c : Char} (h : c ≠ quote) (rest : List Char) :
    Regex.matchAt PHRASE_RE (none, c :: rest) = none := by
  simp [Regex.matchAt, PHRASE_RE, Regex.run, h]

theorem matchAt_phrase_twice (rest : List Char) :
    Regex.matchAt PHRASE_RE (none, quote :: quote :: rest) = none := by
  simp [Regex.matchAt, PHRASE_RE, run, Regex.atLeast, Regex.run]

theorem matchAt_phrase_last (h : quote ∉ s) :
    Regex.matchAt PHRASE_RE (none, quote :: s) = none := by
  have hRun : Regex.run PHRASE_RE (none, quote :: s) = [] := by
    refine List.eq_nil_iff_forall_not_mem.mpr fun place' hMem => h ?_
    obtain ⟨opened, hOpened, hMem⟩ := List.mem_flatMap.mp hMem
    obtain ⟨closing, hClosing, hMem⟩ := List.mem_flatMap.mp hMem
    have hRest : opened.2 = s := by
      have hEq : opened = (some quote, s) := by simpa [Regex.run] using hOpened
      rw [hEq]
    -- the closing quote is one of the characters behind the first
    refine (hRest ▸ Regex.run_suffix _ hClosing).subset ?_
    obtain ⟨before, text⟩ := closing
    cases text with
    | nil => exact absurd hMem List.not_mem_nil
    | cons c rest =>
      by_cases hc : c = quote
      · exact hc ▸ List.mem_cons_self
      · simp [Regex.run, hc] at hMem
  rw [Regex.matchAt, hRun]
  rfl

theorem matchAt_phrase (hNe : s ≠ []) (h : quote ∉ s) (rest : List Char) :
    Regex.matchAt PHRASE_RE (none, quote :: (s ++ quote :: rest)) = some (some quote, rest) := by
  have hClass : ∀ d ∈ s, decide (d ≠ quote) = true := fun d hd =>
    decide_eq_true (ne_of_mem_of_not_mem hd h)
  obtain ⟨last, places, hRun⟩ := @Regex.run_class quote s (fun d => decide (d ≠ quote)) hClass hNe
    (by decide) (some quote) rest
  have hOpen : Regex.run (.char (· = quote)) (none, quote :: (s ++ quote :: rest)) =
      [(some quote, s ++ quote :: rest)] := by simp [Regex.run]
  have hClose : Regex.run (.char (· = quote)) (last, quote :: rest) = [(some quote, rest)] := by
    simp [Regex.run]
  have hWhole := Regex.run_seq_cons hOpen (Regex.run_seq_cons hRun hClose)
  rw [Regex.matchAt, PHRASE_RE, run, hWhole, List.head?_cons, Option.filter_some]
  refine if_pos (decide_eq_true ?_)
  simp only [List.length_cons, List.length_append]
  omega

theorem blind_phrase : Regex.Blind PHRASE_RE :=
  ⟨trivial, Regex.blind_class _, trivial⟩

theorem split_phrase (hNe : s ≠ []) (h : quote ∉ s) (rest : List Char) :
    Regex.split PHRASE_RE (quote :: (s ++ quote :: rest)) =
      .hit (quote :: (s ++ [quote])) :: Regex.split PHRASE_RE rest := by
  have hTake : (quote :: (s ++ quote :: rest)).take
      ((quote :: (s ++ quote :: rest)).length - rest.length) = quote :: (s ++ [quote]) := by
    have hText : quote :: (s ++ quote :: rest) = (quote :: (s ++ [quote])) ++ rest := by simp
    rw [hText, List.length_append, Nat.add_sub_cancel, List.take_left]
  rw [Regex.split_of_some blind_phrase (matchAt_phrase hNe h rest), hTake]

/-- Text without a quote is kept for the tokens. -/
theorem sanitizedParts_append (h : quote ∉ s) (before tail : List Char) :
    sanitizedParts before (Regex.split PHRASE_RE (s ++ tail)) =
      sanitizedParts (before ++ s) (Regex.split PHRASE_RE tail) := by
  induction s generalizing before with
  | nil => rw [List.append_nil, List.nil_append]
  | cons c s ih =>
    rw [List.mem_cons, not_or] at h
    rw [List.cons_append, Regex.split_of_none blind_phrase
      (matchAt_phrase_of_ne (Ne.symm h.1) _), sanitizedParts, ih h.2, List.append_assoc,
      List.singleton_append]

theorem words_eq (text : List Char) : words text = (Stretch.outside text).tokens := by
  rw [words, run, Regex.hits_class]
  simp only [Bool.not_not]
  rfl

/-- What is emitted of a stretch: a phrase is dropped if it is empty, a token is not. -/
def Stretch.emitted : Stretch → List (List Char)
  | .outside text => (Stretch.outside text).contents
  | .phrase text => (Stretch.phrase text).contents.filter (· ≠ [])

theorem quotedWords_eq (text : List Char) :
    quotedWords text = (Stretch.outside text).emitted.map quoted := by
  rw [quotedWords, words_eq, Stretch.emitted, Stretch.contents, List.map_map]
  rfl

theorem quotedPhrase_eq (h : quote ∉ s) :
    (let phrase := Text.stripChars ((quote :: (s ++ [quote])).filter (· ≠ quote))
      if phrase = [] then [] else [quoted phrase]) = (Stretch.phrase s).emitted.map quoted := by
  have hSolid : ∀ c ∈ s, decide (c ≠ quote) = true := fun c hc =>
    decide_eq_true (ne_of_mem_of_not_mem hc h)
  have hFilter : (quote :: (s ++ [quote])).filter (· ≠ quote) = s := by
    rw [List.filter_cons_of_neg (by simp), List.filter_append, List.filter_eq_self.mpr hSolid,
      List.filter_cons_of_neg (by simp), List.filter_nil, List.append_nil]
  rw [hFilter]
  by_cases hEmpty : Text.stripChars s = []
  · simp [Stretch.emitted, Stretch.contents, hEmpty]
  · simp [Stretch.emitted, Stretch.contents, hEmpty]

/-- The scan meets the phrases where the quotes put them. -/
theorem sanitizedParts_stretches (gap : List Char) {segments : List (List Char)}
    (h : ∀ s ∈ segments, quote ∉ s) :
    sanitizedParts gap (Regex.split PHRASE_RE (segments.flatMap (quote :: ·))) =
      ((stretches gap segments).flatMap Stretch.emitted).map quoted := by
  have hDone : ∀ before s, quote ∉ s →
      sanitizedParts before (Regex.split PHRASE_RE s) = quotedWords (before ++ s) := by
    intro before s hs
    have hAppend := sanitizedParts_append hs before []
    rwa [List.append_nil] at hAppend
  induction gap, segments using stretches.induct with
  | case1 gap =>
    rw [List.flatMap_nil, stretches, List.flatMap_singleton, ← quotedWords_eq]
    rfl
  | case2 gap last =>
    have hLast := h last List.mem_cons_self
    rw [List.flatMap_singleton, stretches, List.flatMap_singleton, ← quotedWords_eq,
      Regex.split_of_none blind_phrase (matchAt_phrase_last hLast), sanitizedParts,
      hDone _ last hLast, List.append_assoc, List.singleton_append]
  | case3 gap next segments ih =>
    rw [List.flatMap_cons, List.flatMap_cons, List.singleton_append, List.cons_append,
      Regex.split_of_none blind_phrase (matchAt_phrase_twice _), sanitizedParts, stretches,
      if_pos rfl, ← ih fun s hs => h s (List.mem_cons_of_mem _ hs), List.flatMap_cons,
      List.cons_append]
  | case4 gap segment next segments hNe ih =>
    obtain ⟨hSegment, hNext, hRest⟩ : quote ∉ segment ∧ quote ∉ next ∧
        ∀ s ∈ segments, quote ∉ s := by
      simpa using h
    rw [List.flatMap_cons, List.flatMap_cons, List.cons_append, List.cons_append,
      split_phrase hNe hSegment, sanitizedParts, sanitizedParts_append hNext, List.nil_append,
      ih hRest, quotedPhrase_eq hSegment, quotedWords_eq, stretches, if_neg hNe,
      List.flatMap_cons, List.flatMap_cons, List.map_append, List.map_append, List.append_assoc]

/-- The strings that the code emits, before it falls back on an empty one. -/
def emitted (raw : String) : List (List Char) :=
  (queryStretches raw).flatMap Stretch.emitted

theorem sanitizeFts5Query_eq (raw : String) :
    sanitizeFts5Query raw = " ".intercalate ((orEmpty (emitted raw)).map quoted) := by
  obtain ⟨gap, segments, hGap, hSegments, hRaw, hStretches⟩ := exists_segments raw
  have hParts : sanitizedParts [] (Regex.split PHRASE_RE raw.toList) =
      (emitted raw).map quoted := by
    rw [hRaw, sanitizedParts_append hGap, List.nil_append, sanitizedParts_stretches gap hSegments,
      emitted, hStretches]
  unfold sanitizeFts5Query orEmpty
  rw [hParts]
  dsimp only
  by_cases hNone : emitted raw = []
  · rw [hNone]
    rfl
  · rw [if_neg hNone, if_neg fun hMap => hNone (List.map_eq_nil_iff.mp hMap)]

/-! ## The strings are the terms -/

theorem terms_eq (raw : String) : terms raw = (emitted raw).filter (· ≠ []) := by
  rw [terms, emitted, List.filter_flatMap, List.filter_flatMap]
  refine List.flatMap_congr fun stretch _ => ?_
  cases stretch with
  | outside text => rfl
  | phrase text => rw [Stretch.emitted, List.filter_filter]; simp

theorem noQuote_emitted {raw : String} (hMem : p ∈ emitted raw) : quote ∉ p := by
  obtain ⟨stretch, hStretch, hMem⟩ := List.mem_flatMap.mp hMem
  cases stretch with
  | outside text =>
    obtain ⟨token, -, rfl⟩ := List.mem_map.mp hMem
    exact fun hQuote => of_decide_eq_true (List.mem_filter.mp hQuote).2 rfl
  | phrase text =>
    obtain rfl := List.mem_singleton.mp (List.mem_filter.mp hMem).1
    obtain ⟨gap, segments, -, hSolid, -, hStretches⟩ := exists_segments raw
    have hText := hSolid text (mem_of_phrase (hStretches ▸ hStretch))
    exact fun hQuote => hText ((Text.stripChars_inside text).subset hQuote)

theorem strings_emitted (raw : String) :
    Strings (orEmpty (emitted raw)) (sanitizeFts5Query raw) := by
  rw [sanitizeFts5Query_eq]
  refine strings_intercalate ?_ ?_
  · unfold orEmpty
    split
    · exact List.cons_ne_nil _ _
    · assumption
  · intro p hp
    unfold orEmpty at hp
    split at hp
    · rw [List.mem_singleton.mp hp]
      exact List.not_mem_nil
    · exact noQuote_emitted hp

/-- An empty string stands in the expression of the code, unless it is the only one. -/
theorem emitsTerms_iff_emitted (raw : String) :
    EmitsTerms raw ↔ [] ∉ emitted raw ∨ emitted raw = [[]] := by
  have hCode := strings_emitted raw
  constructor
  · intro h
    have hLength := h.length_eq hCode
    rw [terms_eq] at hLength
    by_cases hNone : emitted raw = []
    · exact Or.inl (hNone ▸ List.not_mem_nil)
    rw [orEmpty, orEmpty, if_neg hNone] at hLength
    split at hLength
    · rename_i hEmpty
      obtain ⟨p, hp⟩ := List.length_eq_one_iff.mp hLength.symm
      rw [hp] at hEmpty ⊢
      have hBlank : p = [] := by simpa using hEmpty
      exact Or.inr (by rw [hBlank])
    · refine Or.inl fun hMem => ?_
      have hAll := List.length_filter_eq_length_iff.mp hLength [] hMem
      exact of_decide_eq_true hAll rfl
  · intro h
    have hSame : orEmpty (terms raw) = orEmpty (emitted raw) := by
      rw [terms_eq]
      rcases h with hNone | hOne
      · rw [List.filter_eq_self.mpr fun p hp => decide_eq_true (ne_of_mem_of_not_mem hp hNone)]
      · rw [hOne]
        rfl
    rw [EmitsTerms, hSame]
    exact hCode

/-! ## The tokens of quotes alone -/

theorem unquote_eq_nil_iff {token : List Char} :
    unquote token = [] ↔ ¬ ∃ c ∈ token, c ≠ quote := by
  simp [unquote, List.filter_eq_nil_iff]

theorem nil_mem_emitted_iff {raw : String} :
    [] ∈ emitted raw ↔ ∃ t ∈ looseTokens raw, ¬ ∃ c ∈ t, c ≠ quote := by
  unfold emitted looseTokens
  constructor
  · intro hMem
    obtain ⟨stretch, hStretch, hMem⟩ := List.mem_flatMap.mp hMem
    cases stretch with
    | outside text =>
      obtain ⟨token, hToken, hEmpty⟩ := List.mem_map.mp hMem
      exact ⟨token, List.mem_flatMap.mpr ⟨_, hStretch, hToken⟩, unquote_eq_nil_iff.mp hEmpty⟩
    | phrase text => exact absurd rfl (of_decide_eq_true (List.mem_filter.mp hMem).2)
  · rintro ⟨token, hMem, hQuotes⟩
    obtain ⟨stretch, hStretch, hToken⟩ := List.mem_flatMap.mp hMem
    refine List.mem_flatMap.mpr ⟨stretch, hStretch, ?_⟩
    cases stretch with
    | outside text => exact List.mem_map.mpr ⟨token, hToken, unquote_eq_nil_iff.mpr hQuotes⟩
    | phrase text => exact absurd hToken List.not_mem_nil

/-- The tokens are among what is emitted. -/
theorem looseTokens_sublist (raw : String) :
    ((looseTokens raw).map unquote).Sublist (emitted raw) := by
  rw [looseTokens, emitted, List.map_flatMap]
  refine List.Sublist.flatMap_right _ fun stretch _ => ?_
  cases stretch with
  | outside text => exact List.Sublist.refl _
  | phrase text => exact List.nil_sublist _

theorem emitted_of_blank {raw : String} (h : ∀ text, .phrase text ∈ queryStretches raw →
    ∀ c ∈ text, Text.isSpace c = true) : emitted raw = (looseTokens raw).map unquote := by
  rw [looseTokens, emitted, List.map_flatMap]
  refine List.flatMap_congr fun stretch hStretch => ?_
  cases stretch with
  | outside text => rfl
  | phrase text =>
    have hBlank := Text.stripChars_eq_nil_iff.mpr (h text hStretch)
    simp [Stretch.emitted, Stretch.contents, Stretch.tokens, hBlank]

theorem phrase_mem_emitted {raw : String} {text : List Char}
    (hMem : .phrase text ∈ queryStretches raw) (hNe : Text.stripChars text ≠ []) :
    Text.stripChars text ∈ emitted raw :=
  List.mem_flatMap.mpr ⟨_, hMem,
    List.mem_filter.mpr ⟨List.mem_singleton_self _, decide_eq_true hNe⟩⟩

/-- The expression of a query is made of strings. They are its terms if and only if none of its
tokens is made of quotes alone, or the query has nothing else. -/
theorem emitsTerms_iff (raw : String) : (∃ phrases, Strings phrases (sanitizeFts5Query raw)) ∧
    (EmitsTerms raw ↔ NoStrayQuotes raw) := by
  refine ⟨⟨_, strings_emitted raw⟩, ?_⟩
  rw [emitsTerms_iff_emitted]
  constructor
  · intro h
    by_cases hMem : [] ∈ emitted raw
    · have hOne : emitted raw = [[]] := h.resolve_left (not_not_intro hMem)
      have hSublist := (looseTokens_sublist raw).length_le
      rw [hOne, List.length_map, List.length_singleton] at hSublist
      obtain ⟨token, hToken, -⟩ := nil_mem_emitted_iff.mp hMem
      have hPos : 0 < (looseTokens raw).length := List.length_pos_of_mem hToken
      refine Or.inr ⟨by omega, fun text hText => ?_⟩
      rw [← Text.stripChars_eq_nil_iff]
      by_contra hNe
      have hEmitted := phrase_mem_emitted hText hNe
      rw [hOne] at hEmitted
      exact hNe (List.mem_singleton.mp hEmitted)
    · refine Or.inl fun token hToken => ?_
      by_contra hQuotes
      exact hMem (nil_mem_emitted_iff.mpr ⟨token, hToken, hQuotes⟩)
  · rintro (hSolid | ⟨hOne, hBlank⟩)
    · refine Or.inl fun hMem => ?_
      obtain ⟨token, hToken, hQuotes⟩ := nil_mem_emitted_iff.mp hMem
      exact hQuotes (hSolid token hToken)
    · obtain ⟨token, hToken⟩ := List.length_eq_one_iff.mp hOne
      have hEmitted := emitted_of_blank hBlank
      rw [hToken, List.map_singleton] at hEmitted
      by_cases hEmpty : unquote token = []
      · exact Or.inr (by rw [hEmitted, hEmpty])
      · exact Or.inl (by simpa [hEmitted] using Ne.symm hEmpty)

/-- The second token gives an empty string. -/
theorem not_emitsTerms_stray : ¬ EmitsTerms "hello \"\"" := by
  rw [emitsTerms_iff_emitted]
  decide

end LosslessHermes.FullText
