import LosslessHermes.Ingest.Guard
import LosslessHermes.Library.Repetition

/-!
# The payload patterns

What the two patterns of the guard find. `Clean` says that a text holds no oversized payload: no
data URI, and no run of base64 characters that looks like one. A blank or a bracket cuts a text
into parts that are clean on their own, and a short text is clean.
-/

namespace LosslessHermes

open Regex

/-! ## Data URIs -/

theorem consumes_jsonEscapedSlash : Consumes 1 jsonEscapedSlash :=
  ((consumes_literal foldCase "/".toList).mono (by decide)).alt
    (((consumes_literal foldCase "\\/".toList).mono (by decide)).alt
      ((consumes_literal foldCase "\\u002f".toList).mono (by decide)))

theorem consumes_classOrSlash (p : Char → Bool) : Consumes 1 (.alt (.char p) jsonEscapedSlash) :=
  (consumes_char p).alt consumes_jsonEscapedSlash

theorem consumes_dataUriBase64Re : Consumes dataUriMinPayloadChars dataUriBase64Re := by
  have hPayload := (consumes_classOrSlash (foldedClass ['+', '='])).atLeast dataUriMinPayloadChars
  exact ((consumes_zero _).seq ((consumes_zero _).seq ((consumes_zero _).seq ((consumes_zero _).seq
    (hPayload.seq (consumes_zero _)))))).mono (by decide)

theorem consumes_one_dataUriBase64Re : Consumes 1 dataUriBase64Re :=
  consumes_dataUriBase64Re.mono (by decide)

theorem proper_jsonEscapedSlash : Proper jsonEscapedSlash :=
  ⟨proper_literal _ _, proper_literal _ _, proper_literal _ _⟩

theorem proper_dataUriBase64Re : Proper dataUriBase64Re := by
  have hSlash : ∀ p, Proper (.alt (.char p) jsonEscapedSlash) := fun _ =>
    ⟨trivial, proper_jsonEscapedSlash⟩
  have hStar : ∀ p, Proper (.star (.alt (.char p) jsonEscapedSlash)) := fun p =>
    proper_star (consumes_classOrSlash p) (hSlash p)
  have hAttribute : ∀ p q, Proper (.star (.seq (foldedLiteral ";") (.seq (atLeast (.char p) 1)
      (.seq (foldedLiteral "=") (.star (.alt (.char q) jsonEscapedSlash)))))) := by
    intro p q
    refine proper_star ?_ ⟨proper_literal _ _, ?_, proper_literal _ _, hStar q⟩
    · exact ((consumes_literal foldCase ";".toList).seq (consumes_zero _)).mono (by decide)
    · exact proper_atLeast (consumes_char p) trivial 1
  exact ⟨proper_literal _ _, hStar _, hAttribute _ _, proper_literal _ _,
    proper_atLeast (consumes_classOrSlash _) (hSlash _) _, trivial⟩

theorem blind_dataUriBase64Re : Blind dataUriBase64Re := by
  have hSlash : ∀ p, Blind (.alt (.char p) jsonEscapedSlash) := fun _ =>
    ⟨trivial, blind_literal _ _, blind_literal _ _, blind_literal _ _⟩
  exact ⟨blind_literal _ _, hSlash _,
    ⟨blind_literal _ _, blind_atLeast (r := .char _) trivial 1, blind_literal _ _, hSlash _⟩,
    blind_literal _ _, blind_atLeast (hSlash _) _, trivial⟩

variable {c : Char}

/-- The characters around the parts of a placeholder. -/
theorem delimiter_dataUriBase64Re (h : c = ' ' ∨ c = '[') : Delimiter c dataUriBase64Re := by
  have hFold : ∀ text ∈ ["data:", ";", "=", ";base64,", "/", "\\/", "\\u002f"],
      foldCase c ∉ text.toList := by
    rcases h with rfl | rfl
    · decide
    · decide
  have hLiteral : ∀ text ∈ ["data:", ";", "=", ";base64,", "/", "\\/", "\\u002f"],
      Delimiter c (foldedLiteral text) := fun text hMem => delimiter_literal (hFold text hMem)
  have hClass : ∀ extra ∈ [['.', '+', '-'], ['_', '.', '+', '%', '-'], ['-', '_', '.', '+', '%'],
      ['+', '=']], Delimiter c (.char (foldedClass extra)) := by
    rcases h with rfl | rfl
    · exact show ∀ extra ∈ _, foldedClass extra ' ' = false by decide
    · exact show ∀ extra ∈ _, foldedClass extra '[' = false by decide
  have hSlash : Delimiter c jsonEscapedSlash :=
    ⟨hLiteral _ (by simp), hLiteral _ (by simp), hLiteral _ (by simp)⟩
  have hAhead : Delimiter c (.ahead fun next => !next.any (foldedClass ['+', '/', '='])) := by
    rcases h with rfl | rfl
    · rfl
    · rfl
  exact ⟨hLiteral _ (by simp), ⟨hClass _ (by simp), hSlash⟩,
    ⟨hLiteral _ (by simp), delimiter_atLeast (hClass _ (by simp)) 1, hLiteral _ (by simp),
      hClass _ (by simp), hSlash⟩,
    hLiteral _ (by simp), delimiter_atLeast (r := .alt _ _) ⟨hClass _ (by simp), hSlash⟩ _, hAhead⟩

/-- The payload takes every character that the test behind it refuses. -/
theorem extends_dataUriBase64Re : Extends dataUriBase64Re := by
  have hSlash : ∀ p, Forward (.alt (.char p) jsonEscapedSlash) := fun _ =>
    ⟨trivial, forward_literal _ _, forward_literal _ _, forward_literal _ _⟩
  refine Extends.seq (forward_literal _ _) (Extends.seq (hSlash _) (Extends.seq
    ⟨forward_literal _ _, forward_atLeast (r := .char _) trivial 1, forward_literal _ _, hSlash _⟩
    (Extends.seq (forward_literal _ _) (extends_atLeast (hSlash _) (consumes_classOrSlash _) ?_ _))))
  rintro ⟨prev, text⟩
  cases text with
  | nil => exact Or.inl rfl
  | cons c rest =>
    by_cases hClass : foldedClass ['+', '='] c = true
    · have hMem : (some c, rest) ∈ run (.char (foldedClass ['+', '='])) (prev, c :: rest) := by
        simp [run, hClass]
      exact Or.inr (List.ne_nil_of_mem (List.mem_append_left _ hMem))
    · by_cases hHere : c = '/'
      · subst hHere
        have hMem : (some '/', rest) ∈ run (foldedLiteral "/") (prev, '/' :: rest) :=
          List.mem_singleton.mpr rfl
        exact Or.inr
          (List.ne_nil_of_mem (List.mem_append_right _ (List.mem_append_left _ hMem)))
      · left
        simp only [foldedClass, List.contains_cons, List.contains_nil, Bool.or_eq_true, beq_iff_eq,
          Bool.or_false, not_or] at hClass
        simp [foldedClass, hClass, hHere]

theorem dataUri_head (h : foldCase c ≠ 'd') (prev : Option Char) (rest : List Char) :
    matchAt dataUriBase64Re (prev, c :: rest) = none := by
  have hFirst : run (.char fun d => foldCase d = 'd') (prev, c :: rest) = [] := by simp [run, h]
  refine (matchAt_eq_none_iff consumes_one_dataUriBase64Re).mpr ?_
  show List.flatMap _ (List.flatMap _ (run (.char fun d => foldCase d = 'd') (prev, c :: rest))) = []
  rw [hFirst]
  rfl

theorem dataUri_second (h : foldCase c ≠ 'a') (prev : Option Char) (first : Char)
    (rest : List Char) : matchAt dataUriBase64Re (prev, first :: c :: rest) = none := by
  have hSecond : run (.char fun d => foldCase d = 'a') (some first, c :: rest) = [] := by
    simp [run, h]
  refine (matchAt_eq_none_iff consumes_one_dataUriBase64Re).mpr ?_
  refine List.eq_nil_iff_forall_not_mem.mpr fun place hMem => ?_
  obtain ⟨middle, hMiddle, -⟩ := List.mem_flatMap.mp hMem
  obtain ⟨next, hNext, hMiddle⟩ := List.mem_flatMap.mp
    (show middle ∈ List.flatMap _ (run (.char fun d => foldCase d = 'd')
      (prev, first :: c :: rest)) from hMiddle)
  have hPlace : next = (some first, c :: rest) := by
    simp only [run] at hNext
    split at hNext
    · exact List.mem_singleton.mp hNext
    · exact absurd hNext List.not_mem_nil
  obtain ⟨last, hLast, -⟩ := List.mem_flatMap.mp
    (show middle ∈ List.flatMap _ (run (.char fun d => foldCase d = 'a') next) from hMiddle)
  rw [hPlace, hSecond] at hLast
  exact List.not_mem_nil hLast

/-! ## Base64 runs -/

theorem proper_base64RunRe : Proper base64RunRe :=
  ⟨trivial, proper_atLeast (consumes_char _) trivial _, trivial⟩

theorem delimiter_base64RunRe (h : isBase64RunChar c = false) :
    Delimiter c base64RunRe := by
  have hTest : (!(some c).any isBase64RunChar) = !(none : Option Char).any isBase64RunChar := by
    rw [Option.any_some, Option.any_none, h]
  exact ⟨hTest, delimiter_atLeast (r := .char _) h _, hTest⟩

theorem consumes_base64RunRe : Consumes genericBase64MinChars base64RunRe :=
  ((consumes_zero _).seq (((consumes_char _).atLeast _).seq (consumes_zero _))).mono (by decide)

variable {text : List Char}

/-- Inside a run no run begins. -/
theorem splitFrom_insideRun (hChar : isBase64RunChar c = true)
    (h : ∀ d ∈ text, isBase64RunChar d = true) (fuel : Nat) :
    splitFrom base64RunRe fuel (some c, text) = text.map .text := by
  induction fuel generalizing c text with
  | zero => rfl
  | succ fuel ih =>
    cases text with
    | nil => rfl
    | cons d rest =>
      obtain ⟨hHead, hTail⟩ := List.forall_mem_cons.mp h
      have hNone : matchAt base64RunRe (some c, d :: rest) = none := by
        refine (matchAt_eq_none_iff (consumes_base64RunRe.mono (by decide))).mpr ?_
        have hBehind : run (.behind fun last => !last.any isBase64RunChar) (some c, d :: rest) =
            [] := by
          simp [run, hChar]
        show List.flatMap _ (run (.behind fun last => !last.any isBase64RunChar)
          (some c, d :: rest)) = []
        rw [hBehind]
        rfl
      rw [splitFrom_of_none hNone, ih hHead hTail, List.map_cons]

/-- A text that is one run is a match or too short. -/
theorem split_base64Run (h : ∀ d ∈ text, isBase64RunChar d = true) :
    split base64RunRe text = if genericBase64MinChars ≤ text.length then [.hit text]
      else text.map .text := by
  cases text with
  | nil => rfl
  | cons c rest =>
    obtain ⟨hHead, hTail⟩ := List.forall_mem_cons.mp h
    split
    · rename_i hLong
      obtain ⟨last, places, hRun⟩ :=
        run_atLeast_of_takes (fun d hMem => takes_char (h d hMem)) none hLong
      have hMatch : matchAt base64RunRe (none, c :: rest) = some (last, []) := by
        have hHere : (run base64RunRe (none, c :: rest)).head? = some (last, []) := by
          show (List.flatMap _ (run (.behind fun last => !last.any isBase64RunChar)
            (none, c :: rest))).head? = _
          have hBehind : run (.behind fun last => !last.any isBase64RunChar) (none, c :: rest) =
              [(none, c :: rest)] := rfl
          rw [hBehind, List.flatMap_cons, List.flatMap_nil, List.append_nil]
          show (List.flatMap _ (run (atLeast (.char isBase64RunChar) genericBase64MinChars)
            (none, c :: rest))).head? = _
          rw [hRun, List.flatMap_cons]
          rfl
        unfold matchAt
        rw [hHere, Option.filter_some]
        exact if_pos (decide_eq_true (Nat.zero_lt_succ _))
      show splitFrom base64RunRe (rest.length + 1) (none, c :: rest) = _
      rw [splitFrom_of_some hMatch, List.length_nil, Nat.sub_zero, List.take_length]
      cases rest with
      | nil => rfl
      | cons d rest => rfl
    · rename_i hShort
      have hNone : matchAt base64RunRe (none, c :: rest) = none := by
        refine (matchAt_eq_none_iff (consumes_base64RunRe.mono (by decide))).mpr ?_
        refine List.eq_nil_iff_forall_not_mem.mpr fun place' hRun => hShort ?_
        have hLength := consumes_base64RunRe _ place' hRun
        dsimp only at hLength
        omega
      show splitFrom base64RunRe (rest.length + 1) (none, c :: rest) = _
      rw [splitFrom_of_none hNone, splitFrom_insideRun hHead hTail, List.map_cons]

/-! ## Texts without a payload -/

/-- `not contains_long_base64_run(text)` -/
def NoLongRun (text : List Char) : Prop :=
  ∀ run, Piece.hit run ∈ split base64RunRe text → looksLikeLongBase64 run = false

/-- The text holds no oversized payload. -/
structure Clean (text : List Char) : Prop where
  uris : Never dataUriBase64Re text
  runs : NoLongRun text

theorem noLongRun_append {c : Char} (hChar : isBase64RunChar c = false) {text tail : List Char} :
    NoLongRun (text ++ c :: tail) ↔ NoLongRun text ∧ NoLongRun tail := by
  unfold NoLongRun
  rw [split_append proper_base64RunRe (delimiter_base64RunRe hChar), ← forall_and]
  refine forall_congr' fun run => ?_
  simp [or_imp]

theorem noLongRun_of_length (h : text.length < genericBase64MinChars) :
    NoLongRun text :=
  fun run hMem => absurd hMem (never_of_length_lt consumes_base64RunRe h run)

theorem clean_append (hChar : c = ' ' ∨ c = '[') {tail : List Char} :
    Clean (text ++ c :: tail) ↔ Clean text ∧ Clean tail := by
  have hRun : isBase64RunChar c = false := by
    rcases hChar with rfl | rfl
    · rfl
    · rfl
  have hUris := @never_append _ proper_dataUriBase64Re c (delimiter_dataUriBase64Re hChar) text tail
  have hRuns := @noLongRun_append c hRun text tail
  constructor
  · intro h
    exact ⟨⟨(hUris.mp h.uris).1, (hRuns.mp h.runs).1⟩, ⟨(hUris.mp h.uris).2, (hRuns.mp h.runs).2⟩⟩
  · rintro ⟨hText, hTail⟩
    exact ⟨hUris.mpr ⟨hText.uris, hTail.uris⟩, hRuns.mpr ⟨hText.runs, hTail.runs⟩⟩

theorem clean_of_length (h : text.length < dataUriMinPayloadChars) :
    Clean text :=
  ⟨never_of_length_lt consumes_dataUriBase64Re h, noLongRun_of_length (h.trans (by decide))⟩

/-- What stands before and behind a part keeps its data URIs without it. -/
theorem never_dataUri_of_append {part tail : List Char}
    (h : Never dataUriBase64Re (text ++ (part ++ tail))) :
    Never dataUriBase64Re text ∧ Never dataUriBase64Re tail := by
  have hAll := (never_iff blind_dataUriBase64Re).mp h
  constructor
  · refine (never_iff blind_dataUriBase64Re).mpr fun rest hRest => ?_
    refine extends_dataUriBase64Re.matchAt_eq_none consumes_one_dataUriBase64Re
      (hAll (rest ++ (part ++ tail)) ?_)
    obtain ⟨before, hBefore⟩ := hRest
    exact ⟨before, by rw [← hBefore, List.append_assoc]⟩
  · refine (never_iff blind_dataUriBase64Re).mpr fun rest hRest => hAll rest (hRest.trans ?_)
    exact (List.suffix_append part tail).trans (List.suffix_append text (part ++ tail))

end LosslessHermes
