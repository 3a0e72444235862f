import Mathlib.Data.List.Basic

/-!
# Backtracking patterns

Patterns built from character tests, one-character look-around, sequence,
ordered choice and greedy repetition. `run` lists the ways a pattern matches at
a place in the order in which a backtracking matcher tries them; the first one
counts. `split` cuts a text into its leftmost matches and the characters
between them, which is what a search-and-replace works on. `flatten_split` says
that nothing of the text is lost.
-/

namespace LosslessHermes

inductive Regex
  | empty
  | char (p : Char → Bool)
  /-- A test of the character before this place. -/
  | behind (p : Option Char → Bool)
  /-- A test of the character after this place. -/
  | ahead (p : Option Char → Bool)
  | seq (r s : Regex)
  | alt (r s : Regex)
  /-- Greedy repetition of a pattern that consumes a character. -/
  | star (r : Regex)

namespace Regex

/-! ## Derived patterns -/

/-- The given characters one after another, each up to `fold`. -/
def literal (fold : Char → Char) : List Char → Regex
  | [] => .empty
  | c :: cs => .seq (.char fun d => fold d = c) (literal fold cs)

/-- At least `n` repetitions. -/
def atLeast (r : Regex) : Nat → Regex
  | 0 => .star r
  | n + 1 => .seq r (atLeast r n)

/-! ## Matching -/

/-- A place in a text: the character before it and what follows. -/
abbrev Place := Option Char × List Char

def starRun (step : Place → List Place) : Nat → Place → List Place
  | 0, place => [place]
  | fuel + 1, place => (step place).flatMap (starRun step fuel) ++ [place]

/-- The places where a match that begins here may end, the preferred first. -/
def run : Regex → Place → List Place
  | .empty, place => [place]
  | .char p, place =>
      match place.2 with
      | [] => []
      | c :: rest => if p c then [(some c, rest)] else []
  | .behind p, place => if p place.1 then [place] else []
  | .ahead p, place => if p place.2.head? then [place] else []
  | .seq r s, place => (run r place).flatMap (run s)
  | .alt r s, place => run r place ++ run s place
  | .star r, place => starRun (run r) place.2.length place

/-- A piece of a text: a character no match covers, or a match. -/
inductive Piece
  | text (c : Char)
  | hit (s : List Char)
  deriving DecidableEq, Repr

def Piece.chars : Piece → List Char
  | .text c => [c]
  | .hit s => s

/-- The leftmost matches that do not overlap, and what lies between them. -/
def splitFrom (r : Regex) : Nat → Place → List Piece
  | 0, place => place.2.map .text
  | fuel + 1, place =>
      match place.2 with
      | [] => []
      | c :: rest =>
          match (run r place).head? with
          | some place' =>
              if place'.2.length < (c :: rest).length then
                .hit ((c :: rest).take ((c :: rest).length - place'.2.length)) ::
                  splitFrom r fuel place'
              else .text c :: splitFrom r fuel (some c, rest)
          | none => .text c :: splitFrom r fuel (some c, rest)

def split (r : Regex) (text : List Char) : List Piece :=
  splitFrom r text.length (none, text)

/-- The matches of `split`, as `findall` gives them. -/
def hits (r : Regex) (text : String) : List (List Char) :=
  (split r text.toList).filterMap fun
    | .hit s => some s
    | .text _ => none

/-! ## A match covers a piece of the text -/

theorem starRun_suffix {step : Place → List Place}
    (h : ∀ place, ∀ place' ∈ step place, place'.2 <:+ place.2) {fuel : Nat} {place place' : Place}
    (hMem : place' ∈ starRun step fuel place) : place'.2 <:+ place.2 := by
  induction fuel generalizing place with
  | zero =>
    exact List.mem_singleton.mp hMem ▸ List.suffix_refl _
  | succ fuel ih =>
    rcases List.mem_append.mp hMem with hMem | hMem
    · obtain ⟨middle, hStep, hMem⟩ := List.mem_flatMap.mp hMem
      exact (ih hMem).trans (h _ _ hStep)
    · exact List.mem_singleton.mp hMem ▸ List.suffix_refl _

theorem run_suffix (r : Regex) {place place' : Place} (h : place' ∈ run r place) :
    place'.2 <:+ place.2 := by
  induction r generalizing place place' with
  | empty => exact List.mem_singleton.mp h ▸ List.suffix_refl _
  | char p =>
    unfold run at h
    split at h
    · exact absurd h List.not_mem_nil
    · rename_i c rest hRest
      split at h
      · rw [List.mem_singleton.mp h, hRest]
        exact List.suffix_cons c rest
      · exact absurd h List.not_mem_nil
  | behind p =>
    unfold run at h
    split at h
    · exact List.mem_singleton.mp h ▸ List.suffix_refl _
    · exact absurd h List.not_mem_nil
  | ahead p =>
    unfold run at h
    split at h
    · exact List.mem_singleton.mp h ▸ List.suffix_refl _
    · exact absurd h List.not_mem_nil
  | seq r s ihr ihs =>
    obtain ⟨middle, hr, hs⟩ := List.mem_flatMap.mp h
    exact (ihs hs).trans (ihr hr)
  | alt r s ihr ihs =>
    rcases List.mem_append.mp h with h | h
    · exact ihr h
    · exact ihs h
  | star r ih => exact starRun_suffix (fun _ _ => ih) h

theorem flatten_splitFrom (r : Regex) {fuel : Nat} {place : Place}
    (hFuel : place.2.length ≤ fuel) : (splitFrom r fuel place).flatMap Piece.chars = place.2 := by
  have hText : ∀ s : List Char, (s.map Piece.text).flatMap Piece.chars = s := by
    intro s
    induction s with
    | nil => rfl
    | cons c s ih => simpa [Piece.chars] using ih
  induction fuel generalizing place with
  | zero => exact hText _
  | succ fuel ih =>
    unfold splitFrom
    split
    · rename_i hNil
      simp [hNil]
    · rename_i c rest hPlace
      rw [hPlace, List.length_cons] at hFuel
      have hSkip : (Piece.text c :: splitFrom r fuel (some c, rest)).flatMap Piece.chars =
          c :: rest := by
        simp [Piece.chars, @ih (some c, rest) (by simpa using hFuel)]
      split
      · rename_i place' hHead
        split
        · rename_i hShorter
          have hMem : place' ∈ run r place := List.mem_of_head? hHead
          obtain ⟨matched, hMatched⟩ := run_suffix r hMem
          rw [hPlace] at hMatched
          have hLength := congrArg List.length hMatched
          simp only [List.length_append, List.length_cons] at hLength hShorter
          have hTake : (c :: rest).take ((c :: rest).length - place'.2.length) = matched := by
            rw [← hMatched, List.length_append, Nat.add_sub_cancel]
            exact List.take_left
          rw [List.flatMap_cons, hTake, ih (by omega), hPlace]
          exact hMatched
        · rw [hSkip, hPlace]
      · rw [hSkip, hPlace]

/-- The pieces of a text make up the text. -/
theorem flatten_split (r : Regex) (text : List Char) :
    (split r text).flatMap Piece.chars = text :=
  flatten_splitFrom r (Nat.le_refl _)

/-- A repetition of a test is found where a character passes it. -/
theorem exists_hit_of_char {p : Char → Bool} {fuel : Nat} {place : Place} {c : Char}
    (hFuel : place.2.length ≤ fuel) (hc : c ∈ place.2) (hp : p c = true) :
    ∃ s, .hit s ∈ splitFrom (atLeast (.char p) 1) fuel place := by
  induction fuel generalizing place with
  | zero =>
    rw [List.length_eq_zero_iff.mp (Nat.le_zero.mp hFuel)] at hc
    cases hc
  | succ fuel ih =>
    obtain ⟨before, text⟩ := place
    cases text with
    | nil => cases hc
    | cons d rest =>
      have hRest : rest.length ≤ fuel := Nat.le_of_succ_le_succ hFuel
      cases hHead : (run (atLeast (.char p) 1) (before, d :: rest)).head? with
      | none =>
        have hd : ¬ p d = true := fun hd => by
          -- a repetition may always end where it begins
          have hStar : starRun (run (.char p)) rest.length (some d, rest) = [] := by
            simpa [atLeast, run, hd] using hHead
          cases hLength : rest.length with
          | zero => simp [hLength, starRun] at hStar
          | succ n => simp [hLength, starRun] at hStar
        rcases List.mem_cons.mp hc with rfl | hLater
        · exact absurd hp hd
        · obtain ⟨s, hs⟩ := @ih (some d, rest) hRest hLater
          refine ⟨s, ?_⟩
          simp only [splitFrom, hHead]
          exact List.mem_cons_of_mem _ hs
      | some place' =>
        -- the match has the first character and ends in the rest
        have hEnd : place'.2 <:+ rest := by
          have hMem := List.mem_of_head? hHead
          simp only [atLeast, run] at hMem
          split at hMem
          · rw [List.flatMap_cons, List.flatMap_nil, List.append_nil] at hMem
            exact run_suffix (.star (.char p)) hMem
          · cases hMem
        have hLess : place'.2.length < (d :: rest).length :=
          Nat.lt_succ_of_le hEnd.length_le
        simp only [splitFrom, hHead, if_pos hLess]
        exact ⟨_, List.mem_cons_self⟩

theorem hits_ne_nil_of_char {p : Char → Bool} {text : String} {c : Char} (hc : c ∈ text.toList)
    (hp : p c = true) : hits (atLeast (.char p) 1) text ≠ [] := by
  obtain ⟨s, hs⟩ := @exists_hit_of_char p text.toList.length (none, text.toList) c (Nat.le_refl _)
    hc hp
  exact List.ne_nil_of_mem (List.mem_filterMap.mpr ⟨.hit s, hs, rfl⟩)

end Regex

/-! ## Patterns that ignore the case -/

/-- Case folding towards ASCII, with the four other letters whose case variants
are ASCII. -/
def foldCase (c : Char) : Char :=
  if c = '\u0130' ∨ c = '\u0131' then 'i'
  else if c = '\u017f' then 's'
  else if c = '\u212a' then 'k'
  else c.toLower

def isAsciiAlnum (c : Char) : Bool :=
  c.isDigit || ('a' ≤ c && c ≤ 'z') || ('A' ≤ c && c ≤ 'Z')

/-- Letters, digits and the listed characters, whatever the case. -/
def foldedClass (extra : List Char) (c : Char) : Bool :=
  isAsciiAlnum (foldCase c) || extra.contains c

def foldedLiteral (text : String) : Regex :=
  Regex.literal foldCase text.toList

end LosslessHermes
