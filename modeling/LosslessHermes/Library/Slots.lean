import LosslessHermes.Library.Cuts
import LosslessHermes.Library.Repetition
import LosslessHermes.Library.Text

/-!
# Placeholders of a template

A placeholder is a name in double braces, with any white space between. Placeholders never
overlap (`placeholders`), so that the leftmost matches of the pattern of a name are its
placeholders (`cuts_split`). `simultaneous` fills them in, all at once; filling in those of
one more name is a substitution for its pattern as long as the values that are there make no
new ones (`cuts_fill`).
-/

namespace LosslessHermes

open Regex (Piece Place matchAt)

/-- A character of a name: neither white space nor a brace. -/
def isNameChar (c : Char) : Bool :=
  !Text.isSpace c && c != '\x7b' && c != '\x7d'

structure SlotName where
  chars : List Char
  ne_nil : chars ≠ []
  isName : ∀ c ∈ chars, isNameChar c = true

instance : DecidableEq SlotName := fun a b =>
  decidable_of_iff (a.chars = b.chars) <| by
    cases a
    cases b
    simp

def opening : List Char := ['\x7b', '\x7b']

def closing : List Char := ['\x7d', '\x7d']

/-- `\{\{\s*name\s*\}\}` -/
def placeholder (name : SlotName) : Regex :=
  .seq (.literal id opening) (.seq (.star (.char Text.isSpace))
    (.seq (.literal id name.chars) (.seq (.star (.char Text.isSpace)) (.literal id closing))))

def IsSlotMark (name : SlotName) (w : List Char) : Prop :=
  ∃ before after, (∀ c ∈ before, Text.isSpace c = true) ∧ (∀ c ∈ after, Text.isSpace c = true) ∧
    w = opening ++ (before ++ (name.chars ++ (after ++ closing)))

/-! ## Placeholders do not overlap -/

section Runs

variable {p : Char → Bool} {u u' v v' : List Char}

theorem takeWhile_run (hu : ∀ c ∈ u, p c = true) (hv : ∀ c, v.head? = some c → p c = false) :
    (u ++ v).takeWhile p = u := by
  rw [List.takeWhile_append_of_pos hu]
  cases v with
  | nil => exact List.append_nil u
  | cons c v =>
    rw [List.takeWhile_cons_of_neg (by simp [hv c rfl]), List.append_nil]

/-- A run of characters and what follows it are determined by the text. -/
theorem run_unique (hu : ∀ c ∈ u, p c = true) (hu' : ∀ c ∈ u', p c = true)
    (hv : ∀ c, v.head? = some c → p c = false) (hv' : ∀ c, v'.head? = some c → p c = false)
    (h : u ++ v = u' ++ v') : u = u' ∧ v = v' := by
  have hRun := congrArg (List.takeWhile p) h
  rw [takeWhile_run hu hv, takeWhile_run hu' hv'] at hRun
  subst hRun
  exact ⟨rfl, List.append_cancel_left h⟩

end Runs

theorem isSpace_of_isNameChar {c : Char} (h : isNameChar c = true) : Text.isSpace c = false := by
  simp only [isNameChar, Bool.and_eq_true, Bool.not_eq_true'] at h
  exact h.1.1

theorem SlotName.head_not_space (name : SlotName) (s : List Char) :
    ∀ c, (name.chars ++ s).head? = some c → Text.isSpace c = false := by
  intro c hc
  rw [List.head?_append_of_ne_nil _ name.ne_nil] at hc
  exact isSpace_of_isNameChar (name.isName c (List.mem_of_head? hc))

theorem closing_head (s : List Char) : ∀ c, (closing ++ s).head? = some c → c = '\x7d' := by
  intro c hc
  exact (Option.some.inj hc).symm

theorem tail_head_not_name {after : List Char} (hAfter : ∀ c ∈ after, Text.isSpace c = true)
    (s : List Char) :
    ∀ c, (after ++ (closing ++ s)).head? = some c → isNameChar c = false := by
  intro c hc
  cases after with
  | nil =>
    rw [closing_head s c hc]
    decide
  | cons d after =>
    obtain rfl : d = c := Option.some.inj hc
    rw [isNameChar, hAfter d List.mem_cons_self]
    rfl

variable {name : SlotName}

theorem placeholder_unique {name' : SlotName} {w v s t : List Char}
    (hw : IsSlotMark name w) (hv : IsSlotMark name' v) (h : w ++ s = v ++ t) :
    name = name' ∧ w = v := by
  obtain ⟨before, after, hBefore, hAfter, rfl⟩ := hw
  obtain ⟨before', after', hBefore', hAfter', rfl⟩ := hv
  simp only [List.append_assoc] at h
  have hBody := List.append_cancel_left h
  obtain ⟨rfl, hName⟩ := run_unique hBefore hBefore' (name.head_not_space _)
    (name'.head_not_space _) hBody
  obtain ⟨hChars, hEnd⟩ := run_unique name.isName name'.isName (tail_head_not_name hAfter s)
    (tail_head_not_name hAfter' t) hName
  have hClosing : ∀ r c, (closing ++ r).head? = some c → Text.isSpace c = false := by
    intro r c hc
    rw [closing_head r c hc]
    decide
  obtain ⟨rfl, -⟩ := run_unique hAfter hAfter' (hClosing s) (hClosing t) hEnd
  refine ⟨?_, by rw [hChars]⟩
  cases name
  cases name'
  simpa using hChars

/-- Behind the first two characters a placeholder has no opening brace. -/
theorem no_brace {name : SlotName} {before after : List Char}
    (hBefore : ∀ c ∈ before, Text.isSpace c = true) (hAfter : ∀ c ∈ after, Text.isSpace c = true) :
    '\x7b' ∉ before ++ (name.chars ++ (after ++ closing)) := by
  have hBrace : Text.isSpace '\x7b' = false := by decide
  intro hMem
  rcases List.mem_append.mp hMem with h | h
  · rw [hBefore _ h] at hBrace
    cases hBrace
  · rcases List.mem_append.mp h with h | h
    · cases name.isName _ h
    · rcases List.mem_append.mp h with h | h
      · rw [hAfter _ h] at hBrace
        cases hBrace
      · revert h
        decide

theorem placeholder_apart {name' : SlotName} {x y v s t : List Char}
    (hw : IsSlotMark name (x ++ y)) (hx : x ≠ []) (hy : y ≠ []) (hv : IsSlotMark name' v) :
    y ++ s ≠ v ++ t := by
  intro h
  obtain ⟨before, after, hBefore, hAfter, hText⟩ := hw
  obtain ⟨before', after', -, -, rfl⟩ := hv
  have hNone := @no_brace name before after hBefore hAfter
  generalize hBody : before ++ (name.chars ++ (after ++ closing)) = body at hText hNone
  -- the second part begins with two opening braces, and none of them is the first of the mark
  cases x with
  | nil => exact hx rfl
  | cons a x =>
    obtain ⟨-, hRest⟩ := List.cons.inj hText
    cases y with
    | nil => exact hy rfl
    | cons b y =>
      obtain ⟨rfl, hTail⟩ := List.cons.inj h
      cases x with
      | cons d x =>
        obtain ⟨-, hInside⟩ := List.cons.inj hRest
        have hSplit : body = x ++ '\x7b' :: y := hInside.symm
        rw [hSplit] at hNone
        exact hNone (List.mem_append_right _ List.mem_cons_self)
      | nil =>
        obtain ⟨-, rfl⟩ := List.cons.inj hRest
        have hNe : y ≠ [] := by
          intro hNil
          rw [hNil] at hBody
          simp [closing] at hBody
        cases y with
        | nil => exact hNe rfl
        | cons e y =>
          obtain ⟨rfl, -⟩ := List.cons.inj hTail
          exact hNone List.mem_cons_self

/-- The placeholders of all names, as marks of a text. -/
def placeholders : Marks SlotName where
  IsMark := IsSlotMark
  ne_nil := by
    rintro name w ⟨before, after, -, -, rfl⟩
    exact List.cons_ne_nil _ _
  unique := placeholder_unique
  apart := placeholder_apart

/-! ## The matches of a pattern are its placeholders -/

variable {place place' : Place}

theorem mem_run_literal {cs : List Char}
    (h : place' ∈ Regex.run (.literal id cs) place) : place.2 = cs ++ place'.2 := by
  induction cs generalizing place with
  | nil =>
    rw [List.mem_singleton.mp h]
    rfl
  | cons c cs ih =>
    obtain ⟨middle, hChar, hRest⟩ := List.mem_flatMap.mp h
    rw [Regex.run] at hChar
    split at hChar
    · cases hChar
    · rename_i d rest hText
      split at hChar
      · rename_i hSame
        obtain rfl := List.mem_singleton.mp hChar
        obtain rfl : d = c := of_decide_eq_true hSame
        exact hText.trans (congrArg (d :: ·) (ih hRest))
      · cases hChar

theorem exists_run_literal (cs rest : List Char) (prev : Option Char) :
    ∃ prev', (prev', rest) ∈ Regex.run (.literal id cs) (prev, cs ++ rest) := by
  induction cs generalizing prev with
  | nil => exact ⟨prev, List.mem_singleton_self _⟩
  | cons c cs ih =>
    obtain ⟨prev', hRest⟩ := ih (some c)
    refine ⟨prev', List.mem_flatMap.mpr ⟨(some c, cs ++ rest), ?_, hRest⟩⟩
    simp [Regex.run]

theorem mem_run_spaces {fuel : Nat}
    (h : place' ∈ Regex.starRun (Regex.run (.char Text.isSpace)) fuel place) :
    ∃ spaces, (∀ c ∈ spaces, Text.isSpace c = true) ∧ place.2 = spaces ++ place'.2 := by
  induction fuel generalizing place with
  | zero =>
    rw [List.mem_singleton.mp h]
    exact ⟨[], fun c hc => (by cases hc), rfl⟩
  | succ fuel ih =>
    rcases List.mem_append.mp h with h | h
    · obtain ⟨middle, hChar, hRest⟩ := List.mem_flatMap.mp h
      obtain ⟨spaces, hSpaces, hText⟩ := ih hRest
      rw [Regex.run] at hChar
      split at hChar
      · cases hChar
      · rename_i d rest hPlace
        split at hChar
        · rename_i hSpace
          obtain rfl := List.mem_singleton.mp hChar
          refine ⟨d :: spaces, fun c hc => ?_, by rw [hPlace, List.cons_append, ← hText]⟩
          rcases List.mem_cons.mp hc with rfl | hc
          · exact hSpace
          · exact hSpaces c hc
        · cases hChar
    · rw [List.mem_singleton.mp h]
      exact ⟨[], fun c hc => (by cases hc), rfl⟩

theorem exists_run_spaces {spaces : List Char} (hSpaces : ∀ c ∈ spaces, Text.isSpace c = true)
    (rest : List Char) (prev : Option Char) :
    ∃ prev', (prev', rest) ∈ Regex.run (.star (.char Text.isSpace)) (prev, spaces ++ rest) := by
  have hRun : ∀ fuel, spaces.length ≤ fuel → ∀ prev, ∃ prev', (prev', rest) ∈
      Regex.starRun (Regex.run (.char Text.isSpace)) fuel (prev, spaces ++ rest) := by
    induction spaces with
    | nil =>
      intro fuel _ prev
      cases fuel with
      | zero => exact ⟨prev, List.mem_singleton_self _⟩
      | succ fuel => exact ⟨prev, List.mem_append_right _ (List.mem_singleton_self _)⟩
    | cons c spaces ih =>
      intro fuel hFuel prev
      cases fuel with
      | zero => cases hFuel
      | succ fuel =>
        obtain ⟨prev', hRest⟩ := ih (fun d hd => hSpaces d (List.mem_cons_of_mem _ hd)) fuel
          (Nat.le_of_succ_le_succ hFuel) (some c)
        refine ⟨prev', List.mem_append_left _ (List.mem_flatMap.mpr ⟨_, ?_, hRest⟩)⟩
        simp [Regex.run, hSpaces c List.mem_cons_self]
  exact hRun _ (by simp) prev

theorem isPlaceholder_of_run (h : place' ∈ Regex.run (placeholder name) place) :
    ∃ w, IsSlotMark name w ∧ place.2 = w ++ place'.2 := by
  obtain ⟨p₁, h₁, h⟩ := List.mem_flatMap.mp h
  obtain ⟨p₂, h₂, h⟩ := List.mem_flatMap.mp h
  obtain ⟨p₃, h₃, h⟩ := List.mem_flatMap.mp h
  obtain ⟨p₄, h₄, h₅⟩ := List.mem_flatMap.mp h
  obtain ⟨before, hBefore, hText₂⟩ := mem_run_spaces h₂
  obtain ⟨after, hAfter, hText₄⟩ := mem_run_spaces h₄
  refine ⟨_, ⟨before, after, hBefore, hAfter, rfl⟩, ?_⟩
  rw [mem_run_literal h₁, hText₂, mem_run_literal h₃, hText₄, mem_run_literal h₅]
  simp only [List.append_assoc]

theorem consumes_placeholder (name : SlotName) : Regex.Consumes 1 (placeholder name) := by
  intro place place' h
  obtain ⟨w, ⟨before, after, -, -, rfl⟩, hText⟩ := isPlaceholder_of_run h
  have hLength := congrArg List.length hText
  simp only [List.length_append, opening, List.length_cons] at hLength
  omega

/-- Where a placeholder stands the pattern matches it and nothing else. -/
theorem matchAt_placeholder {w : List Char} (hw : IsSlotMark name w)
    (rest : List Char) (prev : Option Char) :
    ∃ prev', matchAt (placeholder name) (prev, w ++ rest) = some (prev', rest) := by
  have hSome : matchAt (placeholder name) (prev, w ++ rest) ≠ none := by
    rw [Ne, Regex.matchAt_eq_none_iff (consumes_placeholder name)]
    obtain ⟨before, after, hBefore, hAfter, rfl⟩ := hw
    simp only [List.append_assoc]
    obtain ⟨p₁, h₁⟩ := exists_run_literal opening
      (before ++ (name.chars ++ (after ++ (closing ++ rest)))) prev
    obtain ⟨p₂, h₂⟩ := exists_run_spaces hBefore (name.chars ++ (after ++ (closing ++ rest))) p₁
    obtain ⟨p₃, h₃⟩ := exists_run_literal name.chars (after ++ (closing ++ rest)) p₂
    obtain ⟨p₄, h₄⟩ := exists_run_spaces hAfter (closing ++ rest) p₃
    obtain ⟨p₅, h₅⟩ := exists_run_literal closing rest p₄
    exact List.ne_nil_of_mem (List.mem_flatMap.mpr ⟨_, h₁, List.mem_flatMap.mpr ⟨_, h₂,
      List.mem_flatMap.mpr ⟨_, h₃, List.mem_flatMap.mpr ⟨_, h₄, h₅⟩⟩⟩⟩)
  obtain ⟨⟨prev', rest'⟩, hMatch⟩ := Option.ne_none_iff_exists'.mp hSome
  have hRun := List.mem_of_head? (Option.filter_eq_some_iff.mp hMatch).1
  obtain ⟨v, hv, hText⟩ := isPlaceholder_of_run hRun
  obtain ⟨-, rfl⟩ := placeholder_unique hw hv hText
  obtain rfl := List.append_cancel_left hText
  exact ⟨prev', hMatch⟩

/-- The pieces of a text by the pattern of a name are its cut at the placeholders. -/
theorem cuts_splitFrom (name : SlotName) (fuel : Nat) (prev : Option Char) {text : List Char}
    (hFuel : text.length ≤ fuel) :
    Cuts placeholders name text (Regex.splitFrom (placeholder name) fuel (prev, text)) := by
  induction fuel generalizing prev text with
  | zero =>
    obtain rfl := List.length_eq_zero_iff.mp (Nat.le_zero.mp hFuel)
    exact .nil
  | succ fuel ih =>
    cases text with
    | nil => exact .nil
    | cons c rest =>
      rw [List.length_cons] at hFuel
      cases hMatch : matchAt (placeholder name) (prev, c :: rest) with
      | none =>
        rw [Regex.splitFrom_of_none hMatch]
        refine .text (fun w s hw hText => ?_) (ih _ (by omega))
        obtain ⟨prev', hSome⟩ := matchAt_placeholder hw s prev
        rw [← hText, hMatch] at hSome
        cases hSome
      | some place' =>
        have hRun := List.mem_of_head? (Option.filter_eq_some_iff.mp hMatch).1
        obtain ⟨w, hw, hText⟩ := isPlaceholder_of_run hRun
        have hShorter := Regex.length_lt_of_matchAt hMatch
        obtain ⟨prev', after⟩ := place'
        dsimp only at hText hShorter
        rw [Regex.splitFrom_of_some hMatch]
        dsimp only
        rw [hText, List.length_append, Nat.add_sub_cancel, List.take_left]
        rw [List.length_cons] at hShorter
        exact .hit hw (ih prev' (by omega))

theorem cuts_split (name : SlotName) (text : List Char) :
    Cuts placeholders name text (Regex.split (placeholder name) text) :=
  cuts_splitFrom name text.length none (Nat.le_refl _)

/-! ## Filling in a template -/

inductive TemplatePiece
  | text (c : Char)
  | slot (name : SlotName) (w : List Char)

/-- The placeholders of the given names, and the characters between them. -/
def templatePieces (names : List SlotName) : Nat → Place → List TemplatePiece
  | 0, place => place.2.map .text
  | fuel + 1, place =>
      match place.2 with
      | [] => []
      | c :: rest =>
          match names.findSome? fun name => (matchAt (placeholder name) place).map (name, ·) with
          | some (name, place') =>
              .slot name ((c :: rest).take ((c :: rest).length - place'.2.length)) ::
                templatePieces names fuel place'
          | none => .text c :: templatePieces names fuel (some c, rest)

/-- The placeholders whose name has a value are replaced by it, the others are left. -/
def fill (value : SlotName → Option (List Char)) (pieces : List TemplatePiece) : List Char :=
  pieces.flatMap fun
    | .text c => [c]
    | .slot name w => (value name).getD w

/-- Each placeholder of the template replaced by the value of its name. -/
def simultaneous (names : List SlotName) (value : SlotName → Option (List Char))
    (template : List Char) : List Char :=
  fill value (templatePieces names template.length (none, template))

def occurrences (name : SlotName) (text : List Char) : Nat :=
  hitCount (Regex.split (placeholder name) text)

def slotCount (name : SlotName) (pieces : List TemplatePiece) : Nat :=
  pieces.countP fun
    | .text _ => false
    | .slot other _ => decide (other = name)

theorem slotCount_text (name : SlotName) (c : Char) (pieces : List TemplatePiece) :
    slotCount name (.text c :: pieces) = slotCount name pieces :=
  List.countP_cons_of_neg Bool.false_ne_true

theorem slotCount_same (name : SlotName) (w : List Char) (pieces : List TemplatePiece) :
    slotCount name (.slot name w :: pieces) = slotCount name pieces + 1 :=
  List.countP_cons_of_pos (by simp)

theorem slotCount_other {other : SlotName} (h : other ≠ name) (w : List Char)
    (pieces : List TemplatePiece) :
    slotCount name (.slot other w :: pieces) = slotCount name pieces :=
  List.countP_cons_of_neg (by simp [h])

/-- The pieces of a template as those of the pattern of one name. -/
def piecesFor (name : SlotName) (value : SlotName → Option (List Char))
    (pieces : List TemplatePiece) : List Piece :=
  pieces.flatMap fun
    | .text c => [.text c]
    | .slot other w => if other = name then [.hit w] else ((value other).getD w).map .text

/-- Every slot is a placeholder, and those of one name are all its placeholders. -/
theorem templatePieces_spec (names : List SlotName) (fuel : Nat) (prev : Option Char)
    {text : List Char} (hFuel : text.length ≤ fuel) :
    (∀ name w, .slot name w ∈ templatePieces names fuel (prev, text) → IsSlotMark name w) ∧
      ∀ name ∈ names, Cuts placeholders name text
        (piecesFor name (fun _ => none) (templatePieces names fuel (prev, text))) := by
  induction fuel generalizing prev text with
  | zero =>
    obtain rfl := List.length_eq_zero_iff.mp (Nat.le_zero.mp hFuel)
    exact ⟨fun name w h => (by cases h), fun name _ => .nil⟩
  | succ fuel ih =>
    cases text with
    | nil => exact ⟨fun name w h => (by cases h), fun name _ => .nil⟩
    | cons c rest =>
      rw [List.length_cons] at hFuel
      rw [templatePieces]
      cases hFind : names.findSome? fun name =>
          (matchAt (placeholder name) (prev, c :: rest)).map (name, ·) with
      | none =>
        obtain ⟨hSlots, hCuts⟩ := @ih (some c) rest (by omega)
        refine ⟨fun name w h => ?_, fun name hName => ?_⟩
        · rcases List.mem_cons.mp h with h | h
          · cases h
          · exact hSlots name w h
        · refine .text (fun w s hw hText => ?_) (hCuts name hName)
          obtain ⟨prev', hSome⟩ := matchAt_placeholder hw s prev
          have hNone := List.findSome?_eq_none_iff.mp hFind name hName
          rw [hText, hSome] at hNone
          cases hNone
      | some found =>
        obtain ⟨found, place'⟩ := found
        obtain ⟨name, -, hMap⟩ := List.exists_of_findSome?_eq_some hFind
        obtain ⟨place', hMatch, hEq⟩ := Option.map_eq_some_iff.mp hMap
        obtain ⟨rfl, rfl⟩ := Prod.mk.inj hEq
        have hRun := List.mem_of_head? (Option.filter_eq_some_iff.mp hMatch).1
        obtain ⟨w, hw, hText⟩ := isPlaceholder_of_run hRun
        have hShorter := Regex.length_lt_of_matchAt hMatch
        obtain ⟨prev', after⟩ := place'
        dsimp only at hText hShorter ⊢
        rw [List.length_cons] at hShorter
        obtain ⟨hSlots, hCuts⟩ := @ih prev' after (by omega)
        rw [hText, List.length_append, Nat.add_sub_cancel, List.take_left]
        refine ⟨fun other v h => ?_, fun other hOther => ?_⟩
        · rcases List.mem_cons.mp h with h | h
          · obtain ⟨rfl, rfl⟩ := TemplatePiece.slot.inj h
            exact hw
          · exact hSlots other v h
        · rw [piecesFor, List.flatMap_cons]
          by_cases hSame : name = other
          · subst hSame
            simp only [if_true]
            exact .hit hw (hCuts name hOther)
          · simp only [if_neg hSame, Option.getD_none]
            exact Cuts.skip_other hw hSame (hCuts other hOther)

theorem hitCount_piecesFor (name : SlotName) (value : SlotName → Option (List Char))
    (pieces : List TemplatePiece) :
    hitCount (piecesFor name value pieces) = slotCount name pieces := by
  induction pieces with
  | nil => rfl
  | cons piece pieces ih =>
    rw [piecesFor, List.flatMap_cons, hitCount_append, ← piecesFor, ih]
    cases piece with
    | text c => rw [slotCount_text, hitCount_text, hitCount, List.countP_nil, Nat.zero_add]
    | slot other w =>
      dsimp only
      by_cases hSame : other = name
      · subst hSame
        rw [if_pos rfl, hitCount_hit, slotCount_same, hitCount, List.countP_nil]
        omega
      · rw [if_neg hSame, hitCount_map_text, slotCount_other hSame, Nat.zero_add]

/-- A text that is filled in has the placeholders of a further name that the template has,
and if it has no others they are where they were. -/
theorem cuts_fill {value : SlotName → Option (List Char)}
    (hValue : value name = none) {pieces : List TemplatePiece}
    (hSlots : ∀ other w, .slot other w ∈ pieces → IsSlotMark other w) {cut : List Piece}
    (h : Cuts placeholders name (fill value pieces) cut) :
    slotCount name pieces ≤ hitCount cut ∧
      (hitCount cut ≤ slotCount name pieces → cut = piecesFor name value pieces) := by
  induction pieces generalizing cut with
  | nil =>
    have hNil : Cuts placeholders name [] cut := h
    rw [← Cuts.nil.unique hNil]
    exact ⟨Nat.le_refl _, fun _ => rfl⟩
  | cons piece pieces ih =>
    have hRest := @ih fun other w hMem => hSlots other w (List.mem_cons_of_mem _ hMem)
    obtain ⟨rest, hCut⟩ := Cuts.exists_cuts placeholders name (fill value pieces)
    obtain ⟨hLe, hEq⟩ := hRest hCut
    rw [fill, List.flatMap_cons, ← fill] at h
    -- a part that is no slot of the name: if nothing is found in it, it is kept as it is
    have hOther : ∀ part, Cuts placeholders name (part ++ fill value pieces) cut →
        slotCount name pieces ≤ hitCount cut ∧
          (hitCount cut ≤ slotCount name pieces →
            cut = part.map .text ++ piecesFor name value pieces) := by
      intro part hPart
      obtain ⟨first, hFirst⟩ := Cuts.exists_cuts placeholders name part
      obtain ⟨hSum, hConcat⟩ := hFirst.append hCut hPart
      refine ⟨by omega, fun hFew => ?_⟩
      rw [hConcat (by omega), hFirst.eq_text_of_no_hit (by omega), hEq (by omega)]
    cases piece with
    | text c =>
      rw [slotCount_text]
      exact hOther [c] h
    | slot other w =>
      have hw : IsSlotMark other w := hSlots other w List.mem_cons_self
      by_cases hSame : other = name
      · subst hSame
        dsimp only at h
        rw [hValue, Option.getD_none] at h
        obtain ⟨rest', rfl, hRest'⟩ := h.of_mark hw
        obtain ⟨hLe', hEq'⟩ := hRest hRest'
        rw [slotCount_same, hitCount_hit, piecesFor, List.flatMap_cons]
        refine ⟨by omega, fun hFew => ?_⟩
        rw [hEq' (by omega)]
        simp only [if_true]
        rfl
      · rw [slotCount_other hSame, piecesFor, List.flatMap_cons]
        dsimp only
        rw [if_neg hSame]
        exact hOther _ h

end LosslessHermes
