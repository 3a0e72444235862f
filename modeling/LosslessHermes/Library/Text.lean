import Mathlib.Data.List.DropRight
import Mathlib.Data.List.Infix
import Mathlib.Data.List.TakeWhile

/-!
# String operations of the source language

`strip` removes the characters for which `str.isspace` holds from both ends;
`isBlank` is the test `not s.strip()`, and `splitLines` cuts at line breaks.
-/

namespace LosslessHermes.Text

/-- `str.isspace` on one code point. -/
def isSpace (c : Char) : Bool :=
  let n := c.toNat
  (9 ≤ n && n ≤ 13) || (28 ≤ n && n ≤ 32) || n == 0x85 || n == 0xA0 || n == 0x1680 ||
    (0x2000 ≤ n && n ≤ 0x200A) || n == 0x2028 || n == 0x2029 || n == 0x202F ||
    n == 0x205F || n == 0x3000

def stripChars (s : List Char) : List Char :=
  ((s.dropWhile isSpace).reverse.dropWhile isSpace).reverse

/-- `str.strip()`. -/
def strip (s : String) : String :=
  String.ofList (stripChars s.toList)

/-- `not s.strip()`. -/
def isBlank (s : String) : Bool :=
  s.toList.all isSpace

theorem isBlank_append (s t : String) : isBlank (s ++ t) = (isBlank s && isBlank t) := by
  simp only [isBlank, String.toList_append, List.all_append]

variable {s : String}

/-- The first character that is left is no space. -/
theorem stripChars_eq_nil_iff {s : List Char} :
    stripChars s = [] ↔ ∀ c ∈ s, isSpace c = true := by
  rw [stripChars, List.reverse_eq_nil_iff, List.dropWhile_eq_nil_iff]
  constructor
  · intro h
    by_contra hNot
    have hNe : s.dropWhile isSpace ≠ [] := fun hNil => hNot (List.dropWhile_eq_nil_iff.mp hNil)
    apply Bool.eq_false_iff.mp (List.head_dropWhile_not isSpace hNe)
    exact h _ (List.mem_reverse.mpr (List.head_mem hNe))
  · intro h c hc
    exact h c ((List.dropWhile_suffix isSpace).subset (List.mem_reverse.mp hc))

theorem strip_eq_empty_iff : strip s = "" ↔ isBlank s = true := by
  rw [strip, isBlank, List.all_eq_true, ← stripChars_eq_nil_iff]
  exact ⟨fun h => by simpa using congrArg String.toList h, fun h => by rw [h]⟩

theorem strip_of_isBlank (h : isBlank s = true) : strip s = "" :=
  strip_eq_empty_iff.mpr h

theorem strip_ne_of_isBlank (h : isBlank s = false) : strip s ≠ "" := by
  intro hEmpty
  rw [strip_eq_empty_iff.mp hEmpty] at h
  cases h

theorem stripChars_initial (s : List Char) : stripChars s <+: s.dropWhile isSpace := by
  rw [stripChars, ← List.reverse_suffix, List.reverse_reverse]
  exact List.dropWhile_suffix isSpace

theorem stripChars_inside (s : List Char) : stripChars s <:+: s :=
  (stripChars_initial s).isInfix.trans (List.dropWhile_suffix isSpace).isInfix

theorem filter_stripChars (s : List Char) :
    ((stripChars s).filter fun c => !isSpace c) = s.filter fun c => !isSpace c := by
  have hFront : ∀ s : List Char,
      ((s.dropWhile isSpace).filter fun c => !isSpace c) = s.filter fun c => !isSpace c := by
    intro s
    have hTake : ((s.takeWhile isSpace).filter fun c => !isSpace c) = [] :=
      List.filter_eq_nil_iff.mpr fun c hc => by simp [List.mem_takeWhile_imp hc]
    conv_rhs => rw [← List.takeWhile_append_dropWhile (p := isSpace) (l := s), List.filter_append,
      hTake, List.nil_append]
  rw [stripChars, List.filter_reverse, hFront, ← List.filter_reverse, List.reverse_reverse, hFront]

theorem stripChars_stripChars (s : List Char) : stripChars (stripChars s) = stripChars s := by
  have hLeft : (stripChars s).dropWhile isSpace = stripChars s := by
    have hPrefix := stripChars_initial s
    apply List.dropWhile_eq_self_iff.mpr
    intro hLength
    have hNe : s.dropWhile isSpace ≠ [] := by
      intro hNil
      rw [hNil, List.prefix_nil] at hPrefix
      rw [hPrefix] at hLength
      cases hLength
    have hHead := hPrefix.getElem hLength
    rw [hHead, List.getElem_zero_eq_head]
    exact Bool.eq_false_iff.mp (List.head_dropWhile_not isSpace hNe)
  have hRight : (stripChars s).reverse.dropWhile isSpace = (stripChars s).reverse := by
    rw [stripChars, List.reverse_reverse, List.dropWhile_idempotent isSpace]
  conv_lhs => rw [stripChars, hLeft, hRight, List.reverse_reverse]

theorem strip_strip (s : String) : strip (strip s) = strip s := by
  rw [strip, strip, String.toList_ofList, stripChars_stripChars]

/-- A stripped text is empty or has a character that is not a space. -/
theorem isBlank_strip_of_ne (h : strip s ≠ "") : isBlank (strip s) = false := by
  rw [Bool.eq_false_iff]
  intro hBlank
  apply h
  rw [← strip_strip, strip_eq_empty_iff.mpr hBlank]

/-- `s.startswith(part)`. -/
def startsWith (s part : String) : Bool :=
  part.toList.isPrefixOf s.toList

/-- `s.find(part)`, with `none` for -1. -/
def find (s part : String) : Option Nat :=
  s.toList.tails.findIdx? part.toList.isPrefixOf

variable {part : String}

theorem infix_of_startsWith (h : startsWith s part = true) :
    part.toList <:+: s.toList :=
  (List.isPrefixOf_iff_prefix.mp h).isInfix

variable {i : Nat}

theorem infix_of_find (h : find s part = some i) :
    part.toList <:+: s.toList := by
  obtain ⟨hLt, hPrefix, -⟩ := List.findIdx?_eq_some_iff_getElem.mp h
  have hTail := (List.mem_tails _ _).mp (List.getElem_mem hLt)
  exact (List.isPrefixOf_iff_prefix.mp hPrefix).isInfix.trans hTail.isInfix

theorem isBlank_of_infix (h : part.toList <:+: s.toList)
    (hBlank : isBlank s = true) : isBlank part = true :=
  List.all_eq_true.mpr fun c hc => List.all_eq_true.mp hBlank c (h.subset hc)

/-- An end without a space is kept. -/
theorem suffix_stripChars {s t : List Char} (hNe : t ≠ []) (hSolid : ∀ c ∈ t, isSpace c = false) :
    t <:+ stripChars (s ++ t) := by
  have hSelf : ∀ u : List Char, u ≠ [] → (∀ c ∈ u, isSpace c = false) →
      ∀ v, (u ++ v).dropWhile isSpace = u ++ v := by
    intro u hu hAll v
    cases u with
    | nil => exact absurd rfl hu
    | cons c u =>
      rw [List.cons_append, List.dropWhile_cons, hAll c List.mem_cons_self]
      rfl
  obtain ⟨front, hFront⟩ : ∃ front, (s ++ t).dropWhile isSpace = front ++ t := by
    rw [List.dropWhile_append]
    split
    · refine ⟨[], ?_⟩
      have hDrop := hSelf t hNe hSolid []
      rwa [List.append_nil] at hDrop
    · exact ⟨_, rfl⟩
  refine ⟨front, ?_⟩
  rw [stripChars, hFront, List.reverse_append, hSelf t.reverse, List.reverse_append,
    List.reverse_reverse, List.reverse_reverse]
  · exact List.reverse_ne_nil_iff.mpr hNe
  · exact fun c hc => hSolid c (List.mem_reverse.mp hc)

theorem infix_intercalate {sep text : String} {texts : List String} (h : text ∈ texts) :
    text.toList <:+: (sep.intercalate texts).toList := by
  rw [String.toList_intercalate]
  induction texts with
  | nil => cases h
  | cons head texts ih =>
    cases texts with
    | nil =>
      rw [List.mem_singleton.mp h, List.map_singleton, List.intercalate_singleton]
    | cons next texts =>
      rw [List.map_cons, List.map_cons, List.intercalate_cons_cons]
      rcases List.mem_cons.mp h with rfl | h
      · rw [List.append_assoc]
        exact (List.prefix_append _ _).isInfix
      · exact (ih h).trans (List.suffix_append _ _).isInfix

/-- The ASCII letter or digit that a character has as its lower case. -/
def lowerAscii (c : Char) : Option Char :=
  if 'a' ≤ c ∧ c ≤ 'z' ∨ '0' ≤ c ∧ c ≤ '9' then some c
  else if 'A' ≤ c ∧ c ≤ 'Z' then some c.toLower
  else if c.toNat = 0x212A then some 'k'
  else none

/-- `s.lower()`, as far as ASCII characters come out of it: of the characters beyond ASCII,
only the Kelvin sign has an ASCII letter as lower case. -/
def lower (s : List Char) : List Char :=
  s.map fun c => if c.toNat = 0x212A then 'k' else c.toLower

/-- `s.strip().lower() == word`, for a word of ASCII letters. -/
def isWord (s word : String) : Bool :=
  (stripChars s.toList).map lowerAscii = word.toList.map some

/-- `word in s.lower()`, for a word of ASCII letters. -/
def containsWord (s word : String) : Bool :=
  (s.toList.map lowerAscii).tails.any (word.toList.map some).isPrefixOf

/-- The zeros of the decimal digits of Unicode, in whose blocks of ten the digits follow. -/
def digitZeros : List Nat :=
  [0x30, 0x660, 0x6f0, 0x7c0, 0x966, 0x9e6, 0xa66, 0xae6, 0xb66, 0xbe6, 0xc66, 0xce6, 0xd66, 0xde6,
    0xe50, 0xed0, 0xf20, 0x1040, 0x1090, 0x17e0, 0x1810, 0x1946, 0x19d0, 0x1a80, 0x1a90, 0x1b50,
    0x1bb0, 0x1c40, 0x1c50, 0xa620, 0xa8d0, 0xa900, 0xa9d0, 0xa9f0, 0xaa50, 0xabf0, 0xff10,
    0x104a0, 0x10d30, 0x11066, 0x110f0, 0x11136, 0x111d0, 0x112f0, 0x11450, 0x114d0, 0x11650,
    0x116c0, 0x11730, 0x118e0, 0x11950, 0x11c50, 0x11d50, 0x11da0, 0x16a60, 0x16ac0, 0x16b50,
    0x1d7ce, 0x1d7d8, 0x1d7e2, 0x1d7ec, 0x1d7f6, 0x1e140, 0x1e2f0, 0x1e950, 0x1fbf0]

/-- The value of a decimal digit, which is what `\d` matches. -/
def digitValue (c : Char) : Option Nat :=
  (digitZeros.find? fun start => start ≤ c.toNat && c.toNat < start + 10).map (c.toNat - ·)

def isDigit (c : Char) : Bool :=
  (digitValue c).isSome

/-- `int` on a run of digits; more than 4300 of them are refused. -/
def intOfDigits (digits : List Char) : Option Nat :=
  if 4300 < digits.length then none
  else some (digits.foldl (fun n c => 10 * n + (digitValue c).getD 0) 0)

/-- `str.rstrip()`. -/
def stripRight (s : List Char) : List Char :=
  (s.reverse.dropWhile isSpace).reverse

/-- `re.split(r"\r?\n", s)`. -/
def splitLines : List Char → List (List Char)
  | [] => [[]]
  | '\r' :: '\n' :: rest => [] :: splitLines rest
  | c :: rest =>
      if c = '\n' then [] :: splitLines rest
      else
        match splitLines rest with
        | [] => [[c]]
        | line :: lines => (c :: line) :: lines

end LosslessHermes.Text
