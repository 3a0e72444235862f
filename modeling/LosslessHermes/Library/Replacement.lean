import LosslessHermes.Library.Slots

/-!
# Search and replace with a replacement template

The replacement of `re.sub` is a template of its own: a backslash in it begins an escape or
a group reference, and some of them raise. That is decided before the search, so that
`substitutePattern` fails for such a value whether or not the pattern occurs
(`substitutePattern_eq_none_iff`). `substituteEach` fills the placeholders of a template in one
after the other; `substituteEach_eq` says when that is their simultaneous substitution.
-/

namespace LosslessHermes

open Regex (Piece)

/-! ## Replacement templates -/

inductive ReplacementPart
  | char (c : Char)
  /-- `\g<0>` -/
  | wholeMatch
  deriving DecidableEq

/-- `ESCAPES` -/
def escapes : List (Char × Char) :=
  [('a', '\x07'), ('b', '\x08'), ('f', '\x0c'), ('n', '\n'), ('r', '\r'), ('t', '\t'),
    ('v', '\x0b'), ('\\', '\\')]

def isOctal (c : Char) : Bool :=
  '0' ≤ c && c ≤ '7'

def octalValue (digits : List Char) : Nat :=
  digits.foldl (fun n c => 8 * n + (c.toNat - '0'.toNat)) 0

/-- What follows `\g`, for a pattern without groups of its own. -/
def readGroup : List Char → Option (List ReplacementPart × List Char)
  | '<' :: rest =>
      match rest.span fun c => c != '>' with
      | (_, []) => none
      | (name, _ :: after) =>
          if name ≠ [] ∧ name.all (fun c => c == '0') then some ([.wholeMatch], after) else none
  | _ => none

/-- What follows a backslash. -/
def readEscape : List Char → Option (List ReplacementPart × List Char)
  | [] => none
  | c :: rest =>
      if c = 'g' then readGroup rest
      else if c = '0' then
        let digits := (rest.take 2).takeWhile isOctal
        some ([.char (Char.ofNat (octalValue digits))], rest.drop digits.length)
      else if c.isDigit then
        match rest with
        | d :: e :: after =>
            -- three octal digits are a character, everything else a group that is not there
            if isOctal c && isOctal d && isOctal e && octalValue [c, d, e] ≤ 0o377 then
              some ([.char (Char.ofNat (octalValue [c, d, e]))], after)
            else none
        | _ => none
      else
        match escapes.lookup c with
        | some made => some ([.char made], rest)
        | none => if c.isAlpha then none else some ([.char '\\', .char c], rest)

def parseTemplateFrom : Nat → List Char → Option (List ReplacementPart)
  | _, [] => some []
  | 0, _ :: _ => none
  | fuel + 1, c :: rest =>
      if c = '\\' then
        match readEscape rest with
        | none => none
        | some (parts, after) => (parseTemplateFrom fuel after).map (parts ++ ·)
      else (parseTemplateFrom fuel rest).map (.char c :: ·)

/-- `parse_template`, none where it raises. -/
def parseTemplate (value : List Char) : Option (List ReplacementPart) :=
  parseTemplateFrom value.length value

def expandParts (parts : List ReplacementPart) (found : List Char) : List Char :=
  parts.flatMap fun
    | .char c => [c]
    | .wholeMatch => found

/-- The template of a value is the value. -/
def Verbatim (value : List Char) : Prop :=
  parseTemplate value = some (value.map .char)

instance (value : List Char) : Decidable (Verbatim value) :=
  inferInstanceAs (Decidable (_ = _))

theorem expandParts_of_char (value found : List Char) :
    expandParts (value.map .char) found = value := by
  induction value with
  | nil => rfl
  | cons c value ih =>
    rw [List.map_cons, expandParts, List.flatMap_cons, ← expandParts, ih]
    rfl

/-! ## `re.sub` -/

def replacePieces (parts : List ReplacementPart) (pieces : List Piece) : List Char :=
  pieces.flatMap fun
    | .text c => [c]
    | .hit found => expandParts parts found

def substitutePattern (pattern : Regex) (value text : String) : Option String :=
  (parseTemplate value.toList).map fun parts =>
    String.ofList (replacePieces parts (Regex.split pattern text.toList))

theorem substitutePattern_eq_none_iff {pattern : Regex} {value text : String} :
    substitutePattern pattern value text = none ↔ parseTemplate value.toList = none :=
  Option.map_eq_none_iff

theorem replacePieces_map_text (parts : List ReplacementPart) (s : List Char) :
    replacePieces parts (s.map .text) = s := by
  induction s with
  | nil => rfl
  | cons c s ih =>
    rw [List.map_cons, replacePieces, List.flatMap_cons, ← replacePieces, ih]
    rfl

variable {name : SlotName}

/-- Replacing the placeholders of a name, where they are those of the template. -/
theorem replacePieces_piecesFor {value : SlotName → Option (List Char)}
    {new : List Char} {parts : List ReplacementPart} {pieces : List TemplatePiece}
    (hNew : 0 < slotCount name pieces → parts = new.map .char) :
    replacePieces parts (piecesFor name value pieces) =
      fill (fun other => if other = name then some new else value other) pieces := by
  induction pieces with
  | nil => rfl
  | cons piece pieces ih =>
    have hAppend : ∀ ps qs, replacePieces parts (ps ++ qs) =
        replacePieces parts ps ++ replacePieces parts qs := fun _ _ => List.flatMap_append
    rw [piecesFor, List.flatMap_cons, hAppend, ← piecesFor, fill, List.flatMap_cons, ← fill]
    cases piece with
    | text c =>
      rw [slotCount_text] at hNew
      rw [ih hNew]
      rfl
    | slot other w =>
      dsimp only
      by_cases hSame : other = name
      · subst hSame
        rw [slotCount_same] at hNew
        have hParts := hNew (Nat.succ_pos _)
        rw [ih fun _ => hParts, if_pos rfl, if_pos rfl, Option.getD_some]
        congr 1
        rw [hParts, replacePieces, List.flatMap_cons, List.flatMap_nil, List.append_nil]
        exact expandParts_of_char new w
      · rw [slotCount_other hSame] at hNew
        rw [ih hNew, if_neg hSame, if_neg hSame, replacePieces_map_text]

/-! ## One name after the other -/

def substituteEach (values : List (SlotName × String)) (template : String) : Option String :=
  values.foldlM (fun text entry => substitutePattern (placeholder entry.1) entry.2 text) template

def valueOf (values : List (SlotName × String)) (name : SlotName) : Option (List Char) :=
  (values.lookup name).map String.toList

/-- The template with the placeholders of the names that have a value filled in. -/
def filledIn (names : List SlotName) (values : List (SlotName × String)) (template : String) :
    List Char :=
  simultaneous names (valueOf values) template.toList

/-- What the values that are still to come have to satisfy: none raises, those that occur
are inserted as they are, and the values that are already there make no new placeholders
of theirs. -/
def HarmlessFrom (names : List SlotName) (template : String) :
    List (SlotName × String) → List (SlotName × String) → Prop
  | _, [] => True
  | done, (name, value) :: values =>
      (parseTemplate value.toList).isSome ∧
      (0 < occurrences name template.toList → Verbatim value.toList) ∧
      occurrences name (filledIn names done template) = occurrences name template.toList ∧
      HarmlessFrom names template (done ++ [(name, value)]) values

instance (names : List SlotName) (template : String) :
    ∀ done values, Decidable (HarmlessFrom names template done values)
  | _, [] => isTrue trivial
  | done, (name, value) :: values =>
      have : Decidable (HarmlessFrom names template (done ++ [(name, value)]) values) :=
        instDecidableHarmlessFrom names template (done ++ [(name, value)]) values
      inferInstanceAs (Decidable (_ ∧ _ ∧ _ ∧ _))

def Harmless (values : List (SlotName × String)) (template : String) : Prop :=
  HarmlessFrom (values.map (·.1)) template [] values

instance (values : List (SlotName × String)) (template : String) :
    Decidable (Harmless values template) :=
  inferInstanceAs (Decidable (HarmlessFrom _ _ _ _))

theorem fill_nothing (names : List SlotName) (fuel : Nat) (place : Regex.Place)
    (hFuel : place.2.length ≤ fuel) :
    fill (fun _ => none) (templatePieces names fuel place) = place.2 := by
  induction fuel generalizing place with
  | zero =>
    have hNil := List.length_eq_zero_iff.mp (Nat.le_zero.mp hFuel)
    rw [templatePieces, hNil]
    rfl
  | succ fuel ih =>
    obtain ⟨prev, text⟩ := place
    cases text with
    | nil => rfl
    | cons c rest =>
      rw [templatePieces]
      dsimp only at hFuel ⊢
      rw [List.length_cons] at hFuel
      split
      · rename_i found place' hFind
        obtain ⟨name, -, hMap⟩ := List.exists_of_findSome?_eq_some hFind
        obtain ⟨place', hMatch, hEq⟩ := Option.map_eq_some_iff.mp hMap
        obtain ⟨rfl, rfl⟩ := Prod.mk.inj hEq
        have hRun := List.mem_of_head? (Option.filter_eq_some_iff.mp hMatch).1
        obtain ⟨w, -, hText⟩ := isPlaceholder_of_run hRun
        have hShorter := Regex.length_lt_of_matchAt hMatch
        dsimp only at hText hShorter
        rw [List.length_cons] at hShorter
        rw [hText, List.length_append, Nat.add_sub_cancel, List.take_left, fill,
          List.flatMap_cons, ← fill, ih place' (by omega)]
        rfl
      · rw [fill, List.flatMap_cons, ← fill,
          ih (some c, rest) (Nat.le_of_succ_le_succ hFuel)]
        rfl

theorem filledIn_nil (names : List SlotName) (template : String) :
    filledIn names [] template = template.toList :=
  fill_nothing names _ _ (Nat.le_refl _)

variable {done : List (SlotName × String)}

theorem lookup_eq_none (hNew : name ∉ done.map (·.1)) : done.lookup name = none := by
  apply List.lookup_eq_none_iff.mpr
  rintro entry hEntry
  apply bne_iff_ne.mpr
  rintro rfl
  exact hNew (List.mem_map_of_mem hEntry)

theorem valueOf_append (value : String) (hNew : name ∉ done.map (·.1)) :
    valueOf (done ++ [(name, value)]) =
      fun other => if other = name then some value.toList else valueOf done other := by
  funext other
  rw [valueOf, List.lookup_append]
  by_cases hSame : other = name
  · subst hSame
    rw [if_pos rfl, lookup_eq_none hNew, Option.none_or, List.lookup_cons_self]
    rfl
  · rw [if_neg hSame]
    have hOther : List.lookup other [(name, value)] = none :=
      lookup_eq_none (by simpa using hSame)
    rw [hOther, Option.or_none]
    rfl

variable {template : String}

/-- A harmless value is filled in by one substitution. -/
theorem substitutePattern_filledIn {names : List SlotName} {value : String} (hName : name ∈ names)
    (hNew : name ∉ done.map (·.1)) (hParsed : (parseTemplate value.toList).isSome)
    (hVerbatim : 0 < occurrences name template.toList → Verbatim value.toList)
    (hSame : occurrences name (filledIn names done template) = occurrences name template.toList) :
    substitutePattern (placeholder name) value (String.ofList (filledIn names done template)) =
      some (String.ofList (filledIn names (done ++ [(name, value)]) template)) := by
  obtain ⟨hSlots, hCuts⟩ :=
    templatePieces_spec names template.toList.length none (Nat.le_refl _)
  -- the template has as many slots of the name as its pattern has matches
  have hCount : slotCount name (templatePieces names template.toList.length
      (none, template.toList)) = occurrences name template.toList := by
    rw [occurrences, (cuts_split name template.toList).unique (hCuts name hName),
      hitCount_piecesFor]
  have hDone : valueOf done name = none := by
    rw [valueOf, lookup_eq_none hNew]
    rfl
  have hCut := (cuts_fill hDone hSlots (cuts_split name (filledIn names done template))).2
    (by
      rw [hCount, ← hSame]
      exact Nat.le_refl _)
  obtain ⟨parts, hParts⟩ := Option.isSome_iff_exists.mp hParsed
  rw [substitutePattern, hParts, Option.map_some, String.toList_ofList, hCut, filledIn,
    simultaneous, valueOf_append value hNew]
  congr 2
  apply replacePieces_piecesFor
  intro hPos
  rw [hCount] at hPos
  exact Option.some.inj (hParts.symm.trans (hVerbatim hPos))

variable {values : List (SlotName × String)}

theorem substituteEach_of_harmless {names : List SlotName}
    (hNames : ∀ entry ∈ values, entry.1 ∈ names) (hNodup : ((done ++ values).map (·.1)).Nodup)
    (h : HarmlessFrom names template done values) :
    substituteEach values (String.ofList (filledIn names done template)) =
      some (String.ofList (filledIn names (done ++ values) template)) := by
  induction values generalizing done with
  | nil =>
    rw [List.append_nil]
    rfl
  | cons entry values ih =>
    obtain ⟨name, value⟩ := entry
    obtain ⟨hParsed, hVerbatim, hSame, hRest⟩ := h
    have hNew : name ∉ done.map (·.1) := by
      rw [List.map_append, List.nodup_append] at hNodup
      intro hMem
      exact hNodup.2.2 name hMem name List.mem_cons_self rfl
    have hStep := substitutePattern_filledIn (hNames (name, value) List.mem_cons_self) hNew
      hParsed hVerbatim hSame
    rw [substituteEach, List.foldlM_cons, hStep]
    refine (ih (fun entry hEntry => hNames entry (List.mem_cons_of_mem _ hEntry)) ?_ hRest).trans
      ?_
    · rwa [List.append_assoc]
    · rw [List.append_assoc]
      rfl

/-- Harmless values are filled in verbatim and all at once. -/
theorem substituteEach_eq (hNodup : (values.map (·.1)).Nodup) (h : Harmless values template) :
    substituteEach values template =
      some (String.ofList (filledIn (values.map (·.1)) values template)) := by
  have hAll := substituteEach_of_harmless (fun entry hEntry => List.mem_map_of_mem hEntry)
    (by rwa [List.nil_append]) h
  rwa [filledIn_nil, String.ofList_toList] at hAll

theorem substituteEach_eq_none_iff :
    substituteEach values template = none ↔
      ∃ entry ∈ values, parseTemplate entry.2.toList = none := by
  induction values generalizing template with
  | nil => simp [substituteEach]
  | cons entry values ih =>
    rw [substituteEach, List.foldlM_cons]
    cases hStep : substitutePattern (placeholder entry.1) entry.2 template with
    | none =>
      exact ⟨fun _ => ⟨entry, List.mem_cons_self, substitutePattern_eq_none_iff.mp hStep⟩,
        fun _ => rfl⟩
    | some text =>
      have hParsed : parseTemplate entry.2.toList ≠ none := fun hNone => by
        rw [substitutePattern_eq_none_iff.mpr hNone] at hStep
        cases hStep
      refine (@ih text).trans ⟨?_, ?_⟩
      · rintro ⟨other, hOther, hNone⟩
        exact ⟨other, List.mem_cons_of_mem _ hOther, hNone⟩
      · rintro ⟨other, hOther, hNone⟩
        rcases List.mem_cons.mp hOther with rfl | hOther
        · exact absurd hNone hParsed
        · exact ⟨other, hOther, hNone⟩

end LosslessHermes
