import LosslessHermes.Library.Regex
import Mathlib.Data.List.Forall2

/-!
# Delimiters of a pattern

A delimiter of a pattern is a character that it never consumes and that its look-around takes
for the end of the text. What a pattern matches before a delimiter does not depend on what
follows, and the other way round: `split_append` cuts a text there. `Never` says that a pattern
has no match in a text.
-/

namespace LosslessHermes.Regex

/-- A repeated pattern consumes a character; so the length of the text is fuel enough. -/
def Proper : Regex → Prop
  | .seq r s => Proper r ∧ Proper s
  | .alt r s => Proper r ∧ Proper s
  | .star r => Proper r ∧ ∀ place, ∀ place' ∈ run r place, place'.2.length < place.2.length
  | _ => True

def Delimiter (c : Char) : Regex → Prop
  | .empty => True
  | .char p => p c = false
  | .behind p => p (some c) = p none
  | .ahead p => p (some c) = p none
  | .seq r s => Delimiter c r ∧ Delimiter c s
  | .alt r s => Delimiter c r ∧ Delimiter c s
  | .star r => Delimiter c r

/-- Where the preferred match that begins here ends, if it covers a character. -/
def matchAt (r : Regex) (place : Place) : Option Place :=
  (run r place).head?.filter fun place' => place'.2.length < place.2.length

variable {r : Regex} {c : Char} {rest : List Char}

theorem splitFrom_of_none {prev : Option Char}
    (h : matchAt r (prev, c :: rest) = none) (fuel : Nat) :
    splitFrom r (fuel + 1) (prev, c :: rest) = .text c :: splitFrom r fuel (some c, rest) := by
  unfold matchAt at h
  simp only [splitFrom]
  cases hHead : (run r (prev, c :: rest)).head? with
  | none => rfl
  | some place' =>
    rw [hHead, Option.filter_some, ite_eq_right_iff] at h
    dsimp only
    rw [if_neg fun hShorter => Option.some_ne_none _ (h (decide_eq_true hShorter))]

variable {place' : Place}

theorem splitFrom_of_some {prev : Option Char}
    (h : matchAt r (prev, c :: rest) = some place') (fuel : Nat) :
    splitFrom r (fuel + 1) (prev, c :: rest) =
      .hit ((c :: rest).take ((c :: rest).length - place'.2.length)) ::
        splitFrom r fuel place' := by
  obtain ⟨hHead, hShorter⟩ := Option.filter_eq_some_iff.mp h
  simp only [splitFrom, hHead]
  rw [if_pos (of_decide_eq_true hShorter)]

variable {place : Place}

theorem length_lt_of_matchAt (h : matchAt r place = some place') :
    place'.2.length < place.2.length :=
  of_decide_eq_true (Option.filter_eq_some_iff.mp h).2

/-! ## Fuel -/

variable {fuel : Nat}

theorem starRun_fuel {step : Place → List Place}
    (h : ∀ place, ∀ place' ∈ step place, place'.2.length < place.2.length) {fuel' : Nat}
    (hFuel : place.2.length ≤ fuel) (hFuel' : place.2.length ≤ fuel') :
    starRun step fuel place = starRun step fuel' place := by
  have hNone : ∀ place : Place, place.2.length ≤ 0 → step place = [] := by
    intro place hShort
    rw [List.eq_nil_iff_forall_not_mem]
    intro place' hStep
    have := h place place' hStep
    omega
  induction fuel generalizing fuel' place with
  | zero =>
    cases fuel' with
    | zero => rfl
    | succ fuel' => simp [starRun, hNone place hFuel]
  | succ fuel ih =>
    cases fuel' with
    | zero => simp [starRun, hNone place hFuel']
    | succ fuel' =>
      have hSteps : (step place).flatMap (starRun step fuel) =
          (step place).flatMap (starRun step fuel') := by
        refine List.flatMap_congr fun place' hStep => ih ?_ ?_
        · have := h place place' hStep
          omega
        · have := h place place' hStep
          omega
      simp only [starRun, hSteps]

variable {text : List Char}

theorem splitFrom_fuel (r : Regex) (prev : Option Char) {fuel' : Nat}
    (hFuel : text.length ≤ fuel) (hFuel' : text.length ≤ fuel') :
    splitFrom r fuel (prev, text) = splitFrom r fuel' (prev, text) := by
  induction fuel generalizing fuel' prev text with
  | zero =>
    have hNil : text = [] := List.length_eq_zero_iff.mp (Nat.le_zero.mp hFuel)
    subst hNil
    cases fuel' with
    | zero => rfl
    | succ fuel' => rfl
  | succ fuel ih =>
    cases text with
    | nil =>
      cases fuel' with
      | zero => rfl
      | succ fuel' => rfl
    | cons c rest =>
      cases fuel' with
      | zero => cases hFuel'
      | succ fuel' =>
        rw [List.length_cons] at hFuel hFuel'
        cases hMatch : matchAt r (prev, c :: rest) with
        | none =>
          rw [splitFrom_of_none hMatch, splitFrom_of_none hMatch,
            ih (some c) (Nat.le_of_succ_le_succ hFuel) (Nat.le_of_succ_le_succ hFuel')]
        | some place' =>
          have hShorter := length_lt_of_matchAt hMatch
          rw [List.length_cons] at hShorter
          have hRest : splitFrom r fuel place' = splitFrom r fuel' place' :=
            ih place'.1 (by omega) (by omega)
          rw [splitFrom_of_some hMatch, splitFrom_of_some hMatch, hRest]

/-! ## What stands before a delimiter -/

/-- The place, in a text that goes on. -/
def extend (tail : List Char) (place : Place) : Place :=
  (place.1, place.2 ++ tail)

theorem starRun_extend {step : Place → List Place} {tail : List Char}
    (h : ∀ place, step (extend tail place) = (step place).map (extend tail)) (fuel : Nat)
    (place : Place) :
    starRun step fuel (extend tail place) = (starRun step fuel place).map (extend tail) := by
  induction fuel generalizing place with
  | zero => rfl
  | succ fuel ih =>
    simp only [starRun, h, List.map_append, List.map_flatMap, List.flatMap_map, ih, List.map_cons,
      List.map_nil]

theorem run_extend (hProper : Proper r) (hDelimiter : Delimiter c r)
    (tail : List Char) (place : Place) :
    run r (extend (c :: tail) place) = (run r place).map (extend (c :: tail)) := by
  induction r generalizing place with
  | empty => rfl
  | char p =>
    obtain ⟨prev, text⟩ := place
    cases text with
    | nil =>
      have hOut : p c = false := hDelimiter
      simp [run, extend, hOut]
    | cons d rest =>
      simp only [run, extend, List.cons_append]
      split <;> simp [extend]
  | behind p =>
    by_cases hTest : p place.1 = true
    · simp [run, extend, hTest]
    · simp [run, extend, hTest]
  | ahead p =>
    have hTest : p (extend (c :: tail) place).2.head? = p place.2.head? := by
      obtain ⟨prev, text⟩ := place
      cases text with
      | nil => exact hDelimiter
      | cons d rest => rfl
    unfold run
    rw [hTest]
    split
    · rfl
    · rfl
  | seq r s ihr ihs =>
    simp only [run, ihr hProper.1 hDelimiter.1, List.flatMap_map, List.map_flatMap]
    exact List.flatMap_congr fun place' _ => ihs hProper.2 hDelimiter.2 place'
  | alt r s ihr ihs =>
    simp only [run, ihr hProper.1 hDelimiter.1, ihs hProper.2 hDelimiter.2, List.map_append]
  | star r ih =>
    show starRun (run r) (extend (c :: tail) place).2.length (extend (c :: tail) place) =
      (starRun (run r) place.2.length place).map (extend (c :: tail))
    rw [starRun_extend (ih hProper.1 hDelimiter)]
    refine congrArg _ (starRun_fuel hProper.2 ?_ (Nat.le_refl _))
    simp [extend]

theorem matchAt_extend (hProper : Proper r) (hDelimiter : Delimiter c r)
    (tail : List Char) (place : Place) :
    matchAt r (extend (c :: tail) place) = (matchAt r place).map (extend (c :: tail)) := by
  unfold matchAt
  rw [run_extend hProper hDelimiter, List.head?_map]
  cases (run r place).head? with
  | none => rfl
  | some place' =>
    have hSame : (extend (c :: tail) place').2.length < (extend (c :: tail) place).2.length ↔
        place'.2.length < place.2.length := by
      simp [extend]
    simp only [Option.map_some, Option.filter_some, hSame]
    split
    · rfl
    · rfl

/-- No match begins at a delimiter. -/
theorem matchAt_delimiter (hProper : Proper r) (hDelimiter : Delimiter c r)
    (prev : Option Char) (tail : List Char) : matchAt r (prev, c :: tail) = none := by
  have hNone : matchAt r (prev, []) = none := by
    cases hMatch : matchAt r (prev, []) with
    | none => rfl
    | some place' => cases length_lt_of_matchAt hMatch
  have hExtend := matchAt_extend hProper hDelimiter tail (prev, [])
  rw [hNone] at hExtend
  exact hExtend

/-- A text is cut at a delimiter, and what follows is matched on its own. -/
theorem splitFrom_append (hProper : Proper r) (hDelimiter : Delimiter c r)
    (prev : Option Char) (tail : List Char) (hFuel : text.length ≤ fuel) :
    splitFrom r (fuel + tail.length + 1) (prev, text ++ c :: tail) =
      splitFrom r fuel (prev, text) ++ .text c :: splitFrom r tail.length (some c, tail) := by
  have hDone : ∀ (prev : Option Char) (fuel : Nat),
      splitFrom r (fuel + tail.length + 1) (prev, c :: tail) =
        splitFrom r fuel (prev, []) ++ .text c :: splitFrom r tail.length (some c, tail) := by
    intro prev fuel
    rw [splitFrom_of_none (matchAt_delimiter hProper hDelimiter prev tail),
      splitFrom_fuel r (some c) (Nat.le_add_left _ _) (Nat.le_refl _)]
    cases fuel with
    | zero => rfl
    | succ fuel => rfl
  induction fuel generalizing prev text with
  | zero =>
    have hNil : text = [] := List.length_eq_zero_iff.mp (Nat.le_zero.mp hFuel)
    subst hNil
    exact hDone prev 0
  | succ fuel ih =>
    cases text with
    | nil => exact hDone prev (fuel + 1)
    | cons d rest =>
      rw [List.length_cons] at hFuel
      have hMatch : matchAt r (prev, d :: (rest ++ c :: tail)) = _ :=
        matchAt_extend hProper hDelimiter tail (prev, d :: rest)
      rw [List.cons_append, Nat.add_right_comm fuel 1 tail.length]
      cases hHere : matchAt r (prev, d :: rest) with
      | none =>
        rw [hHere] at hMatch
        rw [splitFrom_of_none hMatch, splitFrom_of_none hHere,
          ih (some d) (Nat.le_of_succ_le_succ hFuel)]
        rfl
      | some place' =>
        rw [hHere] at hMatch
        have hShorter := length_lt_of_matchAt hHere
        rw [List.length_cons] at hShorter
        have hTake : (d :: (rest ++ c :: tail)).take
            ((d :: (rest ++ c :: tail)).length - (extend (c :: tail) place').2.length) =
            (d :: rest).take ((d :: rest).length - place'.2.length) := by
          have hCount : (d :: (rest ++ c :: tail)).length -
              (extend (c :: tail) place').2.length = (d :: rest).length - place'.2.length := by
            simp [extend]
            omega
          rw [hCount, ← List.cons_append, List.take_append_of_le_length (Nat.sub_le _ _)]
        have hRest : splitFrom r (fuel + tail.length + 1) (extend (c :: tail) place') = _ :=
          ih place'.1 (by omega)
        rw [splitFrom_of_some hMatch, splitFrom_of_some hHere, hTake, hRest]
        rfl

/-! ## What stands behind a delimiter -/

/-- The look-behind of the pattern does not tell related characters apart. -/
def Ignores (R : Option Char → Option Char → Prop) : Regex → Prop
  | .behind p => ∀ prev prev', R prev prev' → p prev = p prev'
  | .seq r s => Ignores R r ∧ Ignores R s
  | .alt r s => Ignores R r ∧ Ignores R s
  | .star r => Ignores R r
  | _ => True

/-- The places have the same text, and the same character or related ones before it. -/
def Alike (R : Option Char → Option Char → Prop) (place place' : Place) : Prop :=
  place.2 = place'.2 ∧ (place.1 = place'.1 ∨ R place.1 place'.1)

variable {R : Option Char → Option Char → Prop}

theorem forall₂_flatMap {α β γ δ : Type} {R : α → β → Prop} {S : γ → δ → Prop} {f : α → List γ}
    {g : β → List δ} {xs : List α} {ys : List β} (h : List.Forall₂ R xs ys)
    (hStep : ∀ x y, R x y → List.Forall₂ S (f x) (g y)) :
    List.Forall₂ S (xs.flatMap f) (ys.flatMap g) := by
  induction h with
  | nil => exact .nil
  | cons hHead _ ih => exact List.rel_append (hStep _ _ hHead) ih

theorem run_alike (hIgnores : Ignores R r)
    (h : Alike R place place') : List.Forall₂ (Alike R) (run r place) (run r place') := by
  induction r generalizing place place' with
  | empty => exact .cons h .nil
  | char p =>
    unfold run
    rw [h.1]
    split
    · exact .nil
    · split
      · exact .cons ⟨rfl, Or.inl rfl⟩ .nil
      · exact .nil
  | behind p =>
    have hTest : p place.1 = p place'.1 := by
      rcases h.2 with hSame | hRelated
      · rw [hSame]
      · exact hIgnores _ _ hRelated
    unfold run
    rw [hTest]
    split
    · exact .cons h .nil
    · exact .nil
  | ahead p =>
    unfold run
    rw [h.1]
    split
    · exact .cons h .nil
    · exact .nil
  | seq r s ihr ihs =>
    exact forall₂_flatMap (ihr hIgnores.1 h) fun _ _ hMiddle => ihs hIgnores.2 hMiddle
  | alt r s ihr ihs => exact List.rel_append (ihr hIgnores.1 h) (ihs hIgnores.2 h)
  | star r ih =>
    show List.Forall₂ (Alike R) (starRun (run r) place.2.length place)
      (starRun (run r) place'.2.length place')
    rw [h.1]
    generalize place'.2.length = fuel
    induction fuel generalizing place place' with
    | zero => exact .cons h .nil
    | succ fuel ihFuel =>
      exact List.rel_append (forall₂_flatMap (ih hIgnores h) fun _ _ hNext => ihFuel hNext)
        (.cons h .nil)

theorem matchAt_alike (hIgnores : Ignores R r) (h : Alike R place place') :
    matchAt r place = none ∧ matchAt r place' = none ∨
      ∃ next next', matchAt r place = some next ∧ matchAt r place' = some next' ∧
        Alike R next next' := by
  have hRuns := run_alike hIgnores h
  unfold matchAt
  rw [h.1]
  generalize run r place = places at hRuns
  generalize run r place' = places' at hRuns
  cases hRuns with
  | nil => exact Or.inl ⟨rfl, rfl⟩
  | @cons next next' _ _ hNext _ =>
    rw [List.head?_cons, List.head?_cons, Option.filter_some, Option.filter_some, hNext.1]
    split
    · exact Or.inr ⟨next, next', rfl, rfl, hNext⟩
    · exact Or.inl ⟨rfl, rfl⟩

theorem splitFrom_alike (hIgnores : Ignores R r) (fuel : Nat)
    (h : Alike R place place') : splitFrom r fuel place = splitFrom r fuel place' := by
  induction fuel generalizing place place' with
  | zero => exact congrArg (List.map Piece.text) h.1
  | succ fuel ih =>
    obtain ⟨prev, text⟩ := place
    obtain ⟨prev', text'⟩ := place'
    obtain ⟨rfl : text = text', -⟩ := id h
    cases text with
    | nil => rfl
    | cons d rest =>
      rcases matchAt_alike hIgnores h with ⟨hNone, hNone'⟩ | ⟨next, next', hSome, hSome', hNext⟩
      · rw [splitFrom_of_none hNone, splitFrom_of_none hNone']
      · rw [splitFrom_of_some hSome, splitFrom_of_some hSome', hNext.1, ih hNext]

/-- The look-behind takes a delimiter for the start of the text. -/
theorem Delimiter.ignores (h : Delimiter c r) :
    Ignores (fun prev prev' => prev = some c ∧ prev' = none) r := by
  induction r with
  | behind p =>
    rintro prev prev' ⟨rfl, rfl⟩
    exact h
  | seq r s ihr ihs => exact ⟨ihr h.1, ihs h.2⟩
  | alt r s ihr ihs => exact ⟨ihr h.1, ihs h.2⟩
  | star r ih => exact ih h
  | _ => trivial

/-- A delimiter cuts a text in two that are split on their own. -/
theorem split_append (hProper : Proper r) (hDelimiter : Delimiter c r) (text tail : List Char) :
    split r (text ++ c :: tail) = split r text ++ .text c :: split r tail := by
  have hAppend := splitFrom_append hProper hDelimiter none tail (Nat.le_refl text.length)
  have hTail : splitFrom r tail.length (some c, tail) = splitFrom r tail.length (none, tail) :=
    splitFrom_alike hDelimiter.ignores tail.length ⟨rfl, Or.inr ⟨rfl, rfl⟩⟩
  rw [hTail] at hAppend
  unfold split
  rw [List.length_append, List.length_cons, ← Nat.add_assoc, hAppend]

/-! ## Texts without a match -/

def Never (r : Regex) (text : List Char) : Prop :=
  ∀ s, Piece.hit s ∉ split r text

theorem never_append {r : Regex} (hProper : Proper r) {c : Char} (hDelimiter : Delimiter c r)
    {text tail : List Char} : Never r (text ++ c :: tail) ↔ Never r text ∧ Never r tail := by
  unfold Never
  rw [split_append hProper hDelimiter, ← forall_and]
  refine forall_congr' fun s => ?_
  simp [not_or]

theorem never_nil (r : Regex) : Never r [] :=
  fun _ h => absurd h List.not_mem_nil

/-- A pattern that does not look behind. -/
abbrev Blind (r : Regex) : Prop :=
  Ignores (fun _ _ => True) r

theorem matchAt_blind (hBlind : Blind r) (prev prev' : Option Char)
    : matchAt r (prev, text) = none ↔ matchAt r (prev', text) = none := by
  have hAlike : Alike (fun _ _ => True) (prev, text) (prev', text) := ⟨rfl, Or.inr trivial⟩
  rcases matchAt_alike hBlind hAlike with ⟨hNone, hNone'⟩ | ⟨next, next', hSome, hSome', -⟩
  · exact iff_of_true hNone hNone'
  · rw [hSome, hSome']
    exact iff_of_false (Option.some_ne_none _) (Option.some_ne_none _)

theorem split_of_none (hBlind : Blind r) (h : matchAt r (none, c :: rest) = none) :
    split r (c :: rest) = .text c :: split r rest := by
  have hRest : splitFrom r rest.length (some c, rest) = split r rest :=
    splitFrom_alike hBlind rest.length ⟨rfl, Or.inr trivial⟩
  rw [split, List.length_cons, splitFrom_of_none h, hRest]

theorem split_of_some (hBlind : Blind r) (h : matchAt r (none, c :: rest) = some place') :
    split r (c :: rest) = .hit ((c :: rest).take ((c :: rest).length - place'.2.length)) ::
      split r place'.2 := by
  have hShorter := length_lt_of_matchAt h
  have hRest : splitFrom r rest.length place' = split r place'.2 := by
    have hAlike : Alike (fun _ _ => True) place' (none, place'.2) := ⟨rfl, Or.inr trivial⟩
    rw [splitFrom_alike hBlind rest.length hAlike]
    exact splitFrom_fuel r none (Nat.le_of_lt_succ hShorter) (Nat.le_refl _)
  show splitFrom r (rest.length + 1) (none, c :: rest) = _
  rw [splitFrom_of_some h, hRest]

theorem never_cons (hBlind : Blind r) :
    Never r (c :: rest) ↔ matchAt r (none, c :: rest) = none ∧ Never r rest := by
  unfold Never
  cases hMatch : matchAt r (none, c :: rest) with
  | none =>
    rw [split_of_none hBlind hMatch, and_iff_right rfl]
    refine forall_congr' fun s => ?_
    simp
  | some place =>
    rw [split_of_some hBlind hMatch]
    refine iff_of_false (fun h => h _ List.mem_cons_self) fun h => ?_
    cases h.1

/-- A pattern without a match at any place of a text. -/
theorem never_iff (hBlind : Blind r) :
    Never r text ↔ ∀ tail, tail <:+ text → matchAt r (none, tail) = none := by
  have hNil : matchAt r (none, []) = none := by
    cases hMatch : matchAt r (none, []) with
    | none => rfl
    | some place => cases length_lt_of_matchAt hMatch
  induction text with
  | nil =>
    refine iff_of_true (never_nil r) fun tail hTail => ?_
    rw [List.suffix_nil.mp hTail, hNil]
  | cons c rest ih =>
    refine (never_cons hBlind).trans ⟨?_, fun hAll => ⟨hAll _ (List.suffix_refl _), ?_⟩⟩
    · rintro ⟨hHere, hRest⟩ tail hTail
      rcases List.suffix_cons_iff.mp hTail with rfl | hTail
      · exact hHere
      · exact ih.mp hRest tail hTail
    · exact ih.mpr fun tail hTail => hAll tail (hTail.trans (List.suffix_cons c rest))

end LosslessHermes.Regex
