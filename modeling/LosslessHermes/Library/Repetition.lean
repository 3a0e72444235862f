import LosslessHermes.Library.Delimiter
import Mathlib.Data.List.TakeWhile

/-!
# Repetition in patterns

How many characters a pattern consumes (`Consumes`), which patterns keep their matches when the
text goes on (`Extends`), and what a greedy class takes: the runs that the characters outside it
separate (`hits_class`).
-/

namespace LosslessHermes.Regex

variable {r s : Regex} {m n : Nat} {c : Char}

/-! ## Patterns that consume -/

/-- Every match of the pattern covers `n` characters at least. -/
def Consumes (n : Nat) (r : Regex) : Prop :=
  ∀ place, ∀ place' ∈ run r place, place'.2.length + n ≤ place.2.length

theorem consumes_zero (r : Regex) : Consumes 0 r :=
  fun _ _ hRun => (run_suffix r hRun).length_le

theorem consumes_char (p : Char → Bool) : Consumes 1 (.char p) := by
  intro place place' hRun
  obtain ⟨prev, text⟩ := place
  cases text with
  | nil => exact absurd hRun List.not_mem_nil
  | cons d rest =>
    simp only [run] at hRun
    split at hRun
    · rw [List.mem_singleton.mp hRun]
      exact Nat.le_refl _
    · exact absurd hRun List.not_mem_nil

theorem Consumes.seq (hr : Consumes m r) (hs : Consumes n s) : Consumes (m + n) (.seq r s) := by
  intro place place' hRun
  obtain ⟨middle, hMiddle, hRun⟩ := List.mem_flatMap.mp hRun
  have hFirst := hr place middle hMiddle
  have hSecond := hs middle place' hRun
  omega

theorem Consumes.alt (hr : Consumes n r) (hs : Consumes n s) : Consumes n (.alt r s) := by
  intro place place' hRun
  rcases List.mem_append.mp hRun with hRun | hRun
  · exact hr place place' hRun
  · exact hs place place' hRun

theorem Consumes.mono (h : Consumes n r) (hLe : m ≤ n) : Consumes m r := by
  intro place place' hRun
  have hLength := h place place' hRun
  omega

theorem consumes_literal (fold : Char → Char) (cs : List Char) :
    Consumes cs.length (literal fold cs) := by
  induction cs with
  | nil => exact consumes_zero _
  | cons d cs ih => exact ((consumes_char _).seq ih).mono (Nat.le_of_eq (Nat.add_comm cs.length 1))

theorem Consumes.atLeast (h : Consumes 1 r) (n : Nat) : Consumes n (atLeast r n) := by
  induction n with
  | zero => exact consumes_zero _
  | succ n ih => exact (h.seq ih).mono (Nat.le_of_eq (Nat.add_comm n 1))

variable {place : Place}

theorem matchAt_eq_none_iff (h : Consumes 1 r) :
    matchAt r place = none ↔ run r place = [] := by
  unfold matchAt
  cases hRun : run r place with
  | nil => simp
  | cons place' places =>
    have hShorter : place'.2.length < place.2.length := h place place' (hRun ▸ List.mem_cons_self)
    simp [hShorter]

theorem le_length_of_mem_splitFrom (h : Consumes n r) {fuel : Nat}
    {hit : List Char} (hMem : Piece.hit hit ∈ splitFrom r fuel place) : n ≤ hit.length := by
  induction fuel generalizing place with
  | zero => simp [splitFrom] at hMem
  | succ fuel ih =>
    obtain ⟨prev, text⟩ := place
    cases text with
    | nil => exact absurd hMem List.not_mem_nil
    | cons d rest =>
      cases hMatch : matchAt r (prev, d :: rest) with
      | none =>
        rw [splitFrom_of_none hMatch] at hMem
        rcases List.mem_cons.mp hMem with hMem | hMem
        · cases hMem
        · exact ih hMem
      | some place' =>
        rw [splitFrom_of_some hMatch] at hMem
        rcases List.mem_cons.mp hMem with hMem | hMem
        · have hRun : place' ∈ run r (prev, d :: rest) :=
            List.mem_of_head? (Option.filter_eq_some_iff.mp hMatch).1
          have hLength := h _ _ hRun
          have hShorter := length_lt_of_matchAt hMatch
          dsimp only at hLength
          rw [Piece.hit.inj hMem, List.length_take]
          omega
        · exact ih hMem

variable {text : List Char}

theorem length_le_of_mem_split {hit : List Char} (hMem : Piece.hit hit ∈ split r text) :
    hit.length ≤ text.length := by
  obtain ⟨before, after, hSplit⟩ := List.append_of_mem hMem
  have hText := flatten_split r text
  rw [hSplit, List.flatMap_append, List.flatMap_cons] at hText
  have hLength := congrArg List.length hText
  simp only [List.length_append, Piece.chars] at hLength
  omega

/-- A text that is too short has no match. -/
theorem never_of_length_lt (h : Consumes n r) (hShort : text.length < n) :
    Never r text := by
  intro hit hMem
  have hLong := le_length_of_mem_splitFrom h hMem
  have hInside := length_le_of_mem_split hMem
  omega

/-! ## Literals and bounded repetition -/

theorem proper_literal (fold : Char → Char) (cs : List Char) : Proper (literal fold cs) := by
  induction cs with
  | nil => trivial
  | cons d cs ih => exact ⟨trivial, ih⟩

theorem proper_star (h : Consumes 1 r) (hProper : Proper r) : Proper (.star r) :=
  ⟨hProper, fun place place' hRun => h place place' hRun⟩

theorem proper_atLeast (h : Consumes 1 r) (hProper : Proper r) (n : Nat) :
    Proper (atLeast r n) := by
  induction n with
  | zero => exact proper_star h hProper
  | succ n ih => exact ⟨hProper, ih⟩

theorem delimiter_literal {fold : Char → Char} {cs : List Char} (h : fold c ∉ cs) :
    Delimiter c (literal fold cs) := by
  induction cs with
  | nil => trivial
  | cons d cs ih =>
    rw [List.mem_cons, not_or] at h
    exact ⟨decide_eq_false h.1, ih h.2⟩

theorem delimiter_atLeast (h : Delimiter c r) (n : Nat) : Delimiter c (atLeast r n) := by
  induction n with
  | zero => exact h
  | succ n ih => exact ⟨h, ih⟩

theorem blind_literal (fold : Char → Char) (cs : List Char) : Blind (literal fold cs) := by
  induction cs with
  | nil => trivial
  | cons d cs ih => exact ⟨trivial, ih⟩

theorem blind_atLeast (h : Blind r) (n : Nat) : Blind (atLeast r n) := by
  induction n with
  | zero => exact h
  | succ n ih => exact ⟨h, ih⟩

/-! ## Matches in a text that goes on -/

/-- The pattern does not look ahead. -/
def Forward : Regex → Prop
  | .ahead _ => False
  | .seq r s => Forward r ∧ Forward s
  | .alt r s => Forward r ∧ Forward s
  | .star r => Forward r
  | _ => True

theorem forward_literal (fold : Char → Char) (cs : List Char) : Forward (literal fold cs) := by
  induction cs with
  | nil => trivial
  | cons d cs ih => exact ⟨trivial, ih⟩

theorem forward_atLeast (h : Forward r) (n : Nat) : Forward (atLeast r n) := by
  induction n with
  | zero => exact h
  | succ n ih => exact ⟨h, ih⟩

theorem mem_starRun_self (step : Place → List Place) (fuel : Nat) (place : Place) :
    place ∈ starRun step fuel place := by
  cases fuel with
  | zero => exact List.mem_singleton.mpr rfl
  | succ fuel => exact List.mem_append_right _ (List.mem_singleton.mpr rfl)

theorem mem_starRun_extend {step : Place → List Place} {tail : List Char}
    (h : ∀ place, ∀ place' ∈ step place, extend tail place' ∈ step (extend tail place))
    {fuel fuel' : Nat} {place place' : Place} (hMem : place' ∈ starRun step fuel place)
    (hFuel : fuel ≤ fuel') : extend tail place' ∈ starRun step fuel' (extend tail place) := by
  induction fuel generalizing place fuel' with
  | zero =>
    rw [List.mem_singleton.mp hMem]
    exact mem_starRun_self step fuel' _
  | succ fuel ih =>
    cases fuel' with
    | zero => cases hFuel
    | succ fuel' =>
      rcases List.mem_append.mp hMem with hMem | hMem
      · obtain ⟨middle, hMiddle, hMem⟩ := List.mem_flatMap.mp hMem
        exact List.mem_append_left _ (List.mem_flatMap.mpr
          ⟨_, h place middle hMiddle, ih hMem (Nat.le_of_succ_le_succ hFuel)⟩)
      · rw [List.mem_singleton.mp hMem]
        exact mem_starRun_self step _ _

variable {place' : Place}

theorem run_forward {r : Regex} (hForward : Forward r) (tail : List Char)
    (hRun : place' ∈ run r place) : extend tail place' ∈ run r (extend tail place) := by
  induction r generalizing place place' with
  | empty =>
    rw [List.mem_singleton.mp hRun]
    exact List.mem_singleton.mpr rfl
  | char p =>
    obtain ⟨prev, text⟩ := place
    cases text with
    | nil => exact absurd hRun List.not_mem_nil
    | cons d rest =>
      simp only [run] at hRun
      simp only [run, extend, List.cons_append]
      split at hRun
      · rename_i hTest
        rw [List.mem_singleton.mp hRun, if_pos hTest]
        exact List.mem_singleton.mpr rfl
      · exact absurd hRun List.not_mem_nil
  | behind p =>
    simp only [run] at hRun
    split at hRun
    · rename_i hTest
      rw [List.mem_singleton.mp hRun]
      simp [run, extend, hTest]
    · exact absurd hRun List.not_mem_nil
  | ahead p => exact hForward.elim
  | seq r s ihr ihs =>
    obtain ⟨middle, hMiddle, hRun⟩ := List.mem_flatMap.mp hRun
    exact List.mem_flatMap.mpr ⟨_, ihr hForward.1 hMiddle, ihs hForward.2 hRun⟩
  | alt r s ihr ihs =>
    rcases List.mem_append.mp hRun with hRun | hRun
    · exact List.mem_append_left _ (ihr hForward.1 hRun)
    · exact List.mem_append_right _ (ihs hForward.2 hRun)
  | star r ih =>
    refine mem_starRun_extend (fun place place' hStep => ih hForward hStep) hRun ?_
    simp [extend]

variable {middle : Place}

theorem mem_starRun_trans {step : Place → List Place} {fuel fuel' : Nat}
    (hMiddle : middle ∈ starRun step fuel place) (hMem : place' ∈ starRun step fuel' middle) :
    place' ∈ starRun step (fuel + fuel') place := by
  induction fuel generalizing place with
  | zero =>
    rw [List.mem_singleton.mp hMiddle] at hMem
    rwa [Nat.zero_add]
  | succ fuel ih =>
    rw [Nat.succ_add]
    rcases List.mem_append.mp hMiddle with hMiddle | hMiddle
    · obtain ⟨next, hNext, hMiddle⟩ := List.mem_flatMap.mp hMiddle
      exact List.mem_append_left _ (List.mem_flatMap.mpr ⟨next, hNext, ih hMiddle⟩)
    · rw [List.mem_singleton.mp hMiddle] at hMem
      cases fuel' with
      | zero =>
        rw [List.mem_singleton.mp hMem]
        exact mem_starRun_self step _ place
      | succ fuel' =>
        rcases List.mem_append.mp hMem with hMem | hMem
        · obtain ⟨next, hNext, hMem⟩ := List.mem_flatMap.mp hMem
          have hMore : place' ∈ starRun step (fuel + (fuel' + 1)) next := by
            have hId := @mem_starRun_extend step [] (fun place place' hStep => by
              simpa [extend] using hStep) fuel' (fuel + (fuel' + 1)) next place' hMem (by omega)
            simpa [extend] using hId
          exact List.mem_append_left _ (List.mem_flatMap.mpr ⟨next, hNext, hMore⟩)
        · exact List.mem_append_right _ hMem

/-- A repetition goes on from where it could have ended. -/
theorem mem_run_star_trans (h : Consumes 1 r)
    (hMiddle : middle ∈ run (.star r) place) (hMem : place' ∈ run (.star r) middle) :
    place' ∈ run (.star r) place := by
  have hTrans := mem_starRun_trans hMiddle hMem
  have hFuel : starRun (run r) (place.2.length + middle.2.length) place =
      starRun (run r) place.2.length place :=
    starRun_fuel (fun place place' hStep => h place place' hStep) (Nat.le_add_right _ _)
      (Nat.le_refl _)
  rwa [hFuel] at hTrans

theorem mem_run_atLeast_trans (h : Consumes 1 r) {n : Nat}
    (hMiddle : middle ∈ run (atLeast r n) place) (hMem : place' ∈ run (.star r) middle) :
    place' ∈ run (atLeast r n) place := by
  induction n generalizing place with
  | zero => exact mem_run_star_trans h hMiddle hMem
  | succ n ih =>
    obtain ⟨next, hNext, hMiddle⟩ := List.mem_flatMap.mp hMiddle
    exact List.mem_flatMap.mpr ⟨next, hNext, ih hMiddle⟩

/-- A repetition reaches a place where it cannot go on. -/
theorem exists_mem_run_star {p : Option Char → Bool} (h : Consumes 1 r)
    (hStep : ∀ place : Place, p place.2.head? = true ∨ run r place ≠ []) (place : Place) :
    ∃ place' ∈ run (.star r) place, p place'.2.head? = true := by
  induction hLength : place.2.length using Nat.strongRecOn generalizing place with
  | ind length ih =>
    rcases hStep place with hStop | hGo
    · exact ⟨place, mem_starRun_self _ _ place, hStop⟩
    · obtain ⟨next, hNext⟩ := List.exists_mem_of_ne_nil _ hGo
      have hShorter := h place next hNext
      obtain ⟨place', hMem, hStop⟩ := ih next.2.length (by omega) next rfl
      have hOnce : next ∈ run (.star r) place := by
        show next ∈ starRun (run r) place.2.length place
        obtain ⟨fuel, hFuel⟩ : ∃ fuel, place.2.length = fuel + 1 :=
          Nat.exists_eq_succ_of_ne_zero (by omega)
        rw [hFuel]
        exact List.mem_append_left _
          (List.mem_flatMap.mpr ⟨next, hNext, mem_starRun_self _ fuel next⟩)
      exact ⟨place', mem_run_star_trans h hOnce hMem, hStop⟩

/-- Where the pattern matches, it also matches if the text goes on. -/
def Extends (r : Regex) : Prop :=
  ∀ tail place, run r place ≠ [] → run r (extend tail place) ≠ []

theorem Extends.seq (hForward : Forward r) (hExtends : Extends s) : Extends (.seq r s) := by
  intro tail place hRun
  obtain ⟨place', hMem⟩ := List.exists_mem_of_ne_nil _ hRun
  obtain ⟨middle, hMiddle, hMem⟩ := List.mem_flatMap.mp hMem
  obtain ⟨place'', hMore⟩ :=
    List.exists_mem_of_ne_nil _ (hExtends tail middle (List.ne_nil_of_mem hMem))
  exact List.ne_nil_of_mem (List.mem_flatMap.mpr ⟨_, run_forward hForward tail hMiddle, hMore⟩)

/-- A repetition up to what it does not take. -/
theorem extends_atLeast {p : Option Char → Bool} (hForward : Forward r) (h : Consumes 1 r)
    (hStep : ∀ place : Place, p place.2.head? = true ∨ run r place ≠ []) (n : Nat) :
    Extends (.seq (atLeast r n) (.ahead p)) := by
  intro tail place hRun
  obtain ⟨place', hMem⟩ := List.exists_mem_of_ne_nil _ hRun
  obtain ⟨middle, hMiddle, -⟩ := List.mem_flatMap.mp hMem
  have hGo : extend tail middle ∈ run (atLeast r n) (extend tail place) :=
    run_forward (forward_atLeast hForward n) tail hMiddle
  obtain ⟨stop, hStop, hAhead⟩ := exists_mem_run_star h hStep (extend tail middle)
  have hEnd : stop ∈ run (.ahead p) stop := by simp [run, hAhead]
  exact List.ne_nil_of_mem
    (List.mem_flatMap.mpr ⟨stop, mem_run_atLeast_trans h hGo hStop, hEnd⟩)

theorem Extends.matchAt_eq_none (hExtends : Extends r) (h : Consumes 1 r) {prev : Option Char}
    {tail : List Char} (hNone : matchAt r (prev, text ++ tail) = none) :
    matchAt r (prev, text) = none := by
  rw [matchAt_eq_none_iff h] at hNone ⊢
  by_contra hRun
  exact hExtends tail (prev, text) hRun hNone

/-! ## Greedy repetition -/

/-- The pattern prefers to take the character. -/
def Takes (r : Regex) (d : Char) : Prop :=
  ∀ prev rest, ∃ places, run r (prev, d :: rest) = (some d, rest) :: places

theorem takes_char {p : Char → Bool} {d : Char} (h : p d = true) : Takes (.char p) d :=
  fun prev rest => ⟨[], by simp [run, h]⟩

theorem Takes.alt {d : Char} (h : Takes r d) (s : Regex) : Takes (.alt r s) d := by
  intro prev rest
  obtain ⟨places, hRun⟩ := h prev rest
  exact ⟨places ++ run s (prev, d :: rest), by simp only [run, hRun, List.cons_append]⟩

theorem run_seq_cons {places places' : List Place}
    (hr : run r place = middle :: places) (hs : run s middle = place' :: places') :
    run (.seq r s) place = place' :: (places' ++ places.flatMap (run s)) := by
  show (run r place).flatMap (run s) = _
  rw [hr, List.flatMap_cons, hs, List.cons_append]

theorem starRun_of_takes (h : ∀ d ∈ text, Takes r d) (prev : Option Char) :
    ∃ last places, run (.star r) (prev, text) = (last, []) :: places := by
  show ∃ last places, starRun (run r) text.length (prev, text) = (last, []) :: places
  induction text generalizing prev with
  | nil => exact ⟨prev, [], rfl⟩
  | cons d rest ih =>
    obtain ⟨hHead, hTail⟩ := List.forall_mem_cons.mp h
    obtain ⟨places, hStep⟩ := hHead prev rest
    obtain ⟨last, more, hRest⟩ := ih hTail (some d)
    refine ⟨last, more ++ places.flatMap (starRun (run r) rest.length) ++ [(prev, d :: rest)], ?_⟩
    simp only [List.length_cons, starRun, hStep, List.flatMap_cons, hRest, List.cons_append]

/-- The preferred match takes the whole text. -/
theorem run_atLeast_of_takes (h : ∀ d ∈ text, Takes r d) (prev : Option Char)
    {n : Nat} (hLong : n ≤ text.length) :
    ∃ last places, run (atLeast r n) (prev, text) = (last, []) :: places := by
  induction n generalizing prev text with
  | zero => exact starRun_of_takes h prev
  | succ n ih =>
    cases text with
    | nil => cases hLong
    | cons d rest =>
      obtain ⟨hHead, hTail⟩ := List.forall_mem_cons.mp h
      obtain ⟨places, hStep⟩ := hHead prev rest
      obtain ⟨last, more, hRest⟩ := ih hTail (some d) (Nat.le_of_succ_le_succ hLong)
      exact ⟨last, _, run_seq_cons hStep hRest⟩

/-! ## Runs of a class -/

variable {p : Char → Bool}

theorem blind_class (p : Char → Bool) : Blind (atLeast (.char p) 1) :=
  blind_atLeast (r := .char p) trivial 1

theorem delimiter_class (hc : p c = false) : Delimiter c (atLeast (.char p) 1) :=
  delimiter_atLeast (r := .char p) hc 1

/-- The preferred match of a repeated test ends where the test fails. -/
theorem run_class (h : ∀ d ∈ text, p d = true) (hNe : text ≠ []) (hc : p c = false)
    (prev : Option Char) (rest : List Char) :
    ∃ last places, run (atLeast (.char p) 1) (prev, text ++ c :: rest) =
      (last, c :: rest) :: places := by
  obtain ⟨last, places, hRun⟩ := run_atLeast_of_takes (fun d hd => takes_char (h d hd)) prev
    (List.length_pos_iff.mpr hNe)
  have hProper : Proper (atLeast (.char p) 1) := proper_atLeast (consumes_char p) trivial 1
  have hExtend := run_extend hProper (delimiter_class hc) rest (prev, text)
  rw [hRun, List.map_cons] at hExtend
  exact ⟨last, _, hExtend⟩

theorem split_class (h : ∀ d ∈ text, p d = true) (hNe : text ≠ []) :
    split (atLeast (.char p) 1) text = [.hit text] := by
  obtain ⟨last, places, hRun⟩ := run_atLeast_of_takes (fun d hd => takes_char (h d hd)) none
    (List.length_pos_iff.mpr hNe)
  obtain ⟨c, rest, rfl⟩ := List.exists_cons_of_ne_nil hNe
  have hMatch : matchAt (atLeast (.char p) 1) (none, c :: rest) = some (last, []) := by
    unfold matchAt
    rw [hRun, List.head?_cons, Option.filter_some]
    exact if_pos (decide_eq_true (Nat.zero_lt_succ _))
  rw [split_of_some (blind_class p) hMatch, List.length_nil, Nat.sub_zero, List.take_length]
  rfl

/-- The matches on both sides of a delimiter. -/
theorem hits_append (hProper : Proper r) (hDelimiter : Delimiter c r)
    (before tail : List Char) : hits r (String.ofList (before ++ c :: tail)) =
      hits r (String.ofList before) ++ hits r (String.ofList tail) := by
  unfold hits
  rw [String.toList_ofList, String.toList_ofList, String.toList_ofList,
    split_append hProper hDelimiter, List.filterMap_append]
  rfl

theorem hits_class_of_all (h : ∀ d ∈ text, p d = true) :
    hits (atLeast (.char p) 1) (String.ofList text) = [text].filter (· ≠ []) := by
  unfold hits
  rw [String.toList_ofList]
  by_cases hNe : text = []
  · rw [hNe]
    rfl
  · rw [split_class h hNe]
    simp [hNe]

/-- The runs of a class are what the other characters separate. -/
theorem hits_class (p : Char → Bool) (text : List Char) :
    hits (atLeast (.char p) 1) (String.ofList text) =
      (text.splitOnP fun c => !p c).filter (· ≠ []) := by
  induction hLength : text.length using Nat.strongRecOn generalizing text with
  | ind length ih =>
    have hRun : ∀ d ∈ text.takeWhile p, p d = true := fun d hd => List.mem_takeWhile_imp hd
    have hOutside : ∀ d ∈ text.takeWhile p, (!p d) = false := fun d hd => by
      rw [hRun d hd]
      rfl
    have hText := List.takeWhile_append_dropWhile (p := p) (l := text)
    cases hRest : text.dropWhile p with
    | nil =>
      rw [hRest, List.append_nil] at hText
      rw [← hText, hits_class_of_all hRun, List.splitOnP_eq_singleton hOutside]
    | cons c rest =>
      have hc : p c = false := by
        have hHead := List.head?_dropWhile_not p text
        simpa [hRest] using hHead
      rw [hRest] at hText
      have hShorter : rest.length < length := by
        have hSum := congrArg List.length hText
        rw [List.length_append, List.length_cons, hLength] at hSum
        omega
      rw [← hText, hits_append (proper_atLeast (consumes_char p) trivial 1)
          (delimiter_class hc), hits_class_of_all hRun, ih rest.length hShorter rest rfl,
        List.splitOnP_append_cons_of_forall_mem hOutside c (by rw [hc]; rfl),
        ← List.filter_append]
      rfl

end LosslessHermes.Regex
