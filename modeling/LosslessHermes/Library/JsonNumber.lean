import Mathlib.Data.List.TakeWhile

/-!
# Number literals of JSON

The scanner of a number literal and the texts it accepts. `scanNumber_append`
says that a literal is read the same way whatever ends it, and
`scanNumber_intText` that the decimal text of an integer is read back.
-/

namespace LosslessHermes.JsonText

/-! ## The scanner -/

/-- The optional fraction of a number literal, and what follows it. -/
def scanFraction : List Char → List Char × List Char
  | [] => ([], [])
  | c :: s =>
      if c = '.' ∧ s.takeWhile Char.isDigit ≠ [] then
        (c :: s.takeWhile Char.isDigit, s.dropWhile Char.isDigit)
      else ([], c :: s)

/-- The optional sign of an exponent. -/
def scanSign : List Char → List Char × List Char
  | [] => ([], [])
  | c :: s => if c = '+' ∨ c = '-' then ([c], s) else ([], c :: s)

/-- The optional exponent of a number literal, and what follows it. -/
def scanExponent : List Char → List Char × List Char
  | [] => ([], [])
  | c :: s =>
      let digits := (scanSign s).2.takeWhile Char.isDigit
      if (c = 'e' ∨ c = 'E') ∧ digits ≠ [] then
        (c :: (scanSign s).1 ++ digits, (scanSign s).2.dropWhile Char.isDigit)
      else ([], c :: s)

/-- The integer part: a lone zero, or digits that do not start with one. -/
def scanWhole : List Char → Option (List Char × List Char)
  | [] => none
  | c :: s =>
      if c = '0' then some ([c], s)
      else if c.isDigit then some (c :: s.takeWhile Char.isDigit, s.dropWhile Char.isDigit)
      else none

/-- The optional minus sign of a number literal. -/
def scanMinus : List Char → List Char × List Char
  | [] => ([], [])
  | c :: s => if c = '-' then ([c], s) else ([], c :: s)

/-- The parts of a number literal. -/
structure NumberToken where
  minus : List Char
  whole : List Char
  fraction : List Char
  exponent : List Char
  deriving DecidableEq, Repr

def NumberToken.isFloat (t : NumberToken) : Bool :=
  !(t.fraction.isEmpty && t.exponent.isEmpty)

def NumberToken.text (t : NumberToken) : List Char :=
  t.minus ++ t.whole ++ t.fraction ++ t.exponent

def NumberToken.toInt (t : NumberToken) : Int :=
  if t.minus = [] then (Nat.ofDigitChars 10 t.whole 0 : Int)
  else -(Nat.ofDigitChars 10 t.whole 0 : Int)

def scanNumber (s : List Char) : Option (NumberToken × List Char) :=
  (scanWhole (scanMinus s).2).map fun p =>
    let fraction := scanFraction p.2
    let exponent := scanExponent fraction.2
    (⟨(scanMinus s).1, p.1, fraction.1, exponent.1⟩, exponent.2)

/-- The words that stand for floats without a literal. -/
def floatWords : List (List Char) := ["NaN".toList, "Infinity".toList, "-Infinity".toList]

def isFloatText (s : List Char) : Bool :=
  match scanNumber s with
  | some (t, rest) => t.isFloat && t.text == s && rest.isEmpty
  | none => floatWords.contains s

/-! ## What ends a literal -/

/-- What may follow a value inside an array, an object or at the end. -/
def Ends (rest : List Char) : Prop :=
  ∀ c, rest.head? = some c → c = ',' ∨ c = ']' ∨ c = '\x7d'

theorem ends_nil : Ends [] := by
  intro c h
  simp at h

variable {rest : List Char}

theorem ends_cons {c : Char} (h : c = ',' ∨ c = ']' ∨ c = '\x7d') : Ends (c :: rest) := by
  intro d hd
  simp only [List.head?_cons, Option.some.injEq] at hd
  exact hd ▸ h

theorem takeWhile_append_of_head {p : Char → Bool}
    (h : ∀ c, rest.head? = some c → p c = false) (s : List Char) :
    (s ++ rest).takeWhile p = s.takeWhile p ∧ (s ++ rest).dropWhile p = s.dropWhile p ++ rest := by
  induction s with
  | nil =>
    cases rest with
    | nil => simp
    | cons c rest =>
      have hc := h c rfl
      simp [hc]
  | cons c s ih =>
    cases hc : p c with
    | true => simpa [hc] using ih
    | false => simp [hc]

theorem Ends.not_digit (h : Ends rest) :
    ∀ c, rest.head? = some c → c.isDigit = false := by
  intro c hc
  rcases h c hc with rfl | rfl | rfl <;> rfl

theorem digits_append (h : Ends rest) (s : List Char) :
    (s ++ rest).takeWhile Char.isDigit = s.takeWhile Char.isDigit ∧
      (s ++ rest).dropWhile Char.isDigit = s.dropWhile Char.isDigit ++ rest :=
  takeWhile_append_of_head h.not_digit s

theorem scanFraction_append (h : Ends rest) (s : List Char) :
    scanFraction (s ++ rest) = ((scanFraction s).1, (scanFraction s).2 ++ rest) := by
  cases s with
  | nil =>
    cases rest with
    | nil => rfl
    | cons c rest =>
      have hc : c ≠ '.' := by rcases h c rfl with rfl | rfl | rfl <;> decide
      simp [scanFraction, hc]
  | cons c s =>
    obtain ⟨hTake, hDrop⟩ := digits_append h s
    simp only [List.cons_append, scanFraction, hTake, hDrop]
    split <;> rfl

theorem scanSign_append (h : Ends rest) (s : List Char) :
    scanSign (s ++ rest) = ((scanSign s).1, (scanSign s).2 ++ rest) := by
  cases s with
  | nil =>
    cases rest with
    | nil => rfl
    | cons c rest =>
      have hc : ¬ (c = '+' ∨ c = '-') := by rcases h c rfl with rfl | rfl | rfl <;> decide
      simp [scanSign, hc]
  | cons c s =>
    simp only [List.cons_append, scanSign]
    split <;> rfl

theorem scanExponent_append (h : Ends rest) (s : List Char) :
    scanExponent (s ++ rest) = ((scanExponent s).1, (scanExponent s).2 ++ rest) := by
  cases s with
  | nil =>
    cases rest with
    | nil => rfl
    | cons c rest =>
      have hc : ¬ (c = 'e' ∨ c = 'E') := by rcases h c rfl with rfl | rfl | rfl <;> decide
      simp [scanExponent, hc]
  | cons c s =>
    simp only [List.cons_append, scanExponent, scanSign_append h,
      (digits_append h _).1, (digits_append h _).2]
    split <;> rfl

theorem scanWhole_append (h : Ends rest) (s : List Char) :
    scanWhole (s ++ rest) = (scanWhole s).map fun p => (p.1, p.2 ++ rest) := by
  cases s with
  | nil =>
    cases rest with
    | nil => rfl
    | cons c rest =>
      have hZero : c ≠ '0' := by rcases h c rfl with rfl | rfl | rfl <;> decide
      simp [scanWhole, hZero, h.not_digit c rfl]
  | cons c s =>
    simp only [List.cons_append, scanWhole, (digits_append h _).1, (digits_append h _).2]
    split
    · rfl
    · split <;> rfl

theorem scanMinus_append (h : Ends rest) (s : List Char) :
    scanMinus (s ++ rest) = ((scanMinus s).1, (scanMinus s).2 ++ rest) := by
  cases s with
  | nil =>
    cases rest with
    | nil => rfl
    | cons c rest =>
      have hc : c ≠ '-' := by rcases h c rfl with rfl | rfl | rfl <;> decide
      simp [scanMinus, hc]
  | cons c s =>
    simp only [List.cons_append, scanMinus]
    split <;> rfl

/-- What ends a value does not change how the literal before it is read. -/
theorem scanNumber_append (h : Ends rest) (s : List Char) :
    scanNumber (s ++ rest) = (scanNumber s).map fun p => (p.1, p.2 ++ rest) := by
  simp only [scanNumber, scanMinus_append h, scanWhole_append h, Option.map_map]
  refine congrArg (fun f => Option.map f _) (funext fun p => ?_)
  simp only [Function.comp, scanFraction_append h, scanExponent_append h]

/-! ## Integers -/

/-- `int.__repr__`. -/
def intText : Int → List Char
  | .ofNat n => Nat.toDigits 10 n
  | .negSucc n => '-' :: Nat.toDigits 10 (n + 1)

theorem toDigits_head (n : Nat) (hn : 0 < n) :
    ∃ c s, Nat.toDigits 10 n = c :: s ∧ c ≠ '0' := by
  induction n using Nat.strongRecOn with
  | ind n ih =>
    by_cases h : n < 10
    · refine ⟨n.digitChar, [], Nat.toDigits_of_lt_base h, ?_⟩
      have hDigit : ∀ d : Fin 10, 0 < d.val → d.val.digitChar ≠ '0' := by decide
      exact hDigit ⟨n, h⟩ hn
    · have hDiv : 0 < n / 10 := Nat.div_pos (by omega) (by omega)
      obtain ⟨c, s, hHead, hc⟩ := ih (n / 10) (by omega) hDiv
      refine ⟨c, s ++ Nat.toDigits 10 (n % 10), ?_, hc⟩
      rw [← List.cons_append, ← hHead,
        Nat.toDigits_append_toDigits (by omega) hDiv (Nat.mod_lt _ (by omega))]
      congr 1
      omega

theorem toDigits_all (n : Nat) : ∀ c ∈ Nat.toDigits 10 n, c.isDigit = true :=
  fun _ hc => Nat.isDigit_of_mem_toDigits (by omega) (by omega) hc

theorem scanWhole_toDigits (h : Ends rest) (n : Nat) :
    scanWhole (Nat.toDigits 10 n ++ rest) = some (Nat.toDigits 10 n, rest) := by
  rw [scanWhole_append h]
  rcases Nat.eq_zero_or_pos n with rfl | hn
  · rfl
  · obtain ⟨c, s, hText, hc⟩ := toDigits_head n hn
    have hAll := toDigits_all n
    rw [hText] at hAll ⊢
    have hDigits : ∀ d ∈ s, d.isDigit = true := fun d hd => hAll d (List.mem_cons_of_mem _ hd)
    simp [scanWhole, hc, hAll c List.mem_cons_self, List.takeWhile_eq_self_iff.mpr hDigits,
      List.dropWhile_eq_nil_iff.mpr hDigits]

theorem scanFraction_ends (h : Ends rest) : scanFraction rest = ([], rest) := by
  simpa [scanFraction] using scanFraction_append h []

theorem scanExponent_ends (h : Ends rest) : scanExponent rest = ([], rest) := by
  simpa [scanExponent] using scanExponent_append h []

theorem scanNumber_intText (h : Ends rest) (n : Int) :
    ∃ t, scanNumber (intText n ++ rest) = some (t, rest) ∧ t.isFloat = false ∧ t.toInt = n := by
  cases n with
  | ofNat n =>
    have hMinus : scanMinus (Nat.toDigits 10 n ++ rest) = ([], Nat.toDigits 10 n ++ rest) := by
      cases hText : Nat.toDigits 10 n with
      | nil => exact absurd hText Nat.toDigits_ne_nil
      | cons c s =>
        have hc : c ≠ '-' := by
          rintro rfl
          have := toDigits_all n '-' (by rw [hText]; exact List.mem_cons_self)
          exact absurd this (by decide)
        simp [scanMinus, hc]
    refine ⟨⟨[], Nat.toDigits 10 n, [], []⟩, ?_, rfl, ?_⟩
    · simp only [intText, scanNumber, hMinus, scanWhole_toDigits h, Option.map_some,
        scanFraction_ends h, scanExponent_ends h]
    · simp [NumberToken.toInt]
  | negSucc n =>
    refine ⟨⟨['-'], Nat.toDigits 10 (n + 1), [], []⟩, ?_, rfl, ?_⟩
    · simp [intText, scanNumber, scanMinus, scanWhole_toDigits h, scanFraction_ends h,
        scanExponent_ends h]
    · simp [NumberToken.toInt, Int.negSucc_eq]

end LosslessHermes.JsonText
