import Mathlib.Data.List.Nodup
import LosslessHermes.Library.JsonNumber

/-!
# JSON values, their text and its parser

`dumps` is the one-line writer with `", "` and `": "` as separators and
without ASCII escaping; `loads` is the parser. A float is kept as its shortest
text, and `canonical` turns the text of a float literal into that form. An
object keeps its fields in insertion order, as a dictionary does.
-/

namespace LosslessHermes

/-- The text of a float, `NaN` and the infinities included. -/
structure FloatText where
  text : String
  isFloat : JsonText.isFloatText text.toList = true
  deriving DecidableEq

inductive Json
  | null
  | bool (b : Bool)
  | int (n : Int)
  | float (x : FloatText)
  | str (s : String)
  | arr (items : List Json)
  | obj (fields : List (String × Json))

namespace Json

/-! ## Induction over a value and its parts -/

@[elab_as_elim]
theorem induct {P : Json → Prop} (null : P .null) (bool : ∀ b, P (.bool b))
    (int : ∀ n, P (.int n)) (float : ∀ x, P (.float x)) (str : ∀ s, P (.str s))
    (arr : ∀ items, (∀ v ∈ items, P v) → P (.arr items))
    (obj : ∀ fields, (∀ f ∈ fields, P f.2) → P (.obj fields)) (v : Json) : P v :=
  @Json.rec P (fun items => ∀ v ∈ items, P v) (fun fields => ∀ f ∈ fields, P f.2)
    (fun f => P f.2) null bool int float str arr obj
    (fun _ h => absurd h List.not_mem_nil)
    (fun _ _ hHead hTail v hv => (List.mem_cons.mp hv).elim (fun hEq => hEq ▸ hHead) (hTail v))
    (fun _ h => absurd h List.not_mem_nil)
    (fun _ _ hHead hTail f hf => (List.mem_cons.mp hf).elim (fun hEq => hEq ▸ hHead) (hTail f))
    (fun _ _ h => h) v

/-- The truth value of a JSON value in a condition. -/
def isTruthy : Json → Bool
  | .null => false
  | .bool b => b
  | .int n => n ≠ 0
  | .float x => x.text ≠ "0.0" && x.text ≠ "-0.0"
  | .str s => s ≠ ""
  | .arr items => !items.isEmpty
  | .obj fields => !fields.isEmpty

/-! ## Objects -/

/-- `dict.get`. -/
def get? (fields : List (String × Json)) (key : String) : Option Json :=
  fields.lookup key

/-- Assignment to a key, which keeps the place of a key that exists. -/
def setField (fields : List (String × Json)) (key : String) (value : Json) :
    List (String × Json) :=
  if key ∈ fields.map (·.1) then fields.map fun f => if f.1 = key then (key, value) else f
  else fields ++ [(key, value)]

/-- The number that a value counts as in a comparison, where it is an integer;
`integer` is the integer that a float is equal to. -/
def numeric (integer : FloatText → Option Int) : Json → Option Int
  | .bool b => some (if b then 1 else 0)
  | .int n => some n
  | .float x => integer x
  | _ => none

def sameScalar (integer : FloatText → Option Int) (v w : Json) : Bool :=
  match numeric integer v, numeric integer w with
  | some n, some m => n = m
  | _, _ =>
      match v, w with
      | .null, .null => true
      | .str s, .str t => s = t
      | .float x, .float y => x.text = y.text && x.text ≠ "NaN"
      | _, _ => false

mutual

/-- `v == w`; the order of the keys of a dictionary does not matter. -/
def same (integer : FloatText → Option Int) : Json → Json → Bool
  | .arr items, .arr items' => sameItems integer items items'
  | .obj fields, .obj fields' =>
      fields.length = fields'.length && sameFields integer fields fields'
  | v, w => sameScalar integer v w

def sameItems (integer : FloatText → Option Int) : List Json → List Json → Bool
  | [], [] => true
  | v :: items, w :: items' => same integer v w && sameItems integer items items'
  | _, _ => false

def sameFields (integer : FloatText → Option Int) :
    List (String × Json) → List (String × Json) → Bool
  | [], _ => true
  | (key, v) :: fields, fields' =>
      (match get? fields' key with
        | some w => same integer v w
        | none => false) && sameFields integer fields fields'

end

/-- The dictionary of a sequence of pairs. -/
def ofPairs (pairs : List (String × Json)) : List (String × Json) :=
  pairs.foldl (fun fields p => setField fields p.1 p.2) []

variable {fields : List (String × Json)} {key : String} {value : Json}

theorem mem_of_get? (h : get? fields key = some value) : (key, value) ∈ fields := by
  obtain ⟨before, after, hEq, -⟩ := List.lookup_eq_some_iff.mp h
  rw [hEq]
  simp

/-- A dictionary that is equal to another one has its keys, with equal values. -/
theorem get?_of_same {integer : FloatText → Option Int} {fields' : List (String × Json)}
    (h : same integer (.obj fields) (.obj fields') = true) (hMem : (key, value) ∈ fields) :
    ∃ value', get? fields' key = some value' ∧ same integer value value' = true := by
  rw [same, Bool.and_eq_true] at h
  have hFields := h.2
  clear h
  induction fields with
  | nil => cases hMem
  | cons entry fields ih =>
    rw [sameFields, Bool.and_eq_true] at hFields
    rcases List.mem_cons.mp hMem with rfl | hMem
    · cases hGet : get? fields' key with
      | none =>
        rw [hGet] at hFields
        exact absurd hFields.1 (by simp)
      | some value' =>
        rw [hGet] at hFields
        exact ⟨value', rfl, hFields.1⟩
    · exact ih hMem hFields.2

theorem eq_str_of_same {integer : FloatText → Option Int} {text : String}
    (h : same integer (.str text) value = true) : value = .str text := by
  cases value with
  | str text' =>
    have hText : text = text' := by simpa [same, sameScalar, numeric] using h
    rw [hText]
  | _ => simp [same, sameScalar, numeric] at h

theorem lookup_replace (fields : List (String × Json)) {key' : String} (h : key' ≠ key)
    (value : Json) :
    (fields.map fun f => if f.1 = key then (key, value) else f).lookup key' =
      fields.lookup key' := by
  have hNe : (key' == key) = false := beq_false_of_ne h
  induction fields with
  | nil => rfl
  | cons f fields ih =>
    obtain ⟨k, v⟩ := f
    rw [List.map_cons, List.lookup_cons]
    by_cases hk : k = key
    · simp only [hk, if_true, List.lookup_cons, hNe, ih]
    · simp only [hk, if_false, List.lookup_cons, ih]

theorem get?_setField_of_ne (fields : List (String × Json)) {key' : String}
    (h : key' ≠ key) (value : Json) : get? (setField fields key value) key' = get? fields key' := by
  have hNe : (key' == key) = false := beq_false_of_ne h
  unfold setField
  split
  · exact lookup_replace fields h value
  · simp [get?, List.lookup_append, List.lookup_cons, hNe]

theorem get?_setField_self (fields : List (String × Json)) (key : String) (value : Json) :
    get? (setField fields key value) key = some value := by
  unfold setField get?
  split
  · rename_i h
    induction fields with
    | nil => exact absurd h List.not_mem_nil
    | cons f fields ih =>
      rw [List.map_cons, List.lookup_cons]
      by_cases hk : f.1 = key
      · simp [hk]
      · have hNe : (key == f.1) = false := beq_false_of_ne (Ne.symm hk)
        have hMem : key ∈ fields.map (·.1) := by
          rcases List.mem_cons.mp h with hEq | hMem
          · exact absurd hEq.symm hk
          · exact hMem
        simp only [hk, if_false, hNe]
        exact ih hMem
  · rename_i h
    have hNone : fields.lookup key = none := List.lookup_eq_none_iff.mpr fun f hf =>
      bne_iff_ne.mpr fun hEq => h (List.mem_map.mpr ⟨f, hf, hEq.symm⟩)
    rw [List.lookup_append, hNone]
    simp

theorem ofPairs_append (pairs fields : List (String × Json))
    (h : ((fields ++ pairs).map (·.1)).Nodup) :
    pairs.foldl (fun fields p => setField fields p.1 p.2) fields = fields ++ pairs := by
  induction pairs generalizing fields with
  | nil => simp
  | cons p pairs ih =>
    have hNew : p.1 ∉ fields.map (·.1) := by
      intro hMem
      rw [List.map_append, List.map_cons] at h
      exact (List.nodup_append.mp h).2.2 _ hMem _ List.mem_cons_self rfl
    rw [List.foldl_cons, setField, if_neg hNew, ih _ (by simpa using h)]
    simp

theorem ofPairs_eq_self (h : (fields.map (·.1)).Nodup) :
    ofPairs fields = fields := by
  simpa [ofPairs] using ofPairs_append fields [] (by simpa using h)

/-! ## Writing -/

def hexDigit (n : Nat) : Char :=
  Nat.digitChar n

def escapeChar (c : Char) : List Char :=
  if c = '"' then ['\\', '"']
  else if c = '\\' then ['\\', '\\']
  else if c = '\n' then ['\\', 'n']
  else if c = '\r' then ['\\', 'r']
  else if c = '\t' then ['\\', 't']
  else if c = '\x0c' then ['\\', 'f']
  else if c = '\x08' then ['\\', 'b']
  else if c.toNat < 32 then
    ['\\', 'u', '0', '0', hexDigit (c.toNat / 16), hexDigit (c.toNat % 16)]
  else [c]

/-- A string literal with its quotes. -/
def quote (s : String) : List Char :=
  '"' :: (s.toList.flatMap escapeChar ++ ['"'])

/-- The separator before the remaining elements. -/
def separator {α : Type} (rest : List α) : List Char :=
  if rest.isEmpty then [] else [',', ' ']

mutual

def dumpsChars : Json → List Char
  | .null => "null".toList
  | .bool true => "true".toList
  | .bool false => "false".toList
  | .int n => JsonText.intText n
  | .float x => x.text.toList
  | .str s => quote s
  | .arr items => '[' :: (dumpsItems items ++ [']'])
  | .obj fields => '\x7b' :: (dumpsFields fields ++ ['\x7d'])

def dumpsItems : List Json → List Char
  | [] => []
  | v :: items => dumpsChars v ++ separator items ++ dumpsItems items

def dumpsFields : List (String × Json) → List Char
  | [] => []
  | (k, v) :: fields =>
      quote k ++ [':', ' '] ++ dumpsChars v ++ separator fields ++ dumpsFields fields

end

/-- `json.dumps(v, ensure_ascii=False)`. -/
def dumps (v : Json) : String :=
  String.ofList (dumpsChars v)

/-- The escape of a character outside of the printable ASCII range, a surrogate pair
beyond the basic plane. -/
def asciiEscape (c : Char) : List Char :=
  let unit (n : Nat) : List Char :=
    ['\\', 'u', hexDigit (n / 0x1000), hexDigit (n / 0x100 % 16), hexDigit (n / 16 % 16),
      hexDigit (n % 16)]
  if c.toNat < 0x7F then [c]
  else if c.toNat < 0x10000 then unit c.toNat
  else unit (0xD800 + (c.toNat - 0x10000) / 0x400) ++ unit (0xDC00 + (c.toNat - 0x10000) % 0x400)

/-- `json.dumps(v)`. Other characters than ASCII only occur inside of strings. -/
def dumpsAscii (v : Json) : String :=
  String.ofList ((dumpsChars v).flatMap asciiEscape)

/-! ## Reading -/

def isWhitespace (c : Char) : Bool :=
  c = ' ' || c = '\t' || c = '\n' || c = '\r'

def skipSpace (s : List Char) : List Char :=
  s.dropWhile isWhitespace

def hexValue (c : Char) : Option Nat :=
  if c.isDigit then some (c.toNat - '0'.toNat)
  else if 'a' ≤ c ∧ c ≤ 'f' then some (c.toNat - 'a'.toNat + 10)
  else if 'A' ≤ c ∧ c ≤ 'F' then some (c.toNat - 'A'.toNat + 10)
  else none

def hexUnit : List Char → Option (Nat × List Char)
  | a :: b :: c :: d :: s => do
      let a ← hexValue a
      let b ← hexValue b
      let c ← hexValue c
      let d ← hexValue d
      return (((a * 16 + b) * 16 + c) * 16 + d, s)
  | _ => none

/-- The second half of a surrogate pair. -/
def lowSurrogate : List Char → Option (Nat × List Char)
  | '\\' :: 'u' :: s =>
      (hexUnit s).bind fun p => if 0xDC00 ≤ p.1 ∧ p.1 ≤ 0xDFFF then some p else none
  | _ => none

/-- The character of a unicode escape. A lone surrogate is no character and is
refused. -/
def unicodeEscape (s : List Char) : Option (Char × List Char) :=
  (hexUnit s).bind fun p =>
    if 0xD800 ≤ p.1 ∧ p.1 ≤ 0xDBFF then
      (lowSurrogate p.2).map fun q =>
        (Char.ofNat (0x10000 + (p.1 - 0xD800) * 0x400 + (q.1 - 0xDC00)), q.2)
    else if 0xDC00 ≤ p.1 ∧ p.1 ≤ 0xDFFF then none
    else some (Char.ofNat p.1, p.2)

def simpleEscape (c : Char) : Option Char :=
  if c = '"' ∨ c = '\\' ∨ c = '/' then some c
  else if c = 'n' then some '\n'
  else if c = 'r' then some '\r'
  else if c = 't' then some '\t'
  else if c = 'f' then some '\x0c'
  else if c = 'b' then some '\x08'
  else none

/-- One character of a string literal. -/
def scanChar : List Char → Option (Char × List Char)
  | [] => none
  | c :: s =>
      if c = '\\' then
        match s with
        | [] => none
        | e :: s => if e = 'u' then unicodeEscape s else (simpleEscape e).map fun ch => (ch, s)
      else if c.toNat < 32 then none
      else some (c, s)

/-- The rest of a string literal after its opening quote. -/
def scanString : Nat → List Char → Option (List Char × List Char)
  | 0, _ => none
  | _ + 1, [] => none
  | fuel + 1, c :: s =>
      if c = '"' then some ([], s)
      else
        (scanChar (c :: s)).bind fun p =>
          (scanString fuel p.2).map fun q => (p.1 :: q.1, q.2)

/-- The elements of an array after its opening bracket. -/
def scanItems (value : List Char → Option (Json × List Char)) :
    Nat → List Char → Option (List Json × List Char)
  | 0, _ => none
  | fuel + 1, s =>
      (value s).bind fun p =>
        match skipSpace p.2 with
        | [] => none
        | c :: s =>
            if c = ',' then
              (scanItems value fuel (skipSpace s)).map fun q => (p.1 :: q.1, q.2)
            else if c = ']' then some ([p.1], s)
            else none

/-- A key with the colon after it. -/
def scanKey : List Char → Option (String × List Char)
  | [] => none
  | c :: s =>
      if c = '"' then
        (scanString s.length s).bind fun p =>
          match skipSpace p.2 with
          | [] => none
          | c :: s => if c = ':' then some (String.ofList p.1, skipSpace s) else none
      else none

/-- The members of an object after its opening brace. -/
def scanFields (value : List Char → Option (Json × List Char)) :
    Nat → List Char → Option (List (String × Json) × List Char)
  | 0, _ => none
  | fuel + 1, s =>
      (scanKey s).bind fun k =>
        (value k.2).bind fun p =>
          match skipSpace p.2 with
          | [] => none
          | c :: s =>
              if c = ',' then
                (scanFields value fuel (skipSpace s)).map fun q => ((k.1, p.1) :: q.1, q.2)
              else if c = '\x7d' then some ([(k.1, p.1)], s)
              else none

def floatOfText (canonical : FloatText → FloatText) (s : List Char) : Option Json :=
  if h : JsonText.isFloatText (String.ofList s).toList = true then
    some (.float (canonical ⟨String.ofList s, h⟩))
  else none

def words (canonical : FloatText → FloatText) : List (List Char × Option Json) :=
  [("null".toList, some .null), ("true".toList, some (.bool true)),
    ("false".toList, some (.bool false))] ++
    JsonText.floatWords.map fun w => (w, floatOfText canonical w)

def scanWord (canonical : FloatText → FloatText) (s : List Char) : Option (Json × List Char) :=
  ((words canonical).find? fun w => w.1.isPrefixOf s).bind fun w =>
    w.2.map fun v => (v, s.drop w.1.length)

def scanScalar (canonical : FloatText → FloatText) (s : List Char) : Option (Json × List Char) :=
  match JsonText.scanNumber s with
  | some (t, rest) =>
      if t.isFloat then (floatOfText canonical t.text).map fun v => (v, rest)
      else some (.int t.toInt, rest)
  | none => scanWord canonical s

def scanValue (canonical : FloatText → FloatText) : Nat → List Char → Option (Json × List Char)
  | 0, _ => none
  | _ + 1, [] => none
  | depth + 1, c :: s =>
      if c = '"' then (scanString s.length s).map fun p => (.str (String.ofList p.1), p.2)
      else if c = '[' then
        match skipSpace s with
        | ']' :: rest => some (.arr [], rest)
        | s => (scanItems (scanValue canonical depth) s.length s).map fun p => (.arr p.1, p.2)
      else if c = '\x7b' then
        match skipSpace s with
        | '\x7d' :: rest => some (.obj [], rest)
        | s =>
            (scanFields (scanValue canonical depth) s.length s).map fun p =>
              (.obj (ofPairs p.1), p.2)
      else scanScalar canonical (c :: s)

/-- `json.loads`. -/
def loads (canonical : FloatText → FloatText) (text : String) : Option Json :=
  match scanValue canonical (text.length + 1) (skipSpace text.toList) with
  | some (v, rest) => if skipSpace rest = [] then some v else none
  | none => none

/-! ## Strings are read back -/

theorem hexValue_hexDigit : ∀ d : Fin 16, hexValue (hexDigit d.val) = some d.val := by
  decide

theorem unicodeEscape_control {n : Nat} (hn : n < 32) (rest : List Char) :
    unicodeEscape ('0' :: '0' :: hexDigit (n / 16) :: hexDigit (n % 16) :: rest) =
      some (Char.ofNat n, rest) := by
  have hZero : hexValue '0' = some 0 := by decide
  have hHigh : hexValue (hexDigit (n / 16)) = some (n / 16) :=
    hexValue_hexDigit ⟨n / 16, by omega⟩
  have hLow : hexValue (hexDigit (n % 16)) = some (n % 16) :=
    hexValue_hexDigit ⟨n % 16, by omega⟩
  have hUnit : hexUnit ('0' :: '0' :: hexDigit (n / 16) :: hexDigit (n % 16) :: rest) =
      some (n, rest) := by
    simp only [hexUnit, hZero, hHigh, hLow]
    change some _ = some _
    congr 2
    omega
  have hSmall : ¬ (0xD800 ≤ n ∧ n ≤ 0xDBFF) ∧ ¬ (0xDC00 ≤ n ∧ n ≤ 0xDFFF) := by omega
  simp only [unicodeEscape, hUnit, Option.bind_some, if_neg hSmall.1, if_neg hSmall.2]

/-- The characters that are escaped by a letter or by themselves. -/
def shortEscapes : List (Char × Char) :=
  [('"', '"'), ('\\', '\\'), ('\n', 'n'), ('\r', 'r'), ('\t', 't'), ('\x0c', 'f'), ('\x08', 'b')]

/-- What holds of each form of an escape holds of the escape. -/
theorem escapeChar_elim {P : List Char → Prop} {c : Char}
    (hShort : ∀ d, (c, d) ∈ shortEscapes → P ['\\', d])
    (hControl : c.toNat < 32 →
      P ['\\', 'u', '0', '0', hexDigit (c.toNat / 16), hexDigit (c.toNat % 16)])
    (hPlain : c ≠ '"' → c ≠ '\\' → ¬ c.toNat < 32 → P [c]) : P (escapeChar c) := by
  have hLetter : ∀ a d, (a, d) ∈ shortEscapes → c = a → P ['\\', d] :=
    fun a d hMem hEq => hShort d (hEq ▸ hMem)
  unfold escapeChar
  refine iteInduction (hLetter _ _ (by decide)) fun hQuote => ?_
  refine iteInduction (hLetter _ _ (by decide)) fun hSlash => ?_
  refine iteInduction (hLetter _ _ (by decide)) fun _ => ?_
  refine iteInduction (hLetter _ _ (by decide)) fun _ => ?_
  refine iteInduction (hLetter _ _ (by decide)) fun _ => ?_
  refine iteInduction (hLetter _ _ (by decide)) fun _ => ?_
  refine iteInduction (hLetter _ _ (by decide)) fun _ => ?_
  exact iteInduction hControl (hPlain hQuote hSlash)

theorem escapeChar_head (c : Char) : ∃ d s, escapeChar c = d :: s ∧ d ≠ '"' := by
  refine @escapeChar_elim (fun text => ∃ d s, text = d :: s ∧ d ≠ '"') c ?_ ?_ ?_
  · exact fun d _ => ⟨'\\', [d], rfl, by decide⟩
  · exact fun _ => ⟨'\\', _, rfl, by decide⟩
  · exact fun hQuote _ _ => ⟨c, [], rfl, hQuote⟩

variable {c : Char}

theorem scanChar_short {d : Char} (h : (c, d) ∈ shortEscapes) (rest : List Char) :
    scanChar ('\\' :: d :: rest) = some (c, rest) := by
  simp only [shortEscapes, List.mem_cons, List.not_mem_nil, or_false, Prod.mk.injEq] at h
  rcases h with ⟨rfl, rfl⟩ | ⟨rfl, rfl⟩ | ⟨rfl, rfl⟩ | ⟨rfl, rfl⟩ | ⟨rfl, rfl⟩ | ⟨rfl, rfl⟩ |
    ⟨rfl, rfl⟩ <;> rfl

theorem scanChar_escapeChar (c : Char) (rest : List Char) :
    scanChar (escapeChar c ++ rest) = some (c, rest) := by
  refine @escapeChar_elim (fun text => scanChar (text ++ rest) = some (c, rest)) c ?_ ?_ ?_
  · exact fun d hMem => scanChar_short hMem rest
  · intro hControl
    have hEscape := unicodeEscape_control hControl rest
    rw [Char.ofNat_toNat] at hEscape
    simpa [scanChar] using hEscape
  · intro _ hSlash hControl
    simp [scanChar, hSlash, hControl]

theorem scanString_escaped (s rest : List Char) {fuel : Nat} (hFuel : s.length < fuel) :
    scanString fuel (s.flatMap escapeChar ++ '"' :: rest) = some (s, rest) := by
  induction s generalizing fuel with
  | nil =>
    obtain ⟨fuel, rfl⟩ : ∃ k, fuel = k + 1 := ⟨fuel - 1, by simp at hFuel; omega⟩
    simp [scanString]
  | cons c s ih =>
    obtain ⟨fuel, rfl⟩ : ∃ k, fuel = k + 1 := ⟨fuel - 1, by simp at hFuel; omega⟩
    obtain ⟨d, t, hEscape, hd⟩ := escapeChar_head c
    have hChar := scanChar_escapeChar c (s.flatMap escapeChar ++ '"' :: rest)
    have hRest := @ih fuel (by simp at hFuel; omega)
    rw [List.flatMap_cons, List.append_assoc, hEscape, List.cons_append, scanString, if_neg hd,
      ← List.cons_append, ← hEscape, hChar, Option.bind_some, hRest]
    rfl

theorem length_le_escaped (s : List Char) : s.length ≤ (s.flatMap escapeChar).length := by
  induction s with
  | nil => simp
  | cons c s ih =>
    obtain ⟨d, t, hEscape, -⟩ := escapeChar_head c
    simp only [List.flatMap_cons, hEscape, List.length_append, List.length_cons]
    omega

theorem length_add_two_le_quote (s : String) : s.length + 2 ≤ (quote s).length := by
  have := length_le_escaped s.toList
  simp only [quote, List.length_cons, List.length_append, List.length_nil,
    String.length_toList] at this ⊢
  omega

/-- Reading a string literal up to its closing quote. -/
theorem scanString_quote (s : String) (rest : List Char) :
    ∃ body, quote s ++ rest = '"' :: body ∧
      scanString body.length body = some (s.toList, rest) := by
  refine ⟨s.toList.flatMap escapeChar ++ '"' :: rest, by simp [quote], ?_⟩
  refine scanString_escaped _ _ ?_
  have := length_le_escaped s.toList
  simp only [List.length_append, List.length_cons]
  omega

theorem skipSpace_cons (h : isWhitespace c = false) (s : List Char) :
    skipSpace (c :: s) = c :: s := by
  simp [skipSpace, h]

variable {rest : List Char}

theorem scanKey_quote (k : String) (h : skipSpace rest = rest) :
    scanKey (quote k ++ [':', ' '] ++ rest) = some (k, rest) := by
  obtain ⟨body, hBody, hScan⟩ := scanString_quote k (':' :: ' ' :: rest)
  have hText : quote k ++ [':', ' '] ++ rest = '"' :: body := by simpa using hBody
  have hSpace : skipSpace (' ' :: rest) = rest :=
    (by simp [skipSpace, isWhitespace] : skipSpace (' ' :: rest) = skipSpace rest).trans h
  simp [hText, scanKey, hScan, skipSpace_cons (rfl : isWhitespace ':' = false), hSpace]

/-! ## Values are read back -/

mutual

/-- Floats are canonical and the keys of an object are distinct. -/
def WellFormed (canonical : FloatText → FloatText) : Json → Prop
  | .float x => canonical x = x
  | .arr items => WellFormedItems canonical items
  | .obj fields => (fields.map (·.1)).Nodup ∧ WellFormedFields canonical fields
  | _ => True

def WellFormedItems (canonical : FloatText → FloatText) : List Json → Prop
  | [] => True
  | v :: items => WellFormed canonical v ∧ WellFormedItems canonical items

def WellFormedFields (canonical : FloatText → FloatText) : List (String × Json) → Prop
  | [] => True
  | f :: fields => WellFormed canonical f.2 ∧ WellFormedFields canonical fields

end

variable {canonical : FloatText → FloatText}

variable {items : List Json}

theorem wellFormedItems_iff :
    WellFormedItems canonical items ↔ ∀ v ∈ items, WellFormed canonical v := by
  induction items with
  | nil => simp [WellFormedItems]
  | cons v items ih => simp [WellFormedItems, ih]

theorem wellFormedFields_iff :
    WellFormedFields canonical fields ↔ ∀ f ∈ fields, WellFormed canonical f.2 := by
  induction fields with
  | nil => simp [WellFormedFields]
  | cons f fields ih => simp [WellFormedFields, ih]

theorem floatText_head (x : FloatText) :
    ∃ c s, x.text.toList = c :: s ∧ (c = '-' ∨ c = 'N' ∨ c = 'I' ∨ c.isDigit = true) := by
  have h := x.isFloat
  unfold JsonText.isFloatText at h
  cases hText : x.text.toList with
  | nil =>
    rw [hText] at h
    exact absurd h (by decide)
  | cons c s =>
    refine ⟨c, s, rfl, ?_⟩
    rw [hText] at h
    split at h
    · rename_i t rest hScan
      unfold JsonText.scanNumber JsonText.scanMinus at hScan
      by_cases hMinus : c = '-'
      · exact Or.inl hMinus
      · right; right; right
        simp only [hMinus, if_false] at hScan
        by_cases hZero : c = '0'
        · rw [hZero]
          rfl
        · by_contra hDigit
          simp [JsonText.scanWhole, hZero, hDigit] at hScan
    · simp only [JsonText.floatWords, List.contains_cons, List.contains_nil, Bool.or_false,
        Bool.or_eq_true, beq_iff_eq] at h
      rcases h with h | h | h
      · exact Or.inr (Or.inl (List.cons.inj h).1)
      · exact Or.inr (Or.inr (Or.inl (List.cons.inj h).1))
      · exact Or.inl (List.cons.inj h).1

theorem intText_head (n : Int) :
    ∃ c s, JsonText.intText n = c :: s ∧ (c = '-' ∨ c = 'N' ∨ c = 'I' ∨ c.isDigit = true) := by
  cases n with
  | ofNat n =>
    cases hText : Nat.toDigits 10 n with
    | nil => exact absurd hText Nat.toDigits_ne_nil
    | cons c s =>
      refine ⟨c, s, hText, Or.inr (Or.inr (Or.inr (JsonText.toDigits_all n c ?_)))⟩
      rw [hText]
      exact List.mem_cons_self
  | negSucc n => exact ⟨'-', _, rfl, Or.inl rfl⟩

theorem numberHead (h : c = '-' ∨ c = 'N' ∨ c = 'I' ∨ c.isDigit = true) :
    isWhitespace c = false ∧ c ≠ ']' ∧ c ≠ '"' ∧ c ≠ '[' ∧ c ≠ '\x7b' := by
  rcases h with rfl | rfl | rfl | hc
  · decide
  · decide
  · decide
  · have hNe : ∀ d : Char, d.isDigit = false → c ≠ d := by
      rintro d hd rfl
      rw [hc] at hd
      exact absurd hd (by decide)
    refine ⟨?_, hNe _ rfl, hNe _ rfl, hNe _ rfl, hNe _ rfl⟩
    simp [isWhitespace, hNe ' ' rfl, hNe '\t' rfl, hNe '\n' rfl, hNe '\r' rfl]

/-- The first character of a written value: no blank and no closing bracket. -/
theorem dumpsChars_head (v : Json) :
    ∃ c s, dumpsChars v = c :: s ∧ isWhitespace c = false ∧ c ≠ ']' := by
  cases v with
  | null => exact ⟨'n', _, rfl, by decide⟩
  | bool b => cases b <;> exact ⟨_, _, rfl, by decide⟩
  | int n =>
    obtain ⟨c, s, hText, hc⟩ := intText_head n
    exact ⟨c, s, hText, (numberHead hc).1, (numberHead hc).2.1⟩
  | float x =>
    obtain ⟨c, s, hText, hc⟩ := floatText_head x
    exact ⟨c, s, hText, (numberHead hc).1, (numberHead hc).2.1⟩
  | str s => exact ⟨'"', _, rfl, by decide⟩
  | arr items => exact ⟨'[', _, rfl, by decide⟩
  | obj fields => exact ⟨'\x7b', _, rfl, by decide⟩

theorem skipSpace_dumpsChars (v : Json) (rest : List Char) :
    skipSpace (dumpsChars v ++ rest) = dumpsChars v ++ rest := by
  obtain ⟨c, s, hText, hc, -⟩ := dumpsChars_head v
  rw [hText, List.cons_append, skipSpace_cons hc]

theorem dumpsChars_length_pos (v : Json) : 0 < (dumpsChars v).length := by
  obtain ⟨c, s, hText, -⟩ := dumpsChars_head v
  simp [hText]

theorem floatOfText_text (x : FloatText) :
    floatOfText canonical x.text.toList = some (.float (canonical x)) := by
  have hText : String.ofList x.text.toList = x.text := String.ofList_toList
  have hFloat : JsonText.isFloatText (String.ofList x.text.toList).toList = true := by
    rw [hText]
    exact x.isFloat
  simp only [floatOfText, hFloat, dif_pos]
  congr 3
  cases x
  simp

theorem scanScalar_int (n : Int) (hRest : JsonText.Ends rest) :
    scanScalar canonical (JsonText.intText n ++ rest) = some (.int n, rest) := by
  obtain ⟨t, hScan, hFloat, hInt⟩ := JsonText.scanNumber_intText hRest n
  simp [scanScalar, hScan, hFloat, hInt]

theorem scanWord_floatWord {w : List Char} (hw : w ∈ JsonText.floatWords) (rest : List Char) :
    scanWord canonical (w ++ rest) = (floatOfText canonical w).map fun v => (v, rest) := by
  simp only [JsonText.floatWords, List.mem_cons, List.not_mem_nil, or_false] at hw
  rcases hw with rfl | rfl | rfl
  all_goals rfl

theorem scanScalar_float {x : FloatText} (hx : canonical x = x) (hRest : JsonText.Ends rest) :
    scanScalar canonical (x.text.toList ++ rest) = some (.float x, rest) := by
  have hFloat := x.isFloat
  unfold JsonText.isFloatText at hFloat
  unfold scanScalar
  rw [JsonText.scanNumber_append hRest]
  cases hScan : JsonText.scanNumber x.text.toList with
  | none =>
    rw [hScan] at hFloat
    have hWord : x.text.toList ∈ JsonText.floatWords := List.contains_iff_mem.mp hFloat
    simp only [Option.map_none]
    rw [scanWord_floatWord hWord, floatOfText_text, hx]
    rfl
  | some p =>
    rw [hScan] at hFloat
    simp only [Bool.and_eq_true, beq_iff_eq, List.isEmpty_iff] at hFloat
    obtain ⟨⟨hIs, hText⟩, hEnd⟩ := hFloat
    simp only [Option.map_some, hIs, hText, hEnd, List.nil_append, if_true]
    rw [floatOfText_text, hx]
    rfl

/-- The elements of an array, given that each of them is read back. -/
theorem scanItems_dumpsItems {value : List Char → Option (Json × List Char)} {rest : List Char}
    {items : List Json} (hNe : items ≠ [])
    (hValue : ∀ v ∈ items, ∀ r, JsonText.Ends r → value (dumpsChars v ++ r) = some (v, r))
    {fuel : Nat} (hFuel : items.length ≤ fuel) :
    scanItems value fuel (dumpsItems items ++ ']' :: rest) = some (items, rest) := by
  induction items generalizing fuel with
  | nil => exact absurd rfl hNe
  | cons v items ih =>
    obtain ⟨fuel, rfl⟩ : ∃ k, fuel = k + 1 := ⟨fuel - 1, by simp at hFuel; omega⟩
    have hHead := hValue v List.mem_cons_self
    cases items with
    | nil =>
      have hEnd : JsonText.Ends (']' :: rest) := JsonText.ends_cons (Or.inr (Or.inl rfl))
      simp [dumpsItems, separator, scanItems, hHead _ hEnd,
        skipSpace_cons (rfl : isWhitespace ']' = false)]
    | cons w items =>
      have hRest := @ih (by simp) (fun u hu => hValue u (List.mem_cons_of_mem _ hu)) fuel
        (by simpa using hFuel)
      have hText : dumpsItems (v :: w :: items) ++ ']' :: rest =
          dumpsChars v ++ ',' :: ' ' :: (dumpsItems (w :: items) ++ ']' :: rest) := by
        simp [dumpsItems, separator]
      have hSkip : skipSpace (' ' :: (dumpsItems (w :: items) ++ ']' :: rest)) =
          dumpsItems (w :: items) ++ ']' :: rest := by
        simp only [dumpsItems, List.append_assoc]
        exact (by simp [skipSpace, isWhitespace] : skipSpace (' ' :: _) = skipSpace _).trans
          (skipSpace_dumpsChars w _)
      rw [hText, scanItems, hHead _ (JsonText.ends_cons (Or.inl rfl))]
      simp [skipSpace_cons (rfl : isWhitespace ',' = false), hSkip, hRest]

theorem scanFields_dumpsFields {value : List Char → Option (Json × List Char)} {rest : List Char}
    {fields : List (String × Json)} (hNe : fields ≠ [])
    (hValue : ∀ f ∈ fields, ∀ r, JsonText.Ends r → value (dumpsChars f.2 ++ r) = some (f.2, r))
    {fuel : Nat} (hFuel : fields.length ≤ fuel) :
    scanFields value fuel (dumpsFields fields ++ '\x7d' :: rest) = some (fields, rest) := by
  induction fields generalizing fuel with
  | nil => exact absurd rfl hNe
  | cons f fields ih =>
    obtain ⟨fuel, rfl⟩ : ∃ k, fuel = k + 1 := ⟨fuel - 1, by simp at hFuel; omega⟩
    obtain ⟨k, v⟩ := f
    have hHead := hValue (k, v) List.mem_cons_self
    cases fields with
    | nil =>
      have hEnd : JsonText.Ends ('\x7d' :: rest) := JsonText.ends_cons (Or.inr (Or.inr rfl))
      have hText : dumpsFields [(k, v)] ++ '\x7d' :: rest =
          quote k ++ [':', ' '] ++ (dumpsChars v ++ '\x7d' :: rest) := by
        simp [dumpsFields, separator]
      rw [hText, scanFields, scanKey_quote k (skipSpace_dumpsChars v _)]
      simp [hHead _ hEnd, skipSpace_cons (rfl : isWhitespace '\x7d' = false)]
    | cons g fields =>
      have hRest := @ih (by simp) (fun u hu => hValue u (List.mem_cons_of_mem _ hu)) fuel
        (by simpa using hFuel)
      have hText : dumpsFields ((k, v) :: g :: fields) ++ '\x7d' :: rest =
          quote k ++ [':', ' '] ++ (dumpsChars v ++
            ',' :: ' ' :: (dumpsFields (g :: fields) ++ '\x7d' :: rest)) := by
        simp [dumpsFields, separator]
      have hSkip : skipSpace (' ' :: (dumpsFields (g :: fields) ++ '\x7d' :: rest)) =
          dumpsFields (g :: fields) ++ '\x7d' :: rest := by
        simp [skipSpace, isWhitespace, dumpsFields, quote]
      rw [hText, scanFields, scanKey_quote k (skipSpace_dumpsChars v _), Option.bind_some,
        hHead _ (JsonText.ends_cons (Or.inl rfl))]
      simp [skipSpace_cons (rfl : isWhitespace ',' = false), hSkip, hRest]

variable {v : Json}

theorem length_le_dumpsItems (h : v ∈ items) :
    (dumpsChars v).length ≤ (dumpsItems items).length := by
  induction items with
  | nil => exact absurd h List.not_mem_nil
  | cons w items ih =>
    simp only [dumpsItems, List.length_append]
    rcases List.mem_cons.mp h with rfl | h
    · omega
    · have := ih h
      omega

theorem length_le_dumpsFields {f : String × Json}
    (h : f ∈ fields) : (dumpsChars f.2).length ≤ (dumpsFields fields).length := by
  induction fields with
  | nil => exact absurd h List.not_mem_nil
  | cons g fields ih =>
    simp only [dumpsFields, List.length_append]
    rcases List.mem_cons.mp h with rfl | h
    · omega
    · have := ih h
      omega

theorem items_length_le (items : List Json) : items.length ≤ (dumpsItems items).length := by
  induction items with
  | nil => simp
  | cons v items ih =>
    have := dumpsChars_length_pos v
    simp only [dumpsItems, List.length_append, List.length_cons]
    omega

theorem fields_length_le (fields : List (String × Json)) :
    fields.length ≤ (dumpsFields fields).length := by
  induction fields with
  | nil => simp
  | cons f fields ih =>
    have := dumpsChars_length_pos f.2
    simp only [dumpsFields, List.length_append, List.length_cons]
    omega

theorem scanValue_number {s : List Char}
    (h : c = '-' ∨ c = 'N' ∨ c = 'I' ∨ c.isDigit = true) (depth : Nat) :
    scanValue canonical (depth + 1) (c :: s) = scanScalar canonical (c :: s) := by
  obtain ⟨-, -, hQuote, hArr, hObj⟩ := numberHead h
  rw [scanValue, if_neg hQuote, if_neg hArr, if_neg hObj]

variable {depth : Nat}

theorem scanValue_arr (hValue : ∀ v ∈ items, ∀ r, JsonText.Ends r →
      scanValue canonical depth (dumpsChars v ++ r) = some (v, r)) :
    scanValue canonical (depth + 1) (dumpsChars (.arr items) ++ rest) =
      some (.arr items, rest) := by
  cases items with
  | nil => rfl
  | cons v items =>
    have hSkip : skipSpace (dumpsItems (v :: items) ++ ']' :: rest) =
        dumpsItems (v :: items) ++ ']' :: rest := by
      simp only [dumpsItems, List.append_assoc]
      exact skipSpace_dumpsChars v _
    have hLength : (v :: items).length ≤ (dumpsItems (v :: items) ++ ']' :: rest).length := by
      have := items_length_le (v :: items)
      rw [List.length_append]
      omega
    have hScan := @scanItems_dumpsItems _ rest _ (by simp) hValue _ hLength
    have hText : dumpsChars (.arr (v :: items)) ++ rest =
        '[' :: (dumpsItems (v :: items) ++ ']' :: rest) := by
      simp [dumpsChars]
    rw [hText, scanValue, if_neg (by decide), if_pos rfl, hSkip]
    obtain ⟨c, s, hHead, -, hc⟩ := dumpsChars_head v
    have hCons : dumpsItems (v :: items) ++ ']' :: rest =
        c :: (s ++ (separator items ++ dumpsItems items ++ ']' :: rest)) := by
      simp [dumpsItems, hHead]
    split
    · rename_i r hEq
      rw [hCons] at hEq
      exact absurd (List.cons.inj hEq).1 hc
    · rw [hScan]
      rfl

theorem scanValue_obj (hNodup : (fields.map (·.1)).Nodup)
    (hValue : ∀ f ∈ fields, ∀ r, JsonText.Ends r →
      scanValue canonical depth (dumpsChars f.2 ++ r) = some (f.2, r)) :
    scanValue canonical (depth + 1) (dumpsChars (.obj fields) ++ rest) =
      some (.obj fields, rest) := by
  cases fields with
  | nil => rfl
  | cons f fields =>
    have hCons : dumpsFields (f :: fields) ++ '\x7d' :: rest =
        '"' :: (f.1.toList.flatMap escapeChar ++ ['"'] ++ [':', ' '] ++ dumpsChars f.2 ++
          separator fields ++ dumpsFields fields ++ '\x7d' :: rest) := by
      simp [dumpsFields, quote]
    have hSkip : skipSpace (dumpsFields (f :: fields) ++ '\x7d' :: rest) =
        dumpsFields (f :: fields) ++ '\x7d' :: rest := by
      rw [hCons, skipSpace_cons (by decide)]
    have hLength : (f :: fields).length ≤
        (dumpsFields (f :: fields) ++ '\x7d' :: rest).length := by
      have := fields_length_le (f :: fields)
      rw [List.length_append]
      omega
    have hScan := @scanFields_dumpsFields _ rest _ (by simp) hValue _ hLength
    have hText : dumpsChars (.obj (f :: fields)) ++ rest =
        '\x7b' :: (dumpsFields (f :: fields) ++ '\x7d' :: rest) := by
      simp [dumpsChars]
    rw [hText, scanValue, if_neg (by decide), if_neg (by decide), if_pos rfl, hSkip]
    split
    · rename_i r hEq
      rw [hCons] at hEq
      exact absurd (List.cons.inj hEq).1 (by decide)
    · rw [hScan, Option.map_some, ofPairs_eq_self hNodup]

/-- A value is read back from its text whatever follows it, the depth of the
parser being at least the length of the text. -/
theorem scanValue_dumpsChars (hWell : WellFormed canonical v)
    (hDepth : (dumpsChars v).length ≤ depth) (hRest : JsonText.Ends rest) :
    scanValue canonical depth (dumpsChars v ++ rest) = some (v, rest) := by
  obtain ⟨depth, rfl⟩ : ∃ k, depth = k + 1 :=
    ⟨depth - 1, by have := dumpsChars_length_pos v; omega⟩
  induction v using induct generalizing depth rest with
  | null => rfl
  | bool b => cases b <;> rfl
  | int n =>
    obtain ⟨c, s, hText, hc⟩ := intText_head n
    rw [dumpsChars, ← scanScalar_int n hRest, hText]
    exact scanValue_number hc depth
  | float x =>
    obtain ⟨c, s, hText, hc⟩ := floatText_head x
    rw [dumpsChars, ← scanScalar_float hWell hRest, hText]
    exact scanValue_number hc depth
  | str s =>
    obtain ⟨body, hBody, hScan⟩ := scanString_quote s rest
    rw [dumpsChars, hBody, scanValue, if_pos rfl, hScan]
    simp
  | arr items ih =>
    refine scanValue_arr fun v hv r hr => ?_
    have hLength := length_le_dumpsItems hv
    simp only [dumpsChars, List.length_cons, List.length_append] at hDepth
    obtain ⟨depth, rfl⟩ : ∃ k, depth = k + 1 :=
      ⟨depth - 1, by have := dumpsChars_length_pos v; omega⟩
    exact ih v hv (wellFormedItems_iff.mp hWell v hv) hr depth (by omega)
  | obj fields ih =>
    refine scanValue_obj hWell.1 fun f hf r hr => ?_
    have hLength := length_le_dumpsFields hf
    simp only [dumpsChars, List.length_cons, List.length_append] at hDepth
    obtain ⟨depth, rfl⟩ : ∃ k, depth = k + 1 :=
      ⟨depth - 1, by have := dumpsChars_length_pos f.2; omega⟩
    exact ih f hf (wellFormedFields_iff.mp hWell.2 f hf) hr depth (by omega)

theorem length_dumps (v : Json) : (dumps v).length = (dumpsChars v).length := by
  simp [dumps]

/-- What was written is read back. -/
theorem loads_dumps (hWell : WellFormed canonical v) :
    loads canonical (dumps v) = some v := by
  have hSkip : skipSpace (dumpsChars v) = dumpsChars v := by
    simpa using skipSpace_dumpsChars v []
  have hScan := scanValue_dumpsChars hWell (Nat.le_succ _) JsonText.ends_nil
  rw [List.append_nil] at hScan
  have hText : (dumps v).toList = dumpsChars v := String.toList_ofList
  unfold loads
  rw [length_dumps, hText, hSkip, hScan]
  rfl

theorem dumps_injective {w : Json} (hv : WellFormed canonical v) (hw : WellFormed canonical w)
    (h : dumps v = dumps w) : v = w := by
  have hLoads := loads_dumps hv
  rw [h, loads_dumps hw] at hLoads
  exact (Option.some.inj hLoads).symm

end Json
end LosslessHermes
