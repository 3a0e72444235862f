import LosslessHermes.Library.Regex
import LosslessHermes.Library.Text

/-!
# Queries of a text search

What the stores make of the query of a search before a statement sees it: the expression for
FTS5, the terms and the patterns of `LIKE`, the segments of a query with CJK characters, and
the snippet of a row that `LIKE` has found. `lower` is `str.lower`, `isWord` is `\w`.
-/

namespace LosslessHermes.FullText

/-! ## Pieces of a query -/

/-- `[r]+` -/
def run (p : Char → Bool) : Regex :=
  .atLeast (.char p) 1

def quote : Char := '"'

/-- `"([^"]+)"` -/
def PHRASE_RE : Regex :=
  .seq (.char (· = quote)) (.seq (run (· ≠ quote)) (.char (· = quote)))

/-- `"([^"]+)"|(\S+)` -/
def RAW_TERM_RE : Regex :=
  .alt PHRASE_RE (run fun c => !Text.isSpace c)

/-- The contents of a phrase, or the term itself. -/
def rawTerm (s : List Char) : List Char :=
  if (Regex.run PHRASE_RE (none, s)).any fun place => place.2 = [] then
    s.tail.dropLast
  else s

def words (s : List Char) : List (List Char) :=
  Regex.hits (run fun c => !Text.isSpace c) (String.ofList s)

def inRanges (ranges : List (Nat × Nat)) (c : Char) : Bool :=
  ranges.any fun r => r.1 ≤ c.toNat && c.toNat ≤ r.2

def isCjk : Char → Bool :=
  inRanges [(0x2E80, 0x9FFF), (0x3400, 0x4DBF), (0xF900, 0xFAFF), (0xAC00, 0xD7AF),
    (0x3040, 0x309F), (0x30A0, 0x30FF)]

/-- The class of `_CJK_QUERY_SEGMENT_RE`, of which one range begins at another character. -/
def isCjkSegment : Char → Bool :=
  inRanges [(0x2E80, 0x9FFF), (0x3400, 0x4DBF), (0x8C48, 0xFAFF), (0xAC00, 0xD7AF),
    (0x3040, 0x309F), (0x30A0, 0x30FF)]

def containsCjk (text : String) : Bool :=
  text.toList.any isCjk

/-! ## Expressions for FTS5 -/

def quoted (s : List Char) : String :=
  String.ofList ([quote] ++ s ++ [quote])

def quotedWords (before : List Char) : List String :=
  (words before).map fun w => quoted (w.filter (· ≠ quote))

/-- The tokens between the phrases, and the phrases; `before` is what stands before a piece. -/
def sanitizedParts (before : List Char) : List Regex.Piece → List String
  | [] => quotedWords before
  | .text c :: pieces => sanitizedParts (before ++ [c]) pieces
  | .hit s :: pieces =>
      let phrase := Text.stripChars (s.filter (· ≠ quote))
      quotedWords before ++ (if phrase = [] then [] else [quoted phrase]) ++
        sanitizedParts [] pieces

def sanitizeFts5Query (raw : String) : String :=
  let parts := sanitizedParts [] (Regex.split PHRASE_RE raw.toList)
  if parts = [] then quoted [] else " ".intercalate parts

/-- `\b(?:AND|OR|NOT|NEAR)\b` -/
def FTS5_OPERATOR_RE (isWord : Char → Bool) : Regex :=
  let word (s : String) := Regex.literal id s.toList
  .seq (.behind fun c => !c.any isWord)
    (.seq (.alt (word "AND") (.alt (word "OR") (.alt (word "NOT") (word "NEAR"))))
      (.ahead fun c => !c.any isWord))

def PROBLEM_CHARS : List Char :=
  ".[]+*^:/\\!~".toList

/-- The expression of a verbatim search, which is quoted only where FTS5 would refuse it. -/
def sanitizeFts5Pattern (isWord : Char → Bool) (pattern : String) : String :=
  let trimmed := Text.strip pattern
  let chars := trimmed.toList
  if trimmed = "" then trimmed
  else if 2 ≤ chars.length ∧ chars.head? = some quote ∧ chars.getLast? = some quote then trimmed
  else if Regex.hits (FTS5_OPERATOR_RE isWord) trimmed ≠ [] ∨ '(' ∈ chars ∨ ')' ∈ chars then
    trimmed
  else if chars.any PROBLEM_CHARS.contains ∨ chars.head? = some '-' ∨ chars.getLast? = some '-' then
    quoted (chars.flatMap fun c => if c = quote then [quote, quote] else [c])
  else trimmed

/-! ## `LIKE` -/

inductive LikeToken
  | any
  | one
  | letter (c : Char)
  /-- An escape character at the end, which nothing matches. -/
  | absent

def likeTokens (escape : Option Char) : List Char → List LikeToken
  | [] => []
  | c :: pattern =>
      if c = '%' then .any :: likeTokens escape pattern
      else if some c = escape then
        match pattern with
        | [] => [.absent]
        | d :: rest => .letter d :: likeTokens escape rest
      else (if c = '_' then .one else .letter c) :: likeTokens escape pattern

def likeMatches : List LikeToken → List Char → Bool
  | [], text => text = []
  | .any :: tokens, text => text.tails.any (likeMatches tokens)
  | .one :: tokens, _ :: text => likeMatches tokens text
  | .letter c :: tokens, d :: text => c.toLower = d.toLower && likeMatches tokens text
  | _, _ => false

/-- `text LIKE pattern`; the case of ASCII letters does not count. -/
def like (escape : Option Char) (pattern text : String) : Bool :=
  likeMatches (likeTokens escape pattern.toList) text.toList

def escapeLike (term : String) : String :=
  String.ofList (term.toList.flatMap fun c =>
    if c = '\\' ∨ c = '%' ∨ c = '_' then ['\\', c] else [c])

/-- `LOWER(content) LIKE ? ESCAPE '\'`, with the escaped term between two `%`. -/
def likeTerm (content term : String) : Bool :=
  like (some '\\') ("%" ++ escapeLike term ++ "%") content

def EDGE_PUNCT : List Char :=
  "`'\"()[]\x7b\x7d<>.,:;!?*_+=|\\/-".toList

def normalizeFallbackTerm (lower : String → String) (raw : String) : String :=
  let chars := (Text.strip raw).toList.dropWhile EDGE_PUNCT.contains
  lower (String.ofList (chars.reverse.dropWhile EDGE_PUNCT.contains).reverse)

/-- The terms of `build_like_search_plan`; each has one clause and one pattern. -/
def likeTerms (lower : String → String) (query : String) : List String :=
  let terms := (((Regex.hits RAW_TERM_RE query).map fun s =>
    normalizeFallbackTerm lower (String.ofList (rawTerm s))).filter (· ≠ "")).eraseDups
  if terms = [] then [normalizeFallbackTerm lower query].filter (· ≠ "") else terms

/-- The earliest match of a term, and the length of the first term that has it. -/
def earliestMatch (haystack : String) (terms : List String) : Option (Nat × Nat) :=
  terms.foldl
    (fun best term =>
      match Text.find haystack term with
      | none => best
      | some i => if best.all (i < ·.1) then some (i, term.length) else best)
    none

def createFallbackSnippet (lower : String → String) (content : String) (terms : List String) :
    String :=
  match earliestMatch (lower content) terms with
  | none =>
      let head := Text.strip content
      if head.length ≤ 80 then head
      else String.ofList (Text.stripRight (head.toList.take 77)) ++ "..."
  | some (i, length) =>
      let start := i - 24
      let stop := min content.length (i + max length 1 + 40)
      (if 0 < start then "..." else "") ++
        String.ofList (Text.stripChars ((content.toList.take stop).drop start)) ++
        (if stop < content.length then "..." else "")

/-! ## CJK queries -/

def extractCjkSegments (query : String) : List (List Char) :=
  Regex.hits (run isCjkSegment) query

/-- `[a-zA-Z0-9][\w./\-]*` -/
def LATIN_QUERY_TOKEN_RE (isWord : Char → Bool) : Regex :=
  .seq (.char isAsciiAlnum) (.star (.char fun c => isWord c || c = '.' || c = '/' || c = '-'))

def extractLatinTokens (lower : String → String) (isWord : Char → Bool) (query : String) :
    List String :=
  ((Regex.hits (LATIN_QUERY_TOKEN_RE isWord) query).map fun s => lower (String.ofList s)).eraseDups

def splitCjkChunks (size : Nat) (text : List Char) : List (List Char) :=
  ((List.range (text.length + 1 - size)).map fun i => (text.drop i).take size).eraseDups

def hasShortCjkSegment (query : String) : Bool :=
  (extractCjkSegments query).any fun s => s.length < 3

/-- One group for each segment, of its chunks of four characters. -/
def cjkTrigramExpression (segments : List (List Char)) : String :=
  " AND ".intercalate (segments.map fun s =>
    let terms := if s.length ≤ 4 then [s] else splitCjkChunks 4 s
    "(" ++ " OR ".intercalate (terms.map quoted) ++ ")")

/-- The terms of a segment, of which `LIKE` must find one. -/
def cjkLikeTerms (segment : List Char) : List String :=
  (if segment.length ≤ 2 then [segment] else splitCjkChunks 2 segment).map String.ofList

/-! ## The indexed content of a message -/

/-- The lines after `Exploration Summary:`; a line that refers to a tool is skipped. -/
def summaryLines : Bool → List String → List String
  | _, [] => []
  | inSummary, line :: lines =>
      if line = "Exploration Summary:" then summaryLines true lines
      else if Text.startsWith line "Use lcm_describe" then summaryLines inSummary lines
      else if inSummary then line :: summaryLines inSummary lines
      else summaryLines inSummary lines

def normalizeMessageContentForFullTextIndex (content : String) : Option String :=
  let trimmed := Text.strip content
  if trimmed = "" then none
  else if !(Text.startsWith trimmed "[LCM File:" || Text.startsWith trimmed "[LCM Tool Output:")
    then some content
  else
    let lines := ((Text.splitLines trimmed.toList).map fun raw =>
      String.ofList (Text.stripChars raw)).filter (· ≠ "")
    match lines with
    | [] => none
    | header :: rest => some ("\n".intercalate (header :: summaryLines false rest))

/-! ## Patterns that are refused -/

/-- `(\+|\*|\?)\)(\+|\*|\?|\{\d)`, of the messages. -/
def MESSAGE_REDOS_RE : Regex :=
  let repeats (c : Char) : Bool := c = '+' || c = '*' || c = '?'
  .seq (.char repeats) (.seq (.char (· = ')'))
    (.alt (.char repeats) (.seq (.char (· = '\x7b')) (.char Text.isDigit))))

/-- `[+*?]\)[+*?{]`, of the summaries. -/
def REGEX_REDOS_PATTERN : Regex :=
  let repeats (c : Char) : Bool := c = '+' || c = '*' || c = '?'
  .seq (.char repeats) (.seq (.char (· = ')')) (.char fun c => repeats c || c = '\x7b'))

def REGEX_PATTERN_MAX_LEN : Nat := 500

/-- The pattern is not searched for. -/
def refusesPattern (redos : Regex) (pattern : String) : Bool :=
  REGEX_PATTERN_MAX_LEN < pattern.length || Regex.hits redos pattern ≠ []

end LosslessHermes.FullText
