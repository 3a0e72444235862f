import LosslessHermes.Library.Regex
import LosslessHermes.Library.Text
import LosslessHermes.Ingest.Encode

/-!
# The ingest payload guard

Base64 payloads of a message are moved to large files before the message is
stored, and a placeholder with the file id takes their place. The outcome of
each write of a large file is given by `externalize`: the id of the new file,
or nothing when the write fails and the payload stays where it is.
-/

namespace LosslessHermes

open Json (get? setField)

/-! ## Patterns -/

/-- A slash, also where it is escaped in JSON. -/
def jsonEscapedSlash : Regex :=
  .alt (foldedLiteral "/") (.alt (foldedLiteral "\\/") (foldedLiteral "\\u002f"))

def dataUriMinPayloadChars : Nat := 256

def genericBase64MinChars : Nat := 4096

def dataUriBase64Re : Regex :=
  .seq (foldedLiteral "data:")
    (.seq (.star (.alt (.char (foldedClass ['.', '+', '-'])) jsonEscapedSlash))
      (.seq
        (.star
          (.seq (foldedLiteral ";")
            (.seq (Regex.atLeast (.char (foldedClass ['_', '.', '+', '%', '-'])) 1)
              (.seq (foldedLiteral "=")
                (.star
                  (.alt (.char (foldedClass ['-', '_', '.', '+', '%'])) jsonEscapedSlash))))))
        (.seq (foldedLiteral ";base64,")
          (.seq
            (Regex.atLeast (.alt (.char (foldedClass ['+', '='])) jsonEscapedSlash)
              dataUriMinPayloadChars)
            (.ahead fun next => !(next.any (foldedClass ['+', '/', '='])))))))

def isBase64RunChar (c : Char) : Bool :=
  isAsciiAlnum c || ['+', '/', '=', '_', '-'].contains c

def base64RunRe : Regex :=
  .seq (.behind fun last => !(last.any isBase64RunChar))
    (.seq (Regex.atLeast (.char isBase64RunChar) genericBase64MinChars)
      (.ahead fun next => !(next.any isBase64RunChar)))

/-- The conservative test that a run of base64 characters is a payload. -/
def looksLikeLongBase64 (text : List Char) : Bool :=
  let compact := text.filter fun c => !Text.isSpace c
  let alphabet := text.countP fun c => isAsciiAlnum c || ['+', '/', '=', '_', '-'].contains c
  genericBase64MinChars ≤ text.length && genericBase64MinChars ≤ compact.length &&
    compact.length % 4 ≠ 1 &&
    text.all (fun c => isBase64RunChar c || Text.isSpace c) &&
    98 * max 1 text.length ≤ 100 * alphabet &&
    8 ≤ ((compact.reverse.dropWhile (· = '=')).reverse.dedup).length

/-! ## Placeholders -/

/-- Thousands separators, on the reversed decimal digits. -/
def groupDigits : List Char → List Char
  | a :: b :: c :: d :: rest => a :: b :: c :: ',' :: groupDigits (d :: rest)
  | digits => digits

def formatInt (value : Nat) : List Char :=
  (groupDigits (Nat.toDigits 10 value).reverse).reverse

def stripOr (text default : List Char) : List Char :=
  if Text.stripChars text = [] then default else Text.stripChars text

/-- The lines of the reference, joined by line breaks. -/
def formatRawPayloadReference (fileId role : List Char) (byteSize : Nat)
    (reason summary : List Char) : List Char :=
  "[LCM Raw Payload: ".toList ++ fileId ++ " | role=".toList ++
    stripOr role "unknown".toList ++ " | reason=".toList ++
    stripOr reason "large_raw_message".toList ++ " | ".toList ++ formatInt byteSize ++
    " bytes]\n\nExploration Summary:\n".toList ++
    stripOr summary "(no summary available)".toList ++
    "\n\nUse lcm_describe with the file id to inspect the full payload.".toList

def externalizedSummary (reason : List Char) (byteSize : Nat) : List Char :=
  "Externalized at ingest: ".toList ++ reason ++ ". ".toList ++ Nat.toDigits 10 byteSize ++
    (" bytes moved out of SQLite to keep the messages table, FTS shadow, WAL, and backups " ++
      "compact.").toList

/-! ## Replacement -/

section Guard

variable (externalize : Nat → Option String) (role : String)

/-- `_externalize_payload(..) or payload`, for the next write of a large file. -/
def externalizePayload (reason : String) (payload : List Char) (attempt : Nat) :
    List Char × Nat :=
  let byteSize := (String.ofList payload).utf8ByteSize
  match externalize attempt with
  | some fileId =>
      (formatRawPayloadReference fileId.toList role.toList byteSize reason.toList
        (externalizedSummary reason.toList byteSize), attempt + 1)
  | none => (payload, attempt + 1)

/-- `pattern.sub`, with the number of writes so far. -/
def replaceHits (replace : List Char → Nat → List Char × Nat) :
    List Regex.Piece → Nat → List Char × Nat
  | [], attempt => ([], attempt)
  | .text c :: pieces, attempt =>
      let rest := replaceHits replace pieces attempt
      (c :: rest.1, rest.2)
  | .hit payload :: pieces, attempt =>
      let replaced := replace payload attempt
      let rest := replaceHits replace pieces replaced.2
      (replaced.1 ++ rest.1, rest.2)

def replaceBase64Run (payload : List Char) (attempt : Nat) : List Char × Nat :=
  if looksLikeLongBase64 payload then
    externalizePayload externalize role "inline_base64_run" payload attempt
  else (payload, attempt)

def protectText (text : String) (attempt : Nat) : String × Nat :=
  let withoutUris := replaceHits (externalizePayload externalize role "data_uri_base64")
    (dataUriBase64Re.split text.toList) attempt
  let withoutRuns := replaceHits (replaceBase64Run externalize role)
    (base64RunRe.split withoutUris.1) withoutUris.2
  (String.ofList withoutRuns.1, withoutRuns.2)

mutual

def protectValue : Json → Nat → Json × Nat
  | .str text, attempt =>
      let protectedText := protectText externalize role text attempt
      (.str protectedText.1, protectedText.2)
  | .arr items, attempt =>
      let rest := protectItems items attempt
      (.arr rest.1, rest.2)
  | .obj fields, attempt =>
      let rest := protectFields fields attempt
      (.obj rest.1, rest.2)
  | .null, attempt => (.null, attempt)
  | .bool b, attempt => (.bool b, attempt)
  | .int n, attempt => (.int n, attempt)
  | .float x, attempt => (.float x, attempt)

def protectItems : List Json → Nat → List Json × Nat
  | [], attempt => ([], attempt)
  | v :: items, attempt =>
      let head := protectValue v attempt
      let rest := protectItems items head.2
      (head.1 :: rest.1, rest.2)

def protectFields : List (String × Json) → Nat → List (String × Json) × Nat
  | [], attempt => ([], attempt)
  | (k, v) :: fields, attempt =>
      let head := protectValue v attempt
      let rest := protectFields fields head.2
      ((k, head.1) :: rest.1, rest.2)

end
end Guard

/-- The role a placeholder shows. -/
def guardRole (message : Message) : String :=
  match get? message "role" with
  | some (.str role) => if role = "" then "unknown" else role
  | _ => "unknown"

def protectContent (externalize : Nat → Option String) (role : String) (message : Message) :
    Message × Nat :=
  match get? message "content" with
  | none => (message, 0)
  | some .null => (message, 0)
  | some content =>
      let value := protectValue externalize role content 0
      (setField message "content" value.1, value.2)

def protectToolCalls (externalize : Nat → Option String) (role : String) (message : Message)
    (attempt : Nat) : Message :=
  match get? message "tool_calls" with
  | some calls =>
      if calls.isTruthy then
        setField message "tool_calls" (protectValue externalize role calls attempt).1
      else message
  | none => message

def protectMessageForIngest (externalize : Nat → Option String) (message : Message) : Message :=
  let guarded := protectContent externalize (guardRole message) message
  protectToolCalls externalize (guardRole message) guarded.1 guarded.2

/-! ## What the guard leaves alone -/

theorem get?_protectContent (externalize : Nat → Option String) (role : String)
    (message : Message) {key : String} (h : key ≠ "content") :
    get? (protectContent externalize role message).1 key = get? message key := by
  unfold protectContent
  split
  · rfl
  · rfl
  · exact Json.get?_setField_of_ne message h _

theorem get?_protectToolCalls (externalize : Nat → Option String) (role : String)
    (message : Message) (attempt : Nat) {key : String} (h : key ≠ "tool_calls") :
    get? (protectToolCalls externalize role message attempt) key = get? message key := by
  unfold protectToolCalls
  split
  · split
    · exact Json.get?_setField_of_ne message h _
    · rfl
  · rfl

/-- The guard rewrites the content and the tool calls of a message only. -/
theorem get?_protectMessageForIngest (externalize : Nat → Option String) (message : Message)
    {key : String} (hContent : key ≠ "content") (hCalls : key ≠ "tool_calls") :
    get? (protectMessageForIngest externalize message) key = get? message key := by
  unfold protectMessageForIngest
  dsimp only
  rw [get?_protectToolCalls _ _ _ _ hCalls, get?_protectContent _ _ _ hContent]

/-- The content of a message that is one text. -/
theorem protectMessageForIngest_text {externalize : Nat → Option String} {message : Message}
    {text : String} (h : get? message "content" = some (.str text)) :
    get? (protectMessageForIngest externalize message) "content" =
      some (.str (protectText externalize (guardRole message) text 0).1) := by
  unfold protectMessageForIngest
  dsimp only
  rw [get?_protectToolCalls _ _ _ _ (by decide)]
  simp only [protectContent, h, protectValue, Json.get?_setField_self]

/-! ## A text that is one data URI -/

theorem split_base64Run_of_not_run {c : Char} (h : isBase64RunChar c = false) (s : List Char) :
    ∃ pieces, base64RunRe.split (c :: s) = .text c :: pieces := by
  have hRun : Regex.run base64RunRe (none, c :: s) = [] := by
    simp only [base64RunRe, Regex.run, Option.any_none, Bool.not_false, if_true,
      List.flatMap_cons, List.flatMap_nil, List.append_nil]
    change List.flatMap _ (List.flatMap _ (Regex.run (.char isBase64RunChar) (none, c :: s))) = []
    simp [Regex.run, h]
  refine ⟨Regex.splitFrom base64RunRe s.length (some c, s), ?_⟩
  unfold Regex.split
  rw [List.length_cons, Regex.splitFrom, hRun]
  rfl

theorem formatRawPayloadReference_head (fileId role : List Char) (byteSize : Nat)
    (reason summary : List Char) :
    ∃ rest, formatRawPayloadReference fileId role byteSize reason summary = '[' :: rest := by
  have hHead : "[LCM Raw Payload: ".toList = '[' :: "LCM Raw Payload: ".toList := by decide
  unfold formatRawPayloadReference
  simp only [List.append_assoc]
  rw [hHead]
  exact ⟨_, rfl⟩

/-- What remains of the text is the placeholder, which opens with a bracket. -/
theorem protectText_dataUri {externalize : Nat → Option String} {role fileId : String}
    {payload : List Char} {attempt : Nat} (hFile : externalize attempt = some fileId)
    (hSplit : dataUriBase64Re.split payload = [.hit payload]) :
    ∃ rest, (protectText externalize role (String.ofList payload) attempt).1 =
      String.ofList ('[' :: rest) := by
  obtain ⟨placeholder, hPlaceholder⟩ := formatRawPayloadReference_head fileId.toList role.toList
    (String.ofList payload).utf8ByteSize "data_uri_base64".toList
    (externalizedSummary "data_uri_base64".toList (String.ofList payload).utf8ByteSize)
  have hPayload : externalizePayload externalize role "data_uri_base64" payload attempt =
      ('[' :: placeholder, attempt + 1) := by
    simp only [externalizePayload, hFile, hPlaceholder]
  obtain ⟨pieces, hPieces⟩ := split_base64Run_of_not_run (by decide : isBase64RunChar '[' = false)
    placeholder
  unfold protectText
  simp only [String.toList_ofList, hSplit, replaceHits, hPayload, List.append_nil, hPieces]
  exact ⟨_, rfl⟩

end LosslessHermes
