import LosslessHermes.Compaction.Passes
import LosslessHermes.Library.Json
import LosslessHermes.Library.Regex
import Mathlib.Data.List.Infix

/-!
# What the summarizer gets to see

The sanitiser between stored rows and the source text of a leaf pass: media
payloads, media paths, base64 lines and reasoning blocks are taken out of a
message, and a message with an attachment is marked as such. What is left may be
nothing.

`sanitizer` is the sanitiser as the `SourceText` of a pass. The form in which a
float is read, the timestamps and the file ids do not matter for what is left and
are parameters.
-/

namespace LosslessHermes.Compaction

open Json (get?)

/-! ## Media payloads in a text -/

/-- `[^;\s"'\x60]`. -/
def isMediaTypeChar (c : Char) : Bool :=
  !(c = ';' || Text.isSpace c || c = '"' || c = '\'' || c = '\x60')

/-- `data:<type>;base64,`. -/
def dataUrlHead : Regex :=
  .seq (foldedLiteral "data:")
    (.seq (Regex.atLeast (.char isMediaTypeChar) 1) (foldedLiteral ";base64,"))

def embeddedDataUrlRe : Regex :=
  .seq dataUrlHead
    (Regex.atLeast (.char fun c => foldedClass ['+', '/', '='] c || Text.isSpace c) 1)

def looksLikeBinaryPayload (value : List Char) : Bool :=
  let trimmed := Text.stripChars value
  if trimmed = [] then false
  else if (dataUrlHead.run (none, trimmed)) ≠ [] then true
  else
    let compact := trimmed.filter fun c => !Text.isSpace c
    if compact.length < 256 || compact.length % 4 ≠ 0 then false
    else if !compact.all fun c => isAsciiAlnum c || ['+', '/', '='].contains c then false
    else !trimmed.any fun c => " .,:;!?()[]\x7b\x7d".toList.contains c

/-- `^MEDIA:/.+$` on a stripped line. -/
def isMediaPath (line : List Char) : Bool :=
  "MEDIA:/".toList.isPrefixOf line && 7 < line.length

def omittedMedia : List Char := "[embedded media omitted]".toList

def withoutDataUrls (content : List Char) : List Char :=
  (embeddedDataUrlRe.split content).flatMap fun piece =>
    match piece with
    | .text c => [c]
    | .hit _ => omittedMedia

/-- A line that reaches the summarizer. -/
def keepsLine (line : List Char) : Bool :=
  let trimmed := Text.stripChars line
  trimmed ≠ [] && !isMediaPath trimmed && !looksLikeBinaryPayload trimmed

def stripEmbeddedMediaPayloads (content : String) : String :=
  let lines := (Text.splitLines (withoutDataUrls content.toList)).map Text.stripRight
  Text.strip ("\n".intercalate ((lines.filter keepsLine).map String.ofList))

/-! ## Structured content -/

def providerReasoningRawTypes : List String := ["reasoning", "thinking"]

def mediaAttachmentRawTypes : List String := ["file", "image", "snapshot"]

def structuredMediaTextKeys : List String := ["text", "caption", "alt", "title", "summary"]

def structuredMediaNestedKeys : List String := ["content", "parts", "items", "message", "messages"]

/-- `raw_type in types`, with the raw type stripped and in lower case. -/
def rawTypeIn (types : List String) : Option Json → Bool
  | some (.str rawType) => types.any (Text.isWord rawType ·)
  | _ => false

def nonemptyFragment (text : String) : List String :=
  if text = "" then [] else [text]

/-- `_extract_sanitized_structured_text` with as many levels left as given. -/
def extractSanitizedStructuredText : Nat → Json → List String
  | 0, _ => []
  | levels + 1, value =>
      match value with
      | .str text => nonemptyFragment (stripEmbeddedMediaPayloads text)
      | .arr items => items.flatMap (extractSanitizedStructuredText levels)
      | .obj record =>
          if rawTypeIn providerReasoningRawTypes (get? record "type") then []
          else
            let textFragments := structuredMediaTextKeys.flatMap fun key =>
              match get? record key with
              | some (.str candidate) => nonemptyFragment (stripEmbeddedMediaPayloads candidate)
              | _ => []
            if rawTypeIn mediaAttachmentRawTypes (get? record "type") then textFragments
            else
              textFragments ++ structuredMediaNestedKeys.flatMap fun key =>
                match get? record key with
                | some nested => extractSanitizedStructuredText levels nested
                | none => []
      | _ => []

/-- `_STRUCTURED_TEXT_MAX_DEPTH`. -/
def structuredTextMaxDepth : Nat := 4

/-- Text between matching brackets or braces. -/
def isJsonShaped (trimmed : List Char) : Bool :=
  (trimmed.head? = some '[' && trimmed.getLast? = some ']') ||
    (trimmed.head? = some '\x7b' && trimmed.getLast? = some '\x7d')

section Messages

variable (canonical : FloatText → FloatText)

def extractMeaningfulMessageText (content : String) : String :=
  let trimmed := Text.strip content
  if trimmed = "" then ""
  else
    match if isJsonShaped trimmed.toList then Json.loads canonical trimmed else none with
    | some parsed =>
        let fragments := (extractSanitizedStructuredText structuredTextMaxDepth parsed).map
          Text.strip
        Text.strip ("\n".intercalate (fragments.filter (· ≠ "")))
    | none => stripEmbeddedMediaPayloads content

/-! ## Attachments -/

def mediaAttachmentPartTypes : List MessagePartType := [.file, .snapshot]

/-- The metadata of a part, empty if there is no object. -/
def parseMessagePartMetadata (metadata : Option String) : List (String × Json) :=
  match metadata with
  | none => []
  | some text =>
      if Text.isBlank text then []
      else match Json.loads canonical text with
        | some (.obj parsed) => parsed
        | _ => []

def isMediaAttachmentPart (part : MessagePartRecord) : Bool :=
  if mediaAttachmentPartTypes.contains part.partType then true
  else
    let metadata := parseMessagePartMetadata canonical part.metadata
    match get? metadata "rawType" with
    | some (.str rawType) => rawTypeIn mediaAttachmentRawTypes (some (.str rawType))
    | _ =>
        match get? metadata "raw" with
        | some (.obj raw) => rawTypeIn mediaAttachmentRawTypes (get? raw "type")
        | _ => false

def annotateMediaContent (parts : List MessagePartRecord) (content : String) : String :=
  if !parts.any (isMediaAttachmentPart canonical) then content
  else
    let partTexts :=
      (parts.filter fun part => !isMediaAttachmentPart canonical part).map fun part =>
      Text.strip (stripEmbeddedMediaPayloads (part.textContent.getD ""))
    let partText := Text.strip ("\n".intercalate (partTexts.filter (· ≠ "")))
    let meaningful := Text.strip
      (if partText = "" then extractMeaningfulMessageText canonical content else partText)
    if meaningful = "" then "[Media attachment]"
    else if "[with media attachment]".toList <:+: meaningful.toList then meaningful
    else meaningful ++ " [with media attachment]"

/-- The sanitiser of a pass. -/
def sanitizer (formatTimestamp : Timestamp → String → String)
    (extractFileIdsFromContent : String → List String) : SourceText :=
  { annotateMediaContent := annotateMediaContent canonical
    extractMeaningfulMessageText := extractMeaningfulMessageText canonical
    formatTimestamp := formatTimestamp
    extractFileIdsFromContent := extractFileIdsFromContent }

end Messages

end LosslessHermes.Compaction
