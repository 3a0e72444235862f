import LosslessHermes.Ingest.GuardPatterns
import LosslessHermes.Library.Substring
import Mathlib.Algebra.GroupWithZero.Nat

/-!
# Placeholders of externalized payloads

A placeholder shows the file id, the role, the reason and the size. Another file id does not occur
in it (`not_infix_placeholder`), so it is found by its own, and it holds no oversized payload
unless the role does (`clean_placeholder`).
-/

namespace LosslessHermes

/-- A payload that was moved to a large file. -/
structure Externalized where
  fileId : String
  reason : String
  payload : List Char

namespace Externalized

def byteSize (r : Externalized) : Nat :=
  (String.ofList r.payload).utf8ByteSize

/-- What stands in the place of the payload. -/
def placeholder (role : String) (r : Externalized) : List Char :=
  formatRawPayloadReference r.fileId.toList role.toList r.byteSize r.reason.toList
    (externalizedSummary r.reason.toList r.byteSize)

end Externalized

/-- `"file_" + secrets.token_hex(8)` -/
def IsFileId (fileId : List Char) : Prop :=
  ∃ hex : List Char, fileId = 'f' :: ("ile_".toList ++ hex) ∧ hex.length = 16 ∧
    ∀ c ∈ hex, c ∈ "0123456789abcdef".toList

def IsReason (reason : String) : Prop :=
  reason = "data_uri_base64" ∨ reason = "inline_base64_run"

/-- The role as a placeholder shows it. -/
def shownRole (role : String) : List Char :=
  "role=".toList ++ stripOr role.toList "unknown".toList

/-! ## File ids -/

variable {fileId : List Char}

theorem IsFileId.length (h : IsFileId fileId) : fileId.length = 21 := by
  obtain ⟨hex, rfl, hLength, -⟩ := h
  rw [List.length_cons, List.length_append, hLength]
  rfl

variable {c : Char}

theorem IsFileId.not_mem (h : IsFileId fileId)
    (hChar : c ∉ "file_0123456789abcdef".toList) : c ∉ fileId := by
  obtain ⟨hex, rfl, -, hHex⟩ := h
  intro hMem
  rcases List.mem_append.mp (show c ∈ "file_".toList ++ hex from hMem) with hMem | hMem
  · exact hChar (List.mem_append_left "0123456789abcdef".toList hMem)
  · exact hChar (List.mem_append_right "file_".toList (hHex c hMem))

theorem IsFileId.mark (h : IsFileId fileId) :
    "file_".toList <:+: fileId := by
  obtain ⟨hex, rfl, -, -⟩ := h
  exact (List.prefix_append "file_".toList hex).isInfix

/-- One file id lies in another only if it is the same. -/
theorem IsFileId.eq_of_inside {fileId' : List Char} (h : IsFileId fileId)
    (h' : IsFileId fileId') (hInfix : fileId <:+: fileId') : fileId = fileId' :=
  hInfix.eq_of_length (h.length.trans h'.length.symm)

/-! ## Sizes -/

theorem length_groupDigits (digits : List Char) :
    (groupDigits digits).length ≤ 2 * digits.length := by
  fun_induction groupDigits digits with
  | case1 a b c d rest ih =>
    simp only [List.length_cons] at ih ⊢
    omega
  | case2 digits _ => omega

theorem mem_groupDigits {digits : List Char} (h : c ∈ groupDigits digits) :
    c ∈ digits ∨ c = ',' := by
  fun_induction groupDigits digits with
  | case1 a b d e rest ih =>
    simp only [List.mem_cons] at h ih ⊢
    rcases h with h | h | h | h | h
    · exact Or.inl (Or.inl h)
    · exact Or.inl (Or.inr (Or.inl h))
    · exact Or.inl (Or.inr (Or.inr (Or.inl h)))
    · exact Or.inr h
    · exact (ih h).imp (fun hRest => Or.inr (Or.inr (Or.inr hRest))) id
  | case2 digits _ => exact Or.inl h

theorem length_formatInt (value : Nat) :
    (formatInt value).length ≤ 2 * (Nat.toDigits 10 value).length := by
  have hLength := length_groupDigits (Nat.toDigits 10 value).reverse
  rw [List.length_reverse] at hLength
  unfold formatInt
  rwa [List.length_reverse]

theorem isDigit_or_of_mem_formatInt {value : Nat} (h : c ∈ formatInt value) :
    c.isDigit = true ∨ c = ',' := by
  rcases mem_groupDigits (List.mem_reverse.mp h) with hMem | hComma
  · exact Or.inl (Nat.isDigit_of_mem_toDigits (by decide) (by decide) (List.mem_reverse.mp hMem))
  · exact Or.inr hComma

/-- `sys.maxsize`, which bounds the length of a text. -/
def maxTextLength : Nat := 2 ^ 63 - 1

theorem utf8ByteSize_ofList_le (text : List Char) :
    (String.ofList text).utf8ByteSize ≤ 4 * text.length := by
  induction text with
  | nil => rfl
  | cons c text ih =>
    have hSplit : String.ofList (c :: text) = String.singleton c ++ String.ofList text := by
      rw [String.singleton_eq_ofList, ← String.ofList_append, List.singleton_append]
    have hChar := c.utf8Size_le_four
    rw [hSplit, String.utf8ByteSize_append, String.utf8ByteSize_singleton, List.length_cons]
    omega

variable {r : Externalized}

theorem length_byteSize (h : r.payload.length ≤ maxTextLength) :
    (Nat.toDigits 10 r.byteSize).length ≤ 20 := by
  have hSize := utf8ByteSize_ofList_le r.payload
  refine (Nat.length_toDigits_le_iff (by decide) (by decide)).mpr ?_
  unfold Externalized.byteSize
  unfold maxTextLength at h
  omega

/-! ## The parts of a placeholder -/

/-- What stands between the role and the size. -/
def shownReason (reason : String) : List Char :=
  "| reason=".toList ++ reason.toList ++ " |".toList

def shownSummary (reason : String) : List Char :=
  "bytes]\n\nExploration Summary:\nExternalized at ingest: ".toList ++ reason.toList ++ ".".toList

def shownTail : List Char :=
  ("bytes moved out of SQLite to keep the messages table, FTS shadow, WAL, and backups " ++
    "compact.").toList ++ "\n\nUse lcm_describe with the file id to inspect the full".toList

theorem stripChars_eq_self {d : Char} {text : List Char} (hFirst : Text.isSpace c = false)
    (hLast : Text.isSpace d = false) :
    Text.stripChars (c :: (text ++ [d])) = c :: (text ++ [d]) := by
  have hReverse : (c :: (text ++ [d])).reverse = d :: (text.reverse ++ [c]) := by simp
  unfold Text.stripChars
  rw [List.dropWhile_cons_of_neg (by simp [hFirst]), hReverse,
    List.dropWhile_cons_of_neg (by simp [hLast]), ← hReverse, List.reverse_reverse]

theorem stripOr_externalizedSummary (reason : List Char) (byteSize : Nat) (default : List Char) :
    stripOr (externalizedSummary reason byteSize) default =
      externalizedSummary reason byteSize := by
  have hSplit : ∃ text, externalizedSummary reason byteSize = 'E' :: (text ++ ['.']) := by
    refine ⟨"xternalized at ingest: ".toList ++ reason ++ ". ".toList ++ Nat.toDigits 10 byteSize ++
      (" bytes moved out of SQLite to keep the messages table, FTS shadow, WAL, and backups " ++
        "compact").toList, ?_⟩
    unfold externalizedSummary
    simp only [List.append_assoc]
    rfl
  obtain ⟨text, hText⟩ := hSplit
  unfold stripOr
  rw [hText, stripChars_eq_self (by decide) (by decide), if_neg (List.cons_ne_nil _ _)]

variable {role : String}

/-- The blanks of a placeholder. -/
theorem placeholder_eq (hReason : IsReason r.reason) :
    r.placeholder role = '[' :: ("LCM Raw Payload:".toList ++ ' ' :: (r.fileId.toList ++
      ' ' :: ("|".toList ++ ' ' :: (shownRole role ++ ' ' :: (shownReason r.reason ++
      ' ' :: (formatInt r.byteSize ++ ' ' :: (shownSummary r.reason ++
      ' ' :: (Nat.toDigits 10 r.byteSize ++ ' ' :: (shownTail ++ ' ' :: "payload.".toList))))))))) := by
  have hStrip : stripOr r.reason.toList "large_raw_message".toList = r.reason.toList := by
    rcases hReason with hReason | hReason
    · rw [hReason]
      decide
    · rw [hReason]
      decide
  unfold Externalized.placeholder formatRawPayloadReference shownRole shownReason shownSummary
    shownTail
  rw [hStrip, stripOr_externalizedSummary]
  have hHead : "[LCM Raw Payload: ".toList = '[' :: ("LCM Raw Payload:".toList ++ [' ']) := by decide
  have hRole : " | role=".toList = ' ' :: ("|".toList ++ ' ' :: "role=".toList) := by decide
  have hReasonHead : " | reason=".toList = ' ' :: "| reason=".toList := by decide
  have hBar : " | ".toList = " |".toList ++ [' '] := by decide
  have hBytes : " bytes]\n\nExploration Summary:\n".toList =
      ' ' :: "bytes]\n\nExploration Summary:\n".toList := by decide
  have hSummary : "bytes]\n\nExploration Summary:\nExternalized at ingest: ".toList =
      "bytes]\n\nExploration Summary:\n".toList ++ "Externalized at ingest: ".toList := by decide
  have hDot : ". ".toList = ".".toList ++ [' '] := by decide
  have hMoved :
      (" bytes moved out of SQLite to keep the messages table, FTS shadow, WAL, and backups " ++
        "compact.").toList = ' ' ::
      ("bytes moved out of SQLite to keep the messages table, FTS shadow, WAL, and backups " ++
        "compact.").toList := by decide +kernel
  have hUse : "\n\nUse lcm_describe with the file id to inspect the full payload.".toList =
      "\n\nUse lcm_describe with the file id to inspect the full".toList ++
        ' ' :: "payload.".toList := by decide
  unfold externalizedSummary
  rw [hHead, hRole, hReasonHead, hBar, hBytes, hSummary, hDot, hMoved, hUse]
  simp only [List.append_assoc, List.cons_append, List.nil_append]

/-! ## Other file ids -/

section OtherIds

variable {fileId : List Char} (hId : IsFileId fileId)
include hId

theorem not_infix_of_mark {text : List Char} (h : ¬ "file_".toList <:+: text) :
    ¬ fileId <:+: text :=
  fun hInfix => h (hId.mark.trans hInfix)

theorem not_infix_of_digits {text : List Char} (h : ∀ c ∈ text, c.isDigit = true ∨ c = ',') :
    ¬ fileId <:+: text := by
  intro hInfix
  obtain ⟨hex, rfl, -⟩ := hId
  rcases h 'f' (hInfix.subset List.mem_cons_self) with hDigit | hComma
  · cases hDigit
  · cases hComma

theorem not_infix_shownRole {role : String} (h : ¬ fileId <:+: role.toList) :
    ¬ fileId <:+: shownRole role := by
  have hCut : shownRole role = "role".toList ++ '=' :: stripOr role.toList "unknown".toList := rfl
  rw [hCut, Substring.infix_append_cons (hId.not_mem (by decide)), not_or]
  refine ⟨not_infix_of_mark hId (by decide), ?_⟩
  unfold stripOr
  split
  · exact not_infix_of_mark hId (by decide)
  · exact fun hInfix => h (hInfix.trans (Text.stripChars_inside role.toList))

/-- No other file id occurs in a placeholder. -/
theorem not_infix_placeholder {role : String} {r : Externalized} (hReason : IsReason r.reason)
    (hOwn : IsFileId r.fileId.toList) (hNe : fileId ≠ r.fileId.toList)
    (hRole : ¬ fileId <:+: role.toList) {u v : List Char} (hBefore : ¬ fileId <:+: u)
    (hAfter : ¬ fileId <:+: v) : ¬ fileId <:+: u ++ (r.placeholder role ++ v) := by
  have hBlank : ' ' ∉ fileId := hId.not_mem (by decide)
  have hReasonParts : ¬ fileId <:+: shownReason r.reason ∧ ¬ fileId <:+: shownSummary r.reason := by
    rcases hReason with hReason | hReason
    · rw [hReason]
      exact ⟨not_infix_of_mark hId (by decide), not_infix_of_mark hId (by decide +kernel)⟩
    · rw [hReason]
      exact ⟨not_infix_of_mark hId (by decide), not_infix_of_mark hId (by decide +kernel)⟩
  have hSize : ¬ fileId <:+: Nat.toDigits 10 r.byteSize := not_infix_of_digits hId fun c hMem =>
    Or.inl (Nat.isDigit_of_mem_toDigits (by decide) (by decide) hMem)
  have hEnd : "payload.".toList ++ v = "payload".toList ++ '.' :: v := rfl
  rw [placeholder_eq hReason]
  simp only [List.append_assoc, List.cons_append]
  rw [hEnd, Substring.infix_append_cons (hId.not_mem (by decide))]
  simp only [Substring.infix_append_cons hBlank,
    Substring.infix_append_cons (hId.not_mem (by decide : '.' ∉ _)), not_or]
  exact ⟨hBefore, not_infix_of_mark hId (by decide), fun h => hNe (hId.eq_of_inside hOwn h),
    not_infix_of_mark hId (by decide), not_infix_shownRole hId hRole, hReasonParts.1,
    not_infix_of_digits hId fun c => isDigit_or_of_mem_formatInt, hReasonParts.2, hSize,
    not_infix_of_mark hId (by decide +kernel), not_infix_of_mark hId (by decide), hAfter⟩

end OtherIds

/-! ## Clean placeholders -/

/-- The last word of a placeholder begins no data URI. -/
theorem never_payload {text : List Char} (h : Regex.Never dataUriBase64Re text) :
    Regex.Never dataUriBase64Re ("payload.".toList ++ text) := by
  have hCons : ∀ {c : Char} {rest : List Char}, foldCase c ≠ 'd' →
      Regex.Never dataUriBase64Re rest → Regex.Never dataUriBase64Re (c :: rest) :=
    fun hHead hRest => (Regex.never_cons blind_dataUriBase64Re).mpr ⟨dataUri_head hHead _ _, hRest⟩
  have hTail : Regex.Never dataUriBase64Re ('d' :: '.' :: text) :=
    (Regex.never_cons blind_dataUriBase64Re).mpr
      ⟨dataUri_second (by decide) _ _ _, hCons (by decide) h⟩
  exact hCons (by decide) (hCons (by decide) (hCons (by decide) (hCons (by decide)
    (hCons (by decide) (hCons (by decide) hTail)))))

/-- What a placeholder needs to be clean. -/
structure CleanRecord (role : String) (r : Externalized) : Prop where
  reason : IsReason r.reason
  fileId : IsFileId r.fileId.toList
  size : r.payload.length ≤ maxTextLength
  role : Clean (shownRole role)

/-- The role is the only part of a placeholder that may hold a payload. -/
theorem clean_placeholder (h : CleanRecord role r) :
    Clean (r.placeholder role) := by
  have hShort : ∀ {text : List Char}, text.length < 256 → Clean text := clean_of_length
  have hReasonParts : Clean (shownReason r.reason) ∧ Clean (shownSummary r.reason) := by
    rcases h.reason with hReason | hReason
    · rw [hReason]
      exact ⟨hShort (by decide), hShort (by decide +kernel)⟩
    · rw [hReason]
      exact ⟨hShort (by decide), hShort (by decide +kernel)⟩
  have hDigits := length_byteSize h.size
  have hFormat := length_formatInt r.byteSize
  rw [placeholder_eq h.reason, ← List.nil_append ('[' :: _)]
  simp only [clean_append (Or.inl rfl), clean_append (Or.inr rfl : '[' = ' ' ∨ '[' = '[')]
  exact ⟨hShort (by decide), hShort (by decide), hShort (by rw [h.fileId.length]; decide),
    hShort (by decide), h.role, hReasonParts.1, hShort (by omega), hReasonParts.2,
    hShort (by omega), hShort (by decide +kernel), hShort (by decide)⟩

/-- A clean placeholder makes no data URI with what stands around it. -/
theorem never_placeholder (h : CleanRecord role r)
    {u v : List Char} (hBefore : Regex.Never dataUriBase64Re u)
    (hAfter : Regex.Never dataUriBase64Re v) :
    Regex.Never dataUriBase64Re (u ++ (r.placeholder role ++ v)) := by
  have hBlank : Regex.Delimiter ' ' dataUriBase64Re := delimiter_dataUriBase64Re (Or.inl rfl)
  have hBracket : Regex.Delimiter '[' dataUriBase64Re := delimiter_dataUriBase64Re (Or.inr rfl)
  have hAlone := (clean_placeholder h).uris
  rw [placeholder_eq h.reason, ← List.nil_append ('[' :: _)] at hAlone
  rw [placeholder_eq h.reason]
  simp only [List.append_assoc, List.cons_append]
  simp only [Regex.never_append proper_dataUriBase64Re hBlank,
    Regex.never_append proper_dataUriBase64Re hBracket] at hAlone ⊢
  obtain ⟨-, hHead, hId, hBar, hRole, hReason, hSize, hSummary, hDigits, hTail, -⟩ := hAlone
  exact ⟨hBefore, hHead, hId, hBar, hRole, hReason, hSize, hSummary, hDigits, hTail,
    never_payload hAfter⟩

end LosslessHermes
