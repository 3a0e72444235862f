import LosslessHermes.Ingest.GuardHeap
import LosslessHermes.Ingest.Restart
import Mathlib.Data.List.Dedup

/-!
# Guarding again

A message without an oversized payload passes the guard as it is. Where every write succeeds and
the role holds no payload, a guarded message is such a message (`clean_protectWithRole`): a
placeholder makes no payload with what stands around it, and a run of base64 characters is
replaced whole.
-/

namespace LosslessHermes

open Json (get? setField)
open Regex (Never Piece matchAt splitFrom split)

/-- No text that the guard scans holds an oversized payload. -/
def NoOversized (message : Message) : Prop :=
  ∀ text ∈ guardedTexts message, Clean text.toList

section Guard

variable {externalize : Nat → Option String} {role : String}

/-! ## Clean messages -/

theorem replaceHits_of_kept {replace : List Char → Nat → List Char × Nat} {pieces : List Piece}
    (h : ∀ payload, Piece.hit payload ∈ pieces →
      ∀ attempt, replace payload attempt = (payload, attempt))
    (attempt : Nat) :
    replaceHits replace pieces attempt = (pieces.flatMap Piece.chars, attempt) := by
  induction pieces with
  | nil => rfl
  | cons piece pieces ih =>
    have hRest := ih fun payload hMem => h payload (List.mem_cons_of_mem piece hMem)
    cases piece with
    | text c =>
      simp only [replaceHits, hRest]
      rfl
    | hit payload =>
      simp only [replaceHits, h payload List.mem_cons_self attempt, hRest]
      rfl

theorem protectText_of_clean {text : String} (h : Clean text.toList) (attempt : Nat) :
    protectText externalize role text attempt = (text, attempt) := by
  have hUris := @replaceHits_of_kept (externalizePayload externalize role "data_uri_base64") _
    (fun payload hMem _ => absurd hMem (h.uris payload)) attempt
  have hRuns := @replaceHits_of_kept (replaceBase64Run externalize role) _
    (fun payload hMem attempt => if_neg (Bool.eq_false_iff.mp (h.runs payload hMem))) attempt
  unfold protectText
  simp only [hUris, Regex.flatten_split, hRuns, String.ofList_toList]

theorem protectValue_of_clean {v : Json} (h : ∀ text ∈ v.texts, Clean text.toList) (attempt : Nat) :
    protectValue externalize role v attempt = (v, attempt) := by
  induction v using Json.induct generalizing attempt with
  | str text =>
    simp only [protectValue, protectText_of_clean (h text (List.mem_singleton.mpr rfl))]
  | arr items ih =>
    have hItems : protectItems externalize role items attempt = (items, attempt) := by
      rw [Json.texts] at h
      induction items generalizing attempt with
      | nil => rfl
      | cons v items ihItems =>
        rw [Json.textsItems] at h
        have hHead := ih v List.mem_cons_self
          (fun text hMem => h text (List.mem_append_left _ hMem)) attempt
        have hTail := ihItems (fun w hMem => ih w (List.mem_cons_of_mem v hMem))
          (fun text hMem => h text (List.mem_append_right _ hMem)) attempt
        simp only [protectItems, hHead, hTail]
    simp only [protectValue, hItems]
  | obj fields ih =>
    have hFields : protectFields externalize role fields attempt = (fields, attempt) := by
      rw [Json.texts] at h
      induction fields generalizing attempt with
      | nil => rfl
      | cons field fields ihFields =>
        rw [Json.textsFields] at h
        have hHead := ih field List.mem_cons_self
          (fun text hMem => h text (List.mem_append_left _ hMem)) attempt
        have hTail := ihFields (fun other hMem => ih other (List.mem_cons_of_mem field hMem))
          (fun text hMem => h text (List.mem_append_right _ hMem)) attempt
        simp only [protectFields, hHead, hTail]
    simp only [protectValue, hFields]
  | _ => rfl

variable {message : Message}

theorem protectContent_of_clean (hKeys : (message.map (·.1)).Nodup)
    (h : ∀ text ∈ contentTexts message, Clean text.toList) :
    protectContent externalize role message = (message, 0) := by
  unfold contentTexts at h
  cases hGet : get? message "content" with
  | none => simp only [protectContent, hGet]
  | some content =>
    rw [hGet] at h
    by_cases hNull : content = .null
    · simp only [protectContent, hGet, hNull]
    · obtain ⟨before, after, hMessage, hSet⟩ := Json.exists_setField_eq hKeys hGet
      rw [protectContent_of_ne_null externalize role hGet hNull, protectValue_of_clean h, hSet,
        ← hMessage]

/-- A message without an oversized payload is returned as it is. -/
theorem protectWithRole_of_noOversized (hKeys : (message.map (·.1)).Nodup)
    (h : NoOversized message) : protectWithRole externalize role message = message := by
  unfold protectWithRole
  rw [protectContent_of_clean hKeys fun text hMem => h text (List.mem_append_left _ hMem)]
  have hCalls : ∀ text ∈ toolCallTexts message, Clean text.toList :=
    fun text hMem => h text (List.mem_append_right _ hMem)
  unfold toolCallTexts at hCalls
  unfold protectToolCalls
  dsimp only
  cases hGet : get? message "tool_calls" with
  | none => rfl
  | some calls =>
    rw [hGet] at hCalls
    dsimp only at hCalls ⊢
    split at hCalls
    · rename_i hTruthy
      obtain ⟨before, after, hMessage, hSet⟩ := Json.exists_setField_eq hKeys hGet
      rw [if_pos hTruthy, protectValue_of_clean hCalls, hSet, ← hMessage]
    · rename_i hFalsy
      rw [if_neg hFalsy]

/-! ## Pieces that are replaced -/

/-- Each payload becomes what is good for it. -/
def HitsReplaced (good : List Char → List Char → Prop)
    (replace : List Char → Nat → List Char × Nat) : List Piece → Nat → Prop
  | [], _ => True
  | .text _ :: pieces, attempt => HitsReplaced good replace pieces attempt
  | .hit payload :: pieces, attempt => good payload (replace payload attempt).1 ∧
      HitsReplaced good replace pieces (replace payload attempt).2

theorem replaceHits_append (replace : List Char → Nat → List Char × Nat) (pieces pieces' : List Piece)
    (attempt : Nat) :
    (replaceHits replace (pieces ++ pieces') attempt).1 =
        (replaceHits replace pieces attempt).1 ++
          (replaceHits replace pieces' (replaceHits replace pieces attempt).2).1 := by
  induction pieces generalizing attempt with
  | nil => rfl
  | cons piece pieces ih =>
    cases piece with
    | text c => simp only [List.cons_append, replaceHits, ih]
    | hit payload => simp only [List.cons_append, replaceHits, ih, List.append_assoc]

variable {replace : List Char → Nat → List Char × Nat} {attempt : Nat}

theorem hitsReplaced_append {good : List Char → List Char → Prop} {pieces pieces' : List Piece}
    (h : HitsReplaced good replace (pieces ++ pieces') attempt) :
    HitsReplaced good replace pieces attempt ∧
      HitsReplaced good replace pieces' (replaceHits replace pieces attempt).2 := by
  induction pieces generalizing attempt with
  | nil => exact ⟨trivial, h⟩
  | cons piece pieces ih =>
    cases piece with
    | text c => exact ih h
    | hit payload => exact ⟨⟨h.1, (ih h.2).1⟩, (ih h.2).2⟩

def IsPlaceholder (role : String) (text : List Char) : Prop :=
  ∃ r, CleanRecord role r ∧ text = r.placeholder role

/-! ## Data URIs of the result -/

theorem matchAt_nil (r : Regex) : matchAt r (none, []) = none := by
  cases hMatch : matchAt r (none, []) with
  | none => rfl
  | some place => cases Regex.length_lt_of_matchAt hMatch

variable {text : List Char}

/-- No data URI begins in the text with what follows, and so none by itself. -/
theorem never_of_followed {before : List Char} (h : ∀ tail, tail ≠ [] → tail <:+ before →
      matchAt dataUriBase64Re (none, tail ++ text) = none) : Never dataUriBase64Re before := by
  refine (Regex.never_iff blind_dataUriBase64Re).mpr fun tail hTail => ?_
  by_cases hNil : tail = []
  · rw [hNil]
    exact matchAt_nil _
  · exact extends_dataUriBase64Re.matchAt_eq_none consumes_one_dataUriBase64Re
      (h tail hNil hTail)

/-- `before` is the text since the last data URI. -/
theorem never_replaceUris {replace : List Char → Nat → List Char × Nat} {fuel : Nat}
    {before text : List Char} {prev : Option Char} {attempt : Nat} (hFuel : text.length ≤ fuel)
    (hBefore : ∀ tail, tail ≠ [] → tail <:+ before →
      matchAt dataUriBase64Re (none, tail ++ text) = none)
    (hReplaced : HitsReplaced (fun _ => IsPlaceholder role) replace
      (splitFrom dataUriBase64Re fuel (prev, text)) attempt) :
    Never dataUriBase64Re (before ++
      (replaceHits replace (splitFrom dataUriBase64Re fuel (prev, text)) attempt).1) := by
  induction fuel generalizing before text prev attempt with
  | zero =>
    rw [List.length_eq_zero_iff.mp (Nat.le_zero.mp hFuel)]
    simpa [splitFrom, replaceHits] using never_of_followed hBefore
  | succ fuel ih =>
    cases text with
    | nil => simpa [splitFrom, replaceHits] using never_of_followed hBefore
    | cons c rest =>
      rw [List.length_cons] at hFuel
      cases hMatch : matchAt dataUriBase64Re (prev, c :: rest) with
      | none =>
        have hHere := (Regex.matchAt_blind blind_dataUriBase64Re prev none).mp hMatch
        have hMore : ∀ tail, tail ≠ [] → tail <:+ before ++ [c] →
            matchAt dataUriBase64Re (none, tail ++ rest) = none := by
          intro tail hNe hTail
          rcases List.suffix_concat_iff.mp hTail with hNil | ⟨more, rfl, hMore⟩
          · exact absurd hNil hNe
          · by_cases hNil : more = []
            · simpa [hNil] using hHere
            · simpa using hBefore more hNil hMore
        rw [Regex.splitFrom_of_none hMatch] at hReplaced ⊢
        have hRest := ih (Nat.le_of_succ_le_succ hFuel) hMore hReplaced
        rwa [List.append_assoc, List.singleton_append] at hRest
      | some place' =>
        have hShorter := Regex.length_lt_of_matchAt hMatch
        rw [List.length_cons] at hShorter
        rw [Regex.splitFrom_of_some hMatch] at hReplaced ⊢
        obtain ⟨⟨r, hClean, hPlaceholder⟩, hRest⟩ := hReplaced
        have hTail := @ih [] place'.2 place'.1 _ (by omega)
          (fun tail hNe hTail => absurd (List.suffix_nil.mp hTail) hNe) hRest
        simp only [replaceHits]
        rw [hPlaceholder]
        exact never_placeholder hClean (never_of_followed hBefore) hTail

/-- A run of base64 characters stays, or a clean placeholder takes its place. -/
def RunReplaced (role : String) (payload text : List Char) : Prop :=
  text = payload ∧ looksLikeLongBase64 payload = false ∨ IsPlaceholder role text

theorem never_replaceRuns {replace : List Char → Nat → List Char × Nat} {pieces : List Piece}
    {before : List Char} {attempt : Nat}
    (hReplaced : HitsReplaced (RunReplaced role) replace pieces attempt)
    (h : Never dataUriBase64Re (before ++ pieces.flatMap Piece.chars)) :
    Never dataUriBase64Re (before ++ (replaceHits replace pieces attempt).1) := by
  induction pieces generalizing before attempt with
  | nil => exact h
  | cons piece pieces ih =>
    cases piece with
    | text c =>
      have hRest := @ih (before ++ [c]) attempt hReplaced (by simpa [Piece.chars] using h)
      rwa [List.append_assoc, List.singleton_append] at hRest
    | hit payload =>
      obtain ⟨hHead, hTail⟩ := hReplaced
      rw [List.flatMap_cons] at h
      simp only [replaceHits]
      rcases hHead with ⟨hKept, -⟩ | ⟨r, hClean, hPlaceholder⟩
      · rw [hKept, ← List.append_assoc]
        refine ih hTail ?_
        rwa [List.append_assoc]
      · rw [hPlaceholder]
        obtain ⟨hBefore, hAfter⟩ := never_dataUri_of_append h
        exact never_placeholder hClean hBefore (@ih [] _ hTail hAfter)

/-! ## Base64 runs of the result -/

theorem noLongRun_allRun (hAll : ∀ c ∈ text, isBase64RunChar c = true)
    (hReplaced : HitsReplaced (RunReplaced role) replace (split base64RunRe text) attempt) :
    NoLongRun (replaceHits replace (split base64RunRe text) attempt).1 := by
  have hSplit := split_base64Run hAll
  by_cases hLong : genericBase64MinChars ≤ text.length
  · rw [if_pos hLong] at hSplit
    rw [hSplit] at hReplaced ⊢
    simp only [replaceHits, List.append_nil]
    rcases hReplaced.1 with ⟨hKept, hLooks⟩ | ⟨r, hClean, hPlaceholder⟩
    · rw [hKept]
      intro run hMem
      rw [hSplit, List.mem_singleton] at hMem
      rwa [Piece.hit.inj hMem]
    · rw [hPlaceholder]
      exact (clean_placeholder hClean).runs
  · rw [if_neg hLong] at hSplit
    have hSame : (replaceHits replace (split base64RunRe text) attempt).1 = text := by
      have hKept := @replaceHits_of_kept replace (split base64RunRe text)
        (fun payload hMem => by rw [hSplit] at hMem; simp at hMem) attempt
      rw [hKept, Regex.flatten_split]
    rw [hSame]
    exact noLongRun_of_length (Nat.lt_of_not_le hLong)

/-- The runs between two other characters are replaced on their own. -/
theorem noLongRun_replaceRuns
    (hReplaced : HitsReplaced (RunReplaced role) replace (split base64RunRe text) attempt) :
    NoLongRun (replaceHits replace (split base64RunRe text) attempt).1 := by
  induction hLength : text.length using Nat.strongRecOn generalizing text attempt with
  | ind length ih =>
    have hText : text.takeWhile isBase64RunChar ++ text.dropWhile isBase64RunChar = text :=
      List.takeWhile_append_dropWhile
    have hRun : ∀ c ∈ text.takeWhile isBase64RunChar, isBase64RunChar c = true :=
      fun c hMem => List.mem_takeWhile_imp hMem
    cases hRest : text.dropWhile isBase64RunChar with
    | nil =>
      rw [hRest, List.append_nil] at hText
      exact noLongRun_allRun (hText ▸ hRun) hReplaced
    | cons c tail =>
      have hChar : isBase64RunChar c = false := by
        have hHead := List.head_dropWhile_not isBase64RunChar (by rw [hRest]; simp)
        simpa [hRest] using hHead
      rw [hRest] at hText
      rw [← hText, Regex.split_append proper_base64RunRe (delimiter_base64RunRe hChar)]
        at hReplaced ⊢
      obtain ⟨hFirst, hSecond⟩ := hitsReplaced_append hReplaced
      have hShorter : tail.length < length := by
        rw [← hLength, ← hText, List.length_append, List.length_cons]
        omega
      rw [replaceHits_append]
      exact (noLongRun_append hChar).mpr
        ⟨noLongRun_allRun hRun hFirst, ih tail.length hShorter hSecond rfl⟩

/-! ## Writes that succeed -/

/-- The writes from one attempt to another succeed. -/
def Succeeds (externalize : Nat → Option String) (m n : Nat) : Prop :=
  ∀ k, m ≤ k → k < n → (externalize k).isSome = true

def SizesBounded (records : List Externalized) : Prop :=
  ∀ r ∈ records, r.payload.length ≤ maxTextLength

theorem le_replaceHits
    (hMono : ∀ payload attempt, attempt ≤ (replace payload attempt).2) (pieces : List Piece)
    (attempt : Nat) : attempt ≤ (replaceHits replace pieces attempt).2 := by
  induction pieces generalizing attempt with
  | nil => exact Nat.le_refl _
  | cons piece pieces ih =>
    cases piece with
    | text c => exact ih attempt
    | hit payload => exact (hMono payload attempt).trans (ih _)

theorem hitsReplaced_of_succeeds {replace : List Char → Nat → List Char × Nat}
    {externalized : List Char → Nat → List Externalized} {good : List Char → List Char → Prop}
    (hMono : ∀ payload attempt, attempt ≤ (replace payload attempt).2)
    (hGood : ∀ payload attempt, Succeeds externalize attempt (replace payload attempt).2 →
      SizesBounded (externalized payload attempt) → good payload (replace payload attempt).1)
    {pieces : List Piece} {attempt : Nat}
    (hSucceeds : Succeeds externalize attempt (replaceHits replace pieces attempt).2)
    (hSizes : SizesBounded (hitsExternalized replace externalized pieces attempt)) :
    HitsReplaced good replace pieces attempt := by
  induction pieces generalizing attempt with
  | nil => trivial
  | cons piece pieces ih =>
    cases piece with
    | text c => exact ih hSucceeds hSizes
    | hit payload =>
      have hFirst := hMono payload attempt
      have hRest := le_replaceHits hMono pieces (replace payload attempt).2
      refine ⟨hGood payload attempt (fun k hFrom hTo => hSucceeds k hFrom (hTo.trans_le hRest))
        fun r hMem => hSizes r (List.mem_append_left _ hMem), ?_⟩
      exact ih (fun k hFrom hTo => hSucceeds k (hFirst.trans hFrom) hTo)
        fun r hMem => hSizes r (List.mem_append_right _ hMem)

theorem le_externalizePayload (reason : String) (payload : List Char) (attempt : Nat) :
    attempt ≤ (externalizePayload externalize role reason payload attempt).2 := by
  unfold externalizePayload
  split
  · exact Nat.le_succ attempt
  · exact Nat.le_succ attempt

theorem le_replaceBase64Run (payload : List Char) (attempt : Nat) :
    attempt ≤ (replaceBase64Run externalize role payload attempt).2 := by
  unfold replaceBase64Run
  split
  · exact le_externalizePayload _ payload attempt
  · exact Nat.le_refl _

theorem le_protectText (text : String) (attempt : Nat) :
    attempt ≤ (protectText externalize role text attempt).2 :=
  (le_replaceHits (le_externalizePayload _) _ attempt).trans (le_replaceHits le_replaceBase64Run _ _)

theorem le_attemptsAfter (texts : List String) (attempt : Nat) :
    attempt ≤ attemptsAfter externalize role texts attempt := by
  induction texts generalizing attempt with
  | nil => exact Nat.le_refl _
  | cons text texts ih => exact (le_protectText text attempt).trans (ih _)

/-! ## The texts of a guarded message -/

variable (externalize role) in
/-- The texts, guarded one after another. -/
def protectTexts : List String → Nat → List String
  | [], _ => []
  | text :: texts, attempt => (protectText externalize role text attempt).1 ::
      protectTexts texts (protectText externalize role text attempt).2

theorem protectTexts_append (texts texts' : List String) (attempt : Nat) :
    protectTexts externalize role (texts ++ texts') attempt =
      protectTexts externalize role texts attempt ++
        protectTexts externalize role texts' (attemptsAfter externalize role texts attempt) := by
  induction texts generalizing attempt with
  | nil => rfl
  | cons text texts ih => simp only [List.cons_append, protectTexts, attemptsAfter, ih]

theorem texts_protectValue (v : Json) (attempt : Nat) :
    (protectValue externalize role v attempt).1.texts =
      protectTexts externalize role v.texts attempt := by
  induction v using Json.induct generalizing attempt with
  | str text => rfl
  | arr items ih =>
    show Json.textsItems (protectItems externalize role items attempt).1 =
      protectTexts externalize role (Json.textsItems items) attempt
    induction items generalizing attempt with
    | nil => rfl
    | cons v items ihItems =>
      simp only [protectItems, Json.textsItems, protectTexts_append]
      rw [ih v List.mem_cons_self, (@moves_value externalize role v attempt).2,
        ihItems fun w hMem => ih w (List.mem_cons_of_mem v hMem)]
  | obj fields ih =>
    show Json.textsFields (protectFields externalize role fields attempt).1 =
      protectTexts externalize role (Json.textsFields fields) attempt
    induction fields generalizing attempt with
    | nil => rfl
    | cons field fields ihFields =>
      simp only [protectFields, Json.textsFields, protectTexts_append]
      rw [ih field List.mem_cons_self, (@moves_value externalize role field.2 attempt).2,
        ihFields fun other hMem => ih other (List.mem_cons_of_mem field hMem)]
  | _ => rfl

theorem contentTexts_protectWithRole (message : Message) :
    contentTexts (protectWithRole externalize role message) =
      protectTexts externalize role (contentTexts message) 0 := by
  have hGet : get? (protectWithRole externalize role message) "content" =
      get? (protectContent externalize role message).1 "content" :=
    get?_protectToolCalls externalize role _ _ (by decide)
  unfold contentTexts
  rw [hGet]
  cases hContent : get? message "content" with
  | none => simp only [protectContent, hContent, protectTexts]
  | some content =>
    by_cases hNull : content = .null
    · simp only [protectContent, hContent, hNull]
      rfl
    · rw [protectContent_of_ne_null externalize role hContent hNull]
      simp only [Json.get?_setField_self, texts_protectValue]

theorem toolCallTexts_protectWithRole (message : Message) {text : String}
    (hMem : text ∈ toolCallTexts (protectWithRole externalize role message)) :
    text ∈ protectTexts externalize role (toolCallTexts message)
      (attemptsAfter externalize role (contentTexts message) 0) := by
  rw [← protectContent_attempts]
  have hGet := get?_protectContent externalize role message (by decide : "tool_calls" ≠ "content")
  unfold toolCallTexts protectWithRole protectToolCalls at hMem
  dsimp only at hMem
  rw [hGet] at hMem
  unfold toolCallTexts
  cases hCalls : get? message "tool_calls" with
  | none =>
    rw [hCalls] at hMem
    dsimp only at hMem
    rw [hGet, hCalls] at hMem
    exact absurd hMem List.not_mem_nil
  | some calls =>
    rw [hCalls] at hMem
    dsimp only at hMem ⊢
    by_cases hTruthy : calls.isTruthy = true
    · rw [if_pos hTruthy, Json.get?_setField_self] at hMem
      dsimp only at hMem
      rw [if_pos hTruthy, ← texts_protectValue]
      split at hMem
      · exact hMem
      · exact absurd hMem List.not_mem_nil
    · rw [if_neg hTruthy, hGet, hCalls] at hMem
      dsimp only at hMem
      rw [if_neg hTruthy] at hMem
      exact absurd hMem List.not_mem_nil

theorem guardedTexts_protectWithRole (text : String)
    (hMem : text ∈ guardedTexts (protectWithRole externalize role message)) :
    text ∈ protectTexts externalize role (guardedTexts message) 0 := by
  unfold guardedTexts at hMem ⊢
  rw [protectTexts_append]
  rcases List.mem_append.mp hMem with hContent | hCalls
  · rw [contentTexts_protectWithRole] at hContent
    exact List.mem_append_left _ hContent
  · exact List.mem_append_right _ (toolCallTexts_protectWithRole message hCalls)

variable (hIds : ∀ n fileId, externalize n = some fileId → IsFileId fileId.toList)
  (hRole : Clean (shownRole role))
include hIds hRole

theorem isPlaceholder_of_succeeds {reason : String} (hReason : IsReason reason)
    (payload : List Char) (attempt : Nat)
    (hSucceeds : Succeeds externalize attempt
      (externalizePayload externalize role reason payload attempt).2)
    (hSizes : SizesBounded (payloadExternalized externalize reason payload attempt)) :
    IsPlaceholder role (externalizePayload externalize role reason payload attempt).1 := by
  unfold externalizePayload at hSucceeds ⊢
  unfold payloadExternalized at hSizes
  cases hFile : externalize attempt with
  | none =>
    rw [hFile] at hSucceeds
    have hSome := hSucceeds attempt (Nat.le_refl _) (Nat.lt_succ_self _)
    rw [hFile] at hSome
    cases hSome
  | some fileId =>
    rw [hFile] at hSizes
    exact ⟨⟨fileId, reason, payload⟩,
      ⟨hReason, hIds attempt fileId hFile, hSizes _ (List.mem_singleton.mpr rfl), hRole⟩, rfl⟩

theorem clean_protectText {text : String}
    (hSucceeds : Succeeds externalize attempt (protectText externalize role text attempt).2)
    (hSizes : SizesBounded (textExternalized externalize role text attempt)) :
    Clean (protectText externalize role text attempt).1.toList := by
  have hFirst := le_replaceHits (@le_externalizePayload externalize role "data_uri_base64")
    (split dataUriBase64Re text.toList) attempt
  have hSecond := fun pieces => le_replaceHits (@le_replaceBase64Run externalize role) pieces
    (replaceHits (externalizePayload externalize role "data_uri_base64")
      (split dataUriBase64Re text.toList) attempt).2
  have hUris := hitsReplaced_of_succeeds (@le_externalizePayload externalize role _)
    (fun payload n => isPlaceholder_of_succeeds hIds hRole (Or.inl rfl) payload n)
    (fun k hFrom hTo => hSucceeds k hFrom (hTo.trans_le (hSecond _)))
    (fun r hMem => hSizes r (List.mem_append_left _ hMem))
  have hRuns := @hitsReplaced_of_succeeds externalize (replaceBase64Run externalize role)
    (runExternalized externalize) (RunReplaced role) le_replaceBase64Run
    (fun payload n hSome hBound => by
      unfold replaceBase64Run at hSome ⊢
      unfold runExternalized at hBound
      split
      · rename_i hLooks
        rw [if_pos hLooks] at hSome hBound
        exact Or.inr (isPlaceholder_of_succeeds hIds hRole (Or.inr rfl) payload n hSome hBound)
      · rename_i hLooks
        exact Or.inl ⟨rfl, Bool.eq_false_iff.mpr hLooks⟩)
    _ _ (fun k hFrom hTo => hSucceeds k (hFirst.trans hFrom) hTo)
    (fun r hMem => hSizes r (List.mem_append_right _ hMem))
  have hNever := @never_replaceUris role _ _ [] _ none _ (Nat.le_refl _)
    (fun tail hNe hTail => absurd (List.suffix_nil.mp hTail) hNe) hUris
  have hOutput : (protectText externalize role text attempt).1.toList =
      (replaceHits (replaceBase64Run externalize role) (split base64RunRe
        (replaceHits (externalizePayload externalize role "data_uri_base64")
          (split dataUriBase64Re text.toList) attempt).1)
        (replaceHits (externalizePayload externalize role "data_uri_base64")
          (split dataUriBase64Re text.toList) attempt).2).1 := String.toList_ofList
  rw [hOutput]
  refine ⟨@never_replaceRuns role _ _ [] _ hRuns ?_, noLongRun_replaceRuns hRuns⟩
  rw [Regex.flatten_split]
  exact hNever

theorem clean_protectTexts {texts : List String}
    (hSucceeds : Succeeds externalize attempt (attemptsAfter externalize role texts attempt))
    (hSizes : SizesBounded (textsExternalized externalize role texts attempt)) :
    ∀ text ∈ protectTexts externalize role texts attempt, Clean text.toList := by
  induction texts generalizing attempt with
  | nil => exact fun text hMem => absurd hMem List.not_mem_nil
  | cons text texts ih =>
    have hRest := @le_attemptsAfter externalize role texts
      (protectText externalize role text attempt).2
    intro found hMem
    rcases List.mem_cons.mp hMem with rfl | hMem
    · exact clean_protectText hIds hRole
        (fun k hFrom hTo => hSucceeds k hFrom (hTo.trans_le hRest))
        fun r hRecord => hSizes r (List.mem_append_left _ hRecord)
    · exact ih (fun k hFrom hTo => hSucceeds k ((le_protectText text attempt).trans hFrom) hTo)
        (fun r hRecord => hSizes r (List.mem_append_right _ hRecord)) found hMem

/-- A guarded message holds no oversized payload. -/
theorem noOversized_protectWithRole
    (hSucceeds : Succeeds externalize 0 (attemptsAfter externalize role (guardedTexts message) 0))
    (hSizes : SizesBounded (messageExternalized externalize role message)) :
    NoOversized (protectWithRole externalize role message) := by
  have hAll := clean_protectTexts hIds hRole hSucceeds hSizes
  intro text hMem
  exact hAll text (guardedTexts_protectWithRole text hMem)

end Guard

/-! ## Writes that fail -/

/-- Where no write succeeds, the message stays as it is. -/
theorem protectWithRole_of_fails {externalize : Nat → Option String} {role : String}
    {message : Message} (hKeys : (message.map (·.1)).Nodup) (h : ∀ n, externalize n = none) :
    protectWithRole externalize role message = message := by
  obtain ⟨hRewrites, k, -, hIssued⟩ := @moves_message externalize role message hKeys
  have hNone : (List.range' 0 k).filterMap externalize = [] :=
    List.filterMap_eq_nil_iff.mpr fun n _ => h n
  rw [hNone, List.map_eq_nil_iff] at hIssued
  rw [hIssued] at hRewrites
  exact (Json.obj.inj hRewrites.eq_of_nil).symm

/-- A data URI whose payload is a run of base64 characters by itself. -/
def longBody : List Char :=
  "ABCDEFGH".toList ++ List.replicate 4088 'A'

def longUri : List Char :=
  "data:;base64,".toList ++ longBody

theorem mem_longBody {c : Char} (h : c ∈ longBody) : c ∈ "ABCDEFGH".toList := by
  rcases List.mem_append.mp h with hMem | hMem
  · exact hMem
  · rw [(List.mem_replicate.mp hMem).2]
    decide

theorem length_longBody : longBody.length = 4096 := by
  have hLetters : "ABCDEFGH".toList.length = 8 := by decide
  unfold longBody
  rw [List.length_append, List.length_replicate, hLetters]

theorem looksLikeLongBase64_longBody : looksLikeLongBase64 longBody = true := by
  have hTests : "ABCDEFGH".toList.all (fun c =>
      !Text.isSpace c && (isBase64RunChar c && c != '=')) = true := by decide
  have hChars : ∀ c ∈ "ABCDEFGH".toList, Text.isSpace c = false ∧ isBase64RunChar c = true ∧
      c ≠ '=' := fun c hMem => by simpa using List.all_eq_true.mp hTests c hMem
  have hAll : ∀ c ∈ longBody, Text.isSpace c = false ∧ isBase64RunChar c = true ∧ c ≠ '=' :=
    fun c hMem => hChars c (mem_longBody hMem)
  have hCompact : longBody.filter (fun c => !Text.isSpace c) = longBody :=
    List.filter_eq_self.mpr fun c hMem => by rw [(hAll c hMem).1]; rfl
  have hAlphabet : longBody.countP isBase64RunChar = longBody.length :=
    List.countP_eq_length.mpr fun c hMem => (hAll c hMem).2.1
  have hOnly : longBody.all (fun c => isBase64RunChar c || Text.isSpace c) = true :=
    List.all_eq_true.mpr fun c hMem => by rw [(hAll c hMem).2.1]; rfl
  have hPad : longBody.reverse.dropWhile (· = '=') = longBody.reverse := by
    refine List.dropWhile_eq_self_iff.mpr fun hLength => ?_
    have hMem : longBody.reverse[0] ∈ longBody := List.mem_reverse.mp (List.getElem_mem hLength)
    simpa using (hAll _ hMem).2.2
  have hMixed : 8 ≤ longBody.dedup.length := by
    have hSubset : "ABCDEFGH".toList ⊆ longBody.dedup := fun c hMem =>
      List.mem_dedup.mpr (List.mem_append_left _ hMem)
    exact (List.subperm_of_subset (by decide : "ABCDEFGH".toList.Nodup) hSubset).length_le
  unfold looksLikeLongBase64
  simp only [hCompact, hPad, List.reverse_reverse]
  rw [show (fun c => isAsciiAlnum c || ['+', '/', '=', '_', '-'].contains c) = isBase64RunChar from
    rfl, hAlphabet, hOnly, length_longBody]
  simp only [Bool.and_eq_true, decide_eq_true_eq]
  exact ⟨⟨⟨⟨⟨by decide, by decide⟩, by decide⟩, trivial⟩, by decide⟩, hMixed⟩

/-- A data URI without a media type, up to the end of the text. -/
theorem split_base64Uri {body : List Char} (hLong : dataUriMinPayloadChars ≤ body.length)
    (hBody : ∀ c ∈ body, foldedClass ['+', '='] c = true) :
    split dataUriBase64Re ("data:;base64,".toList ++ body) =
      [.hit ("data:;base64,".toList ++ body)] := by
  have hTakes : ∀ c ∈ body, Regex.Takes (.alt (.char (foldedClass ['+', '='])) jsonEscapedSlash) c :=
    fun c hMem => (Regex.takes_char (hBody c hMem)).alt _
  obtain ⟨last, places, hPayload⟩ := Regex.run_atLeast_of_takes hTakes (some ',') hLong
  have hEnd := Regex.run_seq_cons hPayload (show Regex.run
    (.ahead fun next => !next.any (foldedClass ['+', '/', '='])) (last, []) = (last, []) :: [] from rfl)
  have hBase64 : Regex.run (foldedLiteral ";base64,") (some ':', ";base64,".toList ++ body) =
    (some ',', body) :: [] := rfl
  have hScheme : Regex.run (foldedLiteral "data:") (none, "data:;base64,".toList ++ body) =
    (some ':', ";base64,".toList ++ body) :: [] := rfl
  have hStay : ∀ r : Regex, r.Proper → r.Delimiter ',' →
      r.run (some ':', ";base64".toList) = [(some ':', ";base64".toList)] →
      r.run (some ':', ";base64,".toList ++ body) = (some ':', ";base64,".toList ++ body) :: [] := by
    intro r hProper hComma hRun
    have hExtend := Regex.run_extend hProper hComma body (some ':', ";base64".toList)
    rw [hRun] at hExtend
    exact hExtend
  have hSlash : jsonEscapedSlash.Delimiter ',' := ⟨Regex.delimiter_literal (by decide),
    Regex.delimiter_literal (by decide), Regex.delimiter_literal (by decide)⟩
  have hType := hStay _ proper_dataUriBase64Re.2.1 ⟨rfl, hSlash⟩ (by decide +kernel)
  have hName : (Regex.char (foldedClass ['_', '.', '+', '%', '-'])).Delimiter ',' := rfl
  have hAttributes := hStay _ proper_dataUriBase64Re.2.2.1 ⟨Regex.delimiter_literal (by decide),
    Regex.delimiter_atLeast hName 1, Regex.delimiter_literal (by decide), rfl, hSlash⟩
    (by decide +kernel)
  obtain ⟨more, hRun⟩ : ∃ more, Regex.run dataUriBase64Re (none, "data:;base64,".toList ++ body) =
      (last, []) :: more :=
    ⟨_, Regex.run_seq_cons hScheme (Regex.run_seq_cons hType
      (Regex.run_seq_cons hAttributes (Regex.run_seq_cons hBase64 hEnd)))⟩
  obtain ⟨rest, hText⟩ : ∃ rest, "data:;base64,".toList ++ body = 'd' :: rest := ⟨_, rfl⟩
  rw [hText] at hRun ⊢
  have hMatch : matchAt dataUriBase64Re (none, 'd' :: rest) = some (last, []) := by
    unfold matchAt
    rw [hRun, List.head?_cons, Option.filter_some]
    exact if_pos (decide_eq_true (Nat.zero_lt_succ _))
  show splitFrom dataUriBase64Re (rest.length + 1) (none, 'd' :: rest) = _
  rw [Regex.splitFrom_of_some hMatch, List.length_nil, Nat.sub_zero, List.take_length]
  cases rest with
  | nil => rfl
  | cons c rest => rfl

theorem protectText_of_failed_uri {externalize : Nat → Option String} {role : String}
    {body : List Char} (hLong : genericBase64MinChars ≤ body.length)
    (hBody : ∀ c ∈ body, foldedClass ['+', '='] c = true ∧ isBase64RunChar c = true)
    (hLooks : looksLikeLongBase64 body = true) (hFails : externalize 0 = none) :
    (protectText externalize role (String.ofList ("data:;base64,".toList ++ body)) 0).1 =
      String.ofList ("data:;base64,".toList ++
        (externalizePayload externalize role "inline_base64_run" body 1).1) := by
  have hUri := split_base64Uri (Nat.le_trans (by decide) hLong) fun c hMem => (hBody c hMem).1
  have hUris : replaceHits (externalizePayload externalize role "data_uri_base64")
      [.hit ("data:;base64,".toList ++ body)] 0 = ("data:;base64,".toList ++ body, 1) := by
    simp only [replaceHits, externalizePayload, hFails, List.append_nil]
  have hCut : "data:;base64,".toList ++ body = "data:;base64".toList ++ ',' :: body := rfl
  have hFront := @replaceHits_of_kept (replaceBase64Run externalize role)
    (split base64RunRe "data:;base64".toList) (fun payload hMem => absurd hMem
      (Regex.never_of_length_lt consumes_base64RunRe (by decide) payload)) 1
  have hRun := split_base64Run fun c hMem => (hBody c hMem).2
  rw [if_pos hLong] at hRun
  unfold protectText
  simp only [String.toList_ofList, hUri, hUris]
  rw [hCut, Regex.split_append proper_base64RunRe (delimiter_base64RunRe (by decide)),
    replaceHits_append, hFront, Regex.flatten_split, hRun]
  simp only [replaceHits, replaceBase64Run, if_pos hLooks, List.append_nil]
  rfl

/-- A failed write is tried again: on the run inside the data URI, and by the next guard. -/
theorem guard_retries :
    (let message : Message := [("role", .str "user"), ("content", .str (String.ofList dataUri))]
      let failed := protectMessageForIngest (fun _ => none) message
      protectMessageForIngest (fun _ => some "file_0123456789abcdef") failed ≠ failed) ∧
    (let message : Message := [("role", .str "user"), ("content", .str (String.ofList longUri))]
      let externalize := fun n => if n = 0 then none else some "file_0123456789abcdef"
      split dataUriBase64Re longUri = [.hit longUri] ∧
        get? (protectMessageForIngest externalize message) "content" ≠
          some (.str (String.ofList longUri))) := by
  constructor
  · intro message failed hSame
    have hFailed : failed = message := protectWithRole_of_fails (by decide) fun _ => rfl
    obtain ⟨rest, hRest⟩ := @protectText_dataUri (fun _ => some "file_0123456789abcdef")
      (guardRole message) _ dataUri 0 rfl split_dataUri
    rw [hFailed] at hSame
    have hContent := @protectMessageForIngest_text (fun _ => some "file_0123456789abcdef") message
      (String.ofList dataUri) rfl
    rw [hSame, hRest] at hContent
    have hChars : dataUri = '[' :: rest :=
      String.ofList_injective (Json.str.inj (Option.some.inj hContent))
    exact absurd (List.cons.inj hChars).1 (by decide)
  · intro message externalize
    have hClass : ∀ c ∈ "ABCDEFGH".toList, foldedClass ['+', '='] c = true :=
      List.all_eq_true.mp (by decide)
    have hUri : split dataUriBase64Re longUri = [.hit longUri] :=
      split_base64Uri (by rw [length_longBody]; decide) fun c hMem => hClass c (mem_longBody hMem)
    refine ⟨hUri, fun hSame => ?_⟩
    have hRun : ∀ c ∈ "ABCDEFGH".toList, isBase64RunChar c = true :=
      List.all_eq_true.mp (by decide)
    have hChars : ∀ c ∈ "ABCDEFGH".toList,
        foldedClass ['+', '='] c = true ∧ isBase64RunChar c = true :=
      fun c hMem => ⟨hClass c hMem, hRun c hMem⟩
    have hText := @protectText_of_failed_uri externalize (guardRole message) longBody
      (by rw [length_longBody]; decide) (fun c hMem => hChars c (mem_longBody hMem))
      looksLikeLongBase64_longBody rfl
    rw [protectMessageForIngest_text (rfl : get? message "content" = _)] at hSame
    have hList := String.ofList_injective
      (hText.symm.trans (Json.str.inj (Option.some.inj hSame)))
    obtain ⟨rest, hRest⟩ := formatRawPayloadReference_head "file_0123456789abcdef".toList
      (guardRole message).toList (String.ofList longBody).utf8ByteSize "inline_base64_run".toList
      (externalizedSummary "inline_base64_run".toList (String.ofList longBody).utf8ByteSize)
    have hPlaceholder : (externalizePayload externalize (guardRole message) "inline_base64_run"
        longBody 1).1 = '[' :: rest := hRest
    rw [hPlaceholder] at hList
    have hBody : '[' :: rest = longBody := List.append_cancel_left hList
    exact absurd (List.cons.inj hBody).1 (by decide)

/-! ## The contract of the guard -/

/-- The guard is undone from its records, changes a text only where a write succeeded, leaves the
objects of its caller alone, returns a message without an oversized payload as it is, and after
writes that all succeed finds nothing more. -/
theorem guard_contract {externalize : Nat → Option String} {role : String} {message : Message}
    (hKeys : (message.map (·.1)).Nodup) (hNew : NewFileIds externalize role message) :
    let guarded := protectWithRole externalize role message
    let records := messageExternalized externalize role message
    let attempts := attemptsAfter externalize role (guardedTexts message) 0
    records.foldr (restore role) (.obj guarded) = .obj message ∧
    (Rewrites (MovedAt role) records (.obj message) (.obj guarded) ∧
      records.map (·.fileId) = (List.range attempts).filterMap externalize) ∧
    (NoOversized message → guarded = message) ∧
    (∃ depth, ∀ fuel, depth ≤ fuel → ∀ heap ref, Heap.Denotes heap ref (.obj message) →
      ∃ heap' ref', protectMessageRef externalize role fuel heap ref = some (heap', ref') ∧
        heap <+: heap' ∧ Heap.Denotes heap' ref' (.obj guarded)) ∧
    (Succeeds externalize 0 attempts → SizesBounded records → Clean (shownRole role) →
      ∀ externalize', protectWithRole externalize' role guarded = guarded) := by
  intro guarded records attempts
  obtain ⟨hRewrites, k, hAttempts, hIssued⟩ := @moves_message externalize role message hKeys
  refine ⟨foldr_restore_protectWithRole hKeys hNew, ⟨hRewrites, ?_⟩,
    protectWithRole_of_noOversized hKeys, exists_protectMessageRef message, ?_⟩
  · have hCount : attempts = k := hAttempts.trans (Nat.zero_add k)
    rw [hCount, List.range_eq_range']
    exact hIssued
  · intro hSucceeds hSizes hRole externalize'
    exact protectWithRole_of_noOversized (keys_protectWithRole message ▸ hKeys)
      (noOversized_protectWithRole hNew.form hRole hSucceeds hSizes)

def dataUriMessage : Message :=
  [("role", .str "user"), ("content", .str (String.ofList dataUri))]

def firstWrite (n : Nat) : Option String :=
  if n = 0 then some "file_0123456789abcdef" else none

theorem firstWrite_eq_some {n : Nat} {fileId : String} (h : firstWrite n = some fileId) :
    n = 0 ∧ fileId = "file_0123456789abcdef" := by
  unfold firstWrite at h
  split at h
  · rename_i hZero
    exact ⟨hZero, (Option.some.inj h).symm⟩
  · cases h

theorem newFileIds_firstWrite : NewFileIds firstWrite "user" dataUriMessage := by
  have hMark : ∀ {text : List Char}, '_' ∉ text → ¬ "file_0123456789abcdef".toList <:+: text :=
    fun hNot hInfix => hNot (hInfix.subset (by decide))
  constructor
  · intro n fileId hFile
    rw [(firstWrite_eq_some hFile).2]
    exact ⟨"0123456789abcdef".toList, by decide, by decide, fun _ hMem => hMem⟩
  · intro m n fileId hFile hFile'
    rw [(firstWrite_eq_some hFile).1, (firstWrite_eq_some hFile').1]
  · intro n fileId hFile text hMem
    rw [(firstWrite_eq_some hFile).2]
    apply hMark
    have hTexts : text = "user" ∨ text = String.ofList dataUri := by
      simpa [dataUriMessage, Json.texts, Json.textsFields] using hMem
    rcases hTexts with rfl | rfl
    · decide
    · rw [String.toList_ofList]
      decide +kernel
  · intro n fileId hFile
    rw [(firstWrite_eq_some hFile).2]
    exact hMark (by decide)

theorem guard_contract_dataUri :
    (messageExternalized firstWrite "user" dataUriMessage).foldr (restore "user")
      (.obj (protectWithRole firstWrite "user" dataUriMessage)) = .obj dataUriMessage :=
  (guard_contract (by decide) newFileIds_firstWrite).1

end LosslessHermes
