import LosslessHermes.Ingest.Placeholder
import LosslessHermes.Library.Rewrites

/-!
# Reversal of the guard

What the guard moved out of a message, in the order of its writes, and how it comes back. Every
change of the guard is one payload for its placeholder (`moves_message`); with new file ids, each
placeholder is found by its file id, and putting the payloads back from the last to the first
gives the message (`restore_protectWithRole`).
-/

namespace LosslessHermes

open Json (get? setField ChangedAt)

/-- The guard, with the role that its placeholders show. -/
def protectWithRole (externalize : Nat → Option String) (role : String) (message : Message) :
    Message :=
  let guarded := protectContent externalize role message
  protectToolCalls externalize role guarded.1 guarded.2

/-! ## What the guard moves out -/

def contentTexts (message : Message) : List String :=
  match get? message "content" with
  | some content => content.texts
  | none => []

def toolCallTexts (message : Message) : List String :=
  match get? message "tool_calls" with
  | some calls => if calls.isTruthy then calls.texts else []
  | none => []

/-- The texts that the guard scans, in order. -/
def guardedTexts (message : Message) : List String :=
  contentTexts message ++ toolCallTexts message

section Records

variable (externalize : Nat → Option String) (role : String)

def payloadExternalized (reason : String) (payload : List Char) (attempt : Nat) :
    List Externalized :=
  match externalize attempt with
  | some fileId => [⟨fileId, reason, payload⟩]
  | none => []

def runExternalized (payload : List Char) (attempt : Nat) : List Externalized :=
  if looksLikeLongBase64 payload then
    payloadExternalized externalize "inline_base64_run" payload attempt
  else []

def hitsExternalized (replace : List Char → Nat → List Char × Nat)
    (externalized : List Char → Nat → List Externalized) :
    List Regex.Piece → Nat → List Externalized
  | [], _ => []
  | .text _ :: pieces, attempt => hitsExternalized replace externalized pieces attempt
  | .hit payload :: pieces, attempt => externalized payload attempt ++
      hitsExternalized replace externalized pieces (replace payload attempt).2

def textExternalized (text : String) (attempt : Nat) : List Externalized :=
  let replaceUri := externalizePayload externalize role "data_uri_base64"
  let pieces := dataUriBase64Re.split text.toList
  let withoutUris := replaceHits replaceUri pieces attempt
  hitsExternalized replaceUri (payloadExternalized externalize "data_uri_base64") pieces attempt ++
    hitsExternalized (replaceBase64Run externalize role) (runExternalized externalize)
      (base64RunRe.split withoutUris.1) withoutUris.2

def textsExternalized : List String → Nat → List Externalized
  | [], _ => []
  | text :: texts, attempt => textExternalized externalize role text attempt ++
      textsExternalized texts (protectText externalize role text attempt).2

/-- The number of writes after the texts. -/
def attemptsAfter : List String → Nat → Nat
  | [], attempt => attempt
  | text :: texts, attempt => attemptsAfter texts (protectText externalize role text attempt).2

/-- The payloads of the message that went to large files. -/
def messageExternalized (message : Message) : List Externalized :=
  textsExternalized externalize role (guardedTexts message) 0

theorem textsExternalized_append (texts texts' : List String) (attempt : Nat) :
    textsExternalized externalize role (texts ++ texts') attempt =
      textsExternalized externalize role texts attempt ++
        textsExternalized externalize role texts' (attemptsAfter externalize role texts attempt) := by
  induction texts generalizing attempt with
  | nil => rfl
  | cons text texts ih =>
    simp only [List.cons_append, textsExternalized, attemptsAfter, ih, List.append_assoc]

theorem attemptsAfter_append (texts texts' : List String) (attempt : Nat) :
    attemptsAfter externalize role (texts ++ texts') attempt =
      attemptsAfter externalize role texts' (attemptsAfter externalize role texts attempt) := by
  induction texts generalizing attempt with
  | nil => rfl
  | cons text texts ih => exact ih _

end Records

/-! ## Moves -/

/-- From one attempt to another, the writes that succeed are the records, in order, and each
record is one change. -/
structure Moves {β : Type} (externalize : Nat → Option String) (S : Externalized → β → β → Prop)
    (attempt : Nat) (records : List Externalized) (a b : β) (attempt' : Nat) : Prop where
  rewrites : Rewrites S records a b
  issued : ∃ k, attempt' = attempt + k ∧
    records.map (·.fileId) = (List.range' attempt k).filterMap externalize

namespace Moves

variable {β γ : Type} {externalize : Nat → Option String} {S : Externalized → β → β → Prop}
  {T : Externalized → γ → γ → Prop} {m n k : Nat} {records records' : List Externalized} {a b c : β}

theorem refl (a : β) : Moves externalize S n [] a a n :=
  ⟨.refl a, 0, rfl, rfl⟩

theorem append (h : Moves externalize S m records a b n)
    (h' : Moves externalize S n records' b c k) :
    Moves externalize S m (records ++ records') a c k := by
  obtain ⟨i, rfl, hIssued⟩ := h.issued
  obtain ⟨j, rfl, hIssued'⟩ := h'.issued
  refine ⟨h.rewrites.append h'.rewrites, i + j, Nat.add_assoc m i j, ?_⟩
  rw [List.map_append, hIssued, hIssued', ← List.filterMap_append, List.range'_append_1]

theorem inside {f : β → γ} (hContext : ∀ r a b, S r a b → T r (f a) (f b))
    (h : Moves externalize S m records a b n) : Moves externalize T m records (f a) (f b) n :=
  ⟨h.rewrites.inside hContext, h.issued⟩

end Moves

/-- One payload in a text became its placeholder. -/
def MovedIn (role : String) (r : Externalized) (s t : List Char) : Prop :=
  IsReason r.reason ∧ ∃ u v, s = u ++ (r.payload ++ v) ∧ t = u ++ (r.placeholder role ++ v)

def MovedText (role : String) (r : Externalized) (s t : String) : Prop :=
  MovedIn role r s.toList t.toList

def MovedAt (role : String) (r : Externalized) : Json → Json → Prop :=
  ChangedAt (MovedText role r)

section Moves

variable {externalize : Nat → Option String} {role : String}

variable {r : Externalized}

theorem MovedIn.context {s t : List Char} (h : MovedIn role r s t)
    (before after : List Char) : MovedIn role r (before ++ (s ++ after)) (before ++ (t ++ after)) := by
  obtain ⟨hReason, u, v, rfl, rfl⟩ := h
  exact ⟨hReason, before ++ u, v ++ after, by simp only [List.append_assoc],
    by simp only [List.append_assoc]⟩

theorem moves_payload {reason : String} (hReason : IsReason reason) (payload : List Char)
    (attempt : Nat) :
    Moves externalize (MovedIn role) attempt
      (payloadExternalized externalize reason payload attempt) payload
      (externalizePayload externalize role reason payload attempt).1
      (externalizePayload externalize role reason payload attempt).2 := by
  unfold payloadExternalized externalizePayload
  cases hFile : externalize attempt with
  | none => exact ⟨.refl payload, 1, rfl, by simp [hFile]⟩
  | some fileId =>
    have hMoved : MovedIn role ⟨fileId, reason, payload⟩ payload
        (Externalized.placeholder role ⟨fileId, reason, payload⟩) :=
      ⟨hReason, [], [], (List.append_nil payload).symm, (List.append_nil _).symm⟩
    exact ⟨.cons hMoved (.refl _), 1, rfl, by simp [hFile]⟩

theorem moves_run (payload : List Char) (attempt : Nat) :
    Moves externalize (MovedIn role) attempt (runExternalized externalize payload attempt) payload
      (replaceBase64Run externalize role payload attempt).1
      (replaceBase64Run externalize role payload attempt).2 := by
  unfold runExternalized replaceBase64Run
  split
  · exact moves_payload (Or.inr rfl) payload attempt
  · exact Moves.refl payload

theorem moves_hits {replace : List Char → Nat → List Char × Nat}
    {externalized : List Char → Nat → List Externalized}
    (hReplace : ∀ payload attempt, Moves externalize (MovedIn role) attempt
      (externalized payload attempt) payload (replace payload attempt).1 (replace payload attempt).2)
    (pieces : List Regex.Piece) (attempt : Nat) :
    Moves externalize (MovedIn role) attempt (hitsExternalized replace externalized pieces attempt)
      (pieces.flatMap Regex.Piece.chars) (replaceHits replace pieces attempt).1
      (replaceHits replace pieces attempt).2 := by
  induction pieces generalizing attempt with
  | nil => exact Moves.refl []
  | cons piece pieces ih =>
    cases piece with
    | text c =>
      refine Moves.inside (f := (c :: ·)) (fun r a b hMoved => ?_) (ih attempt)
      simpa using hMoved.context [c] []
    | hit payload =>
      have hHead := Moves.inside (f := (· ++ pieces.flatMap Regex.Piece.chars))
        (fun r a b hMoved => hMoved.context [] _) (hReplace payload attempt)
      have hTail := Moves.inside (f := ((replace payload attempt).1 ++ ·)) (fun r a b hMoved => by
        simpa using hMoved.context (replace payload attempt).1 []) (ih (replace payload attempt).2)
      exact hHead.append hTail

theorem moves_text (text : String) (attempt : Nat) :
    Moves externalize (MovedText role) attempt (textExternalized externalize role text attempt) text
      (protectText externalize role text attempt).1 (protectText externalize role text attempt).2 := by
  have hUris := moves_hits (fun payload n =>
    @moves_payload externalize role _ (Or.inl rfl) payload n) (dataUriBase64Re.split text.toList)
    attempt
  rw [Regex.flatten_split] at hUris
  have hRuns := fun text n => moves_hits (fun payload n =>
    @moves_run externalize role payload n) (base64RunRe.split text) n
  simp only [Regex.flatten_split] at hRuns
  have hText := Moves.inside (T := MovedText role) (f := String.ofList) (fun r a b hMoved => by
    simpa [MovedText] using hMoved) (hUris.append (hRuns _ _))
  rwa [String.ofList_toList] at hText

/-- The guard of a value scans its texts in order. -/
theorem moves_value (v : Json) (attempt : Nat) :
    Moves externalize (MovedAt role) attempt (textsExternalized externalize role v.texts attempt) v
        (protectValue externalize role v attempt).1 (protectValue externalize role v attempt).2 ∧
      (protectValue externalize role v attempt).2 =
        attemptsAfter externalize role v.texts attempt := by
  induction v using Json.induct generalizing attempt with
  | str text =>
    have hText : Moves externalize (MovedAt role) attempt
        (textExternalized externalize role text attempt) (.str text) _ _ :=
      Moves.inside (fun r a b hMoved => ChangedAt.text hMoved) (moves_text text attempt)
    refine ⟨?_, rfl⟩
    show Moves externalize (MovedAt role) attempt
      (textExternalized externalize role text attempt ++ []) (.str text)
      (.str (protectText externalize role text attempt).1)
      (protectText externalize role text attempt).2
    rwa [List.append_nil]
  | arr items ih =>
    have hItems : ∀ before, Moves externalize (MovedAt role) attempt
          (textsExternalized externalize role (Json.textsItems items) attempt)
          (.arr (before ++ items))
          (.arr (before ++ (protectItems externalize role items attempt).1))
          (protectItems externalize role items attempt).2 ∧
        (protectItems externalize role items attempt).2 =
          attemptsAfter externalize role (Json.textsItems items) attempt := by
      induction items generalizing attempt with
      | nil => exact fun before => ⟨Moves.refl _, rfl⟩
      | cons v items ihItems =>
        intro before
        obtain ⟨hHead, hAttempt⟩ := ih v List.mem_cons_self attempt
        obtain ⟨hTail, hAttempt'⟩ := ihItems
          (fun w hMem => ih w (List.mem_cons_of_mem v hMem))
          (protectValue externalize role v attempt).2
          (before ++ [(protectValue externalize role v attempt).1])
        have hItem := Moves.inside (T := MovedAt role)
          (fun r a b hMoved => ChangedAt.item before items hMoved) hHead
        rw [List.append_assoc, List.append_assoc] at hTail
        rw [Json.textsItems, textsExternalized_append, attemptsAfter_append, ← hAttempt]
        exact ⟨hItem.append hTail, hAttempt'⟩
    exact hItems []
  | obj fields ih =>
    have hFields : ∀ before, Moves externalize (MovedAt role) attempt
          (textsExternalized externalize role (Json.textsFields fields) attempt)
          (.obj (before ++ fields))
          (.obj (before ++ (protectFields externalize role fields attempt).1))
          (protectFields externalize role fields attempt).2 ∧
        (protectFields externalize role fields attempt).2 =
          attemptsAfter externalize role (Json.textsFields fields) attempt := by
      induction fields generalizing attempt with
      | nil => exact fun before => ⟨Moves.refl _, rfl⟩
      | cons field fields ihFields =>
        intro before
        obtain ⟨key, v⟩ := field
        obtain ⟨hHead, hAttempt⟩ := ih (key, v) List.mem_cons_self attempt
        obtain ⟨hTail, hAttempt'⟩ := ihFields
          (fun other hMem => ih other (List.mem_cons_of_mem _ hMem))
          (protectValue externalize role v attempt).2
          (before ++ [(key, (protectValue externalize role v attempt).1)])
        have hField := Moves.inside (T := MovedAt role)
          (fun r a b hMoved => ChangedAt.field before key fields hMoved) hHead
        rw [List.append_assoc, List.append_assoc] at hTail
        rw [Json.textsFields, textsExternalized_append, attemptsAfter_append, ← hAttempt]
        exact ⟨hField.append hTail, hAttempt'⟩
    exact hFields []
  | _ => exact ⟨Moves.refl _, rfl⟩

variable {message : Message} {v : Json}

/-- The guard of the value under a key. -/
theorem moves_field (hKeys : (message.map (·.1)).Nodup) {key : String}
    (hGet : get? message key = some v) (attempt : Nat) :
    Moves externalize (MovedAt role) attempt (textsExternalized externalize role v.texts attempt)
        (.obj message) (.obj (setField message key (protectValue externalize role v attempt).1))
        (attemptsAfter externalize role v.texts attempt) := by
  obtain ⟨before, after, rfl, hSet⟩ := Json.exists_setField_eq hKeys hGet
  obtain ⟨hValue, hAttempt⟩ := @moves_value externalize role v attempt
  rw [hSet, ← hAttempt]
  have hField := Moves.inside (T := MovedAt role)
    (fun r a b hMoved => ChangedAt.field before key after hMoved) hValue
  exact hField

theorem protectContent_of_ne_null (externalize : Nat → Option String) (role : String)
    {content : Json} (hGet : get? message "content" = some content) (hNull : content ≠ .null) :
    protectContent externalize role message =
      (setField message "content" (protectValue externalize role content 0).1,
        (protectValue externalize role content 0).2) := by
  unfold protectContent
  rw [hGet]
  cases content with
  | null => exact absurd rfl hNull
  | _ => rfl

theorem protectContent_attempts (message : Message) :
    (protectContent externalize role message).2 =
      attemptsAfter externalize role (contentTexts message) 0 := by
  unfold contentTexts
  cases hGet : get? message "content" with
  | none =>
    simp only [protectContent, hGet]
    rfl
  | some content =>
    by_cases hNull : content = .null
    · simp only [protectContent, hGet, hNull]
      rfl
    · rw [protectContent_of_ne_null externalize role hGet hNull]
      exact (@moves_value externalize role content 0).2

theorem keys_protectContent (message : Message) :
    (protectContent externalize role message).1.map (·.1) = message.map (·.1) := by
  unfold protectContent
  split
  · rfl
  · rfl
  · rename_i hGet
    exact Json.map_fst_setField hGet _

theorem keys_protectWithRole (message : Message) :
    (protectWithRole externalize role message).map (·.1) = message.map (·.1) := by
  unfold protectWithRole protectToolCalls
  dsimp only
  split
  · rename_i hGet
    split
    · exact (Json.map_fst_setField hGet _).trans (keys_protectContent message)
    · exact keys_protectContent message
  · exact keys_protectContent message

theorem moves_content (hKeys : (message.map (·.1)).Nodup) :
    Moves externalize (MovedAt role) 0 (textsExternalized externalize role (contentTexts message) 0)
      (.obj message) (.obj (protectContent externalize role message).1)
      (attemptsAfter externalize role (contentTexts message) 0) := by
  unfold contentTexts
  cases hGet : get? message "content" with
  | none =>
    simp only [protectContent, hGet]
    exact Moves.refl _
  | some content =>
    by_cases hNull : content = .null
    · simp only [protectContent, hGet, hNull]
      exact Moves.refl _
    · rw [protectContent_of_ne_null externalize role hGet hNull]
      exact moves_field hKeys hGet 0

theorem moves_toolCalls {message : Message} (hKeys : (message.map (·.1)).Nodup) :
    Moves externalize (MovedAt role) (attemptsAfter externalize role (contentTexts message) 0)
      (textsExternalized externalize role (toolCallTexts message)
        (attemptsAfter externalize role (contentTexts message) 0))
      (.obj (protectContent externalize role message).1)
      (.obj (protectWithRole externalize role message))
      (attemptsAfter externalize role (guardedTexts message) 0) := by
  have hOther := get?_protectContent externalize role message
    (by decide : "tool_calls" ≠ "content")
  unfold guardedTexts
  rw [attemptsAfter_append, ← protectContent_attempts]
  unfold protectWithRole protectToolCalls toolCallTexts
  dsimp only
  rw [hOther]
  cases hGet : get? message "tool_calls" with
  | none => exact Moves.refl _
  | some calls =>
    dsimp only
    split
    · exact moves_field (keys_protectContent message ▸ hKeys) (hOther.trans hGet) _
    · exact Moves.refl _

/-- Every change of the guard is one payload for its placeholder. -/
theorem moves_message {message : Message} (hKeys : (message.map (·.1)).Nodup) :
    Moves externalize (MovedAt role) 0 (messageExternalized externalize role message) (.obj message)
      (.obj (protectWithRole externalize role message))
      (attemptsAfter externalize role (guardedTexts message) 0) := by
  have hAll := (moves_content hKeys).append (@moves_toolCalls externalize role message hKeys)
  rwa [← textsExternalized_append] at hAll

/-! ## The way back -/

/-- The ids of the large files are new: random, distinct, and not in the message or the role. -/
structure NewFileIds (externalize : Nat → Option String) (role : String) (message : Message) :
    Prop where
  form : ∀ n fileId, externalize n = some fileId → IsFileId fileId.toList
  distinct : ∀ m n fileId, externalize m = some fileId → externalize n = some fileId → m = n
  message : ∀ n fileId, externalize n = some fileId →
    ∀ text ∈ (Json.obj message).texts, ¬ fileId.toList <:+: text.toList
  role : ∀ n fileId, externalize n = some fileId → ¬ fileId.toList <:+: role.toList

/-- `text.replace(placeholder, payload)` -/
def restoreText (role : String) (r : Externalized) (text : String) : String :=
  String.ofList (Substring.replaceAll (r.placeholder role) r.payload text.toList)

/-- The payload for its placeholder, in every text. -/
def restore (role : String) (r : Externalized) (v : Json) : Json :=
  v.mapTexts (restoreText role r)

/-- The file id can be told from everything in the value. -/
structure FreshIn (role : String) (r : Externalized) (v : Json) : Prop where
  form : IsFileId r.fileId.toList
  role : ¬ r.fileId.toList <:+: role.toList
  texts : ∀ text ∈ v.texts, ¬ r.fileId.toList <:+: text.toList

theorem exists_placeholder_eq (role : String) (hId : IsFileId r.fileId.toList) :
    ∃ mark, r.fileId.toList = 'f' :: mark ∧ ∃ rest,
      r.placeholder role = '[' :: "LCM Raw Payload: ".toList ++ ('f' :: mark ++ rest) := by
  have hHead : "[LCM Raw Payload: ".toList = '[' :: "LCM Raw Payload: ".toList := by decide
  obtain ⟨hex, hEq, -⟩ := hId
  refine ⟨"ile_".toList ++ hex, hEq, ?_⟩
  unfold Externalized.placeholder formatRawPayloadReference
  rw [hEq, hHead]
  simp only [List.append_assoc, List.cons_append]
  exact ⟨_, rfl⟩

theorem restoreText_of_fresh (hId : IsFileId r.fileId.toList) {text : String}
    (h : ¬ r.fileId.toList <:+: text.toList) : restoreText role r text = text := by
  obtain ⟨mark, hMark, rest, hPlaceholder⟩ := exists_placeholder_eq role hId
  have hInside : r.fileId.toList <:+: r.placeholder role := by
    rw [hMark, hPlaceholder]
    exact (List.prefix_append _ rest).isInfix.trans (List.suffix_append _ _).isInfix
  unfold restoreText
  rw [Substring.replaceAll_of_absent fun hInfix => h (hInside.trans hInfix), String.ofList_toList]

/-- The placeholder is found where the payload was. -/
theorem restoreText_of_moved (hId : IsFileId r.fileId.toList) {s t : String}
    (hMoved : MovedText role r s t) (h : ¬ r.fileId.toList <:+: s.toList) :
    restoreText role r t = s := by
  obtain ⟨mark, hMark, rest, hPlaceholder⟩ := exists_placeholder_eq role hId
  obtain ⟨-, u, v, hFrom, hTo⟩ := hMoved
  rw [hFrom, hMark] at h
  have hBracket : '[' ∉ 'f' :: mark := hMark ▸ hId.not_mem (by decide)
  have hReplace := @Substring.replaceAll_of_marked _ _ '[' 'f' "LCM Raw Payload: ".toList mark rest
    r.payload u v hBracket (by decide)
    (fun hInfix => h (hInfix.trans (List.prefix_append u _).isInfix))
    (fun hInfix => h (hInfix.trans ((List.suffix_append r.payload v).trans
      (List.suffix_append u _)).isInfix))
  unfold restoreText
  rw [hTo, hPlaceholder, hReplace, ← hFrom, String.ofList_toList]

theorem restore_of_moved {w : Json} (hMoved : MovedAt role r v w)
    (hFresh : FreshIn role r v) : restore role r w = v :=
  ChangedAt.mapTexts_eq hMoved
    (fun text hText => restoreText_of_fresh hFresh.form (hFresh.texts text hText))
    fun s _ hText hMem => restoreText_of_moved hFresh.form hText (hFresh.texts s hMem)

theorem FreshIn.of_moved {r' : Externalized} {w : Json} (hMoved : MovedAt role r v w)
    (hOther : IsFileId r.fileId.toList ∧ r'.fileId ≠ r.fileId) (hFresh : FreshIn role r' v) :
    FreshIn role r' w := by
  refine ⟨hFresh.form, hFresh.role, ChangedAt.forall_texts hMoved ?_ hFresh.texts⟩
  rintro s _ ⟨hReason, u, z, hFrom, hTo⟩ hNot
  rw [hFrom] at hNot
  rw [hTo]
  refine not_infix_placeholder hFresh.form hReason hOther.1
    (fun hSame => hOther.2 (String.toList_inj.mp hSame)) hFresh.role
    (fun hInfix => hNot (hInfix.trans (List.prefix_append u _).isInfix)) fun hInfix => hNot ?_
  exact hInfix.trans ((List.suffix_append r.payload z).trans (List.suffix_append u _)).isInfix

/-- Putting the payloads back from the last to the first gives the message. -/
theorem foldr_restore_protectWithRole (hKeys : (message.map (·.1)).Nodup)
    (hNew : NewFileIds externalize role message) :
    (messageExternalized externalize role message).foldr (restore role)
      (.obj (protectWithRole externalize role message)) = .obj message := by
  obtain ⟨hRewrites, k, -, hIssued⟩ := @moves_message externalize role message hKeys
  have hOrigin : ∀ r ∈ messageExternalized externalize role message,
      ∃ n, externalize n = some r.fileId := by
    intro r hMem
    have hId := List.mem_map_of_mem (f := (·.fileId)) hMem
    rw [hIssued] at hId
    obtain ⟨n, -, hFile⟩ := List.mem_filterMap.mp hId
    exact ⟨n, hFile⟩
  have hNodup : ((messageExternalized externalize role message).map (·.fileId)).Nodup := by
    rw [hIssued]
    refine List.Nodup.filterMap (fun m n fileId hFile hFile' => ?_) List.nodup_range'
    exact hNew.distinct m n fileId hFile hFile'
  refine @Rewrites.undo _ _ _ (FreshIn role)
    (fun r r' => IsFileId r.fileId.toList ∧ r'.fileId ≠ r.fileId) (restore role)
    (fun r a b hMoved hFresh => restore_of_moved hMoved hFresh)
    (fun r r' a b hMoved hOther hFresh => hFresh.of_moved hMoved hOther) _ _ _ hRewrites ?_ ?_
  · intro r hMem
    obtain ⟨n, hFile⟩ := hOrigin r hMem
    exact ⟨hNew.form n _ hFile, hNew.role n _ hFile, hNew.message n _ hFile⟩
  · refine (List.pairwise_map.mp hNodup).imp_of_mem fun {r r'} hMem _ hNe => ?_
    obtain ⟨n, hFile⟩ := hOrigin r hMem
    exact ⟨hNew.form n _ hFile, fun hSame => hNe hSame.symm⟩

end Moves
end LosslessHermes
