import LosslessHermes.Store.SessionKeys
import LosslessHermes.Store.Transcript

/-!
# One active conversation per session key

`SessionsWellFormed` is what the keys and the partial index guarantee, and every operation
keeps it. `getOrCreateConversation_spec` says what a call returns and leaves: a row that the
same call finds again.
-/

namespace LosslessHermes.ConversationStore

/-- Ids are distinct and handed out, and no two active rows have one key. -/
structure SessionsWellFormed (db : Db) : Prop where
  bound : ∀ c ∈ db.conversations, c.conversationId ≤ db.conversationSequence
  nodup : (db.conversations.map (·.conversationId)).Nodup
  keys : ∀ key, ∀ c ∈ db.conversations, ∀ c' ∈ db.conversations, c.active = true →
    c'.active = true → c.sessionKey = some key → c'.sessionKey = some key → c = c'

theorem sessionsWellFormed_empty : SessionsWellFormed Db.empty :=
  ⟨fun _ h => (List.not_mem_nil h).elim, List.nodup_nil, fun _ _ h => (List.not_mem_nil h).elim⟩

variable {db db' : Db} {c record : ConversationRecord} {key : String} {sessionId : SessionId}
  {sessionKey : Option String} {now : Timestamp} {conversationId : ConversationId}
  {set : ConversationRecord → ConversationRecord}

/-! ## Rows that are written -/

theorem SessionsWellFormed.eq_of_id (h : SessionsWellFormed db) {c' : ConversationRecord}
    (hMem : c ∈ db.conversations) (hMem' : c' ∈ db.conversations)
    (hId : c.conversationId = c'.conversationId) : c = c' :=
  List.inj_on_of_nodup_map h.nodup hMem hMem' hId

theorem SessionsWellFormed.getConversation (h : SessionsWellFormed db)
    (hMem : c ∈ db.conversations) : db.getConversation c.conversationId = some c := by
  refine Table.find_of_unique hMem (decide_eq_true rfl) fun c' hMem' hId => ?_
  exact h.eq_of_id hMem' hMem (of_decide_eq_true hId)

theorem keyTaken_eq_false :
    keyTaken db record = false ↔ ∀ c ∈ db.conversations, c.conversationId ≠ record.conversationId →
      c.active = true → record.active = true → record.sessionKey.isSome = true →
        c.sessionKey ≠ record.sessionKey := by
  unfold keyTaken
  rw [List.any_eq_false]
  refine forall₂_congr fun c _ => ?_
  simp only [decide_eq_true_eq, not_and, ne_eq]

/-- The rows after an update, and what they were before. -/
theorem mem_updateConversation (h : c ∈ (updateConversation db conversationId set).conversations) :
    ∃ old ∈ db.conversations,
      c = if old.conversationId = conversationId then set old else old := by
  obtain ⟨old, hOld, rfl⟩ := List.mem_map.mp h
  exact ⟨old, hOld, rfl⟩

theorem mem_updateConversation_of_id (hMem : c ∈ db.conversations) :
    set c ∈ (updateConversation db c.conversationId set).conversations := by
  refine List.mem_map.mpr ⟨c, hMem, ?_⟩
  rw [if_pos rfl]

theorem ids_updateConversation (hId : ∀ c, (set c).conversationId = c.conversationId) :
    (updateConversation db conversationId set).conversations.map (·.conversationId) =
      db.conversations.map (·.conversationId) := by
  unfold updateConversation
  rw [List.map_map]
  refine List.map_congr_left fun c _ => ?_
  dsimp only [Function.comp_apply]
  split
  · exact hId c
  · rfl

/-- An update keeps the invariant if no active row gets a key that another active row has. -/
theorem SessionsWellFormed.update (h : SessionsWellFormed db)
    (hId : ∀ c, (set c).conversationId = c.conversationId)
    (hKeys : ∀ key, ∀ c ∈ db.conversations, c.conversationId = conversationId →
      (set c).active = true → (set c).sessionKey = some key →
        ∀ c' ∈ db.conversations, c'.conversationId ≠ conversationId → c'.active = true →
          c'.sessionKey ≠ some key) :
    SessionsWellFormed (updateConversation db conversationId set) := by
  refine ⟨?_, ?_, ?_⟩
  · intro c hMem
    obtain ⟨old, hOld, rfl⟩ := mem_updateConversation hMem
    split
    · rw [hId]
      exact h.bound old hOld
    · exact h.bound old hOld
  · rw [ids_updateConversation hId]
    exact h.nodup
  · intro key c hMem c' hMem' hActive hActive' hKey hKey'
    obtain ⟨old, hOld, rfl⟩ := mem_updateConversation hMem
    obtain ⟨old', hOld', rfl⟩ := mem_updateConversation hMem'
    by_cases hHere : old.conversationId = conversationId <;>
      by_cases hHere' : old'.conversationId = conversationId
    · rw [h.eq_of_id hOld hOld' (hHere.trans hHere'.symm)]
    · rw [if_pos hHere] at hActive hKey
      rw [if_neg hHere'] at hActive' hKey'
      exact absurd hKey' (hKeys key old hOld hHere hActive hKey old' hOld' hHere' hActive')
    · rw [if_neg hHere] at hActive hKey
      rw [if_pos hHere'] at hActive' hKey'
      exact absurd hKey (hKeys key old' hOld' hHere' hActive' hKey' old hOld hHere hActive)
    · rw [if_neg hHere] at hActive hKey ⊢
      rw [if_neg hHere'] at hActive' hKey' ⊢
      exact h.keys key old hOld old' hOld' hActive hActive' hKey hKey'

theorem SessionsWellFormed.setSessionId (h : SessionsWellFormed db)
    (conversationId : ConversationId) (sessionId : SessionId) :
    SessionsWellFormed (setSessionId db conversationId sessionId) := by
  refine h.update (fun _ => rfl) ?_
  intro key c hMem hHere hActive hKey c' hMem' hElse hActive' hKey'
  have hSame := h.keys key c hMem c' hMem' hActive hActive' hKey hKey'
  rw [← hSame] at hElse
  exact hElse hHere

theorem SessionsWellFormed.archiveConversation (h : SessionsWellFormed db)
    (conversationId : ConversationId) :
    SessionsWellFormed (archiveConversation db conversationId) :=
  h.update (fun _ => rfl) fun _ _ _ _ hActive => nomatch hActive

/-- A key that no active row has can be given to a row. -/
theorem setSessionKey_of_free (conversationId : ConversationId)
    (hFree : ∀ c ∈ db.conversations, c.active = true → c.sessionKey ≠ some key) :
    setSessionKey db conversationId key =
      .ok (updateConversation db conversationId fun c => { c with sessionKey := some key }) := by
  unfold setSessionKey
  rw [if_neg]
  rw [List.any_eq_true]
  rintro ⟨c, hMem, hTaken⟩
  have hNot : keyTaken db { c with sessionKey := some key } = false :=
    keyTaken_eq_false.mpr fun c' hMem' _ hActive _ _ => hFree c' hMem' hActive
  rw [hNot] at hTaken
  exact Bool.false_ne_true (of_decide_eq_true hTaken).2

theorem SessionsWellFormed.setSessionKey (h : SessionsWellFormed db)
    (conversationId : ConversationId)
    (hFree : ∀ c ∈ db.conversations, c.active = true → c.sessionKey ≠ some key) :
    setSessionKey db conversationId key =
        .ok (updateConversation db conversationId fun c => { c with sessionKey := some key }) ∧
      SessionsWellFormed
        (updateConversation db conversationId fun c => { c with sessionKey := some key }) := by
  refine ⟨setSessionKey_of_free conversationId hFree, ?_⟩
  refine h.update (fun _ => rfl) fun other c _ _ _ hKey c' hMem' _ hActive' => ?_
  rw [← Option.some.inj hKey]
  exact hFree c' hMem' hActive'

/-! ## Rows that are created -/

theorem insertConversation_ok {input : CreateConversationInput} (h : SessionsWellFormed db)
    (hInsert : insertConversation db now input = .ok (db', record)) :
    SessionsWellFormed db' ∧ record ∈ db'.conversations ∧ record.sessionId = input.sessionId ∧
      record.sessionKey = input.sessionKey ∧ record.active = input.active ∧
      db'.conversations = db.conversations ++ [record] := by
  unfold insertConversation at hInsert
  dsimp only at hInsert
  split at hInsert
  · cases hInsert
  · rename_i hFree
    cases hInsert
    rw [Bool.not_eq_true, keyTaken_eq_false] at hFree
    have hNew : ∀ c ∈ db.conversations, c.conversationId ≠ db.conversationSequence + 1 :=
      fun c hMem => Nat.ne_of_lt (Nat.lt_succ_of_le (h.bound c hMem))
    refine ⟨⟨?_, ?_, ?_⟩, List.mem_append_right _ (List.mem_singleton_self _), rfl, rfl, rfl, rfl⟩
    · intro c hMem
      rcases List.mem_append.mp hMem with hOld | hLast
      · exact Nat.le_succ_of_le (h.bound c hOld)
      · rw [List.mem_singleton.mp hLast]
    · rw [List.map_append]
      refine List.Nodup.append h.nodup (List.nodup_singleton _) ?_
      rw [List.map_singleton, List.disjoint_singleton]
      intro hMem
      obtain ⟨c, hOld, hId⟩ := List.mem_map.mp hMem
      exact hNew c hOld hId
    · intro key c hMem c' hMem' hActive hActive' hKey hKey'
      rcases List.mem_append.mp hMem with hOld | hLast <;>
        rcases List.mem_append.mp hMem' with hOld' | hLast'
      · exact h.keys key c hOld c' hOld' hActive hActive' hKey hKey'
      · obtain rfl := List.mem_singleton.mp hLast'
        have hSome := Option.isSome_of_eq_some hKey'
        exact absurd (hKey.trans hKey'.symm) (hFree c hOld (hNew c hOld) hActive hActive' hSome)
      · obtain rfl := List.mem_singleton.mp hLast
        have hSome := Option.isSome_of_eq_some hKey
        exact absurd (hKey'.trans hKey.symm) (hFree c' hOld' (hNew c' hOld') hActive' hActive hSome)
      · rw [List.mem_singleton.mp hLast, List.mem_singleton.mp hLast']

theorem SessionsWellFormed.createConversation {input : CreateConversationInput}
    (h : SessionsWellFormed db)
    (hCreate : createConversation db now input = .ok (db', record)) : SessionsWellFormed db' := by
  unfold ConversationStore.createConversation at hCreate
  split at hCreate
  · rename_i result hInsert
    cases hCreate
    exact (insertConversation_ok h hInsert).1
  · split at hCreate
    · cases hCreate
      exact h
    · split at hCreate
      · cases hCreate
        exact h
      · cases hCreate

/-- A conversation is created where the key is free. -/
theorem createConversation_of_free (now : Timestamp) (input : CreateConversationInput)
    (hFree : ∀ key, input.sessionKey = some key → ∀ c ∈ db.conversations, c.active = true →
      c.sessionKey ≠ some key) :
    ∃ db' record, ConversationStore.createConversation db now input = .ok (db', record) ∧
      insertConversation db now input = .ok (db', record) := by
  unfold ConversationStore.createConversation
  cases hInsert : insertConversation db now input with
  | ok result => exact ⟨result.1, result.2, rfl, rfl⟩
  | error error =>
    unfold insertConversation at hInsert
    dsimp only at hInsert
    rw [if_neg] at hInsert
    · cases hInsert
    · rw [Bool.not_eq_true, keyTaken_eq_false]
      intro c hMem _ hActive _ hSome hKey
      obtain ⟨key, hInput⟩ := Option.isSome_iff_exists.mp hSome
      exact hFree key hInput c hMem hActive (hKey.trans hInput)

/-! ## What a call returns -/

theorem getConversationBySessionKey_of_mem (h : SessionsWellFormed db)
    (hMem : c ∈ db.conversations) (hActive : c.active = true) (hKey : c.sessionKey = some key) :
    getConversationBySessionKey db key = some c := by
  cases hFound : getConversationBySessionKey db key with
  | none => exact absurd hKey (getConversationBySessionKey_none hFound hMem hActive)
  | some found =>
    obtain ⟨hMem', hKey', hActive'⟩ := getConversationBySessionKey_some hFound
    rw [h.keys key found hMem' c hMem hActive' hActive hKey' hKey]

theorem getConversationBySessionId_none :
    db.getConversationBySessionId sessionId = none ↔
      ∀ c ∈ db.conversations, c.sessionId ≠ sessionId := by
  unfold Db.getConversationBySessionId
  rw [Table.head?_select_eq_none]
  exact forall₂_congr fun c _ => decide_eq_false_iff_not

/-- The row of a session is active if the session has an active one. -/
theorem active_of_getConversationBySessionId
    (h : db.getConversationBySessionId sessionId = some record) :
    record.active = true ↔ ∃ c ∈ db.conversations, c.sessionId = sessionId ∧ c.active = true := by
  obtain ⟨hMem, hSession⟩ := Db.mem_of_getConversationBySessionId h
  constructor
  · exact fun hActive => ⟨record, hMem, hSession, hActive⟩
  · rintro ⟨c, hOther, hSame, hActive⟩
    have hLeast := Table.le_of_head?_select h hOther (decide_eq_true hSame)
    rw [Prod.Lex.toLex_le_toLex, hActive] at hLeast
    by_contra hArchived
    rw [Bool.not_eq_true] at hArchived
    rw [hArchived] at hLeast
    simp at hLeast

/-- The row is the one that the same call finds again. -/
structure Found (db : Db) (sessionId : SessionId) (sessionKey : Option String)
    (record : ConversationRecord) : Prop where
  mem : record ∈ db.conversations
  session : record.sessionId = sessionId
  byKey : ∀ key, normalizedKey sessionKey = some key →
    record.active = true ∧ record.sessionKey = some key
  bySession : normalizedKey sessionKey = none →
    db.getConversationBySessionId sessionId = some record

theorem Found.again (h : SessionsWellFormed db) (hFound : Found db sessionId sessionKey record)
    (now : Timestamp) :
    getOrCreateConversation db now sessionId sessionKey = .ok (db, record) := by
  unfold getOrCreateConversation
  cases hKey : normalizedKey sessionKey with
  | none =>
    dsimp only [Option.bind_none]
    rw [hFound.bySession hKey]
  | some key =>
    obtain ⟨hActive, hSame⟩ := hFound.byKey key hKey
    dsimp only [Option.bind_some]
    rw [getConversationBySessionKey_of_mem h hFound.mem hActive hSame]
    dsimp only
    rw [if_neg (not_not.mpr hFound.session)]

theorem insertConversation_keyless (db : Db) (now : Timestamp) (sessionId : SessionId) :
    insertConversation db now { sessionId := sessionId } =
      .ok (db.createConversation now sessionId) := by
  unfold insertConversation
  dsimp only
  rw [if_neg]
  · rfl
  · rw [Bool.not_eq_true, keyTaken_eq_false]
    exact fun _ _ _ _ _ hSome => nomatch hSome

/-- The first lookup of a call finds the row of the key. -/
theorem found_of_byKey (h : SessionsWellFormed db) (hKey : normalizedKey sessionKey = some key)
    (hByKey : getConversationBySessionKey db key = some c) (now : Timestamp)
    (sessionId : SessionId) :
    ∃ db' record, getOrCreateConversation db now sessionId sessionKey = .ok (db', record) ∧
      SessionsWellFormed db' ∧ Found db' sessionId sessionKey record := by
  obtain ⟨hMem, hSame, hActive⟩ := getConversationBySessionKey_some hByKey
  unfold getOrCreateConversation
  rw [hKey]
  dsimp only [Option.bind_some]
  rw [hByKey]
  dsimp only
  split
  · have hWell := h.setSessionId c.conversationId sessionId
    have hMem' : { c with sessionId := sessionId } ∈
        (setSessionId db c.conversationId sessionId).conversations :=
      mem_updateConversation_of_id hMem
    have hRead := hWell.getConversation hMem'
    refine ⟨_, _, rfl, hWell, ?_⟩
    dsimp only at hRead
    rw [hRead]
    refine ⟨hMem', rfl, fun other hOther => ?_, fun hNone => ?_⟩
    · rw [hKey] at hOther
      exact ⟨hActive, hSame.trans hOther⟩
    · rw [hKey] at hNone
      cases hNone
  · rename_i hSession
    refine ⟨_, _, rfl, h, hMem, not_not.mp hSession, fun other hOther => ?_, fun hNone => ?_⟩
    · rw [hKey] at hOther
      exact ⟨hActive, hSame.trans hOther⟩
    · rw [hKey] at hNone
      cases hNone

/-- A row without a key gets the one that no active row has. -/
theorem found_of_setSessionKey (h : SessionsWellFormed db)
    (hKey : normalizedKey sessionKey = some key)
    (hFree : ∀ c ∈ db.conversations, c.active = true → c.sessionKey ≠ some key)
    (hMem : c ∈ db.conversations) (hSession : c.sessionId = sessionId)
    (hActive : c.active = true) :
    ∃ db', setSessionKey db c.conversationId key = .ok db' ∧ SessionsWellFormed db' ∧
      Found db' sessionId sessionKey ((db'.getConversation c.conversationId).getD c) := by
  obtain ⟨hOk, hWell⟩ := h.setSessionKey c.conversationId hFree
  have hMem' : { c with sessionKey := some key } ∈ (updateConversation db c.conversationId
      fun c => { c with sessionKey := some key }).conversations :=
    mem_updateConversation_of_id hMem
  have hRead := hWell.getConversation hMem'
  dsimp only at hRead
  refine ⟨_, hOk, hWell, ?_⟩
  rw [hRead]
  refine ⟨hMem', hSession, fun other hOther => ⟨hActive, hKey.symm.trans hOther⟩, fun hNone => ?_⟩
  rw [hKey] at hNone
  cases hNone

/-- A row is created for a key that no active row has. -/
theorem found_of_create (h : SessionsWellFormed db) (hKey : normalizedKey sessionKey = some key)
    (hFree : ∀ c ∈ db.conversations, c.active = true → c.sessionKey ≠ some key) (now : Timestamp)
    (sessionId : SessionId) :
    ∃ db' record, createConversation db now
        { sessionId := sessionId, sessionKey := normalizedKey sessionKey } = .ok (db', record) ∧
      SessionsWellFormed db' ∧ Found db' sessionId sessionKey record := by
  obtain ⟨db', record, hCreate, hInsert⟩ := createConversation_of_free now
    { sessionId := sessionId, sessionKey := normalizedKey sessionKey } fun other hOther =>
      Option.some.inj (hKey.symm.trans hOther) ▸ hFree
  obtain ⟨hWell, hMem, hSession, hSame, hActive, -⟩ := insertConversation_ok h hInsert
  refine ⟨db', record, hCreate, hWell, hMem, hSession, fun other hOther => ?_, fun hNone => ?_⟩
  · exact ⟨hActive, hSame.trans hOther⟩
  · rw [hKey] at hNone
    cases hNone

/-- With a key, a call returns the active row of the key. -/
theorem getOrCreateConversation_of_key (h : SessionsWellFormed db)
    (hKey : normalizedKey sessionKey = some key) (now : Timestamp) (sessionId : SessionId) :
    ∃ db' record, getOrCreateConversation db now sessionId sessionKey = .ok (db', record) ∧
      SessionsWellFormed db' ∧ Found db' sessionId sessionKey record := by
  cases hByKey : getConversationBySessionKey db key with
  | some c => exact found_of_byKey h hKey hByKey now sessionId
  | none =>
    have hFree : ∀ c ∈ db.conversations, c.active = true → c.sessionKey ≠ some key :=
      fun c hMem hActive => getConversationBySessionKey_none hByKey hMem hActive
    have hCreated := found_of_create h hKey hFree now sessionId
    unfold getOrCreateConversation
    dsimp only
    rw [hKey] at hCreated ⊢
    rw [Option.bind_some, hByKey]
    dsimp only
    split
    · rename_i hNone
      cases hNone
    · rename_i existing other hExisting hOther
      cases hOther
      obtain ⟨hMem, hSession⟩ := Db.mem_of_getConversationBySessionId hExisting
      split
      · rename_i hFill
        obtain ⟨db', hOk, hWell, hFound⟩ :=
          found_of_setSessionKey h hKey hFree hMem hSession hFill.1
        rw [hOk]
        exact ⟨db', _, rfl, hWell, hFound⟩
      · split
        · rename_i hSame
          exact absurd hSame.2 (hFree existing hMem hSame.1)
        · exact hCreated
    · exact hCreated

/-- Without a key, a call returns the newest row of the session, active rows first. -/
theorem getOrCreateConversation_keyless (h : SessionsWellFormed db)
    (hKey : normalizedKey sessionKey = none) (now : Timestamp) (sessionId : SessionId) :
    getOrCreateConversation db now sessionId sessionKey =
        .ok (db.getOrCreateConversation now sessionId) ∧
      SessionsWellFormed (db.getOrCreateConversation now sessionId).1 ∧
      Found (db.getOrCreateConversation now sessionId).1 sessionId sessionKey
        (db.getOrCreateConversation now sessionId).2 := by
  unfold getOrCreateConversation Db.getOrCreateConversation
  dsimp only
  rw [hKey, Option.bind_none]
  cases hExisting : db.getConversationBySessionId sessionId with
  | some existing =>
    obtain ⟨hMem, hSession⟩ := Db.mem_of_getConversationBySessionId hExisting
    refine ⟨rfl, h, hMem, hSession, fun key hSome => ?_, fun _ => hExisting⟩
    rw [hKey] at hSome
    cases hSome
  | none =>
    have hInsert := insertConversation_keyless db now sessionId
    obtain ⟨hWell, hMem, hSession, -⟩ := insertConversation_ok h hInsert
    refine ⟨?_, hWell, hMem, hSession, fun key hSome => ?_, fun _ => ?_⟩
    · unfold createConversation
      rw [hInsert]
    · rw [hKey] at hSome
      cases hSome
    · exact Db.getConversationBySessionId_create_self now hExisting

theorem SessionsWellFormed.getOrCreateConversation (h : SessionsWellFormed db) (now : Timestamp)
    (sessionId : SessionId) (sessionKey : Option String) :
    ∃ db' record, getOrCreateConversation db now sessionId sessionKey = .ok (db', record) ∧
      SessionsWellFormed db' ∧ Found db' sessionId sessionKey record := by
  cases hKey : normalizedKey sessionKey with
  | none => exact ⟨_, _, getOrCreateConversation_keyless h hKey now sessionId⟩
  | some key => exact getOrCreateConversation_of_key h hKey now sessionId

/-- A key is given, or the session has an active conversation, or none at all. -/
def HasActive (db : Db) (sessionId : SessionId) (sessionKey : Option String) : Prop :=
  normalizedKey sessionKey ≠ none ∨
    (∃ c ∈ db.conversations, c.sessionId = sessionId ∧ c.active = true) ∨
    ∀ c ∈ db.conversations, c.sessionId ≠ sessionId

theorem active_iff_hasActive (h : SessionsWellFormed db)
    (hOk : getOrCreateConversation db now sessionId sessionKey = .ok (db', record)) :
    record.active = true ↔ HasActive db sessionId sessionKey := by
  cases hKey : normalizedKey sessionKey with
  | some key =>
    obtain ⟨db₁, record₁, hOk₁, -, hFound⟩ := getOrCreateConversation_of_key h hKey now sessionId
    rw [hOk] at hOk₁
    cases hOk₁
    have hGiven : normalizedKey sessionKey ≠ none := by
      rw [hKey]
      exact Option.some_ne_none key
    exact iff_of_true (hFound.byKey key hKey).1 (Or.inl hGiven)
  | none =>
    have hOk₁ := (getOrCreateConversation_keyless h hKey now sessionId).1
    rw [hOk] at hOk₁
    unfold HasActive
    rw [hKey, or_iff_right (fun hNot => hNot rfl), ← getConversationBySessionId_none]
    unfold Db.getOrCreateConversation at hOk₁
    cases hExisting : db.getConversationBySessionId sessionId with
    | some existing =>
      rw [hExisting] at hOk₁
      cases hOk₁
      rw [active_of_getConversationBySessionId hExisting]
      exact (or_iff_left (Option.some_ne_none _)).symm
    | none =>
      rw [hExisting] at hOk₁
      cases hOk₁
      exact iff_of_true rfl (Or.inr rfl)

/-! ## Runs -/

inductive Action
  | create (now : Timestamp) (input : CreateConversationInput)
  | getOrCreate (now : Timestamp) (sessionId : SessionId) (sessionKey : Option String)
  | archive (conversationId : ConversationId)
  deriving DecidableEq, Repr

/-- A call that raises changes nothing. -/
def step (db : Db) : Action → Db
  | .create now input =>
      match createConversation db now input with
      | .ok (db, _) => db
      | .error _ => db
  | .getOrCreate now sessionId sessionKey =>
      match getOrCreateConversation db now sessionId sessionKey with
      | .ok (db, _) => db
      | .error _ => db
  | .archive conversationId => archiveConversation db conversationId

/-- What is owed of a step: the key of an active conversation is its own, and
`get_or_create_conversation` returns an active conversation of the session and the key, which
it returns again without a change. -/
structure OneActive (db : Db) (action : Action) : Prop where
  keys : ∀ key, ((step db action).conversations.countP fun c =>
    c.active && decide (c.sessionKey = some key)) ≤ 1
  found : ∀ now sessionId sessionKey, action = .getOrCreate now sessionId sessionKey →
    ∃ record, getOrCreateConversation db now sessionId sessionKey =
        .ok (step db action, record) ∧
      record.active = true ∧ record.sessionId = sessionId ∧
      (∀ key, normalizedKey sessionKey = some key → record.sessionKey = some key) ∧
      ∀ later, getOrCreateConversation (step db action) later sessionId sessionKey =
        .ok (step db action, record)

/-- Calls without a key are about sessions with an active conversation, or with none. -/
def Action.HasActive (db : Db) : Action → Prop
  | .create _ _ => True
  | .getOrCreate _ sessionId sessionKey => ConversationStore.HasActive db sessionId sessionKey
  | .archive _ => True

theorem SessionsWellFormed.step (h : SessionsWellFormed db) (action : Action) :
    SessionsWellFormed (step db action) := by
  unfold ConversationStore.step
  cases action with
  | create now input =>
    dsimp only
    split
    · rename_i hCreate
      exact h.createConversation hCreate
    · exact h
  | getOrCreate now sessionId sessionKey =>
    obtain ⟨db', record, hOk, hWell, -⟩ := h.getOrCreateConversation now sessionId sessionKey
    dsimp only
    rw [hOk]
    exact hWell
  | archive conversationId => exact h.archiveConversation conversationId

theorem SessionsWellFormed.countP_key_le (h : SessionsWellFormed db) (key : String) :
    (db.conversations.countP fun c => c.active && decide (c.sessionKey = some key)) ≤ 1 := by
  rw [List.countP_eq_length_filter]
  have hNodup := (h.nodup.of_map _).filter fun c => c.active && decide (c.sessionKey = some key)
  have hSame : ∀ c ∈ db.conversations.filter fun c => c.active && decide (c.sessionKey = some key),
      ∀ c' ∈ db.conversations.filter fun c => c.active && decide (c.sessionKey = some key),
        c = c' := by
    intro c hMem c' hMem'
    rw [List.mem_filter, Bool.and_eq_true, decide_eq_true_eq] at hMem hMem'
    exact h.keys key c hMem.1 c' hMem'.1 hMem.2.1 hMem'.2.1 hMem.2.2 hMem'.2.2
  generalize db.conversations.filter _ = rows at hNodup hSame
  match rows with
  | [] => exact Nat.zero_le _
  | [_] => exact Nat.le_refl _
  | c :: c' :: rows =>
    obtain rfl := hSame c List.mem_cons_self c' (List.mem_cons_of_mem _ List.mem_cons_self)
    exact absurd List.mem_cons_self (List.nodup_cons.mp hNodup).1

theorem SessionsWellFormed.step_oneActive_iff (h : SessionsWellFormed db) (action : Action) :
    OneActive db action ↔ action.HasActive db := by
  cases action with
  | create now input =>
    exact iff_of_true ⟨(h.step _).countP_key_le, fun _ _ _ hNot => nomatch hNot⟩ trivial
  | archive conversationId =>
    exact iff_of_true ⟨(h.step _).countP_key_le, fun _ _ _ hNot => nomatch hNot⟩ trivial
  | getOrCreate now sessionId sessionKey =>
    obtain ⟨db', record, hOk, hWell, hFound⟩ :=
      h.getOrCreateConversation now sessionId sessionKey
    have hStep : ConversationStore.step db (.getOrCreate now sessionId sessionKey) = db' := by
      unfold ConversationStore.step
      dsimp only
      rw [hOk]
    constructor
    · intro hActive
      obtain ⟨record', hOk', hIs, -⟩ := hActive.found now sessionId sessionKey rfl
      exact (active_iff_hasActive h hOk').mp hIs
    · intro hHas
      refine ⟨(h.step _).countP_key_le, fun now' sessionId' sessionKey' hSame => ?_⟩
      cases hSame
      rw [hStep]
      exact ⟨record, hOk, (active_iff_hasActive h hOk).mpr hHas, hFound.session,
        fun key hKey => (hFound.byKey key hKey).2, hFound.again hWell⟩

/-- In every run from an empty database. -/
theorem oneActive_iff (actions : List Action) :
    Run.Along step OneActive .empty actions ↔
      Run.Along step (fun db action => action.HasActive db) .empty actions :=
  Run.along_iff_of_invariant (fun _ action h => h.step_oneActive_iff action)
    (fun _ action h _ => h.step action) sessionsWellFormed_empty

/-- The only conversation of the session is archived, and a call without a key returns it. -/
theorem archived_returned :
    let actions := [Action.getOrCreate 1 "s" none, .archive 1, .getOrCreate 2 "s" none]
    let db := Run.final step .empty (actions.take 2)
    getOrCreateConversation db 2 "s" none = .ok (db, ⟨1, "s", none, false, 1⟩) ∧
      ¬Run.Along step OneActive .empty actions := by
  refine ⟨rfl, fun hAlong => ?_⟩
  obtain ⟨record, hOk, hActive, -⟩ := hAlong.2.2.1.found 2 "s" none rfl
  cases hOk
  exact Bool.false_ne_true hActive

end LosslessHermes.ConversationStore
