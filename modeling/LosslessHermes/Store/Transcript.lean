import LosslessHermes.Store.ContextRange

/-!
# The transcript of a session

The messages a session has stored, read through its conversation, and what a
database that only the store writes to satisfies. `getOrCreateConversation_spec`
says that resolving a conversation neither changes a transcript nor touches
another session.
-/

namespace LosslessHermes.Db

/-- The transcript a session reads: empty until it has a conversation. -/
def storedMessages (db : Db) (sessionId : SessionId) : List MessageRecord :=
  match db.getConversationBySessionId sessionId with
  | some conversation => db.getMessages conversation.conversationId
  | none => []

/-- What the keys of the schema guarantee, and the numbering of the context
items that the two stores keep. -/
structure WellFormed (db : Db) : Prop where
  messages : db.MessagesWellFormed
  contiguous : ∀ c, Contiguous (db.getContextItems c)
  conversationBound : ∀ c ∈ db.conversations, c.conversationId ≤ db.conversationSequence
  conversationNodup : (db.conversations.map (·.conversationId)).Nodup
  messageBound : ∀ m ∈ db.messages, m.conversationId ≤ db.conversationSequence
  partBound : ∀ p ∈ db.messageParts, p.messageId ≤ db.messageSequence

theorem wellFormed_empty : WellFormed Db.empty := by
  refine ⟨⟨?_, ?_, ?_⟩, ?_, ?_, ?_, ?_, ?_⟩ <;>
    simp [Db.empty, Contiguous, getContextItems, Table.select]

/-- What writing to the transcript of one session leaves alone. -/
structure TranscriptFrame (sessionId : SessionId) (db db' : Db) : Prop where
  conversation : ∀ s, s ≠ sessionId →
    db'.getConversationBySessionId s = db.getConversationBySessionId s
  messages : ∀ s, s ≠ sessionId → db'.storedMessages s = db.storedMessages s
  sequence : db.messageSequence ≤ db'.messageSequence
  parts : ∀ m, m ≤ db.messageSequence → db'.getMessageParts m = db.getMessageParts m

theorem TranscriptFrame.refl (sessionId : SessionId) (db : Db) :
    TranscriptFrame sessionId db db :=
  ⟨fun _ _ => rfl, fun _ _ => rfl, Nat.le_refl _, fun _ _ => rfl⟩

variable {db db' : Db}

theorem TranscriptFrame.trans {sessionId : SessionId} {db'' : Db}
    (h : TranscriptFrame sessionId db db') (h' : TranscriptFrame sessionId db' db'') :
    TranscriptFrame sessionId db db'' where
  conversation s hs := (h'.conversation s hs).trans (h.conversation s hs)
  messages s hs := (h'.messages s hs).trans (h.messages s hs)
  sequence := Nat.le_trans h.sequence h'.sequence
  parts m hm := (h'.parts m (Nat.le_trans hm h.sequence)).trans (h.parts m hm)

/-! ## Conversations of a session -/

variable {s : SessionId} {c : ConversationRecord}

theorem mem_of_getConversationBySessionId
    (h : db.getConversationBySessionId s = some c) : c ∈ db.conversations ∧ c.sessionId = s := by
  have hMem := List.mem_of_head? h
  simpa using (Table.mem_select.mp hMem)

theorem getConversation_isSome (h : c ∈ db.conversations) :
    (db.getConversation c.conversationId).isSome = true := by
  unfold getConversation
  rw [List.find?_isSome]
  exact ⟨c, h, by simp⟩

/-- Different sessions have different conversations. -/
theorem WellFormed.conversationId_ne (h : db.WellFormed) {s' : SessionId}
    {c' : ConversationRecord} (hc : db.getConversationBySessionId s = some c)
    (hc' : db.getConversationBySessionId s' = some c') (hs : s' ≠ s) :
    c'.conversationId ≠ c.conversationId := by
  intro hEq
  obtain ⟨hMem, hSession⟩ := mem_of_getConversationBySessionId hc
  obtain ⟨hMem', hSession'⟩ := mem_of_getConversationBySessionId hc'
  have hSame := List.inj_on_of_nodup_map h.conversationNodup hMem' hMem hEq
  rw [hSame, hSession] at hSession'
  exact hs hSession'.symm

theorem getConversationBySessionId_create_other (db : Db) (now : Timestamp) {s' : SessionId}
    (hs : s' ≠ s) :
    (db.createConversation now s).1.getConversationBySessionId s' =
      db.getConversationBySessionId s' := by
  unfold getConversationBySessionId createConversation
  rw [Table.select_append_of_not]
  intro r hr
  rw [List.mem_singleton.mp hr]
  simpa using hs.symm

theorem getConversationBySessionId_create_self (now : Timestamp)
    (hNone : db.getConversationBySessionId s = none) :
    (db.createConversation now s).1.getConversationBySessionId s =
      some (db.createConversation now s).2 := by
  have hNot : ∀ c ∈ db.conversations, decide (c.sessionId = s) = false := by
    intro c hc
    rw [decide_eq_false_iff_not]
    intro hSession
    unfold getConversationBySessionId at hNone
    have hNil := List.head?_eq_none_iff.mp hNone
    refine absurd (Table.mem_select.mpr ⟨hc, ?_⟩) (List.eq_nil_iff_forall_not_mem.mp hNil c)
    simpa using hSession
  unfold getConversationBySessionId createConversation
  rw [Table.select_append_of_new hNot (by simp) (List.pairwise_singleton _ _)]
  rfl

theorem storedMessages_of_conversation (h : db.getConversationBySessionId s = some c) :
    db.storedMessages s = db.getMessages c.conversationId := by
  simp only [storedMessages, h]

theorem storedMessages_congr
    (hConversation : db'.getConversationBySessionId s = db.getConversationBySessionId s)
    (hMessages : ∀ c, db.getConversationBySessionId s = some c →
      db'.getMessages c.conversationId = db.getMessages c.conversationId) :
    db'.storedMessages s = db.storedMessages s := by
  unfold storedMessages
  rw [hConversation]
  cases hc : db.getConversationBySessionId s with
  | none => rfl
  | some c => exact hMessages c hc

/-- Resolving the conversation of a session keeps every transcript. -/
theorem getOrCreateConversation_spec (h : db.WellFormed) (now : Timestamp) (s : SessionId) :
    (db.getOrCreateConversation now s).1.WellFormed ∧
      (db.getOrCreateConversation now s).1.getConversationBySessionId s =
        some (db.getOrCreateConversation now s).2 ∧
      (db.getOrCreateConversation now s).1.storedMessages s = db.storedMessages s ∧
      TranscriptFrame s db (db.getOrCreateConversation now s).1 := by
  unfold getOrCreateConversation
  cases hFound : db.getConversationBySessionId s with
  | some c => exact ⟨h, hFound, rfl, TranscriptFrame.refl s db⟩
  | none =>
    have hSelf := getConversationBySessionId_create_self now hFound
    refine ⟨?_, hSelf, ?_, ⟨?_, ?_, ?_, ?_⟩⟩
    · refine ⟨⟨h.messages.idBound, h.messages.idNodup, h.messages.seqNodup⟩, h.contiguous,
        ?_, ?_, ?_, h.partBound⟩
      · intro c hc
        rcases List.mem_append.mp hc with hc | hc
        · exact Nat.le_succ_of_le (h.conversationBound c hc)
        · rw [List.mem_singleton.mp hc]
          exact Nat.le_refl _
      · simp only [createConversation, List.map_append, List.map_cons, List.map_nil]
        refine List.Nodup.append h.conversationNodup (List.nodup_singleton _) ?_
        rw [List.disjoint_singleton]
        intro hMem
        obtain ⟨c, hc, hEq⟩ := List.mem_map.mp hMem
        exact absurd hEq (Nat.ne_of_lt (Nat.lt_succ_of_le (h.conversationBound c hc)))
      · intro m hm
        exact Nat.le_succ_of_le (h.messageBound m hm)
    · rw [storedMessages_of_conversation hSelf]
      simp only [storedMessages, hFound]
      refine List.eq_nil_iff_forall_not_mem.mpr fun m hm => ?_
      obtain ⟨hMem, hConversation⟩ := mem_getMessages.mp hm
      have hBound := h.messageBound m hMem
      rw [hConversation] at hBound
      exact absurd hBound (Nat.not_succ_le_self _)
    · intro s' hs'
      exact getConversationBySessionId_create_other db now hs'
    · intro s' hs'
      exact storedMessages_congr (getConversationBySessionId_create_other db now hs')
        fun _ _ => rfl
    · exact Nat.le_refl _
    · intro m _
      rfl

/-! ## Writing beside the transcripts -/

/-- The tables of the transcripts are as they were. -/
structure TranscriptsKept (db db' : Db) : Prop where
  wellFormed : db'.WellFormed
  conversations : db'.conversations = db.conversations
  messages : db'.messages = db.messages
  messageParts : db'.messageParts = db.messageParts
  sequence : db'.messageSequence = db.messageSequence

theorem TranscriptsKept.refl (h : db.WellFormed) : TranscriptsKept db db :=
  ⟨h, rfl, rfl, rfl, rfl⟩

theorem TranscriptsKept.stored (h : TranscriptsKept db db') (s : SessionId) :
    db'.storedMessages s = db.storedMessages s := by
  unfold storedMessages getConversationBySessionId getMessages
  rw [h.conversations, h.messages]

theorem TranscriptsKept.frame (h : TranscriptsKept db db') (s : SessionId) :
    TranscriptFrame s db db' where
  conversation _ _ := by
    unfold getConversationBySessionId
    rw [h.conversations]
  messages s' _ := h.stored s'
  sequence := Nat.le_of_eq h.sequence.symm
  parts m _ := by
    unfold getMessageParts
    rw [h.messageParts]

end LosslessHermes.Db
