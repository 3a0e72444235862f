import LosslessHermes.Compaction.Lossless

/-!
# What a step of a run leaves alone

The statements on context items change these items only, whatever ordinals they find. So a
message that is ingested files nothing, and a pass files at most one summary, under a
conversation that exists: `files_step`.
-/

namespace LosslessHermes

namespace Db

variable {db db' : Db} {c : ConversationId}

theorem insertContextItem_frame {item : ContextItemRecord}
    (h : db.insertContextItem item = .ok db') :
    db' = { db with contextItems := db'.contextItems } := by
  unfold insertContextItem at h
  split at h
  · cases h
  · split at h
    · cases h
    · cases h
      rfl

theorem setOrdinals_frame {updates : List (Int × Int)}
    (h : db.setOrdinals c updates = .ok db') :
    db' = { db with contextItems := db'.contextItems } := by
  unfold setOrdinals at h
  split at h
  · cases h
  · cases h
    rfl

theorem resequence_frame (h : db.resequence c = .ok db') :
    db' = { db with contextItems := db'.contextItems } := by
  unfold resequence at h
  dsimp only at h
  split at h
  · split at h
    · cases h
    · rename_i db₁ hFirst
      rw [setOrdinals_frame h, setOrdinals_frame hFirst]
  · cases h
    rfl

theorem replaceContextRange_frame {input : ReplaceContextRangeInput}
    (h : db.replaceContextRangeWithSummary input = .ok db') :
    db' = { db with contextItems := db'.contextItems } := by
  unfold replaceContextRangeWithSummary at h
  dsimp only at h
  split at h
  · cases h
  · rename_i db₁ hInsert
    rw [resequence_frame h, insertContextItem_frame hInsert]

end Db

namespace Compaction

variable {db db' : Db} {c : ConversationId}

/-- The rows of conversations and summaries stay as they are, or one summary is new. -/
def Files (db db' : Db) : Prop :=
  db'.conversations = db.conversations ∧ db'.conversationSequence = db.conversationSequence ∧
    (db'.summaries = db.summaries ∨ ∃ record : SummaryRecord,
      record.summaryId ∉ db.summaries.map (·.summaryId) ∧
        (db.getConversation record.conversationId).isSome ∧
        db'.summaries = db.summaries ++ [record])

theorem Files.refl (db : Db) : Files db db :=
  ⟨rfl, rfl, Or.inl rfl⟩

theorem files_persist {now : Timestamp} {role : MessageRole} {content : String} {tokenCount : Nat}
    {parts : List CreateMessagePartInput} {stored : Bool}
    (h : persist db now c role content tokenCount parts = .ok (db', stored)) : Files db db' := by
  unfold persist at h
  split at h
  · cases h
    exact .refl _
  · cases h
  · rename_i db₁ record hCreate
    have hCreated : Files db db₁ := by
      unfold Db.createMessage at hCreate
      dsimp only at hCreate
      split at hCreate
      · cases hCreate
      · split at hCreate
        · cases hCreate
        · cases hCreate
          exact ⟨rfl, rfl, Or.inl rfl⟩
    split at h
    · cases h
    · rename_i db₂ hParts
      have hFrame : db₂ = { db₁ with messageParts := db₂.messageParts } := by
        unfold Db.createMessageParts at hParts
        split at hParts
        · cases hParts
          rfl
        · split at hParts
          · cases hParts
          · cases hParts
            rfl
      split at h
      · cases h
      · rename_i db₃ hAppend
        cases h
        rw [Db.insertContextItem_frame hAppend, hFrame]
        exact hCreated

theorem files_persistPass {now : Timestamp} {create : CreateSummaryInput}
    {link : Db → Except SqlError Db} {startOrdinal endOrdinal : Int}
    (hLink : OnlyLinks link)
    (h : persistPass db now create link startOrdinal endOrdinal = .ok db') :
    Files db db' := by
  obtain ⟨hConversation, hFresh, linked, hLinked, hReplace⟩ := persistPass_eq_ok h
  rw [Db.replaceContextRange_frame hReplace, hLink _ _ hLinked]
  exact ⟨rfl, rfl, Or.inr ⟨Db.createdSummary now create, hFresh, hConversation, rfl⟩⟩

theorem files_step (s : RunState) (event : Event) :
    Files s.db (s.step event).db := by
  cases event with
  | append c now role content tokenCount parts =>
    show Files s.db (RunState.step s (.append c now role content tokenCount parts)).db
    unfold RunState.step
    dsimp only
    cases hPersist : persist s.db now c role content tokenCount parts with
    | error error =>
      rw [withTransaction_error hPersist]
      exact .refl _
    | ok result =>
      obtain ⟨db', stored⟩ := result
      rw [withTransaction_ok hPersist]
      cases stored with
      | true => exact files_persist hPersist
      | false => exact files_persist hPersist
  | leafPass c env previousSummaryContent =>
    rcases leafPass_cases s.db env c previousSummaryContent with hSame |
      ⟨create, startOrdinal, endOrdinal, -, -, -, -, hPersist⟩
    · show Files s.db (leafPass s.db env c previousSummaryContent).1
      rw [hSame]
      exact .refl _
    · exact files_persistPass (onlyLinks_linkSummaryToMessages _ _) hPersist
  | condensedPass c env hardTrigger =>
    rcases runCondensedPass_cases s.db env c hardTrigger with hSame |
      ⟨candidate, create, startOrdinal, endOrdinal, -, -, -, -, -, hPersist⟩
    · show Files s.db (runCondensedPass s.db env c hardTrigger).1
      rw [hSame]
      exact .refl _
    · exact files_persistPass (onlyLinks_linkSummaryToParents _ _) hPersist

end Compaction

end LosslessHermes
