import LosslessHermes.Operator.Reconciled
import LosslessHermes.Operator.SessionPurge

/-!
# Purges at the end of a history

Each kind of step is taken apart: a call of `get_or_create_conversation` either gives a
conversation its missing key (`getOrCreate_fills`) or keeps the keys (`getOrCreate_keeps`), a
pass files a summary under the key of its conversation, and a reconciliation moves keys and
copies alike, but for the copies of conversations without a key.
-/

namespace LosslessHermes.SessionKeyDb

open ConversationStore OperatorDb

/-! ## Calls that look up a conversation -/

section Sessions

variable {db db' : Db} {now : Timestamp} {sessionId : SessionId} {sessionKey : Option String}
  {key : String} {c record : ConversationRecord}

theorem getOrCreate_fills (h : FillsKey db sessionId sessionKey key c) (now : Timestamp) :
    ∃ found, getOrCreateConversation db now sessionId sessionKey =
      .ok (updateConversation db c.conversationId fun c => { c with sessionKey := some key },
        found) := by
  obtain ⟨hKey, hByKey, hBySession, hActive, hNone⟩ := h
  have hSet := setSessionKey_of_free c.conversationId fun c' hMem hActive' =>
    getConversationBySessionKey_none hByKey hMem hActive'
  unfold getOrCreateConversation
  rw [hKey]
  dsimp only [Option.bind_some]
  rw [hByKey]
  dsimp only
  rw [hBySession]
  dsimp only
  rw [if_pos ⟨hActive, hNone⟩, hSet]
  exact ⟨_, rfl⟩

theorem createConversation_cases {input : CreateConversationInput}
    (h : createConversation db now input = .ok (db', record)) :
    db' = db ∨ insertConversation db now input = .ok (db', record) := by
  unfold createConversation at h
  split at h
  · rename_i result hInsert
    cases h
    exact Or.inr hInsert
  · split at h
    · cases h
      exact Or.inl rfl
    · split at h
      · cases h
        exact Or.inl rfl
      · cases h

/-- Without a key to fill in, a call gives a row another session id or creates one. -/
theorem getOrCreate_keeps (hNot : ∀ key c, ¬FillsKey db sessionId sessionKey key c)
    (h : getOrCreateConversation db now sessionId sessionKey = .ok (db', record)) :
    db' = db ∨ (∃ conversationId, db' = setSessionId db conversationId sessionId) ∨
      ∃ input, insertConversation db now input = .ok (db', record) := by
  unfold getOrCreateConversation at h
  dsimp only at h
  have hCreated : ∀ {input}, createConversation db now input = .ok (db', record) →
      db' = db ∨ (∃ conversationId, db' = setSessionId db conversationId sessionId) ∨
        ∃ input, insertConversation db now input = .ok (db', record) := by
    intro input hCreate
    rcases createConversation_cases hCreate with hSame | hInsert
    · exact Or.inl hSame
    · exact Or.inr (Or.inr ⟨input, hInsert⟩)
  split at h
  · rename_i byKey hByKey
    split at h
    · cases h
      exact Or.inr (Or.inl ⟨byKey.conversationId, rfl⟩)
    · cases h
      exact Or.inl rfl
  · rename_i hNone
    split at h
    · cases h
      exact Or.inl rfl
    · rename_i existing key hSession hKey
      split at h
      · rename_i hFree
        rw [hKey, Option.bind_some] at hNone
        exact absurd ⟨hKey, hNone, hSession, hFree.1, hFree.2⟩ (hNot key existing)
      · split at h
        · cases h
          exact Or.inl rfl
        · exact hCreated h
    · exact hCreated h

end Sessions

variable {db : SessionKeyDb} {args : ReconcileArgs} {auditId : ConversationId → String}

/-! ## What keeps the rows filed, and the copies right -/

theorem copiesAgree_of_same {db db' : OperatorDb} (hAgree : db.CopiesAgree)
    (hSummaries : db'.summaries = db.summaries) (hCopies : db'.sessionKey = db.sessionKey)
    (hKeys : ∀ c' ∈ db'.conversations, ∀ s ∈ db.summaries, c'.conversationId = s.conversationId →
      ∃ c ∈ db.conversations, c.conversationId = c'.conversationId ∧
        c.sessionKey = c'.sessionKey) : db'.CopiesAgree := by
  intro s hMem hLeaf hLive c' hConv' hHome'
  rw [hSummaries] at hMem
  obtain ⟨c, hConv, hId, hKey⟩ := hKeys c' hConv' s hMem hHome'
  rw [hCopies, ← hKey]
  exact hAgree s hMem hLeaf hLive c hConv (hId.trans hHome')

/-- An update of a conversation other than of its id. -/
theorem Filed.update (h : Filed db.toOperatorDb) (conversationId : ConversationId)
    {set : ConversationRecord → ConversationRecord}
    (hId : ∀ c, (set c).conversationId = c.conversationId) :
    Filed ({ db with toDb := updateConversation db.toDb conversationId set } :
      SessionKeyDb).toOperatorDb := by
  have hIds : (updateConversation db.toDb conversationId set).conversations.map
      (·.conversationId) = db.conversations.map (·.conversationId) := ids_updateConversation hId
  refine ⟨?_, ?_, h.summaries, ?_⟩
  · intro c hMem
    obtain ⟨old, hOld, rfl⟩ := mem_updateConversation hMem
    split
    · rw [hId]
      exact h.bound old hOld
    · exact h.bound old hOld
  · show ((updateConversation db.toDb conversationId set).conversations.map
      (·.conversationId)).Nodup
    rw [hIds]
    exact h.conversations
  · intro s hMem
    obtain ⟨c, hConv, hHome⟩ := h.home s hMem
    have hListed : c.conversationId ∈ (updateConversation db.toDb conversationId
        set).conversations.map (·.conversationId) := by
      rw [hIds]
      exact List.mem_map_of_mem hConv
    obtain ⟨c', hConv', hSame⟩ := List.mem_map.mp hListed
    exact ⟨c', hConv', hSame.trans hHome⟩

theorem insertConversation_rows {db db' : Db} {now : Timestamp} {input : CreateConversationInput}
    {record : ConversationRecord} (h : insertConversation db now input = .ok (db', record)) :
    db' = { db with
        conversations := db.conversations ++ [record]
        conversationSequence := db.conversationSequence + 1 } ∧
      record.conversationId = db.conversationSequence + 1 := by
  unfold insertConversation at h
  dsimp only at h
  split at h
  · cases h
  · cases h
    exact ⟨rfl, rfl⟩

theorem Filed.not_mem_new (h : Filed db.toOperatorDb) :
    db.conversationSequence + 1 ∉ db.conversations.map (·.conversationId) := by
  intro hMem
  obtain ⟨c, hConv, hId⟩ := List.mem_map.mp hMem
  have hBound := h.bound c hConv
  rw [hId] at hBound
  exact absurd hBound (Nat.not_succ_le_self _)

theorem Filed.getOrCreate (h : Filed db.toOperatorDb) (now : Timestamp) (sessionId : SessionId)
    (sessionKey : Option String) :
    Filed (db.step (.getOrCreate now sessionId sessionKey)).toOperatorDb := by
  unfold SessionKeyDb.step
  dsimp only
  split
  · rename_i db' record hCall
    by_cases hFills : ∃ key c, FillsKey db.toDb sessionId sessionKey key c
    · obtain ⟨key, c, hFills⟩ := hFills
      obtain ⟨found, hFilled⟩ := getOrCreate_fills hFills now
      cases hFilled.symm.trans hCall
      exact Filed.update h c.conversationId fun _ => rfl
    · push Not at hFills
      rcases getOrCreate_keeps hFills hCall with rfl | ⟨conversationId, rfl⟩ | ⟨input, hInsert⟩
      · exact h
      · exact Filed.update h conversationId fun _ => rfl
      · obtain ⟨rfl, hId⟩ := insertConversation_rows hInsert
        refine ⟨?_, ?_, h.summaries, ?_⟩
        · intro c hMem
          rcases List.mem_append.mp hMem with hOld | hLast
          · exact Nat.le_succ_of_le (h.bound c hOld)
          · rw [List.mem_singleton.mp hLast, hId]
        · show ((db.conversations ++ [record]).map (·.conversationId)).Nodup
          rw [List.map_append, List.map_singleton, hId]
          refine List.Nodup.append h.conversations (List.nodup_singleton _) ?_
          rw [List.disjoint_singleton]
          exact Filed.not_mem_new h
        · intro s hMem
          obtain ⟨c, hConv, hHome⟩ := h.home s hMem
          exact ⟨c, List.mem_append_left _ hConv, hHome⟩
  · exact h

/-- The copies stay right unless a conversation with a leaf gets its key. -/
theorem copiesAgree_getOrCreate (h : Filed db.toOperatorDb) (hAgree : db.CopiesAgree)
    (now : Timestamp) (sessionId : SessionId) (sessionKey : Option String) :
    (db.step (.getOrCreate now sessionId sessionKey)).CopiesAgree ↔
      KeepsCopies db (.getOrCreate now sessionId sessionKey) := by
  by_cases hFills : ∃ key c, FillsKey db.toDb sessionId sessionKey key c
  · obtain ⟨key, c, hFills⟩ := hFills
    obtain ⟨found, hFilled⟩ := getOrCreate_fills hFills now
    have hStep : db.step (.getOrCreate now sessionId sessionKey) = { db with
        toDb := updateConversation db.toDb c.conversationId
          fun c => { c with sessionKey := some key } } := by
      unfold SessionKeyDb.step
      dsimp only
      rw [hFilled]
    obtain ⟨hConv, -⟩ := Db.mem_of_getConversationBySessionId hFills.2.2.1
    rw [hStep]
    constructor
    · rintro hAfter key' c' ⟨-, -, hBySession, -⟩ ⟨s, hMem, hLeaf, hLive, hHome⟩
      obtain ⟨hKey, -, hBySession', -, hNone⟩ := hFills
      obtain rfl : c' = c := Option.some.inj (hBySession.symm.trans hBySession')
      have hCopy := hAgree s hMem hLeaf hLive c' hConv hHome.symm
      have hCopy' := hAfter s hMem hLeaf hLive _ (mem_updateConversation_of_id hConv) hHome.symm
      rw [hNone] at hCopy
      obtain ⟨-, hNe⟩ := Option.filter_eq_some_iff.mp hKey
      exact of_decide_eq_true hNe (hCopy'.symm.trans hCopy)
    · intro hKeeps s hMem hLeaf hLive c' hConv' hHome'
      obtain ⟨old, hOld, rfl⟩ := mem_updateConversation hConv'
      by_cases hHere : old.conversationId = c.conversationId
      · rw [if_pos hHere] at hHome'
        exact absurd ⟨s, hMem, hLeaf, hLive, hHome'.symm.trans hHere⟩ (hKeeps key c hFills)
      · rw [if_neg hHere] at hHome' ⊢
        exact hAgree s hMem hLeaf hLive old hOld hHome'
  · push Not at hFills
    refine iff_of_true ?_ fun key c hCall => absurd hCall (hFills key c)
    unfold SessionKeyDb.step
    dsimp only
    split
    · rename_i db' record hCall
      rcases getOrCreate_keeps hFills hCall with rfl | ⟨conversationId, rfl⟩ | ⟨input, hInsert⟩
      · exact hAgree
      · refine copiesAgree_of_same hAgree rfl rfl fun c' hConv' s _ _ => ?_
        obtain ⟨c, hConv, rfl⟩ := mem_updateConversation hConv'
        refine ⟨c, hConv, ?_⟩
        split
        · exact ⟨rfl, rfl⟩
        · exact ⟨rfl, rfl⟩
      · obtain ⟨rfl, hId⟩ := insertConversation_rows hInsert
        refine copiesAgree_of_same hAgree rfl rfl fun c' hConv' s hMem hHome => ?_
        rcases List.mem_append.mp hConv' with hOld | hLast
        · exact ⟨c', hOld, rfl, rfl⟩
        · -- No summary belongs to a conversation that is yet to be created.
          obtain ⟨c, hConv, hHome'⟩ := h.home s hMem
          rw [List.mem_singleton.mp hLast, hId] at hHome
          exact absurd (List.mem_map.mpr ⟨c, hConv, hHome'.trans hHome.symm⟩) (Filed.not_mem_new h)
    · exact hAgree

/-! ## Ingestion and passes -/

theorem Filed.withRows (h : Filed db.toOperatorDb) {db' : Db}
    (hFiles : Compaction.Files db.toDb db') : Filed (db.withRows db').toOperatorDb := by
  obtain ⟨hConvs, hSequence, hSummaries⟩ := hFiles
  have hRows : (db'.summaries.map (·.summaryId)).Nodup ∧ ∀ s ∈ db'.summaries,
      ∃ c ∈ db.conversations, c.conversationId = s.conversationId := by
    rcases hSummaries with hSame | ⟨record, hFresh, hConversation, hAdded⟩
    · rw [hSame]
      exact ⟨h.summaries, h.home⟩
    · rw [hAdded]
      refine ⟨?_, fun s hMem => ?_⟩
      · rw [List.map_append, List.map_singleton]
        refine List.Nodup.append h.summaries (List.nodup_singleton _) ?_
        rw [List.disjoint_singleton]
        exact hFresh
      · rcases List.mem_append.mp hMem with hOld | hLast
        · exact h.home s hOld
        · obtain ⟨c, hFound⟩ := Option.isSome_iff_exists.mp hConversation
          have hId := List.find?_some hFound
          rw [List.mem_singleton.mp hLast]
          exact ⟨c, List.mem_of_find?_eq_some hFound, of_decide_eq_true hId⟩
  refine ⟨?_, ?_, hRows.1, ?_⟩
  · show ∀ c ∈ db'.conversations, c.conversationId ≤ db'.conversationSequence
    rw [hConvs, hSequence]
    exact h.bound
  · show (db'.conversations.map (·.conversationId)).Nodup
    rw [hConvs]
    exact h.conversations
  · show ∀ s ∈ db'.summaries, ∃ c ∈ db'.conversations, c.conversationId = s.conversationId
    rw [hConvs]
    exact hRows.2

/-- A new summary has the key of its conversation. -/
theorem copiesAgree_withRows (h : Filed db.toOperatorDb) (hAgree : db.CopiesAgree) {db' : Db}
    (hFiles : Compaction.Files db.toDb db') : (db.withRows db').CopiesAgree := by
  have hRows := Filed.withRows h hFiles
  obtain ⟨hConvs, -, hSummaries⟩ := hFiles
  intro s hMem hLeaf hLive c hConv hHome
  have hConv' : c ∈ db.conversations := hConvs ▸ hConv
  unfold SessionKeyDb.withRows
  dsimp only
  by_cases hOld : s.summaryId ∈ db.summaries.map (·.summaryId)
  · rw [if_pos hOld]
    obtain ⟨old, hOldMem, hId⟩ := List.mem_map.mp hOld
    have hKept : old ∈ db'.summaries := by
      rcases hSummaries with hSame | ⟨record, -, -, hAdded⟩
      · rw [hSame]
        exact hOldMem
      · rw [hAdded]
        exact List.mem_append_left _ hOldMem
    obtain rfl : old = s := List.inj_on_of_nodup_map hRows.summaries hKept hMem hId
    exact hAgree old hOldMem hLeaf hLive c hConv' hHome
  · rw [if_neg hOld]
    have hRead : db'.getSummary s.summaryId true = some s := by
      refine Table.find_of_unique hMem (decide_eq_true ⟨rfl, Or.inl rfl⟩) fun other hOther hId => ?_
      exact List.inj_on_of_nodup_map hRows.summaries hOther hMem (of_decide_eq_true hId).1
    have hFound : db'.getConversation s.conversationId = some c := by
      refine Table.find_of_unique hConv (decide_eq_true hHome) fun other hOther hId => ?_
      exact List.inj_on_of_nodup_map hRows.conversations hOther hConv
        ((of_decide_eq_true hId).trans hHome.symm)
    rw [hRead]
    dsimp only
    unfold insertedKey
    rw [hFound]
    rfl

/-! ## Reconciliations -/

theorem insertAudit_some {rows audit audit' : List SessionKeyAuditRow}
    (h : insertAudit rows audit = some audit') : audit' = audit ++ rows := by
  induction rows generalizing audit with
  | nil =>
    cases h
    exact (List.append_nil _).symm
  | cons row rows ih =>
    unfold insertAudit at h
    split at h
    · rename_i audit₁ hRow
      obtain ⟨-, rfl⟩ := Table.insertRow_eq_some.mp hRow
      rw [ih h, List.append_assoc, List.singleton_append]
    · cases h

theorem reconcile_accepted (h : Accepted db args auditId) :
    db.step (.reconcile args auditId) = db.after args auditId := by
  obtain ⟨hValid, hFree, hInsert⟩ := h
  obtain ⟨audit, hAudit⟩ := Option.isSome_iff_exists.mp hInsert
  rw [insertAudit_some hAudit] at hAudit
  obtain ⟨result, hOk⟩ := reconcile_ok hAudit hValid hFree
  show (db.reconcileSessionKeys args auditId).1 = _
  rw [hOk]

/-- A call that is not accepted changes nothing. -/
theorem reconcile_not_accepted (h : ¬Accepted db args auditId) :
    db.step (.reconcile args auditId) = db := by
  show (db.reconcileSessionKeys args auditId).1 = db
  cases hValid : validateReconcile args with
  | error error => rw [reconcile_invalid auditId hValid]
  | ok _ =>
    by_cases hConflict : 1 < db.activeCount args.fromSessionKeys +
        db.activeCount [args.toSessionKey]
    · rw [reconcile_conflict auditId hValid hConflict]
    · have hInsert : insertAudit ((db.affectedConvs args.fromSessionKeys).map
          (auditRow args auditId)) db.sessionKeyAudit = none := by
        rw [← Option.not_isSome_iff_eq_none]
        exact fun hSome => h ⟨hValid, Nat.not_lt.mp hConflict, hSome⟩
      have hMerge : ∃ error, db.mergeKeys args auditId = .error error := by
        unfold mergeKeys
        dsimp only
        split
        · exact ⟨_, rfl⟩
        · rename_i moved hMoved
          have hSame : (moved.moveSummaries args.fromSessionKeys
              args.toSessionKey).sessionKeyAudit = db.sessionKeyAudit := by
            split at hMoved
            · cases hMoved
              rfl
            · unfold moveConversations at hMoved
              dsimp only at hMoved
              split at hMoved
              · cases hMoved
              · cases hMoved
                rfl
          rw [hSame, hInsert]
          exact ⟨_, rfl⟩
      obtain ⟨error, hError⟩ := hMerge
      unfold reconcileSessionKeys
      rw [hValid]
      dsimp only
      by_cases hNone : (db.affectedConvs args.fromSessionKeys).length = 0 ∧
          (db.affectedSummaries args.fromSessionKeys).length = 0
      · rw [List.eq_nil_of_length_eq_zero hNone.1] at hInsert
        cases hInsert
      · rw [withTransaction_error (e := error)]
        unfold reconcileBody
        dsimp only
        rw [if_neg hConflict, if_neg hNone]
        exact hError

theorem conversationId_movedTo {keys : List String} {toSessionKey : String}
    (c : ConversationRecord) : (movedTo keys toSessionKey c).conversationId = c.conversationId := by
  unfold movedTo
  split <;> rfl

theorem Filed.after (h : Filed db.toOperatorDb) (args : ReconcileArgs)
    (auditId : ConversationId → String) : Filed (db.after args auditId).toOperatorDb := by
  unfold SessionKeyDb.after
  split
  · exact h
  · refine ⟨?_, ?_, h.summaries, ?_⟩
    · intro c hMem
      obtain ⟨old, hOld, rfl⟩ := List.mem_map.mp hMem
      rw [conversationId_movedTo]
      exact h.bound old hOld
    · show ((db.conversations.map (movedTo args.fromSessionKeys args.toSessionKey)).map
        (·.conversationId)).Nodup
      rw [List.map_map]
      simp only [Function.comp_def, conversationId_movedTo]
      exact h.conversations
    · intro s hMem
      obtain ⟨c, hConv, hHome⟩ := h.home s hMem
      exact ⟨_, List.mem_map_of_mem hConv, (conversationId_movedTo c).trans hHome⟩

/-- The copies of conversations with a key are moved with them. -/
theorem copiesAgree_merged (hAgree : db.CopiesAgree) :
    (db.merged args auditId).CopiesAgree ↔
      ("" ∈ args.fromSessionKeys → args.toSessionKey ≠ "" → ∀ c ∈ db.conversations,
        c.sessionKey = none → ¬HasLiveLeaf db.toDb c.conversationId) := by
  constructor
  · rintro hAfter hFrom hTo c hConv hNone ⟨s, hMem, hLeaf, hLive, hHome⟩
    have hCopy := hAgree s hMem hLeaf hLive c hConv hHome.symm
    rw [hNone] at hCopy
    have hStays : movedTo args.fromSessionKeys args.toSessionKey c = c :=
      movedTo_of_not_carries (by rw [← Bool.not_eq_true, carries_eq_true_iff, hNone]; simp)
    have hCopy' : (if db.sessionKey s.summaryId ∈ args.fromSessionKeys then args.toSessionKey
        else db.sessionKey s.summaryId) = c.sessionKey.getD "" :=
      hAfter s hMem hLeaf hLive c (List.mem_map.mpr ⟨c, hConv, hStays⟩) hHome.symm
    rw [hCopy, hNone] at hCopy'
    exact hTo ((if_pos hFrom).symm.trans hCopy')
  · intro hKeeps s hMem hLeaf hLive c' hConv' hHome'
    obtain ⟨c, hConv, rfl⟩ := List.mem_map.mp hConv'
    rw [conversationId_movedTo] at hHome'
    have hCopy := hAgree s hMem hLeaf hLive c hConv hHome'
    show (if db.sessionKey s.summaryId ∈ args.fromSessionKeys then args.toSessionKey
        else db.sessionKey s.summaryId) = _
    rw [hCopy]
    cases hKey : c.sessionKey with
    | none =>
      have hStays : movedTo args.fromSessionKeys args.toSessionKey c = c :=
        movedTo_of_not_carries (by rw [← Bool.not_eq_true, carries_eq_true_iff, hKey]; simp)
      rw [hStays, hKey]
      refine ite_eq_right_iff.mpr fun hFrom => ?_
      by_contra hTo
      exact hKeeps hFrom hTo c hConv hKey ⟨s, hMem, hLeaf, hLive, hHome'.symm⟩
    | some key =>
      have hCarries : carries args.fromSessionKeys c = true ↔ key ∈ args.fromSessionKeys := by
        rw [carries_eq_true_iff, hKey]
        simp
      unfold movedTo
      by_cases hIn : key ∈ args.fromSessionKeys
      · rw [Option.getD_some, if_pos hIn, if_pos (hCarries.mpr hIn)]
        rfl
      · rw [Option.getD_some, if_neg hIn, if_neg fun h => hIn (hCarries.mp h), hKey]
        rfl

theorem copiesAgree_reconcile (hAgree : db.CopiesAgree) :
    (db.step (.reconcile args auditId)).CopiesAgree ↔
      KeepsCopies db (.reconcile args auditId) := by
  by_cases hAccepted : Accepted db args auditId
  · rw [reconcile_accepted hAccepted]
    have hKeeps : KeepsCopies db (.reconcile args auditId) ↔
        ("" ∈ args.fromSessionKeys → args.toSessionKey ≠ "" → ∀ c ∈ db.conversations,
          c.sessionKey = none → ¬HasLiveLeaf db.toDb c.conversationId) :=
      ⟨fun h => h hAccepted, fun h _ => h⟩
    rw [hKeeps]
    unfold SessionKeyDb.after
    split
    · -- A leaf of a conversation without a key would be one of the summaries to be moved.
      rename_i hNone
      refine iff_of_true hAgree fun hFrom _ c hConv hKey hLeaf => ?_
      obtain ⟨s, hMem, hKind, hLive, hHome⟩ := hLeaf
      have hCopy := hAgree s hMem hKind hLive c hConv hHome.symm
      rw [hKey, Option.getD_none] at hCopy
      refine List.filter_eq_nil_iff.mp hNone.2 s hMem (decide_eq_true ?_)
      rw [hCopy]
      exact hFrom
    · exact copiesAgree_merged hAgree
  · rw [reconcile_not_accepted hAccepted]
    exact iff_of_true hAgree fun h => absurd h hAccepted

/-! ## Every history -/

theorem Filed.step (h : Filed db.toOperatorDb) (action : Action) :
    Filed (db.step action).toOperatorDb := by
  cases action with
  | getOrCreate now sessionId sessionKey => exact Filed.getOrCreate h now sessionId sessionKey
  | compaction event =>
    exact Filed.withRows h (Compaction.files_step ⟨db.toDb, fun _ => []⟩ event)
  | reconcile args auditId =>
    by_cases hAccepted : Accepted db args auditId
    · rw [reconcile_accepted hAccepted]
      exact Filed.after h args auditId
    · rw [reconcile_not_accepted hAccepted]
      exact h

theorem copiesAgree_step (h : Filed db.toOperatorDb) (hAgree : db.CopiesAgree)
    (action : Action) : (db.step action).CopiesAgree ↔ KeepsCopies db action := by
  cases action with
  | getOrCreate now sessionId sessionKey => exact copiesAgree_getOrCreate h hAgree _ _ _
  | compaction event =>
    exact iff_of_true
      (copiesAgree_withRows h hAgree (Compaction.files_step ⟨db.toDb, fun _ => []⟩ event)) trivial
  | reconcile args auditId => exact copiesAgree_reconcile hAgree

/-- Along a history a purge of any session is complete, and selects what `prune` selects, as
long as the copies of the session keys are kept. -/
theorem sessionPurged_run_iff (h : Filed db.toOperatorDb) (hAgree : db.CopiesAgree)
    (actions : List Action) :
    Run.Along SessionKeyDb.step (fun db action => SessionPurged (db.step action).toOperatorDb)
      db actions ↔ Run.Along SessionKeyDb.step KeepsCopies db actions := by
  refine @Run.along_iff_of_invariant _ _ SessionKeyDb.step _
    (fun db : SessionKeyDb => Filed db.toOperatorDb ∧ db.CopiesAgree) _ ?_ ?_ db actions
    ⟨h, hAgree⟩
  · rintro db action ⟨hFiled, hAgree⟩
    rw [(Filed.step hFiled action).sessionPurged_iff, copiesAgree_step hFiled hAgree]
  · rintro db action ⟨hFiled, hAgree⟩ hPurged
    exact ⟨Filed.step hFiled action, (Filed.step hFiled action).sessionPurged_iff.mp hPurged⟩

/-- Two messages of a session, the first of which is summarized. -/
def summarizedSession (sessionKey : Option String) : List Action :=
  let env : Compaction.PassEnv :=
    { config := { freshTailCount := 1 }
      sourceText := ⟨fun _ content => content, id, fun _ _ => "", fun _ => []⟩
      summarize := fun _ _ _ => .text "one message"
      summaryModel := none
      now := 4
      generateSummaryId := fun _ => "sum_1" }
  [.getOrCreate 1 "s" sessionKey, .compaction (.append 1 2 .user "a" 1 []),
    .compaction (.append 1 3 .assistant "b" 1 []), .compaction (.leafPass 1 env none)]

theorem sessionPurged_run_keyed :
    Run.Along SessionKeyDb.step (fun db action => SessionPurged (db.step action).toOperatorDb)
      (ofConversations []) (summarizedSession (some "k")) := by
  have hFiled : Filed (ofConversations []).toOperatorDb :=
    ⟨fun _ h => (List.not_mem_nil h).elim, List.nodup_nil, List.nodup_nil,
      fun _ h => (List.not_mem_nil h).elim⟩
  have hAgree : (ofConversations []).CopiesAgree := fun _ h => (List.not_mem_nil h).elim
  refine (sessionPurged_run_iff hFiled hAgree _).mpr ⟨?_, trivial, trivial, trivial, trivial⟩
  rintro key c ⟨-, -, hNone, -⟩
  cases hNone

/-- The session gets its key after its first leaf, and a purge of the key leaves that leaf. -/
theorem leaf_left_behind :
    let db := Run.final SessionKeyDb.step (ofConversations [])
      (summarizedSession none ++ [.getOrCreate 5 "s" (some "k")])
    db.conversations.map (·.sessionKey) = [some "k"] ∧
      (db.summaries.map fun s => (s.conversationId, s.suppressedAt)) = [(1, none)] ∧
      db.runPurge ⟨"reason", purgeOf "k", false⟩ "purge_1" 6 =
        .ok (db.toOperatorDb, ⟨[], "purge_1"⟩) ∧
      db.pruneTargetLeafIds (pruneOf "k") = ["sum_1"] ∧ ¬SessionPurged db.toOperatorDb := by
  intro db
  have hPurge : db.resolveTargetLeafIds (purgeOf "k") = [] := by decide +kernel
  have hPrune : db.pruneTargetLeafIds (pruneOf "k") = ["sum_1"] := by decide +kernel
  have hRun : db.runPurge ⟨"reason", purgeOf "k", false⟩ "purge_1" 6 =
      .ok (db.toOperatorDb, ⟨[], "purge_1"⟩) := by
    unfold runPurge
    rw [show validatePurge ⟨"reason", purgeOf "k", false⟩ = .ok () by decide]
    dsimp only
    rw [hPurge, List.length_nil, if_pos rfl]
  refine ⟨by decide +kernel, by decide +kernel, hRun, hPrune, fun hPurged => ?_⟩
  have hSame := hPurged.same "k" (by decide)
  rw [hPurge, hPrune] at hSame
  cases hSame

end LosslessHermes.SessionKeyDb
