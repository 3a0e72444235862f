import LosslessHermes.Operator.Cascade
import LosslessHermes.Operator.Reconcile
import LosslessHermes.Compaction.Frame

/-!
# The purge of a session

The key of a session stands on its conversations, and on each summary as a copy that is made
when the summary is inserted. `purge` selects leaves by the copy, `prune` by the conversation.
-/

namespace LosslessHermes

/-- The bounds are the texts that `isoformat` writes. -/
structure PruneCriteria where
  summaryIds : List SummaryId
  sessionKey : Option String
  since : Option String
  before : Option String
  minTokenCount : Option Int
  deriving DecidableEq, Repr

namespace OperatorDb

/-! ## The two selections -/

/-- `_resolve_target_leaf_ids` of `prune`. -/
def pruneTargetLeafIds (db : OperatorDb) (criteria : PruneCriteria) : List SummaryId :=
  match criteria.summaryIds with
  | id :: ids =>
      (db.summaries.filter fun s => s.summaryId ∈ id :: ids ∧ s.kind = .leaf ∧
        s.suppressedAt = none).map (·.summaryId)
  | [] =>
      (db.summaries.filter fun s => s.kind = .leaf ∧ s.suppressedAt = none ∧
        (∀ key ∈ criteria.sessionKey, ∃ c ∈ db.conversations,
          c.sessionKey = some key ∧ c.conversationId = s.conversationId) ∧
        (∀ since ∈ criteria.since, since ≤ db.createdAtText s.summaryId) ∧
        (∀ before ∈ criteria.before, db.createdAtText s.summaryId < before) ∧
        (∀ count ∈ criteria.minTokenCount, count ≤ (s.tokenCount : Int))).map (·.summaryId)

def purgeOf (key : String) : PurgeCriteria :=
  ⟨none, some key, none, none, none⟩

def pruneOf (key : String) : PruneCriteria :=
  ⟨[], some key, none, none, none⟩

/-- After a purge of a session it has no leaf in use, and `prune` would select the same. -/
structure SessionPurged (db : OperatorDb) : Prop where
  complete : ∀ key reason allowMainSession purgeSessionId now db' result,
    db.runPurge ⟨reason, purgeOf key, allowMainSession⟩ purgeSessionId now = .ok (db', result) →
      ∀ c ∈ db'.conversations, c.sessionKey = some key →
        ∀ s ∈ db'.summaries, s.conversationId = c.conversationId → s.kind = .leaf →
          s.suppressedAt ≠ none
  same : ∀ key, key ≠ "" →
    db.resolveTargetLeafIds (purgeOf key) = db.pruneTargetLeafIds (pruneOf key)

/-- Each leaf in use has the key of its conversation. -/
def CopiesAgree (db : OperatorDb) : Prop :=
  ∀ s ∈ db.summaries, s.kind = .leaf → s.suppressedAt = none → ∀ c ∈ db.conversations,
    c.conversationId = s.conversationId → db.sessionKey s.summaryId = c.sessionKey.getD ""

/-- The primary keys, and the foreign key of a summary. -/
structure Filed (db : OperatorDb) : Prop where
  bound : ∀ c ∈ db.conversations, c.conversationId ≤ db.conversationSequence
  conversations : (db.conversations.map (·.conversationId)).Nodup
  summaries : (db.summaries.map (·.summaryId)).Nodup
  home : ∀ s ∈ db.summaries, ∃ c ∈ db.conversations, c.conversationId = s.conversationId

variable {db db' : OperatorDb} {key : String} {s : SummaryRecord} {id : SummaryId}

theorem mem_purgeOf (hKey : key ≠ "") : id ∈ db.resolveTargetLeafIds (purgeOf key) ↔
    ∃ s ∈ db.summaries, s.summaryId = id ∧ s.kind = .leaf ∧ s.suppressedAt = none ∧
      db.sessionKey id = key := by
  have hFits : ∀ s, db.fits (purgeOf key) s ↔ s.kind = .leaf ∧ db.sessionKey s.summaryId = key := by
    intro s
    simp [fits, purgeOf, hKey]
  rw [mem_resolveTargetLeafIds]
  refine exists_congr fun s => and_congr_right fun _ => and_congr_right fun hId => ?_
  rw [hFits, hId]
  tauto

theorem mem_pruneOf : id ∈ db.pruneTargetLeafIds (pruneOf key) ↔
    ∃ s ∈ db.summaries, s.summaryId = id ∧ s.kind = .leaf ∧ s.suppressedAt = none ∧
      ∃ c ∈ db.conversations, c.sessionKey = some key ∧ c.conversationId = s.conversationId := by
  unfold pruneTargetLeafIds pruneOf
  simp only [List.mem_map, List.mem_filter, decide_eq_true_eq, Option.mem_def, Option.some.injEq,
    forall_eq', reduceCtorEq, false_implies, implies_true, and_true]
  refine exists_congr fun s => ?_
  tauto

theorem ne_of_runPurge {reason : String} {allowMainSession : Bool} {purgeSessionId : String}
    {now : Timestamp} {result : PurgeResult}
    (h : db.runPurge ⟨reason, purgeOf key, allowMainSession⟩ purgeSessionId now =
      .ok (db', result)) :
    key ≠ "" ∧ db'.conversations = db.conversations ∧ db'.summaries = db.summaries.map
      (suppress (db.resolveTargetLeafIds (purgeOf key)) now) := by
  have hValid : validatePurge ⟨reason, purgeOf key, allowMainSession⟩ = .ok () := by
    unfold runPurge at h
    split at h
    · cases h
    · assumption
  have hPurge : db' = db.purge ⟨⟨reason, purgeOf key, allowMainSession⟩, purgeSessionId, now⟩ := by
    unfold purge
    dsimp only
    rw [h]
  refine ⟨?_, ?_, ?_⟩
  · rintro rfl
    unfold validatePurge at hValid
    split at hValid
    · cases hValid
    · simp [hasCriteria, purgeOf] at hValid
  · rw [hPurge, purge_eq]
    rfl
  · rw [hPurge, purge_summaries]
    unfold targets
    rw [hValid]

/-- A purge reaches every leaf of its session exactly where the copies agree. -/
theorem Filed.sessionPurged_iff (h : db.Filed) : db.SessionPurged ↔ db.CopiesAgree := by
  constructor
  · intro hPurged s hMem hLeaf hLive c hConv hHome
    have hOnly : ∀ s' ∈ db.summaries, s'.summaryId = s.summaryId → s' = s := fun s' hMem' =>
      List.inj_on_of_nodup_map h.summaries hMem' hMem
    by_cases hCopy : db.sessionKey s.summaryId = ""
    · rw [hCopy]
      cases hKey : c.sessionKey with
      | none => rfl
      | some key =>
        by_contra hNe
        have hNe : key ≠ "" := fun hEq => hNe hEq.symm
        have hPrune : s.summaryId ∈ db.pruneTargetLeafIds (pruneOf key) :=
          mem_pruneOf.mpr ⟨s, hMem, rfl, hLeaf, hLive, c, hConv, hKey, hHome⟩
        rw [← hPurged.same key hNe] at hPrune
        obtain ⟨-, -, -, -, -, hSame⟩ := (mem_purgeOf hNe).mp hPrune
        exact hNe (hSame.symm.trans hCopy)
    · have hPurge : s.summaryId ∈ db.resolveTargetLeafIds (purgeOf (db.sessionKey s.summaryId)) :=
        (mem_purgeOf hCopy).mpr ⟨s, hMem, rfl, hLeaf, hLive, rfl⟩
      rw [hPurged.same _ hCopy] at hPurge
      obtain ⟨s', hMem', hId, -, -, c', hConv', hKey', hHome'⟩ := mem_pruneOf.mp hPurge
      rw [hOnly s' hMem' hId] at hHome'
      obtain rfl : c' = c :=
        List.inj_on_of_nodup_map h.conversations hConv' hConv (hHome'.trans hHome.symm)
      rw [hKey']
      rfl
  · intro hAgree
    refine ⟨?_, ?_⟩
    · intro key reason allowMainSession purgeSessionId now db' result hRun c hConv hKey s hMem
        hHome hLeaf hLive
      obtain ⟨hNe, hConvs, hSummaries⟩ := ne_of_runPurge hRun
      rw [hConvs] at hConv
      rw [hSummaries] at hMem
      obtain ⟨old, hOld, rfl⟩ := List.mem_map.mp hMem
      rw [suppress_kind] at hLeaf
      obtain ⟨hOut, hLive⟩ := suppress_isNone.mp hLive
      have hHome : c.conversationId = old.conversationId := by
        rw [← hHome]
        unfold suppress
        split <;> rfl
      refine hOut ((mem_purgeOf hNe).mpr ⟨old, hOld, rfl, hLeaf, hLive, ?_⟩)
      rw [hAgree old hOld hLeaf hLive c hConv hHome, hKey]
      rfl
    · intro key hNe
      unfold resolveTargetLeafIds pruneTargetLeafIds purgeOf pruneOf
      dsimp only
      congr 1
      refine List.filter_congr fun s hMem => ?_
      rw [Bool.eq_iff_iff, decide_eq_true_eq, decide_eq_true_eq]
      refine and_congr_right fun hLeaf => and_congr_right fun hLive => and_congr_left fun _ => ?_
      obtain ⟨c, hConv, hHome⟩ := h.home s hMem
      have hCopy := hAgree s hMem hLeaf hLive c hConv hHome
      constructor
      · intro hPurge key' hKey'
        obtain rfl := Option.some.inj hKey'
        refine ⟨c, hConv, ?_, hHome⟩
        have hSame := (hPurge key rfl hNe).symm.trans hCopy
        cases hKey : c.sessionKey with
        | none => exact absurd (by rw [hSame, hKey]; rfl) hNe
        | some key' =>
          rw [hKey] at hSame
          exact congrArg some hSame.symm
      · intro hPrune key' hKey' _
        obtain rfl := Option.some.inj hKey'
        obtain ⟨c', hConv', hKey, hHome'⟩ := hPrune key rfl
        rw [List.inj_on_of_nodup_map h.conversations hConv' hConv (hHome'.trans hHome.symm)] at hKey
        rw [hCopy, hKey]
        rfl

end OperatorDb

/-! ## Histories -/

namespace SessionKeyDb

/-- `COALESCE((SELECT session_key FROM conversations WHERE conversation_id = ?), '')`. -/
def insertedKey (db : Db) (conversationId : ConversationId) : String :=
  ((db.getConversation conversationId).bind (·.sessionKey)).getD ""

/-- `insert_summary`, with the column that `Db` leaves out. -/
def insertSummary (db : SessionKeyDb) (now : Timestamp) (input : CreateSummaryInput) :
    Except SqlError SessionKeyDb :=
  match db.toDb.insertSummary now input with
  | .error error => .error error
  | .ok db' =>
      .ok { db with
        toDb := db'
        sessionKey := fun s =>
          if s = input.summaryId then insertedKey db.toDb input.conversationId
          else db.sessionKey s }

/-- The tables of `db'`, whose new summaries have the key of their conversation. -/
def withRows (db : SessionKeyDb) (db' : Db) : SessionKeyDb :=
  { db with
    toDb := db'
    sessionKey := fun s =>
      if s ∈ db.summaries.map (·.summaryId) then db.sessionKey s
      else match db'.getSummary s true with
        | some record => insertedKey db' record.conversationId
        | none => db.sessionKey s }

inductive Action
  | getOrCreate (now : Timestamp) (sessionId : SessionId) (sessionKey : Option String)
  | compaction (event : Compaction.Event)
  | reconcile (args : ReconcileArgs) (auditId : ConversationId → String)

/-- A call that fails leaves the database as it is. -/
def step (db : SessionKeyDb) : Action → SessionKeyDb
  | .getOrCreate now sessionId sessionKey =>
      match ConversationStore.getOrCreateConversation db.toDb now sessionId sessionKey with
      | .ok (db', _) => { db with toDb := db' }
      | .error _ => db
  | .compaction event => db.withRows (Compaction.RunState.step ⟨db.toDb, fun _ => []⟩ event).db
  | .reconcile args auditId => (db.reconcileSessionKeys args auditId).1

theorem insertSummary_eq_withRows (db : SessionKeyDb) (now : Timestamp)
    (input : CreateSummaryInput) :
    db.insertSummary now input = (db.toDb.insertSummary now input).map db.withRows := by
  unfold insertSummary
  cases hInsert : db.toDb.insertSummary now input with
  | error error => rfl
  | ok db' =>
    obtain ⟨-, hFresh, rfl⟩ := Db.insertSummary_eq_ok hInsert
    have hKeys : ∀ s, (if s = input.summaryId then insertedKey db.toDb input.conversationId
        else db.sessionKey s) = (db.withRows { db.toDb with
          summaries := db.summaries ++ [Db.createdSummary now input] }).sessionKey s := by
      intro s
      unfold withRows
      dsimp only
      by_cases hOld : s ∈ db.summaries.map (·.summaryId)
      · rw [if_pos hOld, if_neg]
        rintro rfl
        exact hFresh hOld
      · rw [if_neg hOld]
        have hNone : db.summaries.find? (fun row => row.summaryId = s ∧
            ((true : Bool) = true ∨ row.suppressedAt = none)) = none := by
          rw [List.find?_eq_none]
          intro row hRow hMatch
          exact hOld (List.mem_map.mpr ⟨row, hRow, (of_decide_eq_true hMatch).1⟩)
        unfold Db.getSummary
        rw [List.find?_append, hNone, Option.none_or]
        by_cases hNew : s = input.summaryId
        · subst hNew
          rw [if_pos rfl, List.find?_cons_of_pos (by simp [Db.createdSummary])]
          rfl
        · rw [if_neg hNew, List.find?_cons_of_neg
            (by simpa [Db.createdSummary] using fun hEq => hNew hEq.symm)]
          rfl
    show Except.ok _ = Except.ok _
    rw [Except.ok.injEq]
    unfold withRows
    congr 2
    exact funext hKeys

/-! ## When the copies stay right -/

/-- The call gives a conversation the key that it lacks. -/
def FillsKey (db : Db) (sessionId : SessionId) (sessionKey : Option String) (key : String)
    (c : ConversationRecord) : Prop :=
  ConversationStore.normalizedKey sessionKey = some key ∧
    ConversationStore.getConversationBySessionKey db key = none ∧
    db.getConversationBySessionId sessionId = some c ∧ c.active = true ∧ c.sessionKey = none

def HasLiveLeaf (db : Db) (c : ConversationId) : Prop :=
  ∃ s ∈ db.summaries, s.kind = .leaf ∧ s.suppressedAt = none ∧ s.conversationId = c

/-- The call passes its checks, and the ids of its audit rows are new. -/
def Accepted (db : SessionKeyDb) (args : ReconcileArgs) (auditId : ConversationId → String) :
    Prop :=
  validateReconcile args = .ok () ∧
    db.activeCount args.fromSessionKeys + db.activeCount [args.toSessionKey] ≤ 1 ∧
    (insertAudit ((db.affectedConvs args.fromSessionKeys).map (auditRow args auditId))
      db.sessionKeyAudit).isSome

/-- No key is given to a conversation that has a leaf, and the copies of conversations
without a key are not moved. -/
def KeepsCopies (db : SessionKeyDb) : Action → Prop
  | .getOrCreate _ sessionId sessionKey =>
      ∀ key c, FillsKey db.toDb sessionId sessionKey key c →
        ¬HasLiveLeaf db.toDb c.conversationId
  | .compaction _ => True
  | .reconcile args auditId =>
      Accepted db args auditId → "" ∈ args.fromSessionKeys → args.toSessionKey ≠ "" →
        ∀ c ∈ db.conversations, c.sessionKey = none → ¬HasLiveLeaf db.toDb c.conversationId

end SessionKeyDb

end LosslessHermes
