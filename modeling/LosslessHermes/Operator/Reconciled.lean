import Mathlib.Algebra.Order.BigOperators.Group.List
import Mathlib.Algebra.Order.Group.Nat
import LosslessHermes.Operator.Reconcile

/-!
# What a reconciliation owes

`Reconciles` is what a call of `reconcile_session_keys` owes: it moves the rows of the other
source keys and no row else, it refuses exactly the conflicts of the merge, its audit rows
tell the previous keys, and the same call again changes nothing.
-/

namespace LosslessHermes.SessionKeyDb

/-! ## The rows that are to be moved -/

/-- The conversation carries a source key other than the target. -/
def moves (args : ReconcileArgs) (c : ConversationRecord) : Bool :=
  carries (args.fromSessionKeys.filter (· ≠ args.toSessionKey)) c

def movesSummary (db : SessionKeyDb) (args : ReconcileArgs) (s : SummaryId) : Bool :=
  db.sessionKey s ∈ args.fromSessionKeys ∧ db.sessionKey s ≠ args.toSessionKey

/-- Exactly these rows are on the target now. -/
structure Moved (db db' : SessionKeyDb) (args : ReconcileArgs) : Prop where
  conversations : db'.conversations = db.conversations.map fun c =>
    if moves args c then { c with sessionKey := some args.toSessionKey } else c
  summaries : ∀ s ∈ db.summaries, db'.sessionKey s.summaryId =
    if db.movesSummary args s.summaryId then args.toSessionKey else db.sessionKey s.summaryId
  frame : db' = { db with
    conversations := db'.conversations
    sessionKey := db'.sessionKey
    sessionKeyAudit := db'.sessionKeyAudit }

/-- There is an audit row for each conversation that is moved, and they tell the previous key
of each row that is moved. -/
structure Audited (db db' : SessionKeyDb) (args : ReconcileArgs)
    (rows : List SessionKeyAuditRow) : Prop where
  written : db'.sessionKeyAudit = db.sessionKeyAudit ++ rows
  conversations : rows.map (fun row => (row.conversationId, row.originalSessionKey)) =
    (db.conversations.filter (moves args)).map fun c => (c.conversationId, c.sessionKey)
  summaries : ∀ s ∈ db.summaries, db.movesSummary args s.summaryId = true → ∃ row ∈ rows,
    row.conversationId = s.conversationId ∧
      row.originalSessionKey = some (db.sessionKey s.summaryId)

structure Reconciles (db : SessionKeyDb) (args : ReconcileArgs)
    (auditId : ConversationId → String) : Prop where
  unchanged : ∀ error, (db.reconcileSessionKeys args auditId).2 = .error error →
    (db.reconcileSessionKeys args auditId).1 = db
  conflict : validateReconcile args = .ok () →
    ((∃ message, (db.reconcileSessionKeys args auditId).2 =
        .error (.refused .activeConflict message)) ↔
      1 < (db.conversations.map (movedTo args.fromSessionKeys args.toSessionKey)).countP fun c =>
        carries [args.toSessionKey] c && c.active)
  moved : ∀ result, (db.reconcileSessionKeys args auditId).2 = .ok result →
    Moved db (db.reconcileSessionKeys args auditId).1 args
  audited : ∀ result, (db.reconcileSessionKeys args auditId).2 = .ok result →
    ∃ rows, Audited db (db.reconcileSessionKeys args auditId).1 args rows
  again : ∀ result, (db.reconcileSessionKeys args auditId).2 = .ok result → ∀ later,
    ((db.reconcileSessionKeys args auditId).1.reconcileSessionKeys args later).1 =
      (db.reconcileSessionKeys args auditId).1

/-! ## When it is done -/

/-- A summary that is to be moved has the key of its conversation. -/
def SummariesFollow (db : SessionKeyDb) (args : ReconcileArgs) : Prop :=
  ∀ s ∈ db.summaries, db.movesSummary args s.summaryId = true → ∃ c ∈ db.conversations,
    c.conversationId = s.conversationId ∧ c.sessionKey = some (db.sessionKey s.summaryId)

/-- The target is not a source key, or no conversation carries one, or none is on the target
and exactly one of those to be moved is active. -/
def Apart (db : SessionKeyDb) (args : ReconcileArgs) : Prop :=
  args.toSessionKey ∉ args.fromSessionKeys ∨ db.affectedConvs args.fromSessionKeys = [] ∨
    (db.affectedConvs [args.toSessionKey] = [] ∧ db.activeCount args.fromSessionKeys = 1)

/-- The call is refused by its checks, or it merges keys that are apart. -/
def Reconcilable (db : SessionKeyDb) (args : ReconcileArgs) : Prop :=
  (∃ error, validateReconcile args = .error error) ∨
    1 < db.activeCount (args.toSessionKey :: args.fromSessionKeys) ∨
    (db.SummariesFollow args ∧ db.Apart args)

variable {db : SessionKeyDb} {args : ReconcileArgs} {auditId : ConversationId → String}
  {c : ConversationRecord}

theorem moves_iff : moves args c = true ↔
    carries args.fromSessionKeys c = true ∧ carries [args.toSessionKey] c = false := by
  unfold moves
  rw [carries_eq_true_iff, carries_eq_true_iff, ← Bool.not_eq_true, carries_eq_true_iff]
  constructor
  · rintro ⟨key, hKey, hSame⟩
    obtain ⟨hMem, hNe⟩ := List.mem_filter.mp hKey
    refine ⟨⟨key, hMem, hSame⟩, ?_⟩
    rintro ⟨other, hOther, hSame'⟩
    rw [List.mem_singleton.mp hOther, hSame] at hSame'
    exact of_decide_eq_true hNe (Option.some.inj hSame')
  · rintro ⟨⟨key, hMem, hSame⟩, hNot⟩
    refine ⟨key, List.mem_filter.mpr ⟨hMem, decide_eq_true fun hEq => ?_⟩, hSame⟩
    exact hNot ⟨key, List.mem_singleton.mpr hEq, hSame⟩

/-- A conversation of the target that is set to the target is not moved. -/
theorem movedTo_eq : movedTo args.fromSessionKeys args.toSessionKey c =
    if moves args c then { c with sessionKey := some args.toSessionKey } else c := by
  unfold movedTo
  by_cases hCarries : carries args.fromSessionKeys c = true
  · rw [if_pos hCarries]
    cases hTo : carries [args.toSessionKey] c with
    | false => rw [if_pos (moves_iff.mpr ⟨hCarries, hTo⟩)]
    | true =>
      have hNot : ¬moves args c = true := fun hMoves => by
        rw [(moves_iff.mp hMoves).2] at hTo
        cases hTo
      rw [if_neg hNot]
      obtain ⟨key, hKey, hSame⟩ := carries_eq_true_iff.mp hTo
      rw [← List.mem_singleton.mp hKey, ← hSame]
  · rw [if_neg hCarries, if_neg fun hMoves => hCarries (moves_iff.mp hMoves).1]

/-- The rows of the snapshot are those that are moved, if none of them is on the target. -/
theorem filter_moves (h : ∀ c ∈ db.affectedConvs args.fromSessionKeys,
    carries [args.toSessionKey] c = false) :
    db.conversations.filter (moves args) = db.affectedConvs args.fromSessionKeys := by
  refine List.filter_congr fun c hMem => ?_
  rw [Bool.eq_iff_iff, moves_iff]
  exact and_iff_left_of_imp fun hCarries => h c (List.mem_filter.mpr ⟨hMem, hCarries⟩)

theorem moved_merged (db : SessionKeyDb) (args : ReconcileArgs)
    (auditId : ConversationId → String) : Moved db (db.merged args auditId) args := by
  refine ⟨List.map_congr_left fun c _ => movedTo_eq, fun s _ => ?_, rfl⟩
  show (if db.sessionKey s.summaryId ∈ args.fromSessionKeys then _ else _) = _
  unfold movesSummary
  by_cases hTo : db.sessionKey s.summaryId = args.toSessionKey
  · simp [hTo]
  · simp [hTo]

/-- Nothing is moved where no row carries a source key. -/
theorem moved_self (hConvs : db.affectedConvs args.fromSessionKeys = [])
    (hSummaries : db.affectedSummaries args.fromSessionKeys = []) : Moved db db args := by
  refine ⟨?_, fun s hMem => ?_, rfl⟩
  · have hSame : ∀ c ∈ db.conversations,
        (if moves args c then { c with sessionKey := some args.toSessionKey } else c) = c := by
      intro c hMem
      refine if_neg fun hMoves => ?_
      exact List.filter_eq_nil_iff.mp hConvs c hMem (moves_iff.mp hMoves).1
    rw [List.map_congr_left hSame, List.map_id']
  · refine (if_neg fun hMoves => ?_).symm
    have hNot := List.filter_eq_nil_iff.mp hSummaries s hMem
    exact hNot (decide_eq_true (of_decide_eq_true hMoves).1)

/-! ## A call that merges -/

theorem moved_after (db : SessionKeyDb) (args : ReconcileArgs)
    (auditId : ConversationId → String) : Moved db (db.after args auditId) args := by
  unfold after
  split
  · rename_i hNone
    exact moved_self hNone.1 hNone.2
  · exact moved_merged db args auditId

theorem sessionKeyAudit_after (db : SessionKeyDb) (args : ReconcileArgs)
    (auditId : ConversationId → String) :
    (db.after args auditId).sessionKeyAudit = db.sessionKeyAudit ++
      (db.affectedConvs args.fromSessionKeys).map (auditRow args auditId) := by
  unfold after
  split
  · rename_i hNone
    rw [hNone.1, List.map_nil, List.append_nil]
  · rfl

/-- The audit is as it should be if the snapshot has only rows that are moved. -/
theorem audited_after_iff (db : SessionKeyDb) (args : ReconcileArgs)
    (auditId : ConversationId → String) :
    (∃ rows, Audited db (db.after args auditId) args rows) ↔
      (∀ c ∈ db.affectedConvs args.fromSessionKeys, carries [args.toSessionKey] c = false) ∧
        db.SummariesFollow args := by
  have hPairs : ((db.affectedConvs args.fromSessionKeys).map (auditRow args auditId)).map
      (fun row => (row.conversationId, row.originalSessionKey)) =
        (db.affectedConvs args.fromSessionKeys).map fun c => (c.conversationId, c.sessionKey) := by
    rw [List.map_map]
    rfl
  constructor
  · rintro ⟨rows, hAudited⟩
    have hRows := hAudited.written
    rw [sessionKeyAudit_after, List.append_cancel_left_eq] at hRows
    subst hRows
    have hLength := congrArg List.length hAudited.conversations
    rw [hPairs, List.length_map, List.length_map] at hLength
    have hApart : ∀ c ∈ db.affectedConvs args.fromSessionKeys,
        carries [args.toSessionKey] c = false := by
      have hSub : (db.conversations.filter (moves args)).Sublist
          (db.affectedConvs args.fromSessionKeys) :=
        List.monotone_filter_right _ fun c hMoves => (moves_iff.mp hMoves).1
      have hSame := hSub.eq_of_length hLength.symm
      intro c hMem
      rw [← hSame] at hMem
      exact (moves_iff.mp (List.mem_filter.mp hMem).2).2
    refine ⟨hApart, fun s hMem hMoves => ?_⟩
    obtain ⟨row, hRow, hConversation, hKey⟩ := hAudited.summaries s hMem hMoves
    obtain ⟨c, hC, rfl⟩ := List.mem_map.mp hRow
    exact ⟨c, (List.mem_filter.mp hC).1, hConversation, hKey⟩
  · rintro ⟨hApart, hFollow⟩
    refine ⟨_, sessionKeyAudit_after db args auditId, ?_, fun s hMem hMoves => ?_⟩
    · rw [hPairs, filter_moves hApart]
    · obtain ⟨c, hC, hConversation, hKey⟩ := hFollow s hMem hMoves
      have hSource : db.sessionKey s.summaryId ∈ args.fromSessionKeys :=
        (of_decide_eq_true hMoves).1
      have hCarries : carries args.fromSessionKeys c = true :=
        carries_eq_true_iff.mpr ⟨_, hSource, hKey⟩
      exact ⟨auditRow args auditId c,
        List.mem_map_of_mem (List.mem_filter.mpr ⟨hC, hCarries⟩), hConversation, hKey⟩

/-! ## The call again -/

theorem conversations_after (db : SessionKeyDb) (args : ReconcileArgs)
    (auditId : ConversationId → String) : (db.after args auditId).conversations =
      db.conversations.map (movedTo args.fromSessionKeys args.toSessionKey) := by
  unfold after
  split
  · rename_i hNone
    exact (map_movedTo_of_none hNone.1 _).symm
  · rfl

/-- After a merge the active conversations of the target are those of all keys. -/
theorem activeCount_after (db : SessionKeyDb) (args : ReconcileArgs)
    (auditId : ConversationId → String) :
    (db.after args auditId).activeCount [args.toSessionKey] =
      db.activeCount (args.toSessionKey :: args.fromSessionKeys) := by
  unfold activeCount
  rw [conversations_after]
  exact countP_movedTo db _ _

theorem affectedConvs_after_of_notMem (db : SessionKeyDb) (auditId : ConversationId → String)
    (h : args.toSessionKey ∉ args.fromSessionKeys) :
    (db.after args auditId).affectedConvs args.fromSessionKeys = [] := by
  unfold affectedConvs
  rw [conversations_after, List.filter_eq_nil_iff]
  intro c hMem hCarries
  obtain ⟨old, -, rfl⟩ := List.mem_map.mp hMem
  unfold movedTo at hCarries
  split at hCarries
  · obtain ⟨key, hKey, hSame⟩ := carries_eq_true_iff.mp hCarries
    exact h (Option.some.inj hSame ▸ hKey)
  · rename_i hNot
    exact hNot hCarries

theorem affectedSummaries_after_of_notMem (db : SessionKeyDb) (auditId : ConversationId → String)
    (h : args.toSessionKey ∉ args.fromSessionKeys) :
    (db.after args auditId).affectedSummaries args.fromSessionKeys = [] := by
  unfold after
  split
  · rename_i hNone
    exact hNone.2
  · refine List.filter_eq_nil_iff.mpr fun s _ hSource => ?_
    have hKey := of_decide_eq_true hSource
    change (if db.sessionKey s.summaryId ∈ _ then _ else _) ∈ _ at hKey
    split at hKey
    · exact h hKey
    · contradiction

theorem activeCount_of_none {keys : List String} (h : db.affectedConvs keys = []) :
    db.activeCount keys = 0 := by
  refine List.countP_eq_zero.mpr fun c hMem hCounted => ?_
  exact List.filter_eq_nil_iff.mp h c hMem (Bool.and_eq_true_iff.mp hCounted).1

/-- Without conversations to move, a call writes no audit row. -/
theorem reconcile_of_none (hConvs : db.affectedConvs args.fromSessionKeys = [])
    (hValid : validateReconcile args = .ok ()) (hFree : db.activeCount [args.toSessionKey] ≤ 1)
    (auditId : ConversationId → String) :
    (db.reconcileSessionKeys args auditId).1 = db.after args auditId := by
  have hInsert : insertAudit ((db.affectedConvs args.fromSessionKeys).map (auditRow args auditId))
      db.sessionKeyAudit = some (db.sessionKeyAudit ++
        (db.affectedConvs args.fromSessionKeys).map (auditRow args auditId)) := by
    rw [hConvs, List.map_nil, List.append_nil]
    rfl
  have hSum : db.activeCount args.fromSessionKeys + db.activeCount [args.toSessionKey] ≤ 1 := by
    rw [activeCount_of_none hConvs, Nat.zero_add]
    exact hFree
  obtain ⟨result, hOk⟩ := reconcile_ok hInsert hValid hSum
  rw [hOk]

theorem again_of_notMem (h : args.toSessionKey ∉ args.fromSessionKeys)
    (hValid : validateReconcile args = .ok ())
    (hFree : db.activeCount (args.toSessionKey :: args.fromSessionKeys) ≤ 1)
    (later : ConversationId → String) :
    ((db.after args auditId).reconcileSessionKeys args later).1 = db.after args auditId := by
  have hConvs := affectedConvs_after_of_notMem db auditId h
  have hSummaries := affectedSummaries_after_of_notMem db auditId h
  rw [reconcile_of_none hConvs hValid (by rw [activeCount_after]; exact hFree)]
  exact if_pos ⟨hConvs, hSummaries⟩

/-- A second merge of summaries only sets what is already set. -/
theorem after_after_of_none (hConvs : db.affectedConvs args.fromSessionKeys = [])
    (later : ConversationId → String) :
    (db.after args auditId).after args later = db.after args auditId := by
  by_cases hSummaries : db.affectedSummaries args.fromSessionKeys = []
  · have hSelf : ∀ auditId, db.after args auditId = db := fun _ => if_pos ⟨hConvs, hSummaries⟩
    rw [hSelf, hSelf]
  · have hMerged : db.after args auditId = db.merged args auditId :=
      if_neg fun hBoth => hSummaries hBoth.2
    have hMap := map_movedTo_of_none hConvs args.toSessionKey
    have hConvs' : (db.merged args auditId).affectedConvs args.fromSessionKeys = [] := by
      show (db.conversations.map _).filter _ = []
      rw [hMap]
      exact hConvs
    have hKeys : ((db.merged args auditId).moveSummaries args.fromSessionKeys
        args.toSessionKey).sessionKey = (db.merged args auditId).sessionKey := by
      funext s
      refine ite_eq_right_iff.mpr fun hSource => ?_
      change (if db.sessionKey s ∈ args.fromSessionKeys then _ else _) ∈ _ at hSource
      show _ = if db.sessionKey s ∈ args.fromSessionKeys then _ else _
      split at hSource
      · rename_i hOld
        rw [if_pos hOld]
      · contradiction
    rw [hMerged]
    unfold after
    split
    · rfl
    · unfold merged at hKeys hConvs' ⊢
      rw [hConvs', List.map_nil, List.append_nil]
      unfold moveSummaries at hKeys ⊢
      dsimp only at hKeys ⊢
      rw [hKeys, hMap, hMap]

theorem carries_movedTo_of_mem (h : args.toSessionKey ∈ args.fromSessionKeys) :
    carries args.fromSessionKeys (movedTo args.fromSessionKeys args.toSessionKey c) =
      carries args.fromSessionKeys c := by
  unfold movedTo
  split
  · rename_i hCarries
    rw [hCarries]
    exact carries_eq_true_iff.mpr ⟨_, h, rfl⟩
  · rfl

/-- A call that also merges the target into itself finds each conversation again. -/
theorem affectedConvs_after_of_mem (h : args.toSessionKey ∈ args.fromSessionKeys) :
    (db.after args auditId).affectedConvs args.fromSessionKeys =
      (db.affectedConvs args.fromSessionKeys).map
        (movedTo args.fromSessionKeys args.toSessionKey) := by
  unfold affectedConvs
  rw [conversations_after, List.filter_map]
  congr 1
  exact List.filter_congr fun c _ => carries_movedTo_of_mem h

theorem activeCount_after_of_mem (h : args.toSessionKey ∈ args.fromSessionKeys) :
    (db.after args auditId).activeCount args.fromSessionKeys =
      db.activeCount args.fromSessionKeys := by
  unfold activeCount
  rw [conversations_after, List.countP_map]
  refine List.countP_congr fun c _ => ?_
  dsimp only [Function.comp_apply]
  rw [carries_movedTo_of_mem h, active_movedTo]

/-- Ids that come after those of the first call. -/
theorem exists_later (args : ReconcileArgs) (h : KeysWellFormed db) (ids : AuditIds db) :
    KeysWellFormed (db.after args ids.auditId) ∧
      Nonempty (AuditIds (db.after args ids.auditId)) := by
  have hAudit := sessionKeyAudit_after db args ids.auditId
  have hRows : ∀ row ∈ (db.affectedConvs args.fromSessionKeys).map (auditRow args ids.auditId),
      ∃ c ∈ db.conversations, row.auditId = ids.auditId c.conversationId := by
    intro row hRow
    obtain ⟨c, hMem, rfl⟩ := List.mem_map.mp hRow
    exact ⟨c, (List.mem_filter.mp hMem).1, rfl⟩
  refine ⟨⟨?_, ?_⟩, ⟨?_⟩⟩
  · have hIds : (db.after args ids.auditId).conversations.map (·.conversationId) =
        db.conversations.map (·.conversationId) := by
      rw [conversations_after, List.map_map]
      refine List.map_congr_left fun c _ => ?_
      dsimp only [Function.comp_apply]
      unfold movedTo
      split <;> rfl
    rw [hIds]
    exact h.conversations
  · rw [hAudit]
    exact h.nodup_auditIds ids _
  · let sum : Nat := (db.conversations.map (·.conversationId)).sum
    refine ⟨fun c => ids.auditId (c + sum + 1), ?_, ?_⟩
    · intro c row hRow hSame
      rw [hAudit] at hRow
      rcases List.mem_append.mp hRow with hOld | hNew
      · exact ids.fresh _ row hOld hSame
      · obtain ⟨old, hMem, hId⟩ := hRows row hNew
        have hLe : old.conversationId ≤ sum := List.le_sum_of_mem (List.mem_map_of_mem hMem)
        have hEq : old.conversationId = c + sum + 1 := ids.distinct (hId.symm.trans hSame)
        rw [hEq] at hLe
        exact absurd hLe (Nat.not_le.mpr (Nat.lt_succ_of_le (Nat.le_add_left _ _)))
    · intro c c' hSame
      have hEq : c + sum + 1 = c' + sum + 1 := ids.distinct hSame
      exact Nat.add_right_cancel (Nat.succ.inj hEq)

/-- If the target is among the source keys that conversations carry, the same call again is a
no-op only by a conflict of the target with itself. -/
theorem again_iff_of_mem (h : KeysWellFormed db) (ids : AuditIds db)
    (hMem : args.toSessionKey ∈ args.fromSessionKeys)
    (hConvs : db.affectedConvs args.fromSessionKeys ≠ [])
    (hValid : validateReconcile args = .ok ())
    (hFree : db.activeCount args.fromSessionKeys ≤ 1) :
    (∀ later, ((db.after args ids.auditId).reconcileSessionKeys args later).1 =
        db.after args ids.auditId) ↔ db.activeCount args.fromSessionKeys = 1 := by
  have hTo := activeCount_after db args ids.auditId
  rw [activeCount_cons_of_mem db hMem] at hTo
  have hFrom : (db.after args ids.auditId).activeCount args.fromSessionKeys =
      db.activeCount args.fromSessionKeys := activeCount_after_of_mem hMem
  constructor
  · intro hAgain
    by_contra hNot
    obtain ⟨hWell, ⟨later⟩⟩ := exists_later args h ids
    obtain ⟨result, hOk⟩ := reconcile_ok (hWell.insertAudit later _) hValid (by omega)
    have hSame := hAgain later.auditId
    rw [hOk] at hSame
    have hAudit := congrArg SessionKeyDb.sessionKeyAudit hSame
    dsimp only at hAudit
    rw [sessionKeyAudit_after, List.append_right_eq_self, List.map_eq_nil_iff,
      affectedConvs_after_of_mem hMem, List.map_eq_nil_iff] at hAudit
    exact hConvs hAudit
  · intro hOne later
    rw [reconcile_conflict later hValid (by omega)]

/-! ## When a call does what it owes -/

/-- What a refused call owes. -/
theorem reconciles_of_error {error : ReconcileError}
    (h : db.reconcileSessionKeys args auditId = (db, .error error))
    (hConflict : validateReconcile args = .ok () →
      ((∃ message, error = .refused .activeConflict message) ↔
        1 < db.activeCount (args.toSessionKey :: args.fromSessionKeys))) :
    Reconciles db args auditId := by
  refine ⟨fun _ _ => ?_, fun hValid => ?_, fun _ hOk => ?_, fun _ hOk => ?_, fun _ hOk => ?_⟩
  · rw [h]
  · rw [h, countP_movedTo, ← hConflict hValid]
    simp only [Except.error.injEq]
  all_goals
    rw [h] at hOk
    cases hOk

/-- What a call that is not refused owes. -/
theorem reconciles_iff_of_ok {result : ReconcileResult}
    (h : db.reconcileSessionKeys args auditId = (db.after args auditId, .ok result))
    (hFree : db.activeCount (args.toSessionKey :: args.fromSessionKeys) ≤ 1) :
    Reconciles db args auditId ↔
      (∃ rows, Audited db (db.after args auditId) args rows) ∧ ∀ later,
        ((db.after args auditId).reconcileSessionKeys args later).1 = db.after args auditId := by
  constructor
  · intro hReconciles
    have hAudited := hReconciles.audited result (by rw [h])
    have hAgain := hReconciles.again result (by rw [h])
    rw [h] at hAudited hAgain
    exact ⟨hAudited, hAgain⟩
  · rintro ⟨hAudited, hAgain⟩
    refine ⟨fun _ hError => ?_, fun _ => ?_, fun _ _ => ?_, fun _ _ => ?_, fun _ _ => ?_⟩
    · rw [h] at hError
      cases hError
    · rw [h, countP_movedTo]
      refine iff_of_false ?_ (Nat.not_lt.mpr hFree)
      rintro ⟨_, hError⟩
      cases hError
    · rw [h]
      exact moved_after db args auditId
    · rw [h]
      exact hAudited
    · rw [h]
      exact hAgain

/-- The snapshot has only rows that are moved, and the same call again changes nothing. -/
theorem apart_iff (h : KeysWellFormed db) (ids : AuditIds db)
    (hValid : validateReconcile args = .ok ())
    (hSum : db.activeCount args.fromSessionKeys + db.activeCount [args.toSessionKey] ≤ 1) :
    ((∀ c ∈ db.affectedConvs args.fromSessionKeys, carries [args.toSessionKey] c = false) ∧
      ∀ later, ((db.after args ids.auditId).reconcileSessionKeys args later).1 =
        db.after args ids.auditId) ↔ db.Apart args := by
  have hFree := (activeCount_cons_le db args.fromSessionKeys args.toSessionKey).trans hSum
  unfold Apart
  by_cases hMem : args.toSessionKey ∈ args.fromSessionKeys
  · rw [or_iff_right (not_not.mpr hMem)]
    by_cases hConvs : db.affectedConvs args.fromSessionKeys = []
    · refine iff_of_true ⟨fun c hC => ?_, fun later => ?_⟩ (Or.inl hConvs)
      · rw [hConvs] at hC
        cases hC
      · have hTo := activeCount_after db args ids.auditId
        have hNone : (db.after args ids.auditId).affectedConvs args.fromSessionKeys = [] := by
          rw [affectedConvs_after_of_mem hMem, hConvs, List.map_nil]
        rw [reconcile_of_none hNone hValid (hTo.trans_le hFree), after_after_of_none hConvs]
    · rw [or_iff_right hConvs, again_iff_of_mem h ids hMem hConvs hValid (by omega)]
      refine and_congr_left fun _ => ?_
      unfold affectedConvs
      rw [List.filter_eq_nil_iff]
      constructor
      · intro hApart c hC hTo
        obtain ⟨key, hKey, hSame⟩ := carries_eq_true_iff.mp hTo
        have hSource : carries args.fromSessionKeys c = true :=
          carries_eq_true_iff.mpr ⟨key, List.mem_singleton.mp hKey ▸ hMem, hSame⟩
        rw [hApart c (List.mem_filter.mpr ⟨hC, hSource⟩)] at hTo
        cases hTo
      · intro hNone c hC
        rw [← Bool.not_eq_true]
        exact hNone c (List.mem_filter.mp hC).1
  · refine iff_of_true ⟨fun c hC => ?_, again_of_notMem hMem hValid hFree⟩ (Or.inl hMem)
    rw [← Bool.not_eq_true, carries_eq_true_iff]
    rintro ⟨key, hKey, hSame⟩
    obtain ⟨source, hSource, hSame'⟩ := carries_eq_true_iff.mp (List.mem_filter.mp hC).2
    rw [List.mem_singleton.mp hKey, hSame', Option.some.injEq] at hSame
    exact hMem (hSame ▸ hSource)

/-- The check for a conflict counts the target twice only if it is among the source keys. -/
theorem not_apart_of_conflict
    (hFree : db.activeCount (args.toSessionKey :: args.fromSessionKeys) ≤ 1)
    (hSum : 1 < db.activeCount args.fromSessionKeys + db.activeCount [args.toSessionKey]) :
    ¬db.Apart args := by
  rintro (hMem | hNone | ⟨hNone, hOne⟩)
  · rw [activeCount_cons db hMem] at hFree
    omega
  · have hLe : db.activeCount [args.toSessionKey] ≤
        db.activeCount (args.toSessionKey :: args.fromSessionKeys) := by
      refine List.countP_mono_left fun c _ hCounted => ?_
      rw [carries_cons, Bool.and_eq_true, Bool.or_eq_true]
      rw [Bool.and_eq_true] at hCounted
      exact ⟨Or.inl hCounted.1, hCounted.2⟩
    rw [activeCount_of_none hNone] at hSum
    omega
  · rw [activeCount_of_none hNone] at hSum
    omega

theorem reconciles_iff (h : KeysWellFormed db) (args : ReconcileArgs) (ids : AuditIds db) :
    Reconciles db args ids.auditId ↔ db.Reconcilable args := by
  unfold Reconcilable
  cases hValid : validateReconcile args with
  | error error =>
    refine iff_of_true (reconciles_of_error (reconcile_invalid _ hValid) fun hOk => ?_)
      (Or.inl ⟨error, rfl⟩)
    rw [hValid] at hOk
    cases hOk
  | ok valid =>
    rw [or_iff_right (fun hError => nomatch hError)]
    by_cases hSum : 1 < db.activeCount args.fromSessionKeys + db.activeCount [args.toSessionKey]
    · have hRefused := reconcile_conflict ids.auditId hValid hSum
      by_cases hFree : 1 < db.activeCount (args.toSessionKey :: args.fromSessionKeys)
      · exact iff_of_true
          (reconciles_of_error hRefused fun _ => iff_of_true ⟨_, rfl⟩ hFree) (Or.inl hFree)
      · refine iff_of_false (fun hReconciles => hFree ?_) ?_
        · rw [← countP_movedTo, ← hReconciles.conflict hValid, hRefused]
          exact ⟨_, rfl⟩
        · rintro (hReal | ⟨-, hApart⟩)
          · exact hFree hReal
          · exact not_apart_of_conflict (Nat.not_lt.mp hFree) hSum hApart
    · have hLe := Nat.not_lt.mp hSum
      have hFree := (activeCount_cons_le db args.fromSessionKeys args.toSessionKey).trans hLe
      obtain ⟨result, hOk⟩ := reconcile_ok (h.insertAudit ids _) hValid hLe
      rw [reconciles_iff_of_ok hOk hFree, or_iff_right (Nat.not_lt.mpr hFree),
        audited_after_iff, ← apart_iff h ids hValid hLe]
      exact ⟨fun ⟨⟨hRows, hFollow⟩, hAgain⟩ => ⟨hFollow, hRows, hAgain⟩,
        fun ⟨hFollow, hRows, hAgain⟩ => ⟨⟨hRows, hFollow⟩, hAgain⟩⟩

/-! ## Two calls -/

/-- A database with conversations only. -/
def ofConversations (conversations : List ConversationRecord) : SessionKeyDb where
  toDb := { Db.empty with conversations := conversations }
  sessionKey _ := ""
  createdAtText _ := ""
  containsSuppressedLeaves _ := false
  suppressReason _ := none
  synthesis := .empty
  embeddings := .empty
  sessionKeyAudit := []

def tally (c : ConversationId) : String :=
  String.ofList (List.replicate c '|')

theorem tally_injective : Function.Injective tally := by
  intro c c' hSame
  have hLength := congrArg (fun s => s.toList.length) hSame
  unfold tally at hLength
  simp only [String.toList_ofList, List.length_replicate] at hLength
  exact hLength

def mergeThreads (keys : List String) : ReconcileArgs :=
  { fromSessionKeys := keys, toSessionKey := "thread", reason := "one thread" }

def legacyThreads : SessionKeyDb :=
  ofConversations
    [⟨1, "s", some "legacy:conv_1", true, 5⟩, ⟨2, "t", some "legacy:conv_2", false, 6⟩]

theorem reconciles_legacy :
    Reconciles legacyThreads (mergeThreads ["legacy:conv_1", "legacy:conv_2"]) tally := by
  have hWell : KeysWellFormed legacyThreads := ⟨by decide, List.nodup_nil⟩
  refine (reconciles_iff hWell _
    ⟨tally, fun _ _ h => (List.not_mem_nil h).elim, tally_injective⟩).mpr (Or.inr (Or.inr ?_))
  exact ⟨fun _ h => (List.not_mem_nil h).elim, Or.inl (by decide)⟩

/-- The only active conversation is in conflict with itself. -/
theorem conflict_with_itself :
    let db := ofConversations [⟨1, "s", some "thread", true, 5⟩]
    let run := db.reconcileSessionKeys (mergeThreads ["thread"]) tally
    (∃ message, run.2 = .error (.refused .activeConflict message)) ∧
      ¬Reconciles db (mergeThreads ["thread"]) tally := by
  refine ⟨⟨_, rfl⟩, fun hReconciles => ?_⟩
  exact absurd ((hReconciles.conflict rfl).mp ⟨_, rfl⟩) (by decide)

end LosslessHermes.SessionKeyDb
