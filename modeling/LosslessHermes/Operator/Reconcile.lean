import LosslessHermes.Operator.Purge
import LosslessHermes.Store.OneActive

/-!
# The reconciliation of session keys

`reconcile_session_keys` moves the conversations and the summaries of some keys to another
key, in one transaction, and writes an audit row for each conversation it moves.
-/

namespace LosslessHermes

/-- A row of `lcm_session_key_audit`. -/
structure SessionKeyAuditRow where
  auditId : String
  conversationId : ConversationId
  originalSessionKey : Option String
  newSessionKey : String
  reason : String
  appliedBy : String
  deriving DecidableEq, Repr

structure SessionKeyDb extends OperatorDb where
  sessionKeyAudit : List SessionKeyAuditRow

inductive ReconcileErrorKind
  | noFromKeys
  | missingReason
  | mainSessionBlocked
  | activeConflict
  deriving DecidableEq, Repr

inductive ReconcileError
  | refused (kind : ReconcileErrorKind) (message : String)
  | sqlite (error : SqlError)
  deriving DecidableEq, Repr

structure ReconcileArgs where
  fromSessionKeys : List String
  toSessionKey : String
  reason : String
  allowMainSession : Bool := false
  appliedBy : String := "operator"
  deriving DecidableEq, Repr

structure ReconcileResult where
  conversationsMoved : Nat
  summariesMoved : Nat
  auditEntries : Nat
  deriving DecidableEq, Repr

namespace SessionKeyDb

/-! ## The statements -/

/-- `session_key IN (…)`, which is not true of `NULL`. -/
def carries (keys : List String) (c : ConversationRecord) : Bool :=
  c.sessionKey.any fun key => key ∈ keys

def activeCount (db : SessionKeyDb) (keys : List String) : Nat :=
  db.conversations.countP fun c => carries keys c && c.active

def affectedConvs (db : SessionKeyDb) (keys : List String) : List ConversationRecord :=
  db.conversations.filter (carries keys)

def affectedSummaries (db : SessionKeyDb) (keys : List String) : List SummaryRecord :=
  db.summaries.filter fun s => db.sessionKey s.summaryId ∈ keys

def movedTo (keys : List String) (toSessionKey : String) (c : ConversationRecord) :
    ConversationRecord :=
  if carries keys c then { c with sessionKey := some toSessionKey } else c

/-- `UPDATE conversations SET session_key = ?`, under the index on active keys. -/
def moveConversations (db : SessionKeyDb) (keys : List String) (toSessionKey : String) :
    Except SqlError SessionKeyDb :=
  let conversations := db.conversations.map (movedTo keys toSessionKey)
  if 1 < conversations.countP fun c => carries [toSessionKey] c && c.active then
    .error (.uniqueConstraint "conversations")
  else .ok { db with conversations := conversations }

def moveSummaries (db : SessionKeyDb) (keys : List String) (toSessionKey : String) :
    SessionKeyDb :=
  { db with sessionKey := fun s =>
      if db.sessionKey s ∈ keys then toSessionKey else db.sessionKey s }

def auditRow (args : ReconcileArgs) (auditId : ConversationId → String)
    (c : ConversationRecord) : SessionKeyAuditRow :=
  { auditId := auditId c.conversationId, conversationId := c.conversationId,
    originalSessionKey := c.sessionKey, newSessionKey := args.toSessionKey,
    reason := args.reason, appliedBy := args.appliedBy }

/-- One `INSERT` after the other, under the primary key. -/
def insertAudit : List SessionKeyAuditRow → List SessionKeyAuditRow →
    Option (List SessionKeyAuditRow)
  | [], audit => some audit
  | row :: rows, audit =>
      match Table.insertRow (·.auditId) row audit with
      | some audit => insertAudit rows audit
      | none => none

/-! ## The call -/

def validateReconcile (args : ReconcileArgs) : Except ReconcileError Unit :=
  if args.fromSessionKeys = [] then
    .error (.refused .noFromKeys "[reconcile] from_session_keys must be non-empty")
  else if Text.isBlank args.reason then
    .error (.refused .missingReason "[reconcile] reason is required")
  else if args.toSessionKey = "agent:main:main" ∧ args.allowMainSession = false then
    .error (.refused .mainSessionBlocked
      "[reconcile] refusing to write into agent:main:main without allow_main_session=True")
  else .ok ()

def conflictMessage (args : ReconcileArgs) (activeFromCount activeToCount : Nat) : String :=
  "[reconcile] cannot merge " ++ toString activeFromCount ++ " active conversation(s) from " ++
    ",".intercalate args.fromSessionKeys ++ " into " ++ args.toSessionKey ++ " (already has " ++
    toString activeToCount ++ " active) - the conversations.session_key UNIQUE-active partial " ++
    "index requires at most 1 active per session_key. Workaround: archive all but one conv " ++
    "first via UPDATE conversations SET active=0, archived_at=datetime('now') WHERE " ++
    "conversation_id=?, then re-run reconcile."

/-- The three steps of the merge, for the rows of the snapshot. -/
def mergeKeys (db : SessionKeyDb) (args : ReconcileArgs) (auditId : ConversationId → String) :
    Except ReconcileError (SessionKeyDb × ReconcileResult) :=
  let affected := db.affectedConvs args.fromSessionKeys
  let summariesMoved := (db.affectedSummaries args.fromSessionKeys).length
  let moved :=
    if affected.length = 0 then .ok db
    else db.moveConversations args.fromSessionKeys args.toSessionKey
  match moved with
  | .error error => .error (.sqlite error)
  | .ok moved =>
      let moved := moved.moveSummaries args.fromSessionKeys args.toSessionKey
      match insertAudit (affected.map (auditRow args auditId)) moved.sessionKeyAudit with
      | none => .error (.sqlite (.uniqueConstraint "lcm_session_key_audit"))
      | some audit =>
          .ok ({ moved with sessionKeyAudit := audit },
            ⟨affected.length, summariesMoved, affected.length⟩)

/-- The body of the transaction. -/
def reconcileBody (db : SessionKeyDb) (args : ReconcileArgs) (auditId : ConversationId → String) :
    Except ReconcileError (SessionKeyDb × ReconcileResult) :=
  let activeFromCount := db.activeCount args.fromSessionKeys
  let activeToCount := db.activeCount [args.toSessionKey]
  if 1 < activeFromCount + activeToCount then
    .error (.refused .activeConflict (conflictMessage args activeFromCount activeToCount))
  else if (db.affectedConvs args.fromSessionKeys).length = 0 ∧
      (db.affectedSummaries args.fromSessionKeys).length = 0 then .ok (db, ⟨0, 0, 0⟩)
  else db.mergeKeys args auditId

/-- The ids of the audit rows are chosen by the clock and at random. -/
def reconcileSessionKeys (db : SessionKeyDb) (args : ReconcileArgs)
    (auditId : ConversationId → String) : SessionKeyDb × Except ReconcileError ReconcileResult :=
  match validateReconcile args with
  | .error error => (db, .error error)
  | .ok () => withTransaction db fun db => db.reconcileBody args auditId

/-! ## What a call does -/

variable {db : SessionKeyDb} {args : ReconcileArgs} {auditId : ConversationId → String}
  {keys : List String} {c : ConversationRecord}

theorem carries_eq_true_iff : carries keys c = true ↔ ∃ key ∈ keys, c.sessionKey = some key := by
  unfold carries
  cases c.sessionKey with
  | none => simp
  | some key => simp

theorem carries_cons (key : String) (keys : List String) (c : ConversationRecord) :
    carries (key :: keys) c = (carries [key] c || carries keys c) := by
  rw [Bool.eq_iff_iff, Bool.or_eq_true, carries_eq_true_iff, carries_eq_true_iff, carries_eq_true_iff]
  simp

/-- A conversation is on the target after the move if it was, or carried one of the keys. -/
theorem carries_movedTo {toSessionKey : String} :
    carries [toSessionKey] (movedTo keys toSessionKey c) = carries (toSessionKey :: keys) c := by
  rw [carries_cons toSessionKey keys]
  unfold movedTo
  split
  · rename_i hCarries
    rw [hCarries, Bool.or_true]
    exact carries_eq_true_iff.mpr ⟨toSessionKey, List.mem_singleton_self _, rfl⟩
  · rename_i hNot
    rw [Bool.not_eq_true] at hNot
    rw [hNot, Bool.or_false]

theorem active_movedTo {toSessionKey : String} :
    (movedTo keys toSessionKey c).active = c.active := by
  unfold movedTo
  split <;> rfl

/-- The active conversations of the target after the move. -/
theorem countP_movedTo (db : SessionKeyDb) (keys : List String) (toSessionKey : String) :
    ((db.conversations.map (movedTo keys toSessionKey)).countP fun c =>
      carries [toSessionKey] c && c.active) = db.activeCount (toSessionKey :: keys) := by
  unfold activeCount
  rw [List.countP_map]
  refine List.countP_congr fun c _ => ?_
  dsimp only [Function.comp_apply]
  rw [carries_movedTo, active_movedTo]

/-- The check for a conflict counts no less than the active conversations of the merge. -/
theorem activeCount_cons_le (db : SessionKeyDb) (keys : List String) (toSessionKey : String) :
    db.activeCount (toSessionKey :: keys) ≤
      db.activeCount keys + db.activeCount [toSessionKey] := by
  unfold activeCount
  induction db.conversations with
  | nil => exact Nat.le_refl _
  | cons c conversations ih =>
    rw [List.countP_cons, List.countP_cons, List.countP_cons, carries_cons toSessionKey keys]
    cases carries [toSessionKey] c <;> cases carries keys c <;> cases c.active <;> simp <;> omega

/-- It counts the same if the target is not among the keys. -/
theorem activeCount_cons (db : SessionKeyDb) {toSessionKey : String} (h : toSessionKey ∉ keys) :
    db.activeCount (toSessionKey :: keys) =
      db.activeCount keys + db.activeCount [toSessionKey] := by
  have hApart : ∀ c : ConversationRecord, carries [toSessionKey] c = true →
      carries keys c = false := by
    intro c hTo
    obtain ⟨key, hKey, hSame⟩ := carries_eq_true_iff.mp hTo
    obtain rfl := List.mem_singleton.mp hKey
    rw [← Bool.not_eq_true, carries_eq_true_iff]
    rintro ⟨other, hOther, hSame'⟩
    exact h (Option.some.inj (hSame.symm.trans hSame') ▸ hOther)
  unfold activeCount
  induction db.conversations with
  | nil => rfl
  | cons c conversations ih =>
    rw [List.countP_cons, List.countP_cons, List.countP_cons, ih,
      carries_cons toSessionKey keys]
    cases hTo : carries [toSessionKey] c with
    | false =>
      rw [Bool.false_or, Bool.false_and]
      simp only [Bool.false_eq_true, if_false]
      omega
    | true =>
      rw [hApart c hTo, Bool.false_and, Bool.or_false]
      simp only [Bool.false_eq_true, if_false]
      omega

/-- It counts twice the active conversations of the target if the target is among the keys. -/
theorem activeCount_cons_of_mem (db : SessionKeyDb) {toSessionKey : String}
    (h : toSessionKey ∈ keys) : db.activeCount (toSessionKey :: keys) = db.activeCount keys := by
  have hSame : ∀ c : ConversationRecord, carries (toSessionKey :: keys) c = carries keys c := by
    intro c
    rw [Bool.eq_iff_iff, carries_eq_true_iff, carries_eq_true_iff]
    constructor
    · rintro ⟨key, hKey, hCarried⟩
      rcases List.mem_cons.mp hKey with rfl | hMem
      · exact ⟨key, h, hCarried⟩
      · exact ⟨key, hMem, hCarried⟩
    · rintro ⟨key, hKey, hCarried⟩
      exact ⟨key, List.mem_cons_of_mem _ hKey, hCarried⟩
  unfold activeCount
  simp only [hSame]

/-- Fresh audit rows are appended. -/
theorem insertAudit_of_fresh {rows audit : List SessionKeyAuditRow}
    (hFresh : ((audit ++ rows).map (·.auditId)).Nodup) :
    insertAudit rows audit = some (audit ++ rows) := by
  induction rows generalizing audit with
  | nil => rw [insertAudit, List.append_nil]
  | cons row rows ih =>
    have hNew : row.auditId ∉ audit.map (·.auditId) := by
      rw [List.map_append, List.map_cons] at hFresh
      intro hMem
      exact (List.nodup_append.mp hFresh).2.2 _ hMem _ List.mem_cons_self rfl
    have hAppend : audit ++ row :: rows = (audit ++ [row]) ++ rows := by
      rw [List.append_assoc, List.singleton_append]
    unfold insertAudit Table.insertRow
    rw [if_neg hNew]
    dsimp only
    rw [hAppend] at hFresh ⊢
    exact ih hFresh

/-- The state after a merge. -/
def merged (db : SessionKeyDb) (args : ReconcileArgs) (auditId : ConversationId → String) :
    SessionKeyDb :=
  { db.moveSummaries args.fromSessionKeys args.toSessionKey with
    conversations := db.conversations.map (movedTo args.fromSessionKeys args.toSessionKey)
    sessionKeyAudit := db.sessionKeyAudit ++
      (db.affectedConvs args.fromSessionKeys).map (auditRow args auditId) }

/-- The ids of a call are new. -/
structure AuditIds (db : SessionKeyDb) where
  auditId : ConversationId → String
  fresh : ∀ c, ∀ row ∈ db.sessionKeyAudit, row.auditId ≠ auditId c
  distinct : Function.Injective auditId

/-- What the primary keys guarantee. -/
structure KeysWellFormed (db : SessionKeyDb) : Prop where
  conversations : (db.conversations.map (·.conversationId)).Nodup
  audit : (db.sessionKeyAudit.map (·.auditId)).Nodup

theorem KeysWellFormed.nodup_auditIds (h : KeysWellFormed db) (ids : AuditIds db)
    (keys : List String) : ((db.sessionKeyAudit ++
      (db.affectedConvs keys).map (auditRow args ids.auditId)).map (·.auditId)).Nodup := by
  have hIds : ((db.affectedConvs keys).map (auditRow args ids.auditId)).map (·.auditId) =
      ((db.affectedConvs keys).map (·.conversationId)).map ids.auditId := by
    rw [List.map_map, List.map_map]
    rfl
  rw [List.map_append, hIds]
  refine List.nodup_append.mpr ⟨h.audit, ?_, ?_⟩
  · exact (h.conversations.sublist (List.filter_sublist.map _)).map ids.distinct
  · intro id hOld id' hNew hSame
    obtain ⟨row, hRow, rfl⟩ := List.mem_map.mp hOld
    obtain ⟨c, -, rfl⟩ := List.mem_map.mp hNew
    exact ids.fresh c row hRow hSame

theorem KeysWellFormed.insertAudit (h : KeysWellFormed db) (ids : AuditIds db)
    (keys : List String) :
    insertAudit ((db.affectedConvs keys).map (auditRow args ids.auditId)) db.sessionKeyAudit =
      some (db.sessionKeyAudit ++ (db.affectedConvs keys).map (auditRow args ids.auditId)) :=
  insertAudit_of_fresh (h.nodup_auditIds ids keys)

theorem movedTo_of_not_carries {toSessionKey : String} (h : carries keys c = false) :
    movedTo keys toSessionKey c = c := by
  unfold movedTo
  rw [h]
  rfl

theorem map_movedTo_of_none (h : db.affectedConvs keys = []) (toSessionKey : String) :
    db.conversations.map (movedTo keys toSessionKey) = db.conversations := by
  have hSame : ∀ c ∈ db.conversations, movedTo keys toSessionKey c = c := by
    intro c hMem
    refine movedTo_of_not_carries ?_
    rw [← Bool.not_eq_true]
    exact List.filter_eq_nil_iff.mp h c hMem
  rw [List.map_congr_left hSame, List.map_id']

/-- A merge without a conflict moves the rows of the keys. -/
theorem mergeKeys_ok
    (hInsert : insertAudit ((db.affectedConvs args.fromSessionKeys).map (auditRow args auditId))
      db.sessionKeyAudit = some (db.sessionKeyAudit ++
        (db.affectedConvs args.fromSessionKeys).map (auditRow args auditId)))
    (hFree : db.activeCount (args.toSessionKey :: args.fromSessionKeys) ≤ 1) :
    db.mergeKeys args auditId =
      .ok (db.merged args auditId, ⟨(db.affectedConvs args.fromSessionKeys).length,
        (db.affectedSummaries args.fromSessionKeys).length,
        (db.affectedConvs args.fromSessionKeys).length⟩) := by
  have hMoved : (if (db.affectedConvs args.fromSessionKeys).length = 0 then .ok db
      else db.moveConversations args.fromSessionKeys args.toSessionKey) =
      (.ok { db with conversations :=
        db.conversations.map (movedTo args.fromSessionKeys args.toSessionKey) } :
          Except SqlError SessionKeyDb) := by
    split
    · rename_i hNone
      rw [map_movedTo_of_none (List.eq_nil_of_length_eq_zero hNone)]
    · unfold moveConversations
      dsimp only
      rw [countP_movedTo, if_neg (Nat.not_lt.mpr hFree)]
  unfold SessionKeyDb.mergeKeys
  dsimp only
  rw [hMoved]
  dsimp only [moveSummaries]
  rw [hInsert]
  rfl

/-- The state after a call that is not refused. -/
def after (db : SessionKeyDb) (args : ReconcileArgs) (auditId : ConversationId → String) :
    SessionKeyDb :=
  if db.affectedConvs args.fromSessionKeys = [] ∧
      db.affectedSummaries args.fromSessionKeys = [] then db
  else db.merged args auditId

/-- A call that passes its checks merges the keys, and changes nothing if no row has one. -/
theorem reconcile_ok
    (hInsert : insertAudit ((db.affectedConvs args.fromSessionKeys).map (auditRow args auditId))
      db.sessionKeyAudit = some (db.sessionKeyAudit ++
        (db.affectedConvs args.fromSessionKeys).map (auditRow args auditId)))
    (hValid : validateReconcile args = .ok ())
    (hFree : db.activeCount args.fromSessionKeys + db.activeCount [args.toSessionKey] ≤ 1) :
    ∃ result, db.reconcileSessionKeys args auditId = (db.after args auditId, .ok result) := by
  unfold reconcileSessionKeys
  rw [hValid]
  dsimp only
  have hBody : ∃ result, db.reconcileBody args auditId =
      .ok (db.after args auditId, result) := by
    unfold reconcileBody after
    dsimp only
    rw [if_neg (Nat.not_lt.mpr hFree)]
    simp only [List.length_eq_zero_iff]
    split
    · exact ⟨_, rfl⟩
    · rw [mergeKeys_ok hInsert ((activeCount_cons_le db _ _).trans hFree)]
      exact ⟨_, rfl⟩
  obtain ⟨result, hOk⟩ := hBody
  exact ⟨result, withTransaction_ok hOk⟩

/-- A call with a conflict is refused. -/
theorem reconcile_conflict (auditId : ConversationId → String)
    (hValid : validateReconcile args = .ok ())
    (hConflict : 1 < db.activeCount args.fromSessionKeys + db.activeCount [args.toSessionKey]) :
    db.reconcileSessionKeys args auditId = (db, .error (.refused .activeConflict
      (conflictMessage args (db.activeCount args.fromSessionKeys)
        (db.activeCount [args.toSessionKey])))) := by
  unfold reconcileSessionKeys
  rw [hValid]
  refine withTransaction_error ?_
  unfold reconcileBody
  dsimp only
  rw [if_pos hConflict]

theorem reconcile_invalid {error : ReconcileError} (auditId : ConversationId → String)
    (hInvalid : validateReconcile args = .error error) :
    db.reconcileSessionKeys args auditId = (db, .error error) := by
  unfold reconcileSessionKeys
  rw [hInvalid]

end SessionKeyDb

end LosslessHermes
