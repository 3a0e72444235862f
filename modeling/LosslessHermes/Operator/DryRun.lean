import LosslessHermes.Operator.CleanerRun

/-!
# The dry run against the run

`DryRun` compares what `scan_doctor_cleaners` reports with what `apply_doctor_cleaners` does on
the same rows, up to two parameters: which references a conversation that is kept should keep,
and which statements should leave the rows as they were when they raise.

`dryRun` is the comparison that holds: of the references those with both ends outside of the
deleted conversations, and of the statements those up to `COMMIT`.
-/

namespace LosslessHermes

namespace CleanerCall

def definitions (call : CleanerCall) : List CleanerDefinition :=
  getCleanerDefinitions call.filterIds

def scan (call : CleanerCall) (db : DerivedDb) : DoctorCleanerScan :=
  db.scanDoctorCleaners call.archivedAt call.filterIds

/-- A backup could be written, and nothing raised up to `COMMIT`. -/
structure Commits (call : CleanerCall) (db : DerivedDb) : Prop where
  backup : call.backupFailure = none
  quiet : ∀ chain, (call.run db).2 = .error chain → ∀ s ∈ chain, s.uncommitted = false

end CleanerCall

/-! ## What a kept conversation keeps -/

/-- The keys of a table that are gone. -/
def lostKeys {κ : Type} [DecidableEq κ] (before after : List κ) : List κ :=
  before.filter fun k => k ∉ after

namespace OperatorDb

def deletedConversationIds (db db' : OperatorDb) : List ConversationId :=
  lostKeys (db.conversations.map (·.conversationId)) (db'.conversations.map (·.conversationId))

def deletedMessageIds (db db' : OperatorDb) : List MessageId :=
  lostKeys (db.messages.map (·.messageId)) (db'.messages.map (·.messageId))

/-- The links with an end in the conversation. -/
def messageLinksOf (db : OperatorDb) (c : ConversationId) : List SummaryMessageLink :=
  db.summaryMessages.filter fun l =>
    l.summaryId ∈ db.cleanerSummaryIds [c] ∨ l.messageId ∈ db.cleanerMessageIds [c]

def parentLinksOf (db : OperatorDb) (c : ConversationId) : List SummaryParentLink :=
  db.summaryParents.filter fun l =>
    l.summaryId ∈ db.cleanerSummaryIds [c] ∨ l.parentSummaryId ∈ db.cleanerSummaryIds [c]

/-- The summary or message belongs to none of the conversations. -/
def outside (db : OperatorDb) (ids : List ConversationId) : ContextItemRef → Bool
  | .message m => m ∉ db.cleanerMessageIds ids
  | .summary s => s ∉ db.cleanerSummaryIds ids

/-- Of the links and the context items, those whose ends are spared. -/
structure Keeps (spares : ContextItemRef → Bool) (db db' : OperatorDb) (c : ConversationId) :
    Prop where
  messages : (db'.messages.filter fun m => m.conversationId = c) =
    db.messages.filter fun m => m.conversationId = c
  summaries : (db'.summaries.filter fun s => s.conversationId = c) =
    db.summaries.filter fun s => s.conversationId = c
  messageLinks : ((db'.messageLinksOf c).filter fun l =>
      spares (.summary l.summaryId) && spares (.message l.messageId)) =
    (db.messageLinksOf c).filter fun l =>
      spares (.summary l.summaryId) && spares (.message l.messageId)
  parentLinks : ((db'.parentLinksOf c).filter fun l =>
      spares (.summary l.summaryId) && spares (.summary l.parentSummaryId)) =
    (db.parentLinksOf c).filter fun l =>
      spares (.summary l.summaryId) && spares (.summary l.parentSummaryId)
  contextItems : (db'.contextItems.filter fun i => i.conversationId = c && spares i.ref) =
    db.contextItems.filter fun i => i.conversationId = c && spares i.ref

end OperatorDb

/-! ## The comparison -/

structure DryRun (spares : ContextItemRef → Bool) (undoes : CleanerStatement → Bool)
    (call : CleanerCall) (db : DerivedDb) : Prop where
  totals : call.Commits db →
    (db.deletedConversationIds (call.run db).1.toOperatorDb).length =
        (call.scan db).totalDistinctConversations ∧
      (db.deletedMessageIds (call.run db).1.toOperatorDb).length =
        (call.scan db).totalDistinctMessages
  reported : ∀ names conversations messages vacuumed,
    (call.run db).2 = .ok (.applied names conversations messages vacuumed) →
      conversations = (call.scan db).totalDistinctConversations ∧
        messages = (call.scan db).totalDistinctMessages
  filters : List.Forall₂
    (fun (stat : DoctorCleanerFilterStat) definition => stat.id = definition.id ∧
      stat.conversationCount = (call.matched db definition).length ∧
      stat.messageCount = (db.cleanerMessageIds (call.matched db definition)).length)
    (call.scan db).filters call.definitions
  union : call.Commits db → ∀ c,
    c ∈ db.deletedConversationIds (call.run db).1.toOperatorDb ↔
      ∃ definition ∈ call.definitions, c ∈ call.matched db definition
  keeps : ∀ c, (∀ definition ∈ call.definitions, c ∉ call.matched db definition) →
    db.Keeps spares (call.run db).1.toOperatorDb c
  undone : ∀ chain, (call.run db).2 = .error chain → (∃ s ∈ chain, undoes s = true) →
    (call.run db).1 = db

/-! ## What a deletion takes -/

theorem lostKeys_perm {κ : Type} [DecidableEq κ] {before after gone : List κ}
    (hBefore : before.Nodup) (hGone : gone.Nodup) (hSub : ∀ k ∈ gone, k ∈ before)
    (hAfter : ∀ k, k ∈ after ↔ k ∈ before ∧ k ∉ gone) : (lostKeys before after).Perm gone := by
  refine (List.perm_ext_iff_of_nodup (hBefore.filter _) hGone).mpr fun k => ?_
  rw [List.mem_filter, decide_eq_true_eq, hAfter]
  constructor
  · rintro ⟨hMem, hLost⟩
    exact not_not.mp fun hOut => hLost ⟨hMem, hOut⟩
  · intro hMem
    exact ⟨hSub k hMem, fun hKept => hKept.2 hMem⟩

namespace OperatorDb

variable {db : OperatorDb} {ids : List ConversationId}

theorem mem_conversations_deleteCleanerCandidates {c : ConversationId} :
    c ∈ (db.deleteCleanerCandidates ids).conversations.map (·.conversationId) ↔
      c ∈ db.conversations.map (·.conversationId) ∧ c ∉ ids := by
  unfold deleteCleanerCandidates
  simp only [List.mem_map, List.mem_filter, decide_eq_true_eq]
  constructor
  · rintro ⟨row, ⟨hRow, hOut⟩, rfl⟩
    exact ⟨⟨row, hRow, rfl⟩, hOut⟩
  · rintro ⟨⟨row, hRow, rfl⟩, hOut⟩
    exact ⟨row, ⟨hRow, hOut⟩, rfl⟩

theorem mem_messages_deleteCleanerCandidates (hKeys : (db.messages.map (·.messageId)).Nodup)
    {m : MessageId} :
    m ∈ (db.deleteCleanerCandidates ids).messages.map (·.messageId) ↔
      m ∈ db.messages.map (·.messageId) ∧ m ∉ db.cleanerMessageIds ids := by
  unfold deleteCleanerCandidates cleanerMessageIds
  simp only [List.mem_map, List.mem_filter, decide_eq_true_eq]
  constructor
  · rintro ⟨row, ⟨hRow, hOut⟩, rfl⟩
    refine ⟨⟨row, hRow, rfl⟩, ?_⟩
    rintro ⟨other, ⟨hOther, hIn⟩, hId⟩
    exact hOut (List.inj_on_of_nodup_map hKeys hOther hRow hId ▸ hIn)
  · rintro ⟨⟨row, hRow, rfl⟩, hOut⟩
    exact ⟨row, ⟨hRow, fun hIn => hOut ⟨row, ⟨hRow, hIn⟩, rfl⟩⟩, rfl⟩

/-! ## What a deletion leaves -/

variable {c : ConversationId}

theorem summaries_deleteCleanerCandidates (hOut : c ∉ ids) :
    ((db.deleteCleanerCandidates ids).summaries.filter fun s => s.conversationId = c) =
      db.summaries.filter fun s => s.conversationId = c := by
  refine (List.filter_filter ..).trans (List.filter_congr fun s _ => ?_)
  by_cases hOwn : s.conversationId = c
  · rw [hOwn, decide_eq_true hOut, Bool.and_true]
  · rw [decide_eq_false hOwn, Bool.false_and]

theorem messages_deleteCleanerCandidates (hOut : c ∉ ids) :
    ((db.deleteCleanerCandidates ids).messages.filter fun m => m.conversationId = c) =
      db.messages.filter fun m => m.conversationId = c := by
  refine (List.filter_filter ..).trans (List.filter_congr fun m _ => ?_)
  by_cases hOwn : m.conversationId = c
  · rw [hOwn, decide_eq_true hOut, Bool.and_true]
  · rw [decide_eq_false hOwn, Bool.false_and]

/-- A kept conversation owns the summaries and messages that it owned. -/
theorem owned_deleteCleanerCandidates (hOut : c ∉ ids) :
    (db.deleteCleanerCandidates ids).cleanerSummaryIds [c] = db.cleanerSummaryIds [c] ∧
      (db.deleteCleanerCandidates ids).cleanerMessageIds [c] = db.cleanerMessageIds [c] := by
  unfold cleanerSummaryIds cleanerMessageIds
  simp only [List.mem_singleton]
  rw [summaries_deleteCleanerCandidates hOut, messages_deleteCleanerCandidates hOut]
  exact ⟨rfl, rfl⟩

/-- Rows that the second test wants and the deletion keeps. -/
theorem filter_deleted_eq {ρ : Type} {rows : List ρ} {kept own spared : ρ → Bool}
    (hSpared : ∀ r, spared r = true → kept r = true) :
    ((rows.filter kept).filter own).filter spared = (rows.filter own).filter spared := by
  rw [List.filter_filter, List.filter_filter, List.filter_filter]
  refine List.filter_congr fun r _ => ?_
  cases hTest : spared r with
  | false => simp only [Bool.false_and]
  | true => simp only [hSpared r hTest, Bool.and_true]

theorem keeps_deleteCleanerCandidates (hOut : c ∉ ids) :
    db.Keeps (db.outside ids) (db.deleteCleanerCandidates ids) c where
  messages := messages_deleteCleanerCandidates hOut
  summaries := summaries_deleteCleanerCandidates hOut
  messageLinks := by
    unfold messageLinksOf
    rw [(owned_deleteCleanerCandidates hOut).1, (owned_deleteCleanerCandidates hOut).2]
    refine filter_deleted_eq fun l hSpared => ?_
    rw [Bool.and_eq_true_iff] at hSpared
    exact decide_eq_true ⟨of_decide_eq_true hSpared.1, of_decide_eq_true hSpared.2⟩
  parentLinks := by
    unfold parentLinksOf
    rw [(owned_deleteCleanerCandidates hOut).1]
    refine filter_deleted_eq fun l hSpared => ?_
    rw [Bool.and_eq_true_iff] at hSpared
    exact decide_eq_true ⟨of_decide_eq_true hSpared.1, of_decide_eq_true hSpared.2⟩
  contextItems := by
    refine (List.filter_filter ..).trans (List.filter_congr fun i _ => ?_)
    cases hTest : (decide (i.conversationId = c) && db.outside ids i.ref) with
    | false => rw [Bool.false_and]
    | true =>
      obtain ⟨hOwn, hSpared⟩ := Bool.and_eq_true_iff.mp hTest
      have hKept : isCleaned ids (db.cleanerSummaryIds ids) (db.cleanerMessageIds ids) i =
          false := by
        unfold isCleaned
        rw [of_decide_eq_true hOwn, decide_eq_false hOut, Bool.false_or]
        unfold outside at hSpared
        cases hRef : i.ref with
        | message m =>
          rw [hRef] at hSpared
          exact decide_eq_false (of_decide_eq_true hSpared)
        | summary s =>
          rw [hRef] at hSpared
          exact decide_eq_false (of_decide_eq_true hSpared)
      rw [hKept]
      rfl

theorem keeps_refl (spares : ContextItemRef → Bool) : db.Keeps spares db c :=
  ⟨rfl, rfl, rfl, rfl, rfl⟩

end OperatorDb

/-! ## The rows after a call -/

section Comparison

variable {db : DerivedDb} {call : CleanerCall}

theorem whole_of_backup (hBackup : call.backupFailure = none) :
    (call.whole db).1 = (call.cleaned db).1 := by
  unfold CleanerCall.whole DerivedDb.applyDoctorCleaners CleanerCall.cleaned CleanerCall.cleanedIds
  rw [hBackup]
  cases getCleanerDefinitions call.filterIds with
  | nil =>
    have hNone : db.cleanerConversationIds call.archivedAt [] = [] := by
      simp [OperatorDb.cleanerConversationIds]
    exact (if_pos hNone).symm
  | cons definition definitions => rfl

theorem whole_of_no_backup (hBackup : call.backupFailure ≠ none) : (call.whole db).1 = db := by
  unfold CleanerCall.whole DerivedDb.applyDoctorCleaners
  cases getCleanerDefinitions call.filterIds with
  | nil => rfl
  | cons definition definitions =>
    cases hReason : call.backupFailure with
    | none => exact absurd hReason hBackup
    | some reason => rfl

theorem counts_whole {names : List String} {conversations messages : Nat} {vacuumed : Bool}
    (hApplied : (call.whole db).2 = .applied names conversations messages vacuumed) :
    conversations = (call.cleanedIds db).length ∧
      messages = (db.cleanerMessageIds (call.cleanedIds db)).length := by
  unfold CleanerCall.whole DerivedDb.applyDoctorCleaners at hApplied
  unfold CleanerCall.cleanedIds
  cases hDefinitions : getCleanerDefinitions call.filterIds with
  | nil =>
    rw [hDefinitions] at hApplied
    cases hApplied
  | cons definition definitions =>
    rw [hDefinitions] at hApplied
    cases hBackup : call.backupFailure with
    | some reason =>
      rw [hBackup] at hApplied
      cases hApplied
    | none =>
      rw [hBackup] at hApplied
      cases hApplied
      exact ⟨rfl, rfl⟩

theorem rows_of_commits (hKeys : (db.conversations.map (·.conversationId)).Nodup)
    (hCommits : call.Commits db) : (call.run db).1 = (call.cleaned db).1 := by
  rw [← whole_of_backup hCommits.backup]
  rcases @CleanerCall.run_spec call db hKeys with
    hRun | ⟨s, chain, hMem, -, ⟨hRun, hEarly⟩ | ⟨hRun, -, -⟩⟩
  · exact congrArg Prod.fst hRun
  · have hLate := hCommits.quiet chain (congrArg Prod.snd hRun) s hMem
    exact absurd (hEarly.symm.trans hLate) Bool.noConfusion
  · exact congrArg Prod.fst hRun

theorem rows_run (hKeys : (db.conversations.map (·.conversationId)).Nodup) :
    (call.run db).1 = db ∨
      (call.run db).1 = db.deleteCleanerCandidates (call.cleanedIds db) := by
  have hWhole : (call.whole db).1 = db ∨
      (call.whole db).1 = db.deleteCleanerCandidates (call.cleanedIds db) := by
    by_cases hBackup : call.backupFailure = none
    · rw [whole_of_backup hBackup]
      exact ite_eq_or_eq ..
    · exact Or.inl (whole_of_no_backup hBackup)
  rcases @CleanerCall.run_spec call db hKeys with
    hRun | ⟨s, chain, -, -, ⟨hRun, -⟩ | ⟨hRun, -, -⟩⟩
  · rwa [hRun]
  · exact Or.inl (congrArg Prod.fst hRun)
  · rwa [hRun]

/-- After `COMMIT` exactly the conversations of the filters are gone, with their messages. -/
theorem lost_of_commits (hKeys : (db.conversations.map (·.conversationId)).Nodup)
    (hMessages : (db.messages.map (·.messageId)).Nodup) (hCommits : call.Commits db) :
    (db.deletedConversationIds (call.run db).1.toOperatorDb).Perm (call.cleanedIds db) ∧
      (db.deletedMessageIds (call.run db).1.toOperatorDb).Perm
        (db.cleanerMessageIds (call.cleanedIds db)) := by
  have hConversations : ∀ c, c ∈ (call.run db).1.conversations.map (·.conversationId) ↔
      c ∈ db.conversations.map (·.conversationId) ∧ c ∉ call.cleanedIds db := by
    intro c
    rw [rows_of_commits hKeys hCommits]
    unfold CleanerCall.cleaned
    dsimp only
    split
    · rename_i hNone
      rw [hNone]
      exact (and_iff_left List.not_mem_nil).symm
    · exact OperatorDb.mem_conversations_deleteCleanerCandidates
  have hRows : ∀ m, m ∈ (call.run db).1.messages.map (·.messageId) ↔
      m ∈ db.messages.map (·.messageId) ∧ m ∉ db.cleanerMessageIds (call.cleanedIds db) := by
    intro m
    rw [rows_of_commits hKeys hCommits]
    unfold CleanerCall.cleaned
    dsimp only
    split
    · rename_i hNone
      rw [hNone]
      simp [OperatorDb.cleanerMessageIds]
    · exact OperatorDb.mem_messages_deleteCleanerCandidates hMessages
  constructor
  · exact lostKeys_perm hKeys (OperatorDb.nodup_cleanerConversationIds hKeys _)
      (fun c hMem => (List.filter_sublist.map _).subset hMem) hConversations
  · exact lostKeys_perm hMessages (hMessages.sublist (List.filter_sublist.map _))
      (fun m hMem => (List.filter_sublist.map _).subset hMem) hRows

/-- The dry run is the run, apart from the references into deleted conversations and from
what raises after `COMMIT`. The hypotheses are primary keys. -/
theorem dryRun (hKeys : (db.conversations.map (·.conversationId)).Nodup)
    (hMessages : (db.messages.map (·.messageId)).Nodup) :
    DryRun (db.outside (call.cleanedIds db)) CleanerStatement.uncommitted call db where
  totals hCommits := by
    obtain ⟨hLost, hLostMessages⟩ := lost_of_commits hKeys hMessages hCommits
    obtain ⟨hConversations, hCount⟩ := @OperatorDb.totals_scanDoctorCleaners db.toOperatorDb
      call.archivedAt hKeys call.filterIds
    exact ⟨hLost.length_eq.trans hConversations.symm, hLostMessages.length_eq.trans hCount.symm⟩
  reported names conversations messages vacuumed hApplied := by
    obtain ⟨hConversations, hCount⟩ := @OperatorDb.totals_scanDoctorCleaners db.toOperatorDb
      call.archivedAt hKeys call.filterIds
    rcases @CleanerCall.run_spec call db hKeys with
      hRun | ⟨s, chain, -, -, ⟨hRun, -⟩ | ⟨hRun, -, -⟩⟩
    · rw [hRun] at hApplied
      obtain ⟨hFirst, hSecond⟩ := counts_whole (Except.ok.inj hApplied)
      exact ⟨hFirst.trans hConversations.symm, hSecond.trans hCount.symm⟩
    · rw [hRun] at hApplied
      cases hApplied
    · rw [hRun] at hApplied
      cases hApplied
  filters := OperatorDb.filters_scanDoctorCleaners hKeys call.filterIds
  union hCommits c :=
    (lost_of_commits hKeys hMessages hCommits).1.mem_iff.trans
      OperatorDb.mem_cleanerConversationIds
  keeps c hOut := by
    have hKept : c ∉ call.cleanedIds db := by
      intro hMem
      obtain ⟨definition, hDefinition, hMatch⟩ := OperatorDb.mem_cleanerConversationIds.mp hMem
      exact hOut definition hDefinition hMatch
    rcases @rows_run db call hKeys with hRows | hRows
    · rw [hRows]
      exact OperatorDb.keeps_refl _
    · rw [hRows]
      exact OperatorDb.keeps_deleteCleanerCandidates hKept
  undone chain hError hEarly := by
    obtain ⟨early, hMem, hEarly⟩ := hEarly
    rcases @CleanerCall.run_spec call db hKeys with
      hRun | ⟨s, other, -, -, ⟨hRun, -⟩ | ⟨hRun, -, hLate⟩⟩
    · rw [hRun] at hError
      cases hError
    · exact congrArg Prod.fst hRun
    · rw [hRun] at hError
      obtain rfl := Except.error.inj hError
      exact absurd (hEarly.symm.trans (hLate early hMem)) Bool.noConfusion

end Comparison

/-! ## A summary of a scheduled session -/

/-- The main session has a summary of a message of the scheduled one. -/
def linkedDb : DerivedDb :=
  { OperatorDb.ofDb { Db.empty with
      conversations := [⟨1, "s1", some "agent:main:cron:nightly", true, 0⟩,
        ⟨2, "s2", some "agent:main:main", true, 0⟩]
      messages := [⟨1, 1, 0, .user, "report", 1, 0, none⟩]
      summaries := [⟨"main", 2, .leaf, 0, "", 1, [], none, none, 0, 0, 1, "m", 0, none⟩]
      summaryMessages := [⟨"main", 1, 0⟩] } with
    queue := []
    entities := []
    mentions := []
    entityTypes := []
    messagesFts := none
    summariesFts := none
    summariesFtsCjk := none }

def cleanCron (raises : CleanerStatement → Bool) : CleanerCall where
  archivedAt := fun _ => none
  filterIds := ["cron_sessions"]
  backupFailure := none
  vacuum := true
  raises := raises

theorem dryRun_linkedDb :
    DryRun (linkedDb.outside ((cleanCron fun _ => false).cleanedIds linkedDb))
      CleanerStatement.uncommitted (cleanCron fun _ => false) linkedDb :=
  dryRun (by decide) (by decide)

/-- The main session loses its link, and where `VACUUM` raises the rows are gone. -/
theorem not_dryRun :
    ¬ DryRun (fun _ => true) (fun _ => true) (cleanCron fun _ => false) linkedDb ∧
      ¬ DryRun (linkedDb.outside ((cleanCron (· = .vacuum)).cleanedIds linkedDb))
        (fun _ => true) (cleanCron (· = .vacuum)) linkedDb := by
  constructor
  · intro hSame
    have hLinks := (hSame.keeps 2 (by decide +kernel)).messageLinks
    exact absurd (congrArg List.length hLinks) (by decide +kernel)
  · intro hSame
    have hRows := hSame.undone [.vacuum] (by decide +kernel) ⟨.vacuum, by decide, rfl⟩
    exact absurd (congrArg (fun db => db.conversations.length) hRows) (by decide +kernel)

end LosslessHermes
