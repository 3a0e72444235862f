import LosslessHermes.Operator.Ancestors
import LosslessHermes.Synthesis.Around

/-!
# The text of a synthesis and its leaves

The cap on the source text is applied to what the rows say of their own sizes, and the text
has headings and separators besides. A first leaf that passes the cap alone leaves an empty
list, with which the call goes on (`synthesisesHonestly_iff`).
-/

namespace LosslessHermes

namespace OperatorDb

/-- What a row counts against the cap. -/
def rowTokens (db : OperatorDb) (row : SummaryRecord) : Nat :=
  if row.tokenCount > 0 then row.tokenCount else estimateTokens (db.sourceBlock row)

def countedTokens (db : OperatorDb) (rows : List SummaryRecord) : Nat :=
  (rows.map db.rowTokens).sum

/-- The text of a list of leaves. -/
def assembled (db : OperatorDb) (rows : List SummaryRecord) : String :=
  String.intercalate "\n\n---\n\n" (rows.map db.sourceBlock)

/-- The text fits, the leaves are those whose blocks make it up, and no longer initial list
has a text that fits. -/
def HonestSource (db : OperatorDb) (rows : List SummaryRecord) : Prop :=
  ∃ n ≤ rows.length,
    (db.buildSourceText rows).1 = db.assembled (rows.take n) ∧
    db.chosenLeafIds rows = (rows.take n).map (·.summaryId) ∧
    estimateTokens (db.assembled (rows.take n)) ≤ maxSourceTextTokens ∧
    ∀ m ≤ rows.length, estimateTokens (db.assembled (rows.take m)) ≤ maxSourceTextTokens → m ≤ n

/-- The sizes of an initial list pass the cap exactly when its text does. -/
def CountsAgree (db : OperatorDb) (rows : List SummaryRecord) : Prop :=
  ∀ n ≤ rows.length, db.countedTokens (rows.take n) ≤ maxSourceTextTokens ↔
    estimateTokens (db.assembled (rows.take n)) ≤ maxSourceTextTokens

/-- Whatever the cache holds, a call that awaits the model has leaves and a text. -/
def NeverFromNothing (texts : CacheTexts) (db : OperatorDb) (promptId : Option String)
    (request : SynthesizeRequest) : Prop :=
  ∀ synthesis call cacheId now refused value,
    let start : OperatorDb := { db with synthesis := synthesis }
    ((SynthesisState.step texts ⟨start, fun _ => none⟩
      (.choose call cacheId promptId request)).step texts (.insertRow call now refused)).calls
        call = some value → value.phase = .building →
      value.leafIds ≠ [] ∧ (start.buildSourceText (start.selectTimeWindowLeaves request)).1 ≠ ""

/-- The first leaf of a list passes the cap alone. -/
def FirstTooLarge (db : OperatorDb) (rows : List SummaryRecord) : Prop :=
  ∃ row ∈ rows.head?, maxSourceTextTokens < db.rowTokens row

/-! ## What the loop takes -/

/-- The number of rows in front of the one at which the cap is passed. -/
def takenCount (db : OperatorDb) : Nat → List SummaryRecord → Nat
  | _, [] => 0
  | totalTokens, row :: rows =>
      if totalTokens + db.rowTokens row > maxSourceTextTokens then 0
      else takenCount db (totalTokens + db.rowTokens row) rows + 1

variable {db : OperatorDb}

theorem takenCount_le (totalTokens : Nat) (rows : List SummaryRecord) :
    db.takenCount totalTokens rows ≤ rows.length := by
  induction rows generalizing totalTokens with
  | nil => exact Nat.le_refl 0
  | cons row rows ih =>
    rw [takenCount]
    split
    · exact Nat.zero_le _
    · exact Nat.succ_le_succ (ih _)

theorem buildSourceBlocks_eq (i totalTokens : Nat) (rows : List SummaryRecord) :
    db.buildSourceBlocks i totalTokens rows =
      ((rows.take (db.takenCount totalTokens rows)).map db.sourceBlock,
        if db.takenCount totalTokens rows < rows.length then
          some (i + db.takenCount totalTokens rows) else none) := by
  induction rows generalizing i totalTokens with
  | nil => rfl
  | cons row rows ih =>
    rw [buildSourceBlocks, takenCount]
    dsimp only
    rw [show (if row.tokenCount > 0 then row.tokenCount else
      estimateTokens (db.sourceBlock row)) = db.rowTokens row from rfl]
    split
    · rw [List.length_cons, if_pos (Nat.succ_pos rows.length)]
      rfl
    · rw [ih, List.take_succ_cons, List.map_cons, List.length_cons]
      simp only [Nat.add_lt_add_iff_right, Nat.add_assoc, Nat.add_comm 1]

theorem countedTokens_cons (row : SummaryRecord) (rows : List SummaryRecord) :
    db.countedTokens (row :: rows) = db.rowTokens row + db.countedTokens rows := by
  rw [countedTokens, List.map_cons, List.sum_cons]
  rfl

/-- The rows that are taken are as many as the cap lets through. -/
theorem le_takenCount_iff {totalTokens n : Nat} {rows : List SummaryRecord}
    (hTotal : totalTokens ≤ maxSourceTextTokens) (hn : n ≤ rows.length) :
    n ≤ db.takenCount totalTokens rows ↔
      totalTokens + db.countedTokens (rows.take n) ≤ maxSourceTextTokens := by
  induction rows generalizing totalTokens n with
  | nil =>
    obtain rfl := Nat.le_zero.mp hn
    exact ⟨fun _ => hTotal, fun _ => Nat.le_refl 0⟩
  | cons row rows ih =>
    cases n with
    | zero => exact ⟨fun _ => hTotal, fun _ => Nat.zero_le _⟩
    | succ n =>
      rw [takenCount, List.take_succ_cons, countedTokens_cons, ← Nat.add_assoc]
      split
      · omega
      · rename_i hFits
        rw [Nat.add_le_add_iff_right]
        exact ih (by omega) (Nat.le_of_succ_le_succ hn)

theorem buildSourceText_eq (rows : List SummaryRecord) :
    (db.buildSourceText rows).1 = db.assembled (rows.take (db.takenCount 0 rows)) := by
  rw [buildSourceText, buildSourceBlocks_eq]
  rfl

theorem chosenLeafIds_eq (rows : List SummaryRecord) :
    db.chosenLeafIds rows = (rows.take (db.takenCount 0 rows)).map (·.summaryId) := by
  rw [chosenLeafIds, buildSourceText, buildSourceBlocks_eq]
  dsimp only
  by_cases hAll : db.takenCount 0 rows < rows.length
  · rw [if_pos hAll, Nat.zero_add]
  · rw [if_neg hAll, List.take_of_length_le (Nat.not_lt.mp hAll)]

/-! ## Longer lists have longer texts -/

theorem intercalate_take_isPrefix {α : Type} (sep : List α) (texts : List (List α)) (n : Nat) :
    sep.intercalate (texts.take n) <+: sep.intercalate texts := by
  induction texts generalizing n with
  | nil => rw [List.take_nil]
  | cons text texts ih =>
    cases n with
    | zero => exact List.nil_prefix
    | succ n =>
      rw [List.take_succ_cons]
      cases texts with
      | nil => rw [List.take_nil]
      | cons next texts =>
        cases n with
        | zero =>
          rw [List.take_zero, List.intercalate_singleton, List.intercalate_cons_cons,
            List.append_assoc]
          exact List.prefix_append _ _
        | succ n =>
          rw [List.take_succ_cons, List.intercalate_cons_cons,
            List.intercalate_cons_cons, ← List.take_succ_cons]
          exact (List.prefix_append_right_inj _).mpr (ih (n + 1))

theorem estimateTokens_le_of_isPrefix {s t : String} (h : s.toList <+: t.toList) :
    estimateTokens s ≤ estimateTokens t := by
  obtain ⟨rest, hRest⟩ := h
  rw [estimateTokens, estimateTokens, ← hRest, List.map_append, List.sum_append_nat]
  omega

theorem estimateTokens_assembled_mono (rows : List SummaryRecord) {m n : Nat} (h : m ≤ n) :
    estimateTokens (db.assembled (rows.take m)) ≤ estimateTokens (db.assembled (rows.take n)) := by
  apply estimateTokens_le_of_isPrefix
  have hTake : rows.take m = (rows.take n).take m := by
    rw [List.take_take, Nat.min_eq_left h]
  rw [assembled, assembled, String.toList_intercalate, String.toList_intercalate, hTake,
    List.map_take, List.map_take]
  exact intercalate_take_isPrefix _ _ _

/-! ## The longest list -/

variable {rows : List SummaryRecord}

theorem honestSource_of_countsAgree (h : db.CountsAgree rows) :
    db.HonestSource rows := by
  have hLe := @takenCount_le db 0 rows
  have hTaken {m : Nat} (hm : m ≤ rows.length) : m ≤ db.takenCount 0 rows ↔
      estimateTokens (db.assembled (rows.take m)) ≤ maxSourceTextTokens := by
    rw [le_takenCount_iff (Nat.zero_le _) hm, Nat.zero_add]
    exact h m hm
  exact ⟨_, hLe, buildSourceText_eq rows, chosenLeafIds_eq rows,
    (hTaken hLe).mp (Nat.le_refl _), fun m hm => (hTaken hm).mpr⟩

theorem countsAgree_of_honestSource (h : db.HonestSource rows) :
    db.CountsAgree rows := by
  obtain ⟨n, hn, -, hIds, hFits, hLongest⟩ := h
  have hLe := @takenCount_le db 0 rows
  have hTaken : db.takenCount 0 rows = n := by
    have hLength := congrArg List.length (hIds.symm.trans (chosenLeafIds_eq rows))
    simp only [List.length_map, List.length_take] at hLength
    omega
  intro m hm
  have hCounted := @le_takenCount_iff db _ _ _ (Nat.zero_le _) hm
  rw [Nat.zero_add, hTaken] at hCounted
  rw [← hCounted]
  exact ⟨fun hLe => (estimateTokens_assembled_mono rows hLe).trans hFits, hLongest m hm⟩

theorem honestSource_iff (rows : List SummaryRecord) : db.HonestSource rows ↔ db.CountsAgree rows :=
  ⟨countsAgree_of_honestSource, honestSource_of_countsAgree⟩

/-! ## Calls without leaves -/

theorem takenCount_eq_zero_iff (h : rows ≠ []) :
    db.takenCount 0 rows = 0 ↔ db.FirstTooLarge rows := by
  cases rows with
  | nil => exact absurd rfl h
  | cons row rows =>
    simp only [takenCount, FirstTooLarge, List.head?_cons, Option.mem_some_iff, Nat.zero_add,
      gt_iff_lt, exists_eq_left']
    split
    · exact ⟨fun _ => ‹_›, fun _ => rfl⟩
    · exact ⟨fun h => absurd h (Nat.succ_ne_zero _), fun h => absurd h ‹_›⟩

theorem sourceBlock_ne_empty (row : SummaryRecord) : db.sourceBlock row ≠ "" := by
  intro h
  have hHead := congrArg (fun text => text.toList.head?) h
  simp [sourceBlock] at hHead

theorem assembled_cons_ne_empty (row : SummaryRecord) (rows : List SummaryRecord) :
    db.assembled (row :: rows) ≠ "" := by
  intro h
  have hFirst := intercalate_take_isPrefix "\n\n---\n\n".toList
    ((row :: rows).map fun row => (db.sourceBlock row).toList) 1
  rw [assembled, ← String.toList_inj, String.toList_intercalate, List.map_map] at h
  rw [Function.comp_def] at h
  rw [h, List.map_cons, List.take_succ_cons, List.take_zero, List.intercalate_singleton] at hFirst
  exact sourceBlock_ne_empty row (String.toList_inj.mp (List.prefix_nil.mp hFirst))

variable {texts : CacheTexts} {promptId : Option String} {request : SynthesizeRequest}

theorem startCall_some {cacheId : String} {value : SynthesisCall}
    (h : startCall texts db cacheId promptId request = some value) :
    promptId ≠ none ∧ db.selectTimeWindowLeaves request ≠ [] ∧
      value.leafIds = db.chosenLeafIds (db.selectTimeWindowLeaves request) := by
  unfold startCall at h
  cases hRows : db.selectTimeWindowLeaves request with
  | nil =>
    rw [hRows] at h
    cases h
  | cons row rows =>
    rw [hRows] at h
    cases promptId with
    | none => cases h
    | some promptId =>
      obtain rfl := Option.some.inj h
      exact ⟨Option.some_ne_none _, List.cons_ne_nil _ _, rfl⟩

theorem chosenLeafIds_eq_nil_iff (h : rows ≠ []) :
    db.chosenLeafIds rows = [] ↔ db.FirstTooLarge rows := by
  rw [chosenLeafIds_eq, List.map_eq_nil_iff, List.take_eq_nil_iff, or_iff_left h,
    takenCount_eq_zero_iff h]

theorem buildSourceText_eq_empty_iff (h : rows ≠ []) :
    (db.buildSourceText rows).1 = "" ↔ db.FirstTooLarge rows := by
  rw [buildSourceText_eq, ← takenCount_eq_zero_iff h]
  cases rows with
  | nil => exact absurd rfl h
  | cons row rows =>
    cases db.takenCount 0 (row :: rows) with
    | zero => exact ⟨fun _ => rfl, fun _ => rfl⟩
    | succ n =>
      exact ⟨fun h => absurd h (assembled_cons_ne_empty _ _),
        fun h => absurd h (Nat.succ_ne_zero n)⟩

theorem insertRow_calls (state : SynthesisState) (call : Nat) (now : Timestamp) (refused : Bool)
    (chosen : SynthesisCall) : ∃ phase,
      (state.insertRow call now refused chosen).calls call = some { chosen with phase := phase } := by
  unfold SynthesisState.insertRow
  split
  · exact ⟨_, if_pos rfl⟩
  · exact ⟨_, if_pos rfl⟩

/-- A call that awaits the model has the leaves that were chosen for it. -/
theorem building_leafIds {call : Nat} {cacheId : String} {now : Timestamp}
    {refused : Bool} {value : SynthesisCall} (h : ((SynthesisState.step texts ⟨db, fun _ => none⟩
      (.choose call cacheId promptId request)).step texts (.insertRow call now refused)).calls
        call = some value) :
    promptId ≠ none ∧ db.selectTimeWindowLeaves request ≠ [] ∧
      value.leafIds = db.chosenLeafIds (db.selectTimeWindowLeaves request) := by
  cases hStart : startCall texts db cacheId promptId request with
  | none =>
    simp only [SynthesisState.step, hStart] at h
    cases h
  | some chosen =>
    obtain ⟨hPrompt, hRows, hChosen⟩ := startCall_some hStart
    refine ⟨hPrompt, hRows, Eq.trans ?_ hChosen⟩
    simp only [SynthesisState.step, hStart, SynthesisState.setCall, if_true] at h
    split at h
    · obtain ⟨phase, hCalls⟩ := insertRow_calls
        ⟨db, fun i => if i = call then some chosen else none⟩ call now refused chosen
      obtain rfl := Option.some.inj (hCalls.symm.trans h)
      rfl
    · have hCalls : (if call = call then some chosen else none) = some value := h
      rw [if_pos rfl] at hCalls
      obtain rfl := Option.some.inj hCalls
      rfl

/-- Without rows in the cache a call comes to the model. -/
theorem exists_building (texts : CacheTexts) (promptId : String)
    (hCache : db.synthesis.cache = []) (h : db.selectTimeWindowLeaves request ≠ []) :
    ∃ value, ((SynthesisState.step texts ⟨db, fun _ => none⟩
      (.choose 0 "" (some promptId) request)).step texts (.insertRow 0 0 false)).calls
        0 = some value ∧ value.phase = .building := by
  obtain ⟨row, rows, hRows⟩ := List.exists_cons_of_ne_nil h
  simp [SynthesisState.step, startCall, hRows, SynthesisState.setCall, SynthesisState.insertRow,
    SynthesisTables.insertCacheRowSingleFlight, hCache]

theorem neverFromNothing_iff
    :
    db.NeverFromNothing texts promptId request ↔
      promptId = none ∨ ¬ db.FirstTooLarge (db.selectTimeWindowLeaves request) := by
  constructor
  · intro h
    cases promptId with
    | none => exact Or.inl rfl
    | some promptId =>
      refine Or.inr fun hLarge => ?_
      have hRows : db.selectTimeWindowLeaves request ≠ [] := by
        rintro hNil
        obtain ⟨row, hRow, -⟩ := hLarge
        rw [hNil] at hRow
        cases hRow
      let start : OperatorDb := { db with synthesis := SynthesisTables.empty }
      obtain ⟨value, hValue, hPhase⟩ :=
        exists_building texts promptId (show start.synthesis.cache = [] from rfl) hRows
      obtain ⟨-, hText⟩ := h SynthesisTables.empty 0 "" 0 false value hValue hPhase
      exact hText ((buildSourceText_eq_empty_iff hRows).mpr hLarge)
  · intro h synthesis call cacheId now refused value start hValue _
    obtain ⟨hPrompt, hRows, hLeafIds⟩ := building_leafIds hValue
    have hSmall : ¬ start.FirstTooLarge (start.selectTimeWindowLeaves request) :=
      h.resolve_left hPrompt
    rw [hLeafIds, Ne, Ne, chosenLeafIds_eq_nil_iff hRows, buildSourceText_eq_empty_iff hRows]
    exact ⟨hSmall, hSmall⟩

/-- The text fits and is that of the longest list of leaves that does, exactly when the sizes
agree with the texts at the cap; and no call goes to the model without a text, exactly when
the first leaf is not too large or there is no prompt. -/
theorem synthesisesHonestly_iff (texts : CacheTexts) (db : OperatorDb) :
    (∀ rows, db.HonestSource rows ↔ db.CountsAgree rows) ∧
      ∀ promptId request, db.NeverFromNothing texts promptId request ↔
        promptId = none ∨ ¬ db.FirstTooLarge (db.selectTimeWindowLeaves request) :=
  ⟨honestSource_iff, fun _ _ => neverFromNothing_iff⟩

/-- One leaf of the given size, whose content is just as large. -/
def oneLeaf (tokenCount : Nat) : OperatorDb := ofDb { Db.empty with
  summaries := [⟨"leaf", 1, .leaf, 0, String.ofList (List.replicate (4 * tokenCount) 'a'),
    tokenCount, [], none, none, 0, 0, 1, "m", 0, none⟩] }

def wholeWindow : SynthesizeRequest := ⟨"key", 0, 1, [], none, "custom"⟩

theorem select_oneLeaf (tokenCount : Nat) :
    (oneLeaf tokenCount).selectTimeWindowLeaves wholeWindow = (oneLeaf tokenCount).summaries :=
  rfl

/-- The heading of a leaf is not counted. -/
theorem lt_estimateTokens_oneLeaf (tokenCount : Nat) :
    tokenCount < estimateTokens
      ((oneLeaf tokenCount).assembled ((oneLeaf tokenCount).summaries.take 1)) := by
  have hText : (oneLeaf tokenCount).assembled ((oneLeaf tokenCount).summaries.take 1) =
      "### Leaf " ++ "leaf" ++ " (" ++ "" ++ ")\n\n" ++
        String.ofList (List.replicate (4 * tokenCount) 'a') := rfl
  have hHeading : (("### Leaf " ++ "leaf" ++ " (" ++ "" ++ ")\n\n").toList.map
      fun c => codePointQuarterTokens c.toNat).sum = 18 := by decide +kernel
  rw [hText, estimateTokens, String.toList_append, List.map_append, List.sum_append_nat, hHeading,
    String.toList_ofList, List.map_replicate, List.sum_replicate_nat]
  rw [show codePointQuarterTokens 'a'.toNat = 1 from rfl]
  omega

/-- At the cap the text is too long, and above it the call goes on with no text. -/
theorem not_synthesisesHonestly :
    ¬ (oneLeaf 50000).HonestSource ((oneLeaf 50000).selectTimeWindowLeaves wholeWindow) ∧
      ¬ (oneLeaf 50001).NeverFromNothing ⟨fun _ => "", fun _ => ""⟩ (some "prompt")
        wholeWindow := by
  constructor
  · intro h
    have hAgree := countsAgree_of_honestSource h 1 (Nat.le_refl 1)
    have hFits := hAgree.mp (Nat.le_refl 50000)
    exact absurd (lt_estimateTokens_oneLeaf 50000) (Nat.not_lt.mpr hFits)
  · rw [neverFromNothing_iff, not_or, not_not, select_oneLeaf]
    exact ⟨Option.some_ne_none _, _, rfl, Nat.lt_succ_self 50000⟩

end OperatorDb
end LosslessHermes
