import Mathlib.Logic.Relation
import LosslessHermes.Compaction.Expansion

/-!
# The subtree of a summary

`IsSource` is the edge relation of the summary DAG. `gather own` lists what a
summary and everything below it own, once for every path; `mem_gather` says that
this is what the summaries reachable along `IsSource` own.
-/

namespace LosslessHermes

open Collect
open Relation (TransGen ReflTransGen)

namespace Db

/-- `p` is a source summary of `s`. -/
def IsSource (db : Db) (p s : SummaryId) : Prop :=
  p ∈ (db.getSummaryParents s).map (·.summaryId)

/-- `t` is strictly below `s`. -/
def Below (db : Db) : SummaryId → SummaryId → Prop := TransGen db.IsSource

/-- `s`, or a summary below it, was made from `m`. -/
def Covers (db : Db) (s : SummaryId) (m : MessageId) : Prop :=
  ∃ t, ReflTransGen db.IsSource t s ∧ m ∈ db.getSummaryMessages t

section Gather

variable {α : Type}

def gather (db : Db) (own : SummaryId → List α) : Nat → SummaryId → Option (List α)
  | 0, _ => none
  | fuel + 1, s =>
      match db.getSummary s with
      | none => none
      | some _ =>
          (collect (gather db own fuel) ((db.getSummaryParents s).map (·.summaryId))).map
            (own s ++ ·)

variable {db db' : Db} {own own' : SummaryId → List α}

variable {fuel : Nat} {s : SummaryId} {items : List α}

theorem gather_eq_some :
    db.gather own (fuel + 1) s = some items ↔
      (db.getSummary s).isSome ∧ ∃ below,
        collect (db.gather own fuel) ((db.getSummaryParents s).map (·.summaryId)) = some below ∧
          items = own s ++ below := by
  rw [gather]
  cases db.getSummary s with
  | none => simp
  | some record =>
    simp only [Option.map_eq_some_iff, Option.isSome_some, true_and]
    exact ⟨fun ⟨below, hBelow, hItems⟩ => ⟨below, hBelow, hItems.symm⟩,
      fun ⟨below, hBelow, hItems⟩ => ⟨below, hBelow, hItems.symm⟩⟩

theorem gather_succ
    (h : db.gather own fuel s = some items) : db.gather own (fuel + 1) s = some items := by
  induction fuel generalizing s items with
  | zero => cases h
  | succ fuel ih =>
    obtain ⟨hFound, below, hBelow, hItems⟩ := gather_eq_some.mp h
    exact gather_eq_some.mpr ⟨hFound, below, collect_congr (fun p _ _ hp => ih hp) hBelow, hItems⟩

theorem gather_mono {fuel' : Nat} (h : db.gather own fuel s = some items) (hLe : fuel ≤ fuel') :
    db.gather own fuel' s = some items := by
  induction hLe with
  | refl => exact h
  | step _ ih => exact gather_succ ih

theorem Extends.gather (h : Extends db db')
    (hOwn : ∀ s record, db.getSummary s = some record → own' s = own s)
    (hItems : db.gather own fuel s = some items) :
    db'.gather own' fuel s = some items := by
  induction fuel generalizing s items with
  | zero => cases hItems
  | succ fuel ih =>
    obtain ⟨hFound, below, hBelow, hEq⟩ := gather_eq_some.mp hItems
    obtain ⟨record, hRecord⟩ := Option.isSome_iff_exists.mp hFound
    refine gather_eq_some.mpr ⟨by rw [h.summary s record hRecord]; rfl, below, ?_, ?_⟩
    · rw [h.parents s record hRecord]
      exact collect_congr (fun p _ _ hp => ih hp) hBelow
    · rw [hOwn s record hRecord]
      exact hEq

/-- What is gathered is what the summaries of the subtree own. -/
theorem mem_gather (h : db.gather own fuel s = some items) {a : α} :
    a ∈ items ↔ ∃ t, ReflTransGen db.IsSource t s ∧ a ∈ own t := by
  induction fuel generalizing s items with
  | zero => cases h
  | succ fuel ih =>
    obtain ⟨-, below, hBelow, rfl⟩ := gather_eq_some.mp h
    rw [List.mem_append, mem_collect hBelow]
    constructor
    · rintro (ha | ⟨p, hp, items, hItems, ha⟩)
      · exact ⟨s, .refl, ha⟩
      · obtain ⟨t, hPath, ha⟩ := (ih hItems).mp ha
        exact ⟨t, hPath.tail hp, ha⟩
    · rintro ⟨t, hPath, ha⟩
      rcases ReflTransGen.cases_tail hPath with rfl | ⟨p, hPath, hp⟩
      · exact Or.inl ha
      · obtain ⟨items, hItems⟩ := exists_of_mem_collect hBelow hp
        exact Or.inr ⟨p, hp, items, hItems, (ih hItems).mpr ⟨t, hPath, ha⟩⟩

/-! ## Behind a context item -/

/-- What a context item stands for: `raw` of a message, the subtree of a summary. -/
def gatherRef (db : Db) (raw : MessageId → List α) (own : SummaryId → List α) (fuel : Nat) :
    ContextItemRef → Option (List α)
  | .message m => some (raw m)
  | .summary s => db.gather own fuel s

/-- A new summary gathers what it owns and what its sources gather. -/
theorem gather_addSummary {record : SummaryRecord} {messageIds : List MessageId}
    {parentIds : List SummaryId} (hWell : SummariesWellFormed db)
    (hFresh : record.summaryId ∉ db.summaries.map (·.summaryId))
    (hVisible : record.suppressedAt = none)
    (hParents : ∀ p ∈ parentIds, ∃ old, db.getSummary p = some old)
    (hOwn : ∀ s old, db.getSummary s = some old → own' s = own s) {below : List α}
    (hBelow : collect (db.gather own fuel) parentIds = some below) :
    (db.addSummary record messageIds parentIds).gather own' (fuel + 1) record.summaryId =
      some (own' record.summaryId ++ below) := by
  refine gather_eq_some.mpr ⟨?_, below, ?_, rfl⟩
  · rw [getSummary_addSummary_self hFresh hVisible]
    rfl
  · rw [getSummaryParents_addSummary_self hWell hFresh hParents]
    exact collect_congr
      (fun p _ _ hp => (addSummary_extends hWell messageIds parentIds hFresh).gather hOwn hp) hBelow

end Gather

end Db
end LosslessHermes
