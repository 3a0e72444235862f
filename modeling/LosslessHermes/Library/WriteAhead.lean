import Mathlib.Data.List.Induction
import Mathlib.Logic.Function.Basic

/-!
# A database file with a write-ahead log

Committed page writes go to a log beside the main file, and a checkpoint moves them into it.
What a reader sees is the main file with the log applied, if the log belongs to it: a main
file that is overwritten leaves a log behind that belongs to no file, and is not applied.

`content_overwrite` says what a reader sees then, and `content_eq_main_iff` when the main file
alone has it all.
-/

namespace LosslessHermes.WriteAhead

variable {κ π : Type} [DecidableEq κ]

structure Log (κ π : Type) where
  writes : List (κ × π)
  /-- The log was written for the main file beside it. -/
  belongs : Bool

structure Database (κ π : Type) where
  main : Option (κ → Option π)
  log : Option (Log κ π)

def applyWrites (writes : List (κ × π)) (pages : κ → Option π) : κ → Option π :=
  writes.foldl (fun pages write => Function.update pages write.1 (some write.2)) pages

/-- The last write of a page. -/
def lastWrite (writes : List (κ × π)) (k : κ) : Option π :=
  (writes.reverse.find? fun write => write.1 = k).map (·.2)

namespace Database

/-- The writes that a reader applies. -/
def pending (db : Database κ π) : List (κ × π) :=
  match db.log with
  | some log => if log.belongs then log.writes else []
  | none => []

def content (db : Database κ π) : Option (κ → Option π) :=
  db.main.map (applyWrites db.pending)

/-- A transaction appends to the log, or starts one. -/
def commit (db : Database κ π) (writes : List (κ × π)) : Database κ π :=
  { db with log := some ⟨db.pending ++ writes, true⟩ }

def checkpoint (db : Database κ π) : Database κ π :=
  { main := db.content, log := none }

/-- Another file is copied over the main file. -/
def overwrite (db : Database κ π) (main : κ → Option π) : Database κ π :=
  { main := some main, log := db.log.map fun log => { log with belongs := false } }

/-- Every page that the log writes has its last value in the main file already. -/
def Idle (db : Database κ π) : Prop :=
  ∀ pages, db.main = some pages → ∀ k value, lastWrite db.pending k = some value →
    pages k = some value

end Database

/-! ## What a reader sees -/

variable {db : Database κ π}

theorem applyWrites_append (first second : List (κ × π)) (pages : κ → Option π) :
    applyWrites (first ++ second) pages = applyWrites second (applyWrites first pages) :=
  List.foldl_append

theorem applyWrites_apply (writes : List (κ × π)) (pages : κ → Option π) (k : κ) :
    applyWrites writes pages k = (lastWrite writes k).or (pages k) := by
  induction writes using List.reverseRecOn with
  | nil => rfl
  | append_singleton writes write ih =>
    rw [applyWrites_append]
    show Function.update (applyWrites writes pages) write.1 (some write.2) k = _
    unfold lastWrite
    rw [List.reverse_append, List.reverse_singleton, List.singleton_append]
    by_cases hKey : write.1 = k
    · subst hKey
      simp
    · rw [Function.update_of_ne (Ne.symm hKey), ih]
      simp [lastWrite, hKey]

/-- The log that stays behind is not applied. -/
theorem content_overwrite (main : κ → Option π) : (db.overwrite main).content = some main := by
  have hPending : (db.overwrite main).pending = [] := by
    unfold Database.pending Database.overwrite
    cases db.log with
    | none => rfl
    | some log => rfl
  unfold Database.content
  rw [hPending]
  rfl

theorem content_eq_main_iff : db.content = db.main ↔ db.Idle := by
  unfold Database.content Database.Idle
  cases db.main with
  | none => exact iff_of_true rfl fun _ h => nomatch h
  | some pages =>
    rw [Option.map_some, Option.some.injEq]
    constructor
    · intro hSame pages' hPages k value hLast
      cases hPages
      have hPage := congrFun hSame k
      rw [applyWrites_apply, hLast] at hPage
      exact hPage.symm
    · intro hIdle
      funext k
      rw [applyWrites_apply]
      cases hLast : lastWrite db.pending k with
      | none => rfl
      | some value => exact (hIdle pages rfl k value hLast).symm

end LosslessHermes.WriteAhead
