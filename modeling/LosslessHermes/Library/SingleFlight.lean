import Mathlib.Logic.Function.Basic
import Mathlib.Tactic.ByContra

/-!
# One task in flight for each key

A list of tasks, each at the place where it was created, and for each key a slot with the place of
its latest task. If a task is only created where the slot of its key holds no live one, all live
tasks are in their slots: `Tracked` is kept by what happens to tasks and slots, and by
`Tracked.countP_le_one` no key has two live tasks.
-/

namespace LosslessHermes.SingleFlight

variable {τ κ : Type} {key : τ → κ} {live : τ → Bool} {tasks : List τ} {slots : κ → Option Nat}

/-- Each live task is in the slot of its key. -/
def Tracked (key : τ → κ) (live : τ → Bool) (tasks : List τ) (slots : κ → Option Nat) : Prop :=
  ∀ i task, tasks[i]? = some task → live task = true → slots (key task) = some i

/-- The slot of the key holds a live task. -/
def occupied (live : τ → Bool) (tasks : List τ) (slots : κ → Option Nat) (k : κ) : Bool :=
  (slots k).any fun i => tasks[i]?.any live

theorem occupied_of_live (h : Tracked key live tasks slots) {i : Nat} {task : τ}
    (hTask : tasks[i]? = some task) (hLive : live task = true) :
    occupied live tasks slots (key task) = true := by
  unfold occupied
  rw [h i task hTask hLive, Option.any_some, hTask, Option.any_some]
  exact hLive

theorem Tracked.nil (slots : κ → Option Nat) : Tracked key live [] slots := by
  intro i task hTask
  cases hTask

/-- A task may go on or end. -/
theorem Tracked.modify (h : Tracked key live tasks slots) (i : Nat) {f : τ → τ}
    (hKey : ∀ task, key (f task) = key task) (hLive : ∀ task, live (f task) = true → live task) :
    Tracked key live (tasks.modify i f) slots := by
  intro j task hTask hIsLive
  rw [List.getElem?_modify] at hTask
  obtain ⟨before, hBefore, rfl⟩ := Option.map_eq_some_iff.mp hTask
  split at hIsLive
  · rename_i hSame
    rw [if_pos hSame, hKey]
    exact h j before hBefore (hLive before hIsLive)
  · rename_i hOther
    rw [if_neg hOther]
    exact h j before hBefore hIsLive

theorem Tracked.append [DecidableEq κ] (h : Tracked key live tasks slots) (task : τ)
    (hFree : occupied live tasks slots (key task) = false) :
    Tracked key live (tasks ++ [task]) (Function.update slots (key task) (some tasks.length)) := by
  intro i other hOther hLive
  by_cases hOld : i < tasks.length
  · rw [List.getElem?_append_left hOld] at hOther
    have hKey : key other ≠ key task := fun hSame => by
      have hOccupied := occupied_of_live h hOther hLive
      rw [hSame, hFree] at hOccupied
      cases hOccupied
    rw [Function.update_of_ne hKey]
    exact h i other hOther hLive
  · rw [List.getElem?_append_right (Nat.le_of_not_lt hOld)] at hOther
    rw [List.getElem?_singleton] at hOther
    split at hOther
    · obtain rfl := Option.some.inj hOther
      rw [Function.update_self]
      exact congrArg some (by omega)
    · cases hOther

/-- The slot of a task that is not live may be cleared. -/
theorem Tracked.clear [DecidableEq κ] (h : Tracked key live tasks slots) {k : κ} {i : Nat}
    (hSlot : slots k = some i) (hDone : tasks[i]?.any live = false) :
    Tracked key live tasks (Function.update slots k none) := by
  intro j task hTask hLive
  have hPlace := h j task hTask hLive
  have hKey : key task ≠ k := fun hSame => by
    rw [hSame, hSlot] at hPlace
    obtain rfl := Option.some.inj hPlace
    rw [hTask, Option.any_some, hLive] at hDone
    cases hDone
  rw [Function.update_of_ne hKey]
  exact hPlace

/-! ## Counting -/

theorem countP_eq_zero_of_places {p : τ → Bool}
    (h : ∀ (i : Nat) (task : τ), tasks[i]? = some task → p task = false) :
    tasks.countP p = 0 := by
  rw [List.countP_eq_zero]
  intro task hMem hp
  obtain ⟨i, hi⟩ := List.mem_iff_getElem?.mp hMem
  rw [h i task hi] at hp
  cases hp

/-- A test that is passed at one place at most is passed once at most. -/
theorem countP_le_one_of_places {p : τ → Bool}
    (h : ∀ (i j : Nat) (a b : τ), tasks[i]? = some a → tasks[j]? = some b → p a = true →
      p b = true → i = j) : tasks.countP p ≤ 1 := by
  induction tasks with
  | nil => exact Nat.zero_le 1
  | cons task tasks ih =>
    by_cases hp : p task = true
    · have hRest : tasks.countP p = 0 := by
        refine countP_eq_zero_of_places fun i other hOther => ?_
        by_contra hNot
        have hPlaces := h 0 (i + 1) task other rfl hOther hp (Bool.not_eq_false _ ▸ hNot)
        omega
      exact Nat.le_of_eq (by rw [List.countP_cons_of_pos hp, hRest])
    · rw [List.countP_cons_of_neg hp]
      refine ih fun i j a b hi hj ha hb => ?_
      exact Nat.succ.inj (h (i + 1) (j + 1) a b hi hj ha hb)

theorem Tracked.countP_le_one [DecidableEq κ] (h : Tracked key live tasks slots) (k : κ) :
    (tasks.countP fun task => key task = k && live task) ≤ 1 := by
  refine countP_le_one_of_places fun i j a b hi hj ha hb => ?_
  rw [Bool.and_eq_true, decide_eq_true_eq] at ha hb
  have hSame := (h i a hi ha.2).symm.trans ((congrArg slots (ha.1.trans hb.1.symm)).trans
    (h j b hj hb.2))
  exact Option.some.inj hSame

end LosslessHermes.SingleFlight
