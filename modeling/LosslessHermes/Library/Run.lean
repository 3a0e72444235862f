/-!
# Conditional runs

A system that takes one step for each action is run by folding over a list of
actions. `Along` says that every step of a run meets a condition in the state
in which it is taken; `Along.invariant` is the induction rule for what such
runs preserve.
-/

namespace LosslessHermes.Run

universe u v

variable {σ : Type u} {α : Type v} (step : σ → α → σ)

/-- The state at the end of a run. -/
def final (s : σ) (actions : List α) : σ :=
  actions.foldl step s

/-- Every action of the run meets the condition where it is taken. -/
def Along (cond : σ → α → Prop) : σ → List α → Prop
  | _, [] => True
  | s, a :: actions => cond s a ∧ Along cond (step s a) actions

variable {step} {cond : σ → α → Prop}

theorem final_append (s : σ) (actions actions' : List α) :
    final step s (actions ++ actions') = final step (final step s actions) actions' :=
  List.foldl_append

/-- Repetitions of one action lead from a state to another. -/
def Leads (step : σ → α → σ) (a : α) (s s' : σ) : Prop :=
  ∃ n, final step s (List.replicate n a) = s'

theorem Leads.refl (a : α) (s : σ) : Leads step a s s :=
  ⟨0, rfl⟩

variable {s : σ}

theorem Leads.head {a : α} {s' s'' : σ} (h : Leads step a s' s'') (hStep : step s a = s') :
    Leads step a s s'' := by
  obtain ⟨n, hn⟩ := h
  exact ⟨n + 1, by rw [← hn, ← hStep]; rfl⟩

theorem Leads.trans {a : α} {s' s'' : σ} (h : Leads step a s s') (h' : Leads step a s' s'') :
    Leads step a s s'' := by
  obtain ⟨n, hn⟩ := h
  obtain ⟨m, hm⟩ := h'
  exact ⟨n + m, by rw [← List.replicate_append_replicate, final_append, hn, hm]⟩

/-- What every step keeps, a run keeps. -/
theorem final_invariant {Inv : σ → Prop} {s : σ} {actions : List α}
    (hStep : ∀ s, ∀ a ∈ actions, Inv s → Inv (step s a)) (hInv : Inv s) :
    Inv (final step s actions) := by
  induction actions generalizing s with
  | nil => exact hInv
  | cons a actions ih =>
    exact ih (fun s b hb => hStep s b (List.mem_cons_of_mem _ hb))
      (hStep s a List.mem_cons_self hInv)

theorem Along.invariant {Inv : σ → Prop} {s : σ} {actions : List α}
    (hStep : ∀ s, ∀ a ∈ actions, Inv s → cond s a → Inv (step s a))
    (hAlong : Along step cond s actions) (hInv : Inv s) : Inv (final step s actions) := by
  induction actions generalizing s with
  | nil => exact hInv
  | cons a actions ih =>
    exact ih (fun s b hb => hStep s b (List.mem_cons_of_mem _ hb)) hAlong.2
      (hStep s a List.mem_cons_self hInv hAlong.1)

/-- What follows from the condition and an invariant also holds along the run. -/
theorem Along.of_invariant {Inv : σ → Prop} {cond' : σ → α → Prop} {actions : List α}
    (hStep : ∀ s, ∀ a ∈ actions, Inv s → cond s a → Inv (step s a))
    (hCond : ∀ s, ∀ a ∈ actions, Inv s → cond s a → cond' s a)
    (hAlong : Along step cond s actions) (hInv : Inv s) : Along step cond' s actions := by
  induction actions generalizing s with
  | nil => trivial
  | cons a actions ih =>
    refine ⟨hCond s a List.mem_cons_self hInv hAlong.1, ?_⟩
    exact ih (fun s b hb => hStep s b (List.mem_cons_of_mem _ hb))
      (fun s b hb => hCond s b (List.mem_cons_of_mem _ hb)) hAlong.2
      (hStep s a List.mem_cons_self hInv hAlong.1)

/-- Where an invariant holds, two conditions that agree and keep it are met by the
same runs. -/
theorem along_iff_of_invariant {Inv : σ → Prop} {cond' : σ → α → Prop}
    (hIff : ∀ s a, Inv s → (cond s a ↔ cond' s a))
    (hStep : ∀ s a, Inv s → cond s a → Inv (step s a)) {s : σ} {actions : List α} (hInv : Inv s) :
    Along step cond s actions ↔ Along step cond' s actions :=
  ⟨fun h => h.of_invariant (fun s a _ hs hc => hStep s a hs hc)
      (fun s a _ hs hc => (hIff s a hs).mp hc) hInv,
    fun h => h.of_invariant (fun s a _ hs hc => hStep s a hs ((hIff s a hs).mpr hc))
      (fun s a _ hs hc => (hIff s a hs).mpr hc) hInv⟩

/-- How many actions of the run are counted where they are taken. -/
def count (step : σ → α → σ) (counted : σ → α → Bool) : σ → List α → Nat
  | _, [] => 0
  | s, a :: actions => (if counted s a then 1 else 0) + count step counted (step s a) actions

/-- A quota that each counted action draws from and that nothing gives back. -/
theorem Along.count_le {counted : σ → α → Bool} {used : σ → Nat} {limit : Nat}
    (hCounted : ∀ s a, cond s a → counted s a = true →
      used s < limit ∧ used s + 1 ≤ used (step s a))
    (hKept : ∀ s a, cond s a → used s ≤ used (step s a)) {actions : List α}
    (h : Along step cond s actions) :
    count step counted s actions + used s ≤ max limit (used s) := by
  induction actions generalizing s with
  | nil =>
    rw [count, Nat.zero_add]
    exact Nat.le_max_right _ _
  | cons a actions ih =>
    have hLater := ih h.2
    have hGrows := hKept s a h.1
    rw [count]
    by_cases hDraws : counted s a = true
    · have hDrawn := hCounted s a h.1 hDraws
      rw [if_pos hDraws]
      omega
    · rw [if_neg hDraws]
      omega

instance decidableAlong [∀ s a, Decidable (cond s a)] :
    ∀ s actions, Decidable (Along step cond s actions)
  | _, [] => isTrue trivial
  | s, a :: actions =>
      have := decidableAlong (step s a) actions
      inferInstanceAs (Decidable (cond s a ∧ Along step cond (step s a) actions))

end LosslessHermes.Run
