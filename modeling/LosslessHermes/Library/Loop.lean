import Mathlib.Order.Basic
import Mathlib.Tactic.Basic

/-!
# Loops that end by themselves

`loop step fuel` repeats a round until it reports how it ended, for at most `fuel`
rounds. `loop_invariant` carries a property through it, `loop_ends` gives the end
from a measure that every continuing round decreases, and by `loop_mono` more fuel
changes nothing once the loop has ended.
-/

namespace LosslessHermes

section Loop

variable {σ ε : Type} (step : σ → σ × Option ε)

def loop : Nat → σ → σ × Option ε
  | 0, s => (s, none)
  | fuel + 1, s =>
      match step s with
      | (s', some e) => (s', some e)
      | (s', none) => loop fuel s'

variable {step} {Inv : σ → Prop}

theorem loop_succ_of_some {s : σ} {e : ε} (h : (step s).2 = some e) (fuel : Nat) :
    loop step (fuel + 1) s = ((step s).1, some e) := by
  have hStep : step s = ((step s).1, some e) := Prod.ext rfl h
  rw [loop, hStep]

theorem loop_succ_of_none {s : σ} (h : (step s).2 = none) (fuel : Nat) :
    loop step (fuel + 1) s = loop step fuel (step s).1 := by
  have hStep : step s = ((step s).1, none) := Prod.ext rfl h
  rw [loop, hStep]

/-- What every round preserves holds whenever the loop is left. -/
theorem loop_invariant (hStep : ∀ s, Inv s → Inv (step s).1) {s : σ} (hInv : Inv s)
    (fuel : Nat) : Inv (loop step fuel s).1 := by
  induction fuel generalizing s with
  | zero => exact hInv
  | succ fuel ih =>
    cases hEnd : (step s).2 with
    | some e =>
      rw [loop_succ_of_some hEnd]
      exact hStep s hInv
    | none =>
      rw [loop_succ_of_none hEnd]
      exact ih (hStep s hInv)

/-- What the rounds establish for their answers holds of the answer of the loop. -/
theorem loop_answer {Q : ε → Prop} (hStep : ∀ s, Inv s → Inv (step s).1)
    (hEnd : ∀ s, Inv s → ∀ e, (step s).2 = some e → Q e) {s : σ} (hInv : Inv s) (fuel : Nat)
    {e : ε} (hAnswer : (loop step fuel s).2 = some e) : Q e := by
  induction fuel generalizing s with
  | zero => cases hAnswer
  | succ fuel ih =>
    cases hRound : (step s).2 with
    | some e' =>
      rw [loop_succ_of_some hRound] at hAnswer
      exact Option.some.inj hAnswer ▸ hEnd s hInv e' hRound
    | none =>
      rw [loop_succ_of_none hRound] at hAnswer
      exact ih (hStep s hInv) hAnswer

/-- What holds behind the first round, and is preserved, holds at the end. -/
theorem loop_invariant_of_first (hStep : ∀ s, Inv s → Inv (step s).1) {s : σ}
    (hFirst : Inv (step s).1) (fuel : Nat) : Inv (loop step (fuel + 1) s).1 := by
  cases hRound : (step s).2 with
  | some e =>
    rw [loop_succ_of_some hRound]
    exact hFirst
  | none =>
    rw [loop_succ_of_none hRound]
    exact loop_invariant hStep hFirst fuel

/-- A loop with a decreasing measure ends within its initial value. -/
theorem loop_ends (work : σ → Nat) (hStep : ∀ s, Inv s → Inv (step s).1)
    (hDecreases : ∀ s, Inv s → (step s).2 = none → work (step s).1 < work s) {s : σ}
    (hInv : Inv s) {fuel : Nat} (hFuel : work s < fuel) : (loop step fuel s).2.isSome := by
  induction fuel generalizing s with
  | zero => exact absurd hFuel (Nat.not_lt_zero _)
  | succ fuel ih =>
    cases hEnd : (step s).2 with
    | some e =>
      rw [loop_succ_of_some hEnd]
      rfl
    | none =>
      rw [loop_succ_of_none hEnd]
      have hLess := hDecreases s hInv hEnd
      exact ih (hStep s hInv) (by omega)

theorem loop_mono {s : σ} {fuel : Nat} (hEnd : (loop step fuel s).2.isSome) {more : Nat}
    (hMore : fuel ≤ more) : loop step more s = loop step fuel s := by
  induction fuel generalizing s more with
  | zero => cases hEnd
  | succ fuel ih =>
    obtain ⟨more, rfl⟩ : ∃ n, more = n + 1 := ⟨more - 1, by omega⟩
    cases hAnswer : (step s).2 with
    | some e => rw [loop_succ_of_some hAnswer, loop_succ_of_some hAnswer]
    | none =>
      rw [loop_succ_of_none hAnswer] at hEnd ⊢
      rw [loop_succ_of_none hAnswer]
      exact ih hEnd (Nat.le_of_succ_le_succ hMore)

/-- A count that a round raises by at most one is bounded by the fuel. -/
theorem loop_count (count : σ → Nat) (hStep : ∀ s, count (step s).1 ≤ count s + 1) (s : σ)
    (fuel : Nat) : count (loop step fuel s).1 ≤ count s + fuel := by
  induction fuel generalizing s with
  | zero => exact Nat.le_refl _
  | succ fuel ih =>
    have hOnce := hStep s
    cases hAnswer : (step s).2 with
    | some e =>
      rw [loop_succ_of_some hAnswer]
      show count (step s).1 ≤ count s + (fuel + 1)
      omega
    | none =>
      rw [loop_succ_of_none hAnswer]
      have hRest := ih (step s).1
      omega

/-! ## Conditions on the rounds -/

variable (step) in
/-- Every round is begun in a state that meets the condition. -/
def Rounds (cond : σ → Prop) : Nat → σ → Prop
  | 0, _ => True
  | fuel + 1, s => cond s ∧ ((step s).2 = none → Rounds cond fuel (step s).1)

instance Rounds.decidable (cond : σ → Prop) [DecidablePred cond] :
    (fuel : Nat) → (s : σ) → Decidable (Rounds step cond fuel s)
  | 0, _ => .isTrue trivial
  | fuel + 1, s =>
      match decEnd : (step s).2 with
      | none =>
          have := Rounds.decidable cond fuel (step s).1
          decidable_of_iff (cond s ∧ Rounds step cond fuel (step s).1)
            ⟨fun h => ⟨h.1, fun _ => h.2⟩, fun h => ⟨h.1, h.2 decEnd⟩⟩
      | some _ =>
          decidable_of_iff (cond s)
            ⟨fun h => ⟨h, fun hNone => nomatch decEnd.symm.trans hNone⟩, fun h => h.1⟩

variable {cond cond' : σ → Prop}

theorem Rounds.invariant (hStep : ∀ s, Inv s → cond s → Inv (step s).1) {s : σ} {fuel : Nat}
    (h : Rounds step cond fuel s) (hInv : Inv s) : Inv (loop step fuel s).1 := by
  induction fuel generalizing s with
  | zero => exact hInv
  | succ fuel ih =>
    obtain ⟨hFirst, hRest⟩ := h
    cases hEnd : (step s).2 with
    | some e =>
      rw [loop_succ_of_some hEnd]
      exact hStep s hInv hFirst
    | none =>
      rw [loop_succ_of_none hEnd]
      exact ih (hRest hEnd) (hStep s hInv hFirst)

/-- What the rounds establish where they end holds of the state and the answer of the loop. -/
theorem Rounds.post {Post : σ → ε → Prop}
    (hStep : ∀ s, Inv s → cond s → (step s).2 = none → Inv (step s).1)
    (hEnd : ∀ s, Inv s → cond s → ∀ e, (step s).2 = some e → Post (step s).1 e) {s : σ}
    {fuel : Nat} (h : Rounds step cond fuel s) (hInv : Inv s) {e : ε}
    (hAnswer : (loop step fuel s).2 = some e) : Post (loop step fuel s).1 e := by
  induction fuel generalizing s with
  | zero => cases hAnswer
  | succ fuel ih =>
    obtain ⟨hFirst, hRest⟩ := h
    cases hRound : (step s).2 with
    | some e' =>
      rw [loop_succ_of_some hRound] at hAnswer ⊢
      cases hAnswer
      exact hEnd s hInv hFirst e hRound
    | none =>
      rw [loop_succ_of_none hRound] at hAnswer ⊢
      exact ih (hRest hRound) (hStep s hInv hFirst hRound) hAnswer

end Loop

end LosslessHermes
