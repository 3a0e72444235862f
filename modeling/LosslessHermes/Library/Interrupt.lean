import LosslessHermes.Library.Loop

/-!
# Loops that an exception may leave

A round of such a loop makes calls, each of which may raise. `Interrupted` compares a
run that keeps the list of its calls with the run in which no call raises: either no call
raised, and both end alike, or the last call raised and its exception is the end of the
run. `interrupted_loop` carries this from the rounds to the loop, `interruptible` builds
the rounds that make at most one call and do nothing before it.
-/

namespace LosslessHermes

section Interrupt

variable {σ ε κ χ : Type} (raises : κ → Option χ) (Asks : σ → κ → Prop)

/-- A run with the list of its calls, and its end: that of the loop or an exception. -/
abbrev Asked (σ κ ε χ : Type) : Type := (σ × List κ) × Option (ε ⊕ χ)

/-- `Asks s k` is what is known of the state which the exception of the call `k` leaves. -/
inductive Interrupted (plain : σ × Option ε) (log : List κ) : Asked σ κ ε χ → Prop
  | quiet {asked : List κ} (hAsked : ∀ k ∈ asked, raises k = none) :
      Interrupted plain log ((plain.1, log ++ asked), plain.2.map .inl)
  | raised {s : σ} {asked : List κ} {k : κ} {e : χ} (hAsked : ∀ j ∈ asked, raises j = none)
      (hRaises : raises k = some e) (hAsks : Asks s k) :
      Interrupted plain log ((s, log ++ asked ++ [k]), some (.inr e))

variable {raises} {Asks}

theorem Interrupted.ended {s : σ} {e : ε} {log asked : List κ}
    (hAsked : ∀ k ∈ asked, raises k = none) :
    Interrupted raises Asks (s, some e) log ((s, log ++ asked), some (.inl e)) :=
  @Interrupted.quiet σ ε κ χ raises Asks (s, some e) log asked hAsked

variable {log : List κ}

theorem Interrupted.goesOn {s : σ} {asked : List κ} (hAsked : ∀ k ∈ asked, raises k = none) :
    Interrupted raises Asks (s, (none : Option ε)) log ((s, log ++ asked), none) :=
  @Interrupted.quiet σ ε κ χ raises Asks (s, none) log asked hAsked

variable {plain : σ × Option ε}

/-- The first call raised. -/
theorem Interrupted.atOnce {s : σ} {k : κ} {e : χ}
    (hRaises : raises k = some e) (hAsks : Asks s k) :
    Interrupted raises Asks plain log ((s, log ++ [k]), some (.inr e)) := by
  have hRaised := @Interrupted.raised σ ε κ χ raises Asks plain log s [] k e
    (fun j hj => nomatch hj) hRaises hAsks
  rw [List.append_nil] at hRaised
  exact hRaised

variable {run : Asked σ κ ε χ}

theorem Interrupted.shift {more : List κ} (hMore : ∀ k ∈ more, raises k = none)
    (h : Interrupted raises Asks plain (log ++ more) run) :
    Interrupted raises Asks plain log run := by
  have hAll : ∀ {asked : List κ}, (∀ k ∈ asked, raises k = none) →
      ∀ k ∈ more ++ asked, raises k = none := by
    intro asked hAsked k hk
    rcases List.mem_append.mp hk with hk | hk
    · exact hMore k hk
    · exact hAsked k hk
  cases h with
  | quiet hAsked =>
    rw [List.append_assoc]
    exact .quiet (hAll hAsked)
  | raised hAsked hRaises hAsks =>
    rw [List.append_assoc log]
    exact .raised (hAll hAsked) hRaises hAsks

/-- What the rounds do under exceptions, the loop does. -/
theorem interrupted_loop {step : σ → σ × Option ε} {step' : σ × List κ → Asked σ κ ε χ}
    (hStep : ∀ s log, Interrupted raises Asks (step s) log (step' (s, log))) (fuel : Nat) (s : σ)
    (log : List κ) :
    Interrupted raises Asks (loop step fuel s) log (loop step' fuel (s, log)) := by
  induction fuel generalizing s log with
  | zero =>
    have hSame : loop step' 0 (s, log) = ((s, log ++ []), none) := by
      rw [List.append_nil]
      rfl
    rw [hSame]
    exact .quiet fun k hk => nomatch hk
  | succ fuel ih =>
    have hRound := hStep s log
    generalize hRun : step' (s, log) = run at hRound
    cases hRound with
    | raised hAsked hRaises hAsks =>
      have hLeft := congrArg Prod.snd hRun
      rw [loop_succ_of_some hLeft fuel, hRun]
      exact .raised hAsked hRaises hAsks
    | quiet hAsked =>
      have hSecond := congrArg Prod.snd hRun
      cases hEnd : (step s).2 with
      | some e =>
        have hOver : (step' (s, log)).2 = some (.inl e) := hSecond.trans (by rw [hEnd]; rfl)
        rw [loop_succ_of_some hEnd, loop_succ_of_some hOver, hRun]
        exact .ended hAsked
      | none =>
        have hOn : (step' (s, log)).2 = none := hSecond.trans (by rw [hEnd]; rfl)
        rw [loop_succ_of_none hEnd, loop_succ_of_none hOn, hRun]
        exact (ih _ _).shift hAsked

variable (step : σ → σ × Option ε) (call : σ → Option κ)

/-- The round that makes the call `call s`, if any, and goes on as `step` unless it raises. -/
def interruptible (raises : κ → Option χ) (run : σ × List κ) : Asked σ κ ε χ :=
  match call run.1 with
  | none => (((step run.1).1, run.2), (step run.1).2.map .inl)
  | some k =>
      match raises k with
      | some e => ((run.1, run.2 ++ [k]), some (.inr e))
      | none => (((step run.1).1, run.2 ++ [k]), (step run.1).2.map .inl)

variable {step} {call}

theorem interrupted_interruptible (hAsks : ∀ s k, call s = some k → Asks s k) (s : σ)
    (log : List κ) :
    Interrupted raises Asks (step s) log (interruptible step call raises (s, log)) := by
  unfold interruptible
  dsimp only
  cases hCall : call s with
  | none =>
    have hQuiet := @Interrupted.quiet σ ε κ χ raises Asks (step s) log []
      (fun k hk => nomatch hk)
    rw [List.append_nil] at hQuiet
    exact hQuiet
  | some k =>
    dsimp only
    cases hRaises : raises k with
    | none => exact .quiet fun j hj => List.mem_singleton.mp hj ▸ hRaises
    | some e => exact .atOnce hRaises (hAsks s k hCall)

/-- Where the run without exceptions has ended, so has this one. -/
theorem Interrupted.isSome
    (h : Interrupted raises Asks plain log run) (hEnd : plain.2.isSome) : run.2.isSome := by
  cases h with
  | quiet =>
    show (plain.2.map _).isSome
    rw [Option.isSome_map]
    exact hEnd
  | raised => rfl

/-- A call that raised was the last one, and its exception is the end of the run. -/
theorem Interrupted.of_raises
    (h : Interrupted raises Asks plain [] run) {k : κ} (hk : k ∈ run.1.2) {e : χ}
    (hRaises : raises k = some e) :
    run.2 = some (.inr e) ∧ Asks run.1.1 k ∧
      ∃ earlier, run.1.2 = earlier ++ [k] ∧ ∀ j ∈ earlier, raises j = none := by
  cases h with
  | @quiet asked hAsked =>
    rw [hAsked k hk] at hRaises
    cases hRaises
  | @raised s asked last e' hAsked hLast hAsks =>
    rcases List.mem_append.mp hk with hEarlier | hIs
    · rw [hAsked k hEarlier] at hRaises
      cases hRaises
    · obtain rfl := List.mem_singleton.mp hIs
      rw [hRaises] at hLast
      cases hLast
      exact ⟨rfl, hAsks, asked, rfl, hAsked⟩

/-- An exception is the end of the run just when one of its calls raised. -/
theorem Interrupted.escaped_iff (h : Interrupted raises Asks plain [] run) :
    (∃ e, run.2 = some (.inr e)) ↔ ∃ k ∈ run.1.2, raises k ≠ none := by
  cases h with
  | @quiet asked hAsked =>
    refine iff_of_false ?_ ?_
    · rintro ⟨e, hEnd⟩
      obtain ⟨stop, -, hStop⟩ := Option.map_eq_some_iff.mp hEnd
      cases hStop
    · rintro ⟨k, hk, hNe⟩
      exact hNe (hAsked k hk)
  | @raised s asked k e hAsked hRaises hAsks =>
    refine iff_of_true ⟨e, rfl⟩ ⟨k, List.mem_append_right _ (List.mem_singleton_self k), ?_⟩
    rw [hRaises]
    exact Option.some_ne_none _

end Interrupt

end LosslessHermes
