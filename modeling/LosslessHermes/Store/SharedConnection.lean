import LosslessHermes.Library.Run
import LosslessHermes.Library.Savepoint
import LosslessHermes.Store.Records
import Mathlib.Data.Fintype.Basic
import Mathlib.Data.List.Perm.Basic
import Mathlib.Logic.Function.Basic

/-!
# Transactions of several sessions on the shared connection

The `with_transaction` calls of the two stores as sequences of statements on the
one connection of an engine, with a thread for each session. Whether a call opens
a transaction or a savepoint is decided by a flag of the connection, so what a
call finds may be the transaction of another session.

Calls do not undo each other in the runs in which the flag is only read while no other
thread is inside a call (`undisturbed_run`).
-/

namespace LosslessHermes.SharedConnection

open Savepoint

inductive StoreKind
  | conversation
  | summary
  deriving DecidableEq, Repr

/-- A call of `with_transaction`: its operation writes rows, a statement each, and
then returns or raises. -/
structure Call (ρ : Type) where
  store : StoreKind
  /-- The name of the savepoint, should the call open one. -/
  savepoint : String
  rows : List ρ
  raises : Bool
  deriving DecidableEq, Repr

inductive Cause
  | operation
  | statement (refusal : Refusal)
  deriving DecidableEq, Repr

inductive Outcome
  | returned
  | raised (cause : Cause)
  deriving DecidableEq, Repr

/-- Where a thread stands in its call; `nested` is what it read of the flag. -/
inductive Point
  | idle
  | opening (nested : Bool)
  | writing (nested : Bool) (written : Nat)
  | closing (nested : Bool)
  | undoing (nested : Bool) (cause : Cause)
  | releasing (cause : Cause)
  deriving DecidableEq, Repr

structure Thread (ρ : Type) where
  point : Point
  /-- The calls that are not finished, the current one first. -/
  pending : List (Call ρ)

structure State (τ ρ : Type) where
  connection : Connection (List ρ)
  thread : τ → Thread ρ
  /-- The calls that are finished, in order. -/
  finished : List (Call ρ × Outcome)

section Step

variable {τ ρ : Type} [DecidableEq τ]

def State.start (rows : List ρ) (program : τ → List (Call ρ)) : State τ ρ :=
  { connection := settled rows
    thread := fun t => { point := .idle, pending := program t }
    finished := [] }

def State.goto (state : State τ ρ) (t : τ) (point : Point) : State τ ρ :=
  { state with thread := Function.update state.thread t { state.thread t with point := point } }

/-- The current call of the thread is over. -/
def State.finish (state : State τ ρ) (t : τ) (call : Call ρ) (outcome : Outcome) : State τ ρ :=
  { state with
    thread := Function.update state.thread t
      { point := .idle, pending := (state.thread t).pending.tail }
    finished := state.finished ++ [(call, outcome)] }

def insertRow (row : ρ) : Statement (List ρ) :=
  .write fun rows => rows ++ [row]

/-- The next statement of a thread. In `ConversationStore.with_transaction` the
COMMIT and the RELEASE of a returning operation are behind the `try`, in
`SummaryStore.with_transaction` they are inside it. -/
def step (state : State τ ρ) (t : τ) : State τ ρ :=
  match (state.thread t).pending with
  | [] => state
  | call :: _ =>
      match (state.thread t).point with
      | .idle => state.goto t (.opening state.connection.inTransaction)
      | .opening nested =>
          match execute state.connection
              (if nested then .savepoint call.savepoint else .beginTransaction) with
          | .error refusal => state.finish t call (.raised (.statement refusal))
          | .ok connection =>
              { state with connection := connection }.goto t (.writing nested 0)
      | .writing nested written =>
          match call.rows[written]? with
          | some row =>
              match execute state.connection (insertRow row) with
              | .error refusal => state.goto t (.undoing nested (.statement refusal))
              | .ok connection =>
                  { state with connection := connection }.goto t (.writing nested (written + 1))
          | none =>
              if call.raises then state.goto t (.undoing nested .operation)
              else state.goto t (.closing nested)
      | .closing nested =>
          match execute state.connection
              (if nested then .release call.savepoint else .commit) with
          | .error refusal =>
              match call.store with
              | .conversation => state.finish t call (.raised (.statement refusal))
              | .summary => state.goto t (.undoing nested (.statement refusal))
          | .ok connection => { state with connection := connection }.finish t call .returned
      | .undoing nested cause =>
          match execute state.connection
              (if nested then .rollbackTo call.savepoint else .rollback) with
          | .error refusal => state.finish t call (.raised (.statement refusal))
          | .ok connection =>
              if nested then { state with connection := connection }.goto t (.releasing cause)
              else { state with connection := connection }.finish t call (.raised cause)
      | .releasing cause =>
          match execute state.connection (.release call.savepoint) with
          | .error refusal => state.finish t call (.raised (.statement refusal))
          | .ok connection =>
              { state with connection := connection }.finish t call (.raised cause)

/-- A thread reads the flag while no other thread is inside a call. -/
def ChecksAlone (state : State τ ρ) (t : τ) : Prop :=
  (state.thread t).point = .idle → (state.thread t).pending ≠ [] →
    ∀ t', t' ≠ t → (state.thread t').point = .idle

instance [Fintype τ] (state : State τ ρ) (t : τ) : Decidable (ChecksAlone state t) := by
  unfold ChecksAlone
  infer_instance

/-- The rows of the calls that returned. -/
def returnedRows (finished : List (Call ρ × Outcome)) : List ρ :=
  (finished.filter fun entry => entry.2 = .returned).flatMap fun entry => entry.1.rows

/-- What a call does if only its own operation counts. -/
def Call.outcome (call : Call ρ) : Outcome :=
  if call.raises then .raised .operation else .returned

/-- Calls do not undo each other: none raises for a reason of another one, and once
all threads are done the committed rows are those of the calls that returned. -/
structure Undisturbed (start : List ρ) (state : State τ ρ) : Prop where
  outcomes : ∀ entry ∈ state.finished, entry.2 = entry.1.outcome
  rows : (∀ t, (state.thread t).pending = []) →
    state.connection.transaction = none ∧
      state.connection.content.Perm (start ++ returnedRows state.finished)

end Step

/-! ## What one call at a time keeps -/

section Serial

variable {τ ρ : Type} [DecidableEq τ] {start : List ρ} {state : State τ ρ} {t : τ}

theorem State.goto_self (state : State τ ρ) (t : τ) (point : Point) :
    (state.goto t point).thread t = { state.thread t with point := point } :=
  Function.update_self ..

theorem State.goto_other (state : State τ ρ) {t t' : τ} (h : t' ≠ t) (point : Point) :
    (state.goto t point).thread t' = state.thread t' :=
  Function.update_of_ne h ..

theorem State.finish_self (state : State τ ρ) (t : τ) (call : Call ρ) (outcome : Outcome) :
    (state.finish t call outcome).thread t =
      { point := .idle, pending := (state.thread t).pending.tail } :=
  Function.update_self ..

theorem State.finish_other (state : State τ ρ) {t t' : τ} (h : t' ≠ t) (call : Call ρ)
    (outcome : Outcome) : (state.finish t call outcome).thread t' = state.thread t' :=
  Function.update_of_ne h ..

theorem returnedRows_append (finished : List (Call ρ × Outcome)) (call : Call ρ) :
    returnedRows (finished ++ [(call, call.outcome)]) =
      returnedRows finished ++ if call.raises then [] else call.rows := by
  cases hRaises : call.raises <;> simp [returnedRows, Call.outcome, hRaises]

/-- How far the only call has come: it has a transaction of its own, which holds
the rows written so far. -/
def Inside (base : List ρ) (call : Call ρ) (connection : Connection (List ρ)) : Point → Prop
  | .opening nested => nested = false ∧ connection = settled base
  | .writing nested written =>
      nested = false ∧ written ≤ call.rows.length ∧
        connection = opened base (base ++ call.rows.take written)
  | .closing nested =>
      nested = false ∧ call.raises = false ∧ connection = opened base (base ++ call.rows)
  | .undoing nested cause =>
      nested = false ∧ call.raises = true ∧ cause = .operation ∧
        connection = opened base (base ++ call.rows)
  | _ => False

structure Serial (start : List ρ) (state : State τ ρ) : Prop where
  outcomes : ∀ entry ∈ state.finished, entry.2 = entry.1.outcome
  /-- At most one thread is inside a call. -/
  one : ∀ t t', (state.thread t).point ≠ .idle → (state.thread t').point ≠ .idle → t = t'
  settled : (∀ t, (state.thread t).point = .idle) →
    state.connection = Savepoint.settled (start ++ returnedRows state.finished)
  inside : ∀ t, (state.thread t).point ≠ .idle → ∃ call rest,
    (state.thread t).pending = call :: rest ∧
      Inside (start ++ returnedRows state.finished) call state.connection (state.thread t).point

omit [DecidableEq τ] in
theorem serial_start (start : List ρ) (program : τ → List (Call ρ)) :
    Serial start (State.start start program) where
  outcomes := fun _ h => by cases h
  one := fun _ _ h => absurd rfl h
  settled := fun _ => by simp [State.start, returnedRows]
  inside := fun _ h => absurd rfl h

/-- The step of a call that goes on. -/
theorem Serial.goto (h : Serial start state)
    (hAlone : ∀ t', t' ≠ t → (state.thread t').point = .idle)
    {call : Call ρ} {rest : List (Call ρ)} (hPending : (state.thread t).pending = call :: rest)
    {connection : Connection (List ρ)} {point : Point}
    (hInside : Inside (start ++ returnedRows state.finished) call connection point) :
    Serial start ({ state with connection := connection }.goto t point) := by
  have hOnly : ∀ t', (({ state with connection := connection }.goto t point).thread t').point ≠
      .idle → t' = t := by
    intro t' hBusy
    by_contra ht
    rw [State.goto_other _ ht] at hBusy
    exact hBusy (hAlone t' ht)
  refine ⟨h.outcomes, fun t₁ t₂ h₁ h₂ => (hOnly t₁ h₁).trans (hOnly t₂ h₂).symm, ?_, ?_⟩
  · intro hIdle
    have hPoint := hIdle t
    rw [State.goto_self] at hPoint
    dsimp only at hPoint
    rw [hPoint] at hInside
    exact absurd hInside id
  · intro t' hBusy
    rw [hOnly t' hBusy, State.goto_self]
    exact ⟨call, rest, hPending, hInside⟩

/-- The step that ends a call as its operation decides. -/
theorem Serial.finish (h : Serial start state)
    (hAlone : ∀ t', t' ≠ t → (state.thread t').point = .idle) (call : Call ρ)
    {connection : Connection (List ρ)}
    (hConnection : connection = Savepoint.settled
      (start ++ returnedRows (state.finished ++ [(call, call.outcome)]))) :
    Serial start ({ state with connection := connection }.finish t call call.outcome) := by
  have hIdle : ∀ t', (({ state with connection := connection }.finish t call
      call.outcome).thread t').point = .idle := by
    intro t'
    by_cases ht : t' = t
    · rw [ht, State.finish_self]
    · rw [State.finish_other _ ht]
      exact hAlone t' ht
  refine ⟨?_, fun t₁ _ h₁ => absurd (hIdle t₁) h₁, fun _ => hConnection,
    fun t' hBusy => absurd (hIdle t') hBusy⟩
  intro entry hEntry
  rcases List.mem_append.mp hEntry with hEntry | hEntry
  · exact h.outcomes entry hEntry
  · rw [List.mem_singleton.mp hEntry]

theorem serial_step (h : Serial start state) (hCondition : ChecksAlone state t) :
    Serial start (step state t) := by
  cases hPending : (state.thread t).pending with
  | nil =>
    simp only [step, hPending]
    exact h
  | cons call rest =>
    by_cases hIdle : (state.thread t).point = .idle
    · have hAlone := hCondition hIdle (by rw [hPending]; exact List.cons_ne_nil _ _)
      have hSettled := h.settled fun t' => by
        by_cases ht : t' = t
        · rw [ht]
          exact hIdle
        · exact hAlone t' ht
      simp only [step, hPending, hIdle]
      refine h.goto hAlone hPending ⟨?_, hSettled⟩
      rw [hSettled]
      rfl
    · have hAlone : ∀ t', t' ≠ t → (state.thread t').point = .idle := by
        intro t' ht
        by_contra hBusy
        exact ht (h.one t' t hBusy hIdle)
      obtain ⟨call', rest', hSame, hInside⟩ := h.inside t hIdle
      rw [hPending] at hSame
      obtain ⟨rfl, rfl⟩ := List.cons.inj hSame
      cases hPoint : (state.thread t).point with
      | idle => exact absurd hPoint hIdle
      | opening nested =>
        rw [hPoint] at hInside
        obtain ⟨rfl, hConnection⟩ := hInside
        simp only [step, hPending, hPoint, hConnection, Bool.false_eq_true, if_false,
          execute_begin]
        exact h.goto hAlone hPending ⟨rfl, Nat.zero_le _, by simp⟩
      | writing nested written =>
        rw [hPoint] at hInside
        obtain ⟨rfl, hBound, hConnection⟩ := hInside
        cases hRow : call.rows[written]? with
        | some row =>
          obtain ⟨hLt, rfl⟩ := List.getElem?_eq_some_iff.mp hRow
          simp only [step, hPending, hPoint, hRow, hConnection, insertRow, execute_write]
          refine h.goto hAlone hPending ⟨rfl, hLt, ?_⟩
          rw [List.append_assoc, List.take_concat_get' _ _ hLt]
        | none =>
          have hAll : call.rows.take written = call.rows :=
            List.take_of_length_le (List.getElem?_eq_none_iff.mp hRow)
          rw [hAll] at hConnection
          simp only [step, hPending, hPoint, hRow]
          cases hRaises : call.raises with
          | true => exact h.goto hAlone hPending ⟨rfl, hRaises, rfl, hConnection⟩
          | false => exact h.goto hAlone hPending ⟨rfl, hRaises, hConnection⟩
      | closing nested =>
        rw [hPoint] at hInside
        obtain ⟨rfl, hRaises, hConnection⟩ := hInside
        have hOutcome : call.outcome = .returned := by
          simp [Call.outcome, hRaises]
        simp only [step, hPending, hPoint, hConnection, Bool.false_eq_true, if_false,
          execute_commit]
        rw [← hOutcome]
        refine h.finish hAlone call ?_
        rw [returnedRows_append, hRaises, ← List.append_assoc]
        rfl
      | undoing nested cause =>
        rw [hPoint] at hInside
        obtain ⟨rfl, hRaises, rfl, hConnection⟩ := hInside
        have hOutcome : call.outcome = .raised .operation := by
          simp [Call.outcome, hRaises]
        simp only [step, hPending, hPoint, hConnection, Bool.false_eq_true, if_false,
          execute_rollback]
        rw [← hOutcome]
        refine h.finish hAlone call ?_
        rw [returnedRows_append, hRaises, if_pos rfl, List.append_nil]
      | releasing cause =>
        rw [hPoint] at hInside
        exact absurd hInside id

/-- **Calls of different sessions do not undo each other in every run in which the
flag of the connection is only read while no other thread is inside a call.** -/
theorem undisturbed_run (start : List ρ) (program : τ → List (Call ρ)) {schedule : List τ}
    (hAlong : Run.Along step ChecksAlone (State.start start program) schedule) :
    Undisturbed start (Run.final step (State.start start program) schedule) := by
  have hFinal := hAlong.invariant (fun _ _ _ h hAlone => serial_step h hAlone)
    (serial_start start program)
  refine ⟨hFinal.outcomes, fun hDone => ?_⟩
  have hIdle : ∀ t, ((Run.final step (State.start start program) schedule).thread t).point =
      .idle := by
    intro t
    by_contra hBusy
    obtain ⟨call, rest, hPending, -⟩ := hFinal.inside t hBusy
    rw [hDone t] at hPending
    cases hPending
  rw [hFinal.settled hIdle]
  exact ⟨rfl, List.Perm.refl _⟩

/-! ## A call that nobody interferes with -/

/-- The operation of a call on the rows it finds. -/
def Call.operation (call : Call ρ) (rows : List ρ) : Except Cause (List ρ × Unit) :=
  if call.raises then .error .operation else .ok (rows ++ call.rows, ())

/-- The writes of an operation, one after the other. -/
theorem leads_writing {call : Call ρ} {rest : List (Call ρ)}
    (hPending : (state.thread t).pending = call :: rest) (before content : List ρ) (written : Nat) :
    Run.Leads step t ({ state with connection := opened before content }.goto t
        (.writing false written))
      ({ state with connection := opened before (content ++ call.rows.drop written) }.goto t
        (if call.raises then .undoing false .operation else .closing false)) := by
  generalize hCount : call.rows.length - written = count
  induction count generalizing content written with
  | zero =>
    have hEnd : call.rows[written]? = none := List.getElem?_eq_none_iff.mpr (by omega)
    rw [List.drop_of_length_le (by omega), List.append_nil]
    refine (Run.Leads.refl _ _).head ?_
    simp only [step, State.goto_self, hPending, hEnd]
    cases call.raises <;> simp [State.goto]
  | succ count ih =>
    have hLt : written < call.rows.length := by omega
    have hRest := ih (content ++ [call.rows[written]]) (written + 1) (by omega)
    rw [List.append_assoc, List.singleton_append, ← List.drop_eq_getElem_cons hLt] at hRest
    refine hRest.head ?_
    simp only [step, State.goto_self, hPending, List.getElem?_eq_getElem hLt]
    simp [State.goto, insertRow, execute_write]

/-- **A call that no other thread interferes with is `withTransaction`.** -/
theorem call_alone {call : Call ρ} {rest : List (Call ρ)} {rows : List ρ}
    (hConnection : state.connection = settled rows) (hIdle : (state.thread t).point = .idle)
    (hPending : (state.thread t).pending = call :: rest) :
    ∃ n, Run.final step state (List.replicate n t) =
      { state with connection := settled (withTransaction rows call.operation).1 }.finish t call
        call.outcome := by
  have hCheck : step state t = state.goto t (.opening false) := by
    simp only [step, hPending, hIdle, hConnection]
    rfl
  have hBegin : step (state.goto t (.opening false)) t =
      { state with connection := opened rows rows }.goto t (.writing false 0) := by
    have hSettled : (state.goto t (.opening false)).connection = settled rows := hConnection
    simp only [step, State.goto_self, hPending, hSettled, Bool.false_eq_true, if_false,
      execute_begin]
    simp [State.goto]
  have hWrite := @leads_writing _ _ _ state t call rest hPending rows rows 0
  rw [List.drop_zero] at hWrite
  suffices hEnd : Run.Leads step t
      ({ state with connection := opened rows (rows ++ call.rows) }.goto t
        (if call.raises then .undoing false .operation else .closing false))
      ({ state with connection := settled (withTransaction rows call.operation).1 }.finish t call
        call.outcome) from ((hWrite.trans hEnd).head hBegin).head hCheck
  refine (Run.Leads.refl _ _).head ?_
  cases hRaises : call.raises with
  | true =>
    have hAborts : withTransaction rows call.operation = (rows, .error .operation) :=
      withTransaction_error (by simp [Call.operation, hRaises])
    rw [hAborts, if_pos rfl]
    simp only [step, State.goto_self, hPending]
    simp [State.goto, State.finish, Call.outcome, hRaises, execute_rollback]
  | false =>
    have hCommits : withTransaction rows call.operation = (rows ++ call.rows, .ok ()) :=
      withTransaction_ok (by simp [Call.operation, hRaises])
    rw [hCommits, if_neg (by simp)]
    simp only [step, State.goto_self, hPending]
    simp [State.goto, State.finish, Call.outcome, hRaises, execute_commit]

end Serial

/-! ## Two sessions -/

/-- The calls of two sessions. -/
def twoSessions (first second : List (Call String)) : Fin 2 → List (Call String)
  | 0 => first
  | 1 => second

def ingestCall (row : String) (raises : Bool) : Call String :=
  { store := .conversation, savepoint := row, rows := [row], raises := raises }

theorem call_alone_ingestCall :
    ∃ n, Run.final step (State.start ["z"] (twoSessions [ingestCall "a" true] []))
      (List.replicate n 0) = (State.start ["z"] (twoSessions [ingestCall "a" true] [])).finish 0
        (ingestCall "a" true) (.raised .operation) :=
  @call_alone _ _ _ (State.start ["z"] (twoSessions [ingestCall "a" true] [])) 0
    (ingestCall "a" true) [] ["z"] rfl rfl rfl

theorem undisturbed_run_turns :
    Undisturbed ["z"] (Run.final step
      (State.start ["z"] (twoSessions [ingestCall "a" true, ingestCall "b" false]
        [ingestCall "c" false]))
      (List.replicate 5 0 ++ List.replicate 5 1 ++ List.replicate 5 0)) :=
  undisturbed_run ["z"] _ (by decide)

/-- The failing call of one session takes the row of another session with it, whose
call has returned. -/
theorem rollback_erases_returned :
    ¬ Undisturbed [] (Run.final step
      (State.start [] (twoSessions [ingestCall "a" true] [ingestCall "b" false]))
      ([0, 0, 0] ++ List.replicate 5 1 ++ [0, 0])) := by
  intro h
  have hRows := (h.rows (by decide)).2
  exact absurd hRows (by decide)

end LosslessHermes.SharedConnection
