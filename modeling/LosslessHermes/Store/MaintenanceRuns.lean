import LosslessHermes.Library.Run
import LosslessHermes.Store.CompactionMaintenance

/-!
# Workers on the maintenance debt

Requesters and workers call the maintenance store in any order. A worker keeps each claim it
has won until it finishes the run once. `KeepsDebt` is what a step owes to the debts, and
`keepsDebt_iff` says which runs keep it: those in which no claim comes, and no run succeeds,
while debt has been requested since an unfinished run began.
-/

namespace LosslessHermes.Maintenance

/-! ## Claims and steps -/

/-- A claim that a worker has won. -/
structure Claim where
  conversationId : ConversationId
  /-- Whether debt was requested since. -/
  requested : Bool
  finished : Bool
  deriving DecidableEq, Repr

def Claim.noteRequest (conversationId : ConversationId) (claim : Claim) : Claim :=
  if claim.conversationId = conversationId then { claim with requested := true } else claim

structure State where
  store : CompactionMaintenanceStore
  claims : List Claim

def State.start (store : CompactionMaintenanceStore) : State := ⟨store, []⟩

inductive Action
  | request (now : Timestamp) (args : RequestDebtArgs)
  | markRunning (now : Timestamp) (conversationId : ConversationId)
  /-- The worker with the claim ends its run. -/
  | markFinished (now : Timestamp) (claim : Nat) (failureSummary : Option String)
  deriving DecidableEq, Repr

namespace State

def step (s : State) : Action → State
  | .request now args =>
      match s.store.requestProactiveCompactionDebt now args with
      | .ok store => ⟨store, s.claims.map (Claim.noteRequest args.conversationId)⟩
      | .error _ => s
  | .markRunning now conversationId =>
      let (store, claimed) := s.store.markProactiveCompactionRunning now conversationId
      ⟨store, if claimed then s.claims ++ [⟨conversationId, false, false⟩] else s.claims⟩
  | .markFinished now i failureSummary =>
      match s.claims[i]? with
      | some claim =>
          if claim.finished then s
          else
            ⟨s.store.markProactiveCompactionFinished now claim.conversationId failureSummary,
              s.claims.set i { claim with finished := true }⟩
      | none => s

/-- How many claims of a conversation are not finished. -/
def unfinished (s : State) (conversationId : ConversationId) : Nat :=
  s.claims.countP fun claim =>
    !claim.finished && decide (claim.conversationId = conversationId)

end State

/-! ## What is owed -/

/-- One claim of a conversation at a time, and no debt is lost at the end of a run. -/
structure KeepsDebt (s : State) (action : Action) : Prop where
  single : ∀ conversationId, (s.step action).unfinished conversationId ≤ 1
  requested : ∀ now i claim, action = .markFinished now i none → s.claims[i]? = some claim →
    claim.finished = false → claim.requested = true →
      (s.step action).store.pending claim.conversationId = true
  failed : ∀ now i claim summary, action = .markFinished now i (some summary) →
    s.claims[i]? = some claim → claim.finished = false →
      (s.step action).store.pending claim.conversationId = true

/-- A claim comes, and a run succeeds, only while no debt has been requested since the run
began. -/
def Quiet (s : State) : Action → Prop
  | .request _ _ => True
  | .markRunning _ conversationId => ∀ claim ∈ s.claims,
      claim.conversationId = conversationId → claim.finished = false → claim.requested = false
  | .markFinished _ i none => ∀ claim, s.claims[i]? = some claim →
      claim.finished = false → claim.requested = false
  | .markFinished _ _ (some _) => True

/-- An unfinished claim is the only one, and the flags of its row tell whether debt was
requested since. -/
structure Inv (s : State) : Prop where
  single : ∀ conversationId, s.unfinished conversationId ≤ 1
  flags : ∀ claim ∈ s.claims, claim.finished = false →
    s.store.pending claim.conversationId = true ∧
      s.store.running claim.conversationId = !claim.requested

theorem inv_start (store : CompactionMaintenanceStore) : Inv (.start store) :=
  ⟨fun _ => Nat.zero_le _, fun _ h => (List.not_mem_nil h).elim⟩

variable {s : State} {i : Nat} {claim : Claim} {conversationId : ConversationId}

theorem unfinished_pos (hMem : claim ∈ s.claims) (hUnfinished : claim.finished = false) :
    0 < s.unfinished claim.conversationId := by
  refine List.countP_pos_iff.mpr ⟨claim, hMem, ?_⟩
  rw [hUnfinished, decide_eq_true rfl]
  rfl

/-- The flags of a conversation are those of its row. -/
theorem flags_congr {store store' : CompactionMaintenanceStore}
    (h : store'.rows conversationId = store.rows conversationId) :
    store'.pending conversationId = store.pending conversationId ∧
      store'.running conversationId = store.running conversationId := by
  unfold CompactionMaintenanceStore.pending CompactionMaintenanceStore.running
  rw [h]
  exact ⟨rfl, rfl⟩

/-! ## What the steps keep -/

theorem Inv.request (h : Inv s) (now : Timestamp) (args : RequestDebtArgs) :
    Inv (s.step (.request now args)) := by
  unfold State.step
  dsimp only
  split
  · rename_i store hOk
    obtain ⟨hPending, hRunning, hOthers⟩ := CompactionMaintenanceStore.request_spec hOk
    constructor
    · intro conversationId
      have hSame : State.unfinished
          ⟨store, s.claims.map (Claim.noteRequest args.conversationId)⟩ conversationId =
            s.unfinished conversationId := by
        unfold State.unfinished
        rw [List.countP_map]
        refine List.countP_congr fun claim _ => ?_
        unfold Claim.noteRequest
        dsimp only [Function.comp_apply]
        split <;> rfl
      rw [hSame]
      exact h.single conversationId
    · intro noted hMem hUnfinished
      obtain ⟨claim, hClaim, rfl⟩ := List.mem_map.mp hMem
      unfold Claim.noteRequest at hUnfinished ⊢
      by_cases hHere : claim.conversationId = args.conversationId
      · rw [if_pos hHere]
        dsimp only
        rw [hHere]
        exact ⟨hPending, hRunning⟩
      · rw [if_neg hHere] at hUnfinished ⊢
        obtain ⟨hSamePending, hSameRunning⟩ := flags_congr (hOthers _ hHere)
        rw [hSamePending, hSameRunning]
        exact h.flags claim hClaim hUnfinished
  · exact h

/-- A claim that is won is the first of its conversation, unless one was disturbed. -/
theorem Inv.markRunning (h : Inv s) {now : Timestamp}
    (hQuiet : Quiet s (.markRunning now conversationId)) :
    Inv (s.step (.markRunning now conversationId)) := by
  unfold State.step
  dsimp only
  rcases s.store.markRunning_spec now conversationId with
    ⟨hWon, hIdle, hPending, hRunning, hOthers⟩ | hLost
  · rw [hWon, if_pos rfl]
    have hNone : ∀ claim ∈ s.claims, claim.finished = false →
        claim.conversationId ≠ conversationId := by
      intro claim hMem hUnfinished hHere
      have hMarked := (h.flags claim hMem hUnfinished).2
      rw [hQuiet claim hMem hHere hUnfinished, hHere, hIdle] at hMarked
      cases hMarked
    constructor
    · intro other
      have hSplit : State.unfinished ⟨(s.store.markProactiveCompactionRunning now conversationId).1,
          s.claims ++ [⟨conversationId, false, false⟩]⟩ other =
            s.unfinished other + if conversationId = other then 1 else 0 := by
        unfold State.unfinished
        rw [List.countP_append, List.countP_singleton]
        simp
      rw [hSplit]
      by_cases hHere : conversationId = other
      · have hZero : s.unfinished other = 0 := by
          refine List.countP_eq_zero.mpr fun claim hMem hCounted => ?_
          simp only [Bool.and_eq_true, Bool.not_eq_true', decide_eq_true_eq] at hCounted
          exact hNone claim hMem hCounted.1 (hCounted.2.trans hHere.symm)
        rw [hZero, if_pos hHere]
      · rw [if_neg hHere]
        exact h.single other
    · intro claim hMem hUnfinished
      rcases List.mem_append.mp hMem with hOld | hNew
      · obtain ⟨hSamePending, hSameRunning⟩ :=
          flags_congr (hOthers _ (hNone claim hOld hUnfinished))
        dsimp only
        rw [hSamePending, hSameRunning]
        exact h.flags claim hOld hUnfinished
      · rw [List.mem_singleton.mp hNew]
        exact ⟨hPending, hRunning⟩
  · rw [hLost]
    exact h

/-- A claim that is finished is no longer counted. -/
theorem unfinished_finish (hClaim : s.claims[i]? = some claim)
    (hUnfinished : claim.finished = false) (store : CompactionMaintenanceStore)
    (conversationId : ConversationId) :
    State.unfinished ⟨store, s.claims.set i { claim with finished := true }⟩ conversationId +
        (if claim.conversationId = conversationId then 1 else 0) =
      s.unfinished conversationId := by
  have hCount := Table.countP_set_add hClaim
    (fun claim => !claim.finished && decide (claim.conversationId = conversationId))
    { claim with finished := true }
  rw [hUnfinished] at hCount
  dsimp only at hCount
  simp only [Bool.not_false, Bool.true_and, Bool.not_true, Bool.false_and, decide_eq_true_eq,
    Bool.false_eq_true, if_false, Nat.add_zero] at hCount
  exact hCount

theorem Inv.markFinished (h : Inv s) (now : Timestamp) (i : Nat) (failureSummary : Option String) :
    Inv (s.step (.markFinished now i failureSummary)) := by
  unfold State.step
  dsimp only
  split
  · rename_i claim hClaim
    split
    · exact h
    · rename_i hUnfinished
      rw [Bool.not_eq_true] at hUnfinished
      obtain ⟨hRunning, hPending, hOthers⟩ :=
        s.store.markFinished_spec now claim.conversationId failureSummary
      have hCount := unfinished_finish hClaim hUnfinished
        (s.store.markProactiveCompactionFinished now claim.conversationId failureSummary)
      constructor
      · intro conversationId
        exact (Nat.le.intro (hCount conversationId)).trans (h.single conversationId)
      · intro other hMem hOther
        rcases List.mem_or_eq_of_mem_set hMem with hOld | rfl
        · have hElsewhere : other.conversationId ≠ claim.conversationId := by
            intro hHere
            have hPos := unfinished_pos hMem hOther
            have hSingle := h.single claim.conversationId
            rw [hHere] at hPos
            have hHereCount := hCount claim.conversationId
            rw [if_pos rfl] at hHereCount
            omega
          obtain ⟨hSamePending, hSameRunning⟩ := flags_congr (hOthers _ hElsewhere)
          dsimp only
          rw [hSamePending, hSameRunning]
          exact h.flags other hOld hOther
        · cases hOther
  · exact h

theorem Inv.step (h : Inv s) {action : Action} (hQuiet : Quiet s action) :
    Inv (s.step action) := by
  cases action with
  | request now args => exact h.request now args
  | markRunning now conversationId => exact h.markRunning hQuiet
  | markFinished now i failureSummary => exact h.markFinished now i failureSummary

/-! ## Which runs keep the debts -/

/-- The step that ends the run of an unfinished claim. -/
theorem step_markFinished (hClaim : s.claims[i]? = some claim)
    (hUnfinished : claim.finished = false) (now : Timestamp) (failureSummary : Option String) :
    (s.step (.markFinished now i failureSummary)).store =
      s.store.markProactiveCompactionFinished now claim.conversationId failureSummary := by
  unfold State.step
  dsimp only
  rw [hClaim]
  dsimp only
  rw [hUnfinished]
  rfl

/-- A claim beside an unfinished one is won if debt was requested since. -/
theorem Inv.unfinished_markRunning (h : Inv s) (hMem : claim ∈ s.claims)
    (hUnfinished : claim.finished = false) (hRequested : claim.requested = true)
    (now : Timestamp) :
    1 < (s.step (.markRunning now claim.conversationId)).unfinished claim.conversationId := by
  obtain ⟨hPending, hRunning⟩ := h.flags claim hMem hUnfinished
  rw [hRequested] at hRunning
  have hWon := CompactionMaintenanceStore.markRunning_won hPending hRunning now
  have hPos := unfinished_pos hMem hUnfinished
  unfold State.step State.unfinished
  unfold State.unfinished at hPos
  dsimp only
  rw [hWon, if_pos rfl, List.countP_append]
  have hNew : ([⟨claim.conversationId, false, false⟩] : List Claim).countP
      (fun other => !other.finished && decide (other.conversationId = claim.conversationId)) =
        1 := by
    rw [List.countP_singleton, decide_eq_true rfl]
    rfl
  omega

theorem Inv.quiet_of_keepsDebt (h : Inv s) {action : Action} (hKeeps : KeepsDebt s action) :
    Quiet s action := by
  cases action with
  | request now args => trivial
  | markRunning now conversationId =>
    intro claim hMem hHere hUnfinished
    subst hHere
    by_contra hRequested
    rw [Bool.not_eq_false] at hRequested
    have hTwo := h.unfinished_markRunning hMem hUnfinished hRequested now
    have hOne := hKeeps.single claim.conversationId
    omega
  | markFinished now i failureSummary =>
    cases failureSummary with
    | none =>
      intro claim hClaim hUnfinished
      by_contra hRequested
      rw [Bool.not_eq_false] at hRequested
      have hKept := hKeeps.requested now i claim rfl hClaim hUnfinished hRequested
      rw [step_markFinished hClaim hUnfinished,
        (s.store.markFinished_spec now claim.conversationId none).2.1] at hKept
      cases hKept
    | some summary => trivial

theorem Inv.keepsDebt_of_quiet (h : Inv s) {action : Action} (hQuiet : Quiet s action) :
    KeepsDebt s action := by
  refine ⟨(h.step hQuiet).single, ?_, ?_⟩
  · rintro now i claim rfl hClaim hUnfinished hRequested
    have hNot := hQuiet claim hClaim hUnfinished
    rw [hRequested] at hNot
    cases hNot
  · rintro now i claim summary rfl hClaim hUnfinished
    rw [step_markFinished hClaim hUnfinished,
      (s.store.markFinished_spec now claim.conversationId (some summary)).2.1]
    exact (h.flags claim (List.mem_of_getElem? hClaim) hUnfinished).1

/-- From any table on which no worker has a claim. -/
theorem keepsDebt_iff (store : CompactionMaintenanceStore) (actions : List Action) :
    Run.Along State.step KeepsDebt (.start store) actions ↔
      Run.Along State.step Quiet (.start store) actions :=
  Run.along_iff_of_invariant
    (fun _ _ h => ⟨h.quiet_of_keepsDebt, h.keepsDebt_of_quiet⟩)
    (fun _ _ h hKeeps => h.step (h.quiet_of_keepsDebt hKeeps)) (inv_start store)

/-- Two workers run at once, the first clears the debt that was requested meanwhile, and the
failure of the second leaves none. -/
theorem debt_lost :
    let request := Action.request 1 { conversationId := 7, reason := "threshold" }
    let start := State.start ⟨fun _ => true, fun _ => none⟩
    let actions := [request, .markRunning 2 7, request, .markRunning 3 7]
    let s := Run.final State.step start actions
    let s' := s.step (.markFinished 4 0 none)
    ¬Run.Along State.step KeepsDebt start actions ∧ s.unfinished 7 = 2 ∧
      s'.store.pending 7 = false ∧
      (s'.step (.markFinished 5 1 (some "timeout"))).store.pending 7 = false := by
  refine ⟨fun hAlong => ?_, by decide, by decide, by decide⟩
  exact absurd (hAlong.2.2.2.1.single 7) (by decide)

/-! ## Requests between the runs -/

/-- Debt is requested only of a conversation without a run. -/
def RequestsBetween (s : State) (action : Action) : Prop :=
  ∀ now args, action = .request now args → s.unfinished args.conversationId = 0

/-- No run has seen a request. -/
def Undisturbed (s : State) : Prop :=
  ∀ claim ∈ s.claims, claim.finished = false → claim.requested = false

theorem Undisturbed.quiet (h : Undisturbed s) (action : Action) : Quiet s action := by
  cases action with
  | request now args => trivial
  | markRunning now conversationId => exact fun claim hMem _ => h claim hMem
  | markFinished now i failureSummary =>
    cases failureSummary with
    | none => exact fun claim hClaim => h claim (List.mem_of_getElem? hClaim)
    | some summary => trivial

theorem Undisturbed.step (h : Undisturbed s) {action : Action}
    (hBetween : RequestsBetween s action) : Undisturbed (s.step action) := by
  unfold State.step
  cases action with
  | request now args =>
    dsimp only
    split
    · intro noted hMem hUnfinished
      obtain ⟨claim, hClaim, rfl⟩ := List.mem_map.mp hMem
      unfold Claim.noteRequest at hUnfinished ⊢
      by_cases hHere : claim.conversationId = args.conversationId
      · rw [if_pos hHere] at hUnfinished
        have hPos := unfinished_pos hClaim hUnfinished
        have hNone := hBetween now args rfl
        rw [hHere] at hPos
        omega
      · rw [if_neg hHere] at hUnfinished ⊢
        exact h claim hClaim hUnfinished
    · exact h
  | markRunning now conversationId =>
    intro claim hMem hUnfinished
    dsimp only at hMem
    split at hMem
    · rcases List.mem_append.mp hMem with hOld | hNew
      · exact h claim hOld hUnfinished
      · rw [List.mem_singleton.mp hNew]
    · exact h claim hMem hUnfinished
  | markFinished now i failureSummary =>
    dsimp only
    split
    · split
      · exact h
      · intro claim hMem hUnfinished
        rcases List.mem_or_eq_of_mem_set hMem with hOld | rfl
        · exact h claim hOld hUnfinished
        · cases hUnfinished
    · exact h

/-- Where debt is requested only between runs, none is lost. -/
theorem keepsDebt_of_requestsBetween (store : CompactionMaintenanceStore) {actions : List Action}
    (h : Run.Along State.step RequestsBetween (.start store) actions) :
    Run.Along State.step KeepsDebt (.start store) actions := by
  have hStart : Undisturbed (.start store) := fun _ hMem => (List.not_mem_nil hMem).elim
  exact h.of_invariant
    (fun _ action _ (hState : Inv _ ∧ Undisturbed _) hBetween =>
      ⟨hState.1.step (hState.2.quiet action), hState.2.step hBetween⟩)
    (fun _ action _ hState _ => hState.1.keepsDebt_of_quiet (hState.2.quiet action))
    ⟨inv_start store, hStart⟩

theorem keepsDebt_of_requestsBetween_once :
    Run.Along State.step KeepsDebt (.start ⟨fun _ => true, fun _ => none⟩)
      [.request 1 { conversationId := 7, reason := "threshold" }, .markRunning 2 7] :=
  keepsDebt_of_requestsBetween _
    ⟨fun _ _ _ => rfl, fun _ _ h => (nomatch h), trivial⟩

end LosslessHermes.Maintenance
