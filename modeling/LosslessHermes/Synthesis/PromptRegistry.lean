import LosslessHermes.Library.Table
import LosslessHermes.Synthesis.Dispatch

/-!
# The registry of the prompts

The rows of `lcm_prompt_registry`, versioned for each triple of a memory type, a tier and a
pass. A registration makes its row the active one of its triple
(`getActivePrompt_registerPrompt`) and leaves the active prompts of the other triples
(`getActivePrompt_registerPrompt_of_ne`).
-/

namespace LosslessHermes.PromptRegistry

open Dispatch (MemoryType PassKind PromptRecord)

structure PromptRow extends PromptRecord where
  memoryType : MemoryType
  tierLabel : Option String
  passKind : PassKind
  version : Nat
  active : Bool

structure RegisterPromptOptions where
  memoryType : MemoryType
  passKind : PassKind
  template : String
  tierLabel : Option String
  modelRecommendation : Option String
  promptIdOverride : Option String

def normalizedTier (tierLabel : Option String) : Option String :=
  if tierLabel = some "" then none else tierLabel

/-- The row is of the triple, whose tier is normalized. -/
def PromptRow.isOf (row : PromptRow) (memoryType : MemoryType) (tierLabel : Option String)
    (passKind : PassKind) : Bool :=
  row.memoryType = memoryType && row.tierLabel = tierLabel && row.passKind = passKind

def getActivePrompt (rows : List PromptRow) (memoryType : MemoryType) (tierLabel : Option String)
    (passKind : PassKind) : Option PromptRow :=
  (Table.select
    (fun row : PromptRow =>
      row.isOf memoryType (normalizedTier tierLabel) passKind && row.active)
    (fun row => OrderDual.toDual row.version) rows).head?

def maxVersion (rows : List PromptRow) (opts : RegisterPromptOptions) : Nat :=
  ((rows.filter fun row =>
    row.isOf opts.memoryType (normalizedTier opts.tierLabel) opts.passKind).map
      (·.version)).foldl max 0

def PromptRow.deactivated (row : PromptRow) (opts : RegisterPromptOptions) : PromptRow :=
  if row.isOf opts.memoryType (normalizedTier opts.tierLabel) opts.passKind then
    { row with active := false }
  else row

def registeredRow (rows : List PromptRow) (opts : RegisterPromptOptions)
    (generatedId : String) : PromptRow where
  promptId := opts.promptIdOverride.getD generatedId
  template := opts.template
  modelRecommendation := opts.modelRecommendation
  memoryType := opts.memoryType
  tierLabel := normalizedTier opts.tierLabel
  passKind := opts.passKind
  version := maxVersion rows opts + 1
  active := true

/-- The transaction of a registration; an id that is taken rolls it back. -/
def registerPrompt (rows : List PromptRow) (opts : RegisterPromptOptions)
    (generatedId : String) : List PromptRow × Except String String :=
  let row := registeredRow rows opts generatedId
  if rows.any fun old => old.promptId = row.promptId then (rows, .error "collision")
  else (rows.map (·.deactivated opts) ++ [row], .ok row.promptId)

/-! ## The active prompt after a registration -/

variable {rows : List PromptRow} {opts : RegisterPromptOptions} {generatedId : String}

theorem registerPrompt_ok {promptId : String}
    (h : (registerPrompt rows opts generatedId).2 = .ok promptId) :
    (registerPrompt rows opts generatedId).1 =
        rows.map (·.deactivated opts) ++ [registeredRow rows opts generatedId] ∧
      promptId = (registeredRow rows opts generatedId).promptId := by
  unfold registerPrompt at h ⊢
  dsimp only at h ⊢
  split at h
  · cases h
  · rename_i hFree
    rw [if_neg hFree]
    exact ⟨rfl, (Except.ok.inj h).symm⟩

theorem isOf_registeredRow : (registeredRow rows opts generatedId).isOf opts.memoryType
    (normalizedTier opts.tierLabel) opts.passKind = true := by
  simp [PromptRow.isOf, registeredRow]

/-- A row of the triple is not active once it is deactivated. -/
theorem not_active_deactivated (row : PromptRow) :
    ((row.deactivated opts).isOf opts.memoryType (normalizedTier opts.tierLabel) opts.passKind &&
      (row.deactivated opts).active) = false := by
  unfold PromptRow.deactivated
  split
  · exact Bool.and_false _
  · rename_i hOther
    rw [Bool.not_eq_true] at hOther
    rw [hOther, Bool.false_and]

theorem getActivePrompt_registerPrompt {promptId : String}
    (h : (registerPrompt rows opts generatedId).2 = .ok promptId) :
    getActivePrompt (registerPrompt rows opts generatedId).1 opts.memoryType opts.tierLabel
      opts.passKind = some (registeredRow rows opts generatedId) := by
  rw [(registerPrompt_ok h).1, getActivePrompt, Table.select_append_of_new]
  · rfl
  · intro row hRow
    obtain ⟨old, -, rfl⟩ := List.mem_map.mp hRow
    exact not_active_deactivated old
  · intro row hRow
    rw [List.mem_singleton.mp hRow, isOf_registeredRow]
    rfl
  · exact List.pairwise_singleton _ _

theorem getActivePrompt_registerPrompt_first :
    let opts : RegisterPromptOptions := ⟨.episodicLeaf, .single, "t", some "", none, none⟩
    getActivePrompt (registerPrompt [] opts "p").1 .episodicLeaf none .single =
      some (registeredRow [] opts "p") :=
  @getActivePrompt_registerPrompt [] ⟨.episodicLeaf, .single, "t", some "", none, none⟩ "p" "p" rfl

/-- The active prompt of another triple stays the same. -/
theorem getActivePrompt_registerPrompt_of_ne {memoryType : MemoryType}
    {tierLabel : Option String} {passKind : PassKind}
    (hNe : (memoryType, normalizedTier tierLabel, passKind) ≠
      (opts.memoryType, normalizedTier opts.tierLabel, opts.passKind)) :
    getActivePrompt (registerPrompt rows opts generatedId).1 memoryType tierLabel passKind =
      getActivePrompt rows memoryType tierLabel passKind := by
  have hKeeps : ∀ row : PromptRow, row.isOf memoryType (normalizedTier tierLabel) passKind = true →
      row.deactivated opts = row := by
    intro row hOf
    refine if_neg fun hSame => hNe ?_
    simp only [PromptRow.isOf, Bool.and_eq_true, decide_eq_true_eq] at hOf hSame
    rw [← hOf.1.1, ← hOf.1.2, ← hOf.2, hSame.1.1, hSame.1.2, hSame.2]
  unfold registerPrompt
  dsimp only
  split
  · rfl
  · rw [getActivePrompt, getActivePrompt, Table.select_append_of_not, Table.select_map,
      List.head?_map]
    · refine (Option.map_congr fun row hHead => ?_).trans Option.map_id_apply
      have hRow := (Table.mem_select.mp (List.mem_of_head? hHead)).2
      exact hKeeps row (Bool.and_eq_true_iff.mp hRow).1
    · intro row
      by_cases hOf : row.isOf memoryType (normalizedTier tierLabel) passKind = true
      · rw [hKeeps row hOf]
      · have hId : (row.deactivated opts).isOf memoryType (normalizedTier tierLabel) passKind =
            row.isOf memoryType (normalizedTier tierLabel) passKind := by
          unfold PromptRow.deactivated
          split <;> rfl
        rw [Bool.not_eq_true] at hOf
        rw [hId, hOf, Bool.false_and, Bool.false_and]
    · intro row
      unfold PromptRow.deactivated
      split <;> rfl
    · intro row hRow
      rw [List.mem_singleton.mp hRow]
      by_contra hOf
      rw [Bool.not_eq_false, Bool.and_eq_true, PromptRow.isOf, Bool.and_eq_true,
        Bool.and_eq_true] at hOf
      obtain ⟨⟨⟨hType, hTier⟩, hPass⟩, -⟩ := hOf
      exact hNe (Prod.ext (of_decide_eq_true hType).symm
        (Prod.ext (of_decide_eq_true hTier).symm (of_decide_eq_true hPass).symm))

theorem getActivePrompt_registerPrompt_of_ne_first :
    let opts : RegisterPromptOptions := ⟨.episodicLeaf, .single, "t", some "", none, none⟩
    getActivePrompt (registerPrompt [] opts "p").1 .episodicLeaf none .bestOfNJudge =
      getActivePrompt [] .episodicLeaf none .bestOfNJudge :=
  getActivePrompt_registerPrompt_of_ne (by decide)

end LosslessHermes.PromptRegistry
