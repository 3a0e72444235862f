import LosslessHermes.Store.Summary

/-!
# Appending to and replacing a range of the context

`appendContextMessage_spec` and `replaceContextRangeWithSummary_spec` give the
effect of the two writers of `context_items` on the ordered read of every
conversation. Both start from contiguous ordinals and end with contiguous
ordinals; neither can violate the primary key. The replaced range is described
by a split of the read, never by arithmetic on ordinals.
-/

namespace LosslessHermes

/-- `items` with the ordinals `0, 1, …`. -/
def renumber (items : List ContextItemRecord) : List ContextItemRecord :=
  items.zipIdx.map fun (i, n) => { i with ordinal := (n : Int) }

/-- Ordinals are exactly `0 … n - 1`, in this order. -/
def Contiguous (items : List ContextItemRecord) : Prop :=
  items.map (·.ordinal) = (List.range items.length).map fun n : Nat => (n : Int)

variable {items : List ContextItemRecord}

theorem Contiguous.getElem (h : Contiguous items)
    {n : Nat} (hn : n < items.length) : items[n].ordinal = n := by
  have hEq := congrArg (fun l => l[n]?) h
  simpa [hn] using hEq

theorem contiguous_of_getElem
    (h : ∀ n, (hn : n < items.length) → items[n].ordinal = n) : Contiguous items := by
  apply List.ext_getElem
  · simp
  · intro n h₁ h₂
    simpa using h n (by simpa using h₁)

theorem Contiguous.pairwise (h : Contiguous items) :
    items.Pairwise (fun a b => a.ordinal < b.ordinal) := by
  rw [List.pairwise_iff_getElem]
  intro i j hi hj hij
  rw [h.getElem hi, h.getElem hj]
  exact_mod_cast hij

theorem contiguous_renumber (items : List ContextItemRecord) : Contiguous (renumber items) := by
  apply contiguous_of_getElem
  intro n hn
  simp [renumber]

@[simp] theorem renumber_map_ref (items : List ContextItemRecord) :
    (renumber items).map (·.ref) = items.map (·.ref) := by
  apply List.ext_getElem
  · simp [renumber]
  · intro n h₁ h₂
    simp [renumber]

@[simp] theorem renumber_length (items : List ContextItemRecord) :
    (renumber items).length = items.length := by
  simp [renumber]

theorem Contiguous.renumber_eq (h : Contiguous items) :
    renumber items = items := by
  apply List.ext_getElem
  · simp
  · intro n h₁ h₂
    have hOrdinal := h.getElem h₂
    simp [renumber, ← hOrdinal]

theorem Contiguous.append (h : Contiguous items)
    {item : ContextItemRecord} (hItem : item.ordinal = items.length) :
    Contiguous (items ++ [item]) := by
  unfold Contiguous at h ⊢
  rw [List.map_append, h, List.length_append, List.length_singleton, List.range_succ,
    List.map_append, List.map_singleton, List.map_singleton, hItem]

/-- What the primary key promises of a context that is read in order; deletions may
leave gaps. -/
structure Ordered (items : List ContextItemRecord) : Prop where
  sorted : items.Pairwise fun a b => a.ordinal < b.ordinal
  nonneg : ∀ i ∈ items, 0 ≤ i.ordinal

theorem Contiguous.ordered (h : Contiguous items) :
    Ordered items := by
  refine ⟨h.pairwise, fun i hi => ?_⟩
  obtain ⟨n, hn, rfl⟩ := List.mem_iff_getElem.mp hi
  rw [h.getElem hn]
  exact Int.natCast_nonneg n

theorem Ordered.index_le (h : Ordered items) {n : Nat}
    (hn : n < items.length) : (n : Int) ≤ items[n].ordinal := by
  induction n with
  | zero => exact h.nonneg _ (List.getElem_mem hn)
  | succ n ih =>
    have hPrevious := ih (by omega)
    have hLt := List.pairwise_iff_getElem.mp h.sorted n (n + 1) (by omega) hn (by omega)
    omega

/-- The ordinals of a chunk lie between its ends, and no others do. -/
theorem Ordered.bounds {before chunk after : List ContextItemRecord}
    (h : Ordered (before ++ chunk ++ after)) {startOrdinal endOrdinal : Int}
    (hStart : (chunk.map (·.ordinal)).min? = some startOrdinal)
    (hEnd : (chunk.map (·.ordinal)).max? = some endOrdinal) :
    (∀ i ∈ before, i.ordinal < startOrdinal) ∧
      (∀ i ∈ chunk, startOrdinal ≤ i.ordinal ∧ i.ordinal ≤ endOrdinal) ∧
      (∀ i ∈ after, endOrdinal < i.ordinal) ∧ 0 ≤ startOrdinal ∧ startOrdinal ≤ endOrdinal := by
  obtain ⟨hStartMem, hStartLe⟩ := List.min?_eq_some_iff.mp hStart
  obtain ⟨hEndMem, hEndLe⟩ := List.max?_eq_some_iff.mp hEnd
  obtain ⟨first, hFirst, rfl⟩ := List.mem_map.mp hStartMem
  obtain ⟨last, hLast, rfl⟩ := List.mem_map.mp hEndMem
  obtain ⟨hLeft, -, hAcross⟩ := List.pairwise_append.mp h.sorted
  obtain ⟨-, -, hBefore⟩ := List.pairwise_append.mp hLeft
  refine ⟨fun i hi => hBefore i hi first hFirst, fun i hi => ⟨?_, ?_⟩,
    fun i hi => hAcross last (List.mem_append_right _ hLast) i hi,
    h.nonneg first (by simp [hFirst]),
    hStartLe _ (List.mem_map_of_mem hLast)⟩
  · exact hStartLe _ (List.mem_map_of_mem hi)
  · exact hEndLe _ (List.mem_map_of_mem hi)

namespace Db

theorem getContextItems_perm (db : Db) (c : ConversationId) :
    (db.getContextItems c).Perm
      (db.contextItems.filter fun i => i.conversationId = c) :=
  Table.select_perm _

variable {db : Db} {c : ConversationId}

theorem mem_getContextItems {i : ContextItemRecord} :
    i ∈ db.getContextItems c ↔ i ∈ db.contextItems ∧ i.conversationId = c := by
  simp [getContextItems, Table.mem_select]

/-! ## Appending -/

theorem maxOrdinal_eq (h : Contiguous (db.getContextItems c)) :
    db.maxOrdinal c = (db.getContextItems c).length - 1 := by
  have hPerm := (db.getContextItems_perm c).map (·.ordinal)
  rw [h] at hPerm
  unfold maxOrdinal
  by_cases hLen : (db.getContextItems c).length = 0
  · rw [hLen] at hPerm ⊢
    rw [List.nil_perm.mp hPerm]
    rfl
  · have hMax : (((db.contextItems.filter fun i => i.conversationId = c).map
        (·.ordinal)).max?) = some (((db.getContextItems c).length : Int) - 1) := by
      rw [List.max?_eq_some_iff]
      constructor
      · rw [← hPerm.mem_iff, List.mem_map]
        exact ⟨(db.getContextItems c).length - 1, List.mem_range.mpr (by omega), by omega⟩
      · intro o ho
        obtain ⟨n, hn, rfl⟩ := List.mem_map.mp (hPerm.mem_iff.mpr ho)
        have := List.mem_range.mp hn
        omega
    rw [hMax]
    rfl

/-- An item at a fresh ordinal is inserted without touching other tables. -/
theorem insertContextItem_ok {item : ContextItemRecord}
    (hConversation : (db.getConversation item.conversationId).isSome) (hRef : db.hasRef item.ref)
    (hFresh : ∀ i ∈ db.getContextItems item.conversationId, i.ordinal ≠ item.ordinal) :
    db.insertContextItem item =
      .ok { db with contextItems := db.contextItems ++ [item] } := by
  have hKey : (item.conversationId, item.ordinal) ∉
      db.contextItems.map fun i => (i.conversationId, i.ordinal) := by
    intro hMem
    obtain ⟨i, hi, hEq⟩ := List.mem_map.mp hMem
    obtain ⟨hc, ho⟩ := Prod.mk.injEq .. ▸ hEq
    exact hFresh i (mem_getContextItems.mpr ⟨hi, hc⟩) ho
  have hFk : ((db.getConversation item.conversationId).isNone || !db.hasRef item.ref) = false := by
    simp [hRef, hConversation]
  simp only [insertContextItem, hFk, Table.insertRow, if_neg hKey]
  rfl

theorem appendContextMessage_spec (db : Db) (c : ConversationId) (m : MessageId)
    (hConversation : (db.getConversation c).isSome) (hMessage : (db.getMessageById m true).isSome)
    (hItems : Contiguous (db.getContextItems c)) :
    ∃ db', db.appendContextMessage c m = .ok db' ∧
      db' = { db with contextItems := db'.contextItems } ∧
      db'.getContextItems c =
        db.getContextItems c ++ [⟨c, (db.getContextItems c).length, .message m⟩] ∧
      ∀ c', c' ≠ c → db'.getContextItems c' = db.getContextItems c' := by
  let item : ContextItemRecord := ⟨c, (db.getContextItems c).length, .message m⟩
  have hLt : ∀ i ∈ db.getContextItems c, i.ordinal < item.ordinal := by
    intro i hi
    obtain ⟨n, hn, rfl⟩ := List.mem_iff_getElem.mp hi
    rw [hItems.getElem hn]
    exact Int.ofNat_lt.mpr hn
  have hInsert : db.appendContextMessage c m =
      .ok { db with contextItems := db.contextItems ++ [item] } := by
    unfold appendContextMessage
    rw [maxOrdinal_eq hItems, Int.sub_add_cancel]
    exact insertContextItem_ok hConversation hMessage fun i hi => (hLt i hi).ne
  refine ⟨_, hInsert, rfl, ?_, ?_⟩
  · exact Table.select_append_of_lt (by simp [item]) hItems.pairwise hLt
  · intro c' hc'
    exact Table.select_append_of_not (by simpa [item] using hc'.symm)

/-! ## Renumbering -/

/-- The key updates of one renumbering pass never leave a conversation. -/
theorem setOrdinals_spec (db : Db) (c : ConversationId) (updates : List (Int × Int))
    (hOld : (updates.map Prod.fst).Nodup) (hNew : (updates.map Prod.snd).Nodup)
    (hApart : ∀ o ∈ updates.map Prod.snd, o ∉ updates.map Prod.fst)
    (hFresh : ∀ i ∈ db.getContextItems c, i.ordinal ∉ updates.map Prod.snd) :
    ∃ σ : ContextItemRecord → ContextItemRecord,
      db.setOrdinals c updates = .ok { db with contextItems := db.contextItems.map σ } ∧
      (∀ i, (σ i).conversationId = i.conversationId) ∧
      (∀ i, i.conversationId ≠ c → σ i = i) ∧
      ∀ i o, i.conversationId = c → (i.ordinal, o) ∈ updates → σ i = { i with ordinal := o } := by
  have hInj : Function.Injective fun o : Int => (c, o) := fun a b h => by simpa using h
  let pairs := updates.map fun u => ((c, u.1), (c, u.2))
  have hFst : pairs.map Prod.fst = (updates.map Prod.fst).map fun o => (c, o) := by
    simp [pairs]
  have hSnd : pairs.map Prod.snd = (updates.map Prod.snd).map fun o => (c, o) := by
    simp [pairs]
  have hFstNodup : (pairs.map Prod.fst).Nodup := hFst ▸ hOld.map hInj
  let σ := Table.rekeyed (fun i : ContextItemRecord => (i.conversationId, i.ordinal))
    (fun k i => { i with conversationId := k.1, ordinal := k.2 }) pairs
  have hMoved : ∀ i o, i.conversationId = c → (i.ordinal, o) ∈ updates →
      σ i = { i with ordinal := o } := by
    intro i o hi ho
    subst hi
    exact Table.rekeyed_of_mem (fun i : ContextItemRecord => (i.conversationId, i.ordinal))
      (fun k i => { i with conversationId := k.1, ordinal := k.2 }) hFstNodup
      (List.mem_map.mpr ⟨(i.ordinal, o), ho, rfl⟩)
  have hOther : ∀ i : ContextItemRecord, (i.conversationId, i.ordinal) ∉ pairs.map Prod.fst →
      σ i = i := fun i hi => Table.rekeyed_of_notMem hi
  refine ⟨σ, ?_, ?_, ?_, hMoved⟩
  · unfold setOrdinals
    rw [Table.rekeyAll_eq_map (fun _ _ => rfl) pairs db.contextItems hFstNodup
      (hSnd ▸ hNew.map hInj)]
    · rw [hFst, hSnd]
      intro k hk hMem
      obtain ⟨o, ho, rfl⟩ := List.mem_map.mp hk
      exact hApart o ho ((List.mem_map_of_injective hInj).mp hMem)
    · rw [hSnd]
      intro i hi hMem
      obtain ⟨o, ho, hEq⟩ := List.mem_map.mp hMem
      obtain ⟨rfl, rfl⟩ := Prod.mk.injEq .. ▸ hEq
      exact hFresh i (mem_getContextItems.mpr ⟨hi, rfl⟩) ho
  · intro i
    by_cases hMem : (i.conversationId, i.ordinal) ∈ pairs.map Prod.fst
    · rw [hFst] at hMem
      obtain ⟨o, ho, hEq⟩ := List.mem_map.mp hMem
      obtain ⟨hc, rfl⟩ := Prod.mk.injEq .. ▸ hEq
      obtain ⟨⟨_, o⟩, hu, rfl⟩ := List.mem_map.mp ho
      rw [hMoved i o hc.symm hu]
    · rw [hOther i hMem]
  · intro i hi
    refine hOther i fun hMem => hi ?_
    rw [hFst] at hMem
    obtain ⟨o, -, hEq⟩ := List.mem_map.mp hMem
    exact (congrArg Prod.fst hEq).symm

/-- A substitution on the rows that keeps conversations acts on each read. -/
theorem getContextItems_map {σ : ContextItemRecord → ContextItemRecord}
    {items : List ContextItemRecord} (hKeep : ∀ i, (σ i).conversationId = i.conversationId)
    (hItems : (db.getContextItems c).map σ = items)
    (hSorted : items.Pairwise (fun a b => a.ordinal < b.ordinal)) :
    Db.getContextItems { db with contextItems := db.contextItems.map σ } c = items := by
  apply Table.select_eq_of_perm _ hSorted
  rw [List.filter_map, ← hItems]
  have hPred : ((fun i : ContextItemRecord => decide (i.conversationId = c)) ∘ σ) =
      fun i => decide (i.conversationId = c) := by
    funext i
    simp [hKeep]
  rw [hPred]
  exact (db.getContextItems_perm c).map σ

theorem getContextItems_map_other {σ : ContextItemRecord → ContextItemRecord}
    (hKeep : ∀ i, (σ i).conversationId = i.conversationId)
    (hSame : ∀ i, i.conversationId = c → σ i = i) :
    Db.getContextItems { db with contextItems := db.contextItems.map σ } c =
      db.getContextItems c := by
  apply Table.select_congr
  rw [List.filter_map]
  have hPred : ((fun i : ContextItemRecord => decide (i.conversationId = c)) ∘ σ) =
      fun i => decide (i.conversationId = c) := by
    funext i
    simp [hKeep]
  rw [hPred]
  conv_rhs => rw [← List.map_id (db.contextItems.filter _)]
  apply List.map_congr_left
  intro i hi
  exact hSame i (by simpa using (List.mem_filter.mp hi).2)

theorem resequence_of_any {db db₁ : Db} {c : ConversationId}
    (hAny : (((db.getContextItems c).map (·.ordinal)).zipIdx.any fun (o, i) => o ≠ (i : Int)) =
      true)
    (hFirst : db.setOrdinals c (((db.getContextItems c).map (·.ordinal)).zipIdx.map
      fun (o, i) => (o, -((i : Int) + 1))) = .ok db₁) :
    db.resequence c = db₁.setOrdinals c (((db.getContextItems c).map (·.ordinal)).zipIdx.map
      fun (_, i) => (-((i : Int) + 1), (i : Int))) := by
  unfold resequence
  dsimp only
  rw [if_pos hAny, hFirst]

theorem resequence_spec (db : Db) (c : ConversationId)
    (hSorted : (db.getContextItems c).Pairwise (fun a b => a.ordinal < b.ordinal))
    (hNonneg : ∀ i ∈ db.getContextItems c, 0 ≤ i.ordinal) :
    ∃ db', db.resequence c = .ok db' ∧ db' = { db with contextItems := db'.contextItems } ∧
      db'.getContextItems c = renumber (db.getContextItems c) ∧
      ∀ c', c' ≠ c → db'.getContextItems c' = db.getContextItems c' := by
  let ordinals := (db.getContextItems c).map (·.ordinal)
  by_cases hAny : ordinals.zipIdx.any fun place => place.1 ≠ (place.2 : Int)
  swap
  · -- Nothing to renumber: the ordinals already are the positions.
    refine ⟨db, ?_, rfl, ?_, fun _ _ => rfl⟩
    · simp only [resequence, ordinals] at hAny ⊢
      rw [if_neg hAny]
    · refine (Contiguous.renumber_eq (contiguous_of_getElem fun n hn => ?_)).symm
      by_contra hne
      apply hAny
      rw [List.any_eq_true]
      refine ⟨((db.getContextItems c)[n].ordinal, n), ?_, by simpa using hne⟩
      rw [List.mem_zipIdx_iff_getElem?]
      simp [ordinals, hn]
  · let neg : Nat → Int := fun i => -((i : Int) + 1)
    have hNegNodup : ((List.range ordinals.length).map neg).Nodup :=
      List.nodup_range.map fun a b h => by simp only [neg] at h; omega
    have hPosNodup : ((List.range ordinals.length).map fun i : Nat => (i : Int)).Nodup :=
      List.nodup_range.map fun a b h => Int.ofNat.inj h
    have hNegRange : ∀ o ∈ (List.range ordinals.length).map neg, o < 0 := by
      intro o ho
      obtain ⟨i, -, rfl⟩ := List.mem_map.mp ho
      simp only [neg]
      omega
    have hPosRange : ∀ o ∈ (List.range ordinals.length).map fun i : Nat => (i : Int), 0 ≤ o := by
      intro o ho
      obtain ⟨i, -, rfl⟩ := List.mem_map.mp ho
      exact Int.natCast_nonneg i
    have hOrdinalsNodup : ordinals.Nodup := (List.pairwise_map.mpr hSorted).imp ne_of_lt
    have hOrdinalsRange : ∀ o ∈ ordinals, 0 ≤ o := by
      intro o ho
      obtain ⟨r, hr, rfl⟩ := List.mem_map.mp ho
      exact hNonneg r hr
    -- First pass: the ordinal at position `i` becomes `-(i + 1)`.
    let updates₁ := ordinals.zipIdx.map fun place => (place.1, neg place.2)
    have hFst₁ : updates₁.map Prod.fst = ordinals := by
      rw [List.map_map]
      exact List.zipIdx_map_fst 0 ordinals
    have hSnd₁ : updates₁.map Prod.snd = (List.range ordinals.length).map neg := by
      rw [List.range_eq_range', ← List.zipIdx_map_snd 0 ordinals, List.map_map, List.map_map]
      rfl
    obtain ⟨σ₁, hSet₁, hKeep₁, hOther₁, hMoved₁⟩ := setOrdinals_spec db c
      updates₁ (by rwa [hFst₁]) (by rwa [hSnd₁])
      (by
        rw [hFst₁, hSnd₁]
        intro o ho hMem
        exact absurd (hOrdinalsRange o hMem) (not_le.mpr (hNegRange o ho)))
      (by
        rw [hSnd₁]
        intro r hr hMem
        exact absurd (hNonneg r hr) (not_le.mpr (hNegRange _ hMem)))
    have hItem₁ : ∀ n, (hn : n < (db.getContextItems c).length) →
        σ₁ (db.getContextItems c)[n] = { (db.getContextItems c)[n] with ordinal := neg n } := by
      intro n hn
      refine hMoved₁ _ _ (mem_getContextItems.mp (List.getElem_mem hn)).2 ?_
      refine List.mem_map.mpr ⟨((db.getContextItems c)[n].ordinal, n), ?_, rfl⟩
      rw [List.mem_zipIdx_iff_getElem?]
      simp [ordinals, hn]
    -- Second pass: `-(i + 1)` becomes `i`.
    let updates₂ := ordinals.zipIdx.map fun place => (neg place.2, (place.2 : Int))
    have hFst₂ : updates₂.map Prod.fst = (List.range ordinals.length).map neg := by
      rw [List.range_eq_range', ← List.zipIdx_map_snd 0 ordinals, List.map_map, List.map_map]
      rfl
    have hSnd₂ : updates₂.map Prod.snd =
        (List.range ordinals.length).map fun i : Nat => (i : Int) := by
      rw [List.range_eq_range', ← List.zipIdx_map_snd 0 ordinals, List.map_map, List.map_map]
      rfl
    let db₁ : Db := { db with contextItems := db.contextItems.map σ₁ }
    obtain ⟨σ₂, hSet₂, hKeep₂, hOther₂, hMoved₂⟩ := setOrdinals_spec db₁ c
      updates₂ (by rwa [hFst₂]) (by rwa [hSnd₂])
      (by
        rw [hFst₂, hSnd₂]
        intro o ho hMem
        exact absurd (hPosRange o ho) (not_le.mpr (hNegRange o hMem)))
      (by
        rw [hSnd₂]
        intro r hr hMem
        obtain ⟨hr, hc⟩ := mem_getContextItems.mp hr
        obtain ⟨r₀, hr₀, rfl⟩ := List.mem_map.mp hr
        rw [hKeep₁] at hc
        obtain ⟨n, hn, rfl⟩ := List.mem_iff_getElem.mp (mem_getContextItems.mpr ⟨hr₀, hc⟩)
        rw [hItem₁ n hn] at hMem
        have := hPosRange _ hMem
        simp only [neg] at this
        omega)
    have hItem₂ : ∀ n, (hn : n < (db.getContextItems c).length) →
        σ₂ (σ₁ (db.getContextItems c)[n]) =
          { (db.getContextItems c)[n] with ordinal := (n : Int) } := by
      intro n hn
      rw [hItem₁ n hn]
      refine hMoved₂ _ _ (mem_getContextItems.mp (List.getElem_mem hn)).2 ?_
      refine List.mem_map.mpr ⟨((db.getContextItems c)[n].ordinal, n), ?_, rfl⟩
      rw [List.mem_zipIdx_iff_getElem?]
      simp [ordinals, hn]
    refine ⟨{ db with contextItems := db.contextItems.map (σ₂ ∘ σ₁) }, ?_, rfl, ?_, ?_⟩
    · rw [← List.map_map]
      exact (resequence_of_any hAny hSet₁).trans hSet₂
    · refine getContextItems_map (fun i => by simp [hKeep₂, hKeep₁]) ?_
        (contiguous_renumber _).pairwise
      apply List.ext_getElem
      · simp
      · intro n h₁ h₂
        have hn : n < (db.getContextItems c).length := by simpa using h₁
        simpa [renumber] using hItem₂ n hn
    · intro c' hc'
      refine getContextItems_map_other (fun i => by simp [hKeep₂, hKeep₁]) fun i hi => ?_
      have hne : i.conversationId ≠ c := hi ▸ hc'
      simp [hOther₁ i hne, hOther₂ i hne]

/-! ## Replacing a range -/

/-- The rows that the deletion of a range leaves. -/
def outsideRange (c : ConversationId) (startOrdinal endOrdinal : Int)
    (i : ContextItemRecord) : Bool :=
  ¬(i.conversationId = c ∧ startOrdinal ≤ i.ordinal ∧ i.ordinal ≤ endOrdinal)

theorem filter_outsideRange {before chunk after : List ContextItemRecord}
    {startOrdinal endOrdinal : Int} (hBefore : ∀ i ∈ before, i.ordinal < startOrdinal)
    (hRange : ∀ i ∈ chunk, startOrdinal ≤ i.ordinal ∧ i.ordinal ≤ endOrdinal)
    (hAfter : ∀ i ∈ after, endOrdinal < i.ordinal)
    (hConversation : ∀ i ∈ chunk, i.conversationId = c) :
    (before ++ chunk ++ after).filter (outsideRange c startOrdinal endOrdinal) =
      before ++ after := by
  rw [List.filter_append, List.filter_append, List.filter_eq_self.mpr,
    List.filter_eq_nil_iff.mpr, List.filter_eq_self.mpr, List.append_nil]
  · intro i hi
    have := hAfter i hi
    simp only [outsideRange, decide_eq_true_eq]
    omega
  · intro i hi
    have := hRange i hi
    simp only [outsideRange, decide_eq_true_eq, not_not]
    exact ⟨hConversation i hi, by omega, by omega⟩
  · intro i hi
    have := hBefore i hi
    simp only [outsideRange, decide_eq_true_eq]
    omega

theorem replaceContextRangeWithSummary_of_insert {db₁ : Db} {input : ReplaceContextRangeInput}
    (hInsert : Db.insertContextItem { db with
        contextItems := db.contextItems.filter
          (outsideRange input.conversationId input.startOrdinal input.endOrdinal) }
      ⟨input.conversationId, input.startOrdinal, .summary input.summaryId⟩ = .ok db₁) :
    db.replaceContextRangeWithSummary input = db₁.resequence input.conversationId := by
  unfold replaceContextRangeWithSummary
  dsimp only
  split
  · rename_i e hError
    cases hError.symm.trans hInsert
  · rename_i next hNext
    obtain rfl := Except.ok.inj (hNext.symm.trans hInsert)
    rfl

/-- The context read as a split around the replaced range: afterwards the
summary stands in its place and the ordinals are contiguous. -/
theorem replaceContextRangeWithSummary_spec {s : SummaryId}
    {before chunk after : List ContextItemRecord}
    (hItems : db.getContextItems c = before ++ chunk ++ after)
    (hOrdered : Ordered (db.getContextItems c))
    (hConversation : (db.getConversation c).isSome) (hSummary : (db.getSummary s true).isSome)
    {startOrdinal endOrdinal : Int} (hStart : (chunk.map (·.ordinal)).min? = some startOrdinal)
    (hEnd : (chunk.map (·.ordinal)).max? = some endOrdinal) :
    ∃ db', db.replaceContextRangeWithSummary ⟨c, startOrdinal, endOrdinal, s⟩ = .ok db' ∧
      db' = { db with contextItems := db'.contextItems } ∧
      db'.getContextItems c =
        renumber (before ++ [⟨c, startOrdinal, .summary s⟩] ++ after) ∧
      ∀ c', c' ≠ c → db'.getContextItems c' = db.getContextItems c' := by
  rw [hItems] at hOrdered
  obtain ⟨hBefore, hRange, hAfter, hNonneg, hEnds⟩ := hOrdered.bounds hStart hEnd
  have hSorted := List.pairwise_append.mp hOrdered.sorted
  have hSortedBefore := (List.pairwise_append.mp hSorted.1).1
  let remaining := db.contextItems.filter (outsideRange c startOrdinal endOrdinal)
  have hRemaining : (before ++ after).Perm (remaining.filter fun i => i.conversationId = c) := by
    rw [← filter_outsideRange hBefore hRange hAfter fun i hi => (mem_getContextItems.mp
      (show i ∈ db.getContextItems c by simp [hItems, hi])).2, List.filter_comm, ← hItems]
    exact (db.getContextItems_perm c).filter _
  have hDeletedItems : Db.getContextItems { db with contextItems := remaining } c =
      before ++ after := by
    refine Table.select_eq_of_perm hRemaining ?_
    rw [List.pairwise_append]
    refine ⟨hSortedBefore, hSorted.2.1, fun a ha b hb => ?_⟩
    exact hSorted.2.2 a (List.mem_append_left _ ha) b hb
  let item : ContextItemRecord := ⟨c, startOrdinal, .summary s⟩
  have hInsert : Db.insertContextItem { db with contextItems := remaining } item =
      .ok { db with contextItems := remaining ++ [item] } := by
    refine insertContextItem_ok hConversation hSummary fun i hi => ?_
    rw [hDeletedItems] at hi
    simp only [item]
    rcases List.mem_append.mp hi with hi | hi
    · have := hBefore i hi
      omega
    · have := hAfter i hi
      omega
  have hInsertedSorted : (before ++ [item] ++ after).Pairwise
      (fun a b => a.ordinal < b.ordinal) := by
    rw [List.append_assoc, List.pairwise_append]
    refine ⟨hSortedBefore, ?_, ?_⟩
    · rw [List.singleton_append, List.pairwise_cons]
      refine ⟨fun b hb => ?_, hSorted.2.1⟩
      have := hAfter b hb
      simp only [item]
      omega
    · intro a ha b hb
      have hLt := hBefore a ha
      rcases List.mem_append.mp hb with hb | hb
      · rw [List.mem_singleton.mp hb]
        exact hLt
      · have := hAfter b hb
        omega
  have hInserted : Db.getContextItems { db with contextItems := remaining ++ [item] } c =
      before ++ [item] ++ after := by
    refine Table.select_eq_of_perm ?_ hInsertedSorted
    have hItem : [item].filter (fun i => decide (i.conversationId = c)) = [item] := by
      simp [item]
    rw [List.filter_append, hItem]
    refine List.Perm.trans ?_ (hRemaining.append_right [item])
    rw [List.append_assoc, List.append_assoc]
    exact List.perm_append_comm.append_left before
  obtain ⟨db', hResequence, hFrame, hNew, hOther⟩ := resequence_spec
    { db with contextItems := remaining ++ [item] } c
    (by rwa [hInserted])
    (by
      rw [hInserted]
      intro i hi
      simp only [List.mem_append, List.mem_singleton] at hi
      rcases hi with (hi | rfl) | hi
      · exact hOrdered.nonneg i (by simp [hi])
      · exact hNonneg
      · exact hOrdered.nonneg i (by simp [hi]))
  refine ⟨db', ?_, hFrame, hInserted ▸ hNew, ?_⟩
  · exact (replaceContextRangeWithSummary_of_insert hInsert).trans hResequence
  · intro c' hc'
    rw [hOther c' hc']
    apply Table.select_congr
    rw [List.filter_append, List.filter_filter]
    have hItem : [item].filter (fun i => decide (i.conversationId = c')) = [] := by
      simpa [item] using hc'.symm
    rw [hItem, List.append_nil]
    apply List.filter_congr
    intro i _
    by_cases hi : i.conversationId = c'
    · simp [outsideRange, hi, hc']
    · simp [hi]

end Db
end LosslessHermes
