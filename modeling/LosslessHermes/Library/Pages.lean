import LosslessHermes.Library.Table

/-!
# Reading by pages

A table is read by calls with a limit and an offset. Each call sorts the rows anew, shows one page
and says at which offset the next one begins, where it has more to show. An offset above a cap is
lowered to it.

`forall_reads_iff`: however the calls arrange the rows with equal keys, following the offsets reads
the rows once and in a given order, if and only if this order has strictly increasing keys and each
call is shown, told and within the cap.
-/

namespace LosslessHermes.Pages

variable {α κ : Type}

structure Reader where
  limit : Nat
  cap : Nat
  /-- The call shows its page. -/
  shows : Nat → Bool
  /-- The call at an offset says where to go on. -/
  tells : Nat → Nat → Bool

namespace Reader

def page (r : Reader) (rows : List α) (call offset : Nat) : List α :=
  if r.shows call then (rows.drop (min offset r.cap)).take r.limit else []

/-- The offset that a call gives for the next one. -/
def next (r : Reader) (rows : List α) (call offset : Nat) : Option Nat :=
  let page := r.page rows call offset
  let last := min offset r.cap + page.length
  if page ≠ [] ∧ last < rows.length ∧ r.tells call offset = true then some last else none

/-- What is read from a call on, until one gives no offset. -/
inductive Reads (r : Reader) (rows : Nat → List α) : Nat → Nat → List α → Prop
  | last {call offset : Nat} (hLast : r.next (rows call) call offset = none) :
      Reads r rows call offset (r.page (rows call) call offset)
  | more {call offset offset' : Nat} {rest : List α}
      (hNext : r.next (rows call) call offset = some offset')
      (hRest : Reads r rows (call + 1) offset' rest) :
      Reads r rows call offset (r.page (rows call) call offset ++ rest)

/-- The calls that are needed for so many rows do what they should. -/
structure Reaches (r : Reader) (total : Nat) : Prop where
  shown : ∀ call, call * r.limit < total → r.shows call = true
  told : ∀ call, (call + 1) * r.limit < total → r.tells call (call * r.limit) = true
  within : ∀ call, call * r.limit < total → call * r.limit ≤ r.cap

variable {r : Reader} {rows : Nat → List α} {items visited : List α} {call offset : Nat}

/-! ## One call -/

theorem page_of_shown (hShown : r.shows call = true) (hCap : offset ≤ r.cap) :
    r.page items call offset = (items.drop offset).take r.limit := by
  unfold page
  rw [if_pos hShown, Nat.min_eq_left hCap]

theorem page_of_hidden (hHidden : r.shows call = false) : r.page items call offset = [] := by
  unfold page
  rw [if_neg (by rw [hHidden]; exact Bool.false_ne_true)]

theorem next_of_hidden (hHidden : r.shows call = false) : r.next items call offset = none := by
  unfold next
  dsimp only
  rw [page_of_hidden hHidden]
  exact if_neg fun h => h.1 rfl

theorem next_eq_some_iff {offset' : Nat} : r.next items call offset = some offset' ↔
    r.page items call offset ≠ [] ∧ offset' < items.length ∧ r.tells call offset = true ∧
      offset' = min offset r.cap + (r.page items call offset).length := by
  unfold next
  dsimp only
  split
  · rename_i h
    rw [Option.some.injEq]
    constructor
    · rintro rfl
      exact ⟨h.1, h.2.1, h.2.2, rfl⟩
    · exact fun h' => h'.2.2.2.symm
  · rename_i h
    refine iff_of_false (fun hNone => nomatch hNone) fun h' => h ?_
    obtain ⟨hPage, hMore, hTold, rfl⟩ := h'
    exact ⟨hPage, hMore, hTold⟩

theorem reads_of_hidden (h : r.Reads rows call offset visited) (hHidden : r.shows call = false) :
    visited = [] := by
  cases h with
  | last hLast => exact page_of_hidden hHidden
  | more hNext hRest =>
    rw [next_of_hidden hHidden] at hNext
    cases hNext

/-- Something is read beyond the cap only by reading the row at the cap. -/
theorem mem_of_reads_beyond (h : r.Reads (fun _ => items) call offset visited)
    (hLimit : 0 < r.limit) (hBeyond : r.cap ≤ offset) (hCap : r.cap < items.length)
    (hSome : visited ≠ []) : items[r.cap] ∈ visited := by
  have hShown : r.shows call = true := by
    by_contra hHidden
    exact hSome (reads_of_hidden h (Bool.eq_false_iff.mpr hHidden))
  have hMem : items[r.cap] ∈ r.page items call offset := by
    unfold page
    rw [if_pos hShown, Nat.min_eq_right hBeyond, List.drop_eq_getElem_cons hCap]
    obtain ⟨n, hn⟩ := Nat.exists_eq_succ_of_ne_zero hLimit.ne'
    rw [hn, List.take_succ_cons]
    exact List.mem_cons_self
  cases h with
  | last hLast => exact hMem
  | more hNext hRest => exact List.mem_append_left _ hMem

/-! ## Following the offsets -/

/-- Where every call meets the same rows, they are read from any page on. -/
theorem reads_drop (hLimit : 0 < r.limit) (hRows : ∀ call, rows call = items)
    (h : r.Reaches items.length) (hCall : call * r.limit < items.length) :
    r.Reads rows call (call * r.limit) (items.drop (call * r.limit)) := by
  induction hLeft : items.length - call * r.limit using Nat.strong_induction_on
    generalizing call with
  | _ left ih =>
    have hPage : r.page (rows call) call (call * r.limit) =
        (items.drop (call * r.limit)).take r.limit := by
      rw [hRows]
      exact page_of_shown (h.shown call hCall) (h.within call hCall)
    have hCap := Nat.min_eq_left (h.within call hCall)
    have hStep : (call + 1) * r.limit = call * r.limit + r.limit := Nat.succ_mul call r.limit
    by_cases hMore : (call + 1) * r.limit < items.length
    · have hLength : ((items.drop (call * r.limit)).take r.limit).length = r.limit := by
        rw [List.length_take, List.length_drop]
        omega
      have hNext : r.next (rows call) call (call * r.limit) = some ((call + 1) * r.limit) := by
        rw [next_eq_some_iff, hPage, hLength, hRows, hCap]
        refine ⟨fun hNil => ?_, hMore, h.told call hMore, hStep⟩
        rw [hNil, List.length_nil] at hLength
        omega
      have hRest := ih _ (by omega) hMore rfl
      have hRead := Reads.more hNext hRest
      rw [hPage, hStep, ← List.drop_drop, List.take_append_drop] at hRead
      exact hRead
    · have hAll : (items.drop (call * r.limit)).take r.limit = items.drop (call * r.limit) := by
        refine List.take_of_length_le ?_
        rw [List.length_drop]
        omega
      have hNext : r.next (rows call) call (call * r.limit) = none := by
        by_contra hSome
        obtain ⟨offset', hSome⟩ := Option.ne_none_iff_exists'.mp hSome
        obtain ⟨-, hLess, -, rfl⟩ := next_eq_some_iff.mp hSome
        rw [hPage, hAll, hRows, hCap, List.length_drop] at hLess
        omega
      have hRead := Reads.last hNext
      rw [hPage, hAll] at hRead
      exact hRead

theorem reads_nil (hRows : rows call = []) : r.Reads rows call offset [] := by
  have hPage : r.page (rows call) call offset = [] := by
    unfold page
    rw [hRows, List.drop_nil, List.take_nil, ite_self]
  have hNone : r.next (rows call) call offset = none := if_neg fun hBoth => hBoth.1 hPage
  have hRead := Reads.last hNone
  rw [hPage] at hRead
  exact hRead

/-- The calls that read all rows from a page on, none of them twice, read them in the order of the
table. -/
theorem reaches_of_reads (hLimit : 0 < r.limit)
    (h : r.Reads (fun _ => items) call offset visited) (hOffset : offset = call * r.limit)
    (hLess : offset < items.length) (hCap : offset ≤ r.cap) (hNodup : visited.Nodup)
    (hLength : visited.length = items.length - offset) :
    visited = items.drop offset ∧ ∀ call', call ≤ call' → call' * r.limit < items.length →
      r.shows call' = true ∧ call' * r.limit ≤ r.cap ∧
        ((call' + 1) * r.limit < items.length → r.tells call' (call' * r.limit) = true) := by
  have hStep : ∀ n, (n + 1) * r.limit = n * r.limit + r.limit := fun n => Nat.succ_mul n r.limit
  have hMono : ∀ {m n : Nat}, m ≤ n → m * r.limit ≤ n * r.limit :=
    fun h => Nat.mul_le_mul_right r.limit h
  induction h with
  | @last call offset hLast =>
    have hShown : r.shows call = true := by
      by_contra hHidden
      rw [page_of_hidden (Bool.eq_false_iff.mpr hHidden), List.length_nil] at hLength
      omega
    rw [page_of_shown hShown hCap] at hLength ⊢
    rw [List.length_take, List.length_drop] at hLength
    refine ⟨List.take_of_length_le (by rw [List.length_drop]; omega), fun call' hLe hMore => ?_⟩
    have hStepCall := hStep call
    have hSame : call' = call := by
      by_contra hNe
      have hLater := hMono (show call + 1 ≤ call' by omega)
      omega
    subst hSame
    refine ⟨hShown, hOffset ▸ hCap, fun hMore => ?_⟩
    omega
  | @more call offset offset' rest hNext hRest ih =>
    obtain ⟨hPage, hMore, hTold, hEq⟩ := next_eq_some_iff.mp hNext
    have hShown : r.shows call = true := by
      by_contra hHidden
      exact hPage (page_of_hidden (Bool.eq_false_iff.mpr hHidden))
    have hFull : r.page items call offset = (items.drop offset).take r.limit :=
      page_of_shown hShown hCap
    rw [Nat.min_eq_left hCap, hFull, List.length_take, List.length_drop] at hEq
    have hStepCall := hStep call
    have hOffset' : offset' = (call + 1) * r.limit := by omega
    rw [hFull] at hNodup hLength ⊢
    rw [List.length_append, List.length_take, List.length_drop] at hLength
    have hCap' : offset' ≤ r.cap := by
      by_contra hBeyond
      have hIn : r.cap < items.length := by omega
      have hRead := mem_of_reads_beyond hRest hLimit (by omega) hIn fun hNil => by
        rw [hNil, List.length_nil] at hLength
        omega
      refine List.disjoint_of_nodup_append hNodup ?_ hRead
      have hAt : ((items.drop offset).take r.limit)[r.cap - offset]? = some items[r.cap] := by
        rw [List.getElem?_take_of_lt (by omega), List.getElem?_drop,
          show offset + (r.cap - offset) = r.cap by omega, List.getElem?_eq_getElem hIn]
      exact List.mem_of_getElem? hAt
    obtain ⟨hRestEq, hLater⟩ := ih hOffset' hMore hCap' (List.Nodup.of_append_right hNodup)
      (by omega)
    constructor
    · rw [hRestEq, show offset' = offset + r.limit by omega, ← List.drop_drop,
        List.take_append_drop]
    · intro call' hLe hReached
      rcases Nat.lt_or_eq_of_le hLe with hLt | rfl
      · exact hLater call' hLt hReached
      · exact ⟨hShown, hOffset ▸ hCap, fun _ => hOffset ▸ hTold⟩

/-! ## Rows with equal keys -/

theorem not_sublist_swapped {a b : α} (hNodup : items.Nodup) (h : [a, b].Sublist items) :
    ¬ [b, a].Sublist items := by
  induction items with
  | nil => exact fun _ => nomatch h
  | cons c items ih =>
    obtain ⟨hNew, hRest⟩ := List.nodup_cons.mp hNodup
    intro h'
    rcases List.sublist_cons_iff.mp h with hLater | ⟨tail, hEq, hTail⟩
    · rcases List.sublist_cons_iff.mp h' with hLater' | ⟨tail', hEq', hTail'⟩
      · exact ih hRest hLater hLater'
      · obtain ⟨rfl, rfl⟩ := List.cons.inj hEq'
        exact hNew (hLater.subset (List.mem_cons_of_mem _ List.mem_cons_self))
    · obtain ⟨rfl, rfl⟩ := List.cons.inj hEq
      rcases List.sublist_cons_iff.mp h' with hLater' | ⟨tail', hEq', hTail'⟩
      · exact hNew (hLater'.subset (List.mem_cons_of_mem _ List.mem_cons_self))
      · obtain ⟨rfl, rfl⟩ := List.cons.inj hEq'
        exact hNew (List.singleton_sublist.mp hTail)

/-- Each arrangement of what a list selects comes from one of the list. -/
theorem exists_perm_filterMap {β : Type} {f : β → Option α} {rows : List α} {source : List β}
    (h : rows.Perm (source.filterMap f)) :
    ∃ source' : List β, source'.Perm source ∧ source'.filterMap f = rows := by
  induction rows generalizing source with
  | nil => exact ⟨source, List.Perm.refl source, List.nil_perm.mp h⟩
  | cons row rows ih =>
    obtain ⟨x, hx, hRow⟩ := List.mem_filterMap.mp (h.subset List.mem_cons_self)
    obtain ⟨before, after, rfl⟩ := List.append_of_mem hx
    have hMiddle : (before ++ x :: after).Perm (x :: (before ++ after)) := List.perm_middle
    have hRest : rows.Perm ((before ++ after).filterMap f) := by
      have hAll := h.trans (hMiddle.filterMap f)
      rw [List.filterMap_cons_some hRow] at hAll
      exact hAll.cons_inv
    obtain ⟨source', hPerm, hSame⟩ := ih hRest
    refine ⟨x :: source', (hPerm.cons x).trans hMiddle.symm, ?_⟩
    rw [List.filterMap_cons_some hRow, hSame]

section Sorted

variable [LinearOrder κ] {key : α → κ}

/-- The rows in an order that the query allows. -/
def Arranges (key : α → κ) (items rows : List α) : Prop :=
  rows.Perm items ∧ rows.Pairwise fun a b => key a ≤ key b

theorem arranges_select {items rows : List α} (h : rows.Perm items) :
    Arranges key items (Table.select (fun _ => true) key rows) := by
  refine ⟨(Table.select_perm rows).trans ?_, Table.select_pairwise_le rows⟩
  rw [List.filter_eq_self.mpr fun _ _ => rfl]
  exact h

theorem eq_of_arranges {rows : List α} (h : Arranges key items rows)
    (hStrict : items.Pairwise fun a b => key a < key b) : rows = items := by
  have hSorted : items.Pairwise fun a b => key a ≤ key b := hStrict.imp le_of_lt
  have hKeys : (items.map key).Nodup := (List.pairwise_map.mpr hStrict).imp ne_of_lt
  refine List.Perm.eq_of_pairwise (fun a b ha hb hab hba => ?_) h.2 hSorted h.1
  exact List.inj_on_of_nodup_map hKeys (h.1.subset ha) hb (le_antisymm hab hba)

/-- Where each arrangement is the same, no two rows have the same key. -/
theorem strict_of_unique (hNodup : items.Nodup)
    (h : ∀ rows, Arranges key items rows → rows = items) :
    items.Pairwise fun a b => key a < key b := by
  have hSorted : items.Pairwise fun a b => key a ≤ key b := by
    have hArranged : Arranges key items _ := arranges_select (List.Perm.refl items)
    have hSame := h _ hArranged
    rw [← hSame]
    exact hArranged.2
  have hReversed := h _ (arranges_select items.reverse_perm)
  refine List.pairwise_iff_forall_sublist.mpr fun {a b} hPair => ?_
  have hLe := List.pairwise_iff_forall_sublist.mp hSorted hPair
  refine lt_of_le_of_ne hLe fun hTie => not_sublist_swapped hNodup hPair ?_
  have hSwapped : [b, a].Sublist items.reverse := hPair.reverse
  have hStable : [b, a].Sublist (Table.select (fun _ => true) key items.reverse) := by
    unfold Table.select
    rw [List.filter_eq_self.mpr fun _ _ => rfl]
    exact List.pair_sublist_insertionSort hTie.ge hSwapped
  rw [hReversed] at hStable
  exact hStable

/-- **All rows are read once and in the order of `items`, however ties are arranged, if and only if
there are no ties and each call that is needed does what it should.** -/
theorem forall_reads_iff (hLimit : 0 < r.limit) (hNodup : items.Nodup) :
    (∀ rows : Nat → List α, (∀ call, Arranges key items (rows call)) → r.Reads rows 0 0 items) ↔
      items = [] ∨ (items.Pairwise fun a b => key a < key b) ∧ r.Reaches items.length := by
  constructor
  · intro h
    refine or_iff_not_imp_left.mpr fun hSome => ?_
    have hTotal : 0 < items.length := List.length_pos_iff.mpr hSome
    have hConst : ∀ rows, Arranges key items rows → items = rows ∧
        ∀ call, call * r.limit < items.length → r.shows call = true ∧ call * r.limit ≤ r.cap ∧
          ((call + 1) * r.limit < items.length → r.tells call (call * r.limit) = true) := by
      intro rows hRows
      have hLength : items.length = rows.length := hRows.1.length_eq.symm
      have hRead := reaches_of_reads hLimit (h (fun _ => rows) fun _ => hRows)
        (Nat.zero_mul r.limit).symm (hLength ▸ hTotal) (Nat.zero_le _) hNodup
        (by rw [hLength, Nat.sub_zero])
      rw [List.drop_zero, ← hLength] at hRead
      exact ⟨hRead.1, fun call => hRead.2 call (Nat.zero_le call)⟩
    refine ⟨strict_of_unique hNodup fun rows hRows => (hConst rows hRows).1.symm, ?_⟩
    have hCalls := (hConst _ (arranges_select (List.Perm.refl items))).2
    have hEarlier : ∀ call, (call + 1) * r.limit < items.length →
        call * r.limit < items.length :=
      fun call hMore => (Nat.mul_le_mul_right r.limit (Nat.le_succ call)).trans_lt hMore
    exact ⟨fun call hCall => (hCalls call hCall).1,
      fun call hMore => (hCalls call (hEarlier call hMore)).2.2 hMore,
      fun call hCall => (hCalls call hCall).2.1⟩
  · rintro (rfl | ⟨hStrict, hReaches⟩) rows hRows
    · exact reads_nil (List.perm_nil.mp (hRows 0).1)
    · cases hItems : items with
      | nil =>
        subst hItems
        exact reads_nil (List.perm_nil.mp (hRows 0).1)
      | cons a rest =>
        rw [← hItems]
        have hTotal : 0 * r.limit < items.length := by
          rw [hItems, Nat.zero_mul]
          exact Nat.succ_pos _
        have hRead := reads_drop hLimit (fun call => eq_of_arranges (hRows call) hStrict)
          hReaches hTotal
        rw [Nat.zero_mul, List.drop_zero] at hRead
        exact hRead

end Sorted

end Reader

end LosslessHermes.Pages
