import Mathlib.Data.List.Sort
import Mathlib.Data.List.Nodup

/-!
# Relational tables as lists of rows

The few statements of SQL that a small embedded store uses, over an arbitrary
row type: `select` is `SELECT … WHERE … ORDER BY`, `insertRow` an `INSERT`
under a uniqueness constraint, `insertOrIgnore` the same with `ON CONFLICT DO
NOTHING`, and `rekey` an `UPDATE` of a key column.

`select_eq_of_perm` identifies an ordered read by any strictly sorted
permutation of the matching rows, and `rekeyAll_eq_map` makes a sequence of key
updates one substitution.
-/

namespace LosslessHermes.Table

variable {ρ κ : Type}

/-- `SELECT … WHERE p ORDER BY key`. -/
def select [LinearOrder κ] (p : ρ → Bool) (key : ρ → κ) (rows : List ρ) : List ρ :=
  (rows.filter p).insertionSort (fun a b => key a ≤ key b)

/-- `INSERT` under a uniqueness constraint on `key`; `none` is the violation. -/
def insertRow [DecidableEq κ] (key : ρ → κ) (row : ρ) (rows : List ρ) : Option (List ρ) :=
  if key row ∈ rows.map key then none else some (rows ++ [row])

/-- `INSERT … ON CONFLICT (key) DO NOTHING`. -/
def insertOrIgnore [DecidableEq κ] (key : ρ → κ) (row : ρ) (rows : List ρ) : List ρ :=
  if key row ∈ rows.map key then rows else rows ++ [row]

/-- `UPDATE … SET key = new WHERE key = old` under uniqueness of `key`. -/
def rekey [DecidableEq κ] (key : ρ → κ) (set : κ → ρ → ρ) (old new : κ)
    (rows : List ρ) : Option (List ρ) :=
  if old ∈ rows.map key ∧ old ≠ new ∧ new ∈ rows.map key then none
  else some (rows.map fun r => if key r = old then set new r else r)

/-- A sequence of key updates, stopped by the first violation. -/
def rekeyAll [DecidableEq κ] (key : ρ → κ) (set : κ → ρ → ρ) :
    List (κ × κ) → List ρ → Option (List ρ)
  | [], rows => some rows
  | (old, new) :: rest, rows =>
      match rekey key set old new rows with
      | none => none
      | some rows => rekeyAll key set rest rows

/-! ## Ordered reads -/

section Select

variable [LinearOrder κ] {p : ρ → Bool} {key : ρ → κ}

theorem select_perm (rows : List ρ) : (select p key rows).Perm (rows.filter p) :=
  List.perm_insertionSort _ _

theorem mem_select {rows : List ρ} {r : ρ} :
    r ∈ select p key rows ↔ r ∈ rows ∧ p r = true := by
  rw [(select_perm rows).mem_iff, List.mem_filter]

theorem select_pairwise_le (rows : List ρ) :
    (select p key rows).Pairwise (fun a b => key a ≤ key b) := by
  have : Std.Total fun a b : ρ => key a ≤ key b := ⟨fun a b => le_total (key a) (key b)⟩
  have : IsTrans ρ fun a b : ρ => key a ≤ key b := ⟨fun _ _ _ => le_trans⟩
  exact List.pairwise_insertionSort _ _

variable {rows : List ρ}

/-- The first row of an ordered read is a least one. -/
theorem le_of_head?_select {r r' : ρ} (h : (select p key rows).head? = some r)
    (hMem : r' ∈ rows) (hTest : p r' = true) : key r ≤ key r' := by
  have hSorted := @select_pairwise_le _ _ _ p key rows
  have hRead := (@mem_select _ _ _ p key rows _).mpr ⟨hMem, hTest⟩
  obtain ⟨rest, hRest⟩ := List.head?_eq_some_iff.mp h
  rw [hRest] at hSorted hRead
  rcases List.mem_cons.mp hRead with rfl | hLater
  · exact le_rfl
  · exact (List.pairwise_cons.mp hSorted).1 r' hLater

theorem head?_select_eq_none :
    (select p key rows).head? = none ↔ ∀ r ∈ rows, p r = false := by
  rw [List.head?_eq_none_iff]
  constructor
  · intro hNil r hMem
    by_contra hTest
    rw [Bool.not_eq_false] at hTest
    have hRead := (@mem_select _ _ _ p key rows _).mpr ⟨hMem, hTest⟩
    rw [hNil] at hRead
    exact List.not_mem_nil hRead
  · intro hNone
    refine List.eq_nil_iff_forall_not_mem.mpr fun r hRead => ?_
    obtain ⟨hMem, hTest⟩ := mem_select.mp hRead
    rw [hNone r hMem] at hTest
    cases hTest

/-- An ordered read is the only strictly sorted arrangement of its rows. -/
theorem select_eq_of_perm {items : List ρ} (hPerm : items.Perm (rows.filter p))
    (hSorted : items.Pairwise (fun a b => key a < key b)) :
    select p key rows = items := by
  have hNodup : (items.map key).Nodup := (List.pairwise_map.mpr hSorted).imp ne_of_lt
  have hItems : ∀ a, a ∈ select p key rows → a ∈ items := fun a ha =>
    hPerm.symm.mem_iff.mp ((select_perm rows).mem_iff.mp ha)
  refine List.Perm.eq_of_pairwise ?_ (select_pairwise_le rows) (hSorted.imp le_of_lt)
    ((select_perm rows).trans hPerm.symm)
  intro a b ha hb hab hba
  exact List.inj_on_of_nodup_map hNodup (hItems a ha) hb (le_antisymm hab hba)

theorem map_filterMap_sublist {α β γ : Type} {f : α → Option β} {g : β → γ} {h : α → γ}
    (hSame : ∀ x y, f x = some y → g y = h x) (xs : List α) :
    ((xs.filterMap f).map g).Sublist (xs.map h) := by
  induction xs with
  | nil => exact List.Sublist.refl _
  | cons x xs ih =>
    rw [List.filterMap_cons, List.map_cons]
    cases hx : f x with
    | none => exact ih.cons _
    | some y =>
      rw [List.map_cons, hSame x y hx]
      exact ih.cons_cons _

/-- A row is the one found by a test that only it passes. -/
theorem find_of_unique {row : ρ} (hRow : row ∈ rows) (hTest : p row = true)
    (hUnique : ∀ r ∈ rows, p r = true → r = row) : rows.find? p = some row := by
  obtain ⟨found, hFound⟩ := Option.isSome_iff_exists.mp
    (List.find?_isSome.mpr ⟨row, hRow, hTest⟩)
  rw [hFound, hUnique found (List.mem_of_find?_eq_some hFound) (List.find?_some hFound)]

theorem select_congr {rows' : List ρ} (h : rows.filter p = rows'.filter p) :
    select p key rows = select p key rows' := by
  simp only [select, h]

theorem select_append_of_not {new : List ρ} (h : ∀ r ∈ new, p r = false) :
    select p key (rows ++ new) = select p key rows := by
  have hNil : new.filter p = [] := List.filter_eq_nil_iff.mpr fun r hr => by simp [h r hr]
  apply select_congr
  rw [List.filter_append, hNil, List.append_nil]

/-- The rows of a fresh owner are read in the order they were written. -/
theorem select_append_of_new {new : List ρ} (hRows : ∀ r ∈ rows, p r = false)
    (hNew : ∀ r ∈ new, p r = true) (hSorted : new.Pairwise (fun a b => key a < key b)) :
    select p key (rows ++ new) = new := by
  have hNil : rows.filter p = [] := List.filter_eq_nil_iff.mpr fun r hr => by simp [hRows r hr]
  apply select_eq_of_perm _ hSorted
  rw [List.filter_append, hNil, List.nil_append, List.filter_eq_self.mpr hNew]

/-- A row above every selected key is read last. -/
theorem select_append_of_lt {row : ρ} (hp : p row = true)
    (hSorted : (select p key rows).Pairwise (fun a b => key a < key b))
    (hLt : ∀ r ∈ select p key rows, key r < key row) :
    select p key (rows ++ [row]) = select p key rows ++ [row] := by
  apply select_eq_of_perm
  · rw [List.filter_append, List.filter_singleton, hp]
    exact (select_perm rows).append_right [row]
  · rw [List.pairwise_append]
    refine ⟨hSorted, List.pairwise_singleton _ _, ?_⟩
    intro a ha b hb
    rw [List.mem_singleton.mp hb]
    exact hLt a ha

/-- A change of the rows that neither the test nor the key sees. -/
theorem select_map {f : ρ → ρ} (hTest : ∀ r, p (f r) = p r) (hKey : ∀ r, key (f r) = key r)
    (rows : List ρ) : select p key (rows.map f) = (select p key rows).map f := by
  have hComp : p ∘ f = p := funext hTest
  unfold select
  rw [List.filter_map, hComp]
  refine (List.map_insertionSort _ _ _ _ fun a _ b _ => ?_).symm
  rw [hKey, hKey]

variable {q : ρ → Bool}

theorem filter_orderedInsert {r : ρ → ρ → Prop} [DecidableRel r] [IsTrans ρ r]
    {a : ρ} (hSorted : rows.Pairwise r) :
    (rows.orderedInsert r a).filter q =
      if q a then (rows.filter q).orderedInsert r a else rows.filter q := by
  induction rows with
  | nil => cases hq : q a <;> simp [hq]
  | cons b rows ih =>
    obtain ⟨hHead, hTail⟩ := List.pairwise_cons.mp hSorted
    rw [List.orderedInsert_cons]
    by_cases hLe : r a b
    · rw [if_pos hLe, List.filter_cons]
      -- everything behind `b` comes after `a` as well
      have hFirst : ∀ c ∈ (b :: rows).filter q, r a c := by
        intro c hc
        rcases List.mem_cons.mp (List.mem_filter.mp hc).1 with rfl | hMem
        · exact hLe
        · exact trans_of r hLe (hHead c hMem)
      generalize (b :: rows).filter q = kept at hFirst ⊢
      cases kept with
      | nil => rfl
      | cons c kept => rw [List.orderedInsert_cons, if_pos (hFirst c List.mem_cons_self)]
    · rw [if_neg hLe, List.filter_cons, List.filter_cons, ih hTail]
      cases hb : q b <;> cases hq : q a <;> simp [hLe]

/-- Sorting is stable: what is left out of the rows is left out of the sorted ones. -/
theorem filter_select :
    (select p key rows).filter q = select p key (rows.filter q) := by
  have : Std.Total fun a b : ρ => key a ≤ key b := ⟨fun a b => le_total (key a) (key b)⟩
  have : IsTrans ρ fun a b : ρ => key a ≤ key b := ⟨fun _ _ _ => le_trans⟩
  have hSort : ∀ kept : List ρ, (kept.insertionSort fun a b => key a ≤ key b).filter q =
      (kept.filter q).insertionSort fun a b => key a ≤ key b := by
    intro kept
    induction kept with
    | nil => rfl
    | cons a kept ih =>
      rw [List.insertionSort_cons, filter_orderedInsert (List.pairwise_insertionSort _ _), ih,
        List.filter_cons]
      cases q a <;> rfl
  rw [select, hSort, select, List.filter_filter, List.filter_filter]
  simp only [Bool.and_comm]

/-- A test of the sorted rows is a clause of the statement. -/
theorem filter_select_eq :
    (select p key rows).filter q = select (fun r => p r && q r) key rows := by
  rw [filter_select, select, select, List.filter_filter]

end Select

/-! ## Insertions -/

theorem insertRow_eq_some [DecidableEq κ] {key : ρ → κ} {row : ρ} {rows rows' : List ρ} :
    insertRow key row rows = some rows' ↔ key row ∉ rows.map key ∧ rows' = rows ++ [row] := by
  unfold insertRow
  split <;> simp_all [eq_comm]

/-- Insertions under pairwise distinct fresh keys ignore nothing. -/
theorem foldl_insertOrIgnore [DecidableEq κ] {key : ρ → κ} (new rows : List ρ)
    (hNodup : (new.map key).Nodup) (hFresh : ∀ r ∈ new, key r ∉ rows.map key) :
    new.foldl (fun rows r => insertOrIgnore key r rows) rows = rows ++ new := by
  induction new generalizing rows with
  | nil => simp
  | cons r rest ih =>
    simp only [List.map_cons, List.nodup_cons] at hNodup
    have hInsert : insertOrIgnore key r rows = rows ++ [r] :=
      if_neg (hFresh r List.mem_cons_self)
    rw [List.foldl_cons, hInsert, ih _ hNodup.2]
    · simp
    · intro q hq hMem
      rw [List.map_append, List.mem_append] at hMem
      rcases hMem with hMem | hMem
      · exact hFresh q (List.mem_cons_of_mem _ hq) hMem
      · rw [List.map_singleton, List.mem_singleton] at hMem
        exact hNodup.1 (hMem ▸ List.mem_map_of_mem hq)

/-- The links of an owner that has none yet are all written, in the given order. -/
theorem foldl_insertOrIgnore_links {ν : Type} [DecidableEq κ] [DecidableEq ν] {owner : ρ → κ}
    {target : ρ → ν} {link : ν × Nat → ρ} {k : κ} {targets : List ν} {rows : List ρ}
    (hOwner : ∀ p, owner (link p) = k) (hTarget : ∀ p, target (link p) = p.1)
    (hNodup : targets.Nodup) (hFresh : ∀ r ∈ rows, owner r ≠ k) :
    (targets.zipIdx.map link).foldl
        (fun rows r => insertOrIgnore (fun r => (owner r, target r)) r rows) rows =
      rows ++ targets.zipIdx.map link := by
  refine foldl_insertOrIgnore _ rows ?_ fun r hr hMem => ?_
  · have hKeys : (fun r => (owner r, target r)) ∘ link = (fun t => (k, t)) ∘ Prod.fst :=
      funext fun p => Prod.ext (hOwner p) (hTarget p)
    rw [List.map_map, hKeys, ← List.map_map, List.zipIdx_map_fst]
    exact hNodup.map fun a b hab => congrArg Prod.snd hab
  · obtain ⟨p, -, rfl⟩ := List.mem_map.mp hr
    obtain ⟨l, hl, hEq⟩ := List.mem_map.mp hMem
    exact hFresh l hl ((congrArg Prod.fst hEq).trans (hOwner p))

/-! ## Key updates -/

section Rekey

variable [DecidableEq κ] {key : ρ → κ} {set : κ → ρ → ρ}

/-- The simultaneous substitution a list of key updates stands for. -/
def rekeyed (key : ρ → κ) (set : κ → ρ → ρ) (pairs : List (κ × κ)) (r : ρ) : ρ :=
  match pairs.lookup (key r) with
  | some new => set new r
  | none => r

variable {pairs : List (κ × κ)}

theorem lookup_eq_none_of_notMem {k : κ} (h : k ∉ pairs.map Prod.fst) : pairs.lookup k = none := by
  rw [List.lookup_eq_none_iff]
  intro q hq
  rw [bne_iff_ne]
  rintro rfl
  exact h (List.mem_map_of_mem hq)

/-- When the new keys are fresh and pairwise distinct, no update of the
sequence violates the constraint and each row is moved at most once. -/
theorem rekeyAll_eq_map (hKey : ∀ k r, key (set k r) = k) (pairs : List (κ × κ))
    (rows : List ρ) (hOld : (pairs.map Prod.fst).Nodup) (hNew : (pairs.map Prod.snd).Nodup)
    (hApart : ∀ k ∈ pairs.map Prod.snd, k ∉ pairs.map Prod.fst)
    (hFresh : ∀ r ∈ rows, key r ∉ pairs.map Prod.snd) :
    rekeyAll key set pairs rows = some (rows.map (rekeyed key set pairs)) := by
  induction pairs generalizing rows with
  | nil =>
    have hId : rekeyed key set [] = id := by
      funext r
      simp [rekeyed]
    simp [rekeyAll, hId]
  | cons head rest ih =>
    obtain ⟨old, new⟩ := head
    simp only [List.map_cons, List.nodup_cons] at hOld hNew
    have hNewRows : new ∉ rows.map key := by
      intro hMem
      obtain ⟨r, hr, hk⟩ := List.mem_map.mp hMem
      exact hFresh r hr (by simp [hk])
    have hStep : rekey key set old new rows =
        some (rows.map fun r => if key r = old then set new r else r) := by
      simp only [rekey, hNewRows, and_false, if_false]
    simp only [rekeyAll, hStep]
    rw [ih _ hOld.2 hNew.2]
    · rw [List.map_map]
      congr 1
      apply List.map_congr_left
      intro r hr
      by_cases hk : key r = old
      · have hNone : rest.lookup new = none :=
          lookup_eq_none_of_notMem fun hMem =>
            hApart new (by simp) (List.mem_cons_of_mem _ hMem)
        simp [rekeyed, hk, hKey, hNone]
      · have hBeq : (key r == old) = false := by simpa using hk
        simp [rekeyed, hk, List.lookup_cons, hBeq]
    · intro k hk hMem
      exact hApart k (List.mem_cons_of_mem _ hk) (List.mem_cons_of_mem _ hMem)
    · intro r hr
      obtain ⟨r₀, hr₀, rfl⟩ := List.mem_map.mp hr
      by_cases hk : key r₀ = old
      · simpa [hk, hKey] using hNew.1
      · simp only [hk, if_false]
        intro hMem
        exact hFresh r₀ hr₀ (List.mem_cons_of_mem _ hMem)

theorem rekeyed_of_notMem {r : ρ} (h : key r ∉ pairs.map Prod.fst) :
    rekeyed key set pairs r = r := by
  simp [rekeyed, lookup_eq_none_of_notMem h]

theorem rekeyed_of_mem (key : ρ → κ) (set : κ → ρ → ρ) {r : ρ} {new : κ}
    (hNodup : (pairs.map Prod.fst).Nodup) (h : (key r, new) ∈ pairs) :
    rekeyed key set pairs r = set new r := by
  have hLookup : pairs.lookup (key r) = some new := by
    induction pairs with
    | nil => simp at h
    | cons head rest ih =>
      obtain ⟨old, n⟩ := head
      simp only [List.map_cons, List.nodup_cons] at hNodup
      rcases List.mem_cons.mp h with hEq | hRest
      · obtain ⟨hk, rfl⟩ := Prod.mk.injEq .. ▸ hEq
        simp [hk]
      · have hne : key r ≠ old := fun hk =>
          hNodup.1 (hk ▸ List.mem_map_of_mem (f := Prod.fst) hRest)
        have hBeq : (key r == old) = false := by simpa using hne
        simpa [List.lookup_cons, hBeq] using ih hNodup.2 hRest
  simp [rekeyed, hLookup]

end Rekey

/-! ## Counts -/

/-- An update of one row moves it from the count of the old to that of the new one. -/
theorem countP_set_add {rows : List ρ} {i : Nat} {row : ρ} (h : rows[i]? = some row) (p : ρ → Bool)
    (new : ρ) :
    (rows.set i new).countP p + (if p row then 1 else 0) =
      rows.countP p + if p new then 1 else 0 := by
  obtain ⟨hLt, hGet⟩ := List.getElem?_eq_some_iff.mp h
  have hOne : (if p row then 1 else 0) ≤ rows.countP p := by
    split
    · rename_i hCounted
      exact List.countP_pos_iff.mpr ⟨row, List.mem_of_getElem? h, hCounted⟩
    · exact Nat.zero_le _
  rw [List.countP_set hLt, hGet]
  omega

end LosslessHermes.Table
