import LosslessHermes.Voyage.Responses

/-!
# Answers with embeddings

`embedValidated_iff` says when a body is delivered exactly if it is valid, and refused with a
`VoyageError` otherwise. The items are checked one after the other, and the entries of an item are
converted before the next item is checked: up to the first item that fails its checks, each entry
must be one that `float` reads.
-/

namespace LosslessHermes.Voyage

open Scatter

/-! ## Items of an embedding -/

variable {py : PyReading} {status n dims : Nat} {item : Json}

theorem reads_iff {v : Json} : reads py v = true ↔ ∃ x, toFloat py v = .ok x := by
  unfold reads
  cases toFloat py v with
  | error e => simp [Except.isOk, Except.toBool]
  | ok x => simp [Except.isOk, Except.toBool]

variable {e : ParseFailure}

theorem toFloat_not_voyage {v : Json} (h : toFloat py v = .error e) :
    e.isVoyage = false := by
  unfold toFloat at h
  split at h
  · cases h
  · split at h <;> cases h
    rfl
  · cases h
  · split at h <;> cases h
    rfl
  · cases h
    rfl

theorem checkAll_toFloat_not_voyage {emb : List Json}
    (h : checkAll (toFloat py) emb = .error e) : e.isVoyage = false := by
  obtain ⟨x, -, hError⟩ := exists_of_checkAll_error h
  exact toFloat_not_voyage hError

/-- An item that passes its checks is its index with the entries that `float` makes. -/
theorem embedItem_of_checked (h : embedChecked n dims item = true) :
    ∃ i emb, indexOf item = some i ∧ embeddingOf item = some emb ∧ i < n ∧ emb.length = dims ∧
      embedItem py status n dims item =
        (checkAll (toFloat py) emb).map fun vector => (i, vector) := by
  unfold embedChecked at h
  split at h
  case h_2 => cases h
  case h_1 emb i hEmb hIndex =>
      rw [Bool.and_eq_true, decide_eq_true_eq, decide_eq_true_eq] at h
      refine ⟨i, emb, hIndex, hEmb, h.2, h.1, ?_⟩
      cases item with
      | obj fields =>
        unfold embeddingOf fieldOf at hEmb
        unfold indexOf fieldOf at hIndex
        split at hEmb
        case h_2 => cases hEmb
        case h_1 emb' hGet =>
            cases hEmb
            split at hIndex
            case h_2 => cases hIndex
            case h_1 idx hGetIndex =>
                split at hIndex
                · cases hIndex
                · cases hIndex
                  have hRange : ¬ (idx < 0 ∨ (n : Int) ≤ idx) := by omega
                  simp only [embedItem, hGet, hGetIndex, h.1, hRange, ne_eq, not_true_eq_false,
                    if_false]
      | _ => cases hEmb

/-- An item that fails its checks raises a `VoyageError`. -/
theorem embedItem_of_not_checked (h : embedChecked n dims item = false) :
    ∃ e, embedItem py status n dims item = .error e ∧ e.isVoyage = true := by
  cases item with
  | obj fields =>
    simp only [embedItem]
    split
    · rename_i emb hGet
      split
      · exact ⟨_, rfl, rfl⟩
      · rename_i hDims
        split
        · rename_i idx hGetIndex
          split
          · exact ⟨_, rfl, rfl⟩
          · rename_i hRange
            have hIndex : indexOf (.obj fields) = some idx.toNat := by
              simp only [indexOf, fieldOf, hGetIndex]
              exact if_neg (by omega)
            have hEmb : embeddingOf (.obj fields) = some emb := by
              simp only [embeddingOf, fieldOf, hGet]
            have hLt : idx.toNat < n := by omega
            simp only [embedChecked, hIndex, hEmb, hLt, not_not.mp hDims, decide_true,
              Bool.and_self] at h
            cases h
        · exact ⟨_, rfl, rfl⟩
    · exact ⟨_, rfl, rfl⟩
  | _ => exact ⟨_, rfl, rfl⟩

/-! ## The items of an answer -/

/-- The items are checked first; their vectors go into the slots of their indices. -/
theorem embedItems_eq (data : List Json) (vectors : List (Option (List ParsedFloat))) :
    embedItems py status n dims data vectors =
      (checkAll (embedItem py status n dims) data).map fun writes => scatter writes vectors := by
  induction data generalizing vectors with
  | nil => rfl
  | cons item rest ih =>
    unfold embedItems
    cases hItem : embedItem py status n dims item with
    | error e => rw [checkAll_cons_of_error hItem]; rfl
    | ok write =>
      rw [checkAll_cons_of_ok hItem]
      simp only [ih]
      cases checkAll (embedItem py status n dims) rest with
      | error e => rfl
      | ok writes => rfl

theorem embedItem_error_of_checked (h : embedChecked n dims item = true)
    (hError : embedItem py status n dims item = .error e) : ¬ e.isVoyage = true := by
  obtain ⟨i, emb, -, -, -, -, hItem⟩ := @embedItem_of_checked py status n dims item h
  rw [hItem] at hError
  cases hAll : checkAll (toFloat py) emb with
  | ok vector => rw [hAll] at hError; cases hError
  | error e' =>
    rw [hAll] at hError
    cases hError
    simp [checkAll_toFloat_not_voyage hAll]

/-- An item that passes its checks is not converted if and only if an entry cannot be read. -/
theorem embedItem_error_iff (h : embedChecked n dims item = true) :
    (∃ e, embedItem py status n dims item = .error e) ↔
      ∃ emb, embeddingOf item = some emb ∧ ∃ x ∈ emb, reads py x = false := by
  obtain ⟨i, emb, -, hEmb, -, -, hItem⟩ := @embedItem_of_checked py status n dims item h
  rw [hItem, hEmb]
  constructor
  · rintro ⟨e, hError⟩
    cases hAll : checkAll (toFloat py) emb with
    | ok vector => rw [hAll] at hError; cases hError
    | error e' =>
      obtain ⟨x, hx, hRaised⟩ := exists_of_checkAll_error hAll
      refine ⟨emb, rfl, x, hx, ?_⟩
      rw [Bool.eq_false_iff]
      intro hReads
      obtain ⟨y, hy⟩ := reads_iff.mp hReads
      rw [hRaised] at hy
      cases hy
  · rintro ⟨emb', hEq, x, hx, hReads⟩
    cases hEq
    cases hAll : checkAll (toFloat py) emb with
    | error e => exact ⟨e, rfl⟩
    | ok vector =>
      obtain ⟨y, -, hy⟩ := exists_of_mem_checkAll hAll hx
      rw [reads_iff.mpr ⟨y, hy⟩] at hReads
      cases hReads

theorem embed_crash_iff {data : List Json} :
    (∃ e, checkAll (embedItem py status n dims) data = .error e ∧ ¬ e.isVoyage = true) ↔
      ∃ item ∈ data.takeWhile (embedChecked n dims), ∃ emb, embeddingOf item = some emb ∧
        ∃ x ∈ emb, reads py x = false := by
  rw [checkAll_bad_iff (p := embedChecked n dims)]
  · constructor
    · rintro ⟨item, hItem, hError⟩
      exact ⟨item, hItem, (embedItem_error_iff (List.mem_takeWhile_imp hItem)).mp hError⟩
    · rintro ⟨item, hItem, hEntry⟩
      exact ⟨item, hItem, (embedItem_error_iff (List.mem_takeWhile_imp hItem)).mpr hEntry⟩
  · intro item h
    obtain ⟨e, hError, hVoyage⟩ := @embedItem_of_not_checked py status n dims item h
    exact ⟨e, hError, not_not.mpr hVoyage⟩
  · exact fun item e h hError => embedItem_error_of_checked h hError

/-- What a list of converted items says of the items. -/
theorem checked_of_writes {data : List Json} {writes : List (Nat × List ParsedFloat)}
    (h : checkAll (embedItem py status n dims) data = .ok writes) :
    (∀ item ∈ data, embedChecked n dims item = true) ∧
      data.map indexOf = writes.map fun w => some w.1 := by
  have hAll := checkAll_eq_ok_iff.mp h
  clear h
  induction hAll with
  | nil => exact ⟨fun _ h => (by cases h), rfl⟩
  | @cons item w data writes hItem _ ih =>
    have hChecked : embedChecked n dims item = true := by
      by_contra hNot
      obtain ⟨e, hError, -⟩ :=
        @embedItem_of_not_checked py status n dims item (Bool.eq_false_iff.mpr hNot)
      rw [hItem] at hError
      cases hError
    obtain ⟨i, emb, hIndex, -, -, -, hEq⟩ := @embedItem_of_checked py status n dims item hChecked
    have hFirst : w.1 = i := by
      rw [hItem] at hEq
      cases hVector : checkAll (toFloat py) emb with
      | error e => rw [hVector] at hEq; cases hEq
      | ok vector =>
        rw [hVector] at hEq
        cases hEq
        rfl
    refine ⟨List.forall_mem_cons.mpr ⟨hChecked, ih.1⟩, ?_⟩
    rw [List.map_cons, List.map_cons, ih.2, hIndex, hFirst]

section Embed

variable {modelHint : String} {fields : List (String × Json)} {data : List Json}
  {writes : List (Nat × List ParsedFloat)}

theorem dataOf_obj (h : Json.get? fields "data" = some (.arr data)) :
    dataOf (.ok (.obj fields)) = some data := by
  simp only [dataOf, h]

variable {e : ParseFailure}

theorem parseEmbed_of_error (hGet : Json.get? fields "data" = some (.arr data))
    (hLength : data.length = n)
    (h : checkAll (embedItem py status n (firstDims data)) data = .error e) :
    parseEmbedResponse py status (.ok (.obj fields)) n modelHint = .error e := by
  have hItems :
      embedItems py status n (firstDims data) data (List.replicate n none) = .error e := by
    rw [embedItems_eq, h]
    rfl
  simp only [parseEmbedResponse, getFields, hGet, hLength, hItems, ne_eq, not_true_eq_false,
    if_false]

/-- With two items of one index a slot stays empty. -/
theorem parseEmbed_of_repeated (hGet : Json.get? fields "data" = some (.arr data))
    (hLength : data.length = n)
    (h : checkAll (embedItem py status n (firstDims data)) data = .ok writes)
    (hEmpty : none ∈ scatter writes (List.replicate n none)) :
    ∃ error, parseEmbedResponse py status (.ok (.obj fields)) n modelHint =
      .error (.voyage error) := by
  have hItems : embedItems py status n (firstDims data) data (List.replicate n none) =
      .ok (scatter writes (List.replicate n none)) := by
    rw [embedItems_eq, h]
    rfl
  cases hFind : (scatter writes (List.replicate n none)).findIdx? (·.isNone) with
  | none => exact absurd (List.findIdx?_eq_none_iff.mp hFind none hEmpty) (by simp)
  | some i =>
    simp only [parseEmbedResponse, getFields, hGet, hLength, hItems, hFind, ne_eq,
      not_true_eq_false, if_false]
    exact ⟨_, rfl⟩

theorem parseEmbed_of_full (hGet : Json.get? fields "data" = some (.arr data))
    (hLength : data.length = n)
    (h : checkAll (embedItem py status n (firstDims data)) data = .ok writes)
    (hFull : none ∉ scatter writes (List.replicate n none)) :
    parseEmbedResponse py status (.ok (.obj fields)) n modelHint =
      .ok ⟨(scatter writes (List.replicate n none)).map (·.getD []), totalTokens fields,
        modelOr fields modelHint⟩ := by
  have hItems : embedItems py status n (firstDims data) data (List.replicate n none) =
      .ok (scatter writes (List.replicate n none)) := by
    rw [embedItems_eq, h]
    rfl
  have hFind : (scatter writes (List.replicate n none)).findIdx? (·.isNone) = none := by
    refine List.findIdx?_eq_none_iff.mpr fun slot hSlot => ?_
    cases slot with
    | none => exact absurd hSlot hFull
    | some vector => rfl
  simp only [parseEmbedResponse, getFields, hGet, hLength, hItems, hFind, ne_eq,
    not_true_eq_false, if_false]

theorem embedChecked_iff {dims : Nat} {item : Json} : embedChecked n dims item = true ↔
    ∃ i emb, indexOf item = some i ∧ embeddingOf item = some emb ∧ i < n ∧ emb.length = dims := by
  unfold embedChecked
  cases embeddingOf item with
  | none => simp
  | some emb =>
    cases indexOf item with
    | none => simp
    | some i => simp [and_comm]

theorem firstDims_cons {item : Json} {emb : List Json} (h : embeddingOf item = some emb)
    (rest : List Json) : firstDims (item :: rest) = emb.length := by
  unfold embeddingOf at h
  split at h
  case h_2 => cases h
  case h_1 emb' hField =>
      cases h
      cases item with
      | obj fields =>
        have hGet : Json.get? fields "embedding" = some (.arr emb) := hField
        simp only [firstDims, hGet]
      | _ => cases hField

/-- Items that pass their checks are well formed up to their indices and the types of their
entries. -/
theorem embedData_iff_of_checked (hLength : data.length = n)
    (hChecked : ∀ item ∈ data, embedChecked n (firstDims data) item = true) :
    EmbedData n data ↔ (data.map indexOf).Nodup ∧
      ∀ item ∈ data, ∀ emb, embeddingOf item = some emb → ∀ x ∈ emb, isNumber x = true := by
  constructor
  · rintro ⟨hPerm, dims, hVectors⟩
    refine ⟨hPerm.nodup_iff.mpr (List.nodup_range.map (Option.some_injective _)), ?_⟩
    intro item hItem emb hEmb
    obtain ⟨emb', hEmb', -, hNumeric⟩ := hVectors item hItem
    rw [hEmb] at hEmb'
    cases hEmb'
    exact hNumeric
  · rintro ⟨hNodup, hNumeric⟩
    have hIndices : data.map indexOf = (data.map fun item => (indexOf item).getD 0).map some := by
      rw [List.map_map]
      refine List.map_congr_left fun item hItem => ?_
      obtain ⟨i, -, hIndex, -⟩ := embedChecked_iff.mp (hChecked item hItem)
      simp [hIndex]
    have hLt : ∀ i ∈ data.map fun item => (indexOf item).getD 0, i < n := by
      refine List.forall_mem_map.mpr fun item hItem => ?_
      obtain ⟨i, -, hIndex, -, hLt, -⟩ := embedChecked_iff.mp (hChecked item hItem)
      simpa [hIndex] using hLt
    refine ⟨?_, firstDims data, fun item hItem => ?_⟩
    · rw [hIndices] at hNodup ⊢
      exact ((nodup_iff_perm_range (by rw [List.length_map, hLength]) hLt).mp
        (hNodup.of_map some)).map some
    · obtain ⟨-, emb, -, hEmb, -, hDims⟩ := embedChecked_iff.mp (hChecked item hItem)
      exact ⟨emb, hEmb, hDims, hNumeric item hItem emb hEmb⟩

theorem EmbedData.length (h : EmbedData n data) : data.length = n := by
  have hLength := h.indices.length_eq
  rwa [List.length_map, List.length_map, List.length_range] at hLength

theorem EmbedData.checked (h : EmbedData n data) :
    ∀ item ∈ data, embedChecked n (firstDims data) item = true := by
  obtain ⟨dims, hVectors⟩ := h.vectors
  have hDims : ∀ item ∈ data, firstDims data = dims := by
    intro item hItem
    cases data with
    | nil => cases hItem
    | cons first rest =>
      obtain ⟨emb, hEmb, hLength, -⟩ := hVectors first List.mem_cons_self
      rw [firstDims_cons hEmb, hLength]
  intro item hItem
  obtain ⟨emb, hEmb, hLength, -⟩ := hVectors item hItem
  obtain ⟨i, hi, hIndex⟩ := List.mem_map.mp
    (h.indices.mem_iff.mp (List.mem_map_of_mem hItem))
  exact embedChecked_iff.mpr
    ⟨i, emb, hIndex.symm, hEmb, List.mem_range.mp hi, by rw [hDims item hItem, hLength]⟩

variable {body : Except String Json}

/-- With distinct indices each item's vector is in its slot. -/
theorem delivers_of_writes (hData : dataOf body = some data)
    (h : checkAll (embedItem py status n (firstDims data)) data = .ok writes)
    (hNodup : (writes.map (·.1)).Nodup) (total : Int) (model : String) :
    Delivers py n body ⟨(scatter writes (List.replicate n none)).map (·.getD []),
      total, model⟩ := by
  refine ⟨by rw [List.length_map, length_scatter, List.length_replicate], ?_⟩
  intro data' hData' item hItem
  rw [hData] at hData'
  cases hData'
  have hChecked := (checked_of_writes h).1 item hItem
  obtain ⟨i, emb, hIndex, hEmb, hLt, -, hEq⟩ :=
    @embedItem_of_checked py status n (firstDims data) item hChecked
  obtain ⟨w, hw, hWrite⟩ := exists_of_mem_checkAll h hItem
  rw [hWrite] at hEq
  cases hVector : checkAll (toFloat py) emb with
  | error e => rw [hVector] at hEq; cases hEq
  | ok vector =>
    rw [hVector] at hEq
    cases hEq
    refine ⟨i, emb, vector, hIndex, hEmb, hVector, ?_⟩
    have hSlot := @scatter_of_mem _ writes (List.replicate n none) hNodup (i, vector) hw
      (by rwa [List.length_replicate])
    simp only [List.getElem?_map, hSlot, Option.map_some, Option.getD_some]

theorem embedBody_iff (hData : dataOf body = some data) :
    EmbedBody n body ↔ EmbedData n data := by
  unfold EmbedBody
  rw [hData]
  simp

theorem EmbedValidated.of_refused (hNot : ¬ EmbedBody n body)
    {error : VoyageError} (h : parseEmbedResponse py status body n modelHint =
      .error (.voyage error)) : EmbedValidated py status modelHint n body :=
  ⟨fun hValid => absurd hValid hNot, fun _ => ⟨error, h⟩⟩

/-- Nothing but a `VoyageError` or a result is what is wanted. -/
theorem EmbedValidated.isVoyage (h : EmbedValidated py status modelHint n body)
    (hError : parseEmbedResponse py status body n modelHint = .error e) : e.isVoyage = true := by
  by_cases hValid : EmbedBody n body
  · obtain ⟨result, hResult, -⟩ := h.delivered hValid
    rw [hError] at hResult
    cases hResult
  · obtain ⟨error, hRefused⟩ := h.refused hValid
    rw [hError] at hRefused
    cases hRefused
    rfl

theorem isVoyage_iff : e.isVoyage = true ↔ ∃ error, e = .voyage error := by
  cases e <;> simp [ParseFailure.isVoyage]

/-- The entries that are reached can be read if and only if nothing else than a `VoyageError`
comes out of the items. -/
theorem entries_read_iff :
    (∀ item ∈ data.takeWhile (embedChecked n (firstDims data)), ∀ emb,
        embeddingOf item = some emb → ∀ x ∈ emb, reads py x = true) ↔
      ∀ e, checkAll (embedItem py status n (firstDims data)) data = .error e →
        e.isVoyage = true := by
  have hCrash := @embed_crash_iff py status n (firstDims data) data
  constructor
  · intro h e hError
    by_contra hNot
    obtain ⟨item, hItem, emb, hEmb, x, hx, hReads⟩ := hCrash.mp ⟨e, hError, hNot⟩
    rw [h item hItem emb hEmb x hx] at hReads
    cases hReads
  · intro h item hItem emb hEmb x hx
    by_contra hNot
    obtain ⟨e, hError, hCrashed⟩ :=
      hCrash.mpr ⟨item, hItem, emb, hEmb, x, hx, Bool.eq_false_iff.mpr hNot⟩
    exact hCrashed (h e hError)

variable {body : Except String Json}

/-- The items are refused, or an entry that is reached cannot be read. -/
theorem embedValidated_iff_of_error (hBody : body = .ok (.obj fields))
    (hGet : Json.get? fields "data" = some (.arr data)) (hLength : data.length = n)
    (hAll : checkAll (embedItem py status n (firstDims data)) data = .error e) :
    EmbedValidated py status modelHint n body ↔ EmbedReadable py n body := by
  have hData : dataOf body = some data := hBody ▸ dataOf_obj hGet
  have hParse : parseEmbedResponse py status body n modelHint = .error e :=
    hBody ▸ parseEmbed_of_error hGet hLength hAll
  have hUnchecked : e.isVoyage = true →
      ¬ ∀ item ∈ data, embedChecked n (firstDims data) item = true := by
    intro hVoyage hChecked
    obtain ⟨item, hItem, hError⟩ := exists_of_checkAll_error hAll
    exact embedItem_error_of_checked (hChecked item hItem) hError hVoyage
  constructor
  · intro h
    have hVoyage := h.isVoyage hParse
    refine ⟨fun payload hPayload => ?_, fun data' hData' _ => ?_, fun data' hData' _ hChecked => ?_⟩
    · rw [hBody] at hPayload
      cases hPayload
      rfl
    · rw [hData] at hData'
      cases hData'
      refine (@entries_read_iff py status n data).mpr fun e' hError => ?_
      rw [hAll] at hError
      cases hError
      exact hVoyage
    · rw [hData] at hData'
      cases hData'
      exact absurd hChecked (hUnchecked hVoyage)
  · intro h
    have hVoyage := entries_read_iff.mp (h.entries data hData hLength) e hAll
    obtain ⟨error, rfl⟩ := isVoyage_iff.mp hVoyage
    refine .of_refused (fun hValid => ?_) hParse
    exact hUnchecked hVoyage ((embedBody_iff hData).mp hValid).checked

/-- The items are converted. -/
theorem embedValidated_iff_of_ok (hBody : body = .ok (.obj fields))
    (hGet : Json.get? fields "data" = some (.arr data)) (hLength : data.length = n)
    (hAll : checkAll (embedItem py status n (firstDims data)) data = .ok writes) :
    EmbedValidated py status modelHint n body ↔ EmbedReadable py n body := by
  have hData : dataOf body = some data := hBody ▸ dataOf_obj hGet
  obtain ⟨hChecked, hIndices⟩ := checked_of_writes hAll
  have hNodup : (data.map indexOf).Nodup ↔ (writes.map (·.1)).Nodup := by
    have hMap : (writes.map fun w => some w.1) = (writes.map (·.1)).map some := by
      rw [List.map_map]
      rfl
    rw [hIndices, hMap, List.nodup_map_iff (Option.some_injective _)]
  have hWrites : writes.length = n := by
    rw [← hLength, (checkAll_eq_ok_iff.mp hAll).length_eq]
  have hLt : ∀ w ∈ writes, w.1 < n := by
    intro w hw
    have hMem : some w.1 ∈ data.map indexOf := hIndices ▸ List.mem_map_of_mem hw
    obtain ⟨item, hItem, hIndex⟩ := List.mem_map.mp hMem
    obtain ⟨i, -, hIndex', -, hLt, -⟩ := embedChecked_iff.mp (hChecked item hItem)
    rw [hIndex'] at hIndex
    cases hIndex
    exact hLt
  have hEntries := (@entries_read_iff py status n data).mpr fun e hError => by
    rw [hAll] at hError
    cases hError
  have hFull := scatter_full_iff hWrites hLt
  have hNumeric : EmbedReadable py n body ↔ ((data.map indexOf).Nodup → ∀ item ∈ data, ∀ emb,
      embeddingOf item = some emb → ∀ x ∈ emb, isNumber x = true) := by
    constructor
    · exact fun h => h.numeric data hData hLength hChecked
    · intro h
      refine ⟨fun payload hPayload => ?_, fun data' hData' _ => ?_, fun data' hData' _ _ => ?_⟩
      · rw [hBody] at hPayload
        cases hPayload
        rfl
      · rw [hData] at hData'
        cases hData'
        exact hEntries
      · rw [hData] at hData'
        cases hData'
        exact h
  have hBodyIff := (embedBody_iff hData).trans (embedData_iff_of_checked hLength hChecked)
  rw [hNumeric]
  by_cases hDistinct : (data.map indexOf).Nodup
  · have hParse := hBody ▸ @parseEmbed_of_full py status n modelHint fields data writes hGet hLength
      hAll (hFull.mpr (hNodup.mp hDistinct))
    constructor
    · intro h
      by_contra hNot
      obtain ⟨error, hRefused⟩ := h.refused fun hValid => hNot fun _ => (hBodyIff.mp hValid).2
      rw [hParse] at hRefused
      cases hRefused
    · intro h
      refine ⟨fun _ => ⟨_, hParse, delivers_of_writes hData hAll (hNodup.mp hDistinct) _ _⟩, ?_⟩
      exact fun hNot => absurd (hBodyIff.mpr ⟨hDistinct, h hDistinct⟩) hNot
  · obtain ⟨error, hParse⟩ := @parseEmbed_of_repeated py status n modelHint fields data writes hGet
      hLength hAll (not_not.mp fun hFull' => hDistinct (hNodup.mpr (hFull.mp hFull')))
    rw [← hBody] at hParse
    exact ⟨fun _ h => absurd h hDistinct,
      fun _ => .of_refused (fun hValid => hDistinct (hBodyIff.mp hValid).1) hParse⟩

/-- Without a list of the right length the body is refused. -/
theorem embedValidated_of_shape (hBody : body = .ok (.obj fields))
    (hShape : ∀ data, Json.get? fields "data" = some (.arr data) → data.length ≠ n) :
    EmbedValidated py status modelHint n body ∧ EmbedReadable py n body := by
  have hData : ∀ data, dataOf body = some data → data.length ≠ n := by
    intro data hData
    rw [hBody] at hData
    simp only [dataOf] at hData
    split at hData
    · rename_i hGet
      cases hData
      exact hShape _ hGet
    · cases hData
  have hParse : ∃ error, parseEmbedResponse py status body n modelHint =
      .error (.voyage error) := by
    rw [hBody]
    simp only [parseEmbedResponse, getFields]
    split
    · rename_i data hGet
      rw [if_pos (hShape data hGet)]
      exact ⟨_, rfl⟩
    · exact ⟨_, rfl⟩
  obtain ⟨error, hError⟩ := hParse
  refine ⟨.of_refused ?_ hError, fun payload hPayload => ?_, fun data h hLength => ?_,
    fun data h hLength => ?_⟩
  · rintro ⟨data, h, hValid⟩
    exact hData data h hValid.length
  · rw [hBody] at hPayload
    cases hPayload
    rfl
  · exact absurd hLength (hData data h)
  · exact absurd hLength (hData data h)

/-- A value without `get` is no `VoyageError`. -/
theorem not_embedValidated_of_not_object {payload : Json} (h : isObject payload = false) :
    ¬ EmbedValidated py status modelHint n (.ok payload) := by
  intro hValidated
  have hParse : ∃ message, parseEmbedResponse py status (.ok payload) n modelHint =
      .error (.attributeError message) := by
    cases payload with
    | obj fields => cases h
    | _ => exact ⟨_, rfl⟩
  obtain ⟨message, hError⟩ := hParse
  have hVoyage := hValidated.isVoyage hError
  cases hVoyage

theorem embedValidated_iff (n : Nat) (body : Except String Json) :
    EmbedValidated py status modelHint n body ↔ EmbedReadable py n body := by
  cases body with
  | error e =>
    have hNot : ¬ EmbedBody n (.error e) := by
      rintro ⟨data, hData, -⟩
      cases hData
    exact ⟨fun _ => ⟨fun _ h => (by cases h), fun _ h => (by cases h), fun _ h => (by cases h)⟩,
      fun _ => .of_refused hNot rfl⟩
  | ok payload =>
    cases hObject : isObject payload with
    | false =>
      refine ⟨fun h => absurd h (not_embedValidated_of_not_object hObject), fun h => ?_⟩
      rw [h.object payload rfl] at hObject
      cases hObject
    | true =>
      obtain ⟨fields, rfl⟩ : ∃ fields, payload = .obj fields := by
        cases payload with
        | obj fields => exact ⟨fields, rfl⟩
        | _ => cases hObject
      by_cases hData : ∃ data, Json.get? fields "data" = some (.arr data) ∧ data.length = n
      · obtain ⟨data, hGet, hLength⟩ := hData
        cases hAll : checkAll (embedItem py status n (firstDims data)) data with
        | error e => exact embedValidated_iff_of_error rfl hGet hLength hAll
        | ok writes => exact embedValidated_iff_of_ok rfl hGet hLength hAll
      · have hBoth := @embedValidated_of_shape py status n modelHint fields _ rfl
          fun data hGet hLength => hData ⟨data, hGet, hLength⟩
        exact ⟨fun _ => hBoth.2, fun _ => hBoth.1⟩

end Embed

end LosslessHermes.Voyage
