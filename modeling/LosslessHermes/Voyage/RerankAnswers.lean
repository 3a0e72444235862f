import LosslessHermes.Voyage.EmbedAnswers

/-!
# Answers with scores

`rerankValidated_iff` says when only a `VoyageError` is raised and the indices of a result are
distinct, in range and sorted by descending score. `responsesValidated_iff` puts it beside the
embeddings.
-/

namespace LosslessHermes.Voyage

open Scatter

variable {py : PyReading} {status n : Nat} {item : Json}

/-! ## Items of a reranking -/

section Rerank

variable {modelHint : String} {candidates : List (String × String)} {data : List Json}
  {body : Except String Json}

theorem rerankChecked_iff : rerankChecked n item = true ↔ ∃ i score, indexOf item = some i ∧
    fieldOf "relevance_score" item = some score ∧ i < n ∧ isNumber score = true := by
  unfold rerankChecked
  cases indexOf item with
  | none => simp
  | some i =>
    cases fieldOf "relevance_score" item with
    | none => simp
    | some score => simp

theorem rerankItem_of_checked (h : rerankChecked candidates.length item = true) :
    ∃ i score, indexOf item = some i ∧ fieldOf "relevance_score" item = some score ∧
      i < candidates.length ∧ rerankItem py status candidates item =
        (toFloat py score).map fun x => ⟨(candidates.getD i ("", "")).1, i, x⟩ := by
  obtain ⟨i, score, hIndex, hScore, hLt, hNumber⟩ := rerankChecked_iff.mp h
  refine ⟨i, score, hIndex, hScore, hLt, ?_⟩
  cases item with
  | obj fields =>
    have hGetScore : Json.get? fields "relevance_score" = some score := hScore
    unfold indexOf fieldOf at hIndex
    split at hIndex
    case h_2 => cases hIndex
    case h_1 idx hGetIndex =>
        have hGetIndex' : Json.get? fields "index" = some (.int idx) := hGetIndex
        split at hIndex
        · cases hIndex
        · cases hIndex
          have hRange : ¬ (idx < 0 ∨ (candidates.length : Int) ≤ idx ∨
              isNumber score = false) := by
            rintro (h | h | h)
            · omega
            · omega
            · rw [hNumber] at h
              cases h
          simp only [rerankItem, hGetScore, hGetIndex', hRange, if_false]
  | _ => cases hScore

theorem rerankItem_of_not_checked (h : rerankChecked candidates.length item = false) :
    ∃ e, rerankItem py status candidates item = .error e ∧ e.isVoyage = true := by
  cases item with
  | obj fields =>
    simp only [rerankItem]
    split
    · rename_i i score hGetIndex hGetScore
      split
      · exact ⟨_, rfl, rfl⟩
      · rename_i hRange
        have hIndex : indexOf (.obj fields) = some i.toNat := by
          simp only [indexOf, fieldOf, hGetIndex]
          exact if_neg (by omega)
        have hPass : rerankChecked candidates.length (.obj fields) = true := by
          refine rerankChecked_iff.mpr ⟨i.toNat, score, hIndex, hGetScore, by omega, ?_⟩
          by_contra hNumber
          exact hRange (.inr (.inr (Bool.eq_false_iff.mpr hNumber)))
        rw [h] at hPass
        cases hPass
    · exact ⟨_, rfl, rfl⟩
  | _ => exact ⟨_, rfl, rfl⟩

/-- What comes out of an item that passes its checks is what comes out of its score. -/
theorem rerankItem_error_iff (h : rerankChecked candidates.length item = true)
    {e : ParseFailure} : rerankItem py status candidates item = .error e ↔
      ∃ score, fieldOf "relevance_score" item = some score ∧ toFloat py score = .error e := by
  obtain ⟨i, score, -, hScore, -, hItem⟩ := @rerankItem_of_checked py status item candidates h
  rw [hItem, hScore]
  cases hFloat : toFloat py score with
  | error e' => simp [Except.map, hFloat]
  | ok x => simp [Except.map, hFloat]

theorem scores_read_iff :
    (∀ item ∈ data.takeWhile (rerankChecked candidates.length), ∀ score,
        fieldOf "relevance_score" item = some score → reads py score = true) ↔
      ∀ e, checkAll (rerankItem py status candidates) data = .error e → e.isVoyage = true := by
  have hCrash : (∃ e, checkAll (rerankItem py status candidates) data = .error e ∧
        ¬ e.isVoyage = true) ↔ ∃ item ∈ data.takeWhile (rerankChecked candidates.length),
          ∃ e, rerankItem py status candidates item = .error e := by
    refine checkAll_bad_iff (fun item h => ?_) fun item e h hError => ?_
    · obtain ⟨e, hError, hVoyage⟩ := @rerankItem_of_not_checked py status item candidates h
      exact ⟨e, hError, not_not.mpr hVoyage⟩
    · obtain ⟨score, -, hFloat⟩ := (rerankItem_error_iff h).mp hError
      simp [toFloat_not_voyage hFloat]
  constructor
  · intro h e hError
    by_contra hNot
    obtain ⟨item, hItem, e', hItemError⟩ := hCrash.mp ⟨e, hError, hNot⟩
    obtain ⟨score, hScore, hFloat⟩ :=
      (rerankItem_error_iff (List.mem_takeWhile_imp hItem)).mp hItemError
    obtain ⟨x, hx⟩ := reads_iff.mp (h item hItem score hScore)
    rw [hFloat] at hx
    cases hx
  · intro h item hItem score hScore
    refine reads_iff.mpr ?_
    cases hFloat : toFloat py score with
    | ok x => exact ⟨x, rfl⟩
    | error e =>
      have hItemError := (@rerankItem_error_iff py status item candidates
        (List.mem_takeWhile_imp hItem) e).mpr ⟨score, hScore, hFloat⟩
      obtain ⟨e', hError, hNot⟩ := hCrash.mpr ⟨item, hItem, e, hItemError⟩
      exact absurd (h e' hError) hNot

variable {items : List RerankItem}

theorem checked_of_items (h : checkAll (rerankItem py status candidates) data = .ok items) :
    (∀ item ∈ data, rerankChecked candidates.length item = true) ∧
      data.map indexOf = items.map fun r => some r.index := by
  have hAll := checkAll_eq_ok_iff.mp h
  clear h
  induction hAll with
  | nil => exact ⟨fun _ h => (by cases h), rfl⟩
  | @cons item r data items hItem _ ih =>
    have hChecked : rerankChecked candidates.length item = true := by
      by_contra hNot
      obtain ⟨e, hError, -⟩ :=
        @rerankItem_of_not_checked py status item candidates (Bool.eq_false_iff.mpr hNot)
      rw [hItem] at hError
      cases hError
    obtain ⟨i, score, hIndex, -, -, hEq⟩ :=
      @rerankItem_of_checked py status item candidates hChecked
    have hFirst : r.index = i := by
      rw [hItem] at hEq
      cases hFloat : toFloat py score with
      | error e => rw [hFloat] at hEq; cases hEq
      | ok x =>
        rw [hFloat] at hEq
        cases hEq
        rfl
    refine ⟨List.forall_mem_cons.mpr ⟨hChecked, ih.1⟩, ?_⟩
    rw [List.map_cons, List.map_cons, ih.2, hIndex, hFirst]

/-! ## The order of the scores -/

/-- `y <= x`, with NaN before everything. -/
def ParsedFloat.before (x y : ParsedFloat) : Bool :=
  match x, y with
  | .nan, _ => true
  | _, .nan => false
  | x, y => !x.lt y

theorem ParsedFloat.before_total (x y : ParsedFloat) : (x.before y || y.before x) = true := by
  cases x <;> cases y <;> simp [ParsedFloat.before, ParsedFloat.lt]
  case finite.finite x y => exact le_total y x
  case infinite.infinite a b => cases a <;> cases b <;> simp

theorem ParsedFloat.before_trans (x y z : ParsedFloat) (hxy : x.before y = true)
    (hyz : y.before z = true) : x.before z = true := by
  cases x <;> cases y <;> cases z <;> simp_all [ParsedFloat.before, ParsedFloat.lt]
  case finite.finite.finite x y z => exact hyz.trans hxy
  case infinite.infinite.infinite a b c => cases a <;> simp_all

theorem ParsedFloat.before_eq {x y : ParsedFloat} (hx : x ≠ .nan) (hy : y ≠ .nan) :
    x.before y = !x.lt y := by
  cases x <;> cases y <;> simp_all [ParsedFloat.before]

/-- Without a NaN the sort leaves no score below a later one. -/
theorem mergeSort_sorted (h : ∀ r ∈ items, r.score ≠ .nan) :
    (items.mergeSort fun a b => !a.score.lt b.score).Pairwise
      fun a b => a.score.lt b.score = false := by
  have hSame : (items.mergeSort fun a b => !a.score.lt b.score) =
      items.mergeSort fun a b => a.score.before b.score := by
    have hMap := List.map_mergeSort (r := fun a b : RerankItem => !a.score.lt b.score)
      (s := fun a b : RerankItem => a.score.before b.score) (f := id) (l := items)
      fun a ha b hb => (ParsedFloat.before_eq (h a ha) (h b hb)).symm
    rwa [List.map_id, List.map_id] at hMap
  have hSorted : (items.mergeSort fun a b => a.score.before b.score).Pairwise
      fun a b => a.score.before b.score = true :=
    List.pairwise_mergeSort (fun a b c => ParsedFloat.before_trans a.score b.score c.score)
      (fun a b => ParsedFloat.before_total a.score b.score) items
  rw [hSame]
  refine hSorted.imp_of_mem fun {a b} ha hb hBefore => ?_
  rw [ParsedFloat.before_eq (h a (List.mem_mergeSort.mp ha)) (h b (List.mem_mergeSort.mp hb)),
    Bool.not_eq_true'] at hBefore
  exact hBefore

/-! ## The answer to a reranking -/

theorem parseRerank_of_error (hBody : body = .ok (.obj fields))
    (hGet : Json.get? fields "data" = some (.arr data)) {e : ParseFailure}
    (h : checkAll (rerankItem py status candidates) data = .error e) :
    parseRerankResponse py status body candidates modelHint = .error e := by
  simp only [hBody, parseRerankResponse, getFields, hGet, h]

theorem parseRerank_of_ok (hBody : body = .ok (.obj fields))
    (hGet : Json.get? fields "data" = some (.arr data)) {items : List RerankItem}
    (h : checkAll (rerankItem py status candidates) data = .ok items) :
    parseRerankResponse py status body candidates modelHint =
      .ok ⟨items.mergeSort fun a b => !a.score.lt b.score, totalTokens fields,
        modelOr fields modelHint⟩ := by
  simp only [hBody, parseRerankResponse, getFields, hGet, h]

theorem floatOfInt_ne_nan (k : Int) : floatOfInt k ≠ some .nan := by
  unfold floatOfInt
  dsimp only
  split
  · intro h
    cases h
  · intro h
    cases h

theorem score_ne_nan (hData : dataOf body = some data)
    (hNan : NoNan py body) (h : checkAll (rerankItem py status candidates) data = .ok items) :
    ∀ r ∈ items, r.score ≠ .nan := by
  intro r hr hScore
  obtain ⟨item, hItem, hEq⟩ := exists_of_mem_checked h hr
  have hChecked := (checked_of_items h).1 item hItem
  obtain ⟨-, score, -, hField, -, hNumber⟩ := rerankChecked_iff.mp hChecked
  obtain ⟨i, score', -, hField', -, hEq'⟩ :=
    @rerankItem_of_checked py status item candidates hChecked
  rw [hField] at hField'
  cases hField'
  rw [hEq] at hEq'
  have hFloat : toFloat py score = .ok .nan := by
    cases hFloat : toFloat py score with
    | error e => rw [hFloat] at hEq'; cases hEq'
    | ok x =>
      rw [hFloat] at hEq'
      cases hEq'
      exact congrArg Except.ok hScore
  cases score with
  | float x => exact hNan data hData item hItem x hField (Except.ok.inj hFloat)
  | int k =>
    simp only [toFloat] at hFloat
    split at hFloat
    · rename_i x hInt
      cases hFloat
      exact floatOfInt_ne_nan k hInt
    · cases hFloat
  | _ => cases hNumber

theorem rerankValidated_iff_of_error (hBody : body = .ok (.obj fields))
    (hGet : Json.get? fields "data" = some (.arr data)) {e : ParseFailure}
    (hAll : checkAll (rerankItem py status candidates) data = .error e) :
    RerankValidated py status modelHint candidates body ↔
      RerankReadable py candidates.length body := by
  have hData : dataOf body = some data := hBody ▸ dataOf_obj hGet
  have hParse := @parseRerank_of_error py status modelHint candidates data body fields hBody hGet
    e hAll
  have hScores := @scores_read_iff py status candidates data
  constructor
  · intro h
    have hVoyage := h.raised e hParse
    refine ⟨fun payload hPayload => ?_, fun data' hData' => ?_, fun data' hData' hChecked => ?_⟩
    · rw [hBody] at hPayload
      cases hPayload
      rfl
    · rw [hData] at hData'
      cases hData'
      refine hScores.mpr fun e' hError => ?_
      rw [hAll] at hError
      cases hError
      exact hVoyage
    · -- an item raised the error, so not all of them pass
      rw [hData] at hData'
      cases hData'
      obtain ⟨item, hItem, hError⟩ := exists_of_checkAll_error hAll
      obtain ⟨score, -, hFloat⟩ := (rerankItem_error_iff (hChecked item hItem)).mp hError
      rw [toFloat_not_voyage hFloat] at hVoyage
      cases hVoyage
  · intro h
    have hVoyage := hScores.mp (h.scores data hData) e hAll
    refine ⟨fun e' hError => ?_, fun result hResult => ?_, fun result hResult => ?_,
      fun result hResult => ?_⟩
    · rw [hParse] at hError
      cases hError
      exact hVoyage
    all_goals
      rw [hParse] at hResult
      cases hResult

theorem rerankValidated_iff_of_ok (hBody : body = .ok (.obj fields)) (hNan : NoNan py body)
    (hGet : Json.get? fields "data" = some (.arr data))
    (hAll : checkAll (rerankItem py status candidates) data = .ok items) :
    RerankValidated py status modelHint candidates body ↔
      RerankReadable py candidates.length body := by
  have hData : dataOf body = some data := hBody ▸ dataOf_obj hGet
  have hParse := @parseRerank_of_ok py status modelHint candidates data body fields hBody hGet
    items hAll
  obtain ⟨hChecked, hIndices⟩ := checked_of_items hAll
  have hPerm := List.mergeSort_perm items fun a b => !a.score.lt b.score
  have hDistinct : (data.map indexOf).Nodup ↔
      ((items.mergeSort fun a b => !a.score.lt b.score).map (·.index)).Nodup := by
    have hMap : (items.map fun r => some r.index) = (items.map (·.index)).map some := by
      rw [List.map_map]
      rfl
    rw [(hPerm.map (·.index)).nodup_iff, hIndices, hMap,
      List.nodup_map_iff (Option.some_injective _)]
  constructor
  · intro h
    refine ⟨fun payload hPayload => ?_, fun data' hData' => ?_, fun data' hData' _ => ?_⟩
    · rw [hBody] at hPayload
      cases hPayload
      rfl
    · rw [hData] at hData'
      cases hData'
      refine (@scores_read_iff py status candidates data).mpr fun e hError => ?_
      rw [hAll] at hError
      cases hError
    · rw [hData] at hData'
      cases hData'
      exact hDistinct.mpr (h.distinct _ hParse)
  · intro h
    refine ⟨fun e hError => ?_, fun result hResult => ?_, fun result hResult => ?_,
      fun result hResult => ?_⟩
    · rw [hParse] at hError
      cases hError
    · rw [hParse] at hResult
      cases hResult
      exact hDistinct.mp (h.distinct data hData hChecked)
    · rw [hParse] at hResult
      cases hResult
      intro r hr
      have hMem : some r.index ∈ data.map indexOf :=
        hIndices ▸ List.mem_map_of_mem (hPerm.mem_iff.mp hr)
      obtain ⟨item, hItem, hIndex⟩ := List.mem_map.mp hMem
      obtain ⟨i, -, hIndex', -, hLt, -⟩ := rerankChecked_iff.mp (hChecked item hItem)
      rw [hIndex'] at hIndex
      cases hIndex
      exact hLt
    · rw [hParse] at hResult
      cases hResult
      exact mergeSort_sorted (score_ne_nan hData hNan hAll)

/-- Without a list the body is refused. -/
theorem rerankValidated_of_shape (hBody : body = .ok (.obj fields))
    (hShape : ∀ data, Json.get? fields "data" ≠ some (.arr data)) :
    RerankValidated py status modelHint candidates body ∧ RerankReadable py n body := by
  have hData : ∀ data, dataOf body ≠ some data := by
    intro data hData
    rw [hBody] at hData
    simp only [dataOf] at hData
    cases hData
  have hParse : parseRerankResponse py status body candidates modelHint =
      .error (unexpected status "rerank response missing data array") := by
    rw [hBody]
    simp only [parseRerankResponse, getFields]
  refine ⟨⟨fun e hError => ?_, fun result hResult => ?_, fun result hResult => ?_,
    fun result hResult => ?_⟩, fun payload hPayload => ?_, fun data h => absurd h (hData data),
    fun data h => absurd h (hData data)⟩
  · rw [hParse] at hError
    cases hError
    rfl
  · rw [hParse] at hResult
    cases hResult
  · rw [hParse] at hResult
    cases hResult
  · rw [hParse] at hResult
    cases hResult
  · rw [hBody] at hPayload
    cases hPayload
    rfl

theorem rerankValidated_iff (candidates : List (String × String)) (body : Except String Json)
    (hNan : NoNan py body) : RerankValidated py status modelHint candidates body ↔
      RerankReadable py candidates.length body := by
  cases body with
  | error e =>
    refine ⟨fun _ => ⟨fun _ h => (by cases h), fun _ h => (by cases h), fun _ h => (by cases h)⟩,
      fun _ => ⟨fun e' h => ?_, fun _ h => (by cases h), fun _ h => (by cases h),
        fun _ h => (by cases h)⟩⟩
    cases h
    rfl
  | ok payload =>
    cases hObject : isObject payload with
    | false =>
      constructor
      · intro h
        have hParse : ∃ message, parseRerankResponse py status (.ok payload) candidates
            modelHint = .error (.attributeError message) := by
          cases payload with
          | obj fields => cases hObject
          | _ => exact ⟨_, rfl⟩
        obtain ⟨message, hError⟩ := hParse
        have hVoyage := h.raised _ hError
        cases hVoyage
      · intro h
        rw [h.object payload rfl] at hObject
        cases hObject
    | true =>
      obtain ⟨fields, rfl⟩ : ∃ fields, payload = .obj fields := by
        cases payload with
        | obj fields => exact ⟨fields, rfl⟩
        | _ => cases hObject
      by_cases hData : ∃ data, Json.get? fields "data" = some (.arr data)
      · obtain ⟨data, hGet⟩ := hData
        cases hAll : checkAll (rerankItem py status candidates) data with
        | error e => exact rerankValidated_iff_of_error rfl hGet hAll
        | ok items => exact rerankValidated_iff_of_ok rfl hNan hGet hAll
      · have hBoth := @rerankValidated_of_shape py status candidates.length modelHint
          candidates _ fields rfl fun data hGet => hData ⟨data, hGet⟩
        exact ⟨fun _ => hBoth.2, fun _ => hBoth.1⟩

end Rerank

/-- When both parsers do with an answer what they should. -/
theorem responsesValidated_iff (py : PyReading) (status : Nat) (modelHint : String) :
    (∀ n body, EmbedValidated py status modelHint n body ↔ EmbedReadable py n body) ∧
    (∀ candidates body, NoNan py body →
      (RerankValidated py status modelHint candidates body ↔
        RerankReadable py candidates.length body)) :=
  ⟨embedValidated_iff, rerankValidated_iff⟩

/-- Two results for one document, and none for the other, are returned. -/
theorem not_rerankValidated_repeated :
    ¬ RerankValidated ⟨fun _ => .finite 0, fun _ => none, fun _ => ""⟩ 200 "rerank-2.5"
      [("a", "first"), ("b", "second")]
      (.ok (.obj [("data", .arr [.obj [("index", .int 0), ("relevance_score", .int 1)],
        .obj [("index", .int 0), ("relevance_score", .int 1)]])])) := by
  intro h
  have hReadable := ((responsesValidated_iff _ _ _).2 _ _ (by
    intro data hData item hItem x hField
    cases hData
    rcases List.mem_pair.mp hItem with rfl | rfl
    · cases hField
    · cases hField)).mp h
  exact absurd (hReadable.distinct _ rfl (by decide)) (by decide)

/-- A body that is a list has no `get`. -/
theorem not_responsesValidated :
    ¬ ∀ py status modelHint, (∀ n body, EmbedValidated py status modelHint n body) ∧
      ∀ candidates body, NoNan py body → RerankValidated py status modelHint candidates body := by
  intro h
  exact not_embedValidated_of_not_object rfl
    ((h ⟨fun _ => .finite 0, fun _ => none, fun _ => ""⟩ 200 "voyage-4-large").1 1 (.ok (.arr [])))

end LosslessHermes.Voyage
