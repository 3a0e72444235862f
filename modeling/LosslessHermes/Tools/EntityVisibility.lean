import LosslessHermes.Operator.Ancestors
import LosslessHermes.Tools.Entities

/-!
# Purged entities are not seen

Two databases that differ in hidden rows only: mentions of suppressed summaries, and entities
without any other mention. `handleLcmGetEntity_eq` says that a lookup answers the same in both.
A search that finds nothing probes the catalogue without the suppression filter;
`indistinguishable_iff` says when that shows no difference.
-/

namespace LosslessHermes.Tools

/-- The entity has a mention that is not suppressed. -/
def IsShown (db : EntityDb) (e : EntityRow) : Prop :=
  mentionsOf db e.entityId ≠ []

instance (db : EntityDb) (e : EntityRow) : Decidable (IsShown db e) :=
  inferInstanceAs (Decidable (mentionsOf db e.entityId ≠ []))

/-- The two agree except for hidden rows. -/
structure AgreeOnShown (db db' : EntityDb) : Prop where
  summaries : db.summaries = db'.summaries
  mentions : visibleMentions db = visibleMentions db'
  entities : db.entities.filter (fun e => IsShown db e) =
    db'.entities.filter fun e => IsShown db' e
  metadata : ∀ e ∈ db.entities, IsShown db e → db.metadata e.entityId = db'.metadata e.entityId

variable {db db' : EntityDb} {py : Python}

/-! ## The queries -/

theorem mentionsOf_eq (h : AgreeOnShown db db') : mentionsOf db = mentionsOf db' := by
  funext entityId
  unfold mentionsOf
  rw [h.mentions]

theorem entityAgg_eq (h : AgreeOnShown db db') : entityAgg db = entityAgg db' := by
  funext entityId
  unfold entityAgg
  rw [mentionsOf_eq h]

/-- A hidden entity has no row in the join. -/
theorem isSome_joined_iff {e : EntityRow} : (joined db e).isSome = true ↔ IsShown db e := by
  unfold joined entityAgg IsShown
  rw [Option.isSome_map, Option.isSome_map, List.isSome_head?]
  refine not_congr ⟨fun hSorted => ?_, fun hNone => ?_⟩
  · exact List.perm_nil.mp (hSorted ▸ (List.perm_insertionSort _ _).symm)
  · rw [hNone]
    rfl

theorem catalogue_eq_filter : catalogue db =
    (db.entities.filter fun e => IsShown db e).filterMap (joined db) := by
  unfold catalogue
  rw [List.filterMap_filter]
  refine List.filterMap_congr fun e _ => ?_
  split
  · rfl
  · rename_i hHidden
    have hNone := mt isSome_joined_iff.mp (of_decide_eq_false (Bool.eq_false_iff.mpr hHidden))
    exact Option.not_isSome_iff_eq_none.mp hNone

theorem catalogue_eq (h : AgreeOnShown db db') : catalogue db = catalogue db' := by
  rw [catalogue_eq_filter, catalogue_eq_filter, ← h.entities]
  refine List.filterMap_congr fun e hMem => ?_
  obtain ⟨hEntity, hShown⟩ := List.mem_filter.mp hMem
  unfold joined
  rw [entityAgg_eq h, h.metadata e hEntity (of_decide_eq_true hShown)]

/-- A lookup does not see what is hidden. -/
theorem handleLcmGetEntity_eq (h : AgreeOnShown db db') (args : List (String × Json))
    (sessionKey : Option String) :
    handleLcmGetEntity py db args sessionKey = handleLcmGetEntity py db' args sessionKey := by
  have hLookup : lookupEntity db = lookupEntity db' := by
    unfold lookupEntity
    rw [catalogue_eq h]
  have hMentions : mentionList db = mentionList db' := by
    unfold mentionList
    rw [mentionsOf_eq h]
  unfold handleLcmGetEntity
  rw [hLookup, hMentions]

theorem searchRows_eq (h : AgreeOnShown db db') : searchRows db = searchRows db' := by
  unfold searchRows
  rw [catalogue_eq h, mentionsOf_eq h]

/-! ## A search that finds nothing -/

def Matches (request : SearchRequest) (e : EntityRow) : Prop :=
  e.sessionKey = request.key ∧ matchesQuery request.query request.mode e.canonicalText = true ∧
    request.entityType.all (e.entityType = ·) = true

theorem exists_lookup {e : EntityRow} (h : IsShown db e) : ∃ row, joined db e = some row ∧
    row.entityId = e.entityId ∧ row.sessionKey = e.sessionKey ∧
      row.canonicalText = e.canonicalText ∧ row.entityType = e.entityType := by
  obtain ⟨row, hRow⟩ := Option.isSome_iff_exists.mp (isSome_joined_iff.mpr h)
  obtain ⟨agg, -, hJoined⟩ := Option.map_eq_some_iff.mp hRow
  subst hJoined
  exact ⟨_, hRow, rfl, rfl, rfl, rfl⟩

variable {request : SearchRequest}

/-- No shown entity matches. -/
theorem searchRows_eq_nil_iff (hLimit : 0 < request.limit) :
    searchRows db request.key request.query request.mode request.entityType request.limit = [] ↔
      ∀ e ∈ db.entities, IsShown db e → ¬ Matches request e := by
  have hTake : ∀ rows : List EntityLookup, rows.take request.limit = [] ↔ rows = [] := by
    intro rows
    rw [List.take_eq_nil_iff, or_iff_right (Nat.pos_iff_ne_zero.mp hLimit)]
  unfold searchRows
  rw [hTake, ← List.length_eq_zero_iff, List.length_insertionSort, List.length_eq_zero_iff,
    List.filter_eq_nil_iff]
  constructor
  · rintro hNone e hEntity hShown ⟨hKey, hQuery, hType⟩
    obtain ⟨row, hRow, hId, hRowKey, hText, hKind⟩ := exists_lookup hShown
    refine hNone row (List.mem_filterMap.mpr ⟨e, hEntity, hRow⟩) (decide_eq_true ?_)
    rw [hId, hRowKey, hText, hKind]
    exact ⟨hKey, hShown, hQuery, hType⟩
  · intro hNone row hRow hFound
    obtain ⟨e, hEntity, hJoined⟩ := List.mem_filterMap.mp hRow
    have hShown := isSome_joined_iff.mp (Option.isSome_iff_exists.mpr ⟨row, hJoined⟩)
    obtain ⟨row', hRow', hId, hRowKey, hText, hKind⟩ := exists_lookup hShown
    cases hJoined.symm.trans hRow'
    obtain ⟨hKey, -, hQuery, hType⟩ := of_decide_eq_true hFound
    exact hNone e hEntity hShown ⟨hRowKey ▸ hKey, hText ▸ hQuery, hKind ▸ hType⟩

/-- Both catalogues have entries of the session or neither has, and both have entries or neither
has. -/
def SameEntries (db db' : EntityDb) (key : String) : Prop :=
  ((∃ e ∈ db.entities, e.sessionKey = key) ↔ ∃ e ∈ db'.entities, e.sessionKey = key) ∧
    (db.entities = [] ↔ db'.entities = [])

variable {key : String}

theorem catalogStatus_eq_active_iff :
    catalogStatus db key = "active" ↔ ∃ e ∈ db.entities, e.sessionKey = key := by
  unfold catalogStatus
  by_cases hSession : ∃ e ∈ db.entities, e.sessionKey = key
  · rw [if_pos (by simpa using hSession)]
    exact iff_of_true rfl hSession
  · rw [if_neg (by simpa using hSession)]
    refine iff_of_false ?_ hSession
    split
    · decide
    · decide

theorem catalogStatus_eq_globally_iff {key : String} :
    catalogStatus db key = "empty-globally" ↔ db.entities = [] := by
  unfold catalogStatus
  by_cases hEmpty : db.entities = []
  · rw [hEmpty]
    exact iff_of_true rfl rfl
  · rw [if_neg hEmpty]
    refine iff_of_false ?_ hEmpty
    split
    · decide
    · decide

theorem catalogStatus_cases (db : EntityDb) (key : String) : catalogStatus db key = "active" ∨
    catalogStatus db key = "empty-globally" ∨ catalogStatus db key = "empty-for-session" := by
  unfold catalogStatus
  split
  · exact Or.inl rfl
  · split
    · exact Or.inr (Or.inl rfl)
    · exact Or.inr (Or.inr rfl)

theorem catalogStatus_eq_iff :
    catalogStatus db key = catalogStatus db' key ↔ SameEntries db db' key := by
  unfold SameEntries
  rw [← catalogStatus_eq_active_iff, ← catalogStatus_eq_active_iff,
    ← @catalogStatus_eq_globally_iff db key, ← @catalogStatus_eq_globally_iff db' key]
  constructor
  · intro hSame
    rw [hSame]
    exact ⟨Iff.rfl, Iff.rfl⟩
  · rintro ⟨hActive, hGlobally⟩
    rcases catalogStatus_cases db key with hStatus | hStatus | hStatus
    · rw [hStatus, hActive.mp hStatus]
    · rw [hStatus, hGlobally.mp hStatus]
    · rcases catalogStatus_cases db' key with hStatus' | hStatus' | hStatus'
      · rw [hStatus', hActive.mpr hStatus']
      · rw [hStatus', hGlobally.mpr hStatus']
      · rw [hStatus, hStatus']

/-! ## The search -/

variable {limit : Nat}

/-- The texts of two results without rows differ if their statuses do. -/
theorem status_of_toolResult {query mode : String} {entityType : Option String}
    {status status' : String}
    (h : toolResult (searchPayload py key query mode entityType limit [] status) =
      toolResult (searchPayload py key query mode entityType limit [] status')) :
    status = status' := by
  have hWell : ∀ status, Json.WellFormed id
      (searchPayload py key query mode entityType limit [] status) := by
    intro status
    cases entityType with
    | none => simp [searchPayload, optionalText, Json.WellFormed, Json.WellFormedFields,
        Json.WellFormedItems]
    | some kind => simp [searchPayload, optionalText, Json.WellFormed, Json.WellFormedFields,
        Json.WellFormedItems]
  have hSame := Json.dumps_injective (hWell status) (hWell status') h
  unfold searchPayload at hSame
  simp only [Json.obj.injEq, List.cons.injEq, Prod.mk.injEq, Json.str.injEq, true_and,
    and_true] at hSame
  exact hSame.2

/-- A search shows a difference exactly if it finds nothing and the probes differ. -/
theorem searchEntities_eq_iff (h : AgreeOnShown db db') (hLimit : 0 < request.limit) :
    searchEntities py db request = searchEntities py db' request ↔
      ((∀ e ∈ db.entities, IsShown db e → ¬ Matches request e) →
        SameEntries db db' request.key) := by
  rw [← searchRows_eq_nil_iff hLimit, ← catalogStatus_eq_iff]
  unfold searchEntities
  rw [← searchRows_eq h]
  dsimp only
  by_cases hNone : searchRows db request.key request.query request.mode request.entityType
      request.limit = []
  · rw [hNone, forall_prop_of_true rfl]
    constructor
    · exact fun hSame => status_of_toolResult hSame
    · intro hStatus
      rw [List.length_nil, if_pos rfl, if_pos rfl, hStatus]
  · have hFound := mt List.length_eq_zero_iff.mp hNone
    rw [if_neg hFound, if_neg hFound]
    exact iff_of_true rfl fun hNil => absurd hNil hNone

theorem intOf_clamp_pos {minimum maximum : Int} (hMinimum : 0 < minimum)
    (hMaximum : minimum ≤ maximum) {value : Number}
    (h : intOf (clamp minimum maximum value) = .ok limit) : 0 < limit := by
  cases value with
  | whole n =>
    cases h
    split
    · omega
    · split <;> omega
  | infinite negative =>
    cases h
    cases negative with
    | true => exact Int.pos_iff_toNat_pos.mp hMinimum
    | false => exact Int.pos_iff_toNat_pos.mp (hMinimum.trans_le hMaximum)
  | nan => cases h

variable {args : List (String × Json)}

/-- A limit that was read is positive. -/
theorem intOf_readNumberParam_pos
    {minimum maximum default : Int} (hMinimum : 0 < minimum) (hMaximum : minimum ≤ maximum)
    (hDefault : 0 < default) {value : Number}
    (h : readNumberParam py args key minimum maximum default = .ok value)
    (hLimit : intOf value = .ok limit) : 0 < limit := by
  have hOfDefault : ∀ {limit : Nat}, intOf (.whole default) = .ok limit → 0 < limit := by
    rintro limit ⟨⟩
    exact Int.pos_iff_toNat_pos.mp hDefault
  have hOfMap : ∀ {read : Except String Number}, read.map (clamp minimum maximum) = .ok value →
      0 < limit := by
    intro read hRead
    cases read with
    | error message => cases hRead
    | ok number =>
      cases hRead
      exact intOf_clamp_pos hMinimum hMaximum hLimit
  unfold readNumberParam at h
  split at h
  · cases h
    exact hOfDefault hLimit
  · cases h
    exact hOfDefault hLimit
  · split at h
    · cases h
      exact hOfDefault hLimit
    · split at h
      · cases h
        exact intOf_clamp_pos hMinimum hMaximum hLimit
      · cases h
  · exact hOfMap h
  · exact hOfMap h
  · cases h

theorem limit_pos {sessionKey : Option String}
    (h : readSearch py args sessionKey = .ok (.inl request)) :
    0 < request.limit := by
  unfold readSearch at h
  simp only [bind, Except.bind, pure, Except.pure] at h
  split at h
  · cases h
  · split at h
    · cases h
    · split at h
      · cases h
      · split at h
        · cases h
        · split at h
          · cases h
          · split at h
            · cases h
            · rename_i value hValue
              split at h
              · cases h
              · rename_i limit hLimit
                cases h
                exact intOf_readNumberParam_pos (by decide) (by decide) (by decide) hValue hLimit

/-! ## The two tools -/

theorem handleLcmSearchEntities_of_inl (db : EntityDb) {sessionKey : Option String}
    (h : readSearch py args sessionKey = .ok (.inl request)) :
    handleLcmSearchEntities py db args sessionKey = .ok (searchEntities py db request) := by
  unfold handleLcmSearchEntities
  rw [h]
  rfl

theorem handleLcmSearchEntities_eq_iff (h : AgreeOnShown db db') (py : Python)
    (args : List (String × Json)) (sessionKey : Option String) :
    handleLcmSearchEntities py db args sessionKey =
        handleLcmSearchEntities py db' args sessionKey ↔
      ∀ request, readSearch py args sessionKey = .ok (.inl request) →
        (∀ e ∈ db.entities, IsShown db e → ¬ Matches request e) →
          SameEntries db db' request.key := by
  cases hRead : readSearch py args sessionKey with
  | error message =>
    refine iff_of_true ?_ fun _ hRequest => nomatch hRequest
    unfold handleLcmSearchEntities
    rw [hRead]
    exact Eq.refl (Except.error message : Except String String)
  | ok read =>
    cases read with
    | inr answer =>
      refine iff_of_true ?_ fun _ hRequest => nomatch hRequest
      unfold handleLcmSearchEntities
      rw [hRead]
      exact Eq.refl (Except.ok answer : Except String String)
    | inl request =>
      rw [handleLcmSearchEntities_of_inl db hRead, handleLcmSearchEntities_of_inl db' hRead,
        Except.ok.injEq, searchEntities_eq_iff h (limit_pos hRead)]
      constructor
      · rintro hEntries request' hRequest
        cases hRequest
        exact hEntries
      · exact fun hAll => hAll request rfl

/-- Both tools answer the same on databases that differ in hidden rows only, exactly if a search
that finds nothing has the same entries to probe. -/
theorem indistinguishable_iff (h : AgreeOnShown db db') (py : Python)
    (args : List (String × Json)) (sessionKey : Option String) :
    (handleLcmGetEntity py db args sessionKey = handleLcmGetEntity py db' args sessionKey ∧
      handleLcmSearchEntities py db args sessionKey =
        handleLcmSearchEntities py db' args sessionKey) ↔
      ∀ request, readSearch py args sessionKey = .ok (.inl request) →
        (∀ e ∈ db.entities, IsShown db e → ¬ Matches request e) →
          SameEntries db db' request.key := by
  rw [and_iff_right (handleLcmGetEntity_eq h args sessionKey)]
  exact handleLcmSearchEntities_eq_iff h py args sessionKey

/-! ## A purged entity that shows -/

/-- A catalogue without rows. -/
def emptyCatalogue : EntityDb :=
  { OperatorDb.ofDb { Db.empty with
      summaries := [⟨"leaf", 1, .leaf, 0, "", 1, [], none, none, 0, 0, 1, "m", 0, some 9⟩] } with
    queue := []
    entities := []
    mentions := []
    entityTypes := []
    metadata := fun _ => none }

/-- The only mention is in a leaf that was purged. -/
def purgedEntity : EntityDb :=
  { emptyCatalogue with
    entities := [⟨"ent_1", "agent:main:main", "PR 7", "pr_number", 0, 0, some "leaf", 1⟩]
    mentions := [⟨"men_1", "ent_1", "leaf", "PR 7", none, none, 0⟩] }

def asciiPython : Python where
  lower s := String.ofList (Text.lower s.toList)
  casefold s := String.ofList (Text.lower s.toList)
  float raw := match raw with
    | .int n => .ok (.whole n)
    | _ => .error "could not convert string to float"
  canonical := id
  timestampText at' := toString at'
  formatDisplayTime text := text

def searchArgs : List (String × Json) := [("query", .str "PR 7")]

theorem agreeOnShown_purgedEntity : AgreeOnShown purgedEntity emptyCatalogue := by
  have hHidden : ∀ e ∈ purgedEntity.entities, ¬ IsShown purgedEntity e := by decide +kernel
  refine ⟨rfl, by decide +kernel, by decide +kernel, fun e hEntity hShown => ?_⟩
  exact absurd hShown (hHidden e hEntity)

/-- The search tells a catalogue with a purged entity from one without entities. -/
theorem purged_entity_shows :
    AgreeOnShown purgedEntity emptyCatalogue ∧
      catalogStatus purgedEntity "agent:main:main" = "active" ∧
      catalogStatus emptyCatalogue "agent:main:main" = "empty-globally" ∧
      handleLcmSearchEntities asciiPython purgedEntity searchArgs (some "agent:main:main") ≠
        handleLcmSearchEntities asciiPython emptyCatalogue searchArgs
          (some "agent:main:main") := by
  refine ⟨agreeOnShown_purgedEntity, by decide +kernel, by decide +kernel, fun hSame => ?_⟩
  have hEntries := (handleLcmSearchEntities_eq_iff agreeOnShown_purgedEntity asciiPython searchArgs
    (some "agent:main:main")).mp hSame ⟨"agent:main:main", "PR 7", "like", none, 20⟩ ?_ ?_
  · exact absurd hEntries.2 (by decide +kernel)
  · rfl
  · intro e hEntity hShown
    exact absurd hShown ((by decide +kernel : ∀ e ∈ purgedEntity.entities,
      ¬ IsShown purgedEntity e) e hEntity)

theorem indistinguishable_iff_purgedEntity :
    (handleLcmGetEntity asciiPython purgedEntity searchArgs (some "agent:main:other") =
        handleLcmGetEntity asciiPython emptyCatalogue searchArgs (some "agent:main:other") ∧
      handleLcmSearchEntities asciiPython purgedEntity searchArgs (some "agent:main:other") =
        handleLcmSearchEntities asciiPython emptyCatalogue searchArgs
          (some "agent:main:other")) ↔
      ∀ request, readSearch asciiPython searchArgs (some "agent:main:other") =
          .ok (.inl request) →
        (∀ e ∈ purgedEntity.entities, IsShown purgedEntity e → ¬ Matches request e) →
          SameEntries purgedEntity emptyCatalogue request.key :=
  indistinguishable_iff agreeOnShown_purgedEntity asciiPython searchArgs (some "agent:main:other")

end LosslessHermes.Tools
