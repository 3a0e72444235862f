import LosslessHermes.Compaction.Passes
import LosslessHermes.Store.ContextRange

/-!
# The fresh tail stays where it is

The boundary of the fresh tail is an ordinal that is computed anew for every pass.
`filter_freshTail` reads it as a suffix of the context. By `freshTail_replace` this
suffix stays the same when items in front of it are replaced by a summary.
-/

namespace LosslessHermes.Compaction

/-- The raw messages of a context, oldest first. -/
def rawIds (refs : List ContextItemRef) : List MessageId :=
  refs.filterMap fun ref =>
    match ref with
    | .message m => some m
    | .summary _ => none

@[simp] theorem rawIds_append (refs refs' : List ContextItemRef) :
    rawIds (refs ++ refs') = rawIds refs ++ rawIds refs' :=
  List.filterMap_append

@[simp] theorem rawIds_message (m : MessageId) (refs : List ContextItemRef) :
    rawIds (.message m :: refs) = m :: rawIds refs := rfl

@[simp] theorem rawIds_summary (s : SummaryId) (refs : List ContextItemRef) :
    rawIds (.summary s :: refs) = rawIds refs := rfl

/-! ## How many messages are protected -/

/-- The walk of `freshTailWalk`, from the newest message, without the ordinals. -/
def protectedCount (cost : MessageId → Nat) (count : Int) (maxTokens : Option Int) :
    List MessageId → Nat → Nat → Nat
  | [], protectedCount, _ => protectedCount
  | m :: rest, n, tokens =>
      if count ≤ n then n
      else if 0 < n ∧ ∃ cap ∈ maxTokens, cap < tokens + cost m then n
      else protectedCount cost count maxTokens rest (n + 1) (tokens + cost m)

theorem le_protectedCount (cost : MessageId → Nat) (count : Int) (maxTokens : Option Int)
    (ids : List MessageId) (n tokens : Nat) :
    n ≤ protectedCount cost count maxTokens ids n tokens := by
  induction ids generalizing n tokens with
  | nil => exact Nat.le_refl _
  | cons m rest ih =>
    rw [protectedCount]
    split
    · exact Nat.le_refl _
    · split
      · exact Nat.le_refl _
      · exact (Nat.le_succ n).trans (ih (n + 1) (tokens + cost m))

theorem freshTailWalk_eq (db : Db) (count : Int) (maxTokens : Option Int)
    (raws : List (Int × MessageId)) (n tokens : Nat) (tailStart : Int) :
    ∃ k, k ≤ raws.length ∧
      protectedCount (getMessageTokenCount db) count maxTokens (raws.map (·.2)) n tokens = n + k ∧
      freshTailWalk db count maxTokens raws n tokens tailStart =
        (((raws.take k).getLast?).map (·.1)).getD tailStart := by
  induction raws generalizing n tokens tailStart with
  | nil => exact ⟨0, Nat.le_refl _, rfl, rfl⟩
  | cons raw raws ih =>
    obtain ⟨ordinal, m⟩ := raw
    rw [List.map_cons, protectedCount, freshTailWalk]
    split
    · exact ⟨0, Nat.zero_le _, rfl, rfl⟩
    · dsimp only
      split
      · exact ⟨0, Nat.zero_le _, rfl, rfl⟩
      · obtain ⟨k, hk, hCount, hWalk⟩ :=
          ih (n + 1) (tokens + getMessageTokenCount db m) ordinal
        refine ⟨k + 1, Nat.succ_le_succ hk, by omega, ?_⟩
        rw [hWalk, List.take_succ_cons, List.getLast?_cons]
        cases (raws.take k).getLast? <;> rfl

/-- The walk only looks at the messages that it protects and at the next one. -/
theorem protectedCount_congr (cost : MessageId → Nat) (count : Int) (maxTokens : Option Int)
    {kept rest rest' : List MessageId} {n tokens : Nat}
    (h : protectedCount cost count maxTokens (kept ++ rest) n tokens = n + kept.length)
    (hHead : rest' = [] ∨ rest'.head? = rest.head?) :
    protectedCount cost count maxTokens (kept ++ rest') n tokens = n + kept.length := by
  induction kept generalizing n tokens with
  | nil =>
    rcases hHead with rfl | hHead
    · rfl
    · cases rest' with
      | nil => rfl
      | cons m rest' =>
        cases rest with
        | nil => cases hHead
        | cons m' rest =>
          obtain rfl : m = m' := by simpa using hHead
          rw [List.nil_append, protectedCount] at h ⊢
          split
          · rfl
          · rename_i hBelow
            rw [if_neg hBelow] at h
            split
            · rfl
            · rename_i hFits
              rw [if_neg hFits] at h
              have hLe := le_protectedCount cost count maxTokens rest (n + 1)
                (tokens + cost m)
              rw [h, List.length_nil] at hLe
              omega
  | cons m kept ih =>
    rw [List.cons_append, protectedCount] at h ⊢
    split
    · rename_i hFull
      rw [if_pos hFull, List.length_cons] at h
      omega
    · rename_i hBelow
      rw [if_neg hBelow] at h
      split
      · rename_i hStop
        rw [if_pos hStop, List.length_cons] at h
        omega
      · rename_i hFits
        rw [if_neg hFits, List.length_cons] at h
        rw [ih (by omega), List.length_cons]
        omega

/-! ## The protected suffix -/

/-- The suffix that starts at a raw message and has the given number of them. -/
def suffixWith (k : Nat) : List ContextItemRef → List ContextItemRef
  | [] => []
  | .message m :: rest =>
      if (rawIds rest).length + 1 = k then .message m :: rest else suffixWith k rest
  | .summary _ :: rest => suffixWith k rest

theorem suffixWith_append (front back : List ContextItemRef) (m : MessageId) :
    suffixWith ((rawIds back).length + 1) (front ++ .message m :: back) = .message m :: back := by
  induction front with
  | nil => rw [List.nil_append, suffixWith, if_pos rfl]
  | cons ref front ih =>
    cases ref with
    | summary s => exact ih
    | message m' =>
      rw [List.cons_append, suffixWith, if_neg]
      · exact ih
      · simp only [rawIds_append, rawIds_message, List.length_append, List.length_cons]
        omega

theorem suffixWith_zero (refs : List ContextItemRef) : suffixWith 0 refs = [] := by
  induction refs with
  | nil => rfl
  | cons ref refs ih =>
    cases ref with
    | summary s => exact ih
    | message m =>
      rw [suffixWith, if_neg (by omega)]
      exact ih

theorem exists_suffix {refs : List ContextItemRef} {k : Nat} (hPos : 0 < k)
    (hk : k ≤ (rawIds refs).length) :
    ∃ front m back, refs = front ++ .message m :: back ∧ (rawIds back).length + 1 = k := by
  induction refs with
  | nil =>
    have hZero : k ≤ 0 := hk
    omega
  | cons ref refs ih =>
    by_cases hRest : k ≤ (rawIds refs).length
    · obtain ⟨front, m, back, hSplit, hBack⟩ := ih hRest
      exact ⟨ref :: front, m, back, by rw [hSplit, List.cons_append], hBack⟩
    · cases ref with
      | summary s => exact absurd hk hRest
      | message m =>
        rw [rawIds_message, List.length_cons] at hk
        exact ⟨[], m, refs, rfl, by omega⟩

section FreshTail

variable (db : Db) (config : CompactionConfig)

/-- How many of the newest raw messages of a context the fresh tail has. -/
def freshTailLength (refs : List ContextItemRef) : Nat :=
  if resolveFreshTailCount config ≤ 0 then 0
  else
    protectedCount (getMessageTokenCount db) (resolveFreshTailCount config)
      (resolveFreshTailMaxTokens config) (rawIds refs).reverse 0 0

/-- The fresh tail of a context, as a suffix of it. -/
def freshTail (refs : List ContextItemRef) : List ContextItemRef :=
  suffixWith (freshTailLength db config refs) refs

variable {db config}

theorem freshTailLength_le (refs : List ContextItemRef) :
    freshTailLength db config refs ≤ (rawIds refs).length := by
  unfold freshTailLength
  split
  · exact Nat.zero_le _
  · obtain ⟨k, hk, hCount, -⟩ := freshTailWalk_eq db (resolveFreshTailCount config)
      (resolveFreshTailMaxTokens config) ((rawIds refs).reverse.map fun m => ((0 : Int), m)) 0 0 0
    rw [List.map_map] at hCount
    rw [List.length_map, List.length_reverse] at hk
    have hSame : (rawIds refs).reverse.map ((fun raw : Int × MessageId => raw.2) ∘
        fun m => ((0 : Int), m)) = (rawIds refs).reverse := List.map_id _
    rw [hSame] at hCount
    omega

theorem freshTail_cases (refs : List ContextItemRef) :
    (freshTail db config refs = [] ∧ freshTailLength db config refs = 0) ∨
      ∃ front m back, refs = front ++ .message m :: back ∧
        freshTail db config refs = .message m :: back ∧
        freshTailLength db config refs = (rawIds back).length + 1 := by
  rcases Nat.eq_zero_or_pos (freshTailLength db config refs) with hZero | hPos
  · exact Or.inl ⟨by rw [freshTail, hZero, suffixWith_zero], hZero⟩
  · obtain ⟨front, m, back, hSplit, hBack⟩ := exists_suffix hPos (freshTailLength_le refs)
    refine Or.inr ⟨front, m, back, hSplit, ?_, hBack.symm⟩
    rw [freshTail, ← hBack]
    conv_lhs => rw [hSplit]
    exact suffixWith_append front back m

theorem freshTail_suffix (refs : List ContextItemRef) :
    ∃ front, refs = front ++ freshTail db config refs := by
  rcases @freshTail_cases db config refs with ⟨hNil, -⟩ | ⟨front, m, back, hSplit, hTail, -⟩
  · exact ⟨refs, by rw [hNil, List.append_nil]⟩
  · exact ⟨front, by rw [hTail]; exact hSplit⟩

theorem rawIds_freshTail (refs : List ContextItemRef) :
    (rawIds (freshTail db config refs)).length = freshTailLength db config refs := by
  rcases @freshTail_cases db config refs with ⟨hNil, hZero⟩ | ⟨_, m, back, -, hTail, hLength⟩
  · rw [hNil, hZero]
    rfl
  · rw [hTail, hLength]
    rfl

/-- **The fresh tail is the same suffix after a chunk in front of it was replaced**,
when the chunk has no message, or no message is older than those of the chunk. -/
theorem freshTail_replace {db' : Db}
    (hCost : ∀ m, getMessageTokenCount db' m = getMessageTokenCount db m)
    {before chunk between : List ContextItemRef} {refs : List ContextItemRef}
    (hRefs : refs = before ++ chunk ++ between ++ freshTail db config refs)
    (hRaw : rawIds before = [] ∨ rawIds chunk = []) (s : SummaryId) :
    freshTail db' config (before ++ [.summary s] ++ between ++ freshTail db config refs) =
      freshTail db config refs := by
  generalize hNew : before ++ [.summary s] ++ between ++ freshTail db config refs = refs'
  have hRawNew : rawIds refs' =
      rawIds before ++ rawIds between ++ rawIds (freshTail db config refs) := by
    rw [← hNew]
    simp [rawIds]
  have hRawOld : rawIds refs = rawIds before ++ rawIds chunk ++ rawIds between ++
      rawIds (freshTail db config refs) := by
    conv_lhs => rw [hRefs]
    simp
  have hLength : freshTailLength db' config refs' = freshTailLength db config refs := by
    unfold freshTailLength
    split
    · rfl
    · rename_i hCount
      have hOld := @rawIds_freshTail db config refs
      rw [freshTailLength, if_neg hCount, hRawOld, List.reverse_append, ← List.length_reverse,
        ← Nat.zero_add (rawIds (freshTail db config refs)).reverse.length] at hOld
      have hHead : (rawIds before ++ rawIds between).reverse = [] ∨
          (rawIds before ++ rawIds between).reverse.head? =
            (rawIds before ++ rawIds chunk ++ rawIds between).reverse.head? := by
        -- the next message is the same, or there is none any more
        simp only [List.reverse_append]
        cases hBetween : (rawIds between).reverse with
        | cons m rest => exact Or.inr rfl
        | nil =>
          rcases hRaw with hNone | hNone
          · rw [hNone]
            exact Or.inl rfl
          · rw [hNone]
            exact Or.inr rfl
      have hWalk := protectedCount_congr _ _ _ hOld.symm hHead
      rw [funext hCost, hRawNew, hRawOld, List.reverse_append, hWalk, List.reverse_append, ← hOld]
  have hSuffix : suffixWith (freshTailLength db config refs) refs' = freshTail db config refs := by
    rcases @freshTail_cases db config refs with ⟨hNil, hZero⟩ | ⟨_, m, back, -, hTail, hBack⟩
    · rw [hZero, suffixWith_zero, hNil]
    · rw [hBack, hTail, ← hNew, hTail]
      exact suffixWith_append _ back m
  rw [freshTail, hLength, hSuffix]

/-! ## The boundary as an ordinal -/

/-- The ordinals of a context, below the one that stands for no boundary. -/
structure WithinBounds (items : List ContextItemRecord) : Prop extends Ordered items where
  bound : ∀ i ∈ items, i.ordinal < emptyFreshTailOrdinal

theorem filter_of_sorted {front back : List ContextItemRecord} {item : ContextItemRecord}
    (h : (front ++ item :: back).Pairwise fun a b => a.ordinal < b.ordinal) :
    (front ++ item :: back).filter (fun i => item.ordinal ≤ i.ordinal) = item :: back := by
  obtain ⟨-, hBack, hAcross⟩ := List.pairwise_append.mp h
  rw [List.filter_append, List.filter_eq_nil_iff.mpr, List.filter_eq_self.mpr, List.nil_append]
  · intro i hi
    rcases List.mem_cons.mp hi with rfl | hi
    · simp
    · have hLt := List.rel_of_pairwise_cons hBack hi
      simp only [decide_eq_true_eq]
      omega
  · intro i hi
    have hLt := hAcross i hi item List.mem_cons_self
    simp only [decide_eq_true_eq]
    omega

/-- The raw messages with their ordinals. -/
def rawItems (items : List ContextItemRecord) : List (Int × MessageId) :=
  items.filterMap fun i =>
    match i.ref with
    | .message m => some (i.ordinal, m)
    | .summary _ => none

theorem rawItems_map_snd (items : List ContextItemRecord) :
    (rawItems items).map (·.2) = rawIds (items.map (·.ref)) := by
  induction items with
  | nil => rfl
  | cons item items ih =>
    rw [List.map_cons]
    cases hRef : item.ref <;> simpa [rawItems, hRef] using ih

/-- The items at and behind the boundary are the fresh tail. -/
theorem filter_freshTail {items : List ContextItemRecord} (h : WithinBounds items) :
    (items.filter fun i => resolveFreshTailOrdinal db config items ≤ i.ordinal).map (·.ref) =
      freshTail db config (items.map (·.ref)) := by
  have hNone : ∀ boundary, boundary = emptyFreshTailOrdinal →
      items.filter (fun i => boundary ≤ i.ordinal) = [] := by
    rintro boundary rfl
    rw [List.filter_eq_nil_iff]
    intro i hi
    have hLt := h.bound i hi
    simp only [decide_eq_true_eq]
    omega
  by_cases hCount : resolveFreshTailCount config ≤ 0
  · have hBoundary : resolveFreshTailOrdinal db config items = emptyFreshTailOrdinal := by
      simp only [resolveFreshTailOrdinal, if_pos hCount]
    rw [hNone _ hBoundary, freshTail, freshTailLength, if_pos hCount, suffixWith_zero]
    rfl
  · obtain ⟨k, hk, hLength, hWalk⟩ := freshTailWalk_eq db (resolveFreshTailCount config)
      (resolveFreshTailMaxTokens config) (rawItems items).reverse 0 0 emptyFreshTailOrdinal
    have hBoundary : resolveFreshTailOrdinal db config items =
        ((((rawItems items).reverse.take k).getLast?).map (·.1)).getD emptyFreshTailOrdinal := by
      simp only [resolveFreshTailOrdinal, if_neg hCount]
      exact hWalk
    rw [List.map_reverse, rawItems_map_snd, Nat.zero_add] at hLength
    have hTail : freshTail db config (items.map (·.ref)) = suffixWith k (items.map (·.ref)) := by
      rw [freshTail, freshTailLength, if_neg hCount, hLength]
    rcases Nat.eq_zero_or_pos k with rfl | hPos
    · rw [hNone _ hBoundary, hTail, suffixWith_zero]
      rfl
    · have hBound : k ≤ (rawIds (items.map (·.ref))).length := by
        rw [← rawItems_map_snd, List.length_map]
        simpa using hk
      obtain ⟨front, m, back, hSplit, hBack⟩ := exists_suffix hPos hBound
      obtain ⟨frontItems, rest, rfl, hFront, hRest⟩ := List.map_eq_append_iff.mp hSplit
      obtain ⟨item, backItems, rfl, hItem, hBackItems⟩ := List.map_eq_cons_iff.mp hRest
      have hOrdinal : resolveFreshTailOrdinal db config (frontItems ++ item :: backItems) =
          item.ordinal := by
        have hRaw : rawItems (frontItems ++ item :: backItems) =
            rawItems frontItems ++ (item.ordinal, m) :: rawItems backItems := by
          simp [rawItems, hItem]
        have hTake : (rawItems (frontItems ++ item :: backItems)).reverse.take k =
            ((item.ordinal, m) :: rawItems backItems).reverse := by
          rw [hRaw, List.reverse_append, List.take_append_of_le_length, List.take_of_length_le]
          · have hCountBack := congrArg List.length (rawItems_map_snd backItems)
            rw [List.length_map, hBackItems] at hCountBack
            simp only [List.length_reverse, List.length_cons]
            omega
          · have hCountBack := congrArg List.length (rawItems_map_snd backItems)
            rw [List.length_map, hBackItems] at hCountBack
            simp only [List.length_reverse, List.length_cons]
            omega
        rw [hBoundary, hTake, List.getLast?_reverse]
        rfl
      rw [hOrdinal, filter_of_sorted h.sorted, hTail, List.map_append, List.map_cons, hItem,
        ← hBack, ← hBackItems, suffixWith_append]

end FreshTail

end LosslessHermes.Compaction
