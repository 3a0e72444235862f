import Mathlib.Data.Prod.Lex
import Mathlib.Data.String.Basic
import LosslessHermes.Library.Text
import LosslessHermes.Store.Summary

/-!
# The markers of a broken summary

`detectDoctorMarker` classifies a content by the marker it starts or ends with, and
`loadDoctorTargets` reads the rows that have one. The rows are read whether they are
suppressed or not. `not_blank_of_marker` is what the repair relies on: a target has text.
-/

namespace LosslessHermes.Doctor

inductive DoctorMarkerKind
  | old
  | new
  | fallback
  deriving DecidableEq, Repr

def FALLBACK_SUMMARY_MARKER : String :=
  "[LCM fallback summary; truncated for context management]"

def FALLBACK_SUMMARY_MARKER_V41_TRUNC : String :=
  "[LCM fallback summary — model unavailable; raw source truncated for context management]"

def FALLBACK_SUMMARY_MARKER_V41_FULL : String :=
  "[LCM fallback summary — model unavailable; raw source preserved verbatim below]"

def TRUNCATED_SUMMARY_PREFIX : String := "[Truncated from "

def TRUNCATED_SUMMARY_WINDOW : Nat := 40

def FALLBACK_SUMMARY_WINDOW : Nat := 80

/-- The first place of the marker is among the last characters. -/
def inWindow (content marker : String) (window : Nat) : Bool :=
  (Text.find content marker).any fun i => content.toList.length - i < window

def detectDoctorMarker (content : String) : Option DoctorMarkerKind :=
  if Text.startsWith content FALLBACK_SUMMARY_MARKER_V41_TRUNC ||
      Text.startsWith content FALLBACK_SUMMARY_MARKER_V41_FULL then some .fallback
  else if Text.startsWith content FALLBACK_SUMMARY_MARKER then some .old
  else if inWindow content TRUNCATED_SUMMARY_PREFIX TRUNCATED_SUMMARY_WINDOW then some .new
  else if inWindow content FALLBACK_SUMMARY_MARKER FALLBACK_SUMMARY_WINDOW then some .fallback
  else none

structure DoctorTargetRecord where
  conversationId : ConversationId
  summaryId : SummaryId
  kind : SummaryKind
  depth : Nat
  tokenCount : Nat
  content : String
  createdAt : Timestamp
  childCount : Nat
  markerKind : DoctorMarkerKind
  deriving DecidableEq, Repr

/-- The four `INSTR` tests of the query. -/
def mentionsMarker (content : String) : Bool :=
  [FALLBACK_SUMMARY_MARKER, FALLBACK_SUMMARY_MARKER_V41_TRUNC, FALLBACK_SUMMARY_MARKER_V41_FULL,
    TRUNCATED_SUMMARY_PREFIX].any fun marker => (Text.find content marker).isSome

/-- One row of the query, kept if the marker is where it counts. -/
def targetOf (db : Db) (s : SummaryRecord) : Option DoctorTargetRecord :=
  (detectDoctorMarker s.content).map fun markerKind =>
    { conversationId := s.conversationId, summaryId := s.summaryId, kind := s.kind,
      depth := s.depth, tokenCount := s.tokenCount, content := s.content,
      createdAt := s.createdAt,
      childCount := (db.summaryParents.filter fun l => l.summaryId = s.summaryId).length,
      markerKind := markerKind }

/-- Of one conversation, or of all of them for `none`. -/
def loadDoctorTargets (db : Db) (conversationId : Option ConversationId) :
    List DoctorTargetRecord :=
  (Table.select
    (fun s : SummaryRecord =>
      conversationId.all (· = s.conversationId) && mentionsMarker s.content)
    (fun s => toLex (s.conversationId, toLex (s.depth, toLex (s.createdAt, s.summaryId))))
    db.summaries).filterMap (targetOf db)

/-! ## What a target is -/

theorem infix_of_inWindow {content marker : String} {window : Nat}
    (h : inWindow content marker window = true) : marker.toList <:+: content.toList := by
  obtain ⟨i, hFind, -⟩ := (Option.any_eq_true _ _).mp h
  exact Text.infix_of_find hFind

theorem not_blank_of_marker {content : String} (h : (detectDoctorMarker content).isSome) :
    Text.isBlank content = false := by
  have hMarkers : ∀ marker ∈ [FALLBACK_SUMMARY_MARKER, FALLBACK_SUMMARY_MARKER_V41_TRUNC,
      FALLBACK_SUMMARY_MARKER_V41_FULL, TRUNCATED_SUMMARY_PREFIX],
      Text.isBlank marker = false := by decide
  suffices hInfix : ∃ marker ∈ [FALLBACK_SUMMARY_MARKER, FALLBACK_SUMMARY_MARKER_V41_TRUNC,
      FALLBACK_SUMMARY_MARKER_V41_FULL, TRUNCATED_SUMMARY_PREFIX],
      marker.toList <:+: content.toList by
    obtain ⟨marker, hMarker, hInfix⟩ := hInfix
    by_contra hBlank
    have hPart := Text.isBlank_of_infix hInfix (Bool.not_eq_false _ ▸ hBlank)
    rw [hMarkers marker hMarker] at hPart
    cases hPart
  unfold detectDoctorMarker at h
  split at h
  · rename_i hStarts
    rcases Bool.or_eq_true_iff.mp hStarts with hStarts | hStarts
    · exact ⟨_, by simp, Text.infix_of_startsWith hStarts⟩
    · exact ⟨_, by simp, Text.infix_of_startsWith hStarts⟩
  · split at h
    · rename_i hStarts
      exact ⟨_, List.mem_cons_self, Text.infix_of_startsWith hStarts⟩
    · split at h
      · rename_i hWindow
        exact ⟨_, by simp, infix_of_inWindow hWindow⟩
      · split at h
        · rename_i hWindow
          exact ⟨_, List.mem_cons_self, infix_of_inWindow hWindow⟩
        · cases h

theorem targetOf_eq_some {db : Db} {s : SummaryRecord} {target : DoctorTargetRecord}
    (h : targetOf db s = some target) :
    target.summaryId = s.summaryId ∧ target.content = s.content ∧
      (detectDoctorMarker s.content).isSome := by
  obtain ⟨markerKind, hMarker, rfl⟩ := Option.map_eq_some_iff.mp h
  exact ⟨rfl, rfl, by rw [hMarker]; rfl⟩

theorem exists_row_of_target {db : Db} {conversationId : Option ConversationId}
    {target : DoctorTargetRecord} (h : target ∈ loadDoctorTargets db conversationId) :
    ∃ s ∈ db.summaries, targetOf db s = some target := by
  obtain ⟨s, hs, hTarget⟩ := List.mem_filterMap.mp h
  exact ⟨s, (Table.mem_select.mp hs).1, hTarget⟩

end LosslessHermes.Doctor
