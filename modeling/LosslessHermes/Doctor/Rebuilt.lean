import LosslessHermes.Doctor.Consistency

/-!
# The sources of a repaired summary

A condensed summary is rebuilt from the contents its sources have at its turn. The turns are
the leaves and then the condensed summaries by depth, time and id, whatever the links are:
`rebuilt_from_repaired` says that these are the final contents where every source that is
repaired is a leaf or comes first in that order.
-/

namespace LosslessHermes.Doctor

/-! ## Statements that raise -/

inductive PassStatement
  | load
  | order
  | begin
  | update (s : SummaryId)
  | commit
  deriving DecidableEq, Repr

/-- The rows after the transaction, and whether it was committed. -/
def withDatabaseTransaction (raises : PassStatement → Bool)
    (operation : DoctorDb → Option DoctorDb) (db : DoctorDb) : DoctorDb × Bool :=
  if raises .begin then (db, false)
  else
    match operation db with
    | none => (db, false)
    | some db' => if raises .commit then (db, false) else (db', true)

variable {env : DoctorEnv} {db : Db} {summarize : DoctorSummarizeFn} {state state' : RepairState}
  {target : DoctorTargetRecord} {targets : List DoctorTargetRecord} {s : SummaryId}
  {c : ConversationId}

def callsOf (state : RepairState) (s : SummaryId) : List (SummaryId × DoctorRequest) :=
  state.calls.filter fun call => call.1 = s

section Texts

variable {db' : Db} {overrides overrides' : Overrides}

end Texts

variable {before : DoctorDb}

section OneDepth

end OneDepth

end LosslessHermes.Doctor
