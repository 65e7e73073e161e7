import Remapping.Log.Basic

/-!
# Sessions

A session is what a run works on: the files, the log and the time. A stage changes the session
and gives a result or a failure; what it did before a failure stays done. Work in an operation is
done `within` it: afterwards the log is in the operation that it was in before.
-/

namespace Remapping

/-- The files, the log and the time of a run. -/
structure Session where
  files : Files
  log : Log
  now : Moment := {}

/-- A step of a run that can fail; the session keeps what was done before the failure. -/
abbrev Stage := ExceptT Failure (StateM Session)

namespace Session

/-- Writes a record to the log of the session. -/
def record (s : Session) (severity : Severity) (message : Text) : Session :=
  { s with files := s.log.emit s.files s.now severity message none }

/-- Puts the log into an operation, or out of any. -/
def inOperation (s : Session) (operation : Option Text) : Session :=
  { s with log := { s.log with operation } }

@[simp] theorem log_record (s : Session) (severity : Severity) (message : Text) :
    (s.record severity message).log = s.log := rfl

@[simp] theorem operation_inOperation (s : Session) (operation : Option Text) :
    (s.inOperation operation).log.operation = operation := rfl

end Session

/-- Writes a record to the log. -/
def record (severity : Severity) (message : Text) : StateM Session Unit :=
  modify (·.record severity message)

/-- Does some work in an operation of the log. -/
def within (operation : Text) (work : StateM Session α) : StateM Session α := fun s =>
  let (result, after) := work (s.inOperation (some operation))
  (result, after.inOperation s.log.operation)

end Remapping
