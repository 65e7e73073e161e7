import Remapping.Log.Basic

/-!
# Scopes of a log

Operations are entered and left one inside the other. A log can be opened anew in between: it
then starts outside every operation, and leaving an operation that was entered before no longer
concerns it. Otherwise `leave` undoes what `enter` did.
-/

namespace Remapping

/-- A log with the operations that have been entered. -/
structure LogScopes where
  log : Log
  /-- How often the log has been opened anew. -/
  generation : Nat := 0
  /-- The operations entered, last first: the generation of the log, and the operation that it
  was in before. -/
  entered : List (Nat × Option Text) := []

namespace LogScopes

/-- Enters an operation. -/
def enter (s : LogScopes) (operation : Text) : LogScopes :=
  { s with
    log := { s.log with operation := some operation }
    entered := (s.generation, s.log.operation) :: s.entered }

/-- Leaves the operation entered last. -/
def leave (s : LogScopes) : LogScopes :=
  match s.entered with
  | [] => s
  | (generation, before) :: entered =>
    if generation = s.generation then
      { s with log := { s.log with operation := before }, entered }
    else { s with entered }

/-- Opens the log anew, with the file that it has then. -/
def reopen (s : LogScopes) (file : LogFile) : LogScopes :=
  { s with
    log := { s.log with operation := none, file := some file }
    generation := s.generation + 1 }

end LogScopes
end Remapping
