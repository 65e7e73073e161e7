import Remapping.Number.Binary64
import Remapping.Text.Basic

/-!
# Values of documents

The values that a JSON document, a TOML document or a setting can hold. A table keeps its keys
in the order in which they were put in.
-/

namespace Remapping

/-- A value of a document. -/
inductive Value
  | null
  | bool (b : Bool)
  | int (n : Int)
  | float (x : Binary64)
  | text (t : Text)
  /-- A date, a time or both, as written. -/
  | moment (t : Text)
  | list (items : List Value)
  | table (entries : List (Text × Value))
  deriving Inhabited

namespace Value

/-- The value of a key, in the first entry that has it. -/
def find? (entries : List (Text × Value)) (key : Text) : Option Value :=
  (entries.find? (·.1 = key)).map (·.2)

/-- The value of a key of a table. -/
def get? (v : Value) (key : Text) : Option Value :=
  match v with
  | table entries => find? entries key
  | _ => none

/-- Whether a value counts as set where a setting is used as a switch. -/
def isTruthy : Value → Bool
  | null => false
  | bool b => b
  | int n => n ≠ 0
  | float x => !x.isZero
  | text t => !t.isEmpty
  | moment _ => true
  | list items => !items.isEmpty
  | table entries => !entries.isEmpty

end Value
end Remapping
