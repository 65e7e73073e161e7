import Remapping.Number.Shortest
import Remapping.Text.Quoted
import Remapping.Value.Basic

/-!
# Values in messages

How a message or a table cell shows a value: a text as it is, and everything inside a list or
a table quoted.
-/

namespace Remapping.Value

/-- The words for a number. -/
def showFloat : Binary64 → Text
  | .infinite negative => if negative then "-inf" else "inf"
  | .nan => "nan"
  | x => x.render

mutual

/-- A value inside another: texts are quoted. -/
def shownInside : Value → Text
  | null => "None"
  | bool b => if b then "True" else "False"
  | int n => Text.ofInt n
  | float x => showFloat x
  | text t => Text.quoted t
  | moment t => t
  | list items => .char '[' :: List.intercalate ", " (shownItems items) ++ [.char ']']
  | table entries => .char '\x7b' :: List.intercalate ", " (shownEntries entries) ++ [.char '\x7d']

/-- Each item of a list. -/
def shownItems : List Value → List Text
  | [] => []
  | item :: items => shownInside item :: shownItems items

/-- Each entry of a table. -/
def shownEntries : List (Text × Value) → List Text
  | [] => []
  | (key, value) :: entries =>
    (Text.quoted key ++ ": " ++ shownInside value) :: shownEntries entries

end

/-- A value by itself: a text stands as it is. -/
def shown : Value → Text
  | text t => t
  | v => shownInside v

end Remapping.Value
